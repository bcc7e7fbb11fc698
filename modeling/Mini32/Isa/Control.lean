import Mini32.Isa.Step

/-!
# Control signals

Both cores drive their datapath from a control record computed from the opcode.
The C++ struct `ControlSignals` and the outputs of the RTL `control_unit` have
the same ten fields over the same enumerations, so the two share these types;
each keeps its own table in its own module, and `Isa.Instr.control` is the record
that both tables are shown to hold for an instruction.

## What a control record is for

A record does not say what an instruction does, it says which way the operands go
through the datapath.  `regWrite`, `writebackSource` and `registerDestination` say
whether, from where and to which register the writeback goes; `aluSrcImmediate`,
`immediateKind` and `aluOperation` say what the ALU is given and what it does with it;
`memoryOperation` says whether there is a memory cycle at all; `controlFlow` and
`branchPredicate` say how the next PC comes about; and `halt` ends the run.

The same record serves two cores that are built differently.  The simulator has a
function per microstate that asks for the fields it needs, the RTL has one edge with a
case for each state.  `Simulator.Step` and `Rtl.Step` read the two off against
`Isa.execute`, and both go through `Instr.control`: neither development ever looks at an
opcode again once its table is known to be this one.
-/

namespace Mini32

/-- What the ALU computes. `LUI`, loads and stores add, so that one adder serves them all. -/
inductive AluOperation
  | add | sub | and | or | xor | slt | shiftLeft | shiftRight
  deriving DecidableEq, Repr

/-- Where the value of the destination register comes from. -/
inductive WritebackSource
  | alu | memory | pcPlus4
  deriving DecidableEq, Repr

/-- Which register is written: the `rd` field, or `r31` for the return address of `JAL`. -/
inductive RegisterDestination
  | decodedRd | returnAddress
  deriving DecidableEq, Repr

/-- How the next PC comes about. -/
inductive ControlFlowKind
  | sequential | conditionalBranch | relativeJump | registerJump
  deriving DecidableEq, Repr

/-- The comparison of a conditional branch; `none` for everything else. -/
inductive BranchPredicate
  | none | equal | notEqual | signedLessThan | signedGreaterEqual
  deriving DecidableEq, Repr

/-- How the 16 bits of the immediate field are made a word. -/
inductive ImmediateKind
  | none | signed16 | zeroExtended16 | upper16
  deriving DecidableEq, Repr

/-- The data access of an instruction, if it has one. -/
inductive MemoryOperation
  | none | load | store
  deriving DecidableEq, Repr

/-- The control record. The default values are those of the C++ struct, and those that the
`always_comb` of `control_unit` assigns before its `case`. -/
structure ControlSignals where
  regWrite : Bool := false
  aluSrcImmediate : Bool := false
  aluOperation : AluOperation := .add
  writebackSource : WritebackSource := .alu
  registerDestination : RegisterDestination := .decodedRd
  immediateKind : ImmediateKind := .none
  memoryOperation : MemoryOperation := .none
  controlFlow : ControlFlowKind := .sequential
  branchPredicate : BranchPredicate := .none
  halt : Bool := false
  deriving DecidableEq, Repr

/-! ## The control record of an instruction -/

namespace Isa

/-- The ALU operation of an R-format instruction. -/
def AluOp.operation : AluOp → AluOperation
  | add => .add | sub => .sub | and => .and | or => .or
  | xor => .xor | slt => .slt | shl => .shiftLeft | shr => .shiftRight

/-- The ALU operation of an immediate instruction, which is that of its R-format sibling. -/
def ImmOp.operation : ImmOp → AluOperation
  | addi => .add | andi => .and | ori => .or | xori => .xor

/-- `ADDI` extends the sign of its immediate, the logical operations do not. -/
def ImmOp.extension : ImmOp → ImmediateKind
  | addi => .signed16
  | andi | ori | xori => .zeroExtended16

/-- The predicate of a branch. -/
def Cond.predicate : Cond → BranchPredicate
  | eq => .equal
  | ne => .notEqual
  | lt => .signedLessThan
  | ge => .signedGreaterEqual

namespace Instr

/-- The control record of an instruction. -/
def control : Instr → ControlSignals
  | nop => {}
  | alu op .. => { regWrite := true, aluOperation := op.operation }
  | imm op .. =>
      { regWrite := true, aluSrcImmediate := true, aluOperation := op.operation,
        immediateKind := op.extension }
  | lui .. => { regWrite := true, aluSrcImmediate := true, immediateKind := .upper16 }
  | lw .. =>
      { regWrite := true, aluSrcImmediate := true, writebackSource := .memory,
        immediateKind := .signed16, memoryOperation := .load }
  | sw .. => { aluSrcImmediate := true, immediateKind := .signed16, memoryOperation := .store }
  | branch c .. => { controlFlow := .conditionalBranch, branchPredicate := c.predicate }
  | j _ => { controlFlow := .relativeJump }
  | jal _ =>
      { regWrite := true, writebackSource := .pcPlus4, registerDestination := .returnAddress,
        controlFlow := .relativeJump }
  | jr _ => { controlFlow := .registerJump }
  | halt => { halt := true }

/-- The register an instruction writes back to. -/
def destination : Instr → Reg
  | alu _ rd _ _ | imm _ rd _ _ | lui rd _ | lw rd _ _ => rd
  | jal _ => 31
  | _ => 0

end Instr
end Isa

end Mini32
