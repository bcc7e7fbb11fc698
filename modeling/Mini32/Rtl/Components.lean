import Mini32.Isa.Control
import Mini32.Lib.Bits

/-!
# The combinational modules of the RTL core

`decoder`, `control_unit`, `alu` and `immediate_generator` as functions from
input ports to output ports.  Signals are two-valued: an `x` at power-up is an
arbitrary value.

`decoder_eq` says that the decoder accepts and rejects as the documented
`Isa.decode` does and puts the fields of a legal word on its ports; a port that
the format does not use carries whatever bits are there.

## How they are written down

Each function is the `always_comb` of its module: the default assignments become the
fields of a structure, a `case` over opcodes becomes a chain of comparisons in the order
of its items, and an assignment in an item becomes an update of the structure.  The
opcodes are the constants of the package under the package's names, so the labels of a
`case` item can be compared one by one.

## What is proved of them

Not that the ports are equal to the fields of an instruction, which is false: the decoder
takes its fields from fixed positions, so the `rd` port of a branch is part of its
immediate.  `Decoded.Carries` says of each format which ports matter, and the core is
shown in `Rtl.Step` to look at no other.  The remaining lemmas identify `controlUnit`,
`alu` and `immediateGenerator` with the control record, the ALU operations and the
extensions of the ISA, each over all its inputs.
-/

namespace Mini32.Rtl

/-! ## Opcodes of the package -/

/-- `NOP` -/
def OP_NOP : BitVec 6 := 0x00
/-- `ADD rd, rs1, rs2` -/
def OP_ADD : BitVec 6 := 0x01
/-- `SUB rd, rs1, rs2` -/
def OP_SUB : BitVec 6 := 0x02
/-- `AND rd, rs1, rs2` -/
def OP_AND : BitVec 6 := 0x03
/-- `OR rd, rs1, rs2` -/
def OP_OR : BitVec 6 := 0x04
/-- `XOR rd, rs1, rs2` -/
def OP_XOR : BitVec 6 := 0x05
/-- `SLT rd, rs1, rs2` -/
def OP_SLT : BitVec 6 := 0x06
/-- `SHL rd, rs1, rs2` -/
def OP_SHL : BitVec 6 := 0x07
/-- `SHR rd, rs1, rs2` -/
def OP_SHR : BitVec 6 := 0x08
/-- `ADDI rd, rs1, imm16` -/
def OP_ADDI : BitVec 6 := 0x09
/-- `ANDI rd, rs1, imm16` -/
def OP_ANDI : BitVec 6 := 0x0A
/-- `ORI rd, rs1, imm16` -/
def OP_ORI : BitVec 6 := 0x0B
/-- `XORI rd, rs1, imm16` -/
def OP_XORI : BitVec 6 := 0x0C
/-- `LUI rd, imm16` -/
def OP_LUI : BitVec 6 := 0x0D
/-- `LW rd, offset(rs1)` -/
def OP_LW : BitVec 6 := 0x0E
/-- `SW rs2, offset(rs1)` -/
def OP_SW : BitVec 6 := 0x0F
/-- `BEQ rs1, rs2, target` -/
def OP_BEQ : BitVec 6 := 0x10
/-- `BNE rs1, rs2, target` -/
def OP_BNE : BitVec 6 := 0x11
/-- `BLT rs1, rs2, target` -/
def OP_BLT : BitVec 6 := 0x12
/-- `BGE rs1, rs2, target` -/
def OP_BGE : BitVec 6 := 0x13
/-- `J target` -/
def OP_J : BitVec 6 := 0x14
/-- `JAL target` -/
def OP_JAL : BitVec 6 := 0x15
/-- `JR rs1` -/
def OP_JR : BitVec 6 := 0x16
/-- `HALT` -/
def OP_HALT : BitVec 6 := 0x17

/-! ## Decoder -/

/-- The output ports of `decoder`. -/
structure Decoded where
  opcode : BitVec 6
  rd : BitVec 5
  rs1 : BitVec 5
  rs2 : BitVec 5
  imm16 : BitVec 16
  imm26 : BitVec 26
  valid : Bool
  malformed : Bool
  deriving DecidableEq, Repr

/-- `decoder`: the fields from their positions, and whether the word is legal. A word is
malformed if its opcode is allocated and a bit that the format reserves is set. -/
def decoder (instruction : Word) : Decoded :=
  let opcode := instruction.extractLsb' 26 6
  let ports : Decoded :=
    { opcode, rd := instruction.extractLsb' 21 5, rs1 := instruction.extractLsb' 16 5
      rs2 := instruction.extractLsb' 11 5, imm16 := instruction.extractLsb' 0 16
      imm26 := instruction.extractLsb' 0 26, valid := true, malformed := false }
  if opcode = OP_NOP ∨ opcode = OP_HALT then
    if instruction.extractLsb' 0 26 ≠ 0 then { ports with valid := false, malformed := true }
    else ports
  else if opcode = OP_ADD ∨ opcode = OP_SUB ∨ opcode = OP_AND ∨ opcode = OP_OR ∨ opcode = OP_XOR ∨
      opcode = OP_SLT ∨ opcode = OP_SHL ∨ opcode = OP_SHR then
    if instruction.extractLsb' 0 11 ≠ 0 then { ports with valid := false, malformed := true }
    else ports
  else if opcode = OP_ADDI ∨ opcode = OP_ANDI ∨ opcode = OP_ORI ∨ opcode = OP_XORI ∨
      opcode = OP_LW then ports
  else if opcode = OP_LUI then
    if instruction.extractLsb' 16 5 ≠ 0 then { ports with valid := false, malformed := true }
    else ports
  else if opcode = OP_SW then { ports with rs2 := instruction.extractLsb' 21 5 }
  else if opcode = OP_BEQ ∨ opcode = OP_BNE ∨ opcode = OP_BLT ∨ opcode = OP_BGE then
    { ports with rs1 := instruction.extractLsb' 21 5, rs2 := instruction.extractLsb' 16 5 }
  else if opcode = OP_J ∨ opcode = OP_JAL then ports
  else if opcode = OP_JR then
    let ports := { ports with rs1 := instruction.extractLsb' 21 5 }
    if instruction.extractLsb' 0 21 ≠ 0 then { ports with valid := false, malformed := true }
    else ports
  else { ports with valid := false }

/-! ## Control unit -/

/-- The outputs of `control_unit`; the last one is `supported`. -/
def controlUnit (opcode : BitVec 6) : ControlSignals × Bool :=
  if opcode = OP_NOP then ({}, true)
  else if opcode = OP_ADD then ({ regWrite := true, aluOperation := .add }, true)
  else if opcode = OP_SUB then ({ regWrite := true, aluOperation := .sub }, true)
  else if opcode = OP_AND then ({ regWrite := true, aluOperation := .and }, true)
  else if opcode = OP_OR then ({ regWrite := true, aluOperation := .or }, true)
  else if opcode = OP_XOR then ({ regWrite := true, aluOperation := .xor }, true)
  else if opcode = OP_SLT then ({ regWrite := true, aluOperation := .slt }, true)
  else if opcode = OP_SHL then ({ regWrite := true, aluOperation := .shiftLeft }, true)
  else if opcode = OP_SHR then ({ regWrite := true, aluOperation := .shiftRight }, true)
  else if opcode = OP_ADDI then
    ({ regWrite := true, aluSrcImmediate := true, immediateKind := .signed16 }, true)
  else if opcode = OP_ANDI then
    ({ regWrite := true, aluSrcImmediate := true, aluOperation := .and,
       immediateKind := .zeroExtended16 }, true)
  else if opcode = OP_ORI then
    ({ regWrite := true, aluSrcImmediate := true, aluOperation := .or,
       immediateKind := .zeroExtended16 }, true)
  else if opcode = OP_XORI then
    ({ regWrite := true, aluSrcImmediate := true, aluOperation := .xor,
       immediateKind := .zeroExtended16 }, true)
  else if opcode = OP_LUI then
    ({ regWrite := true, aluSrcImmediate := true, immediateKind := .upper16 }, true)
  else if opcode = OP_LW then
    ({ regWrite := true, aluSrcImmediate := true, immediateKind := .signed16,
       memoryOperation := .load, writebackSource := .memory }, true)
  else if opcode = OP_SW then
    ({ aluSrcImmediate := true, immediateKind := .signed16, memoryOperation := .store }, true)
  else if opcode = OP_BEQ then
    ({ controlFlow := .conditionalBranch, branchPredicate := .equal }, true)
  else if opcode = OP_BNE then
    ({ controlFlow := .conditionalBranch, branchPredicate := .notEqual }, true)
  else if opcode = OP_BLT then
    ({ controlFlow := .conditionalBranch, branchPredicate := .signedLessThan }, true)
  else if opcode = OP_BGE then
    ({ controlFlow := .conditionalBranch, branchPredicate := .signedGreaterEqual }, true)
  else if opcode = OP_J then ({ controlFlow := .relativeJump }, true)
  else if opcode = OP_JAL then
    ({ regWrite := true, controlFlow := .relativeJump, writebackSource := .pcPlus4,
       registerDestination := .returnAddress }, true)
  else if opcode = OP_JR then ({ controlFlow := .registerJump }, true)
  else if opcode = OP_HALT then ({ halt := true }, true)
  else ({}, false)

/-! ## ALU and immediate generator -/

/-- `alu`; a shift takes its amount from the five low bits of `rhs`. -/
def alu (lhs rhs : Word) (operation : AluOperation) : Word :=
  match operation with
  | .add => lhs + rhs
  | .sub => lhs - rhs
  | .and => lhs &&& rhs
  | .or => lhs ||| rhs
  | .xor => lhs ^^^ rhs
  | .slt => if lhs.slt rhs then 1 else 0
  | .shiftLeft => lhs <<< rhs.extractLsb' 0 5
  | .shiftRight => lhs >>> rhs.extractLsb' 0 5

/-- `immediate_generator` -/
def immediateGenerator (immediate : BitVec 16) (kind : ImmediateKind) : Word :=
  match kind with
  | .signed16 => (BitVec.replicate 16 (BitVec.ofBool (immediate.getLsbD 15)) ++ immediate :
      BitVec (1 * 16 + 16))
  | .zeroExtended16 => (0#16 ++ immediate : BitVec (16 + 16))
  | .upper16 => (immediate ++ 0#16 : BitVec (16 + 16))
  | .none => 0

/-! ## They compute the documented functions -/

/-- What the ports carry for an instruction: the fields it uses, and for `LUI` the
register its ALU operation adds to the immediate. -/
def Decoded.Carries (d : Decoded) : Isa.Instr → Prop
  | .nop | .halt => True
  | .alu _ rd rs1 rs2 => d.rd = rd ∧ d.rs1 = rs1 ∧ d.rs2 = rs2
  | .imm _ rd rs1 imm16 | .lw rd rs1 imm16 => d.rd = rd ∧ d.rs1 = rs1 ∧ d.imm16 = imm16
  | .lui rd imm16 => d.rd = rd ∧ d.rs1 = 0 ∧ d.imm16 = imm16
  | .sw rs2 rs1 imm16 | .branch _ rs1 rs2 imm16 => d.rs1 = rs1 ∧ d.rs2 = rs2 ∧ d.imm16 = imm16
  | .j imm26 | .jal imm26 => d.imm26 = imm26
  | .jr rs1 => d.rs1 = rs1

instance (d : Decoded) (i : Isa.Instr) : Decidable (d.Carries i) := by
  cases i <;> unfold Decoded.Carries <;> infer_instance

/-- The package's opcode constants. -/
def opcodes : List (BitVec 6) :=
  [OP_NOP, OP_ADD, OP_SUB, OP_AND, OP_OR, OP_XOR, OP_SLT, OP_SHL, OP_SHR, OP_ADDI, OP_ANDI, OP_ORI,
    OP_XORI, OP_LUI, OP_LW, OP_SW, OP_BEQ, OP_BNE, OP_BLT, OP_BGE, OP_J, OP_JAL, OP_JR, OP_HALT]

/-- Each of them is an opcode of the ISA. -/
theorem opcodes_allocated : ∀ k ∈ opcodes, (Opcode.ofCode? k).isSome := by decide

/-- **The RTL decoder computes the documented decoding** of every word. -/
theorem decoder_eq (w : Word) :
    match Isa.decode w with
    | .error .illegal => (decoder w).valid = false ∧ (decoder w).malformed = false
    | .error .malformed => (decoder w).valid = false ∧ (decoder w).malformed = true
    | .ok i => (decoder w).valid = true ∧ (decoder w).opcode = i.opcode.code ∧
        (decoder w).Carries i := by
  unfold Isa.decode decoder
  cases hop : Opcode.ofCode? (Isa.opcodeField w) with
  | none =>
      have hne : ∀ k ∈ opcodes, ¬ w.extractLsb' 26 6 = k := by
        rintro k hk rfl
        have hsome := opcodes_allocated _ hk
        rw [← Isa.opcodeField, hop] at hsome
        cases hsome
      simp only [opcodes, List.mem_cons, forall_eq_or_imp, List.not_mem_nil, false_implies,
        implies_true, and_true] at hne
      simp [hne]
  | some op =>
      have hcode : w.extractLsb' 26 6 = op.code := (Opcode.code_of_ofCode? hop).symm
      simp only [hcode]
      cases op
      case nop | halt =>
        by_cases hz : w.extractLsb' 0 26 = 0#26 <;>
          simp +decide [Isa.decodeAs, Isa.reserved, Isa.imm26Field, hz, Decoded.Carries]
      case add | sub | and | or | xor | slt | shl | shr =>
        by_cases hz : w.extractLsb' 0 11 = 0#11 <;>
          simp +decide [Isa.decodeAs, Isa.decodeAlu, Isa.reserved, hz, Decoded.Carries,
            Isa.Instr.opcode, Isa.AluOp.opcode, Isa.fieldA, Isa.fieldB, Isa.fieldC]
      case lui =>
        by_cases hz : w.extractLsb' 16 5 = 0#5 <;>
          simp +decide [Isa.decodeAs, Isa.reserved, hz, Decoded.Carries, Isa.Instr.opcode,
            Isa.fieldA, Isa.fieldB, Isa.imm16Field]
      case jr =>
        by_cases hz : w.extractLsb' 0 21 = 0#21 <;>
          simp +decide [Isa.decodeAs, Isa.reserved, hz, Decoded.Carries, Isa.Instr.opcode,
            Isa.fieldA]
      all_goals
        simp +decide [Isa.decodeAs, Isa.decodeImm, Isa.decodeBranch, Decoded.Carries,
          Isa.Instr.opcode, Isa.ImmOp.opcode, Isa.Cond.opcode, Isa.fieldA, Isa.fieldB,
          Isa.imm16Field, Isa.imm26Field]

/-- The control unit has a record for every instruction, and it is the documented one. -/
theorem controlUnit_opcode (i : Isa.Instr) : controlUnit i.opcode.code = (i.control, true) := by
  cases i with
  | alu op => cases op <;> rfl
  | imm op => cases op <;> rfl
  | branch c => cases c <;> rfl
  | _ => rfl

/-- The ALU computes the operation of an R-format instruction, … -/
theorem alu_operation (op : Isa.AluOp) (lhs rhs : Word) :
    alu lhs rhs op.operation = op.eval lhs rhs := by
  cases op <;> rfl

/-- The immediate generator extends the sign, … -/
theorem immediateGenerator_signed16 (immediate : BitVec 16) :
    immediateGenerator immediate .signed16 = immediate.signExtend 32 := by
  refine Eq.trans ?_ (Bits.signExtend_eq_replicate_append immediate 16).symm
  have hsign : immediate.getLsbD 15 = immediate.msb := (BitVec.msb_eq_getLsbD_last immediate).symm
  simp only [immediateGenerator, hsign]
  cases immediate.msb <;> rfl

/-- … fills up with zeros, … -/
theorem immediateGenerator_zeroExtended16 (immediate : BitVec 16) :
    immediateGenerator immediate .zeroExtended16 = immediate.zeroExtend 32 := by
  simp only [immediateGenerator]
  grind

/-- … or shifts the immediate up. -/
theorem immediateGenerator_upper16 (immediate : BitVec 16) :
    immediateGenerator immediate .upper16 = immediate.zeroExtend 32 <<< 16 := by
  simp only [immediateGenerator]
  grind

/-- … and, behind the immediate generator, that of an immediate instruction. -/
theorem alu_extension (op : Isa.ImmOp) (lhs : Word) (imm16 : BitVec 16) :
    alu lhs (immediateGenerator imm16 op.extension) op.operation = op.eval lhs imm16 := by
  cases op <;>
    simp only [Isa.ImmOp.extension, Isa.ImmOp.operation, immediateGenerator_signed16,
      immediateGenerator_zeroExtended16, alu, Isa.ImmOp.eval]

end Mini32.Rtl
