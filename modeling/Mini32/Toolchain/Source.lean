import Mini32.Isa.MemoryMap
import Mini32.Toolchain.Layout
import Mini32.Toolchain.Operands

/-!
# What an assembly program means

The meaning of a source text without its encoding.  A program is its statements in
order, with registers, numbers of any size, and targets that are other statements.

## Reading

`read` takes a text to a program with the tokenizing of the assembler and none of its
encoding: operands are registers, integers and labels.  A label stands for the position of
the statement behind it.  Whether a number fits its field is not asked here; the assembler
refuses those that do not.

## Executing

`Program.step` executes the statement that the PC is at: statement `i` is at address
`4 * i`, which is all that is said about addresses.  Nothing is fetched from the bus.
A `.word` is executed, if control gets there, as the instruction it encodes, and what
is behind the program is a row of NOPs up to the end of the ROM.

The assembler is correct if its images do on the ISA what their sources mean here.
-/

namespace Mini32.Source

open Py Toolchain Isa

/-! ## Programs -/

/-- Where control goes: so many statements from the next one, or to a statement. -/
inductive Target
  | relative (statements : ℤ)
  | statement (position : ℕ)
  deriving DecidableEq, Repr

/-- An instruction as it is written, with its numbers as integers. -/
inductive Instr
  | nop
  | alu (op : AluOp) (rd rs1 rs2 : Reg)
  | imm (op : ImmOp) (rd rs1 : Reg) (value : ℤ)
  | lui (rd : Reg) (value : ℤ)
  | lw (rd base : Reg) (offset : ℤ)
  | sw (rs2 base : Reg) (offset : ℤ)
  | branch (cond : Cond) (rs1 rs2 : Reg) (target : Target)
  | j (target : Target)
  | jal (target : Target)
  | jr (rs1 : Reg)
  | halt
  deriving DecidableEq, Repr

/-- An instruction or a `.word` directive. -/
inductive Statement
  | instr (i : Instr)
  | word (value : ℕ)
  deriving DecidableEq, Repr

/-- The statements of a source, in order. -/
abbrev Program := List Statement

/-! ## Reading -/

section Reading

/-- Labels with the positions of the statements they are in front of. -/
abbrev Positions := List (Str × ℕ)

/-- The labels of lines whose first statement has this position. -/
def positions : ℕ → List Str → Positions
  | _, [] => []
  | position, line :: lines =>
      (lineLabels line).map (·, position) ++ positions (position + statementCount [line]) lines

/-- The register of a token. -/
def register (token : Str) : Option Reg :=
  (readRegister token).bind fun index => if index < 32 then some (BitVec.ofNat 5 index) else none

/-- The offset and the base register of a memory operand. -/
def memory (token : Str) : Option (ℤ × Reg) := do
  let (offset, base) ← memoryMatch token
  return (← int0 offset, ← register base)

variable (labels : Positions)

/-- A number counts statements from the next one; anything else is a label. -/
def target (token : Str) : Option Target :=
  match int0 token with
  | some statements => some (.relative statements)
  | none => (labels.lookup token).map .statement

/-- An instruction without operands. -/
def readBare (i : Instr) : List Str → Option Instr
  | [] => some i
  | _ => none

/-- Three registers. -/
def readAlu (op : AluOp) : List Str → Option Instr
  | [rd, rs1, rs2] => return .alu op (← register rd) (← register rs1) (← register rs2)
  | _ => none

/-- Two registers and a number. -/
def readImm (op : ImmOp) : List Str → Option Instr
  | [rd, rs1, value] => return .imm op (← register rd) (← register rs1) (← int0 value)
  | _ => none

/-- A register and a number. -/
def readLui : List Str → Option Instr
  | [rd, value] => return .lui (← register rd) (← int0 value)
  | _ => none

/-- A register and a memory operand. -/
def readMemory (i : Reg → Reg → ℤ → Instr) : List Str → Option Instr
  | [r, token] => do
      let (offset, base) ← memory token
      return i (← register r) base offset
  | _ => none

/-- Two registers and a target. -/
def readBranch (cond : Cond) : List Str → Option Instr
  | [rs1, rs2, token] => do
      let target ← target labels token
      return .branch cond (← register rs1) (← register rs2) target
  | _ => none

/-- A target. -/
def readJump (i : Target → Instr) : List Str → Option Instr
  | [token] => return i (← target labels token)
  | _ => none

/-- A register. -/
def readJr : List Str → Option Instr
  | [rs1] => return .jr (← register rs1)
  | _ => none

/-- The instruction of a mnemonic with these operands. -/
def readOpcode (tokens : List Str) : Opcode → Option Instr
  | .nop => readBare .nop tokens
  | .add => readAlu .add tokens
  | .sub => readAlu .sub tokens
  | .and => readAlu .and tokens
  | .or => readAlu .or tokens
  | .xor => readAlu .xor tokens
  | .slt => readAlu .slt tokens
  | .shl => readAlu .shl tokens
  | .shr => readAlu .shr tokens
  | .addi => readImm .addi tokens
  | .andi => readImm .andi tokens
  | .ori => readImm .ori tokens
  | .xori => readImm .xori tokens
  | .lui => readLui tokens
  | .lw => readMemory .lw tokens
  | .sw => readMemory .sw tokens
  | .beq => readBranch labels .eq tokens
  | .bne => readBranch labels .ne tokens
  | .blt => readBranch labels .lt tokens
  | .bge => readBranch labels .ge tokens
  | .j => readJump labels .j tokens
  | .jal => readJump labels .jal tokens
  | .jr => readJr tokens
  | .halt => readBare .halt tokens

/-- The statement of a text.  `RET` is `JR r31`, whatever follows it. -/
def readStatement (text : Str) : Option Statement :=
  match expand (splitWord text) with
  | none => none
  | some (mnemonic, operands) =>
      if mnemonic = ".WORD".toList then
        (int0 (strip operands)).map fun value => .word value.toNat
      else
        (opcodeNamed mnemonic).bind fun op =>
          (readOpcode labels (operandsOf operands) op).map .instr

/-- The program of a source text. -/
def read (source : Str) : Option Program :=
  let lines := splitLines source
  ((lines.filter hasStatement).map lineStatement).mapM (readStatement (positions 0 lines))

end Reading

/-! ## Executing -/

section Executing

variable {B : Type} (M : BusModel B)

/-- What an immediate operation computes. -/
def applyImm (x value : Word) : ImmOp → Word
  | .addi => x + value
  | .andi => x &&& value
  | .ori => x ||| value
  | .xori => x ^^^ value

/-- The address of a target, seen from the PC. -/
def Target.address (pc : Word) : Target → Word
  | .relative statements => pc + 4 + BitVec.ofInt 32 (4 * statements)
  | .statement position => BitVec.ofNat 32 (4 * position)

/-- The effect of an instruction, or a fault with the data address. -/
def execute (a : ArchState) (b : B) : Instr → Except (CpuFault × Word) (Effect × B)
  | .nop => .ok ({ nextPc := a.pc + 4 }, b)
  | .alu op rd rs1 rs2 =>
      .ok ({ nextPc := a.pc + 4, regWrite := some (rd, op.eval (a.read rs1) (a.read rs2)) }, b)
  | .imm op rd rs1 value =>
      .ok ({ nextPc := a.pc + 4
             regWrite := some (rd, applyImm (a.read rs1) (BitVec.ofInt 32 value) op) }, b)
  | .lui rd value =>
      .ok ({ nextPc := a.pc + 4, regWrite := some (rd, BitVec.ofInt 32 value <<< 16) }, b)
  | .lw rd base offset =>
      let address := a.read base + BitVec.ofInt 32 offset
      match M.load b address with
      | .error f => .error (loadFault f, address)
      | .ok v => .ok ({ nextPc := a.pc + 4, regWrite := some (rd, v) }, b)
  | .sw rs2 base offset =>
      let address := a.read base + BitVec.ofInt 32 offset
      match M.store b address (a.read rs2) with
      | .error f => .error (storeFault f, address)
      | .ok b' => .ok ({ nextPc := a.pc + 4, memWrite := some (address, a.read rs2) }, b')
  | .branch cond rs1 rs2 target =>
      .ok ({ nextPc := if cond.holds (a.read rs1) (a.read rs2)
              then target.address a.pc else a.pc + 4 }, b)
  | .j target => .ok ({ nextPc := target.address a.pc }, b)
  | .jal target => .ok ({ nextPc := target.address a.pc, regWrite := some (31, a.pc + 4) }, b)
  | .jr rs1 => .ok ({ nextPc := a.read rs1 }, b)
  | .halt => .ok ({ nextPc := a.pc + 4, halts := true }, b)

/-- What a step does. -/
inductive Outcome (B : Type)
  | fault (code : CpuFault) (dataAddress : Option Word)
  | retire (effect : Effect) (bus : B)

/-- A retirement ticks the Timer, after the instruction's own access. -/
def Outcome.of : Except (CpuFault × Word) (Effect × B) → Outcome B
  | .error (code, address) => .fault code (some address)
  | .ok (e, b) => .retire e (M.retireTick b)

/-- The statement that the PC is at.  Behind the last one there are NOPs up to the end
of the ROM. -/
def Program.current (p : Program) (pc : Word) : Option Statement :=
  if pc.toNat % 4 = 0 ∧ pc.toNat < 64 * 1024 then some (p.getD (pc.toNat / 4) (.instr .nop))
  else none

/-- The fault of a PC that is at no statement. -/
def leaves (pc : Word) : CpuFault :=
  if pc.toNat % 4 ≠ 0 then .misalignedInstructionFetch
  else match region pc with
    | .stm32 | .unmapped => .unmappedInstructionFetch
    | _ => .nonExecutableInstructionFetch

/-- One step: the statement at the PC, or a fault if there is none. -/
def Program.step (p : Program) (a : ArchState) (b : B) : Outcome B :=
  match p.current a.pc with
  | none => .fault (leaves a.pc) none
  | some (.instr i) => .of M (execute M a b i)
  | some (.word value) =>
      match decode (BitVec.ofNat 32 value) with
      | .error e => .fault e.fault none
      | .ok i => .of M (Isa.execute M a b i)

/-- How a run ends. -/
inductive Ending
  | running
  | halted
  | faulted (code : CpuFault) (dataAddress : Option Word)
  deriving DecidableEq, Repr

/-- What a run leaves. -/
structure Result (B : Type) where
  ending : Ending
  retired : ℕ
  arch : ArchState
  bus : B

/-- So many steps, or fewer if the program ends. -/
def Program.run (p : Program) : ℕ → ArchState → B → Result B
  | 0, a, b => ⟨.running, 0, a, b⟩
  | limit + 1, a, b =>
      match p.step M a b with
      | .fault code dataAddress => ⟨.faulted code dataAddress, 0, a, b⟩
      | .retire e b' =>
          if e.halts then ⟨.halted, 1, e.apply a, b'⟩
          else
            let rest := p.run limit (e.apply a) b'
            { rest with retired := rest.retired + 1 }

/-- The registers and the PC at the start. -/
def start : ArchState := ⟨0, fun _ => 0⟩

end Executing

end Mini32.Source
