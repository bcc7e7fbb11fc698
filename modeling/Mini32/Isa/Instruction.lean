import Mathlib.Data.List.Basic
import Mini32.Lib.Bits

/-!
# The Mini32 instruction set: formats and opcodes

The abstract instruction set of the computer, as its ISA table documents it: an
`Instr` is a mnemonic together with the fields its format carries, `encode` lays
the fields out in a word, and `decode` reads them back, rejecting unallocated
opcodes and non-zero reserved fields.

Five pieces of code claim to implement this table independently: the C++
decoder, the RTL decoder, the assembler, the disassembler, and the control units
behind the two decoders.  Each is connected to `decode` or `encode` in its own
module; the two facts everything rests on are proved here.

* `decode_encode` — every instruction has a legal encoding that decodes back.
* `encode_of_decode` — a legal word is the encoding of what it decodes to, so
  legal words and instructions are in bijection.

## Formats

An instruction is a constructor with the fields that mean something, so a value of
`Instr` has no reserved bits, and no `rd` if the instruction writes no register.  The
instructions that differ in an operator alone share a constructor: `alu` for the
R format, `imm` for the immediate operations, `branch` for the conditional branches.
That is what keeps the case splits of the whole development at eleven.

A word has a field for each position, `fieldA` to `fieldC`, the immediates and the opcode.
Which register a position holds depends on the format: stores and branches have a source
register where the others have `rd`.  Only `encode` and `decodeAs` know.
-/

namespace Mini32

/-- A 32-bit machine word. -/
abbrev Word := BitVec 32

/-- A register number, `r0` to `r31`. -/
abbrev Reg := BitVec 5

/-- The allocated opcodes, in the order of their codes `0x00` to `0x17`. -/
inductive Opcode
  | nop | add | sub | and | or | xor | slt | shl | shr
  | addi | andi | ori | xori | lui | lw | sw
  | beq | bne | blt | bge | j | jal | jr | halt
  deriving DecidableEq, Repr

namespace Opcode

/-- The allocated opcodes listed by code. -/
def all : List Opcode :=
  [nop, add, sub, and, or, xor, slt, shl, shr, addi, andi, ori, xori, lui, lw, sw,
    beq, bne, blt, bge, j, jal, jr, halt]

/-- The six opcode bits `[31:26]`. -/
def code : Opcode → BitVec 6
  | nop => 0x00 | add => 0x01 | sub => 0x02 | and => 0x03
  | or => 0x04 | xor => 0x05 | slt => 0x06 | shl => 0x07
  | shr => 0x08 | addi => 0x09 | andi => 0x0A | ori => 0x0B
  | xori => 0x0C | lui => 0x0D | lw => 0x0E | sw => 0x0F
  | beq => 0x10 | bne => 0x11 | blt => 0x12 | bge => 0x13
  | j => 0x14 | jal => 0x15 | jr => 0x16 | halt => 0x17

/-- The opcode allocated to a code, if there is one. -/
def ofCode? (c : BitVec 6) : Option Opcode := all[c.toNat]?

@[simp] theorem ofCode?_code (op : Opcode) : ofCode? op.code = some op := by
  cases op <;> rfl

theorem code_of_ofCode? : ∀ {c : BitVec 6} {op : Opcode}, ofCode? c = some op → op.code = c := by
  decide

end Opcode

namespace Isa

/-- The register-register operations. -/
inductive AluOp
  | add | sub | and | or | xor | slt | shl | shr
  deriving DecidableEq, Repr

/-- The register-immediate operations other than `LUI`. -/
inductive ImmOp
  | addi | andi | ori | xori
  deriving DecidableEq, Repr

/-- The branch conditions. -/
inductive Cond
  | eq | ne | lt | ge
  deriving DecidableEq, Repr

/-- An instruction: its mnemonic and the fields its format carries. -/
inductive Instr
  | nop
  | alu (op : AluOp) (rd rs1 rs2 : Reg)
  | imm (op : ImmOp) (rd rs1 : Reg) (imm16 : BitVec 16)
  | lui (rd : Reg) (imm16 : BitVec 16)
  | lw (rd rs1 : Reg) (imm16 : BitVec 16)
  | sw (rs2 rs1 : Reg) (imm16 : BitVec 16)
  | branch (cond : Cond) (rs1 rs2 : Reg) (imm16 : BitVec 16)
  | j (imm26 : BitVec 26)
  | jal (imm26 : BitVec 26)
  | jr (rs1 : Reg)
  | halt
  deriving DecidableEq, Repr

/-- Why a word is not an instruction. -/
inductive DecodeFault
  | illegal
  | malformed
  deriving DecidableEq, Repr

/-- The opcode of an R-format instruction. -/
def AluOp.opcode : AluOp → Opcode
  | add => .add | sub => .sub | and => .and | or => .or
  | xor => .xor | slt => .slt | shl => .shl | shr => .shr

/-- The opcode of an immediate instruction. -/
def ImmOp.opcode : ImmOp → Opcode
  | addi => .addi | andi => .andi | ori => .ori | xori => .xori

/-- The opcode of a branch. -/
def Cond.opcode : Cond → Opcode
  | eq => .beq | ne => .bne | lt => .blt | ge => .bge

/-- The opcode of an instruction. -/
def Instr.opcode : Instr → Opcode
  | nop => .nop | alu op .. => op.opcode | imm op .. => op.opcode | lui .. => .lui
  | lw .. => .lw | sw .. => .sw | branch c .. => c.opcode | j _ => .j | jal _ => .jal
  | jr _ => .jr | halt => .halt

/-! ## Fields of a word -/

/-- Bits 31 to 26. -/
def opcodeField (w : Word) : BitVec 6 := w.extractLsb' 26 6
/-- `rd` in the R and I formats, `rs2` in S, `rs1` in B and JR. -/
def fieldA (w : Word) : Reg := w.extractLsb' 21 5
/-- `rs1` in the R, I and S formats, `rs2` in B. -/
def fieldB (w : Word) : Reg := w.extractLsb' 16 5
/-- `rs2` in the R format. -/
def fieldC (w : Word) : Reg := w.extractLsb' 11 5
/-- Bits 15 to 0. -/
def imm16Field (w : Word) : BitVec 16 := w.extractLsb' 0 16
/-- Bits 25 to 0. -/
def imm26Field (w : Word) : BitVec 26 := w.extractLsb' 0 26

/-! ## Encoding -/

/-- The R layout. -/
def encodeR (op : Opcode) (a b c : Reg) : Word :=
  (op.code ++ a ++ b ++ c ++ 0#11 : BitVec (6 + 5 + 5 + 5 + 11))

/-- The layout the I, S and B formats share. -/
def encodeI (op : Opcode) (a b : Reg) (imm16 : BitVec 16) : Word :=
  (op.code ++ a ++ b ++ imm16 : BitVec (6 + 5 + 5 + 16))

/-- The J layout. -/
def encodeJ (op : Opcode) (imm26 : BitVec 26) : Word :=
  (op.code ++ imm26 : BitVec (6 + 26))

/-- The word of an instruction. -/
def encode : Instr → Word
  | .nop => encodeJ .nop 0
  | .alu op rd rs1 rs2 => encodeR op.opcode rd rs1 rs2
  | .imm op rd rs1 imm16 => encodeI op.opcode rd rs1 imm16
  | .lui rd imm16 => encodeI .lui rd 0 imm16
  | .lw rd rs1 imm16 => encodeI .lw rd rs1 imm16
  | .sw rs2 rs1 imm16 => encodeI .sw rs2 rs1 imm16
  | .branch c rs1 rs2 imm16 => encodeI c.opcode rs1 rs2 imm16
  | .j imm26 => encodeJ .j imm26
  | .jal imm26 => encodeJ .jal imm26
  | .jr rs1 => encodeR .jr rs1 0 0
  | .halt => encodeJ .halt 0

/-! ## Decoding -/

/-- Accept `i` when a reserved field is clear. -/
def reserved {k : ℕ} (field : BitVec k) (i : Instr) : Except DecodeFault Instr :=
  if field = 0 then .ok i else .error .malformed

/-- The R format: the eleven low bits are reserved. -/
def decodeAlu (op : AluOp) (w : Word) : Except DecodeFault Instr :=
  reserved (w.extractLsb' 0 11) (.alu op (fieldA w) (fieldB w) (fieldC w))

/-- The immediate operations, which reserve nothing. -/
def decodeImm (op : ImmOp) (w : Word) : Except DecodeFault Instr :=
  .ok (.imm op (fieldA w) (fieldB w) (imm16Field w))

/-- The branches, which compare the registers in the first two fields. -/
def decodeBranch (c : Cond) (w : Word) : Except DecodeFault Instr :=
  .ok (.branch c (fieldA w) (fieldB w) (imm16Field w))

/-- What a word with an allocated opcode means. -/
def decodeAs (w : Word) : Opcode → Except DecodeFault Instr
  | .nop => reserved (imm26Field w) .nop
  | .add => decodeAlu .add w
  | .sub => decodeAlu .sub w
  | .and => decodeAlu .and w
  | .or => decodeAlu .or w
  | .xor => decodeAlu .xor w
  | .slt => decodeAlu .slt w
  | .shl => decodeAlu .shl w
  | .shr => decodeAlu .shr w
  | .addi => decodeImm .addi w
  | .andi => decodeImm .andi w
  | .ori => decodeImm .ori w
  | .xori => decodeImm .xori w
  | .lui => reserved (fieldB w) (.lui (fieldA w) (imm16Field w))
  | .lw => .ok (.lw (fieldA w) (fieldB w) (imm16Field w))
  | .sw => .ok (.sw (fieldA w) (fieldB w) (imm16Field w))
  | .beq => decodeBranch .eq w
  | .bne => decodeBranch .ne w
  | .blt => decodeBranch .lt w
  | .bge => decodeBranch .ge w
  | .j => .ok (.j (imm26Field w))
  | .jal => .ok (.jal (imm26Field w))
  | .jr => reserved (w.extractLsb' 0 21) (.jr (fieldA w))
  | .halt => reserved (imm26Field w) .halt

/-- The instruction a word encodes. -/
def decode (w : Word) : Except DecodeFault Instr :=
  match Opcode.ofCode? (opcodeField w) with
  | none => .error .illegal
  | some op => decodeAs w op

/-! ## Decoding inverts encoding -/

section Layout

variable (op : Opcode) (a b c : Reg) (imm16 : BitVec 16) (imm26 : BitVec 26)

@[simp] theorem opcodeField_encodeR : opcodeField (encodeR op a b c) = op.code := by
  grind [opcodeField, encodeR]

@[simp] theorem fieldA_encodeR : fieldA (encodeR op a b c) = a := by
  grind [fieldA, encodeR]

@[simp] theorem fieldB_encodeR : fieldB (encodeR op a b c) = b := by
  grind [fieldB, encodeR]

@[simp] theorem fieldC_encodeR : fieldC (encodeR op a b c) = c := by
  grind [fieldC, encodeR]

@[simp] theorem reserved_encodeR : (encodeR op a b c).extractLsb' 0 11 = 0 := by
  grind [encodeR]

@[simp] theorem reserved_encodeJr : (encodeR op a 0#5 0#5).extractLsb' 0 21 = 0 := by
  grind [encodeR]

@[simp] theorem opcodeField_encodeI : opcodeField (encodeI op a b imm16) = op.code := by
  grind [opcodeField, encodeI]

@[simp] theorem fieldA_encodeI : fieldA (encodeI op a b imm16) = a := by
  grind [fieldA, encodeI]

@[simp] theorem fieldB_encodeI : fieldB (encodeI op a b imm16) = b := by
  grind [fieldB, encodeI]

@[simp] theorem imm16Field_encodeI : imm16Field (encodeI op a b imm16) = imm16 := by
  grind [imm16Field, encodeI]

@[simp] theorem opcodeField_encodeJ : opcodeField (encodeJ op imm26) = op.code := by
  grind [opcodeField, encodeJ]

@[simp] theorem imm26Field_encodeJ : imm26Field (encodeJ op imm26) = imm26 := by
  grind [imm26Field, encodeJ]

end Layout

/-- **Every instruction survives its encoding.** -/
theorem decode_encode (i : Instr) : decode (encode i) = .ok i := by
  cases i with
  | alu op => cases op <;> simp [decode, encode, decodeAs, AluOp.opcode, decodeAlu, reserved]
  | imm op => cases op <;> simp [decode, encode, decodeAs, ImmOp.opcode, decodeImm]
  | branch c => cases c <;> simp [decode, encode, decodeAs, Cond.opcode, decodeBranch]
  | _ => simp [decode, encode, decodeAs, reserved]

/-! ## Encoding inverts decoding -/

section Fields

variable {op : Opcode} {w : Word}

/-- A word is its opcode field followed by the 26 bits below it. -/
theorem encodeJ_fields (h : opcodeField w = op.code) : encodeJ op (imm26Field w) = w := by
  grind [opcodeField, imm26Field, encodeJ]

/-- An I-format word, … -/
theorem encodeI_fields (h : opcodeField w = op.code) :
    encodeI op (fieldA w) (fieldB w) (imm16Field w) = w := by
  grind [opcodeField, fieldA, fieldB, imm16Field, encodeI]

/-- … an R-format word with its reserved bits clear, … -/
theorem encodeR_fields (h : opcodeField w = op.code) (hres : w.extractLsb' 0 11 = 0) :
    encodeR op (fieldA w) (fieldB w) (fieldC w) = w := by
  grind [opcodeField, fieldA, fieldB, fieldC, encodeR]

/-- The JR layout is the R layout with two more registers reserved. -/
theorem encodeJr_fields (h : opcodeField w = op.code) (hres : w.extractLsb' 0 21 = 0) :
    encodeR op (fieldA w) 0 0 = w := by
  have hR := encodeR_fields h (Bits.slice_eq_zero_of_le hres (by decide))
  rwa [show fieldB w = 0 from Bits.slice_eq_zero_of_le hres (by decide),
    show fieldC w = 0 from Bits.slice_eq_zero_of_le hres (by decide)] at hR

end Fields

/-- An instruction with reserved bits is decoded only if they are clear. -/
theorem reserved_eq_ok {k : ℕ} {field : BitVec k} {i i' : Instr} :
    reserved field i = .ok i' ↔ field = 0 ∧ i = i' := by
  unfold reserved
  split <;> simp_all

/-- **A legal word is the encoding of what it decodes to.** -/
theorem encode_of_decode {w : Word} {i : Instr} (h : decode w = .ok i) : encode i = w := by
  unfold decode at h
  cases hop : Opcode.ofCode? (opcodeField w) with
  | none => simp [hop] at h
  | some op =>
      have hcode := (Opcode.code_of_ofCode? hop).symm
      rw [hop] at h
      cases op <;>
        simp only [decodeAs, decodeAlu, decodeImm, decodeBranch, reserved_eq_ok,
          Except.ok.injEq] at h
      case nop | halt =>
        obtain ⟨hz, rfl⟩ := h
        exact (congrArg (encodeJ _) hz.symm).trans (encodeJ_fields hcode)
      case add | sub | and | or | xor | slt | shl | shr =>
        obtain ⟨hz, rfl⟩ := h
        exact encodeR_fields hcode hz
      case lui =>
        obtain ⟨hz, rfl⟩ := h
        exact (congrArg (encodeI _ _ · _) hz.symm).trans (encodeI_fields hcode)
      case jr =>
        obtain ⟨hz, rfl⟩ := h
        exact encodeJr_fields hcode hz
      case j | jal =>
        subst h
        exact encodeJ_fields hcode
      all_goals
        subst h
        exact encodeI_fields hcode

end Isa
end Mini32
