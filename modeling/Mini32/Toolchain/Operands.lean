import Mini32.Toolchain.RoundTrip

/-!
# What a statement says

The assembly language as its documentation has it: the operands each mnemonic
takes, in order, what a token denotes as an operand of its kind, and the range
its value must lie in.  `Says` holds of a statement of the language with these
operands, whatever the assembler does with it; `usedOperands` are the operands
of a decoded instruction.

This is the specification that `Acceptance`, `Legality` and `DigitLimit` compare the code
with.  It shares the reading of characters and numbers with the assembler (`int`, `strip`,
the memory pattern) but none of its checks.
-/

namespace Mini32.Toolchain

open Py

/-- What an operand denotes. -/
inductive Operand
  | register (index : ℕ)
  | number (value : ℤ)
  | memory (offset : ℤ) (base : ℕ)
  deriving DecidableEq, Repr

/-- The forms of an operand. -/
inductive OperandKind
  | register
  | signed (bits : ℕ)
  | unsigned (bits : ℕ)
  /-- A signed 16-bit offset and a base register. -/
  | memory
  /-- A displacement in instructions, or a label. -/
  | target (bits : ℕ)
  deriving DecidableEq, Repr

/-- The mnemonics of the assembly language. -/
inductive Mnemonic
  | opcode (op : Opcode)
  | ret
  | word
  deriving DecidableEq, Repr

/-- A mnemonic in any letter case. -/
def mnemonicNamed (name : Str) : Option Mnemonic :=
  if upper name = "RET".toList then some .ret
  else if upper name = ".WORD".toList then some .word
  else (opcodeNamed (upper name)).map .opcode

/-- The documented operands. -/
def Mnemonic.kinds : Mnemonic → List OperandKind
  | .opcode op =>
      match op with
      | .nop | .halt => []
      | .add | .sub | .and | .or | .xor | .slt | .shl | .shr => [.register, .register, .register]
      | .addi => [.register, .register, .signed 16]
      | .andi | .ori | .xori => [.register, .register, .unsigned 16]
      | .lui => [.register, .unsigned 16]
      | .lw | .sw => [.register, .memory]
      | .beq | .bne | .blt | .bge => [.register, .register, .target 16]
      | .j | .jal => [.target 26]
      | .jr => [.register]
  | .ret => []
  | .word => [.unsigned 32]

/-! ## Tokens -/

/-- The register a token names, whether or not there is one of that number. -/
def readRegister (token : Str) : Option ℕ :=
  let lowered := lower (strip token)
  match registerAliases.lookup lowered with
  | some index => some index
  | none => (registerMatch lowered).bind fun digits => (int10 digits).map Int.toNat

/-- A displacement as it stands, or the distance to a label. -/
def readTarget (labels : Labels) (address : ℕ) (token : Str) : Option ℤ :=
  match int0 token with
  | some value => some value
  | none =>
      (labels.lookup token).bind fun target =>
        let byteDelta : ℤ := target - (address + 4)
        if byteDelta % 4 = 0 then some (byteDelta / 4) else none

/-- What a token denotes in a statement at `address`. -/
def readOperand (labels : Labels) (address : ℕ) (kind : OperandKind) (token : Str) :
    Option Operand :=
  match kind with
  | .register => (readRegister token).map .register
  | .signed _ | .unsigned _ => (int0 token).map .number
  | .memory => do
      let (offset, base) ← memoryMatch token
      return .memory (← int0 offset) (← readRegister base)
  | .target _ => (readTarget labels address token).map .number

/-- The documented range of an operand. -/
def Operand.InRange : OperandKind → Operand → Prop
  | .register, .register index => index < 32
  | .signed bits, .number value | .target bits, .number value =>
      -2 ^ (bits - 1) ≤ value ∧ value < 2 ^ (bits - 1)
  | .unsigned bits, .number value => 0 ≤ value ∧ value < 2 ^ bits
  | .memory, .memory offset base => (-2 ^ 15 ≤ offset ∧ offset < 2 ^ 15) ∧ base < 32
  | _, _ => False

/-! ## Statements -/

/-- The text after the mnemonic. -/
def operandText (text : Str) : Str := (splitWord text).tail.headD []

/-- **A text says** a mnemonic with these operands: exactly the documented number of
them, none empty, each denoted by its token and in its range. -/
structure Says (labels : Labels) (address : ℕ) (text : Str) (mnemonic : Mnemonic)
    (operands : List Operand) : Prop where
  named : mnemonicNamed ((splitWord text).headD []) = some mnemonic
  count : (operandsOf (operandText text)).length = mnemonic.kinds.length
  nonempty : ∀ token ∈ operandsOf (operandText text), token ≠ []
  denoted :
    List.zipWith (readOperand labels address) mnemonic.kinds (operandsOf (operandText text)) =
      operands.map some
  inRange : List.Forall₂ Operand.InRange mnemonic.kinds operands

/-- The fields of a decoded instruction that its opcode uses, as the operands of a statement. -/
def usedOperands (d : Cpp.DecodedInstruction) : List Operand :=
  match d.opcode with
  | .nop | .halt => []
  | .add | .sub | .and | .or | .xor | .slt | .shl | .shr =>
      [.register d.rd.toNat, .register d.rs1.toNat, .register d.rs2.toNat]
  | .addi => [.register d.rd.toNat, .register d.rs1.toNat, .number d.imm16.toInt]
  | .andi | .ori | .xori =>
      [.register d.rd.toNat, .register d.rs1.toNat, .number d.imm16.toNat]
  | .lui => [.register d.rd.toNat, .number d.imm16.toNat]
  | .lw => [.register d.rd.toNat, .memory d.imm16.toInt d.rs1.toNat]
  | .sw => [.register d.rs2.toNat, .memory d.imm16.toInt d.rs1.toNat]
  | .beq | .bne | .blt | .bge =>
      [.register d.rs1.toNat, .register d.rs2.toNat, .number d.imm16.toInt]
  | .j | .jal => [.number (d.imm26.setWidth 26).toInt]
  | .jr => [.register d.rs1.toNat]

/-! ## The operands of an instruction -/

/-- The operands of the statement that writes an instruction. -/
def writtenOperands : Isa.Instr → List Operand
  | .nop | .halt => []
  | .alu _ rd rs1 rs2 => [.register rd.toNat, .register rs1.toNat, .register rs2.toNat]
  | .imm op rd rs1 imm16 =>
      [.register rd.toNat, .register rs1.toNat,
        .number (if op = .addi then imm16.toInt else imm16.toNat)]
  | .lui rd imm16 => [.register rd.toNat, .number imm16.toNat]
  | .lw r base imm16 | .sw r base imm16 => [.register r.toNat, .memory imm16.toInt base.toNat]
  | .branch _ rs1 rs2 imm16 => [.register rs1.toNat, .register rs2.toNat, .number imm16.toInt]
  | .j imm26 | .jal imm26 => [.number imm26.toInt]
  | .jr rs1 => [.register rs1.toNat]

/-- A register index in eight bits. -/
theorem toNat_setWidth_reg (r : Reg) : (r.setWidth 8).toNat = r.toNat := by
  rw [BitVec.toNat_setWidth]
  exact Nat.mod_eq_of_lt (r.isLt.trans (by decide))

/-- The decoded opcode. -/
theorem opcode_fieldsOf (i : Isa.Instr) : (Cpp.Decoder.fieldsOf i).opcode = i.opcode := by
  cases i <;> rfl

/-- The decoder's fields are the operands. -/
theorem usedOperands_fieldsOf (i : Isa.Instr) :
    usedOperands (Cpp.Decoder.fieldsOf i) = writtenOperands i := by
  cases i with
  | alu op rd rs1 rs2 =>
      cases op <;> simp only [usedOperands, Cpp.Decoder.fieldsOf, Isa.AluOp.opcode, writtenOperands,
        toNat_setWidth_reg]
  | imm op rd rs1 imm16 =>
      cases op <;> simp [usedOperands, Cpp.Decoder.fieldsOf, Isa.ImmOp.opcode, writtenOperands,
        toNat_setWidth_reg, -BitVec.toNat_setWidth]
  | branch cond rs1 rs2 imm16 =>
      cases cond <;> simp only [usedOperands, Cpp.Decoder.fieldsOf, Isa.Cond.opcode,
        writtenOperands, toNat_setWidth_reg]
  | j imm26 => simp [usedOperands, Cpp.Decoder.fieldsOf, writtenOperands]
  | jal imm26 => simp [usedOperands, Cpp.Decoder.fieldsOf, writtenOperands]
  | _ => simp only [usedOperands, Cpp.Decoder.fieldsOf, writtenOperands, toNat_setWidth_reg]

/-- A signed field is in its range. -/
theorem toInt_range {k : ℕ} (x : BitVec k) :
    -2 ^ (k - 1) ≤ x.toInt ∧ x.toInt < 2 ^ (k - 1) :=
  ⟨BitVec.le_toInt x, BitVec.toInt_lt⟩

/-- An unsigned field is in its range. -/
theorem toNat_range {k : ℕ} (x : BitVec k) : (0 : ℤ) ≤ x.toNat ∧ (x.toNat : ℤ) < 2 ^ k :=
  ⟨Int.natCast_nonneg _, by exact_mod_cast x.isLt⟩

/-- The operands of an instruction are in their ranges. -/
theorem inRange_writtenOperands (i : Isa.Instr) :
    List.Forall₂ Operand.InRange (Mnemonic.opcode i.opcode).kinds (writtenOperands i) := by
  have hreg : ∀ r : Reg, Operand.InRange .register (.register r.toNat) := fun r => r.isLt
  have hsigned : ∀ x : BitVec 16, Operand.InRange (.signed 16) (.number x.toInt) := toInt_range
  have hunsigned : ∀ x : BitVec 16, Operand.InRange (.unsigned 16) (.number x.toNat) := toNat_range
  have hmemory : ∀ (x : BitVec 16) (r : Reg), Operand.InRange .memory (.memory x.toInt r.toNat) :=
    fun x r => ⟨toInt_range x, r.isLt⟩
  have hbranch : ∀ x : BitVec 16, Operand.InRange (.target 16) (.number x.toInt) := toInt_range
  have hjump : ∀ x : BitVec 26, Operand.InRange (.target 26) (.number x.toInt) := toInt_range
  cases i with
  | nop | halt => exact .nil
  | alu op rd rs1 rs2 => cases op <;> exact .cons (hreg _) (.cons (hreg _) (.cons (hreg _) .nil))
  | imm op rd rs1 imm16 =>
      cases op with
      | addi => exact .cons (hreg _) (.cons (hreg _) (.cons (hsigned imm16) .nil))
      | _ => exact .cons (hreg _) (.cons (hreg _) (.cons (hunsigned imm16) .nil))
  | lui rd imm16 => exact .cons (hreg _) (.cons (hunsigned imm16) .nil)
  | lw r base imm16 | sw r base imm16 => exact .cons (hreg _) (.cons (hmemory imm16 base) .nil)
  | branch cond rs1 rs2 imm16 =>
      cases cond <;> exact .cons (hreg _) (.cons (hreg _) (.cons (hbranch imm16) .nil))
  | j imm26 | jal imm26 => exact .cons (hjump imm26) .nil
  | jr rs1 => exact .cons (hreg _) .nil

end Mini32.Toolchain
