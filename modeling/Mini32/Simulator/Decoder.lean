import Mini32.Isa.Control

/-!
# The simulator's ALU and decoder

`Alu::execute`, `Decoder::decode`, `Decoder::control_for` and the immediate
helpers, shift for shift and mask for mask.  A register field is a
`std::uint8_t`, hence a `BitVec 8`.

The source decodes in two steps.  It classifies the raw opcode into a format, rejecting
words whose reserved bits are set, and then fills the fields of that format; the register
fields sit at bits 21, 16 and 11 whatever they are called.  A field the format does not carry
keeps its default, zero.

`decode_eq` says that `Decoder::decode` computes the documented `Isa.decode`: it
accepts exactly the legal words, reports the documented error for every other
word, and fills exactly the fields the format carries.  Before it stand the helpers, each
with the operator of the ISA that it computes.
-/

namespace Mini32.Cpp

/-- `signed_less_than`, which `alu.cpp` and `cpu_core.cpp` each define. -/
def signedLessThan (lhs rhs : Word) : Bool :=
  let lhsNegative := lhs &&& 0x80000000 != 0
  let rhsNegative := rhs &&& 0x80000000 != 0
  if lhsNegative != rhsNegative then lhsNegative else lhs < rhs

namespace Alu

/-- `Alu::execute` -/
def execute (operation : AluOperation) (lhs rhs : Word) : Word :=
  match operation with
  | .add => lhs + rhs
  | .sub => lhs - rhs
  | .and => lhs &&& rhs
  | .or => lhs ||| rhs
  | .xor => lhs ^^^ rhs
  | .slt => if signedLessThan lhs rhs then 1 else 0
  | .shiftLeft => lhs <<< (rhs &&& 0x1F)
  | .shiftRight => lhs >>> (rhs &&& 0x1F)

end Alu

/-- `DecodeError` -/
inductive DecodeError
  | illegalOpcode | malformedEncoding
  deriving DecidableEq, Repr

/-- `DecodedInstruction` -/
structure DecodedInstruction where
  opcode : Opcode
  rd : BitVec 8 := 0
  rs1 : BitVec 8 := 0
  rs2 : BitVec 8 := 0
  imm16 : BitVec 16 := 0
  imm26 : Word := 0
  deriving DecidableEq, Repr

/-- `InstructionFormat` of the anonymous namespace. -/
inductive InstructionFormat
  | r | i | s | b | j | jr
  deriving DecidableEq, Repr

namespace Decoder

/-- `kRegisterMask` -/
def kRegisterMask : Word := 0x1F
/-- `kReservedRMask`, the bits below `rs2` of an R word. -/
def kReservedRMask : Word := 0x7FF
/-- `kReservedJrMask`, the bits below `rs1` of a JR word. -/
def kReservedJrMask : Word := 0x1FFFFF

/-- `is_known_opcode`: the opcodes are numbered without a gap. -/
def isKnownOpcode (rawOpcode : BitVec 8) : Bool := rawOpcode ≤ Opcode.halt.code.zeroExtend 8

/-- The `static_cast` of a known raw opcode; an unknown one is never cast. -/
def castOpcode (rawOpcode : BitVec 8) : Opcode :=
  (Opcode.all[rawOpcode.toNat]?).getD .halt

/-- `is_r_format` -/
def isRFormat : Opcode → Bool
  | .nop | .add | .sub | .and | .or | .xor | .slt | .shl | .shr | .halt => true
  | _ => false

/-- `format_for` -/
def formatFor (opcode : Opcode) : InstructionFormat :=
  if isRFormat opcode then .r
  else match opcode with
    | .addi | .andi | .ori | .xori | .lui | .lw => .i
    | .sw => .s
    | .beq | .bne | .blt | .bge => .b
    | .j | .jal => .j
    | .jr => .jr
    | _ => .r

/-- `static_cast<std::uint8_t>((instruction >> shift) & kRegisterMask)`. -/
def registerAt (instruction : Word) (shift : ℕ) : BitVec 8 :=
  ((instruction >>> shift) &&& kRegisterMask).setWidth 8

/-- The low half of a word. -/
def immediateAt (instruction : Word) : BitVec 16 := (instruction &&& 0xFFFF).setWidth 16

/-- `Decoder::decode` -/
def decode (instruction : Word) : Except DecodeError DecodedInstruction :=
  let rawOpcode : BitVec 8 := (instruction >>> 26).setWidth 8
  if !isKnownOpcode rawOpcode then .error .illegalOpcode
  else
    let opcode := castOpcode rawOpcode
    let format := formatFor opcode
    if (opcode = .nop ∨ opcode = .halt) ∧ instruction &&& 0x03FFFFFF ≠ 0 then
      .error .malformedEncoding
    else if format = .r ∧ instruction &&& kReservedRMask ≠ 0 then .error .malformedEncoding
    else if format = .jr ∧ instruction &&& kReservedJrMask ≠ 0 then .error .malformedEncoding
    else if opcode = .lui ∧ (instruction >>> 16) &&& kRegisterMask ≠ 0 then
      .error .malformedEncoding
    else
      .ok <| match format with
        | .r => { opcode, rd := registerAt instruction 21, rs1 := registerAt instruction 16,
                  rs2 := registerAt instruction 11 }
        | .i => { opcode, rd := registerAt instruction 21, rs1 := registerAt instruction 16,
                  imm16 := immediateAt instruction }
        | .s => { opcode, rs2 := registerAt instruction 21, rs1 := registerAt instruction 16,
                  imm16 := immediateAt instruction }
        | .b => { opcode, rs1 := registerAt instruction 21, rs2 := registerAt instruction 16,
                  imm16 := immediateAt instruction }
        | .j => { opcode, imm26 := instruction &&& 0x03FFFFFF }
        | .jr => { opcode, rs1 := registerAt instruction 21 }

/-- `none` is `std::nullopt`; every enumerator has a case. -/
def controlFor : Opcode → Option ControlSignals
  | .nop => some { regWrite := false, aluSrcImmediate := false, aluOperation := .add }
  | .add => some { regWrite := true, aluSrcImmediate := false, aluOperation := .add }
  | .sub => some { regWrite := true, aluSrcImmediate := false, aluOperation := .sub }
  | .and => some { regWrite := true, aluOperation := .and }
  | .or => some { regWrite := true, aluOperation := .or }
  | .xor => some { regWrite := true, aluOperation := .xor }
  | .slt => some { regWrite := true, aluOperation := .slt }
  | .shl => some { regWrite := true, aluOperation := .shiftLeft }
  | .shr => some { regWrite := true, aluOperation := .shiftRight }
  | .addi => some { regWrite := true, aluSrcImmediate := true, aluOperation := .add,
                    immediateKind := .signed16 }
  | .andi => some { regWrite := true, aluSrcImmediate := true, aluOperation := .and,
                    immediateKind := .zeroExtended16 }
  | .ori => some { regWrite := true, aluSrcImmediate := true, aluOperation := .or,
                   immediateKind := .zeroExtended16 }
  | .xori => some { regWrite := true, aluSrcImmediate := true, aluOperation := .xor,
                    immediateKind := .zeroExtended16 }
  | .lui => some { regWrite := true, aluSrcImmediate := true, aluOperation := .add,
                   immediateKind := .upper16 }
  | .lw => some { regWrite := true, aluSrcImmediate := true, aluOperation := .add,
                  writebackSource := .memory, immediateKind := .signed16,
                  memoryOperation := .load }
  | .sw => some { aluSrcImmediate := true, aluOperation := .add,
                  immediateKind := .signed16, memoryOperation := .store }
  | .beq => some { controlFlow := .conditionalBranch, branchPredicate := .equal }
  | .bne => some { controlFlow := .conditionalBranch, branchPredicate := .notEqual }
  | .blt => some { controlFlow := .conditionalBranch, branchPredicate := .signedLessThan }
  | .bge => some { controlFlow := .conditionalBranch, branchPredicate := .signedGreaterEqual }
  | .j => some { controlFlow := .relativeJump }
  | .jal => some { regWrite := true, writebackSource := .pcPlus4,
                   registerDestination := .returnAddress, controlFlow := .relativeJump }
  | .jr => some { controlFlow := .registerJump }
  | .halt => some { halt := true }

/-- `Decoder::immediate_value` -/
def immediateValue (kind : ImmediateKind) (immediate : BitVec 16) : Word :=
  match kind with
  | .none => 0
  | .signed16 =>
      if immediate &&& 0x8000 = 0 then immediate.zeroExtend 32
      else 0xFFFF0000 ||| immediate.zeroExtend 32
  | .zeroExtended16 => immediate.zeroExtend 32
  | .upper16 => immediate.zeroExtend 32 <<< 16

/-- `Decoder::branch_displacement` -/
def branchDisplacement (immediate : BitVec 16) : Word := immediateValue .signed16 immediate * 4

/-- `Decoder::jump_displacement` -/
def jumpDisplacement (immediate : Word) : Word :=
  let encoded := immediate &&& 0x03FFFFFF
  let signExtended := if encoded &&& 0x02000000 = 0 then encoded else encoded ||| 0xFC000000
  signExtended * 4

/-! ## Arithmetic helpers compute the documented operators -/

end Decoder

/-- The mask of the sign bit. -/
theorem signBit_eq_msb (x : Word) : (x &&& 0x80000000 != 0) = x.msb := by
  rw [BitVec.msb_eq_getLsbD_last, Bool.eq_iff_iff, bne_iff_ne]
  exact Bits.and_twoPow_ne_zero x 31

/-- The comparison of the source is that of signed numbers. -/
theorem signedLessThan_eq (lhs rhs : Word) : signedLessThan lhs rhs = lhs.slt rhs := by
  rw [BitVec.slt_eq_ult]
  simp only [signedLessThan, signBit_eq_msb]
  cases hl : lhs.msb <;> cases hr : rhs.msb <;>
    simp only [BitVec.msb_eq_decide, decide_eq_false_iff_not, decide_eq_true_eq] at hl hr <;>
    simp [BitVec.ult, BitVec.lt_def] <;> omega

/-- A shift amount is the low five bits of the second operand. -/
theorem shiftAmount_toNat (rhs : Word) : (rhs &&& 0x1F).toNat = (rhs.extractLsb' 0 5).toNat := by
  change (rhs &&& BitVec.ofNat 32 (2 ^ 5 - 1)).toNat = _
  rw [Bits.and_mask rhs 5 (by decide), BitVec.toNat_setWidth]
  exact Nat.mod_eq_of_lt (lt_of_lt_of_le (BitVec.isLt _) (by decide))

/-- The ALU computes what the ISA says of each of its operations. -/
theorem execute_operation (op : Isa.AluOp) (lhs rhs : Word) :
    Alu.execute op.operation lhs rhs = op.eval lhs rhs := by
  cases op with
  | slt => simp [Isa.AluOp.operation, Alu.execute, Isa.AluOp.eval, signedLessThan_eq]
  | shl =>
      simp only [Isa.AluOp.operation, Alu.execute, Isa.AluOp.eval, BitVec.shiftLeft_eq',
        shiftAmount_toNat]
  | shr =>
      simp only [Isa.AluOp.operation, Alu.execute, Isa.AluOp.eval, BitVec.ushiftRight_eq',
        shiftAmount_toNat]
  | _ => rfl

namespace Decoder

/-- A signed immediate is sign-extended. -/
theorem immediateValue_signed16 (immediate : BitVec 16) :
    immediateValue .signed16 immediate = immediate.signExtend 32 := by
  rw [Bits.signExtend_eq_or immediate, immediateValue]
  have hsign : immediate &&& 0x8000 ≠ 0 ↔ immediate.msb = true := by
    rw [BitVec.msb_eq_getLsbD_last]
    exact Bits.and_twoPow_ne_zero immediate 15
  by_cases h : immediate &&& 0x8000 = 0
  · rw [if_pos h, if_neg (fun hm => hsign.mpr hm h)]
  · rw [if_neg h, if_pos (hsign.mp h)]
    rfl

/-- The branch displacement. -/
theorem branchDisplacement_eq (immediate : BitVec 16) :
    branchDisplacement immediate = Isa.displacement immediate := by
  rw [branchDisplacement, immediateValue_signed16, Isa.displacement, BitVec.mul_comm]

/-- The J displacement of a word that holds a 26-bit field. -/
theorem jumpDisplacement_eq (imm26 : BitVec 26) :
    jumpDisplacement (imm26.setWidth 32) = Isa.displacement imm26 := by
  have hmask : imm26.setWidth 32 &&& 0x03FFFFFF = imm26.setWidth 32 := by
    change imm26.setWidth 32 &&& BitVec.ofNat 32 (2 ^ 26 - 1) = _
    rw [Bits.and_mask _ 26 (by decide), Bits.slice_setWidth imm26 (by decide)]
  have hsign : imm26.setWidth 32 &&& 0x02000000 ≠ 0 ↔ imm26.msb = true := by
    rw [BitVec.msb_eq_getLsbD_last]
    refine (Bits.and_twoPow_ne_zero _ 25).trans ?_
    simp
  rw [jumpDisplacement, hmask, Isa.displacement, Bits.signExtend_eq_or imm26,
    BitVec.mul_comm]
  by_cases h : imm26.setWidth 32 &&& 0x02000000 = 0
  · simp only [if_pos h, if_neg (fun hm => hsign.mpr hm h)]
  · simp only [if_neg h, if_pos (hsign.mp h), BitVec.or_comm]
    rfl

/-! ## The decoder computes the documented decoding -/

/-- The fields the decoder fills for an instruction; the others stay zero. -/
def fieldsOf : Isa.Instr → DecodedInstruction
  | .nop => { opcode := .nop }
  | .alu op rd rs1 rs2 =>
      { opcode := op.opcode, rd := rd.setWidth 8, rs1 := rs1.setWidth 8, rs2 := rs2.setWidth 8 }
  | .imm op rd rs1 imm16 =>
      { opcode := op.opcode, rd := rd.setWidth 8, rs1 := rs1.setWidth 8, imm16 }
  | .lui rd imm16 => { opcode := .lui, rd := rd.setWidth 8, imm16 }
  | .lw rd rs1 imm16 => { opcode := .lw, rd := rd.setWidth 8, rs1 := rs1.setWidth 8, imm16 }
  | .sw rs2 rs1 imm16 => { opcode := .sw, rs1 := rs1.setWidth 8, rs2 := rs2.setWidth 8, imm16 }
  | .branch c rs1 rs2 imm16 =>
      { opcode := c.opcode, rs1 := rs1.setWidth 8, rs2 := rs2.setWidth 8, imm16 }
  | .j imm26 => { opcode := .j, imm26 := imm26.setWidth 32 }
  | .jal imm26 => { opcode := .jal, imm26 := imm26.setWidth 32 }
  | .jr rs1 => { opcode := .jr, rs1 := rs1.setWidth 8 }
  | .halt => { opcode := .halt }

/-- How the decoder reports a documented decode fault. -/
def errorOf : Isa.DecodeFault → DecodeError
  | .illegal => .illegalOpcode
  | .malformed => .malformedEncoding

section Fields

variable (w : Word)

/-- The raw opcode is the opcode field. -/
theorem rawOpcode_eq : (w >>> 26).setWidth 8 = (Isa.opcodeField w).zeroExtend 8 := by
  grind [Isa.opcodeField]

/-- Known opcodes are the documented ones. -/
theorem isKnownOpcode_eq :
    ∀ c : BitVec 6, isKnownOpcode (c.zeroExtend 8) = (Opcode.ofCode? c).isSome := by
  decide

/-- The cast yields the opcode of that code. -/
theorem castOpcode_eq :
    ∀ c : BitVec 6, castOpcode (c.zeroExtend 8) = (Opcode.ofCode? c).getD .halt := by
  decide

/-- A register field, as a slice of the word. -/
theorem registerAt_eq (shift : ℕ) (h : shift + 5 ≤ 32) :
    registerAt w shift = (w.extractLsb' shift 5).setWidth 8 := by
  change ((w >>> shift) &&& BitVec.ofNat 32 (2 ^ 5 - 1)).setWidth 8 = _
  rw [Bits.ushiftRight_and_mask w shift 5 h]
  simp

/-- The immediate field. -/
theorem immediateAt_eq : immediateAt w = Isa.imm16Field w := by
  change (w &&& BitVec.ofNat 32 (2 ^ 16 - 1)).setWidth 16 = _
  rw [Bits.and_mask w 16 (by decide), Isa.imm16Field]
  simp

/-- The jump field. -/
theorem imm26_mask : w &&& 0x03FFFFFF = (Isa.imm26Field w).setWidth 32 :=
  Bits.and_mask w 26 (by decide)

/-- The bits that NOP and HALT reserve. -/
theorem imm26_mask_ne_zero : w &&& 0x03FFFFFF ≠ 0 ↔ ¬ Isa.imm26Field w = 0 :=
  not_congr (Bits.and_mask_eq_zero w 26 (by decide))

/-- The bits that R words reserve. -/
theorem reservedR_ne_zero : w &&& kReservedRMask ≠ 0 ↔ ¬ w.extractLsb' 0 11 = 0 :=
  not_congr (Bits.and_mask_eq_zero w 11 (by decide))

/-- The bits that JR reserves. -/
theorem reservedJr_ne_zero : w &&& kReservedJrMask ≠ 0 ↔ ¬ w.extractLsb' 0 21 = 0 :=
  not_congr (Bits.and_mask_eq_zero w 21 (by decide))

/-- The field that LUI reserves. -/
theorem luiRs1_ne_zero : (w >>> 16) &&& kRegisterMask ≠ 0 ↔ ¬ Isa.fieldB w = 0 := by
  change (w >>> 16) &&& BitVec.ofNat 32 (2 ^ 5 - 1) ≠ 0 ↔ _
  rw [Bits.ushiftRight_and_mask w 16 5 (by decide)]
  exact not_congr (Bits.setWidth_eq_zero_iff _ (by decide))

end Fields

/-- **The simulator's decoder computes the documented decoding** of every word. -/
theorem decode_eq (w : Word) :
    decode w = ((Isa.decode w).map fieldsOf).mapError errorOf := by
  simp only [decode, rawOpcode_eq, isKnownOpcode_eq, castOpcode_eq, Isa.decode]
  cases hop : Opcode.ofCode? (Isa.opcodeField w) with
  | none => rfl
  | some op =>
      simp only [Option.isSome_some, Bool.not_true, Bool.false_eq_true, if_false,
        Option.getD_some, imm26_mask_ne_zero, reservedR_ne_zero, reservedJr_ne_zero,
        luiRs1_ne_zero, registerAt_eq w 21 (by decide), registerAt_eq w 16 (by decide),
        registerAt_eq w 11 (by decide), immediateAt_eq]
      -- the reserved-bit test on the 26-bit mask is gone, what is left of the mask is the field
      simp only [imm26_mask]
      cases op
      case nop | halt =>
        by_cases hz : Isa.imm26Field w = 0#26
        · have hA : w.extractLsb' 21 5 = 0 := Bits.slice_eq_zero_of_le hz (by decide)
          have hB : w.extractLsb' 16 5 = 0 := Bits.slice_eq_zero_of_le hz (by decide)
          have hC : w.extractLsb' 11 5 = 0 := Bits.slice_eq_zero_of_le hz (by decide)
          have hR : w.extractLsb' 0 11 = 0 := Bits.slice_eq_zero_of_le hz (by decide)
          simp [Isa.decodeAs, Isa.reserved, hz, hA, hB, hC, hR, formatFor, isRFormat, fieldsOf,
            Except.map, Except.mapError]
        · simp [Isa.decodeAs, Isa.reserved, hz, Except.map, Except.mapError, errorOf]
      case add | sub | and | or | xor | slt | shl | shr =>
        by_cases hz : w.extractLsb' 0 11 = 0#11 <;>
          simp [Isa.decodeAs, Isa.decodeAlu, Isa.reserved, hz, formatFor, isRFormat, fieldsOf,
            errorOf, Except.map, Except.mapError, Isa.AluOp.opcode, Isa.fieldA, Isa.fieldB,
            Isa.fieldC]
      case jr =>
        by_cases hz : w.extractLsb' 0 21 = 0#21 <;>
          simp [Isa.decodeAs, Isa.reserved, hz, formatFor, isRFormat, fieldsOf,
            errorOf, Except.map, Except.mapError, Isa.fieldA]
      case lui =>
        by_cases hz : Isa.fieldB w = 0#5
        · have hB : w.extractLsb' 16 5 = 0 := hz
          simp [Isa.decodeAs, Isa.reserved, hz, hB, formatFor, isRFormat, fieldsOf,
            Except.map, Except.mapError, Isa.fieldA]
        · simp [Isa.decodeAs, Isa.reserved, hz, formatFor, isRFormat, errorOf,
            Except.map, Except.mapError]
      all_goals
        simp [Isa.decodeAs, Isa.decodeImm, Isa.decodeBranch, formatFor, isRFormat, fieldsOf,
          Except.map, Except.mapError, Isa.ImmOp.opcode, Isa.Cond.opcode, Isa.fieldA, Isa.fieldB]

end Decoder
end Mini32.Cpp
