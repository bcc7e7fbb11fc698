import Mathlib.Tactic.NormNum
import Mini32.Toolchain.Disassembler
import Mini32.Toolchain.Plain

/-!
# Assembling a disassembly

`disassembleWord_eq` reads the disassembler against the documented decoder: a
legal word is spelled by the `textOf` its instruction, any other word by a
`.word` directive.  Each spelling is a plain statement that the assembler turns
back into the word, so a whole image survives the round trip.

The order is that of the text.  First the fields that the disassembler cuts out of a word are
those of the decoder; then each printed token is a plain token that its parser reads back; then
each format is encoded from its tokens; and `Spells` collects, for one word, that its line is
plain and encodes to it.  The image is the row of these lines.  Nothing here depends on the
labels or the address of a statement.
-/

namespace Mini32.Toolchain

open Py

/-! ## What the disassembler prints -/

/-- The statement printed for an instruction. -/
def textOf : Isa.Instr → Str
  | .nop => opcodeName .nop
  | .halt => opcodeName .halt
  | .alu op rd rs1 rs2 => showR (opcodeName op.opcode) rd.toNat rs1.toNat rs2.toNat
  | .imm op rd rs1 imm16 =>
      if op = .addi then showSigned (opcodeName op.opcode) rd.toNat rs1.toNat imm16.toNat
      else showUnsigned (opcodeName op.opcode) rd.toNat rs1.toNat imm16.toNat
  | .lui rd imm16 => showLui rd.toNat imm16.toNat
  | .lw rd rs1 imm16 => showMemory (opcodeName .lw) rd.toNat rs1.toNat imm16.toNat
  | .sw rs2 rs1 imm16 => showMemory (opcodeName .sw) rs2.toNat rs1.toNat imm16.toNat
  | .branch cond rs1 rs2 imm16 =>
      showSigned (opcodeName cond.opcode) rs1.toNat rs2.toNat imm16.toNat
  | .j imm26 => showJump (opcodeName .j) imm26.toNat
  | .jal imm26 => showJump (opcodeName .jal) imm26.toNat
  | .jr rs1 => showJr rs1.toNat

section Fields

variable (w : Word)

/-- A slice, cut out with a shift and a mask. -/
theorem toNat_slice (s k : ℕ) {ones : ℕ} (h : 2 ^ k - 1 = ones) :
    (w.extractLsb' s k).toNat = (w.toNat >>> s) &&& ones := by
  rw [BitVec.extractLsb'_toNat, ← h, Nat.and_two_pow_sub_one_eq_mod]

/-- The opcode field, … -/
theorem toNat_opcodeField : (Isa.opcodeField w).toNat = w.toNat >>> 26 := by
  have hlt : w.toNat >>> 26 < 2 ^ 6 := by
    rw [Nat.shiftRight_eq_div_pow]
    have := w.isLt
    omega
  rw [Isa.opcodeField, BitVec.extractLsb'_toNat, Nat.mod_eq_of_lt hlt]

/-- … the register field from bit 21 on, … -/
theorem toNat_fieldA : (Isa.fieldA w).toNat = (w.toNat >>> 21) &&& 0x1F :=
  toNat_slice w 21 5 (by norm_num)

/-- … from bit 16 on … -/
theorem toNat_fieldB : (Isa.fieldB w).toNat = (w.toNat >>> 16) &&& 0x1F :=
  toNat_slice w 16 5 (by norm_num)

/-- … and from bit 11 on, … -/
theorem toNat_fieldC : (Isa.fieldC w).toNat = (w.toNat >>> 11) &&& 0x1F :=
  toNat_slice w 11 5 (by norm_num)

/-- … the 16-bit field … -/
theorem toNat_imm16Field : (Isa.imm16Field w).toNat = w.toNat &&& 0xFFFF :=
  toNat_slice w 0 16 (by norm_num)

/-- … and the jump field. -/
theorem toNat_imm26Field : (Isa.imm26Field w).toNat = w.toNat &&& 0x03FFFFFF :=
  toNat_slice w 0 26 (by norm_num)

/-- A reserved field tested through a mask. -/
theorem mask_ne_zero_iff (k : ℕ) {ones : ℕ} (h : 2 ^ k - 1 = ones) :
    w.toNat &&& ones ≠ 0 ↔ w.extractLsb' 0 k ≠ 0 := by
  rw [ne_eq, ne_eq, ← BitVec.toNat_inj, toNat_slice w 0 k h, Nat.shiftRight_zero]
  simp

/-- A word that is its opcode alone. -/
theorem eq_bare_iff {op : Opcode} (h : Isa.opcodeField w = op.code) :
    w.toNat = op.code.toNat <<< 26 ↔ Isa.imm26Field w = 0 := by
  have hbare : (Isa.encodeJ op 0).toNat = op.code.toNat <<< 26 := by
    simp [toNat_encodeJ]
  rw [← hbare, BitVec.toNat_inj]
  constructor
  · rintro rfl
    exact Isa.imm26Field_encodeJ op 0
  · intro hzero
    exact (Isa.encodeJ_fields h).symm.trans (congrArg _ hzero)

end Fields

/-- **The disassembler spells the documented decoding** of every word. -/
theorem disassembleWord_eq (w : Word) :
    disassembleWord w.toNat =
      match Isa.decode w with
      | .ok i => textOf i
      | .error _ => invalid w.toNat := by
  unfold disassembleWord Isa.decode Opcode.ofCode?
  rw [← toNat_opcodeField]
  cases hop : Opcode.all[(Isa.opcodeField w).toNat]? with
  | none => rfl
  | some op =>
      have hcode : Isa.opcodeField w = op.code := (Opcode.code_of_ofCode? hop).symm
      have hR : w.toNat &&& 0x7FF ≠ 0 ↔ w.extractLsb' 0 11 ≠ 0 :=
        mask_ne_zero_iff w 11 (by norm_num)
      have hJr : w.toNat &&& 0x1FFFFF ≠ 0 ↔ w.extractLsb' 0 21 ≠ 0 :=
        mask_ne_zero_iff w 21 (by norm_num)
      have hB : (Isa.fieldB w).toNat ≠ 0 ↔ Isa.fieldB w ≠ 0 :=
        not_congr (BitVec.toNat_inj (y := 0))
      simp only [← toNat_fieldA, ← toNat_fieldB, ← toNat_fieldC, ← toNat_imm16Field,
        ← toNat_imm26Field]
      cases op
      case nop =>
        have hbare : w.toNat = 0 ↔ Isa.imm26Field w = 0 := by
          simpa [Opcode.code] using eq_bare_iff w hcode
        simp only [hbare, Isa.decodeAs, Isa.reserved]
        split <;> rfl
      case halt =>
        simp only [eq_bare_iff w hcode, Isa.decodeAs, Isa.reserved]
        split <;> rfl
      case add | sub | and | or | xor | slt | shl | shr =>
        simp only [hR, Isa.decodeAs, Isa.decodeAlu, Isa.reserved]
        by_cases hz : w.extractLsb' 0 11 = 0 <;>
          (simp only [hz, ne_eq, not_true, if_false, if_true]; rfl)
      case jr =>
        simp only [hJr, Isa.decodeAs, Isa.reserved]
        by_cases hz : w.extractLsb' 0 21 = 0 <;>
          (simp only [hz, ne_eq, not_true, if_false, if_true]; rfl)
      case lui =>
        simp only [hB, Isa.decodeAs, Isa.reserved]
        by_cases hz : Isa.fieldB w = 0 <;>
          (simp only [hz, ne_eq, not_true, if_false, if_true]; rfl)
      all_goals rfl

/-! ## Its statements are read back -/

section Tokens

variable {statement : Statement} {filename : Str} {labels : Labels}

/-- A decimal number is a token, … -/
theorem isToken_decimal (v : ℤ) : IsToken (decimal v) where
  ne_nil := decimal_ne_nil v
  token := forall_mem_decimal isTokenChar (by decide) (by decide) v

/-- … so is a register, … -/
theorem isToken_register (index : ℕ) : IsToken (register index) := by
  have hr : IsToken "r".toList := .of_all (by decide) (by decide)
  exact hr.append (isToken_decimal index)

/-- … and so is a hexadecimal number. -/
theorem isToken_hex (width n : ℕ) : IsToken ("0x".toList ++ hex width n) := by
  have hprefix : IsToken "0x".toList := .of_all (by decide) (by decide)
  have hdigit : ∀ d < 16, isTokenChar (upperDigit (Nat.digitChar d)) = true := by decide
  refine hprefix.append ⟨hex_ne_nil width n, fun c hc => ?_⟩
  obtain ⟨d, hd, rfl⟩ := mem_hex hc
  exact hdigit d hd

/-- A register is read back. -/
theorem parseRegister_register (r : Reg) :
    parseRegister statement filename (register r.toNat) = .ok r.toNat := by
  have hread : ∀ r : Reg, registerAliases.lookup (lower (register r.toNat)) = none ∧
      registerMatch (lower (register r.toNat)) = some (decimal r.toNat) ∧
      int10 (decimal r.toNat) = some (r.toNat : ℤ) := by
    decide +kernel
  obtain ⟨halias, hmatch, hint⟩ := hread r
  have hrange : (0 : ℤ) ≤ r.toNat ∧ (r.toNat : ℤ) ≤ 31 := by omega
  simp only [parseRegister, (isToken_register _).isWord.strip_eq, halias, hmatch, hint,
    if_pos hrange, Int.toNat_natCast]

/-- Field values are far below the digit limit. -/
theorem int0_decimal_of_small {v : ℤ} (h : v.natAbs < 2 ^ 32) : int0 (decimal v) = some v := by
  refine int0_decimal v ?_
  have hten : (Nat.toDigits 10 v.natAbs).length ≤ 10 :=
    (Nat.length_toDigits_le_iff (by decide) (by decide)).mpr (by omega)
  exact hten.trans (by decide)

/-- The disassembler's sign extension is the signed value of a field. -/
theorem signExtend_eq_toInt {k : ℕ} (x : BitVec k) :
    signExtend x.toNat k = x.toInt := by
  have hbit : x.toNat &&& (1 <<< (k - 1)) ≠ 0 ↔ x.msb = true := by
    rw [Nat.one_shiftLeft, Nat.and_two_pow, BitVec.msb_eq_getLsbD_last, ← BitVec.testBit_toNat]
    cases x.toNat.testBit (k - 1) <;> simp
  rw [signExtend, BitVec.toInt_eq_msb_cond]
  simp only [hbit]
  rw [Nat.one_shiftLeft]

/-- A signed field is printed and read back. -/
theorem int0_signExtend {k : ℕ} (hk : k ≤ 32) (x : BitVec k) :
    int0 (decimal (signExtend x.toNat k)) = some x.toInt := by
  have hpow : (2 : ℤ) ^ (k - 1) ≤ 2 ^ 31 := pow_le_pow_right₀ (by decide) (by omega)
  have hle := BitVec.toInt_le (x := x)
  have hge := BitVec.le_toInt x
  rw [signExtend_eq_toInt, int0_decimal_of_small (by omega)]

/-- It is in the range that the assembler checks it against. -/
theorem checkedRange_toInt {k : ℕ} (x : BitVec k) (description : Str) :
    checkedRange statement filename x.toInt (-2 ^ (k - 1)) (2 ^ (k - 1) - 1) description =
      .ok x.toInt :=
  checkedRange_eq_ok.mpr ⟨rfl, BitVec.le_toInt x, BitVec.toInt_le⟩

/-- The mask takes the signed value back to the field, … -/
theorem mask_toInt {k : ℕ} (x : BitVec k) : mask k x.toInt = x.toNat := by
  rw [← toNat_ofInt, BitVec.ofInt_toInt]

/-- … and leaves the unsigned one alone. -/
theorem mask_toNat {k : ℕ} (x : BitVec k) : mask k (x.toNat : ℤ) = x.toNat := by
  rw [← toNat_ofInt, BitVec.ofInt_natCast, BitVec.ofNat_toNat, BitVec.setWidth_eq]

/-- A signed value is read back, … -/
theorem parseNumber_decimal {k : ℕ} (hk : k ≤ 32) (x : BitVec k) :
    parseNumber statement filename (decimal (signExtend x.toNat k)) = .ok x.toInt :=
  parseNumber_eq_ok.mpr (int0_signExtend hk x)

/-- … and so is a hexadecimal one. -/
theorem parseNumber_hex (width n : ℕ) :
    parseNumber statement filename ("0x".toList ++ hex width n) = .ok (n : ℤ) :=
  parseNumber_eq_ok.mpr (int0_hex width n)

/-- A displacement is read back as a number. -/
theorem resolveDisplacement_decimal {k : ℕ} (hk : k ≤ 32) (x : BitVec k) :
    resolveDisplacement statement filename (decimal (signExtend x.toNat k)) k labels =
      .ok x.toInt := by
  simp only [resolveDisplacement, int0_signExtend hk]
  exact checkedRange_toInt x _

/-- An offset and a base in parentheses. -/
theorem memoryMatch_tokens {offset base : Str} (ho : offset ≠ []) (hb : base ≠ [])
    (hoffset : ∀ c ∈ offset, isMemoryChar c = true) (hbase : ∀ c ∈ base, isMemoryChar c = true) :
    memoryMatch (offset ++ '(' :: (base ++ [')'])) = some (offset, base) := by
  have hspace : ∀ c, isMemoryChar c = true → isSpace c = false := by
    intro c hc
    simp only [isMemoryChar, Bool.and_eq_true] at hc
    simpa using hc.2
  have hword : ∀ s : Str, s ≠ [] → (∀ c ∈ s, isMemoryChar c = true) → IsWord s :=
    fun s hne hs => ⟨hne, fun c hc => hspace c (hs c hc)⟩
  have htake : ∀ s rest : Str, ∀ d, (∀ c ∈ s, isMemoryChar c = true) → isMemoryChar d = false →
      (s ++ d :: rest).takeWhile isMemoryChar = s ∧
        (s ++ d :: rest).dropWhile isMemoryChar = d :: rest := by
    intro s rest d hs hd
    rw [List.takeWhile_append_of_pos hs, List.dropWhile_append_of_pos hs]
    simp [hd]
  obtain ⟨ht1, hd1⟩ := htake offset (base ++ [')']) '(' hoffset (by decide)
  obtain ⟨ht2, hd2⟩ := htake base [] ')' hbase (by decide)
  have hopen : ('(' :: (base ++ [')'])).dropWhile isSpace = '(' :: (base ++ [')']) := rfl
  have hclose : [')'].dropWhile isSpace = [')'] := rfl
  simp only [memoryMatch, (hword offset ho hoffset).dropWhile_append, ht1, hd1, hopen,
    (hword base hb hbase).dropWhile_append, ht2, hd2, hclose, List.all_nil]
  simp [ho, hb]

end Tokens

/-! ## Each format -/

section Formats

variable {statement : Statement} {filename : Str} {labels : Labels}
  (op : Opcode) (a b c : Reg) (imm16 : BitVec 16) (imm26 : BitVec 26)

/-- One token, … -/
theorem splitOperands_one {x : Str} (hx : IsToken x) :
    splitOperands statement filename (join ", ".toList [x]) 1 = .ok ⟨[x], rfl⟩ :=
  splitOperands_join ⟨[x], rfl⟩ (by simp) (List.forall_mem_singleton.mpr hx)

/-- … two tokens … -/
theorem splitOperands_two {x y : Str} (hx : IsToken x) (hy : IsToken y) :
    splitOperands statement filename (join ", ".toList [x, y]) 2 = .ok ⟨[x, y], rfl⟩ :=
  splitOperands_join ⟨[x, y], rfl⟩ (by simp)
    (List.forall_mem_cons.mpr ⟨hx, List.forall_mem_singleton.mpr hy⟩)

/-- … and three. -/
theorem splitOperands_three {x y z : Str} (hx : IsToken x) (hy : IsToken y) (hz : IsToken z) :
    splitOperands statement filename (join ", ".toList [x, y, z]) 3 = .ok ⟨[x, y, z], rfl⟩ :=
  splitOperands_join ⟨[x, y, z], rfl⟩ (by simp)
    (List.forall_mem_cons.mpr ⟨hx, List.forall_mem_cons.mpr ⟨hy,
      List.forall_mem_singleton.mpr hz⟩⟩)

/-- The operands of a vector of one, … -/
theorem get_one (x : Str) (h) : List.Vector.get (⟨[x], h⟩ : List.Vector Str 1) 0 = x := rfl

/-- … of two … -/
theorem get_two (x y : Str) (h) :
    List.Vector.get (⟨[x, y], h⟩ : List.Vector Str 2) 0 = x ∧
      List.Vector.get (⟨[x, y], h⟩ : List.Vector Str 2) 1 = y :=
  ⟨rfl, rfl⟩

/-- … and of three. -/
theorem get_three (x y z : Str) (h) :
    List.Vector.get (⟨[x, y, z], h⟩ : List.Vector Str 3) 0 = x ∧
      List.Vector.get (⟨[x, y, z], h⟩ : List.Vector Str 3) 1 = y ∧
      List.Vector.get (⟨[x, y, z], h⟩ : List.Vector Str 3) 2 = z :=
  ⟨rfl, rfl, rfl⟩

/-- The token of a memory operand. -/
def memoryToken : Str :=
  decimal (signExtend imm16.toNat 16) ++ '(' :: (register b.toNat ++ [')'])

/-- A printed memory operand is a token. -/
theorem isToken_memory : IsToken (memoryToken b imm16) := by
  have hopen : IsToken ['('] := .of_all (by decide) (by decide)
  have hclose : IsToken [')'] := .of_all (by decide) (by decide)
  exact (isToken_decimal _).append (hopen.append ((isToken_register _).append hclose))

/-- The pattern finds the two parts of it, … -/
theorem memoryMatch_token : memoryMatch (memoryToken b imm16) =
    some (decimal (signExtend imm16.toNat 16), register b.toNat) := by
  have hdecimal : ∀ v, ∀ c ∈ decimal v, isMemoryChar c = true :=
    forall_mem_decimal isMemoryChar (by decide) (by decide)
  have hregister : ∀ c ∈ register b.toNat, isMemoryChar c = true := by
    intro c hc
    rcases List.mem_cons.mp hc with rfl | hc
    · decide
    · exact hdecimal _ c hc
  exact memoryMatch_tokens (decimal_ne_nil _) (isToken_register _).ne_nil (hdecimal _) hregister

/-- … which are read back. -/
theorem parseMemoryOperand_token :
    parseMemoryOperand statement filename (memoryToken b imm16) = .ok (imm16.toInt, b.toNat) := by
  have hrange : checkedRange statement filename imm16.toInt (-32768) 32767
      "signed 16-bit offset".toList = .ok imm16.toInt := checkedRange_toInt imm16 _
  simp only [parseMemoryOperand, memoryMatch_token,
    parseNumber_decimal (show 16 ≤ 32 by decide) imm16, hrange, parseRegister_register, bind,
    Except.bind]
  rfl

/-- Three registers. -/
theorem encodeR_registers :
    encodeR statement filename
        (join ", ".toList [register a.toNat, register b.toNat, register c.toNat]) op =
      .ok (Isa.encodeR op a b c).toNat := by
  simp only [encodeR,
    splitOperands_three (isToken_register _) (isToken_register _) (isToken_register _), bind,
    Except.bind, get_three, parseRegister_register, toNat_encodeR]
  rfl

/-- LUI. -/
theorem encodeLui_tokens :
    encodeLui statement filename
        (join ", ".toList [register a.toNat, "0x".toList ++ hex 4 imm16.toNat]) =
      .ok (Isa.encodeI .lui a 0 imm16).toNat := by
  have hrange : checkedRange statement filename imm16.toNat 0 65535
      "unsigned 16-bit immediate".toList = .ok (imm16.toNat : ℤ) :=
    checkedRange_eq_ok.mpr ⟨rfl, by omega, by omega⟩
  simp only [encodeLui, splitOperands_two (isToken_register _) (isToken_hex _ _), bind, Except.bind,
    get_two, parseNumber_hex, hrange, parseRegister_register, toNat_encodeI, Int.toNat_natCast,
    show (0 : Reg).toNat = 0 from rfl,
    Nat.zero_shiftLeft, Nat.or_zero]
  rfl

/-- Two registers and a signed number. -/
theorem encodeI_decimal (description : Str) :
    encodeI statement filename
        (join ", ".toList [register a.toNat, register b.toNat, decimal (signExtend imm16.toNat 16)])
        op (-32768) 32767 description =
      .ok (Isa.encodeI op a b imm16).toNat := by
  have hrange : checkedRange statement filename imm16.toInt (-32768) 32767 description =
      .ok imm16.toInt := checkedRange_toInt imm16 description
  simp only [encodeI,
    splitOperands_three (isToken_register _) (isToken_register _) (isToken_decimal _), bind,
    Except.bind, get_three, parseRegister_register,
    parseNumber_decimal (show 16 ≤ 32 by decide) imm16, hrange, mask_toInt, toNat_encodeI]
  rfl

/-- Two registers and an unsigned number. -/
theorem encodeI_hex (description : Str) :
    encodeI statement filename
        (join ", ".toList [register a.toNat, register b.toNat, "0x".toList ++ hex 4 imm16.toNat])
        op 0 65535 description =
      .ok (Isa.encodeI op a b imm16).toNat := by
  have hrange : checkedRange statement filename imm16.toNat 0 65535 description =
      .ok (imm16.toNat : ℤ) :=
    checkedRange_eq_ok.mpr ⟨rfl, by omega, by omega⟩
  simp only [encodeI,
    splitOperands_three (isToken_register _) (isToken_register _) (isToken_hex _ _), bind,
    Except.bind, get_three, parseRegister_register, parseNumber_hex, hrange, mask_toNat,
    toNat_encodeI]
  rfl

/-- A register and a memory operand. -/
theorem encodeMemory_tokens :
    encodeMemory statement filename
        (join ", ".toList [register a.toNat, memoryToken b imm16]) op =
      .ok (Isa.encodeI op a b imm16).toNat := by
  simp only [encodeMemory, splitOperands_two (isToken_register _) (isToken_memory b imm16), bind,
    Except.bind, get_two, parseRegister_register, parseMemoryOperand_token, mask_toInt,
    toNat_encodeI]
  rfl

/-- Two registers and a displacement. -/
theorem encodeBranch_tokens :
    encodeBranch statement filename
        (join ", ".toList [register a.toNat, register b.toNat, decimal (signExtend imm16.toNat 16)])
        op labels =
      .ok (Isa.encodeI op a b imm16).toNat := by
  simp only [encodeBranch,
    splitOperands_three (isToken_register _) (isToken_register _) (isToken_decimal _), bind,
    Except.bind, get_three, parseRegister_register,
    resolveDisplacement_decimal (show 16 ≤ 32 by decide) imm16, mask_toInt, toNat_encodeI]
  rfl

/-- A displacement. -/
theorem encodeJump_tokens :
    encodeJump statement filename (join ", ".toList [decimal (signExtend imm26.toNat 26)]) op
        labels =
      .ok (Isa.encodeJ op imm26).toNat := by
  simp only [encodeJump, splitOperands_one (isToken_decimal _), bind, Except.bind, get_one,
    resolveDisplacement_decimal (show 26 ≤ 32 by decide) imm26, mask_toInt, toNat_encodeJ]
  rfl

/-- A register. -/
theorem encodeJr_tokens :
    encodeJr statement filename (join ", ".toList [register a.toNat]) =
      .ok (Isa.encodeR .jr a 0 0).toNat := by
  simp only [encodeJr, splitOperands_one (isToken_register _), bind, Except.bind, get_one,
    parseRegister_register, toNat_encodeR, show (0 : Reg).toNat = 0 from rfl, Nat.zero_shiftLeft,
    Nat.or_zero]
  rfl

end Formats

/-! ## Each instruction -/

section Instructions

/-- The tokens that the disassembler joins for an instruction. -/
def tokensOf : Isa.Instr → List Str
  | .nop | .halt => []
  | .alu _ rd rs1 rs2 => [register rd.toNat, register rs1.toNat, register rs2.toNat]
  | .imm op rd rs1 imm16 =>
      [register rd.toNat, register rs1.toNat,
        if op = .addi then decimal (signExtend imm16.toNat 16)
        else "0x".toList ++ hex 4 imm16.toNat]
  | .lui rd imm16 => [register rd.toNat, "0x".toList ++ hex 4 imm16.toNat]
  | .lw r base imm16 | .sw r base imm16 => [register r.toNat, memoryToken base imm16]
  | .branch _ rs1 rs2 imm16 =>
      [register rs1.toNat, register rs2.toNat, decimal (signExtend imm16.toNat 16)]
  | .j imm26 | .jal imm26 => [decimal (signExtend imm26.toNat 26)]
  | .jr rs1 => [register rs1.toNat]

/-- What is printed as an operand is a token. -/
theorem isToken_tokensOf (i : Isa.Instr) : ∀ t ∈ tokensOf i, IsToken t := by
  cases i with
  | imm op rd rs1 imm16 =>
      simp only [tokensOf, List.forall_mem_cons, isToken_register, List.not_mem_nil, false_implies,
        implies_true, and_true, true_and]
      split
      · exact isToken_decimal _
      · exact isToken_hex 4 _
  | _ =>
      simp only [tokensOf, List.forall_mem_cons, isToken_register, isToken_decimal, isToken_hex,
        isToken_memory, List.not_mem_nil, false_implies, implies_true, and_true]

/-- The statement of an instruction with operands. -/
theorem textOf_eq_join {i : Isa.Instr} (h : tokensOf i ≠ []) :
    textOf i = opcodeName i.opcode ++ ' ' :: join ", ".toList (tokensOf i) := by
  cases i with
  | nop => exact absurd rfl h
  | halt => exact absurd rfl h
  | imm op =>
      simp only [textOf, tokensOf, showSigned, showUnsigned, join_cons_cons, join_singleton,
        List.append_assoc]
      split <;> rfl
  | lui rd imm16 =>
      show "LUI ".toList ++ register rd.toNat ++ ", 0x".toList ++ hex 4 imm16.toNat = _
      simp only [tokensOf, join_cons_cons, join_singleton, List.append_assoc]
      rfl
  | _ =>
      simp only [textOf, tokensOf, showR, showSigned, showMemory, showJump, showJr,
        memoryToken, join_cons_cons, join_singleton, List.append_assoc]
      rfl

/-- The printed operands encode to the word. -/
theorem encodeOpcode_tokensOf {statement : Statement} {filename : Str} {labels : Labels}
    (i : Isa.Instr) (h : tokensOf i ≠ []) :
    encodeOpcode statement filename (join ", ".toList (tokensOf i)) labels i.opcode =
      .ok (Isa.encode i).toNat := by
  cases i with
  | nop => exact absurd rfl h
  | halt => exact absurd rfl h
  | alu op rd rs1 rs2 => cases op <;> exact encodeR_registers _ rd rs1 rs2
  | imm op rd rs1 imm16 =>
      cases op with
      | addi => exact encodeI_decimal _ rd rs1 imm16 _
      | _ => exact encodeI_hex _ rd rs1 imm16 _
  | lui rd imm16 => exact encodeLui_tokens rd imm16
  | lw rd rs1 imm16 => exact encodeMemory_tokens _ rd rs1 imm16
  | sw rs2 rs1 imm16 => exact encodeMemory_tokens _ rs2 rs1 imm16
  | branch cond rs1 rs2 imm16 => cases cond <;> exact encodeBranch_tokens _ rs1 rs2 imm16
  | j imm26 => exact encodeJump_tokens _ imm26
  | jal imm26 => exact encodeJump_tokens _ imm26
  | jr rs1 => exact encodeJr_tokens rs1

/-- A text that is plain and encodes to a word wherever it stands. -/
structure Spells (text : Str) (word : ℕ) : Prop where
  plain : IsPlainText text
  encodes : ∀ line address filename labels,
    encodeStatement ⟨line, text, address⟩ filename labels = .ok word

/-- A mnemonic on its own. -/
theorem spells_bare {i : Isa.Instr} (h : i = .nop ∨ i = .halt) :
    Spells (textOf i) (Isa.encode i).toNat := by
  rcases h with rfl | rfl
  · exact ⟨(isToken_opcodeName .nop).isPlainText, fun _ _ _ _ => rfl⟩
  · exact ⟨(isToken_opcodeName .halt).isPlainText, fun _ _ _ _ => rfl⟩

/-- The text of an instruction spells its encoding. -/
theorem spells_textOf (i : Isa.Instr) : Spells (textOf i) (Isa.encode i).toNat := by
  by_cases hnil : tokensOf i = []
  · refine spells_bare ?_
    cases i with
    | nop => exact .inl rfl
    | halt => exact .inr rfl
    | _ => cases hnil
  · obtain ⟨token, tokens, hcons⟩ := List.exists_cons_of_ne_nil hnil
    have htokens := isToken_tokensOf i
    have htext := textOf_eq_join hnil
    have hencode : ∀ statement filename labels,
        encodeOpcode statement filename (join ", ".toList (tokensOf i)) labels i.opcode =
          .ok (Isa.encode i).toNat := fun _ _ _ => encodeOpcode_tokensOf i hnil
    rw [hcons] at htokens htext hencode
    rw [htext]
    refine ⟨isPlainText_tokens _ htokens, fun line address filename labels => ?_⟩
    exact (encodeStatement_tokens _ htokens line address filename labels).trans (hencode _ _ _)

/-- The `.word` escape. -/
theorem spells_invalid {word : ℕ} (h : word < 2 ^ 32) : Spells (invalid word) word := by
  have hdirective : IsToken ".word".toList := .of_all (by decide) (by decide)
  have hhex := isToken_hex 8 word
  have htext : invalid word = ".word".toList ++ ' ' :: ("0x".toList ++ hex 8 word) := rfl
  have hspace : ∀ c ∈ [' '], isPlain c = true := List.all_eq_true.mp (by decide)
  rw [htext]
  refine ⟨hdirective.isPlainText.append hspace hhex.isPlainText,
    fun line address filename labels => ?_⟩
  have hpieces := splitWord_word_space hdirective.isWord hhex.ne_nil hhex.isPlainText.head
  have hexpand : expand [".word".toList, "0x".toList ++ hex 8 word] =
      some (".WORD".toList, "0x".toList ++ hex 8 word) := rfl
  have hrange : ∀ statement, checkedRange statement filename word 0 0xFFFFFFFF
      ".word value".toList = .ok (word : ℤ) :=
    fun statement => checkedRange_eq_ok.mpr ⟨rfl, by omega, by omega⟩
  simp only [encodeStatement, hpieces, hexpand, if_true, encodeWord, hhex.isWord.strip_eq,
    parseNumber_hex, hrange, bind, Except.bind]
  rfl

/-- **Every word is read back from its disassembly.** -/
theorem spells_disassembleWord (w : Word) : Spells (disassembleWord w.toNat) w.toNat := by
  rw [disassembleWord_eq]
  cases hd : Isa.decode w with
  | ok i =>
      have h := spells_textOf i
      rwa [Isa.encode_of_decode hd] at h
  | error e => exact spells_invalid w.isLt

end Instructions

/-! ## Images -/

section Images

variable {filename : Str}

/-- A word has the bytes it was read from. -/
theorem toBytes_ofBytes (b0 b1 b2 b3 : BitVec 8) :
    toBytes (ByteStore.ofBytes b0 b1 b2 b3).toNat = .ok [b0, b1, b2, b3] := by
  have hlt := (ByteStore.ofBytes b0 b1 b2 b3).isLt
  simp only [toBytes, if_pos hlt, BitVec.ofNat_toNat, BitVec.setWidth_eq, ByteStore.byteOf_ofBytes]

/-- The words of an image, written out, are the image. -/
theorem flatten_wordsOf : ∀ image : List (BitVec 8), image.length % 4 = 0 →
    ∃ parts, (wordsOf image).mapM toBytes = .ok parts ∧ parts.flatten = image
  | [], _ => ⟨[], rfl, rfl⟩
  | b0 :: b1 :: b2 :: b3 :: image, h => by
      have hlength : image.length % 4 = 0 := by
        simp only [List.length_cons] at h
        omega
      obtain ⟨parts, hparts, hflatten⟩ := flatten_wordsOf image hlength
      refine ⟨[b0, b1, b2, b3] :: parts, ?_, ?_⟩
      · rw [wordsOf, List.mapM_cons, toBytes_ofBytes, hparts]
        rfl
      · rw [List.flatten_cons, hflatten]
        rfl
  | [_], h | [_, _], h | [_, _, _], h => absurd h (by simp)

/-- Spelled lines encode to their words, whatever their line numbers and addresses. -/
theorem mapM_encodeStatement {words : List ℕ} {labels : Labels} {f : ℕ → Str}
    (h : ∀ word ∈ words, Spells (f word) word) (lineNumber address : ℕ) :
    (statementsOf lineNumber address (words.map f)).mapM
        (fun statement => encodeStatement statement filename labels) = .ok words := by
  induction words generalizing lineNumber address with
  | nil => rfl
  | cons word words ih =>
      have hword := (h word List.mem_cons_self).encodes lineNumber address filename labels
      rw [List.map_cons, statementsOf, List.mapM_cons, hword,
        ih fun w hw => h w (List.mem_cons_of_mem _ hw)]
      rfl

/-- Each word of an image is spelled by its line. -/
theorem spells_wordsOf : ∀ image : List (BitVec 8), ∀ word ∈ wordsOf image,
    Spells (disassembleWord word) word
  | _ :: _ :: _ :: _ :: image =>
      List.forall_mem_cons.mpr ⟨spells_disassembleWord _, spells_wordsOf image⟩
  | [] | [_] | [_, _] | [_, _, _] => nofun

/-- An image that is not empty has a word. -/
theorem wordsOf_ne_nil {image : List (BitVec 8)} (h : image.length % 4 = 0) (hne : image ≠ []) :
    wordsOf image ≠ [] := by
  match image with
  | _ :: _ :: _ :: _ :: _ => exact List.cons_ne_nil _ _
  | [_] | [_, _] | [_, _, _] => simp at h
  | [] => exact absurd rfl hne

/-- **Assembling a disassembly is the identity on images** of whole words, of any
length and with any words in them. -/
theorem assemble_disassemble (image : List (BitVec 8)) (filename : Str)
    (h : image.length % 4 = 0) :
    ∃ source, disassembleBytes image = .ok source ∧ assembleText source filename = .ok image := by
  by_cases hnil : image = []
  · subst hnil
    exact ⟨[], rfl, rfl⟩
  · have hempty : image.isEmpty = false := by simpa using hnil
    obtain ⟨parts, hparts, hflatten⟩ := flatten_wordsOf image h
    have hspells := spells_wordsOf image
    have hplain : ∀ line ∈ (wordsOf image).map disassembleWord, IsPlainText line := by
      intro line hline
      obtain ⟨word, hword, rfl⟩ := List.mem_map.mp hline
      exact (hspells word hword).plain
    have hlines : (wordsOf image).map disassembleWord ≠ [] := by
      simpa using wordsOf_ne_nil h hnil
    refine ⟨join "\n".toList ((wordsOf image).map disassembleWord) ++ "\n".toList, ?_, ?_⟩
    · rw [disassembleBytes, if_neg (by omega), hempty]
      rfl
    · simp only [assembleText, parseSource_plain hplain hlines, bind, Except.bind,
        mapM_encodeStatement hspells, hparts, hflatten]
      rfl

/-- A legal word and a malformed one. -/
theorem assemble_disassemble_malformed :
    ∃ source, disassembleBytes [0xFF, 0xFF, 0x62, 0x24, 0x01, 0x00, 0x00, 0x04] = .ok source ∧
      assembleText source "image.asm".toList =
        .ok [0xFF, 0xFF, 0x62, 0x24, 0x01, 0x00, 0x00, 0x04] :=
  assemble_disassemble _ _ (by decide)

end Images

end Mini32.Toolchain
