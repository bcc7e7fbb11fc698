import Mathlib.Data.Int.ModEq
import Mini32.Lib.Fallible
import Mini32.Rtl.CpuCore
import Mini32.Simulator.Step
import Mini32.Toolchain.Assembler

/-!
# What the assembler encodes, the hardware decodes

The shifts and masks of `encode_statement` lay a word out as the documented
`Isa.encode` does.  `Writes` says which instruction a list of operands spells,
through the token parsers of the assembler itself, and `encodeStatement_encodes`
says that an accepted statement is the encoding of the instruction it spells.
Both decoders then read that instruction back.

The argument has one lemma for each format.  A field of the word is the number its token
was parsed to, by a range check for the numbers and by `parseRegister_lt` for the registers;
a negative number enters its field modulo a power of two, so `Writes` says it as a
congruence (`mask_field`).  In the cores nothing is decoded twice: `step_of_encode` and
`clock_of_encode` start where the encoded word is in the instruction register.
-/

namespace Mini32.Toolchain

open Py Fallible

/-! ## Layouts in shifts -/

section Layout

variable (op : Opcode) (a b c : Reg) (imm16 : BitVec 16) (imm26 : BitVec 26)

/-- The R layout, … -/
theorem toNat_encodeR : (Isa.encodeR op a b c).toNat =
    op.code.toNat <<< 26 ||| a.toNat <<< 21 ||| b.toNat <<< 16 ||| c.toNat <<< 11 := by
  simp only [Isa.encodeR, BitVec.toNat_append, Nat.shiftLeft_or_distrib, ← Nat.shiftLeft_add]
  simp

/-- … the layout with a 16-bit field, … -/
theorem toNat_encodeI : (Isa.encodeI op a b imm16).toNat =
    op.code.toNat <<< 26 ||| a.toNat <<< 21 ||| b.toNat <<< 16 ||| imm16.toNat := by
  simp only [Isa.encodeI, BitVec.toNat_append, Nat.shiftLeft_or_distrib, ← Nat.shiftLeft_add]

/-- … and that of a jump. -/
theorem toNat_encodeJ : (Isa.encodeJ op imm26).toNat = op.code.toNat <<< 26 ||| imm26.toNat := by
  simp only [Isa.encodeJ, BitVec.toNat_append]

end Layout

/-! ## The token parsers -/

section Tokens

variable {statement : Statement} {filename : Str} {labels : Labels}

/-- A range check returns its value. -/
theorem checkedRange_eq_ok {value minimum maximum v : ℤ} {description : Str} :
    checkedRange statement filename value minimum maximum description = .ok v ↔
      v = value ∧ minimum ≤ value ∧ value ≤ maximum := by
  unfold checkedRange
  split
  · simp_all [eq_comm]
  · cases str value <;> simp_all [reject]

/-- A number is what `int` makes of it. -/
theorem parseNumber_eq_ok {token : Str} {v : ℤ} :
    parseNumber statement filename token = .ok v ↔ int0 token = some v := by
  unfold parseNumber
  cases int0 token <;> simp [reject]

/-- A register token names one of the 32 registers. -/
theorem parseRegister_lt {token : Str} {r : ℕ}
    (h : parseRegister statement filename token = .ok r) : r < 32 := by
  simp only [parseRegister] at h
  cases hlookup : registerAliases.lookup (lower (strip token)) with
  | some index =>
      have halias : ∀ p ∈ registerAliases, p.2 < 32 := by decide
      obtain rfl : index = r := by simpa [hlookup] using h
      obtain ⟨pre, post, heq, -⟩ := List.lookup_eq_some_iff.mp hlookup
      exact halias (lower (strip token), index) (by rw [heq]; simp)
  | none =>
      simp only [hlookup] at h
      cases hmatch : registerMatch (lower (strip token)) with
      | none => simp [hmatch, reject] at h
      | some digits =>
          simp only [hmatch] at h
          cases hint : int10 digits with
          | none => simp [hint] at h
          | some value =>
              simp only [hint] at h
              split at h
              · cases h
                omega
              · cases h

/-- A register token read as the register it names. -/
theorem exists_reg {token : Str} {r : ℕ} (h : parseRegister statement filename token = .ok r) :
    ∃ reg : Reg, r = reg.toNat ∧ parseRegister statement filename token = .ok reg.toNat := by
  have heq : (BitVec.ofNat 5 r).toNat = r := by
    rw [BitVec.toNat_ofNat]
    exact Nat.mod_eq_of_lt (parseRegister_lt h)
  exact ⟨BitVec.ofNat 5 r, heq.symm, heq.symm ▸ h⟩

/-- The operands of a text, if there are as many as asked for and none is empty. -/
theorem splitOperands_eq_ok {text : Str} {count : ℕ} {operands : List.Vector Str count}
    (h : splitOperands statement filename text count = .ok operands) :
    operandsOf text = operands.toList := by
  unfold splitOperands at h
  split at h
  · cases h
    rfl
  · cases h

/-- One operand, … -/
theorem toList_one (v : List.Vector Str 1) : v.toList = [v.get 0] := by
  obtain ⟨l, hl⟩ := v
  obtain ⟨a, rfl⟩ := List.length_eq_one_iff.mp hl
  rfl

/-- … two operands, … -/
theorem toList_two (v : List.Vector Str 2) : v.toList = [v.get 0, v.get 1] := by
  obtain ⟨l, hl⟩ := v
  obtain ⟨a, b, rfl⟩ := List.length_eq_two.mp hl
  rfl

/-- … and three. -/
theorem toList_three (v : List.Vector Str 3) : v.toList = [v.get 0, v.get 1, v.get 2] := by
  obtain ⟨l, hl⟩ := v
  obtain ⟨a, b, c, rfl⟩ := List.length_eq_three.mp hl
  rfl

end Tokens

/-! ## Statements spell instructions -/

section Statements

/-- The operands `tokens` spell the instruction: each field is what the assembler's
own parser reads from its token, an immediate or a displacement modulo the width
of its field. -/
inductive Writes (statement : Statement) (filename : Str) (labels : Labels) :
    List Str → Isa.Instr → Prop
  | nop : Writes statement filename labels [] .nop
  | halt : Writes statement filename labels [] .halt
  | alu {op : Isa.AluOp} {a b c : Str} {rd rs1 rs2 : Reg}
      (hrd : parseRegister statement filename a = .ok rd.toNat)
      (hrs1 : parseRegister statement filename b = .ok rs1.toNat)
      (hrs2 : parseRegister statement filename c = .ok rs2.toNat) :
      Writes statement filename labels [a, b, c] (.alu op rd rs1 rs2)
  | imm {op : Isa.ImmOp} {a b c : Str} {rd rs1 : Reg} {imm16 : BitVec 16} {v : ℤ}
      (hrd : parseRegister statement filename a = .ok rd.toNat)
      (hrs1 : parseRegister statement filename b = .ok rs1.toNat)
      (hv : parseNumber statement filename c = .ok v)
      (himm : (imm16.toNat : ℤ) ≡ v [ZMOD 2 ^ 16]) :
      Writes statement filename labels [a, b, c] (.imm op rd rs1 imm16)
  | lui {a b : Str} {rd : Reg} {imm16 : BitVec 16} {v : ℤ}
      (hrd : parseRegister statement filename a = .ok rd.toNat)
      (hv : parseNumber statement filename b = .ok v)
      (himm : (imm16.toNat : ℤ) ≡ v [ZMOD 2 ^ 16]) :
      Writes statement filename labels [a, b] (.lui rd imm16)
  | lw {a m : Str} {rd rs1 : Reg} {imm16 : BitVec 16} {offset : ℤ}
      (hrd : parseRegister statement filename a = .ok rd.toNat)
      (hm : parseMemoryOperand statement filename m = .ok (offset, rs1.toNat))
      (himm : (imm16.toNat : ℤ) ≡ offset [ZMOD 2 ^ 16]) :
      Writes statement filename labels [a, m] (.lw rd rs1 imm16)
  | sw {a m : Str} {rs2 rs1 : Reg} {imm16 : BitVec 16} {offset : ℤ}
      (hrs2 : parseRegister statement filename a = .ok rs2.toNat)
      (hm : parseMemoryOperand statement filename m = .ok (offset, rs1.toNat))
      (himm : (imm16.toNat : ℤ) ≡ offset [ZMOD 2 ^ 16]) :
      Writes statement filename labels [a, m] (.sw rs2 rs1 imm16)
  | branch {cond : Isa.Cond} {a b t : Str} {rs1 rs2 : Reg} {imm16 : BitVec 16} {d : ℤ}
      (hrs1 : parseRegister statement filename a = .ok rs1.toNat)
      (hrs2 : parseRegister statement filename b = .ok rs2.toNat)
      (hd : resolveDisplacement statement filename t 16 labels = .ok d)
      (himm : (imm16.toNat : ℤ) ≡ d [ZMOD 2 ^ 16]) :
      Writes statement filename labels [a, b, t] (.branch cond rs1 rs2 imm16)
  | j {t : Str} {imm26 : BitVec 26} {d : ℤ}
      (hd : resolveDisplacement statement filename t 26 labels = .ok d)
      (himm : (imm26.toNat : ℤ) ≡ d [ZMOD 2 ^ 26]) :
      Writes statement filename labels [t] (.j imm26)
  | jal {t : Str} {imm26 : BitVec 26} {d : ℤ}
      (hd : resolveDisplacement statement filename t 26 labels = .ok d)
      (himm : (imm26.toNat : ℤ) ≡ d [ZMOD 2 ^ 26]) :
      Writes statement filename labels [t] (.jal imm26)
  | jr {a : Str} {rs1 : Reg} (hrs1 : parseRegister statement filename a = .ok rs1.toNat) :
      Writes statement filename labels [a] (.jr rs1)

variable {statement : Statement} {filename : Str} {labels : Labels} {text : Str} {word : ℕ}

/-- The word is the encoding of an instruction with this opcode that the operands spell. -/
def Encodes (statement : Statement) (filename : Str) (labels : Labels) (text : Str) (op : Opcode)
    (word : ℕ) : Prop :=
  ∃ i : Isa.Instr, Writes statement filename labels (operandsOf text) i ∧ i.opcode = op ∧
    word = (Isa.encode i).toNat

/-- A masked value in its field. -/
theorem mask_field (k : ℕ) (v : ℤ) :
    ((BitVec.ofInt k v).toNat : ℤ) ≡ v [ZMOD 2 ^ k] := by
  have hpos : (0 : ℤ) < 2 ^ k := Int.pow_pos (by decide)
  rw [toNat_ofInt, mask, Int.toNat_of_nonneg (Int.emod_nonneg v (Int.ne_of_gt hpos))]
  exact Int.mod_modEq v _

/-- The format without operands. -/
theorem encodeBare_encodes {op : Opcode} {i : Isa.Instr}
    (hi : i = .nop ∨ i = .halt) (hop : i.opcode = op)
    (h : encodeBare statement filename text op = .ok word) :
    Encodes statement filename labels text op word := by
  simp only [encodeBare, bind_eq_ok] at h
  obtain ⟨operands, hsplit, hword⟩ := h
  obtain rfl : op.code.toNat <<< 26 = word := Except.ok.inj hword
  have hnil : operandsOf text = [] := by
    rw [splitOperands_eq_ok hsplit]
    exact congrArg _ (List.Vector.eq_nil operands)
  refine ⟨i, ?_, hop, ?_⟩
  · rw [hnil]
    rcases hi with rfl | rfl
    · exact .nop
    · exact .halt
  · rcases hi with rfl | rfl <;> cases hop <;> rfl

/-- The R format. -/
theorem encodeR_encodes (op : Isa.AluOp)
    (h : encodeR statement filename text op.opcode = .ok word) :
    Encodes statement filename labels text op.opcode word := by
  simp only [encodeR, bind_eq_ok] at h
  obtain ⟨operands, hsplit, rd, hrd, rs1, hrs1, rs2, hrs2, hword⟩ := h
  obtain ⟨rd, rfl, hrd⟩ := exists_reg hrd
  obtain ⟨rs1, rfl, hrs1⟩ := exists_reg hrs1
  obtain ⟨rs2, rfl, hrs2⟩ := exists_reg hrs2
  refine ⟨.alu op rd rs1 rs2, ?_, rfl, ?_⟩
  · rw [splitOperands_eq_ok hsplit, toList_three]
    exact .alu hrd hrs1 hrs2
  · exact (Except.ok.inj hword).symm.trans (toNat_encodeR ..).symm

/-- The format of LUI. -/
theorem encodeLui_encodes (h : encodeLui statement filename text = .ok word) :
    Encodes statement filename labels text .lui word := by
  simp only [encodeLui, bind_eq_ok] at h
  obtain ⟨operands, hsplit, number, hnumber, immediate, himm, rd, hrd, hword⟩ := h
  obtain ⟨rd, rfl, hrd⟩ := exists_reg hrd
  obtain ⟨rfl, hmin, hmax⟩ := checkedRange_eq_ok.mp himm
  refine ⟨.lui rd (BitVec.ofInt 16 immediate), ?_, rfl, ?_⟩
  · rw [splitOperands_eq_ok hsplit, toList_two]
    exact .lui hrd hnumber (mask_field 16 immediate)
  · -- an unsigned immediate in range is its own field
    have hmask : (BitVec.ofInt 16 immediate).toNat = immediate.toNat := by
      rw [toNat_ofInt, mask, Int.emod_eq_of_lt hmin (by omega)]
    rw [← Except.ok.inj hword, Isa.encode, toNat_encodeI, hmask]
    simp

/-- The format with two registers and a number. -/
theorem encodeI_encodes (op : Isa.ImmOp) {minimum maximum : ℤ} {description : Str}
    (h : encodeI statement filename text op.opcode minimum maximum description = .ok word) :
    Encodes statement filename labels text op.opcode word := by
  simp only [encodeI, bind_eq_ok] at h
  obtain ⟨operands, hsplit, number, hnumber, immediate, himm, rd, hrd, rs1, hrs1, hword⟩ := h
  obtain ⟨rd, rfl, hrd⟩ := exists_reg hrd
  obtain ⟨rs1, rfl, hrs1⟩ := exists_reg hrs1
  obtain ⟨rfl, -, -⟩ := checkedRange_eq_ok.mp himm
  refine ⟨.imm op rd rs1 (BitVec.ofInt 16 immediate), ?_, rfl, ?_⟩
  · rw [splitOperands_eq_ok hsplit, toList_three]
    exact .imm hrd hrs1 hnumber (mask_field 16 immediate)
  · rw [← Except.ok.inj hword, Isa.encode, toNat_encodeI, toNat_ofInt]

/-- `LW` and `SW` differ in the instruction only. -/
theorem encodeMemory_encodes {op : Opcode} {i : Reg → Reg → BitVec 16 → Isa.Instr}
    (hi : i = .lw ∨ i = .sw) (hop : ∀ a b imm16, (i a b imm16).opcode = op)
    (h : encodeMemory statement filename text op = .ok word) :
    Encodes statement filename labels text op word := by
  simp only [encodeMemory, bind_eq_ok] at h
  obtain ⟨operands, hsplit, ⟨offset, base⟩, hmem, register, hreg, hword⟩ := h
  obtain ⟨register, rfl, hreg⟩ := exists_reg hreg
  have hbase : ∃ reg : Reg, base = reg.toNat := by
    simp only [parseMemoryOperand] at hmem
    split at hmem
    · cases hmem
    · simp only [bind_eq_ok] at hmem
      obtain ⟨_, -, _, -, _, hbase, heq⟩ := hmem
      obtain ⟨reg, rfl, -⟩ := exists_reg hbase
      cases heq
      exact ⟨reg, rfl⟩
  obtain ⟨base, rfl⟩ := hbase
  refine ⟨i register base (BitVec.ofInt 16 offset), ?_, hop _ _ _, ?_⟩
  · rw [splitOperands_eq_ok hsplit, toList_two]
    rcases hi with rfl | rfl
    · exact .lw hreg hmem (mask_field 16 offset)
    · exact .sw hreg hmem (mask_field 16 offset)
  · have hcode := hop register base (BitVec.ofInt 16 offset)
    rw [← Except.ok.inj hword]
    rcases hi with rfl | rfl
    all_goals
      cases hcode
      rw [Isa.encode, toNat_encodeI, toNat_ofInt]
      rfl

/-- The branch format. -/
theorem encodeBranch_encodes (cond : Isa.Cond)
    (h : encodeBranch statement filename text cond.opcode labels = .ok word) :
    Encodes statement filename labels text cond.opcode word := by
  simp only [encodeBranch, bind_eq_ok] at h
  obtain ⟨operands, hsplit, d, hd, rs1, hrs1, rs2, hrs2, hword⟩ := h
  obtain ⟨rs1, rfl, hrs1⟩ := exists_reg hrs1
  obtain ⟨rs2, rfl, hrs2⟩ := exists_reg hrs2
  refine ⟨.branch cond rs1 rs2 (BitVec.ofInt 16 d), ?_, rfl, ?_⟩
  · rw [splitOperands_eq_ok hsplit, toList_three]
    exact .branch hrs1 hrs2 hd (mask_field 16 d)
  · rw [← Except.ok.inj hword, Isa.encode, toNat_encodeI, toNat_ofInt]

/-- The jump format. -/
theorem encodeJump_encodes {op : Opcode} {i : BitVec 26 → Isa.Instr}
    (hi : i = .j ∨ i = .jal) (hop : ∀ imm26, (i imm26).opcode = op)
    (h : encodeJump statement filename text op labels = .ok word) :
    Encodes statement filename labels text op word := by
  simp only [encodeJump, bind_eq_ok] at h
  obtain ⟨operands, hsplit, d, hd, hword⟩ := h
  refine ⟨i (BitVec.ofInt 26 d), ?_, hop _, ?_⟩
  · rw [splitOperands_eq_ok hsplit, toList_one]
    rcases hi with rfl | rfl
    · exact .j hd (mask_field 26 d)
    · exact .jal hd (mask_field 26 d)
  · have hcode := hop (BitVec.ofInt 26 d)
    rw [← Except.ok.inj hword]
    rcases hi with rfl | rfl
    all_goals
      cases hcode
      rw [Isa.encode, toNat_encodeJ, toNat_ofInt]
      rfl

/-- The JR format. -/
theorem encodeJr_encodes (h : encodeJr statement filename text = .ok word) :
    Encodes statement filename labels text .jr word := by
  simp only [encodeJr, bind_eq_ok] at h
  obtain ⟨operands, hsplit, register, hreg, hword⟩ := h
  obtain ⟨register, rfl, hreg⟩ := exists_reg hreg
  refine ⟨.jr register, ?_, rfl, ?_⟩
  · rw [splitOperands_eq_ok hsplit, toList_one]
    exact .jr hreg
  · rw [← Except.ok.inj hword, Isa.encode, toNat_encodeR]
    simp

/-- **An accepted statement is the encoding of the instruction it spells.** -/
theorem encodeOpcode_encodes {op : Opcode}
    (h : encodeOpcode statement filename text labels op = .ok word) :
    Encodes statement filename labels text op word := by
  cases op with
  | nop => exact encodeBare_encodes (.inl rfl) rfl h
  | halt => exact encodeBare_encodes (.inr rfl) rfl h
  | add => exact encodeR_encodes .add h
  | sub => exact encodeR_encodes .sub h
  | and => exact encodeR_encodes .and h
  | or => exact encodeR_encodes .or h
  | xor => exact encodeR_encodes .xor h
  | slt => exact encodeR_encodes .slt h
  | shl => exact encodeR_encodes .shl h
  | shr => exact encodeR_encodes .shr h
  | addi => exact encodeI_encodes .addi h
  | andi => exact encodeI_encodes .andi h
  | ori => exact encodeI_encodes .ori h
  | xori => exact encodeI_encodes .xori h
  | lui => exact encodeLui_encodes h
  | lw => exact encodeMemory_encodes (.inl rfl) (fun _ _ _ => rfl) h
  | sw => exact encodeMemory_encodes (.inr rfl) (fun _ _ _ => rfl) h
  | beq => exact encodeBranch_encodes .eq h
  | bne => exact encodeBranch_encodes .ne h
  | blt => exact encodeBranch_encodes .lt h
  | bge => exact encodeBranch_encodes .ge h
  | j => exact encodeJump_encodes (.inl rfl) (fun _ => rfl) h
  | jal => exact encodeJump_encodes (.inr rfl) (fun _ => rfl) h
  | jr => exact encodeJr_encodes h

/-- The mnemonic of a statement other than `.word`, and its operand text. -/
theorem encodeStatement_encodes (h : encodeStatement statement filename labels = .ok word)
    (hdirective : ∀ text, expand (splitWord statement.text) ≠ some (".WORD".toList, text)) :
    ∃ mnemonic text op, expand (splitWord statement.text) = some (mnemonic, text) ∧
      opcodeNamed mnemonic = some op ∧ Encodes statement filename labels text op word := by
  simp only [encodeStatement] at h
  cases hexpand : expand (splitWord statement.text) with
  | none => simp [hexpand] at h
  | some p =>
      obtain ⟨mnemonic, text⟩ := p
      have hword : mnemonic ≠ ".WORD".toList := by
        rintro rfl
        exact hdirective text hexpand
      simp only [hexpand, if_neg hword] at h
      cases hop : opcodeNamed mnemonic with
      | none => simp [hop, reject] at h
      | some op =>
          simp only [hop] at h
          exact ⟨mnemonic, text, op, rfl, hop, encodeOpcode_encodes h⟩

end Statements

/-! ## The decoders read the instruction back -/

/-- Fetching an encoded instruction never ends in a decoding fault. -/
theorem step_of_encode {i : Isa.Instr} {cpu cpu' : Cpp.CpuCore} {bus bus' : Cpp.Bus}
    {result : Cpp.StepResult} (hm : cpu.microstate = .fetch)
    (hf : bus.fetch32 cpu.pc = .ok (Isa.encode i)) (hs : cpu.step bus = .ok (result, cpu', bus'))
    (hfault : result = .faulted) :
    cpu'.faultInfo.code ≠ .illegalInstruction ∧ cpu'.faultInfo.code ≠ .malformedInstruction := by
  obtain ⟨_, _, _, hstep, hdone⟩ := cpu.step_completes bus hm
  cases (hstep 0).symm.trans hs
  have hfetch : Cpp.Bus.busModel.fetch bus cpu.arch.pc = .ok (Isa.encode i) := hf
  cases hx : Isa.execute Cpp.Bus.busModel cpu.arch bus i with
  | error r =>
      rw [Isa.step_executeError hfetch (Isa.decode_encode i) hx] at hdone
      obtain ⟨-, -, hinfo, -⟩ := hdone
      obtain ⟨hdata, -⟩ := Isa.execute_error hx
      have hcode : cpu'.faultInfo.code.isData = true := by rw [hinfo]; exact hdata
      constructor <;> (intro heq; rw [heq] at hcode; cases hcode)
  | ok r =>
      rw [Isa.step_retire hfetch (Isa.decode_encode i) hx] at hdone
      have hresult : result = if r.1.halts then .halted else .retired := hdone.1
      rw [hfault] at hresult
      split at hresult <;> cases hresult

/-- The RTL core leaves `S_DECODE` for `S_EXECUTE` when the ports carry an instruction. -/
theorem clock_of_encode {i : Isa.Instr} {core : Rtl.CpuCore} (hs : core.state = .decode)
    (hw : core.instructionRegister = Isa.encode i) (busReady : Bool) (response : Rtl.Response) :
    (core.clock false busReady response).state = .execute := by
  have hrtl := Rtl.decoder_eq (Isa.encode i)
  rw [Isa.decode_encode] at hrtl
  obtain ⟨hvalid, hcode, -⟩ := hrtl
  simp [Rtl.CpuCore.clock, hs, Rtl.CpuCore.decoded, Rtl.CpuCore.controlSupported, hw, hvalid, hcode,
    Rtl.controlUnit_opcode]

/-- **The hardware decodes what the assembler encoded.**  A statement other than
`.word` that the assembler accepts, under any label table, yields a 32-bit word
that the C++ decoder and the RTL decoder both read as the instruction its
mnemonic names with the operands it spells; neither core ever ends in a decoding
fault on it. -/
theorem hardware_decodes {statement : Statement} {filename : Str} {labels : Labels} {word : ℕ}
    (h : encodeStatement statement filename labels = .ok word)
    (hdirective : ∀ text, expand (splitWord statement.text) ≠ some (".WORD".toList, text)) :
    word < 2 ^ 32 ∧ ∃ mnemonic text i,
      expand (splitWord statement.text) = some (mnemonic, text) ∧
      opcodeNamed mnemonic = some i.opcode ∧
      Writes statement filename labels (operandsOf text) i ∧
      Cpp.Decoder.decode (BitVec.ofNat 32 word) = .ok (Cpp.Decoder.fieldsOf i) ∧
      (Rtl.decoder (BitVec.ofNat 32 word)).valid = true ∧
      (Rtl.decoder (BitVec.ofNat 32 word)).opcode = i.opcode.code ∧
      (Rtl.decoder (BitVec.ofNat 32 word)).Carries i ∧
      (∀ (cpu cpu' : Cpp.CpuCore) (bus bus' : Cpp.Bus), cpu.microstate = .fetch →
        bus.fetch32 cpu.pc = .ok (BitVec.ofNat 32 word) →
        cpu.step bus = .ok (.faulted, cpu', bus') →
        cpu'.faultInfo.code ≠ .illegalInstruction ∧
          cpu'.faultInfo.code ≠ .malformedInstruction) ∧
      ∀ (core : Rtl.CpuCore) (busReady : Bool) (response : Rtl.Response), core.state = .decode →
        core.instructionRegister = BitVec.ofNat 32 word →
        (core.clock false busReady response).state = .execute := by
  obtain ⟨mnemonic, text, op, hexpand, hop, i, hwrites, rfl, rfl⟩ :=
    encodeStatement_encodes h hdirective
  have hdecode : Isa.decode (Isa.encode i) = .ok i := Isa.decode_encode i
  have hcpp := Cpp.Decoder.decode_eq (Isa.encode i)
  have hrtl := Rtl.decoder_eq (Isa.encode i)
  rw [hdecode] at hcpp hrtl
  obtain ⟨hvalid, hcode, hcarries⟩ := hrtl
  rw [BitVec.ofNat_toNat, BitVec.setWidth_eq]
  exact ⟨(Isa.encode i).isLt, mnemonic, text, i, hexpand, hop, hwrites, hcpp, hvalid, hcode,
    hcarries, fun cpu cpu' bus bus' hm hf hs => step_of_encode hm hf hs rfl,
    fun core busReady response hs hw => clock_of_encode hs hw busReady response⟩

/-- A store through an alias and a negative offset. -/
theorem hardware_decodes_sw : (0x3FFEFFFC : ℕ) < 2 ^ 32 ∧ ∃ mnemonic text i,
    expand (splitWord "SW ra, -4(sp)".toList) = some (mnemonic, text) ∧
    opcodeNamed mnemonic = some i.opcode ∧
    Writes ⟨1, "SW ra, -4(sp)".toList, 0⟩ [] [] (operandsOf text) i ∧
    Cpp.Decoder.decode (BitVec.ofNat 32 0x3FFEFFFC) = .ok (Cpp.Decoder.fieldsOf i) ∧
    (Rtl.decoder (BitVec.ofNat 32 0x3FFEFFFC)).valid = true ∧
    (Rtl.decoder (BitVec.ofNat 32 0x3FFEFFFC)).opcode = i.opcode.code ∧
    (Rtl.decoder (BitVec.ofNat 32 0x3FFEFFFC)).Carries i := by
  have h := hardware_decodes (show encodeStatement ⟨1, "SW ra, -4(sp)".toList, 0⟩ [] [] =
    .ok 0x3FFEFFFC by decide +kernel) (by
      intro text heq
      have hmnemonic : expand (splitWord "SW ra, -4(sp)".toList) =
        some ("SW".toList, "ra, -4(sp)".toList) := by decide +kernel
      rw [hmnemonic] at heq
      have hfst : "SW".toList = ".WORD".toList := congrArg Prod.fst (Option.some.inj heq)
      exact absurd hfst (by decide))
  obtain ⟨hlt, mnemonic, text, i, hexpand, hop, hwrites, hcpp, hvalid, hcode, hcarries, -⟩ := h
  exact ⟨hlt, mnemonic, text, i, hexpand, hop, hwrites, hcpp, hvalid, hcode, hcarries⟩

end Mini32.Toolchain
