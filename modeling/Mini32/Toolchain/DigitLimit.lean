import Mini32.Toolchain.Faults

/-!
# Integers over the digit limit

Python converts no more than `maxStrDigits` decimal digits between an integer and a string,
in either direction, and raises a `ValueError` for more.  The assembler converts in two
places without a handler: the digits of a register name, and the value in the message of
a range check.

`OverLimit` says which operands meet the limit, by what is written in them: a register
name of `r` and more digits than that, or a number out of its range of so many digits.
`Readable` says which operands are in order.  An operand is checked before another one
only if it is examined before it, so a statement meets the limit exactly if it has an
operand over the limit and those examined before are readable (`LimitFirst`), and a
source if it has such a statement and the earlier ones are in order
(`SourceLimitFirst`).
-/

namespace Mini32.Toolchain

open Py Fallible

/-! ## Operands -/

/-- A register name of `r` and more digits than Python converts. -/
def LongRegister (token : Str) : Prop :=
  ∃ digits, lower (strip token) = 'r' :: digits ∧ (∀ c ∈ digits, (decimalValue c).isSome) ∧
    maxStrDigits < digits.length

/-- A value out of its range with more digits than Python prints. -/
structure LongValue (kind : OperandKind) (value : ℤ) : Prop where
  outside : ¬ Operand.InRange kind (.number value)
  digits : 10 ^ maxStrDigits ≤ value.natAbs

/-- A token that is an operand of its kind, with a value in its range. -/
def Readable (labels : Labels) (address : ℕ) (kind : OperandKind) (token : Str) : Prop :=
  ∃ operand, readOperand labels address kind token = some operand ∧ Operand.InRange kind operand

/-- A token over the digit limit. -/
inductive OverLimit (labels : Labels) (address : ℕ) : OperandKind → Str → Prop
  | register {token : Str} (h : LongRegister token) : OverLimit labels address .register token
  | signed {bits : ℕ} {token : Str} {value : ℤ} (hnumber : int0 token = some value)
      (hlong : LongValue (.signed bits) value) : OverLimit labels address (.signed bits) token
  | unsigned {bits : ℕ} {token : Str} {value : ℤ} (hnumber : int0 token = some value)
      (hlong : LongValue (.unsigned bits) value) : OverLimit labels address (.unsigned bits) token
  | offset {token offset base : Str} {value : ℤ} (hmatch : memoryMatch token = some (offset, base))
      (hnumber : int0 offset = some value) (hlong : LongValue (.signed 16) value) :
      OverLimit labels address .memory token
  /-- The base register is examined after the offset. -/
  | base {token offset base : Str} (hmatch : memoryMatch token = some (offset, base))
      (hoffset : Readable labels address (.signed 16) offset) (hlong : LongRegister base) :
      OverLimit labels address .memory token
  | target {bits : ℕ} {token : Str} {value : ℤ}
      (htarget : readTarget labels address token = some value)
      (hlong : LongValue (.target bits) value) : OverLimit labels address (.target bits) token

section Operands

variable {labels : Labels} {address : ℕ} {token : Str} {minimum maximum value : ℤ}

/-- The number of digits, by size. -/
theorem lt_length_toDigits_iff {n : ℕ} :
    maxStrDigits < (Nat.toDigits 10 n).length ↔ 10 ^ maxStrDigits ≤ n := by
  rw [← Nat.not_le, Nat.length_toDigits_le_iff (by decide) (by decide), Nat.not_lt]

/-- A range check passes in the range, … -/
theorem rangeFault_eq_none_iff :
    rangeFault minimum maximum value = none ↔ minimum ≤ value ∧ value ≤ maximum := by
  unfold rangeFault
  split_ifs <;> simp_all

/-- … and meets the limit outside it, with that many digits. -/
theorem rangeFault_eq_tooLong_iff : rangeFault minimum maximum value = some .tooLong ↔
    ¬ (minimum ≤ value ∧ value ≤ maximum) ∧ 10 ^ maxStrDigits ≤ value.natAbs := by
  rw [← lt_length_toDigits_iff]
  unfold rangeFault
  split_ifs <;> simp_all

/-- A number passes if it can be read and is in range, … -/
theorem numberFault_eq_none_iff : numberFault minimum maximum token = none ↔
    ∃ value, int0 token = some value ∧ minimum ≤ value ∧ value ≤ maximum := by
  unfold numberFault
  cases int0 token with
  | none => simp
  | some value => simp [rangeFault_eq_none_iff]

/-- … and meets the limit if it can be read and its range check does. -/
theorem numberFault_eq_tooLong_iff : numberFault minimum maximum token = some .tooLong ↔
    ∃ value, int0 token = some value ∧ ¬ (minimum ≤ value ∧ value ≤ maximum) ∧
      10 ^ maxStrDigits ≤ value.natAbs := by
  unfold numberFault
  cases int0 token with
  | none => simp
  | some value => simp only [rangeFault_eq_tooLong_iff, Option.some.injEq, exists_eq_left']

/-- A displacement is resolved before it is compared. -/
theorem displacementFault_eq (labels : Labels) (address bits : ℕ) (token : Str) :
    displacementFault labels address bits token =
      (readTarget labels address token).elim (some .malformed)
        (rangeFault (-2 ^ (bits - 1)) (2 ^ (bits - 1) - 1)) := by
  unfold displacementFault readTarget
  cases int0 token with
  | some value => rfl
  | none =>
      cases labels.lookup token with
      | none => rfl
      | some target =>
          simp only [Option.bind_some]
          split_ifs <;> first | rfl | contradiction

/-- The pattern of a register name. -/
theorem registerMatch_eq_some_iff {lowered digits : Str} :
    registerMatch lowered = some digits ↔
      lowered = 'r' :: digits ∧ digits ≠ [] ∧ ∀ c ∈ digits, (decimalValue c).isSome := by
  constructor
  · intro h
    obtain ⟨hne, hdigits⟩ := registerMatch_digits h
    refine ⟨?_, hne, hdigits⟩
    unfold registerMatch at h
    split at h
    · split at h
      · rw [Option.some.inj h]
      · nomatch h
    · nomatch h
  · rintro ⟨rfl, hne, hdigits⟩
    exact if_pos ⟨hne, List.all_eq_true.mpr hdigits⟩

/-- No alias is `r` and digits. -/
theorem lookup_register {digits : Str} (hne : digits ≠ [])
    (h : ∀ c ∈ digits, (decimalValue c).isSome) :
    registerAliases.lookup ('r' :: digits) = none := by
  rw [lookup_eq_none_iff]
  have haliases : (registerAliases.map Prod.fst).all
      (fun name => name.tail.all fun c => (decimalValue c).isNone) = true := by
    decide
  intro hmem
  obtain ⟨c, rest, rfl⟩ := List.exists_cons_of_ne_nil hne
  have hnone := List.all_eq_true.mp (List.all_eq_true.mp haliases _ hmem) c List.mem_cons_self
  have hsome := h c List.mem_cons_self
  rw [Option.isNone_iff_eq_none.mp hnone] at hsome
  nomatch hsome

/-- A register meets the limit exactly if it is a long one. -/
theorem registerFault_eq_tooLong_iff :
    registerFault token = some .tooLong ↔ LongRegister token := by
  unfold registerFault LongRegister
  simp only
  constructor
  · intro h
    split_ifs at h
    split at h
    · cases h
    · next digits hmatch =>
        obtain ⟨hlowered, -, hdigits⟩ := registerMatch_eq_some_iff.mp hmatch
        refine ⟨digits, hlowered, hdigits, ?_⟩
        by_contra hshort
        rw [if_neg hshort] at h
        split at h <;> cases h
  · rintro ⟨digits, hlowered, hdigits, hlong⟩
    have hne : digits ≠ [] := List.length_pos_iff.mp (Nat.zero_lt_of_lt hlong)
    have hmatch := registerMatch_eq_some_iff.mpr ⟨rfl, hne, hdigits⟩
    rw [hlowered, lookup_register hne hdigits, if_neg (by simp), hmatch]
    exact if_pos hlong

/-- A register passes exactly if it can be read. -/
theorem registerFault_eq_none_iff : registerFault token = none ↔
    ∃ index, readRegister token = some index ∧ index < 32 := by
  have haliases : ∀ p ∈ registerAliases, p.2 < 32 := by decide
  unfold registerFault readRegister
  simp only
  cases hlookup : registerAliases.lookup (lower (strip token)) with
  | some index =>
      obtain ⟨l, l', heq, -⟩ := List.lookup_eq_some_iff.mp hlookup
      have hmem : (lower (strip token), index) ∈ registerAliases := by simp [heq]
      exact iff_of_true rfl ⟨index, rfl, haliases _ hmem⟩
  | none =>
      cases hmatch : registerMatch (lower (strip token)) with
      | none => simp
      | some digits =>
          obtain ⟨hne, hdigits⟩ := registerMatch_digits hmatch
          simp only [Option.isSome_none, Bool.false_eq_true, if_false, Option.bind_some,
            int10_digits hne hdigits]
          split_ifs with hlong hvalue
          · simp
          · exact iff_of_true rfl ⟨_, rfl, by simpa using Nat.lt_succ_of_le hvalue⟩
          · refine iff_of_false nofun ?_
            rintro ⟨index, hindex, hlt⟩
            obtain rfl := Option.some.inj hindex
            exact hvalue (Nat.le_of_lt_succ (by simpa using hlt))

/-- The operands that are a number. -/
theorem readable_number_iff {kind : OperandKind} {read : Option ℤ}
    (h : readOperand labels address kind token = read.map .number) :
    Readable labels address kind token ↔
      ∃ value, read = some value ∧ Operand.InRange kind (.number value) := by
  simp only [Readable, h, Option.map_eq_some_iff]
  constructor
  · rintro ⟨_, ⟨value, hread, rfl⟩, hrange⟩
    exact ⟨value, hread, hrange⟩
  · rintro ⟨value, hread, hrange⟩
    exact ⟨_, ⟨value, hread, rfl⟩, hrange⟩

/-- Their range, as the assembler compares: against the greatest value. -/
theorem readable_between_iff {kind : OperandKind} {read : Option ℤ}
    (h : readOperand labels address kind token = read.map .number)
    (hrange : ∀ value, Operand.InRange kind (.number value) ↔ minimum ≤ value ∧ value < maximum) :
    Readable labels address kind token ↔
      ∃ value, read = some value ∧ minimum ≤ value ∧ value ≤ maximum - 1 := by
  rw [readable_number_iff h]
  simp only [hrange, Int.le_sub_one_iff]

/-- What it says of the values that meet the limit. -/
theorem longValue_iff {kind : OperandKind}
    (hrange : Operand.InRange kind (.number value) ↔ minimum ≤ value ∧ value < maximum) :
    LongValue kind value ↔
      ¬ (minimum ≤ value ∧ value ≤ maximum - 1) ∧ 10 ^ maxStrDigits ≤ value.natAbs := by
  rw [Int.le_sub_one_iff, ← hrange]
  exact ⟨fun h => ⟨h.outside, h.digits⟩, fun h => ⟨h.1, h.2⟩⟩

/-- A number is in order if it is readable, … -/
theorem numberFault_eq_none_iff_readable {kind : OperandKind}
    (h : readOperand labels address kind token = (int0 token).map .number)
    (hrange : ∀ value, Operand.InRange kind (.number value) ↔ minimum ≤ value ∧ value < maximum) :
    numberFault minimum (maximum - 1) token = none ↔ Readable labels address kind token :=
  numberFault_eq_none_iff.trans (readable_between_iff h hrange).symm

/-- … and too long if its value is. -/
theorem numberFault_eq_tooLong_iff_longValue {kind : OperandKind}
    (hrange : ∀ value, Operand.InRange kind (.number value) ↔ minimum ≤ value ∧ value < maximum) :
    numberFault minimum (maximum - 1) token = some .tooLong ↔
      ∃ value, int0 token = some value ∧ LongValue kind value := by
  refine numberFault_eq_tooLong_iff.trans (exists_congr fun value => and_congr_right' ?_)
  exact (longValue_iff (hrange value)).symm

/-- The operands that are a register. -/
theorem readable_register_iff : Readable labels address .register token ↔
    ∃ index, readRegister token = some index ∧ index < 32 := by
  simp only [Readable, readOperand, Option.map_eq_some_iff]
  constructor
  · rintro ⟨_, ⟨index, hread, rfl⟩, hlt⟩
    exact ⟨index, hread, hlt⟩
  · rintro ⟨index, hread, hlt⟩
    exact ⟨_, ⟨index, hread, rfl⟩, hlt⟩

/-- The offset and the base of a memory operand. -/
theorem readable_memory_iff : Readable labels address .memory token ↔
    ∃ offset base, memoryMatch token = some (offset, base) ∧
      Readable labels address (.signed 16) offset ∧ Readable labels address .register base := by
  constructor
  · rintro ⟨operand, hread, hrange⟩
    simp only [readOperand, Option.bind_eq_bind, Option.bind_eq_some_iff] at hread
    obtain ⟨⟨offset, base⟩, hmatch, value, hvalue, index, hindex, heq⟩ := hread
    obtain rfl := Option.some.inj heq
    refine ⟨offset, base, hmatch, (readable_number_iff rfl).mpr ⟨value, hvalue, hrange.1⟩,
      .register index, ?_, hrange.2⟩
    rw [readOperand, hindex, Option.map_some]
  · rintro ⟨offset, base, hmatch, hoffset, operand, hbase, hlt⟩
    obtain ⟨value, hvalue, hrange⟩ := (readable_number_iff rfl).mp hoffset
    obtain ⟨index, hindex, rfl⟩ := Option.map_eq_some_iff.mp hbase
    refine ⟨.memory value index, ?_, hrange, hlt⟩
    simp only [readOperand, hmatch, hvalue, hindex, Option.bind_eq_bind, Option.bind_some]
    rfl

/-- The offset is checked as a signed number, the base as a register. -/
theorem operandFault_memory (labels : Labels) (address : ℕ) (token : Str) :
    operandFault labels address .memory token =
      (memoryMatch token).elim (some .malformed) fun groups =>
        (operandFault labels address (.signed 16) groups.1).or
          (operandFault labels address .register groups.2) := by
  rw [operandFault, memoryFault]
  cases memoryMatch token <;> rfl

/-- **An operand is in order** exactly if it is readable. -/
theorem operandFault_eq_none_iff {kind : OperandKind} :
    operandFault labels address kind token = none ↔ Readable labels address kind token := by
  have hregister {token : Str} : operandFault labels address .register token = none ↔
      Readable labels address .register token :=
    registerFault_eq_none_iff.trans readable_register_iff.symm
  have hsigned {bits : ℕ} {token : Str} : operandFault labels address (.signed bits) token = none ↔
      Readable labels address (.signed bits) token :=
    numberFault_eq_none_iff_readable rfl fun _ => Iff.rfl
  cases kind with
  | register => exact hregister
  | signed bits => exact hsigned
  | unsigned bits => exact numberFault_eq_none_iff_readable rfl fun _ => Iff.rfl
  | memory =>
      rw [operandFault_memory, readable_memory_iff]
      cases memoryMatch token with
      | none => simp
      | some groups => simp [Option.or_eq_none_iff, hsigned, hregister, Prod.ext_iff]
  | target bits =>
      rw [operandFault, displacementFault_eq, readable_between_iff rfl fun _ => Iff.rfl]
      cases readTarget labels address token with
      | none => simp
      | some value => simp [rangeFault_eq_none_iff]

/-- **An operand is too long** exactly if it is over the digit limit. -/
theorem operandFault_eq_tooLong_iff {kind : OperandKind} :
    operandFault labels address kind token = some .tooLong ↔
      OverLimit labels address kind token := by
  have hsigned {bits : ℕ} {token : Str} :
      operandFault labels address (.signed bits) token = some .tooLong ↔
        ∃ value, int0 token = some value ∧ LongValue (.signed bits) value :=
    numberFault_eq_tooLong_iff_longValue fun _ => Iff.rfl
  have hunsigned {bits : ℕ} {token : Str} :
      operandFault labels address (.unsigned bits) token = some .tooLong ↔
        ∃ value, int0 token = some value ∧ LongValue (.unsigned bits) value :=
    numberFault_eq_tooLong_iff_longValue fun _ => Iff.rfl
  cases kind with
  | register =>
      refine registerFault_eq_tooLong_iff.trans ⟨.register, ?_⟩
      rintro ⟨h⟩
      exact h
  | signed bits =>
      rw [hsigned]
      constructor
      · rintro ⟨value, hnumber, hlong⟩
        exact .signed hnumber hlong
      · rintro (_ | ⟨hnumber, hlong⟩)
        exact ⟨_, hnumber, hlong⟩
  | unsigned bits =>
      rw [hunsigned]
      constructor
      · rintro ⟨value, hnumber, hlong⟩
        exact .unsigned hnumber hlong
      · rintro (_ | _ | ⟨hnumber, hlong⟩)
        exact ⟨_, hnumber, hlong⟩
  | memory =>
      rw [operandFault_memory]
      constructor
      · intro h
        cases hmatch : memoryMatch token with
        | none => simp [hmatch] at h
        | some groups =>
            obtain ⟨offset, base⟩ := groups
            rw [hmatch, Option.elim_some, Option.or_eq_some_iff] at h
            rcases h with h | ⟨hnone, h⟩
            · obtain ⟨value, hnumber, hlong⟩ := hsigned.mp h
              exact .offset hmatch hnumber hlong
            · exact .base hmatch (operandFault_eq_none_iff.mp hnone)
                (registerFault_eq_tooLong_iff.mp h)
      · intro h
        cases h with
        | offset hmatch hnumber hlong =>
            rw [hmatch, Option.elim_some, hsigned.mpr ⟨_, hnumber, hlong⟩]
            rfl
        | base hmatch hoffset hlong =>
            rw [hmatch, Option.elim_some, operandFault_eq_none_iff.mpr hoffset]
            exact registerFault_eq_tooLong_iff.mpr hlong
  | target bits =>
      rw [operandFault, displacementFault_eq]
      constructor
      · intro h
        cases htarget : readTarget labels address token with
        | none => simp [htarget] at h
        | some value =>
            rw [htarget, Option.elim_some, rangeFault_eq_tooLong_iff] at h
            exact .target htarget ((longValue_iff Iff.rfl).mpr h)
      · intro h
        cases h with
        | target htarget hlong =>
            rw [htarget, Option.elim_some, rangeFault_eq_tooLong_iff]
            exact (longValue_iff Iff.rfl).mp hlong

end Operands

/-! ## Statements -/

/-- The operands that the assembler examines in a statement, in its order: none of a `RET`,
the whole text behind a `.word`, and otherwise the documented number of them, none
empty. -/
inductive Examines (text : Str) : List (OperandKind × Str) → Prop
  | ret (hname : mnemonicNamed ((splitWord text).headD []) = some .ret) : Examines text []
  | word (hname : mnemonicNamed ((splitWord text).headD []) = some .word) :
      Examines text [(.unsigned 32, strip (operandText text))]
  | opcode {op : Opcode} (hname : mnemonicNamed ((splitWord text).headD []) = some (.opcode op))
      (hcount : (operandsOf (operandText text)).length = (Mnemonic.opcode op).kinds.length)
      (hnonempty : ∀ token ∈ operandsOf (operandText text), token ≠ []) :
      Examines text (examined (Mnemonic.opcode op).kinds (operandsOf (operandText text)))

/-- All operands of the statement are in order. -/
def InOrder (labels : Labels) (statement : Statement) : Prop :=
  ∃ operands, Examines statement.text operands ∧
    ∀ p ∈ operands, Readable labels statement.address p.1 p.2

/-- An operand of the statement is over the digit limit, and those examined before it are in
order. -/
def LimitFirst (labels : Labels) (statement : Statement) : Prop :=
  ∃ before kind token after, Examines statement.text (before ++ (kind, token) :: after) ∧
    (∀ p ∈ before, Readable labels statement.address p.1 p.2) ∧
      OverLimit labels statement.address kind token

section Statements

variable {labels : Labels} {address : ℕ} {statement : Statement}
  {operands : List (OperandKind × Str)}

/-- No operand is at fault. -/
theorem firstFault_eq_none_iff : firstFault labels address operands = none ↔
    ∀ p ∈ operands, Readable labels address p.1 p.2 := by
  simp only [firstFault, List.findSome?_eq_none_iff, operandFault_eq_none_iff]

/-- The first operand at fault is over the limit. -/
theorem firstFault_eq_tooLong_iff : firstFault labels address operands = some .tooLong ↔
    ∃ before kind token after, operands = before ++ (kind, token) :: after ∧
      (∀ p ∈ before, Readable labels address p.1 p.2) ∧ OverLimit labels address kind token := by
  rw [firstFault, List.findSome?_eq_some_iff]
  constructor
  · rintro ⟨before, ⟨kind, token⟩, after, rfl, hlong, hbefore⟩
    exact ⟨before, kind, token, after, rfl, fun p hp => operandFault_eq_none_iff.mp (hbefore p hp),
      operandFault_eq_tooLong_iff.mp hlong⟩
  · rintro ⟨before, kind, token, after, rfl, hbefore, hlong⟩
    exact ⟨before, (kind, token), after, rfl, operandFault_eq_tooLong_iff.mpr hlong,
      fun p hp => operandFault_eq_none_iff.mpr (hbefore p hp)⟩

/-- The checks on a statement, by what its first word names. -/
theorem statementFault_eq (hsplit : splitWord statement.text ≠ []) :
    statementFault labels statement =
      match mnemonicNamed ((splitWord statement.text).headD []) with
      | none => some .malformed
      | some .ret => none
      | some .word =>
          operandFault labels statement.address (.unsigned 32) (strip (operandText statement.text))
      | some (.opcode op) =>
          opcodeFault labels statement.address (operandsOf (operandText statement.text)) op := by
  obtain ⟨first, rest, hpieces⟩ := List.exists_cons_of_ne_nil hsplit
  rw [statementFault, operandText, hpieces, List.headD_cons, List.tail_cons, mnemonicNamed]
  by_cases hret : upper first = "RET".toList
  · -- `JR r31` is in order
    have hjr : opcodeFault labels statement.address (operandsOf "r31".toList) .jr = none := by
      rw [opcodeFault, Mnemonic.kinds, ← failure_encodeJr statement [] "r31".toList labels]
      exact congrArg (failure PyError.fault) (encodeJr_tokens 31)
    rw [if_pos hret, expand, if_pos hret]
    exact hjr
  · rw [if_neg hret, expand, if_neg hret]
    simp only
    split
    · rfl
    · cases opcodeNamed (upper first) <;> rfl

/-- The empty text is no mnemonic. -/
theorem mnemonicNamed_nil : mnemonicNamed [] = none := by decide

/-- A statement of which something is examined has a mnemonic. -/
theorem Examines.splitWord_ne_nil {text : Str} (h : Examines text operands) :
    splitWord text ≠ [] := by
  intro hnil
  cases h with
  | ret hname | word hname | opcode hname =>
      rw [hnil, List.headD_nil, mnemonicNamed_nil] at hname
      cases hname

/-- What is examined is checked. -/
theorem statementFault_of_examines (h : Examines statement.text operands) :
    statementFault labels statement = firstFault labels statement.address operands := by
  rw [statementFault_eq h.splitWord_ne_nil]
  cases h with
  | ret hname => rw [hname, firstFault_nil]
  | word hname => rw [hname, firstFault_cons, firstFault_nil, Option.or_none]
  | opcode hname hcount hnonempty =>
      rw [hname]
      refine if_pos ⟨hcount, ?_⟩
      rw [List.any_eq_true]
      rintro ⟨token, hmem, hempty⟩
      exact hnonempty token hmem (List.isEmpty_iff.mp hempty)

/-- A statement of which nothing is examined is malformed. -/
theorem statementFault_of_not_examines (hsplit : splitWord statement.text ≠ [])
    (h : ∀ operands, ¬ Examines statement.text operands) :
    statementFault labels statement = some .malformed := by
  rw [statementFault_eq hsplit]
  cases hname : mnemonicNamed ((splitWord statement.text).headD []) with
  | none => rfl
  | some mnemonic =>
      cases mnemonic with
      | ret => exact absurd (.ret hname) (h _)
      | word => exact absurd (.word hname) (h _)
      | opcode op =>
          refine if_neg fun hcount => ?_
          refine h _ (.opcode hname hcount.1 fun token hmem hnil => hcount.2 ?_)
          exact List.any_eq_true.mpr ⟨token, hmem, List.isEmpty_iff.mpr hnil⟩

/-- **A statement is in order** exactly if its operands are. -/
theorem statementFault_eq_none_iff (hsplit : splitWord statement.text ≠ []) :
    statementFault labels statement = none ↔ InOrder labels statement := by
  constructor
  · intro h
    by_contra hnot
    have hnone : ∀ operands, ¬ Examines statement.text operands := fun operands hexamines => by
      rw [statementFault_of_examines hexamines, firstFault_eq_none_iff] at h
      exact hnot ⟨operands, hexamines, h⟩
    rw [statementFault_of_not_examines hsplit hnone] at h
    cases h
  · rintro ⟨operands, hexamines, h⟩
    rw [statementFault_of_examines hexamines, firstFault_eq_none_iff]
    exact h

/-- **A statement meets the digit limit** exactly if an operand does, and those examined
before it are in order. -/
theorem statementFault_eq_tooLong_iff (hsplit : splitWord statement.text ≠ []) :
    statementFault labels statement = some .tooLong ↔ LimitFirst labels statement := by
  constructor
  · intro h
    by_contra hnot
    have hnone : ∀ operands, ¬ Examines statement.text operands := fun operands hexamines => by
      rw [statementFault_of_examines hexamines, firstFault_eq_tooLong_iff] at h
      obtain ⟨before, kind, token, after, rfl, hbefore, hlong⟩ := h
      exact hnot ⟨before, kind, token, after, hexamines, hbefore, hlong⟩
    rw [statementFault_of_not_examines hsplit hnone] at h
    cases h
  · rintro ⟨before, kind, token, after, hexamines, hbefore, hlong⟩
    rw [statementFault_of_examines hexamines, firstFault_eq_tooLong_iff]
    exact ⟨before, kind, token, after, rfl, hbefore, hlong⟩

end Statements

/-! ## Sources -/

/-- Labels and colons are as they should be, a statement meets the digit limit, and the ones in
front of it are in order. -/
structure SourceLimitFirst (lines : List Str) : Prop where
  wellFormed : WellFormed lines
  statement : ∃ before statement after,
    placedStatements 1 0 lines = before ++ statement :: after ∧
      (∀ s ∈ before, InOrder (placedLabels 0 lines) s) ∧
        LimitFirst (placedLabels 0 lines) statement

/-- **A source meets the digit limit** exactly if a statement does, and nothing before it is
at fault. -/
theorem sourceFault_eq_tooLong_iff {source : Str} :
    sourceFault source = some .tooLong ↔ SourceLimitFirst (splitLines source) := by
  have hsplit {before after : List Statement} {statement : Statement}
      (h : placedStatements 1 0 (splitLines source) = before ++ statement :: after) :
      ∀ s ∈ before ++ statement :: after, splitWord s.text ≠ [] :=
    fun s hs => splitWord_text_ne_nil 0 (h ▸ hs)
  unfold sourceFault
  constructor
  · intro h
    split at h
    · next hwell =>
        obtain ⟨before, statement, after, heq, hlong, hbefore⟩ := List.findSome?_eq_some_iff.mp h
        have hwords := hsplit heq
        refine ⟨hwell, before, statement, after, heq, fun s hs => ?_, ?_⟩
        · exact (statementFault_eq_none_iff (hwords s (by simp [hs]))).mp (hbefore s hs)
        · exact (statementFault_eq_tooLong_iff (hwords statement (by simp))).mp hlong
    · cases h
  · rintro ⟨hwell, before, statement, after, heq, hbefore, hlong⟩
    have hwords := hsplit heq
    rw [if_pos hwell]
    refine List.findSome?_eq_some_iff.mpr ⟨before, statement, after, heq, ?_, fun s hs => ?_⟩
    · exact (statementFault_eq_tooLong_iff (hwords statement (by simp))).mpr hlong
    · exact (statementFault_eq_none_iff (hwords s (by simp [hs]))).mpr (hbefore s hs)

end Mini32.Toolchain
