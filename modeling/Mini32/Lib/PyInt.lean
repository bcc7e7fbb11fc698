import Mathlib.Algebra.Group.Int.Defs
import Mini32.Lib.PyStr

/-!
# Python integers as text

`int(text, 0)` and `int(text, 10)`, `str(value)` and the padded hexadecimal
format, with the digit limit that Python puts on conversions in bases that are
not powers of two.

* `int0_decimal`, `int0_hex` — reading undoes writing.
* `int10_digits` — what `int(text, 10)` does with a run of decimal digits.
* `int0_name`, `comma_not_mem_of_int0` — names and lists are no numbers.

## What counts as a number

`int` accepts more than a parser of assembly needs: white space around, a sign, underscores
between digits, a prefix for the base, and decimal digits of any script.  All of it is
here, because a program that calls `int` accepts all of it.  The text is first brought to
ASCII, digit by digit, and stripped of the white space of C; the literal is read from
what is left.

The limit is on the decimal digits of a conversion, in either direction, and not on the
value: a hexadecimal literal of any length is read, and the decimal text of its value is
what cannot be made.  A development that calls `str` on a value it has read has to take
this into account, and `str` here returns an option for that reason.
-/

namespace Py

/-- The limit on decimal digits, `sys.get_int_max_str_digits()` by default. -/
def maxStrDigits : ℕ := 4300

/-! ## Reading -/

/-- The value of an ASCII digit or letter; any other character is a digit in no base. -/
def digitValue (c : Char) : ℕ :=
  let n := c.toNat
  if 0x30 ≤ n ∧ n ≤ 0x39 then n - 0x30
  else if 0x41 ≤ n ∧ n ≤ 0x5A then n - 0x41 + 10
  else if 0x61 ≤ n ∧ n ≤ 0x7A then n - 0x61 + 10
  else 37

/-- The value of a run of digits, most significant first. -/
def ofDigits (base : ℕ) (digits : Str) : ℕ :=
  digits.foldl (fun acc c => acc * base + digitValue c) 0

/-- Digits of a base, single underscores allowed between them. -/
def parseDigits (base : ℕ) (s : Str) : Option ℕ :=
  let groups := s.splitOn '_'
  if groups.all fun group => !group.isEmpty && group.all fun c => digitValue c < base then
    if base = 10 ∧ maxStrDigits < groups.flatten.length then none
    else some (ofDigits base groups.flatten)
  else none

/-- One underscore may follow a base prefix. -/
def skipUnderscore : Str → Str
  | '_' :: cs => cs
  | cs => cs

/-- An unsigned literal that chooses its base by its prefix.  Without a prefix a
leading zero is for zero only. -/
def parseLiteral : Str → Option ℕ
  | '0' :: c :: cs =>
      if c = 'x' ∨ c = 'X' then parseDigits 16 (skipUnderscore cs)
      else if c = 'o' ∨ c = 'O' then parseDigits 8 (skipUnderscore cs)
      else if c = 'b' ∨ c = 'B' then parseDigits 2 (skipUnderscore cs)
      else (parseDigits 10 ('0' :: c :: cs)).filter (· = 0)
  | cs => parseDigits 10 cs

/-- A sign, if there is one, and what is behind it. -/
def parseSigned (parse : Str → Option ℕ) : Str → Option ℤ
  | '+' :: cs => (parse cs).map Int.ofNat
  | '-' :: cs => (parse cs).map fun (n : ℕ) => -(n : ℤ)
  | cs => (parse cs).map Int.ofNat

/-- Decimal digits and white space become ASCII; `?` stands for what cannot occur in a number. -/
def toAscii (c : Char) : Char :=
  match decimalValue c with
  | some d => Nat.digitChar d
  | none => if c.toNat < 127 then c else if isSpace c then ' ' else '?'

/-- The white space allowed around a number once it is ASCII. -/
def isAsciiSpace (c : Char) : Bool :=
  let n := c.toNat
  (0x09 ≤ n && n ≤ 0x0D) || n == 0x20

/-- The text of a number as the parser reads it. -/
def asciiNumber (s : Str) : Str := stripBy isAsciiSpace (s.map toAscii)

/-- `int(s, 0)`; `none` is its `ValueError`. -/
def int0 (s : Str) : Option ℤ := parseSigned parseLiteral (asciiNumber s)

/-- `int(s, 10)`; `none` is its `ValueError`. -/
def int10 (s : Str) : Option ℤ := parseSigned (parseDigits 10) (asciiNumber s)

/-! ## Writing -/

/-- The decimal digits of an integer, with its sign. -/
def decimal : ℤ → Str
  | .ofNat n => Nat.toDigits 10 n
  | .negSucc n => '-' :: Nat.toDigits 10 (n + 1)

/-- `str(v)`; `none` is the `ValueError` of an integer over the digit limit. -/
def str (v : ℤ) : Option Str :=
  if maxStrDigits < (Nat.toDigits 10 v.natAbs).length then none else some (decimal v)

/-- The upper-case form of a lower-case letter. -/
def upperDigit (c : Char) : Char :=
  if 0x61 ≤ c.toNat ∧ c.toNat ≤ 0x7A then Char.ofNat (c.toNat - 0x20) else c

/-- `f"{n:0widthX}"` -/
def hex (width n : ℕ) : Str := ((Nat.toDigits 16 n).map upperDigit).leftpad width '0'

/-- `v & (2 ** k - 1)`, two's complement for a negative `v`. -/
def mask (k : ℕ) (v : ℤ) : ℕ := (v % 2 ^ k).toNat

/-! ## Digits -/

section Digits

variable {base n : ℕ}

theorem mem_toDigits (hb : 1 < base) : ∀ n : ℕ, ∀ c ∈ Nat.toDigits base n,
    ∃ d < base, c = Nat.digitChar d := by
  intro n
  induction n using Nat.strongRecOn with
  | ind n ih =>
      intro c hc
      rw [Nat.toDigits_eq_if hb] at hc
      split at hc
      · exact ⟨n, ‹_›, by simpa using hc⟩
      · rcases List.mem_append.mp hc with h | h
        · exact ih (n / base) (Nat.div_lt_self (by omega) hb) c h
        · exact ⟨n % base, Nat.mod_lt _ (by omega), by simpa using h⟩

/-- A property of the sign and the digits holds of every character of a decimal number. -/
theorem forall_mem_decimal (p : Char → Bool) (hminus : p '-' = true)
    (hdigit : ∀ d < 10, p (Nat.digitChar d) = true) (v : ℤ) : ∀ c ∈ decimal v, p c = true := by
  have hdigits : ∀ n, ∀ c ∈ Nat.toDigits 10 n, p c = true := by
    intro n c hc
    obtain ⟨d, hd, rfl⟩ := mem_toDigits (by decide) n c hc
    exact hdigit d hd
  cases v with
  | ofNat n => exact hdigits n
  | negSucc n => exact List.forall_mem_cons.mpr ⟨hminus, hdigits (n + 1)⟩

/-- A decimal text is not empty, … -/
theorem decimal_ne_nil (v : ℤ) : decimal v ≠ [] := by
  cases v with
  | ofNat n => exact Nat.toDigits_ne_nil
  | negSucc n => exact List.cons_ne_nil _ _

/-- The characters of a hexadecimal number. -/
theorem mem_hex {width n : ℕ} {c : Char} (h : c ∈ hex width n) :
    ∃ d < 16, c = upperDigit (Nat.digitChar d) := by
  rw [hex, List.leftpad, List.mem_append] at h
  rcases h with h | h
  · exact ⟨0, by decide, (List.mem_replicate.mp h).2⟩
  · obtain ⟨b, hb, rfl⟩ := List.mem_map.mp h
    obtain ⟨d, hd, rfl⟩ := mem_toDigits (by decide) n b hb
    exact ⟨d, hd, rfl⟩

/-- … nor is a hexadecimal one. -/
theorem hex_ne_nil (width n : ℕ) : hex width n ≠ [] := by
  simp [hex, List.leftpad, Nat.toDigits_ne_nil]

/-- One more digit. -/
theorem ofDigits_append_singleton (s : Str) (c : Char) :
    ofDigits base (s ++ [c]) = ofDigits base s * base + digitValue c := by
  simp [ofDigits, List.foldl_append]

/-- Reading the digits of a number, possibly respelled, gives the number. -/
theorem ofDigits_toDigits (f : Char → Char) (hb : 1 < base)
    (hf : ∀ d < base, digitValue (f (Nat.digitChar d)) = d) (n : ℕ) :
    ofDigits base ((Nat.toDigits base n).map f) = n := by
  induction n using Nat.strongRecOn with
  | ind n ih =>
      rw [Nat.toDigits_eq_if hb]
      split
      · simp [ofDigits, hf n ‹_›]
      · have hlast := hf (n % base) (Nat.mod_lt _ (by omega))
        rw [List.map_append, List.map_singleton, ofDigits_append_singleton,
          ih (n / base) (Nat.div_lt_self (by omega) hb), hlast, Nat.mul_comm]
        exact Nat.div_add_mod n base

/-- Zeros in front do not count. -/
theorem ofDigits_leftpad (width : ℕ) (s : Str) :
    ofDigits base (s.leftpad width '0') = ofDigits base s := by
  have hzeros : ∀ k,
      (List.replicate k '0').foldl (fun acc c => acc * base + digitValue c) 0 = 0 := by
    intro k
    induction k with
    | zero => rfl
    | succ k ih => simpa [List.replicate_succ, digitValue] using ih
  simp only [ofDigits, List.leftpad, List.foldl_append, hzeros]

/-- A positive number does not start with a zero. -/
theorem head_toDigits (hb : 1 < base) (hb' : base ≤ 10) (hn : 0 < n) :
    (Nat.toDigits base n).head? ≠ some '0' := by
  induction n using Nat.strongRecOn with
  | ind n ih =>
      rw [Nat.toDigits_eq_if hb]
      split
      · have hdigit : ∀ d < 10, 0 < d → Nat.digitChar d ≠ '0' := by decide
        simpa using hdigit n (by omega) hn
      · have hlt : n / base < n := Nat.div_lt_self hn hb
        have hpos : 0 < n / base := Nat.div_pos (by omega) (by omega)
        rw [List.head?_append_of_ne_nil _ Nat.toDigits_ne_nil]
        exact ih _ hlt hpos

/-- Plain digits, no underscore among them. -/
theorem parseDigits_plain {s : Str} (hne : s ≠ []) (hs : ∀ c ∈ s, digitValue c < base)
    (hb : base ≤ 36) :
    parseDigits base s = if base = 10 ∧ maxStrDigits < s.length then none
      else some (ofDigits base s) := by
  have hunderscore : '_' ∉ s := by
    intro hmem
    have hlt := hs _ hmem
    have hval : digitValue '_' = 37 := by decide
    omega
  have hall : ([s].all fun group => !group.isEmpty && group.all fun c => digitValue c < base) =
      true := by
    simpa [hne] using hs
  rw [parseDigits, List.splitOn_eq_singleton hunderscore, if_pos hall, List.flatten_singleton]

/-- A character that does not split a text is in one of its parts. -/
theorem mem_splitOn {c sep : Char} (hsep : c ≠ sep) {s : Str} (h : c ∈ s) :
    ∃ part ∈ s.splitOn sep, c ∈ part := by
  induction s with
  | nil => nomatch h
  | cons d s ih =>
      rw [List.splitOn_cons_eq_if_modifyHead]
      rcases List.mem_cons.mp h with rfl | h
      · rw [if_neg (by simpa using hsep)]
        obtain ⟨part, parts, hparts⟩ := List.exists_cons_of_ne_nil (List.splitOn_ne_nil sep s)
        rw [hparts]
        exact ⟨c :: part, List.mem_cons_self, List.mem_cons_self⟩
      · obtain ⟨part, hpart, hc⟩ := ih h
        split
        · exact ⟨part, List.mem_cons_of_mem _ hpart, hc⟩
        · obtain ⟨first, parts, hparts⟩ := List.exists_cons_of_ne_nil (List.splitOn_ne_nil sep s)
          rw [hparts] at hpart ⊢
          rcases List.mem_cons.mp hpart with rfl | hpart
          · exact ⟨d :: part, List.mem_cons_self, List.mem_cons_of_mem _ hc⟩
          · exact ⟨part, List.mem_cons_of_mem _ hpart, hc⟩

/-- What a number consists of: digits and underscores, … -/
theorem mem_parseDigits {s : Str} {c : Char} (h : parseDigits base s = some n) (hc : c ∈ s) :
    c = '_' ∨ digitValue c < base := by
  by_cases hsep : c = '_'
  · exact .inl hsep
  · obtain ⟨part, hpart, hmem⟩ := mem_splitOn hsep hc
    unfold parseDigits at h
    simp only at h
    split at h
    · next hall =>
        have hdigits := List.all_eq_true.mp hall part hpart
        simp only [Bool.and_eq_true, List.all_eq_true, decide_eq_true_eq] at hdigits
        exact .inr (hdigits.2 c hmem)
    · nomatch h

/-- The characters of an unsigned literal: digits, letters and underscores. -/
theorem mem_parseLiteral {s : Str} {c : Char} (h : parseLiteral s = some n) (hc : c ∈ s) :
    c = '_' ∨ digitValue c < 36 := by
  have hbase : ∀ base ≤ 16, ∀ cs : Str, parseDigits base cs = some n → c ∈ cs →
      c = '_' ∨ digitValue c < 36 :=
    fun base hbase cs hparse hmem => (mem_parseDigits hparse hmem).imp_right fun hlt => by omega
  have hprefixed : ∀ base ≤ 16, ∀ (d : Char) (cs : Str), digitValue d < 36 →
      parseDigits base (skipUnderscore cs) = some n → c ∈ '0' :: d :: cs →
      c = '_' ∨ digitValue c < 36 := by
    intro base hle d cs hd hparse hmem
    rcases List.mem_cons.mp hmem with rfl | hmem
    · exact .inr (by decide)
    rcases List.mem_cons.mp hmem with rfl | hmem
    · exact .inr hd
    unfold skipUnderscore at hparse
    split at hparse
    · rcases List.mem_cons.mp hmem with rfl | hmem
      · exact .inl rfl
      · exact hbase base hle _ hparse hmem
    · exact hbase base hle cs hparse hmem
  have hletter : ∀ upper lower : Char, digitValue lower < 36 → digitValue upper < 36 →
      ∀ d, d = lower ∨ d = upper → digitValue d < 36 := by
    rintro upper lower hlower hupper d (rfl | rfl)
    · exact hlower
    · exact hupper
  unfold parseLiteral at h
  split at h
  · next d cs =>
      split_ifs at h with hx ho hb
      · exact hprefixed 16 (by decide) d cs (hletter 'X' 'x' (by decide) (by decide) d hx) h hc
      · exact hprefixed 8 (by decide) d cs (hletter 'O' 'o' (by decide) (by decide) d ho) h hc
      · exact hprefixed 2 (by decide) d cs (hletter 'B' 'b' (by decide) (by decide) d hb) h hc
      · exact hbase 10 (by decide) _ (Option.filter_eq_some_iff.mp h).1 hc
  · exact hbase 10 (by decide) s h hc

/-- … with a sign in front. -/
theorem mem_parseSigned {s : Str} {c : Char} {v : ℤ} (h : parseSigned parseLiteral s = some v)
    (hc : c ∈ s) : c = '+' ∨ c = '-' ∨ c = '_' ∨ digitValue c < 36 := by
  have hliteral : ∀ (f : ℕ → ℤ) (cs : Str), (parseLiteral cs).map f = some v → c ∈ cs →
      c = '_' ∨ digitValue c < 36 := by
    intro f cs hmap hmem
    obtain ⟨n, hn, -⟩ := Option.map_eq_some_iff.mp hmap
    exact mem_parseLiteral hn hmem
  unfold parseSigned at h
  split at h
  · exact (List.mem_cons.mp hc).imp_right fun hmem => .inr (hliteral _ _ h hmem)
  · refine .inr ((List.mem_cons.mp hc).imp_right fun hmem => hliteral _ _ h hmem)
  · exact .inr (.inr (hliteral _ _ h hc))

end Digits

/-! ## The text of a number -/

section Ascii

variable {s : Str}

/-- A decimal digit of any script has an ASCII digit of its value. -/
theorem toAscii_of_digit {c : Char} {d : ℕ} (h : decimalValue c = some d) :
    toAscii c = Nat.digitChar d := by
  simp [toAscii, h]

/-- Decimal digits are below ten. -/
theorem decimalValue_lt {c : Char} {d : ℕ} (h : decimalValue c = some d) : d < 10 := by
  rw [decimalValue, Option.map_eq_some_iff] at h
  obtain ⟨first, hfind, rfl⟩ := h
  have hrange := List.find?_some hfind
  simp only [Bool.and_eq_true, decide_eq_true_eq] at hrange
  omega

/-- Nothing is stripped from a text without white space. -/
theorem asciiNumber_eq_map (h : ∀ c ∈ s, isAsciiSpace (toAscii c) = false) :
    asciiNumber s = s.map toAscii := by
  have hmap : ∀ c ∈ s.map toAscii, isAsciiSpace c = false := by
    intro c hc
    obtain ⟨d, hd, rfl⟩ := List.mem_map.mp hc
    exact h d hd
  exact stripBy_eq_self (fun c hc => hmap c (List.mem_of_mem_head? hc))
    (fun c hc => hmap c (List.mem_of_mem_getLast? hc))

/-- A character the parser reads as it stands. -/
def IsInert (c : Char) : Prop := toAscii c = c ∧ isAsciiSpace c = false

instance (c : Char) : Decidable (IsInert c) := inferInstanceAs (Decidable (_ ∧ _))

/-- Inert characters are left as they are. -/
theorem asciiNumber_eq_self (h : ∀ c ∈ s, IsInert c) : asciiNumber s = s := by
  have hmap : s.map toAscii = s := by
    exact (List.map_congr_left fun c hc => (h c hc).1).trans (List.map_id s)
  rw [asciiNumber_eq_map fun c hc => (h c hc).1.symm ▸ (h c hc).2, hmap]

/-- Without a sign in front the whole text is the number. -/
theorem parseSigned_unsigned (parse : Str → Option ℕ) (hplus : s.head? ≠ some '+')
    (hminus : s.head? ≠ some '-') : parseSigned parse s = (parse s).map Int.ofNat := by
  rw [parseSigned.eq_3 _ _ (by rintro cs rfl; simp at hplus) (by rintro cs rfl; simp at hminus)]

/-- **A run of decimal digits is read in full**, unless it is over the limit. -/
theorem int10_digits (hne : s ≠ []) (h : ∀ c ∈ s, (decimalValue c).isSome) :
    int10 s = if maxStrDigits < s.length then none
      else some (ofDigits 10 (s.map toAscii) : ℤ) := by
  have hdigit : ∀ c ∈ s, ∃ d < 10, toAscii c = Nat.digitChar d := by
    intro c hc
    obtain ⟨d, hd⟩ := Option.isSome_iff_exists.mp (h c hc)
    exact ⟨d, decimalValue_lt hd, toAscii_of_digit hd⟩
  have hmap : ∀ c ∈ s.map toAscii, ∃ d < 10, c = Nat.digitChar d := by
    intro c hc
    obtain ⟨b, hb, rfl⟩ := List.mem_map.mp hc
    exact hdigit b hb
  have hchar : ∀ d < 10, isAsciiSpace (Nat.digitChar d) = false ∧ Nat.digitChar d ≠ '+' ∧
      Nat.digitChar d ≠ '-' ∧ digitValue (Nat.digitChar d) < 10 := by decide
  have hhead : ∀ sign : Char, (∀ d < 10, Nat.digitChar d ≠ sign) →
      (s.map toAscii).head? ≠ some sign := by
    intro sign hsign heq
    obtain ⟨d, hd, rfl⟩ := hmap sign (List.mem_of_mem_head? heq)
    exact hsign d hd rfl
  have hnumber : asciiNumber s = s.map toAscii := by
    refine asciiNumber_eq_map fun c hc => ?_
    obtain ⟨d, hd, heq⟩ := hdigit c hc
    rw [heq]
    exact (hchar d hd).1
  have hvalue : ∀ c ∈ s.map toAscii, digitValue c < 10 := by
    intro c hc
    obtain ⟨d, hd, rfl⟩ := hmap c hc
    exact (hchar d hd).2.2.2
  rw [int10, hnumber, parseSigned_unsigned _ (hhead '+' fun d hd => (hchar d hd).2.1)
    (hhead '-' fun d hd => (hchar d hd).2.2.1), parseDigits_plain (by simpa using hne) hvalue
    (by decide)]
  simp only [true_and, List.length_map]
  split <;> rfl

/-- **No name is a number**: a literal starts with a digit once the sign is gone. -/
theorem int0_name {c : Char} (h : ∀ d ∈ c :: s, IsInert d) (hc : 10 ≤ digitValue c)
    (hplus : c ≠ '+') (hminus : c ≠ '-') : int0 (c :: s) = none := by
  have hzero : c ≠ '0' := by
    rintro rfl
    exact absurd hc (by decide)
  have hliteral : parseLiteral (c :: s) = parseDigits 10 (c :: s) :=
    parseLiteral.eq_2 _ fun _ _ heq => hzero (by simp_all)
  have hdigits : parseDigits 10 (c :: s) = none := by
    rw [parseDigits, List.splitOn_cons_eq_if_modifyHead]
    obtain ⟨group, groups, hgroups⟩ := List.exists_cons_of_ne_nil (List.splitOn_ne_nil '_' s)
    have hlt : ¬ digitValue c < 10 := by omega
    rw [hgroups]
    split <;> simp [hlt]
  rw [int0, asciiNumber_eq_self h, parseSigned_unsigned _ (by simpa using hplus)
    (by simpa using hminus), hliteral, hdigits]
  rfl

/-- **No number has a comma in it.** -/
theorem comma_not_mem_of_int0 {s : Str} {v : ℤ} (h : int0 s = some v) : ',' ∉ s := by
  intro hmem
  have hascii : ',' ∈ s.map toAscii := List.mem_map.mpr ⟨',', hmem, by decide⟩
  exact absurd (mem_parseSigned h (mem_stripBy hascii (by decide))) (by decide)

end Ascii

/-! ## Reading what was written -/

section RoundTrip

/-- The characters that numbers are written with are read as they stand. -/
theorem inert_digitChar : ∀ d < 16, IsInert (Nat.digitChar d) ∧
    IsInert (upperDigit (Nat.digitChar d)) := by
  decide

/-- A digit has the value it was written for. -/
theorem digitValue_digitChar : ∀ d < 16, digitValue (Nat.digitChar d) = d ∧
    digitValue (upperDigit (Nat.digitChar d)) = d := by
  decide

/-- A decimal literal under the limit is read back. -/
theorem parseLiteral_toDigits (n : ℕ) (hn : (Nat.toDigits 10 n).length ≤ maxStrDigits) :
    parseLiteral (Nat.toDigits 10 n) = some n := by
  have hdigits : ∀ c ∈ Nat.toDigits 10 n, digitValue c < 10 := by
    intro c hc
    obtain ⟨d, hd, rfl⟩ := mem_toDigits (by decide) n c hc
    rwa [(digitValue_digitChar d (by omega)).1]
  have hvalue : ofDigits 10 (Nat.toDigits 10 n) = n := by
    have h := ofDigits_toDigits id (show 1 < 10 by decide)
      (fun d hd => (digitValue_digitChar d (by omega)).1) n
    rwa [List.map_id] at h
  have hparse : parseDigits 10 (Nat.toDigits 10 n) = some n := by
    rw [parseDigits_plain Nat.toDigits_ne_nil hdigits (by decide), if_neg (by omega), hvalue]
  rcases Nat.eq_zero_or_pos n with rfl | hpos
  · rfl
  · rw [parseLiteral.eq_2, hparse]
    intro c cs heq
    exact head_toDigits (show 1 < 10 by decide) (by decide) hpos (by rw [heq]; rfl)

/-- **Reading a decimal number gives it back.** -/
theorem int0_decimal (v : ℤ) (hv : (Nat.toDigits 10 v.natAbs).length ≤ maxStrDigits) :
    int0 (decimal v) = some v := by
  have hinert : ∀ n, ∀ c ∈ Nat.toDigits 10 n, IsInert c := by
    intro n c hc
    obtain ⟨d, hd, rfl⟩ := mem_toDigits (by decide) n c hc
    exact (inert_digitChar d (by omega)).1
  have hhead : ∀ n, ∀ sign : Char, (∀ d < 10, Nat.digitChar d ≠ sign) →
      (Nat.toDigits 10 n).head? ≠ some sign := by
    intro n sign hsign heq
    obtain ⟨d, hd, rfl⟩ := mem_toDigits (by decide) n sign (List.mem_of_mem_head? heq)
    exact hsign d hd rfl
  cases v with
  | ofNat n =>
      rw [int0, decimal, asciiNumber_eq_self (hinert n),
        parseSigned_unsigned _ (hhead n '+' (by decide)) (hhead n '-' (by decide)),
        parseLiteral_toDigits n hv]
      rfl
  | negSucc n =>
      have hminus : ∀ c ∈ '-' :: Nat.toDigits 10 (n + 1), IsInert c := by
        intro c hc
        rcases List.mem_cons.mp hc with rfl | hc
        · decide
        · exact hinert _ c hc
      rw [int0, decimal, asciiNumber_eq_self hminus, parseSigned, parseLiteral_toDigits (n + 1) hv]
      rfl

/-- The digits of a padded hexadecimal number, … -/
theorem digitValue_mem_hex {width n : ℕ} : ∀ c ∈ hex width n, digitValue c < 16 := by
  intro c hc
  obtain ⟨d, hd, rfl⟩ := mem_hex hc
  rwa [(digitValue_digitChar d hd).2]

/-- … and their value. -/
theorem ofDigits_hex (width n : ℕ) : ofDigits 16 (hex width n) = n := by
  rw [hex, ofDigits_leftpad]
  exact ofDigits_toDigits upperDigit (by decide) (fun d hd => (digitValue_digitChar d hd).2) n

/-- **Reading a padded hexadecimal number gives it back**, whatever its length. -/
theorem int0_hex (width n : ℕ) : int0 ('0' :: 'x' :: hex width n) = some (n : ℤ) := by
  have hinert : ∀ c ∈ '0' :: 'x' :: hex width n, IsInert c := by
    intro c hc
    rcases List.mem_cons.mp hc with rfl | hc
    · decide
    rcases List.mem_cons.mp hc with rfl | hc
    · decide
    obtain ⟨d, hd, rfl⟩ := mem_hex hc
    exact (inert_digitChar d hd).2
  have hskip : skipUnderscore (hex width n) = hex width n := by
    rw [skipUnderscore.eq_2]
    intro cs heq
    obtain ⟨d, hd, h⟩ := mem_hex (show '_' ∈ hex width n by simp [heq])
    have hne : ∀ d < 16, '_' ≠ upperDigit (Nat.digitChar d) := by decide
    exact hne d hd h
  rw [int0, asciiNumber_eq_self hinert, parseSigned_unsigned _ (by simp) (by simp), parseLiteral,
    if_pos (.inl rfl), hskip, parseDigits_plain (hex_ne_nil width n) digitValue_mem_hex (by decide),
    ofDigits_hex]
  rfl

/-- Masking reads the two's-complement bits. -/
theorem toNat_ofInt (k : ℕ) (v : ℤ) : (BitVec.ofInt k v).toNat = mask k v := by
  rw [BitVec.toNat_ofInt, mask]
  push_cast
  rfl

end RoundTrip

end Py
