import Mini32.Lib.PyStr

/-!
# JSON values in Python

What `json.loads` returns: a number without fraction or exponent is an `int`, a
boolean is a `bool` that equals 0 or 1, and an object is a `dict`, here the list
of its members in order of insertion.  A `dict` is read and written through its
keys only, so `lookup_setItem` is all there is to say about an assignment.

`==` is numeric across `int`, `bool` and `float`; between texts and between
instances of `int` it is `Same`.
-/

namespace Py

/-- A `float`; a finite one has a sign, which zero has too, and a magnitude. -/
inductive Float
  | finite (negative : Bool) (magnitude : Rat)
  | infinite (negative : Bool)
  | nan
  deriving DecidableEq

/-- A JSON value as Python has it. -/
inductive Json
  | null
  | bool (value : Bool)
  | int (value : ℤ)
  | float (value : Float)
  | str (value : Str)
  | array (elements : List Json)
  | object (members : List (Str × Json))

/-- An object as Python has it: members in order of insertion. -/
abbrev Dict := List (Str × Json)

/-! ## Equality -/

/-- The exact value of a finite `float`. -/
def Float.value? : Float → Option Rat
  | .finite negative magnitude => some (if negative then -magnitude else magnitude)
  | _ => none

/-- The exact value of a number, a boolean included. -/
def Json.number? : Json → Option Rat
  | .bool value => some (if value then 1 else 0)
  | .int value => some value
  | .float value => value.value?
  | _ => none

/-- The value of an instance of `int`, which a `bool` is too. -/
def Json.int? : Json → Option ℤ
  | .int value => some value
  | .bool value => some (if value then 1 else 0)
  | _ => none

mutual

/-- `a == b` -/
def Json.eq : Json → Json → Bool
  | .null, .null => true
  | .str s, .str t => s = t
  | .array elements, .array others => elementsEq elements others
  | .object members, .object others =>
      members.length = others.length && membersEq members others
  | .float (.infinite negative), .float (.infinite negative') => negative = negative'
  | a, b =>
      match a.number?, b.number? with
      | some x, some y => x = y
      | _, _ => false

/-- Lists are equal element by element. -/
def elementsEq : List Json → List Json → Bool
  | [], [] => true
  | a :: as, b :: bs => a.eq b && elementsEq as bs
  | _, _ => false

/-- Every member is in the other `dict`. -/
def membersEq : List (Str × Json) → List (Str × Json) → Bool
  | [], _ => true
  | (key, a) :: members, others =>
      (match others.lookup key with
        | some b => a.eq b
        | none => false) && membersEq members others

end

section Eq

@[simp] theorem eq_str (s t : Str) : Json.eq (.str s) (.str t) = decide (s = t) := by
  rw [Json.eq]

@[simp] theorem eq_int (m n : ℤ) : Json.eq (.int m) (.int n) = decide (m = n) := by
  simp [Json.eq, Json.number?]

@[simp] theorem eq_bool (b c : Bool) : Json.eq (.bool b) (.bool c) = decide (b = c) := by
  cases b <;> cases c <;> decide

/-- Only the text itself equals a text. -/
theorem eq_str_iff {value : Json} {t : Str} : value.eq (.str t) = true ↔ value = .str t := by
  cases value with
  | str s => simp
  | float x =>
      have hne : Json.eq (.float x) (.str t) = false := by cases x <;> rfl
      simp [hne]
  | null | bool | int | array | object => exact iff_of_false Bool.false_ne_true nofun

/-- Two instances of `int` are equal as numbers. -/
theorem eq_iff_of_int? {value other : Json} {m n : ℤ} (h : value.int? = some m)
    (h' : other.int? = some n) : value.eq other = true ↔ m = n := by
  have hnumber : ∀ {v : Json} {k : ℤ}, v.int? = some k → v.number? = some (k : Rat) ∧
      ((∃ j, v = .int j) ∨ ∃ b, v = .bool b) := by
    intro v k hv
    cases v with
    | int j =>
        obtain rfl := Option.some.inj hv
        exact ⟨rfl, .inl ⟨j, rfl⟩⟩
    | bool b =>
        obtain rfl := Option.some.inj hv
        cases b <;> exact ⟨rfl, .inr ⟨_, rfl⟩⟩
    | _ => nomatch hv
  obtain ⟨hm, hvalue⟩ := hnumber h
  obtain ⟨hn, hother⟩ := hnumber h'
  have heq : value.eq other = decide ((m : Rat) = n) := by
    rcases hvalue with ⟨j, rfl⟩ | ⟨b, rfl⟩ <;> rcases hother with ⟨k, rfl⟩ | ⟨c, rfl⟩
    all_goals simp only [Json.eq, hm, hn]
  rw [heq, decide_eq_true_iff, Rat.intCast_inj]

/-- Two texts, or two instances of `int`. -/
inductive Comparable : Json → Json → Prop
  | str (s t : Str) : Comparable (.str s) (.str t)
  | int {value other : Json} {m n : ℤ} (h : value.int? = some m) (h' : other.int? = some n) :
      Comparable value other

/-- The same text, or the same number. -/
inductive Same : Json → Json → Prop
  | str (s : Str) : Same (.str s) (.str s)
  | int {value other : Json} {n : ℤ} (h : value.int? = some n) (h' : other.int? = some n) :
      Same value other

/-- Between comparable values `==` is `Same`, … -/
theorem Comparable.eq_iff {value other : Json} (h : Comparable value other) :
    value.eq other = true ↔ Same value other := by
  constructor
  · intro heq
    cases h with
    | str s t =>
        obtain rfl : s = t := by simpa using heq
        exact .str s
    | int hm hn =>
        obtain rfl := (eq_iff_of_int? hm hn).mp heq
        exact .int hm hn
  · intro hsame
    cases hsame with
    | str s => exact eq_str_iff.mpr rfl
    | int hm hn => exact (eq_iff_of_int? hm hn).mpr rfl

/-- What can be compared with itself is the same. -/
theorem Comparable.same {value : Json} (h : Comparable value value) : Same value value := by
  cases h with
  | str s => exact .str s
  | int h _ => exact .int h h

/-- … which is symmetric, … -/
theorem Same.symm {value other : Json} (h : Same value other) : Same other value := by
  cases h with
  | str s => exact .str s
  | int h h' => exact .int h' h

/-- … and transitive. -/
theorem Same.trans {value other third : Json} (h : Same value other) (h' : Same other third) :
    Same value third := by
  cases h with
  | str s => exact h'
  | int hvalue hother =>
      cases h' with
      | str s => nomatch hother
      | int hother' hthird =>
          obtain rfl := Option.some.inj (hother.symm.trans hother')
          exact .int hvalue hthird

end Eq

/-! ## Dictionaries -/

namespace Dict

/-- `record[key] = value` -/
def setItem : Dict → Str → Json → Dict
  | [], key, value => [(key, value)]
  | (k, v) :: members, key, value =>
      if k = key then (k, value) :: members else (k, v) :: setItem members key value

variable {record : Dict} {key : Str} {value : Json}

/-- The first member with a key counts. -/
theorem lookup_cons (key other : Str) (value : Json) (members : Dict) :
    List.lookup other ((key, value) :: members) =
      if other = key then some value else members.lookup other := by
  rw [List.lookup_cons]
  by_cases h : other = key
  · subst h
    rw [if_pos rfl, beq_self_eq_true]
  · rw [if_neg h, beq_eq_false_iff_ne.mpr h]

/-- **An assignment changes the value of its key only.** -/
theorem lookup_setItem (record : Dict) (key : Str) (value : Json) (other : Str) :
    (setItem record key value).lookup other =
      if other = key then some value else record.lookup other := by
  induction record with
  | nil =>
      rw [setItem, lookup_cons]
  | cons member members ih =>
      obtain ⟨k, v⟩ := member
      rw [setItem]
      by_cases hk : k = key
      · rw [if_pos hk, lookup_cons, lookup_cons, hk]
        by_cases h : other = key
        · rw [if_pos h, if_pos h]
        · rw [if_neg h, if_neg h, if_neg h]
      · rw [if_neg hk, lookup_cons, lookup_cons, ih]
        by_cases h : other = k
        · have hne : other ≠ key := h ▸ hk
          rw [if_pos h, if_pos h, if_neg hne]
        · rw [if_neg h, if_neg h]

/-- Assigning what is there already. -/
theorem setItem_eq_self (h : record.lookup key = some value) :
    setItem record key value = record := by
  induction record with
  | nil => nomatch h
  | cons member members ih =>
      obtain ⟨k, v⟩ := member
      rw [lookup_cons] at h
      rw [setItem]
      by_cases hk : k = key
      · rw [if_pos hk.symm] at h
        rw [if_pos hk, Option.some.inj h]
      · rw [if_neg (Ne.symm hk)] at h
        rw [if_neg hk, ih h]

end Dict

end Py
