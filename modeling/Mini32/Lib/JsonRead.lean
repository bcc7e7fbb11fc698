import Mini32.Lib.JsonText

/-!
# Reading flat JSON objects

A reader for the texts of `JsonText`, without white space.  Each reader takes what
it reads off the front of a text and hands on what remains; `readObject` takes a
whole text.  As in Python, the last value of a key counts.

`readObject_objectText` is the round trip.  It is for readable objects: no key
twice, and no integer over the digit limit of Python.

This is not a JSON parser.  It reads a part of the language, and it reads that part as
`json.loads` does, which is what a development needs that takes `json.loads` as a
parameter and wants to see its hypotheses met: a reader that exists and that gives back
what was written.  Everything it does not know it rejects, so nothing is claimed about
escapes, fractions or nested values.

The members of an object are read with a bound on their number, which is the length of the
text; `length_le_join` says that it is always enough.
-/

namespace Py

/-! ## The reader -/

/-- The text behind a token. -/
def skip (token text : Str) : Option Str :=
  if token.isPrefixOf text then some (text.drop token.length) else none

/-- A verbatim text up to the quotation mark behind it. -/
def readText (text : Str) : Option (Str × Str) :=
  (skip "\"".toList (text.dropWhile isVerbatim)).map (text.takeWhile isVerbatim, ·)

/-- The characters of integers and of `true` and `false`. -/
def isWordChar (c : Char) : Bool := c.isAlphanum || c = '-'

/-- The value of an integer or a boolean; an integer is in its shortest form. -/
def wordValue (word : Str) : Option Json :=
  if word = "true".toList then some (.bool true)
  else if word = "false".toList then some (.bool false)
  else (int0 word).bind fun n => if decimal n = word then some (.int n) else none

/-- A text, an integer or a boolean. -/
def readValue (text : Str) : Option (Json × Str) :=
  match skip "\"".toList text with
  | some text => (readText text).map fun (s, rest) => (.str s, rest)
  | none => (wordValue (text.takeWhile isWordChar)).map (·, text.dropWhile isWordChar)

/-- A key, a colon and a value. -/
def readMember (text : Str) : Option ((Str × Json) × Str) := do
  let text ← skip "\"".toList text
  let (key, text) ← readText text
  let text ← skip ":".toList text
  let (value, text) ← readValue text
  return ((key, value), text)

/-- Members with commas between them; the number bounds how many there are. -/
def readMembers : ℕ → Str → Option (Dict × Str)
  | 0, _ => none
  | bound + 1, text => do
      let (member, text) ← readMember text
      match skip ",".toList text with
      | none => return ([member], text)
      | some text =>
          let (members, text) ← readMembers bound text
          return (member :: members, text)

/-- The `dict` of members that are read one after another. -/
def dictOf (members : Dict) : Dict :=
  members.foldl (fun record member => Dict.setItem record member.1 member.2) []

/-- A whole object. -/
def readObject (text : Str) : Option Dict := do
  let text ← skip "\x7b".toList text
  if text = "\x7d".toList then return []
  else
    let (members, text) ← readMembers text.length text
    if text = "\x7d".toList then return dictOf members else none

/-! ## The round trip -/

/-- Flat, no key twice, and no integer over the digit limit. -/
structure Dict.IsReadable (object : Dict) : Prop where
  flat : object.IsFlat
  nodup : (object.map Prod.fst).Nodup
  digits : ∀ member ∈ object, ∀ n : ℤ, member.2 = .int n →
    (Nat.toDigits 10 n.natAbs).length ≤ maxStrDigits

section Read

variable {s rest : Str} {value : Json} {member : Str × Json} {members object : Dict}

/-- What was put in front is skipped. -/
theorem skip_append (token text : Str) : skip token (token ++ text) = some text := by
  rw [skip, if_pos (List.isPrefixOf_iff_prefix.mpr (List.prefix_append _ _)), List.drop_left]

/-- Another first character. -/
theorem skip_other {c d : Char} (h : c ≠ d) (text : Str) : skip [c] (d :: text) = none := by
  rw [skip, if_neg]
  simp [h]

/-- What is taken is what was put in front of a character of another kind. -/
theorem takeWhile_exact {p : Char → Bool} (hs : ∀ c ∈ s, p c = true)
    (hrest : ∀ c ∈ rest.head?, p c = false) :
    (s ++ rest).takeWhile p = s ∧ (s ++ rest).dropWhile p = rest := by
  rw [List.takeWhile_append_of_pos hs, List.dropWhile_append_of_pos hs]
  cases rest with
  | nil => simp
  | cons c rest =>
      have hc : p c = false := hrest c rfl
      simp [hc]

/-- A verbatim text is read up to its quotation mark. -/
theorem readText_append (hs : s.all isVerbatim = true) (rest : Str) :
    readText (s ++ ("\"".toList ++ rest)) = some (s, rest) := by
  have hquote : ∀ c ∈ ("\"".toList ++ rest).head?, isVerbatim c = false := by
    intro c hc
    obtain rfl := Option.some.inj hc
    decide
  obtain ⟨htake, hdrop⟩ := takeWhile_exact (List.all_eq_true.mp hs) hquote
  rw [readText, htake, hdrop, skip_append]
  rfl

/-- What follows a word is not part of it. -/
def EndsWord (rest : Str) : Prop := ∀ c ∈ rest.head?, isWordChar c = false

/-- Integers are words. -/
theorem isWordChar_decimal (n : ℤ) : ∀ c ∈ decimal n, isWordChar c = true :=
  forall_mem_decimal isWordChar (by decide) (by decide) n

/-- An integer under the digit limit is read back. -/
theorem wordValue_decimal {n : ℤ} (hn : (Nat.toDigits 10 n.natAbs).length ≤ maxStrDigits) :
    wordValue (decimal n) = some (.int n) := by
  have hletter : ∀ c ∈ decimal n, (!c.isAlpha) = true :=
    forall_mem_decimal _ (by decide) (by decide) n
  have htrue : decimal n ≠ "true".toList := fun h =>
    absurd (hletter 't' (by rw [h]; decide)) (by decide)
  have hfalse : decimal n ≠ "false".toList := fun h =>
    absurd (hletter 'f' (by rw [h]; decide)) (by decide)
  rw [wordValue, if_neg htrue, if_neg hfalse, int0_decimal n hn]
  exact if_pos rfl

/-- A word is read up to its end. -/
theorem readValue_word {word : Str} (hne : word ≠ []) (hword : ∀ c ∈ word, isWordChar c = true)
    (hvalue : wordValue word = some value) (hrest : EndsWord rest) :
    readValue (word ++ rest) = some (value, rest) := by
  obtain ⟨htake, hdrop⟩ := takeWhile_exact hword hrest
  obtain ⟨c, tail, rfl⟩ := List.exists_cons_of_ne_nil hne
  have hquote : Char.ofNat 0x22 ≠ c := by
    rintro rfl
    exact absurd (hword _ List.mem_cons_self) (by decide)
  have hskip : skip "\"".toList (c :: tail ++ rest) = none := skip_other hquote _
  rw [readValue, hskip, htake, hdrop, hvalue]
  rfl

/-- A value is read back, … -/
theorem readValue_valueText (hflat : value.IsFlat)
    (hdigits : ∀ n : ℤ, value = .int n → (Nat.toDigits 10 n.natAbs).length ≤ maxStrDigits)
    (hrest : EndsWord rest) : readValue (valueText value ++ rest) = some (value, rest) := by
  cases hflat with
  | str hs =>
      rw [valueText, List.append_assoc, List.append_assoc, readValue, skip_append]
      simp only [readText_append hs, Option.map_some]
  | int n =>
      exact readValue_word (decimal_ne_nil n) (isWordChar_decimal n)
        (wordValue_decimal (hdigits n rfl)) hrest
  | bool b =>
      cases b with
      | true => exact readValue_word (by decide) (List.all_eq_true.mp (by decide)) rfl hrest
      | false => exact readValue_word (by decide) (List.all_eq_true.mp (by decide)) rfl hrest

/-- … and a member is. -/
theorem readMember_memberText (hkey : member.1.all isVerbatim = true) (hflat : member.2.IsFlat)
    (hdigits : ∀ n : ℤ, member.2 = .int n → (Nat.toDigits 10 n.natAbs).length ≤ maxStrDigits)
    (hrest : EndsWord rest) : readMember (memberText member ++ rest) = some (member, rest) := by
  have hsplit : memberText member ++ rest = "\"".toList ++ (member.1 ++ ("\"".toList ++
      (":".toList ++ (valueText member.2 ++ rest)))) := by
    rw [memberText, show "\":".toList = "\"".toList ++ ":".toList from rfl]
    simp only [List.append_assoc]
  rw [readMember, hsplit]
  simp only [skip_append, readText_append hkey, readValue_valueText hflat hdigits hrest,
    Option.bind_eq_bind, Option.bind_some]
  rfl

/-- The members of a readable object, which a brace ends. -/
theorem readMembers_join {bound : ℕ} (hne : members ≠ []) (hbound : members.length ≤ bound)
    (hflat : members.IsFlat)
    (hdigits : ∀ member ∈ members, ∀ n : ℤ, member.2 = .int n →
      (Nat.toDigits 10 n.natAbs).length ≤ maxStrDigits) :
    readMembers bound (join ",".toList (members.map memberText) ++ "\x7d".toList) =
      some (members, "\x7d".toList) := by
  have hbrace : EndsWord "\x7d".toList := by
    intro c hc
    obtain rfl := Option.some.inj hc
    decide
  have hcomma (text : Str) : EndsWord (",".toList ++ text) := by
    intro c hc
    obtain rfl := Option.some.inj hc
    decide
  have hend : skip ",".toList "\x7d".toList = none := by decide
  induction members generalizing bound with
  | nil => exact absurd rfl hne
  | cons member members ih =>
      obtain ⟨hmember, hmembers⟩ := List.forall_mem_cons.mp hflat
      obtain ⟨hdigit, hdigits⟩ := List.forall_mem_cons.mp hdigits
      obtain ⟨bound, rfl⟩ := Nat.exists_eq_add_one_of_ne_zero
        (show bound ≠ 0 by rintro rfl; simp at hbound)
      have hread (rest : Str) (hrest : EndsWord rest) :=
        readMember_memberText hmember.1 hmember.2 hdigit hrest
      rw [readMembers]
      cases members with
      | nil =>
          rw [List.map_singleton, join_singleton, hread _ hbrace]
          simp only [hend, Option.bind_eq_bind, Option.bind_some]
          rfl
      | cons next members =>
          have hlast := ih (List.cons_ne_nil _ _) (Nat.le_of_succ_le_succ hbound) hmembers hdigits
          rw [List.map_cons] at hlast ⊢
          rw [List.map_cons, join_cons_cons, ← List.map_cons, List.append_assoc, List.append_assoc,
            hread _ (hcomma _)]
          simp only [skip_append, List.map_cons, hlast, Option.bind_eq_bind, Option.bind_some]
          rfl

/-- Keys of their own are kept in order. -/
theorem dictOf_eq_self (hnodup : (members.map Prod.fst).Nodup) : dictOf members = members := by
  have hnew (record : Dict) (key : Str) (value : Json) (hkey : key ∉ record.map Prod.fst) :
      Dict.setItem record key value = record ++ [(key, value)] := by
    induction record with
    | nil => rfl
    | cons first record ih =>
        obtain ⟨hfirst, hrecord⟩ := not_or.mp (List.mem_cons.not.mp hkey)
        rw [Dict.setItem, if_neg (Ne.symm hfirst), ih hrecord]
        rfl
  have hfold (record : Dict) (h : ((record ++ members).map Prod.fst).Nodup) :
      members.foldl (fun record member => Dict.setItem record member.1 member.2) record =
        record ++ members := by
    induction members generalizing record with
    | nil => simp
    | cons member members ih =>
        have hkey : member.1 ∉ record.map Prod.fst := by
          rw [List.map_append, List.map_cons] at h
          intro hmem
          exact (List.nodup_append.mp h).2.2 _ hmem _ List.mem_cons_self rfl
        rw [List.foldl_cons, hnew record _ _ hkey]
        have hrest : ((record ++ [member] ++ members).map Prod.fst).Nodup := by simpa using h
        rw [ih (List.nodup_cons.mp (by simpa using hnodup)).2 _ hrest, List.append_assoc,
          List.singleton_append]
  exact hfold [] hnodup

/-- There are no more members than characters. -/
theorem length_le_join (hne : ∀ part ∈ members.map memberText, part ≠ []) :
    members.length ≤ (join ",".toList (members.map memberText)).length := by
  induction members with
  | nil => exact Nat.zero_le _
  | cons member members ih =>
      obtain ⟨hmember, hmembers⟩ := List.forall_mem_cons.mp (List.map_cons .. ▸ hne)
      have hpos := List.length_pos_iff.mpr hmember
      cases members with
      | nil =>
          rw [List.map_singleton, join_singleton]
          exact hpos
      | cons next members =>
          have hle := ih hmembers
          rw [List.map_cons] at hle
          rw [List.map_cons, List.map_cons, join_cons_cons, List.length_append, List.length_append,
            List.length_cons]
          omega

/-- **Reading undoes writing.** -/
theorem readObject_objectText (h : object.IsReadable) :
    readObject (objectText object) = some object := by
  rw [objectText, List.append_assoc, readObject, skip_append]
  cases object with
  | nil => rfl
  | cons member members =>
      have hparts : ∀ part ∈ (member :: members).map memberText, part ≠ [] := by
        intro part hpart
        obtain ⟨member, -, rfl⟩ := List.mem_map.mp hpart
        exact List.cons_ne_nil _ _
      have hlength := length_le_join hparts
      have hquote : join ",".toList ((member :: members).map memberText) ++ "\x7d".toList ≠
          "\x7d".toList := by
        intro heq
        have hnil : join ",".toList ((member :: members).map memberText) = [] :=
          List.append_left_eq_self.mp heq
        rw [hnil] at hlength
        simp at hlength
      have hbound : (member :: members).length ≤ (join ",".toList
          ((member :: members).map memberText) ++ "\x7d".toList).length := by
        rw [List.length_append]
        omega
      have hread := readMembers_join (List.cons_ne_nil member members) hbound h.flat h.digits
      simp only [Option.bind_eq_bind, Option.bind_some, if_neg hquote, hread,
        dictOf_eq_self h.nodup]
      rfl

end Read

end Py
