import Mini32.Lib.PyInt
import Mini32.Lib.PyJson

/-!
# Flat JSON objects as text

An object whose members are texts, integers and booleans, printed without white
space.  A text is printed between quotation marks as it stands, which is right if
it is verbatim: printable ASCII without the quotation mark and the backslash.
Such an object takes up one line, and Python reads that line as a whole
(`splitLines_objectLines`, `strip_objectText`).

A program that prints JSON by hand, member by member, prints such texts.  Whether it does is
a question about its format strings, and `objectText` is what they are compared with: the
comparison gives the object a line stands for, and from then on the line need not be
looked at again.
-/

namespace Py

/-- Printable ASCII. -/
def isPrintable (c : Char) : Bool := 0x20 ≤ c.toNat && c.toNat < 0x7F

/-- A character that stands for itself in a JSON string. -/
def isVerbatim (c : Char) : Bool := isPrintable c && c.toNat ≠ 0x22 && c.toNat ≠ 0x5C

/-- A value without parts, whose text is verbatim. -/
inductive Json.IsFlat : Json → Prop
  | str {s : Str} (h : s.all isVerbatim = true) : IsFlat (.str s)
  | int (n : ℤ) : IsFlat (.int n)
  | bool (b : Bool) : IsFlat (.bool b)

/-- An object of such values, under verbatim keys. -/
def Dict.IsFlat (object : Dict) : Prop :=
  ∀ member ∈ object, member.1.all isVerbatim = true ∧ member.2.IsFlat

/-! ## Writing -/

/-- The text of a value; arrays, objects and fractions do not occur. -/
def valueText : Json → Str
  | .str s => "\"".toList ++ s ++ "\"".toList
  | .int n => decimal n
  | .bool true => "true".toList
  | .bool false => "false".toList
  | _ => []

/-- The text of a member. -/
def memberText (member : Str × Json) : Str :=
  "\"".toList ++ member.1 ++ "\":".toList ++ valueText member.2

/-- The text of a flat object; `\x7b` and `\x7d` are the braces. -/
def objectText (object : Dict) : Str :=
  "\x7b".toList ++ join ",".toList (object.map memberText) ++ "\x7d".toList

/-! ## One line -/

section Line

variable {object : Dict} {objects : List Dict}

/-- What is verbatim is printable, … -/
theorem all_printable {s : Str} (h : s.all isVerbatim = true) : s.all isPrintable = true := by
  refine List.all_eq_true.mpr fun c hc => ?_
  have hverbatim := List.all_eq_true.mp h c hc
  simp only [isVerbatim, Bool.and_eq_true] at hverbatim
  exact hverbatim.1.1

/-- … and what is printable breaks no line. -/
theorem not_isLineBreak_of_printable {c : Char} (h : isPrintable c = true) :
    isLineBreak c = false := by
  have hrange : 0x20 ≤ c.toNat ∧ c.toNat < 0x7F := by
    simpa only [isPrintable, Bool.and_eq_true, decide_eq_true_eq] using h
  simp [isLineBreak]
  omega

/-- Printable texts one behind the other are printable, … -/
theorem printable_append {s t : Str} (hs : s.all isPrintable = true)
    (ht : t.all isPrintable = true) :
    (s ++ t).all isPrintable = true := by
  rw [List.all_append, hs, ht]
  rfl

/-- … the text of a value is, … -/
theorem printable_valueText {value : Json} (h : value.IsFlat) :
    (valueText value).all isPrintable = true := by
  cases h with
  | str hs => exact printable_append (printable_append (by decide) (all_printable hs)) (by decide)
  | int n => exact List.all_eq_true.mpr (forall_mem_decimal isPrintable (by decide) (by decide) n)
  | bool b => cases b <;> decide

/-- … of a member, … -/
theorem printable_memberText {member : Str × Json} (hkey : member.1.all isVerbatim = true)
    (hvalue : member.2.IsFlat) : (memberText member).all isPrintable = true := by
  have hhead := printable_append
    (printable_append (show "\"".toList.all isPrintable = true by decide) (all_printable hkey))
    (show "\":".toList.all isPrintable = true by decide)
  exact printable_append hhead (printable_valueText hvalue)

/-- … of several members, … -/
theorem printable_join {sep : Str} (hsep : sep.all isPrintable = true) {parts : List Str}
    (h : ∀ part ∈ parts, part.all isPrintable = true) :
    (join sep parts).all isPrintable = true := by
  induction parts with
  | nil => rfl
  | cons part parts ih =>
      obtain ⟨hpart, hparts⟩ := List.forall_mem_cons.mp h
      cases parts with
      | nil =>
          rw [join_singleton]
          exact hpart
      | cons next parts =>
          rw [join_cons_cons]
          exact printable_append hpart (printable_append hsep (ih hparts))

/-- … and of an object. -/
theorem Dict.IsFlat.printable (h : object.IsFlat) :
    (objectText object).all isPrintable = true := by
  have hmembers : ∀ part ∈ object.map memberText, part.all isPrintable = true := by
    intro part hpart
    obtain ⟨member, hmember, rfl⟩ := List.mem_map.mp hpart
    exact printable_memberText (h member hmember).1 (h member hmember).2
  exact printable_append (printable_append (by decide) (printable_join (by decide) hmembers))
    (by decide)

/-- It starts and ends with a brace. -/
theorem strip_objectText (object : Dict) : strip (objectText object) = objectText object := by
  refine strip_eq_self (fun c hc => ?_) fun c hc => ?_
  · have hhead : (objectText object).head? = some (Char.ofNat 0x7B) := rfl
    obtain rfl := Option.some.inj (hhead.symm.trans hc)
    decide
  · have hlast : (objectText object).getLast? = some (Char.ofNat 0x7D) := List.getLast?_concat
    obtain rfl := Option.some.inj (hlast.symm.trans hc)
    decide

/-- **Objects printed on lines of their own** are split into their texts. -/
theorem splitLines_objectLines (h : ∀ object ∈ objects, Dict.IsFlat object) :
    splitLines (objects.flatMap fun object => objectText object ++ ['\n']) =
      objects.map objectText := by
  have hlines : ∀ line ∈ objects.map objectText, ∀ c ∈ line, isLineBreak c = false := by
    intro line hline
    obtain ⟨object, hobject, rfl⟩ := List.mem_map.mp hline
    exact fun c hc => not_isLineBreak_of_printable
      (List.all_eq_true.mp (h object hobject).printable c hc)
  have hflat := splitLines_flatten hlines
  rwa [List.map_map] at hflat

end Line

end Py
