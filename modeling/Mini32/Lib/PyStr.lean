import Mathlib.Data.List.DropRight
import Mathlib.Data.List.TakeWhile

/-!
# Python strings

The `str` methods a line-oriented parser uses, on strings as lists of code
points: `isspace`, `splitlines`, `strip`, `split`, `upper` and `lower`, and the
value of a decimal digit, with the tables of Unicode 15.0.

* `splitLines_join` — splitting undoes joining lines that hold no break.
* `splitLines_append` — the lines of two texts one after the other.
* `splitLines_universalNewlines` — reading a file in text mode keeps its lines.
* `filter_splitOnP` — lines without blanks are the words of a text.
* `strip_eq_self`, `strip_cons_space` — what stripping leaves alone and removes.
* `splitWord_word_space` — the first word and the rest of a text.

`upper` and `lower` are exact as far as their ASCII image goes: a character
whose mapping leaves ASCII is left as it is, so a result that is compared with
an ASCII name compares as Python's does.

## Lines and blanks

Python has two notions that are easily confused.  `splitlines` breaks at ten characters and
at the pair of carriage return and line feed; a file that is read in text mode has only
line feeds left of the latter three.  `isspace`, and with it `strip` and `split`, knows
twenty-nine characters, among them all the line breaks.  So a line has no break in it but
may have any other blank, and a text that ends in a break has no empty line at its end.

A word is a text without blanks that is not empty (`IsWord`).  It survives every method
here, and most of what a parser does to a well-formed line is a sequence of steps in
which words are split off and put together again.
-/

namespace Py

/-- A string as its code points. -/
abbrev Str := List Char

/-! ## Characters -/

/-- `str.isspace` of one character, which is also the class `\s` of a pattern. -/
def isSpace (c : Char) : Bool :=
  let n := c.toNat
  (0x09 ≤ n && n ≤ 0x0D) || (0x1C ≤ n && n ≤ 0x20) || n == 0x85 || n == 0xA0 || n == 0x1680 ||
    (0x2000 ≤ n && n ≤ 0x200A) || n == 0x2028 || n == 0x2029 || n == 0x202F || n == 0x205F ||
    n == 0x3000

/-- The characters `str.splitlines` breaks at. -/
def isLineBreak (c : Char) : Bool :=
  let n := c.toNat
  (0x0A ≤ n && n ≤ 0x0D) || (0x1C ≤ n && n ≤ 0x1E) || n == 0x85 || n == 0x2028 || n == 0x2029

/-- The zeros of the decimal digit ranges; the nine characters after each are its other digits. -/
def decimalZeros : List ℕ :=
  [0x30, 0x660, 0x6F0, 0x7C0, 0x966, 0x9E6, 0xA66, 0xAE6, 0xB66, 0xBE6, 0xC66, 0xCE6, 0xD66, 0xDE6,
    0xE50, 0xED0, 0xF20, 0x1040, 0x1090, 0x17E0, 0x1810, 0x1946, 0x19D0, 0x1A80, 0x1A90, 0x1B50,
    0x1BB0, 0x1C40, 0x1C50, 0xA620, 0xA8D0, 0xA900, 0xA9D0, 0xA9F0, 0xAA50, 0xABF0, 0xFF10,
    0x104A0, 0x10D30, 0x11066, 0x110F0, 0x11136, 0x111D0, 0x112F0, 0x11450, 0x114D0, 0x11650,
    0x116C0, 0x11730, 0x118E0, 0x11950, 0x11C50, 0x11D50, 0x11DA0, 0x11F50, 0x16A60, 0x16AC0,
    0x16B50, 0x1D7CE, 0x1D7D8, 0x1D7E2, 0x1D7EC, 0x1D7F6, 0x1E140, 0x1E2F0, 0x1E4F0, 0x1E950,
    0x1FBF0]

/-- The value of a decimal digit, the class `\d` of a pattern. -/
def decimalValue (c : Char) : Option ℕ :=
  (decimalZeros.find? fun first => first ≤ c.toNat && c.toNat < first + 10).map (c.toNat - ·)

/-- The upper-case mapping of one character; a few characters expand. -/
def upperChar (c : Char) : Str :=
  let n := c.toNat
  if 0x61 ≤ n ∧ n ≤ 0x7A then [Char.ofNat (n - 0x20)]
  else if n = 0xDF then ['S', 'S']
  else if n = 0x131 then ['I']
  else if n = 0x17F then ['S']
  else if n = 0xFB00 then ['F', 'F']
  else if n = 0xFB01 then ['F', 'I']
  else if n = 0xFB02 then ['F', 'L']
  else if n = 0xFB03 then ['F', 'F', 'I']
  else if n = 0xFB04 then ['F', 'F', 'L']
  else if n = 0xFB05 ∨ n = 0xFB06 then ['S', 'T']
  else [c]

/-- The lower-case mapping of one character; `0x212A` is the Kelvin sign. -/
def lowerChar (c : Char) : Char :=
  let n := c.toNat
  if 0x41 ≤ n ∧ n ≤ 0x5A then Char.ofNat (n + 0x20)
  else if n = 0x212A then 'k'
  else c

/-! ## Methods -/

/-- `str.upper`, as far as ASCII goes. -/
def upper (s : Str) : Str := s.flatMap upperChar

/-- `str.lower`, as far as ASCII goes. -/
def lower (s : Str) : Str := s.map lowerChar

/-- `s.splitlines()`: a final line break ends the last line and starts no other. -/
def splitLines : Str → List Str
  | [] => []
  | '\r' :: '\n' :: cs => [] :: splitLines cs
  | c :: cs =>
      if isLineBreak c then [] :: splitLines cs
      else match splitLines cs with
        | [] => [[c]]
        | line :: lines => (c :: line) :: lines

/-- What text mode makes of the line endings of a file. -/
def universalNewlines : Str → Str
  | [] => []
  | '\r' :: '\n' :: cs => '\n' :: universalNewlines cs
  | c :: cs => (if c = '\r' then '\n' else c) :: universalNewlines cs

/-- Drop the characters of a class from both ends. -/
def stripBy (p : Char → Bool) (s : Str) : Str := (s.dropWhile p).rdropWhile p

/-- `s.strip()` -/
def strip (s : Str) : Str := stripBy isSpace s

/-- `s.split(None, 1)`: the first word and, when something is left, the rest. -/
def splitWord (s : Str) : List Str :=
  let text := s.dropWhile isSpace
  let word := text.takeWhile fun c => !isSpace c
  let rest := (text.dropWhile fun c => !isSpace c).dropWhile isSpace
  if text.isEmpty then [] else if rest.isEmpty then [word] else [word, rest]

/-- `sep.join(parts)` -/
def join (sep : Str) (parts : List Str) : Str := sep.intercalate parts

/-- One part is joined to itself, … -/
theorem join_singleton (sep part : Str) : join sep [part] = part := by
  simp [join]

/-- … and a part in front of others has the separator behind it. -/
theorem join_cons_cons (sep part next : Str) (parts : List Str) :
    join sep (part :: next :: parts) = part ++ (sep ++ join sep (next :: parts)) := by
  simp [join, List.intercalate]

/-! ## Splitting and joining lines -/

section Lines

variable {s rest : Str}

theorem splitLines_cons_of_not_break {c : Char} (hc : isLineBreak c = false) :
    splitLines (c :: s) =
      match splitLines s with
      | [] => [[c]]
      | line :: lines => (c :: line) :: lines := by
  have hr : c ≠ '\r' := by
    rintro rfl
    exact absurd hc (by decide)
  rw [splitLines.eq_3 _ _ (fun _ h _ => hr h)]
  simp only [hc, Bool.false_eq_true, if_false]

/-- A line without breaks is read off whole. -/
theorem splitLines_line (hs : ∀ c ∈ s, isLineBreak c = false) :
    splitLines (s ++ '\n' :: rest) = s :: splitLines rest := by
  induction s with
  | nil => rfl
  | cons c s ih =>
      have ih := ih fun d hd => hs d (List.mem_cons_of_mem _ hd)
      rw [List.cons_append, splitLines_cons_of_not_break (hs c List.mem_cons_self), ih]

/-- **Splitting into lines undoes joining with line feeds.** -/
theorem splitLines_join {lines : List Str} (hlines : ∀ l ∈ lines, ∀ c ∈ l, isLineBreak c = false)
    (hne : lines ≠ []) : splitLines (join ['\n'] lines ++ ['\n']) = lines := by
  induction lines with
  | nil => exact absurd rfl hne
  | cons line lines ih =>
      have hline := hlines line List.mem_cons_self
      cases lines with
      | nil =>
          rw [join_singleton, splitLines_line hline]
          rfl
      | cons next lines =>
          have hjoin : join ['\n'] (line :: next :: lines) ++ ['\n'] =
              line ++ '\n' :: (join ['\n'] (next :: lines) ++ ['\n']) := by
            rw [join_cons_cons, List.append_assoc]
            rfl
          rw [hjoin, splitLines_line hline,
            ih (fun l hl => hlines l (List.mem_cons_of_mem _ hl)) (by simp)]

/-- Lines that each end in a line feed split into themselves. -/
theorem splitLines_flatten {lines : List Str}
    (hlines : ∀ l ∈ lines, ∀ c ∈ l, isLineBreak c = false) :
    splitLines (lines.map (· ++ ['\n'])).flatten = lines := by
  induction lines with
  | nil => rfl
  | cons line lines ih =>
      rw [List.map_cons, List.flatten_cons, List.append_assoc, List.singleton_append,
        splitLines_line (hlines line List.mem_cons_self),
        ih fun l hl => hlines l (List.mem_cons_of_mem _ hl)]

theorem splitLines_cons_of_break {c : Char} (hc : isLineBreak c = true)
    (hpair : ¬ (c = '\r' ∧ s.head? = some '\n')) : splitLines (c :: s) = [] :: splitLines s := by
  rw [splitLines.eq_3 _ _ (fun cs hr hn => hpair ⟨hr, by rw [hn]; rfl⟩)]
  simp only [hc, if_true]

/-- A text that is not empty has a line. -/
theorem splitLines_cons_ne_nil (c : Char) (s : Str) : splitLines (c :: s) ≠ [] := by
  unfold splitLines
  split
  · exact absurd ‹_› (List.cons_ne_nil _ _)
  · exact List.cons_ne_nil _ _
  · split
    · exact List.cons_ne_nil _ _
    · split <;> exact List.cons_ne_nil _ _

/-- A line feed between two texts ends the last line of the first: if that text is empty or
ends in a break of its own, an empty line stands between the two. -/
theorem splitLines_append (s rest : Str) : ∃ gap, (gap = [] ∨ gap = [[]]) ∧
    splitLines (s ++ '\n' :: rest) = splitLines s ++ (gap ++ splitLines rest) := by
  induction s using splitLines.induct with
  | case1 => exact ⟨[[]], .inr rfl, rfl⟩
  | case2 s ih =>
      obtain ⟨gap, hgap, ih⟩ := ih
      exact ⟨gap, hgap, congrArg ([] :: ·) ih⟩
  | case3 c s hpair hbreak ih =>
      by_cases hlast : c = '\r' ∧ s = []
      · obtain ⟨rfl, rfl⟩ := hlast
        -- the line feed completes the pair that the carriage return began
        exact ⟨[], .inl rfl, rfl⟩
      · obtain ⟨gap, hgap, ih⟩ := ih
        refine ⟨gap, hgap, ?_⟩
        have hs : ¬ (c = '\r' ∧ s.head? = some '\n') := by
          rintro ⟨hr, hn⟩
          obtain ⟨tail, rfl⟩ := List.head?_eq_some_iff.mp hn
          exact hpair tail hr rfl
        have happend : ¬ (c = '\r' ∧ (s ++ '\n' :: rest).head? = some '\n') := by
          rintro ⟨hr, hn⟩
          cases s with
          | nil => exact hlast ⟨hr, rfl⟩
          | cons d s => exact hs ⟨hr, hn⟩
        rw [List.cons_append, splitLines_cons_of_break hbreak happend,
          splitLines_cons_of_break hbreak hs, ih, List.cons_append]
  | case4 c s hpair hbreak hnil ih =>
      obtain rfl : s = [] := by
        cases s with
        | nil => rfl
        | cons d s => exact absurd hnil (splitLines_cons_ne_nil d s)
      have hc : isLineBreak c = false := Bool.eq_false_iff.mpr hbreak
      refine ⟨[], .inl rfl, ?_⟩
      rw [List.cons_append, splitLines_cons_of_not_break hc, splitLines_cons_of_not_break hc]
      rfl
  | case5 c s hpair hbreak line lines hs ih =>
      obtain ⟨gap, hgap, ih⟩ := ih
      have hc : isLineBreak c = false := Bool.eq_false_iff.mpr hbreak
      refine ⟨gap, hgap, ?_⟩
      rw [List.cons_append, splitLines_cons_of_not_break hc, splitLines_cons_of_not_break hc, ih,
        hs]
      rfl

theorem universalNewlines_cons {c : Char} {s : Str} (hpair : ¬ (c = '\r' ∧ s.head? = some '\n')) :
    universalNewlines (c :: s) = (if c = '\r' then '\n' else c) :: universalNewlines s :=
  universalNewlines.eq_3 _ _ fun cs hr hn => hpair ⟨hr, by rw [hn]; rfl⟩

/-- Splitting treats all line endings alike. -/
theorem splitLines_universalNewlines (s : Str) :
    splitLines (universalNewlines s) = splitLines s := by
  induction s using universalNewlines.induct with
  | case1 => rfl
  | case2 s ih => exact congrArg ([] :: ·) ih
  | case3 c s hpair ih =>
      have hs : ¬ (c = '\r' ∧ s.head? = some '\n') := by
        rintro ⟨hr, hn⟩
        obtain ⟨tail, rfl⟩ := List.head?_eq_some_iff.mp hn
        exact hpair tail hr rfl
      rw [universalNewlines_cons hs]
      by_cases hr : c = '\r'
      · rw [if_pos hr, splitLines_cons_of_break (by decide) (by simp), ih,
          splitLines_cons_of_break (by rw [hr]; decide) hs]
      · rw [if_neg hr]
        cases hbreak : isLineBreak c with
        | true =>
            rw [splitLines_cons_of_break hbreak (fun h => hr h.1), ih,
              splitLines_cons_of_break hbreak hs]
        | false =>
            rw [splitLines_cons_of_not_break hbreak, ih, splitLines_cons_of_not_break hbreak]

end Lines

section Separated

variable {p : Char → Bool} {s : Str}

/-- Words that start with the first line. -/
theorem filter_words {words : List Str}
    (hs : s.splitOnP p = (splitLines s).headD [] :: words)
    (hwords : words.filter (· ≠ []) = (splitLines s).tail.filter (· ≠ [])) :
    (s.splitOnP p).filter (· ≠ []) = (splitLines s).filter (· ≠ []) := by
  rw [hs, List.filter_cons, hwords]
  cases splitLines s with
  | nil => rfl
  | cons line lines => rw [List.filter_cons, List.headD_cons, List.tail_cons]

theorem splitOnP_lines (hbreaks : ∀ c ∈ s, isLineBreak c = true → p c = true)
    (hplain : ∀ l ∈ splitLines s, ∀ c ∈ l, p c = false) :
    ∃ words, s.splitOnP p = (splitLines s).headD [] :: words ∧
      words.filter (· ≠ []) = (splitLines s).tail.filter (· ≠ []) := by
  induction s using splitLines.induct with
  | case1 => exact ⟨[], rfl, rfl⟩
  | case2 s ih =>
      obtain ⟨words, hs, hwords⟩ := ih (fun c hc => hbreaks c (by simp [hc]))
        fun l hl => hplain l (List.mem_cons_of_mem _ hl)
      refine ⟨[] :: s.splitOnP p, ?_, ?_⟩
      · rw [List.splitOnP_cons_eq_if_modifyHead, if_pos (hbreaks '\r' (by simp) rfl),
          List.splitOnP_cons_eq_if_modifyHead, if_pos (hbreaks '\n' (by simp) rfl)]
        rfl
      · exact filter_words hs hwords
  | case3 c s hpair hbreak ih =>
      have hlines : splitLines (c :: s) = [] :: splitLines s := by
        rw [splitLines.eq_3 _ _ hpair, if_pos hbreak]
      rw [hlines] at hplain ⊢
      obtain ⟨words, hs, hwords⟩ := ih (fun d hd => hbreaks d (List.mem_cons_of_mem _ hd))
        fun l hl => hplain l (List.mem_cons_of_mem _ hl)
      refine ⟨s.splitOnP p, ?_, filter_words hs hwords⟩
      rw [List.splitOnP_cons_eq_if_modifyHead, if_pos (hbreaks c List.mem_cons_self hbreak)]
      rfl
  | case4 c s hpair hbreak hnil ih =>
      obtain rfl : s = [] := by
        cases s with
        | nil => rfl
        | cons d s => exact absurd hnil (splitLines_cons_ne_nil d s)
      have hlines : splitLines [c] = [[c]] :=
        splitLines_cons_of_not_break (Bool.eq_false_iff.mpr hbreak)
      rw [hlines] at hplain ⊢
      refine ⟨[], ?_, rfl⟩
      rw [List.splitOnP_cons_eq_if_modifyHead, hplain [c] List.mem_cons_self c List.mem_cons_self]
      rfl
  | case5 c s hpair hbreak line lines hs ih =>
      have hlines : splitLines (c :: s) = (c :: line) :: lines := by
        rw [splitLines_cons_of_not_break (Bool.eq_false_iff.mpr hbreak), hs]
      rw [hlines] at hplain ⊢
      rw [hs] at ih
      have hline := hplain _ List.mem_cons_self
      obtain ⟨words, hwords, hfilter⟩ :=
          ih (fun d hd => hbreaks d (List.mem_cons_of_mem _ hd)) <| by
        intro l hl d hd
        rcases List.mem_cons.mp hl with rfl | hl
        · exact hline d (List.mem_cons_of_mem _ hd)
        · exact hplain l (List.mem_cons_of_mem _ hl) d hd
      refine ⟨words, ?_, hfilter⟩
      rw [List.splitOnP_cons_eq_if_modifyHead, hline c List.mem_cons_self, hwords]
      rfl

/-- **Lines as separated words.**  Where each line break separates and no line holds a
separator, the words between the separators are the lines that are not empty. -/
theorem filter_splitOnP (hbreaks : ∀ c ∈ s, isLineBreak c = true → p c = true)
    (hplain : ∀ l ∈ splitLines s, ∀ c ∈ l, p c = false) :
    (s.splitOnP p).filter (· ≠ []) = (splitLines s).filter (· ≠ []) := by
  obtain ⟨words, hs, hwords⟩ := splitOnP_lines hbreaks hplain
  exact filter_words hs hwords

end Separated

/-! ## Stripping -/

section Strip

variable {s : Str}

/-- A text that starts and ends outside the class is left alone. -/
theorem stripBy_eq_self {p : Char → Bool} (hhead : ∀ c ∈ s.head?, p c = false)
    (hlast : ∀ c ∈ s.getLast?, p c = false) : stripBy p s = s := by
  have hdrop : s.dropWhile p = s := by
    cases s with
    | nil => rfl
    | cons c s => exact List.dropWhile_cons_of_neg (by simp [hhead c rfl])
  rw [stripBy, hdrop, List.rdropWhile_eq_self_iff]
  intro hne
  simp [hlast _ (List.getLast?_eq_getLast_of_ne_nil hne)]

/-- A text that starts and ends outside white space is stripped already. -/
theorem strip_eq_self (hhead : ∀ c ∈ s.head?, isSpace c = false)
    (hlast : ∀ c ∈ s.getLast?, isSpace c = false) : strip s = s :=
  stripBy_eq_self hhead hlast

@[simp] theorem strip_cons_space (s : Str) : strip (' ' :: s) = strip s := rfl

/-- Stripping takes characters of `p` only. -/
theorem mem_stripBy {p : Char → Bool} {s : Str} {c : Char} (hc : c ∈ s) (hp : p c = false) :
    c ∈ stripBy p s := by
  have hdrop : ∀ s : Str, c ∈ s → c ∈ s.dropWhile p := by
    intro s hmem
    rw [← List.takeWhile_append_dropWhile (p := p) (l := s), List.mem_append] at hmem
    refine hmem.resolve_left fun htake => ?_
    simp [List.mem_takeWhile_imp htake] at hp
  rw [stripBy, List.rdropWhile, List.mem_reverse]
  exact hdrop _ (List.mem_reverse.mpr (hdrop s hc))

/-- A stripped text is empty or starts outside white space. -/
theorem head_strip {c : Char} (h : c ∈ (strip s).head?) : isSpace c = false := by
  have hpre : strip s <+: s.dropWhile isSpace := List.rdropWhile_prefix ..
  obtain ⟨tail, htail⟩ := hpre
  cases hs : strip s with
  | nil => simp [hs] at h
  | cons d rest =>
      rw [hs] at h htail
      obtain rfl : d = c := by simpa using h
      have hhead := List.head?_dropWhile_not isSpace s
      rw [← htail] at hhead
      simpa using hhead

end Strip

/-! ## Lower case -/

theorem lowerChar_lowerChar (c : Char) : lowerChar (lowerChar c) = lowerChar c := by
  have hlow : ∀ n < 128, lowerChar (lowerChar (Char.ofNat n)) = lowerChar (Char.ofNat n) := by
    decide
  by_cases hc : c.toNat < 128
  · have h := hlow c.toNat hc
    rwa [Char.ofNat_toNat] at h
  · have hupper : ¬ (0x41 ≤ c.toNat ∧ c.toNat ≤ 0x5A) := by omega
    have hstep : lowerChar c = if c.toNat = 0x212A then 'k' else c := if_neg hupper
    by_cases hsign : c.toNat = 0x212A
    · rw [hstep, if_pos hsign]
      rfl
    · rw [hstep, if_neg hsign, hstep, if_neg hsign]

/-- Lower case is lower case. -/
theorem lower_lower (s : Str) : lower (lower s) = lower s := by
  rw [lower, lower, List.map_map]
  exact List.map_congr_left fun c _ => lowerChar_lowerChar c

/-! ## Words -/

/-- A non-empty run of characters outside white space. -/
structure IsWord (w : Str) : Prop where
  ne_nil : w ≠ []
  not_space : ∀ c ∈ w, isSpace c = false

section Words

variable {w rest : Str}

/-- A text that starts outside white space has a first word. -/
theorem splitWord_ne_nil {s : Str} (hne : s ≠ []) (hhead : ∀ c ∈ s.head?, isSpace c = false) :
    splitWord s ≠ [] := by
  obtain ⟨c, s, rfl⟩ := List.exists_cons_of_ne_nil hne
  have hdrop : (c :: s).dropWhile isSpace = c :: s :=
    List.dropWhile_cons_of_neg (by simp [hhead c rfl])
  unfold splitWord
  simp only [hdrop, List.isEmpty_cons, Bool.false_eq_true, if_false]
  split <;> exact List.cons_ne_nil _ _

theorem splitWord_ne_nil_of_strip {s : Str} (h : strip s ≠ []) : splitWord s ≠ [] := by
  have hdrop : s.dropWhile isSpace ≠ [] := by
    intro hnil
    rw [strip, stripBy, hnil] at h
    exact h rfl
  unfold splitWord
  simp only [List.isEmpty_iff, if_neg hdrop]
  split <;> exact List.cons_ne_nil _ _

/-- What follows the first word starts outside white space. -/
theorem strip_second_ne_nil {s : Str} (h : (splitWord s).tail.headD [] ≠ []) :
    strip ((splitWord s).tail.headD []) ≠ [] := by
  unfold splitWord at h ⊢
  simp only at h ⊢
  split at h
  · exact absurd rfl h
  · next hne =>
      rw [if_neg hne]
      split at h
      · exact absurd rfl h
      · next hrest =>
          rw [if_neg hrest]
          simp only [List.tail_cons, List.headD_cons] at h ⊢
          obtain ⟨c, rest, hcons⟩ := List.exists_cons_of_ne_nil h
          have hhead := List.head?_dropWhile_not isSpace
            (((s.dropWhile isSpace).dropWhile fun c => !isSpace c))
          rw [hcons] at hhead ⊢
          have hc : isSpace c = false := by simpa using hhead
          exact List.ne_nil_of_mem (mem_stripBy List.mem_cons_self hc)

theorem IsWord.strip_eq (h : IsWord w) : strip w = w :=
  strip_eq_self (fun c hc => h.not_space c (List.mem_of_mem_head? hc))
    (fun c hc => h.not_space c (List.mem_of_mem_getLast? hc))

theorem IsWord.dropWhile_append (h : IsWord w) (rest : Str) :
    (w ++ rest).dropWhile isSpace = w ++ rest := by
  obtain ⟨c, w, rfl⟩ := List.exists_cons_of_ne_nil h.ne_nil
  exact List.dropWhile_cons_of_neg (by simp [h.not_space c])

/-- A word, a space and a text that starts outside white space. -/
theorem splitWord_word_space (h : IsWord w) (hne : rest ≠ [])
    (hhead : ∀ c ∈ rest.head?, isSpace c = false) :
    splitWord (w ++ ' ' :: rest) = [w, rest] := by
  have hall : ∀ c ∈ w, (!isSpace c) = true := fun c hc => by simp [h.not_space c hc]
  have htake : (w ++ ' ' :: rest).takeWhile (fun c => !isSpace c) = w := by
    rw [List.takeWhile_append_of_pos hall]
    exact List.append_nil w
  have hdrop : (w ++ ' ' :: rest).dropWhile (fun c => !isSpace c) = ' ' :: rest := by
    rw [List.dropWhile_append_of_pos hall]
    rfl
  have hrest : (' ' :: rest).dropWhile isSpace = rest := by
    obtain ⟨c, tail, rfl⟩ := List.exists_cons_of_ne_nil hne
    have hc : isSpace c = false := hhead c rfl
    exact (List.dropWhile_cons_of_pos rfl).trans (List.dropWhile_cons_of_neg (by simp [hc]))
  simp [splitWord, h.dropWhile_append, htake, hdrop, hrest, hne, h.ne_nil]

end Words

end Py
