import Mathlib.Data.List.Nodup
import Mini32.Lib.Fallible
import Mini32.Toolchain.Assembler

/-!
# Where a source puts its labels and statements

What `parse_source` computes, told line by line without its label table: each line has the
labels at its start and perhaps a statement, and the addresses count the statements.

* `parseSource_eq_ok` — the sources the parser accepts, and what it returns for them.
* `parseSource_error` — any other source raises `AssemblyError`.

A source is well formed if no label is defined twice and no colon is left in a statement
(`WellFormed`).  `placedLabels` and `placedStatements` are then the two results of the parser
as functions of the lines; they are additive in the lines, and lines that start elsewhere
have them moved (`placedLabels_add`, `placedStatements_add`).
-/

namespace Mini32.Toolchain

open Py Fallible

/-! ## Lines -/

/-- The text of a line without its comment. -/
def lineText (rawLine : Str) : Str := strip (rawLine.takeWhile (· ≠ '#'))

/-- The labels at the start of a text, and the text behind them. -/
def leadingLabels : ℕ → Str → List Str × Str
  | 0, remaining => ([], remaining)
  | fuel + 1, remaining =>
      match labelMatch remaining with
      | none => ([], remaining)
      | some (label, rest) =>
          (label :: (leadingLabels fuel (strip rest)).1, (leadingLabels fuel (strip rest)).2)

/-- The labels at the start of a line. -/
def lineLabels (rawLine : Str) : List Str :=
  (leadingLabels (lineText rawLine).length (lineText rawLine)).1

/-- The statement of a line, empty if it has none. -/
def lineStatement (rawLine : Str) : Str :=
  (leadingLabels (lineText rawLine).length (lineText rawLine)).2

/-- Whether there is a statement behind the labels. -/
def hasStatement (rawLine : Str) : Bool := !(lineStatement rawLine).isEmpty

/-- The number of statements in some lines. -/
def statementCount (lines : List Str) : ℕ := lines.countP hasStatement

/-- What follows the labels of a text is stripped as the text was. -/
theorem exists_strip (fuel : ℕ) (s : Str) : ∃ t, (leadingLabels fuel (strip s)).2 = strip t := by
  induction fuel generalizing s with
  | zero => exact ⟨s, rfl⟩
  | succ fuel ih =>
      rw [leadingLabels]
      cases labelMatch (strip s) with
      | none => exact ⟨s, rfl⟩
      | some p => exact ih p.2

/-- A statement starts with a word. -/
theorem splitWord_lineStatement {line : Str} (h : hasStatement line = true) :
    splitWord (lineStatement line) ≠ [] := by
  obtain ⟨t, ht⟩ := exists_strip (lineText line).length (line.takeWhile (· ≠ '#'))
  have htext : lineStatement line = strip t := ht
  rw [hasStatement, htext] at h
  rw [htext]
  exact splitWord_ne_nil (by simpa using h) fun c hc => head_strip hc

/-! ## Sources -/

/-- Every label with the address of the next statement. -/
def placedLabels : ℕ → List Str → Labels
  | _, [] => []
  | address, line :: lines =>
      (lineLabels line).map (·, address) ++ placedLabels (address + 4 * statementCount [line]) lines

/-- Every statement with its line and its address. -/
def placedStatements : ℕ → ℕ → List Str → List Statement
  | _, _, [] => []
  | lineNumber, address, line :: lines =>
      (if hasStatement line then [⟨lineNumber, lineStatement line, address⟩] else []) ++
        placedStatements (lineNumber + 1) (address + 4 * statementCount [line]) lines

/-- No label is defined twice, and no colon is left over. -/
structure WellFormed (lines : List Str) : Prop where
  labels : (lines.flatMap lineLabels).Nodup
  statements : ∀ line ∈ lines, ':' ∉ lineStatement line

instance (lines : List Str) : Decidable (WellFormed lines) :=
  decidable_of_iff ((lines.flatMap lineLabels).Nodup ∧ ∀ line ∈ lines, ':' ∉ lineStatement line)
    ⟨fun h => ⟨h.1, h.2⟩, fun h => ⟨h.labels, h.statements⟩⟩

section Placed

variable (d k address lineNumber : ℕ) {line : Str} (lines lines' : List Str)

/-- Counts add up. -/
theorem statementCount_append : statementCount (lines ++ lines') =
    statementCount lines + statementCount lines' := List.countP_append

/-- The first line and the others. -/
theorem statementCount_cons (line : Str) (lines : List Str) : statementCount (line :: lines) =
    statementCount [line] + statementCount lines := statementCount_append [line] lines

/-- A line with a statement counts one, … -/
theorem statementCount_of_hasStatement (h : hasStatement line = true) :
    statementCount [line] = 1 := by
  simp [statementCount, h]

/-- … one without counts nothing. -/
theorem statementCount_of_not_hasStatement (h : hasStatement line = false) :
    statementCount [line] = 0 := by
  simp [statementCount, h]

/-- The names of the table, in order. -/
theorem map_fst_placedLabels :
    (placedLabels address lines).map Prod.fst = lines.flatMap lineLabels := by
  induction lines generalizing address with
  | nil => rfl
  | cons line lines ih =>
      rw [placedLabels, List.map_append, ih, List.map_map, List.flatMap_cons]
      congr 1
      exact List.map_id _

/-- Labels of lines one after the other. -/
theorem placedLabels_append : placedLabels address (lines ++ lines') =
    placedLabels address lines ++ placedLabels (address + 4 * statementCount lines) lines' := by
  induction lines generalizing address with
  | nil => rfl
  | cons line lines ih =>
      rw [List.cons_append, placedLabels, placedLabels, ih, statementCount_cons line lines,
        List.append_assoc, Nat.mul_add, Nat.add_assoc]

/-- Statements of lines one after the other. -/
theorem placedStatements_append : placedStatements lineNumber address (lines ++ lines') =
    placedStatements lineNumber address lines ++
      placedStatements (lineNumber + lines.length) (address + 4 * statementCount lines) lines' := by
  induction lines generalizing lineNumber address with
  | nil => rfl
  | cons line lines ih =>
      have hnumber : lineNumber + 1 + lines.length = lineNumber + (line :: lines).length := by
        rw [List.length_cons, Nat.add_assoc, Nat.add_comm 1]
      rw [List.cons_append, placedStatements, placedStatements, ih, statementCount_cons line lines,
        List.append_assoc, Nat.mul_add, Nat.add_assoc address, hnumber]

/-- Lines that start later have their labels later. -/
theorem placedLabels_add : placedLabels (d + address) lines =
    (placedLabels address lines).map fun p => (p.1, d + p.2) := by
  induction lines generalizing address with
  | nil => rfl
  | cons line lines ih =>
      rw [placedLabels, placedLabels, Nat.add_assoc, ih, List.map_append, List.map_map]
      rfl

/-- Lines that start elsewhere have the same statements at other places. -/
theorem placedStatements_add : placedStatements (k + lineNumber) (d + address) lines =
    (placedStatements lineNumber address lines).map fun statement =>
      { statement with line := k + statement.line, address := d + statement.address } := by
  induction lines generalizing lineNumber address with
  | nil => rfl
  | cons line lines ih =>
      rw [placedStatements, placedStatements, Nat.add_assoc, Nat.add_assoc, ih, List.map_append]
      split <;> rfl

/-- There are as many statements as lines that have one. -/
theorem length_placedStatements :
    (placedStatements lineNumber address lines).length = statementCount lines := by
  induction lines generalizing lineNumber address with
  | nil => rfl
  | cons line lines ih =>
      rw [placedStatements, List.length_append, ih, statementCount_cons]
      congr 1
      split
      · next h => rw [statementCount_of_hasStatement h, List.length_singleton]
      · next h => rw [statementCount_of_not_hasStatement (Bool.eq_false_iff.mpr h), List.length_nil]

/-- Statement `i` is four bytes behind statement `i - 1`. -/
theorem address_placedStatements {i : ℕ} {statement : Statement}
    (h : (placedStatements lineNumber address lines)[i]? = some statement) :
    statement.address = address + 4 * i := by
  induction lines generalizing lineNumber address i with
  | nil => nomatch h
  | cons line lines ih =>
      rw [placedStatements] at h
      by_cases hline : hasStatement line = true
      · rw [if_pos hline, statementCount_of_hasStatement hline] at h
        cases i with
        | zero =>
            obtain rfl := Option.some.inj h
            rfl
        | succ i =>
            have haddress := ih _ _ h
            omega
      · rw [if_neg hline, statementCount_of_not_hasStatement (Bool.eq_false_iff.mpr hline)] at h
        exact ih _ _ h

end Placed

/-! ## The parser follows the layout -/

section Parser

variable (filename : Str) (lineNumber address : ℕ) {fuel : ℕ} {labels : Labels}
  {remaining line : Str} {lines : List Str} {parsed : Parsed}

/-- A label is in the table exactly if it is one of its names, … -/
theorem lookup_isSome_iff {label : Str} :
    (labels.lookup label).isSome ↔ label ∈ labels.map Prod.fst := by
  rw [List.lookup_isSome_iff, List.mem_map]
  simp only [beq_iff_eq, @eq_comm _ label]

/-- … and not in it exactly if it is none of them. -/
theorem lookup_eq_none_iff {label : Str} :
    labels.lookup label = none ↔ label ∉ labels.map Prod.fst := by
  rw [← Option.not_isSome_iff_eq_none, lookup_isSome_iff]

/-- A label found in a table of different labels. -/
theorem lookup_of_mem {label : Str} {target : ℕ} (hnodup : (labels.map Prod.fst).Nodup)
    (h : (label, target) ∈ labels) : labels.lookup label = some target := by
  induction labels with
  | nil => nomatch h
  | cons p labels ih =>
      obtain ⟨name, address⟩ := p
      rw [List.map_cons, List.nodup_cons] at hnodup
      rw [List.lookup_cons]
      rcases List.mem_cons.mp h with heq | hmem
      · obtain ⟨rfl, rfl⟩ := Prod.mk.inj heq
        rw [beq_self_eq_true]
      · have hne : label ≠ name := by
          rintro rfl
          exact hnodup.1 (List.mem_map.mpr ⟨_, hmem, rfl⟩)
        rw [beq_eq_false_iff_ne.mpr hne]
        exact ih hnodup.2 hmem

/-- What a shifted table holds. -/
theorem lookup_add (d : ℕ) (label : Str) :
    (labels.map fun p => (p.1, d + p.2)).lookup label = (labels.lookup label).map (d + ·) := by
  induction labels with
  | nil => rfl
  | cons p labels ih =>
      obtain ⟨name, target⟩ := p
      rw [List.map_cons, List.lookup_cons, List.lookup_cons]
      cases label == name with
      | true => rfl
      | false => exact ih

/-- New labels all enter the table. -/
theorem stripLabels_ok (h : (labels.map Prod.fst ++ (leadingLabels fuel remaining).1).Nodup) :
    stripLabels filename lineNumber address fuel labels remaining =
      .ok (labels ++ (leadingLabels fuel remaining).1.map (·, address),
        (leadingLabels fuel remaining).2) := by
  induction fuel generalizing labels remaining with
  | zero => simp only [stripLabels, leadingLabels, List.map_nil, List.append_nil]
  | succ fuel ih =>
      rw [stripLabels]
      rw [leadingLabels] at h ⊢
      cases hmatch : labelMatch remaining with
      | none => simp only [List.map_nil, List.append_nil]
      | some p =>
          obtain ⟨label, rest⟩ := p
          simp only [hmatch] at h ⊢
          -- a repetition would show in the keys
          have hnew : ¬ (labels.lookup label).isSome := by
            rw [lookup_isSome_iff]
            intro hmem
            exact (List.nodup_append.mp h).2.2 label hmem label List.mem_cons_self rfl
          have hnext : ((labels ++ [(label, address)]).map Prod.fst ++
              (leadingLabels fuel (strip rest)).1).Nodup := by
            rwa [List.map_append, List.map_singleton, ← List.append_cons]
          rw [if_neg hnew, ih hnext, List.map_cons, ← List.append_cons]

/-- A label that is there already is an error at this line. -/
theorem stripLabels_error (hlabels : (labels.map Prod.fst).Nodup)
    (h : ¬ (labels.map Prod.fst ++ (leadingLabels fuel remaining).1).Nodup) :
    ∃ message, stripLabels filename lineNumber address fuel labels remaining =
      .error (assemblyError filename lineNumber message) := by
  induction fuel generalizing labels remaining with
  | zero =>
      rw [leadingLabels, List.append_nil] at h
      exact absurd hlabels h
  | succ fuel ih =>
      rw [stripLabels]
      rw [leadingLabels] at h
      cases hmatch : labelMatch remaining with
      | none =>
          simp only [hmatch, List.append_nil] at h
          exact absurd hlabels h
      | some p =>
          obtain ⟨label, rest⟩ := p
          simp only [hmatch] at h ⊢
          by_cases hnew : (labels.lookup label).isSome
          · exact ⟨_, if_pos hnew⟩
          · rw [if_neg hnew]
            have hkeys : (labels ++ [(label, address)]).map Prod.fst =
                labels.map Prod.fst ++ [label] := List.map_append
            apply ih
            · rw [hkeys]
              rw [lookup_isSome_iff] at hnew
              exact List.nodup_append.mpr ⟨hlabels, List.nodup_singleton _, by
                rintro a ha b hb rfl
                exact hnew (List.mem_singleton.mp hb ▸ ha)⟩
            · rwa [hkeys, ← List.append_cons]

/-- The line once its labels are off. -/
theorem parseLine_eq (hlabels : (parsed.labels.map Prod.fst ++ lineLabels line).Nodup) :
    parseLine filename parsed lineNumber line =
      if ':' ∈ lineStatement line then
        .error (assemblyError filename lineNumber "invalid label syntax".toList)
      else .ok
        { labels := parsed.labels ++ placedLabels parsed.address [line]
          statements := parsed.statements ++ placedStatements lineNumber parsed.address [line]
          address := parsed.address + 4 * statementCount [line] } := by
  have hstrip : stripLabels filename lineNumber parsed.address (lineText line).length parsed.labels
      (lineText line) = .ok (parsed.labels ++ (lineLabels line).map (·, parsed.address),
        lineStatement line) := stripLabels_ok _ _ _ hlabels
  have hplaced : placedLabels parsed.address [line] = (lineLabels line).map (·, parsed.address) :=
    List.append_nil _
  unfold parseLine
  rw [← lineText, hplaced]
  simp only [hstrip, bind, Except.bind, placedStatements, List.append_nil]
  cases hline : hasStatement line with
  | false =>
      have hempty : (lineStatement line).isEmpty = true := by simpa [hasStatement] using hline
      have hcolon : ':' ∉ lineStatement line := by
        rw [List.isEmpty_iff.mp hempty]
        exact List.not_mem_nil
      rw [if_pos hempty, if_neg hcolon, statementCount_of_not_hasStatement hline,
        if_neg Bool.false_ne_true, List.append_nil]
      rfl
  | true =>
      have hempty : ¬ (lineStatement line).isEmpty = true := by simpa [hasStatement] using hline
      rw [if_neg hempty, statementCount_of_hasStatement hline, if_pos rfl]
      rfl

/-- A line that is not well formed behind the ones before is an error. -/
theorem parseLine_error (hparsed : (parsed.labels.map Prod.fst).Nodup)
    (h : ¬ ((parsed.labels.map Prod.fst ++ lineLabels line).Nodup ∧ ':' ∉ lineStatement line)) :
    ∃ message, parseLine filename parsed lineNumber line =
      .error (assemblyError filename lineNumber message) := by
  by_cases hlabels : (parsed.labels.map Prod.fst ++ lineLabels line).Nodup
  · have hcolon : ':' ∈ lineStatement line := not_not.mp fun hcolon => h ⟨hlabels, hcolon⟩
    exact ⟨_, (parseLine_eq filename lineNumber hlabels).trans (if_pos hcolon)⟩
  · obtain ⟨message, hstrip⟩ := stripLabels_error filename lineNumber parsed.address hparsed hlabels
    refine ⟨message, ?_⟩
    unfold parseLine
    rw [← lineText]
    simp only [hstrip]
    rfl

/-- The lines the parser accepts behind what it has parsed, … -/
theorem parseLines_ok
    (hlabels : (parsed.labels.map Prod.fst ++ lines.flatMap lineLabels).Nodup)
    (hstatements : ∀ line ∈ lines, ':' ∉ lineStatement line) :
    parseLines filename lineNumber parsed lines = .ok
      { labels := parsed.labels ++ placedLabels parsed.address lines
        statements := parsed.statements ++ placedStatements lineNumber parsed.address lines
        address := parsed.address + 4 * statementCount lines } := by
  induction lines generalizing lineNumber parsed with
  | nil =>
      rw [parseLines, placedLabels, placedStatements, List.append_nil, List.append_nil]
      rfl
  | cons line lines ih =>
      rw [List.flatMap_cons, ← List.append_assoc] at hlabels
      have hline := parseLine_eq filename lineNumber (List.nodup_append.mp hlabels).1
      rw [if_neg (hstatements line List.mem_cons_self)] at hline
      -- the labels of the line move from the lines to the table
      have hkeys : ((parsed.labels ++ placedLabels parsed.address [line]).map Prod.fst ++
          lines.flatMap lineLabels).Nodup := by
        rwa [List.map_append, map_fst_placedLabels, List.flatMap_singleton]
      have hlabels' := placedLabels_append parsed.address [line] lines
      have hstatements' := placedStatements_append parsed.address lineNumber [line] lines
      rw [List.singleton_append] at hlabels' hstatements'
      rw [parseLines, hline]
      refine (ih (lineNumber + 1) hkeys fun l hl =>
        hstatements l (List.mem_cons_of_mem _ hl)).trans ?_
      rw [hlabels', hstatements', statementCount_cons line lines, List.append_assoc,
        List.append_assoc, Nat.mul_add, Nat.add_assoc, List.length_singleton]

/-- … and those it does not. -/
theorem parseLines_error (hparsed : (parsed.labels.map Prod.fst).Nodup)
    (h : ¬ ((parsed.labels.map Prod.fst ++ lines.flatMap lineLabels).Nodup ∧
      ∀ line ∈ lines, ':' ∉ lineStatement line)) :
    ∃ number message, parseLines filename lineNumber parsed lines =
      .error (assemblyError filename number message) := by
  induction lines generalizing lineNumber parsed with
  | nil =>
      rw [List.flatMap_nil, List.append_nil] at h
      exact absurd ⟨hparsed, nofun⟩ h
  | cons line lines ih =>
      by_cases hline : (parsed.labels.map Prod.fst ++ lineLabels line).Nodup ∧
          ':' ∉ lineStatement line
      · have hparse := (parseLine_eq filename lineNumber hline.1).trans (if_neg hline.2)
        rw [parseLines, hparse]
        have hkeys : (parsed.labels ++ placedLabels parsed.address [line]).map Prod.fst =
            parsed.labels.map Prod.fst ++ lineLabels line := by
          rw [List.map_append, map_fst_placedLabels, List.flatMap_singleton]
        apply ih
        · rw [hkeys]
          exact hline.1
        · rw [hkeys, List.append_assoc, ← List.flatMap_cons]
          rintro ⟨hlabels, hstatements⟩
          exact h ⟨hlabels, List.forall_mem_cons.mpr ⟨hline.2, hstatements⟩⟩
      · obtain ⟨message, hparse⟩ := parseLine_error filename lineNumber hparsed hline
        refine ⟨lineNumber, message, ?_⟩
        rw [parseLines, hparse]
        rfl

/-! ## Accepted sources -/

/-- What the parser returns for a well-formed source. -/
def layout (lines : List Str) : Parsed where
  labels := placedLabels 0 lines
  statements := placedStatements 1 0 lines
  address := 4 * statementCount lines

/-- **The parser accepts the well-formed sources** and lays them out line by line. -/
theorem parseSource_ok {source : Str} (h : WellFormed (splitLines source)) :
    parseSource source filename = .ok (layout (splitLines source)) := by
  have hlabels : (({} : Parsed).labels.map Prod.fst ++
      (splitLines source).flatMap lineLabels).Nodup := h.labels
  refine (parseLines_ok filename 1 hlabels h.statements).trans ?_
  simp only [layout, List.nil_append, Nat.zero_add]

/-- **Any other source raises `AssemblyError`.** -/
theorem parseSource_error {source : Str} (h : ¬ WellFormed (splitLines source)) :
    ∃ number message, parseSource source filename =
      .error (assemblyError filename number message) :=
  parseLines_error filename 1 List.nodup_nil fun ⟨hlabels, hstatements⟩ => h ⟨hlabels, hstatements⟩

/-- The accepted sources are the well-formed ones, and the parser returns their layout. -/
theorem parseSource_eq_ok {source : Str} : parseSource source filename = .ok parsed ↔
    WellFormed (splitLines source) ∧ parsed = layout (splitLines source) := by
  by_cases h : WellFormed (splitLines source)
  · rw [parseSource_ok filename h]
    constructor
    · intro heq
      exact ⟨h, (Except.ok.inj heq).symm⟩
    · rintro ⟨-, rfl⟩
      rfl
  · obtain ⟨number, message, herror⟩ := parseSource_error filename h
    rw [herror]
    constructor
    · nofun
    · rintro ⟨hwell, -⟩
      exact absurd hwell h

/-- The labels a source defines, as the parser collects them. -/
def definedLabels (source filename : Str) : List Str :=
  match parseSource source filename with
  | .ok parsed => parsed.labels.map Prod.fst
  | .error _ => []

/-- The labels of an accepted source. -/
theorem definedLabels_eq {source : Str} (h : WellFormed (splitLines source)) :
    definedLabels source filename = (splitLines source).flatMap lineLabels := by
  rw [definedLabels, parseSource_ok filename h]
  exact map_fst_placedLabels 0 _

end Parser

/-- An accepted source is well-formed, and its image is made of the codes of its statements. -/
theorem assembleText_eq_ok {source filename : Str} {image : List (BitVec 8)} :
    assembleText source filename = .ok image ↔ WellFormed (splitLines source) ∧
      ∃ words parts, (placedStatements 1 0 (splitLines source)).mapM (fun statement =>
          encodeStatement statement filename (placedLabels 0 (splitLines source))) = .ok words ∧
        words.mapM toBytes = .ok parts ∧ parts.flatten = image := by
  simp only [assembleText, bind_eq_ok]
  constructor
  · rintro ⟨parsed, hparse, words, hwords, parts, hparts, himage⟩
    obtain ⟨hwell, rfl⟩ := (parseSource_eq_ok filename).mp hparse
    exact ⟨hwell, words, parts, hwords, hparts, Except.ok.inj himage⟩
  · rintro ⟨hwell, words, parts, hwords, hparts, himage⟩
    exact ⟨_, parseSource_ok filename hwell, words, hwords, parts, hparts, congrArg _ himage⟩

end Mini32.Toolchain
