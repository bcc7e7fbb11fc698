import Mini32.Toolchain.Encoding
import Mini32.Toolchain.Layout

/-!
# Statements written plainly

A plain text is one the assembler takes as it stands: it starts and ends outside
white space, has no line break and neither of the characters `#` and `:`.  A
source of plain lines parses into one statement a line, without labels.  A plain
statement made of a mnemonic and tokens joined by `", "` is encoded from exactly
these tokens.

Everything the disassembler prints is of this kind.  A token is plain and has neither blank
nor comma, which is decided character by character (`isTokenChar`); texts are put together
with `IsToken.append` and `IsPlainText.append`, so the properties of a line follow from those
of its parts.
-/

namespace Mini32.Toolchain

open Py

/-! ## Plain texts -/

/-- Printable ASCII other than `#` and `:`. -/
def isPlain (c : Char) : Bool := 0x20 ≤ c.toNat && c.toNat < 0x7F && c ≠ '#' && c ≠ ':'

/-- The plain characters of a token. -/
def isTokenChar (c : Char) : Bool := isPlain c && c ≠ ' ' && c ≠ ','

/-- A text the assembler takes as it stands. -/
structure IsPlainText (s : Str) : Prop where
  ne_nil : s ≠ []
  plain : ∀ c ∈ s, isPlain c = true
  head : ∀ c ∈ s.head?, isSpace c = false
  last : ∀ c ∈ s.getLast?, isSpace c = false

/-- A non-empty token. -/
structure IsToken (s : Str) : Prop where
  ne_nil : s ≠ []
  token : ∀ c ∈ s, isTokenChar c = true

/-- A token, by a test of its characters. -/
theorem IsToken.of_all {s : Str} (hne : s ≠ []) (h : s.all isTokenChar = true) : IsToken s :=
  ⟨hne, List.all_eq_true.mp h⟩

section Plain

variable {s t sep : Str}

/-- A plain character is printable ASCII. -/
theorem plain_range {c : Char} (h : isPlain c = true) : 0x20 ≤ c.toNat ∧ c.toNat < 0x7F := by
  simp only [isPlain, Bool.and_eq_true, decide_eq_true_eq] at h
  exact ⟨h.1.1.1, h.1.1.2⟩

/-- A plain text has no line break. -/
theorem not_isLineBreak_of_plain {c : Char} (h : isPlain c = true) : isLineBreak c = false := by
  have := plain_range h
  simp [isLineBreak]
  omega

/-- No character of a token is white space, … -/
theorem not_isSpace_of_token {c : Char} (h : isTokenChar c = true) : isSpace c = false := by
  simp only [isTokenChar, Bool.and_eq_true, decide_eq_true_eq] at h
  have hrange := plain_range h.1.1
  have hne : c.toNat ≠ 0x20 := fun heq => h.1.2 (Char.toNat_inj.mp heq)
  simp [isSpace]
  omega

/-- … so a token is a word … -/
theorem IsToken.isWord (h : IsToken s) : IsWord s :=
  ⟨h.ne_nil, fun c hc => not_isSpace_of_token (h.token c hc)⟩

/-- … without a comma. -/
theorem IsToken.comma_not_mem (h : IsToken s) : ',' ∉ s :=
  fun hmem => absurd (h.token _ hmem) (by decide)

/-- The characters of a token are plain. -/
theorem IsToken.plain (h : IsToken s) : ∀ c ∈ s, isPlain c = true := by
  intro c hc
  have htoken := h.token c hc
  simp only [isTokenChar, Bool.and_eq_true] at htoken
  exact htoken.1.1

/-- A token is a plain text. -/
theorem IsToken.isPlainText (h : IsToken s) : IsPlainText s where
  ne_nil := h.ne_nil
  plain := h.plain
  head c hc := h.isWord.not_space c (List.mem_of_mem_head? hc)
  last c hc := h.isWord.not_space c (List.mem_of_mem_getLast? hc)

/-- Tokens put together. -/
theorem IsToken.append (hs : IsToken s) (ht : IsToken t) : IsToken (s ++ t) where
  ne_nil h := hs.ne_nil (List.append_eq_nil_iff.mp h).1
  token c hc := (List.mem_append.mp hc).elim (hs.token c) (ht.token c)

/-- Plain texts with plain characters between them. -/
theorem IsPlainText.append (hs : IsPlainText s) (hsep : ∀ c ∈ sep, isPlain c = true)
    (ht : IsPlainText t) : IsPlainText (s ++ (sep ++ t)) where
  ne_nil h := hs.ne_nil (List.append_eq_nil_iff.mp h).1
  plain c hc := by
    rcases List.mem_append.mp hc with h | h
    · exact hs.plain c h
    · exact (List.mem_append.mp h).elim (hsep c) (ht.plain c)
  head c hc := by
    rw [List.head?_append_of_ne_nil _ hs.ne_nil] at hc
    exact hs.head c hc
  last c hc := by
    have hne : sep ++ t ≠ [] := fun h => ht.ne_nil (List.append_eq_nil_iff.mp h).2
    rw [List.getLast?_append_of_ne_nil _ hne, List.getLast?_append_of_ne_nil _ ht.ne_nil] at hc
    exact ht.last c hc

/-- There is nothing to strip off a plain text, … -/
theorem IsPlainText.strip_eq (h : IsPlainText s) : strip s = s := strip_eq_self h.head h.last

/-- … no comment to cut off … -/
theorem IsPlainText.takeWhile_hash (h : IsPlainText s) : s.takeWhile (· ≠ '#') = s := by
  rw [List.takeWhile_eq_self_iff]
  intro c hc
  have hne : c ≠ '#' := by
    rintro rfl
    exact absurd (h.plain _ hc) (by decide)
  simpa using hne

/-- … and no label to find. -/
theorem IsPlainText.colon_not_mem (h : IsPlainText s) : ':' ∉ s :=
  fun hmem => absurd (h.plain _ hmem) (by decide)

end Plain

/-! ## Sources of plain lines -/

section Lines

variable {filename : Str}

/-- Without a colon there is no label. -/
theorem labelMatch_eq_none {s : Str} (h : ':' ∉ s) : labelMatch s = none := by
  cases s with
  | nil => rfl
  | cons c s =>
      simp only [labelMatch]
      split
      · split
        next rest heq =>
          have hmem : ':' ∈ ((c :: s).dropWhile isNameChar).dropWhile isSpace := by rw [heq]; simp
          exact absurd ((List.dropWhile_suffix _).subset ((List.dropWhile_suffix _).subset hmem)) h
        next => rfl
      · rfl

/-- A plain line has no labels. -/
theorem leadingLabels_plain {line : Str} (h : IsPlainText line) (fuel : ℕ) :
    leadingLabels fuel line = ([], line) := by
  cases fuel with
  | zero => rfl
  | succ fuel => simp only [leadingLabels, labelMatch_eq_none h.colon_not_mem]

/-- A plain line is one statement. -/
theorem line_plain {line : Str} (h : IsPlainText line) :
    lineLabels line = [] ∧ lineStatement line = line ∧ hasStatement line = true := by
  have htext : lineText line = line := by rw [lineText, h.takeWhile_hash, h.strip_eq]
  have hstatement : lineStatement line = line := by
    rw [lineStatement, htext, leadingLabels_plain h]
  refine ⟨?_, hstatement, ?_⟩
  · rw [lineLabels, htext, leadingLabels_plain h]
  · rw [hasStatement, hstatement]
    simpa using h.ne_nil

/-- Plain lines are statements and define nothing. -/
theorem wellFormed_plain {lines : List Str} (h : ∀ line ∈ lines, IsPlainText line) :
    lines.flatMap lineLabels = [] ∧ WellFormed lines := by
  have hlabels : lines.flatMap lineLabels = [] :=
    List.flatMap_eq_nil_iff.mpr fun line hline => (line_plain (h line hline)).1
  refine ⟨hlabels, ⟨hlabels ▸ List.nodup_nil, fun line hline => ?_⟩⟩
  rw [(line_plain (h line hline)).2.1]
  exact (h line hline).colon_not_mem

/-- The statements of lines that each hold one. -/
def statementsOf : ℕ → ℕ → List Str → List Statement
  | _, _, [] => []
  | lineNumber, address, line :: lines =>
      ⟨lineNumber, line, address⟩ :: statementsOf (lineNumber + 1) (address + 4) lines

/-- Plain lines are statements, one a line. -/
theorem placedStatements_plain {lines : List Str} (h : ∀ line ∈ lines, IsPlainText line)
    (lineNumber address : ℕ) :
    placedStatements lineNumber address lines = statementsOf lineNumber address lines := by
  induction lines generalizing lineNumber address with
  | nil => rfl
  | cons line lines ih =>
      obtain ⟨-, htext, hstatement⟩ := line_plain (h line List.mem_cons_self)
      rw [placedStatements, statementsOf, htext, if_pos hstatement,
        statementCount_of_hasStatement hstatement, ih fun l hl => h l (List.mem_cons_of_mem _ hl)]
      rfl

/-- The layout of plain lines. -/
theorem layout_plain {lines : List Str} (h : ∀ line ∈ lines, IsPlainText line) :
    layout lines = ⟨[], statementsOf 1 0 lines, 4 * lines.length⟩ := by
  have hlabels : placedLabels 0 lines = [] := by
    rw [← List.map_eq_nil_iff (f := Prod.fst), map_fst_placedLabels]
    exact (wellFormed_plain h).1
  have hcount : statementCount lines = lines.length :=
    List.countP_eq_length.mpr fun line hline => (line_plain (h line hline)).2.2
  rw [layout, hlabels, placedStatements_plain h, hcount]

/-- **A source of plain lines** parses into one statement a line. -/
theorem parseSource_plain {lines : List Str} (h : ∀ line ∈ lines, IsPlainText line)
    (hne : lines ≠ []) :
    parseSource (join "\n".toList lines ++ "\n".toList) filename =
      .ok ⟨[], statementsOf 1 0 lines, 4 * lines.length⟩ := by
  have hlines : splitLines (join "\n".toList lines ++ "\n".toList) = lines :=
    splitLines_join (fun l hl c hc => not_isLineBreak_of_plain ((h l hl).plain c hc)) hne
  have hparse := parseSource_ok filename (hlines ▸ (wellFormed_plain h).2)
  rwa [hlines, layout_plain h] at hparse

end Lines

/-! ## Statements of plain tokens -/

section Tokens

variable {tokens : List Str}

/-- Joined tokens split at their commas, each but the first with a space in front. -/
theorem splitOn_join_tokens {token : Str} (h : ∀ t ∈ token :: tokens, IsToken t) :
    (join ", ".toList (token :: tokens)).splitOn ',' = token :: tokens.map (' ' :: ·) := by
  induction tokens generalizing token with
  | nil =>
      rw [join_singleton]
      exact List.splitOn_eq_singleton (h token (by simp)).comma_not_mem
  | cons next tokens ih =>
      have hjoin : join ", ".toList (token :: next :: tokens) =
          token ++ ',' :: ' ' :: join ", ".toList (next :: tokens) := join_cons_cons ..
      rw [hjoin, List.splitOn_append_cons_self_of_not_mem (h token (by simp)).comma_not_mem,
        List.splitOn_cons_eq_if_modifyHead, ih fun t ht => h t (List.mem_cons_of_mem _ ht)]
      rfl

/-- Tokens joined are a plain text. -/
theorem isPlainText_join {token : Str} (h : ∀ t ∈ token :: tokens, IsToken t) :
    IsPlainText (join ", ".toList (token :: tokens)) := by
  induction tokens generalizing token with
  | nil =>
      rw [join_singleton]
      exact (h token (by simp)).isPlainText
  | cons next tokens ih =>
      rw [join_cons_cons]
      exact (h token (by simp)).isPlainText.append (List.all_eq_true.mp (by decide))
        (ih fun t ht => h t (List.mem_cons_of_mem _ ht))

/-- The blank in front of a token is stripped. -/
theorem strip_space_token {t : Str} (h : IsToken t) : strip (' ' :: t) = t :=
  (strip_cons_space t).trans h.isWord.strip_eq

/-- **The operands of joined tokens are the tokens.** -/
theorem operandsOf_join {token : Str} (h : ∀ t ∈ token :: tokens, IsToken t) :
    operandsOf (join ", ".toList (token :: tokens)) = token :: tokens := by
  have hplain := isPlainText_join h
  have hnil : (join ", ".toList (token :: tokens)).isEmpty = false := by simpa using hplain.ne_nil
  have hstrip : (tokens.map (' ' :: ·)).map strip = tokens := by
    rw [List.map_map]
    refine (List.map_congr_left fun t ht => ?_).trans (List.map_id tokens)
    exact strip_space_token (h t (List.mem_cons_of_mem _ ht))
  rw [operandsOf, hplain.strip_eq, hnil, if_neg Bool.false_ne_true, splitOn_join_tokens h,
    List.map_cons, hstrip, (h token (by simp)).isWord.strip_eq]

/-- The operands pass the count. -/
theorem splitOperands_join {statement : Statement} {filename : Str} {count : ℕ}
    (operands : List.Vector Str count) (hne : operands.toList ≠ [])
    (h : ∀ t ∈ operands.toList, IsToken t) :
    splitOperands statement filename (join ", ".toList operands.toList) count = .ok operands := by
  obtain ⟨l, hl⟩ := operands
  obtain ⟨token, tokens, rfl⟩ := List.exists_cons_of_ne_nil hne
  have hops : operandsOf (join ", ".toList (token :: tokens)) = token :: tokens :=
    operandsOf_join h
  have hnonempty : ¬ (token :: tokens).any List.isEmpty := by
    simp only [List.any_eq_true, not_exists, not_and, List.isEmpty_iff]
    exact fun t ht => (h t ht).ne_nil
  unfold splitOperands
  simp only [List.Vector.toList, hops]
  rw [dif_pos ⟨hl, hnonempty⟩]

variable (op : Opcode)

/-- A mnemonic is a token, … -/
theorem isToken_opcodeName : IsToken (opcodeName op) := by
  cases op <;> exact .of_all (by decide) (by decide)

/-- … in capitals, … -/
theorem upper_opcodeName : upper (opcodeName op) = opcodeName op := by
  cases op <;> decide

/-- … that names its opcode … -/
theorem opcodeNamed_opcodeName : opcodeNamed (opcodeName op) = some op := by
  cases op <;> decide

/-- … and is neither `RET` nor the directive. -/
theorem opcodeName_ne : opcodeName op ≠ "RET".toList ∧ opcodeName op ≠ ".WORD".toList := by
  cases op <;> decide

/-- A mnemonic and its tokens are split where they were joined. -/
theorem expand_tokens {token : Str} (h : ∀ t ∈ token :: tokens, IsToken t) :
    expand (splitWord (opcodeName op ++ ' ' :: join ", ".toList (token :: tokens))) =
      some (opcodeName op, join ", ".toList (token :: tokens)) := by
  have hplain := isPlainText_join h
  rw [splitWord_word_space (isToken_opcodeName op).isWord hplain.ne_nil hplain.head]
  simp only [expand, upper_opcodeName, if_neg (opcodeName_ne op).1, List.headD_cons]

/-- **A mnemonic and joined tokens** are encoded from the tokens. -/
theorem encodeStatement_tokens {token : Str} (h : ∀ t ∈ token :: tokens, IsToken t)
    (line address : ℕ) (filename : Str) (labels : Labels) :
    let text := opcodeName op ++ ' ' :: join ", ".toList (token :: tokens)
    encodeStatement ⟨line, text, address⟩ filename labels =
      encodeOpcode ⟨line, text, address⟩ filename (join ", ".toList (token :: tokens)) labels
        op := by
  intro text
  simp only [encodeStatement, text, expand_tokens op h, if_neg (opcodeName_ne op).2,
    opcodeNamed_opcodeName]

/-- A statement of plain tokens is a plain text. -/
theorem isPlainText_tokens {token : Str} (h : ∀ t ∈ token :: tokens, IsToken t) :
    IsPlainText (opcodeName op ++ ' ' :: join ", ".toList (token :: tokens)) := by
  have hspace : ∀ c ∈ [' '], isPlain c = true := List.all_eq_true.mp (by decide)
  exact (isToken_opcodeName op).isPlainText.append hspace (isPlainText_join h)

end Tokens

end Mini32.Toolchain
