import Mini32.Lib.Fallible
import Mini32.Toolchain.Encoding
import Mini32.Toolchain.Layout

/-!
# Assembly is compositional

Two accepted sources with different labels, one after the other, assemble to the
concatenation of their images.

A statement's code depends on its text and on the distances to its labels
(`encodeStatement_within`), and parsing the second source behind the first shifts its labels
and its statements by one and the same amount (`layout_append`).  Each source is accepted on
its own, so it refers to no label of the other; that the labels differ keeps a reference from
finding the wrong one.

The sources are joined by a line feed, which may leave an empty line between them (`gap`).
It takes a line number and nothing else.
-/

namespace Mini32.Toolchain

open Py Fallible

/-! ## What the code of a statement depends on -/

/-- The same text, and the labels at the same distances. -/
structure SameTargets (statement statement' : Statement) (labels labels' : Labels) : Prop where
  text : statement'.text = statement.text
  targets : ∀ label target, labels.lookup label = some target →
    ∃ target', labels'.lookup label = some target' ∧
      (target' : ℤ) - statement'.address = target - statement.address

section Within

variable (statement statement' : Statement) (filename filename' : Str)

/-- A register is read from its token alone, … -/
theorem parseRegister_within (token : Str) :
    Within (parseRegister statement filename token) (parseRegister statement' filename' token) := by
  intro r h
  unfold parseRegister at h ⊢
  simp only at h ⊢
  cases hlookup : registerAliases.lookup (lower (strip token)) with
  | some index =>
      rw [hlookup] at h
      exact h
  | none =>
      rw [hlookup] at h
      simp only at h ⊢
      cases hmatch : registerMatch (lower (strip token)) with
      | none =>
          rw [hmatch] at h
          nomatch h
      | some digits =>
          rw [hmatch] at h
          simp only at h ⊢
          cases hint : int10 digits with
          | none =>
              rw [hint] at h
              nomatch h
          | some value =>
              rw [hint] at h
              simp only at h ⊢
              split at h
              · next hrange => rw [if_pos hrange, h]
              · nomatch h

/-- … and so is a number; … -/
theorem parseNumber_within (token : Str) :
    Within (parseNumber statement filename token) (parseNumber statement' filename' token) :=
  fun _ h => parseNumber_eq_ok.mpr (parseNumber_eq_ok.mp h)

/-- … only messages depend on the place of the statement. -/
theorem checkedRange_within (value minimum maximum : ℤ) (description : Str) :
    Within (checkedRange statement filename value minimum maximum description)
      (checkedRange statement' filename' value minimum maximum description) :=
  fun _ h => checkedRange_eq_ok.mpr (checkedRange_eq_ok.mp h)

/-- The operands of a text, … -/
theorem splitOperands_within (text : Str) (count : ℕ) :
    Within (splitOperands statement filename text count)
      (splitOperands statement' filename' text count) := by
  intro operands h
  unfold splitOperands at h ⊢
  split at h
  · next hcount => rw [dif_pos hcount, h]
  · nomatch h

/-- … a memory operand, … -/
theorem parseMemoryOperand_within (token : Str) :
    Within (parseMemoryOperand statement filename token)
      (parseMemoryOperand statement' filename' token) := by
  unfold parseMemoryOperand
  cases memoryMatch token with
  | none => exact .error _ _
  | some groups =>
      refine .bind (parseNumber_within _ _ _ _ _) fun number => ?_
      refine .bind (checkedRange_within _ _ _ _ _ _ _ _) fun offset => ?_
      exact .bind (parseRegister_within _ _ _ _ _) fun base => .pure _

/-- … and every format without a target, one by one. -/
theorem encodeBare_within (text : Str) (op : Opcode) :
    Within (encodeBare statement filename text op) (encodeBare statement' filename' text op) :=
  .bind (splitOperands_within _ _ _ _ _ _) fun _ => .pure _

/-- The directive. -/
theorem encodeWord_within (text : Str) :
    Within (encodeWord statement filename text) (encodeWord statement' filename' text) :=
  .bind (parseNumber_within _ _ _ _ _) fun _ =>
    .bind (checkedRange_within _ _ _ _ _ _ _ _) fun _ => .pure _

/-- Three registers. -/
theorem encodeR_within (text : Str) (op : Opcode) :
    Within (encodeR statement filename text op) (encodeR statement' filename' text op) :=
  .bind (splitOperands_within _ _ _ _ _ _) fun _ =>
    .bind (parseRegister_within _ _ _ _ _) fun _ =>
      .bind (parseRegister_within _ _ _ _ _) fun _ =>
        .bind (parseRegister_within _ _ _ _ _) fun _ => .pure _

/-- `LUI`. -/
theorem encodeLui_within (text : Str) :
    Within (encodeLui statement filename text) (encodeLui statement' filename' text) :=
  .bind (splitOperands_within _ _ _ _ _ _) fun _ =>
    .bind (parseNumber_within _ _ _ _ _) fun _ =>
      .bind (checkedRange_within _ _ _ _ _ _ _ _) fun _ =>
        .bind (parseRegister_within _ _ _ _ _) fun _ => .pure _

/-- Two registers and a number. -/
theorem encodeI_within (text : Str) (op : Opcode) (minimum maximum : ℤ) (description : Str) :
    Within (encodeI statement filename text op minimum maximum description)
      (encodeI statement' filename' text op minimum maximum description) :=
  .bind (splitOperands_within _ _ _ _ _ _) fun _ =>
    .bind (parseNumber_within _ _ _ _ _) fun _ =>
      .bind (checkedRange_within _ _ _ _ _ _ _ _) fun _ =>
        .bind (parseRegister_within _ _ _ _ _) fun _ =>
          .bind (parseRegister_within _ _ _ _ _) fun _ => .pure _

/-- A register and a memory operand. -/
theorem encodeMemory_within (text : Str) (op : Opcode) :
    Within (encodeMemory statement filename text op) (encodeMemory statement' filename' text op) :=
  .bind (splitOperands_within _ _ _ _ _ _) fun _ =>
    .bind (parseMemoryOperand_within _ _ _ _ _) fun _ =>
      .bind (parseRegister_within _ _ _ _ _) fun _ => .pure _

/-- `JR`. -/
theorem encodeJr_within (text : Str) :
    Within (encodeJr statement filename text) (encodeJr statement' filename' text) :=
  .bind (splitOperands_within _ _ _ _ _ _) fun _ =>
    .bind (parseRegister_within _ _ _ _ _) fun _ => .pure _

variable {statement statement'} {labels labels' : Labels}

/-- A displacement is a number or the distance to a label. -/
theorem resolveDisplacement_within (h : SameTargets statement statement' labels labels')
    (token : Str) (bits : ℕ) :
    Within (resolveDisplacement statement filename token bits labels)
      (resolveDisplacement statement' filename' token bits labels') := by
  unfold resolveDisplacement
  simp only
  cases int0 token with
  | some value => exact checkedRange_within _ _ _ _ _ _ _ _
  | none =>
      cases hlookup : labels.lookup token with
      | none => exact .error _ _
      | some target =>
          obtain ⟨target', hlookup', hdistance⟩ := h.targets token target hlookup
          have hdelta : (target' : ℤ) - (statement'.address + 4) =
              target - (statement.address + 4) := by
            omega
          simp only [hlookup', hdelta]
          split
          · exact .error _ _
          · exact checkedRange_within _ _ _ _ _ _ _ _

/-- A branch depends on the distance to its target, … -/
theorem encodeBranch_within (h : SameTargets statement statement' labels labels') (text : Str)
    (op : Opcode) : Within (encodeBranch statement filename text op labels)
      (encodeBranch statement' filename' text op labels') :=
  .bind (splitOperands_within _ _ _ _ _ _) fun _ =>
    .bind (resolveDisplacement_within _ _ h _ _) fun _ =>
      .bind (parseRegister_within _ _ _ _ _) fun _ =>
        .bind (parseRegister_within _ _ _ _ _) fun _ => .pure _

/-- … and so does a jump. -/
theorem encodeJump_within (h : SameTargets statement statement' labels labels') (text : Str)
    (op : Opcode) : Within (encodeJump statement filename text op labels)
      (encodeJump statement' filename' text op labels') :=
  .bind (splitOperands_within _ _ _ _ _ _) fun _ =>
    .bind (resolveDisplacement_within _ _ h _ _) fun _ => .pure _

/-- The code of a statement with a known mnemonic. -/
theorem encodeOpcode_within (h : SameTargets statement statement' labels labels') (text : Str)
    (op : Opcode) : Within (encodeOpcode statement filename text labels op)
      (encodeOpcode statement' filename' text labels' op) := by
  cases op with
  | nop | halt => exact encodeBare_within _ _ _ _ _ _
  | add | sub | and | or | xor | slt | shl | shr => exact encodeR_within _ _ _ _ _ _
  | addi | andi | ori | xori => exact encodeI_within _ _ _ _ _ _ _ _ _
  | lui => exact encodeLui_within _ _ _ _ _
  | lw | sw => exact encodeMemory_within _ _ _ _ _ _
  | beq | bne | blt | bge => exact encodeBranch_within _ _ h _ _
  | j | jal => exact encodeJump_within _ _ h _ _
  | jr => exact encodeJr_within _ _ _ _ _

/-- **A statement's code depends on its text and on the distances to its labels.** -/
theorem encodeStatement_within (h : SameTargets statement statement' labels labels') :
    Within (encodeStatement statement filename labels)
      (encodeStatement statement' filename' labels') := by
  unfold encodeStatement
  simp only [h.text]
  cases hexpand : expand (splitWord statement.text) with
  | none => exact .error _ _
  | some piece =>
      obtain ⟨mnemonic, text⟩ := piece
      simp only
      split
      · exact encodeWord_within _ _ _ _ _
      · cases hop : opcodeNamed mnemonic with
        | none => exact .error _ _
        | some op => exact encodeOpcode_within _ _ h _ op

end Within

/-- Statements that move along with their labels keep their codes. -/
theorem mapM_encodeStatement_moved {statements : List Statement} {labels labels' : Labels}
    {move : Statement → Statement} (filename : Str)
    (h : ∀ statement, SameTargets statement (move statement) labels labels') :
    Within (statements.mapM fun statement => encodeStatement statement filename labels)
      ((statements.map move).mapM fun statement => encodeStatement statement filename labels') :=
  .mapM fun statement _ => encodeStatement_within filename filename (h statement)

/-! ## Two sources one after the other -/

section Append

variable (lines lines' : List Str)

/-- In front of other lines the labels are where they were. -/
theorem sameTargets_left (statement : Statement) (labels labels' : Labels) :
    SameTargets statement statement labels (labels ++ labels') where
  text := rfl
  targets label target h := ⟨target, by rw [List.lookup_append, h]; rfl, rfl⟩

/-- Behind other lines that define none of them the labels move with the statements. -/
theorem sameTargets_right (statement : Statement) {labels labels' : Labels} (k d : ℕ)
    (hdisjoint : List.Disjoint (labels.map Prod.fst) (labels'.map Prod.fst)) :
    SameTargets statement
      { statement with line := k + statement.line, address := d + statement.address }
      labels' (labels ++ labels'.map fun p => (p.1, d + p.2)) where
  text := rfl
  targets label target h := by
    have hmem : label ∈ labels'.map Prod.fst := lookup_isSome_iff.mp (by rw [h]; rfl)
    have hnone : labels.lookup label = none := lookup_eq_none_iff.mpr fun h => hdisjoint h hmem
    refine ⟨d + target, ?_, ?_⟩
    · rw [List.lookup_append, hnone, lookup_add, h]
      rfl
    · push_cast
      exact add_sub_add_left_eq_sub _ _ _

/-- An empty line between two blocks takes a line number and nothing else. -/
theorem layout_append {gap : List Str} (hgap : gap = [] ∨ gap = [[]]) :
    placedLabels 0 (lines ++ (gap ++ lines')) = placedLabels 0 lines ++
        (placedLabels 0 lines').map (fun p => (p.1, 4 * statementCount lines + p.2)) ∧
      placedStatements 1 0 (lines ++ (gap ++ lines')) = placedStatements 1 0 lines ++
        (placedStatements 1 0 lines').map fun statement =>
          { statement with
            line := lines.length + gap.length + statement.line
            address := 4 * statementCount lines + statement.address } := by
  have hlabels : ∀ address, placedLabels address (gap ++ lines') = placedLabels address lines' := by
    rcases hgap with rfl | rfl <;> exact fun _ => rfl
  have hstatements : ∀ number address, placedStatements number address (gap ++ lines') =
      placedStatements (number + gap.length) address lines' := by
    rcases hgap with rfl | rfl <;> exact fun _ _ => rfl
  constructor
  · rw [placedLabels_append, hlabels, ← placedLabels_add, Nat.zero_add, Nat.add_zero]
  · have hnumber : 1 + lines.length + gap.length = lines.length + gap.length + 1 := by omega
    rw [placedStatements_append, hstatements, ← placedStatements_add, Nat.zero_add, hnumber]
    rfl

variable {lines lines'} in
/-- Well-formed sources with different labels are well formed one after the other. -/
theorem WellFormed.append {gap : List Str} (hgap : gap = [] ∨ gap = [[]]) (h : WellFormed lines)
    (h' : WellFormed lines')
    (hdisjoint : List.Disjoint (lines.flatMap lineLabels) (lines'.flatMap lineLabels)) :
    WellFormed (lines ++ (gap ++ lines')) where
  labels := by
    have hlabels : (gap ++ lines').flatMap lineLabels = lines'.flatMap lineLabels := by
      rcases hgap with rfl | rfl <;> rfl
    rw [List.flatMap_append, hlabels]
    exact h.labels.append h'.labels hdisjoint
  statements line hline := by
    rcases List.mem_append.mp hline with hline | hline
    · exact h.statements line hline
    rcases List.mem_append.mp hline with hline | hline
    · rcases hgap with rfl | rfl
      · nomatch hline
      · rw [List.mem_singleton.mp hline]
        exact List.not_mem_nil
    · exact h'.statements line hline

end Append

/-- **Assembly is position independent and compositional.**  Two accepted sources that define
different labels assemble, one after the other, to their images one after the other. -/
theorem assembleText_append {source source' filename : Str} {image image' : List (BitVec 8)}
    (h : assembleText source filename = .ok image)
    (h' : assembleText source' filename = .ok image')
    (hdisjoint : List.Disjoint (definedLabels source filename) (definedLabels source' filename)) :
    assembleText (source ++ '\n' :: source') filename = .ok (image ++ image') := by
  obtain ⟨hwell, words, parts, hwords, hparts, rfl⟩ := assembleText_eq_ok.mp h
  obtain ⟨hwell', words', parts', hwords', hparts', rfl⟩ := assembleText_eq_ok.mp h'
  rw [definedLabels_eq filename hwell, definedLabels_eq filename hwell'] at hdisjoint
  obtain ⟨gap, hgap, hlines⟩ := splitLines_append source source'
  obtain ⟨hlabels, hstatements⟩ := layout_append (splitLines source) (splitLines source') hgap
  have hkeys : List.Disjoint ((placedLabels 0 (splitLines source)).map Prod.fst)
      ((placedLabels 0 (splitLines source')).map Prod.fst) := by
    rwa [map_fst_placedLabels, map_fst_placedLabels]
  -- each block keeps its codes: the first has new labels behind it, the second has moved
  have hfirst := mapM_encodeStatement_moved filename (fun statement => sameTargets_left statement _
    ((placedLabels 0 (splitLines source')).map fun p =>
      (p.1, 4 * statementCount (splitLines source) + p.2))) words hwords
  have hsecond := mapM_encodeStatement_moved filename (fun statement => sameTargets_right statement
    ((splitLines source).length + gap.length) (4 * statementCount (splitLines source)) hkeys)
    words' hwords'
  rw [List.map_id'] at hfirst
  refine assembleText_eq_ok.mpr ⟨?_, words ++ words', parts ++ parts', ?_, ?_, ?_⟩
  · rw [hlines]
    exact hwell.append hgap hwell' hdisjoint
  · rw [hlines, hlabels, hstatements]
    exact mapM_append hfirst hsecond
  · exact mapM_append hparts hparts'
  · exact List.flatten_append

/-- A loop, and behind it a jump forward over a statement. -/
theorem assembleText_append_blocks :
    assembleText ("loop: ADDI r1, r1, -1\nBNE r1, zero, loop\n".toList ++
        '\n' :: "J end # over\nNOP\nend: HALT".toList) [] =
      .ok ([0xff, 0xff, 0x21, 0x24, 0xfe, 0xff, 0x20, 0x44] ++
        [0x01, 0x00, 0x00, 0x50, 0x00, 0x00, 0x00, 0x00, 0x00, 0x00, 0x00, 0x5c]) :=
  assembleText_append (by decide +kernel) (by decide +kernel)
    (List.disjoint_left.mpr (by decide +kernel))
end Mini32.Toolchain
