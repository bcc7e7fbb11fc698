import Mini32.Toolchain.DigitLimit
import Mini32.Toolchain.Labels

/-!
# The contract of label references

In the image of an accepted source every label reference reaches its label
(`step_reaches`).  A source with a reference that cannot be encoded is rejected
(`sourceFault_ne_none`), but not always with an `AssemblyError`: an integer over Python's
digit limit that is met first raises a bare `ValueError`.

`labelContract_iff` says that nothing else breaks the contract.  Its condition is about the
text: the source has a bad reference, its labels and colons are as they should be, and the
first statement that is not in order has an operand over the limit, with readable ones
examined before it (`SourceLimitFirst`).  The last section is a family of sources that meet
it, a register name of so many zeros in front of a jump that goes nowhere.
-/

namespace Mini32.Toolchain

open Py Fallible

/-! ## The contract -/

/-- A source with a label reference that cannot be encoded. -/
inductive BadReference (lines : List Str) : Prop
  /-- The target is neither a number nor a label. -/
  | undefined {statement : Statement} {token : Str} {bits : ℕ}
      (hstatement : statement ∈ placedStatements 1 0 lines)
      (hoperand : TargetOperand statement token bits) (hnumber : int0 token = none)
      (hlabel : token ∉ lines.flatMap lineLabels) : BadReference lines
  | twice (h : ¬ (lines.flatMap lineLabels).Nodup) : BadReference lines
  /-- The target is more words away than the field can say. -/
  | far {statement : Statement} {token : Str} {bits target : ℕ} {d : ℤ}
      (hstatement : statement ∈ placedStatements 1 0 lines)
      (hoperand : TargetOperand statement token bits)
      (hlabel : (token, target) ∈ placedLabels 0 lines)
      (hdistance : 4 * d = (target : ℤ) - (statement.address + 4))
      (hfar : d < -2 ^ (bits - 1) ∨ 2 ^ (bits - 1) - 1 < d) : BadReference lines

/-- Label references reach their label, and one that cannot is an `AssemblyError`. -/
structure LabelContract (source filename : Str) : Prop where
  /-- A target of an accepted source that is not a number is defined on some line. -/
  defined {image parsed statement token bits} (h : assembleText source filename = .ok image)
    (hparse : parseSource source filename = .ok parsed) (hstatement : statement ∈ parsed.statements)
    (hoperand : TargetOperand statement token bits) (hnumber : int0 token = none) :
    ∃ before line after, splitLines source = before ++ line :: after ∧ token ∈ lineLabels line
  /-- The address of a label is four times the number of statements in front of it. -/
  address {parsed before line after label} (hparse : parseSource source filename = .ok parsed)
    (hlines : splitLines source = before ++ line :: after) (hlabel : label ∈ lineLabels line) :
    parsed.labels.lookup label = some (4 * statementCount before)
  /-- The simulator goes there. -/
  reaches {image parsed statement token bits before line after}
    (h : assembleText source filename = .ok image) (hfits : image.length ≤ 64 * 1024)
    (hparse : parseSource source filename = .ok parsed) (hstatement : statement ∈ parsed.statements)
    (hoperand : TargetOperand statement token bits)
    (hlines : splitLines source = before ++ line :: after) (hlabel : token ∈ lineLabels line)
    (rom : Cpp.Rom) (bus : Cpp.Bus) (cpu : Cpp.CpuCore)
    (hload : rom.loadBytes 0 image = some bus.rom) (hfetch : cpu.microstate = .fetch)
    (hpc : cpu.pc.toNat = statement.address) (htaken : Transfers statement filename cpu.arch) :
    ∃ cpu' bus', cpu.step bus = .ok (.retired, cpu', bus') ∧
      cpu'.pc.toNat = 4 * statementCount before
  rejects (h : BadReference (splitLines source)) :
    ∃ text, assembleText source filename = .error (.assemblyError text)

section Contract

variable {source filename : Str} {lines : List Str}

/-- The checks on a statement of a known mnemonic are those on its operands. -/
theorem statementFault_of_reads {statement : Statement} {labels : Labels} {op : Opcode}
    {operands : List Str} (h : Reads statement op operands) :
    statementFault labels statement = opcodeFault labels statement.address operands op := by
  obtain ⟨mnemonic, text, hexpand, hop, rfl⟩ := h
  simp only [statementFault, hexpand, if_neg (ne_directive hop), hop]

/-- The displacement is checked before anything else about the operands. -/
theorem statementFault_ne_none {statement : Statement} {labels : Labels} {token : Str} {bits : ℕ}
    (hoperand : TargetOperand statement token bits)
    (h : displacementFault labels statement.address bits token ≠ none) :
    statementFault labels statement ≠ none := by
  -- it is the last operand of a branch and the only one of a jump
  have hmem {kinds : List OperandKind} {tokens : List Str}
      (hnone : operandsFault labels statement.address kinds tokens = none)
      (hp : (.target bits, token) ∈ kinds.zip tokens) : False :=
    h ((operandsFault_eq_none hnone).2.2 (.target bits, token) hp)
  cases hoperand with
  | branch cond a b hreads =>
      rw [statementFault_of_reads hreads]
      refine fun hnone => hmem hnone ?_
      cases cond <;> simp [Isa.Cond.opcode, Mnemonic.kinds]
  | j hreads | jal hreads =>
      rw [statementFault_of_reads hreads]
      exact fun hnone => hmem hnone (by simp [Mnemonic.kinds])

/-- **A bad reference never passes.** -/
theorem sourceFault_ne_none (h : BadReference (splitLines source)) : sourceFault source ≠ none := by
  unfold sourceFault
  by_cases hwell : WellFormed (splitLines source)
  · rw [if_pos hwell]
    intro hnone
    rw [List.findSome?_eq_none_iff] at hnone
    cases h with
    | @undefined statement token bits hstatement hoperand hnumber hlabel =>
        refine statementFault_ne_none hoperand ?_ (hnone statement hstatement)
        have hlookup : (placedLabels 0 (splitLines source)).lookup token = none := by
          rw [lookup_eq_none_iff, map_fst_placedLabels]
          exact hlabel
        simp only [displacementFault, hnumber, hlookup]
        nofun
    | twice hdup => exact hdup hwell.labels
    | @far statement token bits target d hstatement hoperand hlabel hdistance hfar =>
        refine statementFault_ne_none hoperand ?_ (hnone statement hstatement)
        have hnodup : ((placedLabels 0 (splitLines source)).map Prod.fst).Nodup := by
          rw [map_fst_placedLabels]
          exact hwell.labels
        have hname : token ∈ (splitLines source).flatMap lineLabels := by
          rw [← map_fst_placedLabels 0]
          exact List.mem_map_of_mem hlabel
        obtain ⟨_, line, _, -, hline⟩ := exists_line hname
        -- Python divides the distance before it compares it
        have hd : ((target : ℤ) - (statement.address + 4)) / 4 = d := by omega
        simp only [displacementFault, int0_label hline, lookup_of_mem hnodup hlabel, hd]
        split
        · nofun
        · rw [rangeFault, if_neg (by omega)]
          split <;> nofun
  · rw [if_neg hwell]
    nofun

/-- The code of a statement in the image. -/
theorem exists_code {image : List (BitVec 8)} {statement : Statement}
    (h : assembleText source filename = .ok image)
    (hstatement : statement ∈ placedStatements 1 0 (splitLines source)) :
    ∃ (i : ℕ) (words : List ℕ) (parts : List (List (BitVec 8))) (word : ℕ),
      statement.address = 4 * i ∧ words.length = statementCount (splitLines source) ∧
      words.mapM toBytes = .ok parts ∧ parts.flatten = image ∧ words[i]? = some word ∧
      encodeStatement statement filename (placedLabels 0 (splitLines source)) = .ok word := by
  obtain ⟨-, words, parts, hwords, hparts, himage⟩ := assembleText_eq_ok.mp h
  obtain ⟨i, hi⟩ := List.getElem?_of_mem hstatement
  obtain ⟨word, hword, hcode⟩ := getElem?_of_mapM hwords hi
  have haddress := address_placedStatements 0 1 _ hi
  rw [Nat.zero_add] at haddress
  have hlength := length_of_mapM hwords
  rw [length_placedStatements] at hlength
  exact ⟨i, words, parts, word, haddress, hlength, hparts, himage, hword, hcode⟩

/-- **Label references reach their label.** -/
theorem step_reaches {image : List (BitVec 8)} {statement : Statement} {token : Str} {bits : ℕ}
    {before after : List Str} {line : Str} {rom : Cpp.Rom} {bus : Cpp.Bus} {cpu : Cpp.CpuCore}
    (h : assembleText source filename = .ok image) (hfits : image.length ≤ 64 * 1024)
    (hstatement : statement ∈ placedStatements 1 0 (splitLines source))
    (hoperand : TargetOperand statement token bits)
    (hlines : splitLines source = before ++ line :: after) (hlabel : token ∈ lineLabels line)
    (hload : rom.loadBytes 0 image = some bus.rom) (hfetch : cpu.microstate = .fetch)
    (hpc : cpu.pc.toNat = statement.address) (htaken : Transfers statement filename cpu.arch) :
    ∃ cpu' bus', cpu.step bus = .ok (.retired, cpu', bus') ∧
      cpu'.pc.toNat = 4 * statementCount before := by
  obtain ⟨hwell, -⟩ := assembleText_eq_ok.mp h
  obtain ⟨i, words, parts, word, haddress, hlength, hparts, rfl, hi, hword⟩ :=
    exists_code h hstatement
  have hlookup : (placedLabels 0 (splitLines source)).lookup token =
      some (4 * statementCount before) := by
    rw [hlines] at hwell ⊢
    exact lookup_placedLabels hwell hlabel
  obtain ⟨instr, e, rfl, hx, hhalt, hnext⟩ := execute_reaches Cpp.Bus.busModel bus hoperand htaken
    (int0_label hlabel) hlookup hword hpc
  have hcode := fetch32_image hparts hi hfits hload (hpc.trans haddress)
  rw [BitVec.ofNat_toNat, BitVec.setWidth_eq] at hcode
  obtain ⟨cpu', bus', hstep, hpc'⟩ := step_retires hfetch hcode hx hhalt
  refine ⟨cpu', bus', hstep, ?_⟩
  -- the label is in front of some statement of the image or at its end
  have hcount : 4 * statementCount before ≤ 64 * 1024 := by
    have hle : statementCount before ≤ statementCount (splitLines source) := by
      rw [hlines, statementCount_append]
      exact Nat.le_add_right _ _
    rw [length_image hparts, hlength] at hfits
    exact (Nat.mul_le_mul_left 4 hle).trans hfits
  rw [hpc', hnext, BitVec.toNat_ofNat]
  exact Nat.mod_eq_of_lt (by omega)

/-- **Label references reach their label, and a bad one is an `AssemblyError`**, except in
the sources with a bad one in which an integer over the digit limit comes first. -/
theorem labelContract_iff (source filename : Str) : LabelContract source filename ↔
    ¬ (BadReference (splitLines source) ∧ SourceLimitFirst (splitLines source)) := by
  rw [not_and, ← sourceFault_eq_tooLong_iff]
  have hfailure := failure_assembleText source filename
  constructor
  · intro hcontract hbad
    obtain ⟨text, htext⟩ := hcontract.rejects hbad
    rw [htext] at hfailure
    rw [← hfailure]
    nofun
  · intro hcondition
    refine ⟨?_, ?_, ?_, ?_⟩
    · intro image parsed statement token bits h hparse hstatement hoperand hnumber
      obtain ⟨-, rfl⟩ := (parseSource_eq_ok filename).mp hparse
      apply exists_line
      by_contra hlabel
      apply sourceFault_ne_none (.undefined hstatement hoperand hnumber hlabel)
      rw [← hfailure, h]
      rfl
    · intro parsed before line after label hparse hlines hlabel
      obtain ⟨hwell, rfl⟩ := (parseSource_eq_ok filename).mp hparse
      rw [hlines] at hwell ⊢
      exact lookup_placedLabels hwell hlabel
    · intro image parsed statement token bits before line after h hfits hparse hstatement hoperand
        hlines hlabel rom bus cpu hload hfetch hpc htaken
      obtain ⟨-, rfl⟩ := (parseSource_eq_ok filename).mp hparse
      exact step_reaches h hfits hstatement hoperand hlines hlabel hload hfetch hpc htaken
    · intro hbad
      have hnone := sourceFault_ne_none hbad
      have hlong := hcondition hbad
      -- it is some fault, none over the digit limit and none of Python's own
      have hinternal := sourceFault_ne_internal source
      have hmalformed : sourceFault source = some .malformed := by
        cases hfault : sourceFault source with
        | none => exact absurd hfault hnone
        | some fault =>
            cases fault with
            | malformed => rfl
            | tooLong => exact absurd hfault hlong
            | internal => exact absurd hfault hinternal
      obtain ⟨error, herror, hkind⟩ :=
        (failure_eq_some_iff PyError.fault).mp (hfailure.trans hmalformed)
      cases error with
      | assemblyError text => exact ⟨text, herror⟩
      | _ => nomatch hkind

end Contract

/-! ### An integer over the digit limit -/

section LongRegister

variable {n : ℕ}

/-- A statement of plain tokens is read as they stand. -/
theorem reads_tokens (op : Opcode) {token : Str} {tokens : List Str}
    (h : ∀ t ∈ token :: tokens, IsToken t) (lineNumber address : ℕ) :
    Reads ⟨lineNumber, opcodeName op ++ ' ' :: join ", ".toList (token :: tokens), address⟩ op
      (token :: tokens) :=
  ⟨opcodeName op, join ", ".toList (token :: tokens), expand_tokens op h, opcodeNamed_opcodeName op,
    operandsOf_join h⟩

/-- `r000…0` -/
def longRegister (n : ℕ) : Str := 'r' :: List.replicate n '0'

/-- The register name is a plain token. -/
theorem isToken_longRegister : IsToken (longRegister n) where
  ne_nil := List.cons_ne_nil _ _
  token c hc := by
    rcases List.mem_cons.mp hc with rfl | hc
    · decide
    · rw [List.eq_of_mem_replicate hc]
      decide

/-- It is register zero as far as it can be converted. -/
theorem registerFault_longRegister (h : maxStrDigits < n) :
    registerFault (longRegister n) = some .tooLong := by
  have hlower : lower (strip (longRegister n)) = longRegister n := by
    rw [isToken_longRegister.isWord.strip_eq, lower, longRegister, List.map_cons,
      List.map_replicate]
    rfl
  have halias : registerAliases.lookup (longRegister n) = none := by
    obtain ⟨m, rfl⟩ := Nat.exists_eq_add_one_of_ne_zero (Nat.ne_of_gt (Nat.zero_lt_of_lt h))
    rfl
  have hmatch : registerMatch (longRegister n) = some (List.replicate n '0') := by
    have hne : List.replicate n '0' ≠ [] := by
      rw [Ne, List.replicate_eq_nil_iff]
      omega
    have hall : (List.replicate n '0').all (fun c => (decimalValue c).isSome) = true := by
      rw [List.all_eq_true]
      intro c hc
      rw [List.eq_of_mem_replicate hc]
      decide
    exact if_pos ⟨hne, hall⟩
  simp only [registerFault, hlower, halias, hmatch, Option.isSome_none, Bool.false_eq_true,
    if_false, List.length_replicate, if_pos h]

/-- A jump to a register of that name, and behind it a jump to no label. -/
def longRegisterLines (n : ℕ) : List Str :=
  [opcodeName .jr ++ ' ' :: join ", ".toList [longRegister n],
    opcodeName .j ++ ' ' :: join ", ".toList ["nowhere".toList]]

/-- The source text of these lines. -/
def longRegisterSource (n : ℕ) : Str := join "\n".toList (longRegisterLines n) ++ "\n".toList

/-- The operands of the two lines are tokens. -/
theorem isToken_operands :
    (∀ t ∈ [longRegister n], IsToken t) ∧ ∀ t ∈ ["nowhere".toList], IsToken t :=
  ⟨List.forall_mem_singleton.mpr isToken_longRegister,
    List.forall_mem_singleton.mpr (.of_all (by decide) (by decide))⟩

/-- The lines are plain. -/
theorem isPlainText_longRegisterLines : ∀ line ∈ longRegisterLines n, IsPlainText line := by
  obtain ⟨hregister, hlabel⟩ := isToken_operands (n := n)
  intro line hline
  rcases List.mem_cons.mp hline with rfl | hline
  · exact isPlainText_tokens .jr hregister
  · rw [List.mem_singleton.mp hline]
    exact isPlainText_tokens .j hlabel

/-- The first line raises a `ValueError`, and the second is not reached. -/
theorem not_labelContract_of_long (h : maxStrDigits < n) (filename : Str) :
    ¬ LabelContract (longRegisterSource n) filename := by
  have hplain : ∀ line ∈ longRegisterLines n, IsPlainText line := isPlainText_longRegisterLines
  obtain ⟨hlabels, hwell⟩ := wellFormed_plain hplain
  have hlines : splitLines (longRegisterSource n) = longRegisterLines n :=
    splitLines_join (fun l hl c hc => not_isLineBreak_of_plain ((hplain l hl).plain c hc))
      (List.cons_ne_nil _ _)
  have hstatements := placedStatements_plain hplain 1 0
  obtain ⟨hregister, hlabel⟩ := isToken_operands (n := n)
  have hjr := reads_tokens .jr hregister 1 0
  have hjump := reads_tokens .j hlabel 2 4
  have hbad : BadReference (splitLines (longRegisterSource n)) := by
    rw [hlines]
    refine .undefined ?_ (.j hjump) (by decide) (by rw [hlabels]; exact List.not_mem_nil)
    rw [hstatements]
    exact List.mem_cons_of_mem _ List.mem_cons_self
  have hfault : sourceFault (longRegisterSource n) = some .tooLong := by
    -- `int` is called on the digits of the first line
    have hfirst : opcodeFault (placedLabels 0 (longRegisterLines n)) 0 [longRegister n] .jr =
        some .tooLong := by
      rw [opcodeFault, operandsFault, if_pos ⟨rfl, by simp [longRegister]⟩, Mnemonic.kinds,
        firstFault_only]
      exact registerFault_longRegister h
    rw [sourceFault, hlines, if_pos hwell, hstatements, longRegisterLines, statementsOf,
      List.findSome?_cons, statementFault_of_reads hjr, ← longRegisterLines, hfirst]
  have hfailure := failure_assembleText (longRegisterSource n) filename
  intro hcontract
  obtain ⟨text, htext⟩ := hcontract.rejects hbad
  rw [htext, hfault] at hfailure
  cases hfailure

/-- The contract fails on the shortest of these sources. -/
theorem not_labelContract_longRegister : ¬ LabelContract (longRegisterSource 4301) [] :=
  not_labelContract_of_long (by decide) []

end LongRegister

end Mini32.Toolchain
