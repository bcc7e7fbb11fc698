import Mini32.Verification.Schema

/-!
# What `parse_trace` accepts

`parseTrace_eq_ok`: a text is accepted exactly when its lines load to objects
that form a trace in the loose reading of the numeric fields, and the result are
these objects with their hexadecimal texts in lower case.  A text that is not
accepted raises a `TraceError`, unless the first record at fault is a final one
whose status cannot be hashed.

## Upper and lower case

The schema does not look at the case of a hexadecimal text.  `UpToCase` relates records that
differ in it alone; the properties of the schema carry over from one to the other, in
particular to a normalised record and back.

## Lines and lists

`parse_trace` validates line by line before it looks at the list.  The list is checked once
every record is well formed, and then says three things: the last record is the only final
one, the others are numbered, and the last counts them (`checkRecords_eq`).
-/

namespace Mini32.Verification

open Py Fallible

/-! ## Normalised records -/

section Normalised

variable {num : Reading} {record : Record} {n : ℤ}

/-- A hexadecimal digit stays one in lower case, … -/
theorem isHexDigit_lowerChar (c : Char) : isHexDigit (lowerChar c) = isHexDigit c := by
  have hlow : ∀ k < 128, isHexDigit (lowerChar (Char.ofNat k)) = isHexDigit (Char.ofNat k) := by
    decide
  by_cases hc : c.toNat < 128
  · have h := hlow c.toNat hc
    rwa [Char.ofNat_toNat] at h
  · have hupper : ¬ (0x41 ≤ c.toNat ∧ c.toNat ≤ 0x5A) := by omega
    have hstep : lowerChar c = if c.toNat = 0x212A then 'k' else c := if_neg hupper
    by_cases hsign : c.toNat = 0x212A
    · obtain rfl : c = Char.ofNat 0x212A := by rw [← hsign, Char.ofNat_toNat]
      decide
    · rw [hstep, if_neg hsign]

/-- … so do all the digits of a text, … -/
theorem all_lower (s : Str) : (lower s).all isHexDigit = s.all isHexDigit := by
  rw [lower, List.all_map]
  exact congrArg s.all (funext isHexDigit_lowerChar)

/-- … of a word … -/
theorem isHex32_lower (s : Str) : isHex32 (lower s) = isHex32 s := by
  rw [isHex32, isHex32, all_lower, lower, List.length_map]

/-- … and of a byte stream. -/
theorem isHexBytes_lower (s : Str) : isHexBytes (lower s) = isHexBytes s := by
  rw [isHexBytes, isHexBytes, all_lower, lower, List.length_map]

/-- The fields that are put in lower case in some record. -/
def textFields : List Str := retireWords ++ finalTexts ++ faultWords

/-- The texts of any record are among these. -/
theorem hexFields_subset : hexFields record ⊆ textFields := by
  unfold hexFields
  split
  · decide
  · split <;> decide

/-- Lower case is lower case again. -/
theorem map_lowerText_idem (value : Option Json) :
    (value.map lowerText).map lowerText = value.map lowerText := by
  rw [Option.map_map]
  refine congrArg (value.map ·) (funext fun value => ?_)
  cases value with
  | str s => exact congrArg Json.str (lower_lower s)
  | _ => rfl

/-- A pattern that takes no notice of case sees the text in lower case only. -/
theorem hasText_iff_lower {pattern : Str → Bool} {field : Str}
    (hlower : ∀ s, pattern (lower s) = pattern s) : HasText pattern record field ↔
      ∃ s, (record.lookup field).map lowerText = some (.str s) ∧ pattern s = true := by
  rw [HasText]
  cases record.lookup field with
  | none => exact iff_of_false (by simp) (by simp)
  | some value =>
      cases value with
      | str t =>
          have hvalue : ∀ s u : Str, some (Json.str u) = some (.str s) ↔ u = s := by simp
          simp only [Option.map_some, lowerText, hvalue, exists_eq_left', hlower]
      | _ =>
          refine iff_of_false ?_ ?_
          all_goals
            rintro ⟨s, hs, -⟩
            cases hs

/-- The records differ in the case of hexadecimal texts at most. -/
def UpToCase (record other : Record) : Prop :=
  ∀ field, record.lookup field = other.lookup field ∨ field ∈ hexFields record ∧
    (record.lookup field).map lowerText = (other.lookup field).map lowerText

namespace UpToCase

variable {other : Record} (h : UpToCase record other)

include h

/-- Other fields are the same. -/
theorem lookup_eq {field : Str} (hfield : field ∉ textFields) :
    record.lookup field = other.lookup field :=
  (h field).resolve_right fun hmem => hfield (hexFields_subset hmem.1)

/-- All fields are the same in lower case. -/
theorem map_lowerText (field : Str) :
    (record.lookup field).map lowerText = (other.lookup field).map lowerText := by
  rcases h field with heq | ⟨-, heq⟩
  · rw [heq]
  · exact heq

/-- The same fields are texts. -/
theorem hexFields_eq : hexFields record = hexFields other := by
  unfold hexFields hasType isFaulted
  rw [h.lookup_eq (by decide), h.lookup_eq (by decide)]

/-- The relation is symmetric. -/
theorem symm : UpToCase other record := fun field =>
  (h field).imp Eq.symm fun ⟨hmem, heq⟩ => ⟨h.hexFields_eq ▸ hmem, heq.symm⟩

/-- Numbers carry over, … -/
theorem hasNumber {field : Str} (hfield : field ∉ textFields)
    (hnumber : HasNumber num record field n) : HasNumber num other field n := by
  rwa [HasNumber, ← h.lookup_eq hfield]

/-- … so do booleans, … -/
theorem hasBool {field : Str} (hfield : field ∉ textFields) (hbool : HasBool record field) :
    HasBool other field := by
  rwa [HasBool, ← h.lookup_eq hfield]

/-- A text stays a text of its kind. -/
theorem hasText {pattern : Str → Bool} {field : Str}
    (hlower : ∀ s, pattern (lower s) = pattern s) (htext : HasText pattern record field) :
    HasText pattern other field := by
  rwa [hasText_iff_lower hlower, ← h.map_lowerText, ← hasText_iff_lower hlower]

/-- … words, … -/
theorem words {fields : List Str} (hwords : ∀ field ∈ fields, HasText isHex32 record field) :
    ∀ field ∈ fields, HasText isHex32 other field := fun field hmem =>
  h.hasText isHex32_lower (hwords field hmem)

/-- … retire records, … -/
theorem isRetire (hretire : IsRetire num n record) : IsRetire num n other := by
  obtain ⟨rd, hrd, hrange⟩ := hretire.rd
  exact
    { type := h.lookup_eq (show "type".toList ∉ textFields by decide) ▸ hretire.type
      index := h.hasNumber (by decide) hretire.index
      rd := ⟨rd, h.hasNumber (by decide) hrd, hrange⟩
      regWrite := h.hasBool (by decide) hretire.regWrite
      memWrite := h.hasBool (by decide) hretire.memWrite
      words := h.words hretire.words }

/-- … faults … -/
theorem isFault (hfault : IsFault record) : IsFault other :=
  { fault := h.lookup_eq (show "fault".toList ∉ textFields by decide) ▸ hfault.fault
    addressValid := h.hasBool (by decide) hfault.addressValid
    words := h.words hfault.words }

/-- … and final records. -/
theorem isFinal (hfinal : IsFinal num n record) : IsFinal num n other := by
  have hstatus : record.lookup "status".toList = other.lookup "status".toList :=
    h.lookup_eq (by decide)
  exact
    { type := h.lookup_eq (show "type".toList ∉ textFields by decide) ▸ hfinal.type
      status := hstatus ▸ hfinal.status
      retired := h.hasNumber (by decide) hfinal.retired
      pc := h.hasText isHex32_lower hfinal.pc
      uart := h.hasText isHexBytes_lower hfinal.uart
      words := h.words hfinal.words
      fault := fun hfaulted => h.isFault (hfinal.fault (hstatus.trans hfaulted)) }

/-- **Nothing is left of the case.** -/
theorem lookup_normalised (field : Str) :
    (normalised record).lookup field = (normalised other).lookup field := by
  rw [Verification.lookup_normalised, Verification.lookup_normalised, ← h.hexFields_eq]
  by_cases hmem : field ∈ hexFields record
  · rw [if_pos hmem, if_pos hmem, h.map_lowerText]
  · rw [if_neg hmem, if_neg hmem]
    exact (h field).resolve_right fun hcase => hmem hcase.1

end UpToCase

/-- A record and its normalised form. -/
theorem upToCase_normalised : UpToCase record (normalised record) := by
  intro field
  rw [lookup_normalised]
  by_cases hmem : field ∈ hexFields record
  · rw [if_pos hmem, map_lowerText_idem]
    exact .inr ⟨hmem, rfl⟩
  · rw [if_neg hmem]
    exact .inl rfl

/-- Normalising does not change what a retire record is, … -/
theorem isRetire_normalised : IsRetire num n (normalised record) ↔ IsRetire num n record :=
  ⟨upToCase_normalised.symm.isRetire, upToCase_normalised.isRetire⟩

/-- … nor what a final record is. -/
theorem isFinal_normalised : IsFinal num n (normalised record) ↔ IsFinal num n record :=
  ⟨upToCase_normalised.symm.isFinal, upToCase_normalised.isFinal⟩

/-- **Normalised texts are in lower case.** -/
theorem isLower_normalised : IsLower (normalised record) := by
  intro field hmem s hs
  rw [← upToCase_normalised.hexFields_eq] at hmem
  rw [lookup_normalised, if_pos hmem, Option.map_eq_some_iff] at hs
  obtain ⟨value, -, hvalue⟩ := hs
  cases value with
  | str t =>
      obtain rfl : lower t = s := Json.str.inj hvalue
      exact lower_lower t
  | _ => nomatch hvalue

/-- Texts in lower case already are left alone. -/
theorem normalised_eq_self (h : IsLower record) : normalised record = record := by
  have hfold : ∀ fields : List Str,
      (∀ field ∈ fields, ∀ s, record.lookup field = some (.str s) → lower s = s) →
      fields.foldl lowerField record = record := by
    intro fields
    induction fields with
    | nil => exact fun _ => rfl
    | cons field fields ih =>
        intro hall
        obtain ⟨hfield, hfields⟩ := List.forall_mem_cons.mp hall
        have hself : lowerField record field = record := by
          unfold lowerField
          cases hlookup : record.lookup field with
          | none => rfl
          | some value =>
              refine Dict.setItem_eq_self (hlookup.trans (congrArg some ?_))
              cases value with
              | str s => exact congrArg Json.str (hfield s hlookup).symm
              | _ => rfl
        rw [List.foldl_cons, hself, ih hfields]
  exact hfold _ h

end Normalised

/-! ## The lines of a text -/

section Lines

variable (loads : Str → Except Str Json) {repr : Json → Str} {isPrefixed : Bool}

/-- The texts that are given to `json.loads`. -/
def payloads (isPrefixed : Bool) (text : Str) : List Str :=
  (splitLines text).filterMap (payload isPrefixed)

/-- The line loads to a record that passes its checks. -/
def Loads (line : Str) (record : Record) : Prop :=
  loads line = .ok (.object record) ∧ WellFormed record

/-- The first line at fault is a final record whose status cannot be hashed. -/
def UnhashableStatus (lines : List Str) : Prop :=
  ∃ before line after json, lines = before ++ line :: after ∧
    (∀ earlier ∈ before, ∃ record, Loads loads earlier record) ∧
    loads line = .ok json ∧ Unhashable json

/-- The lines that are accepted. -/
theorem parseLines_eq_ok {lineNumber : ℕ} {lines : List Str} {records : List Record} :
    parseLines loads repr isPrefixed lineNumber lines = .ok records ↔
      ∃ raws, List.Forall₂ (Loads loads) (lines.filterMap (payload isPrefixed)) raws ∧
        records = raws.map normalised := by
  induction lines generalizing lineNumber records with
  | nil =>
      rw [parseLines, List.filterMap_nil]
      constructor
      · intro h
        obtain rfl := Except.ok.inj h
        exact ⟨[], .nil, rfl⟩
      · rintro ⟨_, ⟨⟩, rfl⟩
        rfl
  | cons rawLine lines ih =>
      rw [parseLines, List.filterMap_cons]
      cases payload isPrefixed rawLine with
      | none => exact ih
      | some line =>
          simp only [List.forall₂_cons_left_iff]
          cases hload : loads line with
          | error message =>
              refine iff_of_false nofun ?_
              rintro ⟨_, ⟨record, _, ⟨hrecord, -⟩, -, -⟩, -⟩
              rw [hload] at hrecord
              nomatch hrecord
          | ok json =>
              simp only [bind_eq_ok, validateRecord_eq_ok, ih]
              constructor
              · rintro ⟨_, ⟨record, rfl, hwell, rfl⟩, _, ⟨raws, hraws, rfl⟩, hrecords⟩
                obtain rfl := Except.ok.inj hrecords
                exact ⟨record :: raws, ⟨record, raws, ⟨hload, hwell⟩, hraws, rfl⟩, rfl⟩
              · rintro ⟨_, ⟨record, raws, ⟨hrecord, hwell⟩, hraws, rfl⟩, rfl⟩
                obtain rfl := Except.ok.inj (hload.symm.trans hrecord)
                exact ⟨_, ⟨record, rfl, hwell, rfl⟩, _, ⟨raws, hraws, rfl⟩, rfl⟩

/-- The first line and the others. -/
theorem unhashableStatus_cons {line : Str} {lines : List Str} :
    UnhashableStatus loads (line :: lines) ↔
      (∃ json, loads line = .ok json ∧ Unhashable json) ∨
        (∃ record, Loads loads line record) ∧ UnhashableStatus loads lines := by
  constructor
  · rintro ⟨before, bad, after, json, hlines, hbefore, hload, hbad⟩
    cases before with
    | nil =>
        obtain ⟨rfl, rfl⟩ := List.cons.inj hlines
        exact .inl ⟨json, hload, hbad⟩
    | cons first before =>
        obtain ⟨rfl, rfl⟩ := List.cons.inj hlines
        obtain ⟨hfirst, hbefore⟩ := List.forall_mem_cons.mp hbefore
        exact .inr ⟨hfirst, before, bad, after, json, rfl, hbefore, hload, hbad⟩
  · rintro (⟨json, hload, hbad⟩ | ⟨hline, before, bad, after, json, rfl, hbefore, hload, hbad⟩)
    · exact ⟨[], line, lines, json, rfl, List.forall_mem_nil _, hload, hbad⟩
    · exact ⟨line :: before, bad, after, json, rfl,
        List.forall_mem_cons.mpr ⟨hline, hbefore⟩, hload, hbad⟩

/-- A status that cannot be hashed ends the loop in a `TypeError`. -/
theorem parseLines_typeError {lineNumber : ℕ} {lines : List Str}
    (h : UnhashableStatus loads (lines.filterMap (payload isPrefixed))) :
    parseLines loads repr isPrefixed lineNumber lines = .error .typeError := by
  induction lines generalizing lineNumber with
  | nil =>
      obtain ⟨before, _, _, _, hlines, -⟩ := h
      cases before <;> nomatch hlines
  | cons rawLine lines ih =>
      rw [List.filterMap_cons] at h
      rw [parseLines]
      cases hpayload : payload isPrefixed rawLine with
      | none =>
          rw [hpayload] at h
          exact ih h
      | some line =>
          simp only [hpayload, unhashableStatus_cons] at h
          simp only
          rcases h with ⟨json, hload, hbad⟩ | ⟨⟨record, hload, hwell⟩, hrest⟩
          · simp only [hload, validateRecord_unhashable hbad, bind, Except.bind]
          · have hrecord : validateRecord repr (.object record) = .ok (normalised record) :=
              validateRecord_eq_ok.mpr ⟨record, rfl, hwell, rfl⟩
            simp only [hload, hrecord, ih hrest, bind, Except.bind]

/-- What other lines raise. -/
theorem raises_parseLines {lineNumber : ℕ} {lines : List Str} :
    Raises (fun e => IsTraceError e ∨
        e = .typeError ∧ UnhashableStatus loads (lines.filterMap (payload isPrefixed)))
      (parseLines loads repr isPrefixed lineNumber lines) := by
  induction lines generalizing lineNumber with
  | nil => exact .ok []
  | cons rawLine lines ih =>
      rw [parseLines, List.filterMap_cons]
      cases payload isPrefixed rawLine with
      | none => exact ih
      | some line =>
          simp only [unhashableStatus_cons]
          cases hload : loads line with
          | error message => exact .error (.inl ⟨_, rfl⟩)
          | ok json =>
              simp only
              refine .bind_of_ok (raises_validateRecord.mono fun e he => ?_)
                fun record hrecord => ?_
              · exact he.imp_right fun ⟨he, hbad⟩ => ⟨he, .inl ⟨json, rfl, hbad⟩⟩
              · obtain ⟨raw, rfl, hwell, -⟩ := validateRecord_eq_ok.mp hrecord
                refine .bind (ih.mono fun e he => ?_) fun records => .ok _
                exact he.imp_right fun ⟨he, hbad⟩ => ⟨he, .inr ⟨⟨raw, hload, hwell⟩, hbad⟩⟩

end Lines

/-! ## The checks on the list -/

section Lists

variable {record last : Record} {records init : List Record} {index : ℕ}

/-- A well-formed record has a type. -/
theorem WellFormed.type (h : WellFormed record) :
    record.lookup "type".toList = some (.str "retire".toList) ∨
      record.lookup "type".toList = some (.str "final".toList) := by
  obtain ⟨n, h | h⟩ := h
  · exact .inl h.type
  · exact .inr h.type

/-- Its type can be looked up. -/
theorem WellFormed.getItem_type (h : WellFormed record) :
    ∃ type, getItem record "type".toList = .ok type ∧
      ∀ text, type.eq (.str text) = hasType record text := by
  rcases h.type with htype | htype
  all_goals
    refine ⟨_, getItem_eq_ok.mpr htype, fun text => ?_⟩
    rw [hasType, htype]
    rfl

/-- A record that passed its checks as a final one is no retire record, and the other way round. -/
theorem WellFormed.isRetire_or_isFinal (h : WellFormed record) :
    (hasType record "final".toList = false ∧ hasType record "retire".toList = true ∧
        ∃ n : ℕ, IsRetire Counts n record) ∨
      (hasType record "final".toList = true ∧ ∃ n : ℕ, IsFinal Counts n record) := by
  obtain ⟨n, h | h⟩ := h
  · exact .inl ⟨(hasType_eq h.type).trans (by decide), hasType_iff.mpr h.type, n, h⟩
  · exact .inr ⟨hasType_iff.mpr h.type, n, h⟩

/-- The only final record is the last one. -/
theorem finalPositions_append (h : ∀ r ∈ init ++ [last], WellFormed r) (index : ℕ) :
    ∃ positions, finalPositions index (init ++ [last]) = .ok positions ∧
      (positions = [index + init.length] ↔
        (∀ r ∈ init, hasType r "final".toList = false) ∧ hasType last "final".toList = true) := by
  induction init generalizing index with
  | nil =>
      obtain ⟨type, htype, heq⟩ := (h last (by simp)).getItem_type
      refine ⟨if hasType last "final".toList then [index] else [], ?_, ?_⟩
      · simp only [List.nil_append, finalPositions, htype, heq, bind, Except.bind]
        rfl
      · by_cases hlast : hasType last "final".toList = true
        · rw [if_pos hlast]
          exact iff_of_true rfl ⟨List.forall_mem_nil _, hlast⟩
        · rw [if_neg hlast]
          exact iff_of_false nofun fun h => hlast h.2
  | cons first init ih =>
      obtain ⟨hfirst, hrest⟩ := List.forall_mem_cons.mp h
      obtain ⟨type, htype, heq⟩ := hfirst.getItem_type
      obtain ⟨positions, hpositions, hiff⟩ := ih hrest (index + 1)
      refine ⟨if hasType first "final".toList then index :: positions else positions, ?_, ?_⟩
      · simp only [List.cons_append, finalPositions, htype, heq, hpositions, bind, Except.bind]
        rfl
      · have hlength : index + 1 + init.length = index + (first :: init).length := by
          rw [List.length_cons]
          omega
        rw [hlength] at hiff
        rw [List.forall_mem_cons]
        by_cases hfinal : hasType first "final".toList = true
        · rw [if_pos hfinal, hfinal]
          refine iff_of_false (fun h => ?_) fun h => nomatch h.1.1
          have hhead := (List.cons.inj h).1
          rw [List.length_cons] at hhead
          omega
        · rw [if_neg hfinal, hiff, and_iff_right (Bool.eq_false_iff.mpr hfinal)]

/-- The numbers of retire records. -/
theorem isContiguous_eq {n : ℕ} (h : IsRetire Counts n record) (index : ℕ) :
    isContiguous record index = .ok (decide (n = index)) := by
  obtain ⟨value, hvalue, hcount⟩ := h.index
  have htype : (Json.str "retire".toList).eq (.str "retire".toList) = true :=
    eq_str_iff.mpr rfl
  have heq : value.eq (.int index) = decide (n = index) := by
    rw [Bool.eq_iff_iff, eq_iff_of_int? hcount rfl, decide_eq_true_iff]
    exact Int.natCast_inj
  simp only [isContiguous, getItem_eq_ok.mpr h.type, getItem_eq_ok.mpr hvalue, htype, if_true, heq,
    bind, Except.bind]
  rfl

/-- The numbering passes, … -/
theorem checkIndices_eq_ok (h : ∀ r ∈ records, ∃ n : ℕ, IsRetire Counts n r) (index : ℕ) :
    checkIndices index records = .ok () ↔
      ∀ (k : ℕ) r, records[k]? = some r → IsRetire Counts (index + k : ℕ) r := by
  induction records generalizing index with
  | nil => exact iff_of_true rfl nofun
  | cons first records ih =>
      obtain ⟨⟨n, hfirst⟩, hrest⟩ := List.forall_mem_cons.mp h
      have hcons : (∀ (k : ℕ) r, (first :: records)[k]? = some r →
            IsRetire Counts (index + k : ℕ) r) ↔
          IsRetire Counts index first ∧
            ∀ (k : ℕ) r, records[k]? = some r → IsRetire Counts (index + 1 + k : ℕ) r := by
        constructor
        · intro hall
          refine ⟨hall 0 first rfl, fun k r hr => ?_⟩
          have hk := hall (k + 1) r hr
          rwa [← Nat.add_assoc, Nat.add_right_comm] at hk
        · rintro ⟨hzero, hall⟩ k r hr
          cases k with
          | zero =>
              obtain rfl := Option.some.inj hr
              exact hzero
          | succ k =>
              have hk := hall k r hr
              rwa [Nat.add_right_comm, Nat.add_assoc] at hk
      rw [checkIndices, isContiguous_eq hfirst, hcons, ← ih hrest]
      by_cases hn : n = index
      · subst hn
        rw [and_iff_right hfirst, decide_eq_true rfl]
        rfl
      · rw [decide_eq_false hn]
        refine iff_of_false nofun fun ⟨hindex, _⟩ => hn ?_
        obtain ⟨value, hvalue, hcount⟩ := hfirst.index
        have hcount' := (hasNumber_iff hvalue).mp hindex.index
        exact Int.natCast_inj.mp (Option.some.inj (hcount.symm.trans hcount'))

/-- … or is a `TraceError`. -/
theorem raises_checkIndices (h : ∀ r ∈ records, ∃ n : ℕ, IsRetire Counts n r) (index : ℕ) :
    Raises IsTraceError (checkIndices index records) := by
  induction records generalizing index with
  | nil => exact .ok ()
  | cons first records ih =>
      obtain ⟨⟨n, hfirst⟩, hrest⟩ := List.forall_mem_cons.mp h
      rw [checkIndices, isContiguous_eq hfirst]
      refine .bind (.ok _) fun contiguous => .bind (raises_raiseIf _ _) fun _ => ?_
      exact ih hrest (index + 1)

/-- The last record counts the others. -/
theorem retired_eq {n : ℕ} (h : IsFinal Counts n record) :
    ∃ value, getItem record "retired".toList = .ok value ∧
      ∀ m : ℕ, value.eq (.int m) = true ↔ n = m := by
  obtain ⟨value, hvalue, hcount⟩ := h.retired
  refine ⟨value, getItem_eq_ok.mpr hvalue, fun m => ?_⟩
  rw [eq_iff_of_int? hcount rfl]
  exact Int.natCast_inj

/-- A list with a last record is a trace if the others are numbered and it counts them. -/
theorem isTrace_append {num : Reading} : IsTrace num (init ++ [last]) ↔
    (∀ (k : ℕ) r, init[k]? = some r → IsRetire num k r) ∧ IsFinal num init.length last := by
  constructor
  · rintro ⟨retires, final, heq, hretires, hfinal⟩
    obtain ⟨rfl, hlast⟩ := List.append_inj' heq rfl
    obtain rfl := List.singleton_inj.mp hlast
    exact ⟨hretires, hfinal⟩
  · rintro ⟨hretires, hfinal⟩
    exact ⟨init, last, rfl, hretires, hfinal⟩

/-- The records in front of the only final one, and that one. -/
theorem checkTrace_of_positions (hretires : ∀ r ∈ init, ∃ n : ℕ, IsRetire Counts n r) {n : ℕ}
    (hfinal : IsFinal Counts n last)
    (hpositions : finalPositions 0 (init ++ [last]) = .ok [init.length]) :
    Raises IsTraceError (checkTrace (init ++ [last]) last) ∧
      (checkTrace (init ++ [last]) last = .ok () ↔ IsTrace Counts (init ++ [last])) := by
  have hlength : (init ++ [last]).length - 1 = init.length := by simp
  obtain ⟨value, hvalue, hcount⟩ := retired_eq hfinal
  rw [checkTrace, hpositions, hlength, List.dropLast_concat, hvalue]
  constructor
  · refine .bind (.ok _) fun _ => .bind (raises_raiseIf _ _) fun _ => ?_
    refine .bind (raises_checkIndices hretires 0) fun _ => ?_
    exact .bind (.ok value) fun _ => raises_raiseIf _ _
  · rw [isTrace_append]
    simp only [bind_eq_ok, raiseIf_eq_ok, checkIndices_eq_ok hretires, Nat.zero_add,
      Except.ok.injEq, exists_eq_left', not_not, hcount]
    constructor
    · rintro ⟨_, -, _, hindices, rfl⟩
      exact ⟨hindices, hfinal⟩
    · rintro ⟨hindices, hlast⟩
      obtain ⟨recorded, hrecorded, hcount'⟩ := retired_eq hlast
      obtain rfl := Except.ok.inj (hvalue.symm.trans hrecorded)
      exact ⟨(), trivial, (), hindices, (hcount init.length).mp ((hcount' init.length).mpr rfl)⟩

/-- **The checks on a list of records** pass for a trace only, and end in a `TraceError`
otherwise. -/
theorem checkTrace_eq (h : ∀ r ∈ init ++ [last], WellFormed r) :
    Raises IsTraceError (checkTrace (init ++ [last]) last) ∧
      (checkTrace (init ++ [last]) last = .ok () ↔ IsTrace Counts (init ++ [last])) := by
  obtain ⟨positions, hpositions, hiff⟩ := finalPositions_append h 0
  rw [Nat.zero_add] at hiff
  by_cases hpos : positions = [init.length]
  · obtain ⟨hinit, hlast⟩ := hiff.mp hpos
    have hretires : ∀ r ∈ init, ∃ n : ℕ, IsRetire Counts n r := by
      intro r hr
      rcases (h r (List.mem_append_left _ hr)).isRetire_or_isFinal with ⟨-, -, hr'⟩ | ⟨hfinal, -⟩
      · exact hr'
      · rw [hinit r hr] at hfinal
        cases hfinal
    rcases (h last (by simp)).isRetire_or_isFinal with ⟨hfinal, -⟩ | ⟨-, n, hfinal⟩
    · rw [hlast] at hfinal
      cases hfinal
    · exact checkTrace_of_positions hretires hfinal (hpos ▸ hpositions)
  · have hlength : (init ++ [last]).length - 1 = init.length := by simp
    have herror : checkTrace (init ++ [last]) last = .error (.traceError
        "trace must contain exactly one final record as its last line".toList) := by
      rw [checkTrace, hpositions, hlength]
      simp only [raiseIf, if_pos hpos, bind, Except.bind]
    rw [herror]
    refine ⟨.error ⟨_, rfl⟩, iff_of_false (by simp) fun htrace => hpos (hiff.mpr ?_)⟩
    obtain ⟨hretires, hfinal⟩ := isTrace_append.mp htrace
    refine ⟨fun r hr => ?_, hasType_iff.mpr hfinal.type⟩
    obtain ⟨k, hk⟩ := List.getElem?_of_mem hr
    exact (hasType_eq (hretires k r hk).type).trans (by decide)

/-- **The checks after the loop** pass for a trace only, and end in a `TraceError` otherwise. -/
theorem checkRecords_eq (h : ∀ r ∈ records, WellFormed r) :
    Raises IsTraceError (checkRecords records) ∧
      ∀ result, checkRecords records = .ok result ↔ IsTrace Counts records ∧ result = records := by
  rcases List.eq_nil_or_concat' records with rfl | ⟨init, last, rfl⟩
  · refine ⟨.error ⟨_, rfl⟩, fun result => iff_of_false nofun ?_⟩
    rintro ⟨⟨retires, final, heq, -⟩, -⟩
    exact absurd heq (by simp)
  · obtain ⟨hraises, hiff⟩ := checkTrace_eq h
    rw [checkRecords, List.getLast?_concat]
    refine ⟨.bind hraises fun _ => .ok _, fun result => ?_⟩
    rw [← hiff]
    simp only [bind_eq_ok, pure, Except.pure, Except.ok.injEq]
    constructor
    · rintro ⟨u, hcheck, rfl⟩
      exact ⟨hcheck, rfl⟩
    · rintro ⟨hcheck, rfl⟩
      exact ⟨(), hcheck, rfl⟩

end Lists

/-! ## Whole texts -/

section Texts

variable {loads : Str → Except Str Json} {repr : Json → Str} {text : Str} {isPrefixed : Bool}
  {num : Reading} {record : Record} {raws records : List Record}

/-- Normalising does not change what is well formed. -/
theorem wellFormed_normalised : WellFormed (normalised record) ↔ WellFormed record := by
  unfold WellFormed
  simp only [isRetire_normalised, isFinal_normalised]

/-- The records of a trace pass their checks. -/
theorem IsTrace.wellFormed (h : IsTrace Counts records) : ∀ r ∈ records, WellFormed r := by
  obtain ⟨retires, final, rfl, hretires, hfinal⟩ := h
  intro r hr
  rcases List.mem_append.mp hr with hr | hr
  · obtain ⟨k, hk⟩ := List.getElem?_of_mem hr
    exact ⟨k, .inl (hretires k r hk)⟩
  · obtain rfl := List.mem_singleton.mp hr
    exact ⟨retires.length, .inr hfinal⟩

/-- A relation of lists, at their last elements. -/
theorem forall₂_concat {α β : Type} {R : α → β → Prop} {l : List α} {l' : List β} {a : α} {b : β} :
    List.Forall₂ R (l ++ [a]) (l' ++ [b]) ↔ List.Forall₂ R l l' ∧ R a b := by
  rw [← List.forall₂_reverse_iff, List.reverse_concat, List.reverse_concat, List.forall₂_cons,
    List.forall₂_reverse_iff, and_comm]

/-- A trace stays one whatever the case of its texts. -/
theorem IsTrace.upToCase {raws' : List Record} (h : IsTrace num raws)
    (hcase : List.Forall₂ UpToCase raws raws') : IsTrace num raws' := by
  obtain ⟨retires, final, rfl, hretires, hfinal⟩ := h
  rcases List.eq_nil_or_concat' raws' with rfl | ⟨retires', final', rfl⟩
  · exact absurd hcase.length_eq (by simp)
  · obtain ⟨hall, hlast⟩ := forall₂_concat.mp hcase
    refine ⟨retires', final', rfl, fun k r hr => ?_, hall.length_eq ▸ hlast.isFinal hfinal⟩
    obtain ⟨hk, rfl⟩ := List.getElem?_eq_some_iff.mp hr
    have hk' : k < retires.length := hall.length_eq ▸ hk
    have hcase := hall.get hk' hk
    exact hcase.isRetire (hretires k _ (List.getElem?_eq_getElem hk'))

/-- Normalising does not change what is a trace. -/
theorem isTrace_normalised : IsTrace num (raws.map normalised) ↔ IsTrace num raws := by
  have hcase : List.Forall₂ UpToCase raws (raws.map normalised) :=
    List.forall₂_map_right_iff.mpr (List.forall₂_same.mpr fun _ _ => upToCase_normalised)
  have hcase' : List.Forall₂ UpToCase (raws.map normalised) raws :=
    List.forall₂_map_left_iff.mpr (List.forall₂_same.mpr fun _ _ => upToCase_normalised.symm)
  exact ⟨fun h => h.upToCase hcase', fun h => h.upToCase hcase⟩

/-- The lines of a text load to these objects. -/
def LoadsAll (loads : Str → Except Str Json) (isPrefixed : Bool) (text : Str)
    (raws : List Record) : Prop :=
  List.Forall₂ (fun line raw => loads line = .ok (.object raw)) (payloads isPrefixed text) raws

/-- Loaded records that pass their checks. -/
theorem forall₂_loads {lines : List Str} : List.Forall₂ (Loads loads) lines raws ↔
    List.Forall₂ (fun line raw => loads line = .ok (.object raw)) lines raws ∧
      ∀ raw ∈ raws, WellFormed raw := by
  constructor
  · intro h
    refine ⟨h.imp fun _ _ hload => hload.1, ?_⟩
    induction h with
    | nil => exact List.forall_mem_nil _
    | cons hload _ ih => exact List.forall_mem_cons.mpr ⟨hload.2, ih⟩
  · rintro ⟨h, hwell⟩
    induction h with
    | nil => exact .nil
    | cons hload _ ih =>
        obtain ⟨hraw, hraws⟩ := List.forall_mem_cons.mp hwell
        exact .cons ⟨hload, hraw⟩ (ih hraws)

/-- Normalised records are well formed. -/
theorem wellFormed_map (h : ∀ raw ∈ raws, WellFormed raw) :
    ∀ record ∈ raws.map normalised, WellFormed record := by
  intro record hrecord
  obtain ⟨raw, hraw, rfl⟩ := List.mem_map.mp hrecord
  exact wellFormed_normalised.mpr (h raw hraw)

/-- **What `parse_trace` accepts, and what it returns.** -/
theorem parseTrace_eq_ok : parseTrace loads repr text isPrefixed = .ok records ↔
    ∃ raws, LoadsAll loads isPrefixed text raws ∧ IsTrace Counts raws ∧
      records = raws.map normalised := by
  simp only [parseTrace, bind_eq_ok, parseLines_eq_ok]
  constructor
  · rintro ⟨_, ⟨raws, hloads, rfl⟩, hcheck⟩
    obtain ⟨hloads, hwell⟩ := forall₂_loads.mp hloads
    obtain ⟨htrace, rfl⟩ := ((checkRecords_eq (wellFormed_map hwell)).2 _).mp hcheck
    exact ⟨raws, hloads, isTrace_normalised.mp htrace, rfl⟩
  · rintro ⟨raws, hloads, htrace, rfl⟩
    have hwell := htrace.wellFormed
    refine ⟨_, ⟨raws, forall₂_loads.mpr ⟨hloads, hwell⟩, rfl⟩, ?_⟩
    exact ((checkRecords_eq (wellFormed_map hwell)).2 _).mpr ⟨isTrace_normalised.mpr htrace, rfl⟩

/-- **How it rejects.** -/
theorem raises_parseTrace :
    Raises (fun e => IsTraceError e ∨
        e = .typeError ∧ UnhashableStatus loads (payloads isPrefixed text))
      (parseTrace loads repr text isPrefixed) := by
  refine .bind_of_ok (raises_parseLines loads) fun records hlines => ?_
  obtain ⟨raws, hloads, rfl⟩ := (parseLines_eq_ok loads).mp hlines
  obtain ⟨-, hwell⟩ := forall₂_loads.mp hloads
  exact (checkRecords_eq (wellFormed_map hwell)).1.mono fun _ => .inl

/-- The text that ends in a `TypeError`. -/
theorem parseTrace_typeError (h : UnhashableStatus loads (payloads isPrefixed text)) :
    parseTrace loads repr text isPrefixed = .error .typeError := by
  rw [parseTrace, parseLines_typeError loads h]
  rfl

end Texts

end Mini32.Verification
