import Mini32.Lib.Fallible
import Mini32.Verification.Trace

/-!
# The schema of a trace

`IsTrace num records` is the schema: retire records numbered from zero, then one
final record that counts them.  It is stated for any reading `num` of the numeric
fields.  The code reads them with `isinstance(value, int)`, which takes `true`
and `false` for 1 and 0 (`Counts`); the documented reading is a JSON integer
(`IsInteger`).

A record of the schema is a matter of what its fields hold (`HasText`, `HasBool`,
`HasNumber`).  For each check of the source there is a lemma on when it passes, and
`validateRecord_eq_ok` puts them together: a record passes exactly if it is of the schema in
the loose reading, and what comes out is the record with its hexadecimal texts in lower case
(`normalised`).  The last section is about records that do not pass: they raise a
`TraceError`, unless their status cannot be hashed.
-/

namespace Mini32.Verification

open Py Fallible

/-! ## The schema -/

/-- How a JSON value stands for a number. -/
abbrev Reading := Json → ℤ → Prop

/-- A JSON integer. -/
def IsInteger : Reading := fun value n => value = .int n

/-- An instance of `int`. -/
def Counts : Reading := fun value n => value.int? = some n

/-- The field holds a text that matches. -/
def HasText (pattern : Str → Bool) (record : Record) (field : Str) : Prop :=
  ∃ s, record.lookup field = some (.str s) ∧ pattern s = true

/-- The field holds a boolean. -/
def HasBool (record : Record) (field : Str) : Prop :=
  ∃ b, record.lookup field = some (.bool b)

/-- The field holds what the reading takes for this number. -/
def HasNumber (num : Reading) (record : Record) (field : Str) (n : ℤ) : Prop :=
  ∃ value, record.lookup field = some value ∧ num value n

/-- A retire record. -/
structure IsRetire (num : Reading) (index : ℤ) (record : Record) : Prop where
  type : record.lookup "type".toList = some (.str "retire".toList)
  index : HasNumber num record "index".toList index
  rd : ∃ rd, HasNumber num record "rd".toList rd ∧ 0 ≤ rd ∧ rd < 32
  regWrite : HasBool record "reg_write".toList
  memWrite : HasBool record "mem_write".toList
  words : ∀ field ∈ retireWords, HasText isHex32 record field

/-- The fault fields of a final record. -/
structure IsFault (record : Record) : Prop where
  fault : ∃ s, record.lookup "fault".toList = some (.str s)
  addressValid : HasBool record "fault_address_valid".toList
  words : ∀ field ∈ faultWords, HasText isHex32 record field

/-- A final record. -/
structure IsFinal (num : Reading) (retired : ℤ) (record : Record) : Prop where
  type : record.lookup "type".toList = some (.str "final".toList)
  status : record.lookup "status".toList = some (.str "halted".toList) ∨
    record.lookup "status".toList = some (.str "faulted".toList)
  retired : HasNumber num record "retired".toList retired
  pc : HasText isHex32 record "pc".toList
  uart : HasText isHexBytes record "uart_tx".toList
  words : ∀ field ∈ finalWords, HasText isHex32 record field
  fault : record.lookup "status".toList = some (.str "faulted".toList) → IsFault record

/-- **The schema**: retire records numbered from zero, then one final record. -/
def IsTrace (num : Reading) (records : List Record) : Prop :=
  ∃ retires final, records = retires ++ [final] ∧
    (∀ (index : ℕ) record, retires[index]? = some record → IsRetire num index record) ∧
    IsFinal num retires.length final

/-- The test of `_validate_record` on the status. -/
def isFaulted (record : Record) : Bool :=
  ((record.lookup "status".toList).getD .null).eq (.str "faulted".toList)

/-- The fields of a record whose text is in hexadecimal. -/
def hexFields (record : Record) : List Str :=
  if hasType record "retire".toList then retireWords
  else "pc".toList :: "uart_tx".toList :: finalWords ++
    if isFaulted record then faultWords else []

/-- Hexadecimal texts are in lower case. -/
def IsLower (record : Record) : Prop :=
  ∀ field ∈ hexFields record, ∀ s, record.lookup field = some (.str s) → lower s = s

/-! ## Lower case -/

/-- A text in lower case. -/
def lowerText : Json → Json
  | .str s => .str (lower s)
  | value => value

/-- A record with the text of one field in lower case. -/
def lowerField (record : Record) (field : Str) : Record :=
  match record.lookup field with
  | some value => record.setItem field (lowerText value)
  | none => record

/-- What is left of a record that passes: its hexadecimal texts are put in lower case. -/
def normalised (record : Record) : Record := (hexFields record).foldl lowerField record

section LowerCase

variable (record : Record)

/-- The field itself and the others. -/
theorem lookup_lowerField (field other : Str) : (lowerField record field).lookup other =
    if other = field then (record.lookup other).map lowerText else record.lookup other := by
  unfold lowerField
  by_cases h : other = field
  · subst h
    rw [if_pos rfl]
    cases hlookup : record.lookup other with
    | none => exact hlookup
    | some value => exact (Dict.lookup_setItem ..).trans (if_pos rfl)
  · rw [if_neg h]
    split
    · exact (Dict.lookup_setItem ..).trans (if_neg h)
    · rfl

/-- Several fields, one after the other. -/
theorem lookup_foldl_lowerField {fields : List Str} (h : fields.Nodup) (other : Str) :
    (fields.foldl lowerField record).lookup other =
      if other ∈ fields then (record.lookup other).map lowerText else record.lookup other := by
  induction fields generalizing record with
  | nil => rfl
  | cons field fields ih =>
      obtain ⟨hnot, hnodup⟩ := List.nodup_cons.mp h
      rw [List.foldl_cons, ih _ hnodup, lookup_lowerField]
      by_cases heq : other = field
      · subst heq
        rw [if_neg hnot, if_pos rfl, if_pos List.mem_cons_self]
      · simp only [heq, if_false, List.mem_cons, false_or]

/-- No field is put in lower case twice. -/
theorem nodup_hexFields : (hexFields record).Nodup := by
  unfold hexFields
  split
  · decide
  · split <;> decide

/-- The fields of a normalised record. -/
theorem lookup_normalised (field : Str) : (normalised record).lookup field =
    if field ∈ hexFields record then (record.lookup field).map lowerText
    else record.lookup field :=
  lookup_foldl_lowerField record (nodup_hexFields record) field

end LowerCase

/-! ## What the checks pass -/

section Checks

variable {repr : Json → Str} {record record' : Record}

/-- A condition that is not met raises nothing. -/
theorem raiseIf_eq_ok {condition : Prop} [Decidable condition] {message : Str} {u : Unit} :
    raiseIf condition message = .ok u ↔ ¬ condition := by
  unfold raiseIf
  split <;> simp_all

/-- An item that is there. -/
theorem getItem_eq_ok {key : Str} {value : Json} :
    getItem record key = .ok value ↔ record.lookup key = some value := by
  unfold getItem
  cases record.lookup key <;> simp

/-- When a text passes, … -/
theorem requireText_eq_ok {pattern : Str → Bool} {requirement field : Str} :
    requireText repr pattern requirement record field = .ok record' ↔
      HasText pattern record field ∧ record' = lowerField record field := by
  unfold requireText HasText lowerField
  cases hlookup : record.lookup field with
  | none => simp
  | some value =>
      cases value with
      | str s =>
          by_cases hs : pattern s = true
          · simp [hs, lowerText, eq_comm (a := record')]
          · simp [hs]
      | _ => simp

/-- … a word … -/
theorem requireHex_eq_ok {field : Str} : requireHex repr record field = .ok record' ↔
    HasText isHex32 record field ∧ record' = lowerField record field :=
  requireText_eq_ok

/-- … and a byte stream. -/
theorem requireByteStream_eq_ok {field : Str} :
    requireByteStream repr record field = .ok record' ↔
      HasText isHexBytes record field ∧ record' = lowerField record field :=
  requireText_eq_ok

/-- A loop over different fields. -/
theorem foldlM_requireHex {fields : List Str} (h : fields.Nodup) :
    fields.foldlM (requireHex repr) record = .ok record' ↔
      (∀ field ∈ fields, HasText isHex32 record field) ∧
        record' = fields.foldl lowerField record := by
  induction fields generalizing record with
  | nil => simp [pure, Except.pure, eq_comm]
  | cons field fields ih =>
      obtain ⟨hnot, hnodup⟩ := List.nodup_cons.mp h
      have hrest : (∀ other ∈ fields, HasText isHex32 (lowerField record field) other) ↔
          ∀ other ∈ fields, HasText isHex32 record other := by
        refine forall₂_congr fun other hmem => ?_
        have hne : other ≠ field := fun heq => hnot (heq ▸ hmem)
        rw [HasText, HasText, lookup_lowerField, if_neg hne]
      rw [List.foldlM_cons, bind_eq_ok, List.forall_mem_cons, List.foldl_cons]
      constructor
      · rintro ⟨next, hnext, hfields⟩
        obtain ⟨hfield, rfl⟩ := requireHex_eq_ok.mp hnext
        obtain ⟨hall, rfl⟩ := (ih hnodup).mp hfields
        exact ⟨⟨hfield, hrest.mp hall⟩, rfl⟩
      · rintro ⟨⟨hfield, hall⟩, rfl⟩
        exact ⟨_, requireHex_eq_ok.mpr ⟨hfield, rfl⟩, (ih hnodup).mpr ⟨hrest.mpr hall, rfl⟩⟩

/-- No field is missing. -/
theorem missingFields_eq_nil {fields : List Str} :
    missingFields fields record = [] ↔ ∀ field ∈ fields, (record.lookup field).isSome := by
  simp [missingFields, List.filter_eq_nil_iff, Option.isNone_iff_eq_none,
    Option.isSome_iff_ne_none]

/-- `record.get(key) == text` -/
theorem getD_eq_str_iff {key text : Str} :
    ((record.lookup key).getD .null).eq (.str text) = true ↔
      record.lookup key = some (.str text) := by
  rw [eq_str_iff]
  cases record.lookup key with
  | none => simp
  | some value => simp

/-- The type of a record. -/
theorem hasType_iff {type : Str} :
    hasType record type = true ↔ record.lookup "type".toList = some (.str type) := getD_eq_str_iff

/-- The type of a record, compared with another one. -/
theorem hasType_eq {type other : Str} (h : record.lookup "type".toList = some (.str type)) :
    hasType record other = decide (type = other) := by
  rw [hasType, h]
  exact eq_str type other

/-- The status of a fault. -/
theorem isFaulted_iff :
    isFaulted record = true ↔ record.lookup "status".toList = some (.str "faulted".toList) :=
  getD_eq_str_iff

/-- An integer with a property. -/
theorem any_int? {value : Json} {p : ℤ → Bool} :
    value.int?.any p = true ↔ ∃ n, value.int? = some n ∧ p n = true := by
  cases value.int? <;> simp

/-- The booleans, … -/
theorem isBool_iff {value : Json} : isBool value = true ↔ ∃ b, value = .bool b := by
  cases value <;> simp [isBool]

/-- … and the texts. -/
theorem isStr_iff {value : Json} : isStr value = true ↔ ∃ s, value = .str s := by
  cases value <;> simp [isStr]

/-- A field that holds a boolean, … -/
theorem hasBool_iff {field : Str} {value : Json} (h : record.lookup field = some value) :
    HasBool record field ↔ isBool value = true := by
  rw [HasBool, h, isBool_iff]
  simp

/-- … and one that holds a number. -/
theorem hasNumber_iff {field : Str} {value : Json} {n : ℤ} (h : record.lookup field = some value) :
    HasNumber Counts record field n ↔ value.int? = some n := by
  simp [HasNumber, Counts, h]

/-- A field with a text is there, … -/
theorem HasText.isSome {pattern : Str → Bool} {field : Str} (h : HasText pattern record field) :
    (record.lookup field).isSome := by
  obtain ⟨s, hs, -⟩ := h
  rw [hs]
  rfl

/-- … so is one with a boolean … -/
theorem HasBool.isSome {field : Str} (h : HasBool record field) :
    (record.lookup field).isSome := by
  obtain ⟨b, hb⟩ := h
  rw [hb]
  rfl

/-- … and one with a number. -/
theorem HasNumber.isSome {num : Reading} {field : Str} {n : ℤ}
    (h : HasNumber num record field n) : (record.lookup field).isSome := by
  obtain ⟨value, hvalue, -⟩ := h
  rw [hvalue]
  rfl

/-- A retire record has all its fields, … -/
theorem IsRetire.missing {num : Reading} {index : ℤ} (h : IsRetire num index record) :
    missingFields RETIRE_FIELDS record = [] := by
  obtain ⟨rd, hrd, -⟩ := h.rd
  have hword := h.words
  simp only [retireWords, List.forall_mem_cons, List.not_mem_nil, false_implies, implies_true,
    and_true] at hword
  obtain ⟨hpc, hinstruction, hnext, hregValue, hmemAddr, hmemValue⟩ := hword
  rw [missingFields_eq_nil]
  simp only [RETIRE_FIELDS, List.forall_mem_cons, List.not_mem_nil, false_implies, implies_true,
    and_true]
  exact ⟨by rw [h.type]; rfl, h.index.isSome, hpc.isSome, hinstruction.isSome, hnext.isSome,
    h.regWrite.isSome, hrd.isSome, hregValue.isSome, h.memWrite.isSome, hmemAddr.isSome,
    hmemValue.isSome⟩

/-- **The checks on a retire record.** -/
theorem validateRetire_eq_ok (htype : record.lookup "type".toList = some (.str "retire".toList)) :
    validateRetire repr record = .ok record' ↔
      (∃ n : ℕ, IsRetire Counts n record) ∧ record' = normalised record := by
  have hfields : hexFields record = retireWords := if_pos (hasType_iff.mpr htype)
  have hloop := @foldlM_requireHex repr record record' retireWords (by decide)
  rw [normalised, hfields]
  simp only [validateRetire, bind_eq_ok, raiseIf_eq_ok, getItem_eq_ok, hloop]
  constructor
  · rintro ⟨_, hmissing, index, hindex, _, hcount, regWrite, hregWrite, memWrite, hmemWrite, _,
      hbools, rd, hrd, _, hrange, hwords, rfl⟩
    obtain ⟨n, hn, hpos⟩ := any_int?.mp (not_not.mp hcount)
    obtain ⟨m, hm, hrange⟩ := any_int?.mp (not_not.mp hrange)
    obtain ⟨hregBool, hmemBool⟩ := not_or.mp hbools
    obtain ⟨n, rfl⟩ := Int.eq_ofNat_of_zero_le (of_decide_eq_true hpos)
    refine ⟨⟨n, ?_⟩, rfl⟩
    exact
      { type := htype
        index := (hasNumber_iff hindex).mpr hn
        rd := ⟨m, (hasNumber_iff hrd).mpr hm, of_decide_eq_true hrange⟩
        regWrite := (hasBool_iff hregWrite).mpr (not_not.mp hregBool)
        memWrite := (hasBool_iff hmemWrite).mpr (not_not.mp hmemBool)
        words := hwords }
  · rintro ⟨⟨n, hretire⟩, rfl⟩
    obtain ⟨rd, ⟨rdValue, hrd, hrdNumber⟩, hrange⟩ := hretire.rd
    obtain ⟨indexValue, hindex, hindexNumber⟩ := hretire.index
    obtain ⟨regWrite, hregWrite⟩ := hretire.regWrite
    obtain ⟨memWrite, hmemWrite⟩ := hretire.memWrite
    have hpos : 0 ≤ (n : ℤ) := Int.natCast_nonneg n
    refine ⟨(), not_not.mpr hretire.missing, _, hindex, (), ?_, _, hregWrite, _, hmemWrite, (), ?_,
      _, hrd, (), ?_, hretire.words, rfl⟩
    · exact not_not.mpr (any_int?.mpr ⟨n, hindexNumber, decide_eq_true hpos⟩)
    · exact not_or.mpr ⟨not_not.mpr rfl, not_not.mpr rfl⟩
    · exact not_not.mpr (any_int?.mpr ⟨rd, hrdNumber, decide_eq_true hrange⟩)

/-- … so has a fault … -/
theorem IsFault.missing (h : IsFault record) : missingFields FAULT_FIELDS record = [] := by
  obtain ⟨s, hs⟩ := h.fault
  have hwords := h.words
  simp only [faultWords, List.forall_mem_cons, List.not_mem_nil, false_implies, implies_true,
    and_true] at hwords
  obtain ⟨hpc, hinstruction, haddress⟩ := hwords
  rw [missingFields_eq_nil]
  simp only [FAULT_FIELDS, List.forall_mem_cons, List.not_mem_nil, false_implies, implies_true,
    and_true]
  exact ⟨by rw [hs]; rfl, hpc.isSome, hinstruction.isSome, h.addressValid.isSome, haddress.isSome⟩

/-- A fault passes exactly if it is of the schema. -/
theorem validateFault_eq_ok : validateFault repr record = .ok record' ↔
    IsFault record ∧ record' = faultWords.foldl lowerField record := by
  have hloop := @foldlM_requireHex repr record record' faultWords (by decide)
  simp only [validateFault, bind_eq_ok, raiseIf_eq_ok, getItem_eq_ok, hloop]
  constructor
  · rintro ⟨_, hmissing, fault, hfault, valid, hvalid, _, htypes, hwords, rfl⟩
    obtain ⟨hstr, hbool⟩ := not_or.mp htypes
    obtain ⟨s, rfl⟩ := isStr_iff.mp (not_not.mp hstr)
    exact ⟨⟨⟨s, hfault⟩, (hasBool_iff hvalid).mpr (not_not.mp hbool), hwords⟩, rfl⟩
  · rintro ⟨hfault, rfl⟩
    obtain ⟨s, hs⟩ := hfault.fault
    obtain ⟨b, hb⟩ := hfault.addressValid
    refine ⟨(), not_not.mpr hfault.missing, _, hs, _, hb, (), ?_, hfault.words, rfl⟩
    exact not_or.mpr ⟨not_not.mpr rfl, not_not.mpr rfl⟩

/-- Records with the same fault fields. -/
theorem isFault_congr (h : ∀ field ∈ FAULT_FIELDS, record.lookup field = record'.lookup field) :
    IsFault record ↔ IsFault record' := by
  have hsub : ∀ field ∈ faultWords, field ∈ FAULT_FIELDS := by decide
  have hfault := h "fault".toList (by decide)
  have hvalid := h "fault_address_valid".toList (by decide)
  have hwords : (∀ field ∈ faultWords, HasText isHex32 record field) ↔
      ∀ field ∈ faultWords, HasText isHex32 record' field :=
    forall₂_congr fun field hmem => by rw [HasText, HasText, h field (hsub field hmem)]
  constructor
  · intro ⟨hs, hb, hw⟩
    exact ⟨hfault ▸ hs, by rwa [HasBool, ← hvalid], hwords.mp hw⟩
  · intro ⟨hs, hb, hw⟩
    exact ⟨hfault ▸ hs, by rwa [HasBool, hvalid], hwords.mpr hw⟩

/-- … and a final record. -/
theorem IsFinal.missing {num : Reading} {retired : ℤ} (h : IsFinal num retired record) :
    missingFields FINAL_FIELDS record = [] := by
  have hwords := h.words
  simp only [finalWords, List.forall_mem_cons, List.not_mem_nil, false_implies, implies_true,
    and_true] at hwords
  obtain ⟨hdebug, houtput, hdirection, hcounter, hcompare, hcontrol⟩ := hwords
  have hstatus : (record.lookup "status".toList).isSome := by
    rcases h.status with hs | hs <;> rw [hs] <;> rfl
  rw [missingFields_eq_nil]
  simp only [FINAL_FIELDS, List.forall_mem_cons, List.not_mem_nil, false_implies, implies_true,
    and_true]
  exact ⟨by rw [h.type]; rfl, hstatus, h.pc.isSome, h.retired.isSome, h.uart.isSome,
    hdebug.isSome, houtput.isSome, hdirection.isSome, hcounter.isSome, hcompare.isSome,
    hcontrol.isSome⟩

/-- The two statuses. -/
theorem notInStatuses_eq_false {value : Json} : notInStatuses value = .ok false ↔
    value = .str "halted".toList ∨ value = .str "faulted".toList := by
  cases value with
  | str s =>
      simp only [notInStatuses, Except.ok.injEq, decide_eq_false_iff_not, not_and_or, not_not,
        Json.str.injEq]
  | _ => simp [notInStatuses]

/-- The texts that every final record has. -/
def finalTexts : List Str := "pc".toList :: "uart_tx".toList :: finalWords

/-- The texts of a final record are different fields. -/
theorem nodup_finalTexts : finalTexts.Nodup := by decide

/-- A field that no check of a final record puts in lower case. -/
theorem lookup_finalTexts {field : Str} (h : field ∉ finalTexts) :
    (finalTexts.foldl lowerField record).lookup field = record.lookup field := by
  rw [lookup_foldl_lowerField record nodup_finalTexts, if_neg h]

/-- Their case does not change the status, … -/
theorem isFaulted_finalTexts :
    isFaulted (finalTexts.foldl lowerField record) = isFaulted record := by
  rw [isFaulted, isFaulted, lookup_finalTexts (by decide)]

/-- … nor the fields of a fault. -/
theorem isFault_finalTexts : IsFault (finalTexts.foldl lowerField record) ↔ IsFault record := by
  have hnot : ∀ field ∈ FAULT_FIELDS, field ∉ finalTexts := by decide
  exact isFault_congr fun field hmem => lookup_finalTexts (hnot field hmem)

/-- A final record in lower case. -/
theorem normalised_final (h : record.lookup "type".toList = some (.str "final".toList)) :
    normalised record =
      if isFaulted record then faultWords.foldl lowerField (finalTexts.foldl lowerField record)
      else finalTexts.foldl lowerField record := by
  have hretire : hasType record "retire".toList = false := (hasType_eq h).trans (by decide)
  unfold normalised hexFields
  rw [hretire, if_neg Bool.false_ne_true]
  split
  · exact List.foldl_append
  · rw [List.append_nil]
    rfl

/-- The texts of a final record are checked one after the other. -/
theorem requireFinalTexts_eq_ok :
    (∃ pc, requireHex repr record "pc".toList = .ok pc ∧
      ∃ uart, requireByteStream repr pc "uart_tx".toList = .ok uart ∧
        finalWords.foldlM (requireHex repr) uart = .ok record') ↔
    HasText isHex32 record "pc".toList ∧ HasText isHexBytes record "uart_tx".toList ∧
      (∀ field ∈ finalWords, HasText isHex32 record field) ∧
      record' = finalTexts.foldl lowerField record := by
  have huart : HasText isHexBytes (lowerField record "pc".toList) "uart_tx".toList ↔
      HasText isHexBytes record "uart_tx".toList := by
    rw [HasText, HasText, lookup_lowerField, if_neg (by decide)]
  have hwords : (∀ field ∈ finalWords, HasText isHex32
        (["pc".toList, "uart_tx".toList].foldl lowerField record) field) ↔
      ∀ field ∈ finalWords, HasText isHex32 record field := by
    have hnot : ∀ field ∈ finalWords, field ∉ ["pc".toList, "uart_tx".toList] := by decide
    refine forall₂_congr fun field hmem => ?_
    rw [HasText, HasText, lookup_foldl_lowerField record (by decide), if_neg (hnot field hmem)]
  have hnodup : finalWords.Nodup := by decide
  have hfold : finalTexts.foldl lowerField record =
      finalWords.foldl lowerField (["pc".toList, "uart_tx".toList].foldl lowerField record) := by
    rw [← List.foldl_append]
    rfl
  rw [hfold, ← hwords]
  constructor
  · rintro ⟨pc, hpc, stream, hstream, hloop⟩
    obtain ⟨hpcText, rfl⟩ := requireHex_eq_ok.mp hpc
    obtain ⟨huartText, rfl⟩ := requireByteStream_eq_ok.mp hstream
    obtain ⟨hfinal, hrecord⟩ := (foldlM_requireHex hnodup).mp hloop
    exact ⟨hpcText, huart.mp huartText, hfinal, hrecord⟩
  · rintro ⟨hpcText, huartText, hfinal, hrecord⟩
    refine ⟨_, requireHex_eq_ok.mpr ⟨hpcText, rfl⟩, _,
      requireByteStream_eq_ok.mpr ⟨huart.mpr huartText, rfl⟩, ?_⟩
    exact (foldlM_requireHex hnodup).mpr ⟨hfinal, hrecord⟩

/-- Fault fields are checked of a faulted record only. -/
theorem faultCheck_eq_ok {status : Json} (h : record.lookup "status".toList = some status) :
    (if status.eq (.str "faulted".toList) then validateFault repr record else .ok record) =
        .ok record' ↔
      (isFaulted record = true → IsFault record) ∧
        record' = if isFaulted record then faultWords.foldl lowerField record else record := by
  have hfaulted : status.eq (.str "faulted".toList) = isFaulted record := by
    rw [isFaulted, h]
    rfl
  rw [hfaulted]
  by_cases hf : isFaulted record = true
  · rw [if_pos hf, if_pos hf, validateFault_eq_ok]
    simp [hf]
  · rw [if_neg hf, if_neg hf]
    simp [hf, eq_comm (a := record)]

/-- **The checks on a final record.** -/
theorem validateFinal_eq_ok (htype : record.lookup "type".toList = some (.str "final".toList)) :
    validateFinal repr record = .ok record' ↔
      (∃ n : ℕ, IsFinal Counts n record) ∧ record' = normalised record := by
  have hstatusLeft : (finalTexts.foldl lowerField record).lookup "status".toList =
      record.lookup "status".toList := lookup_finalTexts (by decide)
  rw [normalised_final htype]
  simp only [validateFinal, bind_eq_ok, raiseIf_eq_ok, getItem_eq_ok]
  constructor
  · rintro ⟨_, -, status, hstatus, notInSet, hset, _, hin, retired, hretired, _, hcount, pc, hpc,
      uart, huart, texts, htexts, status', hstatus', hend⟩
    obtain ⟨n, hn, hpos⟩ := any_int?.mp (not_not.mp hcount)
    obtain ⟨n, rfl⟩ := Int.eq_ofNat_of_zero_le (of_decide_eq_true hpos)
    obtain ⟨hpc, huart, hwords, rfl⟩ := requireFinalTexts_eq_ok.mp ⟨pc, hpc, uart, huart, htexts⟩
    obtain ⟨hfault, rfl⟩ := (faultCheck_eq_ok hstatus').mp hend
    rw [isFaulted_finalTexts] at hfault ⊢
    rw [isFault_finalTexts] at hfault
    obtain rfl : notInSet = false := Bool.eq_false_iff.mpr hin
    refine ⟨⟨n, ?_⟩, rfl⟩
    exact
      { type := htype
        status := by rw [hstatus]; simpa using notInStatuses_eq_false.mp hset
        retired := (hasNumber_iff hretired).mpr hn
        pc := hpc
        uart := huart
        words := hwords
        fault := fun h => hfault (isFaulted_iff.mpr h) }
  · rintro ⟨⟨n, hfinal⟩, rfl⟩
    obtain ⟨retired, hretired, hn⟩ := hfinal.retired
    have hpos : 0 ≤ (n : ℤ) := Int.natCast_nonneg n
    obtain ⟨status, hstatus, hset⟩ : ∃ status, record.lookup "status".toList = some status ∧
        notInStatuses status = .ok false := by
      rcases hfinal.status with h | h
      · exact ⟨_, h, notInStatuses_eq_false.mpr (.inl rfl)⟩
      · exact ⟨_, h, notInStatuses_eq_false.mpr (.inr rfl)⟩
    obtain ⟨pc, hpc, uart, huart, htexts⟩ := (@requireFinalTexts_eq_ok repr record _).mpr
      ⟨hfinal.pc, hfinal.uart, hfinal.words, rfl⟩
    refine ⟨(), not_not.mpr hfinal.missing, status, hstatus, false, hset, (), Bool.false_ne_true,
      retired, hretired, (), not_not.mpr (any_int?.mpr ⟨n, hn, decide_eq_true hpos⟩), pc, hpc,
      uart, huart, _, htexts, status, hstatusLeft.trans hstatus, ?_⟩
    rw [faultCheck_eq_ok (hstatusLeft.trans hstatus), isFaulted_finalTexts, isFault_finalTexts]
    exact ⟨fun h => hfinal.fault (isFaulted_iff.mp h), rfl⟩

/-- A record as the code checks it. -/
def WellFormed (record : Record) : Prop :=
  ∃ n : ℕ, IsRetire Counts n record ∨ IsFinal Counts n record

/-- **The checks on a JSON value.** -/
theorem validateRecord_eq_ok {json : Json} : validateRecord repr json = .ok record' ↔
    ∃ record, json = .object record ∧ WellFormed record ∧ record' = normalised record := by
  cases json with
  | object record =>
      simp only [validateRecord, Json.object.injEq, exists_eq_left', WellFormed]
      by_cases hretire : hasType record "retire".toList = true
      · have htype := hasType_iff.mp hretire
        have hfinal : ∀ n : ℕ, ¬ IsFinal Counts n record := by
          intro n h
          have hne := (hasType_eq h.type).symm.trans hretire
          exact absurd hne (by decide)
        simp only [if_pos hretire, validateRetire_eq_ok htype, hfinal, or_false]
      · have hretire' : ∀ n : ℕ, ¬ IsRetire Counts n record :=
          fun n h => hretire (hasType_iff.mpr h.type)
        rw [if_neg hretire]
        by_cases hfinal : hasType record "final".toList = true
        · rw [if_pos hfinal, validateFinal_eq_ok (hasType_iff.mp hfinal)]
          simp only [hretire', false_or]
        · have hfinal' : ∀ n : ℕ, ¬ IsFinal Counts n record :=
            fun n h => hfinal (hasType_iff.mpr h.type)
          rw [if_neg hfinal]
          refine iff_of_false nofun ?_
          rintro ⟨⟨n, h | h⟩, -⟩
          · exact hretire' n h
          · exact hfinal' n h
  | _ =>
      refine iff_of_false nofun ?_
      rintro ⟨_, h, -⟩
      nomatch h

end Checks

/-! ## How a record is rejected -/

section Rejected

variable {repr : Json → Str} {record record' : Record} {p : PyException → Prop}

/-- The exceptions that `parse_trace` should raise. -/
def IsTraceError (e : PyException) : Prop := ∃ message, e = .traceError message

/-- A final record with every field whose status cannot be hashed. -/
def Unhashable (json : Json) : Prop :=
  ∃ record status, json = .object record ∧
    record.lookup "type".toList = some (.str "final".toList) ∧
    missingFields FINAL_FIELDS record = [] ∧ record.lookup "status".toList = some status ∧
    ((∃ elements, status = .array elements) ∨ ∃ members, status = .object members)

/-- A condition that is met is a `TraceError`. -/
theorem raises_raiseIf (condition : Prop) [Decidable condition] (message : Str) :
    Raises IsTraceError (raiseIf condition message) := by
  unfold raiseIf
  split
  · exact .error ⟨message, rfl⟩
  · exact .ok ()

/-- A field that is not missing. -/
theorem exists_getItem {fields : List Str} {key : Str} (h : missingFields fields record = [])
    (hmem : key ∈ fields) : ∃ value, record.lookup key = some value ∧
      getItem record key = .ok value := by
  obtain ⟨value, hvalue⟩ := Option.isSome_iff_exists.mp (missingFields_eq_nil.mp h key hmem)
  exact ⟨value, hvalue, getItem_eq_ok.mpr hvalue⟩

/-- So is a text that does not match, … -/
theorem raises_requireText (pattern : Str → Bool) (requirement field : Str) :
    Raises IsTraceError (requireText repr pattern requirement record field) := by
  unfold requireText
  simp only
  split
  · split
    · exact .ok _
    · exact .error ⟨_, rfl⟩
  · exact .error ⟨_, rfl⟩

/-- … the first of several words that does not, … -/
theorem raises_foldlM_requireHex (fields : List Str) :
    Raises IsTraceError (fields.foldlM (requireHex repr) record) := by
  induction fields generalizing record with
  | nil => exact .ok record
  | cons field fields ih =>
      rw [List.foldlM_cons]
      exact .bind (raises_requireText _ _ _) fun next => ih

/-- … whatever is wrong with a retire record … -/
theorem raises_validateRetire : Raises IsTraceError (validateRetire repr record) := by
  refine .bind_of_ok (raises_raiseIf _ _) fun _ hraise => ?_
  have hmissing := not_not.mp (raiseIf_eq_ok.mp hraise)
  obtain ⟨index, -, hindex⟩ := exists_getItem hmissing (show "index".toList ∈ _ by decide)
  obtain ⟨regWrite, -, hregWrite⟩ := exists_getItem hmissing (show "reg_write".toList ∈ _ by decide)
  obtain ⟨memWrite, -, hmemWrite⟩ := exists_getItem hmissing (show "mem_write".toList ∈ _ by decide)
  obtain ⟨rd, -, hrd⟩ := exists_getItem hmissing (show "rd".toList ∈ _ by decide)
  rw [hindex, hregWrite, hmemWrite, hrd]
  refine .bind (.ok index) fun index => .bind (raises_raiseIf _ _) fun _ => ?_
  refine .bind (.ok regWrite) fun regWrite => .bind (.ok memWrite) fun memWrite => ?_
  refine .bind (raises_raiseIf _ _) fun _ => .bind (.ok rd) fun rd => ?_
  exact .bind (raises_raiseIf _ _) fun _ => raises_foldlM_requireHex _

/-- … and whatever is wrong with a fault. -/
theorem raises_validateFault : Raises IsTraceError (validateFault repr record) := by
  refine .bind_of_ok (raises_raiseIf _ _) fun _ hraise => ?_
  have hmissing := not_not.mp (raiseIf_eq_ok.mp hraise)
  obtain ⟨fault, -, hfault⟩ := exists_getItem hmissing (show "fault".toList ∈ _ by decide)
  obtain ⟨valid, -, hvalid⟩ :=
    exists_getItem hmissing (show "fault_address_valid".toList ∈ _ by decide)
  rw [hfault, hvalid]
  refine .bind (.ok fault) fun fault => .bind (.ok valid) fun valid => ?_
  exact .bind (raises_raiseIf _ _) fun _ => raises_foldlM_requireHex _

/-- A `TypeError` is the status that cannot be hashed. -/
theorem raises_validateFinal (htype : record.lookup "type".toList = some (.str "final".toList)) :
    Raises (fun e => IsTraceError e ∨ e = .typeError ∧ Unhashable (.object record))
      (validateFinal repr record) := by
  have htrace {α : Type} {x : Except PyException α} (h : Raises IsTraceError x) :
      Raises (fun e => IsTraceError e ∨ e = .typeError ∧ Unhashable (.object record)) x :=
    h.mono fun _ => .inl
  refine .bind_of_ok (htrace (raises_raiseIf _ _)) fun _ hraise => ?_
  have hmissing := not_not.mp (raiseIf_eq_ok.mp hraise)
  obtain ⟨status, hstatus, hgetStatus⟩ :=
    exists_getItem hmissing (show "status".toList ∈ _ by decide)
  obtain ⟨retired, -, hgetRetired⟩ := exists_getItem hmissing (show "retired".toList ∈ _ by decide)
  rw [hgetStatus, hgetRetired]
  refine .bind_of_ok (.ok status) fun value hvalue => .bind ?_ fun notInSet => ?_
  · obtain rfl := Except.ok.inj hvalue
    cases status with
    | array elements =>
        exact .error (.inr ⟨rfl, record, _, rfl, htype, hmissing, hstatus, .inl ⟨elements, rfl⟩⟩)
    | object members =>
        exact .error (.inr ⟨rfl, record, _, rfl, htype, hmissing, hstatus, .inr ⟨members, rfl⟩⟩)
    | _ => exact .ok _
  refine .bind (htrace (raises_raiseIf _ _)) fun _ => .bind (.ok retired) fun _ => ?_
  refine .bind (htrace (raises_raiseIf _ _)) fun _ => htrace ?_
  refine .bind_of_ok (raises_requireText _ _ _) fun pc hpc => ?_
  refine .bind_of_ok (raises_requireText _ _ _) fun uart huart => ?_
  refine .bind_of_ok (raises_foldlM_requireHex _) fun texts htexts => ?_
  obtain ⟨-, -, -, rfl⟩ := requireFinalTexts_eq_ok.mp ⟨pc, hpc, uart, huart, htexts⟩
  rw [getItem_eq_ok.mpr ((lookup_finalTexts (by decide)).trans hstatus)]
  refine .bind (.ok status) fun status => ?_
  split
  · exact raises_validateFault
  · exact .ok _

/-- **How a record is rejected**: with a `TraceError`, or over a status that cannot be hashed. -/
theorem raises_validateRecord {json : Json} :
    Raises (fun e => IsTraceError e ∨ e = .typeError ∧ Unhashable json)
      (validateRecord repr json) := by
  cases json with
  | object record =>
      rw [validateRecord]
      by_cases hretire : hasType record "retire".toList = true
      · rw [if_pos hretire]
        exact raises_validateRetire.mono fun _ => .inl
      · rw [if_neg hretire]
        by_cases hfinal : hasType record "final".toList = true
        · rw [if_pos hfinal]
          exact raises_validateFinal (hasType_iff.mp hfinal)
        · rw [if_neg hfinal]
          exact .error (.inl ⟨_, rfl⟩)
  | _ => exact .error (.inl ⟨_, rfl⟩)

/-- A status that cannot be hashed is not a `TraceError`. -/
theorem validateRecord_unhashable {json : Json} (h : Unhashable json) :
    validateRecord repr json = .error .typeError := by
  obtain ⟨record, status, rfl, htype, hmissing, hstatus, hcontainer⟩ := h
  have hretire : hasType record "retire".toList = false := (hasType_eq htype).trans (by decide)
  have hset : notInStatuses status = .error .typeError := by
    rcases hcontainer with ⟨elements, rfl⟩ | ⟨members, rfl⟩ <;> rfl
  rw [validateRecord, if_neg (Bool.eq_false_iff.mp hretire), if_pos (hasType_iff.mpr htype)]
  unfold validateFinal
  simp only [raiseIf, if_neg (not_not.mpr hmissing), getItem_eq_ok.mpr hstatus, hset, bind,
    Except.bind]

end Rejected

end Mini32.Verification
