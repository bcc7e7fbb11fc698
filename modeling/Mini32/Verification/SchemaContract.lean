import Mini32.Verification.Parse

/-!
# The contract of `parse_trace`

`parse_trace` should accept exactly the schema and fail with a `TraceError` only.
`schemaContract_iff` says when it does: `isinstance(value, int)` lets a boolean
pass for a number, and a status that cannot be hashed ends in a `TypeError`.

Both conditions are on what the lines load to.  `BooleanNumber` is a trace in the loose
reading with a boolean in a numeric field; `UnhashableStatus` is a final record whose status
is a list or an object, behind records that pass.  A trace in the loose reading without such a
field is one in the documented reading (`IsTrace.integer_iff`), which is the whole difference
between the two.
-/

namespace Mini32.Verification

open Py Fallible

/-- **The schema and nothing else** is accepted, and every rejection is a `TraceError`. -/
structure SchemaContract (loads : Str → Except Str Json) (repr : Json → Str) (text : Str)
    (isPrefixed : Bool) : Prop where
  raises : ∀ e, parseTrace loads repr text isPrefixed = .error e → IsTraceError e
  returns : ∀ records, parseTrace loads repr text isPrefixed = .ok records →
    IsTrace IsInteger records ∧ ∀ record ∈ records, IsLower record
  accepts : ∀ raws, LoadsAll loads isPrefixed text raws → IsTrace IsInteger raws →
    parseTrace loads repr text isPrefixed = .ok (raws.map normalised)

/-- The numeric fields of a record. -/
def numericFields (record : Record) : List Str :=
  if hasType record "retire".toList then ["index".toList, "rd".toList] else ["retired".toList]

/-- The lines load to a trace but for a boolean in place of a number. -/
def BooleanNumber (loads : Str → Except Str Json) (text : Str) (isPrefixed : Bool) : Prop :=
  ∃ raws, LoadsAll loads isPrefixed text raws ∧ IsTrace Counts raws ∧
    ∃ raw ∈ raws, ∃ field ∈ numericFields raw, HasBool raw field

section Readings

variable {record : Record} {records : List Record} {field : Str} {n : ℤ}

/-- An integer is an instance of `int`. -/
theorem HasNumber.counts (h : HasNumber IsInteger record field n) :
    HasNumber Counts record field n := by
  obtain ⟨value, hvalue, rfl⟩ := h
  exact ⟨_, hvalue, rfl⟩

/-- An instance of `int` that is no boolean is an integer. -/
theorem HasNumber.integer_iff (h : HasNumber Counts record field n) :
    HasNumber IsInteger record field n ↔ ¬ HasBool record field := by
  obtain ⟨value, hvalue, hcount⟩ := h
  rw [HasNumber, HasBool, hvalue]
  cases value with
  | int m =>
      obtain rfl := Option.some.inj hcount
      exact iff_of_true ⟨_, rfl, rfl⟩ (by rintro ⟨b, hb⟩; cases hb)
  | bool b =>
      refine iff_of_false ?_ fun h => h ⟨b, rfl⟩
      rintro ⟨value, hvalue, rfl⟩
      cases hvalue
  | _ => cases hcount

/-- A retire record of the documented reading is one of the loose reading, … -/
theorem IsRetire.counts (h : IsRetire IsInteger n record) : IsRetire Counts n record where
  type := h.type
  index := h.index.counts
  rd := by
    obtain ⟨rd, hrd, hrange⟩ := h.rd
    exact ⟨rd, hrd.counts, hrange⟩
  regWrite := h.regWrite
  memWrite := h.memWrite
  words := h.words

/-- … so is a final record … -/
theorem IsFinal.counts (h : IsFinal IsInteger n record) : IsFinal Counts n record where
  type := h.type
  status := h.status
  retired := h.retired.counts
  pc := h.pc
  uart := h.uart
  words := h.words
  fault := h.fault

/-- … and a trace. -/
theorem IsTrace.counts (h : IsTrace IsInteger records) : IsTrace Counts records := by
  obtain ⟨retires, final, rfl, hretires, hfinal⟩ := h
  exact ⟨retires, final, rfl, fun k r hr => (hretires k r hr).counts, hfinal.counts⟩

/-- A loose retire record without a boolean number, … -/
theorem IsRetire.integer_iff (h : IsRetire Counts n record) :
    IsRetire IsInteger n record ↔ ∀ field ∈ numericFields record, ¬ HasBool record field := by
  have hfields : numericFields record = ["index".toList, "rd".toList] :=
    if_pos (hasType_iff.mpr h.type)
  obtain ⟨rd, hrd, hrange⟩ := h.rd
  rw [hfields, List.forall_mem_cons, List.forall_mem_singleton, ← h.index.integer_iff,
    ← hrd.integer_iff]
  constructor
  · intro hretire
    obtain ⟨rd', hrd', -⟩ := hretire.rd
    exact ⟨hretire.index, hrd.integer_iff.mpr (hrd'.counts.integer_iff.mp hrd')⟩
  · rintro ⟨hindex, hrd⟩
    exact ⟨h.type, hindex, ⟨rd, hrd, hrange⟩, h.regWrite, h.memWrite, h.words⟩

/-- … and a loose final record. -/
theorem IsFinal.integer_iff (h : IsFinal Counts n record) :
    IsFinal IsInteger n record ↔ ∀ field ∈ numericFields record, ¬ HasBool record field := by
  have hretire : hasType record "retire".toList = false := (hasType_eq h.type).trans (by decide)
  have hfields : numericFields record = ["retired".toList] :=
    if_neg (Bool.eq_false_iff.mp hretire)
  rw [hfields, List.forall_mem_singleton, ← h.retired.integer_iff]
  exact ⟨fun hfinal => hfinal.retired,
    fun hretired => ⟨h.type, h.status, hretired, h.pc, h.uart, h.words, h.fault⟩⟩

/-- **A loose trace without booleans in numeric fields is a trace.** -/
theorem IsTrace.integer_iff (h : IsTrace Counts records) :
    IsTrace IsInteger records ↔
      ∀ record ∈ records, ∀ field ∈ numericFields record, ¬ HasBool record field := by
  obtain ⟨retires, final, rfl, hretires, hfinal⟩ := h
  rw [isTrace_append, hfinal.integer_iff, List.forall_mem_append, List.forall_mem_singleton]
  refine and_congr_left' ⟨fun hall r hr => ?_, fun hall k r hr => ?_⟩
  · obtain ⟨k, hk⟩ := List.getElem?_of_mem hr
    exact (hretires k r hk).integer_iff.mp (hall k r hk)
  · exact (hretires k r hr).integer_iff.mpr (hall r (List.mem_of_getElem? hr))

/-- The case of the texts does not change which fields are numeric. -/
theorem numericFields_normalised : numericFields (normalised record) = numericFields record := by
  unfold numericFields hasType
  rw [upToCase_normalised.symm.lookup_eq (by decide)]

/-- Normalising changes no number. -/
theorem hasBool_numeric (h : field ∈ numericFields record) :
    HasBool (normalised record) field ↔ HasBool record field := by
  have hnot : ∀ field ∈ ["index".toList, "rd".toList, "retired".toList], field ∉ textFields := by
    decide
  have hfield : field ∉ textFields := by
    refine hnot field ?_
    unfold numericFields at h
    split at h
    · exact List.mem_append_left ["retired".toList] h
    · exact List.mem_append_right ["index".toList, "rd".toList] h
  exact ⟨upToCase_normalised.symm.hasBool hfield, upToCase_normalised.hasBool hfield⟩

end Readings

/-! ## When it holds -/

section Contract

variable {loads : Str → Except Str Json} {repr : Json → Str} {text : Str} {isPrefixed : Bool}

/-- **`parse_trace` keeps its contract**, unless the first record at fault is a final one whose
status cannot be hashed, or a boolean stands for a number in an otherwise valid trace. -/
theorem schemaContract_iff : SchemaContract loads repr text isPrefixed ↔
    ¬ UnhashableStatus loads (payloads isPrefixed text) ∧
      ¬ BooleanNumber loads text isPrefixed := by
  constructor
  · intro hcontract
    constructor
    · intro hstatus
      obtain ⟨message, h⟩ := hcontract.raises _ (parseTrace_typeError hstatus)
      nomatch h
    · rintro ⟨raws, hloads, htrace, raw, hraw, field, hfield, hbool⟩
      have hok : parseTrace loads repr text isPrefixed = .ok (raws.map normalised) :=
        parseTrace_eq_ok.mpr ⟨raws, hloads, htrace, rfl⟩
      obtain ⟨hinteger, -⟩ := hcontract.returns _ hok
      have hmem : normalised raw ∈ raws.map normalised := List.mem_map_of_mem hraw
      refine (isTrace_normalised.mpr htrace).integer_iff.mp hinteger _ hmem field ?_ ?_
      · rwa [numericFields_normalised]
      · rwa [hasBool_numeric hfield]
  · rintro ⟨hstatus, hboolean⟩
    refine ⟨fun e he => ?_, fun records hok => ?_, fun raws hloads htrace => ?_⟩
    · exact (raises_parseTrace e he).resolve_right fun h => hstatus h.2
    · obtain ⟨raws, hloads, htrace, rfl⟩ := parseTrace_eq_ok.mp hok
      refine ⟨isTrace_normalised.mpr (htrace.integer_iff.mpr ?_), fun record hrecord => ?_⟩
      · intro raw hraw field hfield hbool
        exact hboolean ⟨raws, hloads, htrace, raw, hraw, field, hfield, hbool⟩
      · obtain ⟨raw, -, rfl⟩ := List.mem_map.mp hrecord
        exact isLower_normalised
    · exact parseTrace_eq_ok.mpr ⟨raws, hloads, htrace.counts, rfl⟩

/-- A final record whose status is an empty list, as it is written. -/
def listStatusText : Str :=
  "\x7b\"type\":\"final\",\"status\":[],\"pc\":\"00000000\",".toList ++
    "\"retired\":0,\"uart_tx\":\"\",".toList ++
    "\"debug_value\":\"00000000\",\"gpio_output\":\"00000000\",".toList ++
    "\"gpio_direction\":\"00000000\",\"timer_counter\":\"00000000\",".toList ++
    "\"timer_compare\":\"00000000\",\"timer_control\":\"00000000\"\x7d".toList

/-- The value of `listStatusText`. -/
def listStatus : Record :=
  [("type".toList, .str "final".toList), ("status".toList, .array []),
    ("pc".toList, .str "00000000".toList), ("retired".toList, .int 0), ("uart_tx".toList, .str []),
    ("debug_value".toList, .str "00000000".toList), ("gpio_output".toList, .str "00000000".toList),
    ("gpio_direction".toList, .str "00000000".toList),
    ("timer_counter".toList, .str "00000000".toList),
    ("timer_compare".toList, .str "00000000".toList),
    ("timer_control".toList, .str "00000000".toList)]

/-- `json.loads` on that text. -/
def loadsListStatus (line : Str) : Except Str Json :=
  if line = listStatusText then .ok (.object listStatus) else .error "Expecting value".toList

/-- Hashing the list raises a `TypeError`. -/
theorem not_schemaContract_listStatus :
    ¬ SchemaContract loadsListStatus (fun _ => []) listStatusText false := by
  intro hcontract
  have hlines : payloads false listStatusText = [listStatusText] := by decide +kernel
  have hstatus : UnhashableStatus loadsListStatus (payloads false listStatusText) := by
    rw [hlines]
    exact ⟨[], listStatusText, [], .object listStatus, rfl, List.forall_mem_nil _, if_pos rfl,
      listStatus, .array [], rfl, rfl, by decide, rfl, .inl ⟨[], rfl⟩⟩
  obtain ⟨message, h⟩ := hcontract.raises _ (parseTrace_typeError hstatus)
  nomatch h

end Contract

end Mini32.Verification
