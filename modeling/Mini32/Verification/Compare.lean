import Mini32.Verification.Parse

/-!
# Comparing two traces

`_first_difference` and `compare_traces`, stage for stage, and what they decide:
two traces that `parse_trace` returned compare without an exception exactly when
they agree (`TraceAgrees`), which is an equivalence, and any other two raise a
`DifferentialMismatch`.

## The comparison

A comparison of two records goes through lists of fields and stops at the first that differs.
Some lists are compared only under a guard, which is read from the expected record: the
register of a retirement only if it wrote one, the fault only if the status says so.

## What it decides

`Decides comparison P` is a comparison that raises nothing and finds no difference exactly if
`P` holds.  It composes along the stages (`Decides.bind`), so the agreement of records is
assembled in the order of the source.  A comparison can raise a `KeyError` only at a missing
field; the schema has all of them (`ComparableOn`).
-/

namespace Mini32.Verification

open Py Fallible

/-! ## The comparison -/

section Comparison

variable (repr : Json → Str) (expected actual : Record)

/-- The truth value of `value` in a condition. -/
def truthy : Json → Bool
  | .null => false
  | .bool value => value
  | .int value => value ≠ 0
  | .float value => value.value? ≠ some 0
  | .str value => !value.isEmpty
  | .array elements => !elements.isEmpty
  | .object members => !members.isEmpty

/-- `_first_difference` -/
def firstDifference : List Str → Except PyException (Option Str)
  | [] => .ok none
  | field :: fields => do
      let expectedValue ← getItem expected field
      let actualValue ← getItem actual field
      if expectedValue.eq actualValue then firstDifference fields
      else return some (field ++ " expected ".toList ++ repr expectedValue ++ ", got ".toList ++
        repr actualValue)

/-- `if difference is None and guard: difference = _first_difference(...)` -/
def nextDifference (guard : Except PyException Bool) (fields : List Str) :
    Option Str → Except PyException (Option Str)
  | some difference => .ok (some difference)
  | none => do
      let holds ← guard
      if holds then firstDifference repr expected actual fields else return none

/-- `expected[key]` as a condition. -/
def itemTruthy (record : Record) (key : Str) : Except PyException Bool :=
  return truthy (← getItem record key)

/-- `expected["status"] == "faulted"` -/
def statusFaulted (record : Record) : Except PyException Bool :=
  return (← getItem record "status".toList).eq (.str "faulted".toList)

/-- The fields every pair of retire records is compared on, in the source's order. -/
def retireHead : List Str :=
  ["type".toList, "index".toList, "pc".toList, "instruction".toList, "next_pc".toList,
    "reg_write".toList]

/-- The fields of a final record that are always compared. -/
def finalHead : List Str :=
  ["type".toList, "status".toList, "pc".toList, "retired".toList, "uart_tx".toList,
    "debug_value".toList, "gpio_output".toList, "gpio_direction".toList, "timer_counter".toList,
    "timer_compare".toList, "timer_control".toList]

/-- The fields of a fault that are always compared. -/
def faultHead : List Str :=
  ["fault".toList, "fault_pc".toList, "fault_instruction".toList, "fault_address_valid".toList]

/-- The comparison of two retire records. -/
def retireDifference : Except PyException (Option Str) := do
  let difference ← firstDifference repr expected actual retireHead
  let difference ← nextDifference repr expected actual (itemTruthy expected "reg_write".toList)
    ["rd".toList, "reg_value".toList] difference
  let difference ← nextDifference repr expected actual (.ok true) ["mem_write".toList] difference
  nextDifference repr expected actual (itemTruthy expected "mem_write".toList)
    ["mem_addr".toList, "mem_value".toList] difference

/-- The address is looked at only if the record faulted and nothing differs yet. -/
def finalDifference : Except PyException (Option Str) := do
  let difference ← firstDifference repr expected actual finalHead
  match difference with
  | some difference => return some difference
  | none => do
      let faulted ← statusFaulted expected
      if faulted then do
        let difference ← firstDifference repr expected actual faultHead
        nextDifference repr expected actual (itemTruthy expected "fault_address_valid".toList)
          ["fault_address".toList] difference
      else return none

/-- The end of a mismatch message. -/
def bothRecords : Str :=
  "\nC++: ".toList ++ repr (.object expected) ++ "\nRTL: ".toList ++ repr (.object actual)

/-- The loop over the pairs of retire records, numbered from `index`. -/
def compareRetires : ℕ → List (Record × Record) → Except PyException Unit
  | _, [] => .ok ()
  | index, (expected, actual) :: pairs => do
      let difference ← retireDifference repr expected actual
      match difference with
      | some difference =>
          .error (.differentialMismatch ("Differential mismatch at retirement ".toList ++
            decimal index ++ ": ".toList ++ difference ++ bothRecords repr expected actual))
      | none => compareRetires (index + 1) pairs

/-- `trace[-1]` -/
def lastRecord (trace : List Record) : Except PyException Record :=
  match trace.getLast? with
  | some record => .ok record
  | none => .error .indexError

/-- `if difference is not None: raise DifferentialMismatch(...)` -/
def raiseFinal (expected actual : Record) : Option Str → Except PyException Unit
  | none => .ok ()
  | some difference =>
      .error (.differentialMismatch ("Differential final-state mismatch: ".toList ++ difference ++
        bothRecords repr expected actual))

/-- `compare_traces` -/
def compareTraces (cpp rtl : List Record) : Except PyException Unit := do
  let cppRetire := cpp.dropLast
  let rtlRetire := rtl.dropLast
  compareRetires repr 0 (cppRetire.zip rtlRetire)
  if cppRetire.length ≠ rtlRetire.length then
    .error (.differentialMismatch ("retirement trace length differs: C++=".toList ++
      decimal cppRetire.length ++ ", RTL=".toList ++ decimal rtlRetire.length))
  else do
    let expected ← lastRecord cpp
    let actual ← lastRecord rtl
    let difference ← finalDifference repr expected actual
    raiseFinal repr expected actual difference

end Comparison

/-! ## Agreement -/

/-- The records hold the same values in these fields. -/
def AgreeOn (fields : List Str) (expected actual : Record) : Prop :=
  ∀ field ∈ fields, ∃ value other, expected.lookup field = some value ∧
    actual.lookup field = some other ∧ Same value other

/-- The field is true. -/
def IsSet (record : Record) (field : Str) : Prop := record.lookup field = some (.bool true)

/-- Agreement of two retire records. -/
structure RetireAgrees (expected actual : Record) : Prop where
  common : AgreeOn ["pc".toList, "instruction".toList, "next_pc".toList, "reg_write".toList,
    "mem_write".toList] expected actual
  register : IsSet expected "reg_write".toList →
    AgreeOn ["rd".toList, "reg_value".toList] expected actual
  memory : IsSet expected "mem_write".toList →
    AgreeOn ["mem_addr".toList, "mem_value".toList] expected actual

/-- Agreement of two final records. -/
structure FinalAgrees (expected actual : Record) : Prop where
  common : AgreeOn ["status".toList, "pc".toList, "retired".toList, "uart_tx".toList,
    "debug_value".toList, "gpio_output".toList, "gpio_direction".toList, "timer_counter".toList,
    "timer_compare".toList, "timer_control".toList] expected actual
  fault : isFaulted expected = true → AgreeOn ["fault".toList, "fault_pc".toList,
    "fault_instruction".toList, "fault_address_valid".toList] expected actual
  address : isFaulted expected = true → IsSet expected "fault_address_valid".toList →
    AgreeOn ["fault_address".toList] expected actual

/-- **Architectural agreement**: as many retire records, which agree pair by pair, and
final records that agree. -/
def TraceAgrees (cpp rtl : List Record) : Prop :=
  ∃ retires final retires' final', cpp = retires ++ [final] ∧ rtl = retires' ++ [final'] ∧
    List.Forall₂ RetireAgrees retires retires' ∧ FinalAgrees final final'

/-! ## Fields that can be compared -/

section Fields

variable {fields fields' : List Str} {expected actual record : Record} {field : Str}

/-- The values of these fields are texts in both records, or numbers in both. -/
def ComparableOn (fields : List Str) (expected actual : Record) : Prop :=
  ∀ field ∈ fields, ∃ value other, expected.lookup field = some value ∧
    actual.lookup field = some other ∧ Comparable value other

/-- Fewer fields. -/
theorem ComparableOn.mono (h : ComparableOn fields expected actual) (hsub : fields' ⊆ fields) :
    ComparableOn fields' expected actual := fun field hmem => h field (hsub hmem)

/-- One field. -/
theorem comparableOn_singleton {value other : Json} (h : expected.lookup field = some value)
    (h' : actual.lookup field = some other) (hcomparable : Comparable value other) :
    ComparableOn [field] expected actual := by
  intro _ hmem
  obtain rfl := List.mem_singleton.mp hmem
  exact ⟨value, other, h, h', hcomparable⟩

/-- Two lists of fields. -/
theorem comparableOn_append (h : ComparableOn fields expected actual)
    (h' : ComparableOn fields' expected actual) :
    ComparableOn (fields ++ fields') expected actual :=
  List.forall_mem_append.mpr ⟨h, h'⟩

/-- Booleans can be compared, … -/
theorem HasBool.comparable (h : HasBool expected field) (h' : HasBool actual field) :
    ComparableOn [field] expected actual := by
  obtain ⟨b, hb⟩ := h
  obtain ⟨c, hc⟩ := h'
  exact comparableOn_singleton hb hc (.int rfl rfl)

/-- … so can numbers … -/
theorem HasNumber.comparable {m n : ℤ} (h : HasNumber Counts expected field m)
    (h' : HasNumber Counts actual field n) : ComparableOn [field] expected actual := by
  obtain ⟨value, hvalue, hm⟩ := h
  obtain ⟨other, hother, hn⟩ := h'
  exact comparableOn_singleton hvalue hother (.int hm hn)

/-- … and texts. -/
theorem HasText.comparable {pattern : Str → Bool} (h : HasText pattern expected field)
    (h' : HasText pattern actual field) : ComparableOn [field] expected actual := by
  obtain ⟨s, hs, -⟩ := h
  obtain ⟨t, ht, -⟩ := h'
  exact comparableOn_singleton hs ht (.str s t)

/-- The words of two records. -/
theorem comparableOn_words (h : ∀ field ∈ fields, HasText isHex32 expected field)
    (h' : ∀ field ∈ fields, HasText isHex32 actual field) :
    ComparableOn fields expected actual := fun field hmem =>
  (h field hmem).comparable (h' field hmem) field (List.mem_singleton_self field)

/-- **Two retire records can be compared.** -/
theorem IsRetire.comparable {m n : ℤ} (h : IsRetire Counts m expected)
    (h' : IsRetire Counts n actual) : ComparableOn RETIRE_FIELDS expected actual := by
  obtain ⟨rd, hrd, -⟩ := h.rd
  obtain ⟨rd', hrd', -⟩ := h'.rd
  have htype : ComparableOn ["type".toList] expected actual :=
    comparableOn_singleton h.type h'.type (.str _ _)
  have hwords := comparableOn_words h.words h'.words
  have hbools := comparableOn_append (h.regWrite.comparable h'.regWrite)
    (h.memWrite.comparable h'.memWrite)
  have hnumbers := comparableOn_append (h.index.comparable h'.index) (hrd.comparable hrd')
  have hall := comparableOn_append (comparableOn_append htype hwords)
    (comparableOn_append hbools hnumbers)
  exact hall.mono (by decide)

/-- **So can two final records.** -/
theorem IsFinal.comparable {m n : ℤ} (h : IsFinal Counts m expected)
    (h' : IsFinal Counts n actual) : ComparableOn FINAL_FIELDS expected actual := by
  have htext : ∀ {record : Record} {k : ℤ}, IsFinal Counts k record →
      HasText (fun _ => true) record "status".toList := by
    intro record k hrecord
    rcases hrecord.status with hs | hs <;> exact ⟨_, hs, rfl⟩
  have htype : ComparableOn ["type".toList] expected actual :=
    comparableOn_singleton h.type h'.type (.str _ _)
  have hstatus := (htext h).comparable (htext h')
  have hwords := comparableOn_words h.words h'.words
  have htexts := comparableOn_append (h.pc.comparable h'.pc) (h.uart.comparable h'.uart)
  have hall := comparableOn_append (comparableOn_append htype hstatus)
    (comparableOn_append (comparableOn_append htexts hwords) (h.retired.comparable h'.retired))
  exact hall.mono (by decide)

/-- The fields of two faults can be compared. -/
theorem IsFault.comparable (h : IsFault expected) (h' : IsFault actual) :
    ComparableOn FAULT_FIELDS expected actual := by
  obtain ⟨s, hs⟩ := h.fault
  obtain ⟨t, ht⟩ := h'.fault
  have hfault : ComparableOn ["fault".toList] expected actual :=
    comparableOn_singleton hs ht (.str s t)
  have hwords := comparableOn_words h.words h'.words
  have hall := comparableOn_append (comparableOn_append hfault hwords)
    (h.addressValid.comparable h'.addressValid)
  exact hall.mono (by decide)

end Fields

/-! ## What the comparisons decide -/

section Decisions

variable {repr : Json → Str} {fields fields' : List Str} {expected actual record : Record}
  {m n : ℤ} {P Q : Prop}

/-- The comparison raises nothing, and finds no difference exactly when `P` holds. -/
def Decides (comparison : Except PyException (Option Str)) (P : Prop) : Prop :=
  ∃ difference, comparison = .ok difference ∧ (difference = none ↔ P)

/-- The same property, said otherwise. -/
theorem Decides.congr {comparison : Except PyException (Option Str)} (h : Decides comparison P)
    (hiff : P ↔ Q) : Decides comparison Q := by
  obtain ⟨difference, heq, hdifference⟩ := h
  exact ⟨difference, heq, hdifference.trans hiff⟩

/-- The first field and the others. -/
theorem agreeOn_cons {field : Str} {value other : Json} (h : expected.lookup field = some value)
    (h' : actual.lookup field = some other) : AgreeOn (field :: fields) expected actual ↔
      Same value other ∧ AgreeOn fields expected actual := by
  refine List.forall_mem_cons.trans (and_congr_left' ?_)
  rw [h, h']
  simp only [Option.some.injEq, exists_and_left, exists_eq_left']

/-- No difference is found in fields that agree. -/
theorem firstDifference_decides (h : ComparableOn fields expected actual) :
    Decides (firstDifference repr expected actual fields) (AgreeOn fields expected actual) := by
  induction fields with
  | nil => exact ⟨none, rfl, iff_of_true rfl (List.forall_mem_nil _)⟩
  | cons field fields ih =>
      obtain ⟨⟨value, other, hvalue, hother, hcomparable⟩, hfields⟩ := List.forall_mem_cons.mp h
      rw [firstDifference, getItem_eq_ok.mpr hvalue, getItem_eq_ok.mpr hother]
      simp only [Except.bind, bind]
      by_cases heq : value.eq other = true
      · have hsame := hcomparable.eq_iff.mp heq
        rw [if_pos heq]
        refine (ih hfields).congr ?_
        rw [agreeOn_cons hvalue hother, and_iff_right hsame]
      · rw [if_neg heq]
        refine ⟨some _, rfl, iff_of_false nofun fun hagree => heq ?_⟩
        exact hcomparable.eq_iff.mpr ((agreeOn_cons hvalue hother).mp hagree).1

/-- **One more stage**, which is reached if nothing differs yet. -/
theorem Decides.bind {comparison : Except PyException (Option Str)}
    {next : Option Str → Except PyException (Option Str)} (h : Decides comparison P)
    (hsome : ∀ text, next (some text) = .ok (some text)) (hnone : P → Decides (next none) Q) :
    Decides (comparison >>= next) (P ∧ Q) := by
  obtain ⟨difference, rfl, hdifference⟩ := h
  cases difference with
  | some text =>
      exact ⟨some text, hsome text, iff_of_false nofun fun ⟨hP, _⟩ => nomatch hdifference.mpr hP⟩
  | none =>
      have hP := hdifference.mp rfl
      exact (hnone hP).congr (and_iff_right hP).symm

/-- The fields of a guarded stage count if the guard holds. -/
theorem nextDifference_decides {guard : Except PyException Bool} {b : Bool} (hguard : guard = .ok b)
    (hfields : b = true → ComparableOn fields expected actual) :
    Decides (nextDifference repr expected actual guard fields none)
      (b = true → AgreeOn fields expected actual) := by
  subst hguard
  cases b with
  | false => exact ⟨none, rfl, iff_of_true rfl nofun⟩
  | true =>
      refine (firstDifference_decides (hfields rfl)).congr ?_
      simp only [forall_const]

/-- One more stage, which is taken under its guard. -/
theorem Decides.next {comparison : Except PyException (Option Str)} (h : Decides comparison P)
    {guard : Except PyException Bool} {b : Bool} (hguard : P → guard = .ok b)
    (hfields : P → b = true → ComparableOn fields expected actual) :
    Decides (comparison >>= nextDifference repr expected actual guard fields)
      (P ∧ (b = true → AgreeOn fields expected actual)) :=
  h.bind (fun _ => rfl) fun hP => nextDifference_decides (hguard hP) (hfields hP)

/-- A boolean field as a guard. -/
theorem itemTruthy_eq {field : Str} {b : Bool} (h : record.lookup field = some (.bool b)) :
    itemTruthy record field = .ok b := by
  rw [itemTruthy, getItem_eq_ok.mpr h]
  rfl

/-- A field that is set. -/
theorem isSet_iff {field : Str} {b : Bool} (h : record.lookup field = some (.bool b)) :
    IsSet record field ↔ b = true := by
  rw [IsSet, h]
  simp

/-- The status as a guard. -/
theorem statusFaulted_eq (h : IsFinal Counts n record) :
    statusFaulted record = .ok (isFaulted record) := by
  rcases h.status with hs | hs
  all_goals
    rw [statusFaulted, isFaulted, getItem_eq_ok.mpr hs, hs]
    rfl

/-- Records that agree on their status fault together. -/
theorem AgreeOn.isFaulted (h : AgreeOn fields expected actual) (hmem : "status".toList ∈ fields)
    (hfaulted : isFaulted expected = true) : isFaulted actual = true := by
  obtain ⟨value, other, hvalue, hother, hsame⟩ := h _ hmem
  rw [isFaulted_iff] at hfaulted ⊢
  obtain rfl := Option.some.inj (hvalue.symm.trans hfaulted)
  cases hsame with
  | str s => exact hother
  | int h => nomatch h

/-- Agreement on two lists of fields. -/
theorem agreeOn_append : AgreeOn (fields ++ fields') expected actual ↔
    AgreeOn fields expected actual ∧ AgreeOn fields' expected actual := List.forall_mem_append

/-- Both records have this type. -/
theorem agreeOn_type {type : Str} (h : expected.lookup "type".toList = some (.str type))
    (h' : actual.lookup "type".toList = some (.str type)) :
    AgreeOn ["type".toList] expected actual :=
  (agreeOn_cons h h').mpr ⟨.str type, List.forall_mem_nil _⟩

/-- Agreement on a numeric field. -/
theorem HasNumber.agreeOn {field : Str} (h : HasNumber Counts expected field n)
    (h' : HasNumber Counts actual field n) : AgreeOn [field] expected actual := by
  obtain ⟨value, hvalue, hn⟩ := h
  obtain ⟨other, hother, hn'⟩ := h'
  exact (agreeOn_cons hvalue hother).mpr ⟨.int hn hn', List.forall_mem_nil _⟩

/-- **Retire records** of the same number. -/
theorem retireDifference_decides (h : IsRetire Counts n expected)
    (h' : IsRetire Counts n actual) :
    Decides (retireDifference repr expected actual) (RetireAgrees expected actual) := by
  have hcomparable := h.comparable h'
  obtain ⟨regWrite, hregWrite⟩ := h.regWrite
  obtain ⟨memWrite, hmemWrite⟩ := h.memWrite
  have hstages : retireDifference repr expected actual =
      (((firstDifference repr expected actual retireHead >>=
        nextDifference repr expected actual (itemTruthy expected "reg_write".toList)
          ["rd".toList, "reg_value".toList]) >>=
        nextDifference repr expected actual (.ok true) ["mem_write".toList]) >>=
        nextDifference repr expected actual (itemTruthy expected "mem_write".toList)
          ["mem_addr".toList, "mem_value".toList]) := by
    simp only [retireDifference, bind_assoc]
  rw [hstages]
  refine ((((firstDifference_decides (hcomparable.mono (by decide))).next
    (fun _ => itemTruthy_eq hregWrite) fun _ _ => hcomparable.mono (by decide)).next
    (fun _ => rfl) fun _ _ => hcomparable.mono (by decide)).next
    (fun _ => itemTruthy_eq hmemWrite) fun _ _ => hcomparable.mono (by decide)).congr ?_
  have hhead : retireHead = ["type".toList] ++ (["index".toList] ++
      ["pc".toList, "instruction".toList, "next_pc".toList, "reg_write".toList]) := rfl
  have hcommon : ["pc".toList, "instruction".toList, "next_pc".toList, "reg_write".toList,
      "mem_write".toList] = ["pc".toList, "instruction".toList, "next_pc".toList,
        "reg_write".toList] ++ ["mem_write".toList] := rfl
  rw [hhead, agreeOn_append, agreeOn_append, and_iff_right (agreeOn_type h.type h'.type),
    and_iff_right (h.index.agreeOn h'.index)]
  constructor
  · rintro ⟨⟨⟨hhead, hregister⟩, hwrite⟩, hmemory⟩
    exact
      { common := hcommon ▸ agreeOn_append.mpr ⟨hhead, hwrite rfl⟩
        register := fun hreg => hregister ((isSet_iff hregWrite).mp hreg)
        memory := fun hmem => hmemory ((isSet_iff hmemWrite).mp hmem) }
  · intro hagree
    obtain ⟨hhead, hwrite⟩ := agreeOn_append.mp (hcommon ▸ hagree.common)
    exact ⟨⟨⟨hhead, fun hreg => hagree.register ((isSet_iff hregWrite).mpr hreg)⟩, fun _ => hwrite⟩,
      fun hmem => hagree.memory ((isSet_iff hmemWrite).mpr hmem)⟩

/-- What is left of the comparison once the records agree on the fields of every final
record. -/
theorem faultDifference_decides (h : IsFault expected) (h' : IsFault actual) :
    Decides (do
        let difference ← firstDifference repr expected actual faultHead
        nextDifference repr expected actual (itemTruthy expected "fault_address_valid".toList)
          ["fault_address".toList] difference)
      (AgreeOn faultHead expected actual ∧ (IsSet expected "fault_address_valid".toList →
        AgreeOn ["fault_address".toList] expected actual)) := by
  have hcomparable := h.comparable h'
  obtain ⟨valid, hvalid⟩ := h.addressValid
  rw [isSet_iff hvalid]
  exact (firstDifference_decides (hcomparable.mono (by decide))).next
    (fun _ => itemTruthy_eq hvalid) fun _ _ => hcomparable.mono (by decide)

/-- **Final records.** -/
theorem finalDifference_decides {m : ℤ} (h : IsFinal Counts m expected)
    (h' : IsFinal Counts n actual) :
    Decides (finalDifference repr expected actual) (FinalAgrees expected actual) := by
  have hhead : finalHead = ["type".toList] ++ ["status".toList, "pc".toList, "retired".toList,
      "uart_tx".toList, "debug_value".toList, "gpio_output".toList, "gpio_direction".toList,
      "timer_counter".toList, "timer_compare".toList, "timer_control".toList] := rfl
  refine Decides.congr (P := AgreeOn finalHead expected actual ∧ (isFaulted expected = true →
    AgreeOn faultHead expected actual ∧ (IsSet expected "fault_address_valid".toList →
      AgreeOn ["fault_address".toList] expected actual))) ?_ ?_
  · unfold finalDifference
    refine (firstDifference_decides ((h.comparable h').mono (by decide))).bind (fun _ => rfl)
      fun hagree => ?_
    simp only [statusFaulted_eq h, Except.bind, Bind.bind]
    by_cases hfaulted : isFaulted expected = true
    · have hfaulted' := hagree.isFaulted (by decide) hfaulted
      rw [if_pos hfaulted]
      refine (faultDifference_decides (h.fault (isFaulted_iff.mp hfaulted))
        (h'.fault (isFaulted_iff.mp hfaulted'))).congr ?_
      simp only [hfaulted, forall_const]
    · rw [if_neg hfaulted]
      exact ⟨none, rfl, iff_of_true rfl fun h => absurd h hfaulted⟩
  · rw [hhead, agreeOn_append, and_iff_right (agreeOn_type h.type h'.type)]
    constructor
    · rintro ⟨hcommon, hfault⟩
      exact ⟨hcommon, fun hfaulted => (hfault hfaulted).1, fun hfaulted => (hfault hfaulted).2⟩
    · intro hagree
      exact ⟨hagree.common, fun hfaulted => ⟨hagree.fault hfaulted, hagree.address hfaulted⟩⟩

/-! ## Whole traces -/

/-- The exception of a comparison. -/
def IsMismatch (e : PyException) : Prop := ∃ message, e = .differentialMismatch message

/-- The retire records in turn. -/
theorem compareRetires_spec {pairs : List (Record × Record)} {index : ℕ}
    (h : ∀ pair ∈ pairs, ∃ n : ℤ, IsRetire Counts n pair.1 ∧ IsRetire Counts n pair.2) :
    Raises IsMismatch (compareRetires repr index pairs) ∧
      (compareRetires repr index pairs = .ok () ↔ ∀ pair ∈ pairs, RetireAgrees pair.1 pair.2) := by
  induction pairs generalizing index with
  | nil => exact ⟨.ok (), iff_of_true rfl (List.forall_mem_nil _)⟩
  | cons pair pairs ih =>
      obtain ⟨⟨n, hexpected, hactual⟩, hpairs⟩ := List.forall_mem_cons.mp h
      obtain ⟨difference, hdifference, hnone⟩ :
          Decides (retireDifference repr pair.1 pair.2) (RetireAgrees pair.1 pair.2) :=
        retireDifference_decides hexpected hactual
      rw [compareRetires, hdifference, List.forall_mem_cons, ← hnone]
      cases difference with
      | some text => exact ⟨.error ⟨_, rfl⟩, iff_of_false nofun fun h => nomatch h.1⟩
      | none => exact ⟨(ih hpairs).1, (ih hpairs).2.trans (and_iff_right rfl).symm⟩

/-- A difference of the final records is a mismatch. -/
theorem raiseFinal_spec (difference : Option Str) :
    Raises IsMismatch (raiseFinal repr expected actual difference) ∧
      (raiseFinal repr expected actual difference = .ok () ↔ difference = none) := by
  cases difference with
  | none => exact ⟨.ok (), iff_of_true rfl rfl⟩
  | some text => exact ⟨.error ⟨_, rfl⟩, iff_of_false nofun nofun⟩

/-- Paired retire records have the same number. -/
theorem retires_zip {retires retires' : List Record}
    (h : ∀ (k : ℕ) r, retires[k]? = some r → IsRetire Counts k r)
    (h' : ∀ (k : ℕ) r, retires'[k]? = some r → IsRetire Counts k r) :
    ∀ pair ∈ retires.zip retires',
      ∃ n : ℤ, IsRetire Counts n pair.1 ∧ IsRetire Counts n pair.2 := by
  intro pair hmem
  obtain ⟨k, hk⟩ := List.getElem?_of_mem hmem
  obtain ⟨hleft, hright⟩ := List.getElem?_zip_eq_some.mp hk
  exact ⟨k, h k _ hleft, h' k _ hright⟩

/-- Traces agree in their retire records and in their final ones. -/
theorem traceAgrees_concat {retires retires' : List Record} {final final' : Record} :
    TraceAgrees (retires ++ [final]) (retires' ++ [final']) ↔
      List.Forall₂ RetireAgrees retires retires' ∧ FinalAgrees final final' := by
  constructor
  · rintro ⟨_, _, _, _, heq, heq', hall, hlast⟩
    obtain ⟨rfl, hsingle⟩ := List.append_inj' heq rfl
    obtain ⟨rfl, hsingle'⟩ := List.append_inj' heq' rfl
    obtain rfl := List.singleton_inj.mp hsingle
    obtain rfl := List.singleton_inj.mp hsingle'
    exact ⟨hall, hlast⟩
  · rintro ⟨hall, hlast⟩
    exact ⟨_, _, _, _, rfl, rfl, hall, hlast⟩

/-- **`compare_traces`** passes traces that agree, and raises a `DifferentialMismatch`
otherwise. -/
theorem compareTraces_spec {cpp rtl : List Record} (h : IsTrace Counts cpp)
    (h' : IsTrace Counts rtl) :
    Raises IsMismatch (compareTraces repr cpp rtl) ∧
      (compareTraces repr cpp rtl = .ok () ↔ TraceAgrees cpp rtl) := by
  obtain ⟨retires, final, rfl, hretires, hfinal⟩ := h
  obtain ⟨retires', final', rfl, hretires', hfinal'⟩ := h'
  obtain ⟨hraises, hpairs⟩ :=
    @compareRetires_spec repr (retires.zip retires') 0 (retires_zip hretires hretires')
  obtain ⟨difference, hdifference, hnone⟩ :
      Decides (finalDifference repr final final') (FinalAgrees final final') :=
    finalDifference_decides hfinal hfinal'
  obtain ⟨hraisesFinal, hfinalNone⟩ := @raiseFinal_spec repr final final' difference
  rw [traceAgrees_concat, List.forall₂_iff_zip]
  simp only [compareTraces, List.dropLast_concat, lastRecord, List.getLast?_concat]
  by_cases hlength : retires.length = retires'.length
  · have hlast : (do
        let expected ← Except.ok final
        let actual ← Except.ok final'
        let difference ← finalDifference repr expected actual
        raiseFinal repr expected actual difference) = raiseFinal repr final final' difference := by
      show (finalDifference repr final final' >>= _) = _
      rw [hdifference]
      rfl
    simp only [ne_eq, hlength, not_true_eq_false, if_false, true_and, hlast]
    refine ⟨.bind hraises fun _ => hraisesFinal, ?_⟩
    rw [bind_eq_ok, hfinalNone, hnone]
    constructor
    · rintro ⟨_, hall, hagree⟩
      exact ⟨fun hmem => hpairs.mp hall _ hmem, hagree⟩
    · rintro ⟨hall, hagree⟩
      exact ⟨(), hpairs.mpr fun _ hmem => hall hmem, hagree⟩
  · simp only [ne_eq, hlength, not_false_eq_true, if_true, false_and, iff_false]
    refine ⟨.bind hraises fun _ => .error ⟨_, rfl⟩, fun hok => ?_⟩
    obtain ⟨_, -, hok⟩ := bind_eq_ok.mp hok
    nomatch hok

end Decisions

end Mini32.Verification
