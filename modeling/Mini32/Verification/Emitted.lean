import Mini32.Lib.JsonRead
import Mini32.Simulator.Outcomes
import Mini32.Verification.SchemaContract

/-!
# The reference trace is a valid trace

`ref_trace` prints JSON by hand, one flat object a line; `parse_trace` reads what
it printed.  The texts of both are compared here: a record is printed as the JSON
text of an object (`emitRetire_eq`, `emitFinal_eq`), and that object passes the
schema because of what is known of the run.

What has to be known is little.  A register that changed is one of 32, which bounds `rd`;
records are numbered in the order of the loop (`run_spec`); the final record has a fault
exactly if it is not `halted` (`IsConsistent`); and the texts are made of lower-case digits
(`IsHexText`), so they match the patterns and are their own lower case.

What is assumed of `json.loads` is that it reads back objects that are printed like this
(`IsReadable`); the reader of `JsonRead` does.
-/

namespace Mini32.Verification

open Py Fallible

/-! ## The objects that are printed -/

section Objects

/-- The object that `emit_retire` prints. -/
def retireObject (r : Cpp.RetireRecord) : Record :=
  [("type".toList, .str "retire".toList), ("index".toList, .int r.index),
    ("pc".toList, .str (Cpp.hex32 r.pc)), ("instruction".toList, .str (Cpp.hex32 r.instruction)),
    ("next_pc".toList, .str (Cpp.hex32 r.nextPc)),
    ("reg_write".toList, .bool r.registerWrite.isSome),
    ("rd".toList, .int (r.registerWrite.map (·.toNat) |>.getD 0 : ℕ)),
    ("reg_value".toList, .str (Cpp.hex32 r.registerValue)),
    ("mem_write".toList, .bool r.memoryWrite),
    ("mem_addr".toList, .str (Cpp.hex32 r.memoryAddress)),
    ("mem_value".toList, .str (Cpp.hex32 r.memoryValue))]

/-- The fields of a fault at the end of the final object. -/
def faultMembers (info : FaultInfo) : Record :=
  [("fault".toList, .str (Cpp.faultName info.code)),
    ("fault_pc".toList, .str (Cpp.hex32 info.pc)),
    ("fault_instruction".toList, .str (Cpp.hex32 info.instruction)),
    ("fault_address_valid".toList, .bool info.dataAddress.isSome),
    ("fault_address".toList, .str (Cpp.hex32 (info.dataAddress.getD 0)))]

/-- The object that `main` prints last. -/
def finalObject (r : Cpp.RefTrace.FinalRecord) : Record :=
  [("type".toList, .str "final".toList),
    ("status".toList, .str (if r.halted then "halted".toList else "faulted".toList)),
    ("pc".toList, .str (Cpp.hex32 r.pc)), ("retired".toList, .int r.retired),
    ("uart_tx".toList, .str (Cpp.RefTrace.hexBytes r.uartTx)),
    ("debug_value".toList, .str (Cpp.hex32 r.debugValue)),
    ("gpio_output".toList, .str (Cpp.hex32 r.gpioOutput)),
    ("gpio_direction".toList, .str (Cpp.hex32 r.gpioDirection)),
    ("timer_counter".toList, .str (Cpp.hex32 r.timerCounter)),
    ("timer_compare".toList, .str (Cpp.hex32 r.timerCompare)),
    ("timer_control".toList, .str (Cpp.hex32 r.timerControl))] ++
  (r.fault.map faultMembers).getD []

/-- How a boolean is printed, … -/
theorem valueText_bool (b : Bool) : valueText (.bool b) = Cpp.RefTrace.printBool b := by
  cases b <;> rfl

/-- … a number … -/
theorem valueText_nat (n : ℕ) : valueText (.int n) = Cpp.decimal n := rfl

/-- … and a text. -/
theorem valueText_str (s : Str) : valueText (.str s) = "\"".toList ++ s ++ "\"".toList := rfl

/-- **A retire record is printed as a JSON object.** -/
theorem emitRetire_eq (r : Cpp.RetireRecord) :
    Cpp.RefTrace.emitRetire r = objectText (retireObject r) ++ ['\n'] := by
  unfold Cpp.RefTrace.emitRetire
  simp only [objectText, retireObject, List.map_cons, List.map_nil, join_cons_cons,
    join_singleton, memberText, valueText_bool, valueText_nat, valueText_str, List.append_assoc]
  simp only [String.reduceToList, List.cons_append, ↓Char.isValue, List.nil_append]

/-- **So is a final record.** -/
theorem emitFinal_eq (r : Cpp.RefTrace.FinalRecord) :
    Cpp.RefTrace.emitFinal r = objectText (finalObject r) ++ ['\n'] := by
  unfold Cpp.RefTrace.emitFinal finalObject
  generalize (if r.halted then "halted".toList else "faulted".toList : Str) = status
  cases r.fault with
  | none =>
      simp only [objectText, Option.map_none, Option.getD_none, List.append_nil, List.map_cons,
        List.map_nil, join_cons_cons, join_singleton, memberText, valueText_nat, valueText_str,
        List.append_assoc]
      simp only [String.reduceToList, List.cons_append, ↓Char.isValue, List.nil_append]
  | some info =>
      simp only [objectText, Option.map_some, Option.getD_some, faultMembers, List.cons_append,
        List.nil_append, List.map_cons, List.map_nil, join_cons_cons, join_singleton, memberText,
        valueText_bool, valueText_nat, valueText_str, List.append_assoc]
      unfold Cpp.RefTrace.emitFault
      simp only [String.reduceToList, List.cons_append, ↓Char.isValue, List.nil_append,
        List.append_assoc]

end Objects

/-! ## What the texts are made of -/

section Texts

variable {s : Str}

/-- Padded hexadecimal digits. -/
theorem mem_leftpad_toDigits {width n : ℕ} {c : Char}
    (h : c ∈ (Nat.toDigits 16 n).leftpad width '0') : ∃ d < 16, c = Nat.digitChar d := by
  rw [List.leftpad, List.mem_append] at h
  rcases h with h | h
  · exact ⟨0, by decide, (List.mem_replicate.mp h).2⟩
  · exact mem_toDigits (by decide) n c h

/-- The digits that are printed are in lower case. -/
theorem digitChar_spec : ∀ d < 16, isHexDigit (Nat.digitChar d) = true ∧
    lowerChar (Nat.digitChar d) = Nat.digitChar d ∧ isVerbatim (Nat.digitChar d) = true := by
  decide

/-- A text of such digits. -/
def IsHexText (s : Str) : Prop := ∀ c ∈ s, ∃ d < 16, c = Nat.digitChar d

/-- Digits in lower case match the patterns, … -/
theorem IsHexText.all (h : IsHexText s) : s.all isHexDigit = true := by
  refine List.all_eq_true.mpr fun c hc => ?_
  obtain ⟨d, hd, rfl⟩ := h c hc
  exact (digitChar_spec d hd).1

/-- … are their own lower case … -/
theorem IsHexText.lower_eq (h : IsHexText s) : lower s = s := by
  refine (List.map_congr_left fun c hc => ?_).trans (List.map_id s)
  obtain ⟨d, hd, rfl⟩ := h c hc
  exact (digitChar_spec d hd).2.1

/-- … and need no escape. -/
theorem IsHexText.verbatim (h : IsHexText s) : s.all isVerbatim = true := by
  refine List.all_eq_true.mpr fun c hc => ?_
  obtain ⟨d, hd, rfl⟩ := h c hc
  exact (digitChar_spec d hd).2.2

/-- A word is printed in such digits, … -/
theorem isHexText_hex32 (value : Word) : IsHexText (Cpp.hex32 value) :=
  fun _ => mem_leftpad_toDigits

/-- … and so are bytes. -/
theorem isHexText_hexBytes (bytes : List (BitVec 8)) : IsHexText (Cpp.RefTrace.hexBytes bytes) := by
  intro c hc
  obtain ⟨byte, -, hbyte⟩ := List.mem_flatMap.mp hc
  exact mem_leftpad_toDigits hbyte

/-- Numbers that fit are filled up to the width. -/
theorem length_leftpad_toDigits {width n : ℕ} (hw : 0 < width) (h : n < 16 ^ width) :
    ((Nat.toDigits 16 n).leftpad width '0').length = width := by
  have hle := (Nat.length_toDigits_le_iff (by decide) hw).mpr h
  rw [List.length_leftpad]
  omega

/-- A printed word matches its pattern, … -/
theorem isHex32_hex32 (value : Word) : isHex32 (Cpp.hex32 value) = true := by
  have hlength : (Cpp.hex32 value).length = 8 := length_leftpad_toDigits (by decide) value.isLt
  rw [isHex32, hlength, (isHexText_hex32 value).all]
  rfl

/-- … and so do printed bytes. -/
theorem isHexBytes_hexBytes (bytes : List (BitVec 8)) :
    isHexBytes (Cpp.RefTrace.hexBytes bytes) = true := by
  have hlength : (Cpp.RefTrace.hexBytes bytes).length % 2 = 0 := by
    induction bytes with
    | nil => rfl
    | cons byte bytes ih =>
        have htwo : ((Nat.toDigits 16 byte.toNat).leftpad 2 '0').length = 2 :=
          length_leftpad_toDigits (by decide) byte.isLt
        rw [Cpp.RefTrace.hexBytes, List.flatMap_cons, List.length_append, htwo, Nat.add_mod_left]
        exact ih
  rw [isHexBytes, hlength, (isHexText_hexBytes bytes).all]
  rfl

/-- The name of a fault needs no escape. -/
theorem verbatim_faultName (code : CpuFault) : (Cpp.faultName code).all isVerbatim = true := by
  cases code <;> decide

end Texts

/-! ## The objects pass the schema -/

section Schema

variable {record : Record} {field : Str} {pattern : Str → Bool}

/-- The field holds digits as they are printed. -/
def HasDigits (pattern : Str → Bool) (record : Record) (field : Str) : Prop :=
  ∃ s, record.lookup field = some (.str s) ∧ IsHexText s ∧ pattern s = true

/-- Such a field passes the check of its pattern, … -/
theorem HasDigits.hasText (h : HasDigits pattern record field) : HasText pattern record field := by
  obtain ⟨s, hs, -, hpattern⟩ := h
  exact ⟨s, hs, hpattern⟩

/-- … which leaves it as it is. -/
theorem HasDigits.lower_eq (h : HasDigits pattern record field) {s : Str}
    (hs : record.lookup field = some (.str s)) : lower s = s := by
  obtain ⟨t, ht, htext, -⟩ := h
  obtain rfl : t = s := Json.str.inj (Option.some.inj (ht.symm.trans hs))
  exact htext.lower_eq

/-- A field with a printed word. -/
theorem hasDigits_hex32 {value : Word} (h : record.lookup field = some (.str (Cpp.hex32 value))) :
    HasDigits isHex32 record field :=
  ⟨_, h, isHexText_hex32 value, isHex32_hex32 value⟩

/-- A printed word is flat. -/
theorem flat_hex32 (value : Word) : Json.IsFlat (.str (Cpp.hex32 value)) :=
  .str (isHexText_hex32 value).verbatim

/-! ### Retire records -/

variable {r : Cpp.RetireRecord}

/-- The words of a retire object. -/
theorem retireObject_words : ∀ field ∈ retireWords, HasDigits isHex32 (retireObject r) field := by
  simp only [retireWords, List.forall_mem_cons, List.not_mem_nil, false_implies, implies_true,
    and_true]
  exact ⟨hasDigits_hex32 rfl, hasDigits_hex32 rfl, hasDigits_hex32 rfl, hasDigits_hex32 rfl,
    hasDigits_hex32 rfl, hasDigits_hex32 rfl⟩

/-- A retire object is a retire record, … -/
theorem isRetire_retireObject (hrd : ∀ rd, r.registerWrite = some rd → rd.toNat < 32) :
    IsRetire IsInteger r.index (retireObject r) := by
  have hrange : (r.registerWrite.map (·.toNat) |>.getD 0) < 32 := by
    cases hwrite : r.registerWrite with
    | none => exact Nat.zero_lt_succ 31
    | some rd => exact hrd rd hwrite
  exact
    { type := rfl
      index := ⟨_, rfl, rfl⟩
      rd := ⟨_, ⟨_, rfl, rfl⟩, Int.natCast_nonneg _, by exact_mod_cast hrange⟩
      regWrite := ⟨_, rfl⟩
      memWrite := ⟨_, rfl⟩
      words := fun field hmem => (retireObject_words field hmem).hasText }

/-- … in lower case … -/
theorem isLower_retireObject : IsLower (retireObject r) := by
  have hfields : hexFields (retireObject r) = retireWords := if_pos (hasType_iff.mpr rfl)
  intro field hmem s hs
  exact (retireObject_words field (hfields ▸ hmem)).lower_eq hs

/-- … and flat. -/
theorem isFlat_retireObject : Dict.IsFlat (retireObject r) := by
  simp only [Dict.IsFlat, retireObject, List.forall_mem_cons, List.not_mem_nil, false_implies,
    implies_true, and_true]
  exact ⟨⟨by decide, .str (by decide)⟩, ⟨by decide, .int _⟩, ⟨by decide, flat_hex32 _⟩,
    ⟨by decide, flat_hex32 _⟩, ⟨by decide, flat_hex32 _⟩, ⟨by decide, .bool _⟩,
    ⟨by decide, .int _⟩, ⟨by decide, flat_hex32 _⟩, ⟨by decide, .bool _⟩,
    ⟨by decide, flat_hex32 _⟩, ⟨by decide, flat_hex32 _⟩⟩

/-! ### Final records -/

variable {final : Cpp.RefTrace.FinalRecord} {info : FaultInfo}

/-- The words of a final object, … -/
theorem finalObject_words : ∀ field ∈ "pc".toList :: finalWords,
    HasDigits isHex32 (finalObject final) field := by
  simp only [finalWords, List.forall_mem_cons, List.not_mem_nil, false_implies, implies_true,
    and_true]
  exact ⟨hasDigits_hex32 rfl, hasDigits_hex32 rfl, hasDigits_hex32 rfl, hasDigits_hex32 rfl,
    hasDigits_hex32 rfl, hasDigits_hex32 rfl, hasDigits_hex32 rfl⟩

/-- … and its byte stream. -/
theorem finalObject_uart : HasDigits isHexBytes (finalObject final) "uart_tx".toList :=
  ⟨_, rfl, isHexText_hexBytes final.uartTx, isHexBytes_hexBytes final.uartTx⟩

/-- Fault fields are those of the fault. -/
theorem lookup_faultFields (hfield : field ∈ FAULT_FIELDS) : (finalObject final).lookup field =
    ((final.fault.map faultMembers).getD []).lookup field := by
  simp only [FAULT_FIELDS, List.mem_cons, List.not_mem_nil, or_false] at hfield
  unfold finalObject
  rw [List.lookup_append]
  rcases hfield with rfl | rfl | rfl | rfl | rfl <;> rfl

/-- The fields of a fault are there exactly if there is one, … -/
theorem isSome_faultField (hfield : field ∈ FAULT_FIELDS) :
    ((finalObject final).lookup field).isSome = final.fault.isSome := by
  rw [lookup_faultFields hfield]
  cases final.fault with
  | none => rfl
  | some info =>
      simp only [FAULT_FIELDS, List.mem_cons, List.not_mem_nil, or_false] at hfield
      rcases hfield with rfl | rfl | rfl | rfl | rfl <;> rfl

/-- … with their words … -/
theorem finalObject_faultWords (h : final.fault = some info) :
    ∀ field ∈ faultWords, HasDigits isHex32 (finalObject final) field := by
  have hsub : ∀ field ∈ faultWords, field ∈ FAULT_FIELDS := by decide
  have hwords : ∀ field ∈ faultWords, HasDigits isHex32 (faultMembers info) field := by
    simp only [faultWords, List.forall_mem_cons, List.not_mem_nil, false_implies, implies_true,
      and_true]
    exact ⟨hasDigits_hex32 rfl, hasDigits_hex32 rfl, hasDigits_hex32 rfl⟩
  intro field hmem
  rw [HasDigits, lookup_faultFields (hsub field hmem), h]
  exact hwords field hmem

/-- … and pass the checks of a fault. -/
theorem isFault_finalObject (h : final.fault = some info) : IsFault (finalObject final) := by
  have hfault : (finalObject final).lookup "fault".toList =
      some (.str (Cpp.faultName info.code)) := by
    rw [lookup_faultFields (by decide), h]
    rfl
  have hvalid : (finalObject final).lookup "fault_address_valid".toList =
      some (.bool info.dataAddress.isSome) := by
    rw [lookup_faultFields (by decide), h]
    rfl
  exact ⟨⟨_, hfault⟩, ⟨_, hvalid⟩, fun field hmem => (finalObject_faultWords h field hmem).hasText⟩

/-- There is a fault unless the core halted. -/
def IsConsistent (final : Cpp.RefTrace.FinalRecord) : Prop := final.fault.isSome = !final.halted

/-- A record that is not halted has its fault. -/
theorem IsConsistent.exists_fault (h : IsConsistent final) (hhalted : final.halted = false) :
    ∃ info, final.fault = some info := by
  rw [IsConsistent, hhalted] at h
  exact Option.isSome_iff_exists.mp h

/-- The status of a final object. -/
theorem finalObject_status : (finalObject final).lookup "status".toList =
    some (.str (if final.halted then "halted".toList else "faulted".toList)) := rfl

/-- It is `halted` exactly if the record is. -/
theorem finalObject_halted :
    (finalObject final).lookup "status".toList = some (.str "halted".toList) ↔
      final.halted = true := by
  have hne : "faulted".toList ≠ "halted".toList := by decide
  rw [finalObject_status, Option.some.injEq, Json.str.injEq]
  cases final.halted with
  | true => exact iff_of_true rfl rfl
  | false => exact iff_of_false hne Bool.false_ne_true

/-- It is that of a fault exactly if the record is not halted. -/
theorem isFaulted_finalObject : isFaulted (finalObject final) = !final.halted := by
  have hne : "halted".toList ≠ "faulted".toList := by decide
  rw [isFaulted, finalObject_status, Option.getD_some, eq_str]
  cases final.halted with
  | true => exact decide_eq_false hne
  | false => exact decide_eq_true rfl

/-- A final object is a final record, … -/
theorem isFinal_finalObject (h : IsConsistent final) :
    IsFinal IsInteger final.retired (finalObject final) := by
  have hstatus : (finalObject final).lookup "status".toList = some (.str "halted".toList) ∨
      (finalObject final).lookup "status".toList = some (.str "faulted".toList) := by
    rw [finalObject_status]
    cases final.halted
    · exact .inr rfl
    · exact .inl rfl
  obtain ⟨hpc, hwords⟩ := List.forall_mem_cons.mp (@finalObject_words final)
  refine ⟨rfl, hstatus, ⟨_, rfl, rfl⟩, hpc.hasText, finalObject_uart.hasText,
    fun field hmem => (hwords field hmem).hasText, fun hfaulted => ?_⟩
  have hhalted : final.halted = false := by
    have hflag := isFaulted_iff.mpr hfaulted
    rwa [isFaulted_finalObject, Bool.not_eq_true'] at hflag
  obtain ⟨info, hinfo⟩ := h.exists_fault hhalted
  exact isFault_finalObject hinfo

/-- … in lower case … -/
theorem isLower_finalObject (h : IsConsistent final) : IsLower (finalObject final) := by
  have hretire : hasType (finalObject final) "retire".toList = false :=
    (hasType_eq rfl).trans (by decide)
  obtain ⟨hpc, hwords⟩ := List.forall_mem_cons.mp (@finalObject_words final)
  intro field hmem s hs
  rw [hexFields, hretire, if_neg Bool.false_ne_true, isFaulted_finalObject] at hmem
  rcases List.mem_cons.mp hmem with rfl | hmem
  · exact hpc.lower_eq hs
  rcases List.mem_cons.mp hmem with rfl | hmem
  · exact finalObject_uart.lower_eq hs
  rcases List.mem_append.mp hmem with hmem | hmem
  · exact (hwords field hmem).lower_eq hs
  · cases hhalted : final.halted with
    | true =>
        rw [hhalted] at hmem
        nomatch hmem
    | false =>
        rw [hhalted] at hmem
        obtain ⟨info, hinfo⟩ := h.exists_fault hhalted
        exact (finalObject_faultWords hinfo field hmem).lower_eq hs

/-- … and flat. -/
theorem isFlat_finalObject : Dict.IsFlat (finalObject final) := by
  have hstatus : (if final.halted then "halted".toList else "faulted".toList : Str).all
      isVerbatim = true := by
    cases final.halted <;> decide
  have huart : Json.IsFlat (.str (Cpp.RefTrace.hexBytes final.uartTx)) :=
    .str (isHexText_hexBytes final.uartTx).verbatim
  have hfault : ∀ member ∈ (final.fault.map faultMembers).getD [],
      member.1.all isVerbatim = true ∧ member.2.IsFlat := by
    cases final.fault with
    | none => exact List.forall_mem_nil _
    | some info =>
        simp only [Option.map_some, Option.getD_some, faultMembers, List.forall_mem_cons,
          List.not_mem_nil, false_implies, implies_true, and_true]
        exact ⟨⟨by decide, .str (verbatim_faultName info.code)⟩, ⟨by decide, flat_hex32 _⟩,
          ⟨by decide, flat_hex32 _⟩, ⟨by decide, .bool _⟩, ⟨by decide, flat_hex32 _⟩⟩
  refine List.forall_mem_append.mpr ⟨?_, hfault⟩
  simp only [List.forall_mem_cons, List.not_mem_nil, false_implies, implies_true, and_true]
  exact ⟨⟨by decide, .str (by decide)⟩, ⟨by decide, .str hstatus⟩, ⟨by decide, flat_hex32 _⟩,
    ⟨by decide, .int _⟩, ⟨by decide, huart⟩, ⟨by decide, flat_hex32 _⟩,
    ⟨by decide, flat_hex32 _⟩, ⟨by decide, flat_hex32 _⟩, ⟨by decide, flat_hex32 _⟩,
    ⟨by decide, flat_hex32 _⟩, ⟨by decide, flat_hex32 _⟩⟩

end Schema

/-! ## What `json.loads` can read back -/

section Readable

/-- A number of 64 bits is under the digit limit. -/
theorem length_toDigits_natAbs {n : ℕ} (h : n < 2 ^ 64) :
    (Nat.toDigits 10 (n : ℤ).natAbs).length ≤ maxStrDigits := by
  have hlt : n < 10 ^ 20 := by omega
  rw [Int.natAbs_natCast]
  exact ((Nat.length_toDigits_le_iff (by decide) (by decide)).mpr hlt).trans (by decide)

/-- The numbers of a retire object are short enough to be read, … -/
theorem isReadable_retireObject {r : Cpp.RetireRecord} (h : r.index < 2 ^ 64) :
    Dict.IsReadable (retireObject r) where
  flat := isFlat_retireObject
  nodup := show RETIRE_FIELDS.Nodup by decide
  digits := by
    have hrd : (r.registerWrite.map (·.toNat) |>.getD 0) < 2 ^ 64 := by
      cases r.registerWrite with
      | none => decide
      | some rd =>
          have hlt := rd.isLt
          simp only [Option.map_some, Option.getD_some]
          omega
    simp only [retireObject, List.forall_mem_cons, List.not_mem_nil, false_implies, implies_true,
      and_true]
    refine ⟨?_, ?_, ?_, ?_, ?_, ?_, ?_, ?_, ?_, ?_, ?_⟩
    all_goals rintro n ⟨⟩
    · exact length_toDigits_natAbs h
    · exact length_toDigits_natAbs hrd

/-- Final records have one integer, and the fields of a fault none. -/
theorem isReadable_final {head tail : Record} (hflat : Dict.IsFlat (head ++ tail))
    (hhead : head.map Prod.fst = FINAL_FIELDS)
    (htail : tail.map Prod.fst = [] ∨ tail.map Prod.fst = FAULT_FIELDS)
    (hdigits : ∀ member ∈ head, ∀ n : ℤ, member.2 = .int n →
      (Nat.toDigits 10 n.natAbs).length ≤ maxStrDigits)
    (hnone : ∀ member ∈ tail, ∀ n : ℤ, member.2 ≠ .int n) : Dict.IsReadable (head ++ tail) where
  flat := hflat
  nodup := by
    rw [List.map_append, hhead]
    rcases htail with htail | htail
    · rw [htail]
      decide
    · rw [htail]
      decide
  digits := List.forall_mem_append.mpr
    ⟨hdigits, fun member hmember n hn => absurd hn (hnone member hmember n)⟩

/-- … and so are those of a final one. -/
theorem isReadable_finalObject {final : Cpp.RefTrace.FinalRecord} (h : final.retired < 2 ^ 64) :
    Dict.IsReadable (finalObject final) := by
  refine isReadable_final isFlat_finalObject rfl ?_ ?_ ?_
  · cases final.fault with
    | none => exact Or.inl rfl
    | some info => exact Or.inr rfl
  · simp only [List.forall_mem_cons, List.not_mem_nil, false_implies, implies_true, and_true]
    refine ⟨?_, ?_, ?_, ?_, ?_, ?_, ?_, ?_, ?_, ?_, ?_⟩
    all_goals rintro n ⟨⟩
    exact length_toDigits_natAbs h
  · cases final.fault with
    | none => exact List.forall_mem_nil _
    | some info => simp [faultMembers]

end Readable

/-! ## The run -/

section Run

open Cpp Cpp.RefTrace

variable {image : Image} {limit : ℕ} {records : List RetireRecord} {cpu cpu' : CpuCore}
  {bus bus' : Bus}

/-- A changed register is one of those compared. -/
theorem mem_of_changedRegister {before after : RegisterFile} {l : List (BitVec 8)}
    {changed : Option (BitVec 8 × Word)} {index : BitVec 8} {value : Word}
    (h : changedRegister before after l changed = .ok (some (index, value))) :
    changed = some (index, value) ∨ index ∈ l := by
  induction l generalizing changed with
  | nil => exact .inl (Except.ok.inj h)
  | cons first l ih =>
      obtain ⟨now, -, h⟩ := bind_eq_ok.mp h
      obtain ⟨was, -, h⟩ := bind_eq_ok.mp h
      split_ifs at h
      · exact (ih h).imp_right (List.mem_cons_of_mem first)
      · rcases ih h with hfirst | hmem
        · obtain ⟨rfl, -⟩ := Prod.mk.inj (Option.some.inj hfirst)
          exact .inr List.mem_cons_self
        · exact .inr (List.mem_cons_of_mem first hmem)

/-- The register of a record is one of 32. -/
theorem traceStep_rd {r : RetireRecord} (h : traceStep cpu bus = .ok (some r, cpu', bus')) :
    ∀ rd, r.registerWrite = some rd → rd.toNat < 32 := by
  intro rd hrd
  obtain ⟨⟨result, c, b⟩, -, h⟩ := bind_eq_ok.mp h
  simp only at h
  split_ifs at h
  · nomatch (Prod.mk.inj (Except.ok.inj h)).1
  · obtain ⟨changed, hchanged, h⟩ := bind_eq_ok.mp h
    obtain ⟨store, -, h⟩ := bind_eq_ok.mp h
    obtain rfl := Option.some.inj (Prod.mk.inj (Except.ok.inj h)).1
    obtain ⟨⟨index, value⟩, rfl, rfl⟩ := Option.map_eq_some_iff.mp hrd
    rcases mem_of_changedRegister hchanged with hnone | hmem
    · nomatch hnone
    · rw [registerIndices_eq] at hmem
      obtain ⟨register, -, rfl⟩ := List.mem_map.mp hmem
      rw [BitVec.toNat_setWidth_of_le (by decide)]
      exact register.isLt

/-- A register that is reported is one of 32. -/
theorem traceLoop_rd (h : traceLoop limit cpu bus = .ok (records, cpu', bus')) :
    ∀ r ∈ records, ∀ rd, r.registerWrite = some rd → rd.toNat < 32 := by
  induction limit generalizing cpu bus records with
  | zero =>
      obtain ⟨rfl, -⟩ := Prod.mk.inj (Except.ok.inj h)
      exact List.forall_mem_nil _
  | succ limit ih =>
      rw [traceLoop] at h
      split_ifs at h
      · obtain ⟨rfl, -⟩ := Prod.mk.inj (Except.ok.inj h)
        exact List.forall_mem_nil _
      · obtain ⟨⟨record, c, b⟩, hstep, h⟩ := bind_eq_ok.mp h
        obtain ⟨⟨records', c', b'⟩, hloop, h⟩ := bind_eq_ok.mp h
        obtain ⟨rfl, hstate⟩ := Prod.mk.inj (Except.ok.inj h)
        obtain ⟨rfl, rfl⟩ := Prod.mk.inj hstate
        refine List.forall_mem_append.mpr ⟨fun r hr => ?_, ih hloop⟩
        obtain rfl := Option.mem_toList.mp hr
        exact traceStep_rd hstep

/-- What is known of a run of the program. -/
theorem run_spec (h : RefTrace.run image limit = .ok (records, cpu, bus)) :
    records.length = cpu.retiredInstructions ∧
      (∀ (k : ℕ) r, records[k]? = some r → r.index = k) ∧
      ∀ r ∈ records, ∀ rd, r.registerWrite = some rd → rd.toNat < 32 := by
  obtain ⟨rom, hcomputer⟩ := computer_eq image
  rw [RefTrace.run, hcomputer] at h
  have hloop : traceLoop limit CpuCore.construct (.fresh rom 0) = .ok (records, cpu, bus) := h
  obtain ⟨records', cpu', bus', hloop', hlogs⟩ :=
    traceLoop_logs limit CpuCore.construct (.fresh rom 0) (Or.inl rfl)
  obtain ⟨rfl, hstate⟩ := Prod.mk.inj (Except.ok.inj (hloop.symm.trans hloop'))
  obtain ⟨rfl, rfl⟩ := Prod.mk.inj hstate
  have hlength : records.length = cpu.retiredInstructions :=
    (hlogs.count.trans (Nat.zero_add records.length)).symm
  have hindex : records.map (·.index) = List.range cpu.retiredInstructions := by
    rw [← hlength, List.range_eq_range']
    exact hlogs.index
  refine ⟨hlength, fun k r hr => ?_, traceLoop_rd hloop⟩
  have hk := congrArg (·[k]?) hindex
  simp only [List.getElem?_map, hr, Option.map_some] at hk
  have hlt : k < cpu.retiredInstructions := hlength ▸ (List.getElem?_eq_some_iff.mp hr).1
  rw [List.getElem?_range hlt] at hk
  exact Option.some.inj hk

/-- What the final record has of the core. -/
theorem finalRecord_spec {final : FinalRecord} (h : finalRecord cpu bus = some final) :
    final.halted = cpu.halted ∧ final.retired = cpu.retiredInstructions ∧
      final.fault.isSome = cpu.faulted ∧ IsConsistent final := by
  unfold finalRecord at h
  split at h
  · nomatch h
  · next hstop =>
      obtain rfl := Option.some.inj h
      refine ⟨rfl, rfl, ?_, ?_⟩
      · cases cpu.faulted <;> rfl
      · have hboth : cpu.faulted = !cpu.halted := by
          unfold CpuCore.halted CpuCore.faulted at hstop ⊢
          generalize cpu.microstate = m at hstop ⊢
          revert hstop
          cases m <;> decide
        rw [IsConsistent, hboth]
        cases cpu.halted <;> rfl

end Run

/-! ## What is parsed -/

section Parsed

open Cpp Cpp.RefTrace

variable {loads : Str → Except Str Json} {repr : Json → Str} {image : Image} {limit : ℕ}
  {records : List RetireRecord} {cpu : CpuCore} {bus : Bus} {final : FinalRecord}

/-- The objects that the program prints of a run, one a line. -/
def printedObjects (records : List RetireRecord) (final : Option FinalRecord) : List Record :=
  records.map retireObject ++ final.toList.map finalObject

/-- **A valid trace of a run** that ended with this core and this final record. -/
structure IsTraceOf (records : List RetireRecord) (cpu : CpuCore) (final : FinalRecord)
    (trace : List Record) : Prop where
  values : trace = records.map retireObject ++ [finalObject final]
  schema : IsTrace IsInteger trace
  index : ∀ (k : ℕ) r, records[k]? = some r → r.index = k
  retired : final.retired = records.length
  retiredByCore : final.retired = cpu.retiredInstructions
  halted : (finalObject final).lookup "status".toList = some (.str "halted".toList) ↔
    cpu.halted = true
  lower : ∀ record ∈ trace, IsLower record
  faultPresent : ∀ field ∈ FAULT_FIELDS,
    ((finalObject final).lookup field).isSome = cpu.faulted
  faultTyped : cpu.faulted = true → IsFault (finalObject final)

/-- What is printed are the texts of the objects. -/
theorem report_eq (records : List RetireRecord) (final : FinalRecord) :
    (report records (some final)).stdout =
      (printedObjects records (some final)).flatMap fun object => objectText object ++ ['\n'] := by
  have hretires : records.flatMap emitRetire =
      (records.map retireObject).flatMap fun object => objectText object ++ ['\n'] := by
    rw [List.flatMap_map]
    exact congrArg (records.flatMap ·) (funext emitRetire_eq)
  rw [report, hretires, printedObjects, Option.toList_some, List.map_singleton,
    List.flatMap_append, List.flatMap_singleton, emitFinal_eq]

/-- Each printed line is given to `json.loads` as it is. -/
theorem payloads_report (records : List RetireRecord) (final : FinalRecord) :
    payloads false (report records (some final)).stdout =
      (printedObjects records (some final)).map objectText := by
  have hflat : ∀ object ∈ printedObjects records (some final), Dict.IsFlat object := by
    refine List.forall_mem_append.mpr ⟨fun object hobject => ?_, ?_⟩
    · obtain ⟨r, -, rfl⟩ := List.mem_map.mp hobject
      exact isFlat_retireObject
    · exact List.forall_mem_singleton.mpr isFlat_finalObject
  have hpayload (object : Dict) :
      payload false (objectText object) = some (objectText object) := by
    rw [payload, strip_objectText]
    rfl
  rw [payloads, report_eq, splitLines_objectLines hflat, List.filterMap_map]
  refine (List.filterMap_congr fun object _ => hpayload object).trans ?_
  exact congrFun List.filterMap_eq_map' _

/-- The objects of a run are a trace. -/
theorem isTrace_printedObjects (hrun : RefTrace.run image limit = .ok (records, cpu, bus))
    (hfinal : finalRecord cpu bus = some final) :
    IsTrace IsInteger (printedObjects records (some final)) := by
  obtain ⟨hlength, hindex, hrd⟩ := run_spec hrun
  obtain ⟨-, hretired, -, hconsistent⟩ := finalRecord_spec hfinal
  refine isTrace_append.mpr ⟨fun k object hobject => ?_, ?_⟩
  · rw [List.getElem?_map, Option.map_eq_some_iff] at hobject
    obtain ⟨r, hr, rfl⟩ := hobject
    have hretire := isRetire_retireObject (hrd r (List.mem_of_getElem? hr))
    rwa [hindex k r hr] at hretire
  · rw [List.length_map, hlength, ← hretired]
    exact isFinal_finalObject hconsistent

/-- The printed objects are in lower case. -/
theorem isLower_printedObjects (hfinal : finalRecord cpu bus = some final) :
    ∀ record ∈ printedObjects records (some final), IsLower record := by
  obtain ⟨-, -, -, hconsistent⟩ := finalRecord_spec hfinal
  refine List.forall_mem_append.mpr ⟨fun object hobject => ?_, ?_⟩
  · obtain ⟨r, -, rfl⟩ := List.mem_map.mp hobject
    exact isLower_retireObject
  · exact List.forall_mem_singleton.mpr (isLower_finalObject hconsistent)

/-- The objects of a run are readable, as long as their number is one of 64 bits. -/
theorem isReadable_printedObjects (hrun : RefTrace.run image limit = .ok (records, cpu, bus))
    (hfinal : finalRecord cpu bus = some final) (hbelow : records.length < 2 ^ 64) :
    ∀ object ∈ printedObjects records (some final), Dict.IsReadable object := by
  obtain ⟨hlength, hindex, -⟩ := run_spec hrun
  obtain ⟨-, hretired, -, -⟩ := finalRecord_spec hfinal
  refine List.forall_mem_append.mpr ⟨fun object hobject => ?_, ?_⟩
  · obtain ⟨r, hr, rfl⟩ := List.mem_map.mp hobject
    obtain ⟨k, hk⟩ := List.getElem?_of_mem hr
    have hklt := (List.getElem?_eq_some_iff.mp hk).1
    exact isReadable_retireObject (by rw [hindex k r hk]; omega)
  · exact List.forall_mem_singleton.mpr (isReadable_finalObject (by omega))

/-- **Every reference trace is valid**, if `json.loads` reads the printed objects as they are
written: whenever the program exits with 0, what it printed is accepted and gives back the
values of the run. -/
theorem refTrace_accepted (hrun : RefTrace.run image limit = .ok (records, cpu, bus))
    (hstatus : (report records (finalRecord cpu bus)).status = 0)
    (hloads : ∀ object ∈ printedObjects records (finalRecord cpu bus),
      loads (objectText object) = .ok (.object object)) :
    ∃ final trace, finalRecord cpu bus = some final ∧
      parseTrace loads repr (report records (finalRecord cpu bus)).stdout false = .ok trace ∧
      IsTraceOf records cpu final trace := by
  cases hfinal : finalRecord cpu bus with
  | none =>
      rw [hfinal] at hstatus
      nomatch hstatus
  | some final =>
      rw [hfinal] at hloads
      obtain ⟨hlength, hindex, -⟩ := run_spec hrun
      obtain ⟨hhalted, hretired, hfault, hconsistent⟩ := finalRecord_spec hfinal
      have hschema := isTrace_printedObjects hrun hfinal
      have hlower : ∀ record ∈ printedObjects records (some final), IsLower record :=
        isLower_printedObjects hfinal
      have hlines : LoadsAll loads false (report records (some final)).stdout
          (printedObjects records (some final)) := by
        rw [LoadsAll, payloads_report, List.forall₂_map_left_iff]
        exact List.forall₂_same.mpr hloads
      have hnormalised : (printedObjects records (some final)).map normalised =
          printedObjects records (some final) :=
        (List.map_congr_left fun object hobject => normalised_eq_self (hlower object hobject)).trans
          (List.map_id _)
      refine ⟨final, printedObjects records (some final), rfl, ?_, ?_⟩
      · exact parseTrace_eq_ok.mpr ⟨_, hlines, hschema.counts, hnormalised.symm⟩
      · exact
          { values := rfl
            schema := hschema
            index := hindex
            retired := hretired.trans hlength.symm
            retiredByCore := hretired
            halted := finalObject_halted.trans (by rw [hhalted])
            lower := hlower
            faultPresent := fun field hfield => (isSome_faultField hfield).trans hfault
            faultTyped := fun hfaulted => by
              obtain ⟨info, hinfo⟩ := Option.isSome_iff_exists.mp (hfault.trans hfaulted)
              exact isFault_finalObject hinfo }

/-- `json.loads` on the text of an object. -/
def loadsObject (line : Str) : Except Str Json :=
  match readObject line with
  | some object => .ok (.object object)
  | none => .error "Expecting value".toList

/-- `LUI r1, 0x1000`, `ADDI r2, r0, 5`, `SW r2, 0(r1)`, and a load from an odd address. -/
def storeImage : Image :=
  ⟨[0x00, 0x10, 0x20, 0x34, 0x05, 0x00, 0x40, 0x24, 0x00, 0x00, 0x41, 0x3C, 0x02, 0x00, 0x61, 0x38],
    by decide, by decide⟩

/-- Three instructions retire, the last of them a store, and the fourth faults: the four lines
of that run are accepted. -/
theorem refTrace_accepted_store : ∃ records cpu bus,
    RefTrace.run storeImage 4 = .ok (records, cpu, bus) ∧
    (records.map (·.memoryWrite) = [false, false, true] ∧ cpu.faulted = true) ∧
    ∃ final trace, finalRecord cpu bus = some final ∧
      parseTrace loadsObject (fun _ => []) (report records (finalRecord cpu bus)).stdout false =
        .ok trace ∧
      IsTraceOf records cpu final trace := by
  have hresult : (RefTrace.run storeImage 4).toOption.map
      (fun result => (result.1.map (·.memoryWrite), result.2.1.faulted,
        (finalRecord result.2.1 result.2.2).isSome)) =
        some ([false, false, true], true, true) := by
    decide +kernel
  cases hrun : RefTrace.run storeImage 4 with
  | error e =>
      rw [hrun] at hresult
      cases hresult
  | ok result =>
      obtain ⟨records, cpu, bus⟩ := result
      rw [hrun] at hresult
      obtain ⟨hwrites, hrest⟩ := Prod.mk.inj (Option.some.inj hresult)
      obtain ⟨hfaulted, hsome⟩ := Prod.mk.inj hrest
      obtain ⟨final, hfinal⟩ := Option.isSome_iff_exists.mp hsome
      have hlength : records.length = 3 := by
        rw [← List.length_map, hwrites]
        rfl
      refine ⟨records, cpu, bus, rfl, ⟨hwrites, hfaulted⟩, refTrace_accepted hrun ?_ ?_⟩
      · rw [hfinal]
        rfl
      · rw [hfinal]
        intro object hobject
        have hreadable := isReadable_printedObjects hrun hfinal (by omega) object hobject
        rw [loadsObject, readObject_objectText hreadable]

end Parsed

end Mini32.Verification
