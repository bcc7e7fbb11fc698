import Mini32.Verification.Compare

/-!
# Agreement of traces

Between traces that `parse_trace` returned agreement is an equivalence, although
every guard is taken from one of the two records only: a guard is a field that
the records agree on by then.  The case of the hexadecimal texts is gone.

So symmetry needs that the first trace is of the schema, and transitivity that the middle one
is; the other traces may be anything.  `DecidesEquality` collects what is known of
`compare_traces` on returned traces, in both directions.
-/

namespace Mini32.Verification

open Py Fallible

/-! ## Agreement of records -/

section Records

variable {fields : List Str} {record other third : Record} {n : ℤ} {field : Str}

/-- Agreement on fields is symmetric … -/
theorem AgreeOn.symm (h : AgreeOn fields record other) : AgreeOn fields other record := by
  intro field hmem
  obtain ⟨value, value', hvalue, hvalue', hsame⟩ := h field hmem
  exact ⟨value', value, hvalue', hvalue, hsame.symm⟩

/-- … and transitive. -/
theorem AgreeOn.trans (h : AgreeOn fields record other) (h' : AgreeOn fields other third) :
    AgreeOn fields record third := by
  intro field hmem
  obtain ⟨value, value', hvalue, hvalue', hsame⟩ := h field hmem
  obtain ⟨middle, last, hmiddle, hlast, hsame'⟩ := h' field hmem
  obtain rfl := Option.some.inj (hvalue'.symm.trans hmiddle)
  exact ⟨value, last, hvalue, hlast, hsame.trans hsame'⟩

/-- A record agrees with one that holds the same values. -/
theorem ComparableOn.agreeOn (h : ComparableOn fields record record)
    (hlookup : ∀ field, record.lookup field = other.lookup field) :
    AgreeOn fields record other := by
  intro field hmem
  obtain ⟨value, value', hvalue, hvalue', hcomparable⟩ := h field hmem
  obtain rfl := Option.some.inj (hvalue.symm.trans hvalue')
  exact ⟨value, value, hvalue, (hlookup field).symm.trans hvalue, hcomparable.same⟩

/-- A guard of one record is a guard of the other. -/
theorem AgreeOn.isSet (h : AgreeOn fields record other) (hmem : field ∈ fields)
    (hbool : HasBool other field) (hset : IsSet record field) : IsSet other field := by
  obtain ⟨value, value', hvalue, hvalue', hsame⟩ := h field hmem
  obtain ⟨b, hb⟩ := hbool
  obtain rfl := Option.some.inj (hvalue.symm.trans hset)
  obtain rfl := Option.some.inj (hvalue'.symm.trans hb)
  cases hsame with
  | int h h' =>
      obtain rfl := Option.some.inj h
      cases b with
      | true => exact hb
      | false => nomatch h'

namespace RetireAgrees

theorem of_lookup_eq (h : IsRetire Counts n record)
    (hlookup : ∀ field, record.lookup field = other.lookup field) : RetireAgrees record other := by
  have hcomparable := h.comparable h
  exact ⟨(hcomparable.mono (by decide)).agreeOn hlookup,
    fun _ => (hcomparable.mono (by decide)).agreeOn hlookup,
    fun _ => (hcomparable.mono (by decide)).agreeOn hlookup⟩

theorem symm (hrecord : IsRetire Counts n record) (h : RetireAgrees record other) :
    RetireAgrees other record := by
  refine ⟨h.common.symm, fun hset => ?_, fun hset => ?_⟩
  · exact (h.register (h.common.symm.isSet (by decide) hrecord.regWrite hset)).symm
  · exact (h.memory (h.common.symm.isSet (by decide) hrecord.memWrite hset)).symm

theorem trans (hother : IsRetire Counts n other) (h : RetireAgrees record other)
    (h' : RetireAgrees other third) : RetireAgrees record third := by
  refine ⟨h.common.trans h'.common, fun hset => ?_, fun hset => ?_⟩
  · have hset' := h.common.isSet (by decide) hother.regWrite hset
    exact (h.register hset).trans (h'.register hset')
  · have hset' := h.common.isSet (by decide) hother.memWrite hset
    exact (h.memory hset).trans (h'.memory hset')

end RetireAgrees

namespace FinalAgrees

theorem of_lookup_eq (h : IsFinal Counts n record)
    (hlookup : ∀ field, record.lookup field = other.lookup field) : FinalAgrees record other := by
  have hfault : isFaulted record = true → ComparableOn FAULT_FIELDS record record := by
    intro hfaulted
    have hrecord := h.fault (isFaulted_iff.mp hfaulted)
    exact hrecord.comparable hrecord
  exact ⟨((h.comparable h).mono (by decide)).agreeOn hlookup,
    fun hfaulted => ((hfault hfaulted).mono (by decide)).agreeOn hlookup,
    fun hfaulted _ => ((hfault hfaulted).mono (by decide)).agreeOn hlookup⟩

theorem symm (hrecord : IsFinal Counts n record) (h : FinalAgrees record other) :
    FinalAgrees other record := by
  refine ⟨h.common.symm, fun hother => ?_, fun hother hset => ?_⟩
  · have hrecordFaulted := h.common.symm.isFaulted (by decide) hother
    exact (h.fault hrecordFaulted).symm
  · have hrecordFaulted := h.common.symm.isFaulted (by decide) hother
    have hvalid := (hrecord.fault (isFaulted_iff.mp hrecordFaulted)).addressValid
    have hrecordSet := (h.fault hrecordFaulted).symm.isSet (by decide) hvalid hset
    exact (h.address hrecordFaulted hrecordSet).symm

theorem trans (hother : IsFinal Counts n other) (h : FinalAgrees record other)
    (h' : FinalAgrees other third) : FinalAgrees record third := by
  refine ⟨h.common.trans h'.common, fun hfaulted => ?_, fun hfaulted hset => ?_⟩
  · have hfaulted' := h.common.isFaulted (by decide) hfaulted
    exact (h.fault hfaulted).trans (h'.fault hfaulted')
  · have hfaulted' := h.common.isFaulted (by decide) hfaulted
    have hvalid := (hother.fault (isFaulted_iff.mp hfaulted')).addressValid
    have hset' := (h.fault hfaulted).isSet (by decide) hvalid hset
    exact (h.address hfaulted hset).trans (h'.address hfaulted' hset')

end FinalAgrees

end Records

/-! ## Agreement of traces -/

section Traces

variable {trace other third : List Record}

/-- The retire records of a trace. -/
theorem forall_isRetire {retires : List Record}
    (h : ∀ (k : ℕ) r, retires[k]? = some r → IsRetire Counts k r) :
    ∀ r ∈ retires, ∃ n : ℤ, IsRetire Counts n r := by
  intro r hr
  obtain ⟨k, hk⟩ := List.getElem?_of_mem hr
  exact ⟨k, h k r hk⟩

/-- A trace agrees with one that holds the same values. -/
theorem TraceAgrees.of_lookup_eq (h : IsTrace Counts trace)
    (hlookup : List.Forall₂ (fun r r' : Record => ∀ field, r.lookup field = r'.lookup field)
      trace other) : TraceAgrees trace other := by
  obtain ⟨retires, final, rfl, hretires, hfinal⟩ := h
  rcases List.eq_nil_or_concat' other with rfl | ⟨retires', final', rfl⟩
  · exact absurd hlookup.length_eq (by simp)
  · obtain ⟨hall, hlast⟩ := forall₂_concat.mp hlookup
    refine traceAgrees_concat.mpr ⟨?_, .of_lookup_eq hfinal hlast⟩
    refine ((List.forall₂_and_left _ _).mpr ⟨forall_isRetire hretires, hall⟩).imp ?_
    rintro r r' ⟨⟨n, hr⟩, heq⟩
    exact .of_lookup_eq hr heq

/-- Agreement of traces is symmetric … -/
theorem TraceAgrees.symm (h : IsTrace Counts trace) (hagrees : TraceAgrees trace other) :
    TraceAgrees other trace := by
  obtain ⟨retires, final, retires', final', rfl, rfl, hall, hlast⟩ := hagrees
  obtain ⟨hretires, hfinal⟩ := isTrace_append.mp h
  refine traceAgrees_concat.mpr ⟨List.Forall₂.flip ?_, hlast.symm hfinal⟩
  refine ((List.forall₂_and_left _ _).mpr ⟨forall_isRetire hretires, hall⟩).imp ?_
  rintro r r' ⟨⟨n, hr⟩, hagree⟩
  exact hagree.symm hr

/-- Pair by pair, with what is known of the records in the middle. -/
theorem forall₂_trans {α : Type} {R : α → α → Prop} {p : α → Prop} {l l' l'' : List α}
    (hR : ∀ a b c, p b → R a b → R b c → R a c) (hp : ∀ b ∈ l', p b)
    (h : List.Forall₂ R l l') (h' : List.Forall₂ R l' l'') : List.Forall₂ R l l'' := by
  induction h generalizing l'' with
  | nil => exact h'
  | cons hab _ ih =>
      obtain ⟨hb, hrest⟩ := List.forall_mem_cons.mp hp
      cases h' with
      | cons hbc h' => exact .cons (hR _ _ _ hb hab hbc) (ih hrest h')

/-- … and transitive. -/
theorem TraceAgrees.trans (h : IsTrace Counts other) (hagrees : TraceAgrees trace other)
    (hagrees' : TraceAgrees other third) : TraceAgrees trace third := by
  obtain ⟨retires, final, retires', final', rfl, rfl, hall, hlast⟩ := hagrees
  obtain ⟨hretires, hfinal⟩ := isTrace_append.mp h
  obtain ⟨_, _, retires'', final'', heq, rfl, hall', hlast'⟩ := hagrees'
  obtain ⟨rfl, hsingle⟩ := List.append_inj' heq rfl
  obtain rfl := List.singleton_inj.mp hsingle
  refine traceAgrees_concat.mpr ⟨?_, hlast.trans hfinal hlast'⟩
  exact forall₂_trans (fun _ _ _ ⟨_, hr⟩ => .trans hr) (forall_isRetire hretires) hall hall'

end Traces

/-! ## Traces that were returned -/

section Returned

variable (loads : Str → Except Str Json) (repr : Json → Str)

/-- `parse_trace` returned this trace. -/
def IsReturned (trace : List Record) : Prop :=
  ∃ text isPrefixed, parseTrace loads repr text isPrefixed = .ok trace

/-- The lines of the texts load to objects that differ in the case of hexadecimal texts at
most. -/
def TextsUpToCase (isPrefixed : Bool) (text : Str) (isPrefixed' : Bool) (text' : Str) : Prop :=
  ∃ raws raws', LoadsAll loads isPrefixed text raws ∧ LoadsAll loads isPrefixed' text' raws' ∧
    List.Forall₂ UpToCase raws raws'

/-- **What `compare_traces` decides** about traces that were returned. -/
structure DecidesEquality : Prop where
  agreement : ∀ cpp rtl, IsReturned loads repr cpp → IsReturned loads repr rtl →
    (compareTraces repr cpp rtl = .ok () ↔ TraceAgrees cpp rtl)
  mismatch : ∀ cpp rtl, IsReturned loads repr cpp → IsReturned loads repr rtl →
    ∀ e, compareTraces repr cpp rtl = .error e → ∃ message, e = .differentialMismatch message
  refl : ∀ trace, IsReturned loads repr trace → compareTraces repr trace trace = .ok ()
  symm : ∀ cpp rtl, IsReturned loads repr cpp → IsReturned loads repr rtl →
    compareTraces repr cpp rtl = .ok () → compareTraces repr rtl cpp = .ok ()
  trans : ∀ trace other third, IsReturned loads repr trace → IsReturned loads repr other →
    IsReturned loads repr third → compareTraces repr trace other = .ok () →
    compareTraces repr other third = .ok () → compareTraces repr trace third = .ok ()
  /-- A text in another case is accepted too, and its trace compares like the first one. -/
  upToCase : ∀ isPrefixed text isPrefixed' text' trace,
    TextsUpToCase loads isPrefixed text isPrefixed' text' →
    parseTrace loads repr text isPrefixed = .ok trace →
    ∃ trace', parseTrace loads repr text' isPrefixed' = .ok trace' ∧
      compareTraces repr trace trace' = .ok () ∧
      ∀ other, IsReturned loads repr other →
        (compareTraces repr trace other = .ok () ↔ compareTraces repr trace' other = .ok ()) ∧
        (compareTraces repr other trace = .ok () ↔ compareTraces repr other trace' = .ok ())

variable {loads repr}

/-- A returned trace is of the schema in the loose reading. -/
theorem IsReturned.isTrace {trace : List Record} (h : IsReturned loads repr trace) :
    IsTrace Counts trace := by
  obtain ⟨text, isPrefixed, htext⟩ := h
  obtain ⟨raws, -, htrace, rfl⟩ := parseTrace_eq_ok.mp htext
  exact isTrace_normalised.mpr htrace

/-- A text in another case gives a trace of the same values. -/
theorem parseTrace_upToCase {isPrefixed isPrefixed' : Bool} {text text' : Str}
    {trace : List Record} (h : TextsUpToCase loads isPrefixed text isPrefixed' text')
    (htext : parseTrace loads repr text isPrefixed = .ok trace) :
    ∃ trace', parseTrace loads repr text' isPrefixed' = .ok trace' ∧ TraceAgrees trace trace' := by
  obtain ⟨raws, raws', hloads, hloads', hcase⟩ := h
  obtain ⟨raws₀, hloads₀, htrace, rfl⟩ := parseTrace_eq_ok.mp htext
  have hunique : raws₀ = raws := by
    refine List.right_unique_forall₂' (fun line record record' h h' => ?_) hloads₀ hloads
    exact Json.object.inj (Except.ok.inj (h.symm.trans h'))
  subst hunique
  refine ⟨raws'.map normalised, parseTrace_eq_ok.mpr ⟨raws', hloads', htrace.upToCase hcase, rfl⟩,
    .of_lookup_eq (isTrace_normalised.mpr htrace) ?_⟩
  rw [List.forall₂_map_left_iff, List.forall₂_map_right_iff]
  exact hcase.imp fun _ _ h => h.lookup_normalised

theorem compareTraces_decides : DecidesEquality loads repr := by
  have hagree : ∀ {cpp rtl : List Record}, IsReturned loads repr cpp → IsReturned loads repr rtl →
      (compareTraces repr cpp rtl = .ok () ↔ TraceAgrees cpp rtl) :=
    fun hcpp hrtl => (compareTraces_spec hcpp.isTrace hrtl.isTrace).2
  have hrefl : ∀ trace, IsReturned loads repr trace → TraceAgrees trace trace :=
    fun trace h => .of_lookup_eq h.isTrace (List.forall₂_same.mpr fun _ _ _ => rfl)
  exact
    { agreement := fun cpp rtl hcpp hrtl => hagree hcpp hrtl
      mismatch := fun cpp rtl hcpp hrtl => (compareTraces_spec hcpp.isTrace hrtl.isTrace).1
      refl := fun trace h => (hagree h h).mpr (hrefl trace h)
      symm := fun cpp rtl hcpp hrtl hok =>
        (hagree hrtl hcpp).mpr (((hagree hcpp hrtl).mp hok).symm hcpp.isTrace)
      trans := fun trace other third h hother hthird hok hok' =>
        (hagree h hthird).mpr
          (((hagree h hother).mp hok).trans hother.isTrace ((hagree hother hthird).mp hok'))
      upToCase := by
        intro isPrefixed text isPrefixed' text' trace hcase htext
        obtain ⟨trace', htext', hagrees⟩ := parseTrace_upToCase hcase htext
        have h : IsReturned loads repr trace := ⟨text, isPrefixed, htext⟩
        have h' : IsReturned loads repr trace' := ⟨text', isPrefixed', htext'⟩
        have hagrees' := hagrees.symm h.isTrace
        refine ⟨trace', htext', (hagree h h').mpr hagrees, fun other hother => ?_⟩
        rw [hagree h hother, hagree h' hother, hagree hother h, hagree hother h']
        exact ⟨⟨hagrees'.trans h.isTrace, hagrees.trans h'.isTrace⟩,
          ⟨fun hok => hok.trans h.isTrace hagrees, fun hok => hok.trans h'.isTrace hagrees'⟩⟩ }

end Returned

end Mini32.Verification
