import Mathlib.Logic.Function.Iterate
import Mathlib.Data.List.Basic

/-!
# Runs of clocked machines

A clocked machine is a next-state function; a run iterates it.  This file has
what the developments over such machines share:

* `run` — a run under a stream of inputs, with the invariant rule `run_invariant`;
* `log` — the events the states of a run emit, in order;
* `Reaches` — one state leads to another, with no event on the way;
* `Emits` — one state leads to another in so many steps, with these events;
* `Stutters` — a simulation in which the concrete machine may mark time.  Each
  concrete step either repeats the abstract state, emits nothing and lowers a
  rank, or matches one abstract step and its event.

A stuttering run and the run it simulates emit the same events, in both
directions: `Stutters.log_of_concrete` for every concrete time, and, because the
rank excludes endless stuttering, `Stutters.log_of_abstract` for every abstract
time.
-/

namespace Clocked

/-! ## Runs under inputs -/

section Run

variable {S I : Type*} (next : I → S → S)

/-- The state after `t` clock edges; the edge at time `t` sees input `inputs t`. -/
def run (inputs : ℕ → I) (s : S) : ℕ → S
  | 0 => s
  | t + 1 => next (inputs t) (run inputs s t)

/-- A run starts in its first state. -/
@[simp] theorem run_zero (inputs : ℕ → I) (s : S) : run next inputs s 0 = s := rfl

/-- One more step of a run. -/
theorem run_succ (inputs : ℕ → I) (s : S) (t : ℕ) :
    run next inputs s (t + 1) = next (inputs t) (run next inputs s t) := rfl

/-- What every edge preserves holds at every time. -/
theorem run_invariant {P : S → Prop} {inputs : ℕ → I} {s : S} (h : P s)
    (hstep : ∀ i s, P s → P (next i s)) (t : ℕ) : P (run next inputs s t) := by
  induction t with
  | zero => exact h
  | succ t ih => exact hstep _ _ ih

/-- A view that every edge commutes with turns a run into a run. -/
theorem map_run {S' : Type*} {next' : I → S' → S'} (view : S → S')
    (hstep : ∀ i s, view (next i s) = next' i (view s)) (inputs : ℕ → I) (s : S) (t : ℕ) :
    view (run next inputs s t) = run next' inputs (view s) t := by
  induction t with
  | zero => rfl
  | succ t ih => rw [run_succ, run_succ, hstep, ih]

end Run

/-! ## Event logs -/

section Log

variable {S E : Type*} (emit : S → Option E) (states : ℕ → S)

/-- The events of the states at times `0, …, n - 1`. -/
def log (n : ℕ) : List E := (List.range n).filterMap fun t => emit (states t)

/-- No events before the first state. -/
@[simp] theorem log_zero : log emit states 0 = [] := rfl

/-- The event of one more state. -/
theorem log_succ (n : ℕ) :
    log emit states (n + 1) = log emit states n ++ (emit (states n)).toList := by
  rw [log, List.range_succ, List.filterMap_append, log]
  cases h : emit (states n) <;> simp [h]

/-- What is logged was emitted. -/
theorem mem_log {n : ℕ} {e : E} : e ∈ log emit states n ↔ ∃ t < n, emit (states t) = some e := by
  simp [log, List.mem_filterMap]

/-- A state that emits nothing leaves the log. -/
theorem log_succ_of_none {n : ℕ} (h : emit (states n) = none) :
    log emit states (n + 1) = log emit states n := by
  rw [log_succ, h, Option.toList_none, List.append_nil]

/-- The event of the first state stands first. -/
theorem log_succ' (n : ℕ) :
    log emit states (n + 1) = (emit (states 0)).toList ++ log emit (fun i => states (i + 1)) n := by
  induction n with
  | zero => simp [log_succ]
  | succ n ih => rw [log_succ, ih, log_succ, List.append_assoc]

/-- The events of two stretches. -/
theorem log_add (m n : ℕ) :
    log emit states (m + n) = log emit states m ++ log emit (fun i => states (m + i)) n := by
  induction n with
  | zero => simp
  | succ n ih => rw [← Nat.add_assoc, log_succ, ih, log_succ, List.append_assoc]

/-- States that emit nothing leave the log. -/
theorem log_eq_of_none {m n : ℕ} (hmn : m ≤ n) (h : ∀ i, m ≤ i → i < n → emit (states i) = none) :
    log emit states n = log emit states m := by
  induction hmn with
  | refl => rfl
  | @step n hmn ih =>
      rw [log_succ_of_none _ _ (h n hmn (Nat.lt_succ_self n))]
      exact ih fun i hi hin => h i hi (Nat.lt_succ_of_lt hin)

end Log

/-! ## Quiet paths -/

section Reaches

variable {S E : Type*} (next : S → S) (emit : S → Option E)

/-- `s` leads to `s'` in one step or more, and the states between emit nothing. -/
def Reaches (s s' : S) : Prop :=
  ∃ k, next^[k + 1] s = s' ∧ ∀ i < k, emit (next^[i + 1] s) = none

variable {next emit}

/-- One step is a path. -/
theorem Reaches.single (s : S) : Reaches next emit s (next s) :=
  ⟨0, rfl, fun i hi => absurd hi (Nat.not_lt_zero i)⟩

/-- One step, with its state named. -/
theorem Reaches.of_next {s s' : S} (hs : next s = s') : Reaches next emit s s' :=
  hs ▸ Reaches.single s

/-- One quiet step in front of a path. -/
theorem Reaches.cons {s s₁ s' : S} (hs : next s = s₁) (hquiet : emit s₁ = none)
    (h : Reaches next emit s₁ s') : Reaches next emit s s' := by
  subst hs
  obtain ⟨k, hk, hquiets⟩ := h
  refine ⟨k + 1, hk, fun i hi => ?_⟩
  cases i with
  | zero => exact hquiet
  | succ i => exact hquiets i (by omega)

end Reaches

/-! ## Paths and what they emit -/

section Emits

variable {S E : Type*} (next : S → S) (emit : S → Option E)

/-- `s` leads to `s'` in `n` steps, and the states entered on the way emit `events`. -/
structure Emits (n : ℕ) (s : S) (events : List E) (s' : S) : Prop where
  reaches : next^[n] s = s'
  log : log emit (fun i => next^[i + 1] s) n = events

variable {next emit}

/-- The empty path. -/
theorem Emits.refl (s : S) : Emits next emit 0 s [] s := ⟨rfl, rfl⟩

/-- Paths compose, and so do their events. -/
theorem Emits.trans {m n : ℕ} {s s₁ s' : S} {events events' : List E}
    (h : Emits next emit m s events s₁) (h' : Emits next emit n s₁ events' s') :
    Emits next emit (m + n) s (events ++ events') s' := by
  obtain ⟨rfl, rfl⟩ := h
  obtain ⟨rfl, rfl⟩ := h'
  refine ⟨by rw [Nat.add_comm, Function.iterate_add_apply], ?_⟩
  rw [log_add]
  congr 2
  funext i
  rw [← Function.iterate_add_apply]
  congr 1
  omega

/-- A path goes on from where a shorter one ends. -/
theorem Emits.split {m n : ℕ} {s s₁ s' : S} {events events₁ : List E}
    (h : Emits next emit (m + n) s events s') (h₁ : Emits next emit m s events₁ s₁) :
    ∃ rest, events = events₁ ++ rest ∧ Emits next emit n s₁ rest s' := by
  have hrest : Emits next emit n s₁ _ _ := ⟨rfl, rfl⟩
  obtain ⟨hreaches, hlog⟩ := h₁.trans hrest
  refine ⟨_, h.log.symm.trans hlog, ?_⟩
  rw [← h.reaches, hreaches]
  exact hrest

variable (next emit) in
/-- One step and its event. -/
theorem Emits.single (s : S) : Emits next emit 1 s (emit (next s)).toList (next s) :=
  ⟨rfl, by rw [Clocked.log_succ]; rfl⟩

/-- Quiet steps emit nothing, … -/
theorem Emits.of_quiets {k : ℕ} {s : S} (h : ∀ i < k, emit (next^[i + 1] s) = none) :
    Emits next emit k s [] (next^[k] s) := by
  refine ⟨rfl, ?_⟩
  rw [log_eq_of_none _ _ (Nat.zero_le k) fun i _ hi => h i hi, log_zero]

/-- … and one more step emits its own event. -/
theorem Emits.of_quiets_succ {k : ℕ} {s : S} (h : ∀ i < k, emit (next^[i + 1] s) = none) :
    Emits next emit (k + 1) s (emit (next^[k + 1] s)).toList (next^[k + 1] s) := by
  have hlast := Emits.single next emit (next^[k] s)
  rw [← Function.iterate_succ_apply' next k s] at hlast
  exact (Emits.of_quiets h).trans hlast

/-- A quiet path emits the event of its last state. -/
theorem Reaches.emits {s s' : S} (h : Reaches next emit s s') :
    ∃ n, 0 < n ∧ Emits next emit n s (emit s').toList s' := by
  obtain ⟨k, rfl, hquiets⟩ := h
  exact ⟨k + 1, Nat.succ_pos k, Emits.of_quiets_succ hquiets⟩

/-- The log of a run up to the end of a path. -/
theorem Emits.log_succ {n : ℕ} {s s' : S} {events : List E} (h : Emits next emit n s events s') :
    Clocked.log emit (next^[·] s) (n + 1) = (emit s).toList ++ events := by
  rw [log_succ', ← h.log]
  rfl

end Emits

/-! ## Stuttering simulations -/

section Stutters

variable {C A E : Type*}

/-- `R` relates a concrete machine to the abstract one it may lag behind. -/
structure Stutters (nextC : C → C) (nextA : A → A) (emitC : C → Option E) (emitA : A → Option E)
    (R : C → A → Prop) (rank : C → ℕ) : Prop where
  step : ∀ c a, R c a →
    (R (nextC c) a ∧ emitC (nextC c) = none ∧ rank (nextC c) < rank c) ∨
      (R (nextC c) (nextA a) ∧ emitC (nextC c) = emitA (nextA a))

namespace Stutters

variable {nextC : C → C} {nextA : A → A} {emitC : C → Option E} {emitA : A → Option E}
  {R : C → A → Prop} {rank : C → ℕ}

/-- Every concrete time has an abstract time with a related state and the same log. -/
theorem log_of_concrete (h : Stutters nextC nextA emitC emitA R rank) {c : C} {a : A}
    (hR : R c a) (hemit : emitC c = emitA a) (t : ℕ) :
    ∃ j, R (nextC^[t] c) (nextA^[j] a) ∧
      log emitC (nextC^[·] c) (t + 1) = log emitA (nextA^[·] a) (j + 1) := by
  induction t with
  | zero => exact ⟨0, hR, by simp [log_succ, hemit]⟩
  | succ t ih =>
      obtain ⟨j, hj, hlog⟩ := ih
      rw [Function.iterate_succ_apply']
      rcases h.step _ _ hj with ⟨hstay, hquiet, -⟩ | ⟨hmove, hsame⟩
      · refine ⟨j, hstay, ?_⟩
        rw [log_succ_of_none _ _ (by rwa [Function.iterate_succ_apply']), hlog]
      · refine ⟨j + 1, by rwa [Function.iterate_succ_apply'], ?_⟩
        rw [log_succ, hlog, log_succ _ _ (j + 1), Function.iterate_succ_apply',
          Function.iterate_succ_apply', hsame]

/-- From related states the concrete machine reaches the next abstract state, and
logs its event. -/
theorem reaches_next (h : Stutters nextC nextA emitC emitA R rank) {c : C} {a : A} (hR : R c a) :
    ∃ c', Reaches nextC emitC c c' ∧ R c' (nextA a) ∧ emitC c' = emitA (nextA a) := by
  -- on the rank, which falls with every stuttering step
  induction hr : rank c using Nat.strongRecOn generalizing c with
  | ind r ih =>
      rcases h.step c a hR with ⟨hstay, hquiet, hlt⟩ | ⟨hmove, hsame⟩
      · obtain ⟨c', hreach, hc'⟩ := ih _ (hr ▸ hlt) hstay rfl
        exact ⟨c', hreach.cons rfl hquiet, hc'⟩
      · exact ⟨_, Reaches.single c, hmove, hsame⟩

/-- A path of the abstract machine has a path of the concrete one that emits the
same. -/
theorem emits (h : Stutters nextC nextA emitC emitA R rank) {n : ℕ} {c : C} {a a' : A}
    {events : List E} (hR : R c a) (hemit : emitC c = emitA a)
    (ha : Emits nextA emitA n a events a') :
    ∃ m c', Emits nextC emitC m c events c' ∧ R c' a' ∧ emitC c' = emitA a' := by
  obtain ⟨rfl, rfl⟩ := ha
  induction n generalizing c a with
  | zero => exact ⟨0, c, Emits.refl c, hR, hemit⟩
  | succ n ih =>
      obtain ⟨c₁, hreach, hR₁, hemit₁⟩ := h.reaches_next hR
      obtain ⟨k, -, hpath₁⟩ := hreach.emits
      obtain ⟨m, c', hpath, hc'⟩ := ih hR₁ hemit₁
      refine ⟨k + m, c', ?_, hc'⟩
      rw [log_succ']
      exact (hemit₁ ▸ hpath₁).trans hpath

/-- Every abstract time has a concrete time with a related state and the same log. -/
theorem log_of_abstract (h : Stutters nextC nextA emitC emitA R rank) {c : C} {a : A}
    (hR : R c a) (hemit : emitC c = emitA a) (j : ℕ) :
    ∃ t, R (nextC^[t] c) (nextA^[j] a) ∧
      log emitC (nextC^[·] c) (t + 1) = log emitA (nextA^[·] a) (j + 1) := by
  have hpath : Emits nextA emitA j a _ _ := ⟨rfl, rfl⟩
  obtain ⟨t, c', hemits, hR', -⟩ := h.emits hR hemit hpath
  refine ⟨t, hemits.reaches ▸ hR', ?_⟩
  rw [hemits.log_succ, hpath.log_succ, hemit]

end Stutters
end Stutters

end Clocked
