import Mini32.Lib.Run
import Mathlib.Algebra.BigOperators.Group.List.Basic
import Mathlib.Algebra.GroupWithZero.Nat

/-!
# Metered runs

A machine that works through one item after another, each of a known cost in
clock cycles.  `age` says how many cycles the present item has taken.  An edge
either adds one to the age, or completes an item whose cost is then the age, and
starts the next one; a stopped machine does nothing.

`Metered.meter_of_running` reads the clock off such a run: until it stops, the
cycle number is the cost of the items completed plus the age.  Afterwards the
same sum is the cycle in which it stopped.

The age is a function of the state.  That is the design decision here: a machine without a
cycle counter has its timing in its state nonetheless, as the number of cycles since the
last event, and what has to be proved of it is about one edge (`Metered`).  Everything
about times, `time_of_emit` and `stopped_iff`, then follows for any machine and any
assignment of costs.
-/

namespace Clocked

section Meter

variable {S E : Type*}

/-- A run in which the items logged cost what they took. -/
structure Metered (states : ℕ → S) (emit : S → Option E) (cost : E → ℕ) (age : S → ℕ)
    (stopped : S → Prop) : Prop where
  start : emit (states 0) = none ∧ age (states 0) = 0
  ages : ∀ t, ¬ stopped (states t) → emit (states (t + 1)) = none →
    age (states (t + 1)) = age (states t) + 1
  completes : ∀ t e, ¬ stopped (states t) → emit (states (t + 1)) = some e →
    cost e = age (states t) + 1 ∧ age (states (t + 1)) = 0
  rests : ∀ t, stopped (states t) → stopped (states (t + 1)) ∧
    emit (states (t + 1)) = none ∧ age (states (t + 1)) = age (states t)

/-- The cost of the items logged up to cycle `t`, and the age of the present one. -/
def meter (states : ℕ → S) (emit : S → Option E) (cost : E → ℕ) (age : S → ℕ) (t : ℕ) : ℕ :=
  ((log emit states (t + 1)).map cost).sum + age (states t)

namespace Metered

variable {states : ℕ → S} {emit : S → Option E} {cost : E → ℕ} {age : S → ℕ}
  {stopped : S → Prop} (h : Metered states emit cost age stopped)

include h

/-- An edge of a running machine moves the meter by one. -/
theorem meter_succ {t : ℕ} (ht : ¬ stopped (states t)) :
    meter states emit cost age (t + 1) = meter states emit cost age t + 1 := by
  rw [meter, meter, log_succ]
  cases hemit : emit (states (t + 1)) with
  | none =>
      rw [h.ages t ht hemit, Option.toList_none, List.append_nil]
      rfl
  | some e =>
      obtain ⟨hcost, hage⟩ := h.completes t e ht hemit
      rw [hage, Option.toList_some, List.map_append, List.sum_append, List.map_singleton,
        List.sum_singleton, hcost]
      omega

/-- A stopped machine leaves it. -/
theorem meter_rest {t : ℕ} (ht : stopped (states t)) :
    meter states emit cost age (t + 1) = meter states emit cost age t := by
  obtain ⟨-, hemit, hage⟩ := h.rests t ht
  rw [meter, meter, log_succ_of_none _ _ hemit, hage]

/-- Once stopped, it stays so. -/
theorem stopped_mono {t t' : ℕ} (htt' : t ≤ t') (ht : stopped (states t)) :
    stopped (states t') := by
  induction htt' with
  | refl => exact ht
  | step _ ih => exact (h.rests _ ih).1

/-- **While the machine runs, the meter shows the time.** -/
theorem meter_of_running {t : ℕ} (ht : ¬ stopped (states t)) :
    meter states emit cost age t = t := by
  induction t with
  | zero => simp [meter, log_succ, h.start.1, h.start.2]
  | succ t ih =>
      have hbefore : ¬ stopped (states t) := fun hs => ht (h.rests t hs).1
      rw [h.meter_succ hbefore, ih hbefore]

/-- **Once it has stopped, the meter shows since when.** -/
theorem stopped_iff {t : ℕ} (ht : stopped (states t)) (t' : ℕ) :
    stopped (states t') ↔ meter states emit cost age t ≤ t' := by
  induction t with
  | zero =>
      have hzero : meter states emit cost age 0 = 0 := by
        simp [meter, log_succ, h.start.1, h.start.2]
      rw [hzero]
      exact ⟨fun _ => Nat.zero_le t', fun hle => h.stopped_mono hle ht⟩
  | succ t ih =>
      by_cases hs : stopped (states t)
      · rw [h.meter_rest hs]
        exact ih hs
      · -- `t + 1` is the first stopped cycle
        rw [h.meter_succ hs, h.meter_of_running hs]
        refine ⟨fun hs' => ?_, fun hle => h.stopped_mono hle ht⟩
        by_contra hlt
        exact hs (h.stopped_mono (by omega) hs')

/-- In front of an event it ran, … -/
theorem running_of_emit {t : ℕ} {e : E} (ht : emit (states (t + 1)) = some e) :
    ¬ stopped (states t) := by
  intro hs
  rw [(h.rests t hs).2.1] at ht
  cases ht

/-- … and with it a new item begins. -/
theorem age_of_emit {t : ℕ} {e : E} (ht : emit (states t) = some e) : age (states t) = 0 := by
  cases t with
  | zero => exact h.start.2
  | succ t => exact (h.completes t e (h.running_of_emit ht) ht).2

/-- **An item is logged in the cycle in which it and those before it are paid for.** -/
theorem time_of_emit {t : ℕ} {e : E} (ht : emit (states t) = some e) :
    ((log emit states (t + 1)).map cost).sum = t := by
  cases t with
  | zero => rw [h.start.1] at ht; cases ht
  | succ t =>
      have hrunning := h.running_of_emit ht
      have hmeter := h.meter_succ hrunning
      rw [h.meter_of_running hrunning, meter, h.age_of_emit ht] at hmeter
      exact hmeter

end Metered
end Meter

end Clocked
