import Mathlib.Data.List.Induction

/-!
# Interleaved parties over a shared store

Several parties take steps on one store, in an order that a schedule fixes; `owner` says whose
an event is.  `Isolated` is the unwinding condition: an event acts on its owner's view as
that view alone determines, and leaves every other view.  `run_filter` is the theorem
it serves: in any interleaving a party sees what it sees when it runs alone.

The condition is about single events in arbitrary states, the theorem about whole
schedules, so whoever uses it never argues about an interleaving.  What a view is, is left
open: a projection of the store, or as much of it as the party could find out.  The finer
the views, the stronger the conclusion and the harder the condition.
-/

namespace Interleave

variable {S E I V : Type*} (step : E → S → S)

/-- The store after the events of a schedule. -/
def run (schedule : List E) (s : S) : S := schedule.foldl (fun s e => step e s) s

/-- Nothing happens, … -/
@[simp] theorem run_nil (s : S) : run step [] s = s := rfl

/-- … one schedule behind another, … -/
theorem run_append (schedule schedule' : List E) (s : S) :
    run step (schedule ++ schedule') s = run step schedule' (run step schedule s) :=
  List.foldl_append

/-- … and one more event at the end. -/
theorem run_concat (schedule : List E) (e : E) (s : S) :
    run step (schedule ++ [e]) s = step e (run step schedule s) := run_append step schedule [e] s

/-- Events reach a party's view only through that view, and only its own events. -/
structure Isolated (owner : E → I) (view : I → S → V) : Prop where
  own : ∀ e s s', view (owner e) s = view (owner e) s' →
    view (owner e) (step e s) = view (owner e) (step e s')
  other : ∀ i e s, owner e ≠ i → view i (step e s) = view i s

variable {step} {owner : E → I} {view : I → S → V} [DecidableEq I]

/-- **Isolated parties do not interfere**: what a party sees in an interleaving is what it
sees when only its own events happen. -/
theorem Isolated.run_filter (h : Isolated step owner view) (i : I) (schedule : List E) (s : S) :
    view i (run step schedule s) = view i (run step (schedule.filter (owner · = i)) s) := by
  induction schedule using List.reverseRecOn with
  | nil => rfl
  | append_singleton schedule e ih =>
      rw [run_concat, List.filter_append]
      by_cases howner : owner e = i
      · subst howner
        rw [List.filter_cons_of_pos (by simp), List.filter_nil, run_concat]
        exact h.own e _ _ ih
      · rw [List.filter_cons_of_neg (by simpa using howner), List.filter_nil, List.append_nil,
          h.other i e _ howner, ih]

end Interleave
