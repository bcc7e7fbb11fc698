import Mathlib.Data.List.Induction

/-!
# Logs of writes

What a cell holds after a sequence of accesses is what was last written to it.  An
access is a write to an address or none, and `last` looks for the last one.  The order of
the log is the order of time, so a new access stands at the end, and the lemmas are about
a log with one more access.

`lastValue` gives a default where nothing has been written: the contents at power-up, or
whatever the development that uses it takes for that.
-/

namespace WriteLog

variable {α β : Type*} [DecidableEq α]

/-- The last write to `a` in a log whose latest entry comes first. -/
def newest (a : α) : List (Option (α × β)) → Option (ℕ × β)
  | [] => none
  | none :: log => newest a log
  | some (a', b) :: log => if a' = a then some (log.length + 1, b) else newest a log

/-- The last write to `a`: its number and its value. -/
def last (a : α) (log : List (Option (α × β))) : Option (ℕ × β) := newest a log.reverse

/-- The value of the last write to `a`. -/
def lastValue (a : α) (log : List (Option (α × β))) : Option β := (last a log).map (·.2)

variable {a a' : α} {b : β} {log : List (Option (α × β))}

@[simp] theorem last_concat_none : last a (log ++ [none]) = last a log := by
  rw [last, List.reverse_append, List.reverse_singleton, List.singleton_append, newest]
  rfl

theorem last_concat_some : last a (log ++ [some (a', b)]) =
    if a' = a then some (log.length + 1, b) else last a log := by
  rw [last, List.reverse_append, List.reverse_singleton, List.singleton_append, newest,
    List.length_reverse]
  rfl

@[simp] theorem lastValue_concat_none : lastValue a (log ++ [none]) = lastValue a log := by
  rw [lastValue, last_concat_none, lastValue]

theorem lastValue_concat_some : lastValue a (log ++ [some (a', b)]) =
    if a' = a then some b else lastValue a log := by
  rw [lastValue, last_concat_some]
  split <;> rfl

/-- The number of a write lies in the log. -/
theorem last_le {j : ℕ} (h : last a log = some (j, b)) : j ≤ log.length := by
  induction log using List.reverseRecOn with
  | nil => nomatch h
  | append_singleton log entry ih =>
      rw [List.length_append, List.length_singleton]
      rcases entry with - | ⟨a', b'⟩
      · rw [last_concat_none] at h
        exact Nat.le_succ_of_le (ih h)
      · rw [last_concat_some] at h
        split at h
        · cases h
          exact Nat.le_refl _
        · exact Nat.le_succ_of_le (ih h)

end WriteLog
