import Mathlib.Data.Nat.ModEq
import Mathlib.Logic.Function.Basic

/-!
# Bounded queues in ring buffers

`Queue.next` is the bounded queue: a cycle removes the head, if it is taken, and
appends the arrival, if there is room.  `Ring.Holds` says that the slots of a ring
buffer hold a list from a read index on.  Taking the head moves the read index;
an arrival goes to the slot behind the last.  Both may happen at once, and when the
ring is full the arrival lands in the slot that is being read.

Room is what there is after the head has been taken, so a full queue accepts an arrival in
the cycle in which it is read.  An implementation that decides by the count before the
edge needs a second condition for that case, and `hasRoom_iff` is that condition.

Indices are naturals modulo the number of slots.  An implementation with pointers of some
width instantiates `slot` and `start`, shows that its pointers are these numbers, and has
nothing to say about wrapping around any more.
-/

/-! ## The bounded queue -/

namespace Queue

variable {α : Type*}

/-- What is left when the head is taken. -/
def rest (pop : Bool) (q : List α) : List α := if pop then q.tail else q

/-- There is room for an arrival. -/
def HasRoom (capacity : ℕ) (pop : Bool) (q : List α) : Prop := (rest pop q).length < capacity

instance (capacity : ℕ) (pop : Bool) (q : List α) : Decidable (HasRoom capacity pop q) :=
  inferInstanceAs (Decidable (_ < _))

/-- One cycle: `pop` takes the head, `arrival` is appended or dropped. -/
def next (capacity : ℕ) (arrival : Option α) (pop : Bool) (q : List α) : List α :=
  if HasRoom capacity pop q then rest pop q ++ arrival.toList else rest pop q

/-- There is room if the queue is not full, or if it is being read. -/
theorem hasRoom_iff {capacity : ℕ} (hcap : 0 < capacity) {pop : Bool} {q : List α}
    (hlen : q.length ≤ capacity) :
    HasRoom capacity pop q ↔ q.length < capacity ∨ (q ≠ [] ∧ pop = true) := by
  cases pop with
  | false => simp [HasRoom, rest]
  | true =>
      cases q with
      | nil => simp [HasRoom, rest, hcap]
      | cons a q =>
          have hroom : q.length < capacity := hlen
          simp [HasRoom, rest, hroom]

end Queue

/-! ## Rings -/

namespace Ring

variable {α : Type*}

/-- `n` slots hold the list `q` from index `start` on. -/
structure Holds (n : ℕ) (slot : ℕ → α) (start : ℕ) (q : List α) : Prop where
  length_le : q.length ≤ n
  slot_eq : ∀ i (hi : i < q.length), slot ((start + i) % n) = q[i]

/-- The slot behind the last. -/
def back (n start : ℕ) (q : List α) : ℕ := (start + q.length) % n

variable {n start : ℕ} {slot : ℕ → α} {q : List α}

/-- Any slots hold the empty queue. -/
theorem Holds.nil (n : ℕ) (slot : ℕ → α) (start : ℕ) : Holds n slot start ([] : List α) :=
  ⟨Nat.zero_le n, fun _ hi => absurd hi (Nat.not_lt_zero _)⟩

/-- The slot at the read index is the head. -/
theorem Holds.head {a : α} (hstart : start < n) (h : Holds n slot start (a :: q)) :
    slot start = a := by
  have h0 := h.slot_eq 0 (Nat.succ_pos _)
  rwa [Nat.add_zero, Nat.mod_eq_of_lt hstart] at h0

/-- Taking the head moves the read index. -/
theorem Holds.tail (h : Holds n slot start q) (hne : q ≠ []) :
    Holds n slot ((start + 1) % n) q.tail ∧ back n ((start + 1) % n) q.tail = back n start q := by
  cases q with
  | nil => exact absurd rfl hne
  | cons a q =>
      have hshift (i : ℕ) : ((start + 1) % n + i) % n = (start + (i + 1)) % n := by
        rw [Nat.mod_add_mod, Nat.add_assoc, Nat.add_comm 1 i]
      refine ⟨⟨Nat.le_of_succ_le h.length_le, fun i hi => ?_⟩, ?_⟩
      · rw [List.tail_cons] at hi
        have hslot := h.slot_eq (i + 1) (Nat.succ_lt_succ hi)
        rw [hshift]
        simpa using hslot
      · exact hshift _

/-- Distinct offsets below the size are distinct slots. -/
theorem add_mod_ne {i j : ℕ} (hi : i < j) (hj : j < n) : (start + i) % n ≠ (start + j) % n := by
  intro h
  have hmod : i ≡ j [MOD n] := Nat.ModEq.add_left_cancel' start h
  have heq : i = j := by
    rw [← Nat.mod_eq_of_lt (hi.trans hj), ← Nat.mod_eq_of_lt hj]
    exact hmod
  omega

/-- An arrival goes to the slot behind the last. -/
theorem Holds.concat (h : Holds n slot start q) (hroom : q.length < n) (a : α) :
    Holds n (Function.update slot (back n start q) a) start (q ++ [a]) := by
  refine ⟨by rw [List.length_append, List.length_singleton]; exact hroom, fun i hi => ?_⟩
  rcases Nat.lt_or_ge i q.length with hlt | hge
  · have hne : (start + i) % n ≠ back n start q := add_mod_ne hlt hroom
    rw [Function.update_of_ne hne, List.getElem_append_left hlt]
    exact h.slot_eq i hlt
  · have heq : i = q.length := by
      rw [List.length_append, List.length_singleton] at hi
      omega
    subst heq
    rw [show (start + q.length) % n = back n start q from rfl, Function.update_self]
    simp

/-- An arrival moves the index behind the last. -/
theorem back_concat (a : α) : back n start (q ++ [a]) = (back n start q + 1) % n := by
  rw [back, back, List.length_append, List.length_singleton, Nat.mod_add_mod, Nat.add_assoc]

end Ring
