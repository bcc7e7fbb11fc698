import Mathlib.Data.Nat.Log
import Mini32.Lib.Ring
import Mini32.Lib.Run

/-!
# The UART event FIFO

`uart_tx_fifo` for every `DEPTH`, with the pointer and counter widths it derives.

`Represents` reads the queued bytes off the storage: they stand from the read pointer on,
around the end of the array.  `Represents.clock` says that an edge is one cycle of the
bounded queue, and `run_refines_queue` follows any inputs, resets included.  The widths
enter through the four lemmas of the second section alone; everything behind them is about
numbers below `DEPTH`.

What an index past the storage reads is not fixed by the source; here it is zero, and such a
write is lost.  No reachable state has such an index, whatever `DEPTH` of at least one.
-/

namespace Mini32.Rtl

/-- The input ports of one cycle. -/
structure FifoInputs where
  reset : Bool
  eventValid : Bool
  eventData : BitVec 8
  outReady : Bool
  deriving DecidableEq, Repr

namespace UartTxFifo

/-! ## Derived parameters -/

section Parameters

variable (depth : ℕ)

/-- `POINTER_WIDTH` -/
def pointerWidth : ℕ := if depth ≤ 2 then 1 else Nat.clog 2 depth

/-- `COUNT_WIDTH` -/
def countWidth : ℕ := Nat.clog 2 (depth + 1)

/-- `LAST_POINTER` -/
def lastPointer : BitVec (pointerWidth depth) := BitVec.ofNat _ (depth - 1)

/-- `DEPTH_COUNT` -/
def depthCount : BitVec (countWidth depth) := BitVec.ofNat _ depth

end Parameters

end UartTxFifo

/-- The registers of `uart_tx_fifo`. -/
structure UartTxFifo (depth : ℕ) where
  storage : Vector (BitVec 8) depth
  writePointer : BitVec (UartTxFifo.pointerWidth depth)
  readPointer : BitVec (UartTxFifo.pointerWidth depth)
  count : BitVec (UartTxFifo.countWidth depth)
  overflow : Bool

namespace UartTxFifo

variable {depth : ℕ}

/-- `advance_pointer`: the storage is a ring. -/
def advancePointer (pointer : BitVec (pointerWidth depth)) : BitVec (pointerWidth depth) :=
  if pointer = lastPointer depth then 0 else pointer + 1

section Comb

variable (i : FifoInputs) (fifo : UartTxFifo depth)

/-- `out_valid` -/
def outValid : Bool := fifo.count ≠ 0

/-- `out_data`: the byte at the read pointer. -/
def outData : BitVec 8 := fifo.storage[fifo.readPointer.toNat]?.getD 0

/-- `dequeue` -/
def dequeue : Bool := fifo.outValid && i.outReady

/-- A simultaneous dequeue frees a full FIFO slot for the arriving event. -/
def enqueue : Bool := i.eventValid && (fifo.count < depthCount depth || fifo.dequeue i)

end Comb

/-- The rising edge. Reset leaves the storage alone. -/
def clock (i : FifoInputs) (fifo : UartTxFifo depth) : UartTxFifo depth :=
  if i.reset then { fifo with writePointer := 0, readPointer := 0, count := 0, overflow := false }
  else
    { storage :=
        if fifo.enqueue i then
          fifo.storage.setIfInBounds fifo.writePointer.toNat i.eventData
        else fifo.storage
      writePointer :=
        if fifo.enqueue i then advancePointer fifo.writePointer else fifo.writePointer
      readPointer := if fifo.dequeue i then advancePointer fifo.readPointer else fifo.readPointer
      count :=
        match fifo.enqueue i, fifo.dequeue i with
        | true, false => fifo.count + 1
        | false, true => fifo.count - 1
        | _, _ => fifo.count
      overflow := fifo.overflow || (i.eventValid && !fifo.enqueue i) }

/-! ## The widths suffice -/

/-- A pointer can index the whole storage. -/
theorem depth_le_two_pow (depth : ℕ) : depth ≤ 2 ^ pointerWidth depth := by
  unfold pointerWidth
  split
  · omega
  · exact Nat.le_pow_clog Nat.one_lt_two depth

/-- The counter can hold `DEPTH` itself. -/
theorem depth_lt_two_pow (depth : ℕ) : depth < 2 ^ countWidth depth :=
  Nat.le_pow_clog Nat.one_lt_two (depth + 1)

/-- The cast of `DEPTH_COUNT` keeps its number. -/
@[simp] theorem toNat_depthCount : (depthCount depth).toNat = depth := by
  rw [depthCount, BitVec.toNat_ofNat, Nat.mod_eq_of_lt (depth_lt_two_pow depth)]

/-- So does the cast of `LAST_POINTER`. -/
theorem toNat_lastPointer (hdepth : 0 < depth) : (lastPointer depth).toNat = depth - 1 := by
  have hfits := depth_le_two_pow depth
  rw [lastPointer, BitVec.toNat_ofNat, Nat.mod_eq_of_lt (by omega)]

/-- A pointer below `DEPTH` stays below it. -/
theorem toNat_advancePointer (hdepth : 0 < depth) {pointer : BitVec (pointerWidth depth)}
    (hlt : pointer.toNat < depth) :
    (advancePointer pointer).toNat = (pointer.toNat + 1) % depth := by
  have hfits := depth_le_two_pow depth
  have hlast := toNat_lastPointer hdepth
  unfold advancePointer
  split
  · next heq =>
      have hend : pointer.toNat + 1 = depth := by
        rw [heq, hlast]
        omega
      rw [hend, Nat.mod_self]
      rfl
  · next hne =>
      have hend : pointer.toNat ≠ depth - 1 := by
        rw [← hlast]
        exact fun h => hne (BitVec.eq_of_toNat_eq h)
      have hone : 1 < 2 ^ pointerWidth depth := by omega
      rw [BitVec.toNat_add, BitVec.ofNat_eq_ofNat, BitVec.toNat_ofNat, Nat.mod_eq_of_lt hone,
        Nat.mod_eq_of_lt (by omega), Nat.mod_eq_of_lt (by omega)]

/-! ## The queue behind the pointers -/

/-- What an index reads. -/
def slot (fifo : UartTxFifo depth) (index : ℕ) : BitVec 8 := fifo.storage[index]?.getD 0

/-- The FIFO holds the bytes `q`. -/
structure Represents (fifo : UartTxFifo depth) (q : List (BitVec 8)) : Prop where
  read_lt : fifo.readPointer.toNat < depth
  write_eq : fifo.writePointer.toNat = Ring.back depth fifo.readPointer.toNat q
  count_eq : fifo.count.toNat = q.length
  holds : Ring.Holds depth fifo.slot fifo.readPointer.toNat q

/-- The queued bytes, from the read pointer on. -/
def queued (fifo : UartTxFifo depth) : List (BitVec 8) :=
  (List.range fifo.count.toNat).map fun i => fifo.slot ((fifo.readPointer.toNat + i) % depth)

namespace Represents

variable {fifo : UartTxFifo depth} {q : List (BitVec 8)}

/-- No more than `DEPTH` bytes are queued. -/
theorem length_le (h : Represents fifo q) : q.length ≤ depth := h.holds.length_le

/-- The bytes a state represents are those `queued` lists. -/
theorem queued_eq (h : Represents fifo q) : fifo.queued = q := by
  refine List.ext_getElem ?_ fun i hi hi' => ?_
  · rw [queued, List.length_map, List.length_range, h.count_eq]
  · simpa [queued] using h.holds.slot_eq i hi'

/-- The write pointer is inside the storage. -/
theorem write_lt (h : Represents fifo q) : fifo.writePointer.toNat < depth := by
  rw [h.write_eq]
  exact Nat.mod_lt _ (Nat.zero_lt_of_lt h.read_lt)

/-- A byte is offered exactly when one is queued. -/
theorem outValid_iff (h : Represents fifo q) : fifo.outValid = true ↔ q ≠ [] := by
  rw [outValid, decide_eq_true_eq, ne_eq, ne_eq, not_iff_not, ← List.length_eq_zero_iff,
    ← h.count_eq]
  exact ⟨fun hc => by rw [hc]; rfl, fun hc => BitVec.eq_of_toNat_eq hc⟩

/-- The byte offered is the oldest. -/
theorem outData_eq {b : BitVec 8} (h : Represents fifo (b :: q)) : fifo.outData = b :=
  h.holds.head h.read_lt

/-- `dequeue` takes the head of a queue that has one. -/
theorem dequeue_iff (h : Represents fifo q) (i : FifoInputs) :
    fifo.dequeue i = true ↔ q ≠ [] ∧ i.outReady = true := by
  rw [dequeue, Bool.and_eq_true, h.outValid_iff]

/-- `enqueue` is an event that finds room. -/
theorem enqueue_iff (h : Represents fifo q) (i : FifoInputs) :
    fifo.enqueue i = true ↔ i.eventValid = true ∧ Queue.HasRoom depth (fifo.dequeue i) q := by
  have hdepth := Nat.zero_lt_of_lt h.read_lt
  rw [Queue.hasRoom_iff hdepth h.length_le, enqueue, Bool.and_eq_true, Bool.or_eq_true,
    decide_eq_true_eq, BitVec.lt_def, toNat_depthCount, h.count_eq]
  have hsome : fifo.dequeue i = true → q ≠ [] := fun hd => ((h.dequeue_iff i).mp hd).1
  tauto

/-- A reset edge empties the queue. -/
theorem reset (hdepth : 0 < depth) (fifo : UartTxFifo depth) {i : FifoInputs}
    (hreset : i.reset = true) : Represents (fifo.clock i) [] := by
  simp only [clock, hreset, if_true]
  refine ⟨hdepth, ?_, rfl, Ring.Holds.nil _ _ _⟩
  simp [Ring.back]

/-- What a write leaves in the slots. -/
theorem slot_clock {i : FifoInputs} (hreset : i.reset = false) (h : Represents fifo q) :
    (fifo.clock i).slot =
      if fifo.enqueue i then Function.update fifo.slot fifo.writePointer.toNat i.eventData
      else fifo.slot := by
  cases he : fifo.enqueue i with
  | false =>
      funext index
      simp [slot, clock, hreset, he]
  | true =>
      funext index
      simp only [slot, clock, hreset, he, Bool.false_eq_true, if_false, if_true,
        Function.update_apply]
      -- slots that are not written keep their byte
      by_cases heq : index = fifo.writePointer.toNat
      · subst heq
        simp [h.write_lt]
      · rw [Vector.getElem?_setIfInBounds_ne (fun hc => heq hc.symm)]
        simp [heq]

/-- The queue after a dequeue alone. -/
theorem rest_holds (h : Represents fifo q) (i : FifoInputs) :
    Ring.Holds depth fifo.slot
        (if fifo.dequeue i then advancePointer fifo.readPointer else fifo.readPointer).toNat
        (Queue.rest (fifo.dequeue i) q) ∧
      fifo.writePointer.toNat = Ring.back depth
        (if fifo.dequeue i then advancePointer fifo.readPointer else fifo.readPointer).toNat
        (Queue.rest (fifo.dequeue i) q) := by
  have hdepth := Nat.zero_lt_of_lt h.read_lt
  cases hd : fifo.dequeue i with
  | false => exact ⟨h.holds, h.write_eq⟩
  | true =>
      have hne := ((h.dequeue_iff i).mp hd).1
      obtain ⟨hholds, hback⟩ := h.holds.tail hne
      rw [if_pos rfl, toNat_advancePointer hdepth h.read_lt]
      exact ⟨hholds, h.write_eq.trans hback.symm⟩

/-- The counter follows the length: it neither wraps at `DEPTH` nor below zero. -/
theorem count_clock {i : FifoInputs} (hreset : i.reset = false) (h : Represents fifo q) :
    (fifo.clock i).count.toNat = (Queue.rest (fifo.dequeue i) q).length +
      if fifo.enqueue i then 1 else 0 := by
  have hfits := depth_lt_two_pow depth
  have hone : (1 : BitVec (countWidth depth)).toNat = 1 := by
    have hdepth := Nat.zero_lt_of_lt h.read_lt
    have hlt : 1 < 2 ^ countWidth depth := by omega
    rw [BitVec.ofNat_eq_ofNat, BitVec.toNat_ofNat, Nat.mod_eq_of_lt hlt]
  have hlen := h.length_le
  have hcount := h.count_eq
  simp only [clock, hreset, Bool.false_eq_true, if_false]
  cases hd : fifo.dequeue i with
  | false =>
      cases he : fifo.enqueue i with
      | false => simpa [Queue.rest] using hcount
      | true =>
          have hroom : q.length < depth := by
            have hroom := ((h.enqueue_iff i).mp he).2
            rwa [hd] at hroom
          simp only [Queue.rest, Bool.false_eq_true, if_false, if_true]
          rw [BitVec.toNat_add, hone, hcount, Nat.mod_eq_of_lt (by omega)]
  | true =>
      have hpos : 0 < q.length := List.length_pos_of_ne_nil ((h.dequeue_iff i).mp hd).1
      cases he : fifo.enqueue i with
      | false =>
          simp only [Queue.rest, Bool.false_eq_true, if_false, if_true, List.length_tail]
          rw [BitVec.toNat_sub, hone, hcount]
          -- `count - 1` borrows from nothing: the queue has a head
          have hwrap : 2 ^ countWidth depth - 1 + q.length =
              (q.length - 1) + 2 ^ countWidth depth := by omega
          rw [hwrap, Nat.add_mod_right, Nat.mod_eq_of_lt (by omega), Nat.add_zero]
      | true =>
          simp only [Queue.rest, if_true, List.length_tail]
          omega

/-- **An edge is a cycle of the bounded queue.** -/
theorem clock {i : FifoInputs} (hreset : i.reset = false) (h : Represents fifo q) :
    Represents (fifo.clock i) (Queue.next depth
      (if i.eventValid then some i.eventData else none) (fifo.dequeue i) q) := by
  have hdepth := Nat.zero_lt_of_lt h.read_lt
  obtain ⟨hrest, hback⟩ := h.rest_holds i
  have hread : (fifo.clock i).readPointer =
      if fifo.dequeue i then advancePointer fifo.readPointer else fifo.readPointer := by
    simp [UartTxFifo.clock, hreset]
  have hwrite : (fifo.clock i).writePointer =
      if fifo.enqueue i then advancePointer fifo.writePointer else fifo.writePointer := by
    simp [UartTxFifo.clock, hreset]
  have hlt : (fifo.clock i).readPointer.toNat < depth := by
    rw [hread]
    split
    · rw [toNat_advancePointer hdepth h.read_lt]
      exact Nat.mod_lt _ hdepth
    · exact h.read_lt
  have hslot := h.slot_clock hreset
  have hcount := h.count_clock hreset
  rw [← hread] at hrest hback
  -- the slots change only where an event enters, behind what is left of the queue
  by_cases he : fifo.enqueue i = true
  · obtain ⟨hevent, hroom⟩ := (h.enqueue_iff i).mp he
    rw [Queue.next, if_pos hroom, hevent]
    rw [he, if_pos rfl] at hslot hwrite hcount
    refine ⟨hlt, ?_, ?_, ?_⟩
    · rw [hwrite, toNat_advancePointer hdepth h.write_lt, hback]
      exact (Ring.back_concat _).symm
    · rw [hcount, if_pos rfl, Option.toList_some, List.length_append, List.length_singleton]
    · rw [hslot, hback]
      exact hrest.concat hroom _
  · have hnext : Queue.next depth (if i.eventValid then some i.eventData else none)
        (fifo.dequeue i) q = Queue.rest (fifo.dequeue i) q := by
      unfold Queue.next
      split
      · next hroom =>
          have hquiet : i.eventValid = false := by
            by_contra hevent
            exact he ((h.enqueue_iff i).mpr ⟨by simpa using hevent, hroom⟩)
          simp [hquiet]
      · rfl
    rw [hnext]
    simp only [he, Bool.false_eq_true, if_false] at hslot hwrite hcount
    exact ⟨hlt, by rw [hwrite, hback], hcount, by rw [hslot]; exact hrest⟩

end Represents

/-! ## Every run -/

/-- **The bounded queue behind a run**: `q t` is in the FIFO in cycle `t`. -/
structure RefinesQueue (inputs : ℕ → FifoInputs) (s : ℕ → UartTxFifo depth)
    (q : ℕ → List (BitVec 8)) : Prop where
  start : q 0 = []
  length_le : ∀ t, (q t).length ≤ depth
  outValid : ∀ t, (s t).outValid = true ↔ q t ≠ []
  outData : ∀ t b, (q t).head? = some b → (s t).outData = b
  /-- A reset cycle empties the queue. -/
  reset : ∀ t, (inputs t).reset = true → q (t + 1) = []
  /-- In every other cycle the head leaves if it is taken, and an event enters if
  the queue is not full or its head leaves. -/
  next : ∀ t, (inputs t).reset = false →
    q (t + 1) =
      (if (s t).outValid ∧ (inputs t).outReady then (q t).tail else q t) ++
        (if (inputs t).eventValid ∧
            ((q t).length < depth ∨ (s t).outValid ∧ (inputs t).outReady) then
          [(inputs t).eventData] else [])
  count : ∀ t, (s t).count.toNat = (q t).length
  readPointer : ∀ t, (s t).readPointer.toNat < depth
  writePointer : ∀ t, (s t).writePointer.toNat < depth
  /-- An event found no room since the last reset. -/
  overflow : ∀ t, (s t).overflow = true ↔
    ∃ k < t, (∀ j, k ≤ j → j < t → (inputs j).reset = false) ∧ (inputs k).eventValid = true ∧
      ¬ ((q k).length < depth ∨ ((s k).outValid = true ∧ (inputs k).outReady = true))

/-- The queue of a run. -/
def contents (inputs : ℕ → FifoInputs) (s : ℕ → UartTxFifo depth) : ℕ → List (BitVec 8)
  | 0 => []
  | t + 1 =>
      if (inputs t).reset then []
      else Queue.next depth (if (inputs t).eventValid then some (inputs t).eventData else none)
        ((s t).dequeue (inputs t)) (contents inputs s t)

section Run

variable (hdepth : 0 < depth) (powerUp : UartTxFifo depth) {resetInputs : FifoInputs}
  (hreset : resetInputs.reset = true) (inputs : ℕ → FifoInputs)

include hdepth hreset

/-- In every cycle the state represents the contents of the abstract queue. -/
theorem represents_run (t : ℕ) :
    Represents (Clocked.run clock inputs (powerUp.clock resetInputs) t)
      (contents inputs (Clocked.run clock inputs (powerUp.clock resetInputs)) t) := by
  induction t with
  | zero => exact Represents.reset hdepth powerUp hreset
  | succ t ih =>
      rw [Clocked.run_succ, contents]
      cases hr : (inputs t).reset with
      | true => exact Represents.reset hdepth _ hr
      | false => exact ih.clock hr

omit hdepth hreset in
/-- `overflow` is sticky: only reset clears it. -/
theorem overflow_clock (i : FifoInputs) (fifo : UartTxFifo depth) :
    (fifo.clock i).overflow = true ↔
      i.reset = false ∧
        (fifo.overflow = true ∨ (i.eventValid = true ∧ fifo.enqueue i = false)) := by
  cases hr : i.reset <;> simp [clock, hr]

omit hdepth in
/-- `overflow` remembers a dropped event until the next reset. -/
theorem overflow_run (t : ℕ) :
    (Clocked.run clock inputs (powerUp.clock resetInputs) t).overflow = true ↔
      ∃ k < t, (∀ j, k ≤ j → j < t → (inputs j).reset = false) ∧
        (inputs k).eventValid = true ∧
          (Clocked.run clock inputs (powerUp.clock resetInputs) k).enqueue (inputs k) = false := by
  induction t with
  | zero => simp [clock, hreset]
  | succ t ih =>
      rw [Clocked.run_succ, overflow_clock, ih]
      constructor
      · rintro ⟨hr, ⟨k, hk, hquiet, hdrop⟩ | hdrop⟩
        · refine ⟨k, Nat.lt_succ_of_lt hk, fun j hj hjt => ?_, hdrop⟩
          rcases Nat.lt_succ_iff_lt_or_eq.mp hjt with hlt | rfl
          · exact hquiet j hj hlt
          · exact hr
        · refine ⟨t, Nat.lt_succ_self t, fun j hj hjt => ?_, hdrop⟩
          rwa [show j = t by omega]
      · rintro ⟨k, hk, hquiet, hdrop⟩
        refine ⟨hquiet t (by omega) (by omega), ?_⟩
        -- the event was dropped earlier, or in the last cycle
        rcases Nat.lt_succ_iff_lt_or_eq.mp hk with hlt | rfl
        · exact Or.inl ⟨k, hlt, fun j hj hjt => hquiet j hj (by omega), hdrop⟩
        · exact Or.inr hdrop

/-- **Every run of the FIFO after a reset is a run of the bounded queue.** -/
theorem run_refines_queue :
    ∃ q, RefinesQueue inputs (Clocked.run clock inputs (powerUp.clock resetInputs)) q := by
  have hrep := represents_run hdepth powerUp hreset inputs
  have hover := overflow_run powerUp hreset inputs
  generalize Clocked.run clock inputs (powerUp.clock resetInputs) = s at hrep hover
  have hdeq (t : ℕ) : (s t).dequeue (inputs t) = true ↔
      (s t).outValid = true ∧ (inputs t).outReady = true := by
    rw [dequeue, Bool.and_eq_true]
  have hroom (t : ℕ) : Queue.HasRoom depth ((s t).dequeue (inputs t)) (contents inputs s t) ↔
      (contents inputs s t).length < depth ∨
        ((s t).outValid = true ∧ (inputs t).outReady = true) := by
    rw [Queue.hasRoom_iff hdepth (hrep t).length_le, ← hdeq, (hrep t).dequeue_iff]
    tauto
  refine ⟨contents inputs s, ?_⟩
  constructor
  case start => rfl
  case length_le => exact fun t => (hrep t).length_le
  case outValid => exact fun t => (hrep t).outValid_iff
  case outData =>
    intro t b hb
    obtain ⟨rest, heq⟩ := List.head?_eq_some_iff.mp hb
    have h := hrep t
    rw [heq] at h
    exact h.outData_eq
  case reset =>
    intro t ht
    rw [contents, if_pos ht]
  case next =>
    intro t ht
    rw [contents, ht, if_neg Bool.false_ne_true, Queue.next]
    simp only [hroom, Queue.rest, hdeq]
    by_cases hr : (contents inputs s t).length < depth ∨
        ((s t).outValid = true ∧ (inputs t).outReady = true)
    · cases hev : (inputs t).eventValid <;> simp [hr]
    · simp [hr]
  case count => exact fun t => (hrep t).count_eq
  case readPointer => exact fun t => (hrep t).read_lt
  case writePointer => exact fun t => (hrep t).write_lt
  case overflow =>
    intro t
    rw [hover]
    refine exists_congr fun k => and_congr_right fun _ => and_congr_right fun _ =>
      and_congr_right fun hev => ?_
    rw [← hroom, ← Bool.not_eq_true, (hrep k).enqueue_iff]
    tauto

end Run

/-- Three slots, an event in every cycle and nobody reading. -/
theorem run_refines_queue_three :
    ∃ q, RefinesQueue (fun t => ⟨false, true, BitVec.ofNat 8 t, false⟩)
      (Clocked.run clock (fun t => ⟨false, true, BitVec.ofNat 8 t, false⟩)
        (clock ⟨true, false, 0, false⟩
          (⟨Vector.replicate 3 0xFF, 1, 2, 3, true⟩ : UartTxFifo 3))) q :=
  run_refines_queue (by decide) _ rfl _

end UartTxFifo
end Mini32.Rtl
