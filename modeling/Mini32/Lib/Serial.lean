import Mathlib.Data.List.Basic
import Mini32.Lib.Run

/-!
# Serial lines with 8N1 frames

A frame is ten symbols of `clks` cycles each: a low start bit, eight data bits,
least significant first, and a high stop bit.  `Sender` is the transmitter as a
machine that knows how many cycles of its frame have passed; `receive` is a receiver
that sees the line alone and samples every symbol in the middle.

* `Sender.run_frame` and `Sender.run_sending` — an accepted byte occupies exactly
  the ten symbols that follow;
* `Sender.run_tracks` — the line so far is idle cycles and frames, one for each
  accepted byte;
* `Sender.receive_line` — the receiver has the bytes whose stop bit it has sampled.

## The receiver

The receiver knows nothing of the sender but the length of a symbol.  It waits for the line
to fall, samples the start bit, the data bits and the stop bit, and goes on behind the last
sample.  A line may be cut off anywhere: a frame counts as received once its stop bit has
been sampled, which is before the frame ends.
-/

namespace Serial

/-! ## Frames -/

/-- Symbol `k` of the frame of a byte. -/
def symbol (b : BitVec 8) : ℕ → Bool
  | 0 => false
  | k + 1 => if k < 8 then b.getLsbD k else true

/-- The line during a frame. -/
def frame (clks : ℕ) (b : BitVec 8) : List Bool :=
  (List.range (10 * clks)).map fun i => symbol b (i / clks)

/-- Idle cycles and whole frames, with the bytes of the frames. -/
inductive Framed (clks : ℕ) : List Bool → List (BitVec 8) → Prop
  | nil : Framed clks [] []
  | idle {line bytes} : Framed clks line bytes → Framed clks (line ++ [true]) bytes
  | frame {line bytes} (b : BitVec 8) :
      Framed clks line bytes → Framed clks (line ++ frame clks b) (bytes ++ [b])

/-- A line that may end inside a frame: its byte is the last one. -/
def OnLine (clks : ℕ) (line : List Bool) (bytes : List (BitVec 8)) : Prop :=
  Framed clks line bytes ∨
    ∃ whole bytes' b n, n < 10 * clks ∧ Framed clks whole bytes' ∧
      line = whole ++ (frame clks b).take n ∧ bytes = bytes' ++ [b]

section Frame

variable {clks : ℕ} (b : BitVec 8)

/-- The length of a frame. -/
@[simp] theorem length_frame : (frame clks b).length = 10 * clks := by
  rw [frame, List.length_map, List.length_range]

/-- A cycle of a frame shows the symbol it belongs to. -/
theorem getElem_frame {i : ℕ} (hi : i < (frame clks b).length) :
    (frame clks b)[i] = symbol b (i / clks) := by
  simp [frame]

/-- One more cycle of a frame. -/
theorem take_succ_frame {n : ℕ} (hn : n < 10 * clks) :
    (frame clks b).take (n + 1) = (frame clks b).take n ++ [symbol b (n / clks)] := by
  rw [List.take_add_one, List.getElem?_eq_getElem (by rwa [length_frame]), getElem_frame]
  rfl

/-- The middle of symbol `k` lies in symbol `k`. -/
theorem middle_div (hclks : 0 < clks) (k : ℕ) : (k * clks + clks / 2) / clks = k := by
  rw [Nat.add_comm, Nat.add_mul_div_right _ _ hclks,
    Nat.div_eq_of_lt (Nat.div_lt_self hclks Nat.one_lt_two), Nat.zero_add]

end Frame

/-! ## The receiver -/

/-- The sample in the middle of symbol `k`. -/
def sample (clks k : ℕ) (line : List Bool) : Option Bool := (line)[k * clks + clks / 2]?

/-- The eight data samples. -/
def sampledByte (clks : ℕ) (line : List Bool) : BitVec 8 :=
  BitVec.ofBoolListLE ((List.range 8).map fun k => (sample clks (k + 1) line).getD true)

/-- The cycles from the falling edge to the stop sample. -/
def toStop (clks : ℕ) : ℕ := 9 * clks + clks / 2

/-- A receiver: it waits for the line to fall, samples every symbol in the middle,
and waits again after the stop sample.  A start sample that is high or a stop sample
that is low is no frame; a frame without its stop sample is not there yet. -/
def receive (clks : ℕ) : List Bool → List (BitVec 8)
  | [] => []
  | true :: line => receive clks line
  | false :: line =>
      match sample clks 0 (false :: line), sample clks 9 (false :: line) with
      | some false, some true =>
          sampledByte clks (false :: line) :: receive clks (line.drop (toStop clks))
      | _, _ => receive clks line
  termination_by line => line.length
  decreasing_by all_goals simp [List.length_drop]; try omega

section Receive

variable {clks : ℕ} {line rest : List Bool}

/-- Nothing is received on an empty line. -/
@[simp] theorem receive_nil : receive clks [] = [] := by
  rw [receive]

/-- A high cycle between frames is skipped. -/
@[simp] theorem receive_high : receive clks (true :: line) = receive clks line := by
  rw [receive]

/-- An idle line brings nothing. -/
theorem receive_highs {idle : List Bool} (h : ∀ x ∈ idle, x = true) :
    receive clks (idle ++ rest) = receive clks rest := by
  induction idle with
  | nil => rfl
  | cons x idle ih =>
      rw [h x List.mem_cons_self, List.cons_append, receive_high]
      exact ih fun y hy => h y (List.mem_cons_of_mem x hy)

/-- A line too short for a stop sample brings nothing. -/
theorem receive_short (h : line.length ≤ toStop clks) : receive clks line = [] := by
  induction line with
  | nil => exact receive_nil
  | cons x line ih =>
      have hline : line.length ≤ toStop clks := Nat.le_of_succ_le h
      cases x with
      | true => rw [receive_high, ih hline]
      | false =>
          have hstop : sample clks 9 (false :: line) = none := List.getElem?_eq_none h
          rw [receive, hstop]
          simpa using ih hline

/-- A line that starts low with the samples of a frame. -/
theorem receive_low (h0 : sample clks 0 (false :: line) = some false)
    (h9 : sample clks 9 (false :: line) = some true) :
    receive clks (false :: line) =
      sampledByte clks (false :: line) :: receive clks (line.drop (toStop clks)) := by
  rw [receive, h0, h9]

variable (b : BitVec 8) {n : ℕ}

variable (rest) in
/-- The samples of a frame are its symbols. -/
theorem sample_frame (hclks : 0 < clks) (hn : toStop clks < n) (hle : n ≤ 10 * clks) {k : ℕ}
    (hk : k < 10) : sample clks k ((frame clks b).take n ++ rest) = some (symbol b k) := by
  have hmul : k * clks ≤ 9 * clks := Nat.mul_le_mul_right clks (by omega)
  have hlt : k * clks + clks / 2 < ((frame clks b).take n).length := by
    rw [List.length_take, length_frame]
    unfold toStop at hn
    omega
  rw [sample, List.getElem?_append_left hlt, List.getElem?_eq_getElem hlt, List.getElem_take,
    getElem_frame, middle_div hclks]

variable (rest) in
/-- **A frame is received from its stop sample on.** -/
theorem receive_frame (hclks : 0 < clks) (hn : toStop clks < n) (hle : n ≤ 10 * clks) :
    receive clks ((frame clks b).take n ++ rest) = b :: receive clks rest := by
  have hsample := fun k (hk : k < 10) => sample_frame rest b hclks hn hle hk
  have hlen : ((frame clks b).take n).length = n := by
    rw [List.length_take, length_frame, Nat.min_eq_left hle]
  -- the first cycle is low
  obtain ⟨line, hline⟩ : ∃ line, (frame clks b).take n ++ rest = false :: line := by
    have hpos : 0 < ((frame clks b).take n).length := by omega
    obtain ⟨x, tail, htail⟩ := List.exists_cons_of_length_pos hpos
    have hx : x = symbol b (0 / clks) := by
      have h0 : ((frame clks b).take n)[0] = x := by simp [htail]
      rw [← h0, List.getElem_take, getElem_frame]
    rw [Nat.zero_div] at hx
    exact ⟨tail ++ rest, by rw [htail, hx]; rfl⟩
  rw [hline] at hsample ⊢
  rw [receive_low (hsample 0 (by decide)) (hsample 9 (by decide))]
  congr 1
  · refine BitVec.eq_of_getLsbD_eq fun i hi => ?_
    refine BitVec.getLsbD_ofBoolListLE.trans ?_
    simp [hi, hsample (i + 1) (by omega), symbol]
  -- what is left of the frame is high
  · have hdrop : line.drop (toStop clks) =
        ((frame clks b).take n).drop (toStop clks + 1) ++ rest := by
      rw [show line.drop (toStop clks) = (false :: line).drop (toStop clks + 1) from rfl, ← hline,
        List.drop_append_of_le_length (by omega)]
    rw [hdrop]
    refine receive_highs fun x hx => ?_
    obtain ⟨i, hi, rfl⟩ := List.getElem_of_mem hx
    rw [List.getElem_drop, List.getElem_take, getElem_frame]
    rw [List.length_drop, hlen] at hi
    have h9 : (toStop clks + 1 + i) / clks = 9 := by
      refine Nat.div_eq_of_lt_le ?_ ?_ <;> unfold toStop at * <;> omega
    rw [h9]
    rfl

/-- What a whole line brings comes before the rest. -/
theorem Framed.receive_append {bytes : List (BitVec 8)} (hclks : 0 < clks)
    (h : Framed clks line bytes) (rest : List Bool) :
    receive clks (line ++ rest) = bytes ++ receive clks rest := by
  induction h generalizing rest with
  | nil => rfl
  | idle _ ih => rw [List.append_assoc, ih, List.singleton_append, receive_high]
  | frame b _ ih =>
      have hstop : toStop clks < 10 * clks := by
        unfold toStop
        omega
      have hwhole := receive_frame rest b hclks hstop (Nat.le_refl _)
      rw [List.take_of_length_le (Nat.le_of_eq (length_frame b))] at hwhole
      rw [List.append_assoc, ih, hwhole, List.append_assoc, List.singleton_append]

end Receive

/-! ## The sender -/

/-- A transmitter between frames, or `n` cycles into the frame of a byte. -/
inductive Sender
  | idle
  | sending (n : ℕ) (b : BitVec 8)
  deriving DecidableEq, Repr

namespace Sender

/-- One cycle; an offered byte is taken when the sender is idle. -/
def next (clks : ℕ) (offer : Option (BitVec 8)) : Sender → Sender
  | idle =>
      match offer with
      | some b => sending 0 b
      | none => idle
  | sending n b => if n + 1 < 10 * clks then sending (n + 1) b else idle

/-- What the sender puts on the line. -/
def pin (clks : ℕ) : Sender → Bool
  | idle => true
  | sending n b => symbol b (n / clks)

/-- An idle sender takes a byte. -/
def ready : Sender → Bool
  | idle => true
  | sending _ _ => false

/-- The byte that is taken in a cycle. -/
def taken (offer : Option (BitVec 8)) (s : Sender) : Option (BitVec 8) :=
  if s.ready then offer else none

/-- The cycles that are left of a frame. -/
def remaining (clks : ℕ) : Sender → ℕ
  | idle => 0
  | sending n _ => 10 * clks - n

/-- The line and the bytes taken so far, as the state has them. -/
def Tracks (clks : ℕ) (line : List Bool) (bytes : List (BitVec 8)) : Sender → Prop
  | idle => Framed clks line bytes
  | sending n b =>
      n < 10 * clks ∧ ∃ whole bytes', Framed clks whole bytes' ∧
        line = whole ++ (frame clks b).take n ∧ bytes = bytes' ++ [b]

section Step

variable {clks : ℕ} {s : Sender} {offer : Option (BitVec 8)} {b : BitVec 8}

/-- The present symbol continues a frame, or ends it. -/
theorem append_symbol {whole : List Bool} {n : ℕ} (hn : n < 10 * clks) :
    whole ++ (frame clks b).take n ++ [symbol b (n / clks)] =
      whole ++ (frame clks b).take (n + 1) := by
  rw [take_succ_frame b hn, List.append_assoc]

/-- A byte is taken by an idle sender to which it is offered. -/
theorem taken_eq_some : taken offer s = some b ↔ s = idle ∧ offer = some b := by
  cases s <;> simp [taken, ready]

/-- A byte that is taken starts its frame. -/
theorem next_of_taken (h : taken offer s = some b) : next clks offer s = sending 0 b := by
  obtain ⟨rfl, rfl⟩ := taken_eq_some.mp h
  rfl

/-- A cycle without a new byte is one cycle less. -/
theorem remaining_next (h : taken offer s = none) :
    (s.next clks offer).remaining clks = s.remaining clks - 1 := by
  cases s with
  | idle =>
      obtain rfl : offer = none := h
      rfl
  | sending n b =>
      rw [next, remaining]
      split
      · next hlt =>
          rw [remaining]
          omega
      · next hlt =>
          rw [remaining]
          omega

/-- A cycle puts its symbol on the line. -/
theorem Tracks.next {line : List Bool} {bytes : List (BitVec 8)} (hclks : 0 < clks)
    (h : Tracks clks line bytes s) (offer : Option (BitVec 8)) :
    Tracks clks (line ++ [s.pin clks]) (bytes ++ (taken offer s).toList)
      (s.next clks offer) := by
  cases s with
  | idle =>
      have hidle : Framed clks (line ++ [true]) bytes := Framed.idle h
      cases offer with
      | none => simpa [Sender.next, taken, ready, pin, Tracks] using hidle
      | some b =>
          refine ⟨by omega, line ++ [true], bytes, hidle, ?_, rfl⟩
          rw [List.take_zero, List.append_nil]
          rfl
  | sending n b =>
      obtain ⟨hn, whole, bytes', hwhole, rfl, rfl⟩ := h
      have htaken : taken offer (sending n b) = none := rfl
      rw [htaken, Option.toList_none, List.append_nil, pin, append_symbol hn]
      by_cases hlast : n + 1 < 10 * clks
      · rw [Sender.next, if_pos hlast]
        exact ⟨hlast, whole, bytes', hwhole, rfl, rfl⟩
      · rw [Sender.next, if_neg hlast, List.take_of_length_le (by rw [length_frame]; omega)]
        exact Framed.frame b hwhole

/-- With the present symbol on the line, every byte taken so far has begun. -/
theorem Tracks.onLine {line : List Bool} {bytes : List (BitVec 8)}
    (h : Tracks clks line bytes s) : OnLine clks (line ++ [s.pin clks]) bytes := by
  cases s with
  | idle => exact Or.inl (Framed.idle h)
  | sending n b =>
      obtain ⟨hn, whole, bytes', hwhole, rfl, rfl⟩ := h
      rw [pin, append_symbol hn]
      by_cases hlast : n + 1 < 10 * clks
      · exact Or.inr ⟨whole, bytes', b, n + 1, hlast, hwhole, rfl, rfl⟩
      · rw [List.take_of_length_le (by rw [length_frame]; omega)]
        exact Or.inl (Framed.frame b hwhole)

end Step

/-! ## Runs of the sender -/

section Run

variable (clks : ℕ) (offers : ℕ → Option (BitVec 8)) (s : ℕ → Sender)

/-- The line in the cycles before `t`. -/
def line (t : ℕ) : List Bool := (List.range t).map fun i => (s i).pin clks

/-- The bytes taken in the cycles before `t`. -/
def bytes (t : ℕ) : List (BitVec 8) := Clocked.log id (fun i => taken (offers i) (s i)) t

/-- The line grows by one cycle. -/
theorem line_succ (t : ℕ) : line clks s (t + 1) = line clks s t ++ [(s t).pin clks] := by
  rw [line, List.range_succ, List.map_append]
  rfl

variable {clks offers s} (hclks : 0 < clks) (hzero : s 0 = idle)
  (hnext : ∀ t, s (t + 1) = (s t).next clks (offers t))

include hclks hnext

/-- **The cycles after a byte is taken are its frame.** -/
theorem run_frame {t : ℕ} {b : BitVec 8} (h : taken (offers t) (s t) = some b) :
    (∀ k < 10 * clks, s (t + 1 + k) = sending k b) ∧ s (t + 1 + 10 * clks) = idle := by
  have hframe : ∀ k < 10 * clks, s (t + 1 + k) = sending k b := by
    intro k
    induction k with
    | zero =>
        intro _
        rw [Nat.add_zero, hnext, next_of_taken h]
    | succ k ih =>
        intro hk
        rw [← Nat.add_assoc, hnext, ih (by omega), next, if_pos hk]
  refine ⟨hframe, ?_⟩
  obtain ⟨k, hk⟩ : ∃ k, 10 * clks = k + 1 := ⟨10 * clks - 1, by omega⟩
  rw [hk, ← Nat.add_assoc, hnext, hframe k (by omega), next, if_neg (by omega)]

include hzero

/-- **A frame belongs to a byte that was taken.** -/
theorem run_sending {t n : ℕ} {b : BitVec 8} (h : s t = sending n b) :
    n < 10 * clks ∧ ∃ t', t = t' + 1 + n ∧ taken (offers t') (s t') = some b := by
  induction t generalizing n with
  | zero =>
      rw [hzero] at h
      nomatch h
  | succ t ih =>
      rw [hnext] at h
      cases hs : s t with
      | idle =>
          rw [hs] at h
          cases hoffer : offers t with
          | none =>
              rw [hoffer] at h
              nomatch h
          | some b' =>
              rw [hoffer] at h
              cases h
              exact ⟨by omega, t, rfl, taken_eq_some.mpr ⟨hs, hoffer⟩⟩
      | sending m b' =>
          rw [hs, next] at h
          split at h
          · next hlt =>
              cases h
              obtain ⟨-, t', rfl, htaken⟩ := ih hs
              exact ⟨hlt, t', rfl, htaken⟩
          · nomatch h

/-- Outside the frames the line is high. -/
theorem run_idle {t : ℕ}
    (h : ∀ t' b, taken (offers t') (s t') = some b → ¬ (t' < t ∧ t ≤ t' + 10 * clks)) :
    s t = idle := by
  cases hs : s t with
  | idle => rfl
  | sending n b =>
      obtain ⟨hn, t', rfl, htaken⟩ := run_sending hclks hzero hnext hs
      exact absurd ⟨by omega, by omega⟩ (h t' b htaken)

/-- **The line so far is idle cycles and the frames of the bytes taken.** -/
theorem run_tracks (t : ℕ) : Tracks clks (line clks s t) (bytes offers s t) (s t) := by
  induction t with
  | zero =>
      rw [hzero]
      exact Framed.nil
  | succ t ih =>
      rw [line_succ, bytes, Clocked.log_succ, ← bytes, hnext]
      exact ih.next hclks (offers t)

omit hzero in
/-- While a frame is on the line no other byte is taken. -/
theorem taken_of_frame {t i : ℕ} {b : BitVec 8} (h : taken (offers t) (s t) = some b)
    (hi : t < i) (hle : i ≤ t + 10 * clks) : taken (offers i) (s i) = none := by
  have hsending := (run_frame hclks hnext h).1 (i - (t + 1)) (by omega)
  rw [show t + 1 + (i - (t + 1)) = i by omega] at hsending
  rw [hsending]
  rfl

/-- **The receiver recovers the bytes taken**, each with its stop sample. -/
theorem receive_line (t : ℕ) :
    receive clks (line clks s t) = bytes offers s (t - (toStop clks + 1)) := by
  have htracks := run_tracks hclks hzero hnext t
  have hquiet := fun {t i : ℕ} {b : BitVec 8} =>
    taken_of_frame hclks hnext (t := t) (i := i) (b := b)
  have hstop : toStop clks < 10 * clks := by
    unfold toStop
    omega
  cases hs : s t with
  | idle =>
      rw [hs] at htracks
      have hreceived := Framed.receive_append hclks htracks []
      rw [List.append_nil, receive_nil, List.append_nil] at hreceived
      rw [hreceived]
      refine Clocked.log_eq_of_none _ _ (Nat.sub_le _ _) fun i hi hit => ?_
      cases htaken : taken (offers i) (s i) with
      | none => rfl
      | some b =>
          -- its frame would still be on the line
          have hbusy := (run_frame hclks hnext htaken).1 (t - (i + 1)) (by omega)
          rw [show i + 1 + (t - (i + 1)) = t by omega, hs] at hbusy
          nomatch hbusy
  | sending n b =>
      rw [hs] at htracks
      obtain ⟨hn, whole, bytes', hwhole, hline, hbytes⟩ := htracks
      obtain ⟨-, t', rfl, htaken⟩ := run_sending hclks hzero hnext hs
      have hafter : bytes offers s (t' + 1 + n) = bytes offers s (t' + 1) :=
        Clocked.log_eq_of_none _ _ (by omega) fun i hi hit => hquiet htaken (by omega) (by omega)
      have hlast : bytes offers s (t' + 1) = bytes offers s t' ++ [b] := by
        rw [bytes, Clocked.log_succ, htaken]
        rfl
      have hbefore : bytes' = bytes offers s t' := by
        rw [hafter, hlast] at hbytes
        exact (List.append_cancel_right hbytes).symm
      rw [hline, hwhole.receive_append hclks]
      by_cases hsampled : toStop clks < n
      · have hreceived := receive_frame [] b hclks hsampled (Nat.le_of_lt hn)
        rw [List.append_nil, receive_nil] at hreceived
        rw [hreceived, hbefore, ← hlast]
        refine (Clocked.log_eq_of_none _ _ (by omega) fun i hi hit => ?_).symm
        exact hquiet htaken (by omega) (by omega)
      · have hshort : ((frame clks b).take n).length ≤ toStop clks :=
          Nat.le_trans (List.length_take_le n _) (by omega)
        rw [receive_short hshort, List.append_nil, hbefore]
        refine Clocked.log_eq_of_none _ _ (by omega) fun i hi hit => ?_
        cases hother : taken (offers i) (s i) with
        | none => rfl
        | some b' =>
            have hnone := hquiet hother (i := t') (by omega) (by omega)
            rw [htaken] at hnone
            nomatch hnone

end Run
end Sender
end Serial
