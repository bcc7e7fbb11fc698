import Mini32.Rtl.FpgaPlatform

/-!
# The serial line drains

Where every stored byte is says nothing about its getting anywhere.  When nothing is
stored any more, every cycle takes one unit off the `work` that is left (`work_clock`):
a frame goes on, or the next byte leaves the FIFO.  With no work left
every byte has been sent to its stop bit, and a receiver that only sees the pin has
all of them (`serves`).

`work` is a number of cycles, and `work_le` bounds it by what a full FIFO, a frame and an
event cost (`drainCycles`), so the drain is bounded whatever the run did before.
`receivedBytes` looks at the pin alone.  That it has all bytes needs both results: the pin
carries a frame for each started byte, and in the end every byte that was not dropped has
been started.
-/

namespace Mini32.Rtl
namespace FpgaPlatform

variable {depth clks : ℕ}

/-- The cycles until the line is idle, if nothing is stored any more. -/
def work (s : FpgaPlatform depth clks) : ℕ :=
  s.uartPhy.sender.remaining clks + (10 * clks + 1) * s.uartFifo.queued.length +
    (10 * clks + 2) * s.system.bus.transmitted.length

/-- The time to send a full FIFO, a byte that is on the line and one that is an event. -/
def drainCycles (depth clks : ℕ) : ℕ := (depth + 2) * (10 * clks + 1)

/-- The pin in the cycles before `t`. -/
def pinLine (s : ℕ → FpgaPlatform depth clks) (t : ℕ) : List Bool :=
  (List.range t).map fun i => (s i).uartTx

/-- What a receiver of the pin alone has before cycle `t`. -/
def receivedBytes (s : ℕ → FpgaPlatform depth clks) (t : ℕ) : List (BitVec 8) :=
  Serial.receive clks (pinLine s t)

/-- **The transcript is served**, over the states of a run that stores nothing from
cycle `stop` on. -/
structure Serves (transcript : List (BitVec 8)) (s : ℕ → FpgaPlatform depth clks) (stop : ℕ) :
    Prop where
  /-- At any time the receiver has bytes of the transcript, in their order. -/
  ordered : ∀ t, (receivedBytes s t).Sublist transcript
  /-- A FIFO that takes the whole transcript never overflows. -/
  roomy : transcript.length ≤ depth → ∀ t, (s t).uartOverflow = false
  /-- In the end the line is idle, and the overflow flag says if anything is missing. -/
  delivered : ∀ t ≥ stop + drainCycles depth clks, (s t).uartTx = true ∧
    (receivedBytes s t = transcript ↔ (s t).uartOverflow = false)

/-! ## One cycle -/

section Step

variable {s : FpgaPlatform depth clks} (pins : Word)

/-- Inside a frame there is something left of it. -/
theorem sender_of_remaining (hphase : s.uartPhy.InPhase)
    (h : s.uartPhy.sender.remaining clks = 0) : s.uartPhy.sender = .idle := by
  have hbit : s.uartPhy.bitIndex.toNat < 8 := s.uartPhy.bitIndex.isLt
  have hmul : s.uartPhy.bitIndex.toNat * clks ≤ 7 * clks := Nat.mul_le_mul_right clks (by omega)
  unfold UartTxPhy.sender at h ⊢
  cases hs : s.uartPhy.state with
  | idle => rfl
  | start =>
      have hlt := hphase.baudCount_lt (by simp [hs])
      simp only [hs, Serial.Sender.remaining] at h
      omega
  | data =>
      have hlt := hphase.baudCount_lt (by simp [hs])
      simp only [hs, Serial.Sender.remaining, Nat.add_mul] at h
      omega
  | stop =>
      have hlt := hphase.baudCount_lt (by simp [hs])
      simp only [hs, Serial.Sender.remaining] at h
      omega

/-- An idle transmitter leaves nothing in the FIFO. -/
theorem queued_of_not_started (hrep : UartTxFifo.Represents s.uartFifo s.uartFifo.queued)
    (hidle : s.uartPhy.sender = .idle) (h : s.started = none) : s.uartFifo.queued = [] := by
  have hready : s.uartPhy.txReady = true := by
    rw [← UartTxPhy.ready_sender, hidle]
    rfl
  have hempty : s.uartFifo.outValid = false := by
    rw [started, hready, Bool.and_true] at h
    simpa using h
  by_contra hne
  rw [hrep.outValid_iff.mpr hne] at hempty
  cases hempty

/-- **A cycle in which nothing is stored is one cycle less.** -/
theorem work_clock (hclks : 0 < clks) (hphase : s.uartPhy.InPhase)
    (hrep : UartTxFifo.Represents s.uartFifo s.uartFifo.queued) (hquiet : s.stored = none) :
    (s.clock false pins).work ≤ s.work - 1 := by
  obtain ⟨-, hqueue⟩ := s.queued_clock pins hrep
  have hevent : (s.clock false pins).system.bus.transmitted = [] := by
    rw [transmitted_clock, hquiet]
    rfl
  have hsender : (s.clock false pins).uartPhy.sender = s.uartPhy.sender.next clks
      (if s.uartFifo.outValid then some s.uartFifo.outData else none) :=
    (UartTxPhy.sender_clock hclks _ _ hphase).2
  have hstarted := s.started_eq
  -- what is queued then was queued before, or is the event of this cycle
  have hlength : s.started.toList.length + (s.clock false pins).uartFifo.queued.length ≤
      s.uartFifo.queued.length + s.system.bus.transmitted.length := by
    have hlength := congrArg List.length hqueue
    rw [List.length_append, List.length_append] at hlength
    rw [hlength]
    split
    · exact Nat.add_le_add_left (Nat.zero_le _) _
    · exact Nat.le_refl _
  have hbound := Nat.mul_le_mul_left (10 * clks + 1) hlength
  simp only [Nat.mul_add] at hbound
  simp only [work, hsender, hevent, List.length_nil, Nat.mul_zero, Nat.add_zero]
  have hevents : (10 * clks + 2) * s.system.bus.transmitted.length =
      (10 * clks + 1) * s.system.bus.transmitted.length + s.system.bus.transmitted.length :=
    Nat.succ_mul _ _
  rw [hevents]
  cases hs : s.started with
  | some b =>
      -- a frame begins
      have htaken := hstarted.symm.trans hs
      rw [Serial.Sender.next_of_taken htaken, Serial.Sender.remaining]
      rw [hs, Option.toList_some, List.length_singleton] at hbound
      omega
  | none =>
      rw [Serial.Sender.remaining_next (hstarted.symm.trans hs)]
      rw [hs, Option.toList_none, List.length_nil] at hbound
      rcases Nat.eq_zero_or_pos (s.uartPhy.sender.remaining clks) with hzero | hpos
      · -- between two frames the FIFO is empty; an event enters it
        have hidle := sender_of_remaining hphase hzero
        rw [queued_of_not_started hrep hidle hs] at hbound hlength ⊢
        simp only [List.length_nil] at hbound hlength ⊢
        rcases Nat.eq_zero_or_pos s.system.bus.transmitted.length with hnone | hone
        · rw [hnone] at hbound ⊢
          omega
        · omega
      · omega

theorem work_eq_zero (h : s.work = 0) : s.uartPhy.sender.remaining clks = 0 ∧
    s.uartFifo.queued = [] ∧ s.system.bus.transmitted = [] := by
  rw [work] at h
  have hqueue : (10 * clks + 1) * s.uartFifo.queued.length = 0 := by omega
  have hevents : (10 * clks + 2) * s.system.bus.transmitted.length = 0 := by omega
  refine ⟨by omega, ?_, ?_⟩
  · exact List.length_eq_zero_iff.mp ((Nat.mul_eq_zero.mp hqueue).resolve_left (by omega))
  · exact List.length_eq_zero_iff.mp ((Nat.mul_eq_zero.mp hevents).resolve_left (by omega))

/-- What can be left at any time. -/
theorem work_le (hrep : UartTxFifo.Represents s.uartFifo s.uartFifo.queued) :
    s.work ≤ drainCycles depth clks := by
  have hone : s.system.bus.transmitted.length ≤ 1 := by
    rw [SystemBus.transmitted]
    split <;> simp
  have hframe : s.uartPhy.sender.remaining clks ≤ 10 * clks := by
    cases s.uartPhy.sender with
    | idle => exact Nat.zero_le _
    | sending n b => exact Nat.sub_le _ _
  have hqueue := Nat.mul_le_mul_left (10 * clks + 1) hrep.length_le
  have hsent := Nat.mul_le_mul_left (10 * clks + 2) hone
  have htotal : drainCycles depth clks = (10 * clks + 1) * depth + (10 * clks + 1) * 2 := by
    rw [drainCycles, Nat.mul_comm, Nat.mul_add]
  rw [work, htotal]
  omega

end Step

/-! ## Every run -/

section Run

variable (hdepth : 0 < depth) (hclks : 0 < clks) (pins : ℕ → Word) (resetPins : Word)
  (powerUp : FpgaPlatform depth clks)

/-- Nothing is missing as long as the overflow flag is low. -/
theorem Accounts.complete_iff {s : ℕ → FpgaPlatform depth clks} {t : ℕ} (h : Accounts s t) :
    accounted s t = storedBytes s t ↔ (s t).uartOverflow = false := by
  have hmissing := h.missing
  have hcount : Nat.count (fun i => (s i).drops = true) t = 0 ↔ (s t).uartOverflow = false := by
    rw [← Bool.not_eq_true, h.overflow, Nat.count_iff_forall_not]
    simp
  rw [← hcount]
  constructor
  · intro heq
    rw [heq] at hmissing
    omega
  · intro hnone
    exact h.ordered.eq_of_length (by omega)

/-- What is stored in the cycles before `t` has been an event by then. -/
theorem transcript_run (t : ℕ) :
    System.transcript (fun i => (run pins resetPins powerUp i).system) t =
      storedBytes (run pins resetPins powerUp) t := by
  induction t with
  | zero => rfl
  | succ t ih =>
      rw [storedBytes, Clocked.log_succ, ← storedBytes, ← ih, ← transmitted_clock _ (pins t),
        System.transcript, List.range_succ, List.flatMap_append, List.flatMap_singleton]
      rfl

/-- The bytes that are stored in the end include those before. -/
theorem storedBytes_mono (s : ℕ → FpgaPlatform depth clks) {t t' : ℕ} (h : t ≤ t') :
    storedBytes s t <+: storedBytes s t' := by
  obtain ⟨n, rfl⟩ := Nat.exists_eq_add_of_le h
  exact ⟨_, (Clocked.log_add _ _ t n).symm⟩

theorem startedBytes_mono (s : ℕ → FpgaPlatform depth clks) {t t' : ℕ} (h : t ≤ t') :
    startedBytes s t <+: startedBytes s t' := by
  obtain ⟨n, rfl⟩ := Nat.exists_eq_add_of_le h
  exact ⟨_, (Clocked.log_add _ _ t n).symm⟩

include hclks in
/-- The receiver has the bytes whose stop bit it has sampled. -/
theorem receivedBytes_run (t : ℕ) : receivedBytes (run pins resetPins powerUp) t =
    startedBytes (run pins resetPins powerUp) (t - (Serial.toStop clks + 1)) := by
  have hphase := inPhase_run hclks pins resetPins powerUp
  have hline := Serial.Sender.receive_line
    (s := fun i => (run pins resetPins powerUp i).uartPhy.sender)
    hclks (UartTxPhy.inPhase_reset powerUp.uartFifo.outValid powerUp.uartFifo.outData
      powerUp.uartPhy).2
    (fun i => (UartTxPhy.sender_clock hclks _ _ (hphase i)).2) t
  have hpin : Serial.Sender.line clks (fun i => (run pins resetPins powerUp i).uartPhy.sender) t =
      pinLine (run pins resetPins powerUp) t :=
    List.map_congr_left fun i _ => UartTxPhy.pin_sender hclks (hphase i)
  rw [hpin] at hline
  rw [receivedBytes, hline]
  exact (List.filterMap_congr fun i _ => started_eq (run pins resetPins powerUp i)).symm

include hdepth hclks

/-- **The work runs out.** -/
theorem work_run {stop : ℕ} (hquiet : ∀ t ≥ stop, (run pins resetPins powerUp t).stored = none)
    (n : ℕ) : (run pins resetPins powerUp (stop + n)).work ≤ drainCycles depth clks - n := by
  induction n with
  | zero => exact work_le (accounts_run hdepth pins resetPins powerUp _).represents
  | succ n ih =>
      have hstep := work_clock (pins (stop + n)) hclks
        (inPhase_run hclks pins resetPins powerUp (stop + n))
        (accounts_run hdepth pins resetPins powerUp (stop + n)).represents
        (hquiet _ (Nat.le_add_right _ _))
      rw [← Nat.add_assoc, run_succ]
      omega

omit hdepth in
/-- Without work the line is idle, and the receiver has what was not dropped. -/
theorem drained {t : ℕ} (h : (run pins resetPins powerUp t).work = 0) :
    (run pins resetPins powerUp t).uartTx = true ∧
      receivedBytes (run pins resetPins powerUp) t = accounted (run pins resetPins powerUp) t := by
  have hphase := inPhase_run hclks pins resetPins powerUp
  obtain ⟨hremaining, hqueued, hevent⟩ := work_eq_zero h
  have hidle := sender_of_remaining (hphase t) hremaining
  refine ⟨?_, ?_⟩
  · rw [uartTx, ← UartTxPhy.pin_sender hclks (hphase t), hidle]
    rfl
  · -- every byte that was started has its stop bit
    have htracks := Serial.Sender.run_tracks
      (s := fun i => (run pins resetPins powerUp i).uartPhy.sender)
      hclks (UartTxPhy.inPhase_reset powerUp.uartFifo.outValid powerUp.uartFifo.outData
        powerUp.uartPhy).2
      (fun i => (UartTxPhy.sender_clock hclks _ _ (hphase i)).2) t
    rw [show (run pins resetPins powerUp t).uartPhy.sender = _ from hidle] at htracks
    have hpin : Serial.Sender.line clks (fun i => (run pins resetPins powerUp i).uartPhy.sender)
        t = pinLine (run pins resetPins powerUp) t :=
      List.map_congr_left fun i _ => UartTxPhy.pin_sender hclks (hphase i)
    have hreceive := Serial.Framed.receive_append hclks htracks []
    rw [List.append_nil, Serial.receive_nil, List.append_nil, hpin] at hreceive
    rw [receivedBytes, hreceive, accounted, hqueued, hevent, List.append_nil, List.append_nil]
    exact (List.filterMap_congr fun i _ => started_eq (run pins resetPins powerUp i)).symm

/-- **What is stored in the end is served.** -/
theorem serves {transcript : List (BitVec 8)} {stop : ℕ}
    (hstop : ∀ t ≥ stop, storedBytes (run pins resetPins powerUp) t = transcript) :
    Serves transcript (run pins resetPins powerUp) stop := by
  have haccounts := accounts_run hdepth pins resetPins powerUp
  have hstored (t : ℕ) : (storedBytes (run pins resetPins powerUp) t).Sublist transcript := by
    rw [← hstop (stop + t) (Nat.le_add_right _ _)]
    exact (storedBytes_mono _ (Nat.le_add_left _ _)).sublist
  have hquiet : ∀ t ≥ stop, (run pins resetPins powerUp t).stored = none := by
    intro t ht
    have hnext := hstop (t + 1) (Nat.le_succ_of_le ht)
    rw [storedBytes, Clocked.log_succ, ← storedBytes, hstop t ht] at hnext
    simpa using hnext
  constructor
  case ordered =>
    intro t
    rw [receivedBytes_run hclks]
    refine (startedBytes_mono _ (Nat.sub_le _ _)).sublist.trans ?_
    refine List.Sublist.trans ?_ ((haccounts t).ordered.trans (hstored t))
    rw [accounted, List.append_assoc]
    exact List.sublist_append_left _ _
  case roomy =>
    intro hroom t
    -- a drop needs a full FIFO and one more byte
    by_contra hover
    obtain ⟨i, -, hdrop⟩ := (haccounts t).overflow.mp (by simpa using hover)
    have hlength := ((haccounts i).ordered.trans (hstored i)).length_le
    have hrep := (haccounts i).represents
    simp only [drops, Bool.and_eq_true, decide_eq_true_eq] at hdrop
    obtain ⟨⟨hevent, hfull⟩, -⟩ := hdrop
    have hcount : (run pins resetPins powerUp i).uartFifo.queued.length = depth := by
      rw [← hrep.count_eq, hfull, UartTxFifo.toNat_depthCount]
    simp only [accounted, List.length_append, SystemBus.transmitted, hevent, if_true,
      List.length_singleton] at hlength
    omega
  case delivered =>
    intro t ht
    obtain ⟨n, rfl⟩ := Nat.exists_eq_add_of_le ht
    have hwork := work_run hdepth hclks pins resetPins powerUp hquiet (drainCycles depth clks + n)
    rw [← Nat.add_assoc] at hwork
    obtain ⟨hidle, hreceived⟩ := drained hclks pins resetPins powerUp
      (t := stop + drainCycles depth clks + n) (by omega)
    refine ⟨hidle, ?_⟩
    rw [hreceived, ← hstop (stop + drainCycles depth clks + n) (by omega)]
    exact (haccounts _).complete_iff

end Run

end FpgaPlatform
end Mini32.Rtl
