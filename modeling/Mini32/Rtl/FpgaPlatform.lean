import Mini32.Rtl.Transactions
import Mini32.Rtl.UartTxFifo
import Mini32.Rtl.UartTxPhy

/-!
# The FPGA platform

The clocked core of `mini32_fpga_platform`: the system, the UART event FIFO and the
transmitter, under the reset that `reset_sync` drives.  The transmit events of the
system enter the FIFO, and the transmitter takes them out.

## The way of a byte

`delivers_run` follows every byte that a store to UART DATA writes: it is an event,
in the FIFO, or on the pin, in the order of the stores, unless it met a full FIFO.
`Accounts` is its invariant: the bytes started, queued and still on their way are a
sublist of the bytes stored, shorter by the number of drops.  An edge moves a byte from one
part to the next.

The FIFO and the transmitter enter through their own refinements, the bounded queue of
`UartTxFifo` and the frame position of `UartTxPhy`; neither pointer nor baud counter is
mentioned here.
-/

namespace Mini32.Rtl

/-- The platform with a FIFO of `depth` bytes and `clks` cycles for each bit. -/
structure FpgaPlatform (depth clks : ℕ) where
  system : System
  uartFifo : UartTxFifo depth
  uartPhy : UartTxPhy clks

namespace FpgaPlatform

variable {depth clks : ℕ}

/-- The ports of the FIFO. -/
def fifoInputs (reset : Bool) (s : FpgaPlatform depth clks) : FifoInputs where
  reset := reset
  eventValid := s.system.bus.uart.txValid
  eventData := s.system.bus.uart.txData
  outReady := s.uartPhy.txReady

/-- The rising edge. All three instances read the outputs of the others before it. -/
def clock (reset : Bool) (gpioInput : Word) (s : FpgaPlatform depth clks) :
    FpgaPlatform depth clks where
  system := s.system.clock reset gpioInput
  uartFifo := s.uartFifo.clock (s.fifoInputs reset)
  uartPhy := s.uartPhy.clock reset s.uartFifo.outValid s.uartFifo.outData

/-- `uart_tx` -/
def uartTx (s : FpgaPlatform depth clks) : Bool := s.uartPhy.tx

/-- `uart_overflow` -/
def uartOverflow (s : FpgaPlatform depth clks) : Bool := s.uartFifo.overflow

/-- A run without reset after one reset edge, from any power-up state. -/
def run (pins : ℕ → Word) (resetPins : Word) (powerUp : FpgaPlatform depth clks) :
    ℕ → FpgaPlatform depth clks :=
  Clocked.run (clock false) pins (powerUp.clock true resetPins)

/-! ## The way of a byte -/

/-- The byte of the store to UART DATA that the bus performs in this cycle. -/
def stored (s : FpgaPlatform depth clks) : Option (BitVec 8) :=
  if s.system.bus.writing && s.system.bus.pendingAddr = System.uartData then
    some (s.system.bus.pendingWdata.extractLsb' 0 8)
  else none

/-- The byte the transmitter takes in this cycle. -/
def started (s : FpgaPlatform depth clks) : Option (BitVec 8) :=
  if s.uartFifo.outValid && s.uartPhy.txReady then some s.uartFifo.outData else none

/-- The event of this cycle meets a full FIFO that nothing leaves. -/
def drops (s : FpgaPlatform depth clks) : Bool :=
  s.system.bus.uart.txValid && s.uartFifo.count = UartTxFifo.depthCount depth &&
    !(s.uartFifo.outValid && s.uartPhy.txReady)

/-- The bytes stored before cycle `t`. -/
def storedBytes (s : ℕ → FpgaPlatform depth clks) (t : ℕ) : List (BitVec 8) :=
  Clocked.log stored s t

/-- The bytes whose transmission has started before cycle `t`. -/
def startedBytes (s : ℕ → FpgaPlatform depth clks) (t : ℕ) : List (BitVec 8) :=
  Clocked.log started s t

/-- What has not been dropped: started, in the FIFO, or the event of this cycle. -/
def accounted (s : ℕ → FpgaPlatform depth clks) (t : ℕ) : List (BitVec 8) :=
  startedBytes s t ++ (s t).uartFifo.queued ++ (s t).system.bus.transmitted

/-- **End-to-end delivery**, over the states of a run. -/
structure Delivers (s : ℕ → FpgaPlatform depth clks) : Prop where
  /-- What is accounted for are stored bytes in the order of the stores. -/
  ordered : ∀ t, (accounted s t).Sublist (storedBytes s t)
  /-- Nothing is missing exactly as long as no byte was dropped. -/
  complete : ∀ t, accounted s t = storedBytes s t ↔ ∀ i < t, (s i).drops = false
  /-- `uart_overflow` is high if and only if a byte was dropped. -/
  overflow : ∀ t, (s t).uartOverflow = true ↔ ∃ i < t, (s i).drops = true
  /-- The pin up to this cycle is idle cycles and one frame for each started byte; the
  last frame may be in progress. -/
  pin : ∀ t, Serial.OnLine clks ((List.range (t + 1)).map fun i => (s i).uartTx)
    (startedBytes s t)

/-! ## Edges -/

section Step

variable (s : FpgaPlatform depth clks) (pins : Word)

/-- A stored byte is the event of the next cycle. -/
theorem transmitted_clock :
    (s.clock false pins).system.bus.transmitted = s.stored.toList := by
  have hvalid : (s.clock false pins).system.bus.uart.txValid =
      (s.system.bus.uartWriteEnable && s.system.bus.pendingAddr.extractLsb' 0 4 = 0#4) := by
    simp [clock, System.clock, UartMmio.clock]
  have hdata : (s.system.bus.uartWriteEnable && s.system.bus.pendingAddr.extractLsb' 0 4 = 0#4) =
      true → (s.clock false pins).system.bus.uart.txData =
        s.system.bus.pendingWdata.extractLsb' 0 8 := by
    intro h
    simp only [clock, System.clock, SystemBus.clock_uart, UartMmio.clock, Bool.false_eq_true,
      if_false]
    exact if_pos h
  rw [System.uartWriteEnable_data] at hvalid hdata
  rw [SystemBus.transmitted, hvalid, stored]
  cases h : s.system.bus.writing && s.system.bus.pendingAddr = System.uartData with
  | false => rfl
  | true =>
      rw [hdata h]
      rfl

/-- The FIFO takes the event of a cycle unless it drops it. -/
theorem enqueue_eq (h : UartTxFifo.Represents s.uartFifo s.uartFifo.queued) :
    s.uartFifo.enqueue (s.fifoInputs false) =
      (s.system.bus.uart.txValid && !s.drops) := by
  have hle := h.length_le
  have hfull : s.uartFifo.count = UartTxFifo.depthCount depth ↔ ¬ s.uartFifo.count <
      UartTxFifo.depthCount depth := by
    rw [BitVec.lt_def, UartTxFifo.toNat_depthCount, h.count_eq, ← BitVec.toNat_inj,
      UartTxFifo.toNat_depthCount, h.count_eq]
    omega
  simp only [UartTxFifo.enqueue, UartTxFifo.dequeue, drops, fifoInputs, hfull]
  cases s.system.bus.uart.txValid <;>
    cases hlt : decide (s.uartFifo.count < UartTxFifo.depthCount depth) <;> simp_all

/-- What leaves the FIFO is started, what stays or enters is queued. -/
theorem queued_clock (h : UartTxFifo.Represents s.uartFifo s.uartFifo.queued) :
    UartTxFifo.Represents (s.clock false pins).uartFifo (s.clock false pins).uartFifo.queued ∧
      s.started.toList ++ (s.clock false pins).uartFifo.queued =
        s.uartFifo.queued ++ if s.drops then [] else s.system.bus.transmitted := by
  have hnext := h.clock (i := s.fifoInputs false) rfl
  have hqueued := hnext.queued_eq
  have hrep : UartTxFifo.Represents (s.clock false pins).uartFifo
      (s.clock false pins).uartFifo.queued := by
    simp only [clock]
    rw [hqueued]
    exact hnext
  refine ⟨hrep, ?_⟩
  have henq := s.enqueue_eq h
  have hroom := h.enqueue_iff (s.fifoInputs false)
  -- what leaves the queue is the byte that is started
  have hhead : s.started.toList ++
      Queue.rest (s.uartFifo.dequeue (s.fifoInputs false)) s.uartFifo.queued =
        s.uartFifo.queued := by
    cases hd : s.uartFifo.dequeue (s.fifoInputs false) with
    | false =>
        have hno : s.started = none := by
          simp only [UartTxFifo.dequeue, fifoInputs] at hd
          simp [started, hd]
        rw [hno]
        rfl
    | true =>
        obtain ⟨hne, -⟩ := (h.dequeue_iff _).mp hd
        obtain ⟨b, rest, hcons⟩ := List.exists_cons_of_ne_nil hne
        have hout : s.uartFifo.outData = b := by
          rw [hcons] at h
          exact h.outData_eq
        have hyes : s.started = some b := by
          simp only [UartTxFifo.dequeue, fifoInputs] at hd
          simp [started, hd, hout]
        rw [hyes, hcons]
        rfl
  simp only [clock]
  rw [hqueued, Queue.next]
  split
  · next hr =>
      -- there is room: the event enters the queue if there is one
      rw [← List.append_assoc, hhead]
      have henq' : s.uartFifo.enqueue (s.fifoInputs false) = s.system.bus.uart.txValid := by
        rw [Bool.eq_iff_iff, hroom]
        exact and_iff_left hr
      rw [henq'] at henq
      cases hv : s.system.bus.uart.txValid with
      | false => simp [SystemBus.transmitted, fifoInputs, hv]
      | true =>
          have hkept : s.drops = false := by simpa [hv] using henq.symm
          simp [SystemBus.transmitted, fifoInputs, hv, hkept]
  · next hr =>
      rw [hhead]
      -- there is none: an event now is dropped
      have hnot : s.uartFifo.enqueue (s.fifoInputs false) = false := by
        by_contra hc
        exact hr (hroom.mp (by simpa using hc)).2
      rw [hnot] at henq
      cases hv : s.system.bus.uart.txValid with
      | false => simp [SystemBus.transmitted, hv]
      | true =>
          have hdrop : s.drops = true := by simpa [hv] using henq.symm
          simp [hdrop]

/-- The overflow flag remembers a drop. -/
theorem uartOverflow_clock (h : UartTxFifo.Represents s.uartFifo s.uartFifo.queued) :
    (s.clock false pins).uartOverflow = (s.uartOverflow || s.drops) := by
  have hover := UartTxFifo.overflow_clock (s.fifoInputs false) s.uartFifo
  rw [Bool.eq_iff_iff, Bool.or_eq_true]
  refine Iff.trans hover ?_
  have hvalid : s.drops = true → s.system.bus.uart.txValid = true := by
    intro hd
    simp_all [drops]
  rw [s.enqueue_eq h]
  cases hv : s.system.bus.uart.txValid <;> cases hd : s.drops <;>
    simp_all [fifoInputs, uartOverflow]

/-- The byte that is started is the one the sender takes. -/
theorem started_eq : s.started = Serial.Sender.taken
    (if s.uartFifo.outValid then some s.uartFifo.outData else none) s.uartPhy.sender := by
  rw [Serial.Sender.taken, UartTxPhy.ready_sender, started]
  cases s.uartPhy.txReady <;> simp

end Step

/-! ## Every run -/

section Run

variable (hdepth : 0 < depth) (hclks : 0 < clks) (pins : ℕ → Word) (resetPins : Word)
  (powerUp : FpgaPlatform depth clks)

/-- One more cycle of a run. -/
theorem run_succ (t : ℕ) : run pins resetPins powerUp (t + 1) =
    (run pins resetPins powerUp t).clock false (pins t) := rfl

/-- The bytes of a run and the drops that separate them. -/
structure Accounts (s : ℕ → FpgaPlatform depth clks) (t : ℕ) : Prop where
  represents : UartTxFifo.Represents (s t).uartFifo (s t).uartFifo.queued
  ordered : (accounted s t).Sublist (storedBytes s t)
  missing : (accounted s t).length + Nat.count (fun i => (s i).drops = true) t =
    (storedBytes s t).length
  overflow : (s t).uartOverflow = true ↔ ∃ i < t, (s i).drops = true

/-- **One cycle** adds the byte that is stored and loses the event that is dropped. -/
theorem Accounts.step {s : ℕ → FpgaPlatform depth clks} {t : ℕ} {gpioInput : Word}
    (hs : s (t + 1) = (s t).clock false gpioInput) (h : Accounts s t) : Accounts s (t + 1) := by
  obtain ⟨hrep, hqueue⟩ := (s t).queued_clock gpioInput h.represents
  have hevent := (s t).transmitted_clock gpioInput
  have hstarted : startedBytes s (t + 1) = startedBytes s t ++ (s t).started.toList :=
    Clocked.log_succ _ _ _
  have hstored : storedBytes s (t + 1) = storedBytes s t ++ (s t).stored.toList :=
    Clocked.log_succ _ _ _
  -- the event of cycle `t` is now in the queue or lost, and a new byte is on its way
  have haccounted : accounted s (t + 1) =
      startedBytes s t ++ (s t).uartFifo.queued ++
        (if (s t).drops then [] else (s t).system.bus.transmitted) ++ (s t).stored.toList := by
    rw [accounted, hs, hevent, hstarted, List.append_assoc (startedBytes s t), hqueue]
    simp only [List.append_assoc]
  constructor
  case represents =>
    rw [hs]
    exact hrep
  case ordered =>
    rw [haccounted, hstored]
    refine List.Sublist.append_right (List.Sublist.trans ?_ h.ordered) _
    rw [accounted]
    refine List.Sublist.append_left ?_ _
    split
    · exact List.nil_sublist _
    · exact List.Sublist.refl _
  case missing =>
    have hmissing := h.missing
    rw [haccounted, hstored, Nat.count_succ]
    simp only [accounted, List.length_append] at hmissing ⊢
    cases hd : (s t).drops with
    | false =>
        simp only [Bool.false_eq_true, if_false]
        omega
    | true =>
        -- the dropped event is one byte
        have hone : (s t).system.bus.transmitted.length = 1 := by
          have hv : (s t).system.bus.uart.txValid = true := by
            simp only [drops, Bool.and_eq_true] at hd
            exact hd.1.1
          simp [SystemBus.transmitted, hv]
        simp only [if_true, List.length_nil]
        omega
  case overflow =>
    rw [hs, uartOverflow_clock _ _ h.represents, Bool.or_eq_true, h.overflow]
    constructor
    · rintro (⟨i, hi, hd⟩ | hd)
      · exact ⟨i, Nat.lt_succ_of_lt hi, hd⟩
      · exact ⟨t, Nat.lt_succ_self t, hd⟩
    · rintro ⟨i, hi, hd⟩
      rcases Nat.lt_succ_iff_lt_or_eq.mp hi with hlt | rfl
      · exact Or.inl ⟨i, hlt, hd⟩
      · exact Or.inr hd

include hdepth in
/-- The accounts balance in every cycle of a run. -/
theorem accounts_run (t : ℕ) : Accounts (run pins resetPins powerUp) t := by
  induction t with
  | zero =>
      have hrep : UartTxFifo.Represents (run pins resetPins powerUp 0).uartFifo [] :=
        UartTxFifo.Represents.reset hdepth powerUp.uartFifo (i := powerUp.fifoInputs true) rfl
      have hnil : accounted (run pins resetPins powerUp) 0 = [] := by
        rw [accounted, hrep.queued_eq]
        rfl
      refine ⟨hrep.queued_eq ▸ hrep, ?_, ?_, ?_⟩
      · rw [hnil]
        exact List.nil_sublist _
      · rw [hnil]
        rfl
      · simp only [Nat.not_lt_zero, false_and, exists_false, iff_false]
        exact Bool.false_ne_true
  | succ t ih => exact ih.step (run_succ pins resetPins powerUp t)

include hclks in
/-- The transmitter's counters are in range in every cycle of a run. -/
theorem inPhase_run (t : ℕ) : (run pins resetPins powerUp t).uartPhy.InPhase :=
  Clocked.run_invariant (P := fun s : FpgaPlatform depth clks => s.uartPhy.InPhase) _
    (UartTxPhy.inPhase_reset powerUp.uartFifo.outValid powerUp.uartFifo.outData
      powerUp.uartPhy).1
    (fun _ s h => (UartTxPhy.sender_clock hclks s.uartFifo.outValid s.uartFifo.outData h).1) t

include hclks in
/-- The pin of a run carries the started bytes. -/
theorem onLine_run (t : ℕ) : Serial.OnLine clks
    ((List.range (t + 1)).map fun i => (run pins resetPins powerUp i).uartTx)
    (startedBytes (run pins resetPins powerUp) t) := by
  have hphase := inPhase_run hclks pins resetPins powerUp
  have htracks := Serial.Sender.run_tracks
    (s := fun i => (run pins resetPins powerUp i).uartPhy.sender)
    hclks (UartTxPhy.inPhase_reset powerUp.uartFifo.outValid powerUp.uartFifo.outData
      powerUp.uartPhy).2
    (fun i => (UartTxPhy.sender_clock hclks _ _ (hphase i)).2) t
  have hline := htracks.onLine
  rw [← Serial.Sender.line_succ] at hline
  have hpin : Serial.Sender.line clks (fun i => (run pins resetPins powerUp i).uartPhy.sender)
      (t + 1) = (List.range (t + 1)).map fun i => (run pins resetPins powerUp i).uartTx :=
    List.map_congr_left fun i _ => UartTxPhy.pin_sender hclks (hphase i)
  rw [hpin] at hline
  have hbytes : startedBytes (run pins resetPins powerUp) t = Serial.Sender.bytes _ _ t :=
    List.filterMap_congr fun i _ => started_eq (run pins resetPins powerUp i)
  rw [hbytes]
  exact hline

/-- **End-to-end UART delivery** for every program, FIFO depth and divider, and every
sequence of input pins. -/
theorem delivers_run (hdepth : 0 < depth) (hclks : 0 < clks) (pins : ℕ → Word) (resetPins : Word)
    (powerUp : FpgaPlatform depth clks) : Delivers (run pins resetPins powerUp) where
  ordered t := (accounts_run hdepth pins resetPins powerUp t).ordered
  complete t := by
    have h := accounts_run hdepth pins resetPins powerUp t
    have hlength := h.missing
    constructor
    · intro heq i hi
      rw [heq] at hlength
      have hnone : Nat.count (fun i => (run pins resetPins powerUp i).drops = true) t = 0 := by
        omega
      by_contra hd
      exact Nat.count_iff_forall_not.mp hnone i hi (by simpa using hd)
    · intro hkept
      have hnone : Nat.count (fun i => (run pins resetPins powerUp i).drops = true) t = 0 := by
        refine Nat.count_iff_forall_not.mpr fun i hi => ?_
        simp [hkept i hi]
      exact h.ordered.eq_of_length (by omega)
  overflow t := (accounts_run hdepth pins resetPins powerUp t).overflow
  pin t := onLine_run hclks pins resetPins powerUp t

end Run

/-- The platform at power-up: a program in the ROM, zeros everywhere else. -/
def loaded (depth clks : ℕ) (program : BitVec 14 → Word) : FpgaPlatform depth clks where
  system :=
    { cpu :=
        { state := .fetch, pc := 0, instructionRegister := 0, operandLhsLatch := 0,
          operandRhsLatch := 0, aluResultLatch := 0, storeDataLatch := 0, memoryDataLatch := 0,
          nextPcLatch := 0, registers := fun _ => 0, fault := ⟨.none, 0, 0, false, 0⟩,
          retire := ⟨false, 0, 0, 0, false, 0, 0, false, 0, 0⟩ }
      bus :=
        { state := .idle, pendingAccess := .fetch, pendingAddr := 0, pendingWdata := 0
          rom := ⟨program, 0⟩, ram := ⟨fun _ => 0, 0⟩, uart := ⟨0, false, 0⟩
          timer := ⟨0, 0, 0, false⟩, gpio := ⟨0, 0, 0⟩, debug := ⟨0, 0⟩ } }
  uartFifo := ⟨Vector.replicate depth 0, 0, 0, 0, false⟩
  uartPhy := ⟨.idle, 0, 0, 0⟩

/-- `LUI r1, 0x2000`, `SW r1, [r1 + 0]`, `HALT`: a byte for the UART. -/
def oneByte : BitVec 14 → Word
  | 0 => 0x34202000
  | 1 => 0x3C210000
  | 2 => 0x5C000000
  | _ => 0

/-- One slot and one cycle for each bit. -/
theorem delivers_run_oneByte : Delivers (run (fun _ => 0) 0 (loaded 1 1 oneByte)) :=
  delivers_run Nat.one_pos Nat.one_pos _ _ _

end FpgaPlatform
end Mini32.Rtl
