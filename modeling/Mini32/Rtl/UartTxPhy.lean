import Mathlib.Algebra.Group.Nat.Defs
import Mathlib.Data.Nat.Log
import Mini32.Lib.Serial

/-!
# The UART transmitter

`uart_tx_phy` for every divider, with the counter width it derives.

A frame is a start bit, eight data bits from the lowest on and a stop bit, each
`CLKS_PER_BIT` cycles long.  The source keeps its place in a state, a baud counter and a bit
index; `sender` reads these three as one position in the frame and `sender_clock` says that
an edge is a cycle of `Serial.Sender`.  What is on the pin over a run is then a matter of
that library (`sends8N1_run`).

`clksPerBit` is the divider of a clock and a baud rate in the 32-bit integers of the source,
which leave a division by zero open.
-/

namespace Mini32.Rtl

/-- `uart_state_t` -/
inductive UartState
  | idle | start | data | stop
  deriving DecidableEq, Repr

namespace UartTxPhy

/-! ## Derived parameters -/

/-- `CLKS_PER_BIT_ROUNDED` -/
def clksPerBitRounded (clockHz baudRate : BitVec 32) : BitVec 32 :=
  (clockHz + baudRate.sdiv 2).sdiv baudRate

/-- `CLKS_PER_BIT`, never below one. -/
def clksPerBit (clockHz baudRate : BitVec 32) : ℕ :=
  if (clksPerBitRounded clockHz baudRate).toInt < 1 then 1
  else (clksPerBitRounded clockHz baudRate).toNat

/-- `BAUD_COUNT_WIDTH` -/
def baudCountWidth (clks : ℕ) : ℕ := if clks ≤ 1 then 1 else Nat.clog 2 clks

/-- `LAST_BAUD_COUNT` -/
def lastBaudCount (clks : ℕ) : BitVec (baudCountWidth clks) := BitVec.ofNat _ (clks - 1)

end UartTxPhy

/-- The transmitter with `clks` cycles for each bit. -/
structure UartTxPhy (clks : ℕ) where
  state : UartState
  baudCount : BitVec (UartTxPhy.baudCountWidth clks)
  bitIndex : BitVec 3
  latchedData : BitVec 8

namespace UartTxPhy

variable {clks : ℕ}

/-- `tx`: high when idle and in the stop bit. -/
def tx (phy : UartTxPhy clks) : Bool :=
  if phy.state = .start then false
  else if phy.state = .data then phy.latchedData.getLsbD phy.bitIndex.toNat
  else true

/-- `tx_ready` -/
def txReady (phy : UartTxPhy clks) : Bool := phy.state = .idle

/-- The rising edge. -/
def clock (reset txValid : Bool) (txData : BitVec 8) (phy : UartTxPhy clks) : UartTxPhy clks :=
  if reset then ⟨.idle, 0, 0, 0⟩
  else if phy.state = .idle then
    let idle := { phy with baudCount := 0, bitIndex := 0 }
    if txValid then { idle with latchedData := txData, state := .start } else idle
  else if phy.baudCount = lastBaudCount clks then
    let phy' := { phy with baudCount := 0 }
    match phy.state with
    | .start => { phy' with state := .data }
    | .data =>
        if phy.bitIndex = 7 then { phy' with bitIndex := 0, state := .stop }
        else { phy' with bitIndex := phy.bitIndex + 1 }
    | .stop => { phy' with state := .idle }
    | .idle => { phy' with state := .idle }
  else { phy with baudCount := phy.baudCount + 1 }

/-! ## The divider -/

/-- A bit lasts at least one cycle, whatever the parameters. -/
theorem clksPerBit_pos (clockHz baudRate : BitVec 32) : 0 < clksPerBit clockHz baudRate := by
  unfold clksPerBit
  split
  · exact Nat.one_pos
  · next h =>
      by_contra hzero
      have hz : clksPerBitRounded clockHz baudRate = 0 :=
        BitVec.eq_of_toNat_eq (Nat.eq_zero_of_not_pos hzero)
      rw [hz] at h
      exact h (by decide)

/-- 50 MHz and 115200 baud. -/
example : clksPerBit 50000000 115200 = 434 := by decide

/-- The baud counter can count a whole bit. -/
theorem clks_le_two_pow (clks : ℕ) : clks ≤ 2 ^ baudCountWidth clks := by
  unfold baudCountWidth
  split
  · omega
  · exact Nat.le_pow_clog Nat.one_lt_two clks

/-- The compare constant fits its width, also when the divider is a power of two. -/
theorem toNat_lastBaudCount (hclks : 0 < clks) : (lastBaudCount clks).toNat = clks - 1 := by
  have hfits := clks_le_two_pow clks
  rw [lastBaudCount, BitVec.toNat_ofNat, Nat.mod_eq_of_lt (by omega)]

/-- The comparison with `LAST_BAUD_COUNT` is one of numbers. -/
theorem eq_lastBaudCount_iff (hclks : 0 < clks) {count : BitVec (baudCountWidth clks)} :
    count = lastBaudCount clks ↔ count.toNat = clks - 1 := by
  rw [← toNat_lastBaudCount hclks]
  exact BitVec.toNat_inj.symm

/-- Below the last value the counter counts. -/
theorem toNat_add_one {count : BitVec (baudCountWidth clks)} (h : count.toNat + 1 < clks) :
    (count + 1).toNat = count.toNat + 1 := by
  have hfits := clks_le_two_pow clks
  have hone : 1 < 2 ^ baudCountWidth clks := by omega
  rw [BitVec.toNat_add, BitVec.ofNat_eq_ofNat, BitVec.toNat_ofNat, Nat.mod_eq_of_lt hone,
    Nat.mod_eq_of_lt (by omega)]

/-! ## The position in the frame -/

/-- The transmitter as a sender. -/
def sender (phy : UartTxPhy clks) : Serial.Sender :=
  match phy.state with
  | .idle => .idle
  | .start => .sending phy.baudCount.toNat phy.latchedData
  | .data => .sending ((phy.bitIndex.toNat + 1) * clks + phy.baudCount.toNat) phy.latchedData
  | .stop => .sending (9 * clks + phy.baudCount.toNat) phy.latchedData

/-- In a frame the baud counter is below the divider, and data start at bit 0. -/
structure InPhase (phy : UartTxPhy clks) : Prop where
  baudCount_lt : phy.state ≠ .idle → phy.baudCount.toNat < clks
  bitIndex_start : phy.state = .start → phy.bitIndex = 0

/-- After reset the counters are in range. -/
theorem inPhase_reset (txValid : Bool) (txData : BitVec 8) (phy : UartTxPhy clks) :
    InPhase (phy.clock true txValid txData) ∧ (phy.clock true txValid txData).sender = .idle :=
  ⟨⟨fun h => absurd rfl h, fun _ => rfl⟩, rfl⟩

/-- The transmitter is ready when no frame is under way. -/
theorem ready_sender (phy : UartTxPhy clks) : phy.sender.ready = phy.txReady := by
  cases h : phy.state <;> simp [sender, txReady, h, Serial.Sender.ready]

/-- The bit that a position within a frame belongs to. -/
theorem add_div (hclks : 0 < clks) {count : ℕ} (h : count < clks) (k : ℕ) :
    (k * clks + count) / clks = k := by
  rw [Nat.add_comm, Nat.add_mul_div_right _ _ hclks, Nat.div_eq_of_lt h, Nat.zero_add]

/-- The pin carries the symbol of the position. -/
theorem pin_sender (hclks : 0 < clks) {phy : UartTxPhy clks} (h : InPhase phy) :
    phy.sender.pin clks = phy.tx := by
  cases hs : phy.state with
  | idle => simp [sender, tx, hs, Serial.Sender.pin]
  | start =>
      have hlt := h.baudCount_lt (by simp [hs])
      simp [sender, tx, hs, Serial.Sender.pin, Nat.div_eq_of_lt hlt, Serial.symbol]
  | data =>
      have hlt := h.baudCount_lt (by simp [hs])
      have hbit : phy.bitIndex.toNat < 8 := phy.bitIndex.isLt
      simp [sender, tx, hs, Serial.Sender.pin, add_div hclks hlt, Serial.symbol, hbit]
  | stop =>
      have hlt := h.baudCount_lt (by simp [hs])
      simp [sender, tx, hs, Serial.Sender.pin, add_div hclks hlt, Serial.symbol]

section Clock

variable (hclks : 0 < clks) {phy : UartTxPhy clks} (txValid : Bool) (txData : BitVec 8)

include hclks

/-- Inside a bit the counter moves the position. -/
theorem clock_within (h : InPhase phy) (hs : phy.state ≠ .idle)
    (hc : phy.baudCount.toNat + 1 < clks) :
    InPhase (phy.clock false txValid txData) ∧
      (phy.clock false txValid txData).sender =
        phy.sender.next clks (if txValid then some txData else none) := by
  have hlast : phy.baudCount ≠ lastBaudCount clks := by
    rw [ne_eq, eq_lastBaudCount_iff hclks]
    omega
  have hclock : phy.clock false txValid txData = { phy with baudCount := phy.baudCount + 1 } := by
    simp [clock, hs, hlast]
  have hcount := toNat_add_one hc
  have hbit : phy.bitIndex.toNat < 8 := phy.bitIndex.isLt
  have hmul : phy.bitIndex.toNat * clks ≤ 7 * clks := Nat.mul_le_mul_right clks (by omega)
  rw [hclock]
  refine ⟨⟨fun _ => by rwa [hcount], h.bitIndex_start⟩, ?_⟩
  cases hst : phy.state with
  | idle => exact absurd hst hs
  | start =>
      have hlt : phy.baudCount.toNat + 1 < 10 * clks := by omega
      simp only [sender, hst, hcount, Serial.Sender.next, if_pos hlt]
  | data =>
      have hlt : (phy.bitIndex.toNat + 1) * clks + phy.baudCount.toNat + 1 < 10 * clks := by
        rw [Nat.add_mul]
        omega
      simp only [sender, hst, hcount, Serial.Sender.next, if_pos hlt, ← Nat.add_assoc]
  | stop =>
      have hlt : 9 * clks + phy.baudCount.toNat + 1 < 10 * clks := by omega
      simp only [sender, hst, hcount, Serial.Sender.next, if_pos hlt, ← Nat.add_assoc]

/-- At the end of a bit the next symbol begins. -/
theorem clock_advance (h : InPhase phy) (hs : phy.state ≠ .idle)
    (hc : phy.baudCount.toNat = clks - 1) :
    InPhase (phy.clock false txValid txData) ∧
      (phy.clock false txValid txData).sender =
        phy.sender.next clks (if txValid then some txData else none) := by
  have hlast : phy.baudCount = lastBaudCount clks := (eq_lastBaudCount_iff hclks).mpr hc
  have hbit : phy.bitIndex.toNat < 8 := phy.bitIndex.isLt
  cases hst : phy.state with
  | idle => exact absurd hst hs
  | start =>
      have hclock : phy.clock false txValid txData =
          { phy with baudCount := 0, state := .data } := by
        simp [clock, hst, hlast]
      have hzero := h.bitIndex_start hst
      rw [hclock]
      refine ⟨⟨fun _ => hclks, by simp⟩, ?_⟩
      have hnext : clks - 1 + 1 = clks := by omega
      have hlt : clks < 10 * clks := by omega
      simp [sender, hst, hzero, hc, Serial.Sender.next, hnext, hlt]
  | data =>
      by_cases hseven : phy.bitIndex = 7#3
      · have hclock : phy.clock false txValid txData =
            { phy with baudCount := 0, bitIndex := 0, state := .stop } := by
          simp [clock, hst, hlast, hseven]
        rw [hclock]
        refine ⟨⟨fun _ => hclks, by simp⟩, ?_⟩
        have hnext : 8 * clks + (clks - 1) + 1 = 9 * clks := by omega
        have hlt : 9 * clks < 10 * clks := by omega
        simp [sender, hst, hseven, hc, Serial.Sender.next, hnext, hlt]
      · have hclock : phy.clock false txValid txData =
            { phy with baudCount := 0, bitIndex := phy.bitIndex + 1 } := by
          simp [clock, hst, hlast, hseven]
        have hne : phy.bitIndex.toNat ≠ 7 := fun hb => hseven (BitVec.eq_of_toNat_eq hb)
        have hindex : (phy.bitIndex.toNat + 1) % 8 = phy.bitIndex.toNat + 1 :=
          Nat.mod_eq_of_lt (by omega)
        rw [hclock]
        refine ⟨⟨fun _ => hclks, fun hd => absurd (hst.symm.trans hd) (by simp)⟩, ?_⟩
        -- a bit before the last one: the position in the frame is `(bitIndex + 1) * clks` and more
        have hmul : phy.bitIndex.toNat * clks ≤ 6 * clks := Nat.mul_le_mul_right clks (by omega)
        have hnext : (phy.bitIndex.toNat + 1) * clks + (clks - 1) + 1 =
            (phy.bitIndex.toNat + 1 + 1) * clks := by
          simp only [Nat.add_mul]
          omega
        have hlt : (phy.bitIndex.toNat + 1 + 1) * clks < 10 * clks := by
          simp only [Nat.add_mul]
          omega
        simp [sender, hst, hindex, hc, Serial.Sender.next, hnext, hlt]
  | stop =>
      have hclock : phy.clock false txValid txData =
          { phy with baudCount := 0, state := .idle } := by
        simp [clock, hst, hlast]
      rw [hclock]
      refine ⟨⟨fun hi => absurd rfl hi, by simp⟩, ?_⟩
      have hlt : ¬ 9 * clks + (clks - 1) + 1 < 10 * clks := by omega
      simp [sender, hst, hc, Serial.Sender.next, hlt]

/-- **An edge is a cycle of the sender.** -/
theorem sender_clock (h : InPhase phy) :
    InPhase (phy.clock false txValid txData) ∧
      (phy.clock false txValid txData).sender =
        phy.sender.next clks (if txValid then some txData else none) := by
  by_cases hs : phy.state = .idle
  · cases txValid with
    | false =>
        have hclock : phy.clock false false txData =
            { phy with baudCount := 0, bitIndex := 0 } := by
          simp [clock, hs]
        rw [hclock]
        exact ⟨⟨fun hi => absurd hs hi, fun _ => rfl⟩, by simp [sender, hs, Serial.Sender.next]⟩
    | true =>
        have hclock : phy.clock false true txData = ⟨.start, 0, 0, txData⟩ := by
          simp [clock, hs]
        rw [hclock]
        exact ⟨⟨fun _ => hclks, fun _ => rfl⟩, by simp [sender, hs, Serial.Sender.next]⟩
  · have hlt := h.baudCount_lt hs
    rcases Nat.lt_or_ge (phy.baudCount.toNat + 1) clks with hc | hc
    · exact clock_within hclks txValid txData h hs hc
    · exact clock_advance hclks txValid txData h hs (by omega)

end Clock

/-! ## Every run -/

/-- The handshake input of a cycle. -/
structure PhyInputs where
  txValid : Bool
  txData : BitVec 8
  deriving DecidableEq, Repr

/-- A run without reset after one reset edge. -/
def run (inputs : ℕ → PhyInputs) (resetInputs : PhyInputs) (powerUp : UartTxPhy clks) :
    ℕ → UartTxPhy clks :=
  Clocked.run (fun i => clock false i.txValid i.txData) inputs
    (powerUp.clock true resetInputs.txValid resetInputs.txData)

/-- The byte offered in a cycle. -/
def PhyInputs.offer (i : PhyInputs) : Option (BitVec 8) := if i.txValid then some i.txData else none

/-- The byte accepted in a cycle: `tx_valid` and `tx_ready` are both high. -/
def accepted (i : PhyInputs) (phy : UartTxPhy clks) : Option (BitVec 8) :=
  if i.txValid && phy.txReady then some i.txData else none

/-- The pin in the cycles before `t`. -/
def line (s : ℕ → UartTxPhy clks) (t : ℕ) : List Bool := (List.range t).map fun i => (s i).tx

/-- **The accepted bytes as 8N1 frames**, over the states of a run. -/
structure Sends8N1 (inputs : ℕ → PhyInputs) (s : ℕ → UartTxPhy clks) : Prop where
  /-- A byte is latched and started in the cycles where it is accepted, and in no other. -/
  latched : ∀ t b, accepted (inputs t) (s t) = some b ↔
    (s t).state = .idle ∧ (s (t + 1)).state = .start ∧ (s (t + 1)).latchedData = b
  /-- The start bit. -/
  start : ∀ t b, accepted (inputs t) (s t) = some b → ∀ k < clks, (s (t + 1 + k)).tx = false
  /-- The data bits, bit 0 first. -/
  data : ∀ t b, accepted (inputs t) (s t) = some b → ∀ bit < 8, ∀ k < clks,
    (s (t + 1 + (bit + 1) * clks + k)).tx = b.getLsbD bit
  /-- The stop bit. -/
  stop : ∀ t b, accepted (inputs t) (s t) = some b → ∀ k < clks,
    (s (t + 1 + 9 * clks + k)).tx = true
  /-- The transmitter is busy for the ten bits and ready in the next cycle. -/
  busy : ∀ t b, accepted (inputs t) (s t) = some b →
    (∀ k < 10 * clks, (s (t + 1 + k)).txReady = false) ∧ (s (t + 1 + 10 * clks)).txReady = true
  /-- In all other cycles it is ready and the pin is high. -/
  idle : ∀ t, (∀ t' b, accepted (inputs t') (s t') = some b → ¬ (t' < t ∧ t ≤ t' + 10 * clks)) →
    (s t).txReady = true ∧ (s t).tx = true
  /-- A receiver of the pin alone has exactly the bytes whose stop bit it has sampled. -/
  received : ∀ t, Serial.receive clks (line s t) =
    (List.range (t - (Serial.toStop clks + 1))).filterMap fun i => accepted (inputs i) (s i)

section Run

variable (hclks : 0 < clks) (inputs : ℕ → PhyInputs) (resetInputs : PhyInputs)
  (powerUp : UartTxPhy clks)

include hclks

/-- The counters are in range in every cycle of a run. -/
theorem inPhase_run (t : ℕ) : InPhase (run inputs resetInputs powerUp t) :=
  Clocked.run_invariant _ (inPhase_reset _ _ _).1
    (fun i _ h => (sender_clock hclks i.txValid i.txData h).1) t

/-- The position in the frame is that of the abstract sender, cycle by cycle. -/
theorem sender_run (t : ℕ) : (run inputs resetInputs powerUp (t + 1)).sender =
    (run inputs resetInputs powerUp t).sender.next clks (inputs t).offer :=
  (sender_clock hclks _ _ (inPhase_run hclks inputs resetInputs powerUp t)).2

omit hclks in
/-- The transmitter takes a byte exactly when the sender does. -/
theorem taken_sender (i : PhyInputs) (phy : UartTxPhy clks) :
    Serial.Sender.taken i.offer phy.sender = accepted i phy := by
  rw [Serial.Sender.taken, ready_sender, accepted, PhyInputs.offer]
  cases phy.txReady <;> simp

/-- The pin of a run is the line of its sender. -/
theorem line_run (t : ℕ) : line (run inputs resetInputs powerUp) t =
    Serial.Sender.line clks (fun i => (run inputs resetInputs powerUp i).sender) t := by
  refine List.map_congr_left fun i _ => ?_
  exact (pin_sender hclks (inPhase_run hclks inputs resetInputs powerUp i)).symm

/-- **Every run after reset sends exactly the accepted bytes.** -/
theorem sends8N1_run : Sends8N1 inputs (run inputs resetInputs powerUp) := by
  have hphase := inPhase_run hclks inputs resetInputs powerUp
  have hnext := sender_run hclks inputs resetInputs powerUp
  have hline := line_run hclks inputs resetInputs powerUp
  have hzero : (run inputs resetInputs powerUp 0).sender = .idle :=
    (inPhase_reset resetInputs.txValid resetInputs.txData powerUp).2
  have hclock (t : ℕ) : run inputs resetInputs powerUp (t + 1) =
      (run inputs resetInputs powerUp t).clock false (inputs t).txValid (inputs t).txData := rfl
  -- from here on only the sender matters, which ends each byte's frame before the next
  generalize run inputs resetInputs powerUp = s at *
  have hframe (t : ℕ) (b : BitVec 8) (h : accepted (inputs t) (s t) = some b) :
      (∀ k < 10 * clks, (s (t + 1 + k)).sender = .sending k b) ∧
        (s (t + 1 + 10 * clks)).sender = .idle := by
    rw [← taken_sender] at h
    exact Serial.Sender.run_frame (s := fun i => (s i).sender) hclks hnext h
  -- cycle `k` of symbol `symbol` of the frame that starts behind cycle `t`
  have hpin (t : ℕ) (b : BitVec 8) (h : accepted (inputs t) (s t) = some b) (symbol k : ℕ)
      (hsymbol : symbol < 10) (hk : k < clks) :
      (s (t + 1 + (symbol * clks + k))).tx = Serial.symbol b symbol := by
    have hmul : symbol * clks ≤ 9 * clks := Nat.mul_le_mul_right clks (by omega)
    rw [← pin_sender hclks (hphase _), (hframe t b h).1 _ (by omega), Serial.Sender.pin,
      add_div hclks hk]
  constructor
  case latched =>
    intro t b
    rw [hclock]
    by_cases hs : (s t).state = .idle
    · cases hv : (inputs t).txValid <;> simp [accepted, txReady, clock, hs, hv]
    · simp [accepted, txReady, hs]
  case start =>
    intro t b h k hk
    have h0 := hpin t b h 0 k (by decide) hk
    rwa [Nat.zero_mul, Nat.zero_add] at h0
  case data =>
    intro t b h bit hbit k hk
    rw [Nat.add_assoc (t + 1), hpin t b h (bit + 1) k (by omega) hk, Serial.symbol, if_pos hbit]
  case stop =>
    intro t b h k hk
    rw [Nat.add_assoc (t + 1), hpin t b h 9 k (by decide) hk]
    rfl
  case busy =>
    intro t b h
    refine ⟨fun k hk => ?_, ?_⟩
    · rw [← ready_sender, (hframe t b h).1 k hk]
      rfl
    · rw [← ready_sender, (hframe t b h).2]
      rfl
  case idle =>
    intro t h
    have hidle : (s t).sender = .idle := by
      refine Serial.Sender.run_idle (s := fun i => (s i).sender) hclks hzero hnext
        fun t' b htaken => ?_
      exact h t' b (by rwa [taken_sender] at htaken)
    rw [← ready_sender, ← pin_sender hclks (hphase t), hidle]
    exact ⟨rfl, rfl⟩
  case received =>
    intro t
    rw [hline, Serial.Sender.receive_line (s := fun i => (s i).sender) hclks hzero hnext]
    exact List.filterMap_congr fun i _ => taken_sender (inputs i) (s i)

end Run

/-- **8N1 transmission** for every clock and baud rate. -/
theorem sends8N1 (clockHz baudRate : BitVec 32) (inputs : ℕ → PhyInputs) (resetInputs : PhyInputs)
    (powerUp : UartTxPhy (clksPerBit clockHz baudRate)) :
    Sends8N1 inputs (run inputs resetInputs powerUp) :=
  sends8N1_run (clksPerBit_pos clockHz baudRate) inputs resetInputs powerUp

end UartTxPhy
end Mini32.Rtl
