import Mini32.Rtl.System
import Mathlib.Data.Nat.Count

/-!
# Bus transactions happen exactly once

The core keeps `bus_valid` high through the response cycle while the bus walks from
`BUS_IDLE` over `BUS_MEMORY` to `BUS_RESPONSE`.  `Inv` is the joint invariant of the
two state machines that makes this safe: while the bus is busy, the captured
request is the one the core still drives, and the retirement pulse of the previous
instruction has passed.

`exactly_once` draws the consequences for every run from reset, with any ROM, RAM
and sequence of input pins: each captured request is answered once, and issued once before
that unless it faults; no other cycle enables a block; and the stores that are made are those
that retire.

## Events

A cycle captures a request, issues it, answers it or does nothing of the kind, which is read
off the bus state.  The results are about runs, so they name cycles: what is captured in
cycle `t` is issued in `t + 1` and answered in `t + 2`, and a cycle that answers comes two after
one that captured.  The stores are counted by induction on the cycle (`count_stores`).
-/

namespace Mini32.Rtl

namespace SystemBus

/-- The read enables of the memories and blocks. -/
def readEnables (bus : SystemBus) : List Bool :=
  [bus.romReadEnable, bus.ramReadEnable, bus.uartReadEnable, bus.timerReadEnable,
    bus.gpioReadEnable, bus.debugReadEnable]

/-- The write enables of RAM, UART, Timer, GPIO and Debug. -/
def writeEnables (bus : SystemBus) : List Bool :=
  [bus.ramWriteEnable, bus.uartWriteEnable, bus.timerWriteEnable, bus.gpioWriteEnable,
    bus.debugWriteEnable]

/-- How many enables are high. -/
def enabled (bus : SystemBus) : ℕ := (bus.readEnables ++ bus.writeEnables).count true

/-- A request without fault enables one block, in its issue cycle. -/
theorem enabled_eq (bus : SystemBus) : bus.enabled = if bus.issuing then 1 else 0 := by
  cases hi : bus.issuing with
  | false =>
      simp [enabled, readEnables, writeEnables, romReadEnable, ramReadEnable, ramWriteEnable,
        uartReadEnable, uartWriteEnable, timerReadEnable, timerWriteEnable, gpioReadEnable,
        gpioWriteEnable, debugReadEnable, debugWriteEnable, hi]
  | true =>
      have hfault : bus.pending.fault = none := by simp_all [issuing]
      have hp := pending_eq bus
      by_cases hal : Isa.Aligned bus.pendingAddr
      · simp only [hal, not_true_eq_false, if_false] at hp
        cases hreg : Isa.region bus.pendingAddr <;> cases hacc : bus.pendingAccess <;>
          simp only [hreg, hacc] at hp <;>
          simp_all [enabled, readEnables, writeEnables, romReadEnable, ramReadEnable,
            ramWriteEnable, uartReadEnable, uartWriteEnable, timerReadEnable, timerWriteEnable,
            gpioReadEnable, gpioWriteEnable, debugReadEnable, debugWriteEnable]
      · simp only [hal, not_false_eq_true, if_true] at hp
        simp [hp] at hfault

theorem enabled_zero {bus : SystemBus} (h : bus.state ≠ .memory) : bus.enabled = 0 := by
  rw [enabled_eq]
  simp [issuing, h]

/-- A write enable is high in the issue cycle of a store without fault. -/
theorem writeEnables_any (bus : SystemBus) : bus.writeEnables.any id = bus.writing := by
  cases hw : bus.writing with
  | false =>
      have hoff (block : Bool) :
          (bus.issuing && block && bus.pendingAccess = .write) = false := by
        rw [Bool.and_right_comm, show (bus.issuing && bus.pendingAccess = .write) = false from hw,
          Bool.false_and]
      simp [writeEnables, ramWriteEnable, uartWriteEnable, timerWriteEnable, gpioWriteEnable,
        debugWriteEnable, hoff]
  | true =>
      have hcount := enabled_eq bus
      have hi : bus.issuing = true := by simp_all [writing]
      have hacc : bus.pendingAccess = .write := by simp_all [writing]
      by_contra hnone
      simp_all [enabled, readEnables, writeEnables, romReadEnable, ramReadEnable, ramWriteEnable,
        uartReadEnable, uartWriteEnable, timerReadEnable, timerWriteEnable, gpioReadEnable,
        gpioWriteEnable, debugReadEnable, debugWriteEnable]

end SystemBus

namespace CpuCore

variable {c : CpuCore} {ready : Bool} {r : Response}

/-- `MEMORY` is entered for a load or a store only. -/
theorem clock_memoryOperation (h : c.state = .memory → c.control.memoryOperation ≠ .none)
    (hs : (c.clock false ready r).state = .memory) :
    (c.clock false ready r).control.memoryOperation ≠ .none := by
  cases hc : c.state with
  | execute =>
      simp only [clock, hc, Bool.false_eq_true, if_false] at hs ⊢
      split_ifs at hs ⊢ with h1 h2 h3 h4 h5
      exact h5
  | memory =>
      simp only [clock, hc, Bool.false_eq_true, if_false] at hs ⊢
      split_ifs at hs ⊢
      exact h hc
  | fetch =>
      simp only [clock, hc, Bool.false_eq_true, if_false, clearPulses] at hs
      split_ifs at hs
  | decode =>
      simp only [clock, hc, Bool.false_eq_true, if_false] at hs
      split_ifs at hs
  | writeback =>
      simp only [clock, hc, Bool.false_eq_true, if_false] at hs
      split_ifs at hs
  | halted | fault =>
      simp only [clock, hc, Bool.false_eq_true, if_false, clearPulses] at hs
      exact absurd hs (by decide)

/-- A store is recorded on the edge that takes its answer, and on no other. -/
theorem clock_memWrite : (c.clock false ready r).retire.memWrite =
    (c.state = .memory && ready && r.fault = none && c.control.memoryOperation ≠ .load) := by
  cases hc : c.state <;> simp only [clock, hc, Bool.false_eq_true, if_false] <;>
    try split_ifs
  all_goals simp_all [clearPulses, recordRetirement]

theorem clock_memAddr (hm : c.state = .memory) (hready : ready = true) (hf : r.fault = none)
    (hop : c.control.memoryOperation = .store) :
    (c.clock false ready r).retire.memAddr = c.busAddr ∧
      (c.clock false ready r).retire.memValue = c.busWdata := by
  simp [clock, hm, hready, hf, hop, recordRetirement, busAddr, busWdata]

end CpuCore

namespace System

/-! ## Events of a cycle -/

/-- The bus captures the request at the end of the cycle. -/
def captures (s : System) : Bool := s.bus.state = .idle && s.cpu.busValid

/-- A store without fault is answered. -/
def storeCompletes (s : System) : Bool :=
  s.bus.responseReady && s.bus.pendingAccess = .write && s.bus.responseFault = none

/-- The address of UART DATA. -/
def uartData : Word := 0x20000000

/-! ## The joint invariant -/

/-- **The joint invariant** of `cpu_core` and `system_bus`. -/
structure Inv (s : System) : Prop where
  /-- While the bus is busy the core drives the captured request. -/
  request : s.bus.state ≠ .idle → s.cpu.request = some s.bus.pendingRequest
  /-- While the bus is busy no retirement pulse is on. -/
  quiet : s.bus.state ≠ .idle → s.cpu.retire.valid = false
  /-- The core is in `MEMORY` for a load or a store. -/
  operation : s.cpu.state = .memory → s.cpu.control.memoryOperation ≠ .none
  /-- A byte goes out while a store to UART DATA is answered. -/
  transmit : s.bus.uart.txValid = (s.storeCompletes && s.bus.pendingAddr = uartData)

theorem inv_reset (pins : Word) (powerUp : System) : Inv (powerUp.clock true pins) where
  request h := absurd rfl h
  quiet h := absurd rfl h
  operation h := nomatch h
  transmit := rfl

section Step

variable {s : System} (pins : Word)

theorem clock_bus_state : (s.clock false pins).bus.state =
    match s.bus.state with
    | .idle => if s.captures then .memory else .idle
    | .memory => .response
    | .response => .idle := by
  rw [clock, SystemBus.clock_state]
  cases h : s.bus.state <;> simp [captures, h]

theorem clock_bus_pendingRequest : (s.clock false pins).bus.pendingRequest =
    if s.captures then s.busRequest else s.bus.pendingRequest := by
  rw [clock, SystemBus.clock_pendingRequest]
  simp [captures]

/-- The pending request is held through the issue cycle. -/
theorem clock_bus_pendingRequest_memory (hs : s.bus.state = .memory) :
    (s.clock false pins).bus.pendingRequest = s.bus.pendingRequest := by
  rw [clock_bus_pendingRequest]
  simp [captures, hs]

/-- Until the response the core stalls. -/
theorem clock_cpu_stall (hv : s.cpu.busValid = true) (hr : s.bus.state ≠ .response) :
    (s.clock false pins).cpu = s.cpu.clearPulses := by
  have hready : s.bus.responseReady = false := by simp [SystemBus.responseReady, hr]
  simp only [clock, hready]
  exact CpuCore.clock_stall hv _

/-- UART DATA is offset zero of its window. -/
theorem uartWriteEnable_data (bus : SystemBus) :
    (bus.uartWriteEnable && bus.pendingAddr.extractLsb' 0 4 = 0#4) =
      (bus.writing && bus.pendingAddr = uartData) := by
  cases hw : bus.writing with
  | false =>
      have hoff : bus.uartWriteEnable = false := by
        rw [SystemBus.uartWriteEnable, Bool.and_right_comm,
          show (bus.issuing && bus.pendingAccess = .write) = false from hw, Bool.false_and]
      simp [hoff]
  | true =>
      have hi : bus.issuing = true := by simp_all [SystemBus.writing]
      have hacc : bus.pendingAccess = .write := by simp_all [SystemBus.writing]
      have hfault : bus.pending.fault = none := by simp_all [SystemBus.issuing]
      have hp := SystemBus.pending_eq bus
      have hal : Isa.Aligned bus.pendingAddr := by
        by_contra hal
        simp [hp, hal] at hfault
      simp only [hal, not_true_eq_false, if_false] at hp
      -- an aligned write is the UART's iff its address is in the window
      by_cases hreg : Isa.region bus.pendingAddr = .uart
      · obtain ⟨hlo, hhi⟩ := Isa.region_eq_uart.mp hreg
        have hoff := Isa.offset_eq_iff (by decide) hlo hhi 0#4
        rw [Isa.offset] at hoff
        have hdata : bus.pendingAddr.extractLsb' 0 4 = 0#4 ↔ bus.pendingAddr = uartData := hoff
        simp [SystemBus.uartWriteEnable, hi, hacc, hp, hreg, hdata]
      · have hno : bus.pending.uart = false := by
          cases hr : Isa.region bus.pendingAddr <;> simp_all
        have hne : bus.pendingAddr ≠ uartData := by
          intro h
          exact hreg (h ▸ by decide)
        simp [SystemBus.uartWriteEnable, hno, hne]

/-- A store completes one cycle after its block is written. -/
theorem storeCompletes_clock : (s.clock false pins).storeCompletes = s.bus.writing := by
  have hstate := clock_bus_state (s := s) pins
  cases hs : s.bus.state with
  | memory =>
      simp only [hs] at hstate
      have hsame := clock_bus_pendingRequest_memory pins hs
      have hpending := SystemBus.pending_congr hsame
      have hacc : (s.clock false pins).bus.pendingAccess = s.bus.pendingAccess :=
        congrArg Request.access hsame
      simp [storeCompletes, SystemBus.responseReady, SystemBus.responseFault, hstate, hpending,
        hacc, SystemBus.writing, SystemBus.issuing, hs, Bool.and_comm]
  | idle =>
      have hne : (s.clock false pins).bus.state ≠ .response := by
        rw [hstate, hs]
        cases s.captures <;> simp
      simp [storeCompletes, SystemBus.responseReady, hne, SystemBus.writing, SystemBus.issuing, hs]
  | response =>
      simp only [hs] at hstate
      simp [storeCompletes, SystemBus.responseReady, hstate, SystemBus.writing,
        SystemBus.issuing, hs]

/-- **Every edge preserves the joint invariant.** -/
theorem Inv.clock (h : Inv s) : Inv (s.clock false pins) := by
  have hstate := clock_bus_state (s := s) pins
  have hop : (s.clock false pins).cpu.state = .memory →
      (s.clock false pins).cpu.control.memoryOperation ≠ .none :=
    CpuCore.clock_memoryOperation h.operation
  -- `uart_tx_valid` is a register: it is high the cycle after the write enable
  have htx : (s.clock false pins).bus.uart.txValid =
      ((s.clock false pins).storeCompletes && (s.clock false pins).bus.pendingAddr = uartData) := by
    have hwrite : (s.clock false pins).bus.uart.txValid =
        (s.bus.uartWriteEnable && s.bus.pendingAddr.extractLsb' 0 4 = 0#4) := by
      simp [System.clock, UartMmio.clock]
    rw [hwrite, uartWriteEnable_data, storeCompletes_clock]
    cases hw : s.bus.writing with
    | false => simp
    | true =>
        have hs : s.bus.state = .memory := by simp_all [SystemBus.writing, SystemBus.issuing]
        have haddr : (s.clock false pins).bus.pendingAddr = s.bus.pendingAddr :=
          congrArg Request.addr (clock_bus_pendingRequest_memory pins hs)
        rw [haddr]
  cases hs : s.bus.state with
  | idle =>
      rw [hs] at hstate
      cases hcap : s.captures with
      | false =>
          have hidle : (s.clock false pins).bus.state = .idle := by simpa [hcap] using hstate
          exact ⟨fun hne => absurd hidle hne, fun hne => absurd hidle hne, hop, htx⟩
      | true =>
          have hv : s.cpu.busValid = true := by simp_all [captures]
          have hcpu := clock_cpu_stall (s := s) pins hv (by simp [hs])
          -- what was captured is the request the core still makes
          refine ⟨fun _ => ?_, fun _ => by rw [hcpu]; rfl, hop, htx⟩
          rw [clock_bus_pendingRequest, hcap, hcpu]
          change s.cpu.request = _
          simp [CpuCore.request, hv, busRequest]
  | memory =>
      have hv := (request_eq_some (h.request (by simp [hs]))).1
      have hcpu := clock_cpu_stall (s := s) pins hv (by simp [hs])
      refine ⟨fun _ => ?_, fun _ => by rw [hcpu]; rfl, hop, htx⟩
      rw [clock_bus_pendingRequest_memory pins hs, hcpu]
      exact h.request (by simp [hs])
  | response =>
      rw [hs] at hstate
      exact ⟨fun hne => absurd hstate hne, fun hne => absurd hstate hne, hop, htx⟩

/-- A store that completes is the next record with a memory write. -/
theorem clock_retire_memWrite (h : Inv s) :
    (s.clock false pins).cpu.retire.memWrite = s.storeCompletes ∧
      (s.storeCompletes = true →
        (s.clock false pins).cpu.retire.memAddr = s.bus.pendingAddr ∧
          (s.clock false pins).cpu.retire.memValue = s.bus.pendingWdata) := by
  rw [show (s.clock false pins).cpu = s.cpu.clock false s.bus.responseReady s.bus.response from rfl,
    CpuCore.clock_memWrite]
  cases hr : s.bus.responseReady with
  | false => simp [storeCompletes, hr]
  | true =>
      have hs : s.bus.state ≠ .idle := by
        intro hs
        simp [SystemBus.responseReady, hs] at hr
      obtain ⟨hv, hreq⟩ := request_eq_some (h.request hs)
      have hacc : s.bus.pendingAccess = s.cpu.busAccess := (congrArg Request.access hreq).symm
      -- a fetch stores nothing; in `MEMORY` the operation is a load or a store
      rcases CpuCore.busValid_iff.mp hv with hc | hc
      · have hfetch : s.cpu.busAccess = .fetch := by simp [CpuCore.busAccess, hc]
        simp [storeCompletes, hacc, hfetch, hc]
      · have hop := h.operation hc
        have hwrite : s.cpu.busAccess = .write ↔ s.cpu.control.memoryOperation = .store := by
          simp [CpuCore.busAccess, hc]
        refine ⟨?_, fun hdone => ?_⟩
        · cases hm : s.cpu.control.memoryOperation with
          | none => exact absurd hm hop
          | load =>
              have hno : s.bus.pendingAccess ≠ .write := by
                rw [hacc, ne_eq, hwrite, hm]
                simp
              simp [storeCompletes, hno]
          | store =>
              have hyes : s.bus.pendingAccess = .write := by rw [hacc, hwrite, hm]
              simp only [storeCompletes, hr, hc, hyes, SystemBus.response, decide_true,
                Bool.true_and, ne_eq, reduceCtorEq, not_false_eq_true, Bool.and_true]
              exact decide_eq_decide.mpr Iff.rfl
        · simp only [storeCompletes, Bool.and_eq_true, decide_eq_true_eq] at hdone
          have hstore := hwrite.mp (hacc ▸ hdone.1.2)
          obtain ⟨haddr, hvalue⟩ := CpuCore.clock_memAddr hc rfl
            (r := s.bus.response) hdone.2 hstore
          exact ⟨haddr.trans (congrArg Request.addr hreq),
            hvalue.trans (congrArg Request.wdata hreq)⟩

end Step

/-! ## Every run -/

/-- **Exactly-once transactions**, over the states of a run. -/
structure ExactlyOnce (s : ℕ → System) : Prop where
  /-- A response is consumed by the request it answers. -/
  consumed : ∀ t, (s t).bus.responseReady = true →
    ((s t).cpu.state = .fetch ∨ (s t).cpu.state = .memory) ∧
      (s t).bus.pendingAccess = (s t).cpu.busAccess ∧
      (s t).bus.pendingAddr = (s t).cpu.busAddr ∧ (s t).bus.pendingWdata = (s t).cpu.busWdata
  /-- Between two consecutive responses there is exactly one capture. -/
  captured : ∀ t₁ t₂, t₁ < t₂ → (s t₁).bus.responseReady = true →
    (s t₂).bus.responseReady = true →
    (∀ t, t₁ < t → t < t₂ → (s t).bus.responseReady = false) →
    ∃! t, t₁ < t ∧ t < t₂ ∧ (s t).captures = true
  /-- No cycle has two enables. -/
  oneEnable : ∀ t, (s t).bus.enabled ≤ 1
  /-- A captured request enables its block in the next cycle, if it does not fault,
  and is answered in the one after; no other cycle of it has an enable. -/
  issuedOnce : ∀ t, (s t).captures = true →
    (s t).bus.enabled = 0 ∧
      (s (t + 1)).bus.enabled = (if (s (t + 1)).bus.pending.fault = none then 1 else 0) ∧
      (s (t + 2)).bus.enabled = 0 ∧ (s (t + 2)).bus.responseReady = true
  /-- An enable belongs to a request captured the cycle before. -/
  enabledBy : ∀ t, (s t).bus.enabled ≠ 0 → ∃ t', t = t' + 1 ∧ (s t').captures = true
  /-- The write-enable cycles so far are the stores completed and the one completing. -/
  stores : ∀ t, Nat.count (fun i => (s i).bus.writeEnables.any id = true) (t + 1) =
    Nat.count (fun i => (s i).storeCompletes = true) (t + 1) +
      if (s t).bus.writing = true then 1 else 0
  /-- A completed store is one retirement record with its memory write. -/
  recorded : (s 0).cpu.retire.memWrite = false ∧
    ∀ t, (s (t + 1)).cpu.retire.memWrite = (s t).storeCompletes ∧
      ((s t).storeCompletes = true →
        (s (t + 1)).cpu.retire.memAddr = (s t).bus.pendingAddr ∧
          (s (t + 1)).cpu.retire.memValue = (s t).bus.pendingWdata)
  /-- `uart_tx_valid` is high in the cycle a store to UART DATA completes, and in no
  other. -/
  transmitted : ∀ t, (s t).bus.uart.txValid =
    ((s t).storeCompletes && (s t).bus.pendingAddr = uartData)
  /-- A retirement tick never meets an access to the Timer. -/
  timer : ∀ t, (s t).cpu.retire.valid = true →
    (s t).bus.timerReadEnable = false ∧ (s t).bus.timerWriteEnable = false

/-- A reset state followed by edges without reset. -/
structure IsRun (s : ℕ → System) : Prop where
  inv_zero : Inv (s 0)
  idle_zero : (s 0).bus.state = .idle
  memWrite_zero : (s 0).cpu.retire.memWrite = false
  step : ∀ t, ∃ pins, s (t + 1) = (s t).clock false pins

namespace IsRun

variable {s : ℕ → System} (h : IsRun s)

include h

/-- The joint invariant holds in every cycle. -/
theorem inv (t : ℕ) : Inv (s t) := by
  induction t with
  | zero => exact h.inv_zero
  | succ t ih =>
      obtain ⟨pins, ht⟩ := h.step t
      exact ht ▸ ih.clock pins

theorem bus_state (t : ℕ) : (s (t + 1)).bus.state =
    match (s t).bus.state with
    | .idle => if (s t).captures then .memory else .idle
    | .memory => .response
    | .response => .idle := by
  obtain ⟨pins, ht⟩ := h.step t
  rw [ht]
  exact clock_bus_state pins

theorem storeCompletes_succ (t : ℕ) : (s (t + 1)).storeCompletes = (s t).bus.writing := by
  obtain ⟨pins, ht⟩ := h.step t
  rw [ht]
  exact storeCompletes_clock pins

/-- The cycles of a captured request. -/
theorem bus_state_of_captures {t : ℕ} (hcap : (s t).captures = true) :
    (s t).bus.state = .idle ∧ (s (t + 1)).bus.state = .memory ∧
      (s (t + 2)).bus.state = .response := by
  have hidle : (s t).bus.state = .idle := by simp_all [captures]
  have hmemory : (s (t + 1)).bus.state = .memory := by rw [h.bus_state, hidle, hcap]; rfl
  exact ⟨hidle, hmemory, by rw [h.bus_state, hmemory]⟩

/-- The issue cycle follows a capture. -/
theorem captured_of_memory {t : ℕ} (hm : (s t).bus.state = .memory) :
    ∃ t', t = t' + 1 ∧ (s t').captures = true := by
  cases t with
  | zero => rw [h.idle_zero] at hm; cases hm
  | succ t =>
      refine ⟨t, rfl, ?_⟩
      rw [h.bus_state] at hm
      cases hs : (s t).bus.state <;> rw [hs] at hm
      · cases hcap : (s t).captures
        · simp [hcap] at hm
        · rfl
      · cases hm
      · cases hm

/-- The response cycle follows an issue cycle. -/
theorem captured_of_response {t : ℕ} (hr : (s t).bus.state = .response) :
    ∃ t', t = t' + 2 ∧ (s t').captures = true := by
  cases t with
  | zero => rw [h.idle_zero] at hr; cases hr
  | succ t =>
      have hm : (s t).bus.state = .memory := by
        rw [h.bus_state] at hr
        cases hs : (s t).bus.state <;> rw [hs] at hr
        · cases hcap : (s t).captures <;> simp [hcap] at hr
        · cases hr
      obtain ⟨t', rfl, hcap⟩ := h.captured_of_memory hm
      exact ⟨t', rfl, hcap⟩

/-- Between two consecutive responses the bus captures exactly once: two cycles
before the second. -/
theorem captured_once {t₁ t₂ : ℕ} (hlt : t₁ < t₂) (h₁ : (s t₁).bus.responseReady = true)
    (h₂ : (s t₂).bus.responseReady = true)
    (hbetween : ∀ t, t₁ < t → t < t₂ → (s t).bus.responseReady = false) :
    ∃! t, t₁ < t ∧ t < t₂ ∧ (s t).captures = true := by
  simp only [SystemBus.responseReady, decide_eq_true_eq, decide_eq_false_iff_not] at h₁ h₂ hbetween
  obtain ⟨t, rfl, hcap⟩ := h.captured_of_response h₂
  obtain ⟨hidle, hmemory, -⟩ := h.bus_state_of_captures hcap
  -- the cycles of the second request before its response are no responses
  have hne : t₁ ≠ t ∧ t₁ ≠ t + 1 := by
    constructor <;> rintro rfl
    · rw [hidle] at h₁
      cases h₁
    · rw [hmemory] at h₁
      cases h₁
  refine ⟨t, ⟨by omega, by omega, hcap⟩, ?_⟩
  rintro t' ⟨hlo, hhi, hcap'⟩
  obtain ⟨hidle', -, hresponse'⟩ := h.bus_state_of_captures hcap'
  -- an earlier capture would be answered in between
  have hge : ¬ t' + 2 < t + 2 := fun hlt' => hbetween (t' + 2) (by omega) hlt' hresponse'
  have hne' : t' ≠ t + 1 := by
    rintro rfl
    rw [hmemory] at hidle'
    cases hidle'
  omega

/-- Each write-enable cycle is followed by the completion of its store. -/
theorem count_stores (t : ℕ) : Nat.count (fun i => (s i).bus.writeEnables.any id = true) (t + 1) =
    Nat.count (fun i => (s i).storeCompletes = true) (t + 1) +
      if (s t).bus.writing = true then 1 else 0 := by
  simp only [SystemBus.writeEnables_any]
  induction t with
  | zero =>
      have hno : (s 0).storeCompletes = false := by
        simp [storeCompletes, SystemBus.responseReady, h.idle_zero]
      simp [Nat.count_succ, hno]
  | succ t ih =>
      rw [Nat.count_succ, ih, Nat.count_succ _ (t + 1), h.storeCompletes_succ]

/-- **Exactly-once transactions** hold over every run. -/
theorem exactlyOnce : ExactlyOnce s where
  consumed t hready := by
    have hbusy : (s t).bus.state ≠ .idle := by
      intro hs
      simp [SystemBus.responseReady, hs] at hready
    obtain ⟨hv, hreq⟩ := request_eq_some ((h.inv t).request hbusy)
    exact ⟨CpuCore.busValid_iff.mp hv, (congrArg Request.access hreq).symm,
      (congrArg Request.addr hreq).symm, (congrArg Request.wdata hreq).symm⟩
  captured _ _ := h.captured_once
  oneEnable t := by
    rw [SystemBus.enabled_eq]
    split <;> omega
  issuedOnce t hcap := by
    obtain ⟨hidle, hmemory, hresponse⟩ := h.bus_state_of_captures hcap
    refine ⟨SystemBus.enabled_zero (by simp [hidle]), ?_,
      SystemBus.enabled_zero (by simp [hresponse]), ?_⟩
    · rw [SystemBus.enabled_eq]
      simp [SystemBus.issuing, hmemory]
    · simp [SystemBus.responseReady, hresponse]
  enabledBy t hne := by
    refine h.captured_of_memory ?_
    by_contra hs
    exact hne (SystemBus.enabled_zero hs)
  stores := h.count_stores
  recorded := by
    refine ⟨h.memWrite_zero, fun t => ?_⟩
    obtain ⟨pins, ht⟩ := h.step t
    rw [ht]
    exact clock_retire_memWrite pins (h.inv t)
  transmitted t := (h.inv t).transmit
  timer t hretire := by
    have hidle : (s t).bus.state = .idle := by
      by_contra hbusy
      rw [(h.inv t).quiet hbusy] at hretire
      cases hretire
    constructor <;>
      simp [SystemBus.timerReadEnable, SystemBus.timerWriteEnable, SystemBus.issuing, hidle]

end IsRun

/-- **Exactly-once bus transactions in the composed system**, for every power-up
state, and so every ROM and initial RAM, and every sequence of input pins. -/
theorem exactly_once (pins : ℕ → Word) (resetPins : Word) (powerUp : System) :
    ExactlyOnce (run pins resetPins powerUp) :=
  IsRun.exactlyOnce
    { inv_zero := inv_reset resetPins powerUp
      idle_zero := rfl
      memWrite_zero := rfl
      step := fun t => ⟨pins t, rfl⟩ }

end System
end Mini32.Rtl
