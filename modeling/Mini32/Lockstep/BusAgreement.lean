import Mini32.Lockstep.Run

/-!
# The two buses, transaction by transaction

`Bus` and `system_bus` under any sequence of transactions and retirement ticks, with
any address and any data.  A transaction of `system_bus` takes three clock edges:
one captures the request, one issues it, and after the second the response is on
the ports.

* `transaction_agrees` — the step lemma: corresponding buses answer alike, and
  correspond afterwards, but for a fetch from the reserved STM32 window.
* `transaction_disagrees` — such a fetch faults on both, with different codes.
* `results_agree_iff` — whole sequences agree exactly when they have no such fetch.
* `fault_codes_agree_iff` — what this means for the fault code of a program.

`Corresponds` is a correspondence of idle buses: both have the same documented memory, the
simulator's by `Bus.memory` and the RTL's by `SystemBus.memory`.  Since either side implements
a bus model over that memory, the transactions are compared there and not address by address.
-/

namespace Mini32.Lockstep

open Rtl (SystemBus BusAccess Request Response System)

/-! ## Events -/

/-- A retirement tick between transactions, or a transaction; a retirement may also
fall in the cycle that captures a request. -/
inductive BusEvent
  | tick
  | access (retireTick : Bool) (request : Request)

/-- The event is a fetch from the reserved STM32 window. -/
def BusEvent.FetchesWindow : BusEvent → Prop
  | tick => False
  | access _ q => q.access = .fetch ∧ InStm32Window q.addr

instance (e : BusEvent) : Decidable e.FetchesWindow :=
  match e with
  | .tick => inferInstanceAs (Decidable False)
  | .access _ q => inferInstanceAs (Decidable (q.access = .fetch ∧ InStm32Window q.addr))

/-- The answer of the simulator's bus to a request. -/
def simulate (q : Request) (bus : Cpp.Bus) : Response × Cpp.Bus :=
  match q.access with
  | .fetch =>
      match bus.fetch32 q.addr with
      | .ok data => (⟨data, none⟩, bus)
      | .error fault => (⟨0, some fault⟩, bus)
  | .read =>
      match bus.read32 q.addr with
      | .ok data => (⟨data, none⟩, bus)
      | .error fault => (⟨0, some fault⟩, bus)
  | .write =>
      let result := bus.write32 q.addr q.wdata
      (⟨0, result.1⟩, result.2)

/-- A transaction of `system_bus`: the response, and the bus when it is idle again. -/
def transact (gpioInput : Word) (retireTick : Bool) (q : Request) (sb : SystemBus) :
    Response × SystemBus :=
  let captured := sb.clock false retireTick gpioInput true q
  let issued := captured.clock false false gpioInput true q
  (issued.response, issued.clock false false gpioInput true q)

/-- What the simulator's bus answers along a sequence. -/
def simulatorResults : List BusEvent → Cpp.Bus → List (Request × Response)
  | [], _ => []
  | .tick :: events, bus => simulatorResults events bus.retireTick
  | .access retireTick q :: events, bus =>
      let result := simulate q (if retireTick then bus.retireTick else bus)
      (q, result.1) :: simulatorResults events result.2

/-- What `system_bus` answers along a sequence. -/
def rtlResults (gpioInput : Word) : List BusEvent → SystemBus → List (Request × Response)
  | [], _ => []
  | .tick :: events, sb =>
      rtlResults gpioInput events (sb.clock false true gpioInput false ⟨.fetch, 0, 0⟩)
  | .access retireTick q :: events, sb =>
      let result := transact gpioInput retireTick q sb
      (q, result.1) :: rtlResults gpioInput events result.2

/-- The same fault class, and the same word if it is a fault-free read or fetch. -/
def SameResult (x y : Request × Response) : Prop :=
  x.1 = y.1 ∧ x.2.fault = y.2.fault ∧
    (x.2.fault = none → x.1.access ≠ .write → x.2.rdata = y.2.rdata)

/-- The buses are in corresponding states, with `gpioInput` on the pins. -/
structure Corresponds (gpioInput : Word) (bus : Cpp.Bus) (sb : SystemBus) : Prop where
  idle : sb.state = .idle
  memory : sb.memory bus.uart.txBytes gpioInput = bus.memory

/-! ## One event -/

section Event

variable {gpioInput : Word} {bus : Cpp.Bus} {sb : SystemBus}

/-- The simulator's bus answers out of the memory map. -/
theorem simulate_memory (q : Request) (bus : Cpp.Bus) :
    ((simulate q bus).1, (simulate q bus).2.memory) =
      SystemBus.answer Isa.Memory.busModel q bus.memory := by
  obtain ⟨access, addr, wdata⟩ := q
  cases access with
  | fetch =>
      simp only [simulate, SystemBus.answer, Isa.Memory.busModel, Cpp.Bus.fetch32_memory]
      cases bus.fetch32 addr <;> rfl
  | read =>
      simp only [simulate, SystemBus.answer, Isa.Memory.busModel, Cpp.Bus.read32_memory]
      cases bus.read32 addr <;> rfl
  | write =>
      obtain ⟨fault, hw, hm⟩ | ⟨bus', hw, hm⟩ := Cpp.Bus.write32_memory bus addr wdata <;>
        simp only [simulate, SystemBus.answer, Isa.Memory.busModel, hw, hm]

/-- Outside the window the two bus models answer alike. -/
theorem answer_busModel {q : Request} (hq : ¬ (q.access = .fetch ∧ InStm32Window q.addr))
    (m : Isa.Memory) :
    SystemBus.answer SystemBus.busModel q m = SystemBus.answer Isa.Memory.busModel q m := by
  obtain ⟨access, addr, wdata⟩ := q
  cases access with
  | fetch =>
      have hw : ¬ InStm32Window addr := fun h => hq ⟨rfl, h⟩
      simp only [SystemBus.answer, fetch_busModel, if_neg hw]
  | read => rfl
  | write => rfl

/-- A tick, or none, in the documented memory. -/
theorem retireTick_memory (retireTick : Bool) (bus : Cpp.Bus) :
    (if retireTick then bus.memory.retireTick else bus.memory) =
      (if retireTick then bus.retireTick else bus).memory := by
  cases retireTick with
  | false => rfl
  | true => exact Cpp.Bus.busModel_hom_memory.retireTick bus

/-- An idle bus captures a request, or ticks. -/
theorem corresponds_edge (h : Corresponds gpioInput bus sb) (retireTick valid : Bool)
    (q : Request) :
    (sb.clock false retireTick gpioInput valid q).memory bus.uart.txBytes gpioInput =
        (if retireTick then bus.retireTick else bus).memory := by
  rw [(SystemBus.clock_unwritten bus.uart.txBytes gpioInput sb
    (by simp [SystemBus.writing, SystemBus.issuing, h.idle]) retireTick valid q gpioInput).1,
    h.memory, retireTick_memory]

/-- An edge on which nothing but a tick happens. -/
theorem corresponds_tick (h : Corresponds gpioInput bus sb) (q : Request) :
    Corresponds gpioInput bus.retireTick (sb.clock false true gpioInput false q) where
  idle := by simp [SystemBus.clock_state, h.idle]
  memory := corresponds_edge h true false q

/-- The responses of a transaction are answers of the RTL's bus model. -/
theorem transact_answer (h : Corresponds gpioInput bus sb) (retireTick : Bool) (q : Request) :
    (transact gpioInput retireTick q sb).1.Agrees q.access
        (SystemBus.answer SystemBus.busModel q
          (if retireTick then bus.retireTick else bus).memory).1 ∧
      (transact gpioInput retireTick q sb).2.state = .idle ∧
      ∃ transcript, (transact gpioInput retireTick q sb).2.memory transcript gpioInput =
        (SystemBus.answer SystemBus.busModel q
          (if retireTick then bus.retireTick else bus).memory).2 := by
  have hmem := corresponds_edge h retireTick true q
  have hstate : (sb.clock false retireTick gpioInput true q).state = .memory := by
    simp [SystemBus.clock_state, h.idle]
  have hpend : (sb.clock false retireTick gpioInput true q).pendingRequest = q := by
    simp [SystemBus.clock_pendingRequest, h.idle]
  simp only [transact]
  generalize sb.clock false retireTick gpioInput true q = captured at hmem hstate hpend
  obtain ⟨hagree, hmem'⟩ := SystemBus.clock_memory bus.uart.txBytes gpioInput hstate true q
  have hissued : (captured.clock false false gpioInput true q).state = .response := by
    simp [SystemBus.clock_state, hstate]
  rw [hmem, hpend] at hagree hmem'
  generalize captured.clock false false gpioInput true q = issued at hagree hmem' hissued
  obtain ⟨hlast, -⟩ := SystemBus.clock_unwritten (bus.uart.txBytes ++ issued.transmitted) gpioInput
    issued (by simp [SystemBus.writing, SystemBus.issuing, hissued]) false true q gpioInput
  rw [show captured.pendingAccess = q.access from congrArg Request.access hpend] at hagree
  exact ⟨hagree, by simp [SystemBus.clock_state, hissued], _, hlast.trans hmem'⟩

/-- **The step lemma**: outside the window, corresponding buses give the same result
and correspond again. -/
theorem transaction_agrees (h : Corresponds gpioInput bus sb) (retireTick : Bool) {q : Request}
    (hq : ¬ (q.access = .fetch ∧ InStm32Window q.addr)) :
    SameResult (q, (simulate q (if retireTick then bus.retireTick else bus)).1)
        (q, (transact gpioInput retireTick q sb).1) ∧
      Corresponds gpioInput (simulate q (if retireTick then bus.retireTick else bus)).2
        (transact gpioInput retireTick q sb).2 := by
  obtain ⟨hagree, hidle, transcript, hmem⟩ := transact_answer h retireTick q
  rw [answer_busModel hq, ← simulate_memory] at hagree hmem
  refine ⟨⟨rfl, hagree.1.symm, fun _ hread => (hagree.2 hread).symm⟩, hidle, ?_⟩
  obtain rfl : transcript = _ := congrArg Isa.Memory.uartTx hmem
  exact hmem

/-- In the window they never do. -/
theorem transaction_disagrees (h : Corresponds gpioInput bus sb) (retireTick : Bool) {q : Request}
    (hq : q.access = .fetch ∧ InStm32Window q.addr) :
    ¬ SameResult (q, (simulate q (if retireTick then bus.retireTick else bus)).1)
      (q, (transact gpioInput retireTick q sb).1) := by
  rintro ⟨-, hfault, -⟩
  obtain ⟨hagree, -, -⟩ := transact_answer h retireTick q
  have hsim := congrArg (·.1.fault)
    (simulate_memory q (if retireTick then bus.retireTick else bus))
  obtain ⟨access, addr, wdata⟩ := q
  obtain ⟨rfl, hw⟩ := hq
  rw [SystemBus.answer_fetch_error ((fetch_busModel _ addr).trans (if_pos hw))] at hagree
  rw [SystemBus.answer_fetch_error (fetch_of_window hw)] at hsim
  rw [show (simulate _ _).1.fault = some BusFault.unmapped from hsim, hagree.1] at hfault
  cases hfault

/-! ## Sequences -/

/-- **Sequences agree exactly when they have no fetch from the window.** -/
theorem results_agree_iff (events : List BusEvent) (h : Corresponds gpioInput bus sb) :
    List.Forall₂ SameResult (simulatorResults events bus) (rtlResults gpioInput events sb) ↔
      ∀ e ∈ events, ¬ e.FetchesWindow := by
  induction events generalizing bus sb with
  | nil => simp [simulatorResults, rtlResults]
  | cons e events ih =>
      cases e with
      | tick =>
          simp only [simulatorResults, rtlResults, List.forall_mem_cons]
          rw [ih (corresponds_tick h _)]
          exact ⟨fun hall => ⟨id, hall⟩, fun hall => hall.2⟩
      | access retireTick q =>
          simp only [simulatorResults, rtlResults, List.forall_mem_cons, List.forall₂_cons]
          by_cases hq : q.access = .fetch ∧ InStm32Window q.addr
          · exact ⟨fun hall => absurd hall.1 (transaction_disagrees h retireTick hq),
              fun hall => absurd hq hall.1⟩
          · obtain ⟨hsame, hnext⟩ := transaction_agrees h retireTick hq
            rw [ih hnext]
            exact ⟨fun hall => ⟨hq, hall.2⟩, fun hall => ⟨hsame, hall.2⟩⟩

end Event

/-! ## Programs -/

/-- The code of a program's fault is the same exactly when it is not a fetch from the
window. -/
theorem fault_codes_agree_iff {p : Rtl.FaultPort} {info : FaultInfo} (h : FaultsAgree p info) :
    p.code = info.code ↔ ¬ InStm32Window info.pc := by
  rw [h.code]
  by_cases hw : InStm32Window info.pc
  · simp [hw, h.window hw]
  · simp [hw]

/-- **Bus agreement, and exactly when it holds**: of a sequence of transactions from
corresponding states, and of the fault code a program ends with. -/
theorem bus_agreement {gpioInput : Word} {bus : Cpp.Bus} {sb : SystemBus} {rom : Cpp.Rom}
    {ram : Cpp.Ram} {resetPins : Word} {powerUp : System} (h : Corresponds gpioInput bus sb)
    (himage : SameImage rom ram (powerUp.clock true resetPins)) (events : List BusEvent)
    (limit : ℕ) :
    (List.Forall₂ SameResult (simulatorResults events bus) (rtlResults gpioInput events sb) ↔
      ∀ e ∈ events, ¬ e.FetchesWindow) ∧
    ∀ records cpu bus,
      Cpp.RefTrace.traceLoop limit .construct (simulatorBus rom ram gpioInput) =
          .ok (records, cpu, bus) → cpu.faulted = true →
        ∃ t, (System.run (fun _ => gpioInput) resetPins powerUp t).cpu.faulted = true ∧
          ((System.run (fun _ => gpioInput) resetPins powerUp t).cpu.fault.code =
              cpu.faultInfo.code ↔ ¬ InStm32Window cpu.faultInfo.pc) := by
  refine ⟨results_agree_iff events h, fun records cpu bus hloop hfaulted => ?_⟩
  obtain ⟨records', cpu', bus', hloop', t, hboundary⟩ := exists_cycle himage gpioInput limit
  cases hloop.symm.trans hloop'
  exact ⟨t, hboundary.faulted.trans hfaulted, fault_codes_agree_iff (hboundary.fault hfaulted)⟩

/-- Freshly constructed devices correspond to a bus after reset. -/
theorem corresponds_fresh :
    Corresponds 0 (simulatorBus .fresh .fresh 0) (loaded .fresh .fresh).bus :=
  ⟨rfl, rfl⟩

/-- A ROM with an unallocated opcode at address zero. -/
def illegalRom : Cpp.Rom := ⟨fun i => if i = 3 then 0xFC else 0⟩

/-- Right behind the window the buses agree, and so do the codes of a program that
faults at address zero. -/
theorem bus_agreement_outside :
    List.Forall₂ SameResult
        (simulatorResults [.access false ⟨.fetch, 0x20000500, 0⟩] (simulatorBus .fresh .fresh 0))
        (rtlResults 0 [.access false ⟨.fetch, 0x20000500, 0⟩] (loaded .fresh .fresh).bus) ∧
      ∃ t, (System.run (fun _ => 0) 0 (loaded illegalRom .fresh) t).cpu.fault.code =
        .illegalInstruction := by
  have himage := (sameImage_loaded illegalRom .fresh).reset 0 rfl
  obtain ⟨hsequence, hprogram⟩ := bus_agreement corresponds_fresh himage
    [.access false ⟨.fetch, 0x20000500, 0⟩] 1
  refine ⟨hsequence.mpr (by decide), ?_⟩
  obtain ⟨records, cpu, bus, hloop, -⟩ := exists_cycle himage 0 1
  have hrun : (Cpp.RefTrace.traceLoop 1 .construct (simulatorBus illegalRom .fresh 0)).map
      (fun r => (r.2.1.faulted, r.2.1.faultInfo)) =
        .ok (true, ⟨.illegalInstruction, 0, 0xFC000000, none⟩) := by rfl
  rw [hloop] at hrun
  obtain ⟨hfaulted, hinfo⟩ := Prod.mk.inj (Except.ok.inj hrun)
  obtain ⟨t, -, hcode⟩ := hprogram _ _ _ hloop hfaulted
  rw [show cpu.faultInfo = _ from hinfo] at hcode
  exact ⟨t, hcode.mpr (by decide)⟩

/-- The simulator's bus reports a fetch from `0x20000400` as `Unmapped`, `system_bus`
as `NonExecutable`. -/
theorem window_fetch_differs :
    Corresponds 0 (simulatorBus .fresh .fresh 0) (loaded .fresh .fresh).bus ∧
      simulatorResults [.access false ⟨.fetch, 0x20000400, 0⟩] (simulatorBus .fresh .fresh 0) =
        [(⟨.fetch, 0x20000400, 0⟩, ⟨0, some .unmapped⟩)] ∧
      rtlResults 0 [.access false ⟨.fetch, 0x20000400, 0⟩] (loaded .fresh .fresh).bus =
        [(⟨.fetch, 0x20000400, 0⟩, ⟨0, some .nonExecutable⟩)] ∧
      ¬ SameResult (⟨.fetch, 0x20000400, 0⟩, ⟨0, some .unmapped⟩)
        (⟨.fetch, 0x20000400, 0⟩, ⟨0, some .nonExecutable⟩) :=
  ⟨corresponds_fresh, by decide, by decide, nofun⟩

end Mini32.Lockstep
