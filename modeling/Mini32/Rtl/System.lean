import Mini32.Rtl.SystemBus

/-!
# The RTL system

`mini32_system` wires `cpu_core` to `system_bus`.  `Bench` adds what a test bench
does with `uart_tx_valid`: it keeps the bytes.

The bus takes two cycles to answer: it registers a request in `IDLE`, lets the addressed
block answer in `MEMORY`, and shows the response in `RESPONSE`.  `follows_stutters` says
that this is all: with constant pins the system is a stuttering of the core over a bus that
answers at once, out of the memory that `SystemBus.memory` reads from the blocks.  From here
on clock cycles need not be counted.

`Follows` relates the two machines in each state of the bus.  In `RESPONSE` the bus has
answered and the core has not heard, so there the memory of the blocks is ahead of the
abstract one by that answer; `told` adds the Timer's tick, which the bus takes before it
answers.  `rank` counts the cycles that are left, which keeps the stuttering finite.
-/

namespace Mini32.Rtl

/-- `mini32_system` -/
structure System where
  cpu : CpuCore
  bus : SystemBus

namespace System

/-- The request wires between the two. -/
def busRequest (s : System) : Request := ⟨s.cpu.busAccess, s.cpu.busAddr, s.cpu.busWdata⟩

/-- The rising edge. The bus sees the core's outputs before it, the core the bus's. -/
def clock (reset : Bool) (gpioInput : Word) (s : System) : System where
  cpu := s.cpu.clock reset s.bus.responseReady s.bus.response
  bus := s.bus.clock reset s.cpu.retire.valid gpioInput s.cpu.busValid s.busRequest

/-- A run without reset after one reset edge, from any power-up state; `pins t` is
`gpio_input` in cycle `t`. -/
def run (pins : ℕ → Word) (resetPins : Word) (powerUp : System) : ℕ → System :=
  Clocked.run (clock false) pins (powerUp.clock true resetPins)

/-- The bytes the UART has sent up to cycle `t` of a run. -/
def transcript (s : ℕ → System) (t : ℕ) : List (BitVec 8) :=
  (List.range (t + 1)).flatMap fun i => (s i).bus.transmitted

/-- A request of the core is on the wires to the bus. -/
theorem request_eq_some {s : System} {q : Request} (h : s.cpu.request = some q) :
    s.cpu.busValid = true ∧ s.busRequest = q := by
  cases hv : s.cpu.busValid <;> simp_all [CpuCore.request, busRequest]

/-- Without a request `bus_valid` is low. -/
theorem request_eq_none {s : System} (h : s.cpu.request = none) : s.cpu.busValid = false := by
  cases hv : s.cpu.busValid <;> simp_all [CpuCore.request]

end System

/-- The system on a bench that collects what the UART transmits. -/
structure Bench where
  system : System
  transcript : List (BitVec 8)

namespace Bench

/-- The rising edge without reset, and the byte that becomes visible after it. -/
def clock (gpioInput : Word) (x : Bench) : Bench where
  system := x.system.clock false gpioInput
  transcript := x.transcript ++ (x.system.clock false gpioInput).bus.transmitted

/-- The documented memory of the whole bench. -/
def memory (gpioInput : Word) (x : Bench) : Isa.Memory :=
  x.system.bus.memory x.transcript gpioInput

/-- The bus that answers at once; retirements tick its Timer. -/
def busEnv {B : Type*} (M : Isa.BusModel B) : Elastic.Env B Request Response RetirePort where
  answer := SystemBus.answer M
  notify _ := M.retireTick

/-- The core over that bus. -/
abbrev Immediate := Elastic.State CpuCore Isa.Memory

/-- One cycle of the core over the bus that answers at once. -/
def immediateStep : Immediate → Immediate :=
  Elastic.step CpuCore.client (busEnv SystemBus.busModel)

/-- What the bus knows of the present instruction's events. -/
def told (u : Immediate) : Isa.Memory :=
  (busEnv SystemBus.busModel).after u.client.retired u.env

/-- The bench follows the immediate machine: it is in the same state, or it is
waiting with the request captured, or with the request answered. -/
def Follows (gpioInput : Word) (x : Bench) (u : Immediate) : Prop :=
  match x.system.bus.state with
  | .idle => x.system.cpu = u.client ∧ x.memory gpioInput = u.env
  | .memory =>
      u.client.request = some x.system.bus.pendingRequest ∧
        x.system.cpu = u.client.clearPulses ∧ x.memory gpioInput = told u
  | .response =>
      u.client.request = some x.system.bus.pendingRequest ∧
        x.system.cpu = u.client.clearPulses ∧
        x.system.bus.response.Agrees x.system.bus.pendingAccess
          (SystemBus.answer SystemBus.busModel x.system.bus.pendingRequest (told u)).1 ∧
        x.memory gpioInput =
          (SystemBus.answer SystemBus.busModel x.system.bus.pendingRequest (told u)).2

/-- The bus states left before the answer is taken. -/
def rank (x : Bench) : ℕ :=
  match x.system.bus.state with
  | .idle => 2
  | .memory => 1
  | .response => 0

section Follows

variable {gpioInput : Word} {x : Bench} {u : Immediate}

/-- `Follows` while the bus is idle. -/
theorem follows_idle (hs : x.system.bus.state = .idle) :
    Follows gpioInput x u ↔ x.system.cpu = u.client ∧ x.memory gpioInput = u.env := by
  simp only [Follows, hs]

/-- `Follows` while a block answers. -/
theorem follows_memory (hs : x.system.bus.state = .memory) :
    Follows gpioInput x u ↔ u.client.request = some x.system.bus.pendingRequest ∧
      x.system.cpu = u.client.clearPulses ∧ x.memory gpioInput = told u := by
  simp only [Follows, hs]

/-- `Follows` while the answer is on its way to the core. -/
theorem follows_response (hs : x.system.bus.state = .response) :
    Follows gpioInput x u ↔ u.client.request = some x.system.bus.pendingRequest ∧
      x.system.cpu = u.client.clearPulses ∧
      x.system.bus.response.Agrees x.system.bus.pendingAccess
        (SystemBus.answer SystemBus.busModel x.system.bus.pendingRequest (told u)).1 ∧
      x.memory gpioInput =
        (SystemBus.answer SystemBus.busModel x.system.bus.pendingRequest (told u)).2 := by
  simp only [Follows, hs]

/-- Behind an idle bus the machine is met exactly, behind a busy one while it waits. -/
theorem follows_idle_or_waiting (h : Follows gpioInput x u) :
    (x.system.cpu = u.client ∧ x.memory gpioInput = u.env) ∨
      (u.client.request.isSome = true ∧ x.system.cpu = u.client.clearPulses) := by
  cases hs : x.system.bus.state with
  | idle => exact Or.inl ((follows_idle hs).mp h)
  | memory =>
      obtain ⟨hq, hcpu, -⟩ := (follows_memory hs).mp h
      exact Or.inr ⟨by rw [hq]; rfl, hcpu⟩
  | response =>
      obtain ⟨hq, hcpu, -⟩ := (follows_response hs).mp h
      exact Or.inr ⟨by rw [hq]; rfl, hcpu⟩

/-- A step of the core over the immediate bus that answers a request. -/
theorem immediateStep_request {q : Request} (hq : u.client.request = some q) :
    immediateStep u =
      ⟨u.client.clock false true (SystemBus.answer SystemBus.busModel q (told u)).1,
        (SystemBus.answer SystemBus.busModel q (told u)).2⟩ := by
  have hclient : CpuCore.client.request u.client = some q := hq
  simp only [immediateStep, Elastic.step, hclient]
  rfl

/-- A step of the core over the immediate bus without a request. -/
theorem immediateStep_idle (hq : u.client.request = none) :
    immediateStep u = ⟨CpuCore.client.idle u.client, told u⟩ := by
  have hclient : CpuCore.client.request u.client = none := hq
  simp only [immediateStep, Elastic.step, hclient]
  rfl

/-- From `BUS_IDLE` the Timer takes the tick, and a request is captured. -/
theorem follows_step_idle (hs : x.system.bus.state = .idle) (h : Follows gpioInput x u) :
    ((x.clock gpioInput).system.bus.state = .memory ∧ Follows gpioInput (x.clock gpioInput) u) ∨
      ((x.clock gpioInput).system.bus.state = .idle ∧
        Follows gpioInput (x.clock gpioInput) (immediateStep u)) := by
  obtain ⟨hcpu, hmem⟩ := (follows_idle hs).mp h
  have hready : x.system.bus.responseReady = false := by simp [SystemBus.responseReady, hs]
  obtain ⟨hmem', htx⟩ := SystemBus.clock_unwritten x.transcript gpioInput x.system.bus
    (by simp [SystemBus.writing, SystemBus.issuing, hs]) x.system.cpu.retire.valid
    x.system.cpu.busValid x.system.busRequest gpioInput
  have htold : (x.clock gpioInput).memory gpioInput = told u := by
    simp only [memory, clock, System.clock, htx, List.append_nil, hmem']
    rw [told, ← hmem, ← hcpu]
    cases hv : x.system.cpu.retire.valid <;> simp [CpuCore.retired, hv] <;> rfl
  cases hq : u.client.request with
  | none =>
      have hv : x.system.cpu.busValid = false :=
        System.request_eq_none (s := x.system) (hcpu ▸ hq)
      have hstate : (x.clock gpioInput).system.bus.state = .idle := by
        simp [clock, System.clock, SystemBus.clock_state, hs, hv]
      refine Or.inr ⟨hstate, (follows_idle hstate).mpr ?_⟩
      rw [immediateStep_idle hq]
      refine ⟨?_, htold⟩
      rw [← hcpu]
      exact CpuCore.clock_idle hv _ _
  | some q =>
      obtain ⟨hv, hbr⟩ := System.request_eq_some (s := x.system) (hcpu ▸ hq)
      have hstate : (x.clock gpioInput).system.bus.state = .memory := by
        simp [clock, System.clock, SystemBus.clock_state, hs, hv]
      refine Or.inl ⟨hstate, (follows_memory hstate).mpr ⟨?_, ?_, htold⟩⟩
      · rw [hq]
        simp [clock, System.clock, SystemBus.clock_pendingRequest, hs, hv, hbr]
      · rw [← hcpu]
        simp only [clock, System.clock, hready]
        exact CpuCore.clock_stall hv _

/-- From `BUS_MEMORY` the answer goes to the response ports. -/
theorem follows_step_memory (hs : x.system.bus.state = .memory) (h : Follows gpioInput x u) :
    (x.clock gpioInput).system.bus.state = .response ∧
      Follows gpioInput (x.clock gpioInput) u := by
  obtain ⟨hq, hcpu, hmem⟩ := (follows_memory hs).mp h
  have hready : x.system.bus.responseReady = false := by simp [SystemBus.responseReady, hs]
  have hv : x.system.cpu.busValid = true :=
    (System.request_eq_some (s := x.system) (by rw [hcpu]; exact hq)).1
  have htick : x.system.cpu.retire.valid = false := by rw [hcpu]; rfl
  have hstate : (x.clock gpioInput).system.bus.state = .response := by
    simp [clock, System.clock, SystemBus.clock_state, hs]
  have hpend : (x.clock gpioInput).system.bus.pendingRequest = x.system.bus.pendingRequest := by
    simp [clock, System.clock, SystemBus.clock_pendingRequest, hs]
  obtain ⟨hagree, hmem'⟩ := SystemBus.clock_memory x.transcript gpioInput hs
    x.system.cpu.busValid x.system.busRequest
  rw [show x.system.bus.memory x.transcript gpioInput = told u from hmem] at hagree hmem'
  refine ⟨hstate, (follows_response hstate).mpr ?_⟩
  rw [hpend]
  refine ⟨hq, ?_, ?_, ?_⟩
  · simp only [clock, System.clock, hready]
    rw [CpuCore.clock_stall hv, hcpu]
    rfl
  · rw [show (x.clock gpioInput).system.bus.pendingAccess = x.system.bus.pendingAccess from
      congrArg Request.access hpend]
    simpa only [clock, System.clock, htick] using hagree
  · simpa only [memory, clock, System.clock, htick] using hmem'

/-- In `BUS_RESPONSE` the core takes the answer. -/
theorem follows_step_response (hs : x.system.bus.state = .response)
    (h : Follows gpioInput x u) : Follows gpioInput (x.clock gpioInput) (immediateStep u) := by
  obtain ⟨hq, hcpu, hagree, hmem⟩ := (follows_response hs).mp h
  have hready : x.system.bus.responseReady = true := by simp [SystemBus.responseReady, hs]
  have htick : x.system.cpu.retire.valid = false := by rw [hcpu]; rfl
  have hstate : (x.clock gpioInput).system.bus.state = .idle := by
    simp [clock, System.clock, SystemBus.clock_state, hs]
  obtain ⟨hmem', htx⟩ := SystemBus.clock_unwritten x.transcript gpioInput x.system.bus
    (by simp [SystemBus.writing, SystemBus.issuing, hs]) x.system.cpu.retire.valid
    x.system.cpu.busValid x.system.busRequest gpioInput
  rw [immediateStep_request hq]
  refine (follows_idle hstate).mpr ⟨?_, ?_⟩
  · simp only [clock, System.clock, hready]
    rw [hcpu]
    exact CpuCore.accept_agrees hq hagree
  · simp only [memory, clock, System.clock, htx, List.append_nil, hmem']
    rw [htick]
    exact hmem

/-- **The system stutters the core over an immediate bus.** -/
theorem follows_stutters (gpioInput : Word) :
    Clocked.Stutters (clock gpioInput) immediateStep (·.system.cpu.retired) (·.client.retired)
      (Follows gpioInput) rank where
  step x u h := by
    cases hs : x.system.bus.state with
    | idle =>
        rcases follows_step_idle hs h with ⟨hstate, hstay⟩ | ⟨hstate, hmove⟩
        · refine Or.inl ⟨hstay, ?_, by simp [rank, hs, hstate]⟩
          rw [((follows_memory hstate).mp hstay).2.1]
          rfl
        · exact Or.inr ⟨hmove, by rw [((follows_idle hstate).mp hmove).1]⟩
    | memory =>
        obtain ⟨hstate, hstay⟩ := follows_step_memory hs h
        refine Or.inl ⟨hstay, ?_, by simp [rank, hs, hstate]⟩
        rw [((follows_response hstate).mp hstay).2.1]
        rfl
    | response =>
        have hmove := follows_step_response hs h
        have hstate : (x.clock gpioInput).system.bus.state = .idle := by
          simp [clock, System.clock, SystemBus.clock_state, hs]
        exact Or.inr ⟨hmove, by rw [((follows_idle hstate).mp hmove).1]⟩

end Follows

/-! ## Runs -/

section Run

variable (gpioInput resetPins : Word) (powerUp : System)

/-- The bench after the reset edge. -/
def start : Bench := ⟨powerUp.clock true resetPins, []⟩

/-- The bench runs the system after a reset. -/
theorem run_system (t : ℕ) :
    ((clock gpioInput)^[t] (start resetPins powerUp)).system =
      System.run (fun _ => gpioInput) resetPins powerUp t := by
  induction t with
  | zero => rfl
  | succ t ih =>
      rw [Function.iterate_succ_apply', System.run, Clocked.run_succ]
      exact congrArg (System.clock false gpioInput) ih

/-- The bench's bytes are those of the system's run. -/
theorem run_transcript (t : ℕ) :
    ((clock gpioInput)^[t] (start resetPins powerUp)).transcript =
      System.transcript (System.run (fun _ => gpioInput) resetPins powerUp) t := by
  induction t with
  | zero => rfl
  | succ t ih =>
      rw [System.transcript, List.range_succ, List.flatMap_append, ← System.transcript, ← ih,
        List.flatMap_singleton, ← run_system, Function.iterate_succ_apply']
      rfl

end Run

end Bench
end Mini32.Rtl
