import Mini32.Lib.Meter
import Mini32.Rtl.Step
import Mini32.Rtl.Transactions
import Mathlib.Algebra.Order.BigOperators.Group.List
import Mathlib.Algebra.Order.Ring.Nat
import Mathlib.Algebra.Module.NatInt

/-!
# How long the RTL takes

The system answers every request in the second cycle after it was made, so the
cycles of an instruction depend on its opcode alone.  `Instr.cycles` is the table;
`age` reads off the state of core and bus how long the present instruction has
been under way.

`Accounts` is what one edge does to the two, and `metered` carries it through every
run from reset, with any ROM, RAM and sequence of input pins.  `timed` says when
each instruction retires, and when the core halts or faults.

## The age

In `FETCH` and `MEMORY` the age depends on the state of the bus (`waited`), elsewhere on the
core's state alone; in `WRITEBACK` it also depends on whether the instruction came through
`MEMORY`.  An edge therefore makes the instruction one cycle older, or retires it at the age the
table gives, or stops the core.  There is a lemma for each state; behind `DECODE` the
instruction in the register is a legal one (`Legal`).

## The clock

The retirements of a run are events with a duration, so the time is a sum over the log
(`Clocked.Metered`).  A core that stopped does not age, so `timed` fixes the cycle of the last
event as well as those of the retirements.
-/

namespace Mini32

namespace Isa

/-- The clock cycles of an instruction, from its fetch to its retirement. -/
def Instr.cycles : Instr → ℕ
  | .branch .. | .j _ | .jr _ => 5
  | .nop | .alu .. | .imm .. | .lui .. | .jal _ | .halt => 6
  | .sw .. => 8
  | .lw .. => 9

theorem Instr.cycles_bounds (i : Instr) : 5 ≤ i.cycles ∧ i.cycles ≤ 9 := by
  cases i <;> simp [cycles]

/-- The cycles of the instruction a word encodes. -/
def wordCycles (w : Word) : ℕ :=
  match decode w with
  | .ok i => i.cycles
  | .error _ => 0

theorem wordCycles_of_decode {w : Word} {i : Instr} (h : decode w = .ok i) :
    wordCycles w = i.cycles := by
  rw [wordCycles, h]

end Isa

/-- The clock cycles of an instruction that faults, from its fetch to the fault. -/
def faultCycles : CpuFault → ℕ
  | .none => 0
  | .misalignedInstructionFetch | .unmappedInstructionFetch
  | .nonExecutableInstructionFetch => 3
  | .illegalInstruction | .malformedInstruction | .unsupportedInstruction => 4
  | .misalignedLoad | .unmappedLoad | .misalignedStore | .unmappedStore | .readOnlyStore => 8

namespace Rtl
namespace System

/-! ## The age of an instruction -/

/-- The cycles since the request was made. -/
def waited (s : System) : ℕ :=
  match s.bus.state with
  | .idle => 0
  | .memory => 1
  | .response => 2

/-- The cycles the present instruction has taken; of a fault, those until it. -/
def age (s : System) : ℕ :=
  match s.cpu.state with
  | .fetch => s.waited
  | .decode => 3
  | .execute => 4
  | .memory => 5 + s.waited
  | .writeback => if s.cpu.control.memoryOperation = .load then 8 else 5
  | .halted => 0
  | .fault => faultCycles s.cpu.fault.code

/-- The core has halted or faulted. -/
def Stopped (s : System) : Prop := s.cpu.state = .halted ∨ s.cpu.state = .fault

instance (s : System) : Decidable s.Stopped := inferInstanceAs (Decidable (_ ∨ _))

/-- The cycles of a retired instruction. -/
def retireCycles (p : RetirePort) : ℕ := Isa.wordCycles p.instruction

section Age

variable {s : System}

theorem age_fetch (h : s.cpu.state = .fetch) : s.age = s.waited := by simp only [age, h]

theorem age_decode (h : s.cpu.state = .decode) : s.age = 3 := by simp only [age, h]

theorem age_execute (h : s.cpu.state = .execute) : s.age = 4 := by simp only [age, h]

theorem age_memory (h : s.cpu.state = .memory) : s.age = 5 + s.waited := by simp only [age, h]

theorem age_writeback {i : Isa.Instr} (h : s.cpu.state = .writeback)
    (hd : Isa.decode s.cpu.instructionRegister = .ok i) :
    s.age = if i.control.memoryOperation = .load then 8 else 5 := by
  obtain ⟨-, -, -, hcontrol, -⟩ := CpuCore.ports_eq hd rfl
  simp only [age, h, hcontrol]

theorem waited_idle (h : s.bus.state = .idle) : s.waited = 0 := by simp only [waited, h]

theorem waited_memory (h : s.bus.state = .memory) : s.waited = 1 := by simp only [waited, h]

theorem waited_response (h : s.bus.state = .response) : s.waited = 2 := by simp only [waited, h]

end Age

/-- From `EXECUTE` on, the instruction register holds a legal word; what gets to
`WRITEBACK` is a load or takes six cycles. -/
def Legal (c : CpuCore) : Prop :=
  match c.state with
  | .execute | .memory => ∃ i, Isa.decode c.instructionRegister = .ok i
  | .writeback => ∃ i, Isa.decode c.instructionRegister = .ok i ∧
      i.cycles = if i.control.memoryOperation = .load then 9 else 6
  | _ => True

end System

/-! ## What an edge does to the core -/

namespace CpuCore

variable {c : CpuCore} {ready : Bool} {r : Response} {i : Isa.Instr}

/-- The core goes on to `state` with the instruction it has. -/
structure Enters (c c' : CpuCore) (state : CpuState) : Prop where
  state : c'.state = state
  instructionRegister : c'.instructionRegister = c.instructionRegister
  retired : c'.retired = none

/-- The core retires the instruction it has and goes on to `state`. -/
structure Commits (c c' : CpuCore) (state : CpuState) : Prop where
  state : c'.state = state
  retired : ∃ p, c'.retired = some p ∧ p.instruction = c.instructionRegister

/-- The core stops with a fault that takes so many cycles. -/
structure Stops (c' : CpuCore) (cycles : ℕ) : Prop where
  state : c'.state = .fault
  retired : c'.retired = none
  cycles : faultCycles c'.fault.code = cycles

theorem clock_fetch_ready (hs : c.state = .fetch) :
    (c.clock false true r).state = .decode ∧ (c.clock false true r).retired = none ∨
      Stops (c.clock false true r) 3 := by
  generalize hclock : c.clock false true r = c'
  simp only [clock, hs, Bool.false_eq_true, if_false, if_true] at hclock
  cases hf : r.fault with
  | none =>
      rw [hf, if_pos rfl] at hclock
      exact Or.inl (hclock ▸ ⟨rfl, rfl⟩)
  | some fault =>
      rw [hf, if_neg (by simp)] at hclock
      refine Or.inr (hclock ▸ ⟨rfl, rfl, ?_⟩)
      cases fault <;> rfl

variable (ready r) in
theorem clock_decode (hs : c.state = .decode) :
    (∃ i, Isa.decode c.instructionRegister = .ok i) ∧
        Enters c (c.clock false ready r) .execute ∨
      Stops (c.clock false ready r) 4 := by
  generalize hclock : c.clock false ready r = c'
  simp only [clock, hs, Bool.false_eq_true, if_false] at hclock
  cases hd : Isa.decode c.instructionRegister with
  | ok i =>
      obtain ⟨hports, hvalid, -, -, hsupported⟩ := ports_eq hd rfl
      simp only [hports, hvalid, hsupported, Bool.not_true, Bool.false_eq_true, if_false] at hclock
      exact Or.inl ⟨⟨i, rfl⟩, hclock ▸ ⟨rfl, rfl, rfl⟩⟩
  | error e =>
      have hdec := decoder_eq c.instructionRegister
      have hvalid : c.decoded.valid = false := by
        rw [hd] at hdec
        cases e with
        | illegal => exact hdec.1
        | malformed => exact hdec.1
      simp only [hvalid, Bool.not_false, if_true] at hclock
      refine Or.inr ?_
      cases hm : c.decoded.malformed <;> rw [hm] at hclock <;> exact hclock ▸ ⟨rfl, rfl, rfl⟩

variable (ready r) in
theorem clock_execute (hs : c.state = .execute) (hd : Isa.decode c.instructionRegister = .ok i) :
    i.cycles = 5 ∧ Commits c (c.clock false ready r) .fetch ∨
      i.control.memoryOperation ≠ .none ∧ Enters c (c.clock false ready r) .memory ∨
      i.cycles = 6 ∧ i.control.memoryOperation = .none ∧
        Enters c (c.clock false ready r) .writeback := by
  obtain ⟨-, -, -, hcontrol, -⟩ := ports_eq hd rfl
  generalize hclock : c.clock false ready r = c'
  simp only [clock, hs, Bool.false_eq_true, if_false, hcontrol] at hclock
  cases i with
  | branch | j | jr => exact Or.inl ⟨rfl, hclock ▸ ⟨rfl, _, rfl, rfl⟩⟩
  | lw | sw => exact Or.inr (Or.inl ⟨by simp [Isa.Instr.control], hclock ▸ ⟨rfl, rfl, rfl⟩⟩)
  | _ => exact Or.inr (Or.inr ⟨rfl, rfl, hclock ▸ ⟨rfl, rfl, rfl⟩⟩)

theorem clock_memory_ready (hs : c.state = .memory)
    (hd : Isa.decode c.instructionRegister = .ok i) (hop : i.control.memoryOperation ≠ .none) :
    Stops (c.clock false true r) 8 ∨
      i.control.memoryOperation = .load ∧ i.cycles = 9 ∧
        Enters c (c.clock false true r) .writeback ∨
      i.cycles = 8 ∧ Commits c (c.clock false true r) .fetch := by
  obtain ⟨-, -, -, hcontrol, -⟩ := ports_eq hd rfl
  generalize hclock : c.clock false true r = c'
  simp only [clock, hs, Bool.false_eq_true, if_false, if_true, hcontrol] at hclock
  cases hf : r.fault with
  | none =>
      simp only [hf, ne_eq, not_true_eq_false, if_false] at hclock
      cases i with
      | lw => exact Or.inr (Or.inl ⟨rfl, rfl, hclock ▸ ⟨rfl, rfl, rfl⟩⟩)
      | sw => exact Or.inr (Or.inr ⟨rfl, hclock ▸ ⟨rfl, _, rfl, rfl⟩⟩)
      | _ => exact absurd rfl hop
  | some fault =>
      simp only [hf, ne_eq, reduceCtorEq, not_false_eq_true, if_true] at hclock
      refine Or.inl ?_
      by_cases hload : i.control.memoryOperation = .load
      · rw [if_pos hload] at hclock
        refine hclock ▸ ⟨rfl, rfl, ?_⟩
        cases fault <;> rfl
      · rw [if_neg hload] at hclock
        refine hclock ▸ ⟨rfl, rfl, ?_⟩
        cases fault <;> rfl

variable (ready r) in
theorem clock_writeback (hs : c.state = .writeback) :
    Commits c (c.clock false ready r) .fetch ∨ Commits c (c.clock false ready r) .halted := by
  generalize hclock : c.clock false ready r = c'
  simp only [clock, hs, Bool.false_eq_true, if_false] at hclock
  cases hh : c.control.halt with
  | false => exact Or.inl (hclock ▸ ⟨by simp [hh], _, rfl, rfl⟩)
  | true => exact Or.inr (hclock ▸ ⟨by simp [hh], _, rfl, rfl⟩)

end CpuCore

namespace System

/-! ## What an edge does to the age -/

/-- One edge of a running system. -/
structure Accounts (s s' : System) : Prop where
  legal : Legal s'.cpu
  ages : s'.cpu.retired = none → s'.age = s.age + 1
  completes : ∀ p, s'.cpu.retired = some p →
    ∃ i, Isa.decode p.instruction = .ok i ∧ i.cycles = s.age + 1 ∧ s'.age = 0

section Edge

variable {s : System} (pins : Word)

/-- The core waits for the bus. -/
theorem accounts_waiting (hlegal : Legal s.cpu) (hv : s.cpu.busValid = true)
    (hbus : s.bus.state ≠ .response) : Accounts s (s.clock false pins) := by
  have hcpu := clock_cpu_stall pins hv hbus
  have hwaited : (s.clock false pins).waited = s.waited + 1 := by
    have hstate := clock_bus_state (s := s) pins
    cases hb : s.bus.state with
    | idle =>
        rw [hb, captures, hb, hv] at hstate
        rw [waited_idle hb, waited_memory hstate]
    | memory =>
        rw [hb] at hstate
        rw [waited_memory hb, waited_response hstate]
    | response => exact absurd hb hbus
  refine ⟨hcpu ▸ hlegal, fun _ => ?_, fun p hp => ?_⟩
  · rcases CpuCore.busValid_iff.mp hv with hs | hs
    · rw [age_fetch hs, age_fetch (by rw [hcpu]; exact hs), hwaited]
    · rw [age_memory hs, age_memory (by rw [hcpu]; exact hs), hwaited, Nat.add_assoc]
  · rw [hcpu] at hp
    cases hp

/-- The bus rests after a response, and while the core requests nothing. -/
theorem clock_bus_idle (hbus : s.bus.state = .response ∨
    s.bus.state = .idle ∧ s.cpu.busValid = false) : (s.clock false pins).bus.state = .idle := by
  rw [clock_bus_state]
  rcases hbus with hb | ⟨hb, hv⟩
  · rw [hb]
  · simp [hb, captures, hv]

/-- The core stops. -/
theorem accounts_of_stops {n : ℕ} (h : CpuCore.Stops (s.clock false pins).cpu n)
    (hage : s.age + 1 = n) : Accounts s (s.clock false pins) where
  legal := by simp only [Legal, h.state]
  ages _ := by
    rw [hage, ← h.cycles]
    simp only [age, h.state]
  completes p hp := by
    rw [h.retired] at hp
    cases hp

/-- The core goes on with a legal word. -/
theorem accounts_of_enters {i : Isa.Instr} {state : CpuState}
    (h : CpuCore.Enters s.cpu (s.clock false pins).cpu state)
    (hd : Isa.decode s.cpu.instructionRegister = .ok i)
    (hage : (s.clock false pins).age = s.age + 1)
    (hcycles : state = .writeback →
      i.cycles = if i.control.memoryOperation = .load then 9 else 6) :
    Accounts s (s.clock false pins) := by
  have hd' : Isa.decode (s.clock false pins).cpu.instructionRegister = .ok i := by
    rw [h.instructionRegister, hd]
  refine ⟨?_, fun _ => hage, fun p hp => ?_⟩
  · cases hstate : state with
    | execute | memory =>
        simp only [Legal, h.state, hstate]
        exact ⟨i, hd'⟩
    | writeback =>
        simp only [Legal, h.state, hstate]
        exact ⟨i, hd', hcycles hstate⟩
    | _ => simp only [Legal, h.state, hstate]
  · rw [h.retired] at hp
    cases hp

/-- The core retires an instruction in front of an idle bus. -/
theorem accounts_of_commits {i : Isa.Instr} {state : CpuState}
    (h : CpuCore.Commits s.cpu (s.clock false pins).cpu state)
    (hstate : state = .fetch ∨ state = .halted)
    (hd : Isa.decode s.cpu.instructionRegister = .ok i) (hage : s.age + 1 = i.cycles)
    (hidle : (s.clock false pins).bus.state = .idle) : Accounts s (s.clock false pins) := by
  obtain ⟨p, hp, hinstruction⟩ := h.retired
  have hzero : (s.clock false pins).age = 0 := by
    rcases hstate with rfl | rfl
    · rw [age_fetch h.state, waited_idle hidle]
    · simp only [age, h.state]
  refine ⟨?_, fun hno => ?_, fun p' hp' => ⟨i, ?_, hage.symm, hzero⟩⟩
  · rcases hstate with rfl | rfl <;> simp only [Legal, h.state]
  · rw [hp] at hno
    cases hno
  · cases hp.symm.trans hp'
    rw [hinstruction, hd]

/-- The core sees the response while it is there. -/
theorem clock_cpu_ready (hr : s.bus.state = .response) :
    (s.clock false pins).cpu = s.cpu.clock false true s.bus.response := by
  simp [clock, SystemBus.responseReady, hr]

theorem accounts_fetch (hs : s.cpu.state = .fetch) (hr : s.bus.state = .response) :
    Accounts s (s.clock false pins) := by
  have hage : s.age = 2 := by rw [age_fetch hs, waited_response hr]
  have hcpu := clock_cpu_ready pins hr
  rcases CpuCore.clock_fetch_ready (r := s.bus.response) hs with ⟨hstate, hquiet⟩ | hstop
  · rw [← hcpu] at hstate hquiet
    refine ⟨by simp only [Legal, hstate], fun _ => ?_, fun p hp => ?_⟩
    · rw [age_decode hstate, hage]
    · rw [hquiet] at hp
      cases hp
  · exact accounts_of_stops pins (hcpu ▸ hstop) (by rw [hage])

theorem accounts_decode (hs : s.cpu.state = .decode) : Accounts s (s.clock false pins) := by
  have hage := age_decode hs
  rcases CpuCore.clock_decode s.bus.responseReady s.bus.response hs with
    ⟨⟨i, hd⟩, henters⟩ | hstop
  · exact accounts_of_enters pins henters hd (by rw [age_execute henters.state, hage]) (by simp)
  · exact accounts_of_stops pins hstop (by rw [hage])

theorem accounts_execute (hlegal : Legal s.cpu) (hs : s.cpu.state = .execute)
    (hidle : (s.clock false pins).bus.state = .idle) : Accounts s (s.clock false pins) := by
  have hage := age_execute hs
  obtain ⟨i, hd⟩ : ∃ i, Isa.decode s.cpu.instructionRegister = .ok i := by
    simpa only [Legal, hs] using hlegal
  rcases CpuCore.clock_execute s.bus.responseReady s.bus.response hs hd with
    ⟨hcycles, hcommits⟩ | ⟨-, henters⟩ | ⟨hcycles, hop, henters⟩
  · exact accounts_of_commits pins hcommits (Or.inl rfl) hd (by rw [hage, hcycles]) hidle
  · refine accounts_of_enters pins henters hd ?_ (by simp)
    rw [age_memory henters.state, waited_idle hidle, hage]
  · have hnoload : ¬ i.control.memoryOperation = .load := by simp [hop]
    refine accounts_of_enters pins henters hd ?_ (fun _ => by rw [hcycles, if_neg hnoload])
    rw [age_writeback henters.state (henters.instructionRegister ▸ hd), if_neg hnoload, hage]

theorem accounts_memory (hinv : Inv s) (hlegal : Legal s.cpu) (hs : s.cpu.state = .memory)
    (hr : s.bus.state = .response) : Accounts s (s.clock false pins) := by
  have hage : s.age = 7 := by rw [age_memory hs, waited_response hr]
  have hidle := clock_bus_idle pins (Or.inl hr)
  obtain ⟨i, hd⟩ : ∃ i, Isa.decode s.cpu.instructionRegister = .ok i := by
    simpa only [Legal, hs] using hlegal
  have hop : i.control.memoryOperation ≠ .none := by
    obtain ⟨-, -, -, hcontrol, -⟩ := CpuCore.ports_eq hd rfl
    exact hcontrol ▸ hinv.operation hs
  have hcore := CpuCore.clock_memory_ready (r := s.bus.response) hs hd hop
  rw [← clock_cpu_ready pins hr] at hcore
  rcases hcore with hstop | ⟨hload, hcycles, henters⟩ | ⟨hcycles, hcommits⟩
  · exact accounts_of_stops pins hstop (by rw [hage])
  · refine accounts_of_enters pins henters hd ?_ (fun _ => by rw [hcycles, if_pos hload])
    rw [age_writeback henters.state (henters.instructionRegister ▸ hd), if_pos hload, hage]
  · exact accounts_of_commits pins hcommits (Or.inl rfl) hd (by rw [hage, hcycles]) hidle

theorem accounts_writeback (hlegal : Legal s.cpu) (hs : s.cpu.state = .writeback)
    (hidle : (s.clock false pins).bus.state = .idle) : Accounts s (s.clock false pins) := by
  obtain ⟨i, hd, hcycles⟩ : ∃ i, Isa.decode s.cpu.instructionRegister = .ok i ∧
      i.cycles = if i.control.memoryOperation = .load then 9 else 6 := by
    simpa only [Legal, hs] using hlegal
  have hage : s.age + 1 = i.cycles := by
    rw [age_writeback hs hd, hcycles]
    split <;> rfl
  rcases CpuCore.clock_writeback s.bus.responseReady s.bus.response hs with
    hcommits | hcommits
  · exact accounts_of_commits pins hcommits (Or.inl rfl) hd hage hidle
  · exact accounts_of_commits pins hcommits (Or.inr rfl) hd hage hidle

/-- **Every edge of a running system accounts for itself.** -/
theorem accounts (hinv : Inv s) (hlegal : Legal s.cpu) (hrun : ¬ s.Stopped) :
    Accounts s (s.clock false pins) := by
  by_cases hwait : s.cpu.busValid = true ∧ s.bus.state ≠ .response
  · exact accounts_waiting pins hlegal hwait.1 hwait.2
  -- otherwise the core moves, and the bus is idle afterwards
  have hready (hv : s.cpu.busValid = true) : s.bus.state = .response := by
    by_contra hr
    exact hwait ⟨hv, hr⟩
  have hquiet (hv : s.cpu.busValid = false) : s.bus.state = .idle := by
    by_contra hne
    rw [(request_eq_some (hinv.request hne)).1] at hv
    cases hv
  have hidle (hv : s.cpu.busValid = false) : (s.clock false pins).bus.state = .idle :=
    clock_bus_idle pins (Or.inr ⟨hquiet hv, hv⟩)
  cases hs : s.cpu.state with
  | fetch => exact accounts_fetch pins hs (hready (CpuCore.busValid_iff.mpr (Or.inl hs)))
  | decode => exact accounts_decode pins hs
  | execute => exact accounts_execute pins hlegal hs (hidle (by simp [CpuCore.busValid, hs]))
  | memory =>
      exact accounts_memory pins hinv hlegal hs (hready (CpuCore.busValid_iff.mpr (Or.inr hs)))
  | writeback => exact accounts_writeback pins hlegal hs (hidle (by simp [CpuCore.busValid, hs]))
  | halted => exact absurd (Or.inl hs) hrun
  | fault => exact absurd (Or.inr hs) hrun

/-- A stopped system stays as it is, up to the pulse of its last retirement. -/
theorem clock_stopped (hs : s.Stopped) : (s.clock false pins).cpu = s.cpu.clearPulses := by
  rcases hs with hs | hs <;>
    simp only [clock, CpuCore.clock, hs, Bool.false_eq_true, if_false,
      CpuCore.registersNext_of_ne (c := s.cpu) (by simp [hs])] <;> rfl

theorem age_stopped (hs : s.Stopped) : (s.clock false pins).age = s.age := by
  have hcpu := clock_stopped pins hs
  have hstate : (s.clock false pins).cpu.state = s.cpu.state := by rw [hcpu]; rfl
  rcases hs with hs | hs
  · simp only [age, hstate, hs]
  · have hfault : (s.clock false pins).cpu.fault = s.cpu.fault := by rw [hcpu]; rfl
    simp only [age, hstate, hs, hfault]

theorem age_le (hs : ¬ s.Stopped) : s.age ≤ 8 := by
  have hwaited : s.waited ≤ 2 := by
    unfold waited
    split <;> omega
  unfold age
  split
  case h_6 h => exact absurd (Or.inl h) hs
  case h_7 h => exact absurd (Or.inr h) hs
  all_goals first | omega | (split <;> omega)

end Edge

/-! ## Every run -/

section Run

variable (pins : ℕ → Word) (resetPins : Word) (powerUp : System)

theorem run_inv (t : ℕ) : Inv (run pins resetPins powerUp t) :=
  Clocked.run_invariant (clock false) (inv_reset resetPins powerUp) (fun pins _ h => h.clock pins) t

theorem run_legal (t : ℕ) : Legal (run pins resetPins powerUp t).cpu := by
  induction t with
  | zero => trivial
  | succ t ih =>
      rw [run, Clocked.run_succ, ← run]
      by_cases hs : (run pins resetPins powerUp t).Stopped
      · rw [clock_stopped (pins t) hs]
        exact ih
      · exact (accounts (pins t) (run_inv pins resetPins powerUp t) ih hs).legal

theorem run_accounts (t : ℕ) (hs : ¬ (run pins resetPins powerUp t).Stopped) :
    Accounts (run pins resetPins powerUp t) (run pins resetPins powerUp (t + 1)) :=
  accounts (pins t) (run_inv pins resetPins powerUp t) (run_legal pins resetPins powerUp t) hs

theorem run_stopped (t : ℕ) (hs : (run pins resetPins powerUp t).Stopped) :
    (run pins resetPins powerUp (t + 1)).cpu = (run pins resetPins powerUp t).cpu.clearPulses :=
  clock_stopped (pins t) hs

/-- A run from reset is metered by the cycles of its instructions. -/
theorem metered :
    Clocked.Metered (run pins resetPins powerUp) (·.cpu.retired) retireCycles age Stopped where
  start := ⟨rfl, rfl⟩
  ages t hs := (run_accounts pins resetPins powerUp t hs).ages
  completes t p hs hp := by
    obtain ⟨i, hd, hcycles, hage⟩ := (run_accounts pins resetPins powerUp t hs).completes p hp
    exact ⟨(Isa.wordCycles_of_decode hd).trans hcycles, hage⟩
  rests t hs := by
    have hcpu := run_stopped pins resetPins powerUp t hs
    refine ⟨?_, ?_, age_stopped (pins t) hs⟩
    · rw [Stopped, hcpu]
      exact hs
    · rw [hcpu]
      rfl

/-- A stopped core stays in its state. -/
theorem state_of_stopped {t t' : ℕ} (htt' : t ≤ t')
    (hs : (run pins resetPins powerUp t).Stopped) :
    (run pins resetPins powerUp t').cpu.state = (run pins resetPins powerUp t).cpu.state := by
  induction htt' with
  | refl => rfl
  | @step t' htt' ih =>
      have hs' := (metered pins resetPins powerUp).stopped_mono htt' hs
      rw [run_stopped pins resetPins powerUp t' hs', ← ih]
      rfl

end Run

/-- The cycles of the instructions retired up to cycle `t`. -/
def retiredCycles (s : ℕ → System) (t : ℕ) : ℕ :=
  ((Clocked.log (·.cpu.retired) s (t + 1)).map retireCycles).sum

/-- **When things happen** in a run. -/
structure Timed (s : ℕ → System) : Prop where
  /-- What retires is a legal word. -/
  legal : ∀ t p, (s t).cpu.retired = some p →
    ∃ i, Isa.decode p.instruction = .ok i ∧ retireCycles p = i.cycles
  /-- It retires when it and the instructions before it are done. -/
  retires : ∀ t p, (s t).cpu.retired = some p → t = retiredCycles s t
  /-- In between, the age is the time since the last retirement. -/
  running : ∀ t, (s t).cpu.halted = false → (s t).cpu.faulted = false →
    t = retiredCycles s t + (s t).age
  /-- The core halts with its last retirement. -/
  halts : ∀ t, (s t).cpu.halted = true → ∀ t', (s t').cpu.halted = true ↔ retiredCycles s t ≤ t'
  /-- A fault takes the cycles of its code after it. -/
  faults : ∀ t, (s t).cpu.faulted = true → ∀ t',
    (s t').cpu.faulted = true ↔ retiredCycles s t + faultCycles (s t).cpu.fault.code ≤ t'
  /-- Until then, an instruction retires every five to nine cycles. -/
  rate : ∀ t, (s t).cpu.halted = false → (s t).cpu.faulted = false →
    let n := (Clocked.log (·.cpu.retired) s (t + 1)).length
    5 * n ≤ t ∧ t ≤ 9 * n + 8

/-- The lengths of a run's instructions. -/
theorem retiredCycles_bounds {s : ℕ → System}
    (hlegal : ∀ t p, (s t).cpu.retired = some p →
      ∃ i, Isa.decode p.instruction = .ok i ∧ retireCycles p = i.cycles) (t : ℕ) :
    let n := (Clocked.log (·.cpu.retired) s (t + 1)).length
    5 * n ≤ retiredCycles s t ∧ retiredCycles s t ≤ 9 * n := by
  have hbounds : ∀ k ∈ (Clocked.log (·.cpu.retired) s (t + 1)).map retireCycles,
      5 ≤ k ∧ k ≤ 9 := by
    intro k hk
    obtain ⟨p, hp, rfl⟩ := List.mem_map.mp hk
    obtain ⟨t', -, ht'⟩ := (Clocked.mem_log _ _).mp hp
    obtain ⟨i, -, hi⟩ := hlegal t' p ht'
    rw [hi]
    exact i.cycles_bounds
  have hlower := List.card_nsmul_le_sum _ 5 fun k hk => (hbounds k hk).1
  have hupper := List.sum_le_card_nsmul _ 9 fun k hk => (hbounds k hk).2
  rw [List.length_map, smul_eq_mul] at hlower hupper
  exact ⟨by rw [Nat.mul_comm]; exact hlower, by rw [Nat.mul_comm]; exact hupper⟩

section Timed

variable (pins : ℕ → Word) (resetPins : Word) (powerUp : System)

/-- What retires is a legal word. -/
theorem run_retired {t : ℕ} {p : RetirePort}
    (hp : (run pins resetPins powerUp t).cpu.retired = some p) :
    ∃ i, Isa.decode p.instruction = .ok i ∧ retireCycles p = i.cycles := by
  cases t with
  | zero => cases hp
  | succ t =>
      have hrunning := (metered pins resetPins powerUp).running_of_emit hp
      obtain ⟨i, hd, -, -⟩ := (run_accounts pins resetPins powerUp t hrunning).completes p hp
      exact ⟨i, hd, Isa.wordCycles_of_decode hd⟩

/-- Two stopped cycles of a run show the same state. -/
theorem state_unique {t t' : ℕ} (hs : (run pins resetPins powerUp t).Stopped)
    (hs' : (run pins resetPins powerUp t').Stopped) :
    (run pins resetPins powerUp t').cpu.state = (run pins resetPins powerUp t).cpu.state := by
  rcases Nat.le_total t t' with hle | hle
  · exact state_of_stopped pins resetPins powerUp hle hs
  · exact (state_of_stopped pins resetPins powerUp hle hs').symm

/-- What the meter of a stopped run shows. -/
theorem meter_of_stopped {t : ℕ} (hs : (run pins resetPins powerUp t).Stopped) :
    Clocked.meter (run pins resetPins powerUp) (·.cpu.retired) retireCycles age t =
      retiredCycles (run pins resetPins powerUp) t +
        if (run pins resetPins powerUp t).cpu.faulted then
          faultCycles (run pins resetPins powerUp t).cpu.fault.code
        else 0 := by
  rcases hs with hs | hs <;> simp only [Clocked.meter, age, CpuCore.faulted, hs] <;> rfl

/-- An instruction retires when it and the ones before it are done. -/
theorem time_of_retired {t : ℕ} {p : RetirePort}
    (hp : (run pins resetPins powerUp t).cpu.retired = some p) :
    t = retiredCycles (run pins resetPins powerUp) t :=
  ((metered pins resetPins powerUp).time_of_emit hp).symm

theorem halted_iff {t : ℕ} (hh : (run pins resetPins powerUp t).cpu.halted = true) (t' : ℕ) :
    (run pins resetPins powerUp t').cpu.halted = true ↔
      retiredCycles (run pins resetPins powerUp) t ≤ t' := by
  have hs : (run pins resetPins powerUp t).cpu.state = .halted := by
    simpa [CpuCore.halted] using hh
  have hmeter := meter_of_stopped pins resetPins powerUp (Or.inl hs)
  simp only [CpuCore.faulted, hs, reduceCtorEq, decide_false, Bool.false_eq_true, if_false,
    Nat.add_zero] at hmeter
  rw [← hmeter, ← (metered pins resetPins powerUp).stopped_iff (Or.inl hs)]
  refine ⟨fun h => Or.inl (by simpa [CpuCore.halted] using h), fun h => ?_⟩
  simp [CpuCore.halted, state_unique pins resetPins powerUp (Or.inl hs) h, hs]

theorem faulted_iff {t : ℕ} (hf : (run pins resetPins powerUp t).cpu.faulted = true) (t' : ℕ) :
    (run pins resetPins powerUp t').cpu.faulted = true ↔
      retiredCycles (run pins resetPins powerUp) t +
        faultCycles (run pins resetPins powerUp t).cpu.fault.code ≤ t' := by
  have hs : (run pins resetPins powerUp t).cpu.state = .fault := by
    simpa [CpuCore.faulted] using hf
  have hmeter := meter_of_stopped pins resetPins powerUp (Or.inr hs)
  rw [if_pos hf] at hmeter
  rw [← hmeter, ← (metered pins resetPins powerUp).stopped_iff (Or.inr hs)]
  refine ⟨fun h => Or.inr (by simpa [CpuCore.faulted] using h), fun h => ?_⟩
  simp [CpuCore.faulted, state_unique pins resetPins powerUp (Or.inr hs) h, hs]

/-- **The clock of every run**: with any memories and pins, an instruction takes the
cycles of its opcode, neither more nor fewer. -/
theorem timed : Timed (run pins resetPins powerUp) := by
  have hrunning (t : ℕ) (hh : (run pins resetPins powerUp t).cpu.halted = false)
      (hf : (run pins resetPins powerUp t).cpu.faulted = false) :
      Clocked.meter (run pins resetPins powerUp) (·.cpu.retired) retireCycles age t = t ∧
        (run pins resetPins powerUp t).age ≤ 8 := by
    have hs : ¬ (run pins resetPins powerUp t).Stopped := by
      simpa [Stopped, CpuCore.halted, CpuCore.faulted] using And.intro hh hf
    exact ⟨(metered pins resetPins powerUp).meter_of_running hs, age_le hs⟩
  constructor
  case legal => exact fun t p => run_retired pins resetPins powerUp
  case retires => exact fun t p => time_of_retired pins resetPins powerUp
  case running => exact fun t hh hf => (hrunning t hh hf).1.symm
  case halts => exact fun t => halted_iff pins resetPins powerUp
  case faults => exact fun t => faulted_iff pins resetPins powerUp
  case rate =>
    intro t hh hf
    obtain ⟨htime, hage⟩ := hrunning t hh hf
    have hsum : retiredCycles (run pins resetPins powerUp) t +
        (run pins resetPins powerUp t).age = t := htime
    have hbounds := retiredCycles_bounds (s := run pins resetPins powerUp)
      (fun t p => run_retired pins resetPins powerUp) t
    simp only at hbounds ⊢
    omega

end Timed

end System
end Rtl
end Mini32
