import Mini32.Lockstep.Run
import Mini32.Rtl.Timing

/-!
# The clock read off the reference trace

`lockstep` finds some cycle of the RTL for every boundary of the simulator.  The
opcodes in the simulator's records say which: `boundaryCycle` adds up their cycles,
and those of a fault.  The reference trace of a program so predicts its timing on
the RTL to the cycle.

The RTL's own timing is `System.timed`: how many cycles each retirement took, by the
instruction in its record.  The simulator's records have the same instructions, so the sums
are the same (`Boundary.cycles`).  That there is a boundary in exactly this cycle, and not only
one somewhere, then follows from the lockstep, and the core has ended by a cycle exactly if
that cycle has come (`stopped_iff`).
-/

namespace Mini32.Lockstep

open Rtl (SystemBus RetirePort Bench System)

/-- The cycles of a list of records. -/
def traceCycles (records : List Cpp.RetireRecord) : ℕ :=
  (records.map fun r => Isa.wordCycles r.instruction).sum

/-- The cycle in which the RTL is where the trace loop ended. -/
def boundaryCycle (records : List Cpp.RetireRecord) (cpu : Cpp.CpuCore) : ℕ :=
  traceCycles records + if cpu.faulted then faultCycles cpu.faultInfo.code else 0

/-- Matching records have the same cycles. -/
theorem sum_retireCycles {records : List Cpp.RetireRecord} {events : List RetirePort}
    (h : List.Forall₂ Matches records events) :
    (events.map System.retireCycles).sum = traceCycles records := by
  induction h with
  | nil => rfl
  | @cons record port records events hmatch _ ih =>
      simp only [traceCycles, List.map_cons, List.sum_cons] at ih ⊢
      rw [ih, System.retireCycles, hmatch.instruction]

/-- The two fault codes of a fetch from the reserved STM32 window take the same. -/
theorem faultCycles_agree {p : Rtl.FaultPort} {info : FaultInfo} (h : FaultsAgree p info) :
    faultCycles p.code = faultCycles info.code := by
  rw [h.code]
  split
  · rename_i hw
    rw [h.window hw]
    rfl
  · rfl

section System

variable {rom : Cpp.Rom} {ram : Cpp.Ram} {gpioInput resetPins : Word} {powerUp : System}
  {records : List Cpp.RetireRecord} {cpu : Cpp.CpuCore} {bus : Cpp.Bus} {limit t : ℕ}

/-- At a boundary, the RTL's account of its time is the simulator's. -/
theorem Boundary.cycles {s : ℕ → System} (h : Boundary records cpu bus gpioInput s t) :
    System.retiredCycles s t + (if (s t).cpu.faulted then faultCycles (s t).cpu.fault.code else 0) =
      boundaryCycle records cpu := by
  rw [System.retiredCycles, sum_retireCycles h.records, boundaryCycle, h.faulted]
  cases hf : cpu.faulted with
  | false => rfl
  | true =>
      rw [faultCycles_agree (h.fault hf)]

/-- The cycle of a boundary is a retirement, the first one, or a terminal one. -/
theorem exists_settled (himage : SameImage rom ram (powerUp.clock true resetPins))
    (hloop : Cpp.RefTrace.traceLoop limit .construct (simulatorBus rom ram gpioInput) =
      .ok (records, cpu, bus)) :
    ∃ t, Boundary records cpu bus gpioInput
        (System.run (fun _ => gpioInput) resetPins powerUp) t ∧
      (t = 0 ∨ (System.run (fun _ => gpioInput) resetPins powerUp t).cpu.retired.isSome = true ∨
        (System.run (fun _ => gpioInput) resetPins powerUp t).Stopped) := by
  have hcount := traceLoop_count hloop
  obtain ⟨records', cpu', bus', hloop', n, events, u', htracks⟩ :=
    traceLoop_follows limit .construct _ _ (agree_start gpioInput himage)
  cases hloop.symm.trans hloop'
  rcases htracks.settled with rfl | hsettled
  · obtain rfl := htracks.emits.reaches
    exact ⟨0, boundary_of_agree htracks.agree hcount htracks.records htracks.emits.log rfl rfl,
      Or.inl rfl⟩
  · obtain ⟨t, x, hemits, hx, hemit⟩ := (Bench.follows_stutters gpioInput).emits
      (follows_start resetPins powerUp) rfl htracks.emits
    obtain ⟨hcpu, hmem⟩ := idle_of_settled hx hemit hsettled
    obtain rfl := hemits.reaches
    rw [Bench.run_system] at hcpu
    refine ⟨t, boundary_of_agree htracks.agree hcount htracks.records ?_ hcpu hmem, Or.inr ?_⟩
    · rw [log_run, hemits.log_succ]
      rfl
    · rw [System.Stopped, hcpu]
      -- a core without a request is at rest
      refine hsettled.imp_right fun hq => ?_
      rcases htracks.agree.state with ⟨-, hs⟩ | ⟨-, hs⟩ | ⟨-, hs, -⟩
      · simp [Rtl.CpuCore.request, Rtl.CpuCore.busValid, hs] at hq
      · exact Or.inl hs
      · exact Or.inr hs

/-- A boundary at a retirement is where the account says. -/
theorem boundaryCycle_of_retired
    (h : Boundary records cpu bus gpioInput (System.run (fun _ => gpioInput) resetPins powerUp) t)
    {p : RetirePort}
    (hp : (System.run (fun _ => gpioInput) resetPins powerUp t).cpu.retired = some p) :
    boundaryCycle records cpu = t := by
  have hcycles := h.cycles
  have htime := System.time_of_retired (fun _ => gpioInput) resetPins powerUp hp
  by_cases hf : (System.run (fun _ => gpioInput) resetPins powerUp t).cpu.faulted = true
  · have hle := (System.faulted_iff _ _ _ hf t).mp hf
    rw [if_pos hf] at hcycles
    omega
  · rw [if_neg hf] at hcycles
    omega

/-- Once the loop has stopped, every terminal cycle of the RTL is at the boundary. -/
theorem boundary_of_terminal (himage : SameImage rom ram (powerUp.clock true resetPins))
    (hloop : Cpp.RefTrace.traceLoop limit .construct (simulatorBus rom ram gpioInput) =
      .ok (records, cpu, bus)) (hdone : (cpu.halted || cpu.faulted) = true)
    (hs : (System.run (fun _ => gpioInput) resetPins powerUp t).Stopped) :
    Boundary records cpu bus gpioInput (System.run (fun _ => gpioInput) resetPins powerUp) t := by
  -- the loop that goes with this cycle has stopped too, so it is the same
  obtain ⟨limit', records', cpu', bus', hloop', h'⟩ := exists_limit himage hs
  have hdone' : (cpu'.halted || cpu'.faulted) = true := by
    rw [← h'.halted, ← h'.faulted]
    rcases hs with hs | hs <;> simp [Rtl.CpuCore.halted, Rtl.CpuCore.faulted, hs]
  cases Cpp.RefTrace.traceLoop_unique hdone hdone' hloop hloop'
  exact h'

/-- The RTL stops in the cycle that the trace of a stopped loop says. -/
theorem stopped_iff (hdone : (cpu.halted || cpu.faulted) = true)
    (h : Boundary records cpu bus gpioInput (System.run (fun _ => gpioInput) resetPins powerUp) t)
    (t' : ℕ) :
    (System.run (fun _ => gpioInput) resetPins powerUp t').Stopped ↔
      boundaryCycle records cpu ≤ t' := by
  have hs : (System.run (fun _ => gpioInput) resetPins powerUp t).Stopped := by
    rw [← h.halted, ← h.faulted] at hdone
    simpa [System.Stopped, Rtl.CpuCore.halted, Rtl.CpuCore.faulted] using hdone
  rw [(System.metered (fun _ => gpioInput) resetPins powerUp).stopped_iff hs,
    System.meter_of_stopped _ _ _ hs, h.cycles]

/-- A terminal boundary is there in the first terminal cycle. -/
theorem boundary_of_stopped (himage : SameImage rom ram (powerUp.clock true resetPins))
    (hloop : Cpp.RefTrace.traceLoop limit .construct (simulatorBus rom ram gpioInput) =
      .ok (records, cpu, bus))
    (h : Boundary records cpu bus gpioInput (System.run (fun _ => gpioInput) resetPins powerUp) t)
    (hs : (System.run (fun _ => gpioInput) resetPins powerUp t).Stopped) :
    Boundary records cpu bus gpioInput (System.run (fun _ => gpioInput) resetPins powerUp)
      (boundaryCycle records cpu) := by
  have hdone : (cpu.halted || cpu.faulted) = true := by
    rw [← h.halted, ← h.faulted]
    rcases hs with hs | hs <;> simp [Rtl.CpuCore.halted, Rtl.CpuCore.faulted, hs]
  exact boundary_of_terminal himage hloop hdone ((stopped_iff hdone h _).mpr (Nat.le_refl _))

/-- The boundary is in that cycle. -/
theorem boundary_timed (himage : SameImage rom ram (powerUp.clock true resetPins))
    (hloop : Cpp.RefTrace.traceLoop limit .construct (simulatorBus rom ram gpioInput) =
      .ok (records, cpu, bus)) :
    Boundary records cpu bus gpioInput (System.run (fun _ => gpioInput) resetPins powerUp)
      (boundaryCycle records cpu) := by
  obtain ⟨t, hboundary, ht⟩ := exists_settled himage hloop
  rcases ht with rfl | hretired | hs
  · have hcycles := hboundary.cycles
    have hzero : boundaryCycle records cpu = 0 := by
      rw [← hcycles]
      rfl
    rw [hzero]
    exact hboundary
  · obtain ⟨p, hp⟩ := Option.isSome_iff_exists.mp hretired
    rw [boundaryCycle_of_retired hboundary hp]
    exact hboundary
  · exact boundary_of_stopped himage hloop hboundary hs

variable (gpioInput) in
/-- **Cycle-exact lockstep.**  Over the same ROM image and RAM contents, with constant
pins: wherever the trace loop of the simulator ends, the RTL is at the same boundary
after the cycles of the records and of the fault, if there is one. -/
theorem lockstep_timed (himage : SameImage rom ram (powerUp.clock true resetPins)) (limit : ℕ) :
    ∃ records cpu bus,
      Cpp.RefTrace.traceLoop limit .construct (simulatorBus rom ram gpioInput) =
          .ok (records, cpu, bus) ∧
        Boundary records cpu bus gpioInput (System.run (fun _ => gpioInput) resetPins powerUp)
          (boundaryCycle records cpu) ∧
        (cpu.halted = true → ∀ t,
          (System.run (fun _ => gpioInput) resetPins powerUp t).cpu.halted = true ↔
            boundaryCycle records cpu ≤ t) ∧
        (cpu.faulted = true → ∀ t,
          (System.run (fun _ => gpioInput) resetPins powerUp t).cpu.faulted = true ↔
            boundaryCycle records cpu ≤ t) := by
  obtain ⟨records, cpu, bus, hloop, -⟩ := exists_cycle himage gpioInput limit
  have hboundary := boundary_timed himage hloop
  have hcycles := hboundary.cycles
  refine ⟨records, cpu, bus, hloop, hboundary, fun hh t => ?_, fun hf t => ?_⟩
  · have hh' := hboundary.halted.trans hh
    have hf' : cpu.faulted = false := by
      cases hm : cpu.microstate <;> simp_all [Cpp.CpuCore.halted, Cpp.CpuCore.faulted]
    rw [hboundary.faulted, hf'] at hcycles
    rw [← hcycles]
    exact System.halted_iff _ _ _ hh' t
  · have hf' := hboundary.faulted.trans hf
    rw [if_pos hf'] at hcycles
    rw [← hcycles]
    exact System.faulted_iff _ _ _ hf' t

/-- `ADDI r1, r0, 5` at address zero: `r1` holds 5 in cycle 6. -/
theorem lockstep_timed_addi :
    (System.run (fun _ => 0) 0 (loaded Cpp.CpuCore.addiRom .fresh) 6).cpu.registers 1 = 5 := by
  have himage := (sameImage_loaded Cpp.CpuCore.addiRom .fresh).reset 0 rfl
  obtain ⟨records, cpu, bus, hloop, hboundary, -, -⟩ := lockstep_timed 0 himage 1
  have hrun : (Cpp.RefTrace.traceLoop 1 .construct
      (simulatorBus Cpp.CpuCore.addiRom .fresh 0)).map
        (fun r => (boundaryCycle r.1 r.2.1, r.2.1.registers.registers 1)) = .ok (6, 5) := by rfl
  rw [hloop] at hrun
  obtain ⟨hcycle, hregister⟩ := Prod.mk.inj (Except.ok.inj hrun)
  have hregisters := hboundary.registers 1 (by decide)
  rw [hcycle, hregister] at hregisters
  exact hregisters

end System

end Mini32.Lockstep
