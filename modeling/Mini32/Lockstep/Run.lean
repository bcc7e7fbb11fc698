import Mini32.Lockstep.Boundary
import Mathlib.Data.List.Forall2

/-!
# Simulator and RTL in lockstep

Whole runs from reset.  `traceLoop_follows` repeats `boundary_step` along the loop of
the reference trace, over the core with an immediate bus; `lockstep` carries the
result to the clocked system, of which that core is a quotient.

A boundary of the run is compared in everything there is: records, registers,
memories, devices, the bytes sent, and the fault ports.

## The clocked system

`immediate` is the machine over the immediate bus as which the system starts.  A boundary of
that machine is one of the system in the cycle in which the bus is idle again, since then the
memory of the blocks is the abstract one (`boundary_of_agree`).  For every limit of
the trace loop there is such a cycle (`exists_cycle`), and every halt or fault of the RTL is
reached with some limit (`exists_limit`).
-/

namespace Mini32.Lockstep

open Rtl (SystemBus RetirePort Bench System)

/-! ## Runs of the core over an immediate bus -/

section Immediate

/-- `n` cycles from `u` to `u'` go with what the trace loop did. -/
structure Tracks (u : Bench.Immediate) (limit : ℕ) (records : List Cpp.RetireRecord)
    (cpu : Cpp.CpuCore) (bus : Cpp.Bus) (n : ℕ) (events : List RetirePort)
    (u' : Bench.Immediate) : Prop where
  emits : Clocked.Emits Bench.immediateStep (·.client.retired) n u events u'
  agree : AgreeAt cpu bus u'
  records : List.Forall₂ Matches records events
  settled : n = 0 ∨ Settled u'
  progress : cpu.halted = true ∨ cpu.faulted = true ∨ limit ≤ n

/-- A loop that made fewer iterations than it was given ended in a terminal state. -/
theorem Tracks.terminal {u u' : Bench.Immediate} {limit n : ℕ} {records : List Cpp.RetireRecord}
    {cpu : Cpp.CpuCore} {bus : Cpp.Bus} {events : List RetirePort}
    (h : Tracks u limit records cpu bus n events u')
    (hn : n < limit ∨ u'.client.state = .halted ∨ u'.client.state = .fault) :
    u'.client.state = .halted ∨ u'.client.state = .fault := by
  rcases hn with hlt | hdone
  · rcases h.agree.state with ⟨hm, -⟩ | ⟨-, hs⟩ | ⟨-, hs, -⟩
    · rcases h.progress with hend | hend | hend
      · simp [Cpp.CpuCore.halted, hm] at hend
      · simp [Cpp.CpuCore.faulted, hm] at hend
      · omega
    · exact Or.inl hs
    · exact Or.inr hs
  · exact hdone

/-- **The run lemma**: the loop, from any boundary, for any number of iterations. -/
theorem traceLoop_follows (limit : ℕ) (cpu : Cpp.CpuCore) (bus : Cpp.Bus) (u : Bench.Immediate)
    (h : AgreeAt cpu bus u) :
    ∃ records cpu' bus',
      Cpp.RefTrace.traceLoop limit cpu bus = .ok (records, cpu', bus') ∧
        ∃ n events u', Tracks u limit records cpu' bus' n events u' := by
  induction limit generalizing cpu bus u with
  | zero =>
      exact ⟨[], cpu, bus, rfl, 0, [], u, Clocked.Emits.refl u, h, List.Forall₂.nil,
        Or.inl rfl, Or.inr (Or.inr (Nat.le_refl 0))⟩
  | succ limit ih =>
      cases hstop : cpu.halted || cpu.faulted with
      | true =>
          refine ⟨[], cpu, bus, by simp [Cpp.RefTrace.traceLoop, hstop], 0, [], u,
            Clocked.Emits.refl u, h, List.Forall₂.nil, Or.inl rfl, ?_⟩
          simpa [or_assoc] using Or.inl (b := limit + 1 ≤ 0) (Bool.or_eq_true _ _ ▸ hstop)
      | false =>
          have hm : cpu.microstate = .fetch := by
            rcases h.state with ⟨hm, -⟩ | ⟨hm, -⟩ | ⟨hm, -⟩
            · exact hm
            · simp [Cpp.CpuCore.halted, hm] at hstop
            · simp [Cpp.CpuCore.faulted, hm] at hstop
          -- one iteration, then the induction hypothesis from the boundary it reaches
          obtain ⟨record, cpu₁, bus₁, u₁, htrace, hpath, hagree₁, hsettled₁, hmatch⟩ :=
            boundary_step hm h
          obtain ⟨k, hk, hemits₁⟩ := Clocked.Reaches.emits hpath
          obtain ⟨records, cpu', bus', hloop, n, events, u', htracks⟩ := ih cpu₁ bus₁ u₁ hagree₁
          refine ⟨record.toList ++ records, cpu', bus', ?_, k + n, _, u',
            hemits₁.trans htracks.emits, htracks.agree, List.rel_append hmatch htracks.records,
            ?_, ?_⟩
          · simp [Cpp.RefTrace.traceLoop, hstop, htrace, hloop, bind, Except.bind, pure,
              Except.pure]
          · rcases htracks.settled with rfl | hsettled
            · have hsame : u₁ = u' := htracks.emits.reaches
              exact Or.inr (hsame ▸ hsettled₁)
            · exact Or.inr hsettled
          · rcases htracks.progress with hend | hend | hend
            · exact Or.inl hend
            · exact Or.inr (Or.inl hend)
            · exact Or.inr (Or.inr (by omega))

/-- From a terminal boundary on nothing is emitted and agreement stays. -/
theorem rests {u : Bench.Immediate} (hm : u.client.state = .halted ∨ u.client.state = .fault)
    (n : ℕ) :
    Clocked.Emits Bench.immediateStep (·.client.retired) n u [] (Bench.immediateStep^[n] u) ∧
      (Bench.immediateStep^[n] u).client.state = u.client.state ∧
      ∀ cpu bus, AgreeAt cpu bus (Bench.immediateStep^[n] u) ↔ AgreeAt cpu bus u := by
  induction n with
  | zero => exact ⟨Clocked.Emits.refl u, rfl, fun _ _ => Iff.rfl⟩
  | succ n ih =>
      obtain ⟨hemits, hstate, hagree⟩ := ih
      obtain ⟨hquiet, hstate', hagree'⟩ := boundary_rests (hstate.symm ▸ hm)
      rw [Function.iterate_succ_apply']
      have hsingle := Clocked.Emits.single Bench.immediateStep (·.client.retired)
        (Bench.immediateStep^[n] u)
      rw [hquiet] at hsingle
      exact ⟨hemits.trans hsingle, hstate'.trans hstate,
        fun cpu bus => (hagree' cpu bus).trans (hagree cpu bus)⟩

/-- Two terminal states of one run are the same boundary. -/
theorem terminal_unique {u : Bench.Immediate} {j n : ℕ} (hle : j ≤ n)
    (hj : (Bench.immediateStep^[j] u).client.state = .halted ∨
      (Bench.immediateStep^[j] u).client.state = .fault) :
    Clocked.log (·.client.retired) (Bench.immediateStep^[·] u) (n + 1) =
        Clocked.log (·.client.retired) (Bench.immediateStep^[·] u) (j + 1) ∧
      (Bench.immediateStep^[n] u).client.state = (Bench.immediateStep^[j] u).client.state ∧
      ∀ cpu bus, AgreeAt cpu bus (Bench.immediateStep^[n] u) ↔
        AgreeAt cpu bus (Bench.immediateStep^[j] u) := by
  obtain ⟨k, rfl⟩ := Nat.exists_eq_add_of_le hle
  obtain ⟨hemits, hstate, hagree⟩ := rests hj k
  rw [Nat.add_comm j k, Function.iterate_add_apply]
  refine ⟨?_, hstate, hagree⟩
  -- the `k` cycles after the first terminal state add nothing to the log
  rw [show k + j + 1 = (j + 1) + k by omega, Clocked.log_add]
  refine (congrArg (_ ++ ·) ?_).trans (List.append_nil _)
  rw [← hemits.log]
  congr 1
  funext i
  rw [← Function.iterate_add_apply]
  congr 1
  omega

end Immediate

/-! ## The clocked system -/

/-- A simulator bus with fresh devices. -/
def simulatorBus (rom : Cpp.Rom) (ram : Cpp.Ram) (gpioInput : Word) : Cpp.Bus :=
  { Cpp.Bus.fresh rom gpioInput with ram }

/-- The system holds the same ROM image and the same RAM contents, word by word. -/
structure SameImage (rom : Cpp.Rom) (ram : Cpp.Ram) (s : System) : Prop where
  rom : ∀ i, rom.read32 (Isa.wordAddress Cpp.Rom.kBaseAddress i) = .ok (s.bus.rom.memory i)
  ram : ∀ i, ram.read32 (Isa.wordAddress Cpp.Ram.kBaseAddress i) = .ok (s.bus.ram.memory i)

/-- The reset edge leaves the image, if no store is under way. -/
theorem SameImage.reset {rom : Cpp.Rom} {ram : Cpp.Ram} {powerUp : System}
    (h : SameImage rom ram powerUp) (resetPins : Word)
    (hquiet : powerUp.bus.ramWriteEnable = false) :
    SameImage rom ram (powerUp.clock true resetPins) where
  rom i := by
    rw [h.rom i]
    simp [System.clock, SystemBus.clock]
  ram i := by
    rw [h.ram i]
    simp [System.clock, SystemBus.clock, Rtl.Ram.clock, hquiet]

/-- The fault ports say what the fault information says, up to the code of a fetch
from the reserved STM32 window. -/
structure FaultsAgree (p : Rtl.FaultPort) (info : FaultInfo) : Prop where
  pc : p.pc = info.pc
  instruction : p.instruction = info.instruction
  addressValid : p.addressValid = info.dataAddress.isSome
  address : p.addressValid = true → info.dataAddress = some p.address
  code : p.code = if InStm32Window info.pc then .nonExecutableInstructionFetch else info.code
  window : InStm32Window info.pc → info.code = .unmappedInstructionFetch

/-- The fault of the RTL, from the fault information. -/
theorem faultsAgree_of_info {p : Rtl.FaultPort} {info : FaultInfo} (h : p.info = rtlFault info)
    (hw : InStm32Window info.pc → info.code = .unmappedInstructionFetch) :
    FaultsAgree p info := by
  obtain ⟨hcode, hpc, hinstruction, haddress⟩ := FaultInfo.mk.inj h
  refine ⟨hpc, hinstruction, ?_, fun hvalid => ?_, hcode, hw⟩
  · rw [← haddress]
    cases p.addressValid <;> rfl
  · rw [← haddress, if_pos hvalid]

/-- What is compared at a boundary: after the trace loop has done `records` and left
`cpu` and `bus`, and in cycle `t` of the system. -/
structure Boundary (records : List Cpp.RetireRecord) (cpu : Cpp.CpuCore) (bus : Cpp.Bus)
    (gpioInput : Word) (s : ℕ → System) (t : ℕ) : Prop where
  count : records.length = cpu.retiredInstructions
  records : List.Forall₂ Matches records (Clocked.log (·.cpu.retired) s (t + 1))
  pc : (s t).cpu.pc = cpu.pc
  registers : ∀ r ≠ 0, (s t).cpu.registers r = cpu.registers.registers r
  ram : ∀ i, bus.ram.read32 (Isa.wordAddress Cpp.Ram.kBaseAddress i) =
    .ok ((s t).bus.ram.memory i)
  halted : (s t).cpu.halted = cpu.halted
  faulted : (s t).cpu.faulted = cpu.faulted
  fault : cpu.faulted = true → FaultsAgree (s t).cpu.fault cpu.faultInfo
  /-- The Timer of the RTL takes a retirement one edge later. -/
  devices : (Bench.busEnv SystemBus.busModel).after (s t).cpu.retired
    ((s t).bus.memory (System.transcript s t) gpioInput) = bus.memory

section System

variable {rom : Cpp.Rom} {ram : Cpp.Ram} {gpioInput : Word}

/-- The immediate machine a system starts as. -/
def immediate (gpioInput : Word) (x : Bench) : Bench.Immediate :=
  ⟨x.system.cpu, x.memory gpioInput⟩

/-- After reset, simulator and system are at a boundary. -/
theorem agree_start (gpioInput : Word) {resetPins : Word} {powerUp : System}
    (h : SameImage rom ram (powerUp.clock true resetPins)) :
    AgreeAt .construct (simulatorBus rom ram gpioInput)
      (immediate gpioInput (Bench.start resetPins powerUp)) where
  arch := by
    simp only [Rtl.CpuCore.arch, Cpp.CpuCore.arch]
    congr 1
    funext r
    by_cases hr : r = 0#5 <;> simp [immediate, Bench.start, System.clock, Rtl.CpuCore.clock, hr,
      Rtl.CpuCore.resetState, Rtl.CpuCore.readRegister, Cpp.CpuCore.construct, Cpp.CpuCore.reset,
      Cpp.RegisterFile.reset]
  memory := by
    have hrom : (powerUp.clock true resetPins).bus.rom.memory =
        (simulatorBus rom ram gpioInput).memory.rom := by
      funext i
      exact Except.ok.inj ((h.rom i).symm.trans (Cpp.Bus.rom_read32_word rom i))
    have hram : (powerUp.clock true resetPins).bus.ram.memory =
        (simulatorBus rom ram gpioInput).memory.ram := by
      funext i
      exact Except.ok.inj ((h.ram i).symm.trans (Cpp.Bus.ram_read32_word ram i))
    change Bench.memory gpioInput (Bench.start resetPins powerUp) = _
    simp only [Bench.memory, SystemBus.memory, Bench.start, hrom, hram]
    rfl
  state := Or.inl ⟨rfl, rfl⟩

/-- A settled state of the immediate machine is met by an idle bus. -/
theorem idle_of_settled {x : Bench} {u : Bench.Immediate} (h : Bench.Follows gpioInput x u)
    (hemit : x.system.cpu.retired = u.client.retired) (hu : Settled u) :
    x.system.cpu = u.client ∧ x.memory gpioInput = u.env := by
  rcases Bench.follows_idle_or_waiting h with hidle | ⟨hq, hcpu⟩
  · exact hidle
  · -- while it waits, the core has a request and its pulses are low
    rcases hu with hu | hu
    · rw [← hemit, hcpu] at hu
      cases hu
    · rw [hu] at hq
      cases hq

/-- So is a terminal state of the system. -/
theorem idle_of_terminal {x : Bench} {u : Bench.Immediate} (h : Bench.Follows gpioInput x u)
    (hx : x.system.cpu.state = .halted ∨ x.system.cpu.state = .fault) :
    x.system.cpu = u.client ∧ x.memory gpioInput = u.env := by
  rcases Bench.follows_idle_or_waiting h with hidle | ⟨hq, hcpu⟩
  · exact hidle
  · have hu : u.client.state = .halted ∨ u.client.state = .fault := by
      rwa [hcpu] at hx
    rcases hu with hu | hu <;> simp [Rtl.CpuCore.request, Rtl.CpuCore.busValid, hu] at hq

/-- A retirement tick leaves the RAM. -/
theorem after_ram (retired : Option RetirePort) (m : Isa.Memory) :
    ((Bench.busEnv SystemBus.busModel).after retired m).ram = m.ram := by
  cases retired with
  | none => rfl
  | some p =>
      change (Isa.Memory.retireTick m).ram = m.ram
      unfold Isa.Memory.retireTick
      split <;> rfl

/-- Where the immediate machine agrees and the bus is idle, the run is at a boundary. -/
theorem boundary_of_agree {resetPins : Word} {powerUp : System} {t : ℕ} {u : Bench.Immediate}
    {records : List Cpp.RetireRecord} {events : List RetirePort} {cpu : Cpp.CpuCore}
    {bus : Cpp.Bus} (hagree : AgreeAt cpu bus u) (hcount : records.length = cpu.retiredInstructions)
    (hrecords : List.Forall₂ Matches records events)
    (hlog : Clocked.log (·.cpu.retired) (System.run (fun _ => gpioInput) resetPins powerUp)
      (t + 1) = events)
    (hcpu : (System.run (fun _ => gpioInput) resetPins powerUp t).cpu = u.client)
    (hmem : ((Bench.clock gpioInput)^[t] (Bench.start resetPins powerUp)).memory gpioInput =
      u.env) :
    Boundary records cpu bus gpioInput (System.run (fun _ => gpioInput) resetPins powerUp) t := by
  have hpc : u.client.pc = cpu.pc := congrArg Isa.ArchState.pc hagree.arch
  have hregs : u.client.readRegister = cpu.registers.registers :=
    congrArg Isa.ArchState.regs hagree.arch
  rw [Bench.memory, Bench.run_system, Bench.run_transcript] at hmem
  -- the registers of the blocks are those of the simulator, the RAM among them
  have hdevices : (Bench.busEnv SystemBus.busModel).after u.client.retired
      ((System.run (fun _ => gpioInput) resetPins powerUp t).bus.memory
        (System.transcript (System.run (fun _ => gpioInput) resetPins powerUp) t) gpioInput) =
      bus.memory := by
    rw [hmem]
    exact hagree.memory
  have hram := congrArg Isa.Memory.ram hdevices
  rw [after_ram] at hram
  refine ⟨hcount, hlog ▸ hrecords, hcpu ▸ hpc, fun r hr => ?_, fun i => ?_, ?_, ?_, ?_, ?_⟩
  · rw [hcpu, ← hregs, Rtl.CpuCore.readRegister, if_neg hr]
  · rw [Cpp.Bus.ram_read32_word]
    exact congrArg Except.ok (congrFun hram i).symm
  · rw [hcpu]
    rcases hagree.state with ⟨hm, hs⟩ | ⟨hm, hs⟩ | ⟨hm, hs, -⟩ <;>
      simp [Rtl.CpuCore.halted, Cpp.CpuCore.halted, hm, hs]
  · rw [hcpu]
    rcases hagree.state with ⟨hm, hs⟩ | ⟨hm, hs⟩ | ⟨hm, hs, -⟩ <;>
      simp [Rtl.CpuCore.faulted, Cpp.CpuCore.faulted, hm, hs]
  · intro hfaulted
    rcases hagree.state with ⟨hm, -⟩ | ⟨hm, -⟩ | ⟨-, -, hinfo, hw⟩
    · simp [Cpp.CpuCore.faulted, hm] at hfaulted
    · simp [Cpp.CpuCore.faulted, hm] at hfaulted
    · exact faultsAgree_of_info (hcpu ▸ hinfo) hw
  · rw [hcpu]
    exact hdevices

/-- The system and the immediate machine start together. -/
theorem follows_start (resetPins : Word) (powerUp : System) :
    Bench.Follows gpioInput (Bench.start resetPins powerUp)
      (immediate gpioInput (Bench.start resetPins powerUp)) :=
  (Bench.follows_idle rfl).mpr ⟨rfl, rfl⟩

/-- The retirements of a run of the system. -/
theorem log_run (resetPins : Word) (powerUp : System) (n : ℕ) :
    Clocked.log (·.cpu.retired) (System.run (fun _ => gpioInput) resetPins powerUp) n =
      Clocked.log (·.system.cpu.retired)
        ((Bench.clock gpioInput)^[·] (Bench.start resetPins powerUp)) n := by
  simp only [Clocked.log, Bench.run_system]

section Lockstep

variable {resetPins : Word} {powerUp : System}
  (himage : SameImage rom ram (powerUp.clock true resetPins))

theorem traceLoop_count {limit : ℕ} {records : List Cpp.RetireRecord} {cpu : Cpp.CpuCore}
    {bus : Cpp.Bus} (hloop : Cpp.RefTrace.traceLoop limit .construct
      (simulatorBus rom ram gpioInput) = .ok (records, cpu, bus)) :
    records.length = cpu.retiredInstructions := by
  obtain ⟨_, _, _, hloop', hlogs⟩ := Cpp.RefTrace.traceLoop_logs limit .construct
    (simulatorBus rom ram gpioInput) (Or.inl rfl)
  cases hloop.symm.trans hloop'
  exact (hlogs.count.trans (Nat.zero_add _)).symm

include himage

/-- Every boundary of the simulator is one of the system. -/
theorem exists_cycle (gpioInput : Word) (limit : ℕ) :
    ∃ records cpu bus,
      Cpp.RefTrace.traceLoop limit .construct (simulatorBus rom ram gpioInput) =
          .ok (records, cpu, bus) ∧
        ∃ t, Boundary records cpu bus gpioInput
          (System.run (fun _ => gpioInput) resetPins powerUp) t := by
  obtain ⟨records, cpu, bus, hloop, n, events, u', htracks⟩ :=
    traceLoop_follows limit .construct _ _ (agree_start gpioInput himage)
  have hcount := traceLoop_count hloop
  refine ⟨records, cpu, bus, hloop, ?_⟩
  -- before the first iteration the system is in its reset state
  rcases htracks.settled with rfl | hsettled
  · obtain rfl := htracks.emits.reaches
    exact ⟨0, boundary_of_agree htracks.agree hcount htracks.records htracks.emits.log rfl rfl⟩
  · obtain ⟨t, x, hemits, hx, hemit⟩ := (Bench.follows_stutters gpioInput).emits
      (follows_start resetPins powerUp) rfl htracks.emits
    obtain ⟨hcpu, hmem⟩ := idle_of_settled hx hemit hsettled
    obtain rfl := hemits.reaches
    refine ⟨t, boundary_of_agree htracks.agree hcount htracks.records ?_ ?_ hmem⟩
    · rw [log_run, hemits.log_succ]
      rfl
    · rw [← Bench.run_system]
      exact hcpu

/-- A terminal state of the system is a boundary of the simulator. -/
theorem exists_limit {t : ℕ}
    (ht : (System.run (fun _ => gpioInput) resetPins powerUp t).cpu.state = .halted ∨
      (System.run (fun _ => gpioInput) resetPins powerUp t).cpu.state = .fault) :
    ∃ limit records cpu bus,
      Cpp.RefTrace.traceLoop limit .construct (simulatorBus rom ram gpioInput) =
          .ok (records, cpu, bus) ∧
        Boundary records cpu bus gpioInput
          (System.run (fun _ => gpioInput) resetPins powerUp) t := by
  rw [← Bench.run_system] at ht
  -- the immediate machine takes `j` steps to the system's `t`
  obtain ⟨j, hj, hlog⟩ := (Bench.follows_stutters gpioInput).log_of_concrete
    (follows_start resetPins powerUp) rfl t
  obtain ⟨hcpu, hmem⟩ := idle_of_terminal hj ht
  rw [hcpu] at ht
  obtain ⟨records, cpu, bus, hloop, n, events, u', htracks⟩ :=
    traceLoop_follows j .construct _ _ (agree_start gpioInput himage)
  obtain rfl := htracks.emits.reaches
  have hevents := htracks.emits.log_succ
  -- the loop got as far as the system, or it had stopped before
  have hsame : Clocked.log (·.client.retired) (Bench.immediateStep^[·]
        (immediate gpioInput (Bench.start resetPins powerUp))) (j + 1) = events ∧
      AgreeAt cpu bus (Bench.immediateStep^[j]
        (immediate gpioInput (Bench.start resetPins powerUp))) := by
    rcases Nat.le_total j n with hle | hle
    · obtain ⟨hlogs, -, hagree⟩ := terminal_unique hle ht
      exact ⟨hlogs.symm.trans hevents, (hagree cpu bus).mp htracks.agree⟩
    · have hn := htracks.terminal (hle.lt_or_eq.imp_right fun (h : n = j) => h ▸ ht)
      obtain ⟨hlogs, -, hagree⟩ := terminal_unique hle hn
      exact ⟨hlogs.trans hevents, (hagree cpu bus).mpr htracks.agree⟩
  refine ⟨j, records, cpu, bus, hloop, boundary_of_agree hsame.2 (traceLoop_count hloop)
    htracks.records ?_ ?_ hmem⟩
  · rw [log_run, hlog, hsame.1]
  · rw [← Bench.run_system]
    exact hcpu

end Lockstep

variable (rom ram gpioInput) in
/-- **Lockstep.**  Over the same ROM image and RAM contents, with constant pins:
every number of iterations of the reference trace has a cycle of the system at the
same boundary, and every terminal state of the system is one of the simulator. -/
theorem lockstep (resetPins : Word) (powerUp : System)
    (himage : SameImage rom ram (powerUp.clock true resetPins)) :
    (∀ limit, ∃ records cpu bus,
      Cpp.RefTrace.traceLoop limit .construct (simulatorBus rom ram gpioInput) =
          .ok (records, cpu, bus) ∧
        ∃ t, Boundary records cpu bus gpioInput
          (System.run (fun _ => gpioInput) resetPins powerUp) t) ∧
    ∀ t, (System.run (fun _ => gpioInput) resetPins powerUp t).cpu.halted = true ∨
        (System.run (fun _ => gpioInput) resetPins powerUp t).cpu.faulted = true →
      ∃ limit records cpu bus,
        Cpp.RefTrace.traceLoop limit .construct (simulatorBus rom ram gpioInput) =
            .ok (records, cpu, bus) ∧
          Boundary records cpu bus gpioInput
            (System.run (fun _ => gpioInput) resetPins powerUp) t :=
  ⟨exists_cycle himage gpioInput, fun t ht => exists_limit himage (by
    simpa [Rtl.CpuCore.halted, Rtl.CpuCore.faulted] using ht)⟩

/-- A system at power-up: an image in the memories, zeros everywhere else. -/
def loaded (rom : Cpp.Rom) (ram : Cpp.Ram) : System where
  cpu :=
    { state := .fetch, pc := 0, instructionRegister := 0, operandLhsLatch := 0,
      operandRhsLatch := 0, aluResultLatch := 0, storeDataLatch := 0, memoryDataLatch := 0,
      nextPcLatch := 0, registers := fun _ => 0, fault := ⟨.none, 0, 0, false, 0⟩,
      retire := ⟨false, 0, 0, 0, false, 0, 0, false, 0, 0⟩ }
  bus :=
    { state := .idle, pendingAccess := .fetch, pendingAddr := 0, pendingWdata := 0
      rom := ⟨fun i => ByteStore.readWord rom.bytes (4 * i.toNat), 0⟩
      ram := ⟨fun i => ByteStore.readWord ram.bytes (4 * i.toNat), 0⟩
      uart := ⟨0, false, 0⟩, timer := ⟨0, 0, 0, false⟩, gpio := ⟨0, 0, 0⟩, debug := ⟨0, 0⟩ }

/-- The system was loaded with the simulator's image. -/
theorem sameImage_loaded (rom : Cpp.Rom) (ram : Cpp.Ram) : SameImage rom ram (loaded rom ram) :=
  ⟨Cpp.Bus.rom_read32_word rom, Cpp.Bus.ram_read32_word ram⟩

/-- `ADDI r1, r0, 5` at address zero: in some cycle the system has retired once and
holds 5 in `r1`. -/
theorem lockstep_addi : ∃ t,
    (Clocked.log (·.cpu.retired)
      (System.run (fun _ => 0) 0 (loaded Cpp.CpuCore.addiRom .fresh)) (t + 1)).length = 1 ∧
    (System.run (fun _ => 0) 0 (loaded Cpp.CpuCore.addiRom .fresh) t).cpu.registers 1 = 5 := by
  have himage := (sameImage_loaded Cpp.CpuCore.addiRom .fresh).reset 0 rfl
  obtain ⟨records, cpu, bus, hloop, t, hboundary⟩ :=
    (lockstep Cpp.CpuCore.addiRom .fresh 0 0 _ himage).1 1
  have hrun : (Cpp.RefTrace.traceLoop 1 .construct
      (simulatorBus Cpp.CpuCore.addiRom .fresh 0)).map
        (fun r => (r.1.length, r.2.1.registers.registers 1)) = .ok (1, 5) := by rfl
  rw [hloop] at hrun
  obtain ⟨hlength, hregister⟩ := Prod.mk.inj (Except.ok.inj hrun)
  refine ⟨t, hboundary.records.length_eq.symm.trans hlength, ?_⟩
  rw [hboundary.registers 1 (by decide)]
  exact hregister

end System

end Mini32.Lockstep
