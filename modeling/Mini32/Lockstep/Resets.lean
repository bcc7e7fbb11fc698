import Mini32.Lockstep.Timing

/-!
# Resets in any cycle

A reset of the RTL clears the core and the registers of the blocks, but it leaves the RAM,
and it may come in the middle of an instruction.  The simulator knows no such thing: it
is started on a RAM and stopped between two instructions.  This module says what a reset
is in its terms.

A store is made in one edge, the one behind `BUS_MEMORY`, and with the answer to it the core
retires.  So the RAM of the RTL is in every cycle the RAM of the simulator after a whole
number of instructions (`exists_ram`), and the number is known: it is that of the
retirements, and one more in the one cycle in which a store is in the RAM and the core
is just being told (`answered`).  A reset edge makes a store that is under way as any other
edge does, so what a reset finds is the RAM after the retirements and after a store
`underWay` (`sameImage_interrupted`).

`Started` puts the runs together: with every cycle goes a run of the simulator, which a reset
stops, and starts again on the RAM it left.  `resets_lockstep` is the result.  No store is
torn, lost or made twice, and between two resets the lockstep of `Lockstep.Timing` holds as
if there had never been a reset before.
-/

namespace Mini32.Lockstep

open Rtl (SystemBus RetirePort Bench System)

/-! ## One cycle -/

/-- Only a store that is taken changes what is behind the bus. -/
theorem answer_unwritten {q : Rtl.Request} {m : Isa.Memory}
    (h : ¬ (q.access = .write ∧ (SystemBus.answer SystemBus.busModel q m).1.fault = none)) :
    (SystemBus.answer SystemBus.busModel q m).2 = m := by
  unfold SystemBus.answer at h ⊢
  split
  · split <;> rfl
  · split <;> rfl
  · next hwrite =>
      split
      · next hstore => simp [hwrite, hstore] at h
      · rfl

/-- A store that completes retires. -/
theorem retired_of_write {c : Rtl.CpuCore} {q : Rtl.Request} (hq : c.request = some q)
    (hwrite : q.access = .write) {r : Rtl.Response} (hr : r.fault = none) :
    (c.clock false true r).retired ≠ none := by
  obtain ⟨hs, hstore⟩ : c.state = .memory ∧ c.control.memoryOperation = .store := by
    simp only [Rtl.CpuCore.request, Rtl.CpuCore.busAccess] at hq
    split_ifs at hq with hvalid hfetch hmemory hop <;> simp_all [← Option.some.inj hq]
  simp only [Rtl.CpuCore.clock, hs, hstore, Rtl.CpuCore.retired, hr]
  simp [Rtl.CpuCore.recordRetirement]

/-- **A cycle in which nothing retires leaves the RAM.** -/
theorem ram_of_quiet {u : Bench.Immediate}
    (h : (Bench.immediateStep u).client.retired = none) :
    (Bench.immediateStep u).env.ram = u.env.ram := by
  have htold : (Bench.told u).ram = u.env.ram := after_ram _ _
  cases hq : u.client.request with
  | none => rw [Bench.immediateStep_idle hq, htold]
  | some q =>
      rw [Bench.immediateStep_request hq] at h ⊢
      rw [← htold]
      refine congrArg Isa.Memory.ram (answer_unwritten ?_)
      rintro ⟨hwrite, hfault⟩
      exact retired_of_write hq hwrite hfault h

/-- Until the next retirement the RAM stays as it is. -/
theorem ram_of_quiets {u v : Bench.Immediate} {k : ℕ}
    (h : Clocked.Emits Bench.immediateStep (·.client.retired) k u [] v) :
    v.env.ram = u.env.ram := by
  obtain ⟨rfl, hlog⟩ := h
  induction k with
  | zero => rfl
  | succ k ih =>
      rw [Clocked.log_succ, List.append_eq_nil_iff, Option.toList_eq_nil_iff] at hlog
      have hquiet := hlog.2
      rw [Function.iterate_succ_apply'] at hquiet ⊢
      rw [ram_of_quiet hquiet, ih hlog.1]

/-! ## One run -/

/-- A boundary that the core reaches without retiring is terminal. -/
theorem terminal_of_quiet {cpu : Cpp.CpuCore} {bus : Cpp.Bus} {u : Bench.Immediate}
    (h : AgreeAt cpu bus u) (hsettled : Settled u) (hquiet : u.client.retired = none) :
    u.client.state = .halted ∨ u.client.state = .fault := by
  have hrequest : u.client.request = none := by
    rcases hsettled with hretired | hrequest
    · rw [hquiet] at hretired
      cases hretired
    · exact hrequest
  rcases h.state with ⟨-, hs⟩ | ⟨-, hs⟩ | ⟨-, hs, -⟩
  · simp [Rtl.CpuCore.request, Rtl.CpuCore.busValid, hs] at hrequest
  · exact Or.inl hs
  · exact Or.inr hs

/-- **RAM between two boundaries.**  In every cycle the RAM is as after as many iterations
of the trace loop as instructions have retired. -/
theorem exists_ram (j : ℕ) {cpu : Cpp.CpuCore} {bus : Cpp.Bus} {u v : Bench.Immediate}
    {events : List RetirePort} (h : AgreeAt cpu bus u)
    (hrun : Clocked.Emits Bench.immediateStep (·.client.retired) j u events v) :
    ∃ records cpu' bus',
      Cpp.RefTrace.traceLoop events.length cpu bus = .ok (records, cpu', bus') ∧
        records.length = events.length ∧ v.env.ram = bus'.memory.ram := by
  induction j using Nat.strong_induction_on generalizing cpu bus u events with
  | h j ih =>
      have hquiet (hnone : Clocked.Emits Bench.immediateStep (·.client.retired) j u [] v) :
          ∃ records cpu' bus',
            Cpp.RefTrace.traceLoop events.length cpu bus = .ok (records, cpu', bus') ∧
              records.length = events.length ∧ v.env.ram = bus'.memory.ram := by
        obtain rfl : events = [] := hrun.log.symm.trans hnone.log
        refine ⟨[], cpu, bus, rfl, rfl, (ram_of_quiets hnone).trans ?_⟩
        exact (after_ram _ _).symm.trans (congrArg Isa.Memory.ram h.memory)
      rcases h.state with ⟨hm, -⟩ | ⟨-, hs⟩ | ⟨-, hs, -⟩
      · obtain ⟨record, cpu₁, bus₁, u₁, htrace, ⟨k, hk, hquiets⟩, hagree₁, hsettled₁, hmatch⟩ :=
          boundary_step hm h
        have hsteps {n : ℕ} (hn : n ≤ k) : ∀ i < n,
            (Bench.immediateStep^[i + 1] u).client.retired = none :=
          fun i hi => hquiets i (Nat.lt_of_lt_of_le hi hn)
        by_cases hj : j ≤ k
        · exact hquiet (hrun.reaches ▸ Clocked.Emits.of_quiets (hsteps hj))
        · -- past the boundary: the rest of the run starts there
          obtain ⟨l, rfl⟩ : ∃ l, j = k + 1 + l := ⟨j - (k + 1), by omega⟩
          have hfirst : Clocked.Emits Bench.immediateStep (·.client.retired) (k + 1) u
              u₁.client.retired.toList u₁ :=
            hk ▸ .of_quiets_succ (hsteps (Nat.le_refl k))
          obtain ⟨rest, rfl, hrest⟩ := hrun.split hfirst
          cases record with
          | none =>
              -- a fault, from which on nothing retires
              have hnone := List.forall₂_nil_left_iff.mp hmatch
              have hlast := rests (terminal_of_quiet hagree₁ hsettled₁
                (Option.toList_eq_nil_iff.mp hnone)) l
              rw [hnone] at hfirst
              exact hquiet (hrest.reaches ▸ hfirst.trans hlast.1)
          | some record =>
              obtain ⟨records, cpu', bus', hloop, hlength, hram⟩ := ih l (by omega) hagree₁ hrest
              have hcount : (u₁.client.retired.toList ++ rest).length = rest.length + 1 := by
                rw [List.length_append, ← hmatch.length_eq, Option.toList_some,
                  List.length_singleton, Nat.add_comm]
              rw [hcount]
              refine ⟨record :: records, cpu', bus', ?_, congrArg (· + 1) hlength, hram⟩
              simp [Cpp.RefTrace.traceLoop, Cpp.CpuCore.halted, Cpp.CpuCore.faulted, hm, htrace,
                hloop, bind, Except.bind, pure, Except.pure]
      · exact hquiet (hrun.reaches ▸ (rests (Or.inl hs) j).1)
      · exact hquiet (hrun.reaches ▸ (rests (Or.inr hs) j).1)

/-- The bus has a store that it takes. -/
def Storing (s : System) : Prop :=
  s.bus.pendingAccess = .write ∧ s.bus.pending.fault = none

instance (s : System) : Decidable (Storing s) := inferInstanceAs (Decidable (_ ∧ _))

/-- One, if the core is being told of a store: the RAM has it already. -/
def answered (s : System) : ℕ := if s.bus.state = .response ∧ Storing s then 1 else 0

/-- One, if a store is under way: the RAM has it after the next edge at the latest. -/
def underWay (s : System) : ℕ := if s.bus.state ≠ .idle ∧ Storing s then 1 else 0

section System

variable {rom : Cpp.Rom} {ram : Cpp.Ram} {gpioInput resetPins : Word} {powerUp : System}

variable (rom gpioInput) in
/-- The simulator, started on the RAM `ram`, has left `ram'` after `n` instructions. -/
def Leaves (n : ℕ) (ram ram' : Cpp.Ram) : Prop :=
  ∃ records cpu bus,
    Cpp.RefTrace.traceLoop n .construct (simulatorBus rom ram gpioInput) =
        .ok (records, cpu, bus) ∧ records.length = n ∧ bus.ram = ram'

/-- How often the core has retired up to the cycle `t`. -/
def retiredCount (s : ℕ → System) (t : ℕ) : ℕ := (Clocked.log (·.cpu.retired) s (t + 1)).length

/-- The words of a RAM are those of the RTL. -/
def SameRam (ram : Cpp.Ram) (s : System) : Prop :=
  ∀ i, ram.read32 (Isa.wordAddress Cpp.Ram.kBaseAddress i) = .ok (s.bus.ram.memory i)

theorem exists_leaves {records : List Cpp.RetireRecord} {cpu : Cpp.CpuCore} {bus : Cpp.Bus}
    {s : System} {n : ℕ}
    (hloop : Cpp.RefTrace.traceLoop n .construct (simulatorBus rom ram gpioInput) =
      .ok (records, cpu, bus)) (hlength : records.length = n)
    (hram : s.bus.ram.memory = bus.memory.ram) :
    ∃ ram', Leaves rom gpioInput n ram ram' ∧ SameRam ram' s := by
  refine ⟨bus.ram, ⟨records, cpu, bus, hloop, hlength, rfl⟩, fun i => ?_⟩
  rw [Cpp.Bus.ram_read32_word, hram]
  rfl

/-- In the cycle in which the bus answers it says whether it has taken a store. -/
theorem storing_iff {x : Bench} {u : Bench.Immediate} (hs : x.system.bus.state = .response)
    (h : Bench.Follows gpioInput x u) : Storing x.system ↔
      x.system.bus.pendingRequest.access = .write ∧
        (SystemBus.answer SystemBus.busModel x.system.bus.pendingRequest (Bench.told u)).1.fault =
          none := by
  obtain ⟨-, -, hagrees, -⟩ := (Bench.follows_response hs).mp h
  rw [← hagrees.1, SystemBus.response, SystemBus.responseFault, if_pos hs]
  rfl

/-- With the next edge the core retires a store, and the RAM has it already. -/
theorem retired_of_storing {x : Bench} {u : Bench.Immediate} (hs : x.system.bus.state = .response)
    (h : Bench.Follows gpioInput x u) (hstoring : Storing x.system) :
    ∃ port, (Bench.immediateStep u).client.retired = some port ∧
      x.system.bus.ram.memory = (Bench.immediateStep u).env.ram := by
  obtain ⟨hwrite, hfault⟩ := (storing_iff hs h).mp hstoring
  obtain ⟨hq, -, -, hmem⟩ := (Bench.follows_response hs).mp h
  rw [Bench.immediateStep_request hq]
  obtain ⟨port, hport⟩ := Option.ne_none_iff_exists'.mp (retired_of_write hq hwrite hfault)
  exact ⟨port, hport, congrArg Isa.Memory.ram hmem⟩

/-- Without one the RAM is that of the last retirement. -/
theorem ram_of_not_storing {x : Bench} {u : Bench.Immediate} (h : Bench.Follows gpioInput x u)
    (hstoring : ¬ (x.system.bus.state = .response ∧ Storing x.system)) :
    x.system.bus.ram.memory = u.env.ram := by
  cases hs : x.system.bus.state with
  | idle =>
      obtain ⟨-, hmem⟩ := (Bench.follows_idle hs).mp h
      exact congrArg Isa.Memory.ram hmem
  | memory =>
      obtain ⟨-, -, hmem⟩ := (Bench.follows_memory hs).mp h
      exact (congrArg Isa.Memory.ram hmem).trans (after_ram _ _)
  | response =>
      obtain ⟨-, -, -, hmem⟩ := (Bench.follows_response hs).mp h
      rw [storing_iff hs h] at hstoring
      refine (congrArg Isa.Memory.ram (hmem.trans (answer_unwritten ?_))).trans (after_ram _ _)
      exact fun htaken => hstoring ⟨hs, htaken⟩

variable (gpioInput resetPins powerUp) in
/-- In every cycle the immediate machine has retired as much. -/
theorem exists_immediate (t : ℕ) : ∃ j u,
    Clocked.Emits Bench.immediateStep (·.client.retired) j
        (immediate gpioInput (Bench.start resetPins powerUp))
        (Clocked.log (·.cpu.retired) (System.run (fun _ => gpioInput) resetPins powerUp) (t + 1))
        u ∧
      Bench.Follows gpioInput ((Bench.clock gpioInput)^[t] (Bench.start resetPins powerUp)) u := by
  obtain ⟨j, hj, hlog⟩ := (Bench.follows_stutters gpioInput).log_of_concrete
    (follows_start resetPins powerUp) rfl t
  rw [← log_run] at hlog
  refine ⟨j, _, ⟨rfl, ?_⟩, hj⟩
  -- out of reset nothing has retired
  rw [hlog, Clocked.log_succ']
  rfl

variable (gpioInput) in
/-- In every cycle of the clocked system too. -/
theorem exists_ram_cycle (himage : SameImage rom ram (powerUp.clock true resetPins)) (t : ℕ) :
    ∃ ram', Leaves rom gpioInput
        (retiredCount (System.run (fun _ => gpioInput) resetPins powerUp) t +
          answered (System.run (fun _ => gpioInput) resetPins powerUp t)) ram ram' ∧
      SameRam ram' (System.run (fun _ => gpioInput) resetPins powerUp t) := by
  obtain ⟨j, u, hrun, hfollows⟩ := exists_immediate gpioInput resetPins powerUp t
  have hagree := agree_start gpioInput himage
  rw [← Bench.run_system]
  generalize (Bench.clock gpioInput)^[t] (Bench.start resetPins powerUp) = x at hfollows
  by_cases hstoring : x.system.bus.state = .response ∧ Storing x.system
  · obtain ⟨port, hport, hram⟩ := retired_of_storing hstoring.1 hfollows hstoring.2
    have hlast := Clocked.Emits.single Bench.immediateStep (·.client.retired) u
    rw [hport] at hlast
    obtain ⟨records, cpu, bus, hloop, hlength, hram'⟩ := exists_ram _ hagree (hrun.trans hlast)
    rw [List.length_append] at hloop hlength
    rw [answered, if_pos hstoring]
    exact exists_leaves hloop hlength (hram.trans hram')
  · obtain ⟨records, cpu, bus, hloop, hlength, hram⟩ := exists_ram _ hagree hrun
    rw [answered, if_neg hstoring]
    exact exists_leaves hloop hlength ((ram_of_not_storing hfollows hstoring).trans hram)

/-- A reset edge makes the store that is under way, as any other edge does. -/
theorem ram_reset (s : System) (pins pins' : Word) :
    (s.clock true pins).bus.ram.memory = (s.clock false pins').bus.ram.memory := by
  simp only [System.clock, SystemBus.clock_ram]
  rfl

/-- The RAM takes a store in the edge behind `BUS_MEMORY` only. -/
theorem ram_of_ne_memory {s : System} (hs : s.bus.state ≠ .memory) (pins : Word) :
    (s.clock true pins).bus.ram.memory = s.bus.ram.memory := by
  rw [ram_reset s pins pins]
  simp [System.clock, Rtl.Ram.clock, SystemBus.ramWriteEnable, SystemBus.issuing, hs]

theorem answered_of_ne_memory {s : System} (hs : s.bus.state ≠ .memory) :
    answered s = underWay s := by
  unfold answered underWay
  cases h : s.bus.state with
  | idle => simp
  | memory => exact absurd h hs
  | response => simp

/-- A store under way is answered in the next cycle. -/
theorem answered_of_memory {s : System} (hs : s.bus.state = .memory) (pins : Word) :
    (s.clock false pins).bus.state = .response ∧
      answered (s.clock false pins) = underWay s := by
  have hstate : (s.clock false pins).bus.state = .response := by
    simp [System.clock, SystemBus.clock_state, hs]
  have hrequest : (s.clock false pins).bus.pendingRequest = s.bus.pendingRequest := by
    simp [System.clock, SystemBus.clock_pendingRequest, hs]
  have haccess : (s.clock false pins).bus.pendingAccess = s.bus.pendingAccess :=
    congrArg Rtl.Request.access hrequest
  refine ⟨hstate, ?_⟩
  simp only [answered, underWay, Storing, hstate, haccess, SystemBus.pending_congr hrequest, hs,
    true_and, ne_eq, reduceCtorEq, not_false_eq_true]

variable (resetPins powerUp) in
/-- The core waits for the answer. -/
theorem retired_of_response {t : ℕ}
    (hs : (System.run (fun _ => gpioInput) resetPins powerUp t).bus.state = .response) :
    (System.run (fun _ => gpioInput) resetPins powerUp t).cpu.retired = none := by
  obtain ⟨_, u, -, hfollows⟩ := exists_immediate gpioInput resetPins powerUp t
  rw [← Bench.run_system] at hs ⊢
  rw [((Bench.follows_response hs).mp hfollows).2.1]
  rfl

variable (resetPins powerUp) in
/-- The ROM is as at power-up. -/
theorem rom_run (pins : ℕ → Word) (t : ℕ) :
    (System.run pins resetPins powerUp t).bus.rom.memory =
      (powerUp.clock true resetPins).bus.rom.memory := by
  induction t with
  | zero => rfl
  | succ t ih =>
      rw [← ih, System.run, Clocked.run_succ]
      simp [System.clock, SystemBus.clock_rom]

variable (gpioInput) in
/-- **A reset in any cycle** leaves the RAM of the instructions that have retired, and of a
store that is under way. -/
theorem sameImage_interrupted (himage : SameImage rom ram (powerUp.clock true resetPins)) (t : ℕ) :
    ∃ ram', Leaves rom gpioInput
        (retiredCount (System.run (fun _ => gpioInput) resetPins powerUp) t +
          underWay (System.run (fun _ => gpioInput) resetPins powerUp t)) ram ram' ∧
      SameImage rom ram'
        ((System.run (fun _ => gpioInput) resetPins powerUp t).clock true gpioInput) := by
  have hrom (i : BitVec 14) : rom.read32 (Isa.wordAddress Cpp.Rom.kBaseAddress i) =
      .ok (((System.run (fun _ => gpioInput) resetPins powerUp t).clock true
        gpioInput).bus.rom.memory i) := by
    rw [himage.rom i, ← rom_run resetPins powerUp (fun _ => gpioInput) t]
    simp [System.clock, SystemBus.clock]
  by_cases hs : (System.run (fun _ => gpioInput) resetPins powerUp t).bus.state = .memory
  · -- the edge makes the store, and the core would have been told of it next
    obtain ⟨hresponse, hanswered⟩ := answered_of_memory hs gpioInput
    obtain ⟨ram', hleaves, hram⟩ := exists_ram_cycle gpioInput himage (t + 1)
    have hquiet := retired_of_response resetPins powerUp (t := t + 1) hresponse
    rw [retiredCount, Clocked.log_succ_of_none _ _ hquiet, ← retiredCount] at hleaves
    refine ⟨ram', hanswered ▸ hleaves, hrom, fun i => ?_⟩
    rw [ram_reset _ _ gpioInput]
    exact hram i
  · obtain ⟨ram', hleaves, hram⟩ := exists_ram_cycle gpioInput himage t
    refine ⟨ram', ?_, hrom, fun i => ?_⟩
    · rw [← answered_of_ne_memory hs]
      exact hleaves
    · rw [ram_of_ne_memory hs]
      exact hram i

/-- What holds at a boundary does not depend on later cycles. -/
theorem Boundary.congr {s s' : ℕ → System} {t : ℕ} {records : List Cpp.RetireRecord}
    {cpu : Cpp.CpuCore} {bus : Cpp.Bus} (h : Boundary records cpu bus gpioInput s t)
    (hs : ∀ i ≤ t, s' i = s i) : Boundary records cpu bus gpioInput s' t := by
  have hlog : Clocked.log (·.cpu.retired) s' (t + 1) = Clocked.log (·.cpu.retired) s (t + 1) := by
    refine List.filterMap_congr fun i hi => ?_
    rw [hs i (Nat.lt_succ_iff.mp (List.mem_range.mp hi))]
  have htranscript : System.transcript s' t = System.transcript s t := by
    refine List.flatMap_congr fun i hi => ?_
    rw [hs i (Nat.lt_succ_iff.mp (List.mem_range.mp hi))]
  have hnow := hs t (Nat.le_refl t)
  constructor
  case count => exact h.count
  case records => exact hlog ▸ h.records
  case pc => exact hnow ▸ h.pc
  case registers => exact hnow ▸ h.registers
  case ram => exact hnow ▸ h.ram
  case halted => exact hnow ▸ h.halted
  case faulted => exact hnow ▸ h.faulted
  case fault => exact hnow ▸ h.fault
  case devices =>
    rw [htranscript, hnow]
    exact h.devices

/-! ## Runs with resets -/

variable (gpioInput) in
/-- A run with a reset edge wherever `resets` says. -/
def resetRun (resets : ℕ → Bool) (powerUp : System) : ℕ → System :=
  Clocked.run (fun reset s => s.clock reset gpioInput) resets powerUp

section Resets

variable (rom : Cpp.Rom) (gpioInput : Word) (resets : ℕ → Bool) (powerUp : System) (ram : Cpp.Ram)

/-- How often the core has retired since the last reset edge. -/
def retiredSince : ℕ → ℕ
  | 0 => 0
  | t + 1 =>
      if resets t then 0
      else retiredSince t + (resetRun gpioInput resets powerUp (t + 1)).cpu.retired.toList.length

/-- The RAM on which the simulator has been started that goes with the cycle `t + 1`. -/
inductive Started : ℕ → Cpp.Ram → Prop
  | first : Started 0 ram
  | goesOn {t : ℕ} {ram' : Cpp.Ram} (h : Started t ram') (hreset : resets (t + 1) = false) :
      Started (t + 1) ram'
  /-- A reset stops it after the instructions that have retired, and a store under way. -/
  | restarts {t : ℕ} {ram' ram'' : Cpp.Ram} (h : Started t ram') (hreset : resets (t + 1) = true)
      (hleaves : Leaves rom gpioInput (retiredSince gpioInput resets powerUp (t + 1) +
        underWay (resetRun gpioInput resets powerUp (t + 1))) ram' ram'') :
      Started (t + 1) ram''

/-- The cycle `t + 1` is `n` cycles after the last reset edge, which the system `before` took and
which found the RAM `ram`. -/
structure Restarted (t : ℕ) (ram : Cpp.Ram) (before : System) (n : ℕ) : Prop where
  image : SameImage rom ram (before.clock true gpioInput)
  run : resetRun gpioInput resets powerUp (t + 1) =
    System.run (fun _ => gpioInput) gpioInput before n
  retired : retiredSince gpioInput resets powerUp (t + 1) =
    retiredCount (System.run (fun _ => gpioInput) gpioInput before) n
  last : resets t = true → before = resetRun gpioInput resets powerUp t

end Resets

variable {resets : ℕ → Bool}

/-- A run begins with a reset edge. -/
theorem restarted_of_reset {t : ℕ} (hreset : resets t = true)
    (himage : SameImage rom ram ((resetRun gpioInput resets powerUp t).clock true gpioInput)) :
    Restarted rom gpioInput resets powerUp t ram (resetRun gpioInput resets powerUp t) 0 where
  image := himage
  run := by
    rw [resetRun, Clocked.run_succ, hreset]
    rfl
  retired := by
    rw [retiredSince, if_pos hreset]
    rfl
  last _ := rfl

/-- The next edge goes on with it. -/
theorem Restarted.next {before : System} {n t : ℕ}
    (h : Restarted rom gpioInput resets powerUp t ram before n) (hreset : resets (t + 1) = false) :
    Restarted rom gpioInput resets powerUp (t + 1) ram before (n + 1) := by
  have hrun : resetRun gpioInput resets powerUp (t + 1 + 1) =
      System.run (fun _ => gpioInput) gpioInput before (n + 1) := by
    rw [resetRun, Clocked.run_succ, ← resetRun, hreset, h.run]
    rfl
  refine ⟨h.image, hrun, ?_, fun hreset' => ?_⟩
  · rw [retiredSince, if_neg (by simp [hreset]), h.retired, hrun, retiredCount, retiredCount,
      Clocked.log_succ _ _ (n + 1), List.length_append]
  · rw [hreset] at hreset'
    cases hreset'

/-- **In every cycle the system is in a run that began with a reset edge**, on the RAM on which
the simulator has been started. -/
theorem exists_restarted (hfirst : resets 0 = true)
    (himage : SameImage rom ram (powerUp.clock true gpioInput)) (t : ℕ) :
    ∃ ram' before n, Started rom gpioInput resets powerUp ram t ram' ∧
      Restarted rom gpioInput resets powerUp t ram' before n := by
  induction t with
  | zero => exact ⟨ram, _, 0, .first, restarted_of_reset hfirst himage⟩
  | succ t ih =>
      obtain ⟨ram', before, n, hstarted, hrestarted⟩ := ih
      cases hreset : resets (t + 1) with
      | false => exact ⟨ram', before, n + 1, hstarted.goesOn hreset, hrestarted.next hreset⟩
      | true =>
          obtain ⟨ram'', hleaves, himage'⟩ := sameImage_interrupted gpioInput hrestarted.image n
          rw [← hrestarted.retired, ← hrestarted.run] at hleaves
          rw [← hrestarted.run] at himage'
          exact ⟨ram'', _, 0, hstarted.restarts hreset hleaves, restarted_of_reset hreset himage'⟩

/-- Without a reset in between, the run goes on as it began. -/
theorem resetRun_add {t n : ℕ} (hreset : resets t = true)
    (hquiet : ∀ i, t < i → i ≤ t + n → resets i = false) :
    resetRun gpioInput resets powerUp (t + 1 + n) =
      System.run (fun _ => gpioInput) gpioInput (resetRun gpioInput resets powerUp t) n := by
  induction n with
  | zero =>
      rw [Nat.add_zero, resetRun, Clocked.run_succ, hreset]
      rfl
  | succ n ih =>
      rw [← Nat.add_assoc, resetRun, Clocked.run_succ, ← resetRun,
        ih fun i hi hle => hquiet i hi (by omega), hquiet (t + 1 + n) (by omega) (by omega)]
      rfl

variable (resets) in
/-- **RAM under resets.**  With resets in any cycles, from the first one on, every cycle goes
with one run of the simulator, started on the RAM that the run before left when it was stopped.
It was stopped after as many instructions as the RTL had retired, or one more, if a store
was under way.  In the cycle, the RAM of the RTL is what the run leaves after the
instructions that have retired since, and a store that is just being answered; and after a
reset the two are in lockstep up to the next one. -/
theorem resets_lockstep (hfirst : resets 0 = true)
    (himage : SameImage rom ram (powerUp.clock true gpioInput)) (t : ℕ) :
    ∃ ram', Started rom gpioInput resets powerUp ram t ram' ∧
      (∃ ram'', Leaves rom gpioInput (retiredSince gpioInput resets powerUp (t + 1) +
          answered (resetRun gpioInput resets powerUp (t + 1))) ram' ram'' ∧
        SameRam ram'' (resetRun gpioInput resets powerUp (t + 1))) ∧
      (resets t = true → ∀ limit, ∃ records cpu bus,
        Cpp.RefTrace.traceLoop limit .construct (simulatorBus rom ram' gpioInput) =
            .ok (records, cpu, bus) ∧
          ((∀ i, t < i → i ≤ t + boundaryCycle records cpu → resets i = false) →
            Boundary records cpu bus gpioInput
              (fun n => resetRun gpioInput resets powerUp (t + 1 + n))
              (boundaryCycle records cpu))) := by
  obtain ⟨ram', before, n, hstarted, hrestarted⟩ := exists_restarted hfirst himage t
  refine ⟨ram', hstarted, ?_, fun hreset limit => ?_⟩
  · rw [hrestarted.retired, hrestarted.run]
    exact exists_ram_cycle gpioInput hrestarted.image n
  · have himage' := hrestarted.image
    rw [hrestarted.last hreset] at himage'
    obtain ⟨records, cpu, bus, hloop, -⟩ := exists_cycle himage' gpioInput limit
    refine ⟨records, cpu, bus, hloop, fun hquiet => ?_⟩
    refine (boundary_timed himage' hloop).congr fun n hn => ?_
    exact resetRun_add hreset fun i hi hle => hquiet i hi (by omega)

/-- `LUI r1, 0x1000`, `LW r2, 0(r1)`, `ADDI r2, r2, 1`, `SW r2, 0(r1)`, `HALT`: a program
that counts how often it was started. -/
def countingRom : Cpp.Rom where
  bytes i := ([0x00, 0x10, 0x20, 0x34, 0x00, 0x00, 0x41, 0x38, 0x01, 0x00, 0x42, 0x24,
    0x00, 0x00, 0x41, 0x3C, 0x00, 0x00, 0x00, 0x5C] : List (BitVec 8)).getD i 0

/-- Before the second reset the simulator has been started once. -/
theorem Started.eq_of_quiet {t : ℕ} {ram' : Cpp.Ram}
    (h : Started rom gpioInput resets powerUp ram t ram')
    (hquiet : ∀ i, 0 < i → i ≤ t → resets i = false) : ram' = ram := by
  induction h with
  | first => rfl
  | goesOn h hreset ih => exact ih fun i hi hle => hquiet i hi (Nat.le_succ_of_le hle)
  | @restarts t ram' ram'' h hreset hleaves ih =>
      rw [hquiet (t + 1) (Nat.succ_pos t) (Nat.le_refl _)] at hreset
      cases hreset

/-- A reset in cycle 28, when the `SW` is under way, and no more: the store is made in that
edge, and the second run counts on from there. -/
theorem resets_lockstep_counting :
    underWay (resetRun 0 (fun t => t == 0 || t == 28) (loaded countingRom .fresh) 28) = 1 ∧
      (resetRun 0 (fun t => t == 0 || t == 28) (loaded countingRom .fresh) 64).bus.ram.memory 0 =
        2 := by
  have himage : SameImage countingRom .fresh ((loaded countingRom .fresh).clock true 0) :=
    (sameImage_loaded countingRom .fresh).reset 0 rfl
  have hunderWay :
      underWay (resetRun 0 (fun t => t == 0 || t == 28) (loaded countingRom .fresh) 28) = 1 := by
    decide +kernel
  have hretired :
      retiredSince 0 (fun t => t == 0 || t == 28) (loaded countingRom .fresh) 28 = 3 := by
    decide +kernel
  refine ⟨hunderWay, ?_⟩
  obtain ⟨ram', hstarted, -, hlockstep⟩ :=
    resets_lockstep (fun t => t == 0 || t == 28) rfl himage 28
  obtain ⟨records, cpu, bus, hloop, hboundary⟩ := hlockstep rfl 5
  -- three instructions have retired in front of the reset, and the store is the fourth
  cases hstarted with
  | goesOn h hreset => nomatch hreset
  | restarts h hreset hleaves =>
      rw [h.eq_of_quiet fun i hi hle => by simp; omega, hretired, hunderWay] at hleaves
      obtain ⟨records', cpu', bus', hloop', -, rfl⟩ := hleaves
      have hruns : ((Cpp.RefTrace.traceLoop 4 .construct (simulatorBus countingRom .fresh 0)).bind
          fun r => Cpp.RefTrace.traceLoop 5 .construct (simulatorBus countingRom r.2.2.ram 0)).map
          (fun r => (boundaryCycle r.1 r.2.1, r.2.2.ram.read32 Cpp.Ram.kBaseAddress)) =
            .ok (35, .ok 2) := by
        rfl
      rw [hloop', Except.bind, hloop] at hruns
      obtain ⟨hcycle, hword⟩ := Prod.mk.inj (Except.ok.inj hruns)
      have hram := (hboundary fun i hi _ => by simp; omega).ram 0
      have haddress : Isa.wordAddress Cpp.Ram.kBaseAddress 0 = Cpp.Ram.kBaseAddress := by decide
      simp only [hcycle, haddress, hword, Nat.reduceAdd] at hram
      exact (Except.ok.inj hram).symm

end System

end Mini32.Lockstep
