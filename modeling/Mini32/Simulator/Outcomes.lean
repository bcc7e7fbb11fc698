import Mini32.Lib.Fallible
import Mini32.Simulator.Programs

/-!
# The programs agree

A run of the computer is a row of calls of `step`, and a core that stopped stays
as it is.  So both loops end in the state after `limit` calls: `mini32_sim` leaves
as soon as the core stops or the next instruction would be one too many, and until
then every call retires an instruction.  `programs_agree` compares what the two
programs report of that state, and says which instruction stopped the run.

`Called` is what one call does to the number of retired instructions and to the outcome
(`step_called`), and `stepCalls_spec` the same for any number of them.  The loops are then
two readings of one row of calls: `mainLoop_calls` here, `traceLoop_calls` in `RefTrace`.
`stopAtPc` names the stop by what the ISA says of the instruction at the PC, and not by what
`step` answers.
-/

namespace Mini32.Cpp

/-- Why a computer stops. -/
inductive Stop
  | halt
  | fault (info : FaultInfo)
  deriving DecidableEq, Repr

namespace CpuCore

/-- What the core says about itself. -/
def stopped (cpu : CpuCore) : Option Stop :=
  if cpu.halted then some .halt else if cpu.faulted then some (.fault cpu.faultInfo) else none

/-- Whether the instruction at the PC stops the computer: it is a `HALT`, or it faults. -/
def stopAtPc (cpu : CpuCore) (bus : Bus) : Option Stop :=
  match Isa.step Bus.busModel cpu.arch bus with
  | .fault info => some (.fault info)
  | .retire w _ _ =>
      match Isa.decode w with
      | .ok .halt => some .halt
      | _ => none

/-- The instruction after `k` retirements stops the computer. -/
def StopsAfter (cpu : CpuCore) (bus : Bus) (k : ℕ) (stop : Stop) : Prop :=
  ∃ calls c b, stepCalls calls cpu bus = .ok (c, b) ∧ c.microstate = .fetch ∧
    c.retiredInstructions = k ∧ c.stopAtPc b = some stop

/-! ## One call -/

section Call

variable {cpu cpu' : CpuCore} {bus bus' : Bus}

/-- A core about to fetch has not stopped. -/
theorem stopped_of_fetch (hm : cpu.microstate = .fetch) : cpu.stopped = none := by
  simp [stopped, halted, faulted, hm]

/-- Only a `HALT` halts. -/
theorem halts_iff {b : Bus} {w : Word} {effect : Isa.Effect}
    (h : Isa.step Bus.busModel cpu.arch bus = .retire w effect b) :
    effect.halts = true ↔ Isa.decode w = .ok .halt := by
  obtain ⟨i, c, -, hd, hx, -⟩ := Isa.step_eq_retire h
  rw [hd, Except.ok.injEq]
  cases i with
  | halt => cases hx; exact iff_of_true rfl rfl
  | lw rd rs1 imm16 =>
      simp only [Isa.execute] at hx
      cases hl : Bus.busModel.load bus (Isa.effectiveAddress cpu.arch rs1 imm16) <;>
        rw [hl] at hx <;> cases hx
      exact iff_of_false (by simp) (by simp)
  | sw rs2 rs1 imm16 =>
      simp only [Isa.execute] at hx
      cases hs : Bus.busModel.store bus (Isa.effectiveAddress cpu.arch rs1 imm16)
          (cpu.arch.read rs2) <;> rw [hs] at hx <;> cases hx
      exact iff_of_false (by simp) (by simp)
  | _ => cases hx; exact iff_of_false (by simp) (by simp)

/-- What a call does at an instruction boundary: the core stops if the instruction at the PC
stops it, and an instruction that does not fault retires. -/
structure Called (cpu : CpuCore) (bus : Bus) (result : StepResult) (cpu' : CpuCore) : Prop where
  stopped : cpu'.stopped = cpu.stopAtPc bus
  halted : result = .halted ↔ cpu'.stopped = some .halt
  fetch : cpu'.stopped = none → cpu'.microstate = .fetch
  retired : cpu'.retiredInstructions =
    cpu.retiredInstructions + if cpu'.faulted then 0 else 1

/-- One call of `step` from `Fetch`. -/
theorem step_called (bus : Bus) (hm : cpu.microstate = .fetch) :
    ∃ result cpu' bus', cpu.step bus = .ok (result, cpu', bus') ∧ Called cpu bus result cpu' := by
  cases hisa : Isa.step Bus.busModel cpu.arch bus with
  | fault info =>
      obtain ⟨cpu', hstep, -, hstate, hinfo, -, hcount, -⟩ := step_fault hm hisa
      have hstopped : cpu'.stopped = some (.fault info) := by
        simp [CpuCore.stopped, CpuCore.halted, faulted, hstate, hinfo]
      refine ⟨_, cpu', bus, hstep, ⟨?_, ?_, ?_, ?_⟩⟩
      · rw [hstopped, stopAtPc, hisa]
      · rw [hstopped]
        simp
      · rw [hstopped]
        simp
      · simp [faulted, hstate, hcount]
  | retire w effect b =>
      obtain ⟨result, cpu', hstep, hresult, hstate, -, -, hcount, -⟩ := step_retire hm hisa
      refine ⟨result, cpu', b, hstep, ?_⟩
      have hhalts := halts_iff hisa
      cases hh : effect.halts with
      | true =>
          rw [hh, if_pos rfl] at hresult hstate
          have hstopped : cpu'.stopped = some .halt := by
            simp [CpuCore.stopped, CpuCore.halted, hstate]
          refine ⟨?_, iff_of_true hresult hstopped, ?_, ?_⟩
          · rw [hstopped, stopAtPc, hisa]
            simp only [hhalts.mp hh]
          · rw [hstopped]
            simp
          · simp [faulted, hstate, hcount]
      | false =>
          rw [hh, if_neg Bool.false_ne_true] at hresult hstate
          have hstopped : cpu'.stopped = none := stopped_of_fetch hstate
          refine ⟨?_, ?_, fun _ => hstate, ?_⟩
          · have hne : Isa.decode w ≠ .ok .halt := mt hhalts.mpr (by simp [hh])
            rw [hstopped, stopAtPc, hisa]
            simp only
          · rw [hstopped, hresult]
            simp
          · simp [faulted, hstate, hcount]

end Call

/-! ## Calls in a row -/

section Calls

variable {cpu cpu' c : CpuCore} {bus bus' b : Bus} {m n : ℕ}

/-- A stopped core stays as it is. -/
theorem stepCalls_stopped (n : ℕ) (bus : Bus) (h : cpu.stopped ≠ none) :
    stepCalls n cpu bus = .ok (cpu, bus) := by
  apply stepCalls_of_stopped
  unfold stopped at h
  cases hh : cpu.halted <;> cases hf : cpu.faulted <;> simp_all

/-- Calls in two portions. -/
theorem stepCalls_add (h : stepCalls m cpu bus = .ok (c, b)) (n : ℕ) :
    stepCalls (m + n) cpu bus = stepCalls n c b := by
  induction m generalizing cpu bus with
  | zero =>
      obtain ⟨rfl, rfl⟩ := Prod.mk.inj (Except.ok.inj h)
      rw [Nat.zero_add]
  | succ m ih =>
      rw [stepCalls] at h
      obtain ⟨⟨result, c₁, b₁⟩, hstep, h⟩ := Fallible.bind_eq_ok.mp h
      rw [Nat.add_right_comm, stepCalls_succ hstep, ih h]

/-- **A row of calls.**  While the core runs every call retires an instruction, and a core
that stopped was stopped by one instruction. -/
theorem stepCalls_spec (n : ℕ) (bus : Bus) (hm : cpu.microstate = .fetch) :
    ∃ cpu' bus', stepCalls n cpu bus = .ok (cpu', bus') ∧
      cpu'.retiredInstructions ≤ cpu.retiredInstructions + n ∧
      (cpu'.stopped = none → cpu'.microstate = .fetch ∧
        cpu'.retiredInstructions = cpu.retiredInstructions + n) ∧
      ∀ stop, cpu'.stopped = some stop → ∃ k < n, ∃ c b, stepCalls k cpu bus = .ok (c, b) ∧
        c.microstate = .fetch ∧ c.retiredInstructions = cpu.retiredInstructions + k ∧
        c.stopAtPc b = some stop := by
  induction n generalizing cpu bus with
  | zero =>
      refine ⟨cpu, bus, rfl, le_rfl, fun _ => ⟨hm, rfl⟩, fun stop h => ?_⟩
      nomatch (stopped_of_fetch hm).symm.trans h
  | succ n ih =>
      obtain ⟨result, c, b, hstep, hcalled⟩ := step_called bus hm
      have hcount := hcalled.retired
      rw [stepCalls_succ hstep]
      cases hc : c.stopped with
      | some stop =>
          have hne : c.stopped ≠ none := hc ▸ Option.some_ne_none stop
          refine ⟨c, b, stepCalls_stopped n b hne, ?_, fun h => absurd h hne, fun stop' h => ?_⟩
          · split at hcount <;> omega
          · exact ⟨0, Nat.zero_lt_succ n, cpu, bus, rfl, hm, rfl, hcalled.stopped.symm.trans h⟩
      | none =>
          have hfetch := hcalled.fetch hc
          have hfaulted : c.faulted = false := by simp [faulted, hfetch]
          rw [hfaulted, if_neg Bool.false_ne_true] at hcount
          obtain ⟨cpu', bus', hcalls, hle, hrun, hstop⟩ := ih b hfetch
          refine ⟨cpu', bus', hcalls, by omega, fun h => ?_, fun stop h => ?_⟩
          · exact ⟨(hrun h).1, by have := (hrun h).2; omega⟩
          · obtain ⟨k, hk, d, e, hd, hdm, hdcount, hdstop⟩ := hstop stop h
            refine ⟨k + 1, Nat.succ_lt_succ hk, d, e, ?_, hdm, by omega, hdstop⟩
            rw [stepCalls_succ hstep, hd]

/-- **The instruction that stops a run** is the one that the state after any greater number
of calls shows. -/
theorem stopped_iff_stopsAfter (hm : cpu.microstate = .fetch) (hzero : cpu.retiredInstructions = 0)
    (h : stepCalls n cpu bus = .ok (cpu', bus')) (stop : Stop) :
    cpu'.stopped = some stop ↔ ∃ k < n, cpu.StopsAfter bus k stop := by
  obtain ⟨_, _, hcalls, -, -, hstop⟩ := stepCalls_spec n bus hm
  obtain ⟨rfl, rfl⟩ := Prod.mk.inj (Except.ok.inj (hcalls.symm.trans h))
  constructor
  · intro hstopped
    obtain ⟨k, hk, c, b, hc, hcm, hcount, hat⟩ := hstop stop hstopped
    exact ⟨k, hk, k, c, b, hc, hcm, by omega, hat⟩
  · rintro ⟨k, hk, calls, c, b, hc, hcm, hcount, hat⟩
    obtain ⟨_, _, hcalls', -, hrun, -⟩ := stepCalls_spec calls bus hm
    obtain ⟨rfl, rfl⟩ := Prod.mk.inj (Except.ok.inj (hcalls'.symm.trans hc))
    have hcalled := (hrun (stopped_of_fetch hcm)).2
    obtain ⟨rest, rfl⟩ : ∃ rest, n = calls + (rest + 1) := ⟨n - calls - 1, by omega⟩
    -- the call that stops the core, and the calls after it
    obtain ⟨result, d, e, hstep, hlast⟩ := step_called _ hcm
    have hd : d.stopped = some stop := hlast.stopped.trans hat
    have hend := stepCalls_stopped rest e (hd ▸ Option.some_ne_none stop)
    rw [stepCalls_add hc, stepCalls_succ hstep, hend] at h
    obtain ⟨rfl, rfl⟩ := Prod.mk.inj (Except.ok.inj h)
    exact hd

end Calls

end CpuCore

open CpuCore

/-! ## The loops -/

section Loops

variable {cpu cpu' : CpuCore} {bus bus' : Bus} {n : ℕ}

/-- What `mini32_sim` reports about the core in which its loop ends. -/
def Mini32Sim.reportOf (cpu : CpuCore) : Mini32Sim.Report :=
  match cpu.stopped with
  | some .halt => .halted cpu.retiredInstructions
  | some (.fault info) => .fault info
  | none => .limitExceeded cpu.retiredInstructions

/-- The test of both loops fails once the core has stopped … -/
theorem not_running (h : cpu.stopped ≠ none) : (!cpu.halted && !cpu.faulted) = false := by
  unfold CpuCore.stopped at h
  cases hh : cpu.halted <;> cases hf : cpu.faulted <;> simp_all

/-- … and passes before. -/
theorem running (h : cpu.stopped = none) : (!cpu.halted && !cpu.faulted) = true := by
  unfold CpuCore.stopped at h
  cases hh : cpu.halted <;> cases hf : cpu.faulted <;> simp_all

/-- **The loop of `mini32_sim`**, with fuel to spare. -/
theorem Mini32Sim.mainLoop_calls (hm : cpu.microstate = .fetch)
    (h : stepCalls n cpu bus = .ok (cpu', bus')) (spare : ℕ) :
    Mini32Sim.mainLoop (cpu.retiredInstructions + n) (n + 2 + spare) cpu bus =
      .ok (Mini32Sim.reportOf cpu', cpu', bus') := by
  have hrun := running (stopped_of_fetch hm)
  induction n generalizing cpu bus with
  | zero =>
      obtain ⟨rfl, rfl⟩ := Prod.mk.inj (Except.ok.inj h)
      rw [show 0 + 2 + spare = (spare + 1) + 1 by omega, mainLoop, if_pos hrun,
        if_pos (by omega), reportOf, stopped_of_fetch hm]
  | succ n ih =>
      obtain ⟨result, c, b, hstep, hcalled⟩ := step_called bus hm
      have hlimit : ¬ cpu.retiredInstructions ≥ cpu.retiredInstructions + (n + 1) := by omega
      rw [stepCalls_succ hstep] at h
      rw [show n + 1 + 2 + spare = (n + 2 + spare) + 1 by omega, mainLoop, if_pos hrun,
        if_neg hlimit, hstep]
      simp only [bind, Except.bind]
      cases hc : c.stopped with
      | none =>
          have hfetch := hcalled.fetch hc
          have hcount := hcalled.retired
          rw [show c.faulted = false by simp [CpuCore.faulted, hfetch],
            if_neg Bool.false_ne_true] at hcount
          have hresult : result ≠ .halted := mt hcalled.halted.mp (by simp [hc])
          rw [if_neg hresult, show cpu.retiredInstructions + (n + 1) = c.retiredInstructions + n by
            omega]
          exact ih hfetch h (running hc)
      | some stop =>
          have hne : c.stopped ≠ none := hc ▸ Option.some_ne_none stop
          rw [stepCalls_stopped n b hne] at h
          obtain ⟨rfl, rfl⟩ := Prod.mk.inj (Except.ok.inj h)
          cases stop with
          | halt =>
              rw [if_pos (hcalled.halted.mpr hc), reportOf, hc]
              rfl
          | fault info =>
              have hresult : result ≠ .halted := mt hcalled.halted.mp (by simp [hc])
              have hinfo : c.faultInfo = info := by
                unfold CpuCore.stopped at hc
                split_ifs at hc
                · cases hc
                · exact Stop.fault.inj (Option.some.inj hc)
              rw [if_neg hresult, show n + 2 + spare = (n + 1 + spare) + 1 by omega, mainLoop,
                if_neg (by simp [not_running hne]), reportOf, hc, hinfo]

end Loops

/-! ## Both programs -/

section Programs

variable {image : Image} {limit : ℕ}

/-- A valid image fits. -/
theorem computer_eq (image : Image) : ∃ rom, computer image = .ok (.fresh rom 0) := by
  have hfits : ¬ ((0 : Word) > Rom.kLastAddress ∨
      image.bytes.length > Rom.kSizeBytes - (0 : Word).toNat) :=
    not_or.mpr ⟨by decide, not_lt.mpr image.fits⟩
  rw [computer, Rom.loadBytes, if_neg hfits]
  exact ⟨_, rfl⟩

/-- The instruction after `k` retirements stops the computer with this image. -/
def StopsAfter (image : Image) (k : ℕ) (stop : Stop) : Prop :=
  ∃ bus, computer image = .ok bus ∧ CpuCore.construct.StopsAfter bus k stop

/-- What both programs report, of a run of the one that ends in `cpu` and `bus`, and a run
of the other that ends in `cpu'` and `bus'`. -/
structure Agreement (image : Image) (limit : ℕ) (report : Mini32Sim.Report) (cpu : CpuCore)
    (bus : Bus) (final : Option RefTrace.FinalRecord) (cpu' : CpuCore) (bus' : Bus) : Prop where
  halted : (∃ retired, report = .halted retired) ↔ ∃ r, final = some r ∧ r.halted = true
  fault : ∀ info, report = .fault info ↔
    ∃ r, final = some r ∧ r.halted = false ∧ r.fault = some info
  limitExpired : (∃ retired, report = .limitExceeded retired) ↔ final = none
  retired : cpu.retiredInstructions = cpu'.retiredInstructions
  retired_le : cpu.retiredInstructions ≤ limit
  reported : ∀ retired, report = .halted retired ∨ report = .limitExceeded retired →
    retired = cpu.retiredInstructions
  recorded : ∀ r, final = some r → r.retired = cpu'.retiredInstructions
  uart : bus.uart.txBytes = bus'.uart.txBytes
  uartTx : ∀ r, final = some r → r.uartTx = bus'.uart.txBytes
  haltWithin : (∃ retired, report = .halted retired) ↔ ∃ k < limit, StopsAfter image k .halt
  faultWithin : ∀ info, report = .fault info ↔ ∃ k < limit, StopsAfter image k (.fault info)

/-- What the whole programs print and return for these arguments, once `mini32_sim` ends with
`report` and `ref_trace` with `records` and `final`. -/
structure Prints (limit : ℕ) (readFile : Text → Option (List (BitVec 8))) (argv : List Text)
    (report : Mini32Sim.Report) (bus : Bus) (records : List RetireRecord)
    (final : Option RefTrace.FinalRecord) : Prop where
  sim : ∀ fuel, limit + 2 ≤ fuel → Mini32Sim.main fuel readFile argv =
    .ok { stdout := bus.uart.txBytes, stderr := report.text, status := report.status }
  trace : RefTrace.main readFile argv = .ok (RefTrace.report records final)

/-- **The programs agree** about this image and this limit, however they are called with
them. -/
def ProgramsAgree (image : Image) (limit : ℕ) : Prop :=
  ∃ report cpu bus records cpu' bus',
    (∀ fuel, limit + 2 ≤ fuel → Mini32Sim.run fuel image limit = .ok (report, cpu, bus)) ∧
    RefTrace.run image limit = .ok (records, cpu', bus') ∧
    Agreement image limit report cpu bus (RefTrace.finalRecord cpu' bus') cpu' bus' ∧
    ∀ readFile argv path, parseArguments argv = some (path, limit) →
      RefTrace.loadImage (readFile path) = some image →
      Prints limit readFile argv report bus records (RefTrace.finalRecord cpu' bus')

/-- There is no final record exactly if the core runs on. -/
theorem finalRecord_eq_none {cpu : CpuCore} {bus : Bus} :
    RefTrace.finalRecord cpu bus = none ↔ cpu.stopped = none := by
  unfold RefTrace.finalRecord
  by_cases h : cpu.stopped = none
  · rw [if_pos (running h)]
    exact iff_of_true rfl h
  · rw [if_neg (by simp [not_running h])]
    exact iff_of_false nofun h

/-- What a final record says about the core. -/
theorem finalRecord_eq_some {cpu : CpuCore} {bus : Bus} {r : RefTrace.FinalRecord}
    (h : RefTrace.finalRecord cpu bus = some r) :
    r.retired = cpu.retiredInstructions ∧ r.uartTx = bus.uart.txBytes ∧
      (r.halted = true ↔ cpu.stopped = some .halt) ∧
      ∀ info, r.halted = false ∧ r.fault = some info ↔ cpu.stopped = some (.fault info) := by
  unfold RefTrace.finalRecord at h
  unfold CpuCore.stopped
  split at h
  · nomatch h
  · next hstop =>
      obtain rfl := Option.some.inj h
      refine ⟨rfl, rfl, ?_, fun info => ?_⟩
      · cases hh : cpu.halted <;> cases hf : cpu.faulted <;> simp_all
      · cases hh : cpu.halted <;> cases hf : cpu.faulted <;> simp_all

/-- A stopped core has a final record. -/
theorem exists_finalRecord {cpu : CpuCore} (bus : Bus) {stop : Stop}
    (h : cpu.stopped = some stop) : ∃ r, RefTrace.finalRecord cpu bus = some r := by
  refine Option.ne_none_iff_exists'.mp fun hnone => ?_
  nomatch (finalRecord_eq_none.mp hnone).symm.trans h

/-- The record says `halted` exactly after a HALT … -/
theorem finalRecord_halted {cpu : CpuCore} {bus : Bus} :
    (∃ r, RefTrace.finalRecord cpu bus = some r ∧ r.halted = true) ↔
      cpu.stopped = some .halt := by
  constructor
  · rintro ⟨r, hr, hhalted⟩
    exact (finalRecord_eq_some hr).2.2.1.mp hhalted
  · intro h
    obtain ⟨r, hr⟩ := exists_finalRecord bus h
    exact ⟨r, hr, (finalRecord_eq_some hr).2.2.1.mpr h⟩

/-- … and carries the fault exactly after a fault. -/
theorem finalRecord_fault {cpu : CpuCore} {bus : Bus} {info : FaultInfo} :
    (∃ r, RefTrace.finalRecord cpu bus = some r ∧ r.halted = false ∧ r.fault = some info) ↔
      cpu.stopped = some (.fault info) := by
  constructor
  · rintro ⟨r, hr, hfault⟩
    exact ((finalRecord_eq_some hr).2.2.2 info).mp hfault
  · intro h
    obtain ⟨r, hr⟩ := exists_finalRecord bus h
    exact ⟨r, hr, ((finalRecord_eq_some hr).2.2.2 info).mpr h⟩

/-- What a report says about the core. -/
theorem reportOf_iff (cpu : CpuCore) :
    ((∃ retired, Mini32Sim.reportOf cpu = .halted retired) ↔ cpu.stopped = some .halt) ∧
      (∀ info, Mini32Sim.reportOf cpu = .fault info ↔ cpu.stopped = some (.fault info)) ∧
      ((∃ retired, Mini32Sim.reportOf cpu = .limitExceeded retired) ↔ cpu.stopped = none) ∧
      ∀ retired, Mini32Sim.reportOf cpu = .halted retired ∨
        Mini32Sim.reportOf cpu = .limitExceeded retired → retired = cpu.retiredInstructions := by
  unfold Mini32Sim.reportOf
  cases cpu.stopped with
  | none => simp
  | some stop => cases stop <;> simp

/-- Both programs take the same images. -/
theorem loadImage_agree (path : Text) (file : Option (List (BitVec 8))) (image : Image) :
    Mini32Sim.loadImage path file = .ok image ↔ RefTrace.loadImage file = some image := by
  cases file with
  | none => exact iff_of_false nofun nofun
  | some bytes =>
      unfold Mini32Sim.loadImage RefTrace.loadImage
      by_cases hsize : bytes.length > Rom.kSizeBytes
      · simp [hsize]
      · by_cases hwords : bytes.length % 4 = 0 <;> simp [hsize, hwords]

/-- The programs print what their runs report. -/
theorem prints_of_run {readFile : Text → Option (List (BitVec 8))} {argv : List Text} {path : Text}
    {report : Mini32Sim.Report} {cpu cpu' : CpuCore} {bus bus' : Bus} {records : List RetireRecord}
    (harguments : parseArguments argv = some (path, limit))
    (himage : RefTrace.loadImage (readFile path) = some image)
    (hsim : ∀ fuel, limit + 2 ≤ fuel → Mini32Sim.run fuel image limit = .ok (report, cpu, bus))
    (htrace : RefTrace.run image limit = .ok (records, cpu', bus')) :
    Prints limit readFile argv report bus records (RefTrace.finalRecord cpu' bus') where
  sim fuel hfuel := by
    simp only [Mini32Sim.main, harguments, (loadImage_agree path _ image).mpr himage,
      hsim fuel hfuel]
    rfl
  trace := by
    simp only [RefTrace.main, harguments, himage, htrace]
    rfl

theorem programs_agree (image : Image) (limit : ℕ) : ProgramsAgree image limit := by
  obtain ⟨rom, hcomputer⟩ := computer_eq image
  have hstart : CpuCore.construct.microstate = .fetch := rfl
  have hzero : CpuCore.construct.retiredInstructions = 0 := rfl
  obtain ⟨cpu, bus, hcalls, hle, -⟩ := stepCalls_spec limit (.fresh rom 0) hstart
  rw [hzero, Nat.zero_add] at hle
  obtain ⟨records, cpu', bus', hloop, -⟩ :=
    RefTrace.traceLoop_logs limit CpuCore.construct (.fresh rom 0) (Or.inl rfl)
  obtain ⟨rfl, rfl⟩ := Prod.mk.inj
    (Except.ok.inj (hcalls.symm.trans (RefTrace.traceLoop_calls hloop)))
  obtain ⟨hhalted, hfault, hlimit, hcount⟩ := reportOf_iff cpu
  have hwithin (stop : Stop) : cpu.stopped = some stop ↔ ∃ k < limit, StopsAfter image k stop := by
    rw [stopped_iff_stopsAfter hstart hzero hcalls]
    refine exists_congr fun k => and_congr_right' ?_
    simp only [StopsAfter, hcomputer, Except.ok.injEq, exists_eq_left']
  have hsim (fuel : ℕ) (hfuel : limit + 2 ≤ fuel) :
      Mini32Sim.run fuel image limit = .ok (Mini32Sim.reportOf cpu, cpu, bus) := by
    obtain ⟨spare, rfl⟩ := Nat.exists_eq_add_of_le hfuel
    have hmain := Mini32Sim.mainLoop_calls hstart hcalls spare
    rw [hzero, Nat.zero_add] at hmain
    rw [Mini32Sim.run, hcomputer]
    exact hmain
  have htrace : RefTrace.run image limit = .ok (records, cpu, bus) := by
    rw [RefTrace.run, hcomputer]
    exact hloop
  refine ⟨Mini32Sim.reportOf cpu, cpu, bus, records, cpu, bus, hsim, htrace, ?_,
    fun readFile argv path harguments himage => prints_of_run harguments himage hsim htrace⟩
  exact
    { halted := hhalted.trans finalRecord_halted.symm
      fault := fun info => (hfault info).trans finalRecord_fault.symm
      limitExpired := hlimit.trans finalRecord_eq_none.symm
      retired := rfl
      retired_le := hle
      reported := hcount
      recorded := fun r hr => (finalRecord_eq_some hr).1
      uart := rfl
      uartTx := fun r hr => (finalRecord_eq_some hr).2.1
      haltWithin := hhalted.trans (hwithin .halt)
      faultWithin := fun info => (hfault info).trans (hwithin (.fault info)) }

end Programs

end Mini32.Cpp
