import Mini32.Rtl.Step
import Mini32.Simulator.RefTrace

/-!
# One instruction in both implementations

Simulator and RTL are compared at instruction boundaries: `Agree` says when the two
machines are in corresponding states there, `Matches` when a record of the
reference trace and a retirement port say the same.

Both cores execute `Isa.step`, each over its own bus, and `step_busModel` is all
there is between the two buses: the fault code of a fetch from the reserved STM32
window.  `boundary_step` is the step lemma of the lockstep.

Both sides report a register only if its value changed.  The fields that hold it, and those of
a store, mean something only under their flags, so that is where `Matches` compares them.
-/

namespace Mini32.Lockstep

open Rtl (SystemBus RetirePort)

/-! ## The two buses -/

/-- An aligned address in the reserved STM32 window. -/
def InStm32Window (a : Word) : Prop := Isa.Aligned a ∧ Isa.region a = .stm32

instance (a : Word) : Decidable (InStm32Window a) := inferInstanceAs (Decidable (_ ∧ _))

/-- The fault information of the simulator as the RTL reports it. -/
def rtlFault (info : FaultInfo) : FaultInfo :=
  { info with
    code := if InStm32Window info.pc then .nonExecutableInstructionFetch else info.code }

/-- The two buses fetch alike, but for the window. -/
theorem fetch_busModel (m : Isa.Memory) (a : Word) :
    SystemBus.busModel.fetch m a =
      if InStm32Window a then .error .nonExecutable else Isa.Memory.busModel.fetch m a := rfl

/-- A fetch from the window, on the documented bus. -/
theorem fetch_of_window {m : Isa.Memory} {a : Word} (h : InStm32Window a) :
    Isa.Memory.busModel.fetch m a = .error .unmapped := by
  simp [Isa.Memory.busModel, Isa.Memory.fetch, h.1, h.2]

/-- What an instruction does once it is fetched is the same on both. -/
theorem execute_busModel (a : Isa.ArchState) (m : Isa.Memory) (i : Isa.Instr) :
    Isa.execute SystemBus.busModel a m i = Isa.execute Isa.Memory.busModel a m i := by
  cases i <;> rfl

/-- **Over the two buses an instruction does the same**, up to the code of one fault. -/
theorem step_busModel (a : Isa.ArchState) (m : Isa.Memory) :
    Isa.step SystemBus.busModel a m =
      match Isa.step Isa.Memory.busModel a m with
      | .fault info => .fault (rtlFault info)
      | .retire w e m' => .retire w e m' := by
  by_cases hw : InStm32Window a.pc
  · rw [Isa.step_fetchError (fetch_of_window hw),
      Isa.step_fetchError ((fetch_busModel m a.pc).trans (if_pos hw))]
    simp [rtlFault, hw, Isa.fetchFault]
  · have hfetch := (fetch_busModel m a.pc).trans (if_neg hw)
    have hstep : Isa.step SystemBus.busModel a m = Isa.step Isa.Memory.busModel a m := by
      simp only [Isa.step, hfetch, execute_busModel]
      rfl
    rw [hstep]
    cases h : Isa.step Isa.Memory.busModel a m with
    | retire w e m' => rfl
    | fault info =>
        have hpc : info.pc = a.pc := (Isa.step_fault h).1
        simp only [rtlFault, if_neg (hpc.symm ▸ hw : ¬ InStm32Window info.pc)]

/-- A fault with the PC in the window is the fetch's. -/
theorem code_of_window {a : Isa.ArchState} {m : Isa.Memory} {info : FaultInfo}
    (h : Isa.step Isa.Memory.busModel a m = .fault info) (hw : InStm32Window info.pc) :
    info.code = .unmappedInstructionFetch := by
  rw [(Isa.step_fault h).1] at hw
  rw [Isa.step_fetchError (fetch_of_window hw)] at h
  cases h
  rfl

/-! ## Records -/

/-- A record of the reference trace and a retirement port say the same. -/
structure Matches (r : Cpp.RetireRecord) (p : RetirePort) : Prop where
  pc : p.pc = r.pc
  instruction : p.instruction = r.instruction
  nextPc : p.nextPc = r.nextPc
  regWrite : p.regWrite = r.registerWrite.isSome
  register : p.regWrite = true →
    r.registerWrite = some (p.rd.setWidth 8) ∧ p.value = r.registerValue
  memWrite : p.memWrite = r.memoryWrite
  store : p.memWrite = true → p.memAddr = r.memoryAddress ∧ p.memValue = r.memoryValue

/-- Both are read off the same effect. -/
theorem matches_recordOf {cpu : Cpp.CpuCore} {p : RetirePort} {w : Word} {e : Isa.Effect}
    (h : p.Records cpu.arch w e) : Matches (Cpp.RefTrace.recordOf cpu w e) p where
  pc := h.pc
  instruction := h.instruction
  nextPc := h.nextPc
  regWrite := by
    rw [Cpp.RefTrace.recordOf, h.regWrite]
    cases p.regWrite <;> rfl
  register hw := by
    rw [Cpp.RefTrace.recordOf, h.regWrite, if_pos hw]
    exact ⟨rfl, rfl⟩
  memWrite := by
    rw [Cpp.RefTrace.recordOf, h.memWrite]
    cases p.memWrite <;> rfl
  store hw := by
    rw [Cpp.RefTrace.recordOf, h.memWrite, if_pos hw]
    exact ⟨rfl, rfl⟩

/-! ## Boundaries -/

/-- The simulator agrees with a core and the memory behind it, at a boundary. -/
structure Agree (cpu : Cpp.CpuCore) (bus : Cpp.Bus) (c : Rtl.CpuCore) (m : Isa.Memory) :
    Prop where
  arch : c.arch = cpu.arch
  memory : m = bus.memory
  state : (cpu.microstate = .fetch ∧ c.state = .fetch) ∨
    (cpu.microstate = .halted ∧ c.state = .halted) ∨
    (cpu.microstate = .fault ∧ c.state = .fault ∧ c.fault.info = rtlFault cpu.faultInfo ∧
      (InStm32Window cpu.faultInfo.pc → cpu.faultInfo.code = .unmappedInstructionFetch))

/-- The same for the core over an immediate bus, which has yet to hear of the last
retirement. -/
def AgreeAt (cpu : Cpp.CpuCore) (bus : Cpp.Bus) (u : Rtl.Bench.Immediate) : Prop :=
  Agree cpu bus u.client (Rtl.Bench.told u)

/-- A state right after a retirement, or without a request. -/
def Settled (u : Rtl.Bench.Immediate) : Prop :=
  u.client.retired.isSome = true ∨ u.client.request = none

section Step

variable {cpu : Cpp.CpuCore} {bus : Cpp.Bus} {u : Rtl.Bench.Immediate}

/-- **The step lemma**: one iteration of the trace loop is one quiet path of the
RTL to the next boundary, with matching records. -/
theorem boundary_step (hm : cpu.microstate = .fetch) (h : AgreeAt cpu bus u) :
    ∃ record cpu' bus' u', Cpp.RefTrace.traceStep cpu bus = .ok (record, cpu', bus') ∧
      Rtl.CpuCore.Path SystemBus.busModel u u' ∧ AgreeAt cpu' bus' u' ∧ Settled u' ∧
      List.Forall₂ Matches record.toList u'.client.retired.toList := by
  have hs : u.client.state = .fetch := by
    rcases h.state with ⟨-, hs⟩ | ⟨hm', -⟩ | ⟨hm', -⟩
    · exact hs
    · cases hm.symm.trans hm'
    · cases hm.symm.trans hm'
  obtain ⟨u', hpath, hdone⟩ := Rtl.CpuCore.immediate_completes (M := SystemBus.busModel)
    (b := u.env) hs
  unfold Rtl.CpuCore.Completes at hdone
  -- both sides step the instruction set over the same memory
  rw [show (Rtl.Bench.busEnv SystemBus.busModel).after u.client.retired u.env = bus.memory from
    h.memory, h.arch, step_busModel] at hdone
  have hhom := Isa.step_hom Cpp.Bus.busModel_hom_memory cpu.arch bus
  cases hisa : Isa.step Cpp.Bus.busModel cpu.arch bus with
  | fault info =>
      rw [hisa] at hhom
      rw [hhom] at hdone
      obtain ⟨hfaults, henv⟩ := hdone
      obtain ⟨cpu', htrace, -, hstate, hinfo, harch, -, -⟩ :=
        Cpp.RefTrace.traceStep_fault hm hisa
      -- a fault retires nothing, and the memory stays as told
      have hquiet : u'.client.retired = none := by simp [Rtl.CpuCore.retired, hfaults.valid]
      refine ⟨none, cpu', bus, u', htrace, hpath, ⟨?_, ?_, ?_⟩, Or.inr ?_, ?_⟩
      · rw [hfaults.arch, h.arch, harch]
      · rw [Rtl.Bench.told, hquiet]
        exact henv
      · refine Or.inr (Or.inr ⟨hstate, hfaults.state, by rw [hfaults.info, hinfo], ?_⟩)
        rw [hinfo]
        exact code_of_window hhom
      · simp [Rtl.CpuCore.request, Rtl.CpuCore.busValid, hfaults.state]
      · rw [hquiet]
        exact List.Forall₂.nil
  | retire w e b =>
      rw [hisa] at hhom
      rw [hhom] at hdone
      obtain ⟨hretires, henv⟩ := hdone
      obtain ⟨result, cpu', htrace, -, hstate, -, harch, -, -⟩ :=
        Cpp.RefTrace.traceStep_retire hm hisa
      -- the memory hears of the retirement only with the next cycle
      have hretired : u'.client.retired = some u'.client.retire := by
        simp [Rtl.CpuCore.retired, hretires.valid]
      refine ⟨some _, cpu', b, u', htrace, hpath, ⟨?_, ?_, ?_⟩, Or.inl ?_, ?_⟩
      · rw [hretires.arch, h.arch, harch]
      · rw [Rtl.Bench.told, hretired]
        exact henv
      · rw [hstate, hretires.state]
        cases e.halts
        · exact Or.inl ⟨rfl, rfl⟩
        · exact Or.inr (Or.inl ⟨rfl, rfl⟩)
      · rw [hretired]
        rfl
      · rw [hretired]
        exact List.Forall₂.cons (matches_recordOf (h.arch ▸ hretires.records)) List.Forall₂.nil

/-- A terminal boundary stays where it is. -/
theorem boundary_rests (hm : u.client.state = .halted ∨ u.client.state = .fault) :
    (Rtl.Bench.immediateStep u).client.retired = none ∧
      (Rtl.Bench.immediateStep u).client.state = u.client.state ∧
      ∀ cpu bus, AgreeAt cpu bus (Rtl.Bench.immediateStep u) ↔ AgreeAt cpu bus u := by
  have hrest : Rtl.Bench.immediateStep u = ⟨u.client.clearPulses, Rtl.Bench.told u⟩ :=
    Rtl.CpuCore.immediate_rests hm
  rw [hrest]
  exact ⟨rfl, rfl, fun cpu bus =>
    ⟨fun h => ⟨h.arch, h.memory, h.state⟩, fun h => ⟨h.arch, h.memory, h.state⟩⟩⟩

end Step

end Mini32.Lockstep
