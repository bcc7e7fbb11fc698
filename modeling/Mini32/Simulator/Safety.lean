import Mini32.Lib.Fallible
import Mini32.Simulator.Step

/-!
# The core never gets stuck

`Sound` is the invariant that links the microstate to the latches: while an
instruction executes, the decoded instruction and the control record are those of one
ISA instruction, and `Memory` is entered for a load or a store.  These are the facts under
which no `std::optional` is dereferenced empty, no register index is out of range and
`UnsupportedInstruction` is never reported.

`tick_advances` is one tick from a sound state: it throws nothing, keeps `Sound`, and either
comes nearer to the end of the instruction (`rank`) or ends it.  There is one lemma for each
microstate.  `step` therefore ends within five ticks from every state that calls of `reset`,
`tick` and `step` can reach, mid-instruction states included, and `Reports` says what its
result has to do with the state it leaves.
-/

namespace Mini32.Cpp.CpuCore

/-! ## The invariant -/

/-- An instruction is between `Decode` and its end. -/
def Executing (cpu : CpuCore) : Prop :=
  cpu.microstate = .execute ∨ cpu.microstate = .memory ∨ cpu.microstate = .writeback

/-- The latches hold an instruction. -/
structure Holds (cpu : CpuCore) (i : Isa.Instr) : Prop where
  decoded : cpu.decodedInstruction = some (Decoder.fieldsOf i)
  control : cpu.controlSignals = some i.control

/-- **The invariant of the core.** -/
structure Sound (cpu : CpuCore) : Prop where
  holds : cpu.Executing → ∃ i, cpu.Holds i
  operation : cpu.microstate = .memory →
    ∀ control, cpu.controlSignals = some control → control.memoryOperation ≠ .none
  supported : cpu.faultInfo.code ≠ .unsupportedInstruction

/-- Ticks left until the instruction ends at the latest. -/
def rank (cpu : CpuCore) : ℕ :=
  match cpu.microstate with
  | .fetch => 5
  | .decode => 4
  | .execute => 3
  | .memory => 2
  | .writeback => 1
  | .halted | .fault => 0

/-- What a tick inside an instruction does to the count and the microstate. -/
def Advances (cpu cpu' : CpuCore) : Prop :=
  (cpu'.Running cpu.retiredInstructions ∧ cpu'.rank < cpu.rank) ∨
    ((cpu'.microstate = .fetch ∨ cpu'.microstate = .halted) ∧
      cpu'.retiredInstructions = cpu.retiredInstructions + 1) ∨
    (cpu'.microstate = .fault ∧ cpu'.retiredInstructions = cpu.retiredInstructions)

variable {cpu cpu' : CpuCore} {bus : Bus}

/-- A core after `reset` is sound. -/
theorem sound_reset (cpu : CpuCore) : Sound cpu.reset where
  holds h := by
    rcases h with h | h | h <;> cases h
  operation h := nomatch h
  supported := nofun

/-- Outside an instruction the latches do not matter. -/
theorem Sound.of_idle (hm : ¬ cpu.Executing) (hf : cpu.faultInfo.code ≠ .unsupportedInstruction) :
    Sound cpu :=
  ⟨fun h => absurd h hm, fun h => absurd (Or.inr (Or.inl h)) hm, hf⟩

/-- At the two ends of an instruction the latches are not used. -/
theorem not_executing (h : cpu.microstate = .fetch ∨ cpu.microstate = .decode ∨
    cpu.microstate = .halted ∨ cpu.microstate = .fault) : ¬ cpu.Executing := by
  intro he
  rcases h with h | h | h | h <;> rcases he with he | he | he <;> rw [h] at he <;> cases he

/-! ## One tick from each microstate -/

/-- A tick that throws nothing, keeps the invariant and advances. -/
def Ticks (cpu : CpuCore) (bus : Bus) : Prop :=
  ∃ cpu' bus', cpu.tick bus = .ok (cpu', bus') ∧ Sound cpu' ∧ cpu.Advances cpu'

/-- A tick that retires. -/
theorem ticks_retireTo {b : Bus} {target : Word} (h : Sound cpu)
    (ht : cpu.tick bus = .ok (cpu'.retireTo b target))
    (hcount : cpu'.retiredInstructions = cpu.retiredInstructions)
    (hinfo : cpu'.faultInfo = cpu.faultInfo) : cpu.Ticks bus := by
  refine ⟨_, _, ht, .of_idle (not_executing (Or.inl rfl)) ?_,
    Or.inr (Or.inl ⟨Or.inl rfl, congrArg (· + 1) hcount⟩)⟩
  change cpu'.faultInfo.code ≠ _
  rw [hinfo]
  exact h.supported

/-- A tick that faults. -/
theorem ticks_enterFault {code : CpuFault} {address : Option Word}
    (ht : cpu.tick bus = .ok (cpu'.enterFault code address, bus))
    (hcount : cpu'.retiredInstructions = cpu.retiredInstructions)
    (hcode : code ≠ .unsupportedInstruction) : cpu.Ticks bus :=
  ⟨_, _, ht, .of_idle (not_executing (Or.inr (Or.inr (Or.inr rfl)))) hcode,
    Or.inr (Or.inr ⟨rfl, hcount⟩)⟩

/-- From `Fetch`. -/
theorem ticks_fetch (h : Sound cpu) (hm : cpu.microstate = .fetch) : cpu.Ticks bus := by
  cases hf : bus.fetch32 cpu.pc with
  | ok w =>
      refine ⟨_, _, tick_fetch hm hf, .of_idle (not_executing (Or.inr (Or.inl rfl))) h.supported,
        Or.inl ⟨⟨by simp [fetched], by simp [fetched], rfl⟩, ?_⟩⟩
      simp [rank, fetched, hm]
  | error fault =>
      exact ticks_enterFault (tick_fetch_fault hm hf) rfl
        (by cases fault <;> simp [Isa.fetchFault])

/-- From `Decode`, which fills the decoded instruction and the control record. -/
theorem ticks_decode (h : Sound cpu) (hm : cpu.microstate = .decode) : cpu.Ticks bus := by
  cases hd : Isa.decode cpu.instructionRegister with
  | error e =>
      exact ticks_enterFault (tick_decode_fault hm hd) rfl
        (by cases e <;> simp [Isa.DecodeFault.fault])
  | ok i =>
      refine ⟨_, _, tick_decode hm hd, ⟨fun _ => ⟨i, rfl, rfl⟩, by simp, h.supported⟩,
        Or.inl ⟨⟨by simp, by simp, rfl⟩, ?_⟩⟩
      simp [rank, hm]

/-- `Execute` on the flow of an instruction: to `Writeback` or `Memory`, or retired. -/
theorem ticks_execute (h : Sound cpu) (hm : cpu.microstate = .execute) : cpu.Ticks bus := by
  obtain ⟨i, hd, hc⟩ := h.holds (Or.inl hm)
  have hcontrol : deref cpu.controlSignals = .ok i.control := by rw [hc]; rfl
  have hdecoded : deref cpu.decodedInstruction = .ok (Decoder.fieldsOf i) := by rw [hd]; rfl
  -- three of the four kinds of transfer retire here, each from a state of its own
  have hretire {c : CpuCore} (ht : ∃ target, cpu.tickExecute bus = .ok (c.retireTo bus target))
      (hcount : c.retiredInstructions = cpu.retiredInstructions)
      (hinfo : c.faultInfo = cpu.faultInfo) : cpu.Ticks bus := by
    obtain ⟨target, ht⟩ := ht
    exact ticks_retireTo h (by rw [tick, hm]; exact ht) hcount hinfo
  cases hflow : i.control.controlFlow with
  | sequential =>
      have ht : cpu.tick bus = .ok ({ cpu with
          aluResult := Alu.execute i.control.aluOperation cpu.operandLhs cpu.operandRhs
          microstate := if i.control.memoryOperation = .none then .writeback else .memory },
          bus) := by
        simp only [tick, hm, tickExecute, hcontrol, bind, Except.bind, hflow]
        rfl
      refine ⟨_, _, ht, ⟨fun _ => ⟨i, hd, hc⟩, fun hmem control hcontrol' => ?_, h.supported⟩, ?_⟩
      · obtain rfl : i.control = control := Option.some.inj (hc.symm.trans hcontrol')
        intro hnone
        rw [if_pos hnone] at hmem
        cases hmem
      · refine Or.inl ⟨⟨?_, ?_, rfl⟩, ?_⟩
        · split <;> simp
        · split <;> simp
        · simp only [rank, hm]
          split_ifs <;> simp
  | conditionalBranch =>
      refine hretire (c := { cpu with
        aluResult := Alu.execute i.control.aluOperation cpu.operandLhs cpu.operandRhs })
        ⟨?branch, ?branchTicks⟩ rfl rfl
      case branchTicks =>
        simp only [tickExecute, hcontrol, hdecoded, bind, Except.bind, hflow]
        rfl
  | relativeJump =>
      cases hw : i.control.regWrite with
      | false =>
          refine hretire (c := { cpu with
            aluResult := Alu.execute i.control.aluOperation cpu.operandLhs cpu.operandRhs
            nextPc := cpu.pcPlus4 + Decoder.jumpDisplacement (Decoder.fieldsOf i).imm26 })
            ⟨?jump, ?jumpTicks⟩ rfl rfl
          case jumpTicks =>
            simp only [tickExecute, hcontrol, hdecoded, bind, Except.bind, hflow, hw]
            rfl
      | true =>
          -- only `JAL` writes a register and jumps, so the load and store case does not arise
          have hop : i.control.memoryOperation = .none := by
            cases i <;> simp_all [Isa.Instr.control]
          have ht : cpu.tick bus = .ok ({ cpu with
              aluResult := Alu.execute i.control.aluOperation cpu.operandLhs cpu.operandRhs
              nextPc := cpu.pcPlus4 + Decoder.jumpDisplacement (Decoder.fieldsOf i).imm26
              microstate := .writeback }, bus) := by
            simp only [tick, hm, tickExecute, hcontrol, hdecoded, bind, Except.bind, hflow, hw, hop]
            rfl
          refine ⟨_, _, ht, ⟨fun _ => ⟨i, hd, hc⟩, by simp, h.supported⟩,
            Or.inl ⟨⟨by simp, by simp, rfl⟩, ?_⟩⟩
          simp [rank, hm]
  | registerJump =>
      refine hretire (c := { cpu with
        aluResult := Alu.execute i.control.aluOperation cpu.operandLhs cpu.operandRhs })
        ⟨?register, ?registerTicks⟩ rfl rfl
      case registerTicks =>
        simp only [tickExecute, hcontrol, bind, Except.bind, hflow]
        rfl

/-- From `Memory`. -/
theorem ticks_memory (h : Sound cpu) (hm : cpu.microstate = .memory) : cpu.Ticks bus := by
  obtain ⟨i, hd, hc⟩ := h.holds (Or.inr (Or.inl hm))
  cases hop : i.control.memoryOperation with
  | none => exact absurd hop (h.operation hm i.control hc)
  | load =>
      cases hread : bus.read32 cpu.aluResult with
      | error fault =>
          exact ticks_enterFault (tick_load_fault hm hc hop hread) rfl
            (by cases fault <;> simp [Isa.loadFault])
      | ok data =>
          refine ⟨_, _, tick_load hm hc hop hread, ⟨fun _ => ⟨i, hd, hc⟩, by simp, h.supported⟩,
            Or.inl ⟨⟨by simp, by simp, rfl⟩, ?_⟩⟩
          simp [rank, hm]
  | store =>
      obtain ⟨fault, hwrite, -⟩ | ⟨b, hwrite, -⟩ :=
        Bus.write32_memory bus cpu.aluResult cpu.storeData
      · exact ticks_enterFault (tick_store_fault hm hc hop hwrite) rfl
          (by cases fault <;> simp [Isa.storeFault])
      · exact ticks_retireTo h (tick_store hm hc hop hwrite) rfl rfl

/-- From `Writeback`. -/
theorem ticks_writeback (h : Sound cpu) (hm : cpu.microstate = .writeback) : cpu.Ticks bus := by
  obtain ⟨i, hd, hc⟩ := h.holds (Or.inr (Or.inr hm))
  have hends : (cpu.writtenBack i).microstate = .fetch ∨
      (cpu.writtenBack i).microstate = .halted := by
    simp only [writtenBack]
    cases i.control.halt
    · exact Or.inl rfl
    · exact Or.inr rfl
  have hidle : ¬ (cpu.writtenBack i).Executing :=
    not_executing (hends.imp_right fun hhalted => Or.inr (Or.inl hhalted))
  exact ⟨_, _, tick_writeback hm hc hd, .of_idle hidle h.supported, Or.inr (Or.inl ⟨hends, rfl⟩)⟩

/-- **One tick of a running core** throws nothing, keeps the invariant and advances. -/
theorem tick_advances (h : Sound cpu) (hrun : cpu.Running cpu.retiredInstructions) (bus : Bus) :
    cpu.Ticks bus := by
  cases hm : cpu.microstate with
  | fetch => exact ticks_fetch h hm
  | decode => exact ticks_decode h hm
  | execute => exact ticks_execute h hm
  | memory => exact ticks_memory h hm
  | writeback => exact ticks_writeback h hm
  | halted => exact absurd hm hrun.1
  | fault => exact absurd hm hrun.2.1

/-- Every tick throws nothing and keeps the invariant. -/
theorem tick_sound (h : Sound cpu) (bus : Bus) :
    ∃ cpu' bus', cpu.tick bus = .ok (cpu', bus') ∧ Sound cpu' := by
  by_cases hstop : cpu.microstate = .halted ∨ cpu.microstate = .fault
  · refine ⟨cpu, bus, ?_, h⟩
    rcases hstop with hm | hm <;> simp [tick, hm]
  · rw [not_or] at hstop
    obtain ⟨cpu', bus', ht, hsound, -⟩ := tick_advances h ⟨hstop.1, hstop.2, rfl⟩ bus
    exact ⟨cpu', bus', ht, hsound⟩

/-! ## The loop of `step` -/

/-- The core after the loop of a `step` that began with `before` retirements. -/
def Ends (before : ℕ) (cpu : CpuCore) : Prop :=
  ((cpu.microstate = .fetch ∨ cpu.microstate = .halted) ∧ cpu.retiredInstructions = before + 1) ∨
    (cpu.microstate = .fault ∧ cpu.retiredInstructions = before)

/-- **The loop ends** within the ticks that are left. -/
theorem stepLoop_ends {before fuel : ℕ} (h : Sound cpu) (hrun : cpu.Running before)
    (hfuel : cpu.rank ≤ fuel) (bus : Bus) :
    ∃ cpu' bus', stepLoop before fuel cpu bus = .ok (cpu', bus') ∧ Sound cpu' ∧
      cpu'.Ends before := by
  induction fuel generalizing cpu bus with
  | zero =>
      obtain ⟨hh, hf, -⟩ := hrun
      cases hm : cpu.microstate <;> simp_all [rank]
  | succ fuel ih =>
      obtain rfl := hrun.2.2
      obtain ⟨cpu', bus', ht, hsound, hadvance⟩ := tick_advances h hrun bus
      rcases hadvance with ⟨hrun', hrank⟩ | ⟨hlive, hcount⟩ | ⟨hfault, hcount⟩
      · rw [stepLoop_next hrun ht]
        exact ih hsound hrun' (by omega) bus'
      · exact ⟨cpu', bus', stepLoop_last hrun ht (not_running_succ hcount), hsound,
          Or.inl ⟨hlive, hcount⟩⟩
      · exact ⟨cpu', bus', stepLoop_last hrun ht (fun hr => hr.2.1 hfault), hsound,
          Or.inr ⟨hfault, hcount⟩⟩

/-- The fuel of `step` covers every instruction. -/
theorem rank_le (cpu : CpuCore) : cpu.rank ≤ kStepFuel := by
  cases h : cpu.microstate <;> simp [rank, h, kStepFuel]

/-- What a call of `step` reports is the microstate it leaves, and what it counted: one
instruction, or none if it faulted. -/
def Reports (cpu : CpuCore) (result : StepResult) (cpu' : CpuCore) : Prop :=
  match result with
  | .retired => cpu'.microstate = .fetch ∧
      cpu'.retiredInstructions = cpu.retiredInstructions + 1
  | .halted => cpu'.microstate = .halted ∧
      cpu'.retiredInstructions = cpu.retiredInstructions + 1
  | .faulted => cpu'.microstate = .fault ∧ cpu'.retiredInstructions = cpu.retiredInstructions

/-- **`step` ends within five ticks** from every sound state: no larger bound on its loop
makes a difference. -/
theorem step_sound (h : Sound cpu) (bus : Bus) :
    ∃ result cpu' bus',
      (∀ fuel, 5 ≤ fuel → cpu.stepWithin fuel bus = .ok (result, cpu', bus')) ∧ Sound cpu' ∧
        (cpu.halted = false → cpu.faulted = false → cpu.Reports result cpu') := by
  cases hh : cpu.halted with
  | true => exact ⟨.halted, cpu, bus, fun _ _ => by simp [stepWithin, hh], h, by simp⟩
  | false =>
      cases hf : cpu.faulted with
      | true => exact ⟨.faulted, cpu, bus, fun _ _ => by simp [stepWithin, hh, hf], h, by simp⟩
      | false =>
          have hrun : cpu.Running cpu.retiredInstructions := by
            simp only [halted, faulted, decide_eq_false_iff_not] at hh hf
            exact ⟨hh, hf, rfl⟩
          obtain ⟨cpu', bus', hloop, hsound, hends⟩ := stepLoop_ends h hrun (rank_le cpu) bus
          have hstep (fuel : ℕ) (hfuel : 5 ≤ fuel) :
              cpu.stepWithin fuel bus = .ok (if cpu'.faulted then .faulted
                else if cpu'.halted then .halted else .retired, cpu', bus') := by
            have hmore := stepLoop_mono hloop (fuel - 5)
            rw [kStepFuel, Nat.add_sub_cancel' hfuel] at hmore
            simp [stepWithin, hh, hf, hmore, bind, Except.bind]
          refine ⟨_, cpu', bus', hstep, hsound, fun _ _ => ?_⟩
          rcases hends with ⟨hm | hm, hcount⟩ | ⟨hm, hcount⟩
          all_goals
            simp only [faulted, halted, hm, reduceCtorEq, decide_false, decide_true, if_true,
              Bool.false_eq_true, if_false]
            exact ⟨hm, hcount⟩

/-! ## Every reachable state -/

/-- The states that calls of `reset`, `tick` and `step` reach from the constructor, in
any order, each call with any ROM and any state of the devices. -/
inductive Reachable : CpuCore → Prop
  | construct : Reachable construct
  | reset {c : CpuCore} : Reachable c → Reachable c.reset
  | tick {c c' : CpuCore} {b b' : Bus} :
      Reachable c → c.tick b = .ok (c', b') → Reachable c'
  | step {c c' : CpuCore} {b b' : Bus} {result : StepResult} :
      Reachable c → c.step b = .ok (result, c', b') → Reachable c'

/-- The invariant holds of every reachable core. -/
theorem Reachable.sound (h : Reachable cpu) : Sound cpu := by
  induction h with
  | construct => exact sound_reset _
  | reset _ _ => exact sound_reset _
  | tick _ ht ih =>
      obtain ⟨cpu', bus', ht', hsound⟩ := tick_sound ih _
      cases ht.symm.trans ht'
      exact hsound
  | step _ hs ih =>
      obtain ⟨result, cpu', bus', hs', hsound, -⟩ := step_sound ih _
      cases hs.symm.trans (hs' 5 le_rfl)
      exact hsound

/-- **What holds of the core in every reachable state.** -/
structure NeverStuck (cpu : CpuCore) : Prop where
  /-- In `Execute`, `Memory` and `Writeback` both latches are engaged, and the control
  record is that of the decoded opcode. -/
  engaged : cpu.Executing → ∃ decoded control, cpu.decodedInstruction = some decoded ∧
    cpu.controlSignals = some control ∧ Decoder.controlFor decoded.opcode = some control
  /-- In `Memory` there is an operation. -/
  operation : cpu.microstate = .memory → ∃ control, cpu.controlSignals = some control ∧
    (control.memoryOperation = .load ∨ control.memoryOperation = .store)
  /-- The register indices of a word about to be decoded, and of a decoded one, are in
  range. -/
  indices : ∀ decoded, Decoder.decode cpu.instructionRegister = .ok decoded ∨
      (cpu.Executing ∧ cpu.decodedInstruction = some decoded) →
    decoded.rd < RegisterFile.kRegisterCount ∧ decoded.rs1 < RegisterFile.kRegisterCount ∧
      decoded.rs2 < RegisterFile.kRegisterCount
  /-- No call throws `std::out_of_range` or dereferences a disengaged optional. -/
  tick : ∀ bus, ∃ cpu' bus', cpu.tick bus = .ok (cpu', bus')
  supported : cpu.faultInfo.code ≠ .unsupportedInstruction
  /-- The loop of `step` ends within five ticks, so any larger bound gives the same; where
  the core runs it retires one instruction, or faults and retires none. -/
  step : ∀ bus, ∃ result cpu' bus',
    (∀ fuel, 5 ≤ fuel → cpu.stepWithin fuel bus = .ok (result, cpu', bus')) ∧
      (cpu.halted = false → cpu.faulted = false → cpu.Reports result cpu')

/-- The register fields of a decoded instruction are register indices. -/
theorem fieldsOf_lt (i : Isa.Instr) :
    (Decoder.fieldsOf i).rd < RegisterFile.kRegisterCount ∧
      (Decoder.fieldsOf i).rs1 < RegisterFile.kRegisterCount ∧
        (Decoder.fieldsOf i).rs2 < RegisterFile.kRegisterCount := by
  have hlt (r : Reg) : r.setWidth 8 < RegisterFile.kRegisterCount :=
    BitVec.not_le.mp (RegisterFile.index_lt r)
  have hzero : (0 : BitVec 8) < RegisterFile.kRegisterCount := by decide
  cases i <;> simp only [Decoder.fieldsOf, hlt, hzero, and_self]

/-- **The core never gets stuck or misuses its latches**, for every ROM, every state of
the devices, and every interleaving of `reset`, `tick` and `step`. -/
theorem reachable_neverStuck (cpu : CpuCore) (h : Reachable cpu) : NeverStuck cpu where
  engaged he := by
    obtain ⟨i, hd, hc⟩ := h.sound.holds he
    exact ⟨_, _, hd, hc, by rw [fieldsOf_opcode, controlFor_opcode]⟩
  operation hm := by
    obtain ⟨i, -, hc⟩ := h.sound.holds (Or.inr (Or.inl hm))
    refine ⟨_, hc, ?_⟩
    have hop := h.sound.operation hm _ hc
    cases hmem : i.control.memoryOperation with
    | none => exact absurd hmem hop
    | load => exact Or.inl rfl
    | store => exact Or.inr rfl
  indices decoded hdecoded := by
    obtain ⟨i, rfl⟩ : ∃ i, Decoder.fieldsOf i = decoded := by
      rcases hdecoded with hd | ⟨he, hd⟩
      · rw [Decoder.decode_eq] at hd
        cases hi : Isa.decode cpu.instructionRegister with
        | error e =>
            rw [hi] at hd
            nomatch hd
        | ok i =>
            rw [hi] at hd
            exact ⟨i, Except.ok.inj hd⟩
      · obtain ⟨i, hi, -⟩ := h.sound.holds he
        exact ⟨i, Option.some.inj (hi.symm.trans hd)⟩
    exact fieldsOf_lt i
  tick bus := by
    obtain ⟨cpu', bus', ht, -⟩ := tick_sound h.sound bus
    exact ⟨cpu', bus', ht⟩
  supported := h.sound.supported
  step bus := by
    obtain ⟨result, cpu', bus', hs, -, hreports⟩ := step_sound h.sound bus
    exact ⟨result, cpu', bus', hs, hreports⟩

/-- `LUI r1, 0x1000` and `SW r1, 0(r1)`. -/
def storeBus : Bus :=
  .fresh ⟨fun i => ([0x00, 0x10, 0x20, 0x34, 0x00, 0x00, 0x21, 0x3C] : List (BitVec 8)).getD i 0⟩ 0

/-- One instruction and three ticks of the next one. -/
def storing : Except Hazard (CpuCore × Bus) := do
  let (_, cpu, bus) ← construct.step storeBus
  let (cpu, bus) ← cpu.tick bus
  let (cpu, bus) ← cpu.tick bus
  cpu.tick bus

/-- The core in the middle of a store. -/
theorem storing_neverStuck : ∃ cpu bus, storing = .ok (cpu, bus) ∧ cpu.microstate = .memory ∧
    cpu.controlSignals.map (·.memoryOperation) = some .store ∧ NeverStuck cpu := by
  have hrun : storing.map (fun r => (r.1.microstate, r.1.controlSignals.map (·.memoryOperation))) =
      .ok (.memory, some .store) := by rfl
  cases hstoring : storing with
  | error hazard =>
      rw [hstoring] at hrun
      nomatch hrun
  | ok r =>
      rw [hstoring] at hrun
      obtain ⟨hm, hop⟩ := Prod.mk.inj (Except.ok.inj hrun)
      simp only [storing, Fallible.bind_eq_ok] at hstoring
      obtain ⟨_, h₁, _, h₂, _, h₃, h₄⟩ := hstoring
      refine ⟨r.1, r.2, rfl, hm, hop, reachable_neverStuck r.1 ?_⟩
      exact .tick (.tick (.tick (.step .construct h₁) h₂) h₃) h₄

end Mini32.Cpp.CpuCore
