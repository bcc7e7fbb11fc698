import Mini32.Simulator.CpuCore

/-!
# `CpuCore::step` executes one ISA instruction

The microstate machine reaches its result through four or five ticks and a dozen
latches; this file says what comes out.  `step_completes` is the one place where
the ticks are run: from microstate `Fetch`, whatever the latches hold, `step`
ends within its fuel, throws nothing, and leaves what `Isa.step` over the
simulator's own bus prescribes.  Everything later is read off `Completes`.

## The way to `step_completes`

The core is named after each tick (`fetched`, `latched`, `executed`, `writtenBack`), and
there is one lemma for each tick that leads from one to the next or into a fault.
`stepLoop_latched` puts them together, one case for each kind of instruction; those without
a memory access share `stepLoop_writeback`.  The fuel is counted along the way, so more of
it changes nothing (`stepLoop_mono`).

## What is read off

`step_implements_isa` is the result against the ISA.  `faulted_step_atomic` adds that a
faulted instruction leaves the registers and the memory alone and that the core stays
faulted under any calls.  `stepCalls` is a row of calls, for the loops of the programs.
-/

namespace Mini32.Cpp

namespace RegisterFile

/-- A five-bit register index is in range. -/
theorem index_lt (r : Reg) : ¬ r.setWidth 8 ≥ kRegisterCount := by
  have := r.isLt
  rw [kRegisterCount]
  bv_omega

/-- A five-bit index never throws. -/
theorem read_setWidth (file : RegisterFile) (r : Reg) :
    file.read (r.setWidth 8) = .ok (if r = 0 then 0 else file.registers r) := by
  have hz : r.setWidth 8 = 0#8 ↔ r = 0#5 := Bits.setWidth_eq_zero_iff r (by decide)
  rw [read, if_neg (index_lt r)]
  simp [hz]

/-- Register 0 reads as zero. -/
@[simp] theorem read_zero (file : RegisterFile) : file.read 0#8 = .ok 0 := rfl

/-- Nor does a write through one. -/
theorem write_setWidth (file : RegisterFile) (r : Reg) (v : Word) :
    file.write (r.setWidth 8) v =
      .ok (if r = 0 then file else ⟨Function.update file.registers r v⟩) := by
  have hz : r.setWidth 8 = 0#8 ↔ r = 0#5 := Bits.setWidth_eq_zero_iff r (by decide)
  rw [write, if_neg (index_lt r)]
  by_cases h : r = 0#5 <;> simp [h, hz]

end RegisterFile

namespace CpuCore

/-- The architectural part of the core. -/
def arch (cpu : CpuCore) : Isa.ArchState := ⟨cpu.pc, cpu.registers.registers⟩

/-- What a completed `step` leaves for an outcome of the ISA. -/
def Completes (cpu : CpuCore) (bus : Bus) (result : StepResult) (cpu' : CpuCore) (bus' : Bus) :
    Isa.Outcome Bus → Prop
  | .fault info =>
      result = .faulted ∧ cpu'.microstate = .fault ∧ cpu'.faultInfo = info ∧
        cpu'.arch = cpu.arch ∧ cpu'.retiredInstructions = cpu.retiredInstructions ∧ bus' = bus
  | .retire _ effect b =>
      result = (if effect.halts then .halted else .retired) ∧
        cpu'.microstate = (if effect.halts then .halted else .fetch) ∧
        cpu'.faultInfo = cpu.faultInfo ∧ cpu'.arch = effect.apply cpu.arch ∧
        cpu'.retiredInstructions = cpu.retiredInstructions + 1 ∧ bus' = b

/-! ## The control record of each kind of instruction -/

/-- The control unit knows every instruction. -/
theorem controlFor_opcode (i : Isa.Instr) : Decoder.controlFor i.opcode = some i.control := by
  cases i with
  | alu op => cases op <;> rfl
  | imm op => cases op <;> rfl
  | branch c => cases c <;> rfl
  | _ => rfl

/-- An immediate operation, with the extension that its control record asks for. -/
theorem execute_extension (op : Isa.ImmOp) (lhs : Word) (imm16 : BitVec 16) :
    Alu.execute op.operation lhs (Decoder.immediateValue op.extension imm16) =
      op.eval lhs imm16 := by
  cases op with
  | addi =>
      simp only [Isa.ImmOp.operation, Isa.ImmOp.extension, Alu.execute, Isa.ImmOp.eval,
        Decoder.immediateValue_signed16]
  | _ => rfl

/-- The branch predicate of the control record. -/
theorem branchTaken_eq (cpu : CpuCore) (control : ControlSignals) (c : Isa.Cond)
    (h : control.branchPredicate = c.predicate) :
    cpu.branchTaken control = c.holds cpu.operandLhs cpu.operandRhs := by
  cases c <;> simp [branchTaken, h, Isa.Cond.predicate, Isa.Cond.holds, signedLessThan_eq]

/-! ## Running the microstates -/

section Run

variable {cpu : CpuCore} {bus : Bus} {before fuel : ℕ}

/-- The core is between the ticks of one instruction. -/
def Running (before : ℕ) (cpu : CpuCore) : Prop :=
  cpu.microstate ≠ .halted ∧ cpu.microstate ≠ .fault ∧ cpu.retiredInstructions = before

/-- A core that runs ticks, … -/
theorem stepLoop_tick (h : cpu.Running before) :
    stepLoop before (fuel + 1) cpu bus =
      cpu.tick bus >>= fun r => stepLoop before fuel r.1 r.2 := by
  obtain ⟨hh, hf, hr⟩ := h
  simp [stepLoop, halted, faulted, hh, hf, hr]

/-- … and one that stopped leaves the loop. -/
theorem stepLoop_stop (h : ¬ cpu.Running before) :
    stepLoop before fuel cpu bus = .ok (cpu, bus) := by
  have hrun : (!cpu.halted && !cpu.faulted && cpu.retiredInstructions == before) = false := by
    simp only [Running, not_and_or, not_not] at h
    rcases h with h | h | h <;> simp [halted, faulted, h]
  cases fuel <;> simp only [stepLoop, hrun, Bool.false_eq_true, if_false]

/-- The tick that ends the loop. -/
theorem stepLoop_last {cpu' : CpuCore} {bus' : Bus} (h : cpu.Running before)
    (ht : cpu.tick bus = .ok (cpu', bus')) (hstop : ¬ cpu'.Running before) :
    stepLoop before (fuel + 1) cpu bus = .ok (cpu', bus') := by
  rw [stepLoop_tick h, ht]
  exact stepLoop_stop hstop

/-- A tick inside the loop. -/
theorem stepLoop_next {cpu' : CpuCore} {bus' : Bus} (h : cpu.Running before)
    (ht : cpu.tick bus = .ok (cpu', bus')) :
    stepLoop before (fuel + 1) cpu bus = stepLoop before fuel cpu' bus' := by
  rw [stepLoop_tick h, ht]
  rfl

/-- Fuel beyond what the loop needs changes nothing. -/
theorem stepLoop_mono {r : CpuCore × Bus} (h : stepLoop before fuel cpu bus = .ok r) (extra : ℕ) :
    stepLoop before (fuel + extra) cpu bus = .ok r := by
  induction fuel generalizing cpu bus with
  | zero =>
      by_cases hrun : cpu.Running before
      · obtain ⟨hh, hf, hr⟩ := hrun
        simp [stepLoop, halted, faulted, hh, hf, hr] at h
      · rw [stepLoop_stop hrun] at h ⊢
        exact h
  | succ fuel ih =>
      by_cases hrun : cpu.Running before
      · rw [stepLoop_tick hrun] at h
        rw [Nat.add_right_comm, stepLoop_tick hrun]
        cases ht : cpu.tick bus with
        | error e => rw [ht] at h; simp [bind, Except.bind] at h
        | ok s =>
            rw [ht] at h
            exact ih h
      · rw [stepLoop_stop hrun] at h ⊢
        exact h

/-- The core with `w` fetched. -/
def fetched (cpu : CpuCore) (w : Word) : CpuCore :=
  { cpu with
    instructionRegister := w, pcPlus4 := cpu.pc + 4, nextPc := cpu.pc + 4, microstate := .decode }

/-- The first operand latched for an instruction. -/
def lhsOf (a : Isa.ArchState) : Isa.Instr → Word
  | .alu _ _ rs1 _ | .branch _ rs1 _ _ | .imm _ _ rs1 _ | .lw _ rs1 _ | .sw _ rs1 _ | .jr rs1 =>
      a.read rs1
  | _ => 0

/-- The store operand latched for an instruction. -/
def storeOf (a : Isa.ArchState) : Isa.Instr → Word
  | .alu _ _ _ rs2 | .branch _ _ rs2 _ | .sw rs2 _ _ => a.read rs2
  | _ => 0

/-- The second operand latched for an instruction. -/
def rhsOf (a : Isa.ArchState) (i : Isa.Instr) : Word :=
  if i.control.aluSrcImmediate then
    Decoder.immediateValue i.control.immediateKind (Decoder.fieldsOf i).imm16
  else storeOf a i

/-- The core with an instruction decoded and its operands read. -/
def latched (cpu : CpuCore) (w : Word) (i : Isa.Instr) : CpuCore :=
  { cpu.fetched w with
    decodedInstruction := some (Decoder.fieldsOf i), controlSignals := some i.control
    operandLhs := lhsOf cpu.arch i, operandRhs := rhsOf cpu.arch i
    storeData := storeOf cpu.arch i, microstate := .execute }

/-- A fetch fills the instruction register, … -/
theorem tick_fetch {w : Word} (hm : cpu.microstate = .fetch) (hf : bus.fetch32 cpu.pc = .ok w) :
    cpu.tick bus = .ok (cpu.fetched w, bus) := by
  simp only [tick, hm, tickFetch, hf, kInstructionAlignment]
  rfl

/-- … or faults. -/
theorem tick_fetch_fault {fault : BusFault} (hm : cpu.microstate = .fetch)
    (hf : bus.fetch32 cpu.pc = .error fault) :
    cpu.tick bus = .ok ({ cpu with
      instructionRegister := 0, pcPlus4 := cpu.pc + 4
      nextPc := cpu.pc + 4 }.enterFault (Isa.fetchFault fault), bus) := by
  simp only [tick, hm, tickFetch, hf, kInstructionAlignment]
  cases fault <;> rfl

/-- The decoded opcode. -/
theorem fieldsOf_opcode (i : Isa.Instr) : (Decoder.fieldsOf i).opcode = i.opcode := by
  cases i <;> rfl

/-- The first operand is the register in `rs1`, … -/
theorem fieldsOf_rs1 (i : Isa.Instr) :
    cpu.registers.read (Decoder.fieldsOf i).rs1 = .ok (lhsOf cpu.arch i) := by
  cases i <;>
    simp [Decoder.fieldsOf, lhsOf, RegisterFile.read_setWidth, arch, Isa.ArchState.read]

/-- … the word to store the one in `rs2`. -/
theorem fieldsOf_rs2 (i : Isa.Instr) :
    cpu.registers.read (Decoder.fieldsOf i).rs2 = .ok (storeOf cpu.arch i) := by
  cases i <;>
    simp [Decoder.fieldsOf, storeOf, RegisterFile.read_setWidth, arch, Isa.ArchState.read]

/-- A legal word fills the latches, … -/
theorem tick_decode {i : Isa.Instr} (hm : cpu.microstate = .decode)
    (hd : Isa.decode cpu.instructionRegister = .ok i) :
    cpu.tick bus = .ok ({ cpu with
      decodedInstruction := some (Decoder.fieldsOf i), controlSignals := some i.control
      operandLhs := lhsOf cpu.arch i, operandRhs := rhsOf cpu.arch i
      storeData := storeOf cpu.arch i, microstate := .execute }, bus) := by
  have hdec : Decoder.decode cpu.instructionRegister = .ok (Decoder.fieldsOf i) := by
    rw [Decoder.decode_eq, hd]
    rfl
  simp only [tick, hm, tickDecode, hdec, fieldsOf_opcode, controlFor_opcode, fieldsOf_rs1,
    fieldsOf_rs2, rhsOf]
  cases i.control.aluSrcImmediate <;> rfl

/-- … any other faults. -/
theorem tick_decode_fault {e : Isa.DecodeFault} (hm : cpu.microstate = .decode)
    (hd : Isa.decode cpu.instructionRegister = .error e) :
    cpu.tick bus = .ok (cpu.enterFault e.fault, bus) := by
  have hdec : Decoder.decode cpu.instructionRegister = .error (Decoder.errorOf e) := by
    rw [Decoder.decode_eq, hd]
    rfl
  simp only [tick, hm, tickDecode, hdec]
  cases e <;> rfl

/-- The core with the ALU result latched. -/
def executed (cpu : CpuCore) (w : Word) (i : Isa.Instr) : CpuCore :=
  { cpu.latched w i with
    aluResult := Alu.execute i.control.aluOperation (lhsOf cpu.arch i) (rhsOf cpu.arch i)
    microstate := if i.control.memoryOperation = .none then .writeback else .memory }

/-- An instruction without control flow only computes. -/
theorem tick_execute {w : Word} {i : Isa.Instr} (h : i.control.controlFlow = .sequential) :
    (cpu.latched w i).tick bus = .ok (cpu.executed w i, bus) := by
  simp only [tick, latched, tickExecute, deref, bind, Except.bind, h]
  rfl

/-- The value `Writeback` selects for an instruction. -/
def writebackValue (cpu : CpuCore) (i : Isa.Instr) : Word :=
  match i.control.writebackSource with
  | .memory => cpu.memoryData
  | .pcPlus4 => cpu.pcPlus4
  | .alu => cpu.aluResult

/-- The core after `Writeback`. -/
def writtenBack (cpu : CpuCore) (i : Isa.Instr) : CpuCore :=
  { cpu with
    registers := ⟨(cpu.arch.write i.destination (cpu.writebackValue i)).regs⟩
    pc := cpu.nextPc
    retiredInstructions := cpu.retiredInstructions + 1
    microstate := if i.control.halt then .halted else .fetch }

/-- The last tick of an instruction that ends in `Writeback`. -/
theorem tick_writeback {i : Isa.Instr} (hm : cpu.microstate = .writeback)
    (hc : cpu.controlSignals = some i.control)
    (hd : cpu.decodedInstruction = some (Decoder.fieldsOf i)) :
    cpu.tick bus = .ok (cpu.writtenBack i, bus.retireTick) := by
  have hwrite (rd : Reg) (v : Word) :
      cpu.registers.write (rd.setWidth 8) v = .ok ⟨(cpu.arch.write rd v).regs⟩ := by
    rw [RegisterFile.write_setWidth, Isa.ArchState.write]
    split <;> rfl
  have hcontrol : deref cpu.controlSignals = .ok i.control := by rw [hc]; rfl
  have hdecoded : deref cpu.decodedInstruction = .ok (Decoder.fieldsOf i) := by rw [hd]; rfl
  simp only [tick, hm, tickWriteback, hcontrol, hdecoded]
  cases i with
  | alu | imm | lui | lw =>
      simp only [Isa.Instr.control, Decoder.fieldsOf, bind, Except.bind, pure, Except.pure,
        Functor.map,
        Except.map, if_true, hwrite]
      rfl
  | _ => rfl

section Memory

variable {i : Isa.Instr} {fault : BusFault} (hm : cpu.microstate = .memory)
  (hc : cpu.controlSignals = some i.control)
include hm hc

/-- A load takes its word, … -/
theorem tick_load {data : Word} (hop : i.control.memoryOperation = .load)
    (hread : bus.read32 cpu.aluResult = .ok data) :
    cpu.tick bus = .ok ({ cpu with memoryData := data, microstate := .writeback }, bus) := by
  have hcontrol : deref cpu.controlSignals = .ok i.control := by rw [hc]; rfl
  rw [tick, hm]
  simp only [tickMemory, hcontrol, bind, Except.bind, hop, hread]
  rfl

/-- … or faults. -/
theorem tick_load_fault (hop : i.control.memoryOperation = .load)
    (hread : bus.read32 cpu.aluResult = .error fault) :
    cpu.tick bus = .ok (cpu.enterFault (Isa.loadFault fault) cpu.aluResult, bus) := by
  have hcontrol : deref cpu.controlSignals = .ok i.control := by rw [hc]; rfl
  rw [tick, hm]
  simp only [tickMemory, hcontrol, bind, Except.bind, hop, hread]
  cases fault <;> rfl

/-- A store retires the instruction, … -/
theorem tick_store {bus' : Bus} (hop : i.control.memoryOperation = .store)
    (hwrite : bus.write32 cpu.aluResult cpu.storeData = (none, bus')) :
    cpu.tick bus = .ok (cpu.retireTo bus' cpu.nextPc) := by
  have hcontrol : deref cpu.controlSignals = .ok i.control := by rw [hc]; rfl
  rw [tick, hm]
  simp only [tickMemory, hcontrol, bind, Except.bind, hop, hwrite]
  rfl

/-- … or faults. -/
theorem tick_store_fault (hop : i.control.memoryOperation = .store)
    (hwrite : bus.write32 cpu.aluResult cpu.storeData = (some fault, bus)) :
    cpu.tick bus = .ok (cpu.enterFault (Isa.storeFault fault) cpu.aluResult, bus) := by
  have hcontrol : deref cpu.controlSignals = .ok i.control := by rw [hc]; rfl
  rw [tick, hm]
  simp only [tickMemory, hcontrol, bind, Except.bind, hop, hwrite]
  cases fault <;> rfl

end Memory

/-- An instruction under way is inside the loop, … -/
theorem running_latched (w : Word) (i : Isa.Instr) :
    (cpu.latched w i).Running cpu.retiredInstructions := ⟨nofun, nofun, rfl⟩

/-- … and still is once it is executed. -/
theorem running_executed (w : Word) (i : Isa.Instr) :
    (cpu.executed w i).Running cpu.retiredInstructions := by
  refine ⟨?_, ?_, rfl⟩ <;> simp only [executed] <;> split <;> nofun

/-- A core that retired is out of the loop. -/
theorem not_running_succ {cpu : CpuCore} (h : cpu.retiredInstructions = before + 1) :
    ¬ cpu.Running before := fun hr => by
  have := hr.2.2
  omega

/-- The last two ticks of an instruction without a memory access. -/
theorem stepLoop_writeback {w : Word} {i : Isa.Instr} {c : CpuCore}
    (ht : (cpu.latched w i).tick bus = .ok (c, bus)) (hrun : c.Running cpu.retiredInstructions)
    (hm : c.microstate = .writeback) (hc : c.controlSignals = some i.control)
    (hd : c.decodedInstruction = some (Decoder.fieldsOf i)) :
    stepLoop cpu.retiredInstructions (fuel + 2) (cpu.latched w i) bus =
      .ok (c.writtenBack i, bus.retireTick) := by
  rw [stepLoop_next (running_latched w i) ht]
  refine stepLoop_last hrun (tick_writeback hm hc hd) (not_running_succ ?_)
  exact congrArg (· + 1) hrun.2.2

/-- What the ticks after `Decode` leave, for the outcome of the instruction. -/
def Leaves (cpu : CpuCore) (bus : Bus) (w : Word) (i : Isa.Instr) (cpu' : CpuCore) (bus' : Bus) :
    Prop :=
  match Isa.execute Bus.busModel cpu.arch bus i with
  | .error (code, address) =>
      cpu'.microstate = .fault ∧ cpu'.faultInfo = ⟨code, cpu.pc, w, some address⟩ ∧
        cpu'.arch = cpu.arch ∧ cpu'.retiredInstructions = cpu.retiredInstructions ∧ bus' = bus
  | .ok (effect, b) =>
      cpu'.microstate = (if effect.halts then .halted else .fetch) ∧
        cpu'.faultInfo = cpu.faultInfo ∧ cpu'.arch = effect.apply cpu.arch ∧
        cpu'.retiredInstructions = cpu.retiredInstructions + 1 ∧ bus' = b.retireTick

/-- From `Execute` on, an instruction needs at most three ticks. -/
theorem stepLoop_latched (cpu : CpuCore) (bus : Bus) (w : Word) (i : Isa.Instr) :
    ∃ cpu' bus', stepLoop cpu.retiredInstructions 3 (cpu.latched w i) bus = .ok (cpu', bus') ∧
      cpu.Leaves bus w i cpu' bus' := by
  cases i with
  -- what computes passes through `Writeback`: two ticks
  | nop =>
      exact ⟨_, _, stepLoop_writeback (tick_execute rfl) (running_executed w _) rfl rfl rfl,
        rfl, rfl, rfl, rfl, rfl⟩
  | alu op rd rs1 rs2 =>
      refine ⟨_, _, stepLoop_writeback (tick_execute rfl) (running_executed w _) rfl rfl rfl,
        rfl, rfl, ?_, rfl, rfl⟩
      simp only [Isa.Effect.apply, ← execute_operation]
      rfl
  | imm op rd rs1 imm16 =>
      refine ⟨_, _, stepLoop_writeback (tick_execute rfl) (running_executed w _) rfl rfl rfl,
        rfl, rfl, ?_, rfl, rfl⟩
      simp only [Isa.Effect.apply, ← execute_extension]
      rfl
  | lui rd imm16 =>
      refine ⟨_, _, stepLoop_writeback (tick_execute rfl) (running_executed w _) rfl rfl rfl,
        rfl, rfl, ?_, rfl, rfl⟩
      simp [Isa.Effect.apply, arch, writtenBack, executed, latched, fetched, writebackValue,
        Isa.Instr.control, Alu.execute, lhsOf, rhsOf, Decoder.immediateValue, Decoder.fieldsOf,
        Isa.Instr.destination]
  | halt =>
      exact ⟨_, _, stepLoop_writeback (tick_execute rfl) (running_executed w _) rfl rfl rfl,
        rfl, rfl, rfl, rfl, rfl⟩
  -- `JAL` goes on to `Writeback` for its link register, …
  | jal imm26 =>
      have ht : (cpu.latched w (.jal imm26)).tick bus =
          .ok ({ cpu.executed w (.jal imm26) with
            nextPc := cpu.pc + 4 + Decoder.jumpDisplacement (imm26.setWidth 32) }, bus) := rfl
      have hrun := @running_executed cpu w (.jal imm26)
      refine ⟨_, _, stepLoop_writeback ht ⟨hrun.1, hrun.2.1, rfl⟩ rfl rfl rfl,
        rfl, rfl, ?_, rfl, rfl⟩
      simp only [Isa.Effect.apply, ← Decoder.jumpDisplacement_eq]
      rfl
  -- … while the other transfers retire in `Execute`
  | j imm26 =>
      refine ⟨_, _, stepLoop_last (running_latched w _) rfl (not_running_succ rfl),
        rfl, rfl, ?_, rfl, rfl⟩
      simp only [Isa.Effect.apply, ← Decoder.jumpDisplacement_eq]
      rfl
  | jr rs1 =>
      exact ⟨_, _, stepLoop_last (running_latched w _) rfl (not_running_succ rfl),
        rfl, rfl, rfl, rfl, rfl⟩
  | branch c rs1 rs2 imm16 =>
      refine ⟨_, _, stepLoop_last (running_latched w _) rfl (not_running_succ rfl),
        rfl, rfl, ?_, rfl, rfl⟩
      simp only [Isa.Effect.apply, ← Decoder.branchDisplacement_eq, arch]
      rw [branchTaken_eq _ _ c rfl]
      rfl
  -- a load or store first computes its address, then asks the bus
  | lw rd rs1 imm16 =>
      have hexec : (cpu.latched w (.lw rd rs1 imm16)).tick bus =
          .ok (cpu.executed w (.lw rd rs1 imm16), bus) := tick_execute rfl
      have haddr : (cpu.executed w (.lw rd rs1 imm16)).aluResult =
          Isa.effectiveAddress cpu.arch rs1 imm16 := by
        simp only [Isa.effectiveAddress, ← Decoder.immediateValue_signed16]
        rfl
      rw [stepLoop_next (running_latched w _) hexec]
      cases hread : bus.read32 (Isa.effectiveAddress cpu.arch rs1 imm16) with
      | error fault =>
          have ht := tick_load_fault (i := .lw rd rs1 imm16) rfl rfl rfl (haddr ▸ hread)
          rw [haddr] at ht
          refine ⟨_, _, stepLoop_last (running_executed w _) ht (fun h => h.2.1 rfl), ?_⟩
          simp only [Leaves, Isa.execute, Bus.busModel, hread]
          exact ⟨rfl, rfl, rfl, rfl, trivial⟩
      | ok data =>
          have ht := tick_load (i := .lw rd rs1 imm16) rfl rfl rfl (haddr ▸ hread)
          rw [stepLoop_next (running_executed w _) ht]
          refine ⟨_, _, stepLoop_last ⟨by simp, by simp, rfl⟩ (tick_writeback rfl rfl rfl)
            (not_running_succ rfl), ?_⟩
          simp only [Leaves, Isa.execute, Bus.busModel, hread]
          exact ⟨rfl, rfl, rfl, rfl, trivial⟩
  | sw rs2 rs1 imm16 =>
      have hexec : (cpu.latched w (.sw rs2 rs1 imm16)).tick bus =
          .ok (cpu.executed w (.sw rs2 rs1 imm16), bus) := tick_execute rfl
      have haddr : (cpu.executed w (.sw rs2 rs1 imm16)).aluResult =
          Isa.effectiveAddress cpu.arch rs1 imm16 := by
        simp only [Isa.effectiveAddress, ← Decoder.immediateValue_signed16]
        rfl
      rw [stepLoop_next (running_latched w _) hexec]
      obtain ⟨fault, hwrite, -⟩ | ⟨b, hwrite, -⟩ := Bus.write32_memory bus
        (Isa.effectiveAddress cpu.arch rs1 imm16) (cpu.arch.read rs2)
      · have ht := tick_store_fault (i := .sw rs2 rs1 imm16) rfl rfl rfl (haddr ▸ hwrite)
        rw [haddr] at ht
        refine ⟨_, _, stepLoop_last (running_executed w _) ht (fun h => h.2.1 rfl), ?_⟩
        simp only [Leaves, Isa.execute, Bus.busModel, hwrite]
        exact ⟨rfl, rfl, rfl, rfl, trivial⟩
      · have ht := tick_store (i := .sw rs2 rs1 imm16) rfl rfl rfl (haddr ▸ hwrite)
        refine ⟨_, _, stepLoop_last (running_executed w _) ht (not_running_succ rfl), ?_⟩
        simp only [Leaves, Isa.execute, Bus.busModel, hwrite]
        exact ⟨rfl, rfl, rfl, rfl, trivial⟩

/-! ## One call of `step` -/

/-- Whatever fuel is left over, `step` reports how its loop ended. -/
theorem stepWithin_of_stepLoop {cpu' : CpuCore} {bus' : Bus} (hm : cpu.microstate = .fetch)
    (h : stepLoop cpu.retiredInstructions kStepFuel cpu bus = .ok (cpu', bus')) (extra : ℕ) :
    cpu.stepWithin (kStepFuel + extra) bus =
      .ok (if cpu'.faulted then .faulted else if cpu'.halted then .halted else .retired,
        cpu', bus') := by
  simp [stepWithin, halted, faulted, hm, stepLoop_mono h extra, bind, Except.bind]

/-- **One call of `step`**: from `Fetch`, with any latches, five ticks are enough
and the core and the bus are left as the ISA prescribes over the simulator's bus. -/
theorem step_completes (cpu : CpuCore) (bus : Bus) (hm : cpu.microstate = .fetch) :
    ∃ result cpu' bus',
      (∀ extra, cpu.stepWithin (kStepFuel + extra) bus = .ok (result, cpu', bus')) ∧
        cpu.Completes bus result cpu' bus' (Isa.step Bus.busModel cpu.arch bus) := by
  have hrun : cpu.Running cpu.retiredInstructions := ⟨by simp [hm], by simp [hm], rfl⟩
  cases hf : bus.fetch32 cpu.pc with
  | error fault =>
      refine ⟨_, _, _, stepWithin_of_stepLoop hm
        (stepLoop_last hrun (tick_fetch_fault hm hf) fun h => h.2.1 rfl), ?_⟩
      rw [Isa.step_fetchError (show Bus.busModel.fetch bus cpu.arch.pc = .error fault from hf)]
      exact ⟨rfl, rfl, rfl, rfl, rfl, rfl⟩
  | ok w =>
      have hfetched : Bus.busModel.fetch bus cpu.arch.pc = .ok w := hf
      have hfetch := tick_fetch hm hf
      have hrunFetched : (cpu.fetched w).Running cpu.retiredInstructions := ⟨nofun, nofun, rfl⟩
      cases hd : Isa.decode w with
      | error e =>
          have hloop : stepLoop cpu.retiredInstructions kStepFuel cpu bus = _ :=
            (stepLoop_next hrun hfetch).trans
              (stepLoop_last hrunFetched (tick_decode_fault rfl hd) fun h => h.2.1 rfl)
          refine ⟨_, _, _, stepWithin_of_stepLoop hm hloop, ?_⟩
          rw [Isa.step_decodeError hfetched hd]
          exact ⟨rfl, rfl, rfl, rfl, rfl, rfl⟩
      | ok i =>
          obtain ⟨cpu', bus', hrest, hleaves⟩ := stepLoop_latched cpu bus w i
          have hdecode : (cpu.fetched w).tick bus = .ok (cpu.latched w i, bus) := tick_decode rfl hd
          have hloop : stepLoop cpu.retiredInstructions kStepFuel cpu bus = .ok (cpu', bus') := by
            rw [kStepFuel, stepLoop_next hrun hfetch, stepLoop_next hrunFetched hdecode, hrest]
          refine ⟨_, _, _, stepWithin_of_stepLoop hm hloop, ?_⟩
          unfold Leaves at hleaves
          cases hx : Isa.execute Bus.busModel cpu.arch bus i with
          | error r =>
              rw [hx] at hleaves
              obtain ⟨hfault, hinfo, harch, hret, hbus⟩ := hleaves
              rw [Isa.step_executeError hfetched hd hx]
              exact ⟨by simp [faulted, hfault], hfault, hinfo, harch, hret, hbus⟩
          | ok r =>
              rw [hx] at hleaves
              obtain ⟨hstate, hinfo, harch, hret, hbus⟩ := hleaves
              rw [Isa.step_retire hfetched hd hx]
              refine ⟨?_, hstate, hinfo, harch, hret, hbus⟩
              cases hh : r.1.halts <;> simp [faulted, halted, hstate, hh]

/-- The same for `step` itself, by the outcome of the ISA. -/
theorem step_fault {info : FaultInfo} (hm : cpu.microstate = .fetch)
    (hisa : Isa.step Bus.busModel cpu.arch bus = .fault info) :
    ∃ cpu', cpu.step bus = .ok (.faulted, cpu', bus) ∧
      cpu.Completes bus .faulted cpu' bus (.fault info) := by
  obtain ⟨result, cpu', bus', hstep, hdone⟩ := step_completes cpu bus hm
  rw [hisa] at hdone
  obtain ⟨rfl, hstate, hinfo, harch, hret, rfl⟩ := hdone
  exact ⟨cpu', hstep 0, rfl, hstate, hinfo, harch, hret, rfl⟩

/-- A call whose instruction retires. -/
theorem step_retire {w : Word} {effect : Isa.Effect} {b : Bus} (hm : cpu.microstate = .fetch)
    (hisa : Isa.step Bus.busModel cpu.arch bus = .retire w effect b) :
    ∃ result cpu', cpu.step bus = .ok (result, cpu', b) ∧
      cpu.Completes bus result cpu' b (.retire w effect b) := by
  obtain ⟨result, cpu', bus', hstep, hdone⟩ := step_completes cpu bus hm
  rw [hisa] at hdone
  obtain ⟨hresult, hstate, hinfo, harch, hret, rfl⟩ := hdone
  exact ⟨result, cpu', hstep 0, hresult, hstate, hinfo, harch, hret, rfl⟩

end Run

/-- **`step` implements the ISA**: from microstate `Fetch`, with any PC, registers
and stale latches and any bus, one call does what the single-step semantics over
the documented memory map says, and no amount of fuel from five ticks on makes a
difference. -/
theorem step_implements_isa (cpu : CpuCore) (bus : Bus) (hm : cpu.microstate = .fetch) :
    ∃ result cpu' bus',
      (∀ extra, cpu.stepWithin (kStepFuel + extra) bus = .ok (result, cpu', bus')) ∧
        match Isa.step Isa.Memory.busModel cpu.arch bus.memory with
        | .fault info =>
            result = .faulted ∧ cpu'.microstate = .fault ∧ cpu'.faultInfo = info ∧
              cpu'.arch = cpu.arch ∧ cpu'.retiredInstructions = cpu.retiredInstructions ∧
              bus' = bus
        | .retire _ effect memory =>
            result = (if effect.halts then .halted else .retired) ∧
              cpu'.microstate = (if effect.halts then .halted else .fetch) ∧
              cpu'.faultInfo = cpu.faultInfo ∧ cpu'.arch = effect.apply cpu.arch ∧
              cpu'.retiredInstructions = cpu.retiredInstructions + 1 ∧
              bus'.memory = memory := by
  obtain ⟨result, cpu', bus', hstep, hdone⟩ := step_completes cpu bus hm
  refine ⟨result, cpu', bus', hstep, ?_⟩
  rw [Isa.step_hom Bus.busModel_hom_memory]
  cases h : Isa.step Bus.busModel cpu.arch bus with
  | fault info =>
      rw [h] at hdone
      exact hdone
  | retire w effect b =>
      rw [h] at hdone
      obtain ⟨hresult, hstate, hinfo, harch, hret, hbus⟩ := hdone
      exact ⟨hresult, hstate, hinfo, harch, hret, congrArg Bus.memory hbus⟩

/-- A ROM that holds `ADDI r1, r0, 5` at address zero. -/
def addiRom : Rom :=
  ⟨fun i => if i = 0 then 5 else if i = 2 then 0x20 else if i = 3 then 0x24 else 0⟩

/-- From reset over that ROM, `step` retires with 5 in `r1` and the PC on the next word. -/
theorem step_implements_isa_addi : ∃ cpu' bus',
    construct.step (.fresh addiRom 0) = .ok (.retired, cpu', bus') ∧ cpu'.pc = 4 ∧
      cpu'.registers.registers 1 = 5 := by
  obtain ⟨result, cpu', bus', hstep, hdone⟩ :=
    step_implements_isa construct (.fresh addiRom 0) rfl
  have hfetch : Isa.Memory.busModel.fetch (Bus.fresh addiRom 0).memory construct.arch.pc =
      .ok 0x24200005 := by decide
  have hdecode : Isa.decode 0x24200005 = .ok (.imm .addi 1 0 5) := by decide
  rw [Isa.step_retire hfetch hdecode rfl] at hdone
  obtain ⟨hresult, -, -, harch, -, -⟩ := hdone
  refine ⟨cpu', bus', ?_, congrArg Isa.ArchState.pc harch, ?_⟩
  · exact (hstep 0).trans (by rw [hresult]; rfl)
  · exact congrFun (congrArg Isa.ArchState.regs harch) 1

/-! ## Faults and terminal states -/

/-- A public call that can advance the core. -/
inductive Call
  | tick | step
  deriving DecidableEq, Repr

/-- A call, without what it returns. -/
def Call.run (cpu : CpuCore) (bus : Bus) : Call → Except Hazard (CpuCore × Bus)
  | tick => cpu.tick bus
  | step => (·.2) <$> cpu.step bus

/-- Any sequence of calls. -/
def runCalls (cpu : CpuCore) (bus : Bus) (calls : List Call) : Except Hazard (CpuCore × Bus) :=
  calls.foldlM (fun s call => call.run s.1 s.2) (cpu, bus)

/-- A stopped core is absorbing: no call changes it, the memory or a device. -/
theorem runCalls_stopped {cpu : CpuCore} (bus : Bus)
    (hm : cpu.microstate = .halted ∨ cpu.microstate = .fault) (calls : List Call) :
    runCalls cpu bus calls = .ok (cpu, bus) := by
  have hone (call : Call) : call.run cpu bus = .ok (cpu, bus) := by
    cases call with
    | tick => rcases hm with hm | hm <;> simp [Call.run, tick, hm]
    | step =>
        rcases hm with hm | hm <;>
          simp [Call.run, step, stepWithin, halted, faulted, hm, Functor.map, Except.map]
  induction calls with
  | nil => rfl
  | cons call calls ih =>
      rw [runCalls, List.foldlM_cons, hone call]
      exact ih

/-- **A faulting instruction is atomic, and a stopped core is absorbing.**  If a
`step` from `Fetch` reports `Faulted`, then the registers, the PC, the retirement
count, the memory and every device are as they were; the fault information names
the instruction; and no later call changes anything, as none does once halted. -/
theorem faulted_step_atomic {cpu cpu' : CpuCore} {bus bus' : Bus} (hm : cpu.microstate = .fetch)
    (h : cpu.step bus = .ok (.faulted, cpu', bus')) :
    (cpu'.registers = cpu.registers ∧ cpu'.pc = cpu.pc ∧
        cpu'.retiredInstructions = cpu.retiredInstructions ∧ bus' = bus) ∧
      (cpu'.faultInfo.pc = cpu.pc ∧
        cpu'.faultInfo.instruction =
          (match bus.fetch32 cpu.pc with | .ok w => w | .error _ => 0) ∧
        (cpu'.faultInfo.code.isData = false → cpu'.faultInfo.dataAddress = none) ∧
        (cpu'.faultInfo.code.isData = true → ∃ rs1 imm16,
          cpu'.faultInfo.dataAddress = some (cpu.arch.read rs1 + imm16.signExtend 32) ∧
            ((∃ rd, Isa.decode cpu'.faultInfo.instruction = .ok (.lw rd rs1 imm16)) ∨
              ∃ rs2, Isa.decode cpu'.faultInfo.instruction = .ok (.sw rs2 rs1 imm16)))) ∧
      (∀ calls, runCalls cpu' bus' calls = .ok (cpu', bus')) ∧
      ∀ (c : CpuCore) (b : Bus) calls, c.microstate = .halted →
        runCalls c b calls = .ok (c, b) := by
  obtain ⟨result, c', b', hstep, hdone⟩ := step_completes cpu bus hm
  obtain ⟨rfl, rfl, rfl⟩ : result = .faulted ∧ c' = cpu' ∧ b' = bus' := by
    simpa using (hstep 0).symm.trans h
  cases hisa : Isa.step Bus.busModel cpu.arch bus with
  | retire w effect b =>
      rw [hisa] at hdone
      have hresult := hdone.1
      cases hh : effect.halts <;> rw [hh] at hresult <;> cases hresult
  | fault info =>
      rw [hisa] at hdone
      obtain ⟨-, hstate, rfl, harch, hret, rfl⟩ := hdone
      refine ⟨⟨?_, congrArg Isa.ArchState.pc harch, hret, rfl⟩, Isa.step_fault hisa,
        runCalls_stopped _ (Or.inr hstate),
        fun c b calls hc => runCalls_stopped b (Or.inl hc) calls⟩
      exact congrArg RegisterFile.mk (congrArg Isa.ArchState.regs harch)

/-- A ROM that holds `LW r1, 2(r0)` at address zero. -/
def lwRom : Rom := ⟨fun i => if i = 0 then 2 else if i = 2 then 0x20 else if i = 3 then 0x38 else 0⟩

/-- From reset over that ROM the load faults, reports address 2, and stops the core. -/
theorem faulted_step_atomic_lw : ∃ cpu',
    construct.step (.fresh lwRom 0) = .ok (.faulted, cpu', .fresh lwRom 0) ∧
      cpu'.faultInfo.instruction = 0x38200002 ∧ cpu'.faultInfo.dataAddress = some 2 ∧
      ∀ calls, runCalls cpu' (.fresh lwRom 0) calls = .ok (cpu', .fresh lwRom 0) := by
  obtain ⟨result, cpu', bus', hstep, hdone⟩ := step_completes construct (.fresh lwRom 0) rfl
  have hfetch : Bus.busModel.fetch (.fresh lwRom 0) construct.arch.pc = .ok 0x38200002 := by decide
  have hexec : Isa.execute Bus.busModel construct.arch (.fresh lwRom 0) (.lw 1 0 2) =
      .error (.misalignedLoad, 2) := by rfl
  rw [Isa.step_executeError hfetch (by decide) hexec] at hdone
  obtain ⟨rfl, -, hinfo, -, -, rfl⟩ := hdone
  obtain ⟨-, ⟨-, hinstr, -, -⟩, hstuck, -⟩ := faulted_step_atomic rfl (hstep 0)
  exact ⟨cpu', hstep 0, hinstr, congrArg FaultInfo.dataAddress hinfo, hstuck⟩

/-! ## Calls in a row -/

/-- Calls of `step` in a row. -/
def stepCalls : ℕ → CpuCore → Bus → Except Hazard (CpuCore × Bus)
  | 0, cpu, bus => .ok (cpu, bus)
  | calls + 1, cpu, bus => do
      let (_, cpu, bus) ← cpu.step bus
      stepCalls calls cpu bus

section StepCalls

variable {cpu c : CpuCore} {bus b : Bus} {n : ℕ}

/-- A stopped core does nothing. -/
theorem step_of_stopped (bus : Bus) (h : (cpu.halted || cpu.faulted) = true) :
    ∃ result, cpu.step bus = .ok (result, cpu, bus) := by
  rcases (Bool.or_eq_true _ _).mp h with hh | hf
  · exact ⟨.halted, by simp [step, stepWithin, hh]⟩
  · cases hh : cpu.halted with
    | true => exact ⟨.halted, by simp [step, stepWithin, hh]⟩
    | false => exact ⟨.faulted, by simp [step, stepWithin, hh, hf]⟩

/-- One call more. -/
theorem stepCalls_succ {result : StepResult} (hstep : cpu.step bus = .ok (result, c, b)) :
    stepCalls (n + 1) cpu bus = stepCalls n c b := by
  rw [stepCalls, hstep]
  rfl

/-- Calls on a core that stopped. -/
theorem stepCalls_of_stopped (n : ℕ) (bus : Bus) (h : (cpu.halted || cpu.faulted) = true) :
    stepCalls n cpu bus = .ok (cpu, bus) := by
  induction n with
  | zero => rfl
  | succ n ih =>
      obtain ⟨result, hstep⟩ := step_of_stopped bus h
      rw [stepCalls_succ hstep, ih]

end StepCalls

end CpuCore
end Mini32.Cpp
