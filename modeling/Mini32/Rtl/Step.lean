import Mini32.Rtl.System

/-!
# The RTL core executes one ISA instruction

The core over a bus that answers at once, whatever the bus is.  From `FETCH`, with
the last retirement pulse still pending for the Timer, `immediate_completes` runs
the state machine to the next boundary: it gets there, retires nothing on the way,
and ends as `Isa.step` over the same bus prescribes, with the retirement or fault
ports reporting what happened.

## The states of an instruction

As in the simulator the core is named after each state it leaves (`fetched`, `latched`,
`executed`).  What the names hide is the order of the latches; what they show is that the
decoder's fields and the control record are those of one ISA instruction (`ports_eq`).  Each
state has a lemma for its edge, and the states that end an instruction share `Retires` and
`Faults`.

## The path

`Path` leads from a boundary to the next with no retirement on the way; the pulse of the
instruction is on the ports of the core it ends at.  `path_latched` has a case for each kind of
instruction, `path_load` and `path_store` those for the data access.  The bus is a parameter:
the results hold over the documented bus, over the RTL's, and over any other.
-/

namespace Mini32.Rtl

/-- What a retirement record says of an effect. -/
structure RetirePort.Records (r : RetirePort) (a : Isa.ArchState) (w : Word) (e : Isa.Effect) :
    Prop where
  pc : r.pc = a.pc
  instruction : r.instruction = w
  nextPc : r.nextPc = e.nextPc
  regWrite : e.regChange a = if r.regWrite then some (r.rd, r.value) else none
  memWrite : e.memWrite = if r.memWrite then some (r.memAddr, r.memValue) else none

/-- The fault ports as fault information. -/
def FaultPort.info (f : FaultPort) : FaultInfo :=
  ⟨f.code, f.pc, f.instruction, if f.addressValid then some f.address else none⟩

namespace CpuCore

/-- The architectural part of the core. -/
def arch (c : CpuCore) : Isa.ArchState := ⟨c.pc, c.readRegister⟩

@[simp] theorem arch_pc (c : CpuCore) : c.arch.pc = c.pc := rfl

@[simp] theorem arch_read (c : CpuCore) (r : Reg) : c.arch.read r = c.readRegister r := by
  by_cases h : r = 0#5 <;> simp [Isa.ArchState.read, arch, readRegister, h]

theorem branchDisplacement_eq (c : CpuCore) :
    c.branchDisplacement = Isa.displacement c.decoded.imm16 := by
  have hsign : c.decoded.imm16.getLsbD 15 = c.decoded.imm16.msb :=
    (BitVec.msb_eq_getLsbD_last _).symm
  rw [Isa.displacement, show (4 : Word) = 4#32 from rfl, Bits.four_mul]
  refine Eq.trans ?_ (Bits.signExtend_shiftLeft_two c.decoded.imm16 14).symm
  simp only [branchDisplacement, hsign]
  cases c.decoded.imm16.msb <;> rfl

theorem jumpDisplacement_eq (c : CpuCore) :
    c.jumpDisplacement = Isa.displacement c.decoded.imm26 := by
  have hsign : c.decoded.imm26.getLsbD 25 = c.decoded.imm26.msb :=
    (BitVec.msb_eq_getLsbD_last _).symm
  rw [Isa.displacement, show (4 : Word) = 4#32 from rfl, Bits.four_mul]
  refine Eq.trans ?_ (Bits.signExtend_shiftLeft_two c.decoded.imm26 4).symm
  simp only [jumpDisplacement, hsign]
  cases c.decoded.imm26.msb <;> rfl

theorem branchTaken_eq (c : CpuCore) (cond : Isa.Cond)
    (h : c.control.branchPredicate = cond.predicate) :
    c.branchTaken = cond.holds c.operandLhsLatch c.operandRhsLatch := by
  cases cond with
  | ge =>
      simp only [branchTaken, h, Isa.Cond.predicate, Isa.Cond.holds]
      rw [BitVec.sle_eq_not_slt]
  | _ => simp [branchTaken, h, Isa.Cond.predicate, Isa.Cond.holds]

/-! ## The states of one instruction -/

section States

variable {c : CpuCore} {w : Word} {i : Isa.Instr}

/-- The core with `w` fetched. -/
def fetched (c : CpuCore) (w : Word) : CpuCore :=
  { c.clearPulses with instructionRegister := w, state := .decode }

/-- The core with an instruction decoded and its operands read. -/
def latched (c : CpuCore) (w : Word) (i : Isa.Instr) : CpuCore :=
  { c.fetched w with
    operandLhsLatch := c.readRegister (decoder w).rs1
    operandRhsLatch :=
      if i.control.aluSrcImmediate then
        immediateGenerator (decoder w).imm16 i.control.immediateKind
      else c.readRegister (decoder w).rs2
    storeDataLatch := c.readRegister (decoder w).rs2
    nextPcLatch := c.pc + 4
    state := .execute }

/-- The core with the ALU result latched. -/
def executed (c : CpuCore) (w : Word) (i : Isa.Instr) : CpuCore :=
  { c.latched w i with
    aluResultLatch := alu (c.latched w i).operandLhsLatch (c.latched w i).operandRhsLatch
      i.control.aluOperation
    state := if i.control.memoryOperation = .none then .writeback else .memory }

/-- While a legal word is in the instruction register, the ports of the decoder and
the control unit are those of its instruction. -/
theorem ports_eq (hd : Isa.decode w = .ok i) (h : c.instructionRegister = w) :
    c.decoded = decoder w ∧ (decoder w).valid = true ∧ (decoder w).Carries i ∧
      c.control = i.control ∧ c.controlSupported = true := by
  have hdec := decoder_eq w
  rw [hd] at hdec
  obtain ⟨hvalid, hop, hcarries⟩ := hdec
  have hports : controlUnit c.decoded.opcode = (i.control, true) := by
    rw [decoded, h, hop, controlUnit_opcode]
  exact ⟨congrArg decoder h, hvalid, hcarries, congrArg Prod.fst hports, congrArg Prod.snd hports⟩

theorem clock_fetch (hs : c.state = .fetch) : c.clock false true ⟨w, none⟩ = c.fetched w := by
  simp only [clock, hs, Bool.false_eq_true, if_false, if_true,
    registersNext_of_ne (c := c) (by simp [hs])]
  rfl

theorem clock_fetch_fault (hs : c.state = .fetch) (fault : BusFault) :
    c.clock false true ⟨0, some fault⟩ =
      { c.clearPulses with
        fault := ⟨Isa.fetchFault fault, c.pc, 0, false, 0⟩, state := .fault } := by
  simp only [clock, hs, Bool.false_eq_true, if_false, if_true, reduceCtorEq,
    registersNext_of_ne (c := c) (by simp [hs])]
  cases fault <;> rfl

theorem idle_decode (hd : Isa.decode w = .ok i) :
    client.idle (c.fetched w) = c.latched w i := by
  obtain ⟨hports, hvalid, -, hcontrol, hsupported⟩ :=
    ports_eq (c := c.fetched w) hd rfl
  simp only [client, clock, show (c.fetched w).state = .decode from rfl, hports, hvalid, hcontrol,
    hsupported, immediateValue, Bool.false_eq_true, if_false, Bool.not_true,
    registersNext_of_ne (c := c.fetched w) (by simp [fetched])]
  rfl

theorem idle_decode_fault {e : Isa.DecodeFault} (hd : Isa.decode w = .error e) :
    client.idle (c.fetched w) =
      { c.fetched w with fault := ⟨e.fault, c.pc, w, false, 0⟩, state := .fault } := by
  have hdec := decoder_eq w
  have hports : (c.fetched w).decoded = decoder w := rfl
  rw [hd] at hdec
  cases e with
  | illegal =>
      simp only [client, clock, show (c.fetched w).state = .decode from rfl, hports, hdec.1, hdec.2,
        registersNext_of_ne (c := c.fetched w) (by simp [fetched])]
      rfl
  | malformed =>
      simp only [client, clock, show (c.fetched w).state = .decode from rfl, hports, hdec.1, hdec.2,
        registersNext_of_ne (c := c.fetched w) (by simp [fetched])]
      rfl

theorem idle_execute (hd : Isa.decode w = .ok i) (hflow : i.control.controlFlow = .sequential) :
    client.idle (c.latched w i) = c.executed w i := by
  obtain ⟨-, -, -, hcontrol, -⟩ := ports_eq (c := c.latched w i) hd rfl
  simp only [client, clock, show (c.latched w i).state = .execute from rfl, hcontrol, hflow,
    aluResult, Bool.false_eq_true, if_false, reduceCtorEq,
    registersNext_of_ne (c := c.latched w i) (by simp [latched])]
  by_cases hm : i.control.memoryOperation = .none
  · simp only [executed, hm, ne_eq, not_true_eq_false, if_true, if_false]
    rfl
  · simp only [executed, hm, ne_eq, not_false_eq_true, if_true, if_false]
    rfl

/-- What retiring `w` with effect `e` makes of the core `c` at the boundary before. -/
structure Retires (c : CpuCore) (w : Word) (e : Isa.Effect) (c' : CpuCore) : Prop where
  state : c'.state = if e.halts then .halted else .fetch
  fault : c'.fault = c.fault
  arch : c'.arch = e.apply c.arch
  valid : c'.retire.valid = true
  records : c'.retire.Records c.arch w e

/-- An instruction that writes no register retires with its next PC. -/
theorem retires_of_unwritten {c' : CpuCore} {e : Isa.Effect} (hw : e.regWrite = none)
    (hstate : c'.state = if e.halts then .halted else .fetch) (hfault : c'.fault = c.fault)
    (hpc : c'.pc = e.nextPc) (hregs : c'.registers = c.registers)
    (hretire : ∃ rd value address data, c'.retire =
      ⟨true, c.pc, w, e.nextPc, false, rd, value, e.memWrite.isSome, address, data⟩ ∧
        ∀ m ∈ e.memWrite, m = (address, data)) : c.Retires w e c' := by
  obtain ⟨rd, value, address, data, hretire, hmem⟩ := hretire
  refine ⟨hstate, hfault, ?_, by rw [hretire], ?_⟩
  · simp only [arch, Isa.Effect.apply, hw, hpc]
    congr 1
    funext r
    simp only [readRegister, hregs]
  · refine ⟨by rw [hretire]; rfl, by rw [hretire], by rw [hretire], ?_, ?_⟩
    · simp [hretire, Isa.Effect.regChange, hw]
    · rw [hretire]
      cases hm : e.memWrite with
      | none => rfl
      | some m => exact congrArg some (hmem m hm)

/-- The core after an instruction that retires in `EXECUTE`. -/
def jumped (c : CpuCore) (w : Word) (i : Isa.Instr) (nextPc target : Word) : CpuCore :=
  { c.executed w i with
    nextPcLatch := nextPc
    pc := target
    retire := (c.latched w i).recordRetirement false 0 0 target false 0 0
    state := .fetch }

theorem retires_jumped (nextPc target : Word) :
    c.Retires w { nextPc := target } (c.jumped w i nextPc target) :=
  retires_of_unwritten rfl rfl rfl rfl rfl ⟨0, 0, 0, 0, rfl, nofun⟩

theorem idle_branch {cond : Isa.Cond} {rs1 rs2 : Reg} {imm16 : BitVec 16}
    (hd : Isa.decode w = .ok i) (hi : i = .branch cond rs1 rs2 imm16) :
    client.idle (c.latched w i) = c.jumped w i (c.pc + 4)
      (if cond.holds (c.readRegister rs1) (c.readRegister rs2)
        then c.pc + 4 + Isa.displacement imm16 else c.pc + 4) := by
  obtain ⟨hports, -, hcarries, hcontrol, -⟩ := ports_eq (c := c.latched w i) hd rfl
  have hpred : (c.latched w i).control.branchPredicate = cond.predicate := by
    rw [hcontrol, hi]
    rfl
  have hflow : i.control.controlFlow = .conditionalBranch := by
    rw [hi]
    rfl
  have hrhs : (c.latched w i).operandRhsLatch = c.readRegister (decoder w).rs2 := by
    rw [hi]
    rfl
  have htaken := branchTaken_eq (c.latched w i) cond hpred
  have hdisp := branchDisplacement_eq (c.latched w i)
  rw [hrhs] at htaken
  rw [hports] at hdisp
  rw [hi] at hcarries
  obtain ⟨rfl, rfl, rfl⟩ := hcarries
  simp only [client, clock, show (c.latched w i).state = .execute from rfl, hcontrol, hflow,
    aluResult, htaken, hdisp, Bool.false_eq_true, if_false, if_true,
    registersNext_of_ne (c := c.latched w i) (by simp [latched])]
  rfl

theorem idle_relativeJump (hd : Isa.decode w = .ok i)
    (hflow : i.control.controlFlow = .relativeJump) :
    client.idle (c.latched w i) =
      let target := c.pc + 4 + Isa.displacement (decoder w).imm26
      if i.control.regWrite then
        { c.executed w i with nextPcLatch := target, state := .writeback }
      else c.jumped w i target target := by
  obtain ⟨hports, -, -, hcontrol, -⟩ := ports_eq (c := c.latched w i) hd rfl
  have hdisp := jumpDisplacement_eq (c.latched w i)
  rw [hports] at hdisp
  simp only [client, clock, show (c.latched w i).state = .execute from rfl, hcontrol, hflow, hdisp,
    aluResult, Bool.false_eq_true, if_false, if_true, reduceCtorEq,
    registersNext_of_ne (c := c.latched w i) (by simp [latched])]
  cases i.control.regWrite <;> rfl

theorem idle_registerJump (hd : Isa.decode w = .ok i)
    (hflow : i.control.controlFlow = .registerJump) :
    client.idle (c.latched w i) =
      c.jumped w i (c.pc + 4) (c.readRegister (decoder w).rs1) := by
  obtain ⟨-, -, -, hcontrol, -⟩ := ports_eq (c := c.latched w i) hd rfl
  simp only [client, clock, show (c.latched w i).state = .execute from rfl, hcontrol, hflow,
    aluResult, Bool.false_eq_true, if_false, if_true, reduceCtorEq,
    registersNext_of_ne (c := c.latched w i) (by simp [latched])]
  rfl

/-- The register write-back names is that of the instruction. -/
theorem writebackDestination_eq (hd : Isa.decode w = .ok i) (h : c.instructionRegister = w)
    (hw : i.control.regWrite = true) : c.writebackDestination = i.destination := by
  obtain ⟨hports, -, hcarries, hcontrol, -⟩ := ports_eq hd h
  simp only [writebackDestination, hports, hcontrol]
  cases i with
  | alu op rd rs1 rs2 | imm op rd rs1 imm16 | lui rd imm16 | lw rd rs1 imm16 => exact hcarries.1
  | jal imm26 => rfl
  | _ => cases hw

/-- What the register file holds after a write-back, as its read ports show it. -/
theorem readRegister_writeback {c' : CpuCore} (hs : c.state = .writeback)
    (hw : c.control.regWrite = true) (hregs : c'.registers = c.registersNext) :
    c'.readRegister = if c.writebackDestination = 0 then c.readRegister
      else Function.update c.readRegister c.writebackDestination c.writebackValue := by
  funext r
  by_cases hr : r = 0#5
  · subst hr
    by_cases hz : c.writebackDestination = 0#5
    · simp [readRegister, hz]
    · simp [readRegister, hz, Function.update_of_ne (Ne.symm hz)]
  · by_cases hz : c.writebackDestination = 0#5
    · simp [readRegister, hr, hregs, registersNext, hz]
    · simp [readRegister, hr, hregs, registersNext, registerWriteEnable, hs, hw, hz,
        Function.update_apply]

/-- `WRITEBACK` commits what the latches hold. -/
theorem idle_writeback {c₂ : CpuCore} (hs : c₂.state = .writeback)
    (hir : c₂.instructionRegister = w) (hd : Isa.decode w = .ok i) (hpc : c₂.pc = c.pc)
    (hregs : c₂.registers = c.registers) (hfault : c₂.fault = c.fault) :
    c.Retires w
      { nextPc := c₂.nextPcLatch
        regWrite := if i.control.regWrite then some (i.destination, c₂.writebackValue) else none
        halts := i.control.halt }
      (client.idle c₂) := by
  obtain ⟨-, -, -, hcontrol, -⟩ := ports_eq hd hir
  have hidle : client.idle c₂ =
      { c₂.clearPulses with
        registers := c₂.registersNext
        pc := c₂.nextPcLatch
        retire := c₂.recordRetirement i.control.regWrite c₂.writebackDestination c₂.writebackValue
          c₂.nextPcLatch false 0 0
        state := if i.control.halt then .halted else .fetch } := by
    simp only [client, clock, hs, hcontrol, Bool.false_eq_true, if_false]
  have hread (r : Reg) : c₂.readRegister r = c.readRegister r := by
    simp only [readRegister, hregs]
  rw [hidle]
  cases hw : i.control.regWrite with
  | false =>
      refine retires_of_unwritten rfl rfl hfault rfl ?_
        ⟨c₂.writebackDestination, c₂.writebackValue, 0, 0, ?_, by simp⟩
      · simp only [registersNext, registerWriteEnable, hcontrol, hw, Bool.and_false,
          Bool.false_eq_true, false_and, if_false, hregs]
      · simp only [recordRetirement, Bool.false_and, hpc, hir]
        rfl
  | true =>
      have hdest := writebackDestination_eq hd hir hw
      refine ⟨rfl, hfault, ?_, rfl, ⟨hpc, hir, rfl, ?_, rfl⟩⟩
      · -- the enable excludes `r0`, and the instruction set drops a write to it
        have hwritten : (client.idle c₂).registers = c₂.registersNext := by rw [hidle]
        have hregisters := readRegister_writeback hs (by rw [hcontrol, hw]) hwritten
        rw [hidle, hdest, show c₂.readRegister = c.readRegister from funext hread] at hregisters
        refine (congrArg (Isa.ArchState.mk c₂.nextPcLatch) hregisters).trans ?_
        simp only [arch, Isa.Effect.apply, Isa.ArchState.write, if_true]
        by_cases hz : i.destination = 0#5 <;> simp [hz]
      · simp only [recordRetirement, hdest, writebackCurrentValue, hread, Isa.Effect.regChange,
          Bool.true_and, if_true, arch]
        by_cases hz : i.destination = 0#5 <;>
          by_cases hv : c₂.writebackValue = c.readRegister i.destination <;> simp [hz, hv]

/-! ### The data access -/

theorem request_memory (hs : c.state = .memory) :
    c.request = some ⟨if c.control.memoryOperation = .store then .write else .read,
      c.aluResultLatch, c.storeDataLatch⟩ := by
  simp [request, busValid, busAccess, busAddr, busWdata, hs]

/-- `LW` and `SW` add the sign-extended immediate to `rs1`. -/
theorem address_executed (hsrc : i.control.aluSrcImmediate = true)
    (hkind : i.control.immediateKind = .signed16) (hop : i.control.aluOperation = .add) :
    (c.executed w i).aluResultLatch =
      Isa.effectiveAddress c.arch (decoder w).rs1 (decoder w).imm16 := by
  simp [executed, latched, hsrc, hkind, hop, alu, Isa.effectiveAddress,
    immediateGenerator_signed16]

/-- A core stopped by a fault of the bus. -/
def stopped (c : CpuCore) (code : CpuFault) (instruction : Word) (address : Word) : CpuCore :=
  { c with fault := ⟨code, c.pc, instruction, true, address⟩, state := .fault }

section Memory

variable (hs : c.state = .memory) (hp : c.clearPulses = c)
include hs hp

theorem clock_memory_fault (fault : BusFault) :
    c.clock false true ⟨0, some fault⟩ =
      c.stopped (if c.control.memoryOperation = .load then Isa.loadFault fault
        else Isa.storeFault fault) c.instructionRegister c.aluResultLatch := by
  simp only [clock, hs, hp, Bool.false_eq_true, if_false, if_true, ne_eq, reduceCtorEq,
    not_false_eq_true, registersNext_of_ne (c := c) (by simp [hs])]
  by_cases hop : c.control.memoryOperation = .load
  · simp only [hop, if_true]
    cases fault <;> rfl
  · simp only [hop, if_false]
    cases fault <;> rfl

theorem clock_load (hop : c.control.memoryOperation = .load) (data : Word) :
    c.clock false true ⟨data, none⟩ =
      { c with memoryDataLatch := data, state := .writeback } := by
  simp only [clock, hs, hp, hop, Bool.false_eq_true, if_false, if_true, ne_eq,
    not_true_eq_false, registersNext_of_ne (c := c) (by simp [hs])]

theorem clock_store (hop : c.control.memoryOperation = .store) (data : Word) :
    c.clock false true ⟨data, none⟩ =
      { c with
        pc := c.nextPcLatch
        retire := c.recordRetirement false 0 0 c.nextPcLatch true c.aluResultLatch c.storeDataLatch
        state := .fetch } := by
  simp only [clock, hs, hp, hop, Bool.false_eq_true, if_false, if_true, ne_eq, reduceCtorEq,
    not_true_eq_false, registersNext_of_ne (c := c) (by simp [hs])]

end Memory

end States

/-! ## The path of an instruction -/

section Paths

variable {B : Type*} {M : Isa.BusModel B} {c : CpuCore} {b : B} {w : Word} {i : Isa.Instr}

/-- One cycle over a bus that answers at once. -/
abbrev cycle (M : Isa.BusModel B) : Elastic.State CpuCore B → Elastic.State CpuCore B :=
  Elastic.step client (Bench.busEnv M)

/-- A path between two boundaries on which nothing retires. -/
abbrev Path (M : Isa.BusModel B) : Elastic.State CpuCore B → Elastic.State CpuCore B → Prop :=
  Clocked.Reaches (cycle M) (·.client.retired)

theorem cycle_idle (hq : c.request = none) (hv : c.retired = none) :
    cycle M ⟨c, b⟩ = ⟨client.idle c, b⟩ := by
  have hclient : client.request c = none := hq
  have hemit : client.emit c = none := hv
  simp only [cycle, Elastic.step, hclient, hemit, Elastic.Env.after_none]

theorem cycle_request {q : Request} (hq : c.request = some q) (hv : c.retired = none) :
    cycle M ⟨c, b⟩ =
      ⟨c.clock false true (SystemBus.answer M q b).1, (SystemBus.answer M q b).2⟩ := by
  have hclient : client.request c = some q := hq
  have hemit : client.emit c = none := hv
  simp only [cycle, Elastic.step, hclient, hemit, Elastic.Env.after_none]
  rfl

theorem cycle_fetch (hs : c.state = .fetch) :
    cycle M ⟨c, b⟩ =
      let b₀ := (Bench.busEnv M).after c.retired b
      ⟨c.clock false true (SystemBus.answer M ⟨.fetch, c.pc, 0⟩ b₀).1,
        (SystemBus.answer M ⟨.fetch, c.pc, 0⟩ b₀).2⟩ := by
  have hclient : client.request c = some ⟨.fetch, c.pc, 0⟩ := by
    simp [client, request, busValid, busAccess, busAddr, busWdata, hs]
  simp only [cycle, Elastic.step, hclient]
  rfl

/-- What a fault at the data access of `w` makes of the core. -/
structure Faults (c : CpuCore) (info : FaultInfo) (c' : CpuCore) : Prop where
  state : c'.state = .fault
  info : c'.fault.info = info
  arch : c'.arch = c.arch
  valid : c'.retire.valid = false

/-- How an instruction ends: as `execute` prescribes. -/
def Ends (M : Isa.BusModel B) (c : CpuCore) (b : B) (w : Word) (i : Isa.Instr)
    (u : Elastic.State CpuCore B) : Prop :=
  match Isa.execute M c.arch b i with
  | .error (code, address) => c.Faults ⟨code, c.pc, w, some address⟩ u.client ∧ u.env = b
  | .ok (e, b') => c.Retires w e u.client ∧ u.env = b'

/-- From a cycle that ends in `WRITEBACK`, one more commits. -/
theorem path_writeback {x : Elastic.State CpuCore B} {c₂ : CpuCore} (hlast : cycle M x = ⟨c₂, b⟩)
    (hv : c₂.retired = none) (hs : c₂.state = .writeback) (hir : c₂.instructionRegister = w)
    (hd : Isa.decode w = .ok i) (hpc : c₂.pc = c.pc) (hregs : c₂.registers = c.registers)
    (hfault : c₂.fault = c.fault) :
    ∃ c', Path M x ⟨c', b⟩ ∧
      c.Retires w
        { nextPc := c₂.nextPcLatch
          regWrite := if i.control.regWrite then some (i.destination, c₂.writebackValue) else none
          halts := i.control.halt } c' := by
  have hq : c₂.request = none := by simp [request, busValid, hs]
  refine ⟨client.idle c₂, ?_, idle_writeback hs hir hd hpc hregs hfault⟩
  refine Clocked.Reaches.cons hlast hv ?_
  rw [← cycle_idle (M := M) hq hv]
  exact Clocked.Reaches.single _

/-- The way of an instruction that only computes. -/
theorem path_executed (hd : Isa.decode w = .ok i)
    (hflow : i.control.controlFlow = .sequential) (hmem : i.control.memoryOperation = .none) :
    ∃ c', Path M ⟨c.latched w i, b⟩ ⟨c', b⟩ ∧
      c.Retires w
        { nextPc := c.pc + 4
          regWrite :=
            if i.control.regWrite then some (i.destination, (c.executed w i).writebackValue)
            else none
          halts := i.control.halt } c' := by
  have hcycle : cycle M ⟨c.latched w i, b⟩ = ⟨c.executed w i, b⟩ := by
    rw [cycle_idle rfl rfl, idle_execute hd hflow]
  exact path_writeback hcycle rfl (if_pos hmem) rfl hd rfl rfl rfl

theorem writebackValue_executed (hd : Isa.decode w = .ok i)
    (hsource : i.control.writebackSource = .alu) :
    (c.executed w i).writebackValue =
      alu (c.readRegister (decoder w).rs1)
        (if i.control.aluSrcImmediate then
          immediateGenerator (decoder w).imm16 i.control.immediateKind
        else c.readRegister (decoder w).rs2) i.control.aluOperation := by
  obtain ⟨-, -, -, hcontrol, -⟩ := ports_eq (c := c.executed w i) hd rfl
  simp only [writebackValue, hcontrol, hsource]
  rfl

/-- The last edge of an instruction that needs neither. -/
theorem path_execute {c' : CpuCore} (h : client.idle (c.latched w i) = c') :
    Path M ⟨c.latched w i, b⟩ ⟨c', b⟩ := by
  rw [← h, ← cycle_idle (M := M) (c := c.latched w i) rfl rfl]
  exact Clocked.Reaches.single _

/-- An instruction with a data access leaves `EXECUTE` for `MEMORY`. -/
theorem cycle_latched (hd : Isa.decode w = .ok i) (hflow : i.control.controlFlow = .sequential) :
    cycle M ⟨c.latched w i, b⟩ = ⟨c.executed w i, b⟩ := by
  rw [cycle_idle rfl rfl, idle_execute hd hflow]

theorem path_load {rd rs1 : Reg} {imm16 : BitVec 16}
    (hd : Isa.decode w = .ok (.lw rd rs1 imm16)) :
    ∃ u, Path M ⟨c.latched w (.lw rd rs1 imm16), b⟩ u ∧ Ends M c b w (.lw rd rs1 imm16) u := by
  obtain ⟨-, -, ⟨-, hrs1, himm⟩, hcontrol, -⟩ :=
    ports_eq (c := c.executed w (.lw rd rs1 imm16)) hd rfl
  have haddr : (c.executed w (.lw rd rs1 imm16)).aluResultLatch =
      Isa.effectiveAddress c.arch rs1 imm16 := by
    rw [address_executed rfl rfl rfl, hrs1, himm]
  have hop : (c.executed w (.lw rd rs1 imm16)).control.memoryOperation = .load := by
    rw [hcontrol]
    rfl
  have hq := request_memory (c := c.executed w (.lw rd rs1 imm16)) rfl
  rw [hop, haddr, if_neg nofun] at hq
  cases hload : M.load b (Isa.effectiveAddress c.arch rs1 imm16) with
  | error fault =>
      have hcycle : cycle M ⟨c.executed w (.lw rd rs1 imm16), b⟩ =
          ⟨(c.executed w (.lw rd rs1 imm16)).stopped (Isa.loadFault fault) w
            (Isa.effectiveAddress c.arch rs1 imm16), b⟩ := by
        rw [cycle_request hq rfl, SystemBus.answer_read_error hload, clock_memory_fault rfl rfl,
          if_pos hop, haddr]
        rfl
      refine ⟨_, (Clocked.Reaches.of_next hcycle).cons (cycle_latched hd rfl) rfl, ?_⟩
      simp only [Ends, Isa.execute, hload]
      exact ⟨⟨rfl, rfl, rfl, rfl⟩, trivial⟩
  | ok data =>
      let loaded : CpuCore :=
        { c.executed w (.lw rd rs1 imm16) with memoryDataLatch := data, state := .writeback }
      have hcycle : cycle M ⟨c.executed w (.lw rd rs1 imm16), b⟩ = ⟨loaded, b⟩ := by
        rw [cycle_request hq rfl, SystemBus.answer_read hload, clock_load rfl rfl hop]
      have hvalue : loaded.writebackValue = data := by
        simp only [writebackValue, show loaded.control = _ from hcontrol]
        rfl
      obtain ⟨c', hpath, hdone⟩ := path_writeback (c := c) hcycle rfl rfl rfl hd rfl rfl rfl
      refine ⟨_, hpath.cons (cycle_latched hd rfl) rfl, ?_⟩
      rw [hvalue] at hdone
      simp only [Ends, Isa.execute, hload]
      exact ⟨hdone, trivial⟩

theorem path_store {rs2 rs1 : Reg} {imm16 : BitVec 16}
    (hd : Isa.decode w = .ok (.sw rs2 rs1 imm16)) :
    ∃ u, Path M ⟨c.latched w (.sw rs2 rs1 imm16), b⟩ u ∧ Ends M c b w (.sw rs2 rs1 imm16) u := by
  obtain ⟨-, -, ⟨hrs1, hrs2, himm⟩, hcontrol, -⟩ :=
    ports_eq (c := c.executed w (.sw rs2 rs1 imm16)) hd rfl
  have haddr : (c.executed w (.sw rs2 rs1 imm16)).aluResultLatch =
      Isa.effectiveAddress c.arch rs1 imm16 := by
    rw [address_executed rfl rfl rfl, hrs1, himm]
  have hdata : (c.executed w (.sw rs2 rs1 imm16)).storeDataLatch = c.arch.read rs2 := by
    rw [arch_read, ← hrs2]
    rfl
  have hop : (c.executed w (.sw rs2 rs1 imm16)).control.memoryOperation = .store := by
    rw [hcontrol]
    rfl
  have hq := request_memory (c := c.executed w (.sw rs2 rs1 imm16)) rfl
  rw [hop, haddr, hdata, if_pos rfl] at hq
  cases hstore : M.store b (Isa.effectiveAddress c.arch rs1 imm16) (c.arch.read rs2) with
  | error fault =>
      have hcycle : cycle M ⟨c.executed w (.sw rs2 rs1 imm16), b⟩ =
          ⟨(c.executed w (.sw rs2 rs1 imm16)).stopped (Isa.storeFault fault) w
            (Isa.effectiveAddress c.arch rs1 imm16), b⟩ := by
        rw [cycle_request hq rfl, SystemBus.answer_write_error hstore, clock_memory_fault rfl rfl,
          if_neg (by rw [hop]; nofun), haddr]
        rfl
      refine ⟨_, (Clocked.Reaches.of_next hcycle).cons (cycle_latched hd rfl) rfl, ?_⟩
      simp only [Ends, Isa.execute, hstore]
      exact ⟨⟨rfl, rfl, rfl, rfl⟩, trivial⟩
  | ok b' =>
      have hcycle := cycle_request (M := M) (b := b) hq rfl
      rw [SystemBus.answer_write hstore, clock_store rfl rfl hop] at hcycle
      refine ⟨_, (Clocked.Reaches.of_next hcycle).cons (cycle_latched hd rfl) rfl, ?_⟩
      simp only [Ends, Isa.execute, hstore]
      refine ⟨retires_of_unwritten rfl rfl rfl rfl rfl
        ⟨0, 0, Isa.effectiveAddress c.arch rs1 imm16, c.arch.read rs2, ?_, ?_⟩, trivial⟩
      · simp only [recordRetirement, haddr, hdata]
        rfl
      · rintro m ⟨⟩
        rfl

/-- From `EXECUTE` on, an instruction ends as `execute` prescribes. -/
theorem path_latched (hd : Isa.decode w = .ok i) :
    ∃ u, Path M ⟨c.latched w i, b⟩ u ∧ Ends M c b w i u := by
  obtain ⟨hports, -, hcarries, hcontrol, -⟩ := ports_eq (c := c.latched w i) hd rfl
  cases i with
  | nop =>
      obtain ⟨c', hpath, hdone⟩ := path_executed (c := c) (M := M) (b := b) hd rfl rfl
      exact ⟨_, hpath, hdone, rfl⟩
  | halt =>
      obtain ⟨c', hpath, hdone⟩ := path_executed (c := c) (M := M) (b := b) hd rfl rfl
      exact ⟨_, hpath, hdone, rfl⟩
  | alu op rd rs1 rs2 =>
      obtain ⟨c', hpath, hdone⟩ := path_executed (c := c) (M := M) (b := b) hd rfl rfl
      refine ⟨_, hpath, ?_, rfl⟩
      obtain ⟨-, rfl, rfl⟩ := hcarries
      rw [writebackValue_executed hd rfl] at hdone
      simpa [Isa.Instr.control, alu_operation, Isa.Instr.destination] using hdone
  | imm op rd rs1 imm16 =>
      obtain ⟨c', hpath, hdone⟩ := path_executed (c := c) (M := M) (b := b) hd rfl rfl
      refine ⟨_, hpath, ?_, rfl⟩
      obtain ⟨-, rfl, rfl⟩ := hcarries
      rw [writebackValue_executed hd rfl] at hdone
      simpa [Isa.Instr.control, alu_extension, Isa.Instr.destination] using hdone
  | lui rd imm16 =>
      obtain ⟨c', hpath, hdone⟩ := path_executed (c := c) (M := M) (b := b) hd rfl rfl
      refine ⟨_, hpath, ?_, rfl⟩
      obtain ⟨-, hrs1, rfl⟩ := hcarries
      rw [writebackValue_executed hd rfl] at hdone
      simpa [Isa.Instr.control, hrs1, readRegister, immediateGenerator_upper16, alu,
        Isa.Instr.destination] using hdone
  | branch cond rs1 rs2 imm16 =>
      exact ⟨_, path_execute (idle_branch hd rfl), by simpa using retires_jumped _ _, rfl⟩
  | j imm26 =>
      refine ⟨_, path_execute (idle_relativeJump hd rfl), ?_, rfl⟩
      obtain rfl := hcarries
      exact retires_jumped _ _
  | jal imm26 =>
      let target := c.pc + 4 + Isa.displacement (decoder w).imm26
      -- `JAL` goes on to `WRITEBACK`, where the link register is written
      let linked : CpuCore :=
        { c.executed w (.jal imm26) with nextPcLatch := target, state := .writeback }
      have hcycle : cycle M ⟨c.latched w (.jal imm26), b⟩ = ⟨linked, b⟩ := by
        rw [cycle_idle rfl rfl, idle_relativeJump hd rfl]
        rfl
      have hvalue : linked.writebackValue = c.pc + 4 := by
        simp only [writebackValue, show linked.control = _ from hcontrol]
        rfl
      obtain ⟨c', hpath, hdone⟩ := path_writeback (c := c) hcycle rfl rfl rfl hd rfl rfl rfl
      refine ⟨_, hpath, ?_, rfl⟩
      obtain rfl := hcarries
      rw [hvalue] at hdone
      exact hdone
  | jr rs1 =>
      refine ⟨_, path_execute (idle_registerJump hd rfl), ?_, rfl⟩
      obtain rfl := hcarries
      simpa using retires_jumped _ _
  | lw rd rs1 imm16 => exact path_load hd
  | sw rs2 rs1 imm16 => exact path_store hd

/-- How a core completes one instruction: as `Isa.step` prescribes. -/
def Completes (M : Isa.BusModel B) (c : CpuCore) (b : B) (u : Elastic.State CpuCore B) : Prop :=
  match Isa.step M c.arch b with
  | .fault info => c.Faults info u.client ∧ u.env = b
  | .retire w e b' => c.Retires w e u.client ∧ M.retireTick u.env = b'

/-- **The core over an immediate bus executes the ISA**, one instruction for every
path between boundaries. -/
theorem immediate_completes (hs : c.state = .fetch) :
    ∃ u, Path M ⟨c, b⟩ u ∧ Completes M c ((Bench.busEnv M).after c.retired b) u := by
  have hcycle := cycle_fetch (M := M) (b := b) hs
  -- the fetch sees the memory after the tick of the last retirement
  generalize (Bench.busEnv M).after c.retired b = b₀ at hcycle ⊢
  simp only at hcycle
  cases hf : M.fetch b₀ c.pc with
  | error fault =>
      rw [SystemBus.answer_fetch_error hf, clock_fetch_fault hs] at hcycle
      refine ⟨_, Clocked.Reaches.of_next hcycle, ?_⟩
      rw [Completes, Isa.step_fetchError hf]
      exact ⟨⟨rfl, rfl, rfl, rfl⟩, rfl⟩
  | ok w =>
      rw [SystemBus.answer_fetch hf, clock_fetch hs] at hcycle
      cases hd : Isa.decode w with
      | error e =>
          have hdecode := cycle_idle (M := M) (b := b₀) (c := c.fetched w) rfl rfl
          rw [idle_decode_fault hd] at hdecode
          refine ⟨_, (Clocked.Reaches.of_next hdecode).cons hcycle rfl, ?_⟩
          rw [Completes, Isa.step_decodeError hf hd]
          exact ⟨⟨rfl, rfl, rfl, rfl⟩, rfl⟩
      | ok i =>
          have hdecode : cycle M ⟨c.fetched w, b₀⟩ = ⟨c.latched w i, b₀⟩ := by
            rw [cycle_idle rfl rfl, idle_decode hd]
          obtain ⟨u, hpath, hends⟩ := path_latched (M := M) (c := c) (b := b₀) hd
          refine ⟨u, (hpath.cons hdecode rfl).cons hcycle rfl, ?_⟩
          unfold Ends at hends
          cases hx : Isa.execute M c.arch b₀ i with
          | error r =>
              rw [hx] at hends
              rw [Completes, Isa.step_executeError hf hd hx]
              exact hends
          | ok r =>
              rw [hx] at hends
              rw [Completes, Isa.step_retire hf hd hx]
              exact ⟨hends.1, congrArg M.retireTick hends.2⟩

/-- A core at rest stays there. -/
theorem immediate_rests (hs : c.state = .halted ∨ c.state = .fault) :
    cycle M ⟨c, b⟩ = ⟨c.clearPulses, (Bench.busEnv M).after c.retired b⟩ := by
  rcases hs with hs | hs <;>
    simp only [cycle, Elastic.step, client, request, busValid, clock, hs, reduceCtorEq,
      Bool.false_eq_true, if_false, registersNext_of_ne (c := c) (by simp [hs])] <;> rfl

end Paths
end CpuCore

end Mini32.Rtl
