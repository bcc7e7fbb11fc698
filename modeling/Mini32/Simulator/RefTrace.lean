import Mini32.Simulator.Step
import Mini32.Lib.Fallible

/-!
# The reference trace

The retirement loop of `ref_trace`: it looks at the core from outside, before and
after each `step`, and reconstructs what the instruction did.  A changed register
is found by comparing all registers, the instruction by fetching it again, a
store by decoding that instruction over the registers from before.

## One iteration

`traceStep_retire` says that the reconstruction is the effect the ISA prescribes,
less the register writes that change nothing.  It rests on two facts: at most one register
differs after a step, and a store is decoded from the same word and the same registers that
the core used.

## Whole runs

`traceLoop_replays` lifts this to whole runs: the records are a complete log, from which the
registers, the RAM, the UART transcript, Debug and GPIO can be computed again (`Replayed`).
`traceLoop_calls` ties the loop to a row of calls of `step`, which is what the other results
about runs speak of.

The records are kept as data here; `Programs` has the text the program prints of them.
-/

namespace Mini32.Cpp

/-- The arguments of `emit_retire`. -/
structure RetireRecord where
  index : ℕ
  pc : Word
  instruction : Word
  nextPc : Word
  registerWrite : Option (BitVec 8)
  registerValue : Word
  memoryWrite : Bool
  memoryAddress : Word
  memoryValue : Word
  deriving DecidableEq, Repr

/-- How the loop can stop without finishing. -/
inductive TraceError
  | hazard (h : Hazard)
  /-- "one instruction changed multiple registers" -/
  | multipleRegisters
  deriving DecidableEq, Repr

namespace RefTrace

/-- The register indices in the order of the loops over them. -/
def registerIndices : List (BitVec 8) := (List.range 32).map (BitVec.ofNat 8)

/-- The loop that compares `before` with the registers after the step. -/
def changedRegister (before after : RegisterFile) :
    List (BitVec 8) → Option (BitVec 8 × Word) → Except TraceError (Option (BitVec 8 × Word))
  | [], changed => .ok changed
  | index :: rest, changed => do
      let now ← (after.read index).mapError .hazard
      let was ← (before.read index).mapError .hazard
      if now = was then changedRegister before after rest changed
      else if changed.isSome then .error .multipleRegisters
      else changedRegister before after rest (some (index, now))

/-- The store a record reports: address and value, if the instruction is `SW`. -/
def reportedStore (before : RegisterFile) (instruction : Word) :
    Except TraceError (Option (Word × Word)) :=
  match Decoder.decode instruction with
  | .ok decoded =>
      if decoded.opcode = .sw then do
        let base ← (before.read decoded.rs1).mapError .hazard
        let value ← (before.read decoded.rs2).mapError .hazard
        return some (base + Decoder.immediateValue .signed16 decoded.imm16, value)
      else .ok none
  | .error _ => .ok none

/-- One iteration of the loop; the array `before` is the register file itself. -/
def traceStep (cpu : CpuCore) (bus : Bus) :
    Except TraceError (Option RetireRecord × CpuCore × Bus) := do
  let pc := cpu.pc
  let instruction := match bus.fetch32 pc with | .ok data => data | .error _ => 0
  let before := cpu.registers
  let retiredBefore := cpu.retiredInstructions
  let (_, cpu, bus) ← (cpu.step bus).mapError .hazard
  if cpu.retiredInstructions = retiredBefore then return (none, cpu, bus)
  else
    let changed ← changedRegister before cpu.registers registerIndices none
    let store ← reportedStore before instruction
    return (some
      { index := retiredBefore, pc, instruction, nextPc := cpu.pc
        registerWrite := changed.map (·.1), registerValue := (changed.map (·.2)).getD 0
        memoryWrite := store.isSome, memoryAddress := (store.map (·.1)).getD 0
        memoryValue := (store.map (·.2)).getD 0 }, cpu, bus)

/-- The loop, with the number of iterations left. -/
def traceLoop : ℕ → CpuCore → Bus → Except TraceError (List RetireRecord × CpuCore × Bus)
  | 0, cpu, bus => .ok ([], cpu, bus)
  | limit + 1, cpu, bus =>
      if cpu.halted || cpu.faulted then .ok ([], cpu, bus)
      else do
        let (record, cpu, bus) ← traceStep cpu bus
        let (records, cpu, bus) ← traceLoop limit cpu bus
        return (record.toList ++ records, cpu, bus)

/-! ## The register comparison -/

section Compare

variable {before : RegisterFile} {changed : Option (BitVec 8 × Word)}

/-- An index of the loop is a register index. -/
theorem read_index (file : RegisterFile) (r : Reg) :
    (file.read (r.setWidth 8)).mapError TraceError.hazard =
      .ok (if r = 0 then 0 else file.registers r) := by
  rw [RegisterFile.read_setWidth]
  rfl

/-- Registers that agree at the listed indices leave the scan as it is. -/
theorem changedRegister_agree {after : RegisterFile} (l : List Reg)
    (h : ∀ r ∈ l, r ≠ 0 → after.registers r = before.registers r) :
    changedRegister before after (l.map (BitVec.setWidth 8)) changed = .ok changed := by
  induction l with
  | nil => rfl
  | cons r l ih =>
      have hr : (if r = 0 then 0 else after.registers r) =
          if r = 0 then 0 else before.registers r := by
        by_cases hz : r = 0
        · simp [hz]
        · simp [h r (List.mem_cons_self ..) hz]
      simp only [List.map_cons, changedRegister, read_index, bind, Except.bind, hr, if_true]
      exact ih fun s hs => h s (List.mem_cons_of_mem r hs)

/-- One changed register is found once. -/
theorem changedRegister_update {rd : Reg} {v : Word} (hrd : rd ≠ 0)
    (hv : v ≠ before.registers rd) (l : List Reg) (hl : l.Nodup) (hmem : rd ∈ l) :
    changedRegister before ⟨Function.update before.registers rd v⟩ (l.map (BitVec.setWidth 8))
      none = .ok (some (rd.setWidth 8, v)) := by
  induction l with
  | nil => cases hmem
  | cons r l ih =>
      obtain ⟨hnot, hl⟩ := List.nodup_cons.mp hl
      by_cases hr : r = rd
      · subst hr
        simp only [List.map_cons, changedRegister, read_index, bind, Except.bind, hrd, if_false,
          Function.update_self, hv, Option.isSome_none, Bool.false_eq_true]
        exact changedRegister_agree l fun s hs _ =>
          Function.update_of_ne (fun h : s = r => hnot (h ▸ hs)) v before.registers
      · simp only [List.map_cons, changedRegister, read_index, bind, Except.bind,
          Function.update_of_ne hr, if_true]
        exact ih hl ((List.mem_cons.mp hmem).resolve_left (Ne.symm hr))

/-- All registers, in order. -/
def allRegisters : List Reg := (List.range 32).map (BitVec.ofNat 5)

/-- The loop goes over all registers, … -/
theorem registerIndices_eq : registerIndices = allRegisters.map (BitVec.setWidth 8) := by decide

/-- … each of them once, … -/
theorem allRegisters_nodup : allRegisters.Nodup := by decide

/-- … and leaves none out. -/
theorem mem_allRegisters : ∀ r : Reg, r ∈ allRegisters := by decide

end Compare

/-- The comparison finds the register an effect changes. -/
theorem changedRegister_effect (a : Isa.ArchState) (effect : Isa.Effect) :
    changedRegister ⟨a.regs⟩ ⟨(effect.apply a).regs⟩ registerIndices none =
      .ok ((effect.regChange a).map fun (rd, v) => (rd.setWidth 8, v)) := by
  rw [registerIndices_eq, Isa.Effect.apply_regs]
  cases h : effect.regChange a with
  | none => exact changedRegister_agree _ fun _ _ _ => rfl
  | some p =>
      obtain ⟨hrd, hv⟩ := Isa.Effect.regChange_ne h
      exact changedRegister_update hrd hv _ allRegisters_nodup (mem_allRegisters _)

/-! ## The reported store -/

/-- What is decoded again is what was executed. -/
theorem reportedStore_effect {a : Isa.ArchState} {bus bus' : Bus} {w : Word} {i : Isa.Instr}
    {effect : Isa.Effect} (hd : Isa.decode w = .ok i)
    (hx : Isa.execute Bus.busModel a bus i = .ok (effect, bus')) :
    reportedStore ⟨a.regs⟩ w = .ok effect.memWrite := by
  have hdec : Decoder.decode w = .ok (Decoder.fieldsOf i) := by
    rw [Decoder.decode_eq, hd]
    rfl
  simp only [reportedStore, hdec, CpuCore.fieldsOf_opcode]
  cases i with
  | sw rs2 rs1 imm16 =>
      simp only [Isa.execute] at hx
      cases hs : Bus.busModel.store bus (Isa.effectiveAddress a rs1 imm16) (a.read rs2) with
      | error fault => rw [hs] at hx; cases hx
      | ok b =>
          rw [hs] at hx
          obtain ⟨rfl, rfl⟩ := Prod.mk.inj (Except.ok.inj hx)
          simp only [Isa.Instr.opcode, if_true, Decoder.fieldsOf, read_index, bind, Except.bind,
            Decoder.immediateValue_signed16]
          rfl
  | lw rd rs1 imm16 =>
      simp only [Isa.execute] at hx
      cases hl : Bus.busModel.load bus (Isa.effectiveAddress a rs1 imm16) with
      | error fault => rw [hl] at hx; cases hx
      | ok v =>
          rw [hl] at hx
          obtain ⟨rfl, rfl⟩ := Prod.mk.inj (Except.ok.inj hx)
          rfl
  | alu op => cases op <;> cases hx <;> rfl
  | imm op => cases op <;> cases hx <;> rfl
  | branch c => cases c <;> cases hx <;> rfl
  | _ => cases hx; rfl

/-! ## One iteration -/

/-- The record of an effect: the word, where it left the PC, the register it
changed and the store it made. -/
def recordOf (cpu : CpuCore) (w : Word) (effect : Isa.Effect) : RetireRecord where
  index := cpu.retiredInstructions
  pc := cpu.pc
  instruction := w
  nextPc := effect.nextPc
  registerWrite := (effect.regChange cpu.arch).map (·.1.setWidth 8)
  registerValue := ((effect.regChange cpu.arch).map (·.2)).getD 0
  memoryWrite := effect.memWrite.isSome
  memoryAddress := (effect.memWrite.map (·.1)).getD 0
  memoryValue := (effect.memWrite.map (·.2)).getD 0

/-- A faulting step emits nothing. -/
theorem traceStep_fault {cpu : CpuCore} {bus : Bus} {info : FaultInfo}
    (hm : cpu.microstate = .fetch)
    (hisa : Isa.step Bus.busModel cpu.arch bus = .fault info) :
    ∃ cpu', traceStep cpu bus = .ok (none, cpu', bus) ∧
      cpu.Completes bus .faulted cpu' bus (.fault info) := by
  obtain ⟨cpu', hstep, hdone⟩ := CpuCore.step_fault hm hisa
  have hret : cpu'.retiredInstructions = cpu.retiredInstructions := hdone.2.2.2.2.1
  refine ⟨cpu', ?_, hdone⟩
  simp [traceStep, hstep, hret, Except.mapError, bind, Except.bind, pure, Except.pure]

/-- **A retiring step emits the record of its effect.** -/
theorem traceStep_retire {cpu : CpuCore} {bus b : Bus} {w : Word} {effect : Isa.Effect}
    (hm : cpu.microstate = .fetch)
    (hisa : Isa.step Bus.busModel cpu.arch bus = .retire w effect b) :
    ∃ result cpu', traceStep cpu bus = .ok (some (recordOf cpu w effect), cpu', b) ∧
      cpu.Completes bus result cpu' b (.retire w effect b) := by
  obtain ⟨i, b', hfetch, hd, hx, rfl⟩ := Isa.step_eq_retire hisa
  obtain ⟨result, cpu', hstep, hdone⟩ := CpuCore.step_retire hm hisa
  obtain ⟨-, -, -, harch, hret, -⟩ := id hdone
  have hfetch : bus.fetch32 cpu.pc = .ok w := hfetch
  have hpc : cpu'.pc = effect.nextPc := congrArg Isa.ArchState.pc harch
  have hregs : cpu'.registers = ⟨(effect.apply cpu.arch).regs⟩ :=
    congrArg RegisterFile.mk (congrArg Isa.ArchState.regs harch)
  have hchanged := changedRegister_effect cpu.arch effect
  have hstore : reportedStore cpu.registers w = .ok effect.memWrite :=
    reportedStore_effect (a := cpu.arch) hd hx
  rw [← hregs] at hchanged
  refine ⟨result, cpu', ?_, hdone⟩
  -- a step that retires counts, so the record is emitted
  have hne : ¬ cpu'.retiredInstructions = cpu.retiredInstructions := by omega
  simp only [traceStep, hfetch, hstep, Except.mapError, bind, Except.bind, hne, if_false]
  simp only [hstore, show changedRegister cpu.registers cpu'.registers registerIndices none = _
    from hchanged]
  simp [recordOf, hpc, Option.map_map, pure, Except.pure, Function.comp_def]

/-! ## Replaying the records -/

end RefTrace

/-- What can be computed again from the records. -/
structure Replayed where
  registers : RegisterFile
  ram : Ram
  uartTx : List (BitVec 8)
  debugValue : Word
  gpioOutput : Word
  gpioDirection : Word

namespace Replayed

/-- The machine after reset. -/
def reset : Replayed := ⟨⟨fun _ => 0⟩, .fresh, [], 0, 0, 0⟩

/-- Apply the register write and the memory write of a record. -/
def apply (s : Replayed) (r : RetireRecord) : Replayed where
  registers :=
    match r.registerWrite with
    | some rd => ⟨Function.update s.registers.registers (rd.setWidth 5) r.registerValue⟩
    | none => s.registers
  ram :=
    if r.memoryWrite ∧ Ram.kBaseAddress ≤ r.memoryAddress ∧ r.memoryAddress ≤ Ram.kLastAddress then
      (s.ram.write32 r.memoryAddress r.memoryValue).2
    else s.ram
  uartTx :=
    if r.memoryWrite ∧ r.memoryAddress = 0x20000000 then
      s.uartTx ++ [r.memoryValue.extractLsb' 0 8]
    else s.uartTx
  debugValue :=
    if r.memoryWrite ∧ r.memoryAddress = 0x20000300 then r.memoryValue else s.debugValue
  gpioOutput :=
    if r.memoryWrite ∧ r.memoryAddress = 0x20000204 then r.memoryValue else s.gpioOutput
  gpioDirection :=
    if r.memoryWrite ∧ r.memoryAddress = 0x20000208 then r.memoryValue else s.gpioDirection

/-- The same part of a running machine. -/
def observe (cpu : CpuCore) (bus : Bus) : Replayed :=
  ⟨cpu.registers, bus.ram, bus.uart.txBytes, bus.debug.value, bus.gpio.output, bus.gpio.direction⟩

end Replayed

namespace RefTrace

/-- What a successful write leaves in the RAM. -/
theorem write32_ram {bus bus' : Bus} {address value : Word}
    (h : bus.write32 address value = (none, bus')) :
    bus'.ram = if Ram.kBaseAddress ≤ address ∧ address ≤ Ram.kLastAddress then
      (bus.ram.write32 address value).2 else bus.ram := by
  have hrom : address ≥ Rom.kBaseAddress ∧ address ≤ Rom.kLastAddress →
      ¬ (Ram.kBaseAddress ≤ address ∧ address ≤ Ram.kLastAddress) := by
    rw [Bus.rom_range, Bus.ram_range]
    intro h h'
    rw [h] at h'
    cases h'
  unfold Bus.write32 at h
  grind

/-- A store is replayed by its record. -/
theorem replay_store {bus bus' : Bus} {address value : Word}
    (h : Bus.busModel.store bus address value = .ok bus') (cpu cpu' : CpuCore) (r : RetireRecord)
    (hr : r.memoryWrite = true ∧ r.memoryAddress = address ∧ r.memoryValue = value)
    (hregs : cpu'.registers = ((Replayed.observe cpu bus).apply r).registers) :
    Replayed.observe cpu' bus'.retireTick = (Replayed.observe cpu bus).apply r := by
  have hwrite : bus.write32 address value = (none, bus') := by
    simp only [Bus.busModel] at h
    split at h
    · next hw => rw [hw, Except.ok.inj h]
    · cases h
  have hmem : bus.memory.store address value = .ok bus'.memory := by
    have := Bus.busModel_hom_memory.store bus address value
    rw [h] at this
    exact this
  obtain ⟨huart, hdebug, hout, hdir⟩ := Isa.Memory.store_devices hmem
  have hram := write32_ram hwrite
  obtain ⟨hflag, rfl, rfl⟩ := hr
  simp only [Replayed.observe, Replayed.apply, hflag, true_and] at hregs ⊢
  rw [Replayed.mk.injEq]
  exact ⟨hregs, hram, huart, hdebug, hout, hdir⟩

/-- **One iteration replays**: the record of an effect, applied to the state before
the instruction, gives the state after it. -/
theorem replay_step {cpu cpu' : CpuCore} {bus b : Bus} {w : Word} {effect : Isa.Effect}
    {result : StepResult} (hisa : Isa.step Bus.busModel cpu.arch bus = .retire w effect b)
    (hdone : cpu.Completes bus result cpu' b (.retire w effect b)) :
    Replayed.observe cpu' b = (Replayed.observe cpu bus).apply (recordOf cpu w effect) := by
  obtain ⟨i, b', -, -, hx, rfl⟩ := Isa.step_eq_retire hisa
  obtain ⟨-, -, -, harch, -, -⟩ := hdone
  have hregs : cpu'.registers =
      ((Replayed.observe cpu bus).apply (recordOf cpu w effect)).registers := by
    have hall := congrArg Isa.ArchState.regs harch
    rw [Isa.Effect.apply_regs] at hall
    refine (congrArg RegisterFile.mk hall).trans ?_
    -- a write that changes nothing is not recorded, and replays as nothing
    cases hc : effect.regChange cpu.arch with
    | none => simp only [Replayed.apply, recordOf, hc, Option.map_none]; rfl
    | some p =>
        have hwidth : (p.1.setWidth 8).setWidth 5 = p.1 := by simp
        simp only [Replayed.apply, recordOf, hc, Option.map_some, Option.getD_some, hwidth]
        rfl
  -- without a store the bus is the one before
  cases hs : effect.memWrite with
  | some p =>
      obtain ⟨address, value⟩ := p
      have hstore : Bus.busModel.store bus address value = .ok b' :=
        Isa.execute_memWrite_some hx hs
      exact replay_store hstore cpu cpu' _ (by simp [recordOf, hs]) hregs
  | none =>
      obtain rfl : b' = bus := Isa.execute_memWrite_none hx hs
      simp only [Replayed.observe, Replayed.apply, recordOf, hs, Option.isSome_none,
        Bool.false_eq_true, false_and, if_false] at hregs ⊢
      rw [Replayed.mk.injEq]
      exact ⟨hregs, rfl, rfl, rfl, rfl, rfl⟩

/-! ## Whole runs -/

/-- What the loop gives from a boundary: the records of a run of retirements. -/
structure Logs (cpu : CpuCore) (bus : Bus) (records : List RetireRecord) (cpu' : CpuCore)
    (bus' : Bus) : Prop where
  count : cpu'.retiredInstructions = cpu.retiredInstructions + records.length
  index : records.map (·.index) = List.range' cpu.retiredInstructions records.length
  chain : ∀ k r s, records[k]? = some r → records[k + 1]? = some s → r.nextPc = s.pc
  first : ∀ r, records.head? = some r → r.pc = cpu.pc
  replay : records.foldl Replayed.apply (Replayed.observe cpu bus) = Replayed.observe cpu' bus'

/-- No iteration, no record. -/
theorem Logs.refl (cpu : CpuCore) (bus : Bus) : Logs cpu bus [] cpu bus :=
  ⟨rfl, rfl, by simp, by simp, rfl⟩

/-- A record in front of a log. -/
theorem Logs.cons {cpu₁ cpu₂ cpu₃ : CpuCore} {bus₁ bus₂ bus₃ : Bus} {r : RetireRecord}
    {records : List RetireRecord} (hindex : r.index = cpu₁.retiredInstructions)
    (hcount : cpu₂.retiredInstructions = cpu₁.retiredInstructions + 1) (hpc : r.pc = cpu₁.pc)
    (hnext : r.nextPc = cpu₂.pc)
    (hreplay : Replayed.observe cpu₂ bus₂ = (Replayed.observe cpu₁ bus₁).apply r)
    (h : Logs cpu₂ bus₂ records cpu₃ bus₃) : Logs cpu₁ bus₁ (r :: records) cpu₃ bus₃ where
  count := by rw [h.count, hcount, List.length_cons]; omega
  index := by
    rw [List.map_cons, h.index, hindex, hcount, List.length_cons, List.range'_succ]
  chain k s t hs ht := by
    cases k with
    | zero =>
        obtain rfl : r = s := by simpa using hs
        rw [hnext, h.first t (by simpa [List.head?_eq_getElem?] using ht)]
    | succ k => exact h.chain k s t (by simpa using hs) (by simpa using ht)
  first s hs := by
    obtain rfl : r = s := by simpa using hs
    exact hpc
  replay := by rw [List.foldl_cons, ← hreplay, h.replay]

/-- The loop, from any boundary. -/
theorem traceLoop_logs (limit : ℕ) (cpu : CpuCore) (bus : Bus)
    (hm : cpu.microstate = .fetch ∨ cpu.microstate = .halted ∨ cpu.microstate = .fault) :
    ∃ records cpu' bus', traceLoop limit cpu bus = .ok (records, cpu', bus') ∧
      Logs cpu bus records cpu' bus' := by
  induction limit generalizing cpu bus with
  | zero => exact ⟨[], cpu, bus, rfl, Logs.refl cpu bus⟩
  | succ limit ih =>
      by_cases hstop : cpu.halted || cpu.faulted
      · exact ⟨[], cpu, bus, by simp [traceLoop, hstop], Logs.refl cpu bus⟩
      · have hfetch : cpu.microstate = .fetch := by
          rcases hm with hm | hm | hm
          · exact hm
          · simp [CpuCore.halted, hm] at hstop
          · simp [CpuCore.faulted, hm] at hstop
        cases hisa : Isa.step Bus.busModel cpu.arch bus with
        | fault info =>
            obtain ⟨cpu₁, htrace, -, hstate, -, harch, hret, -⟩ := traceStep_fault hfetch hisa
            obtain ⟨records, cpu', bus', hloop, hlogs⟩ := ih cpu₁ bus (Or.inr (Or.inr hstate))
            refine ⟨records, cpu', bus', ?_, ?_⟩
            · simp [traceLoop, hstop, htrace, hloop, bind, Except.bind, pure, Except.pure]
            · have hregs : cpu₁.registers = cpu.registers :=
                congrArg RegisterFile.mk (congrArg Isa.ArchState.regs harch)
              have hpc : cpu₁.pc = cpu.pc := congrArg Isa.ArchState.pc harch
              have hobserve : Replayed.observe cpu₁ bus = Replayed.observe cpu bus := by
                simp only [Replayed.observe, hregs]
              exact ⟨hret ▸ hlogs.count, hret ▸ hlogs.index, hlogs.chain, hpc ▸ hlogs.first,
                hobserve ▸ hlogs.replay⟩
        | retire w effect b =>
            obtain ⟨result, cpu₁, htrace, hdone⟩ := traceStep_retire hfetch hisa
            obtain ⟨-, hstate, -, harch, hret, -⟩ := id hdone
            have hm₁ : cpu₁.microstate = .fetch ∨ cpu₁.microstate = .halted ∨
                cpu₁.microstate = .fault := by
              cases hh : effect.halts <;> simp [hstate, hh]
            obtain ⟨records, cpu', bus', hloop, hlogs⟩ := ih cpu₁ b hm₁
            refine ⟨recordOf cpu w effect :: records, cpu', bus', ?_, ?_⟩
            · simp [traceLoop, hstop, htrace, hloop, bind, Except.bind, pure, Except.pure]
            · exact Logs.cons rfl hret rfl (congrArg Isa.ArchState.pc harch).symm
                (replay_step hisa hdone) hlogs

/-! ## Calls of `step` -/

section Calls

variable {n : ℕ} {cpu cpu' : CpuCore} {bus bus' : Bus}

/-- An iteration of `ref_trace` calls `step` once. -/
theorem step_of_traceStep {record : Option RetireRecord}
    (h : traceStep cpu bus = .ok (record, cpu', bus')) :
    ∃ result, cpu.step bus = .ok (result, cpu', bus') := by
  obtain ⟨⟨result, c, b⟩, hstep, h⟩ := Fallible.bind_eq_ok.mp h
  have hstep' : cpu.step bus = .ok (result, c, b) := by
    cases hs : cpu.step bus with
    | error hazard =>
        rw [hs] at hstep
        nomatch hstep
    | ok state =>
        rw [hs] at hstep
        exact congrArg Except.ok (Except.ok.inj hstep)
  refine ⟨result, hstep'.trans ?_⟩
  simp only at h
  split at h
  · obtain ⟨-, hstate⟩ := Prod.mk.inj (Except.ok.inj h)
    rw [hstate]
  · obtain ⟨changed, -, h⟩ := Fallible.bind_eq_ok.mp h
    obtain ⟨store, -, h⟩ := Fallible.bind_eq_ok.mp h
    obtain ⟨-, hstate⟩ := Prod.mk.inj (Except.ok.inj h)
    rw [hstate]

/-- **The loop of `ref_trace`** is a row of calls of `step`. -/
theorem traceLoop_calls {records : List RetireRecord}
    (h : traceLoop n cpu bus = .ok (records, cpu', bus')) :
    CpuCore.stepCalls n cpu bus = .ok (cpu', bus') := by
  induction n generalizing cpu bus records with
  | zero =>
      obtain ⟨-, hstate⟩ := Prod.mk.inj (Except.ok.inj h)
      rw [CpuCore.stepCalls, hstate]
  | succ n ih =>
      rw [traceLoop] at h
      by_cases hstop : (cpu.halted || cpu.faulted) = true
      · rw [if_pos hstop] at h
        obtain ⟨-, hstate⟩ := Prod.mk.inj (Except.ok.inj h)
        rw [CpuCore.stepCalls_of_stopped (n + 1) bus hstop, hstate]
      · rw [if_neg hstop] at h
        obtain ⟨⟨record, c, b⟩, hstep, h⟩ := Fallible.bind_eq_ok.mp h
        obtain ⟨⟨records', c', b'⟩, hloop, h⟩ := Fallible.bind_eq_ok.mp h
        obtain ⟨-, hstate⟩ := Prod.mk.inj (Except.ok.inj h)
        obtain ⟨rfl, rfl⟩ := Prod.mk.inj hstate
        obtain ⟨result, hstep⟩ := step_of_traceStep hstep
        rw [CpuCore.stepCalls_succ hstep, ih hloop]

end Calls

/-- **The reference trace is a faithful and complete log**: from reset, over any
ROM and for any number of iterations, the loop reports no error and ends in the
machine after that many calls of `step`.  It emits one record for each retired
instruction with indices `0, 1, 2, …`, each record goes on where the one before it
ended, and replaying the records from reset gives the registers, the RAM, the UART
transcript, Debug and GPIO of the machine. -/
theorem traceLoop_replays (rom : Rom) (gpioInput : Word) (limit : ℕ) :
    ∃ records cpu bus,
      traceLoop limit CpuCore.construct (.fresh rom gpioInput) = .ok (records, cpu, bus) ∧
        CpuCore.stepCalls limit CpuCore.construct (.fresh rom gpioInput) = .ok (cpu, bus) ∧
        records.length = cpu.retiredInstructions ∧
        records.map (·.index) = List.range cpu.retiredInstructions ∧
        (∀ k r s, records[k]? = some r → records[k + 1]? = some s → r.nextPc = s.pc) ∧
        records.foldl Replayed.apply Replayed.reset = Replayed.observe cpu bus := by
  obtain ⟨records, cpu, bus, hloop, hlogs⟩ :=
    traceLoop_logs limit CpuCore.construct (.fresh rom gpioInput) (Or.inl rfl)
  have hcount : cpu.retiredInstructions = records.length := by
    simpa using hlogs.count.trans (Nat.zero_add records.length)
  refine ⟨records, cpu, bus, hloop, traceLoop_calls hloop, hcount.symm, ?_, hlogs.chain,
    hlogs.replay⟩
  rw [hcount, List.range_eq_range']
  exact hlogs.index

section Stopped

variable {n n' : ℕ} {cpu cpu₁ cpu₂ : CpuCore} {bus bus₁ bus₂ : Bus}
  {records records' : List RetireRecord}

/-- A loop that stopped does the same with more iterations. -/
theorem traceLoop_of_le (hle : n ≤ n') (hdone : (cpu₁.halted || cpu₁.faulted) = true)
    (hloop : traceLoop n cpu bus = .ok (records, cpu₁, bus₁)) :
    traceLoop n' cpu bus = .ok (records, cpu₁, bus₁) := by
  induction n generalizing n' cpu bus records with
  | zero =>
      cases hloop
      cases n' with
      | zero => rfl
      | succ n' => rw [traceLoop, if_pos hdone]
  | succ n ih =>
      obtain ⟨m, rfl⟩ := Nat.exists_eq_add_of_le' hle
      rw [show m + (n + 1) = (m + n) + 1 from rfl, traceLoop]
      rw [traceLoop] at hloop
      by_cases hstop : (cpu.halted || cpu.faulted) = true
      · rw [if_pos hstop] at hloop ⊢
        exact hloop
      · rw [if_neg hstop] at hloop ⊢
        obtain ⟨r, hstep, hloop⟩ := Fallible.bind_eq_ok.mp hloop
        obtain ⟨r', hrest, hloop⟩ := Fallible.bind_eq_ok.mp hloop
        cases hloop
        exact Fallible.bind_eq_ok.mpr ⟨r, hstep, Fallible.bind_eq_ok.mpr
          ⟨r', ih (Nat.le_add_left n m) hrest, rfl⟩⟩

/-- Two loops that stopped did the same. -/
theorem traceLoop_unique (hdone₁ : (cpu₁.halted || cpu₁.faulted) = true)
    (hdone₂ : (cpu₂.halted || cpu₂.faulted) = true)
    (hloop₁ : traceLoop n cpu bus = .ok (records, cpu₁, bus₁))
    (hloop₂ : traceLoop n' cpu bus = .ok (records', cpu₂, bus₂)) :
    (records, cpu₁, bus₁) = (records', cpu₂, bus₂) := by
  rcases Nat.le_total n n' with hle | hle
  · exact Except.ok.inj ((traceLoop_of_le hle hdone₁ hloop₁).symm.trans hloop₂)
  · exact Except.ok.inj (hloop₁.symm.trans (traceLoop_of_le hle hdone₂ hloop₂))

end Stopped

end RefTrace
end Mini32.Cpp
