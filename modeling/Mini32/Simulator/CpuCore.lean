import Mini32.Simulator.Bus
import Mini32.Simulator.Decoder

/-!
# The simulator's CPU core

`CpuCore` with its latches, `tick` as the microstate machine of the source, and
`step`, which ticks until an instruction retires or the core stops.

## Hazards

Two C++ hazards are part of the model.  `RegisterFile` throws
`std::out_of_range` for an index above 31, and dereferencing a disengaged
`std::optional` is undefined; either one is an error of `tick`.  The loop of
`step` has no bound of its own, so it is run on fuel, and `outOfFuel` says that
the fuel ended before the loop did.  `std::size_t` counters are naturals.

None of the three ever comes about in a core that the constructor has made, but this is a
theorem (`CpuCore.reachable_neverStuck`) and not an assumption: the model can fail where the
program can.  The latches hold whatever the last instruction left in them, and an
arbitrary value of `CpuCore` need not be one that a run reaches.  So a core in the
microstate `Execute` without a decoded instruction exists here, and its tick is an error.

## Ticks and steps

`tick` has one function for each microstate, with the assignments of the source in its
order.  An assignment is an update of the record, and a read behind it sees the updated
one: `enterFault` in the fetch, for instance, sees the instruction register that has been
cleared.

`step` is the loop of the source around `tick`.  Its condition is asked before every tick,
also before the first, and the fuel counts the ticks.  `kStepFuel` is five because an
instruction has at most five microstates; `Simulator.Step` proves that five always do,
from `Fetch` and also from the middle of an instruction.
-/

namespace Mini32.Cpp

/-- What can go wrong besides an architectural fault. -/
inductive Hazard
  | outOfRange
  | badOptionalAccess
  | outOfFuel
  deriving DecidableEq, Repr

/-- `*optional`. -/
def deref {α : Type*} : Option α → Except Hazard α
  | some a => .ok a
  | none => .error .badOptionalAccess

/-! ## Register file -/

/-- `RegisterFile`; the array has an element for `r0`, which is never read. -/
structure RegisterFile where
  registers : BitVec 5 → Word

namespace RegisterFile

/-- `RegisterFile::kRegisterCount` -/
def kRegisterCount : BitVec 8 := 32

/-- `RegisterFile::reset` -/
def reset (_file : RegisterFile) : RegisterFile := ⟨fun _ => 0⟩

/-- `RegisterFile::read`; `r0` is zero. -/
def read (file : RegisterFile) (index : BitVec 8) : Except Hazard Word :=
  if index ≥ kRegisterCount then .error .outOfRange
  else .ok (if index = 0 then 0 else file.registers (index.setWidth 5))

/-- `RegisterFile::write`; `r0` stays as it is. -/
def write (file : RegisterFile) (index : BitVec 8) (value : Word) :
    Except Hazard RegisterFile :=
  if index ≥ kRegisterCount then .error .outOfRange
  else .ok (if index ≠ 0 then ⟨Function.update file.registers (index.setWidth 5) value⟩ else file)

end RegisterFile

/-! ## The core -/

/-- `Microstate` -/
inductive Microstate
  | fetch | decode | execute | memory | writeback | halted | fault
  deriving DecidableEq, Repr

/-- `StepResult` -/
inductive StepResult
  | retired | halted | faulted
  deriving DecidableEq, Repr

/-- `CpuCore`, with its members in the order of the class. -/
structure CpuCore where
  registers : RegisterFile
  pc : Word
  instructionRegister : Word
  operandLhs : Word
  operandRhs : Word
  aluResult : Word
  storeData : Word
  memoryData : Word
  pcPlus4 : Word
  nextPc : Word
  microstate : Microstate
  decodedInstruction : Option DecodedInstruction
  controlSignals : Option ControlSignals
  retiredInstructions : ℕ
  faultInfo : FaultInfo

namespace CpuCore

/-- The distance from one instruction to the next. -/
def kInstructionAlignment : Word := 4

/-- `CpuCore::reset` -/
def reset (cpu : CpuCore) : CpuCore where
  registers := cpu.registers.reset
  pc := 0
  instructionRegister := 0
  operandLhs := 0
  operandRhs := 0
  aluResult := 0
  storeData := 0
  memoryData := 0
  pcPlus4 := 0
  nextPc := 0
  microstate := .fetch
  decodedInstruction := none
  controlSignals := none
  retiredInstructions := 0
  faultInfo := {}

/-- The constructor: default member initializers, then `reset`. -/
def construct : CpuCore :=
  reset
    { registers := ⟨fun _ => 0⟩, pc := 0, instructionRegister := 0, operandLhs := 0,
      operandRhs := 0, aluResult := 0, storeData := 0, memoryData := 0, pcPlus4 := 0, nextPc := 0,
      microstate := .fetch, decodedInstruction := none, controlSignals := none,
      retiredInstructions := 0, faultInfo := {} }

/-- `CpuCore::halted` -/
def halted (cpu : CpuCore) : Bool := cpu.microstate = .halted
/-- `CpuCore::faulted` -/
def faulted (cpu : CpuCore) : Bool := cpu.microstate = .fault

/-- `CpuCore::enter_fault`: what is recorded is the instruction that faulted and where it
stands, and for an access its address. -/
def enterFault (cpu : CpuCore) (code : CpuFault) (dataAddress : Option Word := none) : CpuCore :=
  { cpu with
    faultInfo := { code, pc := cpu.pc, instruction := cpu.instructionRegister, dataAddress }
    microstate := .fault }

/-- `CpuCore::retire_to`: the instruction retires, and the Timer hears of it. -/
def retireTo (cpu : CpuCore) (bus : Bus) (nextPc : Word) : CpuCore × Bus :=
  ({ cpu with
      pc := nextPc
      retiredInstructions := cpu.retiredInstructions + 1
      microstate := .fetch }, bus.retireTick)

/-- `CpuCore::branch_taken` -/
def branchTaken (cpu : CpuCore) (control : ControlSignals) : Bool :=
  match control.branchPredicate with
  | .equal => cpu.operandLhs == cpu.operandRhs
  | .notEqual => cpu.operandLhs != cpu.operandRhs
  | .signedLessThan => signedLessThan cpu.operandLhs cpu.operandRhs
  | .signedGreaterEqual => !signedLessThan cpu.operandLhs cpu.operandRhs
  | .none => false

/-! ### One microstate each -/

/-- `Microstate::Fetch` -/
def tickFetch (cpu : CpuCore) (bus : Bus) : CpuCore × Bus :=
  let cpu := { cpu with
    instructionRegister := 0
    pcPlus4 := cpu.pc + kInstructionAlignment
    nextPc := cpu.pc + kInstructionAlignment }
  match bus.fetch32 cpu.pc with
  | .error fault =>
      (cpu.enterFault <|
        match fault with
        | .misaligned => .misalignedInstructionFetch
        | .nonExecutable => .nonExecutableInstructionFetch
        | _ => .unmappedInstructionFetch, bus)
  | .ok data => ({ cpu with instructionRegister := data, microstate := .decode }, bus)

/-- `Microstate::Decode` -/
def tickDecode (cpu : CpuCore) (bus : Bus) : Except Hazard (CpuCore × Bus) :=
  match Decoder.decode cpu.instructionRegister with
  | .error error =>
      .ok (cpu.enterFault <|
        match error with
        | .illegalOpcode => .illegalInstruction
        | .malformedEncoding => .malformedInstruction, bus)
  | .ok decoded =>
      let controlSignals := Decoder.controlFor decoded.opcode
      let cpu := { cpu with decodedInstruction := some decoded, controlSignals }
      match controlSignals with
      | none => .ok (cpu.enterFault .unsupportedInstruction, bus)
      | some control => do
          let operandLhs ← cpu.registers.read decoded.rs1
          let operandRhs ←
            if control.aluSrcImmediate then
              pure (Decoder.immediateValue control.immediateKind decoded.imm16)
            else cpu.registers.read decoded.rs2
          let storeData ← cpu.registers.read decoded.rs2
          return ({ cpu with operandLhs, operandRhs, storeData, microstate := .execute }, bus)

/-- `Microstate::Execute` -/
def tickExecute (cpu : CpuCore) (bus : Bus) : Except Hazard (CpuCore × Bus) := do
  let control ← deref cpu.controlSignals
  let cpu := { cpu with
    aluResult := Alu.execute control.aluOperation cpu.operandLhs cpu.operandRhs }
  let leave (cpu : CpuCore) : CpuCore × Bus :=
    ({ cpu with
        microstate := if control.memoryOperation = .none then .writeback else .memory }, bus)
  match control.controlFlow with
  | .conditionalBranch =>
      let decoded ← deref cpu.decodedInstruction
      let branchTarget := cpu.pcPlus4 + Decoder.branchDisplacement decoded.imm16
      return cpu.retireTo bus (if cpu.branchTaken control then branchTarget else cpu.pcPlus4)
  | .relativeJump =>
      let decoded ← deref cpu.decodedInstruction
      let cpu := { cpu with nextPc := cpu.pcPlus4 + Decoder.jumpDisplacement decoded.imm26 }
      if !control.regWrite then return cpu.retireTo bus cpu.nextPc
      else return leave cpu
  | .registerJump => return cpu.retireTo bus cpu.operandLhs
  | .sequential => return leave cpu

/-- `Microstate::Memory` -/
def tickMemory (cpu : CpuCore) (bus : Bus) : Except Hazard (CpuCore × Bus) := do
  let control ← deref cpu.controlSignals
  match control.memoryOperation with
  | .load =>
      match bus.read32 cpu.aluResult with
      | .error fault =>
          return (cpu.enterFault
            (if fault = .misaligned then .misalignedLoad else .unmappedLoad) cpu.aluResult, bus)
      | .ok data => return ({ cpu with memoryData := data, microstate := .writeback }, bus)
  | .store =>
      match bus.write32 cpu.aluResult cpu.storeData with
      | (some fault, bus) =>
          return (cpu.enterFault
            (match fault with
              | .misaligned => .misalignedStore
              | .readOnly => .readOnlyStore
              | _ => .unmappedStore) cpu.aluResult, bus)
      | (none, bus) => return cpu.retireTo bus cpu.nextPc
  -- no operation: the source returns without leaving the microstate
  | .none => return (cpu, bus)

/-- `Microstate::Writeback` -/
def tickWriteback (cpu : CpuCore) (bus : Bus) : Except Hazard (CpuCore × Bus) := do
  let control ← deref cpu.controlSignals
  let registers ←
    if control.regWrite then do
      let writebackValue :=
        match control.writebackSource with
        | .memory => cpu.memoryData
        | .pcPlus4 => cpu.pcPlus4
        | .alu => cpu.aluResult
      let destination ←
        match control.registerDestination with
        | .returnAddress => pure 31
        | .decodedRd => (·.rd) <$> deref cpu.decodedInstruction
      cpu.registers.write destination writebackValue
    else pure cpu.registers
  return ({ cpu with
    registers
    pc := cpu.nextPc
    retiredInstructions := cpu.retiredInstructions + 1
    microstate := if control.halt then .halted else .fetch }, bus.retireTick)

/-- `CpuCore::tick` -/
def tick (cpu : CpuCore) (bus : Bus) : Except Hazard (CpuCore × Bus) :=
  match cpu.microstate with
  | .fetch => .ok (cpu.tickFetch bus)
  | .decode => cpu.tickDecode bus
  | .execute => cpu.tickExecute bus
  | .memory => cpu.tickMemory bus
  | .writeback => cpu.tickWriteback bus
  | .halted | .fault => .ok (cpu, bus)

/-! ### Whole instructions -/

/-- The loop of `step`: tick while nothing retired and the core runs. -/
def stepLoop (retiredBefore : ℕ) : ℕ → CpuCore → Bus → Except Hazard (CpuCore × Bus)
  | 0, cpu, bus =>
      if !cpu.halted && !cpu.faulted && cpu.retiredInstructions == retiredBefore then
        .error .outOfFuel
      else .ok (cpu, bus)
  | fuel + 1, cpu, bus =>
      if !cpu.halted && !cpu.faulted && cpu.retiredInstructions == retiredBefore then
        cpu.tick bus >>= fun (cpu, bus) => stepLoop retiredBefore fuel cpu bus
      else .ok (cpu, bus)

/-- `step` on a given amount of fuel. -/
def stepWithin (fuel : ℕ) (cpu : CpuCore) (bus : Bus) :
    Except Hazard (StepResult × CpuCore × Bus) :=
  if cpu.halted then .ok (.halted, cpu, bus)
  else if cpu.faulted then .ok (.faulted, cpu, bus)
  else
    stepLoop cpu.retiredInstructions fuel cpu bus >>= fun (cpu, bus) =>
      .ok (if cpu.faulted then .faulted else if cpu.halted then .halted else .retired, cpu, bus)

/-- The microstates an instruction passes through, hence the fuel of `step`. -/
def kStepFuel : ℕ := 5

/-- `CpuCore::step` -/
def step (cpu : CpuCore) (bus : Bus) : Except Hazard (StepResult × CpuCore × Bus) :=
  cpu.stepWithin kStepFuel bus

end CpuCore
end Mini32.Cpp
