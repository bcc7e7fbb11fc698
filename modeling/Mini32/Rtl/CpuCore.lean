import Mini32.Rtl.Components
import Mini32.Lib.Elastic
import Mathlib.Logic.Function.Basic

/-!
# The RTL CPU core

`cpu_core` as a state of registers, combinational outputs, and one function
`clock` for the rising edge.

## The source and the model

Each `always_comb` signal is a function of the registers under its own name.  The single
`always_ff` block is `clock`.  Non-blocking assignments read the state before the edge, so
`clock` builds the new state from the old one; an assignment that a later one in the same
edge overrides is the inner of two record updates.  The retirement and fault outputs are
registers as well; they are grouped here as `RetirePort` and `FaultPort`.

An instruction goes through `FETCH`, `DECODE` and `EXECUTE`; loads and stores add
`MEMORY`, and whatever writes a register ends in `WRITEBACK`.  The core waits for
`bus_ready` in `FETCH` and `MEMORY` alone.  `HALTED` and `FAULT` are left by reset only.

Enumerated signals hold one of their enumerators, so the `default` arm of the
state machine does not arise.

## The core as a client

`client` is the core seen as a client of its bus, and `client_lawful` says that a
cycle without `bus_ready` changes nothing but the retirement pulses.  This is all that the
results about latency and about the system's timing need to know of stalling.
-/

namespace Mini32.Rtl

/-- `bus_access_t`: what the core wants of the bus. -/
inductive BusAccess
  | fetch | read | write
  deriving DecidableEq, Repr

/-- `bus_access`, `bus_addr` and `bus_wdata`. -/
structure Request where
  access : BusAccess
  addr : Word
  wdata : Word
  deriving DecidableEq, Repr

/-- `bus_rdata` and `bus_fault`; `none` is `BUS_FAULT_NONE`. -/
structure Response where
  rdata : Word
  fault : Option BusFault
  deriving DecidableEq, Repr

/-- Two responses the core cannot tell apart: after a store it does not read
`bus_rdata`. -/
def Response.Agrees (access : BusAccess) (r r' : Response) : Prop :=
  r.fault = r'.fault ∧ (access ≠ .write → r.rdata = r'.rdata)

/-- `cpu_state_t` -/
inductive CpuState
  | fetch | decode | execute | memory | writeback | halted | fault
  deriving DecidableEq, Repr

/-- The `retire_*` outputs. -/
structure RetirePort where
  valid : Bool
  pc : Word
  instruction : Word
  nextPc : Word
  regWrite : Bool
  rd : BitVec 5
  value : Word
  memWrite : Bool
  memAddr : Word
  memValue : Word
  deriving DecidableEq, Repr

/-- The `fault_*` outputs. -/
structure FaultPort where
  code : CpuFault
  pc : Word
  instruction : Word
  addressValid : Bool
  address : Word
  deriving DecidableEq, Repr

/-- The registers of `cpu_core`, with the array of its `register_file` instance and the
registered `fault_*` and `retire_*` outputs. -/
structure CpuCore where
  state : CpuState
  pc : Word
  instructionRegister : Word
  operandLhsLatch : Word
  operandRhsLatch : Word
  aluResultLatch : Word
  storeDataLatch : Word
  memoryDataLatch : Word
  nextPcLatch : Word
  /-- The array of `register_file`; the cell of `r0` is never written or read. -/
  registers : BitVec 5 → Word
  fault : FaultPort
  retire : RetirePort

namespace CpuCore

/-! ## Combinational logic -/

section Comb

variable (c : CpuCore)

/-- `halted` -/
def halted : Bool := c.state = .halted
/-- `faulted` -/
def faulted : Bool := c.state = .fault

/-- The outputs of `decoder_instance`, fed with `instruction_register`. -/
def decoded : Decoded := decoder c.instructionRegister
/-- The control signals of `control_unit_instance` for the decoded opcode. -/
def control : ControlSignals := (controlUnit c.decoded.opcode).1
/-- `control_supported`: whether the control unit knows the decoded opcode. -/
def controlSupported : Bool := (controlUnit c.decoded.opcode).2

/-- A read port of `register_file`. -/
def readRegister (addr : BitVec 5) : Word := if addr = 0 then 0 else c.registers addr

/-- `immediate_value` -/
def immediateValue : Word := immediateGenerator c.decoded.imm16 c.control.immediateKind

/-- `alu_result`, of the two operand latches. -/
def aluResult : Word := alu c.operandLhsLatch c.operandRhsLatch c.control.aluOperation

/-- `bus_valid` -/
def busValid : Bool :=
  if c.state = .fetch then true else if c.state = .memory then true else false

/-- `bus_access`; it is `BUS_FETCH` while `bus_valid` is low. -/
def busAccess : BusAccess :=
  if c.state = .fetch then .fetch
  else if c.state = .memory then
    if c.control.memoryOperation = .store then .write else .read
  else .fetch

/-- `bus_addr`: the PC of a fetch, the ALU result of a load or a store. -/
def busAddr : Word :=
  if c.state = .fetch then c.pc else if c.state = .memory then c.aluResultLatch else 0

/-- `bus_wdata` -/
def busWdata : Word :=
  if c.state = .fetch then 0 else if c.state = .memory then c.storeDataLatch else 0

/-- `{{14{imm16[15]}}, imm16, 2'b00}`. -/
def branchDisplacement : Word :=
  let imm16 := c.decoded.imm16
  (BitVec.replicate 14 (BitVec.ofBool (imm16.getLsbD 15)) ++ imm16 ++ 0#2 :
    BitVec (1 * 14 + 16 + 2))

/-- `{{4{imm26[25]}}, imm26, 2'b00}`. -/
def jumpDisplacement : Word :=
  let imm26 := c.decoded.imm26
  (BitVec.replicate 4 (BitVec.ofBool (imm26.getLsbD 25)) ++ imm26 ++ 0#2 :
    BitVec (1 * 4 + 26 + 2))

/-- `branch_taken`: the two order predicates compare signed numbers. -/
def branchTaken : Bool :=
  match c.control.branchPredicate with
  | .equal => c.operandLhsLatch == c.operandRhsLatch
  | .notEqual => c.operandLhsLatch != c.operandRhsLatch
  | .signedLessThan => c.operandLhsLatch.slt c.operandRhsLatch
  | .signedGreaterEqual => c.operandRhsLatch.sle c.operandLhsLatch
  | .none => false

/-- `writeback_value`; a call leaves the address of the next instruction. -/
def writebackValue : Word :=
  match c.control.writebackSource with
  | .memory => c.memoryDataLatch
  | .pcPlus4 => c.pc + 4
  | .alu => c.aluResultLatch

/-- `writeback_destination`; a call writes `r31` whatever its `rd` field holds. -/
def writebackDestination : BitVec 5 :=
  if c.control.registerDestination = .returnAddress then 31 else c.decoded.rd

/-- `register_write_enable` -/
def registerWriteEnable : Bool := c.state = .writeback && c.control.regWrite

/-- `observe_data` of `register_file`. -/
def writebackCurrentValue : Word := c.readRegister c.writebackDestination

end Comb

/-- `fetch_fault`: the CPU fault of a faulted fetch. -/
def fetchFault : Option BusFault → CpuFault
  | some .misaligned => .misalignedInstructionFetch
  | some .nonExecutable => .nonExecutableInstructionFetch
  | _ => .unmappedInstructionFetch

/-- `load_fault`: the CPU fault of a faulted load. -/
def loadFault : Option BusFault → CpuFault
  | some .misaligned => .misalignedLoad
  | _ => .unmappedLoad

/-- `store_fault`: the CPU fault of a faulted store. -/
def storeFault : Option BusFault → CpuFault
  | some .misaligned => .misalignedStore
  | some .readOnly => .readOnlyStore
  | _ => .unmappedStore

/-! ## The rising edge -/

/-- `record_retirement`. -/
def recordRetirement (c : CpuCore) (writesRegister : Bool) (destination : BitVec 5) (value : Word)
    (committedNextPc : Word) (writesMemory : Bool) (memoryAddress memoryValue : Word) :
    RetirePort where
  valid := true
  pc := c.pc
  instruction := c.instructionRegister
  nextPc := committedNextPc
  regWrite := writesRegister && destination != 0 && value != c.writebackCurrentValue
  rd := destination
  value := value
  memWrite := writesMemory
  memAddr := memoryAddress
  memValue := memoryValue

/-- `enter_fault`, without the change of state. -/
def faultPort (c : CpuCore) (error : CpuFault) (errorInstruction : Word) (addressIsValid : Bool)
    (errorAddress : Word) : FaultPort :=
  ⟨error, c.pc, errorInstruction, addressIsValid, errorAddress⟩

/-- The synchronous write of `register_file`. -/
def registersNext (c : CpuCore) : BitVec 5 → Word :=
  if c.registerWriteEnable ∧ c.writebackDestination ≠ 0 then
    Function.update c.registers c.writebackDestination c.writebackValue
  else c.registers

/-- The reset branch; `r0` has no reset. -/
def resetState (c : CpuCore) : CpuCore where
  state := .fetch
  pc := 0
  instructionRegister := 0
  operandLhsLatch := 0
  operandRhsLatch := 0
  aluResultLatch := 0
  storeDataLatch := 0
  memoryDataLatch := 0
  nextPcLatch := 0
  registers r := if r = 0 then c.registers r else 0
  fault := ⟨.none, 0, 0, false, 0⟩
  retire := ⟨false, 0, 0, 0, false, 0, 0, false, 0, 0⟩

/-- The assignments every edge without reset makes to the retirement pulses. -/
def clearPulses (c : CpuCore) : CpuCore :=
  { c with retire := { c.retire with valid := false, regWrite := false, memWrite := false } }

/-- The rising edge of the clock. -/
def clock (reset busReady : Bool) (response : Response) (c : CpuCore) : CpuCore :=
  if reset then c.resetState
  else
    let next := { c.clearPulses with registers := c.registersNext }
    match c.state with
    | .fetch =>
        if busReady then
          if response.fault = none then
            { next with instructionRegister := response.rdata, state := .decode }
          else
            { next with
              fault := c.faultPort (fetchFault response.fault) 0 false 0, state := .fault }
        else next
    | .decode =>
        if !c.decoded.valid then
          if c.decoded.malformed then
            { next with
              fault := c.faultPort .malformedInstruction c.instructionRegister false 0
              state := .fault }
          else
            { next with
              fault := c.faultPort .illegalInstruction c.instructionRegister false 0
              state := .fault }
        else if !c.controlSupported then
          { next with
            fault := c.faultPort .unsupportedInstruction c.instructionRegister false 0
            state := .fault }
        else
          { next with
            operandLhsLatch := c.readRegister c.decoded.rs1
            operandRhsLatch :=
              if c.control.aluSrcImmediate then c.immediateValue else c.readRegister c.decoded.rs2
            storeDataLatch := c.readRegister c.decoded.rs2
            nextPcLatch := c.pc + 4
            state := .execute }
    | .execute =>
        let next := { next with aluResultLatch := c.aluResult }
        if c.control.controlFlow = .conditionalBranch then
          let target := if c.branchTaken then c.pc + 4 + c.branchDisplacement else c.pc + 4
          { next with
            pc := target, retire := c.recordRetirement false 0 0 target false 0 0
            state := .fetch }
        else if c.control.controlFlow = .relativeJump then
          let target := c.pc + 4 + c.jumpDisplacement
          if !c.control.regWrite then
            { next with
              nextPcLatch := target, pc := target
              retire := c.recordRetirement false 0 0 target false 0 0
              state := .fetch }
          else { next with nextPcLatch := target, state := .writeback }
        else if c.control.controlFlow = .registerJump then
          { next with
            pc := c.operandLhsLatch
            retire := c.recordRetirement false 0 0 c.operandLhsLatch false 0 0
            state := .fetch }
        else if c.control.memoryOperation ≠ .none then { next with state := .memory }
        else { next with state := .writeback }
    | .memory =>
        if busReady then
          if response.fault ≠ none then
            if c.control.memoryOperation = .load then
              { next with
                fault := c.faultPort (loadFault response.fault) c.instructionRegister true
                  c.aluResultLatch
                state := .fault }
            else
              { next with
                fault := c.faultPort (storeFault response.fault) c.instructionRegister true
                  c.aluResultLatch
                state := .fault }
          else if c.control.memoryOperation = .load then
            { next with memoryDataLatch := response.rdata, state := .writeback }
          else
            { next with
              pc := c.nextPcLatch
              retire := c.recordRetirement false 0 0 c.nextPcLatch true c.aluResultLatch
                c.storeDataLatch
              state := .fetch }
        else next
    | .writeback =>
        { next with
          pc := c.nextPcLatch
          retire := c.recordRetirement c.control.regWrite c.writebackDestination c.writebackValue
            c.nextPcLatch false 0 0
          state := if c.control.halt then .halted else .fetch }
    | .halted | .fault => next

/-! ## The core as a client of its bus -/

/-- The request the core drives, while `bus_valid` is high. -/
def request (c : CpuCore) : Option Request :=
  if c.busValid then some ⟨c.busAccess, c.busAddr, c.busWdata⟩ else none

/-- The retirement record, while `retire_valid` is high. -/
def retired (c : CpuCore) : Option RetirePort := if c.retire.valid then some c.retire else none

/-- The core between clock edges without reset. -/
def client : Elastic.Client CpuCore Request Response RetirePort where
  request := request
  emit := retired
  idle := clock false false ⟨0, none⟩
  stall := clearPulses
  accept r := clock false true r

/-- The registers are not written outside `WRITEBACK`. -/
theorem registersNext_of_ne {c : CpuCore} (h : c.state ≠ .writeback) :
    c.registersNext = c.registers := by
  simp [registersNext, registerWriteEnable, h]

/-- The core requests in `FETCH` and `MEMORY`. -/
theorem busValid_iff {c : CpuCore} : c.busValid = true ↔ c.state = .fetch ∨ c.state = .memory := by
  cases h : c.state <;> simp [busValid, h]

/-- **An edge without `bus_ready` moves nothing but the retirement pulses.** -/
theorem clock_stall {c : CpuCore} (h : c.busValid = true) (r : Response) :
    c.clock false false r = c.clearPulses := by
  rcases busValid_iff.mp h with hs | hs <;>
    simp only [clock, hs, Bool.false_eq_true, if_false,
      registersNext_of_ne (c := c) (by rw [hs]; nofun)] <;> rfl

/-- Without a request the response ports are not read. -/
theorem clock_idle {c : CpuCore} (h : c.busValid = false) (ready : Bool) (r : Response) :
    c.clock false ready r = client.idle c := by
  cases hs : c.state with
  | fetch => simp [busValid, hs] at h
  | memory => simp [busValid, hs] at h
  | _ => simp only [client, clock, hs]

/-- The core keeps its request while it waits: a stalled cycle only clears the pulses. -/
theorem client_lawful : client.Lawful where
  request_stall _ := rfl
  accept_stall _ _ := rfl
  stall_stall _ := rfl
  emit_stall _ := rfl

/-- Responses that agree for the request of the core lead to the same state. -/
theorem accept_agrees {c : CpuCore} {q : Request} {r r' : Response} (hq : c.request = some q)
    (h : r.Agrees q.access r') : c.clock false true r = c.clock false true r' := by
  obtain ⟨hfault, hrdata⟩ := h
  cases hs : c.state with
  | fetch =>
      have hacc : q.access = .fetch := by
        simp [request, busValid, busAccess, hs] at hq
        rw [← hq]
      have hr : r = r' := by
        cases r
        cases r'
        simp_all
      rw [hr]
  | memory =>
      by_cases hop : c.control.memoryOperation = .store
      · simp only [clock, hs, hfault, hop, reduceCtorEq, if_false]
      · have hacc : q.access = .read := by
          simp [request, busValid, busAccess, hs, hop] at hq
          rw [← hq]
        have hr : r = r' := by
          cases r
          cases r'
          simp_all
        rw [hr]
  | _ => simp only [clock, hs]

end CpuCore
end Mini32.Rtl
