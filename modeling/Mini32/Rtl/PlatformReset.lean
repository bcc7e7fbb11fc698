import Mini32.Rtl.FpgaPlatform

/-!
# Reset erases the history

Reset leaves some storage as it is: the cell of `r0`, the read registers of ROM and
RAM, the slots of the FIFO, and RAM itself.  `Alike` relates two platforms that
differ in nothing else, and in these only where nobody looks: `r0` is not read, a
read register is loaded in the cycle before a response shows it, and a slot is
written before the queue reaches it.  Every edge keeps two platforms alike
(`Alike.clock`), and alike platforms have the same outputs.

The relation is built part by part, as the platform is.  Of the core it says that `forget`,
which clears the cell of `r0`, makes both the same; of the bus, that everything but the read
registers is the same, and those too while a response shows them; of the FIFO, that both hold
the same queue and the same overflow flag, wherever the queue is in the storage.  The
transmitter is the same on both sides, since reset clears all of it.

The RAM is not a difference that nobody sees: a program can read it.  So that both RAMs hold
the same after the reset edge is a condition.
-/

namespace Mini32.Rtl

/-! ## The core -/

namespace CpuCore

/-- The core without the cell of `r0`. -/
def forget (c : CpuCore) : CpuCore :=
  { c with registers := fun r => if r = 0 then 0 else c.registers r }

@[simp] theorem readRegister_forget (c : CpuCore) (r : BitVec 5) :
    c.forget.readRegister r = c.readRegister r := by
  by_cases h : r = 0#5 <;> simp [readRegister, forget, h]

/-- The writeback ports do not see `r0`. -/
theorem registersNext_forget (c : CpuCore) (r : BitVec 5) (hr : r ≠ 0) :
    c.forget.registersNext r = c.registersNext r := by
  have hwrite : c.forget.registerWriteEnable = c.registerWriteEnable := rfl
  have hdest : c.forget.writebackDestination = c.writebackDestination := rfl
  have hvalue : c.forget.writebackValue = c.writebackValue := rfl
  rw [registersNext, registersNext, hwrite, hdest, hvalue]
  split
  · by_cases heq : r = c.writebackDestination
    · subst heq
      rw [Function.update_self, Function.update_self]
    · rw [Function.update_of_ne heq, Function.update_of_ne heq]
      exact if_neg hr
  · exact if_neg hr

theorem recordRetirement_forget (c : CpuCore) :
    c.forget.recordRetirement = c.recordRetirement := by
  funext
  simp only [recordRetirement, writebackCurrentValue, readRegister_forget]
  rfl

theorem clock_registers (c : CpuCore) (ready : Bool) (r : Response) :
    (c.clock false ready r).registers = c.registersNext := by
  cases hs : c.state <;> simp only [clock, hs, Bool.false_eq_true, if_false] <;> split_ifs <;> rfl

/-- Cores that differ in the register file are told apart by `r1` to `r31` alone. -/
theorem forget_eq {a b : CpuCore} (h : { a with registers := b.registers } = b)
    (hr : ∀ r, r ≠ 0 → a.registers r = b.registers r) : a.forget = b.forget := by
  have hregs : (fun r => if r = 0 then (0 : Word) else a.registers r) =
      fun r => if r = 0 then 0 else b.registers r := by
    funext r
    by_cases hz : r = 0
    · rw [if_pos hz, if_pos hz]
    · rw [if_neg hz, if_neg hz, hr r hz]
  rw [← h, forget, forget, hregs]

/-- What the state machine branches on does not depend on `r0`. -/
theorem ports_forget (c : CpuCore) :
    c.forget.state = c.state ∧ c.forget.decoded = c.decoded ∧ c.forget.control = c.control ∧
      c.forget.controlSupported = c.controlSupported ∧ c.forget.branchTaken = c.branchTaken :=
  ⟨rfl, rfl, rfl, rfl, rfl⟩

/-- **An edge of the core does not look at `r0`.** -/
theorem forget_clock (c : CpuCore) (ready : Bool) (r : Response) :
    (c.forget.clock false ready r).forget = (c.clock false ready r).forget := by
  have hrecord := recordRetirement_forget c
  obtain ⟨hs, hd, hc, hv, hb⟩ := ports_forget c
  refine forget_eq ?_ fun a ha => ?_
  · rw [clock_registers]
    simp only [clock, hs, hd, hc, hv, hb, hrecord, readRegister_forget, Bool.false_eq_true,
      if_false]
    split <;> (try split_ifs) <;> rfl
  · rw [clock_registers, clock_registers, registersNext_forget c a ha]

theorem request_forget (c : CpuCore) : c.forget.request = c.request := rfl

theorem forget_resetState (c c' : CpuCore) : c.resetState.forget = c'.resetState.forget := by
  refine forget_eq rfl fun a ha => ?_
  simp only [resetState]
  rw [if_neg ha, if_neg ha]

end CpuCore

/-! ## The bus -/

namespace SystemBus

/-- Two buses that agree but for the read registers of ROM and RAM; these agree while
a response shows them. -/
structure Alike (b b' : SystemBus) : Prop where
  state : b.state = b'.state
  request : b.pendingRequest = b'.pendingRequest
  romMemory : b.rom.memory = b'.rom.memory
  ramMemory : b.ram.memory = b'.ram.memory
  uart : b.uart = b'.uart
  timer : b.timer = b'.timer
  gpio : b.gpio = b'.gpio
  debug : b.debug = b'.debug
  romRead : b.state = .response → b.pending.fault = none → b.pending.rom = true →
    b.pendingAccess ≠ .write → b.rom.readData = b'.rom.readData
  ramRead : b.state = .response → b.pending.fault = none → b.pending.ram = true →
    b.pendingAccess ≠ .write → b.ram.readData = b'.ram.readData

namespace Alike

variable {b b' : SystemBus}

theorem pending_eq (h : Alike b b') : b'.pending = b.pending := pending_congr h.request.symm

theorem issuing_eq (h : Alike b b') : b'.issuing = b.issuing := by
  rw [issuing, issuing, h.pending_eq, h.state]

theorem responseReady_eq (h : Alike b b') : b'.responseReady = b.responseReady := by
  rw [responseReady, responseReady, h.state]

/-- The core cannot tell the responses apart. -/
theorem response_agrees (h : Alike b b') : b.response.Agrees b.pendingAccess b'.response := by
  refine ⟨?_, fun haccess => ?_⟩
  · simp only [response, responseFault, h.pending_eq, h.state]
  · simp only [response, responseRdata, h.pending_eq, ← h.state, ← h.uart, ← h.timer, ← h.gpio,
      ← h.debug]
    split
    · next hr =>
        obtain ⟨hs, hfault⟩ := hr
        split
        · next hrom => exact h.romRead hs hfault hrom haccess
        · split
          · next hram => exact h.ramRead hs hfault hram haccess
          · rfl
    · rfl

/-- Outside a response the response ports are constant. -/
theorem response_eq (h : Alike b b') (hs : b.state ≠ .response) : b'.response = b.response := by
  have hs' : b'.state ≠ .response := h.state ▸ hs
  simp [response, responseRdata, responseFault, hs, hs']

/-- **Every edge keeps the buses alike.** -/
theorem clock (h : Alike b b') (tick valid : Bool) (pins : Word) (request : Request) :
    Alike (b.clock false tick pins valid request) (b'.clock false tick pins valid request) := by
  have haccess : b'.pendingAccess = b.pendingAccess := (congrArg Request.access h.request).symm
  have haddr : b'.pendingAddr = b.pendingAddr := (congrArg Request.addr h.request).symm
  have hwdata : b'.pendingWdata = b.pendingWdata := (congrArg Request.wdata h.request).symm
  have hissuing := h.issuing_eq
  have hpending := h.pending_eq
  -- what an edge from the issue cycle knows about the response
  have hissued (hs : (b.clock false tick pins valid request).state = .response) :
      b.state = .memory ∧ (b.clock false tick pins valid request).pending = b.pending ∧
        (b.clock false tick pins valid request).pendingAccess = b.pendingAccess := by
    have hm : b.state = .memory := by
      rw [clock_state] at hs
      cases hb : b.state <;> cases valid <;> simp_all
    have hreq : (b.clock false tick pins valid request).pendingRequest = b.pendingRequest := by
      simp [clock_pendingRequest, hm]
    exact ⟨hm, pending_congr hreq, congrArg Request.access hreq⟩
  constructor
  case state => rw [clock_state, clock_state, h.state]
  case request => rw [clock_pendingRequest, clock_pendingRequest, h.state, h.request]
  case romMemory => simp only [clock_rom, Rom.clock_memory, h.romMemory]
  case ramMemory =>
    simp only [clock_ram, Ram.clock, ramWriteEnable, hissuing, hpending, haccess, haddr, hwdata,
      h.ramMemory]
  case uart =>
    simp only [clock_uart, uartReadEnable, uartWriteEnable, hissuing, hpending, haccess, haddr,
      hwdata, h.uart]
  case timer =>
    simp only [clock_timer, timerReadEnable, timerWriteEnable, hissuing, hpending, haccess, haddr,
      hwdata, h.timer]
  case gpio =>
    simp only [clock_gpio, gpioReadEnable, gpioWriteEnable, hissuing, hpending, haccess, haddr,
      hwdata, h.gpio]
  case debug =>
    simp only [clock_debug, debugReadEnable, debugWriteEnable, hissuing, hpending, haccess, haddr,
      hwdata, h.debug]
  case romRead =>
    intro hs hfault hrom hread
    obtain ⟨hm, hp, ha⟩ := hissued hs
    rw [hp] at hfault hrom
    rw [ha] at hread
    have hissue : b.issuing = true := by simp [issuing, hm, hfault]
    simp [Rom.clock, romReadEnable, hissuing, hissue, hpending, hrom, haccess, hread, haddr,
      h.romMemory]
  case ramRead =>
    intro hs hfault hram hread
    obtain ⟨hm, hp, ha⟩ := hissued hs
    rw [hp] at hfault hram
    rw [ha] at hread
    have hissue : b.issuing = true := by simp [issuing, hm, hfault]
    have haccess' : b.pendingAccess = .read := by
      rw [SystemBus.pending_eq] at hfault hram
      cases hacc : b.pendingAccess with
      | read => rfl
      | write => exact absurd hacc hread
      | fetch =>
          by_cases hal : Isa.Aligned b.pendingAddr <;>
            cases hreg : Isa.region b.pendingAddr <;> simp_all
    simp [Ram.clock, ramReadEnable, hissuing, hissue, hpending, hram, haccess, haccess', haddr,
      h.ramMemory]

end Alike

/-- A reset edge leaves nothing but ROM and RAM. -/
theorem alike_reset {b b' : SystemBus} (tick tick' valid valid' : Bool) (pins pins' : Word)
    (request request' : Request) (hrom : b.rom.memory = b'.rom.memory)
    (hram : (b.clock true tick pins valid request).ram.memory =
      (b'.clock true tick' pins' valid' request').ram.memory) :
    Alike (b.clock true tick pins valid request) (b'.clock true tick' pins' valid' request') where
  state := rfl
  request := rfl
  romMemory := by
    simp only [clock, if_true, Rom.clock_memory]
    exact hrom
  ramMemory := hram
  uart := rfl
  timer := rfl
  gpio := rfl
  debug := rfl
  romRead h := nomatch h
  ramRead h := nomatch h

end SystemBus

/-! ## The system -/

namespace System

/-- Two systems with cores that differ in the cell of `r0` and alike buses. -/
structure Alike (s s' : System) : Prop where
  cpu : s.cpu.forget = s'.cpu.forget
  bus : SystemBus.Alike s.bus s'.bus
  inv : Inv s
  inv' : Inv s'

variable {s s' : System}

/-- **Every edge keeps the systems alike.** -/
theorem Alike.clock (h : Alike s s') (pins : Word) :
    Alike (s.clock false pins) (s'.clock false pins) := by
  have hrequest : s'.cpu.request = s.cpu.request := by
    rw [← CpuCore.request_forget, ← h.cpu, CpuCore.request_forget]
  have hretire : s'.cpu.retire = s.cpu.retire := (congrArg CpuCore.retire h.cpu).symm
  have hvalid : s'.cpu.busValid = s.cpu.busValid := (congrArg CpuCore.busValid h.cpu).symm
  have hbus : s'.busRequest = s.busRequest :=
    (congrArg (fun c : CpuCore => Request.mk c.busAccess c.busAddr c.busWdata) h.cpu).symm
  refine ⟨?_, ?_, h.inv.clock pins, h.inv'.clock pins⟩
  · -- the response agrees where the core reads it
    have hagrees : (s'.cpu.clock false s.bus.responseReady s.bus.response).forget =
        (s'.cpu.clock false s.bus.responseReady s'.bus.response).forget := by
      cases hready : s.bus.responseReady with
      | false =>
          have hs : s.bus.state ≠ .response := by
            intro hs
            simp [SystemBus.responseReady, hs] at hready
          rw [h.bus.response_eq hs]
      | true =>
          have hs : s.bus.state ≠ .idle := by
            intro hs
            simp [SystemBus.responseReady, hs] at hready
          have hq := hrequest.trans (h.inv.request hs)
          rw [CpuCore.accept_agrees hq h.bus.response_agrees]
    simp only [System.clock, h.bus.responseReady_eq]
    rw [← hagrees, ← CpuCore.forget_clock, h.cpu, CpuCore.forget_clock]
  · simp only [System.clock, hretire, hvalid, hbus]
    exact h.bus.clock s.cpu.retire.valid s.cpu.busValid pins s.busRequest

end System

/-! ## The FIFO and the transmitter -/

/-- Two FIFOs that differ in slots behind the queue. -/
def UartTxFifo.Alike {depth : ℕ} (f f' : UartTxFifo depth) : Prop :=
  f = f' ∨ (f.overflow = f'.overflow ∧ ∃ q, f.Represents q ∧ f'.Represents q)

namespace UartTxFifo.Alike

variable {depth : ℕ} {f f' : UartTxFifo depth}

theorem overflow_eq (h : Alike f f') : f.overflow = f'.overflow := by
  rcases h with rfl | ⟨hover, -⟩
  · rfl
  · exact hover

theorem outValid_eq (h : Alike f f') : f.outValid = f'.outValid := by
  rcases h with rfl | ⟨-, q, hq, hq'⟩
  · rfl
  · rw [Bool.eq_iff_iff, hq.outValid_iff, hq'.outValid_iff]

theorem outData_eq (h : Alike f f') (hvalid : f.outValid = true) : f.outData = f'.outData := by
  rcases h with rfl | ⟨-, q, hq, hq'⟩
  · rfl
  · obtain ⟨b, rest, rfl⟩ := List.exists_cons_of_ne_nil (hq.outValid_iff.mp hvalid)
    rw [hq.outData_eq, hq'.outData_eq]

theorem clock (h : Alike f f') {i : FifoInputs} (hreset : i.reset = false) :
    Alike (f.clock i) (f'.clock i) := by
  have hvalid := h.outValid_eq
  have hover := h.overflow_eq
  rcases h with rfl | ⟨-, q, hq, hq'⟩
  · exact Or.inl rfl
  · have hdequeue : f'.dequeue i = f.dequeue i := by rw [dequeue, dequeue, hvalid]
    have henqueue : f'.enqueue i = f.enqueue i := by
      rw [Bool.eq_iff_iff, hq.enqueue_iff, hq'.enqueue_iff, hdequeue]
    refine Or.inr ⟨?_, _, hq.clock hreset, hdequeue ▸ hq'.clock hreset⟩
    simp only [UartTxFifo.clock, hreset, henqueue, hover, Bool.false_eq_true, if_false]

/-- A FIFO without slots has nothing to forget. -/
theorem reset (f f' : UartTxFifo depth) (i i' : FifoInputs) (hi : i.reset = true)
    (hi' : i'.reset = true) : Alike (f.clock i) (f'.clock i') := by
  rcases Nat.eq_zero_or_pos depth with rfl | hdepth
  · have hstorage : f.storage = f'.storage := Vector.ext fun i hi => absurd hi (Nat.not_lt_zero i)
    refine Or.inl ?_
    simp only [UartTxFifo.clock, hi, hi', if_true, hstorage]
  · refine Or.inr ⟨?_, [], Represents.reset hdepth f hi, Represents.reset hdepth f' hi'⟩
    simp only [UartTxFifo.clock, hi, hi', if_true]

end UartTxFifo.Alike

/-- An offer that is not valid is not read. -/
theorem UartTxPhy.clock_congr {clks : ℕ} (phy : UartTxPhy clks) {txValid : Bool}
    {txData txData' : BitVec 8} (h : txValid = true → txData = txData') :
    phy.clock false txValid txData = phy.clock false txValid txData' := by
  cases txValid with
  | false => simp [clock]
  | true => rw [h rfl]

/-! ## The platform -/

namespace FpgaPlatform

variable {depth clks : ℕ}

/-- The outputs of the system, the pin, and the overflow flag. -/
structure Outputs where
  pc : Word
  halted : Bool
  faulted : Bool
  fault : FaultPort
  retire : RetirePort
  uartTxValid : Bool
  uartTxData : BitVec 8
  debugValue : Word
  gpioOutput : Word
  gpioDirection : Word
  timerCounter : Word
  timerCompare : Word
  timerControl : Word
  uartTx : Bool
  uartOverflow : Bool
  deriving DecidableEq, Repr

/-- The outputs of `mini32_fpga_platform`, and of the instances in it that end there. -/
def outputs (s : FpgaPlatform depth clks) : Outputs where
  pc := s.system.cpu.pc
  halted := s.system.cpu.halted
  faulted := s.system.cpu.faulted
  fault := s.system.cpu.fault
  retire := s.system.cpu.retire
  uartTxValid := s.system.bus.uart.txValid
  uartTxData := s.system.bus.uart.txData
  debugValue := s.system.bus.debug.debugValue
  gpioOutput := s.system.bus.gpio.gpioOutput
  gpioDirection := s.system.bus.gpio.gpioDirection
  timerCounter := s.system.bus.timer.timerCounter
  timerCompare := s.system.bus.timer.timerCompare
  timerControl := s.system.bus.timer.timerControl
  uartTx := s.uartTx
  uartOverflow := s.uartOverflow

/-- Two platforms that differ in what reset leaves. -/
structure Alike (s s' : FpgaPlatform depth clks) : Prop where
  system : System.Alike s.system s'.system
  uartFifo : UartTxFifo.Alike s.uartFifo s'.uartFifo
  uartPhy : s.uartPhy = s'.uartPhy

variable {s s' : FpgaPlatform depth clks}

/-- **Every edge keeps the platforms alike.** -/
theorem Alike.clock (h : Alike s s') (gpioInput : Word) :
    Alike (s.clock false gpioInput) (s'.clock false gpioInput) := by
  have hinputs : s'.fifoInputs false = s.fifoInputs false := by
    simp only [fifoInputs, h.system.bus.uart, h.uartPhy]
  refine ⟨h.system.clock gpioInput, ?_, ?_⟩
  · simp only [FpgaPlatform.clock, hinputs]
    exact h.uartFifo.clock rfl
  · simp only [FpgaPlatform.clock, ← h.uartFifo.outValid_eq, ← h.uartPhy]
    exact UartTxPhy.clock_congr _ h.uartFifo.outData_eq

/-- Alike platforms have the same outputs. -/
theorem Alike.outputs_eq (h : Alike s s') : s.outputs = s'.outputs := by
  have hcpu := h.system.cpu
  have hpc : s.system.cpu.pc = s'.system.cpu.pc :=
    (congrArg CpuCore.pc hcpu :)
  have hhalted : s.system.cpu.halted = s'.system.cpu.halted :=
    (congrArg CpuCore.halted hcpu :)
  have hfaulted : s.system.cpu.faulted = s'.system.cpu.faulted :=
    (congrArg CpuCore.faulted hcpu :)
  have hfault : s.system.cpu.fault = s'.system.cpu.fault :=
    (congrArg CpuCore.fault hcpu :)
  have hretire : s.system.cpu.retire = s'.system.cpu.retire :=
    (congrArg CpuCore.retire hcpu :)
  simp only [outputs, uartTx, uartOverflow, hpc, hhalted, hfaulted, hfault, hretire,
    h.system.bus.uart, h.system.bus.debug, h.system.bus.gpio, h.system.bus.timer, h.uartPhy,
    h.uartFifo.overflow_eq]

/-- A reset edge makes platforms alike that hold the same ROM and end with the same RAM. -/
theorem alike_reset (s s' : FpgaPlatform depth clks) (resetPins resetPins' : Word)
    (hrom : s.system.bus.rom.memory = s'.system.bus.rom.memory)
    (hram : (s.clock true resetPins).system.bus.ram.memory =
      (s'.clock true resetPins').system.bus.ram.memory) :
    Alike (s.clock true resetPins) (s'.clock true resetPins') where
  system :=
    { cpu := CpuCore.forget_resetState _ _
      bus := SystemBus.alike_reset s.system.cpu.retire.valid s'.system.cpu.retire.valid
        s.system.cpu.busValid s'.system.cpu.busValid resetPins resetPins' s.system.busRequest
        s'.system.busRequest hrom hram
      inv := System.inv_reset resetPins s.system
      inv' := System.inv_reset resetPins' s'.system }
  uartFifo := UartTxFifo.Alike.reset _ _ (s.fifoInputs true) (s'.fifoInputs true) rfl rfl
  uartPhy := rfl

/-- **Reset erases all history except RAM.**  Whatever two platforms with the same ROM
were doing, after a reset edge that leaves the same RAM in both, their outputs agree in
every cycle for all input pins. -/
theorem reset_erases_history (s s' : FpgaPlatform depth clks) (resetPins resetPins' : Word)
    (hrom : s.system.bus.rom.memory = s'.system.bus.rom.memory)
    (hram : (s.clock true resetPins).system.bus.ram.memory =
      (s'.clock true resetPins').system.bus.ram.memory) (pins : ℕ → Word) (t : ℕ) :
    (run pins resetPins s t).outputs = (run pins resetPins' s' t).outputs := by
  have halike : Alike (run pins resetPins s t) (run pins resetPins' s' t) := by
    induction t with
    | zero => exact alike_reset s s' resetPins resetPins' hrom hram
    | succ t ih => exact ih.clock (pins t)
  exact halike.outputs_eq

/-- The platform of `oneByte` in the middle of another frame, with a byte in the FIFO. -/
def midFrame : FpgaPlatform 1 1 :=
  { loaded 1 1 oneByte with
    uartFifo := ⟨Vector.replicate 1 0x5A, 0, 0, 1, true⟩
    uartPhy := ⟨.data, 0, 5, 0xA5⟩ }

theorem reset_erases_midFrame :
    (run (fun _ => 0) 0 midFrame 40).outputs =
      (run (fun _ => 0) 7 (loaded 1 1 oneByte) 40).outputs :=
  reset_erases_history midFrame (loaded 1 1 oneByte) 0 7 rfl rfl _ 40

end FpgaPlatform
end Mini32.Rtl
