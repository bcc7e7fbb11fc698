import Mini32.Rtl.Peripherals
import Mini32.Rtl.CpuCore

/-!
# The RTL system bus

`system_bus`: one outstanding transaction, captured in `BUS_IDLE`, issued to the
selected memory or block in `BUS_MEMORY`, completed in `BUS_RESPONSE`.

`memory` reads the blocks as the documented `Isa.Memory`; the UART has no memory of
what it sent, so the transcript of its transmit events is an argument.  The two edge
lemmas `clock_unwritten` and `clock_memory` say what a transaction does to that memory
and what it answers.  They are stated over
`busModel`, which is the documented bus in all but one point: a fetch from the
reserved STM32 window reports `NonExecutable` here.

## Three cycles, one access

A request is up from the cycle in which the core makes it to the cycle of the answer.  In
`BUS_IDLE` its three fields are captured, and from then on the bus looks at nothing but
the captured ones; `pendingRequest` is what it goes by.  In `BUS_MEMORY` one enable of one
block is up, unless the access is refused, and the edge behind it is the access: a
store is made, a load is registered.  In `BUS_RESPONSE` the registered data is on the
response port, with the fault if there is one.

All enables share a condition, `issuing`, which has no fault in it.  So a refused access
reaches no block, which is `clock_memory` for a fault and the reason why a faulting
store leaves everything as it was.

## The point in which it is not the documented bus

The decode compares an address with the bounds of each window.  Those of the STM32 window
are compared for fetches alone, and the answer is `NonExecutable`, as for any window that
holds no code; for loads and stores the window is not decoded, as documented.  The
simulator answers `Unmapped` for all three.  The two agree on everything else, and
`Lockstep.BusAgreement` says exactly so.
-/

namespace Mini32.Rtl

/-- `bus_state_t` -/
inductive BusState
  | idle | memory | response
  deriving DecidableEq, Repr

/-- The registers of `system_bus`, and the memories and blocks it instantiates. -/
structure SystemBus where
  state : BusState
  pendingAccess : BusAccess
  pendingAddr : Word
  pendingWdata : Word
  rom : Rom
  ram : Ram
  uart : UartMmio
  timer : TimerMmio
  gpio : GpioMmio
  debug : DebugMmio

namespace SystemBus

/-! ## Address map of the package -/

/-- `ROM_BASE` -/
def ROM_BASE : Word := 0x00000000
/-- `ROM_SIZE_BYTES` -/
def ROM_SIZE_BYTES : Word := 0x00010000
/-- `ROM_LAST` -/
def ROM_LAST : Word := ROM_BASE + ROM_SIZE_BYTES - 1
/-- `RAM_BASE` -/
def RAM_BASE : Word := 0x10000000
/-- `RAM_SIZE_BYTES` -/
def RAM_SIZE_BYTES : Word := 0x00010000
/-- `RAM_LAST` -/
def RAM_LAST : Word := RAM_BASE + RAM_SIZE_BYTES - 1
/-- The sixteen bytes of the UART. -/
def UART_BASE : Word := 0x20000000
/-- `UART_LAST` -/
def UART_LAST : Word := 0x2000000F
/-- The sixteen bytes of the Timer. -/
def TIMER_BASE : Word := 0x20000100
/-- `TIMER_LAST` -/
def TIMER_LAST : Word := 0x2000010F
/-- The sixteen bytes of the GPIO block. -/
def GPIO_BASE : Word := 0x20000200
/-- `GPIO_LAST` -/
def GPIO_LAST : Word := 0x2000020F
/-- The sixteen bytes of the debug register. -/
def DEBUG_BASE : Word := 0x20000300
/-- `DEBUG_LAST` -/
def DEBUG_LAST : Word := 0x2000030F
/-- The window reserved for an STM32, in which there is nothing. -/
def STM32_BASE : Word := 0x20000400
/-- `STM32_LAST` -/
def STM32_LAST : Word := 0x200004FF

/-! ## Decode of the pending request -/

/-- `pending_rom` to `pending_debug` and `pending_fault`. -/
structure PendingDecode where
  rom : Bool := false
  ram : Bool := false
  uart : Bool := false
  timer : Bool := false
  gpio : Bool := false
  debug : Bool := false
  fault : Option BusFault := none
  deriving DecidableEq, Repr

section Comb

variable (bus : SystemBus)

/-- `pending_in_reserved_mmio` -/
def pendingInReservedMmio : Bool :=
  bus.pendingAddr ≥ STM32_BASE && bus.pendingAddr ≤ STM32_LAST

/-- The decode of the captured request; alignment comes first, then the windows in this order. -/
def pending : PendingDecode :=
  let addr := bus.pendingAddr
  let fetchFault : Option BusFault :=
    if bus.pendingAccess = .fetch then some .nonExecutable else none
  -- alignment is first, before range decode
  if addr.extractLsb' 0 2 ≠ 0 then { fault := some .misaligned }
  else if addr ≤ ROM_LAST then
    { rom := true, fault := if bus.pendingAccess = .write then some .readOnly else none }
  else if addr ≥ RAM_BASE ∧ addr ≤ RAM_LAST then { ram := true, fault := fetchFault }
  else if addr ≥ UART_BASE ∧ addr ≤ UART_LAST then { uart := true, fault := fetchFault }
  else if addr ≥ TIMER_BASE ∧ addr ≤ TIMER_LAST then { timer := true, fault := fetchFault }
  else if addr ≥ GPIO_BASE ∧ addr ≤ GPIO_LAST then { gpio := true, fault := fetchFault }
  else if addr ≥ DEBUG_BASE ∧ addr ≤ DEBUG_LAST then { debug := true, fault := fetchFault }
  else if bus.pendingAccess = .fetch ∧ bus.pendingInReservedMmio then
    { fault := some .nonExecutable }
  else { fault := some .unmapped }

/-- The condition all enables share: the issue cycle of a request without fault. -/
def issuing : Bool := bus.state = .memory && bus.pending.fault = none

/-- `rom_read_enable`; fetches and loads read the ROM. -/
def romReadEnable : Bool := bus.issuing && bus.pending.rom && bus.pendingAccess ≠ .write
/-- `ram_read_enable` -/
def ramReadEnable : Bool := bus.issuing && bus.pending.ram && bus.pendingAccess = .read
/-- `ram_write_enable` -/
def ramWriteEnable : Bool := bus.issuing && bus.pending.ram && bus.pendingAccess = .write
/-- `uart_read_enable` -/
def uartReadEnable : Bool := bus.issuing && bus.pending.uart && bus.pendingAccess = .read
/-- `uart_write_enable` -/
def uartWriteEnable : Bool := bus.issuing && bus.pending.uart && bus.pendingAccess = .write
/-- `timer_read_enable` -/
def timerReadEnable : Bool := bus.issuing && bus.pending.timer && bus.pendingAccess = .read
/-- `timer_write_enable` -/
def timerWriteEnable : Bool := bus.issuing && bus.pending.timer && bus.pendingAccess = .write
/-- `gpio_read_enable` -/
def gpioReadEnable : Bool := bus.issuing && bus.pending.gpio && bus.pendingAccess = .read
/-- `gpio_write_enable` -/
def gpioWriteEnable : Bool := bus.issuing && bus.pending.gpio && bus.pendingAccess = .write
/-- `debug_read_enable` -/
def debugReadEnable : Bool := bus.issuing && bus.pending.debug && bus.pendingAccess = .read
/-- `debug_write_enable` -/
def debugWriteEnable : Bool := bus.issuing && bus.pending.debug && bus.pendingAccess = .write

/-- `response_ready` -/
def responseReady : Bool := bus.state = .response

/-- `response_fault`, which is low outside `BUS_RESPONSE`. -/
def responseFault : Option BusFault := if bus.state = .response then bus.pending.fault else none

/-- `response_rdata`: the registered output of the selected memory or block. -/
def responseRdata : Word :=
  if bus.state = .response ∧ bus.pending.fault = none then
    if bus.pending.rom then bus.rom.readData
    else if bus.pending.ram then bus.ram.readData
    else if bus.pending.uart then bus.uart.readData
    else if bus.pending.timer then bus.timer.readData
    else if bus.pending.gpio then bus.gpio.readData
    else if bus.pending.debug then bus.debug.readData
    else 0
  else 0

/-- The response port. -/
def response : Response := ⟨bus.responseRdata, bus.responseFault⟩

end Comb

/-! ## The rising edge -/

/-- The rising edge of the bus and of all that hangs on it. -/
def clock (reset retireTick : Bool) (gpioInput : Word) (requestValid : Bool) (request : Request)
    (bus : SystemBus) : SystemBus :=
  let wordAddress := bus.pendingAddr.extractLsb' 2 14
  let registerOffset := bus.pendingAddr.extractLsb' 0 4
  let bus' : SystemBus :=
    { bus with
      rom := bus.rom.clock bus.romReadEnable wordAddress
      ram := bus.ram.clock bus.ramReadEnable bus.ramWriteEnable wordAddress bus.pendingWdata
      uart := bus.uart.clock reset bus.uartReadEnable bus.uartWriteEnable registerOffset
        bus.pendingWdata
      timer := bus.timer.clock reset retireTick bus.timerReadEnable bus.timerWriteEnable
        registerOffset bus.pendingWdata
      gpio := bus.gpio.clock reset bus.gpioReadEnable bus.gpioWriteEnable registerOffset
        bus.pendingWdata gpioInput
      debug := bus.debug.clock reset bus.debugReadEnable bus.debugWriteEnable registerOffset
        bus.pendingWdata }
  if reset then
    { bus' with state := .idle, pendingAccess := .fetch, pendingAddr := 0, pendingWdata := 0 }
  else
    match bus.state with
    | .idle =>
        if requestValid then
          { bus' with
            pendingAccess := request.access
            pendingAddr := request.addr
            pendingWdata := request.wdata
            state := .memory }
        else bus'
    | .memory => { bus' with state := .response }
    | .response => { bus' with state := .idle }

/-! ## The documented memory behind the bus -/

/-- The memory the blocks hold, with what the UART has sent and the input pins. -/
def memory (transcript : List (BitVec 8)) (gpioInput : Word) (bus : SystemBus) : Isa.Memory where
  rom := bus.rom.memory
  ram := bus.ram.memory
  uartTx := transcript
  timerCounter := bus.timer.timerCounter
  timerCompare := bus.timer.timerCompare
  timerEnable := bus.timer.timerEnabled
  gpioInput := gpioInput
  gpioOutput := bus.gpio.gpioOutput
  gpioDirection := bus.gpio.gpioDirection
  debugValue := bus.debug.debugValue

/-- The byte the UART is transmitting. -/
def transmitted (bus : SystemBus) : List (BitVec 8) :=
  if bus.uart.txValid then [bus.uart.txData] else []

/-- The bus as it decodes: the documented one, but a fetch from the reserved STM32
window is `NonExecutable`. -/
def busModel : Isa.BusModel Isa.Memory :=
  { Isa.Memory.busModel with
    fetch := fun m a =>
      if Isa.Aligned a ∧ Isa.region a = .stm32 then .error .nonExecutable else m.fetch a }

/-- Answer a request out of a bus model. -/
def answer {B : Type*} (M : Isa.BusModel B) (request : Request) (b : B) : Response × B :=
  match request.access with
  | .fetch =>
      match M.fetch b request.addr with
      | .ok data => (⟨data, none⟩, b)
      | .error fault => (⟨0, some fault⟩, b)
  | .read =>
      match M.load b request.addr with
      | .ok data => (⟨data, none⟩, b)
      | .error fault => (⟨0, some fault⟩, b)
  | .write =>
      match M.store b request.addr request.wdata with
      | .ok b' => (⟨0, none⟩, b')
      | .error fault => (⟨0, some fault⟩, b)

section Answer

variable {B : Type*} {M : Isa.BusModel B} {b b' : B} {addr wdata data : Word} {fault : BusFault}

theorem answer_fetch (h : M.fetch b addr = .ok data) :
    answer M ⟨.fetch, addr, wdata⟩ b = (⟨data, none⟩, b) := by
  simp only [answer, h]

theorem answer_fetch_error (h : M.fetch b addr = .error fault) :
    answer M ⟨.fetch, addr, wdata⟩ b = (⟨0, some fault⟩, b) := by
  simp only [answer, h]

theorem answer_read (h : M.load b addr = .ok data) :
    answer M ⟨.read, addr, wdata⟩ b = (⟨data, none⟩, b) := by
  simp only [answer, h]

theorem answer_read_error (h : M.load b addr = .error fault) :
    answer M ⟨.read, addr, wdata⟩ b = (⟨0, some fault⟩, b) := by
  simp only [answer, h]

theorem answer_write (h : M.store b addr wdata = .ok b') :
    answer M ⟨.write, addr, wdata⟩ b = (⟨0, none⟩, b') := by
  simp only [answer, h]

theorem answer_write_error (h : M.store b addr wdata = .error fault) :
    answer M ⟨.write, addr, wdata⟩ b = (⟨0, some fault⟩, b) := by
  simp only [answer, h]

end Answer

/-- The captured request. -/
def pendingRequest (bus : SystemBus) : Request :=
  ⟨bus.pendingAccess, bus.pendingAddr, bus.pendingWdata⟩

/-! ## Address ranges are regions -/

section Ranges

variable {addr : Word}

theorem rom_range : addr ≤ ROM_LAST ↔ Isa.region addr = .rom := Isa.region_eq_rom.symm

theorem ram_range : (addr ≥ RAM_BASE ∧ addr ≤ RAM_LAST) ↔ Isa.region addr = .ram :=
  Isa.region_eq_ram.symm

theorem uart_range : (addr ≥ UART_BASE ∧ addr ≤ UART_LAST) ↔ Isa.region addr = .uart :=
  Isa.region_eq_uart.symm

theorem timer_range : (addr ≥ TIMER_BASE ∧ addr ≤ TIMER_LAST) ↔ Isa.region addr = .timer :=
  Isa.region_eq_timer.symm

theorem gpio_range : (addr ≥ GPIO_BASE ∧ addr ≤ GPIO_LAST) ↔ Isa.region addr = .gpio :=
  Isa.region_eq_gpio.symm

theorem debug_range : (addr ≥ DEBUG_BASE ∧ addr ≤ DEBUG_LAST) ↔ Isa.region addr = .debug :=
  Isa.region_eq_debug.symm

theorem reserved_range (bus : SystemBus) :
    bus.pendingInReservedMmio = true ↔ Isa.region bus.pendingAddr = .stm32 := by
  simp only [pendingInReservedMmio, Bool.and_eq_true, decide_eq_true_eq]
  exact Isa.region_eq_stm32.symm

end Ranges

/-- The pending decode by region. -/
theorem pending_eq (bus : SystemBus) :
    bus.pending =
      let fetchFault : Option BusFault :=
        if bus.pendingAccess = .fetch then some .nonExecutable else none
      if ¬ Isa.Aligned bus.pendingAddr then { fault := some .misaligned }
      else match Isa.region bus.pendingAddr with
        | .rom =>
            { rom := true, fault := if bus.pendingAccess = .write then some .readOnly else none }
        | .ram => { ram := true, fault := fetchFault }
        | .uart => { uart := true, fault := fetchFault }
        | .timer => { timer := true, fault := fetchFault }
        | .gpio => { gpio := true, fault := fetchFault }
        | .debug => { debug := true, fault := fetchFault }
        | .stm32 =>
            { fault := if bus.pendingAccess = .fetch then some .nonExecutable else some .unmapped }
        | .unmapped => { fault := some .unmapped } := by
  simp only [pending, rom_range, ram_range, uart_range, timer_range, gpio_range, debug_range,
    reserved_range, Isa.Aligned]
  by_cases hal : bus.pendingAddr.extractLsb' 0 2 = 0#2
  · cases hreg : Isa.region bus.pendingAddr <;> simp [hal]
    split <;> rfl
  · simp [hal]

/-- The decode depends on the captured request alone. -/
theorem pending_congr {bus bus' : SystemBus} (h : bus'.pendingRequest = bus.pendingRequest) :
    bus'.pending = bus.pending := by
  cases bus
  cases bus'
  simp only [pendingRequest, Request.mk.injEq] at h
  obtain ⟨rfl, rfl, rfl⟩ := h
  rfl

/-! ## What an edge does to the memory -/

section Blocks

variable (bus : SystemBus) (tick valid : Bool) (pins : Word) (request : Request)

@[simp] theorem clock_rom : (bus.clock false tick pins valid request).rom =
    bus.rom.clock bus.romReadEnable (bus.pendingAddr.extractLsb' 2 14) := by
  cases h : bus.state <;> cases valid <;> simp [clock, h]

@[simp] theorem clock_ram : (bus.clock false tick pins valid request).ram =
    bus.ram.clock bus.ramReadEnable bus.ramWriteEnable (bus.pendingAddr.extractLsb' 2 14)
      bus.pendingWdata := by
  cases h : bus.state <;> cases valid <;> simp [clock, h]

@[simp] theorem clock_uart : (bus.clock false tick pins valid request).uart =
    bus.uart.clock false bus.uartReadEnable bus.uartWriteEnable (bus.pendingAddr.extractLsb' 0 4)
      bus.pendingWdata := by
  cases h : bus.state <;> cases valid <;> simp [clock, h]

@[simp] theorem clock_timer : (bus.clock false tick pins valid request).timer =
    bus.timer.clock false tick bus.timerReadEnable bus.timerWriteEnable
      (bus.pendingAddr.extractLsb' 0 4) bus.pendingWdata := by
  cases h : bus.state <;> cases valid <;> simp [clock, h]

@[simp] theorem clock_gpio : (bus.clock false tick pins valid request).gpio =
    bus.gpio.clock false bus.gpioReadEnable bus.gpioWriteEnable (bus.pendingAddr.extractLsb' 0 4)
      bus.pendingWdata pins := by
  cases h : bus.state <;> cases valid <;> simp [clock, h]

@[simp] theorem clock_debug : (bus.clock false tick pins valid request).debug =
    bus.debug.clock false bus.debugReadEnable bus.debugWriteEnable
      (bus.pendingAddr.extractLsb' 0 4) bus.pendingWdata := by
  cases h : bus.state <;> cases valid <;> simp [clock, h]

/-- The bus controller, apart from the blocks. -/
theorem clock_state : (bus.clock false tick pins valid request).state =
    match bus.state with
    | .idle => if valid then .memory else .idle
    | .memory => .response
    | .response => .idle := by
  cases h : bus.state <;> cases valid <;> simp [clock, h]

theorem clock_pendingRequest : (bus.clock false tick pins valid request).pendingRequest =
    if bus.state = .idle ∧ valid then request else bus.pendingRequest := by
  cases h : bus.state <;> cases valid <;> simp [clock, h, pendingRequest]

end Blocks

section Edges

variable {bus : SystemBus} (transcript : List (BitVec 8)) (gpioInput : Word)

/-- The enables that write. -/
def writing (bus : SystemBus) : Bool := bus.issuing && bus.pendingAccess = .write

/-- **An edge that writes no block** changes the memory by the Timer's tick alone,
and nothing is transmitted. -/
theorem clock_unwritten (bus : SystemBus) (h : bus.writing = false) (tick valid : Bool)
    (request : Request) (pins : Word) :
    (bus.clock false tick pins valid request).memory transcript gpioInput =
        (if tick then (bus.memory transcript gpioInput).retireTick
          else bus.memory transcript gpioInput) ∧
      (bus.clock false tick pins valid request).transmitted = [] := by
  have hw (block : Bool) : (bus.issuing && block && bus.pendingAccess = .write) = false := by
    rw [Bool.and_right_comm, show (bus.issuing && bus.pendingAccess = .write) = false from h,
      Bool.false_and]
  refine ⟨?_, ?_⟩
  · cases tick <;> cases he : bus.timer.timerEnabled <;>
      simp [memory, Isa.Memory.retireTick, ramWriteEnable, timerWriteEnable, gpioWriteEnable,
        debugWriteEnable, hw, Ram.clock, TimerMmio.clock, GpioMmio.clock, DebugMmio.clock, he]
  · simp [transmitted, uartWriteEnable, hw, UartMmio.clock]

/-- The decode rejects what the bus model rejects, with the same fault. -/
theorem answer_of_fault {fault : BusFault} (h : bus.pending.fault = some fault)
    (m : Isa.Memory) : answer busModel bus.pendingRequest m = (⟨0, some fault⟩, m) := by
  rw [pending_eq] at h
  simp only [answer, pendingRequest, busModel, Isa.Memory.busModel, Isa.Memory.fetch,
    Isa.Memory.load, Isa.Memory.store]
  by_cases hal : Isa.Aligned bus.pendingAddr
  · cases hreg : Isa.region bus.pendingAddr <;> cases hacc : bus.pendingAccess <;>
      simp_all
  · cases hacc : bus.pendingAccess <;> simp_all

/-- A read or fetch without fault: the word the bus model reads is on its way to
the response port. -/
theorem clock_read (h : bus.state = .memory) (hfault : bus.pending.fault = none)
    (hread : bus.pendingAccess ≠ .write) (valid : Bool) (request : Request) :
    ((bus.clock false false gpioInput valid request).response,
        bus.memory transcript gpioInput) =
      answer busModel bus.pendingRequest (bus.memory transcript gpioInput) := by
  have hstate : (bus.clock false false gpioInput valid request).state = .response := by
    simp [clock_state, h]
  have hpending : (bus.clock false false gpioInput valid request).pending = bus.pending :=
    pending_congr (by simp [clock_pendingRequest, h])
  have hissue : bus.issuing = true := by simp [issuing, h, hfault]
  have hp := pending_eq bus
  simp only [response, responseRdata, responseFault, hstate, hpending, hfault]
  simp only [answer, pendingRequest, busModel, Isa.Memory.busModel]
  -- each block answers for its own region; a fault is excluded by `hfault`
  by_cases hal : Isa.Aligned bus.pendingAddr
  · cases hreg : Isa.region bus.pendingAddr with
    | rom =>
        simp only [hal, hreg, not_true_eq_false, if_false] at hp
        cases hacc : bus.pendingAccess <;>
          simp_all [Isa.Memory.fetch, Isa.Memory.load, Isa.wordIndex, memory, Rom.clock,
            romReadEnable]
    | ram =>
        simp only [hal, hreg, not_true_eq_false, if_false] at hp
        cases hacc : bus.pendingAccess <;>
          simp_all [Isa.Memory.load, Isa.wordIndex, memory, Ram.clock, ramReadEnable]
    | uart =>
        simp only [hal, hreg, not_true_eq_false, if_false] at hp
        cases hacc : bus.pendingAccess <;>
          simp_all [Isa.Memory.load, Isa.Memory.uartRead, Isa.offset, UartMmio.clock,
            uartReadEnable]
        rfl
    | timer =>
        simp only [hal, hreg, not_true_eq_false, if_false] at hp
        have hoff := Isa.offset_of_aligned hal
        rw [Isa.offset] at hoff
        cases hacc : bus.pendingAccess <;>
          simp_all [Isa.Memory.load, Isa.Memory.timerRead, Isa.offset, memory, TimerMmio.clock,
            timerReadEnable]
        -- the four registers of the timer
        rcases hoff with ho | ho | ho | ho <;> simp [ho] <;> split <;> rfl
    | gpio =>
        simp only [hal, hreg, not_true_eq_false, if_false] at hp
        cases hacc : bus.pendingAccess <;>
          simp_all [Isa.Memory.load, Isa.Memory.gpioRead, Isa.offset, memory, GpioMmio.clock,
            gpioReadEnable]
        rfl
    | debug =>
        simp only [hal, hreg, not_true_eq_false, if_false] at hp
        cases hacc : bus.pendingAccess <;>
          simp_all [Isa.Memory.load, Isa.Memory.debugRead, Isa.offset, memory, DebugMmio.clock,
            debugReadEnable]
        rfl
    | stm32 =>
        simp only [hal, hreg, not_true_eq_false, if_false] at hp
        rw [hp] at hfault
        cases hacc : bus.pendingAccess <;> simp [hacc] at hfault
    | unmapped =>
        simp only [hal, hreg, not_true_eq_false, if_false] at hp
        simp [hp] at hfault
  · simp only [hal, not_false_eq_true, if_true] at hp
    simp [hp] at hfault

/-- A write without fault: its block takes the word as the bus model's store does,
and a UART data byte goes out. -/
theorem clock_write (h : bus.state = .memory) (hfault : bus.pending.fault = none)
    (hwrite : bus.pendingAccess = .write) (valid : Bool) (request : Request) :
    answer busModel bus.pendingRequest (bus.memory transcript gpioInput) =
      (⟨0, none⟩, (bus.clock false false gpioInput valid request).memory
        (transcript ++ (bus.clock false false gpioInput valid request).transmitted)
          gpioInput) := by
  have hissue : bus.issuing = true := by simp [issuing, h, hfault]
  have hp := pending_eq bus
  simp only [answer, pendingRequest, busModel, Isa.Memory.busModel, hwrite]
  by_cases hal : Isa.Aligned bus.pendingAddr
  · simp only [hal, not_true_eq_false, if_false] at hp
    cases hreg : Isa.region bus.pendingAddr <;> simp only [hreg, hwrite] at hp
    case rom | stm32 | unmapped => simp [hp] at hfault
    all_goals
      simp only [Isa.Memory.store, hal, hreg, memory, transmitted, clock_rom, clock_ram,
        clock_uart, clock_timer, clock_gpio, clock_debug, Rom.clock_memory, Ram.clock,
        UartMmio.clock, TimerMmio.clock, GpioMmio.clock, DebugMmio.clock, ramWriteEnable,
        uartWriteEnable, timerWriteEnable, gpioWriteEnable, debugWriteEnable, hissue, hp, hwrite]
    case ram => simp [Isa.wordIndex]
    case uart =>
      by_cases ho : Isa.offset bus.pendingAddr = 0#4 <;>
        simp_all [Isa.Memory.uartWrite, Isa.offset]
    case timer =>
      by_cases h0 : Isa.offset bus.pendingAddr = 0#4
      · simp_all [Isa.Memory.timerWrite, Isa.offset]
      · by_cases h4 : Isa.offset bus.pendingAddr = 4#4
        · simp_all [Isa.Memory.timerWrite, Isa.offset]
        · by_cases h8 : Isa.offset bus.pendingAddr = 8#4 <;>
            simp_all [Isa.Memory.timerWrite, Isa.offset]
    case gpio =>
      by_cases h4 : Isa.offset bus.pendingAddr = 4#4
      · simp_all [Isa.Memory.gpioWrite, Isa.offset]
      · by_cases h8 : Isa.offset bus.pendingAddr = 8#4 <;>
          simp_all [Isa.Memory.gpioWrite, Isa.offset]
    case debug =>
      by_cases ho : Isa.offset bus.pendingAddr = 0#4 <;>
        simp_all [Isa.Memory.debugWrite, Isa.offset]
  · simp only [hal, not_false_eq_true, if_true] at hp
    simp [hp] at hfault

/-- **The issue edge** puts the answer on the response ports and leaves the memory
as the bus model's operation does. -/
theorem clock_memory (h : bus.state = .memory) (valid : Bool) (request : Request) :
    (bus.clock false false gpioInput valid request).response.Agrees bus.pendingAccess
        (answer busModel bus.pendingRequest (bus.memory transcript gpioInput)).1 ∧
      (bus.clock false false gpioInput valid request).memory
          (transcript ++ (bus.clock false false gpioInput valid request).transmitted) gpioInput =
        (answer busModel bus.pendingRequest (bus.memory transcript gpioInput)).2 := by
  have hstate : (bus.clock false false gpioInput valid request).state = .response := by
    simp [clock_state, h]
  have hpending : (bus.clock false false gpioInput valid request).pending = bus.pending :=
    pending_congr (by simp [clock_pendingRequest, h])
  cases hfault : bus.pending.fault with
  | some fault =>
      have hissue : bus.issuing = false := by simp [issuing, hfault]
      obtain ⟨hmem, htx⟩ := clock_unwritten transcript gpioInput bus
        (by simp [writing, hissue]) false valid request gpioInput
      rw [answer_of_fault hfault, htx, List.append_nil, hmem]
      refine ⟨⟨?_, fun _ => ?_⟩, rfl⟩ <;>
        simp [response, responseFault, responseRdata, hstate, hpending, hfault]
  | none =>
      by_cases hwrite : bus.pendingAccess = .write
      · rw [clock_write transcript gpioInput h hfault hwrite valid request]
        refine ⟨⟨?_, fun hne => absurd hwrite hne⟩, rfl⟩
        simp [response, responseFault, hstate, hpending, hfault]
      · obtain ⟨hmem, htx⟩ := clock_unwritten transcript gpioInput bus
          (by simp [writing, hwrite]) false valid request gpioInput
        rw [← clock_read transcript gpioInput h hfault hwrite valid request, htx,
          List.append_nil, hmem]
        exact ⟨⟨rfl, fun _ => rfl⟩, rfl⟩

end Edges

end SystemBus
end Mini32.Rtl
