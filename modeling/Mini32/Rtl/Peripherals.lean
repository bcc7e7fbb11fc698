import Mini32.Isa.MemoryMap

/-!
# Memories and MMIO blocks of the RTL

`rom`, `ram`, `uart_mmio`, `timer_mmio`, `gpio_mmio` and `debug_mmio`, each as the
registers it holds and its rising edge.  Reads are registered: `readData` changes
only on an edge with `readEnable`.  When a read and a write meet, both see the
state before the edge.

## How an edge is written down

An `always_ff` is a function from the state before the edge and the input ports to the
state after it.  Non-blocking assignments read the old state, so every right-hand side
is an expression in the argument; a register that no assignment reaches keeps its value.
In one edge the counter of the Timer can be stored to and tick; the source has a case for
that, and so has the function.

The memories are functions on word addresses.  The enables and addresses come from the
bus, which decodes them (`Rtl.SystemBus`): the blocks see an enable, an offset and data,
and know nothing of the address map.  A block has a reset, a memory has none; that is why
a reset leaves the RAM, and `Lockstep.Resets` is about what it finds there.

The parameters and `$readmemh` of the ROM are not here: the contents of a memory at
power-up are part of the state a run starts from, and `Toolchain.RomImage` says which
state that is for a given file.
-/

namespace Mini32.Rtl

/-! ## Memories -/

/-- `rom`: 16384 words and the registered output. -/
structure Rom where
  memory : BitVec 14 → Word
  readData : Word

/-- An edge of `rom`. -/
def Rom.clock (readEnable : Bool) (wordAddress : BitVec 14) (rom : Rom) : Rom :=
  if readEnable then { rom with readData := rom.memory wordAddress } else rom

/-- `ram`: 16384 words and the registered output. -/
structure Ram where
  memory : BitVec 14 → Word
  readData : Word

/-- `ram` has no reset. -/
def Ram.clock (readEnable writeEnable : Bool) (wordAddress : BitVec 14) (writeData : Word)
    (ram : Ram) : Ram where
  memory := if writeEnable then Function.update ram.memory wordAddress writeData else ram.memory
  readData := if readEnable then ram.memory wordAddress else ram.readData

/-! ## MMIO blocks -/

/-- `uart_mmio`: the registered output, and the byte it hands on with its strobe. -/
structure UartMmio where
  readData : Word
  txValid : Bool
  txData : BitVec 8

/-- An edge of `uart_mmio`. The strobe is up for one cycle after a store to TXDATA. -/
def UartMmio.clock (reset readEnable writeEnable : Bool) (registerOffset : BitVec 4)
    (writeData : Word) (uart : UartMmio) : UartMmio :=
  if reset then ⟨0, false, 0⟩
  else
    { readData :=
        if readEnable then (if registerOffset = 0x4 then 1 else 0) else uart.readData
      txValid := writeEnable && registerOffset = 0x0
      txData :=
        if writeEnable && registerOffset = 0x0 then writeData.extractLsb' 0 8 else uart.txData }

/-- `timer_mmio`: the registered output and the three registers. -/
structure TimerMmio where
  readData : Word
  timerCounter : Word
  timerCompare : Word
  timerEnabled : Bool

namespace TimerMmio

/-- `{31'h0, bit}`. -/
def bit (b : Bool) : Word := (0#31 ++ BitVec.ofBool b : BitVec (31 + 1))

/-- The output port `timer_control`. -/
def timerControl (timer : TimerMmio) : Word := bit timer.timerEnabled

/-- An edge of `timer_mmio`. A store to COUNTER or CONTROL that meets a retirement takes part in
the tick: the counter ticks from the stored value, or with the stored enable bit. -/
def clock (reset retireTick readEnable writeEnable : Bool) (registerOffset : BitVec 4)
    (writeData : Word) (timer : TimerMmio) : TimerMmio :=
  if reset then ⟨0, 0, 0, false⟩
  else
    let readData :=
      if readEnable then
        if registerOffset = 0x0 then timer.timerCounter
        else if registerOffset = 0x4 then timer.timerCompare
        else if registerOffset = 0x8 then bit timer.timerEnabled
        else if registerOffset = 0xC then
          bit (timer.timerEnabled && timer.timerCounter == timer.timerCompare)
        else 0
      else timer.readData
    let ticked :=
      if retireTick && timer.timerEnabled then timer.timerCounter + 1 else timer.timerCounter
    if writeEnable then
      if registerOffset = 0x0 then
        { timer with
          readData
          timerCounter := writeData + (if retireTick && timer.timerEnabled then 1 else 0) }
      else if registerOffset = 0x4 then
        { timer with readData, timerCompare := writeData, timerCounter := ticked }
      else if registerOffset = 0x8 then
        -- the tick of this edge already sees the new enable bit
        { timer with
          readData
          timerEnabled := writeData.getLsbD 0
          timerCounter :=
            if retireTick && writeData.getLsbD 0 then timer.timerCounter + 1
            else timer.timerCounter }
      else { timer with readData, timerCounter := ticked }
    else { timer with readData, timerCounter := ticked }

end TimerMmio

/-- `gpio_mmio`: the registered output and the two registers. -/
structure GpioMmio where
  readData : Word
  gpioOutput : Word
  gpioDirection : Word

/-- An edge of `gpio_mmio`; the pins are read as they are, without a synchroniser. -/
def GpioMmio.clock (reset readEnable writeEnable : Bool) (registerOffset : BitVec 4)
    (writeData gpioInput : Word) (gpio : GpioMmio) : GpioMmio :=
  if reset then ⟨0, 0, 0⟩
  else
    { readData :=
        if readEnable then
          if registerOffset = 0x0 then gpioInput
          else if registerOffset = 0x4 then gpio.gpioOutput
          else if registerOffset = 0x8 then gpio.gpioDirection
          else 0
        else gpio.readData
      gpioOutput := if writeEnable && registerOffset = 0x4 then writeData else gpio.gpioOutput
      gpioDirection :=
        if writeEnable && registerOffset = 0x8 then writeData else gpio.gpioDirection }

/-- `debug_mmio`: the registered output and the register. -/
structure DebugMmio where
  readData : Word
  debugValue : Word

/-- An edge of `debug_mmio`. -/
def DebugMmio.clock (reset readEnable writeEnable : Bool) (registerOffset : BitVec 4)
    (writeData : Word) (debug : DebugMmio) : DebugMmio :=
  if reset then ⟨0, 0⟩
  else
    { readData :=
        if readEnable then (if registerOffset = 0x0 then debug.debugValue else 0)
        else debug.readData
      debugValue := if writeEnable && registerOffset = 0x0 then writeData else debug.debugValue }

/-! ## What an edge does when a block is not written -/

section Quiet

/-- Nothing writes a ROM. -/
@[simp] theorem Rom.clock_memory (readEnable : Bool) (wordAddress : BitVec 14) (rom : Rom) :
    (rom.clock readEnable wordAddress).memory = rom.memory := by
  unfold Rom.clock
  split <;> rfl

/-- The word of a bit. -/
@[simp] theorem TimerMmio.bit_eq (b : Bool) : TimerMmio.bit b = if b then 1 else 0 := by
  cases b <;> rfl

end Quiet

end Mini32.Rtl
