import Mini32.Simulator.Devices
import Mini32.Isa.MemoryMap

/-!
# The simulator's bus

`Bus` holds the devices it was constructed with and routes `read32`, `fetch32`
and `write32` to them by address range.  Each of the three checks alignment first, then the
ranges in the order ROM, RAM, UART, Timer, GPIO, Debug; `fetch32` consults the ROM alone and
refuses every other range as not executable.

`memory` reads a bus as the documented `Isa.Memory`: ROM and RAM words are
assembled from their bytes, the device registers are taken over.
`busModel_hom_memory` says that this is a homomorphism: the bus implements the
documented memory map, for every address, access and device state.

The proof goes region by region.  The comparisons of the source with the first and last
address of a range are membership in one of the documented regions, and inside its own
range each device answers without a fault.
-/

namespace Mini32.Cpp

open ByteStore

/-- The devices a `Bus` refers to. -/
structure Bus where
  rom : Rom
  ram : Ram
  uart : Uart
  debug : DebugDevice
  timer : Timer
  gpio : Gpio

namespace Bus

/-- Freshly constructed devices around a ROM, with the GPIO pins set by the host. -/
def fresh (rom : Rom) (gpioInput : Word) : Bus :=
  { rom, ram := .fresh, uart := .fresh, debug := .fresh, timer := .fresh, gpio := .fresh gpioInput }

/-- How a ROM fault is reported: anything but misalignment is `Unmapped`. -/
def romFault : RomFault → BusFault
  | .misaligned => .misaligned
  | .outOfRange => .unmapped

/-- How a RAM fault is reported on a read. -/
def ramFault : RamFault → BusFault
  | .misaligned => .misaligned
  | .outOfRange => .unmapped

/-- `bus_fault` of the anonymous namespace. -/
def busFault : MmioFault → BusFault
  | .misaligned => .misaligned
  | .outOfRange => .unmapped

/-- `Bus::read32` -/
def read32 (bus : Bus) (address : Word) : Except BusFault Word :=
  if misaligned address then .error .misaligned
  else if address ≥ Rom.kBaseAddress ∧ address ≤ Rom.kLastAddress then
    (bus.rom.read32 address).mapError romFault
  else if address ≥ Ram.kBaseAddress ∧ address ≤ Ram.kLastAddress then
    (bus.ram.read32 address).mapError ramFault
  else if address ≥ Uart.kBaseAddress ∧ address ≤ Uart.kLastAddress then
    (bus.uart.read32 address).mapError busFault
  else if address ≥ Timer.kBaseAddress ∧ address ≤ Timer.kLastAddress then
    (bus.timer.read32 address).mapError busFault
  else if address ≥ Gpio.kBaseAddress ∧ address ≤ Gpio.kLastAddress then
    (bus.gpio.read32 address).mapError busFault
  else if address ≥ DebugDevice.kBaseAddress ∧ address ≤ DebugDevice.kLastAddress then
    (bus.debug.read32 address).mapError busFault
  else .error .unmapped

/-- `Bus::fetch32` -/
def fetch32 (bus : Bus) (address : Word) : Except BusFault Word :=
  if misaligned address then .error .misaligned
  else if address ≥ Rom.kBaseAddress ∧ address ≤ Rom.kLastAddress then
    (bus.rom.read32 address).mapError fun _ => .unmapped
  else if address ≥ Ram.kBaseAddress ∧ address ≤ Ram.kLastAddress then
    .error .nonExecutable
  else if (address ≥ Uart.kBaseAddress ∧ address ≤ Uart.kLastAddress) ∨
      (address ≥ Timer.kBaseAddress ∧ address ≤ Timer.kLastAddress) ∨
      (address ≥ Gpio.kBaseAddress ∧ address ≤ Gpio.kLastAddress) ∨
      (address ≥ DebugDevice.kBaseAddress ∧ address ≤ DebugDevice.kLastAddress) then
    .error .nonExecutable
  else .error .unmapped

/-- `Bus::write32`, with the bus after it. A write that the RAM refuses is always `Unmapped`. -/
def write32 (bus : Bus) (address value : Word) : Option BusFault × Bus :=
  if misaligned address then (some .misaligned, bus)
  else if address ≥ Rom.kBaseAddress ∧ address ≤ Rom.kLastAddress then (some .readOnly, bus)
  else if address ≥ Ram.kBaseAddress ∧ address ≤ Ram.kLastAddress then
    let result := bus.ram.write32 address value
    (result.1.map fun _ => .unmapped, { bus with ram := result.2 })
  else if address ≥ Uart.kBaseAddress ∧ address ≤ Uart.kLastAddress then
    let result := bus.uart.write32 address value
    (result.1.map busFault, { bus with uart := result.2 })
  else if address ≥ Timer.kBaseAddress ∧ address ≤ Timer.kLastAddress then
    let result := bus.timer.write32 address value
    (result.1.map busFault, { bus with timer := result.2 })
  else if address ≥ Gpio.kBaseAddress ∧ address ≤ Gpio.kLastAddress then
    let result := bus.gpio.write32 address value
    (result.1.map busFault, { bus with gpio := result.2 })
  else if address ≥ DebugDevice.kBaseAddress ∧ address ≤ DebugDevice.kLastAddress then
    let result := bus.debug.write32 address value
    (result.1.map busFault, { bus with debug := result.2 })
  else (some .unmapped, bus)

/-- `Bus::retire_tick` -/
def retireTick (bus : Bus) : Bus := { bus with timer := bus.timer.retireTick }

/-- The bus as the CPU uses it: what a faulting store leaves is the bus the fault
handler goes on with. -/
def busModel : Isa.BusModel Bus where
  fetch := fetch32
  load := read32
  store bus address value :=
    match bus.write32 address value with
    | (none, bus') => .ok bus'
    | (some fault, _) => .error fault
  retireTick := retireTick

/-- The documented state a bus holds. -/
def memory (bus : Bus) : Isa.Memory where
  rom i := readWord bus.rom.bytes (4 * i.toNat)
  ram i := readWord bus.ram.bytes (4 * i.toNat)
  uartTx := bus.uart.txBytes
  timerCounter := bus.timer.counter
  timerCompare := bus.timer.compare
  timerEnable := bus.timer.enabled
  gpioInput := bus.gpio.input
  gpioOutput := bus.gpio.output
  gpioDirection := bus.gpio.direction
  debugValue := bus.debug.value

/-! ## Address ranges are regions -/

section Ranges

variable {address : Word}

/-- The test of the two lowest bits. -/
@[simp] theorem misaligned_iff : misaligned address = true ↔ ¬ Isa.Aligned address := by
  have h := Bits.and_mask_eq_zero address 2 (by decide)
  simpa [misaligned, Isa.Aligned] using not_congr h

/-- The ROM range is the ROM region, … -/
theorem rom_range : (address ≥ Rom.kBaseAddress ∧ address ≤ Rom.kLastAddress) ↔
    Isa.region address = .rom := by
  rw [Isa.region_eq_rom]
  refine and_iff_right ?_
  simp [Rom.kBaseAddress, BitVec.le_def]

/-- … and likewise RAM, … -/
theorem ram_range : (address ≥ Ram.kBaseAddress ∧ address ≤ Ram.kLastAddress) ↔
    Isa.region address = .ram := Isa.region_eq_ram.symm

/-- … the UART, … -/
theorem uart_range : (address ≥ Uart.kBaseAddress ∧ address ≤ Uart.kLastAddress) ↔
    Isa.region address = .uart := Isa.region_eq_uart.symm

/-- … the Timer, … -/
theorem timer_range : (address ≥ Timer.kBaseAddress ∧ address ≤ Timer.kLastAddress) ↔
    Isa.region address = .timer := Isa.region_eq_timer.symm

/-- … the GPIO block … -/
theorem gpio_range : (address ≥ Gpio.kBaseAddress ∧ address ≤ Gpio.kLastAddress) ↔
    Isa.region address = .gpio := Isa.region_eq_gpio.symm

/-- … and Debug. -/
theorem debug_range : (address ≥ DebugDevice.kBaseAddress ∧ address ≤ DebugDevice.kLastAddress) ↔
    Isa.region address = .debug := Isa.region_eq_debug.symm

end Ranges

/-! ## Each device in its own range -/

section Devices

variable {address : Word} (hal : Isa.Aligned address)

include hal

/-- The ROM reads an aligned word of its range. -/
theorem rom_read32 (rom : Rom) (h : Isa.region address = .rom) :
    rom.read32 address = .ok (readWord rom.bytes (4 * (Isa.wordIndex address).toNat)) := by
  have hle := Isa.region_eq_rom.mp h
  have hoff := Isa.toNat_sub_eq_wordIndex Rom.kBaseAddress (by decide)
    (by simp [Rom.kBaseAddress, BitVec.le_def]) hle hal
  rw [Isa.aligned_iff] at hal
  have hend : ¬ (address > Rom.kLastAddress ∨ address > Rom.kLastAddress - 3) := by
    have hlast : Rom.kLastAddress = 0xFFFF#32 := rfl
    rw [hlast]
    bv_omega
  rw [Rom.read32, if_neg (by simp [Isa.aligned_iff, hal]), if_neg hend, hoff]

/-- The RAM's own check passes in its range. -/
theorem ram_validWordAddress (h : Isa.region address = .ram) :
    Ram.validWordAddress address = true := by
  obtain ⟨hlo, hhi⟩ := Isa.region_eq_ram.mp h
  rw [Isa.aligned_iff] at hal
  simp only [Ram.validWordAddress, Bool.and_eq_true, decide_eq_true_eq]
  refine ⟨hlo, ?_⟩
  have hlast : Ram.kLastAddress - 3 = 0x1000FFFC#32 := rfl
  rw [hlast]
  bv_omega

/-- The offset into the RAM's bytes is the word index times four. -/
theorem ram_offset (h : Isa.region address = .ram) :
    (address - Ram.kBaseAddress).toNat = 4 * (Isa.wordIndex address).toNat := by
  obtain ⟨hlo, hhi⟩ := Isa.region_eq_ram.mp h
  exact Isa.toNat_sub_eq_wordIndex Ram.kBaseAddress (by decide) hlo hhi hal

/-- The RAM reads an aligned word of its range … -/
theorem ram_read32 (ram : Ram) (h : Isa.region address = .ram) :
    ram.read32 address = .ok (readWord ram.bytes (4 * (Isa.wordIndex address).toNat)) := by
  simp [Ram.read32, hal, ram_validWordAddress hal h, ram_offset hal h]

/-- … and writes one. -/
theorem ram_write32 (ram : Ram) (value : Word) (h : Isa.region address = .ram) :
    ram.write32 address value =
      (none, ⟨writeWord ram.bytes (4 * (Isa.wordIndex address).toNat) value⟩) := by
  simp [Ram.write32, hal, ram_validWordAddress hal h, ram_offset hal h]

omit hal in
/-- Word `i` of the ROM. -/
theorem rom_read32_word (rom : Rom) (i : BitVec 14) :
    rom.read32 (Isa.wordAddress Rom.kBaseAddress i) = .ok (readWord rom.bytes (4 * i.toNat)) := by
  have hbase : Rom.kBaseAddress.toNat % 2 ^ 16 = 0 := by decide
  rw [rom_read32 (Isa.aligned_wordAddress hbase i) rom (Isa.region_romWord i),
    Isa.wordIndex_wordAddress hbase]

omit hal in
/-- Word `i` of the RAM. -/
theorem ram_read32_word (ram : Ram) (i : BitVec 14) :
    ram.read32 (Isa.wordAddress Ram.kBaseAddress i) = .ok (readWord ram.bytes (4 * i.toNat)) := by
  have hbase : Ram.kBaseAddress.toNat % 2 ^ 16 = 0 := by decide
  rw [ram_read32 (Isa.aligned_wordAddress hbase i) ram (Isa.region_ramWord i),
    Isa.wordIndex_wordAddress hbase]

/-- An aligned address inside a device window passes `validate_address`. -/
theorem validateWindow_none {base last : Word} (h : address ≥ base ∧ address ≤ last) :
    validateWindow base last address = none := by
  simp [validateWindow, hal, h.1, h.2]

/-- What the UART reads, … -/
theorem uart_read32 (uart : Uart) (h : Isa.region address = .uart) :
    uart.read32 address = .ok (Isa.Memory.uartRead (Isa.offset address)) := by
  have hsub := Isa.sub_eq_offset Uart.kBaseAddress (by decide)
    (uart_range.mpr h).1 (uart_range.mpr h).2
  rw [Uart.read32, Uart.validateAddress, validateWindow_none hal (uart_range.mpr h), hsub]
  rcases Isa.offset_of_aligned hal with ho | ho | ho | ho <;> rw [ho] <;> rfl

/-- … the Timer, … -/
theorem timer_read32 (bus : Bus) (h : Isa.region address = .timer) :
    bus.timer.read32 address = .ok (bus.memory.timerRead (Isa.offset address)) := by
  have hsub := Isa.sub_eq_offset Timer.kBaseAddress (by decide)
    (timer_range.mpr h).1 (timer_range.mpr h).2
  rw [Timer.read32, Timer.validateAddress, validateWindow_none hal (timer_range.mpr h), hsub]
  rcases Isa.offset_of_aligned hal with ho | ho | ho | ho <;> rw [ho] <;> rfl

/-- … the GPIO block … -/
theorem gpio_read32 (bus : Bus) (h : Isa.region address = .gpio) :
    bus.gpio.read32 address = .ok (bus.memory.gpioRead (Isa.offset address)) := by
  have hsub := Isa.sub_eq_offset Gpio.kBaseAddress (by decide)
    (gpio_range.mpr h).1 (gpio_range.mpr h).2
  rw [Gpio.read32, Gpio.validateAddress, validateWindow_none hal (gpio_range.mpr h), hsub]
  rcases Isa.offset_of_aligned hal with ho | ho | ho | ho <;> rw [ho] <;> rfl

/-- … and Debug. -/
theorem debug_read32 (bus : Bus) (h : Isa.region address = .debug) :
    bus.debug.read32 address = .ok (bus.memory.debugRead (Isa.offset address)) := by
  have hsub := Isa.sub_eq_offset DebugDevice.kBaseAddress (by decide)
    (debug_range.mpr h).1 (debug_range.mpr h).2
  rw [DebugDevice.read32, DebugDevice.validateAddress,
    validateWindow_none hal (debug_range.mpr h), hsub]
  rcases Isa.offset_of_aligned hal with ho | ho | ho | ho <;> rw [ho] <;> rfl

/-- What a write does to the UART, … -/
theorem uart_write32 (bus : Bus) (value : Word) (h : Isa.region address = .uart) :
    (bus.uart.write32 address value).1 = none ∧
      memory { bus with uart := (bus.uart.write32 address value).2 } =
        bus.memory.uartWrite (Isa.offset address) value := by
  have hsub := Isa.sub_eq_offset Uart.kBaseAddress (by decide)
    (uart_range.mpr h).1 (uart_range.mpr h).2
  have hlow : (value &&& 0xFF).setWidth 8 = value.extractLsb' 0 8 := by
    change (value &&& BitVec.ofNat 32 (2 ^ 8 - 1)).setWidth 8 = _
    rw [Bits.and_mask value 8 (by decide)]
    simp
  rw [Uart.write32, Uart.validateAddress, validateWindow_none hal (uart_range.mpr h), hsub, hlow]
  rcases Isa.offset_of_aligned hal with ho | ho | ho | ho <;> rw [ho] <;> exact ⟨rfl, rfl⟩

/-- … the Timer, … -/
theorem timer_write32 (bus : Bus) (value : Word) (h : Isa.region address = .timer) :
    (bus.timer.write32 address value).1 = none ∧
      memory { bus with timer := (bus.timer.write32 address value).2 } =
        bus.memory.timerWrite (Isa.offset address) value := by
  have hsub := Isa.sub_eq_offset Timer.kBaseAddress (by decide)
    (timer_range.mpr h).1 (timer_range.mpr h).2
  rw [Timer.write32, Timer.validateAddress, validateWindow_none hal (timer_range.mpr h), hsub,
    Timer.control_bit]
  rcases Isa.offset_of_aligned hal with ho | ho | ho | ho <;> rw [ho] <;> exact ⟨rfl, rfl⟩

/-- … the GPIO block … -/
theorem gpio_write32 (bus : Bus) (value : Word) (h : Isa.region address = .gpio) :
    (bus.gpio.write32 address value).1 = none ∧
      memory { bus with gpio := (bus.gpio.write32 address value).2 } =
        bus.memory.gpioWrite (Isa.offset address) value := by
  have hsub := Isa.sub_eq_offset Gpio.kBaseAddress (by decide)
    (gpio_range.mpr h).1 (gpio_range.mpr h).2
  rw [Gpio.write32, Gpio.validateAddress, validateWindow_none hal (gpio_range.mpr h), hsub]
  rcases Isa.offset_of_aligned hal with ho | ho | ho | ho <;> rw [ho] <;> exact ⟨rfl, rfl⟩

/-- … and Debug. -/
theorem debug_write32 (bus : Bus) (value : Word) (h : Isa.region address = .debug) :
    (bus.debug.write32 address value).1 = none ∧
      memory { bus with debug := (bus.debug.write32 address value).2 } =
        bus.memory.debugWrite (Isa.offset address) value := by
  have hsub := Isa.sub_eq_offset DebugDevice.kBaseAddress (by decide)
    (debug_range.mpr h).1 (debug_range.mpr h).2
  rw [DebugDevice.write32, DebugDevice.validateAddress,
    validateWindow_none hal (debug_range.mpr h), hsub]
  rcases Isa.offset_of_aligned hal with ho | ho | ho | ho <;> rw [ho] <;> exact ⟨rfl, rfl⟩

end Devices

/-! ## The bus implements the memory map -/

/-- A fetch is a fetch from the documented memory. -/
theorem fetch32_memory (bus : Bus) (address : Word) :
    bus.memory.fetch address = bus.fetch32 address := by
  unfold Isa.Memory.fetch fetch32
  by_cases hal : Isa.Aligned address
  · simp only [misaligned_iff, hal, not_true_eq_false, if_false, rom_range, ram_range, uart_range,
      timer_range, gpio_range, debug_range]
    cases hreg : Isa.region address with
    | rom => simp [rom_read32 hal bus.rom hreg, Except.mapError, memory]
    | _ => simp
  · simp [hal]

/-- A read is a read of the documented memory. -/
theorem read32_memory (bus : Bus) (address : Word) :
    bus.memory.load address = bus.read32 address := by
  unfold Isa.Memory.load read32
  by_cases hal : Isa.Aligned address
  · simp only [misaligned_iff, hal, not_true_eq_false, if_false, rom_range, ram_range, uart_range,
      timer_range, gpio_range, debug_range]
    cases hreg : Isa.region address with
    | rom => simp [rom_read32 hal bus.rom hreg, Except.mapError, memory]
    | ram => simp [ram_read32 hal bus.ram hreg, Except.mapError, memory]
    | uart => simp [uart_read32 hal bus.uart hreg, Except.mapError]
    | timer => simp [timer_read32 hal bus hreg, Except.mapError]
    | gpio => simp [gpio_read32 hal bus hreg, Except.mapError]
    | debug => simp [debug_read32 hal bus hreg, Except.mapError]
    | _ => simp
  · simp [hal]

/-- **A write either faults and changes nothing, or does what the map says.** -/
theorem write32_memory (bus : Bus) (address value : Word) :
    (∃ fault, bus.write32 address value = (some fault, bus) ∧
      bus.memory.store address value = .error fault) ∨
    (∃ bus', bus.write32 address value = (none, bus') ∧
      bus.memory.store address value = .ok bus'.memory) := by
  unfold Isa.Memory.store write32
  by_cases hal : Isa.Aligned address
  · simp only [misaligned_iff, hal, not_true_eq_false, if_false, rom_range, ram_range, uart_range,
      timer_range, gpio_range, debug_range]
    cases hreg : Isa.region address with
    | rom => exact Or.inl ⟨_, rfl, rfl⟩
    | ram =>
        refine Or.inr ⟨{ bus with ram := (bus.ram.write32 address value).2 },
          by simp [ram_write32 hal bus.ram value hreg], ?_⟩
        rw [ram_write32 hal bus.ram value hreg]
        simp only [memory, Except.ok.injEq, Isa.Memory.mk.injEq, true_and, and_true]
        funext i
        by_cases hi : i = Isa.wordIndex address
        · subst hi
          simp
        · have hne : i.toNat ≠ (Isa.wordIndex address).toNat := fun h =>
            hi (BitVec.eq_of_toNat_eq h)
          rw [Function.update_of_ne hi, readWord_writeWord_of_disjoint (by omega)]
    | uart =>
        obtain ⟨hfault, hmem⟩ := uart_write32 hal bus value hreg
        exact Or.inr ⟨{ bus with uart := (bus.uart.write32 address value).2 },
          by simp [hfault], by rw [hmem]⟩
    | timer =>
        obtain ⟨hfault, hmem⟩ := timer_write32 hal bus value hreg
        exact Or.inr ⟨{ bus with timer := (bus.timer.write32 address value).2 },
          by simp [hfault], by rw [hmem]⟩
    | gpio =>
        obtain ⟨hfault, hmem⟩ := gpio_write32 hal bus value hreg
        exact Or.inr ⟨{ bus with gpio := (bus.gpio.write32 address value).2 },
          by simp [hfault], by rw [hmem]⟩
    | debug =>
        obtain ⟨hfault, hmem⟩ := debug_write32 hal bus value hreg
        exact Or.inr ⟨{ bus with debug := (bus.debug.write32 address value).2 },
          by simp [hfault], by rw [hmem]⟩
    | stm32 => exact Or.inl ⟨.unmapped, by simp, by simp⟩
    | unmapped => exact Or.inl ⟨.unmapped, by simp, by simp⟩
  · exact Or.inl ⟨.misaligned, by simp [hal], by simp [hal]⟩

/-- **The simulator's bus implements the documented memory map**, for every
address, every access and every device state. -/
theorem busModel_hom_memory : busModel.Hom Isa.Memory.busModel memory where
  fetch := fetch32_memory
  load := read32_memory
  store bus address value := by
    change bus.memory.store address value = _
    obtain ⟨f, hw, hm⟩ | ⟨b, hw, hm⟩ := write32_memory bus address value
    · rw [hm]
      simp [busModel, hw, Except.map]
    · rw [hm]
      simp [busModel, hw, Except.map]
  retireTick bus := by
    change bus.memory.retireTick = bus.retireTick.memory
    by_cases h : bus.timer.enabled <;>
      simp [Isa.Memory.retireTick, retireTick, Timer.retireTick, memory, h]

end Bus
end Mini32.Cpp
