import Mini32.Lib.ByteStore
import Mini32.Isa.Step

/-!
# The simulator's storage and devices

`Rom`, `Ram`, `Uart`, `Timer`, `Gpio` and `DebugDevice` of the C++ simulator,
each with the operations the bus calls.  A `std::uint32_t` is a `Word`, so its
arithmetic wraps; the byte arrays are functions on offsets.  A read returns the
fault or the data.  A write returns the fault, if there is one, together with
the device it leaves: that a faulting write changes nothing is proved, not built
into the type.

The UART's `tx_callback_` is the one the drivers install, which appends the byte
to a vector; `Uart.txBytes` is that vector.

## What each device checks

Every device checks the whole address itself, although the bus has already found the
window that the address is in.  The checks are kept as they are, in the order of the
source: alignment, the range, and then the offset.  So an access has two places where
it can be refused.  The lemmas of `Simulator.Bus` on the single devices show that the second
one never speaks: what the bus hands on is aligned and in the window, and then a device
refuses nothing.

The ROM and the RAM are bytes, least significant byte first, and a word is put together
from four of them (`Lib.ByteStore`).  The RTL has words.  The two meet in
`Bus.ram_read32_word`, which says that word `i` of the byte array is the four bytes from
`4 * i` on.

## What is left out

`load32` of the ROM and the `reset` functions of the UART, the GPIO block and the debug
register, which nothing modelled calls.  The accessors are the fields.
-/

namespace Mini32.Cpp

open ByteStore

/-- `address & 0x3U` is non-zero. -/
def misaligned (address : Word) : Bool := address &&& 0x3 != 0

/-! ## ROM -/

/-- `RomFault` -/
inductive RomFault
  | misaligned | outOfRange
  deriving DecidableEq, Repr

/-- `Rom`: `bytes_` as a function on offsets; only those below `kSizeBytes` are ever used. -/
structure Rom where
  bytes : ℕ → BitVec 8

namespace Rom

/-- `Rom::kBaseAddress` -/
def kBaseAddress : Word := 0x00000000
/-- `Rom::kSizeBytes` -/
def kSizeBytes : ℕ := 64 * 1024
/-- `Rom::kLastAddress` -/
def kLastAddress : Word := kBaseAddress + BitVec.ofNat 32 (kSizeBytes - 1)

/-- A fresh ROM is all zero. -/
def fresh : Rom := ⟨fun _ => 0⟩

/-- `none` is the `std::out_of_range` exception. -/
def loadBytes (rom : Rom) (address : Word) (image : List (BitVec 8)) : Option Rom :=
  if address > kLastAddress ∨ image.length > kSizeBytes - address.toNat then none
  else
    let offset := (address - kBaseAddress).toNat
    some ⟨fun i => if offset ≤ i then (image[i - offset]?).getD (rom.bytes i) else rom.bytes i⟩

/-- `load_bytes` under a handler: whether it threw, and the ROM that is left.  The check comes
before the copy. -/
def tryLoadBytes (rom : Rom) (address : Word) (image : List (BitVec 8)) : Bool × Rom :=
  match rom.loadBytes address image with
  | some rom' => (false, rom')
  | none => (true, rom)

/-- `Rom::read32` -/
def read32 (rom : Rom) (address : Word) : Except RomFault Word :=
  if misaligned address then .error .misaligned
  else if address > kLastAddress ∨ address > kLastAddress - 3 then .error .outOfRange
  else .ok (readWord rom.bytes (address - kBaseAddress).toNat)

end Rom

/-! ## RAM -/

/-- `RamFault` -/
inductive RamFault
  | misaligned | outOfRange
  deriving DecidableEq, Repr

/-- `Ram`: `bytes_` as a function on offsets; only those below `kSizeBytes` are ever used. -/
structure Ram where
  bytes : ℕ → BitVec 8

namespace Ram

/-- `Ram::kBaseAddress` -/
def kBaseAddress : Word := 0x10000000
/-- `Ram::kSizeBytes` -/
def kSizeBytes : ℕ := 64 * 1024
/-- `Ram::kLastAddress` -/
def kLastAddress : Word := kBaseAddress + BitVec.ofNat 32 (kSizeBytes - 1)

/-- A fresh RAM is all zero. -/
def fresh : Ram := ⟨fun _ => 0⟩

/-- The last of the four bytes is in the RAM too. -/
def validWordAddress (address : Word) : Bool :=
  address ≥ kBaseAddress && address ≤ kLastAddress - 3

/-- `Ram::read32` -/
def read32 (ram : Ram) (address : Word) : Except RamFault Word :=
  if misaligned address then .error .misaligned
  else if !validWordAddress address then .error .outOfRange
  else .ok (readWord ram.bytes (address - kBaseAddress).toNat)

/-- `Ram::write32` -/
def write32 (ram : Ram) (address value : Word) : Option RamFault × Ram :=
  if misaligned address then (some .misaligned, ram)
  else if !validWordAddress address then (some .outOfRange, ram)
  else (none, ⟨writeWord ram.bytes (address - kBaseAddress).toNat value⟩)

/-- `none` is the `std::out_of_range` exception. -/
def debugReadByte (ram : Ram) (address : Word) : Option (BitVec 8) :=
  if address < kBaseAddress ∨ address > kLastAddress then none
  else some (ram.bytes (address - kBaseAddress).toNat)

end Ram

/-! ## Memory-mapped devices -/

/-- `MmioFault`, which the four devices share. -/
inductive MmioFault
  | misaligned | outOfRange
  deriving DecidableEq, Repr

/-- The `validate_address` the four devices share, each with its own window. -/
def validateWindow (base last address : Word) : Option MmioFault :=
  if misaligned address then some .misaligned
  else if address ≥ base ∧ address ≤ last then none
  else some .outOfRange

/-- `Uart`, with the bytes it has sent. -/
structure Uart where
  txBytes : List (BitVec 8)

namespace Uart

/-- `Uart::kBaseAddress` -/
def kBaseAddress : Word := 0x20000000
/-- `Uart::kLastAddress` -/
def kLastAddress : Word := kBaseAddress + 16 - 1

/-- A UART that has sent nothing. -/
def fresh : Uart := ⟨[]⟩

/-- `Uart::validate_address` -/
def validateAddress (address : Word) : Option MmioFault :=
  validateWindow kBaseAddress kLastAddress address

/-- `Uart::read32`; TX_READY is always one, every other register reads as zero. -/
def read32 (_uart : Uart) (address : Word) : Except MmioFault Word :=
  match validateAddress address with
  | some fault => .error fault
  | none =>
      let offset := address - kBaseAddress
      if offset = 0x04 then .ok 1  -- TX_READY
      else if offset = 0x00 ∨ offset = 0x08 ∨ offset = 0x0C then .ok 0
      else .error .outOfRange

/-- `Uart::write32`; a store to TXDATA sends the low byte. -/
def write32 (uart : Uart) (address value : Word) : Option MmioFault × Uart :=
  match validateAddress address with
  | some fault => (some fault, uart)
  | none =>
      let offset := address - kBaseAddress
      if offset = 0x00 then
        (none, ⟨uart.txBytes ++ [(value &&& 0xFF).setWidth 8]⟩)
      else if offset = 0x04 ∨ offset = 0x08 ∨ offset = 0x0C then (none, uart)
      else (some .outOfRange, uart)

end Uart

/-- `Timer` -/
structure Timer where
  counter : Word
  compare : Word
  enabled : Bool

namespace Timer

/-- `Timer::kBaseAddress` -/
def kBaseAddress : Word := 0x20000100
/-- `Timer::kLastAddress` -/
def kLastAddress : Word := kBaseAddress + 16 - 1

/-- The Timer as it is constructed: zero, and not enabled. -/
def fresh : Timer := ⟨0, 0, false⟩

/-- `Timer::validate_address` -/
def validateAddress (address : Word) : Option MmioFault :=
  validateWindow kBaseAddress kLastAddress address

/-- The match bit: the Timer is enabled, and the counter is at the compare value. -/
def isMatch (timer : Timer) : Bool := timer.enabled && timer.counter == timer.compare

/-- `Timer::read32` -/
def read32 (timer : Timer) (address : Word) : Except MmioFault Word :=
  match validateAddress address with
  | some fault => .error fault
  | none =>
      let offset := address - kBaseAddress
      if offset = 0x00 then .ok timer.counter
      else if offset = 0x04 then .ok timer.compare
      else if offset = 0x08 then .ok (if timer.enabled then 1 else 0)
      else if offset = 0x0C then .ok (if timer.isMatch then 1 else 0)
      else .ok 0

/-- `Timer::write32`; STATUS cannot be written. -/
def write32 (timer : Timer) (address value : Word) : Option MmioFault × Timer :=
  match validateAddress address with
  | some fault => (some fault, timer)
  | none =>
      let offset := address - kBaseAddress
      if offset = 0x00 then (none, { timer with counter := value })
      else if offset = 0x04 then (none, { timer with compare := value })
      else if offset = 0x08 then (none, { timer with enabled := value &&& 1 != 0 })
      else (none, timer)

/-- `Timer::retire_tick`: one retired instruction, if the Timer is enabled. -/
def retireTick (timer : Timer) : Timer :=
  if timer.enabled then { timer with counter := timer.counter + 1 } else timer

/-- `Timer::reset` -/
def reset (_timer : Timer) : Timer := ⟨0, 0, false⟩

/-- CONTROL keeps bit 0 of what is stored. -/
theorem control_bit (value : Word) : (value &&& 1 != 0) = value.getLsbD 0 := by
  change (value &&& 1#32 != 0#32) = _
  rw [BitVec.and_one_eq_setWidth_ofBool_getLsbD]
  cases value.getLsbD 0 <;> rfl

end Timer

/-- `Gpio`: the pins that the host drives, and the two registers. -/
structure Gpio where
  input : Word
  output : Word
  direction : Word

namespace Gpio

/-- `Gpio::kBaseAddress` -/
def kBaseAddress : Word := 0x20000200
/-- `Gpio::kLastAddress` -/
def kLastAddress : Word := kBaseAddress + 16 - 1

/-- A freshly constructed GPIO block whose pins the host has set. -/
def fresh (input : Word) : Gpio := ⟨input, 0, 0⟩

/-- `Gpio::validate_address` -/
def validateAddress (address : Word) : Option MmioFault :=
  validateWindow kBaseAddress kLastAddress address

/-- `Gpio::read32`; the pins are read as they are, whatever DIRECTION says. -/
def read32 (gpio : Gpio) (address : Word) : Except MmioFault Word :=
  match validateAddress address with
  | some fault => .error fault
  | none =>
      let offset := address - kBaseAddress
      if offset = 0x00 then .ok gpio.input
      else if offset = 0x04 then .ok gpio.output
      else if offset = 0x08 then .ok gpio.direction
      else .ok 0

/-- `Gpio::write32`; the input register cannot be written. -/
def write32 (gpio : Gpio) (address value : Word) : Option MmioFault × Gpio :=
  match validateAddress address with
  | some fault => (some fault, gpio)
  | none =>
      let offset := address - kBaseAddress
      if offset = 0x04 then (none, { gpio with output := value })
      else if offset = 0x08 then (none, { gpio with direction := value })
      else (none, gpio)

end Gpio

/-- `DebugDevice`: the value last stored. -/
structure DebugDevice where
  value : Word

namespace DebugDevice

/-- `DebugDevice::kBaseAddress` -/
def kBaseAddress : Word := 0x20000300
/-- `DebugDevice::kLastAddress` -/
def kLastAddress : Word := kBaseAddress + 16 - 1

/-- The device as it is constructed. -/
def fresh : DebugDevice := ⟨0⟩

/-- `DebugDevice::validate_address` -/
def validateAddress (address : Word) : Option MmioFault :=
  validateWindow kBaseAddress kLastAddress address

/-- `DebugDevice::read32` -/
def read32 (debug : DebugDevice) (address : Word) : Except MmioFault Word :=
  match validateAddress address with
  | some fault => .error fault
  | none => .ok (if address - kBaseAddress = 0 then debug.value else 0)

/-- `DebugDevice::write32`; only the first word of the window is a register. -/
def write32 (debug : DebugDevice) (address value : Word) : Option MmioFault × DebugDevice :=
  match validateAddress address with
  | some fault => (some fault, debug)
  | none => (none, if address - kBaseAddress = 0 then ⟨value⟩ else debug)

end DebugDevice

end Mini32.Cpp
