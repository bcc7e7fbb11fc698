import Mini32.Isa.Step

/-!
# The documented memory map

The address space as the memory-map table describes it: which region owns an
address, what each region allows, and what the device registers do.  `Memory` is
the state behind the map and `Memory.busModel` its operations.  Both
implementations of the bus are compared with this one.

Alignment is checked before the region is.  The STM32 window is a region of the
table, listed as reserved and unmapped, so it has a name here and no storage.

## Why there is a third bus

The simulator's bus holds bytes and six device objects, the bus of the RTL registers,
enables and a state machine.  `Memory` has what both are about: a word for each of the
16384 words of ROM and RAM, the device registers, and the bytes the UART has sent.  Each
implementation has a map to it (`Cpp.Bus.memory`, `Rtl.SystemBus.memory`) and a theorem
that its accesses commute with the map, so a property of `Memory` is one of both, and the
comparison of the two is a comparison with a common third.

The pins of the GPIO block are part of the state because a load can read them; nothing
here changes them.

## Addresses

An address in a region is a base and an index.  For the memories the index is `wordIndex`,
bits 15 to 2, and for the devices `offset`, the four low bits; the lemmas on both say that
subtracting the base, as the simulator does, and slicing, as the RTL does, come to the
same, because every base is aligned to the size of its region.  `wordAddress` goes the
other way.
-/

namespace Mini32.Isa

/-- The rows of the memory-map table. -/
inductive Region
  | rom | ram | uart | timer | gpio | debug | stm32 | unmapped
  deriving DecidableEq, Repr

/-- The owner of an address. -/
def region (a : Word) : Region :=
  if a ≤ 0x0000FFFF then .rom
  else if 0x10000000 ≤ a ∧ a ≤ 0x1000FFFF then .ram
  else if 0x20000000 ≤ a ∧ a ≤ 0x2000000F then .uart
  else if 0x20000100 ≤ a ∧ a ≤ 0x2000010F then .timer
  else if 0x20000200 ≤ a ∧ a ≤ 0x2000020F then .gpio
  else if 0x20000300 ≤ a ∧ a ≤ 0x2000030F then .debug
  else if 0x20000400 ≤ a ∧ a ≤ 0x200004FF then .stm32
  else .unmapped

section Region

variable {a : Word}

/-- The region of an address, as the comparison with its bounds: the ROM, … -/
theorem region_eq_rom : region a = .rom ↔ a ≤ 0x0000FFFF := by
  unfold region; grind

/-- … the RAM, … -/
theorem region_eq_ram : region a = .ram ↔ 0x10000000 ≤ a ∧ a ≤ 0x1000FFFF := by
  unfold region; grind

/-- … the four devices, … -/
theorem region_eq_uart : region a = .uart ↔ 0x20000000 ≤ a ∧ a ≤ 0x2000000F := by
  unfold region; grind

theorem region_eq_timer : region a = .timer ↔ 0x20000100 ≤ a ∧ a ≤ 0x2000010F := by
  unfold region; grind

theorem region_eq_gpio : region a = .gpio ↔ 0x20000200 ≤ a ∧ a ≤ 0x2000020F := by
  unfold region; grind

theorem region_eq_debug : region a = .debug ↔ 0x20000300 ≤ a ∧ a ≤ 0x2000030F := by
  unfold region; grind

/-- … and the reserved window. -/
theorem region_eq_stm32 : region a = .stm32 ↔ 0x20000400 ≤ a ∧ a ≤ 0x200004FF := by
  unfold region; grind

end Region

/-- Word-aligned addresses. -/
def Aligned (a : Word) : Prop := a.extractLsb' 0 2 = 0

instance (a : Word) : Decidable (Aligned a) := inferInstanceAs (Decidable (_ = _))

/-- The word index of an address in ROM or RAM. -/
def wordIndex (a : Word) : BitVec 14 := a.extractLsb' 2 14

/-- The register offset of an address in a 16-byte device window. -/
def offset (a : Word) : BitVec 4 := a.extractLsb' 0 4

/-! ## Addresses as numbers -/

/-- An aligned address is a multiple of four. -/
theorem aligned_iff {a : Word} : Aligned a ↔ a.toNat % 4 = 0 := by
  rw [Aligned, ← BitVec.toNat_inj, BitVec.extractLsb'_toNat]
  simp

/-- In a region that starts at a multiple of its 64 KiB, the word index is the
distance from the base in words. -/
theorem toNat_sub_eq_wordIndex {a : Word} (base : Word) (hbase : base.toNat % 2 ^ 16 = 0)
    (hle : base ≤ a) (hlast : a ≤ base + 0xFFFF) (hal : Aligned a) :
    (a - base).toNat = 4 * (wordIndex a).toNat := by
  rw [aligned_iff] at hal
  rw [BitVec.le_def] at hle
  rw [wordIndex, BitVec.extractLsb'_toNat, Nat.shiftRight_eq_div_pow]
  have hsub : (a - base).toNat = a.toNat - base.toNat := by bv_omega
  have hwidth : a.toNat - base.toNat < 2 ^ 16 := by bv_omega
  omega

/-- In a 16-byte window that starts at a multiple of 16, the register offset is
the distance from the base. -/
theorem sub_eq_offset {a : Word} (base : Word) (hbase : base.toNat % 16 = 0) (hle : base ≤ a)
    (hlast : a ≤ base + 15) : a - base = (offset a).zeroExtend 32 := by
  apply BitVec.eq_of_toNat_eq
  rw [BitVec.le_def] at hle
  rw [offset, BitVec.toNat_setWidth, BitVec.extractLsb'_toNat, Nat.shiftRight_zero]
  have hsub : (a - base).toNat = a.toNat - base.toNat := by bv_omega
  have hwidth : a.toNat - base.toNat < 16 := by bv_omega
  omega

/-- In such a window an offset is one address. -/
theorem offset_eq_iff {a base : Word} (hbase : base.toNat % 16 = 0) (hle : base ≤ a)
    (hlast : a ≤ base + 15) (k : BitVec 4) : offset a = k ↔ a = base + k.zeroExtend 32 := by
  have hsub := sub_eq_offset base hbase hle hlast
  constructor
  · rintro rfl
    rw [← hsub]
    bv_omega
  · intro h
    have : (offset a).zeroExtend 32 = k.zeroExtend 32 := by
      rw [← hsub, h]
      bv_omega
    bv_omega

/-- The offsets of aligned addresses. -/
theorem offset_of_aligned {a : Word} (hal : Aligned a) :
    offset a = 0 ∨ offset a = 4 ∨ offset a = 8 ∨ offset a = 12 := by
  rw [aligned_iff] at hal
  have hoff : (offset a).toNat = a.toNat % 16 := by
    rw [offset, BitVec.extractLsb'_toNat, Nat.shiftRight_zero]
  simp only [← BitVec.toNat_inj, hoff, BitVec.ofNat_eq_ofNat, BitVec.toNat_ofNat]
  omega

/-- The address of word `i` of a memory. -/
def wordAddress (base : Word) (i : BitVec 14) : Word := base + 4 * i.setWidth 32

section WordAddress

variable {base : Word} (hbase : base.toNat % 2 ^ 16 = 0) (i : BitVec 14)

include hbase

/-- The address of a word as a number. -/
theorem toNat_wordAddress : (wordAddress base i).toNat = base.toNat + 4 * i.toNat := by
  have hi := i.isLt
  have hlt := base.isLt
  simp only [wordAddress, BitVec.ofNat_eq_ofNat, BitVec.toNat_add, BitVec.toNat_mul,
    BitVec.toNat_ofNat, BitVec.toNat_setWidth]
  omega

/-- It is aligned, … -/
theorem aligned_wordAddress : Aligned (wordAddress base i) := by
  rw [aligned_iff, toNat_wordAddress hbase]
  omega

/-- … its index is the word, … -/
theorem wordIndex_wordAddress : wordIndex (wordAddress base i) = i := by
  apply BitVec.eq_of_toNat_eq
  have hi := i.isLt
  rw [wordIndex, BitVec.extractLsb'_toNat, toNat_wordAddress hbase, Nat.shiftRight_eq_div_pow]
  omega

end WordAddress

/-- In a 64 KiB region the word of an address begins at its last aligned address. -/
theorem toNat_wordAddress_wordIndex {a base : Word} (hbase : base.toNat % 2 ^ 16 = 0)
    (hle : base ≤ a) (hlast : a ≤ base + 0xFFFF) :
    (wordAddress base (wordIndex a)).toNat = a.toNat - a.toNat % 4 := by
  rw [BitVec.le_def] at hle
  rw [toNat_wordAddress hbase, wordIndex, BitVec.extractLsb'_toNat, Nat.shiftRight_eq_div_pow]
  have hwidth : a.toNat - base.toNat < 2 ^ 16 := by bv_omega
  omega

/-- … and an aligned address is the address of its word. -/
theorem wordAddress_wordIndex {a base : Word} (hbase : base.toNat % 2 ^ 16 = 0)
    (hle : base ≤ a) (hlast : a ≤ base + 0xFFFF) (hal : Aligned a) :
    wordAddress base (wordIndex a) = a := by
  apply BitVec.eq_of_toNat_eq
  rw [toNat_wordAddress_wordIndex hbase hle hlast, aligned_iff.mp hal, Nat.sub_zero]

/-- The words of the ROM are in the ROM, … -/
theorem region_romWord (i : BitVec 14) : region (wordAddress 0x00000000 i) = .rom := by
  have hi := i.isLt
  rw [region_eq_rom, BitVec.le_def, toNat_wordAddress (by decide)]
  simp only [BitVec.ofNat_eq_ofNat, BitVec.toNat_ofNat]
  omega

/-- … and those of the RAM in the RAM. -/
theorem region_ramWord (i : BitVec 14) : region (wordAddress 0x10000000 i) = .ram := by
  have hi := i.isLt
  rw [region_eq_ram, BitVec.le_def, BitVec.le_def, toNat_wordAddress (by decide)]
  simp only [BitVec.ofNat_eq_ofNat, BitVec.toNat_ofNat]
  omega

/-- The state behind the map. -/
structure Memory where
  rom : BitVec 14 → Word
  ram : BitVec 14 → Word
  uartTx : List (BitVec 8)
  timerCounter : Word
  timerCompare : Word
  timerEnable : Bool
  gpioInput : Word
  gpioOutput : Word
  gpioDirection : Word
  debugValue : Word

namespace Memory

/-! ## Device registers -/

/-- TX_READY is always set; the other registers read as zero. -/
def uartRead (r : BitVec 4) : Word := if r = 4 then 1 else 0

/-- COUNTER, COMPARE, CONTROL and STATUS; the match bit is that of the present counter. -/
def timerRead (m : Memory) (r : BitVec 4) : Word :=
  if r = 0 then m.timerCounter
  else if r = 4 then m.timerCompare
  else if r = 8 then (if m.timerEnable then 1 else 0)
  else (if m.timerEnable && m.timerCounter == m.timerCompare then 1 else 0)

/-- The pins, OUTPUT and DIRECTION. -/
def gpioRead (m : Memory) (r : BitVec 4) : Word :=
  if r = 0 then m.gpioInput
  else if r = 4 then m.gpioOutput
  else if r = 8 then m.gpioDirection
  else 0

/-- The first word of the window is the register. -/
def debugRead (m : Memory) (r : BitVec 4) : Word := if r = 0 then m.debugValue else 0

/-- A store to DATA sends the low byte. -/
def uartWrite (m : Memory) (r : BitVec 4) (v : Word) : Memory :=
  if r = 0 then { m with uartTx := m.uartTx ++ [v.extractLsb' 0 8] } else m

/-- STATUS cannot be written, and CONTROL keeps one bit. -/
def timerWrite (m : Memory) (r : BitVec 4) (v : Word) : Memory :=
  if r = 0 then { m with timerCounter := v }
  else if r = 4 then { m with timerCompare := v }
  else if r = 8 then { m with timerEnable := v.getLsbD 0 }
  else m

/-- The pins cannot be written. -/
def gpioWrite (m : Memory) (r : BitVec 4) (v : Word) : Memory :=
  if r = 4 then { m with gpioOutput := v }
  else if r = 8 then { m with gpioDirection := v }
  else m

/-- Only the register can be written. -/
def debugWrite (m : Memory) (r : BitVec 4) (v : Word) : Memory :=
  if r = 0 then { m with debugValue := v } else m

/-! ## Bus operations -/

/-- Only ROM is executable. -/
def fetch (m : Memory) (a : Word) : Except BusFault Word :=
  if ¬ Aligned a then .error .misaligned
  else match region a with
    | .rom => .ok (m.rom (wordIndex a))
    | .ram | .uart | .timer | .gpio | .debug => .error .nonExecutable
    | .stm32 | .unmapped => .error .unmapped

/-- A load, from any region that is mapped. -/
def load (m : Memory) (a : Word) : Except BusFault Word :=
  if ¬ Aligned a then .error .misaligned
  else match region a with
    | .rom => .ok (m.rom (wordIndex a))
    | .ram => .ok (m.ram (wordIndex a))
    | .uart => .ok (uartRead (offset a))
    | .timer => .ok (m.timerRead (offset a))
    | .gpio => .ok (m.gpioRead (offset a))
    | .debug => .ok (m.debugRead (offset a))
    | .stm32 | .unmapped => .error .unmapped

/-- A store, to any region that is mapped but for the ROM. -/
def store (m : Memory) (a v : Word) : Except BusFault Memory :=
  if ¬ Aligned a then .error .misaligned
  else match region a with
    | .rom => .error .readOnly
    | .ram => .ok { m with ram := Function.update m.ram (wordIndex a) v }
    | .uart => .ok (m.uartWrite (offset a) v)
    | .timer => .ok (m.timerWrite (offset a) v)
    | .gpio => .ok (m.gpioWrite (offset a) v)
    | .debug => .ok (m.debugWrite (offset a) v)
    | .stm32 | .unmapped => .error .unmapped

/-- A store succeeds exactly at the aligned addresses of the RAM and the devices. -/
theorem store_isOk_iff {m : Memory} {a v : Word} : (∃ m', m.store a v = .ok m') ↔
    Aligned a ∧ (region a = .ram ∨ region a = .uart ∨ region a = .timer ∨ region a = .gpio ∨
      region a = .debug) := by
  unfold store
  by_cases hal : Aligned a
  · rw [if_neg (not_not.mpr hal)]
    cases hreg : region a <;> simp [hal]
  · rw [if_pos hal]
    simp [hal]

/-- What a store leaves in the device registers that only stores change: each is
written at its own address and kept at every other. -/
theorem store_devices {m m' : Memory} {a v : Word} (h : m.store a v = .ok m') :
    m'.uartTx = (if a = 0x20000000 then m.uartTx ++ [v.extractLsb' 0 8] else m.uartTx) ∧
      m'.debugValue = (if a = 0x20000300 then v else m.debugValue) ∧
      m'.gpioOutput = (if a = 0x20000204 then v else m.gpioOutput) ∧
      m'.gpioDirection = (if a = 0x20000208 then v else m.gpioDirection) := by
  have huart : a = 0x20000000 → region a = .uart := by rintro rfl; decide
  have hdebug : a = 0x20000300 → region a = .debug := by rintro rfl; decide
  have houtput : a = 0x20000204 → region a = .gpio := by rintro rfl; decide
  have hdirection : a = 0x20000208 → region a = .gpio := by rintro rfl; decide
  unfold store at h
  split at h
  · cases h
  · cases hreg : region a with
    | uart =>
        obtain ⟨hlo, hhi⟩ := region_eq_uart.mp hreg
        have hoff := offset_eq_iff (by decide) hlo hhi 0
        simp only [hreg] at h
        grind [uartWrite]
    | gpio =>
        obtain ⟨hlo, hhi⟩ := region_eq_gpio.mp hreg
        have hoff := offset_eq_iff (by decide) hlo hhi 4
        have hoff' := offset_eq_iff (by decide) hlo hhi 8
        simp only [hreg] at h
        grind [gpioWrite]
    | debug =>
        obtain ⟨hlo, hhi⟩ := region_eq_debug.mp hreg
        have hoff := offset_eq_iff (by decide) hlo hhi 0
        simp only [hreg] at h
        grind [debugWrite]
    | timer =>
        simp only [hreg] at h
        grind [timerWrite]
    | _ =>
        simp only [hreg] at h
        grind

/-- What a store leaves in the Timer. -/
theorem store_timer {m m' : Memory} {a v : Word} (h : m.store a v = .ok m') :
    m'.timerCounter = (if a = 0x20000100 then v else m.timerCounter) ∧
      m'.timerCompare = (if a = 0x20000104 then v else m.timerCompare) ∧
      m'.timerEnable = (if a = 0x20000108 then v.getLsbD 0 else m.timerEnable) := by
  have hcounter : a = 0x20000100 → region a = .timer := by rintro rfl; decide
  have hcompare : a = 0x20000104 → region a = .timer := by rintro rfl; decide
  have hcontrol : a = 0x20000108 → region a = .timer := by rintro rfl; decide
  unfold store at h
  split at h
  · cases h
  · cases hreg : region a with
    | timer =>
        obtain ⟨hlo, hhi⟩ := region_eq_timer.mp hreg
        have hoff := offset_eq_iff (by decide) hlo hhi 0
        have hoff' := offset_eq_iff (by decide) hlo hhi 4
        have hoff'' := offset_eq_iff (by decide) hlo hhi 8
        simp only [hreg] at h
        grind [timerWrite]
    | uart =>
        simp only [hreg] at h
        grind [uartWrite]
    | gpio =>
        simp only [hreg] at h
        grind [gpioWrite]
    | debug =>
        simp only [hreg] at h
        grind [debugWrite]
    | _ =>
        simp only [hreg] at h
        grind

/-- What a store leaves in the memories, and in the pins. -/
theorem store_memories {m m' : Memory} {a v : Word} (h : m.store a v = .ok m') :
    m'.rom = m.rom ∧ m'.gpioInput = m.gpioInput ∧
      ∀ i, m'.ram i = if a = wordAddress 0x10000000 i then v else m.ram i := by
  have hram (i : BitVec 14) : a = wordAddress 0x10000000 i → region a = .ram := by
    rintro rfl
    exact region_ramWord i
  unfold store at h
  split at h
  · cases h
  · next hal =>
    rw [not_not] at hal
    cases hreg : region a with
    | ram =>
        obtain ⟨hlo, hhi⟩ := region_eq_ram.mp hreg
        simp only [hreg, Except.ok.injEq] at h
        subst h
        refine ⟨rfl, rfl, fun i => ?_⟩
        change Function.update m.ram (wordIndex a) v i = _
        by_cases hi : a = wordAddress 0x10000000 i
        · have hindex : i = wordIndex a := by rw [hi, wordIndex_wordAddress (by decide)]
          rw [if_pos hi, hindex, Function.update_self]
        · have hindex : i ≠ wordIndex a := by
            rintro rfl
            exact hi (wordAddress_wordIndex (by decide) hlo hhi hal).symm
          rw [if_neg hi, Function.update_of_ne hindex]
    | uart =>
        simp only [hreg] at h
        grind [uartWrite]
    | timer =>
        simp only [hreg] at h
        grind [timerWrite]
    | gpio =>
        simp only [hreg] at h
        grind [gpioWrite]
    | debug =>
        simp only [hreg] at h
        grind [debugWrite]
    | _ =>
        simp only [hreg] at h
        cases h

/-- The Timer counts retirements while enabled. -/
def retireTick (m : Memory) : Memory :=
  if m.timerEnable then { m with timerCounter := m.timerCounter + 1 } else m

/-- The documented bus. -/
def busModel : BusModel Memory where
  fetch := fetch
  load := load
  store := store
  retireTick := retireTick

end Memory
end Mini32.Isa
