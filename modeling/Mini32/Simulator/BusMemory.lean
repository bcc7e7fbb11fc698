import Mini32.Isa.History
import Mini32.Simulator.Bus

/-!
# The simulator's bus is a memory

Any sequence of reads, fetches and writes on a fresh system leaves the documented memory
of the writes that succeeded (`runAccesses_memory`).  What every later read, fetch and
debug read returns, and what one more write can change, is read off it in
`properMemory`.

`Access` is one call from outside and `committed` the store it makes, if any; reads and
fetches leave the bus as it is.  `runAccesses` keeps the log of the committed stores.  The
log is the only link between the accesses and what `ProperMemory` says: a bus is a proper
memory for a log, however it came to be.  That structure says what every fetch returns, what
the reads of the RAM and of the device registers return, which writes succeed, and what a
write changes.
-/

namespace Mini32.Cpp

open ByteStore

namespace Bus

/-! ## Accesses -/

/-- A call of the bus. -/
inductive Access
  | read (address : Word)
  | fetch (address : Word)
  | write (address value : Word)
  deriving DecidableEq, Repr

/-- Whether an access is a write. -/
def Access.isWrite : Access → Bool
  | write .. => true
  | _ => false

/-- What a call returns and the bus it leaves; `read32` and `fetch32` are `const`. -/
def access (bus : Bus) : Access → Except BusFault (Option Word) × Bus
  | .read address => (some <$> bus.read32 address, bus)
  | .fetch address => (some <$> bus.fetch32 address, bus)
  | .write address value =>
      match bus.write32 address value with
      | (none, bus') => (.ok none, bus')
      | (some fault, bus') => (.error fault, bus')

/-- The write that a call makes, if it succeeds. -/
def committed (bus : Bus) : Access → Option (Word × Word)
  | .write address value =>
      if (bus.write32 address value).1 = none then some (address, value) else none
  | _ => none

/-- Calls in a row, with the log of the writes that succeeded. -/
def runAccesses (bus : Bus) (accesses : List Access) : StoreLog × Bus :=
  accesses.foldl (fun s a => (s.1 ++ [s.2.committed a], (s.2.access a).2)) ([], bus)

/-- One more access at the end. -/
theorem runAccesses_concat (bus : Bus) (accesses : List Access) (a : Access) :
    bus.runAccesses (accesses ++ [a]) =
      ((bus.runAccesses accesses).1 ++ [(bus.runAccesses accesses).2.committed a],
        ((bus.runAccesses accesses).2.access a).2) := by
  rw [runAccesses, List.foldl_append]
  rfl

/-- A write, as an access. -/
theorem access_write (bus : Bus) (address value : Word) :
    (bus.access (.write address value)).2 = (bus.write32 address value).2 := by
  simp only [access]
  rcases bus.write32 address value with ⟨- | fault, bus'⟩ <;> rfl

/-- Only a write changes the bus, … -/
theorem access_of_not_write {a : Access} (h : a.isWrite = false) (bus : Bus) :
    (bus.access a).2 = bus := by
  cases a with
  | write => nomatch h
  | _ => rfl

/-- … so a run leaves what its writes alone leave. -/
theorem runAccesses_filter (bus : Bus) (accesses : List Access) :
    (bus.runAccesses (accesses.filter Access.isWrite)).2 = (bus.runAccesses accesses).2 := by
  induction accesses using List.reverseRecOn with
  | nil => rfl
  | append_singleton accesses a ih =>
      rw [List.filter_append, runAccesses_concat]
      cases h : a.isWrite with
      | true => rw [List.filter_cons_of_pos h, List.filter_nil, runAccesses_concat, ih]
      | false =>
          rw [List.filter_cons_of_neg (by simp [h]), List.filter_nil, List.append_nil, ih,
            access_of_not_write h]

/-- No write reaches the ROM. -/
theorem write32_rom (bus : Bus) (address value : Word) :
    (bus.write32 address value).2.rom = bus.rom := by
  unfold write32
  split_ifs <;> rfl

/-- The ROM is the same after any accesses. -/
theorem runAccesses_rom (bus : Bus) (accesses : List Access) :
    (bus.runAccesses accesses).2.rom = bus.rom := by
  induction accesses using List.reverseRecOn with
  | nil => rfl
  | append_singleton accesses a ih =>
      rw [runAccesses_concat, ← ih]
      cases a with
      | write address value => rw [access_write, write32_rom]
      | _ => rfl

/-- **What any sequence of calls leaves**: the documented memory of the writes that
succeeded. -/
theorem runAccesses_memory (rom : Rom) (pins : Word) (accesses : List Access) :
    ((fresh rom pins).runAccesses accesses).2.memory =
      Isa.Memory.ofLog (fresh rom pins).memory.rom pins
        ((fresh rom pins).runAccesses accesses).1 := by
  induction accesses using List.reverseRecOn with
  | nil =>
      simp only [runAccesses, List.foldl_nil, memory, fresh, Ram.fresh, BitVec.ofNat_eq_ofNat,
        readWord_zero]
      rfl
  | append_singleton accesses a ih =>
      rw [runAccesses_concat]
      generalize (fresh rom pins).runAccesses accesses = s at ih ⊢
      obtain ⟨log, bus⟩ := s
      cases a with
      | write address value =>
          obtain ⟨fault, hw, -⟩ | ⟨bus', hw, hm⟩ := write32_memory bus address value
          · simp only [access, committed, hw, reduceCtorEq, if_false]
            rw [Isa.Memory.ofLog_concat_none]
            exact ih
          · simp only [access, committed, hw, if_true]
            rw [ih] at hm
            exact Isa.Memory.store_ofLog hm
      | _ => exact ih.trans (Isa.Memory.ofLog_concat_none _ _ _).symm

/-! ## What can be read -/

/-- Any byte of the RAM is a byte of its word. -/
theorem debugReadByte_memory (bus : Bus) {b : Word} (h : Isa.region b = .ram) :
    bus.ram.debugReadByte b =
      some (byteOf (bus.memory.ram (Isa.wordIndex b)) (b.toNat % 4)) := by
  obtain ⟨hlo, hhi⟩ := Isa.region_eq_ram.mp h
  have hbase : Ram.kBaseAddress.toNat % 2 ^ 16 = 0 := by decide
  have hindex := Isa.toNat_wordAddress_wordIndex hbase hlo hhi
  rw [Isa.toNat_wordAddress (by decide)] at hindex
  have hoffset : (b - Ram.kBaseAddress).toNat = 4 * (Isa.wordIndex b).toNat + b.toNat % 4 := by
    have hle : Ram.kBaseAddress.toNat ≤ b.toNat := hlo
    have hsub : (b - Ram.kBaseAddress).toNat = b.toNat - Ram.kBaseAddress.toNat :=
      BitVec.toNat_sub_of_le hlo
    omega
  have hinside : ¬ (b < Ram.kBaseAddress ∨ b > Ram.kLastAddress) := by
    rw [not_or, BitVec.not_lt, gt_iff_lt, BitVec.not_lt]
    exact ⟨hlo, hhi⟩
  rw [Ram.debugReadByte, if_neg hinside, hoffset]
  obtain ⟨h0, h1, h2, h3⟩ := byteOf_ofBytes (bus.ram.bytes (4 * (Isa.wordIndex b).toNat))
    (bus.ram.bytes (4 * (Isa.wordIndex b).toNat + 1))
    (bus.ram.bytes (4 * (Isa.wordIndex b).toNat + 2))
    (bus.ram.bytes (4 * (Isa.wordIndex b).toNat + 3))
  simp only [memory, readWord]
  have hk : b.toNat % 4 < 4 := Nat.mod_lt _ (by decide)
  generalize b.toNat % 4 = k at hk ⊢
  rcases (by omega : k = 0 ∨ k = 1 ∨ k = 2 ∨ k = 3) with rfl | rfl | rfl | rfl
  · rw [h0, Nat.add_zero]
  · rw [h1]
  · rw [h2]
  · rw [h3]

/-- Outside the RAM there are no bytes. -/
theorem debugReadByte_none (ram : Ram) {b : Word} (h : Isa.region b ≠ .ram) :
    ram.debugReadByte b = none := by
  rw [Ne, ← ram_range] at h
  rw [Ram.debugReadByte, if_pos]
  rwa [not_and_or, BitVec.not_le, BitVec.not_le] at h

/-! ## What a write can change -/

/-- A write that succeeds changes at most the RAM word or the device register at its
address. -/
structure ChangesOnly (address value : Word) (bus bus' : Bus) : Prop where
  aligned : Isa.Aligned address
  target : Isa.region address = .ram ∨ Isa.region address = .uart ∨ Isa.region address = .timer ∨
    Isa.region address = .gpio ∨ Isa.region address = .debug
  rom : bus'.rom = bus.rom
  input : bus'.gpio.input = bus.gpio.input
  ram : ∀ b, ¬ (address ≤ b ∧ b ≤ address + 3) →
    bus'.ram.debugReadByte b = bus.ram.debugReadByte b
  uart : bus'.uart.txBytes =
    if address = 0x20000000 then bus.uart.txBytes ++ [value.extractLsb' 0 8] else bus.uart.txBytes
  counter : bus'.timer.counter = if address = 0x20000100 then value else bus.timer.counter
  compare : bus'.timer.compare = if address = 0x20000104 then value else bus.timer.compare
  enabled : bus'.timer.enabled = if address = 0x20000108 then value.getLsbD 0 else bus.timer.enabled
  output : bus'.gpio.output = if address = 0x20000204 then value else bus.gpio.output
  direction : bus'.gpio.direction = if address = 0x20000208 then value else bus.gpio.direction
  debug : bus'.debug.value = if address = 0x20000300 then value else bus.debug.value

/-- **A write faults and leaves the bus as it was, or changes only what it addresses.** -/
theorem write32_changesOnly (bus : Bus) (address value : Word) :
    (∃ fault, bus.write32 address value = (some fault, bus)) ∨
      ∃ bus', bus.write32 address value = (none, bus') ∧ ChangesOnly address value bus bus' := by
  obtain ⟨fault, hw, -⟩ | ⟨bus', hw, hm⟩ := write32_memory bus address value
  · exact Or.inl ⟨fault, hw⟩
  refine Or.inr ⟨bus', hw, ?_⟩
  obtain ⟨-, hinput, hram⟩ := Isa.Memory.store_memories hm
  obtain ⟨huart, hdebug, houtput, hdirection⟩ := Isa.Memory.store_devices hm
  obtain ⟨hcounter, hcompare, henable⟩ := Isa.Memory.store_timer hm
  obtain ⟨haligned, htarget⟩ := Isa.Memory.store_isOk_iff.mp ⟨_, hm⟩
  have hrom : bus'.rom = bus.rom := by
    rw [← write32_rom bus address value, hw]
  refine ⟨haligned, htarget, hrom, hinput, fun b hb => ?_, huart, hcounter, hcompare, henable,
    houtput, hdirection, hdebug⟩
  by_cases hreg : Isa.region b = .ram
  · obtain ⟨hlo, hhi⟩ := Isa.region_eq_ram.mp hreg
    have hbase : (0x10000000 : Word).toNat % 2 ^ 16 = 0 := by decide
    have hindex := Isa.toNat_wordAddress_wordIndex hbase hlo hhi
    -- a byte outside the four written is in another word
    have hne : address ≠ Isa.wordAddress 0x10000000 (Isa.wordIndex b) := by
      intro h
      rw [← h] at hindex
      apply hb
      rw [BitVec.le_def, BitVec.le_def]
      have hb' := b.isLt
      bv_omega
    rw [debugReadByte_memory bus' hreg, debugReadByte_memory bus hreg, hram, if_neg hne]
  · rw [debugReadByte_none _ hreg, debugReadByte_none _ hreg]

/-- **A write succeeds exactly at the aligned addresses of the RAM and the device windows.** -/
theorem write32_eq_none_iff (bus : Bus) (address value : Word) :
    (bus.write32 address value).1 = none ↔ Isa.Aligned address ∧
      ((0x10000000 ≤ address ∧ address ≤ 0x1000FFFF) ∨
        (0x20000000 ≤ address ∧ address ≤ 0x2000000F) ∨
        (0x20000100 ≤ address ∧ address ≤ 0x2000010F) ∨
        (0x20000200 ≤ address ∧ address ≤ 0x2000020F) ∨
        (0x20000300 ≤ address ∧ address ≤ 0x2000030F)) := by
  rw [← Isa.region_eq_ram, ← Isa.region_eq_uart, ← Isa.region_eq_timer, ← Isa.region_eq_gpio,
    ← Isa.region_eq_debug, ← Isa.Memory.store_isOk_iff (m := bus.memory) (v := value)]
  obtain ⟨fault, hw, hm⟩ | ⟨bus', hw, hm⟩ := write32_memory bus address value
  · rw [hw, hm]
    exact iff_of_false nofun fun ⟨m', h⟩ => nomatch h
  · rw [hw, hm]
    exact iff_of_true rfl ⟨_, rfl⟩

/-! ## The whole system -/

/-- The bus after the writes in `log`, on a fresh system with this ROM and these pins. -/
structure ProperMemory (rom : Rom) (pins : Word) (log : StoreLog) (bus : Bus) : Prop where
  ramWord : ∀ a, Isa.Aligned a → 0x10000000 ≤ a → a ≤ 0x1000FFFF →
    bus.read32 a = .ok ((WriteLog.lastValue a log).getD 0)
  ramByte : ∀ a, Isa.Aligned a → 0x10000000 ≤ a → a ≤ 0x1000FFFF → ∀ k < 4,
    bus.ram.debugReadByte (a + BitVec.ofNat 32 k) =
      some (((WriteLog.lastValue a log).getD 0).extractLsb' (8 * k) 8)
  /-- Debug VALUE, GPIO OUTPUT and DIRECTION, Timer COUNTER and COMPARE. -/
  register : ∀ a ∈ [0x20000300, 0x20000204, 0x20000208, 0x20000100, 0x20000104],
    bus.read32 a = .ok ((WriteLog.lastValue a log).getD 0)
  timerControl : bus.read32 0x20000108 = .ok ((WriteLog.lastValue 0x20000108 log).getD 0 &&& 1)
  timerStatus : bus.read32 0x2000010C =
    .ok (if ((WriteLog.lastValue 0x20000108 log).getD 0).getLsbD 0 ∧
        (WriteLog.lastValue 0x20000100 log).getD 0 = (WriteLog.lastValue 0x20000104 log).getD 0
      then 1 else 0)
  uartStatus : bus.read32 0x20000004 = .ok 1
  gpioInput : bus.read32 0x20000200 = .ok pins
  /-- UART DATA, CONTROL and the reserved offsets. -/
  zero : ∀ a ∈ [0x20000000, 0x20000008, 0x2000000C, 0x2000020C, 0x20000304, 0x20000308, 0x2000030C],
    bus.read32 a = .ok 0
  uart : bus.uart.txBytes = log.filterMap Isa.Memory.transmitted
  romKept : bus.rom = rom
  fetch : ∀ a, bus.fetch32 a = (fresh rom pins).fetch32 a
  /-- The next write succeeds if its address is aligned and in the RAM or the window of a
  device, … -/
  accepts : ∀ a v, (bus.write32 a v).1 = none ↔ Isa.Aligned a ∧
    ((0x10000000 ≤ a ∧ a ≤ 0x1000FFFF) ∨ (0x20000000 ≤ a ∧ a ≤ 0x2000000F) ∨
      (0x20000100 ≤ a ∧ a ≤ 0x2000010F) ∨ (0x20000200 ≤ a ∧ a ≤ 0x2000020F) ∨
      (0x20000300 ≤ a ∧ a ≤ 0x2000030F))
  /-- … and changes nothing if it faults. -/
  write : ∀ a v, (∃ fault, bus.write32 a v = (some fault, bus)) ∨
    ∃ bus', bus.write32 a v = (none, bus') ∧ ChangesOnly a v bus bus'

/-- The lowest bit, as a number. -/
theorem and_one (v : Word) : v &&& 1 = if v.getLsbD 0 then 1 else 0 := by
  change v &&& 1#32 = _
  rw [BitVec.and_one_eq_setWidth_ofBool_getLsbD]
  cases v.getLsbD 0 <;> rfl

/-- Within an aligned word an address does not wrap. -/
theorem toNat_add_byte {a : Word} (hal : Isa.Aligned a) {k : ℕ} (hk : k < 4) :
    (a + BitVec.ofNat 32 k).toNat = a.toNat + k := by
  rw [Isa.aligned_iff] at hal
  have ha := a.isLt
  rw [BitVec.toNat_add, BitVec.toNat_ofNat]
  omega

/-- The clauses hold of every bus whose memory is that of the log. -/
theorem properMemory {rom : Rom} {pins : Word} {log : StoreLog} {bus : Bus} (hrom : bus.rom = rom)
    (hm : bus.memory = Isa.Memory.ofLog (fresh rom pins).memory.rom pins log) :
    ProperMemory rom pins log bus := by
  have hload (a : Word) : bus.read32 a =
      (Isa.Memory.ofLog (fresh rom pins).memory.rom pins log).load a := by
    rw [← read32_memory, hm]
  have hword (a : Word) (hal : Isa.Aligned a) (hlo : 0x10000000 ≤ a) (hhi : a ≤ 0x1000FFFF) :
      bus.memory.ram (Isa.wordIndex a) = (WriteLog.lastValue a log).getD 0 := by
    rw [hm]
    change (WriteLog.lastValue (Isa.wordAddress 0x10000000 (Isa.wordIndex a)) log).getD 0 = _
    rw [Isa.wordAddress_wordIndex (by decide) hlo hhi hal]
  constructor
  case ramWord =>
    intro a hal hlo hhi
    rw [← read32_memory, Isa.Memory.load, if_neg (not_not.mpr hal),
      Isa.region_eq_ram.mpr ⟨hlo, hhi⟩, ← hword a hal hlo hhi]
  case ramByte =>
    intro a hal hlo hhi k hk
    have hbyte := toNat_add_byte hal hk
    have hreg : Isa.region (a + BitVec.ofNat 32 k) = .ram := by
      rw [Isa.aligned_iff] at hal
      rw [Isa.region_eq_ram]
      bv_omega
    -- the four bytes of an aligned word have its index
    have hindex : Isa.wordIndex (a + BitVec.ofNat 32 k) = Isa.wordIndex a := by
      rw [Isa.aligned_iff] at hal
      apply BitVec.eq_of_toNat_eq
      rw [Isa.wordIndex, Isa.wordIndex, BitVec.extractLsb'_toNat, BitVec.extractLsb'_toNat, hbyte,
        Nat.shiftRight_eq_div_pow, Nat.shiftRight_eq_div_pow]
      omega
    have hmod : (a + BitVec.ofNat 32 k).toNat % 4 = k := by
      rw [Isa.aligned_iff] at hal
      omega
    rw [debugReadByte_memory bus hreg, hindex, hmod, hword a hal hlo hhi, byteOf_eq_slice _ k hk]
  case uart => exact congrArg Isa.Memory.uartTx hm
  case romKept => exact hrom
  case fetch =>
    intro a
    rw [← fetch32_memory, ← fetch32_memory, Isa.Memory.fetch, Isa.Memory.fetch, hm]
    rfl
  case accepts => exact write32_eq_none_iff bus
  case write => exact write32_changesOnly bus
  case timerControl =>
    rw [hload, and_one]
    simp [Isa.Memory.load, Isa.Aligned, Isa.region, Isa.offset, Isa.Memory.timerRead,
      Isa.Memory.ofLog]
  -- the other registers are read back at fixed addresses
  all_goals
    simp [hload, Isa.Memory.load, Isa.Aligned, Isa.region, Isa.offset, Isa.Memory.debugRead,
      Isa.Memory.gpioRead, Isa.Memory.timerRead, Isa.Memory.uartRead, Isa.Memory.ofLog]

/-- **The bus is a proper memory**, after any sequence of calls on a fresh system; the
reads and fetches among them might as well not have been made. -/
theorem bus_properMemory (rom : Rom) (pins : Word) (accesses : List Access) :
    ProperMemory rom pins ((fresh rom pins).runAccesses accesses).1
        ((fresh rom pins).runAccesses accesses).2 ∧
      ((fresh rom pins).runAccesses (accesses.filter Access.isWrite)).2 =
        ((fresh rom pins).runAccesses accesses).2 :=
  ⟨properMemory (runAccesses_rom _ accesses) (runAccesses_memory rom pins accesses),
    runAccesses_filter _ accesses⟩

end Bus
end Mini32.Cpp
