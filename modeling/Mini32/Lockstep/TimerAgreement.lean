import Mini32.Lib.Run
import Mini32.Rtl.Peripherals
import Mini32.Simulator.Devices

/-!
# The two Timers, cycle by cycle

`timer_mmio` merges a write and a retirement tick into one clock edge; the simulator's
Timer takes them as two calls, the write first.  `registers_edge` says that an edge is these
calls, whatever the offset and the flags, and `timer_agrees` that this stays so over every
sequence of cycles.

`registers` reads the RTL's Timer as a Timer of the simulator.  An offset of the RTL has four
bits and may be misaligned; the simulator refuses such a write and the RTL does nothing with
it.  Read data is a register: after the edge it shows what the Timer held before
(`readData_edge`).
-/

namespace Mini32.Lockstep

open Rtl (TimerMmio)

/-! ## A cycle on both sides -/

/-- The input ports of `timer_mmio`. -/
structure TimerInputs where
  reset : Bool
  retireTick : Bool
  readEnable : Bool
  writeEnable : Bool
  registerOffset : BitVec 4
  writeData : Word

namespace TimerInputs

/-- The clock edge. -/
def edge (i : TimerInputs) (timer : TimerMmio) : TimerMmio :=
  timer.clock i.reset i.retireTick i.readEnable i.writeEnable i.registerOffset i.writeData

/-- The address that the offset stands for. -/
def address (i : TimerInputs) : Word := Cpp.Timer.kBaseAddress + i.registerOffset.setWidth 32

/-- The calls of the simulator's Timer. -/
def calls (i : TimerInputs) (timer : Cpp.Timer) : Cpp.Timer :=
  if i.reset then timer.reset
  else
    let written := if i.writeEnable then (timer.write32 i.address i.writeData).2 else timer
    if i.retireTick then written.retireTick else written

/-! ## Addresses -/

variable (i : TimerInputs)

/-- The offset of an address. -/
theorem address_sub_base : i.address - Cpp.Timer.kBaseAddress = i.registerOffset.setWidth 32 := by
  rw [address, BitVec.add_comm, BitVec.add_sub_cancel]

/-- An offset is a register or misaligned; the window has no other fault. -/
theorem validateAddress_address : Cpp.Timer.validateAddress i.address =
    if i.registerOffset.extractLsb' 0 2 = 0 then none else some .misaligned := by
  have hall : ∀ offset : BitVec 4,
      Cpp.Timer.validateAddress (Cpp.Timer.kBaseAddress + offset.setWidth 32) =
        if offset.extractLsb' 0 2 = 0 then none else some .misaligned := by
    decide
  exact hall i.registerOffset

/-- The four aligned offsets. -/
theorem offset_of_aligned {offset : BitVec 4} (h : offset.extractLsb' 0 2 = 0) :
    offset = 0x0 ∨ offset = 0x4 ∨ offset = 0x8 ∨ offset = 0xC := by
  revert offset
  decide

end TimerInputs

/-- The registers of `timer_mmio` as the simulator holds them. -/
def registers (timer : TimerMmio) : Cpp.Timer :=
  ⟨timer.timerCounter, timer.timerCompare, timer.timerEnabled⟩

/-! ## One edge -/

section Edge

variable (i : TimerInputs) (timer : TimerMmio)

/-- A write alone. -/
theorem write32_registers : ((registers timer).write32 i.address i.writeData).2 =
    if i.registerOffset = 0x0 then { registers timer with counter := i.writeData }
    else if i.registerOffset = 0x4 then { registers timer with compare := i.writeData }
    else if i.registerOffset = 0x8 then
      { registers timer with enabled := i.writeData.getLsbD 0 }
    else registers timer := by
  rw [Cpp.Timer.write32, i.validateAddress_address]
  by_cases hal : i.registerOffset.extractLsb' 0 2 = 0
  · rw [if_pos hal]
    simp only [i.address_sub_base, Cpp.Timer.control_bit]
    rcases TimerInputs.offset_of_aligned hal with h | h | h | h <;> rw [h] <;> rfl
  · have hne : ∀ {o : BitVec 4}, o.extractLsb' 0 2 = 0 → i.registerOffset ≠ o := by
      rintro o ho rfl
      exact hal ho
    rw [if_neg hal, if_neg (hne rfl), if_neg (hne rfl), if_neg (hne rfl)]

/-- **An edge is a write followed by a tick**, whichever of the two there are. -/
theorem registers_edge : registers (i.edge timer) = i.calls (registers timer) := by
  rw [TimerInputs.edge, TimerInputs.calls, write32_registers, TimerMmio.clock]
  cases i.reset with
  | true => rfl
  | false =>
      simp only [Bool.false_eq_true, if_false]
      cases i.writeEnable with
      | false =>
          cases i.retireTick <;> cases h : timer.timerEnabled <;>
            simp [registers, Cpp.Timer.retireTick, h]
      | true =>
          simp only [if_true]
          -- the tick of each arm sees the registers that the write leaves
          split_ifs <;> cases i.retireTick <;> cases h : timer.timerEnabled <;>
            simp_all [registers, Cpp.Timer.retireTick]

/-- A read port is loaded with the register before the edge. -/
theorem readData_edge (hreset : i.reset = false) (hread : i.readEnable = true)
    (hal : i.registerOffset.extractLsb' 0 2 = 0) :
    (registers timer).read32 i.address = .ok (i.edge timer).readData := by
  have hdata : (i.edge timer).readData =
      if i.registerOffset = 0x0 then timer.timerCounter
      else if i.registerOffset = 0x4 then timer.timerCompare
      else if i.registerOffset = 0x8 then TimerMmio.bit timer.timerEnabled
      else if i.registerOffset = 0xC then
        TimerMmio.bit (timer.timerEnabled && timer.timerCounter == timer.timerCompare)
      else 0 := by
    simp only [TimerInputs.edge, TimerMmio.clock, hreset, hread, if_true, Bool.false_eq_true,
      if_false]
    split_ifs <;> rfl
  rw [Cpp.Timer.read32, i.validateAddress_address, if_pos hal, hdata]
  simp only [i.address_sub_base, TimerMmio.bit_eq]
  rcases TimerInputs.offset_of_aligned hal with h | h | h | h <;> rw [h] <;> rfl

/-- Without a read the data stay as they are. -/
theorem readData_edge_held (hreset : i.reset = false) (hread : i.readEnable = false) :
    (i.edge timer).readData = timer.readData := by
  simp only [TimerInputs.edge, TimerMmio.clock, hreset, hread, Bool.false_eq_true, if_false]
  split_ifs <;> rfl

end Edge

/-! ## Every sequence of cycles -/

/-- The two Timers side by side: `s t` and `c t` before cycle `t`. -/
structure TimerAgrees (inputs : ℕ → TimerInputs) (s : ℕ → TimerMmio) (c : ℕ → Cpp.Timer) :
    Prop where
  counter : ∀ t, (s t).timerCounter = (c t).counter
  compare : ∀ t, (s t).timerCompare = (c t).compare
  enabled : ∀ t, (s t).timerEnabled = (c t).enabled
  control : ∀ t, (s t).timerControl = if (c t).enabled then 1 else 0
  /-- A read sees the registers before the write and the tick of its cycle. -/
  read : ∀ t, (inputs t).reset = false → (inputs t).readEnable = true →
    (inputs t).registerOffset.extractLsb' 0 2 = 0 →
    (c t).read32 (inputs t).address = .ok (s (t + 1)).readData
  held : ∀ t, (inputs t).reset = false → (inputs t).readEnable = false →
    (s (t + 1)).readData = (s t).readData

/-- **The Timer under simultaneous access and tick**: from any state, with the simulator's
Timer in the same one, over every sequence of inputs. -/
theorem timer_agrees (inputs : ℕ → TimerInputs) (powerUp : TimerMmio) :
    TimerAgrees inputs (Clocked.run TimerInputs.edge inputs powerUp)
      (Clocked.run TimerInputs.calls inputs (registers powerUp)) := by
  have hview : ∀ t, registers (Clocked.run TimerInputs.edge inputs powerUp t) =
      Clocked.run TimerInputs.calls inputs (registers powerUp) t :=
    Clocked.map_run TimerInputs.edge registers registers_edge inputs powerUp
  constructor
  case counter => exact fun t => congrArg Cpp.Timer.counter (hview t)
  case compare => exact fun t => congrArg Cpp.Timer.compare (hview t)
  case enabled => exact fun t => congrArg Cpp.Timer.enabled (hview t)
  case control =>
    intro t
    rw [TimerMmio.timerControl, TimerMmio.bit_eq, ← hview t]
    rfl
  case read =>
    intro t hreset hread hal
    rw [← hview t]
    exact readData_edge _ _ hreset hread hal
  case held => exact fun t hreset hread => readData_edge_held _ _ hreset hread

end Mini32.Lockstep
