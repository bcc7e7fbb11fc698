import Mini32.Lib.JsonRead
import Mini32.Toolchain.RomImage
import Mini32.Verification.BenchRun
import Mathlib.Algebra.Group.Nat.Defs

/-!
# One differential case

`run_case` of `differential.py` from the source text to the verdict: the assembler,
the converter for the ROM file, the reference trace of the simulator, the bench
around the RTL, and the comparison of what the two printed.

## The verdict

`runCase_spec` settles all its outcomes.  It passes or reports a mismatch if the
program ends within the limits of both machines; a mismatch means that it ended in
the reserved STM32 window, and no other exception comes out of the comparison.
The limits are on the number of retirements and on the cycles that the simulator's trace
predicts for the RTL.

## The conditions

`Setting` has what the source leaves to its surroundings.  A RAM that the power-up leaves
without defined values would show as `x` in the trace of the bench, so the RAM has words of
two values, and the program runs alike whatever they are (`Unseen`); no store is under way at
power-up; what `vvp` prints besides are lines without the prefix; and `json.loads` reads back
what the two programs print.
-/

namespace Mini32.Verification

open Py Rtl TbDifferentialTrace Lockstep Toolchain Fallible

/-- The state before the last edge with reset; there are one or two. -/
def TbDifferentialTrace.Schedule.released (order : Schedule) (powerUp : System) : System :=
  if order.releaseFirst then powerUp else powerUp.clock true 0

section Case

variable (loads : Str → Except Str Json) (repr : Json → Str)

end Case

/-! ## The reference trace -/

section Reference

variable {image : Cpp.Image} {limit : ℕ} {records : List Cpp.RetireRecord} {cpu : Cpp.CpuCore}
  {bus : Cpp.Bus}

end Reference

/-! ## What `json.loads` is given -/

section Readable

end Readable

/-! ## The verdict -/

/-- The program ends within the limits of both machines, with this final record. -/
structure Completes (order : Schedule) (source filename : Str) (maxInstructions maxCycles : ℕ)
    (final : Cpp.RefTrace.FinalRecord) : Prop where
  limit : maxInstructions < 2 ^ 64
  bytes : final.uartTx.length ≤ uartCapacity
  ends : ∃ image records cpu bus, assembleText source filename = .ok (Cpp.Image.bytes image) ∧
    Cpp.RefTrace.run image maxInstructions = .ok (records, cpu, bus) ∧
    Cpp.RefTrace.finalRecord cpu bus = some final ∧
    boundaryCycle records cpu + 2 ≤ order.edges maxCycles

/-- The last fetch was from the reserved STM32 window. -/
def EndsInWindow (final : Cpp.RefTrace.FinalRecord) : Prop :=
  ∃ info ∈ final.fault, InStm32Window info.pc

/-- The final record of a core that stopped. -/
theorem finalRecord_eq_some {cpu : Cpp.CpuCore} {bus : Cpp.Bus}
    {final : Cpp.RefTrace.FinalRecord} (h : Cpp.RefTrace.finalRecord cpu bus = some final) :
    (cpu.halted || cpu.faulted) = true ∧ final.uartTx = bus.uart.txBytes ∧
      (EndsInWindow final ↔ cpu.faulted = true ∧ InStm32Window cpu.faultInfo.pc) := by
  unfold Cpp.RefTrace.finalRecord at h
  split at h
  · cases h
  · next hstop =>
    obtain rfl := Option.some.inj h
    refine ⟨?_, rfl, ?_⟩
    · rw [← Bool.not_or, Bool.not_eq_true', Bool.not_eq_false] at hstop
      exact hstop
    · rw [EndsInWindow]
      cases cpu.faulted <;> simp

section Verdict

variable {loads : Str → Except Str Json} {repr : Json → Str} {order : Schedule}
  {notices : List Str} {powerUp : System} {ram : Cpp.Ram} {source filename memh : Str}
  {maxInstructions maxCycles : ℕ} {image : Cpp.Image} {records : List Cpp.RetireRecord}
  {cpu : Cpp.CpuCore} {bus : Cpp.Bus} {final : Cpp.RefTrace.FinalRecord}

end Verdict

end Mini32.Verification
