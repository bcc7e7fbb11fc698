import Mini32.Rtl.Timing
import Mini32.Lib.PyInt

/-!
# The trace bench

`tb_differential_trace.sv`: a bench around `mini32_system` that prints a line for
each retirement, collects the bytes of the UART, and prints a final line in the
second cycle it finds the core halted or faulted.  `clock` is its `always` block;
it sees the outputs of the system before the edge.

The order of the processes that wake up on one edge is left open by the language.
It matters on two edges, and `Schedule` says how they go there: on the edge that
releases the reset, and on the last edge before the cycle limit.

`run_finishes` says when the bench gets to its final line and what it has printed by
then; `run_finished`, that it gets there in no other way.
-/

namespace Mini32.Verification

open Py Rtl

namespace TbDifferentialTrace

/-! ## Formats -/

/-- `%08X` -/
def hexWord (value : Word) : Str := hex 8 value.toNat

/-- `uart_hex()`, byte by byte with `%02x`. -/
def uartHex (bytes : List (BitVec 8)) : Str :=
  bytes.flatMap fun byte => (Nat.toDigits 16 byte.toNat).leftpad 2 '0'

/-- `condition ? "true" : "false"` -/
def trueFalse (condition : Bool) : Str := if condition then "true".toList else "false".toList

/-- `fault_name` -/
def faultName : CpuFault → Str
  | .misalignedInstructionFetch => "MisalignedInstructionFetch".toList
  | .unmappedInstructionFetch => "UnmappedInstructionFetch".toList
  | .nonExecutableInstructionFetch => "NonExecutableInstructionFetch".toList
  | .illegalInstruction => "IllegalInstruction".toList
  | .malformedInstruction => "MalformedInstruction".toList
  | .unsupportedInstruction => "UnsupportedInstruction".toList
  | .misalignedLoad => "MisalignedLoad".toList
  | .unmappedLoad => "UnmappedLoad".toList
  | .misalignedStore => "MisalignedStore".toList
  | .unmappedStore => "UnmappedStore".toList
  | .readOnlyStore => "ReadOnlyStore".toList
  | .none => "None".toList

/-- The `$display` of a retirement; `\x7b` and `\x7d` are the braces. -/
def displayRetire (retireIndex : ℕ) (p : RetirePort) : Str :=
  "MINI32_TRACE \x7b\"type\":\"retire\",\"index\":".toList ++ decimal retireIndex ++
  ",\"pc\":\"".toList ++ hexWord p.pc ++ "\",\"instruction\":\"".toList ++ hexWord p.instruction ++
  "\",\"next_pc\":\"".toList ++ hexWord p.nextPc ++ "\",\"reg_write\":".toList ++
  trueFalse p.regWrite ++ ",\"rd\":".toList ++ decimal p.rd.toNat ++
  ",\"reg_value\":\"".toList ++ hexWord p.value ++ "\",\"mem_write\":".toList ++
  trueFalse p.memWrite ++ ",\"mem_addr\":\"".toList ++ hexWord p.memAddr ++
  "\",\"mem_value\":\"".toList ++ hexWord p.memValue ++ "\"\x7d".toList

/-- What the two final lines share. -/
def displayFinal (status : Str) (retireIndex : ℕ) (uartBytes : List (BitVec 8)) (s : System)
    (fault : Str) : Str :=
  "MINI32_TRACE \x7b\"type\":\"final\",\"status\":\"".toList ++ status ++
  "\",\"pc\":\"".toList ++ hexWord s.cpu.pc ++ "\",\"retired\":".toList ++ decimal retireIndex ++
  ",\"uart_tx\":\"".toList ++ uartHex uartBytes ++
  "\",\"debug_value\":\"".toList ++ hexWord s.bus.debug.debugValue ++
  "\",\"gpio_output\":\"".toList ++ hexWord s.bus.gpio.gpioOutput ++
  "\",\"gpio_direction\":\"".toList ++ hexWord s.bus.gpio.gpioDirection ++
  "\",\"timer_counter\":\"".toList ++ hexWord s.bus.timer.timerCounter ++
  "\",\"timer_compare\":\"".toList ++ hexWord s.bus.timer.timerCompare ++
  "\",\"timer_control\":\"".toList ++ hexWord s.bus.timer.timerControl ++ "\"".toList ++
  fault ++ "\x7d".toList

/-- The fault fields of the second final line. -/
def displayFault (f : FaultPort) : Str :=
  ",\"fault\":\"".toList ++ faultName f.code ++ "\",\"fault_pc\":\"".toList ++ hexWord f.pc ++
  "\",\"fault_instruction\":\"".toList ++ hexWord f.instruction ++
  "\",\"fault_address_valid\":".toList ++ trueFalse f.addressValid ++
  ",\"fault_address\":\"".toList ++ hexWord f.address ++ "\"".toList

end TbDifferentialTrace

/-! ## The bench -/

/-- `$finish` and `$fatal` end the simulation. -/
inductive TbStatus
  | running | finished | fatal
  deriving DecidableEq, Repr

/-- The variables of the bench, and the lines it has displayed. -/
structure TbDifferentialTrace where
  retireIndex : ℕ
  /-- The first `uart_count` cells of `uart_bytes`. -/
  uartBytes : List (BitVec 8)
  finalPending : Bool
  status : TbStatus
  lines : List Str

namespace TbDifferentialTrace

/-- The size of `uart_bytes`. -/
def uartCapacity : ℕ := 1024

/-- The variables as they are initialized. -/
def initial : TbDifferentialTrace where
  retireIndex := 0
  uartBytes := []
  finalPending := false
  status := .running
  lines := []

/-- What the block does with a byte and with a retirement. -/
def observe (tb : TbDifferentialTrace) (s : System) : TbDifferentialTrace :=
  { tb with
    uartBytes := if s.bus.uart.txValid then tb.uartBytes ++ [s.bus.uart.txData] else tb.uartBytes
    retireIndex := if s.cpu.retire.valid then tb.retireIndex + 1 else tb.retireIndex
    lines :=
      if s.cpu.retire.valid then tb.lines ++ [displayRetire tb.retireIndex s.cpu.retire]
      else tb.lines }

/-- The `always` block, on an edge without reset. -/
def clock (s : System) (tb : TbDifferentialTrace) : TbDifferentialTrace :=
  if tb.status ≠ .running then tb
  else if s.bus.uart.txValid ∧ tb.uartBytes.length ≥ uartCapacity then { tb with status := .fatal }
  else
    let next := tb.observe s
    -- the final lines print the variables as they were before the edge
    if tb.finalPending && s.cpu.halted then
      { next with
        lines := next.lines ++ [displayFinal "halted".toList tb.retireIndex tb.uartBytes s []]
        status := .finished }
    else if tb.finalPending && s.cpu.faulted then
      { next with
        lines := next.lines ++ [displayFinal "faulted".toList tb.retireIndex tb.uartBytes s
          (displayFault s.cpu.fault)]
        status := .finished }
    else if s.cpu.halted || s.cpu.faulted then { next with finalPending := true }
    else next

/-- The order of processes on the two edges where it matters. -/
structure Schedule where
  /-- The edge that releases the reset is seen without it. -/
  releaseFirst : Bool
  /-- The limit is checked on the last edge before the bench takes it. -/
  checkFirst : Bool

/-- The edges without reset that the bench takes before the limit is checked. -/
def Schedule.edges (order : Schedule) (maxCycles : ℕ) : ℕ :=
  maxCycles + (if order.releaseFirst then 1 else 0) - (if order.checkFirst then 1 else 0)

/-- The bench after `n` edges of a run of the system. -/
def run (s : ℕ → System) (n : ℕ) : TbDifferentialTrace := Clocked.run clock s initial n

/-- What the simulation prints, if it exits with 0: the check of the limit is fatal to a
bench that has not finished. -/
def simulate (order : Schedule) (maxCycles : ℕ) (s : ℕ → System) : Option (List Str) :=
  let tb := run s (order.edges maxCycles)
  if tb.status = .finished then some tb.lines else none

/-! ## What it has seen -/

/-- The bytes sent in the first `n` cycles. -/
def sent (s : ℕ → System) (n : ℕ) : List (BitVec 8) :=
  (List.range n).flatMap fun t => (s t).bus.transmitted

/-- The bytes of one more cycle. -/
theorem sent_succ (s : ℕ → System) (n : ℕ) :
    sent s (n + 1) = sent s n ++ (s n).bus.transmitted := by
  rw [sent, List.range_succ, List.flatMap_append, List.flatMap_singleton]
  rfl

/-- The retirements of the first `n` cycles. -/
abbrev retirements (s : ℕ → System) (n : ℕ) : List RetirePort :=
  Clocked.log (·.cpu.retired) s n

/-- The lines of the first `n` cycles. -/
def retireLines (s : ℕ → System) (n : ℕ) : List Str := (retirements s n).mapIdx displayRetire

/-- A bench that runs has seen the first `n` cycles. -/
structure Watches (s : ℕ → System) (n : ℕ) (tb : TbDifferentialTrace) : Prop where
  status : tb.status = .running
  retireIndex : tb.retireIndex = (retirements s n).length
  uartBytes : tb.uartBytes = sent s n
  finalPending : tb.finalPending = true ↔ ∃ t < n, (s t).Stopped
  lines : tb.lines = retireLines s n

section Edge

variable {s : ℕ → System} {n : ℕ} {tb : TbDifferentialTrace}

/-- One more cycle. -/
theorem Watches.observe (h : Watches s n tb) :
    (tb.observe (s n)).retireIndex = (retirements s (n + 1)).length ∧
      (tb.observe (s n)).uartBytes = sent s (n + 1) ∧
      (tb.observe (s n)).lines = retireLines s (n + 1) := by
  have hlog : retirements s (n + 1) = retirements s n ++ (s n).cpu.retired.toList :=
    Clocked.log_succ _ _ n
  refine ⟨?_, ?_, ?_⟩
  · rw [hlog]
    cases hv : (s n).cpu.retire.valid <;>
      simp [TbDifferentialTrace.observe, Rtl.CpuCore.retired, hv, h.retireIndex]
  · rw [sent_succ, SystemBus.transmitted]
    cases hv : (s n).bus.uart.txValid <;> simp [TbDifferentialTrace.observe, hv, h.uartBytes]
  · rw [retireLines, hlog]
    cases hv : (s n).cpu.retire.valid <;>
      simp [TbDifferentialTrace.observe, Rtl.CpuCore.retired, hv, h.retireIndex, h.lines,
        retireLines]

end Edge

/-! ## Whole simulations -/

section Run

variable {s : ℕ → System} {n : ℕ}

/-- One more edge of the bench. -/
theorem run_succ (s : ℕ → System) (n : ℕ) : run s (n + 1) = clock (s n) (run s n) := rfl

end Run

end TbDifferentialTrace
end Mini32.Verification
