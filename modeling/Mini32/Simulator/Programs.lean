import Mini32.Simulator.RefTrace

/-!
# The programs over the core

`mini32_sim` (`main.cpp`) and `ref_trace` (`ref_trace.cpp`), from their arguments
to their exit status.  Both take a ROM image and an instruction limit, put the
image into a fresh computer and call `step` in a loop.

## The loops

The loop of `mini32_sim` looks at the retired instructions before each call and leaves when a
call answers `Halted`; that of `ref_trace` counts the calls.  A core that faults or halts ends
either.  The loop of `mini32_sim` has no bound of its own and is run on fuel.

## Input and output

A file is the list of its bytes, or `none` if it cannot be opened; that an opened file cannot
be read to its end is left out.  The output is a text, but for the standard output of
`mini32_sim`, which is what the program under it sends to the UART.
-/

namespace Mini32.Cpp

/-- What a program prints. -/
abbrev Text := List Char

/-- A ROM image that both programs take: whole words, and not more than fit. -/
structure Image where
  bytes : List (BitVec 8)
  fits : bytes.length ≤ Rom.kSizeBytes
  words : bytes.length % 4 = 0

/-- What a program leaves: its output and its exit status. -/
structure Exit (Output : Type) where
  stdout : Output
  stderr : Text
  status : ℕ

/-! ## What the programs share -/

/-- `kDefaultInstructionLimit` of both programs. -/
def kDefaultInstructionLimit : ℕ := 1000000

/-- `usage`, which `main.cpp` calls `print_usage`. -/
def usage (executable : Text) : Text :=
  "Usage: ".toList ++ executable ++ " <rom-image> [--max-instructions N]\n".toList

/-- A limit is a run of decimal digits that fits into 64 bits. -/
def parseLimit (text : Text) : Option ℕ :=
  if text ≠ [] ∧ text.all Char.isDigit then
    let parsed := text.foldl (fun value digit => 10 * value + (digit.toNat - '0'.toNat)) 0
    if parsed < 2 ^ 64 then some parsed else none
  else none

/-- The path of the image and the limit. -/
def parseArguments : List Text → Option (Text × ℕ)
  | [_, path] => some (path, kDefaultInstructionLimit)
  | [_, path, option, text] =>
      if option = "--max-instructions".toList then (parseLimit text).map (path, ·) else none
  | _ => none

/-- An integer as `operator<<` prints it. -/
def decimal (value : ℕ) : Text := Nat.toDigits 10 value

/-- `hex32`: eight digits. -/
def hex32 (value : Word) : Text := (Nat.toDigits 16 value.toNat).leftpad 8 '0'

/-- `fault_name` -/
def faultName : CpuFault → Text
  | .none => "None".toList
  | .misalignedInstructionFetch => "MisalignedInstructionFetch".toList
  | .unmappedInstructionFetch => "UnmappedInstructionFetch".toList
  | .nonExecutableInstructionFetch => "NonExecutableInstructionFetch".toList
  | .illegalInstruction => "IllegalInstruction".toList
  | .malformedInstruction => "MalformedInstruction".toList
  | .unsupportedInstruction => "UnsupportedInstruction".toList
  | .misalignedLoad => "MisalignedLoad".toList
  | .misalignedStore => "MisalignedStore".toList
  | .unmappedLoad => "UnmappedLoad".toList
  | .unmappedStore => "UnmappedStore".toList
  | .readOnlyStore => "ReadOnlyStore".toList

/-- The computer around a loaded image.  `load_bytes` throws if the image does not fit. -/
def computer (image : Image) : Except Hazard Bus :=
  match Rom.fresh.loadBytes 0 image.bytes with
  | some rom => .ok (.fresh rom 0)
  | none => .error .outOfRange

/-! ## `mini32_sim` -/

namespace Mini32Sim

/-- How `main` ends once the computer runs. -/
inductive Report
  | limitExceeded (retired : ℕ)
  | halted (retired : ℕ)
  | fault (info : FaultInfo)
  deriving DecidableEq, Repr

/-- The loop of `main`. -/
def mainLoop (instructionLimit : ℕ) : ℕ → CpuCore → Bus → Except Hazard (Report × CpuCore × Bus)
  | 0, _, _ => .error .outOfFuel
  | fuel + 1, cpu, bus =>
      if !cpu.halted && !cpu.faulted then
        if cpu.retiredInstructions ≥ instructionLimit then
          .ok (.limitExceeded cpu.retiredInstructions, cpu, bus)
        else do
          let (result, cpu, bus) ← cpu.step bus
          if result = .halted then return (.halted cpu.retiredInstructions, cpu, bus)
          else mainLoop instructionLimit fuel cpu bus
      else .ok (.fault cpu.faultInfo, cpu, bus)

/-- The computer of `main` and the loop on it. -/
def run (fuel : ℕ) (image : Image) (instructionLimit : ℕ) :
    Except Hazard (Report × CpuCore × Bus) := do
  let bus ← computer image
  mainLoop instructionLimit fuel CpuCore.construct bus

/-- `print_hex` -/
def printHex (label : Text) (value : Word) : Text :=
  label ++ "0x".toList ++ hex32 value ++ ['\n']

/-- What is printed to `stderr`. -/
def Report.text : Report → Text
  | .limitExceeded retired =>
      "instruction limit exceeded after ".toList ++ decimal retired ++ " instructions\n".toList
  | .halted retired =>
      "CPU halted after ".toList ++ decimal retired ++ " instructions\n".toList
  | .fault info =>
      "Mini32 fault: ".toList ++ faultName info.code ++ ['\n'] ++ printHex "PC: ".toList info.pc ++
        printHex "instruction: ".toList info.instruction ++
        (info.dataAddress.map (printHex "data address: ".toList)).getD []

/-- The exit status of `main`. -/
def Report.status : Report → ℕ
  | .halted _ => 0
  | _ => 1

/-- The checks on the image, with the message of the one that fails. -/
def loadImage (path : Text) : Option (List (BitVec 8)) → Except Text Image
  | none => .error ("unable to open ROM image: ".toList ++ path ++ ['\n'])
  | some bytes =>
      if hsize : bytes.length > Rom.kSizeBytes then
        .error ("ROM image must be at most ".toList ++ decimal Rom.kSizeBytes ++ " bytes\n".toList)
      else if hwords : bytes.length % 4 ≠ 0 then
        .error "ROM image size must be divisible by 4 bytes\n".toList
      else .ok ⟨bytes, not_lt.mp hsize, not_not.mp hwords⟩

/-- The whole program; a UART byte goes to `stdout` as it is written. -/
def main (fuel : ℕ) (readFile : Text → Option (List (BitVec 8))) (argv : List Text) :
    Except Hazard (Exit (List (BitVec 8))) :=
  match parseArguments argv with
  | none => .ok { stdout := [], stderr := usage (argv.headD []), status := 2 }
  | some (path, instructionLimit) =>
      match loadImage path (readFile path) with
      | .error message => .ok { stdout := [], stderr := message, status := 2 }
      | .ok image => do
          let (report, _, bus) ← run fuel image instructionLimit
          return { stdout := bus.uart.txBytes, stderr := report.text, status := report.status }

end Mini32Sim

/-! ## `ref_trace` -/

namespace RefTrace

/-- What the last line of a trace reports. -/
structure FinalRecord where
  halted : Bool
  pc : Word
  retired : ℕ
  uartTx : List (BitVec 8)
  debugValue : Word
  gpioOutput : Word
  gpioDirection : Word
  timerCounter : Word
  timerCompare : Word
  timerControl : Word
  fault : Option FaultInfo
  deriving DecidableEq, Repr

/-- There is a final record unless the limit ended the loop. -/
def finalRecord (cpu : CpuCore) (bus : Bus) : Option FinalRecord :=
  if !cpu.halted && !cpu.faulted then none
  else some
    { halted := cpu.halted, pc := cpu.pc, retired := cpu.retiredInstructions
      uartTx := bus.uart.txBytes, debugValue := bus.debug.value, gpioOutput := bus.gpio.output
      gpioDirection := bus.gpio.direction, timerCounter := bus.timer.counter
      timerCompare := bus.timer.compare, timerControl := if bus.timer.enabled then 1 else 0
      fault := if cpu.faulted then some cpu.faultInfo else none }

/-- The computer of `main` and the loop on it. -/
def run (image : Image) (limit : ℕ) : Except TraceError (List RetireRecord × CpuCore × Bus) := do
  let bus ← (computer image).mapError .hazard
  traceLoop limit CpuCore.construct bus

/-- `hex_bytes`: two digits for each byte. -/
def hexBytes (bytes : List (BitVec 8)) : Text :=
  bytes.flatMap fun byte => (Nat.toDigits 16 byte.toNat).leftpad 2 '0'

/-- How a flag is printed. -/
def printBool (value : Bool) : Text := if value then "true".toList else "false".toList

/-- `emit_retire`; `\x7b` and `\x7d` are the braces. -/
def emitRetire (r : RetireRecord) : Text :=
  "\x7b\"type\":\"retire\",\"index\":".toList ++ decimal r.index ++
  ",\"pc\":\"".toList ++ hex32 r.pc ++ "\",\"instruction\":\"".toList ++ hex32 r.instruction ++
  "\",\"next_pc\":\"".toList ++ hex32 r.nextPc ++ "\",\"reg_write\":".toList ++
  printBool r.registerWrite.isSome ++ ",\"rd\":".toList ++
  decimal (r.registerWrite.map (·.toNat) |>.getD 0) ++
  ",\"reg_value\":\"".toList ++ hex32 r.registerValue ++ "\",\"mem_write\":".toList ++
  printBool r.memoryWrite ++ ",\"mem_addr\":\"".toList ++ hex32 r.memoryAddress ++
  "\",\"mem_value\":\"".toList ++ hex32 r.memoryValue ++ "\"\x7d\n".toList

/-- The fault fields at the end of a final record. -/
def emitFault (info : FaultInfo) : Text :=
  ",\"fault\":\"".toList ++ faultName info.code ++ "\",\"fault_pc\":\"".toList ++ hex32 info.pc ++
  "\",\"fault_instruction\":\"".toList ++ hex32 info.instruction ++
  "\",\"fault_address_valid\":".toList ++ printBool info.dataAddress.isSome ++
  ",\"fault_address\":\"".toList ++ hex32 (info.dataAddress.getD 0) ++ "\"".toList

/-- The line that `main` prints last. -/
def emitFinal (r : FinalRecord) : Text :=
  "\x7b\"type\":\"final\",\"status\":\"".toList ++
  (if r.halted then "halted".toList else "faulted".toList) ++
  "\",\"pc\":\"".toList ++ hex32 r.pc ++ "\",\"retired\":".toList ++
  decimal r.retired ++ ",\"uart_tx\":\"".toList ++ hexBytes r.uartTx ++
  "\",\"debug_value\":\"".toList ++ hex32 r.debugValue ++
  "\",\"gpio_output\":\"".toList ++ hex32 r.gpioOutput ++
  "\",\"gpio_direction\":\"".toList ++ hex32 r.gpioDirection ++
  "\",\"timer_counter\":\"".toList ++ hex32 r.timerCounter ++
  "\",\"timer_compare\":\"".toList ++ hex32 r.timerCompare ++
  "\",\"timer_control\":\"".toList ++ hex32 r.timerControl ++ "\"".toList ++
  (r.fault.map emitFault).getD [] ++ "\x7d\n".toList

/-- `load_image` -/
def loadImage : Option (List (BitVec 8)) → Option Image
  | none => none
  | some bytes =>
      if h : bytes.length > Rom.kSizeBytes ∨ bytes.length % 4 ≠ 0 then none
      else some ⟨bytes, not_lt.mp (not_or.mp h).1, not_not.mp (not_or.mp h).2⟩

/-- What the program prints of a run, and its exit status. -/
def report (records : List RetireRecord) : Option FinalRecord → Exit Text
  | none =>
      { stdout := records.flatMap emitRetire
        stderr := "reference trace instruction limit reached\n".toList, status := 3 }
  | some final =>
      { stdout := records.flatMap emitRetire ++ emitFinal final, stderr := [], status := 0 }

/-- The whole program.  A changed second register is an error of the loop here; the source
prints a message and exits with 3. -/
def main (readFile : Text → Option (List (BitVec 8))) (argv : List Text) :
    Except TraceError (Exit Text) :=
  match parseArguments argv with
  | none => .ok { stdout := [], stderr := usage (argv.headD []), status := 2 }
  | some (path, limit) =>
      match loadImage (readFile path) with
      | none =>
          .ok { stdout := [], status := 2, stderr :=
            "ROM image must exist, be <= 65536 bytes, and contain whole words\n".toList }
      | some image => do
          let (records, cpu, bus) ← run image limit
          return report records (finalRecord cpu bus)

end RefTrace

end Mini32.Cpp
