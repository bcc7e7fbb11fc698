import Mini32.Lockstep.Board
import Mini32.Lockstep.Source

/-!
# Bring-up

`check_bringup_rom.py` compares the ROM file of the board with the assembly source it
came from.  `checked_board` says what a passed check is worth: the board, with that file in
its ROM, does what the source means.

## The check

`main` assembles and converts the source and compares the result with the checked-in file,
line by line.  The exceptions it catches are an outcome of their own; an `AssemblyError` is
not among them and ends the program.  A passed check says that the two texts have the same
lines and nothing about their line endings (`main_eq_passed`).

## The board

Python ends a line in places where `$readmemh` sees no blank, so the same lines need not be the
same words.  That the line breaks of the checked-in file are blanks is a condition of
`checked_board`; under it the file puts the image of the source into the ROM
(`readmemh_of_lines`), and the rest is the way from the source to the RTL and from there to the
board's pin and LEDs.
-/

namespace Mini32

open Py Fallible

/-! ## `check_bringup_rom.py` -/

namespace Toolchain.CheckBringupRom

/-- `zip_longest(expected, actual, fillvalue=None)` -/
def zipLongest : List Str → List Str → List (Option Str × Option Str)
  | [], actual => actual.map (none, some ·)
  | expected, [] => expected.map (some ·, none)
  | expectedLine :: expected, actualLine :: actual =>
      (some expectedLine, some actualLine) :: zipLongest expected actual

variable (repr : Option Str → Str)

/-- The report of a line that differs. -/
def difference (lineNumber : ℕ) (expectedLine actualLine : Option Str) : Str :=
  "line ".toList ++ decimal lineNumber ++ ": generated=".toList ++ repr expectedLine ++
    ", checked-in=".toList ++ repr actualLine

/-- The first line that differs, numbered from one. -/
def firstDifference (expected actual : List Str) : Option Str :=
  ((zipLongest expected actual).zipIdx 1).findSome? fun ((expectedLine, actualLine), lineNumber) =>
    if expectedLine ≠ actualLine then some (difference repr lineNumber expectedLine actualLine)
    else none

/-- An exception while the lines are read. -/
inductive ReadError
  /-- The `OSError` or the `UnicodeDecodeError` of `read_text`. -/
  | unreadable
  | toolchain (e : PyError)

/-- `read_text`, with the text of the file if it is there and decodes. -/
def readText : Option Str → Except ReadError Str
  | some text => .ok (universalNewlines text)
  | none => .error .unreadable

/-- The lines `generated` and `checked_in`. -/
def readLines (filename : Str) (source memh : Option Str) :
    Except ReadError (List Str × List Str) := do
  let text ← readText source
  let image ← (assembleText text filename).mapError .toolchain
  let generated ← (convertImage image).mapError .toolchain
  let checkedIn ← readText memh
  return (splitLines generated, splitLines checkedIn)

/-- What `main` reports, with its status. -/
inductive Verdict
  | passed (words : ℕ)
  | differs (difference : Str)
  | failed

/-- The exit status. -/
def Verdict.status : Verdict → ℕ
  | .passed _ => 0
  | .differs _ => 1
  | .failed => 2

/-- `except (OSError, ValueError)`: an `AssemblyError` is neither. -/
def ReadError.caught : ReadError → Except PyError Verdict
  | .unreadable | .toolchain (.valueError _) | .toolchain .conversion => .ok .failed
  | .toolchain e => .error e

/-- `main` -/
def main (filename : Str) (source memh : Option Str) : Except PyError Verdict :=
  match readLines filename source memh with
  | .error e => e.caught
  | .ok (generated, checkedIn) =>
      match firstDifference repr generated checkedIn with
      | some difference => .ok (.differs difference)
      | none => .ok (.passed checkedIn.length)

/-! ## A passed check -/

section Passed

variable {repr}

/-- Lists whose pairs are all equal are equal. -/
theorem forall_zipLongest {expected actual : List Str} :
    (∀ lines ∈ zipLongest expected actual, lines.1 = lines.2) ↔ expected = actual := by
  induction expected, actual using zipLongest.induct with
  | case1 actual =>
      cases actual with
      | nil => simp [zipLongest]
      | cons line lines => simp [zipLongest]
  | case2 expected hne =>
      cases expected with
      | nil => exact absurd rfl hne
      | cons line lines => simp [zipLongest]
  | case3 expectedLine expected actualLine actual ih =>
      rw [zipLongest, List.forall_mem_cons, ih, Option.some.injEq, List.cons.injEq]

/-- Texts without a first difference are equal. -/
theorem firstDifference_eq_none {expected actual : List Str} :
    firstDifference repr expected actual = none ↔ expected = actual := by
  rw [← forall_zipLongest, ← List.zipIdx_map_fst 1 (zipLongest expected actual),
    List.forall_mem_map, firstDifference, List.findSome?_eq_none_iff]
  refine forall₂_congr fun lines _ => ?_
  simp only [ne_eq, ite_not, ite_eq_left_iff, reduceCtorEq, imp_false, not_not]

/-- An error is renamed, a result is kept. -/
theorem mapError_eq_ok {α : Type} {x : Except PyError α} {a : α} :
    x.mapError ReadError.toolchain = .ok a ↔ x = .ok a := by
  cases x <;> simp [Except.mapError]

/-- The assembler only sees lines. -/
theorem assembleText_universalNewlines (text filename : Str) :
    assembleText (universalNewlines text) filename = assembleText text filename := by
  rw [assembleText, parseSource, splitLines_universalNewlines]
  rfl

variable {filename source memh : Str}

/-- The lines of two files that can be read. -/
theorem readLines_eq_ok {lines : List Str × List Str} :
    readLines filename (some source) (some memh) = .ok lines ↔
      ∃ image generated, assembleText source filename = .ok image ∧
        convertImage image = .ok generated ∧ (splitLines generated, splitLines memh) = lines := by
  simp only [readLines, readText, bind_eq_ok, mapError_eq_ok, pure, Except.pure, Except.ok.injEq,
    exists_eq_left', assembleText_universalNewlines, splitLines_universalNewlines,
    exists_and_left]

/-- No exception passes the check. -/
theorem caught_ne_passed (e : ReadError) (words : ℕ) : e.caught ≠ .ok (.passed words) := by
  cases e with
  | unreadable => simp [ReadError.caught]
  | toolchain e => cases e <;> simp [ReadError.caught]

/-- **When the check passes.** -/
theorem main_eq_passed {words : ℕ} :
    main repr filename (some source) (some memh) = .ok (.passed words) ↔
      ∃ image generated, assembleText source filename = .ok image ∧
        convertImage image = .ok generated ∧ splitLines generated = splitLines memh ∧
        (splitLines memh).length = words := by
  rw [main]
  constructor
  · intro h
    cases hlines : readLines filename (some source) (some memh) with
    | error e =>
        rw [hlines] at h
        exact absurd h (caught_ne_passed e words)
    | ok lines =>
        obtain ⟨image, generated, himage, hgenerated, rfl⟩ := readLines_eq_ok.mp hlines
        rw [hlines] at h
        refine ⟨image, generated, himage, hgenerated, ?_⟩
        cases hdifference : firstDifference repr (splitLines generated) (splitLines memh) with
        | some difference =>
            simp only [hdifference] at h
            cases h
        | none =>
            simp only [hdifference] at h
            exact ⟨firstDifference_eq_none.mp hdifference, Verdict.passed.inj (Except.ok.inj h)⟩
  · rintro ⟨image, generated, himage, hgenerated, hsame, rfl⟩
    rw [readLines_eq_ok.mpr ⟨image, generated, himage, hgenerated, rfl⟩]
    simp only [firstDifference_eq_none.mpr hsame]

/-- **What a passed check says of the ROM.**  With the blanks of `$readmemh` at its line
breaks, the file gives the ROM the words of the image. -/
theorem readmemh_of_lines {image : Cpp.Image} {generated : Str}
    (hgenerated : convertImage image.bytes = .ok generated)
    (hlines : splitLines generated = splitLines memh)
    (hbreaks : ∀ c ∈ memh, isLineBreak c = true → Rtl.isBlank c = true) :
    Rtl.readmemh memh = Rtl.readmemh generated := by
  obtain rfl := Except.ok.inj ((convertImage_ok image.words image.fits).symm.trans hgenerated)
  have hplain : ∀ l ∈ (romWords image.bytes).map (hex 8), l ≠ [] ∧
      ∀ c ∈ l, Rtl.isBlank c = false ∧ isLineBreak c = false := by
    intro l hl
    obtain ⟨n, -, rfl⟩ := List.mem_map.mp hl
    exact ⟨hex_ne_nil 8 n, fun c => mem_hex_plain⟩
  rw [splitLines_flatten fun l hl c hc => ((hplain l hl).2 c hc).2] at hlines
  have htokens : Rtl.tokens memh = (romWords image.bytes).map (hex 8) := by
    rw [Rtl.tokens, filter_splitOnP hbreaks, ← hlines]
    · exact List.filter_eq_self.mpr fun l hl => by simpa using (hplain l hl).1
    · rw [← hlines]
      exact fun l hl c hc => ((hplain l hl).2 c hc).1
  funext memory i
  rw [Rtl.readmemh, Rtl.readmemh, htokens, Rtl.tokens_flatten (fun l hl => (hplain l hl).1)
    fun l hl c hc => ((hplain l hl).2 c hc).1]

end Passed

end Toolchain.CheckBringupRom

/-! ## The board -/

namespace Lockstep

open Toolchain Source
open Rtl (Board Button FpgaPlatform readmemh isBlank)

/-- The LED of a fault. -/
def faultLed : Ending → Bool
  | .running | .halted => false
  | .faulted _ _ => true

/-- **The board after a program**, over the states after the last reset edge. -/
structure Performs {depth clks : ℕ} (result : Result Isa.Memory) (s : ℕ → Board depth clks)
    (stop : ℕ) : Prop where
  follows : ∀ n ≥ stop, Follows result Board.gpioInput (fun i => (s i).platform.system) n
  leds : ∀ n ≥ stop, (s n).led = ~~~Board.ledOn result.bus.gpioDirection result.bus.gpioOutput
    (result.ending = .halted) (faultLed result.ending) (s n).platform.uartOverflow
  serial : FpgaPlatform.Serves result.bus.uartTx (fun n => (s n).platform) stop

/-- What the core says once the program has ended. -/
theorem leds_of_ending {ending : Ending} {cpu : Cpp.CpuCore} (h : ending.Is cpu) :
    cpu.halted = decide (ending = .halted) ∧ cpu.faulted = faultLed ending := by
  cases ending with
  | running =>
      have hm : cpu.microstate = .fetch := h
      simp [Cpp.CpuCore.halted, Cpp.CpuCore.faulted, hm, faultLed]
  | halted =>
      have hm : cpu.microstate = .halted := h
      simp [Cpp.CpuCore.halted, Cpp.CpuCore.faulted, hm, faultLed]
  | faulted code dataAddress =>
      obtain ⟨hm, -⟩ := h
      simp [Cpp.CpuCore.halted, Cpp.CpuCore.faulted, hm, faultLed]

section Checked

variable {repr : Option Str → Str} {source filename memh : Str} {words depth clks t : ℕ}
  {buttons : ℕ → Button} {powerUp : Board depth clks} {contents : BitVec 14 → Word}

variable (powerUp) in
/-- **A checked ROM file on the board.**  If the check passes, the source has a program,
and the board with that file in its ROM does what the program means: from any power-up
state and with any presses before the last one, once the program has ended the machine
is in the state the program leaves, the LEDs show its outputs and how it ended, and the
pin sends its transcript. -/
theorem checked_board
    (hcheck : CheckBringupRom.main repr filename (some source) (some memh) = .ok (.passed words))
    (hbreaks : ∀ c ∈ memh, isLineBreak c = true → isBlank c = true)
    (hrom : powerUp.platform.system.bus.rom.memory = readmemh memh contents)
    (hdepth : 0 < depth) (hclks : 0 < clks) (hpress : buttons t ≠ .released)
    (hquiet : ∀ i > t, buttons i = .released) :
    ∃ p, read source = some p ∧ ∀ limit result,
      p.run Isa.Memory.busModel limit start
        ((Board.run buttons powerUp (t + (buttons t).resetEdges + 1)).platform.system.bus.memory []
          Board.gpioInput) = result →
      result.ending ≠ .running →
      ∃ stop, Performs result
        (fun n => Board.run buttons powerUp (t + (buttons t).resetEdges + 1 + n)) stop := by
  obtain ⟨binary, generated, hasm, hgenerated, hlines, -⟩ :=
    CheckBringupRom.main_eq_passed.mp hcheck
  obtain ⟨image, rfl⟩ := exists_image hgenerated
  obtain ⟨p, hread, -, hholds⟩ := exists_holds hasm
  refine ⟨p, hread, ?_⟩
  intro limit result hresult hended
  rw [CheckBringupRom.readmemh_of_lines hgenerated hlines hbreaks] at hrom
  -- the simulator starts with what the last reset edge leaves
  obtain ⟨ram, himage, hmemory⟩ : ∃ ram, SameImage (imageRom image) ram
      (Board.run buttons powerUp (t + (buttons t).resetEdges + 1)).platform.system ∧
      (Board.run buttons powerUp (t + (buttons t).resetEdges + 1)).platform.system.bus.memory []
        Board.gpioInput = (simulatorBus (imageRom image) ram Board.gpioInput).memory := by
    have hstart := Board.platform_after_press powerUp hpress hquiet 0
    rw [Nat.add_zero] at hstart
    rw [hstart]
    have hkept := (Board.rom_run buttons powerUp (t + (buttons t).resetEdges)).trans hrom
    have himage := sameImage_memh hgenerated hkept Board.gpioInput
    exact ⟨_, himage, (agree_start Board.gpioInput himage).memory⟩
  obtain ⟨records, cpu, bus, hloop, hreports⟩ := run_reports limit .construct
    (simulatorBus (imageRom image) ram Board.gpioInput) rfl (hholds _ fun _ => rfl)
  have hreset : Cpp.CpuCore.construct.arch = start := rfl
  rw [hreset, ← hmemory, hresult] at hreports
  have hshows := board_shows hdepth hclks hpress hquiet himage hloop
    (stopped_of_ending hreports.ending hended)
  refine ⟨boundaryCycle records cpu, fun n hn => ?_, fun n hn => ?_, ?_⟩
  · exact follows_of_boundary (hshows.boundary n hn) hreports
  · obtain ⟨hhalted, hfaulted⟩ := leds_of_ending hreports.ending
    rw [hshows.leds n hn, hhalted, hfaulted, ← hreports.memory]
    rfl
  · rw [← hreports.memory]
    exact hshows.serial

end Checked

/-- The ROM file of the countdown. -/
def countdownMemh : Str := (((romWords countdownImage.bytes).map (hex 8)).map (· ++ ['\n'])).flatten

/-- The platform with the countdown in its ROM. -/
def countdownPlatform : FpgaPlatform 1 3 :=
  { letterPlatform with system := loaded (imageRom countdownImage) .fresh }

/-- The board counts down and lights the LED of a halted machine. -/
theorem checked_board_countdown : ∃ stop, ∀ n ≥ stop,
    (Board.run (Board.pressedOnce .held 0) ⟨⟨3⟩, countdownPlatform⟩ (0 + 2 + 1 + n)).led =
      0b101111 := by
  have hasm : assembleText countdown [] = .ok countdownImage.bytes := by decide +kernel
  have hgenerated : convertImage countdownImage.bytes = .ok countdownMemh :=
    convertImage_ok countdownImage.words countdownImage.fits
  have hcheck : CheckBringupRom.main (fun _ => []) [] (some countdown) (some countdownMemh) =
      .ok (.passed (splitLines countdownMemh).length) :=
    CheckBringupRom.main_eq_passed.mpr ⟨_, _, hasm, hgenerated, rfl, rfl⟩
  have hbreaks : ∀ c ∈ countdownMemh, isLineBreak c = true → isBlank c = true := by
    intro c hc hbreak
    obtain ⟨line, hline, hc⟩ := List.mem_flatten.mp hc
    simp only [List.mem_map] at hline
    obtain ⟨_, ⟨word, -, rfl⟩, rfl⟩ := hline
    rcases List.mem_append.mp hc with hc | hc
    · rw [(mem_hex_plain hc).2] at hbreak
      cases hbreak
    · rw [List.mem_singleton.mp hc]
      rfl
  have hrom : countdownPlatform.system.bus.rom.memory = readmemh countdownMemh fun _ => 0 := by
    funext i
    rw [countdownMemh, readmemh_convertImage countdownImage.words _ i]
    rfl
  have hquiet : ∀ i > 0, Board.pressedOnce .held 0 i = .released := fun i hi => if_neg (by omega)
  obtain ⟨p, hread, hruns⟩ := checked_board ⟨⟨3⟩, countdownPlatform⟩ hcheck hbreaks hrom
    Nat.one_pos (by decide) (by decide) hquiet
  obtain rfl := Option.some.inj (read_countdown.symm.trans hread)
  obtain ⟨stop, hperforms⟩ := hruns 10 _ rfl (by decide +kernel)
  refine ⟨stop, fun n hn => (hperforms.leds n hn).trans ?_⟩
  rw [hperforms.serial.roomy (by decide +kernel) n]
  decide +kernel

end Lockstep
end Mini32
