import Mini32.Rtl.PlatformReset

/-!
# The board

`tang_nano_20k_top`: the platform behind `reset_sync`, with a reset button, the serial
pin and six LEDs.

## The button and the clock

`reset_sync` is asserted asynchronously and released two edges later, so a cycle is the
time up to an edge and `Button` says what the button did in it: nothing, a press that was
over before the edge, or one that lasted to it.  Both presses clear `release_sync` between
two edges; the one that lasts keeps it clear at the edge.  The flip-flops behind `reset_sync`
see its output at the edge alone.

## What a press does

`platform_after_press` says when the last press of a run lets go, and
`press_erases_history` that the board does not remember anything from before: two boards
with the same ROM, and the same RAM after the last reset edge, agree on pin and LEDs ever
after, whatever they were doing.  No reset clears the RAM.
-/

namespace Mini32.Rtl

/-- What the button does in a cycle. -/
inductive Button
  | released
  /-- Pressed for some time, but let go before the edge. -/
  | pulsed
  /-- Pressed at the edge. -/
  | held
  deriving DecidableEq, Repr

/-- `reset_sync` -/
structure ResetSync where
  releaseSync : BitVec 2
  deriving DecidableEq, Repr

namespace ResetSync

/-- What the flip-flops hold right before the edge; a press clears them at once. -/
def settled (button : Button) (r : ResetSync) : ResetSync :=
  match button with
  | .released => r
  | .pulsed | .held => ⟨0⟩

/-- `reset`, high until the second edge after a release. -/
def reset (r : ResetSync) : Bool := !r.releaseSync.getLsbD 1

/-- The edge shifts in a one. -/
def clock (button : Button) (r : ResetSync) : ResetSync :=
  match button with
  | .held => ⟨0⟩
  | .released | .pulsed => ⟨(r.settled button).releaseSync.extractLsb' 0 1 ++ 1#1⟩

/-- A press asserts `reset` at once. -/
theorem reset_settled {button : Button} (h : button ≠ .released) (r : ResetSync) :
    (r.settled button).reset = true := by
  cases button with
  | released => exact absurd rfl h
  | pulsed | held => simp [settled, reset]

/-- A press that ends before the edge leaves one edge of reset after this one. -/
theorem clock_pulsed (r : ResetSync) : r.clock .pulsed = ⟨1⟩ :=
  congrArg ResetSync.mk (show (0#2).extractLsb' 0 1 ++ 1#1 = 1#2 by decide)

/-- A press is forgotten in two edges. -/
theorem clock_released : (⟨0⟩ : ResetSync).clock .released = ⟨1⟩ ∧
    (⟨1⟩ : ResetSync).clock .released = ⟨3⟩ ∧ (⟨3⟩ : ResetSync).clock .released = ⟨3⟩ := by
  decide

end ResetSync

/-- `tang_nano_20k_top`: `reset_sync`, which the source keeps inside the platform, and the rest. -/
structure Board (depth clks : ℕ) where
  resetSync : ResetSync
  platform : FpgaPlatform depth clks

/-- The edges with reset that follow the cycle of a press. -/
def Button.resetEdges : Button → ℕ
  | .released => 0
  | .pulsed => 1
  | .held => 2

namespace Board

variable {depth clks : ℕ}

/-- The reset of the platform at the edge. -/
def reset (button : Button) (b : Board depth clks) : Bool := (b.resetSync.settled button).reset

/-- The pins of the platform are tied to zero. -/
def gpioInput : Word := 0

/-- The rising edge. -/
def clock (button : Button) (b : Board depth clks) : Board depth clks where
  resetSync := b.resetSync.clock button
  platform := b.platform.clock (b.reset button) gpioInput

/-- `uart_tx` -/
def uartTx (b : Board depth clks) : Bool := b.platform.outputs.uartTx

/-- `led_on` from the ports of the platform: LEDs 0 to 3 show configured GPIO outputs. -/
def ledOn (gpioDirection gpioOutput : Word) (halted faulted uartOverflow : Bool) : BitVec 6 :=
  BitVec.ofBoolListLE
    [gpioDirection.getLsbD 0 && gpioOutput.getLsbD 0,
      gpioDirection.getLsbD 1 && gpioOutput.getLsbD 1,
      gpioDirection.getLsbD 2 && gpioOutput.getLsbD 2,
      gpioDirection.getLsbD 3 && gpioOutput.getLsbD 3,
      halted, faulted || uartOverflow]

/-- The LEDs are active-low. -/
def led (b : Board depth clks) : BitVec 6 :=
  let ports := b.platform.outputs
  ~~~ledOn ports.gpioDirection ports.gpioOutput ports.halted ports.faulted ports.uartOverflow

/-- A run from any power-up state. -/
def run (buttons : ℕ → Button) (powerUp : Board depth clks) : ℕ → Board depth clks :=
  Clocked.run clock buttons powerUp

section Run

variable {buttons : ℕ → Button} {powerUp : Board depth clks} {t : ℕ}

/-- One more cycle of a run. -/
theorem run_succ (t : ℕ) :
    run buttons powerUp (t + 1) = (run buttons powerUp t).clock (buttons t) := rfl

/-! ## The reset after a press -/

/-- What the flip-flops hold after so many edges behind the edge of a press. -/
def releaseAfter : Button → ℕ → ResetSync
  | .held, 0 => ⟨0⟩
  | .held, 1 | .pulsed, 0 => ⟨1⟩
  | _, _ => ⟨3⟩

/-- The flip-flops fill up while the button is released. -/
theorem resetSync_after_press (hpress : buttons t ≠ .released)
    (hquiet : ∀ i > t, buttons i = .released) (n : ℕ) :
    (run buttons powerUp (t + 1 + n)).resetSync = releaseAfter (buttons t) n := by
  obtain ⟨hempty, hhalf, hfull⟩ := ResetSync.clock_released
  induction n with
  | zero =>
      rw [Nat.add_zero, run_succ, clock]
      cases hb : buttons t with
      | released => exact absurd hb hpress
      | pulsed => exact ResetSync.clock_pulsed _
      | held => rfl
  | succ n ih =>
      rw [← Nat.add_assoc, run_succ, clock, ih, hquiet _ (by omega)]
      cases hb : buttons t with
      | released => exact absurd hb hpress
      | pulsed =>
          cases n with
          | zero => exact hhalf
          | succ n => exact hfull
      | held =>
          match n with
          | 0 => exact hempty
          | 1 => exact hhalf
          | n + 2 => exact hfull

/-- **When a press lets go**: its own edge and the next one or two are resets, and no more. -/
theorem reset_after_press (hpress : buttons t ≠ .released)
    (hquiet : ∀ i > t, buttons i = .released) {i : ℕ} (hi : t ≤ i) :
    (run buttons powerUp i).reset (buttons i) = true ↔ i ≤ t + (buttons t).resetEdges := by
  obtain ⟨n, rfl⟩ := Nat.exists_eq_add_of_le hi
  cases n with
  | zero =>
      exact iff_of_true (ResetSync.reset_settled hpress _) (Nat.le_add_right _ _)
  | succ n =>
      rw [reset, hquiet _ (by omega), ResetSync.settled,
        show t + (n + 1) = t + 1 + n by omega, resetSync_after_press hpress hquiet]
      cases hb : buttons t with
      | released => exact absurd hb hpress
      | pulsed =>
          cases n with
          | zero => simp [releaseAfter, ResetSync.reset, Button.resetEdges]
          | succ n => simp [releaseAfter, ResetSync.reset, Button.resetEdges]
      | held =>
          match n with
          | 0 => simp [releaseAfter, ResetSync.reset, Button.resetEdges]
          | 1 => simp [releaseAfter, ResetSync.reset, Button.resetEdges]
          | n + 2 =>
              simp only [releaseAfter, ResetSync.reset, Button.resetEdges]
              refine iff_of_false (by decide) (by omega)

variable (powerUp) in
/-- **After the last press the platform runs as after a reset.** -/
theorem platform_after_press (hpress : buttons t ≠ .released)
    (hquiet : ∀ i > t, buttons i = .released) (n : ℕ) :
    (run buttons powerUp (t + (buttons t).resetEdges + 1 + n)).platform =
      FpgaPlatform.run (fun _ => gpioInput) gpioInput
        (run buttons powerUp (t + (buttons t).resetEdges)).platform n := by
  induction n with
  | zero =>
      rw [Nat.add_zero, run_succ, clock, (reset_after_press hpress hquiet (by omega)).mpr le_rfl]
      rfl
  | succ n ih =>
      have hreset : (run buttons powerUp (t + (buttons t).resetEdges + 1 + n)).reset
          (buttons (t + (buttons t).resetEdges + 1 + n)) = false := by
        rw [← Bool.not_eq_true, reset_after_press hpress hquiet (by omega)]
        omega
      rw [← Nat.add_assoc, run_succ, clock, hreset, ih]
      rfl

/-! ## The history -/

variable (buttons powerUp) in
/-- The ROM is never written. -/
theorem rom_run (t : ℕ) : (run buttons powerUp t).platform.system.bus.rom.memory =
    powerUp.platform.system.bus.rom.memory := by
  induction t with
  | zero => rfl
  | succ t ih =>
      rw [run_succ, ← ih]
      simp only [clock, FpgaPlatform.clock, System.clock]
      cases (run buttons powerUp t).reset (buttons t) with
      | true => simp [SystemBus.clock]
      | false => simp

end Run

/-- Boards whose platforms show the same ports look the same. -/
theorem outputs_congr {b b' : Board depth clks} (h : b.platform.outputs = b'.platform.outputs) :
    b.uartTx = b'.uartTx ∧ b.led = b'.led := by
  simp only [uartTx, led, h, and_self]

/-- Platforms that are alike after the reset edge are alike in the whole run. -/
theorem alike_run {s s' : FpgaPlatform depth clks} {pins : ℕ → Word} {resetPins : Word}
    (h : FpgaPlatform.Alike (s.clock true resetPins) (s'.clock true resetPins)) (n : ℕ) :
    FpgaPlatform.Alike (FpgaPlatform.run pins resetPins s n)
      (FpgaPlatform.run pins resetPins s' n) := by
  induction n with
  | zero => exact h
  | succ n ih => exact ih.clock (pins n)

/-- **A press erases the history.**  Whatever two boards with the same ROM did before,
and however the button was pressed, counted from the last reset edge their pins
and LEDs agree in every cycle, if that edge leaves the same RAM in both. -/
theorem press_erases_history (b b' : Board depth clks) {buttons buttons' : ℕ → Button} {t t' : ℕ}
    (hpress : buttons t ≠ .released) (hquiet : ∀ i > t, buttons i = .released)
    (hpress' : buttons' t' ≠ .released) (hquiet' : ∀ i > t', buttons' i = .released)
    (hrom : b.platform.system.bus.rom.memory = b'.platform.system.bus.rom.memory)
    (hram : (run buttons b (t + (buttons t).resetEdges + 1)).platform.system.bus.ram.memory =
      (run buttons' b' (t' + (buttons' t').resetEdges + 1)).platform.system.bus.ram.memory)
    (n : ℕ) :
    (run buttons b (t + (buttons t).resetEdges + 1 + n)).uartTx =
        (run buttons' b' (t' + (buttons' t').resetEdges + 1 + n)).uartTx ∧
      (run buttons b (t + (buttons t).resetEdges + 1 + n)).led =
        (run buttons' b' (t' + (buttons' t').resetEdges + 1 + n)).led := by
  have hstart := platform_after_press b hpress hquiet 0
  have hstart' := platform_after_press b' hpress' hquiet' 0
  rw [Nat.add_zero] at hstart hstart'
  rw [hstart, hstart'] at hram
  apply outputs_congr
  rw [platform_after_press b hpress hquiet, platform_after_press b' hpress' hquiet']
  refine (alike_run (FpgaPlatform.alike_reset _ _ _ _ ?_ hram) n).outputs_eq
  rw [rom_run, rom_run, hrom]

/-- The button does one thing in one cycle. -/
def pressedOnce (press : Button) (t : ℕ) : ℕ → Button := fun i => if i = t then press else .released

/-- A board in the middle of a frame. -/
def midFrame : Board 1 1 := ⟨⟨3⟩, FpgaPlatform.midFrame⟩

/-- A board right after power-up. -/
def unused : Board 1 1 := ⟨⟨0⟩, FpgaPlatform.loaded 1 1 FpgaPlatform.oneByte⟩

/-- The button is held for one edge on the one, and pressed between two edges on the other. -/
theorem press_erases_midFrame : ∃ start start', ∀ n,
    (run (pressedOnce .held 0) midFrame (start + n)).led =
      (run (pressedOnce .pulsed 5) unused (start' + n)).led := by
  have hquiet : ∀ i > 0, pressedOnce .held 0 i = .released := fun i hi => if_neg (by omega)
  have hquiet' : ∀ i > 5, pressedOnce .pulsed 5 i = .released := fun i hi => if_neg (by omega)
  have hram : (run (pressedOnce .held 0) midFrame 3).platform.system.bus.ram.memory =
      (run (pressedOnce .pulsed 5) unused 7).platform.system.bus.ram.memory := by
    rfl
  have herases := press_erases_history midFrame unused (by decide) hquiet (by decide)
    hquiet' rfl hram
  exact ⟨_, _, fun n => (herases n).2⟩

end Board
end Mini32.Rtl
