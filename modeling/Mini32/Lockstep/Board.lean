import Mini32.Lockstep.Delivery
import Mini32.Rtl.Board

/-!
# What the board shows

After a press of its button the board does what the simulator does with the same
image: the pin sends the simulator's transcript, and once the program has ended the
LEDs show the simulator's GPIO outputs and how it ended (`board_shows`).

Nothing is proved about instructions here.  Behind the last reset edge the board is the
platform after a reset (`platform_after_press`), the platform's system is the RTL system, and
that one is in lockstep with the simulator; the cycle in which the program ends is the one its
reference trace says.  What is left is to read the outputs at that boundary.
-/

namespace Mini32.Lockstep

open Rtl (Board Button FpgaPlatform System)

/-- **The board at the end of a program**, over the states after the last reset edge. -/
structure Shows {depth clks : ℕ} (records : List Cpp.RetireRecord) (cpu : Cpp.CpuCore)
    (bus : Cpp.Bus) (s : ℕ → Board depth clks) (stop : ℕ) : Prop where
  /-- The program ends in this cycle. -/
  ends : ∀ n, (s n).platform.system.Stopped ↔ stop ≤ n
  boundary : ∀ n ≥ stop, Boundary records cpu bus Board.gpioInput
    (fun i => (s i).platform.system) n
  /-- From then on the LEDs say how, and what was dropped on the way to the pin. -/
  leds : ∀ n ≥ stop, (s n).led = ~~~Board.ledOn bus.gpio.direction bus.gpio.output cpu.halted
    cpu.faulted (s n).platform.uartOverflow
  serial : FpgaPlatform.Serves bus.uart.txBytes (fun n => (s n).platform) stop

section Board

variable {depth clks : ℕ} {rom : Cpp.Rom} {ram : Cpp.Ram} {records : List Cpp.RetireRecord}
  {cpu : Cpp.CpuCore} {bus : Cpp.Bus} {limit t : ℕ} {buttons : ℕ → Button}
  {powerUp : Board depth clks}

/-- **The board does what the simulator does.**  From any power-up state, with any
presses before the last one: if the image and the RAM contents after its last reset
edge are the simulator's, and the simulator's program ends. -/
theorem board_shows (hdepth : 0 < depth) (hclks : 0 < clks) (hpress : buttons t ≠ .released)
    (hquiet : ∀ i > t, buttons i = .released)
    (himage : SameImage rom ram
      (Board.run buttons powerUp (t + (buttons t).resetEdges + 1)).platform.system)
    (hloop : Cpp.RefTrace.traceLoop limit .construct (simulatorBus rom ram 0) =
      .ok (records, cpu, bus)) (hdone : (cpu.halted || cpu.faulted) = true) :
    Shows records cpu bus
      (fun n => Board.run buttons powerUp (t + (buttons t).resetEdges + 1 + n))
      (boundaryCycle records cpu) := by
  have hplatform := Board.platform_after_press powerUp hpress hquiet
  have hstart := hplatform 0
  rw [Nat.add_zero] at hstart
  rw [hstart] at himage
  -- from the last reset edge on, the platform is one that was reset there
  generalize (Board.run buttons powerUp (t + (buttons t).resetEdges)).platform = before at *
  have hsystem := system_run (fun _ => Board.gpioInput) Board.gpioInput before
  have hboundary := boundary_timed himage hloop
  have hstopped := stopped_iff hdone hboundary
  have hend (n : ℕ) (hn : n ≥ boundaryCycle records cpu) :=
    boundary_of_terminal himage hloop hdone ((hstopped n).mpr hn)
  constructor
  case ends =>
    intro n
    rw [hplatform, hsystem]
    exact hstopped n
  case boundary =>
    intro n hn
    simp only [hplatform, hsystem]
    exact hend n hn
  case leds =>
    intro n hn
    have hend := hend n hn
    obtain ⟨-, houtput, hdirection⟩ := hend.outputs
    rw [Board.led, hplatform, FpgaPlatform.outputs, hsystem]
    rw [← houtput, ← hdirection, ← hend.halted, ← hend.faulted]
    rfl
  case serial =>
    have hserves := FpgaPlatform.serves hdepth hclks (fun _ => Board.gpioInput) Board.gpioInput
      before fun _ => storedBytes_stopped himage hloop hdone
    rwa [← funext hplatform] at hserves

end Board

end Mini32.Lockstep
