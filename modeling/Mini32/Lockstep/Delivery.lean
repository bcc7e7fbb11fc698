import Mini32.Lockstep.Timing
import Mini32.Rtl.Drain

/-!
# From the simulator to the serial line

What the simulator keeps as `tx_bytes` is what a receiver of the FPGA's pin gets
(`serial_delivery`): the RTL sends the same bytes in lockstep, and the platform takes
them through the FIFO and the transmitter.

The simulator sends a byte at once; the pin takes ten symbols for each.  So the two are
compared once the program has ended and the FIFO has drained, and the bound on the draining
is part of the statement.  Bytes may be missing only if the FIFO overflowed, which the
platform reports.
-/

namespace Mini32.Lockstep

open Rtl (Bench FpgaPlatform System SystemBus)

section Delivery

variable {rom : Cpp.Rom} {ram : Cpp.Ram} {gpioInput resetPins : Word}
  {records : List Cpp.RetireRecord} {cpu : Cpp.CpuCore} {bus : Cpp.Bus} {limit : ℕ}

/-- The system of the platform runs as it does alone. -/
theorem system_run {depth clks : ℕ} (pins : ℕ → Word) (resetPins : Word)
    (powerUp : FpgaPlatform depth clks) (t : ℕ) :
    (FpgaPlatform.run pins resetPins powerUp t).system =
      System.run pins resetPins powerUp.system t :=
  Clocked.map_run (FpgaPlatform.clock false) (·.system) (fun _ _ => rfl) pins _ t

/-- A retirement tick leaves what is sent and driven. -/
theorem after_outputs (retired : Option Rtl.RetirePort) (m : Isa.Memory) :
    ((Bench.busEnv SystemBus.busModel).after retired m).uartTx = m.uartTx ∧
      ((Bench.busEnv SystemBus.busModel).after retired m).gpioOutput = m.gpioOutput ∧
      ((Bench.busEnv SystemBus.busModel).after retired m).gpioDirection = m.gpioDirection := by
  cases retired with
  | none => exact ⟨rfl, rfl, rfl⟩
  | some p =>
      change (Isa.Memory.retireTick m).uartTx = _ ∧ (Isa.Memory.retireTick m).gpioOutput = _ ∧
        (Isa.Memory.retireTick m).gpioDirection = _
      unfold Isa.Memory.retireTick
      split <;> exact ⟨rfl, rfl, rfl⟩

/-- At a boundary the RTL has sent what the simulator keeps, and drives the same pins. -/
theorem Boundary.outputs {s : ℕ → System} {t : ℕ} (h : Boundary records cpu bus gpioInput s t) :
    System.transcript s t = bus.uart.txBytes ∧ (s t).bus.gpio.gpioOutput = bus.gpio.output ∧
      (s t).bus.gpio.gpioDirection = bus.gpio.direction := by
  have hkept := after_outputs (s t).cpu.retired
    ((s t).bus.memory (System.transcript s t) gpioInput)
  rw [h.devices] at hkept
  exact ⟨hkept.1.symm, hkept.2.1.symm, hkept.2.2.symm⟩

section Stopped

variable {depth clks : ℕ} {powerUp : FpgaPlatform depth clks}
  (himage : SameImage rom ram (powerUp.system.clock true resetPins))
  (hloop : Cpp.RefTrace.traceLoop limit .construct (simulatorBus rom ram gpioInput) =
    .ok (records, cpu, bus))
  (hdone : (cpu.halted || cpu.faulted) = true)

include himage hloop hdone

/-- Once the program has ended the platform has stored the transcript. -/
theorem storedBytes_stopped {t : ℕ} (ht : boundaryCycle records cpu ≤ t) :
    FpgaPlatform.storedBytes (FpgaPlatform.run (fun _ => gpioInput) resetPins powerUp) t =
      bus.uart.txBytes := by
  have hboundary := boundary_timed himage hloop
  rw [← FpgaPlatform.transcript_run, ← (boundary_of_terminal himage hloop hdone
    ((stopped_iff hdone hboundary t).mpr ht)).outputs.1]
  exact congrArg (System.transcript · t) (funext (system_run _ _ _))

/-- **The simulator's transcript on the serial line.**  Over the same ROM image and RAM
contents, with constant pins, if the trace loop of the simulator stops: whatever the
depth of the FIFO and the divider, a receiver that only sees the pin gets bytes of
the transcript in their order, all of them if the FIFO takes that many, and after
`drainCycles` the overflow flag says if any is missing. -/
theorem serial_delivery (hdepth : 0 < depth) (hclks : 0 < clks) :
    FpgaPlatform.Serves bus.uart.txBytes
      (FpgaPlatform.run (fun _ => gpioInput) resetPins powerUp) (boundaryCycle records cpu) :=
  FpgaPlatform.serves hdepth hclks _ _ _ fun _ => storedBytes_stopped himage hloop hdone

end Stopped

/-- `LUI r1, 0x2000`, `ADDI r2, r0, 72`, `SW r2, 0(r1)`, `HALT`. -/
def letterRom : Cpp.Rom where
  bytes i := ([0x00, 0x20, 0x20, 0x34, 0x48, 0x00, 0x40, 0x24, 0x00, 0x00, 0x41, 0x3C,
    0x00, 0x00, 0x00, 0x5C] : List (BitVec 8)).getD i 0

/-- One slot and three cycles for each bit. -/
def letterPlatform : FpgaPlatform 1 3 where
  system := loaded letterRom .fresh
  uartFifo := ⟨Vector.replicate 1 0, 0, 0, 0, false⟩
  uartPhy := ⟨.idle, 0, 0, 0⟩

/-- The simulator sends the letter and halts; the RTL takes 26 cycles. -/
theorem traceLoop_letter : ∃ records cpu bus,
    Cpp.RefTrace.traceLoop 4 .construct (simulatorBus letterRom .fresh 0) =
        .ok (records, cpu, bus) ∧
      boundaryCycle records cpu = 26 ∧ cpu.microstate = .halted ∧ bus.uart.txBytes = [72] ∧
      bus.gpio.direction = 0 ∧ bus.gpio.output = 0 := by
  have hrun : (Cpp.RefTrace.traceLoop 4 .construct (simulatorBus letterRom .fresh 0)).map
      (fun r => (boundaryCycle r.1 r.2.1, r.2.1.microstate, r.2.2.uart.txBytes,
        r.2.2.gpio.direction, r.2.2.gpio.output)) = .ok (26, .halted, [72], 0, 0) := by rfl
  cases hloop : Cpp.RefTrace.traceLoop 4 .construct (simulatorBus letterRom .fresh 0) with
  | error e =>
      rw [hloop] at hrun
      cases hrun
  | ok r =>
      obtain ⟨records, cpu, bus⟩ := r
      rw [hloop] at hrun
      obtain ⟨hcycle, hrun⟩ := Prod.mk.inj (Except.ok.inj hrun)
      obtain ⟨hhalted, hrun⟩ := Prod.mk.inj hrun
      obtain ⟨hbytes, hrun⟩ := Prod.mk.inj hrun
      obtain ⟨hdirection, houtput⟩ := Prod.mk.inj hrun
      exact ⟨records, cpu, bus, rfl, hcycle, hhalted, hbytes, hdirection, houtput⟩

/-- The letter arrives by cycle 119. -/
theorem serial_delivery_letter :
    FpgaPlatform.Serves [72] (FpgaPlatform.run (fun _ => 0) 0 letterPlatform) 26 ∧
      FpgaPlatform.receivedBytes (FpgaPlatform.run (fun _ => 0) 0 letterPlatform) 119 = [72] := by
  obtain ⟨records, cpu, bus, hloop, hcycle, hhalted, hbytes, -⟩ := traceLoop_letter
  have himage : SameImage letterRom .fresh (letterPlatform.system.clock true 0) :=
    (sameImage_loaded letterRom .fresh).reset 0 rfl
  have hserves := serial_delivery himage hloop
    (by simp [Cpp.CpuCore.halted, hhalted]) Nat.one_pos (by decide)
  rw [hcycle, hbytes] at hserves
  exact ⟨hserves, (hserves.delivered 119 (by decide)).2.mpr (hserves.roomy (by decide) 119)⟩

end Delivery

end Mini32.Lockstep
