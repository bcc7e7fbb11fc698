import Mini32.Lockstep.Timing
import Mini32.Toolchain.SourceRun

/-!
# Sources on the RTL

The RTL with the assembled image in its ROM does what the source means, whatever the
RAM holds at power-up (`assembled_rtl`).  The simulator is between the two: the image
runs there as its source does, and the RTL follows in lockstep.

The meaning of a source is over a memory, so what the RAM holds at power-up is the memory it
starts from (`ramOf`); the simulator's RAM need not be zero for any of this.  While the program
runs there is a cycle for each of its steps.  Once it has ended the RTL stays as it is, so the
result then holds in every later cycle.
-/

namespace Mini32.Lockstep

open Py Toolchain Source ByteStore
open Rtl (Bench System SystemBus readmemh)

/-! ## Any RAM -/

/-- The simulator's RAM with these words. -/
def ramOf (words : BitVec 14 → Word) : Cpp.Ram where
  bytes k := byteOf (words (BitVec.ofNat 14 (k / 4))) (k % 4)

/-- The words of this RAM. -/
theorem read32_ramOf (words : BitVec 14 → Word) (i : BitVec 14) :
    (ramOf words).read32 (Isa.wordAddress Cpp.Ram.kBaseAddress i) = .ok (words i) := by
  have hword (k : ℕ) (hk : k < 4) : (ramOf words).bytes (4 * i.toNat + k) = byteOf (words i) k := by
    have hdiv : (4 * i.toNat + k) / 4 = i.toNat := by omega
    have hmod : (4 * i.toNat + k) % 4 = k := by omega
    change byteOf (words (BitVec.ofNat 14 ((4 * i.toNat + k) / 4))) ((4 * i.toNat + k) % 4) = _
    rw [hdiv, hmod, BitVec.ofNat_toNat, BitVec.setWidth_eq]
  rw [Cpp.Bus.ram_read32_word, readWord, hword 1 (by decide), hword 2 (by decide),
    hword 3 (by decide), ← Nat.add_zero (4 * i.toNat), hword 0 (by decide), ofBytes_byteOf]

/-! ## Runs of the RTL -/

/-- The RTL is where the run ended; a fetch from the STM32 window has a code of its own. -/
def EndsAs (s : System) : Ending → Prop
  | .running => s.cpu.halted = false ∧ s.cpu.faulted = false
  | .halted => s.cpu.halted = true
  | .faulted code dataAddress => s.cpu.faulted = true ∧ s.cpu.fault.pc = s.cpu.pc ∧
      s.cpu.fault.code =
        (if InStm32Window s.cpu.pc then .nonExecutableInstructionFetch else code) ∧
      (if s.cpu.fault.addressValid then some s.cpu.fault.address else none) = dataAddress

/-- The RTL has done what the program means, in cycle `t`. -/
structure Follows (result : Result Isa.Memory) (gpioInput : Word) (s : ℕ → System) (t : ℕ) :
    Prop where
  retired : (Clocked.log (·.cpu.retired) s (t + 1)).length = result.retired
  pc : (s t).cpu.pc = result.arch.pc
  registers : ∀ r ≠ 0, (s t).cpu.registers r = result.arch.regs r
  /-- The Timer of the RTL takes a retirement one edge later. -/
  memory : (Bench.busEnv SystemBus.busModel).after (s t).cpu.retired
    ((s t).bus.memory (System.transcript s t) gpioInput) = result.bus
  ending : EndsAs (s t) result.ending

section Follows

variable {result : Result Isa.Memory} {records : List Cpp.RetireRecord} {cpu : Cpp.CpuCore}
  {bus : Cpp.Bus} {gpioInput : Word} {s : ℕ → System} {t : ℕ}

/-- The RTL ends as the simulator does, … -/
theorem endsAs_of_boundary (h : Boundary records cpu bus gpioInput s t) {ending : Ending}
    (hending : ending.Is cpu) : EndsAs (s t) ending := by
  cases ending with
  | running =>
      have hm : cpu.microstate = .fetch := hending
      exact ⟨h.halted.trans (by simp [Cpp.CpuCore.halted, hm]),
        h.faulted.trans (by simp [Cpp.CpuCore.faulted, hm])⟩
  | halted =>
      have hm : cpu.microstate = .halted := hending
      exact h.halted.trans (by simp [Cpp.CpuCore.halted, hm])
  | faulted code dataAddress =>
      obtain ⟨hm, rfl, hpc, rfl⟩ := hending
      have hf : cpu.faulted = true := by simp [Cpp.CpuCore.faulted, hm]
      have hfault := h.fault hf
      refine ⟨h.faulted.trans hf, ?_, ?_, ?_⟩
      · rw [hfault.pc, hpc, h.pc]
      · rw [hfault.code, hpc, h.pc]
      · cases hvalid : (s t).cpu.fault.addressValid with
        | true => exact (hfault.address hvalid).symm
        | false =>
            have hnone := hfault.addressValid
            rw [hvalid] at hnone
            exact (Option.not_isSome_iff_eq_none.mp (by simp [← hnone])).symm

/-- A program that has ended leaves a machine that has stopped. -/
theorem stopped_of_ending {ending : Ending} (hending : ending.Is cpu) (h : ending ≠ .running) :
    (cpu.halted || cpu.faulted) = true := by
  cases ending with
  | running => exact absurd rfl h
  | halted =>
      have hm : cpu.microstate = .halted := hending
      simp [Cpp.CpuCore.halted, hm]
  | faulted code dataAddress =>
      obtain ⟨hm, -⟩ := hending
      simp [Cpp.CpuCore.faulted, hm]

/-- … and has what the program left. -/
theorem follows_of_boundary (h : Boundary records cpu bus gpioInput s t)
    (hreports : Reports result records cpu bus) : Follows result gpioInput s t where
  retired := by rw [← h.records.length_eq, hreports.retired]
  pc := by
    rw [h.pc, ← hreports.arch]
    rfl
  registers r hr := by
    rw [h.registers r hr, ← hreports.arch]
    rfl
  memory := h.devices.trans hreports.memory
  ending := endsAs_of_boundary h hreports.ending

end Follows

section System

variable {source filename memh : Str} {image : Cpp.Image} {powerUp : System}
  {contents : BitVec 14 → Word}

/-- The boot ROM with the image holds what the simulator loads. -/
theorem sameImage_memh (hmemh : convertImage image.bytes = .ok memh)
    (hrom : powerUp.bus.rom.memory = readmemh memh contents) (resetPins : Word) :
    SameImage (imageRom image) (ramOf (powerUp.clock true resetPins).bus.ram.memory)
      (powerUp.clock true resetPins) := by
  obtain rfl := Except.ok.inj ((convertImage_ok image.words image.fits).symm.trans hmemh)
  refine ⟨fun i => ?_, read32_ramOf _⟩
  have hkept : (powerUp.clock true resetPins).bus.rom.memory = powerUp.bus.rom.memory := by
    simp [System.clock, SystemBus.clock]
  rw [Cpp.Bus.rom_read32_word, hkept, hrom, readmemh_convertImage image.words contents i]
  rfl

variable (powerUp) in
/-- **Sources on the RTL.**  If a source is accepted, it has a program, and with the
image in the boot ROM the RTL does what the program means, for any number of steps, from
any power-up state and with any constant pins: in some cycle it has retired as
often and holds the same registers, RAM, transcript and device registers, and if the
program has ended it stays so. -/
theorem assembled_rtl (h : assembleText source filename = .ok image.bytes)
    (hmemh : convertImage image.bytes = .ok memh)
    (hrom : powerUp.bus.rom.memory = readmemh memh contents) (gpioInput resetPins : Word) :
    ∃ p, read source = some p ∧ 4 * p.length = image.bytes.length ∧
      ∀ limit result,
        p.run Isa.Memory.busModel limit start
          ((powerUp.clock true resetPins).bus.memory [] gpioInput) = result →
        ∃ t, ∀ t', t' = t ∨ (result.ending ≠ .running ∧ t ≤ t') →
          Follows result gpioInput (System.run (fun _ => gpioInput) resetPins powerUp) t' := by
  obtain ⟨p, hread, hlength, hholds⟩ := exists_holds h
  refine ⟨p, hread, hlength, ?_⟩
  rintro limit _ rfl
  have himage := sameImage_memh hmemh hrom resetPins
  obtain ⟨records, cpu, bus, hloop, hreports⟩ := run_reports limit .construct
    (simulatorBus (imageRom image) (ramOf (powerUp.clock true resetPins).bus.ram.memory)
      gpioInput) rfl (hholds _ fun _ => rfl)
  -- both start with the same memory
  rw [← (agree_start gpioInput himage).memory] at hreports
  have hboundary := boundary_timed himage hloop
  refine ⟨boundaryCycle records cpu, fun t' ht' => follows_of_boundary ?_ hreports⟩
  rcases ht' with rfl | ⟨hended, hle⟩
  · exact hboundary
  · have hdone := stopped_of_ending hreports.ending hended
    exact boundary_of_terminal himage hloop hdone ((stopped_iff hdone hboundary t').mpr hle)

/-- The RTL counts down and halts. -/
theorem assembled_rtl_countdown : ∃ t, ∀ t' ≥ t,
    (System.run (fun _ => 0) 0 (loaded (imageRom countdownImage) .fresh) t').cpu.halted = true ∧
      (System.run (fun _ => 0) 0 (loaded (imageRom countdownImage) .fresh) t').cpu.registers 1 =
        0 := by
  have hasm : assembleText countdown [] = .ok countdownImage.bytes := by decide +kernel
  have hmemh := convertImage_ok countdownImage.words countdownImage.fits
  have hrom : (loaded (imageRom countdownImage) .fresh).bus.rom.memory =
      readmemh (((romWords countdownImage.bytes).map (hex 8)).map (· ++ ['\n'])).flatten
        fun _ => 0 := by
    funext i
    rw [readmemh_convertImage countdownImage.words _ i]
    rfl
  obtain ⟨p, hread, -, hruns⟩ := assembled_rtl (loaded (imageRom countdownImage) .fresh) hasm hmemh
    hrom 0 0
  obtain rfl := Option.some.inj (read_countdown.symm.trans hread)
  obtain ⟨t, hfollows⟩ := hruns 10 _ rfl
  refine ⟨t, fun t' ht' => ?_⟩
  have hend := hfollows t' (Or.inr ⟨by decide +kernel, ht'⟩)
  refine ⟨hend.ending, ?_⟩
  rw [hend.registers 1 (by decide)]
  decide +kernel

end System

end Mini32.Lockstep
