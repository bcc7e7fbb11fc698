import Mini32.Simulator.Programs
import Mini32.Toolchain.Meaning
import Mini32.Toolchain.RomImage

/-!
# Images run as their sources

An accepted source has a program, and the simulator with its image in the ROM does what
the program means, step by step (`step_eq`) and in every run (`assembled`).

`Holds` is the link: the ROM has the code of the statement at each address, or a NOP behind
the program.  No step changes the ROM, so it holds throughout a run.  A fetch then yields the
code of the current statement, the code means the statement (`Codes`), and a step of the ISA
is a step of the program.  Where the PC is at no statement, the fetch faults as the program
does (`fetch_leaves`).
-/

namespace Mini32.Source

open Py Toolchain Isa Fallible

/-! ## The program of an accepted source -/

section Accepted

variable {lines : List Str} {filename : Str}

/-- The texts that are read are those that are encoded. -/
theorem map_lineStatement (lineNumber address : ℕ) (lines : List Str) :
    (lines.filter hasStatement).map lineStatement =
      (placedStatements lineNumber address lines).map (·.text) := by
  induction lines generalizing lineNumber address with
  | nil => rfl
  | cons line lines ih =>
      rw [placedStatements, List.map_append, ← ih]
      by_cases h : hasStatement line = true
      · rw [List.filter_cons_of_pos h, if_pos h]
        rfl
      · rw [List.filter_cons_of_neg h, if_neg h]
        rfl

/-- **An accepted source is a program**, and its words are the codes of it. -/
theorem exists_program {source : Str} {words : List ℕ}
    (hwords : (placedStatements 1 0 (splitLines source)).mapM (fun statement =>
      encodeStatement statement filename (placedLabels 0 (splitLines source))) = .ok words) :
    ∃ p, read source = some p ∧ p.length = words.length ∧
      ∀ i word, words[i]? = some word →
        word < 2 ^ 32 ∧ ∃ s, p[i]? = some s ∧ Codes (4 * i) word s := by
  have hread : ∀ statement ∈ placedStatements 1 0 (splitLines source), ∃ s,
      readStatement (positions 0 (splitLines source)) statement.text = some s := by
    intro statement hstatement
    obtain ⟨i, hi⟩ := List.getElem?_of_mem hstatement
    obtain ⟨word, -, hcode⟩ := getElem?_of_mapM hwords hi
    obtain ⟨s, hs, -⟩ := codes_of_encode hcode
    exact ⟨s, hs⟩
  obtain ⟨p, hp, hlength, hstatements⟩ := exists_mapM hread
  refine ⟨p, ?_, ?_, fun i word hword => ?_⟩
  · rw [read, map_lineStatement 1 0, List.mapM_map]
    exact hp
  · rw [length_of_mapM hwords, hlength]
  · obtain ⟨hlt, -⟩ := List.getElem?_eq_some_iff.mp hword
    rw [length_of_mapM hwords] at hlt
    obtain ⟨word', hword', hcode⟩ := getElem?_of_mapM hwords (List.getElem?_eq_getElem hlt)
    obtain rfl := Option.some.inj (hword.symm.trans hword')
    obtain ⟨s, hs, hi⟩ := hstatements i _ (List.getElem?_eq_getElem hlt)
    obtain ⟨s', hs', hcodes⟩ := codes_of_encode hcode
    obtain rfl := Option.some.inj (hi.symm.trans hs')
    have haddress := address_placedStatements 0 1 _ (List.getElem?_eq_getElem hlt)
    rw [haddress, Nat.zero_add] at hcodes
    exact ⟨encodeStatement_lt filename hcode, s, hs, hcodes⟩

end Accepted

/-! ## Programs in the ROM -/

/-- The ROM has the codes of the program, and zeros behind them. -/
structure Holds (p : Program) (m : Memory) : Prop where
  codes : ∀ (i : BitVec 14) s, p[i.toNat]? = some s → Codes (4 * i.toNat) (m.rom i).toNat s
  rest : ∀ i : BitVec 14, p.length ≤ i.toNat → m.rom i = 0

/-- A step of the ISA without the word that is fetched. -/
def Outcome.ofIsa {B : Type} : Isa.Outcome B → Outcome B
  | .fault info => .fault info.code info.dataAddress
  | .retire _ e b => .retire e b

section Step

variable {p : Program} {m : Memory} {a : ArchState}

/-- The outcome of an executed instruction, seen from the program. -/
theorem ofIsa_execute {B : Type} {M : BusModel B} {b : B} {w : Word} {i : Isa.Instr}
    (hf : M.fetch b a.pc = .ok w) (hd : decode w = .ok i) :
    Outcome.ofIsa (Isa.step M a b) = .of M (Isa.execute M a b i) := by
  cases hx : Isa.execute M a b i with
  | error fault =>
      obtain ⟨code, address⟩ := fault
      rw [step_executeError hf hd hx]
      rfl
  | ok result =>
      obtain ⟨e, b'⟩ := result
      rw [step_retire hf hd hx]
      rfl

/-- The fetch from the ROM. -/
theorem fetch_rom (m : Memory) {pc : Word} (h : pc.toNat % 4 = 0 ∧ pc.toNat < 64 * 1024) :
    m.fetch pc = .ok (m.rom (wordIndex pc)) ∧ (wordIndex pc).toNat = pc.toNat / 4 := by
  obtain ⟨haligned, hlt⟩ := h
  have hregion : region pc = .rom := by
    rw [region_eq_rom, BitVec.le_def]
    exact Nat.le_of_lt_succ hlt
  refine ⟨?_, ?_⟩
  · rw [Memory.fetch, if_neg (not_not.mpr (aligned_iff.mpr haligned)), hregion]
  · rw [wordIndex, BitVec.extractLsb'_toNat, Nat.shiftRight_eq_div_pow]
    omega

/-- The fetch from anywhere else. -/
theorem fetch_leaves (m : Memory) {pc : Word} (h : ¬ (pc.toNat % 4 = 0 ∧ pc.toNat < 64 * 1024)) :
    ∃ f, m.fetch pc = .error f ∧ fetchFault f = leaves pc := by
  by_cases haligned : pc.toNat % 4 = 0
  · have hrom : region pc ≠ .rom := by
      rw [Ne, region_eq_rom, BitVec.le_def]
      intro hle
      exact h ⟨haligned, Nat.lt_succ_of_le hle⟩
    rw [Memory.fetch, leaves, if_neg (not_not.mpr (aligned_iff.mpr haligned)),
      if_neg (not_not.mpr haligned)]
    cases hregion : region pc with
    | rom => exact absurd hregion hrom
    | _ => exact ⟨_, rfl, rfl⟩
  · rw [Memory.fetch, leaves, if_pos (fun hal => haligned (aligned_iff.mp hal)), if_pos haligned]
    exact ⟨_, rfl, rfl⟩

/-- **A step of the program is a step of the ISA.** -/
theorem step_eq (h : Holds p m) :
    p.step Memory.busModel a m = .ofIsa (Isa.step Memory.busModel a m) := by
  by_cases hpc : a.pc.toNat % 4 = 0 ∧ a.pc.toNat < 64 * 1024
  · obtain ⟨hfetch, hindex⟩ := fetch_rom m hpc
    have haddress : 4 * (wordIndex a.pc).toNat = a.pc.toNat := by omega
    rw [Program.step, Program.current, if_pos hpc, ← hindex, List.getD_eq_getElem?_getD]
    cases hs : p[(wordIndex a.pc).toNat]? with
    | none =>
        rw [h.rest _ (List.getElem?_eq_none_iff.mp hs)] at hfetch
        exact (ofIsa_execute (M := Memory.busModel) hfetch (decode_encode .nop)).symm
    | some s =>
        have hcodes := h.codes _ s hs
        rw [haddress] at hcodes
        cases s with
        | instr i =>
            obtain ⟨isa, hword, hmeans⟩ := hcodes
            rw [BitVec.eq_of_toNat_eq hword] at hfetch
            rw [ofIsa_execute (M := Memory.busModel) hfetch (decode_encode isa)]
            exact congrArg (Outcome.of Memory.busModel) (hmeans Memory.busModel a m rfl)
        | word value =>
            obtain rfl : value = (m.rom (wordIndex a.pc)).toNat := hcodes
            simp only [Option.getD_some, BitVec.ofNat_toNat, BitVec.setWidth_eq]
            cases hd : decode (m.rom (wordIndex a.pc)) with
            | error e =>
                rw [step_decodeError (M := Memory.busModel) hfetch hd]
                rfl
            | ok i => exact (ofIsa_execute (M := Memory.busModel) hfetch hd).symm
  · obtain ⟨f, hfetch, hfault⟩ := fetch_leaves m hpc
    rw [Program.step, Program.current, if_neg hpc,
      step_fetchError (M := Memory.busModel) hfetch, ← hfault]
    rfl

/-- The ROM stays as it is. -/
theorem Holds.retire {w : Word} {e : Effect} {m' : Memory} (h : Holds p m)
    (hstep : Isa.step Memory.busModel a m = .retire w e m') : Holds p m' := by
  obtain ⟨i, c, -, -, hx, rfl⟩ := step_eq_retire hstep
  have hrom : c.rom = m.rom := by
    cases hw : e.memWrite with
    | none => rw [execute_memWrite_none hx hw]
    | some write => exact (Memory.store_memories (execute_memWrite_some hx hw)).1
  have hkept : (Memory.busModel.retireTick c).rom = m.rom := by
    rw [← hrom]
    change (Memory.retireTick c).rom = c.rom
    unfold Memory.retireTick
    split <;> rfl
  exact ⟨hkept ▸ h.codes, hkept ▸ h.rest⟩

end Step

/-! ## Runs -/

/-- The simulator is where the run ended. -/
def Ending.Is : Ending → Cpp.CpuCore → Prop
  | .running, cpu => cpu.microstate = .fetch
  | .halted, cpu => cpu.microstate = .halted
  | .faulted code dataAddress, cpu =>
      cpu.microstate = .fault ∧ cpu.faultInfo.code = code ∧ cpu.faultInfo.pc = cpu.pc ∧
        cpu.faultInfo.dataAddress = dataAddress

/-- The trace loop did what the program means. -/
structure Reports (result : Result Memory) (records : List Cpp.RetireRecord) (cpu : Cpp.CpuCore)
    (bus : Cpp.Bus) : Prop where
  retired : records.length = result.retired
  arch : cpu.arch = result.arch
  memory : bus.memory = result.bus
  ending : result.ending.Is cpu

section Run

open Cpp (CpuCore)
open Cpp.RefTrace

variable {p : Program}

/-- **A run of the program is a run of the trace loop**, from any boundary. -/
theorem run_reports (limit : ℕ) (cpu : CpuCore) (bus : Cpp.Bus) (hm : cpu.microstate = .fetch)
    (h : Holds p bus.memory) : ∃ records cpu' bus',
      traceLoop limit cpu bus = .ok (records, cpu', bus') ∧
        Reports (p.run Memory.busModel limit cpu.arch bus.memory) records cpu' bus' := by
  induction limit generalizing cpu bus with
  | zero => exact ⟨[], cpu, bus, rfl, rfl, rfl, rfl, hm⟩
  | succ limit ih =>
      have hgo : ¬ (cpu.halted || cpu.faulted) = true := by
        simp [CpuCore.halted, CpuCore.faulted, hm]
      have hhom := step_hom Cpp.Bus.busModel_hom_memory cpu.arch bus
      have hstep := step_eq (a := cpu.arch) h
      rw [traceLoop, if_neg hgo, Program.run]
      cases hisa : Isa.step Cpp.Bus.busModel cpu.arch bus with
      | fault info =>
          rw [hisa] at hhom
          rw [hstep, hhom]
          obtain ⟨cpu', htrace, -, hstate, hinfo, harch, -, -⟩ :=
            traceStep_fault hm hisa
          have hstopped : (cpu'.halted || cpu'.faulted) = true := by
            simp [CpuCore.halted, CpuCore.faulted, hstate]
          refine ⟨[], cpu', bus, ?_, rfl, harch, rfl, hstate, ?_⟩
          · rw [htrace]
            simp only [bind, Except.bind, traceLoop_of_le limit.zero_le hstopped rfl]
            rfl
          · have hpc : info.pc = cpu'.pc := by
              rw [(step_fault hisa).1, ← harch]
              rfl
            rw [hinfo]
            exact ⟨rfl, hpc, rfl⟩
      | retire w e b =>
          rw [hisa] at hhom
          rw [hstep, hhom]
          obtain ⟨result, cpu', htrace, -, hstate, -, harch, -, -⟩ :=
            traceStep_retire hm hisa
          rw [htrace]
          cases hh : e.halts with
          | true =>
              rw [hh, if_pos rfl] at hstate
              have hstopped : (cpu'.halted || cpu'.faulted) = true := by
                simp [CpuCore.halted, CpuCore.faulted, hstate]
              refine ⟨[recordOf cpu w e], cpu', b, ?_, ?_⟩
              · simp only [bind, Except.bind, traceLoop_of_le limit.zero_le hstopped rfl]
                rfl
              · simp only [Outcome.ofIsa, Isa.Outcome.map, hh, if_true]
                exact ⟨rfl, harch, rfl, hstate⟩
          | false =>
              rw [hh] at hstate
              obtain ⟨records, cpu'', bus'', hloop, hreports⟩ := ih cpu' b hstate (h.retire hhom)
              refine ⟨recordOf cpu w e :: records, cpu'', bus'', ?_, ?_⟩
              · simp only [bind, Except.bind, hloop]
                rfl
              · simp only [Outcome.ofIsa, Isa.Outcome.map, hh]
                rw [← harch]
                exact ⟨congrArg (· + 1) hreports.retired, hreports.arch, hreports.memory,
                  hreports.ending⟩

end Run

/-! ## Images -/

section Image

variable {source filename : Str} {image : Cpp.Image}

/-- A memory with the image in its ROM holds the program of the source. -/
theorem exists_holds (h : assembleText source filename = .ok image.bytes) :
    ∃ p, read source = some p ∧ 4 * p.length = image.bytes.length ∧
      ∀ m : Memory, (∀ i, m.rom i = ByteStore.readWord (imageByte image.bytes) (4 * i.toNat)) →
        Holds p m := by
  obtain ⟨-, words, parts, hwords, hparts, himage⟩ := assembleText_eq_ok.mp h
  obtain ⟨p, hread, hlength, hcodes⟩ := exists_program hwords
  have hbytes : image.bytes.length = 4 * words.length := by
    rw [← himage, length_image hparts]
  refine ⟨p, hread, by rw [hlength, hbytes], fun m hrom => ⟨fun i s hs => ?_, fun i hi => ?_⟩⟩
  · obtain ⟨hlt, -⟩ := List.getElem?_eq_some_iff.mp hs
    rw [hlength] at hlt
    obtain ⟨hword, s', hs', hcode⟩ := hcodes i.toNat _ (List.getElem?_eq_getElem hlt)
    obtain rfl := Option.some.inj (hs.symm.trans hs')
    have hread := readWord_image hparts (List.getElem?_eq_getElem hlt) fun _ => 0
    rw [himage] at hread
    rw [hrom i, show imageByte image.bytes = overlay image.bytes fun _ => 0 from rfl, hread,
      BitVec.toNat_ofNat, Nat.mod_eq_of_lt hword]
    exact hcode
  · rw [hrom i, readWord_imageByte_past]
    omega

/-- **Images run as their sources.**  If a source is accepted, it has a program, and with
the image in its ROM the simulator does what the program means, for any number of
steps: the same number of retirements, the same registers, memory, transcript and
device registers, and the same end. -/
theorem assembled (h : assembleText source filename = .ok image.bytes) :
    ∃ p, read source = some p ∧ 4 * p.length = image.bytes.length ∧
      ∀ limit, ∃ records cpu bus,
        Cpp.RefTrace.run image limit = .ok (records, cpu, bus) ∧
          Reports (p.run Memory.busModel limit start (Cpp.Bus.fresh (imageRom image) 0).memory)
            records cpu bus := by
  obtain ⟨p, hread, hlength, hholds⟩ := exists_holds h
  refine ⟨p, hread, hlength, fun limit => ?_⟩
  obtain ⟨records, cpu, bus, hloop, hreports⟩ := run_reports limit .construct _ rfl
    (hholds (Cpp.Bus.fresh (imageRom image) 0).memory fun i => rfl)
  refine ⟨records, cpu, bus, ?_, hreports⟩
  rw [Cpp.RefTrace.run, computer_image]
  exact hloop

end Image

/-- A loop that counts from 2 down to 0. -/
def countdown : Str :=
  "  ADDI r1, r0, 2\nloop: ADDI r1, r1, -1\n  BNE r1, r0, loop\n  HALT\n".toList

/-- The image of `countdown`. -/
def countdownImage : Cpp.Image where
  bytes := [0x02, 0x00, 0x20, 0x24, 0xFF, 0xFF, 0x21, 0x24, 0xFE, 0xFF, 0x20, 0x44,
    0x00, 0x00, 0x00, 0x5C]
  fits := by decide
  words := by decide

/-- The program of `countdown`. -/
theorem read_countdown : read countdown = some [.instr (.imm .addi 1 0 2),
    .instr (.imm .addi 1 1 (-1)), .instr (.branch .ne 1 0 (.statement 1)), .instr .halt] := by
  decide +kernel

theorem assembled_countdown : ∃ records cpu bus,
    Cpp.RefTrace.run countdownImage 10 = .ok (records, cpu, bus) ∧ records.length = 6 ∧
      cpu.microstate = .halted ∧ cpu.registers.registers 1 = 0 := by
  obtain ⟨p, hread, -, hruns⟩ := assembled
    (show assembleText countdown [] = .ok countdownImage.bytes by decide +kernel)
  obtain rfl := Option.some.inj (read_countdown.symm.trans hread)
  obtain ⟨records, cpu, bus, hrun, hreports⟩ := hruns 10
  have hregister : cpu.arch.regs 1 = 0 := by
    rw [hreports.arch]
    decide +kernel
  exact ⟨records, cpu, bus, hrun, hreports.retired, hreports.ending, hregister⟩

end Mini32.Source
