import Mini32.Isa.Instruction

/-!
# One instruction of the ISA, over any bus

The single-step semantics of the ISA document: fetch, decode, and the effect of
each instruction.  What is behind the addresses is a parameter, a `BusModel`,
because the same semantics is read over three of them: the documented memory map
(`Mini32.Isa.MemoryMap`), the C++ `Bus` and the RTL `system_bus`.  A step is
`Outcome.retire` with the instruction's `Effect`, or `Outcome.fault`, in which
case it has no effect at all — the type of `fault` leaves no room for one.

`step_hom` is the law the refinements use: a step commutes with a homomorphism
of bus models.

## Effects

`execute` does not return a new state.  It returns an `Effect`: the next PC, the register
write if there is one, the memory write, and whether the core halts.  This is what a
retirement record of either machine has in it, so a core is compared with the ISA and its
records are compared with the ISA by the same equation, and `Effect.apply` gives the state
from it where the state is needed.  A write to `r0` is an effect that `Effect.apply`
drops and that no record shows; `Effect.regChange` is what a comparison of two register
files sees.

## Faults

A fault carries the code, the PC, the instruction word and the address of the access, if
it was one.  For a faulting fetch there is no word, and the field is zero, in both
machines.  The three functions from bus faults to core faults are not the same: a fetch
cannot be read-only, and a load cannot be non-executable, so the remaining cases are
unmapped, as the source has it.
-/

namespace Mini32

/-- The bus faults, `mini32::BusFault` and `bus_fault_t` without their `None`. -/
inductive BusFault
  | misaligned | unmapped | readOnly | nonExecutable
  deriving DecidableEq, Repr

/-- The CPU faults, `mini32::CpuFault` and `cpu_fault_t`. -/
inductive CpuFault
  | none
  | misalignedInstructionFetch | unmappedInstructionFetch | nonExecutableInstructionFetch
  | illegalInstruction | malformedInstruction | unsupportedInstruction
  | misalignedLoad | misalignedStore | unmappedLoad | unmappedStore | readOnlyStore
  deriving DecidableEq, Repr

/-- The faults of a data access. -/
def CpuFault.isData : CpuFault → Bool
  | .misalignedLoad | .misalignedStore | .unmappedLoad | .unmappedStore | .readOnlyStore => true
  | _ => false

/-- What is reported about a fault. -/
structure FaultInfo where
  code : CpuFault := .none
  pc : Word := 0
  instruction : Word := 0
  dataAddress : Option Word := none
  deriving DecidableEq, Repr

namespace Isa

/-- What a CPU sees of a bus. -/
structure BusModel (B : Type*) where
  fetch : B → Word → Except BusFault Word
  load : B → Word → Except BusFault Word
  store : B → Word → Word → Except BusFault B
  retireTick : B → B

/-- The architectural state of the CPU. -/
structure ArchState where
  pc : Word
  regs : Reg → Word

namespace ArchState

/-- `r0` always reads as zero. -/
def read (a : ArchState) (r : Reg) : Word := if r = 0 then 0 else a.regs r

/-- Writes to `r0` have no effect. -/
def write (a : ArchState) (r : Reg) (v : Word) : ArchState :=
  if r = 0 then a else { a with regs := Function.update a.regs r v }

end ArchState

/-- What a retiring instruction does. -/
structure Effect where
  nextPc : Word
  regWrite : Option (Reg × Word) := none
  memWrite : Option (Word × Word) := none
  halts : Bool := false
  deriving DecidableEq, Repr

/-- The result of one step. -/
inductive Outcome (B : Type*)
  | fault (info : FaultInfo)
  | retire (instruction : Word) (effect : Effect) (bus : B)

/-! ## Operators -/

/-- The R-format operations. Shifts take the five low bits of the second operand. -/
def AluOp.eval (x y : Word) : AluOp → Word
  | add => x + y
  | sub => x - y
  | and => x &&& y
  | or => x ||| y
  | xor => x ^^^ y
  | slt => if x.slt y then 1 else 0
  | shl => x <<< (y.extractLsb' 0 5).toNat
  | shr => x >>> (y.extractLsb' 0 5).toNat

/-- The immediate operations; `ADDI` extends the sign, the others fill up with zeros. -/
def ImmOp.eval (x : Word) (imm16 : BitVec 16) : ImmOp → Word
  | addi => x + imm16.signExtend 32
  | andi => x &&& imm16.zeroExtend 32
  | ori => x ||| imm16.zeroExtend 32
  | xori => x ^^^ imm16.zeroExtend 32

/-- The comparisons of the branches, which are signed. -/
def Cond.holds (x y : Word) : Cond → Bool
  | eq => x == y
  | ne => x != y
  | lt => x.slt y
  | ge => !x.slt y

/-- A signed displacement counted in instruction words. -/
def displacement {k : ℕ} (imm : BitVec k) : Word := 4 * imm.signExtend 32

/-! ## Fault classes -/

/-- The fault of the core for a fault of the bus at a fetch, … -/
def fetchFault : BusFault → CpuFault
  | .misaligned => .misalignedInstructionFetch
  | .nonExecutable => .nonExecutableInstructionFetch
  | _ => .unmappedInstructionFetch

/-- … at a load, … -/
def loadFault : BusFault → CpuFault
  | .misaligned => .misalignedLoad
  | _ => .unmappedLoad

/-- … and at a store. -/
def storeFault : BusFault → CpuFault
  | .misaligned => .misalignedStore
  | .readOnly => .readOnlyStore
  | _ => .unmappedStore

/-- The fault of a word that is not an instruction. -/
def DecodeFault.fault : DecodeFault → CpuFault
  | .illegal => .illegalInstruction
  | .malformed => .malformedInstruction

/-! ## Execution -/

section Step

variable {B : Type*} (M : BusModel B)

/-- The effective address of `LW` and `SW`. -/
def effectiveAddress (a : ArchState) (rs1 : Reg) (imm16 : BitVec 16) : Word :=
  a.read rs1 + imm16.signExtend 32

/-- The effect of a decoded instruction; an error is a load or store fault with
the data address. -/
def execute (a : ArchState) (b : B) : Instr → Except (CpuFault × Word) (Effect × B)
  | .nop => .ok ({ nextPc := a.pc + 4 }, b)
  | .alu op rd rs1 rs2 =>
      .ok ({ nextPc := a.pc + 4, regWrite := some (rd, op.eval (a.read rs1) (a.read rs2)) }, b)
  | .imm op rd rs1 imm16 =>
      .ok ({ nextPc := a.pc + 4, regWrite := some (rd, op.eval (a.read rs1) imm16) }, b)
  | .lui rd imm16 =>
      .ok ({ nextPc := a.pc + 4, regWrite := some (rd, imm16.zeroExtend 32 <<< 16) }, b)
  | .lw rd rs1 imm16 =>
      let address := effectiveAddress a rs1 imm16
      match M.load b address with
      | .error f => .error (loadFault f, address)
      | .ok v => .ok ({ nextPc := a.pc + 4, regWrite := some (rd, v) }, b)
  | .sw rs2 rs1 imm16 =>
      let address := effectiveAddress a rs1 imm16
      match M.store b address (a.read rs2) with
      | .error f => .error (storeFault f, address)
      | .ok b' => .ok ({ nextPc := a.pc + 4, memWrite := some (address, a.read rs2) }, b')
  | .branch c rs1 rs2 imm16 =>
      .ok ({ nextPc := if c.holds (a.read rs1) (a.read rs2)
              then a.pc + 4 + displacement imm16 else a.pc + 4 }, b)
  | .j imm26 => .ok ({ nextPc := a.pc + 4 + displacement imm26 }, b)
  | .jal imm26 =>
      .ok ({ nextPc := a.pc + 4 + displacement imm26, regWrite := some (31, a.pc + 4) }, b)
  | .jr rs1 => .ok ({ nextPc := a.read rs1 }, b)
  | .halt => .ok ({ nextPc := a.pc + 4, halts := true }, b)

/-- One instruction: a retirement ticks the bus after the instruction's own
effect, a fault changes nothing. -/
def step (a : ArchState) (b : B) : Outcome B :=
  match M.fetch b a.pc with
  | .error f => .fault { code := fetchFault f, pc := a.pc }
  | .ok w =>
      match decode w with
      | .error e => .fault { code := e.fault, pc := a.pc, instruction := w }
      | .ok i =>
          match execute M a b i with
          | .error (code, address) =>
              .fault { code, pc := a.pc, instruction := w, dataAddress := some address }
          | .ok (e, b') => .retire w e (M.retireTick b')

variable {M} {a : ArchState} {b : B} {w : Word} {i : Instr}

/-- The ways of a step: the fetch faults, … -/
theorem step_fetchError {f : BusFault} (hf : M.fetch b a.pc = .error f) :
    step M a b = .fault { code := fetchFault f, pc := a.pc } := by
  simp only [step, hf]

/-- … the word is no instruction, … -/
theorem step_decodeError {e : DecodeFault} (hf : M.fetch b a.pc = .ok w)
    (hd : decode w = .error e) :
    step M a b = .fault { code := e.fault, pc := a.pc, instruction := w } := by
  simp only [step, hf, hd]

/-- … the access faults, … -/
theorem step_executeError {code : CpuFault} {address : Word} (hf : M.fetch b a.pc = .ok w)
    (hd : decode w = .ok i) (hx : execute M a b i = .error (code, address)) :
    step M a b = .fault { code, pc := a.pc, instruction := w, dataAddress := some address } := by
  simp only [step, hf, hd, hx]

/-- … or the instruction retires. -/
theorem step_retire {e : Effect} {b' : B} (hf : M.fetch b a.pc = .ok w)
    (hd : decode w = .ok i) (hx : execute M a b i = .ok (e, b')) :
    step M a b = .retire w e (M.retireTick b') := by
  simp only [step, hf, hd, hx]

/-- An effect with a memory write comes from a store that succeeded, … -/
theorem execute_memWrite_some {e : Effect} {b' : B} {address value : Word}
    (hx : execute M a b i = .ok (e, b')) (hs : e.memWrite = some (address, value)) :
    M.store b address value = .ok b' := by
  cases i with
  | sw rs2 rs1 imm16 =>
      simp only [execute] at hx
      cases hst : M.store b (effectiveAddress a rs1 imm16) (a.read rs2) with
      | error f => rw [hst] at hx; cases hx
      | ok c =>
          rw [hst] at hx
          cases hx
          cases hs
          exact hst
  | lw rd rs1 imm16 =>
      simp only [execute] at hx
      cases hl : M.load b (effectiveAddress a rs1 imm16) <;> rw [hl] at hx <;> cases hx
      cases hs
  | _ => cases hx; cases hs

/-- … and without one the instruction leaves the bus alone. -/
theorem execute_memWrite_none {e : Effect} {b' : B}
    (hx : execute M a b i = .ok (e, b')) (hs : e.memWrite = none) : b' = b := by
  cases i with
  | sw rs2 rs1 imm16 =>
      simp only [execute] at hx
      cases hst : M.store b (effectiveAddress a rs1 imm16) (a.read rs2) <;> rw [hst] at hx <;>
        cases hx
      cases hs
  | lw rd rs1 imm16 =>
      simp only [execute] at hx
      cases hl : M.load b (effectiveAddress a rs1 imm16) <;> rw [hl] at hx <;> cases hx
      rfl
  | _ => cases hx; rfl

/-- A retirement comes from a fetched, legal word whose execution succeeds. -/
theorem step_eq_retire {e : Effect} {b' : B} (h : step M a b = .retire w e b') :
    ∃ i c, M.fetch b a.pc = .ok w ∧ decode w = .ok i ∧ execute M a b i = .ok (e, c) ∧
      b' = M.retireTick c := by
  cases hf : M.fetch b a.pc with
  | error f => rw [step_fetchError hf] at h; cases h
  | ok w' =>
      cases hd : decode w' with
      | error e => rw [step_decodeError hf hd] at h; cases h
      | ok i =>
          cases hx : execute M a b i with
          | error r => rw [step_executeError hf hd hx] at h; cases h
          | ok r =>
              rw [step_retire hf hd hx] at h
              cases h
              exact ⟨i, r.2, rfl, hd, hx, rfl⟩

/-- A load or store fault comes from a load or store and reports its address. -/
theorem execute_error {code : CpuFault} {address : Word}
    (hx : execute M a b i = .error (code, address)) :
    code.isData = true ∧ ∃ rs1 imm16, address = a.read rs1 + imm16.signExtend 32 ∧
      ((∃ rd, i = .lw rd rs1 imm16) ∨ ∃ rs2, i = .sw rs2 rs1 imm16) := by
  cases i with
  | lw rd rs1 imm16 =>
      simp only [execute] at hx
      cases hl : M.load b (effectiveAddress a rs1 imm16) with
      | error f =>
          rw [hl] at hx
          obtain ⟨rfl, rfl⟩ := Prod.mk.inj (Except.error.inj hx)
          exact ⟨by cases f <;> rfl, rs1, imm16, rfl, Or.inl ⟨rd, rfl⟩⟩
      | ok v => rw [hl] at hx; cases hx
  | sw rs2 rs1 imm16 =>
      simp only [execute] at hx
      cases hs : M.store b (effectiveAddress a rs1 imm16) (a.read rs2) with
      | error f =>
          rw [hs] at hx
          obtain ⟨rfl, rfl⟩ := Prod.mk.inj (Except.error.inj hx)
          exact ⟨by cases f <;> rfl, rs1, imm16, rfl, Or.inr ⟨rs2, rfl⟩⟩
      | ok b' => rw [hs] at hx; cases hx
  | _ => cases hx

/-- What a fault reports: the PC, the word if there is one, and a data address
exactly for a data access. -/
theorem step_fault {info : FaultInfo} (h : step M a b = .fault info) :
    info.pc = a.pc ∧
      info.instruction = (match M.fetch b a.pc with | .ok w => w | .error _ => 0) ∧
      (info.code.isData = false → info.dataAddress = none) ∧
      (info.code.isData = true → ∃ rs1 imm16,
        info.dataAddress = some (a.read rs1 + imm16.signExtend 32) ∧
          ((∃ rd, decode info.instruction = .ok (.lw rd rs1 imm16)) ∨
            ∃ rs2, decode info.instruction = .ok (.sw rs2 rs1 imm16))) := by
  cases hf : M.fetch b a.pc with
  | error f =>
      rw [step_fetchError hf] at h
      obtain rfl := Outcome.fault.inj h
      exact ⟨rfl, rfl, fun _ => rfl, fun hdata => by cases f <;> cases hdata⟩
  | ok w =>
      cases hd : decode w with
      | error e =>
          rw [step_decodeError hf hd] at h
          obtain rfl := Outcome.fault.inj h
          exact ⟨rfl, rfl, fun _ => rfl, fun hdata => by cases e <;> cases hdata⟩
      | ok i =>
          cases hx : execute M a b i with
          | ok r => rw [step_retire hf hd hx] at h; cases h
          | error r =>
              rw [step_executeError hf hd hx] at h
              obtain rfl := Outcome.fault.inj h
              obtain ⟨hdata, rs1, imm16, haddr, hi⟩ := execute_error hx
              refine ⟨rfl, rfl, fun hno => absurd (hdata.symm.trans hno) nofun, fun _ =>
                ⟨rs1, imm16, congrArg some haddr, ?_⟩⟩
              rcases hi with ⟨rd, rfl⟩ | ⟨rs2, rfl⟩
              · exact Or.inl ⟨rd, hd⟩
              · exact Or.inr ⟨rs2, hd⟩

end Step

/-- The architectural state an effect leaves. -/
def Effect.apply (e : Effect) (a : ArchState) : ArchState :=
  { (match e.regWrite with
      | some (rd, v) => a.write rd v
      | none => a) with pc := e.nextPc }

/-- The register an effect changes and its new value: a write to `r0`, or of the
value that is already there, changes nothing. -/
def Effect.regChange (e : Effect) (a : ArchState) : Option (Reg × Word) :=
  match e.regWrite with
  | some (rd, v) => if rd = 0 ∨ v = a.regs rd then none else some (rd, v)
  | none => none

/-- The registers after an effect. -/
theorem Effect.apply_regs (e : Effect) (a : ArchState) :
    (e.apply a).regs = match e.regChange a with
      | some (rd, v) => Function.update a.regs rd v
      | none => a.regs := by
  unfold apply regChange
  rcases e.regWrite with - | ⟨rd, v⟩
  · rfl
  · by_cases hz : rd = 0#5
    · simp [ArchState.write, hz]
    · by_cases hv : v = a.regs rd
      · simp [ArchState.write, hv]
      · simp [ArchState.write, hz, hv]

/-- A change is never to `r0`, and never to the value that was there. -/
theorem Effect.regChange_ne {e : Effect} {a : ArchState} {rd : Reg} {v : Word}
    (h : e.regChange a = some (rd, v)) : rd ≠ 0 ∧ v ≠ a.regs rd := by
  unfold regChange at h
  split at h
  · split at h
    · cases h
    · next hne =>
        cases h
        exact not_or.mp hne
  · cases h

/-! ## Homomorphisms of bus models -/

/-- `φ` turns the operations of `M` into those of `N`. -/
structure BusModel.Hom {B C : Type*} (M : BusModel B) (N : BusModel C) (φ : B → C) : Prop where
  fetch : ∀ b a, N.fetch (φ b) a = M.fetch b a
  load : ∀ b a, N.load (φ b) a = M.load b a
  store : ∀ b a v, N.store (φ b) a v = (M.store b a v).map φ
  retireTick : ∀ b, N.retireTick (φ b) = φ (M.retireTick b)

/-- Transport the bus of an outcome. -/
def Outcome.map {B C : Type*} (φ : B → C) : Outcome B → Outcome C
  | fault info => fault info
  | retire w e b => retire w e (φ b)

section Hom

variable {B C : Type*} {M : BusModel B} {N : BusModel C} {φ : B → C}

/-- Execution commutes with a homomorphism of bus models. -/
theorem execute_hom (h : M.Hom N φ) (a : ArchState) (b : B) (i : Instr) :
    execute N a (φ b) i = (execute M a b i).map (Prod.map id φ) := by
  cases i with
  | lw rd rs1 imm16 =>
      simp only [execute, h.load]
      cases M.load b (effectiveAddress a rs1 imm16) <;> rfl
  | sw rs2 rs1 imm16 =>
      simp only [execute, h.store]
      cases M.store b (effectiveAddress a rs1 imm16) (a.read rs2) <;> rfl
  | _ => rfl

/-- **A step commutes with a homomorphism of bus models.** -/
theorem step_hom (h : M.Hom N φ) (a : ArchState) (b : B) :
    step N a (φ b) = (step M a b).map φ := by
  have hfetch : N.fetch (φ b) a.pc = M.fetch b a.pc := h.fetch b a.pc
  cases hf : M.fetch b a.pc with
  | error f =>
      rw [hf] at hfetch
      rw [step_fetchError hf, step_fetchError hfetch]
      rfl
  | ok w =>
      rw [hf] at hfetch
      cases hd : decode w with
      | error e =>
          rw [step_decodeError hf hd, step_decodeError hfetch hd]
          rfl
      | ok i =>
          have hexec := execute_hom h a b i
          cases hx : execute M a b i with
          | error p =>
              rw [hx] at hexec
              rw [step_executeError hf hd hx, step_executeError hfetch hd hexec]
              rfl
          | ok r =>
              rw [hx] at hexec
              rw [step_retire hf hd hx, step_retire hfetch hd hexec, h.retireTick]
              rfl

end Hom

end Isa
end Mini32
