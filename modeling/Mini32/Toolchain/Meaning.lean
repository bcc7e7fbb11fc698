import Mini32.Toolchain.Acceptance
import Mini32.Toolchain.Labels
import Mini32.Toolchain.Source

/-!
# The codes of a program mean the program

The words of an accepted source, read as instructions of the ISA at their addresses,
do what the statements mean.  `codes_of_encode` is the statement by statement form,
and `exists_program` of `SourceRun` that of a whole source.

`Means` compares the two `execute` functions at one address, in every state and over every
bus, so nothing about runs is needed here.  Registers agree because both read the same token;
an immediate agrees because its field is congruent to the written number and the extension
undoes the residue (`signExtend_eq`, `zeroExtend_eq`); a target agrees because the positions
of a program count what the assembler's addresses count, in units of four (`target_of_ok`).
-/

namespace Mini32.Source

open Py Toolchain Isa Fallible

/-- At this address the instruction does what the statement means, over any bus. -/
def Means (address : ℕ) (i : Instr) (isa : Isa.Instr) : Prop :=
  ∀ {B : Type} (M : BusModel B) (a : ArchState) (b : B), a.pc.toNat = address →
    execute M a b i = Isa.execute M a b isa

/-- The word is the code of the statement at this address. -/
def Codes (address : ℕ) (word : ℕ) : Statement → Prop
  | .instr i => ∃ isa, word = (Isa.encode isa).toNat ∧ Means address i isa
  | .word value => value = word

/-! ## Operands -/

section Operands

variable {statement : Toolchain.Statement} {filename token : Str}

/-- An accepted register token is read as that register. -/
theorem register_of_ok {r : Reg} (h : parseRegister statement filename token = .ok r.toNat) :
    register token = some r := by
  rw [register, readRegister_of_ok h, Option.bind_some, if_pos r.isLt, BitVec.ofNat_toNat,
    BitVec.setWidth_eq]

/-- An accepted memory operand is read as offset and base. -/
theorem memory_of_ok {offset : ℤ} {base : Reg}
    (h : parseMemoryOperand statement filename token = .ok (offset, base.toNat)) :
    memory token = some (offset, base) := by
  unfold parseMemoryOperand at h
  unfold memory
  cases hmatch : memoryMatch token with
  | none => simp [hmatch, reject] at h
  | some groups =>
      obtain ⟨offsetToken, baseToken⟩ := groups
      simp only [hmatch, bind_eq_ok] at h
      obtain ⟨number, hnumber, value, hvalue, r, hregister, heq⟩ := h
      obtain ⟨rfl, rfl⟩ := Prod.mk.inj (Except.ok.inj heq)
      obtain ⟨rfl, -, -⟩ := checkedRange_eq_ok.mp hvalue
      simp only [parseNumber_eq_ok.mp hnumber, register_of_ok hregister, Option.bind_eq_bind,
        Option.bind_some]
      rfl

/-- Labels are at four times their positions. -/
theorem placedLabels_eq (position : ℕ) (lines : List Str) :
    placedLabels (4 * position) lines = (positions position lines).map fun p => (p.1, 4 * p.2) := by
  induction lines generalizing position with
  | nil => rfl
  | cons line lines ih =>
      rw [placedLabels, positions, ← Nat.mul_add, ih, List.map_append, List.map_map]
      rfl

/-- The address of a label is four times its position. -/
theorem lookup_placedLabels_zero (lines : List Str) (label : Str) :
    (placedLabels 0 lines).lookup label = ((positions 0 lines).lookup label).map (4 * ·) := by
  rw [show 0 = 4 * 0 from rfl, placedLabels_eq]
  induction positions 0 lines with
  | nil => rfl
  | cons p labels ih =>
      rw [List.map_cons, List.lookup_cons, List.lookup_cons, ih]
      cases label == p.1 <;> rfl

/-- **A displacement goes to its target.** -/
theorem target_of_ok {lines : List Str} {k : ℕ} {imm : BitVec k} {d : ℤ} (hk : 0 < k)
    (h : resolveDisplacement statement filename token k (placedLabels 0 lines) = .ok d)
    (himm : (imm.toNat : ℤ) ≡ d [ZMOD 2 ^ k]) :
    ∃ t, target (positions 0 lines) token = some t ∧ ∀ pc : Word, pc.toNat = statement.address →
      t.address pc = pc + 4 + displacement imm := by
  have hd : imm.toInt = d := by
    obtain ⟨-, hmin, hmax⟩ := readTarget_of_ok h
    exact toInt_of_modEq hk himm hmin hmax
  unfold target
  cases hint : int0 token with
  | some statements =>
      refine ⟨_, rfl, fun pc _ => ?_⟩
      unfold resolveDisplacement at h
      simp only [hint] at h
      obtain ⟨rfl, -, -⟩ := checkedRange_eq_ok.mp h
      rw [Target.address, displacement_eq, hd]
  | none =>
      cases hlookup : (positions 0 lines).lookup token with
      | none =>
          unfold resolveDisplacement at h
          simp only [hint, lookup_placedLabels_zero, hlookup] at h
          cases h
      | some position =>
          have haddress : (placedLabels 0 lines).lookup token = some (4 * position) := by
            rw [lookup_placedLabels_zero, hlookup]
            rfl
          obtain ⟨hdistance, -, -⟩ := resolveDisplacement_label hint haddress h
          refine ⟨_, rfl, fun pc hpc => ?_⟩
          exact (target_eq hpc (by rw [hd, hdistance])).symm

end Operands

/-! ## Numbers -/

section Numbers

/-- The field of a signed number extends to the number, … -/
theorem signExtend_eq {imm16 : BitVec 16} {v : ℤ} (himm : (imm16.toNat : ℤ) ≡ v [ZMOD 2 ^ 16])
    (hrange : -32768 ≤ v ∧ v ≤ 32767) : imm16.signExtend 32 = BitVec.ofInt 32 v := by
  rw [BitVec.signExtend, toInt_of_modEq (by decide) himm hrange.1 (Int.lt_add_one_of_le hrange.2)]

/-- … and that of an unsigned one. -/
theorem zeroExtend_eq {imm16 : BitVec 16} {v : ℤ} (himm : (imm16.toNat : ℤ) ≡ v [ZMOD 2 ^ 16])
    (hrange : 0 ≤ v ∧ v ≤ 65535) : imm16.zeroExtend 32 = BitVec.ofInt 32 v := by
  have hv : (imm16.toNat : ℤ) = v :=
    toNat_of_modEq himm hrange.1 (Int.lt_add_one_of_le hrange.2)
  rw [← hv, BitVec.ofInt_natCast, BitVec.ofNat_toNat]

end Numbers

/-! ## Statements -/

section Statements

variable {statement : Toolchain.Statement} {filename : Str} {lines : List Str} {tokens : List Str}
  {isa : Isa.Instr}

/-- **What is written is read back, and means the same.** -/
theorem means_of_writes (h : Writes statement filename (placedLabels 0 lines) tokens isa)
    (hfault : opcodeFault (placedLabels 0 lines) statement.address tokens isa.opcode = none) :
    ∃ i, readOpcode (positions 0 lines) tokens isa.opcode = some i ∧
      Means statement.address i isa := by
  cases h with
  | nop => exact ⟨.nop, rfl, fun _ _ _ _ => rfl⟩
  | halt => exact ⟨.halt, rfl, fun _ _ _ _ => rfl⟩
  | @alu op a b c rd rs1 rs2 hrd hrs1 hrs2 =>
      refine ⟨.alu op rd rs1 rs2, ?_, fun _ _ _ _ => rfl⟩
      have hread : readAlu op [a, b, c] = some (.alu op rd rs1 rs2) := by
        simp [readAlu, register_of_ok hrd, register_of_ok hrs1, register_of_ok hrs2]
      cases op <;> exact hread
  | @imm op a b c rd rs1 imm16 v hrd hrs1 hv himm =>
      have hread : readImm op [a, b, c] = some (.imm op rd rs1 v) := by
        simp [readImm, register_of_ok hrd, register_of_ok hrs1, parseNumber_eq_ok.mp hv]
      refine ⟨.imm op rd rs1 v, ?_, fun M x y _ => ?_⟩
      · cases op <;> exact hread
      · have hvalue : applyImm (x.read rs1) (BitVec.ofInt 32 v) op =
            op.eval (x.read rs1) imm16 := by
          cases op with
          | addi => rw [applyImm, ImmOp.eval, signExtend_eq himm (range_of_third hfault rfl rfl hv)]
          | andi => rw [applyImm, ImmOp.eval, zeroExtend_eq himm (range_of_third hfault rfl rfl hv)]
          | ori => rw [applyImm, ImmOp.eval, zeroExtend_eq himm (range_of_third hfault rfl rfl hv)]
          | xori => rw [applyImm, ImmOp.eval, zeroExtend_eq himm (range_of_third hfault rfl rfl hv)]
        rw [execute, Isa.execute, hvalue]
  | @lui a b rd imm16 v hrd hv himm =>
      refine ⟨.lui rd v, ?_, fun M x y _ => ?_⟩
      · simp [readOpcode, Isa.Instr.opcode, readLui, register_of_ok hrd, parseNumber_eq_ok.mp hv]
      · rw [execute, Isa.execute, zeroExtend_eq himm (range_of_lui hfault hv)]
  | @lw a m rd rs1 imm16 offset hrd hm himm =>
      obtain ⟨-, hmin, hmax⟩ : readOperand [] 0 .memory m = _ ∧ _ := readMemory_of_ok hm 0
      refine ⟨.lw rd rs1 offset, ?_, fun M x y _ => ?_⟩
      · simp [readOpcode, Isa.Instr.opcode, readMemory, register_of_ok hrd, memory_of_ok hm]
      · rw [Isa.execute, effectiveAddress, signExtend_eq himm ⟨hmin, Int.le_of_lt_add_one hmax⟩]
        rfl
  | @sw a m rs2 rs1 imm16 offset hrs2 hm himm =>
      obtain ⟨-, hmin, hmax⟩ : readOperand [] 0 .memory m = _ ∧ _ := readMemory_of_ok hm 0
      refine ⟨.sw rs2 rs1 offset, ?_, fun M x y _ => ?_⟩
      · simp [readOpcode, Isa.Instr.opcode, readMemory, register_of_ok hrs2, memory_of_ok hm]
      · rw [Isa.execute, effectiveAddress, signExtend_eq himm ⟨hmin, Int.le_of_lt_add_one hmax⟩]
        rfl
  | @branch cond a b t rs1 rs2 imm16 d hrs1 hrs2 hd himm =>
      obtain ⟨target, htarget, haddress⟩ := target_of_ok (by decide) hd himm
      refine ⟨.branch cond rs1 rs2 target, ?_, fun M x y hpc => ?_⟩
      · have hread : readBranch (positions 0 lines) cond [a, b, t] =
            some (.branch cond rs1 rs2 target) := by
          simp [readBranch, register_of_ok hrs1, register_of_ok hrs2, htarget]
        cases cond <;> exact hread
      · rw [execute, Isa.execute, haddress x.pc hpc]
  | @j t imm26 d hd himm =>
      obtain ⟨target, htarget, haddress⟩ := target_of_ok (by decide) hd himm
      refine ⟨.j target, ?_, fun M x y hpc => ?_⟩
      · simp [readOpcode, Isa.Instr.opcode, readJump, htarget]
      · rw [execute, Isa.execute, haddress x.pc hpc]
  | @jal t imm26 d hd himm =>
      obtain ⟨target, htarget, haddress⟩ := target_of_ok (by decide) hd himm
      refine ⟨.jal target, ?_, fun M x y hpc => ?_⟩
      · simp [readOpcode, Isa.Instr.opcode, readJump, htarget]
      · rw [execute, Isa.execute, haddress x.pc hpc]
  | @jr a rs1 hrs1 =>
      refine ⟨.jr rs1, ?_, fun _ _ _ _ => rfl⟩
      simp [readOpcode, Isa.Instr.opcode, readJr, register_of_ok hrs1]

/-- **The code of an accepted statement means the statement.** -/
theorem codes_of_encode {word : ℕ}
    (h : encodeStatement statement filename (placedLabels 0 lines) = .ok word) :
    ∃ s, readStatement (positions 0 lines) statement.text = some s ∧
      Codes statement.address word s := by
  simp only [encodeStatement] at h
  unfold readStatement
  cases hexpand : expand (splitWord statement.text) with
  | none => simp [hexpand] at h
  | some p =>
      obtain ⟨mnemonic, text⟩ := p
      simp only [hexpand] at h ⊢
      split at h
      · next hword =>
        rw [if_pos hword]
        simp only [encodeWord, bind_eq_ok] at h
        obtain ⟨number, hnumber, value, hvalue, heq⟩ := h
        obtain ⟨rfl, -, -⟩ := checkedRange_eq_ok.mp hvalue
        rw [parseNumber_eq_ok.mp hnumber]
        exact ⟨_, rfl, Except.ok.inj heq⟩
      · next hword =>
        rw [if_neg hword]
        cases hop : opcodeNamed mnemonic with
        | none =>
            rw [hop] at h
            cases h
        | some op =>
            rw [hop] at h
            have hfault : opcodeFault (placedLabels 0 lines) statement.address
                (operandsOf text) op = none := by
              rw [← failure_encodeOpcode statement filename, show encodeOpcode _ _ _ _ _ = _ from h]
              rfl
            obtain ⟨isa, hwrites, rfl, rfl⟩ := encodeOpcode_encodes h
            obtain ⟨i, hread, hmeans⟩ := means_of_writes hwrites hfault
            refine ⟨.instr i, ?_, isa, rfl, hmeans⟩
            rw [Option.bind_some, hread, Option.map_some]

end Statements

end Mini32.Source
