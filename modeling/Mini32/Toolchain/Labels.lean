import Mini32.Simulator.Step
import Mini32.Toolchain.Encoding
import Mini32.Toolchain.Layout

/-!
# Label references reach their label

A label's address counts the statements in front of its definition (`lookup_placedLabels`),
a branch or a jump to it is the instruction that goes there (`execute_reaches`), and the
simulator fetches that instruction from the image (`fetch32_image`).

The distance in the word is a residue.  It was checked against the range of its field, so
the residue is the distance itself (`toInt_eq_of_modEq`), and the target of the instruction
is the address of the label (`target_eq`).  A label is never mistaken for a number: its name
starts with a letter or an underscore, and `int` takes no such text (`int0_label`).

`Reads` says which operands a statement has, `TargetOperand` which of them is the target, and
`Transfers` that executing the statement in a state goes to its target.
-/

namespace Mini32.Toolchain

open Py Fallible

/-! ## The words of an image -/

section Words

open ByteStore

/-- The bytes of a word. -/
theorem toBytes_eq_ok {word : ℕ} {bytes : List (BitVec 8)} (h : toBytes word = .ok bytes) :
    bytes = [byteOf (BitVec.ofNat 32 word) 0, byteOf (BitVec.ofNat 32 word) 1,
      byteOf (BitVec.ofNat 32 word) 2, byteOf (BitVec.ofNat 32 word) 3] := by
  unfold toBytes at h
  split at h
  · exact (Except.ok.inj h).symm
  · nomatch h

/-- A memory that starts with an image. -/
def overlay (image : List (BitVec 8)) (m : ℕ → BitVec 8) (i : ℕ) : BitVec 8 :=
  (image[i]?).getD (m i)

/-- Behind the first bytes the rest of an image is laid. -/
theorem overlay_append (bytes image : List (BitVec 8)) (m : ℕ → BitVec 8) (i : ℕ) :
    overlay (bytes ++ image) m (bytes.length + i) =
      overlay image (fun k => m (bytes.length + k)) i := by
  unfold overlay
  rw [List.getElem?_append_right (Nat.le_add_right _ _), Nat.add_sub_cancel_left]

/-- A word behind the first bytes is a word of the rest. -/
theorem readWord_overlay_append (bytes image : List (BitVec 8)) (m : ℕ → BitVec 8) (o : ℕ) :
    readWord (overlay (bytes ++ image) m) (bytes.length + o) =
      readWord (overlay image fun k => m (bytes.length + k)) o := by
  simp only [readWord, Nat.add_assoc, overlay_append]

/-- Word `i` of an image is code `i`. -/
theorem readWord_image {words : List ℕ} {parts : List (List (BitVec 8))}
    (h : words.mapM toBytes = .ok parts) {i word : ℕ} (hi : words[i]? = some word)
    (m : ℕ → BitVec 8) : readWord (overlay parts.flatten m) (4 * i) = BitVec.ofNat 32 word := by
  induction words generalizing parts i m with
  | nil => nomatch hi
  | cons first words ih =>
      obtain ⟨bytes, parts', hbytes, hparts, rfl⟩ := mapM_cons_eq_ok.mp h
      obtain rfl := toBytes_eq_ok hbytes
      rw [List.flatten_cons]
      cases i with
      | zero =>
          obtain rfl := Option.some.inj hi
          exact ofBytes_byteOf _
      | succ i =>
          rw [← ih hparts hi fun k => m (4 + k), Nat.mul_add, Nat.add_comm]
          exact readWord_overlay_append _ _ _ _

end Words

/-! ## Displacements -/

/-- A signed field holds a value of its range. -/
theorem toInt_eq_of_modEq {k : ℕ} {imm : BitVec k} {v : ℤ} (hk : 0 < k)
    (himm : (imm.toNat : ℤ) ≡ v [ZMOD 2 ^ k]) (hmin : -2 ^ (k - 1) ≤ v)
    (hmax : v ≤ 2 ^ (k - 1) - 1) : imm.toInt = v := by
  have hpow : ((2 ^ k : ℕ) : ℤ) = 2 * 2 ^ (k - 1) := by
    rw [← pow_succ', Nat.sub_add_cancel hk]
    exact Nat.cast_pow 2 k
  have hmod : (imm.toNat : ℤ) % ((2 ^ k : ℕ) : ℤ) = v % ((2 ^ k : ℕ) : ℤ) := by
    push_cast
    exact himm
  rw [BitVec.toInt_eq_toNat_bmod, ← Int.emod_bmod, hmod, Int.emod_bmod]
  exact Int.bmod_eq_of_le_mul_two (by omega) (by omega)

/-- A displacement, as an integer. -/
theorem displacement_eq {k : ℕ} (imm : BitVec k) :
    Isa.displacement imm = BitVec.ofInt 32 (4 * imm.toInt) := by
  rw [Isa.displacement, BitVec.signExtend, BitVec.ofInt_mul]
  rfl

/-- The address of the next statement and the displacement to a target add up to the target,
modulo the width of the PC. -/
theorem target_eq {k : ℕ} {imm : BitVec k} {pc : Word} {target address : ℕ}
    (hpc : pc.toNat = address) (himm : 4 * imm.toInt = (target : ℤ) - (address + 4)) :
    pc + 4 + Isa.displacement imm = BitVec.ofNat 32 target := by
  have hword : pc + 4 = BitVec.ofInt 32 (address + 4) := by
    rw [BitVec.ofInt_add, ← hpc, BitVec.ofInt_natCast, BitVec.ofNat_toNat, BitVec.setWidth_eq]
    rfl
  rw [displacement_eq, himm, hword, ← BitVec.ofInt_add, add_sub_cancel, BitVec.ofInt_natCast]

/-! ## Names -/

section Names

/-- A character of a name is ASCII. -/
theorem toNat_lt_of_isNameChar {c : Char} (h : isNameChar c = true) : c.toNat < 128 := by
  simp only [isNameChar, isNameStart, Bool.or_eq_true, Bool.and_eq_true, decide_eq_true_eq] at h
  have hle : ∀ d : Char, d.toNat < 128 → c ≤ d → c.toNat < 128 := fun d hd hc =>
    lt_of_le_of_lt (show c.toNat ≤ d.toNat from hc) hd
  rcases h with ((⟨-, h⟩ | ⟨-, h⟩) | rfl) | ⟨-, h⟩
  · exact hle 'Z' (by decide) h
  · exact hle 'z' (by decide) h
  · decide
  · exact hle '9' (by decide) h

/-- A label starts like a name and has only characters of names. -/
theorem labelMatch_name {remaining label rest : Str}
    (h : labelMatch remaining = some (label, rest)) :
    (∃ c s, label = c :: s ∧ isNameStart c = true) ∧ ∀ c ∈ label, isNameChar c = true := by
  unfold labelMatch at h
  split at h
  · nomatch h
  · next c s =>
    split at h
    · next hstart =>
      split at h
      · obtain ⟨rfl, rfl⟩ := Prod.mk.inj (Option.some.inj h)
        have hname : isNameChar c = true := by rw [isNameChar, hstart, Bool.true_or]
        refine ⟨⟨c, s.takeWhile isNameChar, ?_, hstart⟩, fun d hd => List.mem_takeWhile_imp hd⟩
        rw [List.takeWhile_cons_of_pos hname]
      · nomatch h
    · nomatch h

/-- A label at the start of a line is a name. -/
theorem leadingLabels_name {fuel : ℕ} {remaining label : Str}
    (h : label ∈ (leadingLabels fuel remaining).1) :
    (∃ c s, label = c :: s ∧ isNameStart c = true) ∧ ∀ c ∈ label, isNameChar c = true := by
  induction fuel generalizing remaining with
  | zero => cases h
  | succ fuel ih =>
      rw [leadingLabels] at h
      cases hmatch : labelMatch remaining with
      | none =>
          rw [hmatch] at h
          cases h
      | some p =>
          rw [hmatch] at h
          rcases List.mem_cons.mp h with rfl | h
          · exact labelMatch_name hmatch
          · exact ih h

/-- **No label is a number.** -/
theorem int0_label {line label : Str} (h : label ∈ lineLabels line) : int0 label = none := by
  obtain ⟨⟨c, s, rfl, hstart⟩, hname⟩ := leadingLabels_name h
  have hinert : ∀ n < 128, isNameChar (Char.ofNat n) = true → IsInert (Char.ofNat n) := by decide
  have hvalue : ∀ n < 128, isNameStart (Char.ofNat n) = true → 10 ≤ digitValue (Char.ofNat n) ∧
      Char.ofNat n ≠ '+' ∧ Char.ofNat n ≠ '-' := by decide
  have hstart' := hvalue c.toNat (toNat_lt_of_isNameChar (hname c List.mem_cons_self))
  rw [Char.ofNat_toNat] at hstart'
  obtain ⟨hdigit, hplus, hminus⟩ := hstart' hstart
  refine int0_name (fun d hd => ?_) hdigit hplus hminus
  have hd' := hinert d.toNat (toNat_lt_of_isNameChar (hname d hd))
  rw [Char.ofNat_toNat] at hd'
  exact hd' (hname d hd)

end Names

/-! ## The place of a label -/

section Place

variable {before after : List Str} {line label : Str}

/-- **A label's address counts the statements in front of its definition.** -/
theorem lookup_placedLabels (hwell : WellFormed (before ++ line :: after))
    (h : label ∈ lineLabels line) :
    (placedLabels 0 (before ++ line :: after)).lookup label = some (4 * statementCount before) := by
  apply lookup_of_mem
  · rw [map_fst_placedLabels]
    exact hwell.labels
  · rw [placedLabels_append, placedLabels, Nat.zero_add]
    have hline : (label, 4 * statementCount before) ∈
        (lineLabels line).map (·, 4 * statementCount before) := List.mem_map_of_mem h
    exact List.mem_append_right _ (List.mem_append_left _ hline)

/-- A label of the table is defined on some line. -/
theorem exists_line {lines : List Str} (h : label ∈ lines.flatMap lineLabels) :
    ∃ before line after, lines = before ++ line :: after ∧ label ∈ lineLabels line := by
  obtain ⟨line, hline, hlabel⟩ := List.mem_flatMap.mp h
  obtain ⟨before, after, rfl⟩ := List.append_of_mem hline
  exact ⟨before, line, after, rfl, hlabel⟩

end Place

/-! ## Branches and jumps -/

/-- The statement's mnemonic and its operands. -/
def Reads (statement : Statement) (op : Opcode) (operands : List Str) : Prop :=
  ∃ mnemonic text, expand (splitWord statement.text) = some (mnemonic, text) ∧
    opcodeNamed mnemonic = some op ∧ operandsOf text = operands

/-- `token` is the target operand of a branch, `J` or `JAL`, with a displacement of `bits` bits. -/
inductive TargetOperand (statement : Statement) (token : Str) : ℕ → Prop
  | branch (cond : Isa.Cond) (a b : Str) (h : Reads statement cond.opcode [a, b, token]) :
      TargetOperand statement token 16
  | j (h : Reads statement .j [token]) : TargetOperand statement token 26
  | jal (h : Reads statement .jal [token]) : TargetOperand statement token 26

/-- Executing the statement transfers control: always for a jump, and for a branch if its
condition holds of the registers it names. -/
inductive Transfers (statement : Statement) (filename : Str) (a : Isa.ArchState) : Prop
  | branch {cond : Isa.Cond} {x y token : Str} {rs1 rs2 : Reg}
      (h : Reads statement cond.opcode [x, y, token])
      (hrs1 : parseRegister statement filename x = .ok rs1.toNat)
      (hrs2 : parseRegister statement filename y = .ok rs2.toNat)
      (hcond : cond.holds (a.read rs1) (a.read rs2) = true) : Transfers statement filename a
  | j {token : Str} (h : Reads statement .j [token]) : Transfers statement filename a
  | jal {token : Str} (h : Reads statement .jal [token]) : Transfers statement filename a

section Statements

variable {statement : Statement} {filename : Str} {labels : Labels} {op : Opcode}
  {operands : List Str}

/-- A statement has one reading. -/
theorem Reads.unique {op' : Opcode} {operands' : List Str} (h : Reads statement op operands)
    (h' : Reads statement op' operands') : op = op' ∧ operands = operands' := by
  obtain ⟨mnemonic, text, hexpand, hop, rfl⟩ := h
  obtain ⟨mnemonic', text', hexpand', hop', rfl⟩ := h'
  obtain ⟨rfl, rfl⟩ := Prod.mk.inj (Option.some.inj (hexpand.symm.trans hexpand'))
  exact ⟨Option.some.inj (hop.symm.trans hop'), rfl⟩

/-- `.word` names no opcode. -/
theorem ne_directive {mnemonic : Str} (h : opcodeNamed mnemonic = some op) :
    mnemonic ≠ ".WORD".toList := by
  rintro rfl
  exact absurd h (by
    have hnone : opcodeNamed ".WORD".toList = none := by decide
    rw [hnone]
    nofun)

/-- The code of a statement spells its operands. -/
theorem encodes_of_reads {word : ℕ} (h : Reads statement op operands)
    (hword : encodeStatement statement filename labels = .ok word) :
    ∃ i : Isa.Instr, Writes statement filename labels operands i ∧ i.opcode = op ∧
      word = (Isa.encode i).toNat := by
  obtain ⟨mnemonic, text, hexpand, hop, rfl⟩ := h
  have hdirective : ∀ text', expand (splitWord statement.text) ≠ some (".WORD".toList, text') := by
    intro text' heq
    exact ne_directive hop (Prod.mk.inj (Option.some.inj (hexpand.symm.trans heq))).1
  obtain ⟨mnemonic', text', op', hexpand', hop', i, hwrites, hi, hcode⟩ :=
    encodeStatement_encodes hword hdirective
  obtain ⟨rfl, rfl⟩ := Prod.mk.inj (Option.some.inj (hexpand.symm.trans hexpand'))
  exact ⟨i, hwrites, hi.trans (Option.some.inj (hop'.symm.trans hop)), hcode⟩

/-- A label's displacement is the distance to it in words, and it fits. -/
theorem resolveDisplacement_label {token : Str} {bits target : ℕ} {d : ℤ}
    (htoken : int0 token = none) (hlookup : labels.lookup token = some target)
    (h : resolveDisplacement statement filename token bits labels = .ok d) :
    4 * d = (target : ℤ) - (statement.address + 4) ∧ -2 ^ (bits - 1) ≤ d ∧
      d ≤ 2 ^ (bits - 1) - 1 := by
  unfold resolveDisplacement at h
  simp only [htoken, hlookup] at h
  split at h
  · nomatch h
  · next haligned =>
    obtain ⟨rfl, hmin, hmax⟩ := checkedRange_eq_ok.mp h
    refine ⟨?_, hmin, hmax⟩
    omega

/-! ### The instruction of a branch or a jump -/

/-- Each branch opcode has a condition of its own. -/
theorem opcode_injective : Function.Injective Isa.Cond.opcode := by
  intro c c'
  cases c <;> cases c' <;> decide

/-- What a branch statement spells, … -/
theorem writes_branch {x y token : Str} {i : Isa.Instr} {cond : Isa.Cond}
    (h : Writes statement filename labels [x, y, token] i) (hi : i.opcode = cond.opcode) :
    ∃ rs1 rs2 imm16 d, i = .branch cond rs1 rs2 imm16 ∧
      parseRegister statement filename x = .ok rs1.toNat ∧
      parseRegister statement filename y = .ok rs2.toNat ∧
      resolveDisplacement statement filename token 16 labels = .ok d ∧
      (imm16.toNat : ℤ) ≡ d [ZMOD 2 ^ 16] := by
  cases h with
  | @alu op =>
      have hne : ∀ (op : Isa.AluOp) (cond : Isa.Cond), op.opcode ≠ cond.opcode := by
        intro op cond
        cases op <;> cases cond <;> decide
      exact absurd hi (hne op cond)
  | @imm op =>
      have hne : ∀ (op : Isa.ImmOp) (cond : Isa.Cond), op.opcode ≠ cond.opcode := by
        intro op cond
        cases op <;> cases cond <;> decide
      exact absurd hi (hne op cond)
  | @branch cond' a b t rs1 rs2 imm16 d hrs1 hrs2 hd himm =>
      obtain rfl := opcode_injective hi
      exact ⟨rs1, rs2, imm16, d, rfl, hrs1, hrs2, hd, himm⟩

/-- … and a jump statement. -/
theorem writes_jump {token : Str} {i : Isa.Instr}
    (h : Writes statement filename labels [token] i) (hi : i.opcode = .j ∨ i.opcode = .jal) :
    ∃ imm26 d, (i = .j imm26 ∨ i = .jal imm26) ∧
      resolveDisplacement statement filename token 26 labels = .ok d ∧
      (imm26.toNat : ℤ) ≡ d [ZMOD 2 ^ 26] := by
  cases h with
  | @j t imm26 d hd himm => exact ⟨imm26, d, .inl rfl, hd, himm⟩
  | @jal t imm26 d hd himm => exact ⟨imm26, d, .inr rfl, hd, himm⟩
  | jr => rcases hi with hi | hi <;> nomatch hi

/-- **A transfer goes to the label**, whatever bus the instruction runs over. -/
theorem execute_reaches {B : Type} (M : Isa.BusModel B) (b : B) {a : Isa.ArchState} {token : Str}
    {bits target word : ℕ} (hoperand : TargetOperand statement token bits)
    (htransfers : Transfers statement filename a) (htoken : int0 token = none)
    (hlookup : labels.lookup token = some target)
    (hword : encodeStatement statement filename labels = .ok word)
    (hpc : a.pc.toNat = statement.address) :
    ∃ i e, word = (Isa.encode i).toNat ∧ Isa.execute M a b i = .ok (e, b) ∧ e.halts = false ∧
      e.nextPc = BitVec.ofNat 32 target := by
  -- PC + 4 plus the displacement, modulo `2 ^ 32`
  have hdistance : ∀ {k : ℕ} {imm : BitVec k} {d : ℤ}, 0 < k →
      resolveDisplacement statement filename token k labels = .ok d →
      (imm.toNat : ℤ) ≡ d [ZMOD 2 ^ k] →
      a.pc + 4 + Isa.displacement imm = BitVec.ofNat 32 target := by
    intro k imm d hk hd himm
    obtain ⟨heq, hmin, hmax⟩ := resolveDisplacement_label htoken hlookup hd
    refine target_eq hpc ?_
    rw [toInt_eq_of_modEq hk himm hmin hmax, heq]
  have hjump : (Reads statement .j [token] ∨ Reads statement .jal [token]) →
      ∃ i e, word = (Isa.encode i).toNat ∧ Isa.execute M a b i = .ok (e, b) ∧ e.halts = false ∧
        e.nextPc = BitVec.ofNat 32 target := by
    rintro (hreads | hreads)
    all_goals
      obtain ⟨i, hwrites, hi, rfl⟩ := encodes_of_reads hreads hword
      obtain ⟨imm26, d, rfl | rfl, hd, himm⟩ := writes_jump hwrites (by rw [hi]; decide)
      · exact ⟨_, _, rfl, rfl, rfl, hdistance (by decide) hd himm⟩
      · exact ⟨_, _, rfl, rfl, rfl, hdistance (by decide) hd himm⟩
  cases hoperand with
  | j hreads => exact hjump (.inl hreads)
  | jal hreads => exact hjump (.inr hreads)
  | branch cond x y hreads =>
      obtain ⟨i, hwrites, hi, rfl⟩ := encodes_of_reads hreads hword
      obtain ⟨rs1, rs2, imm16, d, rfl, hrs1, hrs2, hd, himm⟩ := writes_branch hwrites hi
      refine ⟨_, _, rfl, rfl, rfl, ?_⟩
      cases htransfers with
      | j hreads' => exact absurd (hreads.unique hreads').2 (by simp)
      | jal hreads' => exact absurd (hreads.unique hreads').2 (by simp)
      | @branch cond' x' y' token' rs1' rs2' hreads' hrs1' hrs2' hcond =>
          -- the branch that transfers is the one that names the label
          obtain ⟨hop, hoperands⟩ := hreads.unique hreads'
          obtain rfl := opcode_injective hop
          obtain ⟨rfl, rfl, -⟩ : x = x' ∧ y = y' ∧ token = token' := by simpa using hoperands
          obtain rfl := BitVec.eq_of_toNat_eq (Except.ok.inj (hrs1.symm.trans hrs1'))
          obtain rfl := BitVec.eq_of_toNat_eq (Except.ok.inj (hrs2.symm.trans hrs2'))
          rw [if_pos hcond]
          exact hdistance (by decide) hd himm

end Statements

/-! ## Running the image -/

section Image

variable {image : List (BitVec 8)} {words : List ℕ} {parts : List (List (BitVec 8))}

/-- An image has four bytes for each word. -/
theorem length_image (hparts : words.mapM toBytes = .ok parts) :
    parts.flatten.length = 4 * words.length := by
  induction words generalizing parts with
  | nil =>
      cases hparts
      rfl
  | cons word words ih =>
      obtain ⟨bytes, parts', hbytes, hparts', rfl⟩ := mapM_cons_eq_ok.mp hparts
      obtain rfl := toBytes_eq_ok hbytes
      rw [List.flatten_cons, List.length_append, ih hparts']
      simp only [List.length_cons, List.length_nil]
      omega

/-- The simulator fetches code `i` at its address. -/
theorem fetch32_image {rom : Cpp.Rom} {bus : Cpp.Bus} {pc : Word} {i word : ℕ}
    (hparts : words.mapM toBytes = .ok parts) (hi : words[i]? = some word)
    (hfits : parts.flatten.length ≤ 64 * 1024)
    (hload : rom.loadBytes 0 parts.flatten = some bus.rom) (hpc : pc.toNat = 4 * i) :
    bus.fetch32 pc = .ok (BitVec.ofNat 32 word) := by
  obtain ⟨hlt, -⟩ := List.getElem?_eq_some_iff.mp hi
  rw [length_image hparts] at hfits
  have hindex : (BitVec.ofNat 14 i).toNat = i := by
    rw [BitVec.toNat_ofNat]
    omega
  have haddress : pc = Isa.wordAddress 0 (BitVec.ofNat 14 i) := by
    apply BitVec.eq_of_toNat_eq
    rw [Isa.toNat_wordAddress (by decide), hindex, hpc]
    exact (Nat.zero_add _).symm
  have hrom : bus.rom.bytes = overlay parts.flatten rom.bytes := by
    unfold Cpp.Rom.loadBytes at hload
    split at hload
    · nomatch hload
    · rw [← Option.some.inj hload]
      funext k
      simp [overlay, Cpp.Rom.kBaseAddress]
  have hword : bus.memory.rom (BitVec.ofNat 14 i) = BitVec.ofNat 32 word := by
    change ByteStore.readWord bus.rom.bytes (4 * (BitVec.ofNat 14 i).toNat) = _
    rw [hindex, hrom, readWord_image hparts hi]
  rw [← Cpp.Bus.fetch32_memory, haddress, Isa.Memory.fetch,
    if_neg (not_not.mpr (Isa.aligned_wordAddress (by decide) _)), Isa.region_romWord]
  simp only [Isa.wordIndex_wordAddress (show (0 : Word).toNat % 2 ^ 16 = 0 by decide), hword]

/-- A step over a fetched instruction that retires. -/
theorem step_retires {cpu : Cpp.CpuCore} {bus b : Cpp.Bus} {i : Isa.Instr} {e : Isa.Effect}
    (hm : cpu.microstate = .fetch) (hf : bus.fetch32 cpu.pc = .ok (Isa.encode i))
    (hx : Isa.execute Cpp.Bus.busModel cpu.arch bus i = .ok (e, b)) (hhalt : e.halts = false) :
    ∃ cpu' bus', cpu.step bus = .ok (.retired, cpu', bus') ∧ cpu'.pc = e.nextPc := by
  obtain ⟨result, cpu', bus', hstep, hdone⟩ := cpu.step_completes bus hm
  have hfetch : Cpp.Bus.busModel.fetch bus cpu.arch.pc = .ok (Isa.encode i) := hf
  rw [Isa.step_retire hfetch (Isa.decode_encode i) hx] at hdone
  obtain ⟨hresult, -, -, harch, -, -⟩ := hdone
  rw [hhalt] at hresult
  obtain rfl : result = .retired := hresult
  exact ⟨cpu', bus', hstep 0, congrArg Isa.ArchState.pc harch⟩

end Image

end Mini32.Toolchain
