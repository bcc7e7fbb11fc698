import Mini32.Toolchain.Operands

/-!
# One notion of a legal word

The C++ decoder, the RTL decoder and the disassembler test reserved bits each in
its own way.  All three compute the documented `Isa.decode`, so they accept the
same words, and what the disassembler prints of a legal word says the operands
that the C++ decoder fills in.

The first section reads the printed tokens by the documentation, kind by kind, and puts them
together for a whole instruction (`says_textOf`).  The second compares the decoders; that a
legal word is not printed as a directive and an illegal one always is decides legality from
the text alone (`not_isWordLine_textOf`).
-/

namespace Mini32.Toolchain

open Py

/-! ## What is printed says what is decoded -/

section Texts

variable (labels : Labels) (address : ℕ) (i : Isa.Instr)

/-- A printed register reads as itself. -/
theorem readRegister_register (r : Reg) : readRegister (register r.toNat) = some r.toNat := by
  have hread : ∀ r : Reg, readRegister (register r.toNat) = some r.toNat := by decide +kernel
  exact hread r

/-- The same as an operand. -/
theorem readOperand_register (r : Reg) :
    readOperand labels address .register (register r.toNat) = some (.register r.toNat) := by
  rw [readOperand, readRegister_register, Option.map_some]

/-- A printed signed number, … -/
theorem readOperand_signed (x : BitVec 16) :
    readOperand labels address (.signed 16) (decimal (signExtend x.toNat 16)) =
      some (.number x.toInt) := by
  rw [readOperand, int0_signExtend (by decide), Option.map_some]

/-- … an unsigned one in hexadecimal, … -/
theorem readOperand_unsigned (x : BitVec 16) :
    readOperand labels address (.unsigned 16) ("0x".toList ++ hex 4 x.toNat) =
      some (.number x.toNat) :=
  congrArg (Option.map Operand.number) (int0_hex 4 x.toNat)

/-- … a displacement, … -/
theorem readOperand_target {k : ℕ} (hk : k ≤ 32) (x : BitVec k) :
    readOperand labels address (.target k) (decimal (signExtend x.toNat k)) =
      some (.number x.toInt) := by
  rw [readOperand, readTarget, int0_signExtend hk, Option.map_some]

/-- … and a memory operand. -/
theorem readOperand_memory (base : Reg) (x : BitVec 16) :
    readOperand labels address .memory (memoryToken base x) =
      some (.memory x.toInt base.toNat) := by
  simp only [readOperand, memoryMatch_token, int0_signExtend (show 16 ≤ 32 by decide),
    readRegister_register, Option.bind_eq_bind, Option.bind_some]
  rfl

/-- **Each printed token denotes its operand.** -/
theorem denoted_tokensOf :
    List.zipWith (readOperand labels address) (Mnemonic.opcode i.opcode).kinds (tokensOf i) =
      (writtenOperands i).map some := by
  have hbranch := readOperand_target labels address (show 16 ≤ 32 by decide)
  have hjump := readOperand_target labels address (show 26 ≤ 32 by decide)
  cases i with
  | alu op rd rs1 rs2 =>
      cases op <;> simp only [Isa.Instr.opcode, Isa.AluOp.opcode, Mnemonic.kinds, tokensOf,
        writtenOperands, List.zipWith, readOperand_register, List.map]
  | imm op rd rs1 imm16 =>
      cases op with
      | addi =>
          simp only [Isa.Instr.opcode, Isa.ImmOp.opcode, Mnemonic.kinds, tokensOf,
            writtenOperands, List.zipWith, readOperand_register, readOperand_signed, List.map,
            if_true]
      | _ =>
          simp only [Isa.Instr.opcode, Isa.ImmOp.opcode, Mnemonic.kinds, tokensOf,
            writtenOperands, List.zipWith, readOperand_register, readOperand_unsigned, List.map,
            reduceCtorEq, if_false]
  | branch cond rs1 rs2 imm16 =>
      cases cond <;> simp only [Isa.Instr.opcode, Isa.Cond.opcode, Mnemonic.kinds, tokensOf,
        writtenOperands, List.zipWith, readOperand_register, hbranch, List.map]
  | _ =>
      simp only [Isa.Instr.opcode, Mnemonic.kinds, tokensOf, writtenOperands, List.zipWith,
        readOperand_register, readOperand_unsigned, readOperand_memory, hjump, List.map]

/-- The printed text splits into the mnemonic and the joined tokens. -/
theorem split_textOf : (splitWord (textOf i)).headD [] = opcodeName i.opcode ∧
    operandsOf (operandText (textOf i)) = tokensOf i := by
  by_cases hnil : tokensOf i = []
  · cases i with
    | nop => exact ⟨rfl, rfl⟩
    | halt => exact ⟨rfl, rfl⟩
    | _ => cases hnil
  · have htext := textOf_eq_join hnil
    have htokens := isToken_tokensOf i
    obtain ⟨token, tokens, hcons⟩ := List.exists_cons_of_ne_nil hnil
    rw [hcons] at htext htokens
    have hplain := isPlainText_join htokens
    have hsplit : splitWord (textOf i) =
        [opcodeName i.opcode, join ", ".toList (token :: tokens)] := by
      rw [htext]
      exact splitWord_word_space (isToken_opcodeName i.opcode).isWord hplain.ne_nil hplain.head
    refine ⟨by rw [hsplit]; rfl, ?_⟩
    rw [operandText, hsplit, hcons]
    exact operandsOf_join htokens

/-- The name of an opcode is its mnemonic. -/
theorem mnemonicNamed_opcodeName (op : Opcode) :
    mnemonicNamed (opcodeName op) = some (.opcode op) := by
  obtain ⟨hret, hword⟩ := opcodeName_ne op
  rw [mnemonicNamed, upper_opcodeName, if_neg hret, if_neg hword, opcodeNamed_opcodeName,
    Option.map_some]

/-- As many tokens are printed as the mnemonic takes operands. -/
theorem length_tokensOf : (tokensOf i).length = (Mnemonic.opcode i.opcode).kinds.length := by
  cases i with
  | alu op => cases op <;> rfl
  | imm op => cases op <;> rfl
  | branch cond => cases cond <;> rfl
  | _ => rfl

/-- **The printed statement says the instruction.** -/
theorem says_textOf :
    Says labels address (textOf i) (.opcode i.opcode) (writtenOperands i) := by
  obtain ⟨hname, htokens⟩ := split_textOf i
  refine
    { named := by rw [hname, mnemonicNamed_opcodeName]
      count := by rw [htokens, length_tokensOf]
      nonempty := fun token hmem => ?_
      denoted := by rw [htokens, denoted_tokensOf]
      inRange := inRange_writtenOperands i }
  rw [htokens] at hmem
  exact (isToken_tokensOf i token hmem).ne_nil

end Texts

/-! ## The three decoders -/

/-- A `.word` line. -/
def IsWordLine (line : Str) : Prop := ".word ".toList <+: line

/-- An illegal word is printed as a directive. -/
theorem isWordLine_invalid (word : ℕ) : IsWordLine (invalid word) :=
  ⟨"0x".toList ++ hex 8 word, rfl⟩

/-- A legal word is printed with its opcode's name in front. -/
theorem exists_textOf (i : Isa.Instr) : ∃ rest, textOf i = opcodeName i.opcode ++ rest := by
  by_cases hnil : tokensOf i = []
  · cases i with
    | nop => exact ⟨[], rfl⟩
    | halt => exact ⟨[], rfl⟩
    | _ => cases hnil
  · exact ⟨_, textOf_eq_join hnil⟩

/-- A mnemonic starts with a letter. -/
theorem not_isWordLine_textOf (i : Isa.Instr) : ¬ IsWordLine (textOf i) := by
  rintro ⟨rest, hrest⟩
  obtain ⟨tail, htail⟩ := exists_textOf i
  have hname : ∀ op : Opcode, (opcodeName op).head? ≠ some '.' := by
    intro op
    cases op <;> decide
  have hhead : (textOf i).head? = some '.' := by rw [← hrest]; rfl
  rw [htail, List.head?_append_of_ne_nil _ (isToken_opcodeName i.opcode).ne_nil] at hhead
  exact hname i.opcode hhead

/-- The RTL decoder raises `malformed` only without `valid`. -/
theorem valid_of_malformed {w : Word} (h : (Rtl.decoder w).malformed = true) :
    (Rtl.decoder w).valid = false := by
  unfold Rtl.decoder at h ⊢
  grind

/-- The instruction whose fields these are. -/
def instrOf (d : Cpp.DecodedInstruction) : Isa.Instr :=
  let rd : Reg := d.rd.setWidth 5
  let rs1 : Reg := d.rs1.setWidth 5
  let rs2 : Reg := d.rs2.setWidth 5
  match d.opcode with
  | .nop => .nop
  | .add => .alu .add rd rs1 rs2
  | .sub => .alu .sub rd rs1 rs2
  | .and => .alu .and rd rs1 rs2
  | .or => .alu .or rd rs1 rs2
  | .xor => .alu .xor rd rs1 rs2
  | .slt => .alu .slt rd rs1 rs2
  | .shl => .alu .shl rd rs1 rs2
  | .shr => .alu .shr rd rs1 rs2
  | .addi => .imm .addi rd rs1 d.imm16
  | .andi => .imm .andi rd rs1 d.imm16
  | .ori => .imm .ori rd rs1 d.imm16
  | .xori => .imm .xori rd rs1 d.imm16
  | .lui => .lui rd d.imm16
  | .lw => .lw rd rs1 d.imm16
  | .sw => .sw rs2 rs1 d.imm16
  | .beq => .branch .eq rs1 rs2 d.imm16
  | .bne => .branch .ne rs1 rs2 d.imm16
  | .blt => .branch .lt rs1 rs2 d.imm16
  | .bge => .branch .ge rs1 rs2 d.imm16
  | .j => .j (d.imm26.setWidth 26)
  | .jal => .jal (d.imm26.setWidth 26)
  | .jr => .jr rs1
  | .halt => .halt

/-- **The decoded fields determine the instruction.** -/
theorem instrOf_fieldsOf (i : Isa.Instr) : instrOf (Cpp.Decoder.fieldsOf i) = i := by
  cases i with
  | alu op rd rs1 rs2 => cases op <;> simp [instrOf, Cpp.Decoder.fieldsOf, Isa.AluOp.opcode]
  | imm op rd rs1 imm16 => cases op <;> simp [instrOf, Cpp.Decoder.fieldsOf, Isa.ImmOp.opcode]
  | branch cond rs1 rs2 imm16 =>
      cases cond <;> simp [instrOf, Cpp.Decoder.fieldsOf, Isa.Cond.opcode]
  | _ => simp [instrOf, Cpp.Decoder.fieldsOf]

/-- Legality of a word across the decoders, and what its disassembly says. -/
structure LegalityAgrees (w : Word) : Prop where
  legal_rtl : (∃ d, Cpp.Decoder.decode w = .ok d) ↔ (Rtl.decoder w).valid = true
  legal_text : (∃ d, Cpp.Decoder.decode w = .ok d) ↔ ¬ IsWordLine (disassembleWord w.toNat)
  illegal : Cpp.Decoder.decode w = .error .illegalOpcode ↔
    (Rtl.decoder w).valid = false ∧ (Rtl.decoder w).malformed = false
  malformed : Cpp.Decoder.decode w = .error .malformedEncoding ↔ (Rtl.decoder w).malformed = true
  text : ∀ d, Cpp.Decoder.decode w = .ok d → ∀ labels address,
    Says labels address (disassembleWord w.toNat) (.opcode d.opcode) (usedOperands d)
  unique : ∀ d w', Cpp.Decoder.decode w = .ok d → Cpp.Decoder.decode w' = .ok d → w = w'

/-- A word that decodes to the fields of an instruction is its encoding. -/
theorem decode_eq_ok {w : Word} {d : Cpp.DecodedInstruction} (h : Cpp.Decoder.decode w = .ok d) :
    d = Cpp.Decoder.fieldsOf (instrOf d) ∧ w = Isa.encode (instrOf d) := by
  rw [Cpp.Decoder.decode_eq] at h
  cases hd : Isa.decode w with
  | error fault => rw [hd] at h; cases h
  | ok i =>
      rw [hd] at h
      obtain rfl : Cpp.Decoder.fieldsOf i = d := Except.ok.inj h
      rw [instrOf_fieldsOf]
      exact ⟨rfl, (Isa.encode_of_decode hd).symm⟩

/-- **Legality of a word is the same everywhere.** -/
theorem legality_agrees (w : Word) : LegalityAgrees w := by
  have hcpp := Cpp.Decoder.decode_eq w
  have hrtl := Rtl.decoder_eq w
  have htext := disassembleWord_eq w
  have hunique : ∀ d w', Cpp.Decoder.decode w = .ok d → Cpp.Decoder.decode w' = .ok d → w = w' :=
    fun d w' h h' => (decode_eq_ok h).2.trans (decode_eq_ok h').2.symm
  cases hd : Isa.decode w with
  | ok i =>
      rw [hd] at hcpp hrtl htext
      have hok : Cpp.Decoder.decode w = .ok (Cpp.Decoder.fieldsOf i) := hcpp
      have hvalid : (Rtl.decoder w).valid = true := hrtl.1
      have hmalformed : (Rtl.decoder w).malformed = false :=
        Bool.eq_false_iff.mpr fun h => absurd hvalid (by simp [valid_of_malformed h])
      refine
        { legal_rtl := ⟨fun _ => hvalid, fun _ => ⟨_, hok⟩⟩
          legal_text := ⟨fun _ => htext ▸ not_isWordLine_textOf i, fun _ => ⟨_, hok⟩⟩
          illegal := by simp [hok, hvalid]
          malformed := by simp [hok, hmalformed]
          text := fun d h labels address => ?_
          unique := hunique }
      obtain rfl : Cpp.Decoder.fieldsOf i = d := Except.ok.inj (hok.symm.trans h)
      rw [htext, opcode_fieldsOf, usedOperands_fieldsOf]
      exact says_textOf labels address i
  | error fault =>
      rw [hd] at hcpp hrtl htext
      have herror : Cpp.Decoder.decode w = .error (Cpp.Decoder.errorOf fault) := hcpp
      have hnot : ¬ ∃ d, Cpp.Decoder.decode w = .ok d := by
        rintro ⟨d, h⟩
        cases herror.symm.trans h
      have hline : IsWordLine (disassembleWord w.toNat) := htext ▸ isWordLine_invalid w.toNat
      have htext' : ∀ d, Cpp.Decoder.decode w = .ok d → ∀ labels address,
          Says labels address (disassembleWord w.toNat) (.opcode d.opcode) (usedOperands d) :=
        fun d h => absurd ⟨d, h⟩ hnot
      cases fault with
      | illegal =>
          obtain ⟨hvalid, hmalformed⟩ := hrtl
          exact
            { legal_rtl := by simp [hnot, hvalid]
              legal_text := by simp [hnot, hline]
              illegal := by simp [herror, Cpp.Decoder.errorOf, hvalid, hmalformed]
              malformed := by simp [herror, Cpp.Decoder.errorOf, hmalformed]
              text := htext'
              unique := hunique }
      | malformed =>
          obtain ⟨hvalid, hmalformed⟩ := hrtl
          exact
            { legal_rtl := by simp [hnot, hvalid]
              legal_text := by simp [hnot, hline]
              illegal := by simp [herror, Cpp.Decoder.errorOf, hmalformed]
              malformed := by simp [herror, Cpp.Decoder.errorOf, hmalformed]
              text := htext'
              unique := hunique }

end Mini32.Toolchain
