import Mini32.Toolchain.DigitLimit

/-!
# What the assembler accepts

A statement is accepted only if it says a mnemonic with its documented operands,
each of which is in the word, and any other statement is an `AssemblyError` at
its line.  `ignoresNothing_iff` is exact about the two exceptions: `RET` drops
the text behind it, and an integer over Python's digit limit raises a bare
`ValueError`.

## How it is proved

* *Errors.*  Every exception of a parser is an `AssemblyError` at the statement's line or
  the `ValueError` of a conversion (`raises_encodeStatement`).
* *Operands.*  What a parser accepts, the documentation's reading of the token accepts with
  the same value and within the range of its kind (the `_of_ok` lemmas).
* *Statements.*  The instruction that an accepted statement spells has these values in its
  fields (`says_of_encodeOpcode`), and a decoded instruction shows them.

The condition of `ignoresNothing_iff` is on the text: what is behind a `RET`, and the operand
at which the limit is met (`LimitFirst`).
-/

namespace Mini32.Toolchain

open Py Fallible

/-- The word holds the operands: `RET` is `JR r31` and has none. -/
def Holds (word : ℕ) : Mnemonic → List Operand → Prop
  | .opcode op, operands => ∃ d, Cpp.Decoder.decode (BitVec.ofNat 32 word) = .ok d ∧
      d.opcode = op ∧ usedOperands d = operands
  | .ret, operands => word = (Isa.encode (.jr 31)).toNat ∧ operands = []
  | .word, operands => operands = [.number word]

/-- **The assembler ignores nothing** in a statement. -/
structure IgnoresNothing (statement : Statement) (filename : Str) (labels : Labels) : Prop where
  accepted : ∀ word, encodeStatement statement filename labels = .ok word → word < 2 ^ 32 ∧
    ∃ mnemonic operands, Says labels statement.address statement.text mnemonic operands ∧
      Holds word mnemonic operands
  rejected : ∀ e, encodeStatement statement filename labels = .error e →
    ∃ message, e = assemblyError filename statement.line message

/-! ## Errors name their line -/

section Errors

variable (statement : Statement) (filename : Str) (labels : Labels)

/-- An `AssemblyError` at the line of the statement, or a conversion over the digit limit. -/
def AtLine (e : PyError) : Prop :=
  e = .conversion ∨ ∃ message, e = assemblyError filename statement.line message

variable {α : Type}

/-- A rejection names the line. -/
theorem raises_reject (message : Str) :
    Raises (AtLine statement filename) (reject (α := α) statement filename message) :=
  .error (.inr ⟨message, rfl⟩)

/-- The errors of a register, … -/
theorem raises_parseRegister (token : Str) :
    Raises (AtLine statement filename) (parseRegister statement filename token) := by
  unfold parseRegister
  simp only
  split
  · exact .ok _
  · split
    · exact raises_reject _ _ _
    · split
      · exact .error (.inl rfl)
      · split
        · exact .ok _
        · exact raises_reject _ _ _

/-- … of a number, … -/
theorem raises_parseNumber (token : Str) :
    Raises (AtLine statement filename) (parseNumber statement filename token) := by
  unfold parseNumber
  split
  · exact .ok _
  · exact raises_reject _ _ _

/-- … of a range check, … -/
theorem raises_checkedRange (value minimum maximum : ℤ) (description : Str) :
    Raises (AtLine statement filename)
      (checkedRange statement filename value minimum maximum description) := by
  unfold checkedRange
  split
  · exact .ok _
  · split
    · exact .error (.inl rfl)
    · exact raises_reject _ _ _

/-- … of the operand count, … -/
theorem raises_splitOperands (text : Str) (count : ℕ) :
    Raises (AtLine statement filename) (splitOperands statement filename text count) := by
  unfold splitOperands
  split
  · exact .ok _
  · exact raises_reject _ _ _

/-- … of a target, … -/
theorem raises_resolveDisplacement (token : Str) (bits : ℕ) :
    Raises (AtLine statement filename)
      (resolveDisplacement statement filename token bits labels) := by
  unfold resolveDisplacement
  cases int0 token with
  | some value => exact raises_checkedRange _ _ _ _ _ _
  | none =>
      cases labels.lookup token with
      | none => exact raises_reject _ _ _
      | some target =>
          simp only
          split
          · exact raises_reject _ _ _
          · exact raises_checkedRange _ _ _ _ _ _

/-- … of a memory operand, … -/
theorem raises_parseMemoryOperand (token : Str) :
    Raises (AtLine statement filename) (parseMemoryOperand statement filename token) := by
  unfold parseMemoryOperand
  split
  · exact raises_reject _ _ _
  · refine .bind (raises_parseNumber _ _ _) fun number => ?_
    refine .bind (raises_checkedRange _ _ _ _ _ _) fun offset => ?_
    exact .bind (raises_parseRegister _ _ _) fun base => .ok _

/-- … and of a statement with a known mnemonic. -/
theorem raises_encodeOpcode (text : Str) (op : Opcode) :
    Raises (AtLine statement filename) (encodeOpcode statement filename text labels op) := by
  have hregister := raises_parseRegister statement filename
  have hnumber := raises_parseNumber statement filename
  have hrange := raises_checkedRange statement filename
  have hsplit := raises_splitOperands statement filename text
  have htarget := raises_resolveDisplacement statement filename labels
  have hmemory := raises_parseMemoryOperand statement filename
  cases op with
  | nop | halt => exact .bind (hsplit 0) fun _ => .ok _
  | add | sub | and | or | xor | slt | shl | shr =>
      exact .bind (hsplit 3) fun _ => .bind (hregister _) fun _ => .bind (hregister _) fun _ =>
        .bind (hregister _) fun _ => .ok _
  | addi | andi | ori | xori =>
      exact .bind (hsplit 3) fun _ => .bind (hnumber _) fun _ => .bind (hrange _ _ _ _) fun _ =>
        .bind (hregister _) fun _ => .bind (hregister _) fun _ => .ok _
  | lui =>
      exact .bind (hsplit 2) fun _ => .bind (hnumber _) fun _ => .bind (hrange _ _ _ _) fun _ =>
        .bind (hregister _) fun _ => .ok _
  | lw | sw =>
      exact .bind (hsplit 2) fun _ => .bind (hmemory _) fun _ => .bind (hregister _) fun _ => .ok _
  | beq | bne | blt | bge =>
      exact .bind (hsplit 3) fun _ => .bind (htarget _ _) fun _ => .bind (hregister _) fun _ =>
        .bind (hregister _) fun _ => .ok _
  | j | jal => exact .bind (hsplit 1) fun _ => .bind (htarget _ _) fun _ => .ok _
  | jr => exact .bind (hsplit 1) fun _ => .bind (hregister _) fun _ => .ok _

/-- **An error of a statement names its line**, or is a conversion over the digit limit. -/
theorem raises_encodeStatement (h : splitWord statement.text ≠ []) :
    Raises (AtLine statement filename) (encodeStatement statement filename labels) := by
  obtain ⟨mnemonic, text, hexpand⟩ := exists_expand h
  simp only [encodeStatement, hexpand]
  split
  · refine .bind (raises_parseNumber _ _ _) fun number => ?_
    exact .bind (raises_checkedRange _ _ _ _ _ _) fun value => .ok _
  · split
    · exact raises_reject _ _ _
    · exact raises_encodeOpcode _ _ _ _ _

end Errors

/-! ## What is accepted is said -/

section Accepted

variable {statement : Statement} {filename : Str} {labels : Labels}

/-- An accepted register is the documented one. -/
theorem readRegister_of_ok {token : Str} {r : ℕ}
    (h : parseRegister statement filename token = .ok r) : readRegister token = some r := by
  unfold parseRegister at h
  unfold readRegister
  simp only at h ⊢
  cases hlookup : registerAliases.lookup (lower (strip token)) with
  | some index => simpa [hlookup] using h
  | none =>
      simp only [hlookup] at h ⊢
      cases hmatch : registerMatch (lower (strip token)) with
      | none => simp [hmatch, reject] at h
      | some digits =>
          simp only [hmatch] at h
          cases hint : int10 digits with
          | none => simp [hint] at h
          | some value =>
              simp only [hint] at h
              split at h
              · simpa [hint] using h
              · cases h

/-- An accepted target is the documented one, in range. -/
theorem readTarget_of_ok {token : Str} {bits : ℕ} {d : ℤ}
    (h : resolveDisplacement statement filename token bits labels = .ok d) :
    readTarget labels statement.address token = some d ∧
      -2 ^ (bits - 1) ≤ d ∧ d < 2 ^ (bits - 1) := by
  unfold resolveDisplacement at h
  unfold readTarget
  cases hint : int0 token with
  | some value =>
      simp only [hint] at h
      obtain ⟨rfl, hmin, hmax⟩ := checkedRange_eq_ok.mp h
      exact ⟨rfl, hmin, by omega⟩
  | none =>
      simp only [hint] at h
      cases hlabel : labels.lookup token with
      | none => simp [hlabel, reject, bind, Except.bind] at h
      | some target =>
          simp only [hlabel] at h
          split at h
          · simp [reject, bind, Except.bind] at h
          · next haligned =>
              obtain ⟨rfl, hmin, hmax⟩ := checkedRange_eq_ok.mp h
              refine ⟨?_, hmin, by omega⟩
              simp only [Option.bind_some]
              rw [if_pos (not_not.mp haligned)]

/-- An accepted memory operand is the documented one, in range. -/
theorem readMemory_of_ok {token : Str} {offset : ℤ} {base : ℕ}
    (h : parseMemoryOperand statement filename token = .ok (offset, base)) (address : ℕ) :
    readOperand labels address .memory token = some (.memory offset base) ∧
      -2 ^ 15 ≤ offset ∧ offset < 2 ^ 15 := by
  unfold parseMemoryOperand at h
  cases hmatch : memoryMatch token with
  | none => simp [hmatch, reject] at h
  | some groups =>
      obtain ⟨offsetToken, baseToken⟩ := groups
      simp only [hmatch, bind_eq_ok] at h
      obtain ⟨number, hnumber, value, hvalue, register, hregister, heq⟩ := h
      obtain ⟨rfl, rfl⟩ : value = offset ∧ register = base := by
        simpa [pure, Except.pure] using heq
      obtain ⟨rfl, hmin, hmax⟩ := checkedRange_eq_ok.mp hvalue
      refine ⟨?_, hmin, by omega⟩
      simp only [readOperand, hmatch, parseNumber_eq_ok.mp hnumber, readRegister_of_ok hregister,
        Option.bind_eq_bind, Option.bind_some]
      rfl

/-- The number behind an unsigned field. -/
theorem toNat_of_modEq {k : ℕ} {x : BitVec k} {v : ℤ} (h : (x.toNat : ℤ) ≡ v [ZMOD 2 ^ k])
    (hmin : 0 ≤ v) (hmax : v < 2 ^ k) : (x.toNat : ℤ) = v := by
  obtain ⟨hmin', hmax'⟩ := toNat_range x
  rw [Int.ModEq, Int.emod_eq_of_lt hmin hmax, Int.emod_eq_of_lt hmin' hmax'] at h
  exact h

/-- The number behind a signed field. -/
theorem toInt_of_modEq {k : ℕ} (hk : 0 < k) {x : BitVec k} {v : ℤ}
    (h : (x.toNat : ℤ) ≡ v [ZMOD 2 ^ k])
    (hmin : -2 ^ (k - 1) ≤ v) (hmax : v < 2 ^ (k - 1)) : x.toInt = v := by
  have hx : x = BitVec.ofInt k v := by
    apply BitVec.eq_of_toNat_eq
    have hself := (mask_field k v).trans h.symm
    obtain ⟨hmin', hmax'⟩ := toNat_range x
    exact_mod_cast (toNat_of_modEq hself hmin' hmax').symm
  rw [hx, BitVec.toInt_ofInt_eq_self hk hmin hmax]

/-- The range of the last of three operands, … -/
theorem range_of_third {op : Opcode} {kind : OperandKind} {address : ℕ}
    {minimum maximum v : ℤ} {a b c : Str} (h : opcodeFault labels address [a, b, c] op = none)
    (hkinds : (Mnemonic.opcode op).kinds = [.register, .register, kind])
    (hkind : operandFault labels address kind c = numberFault minimum maximum c)
    (hv : parseNumber statement filename c = .ok v) : minimum ≤ v ∧ v ≤ maximum := by
  rw [opcodeFault, hkinds] at h
  have hc := (operandsFault_eq_none h).2.2 (kind, c) (by simp)
  obtain ⟨_, hint, hrange⟩ := numberFault_eq_none_iff.mp (hkind ▸ hc)
  cases (parseNumber_eq_ok.mp hv).symm.trans hint
  exact hrange

/-- … and of the immediate of `LUI`. -/
theorem range_of_lui {address : ℕ} {v : ℤ} {a b : Str}
    (h : opcodeFault labels address [a, b] .lui = none)
    (hv : parseNumber statement filename b = .ok v) : 0 ≤ v ∧ v ≤ 65535 := by
  have hb := (operandsFault_eq_none h).2.2 (.unsigned 16, b) (by simp [Mnemonic.kinds])
  obtain ⟨_, hint, hrange⟩ := numberFault_eq_none_iff.mp hb
  cases (parseNumber_eq_ok.mp hv).symm.trans hint
  exact hrange

/-- What an accepted register denotes, … -/
theorem readOperand_of_register {token : Str} {r : ℕ} (address : ℕ)
    (h : parseRegister statement filename token = .ok r) :
    readOperand labels address .register token = some (.register r) := by
  rw [readOperand, readRegister_of_ok h, Option.map_some]

/-- … an accepted target, … -/
theorem readOperand_of_target {token : Str} {bits : ℕ} {x : BitVec bits} {d : ℤ} (hbits : 0 < bits)
    (h : resolveDisplacement statement filename token bits labels = .ok d)
    (hx : (x.toNat : ℤ) ≡ d [ZMOD 2 ^ bits]) :
    readOperand labels statement.address (.target bits) token = some (.number x.toInt) := by
  obtain ⟨hread, hmin, hmax⟩ := readTarget_of_ok h
  rw [readOperand, hread, Option.map_some, toInt_of_modEq hbits hx hmin hmax]

/-- … an accepted memory operand, … -/
theorem readOperand_of_memory {token : Str} {x : BitVec 16} {offset : ℤ} {base : ℕ} (address : ℕ)
    (h : parseMemoryOperand statement filename token = .ok (offset, base))
    (hx : (x.toNat : ℤ) ≡ offset [ZMOD 2 ^ 16]) :
    readOperand labels address .memory token = some (.memory x.toInt base) := by
  obtain ⟨hread, hmin, hmax⟩ := readMemory_of_ok h address
  rw [hread, toInt_of_modEq (by decide) hx hmin hmax]

/-- … an accepted signed number, … -/
theorem readOperand_of_signed {token : Str} {x : BitVec 16} {v : ℤ} (address : ℕ)
    (h : parseNumber statement filename token = .ok v) (hx : (x.toNat : ℤ) ≡ v [ZMOD 2 ^ 16])
    (hrange : -32768 ≤ v ∧ v ≤ 32767) :
    readOperand labels address (.signed 16) token = some (.number x.toInt) := by
  rw [readOperand, parseNumber_eq_ok.mp h, Option.map_some,
    toInt_of_modEq (by decide) hx hrange.1 (Int.lt_add_one_of_le hrange.2)]

/-- … and an accepted unsigned one. -/
theorem readOperand_of_unsigned {token : Str} {x : BitVec 16} {v : ℤ} (address : ℕ)
    (h : parseNumber statement filename token = .ok v) (hx : (x.toNat : ℤ) ≡ v [ZMOD 2 ^ 16])
    (hrange : 0 ≤ v ∧ v ≤ 65535) :
    readOperand labels address (.unsigned 16) token = some (.number x.toNat) := by
  rw [readOperand, parseNumber_eq_ok.mp h, Option.map_some,
    toNat_of_modEq hx hrange.1 (Int.lt_add_one_of_le hrange.2)]

/-- **The accepted operands are the operands of the encoded instruction.** -/
theorem denoted_of_writes {tokens : List Str} {i : Isa.Instr}
    (h : Writes statement filename labels tokens i)
    (hfault : opcodeFault labels statement.address tokens i.opcode = none) :
    List.zipWith (readOperand labels statement.address) (Mnemonic.opcode i.opcode).kinds tokens =
      (writtenOperands i).map some := by
  have hregister {token : Str} {r : ℕ} (h : parseRegister statement filename token = .ok r) :
      readOperand labels statement.address .register token = some (.register r) :=
    readOperand_of_register statement.address h
  cases h with
  | nop | halt => rfl
  | @alu op _ _ _ _ _ _ hrd hrs1 hrs2 =>
      cases op <;> simp only [Isa.Instr.opcode, Isa.AluOp.opcode, Mnemonic.kinds, List.zipWith,
        writtenOperands, List.map, hregister hrd, hregister hrs1, hregister hrs2]
  | @imm op _ _ _ _ _ _ v hrd hrs1 hv himm =>
      cases op with
      | addi =>
          have hrange : -32768 ≤ v ∧ v ≤ 32767 := range_of_third hfault rfl rfl hv
          simp only [Isa.Instr.opcode, Isa.ImmOp.opcode, Mnemonic.kinds, List.zipWith,
            writtenOperands, List.map, hregister hrd, hregister hrs1,
            readOperand_of_signed _ hv himm hrange, if_true]
      | _ =>
          have hrange : 0 ≤ v ∧ v ≤ 65535 := range_of_third hfault rfl rfl hv
          simp only [Isa.Instr.opcode, Isa.ImmOp.opcode, Mnemonic.kinds, List.zipWith,
            writtenOperands, List.map, hregister hrd, hregister hrs1,
            readOperand_of_unsigned _ hv himm hrange, reduceCtorEq, if_false]
  | lui hrd hv himm =>
      have hrange := range_of_lui hfault hv
      simp only [Isa.Instr.opcode, Mnemonic.kinds, List.zipWith, writtenOperands, List.map,
        hregister hrd, readOperand_of_unsigned _ hv himm hrange]
  | lw hrd hm himm | sw hrd hm himm =>
      simp only [Isa.Instr.opcode, Mnemonic.kinds, List.zipWith, writtenOperands, List.map,
        hregister hrd, readOperand_of_memory _ hm himm]
  | @branch cond _ _ _ _ _ _ _ hrs1 hrs2 hd himm =>
      have htarget := readOperand_of_target (by decide) hd himm
      cases cond <;> simp only [Isa.Instr.opcode, Isa.Cond.opcode, Mnemonic.kinds, List.zipWith,
        writtenOperands, List.map, hregister hrs1, hregister hrs2, htarget]
  | j hd himm | jal hd himm =>
      have htarget := readOperand_of_target (by decide) hd himm
      simp only [Isa.Instr.opcode, Mnemonic.kinds, List.zipWith, writtenOperands, List.map, htarget]
  | jr hrs1 =>
      simp only [Isa.Instr.opcode, Mnemonic.kinds, List.zipWith, writtenOperands, List.map,
        hregister hrs1]

/-- The operand of a `.word` line. -/
theorem operandsOf_of_number {text : Str} {v : ℤ} (h : int0 (strip text) = some v) :
    operandsOf text = [strip text] := by
  have hne : strip text ≠ [] := by
    intro hnil
    rw [hnil] at h
    nomatch h
  have hcomma : ',' ∉ text := fun hmem =>
    comma_not_mem_of_int0 h (mem_stripBy hmem (by decide))
  rw [operandsOf, if_neg (by simpa using hne), List.splitOn_eq_singleton hcomma, List.map_singleton]

/-- An accepted `.word` says the word. -/
theorem says_of_encodeWord {text : Str} {word : ℕ} {first : Str} (address : ℕ)
    (hfirst : upper first = ".WORD".toList) (hname : (splitWord statement.text).headD [] = first)
    (htext : operandText statement.text = text)
    (h : encodeWord statement filename text = .ok word) :
    Says labels address statement.text .word [.number word] ∧ word < 2 ^ 32 := by
  simp only [encodeWord, bind_eq_ok] at h
  obtain ⟨number, hnumber, value, hvalue, hword⟩ := h
  obtain ⟨rfl, hmin, hmax⟩ := checkedRange_eq_ok.mp hvalue
  obtain rfl : value.toNat = word := Except.ok.inj hword
  have hint : int0 (strip text) = some value := parseNumber_eq_ok.mp hnumber
  have hvalue : (value.toNat : ℤ) = value := Int.toNat_of_nonneg hmin
  have htokens : operandsOf (operandText statement.text) = [strip text] := by
    rw [htext, operandsOf_of_number hint]
  rw [hvalue]
  refine ⟨?_, by omega⟩
  refine
    { named := ?_
      count := by rw [htokens]; rfl
      nonempty := ?_
      denoted := ?_
      inRange := .cons ⟨hmin, by omega⟩ .nil }
  · rw [hname, mnemonicNamed, hfirst]
    rfl
  · rw [htokens, List.forall_mem_singleton]
    intro hnil
    rw [hnil] at hint
    cases hint
  · rw [htokens]
    simp only [Mnemonic.kinds, List.zipWith, readOperand, hint, Option.map_some, List.map]

/-- **An accepted operation is said**, and the word holds its operands. -/
theorem says_of_encodeOpcode {op : Opcode} {word : ℕ}
    (hname : mnemonicNamed ((splitWord statement.text).headD []) = some (.opcode op))
    (h : encodeOpcode statement filename (operandText statement.text) labels op = .ok word) :
    word < 2 ^ 32 ∧ ∃ operands,
      Says labels statement.address statement.text (.opcode op) operands ∧
        Holds word (.opcode op) operands := by
  have hfault : opcodeFault labels statement.address (operandsOf (operandText statement.text)) op =
      none := by
    rw [← failure_encodeOpcode statement filename, h]
    rfl
  obtain ⟨i, hwrites, rfl, rfl⟩ := encodeOpcode_encodes h
  obtain ⟨hcount, hnonempty, -⟩ := operandsFault_eq_none hfault
  refine ⟨(Isa.encode i).isLt, writtenOperands i, ?_, Cpp.Decoder.fieldsOf i, ?_,
    opcode_fieldsOf i, usedOperands_fieldsOf i⟩
  · exact
      { named := hname
        count := hcount
        nonempty := hnonempty
        denoted := denoted_of_writes hwrites hfault
        inRange := inRange_writtenOperands i }
  · rw [BitVec.ofNat_toNat, BitVec.setWidth_eq, Cpp.Decoder.decode_eq, Isa.decode_encode]
    rfl

end Accepted

/-! ## The contract -/

section Contract

variable {statement : Statement} {filename : Str} {labels : Labels}

/-- `RET` with text behind it. -/
def RetWithOperands (text : Str) : Prop :=
  upper ((splitWord text).headD []) = "RET".toList ∧ operandText text ≠ []

/-- `RET` is the word of `JR r31`, whatever follows it. -/
theorem encodeStatement_ret (h : splitWord statement.text ≠ [])
    (hret : upper ((splitWord statement.text).headD []) = "RET".toList) :
    encodeStatement statement filename labels = .ok (Isa.encode (.jr 31)).toNat := by
  obtain ⟨first, rest, hpieces⟩ := List.exists_cons_of_ne_nil h
  rw [hpieces, List.headD_cons] at hret
  have hexpand : expand (splitWord statement.text) = some ("JR".toList, "r31".toList) := by
    rw [hpieces, expand, if_pos hret]
  have hjr : encodeJr statement filename "r31".toList = .ok (Isa.encode (.jr 31)).toNat :=
    encodeJr_tokens 31
  simp only [encodeStatement, hexpand]
  exact hjr

/-- Any other mnemonic is encoded as it stands. -/
theorem encodeStatement_eq (h : splitWord statement.text ≠ [])
    (hret : upper ((splitWord statement.text).headD []) ≠ "RET".toList) :
    encodeStatement statement filename labels =
      if upper ((splitWord statement.text).headD []) = ".WORD".toList then
        encodeWord statement filename (operandText statement.text)
      else
        (opcodeNamed (upper ((splitWord statement.text).headD []))).elim
          (reject statement filename
            ("unknown mnemonic '".toList ++ (splitWord statement.text).headD [] ++ "'".toList))
          (encodeOpcode statement filename (operandText statement.text) labels) := by
  obtain ⟨first, rest, hpieces⟩ := List.exists_cons_of_ne_nil h
  have hexpand : expand (splitWord statement.text) =
      some (upper ((splitWord statement.text).headD []), operandText statement.text) := by
    rw [hpieces, List.headD_cons] at hret
    rw [hpieces, expand, if_neg hret, operandText, hpieces]
    rfl
  simp only [encodeStatement, hexpand]
  cases opcodeNamed (upper ((splitWord statement.text).headD [])) <;> rfl

/-- A text behind the mnemonic has operands. -/
theorem operandsOf_operandText {text : Str} (h : operandText text ≠ []) :
    operandsOf (operandText text) ≠ [] := by
  have hstrip : strip (operandText text) ≠ [] := strip_second_ne_nil h
  rw [operandsOf, if_neg (mt List.isEmpty_iff.mp hstrip)]
  exact mt List.map_eq_nil_iff.mp (List.splitOn_ne_nil ',' (operandText text))

/-- **An accepted statement is said**, if it is not a `RET` with operands. -/
theorem says_of_ok {word : ℕ} (hsplit : splitWord statement.text ≠ [])
    (hret : ¬ RetWithOperands statement.text)
    (h : encodeStatement statement filename labels = .ok word) :
    word < 2 ^ 32 ∧ ∃ mnemonic operands,
      Says labels statement.address statement.text mnemonic operands ∧
        Holds word mnemonic operands := by
  by_cases hname : upper ((splitWord statement.text).headD []) = "RET".toList
  · obtain rfl := Except.ok.inj ((encodeStatement_ret hsplit hname).symm.trans h)
    have hnil : operandText statement.text = [] := not_not.mp fun hne => hret ⟨hname, hne⟩
    refine ⟨(Isa.encode (.jr 31)).isLt, .ret, [], ?_, rfl, rfl⟩
    exact
      { named := by rw [mnemonicNamed, if_pos hname]
        count := by rw [hnil]; rfl
        nonempty := by rw [hnil]; exact List.forall_mem_nil _
        denoted := rfl
        inRange := .nil }
  · rw [encodeStatement_eq hsplit hname] at h
    split at h
    · next hword =>
        obtain ⟨hmeaning, hlt⟩ := says_of_encodeWord statement.address hword rfl rfl h
        exact ⟨hlt, .word, [.number word], hmeaning, rfl⟩
    · next hword =>
        cases hop : opcodeNamed (upper ((splitWord statement.text).headD [])) with
        | none =>
            rw [hop] at h
            cases h
        | some op =>
            rw [hop] at h
            have hnamed : mnemonicNamed ((splitWord statement.text).headD []) =
                some (.opcode op) := by
              rw [mnemonicNamed, if_neg hname, if_neg hword, hop, Option.map_some]
            obtain ⟨hlt, operands, hmeaning, hholds⟩ := says_of_encodeOpcode hnamed h
            exact ⟨hlt, .opcode op, operands, hmeaning, hholds⟩

/-- **The assembler ignores nothing but the text behind `RET`**, and a faulty statement is
an `AssemblyError` at its line unless an integer over the digit limit comes first. -/
theorem ignoresNothing_iff (htext : strip statement.text ≠ []) :
    IgnoresNothing statement filename labels ↔
      ¬ RetWithOperands statement.text ∧ ¬ LimitFirst labels statement := by
  have hsplit : splitWord statement.text ≠ [] := splitWord_ne_nil_of_strip htext
  have hfailure := failure_encodeStatement statement filename labels
  rw [← statementFault_eq_tooLong_iff hsplit]
  constructor
  · intro hcontract
    constructor
    · rintro ⟨hret, hoperands⟩
      obtain ⟨-, mnemonic, operands, hmeaning, -⟩ :=
        hcontract.accepted _ (encodeStatement_ret hsplit hret)
      have hnamed := hmeaning.named
      rw [mnemonicNamed, if_pos hret] at hnamed
      obtain rfl := Option.some.inj hnamed
      exact operandsOf_operandText hoperands (List.length_eq_zero_iff.mp hmeaning.count)
    · intro htooLong
      rw [htooLong, failure_eq_some_iff] at hfailure
      obtain ⟨e, herror, hkind⟩ := hfailure
      obtain ⟨message, rfl⟩ := hcontract.rejected e herror
      cases hkind
  · rintro ⟨hret, htooLong⟩
    refine ⟨fun word h => says_of_ok hsplit hret h, fun e herror => ?_⟩
    refine (raises_encodeStatement statement filename labels hsplit e herror).resolve_left ?_
    rintro rfl
    rw [herror] at hfailure
    exact htooLong hfailure.symm

/-- `RET r5` assembles into `JR r31`. -/
theorem not_ignoresNothing_ret : ¬ IgnoresNothing ⟨1, "RET r5".toList, 0⟩ [] [] := by
  intro hcontract
  obtain ⟨-, mnemonic, operands, hmeaning, -⟩ :=
    hcontract.accepted (Isa.encode (.jr 31)).toNat (by decide +kernel)
  have hnamed : mnemonicNamed "RET".toList = some mnemonic := hmeaning.named
  obtain rfl : .ret = mnemonic := Option.some.inj ((by decide :
    mnemonicNamed "RET".toList = some .ret).symm.trans hnamed)
  have hcount : ["r5".toList].length = Mnemonic.ret.kinds.length := hmeaning.count
  exact absurd hcount (by decide)

/-- A branch back to a label ignores nothing. -/
theorem ignoresNothing_branch :
    IgnoresNothing ⟨3, "bne r1, zero, loop".toList, 8⟩ [] [("loop".toList, 4)] := by
  refine (ignoresNothing_iff (by decide +kernel)).mpr ⟨?_, ?_⟩
  · rintro ⟨hret, -⟩
    exact absurd hret (by decide +kernel)
  · have hnone :
        statementFault [("loop".toList, 4)] ⟨3, "bne r1, zero, loop".toList, 8⟩ = none := by
      decide +kernel
    rw [← statementFault_eq_tooLong_iff (by decide +kernel), hnone]
    nofun

end Contract

end Mini32.Toolchain
