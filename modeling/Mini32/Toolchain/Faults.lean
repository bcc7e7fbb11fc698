import Mini32.Lib.Fallible
import Mini32.Toolchain.Operands

/-!
# How a source is rejected

The checks of the assembler in the order in which it makes them, without its messages: on
an operand by its kind (`operandFault`), on a statement (`statementFault`), on a source
(`sourceFault`).  `assemble_text` raises an exception of the kind of the first check that
fails, and none if no check fails (`failure_assembleText`).

A text can fail in two ways.  It may not be what the language asks for, which is an
`AssemblyError`.  Or it is an integer of more decimal digits than Python converts: `int`
of a register number has no handler, and the message of a range check spells the value
out, so a `ValueError` comes out instead.  `DigitLimit` says which texts these are.

The operands of a statement are counted first.  Then the one that is no register is
examined, then the registers from left to right (`examined`).  `failure_operands` is the
lemma about this order, and each `encode` function with operands is a case of it.
`IndexError` and `OverflowError` are a third kind of failure, which no source reaches
(`sourceFault_ne_internal`).
-/

namespace Mini32.Toolchain

open Py Fallible

/-- How a text fails a check. -/
inductive Fault
  /-- It is not what the language asks for. -/
  | malformed
  /-- It is an integer of more decimal digits than Python converts. -/
  | tooLong
  /-- The assembler got something wrong itself. -/
  | internal
  deriving DecidableEq, Repr

/-- The fault that an exception reports. -/
def PyError.fault : PyError → Fault
  | .assemblyError _ => .malformed
  | .conversion => .tooLong
  | .valueError _ | .indexError | .overflowError => .internal

/-! ## The checks on an operand -/

/-- A register is an alias, or `r` and a number up to 31; the number is converted before it
is compared. -/
def registerFault (token : Str) : Option Fault :=
  let lowered := lower (strip token)
  if (registerAliases.lookup lowered).isSome then none
  else
    match registerMatch lowered with
    | none => some .malformed
    | some digits =>
        if maxStrDigits < digits.length then some .tooLong
        else if ofDigits 10 (digits.map toAscii) ≤ 31 then none
        else some .malformed

/-- A value out of its range is spelt out in the message. -/
def rangeFault (minimum maximum value : ℤ) : Option Fault :=
  if minimum ≤ value ∧ value ≤ maximum then none
  else if maxStrDigits < (Nat.toDigits 10 value.natAbs).length then some .tooLong
  else some .malformed

/-- A number, and then its range. -/
def numberFault (minimum maximum : ℤ) (token : Str) : Option Fault :=
  match int0 token with
  | none => some .malformed
  | some value => rangeFault minimum maximum value

/-- A displacement as a number, or else the distance to a label, and then its range. -/
def displacementFault (labels : Labels) (address bits : ℕ) (token : Str) : Option Fault :=
  match int0 token with
  | some value => rangeFault (-2 ^ (bits - 1)) (2 ^ (bits - 1) - 1) value
  | none =>
      match labels.lookup token with
      | none => some .malformed
      | some target =>
          let byteDelta : ℤ := target - (address + 4)
          if byteDelta % 4 ≠ 0 then some .malformed
          else rangeFault (-2 ^ (bits - 1)) (2 ^ (bits - 1) - 1) (byteDelta / 4)

/-- The offset of a memory operand, and then its base register. -/
def memoryFault (token : Str) : Option Fault :=
  match memoryMatch token with
  | none => some .malformed
  | some (offset, base) => (numberFault (-2 ^ 15) (2 ^ 15 - 1) offset).or (registerFault base)

/-- The checks on an operand of each kind. -/
def operandFault (labels : Labels) (address : ℕ) : OperandKind → Str → Option Fault
  | .register, token => registerFault token
  | .signed bits, token => numberFault (-2 ^ (bits - 1)) (2 ^ (bits - 1) - 1) token
  | .unsigned bits, token => numberFault 0 (2 ^ bits - 1) token
  | .memory, token => memoryFault token
  | .target bits, token => displacementFault labels address bits token

section Operands

variable (statement : Statement) (filename token : Str)

/-- The digits of a register name are decimal. -/
theorem registerMatch_digits {lowered digits : Str} (h : registerMatch lowered = some digits) :
    digits ≠ [] ∧ ∀ c ∈ digits, (decimalValue c).isSome := by
  unfold registerMatch at h
  split at h
  · split at h
    · next hdigits =>
        obtain rfl := Option.some.inj h
        exact ⟨hdigits.1, List.all_eq_true.mp hdigits.2⟩
    · nomatch h
  · nomatch h

theorem failure_parseRegister :
    failure PyError.fault (parseRegister statement filename token) = registerFault token := by
  unfold parseRegister registerFault
  simp only
  cases registerAliases.lookup (lower (strip token)) with
  | some index => rfl
  | none =>
      cases hmatch : registerMatch (lower (strip token)) with
      | none => rfl
      | some digits =>
          obtain ⟨hne, hdigits⟩ := registerMatch_digits hmatch
          simp only [int10_digits hne hdigits, Option.isSome_none, Bool.false_eq_true, if_false]
          by_cases hlong : maxStrDigits < digits.length
          · rw [if_pos hlong, if_pos hlong]
            rfl
          · rw [if_neg hlong, if_neg hlong]
            by_cases hvalue : ofDigits 10 (digits.map toAscii) ≤ 31
            · rw [if_pos hvalue]
              simp only
              rw [if_pos (by omega)]
              rfl
            · rw [if_neg hvalue]
              simp only
              rw [if_neg (by omega)]
              rfl

/-- A register, and what is read behind it. -/
theorem failure_register {α : Type} {token : Str} {f : ℕ → Except PyError α} {fault : Option Fault}
    (h : ∀ register, failure PyError.fault (f register) = fault) :
    failure PyError.fault (parseRegister statement filename token >>= f) =
      (registerFault token).or fault := by
  rw [failure_bind _ fun register _ => h register, failure_parseRegister]

/-- A register that is parsed last. -/
theorem failure_lastRegister {α : Type} {token : Str} {f : ℕ → Except PyError α}
    (h : ∀ register, failure PyError.fault (f register) = none) :
    failure PyError.fault (parseRegister statement filename token >>= f) = registerFault token := by
  rw [failure_bind_of_none _ h, failure_parseRegister]

/-- The check of a range. -/
theorem failure_checkedRange (value minimum maximum : ℤ) (description : Str) :
    failure PyError.fault (checkedRange statement filename value minimum maximum description) =
      rangeFault minimum maximum value := by
  unfold checkedRange rangeFault str
  split
  · rfl
  · by_cases hlong : maxStrDigits < (Nat.toDigits 10 value.natAbs).length
    · rw [if_pos hlong, if_pos hlong]
      rfl
    · rw [if_neg hlong, if_neg hlong]
      rfl

/-- A number and its range. -/
theorem failure_number {α : Type} {f : ℤ → Except PyError α} {minimum maximum : ℤ}
    {description : Str} {fault : Option Fault}
    (h : ∀ value, failure PyError.fault (f value) = fault) :
    failure PyError.fault (do
      let number ← parseNumber statement filename token
      let value ← checkedRange statement filename number minimum maximum description
      f value) = (numberFault minimum maximum token).or fault := by
  unfold parseNumber numberFault
  cases int0 token with
  | none => rfl
  | some number =>
      refine (failure_bind _ fun value _ => h value).trans ?_
      rw [failure_checkedRange]

/-- The check of a target. -/
theorem failure_resolveDisplacement (bits : ℕ) (labels : Labels) :
    failure PyError.fault (resolveDisplacement statement filename token bits labels) =
      displacementFault labels statement.address bits token := by
  unfold resolveDisplacement displacementFault
  simp only
  cases int0 token with
  | some value => exact failure_checkedRange _ _ _ _ _ _
  | none =>
      cases labels.lookup token with
      | none => rfl
      | some target =>
          simp only
          split
          · rfl
          · exact failure_checkedRange _ _ _ _ _ _

/-- The checks of a memory operand. -/
theorem failure_parseMemoryOperand :
    failure PyError.fault (parseMemoryOperand statement filename token) = memoryFault token := by
  unfold parseMemoryOperand memoryFault
  cases memoryMatch token with
  | none => rfl
  | some groups =>
      refine failure_number _ _ _ fun offset => ?_
      exact failure_lastRegister _ _ fun _ => rfl

end Operands

/-! ## The checks on a statement -/

-- the operand positions of the formats are literals of `Fin 1`, `Fin 2` and `Fin 3`
local instance neZero_one : NeZero 1 := ⟨Nat.one_ne_zero⟩
local instance neZero_two : NeZero 2 := ⟨Nat.succ_ne_zero 1⟩
local instance neZero_three : NeZero 3 := ⟨Nat.succ_ne_zero 2⟩

/-- The operands of a statement in the order in which the assembler examines them: the one
that is no register comes first. -/
def examined (kinds : List OperandKind) (tokens : List Str) : List (OperandKind × Str) :=
  (kinds.zip tokens).filter (·.1 ≠ .register) ++ (kinds.zip tokens).filter (·.1 = .register)

/-- The first fault of some operands. -/
def firstFault (labels : Labels) (address : ℕ) (operands : List (OperandKind × Str)) :
    Option Fault :=
  operands.findSome? fun p => operandFault labels address p.1 p.2

/-- The operands are counted before they are examined. -/
def operandsFault (labels : Labels) (address : ℕ) (kinds : List OperandKind) (tokens : List Str) :
    Option Fault :=
  if tokens.length = kinds.length ∧ ¬ tokens.any List.isEmpty then
    firstFault labels address (examined kinds tokens)
  else some .malformed

/-- The checks once the mnemonic is known. -/
def opcodeFault (labels : Labels) (address : ℕ) (tokens : List Str) (op : Opcode) :
    Option Fault :=
  operandsFault labels address (Mnemonic.opcode op).kinds tokens

/-- The checks on a statement; `RET` is `JR r31` by then, and the number of a `.word` is the
whole text behind it. -/
def statementFault (labels : Labels) (statement : Statement) : Option Fault :=
  match expand (splitWord statement.text) with
  | none => some .internal
  | some (mnemonic, operandText) =>
      if mnemonic = ".WORD".toList then
        operandFault labels statement.address (.unsigned 32) (strip operandText)
      else
        match opcodeNamed mnemonic with
        | none => some .malformed
        | some op => opcodeFault labels statement.address (operandsOf operandText) op

section Statements

variable (statement : Statement) (filename text : Str) (labels : Labels)

/-- The first operand and the others. -/
@[simp] theorem firstFault_cons (address : ℕ) (p : OperandKind × Str)
    (operands : List (OperandKind × Str)) : firstFault labels address (p :: operands) =
      (operandFault labels address p.1 p.2).or (firstFault labels address operands) := by
  simp only [firstFault, List.findSome?_cons]
  cases operandFault labels address p.1 p.2 <;> rfl

/-- Nothing to examine. -/
@[simp] theorem firstFault_nil (address : ℕ) : firstFault labels address [] = none := rfl

/-- Operands are counted, and each is examined. -/
theorem operandsFault_eq_none {labels : Labels} {address : ℕ} {kinds : List OperandKind}
    {tokens : List Str} (h : operandsFault labels address kinds tokens = none) :
    tokens.length = kinds.length ∧ (∀ token ∈ tokens, token ≠ []) ∧
      ∀ p ∈ kinds.zip tokens, operandFault labels address p.1 p.2 = none := by
  unfold operandsFault at h
  split at h
  · next hcount =>
      refine ⟨hcount.1, fun token hmem hnil => hcount.2 ?_, fun p hp => ?_⟩
      · exact List.any_eq_true.mpr ⟨token, hmem, List.isEmpty_iff.mpr hnil⟩
      · refine List.findSome?_eq_none_iff.mp h p ?_
        rw [examined, List.mem_append, List.mem_filter, List.mem_filter]
        by_cases hkind : p.1 = .register <;> simp [hp, hkind]
  · nomatch h

/-- What is examined of each format. -/
theorem firstFault_registers (address : ℕ) (a b c : Str) :
    firstFault labels address (examined [.register, .register, .register] [a, b, c]) =
      (registerFault a).or ((registerFault b).or (registerFault c)) := by
  simp [examined, operandFault]

/-- An operand in the third place is examined before two registers. -/
theorem firstFault_third (address : ℕ) {kind : OperandKind} (h : kind ≠ .register) (a b c : Str) :
    firstFault labels address (examined [.register, .register, kind] [a, b, c]) =
      (operandFault labels address kind c).or ((registerFault a).or (registerFault b)) := by
  simp [examined, operandFault, h]

/-- An operand in the second place is examined before the register. -/
theorem firstFault_second (address : ℕ) {kind : OperandKind} (h : kind ≠ .register) (a b : Str) :
    firstFault labels address (examined [.register, kind] [a, b]) =
      (operandFault labels address kind b).or (registerFault a) := by
  simp [examined, operandFault, h]

/-- A single operand. -/
theorem firstFault_only (address : ℕ) (kind : OperandKind) (a : Str) :
    firstFault labels address (examined [kind] [a]) = operandFault labels address kind a := by
  by_cases h : kind = .register <;> simp [examined, h]

/-- The operands of a format, once they are counted. -/
theorem failure_operands {α : Type} {count : ℕ} {kinds : List OperandKind}
    {f : List.Vector Str count → Except PyError α} (hkinds : kinds.length = count)
    (h : ∀ operands, failure PyError.fault (f operands) =
      firstFault labels statement.address (examined kinds operands.toList)) :
    failure PyError.fault (splitOperands statement filename text count >>= f) =
      operandsFault labels statement.address kinds (operandsOf text) := by
  subst hkinds
  unfold splitOperands operandsFault
  split
  · exact h _
  · rfl

/-- The check of a target, and what follows it. -/
theorem failure_displacement {α : Type} {token : Str} {bits : ℕ} {f : ℤ → Except PyError α}
    {fault : Option Fault} (h : ∀ displacement, failure PyError.fault (f displacement) = fault) :
    failure PyError.fault (resolveDisplacement statement filename token bits labels >>= f) =
      (displacementFault labels statement.address bits token).or fault := by
  rw [failure_bind _ fun displacement _ => h displacement, failure_resolveDisplacement]

/-- No operands. -/
theorem failure_encodeBare (op : Opcode) : failure PyError.fault
    (encodeBare statement filename text op) =
      operandsFault labels statement.address [] (operandsOf text) :=
  failure_operands _ _ _ _ rfl fun
    | ⟨[], _⟩ => rfl

/-- The directive. -/
theorem failure_encodeWord : failure PyError.fault (encodeWord statement filename text) =
    operandFault labels statement.address (.unsigned 32) (strip text) :=
  calc failure PyError.fault (encodeWord statement filename text)
      = (numberFault 0 0xFFFFFFFF (strip text)).or none := failure_number _ _ _ fun _ => rfl
    _ = numberFault 0 0xFFFFFFFF (strip text) := Option.or_none

/-- Three registers. -/
theorem failure_encodeR (op : Opcode) : failure PyError.fault
    (encodeR statement filename text op) = operandsFault labels statement.address
      [.register, .register, .register] (operandsOf text) :=
  failure_operands _ _ _ _ rfl fun
    | ⟨[a, b, c], _⟩ => by
      refine Eq.trans ?_ (firstFault_registers labels statement.address a b c).symm
      exact failure_register _ _ fun _ => failure_register _ _ fun _ =>
        failure_lastRegister _ _ fun _ => rfl

/-- A register and an unsigned number. -/
theorem failure_encodeLui : failure PyError.fault (encodeLui statement filename text) =
    operandsFault labels statement.address [.register, .unsigned 16] (operandsOf text) :=
  failure_operands _ _ _ _ rfl fun
    | ⟨[a, b], _⟩ => by
      refine Eq.trans ?_ (firstFault_second labels statement.address
        (by decide : OperandKind.unsigned 16 ≠ .register) a b).symm
      exact failure_number _ _ _ fun _ => failure_lastRegister _ _ fun _ => rfl

/-- `ADDI` and its unsigned siblings. -/
theorem failure_encodeI (op : Opcode) {kind : OperandKind} (hkind : kind ≠ .register)
    {minimum maximum : ℤ} (h : ∀ token, operandFault labels statement.address kind token =
      numberFault minimum maximum token) (description : Str) :
    failure PyError.fault (encodeI statement filename text op minimum maximum description) =
      operandsFault labels statement.address [.register, .register, kind] (operandsOf text) :=
  failure_operands _ _ _ _ rfl fun
    | ⟨[a, b, c], _⟩ => by
      refine Eq.trans ?_ (firstFault_third labels statement.address hkind a b c).symm
      rw [h]
      exact failure_number _ _ _ fun _ => failure_register _ _ fun _ =>
        failure_lastRegister _ _ fun _ => rfl

/-- A register and a memory operand. -/
theorem failure_encodeMemory (op : Opcode) :
    failure PyError.fault (encodeMemory statement filename text op) =
      operandsFault labels statement.address [.register, .memory] (operandsOf text) :=
  failure_operands _ _ _ _ rfl fun
    | ⟨[a, b], _⟩ => by
      refine Eq.trans ?_ (firstFault_second labels statement.address
        (by decide : OperandKind.memory ≠ .register) a b).symm
      refine (failure_bind _ fun operand _ => failure_lastRegister _ _ fun _ => rfl).trans ?_
      rw [failure_parseMemoryOperand]
      rfl

/-- Two registers and a target. -/
theorem failure_encodeBranch (op : Opcode) :
    failure PyError.fault (encodeBranch statement filename text op labels) =
      operandsFault labels statement.address [.register, .register, .target 16]
        (operandsOf text) :=
  failure_operands _ _ _ _ rfl fun
    | ⟨[a, b, c], _⟩ => by
      refine Eq.trans ?_ (firstFault_third labels statement.address
        (by decide : OperandKind.target 16 ≠ .register) a b c).symm
      exact failure_displacement _ _ _ fun _ => failure_register _ _ fun _ =>
        failure_lastRegister _ _ fun _ => rfl

/-- A target. -/
theorem failure_encodeJump (op : Opcode) :
    failure PyError.fault (encodeJump statement filename text op labels) =
      operandsFault labels statement.address [.target 26] (operandsOf text) :=
  failure_operands _ _ _ _ rfl fun
    | ⟨[a], _⟩ => by
      refine Eq.trans ?_ (firstFault_only labels statement.address _ a).symm
      exact (failure_bind_of_none _ fun _ => rfl).trans (failure_resolveDisplacement _ _ _ _ _)

/-- A register. -/
theorem failure_encodeJr : failure PyError.fault (encodeJr statement filename text) =
    operandsFault labels statement.address [.register] (operandsOf text) :=
  failure_operands _ _ _ _ rfl fun
    | ⟨[a], _⟩ => by
      refine Eq.trans ?_ (firstFault_only labels statement.address _ a).symm
      exact failure_lastRegister _ _ fun _ => rfl

/-- A statement with a known mnemonic. -/
theorem failure_encodeOpcode (op : Opcode) :
    failure PyError.fault (encodeOpcode statement filename text labels op) =
      opcodeFault labels statement.address (operandsOf text) op := by
  cases op with
  | nop | halt => exact failure_encodeBare _ _ _ _ _
  | add | sub | and | or | xor | slt | shl | shr => exact failure_encodeR _ _ _ _ _
  | addi | andi | ori | xori => exact failure_encodeI _ _ _ _ _ (by decide) (fun _ => rfl) _
  | lui => exact failure_encodeLui _ _ _ _
  | lw | sw => exact failure_encodeMemory _ _ _ _ _
  | beq | bne | blt | bge => exact failure_encodeBranch _ _ _ _ _
  | j | jal => exact failure_encodeJump _ _ _ _ _
  | jr => exact failure_encodeJr _ _ _ _

/-- **A statement fails at its first faulty check.** -/
theorem failure_encodeStatement :
    failure PyError.fault (encodeStatement statement filename labels) =
      statementFault labels statement := by
  unfold encodeStatement statementFault
  simp only
  cases expand (splitWord statement.text) with
  | none => rfl
  | some piece =>
      obtain ⟨mnemonic, text⟩ := piece
      simp only
      split
      · exact failure_encodeWord _ _ _ _
      · cases opcodeNamed mnemonic with
        | none => rfl
        | some op => exact failure_encodeOpcode _ _ _ _ op

end Statements

/-! ## Every fault is one of the two -/

section NoInternal

variable (labels : Labels) (address : ℕ)

/-- The first of two faults. -/
theorem or_ne_internal {fault fault' : Option Fault} (h : fault ≠ some .internal)
    (h' : fault' ≠ some .internal) : fault.or fault' ≠ some .internal := by
  cases fault with
  | none => exact h'
  | some _ => exact h

/-- The checks of a register, … -/
theorem registerFault_ne_internal (token : Str) : registerFault token ≠ some .internal := by
  unfold registerFault
  simp only
  repeat' split
  all_goals decide

/-- … of a range, … -/
theorem rangeFault_ne_internal (minimum maximum value : ℤ) :
    rangeFault minimum maximum value ≠ some .internal := by
  unfold rangeFault
  repeat' split
  all_goals decide

/-- … of a number, … -/
theorem numberFault_ne_internal (minimum maximum : ℤ) (token : Str) :
    numberFault minimum maximum token ≠ some .internal := by
  unfold numberFault
  split
  · decide
  · exact rangeFault_ne_internal _ _ _

/-- … of a target, … -/
theorem displacementFault_ne_internal (bits : ℕ) (token : Str) :
    displacementFault labels address bits token ≠ some .internal := by
  unfold displacementFault
  simp only
  repeat' split
  all_goals first | exact rangeFault_ne_internal _ _ _ | decide

/-- … of a memory operand, … -/
theorem memoryFault_ne_internal (token : Str) : memoryFault token ≠ some .internal := by
  unfold memoryFault
  split
  · decide
  · exact or_ne_internal (numberFault_ne_internal _ _ _) (registerFault_ne_internal _)

/-- … of any operand … -/
theorem operandFault_ne_internal (kind : OperandKind) (token : Str) :
    operandFault labels address kind token ≠ some .internal := by
  cases kind with
  | register => exact registerFault_ne_internal _
  | signed | unsigned => exact numberFault_ne_internal _ _ _
  | memory => exact memoryFault_ne_internal _
  | target => exact displacementFault_ne_internal _ _ _ _

/-- … and of all the operands of a statement. -/
theorem operandsFault_ne_internal (kinds : List OperandKind) (tokens : List Str) :
    operandsFault labels address kinds tokens ≠ some .internal := by
  unfold operandsFault
  split
  · intro h
    obtain ⟨p, -, hp⟩ := List.exists_of_findSome?_eq_some h
    exact operandFault_ne_internal _ _ _ _ hp
  · decide

/-- A statement that is not empty has a mnemonic. -/
theorem exists_expand {pieces : List Str} (h : pieces ≠ []) :
    ∃ mnemonic text, expand pieces = some (mnemonic, text) := by
  obtain ⟨first, rest, rfl⟩ := List.exists_cons_of_ne_nil h
  unfold expand
  simp only
  split
  · exact ⟨_, _, rfl⟩
  · exact ⟨_, _, rfl⟩

/-- A statement with a mnemonic. -/
theorem statementFault_ne_internal {statement : Statement} (h : splitWord statement.text ≠ []) :
    statementFault labels statement ≠ some .internal := by
  obtain ⟨mnemonic, text, hexpand⟩ := exists_expand h
  simp only [statementFault, hexpand]
  split
  · exact operandFault_ne_internal _ _ _ _
  · cases opcodeNamed mnemonic with
    | none => exact fun h => absurd (Option.some.inj h) (by decide)
    | some op => exact operandsFault_ne_internal _ _ _ _

/-- The statement of a line starts with its mnemonic. -/
theorem splitWord_text_ne_nil {lineNumber : ℕ} {lines : List Str} {statement : Statement}
    (h : statement ∈ placedStatements lineNumber address lines) :
    splitWord statement.text ≠ [] := by
  induction lines generalizing lineNumber address with
  | nil => cases h
  | cons line lines ih =>
      rw [placedStatements, List.mem_append] at h
      rcases h with h | h
      · split at h
        · next hline =>
            rw [List.mem_singleton.mp h]
            exact splitWord_lineStatement hline
        · cases h
      · exact ih _ h

end NoInternal

/-! ## The faults of a source -/

/-- The first check of a source that fails. -/
def sourceFault (source : Str) : Option Fault :=
  if WellFormed (splitLines source) then
    (placedStatements 1 0 (splitLines source)).findSome?
      (statementFault (placedLabels 0 (splitLines source)))
  else some .malformed

section Source

variable (source filename : Str)

/-- A code fits in a word. -/
theorem encodeStatement_lt {statement : Statement} {labels : Labels} {word : ℕ}
    (h : encodeStatement statement filename labels = .ok word) : word < 2 ^ 32 := by
  by_cases hdirective : ∃ text, expand (splitWord statement.text) = some (".WORD".toList, text)
  · obtain ⟨text, hexpand⟩ := hdirective
    simp only [encodeStatement, hexpand, if_true, encodeWord, bind_eq_ok] at h
    obtain ⟨number, -, value, hvalue, hword⟩ := h
    obtain ⟨rfl, hmin, hmax⟩ := checkedRange_eq_ok.mp hvalue
    obtain rfl := Except.ok.inj hword
    omega
  · obtain ⟨-, -, -, -, -, i, -, -, rfl⟩ :=
      encodeStatement_encodes h fun text heq => hdirective ⟨text, heq⟩
    exact (Isa.encode i).isLt

/-- A word of 32 bits has its bytes. -/
theorem failure_toBytes {word : ℕ} (h : word < 2 ^ 32) :
    failure PyError.fault (toBytes word) = none := by
  rw [toBytes, if_pos h]
  rfl

/-- **`assemble_text` fails at the first faulty check** of a source, and succeeds without one. -/
theorem failure_assembleText :
    failure PyError.fault (assembleText source filename) = sourceFault source := by
  unfold sourceFault
  by_cases hwell : WellFormed (splitLines source)
  · rw [if_pos hwell]
    unfold assembleText
    rw [parseSource_ok filename hwell]
    have hbytes : ∀ words, (placedStatements 1 0 (splitLines source)).mapM (fun statement =>
        encodeStatement statement filename (placedLabels 0 (splitLines source))) = .ok words →
        failure PyError.fault (words.mapM toBytes >>= fun parts => .ok parts.flatten) = none := by
      intro words hwords
      rw [failure_bind_of_none PyError.fault fun _ => rfl, failure_mapM, List.findSome?_eq_none_iff]
      intro word hword
      obtain ⟨statement, -, hstatement⟩ := mem_of_mapM hwords hword
      exact failure_toBytes (encodeStatement_lt filename hstatement)
    refine (failure_bind PyError.fault hbytes).trans ?_
    rw [Option.or_none, failure_mapM]
    congr 1
    funext statement
    exact failure_encodeStatement _ _ _
  · obtain ⟨number, message, hparse⟩ := parseSource_error filename hwell
    rw [if_neg hwell, assembleText, hparse]
    rfl

/-- There are only two kinds. -/
theorem sourceFault_ne_internal : sourceFault source ≠ some .internal := by
  unfold sourceFault
  split
  · intro h
    obtain ⟨statement, hmem, hfault⟩ := List.exists_of_findSome?_eq_some h
    exact statementFault_ne_internal _ (splitWord_text_ne_nil _ hmem) hfault
  · decide

end Source

end Mini32.Toolchain
