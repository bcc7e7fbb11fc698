import Mathlib.Data.Vector.Basic
import Mini32.Isa.Instruction
import Mini32.Lib.ByteStore
import Mini32.Lib.PyInt

/-!
# The assembler

`assembler.py`: `parse_source` collects labels and statements line by line, and
`encode_statement` turns each statement into a word.

## Errors

A raised exception is an `Except.error`; the checks stand in the order in which the source
makes them, so the error is the one that Python raises, with its text.  Besides
`AssemblyError` these are the exceptions of the conversions that the source makes without a
handler.

## Patterns

The patterns of the source are deterministic, hence matched by scanning: no
character class of theirs overlaps the one that follows it.  What a pattern captures is
what the scanner returns.

## One function of the source, several here

`encode_statement` is one chain of tests on the mnemonic.  Each branch of it has a function
of its own here (`encodeR` and so on), and `encodeOpcode` is the chain.
-/

namespace Mini32.Toolchain

open Py

/-! ## The ISA tables -/

/-- The name of an `Opcode` member. -/
def opcodeName : Opcode → Str
  | .nop => "NOP".toList | .add => "ADD".toList | .sub => "SUB".toList | .and => "AND".toList
  | .or => "OR".toList | .xor => "XOR".toList | .slt => "SLT".toList | .shl => "SHL".toList
  | .shr => "SHR".toList | .addi => "ADDI".toList | .andi => "ANDI".toList
  | .ori => "ORI".toList | .xori => "XORI".toList | .lui => "LUI".toList | .lw => "LW".toList
  | .sw => "SW".toList | .beq => "BEQ".toList | .bne => "BNE".toList | .blt => "BLT".toList
  | .bge => "BGE".toList | .j => "J".toList | .jal => "JAL".toList | .jr => "JR".toList
  | .halt => "HALT".toList

/-- `Opcode[name]`, for a name in `Opcode.__members__`. -/
def opcodeNamed (name : Str) : Option Opcode := Opcode.all.find? fun op => opcodeName op = name

/-- `REGISTER_ALIASES` -/
def registerAliases : List (Str × ℕ) := [("zero".toList, 0), ("sp".toList, 30), ("ra".toList, 31)]

/-! ## Exceptions -/

/-- The exceptions of the toolchain. -/
inductive PyError
  /-- `AssemblyError`, with its text. -/
  | assemblyError (text : Str)
  /-- A `ValueError` that the toolchain raises, with its text. -/
  | valueError (text : Str)
  /-- The `ValueError` of an `int` or `str` conversion. -/
  | conversion
  /-- The `IndexError` of `pieces[0]`. -/
  | indexError
  /-- The `OverflowError` of `int.to_bytes`. -/
  | overflowError
  deriving DecidableEq, Repr

/-- `AssemblyError(filename, line, message)` -/
def assemblyError (filename : Str) (line : ℕ) (message : Str) : PyError :=
  .assemblyError (filename ++ ":".toList ++ decimal line ++ ": ".toList ++ message)

/-- `Statement` -/
structure Statement where
  line : ℕ
  text : Str
  address : ℕ
  deriving DecidableEq, Repr

/-- The label table, in order of definition. -/
abbrev Labels := List (Str × ℕ)

/-! ## Operands -/

section Operands

variable (statement : Statement) (filename : Str)

/-- `raise AssemblyError(filename, statement.line, message)` -/
def reject {α : Type} (message : Str) : Except PyError α :=
  .error (assemblyError filename statement.line message)

/-- `re.fullmatch(r"r(\d+)", lowered)`, with the digits it captures. -/
def registerMatch : Str → Option Str
  | 'r' :: digits =>
      if digits ≠ [] ∧ digits.all fun c => (decimalValue c).isSome then some digits else none
  | _ => none

/-- `parse_register` -/
def parseRegister (token : Str) : Except PyError ℕ :=
  let lowered := lower (strip token)
  match registerAliases.lookup lowered with
  | some index => .ok index
  | none =>
      match registerMatch lowered with
      | none => reject statement filename ("invalid register '".toList ++ token ++ "'".toList)
      | some digits =>
          match int10 digits with
          | none => .error .conversion
          | some value =>
              if 0 ≤ value ∧ value ≤ 31 then .ok value.toNat
              else reject statement filename
                ("register ".toList ++ token ++ " is outside r0-r31".toList)

/-- `parse_number` -/
def parseNumber (token : Str) : Except PyError ℤ :=
  match int0 token with
  | some value => .ok value
  | none => reject statement filename ("invalid numeric literal '".toList ++ token ++ "'".toList)

/-- The message spells the value out, which fails for an integer over the digit limit. -/
def checkedRange (value minimum maximum : ℤ) (description : Str) : Except PyError ℤ :=
  if minimum ≤ value ∧ value ≤ maximum then .ok value
  else
    match str value with
    | none => .error .conversion
    | some text =>
        reject statement filename (description ++ " ".toList ++ text ++ " is outside ".toList ++
          decimal minimum ++ "..".toList ++ decimal maximum)

/-- The operands of a statement before they are counted. -/
def operandsOf (operandText : Str) : List Str :=
  if (strip operandText).isEmpty then [] else (operandText.splitOn ',').map strip

/-- `split_operands` -/
def splitOperands (operandText : Str) (count : ℕ) : Except PyError (List.Vector Str count) :=
  if h : (operandsOf operandText).length = count ∧ ¬ (operandsOf operandText).any List.isEmpty then
    .ok ⟨operandsOf operandText, h.1⟩
  else
    reject statement filename
      ("expected ".toList ++ decimal count ++ " operand(s)".toList)

/-- `resolve_displacement`: a number is the displacement itself, a label the distance to it. -/
def resolveDisplacement (token : Str) (bits : ℕ) (labels : Labels) : Except PyError ℤ := do
  let value ←
    match int0 token with
    | some value => .ok value
    | none =>
        match labels.lookup token with
        | none => reject statement filename ("undefined label '".toList ++ token ++ "'".toList)
        | some target =>
            let byteDelta : ℤ := target - (statement.address + 4)
            if byteDelta % 4 ≠ 0 then
              reject statement filename
                ("label '".toList ++ token ++ "' is not instruction aligned".toList)
            else .ok (byteDelta / 4)
  checkedRange statement filename value (-2 ^ (bits - 1)) (2 ^ (bits - 1) - 1)
    ("signed ".toList ++ decimal bits ++ "-bit displacement".toList)

/-- The class `[^()\s]`. -/
def isMemoryChar (c : Char) : Bool := c ≠ '(' && c ≠ ')' && !isSpace c

/-- `MEMORY_PATTERN.fullmatch(token)`, with its two groups. -/
def memoryMatch (token : Str) : Option (Str × Str) :=
  let text := token.dropWhile isSpace
  let offset := text.takeWhile isMemoryChar
  match (text.dropWhile isMemoryChar).dropWhile isSpace with
  | '(' :: text =>
      let text := text.dropWhile isSpace
      let base := text.takeWhile isMemoryChar
      match (text.dropWhile isMemoryChar).dropWhile isSpace with
      | ')' :: text =>
          if offset ≠ [] ∧ base ≠ [] ∧ text.all isSpace then some (offset, base) else none
      | _ => none
  | _ => none

/-- `parse_memory_operand` -/
def parseMemoryOperand (token : Str) : Except PyError (ℤ × ℕ) :=
  match memoryMatch token with
  | none => reject statement filename ("invalid memory operand '".toList ++ token ++ "'".toList)
  | some (offsetToken, baseToken) => do
      let number ← parseNumber statement filename offsetToken
      let offset ← checkedRange statement filename number (-32768) 32767
        "signed 16-bit offset".toList
      let base ← parseRegister statement filename baseToken
      return (offset, base)

/-! ## Encoding a statement -/

variable (operandText : Str)

/-- `NOP` and `HALT`. -/
def encodeBare (op : Opcode) : Except PyError ℕ := do
  let _ ← splitOperands statement filename operandText 0
  return op.code.toNat <<< 26

/-- `.word`, whose operand is everything behind it. -/
def encodeWord : Except PyError ℕ := do
  let number ← parseNumber statement filename (strip operandText)
  let value ← checkedRange statement filename number 0 0xFFFFFFFF ".word value".toList
  return value.toNat

/-- `R_INSTRUCTIONS` -/
def encodeR (op : Opcode) : Except PyError ℕ := do
  let operands ← splitOperands statement filename operandText 3
  let rd ← parseRegister statement filename (operands.get 0)
  let rs1 ← parseRegister statement filename (operands.get 1)
  let rs2 ← parseRegister statement filename (operands.get 2)
  return op.code.toNat <<< 26 ||| rd <<< 21 ||| rs1 <<< 16 ||| rs2 <<< 11

/-- `LUI` -/
def encodeLui : Except PyError ℕ := do
  let operands ← splitOperands statement filename operandText 2
  let number ← parseNumber statement filename (operands.get 1)
  let immediate ← checkedRange statement filename number 0 65535
    "unsigned 16-bit immediate".toList
  let rd ← parseRegister statement filename (operands.get 0)
  return Opcode.lui.code.toNat <<< 26 ||| rd <<< 21 ||| immediate.toNat

/-- `ADDI`, `ANDI`, `ORI` and `XORI`: only the first takes a signed immediate. -/
def encodeI (op : Opcode) (minimum maximum : ℤ) (description : Str) : Except PyError ℕ := do
  let operands ← splitOperands statement filename operandText 3
  let number ← parseNumber statement filename (operands.get 2)
  let immediate ← checkedRange statement filename number minimum maximum description
  let rd ← parseRegister statement filename (operands.get 0)
  let rs1 ← parseRegister statement filename (operands.get 1)
  return op.code.toNat <<< 26 ||| rd <<< 21 ||| rs1 <<< 16 ||| mask 16 immediate

/-- The members of `SIGNED_I_INSTRUCTIONS` with a plain immediate operand. -/
def encodeSignedI (op : Opcode) : Except PyError ℕ :=
  encodeI statement filename operandText op (-32768) 32767 "signed 16-bit immediate".toList

/-- The members of `UNSIGNED_I_INSTRUCTIONS` with two registers. -/
def encodeUnsignedI (op : Opcode) : Except PyError ℕ :=
  encodeI statement filename operandText op 0 65535 "unsigned 16-bit immediate".toList

/-- `LW` and `SW`: the first operand is `rd` or `rs2`. -/
def encodeMemory (op : Opcode) : Except PyError ℕ := do
  let operands ← splitOperands statement filename operandText 2
  let (offset, base) ← parseMemoryOperand statement filename (operands.get 1)
  let register ← parseRegister statement filename (operands.get 0)
  return op.code.toNat <<< 26 ||| register <<< 21 ||| base <<< 16 ||| mask 16 offset

/-- `BRANCH_INSTRUCTIONS` -/
def encodeBranch (op : Opcode) (labels : Labels) : Except PyError ℕ := do
  let operands ← splitOperands statement filename operandText 3
  let displacement ← resolveDisplacement statement filename (operands.get 2) 16 labels
  let rs1 ← parseRegister statement filename (operands.get 0)
  let rs2 ← parseRegister statement filename (operands.get 1)
  return op.code.toNat <<< 26 ||| rs1 <<< 21 ||| rs2 <<< 16 ||| mask 16 displacement

/-- `JUMP_INSTRUCTIONS` -/
def encodeJump (op : Opcode) (labels : Labels) : Except PyError ℕ := do
  let operands ← splitOperands statement filename operandText 1
  let displacement ← resolveDisplacement statement filename (operands.get 0) 26 labels
  return op.code.toNat <<< 26 ||| mask 26 displacement

/-- `JR` -/
def encodeJr : Except PyError ℕ := do
  let operands ← splitOperands statement filename operandText 1
  let register ← parseRegister statement filename (operands.get 0)
  return Opcode.jr.code.toNat <<< 26 ||| register <<< 21

/-- What follows once the mnemonic is known; every member has a case, so the
`unsupported mnemonic` at the end of the source's chain is not reached. -/
def encodeOpcode (labels : Labels) : Opcode → Except PyError ℕ
  | .nop => encodeBare statement filename operandText .nop
  | .add => encodeR statement filename operandText .add
  | .sub => encodeR statement filename operandText .sub
  | .and => encodeR statement filename operandText .and
  | .or => encodeR statement filename operandText .or
  | .xor => encodeR statement filename operandText .xor
  | .slt => encodeR statement filename operandText .slt
  | .shl => encodeR statement filename operandText .shl
  | .shr => encodeR statement filename operandText .shr
  | .addi => encodeSignedI statement filename operandText .addi
  | .andi => encodeUnsignedI statement filename operandText .andi
  | .ori => encodeUnsignedI statement filename operandText .ori
  | .xori => encodeUnsignedI statement filename operandText .xori
  | .lui => encodeLui statement filename operandText
  | .lw => encodeMemory statement filename operandText .lw
  | .sw => encodeMemory statement filename operandText .sw
  | .beq => encodeBranch statement filename operandText .beq labels
  | .bne => encodeBranch statement filename operandText .bne labels
  | .blt => encodeBranch statement filename operandText .blt labels
  | .bge => encodeBranch statement filename operandText .bge labels
  | .j => encodeJump statement filename operandText .j labels
  | .jal => encodeJump statement filename operandText .jal labels
  | .jr => encodeJr statement filename operandText
  | .halt => encodeBare statement filename operandText .halt

end Operands

/-- The mnemonic and operand text of a statement's pieces, with `RET` expanded. -/
def expand (pieces : List Str) : Option (Str × Str) :=
  match pieces with
  | [] => none
  | first :: rest =>
      let mnemonic := upper first
      if mnemonic = "RET".toList then some ("JR".toList, "r31".toList)
      else some (mnemonic, rest.headD [])

/-- `encode_statement` -/
def encodeStatement (statement : Statement) (filename : Str) (labels : Labels) :
    Except PyError ℕ :=
  let pieces := splitWord statement.text
  match expand pieces with
  | none => .error .indexError
  | some (mnemonic, operandText) =>
      if mnemonic = ".WORD".toList then encodeWord statement filename operandText
      else
        match opcodeNamed mnemonic with
        | none =>
            reject statement filename
              ("unknown mnemonic '".toList ++ pieces.headD [] ++ "'".toList)
        | some op => encodeOpcode statement filename operandText labels op

/-! ## Parsing a source text -/

/-- The class `[A-Za-z_]`. -/
def isNameStart (c : Char) : Bool :=
  ('A' ≤ c && c ≤ 'Z') || ('a' ≤ c && c ≤ 'z') || c = '_'

/-- The class `[A-Za-z0-9_]`. -/
def isNameChar (c : Char) : Bool := isNameStart c || ('0' ≤ c && c ≤ '9')

/-- `LABEL_PATTERN.match(remaining)`: the label and what follows the colon. -/
def labelMatch (remaining : Str) : Option (Str × Str) :=
  match remaining with
  | [] => none
  | c :: _ =>
      if isNameStart c then
        match (remaining.dropWhile isNameChar).dropWhile isSpace with
        | ':' :: rest => some (remaining.takeWhile isNameChar, rest)
        | _ => none
      else none

/-- The labels, the statements and the next address. -/
structure Parsed where
  labels : Labels := []
  statements : List Statement := []
  address : ℕ := 0
  deriving DecidableEq, Repr

/-- The loop that strips labels off a line.  Every turn shortens the text, so its
length is fuel enough. -/
def stripLabels (filename : Str) (lineNumber address : ℕ) :
    ℕ → Labels → Str → Except PyError (Labels × Str)
  | 0, labels, remaining => .ok (labels, remaining)
  | fuel + 1, labels, remaining =>
      match labelMatch remaining with
      | none => .ok (labels, remaining)
      | some (label, rest) =>
          if (labels.lookup label).isSome then
            .error (assemblyError filename lineNumber
              ("duplicate label '".toList ++ label ++ "'".toList))
          else
            stripLabels filename lineNumber address fuel (labels ++ [(label, address)]) (strip rest)

/-- The body of the loop of `parse_source`. -/
def parseLine (filename : Str) (parsed : Parsed) (lineNumber : ℕ) (rawLine : Str) :
    Except PyError Parsed := do
  let remaining := strip (rawLine.takeWhile (· ≠ '#'))
  let (labels, remaining) ←
    stripLabels filename lineNumber parsed.address remaining.length parsed.labels remaining
  if remaining.isEmpty then return { parsed with labels }
  else if ':' ∈ remaining then
    .error (assemblyError filename lineNumber "invalid label syntax".toList)
  else
    return { labels, statements := parsed.statements ++ [⟨lineNumber, remaining, parsed.address⟩]
             address := parsed.address + 4 }

/-- `enumerate(lines, start=lineNumber)` -/
def parseLines (filename : Str) : ℕ → Parsed → List Str → Except PyError Parsed
  | _, parsed, [] => .ok parsed
  | lineNumber, parsed, line :: lines => do
      let parsed ← parseLine filename parsed lineNumber line
      parseLines filename (lineNumber + 1) parsed lines

/-- `parse_source` -/
def parseSource (source filename : Str) : Except PyError Parsed :=
  parseLines filename 1 {} (splitLines source)

/-! ## Assembling -/

/-- `word.to_bytes(4, byteorder="little", signed=False)` -/
def toBytes (word : ℕ) : Except PyError (List (BitVec 8)) :=
  if word < 2 ^ 32 then
    let bits := BitVec.ofNat 32 word
    .ok [ByteStore.byteOf bits 0, ByteStore.byteOf bits 1, ByteStore.byteOf bits 2,
      ByteStore.byteOf bits 3]
  else .error .overflowError

/-- `assemble_text` -/
def assembleText (source filename : Str) : Except PyError (List (BitVec 8)) := do
  let parsed ← parseSource source filename
  let words ← parsed.statements.mapM fun statement =>
    encodeStatement statement filename parsed.labels
  let parts ← words.mapM toBytes
  return parts.flatten

end Mini32.Toolchain
