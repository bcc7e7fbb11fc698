import Mathlib.Data.Char
import Mathlib.Data.List.Lex
import Mathlib.Data.List.Sort
import Mini32.Lib.PyInt
import Mini32.Lib.PyJson

/-!
# Reading a trace

`differential.py`: `_require_hex`, `_require_byte_stream`, `_validate_record` and
`parse_trace`, check for check and with the texts of their errors.

A record is a `dict` in the order of its keys.  `record[key]` raises a `KeyError` here if the
key is missing, and a status is hashed before it is compared, so that what the checks do not
foresee shows as an exception of its own kind.  `_validate_record` is split by the type of the
record, and `parse_trace` into the loop over the lines and the checks on the list.

`json.loads` is a parameter, which returns the value of a text or the message of its
`JSONDecodeError`; so is `repr`, which only error messages use.
-/

namespace Mini32.Verification

open Py

/-- A trace record. -/
abbrev Record := Dict

/-- The exceptions of the module. -/
inductive PyException
  | traceError (message : Str)
  | differentialMismatch (message : Str)
  /-- The `TypeError` of hashing a list or a `dict`. -/
  | typeError
  | keyError (key : Str)
  /-- The `IndexError` of an empty trace. -/
  | indexError
  deriving DecidableEq

/-- `TRACE_PREFIX` -/
def TRACE_PREFIX : Str := "MINI32_TRACE ".toList

/-- `RETIRE_FIELDS` -/
def RETIRE_FIELDS : List Str :=
  ["type".toList, "index".toList, "pc".toList, "instruction".toList, "next_pc".toList,
    "reg_write".toList, "rd".toList, "reg_value".toList, "mem_write".toList, "mem_addr".toList,
    "mem_value".toList]

/-- `FINAL_FIELDS` -/
def FINAL_FIELDS : List Str :=
  ["type".toList, "status".toList, "pc".toList, "retired".toList, "uart_tx".toList,
    "debug_value".toList, "gpio_output".toList, "gpio_direction".toList, "timer_counter".toList,
    "timer_compare".toList, "timer_control".toList]

/-- `FAULT_FIELDS` -/
def FAULT_FIELDS : List Str :=
  ["fault".toList, "fault_pc".toList, "fault_instruction".toList, "fault_address_valid".toList,
    "fault_address".toList]

/-- The class `[0-9A-Fa-f]`. -/
def isHexDigit (c : Char) : Bool :=
  ('0' ≤ c && c ≤ '9') || ('A' ≤ c && c ≤ 'F') || ('a' ≤ c && c ≤ 'f')

/-- `HEX32.fullmatch(value)` -/
def isHex32 (value : Str) : Bool := value.length = 8 && value.all isHexDigit

/-- `HEX_BYTES.fullmatch(value)` -/
def isHexBytes (value : Str) : Bool := value.length % 2 = 0 && value.all isHexDigit

section Records

variable (repr : Json → Str)

/-- `f"{value}"` -/
def formatted : Json → Str
  | .str s => s
  | value => repr value

/-- `record[key]` -/
def getItem (record : Record) (key : Str) : Except PyException Json :=
  match record.lookup key with
  | some value => .ok value
  | none => .error (.keyError key)

/-- `if condition: raise TraceError(message)` -/
def raiseIf (condition : Prop) [Decidable condition] (message : Str) : Except PyException Unit :=
  if condition then .error (.traceError message) else .ok ()

/-- `isinstance(value, bool)` -/
def isBool : Json → Bool
  | .bool _ => true
  | _ => false

/-- `isinstance(value, str)` -/
def isStr : Json → Bool
  | .str _ => true
  | _ => false

/-- What the two `_require` functions share: a text that matches is put in lower case. -/
def requireText (pattern : Str → Bool) (requirement : Str) (record : Record) (field : Str) :
    Except PyException Record :=
  let message : Str :=
    formatted repr ((record.lookup "type".toList).getD (.str "unknown".toList)) ++
      " field '".toList ++ field ++ "' must be ".toList ++ requirement
  match record.lookup field with
  | some (.str value) =>
      if pattern value then .ok (record.setItem field (.str (lower value)))
      else .error (.traceError message)
  | _ => .error (.traceError message)

/-- `_require_hex` -/
def requireHex (record : Record) (field : Str) : Except PyException Record :=
  requireText repr isHex32 "8 hexadecimal digits".toList record field

/-- `_require_byte_stream` -/
def requireByteStream (record : Record) (field : Str) : Except PyException Record :=
  requireText repr isHexBytes "an even-length hexadecimal byte stream".toList record field

/-- `fields - record.keys()` -/
def missingFields (fields : List Str) (record : Record) : List Str :=
  fields.filter fun field => (record.lookup field).isNone

/-- `', '.join(sorted(missing))` -/
def listed (missing : List Str) : Str :=
  join ", ".toList (missing.mergeSort fun a b => decide (a ≤ b))

/-- The words of a retire record. -/
def retireWords : List Str :=
  ["pc".toList, "instruction".toList, "next_pc".toList, "reg_value".toList, "mem_addr".toList,
    "mem_value".toList]

/-- The words of a final record behind its UART stream. -/
def finalWords : List Str :=
  ["debug_value".toList, "gpio_output".toList, "gpio_direction".toList, "timer_counter".toList,
    "timer_compare".toList, "timer_control".toList]

/-- The words of a fault. -/
def faultWords : List Str :=
  ["fault_pc".toList, "fault_instruction".toList, "fault_address".toList]

/-- `value not in {"halted", "faulted"}`, which hashes the value. -/
def notInStatuses : Json → Except PyException Bool
  | .str s => .ok (s ≠ "halted".toList ∧ s ≠ "faulted".toList)
  | .array _ | .object _ => .error .typeError
  | _ => .ok true

/-- `_validate_record` of a retire record. -/
def validateRetire (record : Record) : Except PyException Record := do
  let missing := missingFields RETIRE_FIELDS record
  raiseIf (missing ≠ []) ("retire record missing fields: ".toList ++ listed missing)
  let index ← getItem record "index".toList
  raiseIf (¬ index.int?.any (0 ≤ ·)) "retire index must be a non-negative integer".toList
  let regWrite ← getItem record "reg_write".toList
  let memWrite ← getItem record "mem_write".toList
  raiseIf (¬ isBool regWrite ∨ ¬ isBool memWrite) "retire enable fields must be booleans".toList
  let rd ← getItem record "rd".toList
  raiseIf (¬ rd.int?.any fun rd => 0 ≤ rd ∧ rd < 32) "retire rd must be in 0..31".toList
  retireWords.foldlM (requireHex repr) record

/-- The checks of a final record that reports a fault. -/
def validateFault (record : Record) : Except PyException Record := do
  let missing := missingFields FAULT_FIELDS record
  raiseIf (missing ≠ []) ("fault final record missing fields: ".toList ++ listed missing)
  let fault ← getItem record "fault".toList
  let addressValid ← getItem record "fault_address_valid".toList
  raiseIf (¬ isStr fault ∨ ¬ isBool addressValid) "fault fields have invalid types".toList
  faultWords.foldlM (requireHex repr) record

/-- `_validate_record` of a final record. -/
def validateFinal (record : Record) : Except PyException Record := do
  let missing := missingFields FINAL_FIELDS record
  raiseIf (missing ≠ []) ("final record missing fields: ".toList ++ listed missing)
  let status ← getItem record "status".toList
  let notInSet ← notInStatuses status
  raiseIf (notInSet = true) "final status must be halted or faulted".toList
  let retired ← getItem record "retired".toList
  raiseIf (¬ retired.int?.any (0 ≤ ·)) "final retired must be a non-negative integer".toList
  let record ← requireHex repr record "pc".toList
  let record ← requireByteStream repr record "uart_tx".toList
  let record ← finalWords.foldlM (requireHex repr) record
  let status ← getItem record "status".toList
  if status.eq (.str "faulted".toList) then validateFault repr record else .ok record

/-- `record.get("type")` compared with a text; a missing type is `None`. -/
def hasType (record : Record) (type : Str) : Bool :=
  ((record.lookup "type".toList).getD .null).eq (.str type)

/-- `_validate_record` -/
def validateRecord : Json → Except PyException Record
  | .object record =>
      if hasType record "retire".toList then validateRetire repr record
      else if hasType record "final".toList then validateFinal repr record
      else .error (.traceError ("unexpected record type: ".toList ++
        repr ((record.lookup "type".toList).getD .null)))
  | _ => .error (.traceError "trace record must be a JSON object".toList)

end Records

/-! ## Whole traces -/

section Traces

variable (loads : Str → Except Str Json) (repr : Json → Str)

/-- The text of a line that is given to `json.loads`, if it is not skipped. -/
def payload (isPrefixed : Bool) (rawLine : Str) : Option Str :=
  let line := strip rawLine
  if line.isEmpty then none
  else if isPrefixed then
    if TRACE_PREFIX.isPrefixOf line then some (line.drop TRACE_PREFIX.length) else none
  else some line

/-- The loop over the lines, numbered from `lineNumber`. -/
def parseLines (isPrefixed : Bool) : ℕ → List Str → Except PyException (List Record)
  | _, [] => .ok []
  | lineNumber, rawLine :: lines =>
      match payload isPrefixed rawLine with
      | none => parseLines isPrefixed (lineNumber + 1) lines
      | some line =>
          match loads line with
          | .error message =>
              .error (.traceError
                ("line ".toList ++ decimal lineNumber ++ ": invalid JSON: ".toList ++ message))
          | .ok json => do
              let record ← validateRecord repr json
              let records ← parseLines isPrefixed (lineNumber + 1) lines
              return record :: records

/-- The positions, counted from `index`, of the records with type `final`. -/
def finalPositions : ℕ → List Record → Except PyException (List ℕ)
  | _, [] => .ok []
  | index, record :: records => do
      let type ← getItem record "type".toList
      let positions ← finalPositions (index + 1) records
      return if type.eq (.str "final".toList) then index :: positions else positions

/-- `record["type"] == "retire" and record["index"] == index` -/
def isContiguous (record : Record) (index : ℕ) : Except PyException Bool := do
  let type ← getItem record "type".toList
  if type.eq (.str "retire".toList) then do
    let recorded ← getItem record "index".toList
    return recorded.eq (.int index)
  else return false

/-- The loop over the retire records, numbered from `index`. -/
def checkIndices : ℕ → List Record → Except PyException Unit
  | _, [] => .ok ()
  | index, record :: records => do
      let contiguous ← isContiguous record index
      raiseIf (¬ contiguous) "retirement indices must be contiguous and start at zero".toList
      checkIndices (index + 1) records

/-- The checks on a list that ends in `final`. -/
def checkTrace (records : List Record) (final : Record) : Except PyException Unit := do
  let positions ← finalPositions 0 records
  raiseIf (positions ≠ [records.length - 1])
    "trace must contain exactly one final record as its last line".toList
  checkIndices 0 records.dropLast
  let retired ← getItem final "retired".toList
  raiseIf (¬ retired.eq (.int (records.length - 1 : ℕ)))
    "final retired count does not equal the number of retire records".toList

/-- What `parse_trace` does once the lines are read. -/
def checkRecords (records : List Record) : Except PyException (List Record) :=
  match records.getLast? with
  | none => .error (.traceError "trace contains no records".toList)
  | some final => do
      checkTrace records final
      return records

/-- `parse_trace` -/
def parseTrace (text : Str) (isPrefixed : Bool) : Except PyException (List Record) := do
  let records ← parseLines loads repr isPrefixed 1 (splitLines text)
  checkRecords records

end Traces

end Mini32.Verification
