import Mini32.Toolchain.Assembler

/-!
# The disassembler

`disassembler.py`: `disassemble_word` spells a word out as a statement, or as a
`.word` directive when the word is no legal instruction, and
`disassemble_bytes` does so for an image, one statement a line.

The formatted strings of the source are the `show` functions, one for each format.  The
numbers of branches and jumps are spelled as displacements, not as labels, so what is
printed can be assembled again wherever it stands.
-/

namespace Mini32.Toolchain

open Py

/-- `sign_extend` of `mini32_isa.py`. -/
def signExtend (value width : ℕ) : ℤ :=
  if value &&& (1 <<< (width - 1)) ≠ 0 then value - (1 <<< width : ℕ) else value

/-- `register` -/
def register (index : ℕ) : Str := "r".toList ++ decimal index

/-- `invalid` -/
def invalid (word : ℕ) : Str := ".word 0x".toList ++ hex 8 word

section Formats

variable (mnemonic : Str) (rd rs1 rs2 imm16 : ℕ)

/-- `f"{mnemonic} {register(rd)}, {register(rs1)}, {register(rs2)}"` -/
def showR : Str :=
  mnemonic ++ " ".toList ++ register rd ++ ", ".toList ++ register rs1 ++ ", ".toList ++
    register rs2

/-- `f"{mnemonic} {register(rd)}, {register(rs1)}, {signed}"`, also of a branch. -/
def showSigned : Str :=
  mnemonic ++ " ".toList ++ register rd ++ ", ".toList ++ register rs1 ++ ", ".toList ++
    decimal (signExtend imm16 16)

/-- `f"{mnemonic} {register(rd)}, {register(rs1)}, 0x{imm16:04X}"` -/
def showUnsigned : Str :=
  mnemonic ++ " ".toList ++ register rd ++ ", ".toList ++ register rs1 ++ ", 0x".toList ++
    hex 4 imm16

/-- `f"{mnemonic} {register(rd)}, {signed}({register(rs1)})"` -/
def showMemory : Str :=
  mnemonic ++ " ".toList ++ register rd ++ ", ".toList ++ decimal (signExtend imm16 16) ++
    "(".toList ++ register rs1 ++ ")".toList

/-- `f"LUI {register(rd)}, 0x{imm16:04X}"` -/
def showLui : Str := "LUI ".toList ++ register rd ++ ", 0x".toList ++ hex 4 imm16

/-- `f"JR {register(rs1)}"` -/
def showJr : Str := "JR ".toList ++ register rs1

/-- `f"{mnemonic} {sign_extend(imm26, 26)}"` -/
def showJump (imm26 : ℕ) : Str :=
  mnemonic ++ " ".toList ++ decimal (signExtend imm26 26)

end Formats

/-- `disassemble_word` -/
def disassembleWord (word : ℕ) : Str :=
  match Opcode.all[word >>> 26]? with
  | none => invalid word
  | some opcode =>
      let mnemonic := opcodeName opcode
      let rd := (word >>> 21) &&& 0x1F
      let rs1 := (word >>> 16) &&& 0x1F
      let rs2 := (word >>> 11) &&& 0x1F
      let imm16 := word &&& 0xFFFF
      match opcode with
      | .nop => if word = 0 then mnemonic else invalid word
      | .halt => if word = opcode.code.toNat <<< 26 then mnemonic else invalid word
      | .add | .sub | .and | .or | .xor | .slt | .shl | .shr =>
          if word &&& 0x7FF ≠ 0 then invalid word else showR mnemonic rd rs1 rs2
      | .jr =>
          if word &&& 0x1FFFFF ≠ 0 then invalid word else showJr ((word >>> 21) &&& 0x1F)
      | .lui =>
          if rs1 ≠ 0 then invalid word else showLui rd imm16
      | .addi => showSigned mnemonic rd rs1 imm16
      | .lw | .sw => showMemory mnemonic rd rs1 imm16
      | .andi | .ori | .xori => showUnsigned mnemonic rd rs1 imm16
      | .beq | .bne | .blt | .bge => showSigned mnemonic rd rs1 imm16
      | .j | .jal => showJump mnemonic (word &&& 0x03FFFFFF)

/-- `int.from_bytes(image[offset:offset + 4], "little")` for each offset in turn. -/
def wordsOf : List (BitVec 8) → List ℕ
  | b0 :: b1 :: b2 :: b3 :: image => (ByteStore.ofBytes b0 b1 b2 b3).toNat :: wordsOf image
  | _ => []

/-- `disassemble_bytes` -/
def disassembleBytes (image : List (BitVec 8)) : Except PyError Str :=
  if image.length % 4 ≠ 0 then
    .error (.valueError "binary image size must be divisible by 4 bytes".toList)
  else
    .ok (join "\n".toList ((wordsOf image).map disassembleWord) ++
      if image.isEmpty then [] else "\n".toList)

end Mini32.Toolchain
