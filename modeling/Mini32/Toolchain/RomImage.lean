import Mini32.Rtl.Peripherals
import Mini32.Simulator.Programs
import Mini32.Toolchain.Disassembler

/-!
# One image, one ROM

`convert_image` of `bin_to_mem.py`, the text of the file that initializes the RTL ROM, and
`$readmemh`, which places its words.  `oneImage` says that the RTL ROM then holds, word
for word, what the simulator reads after `load_bytes` of the same image, and that both
refuse an image that does not fit.

The text is 16384 lines for every image that fits, since `convert_image` fills up with zeros; so
`$readmemh` sets every word of the ROM and what was there before does not matter.
`imageByte` is the byte of the image at an offset, zero past its end, and both sides are
read as words of it.
-/

namespace Mini32

open Py

/-! ## `bin_to_mem.py` -/

namespace Toolchain

/-- `ROM_SIZE_BYTES` -/
def romSizeBytes : ℕ := 64 * 1024
/-- `ROM_WORD_COUNT` -/
def romWordCount : ℕ := romSizeBytes / 4

/-- `convert_image` -/
def convertImage (rawImage : List (BitVec 8)) : Except PyError Str :=
  if rawImage.length % 4 ≠ 0 then
    .error (.valueError "input size must be divisible by 4 bytes".toList)
  else if rawImage.length > romSizeBytes then
    .error (.valueError "input image exceeds the 64 KiB Mini32 ROM capacity".toList)
  else
    let words := (wordsOf rawImage).map fun word => hex 8 word ++ "\n".toList
    .ok (words ++ List.replicate (romWordCount - words.length) "00000000\n".toList).flatten

end Toolchain

/-! ## `$readmemh` -/

namespace Rtl

/-- The white space that separates the numbers of a memory file. -/
def isBlank (c : Char) : Bool := c = ' ' || c = '\n' || c = '\t' || c = '\r' || c.toNat = 0x0C

/-- The words of the text. -/
def tokens (text : Str) : List Str := (text.splitOnP isBlank).filter (· ≠ [])

/-- `$readmemh(text, memory)`: number `i` of the text goes to word `i`, and a word without
a number keeps what it held. -/
def readmemh (text : Str) (memory : BitVec 14 → Word) : BitVec 14 → Word := fun i =>
  match (tokens text)[i.toNat]? with
  | some digits => BitVec.ofNat 32 (ofDigits 16 digits)
  | none => memory i

/-- The numbers of a file with one number a line. -/
theorem tokens_flatten {lines : List Str} (hne : ∀ l ∈ lines, l ≠ [])
    (hlines : ∀ l ∈ lines, ∀ c ∈ l, isBlank c = false) :
    tokens (lines.map (· ++ ['\n'])).flatten = lines := by
  induction lines with
  | nil => rfl
  | cons line lines ih =>
      have ih := ih (fun l hl => hne l (List.mem_cons_of_mem _ hl))
        fun l hl => hlines l (List.mem_cons_of_mem _ hl)
      rw [tokens] at ih ⊢
      rw [List.map_cons, List.flatten_cons, List.append_assoc, List.singleton_append,
        List.splitOnP_append_cons_of_forall_mem (hlines line List.mem_cons_self) '\n' rfl,
        List.filter_cons_of_pos (by simpa using hne line List.mem_cons_self), ih]

end Rtl

/-! ## The words of an image -/

namespace Toolchain

open ByteStore

/-- Byte `i` of a ROM that an image was loaded into at address zero. -/
def imageByte (image : List (BitVec 8)) (i : ℕ) : BitVec 8 := (image[i]?).getD 0

/-- A word behind the first one is a word of the rest. -/
theorem readWord_imageByte_succ (b0 b1 b2 b3 : BitVec 8) (image : List (BitVec 8)) (i : ℕ) :
    readWord (imageByte (b0 :: b1 :: b2 :: b3 :: image)) (4 * (i + 1)) =
      readWord (imageByte image) (4 * i) := rfl

/-- Past the image every word is zero. -/
theorem readWord_imageByte_past {image : List (BitVec 8)} {o : ℕ} (h : image.length ≤ o) :
    readWord (imageByte image) o = 0 := by
  have hcongr : readWord (imageByte image) o = readWord (fun _ => 0#8) o := by
    apply readWord_congr
    intro k _
    rw [imageByte, List.getElem?_eq_none (by omega)]
    rfl
  rw [hcongr, readWord_zero]
  rfl

/-- A whole number of words is empty or starts with four bytes. -/
theorem eq_nil_of_short {image : List (BitVec 8)}
    (hshort : ∀ b0 b1 b2 b3 rest, image = b0 :: b1 :: b2 :: b3 :: rest → False)
    (hlength : image.length % 4 = 0) : image = [] := by
  rcases image with - | ⟨b0, - | ⟨b1, - | ⟨b2, - | ⟨b3, image⟩⟩⟩⟩
  · rfl
  · simp at hlength
  · simp at hlength
  · simp at hlength
  · exact absurd rfl (hshort b0 b1 b2 b3 image)

/-- The words of an image are those at the multiples of four. -/
theorem getElem?_wordsOf (image : List (BitVec 8)) (i : ℕ) (hlength : image.length % 4 = 0) :
    (wordsOf image)[i]? =
      if 4 * i < image.length then some (readWord (imageByte image) (4 * i)).toNat else none := by
  induction image using wordsOf.induct generalizing i with
  | case1 b0 b1 b2 b3 image ih =>
      simp only [List.length_cons] at hlength ⊢
      rw [wordsOf]
      cases i with
      | zero => rfl
      | succ i =>
          rw [List.getElem?_cons_succ, ih i (by omega), readWord_imageByte_succ]
          by_cases h : 4 * i < image.length
          · rw [if_pos h, if_pos (by omega)]
          · rw [if_neg h, if_neg (by omega)]
  | case2 image hshort =>
      obtain rfl := eq_nil_of_short hshort hlength
      rfl

/-- An image of whole words has a quarter as many words as bytes. -/
theorem length_wordsOf (image : List (BitVec 8)) (hlength : image.length % 4 = 0) :
    4 * (wordsOf image).length = image.length := by
  induction image using wordsOf.induct with
  | case1 b0 b1 b2 b3 image ih =>
      simp only [List.length_cons] at hlength
      simp only [wordsOf, List.length_cons, Nat.mul_add, ih (by omega)]
  | case2 image hshort =>
      obtain rfl := eq_nil_of_short hshort hlength
      rfl

/-- The words of the ROM file. -/
def romWords (image : List (BitVec 8)) : List ℕ :=
  wordsOf image ++ List.replicate (romWordCount - (wordsOf image).length) 0

section RomWords

variable {image : List (BitVec 8)} (hlength : image.length % 4 = 0)

include hlength

/-- The words of the ROM fill it. -/
theorem length_romWords (hfits : image.length ≤ romSizeBytes) :
    (romWords image).length = romWordCount := by
  have h := length_wordsOf image hlength
  rw [romWords, List.length_append, List.length_replicate]
  simp only [romWordCount, romSizeBytes] at hfits ⊢
  omega

/-- Past the image the words are zero, as the bytes of a fresh ROM are. -/
theorem getElem?_romWords {i : ℕ} (hi : i < romWordCount) :
    (romWords image)[i]? = some (readWord (imageByte image) (4 * i)).toNat := by
  have hcount := length_wordsOf image hlength
  rw [romWords]
  by_cases h : 4 * i < image.length
  · rw [List.getElem?_append_left (by omega), getElem?_wordsOf image i hlength, if_pos h]
  · rw [List.getElem?_append_right (by omega), readWord_imageByte_past (by omega),
      List.getElem?_replicate, if_pos (by omega)]
    rfl

/-- The text that `convert_image` yields: each word on a line of its own. -/
theorem convertImage_ok (hfits : image.length ≤ romSizeBytes) :
    convertImage image = .ok (((romWords image).map (hex 8)).map (· ++ ['\n'])).flatten := by
  have hpad : "00000000\n".toList = hex 8 0 ++ ['\n'] := by decide
  rw [convertImage, if_neg (by omega), if_neg (by omega)]
  simp only [romWords, hpad, List.length_map, List.map_append, List.map_map, List.map_replicate]
  rfl

end RomWords

/-- The characters of a line are no white space and break no line. -/
theorem mem_hex_plain {width n : ℕ} {c : Char} (h : c ∈ hex width n) :
    Rtl.isBlank c = false ∧ isLineBreak c = false := by
  obtain ⟨d, hd, rfl⟩ := mem_hex h
  have hplain : ∀ d < 16, Rtl.isBlank (upperDigit (Nat.digitChar d)) = false ∧
      isLineBreak (upperDigit (Nat.digitChar d)) = false := by decide
  exact hplain d hd

/-- What the RTL ROM holds after the file of an accepted image. -/
theorem readmemh_convertImage {image : List (BitVec 8)} (hlength : image.length % 4 = 0)
    (memory : BitVec 14 → Word) (i : BitVec 14) :
    Rtl.readmemh (((romWords image).map (hex 8)).map (· ++ ['\n'])).flatten memory i =
      readWord (imageByte image) (4 * i.toNat) := by
  have hne : ∀ l ∈ (romWords image).map (hex 8), l ≠ [] := by
    intro l hl
    obtain ⟨n, -, rfl⟩ := List.mem_map.mp hl
    exact hex_ne_nil 8 n
  have hblank : ∀ l ∈ (romWords image).map (hex 8), ∀ c ∈ l, Rtl.isBlank c = false := by
    intro l hl c hc
    obtain ⟨n, -, rfl⟩ := List.mem_map.mp hl
    exact (mem_hex_plain hc).1
  rw [Rtl.readmemh, Rtl.tokens_flatten hne hblank, List.getElem?_map,
    getElem?_romWords hlength i.isLt]
  simp only [Option.map_some, ofDigits_hex, BitVec.ofNat_toNat, BitVec.setWidth_eq]

/-- The simulator's ROM after `load_bytes` at address zero. -/
theorem loadBytes_zero {image : List (BitVec 8)} (hfits : image.length ≤ romSizeBytes) :
    Cpp.Rom.fresh.loadBytes 0 image = some ⟨imageByte image⟩ := by
  have hinside : ¬ ((0 : Word) > Cpp.Rom.kLastAddress ∨
      image.length > Cpp.Rom.kSizeBytes - (0 : Word).toNat) := by
    rw [not_or]
    exact ⟨by decide, Nat.not_lt.mpr hfits⟩
  rw [Cpp.Rom.loadBytes, if_neg hinside]
  rfl

/-- The ROM that an image is loaded into. -/
def imageRom (image : Cpp.Image) : Cpp.Rom := ⟨imageByte image.bytes⟩

/-- The computer of both programs has the image in its ROM. -/
theorem computer_image (image : Cpp.Image) :
    Cpp.computer image = .ok (.fresh (imageRom image) 0) := by
  rw [Cpp.computer, loadBytes_zero image.fits]
  rfl

/-- An image with a ROM file is one that a program can be loaded from. -/
theorem exists_image {binary : List (BitVec 8)} {text : Str} (h : convertImage binary = .ok text) :
    ∃ image : Cpp.Image, image.bytes = binary := by
  unfold convertImage at h
  split_ifs at h with hwords hfits
  exact ⟨⟨binary, Nat.le_of_not_lt hfits, not_not.mp hwords⟩, rfl⟩

/-- `load_bytes` refuses an image that does not fit. -/
theorem loadBytes_too_long {image : List (BitVec 8)} (hlong : romSizeBytes < image.length)
    (rom : Cpp.Rom) : rom.loadBytes 0 image = none :=
  if_pos (Or.inr hlong)

/-- **One image, one ROM.**  An accepted image gives a file of 16384 lines, from which the RTL
ROM holds in every word what the simulator reads there, zero past the image; an image
over 64 KiB is refused by both, and the simulator's ROM is as it was. -/
theorem oneImage (image : List (BitVec 8)) :
    ((∃ text, convertImage image = .ok text) ↔
        image.length % 4 = 0 ∧ image.length ≤ 64 * 1024) ∧
      (∀ text, convertImage image = .ok text →
        (splitLines text).length = 16384 ∧
        ∃ rom, Cpp.Rom.fresh.loadBytes 0 image = some rom ∧
          ∀ (memory : BitVec 14 → Word) (i : BitVec 14),
            rom.read32 (4 * i.setWidth 32) = .ok (Rtl.readmemh text memory i) ∧
              (image.length ≤ 4 * i.toNat → Rtl.readmemh text memory i = 0)) ∧
      (64 * 1024 < image.length →
        (∃ error, convertImage image = .error error) ∧
        ∀ rom : Cpp.Rom, rom.tryLoadBytes 0 image = (true, rom)) := by
  have haccepted : (∃ text, convertImage image = .ok text) ↔
      image.length % 4 = 0 ∧ image.length ≤ romSizeBytes := by
    constructor
    · rintro ⟨text, htext⟩
      unfold convertImage at htext
      split at htext
      · nomatch htext
      · next hlength =>
        split at htext
        · nomatch htext
        · next hfits => exact ⟨not_not.mp hlength, Nat.le_of_not_lt hfits⟩
    · rintro ⟨hlength, hfits⟩
      exact ⟨_, convertImage_ok hlength hfits⟩
  -- a refused image gives no file; the simulator throws before it writes a byte
  refine ⟨haccepted, fun text htext => ?_, fun hlong => ⟨?_, fun rom => ?_⟩⟩
  · obtain ⟨hlength, hfits⟩ := haccepted.mp ⟨text, htext⟩
    obtain rfl := Except.ok.inj ((convertImage_ok hlength hfits).symm.trans htext)
    refine ⟨?_, _, loadBytes_zero hfits, fun memory i => ?_⟩
    · rw [splitLines_flatten, List.length_map, length_romWords hlength hfits]
      · rfl
      · intro l hl c hc
        obtain ⟨n, -, rfl⟩ := List.mem_map.mp hl
        exact (mem_hex_plain hc).2
    · rw [readmemh_convertImage hlength memory i]
      have hword : Isa.wordAddress Cpp.Rom.kBaseAddress i = 4 * i.setWidth 32 := by
        simp [Isa.wordAddress, Cpp.Rom.kBaseAddress]
      refine ⟨?_, readWord_imageByte_past⟩
      rw [← hword, Cpp.Bus.rom_read32_word]
  · cases h : convertImage image with
    | error error => exact ⟨error, rfl⟩
    | ok text => exact absurd (haccepted.mp ⟨text, h⟩).2 (Nat.not_le.mpr hlong)
  · rw [Cpp.Rom.tryLoadBytes, loadBytes_too_long hlong]

end Toolchain
end Mini32
