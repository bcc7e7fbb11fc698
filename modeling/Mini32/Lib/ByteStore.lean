import Mathlib.Data.List.Basic
import Mathlib.Logic.Function.Basic
import Mini32.Lib.Bits

/-!
# Little-endian words in a byte memory

A byte memory is a function from offsets to bytes.  A 32-bit word at offset `o`
occupies `o`, …, `o + 3`, least significant byte first.

* `readWord_writeWord_same`, `readWord_writeWord_of_disjoint` — the two
  read-over-write laws.
* `readWord_congr` — a word depends on its own four bytes only.
* `ofBytes_byteOf`, `byteOf_ofBytes` — a word is its four bytes, and the bytes are those
  of the word.

Offsets are naturals and there is no end to the memory: bounds are checked by whoever
uses it, before it comes to bytes.  Nothing is assumed about alignment either, which is
why the second law asks that the two words have no byte in common, and not just that
their offsets differ.
-/

namespace ByteStore

/-- The word made of four bytes, least significant first. -/
def ofBytes (b0 b1 b2 b3 : BitVec 8) : BitVec 32 :=
  b0.zeroExtend 32 ||| (b1.zeroExtend 32 <<< 8) ||| (b2.zeroExtend 32 <<< 16)
    ||| (b3.zeroExtend 32 <<< 24)

/-- Byte `k` of a word, by shifting and masking. -/
def byteOf (v : BitVec 32) (k : ℕ) : BitVec 8 := ((v >>> (8 * k)) &&& 0xFF).setWidth 8

/-- The word at an offset. -/
def readWord (m : ℕ → BitVec 8) (o : ℕ) : BitVec 32 :=
  ofBytes (m o) (m (o + 1)) (m (o + 2)) (m (o + 3))

/-- The memory with a word stored at an offset. -/
def writeWord (m : ℕ → BitVec 8) (o : ℕ) (v : BitVec 32) : ℕ → BitVec 8 :=
  Function.update (Function.update (Function.update (Function.update m
    o (byteOf v 0)) (o + 1) (byteOf v 1)) (o + 2) (byteOf v 2)) (o + 3) (byteOf v 3)

/-- A byte is a slice. -/
theorem byteOf_eq_slice (v : BitVec 32) (k : ℕ) (hk : k < 4) :
    byteOf v k = v.extractLsb' (8 * k) 8 := by
  change ((v >>> (8 * k)) &&& BitVec.ofNat 32 (2 ^ 8 - 1)).setWidth 8 = _
  rw [Bits.ushiftRight_and_mask v (8 * k) 8 (by omega)]
  simp

/-- The bytes of a word determine it. -/
theorem ofBytes_byteOf (v : BitVec 32) :
    ofBytes (byteOf v 0) (byteOf v 1) (byteOf v 2) (byteOf v 3) = v := by
  simp only [byteOf_eq_slice v _ (show 0 < 4 by decide), byteOf_eq_slice v _ (show 1 < 4 by decide),
    byteOf_eq_slice v _ (show 2 < 4 by decide), byteOf_eq_slice v _ (show 3 < 4 by decide)]
  apply BitVec.eq_of_getLsbD_eq
  intro i hi
  simp only [ofBytes, BitVec.getLsbD_or, BitVec.getLsbD_shiftLeft, BitVec.getLsbD_setWidth,
    BitVec.getLsbD_extractLsb']
  grind

/-- A word is its bytes one behind the other. -/
theorem ofBytes_eq_append (b0 b1 b2 b3 : BitVec 8) :
    ofBytes b0 b1 b2 b3 = (b3 ++ b2 ++ b1 ++ b0 : BitVec (8 + 8 + 8 + 8)) := by
  unfold ofBytes
  grind

/-- A word gives its bytes back. -/
theorem byteOf_ofBytes (b0 b1 b2 b3 : BitVec 8) :
    byteOf (ofBytes b0 b1 b2 b3) 0 = b0 ∧ byteOf (ofBytes b0 b1 b2 b3) 1 = b1 ∧
      byteOf (ofBytes b0 b1 b2 b3) 2 = b2 ∧ byteOf (ofBytes b0 b1 b2 b3) 3 = b3 := by
  simp only [byteOf_eq_slice _ _ (show 0 < 4 by decide), byteOf_eq_slice _ _ (show 1 < 4 by decide),
    byteOf_eq_slice _ _ (show 2 < 4 by decide), byteOf_eq_slice _ _ (show 3 < 4 by decide),
    ofBytes_eq_append]
  refine ⟨?_, ?_, ?_, ?_⟩ <;> grind

/-- A word depends on its four bytes. -/
theorem readWord_congr {m m' : ℕ → BitVec 8} {o : ℕ}
    (h : ∀ k < 4, m (o + k) = m' (o + k)) : readWord m o = readWord m' o := by
  have h0 := h 0 (by decide)
  have h1 := h 1 (by decide)
  have h2 := h 2 (by decide)
  have h3 := h 3 (by decide)
  simp only [Nat.add_zero] at h0
  simp only [readWord, h0, h1, h2, h3]

/-- Zeroed memory holds zeros. -/
theorem readWord_zero (o : ℕ) : readWord (fun _ => 0#8) o = 0#32 := by
  simp [readWord, ofBytes]

/-- The bytes outside a written word are untouched. -/
theorem writeWord_of_outside {m : ℕ → BitVec 8} {o i : ℕ} {v : BitVec 32}
    (h : i < o ∨ o + 4 ≤ i) : writeWord m o v i = m i := by
  simp only [writeWord]
  rw [Function.update_of_ne (by omega), Function.update_of_ne (by omega),
    Function.update_of_ne (by omega), Function.update_of_ne (by omega)]

/-- The bytes of a written word. -/
theorem writeWord_byte (m : ℕ → BitVec 8) (o : ℕ) (v : BitVec 32) :
    ∀ k < 4, writeWord m o v (o + k) = byteOf v k := by
  intro k hk
  rcases (by omega : k = 0 ∨ k = 1 ∨ k = 2 ∨ k = 3) with rfl | rfl | rfl | rfl <;>
    simp [writeWord]

/-- What is stored is read back, … -/
@[simp] theorem readWord_writeWord_same (m : ℕ → BitVec 8) (o : ℕ) (v : BitVec 32) :
    readWord (writeWord m o v) o = v := by
  have h := writeWord_byte m o v
  have h0 := h 0 (by decide)
  simp only [Nat.add_zero] at h0
  rw [readWord, h0, h 1 (by decide), h 2 (by decide), h 3 (by decide), ofBytes_byteOf]

/-- … and a word that has no byte in common with it is as before. -/
theorem readWord_writeWord_of_disjoint {m : ℕ → BitVec 8} {o o' : ℕ} {v : BitVec 32}
    (h : o' + 4 ≤ o ∨ o + 4 ≤ o') : readWord (writeWord m o v) o' = readWord m o' :=
  readWord_congr fun k hk => writeWord_of_outside (by omega)

end ByteStore
