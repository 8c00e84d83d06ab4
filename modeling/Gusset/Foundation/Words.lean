import Mathlib

/-! 64-bit words and their bytes in either byte order. -/
namespace Gusset.Foundation

abbrev Word := BitVec 64
abbrev Byte := BitVec 8

/-- The byte order of the machine; both sides of a shared memory or a pipe use the same one. -/
inductive Endian | little | big
  deriving DecidableEq, Repr

namespace Endian

-- The bytes of a word, lowest first.
def lowest (w : Word) : List Byte :=
  [.ofNat 8 w.toNat, .ofNat 8 (w.toNat / 2 ^ 8), .ofNat 8 (w.toNat / 2 ^ 16),
    .ofNat 8 (w.toNat / 2 ^ 24), .ofNat 8 (w.toNat / 2 ^ 32), .ofNat 8 (w.toNat / 2 ^ 40),
    .ofNat 8 (w.toNat / 2 ^ 48), .ofNat 8 (w.toNat / 2 ^ 56)]

def ofLowest : List Byte → Word
  | [] => 0
  | b :: rest => .ofNat 64 (b.toNat + 2 ^ 8 * (ofLowest rest).toNat)

/-- `to_ne_bytes`. -/
def bytes : Endian → Word → List Byte
  | .little, w => lowest w
  | .big, w => (lowest w).reverse

/-- `from_ne_bytes`, and `binary.NativeEndian.Uint64` on the first 8 bytes. -/
def word : Endian → List Byte → Word
  | .little, b => ofLowest b
  | .big, b => ofLowest b.reverse

@[simp] theorem length_bytes (e : Endian) (w : Word) : (e.bytes w).length = 8 := by
  cases e <;> rfl

theorem ofLowest_lowest (w : Word) : ofLowest (lowest w) = w := by
  apply BitVec.eq_of_toNat_eq
  have bound := w.isLt
  simp only [lowest, ofLowest, BitVec.toNat_ofNat, BitVec.ofNat_eq_ofNat]
  omega

theorem lowest_ofLowest (b : List Byte) (eight : b.length = 8) : lowest (ofLowest b) = b := by
  match b, eight with
  | [b0, b1, b2, b3, b4, b5, b6, b7], _ =>
    have h0 := b0.isLt
    have h1 := b1.isLt
    have h2 := b2.isLt
    have h3 := b3.isLt
    have h4 := b4.isLt
    have h5 := b5.isLt
    have h6 := b6.isLt
    have h7 := b7.isLt
    simp only [lowest, ofLowest, BitVec.toNat_ofNat, List.cons.injEq, and_true]
    refine ⟨?_, ?_, ?_, ?_, ?_, ?_, ?_, ?_⟩ <;> apply BitVec.eq_of_toNat_eq <;>
      simp only [BitVec.toNat_ofNat] <;> omega

@[simp] theorem word_bytes (e : Endian) (w : Word) : e.word (e.bytes w) = w := by
  cases e with
  | little => exact ofLowest_lowest w
  | big =>
    simp only [word, bytes, List.reverse_reverse]
    exact ofLowest_lowest w

theorem bytes_word (e : Endian) (b : List Byte) (eight : b.length = 8) :
    e.bytes (e.word b) = b := by
  cases e with
  | little => exact lowest_ofLowest b eight
  | big =>
    simp only [word, bytes]
    rw [lowest_ofLowest b.reverse (by simpa using eight), List.reverse_reverse]

end Endian

/-- `as_chunks::<8>`: the whole chunks of 8 bytes. -/
def chunks : List Byte → List (List Byte)
  | b0 :: b1 :: b2 :: b3 :: b4 :: b5 :: b6 :: b7 :: rest =>
    [b0, b1, b2, b3, b4, b5, b6, b7] :: chunks rest
  | _ => []

theorem chunks_append (head rest : List Byte) (eight : head.length = 8) :
    chunks (head ++ rest) = head :: chunks rest := by
  match head, eight with
  | [b0, b1, b2, b3, b4, b5, b6, b7], _ => rfl

/-- The words of a byte string of whole chunks. -/
def Endian.words (e : Endian) (b : List Byte) : List Word := (chunks b).map e.word

theorem Endian.words_append (e : Endian) (head rest : List Byte) (eight : head.length = 8) :
    e.words (head ++ rest) = e.word head :: e.words rest := by
  simp [words, chunks_append head rest eight]

/-- Whole chunks come back byte for byte from their words. -/
theorem Endian.bytes_words (e : Endian) (n : Nat) (b : List Byte) (whole : b.length = 8 * n) :
    (e.words b).flatMap e.bytes = b ∧ (e.words b).length = n := by
  induction n generalizing b with
  | zero =>
    have empty : b = [] := List.length_eq_zero_iff.mp (by omega)
    subst empty
    exact ⟨rfl, rfl⟩
  | succ n ih =>
    have eight : (b.take 8).length = 8 := by
      rw [List.length_take]
      omega
    obtain ⟨same, count⟩ := ih (b.drop 8) (by rw [List.length_drop]; omega)
    rw [← List.take_append_drop 8 b, e.words_append _ _ eight]
    constructor
    · rw [List.flatMap_cons, same, e.bytes_word _ eight]
    · rw [List.length_cons, count]

end Gusset.Foundation
