import Gusset.Foundation.Words

/-! Positions that only grow, kept as words and as slots of a ring: which position a slot stands
for, and what a difference of two words says about the positions. -/
namespace Gusset.Foundation

/-- Every residue has a position in a window of `n` positions. -/
theorem exists_window (low n x : Nat) (some_slot : 0 < n) :
    ∃ i, low ≤ i ∧ i < low + n ∧ i % n = x % n := by
  have small := Nat.mod_lt x some_slot
  refine ⟨x % n + n * ((low + n - 1 - x % n) / n), ?_, ?_, ?_⟩
  · have split := Nat.div_add_mod (low + n - 1 - x % n) n
    have rest := Nat.mod_lt (low + n - 1 - x % n) some_slot
    omega
  · have split := Nat.div_add_mod (low + n - 1 - x % n) n
    omega
  · rw [Nat.add_mul_mod_self_left, Nat.mod_mod]

/-- Two positions of one slot are a whole number of turns apart. -/
theorem same_slot {n i j : Nat} (same : i % n = j % n) (before : i ≤ j) : ∃ k, j = i + n * k := by
  have hi := Nat.div_add_mod i n
  have hj := Nat.div_add_mod j n
  have quotients := Nat.div_le_div_right (c := n) before
  refine ⟨j / n - i / n, ?_⟩
  rw [Nat.mul_sub]
  have turns := Nat.mul_le_mul_left n quotients
  omega

/-- A window of `n` positions has one position for each slot. -/
theorem window_unique {low n i j : Nat} (hi : low ≤ i) (hi' : i < low + n) (hj : low ≤ j)
    (hj' : j < low + n) (same : i % n = j % n) : i = j := by
  rcases Nat.le_total i j with before | before
  · obtain ⟨k, rfl⟩ := same_slot same before
    cases k with
    | zero => rfl
    | succ k =>
      rw [Nat.mul_succ] at hj'
      omega
  · obtain ⟨k, rfl⟩ := same_slot same.symm before
    cases k with
    | zero => rfl
    | succ k =>
      rw [Nat.mul_succ] at hi'
      omega

theorem ofNat_inj {a b : Nat} (same : BitVec.ofNat 64 a = BitVec.ofNat 64 b) (le : a ≤ b)
    (near : b < a + 2 ^ 64) : a = b := by
  have values := congrArg BitVec.toNat same
  simp only [BitVec.toNat_ofNat] at values
  omega

theorem ofNat_succ (a : Nat) : BitVec.ofNat 64 a + 1 = BitVec.ofNat 64 (a + 1) := by
  rw [BitVec.ofNat_add]
  rfl

/-- The signed difference of two positions, as far as they are not too far apart. -/
theorem toInt_ahead {a b : Nat} (le : b ≤ a) (near : a < b + 2 ^ 63) :
    (BitVec.ofNat 64 a - BitVec.ofNat 64 b).toInt = ((a - b : Nat) : Int) := by
  rw [BitVec.toInt_sub, BitVec.toInt_ofNat', BitVec.toInt_ofNat']
  simp only [Int.bmod]
  omega

theorem toInt_eq_zero {x y : Word} (zero : (x - y).toInt = 0) : x = y := by
  have none : x - y = 0 := BitVec.eq_of_toInt_eq (by simpa using zero)
  rw [← BitVec.sub_add_cancel x y, none]
  exact BitVec.zero_add y

end Gusset.Foundation
