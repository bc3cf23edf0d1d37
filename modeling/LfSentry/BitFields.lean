import Mathlib.Data.Nat.Bitwise
/-!
# BitFields — values cut to a width and laid side by side in one word

`field x n lo` is the low `n` bits of `x` at bit `lo`.  Read back at its own place it gives `x` cut to `n` bits
(`extractLsb'_field`); read at a place it does not touch, nothing (`extractLsb'_field_apart`).  A word that is the
disjunction of fields that do not touch is read field by field with these two and `BitVec.extractLsb'_or`.
-/
namespace LfSentry
namespace BitFields

variable {w : Nat}

/-- The low `n` bits of `x`, moved up to bit `lo`. -/
def field (x : BitVec w) (n lo : Nat) : BitVec w := (x &&& BitVec.ofNat w (2 ^ n - 1)) <<< lo

theorem getLsbD_field (x : BitVec w) (n lo i : Nat) :
    (field x n lo).getLsbD i = (decide (lo ≤ i) && decide (i < w) && decide (i < lo + n) && x.getLsbD (i - lo)) := by
  unfold field
  rw [BitVec.getLsbD_shiftLeft, BitVec.getLsbD_and, BitVec.getLsbD_ofNat, Nat.testBit_two_pow_sub_one]
  by_cases hlo : lo ≤ i
  · by_cases hw : i < w
    · have hsub : i - lo < w := by omega
      have hn : i - lo < n ↔ i < lo + n := by omega
      simp [hlo, hw, hsub, hn, Bool.and_comm]
    · simp [hw]
  · simp [hlo, Nat.lt_of_not_le hlo]

/-- **A field is read back at its place.** -/
theorem extractLsb'_field (x : BitVec w) {n lo : Nat} (h : lo + n ≤ w) :
    (field x n lo).extractLsb' lo n = x.setWidth n := by
  apply BitVec.eq_of_getLsbD_eq
  intro i hi
  rw [BitVec.getLsbD_extractLsb', getLsbD_field, BitVec.getLsbD_setWidth, Nat.add_sub_cancel_left]
  have hw : lo + i < w := by omega
  simp [hi, hw]

/-- **A field leaves the bits beside it clear.** -/
theorem extractLsb'_field_apart (x : BitVec w) {n lo m hi : Nat} (h : lo + n ≤ hi ∨ hi + m ≤ lo) :
    (field x n lo).extractLsb' hi m = 0#m := by
  apply BitVec.eq_of_getLsbD_eq
  intro i him
  rw [BitVec.getLsbD_extractLsb', getLsbD_field, BitVec.getLsbD_zero]
  rcases h with h | h
  · have hout : ¬ hi + i < lo + n := by omega
    simp [hout]
  · have hout : ¬ lo ≤ hi + i := by omega
    simp [hout]

end BitFields
end LfSentry
