import Mathlib.Algebra.BigOperators.Group.List.Basic
import Mathlib.Order.Interval.Set.Defs
import Mathlib.Order.Lattice
/-!
# Saturation — a running sum held between two bounds

Each addend comes on top of what was held, and what is held is the sum cut to `[lo, hi]`.  A sum read before the cut is
within the bounds at every step exactly where no sum of the first addends leaves them (`sums_mem_iff`): until the first
one that does, nothing is cut.
-/
namespace LfSentry
namespace Saturation

variable {K : Type} [LinearOrder K] {lo hi : K}

def saturate (lo hi x : K) : K := if x > hi then hi else if x < lo then lo else x

theorem saturate_mem (h : lo ≤ hi) (x : K) : saturate lo hi x ∈ Set.Icc lo hi := by
  unfold saturate
  split
  · exact ⟨h, le_rfl⟩
  · rename_i hhi
    split
    · exact ⟨le_rfl, h⟩
    · rename_i hlo
      exact ⟨not_lt.1 hlo, not_lt.1 hhi⟩

theorem saturate_of_mem {x : K} (h : x ∈ Set.Icc lo hi) : saturate lo hi x = x := by
  rw [saturate, if_neg h.2.not_gt, if_neg h.1.not_gt]

variable [AddMonoid K]

/-- The sums before the cut, one for each addend. -/
def sums (lo hi : K) : K → List K → List K
  | _, [] => []
  | held, x :: l => (held + x) :: sums lo hi (saturate lo hi (held + x)) l

/-- **The sums stay within the bounds iff the sums of the first addends do.** -/
theorem sums_mem_iff : ∀ {l : List K} {held : K},
    (∀ y ∈ sums lo hi held l, y ∈ Set.Icc lo hi) ↔ ∀ n < l.length, held + (l.take (n + 1)).sum ∈ Set.Icc lo hi
  | [], _ => by simp [sums]
  | x :: l, held => by
    rw [sums, List.forall_mem_cons]
    constructor
    · rintro ⟨hx, hl⟩ n hn
      rw [saturate_of_mem hx] at hl
      rw [List.take_succ_cons, List.sum_cons, ← add_assoc]
      cases n with
      | zero => simpa using hx
      | succ n => exact sums_mem_iff.1 hl n (Nat.lt_of_succ_lt_succ hn)
    · intro h
      have hx : held + x ∈ Set.Icc lo hi := by simpa using h 0 (by simp)
      refine ⟨hx, ?_⟩
      rw [saturate_of_mem hx, sums_mem_iff]
      intro n hn
      simpa [add_assoc] using h (n + 1) (Nat.succ_lt_succ hn)

end Saturation
end LfSentry
