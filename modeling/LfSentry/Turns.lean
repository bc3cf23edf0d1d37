import Mathlib.Algebra.Group.ModEq
import Mathlib.Algebra.Order.Floor.Ring
import Mathlib.Algebra.Order.Round
import Mathlib.Algebra.Order.ToIntervalMod
import Mathlib.Tactic.Linarith
import Mathlib.Tactic.Ring
/-!
# Turns — numbers that are equal up to whole periods

A period taken off or put on any number of times leaves a number congruent to itself, as the remainder of the C library
does; between half a period below zero and half a period above there is one representative.
-/
namespace LfSentry
namespace Turns

open AddCommGroup

variable {K : Type} [Field K] [LinearOrder K] [FloorRing K]

/-- `fmod` of the C library: the quotient is cut towards zero. -/
def fmod (x y : K) : K := x - y * (if 0 ≤ x / y then ⌊x / y⌋ else ⌈x / y⌉)

omit [LinearOrder K] [FloorRing K] in
theorem sub_turns_modEq (p a : K) (n : ℤ) : a - p * n ≡ a [PMOD p] :=
  modEq_iff_zsmul'.2 ⟨n, by rw [sub_sub_cancel, zsmul_eq_mul, mul_comm]⟩

omit [LinearOrder K] [FloorRing K] in
theorem add_turns_modEq (p a : K) (n : ℤ) : a + p * n ≡ a [PMOD p] := by
  have h := sub_turns_modEq p (a + p * n) n
  rw [add_sub_cancel_right] at h
  exact h.symm

omit [LinearOrder K] [FloorRing K] in
theorem modEq_of_sub_eq {a b c d p : K} (h : b - a = d - c) : a ≡ b [PMOD p] ↔ c ≡ d [PMOD p] := by
  rw [modEq_iff_zsmul', modEq_iff_zsmul', h]

theorem fmod_modEq (x y : K) : fmod x y ≡ x [PMOD y] := sub_turns_modEq y x _

section Ordered

variable [IsStrictOrderedRing K]

/-- **Between `-h` and `h` there is one representative.** -/
theorem sub_ceil_eq_toIocMod {h : K} (hh : 0 < 2 * h) (a : K) :
    a - 2 * h * ⌈(a - h) / (2 * h)⌉ = toIocMod hh (-h) a := by
  rw [eq_comm, toIocMod_eq_iff]
  refine ⟨⟨?_, ?_⟩, ⌈(a - h) / (2 * h)⌉, by rw [zsmul_eq_mul]; ring⟩
  · have hlt := Int.ceil_lt_add_one ((a - h) / (2 * h))
    rw [← sub_lt_iff_lt_add, lt_div_iff₀ hh] at hlt
    linarith
  · have hle := Int.le_ceil ((a - h) / (2 * h))
    rw [div_le_iff₀ hh] at hle
    linarith

/-- **It is the least of them.** -/
theorem abs_le_abs_add_turns {h x : K} (hx : |x| ≤ h) (n : ℤ) : |x| ≤ |x + 2 * h * n| := by
  have hh : 0 ≤ 2 * h := by linarith [abs_nonneg x]
  rcases eq_or_ne n 0 with rfl | hn
  · rw [Int.cast_zero, mul_zero, add_zero]
  · have hone : (1 : K) ≤ |(n : K)| := by exact_mod_cast Int.one_le_abs hn
    have hturn : 2 * h ≤ |2 * h * n| := by
      rw [abs_mul, abs_of_nonneg hh]
      exact le_mul_of_one_le_right hh hone
    have htri : |2 * h * n| - |x| ≤ |x + 2 * h * n| := by
      rw [add_comm, ← sub_neg_eq_add, ← abs_neg x]
      exact abs_sub_abs_le_abs_sub _ _
    linarith

/-- There are others beyond every bound. -/
theorem exists_le_abs_add_turns {p : K} (hp : 0 < p) (x b : K) : ∃ n : ℤ, b ≤ |x + p * n| := by
  refine ⟨⌈(b - x) / p⌉, le_trans ?_ (le_abs_self _)⟩
  have hle := Int.le_ceil ((b - x) / p)
  rw [div_le_iff₀ hp] at hle
  linarith

/-- The nearest multiple of a period is not further than half of it. -/
theorem abs_sub_round_mul_le {q : K} (hq : 0 < q) (d : K) : |d - round (d / q) * q| ≤ q / 2 := by
  have hround := abs_sub_round (d / q)
  have hscale : d - round (d / q) * q = (d / q - round (d / q)) * q := by rw [sub_mul, div_mul_cancel₀ d hq.ne']
  rw [hscale, abs_mul, abs_of_pos hq]
  calc |d / q - round (d / q)| * q ≤ 1 / 2 * q := mul_le_mul_of_nonneg_right hround hq.le
    _ = q / 2 := by ring

/-- Between odd multiples of half a period it is nearer. -/
theorem abs_sub_round_mul_lt {d q : K} (hq : 0 < q) (hodd : ∀ m : ℤ, d ≠ (2 * m + 1) * (q / 2)) :
    |d - round (d / q) * q| < q / 2 := by
  refine lt_of_le_of_ne (abs_sub_round_mul_le hq d) fun heq => ?_
  rcases eq_or_eq_neg_of_abs_eq heq with h | h
  · apply hodd (round (d / q))
    linarith
  · apply hodd (round (d / q) - 1)
    push_cast
    linarith

/-- Only one representative is nearer than half a period to zero. -/
theorem eq_of_modEq_of_abs_lt {a b q : K} (ha : |a| < q / 2) (hb : |b| < q / 2) (h : a ≡ b [PMOD q]) : a = b := by
  obtain ⟨m, hm⟩ := modEq_iff_zsmul'.1 h
  rw [zsmul_eq_mul] at hm
  have hq : 0 < q := by linarith [abs_nonneg a]
  have hlt : |(m : K)| * q < 1 * q := by
    rw [← abs_of_pos hq, ← abs_mul, ← hm, abs_of_pos hq, one_mul]
    linarith [abs_sub b a]
  have hm0 : m = 0 := by
    have hone : |m| < 1 := by exact_mod_cast lt_of_mul_lt_mul_right hlt hq.le
    exact Int.abs_lt_one_iff.1 hone
  rw [hm0, Int.cast_zero, zero_mul] at hm
  exact (sub_eq_zero.1 hm).symm

end Ordered

end Turns
end LfSentry
