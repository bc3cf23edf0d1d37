import Mathlib.Algebra.Order.Round
import Mathlib.Algebra.Order.Field.Power
import Mathlib.Data.Int.Log
import Mathlib.Tactic.Linarith
import Mathlib.Tactic.Positivity
import Mathlib.Tactic.Ring
/-!
# Rounding — numbers of a given precision, and rounding to them

A number of `p` binary digits is an integer of `p` bits times a power of two; the exponents have no bounds.  To round is to
go monotonically to such numbers and to leave them as they are.  Numbers of `p` digits that are within a factor of two have
a difference of `p` digits, so rounding changes nothing there (`Digits.sub`).
-/
namespace LfSentry
namespace Rounding

variable {K : Type} [Field K] [LinearOrder K]

/-- `x` has `p` binary digits. -/
def Digits (p : Nat) (x : K) : Prop := ∃ m e : ℤ, |m| ≤ 2 ^ p ∧ x = m * (2 : ℕ) ^ e

/-- A function that rounds to `p` binary digits. -/
structure Rounds (p : Nat) (round : K → K) : Prop where
  mono : Monotone round
  digits : ∀ x, Digits p (round x)
  fixes : ∀ {x}, Digits p x → round x = x

variable {p : Nat} {x y : K}

/-! ## Numbers of `p` digits -/

omit [LinearOrder K] in
theorem Digits.neg (hx : Digits p x) : Digits p (-x) := by
  obtain ⟨m, e, hm, rfl⟩ := hx
  refine ⟨-m, e, by rwa [abs_neg], ?_⟩
  push_cast
  ring

omit [LinearOrder K] in
theorem digits_zero (p : Nat) : Digits p (0 : K) := ⟨0, 0, by simp, by simp⟩

variable [IsStrictOrderedRing K]

/-- A multiple of a power of two that is not too large. -/
theorem digits_of_abs_le {m e : ℤ} (h : |(m : K) * 2 ^ e| ≤ 2 ^ p * 2 ^ e) : Digits p ((m : K) * 2 ^ e) := by
  refine ⟨m, e, ?_, rfl⟩
  have hpos : (0 : K) < 2 ^ e := by positivity
  rw [abs_mul, abs_of_pos hpos] at h
  exact_mod_cast le_of_mul_le_mul_right h hpos

/-- **A difference of two numbers within a factor of two is exact.** -/
theorem Digits.sub (hx : Digits p x) (hy : Digits p y) (hyx : y ≤ 2 * x) (hxy : x ≤ 2 * y) : Digits p (x - y) := by
  have hx0 : 0 ≤ x := by linarith
  have hy0 : 0 ≤ y := by linarith
  obtain ⟨m, e, hm, hxe⟩ := hx
  obtain ⟨n, f, hn, hyf⟩ := hy
  rw [Nat.cast_ofNat] at hxe hyf
  have hbound : ∀ {k g : ℤ} {z : K}, |k| ≤ 2 ^ p → z = k * 2 ^ g → z ≤ 2 ^ p * 2 ^ g := by
    intro k g z hk hz
    have hk' : (k : K) ≤ 2 ^ p := by exact_mod_cast (le_abs_self k).trans hk
    rw [hz]
    exact mul_le_mul_of_nonneg_right hk' (by positivity)
  -- both are multiples of the smaller power of two, and the difference is no more than either
  rcases le_total e f with hef | hfe
  · obtain ⟨d, rfl⟩ := Int.le.dest hef
    have hsub : x - y = ((m - n * 2 ^ d : ℤ) : K) * 2 ^ e := by
      rw [hxe, hyf, zpow_add₀ two_ne_zero, zpow_natCast]
      push_cast
      ring
    rw [hsub]
    apply digits_of_abs_le
    rw [← hsub, abs_le]
    have hxb := hbound hm hxe
    constructor <;> linarith
  · obtain ⟨d, rfl⟩ := Int.le.dest hfe
    have hsub : x - y = ((m * 2 ^ d - n : ℤ) : K) * 2 ^ f := by
      rw [hxe, hyf, zpow_add₀ two_ne_zero, zpow_natCast]
      push_cast
      ring
    rw [hsub]
    apply digits_of_abs_le
    rw [← hsub, abs_le]
    have hyb := hbound hn hyf
    constructor <;> linarith

section Rounds

variable {round : K → K} (h : Rounds p round)

include h

omit [IsStrictOrderedRing K] in
theorem Rounds.zero : round 0 = 0 := h.fixes (digits_zero p)

omit [IsStrictOrderedRing K] in
theorem Rounds.le_of_le (hy : Digits p y) (hxy : x ≤ y) : round x ≤ y := (h.mono hxy).trans_eq (h.fixes hy)

omit [IsStrictOrderedRing K] in
theorem Rounds.ge_of_ge (hy : Digits p y) (hyx : y ≤ x) : y ≤ round x := (h.fixes hy).symm.trans_le (h.mono hyx)

/-- **A rounded difference is below a bound when the exact one is**, where numbers so near are within a factor of two. -/
theorem Rounds.abs_sub_lt_iff {b : K} (hx : Digits p x) (hy : Digits p y) (hb : Digits p b) (hyb : y = 0 ∨ 2 * b ≤ y) :
    |round (x - y)| < b ↔ |x - y| < b := by
  constructor
  · intro hlt
    by_contra hge
    rcases le_abs.1 (not_lt.1 hge) with hpos | hneg
    · exact absurd ((h.ge_of_ge hb hpos).trans (le_abs_self _)) (not_le.2 hlt)
    · have hle := h.le_of_le hb.neg (by linarith : x - y ≤ -b)
      have habs := neg_le_abs (round (x - y))
      linarith
  · intro hlt
    have hexact : Digits p (x - y) := by
      rcases hyb with rfl | hyb
      · rwa [sub_zero]
      · obtain ⟨hlo, hhi⟩ := abs_lt.1 hlt
        exact hx.sub hy (by linarith) (by linarith)
    rwa [h.fixes hexact]

end Rounds

/-! ## To the nearest, and of two to the even one -/

section Nearest

variable [FloorRing K]

/-- The nearest integer, of two the even one. -/
def halfEven (x : K) : ℤ := ⌊x⌋ + if Int.fract x < 0.5 then 0 else if 0.5 < Int.fract x then 1 else ⌊x⌋ % 2

/-- The exponent of the last of `p` digits. -/
def exponent (p : Nat) (x : K) : ℤ := Int.log 2 |x| - p + 1

def nearest (p : Nat) (x : K) : K := halfEven (x / (2 : ℕ) ^ exponent p x) * (2 : ℕ) ^ exponent p x

omit [IsStrictOrderedRing K] in
theorem halfEven_mem (x : K) : ⌊x⌋ ≤ halfEven x ∧ halfEven x ≤ ⌊x⌋ + 1 := by
  unfold halfEven
  split_ifs <;> omega

theorem halfEven_mono (hxy : x ≤ y) : halfEven x ≤ halfEven y := by
  rcases (Int.floor_mono hxy).lt_or_eq with hlt | heq
  · have hx := (halfEven_mem x).2
    have hy := (halfEven_mem y).1
    omega
  · have hfract : Int.fract x ≤ Int.fract y := by
      unfold Int.fract
      rw [heq]
      linarith
    unfold halfEven
    rw [heq]
    split_ifs <;> first | omega | (exfalso; linarith)

@[simp] theorem halfEven_intCast (n : ℤ) : halfEven (n : K) = n := by norm_num [halfEven]

/-- A multiple of the last digit bounds what is rounded when it bounds the number. -/
theorem le_nearest {k : ℤ} (h : k * 2 ^ exponent p x ≤ x) : k * 2 ^ exponent p x ≤ nearest p x := by
  have hpos : (0 : K) < 2 ^ exponent p x := by positivity
  have hk := halfEven_mono ((le_div_iff₀ hpos).2 h)
  rw [halfEven_intCast] at hk
  exact mul_le_mul_of_nonneg_right (Int.cast_le.2 hk) hpos.le

theorem nearest_le {k : ℤ} (h : x ≤ k * 2 ^ exponent p x) : nearest p x ≤ k * 2 ^ exponent p x := by
  have hpos : (0 : K) < 2 ^ exponent p x := by positivity
  have hk := halfEven_mono ((div_le_iff₀ hpos).2 h)
  rw [halfEven_intCast] at hk
  exact mul_le_mul_of_nonneg_right (Int.cast_le.2 hk) hpos.le

theorem abs_lt_binade (p : Nat) (x : K) : |x| < 2 ^ p * 2 ^ exponent p x := by
  have hlog := Int.lt_zpow_succ_log_self Nat.one_lt_two |x|
  rw [Nat.cast_ofNat] at hlog
  rw [← zpow_natCast, ← zpow_add₀ two_ne_zero]
  convert hlog using 2
  unfold exponent
  ring

theorem binade_le_abs (p : Nat) (hx : x ≠ 0) : 2 ^ p * 2 ^ exponent (p + 1) x ≤ |x| := by
  have hlog := Int.zpow_log_le_self (R := K) Nat.one_lt_two (abs_pos.2 hx)
  rw [Nat.cast_ofNat] at hlog
  rw [← zpow_natCast, ← zpow_add₀ two_ne_zero]
  convert hlog using 2
  unfold exponent
  push_cast
  ring

theorem exponent_mono (hx : x ≠ 0) (hxy : |x| ≤ |y|) : exponent p x ≤ exponent p y := by
  have hlog := Int.log_mono_right (b := 2) (abs_pos.2 hx) hxy
  unfold exponent
  omega

theorem abs_nearest_le (p : Nat) (x : K) : |nearest p x| ≤ 2 ^ p * 2 ^ exponent p x := by
  obtain ⟨hlo, hhi⟩ := abs_lt.1 (abs_lt_binade p x)
  have hle := nearest_le (p := p) (x := x) (k := 2 ^ p) (by push_cast; exact hhi.le)
  have hge := le_nearest (p := p) (x := x) (k := -2 ^ p) (by push_cast; linarith)
  push_cast at hle hge
  rw [abs_le]
  constructor <;> linarith

/-- What lies in a higher binade is rounded to more. -/
theorem abs_nearest_le_of_lt {z : K} (h : exponent (p + 1) z < exponent (p + 1) x) :
    |nearest (p + 1) z| ≤ 2 ^ p * 2 ^ exponent (p + 1) x := by
  obtain ⟨d, hd⟩ := Int.le.dest (Int.add_one_le_iff.2 h)
  refine (abs_nearest_le (p + 1) z).trans ?_
  rw [← hd, zpow_add₀ two_ne_zero, zpow_add₀ two_ne_zero, zpow_one, zpow_natCast, pow_succ]
  have hone : (1 : K) ≤ 2 ^ d := one_le_pow₀ one_le_two
  have hpos : (0 : K) < 2 ^ p * 2 * 2 ^ exponent (p + 1) z := by positivity
  calc 2 ^ p * 2 * 2 ^ exponent (p + 1) z = 2 ^ p * 2 * 2 ^ exponent (p + 1) z * 1 := (mul_one _).symm
    _ ≤ 2 ^ p * 2 * 2 ^ exponent (p + 1) z * 2 ^ d := mul_le_mul_of_nonneg_left hone hpos.le
    _ = 2 ^ p * (2 ^ exponent (p + 1) z * 2 * 2 ^ d) := by ring

theorem nearest_mono (p : Nat) : Monotone (nearest (p + 1) : K → K) := by
  intro x y hxy
  by_cases he : exponent (p + 1) x = exponent (p + 1) y
  · unfold nearest
    rw [he]
    have hpos : (0 : K) < 2 ^ exponent (p + 1) y := by positivity
    exact mul_le_mul_of_nonneg_right (Int.cast_le.2 (halfEven_mono (div_le_div_of_nonneg_right hxy hpos.le))) hpos.le
  rcases le_or_gt x 0 with hx | hx
  · have hx0 : nearest (p + 1) x ≤ 0 := by simpa using nearest_le (p := p + 1) (x := x) (k := 0) (by simpa using hx)
    rcases le_or_gt 0 y with hy | hy
    · have hy0 : 0 ≤ nearest (p + 1) y := by simpa using le_nearest (p := p + 1) (x := y) (k := 0) (by simpa using hy)
      exact hx0.trans hy0
    · -- below zero the smaller number is the one in the higher binade
      have hxne : x ≠ 0 := (hxy.trans_lt hy).ne
      have hlt : exponent (p + 1) y < exponent (p + 1) x := by
        refine lt_of_le_of_ne (exponent_mono hy.ne ?_) (Ne.symm he)
        rw [abs_of_neg hy, abs_of_nonpos hx]
        linarith
      have hyb := (abs_le.1 (abs_nearest_le_of_lt hlt)).1
      have hxb := binade_le_abs p hxne
      rw [abs_of_nonpos hx] at hxb
      have hxr := nearest_le (p := p + 1) (x := x) (k := -2 ^ p) (by push_cast; linarith)
      push_cast at hxr
      linarith
  · have hy : 0 < y := hx.trans_le hxy
    have hlt : exponent (p + 1) x < exponent (p + 1) y := by
      refine lt_of_le_of_ne (exponent_mono hx.ne' ?_) he
      rwa [abs_of_pos hx, abs_of_pos hy]
    have hxb := (abs_le.1 (abs_nearest_le_of_lt hlt)).2
    have hyb := binade_le_abs p hy.ne'
    rw [abs_of_pos hy] at hyb
    have hyr := le_nearest (p := p + 1) (x := y) (k := 2 ^ p) (by push_cast; exact hyb)
    push_cast at hyr
    linarith

theorem nearest_of_digits {p : Nat} (hx : Digits (p + 1) x) : nearest (p + 1) x = x := by
  obtain ⟨m, f, hm, hxf⟩ := hx
  rw [Nat.cast_ofNat] at hxf
  suffices hint : ∃ k : ℤ, x = k * 2 ^ exponent (p + 1) x by
    obtain ⟨k, hk⟩ := hint
    exact le_antisymm ((nearest_le hk.le).trans_eq hk.symm) (hk.trans_le (le_nearest hk.ge))
  rcases eq_or_ne x 0 with h0 | hne
  · exact ⟨0, by simpa using h0⟩
  rcases le_or_gt (exponent (p + 1) x) f with hle | hlt
  · obtain ⟨d, hd⟩ := Int.le.dest hle
    refine ⟨m * 2 ^ d, ?_⟩
    push_cast
    rw [mul_assoc, ← zpow_natCast, ← zpow_add₀ two_ne_zero, add_comm, hd]
    exact hxf
  · -- then `x` has all the bits that `m` may have, and one less of the last digits
    have hbig := binade_le_abs p hne
    have hmK : |(m : K)| ≤ 2 ^ (p + 1) := by exact_mod_cast hm
    have hpos : (0 : K) < 2 ^ f := by positivity
    obtain ⟨d, hd⟩ := Int.le.dest (Int.add_one_le_iff.2 hlt)
    have habs : |x| = |(m : K)| * 2 ^ f := by rw [hxf, abs_mul, abs_of_pos hpos]
    rw [habs, ← hd, zpow_add₀ two_ne_zero, zpow_add₀ two_ne_zero, zpow_one, zpow_natCast] at hbig
    have hbig' : (2 : K) ^ (p + 1) * 2 ^ d ≤ |(m : K)| := by
      refine le_of_mul_le_mul_right ?_ hpos
      calc (2 : K) ^ (p + 1) * 2 ^ d * 2 ^ f = 2 ^ p * (2 ^ f * 2 * 2 ^ d) := by ring
        _ ≤ |(m : K)| * 2 ^ f := hbig
    have hmabs : |m| = 2 ^ (p + 1) := by
      have hone : (1 : K) ≤ 2 ^ d := one_le_pow₀ one_le_two
      have hge : (2 : K) ^ (p + 1) ≤ |(m : K)| :=
        le_trans (le_mul_of_one_le_right (by positivity) hone) hbig'
      exact_mod_cast le_antisymm hmK hge
    have hd0 : d = 0 := by
      by_contra hd0
      have htwo : (2 : K) ≤ 2 ^ d := by simpa using pow_le_pow_right₀ (one_le_two : (1 : K) ≤ 2) (Nat.one_le_iff_ne_zero.2 hd0)
      have hpow : (0 : K) < 2 ^ (p + 1) := by positivity
      nlinarith
    obtain ⟨k, rfl⟩ : (2 : ℤ) ∣ m := by
      rw [← dvd_abs, hmabs]
      exact dvd_pow_self 2 (Nat.succ_ne_zero p)
    refine ⟨k, ?_⟩
    rw [← hd, hd0, zpow_add₀ two_ne_zero, zpow_add₀ two_ne_zero]
    refine hxf.trans ?_
    push_cast
    ring

/-- **To the nearest is a rounding.** -/
theorem rounds_nearest (p : Nat) : Rounds (p + 1) (nearest (p + 1) : K → K) where
  mono := nearest_mono p
  digits x := digits_of_abs_le (abs_nearest_le (p + 1) x)
  fixes := nearest_of_digits

end Nearest

end Rounding
end LfSentry
