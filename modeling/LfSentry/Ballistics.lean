import Mathlib.Algebra.QuadraticDiscriminant
import Mathlib.Analysis.SpecialFunctions.Trigonometric.Arctan
/-!
# Ballistics — drag-free flight

A bullet flies through the points of a parabola.  The tangents of the pitches that take it through a point solve a quadratic
equation (`hits_arctan`), and the time of its flight is at least that of the straight line (`Hits.distance_le`).
-/
namespace LfSentry
namespace Ballistics

/-- Shot at the speed `v` and the pitch `θ`, pulled down by `g`, a bullet is after the time `t` at the distance `d` and the
height `h`. -/
structure Hits (g v θ t d h : ℝ) : Prop where
  later : 0 < t
  distance : v * Real.cos θ * t = d
  height : v * Real.sin θ * t - g * t ^ 2 / 2 = h

variable {g v θ t d h T : ℝ}

theorem Hits.distance_le (hits : Hits g v θ t d h) (hv : 0 ≤ v) : d ≤ v * t := by
  rw [← hits.distance]
  have hcos := mul_le_mul_of_nonneg_left (Real.cos_le_one θ) hv
  rw [mul_one] at hcos
  exact mul_le_mul_of_nonneg_right hcos hits.later.le

/-- A bullet that flies at an angle of less than a right one gets away from where it is shot. -/
theorem Hits.distance_pos (hits : Hits g v θ t d h) (hv : 0 < v) (hcos : 0 < Real.cos θ) : 0 < d := by
  rw [← hits.distance]
  exact mul_pos (mul_pos hv hcos) hits.later

/-- A pitch determines how long the bullet flies. -/
theorem Hits.time_eq (hits : Hits g v θ t d h) (hv : 0 < v) (hcos : 0 < Real.cos θ) : t = d / (v * Real.cos θ) := by
  have hspeed := mul_pos hv hcos
  rw [eq_div_iff hspeed.ne', mul_comm]
  exact hits.distance

/-- The square of the time of a flight, from the tangent of its pitch. -/
theorem sq_time (hv : v ≠ 0) : (d / (v * Real.cos (Real.arctan T))) ^ 2 = d ^ 2 * (1 + T ^ 2) / v ^ 2 := by
  rw [div_pow, mul_pow, Real.cos_sq_arctan]
  have hone : (0 : ℝ) < 1 + T ^ 2 := by positivity
  field_simp

/-- **A root of the quadratic equation is the tangent of a pitch that hits.** -/
theorem hits_arctan (hv : 0 < v) (hd : 0 < d)
    (hroot : g * d * d / (2 * v * v) * T ^ 2 - d * T + (g * d * d / (2 * v * v) + h) = 0) :
    Hits g v (Real.arctan T) (d / (v * Real.cos (Real.arctan T))) d h := by
  have hcos := Real.cos_arctan_pos T
  have hspeed := mul_pos hv hcos
  have htan : v * Real.sin (Real.arctan T) * (d / (v * Real.cos (Real.arctan T))) = d * T := by
    have hslope : Real.sin (Real.arctan T) = T * Real.cos (Real.arctan T) := by
      rw [← Real.tan_mul_cos hcos.ne', Real.tan_arctan]
    rw [hslope]
    field_simp
  refine ⟨div_pos hd hspeed, by field_simp, ?_⟩
  rw [htan, sq_time hv.ne']
  have hdrop : g * (d ^ 2 * (1 + T ^ 2) / v ^ 2) / 2 = g * d * d / (2 * v * v) * T ^ 2 + g * d * d / (2 * v * v) := by
    field_simp
    ring
  linarith

/-! ## The roots -/

variable {a b c : ℝ}

/-- **Both of the roots solve their equation.** -/
theorem quadratic_root (ha : a ≠ 0) {s : ℝ} (hs : s * s = b * b - 4 * a * c) :
    a * ((-b + s) / (2 * a)) ^ 2 + b * ((-b + s) / (2 * a)) + c = 0 := by
  field_simp
  nlinarith

/-- The lower of two flights over flat ground, where the ground is near: its tangent is that small. -/
theorem lower_root_le (ha : 0 < a) (hnear : 2 * a ≤ d) :
    0 ≤ (d - Real.sqrt (d * d - 4 * a * a)) / (2 * a) ∧ (d - Real.sqrt (d * d - 4 * a * a)) / (2 * a) ≤ 2 * a / d := by
  have hd : 0 < d := by linarith
  have hle : Real.sqrt (d * d - 4 * a * a) ≤ d := by
    rw [Real.sqrt_le_left hd.le]
    nlinarith
  have hge : d - 4 * a * a / d ≤ Real.sqrt (d * d - 4 * a * a) := by
    have hle : 2 * a * (2 * a) ≤ d * d := mul_self_le_mul_self (by linarith) hnear
    have hshort : 4 * a * a / d * (4 * a * a / d) ≤ 4 * a * a := by
      rw [div_mul_div_comm, div_le_iff₀ (mul_pos hd hd)]
      nlinarith [mul_pos ha ha]
    have hexpand : (d - 4 * a * a / d) ^ 2 = d * d - 2 * (4 * a * a) + 4 * a * a / d * (4 * a * a / d) := by
      field_simp
      ring
    refine Real.le_sqrt_of_sq_le ?_
    linarith
  constructor
  · exact div_nonneg (by linarith) (by linarith)
  · rw [div_le_iff₀ (by linarith)]
    have : 2 * a / d * (2 * a) = 4 * a * a / d := by ring
    linarith

/-- A flight at a small pitch takes little more than the straight line. -/
theorem time_le (hv : 0 < v) (hd : 0 ≤ d) (hT : 0 ≤ T) : d / (v * Real.cos (Real.arctan T)) ≤ (1 + T) * (d / v) := by
  have hroot : Real.sqrt (1 + T ^ 2) ≤ 1 + T := by
    rw [Real.sqrt_le_left (by linarith)]
    nlinarith
  have hslow : d / (v * Real.cos (Real.arctan T)) = Real.sqrt (1 + T ^ 2) * (d / v) := by
    rw [Real.cos_arctan]
    field_simp
  rw [hslow]
  exact mul_le_mul_of_nonneg_right hroot (div_nonneg hd hv.le)

/-! ## All pitches -/

/-- To a point ahead a bullet is shot ahead. -/
theorem Hits.cos_pos (hits : Hits g v θ t d h) (hv : 0 < v) (hd : 0 < d) : 0 < Real.cos θ := by
  have hmul : 0 < v * Real.cos θ := by
    rw [← hits.distance] at hd
    exact pos_of_mul_pos_left hd hits.later.le
  exact pos_of_mul_pos_right hmul hv.le

/-- How long a bullet flies, from the tangent of its pitch alone. -/
theorem Hits.time_eq_tan (hits : Hits g v θ t d h) (hv : 0 < v) (hd : 0 < d) :
    t = d / (v * Real.cos (Real.arctan (Real.tan θ))) := by
  have hcos := hits.cos_pos hv hd
  rw [Real.cos_arctan, one_div, Real.inv_sqrt_one_add_tan_sq hcos]
  exact hits.time_eq hv hcos

/-- **The tangent of a pitch that hits is a root of the quadratic equation.** -/
theorem Hits.tan_root (hits : Hits g v θ t d h) (hv : 0 < v) (hd : 0 < d) :
    g * d * d / (2 * v * v) * Real.tan θ ^ 2 - d * Real.tan θ + (g * d * d / (2 * v * v) + h) = 0 := by
  have hcos := hits.cos_pos hv hd
  have hrise : v * Real.sin θ * t = d * Real.tan θ := by
    rw [← hits.distance, ← Real.tan_mul_cos hcos.ne']
    ring
  have hdrop : g * t ^ 2 / 2 = g * d * d / (2 * v * v) * (1 + Real.tan θ ^ 2) := by
    rw [hits.time_eq_tan hv hd, sq_time hv.ne']
    field_simp
  have hheight := hits.height
  rw [hrise, hdrop] at hheight
  linarith

/-- **A point ahead is hit with one of two tangents, or not at all.** -/
theorem hits_roots (hv : 0 < v) (hd : 0 < d) (ha : g * d * d / (2 * v * v) ≠ 0) {s : ℝ}
    (hs : s * s = -d * -d - 4 * (g * d * d / (2 * v * v)) * (g * d * d / (2 * v * v) + h)) (hits : Hits g v θ t d h) :
    Real.tan θ = (d + s) / (2 * (g * d * d / (2 * v * v))) ∨ Real.tan θ = (d - s) / (2 * (g * d * d / (2 * v * v))) := by
  have hdiscrim : discrim (g * d * d / (2 * v * v)) (-d) (g * d * d / (2 * v * v) + h) = s * s := by
    rw [discrim, hs]
    ring
  have hroot := hits.tan_root hv hd
  have h := (quadratic_eq_zero_iff ha hdiscrim (Real.tan θ)).1 (by linarith)
  rwa [neg_neg] at h

/-- Where the discriminant is negative no pitch hits. -/
theorem discrim_nonneg (hv : 0 < v) (hd : 0 < d) (hits : Hits g v θ t d h) :
    0 ≤ -d * -d - 4 * (g * d * d / (2 * v * v)) * (g * d * d / (2 * v * v) + h) := by
  have hroot := hits.tan_root hv hd
  have hsq := discrim_eq_sq_of_quadratic_eq_zero (a := g * d * d / (2 * v * v)) (b := -d)
    (c := g * d * d / (2 * v * v) + h) (x := Real.tan θ) (by linarith)
  rw [discrim, sq] at hsq
  rw [hsq]
  exact sq_nonneg _

end Ballistics
end LfSentry
