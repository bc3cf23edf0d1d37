import Mathlib.Analysis.Real.Pi.Bounds
import LfSentry.BuffTarget
import LfSentry.RestingTarget
/-!
# PredictComposes — a prediction after another

Over exact numbers two predictions of a tracked target are one (`predictBy_predictBy`), through the wrapped yaw and the known
speed of an outpost, and so are two of a small rune.  The sine of a big rune is anchored at the time of the last update,
which a prediction does not move: `predict_composes_iff` says which predictions compose all the same.
-/
namespace LfSentry
namespace Vision

section Exact

variable {K : Type} [Field K] [LinearOrder K] [FloorRing K] {lib : Libm K}

/-! ## A tracked target -/

omit [FloorRing K] in
theorem convergened_of_isConverged {target : Target K} (h : target.isConverged = true) : target.convergened = target := by
  have hsame : { target with isConverged := true } = target := by rw [← h]
  unfold Target.convergened
  simp only [hsame, ite_self]

omit [FloorRing K] in
/-- What is asked for convergence does not change in a prediction. -/
theorem convergened_convergened {target : Target K} {x : Fin 11 → K} (h8 : x 8 = target.x 8) (h9 : x 9 = target.x 9) :
    ({ target.convergened with x := x } : Target K).convergened = { target.convergened with x := x } := by
  have hraw : ({ target with x := x } : Target K).divergedRaw = target.divergedRaw := by
    unfold Target.divergedRaw
    simp only [h8, h9]
  by_cases h : target.convergened.isConverged = true
  · exact convergened_of_isConverged h
  · unfold Target.convergened at h ⊢
    by_cases h1 : target.name ≠ .outpost ∧ target.updateCount > 3 ∧ target.divergedRaw = false
    · simp [h1] at h
    · by_cases h2 : target.name = .outpost ∧ target.updateCount > 10 ∧ target.divergedRaw = false
      · simp [h2] at h
      · simp only [if_neg h1, if_neg h2, hraw]

/-- The speed that a prediction turns a target by is the speed that it leaves. -/
theorem predictBy_x (target : Target K) (dt : K) : (target.predictBy lib dt).x =
    ![target.x 0 + dt * target.x 1, target.x 1, target.x 2 + dt * target.x 3, target.x 3, target.x 4 + dt * target.x 5,
      target.x 5, limitRad lib (target.x 6 + dt * (target.predictBy lib 0).x 7), (target.predictBy lib 0).x 7, target.x 8,
      target.x 9, target.x 10] := by
  obtain ⟨hx, -⟩ := convergened_x target
  unfold Target.predictBy
  simp only [hx]
  rfl

theorem predictBy_eq (target : Target K) (dt : K) :
    target.predictBy lib dt = { target.convergened with x := (target.predictBy lib dt).x } := rfl

theorem predictBy_convergened (target : Target K) (dt : K) :
    (target.predictBy lib dt).convergened = target.predictBy lib dt := by
  obtain ⟨hx, -⟩ := convergened_x target
  refine convergened_convergened ?_ ?_ <;> rw [hx] <;> rfl

theorem predictBy_x7 (target : Target K) (dt : K) : (target.predictBy lib dt).x 7 =
    if target.convergened.isConverged = true ∧ target.convergened.name = .outpost ∧ |target.convergened.x 7| > 2 then
      if target.convergened.x 7 > 0 then 251 / 100 else -251 / 100
    else target.convergened.x 7 := rfl

variable [IsStrictOrderedRing K]

/-- A predicted target is predicted on at the speed that it has. -/
theorem predictBy_rate (target : Target K) (d1 d2 : K) :
    ((target.predictBy lib d1).predictBy lib d2).x 7 = (target.predictBy lib d1).x 7 := by
  have hknown : (2 : K) < 251 / 100 := by norm_num
  have hkeeps : (target.predictBy lib d1).isConverged = target.convergened.isConverged ∧
      (target.predictBy lib d1).name = target.convergened.name := ⟨rfl, rfl⟩
  rw [predictBy_x7, predictBy_convergened, hkeeps.1, hkeeps.2, predictBy_x7 target d1]
  by_cases hover : target.convergened.isConverged = true ∧ target.convergened.name = .outpost ∧ |target.convergened.x 7| > 2
  · -- the known speed is above the bound, and keeps its sign
    have habs : |(251 / 100 : K)| = 251 / 100 := abs_of_pos (by norm_num)
    rw [if_pos hover]
    by_cases hpos : target.convergened.x 7 > 0
    · rw [if_pos hpos, habs, if_pos ⟨hover.1, hover.2.1, hknown⟩, if_pos (by norm_num)]
    · rw [if_neg hpos, neg_div, abs_neg, habs, if_pos ⟨hover.1, hover.2.1, hknown⟩, if_neg (by norm_num)]
  · rw [if_neg hover, if_neg hover]

/-- The components of a state moved twice, at a yaw speed `w`. -/
theorem moved_moved (hpi : 0 < lib.pi) (x : Fin 11 → K) (w d1 d2 : K) :
    let v : Fin 11 → K := ![x 0 + d1 * x 1, x 1, x 2 + d1 * x 3, x 3, x 4 + d1 * x 5, x 5, limitRad lib (x 6 + d1 * w), w,
      x 8, x 9, x 10]
    ![v 0 + d2 * v 1, v 1, v 2 + d2 * v 3, v 3, v 4 + d2 * v 5, v 5, limitRad lib (v 6 + d2 * v 7), v 7, v 8, v 9, v 10] =
      ![x 0 + (d1 + d2) * x 1, x 1, x 2 + (d1 + d2) * x 3, x 3, x 4 + (d1 + d2) * x 5, x 5,
        limitRad lib (x 6 + (d1 + d2) * w), w, x 8, x 9, x 10] := by
  have hyaw := limitRad_limitRad_add hpi (x 6 + d1 * w) (d2 * w)
  rw [add_assoc] at hyaw
  simp only [Matrix.cons_val, add_mul, add_assoc, hyaw]

/-- **Two predictions of a tracked target are one.** -/
theorem predictBy_predictBy (hpi : 0 < lib.pi) (target : Target K) (d1 d2 : K) :
    (target.predictBy lib d1).predictBy lib d2 = target.predictBy lib (d1 + d2) := by
  have hx : ((target.predictBy lib d1).predictBy lib d2).x = (target.predictBy lib (d1 + d2)).x := by
    rw [predictBy_x _ d2, predictBy_rate, predictBy_x target d1, predictBy_x target (d1 + d2)]
    exact moved_moved hpi _ _ d1 d2
  rw [predictBy_eq _ d2, predictBy_eq _ (d1 + d2), predictBy_convergened, hx, predictBy_eq _ d1]

/-! ## A small rune -/

omit [IsStrictOrderedRing K] in
theorem small_predict_x (num : Numerics K) (small : SmallTarget K) (dt : K) : (small.predict num dt).ekf.x =
    let x := small.ekf.x
    ![limitRad num.toLibm (x 0 + dt * x 1), x 1, limitRad num.toLibm (x 2), x 3, limitRad num.toLibm (x 4),
      limitRad num.toLibm (x 5 + dt * x 6), x 6] := by
  change SmallTarget.process num dt small.ekf.x = _
  unfold SmallTarget.process wrapAngles
  simp only [SmallTarget.transition, Matrix.cons_mulVec, Matrix.cons_dotProduct, Matrix.dotProduct_of_isEmpty,
    Matrix.empty_mulVec, zero_mul, one_mul, zero_add, add_zero]
  funext i
  fin_cases i <;> rfl

/-- **Two predictions of a small rune are one.** -/
theorem small_predict_predict {num : Numerics K} (hpi : 0 < num.pi) (small : SmallTarget K) (d1 d2 : K) :
    ((small.predict num d1).predict num d2).ekf.x = (small.predict num (d1 + d2)).ekf.x := by
  have hyaw := limitRad_limitRad_add hpi (small.ekf.x 0 + d1 * small.ekf.x 1) (d2 * small.ekf.x 1)
  have hroll := limitRad_limitRad_add hpi (small.ekf.x 5 + d1 * small.ekf.x 6) (d2 * small.ekf.x 6)
  rw [add_assoc] at hyaw hroll
  rw [small_predict_x, small_predict_x num small d1, small_predict_x]
  simp only [Matrix.cons_val, add_mul, hyaw, hroll, limitRad_limitRad hpi]

end Exact

/-! ## A big rune -/

section Big

open LfSentry.Vision.Dual (realLibm)

theorem big_predict_x (big : BigTarget ℝ) (dt : ℝ) : (big.predict realNumerics dt).ekf.x =
    let x := big.ekf.x
    let t := big.lasttime + dt
    ![limitRad realLibm (x 0 + dt * x 1), x 1, limitRad realLibm (x 2), x 3, limitRad realLibm (x 4),
      limitRad realLibm (x 5 + big.voter.clockwise * (-x 7 / x 8 * Real.cos (x 8 * t + x 9) +
        x 7 / x 8 * Real.cos (x 8 * big.lasttime + x 9) + (2.09 - x 7) * dt)),
      x 7 * Real.sin (x 8 * t + x 9) + 2.09 - x 7, x 7, x 8, x 9] := rfl

/-- **Where two predictions of a big rune are one**: its speed does not change, or the first of them takes whole turns of
the sine, or the second one ends at the same speed, and what its roll misses is whole turns. -/
def BigTarget.Composes (big : BigTarget ℝ) (d1 d2 : ℝ) : Prop :=
  let a := big.ekf.x 7
  let w := big.ekf.x 8
  let fi := big.ekf.x 9
  a = 0 ∨ Real.sin (w * d1 / 2.0) = 0 ∨ Real.cos (w * (big.lasttime + d2 + d1 / 2.0) + fi) = 0 ∧
    ∃ k : ℤ, 4.0 * (a / w) * Real.cos (w * (big.lasttime + (d1 + d2) / 2.0) + fi) * Real.sin (w * d1 / 2.0) *
      Real.sin (w * d2 / 2.0) = k * (2.0 * Real.pi)

/-- The speeds after the two predictions and after the one. -/
theorem speed_agrees_iff (a w fi t d1 d2 : ℝ) :
    a * Real.sin (w * (t + d2) + fi) + 2.09 - a = a * Real.sin (w * (t + (d1 + d2)) + fi) + 2.09 - a ↔
      a = 0 ∨ Real.sin (w * d1 / 2) = 0 ∨ Real.cos (w * (t + d2 + d1 / 2) + fi) = 0 := by
  have hdiff : Real.sin (w * (t + (d1 + d2)) + fi) - Real.sin (w * (t + d2) + fi) =
      2 * Real.sin (w * d1 / 2) * Real.cos (w * (t + d2 + d1 / 2) + fi) := by
    rw [Real.sin_sub_sin]
    congr 3 <;> ring
  have hzero : a * Real.sin (w * (t + d2) + fi) + 2.09 - a = a * Real.sin (w * (t + (d1 + d2)) + fi) + 2.09 - a ↔
      a * (2 * Real.sin (w * d1 / 2) * Real.cos (w * (t + d2 + d1 / 2) + fi)) = 0 := by
    rw [← hdiff, mul_sub, sub_eq_zero]
    constructor <;> intro h <;> linarith
  rw [hzero, mul_eq_zero, mul_eq_zero, mul_eq_zero]
  simp

/-- What the second of two predictions turns the roll by, and what a prediction from where it started would. -/
theorem turned_sub (w fi t d1 d2 : ℝ) :
    Real.cos (w * t + fi) - Real.cos (w * (t + d1) + fi) - (Real.cos (w * (t + d2) + fi) - Real.cos (w * (t + (d1 + d2)) + fi))
      = -4 * Real.cos (w * (t + (d1 + d2) / 2) + fi) * Real.sin (w * d1 / 2) * Real.sin (w * d2 / 2) := by
  have hpart : ∀ s, Real.cos (w * s + fi) - Real.cos (w * (s + d1) + fi) =
      2 * Real.sin (w * (s + d1 / 2) + fi) * Real.sin (w * d1 / 2) := by
    intro s
    have hhalf : (w * s + fi - (w * (s + d1) + fi)) / 2 = -(w * d1 / 2) := by ring
    have hmid : (w * s + fi + (w * (s + d1) + fi)) / 2 = w * (s + d1 / 2) + fi := by ring
    rw [Real.cos_sub_cos, hhalf, hmid, Real.sin_neg]
    ring
  have hmid : (w * (t + d1 / 2) + fi + (w * (t + d2 + d1 / 2) + fi)) / 2 = w * (t + (d1 + d2) / 2) + fi := by ring
  have hhalf : (w * (t + d1 / 2) + fi - (w * (t + d2 + d1 / 2) + fi)) / 2 = -(w * d2 / 2) := by ring
  rw [hpart t, ← add_assoc, add_right_comm t d1 d2, hpart (t + d2), ← sub_mul, ← mul_sub, Real.sin_sub_sin, hmid, hhalf,
    Real.sin_neg]
  ring

/-- A roll turned one way or the other misses whole turns alike. -/
theorem modEq_turned (voter : Voter) (x a b c : ℝ) :
    limitRad realLibm (limitRad realLibm (x + voter.clockwise * a) + voter.clockwise * b) =
        limitRad realLibm (x + voter.clockwise * c) ↔ ∃ k : ℤ, c - (a + b) = k * (2 * Real.pi) := by
  have hpi : (0 : ℝ) < realLibm.pi := Real.pi_pos
  rw [limitRad_limitRad_add hpi, limitRad_inj hpi, AddCommGroup.modEq_iff_zsmul']
  have hdiff : x + voter.clockwise * c - (x + voter.clockwise * a + voter.clockwise * b) =
      voter.clockwise * (c - (a + b)) := by ring
  rw [hdiff]
  simp only [zsmul_eq_mul]
  change (∃ k : ℤ, voter.clockwise * (c - (a + b)) = k * (2 * Real.pi)) ↔ _
  obtain hcw | hcw := voter.clockwise_cases <;> rw [hcw]
  · simp
  · constructor
    · rintro ⟨k, hk⟩
      exact ⟨-k, by push_cast at hk ⊢; linarith⟩
    · rintro ⟨k, hk⟩
      exact ⟨-k, by push_cast; linarith⟩

/-- **Two predictions of a big rune are one exactly where the sine allows it.** -/
theorem big_predict_predict (big : BigTarget ℝ) (d1 d2 : ℝ) :
    ((big.predict realNumerics d1).predict realNumerics d2).ekf.x = (big.predict realNumerics (d1 + d2)).ekf.x ↔
      big.Composes d1 d2 := by
  have hpi : (0 : ℝ) < realLibm.pi := Real.pi_pos
  have hyaw := limitRad_limitRad_add hpi (big.ekf.x 0 + d1 * big.ekf.x 1) (d2 * big.ekf.x 1)
  rw [add_assoc, ← add_mul] at hyaw
  have hkeeps : (big.predict realNumerics d1).lasttime = big.lasttime ∧
      (big.predict realNumerics d1).voter = big.voter := ⟨rfl, rfl⟩
  rw [big_predict_x, hkeeps.1, hkeeps.2, big_predict_x big d1, big_predict_x]
  -- the roll and the speed are all that can differ
  simp only [Matrix.cons_val, Matrix.vecCons_inj, hyaw, limitRad_limitRad hpi, true_and, and_true]
  rw [modEq_turned, speed_agrees_iff]
  have hturned := turned_sub (big.ekf.x 8) (big.ekf.x 9) big.lasttime d1 d2
  have hmissed : -big.ekf.x 7 / big.ekf.x 8 * Real.cos (big.ekf.x 8 * (big.lasttime + (d1 + d2)) + big.ekf.x 9) +
        big.ekf.x 7 / big.ekf.x 8 * Real.cos (big.ekf.x 8 * big.lasttime + big.ekf.x 9) + (2.09 - big.ekf.x 7) * (d1 + d2) -
      (-big.ekf.x 7 / big.ekf.x 8 * Real.cos (big.ekf.x 8 * (big.lasttime + d1) + big.ekf.x 9) +
          big.ekf.x 7 / big.ekf.x 8 * Real.cos (big.ekf.x 8 * big.lasttime + big.ekf.x 9) + (2.09 - big.ekf.x 7) * d1 +
        (-big.ekf.x 7 / big.ekf.x 8 * Real.cos (big.ekf.x 8 * (big.lasttime + d2) + big.ekf.x 9) +
          big.ekf.x 7 / big.ekf.x 8 * Real.cos (big.ekf.x 8 * big.lasttime + big.ekf.x 9) + (2.09 - big.ekf.x 7) * d2)) =
      4 * (big.ekf.x 7 / big.ekf.x 8) * Real.cos (big.ekf.x 8 * (big.lasttime + (d1 + d2) / 2) + big.ekf.x 9) *
        Real.sin (big.ekf.x 8 * d1 / 2) * Real.sin (big.ekf.x 8 * d2 / 2) := by
    linear_combination -(big.ekf.x 7 / big.ekf.x 8) * hturned
  have htwo : (2.0 : ℝ) = 2 := by norm_num
  have hfour : (4.0 : ℝ) = 4 := by norm_num
  unfold BigTarget.Composes
  rw [hmissed, htwo, hfour]
  constructor
  · rintro ⟨hk, ha | hsin | hcos⟩
    · exact .inl ha
    · exact .inr (.inl hsin)
    · exact .inr (.inr ⟨hcos, hk⟩)
  · rintro (ha | hsin | ⟨hcos, hk⟩)
    · exact ⟨⟨0, by simp [ha]⟩, .inl ha⟩
    · exact ⟨⟨0, by simp [hsin]⟩, .inr (.inl hsin)⟩
    · exact ⟨hk, .inr (.inr hcos)⟩

/-- **Predictions compose for a tracked target and for a small rune; for a big one, exactly where the sine allows it.** -/
theorem predict_composes_iff (target : Target ℝ) (small : SmallTarget ℝ) (big : BigTarget ℝ) (d1 d2 : ℝ) :
    (((target.predictBy realLibm d1).predictBy realLibm d2).x = (target.predictBy realLibm (d1 + d2)).x ∧
      ((small.predict realNumerics d1).predict realNumerics d2).ekf.x = (small.predict realNumerics (d1 + d2)).ekf.x ∧
      ((big.predict realNumerics d1).predict realNumerics d2).ekf.x = (big.predict realNumerics (d1 + d2)).ekf.x) ↔
    big.Composes d1 d2 := by
  have hpi : (0 : ℝ) < realLibm.pi := Real.pi_pos
  rw [← big_predict_predict]
  constructor
  · exact fun h => h.2.2
  · exact fun h => ⟨by rw [predictBy_predictBy hpi], small_predict_predict hpi small d1 d2, h⟩

/-- A big rune seen for the first time, straight ahead. -/
noncomputable def freshBig : BigTarget ℝ :=
  BigTarget.init realNumerics ⟨.fresh⟩ 0 ⟨0, 0, 0⟩

/-- Predicted by a second, and then by the tenth of a second that a bullet flies. -/
theorem big_predictions_differ : ((freshBig.predict realNumerics 1).predict realNumerics 0.1).ekf.x ≠
    (freshBig.predict realNumerics (1 + 0.1)).ekf.x := by
  have hpi := Real.pi_gt_three
  have ha : freshBig.ekf.x 7 = 0.9125 := rfl
  have hw : freshBig.ekf.x 8 = 1.942 := rfl
  have hfi : freshBig.ekf.x 9 = 0 := rfl
  have ht : freshBig.lasttime = 0 := rfl
  have hsin : 0 < Real.sin (1.942 * 1 / 2.0) := Real.sin_pos_of_pos_of_lt_pi (by norm_num) (by linarith)
  have hcos : 0 < Real.cos (1.942 * (0 + 0.1 + 1 / 2.0) + 0) :=
    Real.cos_pos_of_mem_Ioo ⟨by linarith, by linarith⟩
  rw [ne_eq, big_predict_predict, BigTarget.Composes, ha, hw, hfi, ht]
  rintro (h | h | ⟨h, -⟩)
  · norm_num at h
  · exact hsin.ne' h
  · exact hcos.ne' h

end Big

end Vision
end LfSentry
