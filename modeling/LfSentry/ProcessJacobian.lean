import Mathlib.Analysis.SpecialFunctions.Trigonometric.Deriv
import LfSentry.Jacobian
import LfSentry.PredictComposes
/-!
# ProcessJacobian — the transitions of the runes as derivatives

Away from the points where an angle wraps, the `A_` of a small rune is the Jacobian of its process.  The one of a big rune
takes the roll to grow with the speed, which the process does not read: the row of the roll is another one
(`big_process_jacobian`), and the matrix is the Jacobian only over no time at all (`process_jacobians_iff`).
-/
namespace LfSentry
namespace Vision

open Jacobian
open LfSentry.Vision.Dual (realLibm)

/-! ## Wrapped angles -/

/-- **Where it does not wrap, an angle changes as it did.** -/
theorem hasDerivAt_limitRad {a : ℝ} (h : limitRad realLibm a ≠ Real.pi) : HasDerivAt (limitRad realLibm) 1 a := by
  have hturn : (0 : ℝ) < 2 * Real.pi := by linarith [Real.pi_pos]
  have hle := Int.le_ceil ((a - Real.pi) / (2 * Real.pi))
  have hlt := Int.ceil_lt_add_one ((a - Real.pi) / (2 * Real.pi))
  have hne : (a - Real.pi) / (2 * Real.pi) ≠ ⌈(a - Real.pi) / (2 * Real.pi)⌉ := by
    intro heq
    refine h ?_
    change a - 2 * Real.pi * ⌈(a - Real.pi) / (2 * Real.pi)⌉ = Real.pi
    rw [← heq, mul_div_cancel₀ _ hturn.ne']
    ring
  generalize hn : ⌈(a - Real.pi) / (2 * Real.pi)⌉ = n at hle hlt hne
  have hnear : ∀ᶠ y in nhds a, limitRad realLibm y = y - 2 * Real.pi * n := by
    have hcont : ContinuousAt (fun y : ℝ => (y - Real.pi) / (2 * Real.pi)) a := by fun_prop
    have hbelow := hcont.eventually_lt continuousAt_const (lt_of_le_of_ne hle hne)
    have habove := continuousAt_const.eventually_lt hcont (show (n : ℝ) - 1 < (a - Real.pi) / (2 * Real.pi) by linarith)
    filter_upwards [hbelow, habove] with y hy1 hy2
    have hceil : ⌈(y - Real.pi) / (2 * Real.pi)⌉ = n := Int.ceil_eq_iff.2 ⟨hy2, hy1.le⟩
    change y - 2 * Real.pi * ⌈(y - Real.pi) / (2 * Real.pi)⌉ = _
    rw [hceil]
  exact ((hasDerivAt_id a).sub_const _).congr_of_eventuallyEq hnear

theorem isGradient_limitRad {n : Type} [Fintype n] {a : n → ℝ} {f : (n → ℝ) → ℝ} {x : n → ℝ} (hf : IsGradient a f x)
    (h : limitRad realLibm (f x) ≠ Real.pi) : IsGradient a (fun x => limitRad realLibm (f x)) x :=
  (hf.comp (hasDerivAt_limitRad h)).congr (one_smul ℝ a)

theorem isJacobian_wrapAngles {m n : Nat} {A : Matrix (Fin m) (Fin n) ℝ} {f : (Fin n → ℝ) → Fin m → ℝ} {x : Fin n → ℝ}
    {angles : List (Fin m)} (hf : IsJacobian A f x) (h : ∀ i ∈ angles, limitRad realLibm (f x i) ≠ Real.pi) :
    IsJacobian A (fun x => wrapAngles realNumerics angles (f x)) x := by
  rw [isJacobian_iff] at hf ⊢
  intro i
  unfold wrapAngles
  by_cases hi : i ∈ angles
  · simp only [if_pos hi]
    exact isGradient_limitRad (hf i) (h i hi)
  · simp only [if_neg hi]
    exact hf i

/-! ## The small rune -/

/-- **The transition of a small rune is the Jacobian of its process.** -/
theorem small_process_jacobian {dt : ℝ} {x : Fin 7 → ℝ}
    (h : ∀ i ∈ [0, 2, 4, 5], SmallTarget.process realNumerics dt x i ≠ Real.pi) :
    IsJacobian (SmallTarget.transition dt) (SmallTarget.process realNumerics dt) x := by
  refine isJacobian_wrapAngles (isJacobian_mulVec _) fun i hi => ?_
  have hwrapped := h i hi
  unfold SmallTarget.process wrapAngles at hwrapped
  rwa [if_pos hi] at hwrapped

/-! ## The big rune -/

/-- The transition of a big rune, with `a`, `w` and `fi` read from the state. -/
noncomputable def BigTarget.step (target : BigTarget ℝ) (dt : ℝ) (x : Fin 10 → ℝ) : Fin 10 → ℝ :=
  target.process realNumerics (x 7) (x 8) (x 9) dt x

/-- What the process makes of the roll, by the components of the state. -/
noncomputable def BigTarget.rollRow (target : BigTarget ℝ) (dt : ℝ) : Fin 10 → ℝ :=
  let a := target.ekf.x 7
  let w := target.ekf.x 8
  let start := w * target.lasttime + target.ekf.x 9
  let stop := w * (target.lasttime + dt) + target.ekf.x 9
  ![0, 0, 0, 0, 0, 1, 0, target.voter.clockwise * ((Real.cos start - Real.cos stop) / w - dt),
    target.voter.clockwise * (a / (w * w) * (Real.cos stop - Real.cos start) +
      a / w * ((target.lasttime + dt) * Real.sin stop - target.lasttime * Real.sin start)),
    target.voter.clockwise * (a / w * (Real.sin stop - Real.sin start))]

section Big

variable {x : Fin 10 → ℝ}

theorem isGradient_phase (t : ℝ) :
    IsGradient (t • Pi.single 8 1 + Pi.single 9 1) (fun x : Fin 10 → ℝ => x 8 * t + x 9) x := by
  refine (((isGradient_coordinate 8).mul (isGradient_const t)).add (isGradient_coordinate 9)).congr ?_
  rw [smul_zero, zero_add]

theorem isGradient_turned (hw : x 8 ≠ 0) (t : ℝ) :
    IsGradient ((Real.cos (x 8 * t + x 9) / x 8) • Pi.single 7 1 -
        (x 7 / (x 8 * x 8) * Real.cos (x 8 * t + x 9)) • Pi.single 8 1 -
        (x 7 / x 8 * Real.sin (x 8 * t + x 9)) • (t • Pi.single 8 1 + Pi.single 9 1))
      (fun x : Fin 10 → ℝ => x 7 / x 8 * Real.cos (x 8 * t + x 9)) x := by
  have hinv := (isGradient_coordinate (x := x) 8).comp (hasDerivAt_inv hw)
  have hcos := (isGradient_phase (x := x) t).comp (Real.hasDerivAt_cos (x 8 * t + x 9))
  refine (((isGradient_coordinate 7).mul hinv).mul hcos).congr ?_
  match_scalars <;> field_simp
  ring

theorem rollRow_eq (a b c : ℝ) : (![0, 0, 0, 0, 0, 1, 0, a, b, c] : Fin 10 → ℝ) =
    Pi.single 5 1 + a • Pi.single 7 1 + b • Pi.single 8 1 + c • Pi.single 9 1 := by
  funext j
  fin_cases j <;> simp

/-- **What the roll of a big rune depends on**: not the speed, but the sine that the speed follows. -/
theorem isGradient_roll (target : BigTarget ℝ) (dt : ℝ) (hw : target.ekf.x 8 ≠ 0) :
    IsGradient (target.rollRow dt) (fun x : Fin 10 → ℝ => x 5 + target.voter.clockwise *
      (-x 7 / x 8 * Real.cos (x 8 * (target.lasttime + dt) + x 9) + x 7 / x 8 * Real.cos (x 8 * target.lasttime + x 9) +
        (2.09 - x 7) * dt)) target.ekf.x := by
  have hturned := ((isGradient_turned hw target.lasttime).sub (isGradient_turned hw (target.lasttime + dt))).add
    (((isGradient_const 2.09).sub (isGradient_coordinate 7)).mul (isGradient_const dt))
  have hroll := (isGradient_coordinate (x := target.ekf.x) 5).add
    ((isGradient_const (target.voter.clockwise : ℝ)).mul hturned)
  refine (hroll.congr ?_).congr_nhds (.of_forall fun x => ?_)
  · unfold BigTarget.rollRow
    dsimp only
    generalize Real.cos (target.ekf.x 8 * target.lasttime + target.ekf.x 9) = cosStart
    generalize Real.cos (target.ekf.x 8 * (target.lasttime + dt) + target.ekf.x 9) = cosStop
    generalize Real.sin (target.ekf.x 8 * target.lasttime + target.ekf.x 9) = sinStart
    generalize Real.sin (target.ekf.x 8 * (target.lasttime + dt) + target.ekf.x 9) = sinStop
    rw [rollRow_eq]
    match_scalars <;> field_simp <;> ring
  · rw [neg_div]
    ring

theorem isGradient_spd (t : ℝ) : IsGradient ((Real.sin (x 8 * t + x 9) - 1) • Pi.single 7 1 +
      (t * x 7 * Real.cos (x 8 * t + x 9)) • Pi.single 8 1 + (x 7 * Real.cos (x 8 * t + x 9)) • Pi.single 9 1)
    (fun x : Fin 10 → ℝ => x 7 * Real.sin (x 8 * t + x 9) + 2.09 - x 7) x := by
  have hsin := (isGradient_phase (x := x) t).comp (Real.hasDerivAt_sin (x 8 * t + x 9))
  refine ((((isGradient_coordinate 7).mul hsin).add (isGradient_const 2.09)).sub (isGradient_coordinate 7)).congr ?_
  module

/-- **The Jacobian of a big rune's process is its transition with another row for the roll.** -/
theorem big_process_jacobian {target : BigTarget ℝ} {dt : ℝ} (hw : target.ekf.x 8 ≠ 0)
    (h : ∀ i ∈ [0, 2, 4, 5], target.step dt target.ekf.x i ≠ Real.pi) :
    IsJacobian ((target.transition realNumerics dt).updateRow 5 (target.rollRow dt)) (target.step dt) target.ekf.x := by
  have hyaw := isGradient_limitRad ((isGradient_coordinate (x := target.ekf.x) 0).add
    ((isGradient_const dt).mul (isGradient_coordinate 1))) (h 0 (by simp))
  have hpitch := isGradient_limitRad (isGradient_coordinate (x := target.ekf.x) 2) (h 2 (by simp))
  have hrune := isGradient_limitRad (isGradient_coordinate (x := target.ekf.x) 4) (h 4 (by simp))
  have hroll := isGradient_limitRad (isGradient_roll target dt hw) (h 5 (by simp))
  have hspd : IsGradient _ (fun x : Fin 10 → ℝ => x 7 * realNumerics.sin (x 8 * (target.lasttime + dt) + x 9) + 2.09 - x 7)
    target.ekf.x := isGradient_spd (target.lasttime + dt)
  have hrow : ∀ i, i ≠ 5 → ((target.transition realNumerics dt).updateRow 5 (target.rollRow dt)) i =
      target.transition realNumerics dt i := fun i hi => Matrix.updateRow_ne hi
  rw [isJacobian_iff]
  intro i
  by_cases hi : i = 5
  · rw [hi, Matrix.updateRow_self]
    exact hroll
  · rw [hrow i hi]
    match i, hi with
    | 0, _ => exact hyaw.congr (by funext j; fin_cases j <;> simp [BigTarget.transition])
    | 1, _ => exact (isGradient_coordinate 1).congr (by funext j; fin_cases j <;> rfl)
    | 2, _ => exact hpitch.congr (by funext j; fin_cases j <;> rfl)
    | 3, _ => exact (isGradient_coordinate 3).congr (by funext j; fin_cases j <;> rfl)
    | 4, _ => exact hrune.congr (by funext j; fin_cases j <;> rfl)
    | 6, _ => exact hspd.congr (by funext j; fin_cases j <;> simp [BigTarget.transition, realNumerics, realLibm])
    | 7, _ => exact (isGradient_coordinate 7).congr (by funext j; fin_cases j <;> rfl)
    | 8, _ => exact (isGradient_coordinate 8).congr (by funext j; fin_cases j <;> rfl)
    | 9, _ => exact (isGradient_coordinate 9).congr (by funext j; fin_cases j <;> rfl)

/-- **The transition of a big rune is the Jacobian of its process over no time alone**: the row of the roll has the wrong
components. -/
theorem big_transition_iff {target : BigTarget ℝ} {dt : ℝ} (hw : target.ekf.x 8 ≠ 0)
    (h : ∀ i ∈ [0, 2, 4, 5], target.step dt target.ekf.x i ≠ Real.pi) :
    IsJacobian (target.transition realNumerics dt) (target.step dt) target.ekf.x ↔ dt = 0 := by
  have hjacobian := big_process_jacobian hw h
  constructor
  · intro htransition
    have hrow : target.transition realNumerics dt 5 = target.rollRow dt := by
      have hroll := isJacobian_iff.1 hjacobian 5
      rw [Matrix.updateRow_self] at hroll
      exact (isJacobian_iff.1 htransition 5).unique hroll
    -- the speed moves the roll by the matrix, and not by the process
    have hspd : (target.voter.clockwise : ℝ) * dt = 0 := congrFun hrow 6
    obtain hcw | hcw := target.voter.clockwise_cases <;> simpa [hcw] using hspd
  · rintro rfl
    have hrow : target.rollRow 0 = target.transition realNumerics 0 5 := by
      unfold BigTarget.rollRow
      funext j
      fin_cases j <;> simp [BigTarget.transition]
    rwa [hrow, Matrix.updateRow_eq_self] at hjacobian

/-- **A small rune is predicted with the Jacobian of its process, a big rune over no time alone.** -/
theorem process_jacobians_iff {small : SmallTarget ℝ} {big : BigTarget ℝ} {dt : ℝ} (hw : big.ekf.x 8 ≠ 0)
    (hsmall : ∀ i ∈ [0, 2, 4, 5], (small.predict realNumerics dt).ekf.x i ≠ Real.pi)
    (hbig : ∀ i ∈ [0, 2, 4, 5], (big.predict realNumerics dt).ekf.x i ≠ Real.pi) :
    IsJacobian (SmallTarget.transition dt) (SmallTarget.process realNumerics dt) small.ekf.x ∧
      (IsJacobian (big.transition realNumerics dt) (big.step dt) big.ekf.x ↔ dt = 0) :=
  ⟨small_process_jacobian hsmall, big_transition_iff hw hbig⟩

end Big

/-! ## A rune straight ahead -/

/-- A small rune seen for the first time, straight ahead. -/
noncomputable def freshSmall : SmallTarget ℝ :=
  SmallTarget.init realNumerics ⟨.fresh⟩ 0 ⟨0, 0, 0⟩

theorem ne_pi_of_mem {a : ℝ} (hlo : -Real.pi < a) (hhi : a < Real.pi) : limitRad realLibm a ≠ Real.pi := by
  rw [limitRad_of_mem Real.pi_pos hlo hhi.le]
  exact hhi.ne

theorem freshSmall_unwrapped : ∀ i ∈ [0, 2, 4, 5], (freshSmall.predict realNumerics 1).ekf.x i ≠ Real.pi := by
  have hpi := Real.pi_pos
  have hx : freshSmall.ekf.x = ![0, 0, 0, 0, 0, 0, Real.pi / 3.0 * (-1 : ℤ)] := rfl
  rw [small_predict_x, hx]
  simp only [Matrix.cons_val]
  intro i hi
  fin_cases hi
  · exact ne_pi_of_mem (by linarith) (by linarith)
  · exact ne_pi_of_mem (by linarith) (by linarith)
  · exact ne_pi_of_mem (by linarith) (by linarith)
  · refine ne_pi_of_mem ?_ ?_ <;> norm_num <;> linarith

theorem freshBig_unwrapped : ∀ i ∈ [0, 2, 4, 5], (freshBig.predict realNumerics 1).ekf.x i ≠ Real.pi := by
  have hpi := Real.pi_gt_three
  have hcos := Real.cos_le_one 1.942
  have hcos' := Real.neg_one_le_cos 1.942
  have hx : freshBig.ekf.x = ![0, 0, 0, 0, 0, 0, 1.1775, 0.9125, 1.942, 0] := rfl
  have hkept : freshBig.lasttime = 0 ∧ freshBig.voter.clockwise = -1 := ⟨rfl, rfl⟩
  rw [big_predict_x, hx, hkept.1, hkept.2]
  simp only [Matrix.cons_val, zero_add, add_zero, mul_zero, mul_one, Real.cos_zero]
  intro i hi
  fin_cases hi
  · exact ne_pi_of_mem (by linarith) (by linarith)
  · exact ne_pi_of_mem (by linarith) (by linarith)
  · exact ne_pi_of_mem (by linarith) (by linarith)
  · refine ne_pi_of_mem ?_ ?_ <;> norm_num at hcos hcos' ⊢ <;> linarith

/-- A second after both are seen. -/
theorem fresh_process_jacobians :
    IsJacobian (SmallTarget.transition 1) (SmallTarget.process realNumerics 1) freshSmall.ekf.x ∧
      (IsJacobian (freshBig.transition realNumerics 1) (freshBig.step 1) freshBig.ekf.x ↔ (1 : ℝ) = 0) := by
  have hw : freshBig.ekf.x 8 ≠ 0 := by
    change (1.942 : ℝ) ≠ 0
    norm_num
  exact process_jacobians_iff hw freshSmall_unwrapped freshBig_unwrapped

/-- **A second after it is seen, no angle wraps, and the matrix is not the Jacobian.** -/
theorem freshBig_transition_wrong : freshBig.ekf.x 8 ≠ 0 ∧
    (∀ i ∈ [0, 2, 4, 5], (freshBig.predict realNumerics 1).ekf.x i ≠ Real.pi) ∧
    ¬ IsJacobian (freshBig.transition realNumerics 1) (freshBig.step 1) freshBig.ekf.x := by
  have hw : freshBig.ekf.x 8 ≠ 0 := by
    change (1.942 : ℝ) ≠ 0
    norm_num
  refine ⟨hw, freshBig_unwrapped, fun h => ?_⟩
  exact one_ne_zero ((big_transition_iff hw freshBig_unwrapped).1 h)

end Vision
end LfSentry
