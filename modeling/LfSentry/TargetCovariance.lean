import LfSentry.Covariance
import LfSentry.ExtendedKalmanFilter
import LfSentry.RestingTarget
/-!
# TargetCovariance — the covariance of a tracked target, over every sequence of calls

The noise of a prediction is semidefinite for either sign of its time and the noise of a measurement is definite, so every
call keeps the covariance of the filter semidefinite (`call_posSemidef`) and every gain is defined (`covariance_valid`).
-/
namespace LfSentry
namespace Vision

open Matrix

theorem transition_transpose_mulVec (dt : ℝ) (v : Fin 11 → ℝ) : (transition dt)ᵀ *ᵥ v =
    ![v 0, dt * v 0 + v 1, v 2, dt * v 2 + v 3, v 4, dt * v 4 + v 5, v 6, dt * v 6 + v 7, v 8, v 9, v 10] := by
  rw [mulVec_transpose]
  unfold transition
  simp only [vecMul_cons, empty_vecMul, smul_cons, smul_empty, smul_eq_mul, cons_add_cons, empty_add_empty, mul_zero,
    mul_one, zero_add, add_zero, mul_comm _ dt]
  rfl

theorem processNoise_mulVec (name : ArmorName) (dt : ℝ) (v : Fin 11 → ℝ) : processNoise name dt *ᵥ v =
    let v1 : ℝ := if name = .outpost then 10.0 else 100.0
    let v2 : ℝ := if name = .outpost then 0.1 else 400.0
    let a := dt * dt * dt * dt / 4.0
    let b := dt * dt * dt / 2.0
    let c := dt * dt
    ![a * v1 * v 0 + b * v1 * v 1, b * v1 * v 0 + c * v1 * v 1, a * v1 * v 2 + b * v1 * v 3, b * v1 * v 2 + c * v1 * v 3,
      a * v1 * v 4 + b * v1 * v 5, b * v1 * v 4 + c * v1 * v 5, a * v2 * v 6 + b * v2 * v 7, b * v2 * v 6 + c * v2 * v 7,
      0, 0, 0] := by
  simp only [processNoise, cons_mulVec, cons_dotProduct, dotProduct_of_isEmpty, empty_mulVec, zero_mul, zero_add, add_zero]
  rfl

theorem processNoise_isSymm (name : ArmorName) (dt : ℝ) : (processNoise name dt).IsSymm := by
  ext i j
  fin_cases i <;> fin_cases j <;> rfl

/-- **The noise of a prediction is semidefinite, forward and backward in time.** -/
theorem processNoise_posSemidef (name : ArmorName) (dt : ℝ) : (processNoise name dt).PosSemidef := by
  refine .of_dotProduct_mulVec_nonneg (processNoise_isSymm name dt) fun v => ?_
  have hv1 : (0 : ℝ) ≤ if name = .outpost then 10.0 else 100.0 := by split <;> norm_num
  have hv2 : (0 : ℝ) ≤ if name = .outpost then 0.1 else 400.0 := by split <;> norm_num
  rw [star_trivial, processNoise_mulVec]
  dsimp only
  generalize (if name = .outpost then (10.0 : ℝ) else 100.0) = v1 at hv1 ⊢
  generalize (if name = .outpost then (0.1 : ℝ) else 400.0) = v2 at hv2 ⊢
  -- each pair of a place and its speed is moved by one acceleration
  have hsquares : v ⬝ᵥ ![dt * dt * dt * dt / 4.0 * v1 * v 0 + dt * dt * dt / 2.0 * v1 * v 1,
      dt * dt * dt / 2.0 * v1 * v 0 + dt * dt * v1 * v 1, dt * dt * dt * dt / 4.0 * v1 * v 2 + dt * dt * dt / 2.0 * v1 * v 3,
      dt * dt * dt / 2.0 * v1 * v 2 + dt * dt * v1 * v 3, dt * dt * dt * dt / 4.0 * v1 * v 4 + dt * dt * dt / 2.0 * v1 * v 5,
      dt * dt * dt / 2.0 * v1 * v 4 + dt * dt * v1 * v 5, dt * dt * dt * dt / 4.0 * v2 * v 6 + dt * dt * dt / 2.0 * v2 * v 7,
      dt * dt * dt / 2.0 * v2 * v 6 + dt * dt * v2 * v 7, 0, 0, 0] =
      v1 * (dt * dt / 2 * v 0 + dt * v 1) ^ 2 + v1 * (dt * dt / 2 * v 2 + dt * v 3) ^ 2 +
        v1 * (dt * dt / 2 * v 4 + dt * v 5) ^ 2 + v2 * (dt * dt / 2 * v 6 + dt * v 7) ^ 2 := by
    have h4 : (4.0 : ℝ) = 4 := by norm_num
    have h2 : (2.0 : ℝ) = 2 := by norm_num
    simp [dotProduct, Fin.sum_univ_succ, h4, h2]
    ring
  rw [hsquares]
  positivity

/-! ## The calls of a target -/

/-- What is called on a target between its making and its end. -/
inductive FilterCall (K : Type)
  | predictBy (dt : K)
  | predict (t : Int)
  | updateYpda (armor : Armor K) (id : Nat)
  | update (armor : Armor K)

def TrackedTarget.call {K : Type} [Field K] [LinearOrder K] [FloorRing K] (num : Numerics K) (target : TrackedTarget K) :
    FilterCall K → TrackedTarget K
  | .predictBy dt => target.predictBy num dt
  | .predict t => target.predict num t
  | .updateYpda armor id => target.updateYpda num armor id
  | .update armor => target.update num armor

theorem predictBy_P (target : TrackedTarget ℝ) (dt : ℝ) : (target.predictBy realNumerics dt).P =
    Covariance.propagate (transition dt) (processNoise target.name dt) target.P := rfl

theorem updateYpda_P (target : TrackedTarget ℝ) (armor : Armor ℝ) (id : Nat) :
    let H := target.toTarget.hJacobian realNumerics id
    (target.updateYpda realNumerics armor id).P = Covariance.joseph
      (target.P * Hᵀ * (Covariance.innovation H (armor.noise realNumerics) target.P)⁻¹) H (armor.noise realNumerics)
      target.P := rfl

/-- **The noise of every measurement is definite**: a logarithm from one on is not negative. -/
theorem noise_posDef (armor : Armor ℝ) : (armor.noise realNumerics).PosDef := by
  have hlog : ∀ a : ℝ, 0 ≤ Real.log (|a| + 1) := fun a => Real.log_nonneg (by linarith [abs_nonneg a])
  refine .diagonal fun i => ?_
  fin_cases i
  · show (0 : ℝ) < 0.004
    norm_num
  · show (0 : ℝ) < 0.004
    norm_num
  · show (0 : ℝ) < Real.log (|_| + 1) + 1
    have hangle := hlog (limitRad realNumerics.toLibm
      (armor.yprInWorld 0 - realNumerics.atan2 (armor.xyzInWorld 1) (armor.xyzInWorld 0)))
    linarith
  · show (0 : ℝ) < Real.log (|_| + 1) / 200.0 + 0.09
    have hdistance := hlog (armor.ypdInWorld 2)
    positivity

theorem call_posSemidef {target : TrackedTarget ℝ} (h : target.P.PosSemidef) (call : FilterCall ℝ) :
    (target.call realNumerics call).P.PosSemidef := by
  have hpredict : ∀ dt, (target.predictBy realNumerics dt).P.PosSemidef := by
    intro dt
    rw [predictBy_P]
    exact Covariance.propagate_posSemidef h (processNoise_posSemidef target.name dt)
  cases call with
  | predictBy dt => exact hpredict dt
  | predict t => exact hpredict (deltaTime t target.t)
  | updateYpda armor id =>
    show (target.updateYpda realNumerics armor id).P.PosSemidef
    rw [updateYpda_P]
    exact Covariance.joseph_posSemidef _ h (noise_posDef armor).posSemidef
  | update armor => exact Covariance.joseph_posSemidef _ h (noise_posDef armor).posSemidef

theorem calls_posSemidef (calls : List (FilterCall ℝ)) {target : TrackedTarget ℝ} (h : target.P.PosSemidef) :
    (calls.foldl (TrackedTarget.call realNumerics) target).P.PosSemidef := by
  induction calls generalizing target with
  | nil => exact h
  | cons call calls ih => exact ih (call_posSemidef h call)

/-- **After any calls the covariance is symmetric and semidefinite, and for every measurement of every armor the covariance
of the innovation is definite and has an inverse.** -/
theorem covariance_valid (P0Dig : Fin 11 → ℝ) (h0 : 0 ≤ P0Dig) (armor : Armor ℝ) (t : Int) (radius : ℝ) (armorNum : Nat)
    (calls : List (FilterCall ℝ)) :
    let target := calls.foldl (TrackedTarget.call realNumerics) (.ofArmor realNumerics armor t radius armorNum P0Dig)
    target.P.IsSymm ∧ target.P.PosSemidef ∧ ∀ (seen : Armor ℝ) (id : Nat),
      let H := target.toTarget.hJacobian realNumerics id
      (H * target.P * Hᵀ + seen.noise realNumerics).PosDef ∧ IsUnit (H * target.P * Hᵀ + seen.noise realNumerics) := by
  have hP := calls_posSemidef calls
    (show (TrackedTarget.ofArmor realNumerics armor t radius armorNum P0Dig).P.PosSemidef from .diagonal h0)
  have hS := fun (seen : Armor ℝ) id => Covariance.innovation_posDef
    (H := (calls.foldl (TrackedTarget.call realNumerics)
      (.ofArmor realNumerics armor t radius armorNum P0Dig)).toTarget.hJacobian realNumerics id) hP (noise_posDef seen)
  exact ⟨hP.isHermitian, hP, fun seen id => ⟨hS seen id, (hS seen id).isUnit⟩⟩

/-- A standard robot, predicted backward and then seen. -/
theorem covariance_valid_backward :
    let target : TrackedTarget ℝ :=
      .ofArmor realNumerics balanceArmor 0 0.2 4 ![1, 64, 1, 64, 1, 64, 0.4, 100, 1, 1, 1]
    ((target.predictBy realNumerics (-0.5)).updateYpda realNumerics balanceArmor 0).P.PosSemidef :=
  (covariance_valid ![1, 64, 1, 64, 1, 64, 0.4, 100, 1, 1, 1] (by intro i; fin_cases i <;> norm_num) balanceArmor 0 0.2 4
    [.predictBy (-0.5), .updateYpda balanceArmor 0]).2.1

end Vision
end LfSentry
