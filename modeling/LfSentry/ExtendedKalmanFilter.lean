import LfSentry.TrackedTarget
/-!
# ExtendedKalmanFilter — the filter of every target (`sp_vision_25/tools/extended_kalman_filter.cpp`)

One `update` serves measurements of any size; `ReadsResidual` and `Inverts` say that what it reads of the residual exists and
that what it inverts has an inverse.  Eigen's inverse is a parameter.  The filter that a `TrackedTarget` carries is this one
(`updateYpda_ekf`).
-/
namespace LfSentry
namespace Vision

variable {K : Type} {n m : Nat}

/-- `data` of a filter; `none` is what lies beyond the end of a residual. -/
structure FilterData (K : Type) where
  residualYaw : Option K
  residualPitch : Option K
  residualDistance : Option K
  residualAngle : Option K
  nis : K
  nees : K
  nisFail : K
  neesFail : K
  recentNisFailures : K

/-- What a filter keeps of its tests. -/
structure FilterStats (K : Type) where
  data : FilterData K
  lastNis : Option K
  neesCount : Int
  nisCount : Int
  totalCount : Int

structure ExtendedKalmanFilter (K : Type) (n : Nat) extends FilterStats K where
  x : Fin n → K
  P : Matrix (Fin n) (Fin n) K
  xAdd : (Fin n → K) → (Fin n → K) → Fin n → K
  recentNisFailures : List Nat

/-- `v[i]`; a vector has no components from its size on. -/
def component (v : Fin m → K) (i : Nat) : Option K := if h : i < m then some (v ⟨i, h⟩) else none

@[simp] theorem component_isSome (v : Fin m → K) (i : Nat) : (component v i).isSome = true ↔ i < m := by
  unfold component
  split
  · simp_all
  · simp_all

def FilterStats.initial [Zero K] : FilterStats K where
  data := ⟨some 0, some 0, some 0, some 0, 0, 0, 0, 0, 0⟩
  lastNis := none
  neesCount := 0
  nisCount := 0
  totalCount := 0

namespace ExtendedKalmanFilter

variable [Field K]

/-- `ExtendedKalmanFilter::ExtendedKalmanFilter`. -/
def ofState (x0 : Fin n → K) (P0 : Matrix (Fin n) (Fin n) K) (xAdd : (Fin n → K) → (Fin n → K) → Fin n → K) :
    ExtendedKalmanFilter K n where
  toFilterStats := .initial
  x := x0
  P := P0
  xAdd := xAdd
  recentNisFailures := [0]

def predict (ekf : ExtendedKalmanFilter K n) (F Q : Matrix (Fin n) (Fin n) K) (f : (Fin n → K) → Fin n → K) :
    ExtendedKalmanFilter K n :=
  { ekf with P := F * ekf.P * F.transpose + Q, x := f ekf.x }

/-- The covariance of the innovation, before an update and after it. -/
def innovation (ekf : ExtendedKalmanFilter K n) (H : Matrix (Fin m) (Fin n) K) (R : Matrix (Fin m) (Fin m) K) :
    Matrix (Fin m) (Fin m) K :=
  H * ekf.P * H.transpose + R

/-- The `P` of `update`, from the gain. -/
def joseph (ekf : ExtendedKalmanFilter K n) (gain : Matrix (Fin n) (Fin m) K) (H : Matrix (Fin m) (Fin n) K)
    (R : Matrix (Fin m) (Fin m) K) : Matrix (Fin n) (Fin n) K :=
  (1 - gain * H) * ekf.P * (1 - gain * H).transpose + gain * R * gain.transpose

variable [LinearOrder K] (inverse : ∀ {k : Nat}, Matrix (Fin k) (Fin k) K → Matrix (Fin k) (Fin k) K)

def update (ekf : ExtendedKalmanFilter K n) (z : Fin m → K) (H : Matrix (Fin m) (Fin n) K)
    (R : Matrix (Fin m) (Fin m) K) (h : (Fin n → K) → Fin m → K) (zSubtract : (Fin m → K) → (Fin m → K) → Fin m → K) :
    ExtendedKalmanFilter K n :=
  let xPrior := ekf.x
  let gain := ekf.P * H.transpose * inverse (ekf.innovation H R)
  let P := ekf.joseph gain H R
  let x := ekf.xAdd xPrior (gain.mulVec (zSubtract z (h xPrior)))
  let residual := zSubtract z (h x)
  let S := H * P * H.transpose + R
  let nis := dotProduct residual ((inverse S).mulVec residual)
  let nees := dotProduct (x - xPrior) ((inverse P).mulVec (x - xPrior))
  -- the threshold of both tests
  let failed := fun test : K => decide (test > 0.711)
  let recentNisFailures := pushNis ekf.recentNisFailures (if failed nis then 1 else 0)
  let recentFailures : Nat := recentNisFailures.foldl (· + ·) 0
  { ekf with
    x := x
    P := P
    recentNisFailures := recentNisFailures
    lastNis := some nis
    nisCount := if failed nis then ekf.nisCount + 1 else ekf.nisCount
    neesCount := if failed nees then ekf.neesCount + 1 else ekf.neesCount
    totalCount := ekf.totalCount + 1
    data :=
      { residualYaw := component residual 0
        residualPitch := component residual 1
        residualDistance := component residual 2
        residualAngle := component residual 3
        nis := nis
        nees := nees
        nisFail := if failed nis then 1 else ekf.data.nisFail
        neesFail := if failed nees then 1 else ekf.data.neesFail
        recentNisFailures := (recentFailures : K) / (recentNisFailures.length : K) } }

/-- The components of the residual that `update` reads exist. -/
structure ReadsResidual (ekf : ExtendedKalmanFilter K n) (z : Fin m → K) (H : Matrix (Fin m) (Fin n) K)
    (R : Matrix (Fin m) (Fin m) K) (h : (Fin n → K) → Fin m → K)
    (zSubtract : (Fin m → K) → (Fin m → K) → Fin m → K) : Prop where
  residualYaw : (ekf.update inverse z H R h zSubtract).data.residualYaw.isSome = true
  residualPitch : (ekf.update inverse z H R h zSubtract).data.residualPitch.isSome = true
  residualDistance : (ekf.update inverse z H R h zSubtract).data.residualDistance.isSome = true
  residualAngle : (ekf.update inverse z H R h zSubtract).data.residualAngle.isSome = true

/-- The matrices that `update` inverts have inverses. -/
structure Inverts (ekf : ExtendedKalmanFilter K n) (z : Fin m → K) (H : Matrix (Fin m) (Fin n) K)
    (R : Matrix (Fin m) (Fin m) K) (h : (Fin n → K) → Fin m → K)
    (zSubtract : (Fin m → K) → (Fin m → K) → Fin m → K) : Prop where
  prior : IsUnit (ekf.innovation H R)
  posterior : IsUnit ((ekf.update inverse z H R h zSubtract).innovation H R)
  covariance : IsUnit (ekf.update inverse z H R h zSubtract).P

variable {inverse} {ekf : ExtendedKalmanFilter K n} {z : Fin m → K} {H : Matrix (Fin m) (Fin n) K}
  {R : Matrix (Fin m) (Fin m) K} {h : (Fin n → K) → Fin m → K} {zSubtract : (Fin m → K) → (Fin m → K) → Fin m → K}

/-- **What is read of the residual asks for a measurement of four components.** -/
theorem readsResidual_iff : ekf.ReadsResidual inverse z H R h zSubtract ↔ 4 ≤ m := by
  constructor
  · exact fun hreads => (component_isSome _ 3).1 hreads.residualAngle
  · intro hm
    refine ⟨?_, ?_, ?_, ?_⟩ <;> refine (component_isSome _ _).2 ?_ <;> omega

end ExtendedKalmanFilter

/-! ## The filter of a tracked target -/

variable [Field K] [LinearOrder K] [FloorRing K] (num : Numerics K)

/-- The filter that a target carries. -/
def TrackedTarget.ekf (target : TrackedTarget K) (stats : FilterStats K) : ExtendedKalmanFilter K 11 where
  toFilterStats := stats
  x := target.x
  P := target.P
  xAdd := xAdd num
  recentNisFailures := target.recentNisFailures

/-- The `R` of `update_ypda`. -/
def Armor.noise (armor : Armor K) : Matrix (Fin 4) (Fin 4) K :=
  let centerYaw := num.atan2 (armor.xyzInWorld 1) (armor.xyzInWorld 0)
  let deltaAngle := limitRad num.toLibm (armor.yprInWorld 0 - centerYaw)
  Matrix.diagonal ![0.004, 0.004, num.log (|deltaAngle| + 1) + 1, num.log (|armor.ypdInWorld 2| + 1) / 200.0 + 0.09]

/-- The `h` of `update_ypda`. -/
def TrackedTarget.observe (target : TrackedTarget K) (id : Nat) (x : Fin 11 → K) : Fin 4 → K :=
  Target.observation num { target.toTarget with x := x } id

/-- `Target::predict(dt)`, of the state and of the covariance. -/
def TrackedTarget.predictBy (target : TrackedTarget K) (dt : K) : TrackedTarget K :=
  { target with
    toTarget := target.toTarget.predictBy num.toLibm dt
    P := transition dt * target.P * (transition dt).transpose + processNoise target.name dt }

theorem predict_eq_predictBy (target : TrackedTarget K) (t : Int) : target.predict num t =
    { target.predictBy num (deltaTime t target.t) with t := t } := rfl

/-- The `f` of `Target::predict`. -/
def TrackedTarget.process (dt : K) (x : Fin 11 → K) : Fin 11 → K :=
  let xPrior := (transition dt).mulVec x
  Function.update xPrior 6 (limitRad num.toLibm (xPrior 6))

omit [LinearOrder K] [FloorRing K] in
theorem transition_mulVec (dt : K) (x : Fin 11 → K) : (transition dt).mulVec x =
    ![x 0 + dt * x 1, x 1, x 2 + dt * x 3, x 3, x 4 + dt * x 5, x 5, x 6 + dt * x 7, x 7, x 8, x 9, x 10] := by
  simp only [transition, Matrix.cons_mulVec, Matrix.cons_dotProduct, Matrix.dotProduct_of_isEmpty, Matrix.empty_mulVec,
    zero_mul, one_mul, zero_add, add_zero]
  rfl

theorem process_eq (dt : K) (x : Fin 11 → K) : TrackedTarget.process num dt x =
    ![x 0 + dt * x 1, x 1, x 2 + dt * x 3, x 3, x 4 + dt * x 5, x 5, limitRad num.toLibm (x 6 + dt * x 7), x 7, x 8, x 9,
      x 10] := by
  unfold TrackedTarget.process
  rw [transition_mulVec]
  funext i
  fin_cases i <;> rfl

/-- **The prediction of a tracked target is the filter's**, from the known speed of an outpost. -/
theorem predictBy_ekf (target : TrackedTarget K) (stats : FilterStats K) (dt : K) :
    let x := Function.update target.x 7 ((target.toTarget.predictBy num.toLibm dt).x 7)
    (target.predictBy num dt).ekf num stats =
      { target.ekf num stats with x := x }.predict (transition dt) (processNoise target.name dt) (TrackedTarget.process num dt) := by
  have hx : (target.predictBy num dt).x =
      TrackedTarget.process num dt (Function.update target.x 7 ((target.toTarget.predictBy num.toLibm dt).x 7)) := by
    obtain ⟨hx, -⟩ := convergened_x target.toTarget
    rw [process_eq]
    unfold TrackedTarget.predictBy Target.predictBy
    simp only [hx]
    rfl
  unfold TrackedTarget.ekf ExtendedKalmanFilter.predict
  rw [hx]
  rfl

/-- **The update of a tracked target is the filter's.** -/
theorem updateYpda_ekf {inverse : ∀ {k : Nat}, Matrix (Fin k) (Fin k) K → Matrix (Fin k) (Fin k) K}
    (hinverse : ∀ M : Matrix (Fin 4) (Fin 4) K, inverse M = num.inverse M) (target : TrackedTarget K)
    (stats : FilterStats K) (armor : Armor K) (id : Nat) :
    let ekf := (target.ekf num stats).update inverse armor.observed (target.toTarget.hJacobian num id) (armor.noise num)
      (target.observe num id) (zSubtract num)
    (target.updateYpda num armor id).ekf num ekf.toFilterStats = ekf := by
  unfold TrackedTarget.ekf TrackedTarget.updateYpda ExtendedKalmanFilter.update ExtendedKalmanFilter.joseph
    ExtendedKalmanFilter.innovation TrackedTarget.observe Armor.noise
  simp only [hinverse, decide_eq_true_eq]

end Vision
end LfSentry
