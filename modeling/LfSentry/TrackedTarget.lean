import Mathlib.LinearAlgebra.Matrix.Notation
import Mathlib.Data.List.Sort
import LfSentry.Aimer
/-!
# TrackedTarget — the target a tracker holds and its filter (`sp_vision_25/tasks/auto_aim/target.cpp`)

What `Aimer` reads of a target, with the covariance of its extended Kalman filter, the record of its recent NIS tests and
the counters of `diverged` and `update`.  The library's logarithm and power and Eigen's inverse are parameters.
-/
namespace LfSentry
namespace Vision

variable {K : Type}

-- the places of a filter's state and of a position, by one proof that there are some
instance neZeroState : NeZero 11 := ⟨by decide⟩

instance neZeroPosition : NeZero 3 := ⟨by decide⟩

/-! ## Armors -/

inductive Color
  | red | blue | extinguish | purple
  deriving DecidableEq, Repr

inductive ArmorType
  | big | small
  deriving DecidableEq, Repr

inductive ArmorPriority
  | first | second | third | forth | fifth
  deriving DecidableEq, Repr

def ArmorPriority.val : ArmorPriority → Nat
  | .first => 1
  | .second => 2
  | .third => 3
  | .forth => 4
  | .fifth => 5

instance : LT ArmorPriority := ⟨fun a b => a.val < b.val⟩

instance (a b : ArmorPriority) : Decidable (a < b) := inferInstanceAs (Decidable (a.val < b.val))

theorem ArmorPriority.lt_iff {a b : ArmorPriority} : a < b ↔ a.val < b.val := Iff.rfl

/-- A detected `Armor`; the last three are what `Solver::solve` makes of its points. -/
structure Armor (K : Type) where
  color : Color
  name : ArmorName
  type : ArmorType
  priority : ArmorPriority
  center : K × K
  centerNorm : K × K
  xyzInWorld : Fin 3 → K
  yprInWorld : Fin 3 → K
  ypdInWorld : Fin 3 → K

/-- The position and the attitude that `Solver::solve` finds for an armor. -/
structure Pose (K : Type) where
  xyz : Fin 3 → K
  ypr : Fin 3 → K

/-- A balance robot: a big armor of 3, 4 or 5. -/
def Armor.isBalance (armor : Armor K) : Bool :=
  armor.type = .big && (armor.name = .three || armor.name = .four || armor.name = .five)

variable [Field K] [LinearOrder K] [FloorRing K]

/-- The C library and Eigen, as far as a target's filter uses them. -/
structure Numerics (K : Type) extends Libm K where
  log : K → K
  pow : K → K → K
  inverse : Matrix (Fin 4) (Fin 4) K → Matrix (Fin 4) (Fin 4) K

variable (num : Numerics K)

def xyz2ypd (xyz : Fin 3 → K) : Fin 3 → K :=
  let x := xyz 0
  let y := xyz 1
  let z := xyz 2
  ![num.atan2 y x, num.atan2 z (num.sqrt (x * x + y * y)), num.sqrt (x * x + y * y + z * z)]

def xyz2ypdJacobian (xyz : Fin 3 → K) : Matrix (Fin 3) (Fin 3) K :=
  let x := xyz 0
  let y := xyz 1
  let z := xyz 2
  let dyawDx := -y / (x * x + y * y)
  let dyawDy := x / (x * x + y * y)
  let dpitchDx := -(x * z) / ((z * z / (x * x + y * y) + 1) * num.pow (x * x + y * y) 1.5)
  let dpitchDy := -(y * z) / ((z * z / (x * x + y * y) + 1) * num.pow (x * x + y * y) 1.5)
  let dpitchDz := 1 / ((z * z / (x * x + y * y) + 1) * num.pow (x * x + y * y) 0.5)
  let ddistanceDx := x / num.pow (x * x + y * y + z * z) 0.5
  let ddistanceDy := y / num.pow (x * x + y * y + z * z) 0.5
  let ddistanceDz := z / num.pow (x * x + y * y + z * z) 0.5
  !![dyawDx, dyawDy, 0; dpitchDx, dpitchDy, dpitchDz; ddistanceDx, ddistanceDy, ddistanceDz]

def Armor.solved (armor : Armor K) (pose : Pose K) : Armor K :=
  { armor with xyzInWorld := pose.xyz, yprInWorld := pose.ypr, ypdInWorld := xyz2ypd num pose.xyz }

/-! ## The target -/

/-- A `Target`; `P` is the covariance of its filter. -/
structure TrackedTarget (K : Type) extends Target K where
  armorType : ArmorType
  priority : ArmorPriority
  lastId : Nat
  isSwitch : Bool
  switchCount : Int
  divergedBadStreak : Nat
  P : Matrix (Fin 11) (Fin 11) K
  recentNisFailures : List Nat

/-- `Target::Target`, from a solved armor. -/
def TrackedTarget.ofArmor (armor : Armor K) (t : Int) (radius : K) (armorNum : Nat) (P0Dig : Fin 11 → K) :
    TrackedTarget K where
  name := armor.name
  jumped := false
  armorNum := armorNum
  updateCount := 0
  isConverged := false
  x :=
    let centerX := armor.xyzInWorld 0 + radius * num.cos (armor.yprInWorld 0)
    let centerY := armor.xyzInWorld 1 + radius * num.sin (armor.yprInWorld 0)
    ![centerX, 0, centerY, 0, armor.xyzInWorld 2, 0, armor.yprInWorld 0, 0, radius, 0, 0]
  t := t
  armorType := armor.type
  priority := armor.priority
  lastId := 0
  isSwitch := false
  switchCount := 0
  divergedBadStreak := 0
  P := Matrix.diagonal P0Dig
  recentNisFailures := [0]

/-- The matrix `F` of `Target::predict`. -/
def transition (dt : K) : Matrix (Fin 11) (Fin 11) K :=
  !![1, dt, 0, 0, 0, 0, 0, 0, 0, 0, 0;
     0, 1, 0, 0, 0, 0, 0, 0, 0, 0, 0;
     0, 0, 1, dt, 0, 0, 0, 0, 0, 0, 0;
     0, 0, 0, 1, 0, 0, 0, 0, 0, 0, 0;
     0, 0, 0, 0, 1, dt, 0, 0, 0, 0, 0;
     0, 0, 0, 0, 0, 1, 0, 0, 0, 0, 0;
     0, 0, 0, 0, 0, 0, 1, dt, 0, 0, 0;
     0, 0, 0, 0, 0, 0, 0, 1, 0, 0, 0;
     0, 0, 0, 0, 0, 0, 0, 0, 1, 0, 0;
     0, 0, 0, 0, 0, 0, 0, 0, 0, 1, 0;
     0, 0, 0, 0, 0, 0, 0, 0, 0, 0, 1]

/-- The matrix `Q` of `Target::predict`. -/
def processNoise (name : ArmorName) (dt : K) : Matrix (Fin 11) (Fin 11) K :=
  let v1 : K := if name = .outpost then 10.0 else 100.0
  let v2 : K := if name = .outpost then 0.1 else 400.0
  let a := dt * dt * dt * dt / 4.0
  let b := dt * dt * dt / 2.0
  let c := dt * dt
  !![a * v1, b * v1, 0, 0, 0, 0, 0, 0, 0, 0, 0;
     b * v1, c * v1, 0, 0, 0, 0, 0, 0, 0, 0, 0;
     0, 0, a * v1, b * v1, 0, 0, 0, 0, 0, 0, 0;
     0, 0, b * v1, c * v1, 0, 0, 0, 0, 0, 0, 0;
     0, 0, 0, 0, a * v1, b * v1, 0, 0, 0, 0, 0;
     0, 0, 0, 0, b * v1, c * v1, 0, 0, 0, 0, 0;
     0, 0, 0, 0, 0, 0, a * v2, b * v2, 0, 0, 0;
     0, 0, 0, 0, 0, 0, b * v2, c * v2, 0, 0, 0;
     0, 0, 0, 0, 0, 0, 0, 0, 0, 0, 0;
     0, 0, 0, 0, 0, 0, 0, 0, 0, 0, 0;
     0, 0, 0, 0, 0, 0, 0, 0, 0, 0, 0]

/-- `Target::predict`, of the state and of the covariance. -/
def TrackedTarget.predict (target : TrackedTarget K) (t : Int) : TrackedTarget K :=
  let dt : K := deltaTime t target.t
  { target with
    toTarget := target.toTarget.predict num.toLibm t
    P := transition dt * target.P * (transition dt).transpose + processNoise target.name dt }

/-- The Jacobian of the observation of armor `id`, `Target::h_jacobian`. -/
def Target.hJacobian (target : Target K) (id : Nat) : Matrix (Fin 4) (Fin 11) K :=
  let angle := limitRad num.toLibm (target.x 6 + id * 2.0 * num.pi / target.armorNum)
  let useSecondRadius := target.armorNum = 4 ∧ (id = 1 ∨ id = 3)
  let r := if useSecondRadius then target.x 8 + target.x 9 else target.x 8
  let dxDa := r * num.sin angle
  let dyDa := -r * num.cos angle
  let dxDr := -num.cos angle
  let dyDr := -num.sin angle
  let dxDl := if useSecondRadius then -num.cos angle else 0
  let dyDl := if useSecondRadius then -num.sin angle else 0
  let dzDl : K := if target.name = .outpost ∧ target.armorNum = 3 then if id = 1 then 1 else 0 else 0
  let dzDh : K :=
    if target.name = .outpost ∧ target.armorNum = 3 then if id = 2 then 1 else 0
    else if useSecondRadius then 1 else 0
  let HArmorXyza : Matrix (Fin 4) (Fin 11) K :=
    !![1, 0, 0, 0, 0, 0, dxDa, 0, dxDr, dxDl, 0;
       0, 0, 1, 0, 0, 0, dyDa, 0, dyDr, dyDl, 0;
       0, 0, 0, 0, 1, 0, 0, 0, 0, dzDl, dzDh;
       0, 0, 0, 0, 0, 0, 1, 0, 0, 0, 0]
  let armorXyz := target.armorXyza num.toLibm id
  let HArmorYpd := xyz2ypdJacobian num ![armorXyz.x, armorXyz.y, armorXyz.z]
  let HArmorYpda : Matrix (Fin 4) (Fin 4) K :=
    !![HArmorYpd 0 0, HArmorYpd 0 1, HArmorYpd 0 2, 0;
       HArmorYpd 1 0, HArmorYpd 1 1, HArmorYpd 1 2, 0;
       HArmorYpd 2 0, HArmorYpd 2 1, HArmorYpd 2 2, 0;
       0, 0, 0, 1]
  HArmorYpda * HArmorXyza

def xyzaYpd (xyza : Xyza K) : Fin 3 → K := xyz2ypd num ![xyza.x, xyza.y, xyza.z]

/-- The observation of armor `id` that the state predicts: the function `h` of `update_ypda`. -/
def Target.observation (target : Target K) (id : Nat) : Fin 4 → K :=
  let armor := target.armorXyza num.toLibm id
  let ypd := xyzaYpd num armor
  ![ypd 0, ypd 1, ypd 2, armor.angle]

def xAdd (a b : Fin 11 → K) : Fin 11 → K := Function.update (a + b) 6 (limitRad num.toLibm (a 6 + b 6))

def zSubtract (a b : Fin 4 → K) : Fin 4 → K :=
  ![limitRad num.toLibm (a 0 - b 0), limitRad num.toLibm (a 1 - b 1), a 2 - b 2, limitRad num.toLibm (a 3 - b 3)]

/-- What an armor's pose gives the filter to observe. -/
def Armor.observed (armor : Armor K) : Fin 4 → K :=
  ![armor.ypdInWorld 0, armor.ypdInWorld 1, armor.ypdInWorld 2, armor.yprInWorld 0]

/-- `recent_nis_failures` with one more test, at most 100 of them. -/
def pushNis (recent : List Nat) (failed : Nat) : List Nat :=
  let recent := recent ++ [failed]
  if recent.length > 100 then recent.tail else recent

/-- `Target::update_ypda`, with the filter's `update`. -/
def TrackedTarget.updateYpda (target : TrackedTarget K) (armor : Armor K) (id : Nat) : TrackedTarget K :=
  let H := target.toTarget.hJacobian num id
  let centerYaw := num.atan2 (armor.xyzInWorld 1) (armor.xyzInWorld 0)
  let deltaAngle := limitRad num.toLibm (armor.yprInWorld 0 - centerYaw)
  let R : Matrix (Fin 4) (Fin 4) K :=
    Matrix.diagonal ![0.004, 0.004, num.log (|deltaAngle| + 1) + 1, num.log (|armor.ypdInWorld 2| + 1) / 200.0 + 0.09]
  let z := armor.observed
  let gain := target.P * H.transpose * num.inverse (H * target.P * H.transpose + R)
  let P := (1 - gain * H) * target.P * (1 - gain * H).transpose + gain * R * gain.transpose
  let x := xAdd num target.x (gain.mulVec (zSubtract num z (target.toTarget.observation num id)))
  let posterior : Target K := { target.toTarget with x := x }
  let residual := zSubtract num z (posterior.observation num id)
  let S := H * P * H.transpose + R
  let nis := dotProduct residual ((num.inverse S).mulVec residual)
  { target with
    toTarget := posterior
    P := P
    recentNisFailures := pushNis target.recentNisFailures (if nis > 0.711 then 1 else 0) }

def TrackedTarget.angleError (target : TrackedTarget K) (armor : Armor K) (xyza : Xyza K) : K :=
  let ypd := xyzaYpd num xyza
  let angleError := |limitRad num.toLibm (armor.yprInWorld 0 - xyza.angle)| +
    |limitRad num.toLibm (armor.ypdInWorld 0 - ypd 0)|
  if target.name = .outpost then angleError + |limitRad num.toLibm (armor.ypdInWorld 1 - ypd 1)| else angleError

/-- The predicted armor that `Target::update` matches: the best of the three nearest. -/
def TrackedTarget.matchId (target : TrackedTarget K) (armor : Armor K) : Nat :=
  let xyzaList := target.toTarget.armorXyzaList num.toLibm
  let xyzaIList := (List.range target.armorNum).map fun i => (armorAt xyzaList i, i)
  let sorted := xyzaIList.insertionSort fun a b => ¬ xyzaYpd num b.1 2 < xyzaYpd num a.1 2
  ((sorted.take 3).foldl (fun (best : Nat × K) p =>
    let angleError := target.angleError num armor p.1
    if |angleError| < |best.2| then (p.2, angleError) else best) (0, 1e10)).1

def TrackedTarget.update (target : TrackedTarget K) (armor : Armor K) : TrackedTarget K :=
  let id := target.matchId num armor
  let jumped := if id ≠ 0 then true else target.jumped
  -- a slow target is not taken to have switched its armor
  let stays := id ≠ target.lastId ∧ target.name ≠ .outpost ∧ |target.x 7| < 0.8
  let isSwitch := if stays then false else decide (id ≠ target.lastId)
  let id := if stays then target.lastId else id
  let switchCount := if isSwitch then target.switchCount + 1 else target.switchCount
  let id := if target.name = .outpost ∧ target.armorNum = 3 then 2 else id
  let toTarget : Target K := { target.toTarget with jumped := jumped, updateCount := target.updateCount + 1 }
  { target with toTarget := toTarget, isSwitch := isSwitch, switchCount := switchCount, lastId := id }.updateYpda num
    armor id

/-- `Target::diverged`: three bad frames in a row. -/
def TrackedTarget.diverged (target : TrackedTarget K) : TrackedTarget K × Bool :=
  if target.toTarget.divergedRaw = false then ({ target with divergedBadStreak := 0 }, false)
  else ({ target with divergedBadStreak := target.divergedBadStreak + 1 }, decide (3 ≤ target.divergedBadStreak + 1))

def TrackedTarget.convergened (target : TrackedTarget K) : TrackedTarget K :=
  { target with toTarget := target.toTarget.convergened }

/-- The bad-convergence check of `track`: 0.4 of the window of NIS tests failed. -/
def TrackedTarget.badConverge (target : TrackedTarget K) : Bool :=
  decide (40 ≤ target.recentNisFailures.foldl (· + ·) 0)

/-! ## What an update leaves -/

@[simp] theorem predict_name (target : TrackedTarget K) (t : Int) : (target.predict num t).name = target.name := by
  unfold TrackedTarget.predict Target.predict Target.predictBy Target.convergened
  dsimp only
  split <;> split <;> rfl

@[simp] theorem update_name (target : TrackedTarget K) (armor : Armor K) : (target.update num armor).name = target.name :=
  rfl

omit [FloorRing K] in
@[simp] theorem diverged_name (target : TrackedTarget K) : (target.diverged).1.name = target.name := by
  unfold TrackedTarget.diverged
  split <;> rfl

omit [FloorRing K] in
@[simp] theorem convergened_name (target : Target K) : target.convergened.name = target.name := by
  unfold Target.convergened
  dsimp only
  split <;> split <;> rfl

omit [FloorRing K] in
theorem convergened_of_not {target : TrackedTarget K} (h : target.convergened.isConverged = false) :
    target.convergened = target := by
  have htarget : target.toTarget.convergened = target.toTarget := by
    change target.toTarget.convergened.isConverged = false at h
    unfold Target.convergened at h ⊢
    dsimp only at h ⊢
    split at h
    · split at h <;> cases h
    · split at h
      · cases h
      · rename_i h1 h2
        rw [if_neg h1, if_neg h2]
  unfold TrackedTarget.convergened
  rw [htarget]

/-! ## A target at rest, observed exactly -/

omit [FloorRing K] in
theorem convergened_x (target : Target K) : target.convergened.x = target.x ∧
    target.convergened.armorNum = target.armorNum ∧ target.convergened.jumped = target.jumped ∧
    target.convergened.updateCount = target.updateCount := by
  unfold Target.convergened
  dsimp only
  split <;> split <;> exact ⟨rfl, rfl, rfl, rfl⟩

omit [FloorRing K] in
/-- Convergence and divergence are asked of the same state. -/
theorem convergened_diverged (target : TrackedTarget K) : target.convergened.diverged.2 = target.diverged.2 := by
  obtain ⟨hx, hnum, -⟩ := convergened_x target.toTarget
  have hraw : target.convergened.toTarget.divergedRaw = target.toTarget.divergedRaw := by
    unfold TrackedTarget.convergened Target.divergedRaw
    dsimp only
    rw [hx, hnum]
  unfold TrackedTarget.diverged
  rw [hraw]
  split <;> rfl

omit [FloorRing K] in
theorem diverged_x (target : TrackedTarget K) : (target.diverged).1.x = target.x := by
  unfold TrackedTarget.diverged
  split <;> rfl

theorem predict_keeps (target : TrackedTarget K) (t : Int) : (target.predict num t).armorNum = target.armorNum ∧
    (target.predict num t).jumped = target.jumped ∧ (target.predict num t).updateCount = target.updateCount := by
  obtain ⟨-, hkeeps⟩ := convergened_x target.toTarget
  unfold TrackedTarget.predict Target.predict Target.predictBy
  exact hkeeps

/-- **A prediction leaves a target that does not move, unless it is an outpost.** -/
theorem predict_of_still {target : Target K} (hname : target.name ≠ .outpost) (h1 : target.x 1 = 0) (h3 : target.x 3 = 0)
    (h5 : target.x 5 = 0) (h7 : target.x 7 = 0) (hangle : limitRad num.toLibm (target.x 6) = target.x 6) (t : Int) :
    (target.predict num.toLibm t).x = target.x := by
  obtain ⟨hx, -⟩ := convergened_x target
  have hn : target.convergened.name ≠ .outpost := by rw [convergened_name]; exact hname
  unfold Target.predict Target.predictBy
  dsimp only
  rw [if_neg fun h => hn h.2.1, hx]
  funext i
  fin_cases i <;> simp [h1, h3, h5, h7, hangle]

/-- **What the filter observes exactly leaves its state.** -/
theorem updateYpda_of_exact {target : TrackedTarget K} {armor : Armor K} {id : Nat}
    (hzero : limitRad num.toLibm 0 = 0) (hangle : limitRad num.toLibm (target.x 6) = target.x 6)
    (hz : armor.observed = target.toTarget.observation num id) :
    (target.updateYpda num armor id).toTarget = target.toTarget := by
  have hresidual : zSubtract num armor.observed (target.toTarget.observation num id) = 0 := by
    rw [hz]
    funext i
    fin_cases i <;> simp [zSubtract, hzero]
  have hadd : xAdd num target.x 0 = target.x := by
    funext i
    unfold xAdd
    by_cases hi : i = 6
    · rw [hi, Function.update_self, Pi.zero_apply, add_zero, hangle]
    · rw [Function.update_of_ne hi, add_zero]
  unfold TrackedTarget.updateYpda
  dsimp only
  rw [hresidual, Matrix.mulVec_zero, hadd]

end Vision
end LfSentry
