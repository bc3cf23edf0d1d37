import LfSentry.ExtendedKalmanFilter
/-!
# BuffTarget — the rune as a target (`sp_vision_25/tasks/auto_buff/buff_target.cpp`)

`SmallTarget` turns at a constant speed, `BigTarget` at a speed that is a sine of the time; both observe the centre of the
rune and then the centre of the blade.  What the two classes share is said once, of a filter of `n` components.
-/
namespace LfSentry
namespace Vision

variable {K : Type} {n : Nat}

-- the places of the two filters' states, by one proof that there are some
instance neZeroSmall : NeZero 7 := ⟨by decide⟩

instance neZeroBig : NeZero 10 := ⟨by decide⟩

/-- What a target reads of a `PowerRune`. -/
structure PowerRune (K : Type) where
  ypdInWorld : Fin 3 → K
  yprInWorld : Fin 3 → K
  bladeYpdInWorld : Fin 3 → K

/-! ## Voter -/

structure Voter where
  votes : Int
  deriving DecidableEq, Repr

def Voter.vote [LinearOrder K] (voter : Voter) (angleLast angleNow : K) : Voter :=
  if |voter.votes| > 50 then voter
  else if angleLast > angleNow then ⟨voter.votes - 1⟩
  else ⟨voter.votes + 1⟩

def Voter.clockwise (voter : Voter) : Int := if voter.votes > 0 then 1 else -1

theorem Voter.clockwise_cases (voter : Voter) : voter.clockwise = 1 ∨ voter.clockwise = -1 := by
  unfold Voter.clockwise
  split
  · exact .inl rfl
  · exact .inr rfl

/-! ## Target -/

/-- A `Target` of `auto_buff`.  The last two are the `static` variables of `get_target`. -/
structure BuffTarget (K : Type) (n : Nat) where
  ekf : ExtendedKalmanFilter K n
  lasttime : K
  voter : Voter
  firstIn : Bool
  unsolvable : Bool
  lostCn : Int
  startTimestamp : Option Int

section Geometry

variable [Field K] [LinearOrder K] [FloorRing K] (num : Numerics K)

/-- `Target::Target`; there is no filter before `init`. -/
def BuffTarget.fresh : BuffTarget K n where
  ekf := .ofState 0 0 (· + ·)
  lasttime := 0
  voter := ⟨0⟩
  firstIn := true
  unsolvable := true
  lostCn := 0
  startTimestamp := none

def rotationMatrix (ypr : Fin 3 → K) : Matrix (Fin 3) (Fin 3) K :=
  let roll := ypr 2
  let pitch := ypr 1
  let yaw := ypr 0
  !![num.cos yaw * num.cos pitch, num.cos yaw * num.sin pitch * num.sin roll - num.sin yaw * num.cos roll,
       num.cos yaw * num.sin pitch * num.cos roll + num.sin yaw * num.sin roll;
     num.sin yaw * num.cos pitch, num.sin yaw * num.sin pitch * num.sin roll + num.cos yaw * num.cos roll,
       num.sin yaw * num.sin pitch * num.cos roll - num.cos yaw * num.sin roll;
     -num.sin pitch, num.cos pitch * num.sin roll, num.cos pitch * num.cos roll]

def ypd2xyzJacobian (ypd : Fin 3 → K) : Matrix (Fin 3) (Fin 3) K :=
  let yaw := ypd 0
  let pitch := ypd 1
  let distance := ypd 2
  let dxDyaw := distance * num.cos pitch * -num.sin yaw
  let dyDyaw := distance * num.cos pitch * num.cos yaw
  let dxDpitch := distance * -num.sin pitch * num.cos yaw
  let dyDpitch := distance * -num.sin pitch * num.sin yaw
  let dzDpitch := distance * num.cos pitch
  let dxDdistance := num.cos pitch * num.cos yaw
  let dyDdistance := num.cos pitch * num.sin yaw
  let dzDdistance := num.sin pitch
  !![dxDyaw, dxDpitch, dxDdistance; dyDyaw, dyDpitch, dyDdistance; 0, dzDpitch, dzDdistance]

namespace BuffTarget

variable [NeZero n]

def pointBuff2world (target : BuffTarget K n) (pointInBuff : Fin 3 → K) : Fin 3 → K :=
  if target.unsolvable then ![0, 0, 0]
  else
    let x := target.ekf.x
    let RBuff2world := rotationMatrix num ![x 4, 0, x 5]
    let RYaw := x 0
    let RPitch := x 2
    let RDis := x 3
    RBuff2world.mulVec pointInBuff + ![RDis * num.cos RPitch * num.cos RYaw, RDis * num.cos RPitch * num.sin RYaw,
      RDis * num.sin RPitch]

/-- The centre of a blade. -/
def bladeXyz (target : BuffTarget K n) : Fin 3 → K := target.pointBuff2world num ![0, 0, 0.7]

/-- The `h2` of `update`: where the filter sees the centre of the blade.  It reads the filter and not its argument, which is
the state of the filter wherever `update` calls it. -/
def observeBlade (target : BuffTarget K n) (x : Fin n → K) : Fin 3 → K :=
  xyz2ypd num (bladeXyz num { target with ekf := { target.ekf with x := x } })

/-- `h_jacobian`, from the `H0` of the class. -/
def hJacobianOf (target : BuffTarget K n) (H0 : Matrix (Fin 5) (Fin n) K) : Matrix (Fin 3) (Fin n) K :=
  let x := target.ekf.x
  let HYpd2xyz := ypd2xyzJacobian num ![x 0, x 2, x 3]
  let H1 : Matrix (Fin 5) (Fin 5) K :=
    !![HYpd2xyz 0 0, HYpd2xyz 0 1, HYpd2xyz 0 2, 0, 0;
       HYpd2xyz 1 0, HYpd2xyz 1 1, HYpd2xyz 1 2, 0, 0;
       HYpd2xyz 2 0, HYpd2xyz 2 1, HYpd2xyz 2 2, 0, 0;
       0, 0, 0, 1, 0;
       0, 0, 0, 0, 1]
  let yaw := x 4
  let roll := x 5
  let H2 : Matrix (Fin 3) (Fin 5) K :=
    !![1, 0, 0, 0.7 * num.cos yaw * num.sin roll, 0.7 * num.sin yaw * num.cos roll;
       0, 1, 0, 0.7 * num.sin yaw * num.sin roll, -0.7 * num.cos yaw * num.cos roll;
       0, 0, 1, 0, -0.7 * num.sin roll]
  let H3 := xyz2ypdJacobian num (target.bladeXyz num)
  H3 * H2 * H1 * H0

end BuffTarget

end Geometry

/-! ## What the two classes do alike -/

section Shared

variable [Field K] [LinearOrder K] [FloorRing K] (num : Numerics K)

/-- The components of a sum or of a prediction that are angles, wrapped. -/
def wrapAngles (angles : List (Fin n)) (c : Fin n → K) : Fin n → K :=
  fun i => if i ∈ angles then limitRad num.toLibm (c i) else c i

/-- The `z_subtract2` of `update`. -/
def zSubtractBlade (a b : Fin 3 → K) : Fin 3 → K :=
  ![limitRad num.toLibm (a 0 - b 0), limitRad num.toLibm (a 1 - b 1), a 2 - b 2]

/-- The roll moved to the blade that is seen, where that one is another one. -/
def followBlade (x5 roll : K) : K :=
  if |roll - x5| > num.pi / 12.0 then
    match (List.range 11).find? fun i => decide (|x5 + ((i : K) - 5.0) * 2.0 * num.pi / 5.0 - roll| < num.pi / 5.0) with
    | some i => x5 + ((i : K) - 5.0) * 2.0 * num.pi / 5.0
    | none => x5
  else x5

/-- The `R1` of `update`. -/
def runeNoise : Matrix (Fin 4) (Fin 4) K :=
  !![0.01, 0, 0, 0;
     0, 0.01, 0, 0;
     0, 0, 0.5, 0;
     0, 0, 0, 0.1]

/-- The `R2` of `update`. -/
def bladeNoise : Matrix (Fin 3) (Fin 3) K :=
  !![0.01, 0, 0;
     0, 0.01, 0;
     0, 0, 0.5]

namespace BuffTarget

variable [NeZero n] (inverse : ∀ {k : Nat}, Matrix (Fin k) (Fin k) K → Matrix (Fin k) (Fin k) K)

/-- The filter moved to the blade that is seen, and the vote on the direction. -/
def follow (target : BuffTarget K n) (p : PowerRune K) : BuffTarget K n :=
  let x := Function.update target.ekf.x 5 (followBlade num (target.ekf.x 5) (p.yprInWorld 2))
  { target with ekf := { target.ekf with x := x }, voter := target.voter.vote (x 5) (p.yprInWorld 2) }

/-- The `z1` of `update`. -/
def runeMeasured (p : PowerRune K) : Fin 4 → K :=
  ![p.ypdInWorld 0, p.ypdInWorld 1, p.ypdInWorld 2, p.yprInWorld 2]

/-- The first measurement of `update`: the centre of the rune, and its roll. -/
def updateRune (target : BuffTarget K n) (H1 : Matrix (Fin 4) (Fin n) K) (p : PowerRune K) : BuffTarget K n :=
  { target with
    ekf := target.ekf.update inverse (runeMeasured p) H1 runeNoise (fun x => H1.mulVec x) (zSubtract num) }

/-- The second measurement of `update`: the centre of the blade. -/
def updateBlade (target : BuffTarget K n) (H0 : Matrix (Fin 5) (Fin n) K) (p : PowerRune K) : BuffTarget K n :=
  { target with
    ekf := target.ekf.update inverse p.bladeYpdInWorld (target.hJacobianOf num H0) bladeNoise
      (target.observeBlade num) (zSubtractBlade num) }

end BuffTarget

end Shared

/-! ## SmallTarget -/

/-- `[R_yaw, v_R_yaw, R_pitch, R_dis, yaw, roll, spd]` -/
structure SmallTarget (K : Type) extends BuffTarget K 7

namespace SmallTarget

variable [Field K] [LinearOrder K] [FloorRing K] (num : Numerics K)
  (inverse : ∀ {k : Nat}, Matrix (Fin k) (Fin k) K → Matrix (Fin k) (Fin k) K)

/-- `A_` -/
def transition (dt : K) : Matrix (Fin 7) (Fin 7) K :=
  !![1, dt, 0, 0, 0, 0, 0;
     0, 1, 0, 0, 0, 0, 0;
     0, 0, 1, 0, 0, 0, 0;
     0, 0, 0, 1, 0, 0, 0;
     0, 0, 0, 0, 1, 0, 0;
     0, 0, 0, 0, 0, 1, dt;
     0, 0, 0, 0, 0, 0, 1]

/-- `Q_` -/
def processNoise (dt : K) : Matrix (Fin 7) (Fin 7) K :=
  let v1 : K := 0.001
  let a := dt * dt * dt * dt / 4.0
  let b := dt * dt * dt / 2.0
  let c := dt * dt
  !![a * v1, b * v1, 0, 0, 0, 0, 0;
     b * v1, c * v1, 0, 0, 0, 0, 0;
     0, 0, 0, 0, 0, 0, 0;
     0, 0, 0, 0, 0, 0, 0;
     0, 0, 0, 0, 0, 0, 0;
     0, 0, 0, 0, 0, 0, 0;
     0, 0, 0, 0, 0, 0, 0]

/-- The `f` of `predict`. -/
def process (dt : K) (x : Fin 7 → K) : Fin 7 → K := wrapAngles num [0, 2, 4, 5] ((transition dt).mulVec x)

def predict (target : SmallTarget K) (dt : K) : SmallTarget K :=
  { target with ekf := target.ekf.predict (transition dt) (processNoise dt) (process num dt) }

def smallW : K := num.pi / 3.0

/-- `x_add` -/
def xAdd (a b : Fin 7 → K) : Fin 7 → K := wrapAngles num [0, 2, 4, 5] (a + b)

def init (target : SmallTarget K) (nowtime : K) (p : PowerRune K) : SmallTarget K :=
  let x0 : Fin 7 → K := ![p.ypdInWorld 0, 0, p.ypdInWorld 1, p.ypdInWorld 2, p.yprInWorld 0, p.yprInWorld 2,
    smallW num * target.voter.clockwise]
  let P0 : Matrix (Fin 7) (Fin 7) K := Matrix.diagonal ![10.0, 10.0, 10.0, 10.0, 10.0, 10.0, 1e-2]
  { target with lasttime := nowtime, ekf := .ofState x0 P0 (xAdd num) }

/-- The `H1` of `update`. -/
def runeRows : Matrix (Fin 4) (Fin 7) K :=
  !![1, 0, 0, 0, 0, 0, 0;
     0, 0, 1, 0, 0, 0, 0;
     0, 0, 0, 1, 0, 0, 0;
     0, 0, 0, 0, 0, 1, 0]

/-- The `H0` of `h_jacobian`. -/
def bladeRows : Matrix (Fin 5) (Fin 7) K :=
  !![1, 0, 0, 0, 0, 0, 0;
     0, 0, 1, 0, 0, 0, 0;
     0, 0, 0, 1, 0, 0, 0;
     0, 0, 0, 0, 1, 0, 0;
     0, 0, 0, 0, 0, 1, 0]

def hJacobian (target : SmallTarget K) : Matrix (Fin 3) (Fin 7) K := target.hJacobianOf num bladeRows

/-- `update`, up to its measurements. -/
def prior (target : SmallTarget K) (nowtime : K) (p : PowerRune K) : SmallTarget K :=
  let target : SmallTarget K := { target with toBuffTarget := target.follow num p }
  let x := target.ekf.x
  let x := if target.voter.clockwise * x 6 < 0 then Function.update x 6 (-x 6) else x
  let target : SmallTarget K := { target with ekf := { target.ekf with x := x } }
  target.predict num (nowtime - target.lasttime)

def update (target : SmallTarget K) (nowtime : K) (p : PowerRune K) : SmallTarget K :=
  let measured := ((target.prior num nowtime p).updateRune num inverse runeRows p).updateBlade num inverse bladeRows p
  { measured with lasttime := nowtime }

/-- The target, with a filter. -/
def started (target : SmallTarget K) (nowtime : K) (p : PowerRune K) : SmallTarget K :=
  if target.firstIn then { target.init num nowtime p with unsolvable := true, firstIn := false } else target

/-- `get_target`, up to `update`: the target, with the time and the rune that it is updated with. -/
def enter (target : SmallTarget K) (p : Option (PowerRune K)) (timestamp : Int) : SmallTarget K × Option (K × PowerRune K) :=
  match p with
  | none => ({ target with unsolvable := true, lostCn := target.lostCn + 1 }, none)
  | some p =>
    let startTimestamp := target.startTimestamp.getD timestamp
    let timeGap : K := deltaTime timestamp startTimestamp
    let target : SmallTarget K := { target with startTimestamp := some startTimestamp }
    let target := target.started num timeGap p
    if target.lostCn > 6 then ({ target with unsolvable := true, lostCn := 0, firstIn := true }, none)
    else ({ target with unsolvable := false }, some (timeGap, p))

def getTarget (target : SmallTarget K) (p : Option (PowerRune K)) (timestamp : Int) : SmallTarget K :=
  match target.enter num p timestamp with
  | (target, none) => target
  | (target, some (timeGap, p)) =>
    let target := target.update num inverse timeGap p
    if |target.ekf.x 6| > smallW num + num.pi / 18.0 ∨ |target.ekf.x 6| < smallW num - num.pi / 18.0 then
      { target with unsolvable := true, firstIn := true }
    else target

end SmallTarget

/-! ## BigTarget -/

/-- `[R_yaw, v_R_yaw, R_pitch, R_dis, yaw, roll, spd, a, w, fi]` -/
structure BigTarget (K : Type) extends BuffTarget K 10

namespace BigTarget

variable [Field K] [LinearOrder K] [FloorRing K] (num : Numerics K)
  (inverse : ∀ {k : Nat}, Matrix (Fin k) (Fin k) K → Matrix (Fin k) (Fin k) K)

/-- `A_` -/
def transition (target : BigTarget K) (dt : K) : Matrix (Fin 10) (Fin 10) K :=
  let a := target.ekf.x 7
  let w := target.ekf.x 8
  let fi := target.ekf.x 9
  let t := target.lasttime + dt
  !![1, dt, 0, 0, 0, 0, 0, 0, 0, 0;
     0, 1, 0, 0, 0, 0, 0, 0, 0, 0;
     0, 0, 1, 0, 0, 0, 0, 0, 0, 0;
     0, 0, 0, 1, 0, 0, 0, 0, 0, 0;
     0, 0, 0, 0, 1, 0, 0, 0, 0, 0;
     0, 0, 0, 0, 0, 1, target.voter.clockwise * dt, 0, 0, 0;
     0, 0, 0, 0, 0, 0, 0, num.sin (w * t + fi) - 1, t * a * num.cos (w * t + fi), a * num.cos (w * t + fi);
     0, 0, 0, 0, 0, 0, 0, 1, 0, 0;
     0, 0, 0, 0, 0, 0, 0, 0, 1, 0;
     0, 0, 0, 0, 0, 0, 0, 0, 0, 1]

/-- `Q_` -/
def processNoise (dt : K) : Matrix (Fin 10) (Fin 10) K :=
  let v1 : K := 0.9
  let a1 := dt * dt * dt * dt / 4.0
  let b1 := dt * dt * dt / 2.0
  let c1 := dt * dt
  !![a1 * v1, b1 * v1, 0, 0, 0, 0, 0, 0, 0, 0;
     b1 * v1, c1 * v1, 0, 0, 0, 0, 0, 0, 0, 0;
     0, 0, 0, 0, 0, 0, 0, 0, 0, 0;
     0, 0, 0, 0, 0, 0, 0, 0, 0, 0;
     0, 0, 0, 0, 0, 0, 0, 0, 0, 0;
     0, 0, 0, 0, 0, 0.09, 0, 0, 0, 0;
     0, 0, 0, 0, 0, 0, 0.5, 0, 0, 0;
     0, 0, 0, 0, 0, 0, 0, 0, 0, 0;
     0, 0, 0, 0, 0, 0, 0, 0, 0, 0;
     0, 0, 0, 0, 0, 0, 0, 0, 0, 1]

/-- The `f` of `predict`, from the values of `a`, `w` and `fi` that it captures. -/
def process (target : BigTarget K) (a w fi dt : K) (x : Fin 10 → K) : Fin 10 → K :=
  let t := target.lasttime + dt
  let roll := x 5 + target.voter.clockwise *
    (-a / w * num.cos (w * t + fi) + a / w * num.cos (w * target.lasttime + fi) + (2.09 - a) * dt)
  let spd := a * num.sin (w * t + fi) + 2.09 - a
  ![limitRad num.toLibm (x 0 + dt * x 1), x 1, limitRad num.toLibm (x 2), x 3, limitRad num.toLibm (x 4),
    limitRad num.toLibm roll, spd, x 7, x 8, x 9]

def predict (target : BigTarget K) (dt : K) : BigTarget K :=
  let x := target.ekf.x
  { target with
    ekf := target.ekf.predict (target.transition num dt) (processNoise dt) (target.process num (x 7) (x 8) (x 9) dt) }

/-- `x_add` -/
def xAdd (a b : Fin 10 → K) : Fin 10 → K := wrapAngles num [0, 2, 4, 5, 9] (a + b)

def init (target : BigTarget K) (nowtime : K) (p : PowerRune K) : BigTarget K :=
  let x0 : Fin 10 → K := ![p.ypdInWorld 0, 0, p.ypdInWorld 1, p.ypdInWorld 2, p.yprInWorld 0, p.yprInWorld 2, 1.1775,
    0.9125, 1.942, 0]
  let P0 : Matrix (Fin 10) (Fin 10) K :=
    Matrix.diagonal ![10.0, 10.0, 10.0, 10.0, 10.0, 10.0, 100.0, 10.0, 10.0, 400.0]
  { target with lasttime := nowtime, unsolvable := true, ekf := .ofState x0 P0 (xAdd num) }

/-- The `H1` of `update`. -/
def runeRows : Matrix (Fin 4) (Fin 10) K :=
  !![1, 0, 0, 0, 0, 0, 0, 0, 0, 0;
     0, 0, 1, 0, 0, 0, 0, 0, 0, 0;
     0, 0, 0, 1, 0, 0, 0, 0, 0, 0;
     0, 0, 0, 0, 0, 1, 0, 0, 0, 0]

/-- The `H0` of `h_jacobian`. -/
def bladeRows : Matrix (Fin 5) (Fin 10) K :=
  !![1, 0, 0, 0, 0, 0, 0, 0, 0, 0;
     0, 0, 1, 0, 0, 0, 0, 0, 0, 0;
     0, 0, 0, 1, 0, 0, 0, 0, 0, 0;
     0, 0, 0, 0, 1, 0, 0, 0, 0, 0;
     0, 0, 0, 0, 0, 1, 0, 0, 0, 0]

def hJacobian (target : BigTarget K) : Matrix (Fin 3) (Fin 10) K := target.hJacobianOf num bladeRows

/-- `update`, up to its measurements. -/
def prior (target : BigTarget K) (nowtime : K) (p : PowerRune K) : BigTarget K :=
  let target : BigTarget K := { target with toBuffTarget := target.follow num p }
  target.predict num (nowtime - target.lasttime)

/-- `update`; the fit of the speed after the measurements changes nothing of the filter. -/
def update (target : BigTarget K) (nowtime : K) (p : PowerRune K) : BigTarget K :=
  let measured := ((target.prior num nowtime p).updateRune num inverse runeRows p).updateBlade num inverse bladeRows p
  { measured with lasttime := nowtime, unsolvable := false }

/-- The target, with a filter. -/
def started (target : BigTarget K) (nowtime : K) (p : PowerRune K) : BigTarget K :=
  if target.firstIn then { target.init num nowtime p with unsolvable := true, firstIn := false } else target

/-- `get_target`, up to `update`: the target, with the time and the rune that it is updated with. -/
def enter (target : BigTarget K) (p : Option (PowerRune K)) (timestamp : Int) : BigTarget K × Option (K × PowerRune K) :=
  match p with
  | none => ({ target with unsolvable := true, lostCn := target.lostCn + 1 }, none)
  | some p =>
    let startTimestamp := target.startTimestamp.getD timestamp
    let timeGap : K := deltaTime timestamp startTimestamp
    let target : BigTarget K := { target with startTimestamp := some startTimestamp }
    let target := target.started num timeGap p
    if target.lostCn > 6 then ({ target with unsolvable := true, lostCn := 0, firstIn := true }, none)
    else ({ target with unsolvable := false }, some (timeGap, p))

def getTarget (target : BigTarget K) (p : Option (PowerRune K)) (timestamp : Int) : BigTarget K :=
  match target.enter num p timestamp with
  | (target, none) => target
  | (target, some (timeGap, p)) =>
    let target := target.update num inverse timeGap p
    if target.ekf.x 7 > 1.045 * 1.5 ∨ target.ekf.x 7 < 0.78 / 1.5 ∨ target.ekf.x 8 > 2.0 * 1.5 ∨
        target.ekf.x 8 < 1.884 / 1.5 then
      { target with firstIn := true }
    else target

end BigTarget

end Vision
end LfSentry
