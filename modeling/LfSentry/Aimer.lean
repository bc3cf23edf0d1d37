import Mathlib.Algebra.Order.Floor.Ring
import Mathlib.Algebra.Order.Field.Basic
import Mathlib.Data.Fin.VecNotation
import Mathlib.Tactic.Linarith
import Mathlib.Tactic.Ring
import LfSentry.Command
import LfSentry.Turns
/-!
# Aimer — where to aim at a tracked target (`sp_vision_25/tasks/auto_aim`)

`Target::predict`, `Trajectory`, `Aimer::choose_aim_point` and `Aimer::aim`, over an ordered field with the functions of
the C library as a parameter: arithmetic is exact, times are nanoseconds.  `aim` either finds a trajectory and answers an
aimed command, or answers `{false, false, 0, 0}` (`aim_cases`).
-/
namespace LfSentry
namespace Vision

/-- The functions of the C library, over the numbers of `K`. -/
structure Libm (K : Type) where
  pi : K
  sqrt : K → K
  atan : K → K
  cos : K → K
  sin : K → K
  atan2 : K → K → K

variable {K : Type} [Field K] [LinearOrder K] [FloorRing K] (lib : Libm K)

/-! ## Angles and times -/

/-- A whole turn. -/
def Libm.turn {K : Type} [Field K] (lib : Libm K) : K := 2 * lib.pi

/-- `limit_rad`: the turns of its two loops are taken off at once. -/
def limitRad (angle : K) : K := angle - 2 * lib.pi * ⌈(angle - lib.pi) / (2 * lib.pi)⌉

/-- A conversion to `int`, which cuts towards zero. -/
def toInt (x : K) : Int := if 0 ≤ x then ⌊x⌋ else ⌈x⌉

def deltaTime (a b : Int) : K := ((a - b : Int) : K) / 10 ^ 9

/-- `microseconds(int(dt * 1e6))`. -/
def microseconds (dt : K) : Int := 1000 * toInt (dt * 10 ^ 6)

section Loops

open AddCommGroup

variable {lib}

theorem limitRad_modEq (angle : K) : limitRad lib angle ≡ angle [PMOD lib.turn] := Turns.sub_turns_modEq _ _ _

variable [IsStrictOrderedRing K]

theorem limitRad_inj (hpi : 0 < lib.pi) (a b : K) : limitRad lib a = limitRad lib b ↔ a ≡ b [PMOD 2 * lib.pi] := by
  have htwo : 0 < 2 * lib.pi := by linarith
  rw [limitRad, limitRad, Turns.sub_ceil_eq_toIocMod htwo, Turns.sub_ceil_eq_toIocMod htwo, toIocMod_eq_toIocMod,
    modEq_iff_zsmul']

theorem abs_limitRad_le_pi (hpi : 0 < lib.pi) (a : K) : |limitRad lib a| ≤ lib.pi := by
  have htwo : 0 < 2 * lib.pi := by linarith
  have hmem := toIocMod_mem_Ioc htwo (-lib.pi) a
  rw [← Turns.sub_ceil_eq_toIocMod htwo, Set.mem_Ioc] at hmem
  rw [limitRad, abs_le]
  exact ⟨hmem.1.le, by linarith [hmem.2]⟩

/-- **Of the angles of a direction the wrapped one is the least.** -/
theorem abs_limitRad_le (hpi : 0 < lib.pi) (a : K) (n : ℤ) : |limitRad lib a| ≤ |a + 2 * lib.pi * n| := by
  have hle := Turns.abs_le_abs_add_turns (abs_limitRad_le_pi hpi a) (n + ⌈(a - lib.pi) / (2 * lib.pi)⌉)
  rw [Int.cast_add, mul_add, limitRad, add_comm (2 * lib.pi * (n : K)), ← add_assoc, sub_add_cancel] at hle
  exact hle

/-- A sum is wrapped as well with a part of it wrapped. -/
theorem limitRad_limitRad_add (hpi : 0 < lib.pi) (a b : K) : limitRad lib (limitRad lib a + b) = limitRad lib (a + b) :=
  (limitRad_inj hpi _ _).2 ((limitRad_modEq a).add_right b)

theorem limitRad_limitRad (hpi : 0 < lib.pi) (a : K) : limitRad lib (limitRad lib a) = limitRad lib a := by
  have h := limitRad_limitRad_add hpi a 0
  rwa [add_zero, add_zero] at h

/-- Within its range `limit_rad` enters neither loop. -/
theorem limitRad_of_mem (hpi : 0 < lib.pi) {angle : K} (hlo : -lib.pi < angle) (hhi : angle ≤ lib.pi) :
    limitRad lib angle = angle := by
  have hceil : ⌈(angle - lib.pi) / (2 * lib.pi)⌉ = 0 := by
    rw [Int.ceil_eq_iff, Int.cast_zero, lt_div_iff₀ (by linarith), div_le_iff₀ (by linarith)]
    constructor <;> linarith
  rw [limitRad, hceil, Int.cast_zero, mul_zero, sub_zero]

theorem limitRad_sub_two_pi (hpi : 0 < lib.pi) (angle : K) :
    limitRad lib (angle - 2 * lib.pi) = limitRad lib angle := by
  have hturn : (angle - 2 * lib.pi - lib.pi) / (2 * lib.pi) = (angle - lib.pi) / (2 * lib.pi) - 1 := by
    rw [sub_right_comm, sub_div, div_self (by linarith)]
  rw [limitRad, limitRad, hturn, Int.ceil_sub_one, Int.cast_sub, Int.cast_one]
  ring

/-- **`limit_rad` meets the equation of its two loops.** -/
theorem limitRad_loops (hpi : 0 < lib.pi) (angle : K) : limitRad lib angle =
    if angle > lib.pi then limitRad lib (angle - 2 * lib.pi)
    else if angle ≤ -lib.pi then limitRad lib (angle + 2 * lib.pi)
    else angle := by
  by_cases hhi : angle > lib.pi
  · rw [if_pos hhi, limitRad_sub_two_pi hpi]
  · rw [if_neg hhi]
    by_cases hlo : angle ≤ -lib.pi
    · rw [if_pos hlo, ← limitRad_sub_two_pi hpi (angle + 2 * lib.pi), add_sub_cancel_right]
    · rw [if_neg hlo]
      exact limitRad_of_mem hpi (not_le.1 hlo) (not_lt.1 hhi)

end Loops

/-! ## Target -/

inductive ArmorName
  | one | two | three | four | five | sentry | outpost | base | notArmor
  deriving DecidableEq, Repr

/-- A `Target` as far as an aim reads it; `x` is the state of its filter
`x vx y vy z vz a w r l h`. -/
structure Target (K : Type) where
  name : ArmorName
  jumped : Bool
  armorNum : Nat
  updateCount : Int
  isConverged : Bool
  x : Fin 11 → K
  t : Int

structure Xyza (K : Type) where
  x : K
  y : K
  z : K
  angle : K

def Target.divergedRaw (target : Target K) : Bool :=
  let rOk := decide (target.x 8 > 5 / 100) && decide (target.x 8 < 5 / 10)
  if target.armorNum ≠ 4 then !rOk
  else
    let r2Ok := decide (target.x 8 + target.x 9 > 5 / 100) && decide (target.x 8 + target.x 9 < 5 / 10)
    !(rOk && r2Ok)

/-- `Target::convergened`; its answer is the field. -/
def Target.convergened (target : Target K) : Target K :=
  let target := if target.name ≠ .outpost ∧ target.updateCount > 3 ∧ target.divergedRaw = false then
      { target with isConverged := true }
    else target
  if target.name = .outpost ∧ target.updateCount > 10 ∧ target.divergedRaw = false then
    { target with isConverged := true }
  else target

/-- `Target::predict(dt)`, of the state. -/
def Target.predictBy (target : Target K) (dt : K) : Target K :=
  let target := target.convergened
  -- a converged outpost turns at its known speed
  let w := if target.isConverged = true ∧ target.name = .outpost ∧ |target.x 7| > 2 then
      if target.x 7 > 0 then 251 / 100 else -251 / 100
    else target.x 7
  { target with
    x := ![target.x 0 + dt * target.x 1, target.x 1, target.x 2 + dt * target.x 3, target.x 3,
      target.x 4 + dt * target.x 5, target.x 5, limitRad lib (target.x 6 + dt * w), w, target.x 8, target.x 9,
      target.x 10] }

def Target.predict (target : Target K) (t : Int) : Target K :=
  { target.predictBy lib (deltaTime t target.t) with t := t }

/-- One armor of `Target::armor_xyza_list`: its yaw, and `h_armor_xyz`. -/
def Target.armorXyza (target : Target K) (id : Nat) : Xyza K :=
  let angle := limitRad lib (target.x 6 + id * 2 * lib.pi / target.armorNum)
  let useSecondRadius := target.armorNum = 4 ∧ (id = 1 ∨ id = 3)
  let r := if useSecondRadius then target.x 8 + target.x 9 else target.x 8
  let armorZ :=
    if target.name = .outpost ∧ target.armorNum = 3 then
      if id = 1 then target.x 4 + target.x 9 else if id = 2 then target.x 4 + target.x 10 else target.x 4
    else if useSecondRadius then target.x 4 + target.x 10
    else target.x 4
  ⟨target.x 0 - r * lib.cos angle, target.x 2 - r * lib.sin angle, armorZ, angle⟩

def Target.armorXyzaList (target : Target K) : List (Xyza K) := (List.range target.armorNum).map (target.armorXyza lib)

/-! ## Trajectory -/

/-- A `Trajectory` that is solvable. -/
structure Trajectory (K : Type) where
  flyTime : K
  pitch : K

/-- `Trajectory::Trajectory`; `none` is `unsolvable`. -/
def trajectory (v0 d h : K) : Option (Trajectory K) :=
  let g : K := 97833 / 10000
  let a := g * d * d / (2 * v0 * v0)
  let b := -d
  let c := a + h
  let delta := b * b - 4 * a * c
  if delta < 0 then none
  else
    let tanPitch1 := (-b + lib.sqrt delta) / (2 * a)
    let tanPitch2 := (-b - lib.sqrt delta) / (2 * a)
    let pitch1 := lib.atan tanPitch1
    let pitch2 := lib.atan tanPitch2
    let t1 := d / (v0 * lib.cos pitch1)
    let t2 := d / (v0 * lib.cos pitch2)
    some ⟨if t1 < t2 then t1 else t2, if t1 < t2 then pitch1 else pitch2⟩

/-! ## Aimer -/

structure AimPoint (K : Type) where
  valid : Bool
  xyza : Xyza K

structure Aimer (K : Type) where
  debugAimPoint : AimPoint K
  debugSelectedDeltaAngle : K
  debugSelectedArmorId : Int
  lockId : Int
  yawOffset : K
  pitchOffset : K
  commingAngle : K
  leavingAngle : K
  highSpeedDelayTime : K
  lowSpeedDelayTime : K
  decisionSpeed : K

/-- `Aimer::Aimer`, from its configuration; angles are configured in degrees. -/
def Aimer.ofConfig (yawOffset pitchOffset commingAngle leavingAngle highSpeedDelayTime lowSpeedDelayTime
    decisionSpeed : K) : Aimer K where
  debugAimPoint := ⟨false, 0, 0, 0, 0⟩
  debugSelectedDeltaAngle := 999
  debugSelectedArmorId := -1
  lockId := -1
  yawOffset := yawOffset / (573 / 10)
  pitchOffset := pitchOffset / (573 / 10)
  commingAngle := commingAngle / (573 / 10)
  leavingAngle := leavingAngle / (573 / 10)
  highSpeedDelayTime := highSpeedDelayTime
  lowSpeedDelayTime := lowSpeedDelayTime
  decisionSpeed := decisionSpeed

def armorAt (xyza : List (Xyza K)) (i : Nat) : Xyza K := xyza.getD i ⟨0, 0, 0, 0⟩

def Aimer.select (a : Aimer K) (deltaAngle : List K) (xyza : List (Xyza K)) (i : Nat) : Aimer K × AimPoint K :=
  ({ a with debugSelectedDeltaAngle := deltaAngle.getD i 0, debugSelectedArmorId := i }, ⟨true, armorAt xyza i⟩)

/-- The armor to stay with of two within reach: the one locked, unless the other is better by 8 degrees. -/
def Aimer.relock (a : Aimer K) (deltaAngle : List K) (id0 id1 : Nat) : Int :=
  let absAngle := fun i : Int => |deltaAngle.getD i.toNat 0|
  if a.lockId ≠ id0 ∧ a.lockId ≠ id1 then if absAngle id0 < absAngle id1 then id0 else id1
  else
    let otherId : Int := if a.lockId = id0 then id1 else id0
    if absAngle otherId + 80 / 573 < absAngle a.lockId then otherId else a.lockId

def Aimer.chooseAimPoint (a : Aimer K) (target : Target K) : Aimer K × AimPoint K :=
  let xyza := target.armorXyzaList lib
  let centerYaw := lib.atan2 (target.x 2) (target.x 0)
  let deltaAngle := xyza.map fun armor => limitRad lib (armor.angle - centerYaw)
  let a := { a with debugSelectedDeltaAngle := 999, debugSelectedArmorId := -1 }
  if target.jumped = false then a.select deltaAngle xyza 0
  else if |target.x 7| < 7 ∧ target.name ≠ .outpost then
    match (List.range target.armorNum).filter fun i => !decide (|deltaAngle.getD i 0| > 500 / 573) with
    | [] => (a, ⟨false, armorAt xyza 0⟩)
    | [id0] => { a with lockId := -1 }.select deltaAngle xyza id0
    | id0 :: id1 :: _ =>
      let lockId := a.relock deltaAngle id0 id1
      { a with lockId := lockId }.select deltaAngle xyza lockId.toNat
  else
    let comingAngle := if target.name = .outpost then 700 / 573 else a.commingAngle
    let leavingAngle := if target.name = .outpost then 300 / 573 else a.leavingAngle
    -- the armors on the side where they appear
    match (List.range target.armorNum).find? fun i =>
        !decide (|deltaAngle.getD i 0| > comingAngle) &&
          (decide (target.x 7 > 0) && decide (deltaAngle.getD i 0 < leavingAngle) ||
            decide (target.x 7 < 0) && decide (deltaAngle.getD i 0 > -leavingAngle)) with
    | some i => a.select deltaAngle xyza i
    | none => (a, ⟨false, armorAt xyza 0⟩)

def trajectoryTo (bulletSpeed : K) (xyza : Xyza K) : Option (Trajectory K) :=
  trajectory lib bulletSpeed (lib.sqrt (xyza.x * xyza.x + xyza.y * xyza.y)) xyza.z

/-- The iterations of `Aimer::aim` for the fly time, at most `n` more; `none` is its early return. -/
def Aimer.iterate (target : Target K) (future : Int) (bulletSpeed : K) :
    Nat → Aimer K → Trajectory K → Aimer K × Option (Trajectory K)
  | 0, a, currentTraj => (a, some currentTraj)
  | n + 1, a, currentTraj =>
    let predictTime := future + microseconds currentTraj.flyTime
    let r := a.chooseAimPoint lib (target.predict lib predictTime)
    let a := { r.1 with debugAimPoint := r.2 }
    if r.2.valid = false then (a, none)
    else
      match trajectoryTo lib bulletSpeed r.2.xyza with
      | none => ({ a with debugAimPoint := { r.2 with valid := false } }, none)
      | some traj =>
        if |traj.flyTime - currentTraj.flyTime| < 1 / 1000 then (a, some traj)
        else Aimer.iterate target future bulletSpeed n a traj

/-- `Aimer::aim`, from the target predicted to `future`. -/
def Aimer.aimAt (a : Aimer K) (target : Target K) (future : Int) (bulletSpeed : K) : Aimer K × Command K :=
  let r := a.chooseAimPoint lib target
  let a := { r.1 with debugAimPoint := r.2 }
  if r.2.valid = false then (a, Command.none K)
  else
    match trajectoryTo lib bulletSpeed r.2.xyza with
    | none => ({ a with debugAimPoint := { r.2 with valid := false } }, Command.none K)
    | some trajectory0 =>
      let r := Aimer.iterate lib target future bulletSpeed 10 a trajectory0
      match r.2 with
      | none => (r.1, Command.none K)
      | some currentTraj =>
        let finalXyz := r.1.debugAimPoint.xyza
        (r.1, ⟨true, false, lib.atan2 finalXyz.y finalXyz.x + a.yawOffset, -(currentTraj.pitch + a.pitchOffset), 0⟩)

def Aimer.aim (a : Aimer K) (targets : List (Target K)) (timestamp : Int) (bulletSpeed : K) (toNow : Bool) (now : Int) :
    Aimer K × Command K :=
  match targets with
  | [] => (a, Command.none K)
  | target :: _ =>
    let angularSpeed := |target.x 7|
    let delayTime := if angularSpeed > a.decisionSpeed then a.highSpeedDelayTime else a.lowSpeedDelayTime
    let bulletSpeed := if bulletSpeed < 14 then 23 else bulletSpeed
    let dt := if toNow then deltaTime now timestamp + delayTime else 5 / 1000 + delayTime
    let future := timestamp + microseconds dt
    a.aimAt lib (target.predict lib future) future bulletSpeed

/-- **An aim that fails has no angles.** -/
theorem aim_cases (a : Aimer K) (targets : List (Target K)) (timestamp : Int) (bulletSpeed : K) (toNow : Bool)
    (now : Int) : (a.aim lib targets timestamp bulletSpeed toNow now).2.control = true ∨
      (a.aim lib targets timestamp bulletSpeed toNow now).2 = Command.none K := by
  have haimAt : ∀ target future speed, (a.aimAt lib target future speed).2.control = true ∨
      (a.aimAt lib target future speed).2 = Command.none K := by
    intro target future speed
    unfold Aimer.aimAt
    dsimp only
    split
    · exact .inr rfl
    · split
      · exact .inr rfl
      · split
        · exact .inr rfl
        · exact .inl rfl
  cases targets with
  | nil => exact .inr rfl
  | cons target _ => exact haimAt _ _ _

theorem armorAt_armorXyzaList (target : Target K) {i : Nat} (h : i < target.armorNum) :
    armorAt (target.armorXyzaList lib) i = target.armorXyza lib i := by
  simp [armorAt, Target.armorXyzaList, h]

theorem chooseAimPoint_of_not_jumped (a : Aimer K) {target : Target K} (h : target.jumped = false) :
    (a.chooseAimPoint lib target).2 = ⟨true, armorAt (target.armorXyzaList lib) 0⟩ := by
  unfold Aimer.chooseAimPoint
  dsimp only
  rw [if_pos h]
  rfl

theorem aimAt_unsolvable {a : Aimer K} {target : Target K} {bulletSpeed : K} (future : Int)
    (h : trajectoryTo lib bulletSpeed (a.chooseAimPoint lib target).2.xyza = none) :
    (a.aimAt lib target future bulletSpeed).2 = Command.none K := by
  unfold Aimer.aimAt
  dsimp only
  rw [h]
  split <;> rfl

end Vision
end LfSentry
