import LfSentry.Tracker
/-!
# Shooter — whether to fire at the target (`sp_vision_25/tasks/auto_aim/shooter.cpp`)

`shoot` answers for a command from the aimer's last aim point and the front target, and remembers the command.  Where the
command is from it cannot tell: a command that controls and follows the gimbal is one to fire at, whoever made it.
-/
namespace LfSentry
namespace Vision

variable {K : Type} [Field K] [LinearOrder K] [FloorRing K] (lib : Libm K)

structure Shooter (K : Type) where
  firstTolerance : K
  secondTolerance : K
  judgeDistance : K
  autoFire : Bool
  normalFireWindow : K
  highSpeedFireWindow : K
  spinThreshold : K
  trackingOnlyFire : Bool
  lastCommand : Command K

/-- `Shooter::Shooter`, from its configuration; tolerances and windows are configured in degrees. -/
def Shooter.ofConfig (firstTolerance secondTolerance judgeDistance : K) (autoFire : Bool)
    (normalFireWindowDeg highSpeedFireWindowDeg spinThresholdRad : K) (trackingOnlyFire : Bool) : Shooter K where
  firstTolerance := firstTolerance / 57.3
  secondTolerance := secondTolerance / 57.3
  judgeDistance := judgeDistance
  autoFire := autoFire
  normalFireWindow := normalFireWindowDeg / 57.3
  highSpeedFireWindow := highSpeedFireWindowDeg / 57.3
  spinThreshold := spinThresholdRad
  trackingOnlyFire := trackingOnlyFire
  lastCommand := Command.none K

def Target.distance (target : Target K) : K := lib.sqrt (target.x 0 * target.x 0 + target.x 2 * target.x 2)

def Shooter.tolerance (s : Shooter K) (distance : K) : K :=
  let baseTolerance := if distance > s.judgeDistance then s.secondTolerance else s.firstTolerance
  baseTolerance * 1.5

def Shooter.fireWindow (s : Shooter K) (spinSpeed : K) : K :=
  let baseFireWindow := if spinSpeed > s.spinThreshold then s.highSpeedFireWindow else s.normalFireWindow
  baseFireWindow * 1.15

/-- `can_shoot`, of the yaws of the command and of the gimbal. -/
def Shooter.canShoot (s : Shooter K) (commandYaw : K) (aimer : Aimer K) (target : Target K) (gimbalYaw : K) : Bool :=
  let distance := target.distance lib
  let tolerance := s.tolerance distance
  let frontEnough := decide (|aimer.debugSelectedDeltaAngle| < s.fireWindow |target.x 7|)
  let gimbalFollowing := decide (|gimbalYaw - commandYaw| < tolerance * 2.0)
  let commandNotTooJump := decide (|s.lastCommand.yaw - commandYaw| < tolerance * 6.0)
  let closeRangeBonus := decide (distance < s.judgeDistance * 0.8) &&
    decide (|gimbalYaw - commandYaw| < tolerance * 2.5)
  frontEnough && gimbalFollowing && commandNotTooJump || closeRangeBonus

/-- `shoot` with the state of the tracker. -/
def Shooter.shootIn (s : Shooter K) (command : Command K) (aimer : Aimer K) (targets : List (Target K)) (gimbalYaw : K)
    (trackerState : TrackState) : Shooter K × Bool :=
  let remembered := { s with lastCommand := command }
  match targets with
  | [] => (remembered, false)
  | target :: _ =>
    if s.autoFire = false ∨ command.control = false then (remembered, false)
    else if s.trackingOnlyFire = true ∧ trackerState = .lost then (remembered, false)
    else if aimer.debugAimPoint.valid = false then (remembered, false)
    else (remembered, s.canShoot lib command.yaw aimer target gimbalYaw)

/-- `shoot` as older code calls it: in the state `tracking`. -/
def Shooter.shoot (s : Shooter K) (command : Command K) (aimer : Aimer K) (targets : List (Target K)) (gimbalYaw : K) :
    Shooter K × Bool :=
  s.shootIn lib command aimer targets gimbalYaw .tracking

variable {lib}

omit [FloorRing K] in
/-- **When `shoot` answers to fire.** -/
theorem shooter_fires_iff {s : Shooter K} {command : Command K} {aimer : Aimer K} {targets : List (Target K)} {gimbalYaw : K} :
    (s.shoot lib command aimer targets gimbalYaw).2 = true ↔
      s.autoFire = true ∧ command.control = true ∧ aimer.debugAimPoint.valid = true ∧
        ∃ target ∈ targets.head?, s.canShoot lib command.yaw aimer target gimbalYaw = true := by
  unfold Shooter.shoot Shooter.shootIn
  dsimp only
  cases targets with
  | nil => simp
  | cons target rest =>
    have htracking : ¬ (s.trackingOnlyFire = true ∧ TrackState.tracking = .lost) := by
      rintro ⟨-, h⟩
      cases h
    dsimp only
    rw [if_neg htracking]
    cases s.autoFire <;> cases command.control <;> cases aimer.debugAimPoint.valid <;> simp

omit [FloorRing K] in
/-- Of the target `can_shoot` reads the state of the filter alone. -/
theorem canShoot_congr (s : Shooter K) (commandYaw : K) (aimer : Aimer K) {target target' : Target K} (gimbalYaw : K)
    (h : target.x = target'.x) :
    s.canShoot lib commandYaw aimer target gimbalYaw = s.canShoot lib commandYaw aimer target' gimbalYaw := by
  unfold Shooter.canShoot Target.distance
  rw [h]

omit [FloorRing K] in
/-- **Of a near target a gimbal that follows is enough.** -/
theorem canShoot_of_close {s : Shooter K} {commandYaw : K} {aimer : Aimer K} {target : Target K} {gimbalYaw : K}
    (hnear : target.distance lib < s.judgeDistance * 0.8)
    (hfollow : |gimbalYaw - commandYaw| < s.tolerance (target.distance lib) * 2.5) :
    s.canShoot lib commandYaw aimer target gimbalYaw = true := by
  unfold Shooter.canShoot
  dsimp only
  rw [decide_eq_true hnear, decide_eq_true hfollow, Bool.and_self, Bool.or_true]

end Vision
end LfSentry
