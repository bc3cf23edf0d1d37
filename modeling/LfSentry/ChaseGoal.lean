import LfSentry.BehaviorTree
import LfSentry.LookAheadPoint
/-!
# ChaseGoal — how far to follow an enemy (`plugins/action/calculate_chase_goal.cpp`)

The target of the camera is taken if it is fresh, within the camera's window and, in the world, within an area; the goal
is the point at the chase distance before it, or where the robot is if it is near enough already, within a second area.
-/
namespace LfSentry
namespace Behavior

open Vision (Libm deltaTime)
open Vision.Dual (realLibm)
open Pursuit (Point PoseStamped hypot planar quotient OnSegment)

variable {K : Type} [Field K] [LinearOrder K]

/-! ## The node -/

/-- `geometry_msgs::msg::PointStamped` -/
structure PointStamped (K : Type) where
  frameId : String
  stamp : Int
  point : Point K

/-- An area of the ground, its edges included. -/
structure Area (K : Type) where
  xMin : K
  xMax : K
  yMin : K
  yMax : K

def Area.misses (area : Area K) (x y : K) : Bool :=
  decide (x < area.xMin) || decide (x > area.xMax) || decide (y < area.yMin) || decide (y > area.yMax)

/-- The ports, read once. -/
structure ChaseConfig (K : Type) where
  sourceFrame : String
  worldFrame : String
  robotBaseFrame : String
  targetTimeout : K
  chaseDistance : K
  stopTolerance : K
  zMin : K
  zMax : K
  xAbsMax : K
  yAbsMax : K
  world : Area K
  goal : Area K
  transformTolerance : K

structure ChaseGoal (K : Type) where
  config : ChaseConfig K
  inited : Bool
  lastTarget : Option (PointStamped K × Int)

/-- What a tick asks of the blackboard, the clock, tf2 and nav2. -/
structure ChaseEnv (K : Type) where
  node : Bool
  ports : ChaseConfig K
  now : Int
  stamp : Int
  transform : PointStamped K → String → K → Option (PointStamped K)
  getCurrentPose : String → String → K → Option (PoseStamped K)

inductive Fault
  | noNode | divisionByZero
  deriving DecidableEq, Repr

def ChaseGoal.initOnce (node : ChaseGoal K) (env : ChaseEnv K) : Except Fault (ChaseGoal K) :=
  if node.inited then .ok node
  else if env.node then .ok { node with config := env.ports, inited := true }
  else .error .noNode

/-- The depth and the offset in the camera's frame. -/
def ChaseConfig.sees (config : ChaseConfig K) (p : Point K) : Bool :=
  !(decide (p.z < config.zMin) || decide (p.z > config.zMax)) &&
    !(decide (|p.x| > config.xAbsMax) || decide (|p.y| > config.yAbsMax))

variable (lib : Libm K)

/-- Where to go: the robot's place, or the point before the target. -/
def ChaseConfig.approach (config : ChaseConfig K) (target robot : Point K) (dist : K) : Option (K × K) :=
  if dist > config.chaseDistance + config.stopTolerance then
    (quotient (config.chaseDistance * (target.x - robot.x)) dist).bind fun qx =>
      (quotient (config.chaseDistance * (target.y - robot.y)) dist).map fun qy => (target.x - qx, target.y - qy)
  else some (robot.x, robot.y)

/-- The tick from the robot's pose on; there is no goal without a status of success. -/
def ChaseConfig.pursue (config : ChaseConfig K) (stamp : Int) (target robot : Point K) :
    Except Fault (Option (PoseStamped K)) :=
  let dist := hypot lib (target.x - robot.x) (target.y - robot.y)
  if dist < 1e-6 then .ok none
  else
    match config.approach target robot dist with
    | none => .error .divisionByZero
    | some (gx, gy) =>
      if config.goal.misses gx gy then .ok none
      else .ok (some ⟨config.worldFrame, stamp, ⟨gx, gy, 0⟩, yawQuaternion lib (lib.atan2 (target.y - gy) (target.x - gx))⟩)

/-- The target in the world, if it is fresh and where one is looked for. -/
def ChaseGoal.target (node : ChaseGoal K) (env : ChaseEnv K) : Option (Point K) :=
  node.lastTarget.bind fun (targetCam, recvTime) =>
    if deltaTime env.now recvTime > node.config.targetTimeout then none
    else if node.config.sees targetCam.point then
      (env.transform { targetCam with frameId := node.config.sourceFrame } node.config.worldFrame
          node.config.transformTolerance).bind fun targetWorld =>
        if node.config.world.misses targetWorld.point.x targetWorld.point.y then none else some targetWorld.point
    else none

def ChaseGoal.tick (node : ChaseGoal K) (env : ChaseEnv K) :
    Except Fault (ChaseGoal K × NodeStatus × Option (PoseStamped K)) :=
  (node.initOnce env).bind fun node =>
    match node.target env with
    | none => .ok (node, .failure, none)
    | some target =>
      match env.getCurrentPose node.config.worldFrame node.config.robotBaseFrame node.config.transformTolerance with
      | none => .ok (node, .failure, none)
      | some robot =>
        (node.config.pursue lib env.stamp target robot.position).map fun goal =>
          (node, if goal.isSome then .success else .failure, goal)

/-! ## The geometry -/

/-- The goal of a pursuit. -/
structure Pursues (config : ChaseConfig ℝ) (target robot goal : Point ℝ) : Prop where
  in_area : (config.goal.xMin ≤ goal.x ∧ goal.x ≤ config.goal.xMax) ∧ config.goal.yMin ≤ goal.y ∧ goal.y ≤ config.goal.yMax
  far : config.chaseDistance + config.stopTolerance < planar realLibm robot target →
    OnSegment robot target goal ∧ planar realLibm goal target = config.chaseDistance
  near : planar realLibm robot target ≤ config.chaseDistance + config.stopTolerance → goal.x = robot.x ∧ goal.y = robot.y

omit [Field K] in
theorem misses_eq_false {area : Area K} {x y : K} :
    area.misses x y = false ↔ (area.xMin ≤ x ∧ x ≤ area.xMax) ∧ area.yMin ≤ y ∧ y ≤ area.yMax := by
  simp [Area.misses, and_assoc]

/-- **Going back a chase distance along the unit vector to the target.** -/
theorem planar_back {dx dy c d x y : ℝ} (hc : 0 ≤ c) (hd : 0 < d) (hdist : d * d = dx * dx + dy * dy) (z z' : ℝ) :
    planar realLibm ⟨x - c * dx / d, y - c * dy / d, z⟩ ⟨x, y, z'⟩ = c := by
  have hsq : (x - (x - c * dx / d)) * (x - (x - c * dx / d)) + (y - (y - c * dy / d)) * (y - (y - c * dy / d)) = c * c := by
    calc (x - (x - c * dx / d)) * (x - (x - c * dx / d)) + (y - (y - c * dy / d)) * (y - (y - c * dy / d))
        = c * c * (dx * dx + dy * dy) / (d * d) := by
          field_simp
          ring
      _ = c * c := by
          rw [← hdist, mul_div_assoc, div_self (mul_pos hd hd).ne', mul_one]
  show Real.sqrt _ = c
  rw [hsq, Real.sqrt_mul_self hc]

theorem planar_mul_self (p q : Point ℝ) :
    planar realLibm p q * planar realLibm p q = (q.x - p.x) * (q.x - p.x) + (q.y - p.y) * (q.y - p.y) :=
  Real.mul_self_sqrt (add_nonneg (mul_self_nonneg _) (mul_self_nonneg _))

/-- **A point at a distance is approached without a division by zero**, along the segment if it is far. -/
theorem approach_spec (config : ChaseConfig ℝ) {target robot : Point ℝ} (hpos : 0 < planar realLibm robot target) :
    ∃ gx gy, config.approach target robot (planar realLibm robot target) = some (gx, gy) ∧
      (0 ≤ config.chaseDistance → 0 ≤ config.stopTolerance →
        config.chaseDistance + config.stopTolerance < planar realLibm robot target →
          OnSegment robot target ⟨gx, gy, 0⟩ ∧ planar realLibm ⟨gx, gy, 0⟩ target = config.chaseDistance) ∧
      (planar realLibm robot target ≤ config.chaseDistance + config.stopTolerance → gx = robot.x ∧ gy = robot.y) := by
  have hdist := planar_mul_self robot target
  generalize planar realLibm robot target = d at hpos hdist ⊢
  by_cases hfar : d > config.chaseDistance + config.stopTolerance
  · refine ⟨target.x - config.chaseDistance * (target.x - robot.x) / d,
      target.y - config.chaseDistance * (target.y - robot.y) / d, ?_, fun hc ht _ => ⟨?_, ?_⟩, fun h => ?_⟩
    · simp [ChaseConfig.approach, if_pos hfar, quotient, hpos.ne']
    · refine ⟨1 - config.chaseDistance / d, ?_, ?_, ?_, ?_⟩
      · rw [sub_nonneg, div_le_one hpos]
        linarith
      · exact sub_le_self _ (div_nonneg hc hpos.le)
      · field_simp
        ring
      · field_simp
        ring
    · exact planar_back hc hpos hdist 0 target.z
    · exact absurd hfar (not_lt.2 h)
  · refine ⟨robot.x, robot.y, ?_, fun _ _ h => absurd h hfar, fun _ => ⟨rfl, rfl⟩⟩
    simp [ChaseConfig.approach, if_neg hfar]

theorem pursue_spec (config : ChaseConfig ℝ) (stamp : Int) (target robot : Point ℝ) :
    ∃ goal, config.pursue realLibm stamp target robot = .ok goal ∧
      ∀ pose ∈ goal, 0 ≤ config.chaseDistance → 0 ≤ config.stopTolerance → Pursues config target robot pose.position := by
  unfold ChaseConfig.pursue
  dsimp only
  by_cases hsmall : hypot realLibm (target.x - robot.x) (target.y - robot.y) < 1e-6
  · rw [if_pos hsmall]
    exact ⟨none, rfl, fun pose hpose => by cases hpose⟩
  · rw [if_neg hsmall]
    have hpos : 0 < planar realLibm robot target := lt_of_lt_of_le (by norm_num) (not_lt.1 hsmall)
    obtain ⟨gx, gy, happ, hfar, hnear⟩ := approach_spec config hpos
    have happ' : config.approach target robot (hypot realLibm (target.x - robot.x) (target.y - robot.y)) = some (gx, gy) := happ
    rw [happ']
    dsimp only
    by_cases harea : config.goal.misses gx gy = true
    · rw [if_pos harea]
      exact ⟨none, rfl, fun pose hpose => by cases hpose⟩
    · rw [if_neg harea]
      refine ⟨_, rfl, fun pose hpose hc ht => ?_⟩
      obtain rfl := Option.mem_some_iff.1 hpose
      exact ⟨misses_eq_false.1 (Bool.not_eq_true _ ▸ harea), hfar hc ht, hnear⟩

theorem initOnce_ne_divisionByZero (node : ChaseGoal ℝ) (env : ChaseEnv ℝ) :
    node.initOnce env ≠ .error .divisionByZero := by
  unfold ChaseGoal.initOnce
  by_cases hinited : node.inited = true
  · simp [hinited]
  · by_cases hnode : env.node = true <;> simp [hinited, hnode]

/-- **The goal of a tick that succeeds**: in its area, and on the way to the target at the chase distance before it or
where the robot is.  No tick divides by zero. -/
theorem chaseGoal_tick (node : ChaseGoal ℝ) (env : ChaseEnv ℝ) :
    node.tick realLibm env ≠ .error .divisionByZero ∧
      ∀ node' output, node.tick realLibm env = .ok (node', .success, output) →
        0 ≤ node'.config.chaseDistance → 0 ≤ node'.config.stopTolerance →
          ∃ goal target robot, output = some goal ∧ node'.target env = some target ∧
            env.getCurrentPose node'.config.worldFrame node'.config.robotBaseFrame node'.config.transformTolerance =
              some robot ∧ Pursues node'.config target robot.position goal.position := by
  unfold ChaseGoal.tick
  cases hinit : node.initOnce env with
  | error fault =>
    have hfault : fault ≠ .divisionByZero := by
      rintro rfl
      exact initOnce_ne_divisionByZero node env hinit
    refine ⟨fun h => hfault (Except.error.inj h), fun node' output h => ?_⟩
    cases h
  | ok node =>
    simp only [Except.bind]
    cases htarget : node.target env with
    | none =>
      dsimp only
      refine ⟨by simp, fun node' output h => ?_⟩
      simp only [Except.ok.injEq, Prod.mk.injEq, reduceCtorEq, false_and, and_false] at h
    | some target =>
      dsimp only
      cases hrobot : env.getCurrentPose node.config.worldFrame node.config.robotBaseFrame node.config.transformTolerance with
      | none =>
        dsimp only
        refine ⟨by simp, fun node' output h => ?_⟩
        simp only [Except.ok.injEq, Prod.mk.injEq, reduceCtorEq, false_and, and_false] at h
      | some robot =>
        obtain ⟨goal, hgoal, hpursues⟩ := pursue_spec node.config env.stamp target robot.position
        dsimp only
        rw [hgoal]
        refine ⟨nofun, fun node' output h hc ht => ?_⟩
        cases goal with
        | none => cases h
        | some pose =>
          simp only [Except.map, Option.isSome_some, if_true, Except.ok.injEq, Prod.mk.injEq, true_and] at h
          obtain ⟨rfl, rfl⟩ := h
          exact ⟨pose, target, robot, rfl, htarget, hrobot, hpursues pose rfl hc ht⟩

/-! A robot at the origin and a target three metres ahead. -/

noncomputable def openField : Area ℝ := ⟨-100.0, 100.0, -100.0, 100.0⟩

noncomputable def declared : ChaseConfig ℝ :=
  ⟨"camera", "odom", "chassis", 0.35, 1.5, 0.15, 0.8, 6.0, 2.5, 1.5, openField, openField, 0.2⟩

noncomputable def ahead : ChaseEnv ℝ where
  node := true
  ports := declared
  now := 0
  stamp := 0
  transform p frame _ := some ⟨frame, p.stamp, ⟨p.point.z, -p.point.x, -p.point.y⟩⟩
  getCurrentPose _ _ _ := some .fresh

noncomputable def chasing : ChaseGoal ℝ := ⟨declared, true, some (⟨"camera", 0, ⟨0, 0, 3.0⟩⟩, 0)⟩

theorem planar_ahead (z z' : ℝ) : planar realLibm ⟨0, 0, z⟩ ⟨3.0, -0, z'⟩ = 3 := by
  show Real.sqrt ((3.0 - 0) * (3.0 - 0) + (-0 - 0) * (-0 - 0)) = 3
  rw [show ((3.0 - 0) * (3.0 - 0) + (-0 - 0) * (-0 - 0) : ℝ) = 3 * 3 by norm_num, Real.sqrt_mul_self (by norm_num)]

theorem target_chasing : chasing.target ahead = some ⟨3.0, -0, -0⟩ := by
  have hdt : ¬ deltaTime 0 0 > (0.35 : ℝ) := by norm_num [deltaTime]
  have hsees : declared.sees (⟨0, 0, 3.0⟩ : Point ℝ) = true := by
    norm_num [ChaseConfig.sees, declared]
  have harea : declared.world.misses 3.0 (-0) = false :=
    misses_eq_false.2 (by norm_num [declared, openField])
  show (if deltaTime 0 0 > (0.35 : ℝ) then none else if declared.sees ⟨0, 0, 3.0⟩ then
    if declared.world.misses 3.0 (-0) then none else some (⟨3.0, -0, -0⟩ : Point ℝ) else none) = _
  rw [if_neg hdt, if_pos hsees, harea]
  rfl

theorem approach_chasing : declared.approach ⟨3.0, -0, -0⟩ ⟨0, 0, 0⟩ 3 = some (1.5, 0) := by
  norm_num [ChaseConfig.approach, declared, quotient]

theorem tick_chasing : ∃ output, chasing.tick realLibm ahead = .ok (chasing, .success, output) := by
  have hdist : hypot realLibm ((⟨3.0, -0, -0⟩ : Point ℝ).x - (⟨0, 0, 0⟩ : Point ℝ).x)
      ((⟨3.0, -0, -0⟩ : Point ℝ).y - (⟨0, 0, 0⟩ : Point ℝ).y) = 3 := planar_ahead 0 (-0)
  have hgoal : declared.goal.misses 1.5 0 = false := misses_eq_false.2 (by norm_num [declared, openField])
  have hpursue : ∃ pose, declared.pursue realLibm 0 ⟨3.0, -0, -0⟩ ⟨0, 0, 0⟩ = .ok (some pose) := by
    unfold ChaseConfig.pursue
    dsimp only
    rw [hdist, if_neg (by norm_num), approach_chasing]
    dsimp only
    rw [hgoal]
    exact ⟨_, rfl⟩
  obtain ⟨pose, hpose⟩ := hpursue
  refine ⟨some pose, ?_⟩
  have hinit : chasing.initOnce ahead = .ok chasing := rfl
  unfold ChaseGoal.tick
  rw [hinit]
  simp only [Except.bind, target_chasing]
  show (declared.pursue realLibm 0 ⟨3.0, -0, -0⟩ ⟨0, 0, 0⟩).map _ = _
  rw [hpose]
  rfl

/-- The goal is a metre and a half before the target. -/
theorem chaseGoal_tick_ahead : ∃ goal : PoseStamped ℝ, planar realLibm goal.position ⟨3.0, -0, -0⟩ = 1.5 := by
  obtain ⟨output, htick⟩ := tick_chasing
  have hdeclared : 0 ≤ declared.chaseDistance ∧ 0 ≤ declared.stopTolerance := by
    constructor <;> norm_num [declared]
  obtain ⟨goal, target, robot, -, htarget, hrobot, h⟩ :=
    (chaseGoal_tick chasing ahead).2 chasing output htick hdeclared.1 hdeclared.2
  rw [target_chasing] at htarget
  obtain rfl := Option.some.inj htarget
  obtain rfl : PoseStamped.fresh = robot := Option.some.inj hrobot
  have hdist : planar realLibm (PoseStamped.fresh : PoseStamped ℝ).position ⟨3.0, -0, -0⟩ = 3 := planar_ahead 0 (-0)
  have hfar := h.far (by rw [hdist]; norm_num [chasing, declared])
  exact ⟨goal, hfar.2⟩

end Behavior
end LfSentry
