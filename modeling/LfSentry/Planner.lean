import LfSentry.Logged
import LfSentry.PredictComposes
/-!
# Planner — the planned trajectory of the gimbal (`sp_vision_25/tasks/auto_aim/planner/planner.cpp`)

`Planner::plan` predicts the target by the flight time of a first trajectory and samples where to aim around that moment.
Every `tools::Trajectory` that is constructed and everything that is read of one is an event.  The two solvers and what
memory holds where nothing has been written are parameters.  `plan_uses_solved_iff` says when only solved trajectories are
used.
-/
namespace LfSentry
namespace Vision

variable {K : Type} [Field K] [LinearOrder K] [FloorRing K] (lib : Libm K)

/-- A `tools::Trajectory`, as its constructor leaves it. -/
structure TrajectoryObject (K : Type) where
  unsolvable : Bool
  flyTime : K
  pitch : K

/-- `Trajectory::Trajectory`; where there is no solution, the rest keeps what memory held. -/
def TrajectoryObject.construct (memory : Trajectory K) (v0 d h : K) : TrajectoryObject K :=
  match trajectory lib v0 d h with
  | none => ⟨true, memory.flyTime, memory.pitch⟩
  | some t => ⟨false, t.flyTime, t.pitch⟩

inductive TrajectoryEvent (K : Type)
  | constructed (t : TrajectoryObject K)
  | flyTimeRead (t : TrajectoryObject K)
  | pitchRead (t : TrajectoryObject K)

/-- What is read of trajectories, is read of solved ones. -/
def TrajectoryEvent.ReadsSolved : TrajectoryEvent K → Prop
  | constructed _ => True
  | flyTimeRead t => t.unsolvable = false
  | pitchRead t => t.unsolvable = false

/-- The trajectories that are constructed are solved. -/
def TrajectoryEvent.ConstructsSolved : TrajectoryEvent K → Prop
  | constructed t => t.unsolvable = false
  | flyTimeRead _ => True
  | pitchRead _ => True

/-- What memory holds where nothing has been written, taken to be the same throughout a plan. -/
structure Memory (K : Type) where
  trajectory : Trajectory K
  xyza : Xyza K

/-- What a solver has worked out: its states and its inputs, by the step of the horizon. -/
structure MpcWork (K : Type) where
  x : Nat → K × K
  u : Nat → K

structure Planner (K : Type) where
  yawOffset : K
  pitchOffset : K
  fireThresh : K
  lowSpeedDelayTime : K
  highSpeedDelayTime : K
  decisionSpeed : K
  yawSolver : K × K → List (K × K) → MpcWork K
  pitchSolver : K × K → List (K × K) → MpcWork K

structure YawPitch (K : Type) where
  yaw : K
  pitch : K

/-- A column of the `Trajectory` of a plan. -/
structure PlanColumn (K : Type) where
  yaw : K
  yawVel : K
  pitch : K
  pitchVel : K

structure Plan (K : Type) where
  control : Bool
  fire : Bool
  targetYaw : K
  targetPitch : K
  yaw : K
  yawVel : K
  yawAcc : K
  pitch : K
  pitchVel : K
  pitchAcc : K

namespace Planner

/-- `DT` -/
def dt : K := 0.01

def halfHorizon : Nat := 50

def horizon : Nat := halfHorizon * 2

/-- The nearest armor, with its horizontal distance. -/
def nearest (memory : Xyza K) (xyzaList : List (Xyza K)) : K × Xyza K :=
  xyzaList.foldl (fun best xyza =>
    let dist := lib.sqrt (xyza.x * xyza.x + xyza.y * xyza.y)
    if dist < best.1 then (dist, xyza) else best) (1e10, memory)

variable (p : Planner K) (memory : Memory K)

def aim (target : Target K) (bulletSpeed : K) : Logged (TrajectoryEvent K) (YawPitch K) := do
  let best := nearest lib memory.xyza (target.armorXyzaList lib)
  let azim := lib.atan2 best.2.y best.2.x
  let bulletTraj := TrajectoryObject.construct lib memory.trajectory bulletSpeed best.1 best.2.z
  Logged.say (.constructed bulletTraj)
  if bulletTraj.unsolvable then Logged.throw
  else
    Logged.say (.pitchRead bulletTraj)
    pure ⟨limitRad lib (azim + p.yawOffset), -bulletTraj.pitch - p.pitchOffset⟩

/-- The loop of `get_trajectory`: `n` more columns, from the last aim and the present one. -/
def columns (yaw0 bulletSpeed : K) :
    Nat → Target K → YawPitch K → YawPitch K → Logged (TrajectoryEvent K) (List (PlanColumn K))
  | 0, _, _, _ => pure []
  | n + 1, target, last, now => do
    let target := target.predictBy lib dt
    let next ← p.aim lib memory target bulletSpeed
    let yawVel := limitRad lib (next.yaw - last.yaw) / (2.0 * dt)
    let pitchVel := (next.pitch - last.pitch) / (2.0 * dt)
    let rest ← columns yaw0 bulletSpeed n target now next
    pure (⟨limitRad lib (now.yaw - yaw0), yawVel, now.pitch, pitchVel⟩ :: rest)

def getTrajectory (target : Target K) (yaw0 bulletSpeed : K) : Logged (TrajectoryEvent K) (List (PlanColumn K)) := do
  let target := target.predictBy lib (-dt * ((halfHorizon : K) + 1))
  let last ← p.aim lib memory target bulletSpeed
  let target := target.predictBy lib dt
  let now ← p.aim lib memory target bulletSpeed
  p.columns lib memory yaw0 bulletSpeed horizon target last now

/-- The `try` of `plan`. -/
def reference (target : Target K) (bulletSpeed : K) : Logged (TrajectoryEvent K) (K × List (PlanColumn K)) := do
  let aimed ← p.aim lib memory target bulletSpeed
  let traj ← p.getTrajectory lib memory target aimed.yaw bulletSpeed
  pure (aimed.yaw, traj)

def speed (bulletSpeed : K) : K := if bulletSpeed < 10.0 ∨ bulletSpeed > 25.0 then 22.0 else bulletSpeed

/-- Column `i` of a trajectory. -/
def col (traj : List (PlanColumn K)) (i : Nat) : PlanColumn K := traj.getD i ⟨0, 0, 0, 0⟩

/-- The plan that follows a trajectory. -/
def follow (yaw0 : K) (traj : List (PlanColumn K)) : Plan K :=
  let yawWork := p.yawSolver ((col traj 0).yaw, (col traj 0).yawVel) (traj.map fun c => (c.yaw, c.yawVel))
  let pitchWork := p.pitchSolver ((col traj 0).pitch, (col traj 0).pitchVel) (traj.map fun c => (c.pitch, c.pitchVel))
  let shootOffset := 3
  let yawError := (col traj (halfHorizon + shootOffset)).yaw - (yawWork.x (halfHorizon + shootOffset)).1
  let pitchError := (col traj (halfHorizon + shootOffset)).pitch - (pitchWork.x (halfHorizon + shootOffset)).1
  { control := true
    fire := decide (lib.sqrt (yawError * yawError + pitchError * pitchError) < p.fireThresh)
    targetYaw := limitRad lib ((col traj halfHorizon).yaw + yaw0)
    targetPitch := (col traj halfHorizon).pitch
    yaw := limitRad lib ((yawWork.x halfHorizon).1 + yaw0)
    yawVel := (yawWork.x halfHorizon).2
    yawAcc := yawWork.u halfHorizon
    pitch := (pitchWork.x halfHorizon).1
    pitchVel := (pitchWork.x halfHorizon).2
    pitchAcc := pitchWork.u halfHorizon }

/-- The first trajectory of a plan: to the armor that is nearest at the call. -/
def firstTrajectory (target : Target K) (bulletSpeed : K) : TrajectoryObject K :=
  let best := nearest lib memory.xyza (target.armorXyzaList lib)
  TrajectoryObject.construct lib memory.trajectory (speed bulletSpeed) best.1 best.2.z

/-- `Planner::plan(Target, double)`. -/
def plan (target : Target K) (bulletSpeed : K) : Logged (TrajectoryEvent K) (Plan K) := do
  let bulletTraj := firstTrajectory lib memory target bulletSpeed
  Logged.say (.constructed bulletTraj)
  Logged.say (.flyTimeRead bulletTraj)
  let target := target.predictBy lib bulletTraj.flyTime
  match ← (p.reference lib memory target (speed bulletSpeed)).attempt with
  | none => pure ⟨false, false, 0, 0, 0, 0, 0, 0, 0, 0⟩
  | some (yaw0, traj) => pure (p.follow lib yaw0 traj)

/-! ## What is read and what is constructed -/

variable {lib p memory}

theorem aim_events (target : Target K) (bulletSpeed : K) :
    (p.aim lib memory target bulletSpeed).Says TrajectoryEvent.ReadsSolved ∧
      (p.aim lib memory target bulletSpeed).SaysIfDone TrajectoryEvent.ConstructsSolved := by
  unfold aim
  dsimp only
  generalize TrajectoryObject.construct lib memory.trajectory bulletSpeed _ _ = t
  by_cases h : t.unsolvable = true
  · rw [if_pos h]
    exact ⟨Logged.says_bind (Logged.says_say trivial) fun _ => Logged.says_throw, fun hdone => absurd rfl hdone⟩
  · rw [Bool.not_eq_true] at h
    rw [if_neg (by simp [h])]
    constructor
    · exact Logged.says_bind (Logged.says_say trivial) fun _ =>
        Logged.says_bind (Logged.says_say h) fun _ => Logged.says_pure _
    · exact .always (Logged.says_bind (Logged.says_say h) fun _ =>
        Logged.says_bind (Logged.says_say trivial) fun _ => Logged.says_pure _)

theorem columns_events (yaw0 bulletSpeed : K) (n : Nat) (target : Target K) (last now : YawPitch K) :
    (p.columns lib memory yaw0 bulletSpeed n target last now).Says TrajectoryEvent.ReadsSolved ∧
      (p.columns lib memory yaw0 bulletSpeed n target last now).SaysIfDone TrajectoryEvent.ConstructsSolved := by
  induction n generalizing target last now with
  | zero => exact ⟨Logged.says_pure _, .always (Logged.says_pure _)⟩
  | succ n ih =>
    constructor
    · exact Logged.says_bind (aim_events _ _).1 fun next =>
        Logged.says_bind (ih _ now next).1 fun _ => Logged.says_pure _
    · exact Logged.saysIfDone_bind (aim_events _ _).2 fun next =>
        Logged.saysIfDone_bind (ih _ now next).2 fun _ => .always (Logged.says_pure _)

theorem reference_events (target : Target K) (bulletSpeed : K) :
    (p.reference lib memory target bulletSpeed).Says TrajectoryEvent.ReadsSolved ∧
      (p.reference lib memory target bulletSpeed).SaysIfDone TrajectoryEvent.ConstructsSolved := by
  constructor
  · refine Logged.says_bind (aim_events _ _).1 fun aimed => Logged.says_bind ?_ fun _ => Logged.says_pure _
    exact Logged.says_bind (aim_events _ _).1 fun last =>
      Logged.says_bind (aim_events _ _).1 fun now => (columns_events _ _ _ _ last now).1
  · refine Logged.saysIfDone_bind (aim_events _ _).2 fun aimed =>
      Logged.saysIfDone_bind ?_ fun _ => .always (Logged.says_pure _)
    exact Logged.saysIfDone_bind (aim_events _ _).2 fun last =>
      Logged.saysIfDone_bind (aim_events _ _).2 fun now => (columns_events _ _ _ _ last now).2

/-- A bullet of the speed that is planned with reaches the armor that is nearest before anything is predicted. -/
def InRange (lib : Libm K) (memory : Memory K) (target : Target K) (bulletSpeed : K) : Prop :=
  let best := nearest lib memory.xyza (target.armorXyzaList lib)
  let a := 9.7833 * best.1 * best.1 / (2.0 * speed bulletSpeed * speed bulletSpeed)
  4.0 * a * (a + best.2.z) ≤ best.1 * best.1

omit [FloorRing K] in
theorem construct_solved_iff [IsStrictOrderedRing K] (memory : Trajectory K) (v0 d h : K) :
    (TrajectoryObject.construct lib memory v0 d h).unsolvable = false ↔
      4.0 * (9.7833 * d * d / (2.0 * v0 * v0)) * (9.7833 * d * d / (2.0 * v0 * v0) + h) ≤ d * d := by
  have hg : (9.7833 : K) = 97833 / 10000 := by norm_num
  have h4 : (4.0 : K) = 4 := by norm_num
  have h2 : (2.0 : K) = 2 := by norm_num
  rw [hg, h4, h2]
  unfold TrajectoryObject.construct trajectory
  dsimp only
  rw [neg_mul_neg]
  by_cases hdelta : d * d - 4 * (97833 / 10000 * d * d / (2 * v0 * v0)) * (97833 / 10000 * d * d / (2 * v0 * v0) + h) < 0
  · rw [if_pos hdelta]
    exact iff_of_false (by simp) (by linarith)
  · rw [if_neg hdelta]
    exact iff_of_true rfl (by linarith)

/-- **A plan uses only solved trajectories exactly if the target is in range before anything is predicted.** -/
theorem plan_uses_solved_iff [IsStrictOrderedRing K] (lib : Libm K) (p : Planner K) (memory : Memory K) (target : Target K)
    (bulletSpeed : K) :
    ((p.plan lib memory target bulletSpeed).Says TrajectoryEvent.ReadsSolved ∧
      ∀ plan, (p.plan lib memory target bulletSpeed).value = some plan → plan.control = true →
        (p.plan lib memory target bulletSpeed).Says TrajectoryEvent.ConstructsSolved) ↔
    InRange lib memory target bulletSpeed := by
  unfold InRange
  rw [← @construct_solved_iff _ _ _ lib _ memory.trajectory]
  unfold plan firstTrajectory
  dsimp only
  generalize TrajectoryObject.construct lib memory.trajectory _ _ _ = t
  obtain ⟨hreads, hconstructs⟩ := @reference_events _ _ _ _ lib p memory (target.predictBy lib t.flyTime)
    (speed bulletSpeed)
  constructor
  · rintro ⟨h, -⟩
    have hread := ((Logged.says_bind_iff.1 h).2 () rfl)
    exact (Logged.says_bind_iff.1 hread).1 _ (List.mem_singleton.2 rfl)
  · intro hsolved
    constructor
    · refine Logged.says_bind (Logged.says_say trivial) fun _ => Logged.says_bind (Logged.says_say hsolved) fun _ => ?_
      refine Logged.says_bind hreads fun r => ?_
      cases r with
      | none => exact Logged.says_pure _
      | some r => exact Logged.says_pure _
    · intro plan hplan hcontrol
      refine Logged.says_bind (Logged.says_say hsolved) fun _ => Logged.says_bind (Logged.says_say trivial) fun _ => ?_
      have hdone : (p.reference lib memory (target.predictBy lib t.flyTime) (speed bulletSpeed)).value ≠ none := by
        intro hthrown
        simp only [Logged.value_bind, Logged.value_say, Logged.value_attempt, hthrown, Option.bind_some, Logged.value_pure,
          Option.some.injEq] at hplan
        rw [← hplan] at hcontrol
        cases hcontrol
      refine Logged.says_bind (hconstructs hdone) fun r => ?_
      cases r with
      | none => exact Logged.says_pure _
      | some r => exact Logged.says_pure _

/-! ## Robots at rest -/

/-- A planner without offsets, whose solvers plan nothing. -/
noncomputable def idle : Planner ℝ := ⟨0, 0, 0.003, 0, 0, 0, fun _ _ => ⟨fun _ => (0, 0), fun _ => 0⟩,
  fun _ _ => ⟨fun _ => (0, 0), fun _ => 0⟩⟩

def blank : Memory ℝ := ⟨⟨0, 0⟩, ⟨0, 0, 0, 0⟩⟩

/-- A robot at rest, straight ahead. -/
noncomputable def ahead (d : ℝ) : Target ℝ := (targetOf realNumerics (solvedArmor d) 0).toTarget

theorem nearest_ahead {d : ℝ} (hd : 0 ≤ d) (hnear : d < 1e10) :
    nearest Dual.realLibm blank.xyza ((ahead d).armorXyzaList Dual.realLibm) = (d, ⟨d, 0, 0, 0⟩) := by
  have hsqrt : ∀ d : ℝ, 0 ≤ d → Dual.realLibm.sqrt (d * d + 0 * 0) = d := by
    intro d hd
    rw [mul_zero, add_zero]
    exact Real.sqrt_mul_self hd
  rw [ahead, atRest_armors (atRest_targetOf 0).1]
  unfold nearest
  simp only [List.foldl_cons, List.foldl_nil]
  rw [hsqrt d hd, hsqrt (d + 0.4) (by linarith)]
  simp only [if_pos hnear]
  rw [if_neg (by linarith)]

theorem inRange_ahead {d : ℝ} (hd : 0 ≤ d) (hnear : d < 1e10) : InRange Dual.realLibm blank (ahead d) 22 ↔
    4.0 * (9.7833 * d * d / (2.0 * 22 * 22)) * (9.7833 * d * d / (2.0 * 22 * 22)) ≤ d * d := by
  have hspeed : speed (22 : ℝ) = 22 := if_neg (by norm_num)
  unfold InRange
  rw [nearest_ahead hd hnear, hspeed]
  simp only [add_zero]

/-- Three metres ahead. -/
theorem plan_ahead_uses_solved : (idle.plan Dual.realLibm blank (ahead 3) 22).Says TrajectoryEvent.ReadsSolved :=
  ((plan_uses_solved_iff Dual.realLibm idle blank (ahead 3) 22).2
    ((inRange_ahead (by norm_num) (by norm_num)).2 (by norm_num))).1

/-- A hundred metres ahead, the flight time of a trajectory that does not exist is read. -/
theorem plan_far_reads_unsolved :
    ¬(idle.plan Dual.realLibm blank (ahead 100) 22).Says TrajectoryEvent.ReadsSolved := by
  intro h
  have hread := (Logged.says_bind_iff.1 ((Logged.says_bind_iff.1 h).2 () rfl)).1 _ (List.mem_singleton.2 rfl)
  have hreach : InRange Dual.realLibm blank (ahead 100) 22 := (construct_solved_iff _ _ _ _).1 hread
  rw [inRange_ahead (by norm_num) (by norm_num)] at hreach
  norm_num at hreach

end Planner

end Vision
end LfSentry
