import LfSentry.DualArbiter
import LfSentry.OmniPidPursuit
import LfSentry.Runs
import Mathlib.Analysis.Real.Pi.Bounds
/-!
# Reconfigure — parameters set while the controller runs (`dynamicParametersCallback`)

The callback sets the members that a cycle reads.  The gains and the limits of the two PIDs were copied when the controller
was configured, so setting them changes nothing until it is configured again; as long as they are what they were then, a
controller that ran on through all updates and one configured anew go the same way (`velocities_after_updates`).
-/
namespace LfSentry
namespace Pursuit

open Vision (Libm)
open Vision.Dual (realLibm)

variable {K : Type} [Field K] [LinearOrder K]

/-! ## The node and the controller -/

/-- A parameter that the callback handles, by its name and type. -/
def Parameter.Handled (pluginName : String) (parameter : Parameter K) : Prop :=
  match parameter.value with
  | .double _ => ∃ entry ∈ doubleParameters (K := K), parameter.name = pluginName ++ entry.1
  | .bool _ => ∃ entry ∈ boolParameters (K := K), parameter.name = pluginName ++ entry.1
  | .other => False

/-- A parameter that was set, in the node, which has two parameters more than the callback. -/
def Params.store (pluginName : String) (node : Params K) (parameter : Parameter K) : Params K :=
  match parameter.value with
  | .double value =>
    if parameter.name = pluginName ++ ".max_robot_pose_search_dist" then { node with maxRobotPoseSearchDist := value }
    else node.set pluginName parameter
  | .bool value =>
    if parameter.name = pluginName ++ ".enable_rotation" then { node with enableRotation := value }
    else node.set pluginName parameter
  | .other => node

/-- What happens to a controller: parameters are set, or a cycle runs. -/
inductive Event (K : Type)
  | update (parameters : List (Parameter K))
  | cycle (nav : Nav2 K) (transformedPlan : List (PoseStamped K)) (speed : Twist K)

def Event.Handled (pluginName : String) : Event K → Prop
  | .update parameters => ∀ parameter ∈ parameters, parameter.Handled pluginName
  | .cycle _ _ _ => True

/-- A controller and the parameters of its node; it says the velocities. -/
def controller (lib : Libm K) (pluginName : String) : Machine (Controller K × Params K) (Event K) (Option (Twist K)) where
  step s
    | .update parameters =>
      some ((dynamicParametersCallback pluginName s.1 parameters, parameters.foldl (Params.store pluginName) s.2), [])
    | .cycle nav transformedPlan speed =>
      some (((computeVelocityCommands lib nav s.1 transformedPlan speed).1, s.2),
        [(computeVelocityCommands lib nav s.1 transformedPlan speed).2])

/-- A PID that remembers what another one remembers. -/
def Pid.remember (pid memory : Pid K) : Pid K := { pid with preError := memory.preError, integral := memory.integral }

/-- A controller configured anew, with the memory of the one that ran. -/
def Controller.renew (node : Params K) (controlFrequency : K) (c : Controller K) : Controller K :=
  let fresh := configure node controlFrequency c.lastVelocityScalingFactor
  { fresh with movePid := fresh.movePid.remember c.movePid, headingPid := fresh.headingPid.remember c.headingPid }

/-- The values that were copied are still the node's; those of the heading PID count if the controller turns at all. -/
structure StillConfigured (node0 node : Params K) : Prop where
  vLinearMax : node.vLinearMax = node0.vLinearMax
  vLinearMin : node.vLinearMin = node0.vLinearMin
  translationKp : node.translationKp = node0.translationKp
  translationKd : node.translationKd = node0.translationKd
  translationKi : node.translationKi = node0.translationKi
  rotation : node.enableRotation = true → node.vAngularMax = node0.vAngularMax ∧ node.vAngularMin = node0.vAngularMin ∧
    node.rotationKp = node0.rotationKp ∧ node.rotationKd = node0.rotationKd ∧ node.rotationKi = node0.rotationKi

/-! ## What the callback leaves alone -/

omit [Field K] [LinearOrder K] in
theorem set_cases (pluginName : String) (params : Params K) (parameter : Parameter K) :
    params.set pluginName parameter = params ∨
      (∃ entry ∈ doubleParameters (K := K), ∃ value, params.set pluginName parameter = entry.2 params value) ∨
        ∃ entry ∈ boolParameters (K := K), ∃ value, params.set pluginName parameter = entry.2 params value := by
  obtain ⟨name, value⟩ := parameter
  cases value with
  | double value =>
    cases h : (doubleParameters (K := K)).find? fun entry => decide (name = pluginName ++ entry.1) with
    | none => exact .inl (by simp only [Params.set, h])
    | some entry => exact .inr (.inl ⟨entry, List.mem_of_find?_eq_some h, value, by simp only [Params.set, h]⟩)
  | bool value =>
    cases h : (boolParameters (K := K)).find? fun entry => decide (name = pluginName ++ entry.1) with
    | none => exact .inl (by simp only [Params.set, h])
    | some entry => exact .inr (.inr ⟨entry, List.mem_of_find?_eq_some h, value, by simp only [Params.set, h]⟩)
  | other => exact .inl rfl

omit [Field K] [LinearOrder K] in
theorem enableRotation_set (pluginName : String) (params : Params K) (parameter : Parameter K) :
    (params.set pluginName parameter).enableRotation = params.enableRotation := by
  have hdouble : ∀ entry ∈ doubleParameters (K := K), ∀ value, (entry.2 params value).enableRotation =
      params.enableRotation := by
    simp [doubleParameters]
  have hbool : ∀ entry ∈ boolParameters (K := K), ∀ value, (entry.2 params value).enableRotation =
      params.enableRotation := by
    simp [boolParameters]
  rcases set_cases pluginName params parameter with h | ⟨entry, he, value, h⟩ | ⟨entry, he, value, h⟩
  · rw [h]
  · rw [h, hdouble entry he value]
  · rw [h, hbool entry he value]

omit [Field K] [LinearOrder K] in
theorem enableRotation_foldl (pluginName : String) : ∀ (parameters : List (Parameter K)) (params : Params K),
    (parameters.foldl (Params.set pluginName) params).enableRotation = params.enableRotation
  | [], _ => rfl
  | parameter :: parameters, params => by
    rw [List.foldl_cons, enableRotation_foldl pluginName parameters, enableRotation_set]

omit [Field K] [LinearOrder K] in
/-- **Of a handled parameter the node keeps what the controller keeps.** -/
theorem store_of_handled {pluginName : String} {parameter : Parameter K} (h : parameter.Handled pluginName)
    (node : Params K) : node.store pluginName parameter = node.set pluginName parameter := by
  obtain ⟨name, value⟩ := parameter
  cases value with
  | double value =>
    obtain ⟨entry, he, hname⟩ := h
    have hne : entry.1 ≠ ".max_robot_pose_search_dist" := by
      have hall : ∀ entry ∈ doubleParameters (K := K), entry.1 ≠ ".max_robot_pose_search_dist" := by
        simp [doubleParameters]
      exact hall entry he
    refine if_neg fun heq => hne ?_
    exact (String.append_right_inj pluginName).1 (hname.symm.trans heq)
  | bool value =>
    obtain ⟨entry, he, hname⟩ := h
    have hne : entry.1 ≠ ".enable_rotation" := by
      have hall : ∀ entry ∈ boolParameters (K := K), entry.1 ≠ ".enable_rotation" := by
        simp [boolParameters]
      exact hall entry he
    refine if_neg fun heq => hne ?_
    exact (String.append_right_inj pluginName).1 (hname.symm.trans heq)
  | other => exact h.elim

omit [Field K] [LinearOrder K] in
theorem foldl_store_of_handled {pluginName : String} : ∀ {parameters : List (Parameter K)} (node : Params K),
    (∀ parameter ∈ parameters, parameter.Handled pluginName) →
    parameters.foldl (Params.store pluginName) node = parameters.foldl (Params.set pluginName) node
  | [], _, _ => rfl
  | parameter :: parameters, node, h => by
    obtain ⟨hfirst, hrest⟩ := List.forall_mem_cons.1 h
    rw [List.foldl_cons, List.foldl_cons, store_of_handled hfirst, foldl_store_of_handled _ hrest]

/-! ## A controller that runs on -/

/-- What holds of a controller in every run of cycles and handled updates. -/
structure KeptFrom (node0 : Params K) (controlFrequency : K) (s : Controller K × Params K) : Prop where
  params : s.1.params = s.2
  controlDuration : s.1.controlDuration = 1 / controlFrequency
  movePid : s.1.movePid = (configure node0 controlFrequency 0).movePid.remember s.1.movePid
  headingPid : s.1.headingPid = (configure node0 controlFrequency 0).headingPid.remember s.1.headingPid
  enableRotation : s.2.enableRotation = node0.enableRotation

variable {lib : Libm K} {pluginName : String} {node0 : Params K} {controlFrequency : K}

omit [LinearOrder K] in
theorem keptFrom_configure (last : K) : KeptFrom node0 controlFrequency (configure node0 controlFrequency last, node0) :=
  ⟨rfl, rfl, rfl, rfl, rfl⟩

theorem remember_calculate {pid fresh : Pid K} (h : pid = fresh.remember pid) (setPoint pv : K) :
    (pid.calculate setPoint pv).1 = fresh.remember (pid.calculate setPoint pv).1 := by
  rw [h]
  rfl

variable (lib) in
/-- A cycle changes the PIDs and the last velocity. -/
theorem computeVelocityCommands_fst (nav : Nav2 K) (c : Controller K) (transformedPlan : List (PoseStamped K))
    (speed : Twist K) :
    ∃ linDist angleToGoal last, (computeVelocityCommands lib nav c transformedPlan speed).1 =
      { c with
        movePid := (c.movePid.calculate linDist 0).1
        headingPid := if c.params.enableRotation then (c.headingPid.calculate angleToGoal 0).1 else c.headingPid
        lastVelocityScalingFactor := last } := by
  unfold computeVelocityCommands
  dsimp only
  by_cases hcoll : isCollisionDetected nav (costmapFrameLocalPlan nav transformedPlan) = true
  · rw [if_pos hcoll]
    cases hrot : c.params.enableRotation
    · exact ⟨_, 0, _, rfl⟩
    · exact ⟨_, _, _, rfl⟩
  · rw [if_neg hcoll]
    cases hrot : c.params.enableRotation
    · exact ⟨_, 0, _, rfl⟩
    · exact ⟨_, _, _, rfl⟩

/-- **What was configured is kept by a cycle and by an update.** -/
theorem keptFrom_step {s t : Controller K × Params K} {i : Event K} {es : List (Option (Twist K))}
    (h : KeptFrom node0 controlFrequency s) (hi : i.Handled pluginName)
    (hst : (controller lib pluginName).step s i = some (t, es)) : KeptFrom node0 controlFrequency t := by
  cases i with
  | update parameters =>
    cases hst
    refine ⟨?_, h.controlDuration, h.movePid, h.headingPid, ?_⟩
    · show parameters.foldl (Params.set pluginName) s.1.params = parameters.foldl (Params.store pluginName) s.2
      rw [foldl_store_of_handled s.2 hi, h.params]
    · show (parameters.foldl (Params.store pluginName) s.2).enableRotation = _
      rw [foldl_store_of_handled s.2 hi, enableRotation_foldl, h.enableRotation]
  | cycle nav transformedPlan speed =>
    cases hst
    obtain ⟨linDist, angleToGoal, last, heq⟩ :=
      computeVelocityCommands_fst lib nav s.1 transformedPlan speed
    rw [heq]
    refine ⟨h.params, h.controlDuration, remember_calculate h.movePid linDist 0, ?_, h.enableRotation⟩
    dsimp only
    by_cases hrot : s.1.params.enableRotation = true
    · rw [if_pos hrot]
      exact remember_calculate h.headingPid angleToGoal 0
    · rw [if_neg hrot]
      exact h.headingPid

/-! ## Two controllers that go the same way -/

/-- Two controllers whose cycles are the same: the heading PID of one that does not turn may be any. -/
def Alike (c d : Controller K) : Prop :=
  c = d ∨ c.params.enableRotation = false ∧ c = { d with headingPid := c.headingPid }

omit [Field K] [LinearOrder K] in
theorem alike_update {c d : Controller K} (h : Alike c d) (parameters : List (Parameter K)) :
    Alike (dynamicParametersCallback pluginName c parameters) (dynamicParametersCallback pluginName d parameters) := by
  rcases h with rfl | ⟨hoff, hcd⟩
  · exact .inl rfl
  · refine .inr ⟨?_, ?_⟩
    · show (parameters.foldl (Params.set pluginName) c.params).enableRotation = false
      rw [enableRotation_foldl, hoff]
    · rw [hcd]
      rfl

variable (lib) in
theorem alike_cycle {c d : Controller K} (h : Alike c d) (nav : Nav2 K) (transformedPlan : List (PoseStamped K))
    (speed : Twist K) :
    Alike (computeVelocityCommands lib nav c transformedPlan speed).1
        (computeVelocityCommands lib nav d transformedPlan speed).1 ∧
      (computeVelocityCommands lib nav c transformedPlan speed).2 =
        (computeVelocityCommands lib nav d transformedPlan speed).2 := by
  rcases h with rfl | ⟨hoff, hcd⟩
  · exact ⟨.inl rfl, rfl⟩
  · generalize c.headingPid = headingPid at hcd
    subst hcd
    have hd : d.params.enableRotation = false := hoff
    unfold computeVelocityCommands
    dsimp only
    rw [hd]
    by_cases hcoll : isCollisionDetected nav (costmapFrameLocalPlan nav transformedPlan) = true
    · rw [if_pos hcoll, if_pos hcoll]
      exact ⟨.inr ⟨hd, rfl⟩, rfl⟩
    · rw [if_neg hcoll, if_neg hcoll]
      exact ⟨.inr ⟨hd, rfl⟩, rfl⟩

/-- **Two controllers that are alike say the same velocities**, whatever happens to them. -/
theorem alike_run : ∀ (later : List (Event K)) {c d : Controller K} (node : Params K), Alike c d →
    ∃ c' d' node' velocities, (controller lib pluginName).run (c, node) later = some ((c', node'), velocities) ∧
      (controller lib pluginName).run (d, node) later = some ((d', node'), velocities)
  | [], c, d, node, _ => ⟨c, d, node, [], rfl, rfl⟩
  | .update parameters :: later, c, d, node, h => by
    obtain ⟨c', d', node', velocities, hc, hd⟩ :=
      alike_run later (parameters.foldl (Params.store pluginName) node) (alike_update h parameters)
    exact ⟨c', d', node', velocities, Machine.run_cons.2 ⟨_, [], velocities, rfl, hc, rfl⟩,
      Machine.run_cons.2 ⟨_, [], velocities, rfl, hd, rfl⟩⟩
  | .cycle nav transformedPlan speed :: later, c, d, node, h => by
    obtain ⟨hnext, hvelocity⟩ := alike_cycle lib h nav transformedPlan speed
    obtain ⟨c', d', node', velocities, hc, hd⟩ := alike_run later node hnext
    exact ⟨c', d', node', _, Machine.run_cons.2 ⟨_, _, velocities, rfl, hc, rfl⟩,
      Machine.run_cons.2 ⟨_, _, velocities, rfl, hd, by rw [hvelocity]⟩⟩

omit [LinearOrder K] in
/-- **A controller whose copied values are still those of the node is like one configured anew.** -/
theorem alike_renew {c : Controller K} {node : Params K} (h : KeptFrom node0 controlFrequency (c, node))
    (hsame : StillConfigured node0 node) : Alike c (c.renew node controlFrequency) := by
  obtain ⟨params, controlDuration, movePid, headingPid, last⟩ := c
  obtain ⟨hparams, hduration, hmove, hheading, hrot⟩ := h
  dsimp only at hparams hduration hmove hheading hrot
  have hmove' : movePid = (configure node controlFrequency last).movePid.remember movePid := by
    rw [hmove]
    simp only [configure, Pid.remember, Pid.create, hsame.vLinearMax, hsame.vLinearMin, hsame.translationKp,
      hsame.translationKd, hsame.translationKi]
  -- without rotation the heading PID is never asked, so its values may have been set
  by_cases hturn : node.enableRotation = true
  · obtain ⟨hmax, hmin, hkp, hkd, hki⟩ := hsame.rotation hturn
    have hheading' : headingPid = (configure node controlFrequency last).headingPid.remember headingPid := by
      rw [hheading]
      simp only [configure, Pid.remember, Pid.create, hmax, hmin, hkp, hkd, hki]
    refine .inl ?_
    rw [hparams, hduration]
    exact congrArg₂ (fun m t => Controller.mk node (1 / controlFrequency) m t last) hmove' hheading'
  · refine .inr ⟨by rw [hparams]; exact Bool.eq_false_iff.2 hturn, ?_⟩
    rw [hparams, hduration]
    exact congrArg (fun m => Controller.mk node (1 / controlFrequency) m headingPid last) hmove'

/-- **Updates take effect while the copied values are what they were**: after every run of cycles and handled updates, a
controller says from then on the velocities of one configured with the updated values, with the same memory. -/
theorem velocities_after_updates (lib : Libm K) (pluginName : String) (node0 : Params K) (controlFrequency last : K)
    (events : List (Event K)) (hhandled : ∀ e ∈ events, e.Handled pluginName) (c : Controller K) (node : Params K)
    (said : List (Option (Twist K)))
    (hrun : (controller lib pluginName).run (configure node0 controlFrequency last, node0) events = some ((c, node), said))
    (hsame : StillConfigured node0 node) (later : List (Event K)) :
    ∃ c' d' node' velocities, (controller lib pluginName).run (c, node) later = some ((c', node'), velocities) ∧
      (controller lib pluginName).run (c.renew node controlFrequency, node) later = some ((d', node'), velocities) := by
  have hkept : KeptFrom node0 controlFrequency (c, node) :=
    Machine.inv_of_along (P := fun _ e => e.Handled pluginName) (fun _ _ _ _ hI he hst => keptFrom_step hI he hst)
      (keptFrom_configure last) (Machine.along_of_forall_mem hhandled) hrun
  exact alike_run later node (alike_renew hkept hsame)

/-! ## A distance and a limit that are set -/

variable (lib) in
theorem computeVelocityCommands_angularZ {nav : Nav2 K} {c : Controller K} {transformedPlan : List (PoseStamped K)}
    (hcoll : isCollisionDetected nav (costmapFrameLocalPlan nav transformedPlan) = false)
    (hrot : c.params.enableRotation = true) (hhead : c.params.useRotateToHeading = true) (speed : Twist K) :
    ∃ x y, (computeVelocityCommands lib nav c transformedPlan speed).2 =
      some ⟨x, y, (c.headingPid.calculate (nav.getYaw (transformedPlan.getLastD .fresh).orientation) 0).2⟩ := by
  unfold computeVelocityCommands
  dsimp only
  rw [hcoll, hrot, hhead]
  exact ⟨_, _, rfl⟩

/-- A map without an end, on which nothing is looked up. -/
noncomputable def openNav : Nav2 ℝ where
  getYaw q := 2.0 * realLibm.atan2 q.z q.w
  pathLength _ := 0
  euclideanDistance p q := planar realLibm p.position q.position
  worldToMap _ _ := none
  getCost _ _ := 0
  transformPose := some

/-- A path whose one pose looks back. -/
noncomputable def turnBack : List (PoseStamped ℝ) := [{ PoseStamped.fresh with orientation := ⟨0, 0, 1, 0⟩ }]

theorem getYaw_turnBack : openNav.getYaw (turnBack.getLastD .fresh).orientation = Real.pi := by
  show 2.0 * Complex.arg ⟨0, 1⟩ = Real.pi
  rw [show (⟨0, 1⟩ : ℂ) = Complex.I from rfl, Complex.arg_I]
  norm_num

/-- A path of three poses, half a metre apart. -/
noncomputable def straightOn : List (PoseStamped ℝ) :=
  [0, 0.5, 1].map fun x => { PoseStamped.fresh with position := ⟨x, 0, 0⟩ }

/-- A cycle on it at a speed of 0.4. -/
noncomputable def followed : Event ℝ := .cycle openNav straightOn ⟨0.4, 0, 0⟩

noncomputable def lookFarther : Event ℝ :=
  .update [⟨"FollowPath" ++ ".lookahead_time", .double 2.0⟩, ⟨"FollowPath" ++ ".min_lookahead_dist", .double 0.5⟩]

noncomputable def farther : Params ℝ := { Params.declared 3.0 with lookaheadTime := 2.0, minLookaheadDist := 0.5 }

theorem lookAheadDistance_of_scaled {params : Params ℝ} (hscaled : params.useVelocityScaledLookaheadDist = true) {d : ℝ}
    (hd : 0.4 * params.lookaheadTime = d) (hmin : params.minLookaheadDist ≤ d) (hmax : d ≤ params.maxLookaheadDist) :
    getLookAheadDistance realLibm params ⟨0.4, 0, 0⟩ = d := by
  have hspeed : hypot realLibm (0.4 : ℝ) 0 = 0.4 := by
    show Real.sqrt (0.4 * 0.4 + 0 * 0) = 0.4
    rw [mul_zero, add_zero, Real.sqrt_mul_self (by norm_num)]
  rw [getLookAheadDistance, if_pos hscaled, hspeed, hd, clamp, if_neg (not_lt.2 hmin), if_neg (not_lt.2 hmax)]

/-- The point looked at is set twice as far away, on the way. -/
theorem velocities_after_lookahead :
    getLookAheadDistance realLibm (.declared 3.0) ⟨0.4, 0, 0⟩ = 0.4 ∧ getLookAheadDistance realLibm farther ⟨0.4, 0, 0⟩ = 0.8 ∧
      ∃ c said, (controller realLibm "FollowPath").run (configure (.declared 3.0) 20 0, .declared 3.0)
          [followed, lookFarther, followed] = some ((c, farther), said) ∧
        ∃ c' d' node' velocities,
          (controller realLibm "FollowPath").run (c, farther) [followed, followed] = some ((c', node'), velocities) ∧
            (controller realLibm "FollowPath").run (c.renew farther 20, farther) [followed, followed] =
              some ((d', node'), velocities) := by
  have hhandled : ∀ e ∈ [followed, lookFarther, followed], e.Handled "FollowPath" := by
    simp [followed, lookFarther, Event.Handled, Parameter.Handled, doubleParameters]
  have hsame : StillConfigured (.declared 3.0) farther := ⟨rfl, rfl, rfl, rfl, rfl, fun _ => ⟨rfl, rfl, rfl, rfl, rfl⟩⟩
  refine ⟨lookAheadDistance_of_scaled rfl ?_ ?_ ?_, lookAheadDistance_of_scaled rfl ?_ ?_ ?_, _, _, rfl,
    velocities_after_updates realLibm "FollowPath" (.declared 3.0) 20 0 [followed, lookFarther, followed] hhandled _ farther _
      rfl hsame [followed, followed]⟩
  all_goals norm_num [farther, Params.declared]

/-- A turn of half a circle asks for more than any limit up to three. -/
theorem angularZ_turnBack {c : Controller ℝ} (hrot : c.params.enableRotation = true)
    (hhead : c.params.useRotateToHeading = true) {limit : ℝ} (h3 : limit ≤ 3)
    (hpid : c.headingPid = .create (1 / 20) limit (-3.0) 3.0 0.3 0.1) :
    ∃ x y, (computeVelocityCommands realLibm openNav c turnBack ⟨0, 0, 0⟩).2 = some ⟨x, y, limit⟩ := by
  have hcoll : isCollisionDetected openNav (costmapFrameLocalPlan openNav turnBack) = false := rfl
  obtain ⟨x, y, h⟩ := computeVelocityCommands_angularZ realLibm hcoll hrot hhead ⟨0, 0, 0⟩
  have hpi := Real.pi_gt_three
  have hlimit : ((c.headingPid).calculate Real.pi 0).2 = limit := by
    rw [hpid]
    refine if_pos (h3.trans_lt ?_)
    show (3 : ℝ) < 3.0 * (Real.pi - 0) + 0.1 * (0 + (Real.pi - 0) * (1 / 20)) + 0.3 * ((Real.pi - 0 - 0) / (1 / 20))
    linarith
  rw [getYaw_turnBack, hlimit] at h
  exact ⟨x, y, h⟩

noncomputable def limitTurn : Event ℝ := .update [⟨"FollowPath" ++ ".v_angular_max", .double 1⟩]

theorem limitTurn_handled : limitTurn.Handled "FollowPath" := by
  simp [limitTurn, Event.Handled, Parameter.Handled, doubleParameters]

/-- **The limit of the turn is not applied**: a controller as declared turns at 3 after it was set to 1, one configured anew
turns at 1. -/
theorem vAngularMax_not_applied :
    limitTurn.Handled "FollowPath" ∧ ∃ c node,
      (controller realLibm "FollowPath").run (configure (Params.declared 3.0) 20 0, Params.declared 3.0) [limitTurn] =
          some ((c, node), []) ∧
        ∃ c' d' x y x' y',
          (controller realLibm "FollowPath").run (c, node) [.cycle openNav turnBack ⟨0, 0, 0⟩] =
            some ((c', node), [some ⟨x, y, 3⟩]) ∧
          (controller realLibm "FollowPath").run (c.renew node 20, node) [.cycle openNav turnBack ⟨0, 0, 0⟩] =
            some ((d', node), [some ⟨x', y', 1⟩]) := by
  let node : Params ℝ := { Params.declared 3.0 with vAngularMax := 1 }
  let c : Controller ℝ := { configure (Params.declared 3.0) 20 0 with params := node }
  have hupdate : (controller realLibm "FollowPath").run (configure (Params.declared 3.0) 20 0, Params.declared 3.0) [limitTurn] =
      some ((c, node), []) := rfl
  have hthree : (3.0 : ℝ) = 3 := by norm_num
  have hold : c.headingPid = .create (1 / 20) 3 (-3.0) 3.0 0.3 0.1 :=
    congrArg (fun limit => Pid.create (1 / 20) limit (-3.0) 3.0 0.3 0.1) hthree
  have hnew : (c.renew node 20).headingPid = .create (1 / 20) 1 (-3.0) 3.0 0.3 0.1 := rfl
  obtain ⟨x, y, hc⟩ := angularZ_turnBack rfl rfl le_rfl hold
  obtain ⟨x', y', hd⟩ := angularZ_turnBack rfl rfl (by norm_num) hnew
  refine ⟨limitTurn_handled, c, node, hupdate, _, _, x, y, x', y', Machine.run_cons.2 ⟨_, _, [], rfl, rfl, ?_⟩,
    Machine.run_cons.2 ⟨_, _, [], rfl, rfl, ?_⟩⟩
  · exact congrArg (fun v => [v] ++ []) hc.symm
  · exact congrArg (fun v => [v] ++ []) hd.symm

end Pursuit
end LfSentry
