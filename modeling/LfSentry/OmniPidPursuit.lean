import LfSentry.Aimer
/-!
# OmniPidPursuit — the controller that follows a path (`pb_omni_pid_pursuit_controller`)

A cycle takes the path in the robot's frame, aims at a point ahead on it, lets a PID make a speed of the distance and
another one a turn of the angle, slows down in curves and near the goal, and refuses where it collides.  What nav2 and tf2
provide is a parameter (`Nav2`).
-/
namespace LfSentry
namespace Pursuit

open Vision (Libm)

variable {K : Type} [Field K] [LinearOrder K]

/-! ## PID -/

structure Pid (K : Type) where
  dt : K
  max : K
  min : K
  kp : K
  kd : K
  ki : K
  preError : K
  integral : K

/-- `PID::PID` -/
def Pid.create (dt max min kp kd ki : K) : Pid K := ⟨dt, max, min, kp, kd, ki, 0, 0⟩

/-- `PID::calculate`; the integral is limited after it was used. -/
def Pid.calculate (pid : Pid K) (setPoint pv : K) : Pid K × K :=
  let error := setPoint - pv
  let pOut := pid.kp * error
  let integral := pid.integral + error * pid.dt
  let iOut := pid.ki * integral
  let integral := if integral > 1 then 1 else if integral < -1 then -1 else integral
  let dOut := pid.kd * ((error - pid.preError) / pid.dt)
  let output := pOut + iOut + dOut
  let output := if output > pid.max then pid.max else if output < pid.min then pid.min else output
  ({ pid with integral := integral, preError := error }, output)

/-! ## Poses and paths -/

/-- `geometry_msgs::msg::Point` -/
structure Point (K : Type) where
  x : K
  y : K
  z : K

/-- `geometry_msgs::msg::Quaternion` -/
structure Quaternion (K : Type) where
  x : K
  y : K
  z : K
  w : K

/-- `geometry_msgs::msg::PoseStamped` -/
structure PoseStamped (K : Type) where
  frameId : String
  stamp : Int
  position : Point K
  orientation : Quaternion K

def PoseStamped.fresh : PoseStamped K := ⟨"", 0, ⟨0, 0, 0⟩, ⟨0, 0, 0, 1⟩⟩

/-- What the controller asks of nav2 and tf2. -/
structure Nav2 (K : Type) where
  getYaw : Quaternion K → K
  pathLength : List (PoseStamped K) → K
  euclideanDistance : PoseStamped K → PoseStamped K → K
  worldToMap : K → K → Option (Nat × Nat)
  getCost : Nat → Nat → Nat
  transformPose : PoseStamped K → Option (PoseStamped K)

section Geometry

variable (lib : Libm K)

def hypot (x y : K) : K := lib.sqrt (x * x + y * y)

def PoseStamped.range (pose : PoseStamped K) : K := hypot lib pose.position.x pose.position.y

def circleSegmentIntersection (p1 p2 : Point K) (r : K) : Point K :=
  let dx := p2.x - p1.x
  let dy := p2.y - p1.y
  let dr2 := dx * dx + dy * dy
  let d := p1.x * p2.y - p2.x * p1.y
  let d1 := p1.x * p1.x + p1.y * p1.y
  let d2 := p2.x * p2.x + p2.y * p2.y
  let dd := d2 - d1
  let sign : K := if dd < 0 then -1 else 1
  let sqrtTerm := lib.sqrt (r * r * dr2 - d * d)
  ⟨(d * dy + sign * dx * sqrtTerm) / dr2, (-d * dx + sign * dy * sqrtTerm) / dr2, 0⟩

/-- The point between two poses at the distance `lookaheadDist`. -/
def interpolate (prev goal : PoseStamped K) (lookaheadDist : K) : PoseStamped K :=
  { PoseStamped.fresh with
    frameId := prev.frameId
    stamp := goal.stamp
    position := circleSegmentIntersection lib prev.position goal.position lookaheadDist }

def getLookAheadPoint (useInterpolation : Bool) (lookaheadDist : K) (transformedPlan : List (PoseStamped K)) :
    PoseStamped K :=
  match transformedPlan.findIdx? fun ps => decide (ps.range lib ≥ lookaheadDist) with
  | none => transformedPlan.getLastD .fresh
  | some 0 => transformedPlan.getD 0 .fresh
  | some (i + 1) =>
    if useInterpolation then
      interpolate lib (transformedPlan.getD i .fresh) (transformedPlan.getD (i + 1) .fresh) lookaheadDist
    else transformedPlan.getD (i + 1) .fresh

/-! ## Curvature -/

def planar (p q : Point K) : K := hypot lib (q.x - p.x) (q.y - p.y)

/-- The loop of `calculateCumulativeDistances`, from the last pose and its distance on. -/
def cumulativeFrom : K → Point K → List (PoseStamped K) → List K
  | _, _, [] => []
  | back, prev, curr :: rest =>
    (back + planar lib prev curr.position) :: cumulativeFrom (back + planar lib prev curr.position) curr.position rest

def calculateCumulativeDistances (path : List (PoseStamped K)) : List K :=
  match path with
  | [] => [0]
  | first :: rest => 0 :: cumulativeFrom lib 0 first.position rest

omit [LinearOrder K] in
def quotient [DecidableEq K] (a b : K) : Option K := if b = 0 then none else some (a / b)

/-- `std::lower_bound` of an ordered list: the place of the first that is not below. -/
def lowerBound (cumulativeDistances : List K) (target : K) : Nat :=
  cumulativeDistances.findIdx fun c => decide (¬ c < target)

def PoseStamped.between (pose1 pose2 : PoseStamped K) (ratio : K) : PoseStamped K where
  frameId := pose2.frameId
  stamp := pose2.stamp
  position := ⟨pose1.position.x + ratio * (pose2.position.x - pose1.position.x),
    pose1.position.y + ratio * (pose2.position.y - pose1.position.y),
    pose1.position.z + ratio * (pose2.position.z - pose1.position.z)⟩
  orientation := pose2.orientation

/-- `findPoseAtDistance`; there is no pose where it divides by zero. -/
def findPoseAtDistance (path : List (PoseStamped K)) (cumulativeDistances : List K) (targetDistance : K) :
    Option (PoseStamped K) :=
  if path.isEmpty ∨ cumulativeDistances.isEmpty then some .fresh
  else if targetDistance ≤ 0 then some (path.headD .fresh)
  else if targetDistance ≥ cumulativeDistances.getLastD 0 then some (path.getLastD .fresh)
  else
    match lowerBound cumulativeDistances targetDistance with
    | 0 => some (path.headD .fresh)
    | index + 1 =>
      (quotient (targetDistance - cumulativeDistances.getD index 0)
        (cumulativeDistances.getD (index + 1) 0 - cumulativeDistances.getD index 0)).map fun ratio =>
          (path.getD index .fresh).between (path.getD (index + 1) .fresh) ratio

/-- Of points on one line no circle is found, which the code sees from an infinity or from no number. -/
def calculateCurvatureRadius (near current far : Point K) : K :=
  let x1 := near.x
  let y1 := near.y
  let x2 := current.x
  let y2 := current.y
  let x3 := far.x
  let y3 := far.y
  let denominator := 2.0 * (x1 * (y2 - y3) + x2 * (y3 - y1) + x3 * (y1 - y2))
  let centerX := ((x1 * x1 + y1 * y1) * (y2 - y3) + (x2 * x2 + y2 * y2) * (y3 - y1) + (x3 * x3 + y3 * y3) * (y1 - y2)) /
    denominator
  let centerY := ((x1 * x1 + y1 * y1) * (x3 - x2) + (x2 * x2 + y2 * y2) * (x1 - x3) + (x3 * x3 + y3 * y3) * (x2 - x1)) /
    denominator
  let radius := hypot lib (x2 - centerX) (y2 - centerY)
  if denominator = 0 ∨ radius < 1e-9 then 1e9 else radius

def calculateCurvature (nav : Nav2 K) (path : List (PoseStamped K)) (lookaheadPose : PoseStamped K)
    (forwardDist backwardDist : K) : K :=
  let cumulativeDistances := calculateCumulativeDistances lib path
  let distance := nav.euclideanDistance .fresh lookaheadPose
  let backwardPose := (findPoseAtDistance path cumulativeDistances (distance - backwardDist)).getD .fresh
  let forwardPose := (findPoseAtDistance path cumulativeDistances (distance + forwardDist)).getD .fresh
  1 / calculateCurvatureRadius lib backwardPose.position lookaheadPose.position forwardPose.position

end Geometry

/-! ## Collisions -/

/-- `nav2_costmap_2d::INSCRIBED_INFLATED_OBSTACLE` -/
def inscribedInflatedObstacle : Nat := 253

/-- The poses of a plan that are looked up in the costmap; a pose that is not transformed stays the fresh one. -/
def costmapFrameLocalPlan (nav : Nav2 K) (transformedPlan : List (PoseStamped K)) : List (PoseStamped K) :=
  (List.range 10).map fun i =>
    (nav.transformPose
      (transformedPlan.getD (min (i * transformedPlan.length / 10) (transformedPlan.length - 1)) .fresh)).getD .fresh

def isCollisionDetected (nav : Nav2 K) : List (PoseStamped K) → Bool
  | [] => false
  | pose :: path =>
    match nav.worldToMap pose.position.x pose.position.y with
    | some (mx, my) =>
      if nav.getCost mx my ≥ inscribedInflatedObstacle then true else isCollisionDetected nav path
    | none => false

/-! ## The controller -/

/-- The parameters, as members of the controller and as values of the node. -/
structure Params (K : Type) where
  translationKp : K
  translationKi : K
  translationKd : K
  enableRotation : Bool
  rotationKp : K
  rotationKi : K
  rotationKd : K
  transformTolerance : K
  minMaxSumError : K
  lookaheadDist : K
  useVelocityScaledLookaheadDist : Bool
  minLookaheadDist : K
  maxLookaheadDist : K
  lookaheadTime : K
  useInterpolation : Bool
  useRotateToHeading : Bool
  useRotateToHeadingTreshold : K
  minApproachLinearVelocity : K
  approachVelocityScalingDist : K
  vLinearMin : K
  vLinearMax : K
  vAngularMin : K
  vAngularMax : K
  maxRobotPoseSearchDist : K
  curvatureMin : K
  curvatureMax : K
  reductionRatioAtHighCurvature : K
  curvatureForwardDist : K
  curvatureBackwardDist : K
  maxVelocityScalingFactorRate : K

/-- The values that `configure` declares; the extent of the costmap is the caller's. -/
def Params.declared (costmapMaxExtent : K) : Params K where
  translationKp := 3.0
  translationKi := 0.1
  translationKd := 0.3
  enableRotation := true
  rotationKp := 3.0
  rotationKi := 0.1
  rotationKd := 0.3
  transformTolerance := 0.1
  minMaxSumError := 1.0
  lookaheadDist := 0.3
  useVelocityScaledLookaheadDist := true
  minLookaheadDist := 0.2
  maxLookaheadDist := 1.0
  lookaheadTime := 1.0
  useInterpolation := true
  useRotateToHeading := true
  useRotateToHeadingTreshold := 0.1
  minApproachLinearVelocity := 0.05
  approachVelocityScalingDist := 0.6
  vLinearMin := -3.0
  vLinearMax := 3.0
  vAngularMin := -3.0
  vAngularMax := 3.0
  maxRobotPoseSearchDist := costmapMaxExtent
  curvatureMin := 0.4
  curvatureMax := 0.7
  reductionRatioAtHighCurvature := 0.5
  curvatureForwardDist := 0.7
  curvatureBackwardDist := 0.3
  maxVelocityScalingFactorRate := 0.9

structure Controller (K : Type) where
  params : Params K
  controlDuration : K
  movePid : Pid K
  headingPid : Pid K
  lastVelocityScalingFactor : K

/-- `configure`; what the last velocity starts with it leaves open. -/
def configure (node : Params K) (controlFrequency lastVelocityScalingFactor : K) : Controller K :=
  let controlDuration := 1 / controlFrequency
  { params := node
    controlDuration := controlDuration
    movePid := .create controlDuration node.vLinearMax node.vLinearMin node.translationKp node.translationKd
      node.translationKi
    headingPid := .create controlDuration node.vAngularMax node.vAngularMin node.rotationKp node.rotationKd
      node.rotationKi
    lastVelocityScalingFactor := lastVelocityScalingFactor }

/-- `std::clamp` -/
def clamp (v lo hi : K) : K := if v < lo then lo else if hi < v then hi else v

/-- `geometry_msgs::msg::Twist`, as far as it is read or set. -/
structure Twist (K : Type) where
  linearX : K
  linearY : K
  angularZ : K

section Cycle

variable (lib : Libm K)

def getLookAheadDistance (params : Params K) (speed : Twist K) : K :=
  if params.useVelocityScaledLookaheadDist then
    clamp (hypot lib speed.linearX speed.linearY * params.lookaheadTime) params.minLookaheadDist params.maxLookaheadDist
  else params.lookaheadDist

def approachVelocityScalingFactor (nav : Nav2 K) (params : Params K) (transformedPath : List (PoseStamped K)) : K :=
  if nav.pathLength transformedPath < params.approachVelocityScalingDist then
    (transformedPath.getLastD .fresh).range lib / params.approachVelocityScalingDist
  else 1

def applyApproachVelocityScaling (nav : Nav2 K) (params : Params K) (path : List (PoseStamped K)) (linearVel : K) : K :=
  let velocityScaling := approachVelocityScalingFactor lib nav params path
  let unboundedVel := linearVel * velocityScaling
  let approachVel :=
    if unboundedVel < params.minApproachLinearVelocity then params.minApproachLinearVelocity
    else linearVel * velocityScaling
  min linearVel approachVel

/-- `applyCurvatureLimitation`; the velocity is remembered as the last one. -/
def applyCurvatureLimitation (nav : Nav2 K) (params : Params K) (controlDuration lastVelocityScalingFactor : K)
    (path : List (PoseStamped K)) (lookaheadPose : PoseStamped K) (linearVel : K) : K :=
  let curvature :=
    calculateCurvature lib nav path lookaheadPose params.curvatureForwardDist params.curvatureBackwardDist
  let scaledLinearVel :=
    if curvature > params.curvatureMin then
      let reductionRatio :=
        if curvature > params.curvatureMax then params.reductionRatioAtHighCurvature
        else 1 - (curvature - params.curvatureMin) / (params.curvatureMax - params.curvatureMin) *
          (1 - params.reductionRatioAtHighCurvature)
      lastVelocityScalingFactor + clamp (linearVel * reductionRatio - lastVelocityScalingFactor)
        (-params.maxVelocityScalingFactorRate * controlDuration) (params.maxVelocityScalingFactorRate * controlDuration)
    else linearVel
  min linearVel (max scaledLinearVel (2.0 * params.minApproachLinearVelocity))

/-- `computeVelocityCommands` of a plan in the robot's frame; a collision throws, after the controller has gone on. -/
def computeVelocityCommands (nav : Nav2 K) (c : Controller K) (transformedPlan : List (PoseStamped K)) (speed : Twist K) :
    Controller K × Option (Twist K) :=
  let lookaheadDist := getLookAheadDistance lib c.params speed
  let carrotPose := getLookAheadPoint lib c.params.useInterpolation lookaheadDist transformedPlan
  let thetaDist := lib.atan2 carrotPose.position.y carrotPose.position.x
  let goalYaw := nav.getYaw (transformedPlan.getLastD .fresh).orientation
  let angleToGoal := if c.params.useRotateToHeading then goalYaw else nav.getYaw carrotPose.orientation
  let linDist :=
    if c.params.useRotateToHeading = true ∧ |goalYaw| > c.params.useRotateToHeadingTreshold then 0
    else carrotPose.range lib
  let (movePid, linVel) := c.movePid.calculate linDist 0
  let (headingPid, angularVel) := if c.params.enableRotation then c.headingPid.calculate angleToGoal 0 else (c.headingPid, 0)
  let limitedVel := applyCurvatureLimitation lib nav c.params c.controlDuration c.lastVelocityScalingFactor
    transformedPlan carrotPose linVel
  let approachVel := applyApproachVelocityScaling lib nav c.params transformedPlan limitedVel
  let next := { c with movePid := movePid, headingPid := headingPid, lastVelocityScalingFactor := limitedVel }
  if isCollisionDetected nav (costmapFrameLocalPlan nav transformedPlan) then (next, none)
  else (next, some ⟨approachVel * lib.cos thetaDist, approachVel * lib.sin thetaDist, angularVel⟩)

end Cycle

/-! ## Parameters at run time -/

/-- `rclcpp::ParameterValue`, as far as the callback reads it. -/
inductive ParameterValue (K : Type)
  | double (value : K)
  | bool (value : Bool)
  | other

/-- `rclcpp::Parameter` -/
structure Parameter (K : Type) where
  name : String
  value : ParameterValue K

/-- The chain of names of `dynamicParametersCallback`, of numbers. -/
def doubleParameters : List (String × (Params K → K → Params K)) :=
  [(".translation_kp", fun p v => { p with translationKp := v }),
    (".translation_ki", fun p v => { p with translationKi := v }),
    (".translation_kd", fun p v => { p with translationKd := v }),
    (".rotation_kp", fun p v => { p with rotationKp := v }),
    (".rotation_ki", fun p v => { p with rotationKi := v }),
    (".rotation_kd", fun p v => { p with rotationKd := v }),
    (".transform_tolerance", fun p v => { p with transformTolerance := v }),
    (".min_max_sum_error", fun p v => { p with minMaxSumError := v }),
    (".lookahead_dist", fun p v => { p with lookaheadDist := v }),
    (".min_lookahead_dist", fun p v => { p with minLookaheadDist := v }),
    (".max_lookahead_dist", fun p v => { p with maxLookaheadDist := v }),
    (".lookahead_time", fun p v => { p with lookaheadTime := v }),
    (".use_rotate_to_heading_treshold", fun p v => { p with useRotateToHeadingTreshold := v }),
    (".min_approach_linear_velocity", fun p v => { p with minApproachLinearVelocity := v }),
    (".approach_velocity_scaling_dist", fun p v => { p with approachVelocityScalingDist := v }),
    (".v_linear_max", fun p v => { p with vLinearMax := v }),
    (".v_linear_min", fun p v => { p with vLinearMin := v }),
    (".v_angular_max", fun p v => { p with vAngularMax := v }),
    (".v_angular_min", fun p v => { p with vAngularMin := v }),
    (".curvature_min", fun p v => { p with curvatureMin := v }),
    (".curvature_max", fun p v => { p with curvatureMax := v }),
    (".reduction_ratio_at_high_curvature", fun p v => { p with reductionRatioAtHighCurvature := v }),
    (".curvature_forward_dist", fun p v => { p with curvatureForwardDist := v }),
    (".curvature_backward_dist", fun p v => { p with curvatureBackwardDist := v }),
    (".max_velocity_scaling_factor_rate", fun p v => { p with maxVelocityScalingFactorRate := v })]

/-- The same of switches. -/
def boolParameters : List (String × (Params K → Bool → Params K)) :=
  [(".use_velocity_scaled_lookahead_dist", fun p v => { p with useVelocityScaledLookaheadDist := v }),
    (".use_interpolation", fun p v => { p with useInterpolation := v }),
    (".use_rotate_to_heading", fun p v => { p with useRotateToHeading := v })]

/-- One parameter of a call, on the members. -/
def Params.set (pluginName : String) (params : Params K) (parameter : Parameter K) : Params K :=
  match parameter.value with
  | .double value =>
    match doubleParameters.find? fun entry => decide (parameter.name = pluginName ++ entry.1) with
    | some entry => entry.2 params value
    | none => params
  | .bool value =>
    match boolParameters.find? fun entry => decide (parameter.name = pluginName ++ entry.1) with
    | some entry => entry.2 params value
    | none => params
  | .other => params

/-- `dynamicParametersCallback`; it never fails. -/
def dynamicParametersCallback (pluginName : String) (c : Controller K) (parameters : List (Parameter K)) : Controller K :=
  { c with params := parameters.foldl (Params.set pluginName) c.params }

end Pursuit
end LfSentry
