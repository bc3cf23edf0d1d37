import LfSentry.SerialPacket
/-!
# SerialPublish — from a decoded packet to its messages (`publish*` of `standard_robot_pp_ros2.cpp`)

A handler may throw; what it did before that stays done.  What the handlers ask of ROS is a parameter (`Ros`): whether
a publisher can be created for a topic, the two quaternion constructors, and the two calls into other nodes, each of
which may answer differently every time.  Stamps taken from the node's clock are left out.
-/
namespace LfSentry
namespace Serial

inductive Exn where
  | outOfRange
  | thrown (what : String)
deriving DecidableEq, Repr

structure Quaternion where
  x : Fp
  y : Fp
  z : Fp
  w : Fp
deriving DecidableEq

/-- The calls into ROS and tf2.  A call into another node is told how many such calls came before it. -/
structure Ros where
  createPublisher : (topic : List U8) → Except Exn Unit
  setRpy : (roll pitch yaw : Fp) → Quaternion
  quaternionAboutZ : (angle : Fp) → Quaternion
  callTriggerService : (calls : Nat) → (serviceName : String) → Except Exn Bool
  setParam : (calls : Nat) → (detectColor : U8) → Except Exn Unit

/-! ## The messages -/

structure RobotStateInfoMsg where
  stampSec : Nat
  stampNanosec : Nat
  chassis : String
  gimbal : String
  shoot : String
  arm : String
  customController : String
deriving DecidableEq

structure EventDataMsg where
  nonOverlappingSupplyZone : U8
  overlappingSupplyZone : U8
  supplyZone : U8
  smallEnergy : U8
  bigEnergy : U8
  centralHighland : U8
  trapezoidalHighland : U8
  centerGainZone : U8
deriving DecidableEq

structure GameRobotHpMsg where
  ally1RobotHp : U16
  ally2RobotHp : U16
  ally3RobotHp : U16
  ally4RobotHp : U16
  ally7RobotHp : U16
  allyOutpostHp : U16
  allyBaseHp : U16
deriving DecidableEq

structure RfidStatusMsg where
  baseGainPoint : Bool
  centralHighlandGainPoint : Bool
  enemyCentralHighlandGainPoint : Bool
  friendlyTrapezoidalHighlandGainPoint : Bool
  enemyTrapezoidalHighlandGainPoint : Bool
  friendlyFlyRampFrontGainPoint : Bool
  friendlyFlyRampBackGainPoint : Bool
  enemyFlyRampFrontGainPoint : Bool
  enemyFlyRampBackGainPoint : Bool
  friendlyCentralHighlandLowerGainPoint : Bool
  friendlyCentralHighlandUpperGainPoint : Bool
  enemyCentralHighlandLowerGainPoint : Bool
  enemyCentralHighlandUpperGainPoint : Bool
  friendlyHighwayLowerGainPoint : Bool
  friendlyHighwayUpperGainPoint : Bool
  enemyHighwayLowerGainPoint : Bool
  enemyHighwayUpperGainPoint : Bool
  friendlyFortressGainPoint : Bool
  friendlyOutpostGainPoint : Bool
  friendlySupplyZoneNonExchange : Bool
  friendlySupplyZoneExchange : Bool
  friendlyBigResourceIsland : Bool
  enemyBigResourceIsland : Bool
  centerGainPoint : Bool
deriving DecidableEq

structure RobotStatusMsg where
  robotId : U8
  robotLevel : U8
  currentHp : U16
  maximumHp : U16
  shooterBarrelCoolingValue : U16
  shooterBarrelHeatLimit : U16
  shooter17mm1BarrelHeat : U16
  robotPosX : Fp
  robotPosY : Fp
  robotPosOrientation : Quaternion
  armorId : U8
  hpDeductionReason : U8
  projectileAllowance17mm : U16
  remainingGoldCoin : U16
  isHpDeduced : Bool
deriving DecidableEq

structure BuffMsg where
  recoveryBuff : U8
  coolingBuff : U16
  defenceBuff : U8
  vulnerabilityBuff : U8
  attackBuff : U16
  remainingEnergy : U8
deriving DecidableEq

structure SentryInfoMsg where
  exchangedProjectileAllowance : U16
  remoteProjectileExchangeCount : U8
  remoteHpExchangeCount : U8
  canFreeRespawn : Bool
  canPayRespawn : Bool
  respawnGoldCost : U16
  currentPosture : U8
  canActivateRune : Bool
deriving DecidableEq

/-- A published message; the constructor is the topic. -/
inductive Msg where
  | debug (name : List U8) (data : Fp)
  | imu (orientation : Quaternion) (velX velY velZ : Fp)
  | gimbalJointState (name : List String) (position : List Fp)
  | robotStateInfo (msg : RobotStateInfoMsg)
  | eventData (msg : EventDataMsg)
  | allRobotHp (msg : GameRobotHpMsg)
  | gameStatus (gameProgress : U8) (stageRemainTime : Nat)
  | robotMotion (linearX linearY angularZ : Fp)
  | groundRobotPosition (hero engineer standard3 standard4 : Fp × Fp)
  | rfidStatus (msg : RfidStatusMsg)
  | robotStatus (msg : RobotStatusMsg)
  | buff (msg : BuffMsg)
  | sentryInfo (msg : SentryInfoMsg)
  | mapCommand (x y z : Fp)
  | bulletSpeed (data : Fp)
deriving DecidableEq

/-! ## The node -/

/-- The members of `StandardRobotPpRos2Node` that the receive path reads or writes. -/
structure Node where
  isUsbOk : Bool
  debug : Bool
  recordRosbag : Bool
  setDetectorColor : Bool
  debugPubMap : List (List U8)
  initialSetParam : Bool
  previousReceiveColor : U8
  previousGameProgress : U8
  lastHp : Fp
  lastGimbalPitchOdomJoint : F32
  lastGimbalYawOdomJoint : F32
  /-- Calls into other nodes so far. -/
  rosCalls : Nat
deriving DecidableEq

structure PubState where
  node : Node
  out : List Msg
deriving DecidableEq

/-- A handler: it changes the node, publishes, and may throw. -/
abbrev Pub := EStateM Exn PubState

def publish (msg : Msg) : Pub Unit := modify fun s => { s with out := s.out ++ [msg] }

def getNode : Pub Node := do return (← get).node

def modifyNode (f : Node → Node) : Pub Unit := modify fun s => { s with node := f s.node }

def call {α : Type} : Except Exn α → Pub α
  | .ok a => return a
  | .error e => throw e

/-! ## The model tables -/

namespace RobotModels

def chassis : List (U8 × String) := [(0, "无底盘"), (1, "麦轮底盘"), (2, "全向轮底盘"), (3, "舵轮底盘"), (4, "平衡底盘")]
def gimbal : List (U8 × String) := [(0, "无云台"), (1, "yaw_pitch直连云台")]
def shoot : List (U8 × String) := [(0, "无发射机构"), (1, "摩擦轮+拨弹盘"), (2, "气动+拨弹盘")]
def arm : List (U8 × String) := [(0, "无机械臂"), (1, "mini机械臂")]
def customController : List (U8 × String) := [(0, "无自定义控制器"), (1, "mini自定义控制器")]

end RobotModels

def mapAt (m : List (U8 × String)) (k : U8) : Except Exn String :=
  match m.lookup k with
  | some v => .ok v
  | none => .error .outOfRange

/-! ## The handlers -/

section
variable (ros : Ros)

def ascii (s : String) : List U8 := s.toList.map fun c => BitVec.ofNat 8 c.toNat

def createNewDebugPublisher (name : List U8) : Pub Unit := do
  call (ros.createPublisher (ascii "serial/debug/" ++ name))
  modifyNode fun n => { n with debugPubMap := name :: n.debugPubMap }

def debugPubAt (name : List U8) : Pub Unit := do
  if !(← getNode).debugPubMap.contains name then throw .outOfRange

/-- The bytes of a package's name before its first zero. -/
def nonZeroName (package : DebugPackage) : List U8 := package.name.takeWhile (· != 0)

/-- One turn of the loop of `publishDebugData`. -/
def publishDebugPackage (package : DebugPackage) : Pub Unit := do
  let name := nonZeroName package
  if name.isEmpty then return
  if !(← getNode).debugPubMap.contains name then createNewDebugPublisher ros name
  debugPubAt name
  publish (.debug name package.data.value)

def publishDebugData (d : ReceiveDebugData) : Pub Unit := d.packages.forM (publishDebugPackage ros)

def publishImuData (d : ReceiveImuData) : Pub Unit := do
  publish (.imu (ros.setRpy d.roll.value d.pitch.value d.yaw.value) d.rollVel.value d.pitchVel.value d.yawVel.value)
  let n ← getNode
  publish (.gimbalJointState
    ["gimbal_pitch_joint", "gimbal_yaw_joint", "gimbal_pitch_odom_joint", "gimbal_yaw_odom_joint"]
    [d.pitch.value, d.yaw.value, n.lastGimbalPitchOdomJoint.value, n.lastGimbalYawOdomJoint.value])

def publishRobotInfo (d : ReceiveRobotInfoData) : Pub Unit := do
  let chassis ← call (mapAt RobotModels.chassis d.chassis)
  let gimbal ← call (mapAt RobotModels.gimbal d.gimbal)
  let shoot ← call (mapAt RobotModels.shoot d.shoot)
  let arm ← call (mapAt RobotModels.arm d.arm)
  let customController ← call (mapAt RobotModels.customController d.customController)
  publish (.robotStateInfo {
    stampSec := d.timeStamp.toNat / 1000
    stampNanosec := d.timeStamp.toNat % 1000 * 1000000
    chassis, gimbal, shoot, arm, customController })

def publishEventData (d : ReceiveEventData) : Pub Unit :=
  publish (.eventData {
    nonOverlappingSupplyZone := d.nonOverlappingSupplyZone
    overlappingSupplyZone := d.overlappingSupplyZone
    supplyZone := d.supplyZone
    smallEnergy := d.smallEnergy
    bigEnergy := d.bigEnergy
    centralHighland := d.centralHighland
    trapezoidalHighland := d.trapezoidalHighland
    centerGainZone := d.centerGainZone })

def publishAllRobotHp (d : ReceiveAllRobotHpData) : Pub Unit :=
  publish (.allRobotHp {
    ally1RobotHp := d.ally1RobotHp
    ally2RobotHp := d.ally2RobotHp
    ally3RobotHp := d.ally3RobotHp
    ally4RobotHp := d.ally4RobotHp
    ally7RobotHp := d.ally7RobotHp
    allyOutpostHp := d.allyOutpostHp
    allyBaseHp := d.allyBaseHp })

def countDown : U8 := 3
def gameOver : U8 := 5

/-- The service a new game progress calls, if it calls one. -/
def recordingService (gameProgress : U8) : Option String :=
  if gameProgress = countDown then some "start_recording"
  else if gameProgress = gameOver then some "stop_recording"
  else none

/-- Both outcomes of the call are only logged. -/
def callTriggerService (serviceName : String) : Pub Bool := do
  let n ← getNode
  modifyNode fun n => { n with rosCalls := n.rosCalls + 1 }
  call (ros.callTriggerService n.rosCalls serviceName)

def publishGameStatus (d : ReceiveGameStatusData) : Pub Unit := do
  publish (.gameStatus d.gameProgress d.stageRemainTime.toNat)
  let n ← getNode
  if n.recordRosbag && d.gameProgress != n.previousGameProgress then
    modifyNode fun n => { n with previousGameProgress := d.gameProgress }
    match recordingService d.gameProgress with
    | none => return
    | some serviceName =>
      let _ ← callTriggerService ros serviceName
      return

def publishRobotMotion (d : ReceiveRobotMotionData) : Pub Unit :=
  publish (.robotMotion d.vx.value d.vy.value d.wz.value)

def publishGroundRobotPosition (d : ReceiveGroundRobotPosition) : Pub Unit :=
  publish (.groundRobotPosition (d.heroX.value, d.heroY.value) (d.engineerX.value, d.engineerY.value)
    (d.standard3X.value, d.standard3Y.value) (d.standard4X.value, d.standard4Y.value))

def publishRfidStatus (d : ReceiveRfidStatus) : Pub Unit :=
  let bit32 : Nat → Bool := fun bit => (d.rfidStatus >>> bit) &&& 0x1 != 0
  publish (.rfidStatus {
    baseGainPoint := bit32 0
    centralHighlandGainPoint := bit32 1
    enemyCentralHighlandGainPoint := bit32 2
    friendlyTrapezoidalHighlandGainPoint := bit32 3
    enemyTrapezoidalHighlandGainPoint := bit32 4
    friendlyFlyRampFrontGainPoint := bit32 5
    friendlyFlyRampBackGainPoint := bit32 6
    enemyFlyRampFrontGainPoint := bit32 7
    enemyFlyRampBackGainPoint := bit32 8
    friendlyCentralHighlandLowerGainPoint := bit32 9
    friendlyCentralHighlandUpperGainPoint := bit32 10
    enemyCentralHighlandLowerGainPoint := bit32 11
    enemyCentralHighlandUpperGainPoint := bit32 12
    friendlyHighwayLowerGainPoint := bit32 13
    friendlyHighwayUpperGainPoint := bit32 14
    enemyHighwayLowerGainPoint := bit32 15
    enemyHighwayUpperGainPoint := bit32 16
    friendlyFortressGainPoint := bit32 17
    friendlyOutpostGainPoint := bit32 18
    friendlySupplyZoneNonExchange := bit32 19
    friendlySupplyZoneExchange := bit32 20
    centerGainPoint := bit32 23
    -- the old message has no field for the assembly points: bits 21 and 22 reuse the resource islands
    friendlyBigResourceIsland := bit32 21
    enemyBigResourceIsland := bit32 22 })

/-- `none` for an id that names no robot; no colour is set then. -/
def getDetectColor (robotId : U8) : Option U8 :=
  if robotId = 0 ∨ (11 < robotId ∧ robotId < 101) then none
  else some (if 100 ≤ robotId then 0 else 1)

def setParam (detectColor : U8) : Pub Unit := do
  let n ← getNode
  modifyNode fun n => { n with rosCalls := n.rosCalls + 1 }
  call (ros.setParam n.rosCalls detectColor)

def publishRobotStatus (d : ReceiveRobotStatus) : Pub Unit := do
  let n ← getNode
  let isHpDeduced := Fp.lt (.fin 0) (n.lastHp.sub (.fin d.currentUp.toNat))
  modifyNode fun n => { n with lastHp := .fin d.currentUp.toNat }
  publish (.robotStatus {
    robotId := d.robotId
    robotLevel := d.robotLevel
    currentHp := d.currentUp
    maximumHp := d.maximumHp
    shooterBarrelCoolingValue := d.shooterBarrelCoolingValue
    shooterBarrelHeatLimit := d.shooterBarrelHeatLimit
    shooter17mm1BarrelHeat := d.shooter17mm1BarrelHeat
    robotPosX := d.robotPosX.value
    robotPosY := d.robotPosY.value
    robotPosOrientation := ros.quaternionAboutZ d.robotPosAngle.value
    armorId := d.armorId
    hpDeductionReason := d.hpDeductionReason
    projectileAllowance17mm := d.projectileAllowance17mm
    remainingGoldCoin := d.remainingGoldCoin
    isHpDeduced })
  if n.setDetectorColor then
    match getDetectColor d.robotId with
    | none => return
    | some detectColor =>
      if !n.initialSetParam || detectColor != n.previousReceiveColor then
        modifyNode fun n => { n with previousReceiveColor := detectColor }
        setParam ros detectColor

/-- Nothing is published here: the next IMU packet carries the two angles. -/
def publishJointState (d : ReceiveJointState) : Pub Unit :=
  modifyNode fun n => { n with lastGimbalPitchOdomJoint := d.pitch, lastGimbalYawOdomJoint := d.yaw }

def publishBuff (d : ReceiveBuff) : Pub Unit :=
  publish (.buff {
    recoveryBuff := d.recoveryBuff
    coolingBuff := d.coolingBuff
    defenceBuff := d.defenceBuff
    vulnerabilityBuff := d.vulnerabilityBuff
    attackBuff := d.attackBuff
    remainingEnergy := d.remainingEnergy })

def publishSentryInfo (d : ReceiveSentryInfoData) : Pub Unit :=
  let info := d.sentryInfo
  let info2 := d.sentryInfo2
  publish (.sentryInfo {
    exchangedProjectileAllowance := (info &&& 0x7FF).setWidth 16
    remoteProjectileExchangeCount := ((info >>> 11) &&& 0xF).setWidth 8
    remoteHpExchangeCount := ((info >>> 15) &&& 0xF).setWidth 8
    canFreeRespawn := (info >>> 19) &&& 0x1 != 0
    canPayRespawn := (info >>> 20) &&& 0x1 != 0
    respawnGoldCost := ((info >>> 21) &&& 0x3FF).setWidth 16
    currentPosture := ((info2 >>> 12) &&& 0x3).setWidth 8
    canActivateRune := (info2 >>> 14) &&& 0x1 != 0 })

def publishMapCommand (d : ReceiveMapCommandData) : Pub Unit :=
  publish (.mapCommand d.targetPositionX.value d.targetPositionY.value (.fin 0))

def minBulletSpeed : Fp := .fin 17
def fallbackBulletSpeed : Fp := .fin 20

def publishBulletSpeed (d : ReceiveBulletSpeedData) : Pub Unit :=
  let data := d.bulletSpeed.value
  publish (.bulletSpeed (if !data.isFinite || data.lt minBulletSpeed then fallbackBulletSpeed else data))

/-- A struct read past its header frame. -/
def decode {α : Type} (read : Reader α) {n : Nat} (s : Packed n) : α := (read.run (s.bytes.drop sizeofHeaderFrame)).1

/-- The body of the switch of `receiveData`: decode and hand to the handler of the kind; only a warning otherwise. -/
def handlePacket : Packet → Pub Unit
  | .decoded .debug s => publishDebugData ros (decode ReceiveDebugData.read s)
  | .decoded .imu s => publishImuData ros (decode ReceiveImuData.read s)
  | .decoded .robotInfo s => publishRobotInfo (decode ReceiveRobotInfoData.read s)
  | .decoded .event s => publishEventData (decode ReceiveEventData.read s)
  | .decoded .allRobotHp s => publishAllRobotHp (decode ReceiveAllRobotHpData.read s)
  | .decoded .gameStatus s => publishGameStatus ros (decode ReceiveGameStatusData.read s)
  | .decoded .robotMotion s => publishRobotMotion (decode ReceiveRobotMotionData.read s)
  | .decoded .groundRobotPosition s => publishGroundRobotPosition (decode ReceiveGroundRobotPosition.read s)
  | .decoded .rfidStatus s => publishRfidStatus (decode ReceiveRfidStatus.read s)
  | .decoded .robotStatus s => publishRobotStatus ros (decode ReceiveRobotStatus.read s)
  | .decoded .jointState s => publishJointState (decode ReceiveJointState.read s)
  | .decoded .buff s => publishBuff (decode ReceiveBuff.read s)
  | .decoded .sentryInfo s => publishSentryInfo (decode ReceiveSentryInfoData.read s)
  | .decoded .mapCommand s => publishMapCommand (decode ReceiveMapCommandData.read s)
  | .decoded .bulletSpeed s => publishBulletSpeed (decode ReceiveBulletSpeedData.read s)
  | .notHandled _ => return

end

end Serial
end LfSentry
