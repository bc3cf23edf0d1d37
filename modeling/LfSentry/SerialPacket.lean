import LfSentry.SerialCrc
import LfSentry.Fp
/-!
# SerialPacket — the packed structs of the link (`packet_typedef.hpp`)

A packed struct is its bytes: `fromVector` zeroes one and copies what the buffer has, `toVector` hands them back.
The members are read in the order of their declaration, little-endian, bit-fields from the lowest bit.
-/
namespace LfSentry
namespace Serial

def sofReceive : U8 := 0x5A

/-! ## Ids -/

def idDebug : U8 := 0x01
def idImu : U8 := 0x02
def idRobotStateInfo : U8 := 0x03
def idEventData : U8 := 0x04
def idPidDebug : U8 := 0x05
def idAllRobotHp : U8 := 0x06
def idGameStatus : U8 := 0x07
def idRobotMotion : U8 := 0x08
def idGroundRobotPosition : U8 := 0x09
def idRfidStatus : U8 := 0x0A
def idRobotStatus : U8 := 0x0B
def idJointState : U8 := 0x0C
def idBuff : U8 := 0x0D
def idSentryInfo : U8 := 0x0E
def idMapCommand : U8 := 0x0F
def idBulletSpeed : U8 := 0x10

def debugPackageNum : Nat := 10
def debugPackageNameLen : Nat := 10

/-! ## Packed bytes -/

/-- The bytes of a packed struct of size `n`. -/
structure Packed (n : Nat) where
  bytes : List U8
  size_eq : bytes.length = n
deriving DecidableEq

/-- The copy of `fromVector`: a zeroed struct of `size` cells, its first cells overwritten by the data.  The cells are
of any type, so that the copy cannot look at them. -/
def fromVectorOf {α : Type} (zero : α) (size : Nat) (data : List α) : List α :=
  let copySize := min data.length size
  data.take copySize ++ (List.replicate size zero).drop copySize

theorem length_fromVectorOf {α : Type} (zero : α) (size : Nat) (data : List α) :
    (fromVectorOf zero size data).length = size := by
  simp only [fromVectorOf, List.length_append, List.length_take, List.length_drop, List.length_replicate]
  omega

def fromVector (size : Nat) (data : List U8) : Packed size :=
  ⟨fromVectorOf 0 size data, length_fromVectorOf 0 size data⟩

theorem getElem?_fromVectorOf {α : Type} (zero : α) (size : Nat) (data : List α) (o : Nat) (ho : o < size) :
    (fromVectorOf zero size data)[o]? = some (data.getD o zero) := by
  unfold fromVectorOf
  by_cases h : o < data.length
  · rw [List.getElem?_append_left (by simp; omega), List.getElem?_take_of_lt (by omega),
      List.getElem?_eq_getElem h, List.getD_eq_getElem?_getD, List.getElem?_eq_getElem h]
    rfl
  · have hlen : (data.take (min data.length size)).length = data.length := by simp; omega
    rw [List.getElem?_append_right (by rw [hlen]; omega), hlen, List.getElem?_drop, List.getElem?_replicate,
      if_pos (by omega), List.getD_eq_getElem?_getD, List.getElem?_eq_none (by omega)]
    rfl

/-- **The copy commutes with every renaming of the cells.** -/
theorem map_fromVectorOf {α β : Type} (f : α → β) (zero : α) (size : Nat) (data : List α) :
    (fromVectorOf zero size data).map f = fromVectorOf (f zero) size (data.map f) := by
  simp [fromVectorOf, List.map_take]

/-- **Trailing zeros of the data are what the struct held anyway.** -/
theorem fromVectorOf_append_zeros {α : Type} (zero : α) (size : Nat) (data : List α) (z : Nat) :
    fromVectorOf zero size (data ++ List.replicate z zero) = fromVectorOf zero size data := by
  refine List.ext_getElem? fun o => ?_
  by_cases ho : o < size
  · rw [getElem?_fromVectorOf _ _ _ _ ho, getElem?_fromVectorOf _ _ _ _ ho, List.getD_eq_getElem?_getD,
      List.getD_eq_getElem?_getD, List.getElem?_append]
    split
    · rfl
    · rename_i hlt
      have hd : data[o]? = none := List.getElem?_eq_none (by omega)
      rw [hd, List.getElem?_replicate]
      split <;> rfl
  · rw [List.getElem?_eq_none (by rw [length_fromVectorOf]; omega),
      List.getElem?_eq_none (by rw [length_fromVectorOf]; omega)]

/-! ## Members in order -/

/-- Reads members off the front of the remaining bytes. -/
abbrev Reader := StateM (List U8)

namespace Reader

def u8 : Reader U8 := fun bs => (bs.headD 0, bs.tail)

def u16 : Reader U16 := do
  let b0 ← u8
  let b1 ← u8
  return b1 ++ b0

def u32 : Reader U32 := do
  let b0 ← u8
  let b1 ← u8
  let b2 ← u8
  let b3 ← u8
  return b3 ++ b2 ++ b1 ++ b0

end Reader

structure F32 where
  bits : U32
deriving DecidableEq

def F32.value (f : F32) : Fp := Fp.ofBits32 f.bits

def Reader.f32 : Reader F32 := do return ⟨← Reader.u32⟩

def Reader.bytes : Nat → Reader (List U8)
  | 0 => return []
  | n + 1 => do
    let b ← Reader.u8
    return b :: (← Reader.bytes n)

/-- `n` bits from bit `lo`. -/
def bitField {w : Nat} (x : BitVec w) (lo n : Nat) : U8 := (x.extractLsb' lo n).setWidth 8

open Reader

structure HeaderFrame where
  sof : U8
  len : U8
  id : U8
  crc : U8
deriving DecidableEq

def HeaderFrame.read : Reader HeaderFrame := do
  return { sof := ← u8, len := ← u8, id := ← u8, crc := ← u8 }

def HeaderFrame.bytes (h : HeaderFrame) : List U8 := [h.sof, h.len, h.id, h.crc]

def sizeofHeaderFrame : Nat := 1 + 1 + 1 + 1

def headerFrameOf (data : List U8) : HeaderFrame := (HeaderFrame.read.run (fromVector sizeofHeaderFrame data).bytes).1

/-! ## The received structs, each after its header frame and before its checksum -/

structure DebugPackage where
  name : List U8
  type : U8
  data : F32
deriving DecidableEq

def DebugPackage.read : Reader DebugPackage := do
  return { name := ← Reader.bytes debugPackageNameLen, type := ← u8, data := ← f32 }

structure ReceiveDebugData where
  timeStamp : U32
  packages : List DebugPackage
deriving DecidableEq

def readPackages : Nat → Reader (List DebugPackage)
  | 0 => return []
  | n + 1 => do
    let p ← DebugPackage.read
    return p :: (← readPackages n)

def ReceiveDebugData.read : Reader ReceiveDebugData := do
  return { timeStamp := ← u32, packages := ← readPackages debugPackageNum }

structure ReceiveImuData where
  timeStamp : U32
  yaw : F32
  pitch : F32
  roll : F32
  yawVel : F32
  pitchVel : F32
  rollVel : F32
deriving DecidableEq

def ReceiveImuData.read : Reader ReceiveImuData := do
  return { timeStamp := ← u32, yaw := ← f32, pitch := ← f32, roll := ← f32, yawVel := ← f32, pitchVel := ← f32,
           rollVel := ← f32 }

structure ReceiveRobotInfoData where
  timeStamp : U32
  type : U16
  state : U8
deriving DecidableEq

namespace ReceiveRobotInfoData

def read : Reader ReceiveRobotInfoData := do return { timeStamp := ← u32, type := ← u16, state := ← u8 }

def chassis (d : ReceiveRobotInfoData) : U8 := bitField d.type 0 3
def gimbal (d : ReceiveRobotInfoData) : U8 := bitField d.type 3 3
def shoot (d : ReceiveRobotInfoData) : U8 := bitField d.type 6 3
def arm (d : ReceiveRobotInfoData) : U8 := bitField d.type 9 3
def customController (d : ReceiveRobotInfoData) : U8 := bitField d.type 12 3

end ReceiveRobotInfoData

structure ReceiveEventData where
  timeStamp : U32
  data0 : U8
  data1 : U8
deriving DecidableEq

namespace ReceiveEventData

def read : Reader ReceiveEventData := do return { timeStamp := ← u32, data0 := ← u8, data1 := ← u8 }

def nonOverlappingSupplyZone (d : ReceiveEventData) : U8 := bitField d.data0 0 1
def overlappingSupplyZone (d : ReceiveEventData) : U8 := bitField d.data0 1 1
def supplyZone (d : ReceiveEventData) : U8 := bitField d.data0 2 1
def smallEnergy (d : ReceiveEventData) : U8 := bitField d.data0 3 1
def bigEnergy (d : ReceiveEventData) : U8 := bitField d.data0 4 1
def centralHighland (d : ReceiveEventData) : U8 := bitField d.data0 5 2
def trapezoidalHighland (d : ReceiveEventData) : U8 := bitField d.data1 0 2
def centerGainZone (d : ReceiveEventData) : U8 := bitField d.data1 2 2

end ReceiveEventData

structure ReceiveAllRobotHpData where
  timeStamp : U32
  ally1RobotHp : U16
  ally2RobotHp : U16
  ally3RobotHp : U16
  ally4RobotHp : U16
  reserved : U16
  ally7RobotHp : U16
  allyOutpostHp : U16
  allyBaseHp : U16
deriving DecidableEq

def ReceiveAllRobotHpData.read : Reader ReceiveAllRobotHpData := do
  return { timeStamp := ← u32, ally1RobotHp := ← u16, ally2RobotHp := ← u16, ally3RobotHp := ← u16,
           ally4RobotHp := ← u16, reserved := ← u16, ally7RobotHp := ← u16, allyOutpostHp := ← u16,
           allyBaseHp := ← u16 }

structure ReceiveGameStatusData where
  timeStamp : U32
  gameProgress : U8
  stageRemainTime : U16
deriving DecidableEq

def ReceiveGameStatusData.read : Reader ReceiveGameStatusData := do
  return { timeStamp := ← u32, gameProgress := ← u8, stageRemainTime := ← u16 }

structure ReceiveRobotMotionData where
  timeStamp : U32
  vx : F32
  vy : F32
  wz : F32
deriving DecidableEq

def ReceiveRobotMotionData.read : Reader ReceiveRobotMotionData := do
  return { timeStamp := ← u32, vx := ← f32, vy := ← f32, wz := ← f32 }

structure ReceiveGroundRobotPosition where
  timeStamp : U32
  heroX : F32
  heroY : F32
  engineerX : F32
  engineerY : F32
  standard3X : F32
  standard3Y : F32
  standard4X : F32
  standard4Y : F32
  reserved1 : F32
  reserved2 : F32
deriving DecidableEq

def ReceiveGroundRobotPosition.read : Reader ReceiveGroundRobotPosition := do
  return { timeStamp := ← u32, heroX := ← f32, heroY := ← f32, engineerX := ← f32, engineerY := ← f32,
           standard3X := ← f32, standard3Y := ← f32, standard4X := ← f32, standard4Y := ← f32,
           reserved1 := ← f32, reserved2 := ← f32 }

structure ReceiveRfidStatus where
  timeStamp : U32
  rfidStatus : U32
  rfidStatus2 : U8
deriving DecidableEq

def ReceiveRfidStatus.read : Reader ReceiveRfidStatus := do
  return { timeStamp := ← u32, rfidStatus := ← u32, rfidStatus2 := ← u8 }

structure ReceiveRobotStatus where
  timeStamp : U32
  robotId : U8
  robotLevel : U8
  currentUp : U16
  maximumHp : U16
  shooterBarrelCoolingValue : U16
  shooterBarrelHeatLimit : U16
  shooter17mm1BarrelHeat : U16
  robotPosX : F32
  robotPosY : F32
  robotPosAngle : F32
  hit : U8
  projectileAllowance17mm : U16
  remainingGoldCoin : U16
deriving DecidableEq

namespace ReceiveRobotStatus

def read : Reader ReceiveRobotStatus := do
  return { timeStamp := ← u32, robotId := ← u8, robotLevel := ← u8, currentUp := ← u16, maximumHp := ← u16,
           shooterBarrelCoolingValue := ← u16, shooterBarrelHeatLimit := ← u16, shooter17mm1BarrelHeat := ← u16,
           robotPosX := ← f32, robotPosY := ← f32, robotPosAngle := ← f32, hit := ← u8,
           projectileAllowance17mm := ← u16, remainingGoldCoin := ← u16 }

def armorId (d : ReceiveRobotStatus) : U8 := bitField d.hit 0 4
def hpDeductionReason (d : ReceiveRobotStatus) : U8 := bitField d.hit 4 4

end ReceiveRobotStatus

structure ReceiveJointState where
  timeStamp : U32
  pitch : F32
  yaw : F32
deriving DecidableEq

def ReceiveJointState.read : Reader ReceiveJointState := do
  return { timeStamp := ← u32, pitch := ← f32, yaw := ← f32 }

structure ReceiveBuff where
  timeStamp : U32
  recoveryBuff : U8
  coolingBuff : U16
  defenceBuff : U8
  vulnerabilityBuff : U8
  attackBuff : U16
  remainingEnergy : U8
deriving DecidableEq

def ReceiveBuff.read : Reader ReceiveBuff := do
  return { timeStamp := ← u32, recoveryBuff := ← u8, coolingBuff := ← u16, defenceBuff := ← u8,
           vulnerabilityBuff := ← u8, attackBuff := ← u16, remainingEnergy := ← u8 }

structure ReceiveSentryInfoData where
  timeStamp : U32
  sentryInfo : U32
  sentryInfo2 : U16
deriving DecidableEq

def ReceiveSentryInfoData.read : Reader ReceiveSentryInfoData := do
  return { timeStamp := ← u32, sentryInfo := ← u32, sentryInfo2 := ← u16 }

structure ReceiveMapCommandData where
  timeStamp : U32
  targetPositionX : F32
  targetPositionY : F32
  cmdKeyboard : U8
  targetRobotId : U8
  cmdSource : U16
deriving DecidableEq

def ReceiveMapCommandData.read : Reader ReceiveMapCommandData := do
  return { timeStamp := ← u32, targetPositionX := ← f32, targetPositionY := ← f32, cmdKeyboard := ← u8,
           targetRobotId := ← u8, cmdSource := ← u16 }

structure ReceiveBulletSpeedData where
  timeStamp : U32
  bulletSpeed : F32
deriving DecidableEq

def ReceiveBulletSpeedData.read : Reader ReceiveBulletSpeedData := do
  return { timeStamp := ← u32, bulletSpeed := ← f32 }

/-! ## The kinds of packet -/

inductive PacketKind where
  | debug | imu | robotInfo | event | allRobotHp | gameStatus | robotMotion | groundRobotPosition | rfidStatus
  | robotStatus | jointState | buff | sentryInfo | mapCommand | bulletSpeed
deriving DecidableEq, Repr

namespace PacketKind

/-- The size of the `data` member (of `packages` for the debug struct), member by member. -/
def sizeofData : PacketKind → Nat
  | debug => debugPackageNum * (debugPackageNameLen + 1 + 4)
  | imu => 4 + 4 + 4 + 4 + 4 + 4
  | robotInfo => 2 + 1
  | event => 1 + 1
  | allRobotHp => 2 + 2 + 2 + 2 + 2 + 2 + 2 + 2
  | gameStatus => 1 + 2
  | robotMotion => 4 + 4 + 4
  | groundRobotPosition => 4 + 4 + 4 + 4 + 4 + 4 + 4 + 4 + 4 + 4
  | rfidStatus => 4 + 1
  | robotStatus => 1 + 1 + 2 + 2 + 2 + 2 + 2 + 4 + 4 + 4 + 1 + 2 + 2
  | jointState => 4 + 4
  | buff => 1 + 2 + 1 + 1 + 2 + 1
  | sentryInfo => 4 + 2
  | mapCommand => 4 + 4 + 1 + 1 + 2
  | bulletSpeed => 4

/-- Header frame, time stamp, data, checksum. -/
def sizeof (k : PacketKind) : Nat := sizeofHeaderFrame + 4 + k.sizeofData + 2

/-- What a `case` of `receiveData`'s switch decodes; that of `ID_PID_DEBUG` only warns, as an unknown id does. -/
def ofId (id : U8) : Option PacketKind :=
  if id = idDebug then some debug
  else if id = idImu then some imu
  else if id = idRobotStateInfo then some robotInfo
  else if id = idEventData then some event
  else if id = idPidDebug then none
  else if id = idAllRobotHp then some allRobotHp
  else if id = idGameStatus then some gameStatus
  else if id = idRobotMotion then some robotMotion
  else if id = idGroundRobotPosition then some groundRobotPosition
  else if id = idRfidStatus then some rfidStatus
  else if id = idRobotStatus then some robotStatus
  else if id = idJointState then some jointState
  else if id = idBuff then some buff
  else if id = idSentryInfo then some sentryInfo
  else if id = idMapCommand then some mapCommand
  else if id = idBulletSpeed then some bulletSpeed
  else none

end PacketKind

/-- What the switch hands on: a decoded struct, or an id that only gets a warning. -/
inductive Packet where
  | decoded (k : PacketKind) (s : Packed k.sizeof)
  | notHandled (id : U8)
deriving DecidableEq

def packetOf (headerFrame : HeaderFrame) (dataBuf : List U8) : Packet :=
  match PacketKind.ofId headerFrame.id with
  | some k => .decoded k (fromVector k.sizeof dataBuf)
  | none => .notHandled headerFrame.id

/-- **The switch does not see trailing zeros of the buffer.** -/
theorem packetOf_append_zeros (headerFrame : HeaderFrame) (dataBuf : List U8) (z : Nat) :
    packetOf headerFrame (dataBuf ++ List.replicate z 0) = packetOf headerFrame dataBuf := by
  unfold packetOf fromVector
  cases PacketKind.ofId headerFrame.id with
  | none => rfl
  | some k => simp only [fromVectorOf_append_zeros]

end Serial
end LfSentry
