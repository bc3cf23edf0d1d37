import LfSentry.Runs
import LfSentry.Samples
import LfSentry.SerialPacket
import LfSentry.VisionCrc
/-!
# GimbalSerial — the gimbal's reading thread (`io/gimbal/gimbal.cpp`, `io/gimbal/gimbal.hpp`)

The thread reads two bytes until they are `SP`, then the rest of a `GimbalToVision` and checks it.  A frame has 43 bytes:
a reader that is off by one byte passes over a frame in pairs and meets the head of the next one.
-/
namespace LfSentry
namespace Vision
namespace GimbalSerial

open Samples

/-! ## The frame -/

structure Quaternion where
  w : Serial.F32
  x : Serial.F32
  y : Serial.F32
  z : Serial.F32
  deriving DecidableEq

structure GimbalToVision where
  head0 : U8
  head1 : U8
  mode : U8
  q : Quaternion
  yaw : Serial.F32
  yawVel : Serial.F32
  pitch : Serial.F32
  pitchVel : Serial.F32
  bulletSpeed : Serial.F32
  bulletCount : U16
  crc16 : U16
  deriving DecidableEq

open Serial.Reader in
def GimbalToVision.read : Serial.Reader GimbalToVision := do
  return {
    head0 := ← u8, head1 := ← u8, mode := ← u8
    q := { w := ← f32, x := ← f32, y := ← f32, z := ← f32 }
    yaw := ← f32, yawVel := ← f32, pitch := ← f32, pitchVel := ← f32, bulletSpeed := ← f32
    bulletCount := ← u16, crc16 := ← u16 }

def sizeofGimbalToVision : Nat := 2 + 1 + 4 * 4 + 5 * 4 + 2 + 2

/-- The bytes of `rx_data_`, read as the struct they lie over. -/
def gimbalToVisionOf (rxData : List U8) : GimbalToVision := (GimbalToVision.read.run rxData).1

def headS : U8 := 0x53
def headP : U8 := 0x50

/-! ## The thread -/

inductive GimbalMode
  | idle
  | autoAim
  | smallBuff
  | bigBuff
  deriving DecidableEq, Repr

structure GimbalState where
  yaw : Serial.F32
  yawVel : Serial.F32
  pitch : Serial.F32
  pitchVel : Serial.F32
  bulletSpeed : Serial.F32
  bulletCount : U16
  deriving DecidableEq

/-- The call of `read` under way with the bytes it has so far, or the attempt to reconnect. -/
inductive Phase
  | head (got : List U8)
  | body (t : Int) (got : List U8)
  | reconnecting
  deriving DecidableEq

structure Gimbal where
  phase : Phase
  errorCount : Nat
  isOpen : Bool
  mode : GimbalMode
  state : GimbalState
  deriving DecidableEq

/-- The members of `state_` start as they are found. -/
def Gimbal.init (state : GimbalState) : Gimbal := ⟨.head [], 0, true, .idle, state⟩

inductive Event
  | pushed (v : Sample Quaternion Int)
  | cleared
  deriving DecidableEq

/-- The switch on the mode byte; any other value is idle. -/
def modeOf (mode : U8) : GimbalMode :=
  if mode = 0 then .idle else if mode = 1 then .autoAim else if mode = 2 then .smallBuff else if mode = 3 then .bigBuff
  else .idle

def onFrame (s : Gimbal) (t : Int) (rxData : List U8) : Gimbal × List Event :=
  if !checkCrc16 rxData sizeofGimbalToVision then ({ s with phase := .head [] }, [])
  else
    let rx := gimbalToVisionOf rxData
    ({ s with
        phase := .head []
        errorCount := 0
        mode := modeOf rx.mode
        state := ⟨rx.yaw, rx.yawVel, rx.pitch, rx.pitchVel, rx.bulletSpeed, rx.bulletCount⟩ },
      [.pushed ⟨rx.q, t⟩])

/-- `serial_.read` gave the bytes `bs`; the clock says `now` when the head is complete. -/
def onRead (s : Gimbal) (bs : List U8) (now : Int) : Gimbal × List Event :=
  match s.phase with
  | .head got =>
    let got := got ++ bs
    if got.length < 2 then ({ s with phase := .head got }, [])
    else if got ≠ [headS, headP] then ({ s with phase := .head [] }, [])
    else ({ s with phase := .body now [] }, [])
  | .body t got =>
    let got := got ++ bs
    if got.length < sizeofGimbalToVision - 2 then ({ s with phase := .body t got }, [])
    else onFrame s t ([headS, headP] ++ got)
  | .reconnecting => (s, [])

/-- What is left of the bytes that `read` was asked for. -/
def wants : Phase → Nat
  | .head got => 2 - got.length
  | .body _ got => sizeofGimbalToVision - 2 - got.length
  | .reconnecting => 0

/-- `read` has timed out: after more than 5000 times the thread reconnects. -/
def onTimeout (s : Gimbal) : Gimbal :=
  let errorCount := s.errorCount + 1
  { s with errorCount := errorCount, phase := if errorCount > 5000 then .reconnecting else .head [] }

inductive Input
  | read (bs : List U8) (now : Int)
  | timeout
  | reconnect (opened : Bool)
  deriving DecidableEq

/-- `read_thread`; a port that did not open again ends it at its next read. -/
def readThread : Machine Gimbal Input Event where
  step s
    | .read bs now =>
      if s.isOpen = true ∧ s.phase ≠ .reconnecting ∧ bs.length ≤ wants s.phase then some (onRead s bs now) else none
    | .timeout => if s.isOpen = true ∧ s.phase ≠ .reconnecting then some (onTimeout s, []) else none
    | .reconnect opened =>
      if s.phase = .reconnecting then
        some ({ s with errorCount := 0, isOpen := opened, phase := .head [] }, if opened then [.cleared] else [])
      else none

end GimbalSerial
end Vision
end LfSentry
