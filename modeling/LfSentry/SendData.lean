import LfSentry.CrcBurst
import LfSentry.Runs
import LfSentry.SentryCmd
import LfSentry.SerialPacket
/-!
# SendData — the frames of the send thread and the callbacks that fill them (`standard_robot_pp_ros2.cpp`)

The send thread appends the check to a frame, copies the frame's bytes and hands the copy to the port, three steps between
which the callbacks of the commands write into the frame.  The header stays as it was made.  The check of the copy is that of
the bytes of the append: the copy is consistent iff the callbacks in between leave the check as it was
(`sent_frames_consistent_iff`).
-/
namespace LfSentry
namespace Serial

def F32.bytes (f : F32) : List U8 := octets f.bits 4

namespace Send

/-! ## The structs -/

def sofSend : U8 := 0x5A
def idRobotCmd : U8 := 0x01
def idSentryCmd : U8 := 0x04

structure SpeedVector where
  vx : F32
  vy : F32
  wz : F32
  deriving DecidableEq

structure Chassis where
  roll : F32
  pitch : F32
  yaw : F32
  legLenth : F32
  deriving DecidableEq

structure GimbalAngles where
  pitch : F32
  yaw : F32
  deriving DecidableEq

structure Shoot where
  fire : U8
  fricOn : U8
  deriving DecidableEq

/-- `tracking` is the byte of a `bool`. -/
structure SendRobotCmdData where
  frameHeader : HeaderFrame
  timeStamp : U32
  speedVector : SpeedVector
  chassis : Chassis
  gimbal : GimbalAngles
  shoot : Shoot
  tracking : U8
  checksum : U16
  deriving DecidableEq

structure SendSentryCmdData where
  frameHeader : HeaderFrame
  timeStamp : U32
  sentryCmd : U32
  checksum : U16
  deriving DecidableEq

def sizeofSendRobotCmdData : Nat := sizeofHeaderFrame + 4 + (3 * 4 + 4 * 4 + 2 * 4 + 2 + 1) + 2
def sizeofSendSentryCmdData : Nat := sizeofHeaderFrame + 4 + 4 + 2

/-- The bytes before the checksum. -/
def SendRobotCmdData.body (d : SendRobotCmdData) : List U8 :=
  d.frameHeader.bytes ++ octets d.timeStamp 4 ++
    (d.speedVector.vx.bytes ++ d.speedVector.vy.bytes ++ d.speedVector.wz.bytes) ++
    (d.chassis.roll.bytes ++ d.chassis.pitch.bytes ++ d.chassis.yaw.bytes ++ d.chassis.legLenth.bytes) ++
    (d.gimbal.pitch.bytes ++ d.gimbal.yaw.bytes) ++ [d.shoot.fire, d.shoot.fricOn] ++ [d.tracking]

def SendSentryCmdData.body (d : SendSentryCmdData) : List U8 :=
  d.frameHeader.bytes ++ octets d.timeStamp 4 ++ octets d.sentryCmd 4

/-- The two members of the node. -/
structure Frames where
  robotCmd : SendRobotCmdData
  sentryCmd : SendSentryCmdData
  deriving DecidableEq

inductive FrameKind
  | robotCmd
  | sentryCmd
  deriving DecidableEq, Repr

def FrameKind.sizeof : FrameKind → Nat
  | .robotCmd => sizeofSendRobotCmdData
  | .sentryCmd => sizeofSendSentryCmdData

namespace Frames

def header (fs : Frames) : FrameKind → HeaderFrame
  | .robotCmd => fs.robotCmd.frameHeader
  | .sentryCmd => fs.sentryCmd.frameHeader

def body (fs : Frames) : FrameKind → List U8
  | .robotCmd => fs.robotCmd.body
  | .sentryCmd => fs.sentryCmd.body

def checksum (fs : Frames) : FrameKind → U16
  | .robotCmd => fs.robotCmd.checksum
  | .sentryCmd => fs.sentryCmd.checksum

def toVector (fs : Frames) (k : FrameKind) : List U8 := fs.body k ++ octets (fs.checksum k) 2

/-- The check of a frame as it is. -/
def crc16 (fs : Frames) (k : FrameKind) : U16 := getCrc16CheckSum (fs.toVector k) (k.sizeof - 2) crc16Init

/-- `crc16::append_CRC16_check_sum` on the memory of a frame. -/
def appendCrc16 (fs : Frames) : FrameKind → Frames
  | .robotCmd => { fs with robotCmd := { fs.robotCmd with checksum := fs.crc16 .robotCmd } }
  | .sentryCmd => { fs with sentryCmd := { fs.sentryCmd with checksum := fs.crc16 .sentryCmd } }

end Frames

/-- A header with the `crc8::append_CRC8_check_sum` of its frame. -/
def headerFor (id : U8) (size : Nat) (old : HeaderFrame) : HeaderFrame :=
  let header : HeaderFrame := { old with sof := sofSend, id := id, len := BitVec.ofNat 8 (size - 6) }
  { header with crc := getCrc8CheckSum header.bytes (sizeofHeaderFrame - 1) crc8Init }

/-- What `sendData` does before its loop. -/
def Frames.prepare (fs : Frames) : Frames where
  robotCmd := { fs.robotCmd with
    frameHeader := headerFor idRobotCmd sizeofSendRobotCmdData fs.robotCmd.frameHeader
    speedVector := ⟨⟨0⟩, ⟨0⟩, ⟨0⟩⟩ }
  sentryCmd := { fs.sentryCmd with
    frameHeader := headerFor idSentryCmd sizeofSendSentryCmdData fs.sentryCmd.frameHeader
    sentryCmd := 0 }

/-! ## The callbacks -/

abbrev F64 := BitVec 64

structure Twist where
  linearX : F64
  linearY : F64
  angularZ : F64
  deriving DecidableEq

structure JointStateMsg where
  name : List String
  position : List F64
  deriving DecidableEq

inductive Callback
  | cmdVel (msg : Twist)
  | cmdGimbalJoint (msg : JointStateMsg)
  | visionTarget (tracking : Bool)
  | cmdShoot (data : U8)
  | cmdSentry (msg : Sentry.SentryCmd)
  deriving DecidableEq

section

-- the conversion of a double to a float
variable (toFloat : F64 → F32)

def GimbalAngles.note (gimbal : GimbalAngles) (joint : String × F64) : GimbalAngles :=
  if joint.1 = "gimbal_pitch_joint" then { gimbal with pitch := toFloat joint.2 }
  else if joint.1 = "gimbal_yaw_joint" then { gimbal with yaw := toFloat joint.2 }
  else gimbal

/-- What the callbacks of the commands write. -/
def Callback.run (fs : Frames) : Callback → Frames
  | .cmdVel msg =>
    { fs with robotCmd := { fs.robotCmd with
        speedVector := ⟨toFloat msg.linearX, toFloat msg.linearY, toFloat msg.angularZ⟩ } }
  | .cmdGimbalJoint msg =>
    if msg.name.length ≠ msg.position.length then fs
    else
      { fs with robotCmd := { fs.robotCmd with
          gimbal := (msg.name.zip msg.position).foldl (GimbalAngles.note toFloat) fs.robotCmd.gimbal } }
  | .visionTarget tracking => { fs with robotCmd := { fs.robotCmd with tracking := if tracking then 1 else 0 } }
  | .cmdShoot data => { fs with robotCmd := { fs.robotCmd with shoot := { fricOn := 1, fire := data } } }
  | .cmdSentry msg => { fs with sentryCmd := { fs.sentryCmd with sentryCmd := Sentry.cmdSentryCallback msg } }

/-! ## The send thread -/

/-- Where the thread is, with the buffer it is about to send. -/
inductive SendPc
  | start
  | top
  | append (k : FrameKind)
  | copy (k : FrameKind)
  | send (k : FrameKind) (sendData : List U8)
  deriving DecidableEq

structure Sender where
  frames : Frames
  pc : SendPc
  retryCount : Nat
  sentrySendCounter : Nat
  deriving DecidableEq

/-- A step of the system.  `isUsbOk` is what the thread reads of the flag, which other threads set too. -/
inductive SendLabel
  | callback (c : Callback)
  | prepare
  | test (isUsbOk : Bool)
  | append
  | copy
  | send (throws : Bool)
  deriving DecidableEq

/-- `sendData` among the callbacks; it says what it hands to `send`. -/
def sendData : Machine Sender SendLabel (List U8) where
  step s
    | .callback c => some ({ s with frames := c.run toFloat s.frames }, [])
    | .prepare => if s.pc = .start then some ({ s with frames := s.frames.prepare, pc := .top }, []) else none
    | .test isUsbOk =>
      if s.pc = .top then
        if isUsbOk then some ({ s with pc := .append .robotCmd }, []) else some ({ s with retryCount := s.retryCount + 1 }, [])
      else none
    | .append =>
      match s.pc with
      | .append k => some ({ s with frames := s.frames.appendCrc16 k, pc := .copy k }, [])
      | _ => none
    | .copy =>
      match s.pc with
      | .copy k => some ({ s with pc := .send k (s.frames.toVector k) }, [])
      | _ => none
    | .send throws =>
      match s.pc with
      | .send k buf =>
        -- an exception leaves the turn of the loop, and the counter of the sentry's frames with it
        if throws then some ({ s with pc := .top }, [buf])
        else if k = .robotCmd then
          if s.sentrySendCounter + 1 ≥ 7 then some ({ s with pc := .append .sentryCmd, sentrySendCounter := 0 }, [buf])
          else some ({ s with pc := .top, sentrySendCounter := s.sentrySendCounter + 1 }, [buf])
        else some ({ s with pc := .top }, [buf])
      | _ => none

end

/-! ## What is sent -/

/-- A frame that starts with a checked header, has the length that the header says and ends with the check of the rest. -/
structure Consistent (b : List U8) : Prop where
  headerCrc : verifyCrc8CheckSum b sizeofHeaderFrame = true
  len : (headerFrameOf b).len.toNat = b.length - 6
  crc : b.drop (b.length - 2) = octets (getCrc16CheckSum b (b.length - 2) crc16Init) 2

variable {toFloat : F64 → F32}

/-- Every buffer that the step hands to `send` is consistent. -/
def SendsConsistent {α : Type} (m : Machine α SendLabel (List U8)) (p : α) (l : SendLabel) : Prop :=
  ∀ q es, m.step p l = some (q, es) → ∀ b ∈ es, Consistent b

/-- The frames as the last append left them, and the callbacks since, up to the copy. -/
structure Gap where
  frames : Frames
  callbacks : List Callback
  deriving DecidableEq

def Gap.note (g : Gap) (s : Sender) (l : SendLabel) (t : Sender) : Gap :=
  match l, s.pc with
  | .append, _ => ⟨t.frames, []⟩
  | .callback c, .copy _ => { g with callbacks := g.callbacks ++ [c] }
  | _, _ => g

/-- The frames at the end of the gap. -/
def Gap.after (toFloat : F64 → F32) (g : Gap) : Frames := g.callbacks.foldl (Callback.run toFloat) g.frames

def recordedSender (toFloat : F64 → F32) : Machine (Sender × Gap) SendLabel (List U8) :=
  (sendData toFloat).ghost fun g s l q => g.note s l q.1

/-- What is sent had the same check when it was copied as when the check was appended. -/
def GapKeepsCrc (toFloat : F64 → F32) (p : Sender × Gap) (l : SendLabel) : Prop :=
  ∀ throws, l = .send throws → ∀ k buf, p.1.pc = .send k buf → (p.2.after toFloat).crc16 k = p.2.frames.crc16 k

structure HeaderOk (h : HeaderFrame) (size : Nat) : Prop where
  crc : verifyCrc8CheckSum h.bytes sizeofHeaderFrame = true
  len : h.len.toNat = size - 6

theorem headerOk_headerFor (id : U8) {size : Nat} (h : size - 6 < 256) (old : HeaderFrame) :
    HeaderOk (headerFor id size old) size := by
  refine ⟨?_, ?_⟩
  · unfold headerFor verifyCrc8CheckSum
    rw [if_neg (by decide)]
    exact beq_self_eq_true _
  · show (BitVec.ofNat 8 (size - 6)).toNat = size - 6
    rw [BitVec.toNat_ofNat]
    exact Nat.mod_eq_of_lt h

/-! ## The bytes of a frame -/

theorem body_eq (fs : Frames) (k : FrameKind) :
    ∃ rest, fs.body k = (fs.header k).bytes ++ rest ∧ rest.length = k.sizeof - sizeofHeaderFrame - 2 := by
  cases k with
  | robotCmd =>
    refine ⟨fs.robotCmd.body.drop 4, rfl, ?_⟩
    rfl
  | sentryCmd =>
    refine ⟨fs.sentryCmd.body.drop 4, rfl, ?_⟩
    rfl

theorem body_length (fs : Frames) (k : FrameKind) : (fs.body k).length = k.sizeof - 2 := by
  cases k <;> rfl

theorem toVector_length (fs : Frames) (k : FrameKind) : (fs.toVector k).length = k.sizeof := by
  cases k <;> rfl

theorem crc16_eq (fs : Frames) (k : FrameKind) : fs.crc16 k = crcFold wCrcEntry crc16Init (fs.body k) := by
  rw [Frames.crc16, getCrc16CheckSum_eq, Frames.toVector, ← body_length fs k, List.take_left']
  rfl

theorem appendCrc16_eq (fs : Frames) (k : FrameKind) : (fs.appendCrc16 k).body k = fs.body k ∧
    (fs.appendCrc16 k).checksum k = fs.crc16 k := by
  -- the check of the frame is not to be computed here
  cases k with
  | robotCmd =>
    unfold Frames.appendCrc16
    generalize fs.crc16 .robotCmd = crc
    exact ⟨rfl, rfl⟩
  | sentryCmd =>
    unfold Frames.appendCrc16
    generalize fs.crc16 .sentryCmd = crc
    exact ⟨rfl, rfl⟩

/-- **The append writes into the memory of the frame what `append_CRC16_check_sum` does.** -/
theorem toVector_appendCrc16 (fs : Frames) (k : FrameKind) :
    (fs.appendCrc16 k).toVector k = appendCrc16CheckSum (fs.toVector k) k.sizeof := by
  have hsize : 2 < k.sizeof := by cases k <;> decide
  have hmask : ∀ x : U16, (x &&& 0x00ff).setWidth 8 = x.setWidth 8 := by
    intro x
    rw [← BitVec.toNat_inj, BitVec.toNat_setWidth, and_mask_toNat, BitVec.toNat_setWidth, Nat.mod_mod]
  obtain ⟨hbody, hchecksum⟩ := appendCrc16_eq fs k
  have hlen := body_length fs k
  unfold appendCrc16CheckSum
  rw [if_neg (by omega)]
  dsimp only
  rw [hmask, hmask, Frames.toVector, hbody, hchecksum, Frames.crc16, Frames.toVector, ← hlen,
    List.set_append_right _ _ (le_refl _), List.set_append_right _ _ (by omega), Nat.sub_self,
    show k.sizeof - 1 - (fs.body k).length = 1 by omega]
  rfl

theorem octets_inj {a b : U16} : octets a 2 = octets b 2 ↔ a = b := by
  constructor
  · intro h
    simp only [octets, List.cons.injEq, and_true] at h
    apply BitVec.eq_of_getLsbD_eq
    intro i hi
    by_cases hlow : i < 8
    · have hbit := congrArg (·.getLsbD i) h.1
      simpa [BitVec.getLsbD_setWidth, hlow] using hbit
    · have hbit := congrArg (·.getLsbD (i - 8)) h.2
      simpa [BitVec.getLsbD_setWidth, BitVec.getLsbD_ushiftRight, show i - 8 < 8 by omega,
        show 8 + (i - 8) = i by omega] using hbit
  · intro h
    rw [h]

/-- **A copy is consistent iff its check is that of its bytes.** -/
theorem consistent_iff {fs : Frames} {k : FrameKind} (h : HeaderOk (fs.header k) k.sizeof) :
    Consistent (fs.toVector k) ↔ fs.checksum k = fs.crc16 k := by
  obtain ⟨rest, hrest, -⟩ := body_eq fs k
  have hlen := toVector_length fs k
  have hbytes : fs.toVector k = (fs.header k).bytes ++ (rest ++ octets (fs.checksum k) 2) := by
    rw [Frames.toVector, hrest, List.append_assoc]
  have hheader : headerFrameOf (fs.toVector k) = fs.header k := by
    rw [hbytes]
    simp [headerFrameOf, fromVector, fromVectorOf, HeaderFrame.bytes, sizeofHeaderFrame]
    rfl
  have hcrc8 : verifyCrc8CheckSum (fs.toVector k) sizeofHeaderFrame = true := by
    rw [hbytes]
    exact h.crc
  have hdrop : (fs.toVector k).drop (k.sizeof - 2) = octets (fs.checksum k) 2 := by
    rw [Frames.toVector, ← body_length fs k, List.drop_left]
  have hcheck : (fs.toVector k).drop ((fs.toVector k).length - 2) =
      octets (getCrc16CheckSum (fs.toVector k) ((fs.toVector k).length - 2) crc16Init) 2 ↔ fs.checksum k = fs.crc16 k := by
    rw [hlen, hdrop]
    exact octets_inj
  constructor
  · intro hc
    exact hcheck.1 hc.crc
  · intro hc
    exact ⟨hcrc8, by rw [hheader, hlen]; exact h.len, hcheck.2 hc⟩

/-! ## What the callbacks leave -/

theorem run_keeps (c : Callback) (fs : Frames) (k : FrameKind) :
    (c.run toFloat fs).header k = fs.header k ∧ (c.run toFloat fs).checksum k = fs.checksum k := by
  cases c with
  | cmdGimbalJoint msg =>
    by_cases h : msg.name.length ≠ msg.position.length
    · rw [Callback.run, if_pos h]
      exact ⟨rfl, rfl⟩
    · rw [Callback.run, if_neg h]
      cases k <;> exact ⟨rfl, rfl⟩
  | cmdVel msg => cases k <;> exact ⟨rfl, rfl⟩
  | visionTarget tracking => cases k <;> exact ⟨rfl, rfl⟩
  | cmdShoot data => cases k <;> exact ⟨rfl, rfl⟩
  | cmdSentry msg => cases k <;> exact ⟨rfl, rfl⟩

theorem foldl_run_keeps : ∀ (cs : List Callback) (fs : Frames) (k : FrameKind),
    (cs.foldl (Callback.run toFloat) fs).header k = fs.header k ∧
      (cs.foldl (Callback.run toFloat) fs).checksum k = fs.checksum k
  | [], fs, k => ⟨rfl, rfl⟩
  | c :: cs, fs, k => by
    obtain ⟨hheader, hchecksum⟩ := foldl_run_keeps cs (c.run toFloat fs) k
    obtain ⟨hheader', hchecksum'⟩ := @run_keeps toFloat c fs k
    exact ⟨hheader.trans hheader', hchecksum.trans hchecksum'⟩

theorem appendCrc16_header (fs : Frames) (k j : FrameKind) : (fs.appendCrc16 k).header j = fs.header j := by
  cases k <;> cases j <;> rfl

/-! ## The run -/

/-- The header of a frame is right, and its checksum is that of its bytes. -/
structure Appended (fs : Frames) (k : FrameKind) : Prop where
  header : ∀ j, HeaderOk (fs.header j) j.sizeof
  checksum : fs.checksum k = fs.crc16 k

/-- Past the preparation both headers are right; what is copied and then sent is the frame of the append under the callbacks
of the gap. -/
inductive Sending (toFloat : F64 → F32) : SendPc → Frames → Gap → Prop
  | start (fs : Frames) (g : Gap) : Sending toFloat .start fs g
  | top {fs : Frames} (g : Gap) (h : ∀ j, HeaderOk (fs.header j) j.sizeof) : Sending toFloat .top fs g
  | append {fs : Frames} (g : Gap) (k : FrameKind) (h : ∀ j, HeaderOk (fs.header j) j.sizeof) :
      Sending toFloat (.append k) fs g
  | copy {g : Gap} {k : FrameKind} (h : Appended g.frames k) : Sending toFloat (.copy k) (g.after toFloat) g
  | send {fs : Frames} {g : Gap} {k : FrameKind} (h : ∀ j, HeaderOk (fs.header j) j.sizeof) (hg : Appended g.frames k) :
      Sending toFloat (.send k ((g.after toFloat).toVector k)) fs g

theorem headerOk_after {g : Gap} {k : FrameKind} (h : Appended g.frames k) (j : FrameKind) :
    HeaderOk ((g.after toFloat).header j) j.sizeof := by
  rw [Gap.after, (foldl_run_keeps g.callbacks g.frames j).1]
  exact h.header j

theorem headerOk_run {fs : Frames} (h : ∀ j, HeaderOk (fs.header j) j.sizeof) (c : Callback) (j : FrameKind) :
    HeaderOk ((c.run toFloat fs).header j) j.sizeof := by
  rw [(run_keeps c fs j).1]
  exact h j

/-- **A callback goes into the gap where the thread is in it, and nowhere else is it noticed.** -/
theorem sending_callback {s : Sender} {g : Gap} (hp : Sending toFloat s.pc s.frames g) (c : Callback) (t : Sender) :
    Sending toFloat s.pc (c.run toFloat s.frames) (g.note s (.callback c) t) := by
  obtain ⟨fs, pc, retryCount, counter⟩ := s
  dsimp only at hp ⊢
  cases hp with
  | start => exact .start _ _
  | top _ h => exact .top _ (headerOk_run h c)
  | append _ k h => exact .append _ k (headerOk_run h c)
  | copy h =>
    have hafter : (Gap.mk g.frames (g.callbacks ++ [c])).after toFloat = c.run toFloat (g.after toFloat) :=
      List.foldl_append
    rw [← hafter]
    exact .copy h
  | send h hg => exact .send (headerOk_run h c) hg

theorem sending_step {p q : Sender × Gap} {l : SendLabel} {es : List (List U8)} (hp : Sending toFloat p.1.pc p.1.frames p.2)
    (h : (recordedSender toFloat).step p l = some (q, es)) : Sending toFloat q.1.pc q.1.frames q.2 := by
  obtain ⟨hstep, hnote⟩ := Machine.ghost_step.1 h
  obtain ⟨s, g⟩ := p
  obtain ⟨t, g'⟩ := q
  dsimp only at hp hstep hnote ⊢
  cases l with
  | callback c =>
    simp only [sendData, Option.some.injEq, Prod.mk.injEq] at hstep
    obtain ⟨rfl, -⟩ := hstep
    rw [hnote]
    exact sending_callback hp c _
  | prepare =>
    simp only [sendData] at hstep
    split at hstep
    · simp only [Option.some.injEq, Prod.mk.injEq] at hstep
      obtain ⟨rfl, -⟩ := hstep
      refine .top _ fun j => ?_
      cases j with
      | robotCmd => exact headerOk_headerFor _ (by decide) _
      | sentryCmd => exact headerOk_headerFor _ (by decide) _
    · cases hstep
  | test isUsbOk =>
    obtain ⟨fs, pc, retryCount, counter⟩ := s
    cases hp with
    | top _ hh =>
      cases isUsbOk with
      | false =>
        cases hstep
        rw [hnote]
        exact .top _ hh
      | true =>
        cases hstep
        rw [hnote]
        exact .append _ _ hh
    | _ => simp [sendData] at hstep
  | append =>
    obtain ⟨fs, pc, retryCount, counter⟩ := s
    cases hp with
    | append _ k hh =>
      cases hstep
      rw [hnote]
      refine .copy (g := ⟨fs.appendCrc16 k, []⟩) ⟨fun j => ?_, ?_⟩
      · rw [appendCrc16_header]
        exact hh j
      · rw [(appendCrc16_eq fs k).2, crc16_eq, crc16_eq, (appendCrc16_eq fs k).1]
    | _ => simp [sendData] at hstep
  | copy =>
    obtain ⟨fs, pc, retryCount, counter⟩ := s
    cases hp with
    | copy hg =>
      cases hstep
      rw [hnote]
      exact .send (headerOk_after hg) hg
    | _ => simp [sendData] at hstep
  | send throws =>
    obtain ⟨fs, pc, retryCount, counter⟩ := s
    cases hp with
    | send hh hg =>
      simp only [sendData] at hstep
      rw [hnote]
      split at hstep
      · cases hstep
        exact .top _ hh
      · split at hstep
        · split at hstep
          · cases hstep
            exact .append _ _ hh
          · cases hstep
            exact .top _ hh
        · cases hstep
          exact .top _ hh
    | _ => simp [sendData] at hstep

/-- **Only a send hands a buffer over, the one it is about to send.** -/
theorem send_cases {s t : Sender} {l : SendLabel} {es : List (List U8)} {b : List U8}
    (h : (sendData toFloat).step s l = some (t, es)) (hb : b ∈ es) :
    (∃ throws, l = .send throws) ∧ ∃ k, s.pc = .send k b := by
  have hnone : es ≠ [] := List.ne_nil_of_mem hb
  cases l with
  | callback c =>
    cases h
    exact absurd rfl hnone
  | prepare =>
    simp only [sendData] at h
    split at h
    · cases h
      exact absurd rfl hnone
    · cases h
  | test isUsbOk =>
    simp only [sendData] at h
    split at h
    · split at h <;> cases h <;> exact absurd rfl hnone
    · cases h
  | append =>
    simp only [sendData] at h
    split at h
    · cases h
      exact absurd rfl hnone
    · cases h
  | copy =>
    simp only [sendData] at h
    split at h
    · cases h
      exact absurd rfl hnone
    · cases h
  | send throws =>
    refine ⟨⟨throws, rfl⟩, ?_⟩
    simp only [sendData] at h
    split at h
    · rename_i k buf hpc
      have hes : es = [buf] := by
        split at h
        · cases h
          rfl
        · split at h
          · split at h <;> cases h <;> rfl
          · cases h
            rfl
      rw [hes] at hb
      exact ⟨k, (List.mem_singleton.1 hb) ▸ hpc⟩
    · cases h

theorem send_step {s : Sender} {k : FrameKind} {buf : List U8} (hpc : s.pc = .send k buf) (throws : Bool) :
    ∃ t, (sendData toFloat).step s (.send throws) = some (t, [buf]) := by
  simp only [sendData, hpc]
  split
  · exact ⟨_, rfl⟩
  · split
    · split <;> exact ⟨_, rfl⟩
    · exact ⟨_, rfl⟩

/-- **The frame at the end of a gap is consistent iff its check is the one it had at the append.** -/
theorem consistent_after_iff {g : Gap} {k : FrameKind} (h : Appended g.frames k) :
    Consistent ((g.after toFloat).toVector k) ↔ (g.after toFloat).crc16 k = g.frames.crc16 k := by
  have hchecksum : (g.after toFloat).checksum k = g.frames.crc16 k :=
    (foldl_run_keeps g.callbacks g.frames k).2.trans h.checksum
  rw [consistent_iff (headerOk_after h k), hchecksum]
  exact eq_comm

/-- **A send is consistent iff the gap before it kept the check.** -/
theorem sendsConsistent_iff {p : Sender × Gap} (hp : Sending toFloat p.1.pc p.1.frames p.2) (l : SendLabel) :
    SendsConsistent (recordedSender toFloat) p l ↔ GapKeepsCrc toFloat p l := by
  obtain ⟨s, g⟩ := p
  dsimp only at hp
  constructor
  · rintro h throws rfl k buf hpc
    dsimp only at hpc ⊢
    rw [hpc] at hp
    obtain ⟨t, hstep⟩ := @send_step toFloat _ _ _ hpc throws
    have hsent := h (t, _) [buf] (Machine.ghost_step.2 ⟨hstep, rfl⟩) buf (List.mem_singleton_self _)
    cases hp with
    | send _ hg => exact (consistent_after_iff hg).1 hsent
  · intro h q es hstep b hb
    obtain ⟨⟨throws, rfl⟩, k, hpc⟩ := send_cases (Machine.ghost_step.1 hstep).1 hb
    have hcrc := h throws rfl k b hpc
    dsimp only at hpc hcrc
    rw [hpc] at hp
    cases hp with
    | send _ hg => exact (consistent_after_iff hg).2 hcrc

/-- **In every interleaving of the callbacks with the send thread, the buffers sent are consistent exactly if the callbacks
that come between the append of a frame's check and its copy leave the check of its bytes as it was.** -/
theorem sent_frames_consistent_iff (fs : Frames) (labels : List SendLabel) :
    (recordedSender toFloat).Along (SendsConsistent (recordedSender toFloat)) (⟨fs, .start, 0, 0⟩, ⟨fs, []⟩) labels ↔
      (recordedSender toFloat).Along (GapKeepsCrc toFloat) (⟨fs, .start, 0, 0⟩, ⟨fs, []⟩) labels := by
  refine Machine.along_iff (I := fun p => Sending toFloat p.1.pc p.1.frames p.2) (fun _ l hp => sendsConsistent_iff hp l)
    ?_ (.start _ _)
  intro p l q es hp _ hst
  exact sending_step hp hst

/-- Memory that holds zeros. -/
def zeroFrames : Frames :=
  ⟨⟨⟨0, 0, 0, 0⟩, 0, ⟨⟨0⟩, ⟨0⟩, ⟨0⟩⟩, ⟨⟨0⟩, ⟨0⟩, ⟨0⟩, ⟨0⟩⟩, ⟨⟨0⟩, ⟨0⟩⟩, ⟨0, 0⟩, 0, 0⟩, ⟨⟨0, 0, 0, 0⟩, 0, 0, 0⟩⟩

/-- A shot is asked for between the append and the copy of the first frame. -/
def shotInTheGap : List SendLabel := [.prepare, .test true, .append, .callback (.cmdShoot 1), .copy, .send false]

/-- **A frame that a callback writes into between its append and its copy is sent with the check of the old bytes.** -/
theorem torn_frame_sent :
    ¬ (recordedSender fun _ => ⟨0⟩).Along (SendsConsistent (recordedSender fun _ => ⟨0⟩))
      (⟨zeroFrames, .start, 0, 0⟩, ⟨zeroFrames, []⟩) shotInTheGap := by
  intro h
  iterate 5 replace h := h.2 _ _ rfl
  have hsent := h.1 _ _ rfl _ (List.mem_singleton_self _)
  exact absurd hsent.crc (by decide +kernel)

end Send
end Serial
end LfSentry
