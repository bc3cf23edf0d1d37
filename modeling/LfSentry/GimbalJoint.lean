import Mathlib.Data.List.Infix
import Mathlib.Tactic.NormNum
import LfSentry.SerialReceive
/-!
# GimbalJoint — the joint state of the gimbal and its two readers (`subscribe2gimbal.cpp`, `gimbal_ros.cpp`)

`publishImuData` names four joints: the gimbal's two from the packet at hand and their odometry from the joint-state packet
before.  `GimbalROS` takes the first two positions.  `Subscribe2Gimbal` takes every joint with `yaw` or `pitch` in its name,
the last one staying, and that is the odometry.  So the two agree iff the odometry at an IMU packet is the packet's own
angles (`readers_agree_iff`).
-/
namespace LfSentry
namespace GimbalJoint

open Serial

structure JointState where
  name : List String
  position : List Fp
  velocity : List Fp
  deriving DecidableEq

/-! ## The readers

The positions are floats that were widened to doubles, so the casts back to floats lose nothing. -/

/-- `GimbalJointFeedback`, without its stamp. -/
structure GimbalJointFeedback where
  yaw : Fp
  pitch : Fp
  valid : Bool
  deriving DecidableEq

/-- `n.find(part) != std::string::npos`. -/
def finds (n part : String) : Bool := decide (part.toList <:+: n.toList)

/-- One turn of the loop of `Subscribe2Gimbal::joint_callback`. -/
def GimbalJointFeedback.note (fb : GimbalJointFeedback) (joint : String × Fp) : GimbalJointFeedback :=
  let fb := if finds joint.1 "yaw" then { fb with yaw := joint.2 } else fb
  if finds joint.1 "pitch" then { fb with pitch := joint.2 } else fb

/-- `Subscribe2Gimbal::joint_callback`: what it pushes.  The loop ends with the shorter of the two lists. -/
def Subscribe2Gimbal.jointCallback (msg : JointState) : GimbalJointFeedback :=
  let fb := (msg.name.zip msg.position).foldl GimbalJointFeedback.note ⟨.fin 0, .fin 0, false⟩
  { fb with valid := true }

/-- What `GimbalROS` keeps in `current_state_` of a joint state. -/
structure GimbalState where
  yaw : Fp
  pitch : Fp
  yawVel : Fp
  pitchVel : Fp
  deriving DecidableEq

def GimbalROS.jointCallback (currentState : GimbalState) (msg : JointState) : GimbalState :=
  match msg.position with
  | pitch :: yaw :: _ =>
    let currentState := { currentState with pitch := pitch, yaw := yaw }
    match msg.velocity with
    | pitchVel :: yawVel :: _ => { currentState with pitchVel := pitchVel, yawVel := yawVel }
    | _ => currentState
  | _ => currentState

/-! ## The publisher -/

/-- A packet that has to do with the gimbal's joints. -/
inductive GimbalPacket
  | imu (s : Packed PacketKind.imu.sizeof)
  | jointState (s : Packed PacketKind.jointState.sizeof)
  deriving DecidableEq

def GimbalPacket.packet : GimbalPacket → Packet
  | .imu s => .decoded .imu s
  | .jointState s => .decoded .jointState s

/-- The node under such packets; it says what it publishes. -/
def receiver (ros : Ros) : Machine Node GimbalPacket Msg where
  step n p :=
    match handlePacket ros p.packet ⟨n, []⟩ with
    | .ok _ st => some (st.node, st.out)
    | .error _ st => some ({ st.node with isUsbOk := false }, st.out)

/-- The messages on `serial/gimbal_joint_state`; `publishImuData` leaves their velocities empty. -/
def jointStates (es : List Msg) : List JointState :=
  es.filterMap fun
    | .gimbalJointState name position => some ⟨name, position, []⟩
    | _ => none

/-- Both readers take from the message the angles of the data. -/
structure ReadAs (msg : JointState) (d : ReceiveImuData) : Prop where
  feedback : Subscribe2Gimbal.jointCallback msg = ⟨d.yaw.value, d.pitch.value, true⟩
  state : ∀ currentState, GimbalROS.jointCallback currentState msg =
    { currentState with yaw := d.yaw.value, pitch := d.pitch.value }

/-- Every joint state of the step was built from an IMU packet, and both readers take its yaw and pitch. -/
def ReadersAgree (ros : Ros) (n : Node) (p : GimbalPacket) : Prop :=
  ∀ t es, (receiver ros).step n p = some (t, es) → ∀ msg ∈ jointStates es,
    ∃ s, p = .imu s ∧ ReadAs msg (decode ReceiveImuData.read s)

/-- The odometry at an IMU packet is the packet's own yaw and pitch. -/
def OdomIsGimbal (n : Node) (p : GimbalPacket) : Prop :=
  ∀ s, p = .imu s → n.lastGimbalYawOdomJoint.value = (decode ReceiveImuData.read s).yaw.value ∧
    n.lastGimbalPitchOdomJoint.value = (decode ReceiveImuData.read s).pitch.value

theorem jointStates_step {ros : Ros} {n t : Node} {p : GimbalPacket} {es : List Msg}
    (h : (receiver ros).step n p = some (t, es)) : jointStates es =
      match p with
      | .imu s =>
        let d := decode ReceiveImuData.read s
        [⟨["gimbal_pitch_joint", "gimbal_yaw_joint", "gimbal_pitch_odom_joint", "gimbal_yaw_odom_joint"],
          [d.pitch.value, d.yaw.value, n.lastGimbalPitchOdomJoint.value, n.lastGimbalYawOdomJoint.value], []⟩]
      | .jointState _ => [] := by
  cases p with
  | imu s =>
    cases h
    rfl
  | jointState s =>
    cases h
    rfl

/-- **Of the four joints `Subscribe2Gimbal` keeps the odometry.** -/
theorem jointCallback_four (a b c d : Fp) : Subscribe2Gimbal.jointCallback
    ⟨["gimbal_pitch_joint", "gimbal_yaw_joint", "gimbal_pitch_odom_joint", "gimbal_yaw_odom_joint"], [a, b, c, d], []⟩ =
      ⟨d, c, true⟩ := by
  have hyaw : ["gimbal_pitch_joint", "gimbal_yaw_joint", "gimbal_pitch_odom_joint", "gimbal_yaw_odom_joint"].map
      (finds · "yaw") = [false, true, false, true] := by decide
  have hpitch : ["gimbal_pitch_joint", "gimbal_yaw_joint", "gimbal_pitch_odom_joint", "gimbal_yaw_odom_joint"].map
      (finds · "pitch") = [true, false, true, false] := by decide
  simp only [List.map_cons, List.map_nil, List.cons.injEq, and_true] at hyaw hpitch
  simp [Subscribe2Gimbal.jointCallback, GimbalJointFeedback.note, hyaw, hpitch]

/-- **A step is read alike and as its packet has it iff the odometry is the gimbal's.** -/
theorem readersAgree_iff (ros : Ros) (n : Node) (p : GimbalPacket) : ReadersAgree ros n p ↔ OdomIsGimbal n p := by
  constructor
  · rintro h s rfl
    obtain ⟨t, es, hstep⟩ : ∃ t es, (receiver ros).step n (.imu s) = some (t, es) := ⟨_, _, rfl⟩
    obtain ⟨s', hs, hread⟩ := h t es hstep _ (by rw [jointStates_step hstep]; exact List.mem_singleton_self _)
    cases hs
    have hfeedback := hread.feedback
    rw [jointCallback_four] at hfeedback
    simp only [GimbalJointFeedback.mk.injEq, and_true] at hfeedback
    exact hfeedback
  · intro h t es hstep msg hmsg
    rw [jointStates_step hstep] at hmsg
    cases p with
    | jointState s => cases hmsg
    | imu s =>
      obtain ⟨hyaw, hpitch⟩ := h s rfl
      rw [List.mem_singleton.1 hmsg]
      refine ⟨s, rfl, ?_, fun _ => rfl⟩
      rw [jointCallback_four, hyaw, hpitch]

/-- **In every sequence of IMU and joint-state packets the readers agree on the gimbal's angles exactly if at each IMU packet
the odometry of the joint-state packet before is the packet's own yaw and pitch.** -/
theorem readers_agree_iff (ros : Ros) (n : Node) (packets : List GimbalPacket) :
    (receiver ros).Along (ReadersAgree ros) n packets ↔ (receiver ros).Along (fun n p => OdomIsGimbal n p) n packets :=
  Machine.along_iff (I := fun _ => True) (fun n p _ => readersAgree_iff ros n p) (fun _ _ _ _ _ _ _ => trivial) trivial

/-- The yaw of the odometry is 1, the gimbal's own is 0. -/
def odometryAhead : List GimbalPacket :=
  [.jointState (fromVector _ (List.replicate 12 0 ++ [0x00, 0x00, 0x80, 0x3f])), .imu (fromVector _ [])]

theorem value_one : F32.value ⟨0x3f800000⟩ = .fin 1 := by
  have hexp : ((0x3f800000 : U32).extractLsb' 23 8).toNat = 127 := by decide
  have hfrac : ((0x3f800000 : U32).extractLsb' 0 23).toNat = 0 := by decide
  have hsign : (0x3f800000 : U32).getLsbD 31 = false := by decide
  unfold F32.value Fp.ofBits32
  simp only [hexp, hfrac, hsign]
  norm_num

theorem value_zero : F32.value ⟨0⟩ = .fin 0 := by
  have hexp : ((0 : U32).extractLsb' 23 8).toNat = 0 := by decide
  have hfrac : ((0 : U32).extractLsb' 0 23).toNat = 0 := by decide
  unfold F32.value Fp.ofBits32
  simp only [hexp, hfrac]
  norm_num

/-- **`Subscribe2Gimbal` takes the odometry's yaw of 1 for the gimbal's, which is 0.** -/
theorem odometry_read_as_gimbal :
    ¬ (receiver Ros.granting).Along (ReadersAgree Ros.granting) Node.started odometryAhead := by
  intro h
  have hstep : (receiver Ros.granting).step Node.started (.jointState (fromVector _ (List.replicate 12 0 ++ [0x00, 0x00, 0x80, 0x3f]))) =
      some ({ Node.started with lastGimbalYawOdomJoint := ⟨0x3f800000⟩ }, []) := rfl
  have hagree := ((Machine.along_cons_of_step hstep).1 h).2.1
  have hodom : F32.value ⟨0x3f800000⟩ = F32.value ⟨0⟩ := ((readersAgree_iff _ _ _).1 hagree _ rfl).1
  rw [value_one, value_zero, Fp.fin.injEq] at hodom
  exact one_ne_zero hodom

end GimbalJoint
end LfSentry
