import LfSentry.Runs
import LfSentry.Turns
import LfSentry.SerialPacket
import Mathlib.Tactic.NormNum
/-!
# GimbalManager — scanning with the gimbal (`standard_robot_pp_ros2/src/gimbal_manager.cpp`)

A command sets an axis to a position or has it scan with a velocity between two limits; a timer moves the scanning axes
and publishes both.  An axis that passes a limit stops there and turns back; one whose limits are a whole turn apart goes
round.  Arithmetic is exact.
-/
namespace LfSentry
namespace GimbalManager

open AddCommGroup

variable {K : Type} [Field K] [LinearOrder K] [FloorRing K]

/-- The double `M_PI`. -/
def mPi : K := 884279719003555 / 281474976710656

/-! ## Messages -/

structure Gimbal (K : Type) where
  pitch : K
  yaw : K
  pitchMinRange : K
  pitchMaxRange : K
  yawMinRange : K
  yawMaxRange : K
  deriving DecidableEq

structure GimbalCmd (K : Type) where
  yawType : U8
  pitchType : U8
  position : Gimbal K
  velocity : Gimbal K

def absoluteAngle : U8 := 1
def velocityType : U8 := 2

/-- A message as it is made: both types are absolute, all numbers 0. -/
def GimbalCmd.default (K : Type) [OfNat K 0] : GimbalCmd K := ⟨1, 1, ⟨0, 0, 0, 0, 0, 0⟩, ⟨0, 0, 0, 0, 0, 0⟩⟩

/-! ## The node -/

inductive ControlMode
  | position
  | velocity
  deriving DecidableEq, Repr

structure AxisControl (K : Type) where
  mode : ControlMode
  velocity : K
  minRange : K
  maxRange : K
  isContinuous : Bool

/-- `pitch` and `pitch_ctrl`, or `yaw` and `yaw_ctrl`. -/
structure Axis (K : Type) where
  current : K
  ctrl : AxisControl K

/-- `state_` and the message that the callback keeps; the time is in nanoseconds. -/
structure Node (K : Type) where
  pitch : Axis K
  yaw : Axis K
  lastUpdate : Int
  lastMsg : GimbalCmd K

def Axis.init (K : Type) [OfNat K 0] : Axis K := ⟨0, ⟨.position, 0, 0, 0, false⟩⟩

def Node.init (K : Type) [OfNat K 0] : Node K := ⟨.init K, .init K, 0, .default K⟩

/-- What a message of a type asks of an axis. -/
def Axis.command (a : Axis K) (type : U8) (position velocity minRange maxRange : K) : Axis K :=
  if type = absoluteAngle then { current := position, ctrl := { a.ctrl with mode := .position } }
  else if type = velocityType then
    { a with ctrl := ⟨.velocity, velocity, minRange, maxRange, decide (|(maxRange - minRange) - 2.0 * mPi| < 0.01)⟩ }
  else a

def gimbalCmdCallback (s : Node K) (msg : GimbalCmd K) : Node K :=
  if msg.pitchType = s.lastMsg.pitchType ∧ msg.yawType = s.lastMsg.yawType ∧ msg.position = s.lastMsg.position ∧
      msg.velocity = s.lastMsg.velocity then s
  else
    { s with
      lastMsg := msg
      pitch := s.pitch.command msg.pitchType msg.position.pitch msg.velocity.pitch msg.velocity.pitchMinRange
        msg.velocity.pitchMaxRange
      yaw := s.yaw.command msg.yawType msg.position.yaw msg.velocity.yaw msg.velocity.yawMinRange
        msg.velocity.yawMaxRange }

def updateAxisPosition (current : K) (ctrl : AxisControl K) (delta : K) : Axis K :=
  let displacement := ctrl.velocity * delta
  let newPos := current + displacement
  if ctrl.isContinuous then
    let range := ctrl.maxRange - ctrl.minRange
    let newPos := ctrl.minRange + Turns.fmod (newPos - ctrl.minRange) range
    ⟨if newPos < ctrl.minRange then newPos + range else newPos, ctrl⟩
  else if newPos > ctrl.maxRange then ⟨ctrl.maxRange, { ctrl with velocity := -ctrl.velocity }⟩
  else if newPos < ctrl.minRange then ⟨ctrl.minRange, { ctrl with velocity := -ctrl.velocity }⟩
  else ⟨newPos, ctrl⟩

def Axis.update (a : Axis K) (deltaTime : K) : Axis K :=
  if a.ctrl.mode = .velocity then updateAxisPosition a.current a.ctrl deltaTime else a

structure JointState (K : Type) where
  gimbalPitchJoint : K
  gimbalYawJoint : K

def updateState (s : Node K) (deltaTime : K) : Node K × List (JointState K) :=
  let s := { s with pitch := s.pitch.update deltaTime, yaw := s.yaw.update deltaTime }
  (s, [⟨s.pitch.current, s.yaw.current⟩])

def Node.deltaTime (s : Node K) (now : Int) : K := ((now - s.lastUpdate : Int) : K) / 1e9

/-- The timer's callback; the first one only takes the time. -/
def onTimer (s : Node K) (now : Int) : Node K × List (JointState K) :=
  if s.lastUpdate = 0 then ({ s with lastUpdate := now }, [])
  else
    let r := updateState s (s.deltaTime now)
    ({ r.1 with lastUpdate := now }, r.2)

inductive Input (K : Type)
  | cmd (msg : GimbalCmd K)
  | tick (now : Int)

def node : Machine (Node K) (Input K) (JointState K) where
  step s
    | .cmd msg => some (gimbalCmdCallback s msg, [])
    | .tick now => some (onTimer s now)

/-! ## The unwrapped position -/

def Axis.GoesRound (a : Axis K) : Prop := a.ctrl.mode = .velocity ∧ a.ctrl.isContinuous = true

instance (a : Axis K) : Decidable a.GoesRound := inferInstanceAs (Decidable (_ ∧ _))

def AxisControl.range (c : AxisControl K) : K := c.maxRange - c.minRange

/-- A command takes the position of the axis for the unwrapped one, unless the axis keeps going round in the same range. -/
def unwrap (u : K) (before after : Axis K) : K :=
  if before.GoesRound ∧ after.GoesRound ∧ after.ctrl.range = before.ctrl.range then u else after.current

def advance (u : K) (a : Axis K) (deltaTime : K) : K :=
  if a.ctrl.mode = .velocity then u + a.ctrl.velocity * deltaTime else u

structure Unwrapped (K : Type) where
  pitch : K
  yaw : K

def Unwrapped.note (u : Unwrapped K) (s : Node K) (i : Input K) (s' : Node K) : Unwrapped K :=
  match i with
  | .cmd _ => ⟨unwrap u.pitch s.pitch s'.pitch, unwrap u.yaw s.yaw s'.yaw⟩
  | .tick now =>
    if s.lastUpdate = 0 then u
    else ⟨advance u.pitch s.pitch (s.deltaTime now), advance u.yaw s.yaw (s.deltaTime now)⟩

def recordedNode : Machine (Node K × Unwrapped K) (Input K) (JointState K) :=
  node.ghost fun u s i q => u.note s i q.1

/-- What a tick is to do with a scanning axis whose unwrapped position after it is `u`. -/
structure Scanned (a a' : Axis K) (u : K) : Prop where
  keeps : a'.ctrl = { a.ctrl with velocity := a'.ctrl.velocity }
  speed : |a'.ctrl.velocity| = |a.ctrl.velocity|
  turns : a'.ctrl.velocity ≠ a.ctrl.velocity →
    a'.ctrl.velocity = -a.ctrl.velocity ∧ (a'.current = a.ctrl.minRange ∨ a'.current = a.ctrl.maxRange)
  bounded : a.ctrl.isContinuous = false → a.ctrl.minRange ≤ a'.current ∧ a'.current ≤ a.ctrl.maxRange
  round : a.ctrl.isContinuous = true → a'.current ≡ u [PMOD a.ctrl.range]

/-- Every tick that moves the axes keeps the scanning ones in their ranges. -/
def ScansInRange (p : Node K × Unwrapped K) (i : Input K) : Prop :=
  ∀ now, i = .tick now → p.1.lastUpdate ≠ 0 → ∀ q o, recordedNode.step p i = some (q, o) →
    (p.1.pitch.ctrl.mode = .velocity → p.1.pitch.ctrl.minRange ≤ p.1.pitch.ctrl.maxRange →
      Scanned p.1.pitch q.1.pitch q.2.pitch) ∧
    (p.1.yaw.ctrl.mode = .velocity → p.1.yaw.ctrl.minRange ≤ p.1.yaw.ctrl.maxRange →
      Scanned p.1.yaw q.1.yaw q.2.yaw)

/-- An axis that goes round is at its unwrapped position up to whole ranges. -/
def Wrapped (a : Axis K) (u : K) : Prop := a.GoesRound → a.current ≡ u [PMOD a.ctrl.range]

omit [FloorRing K] in
theorem wrapped_command (a : Axis K) {u : K} (h : Wrapped a u) (type : U8) (position velocity minRange maxRange : K) :
    Wrapped (a.command type position velocity minRange maxRange)
      (unwrap u a (a.command type position velocity minRange maxRange)) := by
  intro hround
  unfold unwrap
  split
  · rename_i hsame
    have hcurrent : (a.command type position velocity minRange maxRange).current = a.current := by
      revert hround
      unfold Axis.command Axis.GoesRound
      split
      · rintro ⟨hmode, -⟩
        cases hmode
      · intro _
        split <;> rfl
    rw [hcurrent, hsame.2.2]
    exact h hsame.1
  · exact modEq_rfl

/-- **A tick takes an axis round by what its velocity makes.** -/
theorem updateAxisPosition_round {current u : K} (delta : K) {ctrl : AxisControl K} (hc : ctrl.isContinuous = true)
    (h : current ≡ u [PMOD ctrl.range]) :
    (updateAxisPosition current ctrl delta).ctrl = ctrl ∧
      (updateAxisPosition current ctrl delta).current ≡ u + ctrl.velocity * delta [PMOD ctrl.range] := by
  have hmoved := h.add_right (ctrl.velocity * delta)
  have hfmod : ctrl.minRange + Turns.fmod (current + ctrl.velocity * delta - ctrl.minRange) ctrl.range ≡
      current + ctrl.velocity * delta [PMOD ctrl.range] := by
    have hmod := (Turns.fmod_modEq (current + ctrl.velocity * delta - ctrl.minRange) ctrl.range).add_left ctrl.minRange
    rwa [add_sub_cancel] at hmod
  unfold updateAxisPosition
  simp only [hc, if_true]
  refine ⟨trivial, ?_⟩
  split
  · exact ((add_modEq_left.2 self_modEq_zero).trans hfmod).trans hmoved
  · exact hfmod.trans hmoved

theorem wrapped_update (a : Axis K) {u delta : K} (h : Wrapped a u) : Wrapped (a.update delta) (advance u a delta) := by
  unfold Axis.update advance
  split
  · rename_i hmode
    by_cases hc : a.ctrl.isContinuous = true
    · obtain ⟨hctrl, hmod⟩ := updateAxisPosition_round delta hc (h ⟨hmode, hc⟩)
      intro _
      rwa [hctrl]
    · rintro ⟨-, hround⟩
      refine absurd ?_ hc
      revert hround
      unfold updateAxisPosition
      rw [if_neg hc]
      split
      · exact id
      · split <;> exact id
  · exact h

theorem scanned_update (a : Axis K) {u delta : K} (h : Wrapped a u) (hmode : a.ctrl.mode = .velocity)
    (hle : a.ctrl.minRange ≤ a.ctrl.maxRange) : Scanned a (a.update delta) (advance u a delta) := by
  unfold Axis.update advance
  rw [if_pos hmode, if_pos hmode]
  by_cases hc : a.ctrl.isContinuous = true
  · obtain ⟨hctrl, hmod⟩ := updateAxisPosition_round delta hc (h ⟨hmode, hc⟩)
    refine ⟨by rw [hctrl], by rw [hctrl], fun hne => absurd (by rw [hctrl]) hne, fun hn => ?_, fun _ => hmod⟩
    rw [hc] at hn
    cases hn
  · unfold updateAxisPosition
    rw [if_neg hc]
    split
    · exact ⟨rfl, abs_neg _, fun _ => ⟨rfl, .inr rfl⟩, fun _ => ⟨hle, le_rfl⟩, fun ht => absurd ht hc⟩
    · rename_i hmax
      split
      · exact ⟨rfl, abs_neg _, fun _ => ⟨rfl, .inl rfl⟩, fun _ => ⟨le_rfl, hle⟩, fun ht => absurd ht hc⟩
      · rename_i hmin
        exact ⟨rfl, rfl, fun hne => absurd rfl hne, fun _ => ⟨not_lt.1 hmin, not_lt.1 hmax⟩, fun ht => absurd ht hc⟩

/-- **Commands and ticks keep the axes at their unwrapped positions.** -/
theorem wrapped_step {p q : Node K × Unwrapped K} {i : Input K} {o : List (JointState K)}
    (hp : Wrapped p.1.pitch p.2.pitch ∧ Wrapped p.1.yaw p.2.yaw) (h : recordedNode.step p i = some (q, o)) :
    Wrapped q.1.pitch q.2.pitch ∧ Wrapped q.1.yaw q.2.yaw := by
  obtain ⟨hstep, hnote⟩ := Machine.ghost_step.1 h
  obtain ⟨s, u⟩ := q
  cases i with
  | cmd msg =>
    simp only [node, Option.some.injEq, Prod.mk.injEq] at hstep
    obtain ⟨rfl, -⟩ := hstep
    simp only [Unwrapped.note] at hnote
    subst hnote
    unfold gimbalCmdCallback
    split
    · have hsame : ∀ (a : Axis K) (v : K), Wrapped a v → Wrapped a (unwrap v a a) := by
        intro a v hv hround
        rw [unwrap, if_pos ⟨hround, hround, rfl⟩]
        exact hv hround
      exact ⟨hsame _ _ hp.1, hsame _ _ hp.2⟩
    · exact ⟨wrapped_command _ hp.1 _ _ _ _ _, wrapped_command _ hp.2 _ _ _ _ _⟩
  | tick now =>
    simp only [node, Option.some.injEq] at hstep
    simp only [Unwrapped.note] at hnote
    unfold onTimer at hstep
    split at hstep
    · rename_i hzero
      rw [if_pos hzero] at hnote
      cases hstep
      subst hnote
      exact hp
    · rename_i hzero
      rw [if_neg hzero] at hnote
      cases hstep
      subst hnote
      exact ⟨wrapped_update _ hp.1, wrapped_update _ hp.2⟩

/-- **The scan stays in range: over every run of commands and ticks a scanning axis with `min_range ≤ max_range` is in its
range after each tick that moves it, with the speed it had, or, going round, at its unwrapped position up to whole
ranges.** -/
theorem scan_stays_in_range (inputs : List (Input K)) : recordedNode.Along ScansInRange (Node.init K, ⟨0, 0⟩) inputs := by
  refine Machine.along_of_inv (I := fun p => Wrapped p.1.pitch p.2.pitch ∧ Wrapped p.1.yaw p.2.yaw) ?_
    (fun p i q o hp h => wrapped_step hp h) ?_
  · rintro p i hp now rfl hstarted ⟨s, u⟩ o h
    obtain ⟨hstep, hnote⟩ := Machine.ghost_step.1 h
    simp only [node, onTimer, if_neg hstarted, Option.some.injEq] at hstep
    simp only [Unwrapped.note, if_neg hstarted] at hnote
    cases hstep
    subst hnote
    exact ⟨fun hmode hle => scanned_update _ hp.1 hmode hle, fun hmode hle => scanned_update _ hp.2 hmode hle⟩
  · have hidle : ∀ v : K, Wrapped (Axis.init K) v := by
      rintro v ⟨hmode, -⟩
      cases hmode
    exact ⟨hidle 0, hidle 0⟩

end GimbalManager
end LfSentry
