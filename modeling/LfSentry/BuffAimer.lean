import LfSentry.BuffTarget
import LfSentry.Planner
import LfSentry.RestingTarget
import LfSentry.Runs
/-!
# BuffAimer — when the rune aimer fires (`sp_vision_25/tasks/auto_buff/buff_aimer.cpp`)

`aim` and `mpc_aim` find the angles to send with `get_send_angle`, hold their fire while the blade switches, and fire when
`fire_gap_time` has passed since they last fired or held it.  A call that finds no angles sets no control, but it decides
about the fire all the same, and so it may fire without control (`aim_fire_iff`).
-/
namespace LfSentry
namespace Vision
namespace Buff

variable {K : Type} [Field K] [LinearOrder K] [FloorRing K] (num : Numerics K)

/-! ## Target -/

/-- A `Target` of either class. -/
inductive RuneTarget (K : Type)
  | small (target : SmallTarget K)
  | big (target : BigTarget K)

namespace RuneTarget

def isUnsolve : RuneTarget K → Bool
  | small target => target.unsolvable
  | big target => target.unsolvable

def predict (dt : K) : RuneTarget K → RuneTarget K
  | small target => small (target.predict num dt)
  | big target => big (target.predict num dt)

/-- `ekf_x()[5]` -/
def roll : RuneTarget K → K
  | small target => target.ekf.x 5
  | big target => target.ekf.x 5

def pointBuff2world (pointInBuff : Fin 3 → K) : RuneTarget K → Fin 3 → K
  | small target => target.pointBuff2world num pointInBuff
  | big target => target.pointBuff2world num pointInBuff

end RuneTarget

/-! ## Aimer -/

structure Aimer (K : Type) where
  angle : K
  yawOffset : K
  pitchOffset : K
  fireGapTime : K
  predictTime : K
  mistakeCount : Int
  switchFanblade : Bool
  lastYaw : K
  lastPitch : K
  firstInAimer : Bool
  lastFireT : Int

/-- What an aimer has in memory where its constructor writes nothing. -/
structure Unwritten (K : Type) where
  angle : K
  switchFanblade : Bool

/-- `Aimer::Aimer`, from its configuration, at the time `now`. -/
def Aimer.ofConfig (yawOffset pitchOffset fireGapTime predictTime : K) (now : Int) (memory : Unwritten K) : Aimer K where
  angle := memory.angle
  yawOffset := yawOffset / 57.3
  pitchOffset := pitchOffset / 57.3
  fireGapTime := fireGapTime
  predictTime := predictTime
  mistakeCount := 0
  switchFanblade := memory.switchFanblade
  lastYaw := 0
  lastPitch := 0
  firstInAimer := true
  lastFireT := now

/-- What `mpc_aim` reads of an `io::GimbalState`. -/
structure GimbalState (K : Type) where
  yaw : K
  pitch : K
  bulletSpeed : K

namespace Aimer

/-- `get_send_angle`: the aimer and the target, which it predicts, and where it returns true the yaw and the pitch.  `fsqrt`
is the root that the C library rounds to a `float`. -/
def getSendAngle (fsqrt : K → K) (a : Aimer K) (target : RuneTarget K) (predictTime bulletSpeed : K) :
    Aimer K × RuneTarget K × Option (K × K) :=
  let target := target.predict num predictTime
  let a := { a with angle := target.roll }
  let aimInWorld := target.pointBuff2world num ![0.0, 0.0, 0.7]
  let d := num.sqrt (aimInWorld 0 * aimInWorld 0 + aimInWorld 1 * aimInWorld 1)
  match trajectory num.toLibm bulletSpeed d (aimInWorld 2) with
  | none => (a, target, none)
  | some trajectory0 =>
    let target := target.predict num trajectory0.flyTime
    let a := { a with angle := target.roll }
    let aimInWorld := target.pointBuff2world num ![0.0, 0.0, 0.7]
    let d := fsqrt (aimInWorld 0 * aimInWorld 0 + aimInWorld 1 * aimInWorld 1)
    match trajectory num.toLibm bulletSpeed d (aimInWorld 2) with
    | none => (a, target, none)
    | some trajectory1 =>
      let timeError := trajectory1.flyTime - trajectory0.flyTime
      if |timeError| > 0.01 then (a, target, none)
      else (a, target, some (num.atan2 (aimInWorld 1) (aimInWorld 0) + a.yawOffset, trajectory1.pitch + a.pitchOffset))

/-- The angles are more than 5 degrees from the last ones. -/
def AngleChanged (a : Aimer K) (yaw pitch : K) : Prop :=
  |a.lastYaw - yaw| > 5.0 / 57.3 ∨ |a.lastPitch - pitch| > 5.0 / 57.3

instance (a : Aimer K) (yaw pitch : K) : Decidable (a.AngleChanged yaw pitch) := inferInstanceAs (Decidable (_ ∨ _))

/-- What `aim` and `mpc_aim` do with the angles that they find, and their `control`. -/
def noteAngles (a : Aimer K) (yaw pitch : K) : Aimer K × Bool :=
  let noted : Aimer K × Bool :=
    if a.mistakeCount > 3 then ({ a with switchFanblade := true, mistakeCount := 0 }, true)
    else if a.AngleChanged yaw pitch then
      ({ a with switchFanblade := true, mistakeCount := a.mistakeCount + 1 }, false)
    else ({ a with switchFanblade := false, mistakeCount := 0 }, true)
  ({ noted.1 with lastYaw := yaw, lastPitch := pitch }, noted.2)

/-- The decision about the fire, the last of both. -/
def decideFire (a : Aimer K) (now : Int) : Aimer K × Bool :=
  if a.switchFanblade then ({ a with lastFireT := now }, false)
  else if deltaTime now a.lastFireT > a.fireGapTime then ({ a with lastFireT := now }, true)
  else (a, false)

/-- The time that a call predicts the target by. -/
def future (a : Aimer K) (timestamp now : Int) (toNow : Bool) : K :=
  if toNow then deltaTime now timestamp + a.predictTime else 0.1 + a.predictTime

def aim (fsqrt : K → K) (a : Aimer K) (target : RuneTarget K) (timestamp now : Int) (bulletSpeed : K) (toNow : Bool) :
    Aimer K × RuneTarget K × Command K :=
  if target.isUnsolve then (a, target, Command.none K)
  else
    let bulletSpeed := if bulletSpeed < 10.0 then 24.0 else bulletSpeed
    match a.getSendAngle num fsqrt target (a.future timestamp now toNow) bulletSpeed with
    | (a, target, none) =>
      let fired := a.decideFire now
      (fired.1, target, ⟨false, fired.2, 0, 0, 0⟩)
    | (a, target, some (yaw, pitch)) =>
      let noted := a.noteAngles yaw pitch
      let fired := noted.1.decideFire now
      (fired.1, target, ⟨noted.2, fired.2, yaw, -pitch, 0⟩)

/-- The speeds and accelerations of a plan with control.  `stale` is what `last_yaw_mpc` and `last_pitch_mpc` hold where
nothing is written to them. -/
def mpcRates (fsqrt : K → K) (a : Aimer K) (target : RuneTarget K) (gs : GimbalState K) (bulletSpeed yaw pitch : K)
    (stale : K × K) (plan : Plan K) : Aimer K × RuneTarget K × Plan K :=
  if a.firstInAimer then
    ({ a with firstInAimer := false }, target, { plan with yawVel := 0, yawAcc := 0, pitchVel := 0, pitchAcc := 0 })
  else
    let dt := a.predictTime
    let sent := a.getSendAngle num fsqrt target (a.predictTime * -1) bulletSpeed
    let lastMpc := sent.2.2.getD stale
    let wrap := limitRad num.toLibm
    (sent.1, sent.2.1, { plan with
      yawVel := wrap (yaw - lastMpc.1) / (2.0 * dt)
      yawAcc := (wrap (yaw - gs.yaw) - wrap (gs.yaw - lastMpc.1)) / dt ^ 2
      pitchVel := wrap (-pitch + lastMpc.2) / (2.0 * dt)
      pitchAcc := (-pitch - gs.pitch - (gs.pitch + lastMpc.2)) / dt ^ 2 })

def mpcAim (fsqrt : K → K) (a : Aimer K) (target : RuneTarget K) (timestamp now : Int) (gs : GimbalState K) (toNow : Bool)
    (stale : K × K) : Aimer K × RuneTarget K × Plan K :=
  let plan : Plan K := ⟨false, false, 0, 0, 0, 0, 0, 0, 0, 0⟩
  if target.isUnsolve then (a, target, plan)
  else
    let bulletSpeed := if gs.bulletSpeed < 10.0 then 24.0 else gs.bulletSpeed
    match a.getSendAngle num fsqrt target (a.future timestamp now toNow) bulletSpeed with
    | (a, target, none) =>
      let fired := a.decideFire now
      (fired.1, target, { plan with fire := fired.2 })
    | (a, target, some (yaw, pitch)) =>
      let noted := a.noteAngles yaw pitch
      -- the two branches for a switch set it
      let a := { noted.1 with firstInAimer := noted.1.switchFanblade || noted.1.firstInAimer }
      let plan := { plan with control := noted.2, yaw := yaw, pitch := -pitch }
      let rated := if noted.2 then a.mpcRates num fsqrt target gs bulletSpeed yaw pitch stale plan else (a, target, plan)
      let fired := rated.1.decideFire now
      (fired.1, rated.2.1, { rated.2.2 with fire := fired.2 })

end Aimer

/-! ## Calls -/

inductive AimCall (K : Type)
  | aim (target : RuneTarget K) (timestamp now : Int) (bulletSpeed : K) (toNow : Bool)
  | mpcAim (target : RuneTarget K) (timestamp now : Int) (gs : GimbalState K) (toNow : Bool) (stale : K × K)

inductive Reply (K : Type)
  | command (c : Command K)
  | plan (p : Plan K)

def Reply.control : Reply K → Bool
  | command c => c.control
  | plan p => p.control

/-- `Command::shoot`, or `Plan::fire`. -/
def Reply.fire : Reply K → Bool
  | command c => c.shoot
  | plan p => p.fire

namespace AimCall

def target : AimCall K → RuneTarget K
  | aim target .. => target
  | mpcAim target .. => target

def now : AimCall K → Int
  | aim _ _ now .. => now
  | mpcAim _ _ now .. => now

def apply (fsqrt : K → K) (a : Aimer K) : AimCall K → Aimer K × Reply K
  | aim target timestamp now bulletSpeed toNow =>
    let r := a.aim num fsqrt target timestamp now bulletSpeed toNow
    (r.1, .command r.2.2)
  | mpcAim target timestamp now gs toNow stale =>
    let r := a.mpcAim num fsqrt target timestamp now gs toNow stale
    (r.1, .plan r.2.2)

/-- The angles that `get_send_angle` finds in the call. -/
def sent (fsqrt : K → K) (a : Aimer K) : AimCall K → Option (K × K)
  | aim target timestamp now bulletSpeed toNow =>
    (a.getSendAngle num fsqrt target (a.future timestamp now toNow) (if bulletSpeed < 10.0 then 24.0 else bulletSpeed)).2.2
  | mpcAim target timestamp now gs toNow _ =>
    (a.getSendAngle num fsqrt target (a.future timestamp now toNow)
      (if gs.bulletSpeed < 10.0 then 24.0 else gs.bulletSpeed)).2.2

/-- The call is on a target that is solvable, and finds no angles. -/
def Misses (fsqrt : K → K) (a : Aimer K) (c : AimCall K) : Prop := c.target.isUnsolve = false ∧ c.sent num fsqrt a = none

/-- **The call detects that the blade switches.** -/
def DetectsSwitch (fsqrt : K → K) (a : Aimer K) (c : AimCall K) : Prop :=
  c.target.isUnsolve = false ∧ ∃ yaw pitch, c.sent num fsqrt a = some (yaw, pitch) ∧
    (a.mistakeCount > 3 ∨ a.AngleChanged yaw pitch)

end AimCall

/-- The aimer, and the times at which it fired. -/
def aimer (fsqrt : K → K) : Machine (Aimer K) (AimCall K) (Reply K) where
  step a c := some ((c.apply num fsqrt a).1, [(c.apply num fsqrt a).2])

def noteFire (fires : List Int) (_ : Aimer K) (c : AimCall K) (q : Aimer K × List (Reply K)) : List Int :=
  if q.2.any Reply.fire then c.now :: fires else fires

def watched (fsqrt : K → K) : Machine (Aimer K × List Int) (AimCall K) (Reply K) := (aimer num fsqrt).ghost noteFire

/-- Fire is with control, more than `fire_gap_time` after all fire before, and not in a call that detects a switch. -/
def FireLaw (fsqrt : K → K) (p : Aimer K × List Int) (c : AimCall K) : Prop :=
  (c.apply num fsqrt p.1).2.fire = true → (c.apply num fsqrt p.1).2.control = true ∧
    (∀ t ∈ p.2, deltaTime c.now t > p.1.fireGapTime) ∧ ¬ c.DetectsSwitch num fsqrt p.1

/-- The condition: a call that finds no angles comes while the blade is said to switch, or before the gap is over. -/
def Held (fsqrt : K → K) (p : Aimer K × List Int) (c : AimCall K) : Prop :=
  c.Misses num fsqrt p.1 → p.1.switchFanblade = true ∨ ¬ deltaTime c.now p.1.lastFireT > p.1.fireGapTime

/-! ## What a call does -/

section Calls

variable {num} {fsqrt : K → K}

omit [FloorRing K] in
theorem decideFire_cases (a : Aimer K) (now : Int) :
    (a.switchFanblade = true ∧ a.decideFire now = ({ a with lastFireT := now }, false)) ∨
      (a.switchFanblade = false ∧ deltaTime now a.lastFireT > a.fireGapTime ∧
        a.decideFire now = ({ a with lastFireT := now }, true)) ∨
      (a.switchFanblade = false ∧ ¬ deltaTime now a.lastFireT > a.fireGapTime ∧ a.decideFire now = (a, false)) := by
  unfold Aimer.decideFire
  cases hswitch : a.switchFanblade with
  | true => exact .inl ⟨rfl, rfl⟩
  | false =>
    by_cases hgap : deltaTime now a.lastFireT > a.fireGapTime
    · exact .inr (.inl ⟨rfl, hgap, by simp [hgap]⟩)
    · exact .inr (.inr ⟨rfl, hgap, by simp [hgap]⟩)

omit [FloorRing K] in
theorem noteAngles_cases (a : Aimer K) (yaw pitch : K) :
    ((a.mistakeCount > 3 ∨ a.AngleChanged yaw pitch) ∧ (a.noteAngles yaw pitch).1.switchFanblade = true) ∨
      (¬ (a.mistakeCount > 3 ∨ a.AngleChanged yaw pitch) ∧ (a.noteAngles yaw pitch).1.switchFanblade = false ∧
        (a.noteAngles yaw pitch).2 = true) := by
  unfold Aimer.noteAngles
  dsimp only
  by_cases hmistakes : a.mistakeCount > 3
  · rw [if_pos hmistakes]
    exact .inl ⟨.inl hmistakes, rfl⟩
  · rw [if_neg hmistakes]
    by_cases hchanged : a.AngleChanged yaw pitch
    · rw [if_pos hchanged]
      exact .inl ⟨.inr hchanged, rfl⟩
    · rw [if_neg hchanged]
      exact .inr ⟨not_or.2 ⟨hmistakes, hchanged⟩, rfl, rfl⟩

variable (num) (fsqrt) in
theorem getSendAngle_aimer (a : Aimer K) (target : RuneTarget K) (predictTime bulletSpeed : K) :
    ∃ angle, (a.getSendAngle num fsqrt target predictTime bulletSpeed).1 = { a with angle := angle } := by
  unfold Aimer.getSendAngle
  dsimp only
  split
  · exact ⟨_, rfl⟩
  · split
    · exact ⟨_, rfl⟩
    · split_ifs <;> exact ⟨_, rfl⟩

omit [FloorRing K] in
theorem noteAngles_timing (a : Aimer K) (yaw pitch : K) : (a.noteAngles yaw pitch).1.lastFireT = a.lastFireT ∧
    (a.noteAngles yaw pitch).1.fireGapTime = a.fireGapTime := by
  unfold Aimer.noteAngles
  dsimp only
  split_ifs <;> exact ⟨rfl, rfl⟩

omit [FloorRing K] in
/-- The angle that the aimer shows is not read. -/
theorem noteAngles_angle (a : Aimer K) (angle yaw pitch : K) :
    ({ a with angle := angle }.noteAngles yaw pitch).2 = (a.noteAngles yaw pitch).2 ∧
      ({ a with angle := angle }.noteAngles yaw pitch).1.switchFanblade = (a.noteAngles yaw pitch).1.switchFanblade := by
  have hchanged : { a with angle := angle }.AngleChanged yaw pitch ↔ a.AngleChanged yaw pitch := Iff.rfl
  unfold Aimer.noteAngles
  by_cases hmistakes : a.mistakeCount > 3
  · simp [hmistakes]
  · by_cases h : a.AngleChanged yaw pitch <;> simp [hmistakes, hchanged, h]

variable (num) (fsqrt) in
theorem mpcRates_timing (a : Aimer K) (target : RuneTarget K) (gs : GimbalState K) (bulletSpeed yaw pitch : K)
    (stale : K × K) (plan : Plan K) :
    let r := a.mpcRates num fsqrt target gs bulletSpeed yaw pitch stale plan
    r.1.switchFanblade = a.switchFanblade ∧ r.1.lastFireT = a.lastFireT ∧ r.1.fireGapTime = a.fireGapTime ∧
      r.2.2.control = plan.control := by
  unfold Aimer.mpcRates
  dsimp only
  split_ifs
  · exact ⟨rfl, rfl, rfl, rfl⟩
  · obtain ⟨angle, hangle⟩ := getSendAngle_aimer num fsqrt a target (a.predictTime * -1) bulletSpeed
    rw [hangle]
    exact ⟨rfl, rfl, rfl, rfl⟩

/-- What a call that is not idle decides about the fire from, and how it comes to it. -/
structure Decides (num : Numerics K) (fsqrt : K → K) (a : Aimer K) (c : AimCall K) (b : Aimer K) : Prop where
  lastFireT : b.lastFireT = a.lastFireT
  fireGapTime : b.fireGapTime = a.fireGapTime
  aimer : (c.apply num fsqrt a).1 = (b.decideFire c.now).1
  fire : (c.apply num fsqrt a).2.fire = (b.decideFire c.now).2
  verdict : (c.Misses num fsqrt a ∧ b.switchFanblade = a.switchFanblade ∧ (c.apply num fsqrt a).2.control = false) ∨
    (¬ c.Misses num fsqrt a ∧ b.switchFanblade = true) ∨
    (¬ c.Misses num fsqrt a ∧ ¬ c.DetectsSwitch num fsqrt a ∧ (c.apply num fsqrt a).2.control = true)

/-- Without angles the fire is decided about with the aimer as it was. -/
theorem decides_of_missed {a : Aimer K} {c : AimCall K} {angle : K} (hsolve : c.target.isUnsolve = false)
    (hsent : c.sent num fsqrt a = none) (haimer : (c.apply num fsqrt a).1 = ({ a with angle := angle }.decideFire c.now).1)
    (hfire : (c.apply num fsqrt a).2.fire = ({ a with angle := angle }.decideFire c.now).2)
    (hcontrol : (c.apply num fsqrt a).2.control = false) : Decides num fsqrt a c { a with angle := angle } :=
  ⟨rfl, rfl, haimer, hfire, .inl ⟨⟨hsolve, hsent⟩, rfl, hcontrol⟩⟩

/-- With angles it is decided about after they have been noted. -/
theorem decides_of_sent {a b noted : Aimer K} {c : AimCall K} {angle yaw pitch : K}
    (hsent : c.sent num fsqrt a = some (yaw, pitch)) (hnoted : noted = ({ a with angle := angle }.noteAngles yaw pitch).1)
    (hswitch : b.switchFanblade = noted.switchFanblade) (hlast : b.lastFireT = noted.lastFireT)
    (hgap : b.fireGapTime = noted.fireGapTime) (haimer : (c.apply num fsqrt a).1 = (b.decideFire c.now).1)
    (hfire : (c.apply num fsqrt a).2.fire = (b.decideFire c.now).2)
    (hcontrol : (c.apply num fsqrt a).2.control = ({ a with angle := angle }.noteAngles yaw pitch).2) :
    Decides num fsqrt a c b := by
  subst hnoted
  obtain ⟨hlast', hgap'⟩ := noteAngles_timing { a with angle := angle } yaw pitch
  obtain ⟨hcontrol', hswitch'⟩ := noteAngles_angle a angle yaw pitch
  have hmiss : ¬ c.Misses num fsqrt a := by
    rintro ⟨-, hnone⟩
    rw [hsent] at hnone
    cases hnone
  refine ⟨hlast.trans hlast', hgap.trans hgap', haimer, hfire, .inr ?_⟩
  rcases noteAngles_cases a yaw pitch with ⟨-, hon⟩ | ⟨hno, -, hc⟩
  · exact .inl ⟨hmiss, (hswitch.trans hswitch').trans hon⟩
  · refine .inr ⟨hmiss, ?_, (hcontrol.trans hcontrol').trans hc⟩
    rintro ⟨-, yaw', pitch', hsent', hdetects⟩
    rw [hsent, Option.some.injEq, Prod.mk.injEq] at hsent'
    obtain ⟨rfl, rfl⟩ := hsent'
    exact hno hdetects

variable (num) (fsqrt)

theorem aim_decides (a : Aimer K) {target : RuneTarget K} (hsolve : target.isUnsolve = false) (timestamp now : Int)
    (bulletSpeed : K) (toNow : Bool) : ∃ b, Decides num fsqrt a (.aim target timestamp now bulletSpeed toNow) b := by
  have hidle : ¬ target.isUnsolve = true := by rw [hsolve]; exact Bool.false_ne_true
  obtain ⟨angle, hangle⟩ := getSendAngle_aimer num fsqrt a target (a.future timestamp now toNow)
    (if bulletSpeed < 10.0 then 24.0 else bulletSpeed)
  have hsent : (AimCall.aim target timestamp now bulletSpeed toNow).sent num fsqrt a =
    (a.getSendAngle num fsqrt target (a.future timestamp now toNow)
      (if bulletSpeed < 10.0 then 24.0 else bulletSpeed)).2.2 := rfl
  generalize hget : a.getSendAngle num fsqrt target _ _ = r at hangle hsent
  obtain ⟨a1, target1, _ | ⟨yaw, pitch⟩⟩ := r
  · have happly : (AimCall.aim target timestamp now bulletSpeed toNow).apply num fsqrt a =
        ((a1.decideFire now).1, .command ⟨false, (a1.decideFire now).2, 0, 0, 0⟩) := by
      simp only [AimCall.apply, Aimer.aim, if_neg hidle, hget]
    obtain rfl : a1 = { a with angle := angle } := hangle
    exact ⟨_, decides_of_missed hsolve hsent (by rw [happly]; rfl) (by rw [happly]; rfl) (by rw [happly]; rfl)⟩
  · have happly : (AimCall.aim target timestamp now bulletSpeed toNow).apply num fsqrt a =
        (((a1.noteAngles yaw pitch).1.decideFire now).1, .command ⟨(a1.noteAngles yaw pitch).2,
          ((a1.noteAngles yaw pitch).1.decideFire now).2, yaw, -pitch, 0⟩) := by
      simp only [AimCall.apply, Aimer.aim, if_neg hidle, hget]
    obtain rfl : a1 = { a with angle := angle } := hangle
    exact ⟨_, decides_of_sent hsent rfl rfl rfl rfl (by rw [happly]; rfl) (by rw [happly]; rfl) (by rw [happly]; rfl)⟩

theorem mpcAim_decides (a : Aimer K) {target : RuneTarget K} (hsolve : target.isUnsolve = false) (timestamp now : Int)
    (gs : GimbalState K) (toNow : Bool) (stale : K × K) :
    ∃ b, Decides num fsqrt a (.mpcAim target timestamp now gs toNow stale) b := by
  have hidle : ¬ target.isUnsolve = true := by rw [hsolve]; exact Bool.false_ne_true
  obtain ⟨angle, hangle⟩ := getSendAngle_aimer num fsqrt a target (a.future timestamp now toNow)
    (if gs.bulletSpeed < 10.0 then 24.0 else gs.bulletSpeed)
  have hsent : (AimCall.mpcAim target timestamp now gs toNow stale).sent num fsqrt a =
    (a.getSendAngle num fsqrt target (a.future timestamp now toNow)
      (if gs.bulletSpeed < 10.0 then 24.0 else gs.bulletSpeed)).2.2 := rfl
  generalize hget : a.getSendAngle num fsqrt target _ _ = r at hangle hsent
  obtain ⟨a1, target1, _ | ⟨yaw, pitch⟩⟩ := r
  · have happly : (AimCall.mpcAim target timestamp now gs toNow stale).apply num fsqrt a =
        ((a1.decideFire now).1, .plan ⟨false, (a1.decideFire now).2, 0, 0, 0, 0, 0, 0, 0, 0⟩) := by
      simp only [AimCall.apply, Aimer.mpcAim, if_neg hidle, hget]
    obtain rfl : a1 = { a with angle := angle } := hangle
    exact ⟨_, decides_of_missed hsolve hsent (by rw [happly]; rfl) (by rw [happly]; rfl) (by rw [happly]; rfl)⟩
  · let noted := a1.noteAngles yaw pitch
    let a2 : Aimer K := { noted.1 with firstInAimer := noted.1.switchFanblade || noted.1.firstInAimer }
    let plan : Plan K := ⟨noted.2, false, 0, 0, yaw, 0, 0, -pitch, 0, 0⟩
    let rated := if noted.2 then
        a2.mpcRates num fsqrt target1 gs (if gs.bulletSpeed < 10.0 then 24.0 else gs.bulletSpeed) yaw pitch stale plan
      else (a2, target1, plan)
    have happly : (AimCall.mpcAim target timestamp now gs toNow stale).apply num fsqrt a =
        ((rated.1.decideFire now).1, .plan { rated.2.2 with fire := (rated.1.decideFire now).2 }) := by
      simp only [AimCall.apply, Aimer.mpcAim, if_neg hidle, hget]
      rfl
    have hrated : rated.1.switchFanblade = noted.1.switchFanblade ∧ rated.1.lastFireT = noted.1.lastFireT ∧
        rated.1.fireGapTime = noted.1.fireGapTime ∧ rated.2.2.control = noted.2 := by
      by_cases hcontrol : noted.2 = true
      · rw [show rated = _ from if_pos hcontrol]
        exact mpcRates_timing num fsqrt a2 target1 gs _ yaw pitch stale plan
      · rw [show rated = _ from if_neg hcontrol]
        exact ⟨rfl, rfl, rfl, rfl⟩
    obtain ⟨hswitch, hlast, hgap, hcontrol⟩ := hrated
    obtain rfl : a1 = { a with angle := angle } := hangle
    exact ⟨rated.1, decides_of_sent hsent rfl hswitch hlast hgap (by rw [happly]; rfl) (by rw [happly]; rfl)
      (by rw [happly]; exact hcontrol)⟩

/-- **What a call does**: nothing without a solvable target; else it decides about the fire. -/
theorem apply_cases (a : Aimer K) (c : AimCall K) :
    (c.target.isUnsolve = true ∧ (c.apply num fsqrt a).1 = a ∧ (c.apply num fsqrt a).2.fire = false) ∨
      ∃ b, Decides num fsqrt a c b := by
  cases hsolve : c.target.isUnsolve with
  | true =>
    left
    cases c with
    | aim => simp_all [AimCall.apply, Aimer.aim, AimCall.target, Reply.fire, Command.none]
    | mpcAim => simp_all [AimCall.apply, Aimer.mpcAim, AimCall.target, Reply.fire]
  | false =>
    right
    cases c with
    | aim target timestamp now bulletSpeed toNow => exact aim_decides num fsqrt a hsolve timestamp now bulletSpeed toNow
    | mpcAim target timestamp now gs toNow stale => exact mpcAim_decides num fsqrt a hsolve timestamp now gs toNow stale

variable {num} {fsqrt}

/-! ## A run -/

/-- Every shot is no later than `last_fire_t_`, and that no later than the clock. -/
structure Past (p : Aimer K × List Int) (clock : Int) : Prop where
  fires : ∀ t ∈ p.2, t ≤ p.1.lastFireT
  clock : p.1.lastFireT ≤ clock

theorem watched_step (p : Aimer K × List Int) (c : AimCall K) : (watched num fsqrt).step p c =
    some (((c.apply num fsqrt p.1).1, if (c.apply num fsqrt p.1).2.fire then c.now :: p.2 else p.2),
      [(c.apply num fsqrt p.1).2]) := by
  simp [watched, Machine.ghost, aimer, noteFire]

/-- **A call with the clock running on leaves the shots in the past.** -/
theorem past_call {p : Aimer K × List Int} {clock : Int} (h : Past p clock) {c : AimCall K} (hclock : clock ≤ c.now) :
    Past ((c.apply num fsqrt p.1).1, if (c.apply num fsqrt p.1).2.fire then c.now :: p.2 else p.2) c.now := by
  rcases apply_cases num fsqrt p.1 c with ⟨-, haimer, hfire⟩ | ⟨b, hb⟩
  · rw [haimer, hfire]
    exact ⟨h.fires, h.clock.trans hclock⟩
  · rw [hb.aimer, hb.fire]
    have hlast : p.1.lastFireT ≤ c.now := h.clock.trans hclock
    rcases decideFire_cases b c.now with ⟨-, hd⟩ | ⟨-, -, hd⟩ | ⟨-, -, hd⟩
    · rw [hd]
      exact ⟨fun t ht => (h.fires t ht).trans hlast, le_rfl⟩
    · rw [hd]
      refine ⟨fun t ht => ?_, le_rfl⟩
      rcases List.mem_cons.1 ht with rfl | ht
      · exact le_rfl
      · exact (h.fires t ht).trans hlast
    · rw [hd]
      refine ⟨fun t ht => ?_, ?_⟩
      · rw [hb.lastFireT]
        exact h.fires t ht
      · rw [hb.lastFireT]
        exact hlast

section Ordered

variable [IsStrictOrderedRing K]

omit [FloorRing K] in
theorem deltaTime_le {now s t : Int} (h : s ≤ t) : (deltaTime now t : K) ≤ deltaTime now s := by
  unfold deltaTime
  apply div_le_div_of_nonneg_right _ (by positivity)
  exact_mod_cast Int.sub_le_sub_left h now

/-- **A call fires as it should iff it is held where it misses.** -/
theorem fireLaw_iff_held {p : Aimer K × List Int} {clock : Int} (h : Past p clock) (c : AimCall K) :
    FireLaw num fsqrt p c ↔ Held num fsqrt p c := by
  unfold FireLaw Held
  rcases apply_cases num fsqrt p.1 c with ⟨hunsolve, -, hfire⟩ | ⟨b, hb⟩
  · refine iff_of_true (fun hf => ?_) (fun hmiss => ?_)
    · rw [hfire] at hf
      cases hf
    · rw [hmiss.1] at hunsolve
      cases hunsolve
  · rw [hb.fire]
    have hverdict := hb.verdict
    rcases decideFire_cases b c.now with ⟨hswitch, hd⟩ | ⟨hswitch, hgap, hd⟩ | ⟨-, hgap, hd⟩
    · rw [hd]
      refine iff_of_true (fun hf => by cases hf) fun hmiss => ?_
      rcases hverdict with ⟨-, heq, -⟩ | ⟨hno, -⟩ | ⟨hno, -⟩
      · exact .inl (heq ▸ hswitch)
      · exact absurd hmiss hno
      · exact absurd hmiss hno
    · rw [hd]
      rw [hb.lastFireT, hb.fireGapTime] at hgap
      rcases hverdict with ⟨hmiss, heq, hcontrol⟩ | ⟨-, hon⟩ | ⟨hno, hdetects, hcontrol⟩
      · refine iff_of_false (fun hf => ?_) (fun hheld => ?_)
        · rw [(hf rfl).1] at hcontrol
          cases hcontrol
        · rcases hheld hmiss with hon | hearly
          · rw [heq, hon] at hswitch
            cases hswitch
          · exact hearly hgap
      · rw [hon] at hswitch
        cases hswitch
      · refine iff_of_true (fun _ => ⟨hcontrol, fun t ht => ?_, hdetects⟩) (fun hmiss => absurd hmiss hno)
        exact hgap.trans_le (deltaTime_le (h.fires t ht))
    · rw [hd]
      rw [hb.lastFireT, hb.fireGapTime] at hgap
      exact iff_of_true (fun hf => by cases hf) fun _ => .inr hgap

theorem along_fireLaw_iff : ∀ (calls : List (AimCall K)) {p : Aimer K × List Int} {clock : Int}, Past p clock →
    (clock :: calls.map AimCall.now).IsChain (· ≤ ·) →
      ((watched num fsqrt).Along (FireLaw num fsqrt) p calls ↔ (watched num fsqrt).Along (Held num fsqrt) p calls)
  | [], _, _, _, _ => Iff.rfl
  | c :: calls, p, clock, h, hclock => by
    rw [List.map_cons, List.isChain_cons_cons] at hclock
    rw [Machine.along_cons_of_step (watched_step p c), Machine.along_cons_of_step (watched_step p c),
      fireLaw_iff_held h c]
    exact and_congr_right fun _ => along_fireLaw_iff calls (past_call h hclock.1) hclock.2

variable (num) (fsqrt) in
/-- **When the rune aimer keeps its fire discipline**, of the runs on which the clock does not go back: when no call that
misses comes with the gap over and without a switch. -/
theorem aim_fire_iff (yawOffset pitchOffset fireGapTime predictTime : K) (start : Int) (memory : Unwritten K)
    (calls : List (AimCall K)) (hclock : (start :: calls.map AimCall.now).IsChain (· ≤ ·)) :
    (watched num fsqrt).Along (FireLaw num fsqrt)
        (Aimer.ofConfig yawOffset pitchOffset fireGapTime predictTime start memory, []) calls ↔
      (watched num fsqrt).Along (Held num fsqrt)
        (Aimer.ofConfig yawOffset pitchOffset fireGapTime predictTime start memory, []) calls :=
  along_fireLaw_iff calls ⟨fun _ h => absurd h List.not_mem_nil, le_rfl⟩ hclock

end Ordered

end Calls

/-- A rune 11 metres ahead that turns. -/
noncomputable def rune11m : SmallTarget ℝ where
  toBuffTarget :=
    { (BuffTarget.fresh : BuffTarget ℝ 7) with
      ekf := .ofState ![0, 0, 0, 11.0, 0, 0, SmallTarget.smallW realNumerics] 1 (SmallTarget.xAdd realNumerics)
      firstIn := false
      unsolvable := false }

/-- Where the blade is when the rune has turned. -/
theorem rune11m_aim (dt : ℝ) : ∃ roll : ℝ, (RuneTarget.predict realNumerics dt (.small rune11m)).pointBuff2world
    realNumerics ![0.0, 0.0, 0.7] = ![11.0, -(0.7 * Real.sin roll), 0.7 * Real.cos roll] := by
  have hzero : limitRad realNumerics.toLibm 0 = 0 := limitRad_zero
  have hstart : rune11m.ekf.x = ![0, 0, 0, 11.0, 0, 0, SmallTarget.smallW realNumerics] := rfl
  have hx := small_predict_x realNumerics rune11m dt
  have h0 : (rune11m.predict realNumerics dt).ekf.x 0 = 0 := by simp [hx, hstart, hzero]
  have h2 : (rune11m.predict realNumerics dt).ekf.x 2 = 0 := by simp [hx, hstart, hzero]
  have h3 : (rune11m.predict realNumerics dt).ekf.x 3 = 11.0 := by simp [hx, hstart]
  have h4 : (rune11m.predict realNumerics dt).ekf.x 4 = 0 := by simp [hx, hstart, hzero]
  refine ⟨(rune11m.predict realNumerics dt).ekf.x 5, ?_⟩
  have hsolvable : ¬ (rune11m.predict realNumerics dt).unsolvable = true := Bool.false_ne_true
  simp only [RuneTarget.predict, RuneTarget.pointBuff2world, BuffTarget.pointBuff2world, if_neg hsolvable, h0, h2, h3, h4]
  generalize (rune11m.predict realNumerics dt).ekf.x 5 = roll
  funext i
  fin_cases i <;>
    norm_num [rotationMatrix, realNumerics, Dual.realLibm, Matrix.mulVec, dotProduct, Fin.sum_univ_succ, mul_comm]
  · rfl
  · rfl

/-- A bullet of 10 metres a second does not reach it. -/
theorem rune11m_misses (fsqrt : ℝ → ℝ) (a : Aimer ℝ) (dt : ℝ) :
    (a.getSendAngle realNumerics fsqrt (.small rune11m) dt 10).2.2 = none := by
  obtain ⟨roll, haim⟩ := rune11m_aim dt
  have hnone : trajectory realNumerics.toLibm 10
      (realNumerics.sqrt (11.0 * 11.0 + -(0.7 * Real.sin roll) * -(0.7 * Real.sin roll))) (0.7 * Real.cos roll) = none := by
    have hsin := Real.sin_sq_add_cos_sq roll
    have hcos := Real.neg_one_le_cos roll
    have hsq : Real.sqrt (11.0 * 11.0 + -(0.7 * Real.sin roll) * -(0.7 * Real.sin roll)) ^ 2 =
        11.0 * 11.0 + -(0.7 * Real.sin roll) * -(0.7 * Real.sin roll) :=
      Real.sq_sqrt (by nlinarith [sq_nonneg (Real.sin roll)])
    unfold trajectory realNumerics Dual.realLibm
    dsimp only
    generalize Real.sqrt _ = d at hsq ⊢
    rw [if_pos]
    norm_num at hsq ⊢
    nlinarith [sq_nonneg (Real.sin roll), sq_nonneg (Real.cos roll)]
  unfold Aimer.getSendAngle
  simp only [haim]
  simp only [Matrix.cons_val_zero, Matrix.cons_val_one, Matrix.cons_val, hnone]

/-- An aimer with a gap of 520 ms, constructed at the time 0, with no switch in its memory. -/
noncomputable def aimer520ms : Aimer ℝ := .ofConfig 0 0 0.52 0.1 0 ⟨0, false⟩

/-- A rune out of reach within the gap is not fired at. -/
theorem aim_fire_early : (watched realNumerics Real.sqrt).Along (FireLaw realNumerics Real.sqrt) (aimer520ms, [])
    [.aim (.small rune11m) 0 100000000 10 true] := by
  refine (aim_fire_iff realNumerics Real.sqrt 0 0 0.52 0.1 0 ⟨0, false⟩ _ (by simp [AimCall.now])).2
    ⟨fun _ => .inr ?_, fun _ _ _ => trivial⟩
  show ¬ (deltaTime 100000000 0 : ℝ) > 0.52
  norm_num [deltaTime]

/-- **A rune out of reach is fired at without control**, by `aim` and by `mpc_aim`. -/
theorem out_of_reach_fires :
    (¬ (watched realNumerics Real.sqrt).Along (FireLaw realNumerics Real.sqrt) (aimer520ms, [])
      [.aim (.small rune11m) 900000000 1000000000 10 true]) ∧
    ¬ (watched realNumerics Real.sqrt).Along (FireLaw realNumerics Real.sqrt) (aimer520ms, [])
      [.mpcAim (.small rune11m) 900000000 1000000000 ⟨0, 0, 10⟩ true (0, 0)] := by
  have hpast : Past (aimer520ms, []) 0 := ⟨fun _ h => absurd h List.not_mem_nil, le_rfl⟩
  have hover : (deltaTime 1000000000 0 : ℝ) > 0.52 := by norm_num [deltaTime]
  have hheld : ∀ c : AimCall ℝ, c.now = 1000000000 → c.Misses realNumerics Real.sqrt aimer520ms →
      ¬ FireLaw realNumerics Real.sqrt (aimer520ms, []) c := by
    intro c hnow hmiss hlaw
    rcases (fireLaw_iff_held hpast c).1 hlaw hmiss with hswitch | hearly
    · cases hswitch
    · rw [hnow] at hearly
      exact hearly hover
  have hspeed : (if (10 : ℝ) < 10.0 then (24.0 : ℝ) else 10) = 10 := if_neg (by norm_num)
  refine ⟨fun h => hheld _ rfl ⟨rfl, ?_⟩ h.1, fun h => hheld _ rfl ⟨rfl, ?_⟩ h.1⟩
  · rw [AimCall.sent, hspeed]
    exact rune11m_misses _ _ _
  · rw [AimCall.sent, hspeed]
    exact rune11m_misses _ _ _

end Buff
end Vision
end LfSentry
