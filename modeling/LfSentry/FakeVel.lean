import Mathlib.Algebra.Order.Field.Basic
import Mathlib.Algebra.Order.AbsoluteValue.Basic
import Mathlib.Analysis.SpecialFunctions.Trigonometric.Basic
import Mathlib.Tactic.LinearCombination
import LfSentry.Runs
/-!
# FakeVel — velocity commands turned into the robot's frame (`fake_vel_transform`)

While the local planner is active a command waits in `latest_cmd_vel_` for the next pair of odometry and plan; a stop is
published at once.  The stop leaves the waiting command where it is, and the next pair publishes it again: a stop lasts
iff no pair comes while a command waits (`halted_iff`).
-/
namespace LfSentry
namespace FakeVel

variable {K : Type}

/-- The functions of the C library that turn a velocity, and the conversion of an angle to `float`. -/
structure Trig (K : Type) [CommRing K] where
  cos : K → K
  sin : K → K
  toFloat : K → K
  pythagoras : ∀ x, cos x ^ 2 + sin x ^ 2 = 1

/-- The members of `geometry_msgs::msg::Twist` that are read or set; the others stay zero. -/
structure Twist (K : Type) where
  linearX : K
  linearY : K
  angularZ : K

/-- The node; times are nanoseconds. -/
structure FakeVelTransform (K : Type) where
  spinSpeed : K
  latestCmdVel : Option (Twist K)
  currentRobotBaseAngle : K
  lastControllerActivateTime : Int

/-- The angle starts as it is found. -/
def FakeVelTransform.init (initSpinSpeed angle : K) : FakeVelTransform K := ⟨initSpinSpeed, none, angle, 0⟩

/-- More than `CONTROLLER_TIMEOUT` since the last local plan. -/
def timedOut (s : FakeVelTransform K) (now : Int) : Bool :=
  decide (now - s.lastControllerActivateTime > 500000000)

variable [Field K]

def transformVelocity (lib : Trig K) (s : FakeVelTransform K) (twist : Twist K) (yawDiff : K) : Twist K where
  angularZ := twist.angularZ + s.spinSpeed
  linearX := twist.linearX * lib.cos yawDiff + twist.linearY * lib.sin yawDiff
  linearY := -twist.linearX * lib.sin yawDiff + twist.linearY * lib.cos yawDiff

variable [LinearOrder K]

def epsilon : K := 1 / 100000

def isZeroVel (msg : Twist K) : Bool :=
  decide (|msg.linearX| < epsilon) && decide (|msg.linearY| < epsilon) && decide (|msg.angularZ| < epsilon)

def cmdVelCallback (lib : Trig K) (s : FakeVelTransform K) (msg : Twist K) (now : Int) :
    FakeVelTransform K × List (Twist K) :=
  if isZeroVel msg || timedOut s now then
    (s, [transformVelocity lib s msg (lib.toFloat s.currentRobotBaseAngle)])
  else ({ s with latestCmdVel := some msg }, [])

def cmdSpinCallback (s : FakeVelTransform K) (data : K) : FakeVelTransform K := { s with spinSpeed := data }

def odometryCallback (s : FakeVelTransform K) (yaw : K) (now : Int) : FakeVelTransform K :=
  if timedOut s now then { s with currentRobotBaseAngle := yaw } else s

def localPlanCallback (s : FakeVelTransform K) (now : Int) : FakeVelTransform K :=
  { s with lastControllerActivateTime := now }

def syncCallback (lib : Trig K) (s : FakeVelTransform K) (yaw : K) : FakeVelTransform K × List (Twist K) :=
  match s.latestCmdVel with
  | none => (s, [])
  | some currentCmdVel =>
    let s := { s with currentRobotBaseAngle := yaw }
    let yawDiff := lib.toFloat s.currentRobotBaseAngle
    (s, [transformVelocity lib s currentCmdVel yawDiff])

/-- The callbacks; an odometry message comes as its yaw. -/
inductive Label (K : Type)
  | cmdSpin (data : K)
  | cmdVel (msg : Twist K) (now : Int)
  | odometry (yaw : K) (now : Int)
  | localPlan (now : Int)
  | sync (yaw : K)

/-- The node under any order of callbacks; it says what it publishes. -/
def node (lib : Trig K) : Machine (FakeVelTransform K) (Label K) (Twist K) where
  step s
    | .cmdSpin data => some (cmdSpinCallback s data, [])
    | .cmdVel msg now => some (cmdVelCallback lib s msg now)
    | .odometry yaw now => some (odometryCallback s yaw now, [])
    | .localPlan now => some (localPlanCallback s now, [])
    | .sync yaw => some (syncCallback lib s yaw)

/-! ## Stops -/

/-- Whether the last command handled was a stop. -/
def noteStop (stopped : Bool) : Label K → Bool
  | .cmdVel msg _ => isZeroVel msg
  | .cmdSpin _ => stopped
  | .odometry _ _ => stopped
  | .localPlan _ => stopped
  | .sync _ => stopped

def recorded (lib : Trig K) : Machine (FakeVelTransform K × Bool) (Label K) (Twist K) :=
  (node lib).ghost fun stopped _ i _ => noteStop stopped i

/-- After a stop nothing but the spin is published, unless for a command that comes in now. -/
def Halted (lib : Trig K) (p : FakeVelTransform K × Bool) (i : Label K) : Prop :=
  p.2 = true → (∀ msg now, i ≠ .cmdVel msg now) → ∀ q es, (recorded lib).step p i = some (q, es) →
    ∀ v ∈ es, v.linearX = 0 ∧ v.linearY = 0 ∧ v.angularZ = p.1.spinSpeed

/-- No pair of odometry and plan comes after a stop while a command waits. -/
def NoneWaits (p : FakeVelTransform K × Bool) (i : Label K) : Prop :=
  ∀ yaw, i = .sync yaw → p.2 = true → p.1.latestCmdVel = none

/-- What waits is not a stop. -/
def WaitsNonzero (p : FakeVelTransform K × Bool) : Prop := ∀ msg, p.1.latestCmdVel = some msg → isZeroVel msg = false

omit [LinearOrder K] in
/-- **A velocity that is zero in the turned frame is zero.** -/
theorem transformVelocity_still {lib : Trig K} {s : FakeVelTransform K} {twist : Twist K} {yawDiff : K}
    (hx : (transformVelocity lib s twist yawDiff).linearX = 0) (hy : (transformVelocity lib s twist yawDiff).linearY = 0)
    (hz : (transformVelocity lib s twist yawDiff).angularZ = s.spinSpeed) : twist = ⟨0, 0, 0⟩ := by
  have hone := lib.pythagoras yawDiff
  simp only [transformVelocity] at hx hy hz
  have hx0 : twist.linearX = 0 := by
    linear_combination lib.cos yawDiff * hx - lib.sin yawDiff * hy - twist.linearX * hone
  have hy0 : twist.linearY = 0 := by
    linear_combination lib.sin yawDiff * hx + lib.cos yawDiff * hy - twist.linearY * hone
  have hz0 : twist.angularZ = 0 := by simpa using hz
  cases twist
  simp only at hx0 hy0 hz0
  rw [hx0, hy0, hz0]

theorem cmdVelCallback_waits {lib : Trig K} {s s' : FakeVelTransform K} {stopped : Bool} {msg : Twist K} {now : Int}
    {vs : List (Twist K)} (h : WaitsNonzero (s, stopped)) (hs : cmdVelCallback lib s msg now = (s', vs)) (b : Bool) :
    WaitsNonzero (s', b) := by
  unfold cmdVelCallback at hs
  split at hs
  · obtain ⟨rfl, -⟩ := Prod.mk.inj hs
    exact h
  · rename_i hc
    obtain ⟨rfl, -⟩ := Prod.mk.inj hs
    intro m hm
    obtain rfl := Option.some.inj hm
    rw [Bool.or_eq_true, not_or, Bool.not_eq_true] at hc
    exact hc.1

omit [LinearOrder K] in
theorem syncCallback_waits {lib : Trig K} {s s' : FakeVelTransform K} {yaw : K} {vs : List (Twist K)}
    (hs : syncCallback lib s yaw = (s', vs)) : s'.latestCmdVel = s.latestCmdVel := by
  unfold syncCallback at hs
  split at hs
  · obtain ⟨rfl, -⟩ := Prod.mk.inj hs
    rfl
  · obtain ⟨rfl, -⟩ := Prod.mk.inj hs
    rfl

/-- Only a command that is no stop is ever kept. -/
theorem waitsNonzero_step {lib : Trig K} {p q : FakeVelTransform K × Bool} {i : Label K} {es : List (Twist K)}
    (h : WaitsNonzero p) (hs : (recorded lib).step p i = some (q, es)) : WaitsNonzero q := by
  obtain ⟨s, stopped⟩ := p
  obtain ⟨s', stopped'⟩ := q
  have hstep := (Machine.ghost_step.1 hs).1
  cases i with
  | cmdSpin data =>
    obtain ⟨rfl, -⟩ := Prod.mk.inj (Option.some.inj hstep)
    exact h
  | cmdVel msg now => exact cmdVelCallback_waits h (Option.some.inj hstep) stopped'
  | odometry yaw now =>
    obtain ⟨rfl, -⟩ := Prod.mk.inj (Option.some.inj hstep)
    have hsame : (odometryCallback s yaw now).latestCmdVel = s.latestCmdVel := by
      unfold odometryCallback
      split <;> rfl
    intro m hm
    exact h m (hsame ▸ hm)
  | localPlan now =>
    obtain ⟨rfl, -⟩ := Prod.mk.inj (Option.some.inj hstep)
    exact h
  | sync yaw =>
    have hsame := syncCallback_waits (Option.some.inj hstep)
    intro m hm
    exact h m (hsame ▸ hm)

variable [IsStrictOrderedRing K]

theorem isZeroVel_zero : isZeroVel (⟨0, 0, 0⟩ : Twist K) = true := by
  have hpos : (0 : K) < epsilon := by
    unfold epsilon
    positivity
  simp [isZeroVel, hpos]

/-- What a pair publishes when a nonzero command waits is not a standstill. -/
theorem syncCallback_moves (lib : Trig K) {s : FakeVelTransform K} {msg : Twist K} (hw : s.latestCmdVel = some msg)
    (hne : isZeroVel msg = false) (yaw : K) :
    ∃ v ∈ (syncCallback lib s yaw).2, ¬ (v.linearX = 0 ∧ v.linearY = 0 ∧ v.angularZ = s.spinSpeed) := by
  refine ⟨transformVelocity lib { s with currentRobotBaseAngle := yaw } msg (lib.toFloat yaw), ?_, ?_⟩
  · simp only [syncCallback, hw, List.mem_singleton]
  · rintro ⟨hx, hy, hz⟩
    rw [transformVelocity_still hx hy hz, isZeroVel_zero] at hne
    cases hne

/-- **A step keeps to a stop iff it is no pair that finds a command waiting.** -/
theorem halted_iff_noneWaits {lib : Trig K} {p : FakeVelTransform K × Bool} (h : WaitsNonzero p) (i : Label K) :
    Halted lib p i ↔ NoneWaits p i := by
  obtain ⟨s, stopped⟩ := p
  constructor
  · intro hh yaw hi hstop
    subst hi
    cases hw : s.latestCmdVel with
    | none => rfl
    | some msg =>
      obtain ⟨v, hv, hmoves⟩ := syncCallback_moves lib hw (h msg hw) yaw
      have hstep : (recorded lib).step (s, stopped) (.sync yaw) =
          some (((syncCallback lib s yaw).1, stopped), (syncCallback lib s yaw).2) := rfl
      exact absurd (hh hstop (fun _ _ hi => by cases hi) _ _ hstep v hv) hmoves
  · intro hn hstop hcmd q es hs v hv
    have hstep := (Machine.ghost_step.1 hs).1
    cases i with
    | cmdVel msg now => exact absurd rfl (hcmd msg now)
    | cmdSpin data =>
      obtain ⟨-, rfl⟩ := Prod.mk.inj (Option.some.inj hstep)
      cases hv
    | odometry yaw now =>
      obtain ⟨-, rfl⟩ := Prod.mk.inj (Option.some.inj hstep)
      cases hv
    | localPlan now =>
      obtain ⟨-, rfl⟩ := Prod.mk.inj (Option.some.inj hstep)
      cases hv
    | sync yaw =>
      have hnone : s.latestCmdVel = none := hn yaw rfl hstop
      have hsync : syncCallback lib s yaw = (s, []) := by simp only [syncCallback, hnone]
      have hes : (q.1, es) = (s, []) := (Option.some.inj hstep).symm.trans hsync
      obtain ⟨-, rfl⟩ := Prod.mk.inj hes
      cases hv

/-- **Through a run a stop lasts iff no pair of odometry and plan comes after it while a command waits**, whatever the
order of the callbacks. -/
theorem halted_iff (lib : Trig K) (initSpinSpeed angle : K) (is : List (Label K)) :
    (recorded lib).Along (Halted lib) (FakeVelTransform.init initSpinSpeed angle, false) is ↔
      (recorded lib).Along NoneWaits (FakeVelTransform.init initSpinSpeed angle, false) is := by
  refine Machine.along_iff (fun p i h => halted_iff_noneWaits h i) (fun p i q es h _ hs => waitsNonzero_step h hs) ?_
  intro msg hm
  cases hm

/-- The library over the reals, without rounding. -/
noncomputable def realTrig : Trig ℝ where
  cos := Real.cos
  sin := Real.sin
  toFloat := id
  pythagoras := Real.cos_sq_add_sin_sq

/-- A stop while the planner is active, with nothing kept before it, is left alone by the next pair. -/
theorem halted_iff_nothingKept : (recorded realTrig).Along (Halted realTrig) (FakeVelTransform.init 0 0, false)
    [.localPlan 1000000000, .cmdVel ⟨0, 0, 0⟩ 1200000000, .sync 0] := by
  refine (halted_iff realTrig 0 0 _).2 ?_
  have hplan : (recorded realTrig).step (FakeVelTransform.init 0 0, false) (.localPlan 1000000000) =
      some ((⟨0, none, 0, 1000000000⟩, false), []) := rfl
  have hstop : isZeroVel (⟨0, 0, 0⟩ : Twist ℝ) = true := isZeroVel_zero
  have hpublished : (recorded realTrig).step (⟨0, none, 0, 1000000000⟩, false) (.cmdVel ⟨0, 0, 0⟩ 1200000000) =
      some ((⟨0, none, 0, 1000000000⟩, true), [⟨0, 0, 0⟩]) := by
    refine Machine.ghost_step.2 ⟨congrArg some ?_, hstop.symm⟩
    simp [cmdVelCallback, hstop, transformVelocity]
  rw [Machine.along_cons_of_step hplan, Machine.along_cons_of_step hpublished, Machine.along_cons]
  exact ⟨nofun, nofun, fun _ _ _ => rfl, fun _ _ _ => trivial⟩

/-- A command kept while the planner is active, a stop, and the next pair sends the robot off again. -/
theorem stop_is_overridden : ¬ (recorded realTrig).Along (Halted realTrig) (FakeVelTransform.init 0 0, false)
    [.localPlan 1000000000, .cmdVel ⟨1, 0, 0⟩ 1100000000, .cmdVel ⟨0, 0, 0⟩ 1200000000, .sync 0] := by
  intro h
  have hfirst : isZeroVel (⟨1, 0, 0⟩ : Twist ℝ) = false := by norm_num [isZeroVel, epsilon]
  have hstop : isZeroVel (⟨0, 0, 0⟩ : Twist ℝ) = true := isZeroVel_zero
  have hkept : cmdVelCallback realTrig ⟨0, none, 0, 1000000000⟩ ⟨1, 0, 0⟩ 1100000000 =
      (⟨0, some ⟨1, 0, 0⟩, 0, 1000000000⟩, []) := by
    simp [cmdVelCallback, hfirst, timedOut]
  have hpublished : cmdVelCallback realTrig ⟨0, some ⟨1, 0, 0⟩, 0, 1000000000⟩ ⟨0, 0, 0⟩ 1200000000 =
      (⟨0, some ⟨1, 0, 0⟩, 0, 1000000000⟩, [⟨0, 0, 0⟩]) := by
    simp [cmdVelCallback, hstop, transformVelocity]
  have h1 := h.2 (⟨0, none, 0, 1000000000⟩, false) [] rfl
  have h2 := h1.2 (⟨0, some ⟨1, 0, 0⟩, 0, 1000000000⟩, false) []
    (Machine.ghost_step.2 ⟨congrArg some hkept, hfirst.symm⟩)
  have h3 := h2.2 (⟨0, some ⟨1, 0, 0⟩, 0, 1000000000⟩, true) [⟨0, 0, 0⟩]
    (Machine.ghost_step.2 ⟨congrArg some hpublished, hstop.symm⟩)
  obtain ⟨hx, -, -⟩ := h3.1 rfl (fun _ _ hi => by cases hi) _ _ rfl _ List.mem_cons_self
  simp [transformVelocity, realTrig] at hx

end FakeVel
end LfSentry
