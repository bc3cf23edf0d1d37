import Mathlib.Analysis.SpecialFunctions.Trigonometric.Arctan
import Mathlib.Analysis.SpecialFunctions.Complex.Arg
import LfSentry.Runs
import LfSentry.Aimer
/-!
# DualArbiter — the front and back cameras and the one gimbal (`sentry_dual_sn_ros.cpp`)

The front worker stores its lock and its command, the back worker its target, the controller reads them together and
sends.  The tracker locks and the aimer aims separately: a locked front target need not have an aimed command.  What the
controller sends and repeats later (the last front angles, the back target while it waits) is aimed at in every run in
which it does not read a lock without an aim (`arbiter_steers_iff`).
-/
namespace LfSentry
namespace Vision
namespace Dual

variable {K : Type}

structure Shared (K : Type) where
  frontLocked : Bool
  frontCmd : Command K
  backHasTarget : Bool
  backCmd : Command K

/-- The locals of the controller; times are nanoseconds. -/
structure Controller (K : Type) where
  waitingFrontLock : Bool
  waitUntil : Int
  cooldownUntil : Int
  lastYaw : K
  lastPitch : K
  lastFrontDetected : Bool
  backTargetYaw : K
  backTargetPitch : K

/-- A call of `gimbal->send`; velocities and accelerations are 0 in each. -/
structure Send (K : Type) where
  control : Bool
  fire : Bool
  yaw : K
  pitch : K

structure System (K : Type) where
  shared : Shared K
  controller : Controller K
  aimer : Aimer K

section Zero

variable [OfNat K 0]

def System.init (aimer : Aimer K) (now₁ now₂ : Int) : System K :=
  ⟨⟨false, Command.none K, false, Command.none K⟩, ⟨false, now₁, now₂, 0, 0, false, 0, 0⟩, aimer⟩

/-- The back worker's update: `none` where it detects no armor, else what the decider answers. -/
def backWorker (s : System K) (decided : Option (Command K)) : System K :=
  let cmd := decided.getD (Command.none K)
  let hasTarget := cmd.control
  { s with shared := { s.shared with backHasTarget := hasTarget, backCmd := cmd } }

end Zero

def controllerLoop (s : System K) (now : Int) : System K × List (Send K) :=
  let cur := s.shared
  let c := s.controller
  if cur.frontLocked then
    ({ s with
        controller := { c with
          waitingFrontLock := false
          cooldownUntil := now + 2000000000
          lastYaw := cur.frontCmd.yaw
          lastPitch := cur.frontCmd.pitch
          lastFrontDetected := true } },
      [⟨true, cur.frontCmd.shoot, cur.frontCmd.yaw, cur.frontCmd.pitch⟩])
  else if c.waitingFrontLock = true ∧ now < c.waitUntil then
    (s, [⟨true, false, c.backTargetYaw, c.backTargetPitch⟩])
  else if now > c.cooldownUntil ∧ cur.backHasTarget = true then
    ({ s with
        controller := { c with
          backTargetYaw := cur.backCmd.yaw
          backTargetPitch := cur.backCmd.pitch
          waitingFrontLock := true
          waitUntil := now + 800000000
          cooldownUntil := now + 2000000000
          lastFrontDetected := false } },
      [⟨true, false, cur.backCmd.yaw, cur.backCmd.pitch⟩])
  else if c.lastFrontDetected = true then
    ({ s with controller := { c with lastFrontDetected := false } }, [⟨true, false, c.lastYaw, c.lastPitch⟩])
  else (s, [])

variable [Field K] [LinearOrder K] [FloorRing K] (lib : Libm K)

/-- What the front worker reads of a frame: the target of a tracker that is not lost, and the answer of the shooter. -/
structure Frame (K : Type) where
  tracked : Option (Target K)
  timestamp : Int
  bulletSpeed : K
  now : Int
  shoot : Bool

def Frame.aim (aimer : Aimer K) (f : Frame K) : Aimer K × Command K :=
  aimer.aim lib f.tracked.toList f.timestamp f.bulletSpeed true f.now

def frontWorker (s : System K) (f : Frame K) : System K :=
  let cmd := Command.none K
  let locked := f.tracked.isSome
  if locked then
    let r := f.aim lib s.aimer
    let cmd := { r.2 with shoot := f.shoot }
    { s with aimer := r.1, shared := { s.shared with frontLocked := locked, frontCmd := cmd } }
  else { s with shared := { s.shared with frontLocked := locked, frontCmd := cmd } }

inductive Label (K : Type)
  | front (f : Frame K)
  | back (decided : Option (Command K))
  | control (now : Int)

/-- The three threads, one step at a time; the system says what is sent. -/
def arbiter : Machine (System K) (Label K) (Send K) where
  step s
    | .front f => some (frontWorker lib s f, [])
    | .back decided => some (backWorker s decided, [])
    | .control now => some (controllerLoop s now)

def stored (cs : List (Command K)) (_ : System K) : Label K → System K × List (Send K) → List (Command K)
  | .front _, r => r.1.shared.frontCmd :: cs
  | .back _, r => r.1.shared.backCmd :: cs
  | .control _, _ => cs

def recorded : Machine (System K × List (Command K)) (Label K) (Send K) := (arbiter lib).ghost stored

/-! ## Steering -/

/-- What the step sends with control has angles of an aimed front or back command. -/
def Steered (p : System K × List (Command K)) (i : Label K) : Prop :=
  ∀ q es, (recorded lib).step p i = some (q, es) → ∀ e ∈ es, e.control = true → AimedAt p.2 e.yaw e.pitch

/-- The controller does not read a lock without an aim, unless `(0, 0)` was aimed at. -/
def ReadsAimed (p : System K × List (Command K)) (i : Label K) : Prop :=
  ∀ now, i = .control now → p.1.shared.frontLocked = true → p.1.shared.frontCmd.control = false → AimedAt p.2 0 0

/-- What is kept to be sent is aimed at. -/
structure Held (p : System K × List (Command K)) : Prop where
  front : p.1.shared.frontLocked = true → p.1.shared.frontCmd ∈ p.2
  unaimed : p.1.shared.frontCmd.control = false → p.1.shared.frontCmd.yaw = 0 ∧ p.1.shared.frontCmd.pitch = 0
  back : p.1.shared.backHasTarget = true → p.1.shared.backCmd.control = true ∧ p.1.shared.backCmd ∈ p.2
  waiting : p.1.controller.waitingFrontLock = true →
    AimedAt p.2 p.1.controller.backTargetYaw p.1.controller.backTargetPitch
  last : p.1.controller.lastFrontDetected = true → AimedAt p.2 p.1.controller.lastYaw p.1.controller.lastPitch

omit [LinearOrder K] [FloorRing K] in
theorem held_init (aimer : Aimer K) (now₁ now₂ : Int) : Held (System.init aimer now₁ now₂, []) where
  front h := by cases h
  unaimed _ := ⟨rfl, rfl⟩
  back h := by cases h
  waiting h := by cases h
  last h := by cases h

variable {lib}

theorem recorded_step {p q : System K × List (Command K)} {i : Label K} {es : List (Send K)} :
    (recorded lib).step p i = some (q, es) ↔
      (arbiter lib).step p.1 i = some (q.1, es) ∧ q.2 = stored p.2 p.1 i (q.1, es) := Machine.ghost_step

theorem frontWorker_unaimed (s : System K) (f : Frame K) (h : (frontWorker lib s f).shared.frontCmd.control = false) :
    (frontWorker lib s f).shared.frontCmd.yaw = 0 ∧ (frontWorker lib s f).shared.frontCmd.pitch = 0 := by
  unfold frontWorker at h ⊢
  by_cases hlocked : f.tracked.isSome = true
  · simp only [hlocked, if_true] at h ⊢
    rcases aim_cases lib s.aimer f.tracked.toList f.timestamp f.bulletSpeed true f.now with haim | haim
    · rw [Frame.aim, haim] at h
      cases h
    · rw [Frame.aim, haim]
      exact ⟨rfl, rfl⟩
  · simp only [hlocked]
    exact ⟨rfl, rfl⟩

theorem frontWorker_controller (s : System K) (f : Frame K) : (frontWorker lib s f).controller = s.controller := by
  unfold frontWorker
  dsimp only
  split <;> rfl

theorem frontWorker_back (s : System K) (f : Frame K) :
    (frontWorker lib s f).shared.backHasTarget = s.shared.backHasTarget ∧
      (frontWorker lib s f).shared.backCmd = s.shared.backCmd := by
  unfold frontWorker
  dsimp only
  split <;> exact ⟨rfl, rfl⟩

omit [Field K] [LinearOrder K] [FloorRing K] in
theorem controllerLoop_shared (s : System K) (now : Int) : (controllerLoop s now).1.shared = s.shared := by
  unfold controllerLoop
  dsimp only
  split
  · rfl
  · split
    · rfl
    · split
      · rfl
      · split <;> rfl

/-- **The workers keep what is held.** -/
theorem held_front {p : System K × List (Command K)} (h : Held p) (f : Frame K) :
    Held (frontWorker lib p.1 f, (frontWorker lib p.1 f).shared.frontCmd :: p.2) := by
  refine ⟨fun _ => List.mem_cons_self, frontWorker_unaimed p.1 f, ?_, ?_, ?_⟩
  · rw [(frontWorker_back p.1 f).1, (frontWorker_back p.1 f).2]
    exact fun ht => ⟨(h.back ht).1, List.mem_cons_of_mem _ (h.back ht).2⟩
  · rw [frontWorker_controller]
    exact fun hw => (h.waiting hw).cons _
  · rw [frontWorker_controller]
    exact fun hl => (h.last hl).cons _

omit [LinearOrder K] [FloorRing K] in
theorem held_back {p : System K × List (Command K)} (h : Held p) (decided : Option (Command K)) :
    Held (backWorker p.1 decided, (backWorker p.1 decided).shared.backCmd :: p.2) where
  front hf := List.mem_cons_of_mem _ (h.front hf)
  unaimed := h.unaimed
  back ht := ⟨ht, List.mem_cons_self⟩
  waiting hw := (h.waiting hw).cons _
  last hl := (h.last hl).cons _

omit [LinearOrder K] [FloorRing K] in
/-- **What the controller sends is aimed at, if what it reads of a locked front is; and then it keeps what is held.** -/
theorem held_controller {p : System K × List (Command K)} (h : Held p) (now : Int)
    (hread : p.1.shared.frontLocked = true → AimedAt p.2 p.1.shared.frontCmd.yaw p.1.shared.frontCmd.pitch) :
    (∀ e ∈ (controllerLoop p.1 now).2, AimedAt p.2 e.yaw e.pitch) ∧ Held ((controllerLoop p.1 now).1, p.2) := by
  unfold controllerLoop
  dsimp only
  by_cases hlocked : p.1.shared.frontLocked = true
  · have haimed := hread hlocked
    rw [if_pos hlocked]
    exact ⟨List.forall_mem_singleton.2 haimed, h.front, h.unaimed, h.back, fun hw => (by cases hw), fun _ => haimed⟩
  rw [if_neg hlocked]
  by_cases hwait : p.1.controller.waitingFrontLock = true ∧ now < p.1.controller.waitUntil
  · rw [if_pos hwait]
    exact ⟨List.forall_mem_singleton.2 (h.waiting hwait.1), h⟩
  rw [if_neg hwait]
  by_cases hback : now > p.1.controller.cooldownUntil ∧ p.1.shared.backHasTarget = true
  · obtain ⟨hctl, hmem⟩ := h.back hback.2
    have haimed : AimedAt p.2 p.1.shared.backCmd.yaw p.1.shared.backCmd.pitch := ⟨_, hmem, hctl, rfl, rfl⟩
    rw [if_pos hback]
    exact ⟨List.forall_mem_singleton.2 haimed, h.front, h.unaimed, h.back, fun _ => haimed, fun hl => (by cases hl)⟩
  rw [if_neg hback]
  by_cases hlast : p.1.controller.lastFrontDetected = true
  · rw [if_pos hlast]
    exact ⟨List.forall_mem_singleton.2 (h.last hlast), h.front, h.unaimed, h.back, h.waiting, fun hl => (by cases hl)⟩
  · rw [if_neg hlast]
    exact ⟨List.forall_mem_nil _, h⟩

omit [LinearOrder K] [FloorRing K] in
theorem readsAimed_control {p : System K × List (Command K)} (h : Held p) (now : Int) :
    ReadsAimed p (.control now) ↔
      (p.1.shared.frontLocked = true → AimedAt p.2 p.1.shared.frontCmd.yaw p.1.shared.frontCmd.pitch) := by
  constructor
  · intro hr hlocked
    by_cases hctl : p.1.shared.frontCmd.control = true
    · exact ⟨_, h.front hlocked, hctl, rfl, rfl⟩
    · have hctl : p.1.shared.frontCmd.control = false := by simpa using hctl
      rw [(h.unaimed hctl).1, (h.unaimed hctl).2]
      exact hr now rfl hlocked hctl
  · intro hr now' _ hlocked hctl
    have haimed := hr hlocked
    rwa [(h.unaimed hctl).1, (h.unaimed hctl).2] at haimed

theorem steered_iff_of_held {p : System K × List (Command K)} (h : Held p) (i : Label K) :
    Steered lib p i ↔ ReadsAimed p i := by
  have hsilent : ∀ s, (arbiter lib).step p.1 i = some (s, []) → Steered lib p i := by
    intro s hs q es hst e he
    rw [(recorded_step.1 hst).1, Option.some.injEq, Prod.mk.injEq] at hs
    rw [hs.2] at he
    cases he
  cases i with
  | front f => exact iff_of_true (hsilent _ rfl) nofun
  | back decided => exact iff_of_true (hsilent _ rfl) nofun
  | control now =>
    rw [readsAimed_control h]
    constructor
    · intro hs hlocked
      have hsend := hs ((controllerLoop p.1 now).1, p.2) (controllerLoop p.1 now).2 (recorded_step.2 ⟨rfl, rfl⟩)
      unfold controllerLoop at hsend
      simp only [if_pos hlocked] at hsend
      exact hsend _ (List.mem_singleton_self _) rfl
    · intro hread q es hst e he _
      have hes := (recorded_step.1 hst).1
      simp only [arbiter, Option.some.injEq] at hes
      have hsent := (held_controller h now hread).1
      rw [hes] at hsent
      exact hsent e he

theorem held_step (p : System K × List (Command K)) (i : Label K) (q : System K × List (Command K))
    (es : List (Send K)) (h : Held p) (hs : Steered lib p i) (hst : (recorded lib).step p i = some (q, es)) : Held q := by
  obtain ⟨hstep, hrec⟩ := recorded_step.1 hst
  obtain ⟨t, cs⟩ := q
  simp only at hstep hrec
  cases i with
  | front f =>
    simp only [arbiter, Option.some.injEq, Prod.mk.injEq] at hstep
    rw [hrec, ← hstep.1]
    exact held_front h f
  | back decided =>
    simp only [arbiter, Option.some.injEq, Prod.mk.injEq] at hstep
    rw [hrec, ← hstep.1]
    exact held_back h decided
  | control now =>
    simp only [arbiter, Option.some.injEq] at hstep
    have hheld := (held_controller h now ((readsAimed_control h now).1 ((steered_iff_of_held h _).1 hs))).2
    rw [hstep] at hheld
    rw [hrec]
    exact hheld

/-- **In every interleaving, what is sent with control is aimed at iff the controller reads no lock without an aim.** -/
theorem arbiter_steers_iff (aimer : Aimer K) (now₁ now₂ : Int) (is : List (Label K)) :
    (recorded lib).Along (Steered lib) (System.init aimer now₁ now₂, []) is ↔
      (recorded lib).Along ReadsAimed (System.init aimer now₁ now₂, []) is :=
  Machine.along_iff (fun _ i h => steered_iff_of_held h i) held_step (held_init aimer now₁ now₂)

/-- A run in which every aim at a locked target succeeds sends aimed angles only. -/
theorem steered_of_aims (aimer : Aimer K) (now₁ now₂ : Int) {is : List (Label K)}
    (h : (recorded lib).Along (fun p i => ∀ f, i = .front f → f.tracked.isSome = true →
      (f.aim lib p.1.aimer).2.control = true) (System.init aimer now₁ now₂, []) is) :
    (recorded lib).Along (Steered lib) (System.init aimer now₁ now₂, []) is := by
  let I : System K × List (Command K) → Prop := fun p =>
    Held p ∧ (p.1.shared.frontLocked = true → p.1.shared.frontCmd.control = true)
  have hsteered : ∀ p i, I p → Steered lib p i := by
    intro p i hI
    refine (steered_iff_of_held hI.1 i).2 fun now _ hlocked hctl => ?_
    rw [hI.2 hlocked] at hctl
    cases hctl
  refine Machine.Along.imp_of_inv (I := I) (fun p i hI _ => hsteered p i hI) (fun p i q es hI haims hst => ?_)
    ⟨held_init aimer now₁ now₂, fun hlocked => by cases hlocked⟩ h
  refine ⟨held_step p i q es hI.1 (hsteered p i hI) hst, ?_⟩
  have hstep := (recorded_step.1 hst).1
  cases i with
  | front f =>
    simp only [arbiter, Option.some.injEq, Prod.mk.injEq] at hstep
    rw [← hstep.1, frontWorker]
    by_cases hlocked : f.tracked.isSome = true
    · simp only [hlocked, if_true]
      exact fun _ => haims f rfl hlocked
    · simp only [hlocked]
      exact fun hl => by cases hl
  | back decided =>
    simp only [arbiter, Option.some.injEq, Prod.mk.injEq] at hstep
    rw [← hstep.1]
    exact hI.2
  | control now =>
    simp only [arbiter, Option.some.injEq] at hstep
    rw [← congrArg Prod.fst hstep, controllerLoop_shared]
    exact hI.2

/-! ## A lock without an aim -/

/-- A target at rest, its armor 0 straight ahead at `d`. -/
def restingTarget (d r : K) : Target K where
  name := .three
  jumped := false
  armorNum := 4
  updateCount := 1
  isConverged := false
  x := ![d + r, 0, 0, 0, 0, 0, 0, 0, r, 0, 0]
  t := 0

theorem predict_restingTarget (hlimit : limitRad lib 0 = 0) (d r : K) (t : Int) :
    (restingTarget d r).predict lib t = { restingTarget d r with t := t } := by
  have hconv : (restingTarget d r).convergened = restingTarget d r := by
    simp [Target.convergened, restingTarget]
  unfold Target.predict Target.predictBy
  rw [hconv]
  simp [restingTarget, hlimit]

theorem armor_restingTarget (hlimit : limitRad lib 0 = 0) (hcos : lib.cos 0 = 1) (hsin : lib.sin 0 = 0) (d r : K)
    (t : Int) : armorAt (({ restingTarget d r with t := t } : Target K).armorXyzaList lib) 0 = ⟨d, 0, 0, 0⟩ := by
  rw [armorAt_armorXyzaList _ _ (by simp [restingTarget])]
  simp [Target.armorXyza, restingTarget, hlimit, hcos, hsin]

/-- The functions themselves. -/
noncomputable def realLibm : Libm ℝ where
  pi := Real.pi
  sqrt := Real.sqrt
  atan := Real.arctan
  cos := Real.cos
  sin := Real.sin
  atan2 y x := Complex.arg ⟨x, y⟩

/-- A bullet of 17 metres a second does not reach a target at 30 metres. -/
theorem aim_unreachable (a : Aimer ℝ) (timestamp now : Int) (r : ℝ) :
    (a.aim realLibm [restingTarget 30 r] timestamp 17 true now).2 = Command.none ℝ := by
  have hlimit : limitRad realLibm 0 = 0 :=
    limitRad_of_mem Real.pi_pos (neg_lt_zero.2 Real.pi_pos) Real.pi_pos.le
  have hsqrt : Real.sqrt (30 * 30 + 0 * 0) = 30 := by
    rw [mul_zero, add_zero, Real.sqrt_mul_self (by norm_num)]
  unfold Aimer.aim
  dsimp only
  refine aimAt_unsolvable realLibm _ ?_
  rw [predict_restingTarget hlimit, chooseAimPoint_of_not_jumped _ _ rfl,
    armor_restingTarget hlimit Real.cos_zero Real.sin_zero]
  simp only [trajectoryTo, trajectory, realLibm, hsqrt]
  norm_num

/-- **A target the tracker holds and the aimer cannot reach: the gimbal is sent to `(0, 0)`.** -/
theorem locked_without_aim :
    ¬ (recorded realLibm).Along (Steered realLibm)
      (System.init (Aimer.ofConfig (-8 / 10) (-1) 60 20 (26 / 1000) (10 / 1000) 10) 0 0, [])
      [.front ⟨some (restingTarget 30 (2 / 10)), 0, 17, 0, false⟩, .control 0] := by
  intro h
  let aimer : Aimer ℝ := Aimer.ofConfig (-8 / 10) (-1) 60 20 (26 / 1000) (10 / 1000) 10
  let s := frontWorker realLibm (System.init aimer 0 0) ⟨some (restingTarget 30 (2 / 10)), 0, 17, 0, false⟩
  have hfront : (recorded realLibm).step (System.init aimer 0 0, []) (.front ⟨some (restingTarget 30 (2 / 10)), 0, 17, 0, false⟩) =
      some ((s, [s.shared.frontCmd]), []) := recorded_step.2 ⟨rfl, rfl⟩
  have hcontrol : (recorded realLibm).step (s, [s.shared.frontCmd]) (.control 0) =
      some (((controllerLoop s 0).1, [s.shared.frontCmd]),
        [⟨true, s.shared.frontCmd.shoot, s.shared.frontCmd.yaw, s.shared.frontCmd.pitch⟩]) := recorded_step.2 ⟨rfl, rfl⟩
  obtain ⟨c, hc, hctl, -⟩ := (h.2 _ _ hfront).1 _ _ hcontrol _ (List.mem_singleton_self _) rfl
  have hcmd : s.shared.frontCmd.control = false := congrArg Command.control (aim_unreachable aimer 0 0 (2 / 10))
  rw [List.mem_singleton.1 hc, hcmd] at hctl
  cases hctl

end Dual
end Vision
end LfSentry
