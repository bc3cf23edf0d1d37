import LfSentry.Decider
import LfSentry.RestingTarget
import LfSentry.Shooter
/-!
# SentryMultithread — the loop with the omnidirectional cameras (`src/sentry_multithread.cpp`)

Each iteration tracks, turns to what another camera sees or aims at the target, asks the shooter, and sends.  The turn
clears `shoot` and the shooter sets it again: what it looks at is the target that is turned away from, and the aim point of
an iteration before (`fires_when_aimed_iff`).
-/
namespace LfSentry
namespace Vision
namespace SentryMultithread

/-! ## The loop -/

structure Loop (K : Type) where
  tracker : Tracker K
  aimer : Aimer K
  shooter : Shooter K

/-- What an iteration is given: the armors in the image and when it was taken, what the other cameras have detected and the
order in which it is sorted, the yaw of the gimbal, the speed of the bullets and the time. -/
structure Iteration {K : Type} (d : Decider K) where
  armors : List (Armor K)
  solve : Armor K → Pose K
  timestamp : Int
  detections : List (DetectionResult K)
  detectionQueue : List (DetectionResult K)
  sorts : d.Sorts detections detectionQueue
  gimbalYaw : K
  bulletSpeed : K
  now : Int

/-- The image as the tracker is given it. -/
def Iteration.frame {K : Type} {d : Decider K} (i : Iteration d) : TrackFrame K :=
  ⟨d.setPriority (d.armorFilter i.armors), i.solve, i.timestamp⟩

variable {K : Type} [Field K] [LinearOrder K] [FloorRing K] (num : Numerics K) {d : Decider K}

def Loop.track (s : Loop K) (i : Iteration d) : Tracker K × DetectionResult K × List (TrackedTarget K) :=
  s.tracker.track num i.detectionQueue i.frame

def Loop.targets (s : Loop K) (i : Iteration d) : List (Target K) := (s.track num i).2.2.map TrackedTarget.toTarget

def Loop.aim (s : Loop K) (i : Iteration d) : Aimer K × Command K :=
  s.aimer.aim num.toLibm (s.targets num i) i.timestamp i.bulletSpeed true i.now

/-- The aimer and the command before the shooter is asked. -/
def Loop.command (s : Loop K) (i : Iteration d) : Aimer K × Command K :=
  let tracked := s.track num i
  if tracked.1.state = .switching then
    let switchTarget := tracked.2.1
    let yaw := limitRad num.toLibm (switchTarget.deltaYaw + i.gimbalYaw)
    (s.aimer, ⟨!switchTarget.armors.isEmpty, false, yaw, limitRad num.toLibm switchTarget.deltaPitch, 0⟩)
  else if tracked.1.state = .lost then
    let command := decideQueue i.detectionQueue
    (s.aimer, { command with yaw := limitRad num.toLibm (command.yaw + i.gimbalYaw) })
  else s.aim num i

def Loop.iterate (s : Loop K) (i : Iteration d) : Loop K × Command K :=
  let c := s.command num i
  let shot := s.shooter.shoot num.toLibm c.2 c.1 (s.targets num i) i.gimbalYaw
  (⟨(s.track num i).1, c.1, shot.1⟩, { c.2 with shoot := shot.2 })

variable (d) in
def loop : Machine (Loop K) (Iteration d) (Command K) where
  step s i :=
    let r := s.iterate num i
    some (r.1, [r.2])

theorem loop_step {s q : Loop K} {i : Iteration d} {es : List (Command K)} :
    (loop num d).step s i = some (q, es) ↔ (s.iterate num i).1 = q ∧ [(s.iterate num i).2] = es := by
  simp only [loop, Option.some.injEq, Prod.mk.injEq]

/-! ## Firing -/

/-- A command that fires has the angles of an aim: the tracker is neither in `switching` nor in `lost`. -/
def FiresAimed (s : Loop K) (i : Iteration d) : Prop :=
  ∀ q es, (loop num d).step s i = some (q, es) → ∀ cmd ∈ es, cmd.shoot = true →
    q.tracker.state ≠ .switching ∧ q.tracker.state ≠ .lost ∧
      cmd.yaw = (s.aim num i).2.yaw ∧ cmd.pitch = (s.aim num i).2.pitch

/-- Where the tracker turns to a direction that another camera sees, the shooter is off, the last aim had no point, or the
gimbal is too far from that direction for it. -/
def TurnsWithoutFire (s : Loop K) (i : Iteration d) : Prop :=
  s.tracker.Switches num i.detectionQueue i.frame → ∀ dr ∈ i.detectionQueue.head?,
    ¬ (s.shooter.autoFire = true ∧ s.aimer.debugAimPoint.valid = true ∧
      s.shooter.canShoot num.toLibm (limitRad num.toLibm (dr.deltaYaw + i.gimbalYaw)) s.aimer s.tracker.target.toTarget
        i.gimbalYaw = true)

variable {num}

theorem targets_of_lost {s : Loop K} {i : Iteration d} (h : (s.track num i).1.state = .lost) : s.targets num i = [] := by
  unfold Loop.targets
  unfold Loop.track at h ⊢
  rw [track_targets, if_pos h]
  rfl

theorem targets_of_ne_lost {s : Loop K} {i : Iteration d} (h : (s.track num i).1.state ≠ .lost) :
    s.targets num i = [(s.track num i).1.target.toTarget] := by
  unfold Loop.targets
  unfold Loop.track at h ⊢
  rw [track_targets, if_neg h]
  rfl

theorem command_of_switching {s : Loop K} {i : Iteration d} (h : (s.track num i).1.state = .switching) :
    s.command num i = (s.aimer, ⟨!(s.track num i).2.1.armors.isEmpty, false,
      limitRad num.toLibm ((s.track num i).2.1.deltaYaw + i.gimbalYaw),
      limitRad num.toLibm (s.track num i).2.1.deltaPitch, 0⟩) := by
  unfold Loop.command
  dsimp only
  rw [if_pos h]

theorem command_of_aimed {s : Loop K} {i : Iteration d} (h : (s.track num i).1.state ≠ .switching)
    (hlost : (s.track num i).1.state ≠ .lost) : s.command num i = s.aim num i := by
  unfold Loop.command
  dsimp only
  rw [if_neg h, if_neg hlost]

/-- **In `switching` the shooter fires where the tracker has just turned and it would fire at the old target.** -/
theorem shoot_of_switching {s : Loop K} {i : Iteration d} (h : (s.track num i).1.state = .switching) :
    (s.iterate num i).2.shoot = true ↔ s.tracker.Switches num i.detectionQueue i.frame ∧ ∃ dr ∈ i.detectionQueue.head?,
      s.shooter.autoFire = true ∧ s.aimer.debugAimPoint.valid = true ∧
        s.shooter.canShoot num.toLibm (limitRad num.toLibm (dr.deltaYaw + i.gimbalYaw)) s.aimer
          s.tracker.target.toTarget i.gimbalYaw = true := by
  have htargets : s.targets num i = [(s.track num i).1.target.toTarget] :=
    targets_of_ne_lost (by rw [h]; decide)
  have hshoot : (s.iterate num i).2.shoot = true ↔ s.shooter.autoFire = true ∧ (s.track num i).2.1.armors ≠ [] ∧
      s.aimer.debugAimPoint.valid = true ∧
        s.shooter.canShoot num.toLibm (limitRad num.toLibm ((s.track num i).2.1.deltaYaw + i.gimbalYaw)) s.aimer
          (s.track num i).1.target.toTarget i.gimbalYaw = true := by
    unfold Loop.iterate
    dsimp only
    rw [command_of_switching h, htargets, shooter_fires_iff]
    simp
  rw [hshoot]
  constructor
  · rintro ⟨hauto, harmors, hvalid, hcan⟩
    have hsw : s.tracker.Switches num i.detectionQueue i.frame := (switches_iff num).2 ⟨h, harmors⟩
    obtain ⟨-, hx, dr, hdr, -, heq⟩ := track_of_switches num hsw
    refine ⟨hsw, dr, hdr, hauto, hvalid, ?_⟩
    rw [← canShoot_congr _ _ _ _ hx]
    unfold Loop.track at hcan
    rw [heq] at hcan
    exact hcan
  · rintro ⟨hsw, dr, hdr, hauto, hvalid, hcan⟩
    obtain ⟨-, hx, dr', hdr', -, heq⟩ := track_of_switches num hsw
    obtain rfl := Option.mem_unique hdr hdr'
    refine ⟨hauto, ((switches_iff num).1 hsw).2, hvalid, ?_⟩
    rw [← canShoot_congr _ _ _ _ hx] at hcan
    unfold Loop.track
    rw [heq]
    exact hcan

/-- **An iteration fires at what it aims at exactly where it does not fire on a turn.** -/
theorem firesAimed_iff {s : Loop K} {i : Iteration d} : FiresAimed num s i ↔ TurnsWithoutFire num s i := by
  constructor
  · intro h hsw dr hdr hfires
    have hstate : (s.track num i).1.state = .switching := (track_of_switches num hsw).1
    have hshoot := (shoot_of_switching hstate).2 ⟨hsw, dr, hdr, hfires⟩
    exact (h _ _ ((loop_step num).2 ⟨rfl, rfl⟩) _ (List.mem_singleton.2 rfl) hshoot).1 hstate
  · rintro h q es hstep cmd hcmd hshoot
    obtain ⟨rfl, rfl⟩ := (loop_step num).1 hstep
    rw [List.mem_singleton.1 hcmd] at hshoot ⊢
    have hswitching : (s.track num i).1.state ≠ .switching := by
      intro hstate
      obtain ⟨hsw, dr, hdr, hfires⟩ := (shoot_of_switching hstate).1 hshoot
      exact h hsw dr hdr hfires
    have hlost : (s.track num i).1.state ≠ .lost := by
      intro hstate
      obtain ⟨-, -, -, target, htarget, -⟩ := shooter_fires_iff.1 hshoot
      rw [targets_of_lost hstate] at htarget
      cases htarget
    refine ⟨hswitching, hlost, ?_⟩
    unfold Loop.iterate
    dsimp only
    rw [command_of_aimed hswitching hlost]
    exact ⟨rfl, rfl⟩

variable (num)

/-- **What is fired is aimed in exactly the runs that turn without fire.** -/
theorem fires_when_aimed_iff (d : Decider K) (config : TrackerConfig) (target : TrackedTarget K) (now : Int)
    (aimer : Aimer K) (shooter : Shooter K) (iterations : List (Iteration d)) :
    (loop num d).Along (FiresAimed num) ⟨Tracker.init config target now, aimer, shooter⟩ iterations ↔
      (loop num d).Along (TurnsWithoutFire num) ⟨Tracker.init config target now, aimer, shooter⟩ iterations :=
  Machine.along_iff (I := fun _ => True) (fun _ _ _ => firesAimed_iff) (fun _ _ _ _ _ _ _ => trivial) trivial

/-! ## A turn with fire -/

/-- The decider of a configuration that puts the 2 first. -/
noncomputable def sentryDecider : Decider ℝ := ⟨85.0, 70.0, 2, .blue⟩

noncomputable def wideShooter : Shooter ℝ := Shooter.ofConfig 100.0 100.0 2.0 true 90.0 60.0 6.0 true

noncomputable def sentryAimer : Aimer ℝ := Aimer.ofConfig 1.5 (-0.5) 60.0 20.0 0.05 0.015 7.0

/-- The balance robot in the image, at one metre. -/
noncomputable def seenIteration (t : Int) : Iteration sentryDecider :=
  ⟨[balanceArmor], fun _ => aheadPose 1, t, [], [], ⟨.nil, fun _ => .nil⟩, 0, 0, t⟩

/-- What the left camera sees: a 2 in the middle of its image. -/
noncomputable def leftSeen (t : Int) : DetectionResult ℝ :=
  ⟨[{ balanceArmor with name := .two, type := .small }], t, 62.0 / 57.3, 0⟩

noncomputable def leftIteration (t : Int) : Iteration sentryDecider :=
  ⟨[], fun _ => aheadPose 1, t, [leftSeen t], [sentryDecider.sorted (leftSeen t)],
    ⟨.refl _, fun _ => List.pairwise_singleton _ _⟩, 0, 0, t⟩

theorem along_next {P : Loop K → Iteration d → Prop} {s : Loop K} {i : Iteration d} {is : List (Iteration d)}
    (h : (loop num d).Along P s (i :: is)) : ∃ q : Loop K, q = (s.iterate num i).1 ∧ (loop num d).Along P q is :=
  ⟨_, rfl, h.2 _ _ ((loop_step num).2 ⟨rfl, rfl⟩)⟩

/-- An iteration changes of the shooter the command it remembers. -/
theorem iterate_shooter (s : Loop K) (i : Iteration d) :
    (s.iterate num i).1.shooter = { s.shooter with lastCommand := (s.command num i).2 } := by
  unfold Loop.iterate Shooter.shoot Shooter.shootIn
  dsimp only
  repeat' split
  all_goals rfl

theorem seenIteration_track (s : Loop ℝ) (t : Int) :
    (s.iterate realNumerics (seenIteration t)).1.tracker = (s.tracker.track realNumerics [] (seenFrame 1 t)).1 := rfl

/-- **An aim at the robot at one metre has a point.** -/
theorem aim_atRest {target : TrackedTarget ℝ} (h : AtRest 1 target) (a : Aimer ℝ) (t : Int) {bulletSpeed : ℝ}
    (hslow : bulletSpeed < 14) (now : Int) :
    (a.aim realNumerics.toLibm [target.toTarget] t bulletSpeed true now).1.debugAimPoint.valid = true := by
  obtain ⟨traj, htraj⟩ := trajectory_ahead (d := 1) (by norm_num) 23 (by norm_num)
  unfold Aimer.aim
  dsimp only
  rw [if_pos hslow]
  exact congrArg AimPoint.valid (atRest_aimAt (atRest_predict h _).1 a htraj)

theorem seenIteration_valid {s : Loop ℝ} {t : Int} {pre : TrackState} {dc tc uc : Int}
    (h : Stage 1 (s.iterate realNumerics (seenIteration t)).1.tracker .tracking pre dc tc uc t) :
    (s.iterate realNumerics (seenIteration t)).1.aimer.debugAimPoint.valid = true := by
  have hstate : (s.track realNumerics (seenIteration t)).1.state = .tracking := h.state
  have hlost : (s.track realNumerics (seenIteration t)).1.state ≠ .lost := by
    rw [hstate]
    decide
  have hcommand : s.command realNumerics (seenIteration t) = s.aim realNumerics (seenIteration t) :=
    command_of_aimed (by rw [hstate]; decide) hlost
  have hrest : AtRest 1 (s.track realNumerics (seenIteration t)).1.target := h.rest
  have haimer : (s.iterate realNumerics (seenIteration t)).1.aimer = (s.command realNumerics (seenIteration t)).1 := rfl
  have hslow : (seenIteration t).bulletSpeed < 14 := by
    show (0 : ℝ) < 14
    norm_num
  rw [haimer, hcommand, Loop.aim, targets_of_ne_lost hlost]
  exact aim_atRest hrest s.aimer _ hslow _

/-- The robot is near, and the gimbal is within the tolerance of the other camera's direction. -/
theorem canShoot_leftSeen {target : TrackedTarget ℝ} (h : AtRest 1 target) (aimer : Aimer ℝ) (cmd : Command ℝ) :
    { wideShooter with lastCommand := cmd }.canShoot Dual.realLibm (limitRad Dual.realLibm (62.0 / 57.3 + 0)) aimer
      target.toTarget 0 = true := by
  have hdistance : target.toTarget.distance Dual.realLibm = 1.2 := by
    have h0 : target.x 0 = 1 + 0.2 := by rw [h.x]; rfl
    have h2 : target.x 2 = 0 := by rw [h.x]; rfl
    show Real.sqrt (target.x 0 * target.x 0 + target.x 2 * target.x 2) = 1.2
    rw [h0, h2, mul_zero, add_zero, Real.sqrt_mul_self (by norm_num)]
    norm_num
  have hyaw : limitRad Dual.realLibm (62.0 / 57.3 + 0) = 62.0 / 57.3 := by
    have hpi := Real.two_le_pi
    rw [add_zero]
    refine limitRad_of_mem Real.pi_pos ?_ ?_
    · show -Real.pi < 62.0 / 57.3
      linarith
    · show 62.0 / 57.3 ≤ Real.pi
      linarith
  have hnot : ¬ (1.2 > (2.0 : ℝ)) := by norm_num
  apply canShoot_of_close
  · rw [hdistance]
    show (1.2 : ℝ) < 2.0 * 0.8
    norm_num
  · rw [hdistance, hyaw]
    show |(0 : ℝ) - 62.0 / 57.3| < (if 1.2 > (2.0 : ℝ) then 100.0 / 57.3 else 100.0 / 57.3) * 1.5 * 2.5
    rw [if_neg hnot, zero_sub, abs_neg, abs_of_pos] <;> norm_num

/-- **The loop fires as it turns to the other camera's target.** -/
theorem turn_fires : ¬ (loop realNumerics sentryDecider).Along (FiresAimed realNumerics)
    ⟨Tracker.init sentryTracker unsetTarget 0, sentryAimer, wideShooter⟩
    [seenIteration 0, seenIteration 10000000, seenIteration 20000000, seenIteration 30000000, seenIteration 40000000,
      leftIteration 50000000] := by
  intro h
  obtain ⟨s1, e1, h⟩ := along_next _ h
  obtain ⟨s2, e2, h⟩ := along_next _ h
  obtain ⟨s3, e3, h⟩ := along_next _ h
  obtain ⟨s4, e4, h⟩ := along_next _ h
  obtain ⟨s5, e5, h⟩ := along_next _ h
  have h1 : Stage 1 s1.tracker .detecting .lost 1 0 0 0 := e1 ▸ track_first rfl unsetTarget 0
  have h2 := track_detecting (u := 10000000) (by norm_num) h1 (by decide) (by decide)
  rw [← seenIteration_track, ← e2] at h2
  have h3 := track_detecting (u := 20000000) (by norm_num) h2 (by decide) (by decide)
  rw [← seenIteration_track, ← e3] at h3
  have h4 := track_detecting (u := 30000000) (by norm_num) h3 (by decide) (by decide)
  rw [← seenIteration_track, ← e4] at h4
  have h5 := track_detecting (u := 40000000) (by norm_num) h4 (by decide) (by decide)
  rw [← seenIteration_track, ← e5] at h5
  have harmed : ∃ cmd, s5.shooter = { wideShooter with lastCommand := cmd } := by
    rw [e5, iterate_shooter, e4, iterate_shooter, e3, iterate_shooter, e2, iterate_shooter, e1, iterate_shooter]
    exact ⟨_, rfl⟩
  have hvalid : s5.aimer.debugAimPoint.valid = true := by
    rw [e5] at h5 ⊢
    exact seenIteration_valid h5
  have hsets := (not_setsTarget (u := 50000000) h5 (by decide) (.inr (.inl rfl)) (f := (leftIteration 50000000).frame)
    rfl rfl).1
  have hturns : s5.tracker.TurnsAway (leftIteration 50000000).detectionQueue (leftIteration 50000000).frame := by
    refine ⟨(stage_tick (u := 50000000) h5 (by decide)).1.state, ?_,
      (atRest_convergened h5.rest (by rw [h5.updateCount]; decide)).1⟩
    rw [h5.rest.priority]
    rfl
  have hkept : s5.tracker.target.diverged.2 = false := by rw [atRest_diverged h5.rest]
  obtain ⟨cmd, hcmd⟩ := harmed
  refine firesAimed_iff.1 h.1 ⟨hsets, hturns, by rw [h5.tempLostCount]; decide, hkept⟩ _ rfl ⟨?_, hvalid, ?_⟩
  · rw [hcmd]
    rfl
  · rw [hcmd]
    exact canShoot_leftSeen h5.rest _ cmd

end SentryMultithread
end Vision
end LfSentry
