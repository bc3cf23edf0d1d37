import LfSentry.Ballistics
import LfSentry.RestingTarget
import LfSentry.Settling
/-!
# AimFlight — what an aim knows of the flight it aims with (`sp_vision_25/tasks/auto_aim/aimer.cpp`)

`aim` looks for a flight time that it finds again: it aims at the target predicted by the last one.  Its iterations are a
bounded loop that stops when it settles (`iterate_eq`), and an answer with control is one of a loop that settled only under
a condition (`aim_consistent_iff`): the flag that would tell is never read.
-/
namespace LfSentry
namespace Vision

open Settling
open LfSentry.Vision.Dual (realLibm)

/-! ## The iterations as a loop -/

section Loop

variable (lib : Libm ℝ)

/-- The aimer at a point that a bullet reaches, and the flight to it. -/
noncomputable def Aimer.shot (a : Aimer ℝ) (target : Target ℝ) (bulletSpeed : ℝ) : Option (Aimer ℝ × Trajectory ℝ) :=
  let r := a.chooseAimPoint lib target
  if r.2.valid = false then none
  else (trajectoryTo lib bulletSpeed r.2.xyza).map fun traj => ({ r.1 with debugAimPoint := r.2 }, traj)

/-- One iteration: the shot at the target predicted by the flight before. -/
noncomputable def nextShot (target : Target ℝ) (future : Int) (bulletSpeed : ℝ) (s : Aimer ℝ × Trajectory ℝ) :
    Option (Aimer ℝ × Trajectory ℝ) :=
  s.1.shot lib (target.predict lib (future + microseconds s.2.flyTime)) bulletSpeed

/-- Convergence, as `aim` tests it. -/
def Converged (s s' : Aimer ℝ × Trajectory ℝ) : Prop := |s'.2.flyTime - s.2.flyTime| < 0.001

noncomputable instance : DecidableRel Converged := fun _ _ => inferInstanceAs (Decidable (_ < _))

/-- The time that `aim` predicts the target to before it aims. -/
noncomputable def Aimer.futureOf (a : Aimer ℝ) (target : Target ℝ) (timestamp : Int) (toNow : Bool) (now : Int) : Int :=
  let delayTime := if |target.x 7| > a.decisionSpeed then a.highSpeedDelayTime else a.lowSpeedDelayTime
  timestamp + microseconds (if toNow then deltaTime now timestamp + delayTime else 0.005 + delayTime)

/-- The speed that `aim` takes a bullet to have. -/
noncomputable def aimSpeed (bulletSpeed : ℝ) : ℝ := if bulletSpeed < 14.0 then 23.0 else bulletSpeed

variable {lib} {target : Target ℝ} {future : Int} {bulletSpeed : ℝ}

theorem converged_iff {s s' : Aimer ℝ × Trajectory ℝ} : Converged s s' ↔ |s'.2.flyTime - s.2.flyTime| < 1 / 1000 := by
  unfold Converged
  norm_num

/-- **The iterations of `aim` are a loop that stops when it settles.** -/
theorem iterate_eq (n : Nat) (s : Aimer ℝ × Trajectory ℝ) :
    match settle (nextShot lib target future bulletSpeed) Converged n s with
    | some s' => Aimer.iterate lib target future bulletSpeed n s.1 s.2 = (s'.1, some s'.2)
    | none => (Aimer.iterate lib target future bulletSpeed n s.1 s.2).2 = none := by
  induction n generalizing s with
  | zero => rfl
  | succ n ih =>
    rw [settle, Aimer.iterate, nextShot, Aimer.shot]
    dsimp only
    generalize s.1.chooseAimPoint lib (target.predict lib (future + microseconds s.2.flyTime)) = r
    by_cases hvalid : r.2.valid = false
    · simp only [if_pos hvalid]
    · simp only [if_neg hvalid]
      cases trajectoryTo lib bulletSpeed r.2.xyza with
      | none => rfl
      | some traj =>
        simp only [Option.map_some]
        by_cases hclose : |traj.flyTime - s.2.flyTime| < 1 / 1000
        · simp only [if_pos hclose, if_pos ((@converged_iff s ({ r.1 with debugAimPoint := r.2 }, traj)).2 hclose)]
        · simp only [if_neg hclose, if_neg (mt (@converged_iff s ({ r.1 with debugAimPoint := r.2 }, traj)).1 hclose)]
          exact ih ({ r.1 with debugAimPoint := r.2 }, traj)

/-- A shot is at the point that was chosen, by the trajectory to it. -/
theorem shot_eq_some {a : Aimer ℝ} {s : Aimer ℝ × Trajectory ℝ} (h : a.shot lib target bulletSpeed = some s) :
    s.1.debugAimPoint = (a.chooseAimPoint lib target).2 ∧ s.1.debugAimPoint.valid = true ∧
      trajectoryTo lib bulletSpeed s.1.debugAimPoint.xyza = some s.2 := by
  unfold Aimer.shot at h
  dsimp only at h
  split at h
  · cases h
  · rename_i hvalid
    obtain ⟨traj, htraj, rfl⟩ := Option.map_eq_some_iff.1 h
    exact ⟨rfl, Bool.eq_true_of_not_eq_false hvalid, htraj⟩

theorem shot_of_point {a : Aimer ℝ} {p : AimPoint ℝ} {traj : Trajectory ℝ} (hp : (a.chooseAimPoint lib target).2 = p)
    (hvalid : p.valid = true) (htraj : trajectoryTo lib bulletSpeed p.xyza = some traj) :
    ∃ a', a.shot lib target bulletSpeed = some (a', traj) := by
  unfold Aimer.shot
  dsimp only
  rw [hp, if_neg (by rw [hvalid]; exact Bool.noConfusion), htraj]
  exact ⟨_, rfl⟩

/-- Every shot of the iterations is. -/
theorem iterates_trajectory {n : Nat} {s s' : Aimer ℝ × Trajectory ℝ}
    (h : iterates (nextShot lib target future bulletSpeed) n s = some s')
    (hs : trajectoryTo lib bulletSpeed s.1.debugAimPoint.xyza = some s.2) :
    trajectoryTo lib bulletSpeed s'.1.debugAimPoint.xyza = some s'.2 := by
  induction n generalizing s with
  | zero => exact Option.some.inj h ▸ hs
  | succ n ih =>
    obtain ⟨s1, hs1⟩ := step_of_iterates_succ (Option.isSome_iff_exists.2 ⟨s', h⟩)
    exact ih ((iterates_succ hs1 n).symm.trans h) (shot_eq_some hs1).2.2

theorem chooseAimPoint_offsets (a : Aimer ℝ) (target : Target ℝ) :
    (a.chooseAimPoint lib target).1.yawOffset = a.yawOffset ∧
      (a.chooseAimPoint lib target).1.pitchOffset = a.pitchOffset := by
  unfold Aimer.chooseAimPoint
  dsimp only
  split
  · exact ⟨rfl, rfl⟩
  · split
    · split <;> exact ⟨rfl, rfl⟩
    · split <;> exact ⟨rfl, rfl⟩

/-- The command to aim at the point of a shot, by its trajectory. -/
noncomputable def Aimer.commandOf (lib : Libm ℝ) (a : Aimer ℝ) (s : Aimer ℝ × Trajectory ℝ) : Command ℝ :=
  let finalXyz := s.1.debugAimPoint.xyza
  ⟨true, false, lib.atan2 finalXyz.y finalXyz.x + a.yawOffset, -(s.2.pitch + a.pitchOffset), 0⟩

/-- **An aim is the command of the shot that its loop ends with.** -/
theorem aimAt_of_settle {a : Aimer ℝ} {s s' : Aimer ℝ × Trajectory ℝ} (hs : a.shot lib target bulletSpeed = some s)
    (h : settle (nextShot lib target future bulletSpeed) Converged 10 s = some s') :
    a.aimAt lib target future bulletSpeed = (s'.1, a.commandOf lib s') := by
  have hiterate := @iterate_eq lib target future bulletSpeed 10 s
  rw [h] at hiterate
  dsimp only at hiterate
  obtain ⟨hyaw, hpitch⟩ := @chooseAimPoint_offsets lib a target
  unfold Aimer.shot at hs
  unfold Aimer.aimAt
  dsimp only at hs ⊢
  split at hs
  · cases hs
  · rename_i hvalid
    obtain ⟨traj, htraj, rfl⟩ := Option.map_eq_some_iff.1 hs
    rw [if_neg hvalid, htraj]
    dsimp only at hiterate ⊢
    rw [hiterate, hyaw, hpitch]
    rfl

/-- Without a first shot there is no aim, and without one that the loop ends with. -/
theorem aimAt_of_none {a : Aimer ℝ} (h : ∀ s, a.shot lib target bulletSpeed = some s →
    settle (nextShot lib target future bulletSpeed) Converged 10 s = none) :
    (a.aimAt lib target future bulletSpeed).2 = Command.none ℝ := by
  unfold Aimer.shot at h
  unfold Aimer.aimAt
  dsimp only at h ⊢
  split
  · rfl
  · rename_i hvalid
    split
    · rfl
    · rename_i traj htraj
      rw [if_neg hvalid, htraj] at h
      have hiterate := @iterate_eq lib target future bulletSpeed 10
        ({ (a.chooseAimPoint lib target).1 with debugAimPoint := (a.chooseAimPoint lib target).2 }, traj)
      rw [h _ rfl] at hiterate
      dsimp only at hiterate
      rw [hiterate]

/-- **An aim with control has a first shot, and its loop ends with one.** -/
theorem aimAt_control {a : Aimer ℝ} (h : (a.aimAt lib target future bulletSpeed).2.control = true) :
    ∃ s s', a.shot lib target bulletSpeed = some s ∧
      settle (nextShot lib target future bulletSpeed) Converged 10 s = some s' := by
  by_contra hnone
  rw [aimAt_of_none fun s hs => Option.eq_none_iff_forall_ne_some.2 fun s' hs' => hnone ⟨s, s', hs, hs'⟩] at h
  cases h

end Loop

/-! ## The flight of a trajectory -/

section Flight

open Ballistics

variable {v d h : ℝ} {traj : Trajectory ℝ}

/-- The gravity of `trajectory.cpp`. -/
noncomputable def gravity : ℝ := 9.7833

theorem gravity_eq : gravity = 97833 / 10000 := by norm_num [gravity]

theorem trajectory_cases (htraj : trajectory realLibm v d h = some traj) :
    let a := gravity * d * d / (2 * v * v)
    ∃ s, s * s = -d * -d - 4 * a * (a + h) ∧ traj.pitch = Real.arctan ((d + s) / (2 * a)) ∧
      traj.flyTime = d / (v * Real.cos traj.pitch) := by
  unfold trajectory at htraj
  dsimp only at htraj
  rw [← gravity_eq] at htraj
  split at htraj
  · cases htraj
  · rename_i hdelta
    have hroot := Real.mul_self_sqrt (not_lt.1 hdelta)
    rw [← Option.some.inj htraj]
    dsimp only
    split
    · exact ⟨_, hroot, by rw [neg_neg]; rfl, rfl⟩
    · refine ⟨-Real.sqrt _, by rw [neg_mul_neg]; exact hroot, ?_, rfl⟩
      rw [neg_neg]
      rfl

/-- **A trajectory to a point ahead flies through it.** -/
theorem trajectory_hits (hv : 0 < v) (hd : 0 < d) (htraj : trajectory realLibm v d h = some traj) :
    Hits gravity v traj.pitch traj.flyTime d h := by
  obtain ⟨s, hs, hpitch, hfly⟩ := trajectory_cases htraj
  have hg : (0 : ℝ) < gravity := by norm_num [gravity]
  have ha : gravity * d * d / (2 * v * v) ≠ 0 := by positivity
  have hroot := quadratic_root (b := -d) ha hs
  rw [neg_neg] at hroot
  rw [hfly, hpitch]
  refine hits_arctan hv hd ?_
  linarith

theorem trajectory_cos_pos (htraj : trajectory realLibm v d h = some traj) : 0 < Real.cos traj.pitch := by
  obtain ⟨s, -, hpitch, -⟩ := trajectory_cases htraj
  rw [hpitch]
  exact Real.cos_arctan_pos _

/-- **Over flat ground that is near, a flight takes little more than the straight line.** -/
theorem trajectory_flat (hv : 0 < v) (hd : 0 < d) (hnear : gravity * d ≤ v * v) :
    ∃ traj, trajectory realLibm v d 0 = some traj ∧ d / v ≤ traj.flyTime ∧
      traj.flyTime ≤ (1 + gravity * d / (v * v)) * (d / v) := by
  have hgravity : (0 : ℝ) < gravity := by norm_num [gravity]
  have ha : 0 < gravity * d * d / (2 * v * v) := by positivity
  have htwo : 2 * (gravity * d * d / (2 * v * v)) = gravity * d / (v * v) * d := by field_simp
  have hle : 2 * (gravity * d * d / (2 * v * v)) ≤ d := by
    rw [htwo]
    exact mul_le_of_le_one_left hd.le ((div_le_one (mul_pos hv hv)).2 hnear)
  obtain ⟨hlow, hhigh⟩ := lower_root_le ha hle
  have hdelta : ¬ (-d * -d - 4 * (gravity * d * d / (2 * v * v)) * (gravity * d * d / (2 * v * v) + 0) < 0) := by
    have hsquare := mul_self_le_mul_self (by positivity) hle
    rw [not_lt]
    nlinarith
  obtain ⟨traj, htraj⟩ : ∃ traj, trajectory realLibm v d 0 = some traj := by
    unfold trajectory
    rw [← gravity_eq]
    exact ⟨_, if_neg hdelta⟩
  refine ⟨traj, htraj, ?_, ?_⟩
  · rw [div_le_iff₀ hv, mul_comm]
    exact (trajectory_hits hv hd htraj).distance_le hv.le
  · have hlower : traj.flyTime ≤ d / (v * Real.cos (Real.arctan ((d - Real.sqrt (d * d -
        4 * (gravity * d * d / (2 * v * v)) * (gravity * d * d / (2 * v * v)))) / (2 * (gravity * d * d / (2 * v * v)))))) := by
      unfold trajectory at htraj
      dsimp only at htraj
      rw [← gravity_eq] at htraj
      split at htraj
      · cases htraj
      · rw [← Option.some.inj htraj]
        simp only [add_zero, neg_neg, neg_mul_neg]
        split
        · rename_i hlt
          exact hlt.le
        · exact le_rfl
    have htan : 2 * (gravity * d * d / (2 * v * v)) / d = gravity * d / (v * v) := by
      rw [htwo, mul_div_assoc, div_self hd.ne', mul_one]
    rw [htan] at hhigh
    refine (hlower.trans (time_le hv hd.le hlow)).trans ?_
    exact mul_le_mul_of_nonneg_right (by linarith) (div_nonneg hd.le hv.le)

end Flight

/-! ## Aims and flight times -/

section Consistent

open Ballistics

/-- The distance along the ground. -/
noncomputable def groundDistance (xyza : Xyza ℝ) : ℝ := Real.sqrt (xyza.x * xyza.x + xyza.y * xyza.y)

/-- What `aim` returned points along a flight through the armor point that `before` chooses for the target predicted by `t`,
and that flight takes `t`, up to a millisecond. -/
structure AimsAlong (a : Aimer ℝ) (target : Target ℝ) (future : Int) (bulletSpeed : ℝ) (before : Aimer ℝ) (t : ℝ)
    (aimed : Aimer ℝ × Command ℝ) : Prop where
  point : (before.chooseAimPoint realLibm (target.predict realLibm (future + microseconds t))).2 = aimed.1.debugAimPoint
  valid : aimed.1.debugAimPoint.valid = true
  yaw : aimed.2.yaw =
    realLibm.atan2 aimed.1.debugAimPoint.xyza.y aimed.1.debugAimPoint.xyza.x + a.yawOffset
  flight : ∃ fly, Hits gravity bulletSpeed (-aimed.2.pitch - a.pitchOffset) fly
    (groundDistance aimed.1.debugAimPoint.xyza) aimed.1.debugAimPoint.xyza.z ∧ |fly - t| < 0.001

/-- The target is predicted by the flight time `t`, and `before` is the aimer that has found it. -/
def Tries (a : Aimer ℝ) (target : Target ℝ) (future : Int) (bulletSpeed : ℝ) (before : Aimer ℝ) (t : ℝ) : Prop :=
  ∃ s, a.shot realLibm target bulletSpeed = some s ∧ ∃ n < 10, ∃ traj : Trajectory ℝ,
    iterates (nextShot realLibm target future bulletSpeed) n s = some (before, traj) ∧ traj.flyTime = t

/-- **Where the flight times settle**: ten of them after the first are never found without two in a row that differ by less
than a millisecond, and the point of the first such second one is not straight above or below. -/
def Settles (a : Aimer ℝ) (target : Target ℝ) (future : Int) (bulletSpeed : ℝ) : Prop :=
  let next := nextShot realLibm target future bulletSpeed
  ∀ s, a.shot realLibm target bulletSpeed = some s →
    ((iterates next 10 s).isSome = true → ∃ n < 10, CloseAt next Converged n s) ∧
    ∀ n < 10, ∀ s1 s2, SettlesAt next Converged n s s1 s2 → 0 < groundDistance s2.1.debugAimPoint.xyza

variable {a : Aimer ℝ} {target : Target ℝ} {future : Int} {bulletSpeed : ℝ} {s s1 s2 : Aimer ℝ × Trajectory ℝ}

/-- The pitch that an aim leaves with, without the offset. -/
theorem commandOf_pitch : -(a.commandOf realLibm s).pitch - a.pitchOffset = s.2.pitch := by
  change - -(s.2.pitch + a.pitchOffset) - a.pitchOffset = s.2.pitch
  ring

/-- An aim that its loop settled at. -/
theorem aimsAlong_of_settled (hv : 0 < bulletSpeed) (hnext : nextShot realLibm target future bulletSpeed s1 = some s2)
    (hclose : Converged s1 s2) (hd : 0 < groundDistance s2.1.debugAimPoint.xyza) :
    AimsAlong a target future bulletSpeed s1.1 s1.2.flyTime (s2.1, a.commandOf realLibm s2) := by
  obtain ⟨hpoint, hvalid, htraj⟩ := shot_eq_some hnext
  refine ⟨hpoint.symm, hvalid, rfl, s2.2.flyTime, ?_, hclose⟩
  rw [commandOf_pitch]
  exact trajectory_hits hv hd htraj

/-- The flight of an aim is the one that its loop ended with. -/
theorem flight_unique (hv : 0 < bulletSpeed) (htraj : trajectoryTo realLibm bulletSpeed s.1.debugAimPoint.xyza = some s.2)
    {fly : ℝ} (hits : Hits gravity bulletSpeed (-(a.commandOf realLibm s).pitch - a.pitchOffset) fly
      (groundDistance s.1.debugAimPoint.xyza) s.1.debugAimPoint.xyza.z) :
    fly = s.2.flyTime ∧ 0 < groundDistance s.1.debugAimPoint.xyza := by
  rw [commandOf_pitch] at hits
  obtain ⟨-, -, -, hfly⟩ := trajectory_cases htraj
  have hcos := trajectory_cos_pos htraj
  exact ⟨(hits.time_eq hv hcos).trans hfly.symm, hits.distance_pos hv hcos⟩

/-- **An aim at a predicted target is consistent exactly where its flight times settle.** -/
theorem aimAt_consistent_iff (hv : 0 < bulletSpeed) :
    ((a.aimAt realLibm target future bulletSpeed).2.control = true → ∃ before t,
      Tries a target future bulletSpeed before t ∧
        AimsAlong a target future bulletSpeed before t (a.aimAt realLibm target future bulletSpeed)) ↔
    Settles a target future bulletSpeed := by
  constructor
  · intro h s hs
    refine ⟨fun hten => ?_, fun n hn s1 s2 hsettles => ?_⟩
    · by_contra hnone
      obtain ⟨s', hs'⟩ := Option.isSome_iff_exists.1 hten
      have hsettle := (settle_of_not_settled fun m hm hclose => hnone ⟨m, hm, hclose⟩).trans hs'
      rw [aimAt_of_settle hs hsettle] at h
      obtain ⟨before, t, ⟨s0, hs0, n, hn, traj, hbefore, rfl⟩, haims⟩ := h rfl
      obtain rfl : s = s0 := Option.some.inj (hs.symm.trans hs0)
      obtain ⟨fly, hits, hclose⟩ := haims.flight
      -- the flight that was aimed along is the one after `before`
      have htraj := iterates_trajectory hs' (shot_eq_some hs).2.2
      obtain ⟨a', hshot⟩ := shot_of_point haims.point haims.valid htraj
      rw [(flight_unique hv htraj hits).1] at hclose
      exact hnone ⟨n, hn, (before, traj), (a', s'.2), hbefore, hshot, hclose⟩
    · rw [aimAt_of_settle hs (settle_of_settled hsettles hn)] at h
      obtain ⟨before, t, -, haims⟩ := h rfl
      obtain ⟨fly, hits, -⟩ := haims.flight
      exact (flight_unique hv (shot_eq_some hsettles.next).2.2 hits).2
  · intro h hcontrol
    obtain ⟨s, s', hs, hsettle⟩ := aimAt_control hcontrol
    obtain ⟨hclose, hahead⟩ := h s hs
    rw [aimAt_of_settle hs hsettle]
    have hex : ∃ n < 10, CloseAt (nextShot realLibm target future bulletSpeed) Converged n s := by
      by_contra hnone
      have hlast : settle (nextShot realLibm target future bulletSpeed) Converged 10 s = _ :=
        settle_of_not_settled fun m hm hclose => hnone ⟨m, hm, hclose⟩
      rw [hsettle] at hlast
      exact hnone (hclose (by rw [← hlast]; rfl))
    obtain ⟨n, hn, hat⟩ := hex
    obtain ⟨k, hk, s1, s2, hsettles⟩ := hat.settles
    obtain rfl : s2 = s' := Option.some.inj ((settle_of_settled hsettles (by omega)).symm.trans hsettle)
    exact ⟨s1.1, s1.2.flyTime, ⟨s, hs, k, by omega, s1.2, hsettles.before, rfl⟩,
      aimsAlong_of_settled hv hsettles.next hsettles.near (hahead k (by omega) s1 s2 hsettles)⟩

theorem aimSpeed_pos (bulletSpeed : ℝ) : 0 < aimSpeed bulletSpeed := by
  unfold aimSpeed
  split
  · norm_num
  · linarith

theorem aim_cons (a : Aimer ℝ) (target : Target ℝ) (rest : List (Target ℝ)) (timestamp : Int) (bulletSpeed : ℝ)
    (toNow : Bool) (now : Int) : a.aim realLibm (target :: rest) timestamp bulletSpeed toNow now =
      a.aimAt realLibm (target.predict realLibm (a.futureOf target timestamp toNow now))
        (a.futureOf target timestamp toNow now) (aimSpeed bulletSpeed) := by
  have hleast : (14.0 : ℝ) = 14 := by norm_num
  have husual : (23.0 : ℝ) = 23 := by norm_num
  have hdetect : (0.005 : ℝ) = 5 / 1000 := by norm_num
  unfold Aimer.futureOf aimSpeed
  rw [hleast, husual, hdetect]
  rfl

/-- **An aim is consistent with its flight time exactly where the flight times settle.** -/
theorem aim_consistent_iff (a : Aimer ℝ) (targets : List (Target ℝ)) (timestamp : Int) (bulletSpeed : ℝ) (toNow : Bool)
    (now : Int) :
    ((a.aim realLibm targets timestamp bulletSpeed toNow now).2.control = true → ∃ target ∈ targets.head?,
      let future := a.futureOf target timestamp toNow now
      let predicted := target.predict realLibm future
      ∃ before t, Tries a predicted future (aimSpeed bulletSpeed) before t ∧
        AimsAlong a predicted future (aimSpeed bulletSpeed) before t
          (a.aim realLibm targets timestamp bulletSpeed toNow now)) ↔
    ∀ target ∈ targets.head?, Settles a (target.predict realLibm (a.futureOf target timestamp toNow now))
      (a.futureOf target timestamp toNow now) (aimSpeed bulletSpeed) := by
  cases targets with
  | nil => exact iff_of_true (fun h => Bool.noConfusion h) (fun target h => by cases h)
  | cons target rest =>
    simp only [List.head?_cons, Option.mem_def, Option.some.injEq, exists_eq_left', forall_eq', aim_cons]
    exact aimAt_consistent_iff (aimSpeed_pos bulletSpeed)

end Consistent

/-! ## A target that flies away as fast as the bullet -/

section Fleeing

/-- Ten centimetres ahead and `s` seconds on, at the 23 metres a second that a bullet flies. -/
noncomputable def fleeingTarget (s : ℝ) (t : Int) : Target ℝ where
  name := .three
  jumped := false
  armorNum := 4
  updateCount := 1
  isConverged := false
  x := ![0.1 + s * 23.0, 23.0, 0, 0, 0, 0, 0, 0, 0, 0, 0]
  t := t

variable {s t : ℝ} {a : Aimer ℝ} {t1 t2 future : Int}

theorem predict_fleeing : (fleeingTarget s t1).predict realLibm t2 = fleeingTarget (s + deltaTime t2 t1) t2 := by
  have hconv : (fleeingTarget s t1).convergened = fleeingTarget s t1 := by
    simp [Target.convergened, fleeingTarget]
  have hspeed : (23.0 : ℝ) = 23 := by norm_num
  unfold Target.predict Target.predictBy
  rw [hconv]
  simp [fleeingTarget, limitRad_zero, hspeed]
  ring

theorem choose_fleeing : (a.chooseAimPoint realLibm (fleeingTarget s t1)).2 = ⟨true, 0.1 + s * 23, 0, 0, 0⟩ := by
  rw [chooseAimPoint_of_not_jumped _ _ rfl, armorAt_armorXyzaList _ _ (show 0 < 4 by decide)]
  have hspeed : (23.0 : ℝ) = 23 := by norm_num
  simp [Target.armorXyza, fleeingTarget, limitRad_zero, hspeed]

/-- What a conversion to `int` leaves off. -/
theorem abs_sub_toInt (x : ℝ) : |x - toInt x| < 1 := by
  unfold toInt
  have h1 := Int.floor_le x
  have h2 := Int.lt_floor_add_one x
  have h3 := Int.le_ceil x
  have h4 := Int.ceil_lt_add_one x
  split <;> rw [abs_lt] <;> constructor <;> linarith

theorem abs_deltaTime_microseconds (future : Int) (t : ℝ) :
    |(deltaTime (future + microseconds t) future : ℝ) - t| < 1 / 1000000 := by
  have hint := abs_sub_toInt (t * 10 ^ 6)
  have hcut : (deltaTime (future + microseconds t) future : ℝ) = toInt (t * 10 ^ 6) / 10 ^ 6 := by
    unfold deltaTime microseconds
    push_cast
    ring
  have hmillion : (10 : ℝ) ^ 6 = 1000000 := by norm_num
  rw [hmillion] at hint hcut
  obtain ⟨hlo, hhi⟩ := abs_lt.1 hint
  rw [hcut, abs_lt]
  constructor <;> linarith

/-- **A shot at such a target takes as long as the target has fled and four milliseconds more**, and not much longer. -/
theorem shot_fleeing (t1 : Int) (hs : -0.001 ≤ s) (hnear : s ≤ 0.0911) : ∃ s',
    a.shot realLibm (fleeingTarget s t1) 23 = some s' ∧ s + 0.0043 ≤ s'.2.flyTime ∧ s'.2.flyTime ≤ 1.041 * (s + 0.0044) := by
  have hd : 0 < 0.1 + s * 23 := by linarith
  have hground : Real.sqrt ((0.1 + s * 23) * (0.1 + s * 23) + 0 * 0) = 0.1 + s * 23 := by
    rw [mul_zero, add_zero, Real.sqrt_mul_self hd.le]
  have hpull : gravity * (0.1 + s * 23) ≤ 0.041 * (23 * 23) := by
    unfold gravity
    linarith
  obtain ⟨traj, htraj, hlong, hshort⟩ := trajectory_flat (v := 23) (by norm_num) hd (by linarith)
  have hto : trajectoryTo realLibm 23 ⟨0.1 + s * 23, 0, 0, 0⟩ = some traj := by
    unfold trajectoryTo
    change trajectory realLibm 23 (Real.sqrt ((0.1 + s * 23) * (0.1 + s * 23) + 0 * 0)) 0 = some traj
    rw [hground, htraj]
  have hpoint : (a.chooseAimPoint realLibm (fleeingTarget s t1)).2 = _ := choose_fleeing
  obtain ⟨a', hshot⟩ := shot_of_point hpoint rfl hto
  refine ⟨(a', traj), hshot, by linarith, hshort.trans ?_⟩
  have hfactor : 1 + gravity * (0.1 + s * 23) / (23 * 23) ≤ 1.041 := by
    have hdiv := div_le_of_le_mul₀ (by norm_num : (0 : ℝ) ≤ 23 * 23) (by norm_num) hpull
    linarith
  have hpart : (0.1 + s * 23) / 23 ≤ s + 0.0044 := by linarith
  exact mul_le_mul hfactor hpart (div_nonneg hd.le (by norm_num)) (by norm_num)

/-- One iteration takes four milliseconds more than the one before, and stays in reach. -/
theorem nextShot_fleeing {m : Nat} (hm : m ≤ 10) {s : Aimer ℝ × Trajectory ℝ} (hlo : 0 ≤ s.2.flyTime)
    (hhi : s.2.flyTime ≤ 0.0091 * m) : ∃ s', nextShot realLibm (fleeingTarget 0 0) 0 23 s = some s' ∧
      s.2.flyTime + 0.004 ≤ s'.2.flyTime ∧ s'.2.flyTime ≤ 0.0091 * (m + 1 : Nat) := by
  obtain ⟨hcutlo, hcuthi⟩ := abs_lt.1 (abs_deltaTime_microseconds 0 s.2.flyTime)
  have hm' : (m : ℝ) ≤ 10 := by exact_mod_cast hm
  unfold nextShot
  rw [predict_fleeing]
  obtain ⟨s', hs', hlong, hshort⟩ := shot_fleeing (a := s.1) (0 + microseconds s.2.flyTime)
    (s := 0 + deltaTime (0 + microseconds s.2.flyTime) 0) (by linarith) (by linarith)
  refine ⟨s', hs', by linarith, ?_⟩
  push_cast
  linarith

/-- The iterations go on, and each takes four milliseconds more than the one before. -/
theorem settle_fleeing (n : Nat) : ∀ (m : Nat) (s : Aimer ℝ × Trajectory ℝ), m + n ≤ 10 → 0 ≤ s.2.flyTime →
    s.2.flyTime ≤ 0.0091 * m → ∃ s1 s2,
      settle (nextShot realLibm (fleeingTarget 0 0) 0 23) Converged (n + 1) s = some s2 ∧
        nextShot realLibm (fleeingTarget 0 0) 0 23 s1 = some s2 ∧ s1.2.flyTime + 0.004 ≤ s2.2.flyTime := by
  induction n with
  | zero =>
    intro m s hm hlo hhi
    obtain ⟨s', hs', hmore, -⟩ := nextShot_fleeing (by omega) hlo hhi
    refine ⟨s, s', ?_, hs', hmore⟩
    rw [settle, hs']
    simp only [settle, ite_self]
  | succ n ih =>
    intro m s hm hlo hhi
    obtain ⟨s', hs', hmore, hbound⟩ := nextShot_fleeing (by omega) hlo hhi
    have hopen : ¬ Converged s s' := by
      unfold Converged
      rw [not_lt, le_abs]
      left
      linarith
    rw [settle, hs']
    simp only [if_neg hopen]
    exact ih (m + 1) s' (by omega) (by linarith) hbound

/-- The aimer of a sentry that shoots without a delay. -/
noncomputable def promptAimer : Aimer ℝ := Aimer.ofConfig 0 0 60.0 20.0 0 0 10.0

theorem promptAimer_future : promptAimer.futureOf (fleeingTarget 0 0) 0 true 0 = 0 := by
  have hrest : |(fleeingTarget 0 0).x 7| ≤ promptAimer.decisionSpeed := by
    change |(0 : ℝ)| ≤ 10.0
    norm_num
  have hdelay : promptAimer.lowSpeedDelayTime = 0 := rfl
  unfold Aimer.futureOf
  rw [if_neg (not_lt.2 hrest), hdelay]
  simp [deltaTime, microseconds, toInt]

/-- **The aim at a target that flies away as fast as the bullet has control, and there is no time that it is consistent
with.** -/
theorem fleeing_aim_inconsistent :
    let aimed := promptAimer.aim realLibm [fleeingTarget 0 0] 0 23 true 0
    let future := promptAimer.futureOf (fleeingTarget 0 0) 0 true 0
    aimed.2.control = true ∧ ∀ before t,
      ¬ AimsAlong promptAimer ((fleeingTarget 0 0).predict realLibm future) future (aimSpeed 23) before t aimed := by
  dsimp only
  have hspeed : aimSpeed (23 : ℝ) = 23 := if_neg (by norm_num)
  have hhere : (fleeingTarget 0 0).predict realLibm 0 = fleeingTarget 0 0 := by
    rw [predict_fleeing, deltaTime, sub_self, Int.cast_zero, zero_div, zero_add]
  obtain ⟨s, hs, hlong, hshort⟩ := shot_fleeing (a := promptAimer) (s := 0) 0 (by norm_num) (by norm_num)
  obtain ⟨s1, s2, hsettle, hnext, hmore⟩ := settle_fleeing 9 1 s (by omega) (by linarith) (by push_cast; linarith)
  obtain ⟨hpoint, -, htraj⟩ := shot_eq_some hnext
  rw [aim_cons, promptAimer_future, hspeed, hhere, aimAt_of_settle hs hsettle]
  refine ⟨rfl, fun before t haims => ?_⟩
  obtain ⟨fly, hits, hclose⟩ := haims.flight
  rw [(flight_unique (by norm_num) htraj hits).1] at hclose
  -- the point tells the time that the target was predicted to
  have hsame := haims.point.trans hpoint
  rw [predict_fleeing, predict_fleeing, choose_fleeing, choose_fleeing] at hsame
  have htime : (0.1 : ℝ) + (0 + deltaTime (0 + microseconds t) 0) * 23 =
      0.1 + (0 + deltaTime (0 + microseconds s1.2.flyTime) 0) * 23 := congrArg (fun p => p.xyza.x) hsame
  obtain ⟨hlo, hhi⟩ := abs_lt.1 (abs_deltaTime_microseconds 0 t)
  obtain ⟨hlo1, hhi1⟩ := abs_lt.1 (abs_deltaTime_microseconds 0 s1.2.flyTime)
  obtain ⟨-, hnear⟩ := abs_lt.1 hclose
  linarith

end Fleeing

end Vision
end LfSentry
