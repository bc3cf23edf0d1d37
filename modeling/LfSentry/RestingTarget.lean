import Mathlib.Analysis.SpecialFunctions.Pow.Real
import Mathlib.LinearAlgebra.Matrix.NonsingularInverse
import LfSentry.DualArbiter
import LfSentry.Tracker
/-!
# RestingTarget — a balance robot at rest, observed exactly

Over the reals and at every distance: the filter holds the target where it is (`atRest_predict`, `atRest_update`), the
tracker takes the armor for the one it is (`atRest_bestArmor`) and finds nothing diverged (`atRest_diverged`).  What a call
makes of a tracker that holds such a target is a `Stage` after the other: where the armor is seen, where nothing is seen,
and where another camera sees a better target.
-/
namespace LfSentry
namespace Vision

noncomputable def realNumerics : Numerics ℝ where
  toLibm := Dual.realLibm
  log := Real.log
  pow x y := x ^ y
  inverse M := M⁻¹

theorem limitRad_zero : limitRad Dual.realLibm 0 = 0 :=
  limitRad_of_mem Real.pi_pos (neg_lt_zero.2 Real.pi_pos) Real.pi_pos.le

/-- An armor of the balance robot 3, in the middle of the image. -/
noncomputable def balanceArmor : Armor ℝ := ⟨.blue, .three, .big, .second, (720.0, 540.0), (0.5, 0.5), 0, 0, 0⟩

/-- Straight ahead at the distance `d`, facing the camera. -/
def aheadPose (d : ℝ) : Pose ℝ := ⟨![d, 0, 0], 0⟩

noncomputable def solvedArmor (d : ℝ) : Armor ℝ := balanceArmor.solved realNumerics (aheadPose d)

variable {d : ℝ}

theorem xyz2ypd_ahead (hd : 0 ≤ d) : xyz2ypd realNumerics ![d, 0, 0] = ![0, 0, d] := by
  funext i
  fin_cases i
  · show Complex.arg ⟨d, 0⟩ = 0
    exact Complex.arg_ofReal_of_nonneg hd
  · show Complex.arg ⟨Real.sqrt (d * d + 0 * 0), 0⟩ = 0
    exact Complex.arg_ofReal_of_nonneg (Real.sqrt_nonneg _)
  · show Real.sqrt (d * d + 0 * 0 + 0 * 0) = d
    rw [mul_zero, add_zero, add_zero, Real.sqrt_mul_self hd]

theorem xyzaYpd_ahead (hd : 0 ≤ d) (a : ℝ) : xyzaYpd realNumerics ⟨d, 0, 0, a⟩ = ![0, 0, d] := xyz2ypd_ahead hd

/-- The target that such an armor makes, not moving. -/
structure AtRest (d : ℝ) (target : TrackedTarget ℝ) : Prop where
  x : target.x = ![d + 0.2, 0, 0, 0, 0, 0, 0, 0, 0.2, 0, 0]
  name : target.name = .three
  armorNum : target.armorNum = 2
  armorType : target.armorType = .big
  priority : target.priority = .second
  lastId : target.lastId = 0
  jumped : target.jumped = false

theorem atRest_targetOf (t : Int) : AtRest d (targetOf realNumerics (solvedArmor d) t) ∧
    (targetOf realNumerics (solvedArmor d) t).updateCount = 0 := by
  have hbalance : (solvedArmor d).isBalance = true := rfl
  unfold targetOf
  rw [if_pos hbalance]
  refine ⟨⟨?_, rfl, rfl, rfl, rfl, rfl, rfl⟩, rfl⟩
  show ![d + 0.2 * Real.cos 0, 0, 0 + 0.2 * Real.sin 0, 0, (0 : ℝ), 0, 0, 0, 0.2, 0, 0] = _
  rw [Real.cos_zero, Real.sin_zero, mul_one, mul_zero, add_zero]

/-- The armor that is seen, and the one behind it. -/
theorem atRest_armors {target : TrackedTarget ℝ} (h : AtRest d target) :
    target.toTarget.armorXyzaList Dual.realLibm = [⟨d, 0, 0, 0⟩, ⟨d + 0.4, 0, 0, Real.pi⟩] := by
  have h0 : target.x 0 = d + 0.2 := by rw [h.x]; rfl
  have h2 : target.x 2 = 0 := by rw [h.x]; rfl
  have h4 : target.x 4 = 0 := by rw [h.x]; rfl
  have h6 : target.x 6 = 0 := by rw [h.x]; rfl
  have h8 : target.x 8 = 0.2 := by rw [h.x]; rfl
  have hfront : target.toTarget.armorXyza Dual.realLibm 0 = ⟨d, 0, 0, 0⟩ := by
    have hcos : Dual.realLibm.cos 0 = 1 := Real.cos_zero
    have hsin : Dual.realLibm.sin 0 = 0 := Real.sin_zero
    unfold Target.armorXyza
    simp [h0, h2, h4, h6, h8, h.name, h.armorNum, limitRad_zero, hcos, hsin]
  have hback : target.toTarget.armorXyza Dual.realLibm 1 = ⟨d + 0.4, 0, 0, Real.pi⟩ := by
    have hcos : Dual.realLibm.cos Real.pi = -1 := Real.cos_pi
    have hsin : Dual.realLibm.sin Real.pi = 0 := Real.sin_pi
    have hhalf : (0 : ℝ) + ((1 : Nat) : ℝ) * 2 * Dual.realLibm.pi / ((2 : Nat) : ℝ) = Real.pi := by
      show (0 : ℝ) + ((1 : Nat) : ℝ) * 2 * Real.pi / ((2 : Nat) : ℝ) = Real.pi
      push_cast
      ring
    have hpi : limitRad Dual.realLibm Real.pi = Real.pi :=
      limitRad_of_mem Real.pi_pos (by linarith [Real.pi_pos]) le_rfl
    unfold Target.armorXyza
    simp only [h0, h2, h4, h6, h8, h.name, h.armorNum, hhalf, hpi, hcos, hsin]
    norm_num
    ring
  unfold Target.armorXyzaList
  rw [h.armorNum]
  show [target.armorXyza Dual.realLibm 0, target.armorXyza Dual.realLibm 1] = _
  rw [hfront, hback]

theorem atRest_predict {target : TrackedTarget ℝ} (h : AtRest d target) (t : Int) :
    AtRest d (target.predict realNumerics t) ∧
      (target.predict realNumerics t).updateCount = target.updateCount := by
  obtain ⟨hnum, hjumped, hcount⟩ := predict_keeps realNumerics target t
  refine ⟨⟨?_, (predict_name realNumerics target t).trans h.name, hnum.trans h.armorNum, h.armorType, h.priority,
    h.lastId, hjumped.trans h.jumped⟩, hcount⟩
  refine (predict_of_still realNumerics ?_ ?_ ?_ ?_ ?_ ?_ t).trans h.x
  · rw [h.name]
    decide
  all_goals rw [h.x]
  · rfl
  · rfl
  · rfl
  · rfl
  · exact limitRad_zero

theorem atRest_matchId (hd : 0 ≤ d) {target : TrackedTarget ℝ} (h : AtRest d target) :
    target.matchId realNumerics (solvedArmor d) = 0 := by
  have hsort : ([((⟨d, 0, 0, 0⟩ : Xyza ℝ), 0), (⟨d + 0.4, 0, 0, Real.pi⟩, 1)].insertionSort
      fun a b => ¬ xyzaYpd realNumerics b.1 2 < xyzaYpd realNumerics a.1 2) =
      [((⟨d, 0, 0, 0⟩ : Xyza ℝ), 0), (⟨d + 0.4, 0, 0, Real.pi⟩, 1)] := by
    have hle : ¬ xyzaYpd realNumerics ⟨d + 0.4, 0, 0, Real.pi⟩ 2 < xyzaYpd realNumerics ⟨d, 0, 0, 0⟩ 2 := by
      rw [xyzaYpd_ahead (by linarith), xyzaYpd_ahead hd]
      show ¬ d + 0.4 < d
      linarith
    rw [List.insertionSort_cons, List.insertionSort_cons, List.insertionSort_nil, List.orderedInsert_nil,
      List.orderedInsert_cons_of_le]
    exact hle
  have hpairs : ((List.range target.armorNum).map fun i =>
      (armorAt (target.toTarget.armorXyzaList realNumerics.toLibm) i, i)) =
      [((⟨d, 0, 0, 0⟩ : Xyza ℝ), 0), (⟨d + 0.4, 0, 0, Real.pi⟩, 1)] := by
    have hlist : target.toTarget.armorXyzaList realNumerics.toLibm = _ := atRest_armors h
    rw [h.armorNum, hlist]
    rfl
  have herror : target.angleError realNumerics (solvedArmor d) ⟨d, 0, 0, 0⟩ = 0 := by
    have hypd : (solvedArmor d).ypdInWorld = ![0, 0, d] := xyz2ypd_ahead hd
    unfold TrackedTarget.angleError
    dsimp only
    rw [xyzaYpd_ahead hd, hypd, h.name, if_neg (by decide)]
    show |limitRad Dual.realLibm (0 - 0)| + |limitRad Dual.realLibm (0 - 0)| = (0 : ℝ)
    rw [sub_zero, limitRad_zero, abs_zero, add_zero]
  have hfirst : |(0 : ℝ)| < |1e10| := by norm_num
  unfold TrackedTarget.matchId
  dsimp only
  rw [hpairs, hsort, List.take_of_length_le (by simp), List.foldl_cons, List.foldl_cons, List.foldl_nil]
  dsimp only
  rw [herror, if_pos hfirst, if_neg (not_lt.2 (abs_zero.le.trans (abs_nonneg _)))]

/-- **The armor seen again leaves the target and is one more update.** -/
theorem atRest_update (hd : 0 ≤ d) {target : TrackedTarget ℝ} (h : AtRest d target) :
    AtRest d (target.update realNumerics (solvedArmor d)) ∧
      (target.update realNumerics (solvedArmor d)).updateCount = target.updateCount + 1 := by
  let updated : TrackedTarget ℝ := { target with
    toTarget := { target.toTarget with updateCount := target.updateCount + 1 }, isSwitch := false, lastId := 0 }
  have hupdate : target.update realNumerics (solvedArmor d) = updated.updateYpda realNumerics (solvedArmor d) 0 := by
    unfold TrackedTarget.update
    simp [updated, atRest_matchId hd h, h.lastId, h.name]
  have hz : (solvedArmor d).observed = updated.toTarget.observation realNumerics 0 := by
    have hypd : (solvedArmor d).ypdInWorld = ![0, 0, d] := xyz2ypd_ahead hd
    have harmor : updated.toTarget.armorXyza realNumerics.toLibm 0 = ⟨d, 0, 0, 0⟩ := by
      have hlist : target.toTarget.armorXyzaList realNumerics.toLibm = _ := atRest_armors h
      have hzero := armorAt_armorXyzaList realNumerics.toLibm target.toTarget (i := 0) (by rw [h.armorNum]; decide)
      rw [hlist] at hzero
      exact hzero.symm
    unfold Armor.observed Target.observation
    rw [hypd, harmor]
    dsimp only
    rw [xyzaYpd_ahead hd]
    rfl
  have hangle : limitRad realNumerics.toLibm (updated.x 6) = updated.x 6 := by
    show limitRad Dual.realLibm (target.x 6) = target.x 6
    rw [h.x]
    exact limitRad_zero
  have htarget := updateYpda_of_exact realNumerics limitRad_zero hangle hz
  rw [← hupdate] at htarget
  refine ⟨⟨?_, ?_, ?_, h.armorType, h.priority, ?_, ?_⟩, congrArg Target.updateCount htarget⟩
  · exact (congrArg Target.x htarget).trans h.x
  · exact (congrArg Target.name htarget).trans h.name
  · exact (congrArg Target.armorNum htarget).trans h.armorNum
  · rw [hupdate]
    rfl
  · exact (congrArg Target.jumped htarget).trans h.jumped

theorem atRest_divergedRaw {target : TrackedTarget ℝ} (h : AtRest d target) : target.toTarget.divergedRaw = false := by
  unfold Target.divergedRaw
  rw [if_pos (by rw [h.armorNum]; decide), h.x]
  show (!(decide ((0.2 : ℝ) > 5 / 100) && decide ((0.2 : ℝ) < 5 / 10))) = false
  norm_num

theorem atRest_diverged {target : TrackedTarget ℝ} (h : AtRest d target) :
    target.diverged = ({ target with divergedBadStreak := 0 }, false) := by
  unfold TrackedTarget.diverged
  rw [if_pos (atRest_divergedRaw h)]

theorem atRest_bestArmor (hd : 0 ≤ d) {target : TrackedTarget ℝ} (h : AtRest d target) :
    target.bestArmor realNumerics [solvedArmor d] = some (solvedArmor d) := by
  have hypd : (solvedArmor d).ypdInWorld = ![0, 0, d] := xyz2ypd_ahead hd
  have hcost : target.cost realNumerics (solvedArmor d) ⟨d, 0, 0, 0⟩ 0 = 0 := by
    unfold TrackedTarget.cost
    dsimp only
    rw [xyzaYpd_ahead hd, hypd, h.name, h.lastId, if_neg (by decide), if_neg (by decide)]
    show 2.0 * |d - d| + 1.5 * |limitRad Dual.realLibm (0 - 0)| + 1 * |limitRad Dual.realLibm (0 - 0)| = 0
    rw [sub_self, sub_self, limitRad_zero, abs_zero]
    ring
  have hmin : target.minCost realNumerics (solvedArmor d) < 1e9 := by
    have hlist : target.toTarget.armorXyzaList realNumerics.toLibm = _ := atRest_armors h
    have hthree : ∀ i : Nat, ¬ (ArmorName.three = .outpost ∧ i ≠ 2) := by
      rintro i ⟨hn, -⟩
      cases hn
    have hfirst : (0 : ℝ) < 1e9 := by norm_num
    unfold TrackedTarget.minCost
    rw [hlist, h.name, List.zipIdx_cons, List.zipIdx_cons, List.zipIdx_nil, List.foldl_cons, List.foldl_cons,
      List.foldl_nil]
    dsimp only
    rw [if_neg (hthree _), if_neg (hthree _), hcost, if_pos hfirst]
    split
    · linarith
    · exact hfirst
  unfold TrackedTarget.bestArmor
  rw [List.foldl_cons, List.foldl_nil, if_pos hmin]

/-- **After more than three updates it has converged.** -/
theorem atRest_convergened {target : TrackedTarget ℝ} (h : AtRest d target) (hcount : 3 < target.updateCount) :
    target.convergened.isConverged = true ∧ AtRest d target.convergened := by
  have hconv : target.toTarget.convergened = { target.toTarget with isConverged := true } := by
    unfold Target.convergened
    simp [h.name, hcount, atRest_divergedRaw h]
  unfold TrackedTarget.convergened
  rw [hconv]
  exact ⟨rfl, h.x, h.name, h.armorNum, h.armorType, h.priority, h.lastId, h.jumped⟩

theorem atRest_aimPoint {target : TrackedTarget ℝ} (h : AtRest d target) (a : Aimer ℝ) :
    (a.chooseAimPoint Dual.realLibm target.toTarget).2 = ⟨true, ⟨d, 0, 0, 0⟩⟩ := by
  rw [chooseAimPoint_of_not_jumped _ _ h.jumped, atRest_armors h]
  rfl

/-- **An aim at it leaves the armor that is seen for its point.** -/
theorem atRest_aimAt {target : TrackedTarget ℝ} (h : AtRest d target) (a : Aimer ℝ) {future : Int} {bulletSpeed : ℝ}
    {traj : Trajectory ℝ} (htraj : trajectoryTo Dual.realLibm bulletSpeed ⟨d, 0, 0, 0⟩ = some traj) :
    (a.aimAt Dual.realLibm target.toTarget future bulletSpeed).1.debugAimPoint = ⟨true, ⟨d, 0, 0, 0⟩⟩ := by
  have hpredicted : ∀ (a : Aimer ℝ) (t : Int),
      (a.chooseAimPoint Dual.realLibm (target.toTarget.predict Dual.realLibm t)).2 = ⟨true, ⟨d, 0, 0, 0⟩⟩ :=
    fun a t => atRest_aimPoint (atRest_predict h t).1 a
  have hconverged : |traj.flyTime - traj.flyTime| < (1 / 1000 : ℝ) := by
    rw [sub_self, abs_zero]
    norm_num
  unfold Aimer.aimAt
  dsimp only
  rw [atRest_aimPoint h, if_neg (Bool.noConfusion : ¬ true = false)]
  dsimp only
  rw [htraj]
  dsimp only
  rw [Aimer.iterate]
  dsimp only
  rw [hpredicted, if_neg (Bool.noConfusion : ¬ true = false)]
  dsimp only
  rw [htraj]
  dsimp only
  rw [if_pos hconverged]

theorem trajectory_ahead (hd : 0 ≤ d) (bulletSpeed : ℝ)
    (hdelta : 0 ≤ d * d - 4 * (97833 / 10000 * d * d / (2 * bulletSpeed * bulletSpeed)) ^ 2) :
    ∃ traj, trajectoryTo Dual.realLibm bulletSpeed ⟨d, 0, 0, 0⟩ = some traj := by
  have hsqrt : Dual.realLibm.sqrt (d * d + 0 * 0) = d := by
    show Real.sqrt (d * d + 0 * 0) = d
    rw [mul_zero, add_zero, Real.sqrt_mul_self hd]
  unfold trajectoryTo trajectory
  dsimp only
  rw [hsqrt, if_neg]
  · exact ⟨_, rfl⟩
  · rw [not_lt]
    linarith

/-! ## A tracker that holds it -/

noncomputable def unsetTarget : TrackedTarget ℝ :=
  ⟨⟨.one, false, 0, 0, false, 0, 0⟩, .small, .fifth, 0, false, 0, 0, 0, [0]⟩

/-- The configured counts of the sentry. -/
def sentryTracker : TrackerConfig := ⟨.blue, 5, 25, 75⟩

/-- A tracker that confirms targets by five frames and holds this one, with its state, the state before, its two counters,
the updates of the target and its clock. -/
structure Stage (d : ℝ) (tr : Tracker ℝ) (state preState : TrackState) (detectCount tempLostCount updateCount t : Int) :
    Prop where
  rest : AtRest d tr.target
  minDetectCount : tr.config.minDetectCount = 5
  state : tr.state = state
  preState : tr.preState = preState
  detectCount : tr.detectCount = detectCount
  tempLostCount : tr.tempLostCount = tempLostCount
  updateCount : tr.target.updateCount = updateCount
  lastTimestamp : tr.lastTimestamp = t

variable {tr : Tracker ℝ} {st pre : TrackState} {dc tc uc t u : Int}

theorem stage_tick (h : Stage d tr st pre dc tc uc t) (ht : u - t ≤ 100000000) : Stage d (tr.tick u) st pre dc tc uc u ∧
    (tr.tick u).config = tr.config ∧ (tr.tick u).omniTargetPriority = tr.omniTargetPriority := by
  have hdt : ¬ (0.1 < (deltaTime u tr.lastTimestamp : ℝ)) := by
    have hcast : ((u - t : Int) : ℝ) ≤ 100000000 := by exact_mod_cast ht
    unfold deltaTime
    rw [h.lastTimestamp, not_lt, div_le_iff₀ (by norm_num)]
    linarith
  unfold Tracker.tick
  dsimp only
  rw [if_neg fun hc => hdt hc.2]
  exact ⟨⟨h.rest, h.minDetectCount, h.state, h.preState, h.detectCount, h.tempLostCount, h.updateCount, rfl⟩, rfl, rfl⟩

theorem atRest_checkDiverged {s : Sought ℝ} (h : AtRest d s.tracker.target) : s.advance.checkDiverged.2 = false := by
  have htarget : s.advance.target = s.tracker.target := (stateMachine_keeps _ _).2.2
  unfold Tracker.checkDiverged
  split
  · rfl
  · rw [htarget, atRest_diverged h]
    rfl

/-- **A call, from what it seeks and where the state machine goes.** -/
theorem stage_track {q : List (DetectionResult ℝ)} {f : TrackFrame ℝ} {s : Sought ℝ}
    (hs : tr.seek realNumerics q f = s) (h : Stage d s.tracker st pre dc tc uc t) {st' : TrackState} {dc' tc' : Int}
    (hst : (s.tracker.stateMachine s.found).state = st') (hdc : (s.tracker.stateMachine s.found).detectCount = dc')
    (htc : (s.tracker.stateMachine s.found).tempLostCount = tc') (hlost : st' ≠ .lost) :
    Stage d (tr.track realNumerics q f).1 st' st dc' tc' uc t := by
  obtain ⟨hstate, hdetect, htemp, hpre⟩ := advance_eq s
  have htarget : s.advance.target = s.tracker.target := (stateMachine_keeps _ _).2.2
  have hmin : s.advance.config.minDetectCount = 5 := by
    rw [Sought.advance, (stateMachine_keeps _ _).1]
    exact h.minDetectCount
  have hlast : s.advance.lastTimestamp = s.tracker.lastTimestamp := by
    unfold Sought.advance Tracker.stateMachine
    dsimp only
    repeat' split
    all_goals rfl
  have hcheck : s.advance.checkDiverged.1 = { s.advance with target := { s.tracker.target with divergedBadStreak := 0 } } := by
    unfold Tracker.checkDiverged
    rw [if_neg (by rw [hstate, hst]; exact hlost), htarget, atRest_diverged h.rest, if_neg Bool.false_ne_true]
  rw [track_fst, hs, hcheck]
  refine ⟨⟨h.rest.x, h.rest.name, h.rest.armorNum, h.rest.armorType, h.rest.priority, h.rest.lastId, h.rest.jumped⟩,
    hmin, hstate.trans hst, hpre.trans h.state, hdetect.trans hdc, htemp.trans htc, h.updateCount, hlast.trans h.lastTimestamp⟩

/-- The image with the armor in it, and the image with nothing. -/
noncomputable def seenFrame (d : ℝ) (t : Int) : TrackFrame ℝ := ⟨[balanceArmor], fun _ => aheadPose d, t⟩

def emptyFrame (d : ℝ) (t : Int) : TrackFrame ℝ := ⟨[], fun _ => aheadPose d, t⟩

noncomputable def betterFrame (d : ℝ) (t : Int) : TrackFrame ℝ :=
  ⟨[{ balanceArmor with priority := .first }], fun _ => aheadPose d, t⟩

/-- What another camera sees: an armor of the first priority, in the direction `yaw`. -/
noncomputable def betterSeen (yaw : ℝ) : DetectionResult ℝ := ⟨[{ balanceArmor with priority := .first }], 0, yaw, 0⟩

theorem updateTarget_seen (hd : 0 ≤ d) (h : Stage d tr st pre dc tc uc t) :
    (tr.updateTarget realNumerics (seenFrame d u)).2 = true ∧
      Stage d (tr.updateTarget realNumerics (seenFrame d u)).1 st pre dc tc (uc + 1) t := by
  obtain ⟨hrest, hcount⟩ := atRest_predict h.rest u
  have hcandidates : (((seenFrame d u).armors.filter fun armor => armor.name = (tr.target.predict realNumerics u).name ∧
      armor.type = (tr.target.predict realNumerics u).armorType).map
        fun armor => armor.solved realNumerics ((seenFrame d u).solve armor)) = [solvedArmor d] := by
    rw [hrest.name, hrest.armorType]
    rfl
  obtain ⟨hupdated, hucount⟩ := atRest_update hd hrest
  have hupdate : tr.updateTarget realNumerics (seenFrame d u) =
      ({ tr with target := (tr.target.predict realNumerics u).update realNumerics (solvedArmor d) }, true) := by
    have ht : (seenFrame d u).t = u := rfl
    unfold Tracker.updateTarget
    dsimp only
    rw [ht, hcandidates, atRest_bestArmor hd hrest]
  rw [hupdate]
  refine ⟨rfl, hupdated, h.minDetectCount, h.state, h.preState, h.detectCount, h.tempLostCount, ?_, h.lastTimestamp⟩
  exact hucount.trans (by rw [hcount, h.updateCount])

def LooksFor (st pre : TrackState) : Prop := (st = .detecting ∧ pre ≠ .switching) ∨ st = .tracking ∨ st = .tempLost

theorem not_setsTarget (h : Stage d tr st pre dc tc uc t) (ht : u - t ≤ 100000000) (hst : LooksFor st pre)
    {f : TrackFrame ℝ} (hf : f.t = u) (hfront : frontBelow (sortArmors realNumerics f.armors) .second = false) :
    ¬ tr.SetsTarget realNumerics f ∧ (tr.tick f.t).state ≠ .switching := by
  obtain ⟨htick, -⟩ := stage_tick h ht
  rw [hf]
  refine ⟨?_, ?_⟩
  · unfold Tracker.SetsTarget
    rw [hf, htick.state, h.preState, h.rest.priority, hfront]
    rcases hst with ⟨rfl, hpre⟩ | rfl | rfl
    · simp [hpre]
    · simp
    · simp
  · rw [htick.state]
    rcases hst with ⟨rfl, -⟩ | rfl | rfl <;> simp

theorem not_turnsAway (f : TrackFrame ℝ) : ¬ tr.TurnsAway [] f := fun h => by cases h.2.1

theorem seek_seen (hd : 0 ≤ d) (h : Stage d tr st pre dc tc uc t) (ht : u - t ≤ 100000000) (hst : LooksFor st pre) :
    (tr.seek realNumerics [] (seenFrame d u)).found = true ∧
      Stage d (tr.seek realNumerics [] (seenFrame d u)).tracker st pre dc tc (uc + 1) u := by
  obtain ⟨hsets, hsw⟩ := not_setsTarget h ht hst (f := seenFrame d u) rfl rfl
  rw [seek_of_updates realNumerics hsets (not_turnsAway _) hsw]
  exact updateTarget_seen hd (stage_tick h ht).1

theorem updateTarget_empty (h : Stage d tr st pre dc tc uc t) :
    (tr.updateTarget realNumerics (emptyFrame d u)).2 = false ∧
      Stage d (tr.updateTarget realNumerics (emptyFrame d u)).1 st pre dc tc uc t := by
  obtain ⟨hrest, hcount⟩ := atRest_predict h.rest u
  have hupdate : tr.updateTarget realNumerics (emptyFrame d u) =
      ({ tr with target := tr.target.predict realNumerics u }, false) := rfl
  rw [hupdate]
  exact ⟨rfl, hrest, h.minDetectCount, h.state, h.preState, h.detectCount, h.tempLostCount, hcount.trans h.updateCount, h.lastTimestamp⟩

theorem seek_empty (h : Stage d tr st pre dc tc uc t) (ht : u - t ≤ 100000000) (hst : LooksFor st pre) :
    (tr.seek realNumerics [] (emptyFrame d u)).found = false ∧
      Stage d (tr.seek realNumerics [] (emptyFrame d u)).tracker st pre dc tc uc u := by
  obtain ⟨hsets, hsw⟩ := not_setsTarget h ht hst (f := emptyFrame d u) rfl rfl
  rw [seek_of_updates realNumerics hsets (not_turnsAway _) hsw]
  exact updateTarget_empty (stage_tick h ht).1

theorem seek_empty_switching (h : Stage d tr .switching pre dc tc uc t) (ht : u - t ≤ 100000000) :
    (tr.seek realNumerics [] (emptyFrame d u)).found = false ∧
      Stage d (tr.seek realNumerics [] (emptyFrame d u)).tracker .switching pre dc tc uc u := by
  obtain ⟨htick, -⟩ := stage_tick h ht
  have hswitching : (tr.tick (emptyFrame d u).t).state = .switching := htick.state
  rw [seek_of_switching realNumerics [] hswitching]
  exact ⟨rfl, htick⟩

/-- **The tracker turns to the better target of another camera once its own has converged.** -/
theorem seek_better (h : Stage d tr .tracking pre dc tc uc t) (ht : u - t ≤ 100000000) (huc : 3 < uc) (yaw : ℝ) :
    (tr.seek realNumerics [betterSeen yaw] (emptyFrame d u)).found = false ∧
      Stage d (tr.seek realNumerics [betterSeen yaw] (emptyFrame d u)).tracker .switching pre dc tc uc u ∧
      (tr.seek realNumerics [betterSeen yaw] (emptyFrame d u)).tracker.omniTargetPriority = .first ∧
      (tr.seek realNumerics [betterSeen yaw] (emptyFrame d u)).switchTarget =
        ⟨(betterSeen yaw).armors, u, yaw, 0⟩ := by
  obtain ⟨htick, -⟩ := stage_tick h ht
  obtain ⟨hsets, -⟩ := not_setsTarget h ht (.inr (.inl rfl)) (f := emptyFrame d u) rfl rfl
  obtain ⟨hconv, hrest⟩ := atRest_convergened h.rest (by rw [h.updateCount]; exact huc)
  have hbelow : frontBelow (betterSeen yaw).armors tr.target.priority = true := by
    rw [h.rest.priority]
    rfl
  have hturns : tr.TurnsAway [betterSeen yaw] (emptyFrame d u) := ⟨htick.state, hbelow, hconv⟩
  rw [seek_of_turnsAway realNumerics hsets hturns]
  have hcount : tr.target.convergened.updateCount = uc := (convergened_x _).2.2.2.trans h.updateCount
  exact ⟨rfl, ⟨hrest, htick.minDetectCount, rfl, htick.preState, htick.detectCount, htick.tempLostCount, hcount, htick.lastTimestamp⟩, rfl, rfl⟩

/-- **In `switching` the better target is found where it was wanted.** -/
theorem seek_wanted (h : Stage d tr .switching pre dc tc uc t) (ht : u - t ≤ 100000000)
    (hwanted : tr.omniTargetPriority = .first) :
    (tr.seek realNumerics [] (betterFrame d u)).found = true ∧
      Stage d (tr.seek realNumerics [] (betterFrame d u)).tracker .switching pre dc tc uc u := by
  obtain ⟨htick, -, hpriority⟩ := stage_tick h ht
  have hswitching : (tr.tick (betterFrame d u).t).state = .switching := htick.state
  rw [seek_of_switching realNumerics [] hswitching]
  refine ⟨?_, htick⟩
  show decide (ArmorPriority.first = (tr.tick u).omniTargetPriority) = true
  rw [hpriority, hwanted]
  rfl

/-- **The first image with the armor sets the target.** -/
theorem seek_first {config : TrackerConfig} (hmin : config.minDetectCount = 5) (target : TrackedTarget ℝ) (t : Int) :
    ((Tracker.init config target t).seek realNumerics [] (seenFrame d t)).found = true ∧
      Stage d ((Tracker.init config target t).seek realNumerics [] (seenFrame d t)).tracker .lost .lost 0 0 0 t := by
  have htick : ((Tracker.init config target t).tick t).state = .lost := by
    rcases tick_state (Tracker.init config target t) t with h | h <;> exact h
  have hlast : ((Tracker.init config target t).tick t).lastTimestamp = t := by
    unfold Tracker.tick
    dsimp only
    split <;> rfl
  have halike := tick_alike (Tracker.init config target t) t
  obtain ⟨hrest, hcount⟩ := atRest_targetOf (d := d) t
  have hsets : (Tracker.init config target t).SetsTarget realNumerics (seenFrame d t) := .inl htick
  rw [seek_of_setsTarget realNumerics [] hsets]
  exact ⟨rfl, hrest, (congrArg TrackerConfig.minDetectCount halike.config).trans hmin, htick, halike.preState,
    halike.detectCount, halike.tempLostCount, hcount, hlast⟩

/-! ## Calls one after the other -/

theorem track_first {config : TrackerConfig} (hmin : config.minDetectCount = 5) (target : TrackedTarget ℝ) (t : Int) :
    Stage d ((Tracker.init config target t).track realNumerics [] (seenFrame d t)).1 .detecting .lost 1 0 0 t := by
  obtain ⟨hf, h⟩ := seek_first (d := d) hmin target t
  refine stage_track rfl h ?_ ?_ ?_ (by decide)
  · rw [stateMachine_state, h.state, hf]
  · rw [stateMachine_detectCount, h.state, hf]
  · rw [stateMachine_tempLostCount, h.state, hf]
    exact h.tempLostCount

/-- **Five frames confirm the target.** -/
theorem track_detecting (hd : 0 ≤ d) (h : Stage d tr .detecting pre dc tc uc t) (hpre : pre ≠ .switching)
    (ht : u - t ≤ 100000000) : Stage d (tr.track realNumerics [] (seenFrame d u)).1
      (if dc + 1 ≥ 5 then .tracking else .detecting) .detecting (dc + 1) tc (uc + 1) u := by
  obtain ⟨hf, hs⟩ := seek_seen hd h ht (.inl ⟨rfl, hpre⟩)
  refine stage_track rfl hs ?_ ?_ ?_ ?_
  · rw [stateMachine_state, hs.state, hf, hs.detectCount, hs.minDetectCount]
  · rw [stateMachine_detectCount, hs.state, hf, hs.detectCount]
  · rw [stateMachine_tempLostCount, hs.state, hf]
    exact hs.tempLostCount
  · split <;> decide

theorem track_tempLost (hd : 0 ≤ d) (h : Stage d tr .tempLost pre dc tc uc t) (ht : u - t ≤ 100000000) :
    Stage d (tr.track realNumerics [] (seenFrame d u)).1 .tracking .tempLost dc tc (uc + 1) u := by
  obtain ⟨hf, hs⟩ := seek_seen hd h ht (.inr (.inr rfl))
  refine stage_track rfl hs ?_ ?_ ?_ (by decide)
  · rw [stateMachine_state, hs.state, hf]
  · rw [stateMachine_detectCount, hs.state, hf]
    exact hs.detectCount
  · rw [stateMachine_tempLostCount, hs.state, hf]
    exact hs.tempLostCount

theorem track_missed (h : Stage d tr .tracking pre dc tc uc t) (ht : u - t ≤ 100000000) :
    Stage d (tr.track realNumerics [] (emptyFrame d u)).1 .tempLost .tracking dc 1 uc u := by
  obtain ⟨hf, hs⟩ := seek_empty h ht (.inr (.inl rfl))
  refine stage_track rfl hs ?_ ?_ ?_ (by decide)
  · rw [stateMachine_state, hs.state, hf]
  · rw [stateMachine_detectCount, hs.state, hf]
    exact hs.detectCount
  · rw [stateMachine_tempLostCount, hs.state, hf]

/-- **The tracker turns to the better target.** -/
theorem track_better (h : Stage d tr .tracking pre dc tc uc t) (ht : u - t ≤ 100000000) (huc : 3 < uc) (htc : tc < 200)
    (yaw : ℝ) : Stage d (tr.track realNumerics [betterSeen yaw] (emptyFrame d u)).1 .switching .switching dc (tc + 1) uc
      u := by
  obtain ⟨hf, hs, -⟩ := seek_better h ht huc yaw
  refine stage_track rfl hs ?_ ?_ ?_ (by decide)
  · rw [stateMachine_state, hs.state, hf, hs.tempLostCount]
    exact if_neg (by omega)
  · rw [stateMachine_detectCount, hs.state, hf]
    exact hs.detectCount
  · rw [stateMachine_tempLostCount, hs.state, hf, hs.tempLostCount]

theorem track_switching (h : Stage d tr .switching pre dc tc uc t) (ht : u - t ≤ 100000000) (htc : tc < 200) :
    Stage d (tr.track realNumerics [] (emptyFrame d u)).1 .switching .switching dc (tc + 1) uc u := by
  obtain ⟨hf, hs⟩ := seek_empty_switching h ht
  refine stage_track rfl hs ?_ ?_ ?_ (by decide)
  · rw [stateMachine_state, hs.state, hf, hs.tempLostCount]
    exact if_neg (by omega)
  · rw [stateMachine_detectCount, hs.state, hf]
    exact hs.detectCount
  · rw [stateMachine_tempLostCount, hs.state, hf, hs.tempLostCount]

theorem track_wanted (h : Stage d tr .switching pre dc tc uc t) (ht : u - t ≤ 100000000)
    (hwanted : tr.omniTargetPriority = .first) :
    Stage d (tr.track realNumerics [] (betterFrame d u)).1 .detecting .switching dc tc uc u := by
  obtain ⟨hf, hs⟩ := seek_wanted h ht hwanted
  refine stage_track rfl hs ?_ ?_ ?_ (by decide)
  · rw [stateMachine_state, hs.state, hf]
  · rw [stateMachine_detectCount, hs.state, hf]
    exact hs.detectCount
  · rw [stateMachine_tempLostCount, hs.state, hf]
    exact hs.tempLostCount

end Vision
end LfSentry
