import Mathlib.Analysis.Real.Pi.Bounds
import LfSentry.DualArbiter
import LfSentry.Runs
import LfSentry.Shooter
/-!
# ShooterWraps — `shoot` and angles of the same direction (`sp_vision_25/tasks/auto_aim/shooter.cpp`)

`shoot` compares yaws by the absolute value of their plain difference.  A direction has many angles, and far enough ones
answer no to any of these comparisons: a run of calls answers alike for all angles of its directions exactly if it fires
for none (`wrap_invariant_iff`).
-/
namespace LfSentry
namespace Vision

variable {K : Type} [Field K] [LinearOrder K] [FloorRing K] (lib : Libm K)

/-! ## Angles of a direction -/

def Command.turned (k : ℤ) (command : Command K) : Command K := { command with yaw := command.yaw + lib.turn * k }

/-- `k` turns more on the command remembered. -/
def Shooter.turned (k : ℤ) (s : Shooter K) : Shooter K := { s with lastCommand := s.lastCommand.turned lib k }

/-- A call of `shoot`; the shorter one is in the state `tracking`. -/
structure ShootCall (K : Type) where
  command : Command K
  aimer : Aimer K
  targets : List (Target K)
  gimbalYaw : K
  trackerState : TrackState

def ShootCall.turned (c : ShootCall K) (turns : ℤ × ℤ) : ShootCall K :=
  { c with command := c.command.turned lib turns.1, gimbalYaw := c.gimbalYaw + lib.turn * turns.2 }

def Shooter.call (s : Shooter K) (c : ShootCall K) : Shooter K × Bool :=
  s.shootIn lib c.command c.aimer c.targets c.gimbalYaw c.trackerState

def shooting : Machine (Shooter K) (ShootCall K) Bool where
  step s c := some ((s.call lib c).1, [(s.call lib c).2])

def answers (s : Shooter K) (cs : List (ShootCall K)) : Option (List Bool) := ((shooting lib).run s cs).map Prod.snd

/-! ## The decision -/

/-- `can_shoot`, of the difference of the gimbal to the command and of the command remembered to it. -/
def Shooter.canShootOf (s : Shooter K) (aimer : Aimer K) (target : Target K) (following jump : K) : Bool :=
  let distance := target.distance lib
  let tolerance := s.tolerance distance
  decide (|aimer.debugSelectedDeltaAngle| < s.fireWindow |target.x 7|) && decide (|following| < tolerance * 2.0) &&
      decide (|jump| < tolerance * 6.0) ||
    decide (distance < s.judgeDistance * 0.8) && decide (|following| < tolerance * 2.5)

/-- The guards before `can_shoot` pass, and the front target is this one. -/
structure Admits (s : Shooter K) (c : ShootCall K) (target : Target K) : Prop where
  autoFire : s.autoFire = true
  control : c.command.control = true
  tracked : ¬ (s.trackingOnlyFire = true ∧ c.trackerState = .lost)
  valid : c.aimer.debugAimPoint.valid = true
  front : c.targets.head? = some target

/-- The guards pass, and as angles the gimbal and the command remembered are near enough to the command to fire. -/
def FiresModTurns (s : Shooter K) (c : ShootCall K) : Prop :=
  ∃ target, Admits s c target ∧
    s.canShootOf lib c.aimer target (limitRad lib (c.gimbalYaw - c.command.yaw))
      (limitRad lib (s.lastCommand.yaw - c.command.yaw)) = true

variable {lib}

omit [FloorRing K] in
theorem canShoot_eq (s : Shooter K) (commandYaw : K) (aimer : Aimer K) (target : Target K) (gimbalYaw : K) :
    s.canShoot lib commandYaw aimer target gimbalYaw =
      s.canShootOf lib aimer target (gimbalYaw - commandYaw) (s.lastCommand.yaw - commandYaw) := rfl

omit [FloorRing K] in
theorem call_lastCommand (s : Shooter K) (c : ShootCall K) :
    (s.call lib c).1 = { s with lastCommand := c.command } := by
  unfold Shooter.call Shooter.shootIn
  dsimp only
  cases c.targets with
  | nil => rfl
  | cons target rest =>
    dsimp only
    split_ifs <;> rfl

omit [FloorRing K] in
/-- **When a call answers to fire.** -/
theorem call_iff (s : Shooter K) (c : ShootCall K) :
    (s.call lib c).2 = true ↔ ∃ target, Admits s c target ∧
      s.canShootOf lib c.aimer target (c.gimbalYaw - c.command.yaw) (s.lastCommand.yaw - c.command.yaw) = true := by
  unfold Shooter.call Shooter.shootIn
  dsimp only
  constructor
  · intro h
    cases htargets : c.targets with
    | nil =>
      rw [htargets] at h
      cases h
    | cons target rest =>
      rw [htargets] at h
      dsimp only at h
      split_ifs at h with h1 h2 h3
      rw [canShoot_eq] at h
      refine ⟨target, ⟨?_, ?_, h2, ?_, by rw [htargets]; rfl⟩, h⟩ <;> simp_all
  · rintro ⟨target, h, hcan⟩
    cases htargets : c.targets with
    | nil =>
      have hfront := h.front
      rw [htargets] at hfront
      cases hfront
    | cons first rest =>
      have hfront := h.front
      rw [htargets] at hfront
      cases hfront
      dsimp only
      rw [if_neg (by simp [h.autoFire, h.control]), if_neg h.tracked, if_neg (by simp [h.valid])]
      exact hcan

omit [LinearOrder K] [FloorRing K] in
theorem Command.turned_zero (command : Command K) : command.turned lib 0 = command := by
  unfold Command.turned
  rw [Int.cast_zero, mul_zero, add_zero]

omit [LinearOrder K] [FloorRing K] in
theorem Shooter.turned_zero (s : Shooter K) : s.turned lib 0 = s := by
  unfold Shooter.turned
  rw [Command.turned_zero]

omit [LinearOrder K] [FloorRing K] in
theorem ShootCall.turned_zero (c : ShootCall K) : c.turned lib (0, 0) = c := by
  unfold ShootCall.turned
  rw [Command.turned_zero, Int.cast_zero, mul_zero, add_zero]

variable (lib) in
omit [FloorRing K] in
theorem call_turned_iff (s : Shooter K) (c : ShootCall K) (k : ℤ) (turns : ℤ × ℤ) :
    ((s.turned lib k).call lib (c.turned lib turns)).2 = true ↔ ∃ target, Admits s c target ∧
      s.canShootOf lib c.aimer target (c.gimbalYaw - c.command.yaw + lib.turn * ((turns.2 - turns.1 : ℤ) : K))
        (s.lastCommand.yaw - c.command.yaw + lib.turn * ((k - turns.1 : ℤ) : K)) = true := by
  have hfollowing : c.gimbalYaw + lib.turn * turns.2 - (c.command.yaw + lib.turn * turns.1) =
      c.gimbalYaw - c.command.yaw + lib.turn * ((turns.2 - turns.1 : ℤ) : K) := by
    rw [Int.cast_sub]
    ring
  have hjump : s.lastCommand.yaw + lib.turn * k - (c.command.yaw + lib.turn * turns.1) =
      s.lastCommand.yaw - c.command.yaw + lib.turn * ((k - turns.1 : ℤ) : K) := by
    rw [Int.cast_sub]
    ring
  rw [call_iff, ← hfollowing, ← hjump]
  refine exists_congr fun target => and_congr_left fun _ => ⟨fun h => ?_, fun h => ?_⟩
  · exact ⟨h.autoFire, h.control, h.tracked, h.valid, h.front⟩
  · exact ⟨h.autoFire, h.control, h.tracked, h.valid, h.front⟩

omit [FloorRing K] in
theorem call_turned (s : Shooter K) (c : ShootCall K) (k : ℤ) (turns : ℤ × ℤ) :
    ((s.turned lib k).call lib (c.turned lib turns)).1 = (s.call lib c).1.turned lib turns.1 := by
  rw [call_lastCommand, call_lastCommand]
  rfl

section Ordered

variable [IsStrictOrderedRing K]

omit [FloorRing K] [IsStrictOrderedRing K] in
theorem canShootOf_mono {s : Shooter K} {aimer : Aimer K} {target : Target K} {following jump following' jump' : K}
    (hf : |following'| ≤ |following|) (hj : |jump'| ≤ |jump|)
    (h : s.canShootOf lib aimer target following jump = true) :
    s.canShootOf lib aimer target following' jump' = true := by
  unfold Shooter.canShootOf at h ⊢
  simp only [Bool.or_eq_true, Bool.and_eq_true, decide_eq_true_eq] at h ⊢
  rcases h with ⟨⟨hfront, hfollow⟩, hjump⟩ | ⟨hnear, hfollow⟩
  · exact .inl ⟨⟨hfront, hf.trans_lt hfollow⟩, hj.trans_lt hjump⟩
  · exact .inr ⟨hnear, hf.trans_lt hfollow⟩

omit [FloorRing K] [IsStrictOrderedRing K] in
theorem canShootOf_far {s : Shooter K} {aimer : Aimer K} {target : Target K} {following : K} (jump : K)
    (h2 : s.tolerance (target.distance lib) * 2.0 ≤ |following|)
    (h25 : s.tolerance (target.distance lib) * 2.5 ≤ |following|) :
    s.canShootOf lib aimer target following jump = false := by
  unfold Shooter.canShootOf
  dsimp only
  rw [decide_eq_false (not_lt.2 h2), decide_eq_false (not_lt.2 h25), Bool.and_false, Bool.and_false, Bool.false_and,
    Bool.or_false]

/-- **Some angles of the directions fire if and only if the least ones do.** -/
theorem exists_canShootOf_iff (hpi : 0 < lib.pi) (s : Shooter K) (aimer : Aimer K) (target : Target K)
    (following jump : K) :
    (∃ m n : ℤ, s.canShootOf lib aimer target (following + lib.turn * m) (jump + lib.turn * n) = true) ↔
      s.canShootOf lib aimer target (limitRad lib following) (limitRad lib jump) = true := by
  constructor
  · rintro ⟨m, n, h⟩
    exact canShootOf_mono (abs_limitRad_le hpi following m) (abs_limitRad_le hpi jump n) h
  · intro h
    refine ⟨-⌈(following - lib.pi) / (2 * lib.pi)⌉, -⌈(jump - lib.pi) / (2 * lib.pi)⌉, ?_⟩
    rw [Int.cast_neg, Int.cast_neg, mul_neg, mul_neg, ← sub_eq_add_neg, ← sub_eq_add_neg]
    exact h

variable (lib) in
theorem exists_not_canShootOf (hpi : 0 < lib.pi) (s : Shooter K) (aimer : Aimer K) (target : Target K) (following : K) :
    ∃ m : ℤ, ∀ jump, s.canShootOf lib aimer target (following + lib.turn * m) jump = false := by
  have hturn : 0 < lib.turn := by
    rw [Libm.turn]
    linarith
  obtain ⟨m, hm⟩ := Turns.exists_le_abs_add_turns hturn following
    (max (s.tolerance (target.distance lib) * 2.0) (s.tolerance (target.distance lib) * 2.5))
  exact ⟨m, fun jump => canShootOf_far jump ((le_max_left _ _).trans hm) ((le_max_right _ _).trans hm)⟩

theorem call_turned_of_not_fires (hpi : 0 < lib.pi) {s : Shooter K} {c : ShootCall K} (h : ¬ FiresModTurns lib s c) (k : ℤ)
    (turns : ℤ × ℤ) : ((s.turned lib k).call lib (c.turned lib turns)).2 = false := by
  rw [← Bool.not_eq_true, call_turned_iff]
  rintro ⟨target, hadmits, hcan⟩
  exact h ⟨target, hadmits, (exists_canShootOf_iff hpi s c.aimer target _ _).1 ⟨_, _, hcan⟩⟩

/-- **A call that fires as angles fires for some of them and not for others.** -/
theorem exists_call_turned_of_fires (hpi : 0 < lib.pi) {s : Shooter K} {c : ShootCall K} (h : FiresModTurns lib s c) :
    ∃ k m k' m', ((s.turned lib k).call lib (c.turned lib (0, m))).2 = true ∧
      ((s.turned lib k').call lib (c.turned lib (0, m'))).2 = false := by
  obtain ⟨target, hadmits, hcan⟩ := h
  obtain ⟨m, k, hmk⟩ := (exists_canShootOf_iff hpi s c.aimer target _ _).2 hcan
  obtain ⟨m', hm'⟩ := exists_not_canShootOf lib hpi s c.aimer target (c.gimbalYaw - c.command.yaw)
  refine ⟨k, m, 0, m', ?_, ?_⟩
  · rw [call_turned_iff]
    exact ⟨target, hadmits, by rwa [sub_zero, sub_zero]⟩
  · rw [← Bool.not_eq_true, call_turned_iff]
    rintro ⟨target', hadmits', hcan'⟩
    have hsame : target = target' := Option.some.inj (hadmits.front.symm.trans hadmits'.front)
    rw [← hsame, sub_zero, hm'] at hcan'
    cases hcan'

/-! ## Runs -/

omit [FloorRing K] [IsStrictOrderedRing K] in
theorem answers_cons (s : Shooter K) (c : ShootCall K) (cs : List (ShootCall K)) :
    answers lib s (c :: cs) = (answers lib (s.call lib c).1 cs).map fun rest => (s.call lib c).2 :: rest := by
  show (((shooting lib).run (s.call lib c).1 cs).map fun q => (q.1, [(s.call lib c).2] ++ q.2)).map Prod.snd = _
  rw [answers, Option.map_map, Option.map_map]
  rfl

variable (lib) in
omit [FloorRing K] [IsStrictOrderedRing K] in
theorem exists_answers : ∀ (cs : List (ShootCall K)) (s : Shooter K), ∃ o, answers lib s cs = some o
  | [], _ => ⟨[], rfl⟩
  | c :: cs, s => by
    obtain ⟨o, ho⟩ := exists_answers cs (s.call lib c).1
    exact ⟨(s.call lib c).2 :: o, by rw [answers_cons, ho]; rfl⟩

omit [FloorRing K] [IsStrictOrderedRing K] in
theorem answers_cons_eq {s s' : Shooter K} {c c' : ShootCall K} {cs cs' : List (ShootCall K)} :
    answers lib s' (c' :: cs') = answers lib s (c :: cs) ↔ (s'.call lib c').2 = (s.call lib c).2 ∧
      answers lib (s'.call lib c').1 cs' = answers lib (s.call lib c).1 cs := by
  obtain ⟨o', ho'⟩ := exists_answers lib cs' (s'.call lib c').1
  obtain ⟨o, ho⟩ := exists_answers lib cs (s.call lib c).1
  rw [answers_cons, answers_cons, ho', ho, Option.map_some, Option.map_some, Option.some_inj, Option.some_inj,
    List.cons.injEq]

/-- All angles of the directions of a run's yaws answer alike. -/
def WrapInvariant (lib : Libm K) (s : Shooter K) (cs : List (ShootCall K)) : Prop :=
  ∀ (k : ℤ) (turns : List (ℤ × ℤ)), turns.length = cs.length →
    answers lib (s.turned lib k) (List.zipWith (ShootCall.turned lib) cs turns) = answers lib s cs

theorem wrapInvariant_cons (hpi : 0 < lib.pi) (s : Shooter K) (c : ShootCall K) (cs : List (ShootCall K)) :
    WrapInvariant lib s (c :: cs) ↔ ¬ FiresModTurns lib s c ∧ WrapInvariant lib (s.call lib c).1 cs := by
  constructor
  · intro h
    have hhead : ∀ k m, ((s.turned lib k).call lib (c.turned lib (0, m))).2 = (s.call lib c).2 := fun k m =>
      (answers_cons_eq.1 (h k ((0, m) :: List.replicate cs.length (0, 0)) (by simp))).1
    refine ⟨fun hfires => ?_, fun k turns hlen => ?_⟩
    · obtain ⟨k, m, k', m', htrue, hfalse⟩ := exists_call_turned_of_fires hpi hfires
      rw [hhead] at htrue hfalse
      rw [htrue] at hfalse
      cases hfalse
    · have htail := (answers_cons_eq.1 (h 0 ((k, 0) :: turns) (by simpa using hlen))).2
      rwa [call_turned] at htail
  · rintro ⟨hquiet, h⟩ k turns hlen
    cases turns with
    | nil => cases hlen
    | cons t turns =>
      refine answers_cons_eq.2 ⟨?_, ?_⟩
      · have hzero := call_turned_of_not_fires hpi hquiet 0 (0, 0)
        rw [Shooter.turned_zero, ShootCall.turned_zero] at hzero
        rw [call_turned_of_not_fires hpi hquiet, hzero]
      · rw [call_turned]
        exact h t.1 turns (by simpa using hlen)

/-- **A run of calls answers alike for all angles of its directions exactly if none of its calls fires as angles.** -/
theorem wrapInvariant_iff (hpi : 0 < lib.pi) (cs : List (ShootCall K)) (s : Shooter K) :
    WrapInvariant lib s cs ↔ (shooting lib).Along (fun s c => ¬ FiresModTurns lib s c) s cs := by
  induction cs generalizing s with
  | nil =>
    refine iff_of_true (fun k turns hlen => ?_) trivial
    rw [List.length_eq_zero_iff.1 hlen]
    rfl
  | cons c cs ih => rw [wrapInvariant_cons hpi, Machine.along_cons_of_step rfl, ih]

end Ordered

/-- **Of the reals**: a run of calls answers alike for all angles of its directions exactly if none of its calls fires as
angles. -/
theorem shoot_wrapInvariant_iff (s : Shooter ℝ) (cs : List (ShootCall ℝ)) :
    WrapInvariant Dual.realLibm s cs ↔
      (shooting Dual.realLibm).Along (fun s c => ¬ FiresModTurns Dual.realLibm s c) s cs :=
  wrapInvariant_iff Real.pi_pos cs s

/-! ## Across the cut -/

noncomputable def backCommand : Command ℝ := ⟨true, false, Real.pi, 0, 3.0⟩

noncomputable def cutShooter : Shooter ℝ := ⟨0.05, 0.05, 5.0, true, 1, 1, 10.0, false, backCommand⟩

/-- The gimbal is a hundredth of a radian past the command, on the other side of the cut. -/
noncomputable def cutCall : ShootCall ℝ :=
  ⟨backCommand, ⟨⟨true, -3.0, 0, 0, 0⟩, 0, 0, -1, 0, 0, 1, 0.5, 0, 0, 10.0⟩, [Dual.restingTarget 3.0 0.2],
    -Real.pi + 0.01, .tracking⟩

theorem admits_cutCall : Admits cutShooter cutCall (Dual.restingTarget 3.0 0.2) where
  autoFire := rfl
  control := rfl
  tracked h := Bool.false_ne_true h.1
  valid := rfl
  front := rfl

theorem tolerance_cutShooter (distance : ℝ) : cutShooter.tolerance distance = 0.075 := by
  unfold Shooter.tolerance cutShooter
  dsimp only
  rw [ite_self]
  norm_num

/-- **The gimbal follows, and fires only once its yaw is a turn more.** -/
theorem cutCall_not_wrapInvariant :
    (cutShooter.call Dual.realLibm cutCall).2 = false ∧
      (cutShooter.call Dual.realLibm (cutCall.turned Dual.realLibm (0, 1))).2 = true ∧
      ¬ WrapInvariant Dual.realLibm cutShooter [cutCall] := by
  have hpi := Real.pi_gt_three
  have hplain : (cutShooter.call Dual.realLibm cutCall).2 = false := by
    have hfar : 5 ≤ |cutCall.gimbalYaw - cutCall.command.yaw| := by
      rw [le_abs]
      right
      unfold cutCall backCommand
      dsimp only
      norm_num
      linarith
    rw [← Bool.not_eq_true, call_iff]
    rintro ⟨target, -, hcan⟩
    rw [canShootOf_far _ (le_trans ?_ hfar) (le_trans ?_ hfar)] at hcan
    · cases hcan
    all_goals
      rw [tolerance_cutShooter]
      norm_num
  have hturned : (cutShooter.call Dual.realLibm (cutCall.turned Dual.realLibm (0, 1))).2 = true := by
    have hcall := call_turned_iff Dual.realLibm cutShooter cutCall 0 (0, 1)
    rw [Shooter.turned_zero] at hcall
    refine hcall.2 ⟨_, admits_cutCall, ?_⟩
    have hfollowing : cutCall.gimbalYaw - cutCall.command.yaw + Libm.turn Dual.realLibm * ((1 - 0 : ℤ) : ℝ) = 0.01 := by
      show -Real.pi + 0.01 - Real.pi + 2 * Real.pi * ((1 - 0 : ℤ) : ℝ) = 0.01
      norm_num
      ring
    have hjump : cutShooter.lastCommand.yaw - cutCall.command.yaw + Libm.turn Dual.realLibm * ((0 - 0 : ℤ) : ℝ) = 0 := by
      show Real.pi - Real.pi + 2 * Real.pi * ((0 - 0 : ℤ) : ℝ) = 0
      norm_num
    have hfront : |cutCall.aimer.debugSelectedDeltaAngle| <
        cutShooter.fireWindow |(Dual.restingTarget 3.0 0.2 : Target ℝ).x 7| := by
      show |(0 : ℝ)| < (if |(0 : ℝ)| > 10.0 then (1 : ℝ) else 1) * 1.15
      rw [ite_self]
      norm_num
    rw [hfollowing, hjump]
    unfold Shooter.canShootOf
    dsimp only
    rw [tolerance_cutShooter, decide_eq_true hfront, decide_eq_true (by norm_num), decide_eq_true (by norm_num)]
    rfl
  refine ⟨hplain, hturned, fun h => ?_⟩
  have hsame := (answers_cons_eq.1 (h 0 [(0, 1)] rfl)).1
  rw [Shooter.turned_zero, hplain, hturned] at hsame
  cases hsame

end Vision
end LfSentry
