import LfSentry.BuffTarget
import LfSentry.RestingTarget
import Mathlib.Analysis.Real.Pi.Bounds
/-!
# BladeVote — the blade that is seen and the vote on the direction (`sp_vision_25/tasks/auto_buff/buff_target.cpp`)

Before it votes `update` moves the roll of the filter by fifths of a turn to the blade that is seen: what is left between
the two rolls is how far the rune turned, and its sign is the vote (`followed`).  A vote beyond 50 stays, and the direction
with it, whatever is called after (`run_clockwise`).
-/
namespace LfSentry
namespace Vision

open AddCommGroup

variable {n : Nat}

/-! ## The nearest blade -/

section Nearest

variable {K : Type} [Field K] [LinearOrder K] [FloorRing K] [IsStrictOrderedRing K]

theorem abs_round_div_le_five {d h : K} (hh : 0 < h) (hd : |d| ≤ 2 * h) : |round (d / (2 * h / 5))| ≤ 5 := by
  have hq : 0 < 2 * h / 5 := by positivity
  have hx : |d / (2 * h / 5)| ≤ 5 := by
    rw [abs_div, abs_of_pos hq, div_le_iff₀ hq]
    linarith
  have hround := abs_sub_round (d / (2 * h / 5))
  have hlt : |(round (d / (2 * h / 5)) : K)| < 6 := by
    have htri := abs_sub_abs_le_abs_sub (round (d / (2 * h / 5)) : K) (d / (2 * h / 5))
    rw [abs_sub_comm] at htri
    linarith
  have hint : |round (d / (2 * h / 5))| < 6 := by exact_mod_cast hlt
  omega

variable (num : Numerics K)

theorem shifted_eq (x5 : K) (i : Nat) :
    x5 + ((i : K) - 5.0) * 2.0 * num.pi / 5.0 = x5 + ((i : ℤ) - 5 : ℤ) * (2 * num.pi / 5) := by
  push_cast
  norm_num
  ring

theorem exists_near (hpi : 0 < num.pi) {x5 roll : K} (hx5 : |x5| ≤ num.pi) (hroll : |roll| ≤ num.pi)
    (hodd : ∀ m : ℤ, roll - x5 ≠ (2 * m + 1) * (num.pi / 5)) :
    ∃ i ∈ List.range 11, |x5 + ((i : K) - 5.0) * 2.0 * num.pi / 5.0 - roll| < num.pi / 5.0 := by
  have hq : 0 < 2 * num.pi / 5 := by positivity
  have hd : |roll - x5| ≤ 2 * num.pi := by linarith [abs_sub roll x5]
  have hle := abs_le.1 (abs_round_div_le_five hpi hd)
  have hnear := Turns.abs_sub_round_mul_lt hq (d := roll - x5) fun m hm => hodd m (by rw [hm]; ring)
  have hindex : ((round ((roll - x5) / (2 * num.pi / 5)) + 5).toNat : ℤ) - 5 = round ((roll - x5) / (2 * num.pi / 5)) := by
    omega
  refine ⟨(round ((roll - x5) / (2 * num.pi / 5)) + 5).toNat, List.mem_range.2 (by omega), ?_⟩
  rw [shifted_eq, hindex, abs_sub_comm, ← sub_sub, show (5.0 : K) = 5 by norm_num]
  linarith

/-- **The roll of the filter is moved by whole blades, to less than half a blade from the measured one.** -/
theorem followBlade_near (hpi : 0 < num.pi) {x5 roll : K} (hx5 : |x5| ≤ num.pi) (hroll : |roll| ≤ num.pi)
    (hodd : ∀ m : ℤ, roll - x5 ≠ (2 * m + 1) * (num.pi / 5)) :
    (∃ k : ℤ, followBlade num x5 roll = x5 + k * (2 * num.pi / 5)) ∧ |followBlade num x5 roll - roll| < num.pi / 5 := by
  have h5 : (5.0 : K) = 5 := by norm_num
  have h12 : (12.0 : K) = 12 := by norm_num
  unfold followBlade
  by_cases hjump : |roll - x5| > num.pi / 12.0
  · rw [if_pos hjump]
    have hmem : ∀ i : K, (i ∈ do let a ← List.range 11; pure (a : K)) ↔ ∃ a ∈ List.range 11, (a : K) = i := by
      simp [eq_comm]
    split
    · rename_i i hfind
      have hnear : decide (|x5 + (i - 5.0) * 2.0 * num.pi / 5.0 - roll| < num.pi / 5.0) = true := by
        simpa only using List.find?_some hfind
      obtain ⟨a, -, rfl⟩ := (hmem i).1 (List.mem_of_find?_eq_some hfind)
      refine ⟨⟨(a : ℤ) - 5, shifted_eq num x5 a⟩, lt_of_lt_of_eq (of_decide_eq_true hnear) ?_⟩
      rw [h5]
    · rename_i hfind
      obtain ⟨a, ha, hnear⟩ := exists_near num hpi hx5 hroll hodd
      exact absurd (decide_eq_true hnear) (List.find?_eq_none.1 hfind a ((hmem a).2 ⟨a, ha, rfl⟩))
  · rw [if_neg hjump]
    rw [h12, not_lt, abs_sub_comm] at hjump
    exact ⟨⟨0, by rw [Int.cast_zero, zero_mul, add_zero]⟩, by linarith⟩

/-- What the jump correction and the vote make of a target that sees a rune with this roll. -/
structure Followed [NeZero n] (target followed : BuffTarget K n) (roll : K) : Prop where
  blades : ∃ k : ℤ, followed.ekf.x 5 = target.ekf.x 5 + k * (2 * num.pi / 5)
  near : |followed.ekf.x 5 - roll| < num.pi / 5
  vote : ∀ d, d ≡ roll - target.ekf.x 5 [PMOD 2 * num.pi / 5] → |d| < num.pi / 5 →
    followed.voter.votes = if |target.voter.votes| > 50 then target.voter.votes
      else if d < 0 then target.voter.votes - 1 else target.voter.votes + 1

omit [FloorRing K] [IsStrictOrderedRing K] in
theorem follow_x5 [NeZero n] (target : BuffTarget K n) (p : PowerRune K) :
    (target.follow num p).ekf.x 5 = followBlade num (target.ekf.x 5) (p.yprInWorld 2) := Function.update_self ..

omit [Field K] [FloorRing K] [IsStrictOrderedRing K] in
theorem vote_votes (voter : Voter) (angleLast angleNow : K) : (voter.vote angleLast angleNow).votes =
    if |voter.votes| > 50 then voter.votes
    else if angleLast > angleNow then voter.votes - 1 else voter.votes + 1 := by
  unfold Voter.vote
  split_ifs <;> rfl

/-- **The vote is the sign of the turn of the rune, whichever blade is seen.** -/
theorem followed [NeZero n] (hpi : 0 < num.pi) {target : BuffTarget K n} {p : PowerRune K}
    (hx5 : |target.ekf.x 5| ≤ num.pi) (hroll : |p.yprInWorld 2| ≤ num.pi)
    (hodd : ∀ m : ℤ, p.yprInWorld 2 - target.ekf.x 5 ≠ (2 * m + 1) * (num.pi / 5)) :
    Followed num target (target.follow num p) (p.yprInWorld 2) := by
  obtain ⟨⟨k, hk⟩, hnear⟩ := followBlade_near num hpi hx5 hroll hodd
  rw [← follow_x5] at hk hnear
  refine ⟨⟨k, hk⟩, hnear, fun d hd hdlt => ?_⟩
  have hleft : d = p.yprInWorld 2 - (target.follow num p).ekf.x 5 := by
    have hhalf : 2 * num.pi / 5 / 2 = num.pi / 5 := by ring
    refine Turns.eq_of_modEq_of_abs_lt (by rwa [hhalf]) (by rwa [hhalf, abs_sub_comm]) (hd.trans ?_)
    have hsame := Turns.sub_turns_modEq (2 * num.pi / 5) (p.yprInWorld 2 - target.ekf.x 5) k
    rw [hk, ← sub_sub, mul_comm (k : K)]
    exact hsame.symm
  have hsign : d < 0 ↔ (target.follow num p).ekf.x 5 > p.yprInWorld 2 := by rw [hleft, sub_neg, gt_iff_lt]
  rw [if_congr hsign rfl rfl]
  exact vote_votes ..

end Nearest

/-! ## A settled vote -/

section Settled

variable {K : Type} [Field K] [LinearOrder K] [FloorRing K] (num : Numerics K)
  (inverse : ∀ {k : Nat}, Matrix (Fin k) (Fin k) K → Matrix (Fin k) (Fin k) K)

inductive RuneCall (K : Type)
  | predict (dt : K)
  | update (nowtime : K) (p : PowerRune K)
  | getTarget (p : Option (PowerRune K)) (timestamp : Int)

def SmallTarget.call (target : SmallTarget K) : RuneCall K → SmallTarget K
  | .predict dt => target.predict num dt
  | .update nowtime p => target.update num inverse nowtime p
  | .getTarget p timestamp => target.getTarget num inverse p timestamp

def BigTarget.call (target : BigTarget K) : RuneCall K → BigTarget K
  | .predict dt => target.predict num dt
  | .update nowtime p => target.update num inverse nowtime p
  | .getTarget p timestamp => target.getTarget num inverse p timestamp

omit [Field K] [FloorRing K] in
theorem vote_of_settled {voter : Voter} (h : |voter.votes| > 50) (angleLast angleNow : K) :
    voter.vote angleLast angleNow = voter := if_pos h

theorem SmallTarget.enter_voter (target : SmallTarget K) (p : Option (PowerRune K)) (timestamp : Int) :
    (target.enter num p timestamp).1.voter = target.voter := by
  unfold SmallTarget.enter SmallTarget.started
  cases p with
  | none => rfl
  | some p =>
    dsimp only
    split_ifs <;> rfl

theorem SmallTarget.call_voter {target : SmallTarget K} (h : |target.voter.votes| > 50) (c : RuneCall K) :
    (target.call num inverse c).voter = target.voter := by
  cases c with
  | predict dt => rfl
  | update nowtime p => exact vote_of_settled h _ _
  | getTarget p timestamp =>
    have henter := target.enter_voter num p timestamp
    unfold SmallTarget.call SmallTarget.getTarget
    dsimp only
    generalize target.enter num p timestamp = entry at henter ⊢
    obtain ⟨entered, _ | ⟨timeGap, rune⟩⟩ := entry
    · exact henter
    · have hupdate : (entered.update num inverse timeGap rune).voter = entered.voter :=
        vote_of_settled (by rwa [show entered.voter = _ from henter]) _ _
      dsimp only
      split_ifs <;> exact hupdate.trans henter

theorem BigTarget.enter_voter (target : BigTarget K) (p : Option (PowerRune K)) (timestamp : Int) :
    (target.enter num p timestamp).1.voter = target.voter := by
  unfold BigTarget.enter BigTarget.started
  cases p with
  | none => rfl
  | some p =>
    dsimp only
    split_ifs <;> rfl

theorem BigTarget.call_voter {target : BigTarget K} (h : |target.voter.votes| > 50) (c : RuneCall K) :
    (target.call num inverse c).voter = target.voter := by
  cases c with
  | predict dt => rfl
  | update nowtime p => exact vote_of_settled h _ _
  | getTarget p timestamp =>
    have henter := target.enter_voter num p timestamp
    unfold BigTarget.call BigTarget.getTarget
    dsimp only
    generalize target.enter num p timestamp = entry at henter ⊢
    obtain ⟨entered, _ | ⟨timeGap, rune⟩⟩ := entry
    · exact henter
    · have hupdate : (entered.update num inverse timeGap rune).voter = entered.voter :=
        vote_of_settled (by rwa [show entered.voter = _ from henter]) _ _
      dsimp only
      split_ifs <;> exact hupdate.trans henter

/-- **A settled vote stays through whatever is called.** -/
theorem SmallTarget.run_voter (calls : List (RuneCall K)) {target : SmallTarget K} (h : |target.voter.votes| > 50) :
    (calls.foldl (SmallTarget.call num inverse) target).voter = target.voter := by
  induction calls generalizing target with
  | nil => rfl
  | cons c calls ih =>
    have hc := target.call_voter num inverse h c
    rw [List.foldl_cons, ih (by rwa [hc]), hc]

theorem BigTarget.run_voter (calls : List (RuneCall K)) {target : BigTarget K} (h : |target.voter.votes| > 50) :
    (calls.foldl (BigTarget.call num inverse) target).voter = target.voter := by
  induction calls generalizing target with
  | nil => rfl
  | cons c calls ih =>
    have hc := target.call_voter num inverse h c
    rw [List.foldl_cons, ih (by rwa [hc]), hc]

end Settled

/-! ## Both targets -/

/-- A rune whose roll is not half way between two blades of the filter's. -/
structure Seen [NeZero n] (target : BuffTarget ℝ n) (measured : ℝ) : Prop where
  x5 : |target.ekf.x 5| ≤ Real.pi
  roll : |measured| ≤ Real.pi
  odd : ∀ m : ℤ, measured - target.ekf.x 5 ≠ (2 * m + 1) * (Real.pi / 5)

/-- **`update` follows the blade that is seen and votes for the direction of the turn; a settled direction stays.** -/
theorem blade_jump_and_vote (inverse : ∀ {k : Nat}, Matrix (Fin k) (Fin k) ℝ → Matrix (Fin k) (Fin k) ℝ) :
    (∀ (target : SmallTarget ℝ) (nowtime : ℝ) (p : PowerRune ℝ), Seen target.toBuffTarget (p.yprInWorld 2) →
      Followed realNumerics target.toBuffTarget (target.follow realNumerics p) (p.yprInWorld 2) ∧
        (target.update realNumerics inverse nowtime p).voter = (target.follow realNumerics p).voter) ∧
    (∀ (target : BigTarget ℝ) (nowtime : ℝ) (p : PowerRune ℝ), Seen target.toBuffTarget (p.yprInWorld 2) →
      Followed realNumerics target.toBuffTarget (target.follow realNumerics p) (p.yprInWorld 2) ∧
        (target.update realNumerics inverse nowtime p).voter = (target.follow realNumerics p).voter) ∧
    (∀ (target : SmallTarget ℝ) (calls : List (RuneCall ℝ)), |target.voter.votes| > 50 →
      (calls.foldl (SmallTarget.call realNumerics inverse) target).voter.clockwise = target.voter.clockwise) ∧
    (∀ (target : BigTarget ℝ) (calls : List (RuneCall ℝ)), |target.voter.votes| > 50 →
      (calls.foldl (BigTarget.call realNumerics inverse) target).voter.clockwise = target.voter.clockwise) := by
  have hpi : 0 < realNumerics.pi := Real.pi_pos
  refine ⟨fun target nowtime p h => ⟨?_, rfl⟩, fun target nowtime p h => ⟨?_, rfl⟩, fun target calls h => ?_,
    fun target calls h => ?_⟩
  · exact followed realNumerics hpi h.x5 h.roll h.odd
  · exact followed realNumerics hpi h.x5 h.roll h.odd
  · rw [target.run_voter realNumerics inverse calls h]
  · rw [target.run_voter realNumerics inverse calls h]

/-- A rune whose blade is one on from the filter's, and a little more. -/
def nextBlade : PowerRune ℝ := ⟨0, ![0, 0, 1.3], 0⟩

theorem seen_nextBlade : Seen (BuffTarget.fresh : BuffTarget ℝ 7) (nextBlade.yprInWorld 2) where
  x5 := by
    show |(0 : ℝ)| ≤ Real.pi
    rw [abs_zero]
    exact Real.pi_pos.le
  roll := by
    show |(1.3 : ℝ)| ≤ Real.pi
    rw [abs_of_pos (by norm_num)]
    linarith [Real.pi_gt_three]
  odd m := by
    show (1.3 : ℝ) - 0 ≠ (2 * m + 1) * (Real.pi / 5)
    have hlo := Real.pi_gt_d2
    have hhi := Real.pi_lt_d2
    intro heq
    -- the roll is more than two fifths of half a turn and less than three
    have htwo : (2 : ℝ) < 2 * m + 1 := by
      by_contra hle
      nlinarith
    have hthree : (2 * m + 1 : ℝ) < 3 := by
      by_contra hle
      nlinarith
    have hm : 2 < 2 * m + 1 ∧ 2 * m + 1 < 3 := ⟨by exact_mod_cast htwo, by exact_mod_cast hthree⟩
    omega

/-- The next blade is followed and its vote counts; a settled direction stays although an update votes the other way. -/
theorem blade_jump_and_vote_nextBlade :
    Followed realNumerics (BuffTarget.fresh : BuffTarget ℝ 7)
        ((BuffTarget.fresh : BuffTarget ℝ 7).follow realNumerics nextBlade) 1.3 ∧
      ((BuffTarget.fresh : BuffTarget ℝ 7).follow realNumerics nextBlade).voter.votes = 1 ∧
      ([.update 2 nextBlade, .predict 1].foldl (SmallTarget.call realNumerics id) ⟨{ (BuffTarget.fresh : BuffTarget ℝ 7) with
        voter := ⟨-51⟩ }⟩).voter.clockwise = -1 := by
  have hfollowed : Followed realNumerics (BuffTarget.fresh : BuffTarget ℝ 7) (BuffTarget.fresh.follow realNumerics nextBlade) 1.3 :=
    ((blade_jump_and_vote id).1 ⟨BuffTarget.fresh⟩ 0 nextBlade seen_nextBlade).1
  have hlo := Real.pi_gt_d2
  have hhi := Real.pi_lt_d2
  have hturned : (1.3 - 2 * Real.pi / 5 : ℝ) ≡ 1.3 - 0 [PMOD 2 * Real.pi / 5] :=
    AddCommGroup.modEq_iff_zsmul.2 ⟨1, by rw [one_zsmul]; ring⟩
  have hsmall : |1.3 - 2 * Real.pi / 5| < Real.pi / 5 := by
    rw [abs_of_pos (by linarith)]
    linarith
  have hvote := hfollowed.vote _ hturned hsmall
  refine ⟨hfollowed, hvote.trans ?_, (blade_jump_and_vote id).2.2.1 ⟨{ (BuffTarget.fresh : BuffTarget ℝ 7) with
    voter := ⟨-51⟩ }⟩ [.update 2 nextBlade, .predict 1] (show |(-51 : ℤ)| > 50 by decide)⟩
  have hunsettled : ¬ |(BuffTarget.fresh : BuffTarget ℝ 7).voter.votes| > 50 := show ¬ |(0 : ℤ)| > 50 by decide
  rw [if_neg hunsettled, if_neg (by linarith)]
  rfl

end Vision
end LfSentry
