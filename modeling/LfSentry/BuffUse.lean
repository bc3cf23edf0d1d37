import LfSentry.BuffLoss
import LfSentry.FilterUpdate
import Mathlib.Analysis.Real.Pi.Bounds
/-!
# BuffUse — when a rune's filter is usable (`sp_vision_25/tasks/auto_buff/buff_target.cpp`)

What `SmallTarget` does about a filter that diverges `BigTarget` forgets: it says that it is usable
(`get_target_usable_iff`).  The speed of a big rune is a sine of the time since the first frame, so the later a filter is
started the stronger the frequency and the speed are tied together in its first prediction.  A filter that starts after half a
minute is thrown out of its limits by a roll that is 15 degrees off, and the target is still said to be usable
(`diverged_usable`).
-/
namespace LfSentry
namespace Vision

open Matrix

section Limits

variable {K : Type} [Field K] [LinearOrder K]

/-- Within the limits of the divergence test of `SmallTarget::get_target`. -/
def SmallTarget.InLimits (num : Numerics K) (target : SmallTarget K) : Prop :=
  |target.ekf.x 6| ≤ smallW num + num.pi / 18.0 ∧ smallW num - num.pi / 18.0 ≤ |target.ekf.x 6|

/-- Within those of `BigTarget::get_target`. -/
structure BigTarget.InLimits (target : BigTarget K) : Prop where
  a_le : target.ekf.x 7 ≤ 1.045 * 1.5
  le_a : 0.78 / 1.5 ≤ target.ekf.x 7
  w_le : target.ekf.x 8 ≤ 2.0 * 1.5
  le_w : 1.884 / 1.5 ≤ target.ekf.x 8

end Limits

section Use

variable {K : Type} [Field K] [LinearOrder K] [FloorRing K] (num : Numerics K)
  (inverse : ∀ {k : Nat}, Matrix (Fin k) (Fin k) K → Matrix (Fin k) (Fin k) K)

/-- The branch of `BigTarget::get_target` for a filter that diverges: the call comes to it with the filter updated. -/
def BigTarget.Diverges (target : BigTarget K) (p : Option (PowerRune K)) (timestamp : Int) : Prop :=
  ∃ timeGap rune, (target.enter num p timestamp).2 = some (timeGap, rune) ∧
    ¬ ((target.enter num p timestamp).1.update num inverse timeGap rune).InLimits

/-- A target that `is_unsolve()` does not call unsolvable has seen a rune in the call, and its filter is in the limits. -/
def TargetClass.UsableLaw {T I : Type} [DecidableEq I] (c : TargetClass K T) (limits : T → Prop) (s : Family I T)
    (i : RuneFrame K I) : Prop :=
  c.unsolvable (c.after s i) = false → i.rune.isSome = true ∧ limits (c.after s i)

variable {num} {inverse}

theorem SmallTarget.enter_none {target : SmallTarget K} {p : Option (PowerRune K)} {timestamp : Int}
    (h : (target.enter num p timestamp).2 = none) : (target.enter num p timestamp).1.unsolvable = true := by
  unfold SmallTarget.enter at h ⊢
  cases p with
  | none => rfl
  | some p =>
    dsimp only at h ⊢
    split_ifs at h ⊢
    rfl

theorem BigTarget.enter_none {target : BigTarget K} {p : Option (PowerRune K)} {timestamp : Int}
    (h : (target.enter num p timestamp).2 = none) : (target.enter num p timestamp).1.unsolvable = true := by
  unfold BigTarget.enter at h ⊢
  cases p with
  | none => rfl
  | some p =>
    dsimp only at h ⊢
    split_ifs at h ⊢
    rfl

/-- **`SmallTarget` is usable within its limits only.** -/
theorem SmallTarget.getTarget_usable (target : SmallTarget K) (p : Option (PowerRune K)) (timestamp : Int)
    (h : (target.getTarget num inverse p timestamp).unsolvable = false) :
    p.isSome = true ∧ (target.getTarget num inverse p timestamp).InLimits num := by
  cases p with
  | none => cases h
  | some p =>
    refine ⟨rfl, ?_⟩
    have hnone := @SmallTarget.enter_none K _ _ _ num target (some p) timestamp
    unfold SmallTarget.getTarget at h ⊢
    generalize target.enter num (some p) timestamp = entry at hnone h ⊢
    obtain ⟨entered, _ | ⟨timeGap, rune⟩⟩ := entry
    · rw [show entered.unsolvable = true from hnone rfl] at h
      cases h
    · dsimp only at h ⊢
      split_ifs at h ⊢ with hdiverged
      rw [not_or, not_lt, not_lt] at hdiverged
      exact hdiverged

/-- **`BigTarget` is as well, unless its filter diverges in the call.** -/
theorem BigTarget.getTarget_usable_iff (target : BigTarget K) (p : Option (PowerRune K)) (timestamp : Int) :
    ((target.getTarget num inverse p timestamp).unsolvable = false →
      p.isSome = true ∧ (target.getTarget num inverse p timestamp).InLimits) ↔
    ¬ target.Diverges num inverse p timestamp := by
  have hnone := @BigTarget.enter_none K _ _ _ num target p timestamp
  have hsome : (target.enter num p timestamp).2.isSome = true → p.isSome = true := by
    unfold BigTarget.enter
    cases p with
    | none => exact id
    | some p => exact fun _ => rfl
  unfold BigTarget.getTarget BigTarget.Diverges
  generalize target.enter num p timestamp = entry at hnone hsome ⊢
  obtain ⟨entered, _ | ⟨timeGap, rune⟩⟩ := entry
  · refine iff_of_true (fun h => ?_) (by simp)
    rw [show entered.unsolvable = true from hnone rfl] at h
    cases h
  · have hlimits : (entered.update num inverse timeGap rune).InLimits ↔
        ¬ ((entered.update num inverse timeGap rune).ekf.x 7 > 1.045 * 1.5 ∨
          (entered.update num inverse timeGap rune).ekf.x 7 < 0.78 / 1.5 ∨
          (entered.update num inverse timeGap rune).ekf.x 8 > 2.0 * 1.5 ∨
          (entered.update num inverse timeGap rune).ekf.x 8 < 1.884 / 1.5) := by
      simp only [not_or, not_lt, gt_iff_lt]
      exact ⟨fun h => ⟨h.a_le, h.le_a, h.w_le, h.le_w⟩, fun h => ⟨h.1, h.2.1, h.2.2.1, h.2.2.2⟩⟩
    have hiff : (¬ ∃ timeGap' rune', some (timeGap, rune) = some (timeGap', rune') ∧
        ¬ (entered.update num inverse timeGap' rune').InLimits) ↔ (entered.update num inverse timeGap rune).InLimits := by
      refine ⟨fun h => by_contra fun hno => h ⟨_, _, rfl, hno⟩, ?_⟩
      rintro h ⟨_, _, heq, hno⟩
      rw [Option.some.injEq, Prod.mk.injEq] at heq
      obtain ⟨rfl, rfl⟩ := heq
      exact hno h
    rw [hiff]
    dsimp only
    split_ifs with hdiverged
    · -- the flag that `update` has cleared stays
      refine iff_of_false (fun h => ?_) (fun h => hlimits.1 h hdiverged)
      have hin := (h rfl).2
      exact hlimits.1 ⟨hin.a_le, hin.le_a, hin.w_le, hin.le_w⟩ hdiverged
    · exact iff_of_true (fun _ => ⟨hsome rfl, hlimits.2 hdiverged⟩) (hlimits.2 hdiverged)

/-- **When a target is usable only as it should be**: `SmallTarget` along every run, `BigTarget` along the runs in which no
filter diverges. -/
theorem get_target_usable_iff (num : Numerics K)
    (inverse : ∀ {k : Nat}, Matrix (Fin k) (Fin k) K → Matrix (Fin k) (Fin k) K) {I : Type} [DecidableEq I]
    (small : Family I (SmallTarget K)) (big : Family I (BigTarget K)) (frames : List (RuneFrame K I)) :
    ((smallClass num inverse).machine I).Along ((smallClass num inverse).UsableLaw (SmallTarget.InLimits num)) small frames ∧
    (((bigClass num inverse).machine I).Along ((bigClass num inverse).UsableLaw BigTarget.InLimits) big frames ↔
      ((bigClass num inverse).machine I).Along
        (fun s i => ¬ ((bigClass num inverse).calledOn s i).Diverges num inverse i.rune i.timestamp) big frames) := by
  constructor
  · exact Machine.along_of_inv (I := fun _ => True)
      (fun s i _ => SmallTarget.getTarget_usable ((smallClass num inverse).calledOn s i) i.rune i.timestamp)
      (fun _ _ _ _ _ _ => trivial) trivial
  · exact Machine.along_iff (I := fun _ => True)
      (fun s i _ => BigTarget.getTarget_usable_iff ((bigClass num inverse).calledOn s i) i.rune i.timestamp)
      (fun _ _ _ _ _ _ _ => trivial) trivial

end Use

/-! ## An update with the blade where it is expected -/

/-- A rune 5 metres ahead. -/
def runeAhead (roll : ℝ) : PowerRune ℝ := ⟨![0, 0, 5.0], ![0, 0, roll], 0⟩

/-- The rune with its blade where the filter sees it after the first measurement. -/
noncomputable def BigTarget.expecting (target : BigTarget ℝ) (nowtime : ℝ) (p : PowerRune ℝ) : PowerRune ℝ :=
  let seen := (target.prior realNumerics nowtime p).updateRune realNumerics realInverse BigTarget.runeRows p
  { p with bladeYpdInWorld := seen.observeBlade realNumerics seen.ekf.x }

/-- **The second measurement changes no estimate then.** -/
theorem update_expecting_x (target : BigTarget ℝ) (nowtime : ℝ) (p : PowerRune ℝ) :
    let seen := (target.prior realNumerics nowtime p).updateRune realNumerics realInverse BigTarget.runeRows p
    (target.update realNumerics realInverse nowtime (target.expecting nowtime p)).ekf.x = seen.ekf.xAdd seen.ekf.x 0 := by
  intro seen
  show seen.ekf.xAdd seen.ekf.x (_ *ᵥ zSubtractBlade realNumerics (seen.observeBlade realNumerics seen.ekf.x)
    (seen.observeBlade realNumerics seen.ekf.x)) = _
  rw [zSubtractBlade_self, mulVec_zero]

/-- The state of a filter that has the rune ahead. -/
def aheadState (roll spd a w : ℝ) : Fin 10 → ℝ := ![0, 0, 0, 5.0, 0, roll, spd, a, w, 0]

/-- The way of the roll in a prediction. -/
noncomputable def rollWay (a w start dt : ℝ) : ℝ :=
  -a / w * Real.cos (w * (start + dt)) + a / w * Real.cos (w * start) + (2.09 - a) * dt

/-- A roll less than 15 degrees off is of the same blade. -/
theorem follow_x {target : BigTarget ℝ} {spd a w : ℝ} (hx : target.ekf.x = aheadState 0 spd a w) {roll : ℝ}
    (hroll : |roll| ≤ Real.pi / 12) :
    (target.follow realNumerics (runeAhead roll)).ekf.x = aheadState 0 spd a w := by
  have hsame : followBlade realNumerics 0 roll = 0 := by
    refine if_neg (not_lt.2 ?_)
    norm_num [realNumerics, Dual.realLibm]
    exact hroll
  show Function.update target.ekf.x 5 (followBlade realNumerics (target.ekf.x 5) roll) = _
  rw [hx]
  show Function.update (aheadState 0 spd a w) 5 (followBlade realNumerics 0 roll) = _
  rw [hsame]
  exact Function.update_eq_self _ _

theorem follow_voter {target : BigTarget ℝ} {spd a w : ℝ} (hx : target.ekf.x = aheadState 0 spd a w) {roll : ℝ}
    (hroll : |roll| ≤ Real.pi / 12) :
    (target.follow realNumerics (runeAhead roll)).voter = target.voter.vote 0 roll := by
  show target.voter.vote ((target.follow realNumerics (runeAhead roll)).ekf.x 5) roll = _
  rw [follow_x hx hroll]
  rfl

theorem prior_x {target : BigTarget ℝ} {spd a w : ℝ} (hx : target.ekf.x = aheadState 0 spd a w) (nowtime : ℝ) {roll : ℝ}
    (hroll : |roll| ≤ Real.pi / 12) (hvote : (target.voter.vote 0 roll).clockwise = 1) :
    (target.prior realNumerics nowtime (runeAhead roll)).ekf.x =
      aheadState (limitRad realNumerics.toLibm (rollWay a w target.lasttime (nowtime - target.lasttime)))
        (a * Real.sin (w * nowtime) + 2.09 - a) a w := by
  have hzero : limitRad realNumerics.toLibm 0 = 0 := limitRad_zero
  have hcos : realNumerics.cos = Real.cos := rfl
  have hsin : realNumerics.sin = Real.sin := rfl
  have hclockwise : (target.follow realNumerics (runeAhead roll)).voter.clockwise = 1 := by
    rw [follow_voter hx hroll]
    exact hvote
  have hlast : (target.follow realNumerics (runeAhead roll)).lasttime = target.lasttime := rfl
  have hnow : target.lasttime + (nowtime - target.lasttime) = nowtime := by ring
  show BigTarget.process realNumerics ⟨target.follow realNumerics (runeAhead roll)⟩ _ _ _ (nowtime - target.lasttime)
    (target.follow realNumerics (runeAhead roll)).ekf.x = _
  rw [follow_x hx hroll]
  unfold BigTarget.process
  simp only [hclockwise, hlast, hnow]
  funext i
  fin_cases i <;> simp [aheadState, hzero, rollWay, hcos, hsin]

theorem xAdd_zero {roll spd a w : ℝ} (hlo : -Real.pi < roll) (hhi : roll ≤ Real.pi) :
    BigTarget.xAdd realNumerics (aheadState roll spd a w) 0 = aheadState roll spd a w := by
  have hzero : limitRad realNumerics.toLibm 0 = 0 := limitRad_zero
  have hroll : limitRad realNumerics.toLibm roll = roll := limitRad_of_mem Real.pi_pos hlo hhi
  rw [BigTarget.xAdd, add_zero]
  funext i
  fin_cases i <;> simp [wrapAngles, aheadState, hzero, hroll]

theorem innovation_ahead (roll roll' spd a w : ℝ) :
    zSubtract realNumerics (BuffTarget.runeMeasured (runeAhead roll)) (BigTarget.runeRows *ᵥ aheadState roll' spd a w) =
      Pi.single 3 (limitRad realNumerics.toLibm (roll - roll')) := by
  have hzero : limitRad realNumerics.toLibm 0 = 0 := limitRad_zero
  unfold zSubtract
  funext i
  fin_cases i <;> simp [runeRows_mulVec, BuffTarget.runeMeasured, runeAhead, measured, aheadState, hzero]

/-- The gain of the first measurement. -/
noncomputable def runeGain (P : Matrix (Fin 10) (Fin 10) ℝ) : Matrix (Fin 10) (Fin 4) ℝ :=
  P * (BigTarget.runeRows (K := ℝ))ᵀ * (Covariance.innovation BigTarget.runeRows runeNoise P)⁻¹

/-- What the first measurement makes of a state with the rune ahead. -/
theorem updateRune_x {target : BigTarget ℝ} {roll spd a w : ℝ} (hx : target.ekf.x = aheadState roll spd a w)
    (roll' : ℝ) : (target.updateRune realNumerics realInverse BigTarget.runeRows (runeAhead roll')).ekf.x =
      target.ekf.xAdd (aheadState roll spd a w)
        (runeGain target.ekf.P *ᵥ Pi.single 3 (limitRad realNumerics.toLibm (roll' - roll))) := by
  rw [← innovation_ahead roll' roll spd a w, ← hx]
  rfl

/-! ## A filter that starts late -/

/-- The frequency at which a filter starts, and its amplitude. -/
noncomputable def startW : ℝ := 1.942

noncomputable def startA : ℝ := 0.9125

/-- The time in seconds at which the filter is started again. -/
noncomputable def late : ℝ := 33.972

/-- The strength with which frequency and speed are tied together then. -/
noncomputable def tie : ℝ := late * startA * Real.cos (startW * late)

/-- The diagonal that a filter starts from. -/
def startVariance : Fin 10 → ℝ := ![10.0, 10.0, 10.0, 10.0, 10.0, 10.0, 100.0, 10.0, 10.0, 400.0]

/-- **The covariance of a filter that starts that late**, after a prediction over no time. -/
structure LateStart (P : Matrix (Fin 10) (Fin 10) ℝ) : Prop where
  posDef : P.PosDef
  apart : Covariance.Apart InPlace P
  alone : ∀ k, k ≠ 3 → P (measured k) 5 = 0
  variance6 : P 6 6 ≤ 374 + 10 * tie ^ 2
  covariance : P 8 6 = 10 * tie

theorem lateStart_predict {target : BigTarget ℝ} (hx : target.ekf.x = aheadState 0 1.1775 startA startW)
    (hP : target.ekf.P = diagonal startVariance) (hlast : target.lasttime = late) :
    LateStart (target.predict realNumerics 0).ekf.P := by
  have hposDef : target.ekf.P.PosDef := by
    rw [hP]
    exact .diagonal fun i => by fin_cases i <;> norm_num [startVariance]
  have hdiag : Covariance.Apart InPlace target.ekf.P := by
    intro i j hi hj
    have hne : i ≠ j := fun h => hj (h ▸ hi)
    rw [hP, diagonal_apply_ne _ hne, diagonal_apply_ne _ hne.symm]
    exact ⟨rfl, rfl⟩
  have hentry : ∀ i j, (target.predict realNumerics 0).ekf.P i j = target.transition realNumerics 0 i ⬝ᵥ
      (diagonal startVariance *ᵥ target.transition realNumerics 0 j) + BigTarget.processNoise 0 i j := by
    intro i j
    rw [← hP]
    exact Covariance.propagate_apply _ _ _ i j
  have hrow6 : target.transition realNumerics 0 6 = ![0, 0, 0, 0, 0, 0, 0, Real.sin (startW * late) - 1, tie,
      startA * Real.cos (startW * late)] := by
    have hcos : realNumerics.cos = Real.cos := rfl
    have hsin : realNumerics.sin = Real.sin := rfl
    unfold BigTarget.transition
    rw [hx, hlast]
    simp [aheadState, hcos, hsin, tie]
    rfl
  have hplace : ∀ k, k ≠ 3 → (∀ v, target.transition realNumerics 0 (measured k) ⬝ᵥ v = v (measured k)) ∧
      target.transition realNumerics 0 5 (measured k) = 0 ∧ BigTarget.processNoise (0 : ℝ) (measured k) 5 = 0 := by
    intro k hk
    have hrow : ∀ v, target.transition realNumerics 0 (measured k) ⬝ᵥ v = _ :=
      fun v => congrFun (transition_row target 0 v) (measured k)
    simp only [hrow, zero_mul, add_zero]
    fin_cases k
    case «3» => exact absurd rfl hk
    all_goals exact ⟨fun v => rfl, rfl, rfl⟩
  refine ⟨big_predict_posDef hposDef 0, Covariance.apart_propagate (apart_transition target) (apart_processNoise 0) hdiag,
    fun k hk => ?_, ?_, ?_⟩
  · obtain ⟨hrow, hroll, hnoise⟩ := hplace k hk
    rw [hentry, hrow, mulVec_diagonal, hroll, mul_zero, hnoise, add_zero]
  · rw [hentry, hrow6]
    have hsin := Real.neg_one_le_sin (startW * late)
    have hsin' := Real.sin_le_one (startW * late)
    have hsq := Real.sin_sq_add_cos_sq (startW * late)
    simp [startVariance, BigTarget.processNoise, dotProduct, mulVec_diagonal, Fin.sum_univ_succ, startA]
    norm_num
    nlinarith [sq_nonneg (Real.sin (startW * late))]
  · rw [hentry, hrow6]
    simp [startVariance, BigTarget.transition, BigTarget.processNoise, dotProduct, mulVec_diagonal, Fin.sum_univ_succ]
    norm_num

/-! ## The measurements of a first update -/

theorem innovation_rune (P : Matrix (Fin 10) (Fin 10) ℝ) :
    Covariance.innovation BigTarget.runeRows runeNoise P 3 3 = P 5 5 + 0.1 := by
  unfold Covariance.innovation
  rw [Matrix.add_apply, mul_runeRows_transpose, runeRows_mul]
  rfl

/-- The covariance after the first measurement. -/
noncomputable def runeMeasuredP (P : Matrix (Fin 10) (Fin 10) ℝ) : Matrix (Fin 10) (Fin 10) ℝ :=
  Covariance.joseph (runeGain P) BigTarget.runeRows runeNoise P

/-- **After the first measurement the roll is as well known as it is measured.** -/
theorem variance5_runeMeasuredP {P : Matrix (Fin 10) (Fin 10) ℝ} (h : LateStart P) : runeMeasuredP P 5 5 ≤ 0.1 := by
  obtain ⟨-, hle⟩ := Covariance.joseph_diag_le (H := BigTarget.runeRows (K := ℝ)) h.posDef.posSemidef runeNoise_posDef 5
  have hpos : 0 < P 5 5 := h.posDef.diag_pos
  have hle5 := hle 3 fun l hl => by rw [runeRows_mul, h.alone l hl]
  rw [runeRows_mul, innovation_rune] at hle5
  refine hle5.trans ?_
  show P 5 5 - P 5 5 ^ 2 / (P 5 5 + 0.1) ≤ 0.1
  rw [sub_le_iff_le_add, ← sub_le_iff_le_add', le_div_iff₀ (by positivity)]
  nlinarith

/-- The covariance after both measurements. -/
noncomputable def bothMeasuredP (H : Matrix (Fin 3) (Fin 10) ℝ) (P : Matrix (Fin 10) (Fin 10) ℝ) :
    Matrix (Fin 10) (Fin 10) ℝ :=
  Covariance.joseph (runeMeasuredP P * Hᵀ * (Covariance.innovation H bladeNoise (runeMeasuredP P))⁻¹) H bladeNoise
    (runeMeasuredP P)

/-- **The measurements leave the speed and the frequency tied together.** -/
theorem lateStart_measured {P : Matrix (Fin 10) (Fin 10) ℝ} (h : LateStart P) {H : Matrix (Fin 3) (Fin 10) ℝ}
    (hH : Covariance.Reads InPlace H) : (bothMeasuredP H P).PosDef ∧ Covariance.Apart InPlace (bothMeasuredP H P) ∧
      bothMeasuredP H P 5 5 ≤ 0.1 ∧ bothMeasuredP H P 6 6 ≤ 374 + 10 * tie ^ 2 ∧ bothMeasuredP H P 8 6 = 10 * tie := by
  have hposDef : (runeMeasuredP P).PosDef := Covariance.joseph_posDef _ h.posDef runeNoise_posDef
  obtain ⟨hapart, hkept⟩ := Covariance.apart_joseph (R := runeNoise)
    (S := (Covariance.innovation BigTarget.runeRows runeNoise P)⁻¹) h.apart reads_runeRows
  obtain ⟨hapart2, hkept2⟩ := Covariance.apart_joseph (R := bladeNoise)
    (S := (Covariance.innovation H bladeNoise (runeMeasuredP P))⁻¹) hapart hH
  have hout6 : ¬ InPlace 6 := by decide
  have hout8 : ¬ InPlace 8 := by decide
  refine ⟨Covariance.joseph_posDef _ hposDef bladeNoise_posDef, hapart2, ?_, ?_, ?_⟩
  · exact (Covariance.joseph_diag_le hposDef.posSemidef bladeNoise_posDef 5).1.trans (variance5_runeMeasuredP h)
  · refine ((hkept2 6 6 hout6 hout6).trans (hkept 6 6 hout6 hout6)).trans_le h.variance6
  · exact ((hkept2 8 6 hout8 hout6).trans (hkept 8 6 hout8 hout6)).trans h.covariance

/-- A filter after its first update, that late. -/
structure Restarted (target : BigTarget ℝ) : Prop where
  firstIn : target.firstIn = false
  lostCn : target.lostCn = 0
  startTimestamp : target.startTimestamp = some 0
  lasttime : target.lasttime = late
  voter : target.voter = ⟨1⟩
  xAdd : target.ekf.xAdd = BigTarget.xAdd realNumerics
  x : target.ekf.x = aheadState 0 (startA * Real.sin (startW * late) + 2.09 - startA) startA startW
  posDef : target.ekf.P.PosDef
  apart : Covariance.Apart InPlace target.ekf.P
  variance5 : target.ekf.P 5 5 ≤ 0.1
  variance6 : target.ekf.P 6 6 ≤ 374 + 10 * tie ^ 2
  covariance : target.ekf.P 8 6 = 10 * tie

/-! ## The start -/

/-- A target whose filter has been dropped, of a class that has seen its first rune at the time 0. -/
structure Dropped (target : BigTarget ℝ) : Prop where
  firstIn : target.firstIn = true
  lostCn : target.lostCn = 0
  startTimestamp : target.startTimestamp = some 0
  voter : target.voter = ⟨0⟩

/-- What a target is updated from. -/
noncomputable def BigTarget.entered (target : BigTarget ℝ) (p : PowerRune ℝ) (timestamp : Int) : BigTarget ℝ :=
  (target.enter realNumerics (some p) timestamp).1

/-- The rune that a target is shown: its blade is where it is expected. -/
noncomputable def BigTarget.shown (target : BigTarget ℝ) (roll : ℝ) (timestamp : Int) : PowerRune ℝ :=
  (target.entered (runeAhead roll) timestamp).expecting (deltaTime timestamp 0) (runeAhead roll)

theorem deltaTime_late : (deltaTime 33972000000 0 : ℝ) = late := by norm_num [deltaTime, late]

theorem enter_dropped {target : BigTarget ℝ} (h : Dropped target) (blade : Fin 3 → ℝ) :
    target.enter realNumerics (some { runeAhead 0 with bladeYpdInWorld := blade }) 33972000000 =
      (target.entered (runeAhead 0) 33972000000, some (late, { runeAhead 0 with bladeYpdInWorld := blade })) := by
  unfold BigTarget.entered BigTarget.enter BigTarget.started
  simp [h.firstIn, h.startTimestamp, h.lostCn, BigTarget.init, deltaTime_late, runeAhead]

/-- A filter that has just been started that late. -/
structure JustStarted (target : BigTarget ℝ) : Prop where
  ekf : target.ekf = .ofState (aheadState 0 1.1775 startA startW) (diagonal startVariance) (BigTarget.xAdd realNumerics)
  lasttime : target.lasttime = late
  voter : target.voter = ⟨0⟩
  firstIn : target.firstIn = false
  lostCn : target.lostCn = 0
  startTimestamp : target.startTimestamp = some 0

theorem entered_dropped {target : BigTarget ℝ} (h : Dropped target) :
    JustStarted (target.entered (runeAhead 0) 33972000000) := by
  have hstate : (aheadState 0 1.1775 startA startW) = ![0, 0, 0, 5.0, 0, 0, 1.1775, 0.9125, 1.942, 0] := rfl
  unfold BigTarget.entered BigTarget.enter BigTarget.started
  constructor
  · rw [hstate]
    simp [h.firstIn, h.startTimestamp, h.lostCn, BigTarget.init, deltaTime_late, runeAhead, startVariance]
  all_goals simp [h.firstIn, h.startTimestamp, h.lostCn, h.voter, BigTarget.init, deltaTime_late]

theorem zero_near : |(0 : ℝ)| ≤ Real.pi / 12 := by
  rw [abs_zero]
  positivity

section Started

variable {e : BigTarget ℝ} (h : JustStarted e)
include h

theorem justStarted_x : e.ekf.x = aheadState 0 1.1775 startA startW := by
  rw [h.ekf]
  rfl

theorem justStarted_vote : e.voter.vote (0 : ℝ) 0 = ⟨1⟩ := by
  rw [h.voter]
  simp [Voter.vote]

/-- The speed that the first prediction gives. -/
theorem justStarted_prior_x : (e.prior realNumerics late (runeAhead 0)).ekf.x =
    aheadState 0 (startA * Real.sin (startW * late) + 2.09 - startA) startA startW := by
  have hvote : (e.voter.vote (0 : ℝ) 0).clockwise = 1 := by
    rw [justStarted_vote h]
    rfl
  have hway : rollWay startA startW late 0 = 0 := by
    rw [rollWay, add_zero]
    ring
  have hzero : limitRad realNumerics.toLibm 0 = 0 := limitRad_zero
  rw [prior_x (justStarted_x h) late zero_near hvote, h.lasttime, sub_self, hway, hzero]

theorem justStarted_lateStart : LateStart (e.prior realNumerics late (runeAhead 0)).ekf.P := by
  have hfollow : (BigTarget.mk (e.follow realNumerics (runeAhead 0))).ekf.x = aheadState 0 1.1775 startA startW :=
    follow_x (justStarted_x h) zero_near
  have hP : (BigTarget.mk (e.follow realNumerics (runeAhead 0))).ekf.P = diagonal startVariance := by
    show e.ekf.P = _
    rw [h.ekf]
    rfl
  have hprior : e.prior realNumerics late (runeAhead 0) =
    BigTarget.predict realNumerics ⟨e.follow realNumerics (runeAhead 0)⟩ (late - e.lasttime) := rfl
  rw [hprior, h.lasttime, sub_self]
  exact lateStart_predict hfollow hP h.lasttime

theorem justStarted_state : (e.update realNumerics realInverse late (e.expecting late (runeAhead 0))).ekf.x =
    aheadState 0 (startA * Real.sin (startW * late) + 2.09 - startA) startA startW := by
  have hzero : limitRad realNumerics.toLibm 0 = 0 := limitRad_zero
  have hxAdd : (e.prior realNumerics late (runeAhead 0)).ekf.xAdd = BigTarget.xAdd realNumerics := by
    show e.ekf.xAdd = _
    rw [h.ekf]
    rfl
  have hkept : BigTarget.xAdd realNumerics
      (aheadState 0 (startA * Real.sin (startW * late) + 2.09 - startA) startA startW) 0 = _ :=
    xAdd_zero (neg_lt_zero.2 Real.pi_pos) Real.pi_pos.le
  have hseen := updateRune_x (justStarted_prior_x h) 0
  rw [sub_zero, hzero, Pi.single_zero, mulVec_zero, hxAdd, hkept] at hseen
  have hseenAdd : ((e.prior realNumerics late (runeAhead 0)).updateRune realNumerics realInverse BigTarget.runeRows
    (runeAhead 0)).ekf.xAdd = BigTarget.xAdd realNumerics := hxAdd
  refine (update_expecting_x e late (runeAhead 0)).trans ?_
  rw [hseen, hseenAdd, hkept]

theorem justStarted_update : Restarted (e.update realNumerics realInverse late (e.expecting late (runeAhead 0))) := by
  have hxAdd : e.ekf.xAdd = BigTarget.xAdd realNumerics := by
    rw [h.ekf]
    rfl
  let seen : BigTarget ℝ :=
    ⟨(e.prior realNumerics late (runeAhead 0)).updateRune realNumerics realInverse BigTarget.runeRows (runeAhead 0)⟩
  have hP : (e.update realNumerics realInverse late (e.expecting late (runeAhead 0))).ekf.P =
      bothMeasuredP (seen.hJacobian realNumerics) (e.prior realNumerics late (runeAhead 0)).ekf.P := rfl
  obtain ⟨hposDef, hapart, h5, h6, h86⟩ := lateStart_measured (justStarted_lateStart h) (reads_hJacobian seen)
  rw [← hP] at hposDef hapart h5 h6 h86
  exact ⟨h.firstIn, h.lostCn, h.startTimestamp, rfl,
    (follow_voter (justStarted_x h) zero_near).trans (justStarted_vote h), hxAdd, justStarted_state h,
    hposDef, hapart, h5, h6, h86⟩

end Started

/-- **A dropped target that sees the rune late is started again then.** -/
theorem restarted_getTarget {target : BigTarget ℝ} (h : Dropped target) :
    Restarted (target.getTarget realNumerics realInverse (some (target.shown 0 33972000000)) 33972000000) := by
  have hstarted := entered_dropped h
  have hshown : target.shown 0 33972000000 = (target.entered (runeAhead 0) 33972000000).expecting late (runeAhead 0) := by
    rw [← deltaTime_late]
    rfl
  have henter : target.enter realNumerics (some (target.shown 0 33972000000)) 33972000000 =
      (target.entered (runeAhead 0) 33972000000, some (late, target.shown 0 33972000000)) := enter_dropped h _
  rw [hshown] at henter ⊢
  generalize target.entered (runeAhead 0) 33972000000 = e at hstarted henter ⊢
  have hget : target.getTarget realNumerics realInverse (some (e.expecting late (runeAhead 0))) 33972000000 =
      e.update realNumerics realInverse late (e.expecting late (runeAhead 0)) := by
    unfold BigTarget.getTarget
    rw [henter]
    refine if_neg ?_
    rw [justStarted_state hstarted]
    show ¬ (startA > 1.045 * 1.5 ∨ startA < 0.78 / 1.5 ∨ startW > 2.0 * 1.5 ∨ startW < 1.884 / 1.5)
    norm_num [startA, startW]
  rw [hget]
  exact justStarted_update hstarted

/-! ## The roll that is off -/

/-- The time in seconds of the frame with the roll that is off. -/
noncomputable def later : ℝ := 33.977

theorem cos_late : Real.cos (startW * late) ≤ -0.99 := by
  have hlo := Real.pi_gt_d4
  have hhi := Real.pi_lt_d4
  have hturns : Real.cos (startW * late) = -Real.cos (startW * late - Real.pi - (10 : ℕ) * (2 * Real.pi)) := by
    rw [Real.cos_sub_nat_mul_two_pi, Real.cos_sub_pi, neg_neg]
  have hcos := Real.one_sub_sq_div_two_le_cos (x := startW * late - Real.pi - (10 : ℕ) * (2 * Real.pi))
  rw [hturns]
  have hangle : |startW * late - Real.pi - (10 : ℕ) * (2 * Real.pi)| ≤ 0.1 := by
    rw [abs_le]
    norm_num [startW, late]
    constructor <;> linarith
  have hsq : (startW * late - Real.pi - (10 : ℕ) * (2 * Real.pi)) ^ 2 ≤ 0.1 ^ 2 := by
    rw [← sq_abs]
    exact pow_le_pow_left₀ (abs_nonneg _) hangle 2
  norm_num at hsq hcos ⊢
  linarith

theorem tie_mem : -31 ≤ tie ∧ tie ≤ -30.6 := by
  have hhi := cos_late
  have hlo := Real.neg_one_le_cos (startW * late)
  unfold tie
  generalize Real.cos (startW * late) = c at hhi hlo ⊢
  norm_num [late, startA] at hhi ⊢
  constructor <;> linarith

theorem rollWay_mem :
    0 ≤ rollWay startA startW late (later - late) ∧ rollWay startA startW late (later - late) ≤ 0.0105 := by
  have habs := Real.abs_cos_sub_cos_le (startW * (late + (later - late))) (startW * late)
  have hstep : |startW * (late + (later - late)) - startW * late| = 0.00971 := by norm_num [startW, late, later]
  rw [hstep, abs_le] at habs
  unfold rollWay
  generalize Real.cos (startW * (late + (later - late))) = c1 at habs ⊢
  generalize Real.cos (startW * late) = c0 at habs ⊢
  norm_num [startA, startW, late, later] at habs ⊢
  constructor <;> linarith

/-- The covariance that the measurement of the roll that is off finds. -/
structure Tied (P : Matrix (Fin 10) (Fin 10) ℝ) : Prop where
  posDef : P.PosDef
  alone : ∀ k, k ≠ 3 → P 8 (measured k) = 0
  variance5 : P 5 5 ≤ 0.19 + 0.005 ^ 2 * (374 + 10 * tie ^ 2)
  covariance : P 8 5 = 0.005 * (10 * tie)

theorem tied_predict {target : BigTarget ℝ} (hP : target.ekf.P.PosDef) (hapart : Covariance.Apart InPlace target.ekf.P)
    (h5 : target.ekf.P 5 5 ≤ 0.1) (h6 : target.ekf.P 6 6 ≤ 374 + 10 * tie ^ 2) (h86 : target.ekf.P 8 6 = 10 * tie)
    (hclockwise : target.voter.clockwise = 1) : Tied (target.predict realNumerics 0.005).ekf.P := by
  have hentry : ∀ i j, (target.predict realNumerics 0.005).ekf.P i j = target.transition realNumerics 0.005 i ⬝ᵥ
      (target.ekf.P *ᵥ target.transition realNumerics 0.005 j) + BigTarget.processNoise 0.005 i j :=
    fun i j => Covariance.propagate_apply _ _ _ i j
  have hrow8 : ∀ v : Fin 10 → ℝ, target.transition realNumerics 0.005 8 ⬝ᵥ v = v 8 :=
    fun v => congrFun (transition_row target 0.005 v) 8
  have hrow5 : ∀ v : Fin 10 → ℝ, target.transition realNumerics 0.005 5 ⬝ᵥ v = v 5 + 0.005 * v 6 := by
    intro v
    have h := congrFun (transition_row target 0.005 v) 5
    rw [hclockwise, Int.cast_one, one_mul] at h
    exact h
  have hcarried : ∀ i j, (target.ekf.P *ᵥ target.transition realNumerics 0.005 j) i =
      (target.transition realNumerics 0.005 *ᵥ target.ekf.P i) j := by
    intro i j
    exact dotProduct_comm _ _
  have hzero : ∀ i, InPlace i → target.ekf.P 8 i = 0 := fun i hi => (hapart i 8 hi (by decide)).2
  refine ⟨big_predict_posDef hP _, fun k hk => ?_, ?_, ?_⟩
  · rw [hentry, hrow8, hcarried, transition_row]
    fin_cases k
    case «3» => exact absurd rfl hk
    all_goals simp [measured, BigTarget.processNoise, hzero 0 (by decide), hzero 1 (by decide), hzero 2 (by decide),
      hzero 3 (by decide)]
  · have h56 := hapart 5 6 (by decide) (by decide)
    rw [hentry, hrow5, hcarried, hcarried]
    have h55 : (target.transition realNumerics 0.005 *ᵥ target.ekf.P 5) 5 = target.ekf.P 5 5 := by
      refine (hrow5 _).trans ?_
      rw [h56.1, mul_zero, add_zero]
    have h65 : (target.transition realNumerics 0.005 *ᵥ target.ekf.P 6) 5 = 0.005 * target.ekf.P 6 6 := by
      refine (hrow5 _).trans ?_
      rw [h56.2, zero_add]
    have hQ : BigTarget.processNoise (0.005 : ℝ) 5 5 = 0.09 := rfl
    rw [h55, h65, hQ]
    norm_num at h5 ⊢
    linarith
  · rw [hentry, hrow8, hcarried]
    have h85 : (target.transition realNumerics 0.005 *ᵥ target.ekf.P 8) 5 = 0.005 * target.ekf.P 8 6 := by
      refine (hrow5 _).trans ?_
      rw [hzero 5 (by decide), zero_add]
    have hQ : BigTarget.processNoise (0.005 : ℝ) 8 5 = 0 := rfl
    rw [h85, hQ, h86, add_zero]

theorem runeGain_apply {P : Matrix (Fin 10) (Fin 10) ℝ} (h : Tied P) :
    runeGain P 8 3 = P 8 5 * (Covariance.innovation BigTarget.runeRows runeNoise P)⁻¹ 3 3 := by
  rw [runeGain, mul_apply, Finset.sum_eq_single 3]
  · rw [mul_runeRows_transpose]
    rfl
  · intro k _ hk
    rw [mul_runeRows_transpose, h.alone k hk, zero_mul]
  · exact fun hno => absurd (Finset.mem_univ _) hno

/-- **The roll that is off throws the frequency out of its limits.** -/
theorem startW_thrown {P : Matrix (Fin 10) (Fin 10) ℝ} (h : Tied P) {off : ℝ} (hoff : 0.2495 ≤ off) :
    startW + runeGain P 8 3 * off < 1.884 / 1.5 := by
  have hS := Covariance.innovation_posDef (H := BigTarget.runeRows (K := ℝ)) h.posDef.posSemidef runeNoise_posDef
  have hinv := Covariance.one_le_mul_inv_diag hS 3
  have hpos : 0 < Covariance.innovation BigTarget.runeRows runeNoise P 3 3 := hS.diag_pos
  obtain ⟨hlo, hhi⟩ := tie_mem
  rw [runeGain_apply h, h.covariance]
  rw [innovation_rune] at hinv hpos
  generalize (Covariance.innovation BigTarget.runeRows runeNoise P)⁻¹ 3 3 = inv at hinv ⊢
  have h5 := h.variance5
  generalize P 5 5 = v at h5 hinv hpos
  generalize tie = t at hlo hhi h5 ⊢
  norm_num [startW] at h5 hinv hpos hlo hhi hoff ⊢
  have hinvpos : 0 < inv := by
    by_contra hneg
    have := mul_nonpos_of_nonneg_of_nonpos hpos.le (not_lt.1 hneg)
    linarith
  -- what the roll and its measurement leave of the tie
  have hsmall : 0.686 * (v + 1 / 10) < 0.012475 * -t := by nlinarith
  have hstrong : 0.686 < 0.012475 * (-t * inv) := by
    have hscaled := mul_lt_mul_of_pos_right hsmall hinvpos
    linarith
  have hfar : 0.2495 * (-t * inv) ≤ off * (-t * inv) :=
    mul_le_mul_of_nonneg_right (by norm_num; exact hoff) (mul_nonneg (by linarith) hinvpos.le)
  norm_num at hstrong hfar
  linarith

theorem roll_near : |(0.26 : ℝ)| ≤ Real.pi / 12 := by
  have hpi := Real.pi_gt_d4
  rw [abs_of_pos (by norm_num)]
  norm_num at hpi ⊢
  linarith

section Thrown

variable {target : BigTarget ℝ} (h : Restarted target)
include h

theorem restarted_vote : (target.voter.vote (0 : ℝ) 0.26).clockwise = 1 := by
  have hvote : target.voter.vote (0 : ℝ) 0.26 = ⟨2⟩ := by
    rw [h.voter]
    norm_num [Voter.vote]
  rw [hvote]
  rfl

theorem restarted_prior_x : ∃ roll spd, 0 ≤ roll ∧ roll ≤ 0.0105 ∧
    (target.prior realNumerics later (runeAhead 0.26)).ekf.x = aheadState roll spd startA startW := by
  obtain ⟨hlo, hhi⟩ := rollWay_mem
  have hpi := Real.pi_gt_three
  refine ⟨_, startA * Real.sin (startW * later) + 2.09 - startA, hlo, hhi, ?_⟩
  rw [prior_x h.x later roll_near (restarted_vote h), h.lasttime, limitRad_of_mem]
  · exact Real.pi_pos
  · show -Real.pi < _
    linarith
  · show _ ≤ Real.pi
    norm_num at hhi
    linarith

theorem restarted_tied : Tied (target.prior realNumerics later (runeAhead 0.26)).ekf.P := by
  have hprior : target.prior realNumerics later (runeAhead 0.26) =
    BigTarget.predict realNumerics ⟨target.follow realNumerics (runeAhead 0.26)⟩ (later - target.lasttime) := rfl
  have hstep : later - late = 0.005 := by norm_num [later, late]
  rw [hprior, h.lasttime, hstep]
  refine tied_predict h.posDef h.apart h.variance5 h.variance6 h.covariance ?_
  show (target.follow realNumerics (runeAhead 0.26)).voter.clockwise = 1
  rw [follow_voter h.x roll_near]
  exact restarted_vote h

/-- **The update takes the frequency below its limit.** -/
theorem restarted_thrown : (target.update realNumerics realInverse later
    (target.expecting later (runeAhead 0.26))).ekf.x 8 < 1.884 / 1.5 := by
  obtain ⟨roll, spd, hlo, hhi, hx⟩ := restarted_prior_x h
  have hpi := Real.pi_gt_three
  have hoff : limitRad realNumerics.toLibm (0.26 - roll) = 0.26 - roll := by
    apply limitRad_of_mem
    · exact Real.pi_pos
    · show -Real.pi < _
      norm_num at hhi ⊢
      linarith
    · show _ ≤ Real.pi
      norm_num
      linarith
  have hxAdd : (target.prior realNumerics later (runeAhead 0.26)).ekf.xAdd = BigTarget.xAdd realNumerics := h.xAdd
  have hseen := updateRune_x hx 0.26
  rw [hoff, hxAdd] at hseen
  have hseenAdd : ((target.prior realNumerics later (runeAhead 0.26)).updateRune realNumerics realInverse BigTarget.runeRows
    (runeAhead 0.26)).ekf.xAdd = BigTarget.xAdd realNumerics := hxAdd
  have hplace : ∀ a b : Fin 10 → ℝ, BigTarget.xAdd realNumerics a b 8 = a 8 + b 8 := by
    intro a b
    have hnot : (8 : Fin 10) ∉ ([0, 2, 4, 5, 9] : List (Fin 10)) := by decide
    rw [BigTarget.xAdd, wrapAngles, if_neg hnot, Pi.add_apply]
  have hupdated := congrFun (update_expecting_x target later (runeAhead 0.26)) 8
  rw [hseen, hseenAdd, hplace, hplace, Pi.zero_apply, add_zero, mulVec_single] at hupdated
  rw [hupdated]
  have hfar : 0.2495 ≤ 0.26 - roll := by
    norm_num at hhi ⊢
    linarith
  have hthrown := startW_thrown (restarted_tied h) hfar
  simpa [aheadState] using hthrown

end Thrown

/-! ## The run -/

/-- The only target of a class. -/
def lone (target : BigTarget ℝ) : Family Unit (BigTarget ℝ) := ⟨target.statics, fun _ => target⟩

/-- The target after frames without a rune. -/
noncomputable def missed : Nat → BigTarget ℝ
  | 0 => ⟨BuffTarget.fresh⟩
  | n + 1 => (missed n).getTarget realNumerics realInverse none 0

/-- The target whose filter is dropped for them. -/
noncomputable def droppedTarget : BigTarget ℝ := (missed 7).getTarget realNumerics realInverse (some (runeAhead 0)) 0

noncomputable def restartedTarget : BigTarget ℝ :=
  droppedTarget.getTarget realNumerics realInverse (some (droppedTarget.shown 0 33972000000)) 33972000000

/-- Seven frames without a rune, one with it at the time 0, one half a minute later, and one with the roll off. -/
noncomputable def divergingFrames : List (RuneFrame ℝ Unit) :=
  List.replicate 7 ⟨(), none, 0⟩ ++
    [⟨(), some (runeAhead 0), 0⟩, ⟨(), some (droppedTarget.shown 0 33972000000), 33972000000⟩,
      ⟨(), some (restartedTarget.shown 0.26 33977000000), 33977000000⟩]

theorem missed_loss (n : Nat) :
    (missed n).lostCn = n ∧ (missed n).startTimestamp = none ∧ (missed n).voter = ⟨0⟩ ∧
      (missed n).firstIn = true := by
  induction n with
  | zero => exact ⟨rfl, rfl, rfl, rfl⟩
  | succ n ih =>
    refine ⟨?_, ih.2⟩
    show (missed n).lostCn + 1 = _
    rw [ih.1]
    push_cast
    rfl

theorem dropped_droppedTarget : Dropped droppedTarget := by
  obtain ⟨hlost, hstart, hvoter, hfirst⟩ := missed_loss 7
  unfold droppedTarget BigTarget.getTarget BigTarget.enter BigTarget.started
  constructor <;> simp [hlost, hstart, hvoter, hfirst, BigTarget.init]

theorem restarted_diverges {target : BigTarget ℝ} (h : Restarted target) :
    target.Diverges realNumerics realInverse (some (target.shown 0.26 33977000000)) 33977000000 := by
  have htime : (deltaTime 33977000000 0 : ℝ) = later := by norm_num [deltaTime, later]
  have henter : ∀ p, target.enter realNumerics (some p) 33977000000 =
      ({ target with startTimestamp := some 0, unsolvable := false }, some (later, p)) := by
    intro p
    unfold BigTarget.enter BigTarget.started
    simp [h.firstIn, h.startTimestamp, h.lostCn, htime]
  have hrestarted : Restarted { target with startTimestamp := some 0, unsolvable := false } :=
    ⟨h.firstIn, h.lostCn, rfl, h.lasttime, h.voter, h.xAdd, h.x, h.posDef, h.apart, h.variance5, h.variance6, h.covariance⟩
  have hshown : target.shown 0.26 33977000000 =
      BigTarget.expecting { target with startTimestamp := some 0, unsolvable := false } later (runeAhead 0.26) := by
    unfold BigTarget.shown BigTarget.entered
    rw [henter, htime]
  refine ⟨later, target.shown 0.26 33977000000, by rw [henter], fun hlimits => ?_⟩
  rw [henter, hshown] at hlimits
  exact absurd hlimits.le_w (not_le.2 (restarted_thrown hrestarted))

theorem lone_step (target : BigTarget ℝ) (p : Option (PowerRune ℝ)) (timestamp : Int) :
    ((bigClass realNumerics realInverse).machine Unit).step (lone target) ⟨(), p, timestamp⟩ =
      some (lone (target.getTarget realNumerics realInverse p timestamp), []) := by
  have hupdate : ∀ after : BigTarget ℝ, Function.update (fun _ : Unit => target) () after = fun _ => after := by
    intro after
    funext u
    cases u
    exact Function.update_self _ _ _
  show some (Family.mk _ (Function.update (fun _ : Unit => target) () _), _) = _
  rw [hupdate]
  rfl

theorem run_missed (n : Nat) : ((bigClass realNumerics realInverse).machine Unit).run (lone ⟨BuffTarget.fresh⟩)
    (List.replicate n ⟨(), none, 0⟩) = some (lone (missed n), []) := by
  induction n with
  | zero => rfl
  | succ n ih =>
    rw [List.replicate_succ', Machine.run_append]
    exact ⟨_, _, _, ih, Machine.run_cons.2 ⟨_, _, _, lone_step (missed n) none 0, rfl, rfl⟩, rfl⟩

/-- **The filter is out of its limits, and the target is usable.** -/
theorem diverged_usable : ¬ ((bigClass realNumerics realInverse).machine Unit).Along
    ((bigClass realNumerics realInverse).UsableLaw BigTarget.InLimits) (lone ⟨BuffTarget.fresh⟩) divergingFrames := by
  intro h
  unfold divergingFrames at h
  rw [Machine.along_append (run_missed 7), Machine.along_cons_of_step (lone_step _ _ _),
    Machine.along_cons_of_step (lone_step _ _ _)] at h
  have hlaw := h.2.2.2.1
  have hrestarted : Restarted restartedTarget := restarted_getTarget dropped_droppedTarget
  exact (BigTarget.getTarget_usable_iff restartedTarget _ _).1 hlaw (restarted_diverges hrestarted)

end Vision
end LfSentry
