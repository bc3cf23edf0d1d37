import LfSentry.BuffTarget
import LfSentry.TargetCovariance
/-!
# FilterUpdate — the updates that the three kinds of target ask of one filter

A tracked target, a small rune and a big rune each call `ExtendedKalmanFilter` in their own way, over runs of any length.
Every matrix that an update inverts has an inverse, but for the base, whose two armor offsets are given no variance.  The
second measurement of a rune has three components, of which the filter reads four.  `updates_defined_iff` says in which runs
every update is defined.
-/
namespace LfSentry
namespace Vision

open Matrix

/-! ## The callers -/

section Callers

variable {K : Type} [Field K] [LinearOrder K] [FloorRing K] (num : Numerics K)
  (inverse : ∀ {k : Nat}, Matrix (Fin k) (Fin k) K → Matrix (Fin k) (Fin k) K)

/-- One call of `ExtendedKalmanFilter::update`. -/
structure FilterUpdate (K : Type) where
  n : Nat
  m : Nat
  ekf : ExtendedKalmanFilter K n
  z : Fin m → K
  H : Matrix (Fin m) (Fin n) K
  R : Matrix (Fin m) (Fin m) K
  h : (Fin n → K) → Fin m → K
  zSubtract : (Fin m → K) → (Fin m → K) → Fin m → K

namespace FilterUpdate

def after (u : FilterUpdate K) : ExtendedKalmanFilter K u.n := u.ekf.update inverse u.z u.H u.R u.h u.zSubtract

def ReadsResidual (u : FilterUpdate K) : Prop := u.ekf.ReadsResidual inverse u.z u.H u.R u.h u.zSubtract

def Inverts (u : FilterUpdate K) : Prop := u.ekf.Inverts inverse u.z u.H u.R u.h u.zSubtract

end FilterUpdate

namespace TrackedTarget

/-- `Target::update`, up to its `update_ypda`: the target, and the place of the armor on it. -/
def matched (target : TrackedTarget K) (armor : Armor K) : TrackedTarget K × Nat :=
  let id := target.matchId num armor
  let jumped := if id ≠ 0 then true else target.jumped
  let stays := id ≠ target.lastId ∧ target.name ≠ .outpost ∧ |target.x 7| < 0.8
  let isSwitch := if stays then false else decide (id ≠ target.lastId)
  let id := if stays then target.lastId else id
  let switchCount := if isSwitch then target.switchCount + 1 else target.switchCount
  let id := if target.name = .outpost ∧ target.armorNum = 3 then 2 else id
  let toTarget : Target K := { target.toTarget with jumped := jumped, updateCount := target.updateCount + 1 }
  ({ target with toTarget := toTarget, isSwitch := isSwitch, switchCount := switchCount, lastId := id }, id)

theorem update_eq_matched (target : TrackedTarget K) (armor : Armor K) :
    target.update num armor = (target.matched num armor).1.updateYpda num armor (target.matched num armor).2 := rfl

/-- The update that `update_ypda` asks of its filter. -/
def ypdaUpdate (target : TrackedTarget K) (stats : FilterStats K) (armor : Armor K) (id : Nat) : FilterUpdate K :=
  ⟨11, 4, target.ekf num stats, armor.observed, target.toTarget.hJacobian num id, armor.noise num, target.observe num id,
    zSubtract num⟩

def updates (target : TrackedTarget K) (stats : FilterStats K) : FilterCall K → List (FilterUpdate K)
  | .predictBy _ => []
  | .predict _ => []
  | .updateYpda armor id => [target.ypdaUpdate num stats armor id]
  | .update armor => [(target.matched num armor).1.ypdaUpdate num stats armor (target.matched num armor).2]

/-- What the filter keeps of its tests after a call. -/
def statsAfter (target : TrackedTarget K) (stats : FilterStats K) (call : FilterCall K) : FilterStats K :=
  (target.updates num stats call).foldl (fun _ u => (u.after inverse).toFilterStats) stats

end TrackedTarget

/-- The two updates of a rune, from the state that they start in. -/
def BuffTarget.updates {n : Nat} [NeZero n] (target : BuffTarget K n) (H1 : Matrix (Fin 4) (Fin n) K)
    (H0 : Matrix (Fin 5) (Fin n) K) (p : PowerRune K) : List (FilterUpdate K) :=
  let seen := target.updateRune num inverse H1 p
  [⟨n, 4, target.ekf, runeMeasured p, H1, runeNoise, fun x => H1.mulVec x, zSubtract num⟩,
    ⟨n, 3, seen.ekf, p.bladeYpdInWorld, seen.hJacobianOf num H0, bladeNoise, seen.observeBlade num, zSubtractBlade num⟩]

/-- Whoever holds a filter; of a tracked target, beside what its filter keeps of its tests. -/
inductive Caller (K : Type)
  | aim (target : TrackedTarget K) (stats : FilterStats K)
  | small (target : SmallTarget K)
  | big (target : BigTarget K)

inductive CallerCall (K : Type)
  | aim (call : FilterCall K)
  | predict (dt : K)
  | getTarget (p : Option (PowerRune K)) (timestamp : Int)

/-- A target that `Tracker::set_target` has made of an armor, or one of the two runes. -/
inductive CallerStart (K : Type)
  | aim (armor : Armor K) (t : Int)
  | small
  | big

namespace Caller

def start : CallerStart K → Caller K
  | .aim armor t => .aim (targetOf num armor t) .initial
  | .small => .small ⟨.fresh⟩
  | .big => .big ⟨.fresh⟩

def step : Caller K → CallerCall K → Option (Caller K)
  | .aim target stats, .aim call => some (.aim (target.call num call) (target.statsAfter num inverse stats call))
  | .small target, .predict dt => some (.small (target.predict num dt))
  | .small target, .getTarget p timestamp => some (.small (target.getTarget num inverse p timestamp))
  | .big target, .predict dt => some (.big (target.predict num dt))
  | .big target, .getTarget p timestamp => some (.big (target.getTarget num inverse p timestamp))
  | _, _ => none

/-- The updates that a call asks of a filter. -/
def updates : Caller K → CallerCall K → List (FilterUpdate K)
  | .aim target stats, .aim call => target.updates num stats call
  | .small target, .getTarget p timestamp =>
    match target.enter num p timestamp with
    | (_, none) => []
    | (entered, some (timeGap, p)) =>
      (entered.prior num timeGap p).updates num inverse SmallTarget.runeRows SmallTarget.bladeRows p
  | .big target, .getTarget p timestamp =>
    match target.enter num p timestamp with
    | (_, none) => []
    | (entered, some (timeGap, p)) =>
      (entered.prior num timeGap p).updates num inverse BigTarget.runeRows BigTarget.bladeRows p
  | _, _ => []

/-- What is read of the residual exists and what is inverted has an inverse, in every update of a call. -/
def Defined (c : Caller K) (call : CallerCall K) : Prop :=
  ∀ u ∈ c.updates num inverse call, u.ReadsResidual inverse ∧ u.Inverts inverse

/-- A base is updated. -/
def UpdatesBase : Caller K → CallerCall K → Prop
  | .aim target _, .aim (.updateYpda _ _) => target.name = .base
  | .aim target _, .aim (.update _) => target.name = .base
  | _, _ => False

/-- A rune is updated: there is one in the frame, and no more than six frames have been without one. -/
def UpdatesRune : Caller K → CallerCall K → Prop
  | .small target, .getTarget p _ => p ≠ none ∧ target.lostCn ≤ 6
  | .big target, .getTarget p _ => p ≠ none ∧ target.lostCn ≤ 6
  | _, _ => False

/-- **The calls whose updates are defined**: neither a base is updated nor a rune. -/
def Sound (c : Caller K) (call : CallerCall K) : Prop := ¬c.UpdatesBase call ∧ ¬c.UpdatesRune call

end Caller

def callers : Machine (Caller K) (CallerCall K) Unit where
  step c call := (c.step num inverse call).map fun c => (c, [])

end Callers

/-! ## What one update needs -/

/-- Eigen's inverse, in exact arithmetic. -/
noncomputable def realInverse {k : Nat} (M : Matrix (Fin k) (Fin k) ℝ) : Matrix (Fin k) (Fin k) ℝ := M⁻¹

/-- **From definite covariances every matrix that is inverted has an inverse.** -/
theorem inverts_of_posDef {u : FilterUpdate ℝ} (hP : u.ekf.P.PosDef) (hR : u.R.PosDef) : u.Inverts realInverse := by
  have hafter : (u.after realInverse).P.PosDef := Covariance.joseph_posDef _ hP hR
  exact ⟨(Covariance.innovation_posDef hP.posSemidef hR).isUnit, (Covariance.innovation_posDef hafter.posSemidef hR).isUnit,
    hafter.isUnit⟩

/-- A component without variance has none after an update, whose covariance then has no inverse. -/
theorem not_inverts {u : FilterUpdate ℝ} (hP : u.ekf.P.IsSymm) {v : Fin u.n → ℝ} (hv : v ≠ 0) (hnull : u.ekf.P *ᵥ v = 0) :
    ¬u.Inverts realInverse := fun h =>
  Covariance.not_isUnit_of_mulVec hv (Covariance.joseph_mulVec hP hnull) h.covariance

/-! ## The tracked target -/

/-- The first of the two offsets of a target's armors, alone. -/
def offsetAlone : Fin 11 → ℝ := Pi.single 9 1

theorem offsetAlone_ne : offsetAlone ≠ 0 := by
  intro h
  have h9 := congrFun h 9
  simp [offsetAlone] at h9

/-- What every call on a target keeps: its covariance is definite, but the base has no variance in its first offset. -/
structure OffsetsKept (target : TrackedTarget ℝ) : Prop where
  posSemidef : target.P.PosSemidef
  posDef : target.name ≠ .base → target.P.PosDef
  base : target.name = .base → target.P *ᵥ offsetAlone = 0

theorem diagonal_offsetAlone (d : Fin 11 → ℝ) (h : d 9 = 0) : diagonal d *ᵥ offsetAlone = 0 := by
  funext i
  rw [mulVec_diagonal, offsetAlone, Pi.zero_apply]
  by_cases hi : i = 9
  · rw [hi, h, zero_mul]
  · rw [Pi.single_eq_of_ne hi, mul_zero]

/-- **The covariances that `set_target` chooses**: only the base is given variances of zero. -/
theorem offsetsKept_targetOf (armor : Armor ℝ) (t : Int) : OffsetsKept (targetOf realNumerics armor t) := by
  have hdefinite : ∀ (radius : ℝ) (armorNum : Nat) (d : Fin 11 → ℝ), (∀ i, 0 < d i) → armor.name ≠ .base →
      OffsetsKept (.ofArmor realNumerics armor t radius armorNum d) := fun radius armorNum d hd hname =>
    ⟨(PosDef.diagonal hd).posSemidef, fun _ => .diagonal hd, fun hbase => absurd hbase hname⟩
  unfold targetOf
  split
  · rename_i hbalance
    refine hdefinite _ _ _ (by norm_num [Fin.forall_fin_succ]) fun hname => ?_
    simp [Armor.isBalance, hname] at hbalance
  · split
    · rename_i houtpost
      exact hdefinite _ _ _ (by norm_num [Fin.forall_fin_succ]) (by rw [houtpost]; decide)
    · split
      · rename_i hbase
        refine ⟨.diagonal ?_, fun hname => absurd hbase hname, fun _ => diagonal_offsetAlone _ rfl⟩
        intro i
        fin_cases i <;> norm_num
      · rename_i hbase
        exact hdefinite _ _ _ (by norm_num [Fin.forall_fin_succ]) hbase

theorem eq_zero_of_transition {dt : ℝ} {v : Fin 11 → ℝ} (h : (transition dt)ᵀ *ᵥ v = 0) : v = 0 := by
  rw [transition_transpose_mulVec] at h
  have hplace : ∀ i, _ = (0 : ℝ) := congrFun h
  have h0 : v 0 = 0 := hplace 0
  have h1 : dt * v 0 + v 1 = 0 := hplace 1
  have h2 : v 2 = 0 := hplace 2
  have h3 : dt * v 2 + v 3 = 0 := hplace 3
  have h4 : v 4 = 0 := hplace 4
  have h5 : dt * v 4 + v 5 = 0 := hplace 5
  have h6 : v 6 = 0 := hplace 6
  have h7 : dt * v 6 + v 7 = 0 := hplace 7
  rw [h0, mul_zero, zero_add] at h1
  rw [h2, mul_zero, zero_add] at h3
  rw [h4, mul_zero, zero_add] at h5
  rw [h6, mul_zero, zero_add] at h7
  funext i
  fin_cases i
  exacts [h0, h1, h2, h3, h4, h5, h6, h7, hplace 8, hplace 9, hplace 10]

theorem transition_offsetAlone (dt : ℝ) : (transition dt)ᵀ *ᵥ offsetAlone = offsetAlone := by
  rw [transition_transpose_mulVec]
  funext i
  fin_cases i <;> simp [offsetAlone]

theorem processNoise_offsetAlone (name : ArmorName) (dt : ℝ) : processNoise name dt *ᵥ offsetAlone = 0 := by
  rw [processNoise_mulVec]
  funext i
  fin_cases i <;> simp [offsetAlone]

theorem offsetsKept_predictBy {target : TrackedTarget ℝ} (h : OffsetsKept target) (dt : ℝ) :
    OffsetsKept (target.predictBy realNumerics dt) := by
  have hQ := processNoise_posSemidef target.name dt
  have hname : (target.predictBy realNumerics dt).name = target.name := convergened_name target.toTarget
  refine ⟨Covariance.propagate_posSemidef h.posSemidef hQ, fun hn => ?_, fun hn => ?_⟩
  · rw [hname] at hn
    exact Covariance.propagate_posDef (h.posDef hn) hQ fun v hv _ => eq_zero_of_transition hv
  · rw [hname] at hn
    exact Covariance.propagate_mulVec (transition_offsetAlone dt) (processNoise_offsetAlone _ dt) (h.base hn)

theorem offsetsKept_updateYpda {target : TrackedTarget ℝ} (h : OffsetsKept target) (armor : Armor ℝ) (id : Nat) :
    OffsetsKept (target.updateYpda realNumerics armor id) :=
  ⟨Covariance.joseph_posSemidef _ h.posSemidef (noise_posDef armor).posSemidef,
    fun hn => Covariance.joseph_posDef _ (h.posDef hn) (noise_posDef armor),
    fun hn => Covariance.joseph_mulVec h.posSemidef.isHermitian (h.base hn)⟩

theorem offsetsKept_matched {target : TrackedTarget ℝ} (h : OffsetsKept target) (armor : Armor ℝ) :
    OffsetsKept (target.matched realNumerics armor).1 := ⟨h.posSemidef, h.posDef, h.base⟩

theorem offsetsKept_call {target : TrackedTarget ℝ} (h : OffsetsKept target) (call : FilterCall ℝ) :
    OffsetsKept (target.call realNumerics call) := by
  cases call with
  | predictBy dt => exact offsetsKept_predictBy h dt
  | predict t =>
    obtain ⟨hsemi, hposDef, hbase⟩ := offsetsKept_predictBy h (deltaTime t target.t)
    exact ⟨hsemi, hposDef, hbase⟩
  | updateYpda armor id => exact offsetsKept_updateYpda h armor id
  | update armor => exact offsetsKept_updateYpda (offsetsKept_matched h armor) armor _

theorem ypdaUpdate_inverts_iff {target : TrackedTarget ℝ} (h : OffsetsKept target) (stats : FilterStats ℝ) (armor : Armor ℝ)
    (id : Nat) : (target.ypdaUpdate realNumerics stats armor id).Inverts realInverse ↔ target.name ≠ .base := by
  constructor
  · intro hinverts hname
    exact not_inverts (u := target.ypdaUpdate realNumerics stats armor id) h.posSemidef.isHermitian offsetAlone_ne
      (h.base hname) hinverts
  · exact fun hname => inverts_of_posDef (u := target.ypdaUpdate realNumerics stats armor id) (h.posDef hname)
      (noise_posDef armor)

/-! ## The runes -/

theorem runeNoise_posDef : (runeNoise (K := ℝ)).PosDef := by
  have hdiagonal : (runeNoise : Matrix (Fin 4) (Fin 4) ℝ) = diagonal ![0.01, 0.01, 0.5, 0.1] := by
    ext i j
    fin_cases i <;> fin_cases j <;> rfl
  rw [hdiagonal]
  exact .diagonal fun i => by fin_cases i <;> norm_num

theorem bladeNoise_posDef : (bladeNoise (K := ℝ)).PosDef := by
  have hdiagonal : (bladeNoise : Matrix (Fin 3) (Fin 3) ℝ) = diagonal ![0.01, 0.01, 0.5] := by
    ext i j
    fin_cases i <;> fin_cases j <;> rfl
  rw [hdiagonal]
  exact .diagonal fun i => by fin_cases i <;> norm_num

theorem small_transition_transpose (dt : ℝ) (v : Fin 7 → ℝ) : (SmallTarget.transition dt)ᵀ *ᵥ v =
    ![v 0, dt * v 0 + v 1, v 2, v 3, v 4, v 5, dt * v 5 + v 6] := by
  rw [mulVec_transpose]
  unfold SmallTarget.transition
  simp only [vecMul_cons, empty_vecMul, smul_cons, smul_empty, smul_eq_mul, cons_add_cons, empty_add_empty, mul_zero,
    mul_one, zero_add, add_zero, mul_comm _ dt]
  rfl

theorem small_noise_posSemidef (dt : ℝ) : (SmallTarget.processNoise dt).PosSemidef := by
  refine .of_dotProduct_mulVec_nonneg ?_ fun v => ?_
  · ext i j
    fin_cases i <;> fin_cases j <;> rfl
  · have hform : v ⬝ᵥ (SmallTarget.processNoise dt *ᵥ v) = 0.001 * (dt * dt / 2 * v 0 + dt * v 1) ^ 2 := by
      have h4 : (4.0 : ℝ) = 4 := by norm_num
      have h2 : (2.0 : ℝ) = 2 := by norm_num
      simp [SmallTarget.processNoise, mulVec, dotProduct, Fin.sum_univ_succ, h4, h2]
      ring
    rw [star_trivial, hform]
    positivity

theorem small_predict_posDef {target : SmallTarget ℝ} (h : target.ekf.P.PosDef) (dt : ℝ) :
    (target.predict realNumerics dt).ekf.P.PosDef := by
  refine Covariance.propagate_posDef h (small_noise_posSemidef dt) fun v hv _ => ?_
  rw [small_transition_transpose] at hv
  have hplace : ∀ i, _ = (0 : ℝ) := congrFun hv
  have h0 : v 0 = 0 := hplace 0
  have h1 : dt * v 0 + v 1 = 0 := hplace 1
  have h5 : v 5 = 0 := hplace 5
  have h6 : dt * v 5 + v 6 = 0 := hplace 6
  rw [h0, mul_zero, zero_add] at h1
  rw [h5, mul_zero, zero_add] at h6
  funext i
  fin_cases i
  exacts [h0, h1, hplace 2, hplace 3, hplace 4, h5, h6]

theorem big_transition_transpose (target : BigTarget ℝ) (dt : ℝ) (v : Fin 10 → ℝ) :
    (target.transition realNumerics dt)ᵀ *ᵥ v =
      ![v 0, dt * v 0 + v 1, v 2, v 3, v 4, v 5, target.transition realNumerics dt 5 6 * v 5,
        target.transition realNumerics dt 6 7 * v 6 + v 7, target.transition realNumerics dt 6 8 * v 6 + v 8,
        target.transition realNumerics dt 6 9 * v 6 + v 9] := by
  rw [mulVec_transpose]
  simp only [mul_comm _ (v _)]
  unfold BigTarget.transition
  simp only [vecMul_cons, empty_vecMul, smul_cons, smul_empty, smul_eq_mul, cons_add_cons, empty_add_empty, mul_zero,
    mul_one, zero_add, add_zero]
  rfl

theorem big_noise_form (dt : ℝ) (v : Fin 10 → ℝ) : v ⬝ᵥ (BigTarget.processNoise dt *ᵥ v) =
    0.9 * (dt * dt / 2 * v 0 + dt * v 1) ^ 2 + 0.09 * v 5 ^ 2 + 0.5 * v 6 ^ 2 + v 9 ^ 2 := by
  have h4 : (4.0 : ℝ) = 4 := by norm_num
  have h2 : (2.0 : ℝ) = 2 := by norm_num
  simp [BigTarget.processNoise, mulVec, dotProduct, Fin.sum_univ_succ, h4, h2]
  ring

theorem big_noise_posSemidef (dt : ℝ) : (BigTarget.processNoise dt).PosSemidef := by
  refine .of_dotProduct_mulVec_nonneg ?_ fun v => ?_
  · ext i j
    fin_cases i <;> fin_cases j <;> rfl
  · rw [star_trivial, big_noise_form]
    positivity

/-- **The transition of a big rune has no inverse, but the noise of its speed reaches what it loses.** -/
theorem big_predict_posDef {target : BigTarget ℝ} (h : target.ekf.P.PosDef) (dt : ℝ) :
    (target.predict realNumerics dt).ekf.P.PosDef := by
  refine Covariance.propagate_posDef h (big_noise_posSemidef dt) fun v hv hspeed => ?_
  have hv6 : v 6 = 0 := by
    rw [big_noise_form] at hspeed
    have hsq : v 6 ^ 2 = 0 := by
      linarith [sq_nonneg (dt * dt / 2 * v 0 + dt * v 1), sq_nonneg (v 5), sq_nonneg (v 6), sq_nonneg (v 9)]
    exact pow_eq_zero_iff two_ne_zero |>.1 hsq
  rw [big_transition_transpose, hv6] at hv
  have hplace : ∀ i, _ = (0 : ℝ) := congrFun hv
  have h0 : v 0 = 0 := hplace 0
  have h1 : dt * v 0 + v 1 = 0 := hplace 1
  have h7 : _ * 0 + v 7 = 0 := hplace 7
  have h8 : _ * 0 + v 8 = 0 := hplace 8
  have h9 : _ * 0 + v 9 = 0 := hplace 9
  rw [h0, mul_zero, zero_add] at h1
  rw [mul_zero, zero_add] at h7 h8 h9
  funext i
  fin_cases i
  exacts [h0, h1, hplace 2, hplace 3, hplace 4, hplace 5, hv6, h7, h8, h9]

section Runes

variable {n : Nat} [NeZero n]

/-- A rune that is being followed has a definite covariance. -/
def BuffTarget.Started (target : BuffTarget ℝ n) : Prop := target.firstIn = false → target.ekf.P.PosDef

theorem rune_updates_invert {target : BuffTarget ℝ n} (h : target.ekf.P.PosDef) (H1 : Matrix (Fin 4) (Fin n) ℝ)
    (H0 : Matrix (Fin 5) (Fin n) ℝ) (p : PowerRune ℝ) :
    ∀ u ∈ target.updates realNumerics realInverse H1 H0 p, u.Inverts realInverse := by
  intro u hu
  rcases List.mem_pair.1 hu with rfl | rfl
  · exact inverts_of_posDef h runeNoise_posDef
  · exact inverts_of_posDef (Covariance.joseph_posDef _ h runeNoise_posDef) bladeNoise_posDef

theorem measured_posDef {target : BuffTarget ℝ n} (h : target.ekf.P.PosDef) (H1 : Matrix (Fin 4) (Fin n) ℝ)
    (H0 : Matrix (Fin 5) (Fin n) ℝ) (p : PowerRune ℝ) :
    ((target.updateRune realNumerics realInverse H1 p).updateBlade realNumerics realInverse H0 p).ekf.P.PosDef :=
  Covariance.joseph_posDef _ (Covariance.joseph_posDef _ h runeNoise_posDef) bladeNoise_posDef

/-- **The centre of a blade has three components, and four are read.** -/
theorem rune_updates_unread (target : BuffTarget ℝ n) (H1 : Matrix (Fin 4) (Fin n) ℝ) (H0 : Matrix (Fin 5) (Fin n) ℝ)
    (p : PowerRune ℝ) : ¬∀ u ∈ target.updates realNumerics realInverse H1 H0 p, u.ReadsResidual realInverse := by
  intro h
  have hread := h _ (List.mem_cons_of_mem _ (List.mem_singleton.2 rfl))
  have hsize : 4 ≤ 3 := ExtendedKalmanFilter.readsResidual_iff.1 hread
  omega

end Runes

/-- Where `get_target` comes to `update`, it has a filter with a definite covariance. -/
theorem small_enter (target : SmallTarget ℝ) (p : Option (PowerRune ℝ)) (timestamp : Int) :
    let r := target.enter realNumerics p timestamp
    (r.2 = none ↔ p = none ∨ 6 < target.lostCn) ∧
      (target.Started → r.1.Started ∧ (r.2 ≠ none → r.1.ekf.P.PosDef)) := by
  have hstarted : ∀ (target : SmallTarget ℝ) nowtime p, target.Started →
      (target.started realNumerics nowtime p).ekf.P.PosDef := by
    intro target nowtime p h
    unfold SmallTarget.started
    split
    · exact .diagonal fun i => by fin_cases i <;> norm_num
    · rename_i hfirst
      exact h (Bool.eq_false_iff.2 hfirst)
  have hlost : ∀ (target : SmallTarget ℝ) nowtime p, (target.started realNumerics nowtime p).lostCn = target.lostCn := by
    intro target nowtime p
    unfold SmallTarget.started
    split <;> rfl
  cases p with
  | none => exact ⟨by simp [SmallTarget.enter], fun h => ⟨h, fun hr => absurd rfl hr⟩⟩
  | some p =>
    unfold SmallTarget.enter
    dsimp only
    rw [hlost]
    split
    · rename_i hmissed
      exact ⟨by simpa using hmissed, fun _ => ⟨fun hfirst => by simp at hfirst, fun hr => absurd rfl hr⟩⟩
    · rename_i hmissed
      refine ⟨by simpa using hmissed, fun h => ⟨fun _ => hstarted _ _ _ h, fun _ => hstarted _ _ _ h⟩⟩

theorem big_enter (target : BigTarget ℝ) (p : Option (PowerRune ℝ)) (timestamp : Int) :
    let r := target.enter realNumerics p timestamp
    (r.2 = none ↔ p = none ∨ 6 < target.lostCn) ∧
      (target.Started → r.1.Started ∧ (r.2 ≠ none → r.1.ekf.P.PosDef)) := by
  have hstarted : ∀ (target : BigTarget ℝ) nowtime p, target.Started →
      (target.started realNumerics nowtime p).ekf.P.PosDef := by
    intro target nowtime p h
    unfold BigTarget.started
    split
    · exact .diagonal fun i => by fin_cases i <;> norm_num
    · rename_i hfirst
      exact h (Bool.eq_false_iff.2 hfirst)
  have hlost : ∀ (target : BigTarget ℝ) nowtime p, (target.started realNumerics nowtime p).lostCn = target.lostCn := by
    intro target nowtime p
    unfold BigTarget.started
    split <;> rfl
  cases p with
  | none => exact ⟨by simp [BigTarget.enter], fun h => ⟨h, fun hr => absurd rfl hr⟩⟩
  | some p =>
    unfold BigTarget.enter
    dsimp only
    rw [hlost]
    split
    · rename_i hmissed
      exact ⟨by simpa using hmissed, fun _ => ⟨fun hfirst => by simp at hfirst, fun hr => absurd rfl hr⟩⟩
    · rename_i hmissed
      refine ⟨by simpa using hmissed, fun h => ⟨fun _ => hstarted _ _ _ h, fun _ => hstarted _ _ _ h⟩⟩


theorem small_prior_posDef {target : SmallTarget ℝ} (h : target.ekf.P.PosDef) (nowtime : ℝ) (p : PowerRune ℝ) :
    (target.prior realNumerics nowtime p).ekf.P.PosDef := by
  unfold SmallTarget.prior
  exact small_predict_posDef h _

theorem small_started_getTarget {target : SmallTarget ℝ} (h : target.Started) (p : Option (PowerRune ℝ)) (timestamp : Int) :
    (target.getTarget realNumerics realInverse p timestamp).Started := by
  obtain ⟨-, henter⟩ := small_enter target p timestamp
  obtain ⟨hstarted, hposDef⟩ := henter h
  unfold SmallTarget.getTarget
  rcases hr : target.enter realNumerics p timestamp with ⟨entered, _ | ⟨timeGap, p⟩⟩ <;> rw [hr] at hstarted hposDef
  · exact hstarted
  · have hupdated : (entered.update realNumerics realInverse timeGap p).ekf.P.PosDef :=
      measured_posDef (small_prior_posDef (hposDef (by simp)) timeGap p) SmallTarget.runeRows SmallTarget.bladeRows p
    dsimp only
    split
    · exact fun hfirst => by simp at hfirst
    · exact fun _ => hupdated

theorem big_prior_posDef {target : BigTarget ℝ} (h : target.ekf.P.PosDef) (nowtime : ℝ) (p : PowerRune ℝ) :
    (target.prior realNumerics nowtime p).ekf.P.PosDef := by
  have hfollow : (BigTarget.mk (target.follow realNumerics p)).ekf.P.PosDef := h
  exact big_predict_posDef hfollow (nowtime - target.lasttime)

theorem big_started_getTarget {target : BigTarget ℝ} (h : target.Started) (p : Option (PowerRune ℝ)) (timestamp : Int) :
    (target.getTarget realNumerics realInverse p timestamp).Started := by
  obtain ⟨-, henter⟩ := big_enter target p timestamp
  obtain ⟨hstarted, hposDef⟩ := henter h
  unfold BigTarget.getTarget
  rcases hr : target.enter realNumerics p timestamp with ⟨entered, _ | ⟨timeGap, p⟩⟩ <;> rw [hr] at hstarted hposDef
  · exact hstarted
  · have hupdated : (entered.update realNumerics realInverse timeGap p).ekf.P.PosDef :=
      measured_posDef (big_prior_posDef (hposDef (by simp)) timeGap p) BigTarget.runeRows BigTarget.bladeRows p
    dsimp only
    split
    · exact fun hfirst => by simp at hfirst
    · exact fun _ => hupdated

/-! ## What the measurements of a big rune read -/

theorem zSubtractBlade_self (v : Fin 3 → ℝ) : zSubtractBlade realNumerics v v = 0 := by
  have hzero : limitRad realNumerics.toLibm 0 = 0 := limitRad_zero
  funext i
  fin_cases i <;> simp [zSubtractBlade, hzero]

/-- The components of a state that the rune and its roll measure. -/
def measured : Fin 4 → Fin 10 := ![0, 2, 3, 5]

theorem runeRows_eq (k : Fin 4) : BigTarget.runeRows k = (Pi.single (measured k) 1 : Fin 10 → ℝ) := by
  funext j
  fin_cases k <;> fin_cases j <;> rfl

theorem runeRows_mulVec (x : Fin 10 → ℝ) (k : Fin 4) : (BigTarget.runeRows (K := ℝ) *ᵥ x) k = x (measured k) := by
  rw [mulVec, runeRows_eq, single_dotProduct, one_mul]

theorem runeRows_mul (P : Matrix (Fin 10) (Fin 10) ℝ) (k : Fin 4) (j : Fin 10) :
    (BigTarget.runeRows (K := ℝ) * P) k j = P (measured k) j := by
  rw [mul_apply_eq_vecMul, runeRows_eq, single_one_vecMul]
  rfl

theorem mul_runeRows_transpose {r : Nat} (P : Matrix (Fin r) (Fin 10) ℝ) (i : Fin r) (k : Fin 4) :
    (P * (BigTarget.runeRows (K := ℝ))ᵀ) i k = P i (measured k) := by
  show P i ⬝ᵥ BigTarget.runeRows k = _
  rw [runeRows_eq, dotProduct_single, mul_one]

/-- A state of the small part of a filter: the rune's place and its roll. -/
def InPlace (i : Fin 10) : Prop := i.val < 6

instance (i : Fin 10) : Decidable (InPlace i) := inferInstanceAs (Decidable (i.val < 6))

theorem reads_runeRows : Covariance.Reads InPlace (BigTarget.runeRows (K := ℝ)) := by
  intro k j hj
  rw [runeRows_eq, Pi.single_eq_of_ne]
  rintro rfl
  fin_cases k <;> exact hj (by decide)

theorem reads_bladeRows : Covariance.Reads InPlace (BigTarget.bladeRows (K := ℝ)) := by
  intro k j hj
  fin_cases j
  all_goals first | exact absurd (by decide) hj | skip
  all_goals fin_cases k <;> rfl

theorem reads_hJacobian (target : BigTarget ℝ) : Covariance.Reads InPlace (target.hJacobian realNumerics) := by
  intro k j hj
  show ((_ : Matrix (Fin 3) (Fin 5) ℝ) * BigTarget.bladeRows (K := ℝ)) k j = 0
  rw [mul_apply]
  exact Finset.sum_eq_zero fun l _ => by rw [reads_bladeRows l j hj, mul_zero]

/-! ## A prediction of a big rune -/

/-- `A_`, by its rows that are not those of the identity. -/
theorem transition_row (target : BigTarget ℝ) (dt : ℝ) (v : Fin 10 → ℝ) :
    target.transition realNumerics dt *ᵥ v =
      ![v 0 + dt * v 1, v 1, v 2, v 3, v 4, v 5 + target.voter.clockwise * dt * v 6,
        target.transition realNumerics dt 6 ⬝ᵥ v, v 7, v 8, v 9] := by
  have h6 : (target.transition realNumerics dt *ᵥ v) 6 = target.transition realNumerics dt 6 ⬝ᵥ v := rfl
  rw [← h6]
  unfold BigTarget.transition
  simp only [cons_mulVec, cons_dotProduct, dotProduct_of_isEmpty, empty_mulVec, zero_mul, one_mul, zero_add, add_zero]
  rfl

theorem apart_transition (target : BigTarget ℝ) : Covariance.Apart InPlace (target.transition realNumerics 0) := by
  intro i j hi hj
  fin_cases i <;> first | exact absurd hi (by decide) | skip
  all_goals fin_cases j <;> first | exact absurd (by decide) hj | exact ⟨rfl, rfl⟩ | skip
  all_goals simp [BigTarget.transition]

theorem apart_processNoise (dt : ℝ) : Covariance.Apart InPlace (BigTarget.processNoise dt) := by
  intro i j hi hj
  fin_cases i <;> first | exact absurd hi (by decide) | skip
  all_goals fin_cases j <;> first | exact absurd (by decide) hj | exact ⟨rfl, rfl⟩

/-! ## Runs -/

/-- What holds of every caller along its run. -/
def Caller.Kept : Caller ℝ → Prop
  | .aim target _ => OffsetsKept target
  | .small target => target.Started
  | .big target => target.Started

theorem caller_start (s : CallerStart ℝ) : (Caller.start realNumerics s).Kept := by
  cases s with
  | aim armor t => exact offsetsKept_targetOf armor t
  | small => exact fun h => by simp [BuffTarget.fresh] at h
  | big => exact fun h => by simp [BuffTarget.fresh] at h

theorem caller_step {c c' : Caller ℝ} {call : CallerCall ℝ} (h : c.Kept)
    (hstep : c.step realNumerics realInverse call = some c') : c'.Kept := by
  cases c with
  | aim target stats =>
    cases call with
    | aim call =>
      cases hstep
      exact offsetsKept_call h call
    | predict dt => cases hstep
    | getTarget p timestamp => cases hstep
  | small target =>
    cases call with
    | aim call => cases hstep
    | predict dt =>
      cases hstep
      exact fun hfirst => small_predict_posDef (h hfirst) dt
    | getTarget p timestamp =>
      cases hstep
      exact small_started_getTarget h p timestamp
  | big target =>
    cases call with
    | aim call => cases hstep
    | predict dt =>
      cases hstep
      exact fun hfirst => big_predict_posDef (h hfirst) dt
    | getTarget p timestamp =>
      cases hstep
      exact big_started_getTarget h p timestamp

/-- The updates of a rune start from a definite covariance. -/
theorem small_updates (target : SmallTarget ℝ) (p : Option (PowerRune ℝ)) (timestamp : Int) :
    (¬(Caller.small target).UpdatesRune (.getTarget p timestamp) ∧
      (Caller.small target).updates realNumerics realInverse (.getTarget p timestamp) = []) ∨
    (Caller.small target).UpdatesRune (.getTarget p timestamp) ∧ ∃ entered : SmallTarget ℝ, ∃ timeGap p',
      (target.Started → entered.ekf.P.PosDef) ∧
      (Caller.small target).updates realNumerics realInverse (.getTarget p timestamp) =
        (entered.prior realNumerics timeGap p').updates realNumerics realInverse SmallTarget.runeRows SmallTarget.bladeRows
          p' := by
  obtain ⟨hcond, hstarted⟩ := small_enter target p timestamp
  unfold Caller.updates Caller.UpdatesRune
  dsimp only
  rcases hr : target.enter realNumerics p timestamp with ⟨entered, _ | ⟨timeGap, p'⟩⟩ <;> rw [hr] at hcond hstarted
  · refine .inl ⟨fun hu => ?_, rfl⟩
    rcases hcond.1 rfl with hp | hlost
    · exact hu.1 hp
    · omega
  · have hnot : ¬(p = none ∨ 6 < target.lostCn) := fun h => by simpa using hcond.2 h
    rw [not_or, not_lt] at hnot
    exact .inr ⟨hnot, entered, timeGap, p', fun h => (hstarted h).2 (by simp), rfl⟩

theorem big_updates (target : BigTarget ℝ) (p : Option (PowerRune ℝ)) (timestamp : Int) :
    (¬(Caller.big target).UpdatesRune (.getTarget p timestamp) ∧
      (Caller.big target).updates realNumerics realInverse (.getTarget p timestamp) = []) ∨
    (Caller.big target).UpdatesRune (.getTarget p timestamp) ∧ ∃ entered : BigTarget ℝ, ∃ timeGap p',
      (target.Started → entered.ekf.P.PosDef) ∧
      (Caller.big target).updates realNumerics realInverse (.getTarget p timestamp) =
        (entered.prior realNumerics timeGap p').updates realNumerics realInverse BigTarget.runeRows BigTarget.bladeRows
          p' := by
  obtain ⟨hcond, hstarted⟩ := big_enter target p timestamp
  unfold Caller.updates Caller.UpdatesRune
  dsimp only
  rcases hr : target.enter realNumerics p timestamp with ⟨entered, _ | ⟨timeGap, p'⟩⟩ <;> rw [hr] at hcond hstarted
  · refine .inl ⟨fun hu => ?_, rfl⟩
    rcases hcond.1 rfl with hp | hlost
    · exact hu.1 hp
    · omega
  · have hnot : ¬(p = none ∨ 6 < target.lostCn) := fun h => by simpa using hcond.2 h
    rw [not_or, not_lt] at hnot
    exact .inr ⟨hnot, entered, timeGap, p', fun h => (hstarted h).2 (by simp), rfl⟩

/-- **What is read of the residuals exists exactly if no rune is updated.** -/
theorem reads_iff (c : Caller ℝ) (call : CallerCall ℝ) :
    (∀ u ∈ c.updates realNumerics realInverse call, u.ReadsResidual realInverse) ↔ ¬c.UpdatesRune call := by
  have hfour : ∀ (target : TrackedTarget ℝ) stats armor id,
      ∀ u ∈ [target.ypdaUpdate realNumerics stats armor id], u.ReadsResidual realInverse := by
    intro target stats armor id
    rw [List.forall_mem_singleton]
    exact ExtendedKalmanFilter.readsResidual_iff.2 le_rfl
  have hnone : ∀ u ∈ ([] : List (FilterUpdate ℝ)), u.ReadsResidual realInverse := fun u hu =>
    absurd hu List.not_mem_nil
  cases c with
  | aim target stats =>
    refine iff_of_true ?_ id
    cases call with
    | aim call =>
      cases call with
      | predictBy dt => exact hnone
      | predict t => exact hnone
      | updateYpda armor id => exact hfour target stats armor id
      | update armor => exact hfour _ stats armor _
    | predict dt => exact hnone
    | getTarget p timestamp => exact hnone
  | small target =>
    cases call with
    | aim call => exact iff_of_true hnone id
    | predict dt => exact iff_of_true hnone id
    | getTarget p timestamp =>
      rcases small_updates target p timestamp with ⟨hnot, hupdates⟩ | ⟨hrune, entered, timeGap, p', -, hupdates⟩ <;>
        rw [hupdates]
      · exact iff_of_true hnone hnot
      · exact iff_of_false (rune_updates_unread _ _ _ p') (not_not_intro hrune)
  | big target =>
    cases call with
    | aim call => exact iff_of_true hnone id
    | predict dt => exact iff_of_true hnone id
    | getTarget p timestamp =>
      rcases big_updates target p timestamp with ⟨hnot, hupdates⟩ | ⟨hrune, entered, timeGap, p', -, hupdates⟩ <;>
        rw [hupdates]
      · exact iff_of_true hnone hnot
      · exact iff_of_false (rune_updates_unread _ _ _ p') (not_not_intro hrune)

/-- **What is inverted has an inverse exactly if no base is updated.** -/
theorem inverts_iff {c : Caller ℝ} (h : c.Kept) (call : CallerCall ℝ) :
    (∀ u ∈ c.updates realNumerics realInverse call, u.Inverts realInverse) ↔ ¬c.UpdatesBase call := by
  have hnone : ∀ u ∈ ([] : List (FilterUpdate ℝ)), u.Inverts realInverse := fun u hu => absurd hu List.not_mem_nil
  cases c with
  | aim target stats =>
    cases call with
    | aim call =>
      cases call with
      | predictBy dt => exact iff_of_true hnone id
      | predict t => exact iff_of_true hnone id
      | updateYpda armor id => exact List.forall_mem_singleton.trans (ypdaUpdate_inverts_iff h stats armor id)
      | update armor =>
        exact List.forall_mem_singleton.trans (ypdaUpdate_inverts_iff (offsetsKept_matched h armor) stats armor _)
    | predict dt => exact iff_of_true hnone id
    | getTarget p timestamp => exact iff_of_true hnone id
  | small target =>
    refine iff_of_true ?_ id
    cases call with
    | aim call => exact hnone
    | predict dt => exact hnone
    | getTarget p timestamp =>
      rcases small_updates target p timestamp with ⟨-, hupdates⟩ | ⟨-, entered, timeGap, p', hentered, hupdates⟩ <;>
        rw [hupdates]
      · exact hnone
      · exact rune_updates_invert (small_prior_posDef (hentered h) timeGap p') _ _ p'
  | big target =>
    refine iff_of_true ?_ id
    cases call with
    | aim call => exact hnone
    | predict dt => exact hnone
    | getTarget p timestamp =>
      rcases big_updates target p timestamp with ⟨-, hupdates⟩ | ⟨-, entered, timeGap, p', hentered, hupdates⟩ <;>
        rw [hupdates]
      · exact hnone
      · exact rune_updates_invert (big_prior_posDef (hentered h) timeGap p') _ _ p'

theorem defined_iff_sound {c : Caller ℝ} (h : c.Kept) (call : CallerCall ℝ) :
    c.Defined realNumerics realInverse call ↔ c.Sound call := by
  unfold Caller.Defined Caller.Sound
  rw [← inverts_iff h call, ← reads_iff, and_comm]
  constructor
  · exact fun hu => ⟨fun u hmem => (hu u hmem).1, fun u hmem => (hu u hmem).2⟩
  · exact fun hu u hmem => ⟨hu.1 u hmem, hu.2 u hmem⟩

/-- **In every run of a tracked target or of a rune, every update is defined exactly if neither a base is updated nor a
rune.** -/
theorem updates_defined_iff (s : CallerStart ℝ) (calls : List (CallerCall ℝ)) :
    (callers realNumerics realInverse).Along (Caller.Defined realNumerics realInverse) (Caller.start realNumerics s) calls ↔
      (callers realNumerics realInverse).Along Caller.Sound (Caller.start realNumerics s) calls := by
  refine Machine.along_iff (I := Caller.Kept) (fun c call h => defined_iff_sound h call) ?_ (caller_start s)
  intro c call c' es h _ hstep
  obtain ⟨c'', hc, hpair⟩ := Option.map_eq_some_iff.1 hstep
  cases hpair
  exact caller_step h hc

/-- The armor of the base, three metres ahead. -/
noncomputable def baseArmor : Armor ℝ := { solvedArmor 3 with name := .base }

/-- The first update of a base, and the first frame with a rune. -/
theorem first_updates_undefined :
    ¬(callers realNumerics realInverse).Along (Caller.Defined realNumerics realInverse)
      (Caller.start realNumerics (.aim baseArmor 0)) [.aim (.update baseArmor)] ∧
    ¬(callers realNumerics realInverse).Along (Caller.Defined realNumerics realInverse)
      (Caller.start realNumerics .small) [.getTarget (some ⟨![0, 0, 7], 0, ![0, 0.1, 7]⟩) 0] := by
  constructor
  · rintro ⟨hdefined, -⟩
    refine ((defined_iff_sound (caller_start _) _).1 hdefined).1 ?_
    change (targetOf realNumerics baseArmor 0).name = .base
    rfl
  · rintro ⟨hdefined, -⟩
    refine ((defined_iff_sound (caller_start _) _).1 hdefined).2 ⟨by simp, ?_⟩
    change (0 : Int) ≤ 6
    decide

end Vision
end LfSentry
