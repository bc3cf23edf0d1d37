import Mathlib.LinearAlgebra.Matrix.PosDef
import Mathlib.Data.Real.Basic
import Mathlib.Algebra.Order.Star.Real
import Mathlib.Tactic.Linarith
/-!
# Covariance — what a linear filter does to a covariance

Real matrices over any finite index types.  Carried by a transition or updated in Joseph's form, with any gain, a covariance
stays positive semidefinite; it stays definite where the noise reaches what the transition loses.  The covariance of an
innovation is definite as soon as the noise of the measurement is.  A variance of zero that no noise reaches stays zero.
-/
namespace LfSentry
namespace Covariance

open Matrix

variable {n m : Type} [Fintype n] [Fintype m]

/-- A covariance carried by a transition, with the noise of the process. -/
def propagate (F Q P : Matrix n n ℝ) : Matrix n n ℝ := F * P * Fᵀ + Q

/-- The covariance of an innovation. -/
def innovation (H : Matrix m n ℝ) (R : Matrix m m ℝ) (P : Matrix n n ℝ) : Matrix m m ℝ := H * P * Hᵀ + R

/-- An update in Joseph's form. -/
def joseph [DecidableEq n] (gain : Matrix n m ℝ) (H : Matrix m n ℝ) (R : Matrix m m ℝ) (P : Matrix n n ℝ) : Matrix n n ℝ :=
  (1 - gain * H) * P * (1 - gain * H)ᵀ + gain * R * gainᵀ

theorem propagate_apply (F Q P : Matrix n n ℝ) (i j : n) : propagate F Q P i j = F i ⬝ᵥ (P *ᵥ F j) + Q i j := by
  rw [propagate, Matrix.mul_assoc]
  rfl

/-! ## Quadratic forms -/

theorem congruence {P : Matrix n n ℝ} (hP : P.PosSemidef) (A : Matrix m n ℝ) : (A * P * Aᵀ).PosSemidef := by
  rw [← conjTranspose_eq_transpose_of_trivial]
  exact hP.mul_mul_conjTranspose_same A

theorem congruence_form (P : Matrix n n ℝ) (A : Matrix m n ℝ) (v : m → ℝ) :
    v ⬝ᵥ ((A * P * Aᵀ) *ᵥ v) = (Aᵀ *ᵥ v) ⬝ᵥ (P *ᵥ (Aᵀ *ᵥ v)) := by
  rw [← mulVec_mulVec, ← mulVec_mulVec, dotProduct_mulVec, ← mulVec_transpose]

theorem form_nonneg {P : Matrix n n ℝ} (hP : P.PosSemidef) (v : n → ℝ) : 0 ≤ v ⬝ᵥ (P *ᵥ v) := by
  have h := hP.dotProduct_mulVec_nonneg v
  rwa [star_trivial] at h

theorem eq_zero_of_form {P : Matrix n n ℝ} (hP : P.PosDef) {v : n → ℝ} (h : v ⬝ᵥ (P *ᵥ v) = 0) : v = 0 := by
  by_contra hv
  have hpos := hP.dotProduct_mulVec_pos hv
  rw [star_trivial, h] at hpos
  exact lt_irrefl 0 hpos

/-- **A semidefinite sum is definite where no vector is lost by both of its terms.** -/
theorem posDef_add {A B : Matrix n n ℝ} (hA : A.PosSemidef) (hB : B.PosSemidef)
    (hlost : ∀ v : n → ℝ, v ⬝ᵥ (A *ᵥ v) = 0 → v ⬝ᵥ (B *ᵥ v) = 0 → v = 0) : (A + B).PosDef := by
  refine .of_dotProduct_mulVec_pos (hA.add hB).isHermitian fun v hv => ?_
  have hA0 := form_nonneg hA v
  have hB0 := form_nonneg hB v
  rw [star_trivial, add_mulVec, dotProduct_add]
  refine lt_of_le_of_ne (add_nonneg hA0 hB0) fun hzero => hv (hlost v ?_ ?_)
  · linarith
  · linarith

/-! ## Propagation -/

theorem propagate_posSemidef {F Q P : Matrix n n ℝ} (hP : P.PosSemidef) (hQ : Q.PosSemidef) :
    (propagate F Q P).PosSemidef := (congruence hP F).add hQ

/-- **A definite covariance stays definite where the noise reaches what the transition loses.** -/
theorem propagate_posDef {F Q P : Matrix n n ℝ} (hP : P.PosDef) (hQ : Q.PosSemidef)
    (hlost : ∀ v : n → ℝ, Fᵀ *ᵥ v = 0 → v ⬝ᵥ (Q *ᵥ v) = 0 → v = 0) : (propagate F Q P).PosDef := by
  refine posDef_add (congruence hP.posSemidef F) hQ fun v hF hv => hlost v ?_ hv
  rw [congruence_form] at hF
  exact eq_zero_of_form hP hF

theorem propagate_mulVec {F Q P : Matrix n n ℝ} {v : n → ℝ} (hF : Fᵀ *ᵥ v = v) (hQ : Q *ᵥ v = 0)
    (hP : P *ᵥ v = 0) : propagate F Q P *ᵥ v = 0 := by
  rw [propagate, add_mulVec, ← mulVec_mulVec, ← mulVec_mulVec, hF, hP, mulVec_zero, hQ, add_zero]

/-! ## Update -/

theorem innovation_posDef {H : Matrix m n ℝ} {R : Matrix m m ℝ} {P : Matrix n n ℝ} (hP : P.PosSemidef) (hR : R.PosDef) :
    (innovation H R P).PosDef := hR.posSemidef_add (congruence hP H)

variable [DecidableEq n]

theorem joseph_posSemidef {H : Matrix m n ℝ} {R : Matrix m m ℝ} {P : Matrix n n ℝ} (gain : Matrix n m ℝ)
    (hP : P.PosSemidef) (hR : R.PosSemidef) : (joseph gain H R P).PosSemidef :=
  (congruence hP _).add (congruence hR gain)

/-- **With any gain, an update loses no direction.** -/
theorem joseph_posDef {H : Matrix m n ℝ} {R : Matrix m m ℝ} {P : Matrix n n ℝ} (gain : Matrix n m ℝ) (hP : P.PosDef)
    (hR : R.PosDef) : (joseph gain H R P).PosDef := by
  refine posDef_add (congruence hP.posSemidef _) (congruence hR.posSemidef gain) fun v hkept hgained => ?_
  rw [congruence_form] at hkept hgained
  have hleft : (1 - gain * H)ᵀ *ᵥ v = 0 := eq_zero_of_form hP hkept
  have hgain : gainᵀ *ᵥ v = 0 := eq_zero_of_form hR hgained
  rw [transpose_sub, transpose_one, transpose_mul, sub_mulVec, one_mulVec, ← mulVec_mulVec, hgain, mulVec_zero,
    sub_zero] at hleft
  exact hleft

/-- **A direction without variance gets none from an update with the gain of the filter.** -/
theorem joseph_mulVec {H : Matrix m n ℝ} {R S : Matrix m m ℝ} {P : Matrix n n ℝ} (hP : P.IsSymm) {v : n → ℝ}
    (hv : P *ᵥ v = 0) : joseph (P * Hᵀ * S) H R P *ᵥ v = 0 := by
  have hgain : (P * Hᵀ * S)ᵀ *ᵥ v = 0 := by
    rw [transpose_mul, transpose_mul, transpose_transpose, hP.eq, ← mulVec_mulVec, ← mulVec_mulVec, hv, mulVec_zero,
      mulVec_zero]
  have hkept : (1 - P * Hᵀ * S * H)ᵀ *ᵥ v = v := by
    rw [transpose_sub, transpose_one, transpose_mul, sub_mulVec, one_mulVec, ← mulVec_mulVec, hgain, mulVec_zero, sub_zero]
  rw [joseph, add_mulVec, ← mulVec_mulVec, ← mulVec_mulVec, hkept, hv, mulVec_zero, ← mulVec_mulVec, hgain, mulVec_zero,
    add_zero]

theorem not_isUnit_of_mulVec {P : Matrix n n ℝ} {v : n → ℝ} (hv : v ≠ 0) (h : P *ᵥ v = 0) : ¬IsUnit P := by
  intro hunit
  exact hv (mulVec_injective_of_isUnit hunit (by rw [h, mulVec_zero]))

/-! ## The gain of the filter -/

/-- **A variance and its entry in the inverse are at least reciprocal.** -/
theorem one_le_mul_inv_diag [DecidableEq m] {S : Matrix m m ℝ} (hS : S.PosDef) (i : m) : 1 ≤ S i i * S⁻¹ i i := by
  have hdet : IsUnit S.det := S.isUnit_iff_isUnit_det.1 hS.isUnit
  have hpos : 0 < S i i := hS.diag_pos
  obtain ⟨e, he⟩ : ∃ e : m → ℝ, e = Pi.single i 1 := ⟨_, rfl⟩
  obtain ⟨w, hw⟩ : ∃ w : m → ℝ, w = S⁻¹ *ᵥ e := ⟨_, rfl⟩
  have hSw : S *ᵥ w = e := by rw [hw, mulVec_mulVec, mul_nonsing_inv S hdet, one_mulVec]
  have hsymm : w ⬝ᵥ (S *ᵥ e) = e ⬝ᵥ (S *ᵥ w) := by
    rw [dotProduct_mulVec, ← mulVec_transpose, ← conjTranspose_eq_transpose_of_trivial, hS.isHermitian.eq, dotProduct_comm]
  have hee : e ⬝ᵥ (S *ᵥ e) = S i i := by simp [he]
  have hew : e ⬝ᵥ (S *ᵥ w) = 1 := by simp [hSw, he]
  have hww : w ⬝ᵥ (S *ᵥ w) = S⁻¹ i i := by
    rw [hSw]
    simp [hw, he]
  -- the form is not negative at `e` less its variance times `w`
  have hform := form_nonneg hS.posSemidef (e - S i i • w)
  simp only [mulVec_sub, mulVec_smul, sub_dotProduct, dotProduct_sub, dotProduct_smul, smul_dotProduct, smul_eq_mul, hsymm,
    hee, hew, hww] at hform
  by_contra hlt
  have hneg := mul_lt_mul_of_pos_left (not_le.1 hlt) hpos
  linarith

omit [Fintype m] [DecidableEq n] in
theorem innovation_isSymm {H : Matrix m n ℝ} {R : Matrix m m ℝ} {P : Matrix n n ℝ} (hP : P.IsSymm) (hR : R.IsSymm) :
    (innovation H R P).IsSymm := by
  unfold innovation IsSymm
  rw [transpose_add, transpose_mul, transpose_mul, transpose_transpose, hP.eq, hR.eq, Matrix.mul_assoc]

/-- With its gain an update takes away what the measurement has told. -/
theorem joseph_gain [DecidableEq m] {H : Matrix m n ℝ} {R : Matrix m m ℝ} {P : Matrix n n ℝ} (hP : P.IsSymm)
    (hR : R.IsSymm) (hS : IsUnit (innovation H R P)) :
    joseph (P * Hᵀ * (innovation H R P)⁻¹) H R P = P - P * Hᵀ * (innovation H R P)⁻¹ * (H * P) := by
  have hdet := (innovation H R P).isUnit_iff_isUnit_det.1 hS
  have hexpand : ∀ gain : Matrix n m ℝ, joseph gain H R P =
      P - gain * (H * P) - P * Hᵀ * gainᵀ + gain * (innovation H R P * gainᵀ) := by
    intro gain
    unfold joseph innovation
    simp only [transpose_sub, transpose_one, transpose_mul, Matrix.sub_mul, Matrix.mul_sub, Matrix.add_mul, Matrix.mul_add,
      Matrix.one_mul, Matrix.mul_one, Matrix.mul_assoc]
    abel
  have htrans : (P * Hᵀ * (innovation H R P)⁻¹)ᵀ = (innovation H R P)⁻¹ * (H * P) := by
    rw [transpose_mul, transpose_mul, transpose_transpose, transpose_nonsing_inv, (innovation_isSymm hP hR).eq, hP.eq]
  rw [hexpand, htrans, ← Matrix.mul_assoc (innovation H R P), mul_nonsing_inv _ hdet, Matrix.one_mul,
    ← Matrix.mul_assoc (P * Hᵀ)]
  abel

/-- **An update with its gain makes no variance larger**, and smaller by as much as a measurement of it alone tells. -/
theorem joseph_diag_le [DecidableEq m] {H : Matrix m n ℝ} {R : Matrix m m ℝ} {P : Matrix n n ℝ} (hP : P.PosSemidef)
    (hR : R.PosDef) (i : n) :
    joseph (P * Hᵀ * (innovation H R P)⁻¹) H R P i i ≤ P i i ∧ ∀ k, (∀ l, l ≠ k → (H * P) l i = 0) →
      joseph (P * Hᵀ * (innovation H R P)⁻¹) H R P i i ≤ P i i - (H * P) k i ^ 2 / innovation H R P k k := by
  have hS := innovation_posDef (H := H) hP hR
  have hPs : P.IsSymm := by
    have := hP.isHermitian.eq
    rwa [conjTranspose_eq_transpose_of_trivial] at this
  have hRs : R.IsSymm := by
    have := hR.isHermitian.eq
    rwa [conjTranspose_eq_transpose_of_trivial] at this
  have hentry : joseph (P * Hᵀ * (innovation H R P)⁻¹) H R P i i =
      P i i - (fun l => (H * P) l i) ⬝ᵥ ((innovation H R P)⁻¹ *ᵥ fun l => (H * P) l i) := by
    have hleft : P * Hᵀ = (H * P)ᵀ := by rw [transpose_mul, hPs.eq]
    rw [joseph_gain hPs hRs hS.isUnit, Matrix.sub_apply, hleft, Matrix.mul_assoc]
    rfl
  rw [hentry]
  constructor
  · exact sub_le_self _ (form_nonneg hS.inv.posSemidef _)
  · intro k hk
    have hsingle : (fun l => (H * P) l i) = Pi.single k ((H * P) k i) := by
      funext l
      by_cases h : l = k
      · rw [h, Pi.single_eq_same]
      · rw [Pi.single_eq_of_ne h, hk l h]
    have hpos : 0 < innovation H R P k k := hS.diag_pos
    have hinv : 1 / innovation H R P k k ≤ (innovation H R P)⁻¹ k k := by
      rw [div_le_iff₀ hpos, mul_comm]
      exact one_le_mul_inv_diag hS k
    have hform : (H * P) k i ^ 2 / innovation H R P k k ≤
        (fun l => (H * P) l i) ⬝ᵥ ((innovation H R P)⁻¹ *ᵥ fun l => (H * P) l i) := by
      rw [hsingle]
      simp only [mulVec_single, single_dotProduct, Pi.smul_apply, col_apply, MulOpposite.smul_eq_mul_unop,
        MulOpposite.unop_op]
      calc (H * P) k i ^ 2 / innovation H R P k k = (H * P) k i ^ 2 * (1 / innovation H R P k k) := by ring
        _ ≤ (H * P) k i ^ 2 * (innovation H R P)⁻¹ k k := mul_le_mul_of_nonneg_left hinv (sq_nonneg _)
        _ = (H * P) k i * ((innovation H R P)⁻¹ k k * (H * P) k i) := by ring
    linarith

/-! ## States that are estimated apart -/

/-- No covariance between the states in `U` and the others. -/
def Apart (U : n → Prop) (P : Matrix n n ℝ) : Prop := ∀ i j, U i → ¬ U j → P i j = 0 ∧ P j i = 0

/-- The measurement reads states in `U` only. -/
def Reads (U : n → Prop) (H : Matrix m n ℝ) : Prop := ∀ k j, ¬ U j → H k j = 0

omit [DecidableEq n] in
theorem Apart.mul {U : n → Prop} {A B : Matrix n n ℝ} (hA : Apart U A) (hB : Apart U B) : Apart U (A * B) := by
  intro i j hi hj
  constructor
  · rw [Matrix.mul_apply]
    refine Finset.sum_eq_zero fun k _ => ?_
    by_cases hk : U k
    · rw [(hB k j hk hj).1, mul_zero]
    · rw [(hA i k hi hk).1, zero_mul]
  · rw [Matrix.mul_apply]
    refine Finset.sum_eq_zero fun k _ => ?_
    by_cases hk : U k
    · rw [(hA k j hk hj).2, zero_mul]
    · rw [(hB i k hi hk).2, mul_zero]

omit [Fintype n] [DecidableEq n] in
theorem Apart.transpose {U : n → Prop} {A : Matrix n n ℝ} (hA : Apart U A) : Apart U Aᵀ :=
  fun i j hi hj => (hA i j hi hj).symm

omit [DecidableEq n] in
theorem apart_propagate {U : n → Prop} {F Q P : Matrix n n ℝ} (hF : Apart U F) (hQ : Apart U Q) (hP : Apart U P) :
    Apart U (propagate F Q P) := by
  intro i j hi hj
  have hcarried := (hF.mul hP).mul hF.transpose i j hi hj
  have hnoise := hQ i j hi hj
  unfold propagate
  rw [Matrix.add_apply, Matrix.add_apply, hcarried.1, hcarried.2, hnoise.1, hnoise.2, add_zero]
  exact ⟨rfl, rfl⟩

/-- `M` is the identity but for the states in `U`. -/
structure Spares (U : n → Prop) (M : Matrix n n ℝ) : Prop where
  row : ∀ i, ¬ U i → ∀ j, M i j = (1 : Matrix n n ℝ) i j
  column : ∀ j, ¬ U j → ∀ i, M i j = (1 : Matrix n n ℝ) i j

omit [Fintype n] in
theorem Spares.apart {U : n → Prop} {M : Matrix n n ℝ} (hM : Spares U M) : Apart U M := by
  intro i j hi hj
  have hne : i ≠ j := fun h => hj (h ▸ hi)
  rw [hM.column j hj i, hM.row j hj i, one_apply_ne hne, one_apply_ne hne.symm]
  exact ⟨rfl, rfl⟩

/-- **Around a covariance it leaves the states outside of `U`.** -/
theorem Spares.congruence_apply {U : n → Prop} {M : Matrix n n ℝ} (hM : Spares U M) (P : Matrix n n ℝ) {i j : n}
    (hi : ¬ U i) (hj : ¬ U j) : (M * P * Mᵀ) i j = P i j := by
  have hleft : (M * P) i j = P i j := by
    rw [Matrix.mul_apply, Finset.sum_eq_single i, hM.row i hi, one_apply_eq, one_mul]
    · intro k _ hk
      rw [hM.row i hi, one_apply_ne hk.symm, zero_mul]
    · exact fun h => absurd (Finset.mem_univ i) h
  rw [Matrix.mul_apply, Finset.sum_eq_single j, transpose_apply, hM.row j hj, one_apply_eq, mul_one, hleft]
  · intro k _ hk
    rw [transpose_apply, hM.row j hj, one_apply_ne hk.symm, mul_zero]
  · exact fun h => absurd (Finset.mem_univ j) h

omit [DecidableEq n] in
/-- The gain of a measurement that reads the states in `U`: nothing of the others. -/
theorem gain_eq_zero {U : n → Prop} {H : Matrix m n ℝ} {S : Matrix m m ℝ} {P : Matrix n n ℝ} (hP : Apart U P)
    (hH : Reads U H) {i : n} (hi : ¬ U i) (k : m) : (P * Hᵀ * S) i k = 0 := by
  rw [Matrix.mul_apply]
  refine Finset.sum_eq_zero fun l _ => ?_
  rw [Matrix.mul_apply, Finset.sum_eq_zero, zero_mul]
  intro j _
  by_cases hj : U j
  · rw [(hP j i hj hi).2, zero_mul]
  · rw [transpose_apply, hH l j hj, mul_zero]

omit [Fintype n] in
theorem spares_sub_mul {U : n → Prop} {H : Matrix m n ℝ} {gain : Matrix n m ℝ}
    (hgain : ∀ i, ¬ U i → ∀ k, gain i k = 0) (hH : Reads U H) : Spares U (1 - gain * H) := by
  constructor
  · intro i hi j
    rw [Matrix.sub_apply, Matrix.mul_apply, Finset.sum_eq_zero, sub_zero]
    exact fun k _ => by rw [hgain i hi k, zero_mul]
  · intro j hj i
    rw [Matrix.sub_apply, Matrix.mul_apply, Finset.sum_eq_zero, sub_zero]
    exact fun k _ => by rw [hH k j hj, mul_zero]

/-- **An update that reads the states in `U` leaves the others, and keeps them apart.** -/
theorem apart_joseph {U : n → Prop} {H : Matrix m n ℝ} {R S : Matrix m m ℝ} {P : Matrix n n ℝ} (hP : Apart U P)
    (hH : Reads U H) : Apart U (joseph (P * Hᵀ * S) H R P) ∧
      ∀ i j, ¬ U i → ¬ U j → joseph (P * Hᵀ * S) H R P i j = P i j := by
  have hgain : ∀ i, ¬ U i → ∀ k, (P * Hᵀ * S) i k = 0 := fun i hi k => gain_eq_zero hP hH hi k
  generalize P * Hᵀ * S = gain at hgain ⊢
  have hspares := spares_sub_mul hgain hH
  have hapart := (hspares.apart.mul hP).mul hspares.apart.transpose
  have hnoise : ∀ i j, ¬ U i ∨ ¬ U j → (gain * R * gainᵀ) i j = 0 := by
    intro i j hij
    rw [Matrix.mul_apply]
    refine Finset.sum_eq_zero fun k _ => ?_
    rcases hij with hi | hj
    · rw [Matrix.mul_apply, Finset.sum_eq_zero (fun l _ => by rw [hgain i hi l, zero_mul]), zero_mul]
    · rw [transpose_apply, hgain j hj k, mul_zero]
  have hentry : ∀ i j, joseph gain H R P i j =
      ((1 - gain * H) * P * (1 - gain * H)ᵀ : Matrix n n ℝ) i j + (gain * R * gainᵀ) i j := fun i j => rfl
  refine ⟨fun i j hi hj => ⟨?_, ?_⟩, fun i j hi hj => ?_⟩
  · rw [hentry, hnoise i j (.inr hj), (hapart i j hi hj).1, add_zero]
  · rw [hentry, hnoise j i (.inl hj), (hapart i j hi hj).2, add_zero]
  · rw [hentry, hnoise i j (.inl hi), hspares.congruence_apply P hi hj, add_zero]

end Covariance
end LfSentry
