import LfSentry.ProcessJacobian
/-!
# MeasurementJacobian — what the filters linearise of their measurements

A filter is updated with the product of hand-derived matrices, one for each step from the state to the measurement: the
place of an armor or of a blade, and its yaw, pitch and distance.  Each is the Jacobian of its step, so the products are
the Jacobians of the measurements wherever no angle jumps (`measurement_jacobians`).
-/
namespace LfSentry
namespace Vision

open Jacobian
open LfSentry.Vision.Dual (realLibm restingTarget)

/-! ## Yaw, pitch and distance -/

/-- Off the vertical axis, and not straight behind, where the yaw jumps. -/
def YawSmooth (x y : ℝ) : Prop := 0 < x ∨ y ≠ 0

variable {x y z : ℝ}

theorem YawSmooth.norm_pos (h : YawSmooth x y) : 0 < x * x + y * y := by
  obtain hx | hy := h
  · nlinarith [mul_pos hx hx, mul_self_nonneg y]
  · nlinarith [mul_self_pos.2 hy, mul_self_nonneg x]

theorem rpow_half (x : ℝ) : x ^ (0.5 : ℝ) = Real.sqrt x := by
  rw [Real.sqrt_eq_rpow]
  norm_num

theorem rpow_three_halves (h : 0 < x) : x ^ (1.5 : ℝ) = x * Real.sqrt x := by
  rw [Real.sqrt_eq_rpow, ← Real.rpow_one_add' h.le (by norm_num)]
  norm_num

section Spherical

variable {xyz : Fin 3 → ℝ}

theorem isGradient_square (i : Fin 3) : IsGradient ((2 * xyz i) • Pi.single i 1) (fun v : Fin 3 → ℝ => v i * v i) xyz := by
  refine ((isGradient_coordinate i).mul (isGradient_coordinate i)).congr ?_
  rw [← add_smul]
  ring_nf

/-- **`xyz2ypd_jacobian` is the Jacobian of `xyz2ypd`.** -/
theorem isJacobian_xyz2ypd (h : YawSmooth (xyz 0) (xyz 1)) :
    IsJacobian (xyz2ypdJacobian realNumerics xyz) (xyz2ypd realNumerics) xyz := by
  have hrho := h.norm_pos
  have hroot := Real.sqrt_pos.2 hrho
  have hself := Real.mul_self_sqrt hrho.le
  have hsum : 0 < xyz 0 * xyz 0 + xyz 1 * xyz 1 + xyz 2 * xyz 2 := by nlinarith [mul_self_nonneg (xyz 2)]
  have hground := (@isGradient_square xyz 0).add (isGradient_square 1)
  have hyaw := (isGradient_coordinate (x := xyz) 0).arg (isGradient_coordinate 1) h
  have hpitch := (hground.sqrt hrho.ne').arg (isGradient_coordinate 2) (.inl hroot)
  have hdistance := (hground.add (isGradient_square 2)).sqrt hsum.ne'
  rw [isJacobian_iff]
  intro i
  match i with
  | 0 =>
    refine hyaw.congr ?_
    funext j
    fin_cases j <;> simp [xyz2ypdJacobian, neg_div]
  | 1 =>
    refine hpitch.congr ?_
    have hthree : realNumerics.pow (xyz 0 * xyz 0 + xyz 1 * xyz 1) 1.5 = _ := rpow_three_halves hrho
    have hhalf : realNumerics.pow (xyz 0 * xyz 0 + xyz 1 * xyz 1) 0.5 = _ := rpow_half _
    unfold xyz2ypdJacobian
    simp only [hthree, hhalf, hself]
    generalize Real.sqrt (xyz 0 * xyz 0 + xyz 1 * xyz 1) = root at hroot hself
    generalize xyz 0 * xyz 0 + xyz 1 * xyz 1 = ground at hrho hself hsum
    have hsteep : xyz 2 * xyz 2 / ground + 1 = (ground + xyz 2 * xyz 2) / ground := by
      field_simp
      ring
    rw [hsteep]
    funext j
    fin_cases j
    · simp
      field_simp
    · simp
      field_simp
    · simp
      field_simp
      linarith
  | 2 =>
    refine hdistance.congr ?_
    have hhalf : realNumerics.pow (xyz 0 * xyz 0 + xyz 1 * xyz 1 + xyz 2 * xyz 2) 0.5 = _ := rpow_half _
    unfold xyz2ypdJacobian
    simp only [hhalf]
    funext j
    fin_cases j <;> simp <;> field_simp

/-- The matrix that keeps the first three components. -/
def firstThree {m : Nat} : Matrix (Fin 3) (Fin (m + 3)) ℝ := Matrix.of ![Pi.single 0 1, Pi.single 1 1, Pi.single 2 1]

theorem isJacobian_firstThree {m : Nat} {v : Fin (m + 3) → ℝ} :
    IsJacobian firstThree (fun v : Fin (m + 3) → ℝ => ![v 0, v 1, v 2]) v := by
  rw [isJacobian_iff]
  intro i
  fin_cases i <;> exact isGradient_coordinate _

/-- The matrix of `xyz2ypd_jacobian`, with a row and a column for what it leaves alone. -/
def bordered (J : Matrix (Fin 3) (Fin 3) ℝ) : Matrix (Fin 4) (Fin 4) ℝ :=
  !![J 0 0, J 0 1, J 0 2, 0;
     J 1 0, J 1 1, J 1 2, 0;
     J 2 0, J 2 1, J 2 2, 0;
     0, 0, 0, 1]

theorem isJacobian_bordered {J : Matrix (Fin 3) (Fin 3) ℝ} {f : (Fin 3 → ℝ) → Fin 3 → ℝ} {v : Fin 4 → ℝ}
    (hf : IsJacobian J f ![v 0, v 1, v 2]) :
    IsJacobian (bordered J) (fun v => ![f ![v 0, v 1, v 2] 0, f ![v 0, v 1, v 2] 1, f ![v 0, v 1, v 2] 2, v 3]) v := by
  have hrows := isJacobian_iff.1 (IsJacobian.comp (f := fun v : Fin 4 → ℝ => ![v 0, v 1, v 2]) hf isJacobian_firstThree)
  have hsame : ∀ i : Fin 3, (J * firstThree) i = bordered J i.castSucc := by
    intro i
    funext j
    fin_cases i <;> fin_cases j <;> simp [firstThree, bordered, Matrix.mul_apply, Fin.sum_univ_succ]
  rw [isJacobian_iff]
  intro i
  match i with
  | 0 => exact (hrows 0).congr (hsame 0)
  | 1 => exact (hrows 1).congr (hsame 1)
  | 2 => exact (hrows 2).congr (hsame 2)
  | 3 =>
    refine (isGradient_coordinate 3).congr ?_
    funext j
    fin_cases j <;> rfl

end Spherical

/-! ## An armor -/

section Armor

variable (target : Target ℝ) (id : Nat)

/-- Where armor `id` is, as a function of the state. -/
noncomputable def Target.armorAt (x : Fin 11 → ℝ) : Fin 4 → ℝ :=
  let armor := ({ target with x := x } : Target ℝ).armorXyza realLibm id
  ![armor.x, armor.y, armor.z, armor.angle]

def Target.useSecondRadius : Prop := target.armorNum = 4 ∧ (id = 1 ∨ id = 3)

instance : Decidable (target.useSecondRadius id) :=
  inferInstanceAs (Decidable (target.armorNum = 4 ∧ (id = 1 ∨ id = 3)))

/-- The `H_armor_xyza` of `h_jacobian`. -/
noncomputable def Target.armorRows : Matrix (Fin 4) (Fin 11) ℝ :=
  let angle := limitRad realLibm (target.x 6 + id * 2.0 * Real.pi / target.armorNum)
  let r := if target.useSecondRadius id then target.x 8 + target.x 9 else target.x 8
  let dzDl : ℝ := if target.name = .outpost ∧ target.armorNum = 3 then if id = 1 then 1 else 0 else 0
  let dzDh : ℝ :=
    if target.name = .outpost ∧ target.armorNum = 3 then if id = 2 then 1 else 0
    else if target.useSecondRadius id then 1 else 0
  !![1, 0, 0, 0, 0, 0, r * Real.sin angle, 0, -Real.cos angle, if target.useSecondRadius id then -Real.cos angle else 0, 0;
     0, 0, 1, 0, 0, 0, -r * Real.cos angle, 0, -Real.sin angle, if target.useSecondRadius id then -Real.sin angle else 0, 0;
     0, 0, 0, 0, 1, 0, 0, 0, 0, dzDl, dzDh;
     0, 0, 0, 0, 0, 0, 1, 0, 0, 0, 0]

theorem hJacobian_eq : target.hJacobian realNumerics id =
    bordered (xyz2ypdJacobian realNumerics (let armor := target.armorXyza realLibm id; ![armor.x, armor.y, armor.z])) *
      target.armorRows id := rfl

variable {target id}

theorem isGradient_radius : IsGradient (if target.useSecondRadius id then Pi.single 8 1 + Pi.single 9 1 else Pi.single 8 1)
    (fun x : Fin 11 → ℝ => if target.useSecondRadius id then x 8 + x 9 else x 8) target.x := by
  by_cases h : target.useSecondRadius id
  · simp only [if_pos h]
    exact (isGradient_coordinate 8).add (isGradient_coordinate 9)
  · simp only [if_neg h]
    exact isGradient_coordinate 8

theorem isGradient_angle (h : (target.armorXyza realLibm id).angle ≠ Real.pi) :
    IsGradient (Pi.single 6 1) (fun x : Fin 11 → ℝ => limitRad realLibm (x 6 + id * 2 * Real.pi / target.armorNum))
      target.x :=
  isGradient_limitRad (((isGradient_coordinate 6).add (isGradient_const _)).congr (add_zero _)) h

theorem heightRow_eq (a b : ℝ) :
    (![0, 0, 0, 0, 1, 0, 0, 0, 0, a, b] : Fin 11 → ℝ) = Pi.single 4 1 + Pi.single 9 a + Pi.single 10 b := by
  funext j
  fin_cases j <;> simp

theorem armorRows_two : target.armorRows id 2 = Pi.single 4 1 +
    Pi.single 9 (if target.name = .outpost ∧ target.armorNum = 3 then if id = 1 then 1 else 0 else 0) +
    Pi.single 10 (if target.name = .outpost ∧ target.armorNum = 3 then if id = 2 then 1 else 0
      else if target.useSecondRadius id then 1 else 0) := heightRow_eq _ _

/-- The height of an armor is the one of the target, or one of its two steps above it. -/
theorem height_cases : (target.armorRows id 2 = Pi.single 4 1 ∧ ∀ x, target.armorAt id x 2 = x 4) ∨
    ∃ k, target.armorRows id 2 = Pi.single 4 1 + Pi.single k 1 ∧ ∀ x, target.armorAt id x 2 = x 4 + x k := by
  rw [armorRows_two]
  unfold Target.armorAt Target.armorXyza
  by_cases hout : target.name = .outpost ∧ target.armorNum = 3
  · by_cases h1 : id = 1
    · exact .inr ⟨9, by simp [hout, h1], fun x => by simp [hout, h1]⟩
    · by_cases h2 : id = 2
      · exact .inr ⟨10, by simp [hout, h2], fun x => by simp [hout, h2]⟩
      · exact .inl ⟨by simp [hout, h1, h2], fun x => by simp [hout, h1, h2]⟩
  · by_cases hsecond : target.useSecondRadius id
    · have hsame : target.armorNum = 4 ∧ (id = 1 ∨ id = 3) := hsecond
      exact .inr ⟨10, by simp [hout, hsecond], fun x => by simp [hsame]⟩
    · have hsame : ¬ (target.armorNum = 4 ∧ (id = 1 ∨ id = 3)) := hsecond
      exact .inl ⟨by simp [hout, hsecond], fun x => by simp [hout, hsame]⟩

theorem isGradient_height : IsGradient (target.armorRows id 2) (fun x => target.armorAt id x 2) target.x := by
  obtain ⟨hrow, hat⟩ | ⟨k, hrow, hat⟩ := @height_cases target id
  · simp only [hrow, hat]
    exact isGradient_coordinate 4
  · simp only [hrow, hat]
    exact (isGradient_coordinate 4).add (isGradient_coordinate k)

theorem placeRow_eq (p q a b c : ℝ) : (![p, 0, q, 0, 0, 0, a, 0, b, c, 0] : Fin 11 → ℝ) =
    p • Pi.single 0 1 + q • Pi.single 2 1 + a • Pi.single 6 1 + b • Pi.single 8 1 + c • Pi.single 9 1 := by
  funext j
  fin_cases j <;> simp

/-- **`H_armor_xyza` is the Jacobian of the place of an armor.** -/
theorem isJacobian_armorAt (h : (target.armorXyza realLibm id).angle ≠ Real.pi) :
    IsJacobian (target.armorRows id) (target.armorAt id) target.x := by
  have hangle := isGradient_angle h
  have hradius := @isGradient_radius target id
  have hcos := hangle.comp (Real.hasDerivAt_cos _)
  have hsin := hangle.comp (Real.hasDerivAt_sin _)
  have htwo : (2.0 : ℝ) = 2 := by norm_num
  rw [isJacobian_iff]
  intro i
  match i with
  | 0 =>
    refine ((isGradient_coordinate 0).sub (hradius.mul hcos)).congr ?_
    unfold Target.armorRows
    rw [htwo]
    refine Eq.trans ?_ (placeRow_eq 1 0 _ _ _).symm
    split <;> module
  | 1 =>
    refine ((isGradient_coordinate 2).sub (hradius.mul hsin)).congr ?_
    unfold Target.armorRows
    rw [htwo]
    refine Eq.trans ?_ (placeRow_eq 0 1 _ _ _).symm
    split <;> module
  | 2 => exact isGradient_height
  | 3 =>
    refine hangle.congr ?_
    funext j
    fin_cases j <;> rfl

/-- **`h_jacobian` is the Jacobian of what is observed of an armor.** -/
theorem isJacobian_observation (harmor : YawSmooth (target.armorXyza realLibm id).x (target.armorXyza realLibm id).y)
    (h : (target.armorXyza realLibm id).angle ≠ Real.pi) :
    IsJacobian (target.hJacobian realNumerics id)
      (fun x => ({ target with x := x } : Target ℝ).observation realNumerics id) target.x := by
  rw [hJacobian_eq]
  have hspherical := isJacobian_bordered (v := target.armorAt id target.x)
    (@isJacobian_xyz2ypd ![target.armorAt id target.x 0, target.armorAt id target.x 1, target.armorAt id target.x 2] harmor)
  exact hspherical.comp (isJacobian_armorAt h)

end Armor

/-! ## The centre of a blade -/

section Blade

theorem isJacobian_ypd2xyz {ypd : Fin 3 → ℝ} : IsJacobian (ypd2xyzJacobian realNumerics ypd)
    (fun v => ![v 2 * Real.cos (v 1) * Real.cos (v 0), v 2 * Real.cos (v 1) * Real.sin (v 0), v 2 * Real.sin (v 1)]) ypd := by
  have hsinyaw := (isGradient_coordinate (x := ypd) 0).comp (Real.hasDerivAt_sin (ypd 0))
  have hcosyaw := (isGradient_coordinate (x := ypd) 0).comp (Real.hasDerivAt_cos (ypd 0))
  have hsinpitch := (isGradient_coordinate (x := ypd) 1).comp (Real.hasDerivAt_sin (ypd 1))
  have hground := (isGradient_coordinate (x := ypd) 2).mul
    ((isGradient_coordinate (x := ypd) 1).comp (Real.hasDerivAt_cos (ypd 1)))
  rw [isJacobian_iff]
  intro i
  match i with
  | 0 =>
    refine (hground.mul hcosyaw).congr ?_
    funext j
    fin_cases j <;> simp [ypd2xyzJacobian, realNumerics, realLibm] <;> ring
  | 1 =>
    refine (hground.mul hsinyaw).congr ?_
    funext j
    fin_cases j <;> simp [ypd2xyzJacobian, realNumerics, realLibm] <;> ring
  | 2 =>
    refine ((isGradient_coordinate 2).mul hsinpitch).congr ?_
    funext j
    fin_cases j <;> simp [ypd2xyzJacobian, realNumerics, realLibm]

/-- The yaw, the pitch and the distance of the rune turned into its place, beside its yaw and its roll. -/
noncomputable def runeCentre (v : Fin 5 → ℝ) : Fin 5 → ℝ :=
  ![v 2 * Real.cos (v 1) * Real.cos (v 0), v 2 * Real.cos (v 1) * Real.sin (v 0), v 2 * Real.sin (v 1), v 3, v 4]

/-- The `H1` of `h_jacobian`. -/
noncomputable def runeCentreJacobian (v : Fin 5 → ℝ) : Matrix (Fin 5) (Fin 5) ℝ :=
  let J := ypd2xyzJacobian realNumerics ![v 0, v 1, v 2]
  !![J 0 0, J 0 1, J 0 2, 0, 0;
     J 1 0, J 1 1, J 1 2, 0, 0;
     J 2 0, J 2 1, J 2 2, 0, 0;
     0, 0, 0, 1, 0;
     0, 0, 0, 0, 1]

/-- The centre of a blade, from the place, the yaw and the roll of the rune. -/
noncomputable def bladeCentre (v : Fin 5 → ℝ) : Fin 3 → ℝ :=
  ![v 0 + 0.7 * (Real.sin (v 3) * Real.sin (v 4)), v 1 + -0.7 * (Real.cos (v 3) * Real.sin (v 4)), v 2 + 0.7 * Real.cos (v 4)]

/-- The `H2` of `h_jacobian`. -/
noncomputable def bladeCentreJacobian (v : Fin 5 → ℝ) : Matrix (Fin 3) (Fin 5) ℝ :=
  !![1, 0, 0, 0.7 * Real.cos (v 3) * Real.sin (v 4), 0.7 * Real.sin (v 3) * Real.cos (v 4);
     0, 1, 0, 0.7 * Real.sin (v 3) * Real.sin (v 4), -0.7 * Real.cos (v 3) * Real.cos (v 4);
     0, 0, 1, 0, -0.7 * Real.sin (v 4)]

theorem isJacobian_runeCentre {v : Fin 5 → ℝ} : IsJacobian (runeCentreJacobian v) runeCentre v := by
  have hrows := isJacobian_iff.1
    (IsJacobian.comp (x := v) (f := fun v => ![v 0, v 1, v 2]) isJacobian_ypd2xyz isJacobian_firstThree)
  have hsame : ∀ i : Fin 3, (ypd2xyzJacobian realNumerics ![v 0, v 1, v 2] * firstThree) i =
      runeCentreJacobian v (i.castLE (by decide)) := by
    intro i
    funext j
    fin_cases i <;> fin_cases j <;> simp [firstThree, runeCentreJacobian, Matrix.mul_apply, Fin.sum_univ_succ]
  rw [isJacobian_iff]
  intro i
  match i with
  | 0 => exact (hrows 0).congr (hsame 0)
  | 1 => exact (hrows 1).congr (hsame 1)
  | 2 => exact (hrows 2).congr (hsame 2)
  | 3 => exact (isGradient_coordinate 3).congr (by funext j; fin_cases j <;> rfl)
  | 4 => exact (isGradient_coordinate 4).congr (by funext j; fin_cases j <;> rfl)

theorem bladeRow_eq (p q r a b : ℝ) : (![p, q, r, a, b] : Fin 5 → ℝ) =
    p • Pi.single 0 1 + q • Pi.single 1 1 + r • Pi.single 2 1 + a • Pi.single 3 1 + b • Pi.single 4 1 := by
  funext j
  fin_cases j <;> simp

theorem isJacobian_bladeCentre {v : Fin 5 → ℝ} : IsJacobian (bladeCentreJacobian v) bladeCentre v := by
  have hsinyaw := (isGradient_coordinate (x := v) 3).comp (Real.hasDerivAt_sin (v 3))
  have hcosyaw := (isGradient_coordinate (x := v) 3).comp (Real.hasDerivAt_cos (v 3))
  have hsinroll := (isGradient_coordinate (x := v) 4).comp (Real.hasDerivAt_sin (v 4))
  have hcosroll := (isGradient_coordinate (x := v) 4).comp (Real.hasDerivAt_cos (v 4))
  rw [isJacobian_iff]
  intro i
  match i with
  | 0 =>
    refine ((isGradient_coordinate 0).add ((isGradient_const 0.7).mul (hsinyaw.mul hsinroll))).congr ?_
    refine Eq.trans ?_ (bladeRow_eq 1 0 0 _ _).symm
    module
  | 1 =>
    refine ((isGradient_coordinate 1).add ((isGradient_const (-0.7)).mul (hcosyaw.mul hsinroll))).congr ?_
    refine Eq.trans ?_ (bladeRow_eq 0 1 0 _ _).symm
    module
  | 2 =>
    refine ((isGradient_coordinate 2).add ((isGradient_const 0.7).mul hcosroll)).congr ?_
    refine Eq.trans ?_ (bladeRow_eq 0 0 1 _ _).symm
    module

variable {n : Nat} [NeZero n] {target : BuffTarget ℝ n} {H0 : Matrix (Fin 5) (Fin n) ℝ}

/-- What `point_buff2world` makes of the centre of a blade. -/
theorem bladeXyz_eq (hsolvable : target.unsolvable = false) (x : Fin n → ℝ) :
    BuffTarget.bladeXyz realNumerics { target with ekf := { target.ekf with x := x } } =
      bladeCentre (runeCentre ![x 0, x 2, x 3, x 4, x 5]) := by
  unfold BuffTarget.bladeXyz BuffTarget.pointBuff2world
  simp only [hsolvable]
  funext i
  fin_cases i <;> simp [bladeCentre, runeCentre, rotationMatrix, realNumerics, realLibm] <;> ring

theorem hJacobianOf_eq : target.hJacobianOf realNumerics H0 =
    let v : Fin 5 → ℝ := ![target.ekf.x 0, target.ekf.x 2, target.ekf.x 3, target.ekf.x 4, target.ekf.x 5]
    xyz2ypdJacobian realNumerics (target.bladeXyz realNumerics) * bladeCentreJacobian (runeCentre v) *
      runeCentreJacobian v * H0 := rfl

/-- **`h_jacobian` is the Jacobian of what is observed of a blade.** -/
theorem isJacobian_observeBlade (hH0 : ∀ x, H0.mulVec x = ![x 0, x 2, x 3, x 4, x 5])
    (hsolvable : target.unsolvable = false)
    (hblade : YawSmooth (target.bladeXyz realNumerics 0) (target.bladeXyz realNumerics 1)) :
    IsJacobian (target.hJacobianOf realNumerics H0) (target.observeBlade realNumerics) target.ekf.x := by
  have hplace : ∀ x, BuffTarget.bladeXyz realNumerics { target with ekf := { target.ekf with x := x } } =
      bladeCentre (runeCentre (H0.mulVec x)) := fun x => by rw [hH0, bladeXyz_eq hsolvable]
  have hhere : target.bladeXyz realNumerics = bladeCentre (runeCentre (H0.mulVec target.ekf.x)) := hplace target.ekf.x
  have hobserve : target.observeBlade realNumerics =
      fun x => xyz2ypd realNumerics (bladeCentre (runeCentre (H0.mulVec x))) := by
    funext x
    unfold BuffTarget.observeBlade
    rw [hplace]
  have hchain := isJacobian_bladeCentre.comp (isJacobian_runeCentre.comp (isJacobian_mulVec (x := target.ekf.x) H0))
  rw [hhere] at hblade
  rw [hobserve, hJacobianOf_eq, Matrix.mul_assoc, Matrix.mul_assoc, hhere, ← hH0]
  exact IsJacobian.comp (f := fun x => bladeCentre (runeCentre (H0.mulVec x))) (isJacobian_xyz2ypd hblade) hchain

end Blade

/-! ## Every filter -/

section Measurements

variable {target : Target ℝ} {id : Nat} {small : SmallTarget ℝ} {big : BigTarget ℝ}

theorem bladeRows_small (x : Fin 7 → ℝ) : SmallTarget.bladeRows.mulVec x = ![x 0, x 2, x 3, x 4, x 5] := by
  simp only [SmallTarget.bladeRows, Matrix.cons_mulVec, Matrix.cons_dotProduct, Matrix.dotProduct_of_isEmpty, Matrix.empty_mulVec,
    zero_mul, one_mul, zero_add, add_zero]
  rfl

theorem bladeRows_big (x : Fin 10 → ℝ) : BigTarget.bladeRows.mulVec x = ![x 0, x 2, x 3, x 4, x 5] := by
  simp only [BigTarget.bladeRows, Matrix.cons_mulVec, Matrix.cons_dotProduct, Matrix.dotProduct_of_isEmpty, Matrix.empty_mulVec,
    zero_mul, one_mul, zero_add, add_zero]
  rfl

/-- **Each `h_jacobian` is the Jacobian of its measurement, wherever no angle of the measurement jumps.** -/
theorem measurement_jacobians (harmor : YawSmooth (target.armorXyza realLibm id).x (target.armorXyza realLibm id).y)
    (hangle : (target.armorXyza realLibm id).angle ≠ Real.pi) (hsmall : small.unsolvable = false)
    (hsmallBlade : YawSmooth (small.bladeXyz realNumerics 0) (small.bladeXyz realNumerics 1))
    (hbig : big.unsolvable = false)
    (hbigBlade : YawSmooth (big.bladeXyz realNumerics 0) (big.bladeXyz realNumerics 1)) :
    IsJacobian (target.hJacobian realNumerics id)
        (fun x => ({ target with x := x } : Target ℝ).observation realNumerics id) target.x ∧
      IsJacobian (small.hJacobian realNumerics) (small.observeBlade realNumerics) small.ekf.x ∧
      IsJacobian (big.hJacobian realNumerics) (big.observeBlade realNumerics) big.ekf.x :=
  ⟨isJacobian_observation harmor hangle, isJacobian_observeBlade bladeRows_small hsmall hsmallBlade,
    isJacobian_observeBlade bladeRows_big hbig hbigBlade⟩

/-- A rune a metre ahead, not turned. -/
noncomputable def aheadRune : PowerRune ℝ := ⟨![0, 0, 1], 0, 0⟩

theorem yawSmooth_ahead {n : Nat} [NeZero n] {target : BuffTarget ℝ n} (hsolvable : target.unsolvable = false)
    (hx : ![target.ekf.x 0, target.ekf.x 2, target.ekf.x 3, target.ekf.x 4, target.ekf.x 5] = ![0, 0, 1, 0, 0]) :
    YawSmooth (target.bladeXyz realNumerics 0) (target.bladeXyz realNumerics 1) := by
  have hplace : target.bladeXyz realNumerics = _ := bladeXyz_eq hsolvable target.ekf.x
  rw [hplace, hx]
  left
  simp [bladeCentre, runeCentre]

/-- An armor three metres ahead, and both runes a metre ahead. -/
theorem measurement_jacobians_ahead :
    let small : SmallTarget ℝ := { SmallTarget.init realNumerics ⟨.fresh⟩ 0 aheadRune with unsolvable := false }
    let big : BigTarget ℝ := { BigTarget.init realNumerics ⟨.fresh⟩ 0 aheadRune with unsolvable := false }
    let target : Target ℝ := restingTarget 3 0.2
    IsJacobian (target.hJacobian realNumerics 0)
        (fun x => ({ target with x := x } : Target ℝ).observation realNumerics 0) target.x ∧
      IsJacobian (small.hJacobian realNumerics) (small.observeBlade realNumerics) small.ekf.x ∧
      IsJacobian (big.hJacobian realNumerics) (big.observeBlade realNumerics) big.ekf.x := by
  have hcos : realLibm.cos 0 = 1 := Real.cos_zero
  have hsin : realLibm.sin 0 = 0 := Real.sin_zero
  have harmor : (restingTarget 3 0.2 : Target ℝ).armorXyza realLibm 0 = ⟨3, 0, 0, 0⟩ := by
    simp [Target.armorXyza, restingTarget, limitRad_zero, hcos, hsin]
  refine measurement_jacobians ?_ ?_ rfl (yawSmooth_ahead rfl ?_) rfl (yawSmooth_ahead rfl ?_)
  · rw [harmor]
    exact .inl (by norm_num)
  · rw [harmor]
    exact Real.pi_ne_zero.symm
  · rfl
  · rfl

end Measurements

end Vision
end LfSentry
