import LfSentry.BuffTarget
import LfSentry.RestingTarget
import LfSentry.Rotations
import Mathlib.Analysis.Real.Pi.Bounds
/-!
# Eulers — angles of a rotation and of a place (`sp_vision_25/tools/math_tools`)

`eulers` makes three angles of a quaternion, for any order of the axes, about axes that stand or about axes that turn along.
It first makes four numbers, parts of the quaternion or sums of two; the pairs of them give the middle angle and the two others.
-/
namespace LfSentry
namespace Vision

open Rotations (toRotationMatrix about turn part Frame)
open LfSentry.Vision.Dual (realLibm)

section Code

variable {K : Type} [Field K] [LinearOrder K] [FloorRing K]

/-- `Eigen::Quaterniond::coeffs` -/
def coeffs (q : Quaternion K) (n : Int) : K :=
  if n = 0 then q.imI else if n = 1 then q.imJ else if n = 2 then q.imK else q.re

/-- The `a`, `b`, `c` and `d` of `eulers`. -/
structure EulerNumbers (K : Type) where
  a : K
  b : K
  c : K
  d : K

def EulerNumbers.of (q : Quaternion K) (isProper : Bool) (i j k sign : Int) : EulerNumbers K :=
  let xyzw := coeffs q
  if isProper then ⟨xyzw 3, xyzw i, xyzw j, xyzw k * sign⟩
  else ⟨xyzw 3 - xyzw j, xyzw i + xyzw k * sign, xyzw j + xyzw 3, xyzw k * sign - xyzw i⟩

variable (lib : Libm K) (acos : K → K)

/-- The angles before they are limited; at a gimbal lock one of them is taken as zero. -/
def EulerNumbers.angles (p : EulerNumbers K) (extrinsic : Bool) : Fin 3 → K :=
  let n2 := p.a * p.a + p.b * p.b + p.c * p.c + p.d * p.d
  let middle := acos (2.0 * (p.a * p.a + p.b * p.b) / n2 - 1)
  let halfSum := lib.atan2 p.b p.a
  let halfDiff := lib.atan2 (-p.d) p.c
  let safe1 := decide (|middle| ≥ 1e-7)
  let safe2 := decide (|middle - lib.pi| ≥ 1e-7)
  if safe1 && safe2 then ![halfSum + halfDiff, middle, halfSum - halfDiff]
  else if extrinsic then ![if safe2 then 2.0 * halfSum else 2.0 * halfDiff, middle, 0]
  else ![0, middle, if safe2 then 2.0 * halfSum else -2.0 * halfDiff]

/-- `eulers` after the first swap and before the last. -/
def eulersBetween (q : Quaternion K) (axis0 axis1 axis2 : Int) (extrinsic : Bool) : Fin 3 → K :=
  let i := axis0
  let j := axis1
  let isProper := decide (i = axis2)
  let k := if isProper then 3 - i - j else axis2
  let sign := ((i - j) * (j - k) * (k - i)).tdiv 2
  let eulers := (EulerNumbers.of q isProper i j k sign).angles lib acos extrinsic
  let eulers n := limitRad lib (eulers n)
  if isProper then eulers else ![eulers 0, eulers 1 - lib.pi / 2.0, eulers 2 * sign]

def eulers (q : Quaternion K) (axis0 axis1 axis2 : Int) (extrinsic : Bool) : Fin 3 → K :=
  if extrinsic then eulersBetween lib acos q axis0 axis1 axis2 true
  else
    let eulers := eulersBetween lib acos q axis2 axis1 axis0 false
    ![eulers 2, eulers 1, eulers 0]

def ypd2xyz (ypd : Fin 3 → K) : Fin 3 → K :=
  let yaw := ypd 0
  let pitch := ypd 1
  let distance := ypd 2
  ![distance * lib.cos pitch * lib.cos yaw, distance * lib.cos pitch * lib.sin yaw, distance * lib.sin pitch]

end Code

/-! ## Turns about the axes -/

/-- Three turns by three angles, about axes that stand or about axes that turn along. -/
noncomputable def composed (axis0 axis1 axis2 : Fin 3) (extrinsic : Bool) (angles : Fin 3 → ℝ) :
    Matrix (Fin 3) (Fin 3) ℝ :=
  if extrinsic then about axis2 (angles 2) * about axis1 (angles 1) * about axis0 (angles 0)
  else about axis0 (angles 0) * about axis1 (angles 1) * about axis2 (angles 2)

/-- The angle between the axis of the turn made last and that of the one made first, as it came to be; at a gimbal lock the
two are parallel. -/
noncomputable def lockAngle (q : Quaternion ℝ) (axis0 axis2 : Fin 3) (extrinsic : Bool) : ℝ :=
  Real.arccos (if extrinsic then toRotationMatrix q axis2 axis0 else toRotationMatrix q axis0 axis2)

/-- More than `1e-7` from gimbal lock. -/
def OffLock (angle : ℝ) : Prop := 1e-7 < angle ∧ angle < Real.pi - 1e-7

theorem exists_limitRad_eq (angle : ℝ) : ∃ n : ℤ, limitRad realLibm angle = angle - n * (2 * Real.pi) := by
  refine ⟨⌈(angle - Real.pi) / (2 * Real.pi)⌉, ?_⟩
  rw [mul_comm]
  rfl

theorem about_limitRad (a : Fin 3) (angle : ℝ) : about a (limitRad realLibm angle) = about a angle := by
  obtain ⟨n, hn⟩ := exists_limitRad_eq angle
  rw [hn]
  exact Rotations.about_congr a (Real.cos_sub_int_mul_two_pi _ _) (Real.sin_sub_int_mul_two_pi _ _)

theorem about_neg_limitRad (a : Fin 3) (angle : ℝ) : about a (-limitRad realLibm angle) = about a (-angle) := by
  obtain ⟨n, hn⟩ := exists_limitRad_eq angle
  rw [hn]
  refine Rotations.about_congr a ?_ ?_
  · rw [Real.cos_neg, Real.cos_neg, Real.cos_sub_int_mul_two_pi]
  · rw [Real.sin_neg, Real.sin_neg, Real.sin_sub_int_mul_two_pi]

theorem about_limitRad_mul {s : Int} (hs : s = 1 ∨ s = -1) (a : Fin 3) (angle : ℝ) :
    about a (limitRad realLibm angle * s) = about a (s * angle) := by
  rcases hs with rfl | rfl
  · rw [Int.cast_one, mul_one, one_mul, about_limitRad]
  · rw [Int.cast_neg, Int.cast_one, mul_neg_one, neg_one_mul, about_neg_limitRad]

theorem coeffs_axis (q : Quaternion ℝ) (a : Fin 3) : coeffs q a = part q a := by fin_cases a <;> rfl

theorem limitRad_arccos (x : ℝ) : limitRad realLibm (Real.arccos x) = Real.arccos x := by
  have h0 := Real.arccos_nonneg x
  have hpi := Real.pi_pos
  refine limitRad_of_mem hpi ?_ (Real.arccos_le_pi x)
  show -Real.pi < Real.arccos x
  linarith

/-! ## Off a gimbal lock -/

theorem OffLock.symm {angle : ℝ} (h : OffLock angle) : OffLock (Real.pi - angle) :=
  ⟨by linarith [h.2], by linarith [h.1]⟩

noncomputable def EulerNumbers.middle (p : EulerNumbers ℝ) : ℝ :=
  Real.arccos (2.0 * (p.a * p.a + p.b * p.b) / (p.a * p.a + p.b * p.b + p.c * p.c + p.d * p.d) - 1)

noncomputable def EulerNumbers.halfSum (p : EulerNumbers ℝ) : ℝ := Complex.arg ⟨p.a, p.b⟩

noncomputable def EulerNumbers.halfDiff (p : EulerNumbers ℝ) : ℝ := Complex.arg ⟨p.c, -p.d⟩

theorem EulerNumbers.angles_of_offLock {p : EulerNumbers ℝ} (h : OffLock p.middle) (extrinsic : Bool) :
    p.angles realLibm Real.arccos extrinsic = ![p.halfSum + p.halfDiff, p.middle, p.halfSum - p.halfDiff] := by
  have h1 : |p.middle| ≥ 1e-7 := h.1.le.trans (le_abs_self _)
  have h2 : |p.middle - Real.pi| ≥ 1e-7 := by
    rw [abs_sub_comm]
    exact le_trans (by linarith [h.2]) (le_abs_self _)
  have hsafe : (decide (|p.middle| ≥ 1e-7) && decide (|p.middle - Real.pi| ≥ 1e-7)) = true := by
    rw [decide_eq_true h1, decide_eq_true h2]
    rfl
  exact if_pos hsafe

variable {i j k : Fin 3} {s : Int} {q : Quaternion ℝ}

def EulerNumbers.same (q : Quaternion ℝ) (i j k : Fin 3) (s : Int) : EulerNumbers ℝ :=
  ⟨q.re, part q i, part q j, part q k * s⟩

def EulerNumbers.apart (q : Quaternion ℝ) (i j k : Fin 3) (s : Int) : EulerNumbers ℝ :=
  ⟨q.re - part q j, part q i + part q k * s, part q j + q.re, part q k * s - part q i⟩

theorem eulersBetween_same (h : Frame i j k s) (extrinsic : Bool) :
    eulersBetween realLibm Real.arccos q i j i extrinsic =
      fun n => limitRad realLibm ((EulerNumbers.same q i j k s).angles realLibm Real.arccos extrinsic n) := by
  have hnumbers : EulerNumbers.of q true i j k s = .same q i j k s := by
    unfold EulerNumbers.of
    dsimp only
    rw [if_pos rfl, coeffs_axis, coeffs_axis, coeffs_axis]
    rfl
  unfold eulersBetween
  dsimp only
  rw [decide_eq_true rfl, if_pos rfl, if_pos rfl, h.third, h.sign, hnumbers]

theorem eulersBetween_apart (h : Frame i j k s) (extrinsic : Bool) :
    let e n := limitRad realLibm ((EulerNumbers.apart q i j k s).angles realLibm Real.arccos extrinsic n)
    eulersBetween realLibm Real.arccos q i j k extrinsic = ![e 0, e 1 - Real.pi / 2.0, e 2 * s] := by
  have hnumbers : EulerNumbers.of q false i j k s = .apart q i j k s := by
    unfold EulerNumbers.of
    dsimp only
    rw [if_neg Bool.false_ne_true, coeffs_axis, coeffs_axis, coeffs_axis]
    rfl
  have hne : ((i : Nat) : Int) ≠ ((k : Nat) : Int) := by cases h <;> decide
  unfold eulersBetween
  dsimp only
  rw [decide_eq_false hne, if_neg Bool.false_ne_true, if_neg Bool.false_ne_true, h.sign, hnumbers]
  rfl

theorem same_sum (h : Frame i j k s) (hunit : Quaternion.normSq q = 1) :
    let p := EulerNumbers.same q i j k s
    p.a * p.a + p.b * p.b + p.c * p.c + p.d * p.d = 1 * 1 := by
  have hsq := h.sq_parts q
  have hs := h.sign_mul_self
  simp only [EulerNumbers.same]
  linear_combination hsq + hunit + part q k ^ 2 * hs

theorem apart_sum (h : Frame i j k s) (hunit : Quaternion.normSq q = 1) :
    let p := EulerNumbers.apart q i j k s
    p.a * p.a + p.b * p.b + p.c * p.c + p.d * p.d = Real.sqrt 2 * Real.sqrt 2 := by
  have hsq := h.sq_parts q
  have hs := h.sign_mul_self
  simp only [EulerNumbers.apart]
  rw [Real.mul_self_sqrt zero_le_two]
  linear_combination 2 * hsq + 2 * hunit + 2 * part q k ^ 2 * hs

/-- **Two turns about one axis with one between**, off a gimbal lock. -/
theorem composed_same (h : Frame i j k s) (hunit : Quaternion.normSq q = 1)
    (hoff : OffLock (Real.arccos (toRotationMatrix q i i))) (extrinsic : Bool) :
    let e := eulersBetween realLibm Real.arccos q i j i extrinsic
    about i (e 2) * about j (e 1) * about i (e 0) = toRotationMatrix q := by
  have htwo : (2.0 : ℝ) = 2 := by norm_num
  have hsum := same_sum h hunit
  have hmiddle : (EulerNumbers.same q i j k s).middle =
      Real.arccos (2 * (q.re * q.re + part q i * part q i) / (1 * 1) - 1) := by
    rw [EulerNumbers.middle, hsum, htwo]
    rfl
  have hlock : (EulerNumbers.same q i j k s).middle = Real.arccos (toRotationMatrix q i i) := by
    rw [hmiddle, h.rotation_diag hunit, mul_one, div_one]
  dsimp only
  rw [eulersBetween_same h, EulerNumbers.angles_of_offLock (hlock ▸ hoff)]
  show about i (limitRad realLibm _) * about j (limitRad realLibm (EulerNumbers.middle _)) *
    about i (limitRad realLibm _) = toRotationMatrix q
  rw [about_limitRad, about_limitRad, about_limitRad]
  have hturns := Rotations.eq_turns_same h one_pos hsum (one_mul q.re) (one_mul _) (one_mul _) (one_mul _)
  refine Eq.trans ?_ (congrArg toRotationMatrix hturns)
  rw [Rotations.rotation_turn_turn_turn, add_halves, add_halves, add_halves, hmiddle]
  rfl

/-- **Turns about three axes**, off a gimbal lock. -/
theorem composed_apart (h : Frame i j k s) (hunit : Quaternion.normSq q = 1)
    (hoff : OffLock (Real.arccos (toRotationMatrix q k i))) (extrinsic : Bool) :
    let e := eulersBetween realLibm Real.arccos q i j k extrinsic
    about k (e 2) * about j (e 1) * about i (e 0) = toRotationMatrix q := by
  have htwo : (2.0 : ℝ) = 2 := by norm_num
  have hsum := apart_sum h hunit
  have hmiddle : (EulerNumbers.apart q i j k s).middle = Real.arccos (2 * ((EulerNumbers.apart q i j k s).a *
      (EulerNumbers.apart q i j k s).a + (EulerNumbers.apart q i j k s).b * (EulerNumbers.apart q i j k s).b) /
        (Real.sqrt 2 * Real.sqrt 2) - 1) := by
    rw [EulerNumbers.middle, hsum, htwo]
  have hlock : (EulerNumbers.apart q i j k s).middle = Real.arccos (s * toRotationMatrix q k i) := by
    rw [hmiddle, h.rotation_off hunit, Real.mul_self_sqrt zero_le_two,
      mul_div_cancel_left₀ _ two_ne_zero]
    rfl
  have hoff' : OffLock (EulerNumbers.apart q i j k s).middle := by
    rw [hlock]
    rcases h.sign_eq with hs | hs
    · rw [hs, Int.cast_one, one_mul]
      exact hoff
    · -- the middle angle is the other one of the two that add up to half a circle
      rw [hs, Int.cast_neg, Int.cast_one, neg_one_mul, Real.arccos_neg]
      exact hoff.symm
  dsimp only
  rw [eulersBetween_apart h, EulerNumbers.angles_of_offLock hoff']
  show about k (limitRad realLibm _ * s) * about j (limitRad realLibm (EulerNumbers.middle _) - Real.pi / 2.0) *
    about i (limitRad realLibm _) = toRotationMatrix q
  have hturns := Rotations.eq_turns_apart h hsum rfl rfl rfl rfl
  refine Eq.trans ?_ (congrArg toRotationMatrix hturns)
  rw [Rotations.rotation_turn_turn_turn, add_halves, ← mul_add, add_halves, about_limitRad, about_limitRad_mul h.sign_eq,
    EulerNumbers.middle, limitRad_arccos, ← EulerNumbers.middle, hmiddle]
  generalize Real.arccos _ = middle
  have hhalves : middle / 2 - Real.pi / 4 + (middle / 2 - Real.pi / 4) = middle - Real.pi / 2.0 := by
    rw [htwo]
    ring
  rw [hhalves]
  rfl

theorem composed_between {l : Fin 3} (hij : i ≠ j) (hjl : j ≠ l) (hunit : Quaternion.normSq q = 1)
    (hoff : OffLock (Real.arccos (toRotationMatrix q l i))) (extrinsic : Bool) :
    let e := eulersBetween realLibm Real.arccos q i j l extrinsic
    about l (e 2) * about j (e 1) * about i (e 0) = toRotationMatrix q := by
  obtain ⟨k, s, h⟩ := Rotations.exists_frame hij
  by_cases hil : i = l
  · -- the third axis is in no turn, but gives the sign
    rw [← hil] at hoff ⊢
    exact composed_same h hunit hoff extrinsic
  · rw [h.eq_third hil hjl] at hoff ⊢
    exact composed_apart h hunit hoff extrinsic

/-- **The turns by the angles of `eulers` make the rotation.** -/
theorem composed_eulers {axis0 axis1 axis2 : Fin 3} (h01 : axis0 ≠ axis1) (h12 : axis1 ≠ axis2)
    (hunit : Quaternion.normSq q = 1) {extrinsic : Bool} (hoff : OffLock (lockAngle q axis0 axis2 extrinsic)) :
    composed axis0 axis1 axis2 extrinsic (eulers realLibm Real.arccos q axis0 axis1 axis2 extrinsic) = toRotationMatrix q := by
  cases extrinsic with
  | true => exact composed_between h01 h12 hunit hoff true
  | false => exact composed_between h12.symm h01.symm hunit hoff false

/-! ## Yaw, pitch and roll -/

theorem rotationMatrix_eq_composed (ypr : Fin 3 → ℝ) : rotationMatrix realNumerics ypr = composed 2 1 0 false ypr := by
  show _ = about 2 (ypr 0) * about 1 (ypr 1) * about 0 (ypr 2)
  have hcos : realNumerics.cos = Real.cos := rfl
  have hsin : realNumerics.sin = Real.sin := rfl
  unfold rotationMatrix about
  rw [hcos, hsin]
  simp only [Matrix.cons_val, Matrix.mul_fin_three]
  simp [mul_assoc, sub_eq_add_neg, add_comm]

theorem EulerNumbers.angles_one (p : EulerNumbers ℝ) (extrinsic : Bool) :
    p.angles realLibm Real.arccos extrinsic 1 = p.middle := by
  unfold EulerNumbers.angles
  split
  · rfl
  · split <;> rfl

/-- **The pitch is not beyond a quarter circle**, also at a gimbal lock. -/
theorem pitch_mem (q : Quaternion ℝ) :
    -(Real.pi / 2) ≤ eulers realLibm Real.arccos q 2 1 0 false 1 ∧
      eulers realLibm Real.arccos q 2 1 0 false 1 ≤ Real.pi / 2 := by
  have hpitch : eulers realLibm Real.arccos q 2 1 0 false 1 =
      (EulerNumbers.apart q 0 1 2 1).middle - Real.pi / 2.0 := by
    show eulersBetween realLibm Real.arccos q (0 : Fin 3) (1 : Fin 3) (2 : Fin 3) false 1 = _
    rw [eulersBetween_apart .xyz]
    show limitRad realLibm (EulerNumbers.angles _ _ _ _ 1) - Real.pi / 2.0 = _
    rw [EulerNumbers.angles_one, EulerNumbers.middle, limitRad_arccos]
  have htwo : (2.0 : ℝ) = 2 := by norm_num
  have h0 : 0 ≤ (EulerNumbers.apart q 0 1 2 1).middle := Real.arccos_nonneg _
  have h1 : (EulerNumbers.apart q 0 1 2 1).middle ≤ Real.pi := Real.arccos_le_pi _
  rw [hpitch, htwo]
  exact ⟨by linarith, by linarith⟩

/-! ## Yaw, pitch and distance -/

theorem ypd2xyz_xyz2ypd (v : Fin 3 → ℝ) : ypd2xyz realLibm (xyz2ypd realNumerics v) = v := by
  have hground : 0 ≤ v 0 * v 0 + v 1 * v 1 := add_nonneg (mul_self_nonneg _) (mul_self_nonneg _)
  have hdistance : Real.sqrt (v 0 * v 0 + v 1 * v 1 + v 2 * v 2) =
      Real.sqrt (Real.sqrt (v 0 * v 0 + v 1 * v 1) * Real.sqrt (v 0 * v 0 + v 1 * v 1) + v 2 * v 2) := by
    rw [Real.mul_self_sqrt hground]
  have hcos := Rotations.sqrt_mul_cos_arg (Real.sqrt (v 0 * v 0 + v 1 * v 1)) (v 2)
  have hsin := Rotations.sqrt_mul_sin_arg (Real.sqrt (v 0 * v 0 + v 1 * v 1)) (v 2)
  rw [← hdistance] at hcos hsin
  ext n
  fin_cases n
  · show Real.sqrt (v 0 * v 0 + v 1 * v 1 + v 2 * v 2) *
      Real.cos (Complex.arg ⟨Real.sqrt (v 0 * v 0 + v 1 * v 1), v 2⟩) * Real.cos (Complex.arg ⟨v 0, v 1⟩) = v 0
    rw [hcos, Rotations.sqrt_mul_cos_arg]
  · show Real.sqrt (v 0 * v 0 + v 1 * v 1 + v 2 * v 2) *
      Real.cos (Complex.arg ⟨Real.sqrt (v 0 * v 0 + v 1 * v 1), v 2⟩) * Real.sin (Complex.arg ⟨v 0, v 1⟩) = v 1
    rw [hcos, Rotations.sqrt_mul_sin_arg]
  · exact hsin

theorem arg_polar {r angle : ℝ} (hr : 0 < r) (hlo : -Real.pi < angle) (hhi : angle ≤ Real.pi) :
    Complex.arg ⟨r * Real.cos angle, r * Real.sin angle⟩ = angle := by
  have hpolar : (⟨r * Real.cos angle, r * Real.sin angle⟩ : ℂ) =
      r * (Complex.cos angle + Complex.sin angle * Complex.I) := by
    rw [Complex.mk_eq_add_mul_I]
    push_cast
    ring
  rw [hpolar]
  exact Complex.arg_mul_cos_add_sin_mul_I hr ⟨hlo, hhi⟩

theorem sq_polar (r angle : ℝ) :
    r * Real.cos angle * (r * Real.cos angle) + r * Real.sin angle * (r * Real.sin angle) = r * r := by
  linear_combination r * r * Real.sin_sq_add_cos_sq angle

theorem xyz2ypd_ypd2xyz {yaw pitch distance : ℝ} (hd : 0 < distance) (hpitch : |pitch| < Real.pi / 2)
    (hlo : -Real.pi < yaw) (hhi : yaw ≤ Real.pi) :
    xyz2ypd realNumerics (ypd2xyz realLibm ![yaw, pitch, distance]) = ![yaw, pitch, distance] := by
  obtain ⟨hplo, hphi⟩ := abs_lt.1 hpitch
  have hpi := Real.pi_pos
  have hcos : 0 < distance * Real.cos pitch := mul_pos hd (Real.cos_pos_of_mem_Ioo ⟨hplo, hphi⟩)
  have hground : Real.sqrt (distance * Real.cos pitch * Real.cos yaw * (distance * Real.cos pitch * Real.cos yaw) +
      distance * Real.cos pitch * Real.sin yaw * (distance * Real.cos pitch * Real.sin yaw)) =
        distance * Real.cos pitch := by
    rw [sq_polar, Real.sqrt_mul_self hcos.le]
  have hall : Real.sqrt (distance * Real.cos pitch * Real.cos yaw * (distance * Real.cos pitch * Real.cos yaw) +
      distance * Real.cos pitch * Real.sin yaw * (distance * Real.cos pitch * Real.sin yaw) +
        distance * Real.sin pitch * (distance * Real.sin pitch)) = distance := by
    rw [sq_polar, sq_polar, Real.sqrt_mul_self hd.le]
  ext n
  fin_cases n
  · exact arg_polar hcos hlo hhi
  · refine (congrArg (fun r => Complex.arg ⟨r, distance * Real.sin pitch⟩) hground).trans ?_
    exact arg_polar hd (by linarith) (by linarith)
  · exact hall

/-- **Angles make the rotation and the place they were made of.**  Off a gimbal lock the turns by the angles of a unit
quaternion make its rotation, in every order of the axes; so does the matrix of yaw, pitch and roll, with a pitch of a quarter
circle at most; and yaw, pitch and distance are one to one with the places. -/
theorem angles_round_trip :
    (∀ q : Quaternion ℝ, Quaternion.normSq q = 1 → ∀ axis0 axis1 axis2 : Fin 3, axis0 ≠ axis1 → axis1 ≠ axis2 →
      ∀ extrinsic, OffLock (lockAngle q axis0 axis2 extrinsic) →
        composed axis0 axis1 axis2 extrinsic (eulers realLibm Real.arccos q axis0 axis1 axis2 extrinsic) = toRotationMatrix q) ∧
      (∀ q : Quaternion ℝ, Quaternion.normSq q = 1 → OffLock (lockAngle q 2 0 false) →
        rotationMatrix realNumerics (eulers realLibm Real.arccos q 2 1 0 false) = toRotationMatrix q ∧
          eulers realLibm Real.arccos q 2 1 0 false 1 ∈ Set.Icc (-(Real.pi / 2)) (Real.pi / 2)) ∧
      (∀ v : Fin 3 → ℝ, ypd2xyz realLibm (xyz2ypd realNumerics v) = v) ∧
      ∀ yaw pitch distance : ℝ, 0 < distance → |pitch| < Real.pi / 2 → -Real.pi < yaw → yaw ≤ Real.pi →
        xyz2ypd realNumerics (ypd2xyz realLibm ![yaw, pitch, distance]) = ![yaw, pitch, distance] := by
  refine ⟨fun q hunit axis0 axis1 axis2 h01 h12 extrinsic hoff => composed_eulers h01 h12 hunit hoff,
    fun q hunit hoff => ⟨?_, pitch_mem q⟩, ypd2xyz_xyz2ypd, fun yaw pitch distance => xyz2ypd_ypd2xyz⟩
  rw [rotationMatrix_eq_composed]
  have h21 : (2 : Fin 3) ≠ 1 := by decide
  have h10 : (1 : Fin 3) ≠ 0 := by decide
  exact composed_eulers h21 h10 hunit hoff

/-- A turn about the third axis by the angle whose half has the sine 0.8. -/
noncomputable def turned : Quaternion ℝ := ⟨0.6, 0, 0, 0.8⟩

theorem offLock_turned : OffLock (lockAngle turned 2 0 false) := by
  have hpi := Real.pi_gt_three
  have hzero : toRotationMatrix turned 2 0 = 0 := by
    rw [Rotations.rotation_eq]
    show (2 : ℝ) * (0 * 0.8 - 0.6 * 0) = 0
    norm_num
  have hquarter : lockAngle turned 2 0 false = Real.pi / 2 := by
    show Real.arccos (toRotationMatrix turned 2 0) = Real.pi / 2
    rw [hzero, Real.arccos_zero]
  rw [hquarter]
  constructor <;> norm_num <;> linarith

theorem angles_round_trip_turned :
    composed 2 1 0 false (eulers realLibm Real.arccos turned 2 1 0 false) = toRotationMatrix turned ∧
      rotationMatrix realNumerics (eulers realLibm Real.arccos turned 2 1 0 false) = toRotationMatrix turned ∧
      toRotationMatrix turned 1 0 = 24 / 25 ∧
      xyz2ypd realNumerics (ypd2xyz realLibm ![Real.pi, -1, 7]) = ![Real.pi, -1, 7] := by
  have hunit : Quaternion.normSq turned = 1 := by
    rw [Quaternion.normSq_def']
    norm_num [turned]
  have hpi := Real.pi_gt_three
  refine ⟨?_, ?_, ?_, ?_⟩
  · exact angles_round_trip.1 turned hunit 2 1 0 (by decide) (by decide) false offLock_turned
  · exact (angles_round_trip.2.1 turned hunit offLock_turned).1
  · rw [Rotations.rotation_eq]
    show (2 : ℝ) * (0 * 0 + 0.6 * 0.8) = 24 / 25
    norm_num
  · exact angles_round_trip.2.2.2 Real.pi (-1) 7 (by norm_num) (by rw [abs_neg, abs_one]; linarith) (by linarith) le_rfl

end Vision
end LfSentry
