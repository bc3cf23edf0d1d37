import Mathlib.Algebra.Quaternion
import Mathlib.Analysis.SpecialFunctions.Complex.Arg
import Mathlib.LinearAlgebra.Matrix.Notation
/-!
# Rotations — unit quaternions, the matrices of their rotations, and turns about the axes

A quaternion rotates `v` to `q v q*`.  A turn about an axis by twice an angle is a quaternion, and three turns of which the
second is about another axis than the first and the third have a product whose parts are products of the cosines and sines of
half sums (`turn_turn_turn_same`, `turn_turn_turn_apart`).
-/
namespace LfSentry
namespace Rotations

section Quaternions

variable {R : Type} [CommRing R]

def axis : Fin 3 → Quaternion R := ![⟨0, 1, 0, 0⟩, ⟨0, 0, 1, 0⟩, ⟨0, 0, 0, 1⟩]

/-- The part of a quaternion along an axis. -/
def part (q : Quaternion R) : Fin 3 → R := ![q.imI, q.imJ, q.imK]

/-- The matrix of `v ↦ q v q*`. -/
def toRotationMatrix (q : Quaternion R) : Matrix (Fin 3) (Fin 3) R := Matrix.of fun r c => part (q * axis c * star q) r

/-- What a quaternion makes of a vector. -/
theorem part_conj (q : Quaternion R) {v : Quaternion R} (hv : v.re = 0) : part (q * v * star q) =
    ![(q.re ^ 2 + q.imI ^ 2 - q.imJ ^ 2 - q.imK ^ 2) * v.imI + 2 * (q.imI * q.imJ - q.re * q.imK) * v.imJ +
        2 * (q.imI * q.imK + q.re * q.imJ) * v.imK,
      2 * (q.imI * q.imJ + q.re * q.imK) * v.imI + (q.re ^ 2 - q.imI ^ 2 + q.imJ ^ 2 - q.imK ^ 2) * v.imJ +
        2 * (q.imJ * q.imK - q.re * q.imI) * v.imK,
      2 * (q.imI * q.imK - q.re * q.imJ) * v.imI + 2 * (q.imJ * q.imK + q.re * q.imI) * v.imJ +
        (q.re ^ 2 - q.imI ^ 2 - q.imJ ^ 2 + q.imK ^ 2) * v.imK] := by
  simp only [part, Quaternion.re_mul, Quaternion.imI_mul, Quaternion.imJ_mul, Quaternion.imK_mul, Quaternion.re_star,
    Quaternion.imI_star, Quaternion.imJ_star, Quaternion.imK_star, hv]
  congr 1
  · ring
  congr 1
  · ring
  congr 1
  ring

theorem re_axis (a : Fin 3) : (axis a : Quaternion R).re = 0 := by fin_cases a <;> rfl

theorem rotation_eq (q : Quaternion R) : toRotationMatrix q =
    !![q.re ^ 2 + q.imI ^ 2 - q.imJ ^ 2 - q.imK ^ 2, 2 * (q.imI * q.imJ - q.re * q.imK),
        2 * (q.imI * q.imK + q.re * q.imJ);
      2 * (q.imI * q.imJ + q.re * q.imK), q.re ^ 2 - q.imI ^ 2 + q.imJ ^ 2 - q.imK ^ 2,
        2 * (q.imJ * q.imK - q.re * q.imI);
      2 * (q.imI * q.imK - q.re * q.imJ), 2 * (q.imJ * q.imK + q.re * q.imI),
        q.re ^ 2 - q.imI ^ 2 - q.imJ ^ 2 + q.imK ^ 2] := by
  ext r c
  rw [toRotationMatrix, Matrix.of_apply, part_conj q (re_axis c)]
  fin_cases r <;> fin_cases c <;> simp [axis]

theorem re_conj (q : Quaternion R) {v : Quaternion R} (hv : v.re = 0) : (q * v * star q).re = 0 := by
  simp only [Quaternion.re_mul, Quaternion.imI_mul, Quaternion.imJ_mul, Quaternion.imK_mul, Quaternion.re_star,
    Quaternion.imI_star, Quaternion.imJ_star, Quaternion.imK_star, hv]
  ring

/-- The matrix rotates every vector. -/
theorem rotation_mulVec (q : Quaternion R) {v : Quaternion R} (hv : v.re = 0) :
    part (q * v * star q) = (toRotationMatrix q).mulVec (part v) := by
  rw [part_conj q hv, rotation_eq, part]
  ext r
  fin_cases r <;> simp [Matrix.mulVec, dotProduct, Fin.sum_univ_three]

/-- **The rotation of a product is first the right one, then the left one.** -/
theorem rotation_mul (p q : Quaternion R) : toRotationMatrix (p * q) = toRotationMatrix p * toRotationMatrix q := by
  ext r c
  have hassoc : p * q * axis c * star (p * q) = p * (q * axis c * star q) * star p := by
    rw [star_mul]
    simp only [mul_assoc]
  have hcolumn : part (q * axis c * star q) = fun k => toRotationMatrix q k c := rfl
  calc toRotationMatrix (p * q) r c = part (p * (q * axis c * star q) * star p) r := by
        rw [toRotationMatrix, Matrix.of_apply, hassoc]
    _ = (toRotationMatrix p).mulVec (part (q * axis c * star q)) r := by
        rw [rotation_mulVec p (re_conj q (re_axis c))]
    _ = (toRotationMatrix p * toRotationMatrix q) r c := by
        rw [hcolumn]
        rfl

end Quaternions

/-! ## Turns about an axis -/

open Real (cos sin)

/-- The matrix of a turn about an axis. -/
noncomputable def about (a : Fin 3) (angle : ℝ) : Matrix (Fin 3) (Fin 3) ℝ :=
  ![!![1, 0, 0; 0, cos angle, -sin angle; 0, sin angle, cos angle],
    !![cos angle, 0, sin angle; 0, 1, 0; -sin angle, 0, cos angle],
    !![cos angle, -sin angle, 0; sin angle, cos angle, 0; 0, 0, 1]] a

/-- The quaternion of a turn about an axis by twice an angle. -/
noncomputable def turn (a : Fin 3) (half : ℝ) : Quaternion ℝ :=
  ![⟨cos half, sin half, 0, 0⟩, ⟨cos half, 0, sin half, 0⟩, ⟨cos half, 0, 0, sin half⟩] a

@[simp] theorem re_turn (a : Fin 3) (half : ℝ) : (turn a half).re = cos half := by fin_cases a <;> rfl

@[simp] theorem imI_turn (a : Fin 3) (half : ℝ) : (turn a half).imI = ![sin half, 0, 0] a := by fin_cases a <;> rfl

@[simp] theorem imJ_turn (a : Fin 3) (half : ℝ) : (turn a half).imJ = ![0, sin half, 0] a := by fin_cases a <;> rfl

@[simp] theorem imK_turn (a : Fin 3) (half : ℝ) : (turn a half).imK = ![0, 0, sin half] a := by fin_cases a <;> rfl

theorem rotation_turn (a : Fin 3) (half : ℝ) : toRotationMatrix (turn a half) = about a (half + half) := by
  have hunit : cos half ^ 2 + sin half ^ 2 = 1 := Real.cos_sq_add_sin_sq half
  have hcos : cos half ^ 2 - sin half ^ 2 = cos half * cos half - sin half * sin half := by ring
  have hsin : 2 * (cos half * sin half) = sin half * cos half + cos half * sin half := by ring
  rw [rotation_eq, about, Real.cos_add, Real.sin_add]
  fin_cases a <;> simp [hunit, hcos, hsin]

theorem rotation_turn_turn_turn (a b c : Fin 3) (x y z : ℝ) :
    toRotationMatrix (turn a x * turn b y * turn c z) = about a (x + x) * about b (y + y) * about c (z + z) := by
  rw [rotation_mul, rotation_mul, rotation_turn, rotation_turn, rotation_turn]

theorem about_congr (a : Fin 3) {x y : ℝ} (hcos : cos x = cos y) (hsin : sin x = sin y) : about a x = about a y := by
  rw [about, about, hcos, hsin]

/-! ## Three turns -/

/-- The axes in an order, with its sign. -/
inductive Frame : Fin 3 → Fin 3 → Fin 3 → Int → Prop
  | xyz : Frame 0 1 2 1
  | yzx : Frame 1 2 0 1
  | zxy : Frame 2 0 1 1
  | xzy : Frame 0 2 1 (-1)
  | zyx : Frame 2 1 0 (-1)
  | yxz : Frame 1 0 2 (-1)

variable {i j k : Fin 3} {s : Int}

theorem exists_frame : ∀ {i j : Fin 3}, i ≠ j → ∃ k s, Frame i j k s := by
  intro i j h
  fin_cases i <;> fin_cases j <;> first | exact absurd rfl h | exact ⟨_, _, by constructor⟩

theorem Frame.third (h : Frame i j k s) : 3 - (i : Int) - j = k := by cases h <;> rfl

theorem Frame.sign (h : Frame i j k s) : (((i : Int) - j) * (j - k) * (k - i)).tdiv 2 = s := by cases h <;> rfl

theorem Frame.eq_third (h : Frame i j k s) {l : Fin 3} (hi : i ≠ l) (hj : j ≠ l) : l = k := by
  cases h <;> fin_cases l <;> simp at hi hj ⊢

theorem Frame.sign_eq (h : Frame i j k s) : s = 1 ∨ s = -1 := by cases h <;> simp

theorem Frame.sign_mul_self (h : Frame i j k s) : (s : ℝ) * s = 1 := by
  rcases h.sign_eq with hs | hs <;> rw [hs] <;> norm_num

theorem Frame.ext (h : Frame i j k s) {p q : Quaternion ℝ} (hre : p.re = q.re) (hi : part p i = part q i)
    (hj : part p j = part q j) (hk : part p k * s = part q k * s) : p = q := by
  cases h <;> simp [part] at hi hj hk <;> exact QuaternionAlgebra.ext hre (by assumption) (by assumption) (by assumption)

theorem Frame.ext_sums (h : Frame i j k s) {p q : Quaternion ℝ} (ha : p.re - part p j = q.re - part q j)
    (hb : part p i + part p k * s = part q i + part q k * s) (hc : part p j + p.re = part q j + q.re)
    (hd : part p k * s - part p i = part q k * s - part q i) : p = q := by
  refine h.ext ?_ ?_ ?_ ?_ <;> linarith

theorem Frame.sq_parts (h : Frame i j k s) (q : Quaternion ℝ) :
    q.re ^ 2 + part q i ^ 2 + part q j ^ 2 + part q k ^ 2 = Quaternion.normSq q := by
  rw [Quaternion.normSq_def']
  cases h <;> simp [part] <;> ring

theorem Frame.rotation_diag (h : Frame i j k s) {q : Quaternion ℝ} (hunit : Quaternion.normSq q = 1) :
    toRotationMatrix q i i = 2 * (q.re * q.re + part q i * part q i) - 1 := by
  rw [← h.sq_parts] at hunit
  rw [rotation_eq]
  cases h <;> simp [part] at hunit ⊢ <;> linarith

theorem Frame.rotation_off (h : Frame i j k s) {q : Quaternion ℝ} (hunit : Quaternion.normSq q = 1) :
    s * toRotationMatrix q k i =
      (q.re - part q j) * (q.re - part q j) + (part q i + part q k * s) * (part q i + part q k * s) - 1 := by
  rw [← h.sq_parts] at hunit
  rw [rotation_eq]
  cases h <;> simp [part] at hunit ⊢ <;> linarith

/-- **The parts of three turns of which the third is about the axis of the first.** -/
theorem turn_turn_turn_same (h : Frame i j k s) (x y z : ℝ) :
    (turn i x * turn j y * turn i z).re = cos y * cos (x + z) ∧
      part (turn i x * turn j y * turn i z) i = cos y * sin (x + z) ∧
      part (turn i x * turn j y * turn i z) j = sin y * cos (x - z) ∧
      part (turn i x * turn j y * turn i z) k * s = sin y * sin (x - z) := by
  rw [Real.cos_add, Real.sin_add, Real.cos_sub, Real.sin_sub]
  cases h <;> simp [part] <;> refine ⟨?_, ?_, ?_, ?_⟩ <;> ring

/-- **The sums of parts of three turns about three axes.** -/
theorem turn_turn_turn_apart (h : Frame i j k s) (x y z : ℝ) :
    let q := turn k (s * x) * turn j y * turn i z
    q.re - part q j = (cos y - sin y) * cos (x + z) ∧ part q i + part q k * s = (cos y - sin y) * sin (x + z) ∧
      part q j + q.re = (cos y + sin y) * cos (x - z) ∧ part q k * s - part q i = (cos y + sin y) * sin (x - z) := by
  rw [Real.cos_add, Real.sin_add, Real.cos_sub, Real.sin_sub]
  cases h <;> simp [part] <;> refine ⟨?_, ?_, ?_, ?_⟩ <;> ring

/-! ## Angles of four numbers -/

section Angles

variable {a b c d t : ℝ}

theorem cos_half_arccos (ht : 0 < t) (hsum : a * a + b * b + c * c + d * d = t * t) :
    t * cos (Real.arccos (2 * (a * a + b * b) / (t * t) - 1) / 2) = Real.sqrt (a * a + b * b) ∧
      t * sin (Real.arccos (2 * (a * a + b * b) / (t * t) - 1) / 2) = Real.sqrt (c * c + d * d) := by
  have htt : 0 < t * t := mul_pos ht ht
  have hm : 0 ≤ a * a + b * b := add_nonneg (mul_self_nonneg a) (mul_self_nonneg b)
  have hn : 0 ≤ c * c + d * d := add_nonneg (mul_self_nonneg c) (mul_self_nonneg d)
  have hcos : cos (Real.arccos (2 * (a * a + b * b) / (t * t) - 1)) = 2 * (a * a + b * b) / (t * t) - 1 := by
    refine Real.cos_arccos ?_ ?_
    · have := div_nonneg (mul_nonneg zero_le_two hm) htt.le
      linarith
    · have : 2 * (a * a + b * b) / (t * t) ≤ 2 := (div_le_iff₀ htt).2 (by linarith)
      linarith
  have h0 := Real.arccos_nonneg (2 * (a * a + b * b) / (t * t) - 1)
  have hpi := Real.arccos_le_pi (2 * (a * a + b * b) / (t * t) - 1)
  constructor
  · rw [Real.cos_half (by linarith) hpi, hcos]
    have hhalf : (1 + (2 * (a * a + b * b) / (t * t) - 1)) / 2 = (a * a + b * b) / (t * t) := by ring
    rw [hhalf, Real.sqrt_div hm, Real.sqrt_mul_self ht.le, mul_div_cancel₀ _ ht.ne']
  · rw [Real.sin_half_eq_sqrt h0 (by linarith), hcos]
    have hhalf : (1 - (2 * (a * a + b * b) / (t * t) - 1)) / 2 = (c * c + d * d) / (t * t) := by
      have hsplit : (c * c + d * d) / (t * t) = 1 - (a * a + b * b) / (t * t) := by
        rw [eq_sub_iff_add_eq, ← add_div, div_eq_one_iff_eq htt.ne']
        linarith
      rw [hsplit]
      ring
    rw [hhalf, Real.sqrt_div hn, Real.sqrt_mul_self ht.le, mul_div_cancel₀ _ ht.ne']

theorem sqrt_mul_cos_arg (x y : ℝ) : Real.sqrt (x * x + y * y) * cos (Complex.arg ⟨x, y⟩) = x := by
  have h := Complex.norm_mul_cos_arg ⟨x, y⟩
  rwa [Complex.norm_eq_sqrt_sq_add_sq, sq, sq] at h

theorem sqrt_mul_sin_arg (x y : ℝ) : Real.sqrt (x * x + y * y) * sin (Complex.arg ⟨x, y⟩) = y := by
  have h := Complex.norm_mul_sin_arg ⟨x, y⟩
  rwa [Complex.norm_eq_sqrt_sq_add_sq, sq, sq] at h

/-- **Four numbers by three angles**: the one between the first two and the last two, and the angles of the two pairs. -/
theorem four_by_angles (ht : 0 < t) (hsum : a * a + b * b + c * c + d * d = t * t) :
    let middle := Real.arccos (2 * (a * a + b * b) / (t * t) - 1)
    t * (cos (middle / 2) * cos (Complex.arg ⟨a, b⟩)) = a ∧ t * (cos (middle / 2) * sin (Complex.arg ⟨a, b⟩)) = b ∧
      t * (sin (middle / 2) * cos (Complex.arg ⟨c, -d⟩)) = c ∧
      t * (sin (middle / 2) * -sin (Complex.arg ⟨c, -d⟩)) = d := by
  obtain ⟨hcos, hsin⟩ := cos_half_arccos ht hsum
  have hdd : Real.sqrt (c * c + d * d) = Real.sqrt (c * c + -d * -d) := by rw [neg_mul_neg]
  dsimp only
  rw [← mul_assoc, ← mul_assoc, ← mul_assoc, ← mul_assoc, hcos, hsin, mul_neg, hdd]
  exact ⟨sqrt_mul_cos_arg a b, sqrt_mul_sin_arg a b, sqrt_mul_cos_arg c (-d),
    by rw [sqrt_mul_sin_arg c (-d), neg_neg]⟩

end Angles

/-! ## A quaternion by three turns -/

variable {q : Quaternion ℝ}

theorem half_sub_add_half_add (x y : ℝ) : (x - y) / 2 + (x + y) / 2 = x := by ring

theorem half_sub_sub_half_add (x y : ℝ) : (x - y) / 2 - (x + y) / 2 = -y := by ring

/-- **A quaternion as three turns, the third about the axis of the first.** -/
theorem eq_turns_same (h : Frame i j k s) {a b c d t : ℝ} (ht : 0 < t)
    (hsum : a * a + b * b + c * c + d * d = t * t) (ha : t * q.re = a) (hb : t * part q i = b) (hc : t * part q j = c)
    (hd : t * (part q k * s) = d) :
    let middle := Real.arccos (2 * (a * a + b * b) / (t * t) - 1)
    turn i ((Complex.arg ⟨a, b⟩ - Complex.arg ⟨c, -d⟩) / 2) * turn j (middle / 2) *
      turn i ((Complex.arg ⟨a, b⟩ + Complex.arg ⟨c, -d⟩) / 2) = q := by
  obtain ⟨h1, h2, h3, h4⟩ := four_by_angles ht hsum
  dsimp only
  generalize Real.arccos (2 * (a * a + b * b) / (t * t) - 1) = middle at h1 h2 h3 h4 ⊢
  generalize Complex.arg ⟨a, b⟩ = sum at h1 h2 ⊢
  generalize Complex.arg ⟨c, -d⟩ = diff at h3 h4 ⊢
  obtain ⟨p1, p2, p3, p4⟩ := turn_turn_turn_same h ((sum - diff) / 2) (middle / 2) ((sum + diff) / 2)
  rw [half_sub_add_half_add] at p1 p2
  rw [half_sub_sub_half_add, Real.cos_neg] at p3
  rw [half_sub_sub_half_add, Real.sin_neg] at p4
  refine h.ext ?_ ?_ ?_ ?_
  · rw [p1]
    exact mul_left_cancel₀ ht.ne' (h1.trans ha.symm)
  · rw [p2]
    exact mul_left_cancel₀ ht.ne' (h2.trans hb.symm)
  · rw [p3]
    exact mul_left_cancel₀ ht.ne' (h3.trans hc.symm)
  · rw [p4]
    exact mul_left_cancel₀ ht.ne' (h4.trans hd.symm)

theorem cos_sub_sin_eighth (x : ℝ) : cos (x - Real.pi / 4) - sin (x - Real.pi / 4) = Real.sqrt 2 * cos x := by
  rw [Real.cos_sub, Real.sin_sub, Real.cos_pi_div_four, Real.sin_pi_div_four]
  ring

theorem cos_add_sin_eighth (x : ℝ) : cos (x - Real.pi / 4) + sin (x - Real.pi / 4) = Real.sqrt 2 * sin x := by
  rw [Real.cos_sub, Real.sin_sub, Real.cos_pi_div_four, Real.sin_pi_div_four]
  ring

/-- **A quaternion as three turns about three axes.** -/
theorem eq_turns_apart (h : Frame i j k s) {a b c d : ℝ}
    (hsum : a * a + b * b + c * c + d * d = Real.sqrt 2 * Real.sqrt 2) (ha : q.re - part q j = a)
    (hb : part q i + part q k * s = b) (hc : part q j + q.re = c) (hd : part q k * s - part q i = d) :
    let middle := Real.arccos (2 * (a * a + b * b) / (Real.sqrt 2 * Real.sqrt 2) - 1)
    turn k (s * ((Complex.arg ⟨a, b⟩ - Complex.arg ⟨c, -d⟩) / 2)) * turn j (middle / 2 - Real.pi / 4) *
      turn i ((Complex.arg ⟨a, b⟩ + Complex.arg ⟨c, -d⟩) / 2) = q := by
  obtain ⟨h1, h2, h3, h4⟩ := four_by_angles (Real.sqrt_pos.2 zero_lt_two) hsum
  dsimp only
  generalize Real.arccos (2 * (a * a + b * b) / (Real.sqrt 2 * Real.sqrt 2) - 1) = middle at h1 h2 h3 h4 ⊢
  generalize Complex.arg ⟨a, b⟩ = sum at h1 h2 ⊢
  generalize Complex.arg ⟨c, -d⟩ = diff at h3 h4 ⊢
  obtain ⟨p1, p2, p3, p4⟩ :=
    turn_turn_turn_apart h ((sum - diff) / 2) (middle / 2 - Real.pi / 4) ((sum + diff) / 2)
  rw [half_sub_add_half_add, cos_sub_sin_eighth] at p1 p2
  rw [half_sub_sub_half_add, cos_add_sin_eighth, Real.cos_neg] at p3
  rw [half_sub_sub_half_add, cos_add_sin_eighth, Real.sin_neg] at p4
  rw [← mul_assoc] at h1 h2 h3 h4
  exact h.ext_sums (p1.trans (h1.trans ha.symm)) (p2.trans (h2.trans hb.symm)) (p3.trans (h3.trans hc.symm))
    (p4.trans (h4.trans hd.symm))

end Rotations
end LfSentry
