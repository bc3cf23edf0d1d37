import Mathlib.Analysis.Calculus.Deriv.Comp
import Mathlib.Analysis.Calculus.FDeriv.Mul
import Mathlib.Analysis.Calculus.FDeriv.Prod
import Mathlib.Analysis.SpecialFunctions.Complex.LogDeriv
import Mathlib.Analysis.SpecialFunctions.Sqrt
import Mathlib.LinearAlgebra.Matrix.ToLin
import Mathlib.Topology.Algebra.Module.FiniteDimension
/-!
# Jacobian — matrices that are derivatives

A matrix is the Jacobian of a function at a point when multiplying by it is the derivative there.  Its rows are gradients
(`isJacobian_iff`), gradients follow the rules of the calculus, and the Jacobian of a composition is the product.
-/
namespace LfSentry
namespace Jacobian

variable {l m n : Type} [Fintype n]

noncomputable def covector (a : n → ℝ) : (n → ℝ) →L[ℝ] ℝ := ∑ j, a j • ContinuousLinearMap.proj j

@[simp] theorem covector_apply (a v : n → ℝ) : covector a v = dotProduct a v := by
  simp [covector, dotProduct]

/-- `a` is the gradient of `f` at `x`. -/
def IsGradient (a : n → ℝ) (f : (n → ℝ) → ℝ) (x : n → ℝ) : Prop := HasFDerivAt f (covector a) x

/-- `A` is the Jacobian of `f` at `x`. -/
def IsJacobian (A : Matrix m n ℝ) (f : (n → ℝ) → m → ℝ) (x : n → ℝ) : Prop :=
  HasFDerivAt f (LinearMap.toContinuousLinearMap A.mulVecLin) x

/-- **The rows of a Jacobian are gradients.** -/
theorem isJacobian_iff {A : Matrix m n ℝ} {f : (n → ℝ) → m → ℝ} {x : n → ℝ} :
    IsJacobian A f x ↔ ∀ i, IsGradient (A i) (fun x => f x i) x := by
  unfold IsJacobian IsGradient
  rw [hasFDerivAt_pi']
  refine forall_congr' fun i => ?_
  have hrow : (ContinuousLinearMap.proj i).comp (LinearMap.toContinuousLinearMap A.mulVecLin) = covector (A i) := by
    ext v
    simp [Matrix.mulVec]
  rw [hrow]

/-! ## Gradients -/

variable {a b : n → ℝ} {f g : (n → ℝ) → ℝ} {x : n → ℝ}

theorem isGradient_coordinate [DecidableEq n] (i : n) : IsGradient (Pi.single i 1) (fun x => x i) x := by
  refine (hasFDerivAt_apply i x).congr_fderiv ?_
  ext v
  simp

theorem isGradient_const (c : ℝ) : IsGradient 0 (fun _ => c) x := by
  refine (hasFDerivAt_const c x).congr_fderiv ?_
  ext v
  simp

theorem IsGradient.add (hf : IsGradient a f x) (hg : IsGradient b g x) : IsGradient (a + b) (fun x => f x + g x) x := by
  refine (HasFDerivAt.add hf hg).congr_fderiv ?_
  ext v
  simp [add_dotProduct]

theorem IsGradient.sub (hf : IsGradient a f x) (hg : IsGradient b g x) : IsGradient (a - b) (fun x => f x - g x) x := by
  refine (HasFDerivAt.sub hf hg).congr_fderiv ?_
  ext v
  simp [sub_dotProduct]

theorem IsGradient.mul (hf : IsGradient a f x) (hg : IsGradient b g x) :
    IsGradient (f x • b + g x • a) (fun x => f x * g x) x := by
  refine (HasFDerivAt.mul hf hg).congr_fderiv ?_
  ext v
  simp [add_dotProduct]

/-- **The chain rule.** -/
theorem IsGradient.comp (hf : IsGradient a f x) {h : ℝ → ℝ} {h' : ℝ} (hh : HasDerivAt h h' (f x)) :
    IsGradient (h' • a) (fun x => h (f x)) x := by
  refine (hh.comp_hasFDerivAt x hf).congr_fderiv ?_
  ext v
  simp

theorem IsGradient.sqrt (hf : IsGradient a f x) (h : f x ≠ 0) :
    IsGradient ((1 / (2 * Real.sqrt (f x))) • a) (fun x => Real.sqrt (f x)) x :=
  hf.comp (Real.hasDerivAt_sqrt h)

/-- The direction of a point of the plane, away from the half line where it jumps. -/
theorem IsGradient.arg (hf : IsGradient a f x) (hg : IsGradient b g x) (h : (⟨f x, g x⟩ : ℂ) ∈ Complex.slitPlane) :
    IsGradient ((f x / (f x * f x + g x * g x)) • b - (g x / (f x * f x + g x * g x)) • a)
      (fun x => Complex.arg ⟨f x, g x⟩) x := by
  have hpoint : HasFDerivAt (fun x => (⟨f x, g x⟩ : ℂ))
      (Complex.ofRealCLM.comp (covector a) + Complex.I • Complex.ofRealCLM.comp (covector b)) x := by
    have hre := Complex.ofRealCLM.hasFDerivAt.comp x hf
    have him := Complex.ofRealCLM.hasFDerivAt.comp x hg
    refine (hre.add (him.const_smul Complex.I)).congr_of_eventuallyEq (.of_forall fun y => ?_)
    simp [Complex.mk_eq_add_mul_I, mul_comm]
  have hlog := (Complex.hasStrictFDerivAt_log_real h).hasFDerivAt.comp x hpoint
  have harg : HasFDerivAt (fun x => Complex.arg ⟨f x, g x⟩) _ x :=
    (Complex.imCLM.hasFDerivAt.comp x hlog).congr_of_eventuallyEq (.of_forall fun y => (Complex.log_im _).symm)
  refine harg.congr_fderiv ?_
  ext v
  simp [sub_dotProduct, Complex.normSq_apply]
  ring

theorem IsGradient.congr (hf : IsGradient a f x) (h : a = b) : IsGradient b f x := h ▸ hf

/-- A gradient is a gradient of what is the same around the point. -/
theorem IsGradient.congr_nhds (hf : IsGradient a f x) (h : ∀ᶠ y in nhds x, g y = f y) : IsGradient a g x :=
  HasFDerivAt.congr_of_eventuallyEq hf h

/-- **A function has one gradient at a point.** -/
theorem IsGradient.unique [DecidableEq n] (ha : IsGradient a f x) (hb : IsGradient b f x) : a = b := by
  have h : covector a = covector b := HasFDerivAt.unique ha hb
  funext j
  have hj := congrArg (fun c : (n → ℝ) →L[ℝ] ℝ => c (Pi.single j 1)) h
  simpa using hj

/-! ## Jacobians -/

/-- **The Jacobian of a composition is the product of the Jacobians.** -/
theorem IsJacobian.comp [Fintype l] [Fintype m] {A : Matrix m n ℝ} {B : Matrix l m ℝ} {f : (n → ℝ) → m → ℝ}
    {g : (m → ℝ) → l → ℝ} (hg : IsJacobian B g (f x)) (hf : IsJacobian A f x) : IsJacobian (B * A) (fun x => g (f x)) x := by
  refine (HasFDerivAt.comp x hg hf).congr_fderiv ?_
  ext v i
  simp [Matrix.mulVec_mulVec]

theorem isJacobian_mulVec (A : Matrix m n ℝ) : IsJacobian A (fun x => A.mulVec x) x :=
  (LinearMap.toContinuousLinearMap A.mulVecLin).hasFDerivAt

end Jacobian
end LfSentry
