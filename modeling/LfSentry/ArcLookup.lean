import LfSentry.LookAheadPoint
import LfSentry.Polyline
/-!
# ArcLookup — the pose at a distance along a path (`pb_omni_pid_pursuit_controller`)

Poses that repeat make distances that repeat, and a segment without a length.  The search takes the first distance that is
not below the target, the one before it is below, and so the segment between them has a length.
-/
namespace LfSentry
namespace Pursuit

open Polyline (OnPolyline arcsFrom)
open Vision.Dual (realLibm)

def Point.between (p q : Point ℝ) (ratio : ℝ) : Point ℝ :=
  ⟨p.x + ratio * (q.x - p.x), p.y + ratio * (q.y - p.y), p.z + ratio * (q.z - p.z)⟩

theorem planar_nonneg (p q : Point ℝ) : 0 ≤ planar realLibm p q := Real.sqrt_nonneg _

def points (path : List (PoseStamped ℝ)) : List (Point ℝ) := path.map (·.position)

noncomputable def pathLength (path : List (PoseStamped ℝ)) : ℝ := Polyline.length (planar realLibm) (points path)

/-- `point` is on the path, after a way `s` along it. -/
def OnPath (path : List (PoseStamped ℝ)) (s : ℝ) (point : Point ℝ) : Prop :=
  OnPolyline (planar realLibm) Point.between (points path) s point

/-! ## The distances -/

theorem cumulativeFrom_eq : ∀ (back : ℝ) (prev : Point ℝ) (rest : List (PoseStamped ℝ)),
    cumulativeFrom realLibm back prev rest = arcsFrom (planar realLibm) back prev (points rest)
  | _, _, [] => rfl
  | back, prev, curr :: rest => by
    show (back + planar realLibm prev curr.position) :: cumulativeFrom realLibm _ curr.position rest = _
    rw [cumulativeFrom_eq (back + planar realLibm prev curr.position) curr.position rest]
    rfl

theorem cumulative_cons (first : PoseStamped ℝ) (rest : List (PoseStamped ℝ)) :
    calculateCumulativeDistances realLibm (first :: rest) =
      0 :: arcsFrom (planar realLibm) 0 first.position (points rest) := by
  show 0 :: cumulativeFrom realLibm 0 first.position rest = _
  rw [cumulativeFrom_eq]

/-- **The distances are in order**, as the search asks. -/
theorem cumulative_sorted (path : List (PoseStamped ℝ)) :
    (calculateCumulativeDistances realLibm path).Pairwise (· ≤ ·) := by
  cases path with
  | nil => exact List.pairwise_singleton _ _
  | cons first rest =>
    rw [cumulative_cons]
    exact Polyline.arcs_sorted planar_nonneg 0 first.position (points rest)

theorem cumulative_last (first : PoseStamped ℝ) (rest : List (PoseStamped ℝ)) :
    (calculateCumulativeDistances realLibm (first :: rest)).getLastD 0 = pathLength (first :: rest) := by
  rw [cumulative_cons, Polyline.getLast_arcs, zero_add]
  rfl

/-! ## The pose -/

theorem position_getD (path : List (PoseStamped ℝ)) (i : Nat) :
    (path.getD i .fresh).position = (points path).getD i PoseStamped.fresh.position :=
  (List.getD_map (f := fun pose : PoseStamped ℝ => pose.position) path .fresh).symm

theorem position_getLastD (path : List (PoseStamped ℝ)) (d : PoseStamped ℝ) :
    (path.getLastD d).position = (points path).getLastD d.position := by
  rw [points, List.getLastD_eq_getLast?, List.getLastD_eq_getLast?, List.getLast?_map]
  cases path.getLast? <;> rfl

/-- **The pose at a distance**: nothing divides by zero, and the pose is on the path after a way of the target. -/
theorem findPoseAtDistance_arc (path : List (PoseStamped ℝ)) (hne : path ≠ []) (target : ℝ) (h0 : 0 ≤ target)
    (h1 : target ≤ pathLength path) :
    ∃ pose, findPoseAtDistance path (calculateCumulativeDistances realLibm path) target = some pose ∧
      OnPath path target pose.position := by
  cases path with
  | nil => exact absurd rfl hne
  | cons first rest =>
    unfold findPoseAtDistance
    rw [if_neg (by simp [calculateCumulativeDistances])]
    by_cases hfirst : target ≤ 0
    · rw [if_pos hfirst, le_antisymm hfirst h0]
      exact ⟨first, rfl, .start _ _⟩
    · rw [if_neg hfirst, cumulative_last]
      by_cases hlast : target ≥ pathLength (first :: rest)
      · rw [if_pos hlast, le_antisymm h1 hlast]
        refine ⟨_, rfl, ?_⟩
        rw [position_getLastD]
        exact Polyline.onPolyline_last _ _ _
      · rw [if_neg hlast, cumulative_cons]
        have hle : target ≤ 0 + Polyline.length (planar realLibm) (first.position :: points rest) := by
          rw [zero_add]
          exact h1
        obtain ⟨i, hidx, hlen, hon⟩ := @Polyline.lookup _ _ _ _ _ Point.between _ PoseStamped.fresh.position 0
          first.position (points rest) target (not_le.1 hfirst) hle
        rw [show lowerBound (0 :: arcsFrom (planar realLibm) 0 first.position (points rest)) target = i + 1 from hidx]
        dsimp only
        rw [quotient, if_neg (sub_pos.2 hlen).ne']
        refine ⟨_, rfl, ?_⟩
        rw [sub_zero] at hon
        show OnPath _ _ (Point.between ((first :: rest).getD i .fresh).position
          ((first :: rest).getD (i + 1) .fresh).position _)
        rw [position_getD, position_getD]
        exact hon

theorem pathLength_repeated : pathLength [poseOn 0, poseOn 0, poseOn 2] = 2 := by
  show Real.sqrt ((0 - 0) * (0 - 0) + (0 - 0) * (0 - 0)) + (Real.sqrt ((2 - 0) * (2 - 0) + (0 - 0) * (0 - 0)) + 0) = 2
  rw [sub_zero, sub_zero, mul_zero, add_zero, add_zero, add_zero, Real.sqrt_zero, zero_add,
    Real.sqrt_mul_self zero_le_two]

theorem findPoseAtDistance_arc_repeated :
    ∃ pose, findPoseAtDistance [poseOn 0, poseOn 0, poseOn 2]
        (calculateCumulativeDistances realLibm [poseOn 0, poseOn 0, poseOn 2]) 1 = some pose ∧
      OnPath [poseOn 0, poseOn 0, poseOn 2] 1 pose.position :=
  findPoseAtDistance_arc [poseOn 0, poseOn 0, poseOn 2] (List.cons_ne_nil _ _) 1 zero_le_one
    (by rw [pathLength_repeated]; exact one_le_two)

end Pursuit
end LfSentry
