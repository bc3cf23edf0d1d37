import LfSentry.DualArbiter
import LfSentry.OmniPidPursuit
/-!
# LookAheadPoint — the point ahead on a path (`pb_omni_pid_pursuit_controller`)

Of the two points in which the line through two poses meets the circle about the robot `circleSegmentIntersection` takes the
one towards the pose farther out; between a pose inside and one not inside that is the one of the segment (`on_segment`).
-/
namespace LfSentry
namespace Pursuit

open Vision.Dual (realLibm)

/-! ## A segment that leaves a circle -/

section Segment

/-- The ends of a segment from inside a circle about the origin to a point not inside. -/
structure Leaves (x1 y1 x2 y2 r : ℝ) : Prop where
  inside : x1 * x1 + y1 * y1 < r * r
  outside : r * r ≤ x2 * x2 + y2 * y2

variable {x1 y1 x2 y2 r : ℝ}

theorem Leaves.length_pos (h : Leaves x1 y1 x2 y2 r) : 0 < (x2 - x1) * (x2 - x1) + (y2 - y1) * (y2 - y1) := by
  rcases eq_or_ne x2 x1 with hx | hx
  · rcases eq_or_ne y2 y1 with hy | hy
    · have := h.inside
      have := h.outside
      rw [hx, hy] at this
      linarith
    · nlinarith [mul_self_pos.2 (sub_ne_zero.2 hy), mul_self_nonneg (x2 - x1)]
  · nlinarith [mul_self_pos.2 (sub_ne_zero.2 hx), mul_self_nonneg (y2 - y1)]

/-- The square under the root, by how far the first end is along the line. -/
theorem discriminant_eq (x1 y1 x2 y2 r : ℝ) :
    r * r * ((x2 - x1) * (x2 - x1) + (y2 - y1) * (y2 - y1)) - (x1 * y2 - x2 * y1) * (x1 * y2 - x2 * y1) =
      (r * r - (x1 * x1 + y1 * y1)) * ((x2 - x1) * (x2 - x1) + (y2 - y1) * (y2 - y1)) +
        (x1 * (x2 - x1) + y1 * (y2 - y1)) * (x1 * (x2 - x1) + y1 * (y2 - y1)) := by
  ring

theorem discriminant_eq' (x1 y1 x2 y2 r : ℝ) :
    r * r * ((x2 - x1) * (x2 - x1) + (y2 - y1) * (y2 - y1)) - (x1 * y2 - x2 * y1) * (x1 * y2 - x2 * y1) =
      (x2 * (x2 - x1) + y2 * (y2 - y1)) * (x2 * (x2 - x1) + y2 * (y2 - y1)) -
        (x2 * x2 + y2 * y2 - r * r) * ((x2 - x1) * (x2 - x1) + (y2 - y1) * (y2 - y1)) := by
  ring

theorem Leaves.root_between (h : Leaves x1 y1 x2 y2 r) :
    let s := Real.sqrt (r * r * ((x2 - x1) * (x2 - x1) + (y2 - y1) * (y2 - y1)) -
      (x1 * y2 - x2 * y1) * (x1 * y2 - x2 * y1))
    x1 * (x2 - x1) + y1 * (y2 - y1) < s ∧ s ≤ x2 * (x2 - x1) + y2 * (y2 - y1) := by
  have hlen := h.length_pos
  have hin := mul_pos (sub_pos.2 h.inside) hlen
  have hout := mul_nonneg (sub_nonneg.2 h.outside) hlen.le
  constructor
  · refine lt_of_le_of_lt (le_abs_self _) (Real.lt_sqrt_of_sq_lt ?_)
    rw [sq_abs, discriminant_eq]
    nlinarith
  · have hpos : 0 ≤ x2 * (x2 - x1) + y2 * (y2 - y1) := by nlinarith [h.inside, h.outside]
    refine Real.sqrt_le_iff.2 ⟨hpos, ?_⟩
    rw [discriminant_eq']
    nlinarith

theorem Leaves.sq_root (h : Leaves x1 y1 x2 y2 r) :
    Real.sqrt (r * r * ((x2 - x1) * (x2 - x1) + (y2 - y1) * (y2 - y1)) -
        (x1 * y2 - x2 * y1) * (x1 * y2 - x2 * y1)) ^ 2 =
      r * r * ((x2 - x1) * (x2 - x1) + (y2 - y1) * (y2 - y1)) - (x1 * y2 - x2 * y1) * (x1 * y2 - x2 * y1) := by
  refine Real.sq_sqrt ?_
  rw [discriminant_eq]
  have hin := mul_pos (sub_pos.2 h.inside) h.length_pos
  nlinarith [mul_self_nonneg (x1 * (x2 - x1) + y1 * (y2 - y1))]

end Segment

/-- `p` is on the segment from `p1` to `p2`, seen from above. -/
def OnSegment (p1 p2 p : Point ℝ) : Prop :=
  ∃ t, 0 ≤ t ∧ t ≤ 1 ∧ p.x = p1.x + t * (p2.x - p1.x) ∧ p.y = p1.y + t * (p2.y - p1.y)

theorem circleSegmentIntersection_eq {p1 p2 : Point ℝ} {r : ℝ} (h : Leaves p1.x p1.y p2.x p2.y r) :
    circleSegmentIntersection realLibm p1 p2 r =
      let dx := p2.x - p1.x
      let dy := p2.y - p1.y
      let d := p1.x * p2.y - p2.x * p1.y
      let s := Real.sqrt (r * r * (dx * dx + dy * dy) - d * d)
      ⟨(d * dy + dx * s) / (dx * dx + dy * dy), (-d * dx + dy * s) / (dx * dx + dy * dy), 0⟩ := by
  have hsign : ¬ p2.x * p2.x + p2.y * p2.y - (p1.x * p1.x + p1.y * p1.y) < 0 := by linarith [h.inside, h.outside]
  unfold circleSegmentIntersection
  dsimp only
  rw [if_neg hsign, one_mul, one_mul]
  rfl

/-- **The point is on the segment.** -/
theorem Leaves.on_segment {p1 p2 : Point ℝ} {r : ℝ} (h : Leaves p1.x p1.y p2.x p2.y r) :
    OnSegment p1 p2 (circleSegmentIntersection realLibm p1 p2 r) := by
  have hlen := h.length_pos
  obtain ⟨hfrom, hto⟩ := h.root_between
  rw [circleSegmentIntersection_eq h]
  dsimp only
  generalize Real.sqrt (r * r * ((p2.x - p1.x) * (p2.x - p1.x) + (p2.y - p1.y) * (p2.y - p1.y)) -
    (p1.x * p2.y - p2.x * p1.y) * (p1.x * p2.y - p2.x * p1.y)) = s at hfrom hto ⊢
  refine ⟨(s - (p1.x * (p2.x - p1.x) + p1.y * (p2.y - p1.y))) /
    ((p2.x - p1.x) * (p2.x - p1.x) + (p2.y - p1.y) * (p2.y - p1.y)), div_nonneg (by linarith) hlen.le, ?_, ?_, ?_⟩
  · rw [div_le_one hlen]
    linarith
  · dsimp only
    rw [div_mul_eq_mul_div, div_eq_iff hlen.ne', add_mul, div_mul_cancel₀ _ hlen.ne']
    ring
  · dsimp only
    rw [div_mul_eq_mul_div, div_eq_iff hlen.ne', add_mul, div_mul_cancel₀ _ hlen.ne']
    ring

/-- **It is at the distance `r`.** -/
theorem Leaves.at_distance {p1 p2 : Point ℝ} {r : ℝ} (hr : 0 ≤ r) (h : Leaves p1.x p1.y p2.x p2.y r) :
    hypot realLibm (circleSegmentIntersection realLibm p1 p2 r).x (circleSegmentIntersection realLibm p1 p2 r).y = r := by
  have hlen := h.length_pos
  have hsq := h.sq_root
  rw [circleSegmentIntersection_eq h]
  dsimp only
  generalize Real.sqrt (r * r * ((p2.x - p1.x) * (p2.x - p1.x) + (p2.y - p1.y) * (p2.y - p1.y)) -
    (p1.x * p2.y - p2.x * p1.y) * (p1.x * p2.y - p2.x * p1.y)) = s at hsq ⊢
  generalize p2.x - p1.x = dx at hlen hsq ⊢
  generalize p2.y - p1.y = dy at hlen hsq ⊢
  generalize p1.x * p2.y - p2.x * p1.y = d at hsq ⊢
  have hsum : (d * dy + dx * s) / (dx * dx + dy * dy) * ((d * dy + dx * s) / (dx * dx + dy * dy)) +
      (-d * dx + dy * s) / (dx * dx + dy * dy) * ((-d * dx + dy * s) / (dx * dx + dy * dy)) = r * r := by
    have hs : s * s = r * r * (dx * dx + dy * dy) - d * d := by rw [← hsq, sq]
    rw [div_mul_div_comm, div_mul_div_comm, ← add_div, div_eq_iff (mul_pos hlen hlen).ne']
    linear_combination (dx * dx + dy * dy) * hs
  show Real.sqrt _ = r
  rw [hsum, Real.sqrt_mul_self hr]

/-! ## The pose ahead -/

theorem findIdx?_append_cons {α : Type} {p : α → Bool} {a : α} (ha : p a = true) (post : List α) :
    ∀ {pre : List α}, (∀ q ∈ pre, p q = false) → (pre ++ a :: post).findIdx? p = some pre.length
  | [], _ => by rw [List.nil_append, List.findIdx?_cons, if_pos ha]; rfl
  | q :: pre, h => by
    obtain ⟨hq, hpre⟩ := List.forall_mem_cons.1 h
    rw [List.cons_append, List.findIdx?_cons, if_neg (by simp [hq]), findIdx?_append_cons ha post hpre]
    rfl

variable {r : ℝ}

theorem near_eq_false {q : PoseStamped ℝ} (h : q.range realLibm < r) : decide (q.range realLibm ≥ r) = false :=
  decide_eq_false (not_le.2 h)

theorem leaves_of_range (hr : 0 < r) {prev goal : PoseStamped ℝ} (hprev : prev.range realLibm < r)
    (hgoal : r ≤ goal.range realLibm) :
    Leaves prev.position.x prev.position.y goal.position.x goal.position.y r where
  inside := by
    rw [PoseStamped.range, hypot] at hprev
    have hlt := (Real.sqrt_lt' hr).1 hprev
    rwa [sq] at hlt
  outside := by
    rw [PoseStamped.range, hypot] at hgoal
    have hle := (Real.le_sqrt' hr).1 hgoal
    rwa [sq] at hle

/-- **Where the path leaves the circle the pose ahead is on the circle.** -/
theorem getLookAheadPoint_leaves (hr : 0 < r) {pre post : List (PoseStamped ℝ)} {prev goal : PoseStamped ℝ}
    (hpre : ∀ q ∈ pre, q.range realLibm < r) (hprev : prev.range realLibm < r) (hgoal : r ≤ goal.range realLibm) :
    OnSegment prev.position goal.position
        (getLookAheadPoint realLibm true r (pre ++ prev :: goal :: post)).position ∧
      (getLookAheadPoint realLibm true r (pre ++ prev :: goal :: post)).position.z = 0 ∧
      (getLookAheadPoint realLibm true r (pre ++ prev :: goal :: post)).range realLibm = r := by
  have hleaves := leaves_of_range hr hprev hgoal
  have hfind : (pre ++ prev :: goal :: post).findIdx? (fun ps => decide (ps.range realLibm ≥ r)) =
      some (pre.length + 1) := by
    have hnear : ∀ q ∈ pre ++ [prev], decide (q.range realLibm ≥ r) = false := by
      intro q hq
      rcases List.mem_append.1 hq with hq | hq
      · exact near_eq_false (hpre q hq)
      · rw [List.mem_singleton.1 hq]
        exact near_eq_false hprev
    have h := findIdx?_append_cons (p := fun ps : PoseStamped ℝ => decide (ps.range realLibm ≥ r))
      (decide_eq_true hgoal) post hnear
    rwa [List.append_assoc, List.length_append] at h
  have hpoint : getLookAheadPoint realLibm true r (pre ++ prev :: goal :: post) = interpolate realLibm prev goal r := by
    unfold getLookAheadPoint
    rw [hfind]
    simp
  rw [hpoint]
  exact ⟨hleaves.on_segment, rfl, hleaves.at_distance hr.le⟩

theorem getLookAheadPoint_first {goal : PoseStamped ℝ} (post : List (PoseStamped ℝ)) (hgoal : r ≤ goal.range realLibm) :
    getLookAheadPoint realLibm true r (goal :: post) = goal := by
  have hnone : ∀ q ∈ ([] : List (PoseStamped ℝ)), decide (q.range realLibm ≥ r) = false := fun q hq => by cases hq
  have hfind := findIdx?_append_cons (p := fun ps : PoseStamped ℝ => decide (ps.range realLibm ≥ r))
    (decide_eq_true hgoal) post hnone
  unfold getLookAheadPoint
  rw [List.nil_append] at hfind
  rw [hfind]
  rfl

theorem getLookAheadPoint_last {plan : List (PoseStamped ℝ)} (hne : plan ≠ []) (hnear : ∀ q ∈ plan, q.range realLibm < r) :
    getLookAheadPoint realLibm true r plan = plan.getLast hne := by
  have hfind : plan.findIdx? (fun ps => decide (ps.range realLibm ≥ r)) = none :=
    List.findIdx?_eq_none_iff.2 fun q hq => near_eq_false (hnear q hq)
  unfold getLookAheadPoint
  rw [hfind]
  cases plan with
  | nil => exact absurd rfl hne
  | cons q plan => rfl

/-- **The pose ahead**, of every path that is not empty. -/
theorem lookAhead_on_circle (r : ℝ) (hr : 0 < r) (plan : List (PoseStamped ℝ)) (hne : plan ≠ []) :
    (∀ pre prev goal post, plan = pre ++ prev :: goal :: post → (∀ q ∈ pre, q.range realLibm < r) →
      prev.range realLibm < r → r ≤ goal.range realLibm →
        OnSegment prev.position goal.position (getLookAheadPoint realLibm true r plan).position ∧
          (getLookAheadPoint realLibm true r plan).position.z = 0 ∧
          (getLookAheadPoint realLibm true r plan).range realLibm = r) ∧
      (∀ goal post, plan = goal :: post → r ≤ goal.range realLibm → getLookAheadPoint realLibm true r plan = goal) ∧
      ((∀ q ∈ plan, q.range realLibm < r) → getLookAheadPoint realLibm true r plan = plan.getLast hne) := by
  refine ⟨fun pre prev goal post hplan hpre hprev hgoal => ?_, fun goal post hplan hgoal => ?_, getLookAheadPoint_last hne⟩
  · rw [hplan]
    exact getLookAheadPoint_leaves hr hpre hprev hgoal
  · rw [hplan]
    exact getLookAheadPoint_first post hgoal

noncomputable def poseOn (x : ℝ) : PoseStamped ℝ := { PoseStamped.fresh with position := ⟨x, 0, 0⟩ }

theorem range_poseOn {x : ℝ} (hx : 0 ≤ x) : (poseOn x).range realLibm = x := by
  show Real.sqrt (x * x + 0 * 0) = x
  rw [mul_zero, add_zero, Real.sqrt_mul_self hx]

theorem lookAhead_on_circle_straight :
    (getLookAheadPoint realLibm true 1 [poseOn 0, poseOn 2]).range realLibm = 1 ∧
      getLookAheadPoint realLibm true 1 [poseOn 2] = poseOn 2 ∧
      getLookAheadPoint realLibm true 1 [poseOn 0] = poseOn 0 := by
  have h0 : (poseOn 0).range realLibm < 1 := by
    rw [range_poseOn le_rfl]
    exact one_pos
  have h2 : 1 ≤ (poseOn 2).range realLibm := by
    rw [range_poseOn zero_le_two]
    exact one_le_two
  refine ⟨?_, ?_, ?_⟩
  · exact ((lookAhead_on_circle 1 one_pos [poseOn 0, poseOn 2] (List.cons_ne_nil _ _)).1 [] (poseOn 0) (poseOn 2) [] rfl
      (fun q hq => by cases hq) h0 h2).2.2
  · exact (lookAhead_on_circle 1 one_pos [poseOn 2] (List.cons_ne_nil _ _)).2.1 (poseOn 2) [] rfl h2
  · refine (lookAhead_on_circle 1 one_pos [poseOn 0] (List.cons_ne_nil _ _)).2.2 fun q hq => ?_
    rw [List.mem_singleton.1 hq]
    exact h0

end Pursuit
end LfSentry
