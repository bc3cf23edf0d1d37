import LfSentry.OmniPidPursuit
/-!
# PursuitCollision — the collision check of a path (`pb_omni_pid_pursuit_controller`)

`isCollisionDetected` looks at the poses in order and gives up at the first one outside the costmap: it misses an occupied
pose after that (`isCollisionDetected_complete_iff`).
-/
namespace LfSentry
namespace Pursuit

variable {K : Type} (nav : Nav2 K)

def OnMap (pose : PoseStamped K) : Prop := (nav.worldToMap pose.position.x pose.position.y).isSome = true

/-- The pose is inside the costmap, where an obstacle is. -/
def Occupied (pose : PoseStamped K) : Prop :=
  ∃ mx my, nav.worldToMap pose.position.x pose.position.y = some (mx, my) ∧
    nav.getCost mx my ≥ inscribedInflatedObstacle

variable {nav}

theorem Occupied.onMap {pose : PoseStamped K} (h : Occupied nav pose) : OnMap nav pose := by
  obtain ⟨mx, my, hmap, -⟩ := h
  rw [OnMap, hmap]
  rfl

theorem isCollisionDetected_cons (pose : PoseStamped K) (path : List (PoseStamped K)) :
    isCollisionDetected nav (pose :: path) = true ↔
      Occupied nav pose ∨ OnMap nav pose ∧ isCollisionDetected nav path = true := by
  rw [isCollisionDetected, Occupied, OnMap]
  cases hmap : nav.worldToMap pose.position.x pose.position.y with
  | none => simp
  | some cell =>
    obtain ⟨mx, my⟩ := cell
    by_cases hcost : nav.getCost mx my ≥ inscribedInflatedObstacle <;> simp [hcost]

/-- **The check answers for the poses up to the first one outside.** -/
theorem isCollisionDetected_iff : ∀ path : List (PoseStamped K), isCollisionDetected nav path = true ↔
    ∃ pre pose post, path = pre ++ pose :: post ∧ Occupied nav pose ∧ ∀ q ∈ pre, OnMap nav q
  | [] => by simp [isCollisionDetected]
  | pose :: path => by
    rw [isCollisionDetected_cons, isCollisionDetected_iff path]
    constructor
    · rintro (h | ⟨hon, pre, p, post, rfl, hp, hpre⟩)
      · exact ⟨[], pose, path, rfl, h, fun q hq => by cases hq⟩
      · exact ⟨pose :: pre, p, post, rfl, hp, List.forall_mem_cons.2 ⟨hon, hpre⟩⟩
    · rintro ⟨pre, p, post, hsplit, hp, hpre⟩
      cases pre with
      | nil =>
        cases hsplit
        exact .inl hp
      | cons q pre =>
        cases hsplit
        obtain ⟨hq, hpre⟩ := List.forall_mem_cons.1 hpre
        exact .inr ⟨hq, pre, p, post, rfl, hp, hpre⟩

theorem exists_occupied_of_detected {path : List (PoseStamped K)} (h : isCollisionDetected nav path = true) :
    ∃ pose ∈ path, Occupied nav pose := by
  obtain ⟨pre, pose, post, rfl, hpose, -⟩ := (isCollisionDetected_iff path).1 h
  exact ⟨pose, by simp, hpose⟩

/-- Every pose before the first occupied one is on the map. -/
def OnMapUntilOccupied (nav : Nav2 K) (path : List (PoseStamped K)) : Prop :=
  ∀ pre pose post, path = pre ++ pose :: post → Occupied nav pose → (∀ q ∈ pre, ¬ Occupied nav q) →
    ∀ q ∈ pre, OnMap nav q

theorem exists_first_occupied {path : List (PoseStamped K)} (h : ∃ pose ∈ path, Occupied nav pose) :
    ∃ pre pose post, path = pre ++ pose :: post ∧ Occupied nav pose ∧ ∀ q ∈ pre, ¬ Occupied nav q := by
  induction path with
  | nil =>
    obtain ⟨pose, hmem, -⟩ := h
    cases hmem
  | cons p path ih =>
    by_cases hp : Occupied nav p
    · exact ⟨[], p, path, rfl, hp, fun q hq => by cases hq⟩
    · obtain ⟨pose, hmem, hpose⟩ := h
      rcases List.mem_cons.1 hmem with rfl | hmem
      · exact absurd hpose hp
      · obtain ⟨pre, first, post, rfl, hfirst, hpre⟩ := ih ⟨pose, hmem, hpose⟩
        exact ⟨p :: pre, first, post, rfl, hfirst, List.forall_mem_cons.2 ⟨hp, hpre⟩⟩

/-- **The check finds every collision of a path exactly if the poses before the first occupied one are on the map.** -/
theorem detected_iff_occupied_iff (path : List (PoseStamped K)) :
    (isCollisionDetected nav path = true ↔ ∃ pose ∈ path, Occupied nav pose) ↔ OnMapUntilOccupied nav path := by
  constructor
  · intro h pre pose post hsplit hpose hfree q hq
    have hmem : pose ∈ path := by rw [hsplit]; simp
    obtain ⟨pre', pose', post', hsplit', hpose', hon⟩ := (isCollisionDetected_iff path).1 (h.2 ⟨pose, hmem, hpose⟩)
    -- the occupied pose that was found is not among the free ones, so these stand before it
    rcases List.append_eq_append_iff.1 (hsplit.symm.trans hsplit') with ⟨as, rfl, -⟩ | ⟨as, hpre, hrest⟩
    · exact hon q (List.mem_append_left as hq)
    · cases as with
      | nil =>
        rw [hpre, List.append_nil] at hq
        exact hon q hq
      | cons a as =>
        cases hrest
        exact absurd hpose' (hfree _ (by rw [hpre]; simp))
  · intro h
    refine ⟨exists_occupied_of_detected, fun hexists => ?_⟩
    obtain ⟨pre, pose, post, hsplit, hpose, hfree⟩ := exists_first_occupied hexists
    exact (isCollisionDetected_iff path).2 ⟨pre, pose, post, hsplit, hpose, h pre pose post hsplit hpose hfree⟩

/-- **So does the check of the poses that are sampled from a plan**, for every plan, costmap and transform. -/
theorem isCollisionDetected_complete_iff [Field K] (nav : Nav2 K) (transformedPlan : List (PoseStamped K)) :
    (isCollisionDetected nav (costmapFrameLocalPlan nav transformedPlan) = true ↔
        ∃ pose ∈ costmapFrameLocalPlan nav transformedPlan, Occupied nav pose) ↔
      OnMapUntilOccupied nav (costmapFrameLocalPlan nav transformedPlan) :=
  detected_iff_occupied_iff (costmapFrameLocalPlan nav transformedPlan)

/-- A costmap of four cells, of which the right ones are occupied. -/
def wallRight : Nav2 ℚ where
  getYaw _ := 0
  pathLength _ := 0
  euclideanDistance _ _ := 0
  worldToMap x y := if 0 ≤ x ∧ x < 2.0 ∧ 0 ≤ y ∧ y < 2.0 then some (⌊x⌋.toNat, ⌊y⌋.toNat) else none
  getCost mx _ := if mx = 1 then 254 else 0
  transformPose := some

def poseAt (x y : ℚ) : PoseStamped ℚ := { PoseStamped.fresh with position := ⟨x, y, 0⟩ }

/-- **A plan that begins outside the costmap and leads into the wall is let through.** -/
theorem wall_not_detected :
    isCollisionDetected wallRight (costmapFrameLocalPlan wallRight [poseAt (-1) 0.5, poseAt 1.5 0.5]) = false ∧
      poseAt 1.5 0.5 ∈ costmapFrameLocalPlan wallRight [poseAt (-1) 0.5, poseAt 1.5 0.5] ∧
      Occupied wallRight (poseAt 1.5 0.5) := by
  have hplan : costmapFrameLocalPlan wallRight [poseAt (-1) 0.5, poseAt 1.5 0.5] =
      List.replicate 5 (poseAt (-1) 0.5) ++ List.replicate 5 (poseAt 1.5 0.5) := rfl
  have hout : wallRight.worldToMap (-1) 0.5 = none := by
    unfold wallRight
    norm_num
  have hwall : wallRight.worldToMap 1.5 0.5 = some (1, 0) := by
    have h1 : ⌊(1.5 : ℚ)⌋ = 1 := by norm_num
    have h0 : ⌊(0.5 : ℚ)⌋ = 0 := by norm_num
    show (if (0 : ℚ) ≤ 1.5 ∧ (1.5 : ℚ) < 2.0 ∧ (0 : ℚ) ≤ 0.5 ∧ (0.5 : ℚ) < 2.0 then
      some (⌊(1.5 : ℚ)⌋.toNat, ⌊(0.5 : ℚ)⌋.toNat) else none) = some (1, 0)
    rw [if_pos (by norm_num), h1, h0]
    rfl
  rw [hplan]
  refine ⟨?_, by simp, 1, 0, hwall, by decide⟩
  have hoff : ¬ OnMap wallRight (poseAt (-1) 0.5) := fun h => by
    rw [OnMap, show wallRight.worldToMap (poseAt (-1) 0.5).position.x (poseAt (-1) 0.5).position.y = none from hout] at h
    cases h
  rw [List.replicate_succ, List.cons_append, ← Bool.not_eq_true, isCollisionDetected_cons]
  rintro (hocc | ⟨hon, -⟩)
  · exact hoff hocc.onMap
  · exact hoff hon

end Pursuit
end LfSentry
