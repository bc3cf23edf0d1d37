import LfSentry.BehaviorTree
import Mathlib.Data.List.MinMax
/-!
# AttackPose — where to stand and attack (`plugins/action/calculate_attack_pose.cpp`)

Candidates on a circle around the enemy are kept if their cell of the costmap is cheap, and the one nearest to the robot is
the goal.  The cell of a point is found by a cast, which cuts towards zero: points less than a cell off the left or the
lower edge are taken for points of the cells at that edge (`filterFeasiblePoints_sound_iff`).
-/
namespace LfSentry
namespace Behavior

open Vision (Libm toInt)
open Pursuit (Point PoseStamped)

variable {K : Type} [Field K] [LinearOrder K] [FloorRing K]

/-! ## The costmap -/

/-- `nav_msgs::msg::OccupancyGrid`, with all its cells within the range of an `int`. -/
structure OccupancyGrid (K : Type) [Field K] [LinearOrder K] where
  resolution : K
  originX : K
  originY : K
  width : Nat
  height : Nat
  data : Array Int8
  resolution_pos : 0 < resolution
  size_eq : data.size = width * height
  size_lt : data.size < 2 ^ 31

variable (costmap : OccupancyGrid K)

/-- `data[index]`; none is an access out of bounds. -/
def OccupancyGrid.at (index : Int) : Option Int8 := if 0 ≤ index then costmap.data[index.toNat]? else none

def OccupancyGrid.cellX (p : Point K) : Int := toInt ((p.x - costmap.originX) / costmap.resolution)

def OccupancyGrid.cellY (p : Point K) : Int := toInt ((p.y - costmap.originY) / costmap.resolution)

/-- The bounds test. -/
def OccupancyGrid.has (cellX cellY : Int) : Prop :=
  ¬ (cellX < 0 ∨ cellX ≥ costmap.width ∨ cellY < 0 ∨ cellY ≥ costmap.height)

instance (cellX cellY : Int) : Decidable (costmap.has cellX cellY) := inferInstanceAs (Decidable (¬ _))

def cheap (costThreshold : Int) (cost : Int8) : Bool := decide (0 ≤ cost.toInt) && decide (cost.toInt ≤ costThreshold)

/-- `filterFeasiblePoints`, with its candidates in order. -/
def filterFeasiblePoints (costThreshold : Int) : List (Point K) → Option (List (Point K))
  | [] => some []
  | p :: candidates =>
    if costmap.has (costmap.cellX p) (costmap.cellY p) then
      -- the index is an `int` and does not overflow (`at_eq_some`)
      (costmap.at (costmap.cellY p * costmap.width + costmap.cellX p)).bind fun cost =>
        (filterFeasiblePoints costThreshold candidates).map fun feasible =>
          if cheap costThreshold cost then p :: feasible else feasible
    else filterFeasiblePoints costThreshold candidates

/-! ## What the filter is for -/

/-- The rectangle that the map covers. -/
def OccupancyGrid.Covers (p : Point K) : Prop :=
  (costmap.originX ≤ p.x ∧ p.x < costmap.originX + costmap.width * costmap.resolution) ∧
    costmap.originY ≤ p.y ∧ p.y < costmap.originY + costmap.height * costmap.resolution

/-- The cell is one of the map and its cost is in `[0, costThreshold]`. -/
def OccupancyGrid.CheapCell (costThreshold cellX cellY : Int) : Prop :=
  costmap.has cellX cellY ∧ ∃ cost ∈ costmap.at (cellY * costmap.width + cellX), cheap costThreshold cost = true

/-- The cell that a point lies in is cheap. -/
def OccupancyGrid.CheapAt (costThreshold : Int) (p : Point K) : Prop :=
  costmap.CheapCell costThreshold ⌊(p.x - costmap.originX) / costmap.resolution⌋ ⌊(p.y - costmap.originY) / costmap.resolution⌋

/-- No access is out of bounds, what is kept is in the map and cheap, and what is in the map and cheap is kept. -/
def Sound (costThreshold : Int) (candidates : List (Point K)) : Prop :=
  ∃ feasible, filterFeasiblePoints costmap costThreshold candidates = some feasible ∧
    (∀ p ∈ feasible, p ∈ candidates ∧ costmap.Covers p ∧ costmap.CheapAt costThreshold p) ∧
    ∀ p ∈ candidates, costmap.Covers p → costmap.CheapAt costThreshold p → p ∈ feasible

/-- Off the map, by less than a cell to the left or below. -/
def OccupancyGrid.Fringe (p : Point K) : Prop :=
  (costmap.originX - costmap.resolution < p.x ∧ p.x < costmap.originX + costmap.width * costmap.resolution) ∧
    (costmap.originY - costmap.resolution < p.y ∧ p.y < costmap.originY + costmap.height * costmap.resolution) ∧
    (p.x < costmap.originX ∨ p.y < costmap.originY)

/-- The cell at the edge nearest to a point of the fringe is cheap. -/
def OccupancyGrid.CheapBeside (costThreshold : Int) (p : Point K) : Prop :=
  costmap.CheapCell costThreshold (max 0 ⌊(p.x - costmap.originX) / costmap.resolution⌋)
    (max 0 ⌊(p.y - costmap.originY) / costmap.resolution⌋)

/-! ## Cells -/

variable {costmap}

section Cells

variable {p : Point K} {u : K} {n : Nat}

/-- **Cutting towards zero is the floor, except that it takes what is less than one below zero for zero.** -/
theorem toInt_eq_max (hu : -1 < u) : toInt u = max 0 ⌊u⌋ := by
  unfold toInt
  by_cases h0 : 0 ≤ u
  · rw [if_pos h0, max_eq_right (Int.floor_nonneg.2 h0)]
  · have hneg : u < 0 := not_le.1 h0
    have hceil : ⌈u⌉ = 0 := by
      apply Int.ceil_eq_iff.2
      constructor
      · simpa using hu
      · simpa using hneg.le
    have hfloor : ⌊u⌋ < 0 := by
      apply Int.floor_lt.2
      simpa using hneg
    rw [if_neg h0, hceil, max_eq_left hfloor.le]

theorem toInt_neg_of_le [IsStrictOrderedRing K] (hu : u ≤ -1) : toInt u < 0 := by
  have h0 : ¬ 0 ≤ u := not_le.2 (hu.trans_lt neg_one_lt_zero)
  have hceil : ⌈u⌉ ≤ -1 := by
    apply Int.ceil_le.2
    simpa using hu
  unfold toInt
  rw [if_neg h0]
  omega

theorem max_floor_lt (hn : max 0 ⌊u⌋ < (n : Int)) : u < n := by
  have h : ⌊u⌋ < (n : Int) := (le_max_right 0 ⌊u⌋).trans_lt hn
  simpa using Int.floor_lt.1 h

omit [FloorRing K] in
theorem sub_div_lt_iff [IsStrictOrderedRing K] {x origin r : K} (hr : 0 < r) : (x - origin) / r < n ↔ x < origin + n * r := by
  rw [div_lt_iff₀ hr, sub_lt_iff_lt_add']

omit [FloorRing K] in
theorem neg_one_lt_sub_div_iff [IsStrictOrderedRing K] {x origin r : K} (hr : 0 < r) :
    -1 < (x - origin) / r ↔ origin - r < x := by
  rw [lt_div_iff₀ hr, neg_one_mul, lt_sub_iff_add_lt', sub_eq_add_neg]

omit [FloorRing K] in
theorem sub_div_nonneg_iff [IsStrictOrderedRing K] {x origin r : K} (hr : 0 < r) : 0 ≤ (x - origin) / r ↔ origin ≤ x := by
  rw [le_div_iff₀ hr, zero_mul, sub_nonneg]

omit [FloorRing K] in
theorem not_covers_of_fringe (h : costmap.Fringe p) : ¬ costmap.Covers p := by
  intro hc
  rcases h.2.2 with hx | hy
  · exact absurd hc.1.1 (not_le.2 hx)
  · exact absurd hc.2.1 (not_le.2 hy)

variable [IsStrictOrderedRing K]

/-- **A cell passes the bounds test only for points of the map and of the fringe.** -/
theorem covers_or_fringe (h : costmap.has (costmap.cellX p) (costmap.cellY p)) : costmap.Covers p ∨ costmap.Fringe p := by
  have hr := costmap.resolution_pos
  simp only [OccupancyGrid.has, not_or, not_lt, ge_iff_le, not_le] at h
  obtain ⟨hx0, hxw, hy0, hyh⟩ := h
  have hx : -1 < (p.x - costmap.originX) / costmap.resolution := by
    by_contra hc
    exact absurd hx0 (not_le.2 (toInt_neg_of_le (not_lt.1 hc)))
  have hy : -1 < (p.y - costmap.originY) / costmap.resolution := by
    by_contra hc
    exact absurd hy0 (not_le.2 (toInt_neg_of_le (not_lt.1 hc)))
  rw [OccupancyGrid.cellX, toInt_eq_max hx] at hxw
  rw [OccupancyGrid.cellY, toInt_eq_max hy] at hyh
  have hxl := (neg_one_lt_sub_div_iff hr).1 hx
  have hyl := (neg_one_lt_sub_div_iff hr).1 hy
  have hxr := (sub_div_lt_iff hr).1 (max_floor_lt hxw)
  have hyr := (sub_div_lt_iff hr).1 (max_floor_lt hyh)
  by_cases hin : costmap.originX ≤ p.x ∧ costmap.originY ≤ p.y
  · exact Or.inl ⟨⟨hin.1, hxr⟩, hin.2, hyr⟩
  · refine Or.inr ⟨⟨hxl, hxr⟩, ⟨hyl, hyr⟩, ?_⟩
    rcases not_and_or.1 hin with hx' | hy'
    · exact Or.inl (not_le.1 hx')
    · exact Or.inr (not_le.1 hy')

theorem cells_of_fringe (h : costmap.Fringe p) :
    costmap.cellX p = max 0 ⌊(p.x - costmap.originX) / costmap.resolution⌋ ∧
      costmap.cellY p = max 0 ⌊(p.y - costmap.originY) / costmap.resolution⌋ := by
  have hr := costmap.resolution_pos
  exact ⟨toInt_eq_max ((neg_one_lt_sub_div_iff hr).2 h.1.1), toInt_eq_max ((neg_one_lt_sub_div_iff hr).2 h.2.1.1)⟩

theorem cells_of_covers (h : costmap.Covers p) :
    costmap.cellX p = ⌊(p.x - costmap.originX) / costmap.resolution⌋ ∧
      costmap.cellY p = ⌊(p.y - costmap.originY) / costmap.resolution⌋ := by
  have hr := costmap.resolution_pos
  exact ⟨if_pos ((sub_div_nonneg_iff hr).2 h.1.1), if_pos ((sub_div_nonneg_iff hr).2 h.2.1)⟩

/-- In the map the cell of the cast is the cell that the point lies in. -/
theorem cheapCell_iff_of_covers (thr : Int) (h : costmap.Covers p) :
    costmap.CheapCell thr (costmap.cellX p) (costmap.cellY p) ↔ costmap.CheapAt thr p := by
  rw [(cells_of_covers h).1, (cells_of_covers h).2]
  rfl

theorem cheapCell_iff_of_fringe (thr : Int) (h : costmap.Fringe p) :
    costmap.CheapCell thr (costmap.cellX p) (costmap.cellY p) ↔ costmap.CheapBeside thr p := by
  rw [(cells_of_fringe h).1, (cells_of_fringe h).2]
  rfl

end Cells

/-! ## The filter -/

omit [FloorRing K] in
/-- **The index of a cell of the map is an `int`, and its access is in bounds.** -/
theorem at_eq_some {i j : Int} (h : costmap.has i j) :
    j * costmap.width + i < 2 ^ 31 ∧ ∃ cost, costmap.at (j * costmap.width + i) = some cost := by
  simp only [OccupancyGrid.has, not_or, not_lt, ge_iff_le, not_le] at h
  obtain ⟨hi0, hiw, hj0, hjh⟩ := h
  have hnonneg : 0 ≤ j * costmap.width + i := add_nonneg (mul_nonneg hj0 (Int.natCast_nonneg _)) hi0
  have hlt : j * costmap.width + i < costmap.width * costmap.height := by
    calc j * costmap.width + i < j * costmap.width + costmap.width := by omega
      _ = costmap.width * (j + 1) := by ring
      _ ≤ costmap.width * costmap.height := mul_le_mul_of_nonneg_left (by omega) (Int.natCast_nonneg _)
  have hsize : (j * costmap.width + i).toNat < costmap.data.size := by
    rw [costmap.size_eq, Int.toNat_lt hnonneg]
    exact_mod_cast hlt
  have hint : j * costmap.width + i < 2 ^ 31 := by
    have hmax := costmap.size_lt
    rw [Int.toNat_lt hnonneg] at hsize
    omega
  refine ⟨hint, costmap.data[(j * costmap.width + i).toNat], ?_⟩
  rw [OccupancyGrid.at, if_pos hnonneg, Array.getElem?_eq_getElem hsize]

/-- **The filter always answers, with the candidates whose cell, as it is cast, is a cheap one.** -/
theorem filterFeasiblePoints_eq_some (costmap : OccupancyGrid K) (thr : Int) : ∀ candidates : List (Point K),
    ∃ feasible, filterFeasiblePoints costmap thr candidates = some feasible ∧
      ∀ p, p ∈ feasible ↔ p ∈ candidates ∧ costmap.CheapCell thr (costmap.cellX p) (costmap.cellY p)
  | [] => ⟨[], rfl, fun p => by simp⟩
  | q :: candidates => by
    obtain ⟨feasible, hf, hmem⟩ := filterFeasiblePoints_eq_some costmap thr candidates
    by_cases hq : costmap.has (costmap.cellX q) (costmap.cellY q)
    · obtain ⟨-, cost, hcost⟩ := at_eq_some hq
      have hcheap : costmap.CheapCell thr (costmap.cellX q) (costmap.cellY q) ↔ cheap thr cost = true := by
        constructor
        · rintro ⟨-, c, hc, h⟩
          rw [hcost, Option.mem_some_iff] at hc
          rwa [hc]
        · exact fun h => ⟨hq, cost, hcost, h⟩
      refine ⟨if cheap thr cost then q :: feasible else feasible, ?_, fun p => ?_⟩
      · rw [filterFeasiblePoints, if_pos hq, hcost, hf]
        rfl
      · by_cases hc : cheap thr cost = true
        · rw [if_pos hc, List.mem_cons, List.mem_cons, hmem, or_and_right]
          apply or_congr_left
          constructor
          · rintro rfl
            exact ⟨rfl, hcheap.2 hc⟩
          · exact fun h => h.1
        · rw [if_neg hc, hmem, List.mem_cons, or_and_right]
          refine ⟨Or.inr, fun h => h.resolve_left ?_⟩
          rintro ⟨rfl, hcell⟩
          exact hc (hcheap.1 hcell)
    · refine ⟨feasible, by rw [filterFeasiblePoints, if_neg hq, hf], fun p => ?_⟩
      rw [hmem, List.mem_cons, or_and_right]
      refine ⟨Or.inr, fun h => h.resolve_left ?_⟩
      rintro ⟨rfl, hcell⟩
      exact hq hcell.1

section Sound

variable [IsStrictOrderedRing K]

/-- **The filter is sound exactly if no candidate of the fringe stands beside a cheap cell.** -/
theorem filterFeasiblePoints_sound_iff (costmap : OccupancyGrid K) (costThreshold : Int) (candidates : List (Point K)) :
    Sound costmap costThreshold candidates ↔
      ∀ p ∈ candidates, costmap.Fringe p → ¬ costmap.CheapBeside costThreshold p := by
  obtain ⟨feasible, hf, hmem⟩ := filterFeasiblePoints_eq_some costmap costThreshold candidates
  constructor
  · rintro ⟨feasible', hf', hkept, -⟩ p hp hfr hbeside
    obtain rfl : feasible = feasible' := Option.some.inj (hf.symm.trans hf')
    have hin : p ∈ feasible := (hmem p).2 ⟨hp, (cheapCell_iff_of_fringe costThreshold hfr).2 hbeside⟩
    exact not_covers_of_fringe hfr (hkept p hin).2.1
  · intro h
    refine ⟨feasible, hf, fun p hp => ?_, fun p hp hc hat => ?_⟩
    · obtain ⟨hpc, hcell⟩ := (hmem p).1 hp
      have hc : costmap.Covers p := by
        rcases covers_or_fringe hcell.1 with hc | hfr
        · exact hc
        · exact absurd ((cheapCell_iff_of_fringe costThreshold hfr).1 hcell) (h p hpc hfr)
      exact ⟨hpc, hc, (cheapCell_iff_of_covers costThreshold hc).1 hcell⟩
    · exact (hmem p).2 ⟨hp, (cheapCell_iff_of_covers costThreshold hc).2 hat⟩

/-- A map of one free cell. -/
def oneCell : OccupancyGrid ℚ := ⟨1, 0, 0, 1, 1, #[0], one_pos, rfl, by decide⟩

theorem filterFeasiblePoints_sound_iff_oneCell : Sound oneCell 50 [⟨0.5, 0.5, 0⟩] := by
  refine (filterFeasiblePoints_sound_iff oneCell 50 [⟨0.5, 0.5, 0⟩]).2 fun p hp hfr => ?_
  rw [List.mem_singleton.1 hp] at hfr
  rcases hfr.2.2 with h | h <;> norm_num [oneCell] at h

/-- **Half a metre to the left of the map a point is kept.** -/
theorem kept_off_the_map : ¬ Sound oneCell 50 [⟨-0.5, 0.5, 0⟩] := by
  rintro ⟨feasible, hf, hkept, -⟩
  obtain ⟨feasible', hf', hmem⟩ := filterFeasiblePoints_eq_some oneCell 50 [⟨-0.5, 0.5, 0⟩]
  obtain rfl : feasible = feasible' := Option.some.inj (hf.symm.trans hf')
  have hx : oneCell.cellX ⟨-0.5, 0.5, 0⟩ = 0 := by decide +kernel
  have hy : oneCell.cellY ⟨-0.5, 0.5, 0⟩ = 0 := by decide +kernel
  have hin : (⟨-0.5, 0.5, 0⟩ : Point ℚ) ∈ feasible := by
    apply (hmem _).2
    rw [hx, hy]
    exact ⟨List.mem_singleton_self _, by decide, 0, rfl, rfl⟩
  have hcovers := (hkept _ hin).2.1.1.1
  norm_num [oneCell] at hcovers

end Sound

/-! ## The action -/

structure AttackParams (K : Type) where
  attackRadius : K
  numSectors : Int
  costThreshold : Int

/-- `auto_aim_interfaces::msg::Target` -/
structure Target (K : Type) where
  tracking : Bool
  id : String
  position : Point K

/-- What the action asks of tf2 and of the clock. -/
structure AttackEnv (K : Type) where
  frameId : String
  transformPoseInTargetFrame : Point K → Option (Point K)
  robotPosition : Option (Point K)
  now : Int

section Action

variable (lib : Libm K) (params : AttackParams K) (env : AttackEnv K)

def generateCandidatePoints (enemyPosition : Point K) : List (Point K) :=
  (List.range params.numSectors.toNat).map fun i : Nat =>
    let angle := (i : K) * 2.0 * lib.pi / (params.numSectors : K)
    ⟨enemyPosition.x + params.attackRadius * lib.cos angle, enemyPosition.y + params.attackRadius * lib.sin angle, 0⟩

def squaredRange (robotPosition a : Point K) : K :=
  (a.x - robotPosition.x) * (a.x - robotPosition.x) + (a.y - robotPosition.y) * (a.y - robotPosition.y)

/-- `selectBestPoint`; `std::min_element` takes the first of several. -/
def selectBestPoint (feasible : List (Point K)) (robotPosition : Point K) : Option (Point K) :=
  feasible.argmin (squaredRange robotPosition)

def createAttackPose (attackPoint enemyPosition : Point K) : PoseStamped K :=
  ⟨env.frameId, env.now, attackPoint,
    yawQuaternion lib (lib.atan2 (enemyPosition.y - attackPoint.y) (enemyPosition.x - attackPoint.x))⟩

/-- `setMessage` without its markers: the last known enemy position and the goal, if there is one; none is an access out of
bounds. -/
def setMessage (costmap : Option (OccupancyGrid K)) (target : Option (Target K)) (enemyOnCostmap : Point K) :
    Option (Point K × Option (PoseStamped K)) :=
  match costmap, target with
  | some costmap, some target =>
    if target.tracking = false ∧ target.id = "" then
      if enemyOnCostmap.x = 0 ∧ enemyOnCostmap.y = 0 then some (enemyOnCostmap, none)
      else some (enemyOnCostmap, some { PoseStamped.fresh with position := enemyOnCostmap })
    else
      match env.transformPoseInTargetFrame target.position with
      | none => some (enemyOnCostmap, none)
      | some enemy =>
        (filterFeasiblePoints costmap params.costThreshold (generateCandidatePoints lib params enemy)).map fun feasible =>
          match env.robotPosition with
          | none => (enemy, none)
          | some robot => (enemy, (selectBestPoint feasible robot).map fun best => createAttackPose lib env best enemy)
  | _, _ => some (enemyOnCostmap, none)

variable {lib params env} {costmap : OccupancyGrid K} {target : Target K} {last enemy : Point K} {goal : PoseStamped K}

/-- **The attack pose of a target that is tracked stands on a kept candidate, and on none is it nearer to the robot.** -/
theorem setMessage_goal (htracked : ¬ (target.tracking = false ∧ target.id = ""))
    (h : setMessage lib params env (some costmap) (some target) last = some (enemy, some goal)) :
    ∃ feasible robot,
      filterFeasiblePoints costmap params.costThreshold (generateCandidatePoints lib params enemy) = some feasible ∧
        env.robotPosition = some robot ∧ goal.position ∈ feasible ∧
        ∀ q ∈ feasible, squaredRange robot goal.position ≤ squaredRange robot q := by
  simp only [setMessage, if_neg htracked] at h
  cases ht : env.transformPoseInTargetFrame target.position with
  | none => simp [ht] at h
  | some enemy' =>
    rw [ht] at h
    obtain ⟨feasible, hf, -⟩ :=
      filterFeasiblePoints_eq_some costmap params.costThreshold (generateCandidatePoints lib params enemy')
    simp only [hf, Option.map_some, Option.some.injEq] at h
    cases hr : env.robotPosition with
    | none => simp [hr] at h
    | some robot =>
      simp only [hr, Prod.mk.injEq, Option.map_eq_some_iff] at h
      obtain ⟨rfl, best, hbest, rfl⟩ := h
      have hmem : best ∈ feasible := List.argmin_mem hbest
      exact ⟨feasible, robot, hf, rfl, hmem, fun q hq => List.le_of_mem_argmin hq hbest⟩

/-- **No access is ever out of bounds.** -/
theorem setMessage_isSome (costmap : Option (OccupancyGrid K)) (target : Option (Target K)) :
    (setMessage lib params env costmap target last).isSome := by
  unfold setMessage
  split
  · rename_i costmap target
    split_ifs
    · rfl
    · rfl
    · cases env.transformPoseInTargetFrame target.position with
      | none => rfl
      | some enemy =>
        obtain ⟨feasible, hf, -⟩ :=
          filterFeasiblePoints_eq_some costmap params.costThreshold (generateCandidatePoints lib params enemy)
        simp [hf]
  · rfl

end Action

end Behavior
end LfSentry
