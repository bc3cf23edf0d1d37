import LfSentry.TerrainAnalysis
import Mathlib.Data.List.Pairwise
/-!
# TerrainGround — what is taken for the ground, and what is published above it

A planar cell gathers the heights of the points that lie in it or next to it (`planarPointElev_eq`), and its ground is an
order statistic of them, or the lowest (`planarVoxelElev_ground`).  A published point that is no block is a point of the
terrain cloud with its height over the ground of its cell (`mem_published`).
-/
namespace LfSentry
namespace Grid

variable {w r : Nat} {x y : Int}

theorem offsets_nodup : (offsets r).Nodup := List.nodup_range.map fun a b h => by simpa using h

theorem square_nodup : (square w r x y).Nodup := by
  refine List.nodup_flatMap.2 ⟨fun dX _ => ?_, offsets_nodup.imp fun {a b} hab i hi hj => hab ?_⟩
  · refine offsets_nodup.filterMap fun a b i ha hb => ?_
    simp only [Option.mem_def, Option.ite_none_right_eq_some, Option.some.injEq] at ha hb
    have := Int.mul_nonneg (Int.natCast_nonneg w) ha.1.1
    omega
  · simp only [List.mem_filterMap, Option.ite_none_right_eq_some, Option.some.injEq] at hi hj
    obtain ⟨d, -, ⟨hx0, hxw, hy0, hyw⟩, hi⟩ := hi
    obtain ⟨e, -, ⟨hx0', hxw', hy0', hyw'⟩, hj⟩ := hj
    -- the row can be read off the number of the cell
    obtain ⟨k, hk⟩ := Int.eq_ofNat_of_zero_le hx0
    obtain ⟨l, hl⟩ := Int.eq_ofNat_of_zero_le hx0'
    obtain ⟨m, hm⟩ := Int.eq_ofNat_of_zero_le hy0
    obtain ⟨n, hn⟩ := Int.eq_ofNat_of_zero_le hy0'
    rw [hk, hm] at hi
    rw [hl, hn] at hj
    have hi' : w * k + m = i := by exact_mod_cast hi
    have hj' : w * l + n = i := by exact_mod_cast hj
    have hrow : k = l := by
      rw [← index_div (w := w) (x := k) (y := m) (by omega), ← index_div (w := w) (x := l) (y := n) (by omega), hi', hj']
    omega

end Grid

namespace Terrain

open Vision (Libm toInt)

variable {K : Type} [Field K] [LinearOrder K] [FloorRing K] (L : Layout K)

omit [Field K] [LinearOrder K] [FloorRing K] in
/-- A height is appended once to each of the cells. -/
theorem foldl_push {cells : List Nat} (hnodup : cells.Nodup) (z : K) (elev : Nat → List K) (i : Nat) :
    cells.foldl (fun elev ind => Function.update elev ind (elev ind ++ [z])) elev i =
      if i ∈ cells then elev i ++ [z] else elev i := by
  induction cells generalizing elev with
  | nil => simp
  | cons c cells ih =>
    obtain ⟨hc, hcells⟩ := List.nodup_cons.1 hnodup
    rw [List.foldl_cons, ih hcells]
    by_cases hi : i = c
    · simp [hi, hc]
    · simp [hi]

/-- Whether the heights of a point count for a cell. -/
def Near (vehicle : Vehicle K) (i : Nat) (point : PointXYZI K) : Prop :=
  i ∈ Grid.square L.planarVoxelWidth 1 (planarIndX L vehicle point) (planarIndY L vehicle point)

instance (vehicle : Vehicle K) (i : Nat) (point : PointXYZI K) : Decidable (Near L vehicle i point) :=
  inferInstanceAs (Decidable (_ ∈ _))

/-- **The heights gathered for a cell are those of the points in it and next to it that are looked at.** -/
theorem planarPointElev_eq (looked : PointXYZI K → Bool) (vehicle : Vehicle K) (terrainCloud : List (PointXYZI K)) (i : Nat) :
    planarPointElev L looked vehicle terrainCloud i =
      (terrainCloud.filter fun point => looked point ∧ Near L vehicle i point).map (·.z) := by
  have hfold : ∀ (cloud : List (PointXYZI K)) (elev : Nat → List K),
      cloud.foldl (fun elev point => if looked point then pushElev L vehicle elev point else elev) elev i =
        elev i ++ (cloud.filter fun point => looked point ∧ Near L vehicle i point).map (·.z) := by
    intro cloud
    induction cloud with
    | nil => simp
    | cons point cloud ih =>
      intro elev
      rw [List.foldl_cons, ih, List.filter_cons]
      have hpush := foldl_push (Grid.square_nodup (w := L.planarVoxelWidth) (r := 1) (x := planarIndX L vehicle point)
        (y := planarIndY L vehicle point)) point.z elev i
      by_cases hl : looked point = true
      · rw [if_pos hl, pushElev, hpush]
        by_cases hn : Near L vehicle i point
        · rw [if_pos (show i ∈ Grid.square _ _ _ _ from hn), if_pos (by simp [hl, hn])]
          simp
        · rw [if_neg (show i ∉ Grid.square _ _ _ _ from hn), if_neg (by simp [hn])]
      · rw [if_neg hl, if_neg (by simp [hl])]
  rw [planarPointElev, hfold, List.nil_append]

/-! ## The order statistic -/

omit [Field K] [FloorRing K] in
/-- **A place of a sorted list has that many before it, and the others from it on.** -/
theorem countP_sorted {l : List K} (hsorted : l.Pairwise (· ≤ ·)) {k : Nat} (hk : k < l.length) :
    k < l.countP (· ≤ l[k]) ∧ l.length - k ≤ l.countP (l[k] ≤ ·) := by
  have hle : ∀ a b (hab : a ≤ b) (hb : b < l.length), l.get ⟨a, by omega⟩ ≤ l[b] := fun a b hab hb => by
    rcases hab.eq_or_lt with rfl | hlt
    · exact le_rfl
    · exact List.pairwise_iff_getElem.1 hsorted a b (by omega) hb hlt
  constructor
  · have htake : (l.take (k + 1)).countP (· ≤ l[k]) = k + 1 := by
      rw [List.countP_eq_length.2 fun z hz => ?_, List.length_take, Nat.min_eq_left hk]
      obtain ⟨a, ha, rfl⟩ := List.mem_take_iff_getElem.1 hz
      simpa using hle a k (by omega) hk
    have := (List.take_sublist (k + 1) l).countP_le (p := (· ≤ l[k]))
    omega
  · have hdrop : (l.drop k).countP (l[k] ≤ ·) = l.length - k := by
      rw [List.countP_eq_length.2 fun z hz => ?_, List.length_drop]
      obtain ⟨a, ha, rfl⟩ := List.mem_drop_iff_getElem.1 hz
      simpa using hle k (k + a) (by omega) (by omega)
    have := (List.drop_sublist k l).countP_le (p := (l[k] ≤ ·))
    omega

omit [Field K] [FloorRing K] in
/-- What has that many at or below it and the others at or above it is the same value. -/
theorem eq_of_countP {l : List K} {k : Nat} {y z : K} (hy : k < l.countP (· ≤ y) ∧ l.length - k ≤ l.countP (y ≤ ·))
    (hz : k < l.countP (· ≤ z) ∧ l.length - k ≤ l.countP (z ≤ ·)) : y = z := by
  have hdisjoint : ∀ a b : K, a < b → l.countP (· ≤ a) + l.countP (b ≤ ·) ≤ l.length := fun a b hab => by
    have hsplit := l.length_eq_countP_add_countP (fun x : K => decide (x ≤ a))
    have hmono : l.countP (b ≤ ·) ≤ l.countP fun x => ¬ decide (x ≤ a) = true :=
      List.countP_mono_left fun x _ hx => by
        have hx' : b ≤ x := by simpa using hx
        simpa using hab.trans_le hx'
    omega
  rcases lt_trichotomy y z with h | h | h
  · have := hdisjoint y z h
    omega
  · exact h
  · have := hdisjoint z y h
    omega

theorem quantileID_lt (quantileZ : K) {size : Nat} (h : 0 < size) : quantileID quantileZ size < size := by
  unfold quantileID
  dsimp only
  split_ifs
  · exact h
  · omega
  · omega

omit [FloorRing K] in
/-- **The loop without sorting finds the lowest height below 1000.** -/
theorem lowest_spec (elev : List K) : (lowest elev = none ∧ ∀ z ∈ elev, 1000.0 ≤ z) ∨
    ∃ z ∈ elev, lowest elev = some z ∧ z < 1000.0 ∧ ∀ y ∈ elev, z ≤ y := by
  let I : List K → K × Option K → Prop := fun seen m =>
    (m = (1000.0, none) ∧ ∀ z ∈ seen, 1000.0 ≤ z) ∨ ∃ z ∈ seen, m = (z, some z) ∧ z < 1000.0 ∧ ∀ y ∈ seen, z ≤ y
  have hfold : I elev (elev.foldl (fun (m : K × Option K) z => if z < m.1 then (z, some z) else m) (1000.0, none)) := by
    induction elev using List.reverseRecOn with
    | nil => exact Or.inl ⟨rfl, fun _ h => absurd h List.not_mem_nil⟩
    | append_singleton seen y ih =>
      rw [List.foldl_append, List.foldl_cons, List.foldl_nil]
      rcases ih with ⟨hm, hle⟩ | ⟨z, hz, hm, hz', hle⟩
      · rw [hm]
        split_ifs with hy
        · refine Or.inr ⟨y, by simp, rfl, hy, fun x hx => ?_⟩
          rcases List.mem_append.1 hx with hx | hx
          · exact hy.le.trans (hle x hx)
          · rw [List.mem_singleton.1 hx]
        · refine Or.inl ⟨rfl, fun x hx => ?_⟩
          rcases List.mem_append.1 hx with hx | hx
          · exact hle x hx
          · rw [List.mem_singleton.1 hx]
            exact not_lt.1 hy
      · rw [hm]
        split_ifs with hy
        · refine Or.inr ⟨y, by simp, rfl, lt_trans hy hz', fun x hx => ?_⟩
          rcases List.mem_append.1 hx with hx | hx
          · exact hy.le.trans (hle x hx)
          · rw [List.mem_singleton.1 hx]
        · refine Or.inr ⟨z, List.mem_append_left _ hz, rfl, hz', fun x hx => ?_⟩
          rcases List.mem_append.1 hx with hx | hx
          · exact hle x hx
          · rw [List.mem_singleton.1 hx]
            exact not_lt.1 hy
  rcases hfold with ⟨hm, hle⟩ | ⟨z, hz, hm, hz', hle⟩
  · exact Or.inl ⟨by rw [lowest, hm], hle⟩
  · exact Or.inr ⟨z, hz, by rw [lowest, hm], hz', hle⟩

end Terrain

namespace TerrainAnalysis

open Vision (Libm)
open Terrain

variable {K : Type} [Field K] [LinearOrder K] [FloorRing K] (lib : Libm K) (p : Params K)

/-- What the ground of a cell with these heights is: the height at the place of the quantile, when they are sorted at most so
much above the lowest, or the lowest of those below 1000. -/
def IsGround (heights : List K) (ground : K) : Prop :=
  if p.useSorting then
    ∃ first ∈ heights, (∀ y ∈ heights, first ≤ y) ∧ ∃ z ∈ heights,
      (quantileID p.quantileZ heights.length < heights.countP (· ≤ z) ∧
        heights.length - quantileID p.quantileZ heights.length ≤ heights.countP (z ≤ ·)) ∧
      ground = if p.limitGroundLift then min z (first + p.maxGroundLift) else z
  else (ground = 0 ∧ ∀ z ∈ heights, 1000.0 ≤ z) ∨ (ground ∈ heights ∧ ground < 1000.0 ∧ ∀ z ∈ heights, ground ≤ z)

variable {p} in
theorem IsGround.unique {heights : List K} {g h : K} (hg : IsGround p heights g) (hh : IsGround p heights h) : g = h := by
  unfold IsGround at hg hh
  by_cases hsort : p.useSorting
  · rw [if_pos hsort] at hg hh
    obtain ⟨a, ha, hamin, y, -, hy, rfl⟩ := hg
    obtain ⟨b, hb, hbmin, z, -, hz, rfl⟩ := hh
    rw [le_antisymm (hamin b hb) (hbmin a ha), eq_of_countP hy hz]
  · rw [if_neg hsort] at hg hh
    rcases hg with ⟨rfl, hg⟩ | ⟨hg, hg', hgmin⟩
    · rcases hh with ⟨rfl, -⟩ | ⟨hh, hh', -⟩
      · rfl
      · exact absurd (hg h hh) (not_le.2 hh')
    · rcases hh with ⟨rfl, hh⟩ | ⟨hh, hh', hhmin⟩
      · exact absurd (hh g hg) (not_le.2 hg')
      · exact le_antisymm (hgmin h hh) (hhmin g hg)

/-- **What the loops over the cells take for the ground is the ground.** -/
theorem planarVoxelElev_ground {heights : List K} (hne : heights ≠ []) :
    IsGround p heights (planarVoxelElev p heights) := by
  unfold IsGround planarVoxelElev
  by_cases hsort : p.useSorting
  · rw [if_pos hsort, if_pos hsort]
    have hperm : (heights.insertionSort (· ≤ ·)).Perm heights := List.perm_insertionSort _ _
    have hsorted : (heights.insertionSort (· ≤ ·)).Pairwise (· ≤ ·) := List.pairwise_insertionSort _ _
    have hk : quantileID p.quantileZ heights.length < (heights.insertionSort (· ≤ ·)).length :=
      (quantileID_lt p.quantileZ (List.length_pos_iff.2 hne)).trans_eq hperm.length_eq.symm
    generalize heights.insertionSort (· ≤ ·) = l at hperm hsorted hk
    generalize quantileID p.quantileZ heights.length = k at hk
    have hrank := countP_sorted hsorted hk
    rw [hperm.countP_eq, hperm.countP_eq, hperm.length_eq] at hrank
    cases l with
    | nil => cases hk
    | cons first rest =>
      refine ⟨first, hperm.mem_iff.1 List.mem_cons_self, fun y hy => ?_, _, hperm.mem_iff.1 (List.getElem_mem hk), hrank, ?_⟩
      · rcases List.mem_cons.1 (hperm.mem_iff.2 hy) with rfl | hy
        · exact le_rfl
        · exact List.rel_of_pairwise_cons hsorted hy
      · dsimp only
        rw [List.getD_eq_getElem?_getD, List.getElem?_eq_getElem hk, Option.getD_some]
        by_cases hlimit : p.limitGroundLift
        · by_cases hlift : (first :: rest)[k] > first + p.maxGroundLift
          · rw [if_pos ⟨hlift, hlimit⟩, if_pos hlimit, min_eq_right hlift.le]
          · rw [if_neg fun h => hlift h.1, if_pos hlimit, min_eq_left (not_lt.1 hlift)]
        · rw [if_neg fun h => hlimit h.2, if_neg hlimit]
  · rw [if_neg hsort, if_neg hsort]
    rcases lowest_spec heights with ⟨hnone, hle⟩ | ⟨z, hz, hsome, hz', hle⟩
    · rw [hnone]
      exact Or.inl ⟨rfl, hle⟩
    · rw [hsome]
      exact Or.inr ⟨hz, hz', hle⟩

/-! ## What is published -/

/-- The heights that count for a cell. -/
def heights (vehicle : Vehicle K) (terrainCloud : List (PointXYZI K)) (ind : Nat) : List K :=
  (terrainCloud.filter fun point => looked p vehicle point ∧ Near layout vehicle ind point).map (·.z)

/-- The height of a point over the ground, or its distance from it. -/
def overGround (point : PointXYZI K) (ground : K) : K :=
  if p.considerDrop then |point.z - ground| else point.z - ground

/-- A point of the terrain cloud with its height over the ground of its cell, where that is known well enough, less than that
of the vehicle, and not taken for something that moves. -/
structure OverGround (vehicle : Vehicle K) (terrainCloud : List (PointXYZI K)) (dyObs : Nat → Int) (q point : PointXYZI K)
    (ind : Nat) (z : K) : Prop where
  mem : point ∈ terrainCloud
  looked : looked p vehicle point
  cell : planarInd layout vehicle point = some ind
  own : point.z ∈ heights p vehicle terrainCloud ind
  known : p.minBlockPointNum ≤ ((heights p vehicle terrainCloud ind).length : Int)
  ground : IsGround p (heights p vehicle terrainCloud ind) z
  still : p.clearDyObs → dyObs ind < p.minDyObsPointNum
  eq : q = { point with intensity := overGround p point z }
  nonneg : 0 ≤ q.intensity
  lt : q.intensity < p.vehicleHeight

/-- A point in the square lies in the cell that it is sorted into. -/
theorem near_of_planarInd {L : Layout K} {vehicle : Vehicle K} {point : PointXYZI K} {ind : Nat}
    (h : planarInd L vehicle point = some ind) : Near L vehicle ind point := by
  unfold planarInd at h
  dsimp only at h
  split_ifs at h with hin
  obtain ⟨hx0, hxw, hy0, hyw⟩ := hin
  obtain rfl := Option.some.inj h
  unfold Near
  generalize planarIndX L vehicle point = indX at *
  generalize planarIndY L vehicle point = indY at *
  obtain ⟨a, rfl⟩ := Int.eq_ofNat_of_zero_le hx0
  obtain ⟨b, rfl⟩ := Int.eq_ofNat_of_zero_le hy0
  simp only [Int.toNat_natCast]
  rw [Grid.mem_square, Grid.index_div (by omega), Grid.index_mod (by omega)]
  exact ⟨Grid.index_lt (by omega) (by omega), by omega, by omega⟩

variable {lib p} in
theorem mem_terrainCloudElev {vehicle : Vehicle K} {terrainCloud : List (PointXYZI K)} {dyObs : Nat → Int}
    {q : PointXYZI K} : q ∈ terrainCloudElev p vehicle (heights p vehicle terrainCloud) dyObs terrainCloud ↔
      ∃ point ind ground, OverGround p vehicle terrainCloud dyObs q point ind ground := by
  rw [terrainCloudElev, List.mem_filterMap]
  constructor
  · rintro ⟨point, hmem, h⟩
    by_cases hlooked : looked p vehicle point = true
    · rw [if_pos hlooked] at h
      cases hcell : planarInd layout vehicle point with
      | none => simp [hcell] at h
      | some ind =>
        have hown : point.z ∈ heights p vehicle terrainCloud ind :=
          List.mem_map_of_mem (List.mem_filter.2 ⟨hmem, by simp [hlooked, near_of_planarInd hcell]⟩)
        simp only [hcell, Option.ite_none_right_eq_some, Option.some.injEq] at h
        obtain ⟨hstill, ⟨hnonneg, hlt, hknown⟩, rfl⟩ := h
        exact ⟨point, ind, _, hmem, hlooked, hcell, hown, hknown, planarVoxelElev_ground p (List.ne_nil_of_mem hown),
          fun hclear => hstill.resolve_right fun hno => hno hclear, rfl, hnonneg, hlt⟩
    · simp [hlooked] at h
  · rintro ⟨point, ind, ground, h⟩
    refine ⟨point, h.mem, ?_⟩
    have hground := h.ground.unique (planarVoxelElev_ground p (List.ne_nil_of_mem h.own))
    have hstill : dyObs ind < p.minDyObsPointNum ∨ ¬ p.clearDyObs = true := by
      by_cases hclear : p.clearDyObs = true
      · exact Or.inl (h.still hclear)
      · exact Or.inr hclear
    have hnonneg := h.nonneg
    have hlt := h.lt
    rw [h.eq, overGround] at hnonneg hlt
    rw [if_pos h.looked, h.cell]
    dsimp only
    rw [if_pos hstill, ← hground, if_pos ⟨hnonneg, hlt, h.known⟩, h.eq, overGround]

variable {lib p} in
/-- **What is published for a terrain cloud: the points over the ground with their heights, and when the node has gone far
enough the points that stand for the blocked cells.** -/
theorem mem_published {n : Node K} {terrainCloud : List (PointXYZI K)} {q : PointXYZI K} :
    q ∈ published lib p n terrainCloud ↔
      (∃ point ind ground, OverGround p n.vehicle terrainCloud
        (planarVoxelDyObs lib p n.vehicle terrainCloud n.laserCloudCrop) q point ind ground) ∨
      (p.noDataObstacle ∧ n.noDataInited = 2 ∧
        ∃ i ∈ blockedCells p 51 (heights p n.vehicle terrainCloud), q ∈ blockPoints p layout n.vehicle i) := by
  have helev : planarPointElev layout (looked p n.vehicle) n.vehicle terrainCloud = heights p n.vehicle terrainCloud :=
    funext fun i => planarPointElev_eq layout _ n.vehicle terrainCloud i
  unfold published
  dsimp only
  rw [helev]
  by_cases hblock : p.noDataObstacle ∧ n.noDataInited = 2
  · rw [if_pos hblock, List.mem_append, mem_terrainCloudElev, List.mem_flatMap]
    simp only [hblock.1, hblock.2, true_and]
    rfl
  · rw [if_neg hblock, mem_terrainCloudElev]
    exact (or_iff_left fun h => hblock ⟨h.1, h.2.1⟩).symm

end TerrainAnalysis
end LfSentry
