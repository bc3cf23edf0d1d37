import LfSentry.IvoxMap
import Mathlib.Algebra.Order.Floor.Ring
import Mathlib.Data.Rat.Floor
import Mathlib.Tactic.Linarith
import Mathlib.Tactic.Positivity
/-!
# IvoxNearest — the closest points of the voxel map

`GetClosestPoint` cuts every cell down to its closest points and then what is left: the answer is the closest points of
all that lie in the cells around and within range (`getClosestPoint_nearest`).  With all 26 neighbours they are the closest
points of the whole map, if that many lie within the size of a cell (`getClosestPoint_of_dense`).
-/
namespace LfSentry
namespace Ivox

open Nearest (Smallest Reduces NthElement)

section Lists

variable {α β γ : Type}

theorem flatMap_filter (p : α → Bool) (f : α → List β) (l : List α) :
    (l.filter p).flatMap f = l.flatMap fun a => if p a then f a else [] := by
  induction l with
  | nil => rfl
  | cons a l ih => by_cases h : p a <;> simp [h, ih]

theorem flatMap_filterMap (g : α → Option γ) (f : γ → List β) (l : List α) :
    (l.filterMap g).flatMap f = l.flatMap fun a => (g a).elim [] f := by
  induction l with
  | nil => rfl
  | cons a l ih => cases h : g a <;> simp [h, ih]

end Lists

variable {K P : Type} [Field K] [LinearOrder K] (xyz : P → PtType K)

/-- The squared distance to a point. -/
def IVox.distTo (pt : P) (p : P) : K := distance2 (xyz p) (xyz pt)

variable {s : IVox K P} {pt : P} {it : Nat} {key : KeyType} {node : IVoxNode P} {maxNum : Nat} {maxRange : K}

/-- A noted point can be read back from its cell, and its distance is the one noted. -/
theorem get_inRange (h : s.gridsCache.lookup it = some (key, node)) {d : DistPoint K}
    (hd : d ∈ node.inRange xyz it pt maxRange) : ∃ p, s.get d = some p ∧ d.dist = IVox.distTo xyz pt p := by
  obtain ⟨⟨p, i⟩, hp, hd⟩ := List.mem_filterMap.1 hd
  have hi : node.points[i]? = some p := List.mem_zipIdx_iff_getElem?.1 hp
  simp only [Option.ite_none_right_eq_some, Option.some.injEq] at hd
  obtain ⟨-, rfl⟩ := hd
  exact ⟨p, by simp [IVox.get, h, hi], rfl⟩

/-- The points noted are those of the cell within range. -/
theorem filterMap_get_inRange (h : s.gridsCache.lookup it = some (key, node)) :
    (node.inRange xyz it pt maxRange).filterMap s.get =
      node.points.filter fun p => IVox.distTo xyz pt p < maxRange * maxRange := by
  have hzip : ∀ q ∈ node.points.zipIdx,
      ((if distance2 (xyz q.1) (xyz pt) < maxRange * maxRange then
        some (⟨distance2 (xyz q.1) (xyz pt), it, q.2⟩ : DistPoint K) else none).bind s.get) =
      if IVox.distTo xyz pt q.1 < maxRange * maxRange then some q.1 else none := by
    rintro ⟨p, i⟩ hp
    have hi : node.points[i]? = some p := List.mem_zipIdx_iff_getElem?.1 hp
    by_cases hlt : distance2 (xyz p) (xyz pt) < maxRange * maxRange
    · simp [IVox.distTo, hlt, IVox.get, h, hi]
    · simp [IVox.distTo, hlt]
  rw [IVoxNode.inRange, List.filterMap_filterMap, List.filterMap_congr hzip, ← List.filterMap_eq_filter]
  conv_rhs => rw [← List.zipIdx_map_fst 0 node.points, List.filterMap_map]
  refine List.filterMap_congr fun q _ => ?_
  by_cases hlt : IVox.distTo xyz pt q.1 < maxRange * maxRange <;> simp [hlt, Option.guard]

variable (pt it node maxRange) in
/-- A cell adds its closest points to the candidates. -/
theorem knnPointByCondition_smallest (nth : NthElement (DistPoint.dist (K := K))) (hnum : 0 < maxNum)
    (disPoints : List (DistPoint K)) :
    ∃ kept, node.knnPointByCondition xyz nth it disPoints pt maxNum maxRange = disPoints ++ kept ∧
      Smallest DistPoint.dist maxNum (node.inRange xyz it pt maxRange) kept := by
  rw [IVoxNode.knnPointByCondition]
  split
  · rename_i hle
    rw [List.length_append] at hle
    exact ⟨_, rfl, Smallest.of_le (by omega)⟩
  · rename_i hgt
    rw [List.length_append] at hgt
    refine ⟨(nth.apply (node.inRange xyz it pt maxRange) (maxNum - 1)).take maxNum, ?_, ?_⟩
    · simp only [List.take_left, List.drop_left, List.take_length_add_append]
    · have := nth.smallest_take (node.inRange xyz it pt maxRange) (n := maxNum - 1) (by omega)
      rwa [Nat.sub_add_cancel hnum] at this

variable [FloorRing K]

/-- The points of the cells around that are within range. -/
def IVox.around (s : IVox K P) (pt : P) (maxRange : K) : List P :=
  s.nearbyGrids.flatMap fun delta =>
    ((s.cell (s.pos2Grid (xyz pt) + delta)).getD []).filter fun p => IVox.distTo xyz pt p < maxRange * maxRange

variable (pt maxRange) in
/-- What the loop over the cells gathers is the points around, cut down. -/
theorem candidates_reduces (nth : NthElement (DistPoint.dist (K := K))) (hnum : 0 < maxNum)
    {t : Recency.Store KeyType P} (h : Represents s t) :
    ∃ l c, s.candidates xyz nth pt maxNum maxRange = some c ∧ Reduces DistPoint.dist maxNum l c ∧
      (∀ d ∈ l, ∃ p, s.get d = some p ∧ d.dist = IVox.distTo xyz pt p) ∧
      l.filterMap s.get = s.around xyz pt maxRange := by
  rw [IVox.candidates, IVox.around]
  induction s.nearbyGrids using List.reverseRecOn with
  | nil => exact ⟨[], [], rfl, fun b r hr => hr, by simp, rfl⟩
  | append_singleton deltas delta ih =>
    obtain ⟨l, c, hc, hred, hget, hl⟩ := ih
    rw [List.foldlM_append, hc, List.flatMap_append, ← hl]
    simp only [List.foldlM_cons, List.foldlM_nil, List.flatMap_cons, List.flatMap_nil, List.append_nil]
    cases hk : s.gridsMap.lookup (s.pos2Grid (xyz pt) + delta) with
    | none => exact ⟨l, c, rfl, hred, hget, by simp [IVox.cell, hk]⟩
    | some it =>
      obtain ⟨node, hnode, -⟩ := h.lookup hk
      obtain ⟨kept, hkept, hsmall⟩ := knnPointByCondition_smallest xyz pt it node maxRange nth hnum c
      refine ⟨l ++ node.inRange xyz it pt maxRange, c ++ kept, ?_, hred.append hsmall, ?_, ?_⟩
      · simp [hnode, hkept]
      · intro d hd
        rcases List.mem_append.1 hd with hd | hd
        · exact hget d hd
        · exact get_inRange xyz hnode hd
      · rw [List.filterMap_append, filterMap_get_inRange xyz hnode]
        simp [IVox.cell, hk, hnode]

/-- All points of the map. -/
def IVox.points (s : IVox K P) : List P := s.gridsCache.entries.flatMap fun e => e.2.2.points

theorem nodup_generateNearbyGrids (n : NearbyType) : (generateNearbyGrids n).Nodup := by
  cases n <;> decide

variable (pt maxRange) in
/-- **The points around are the points of the map whose cells are neighbours, within range.** -/
theorem around_perm {t : Recency.Store KeyType P} (h : Represents s t) (hnear : s.nearbyGrids.Nodup)
    (hkeys : ∀ e ∈ t.entries, ∀ p ∈ e.2, s.pos2Grid (xyz p) = e.1) :
    (s.around xyz pt maxRange).Perm (s.points.filter fun p =>
      s.pos2Grid (xyz p) - s.pos2Grid (xyz pt) ∈ s.nearbyGrids ∧ IVox.distTo xyz pt p < maxRange * maxRange) := by
  set key := s.pos2Grid (xyz pt) with hkey
  let close (e : Σ _ : KeyType, List P) : Bool := e.1 - key ∈ s.nearbyGrids
  let inRange (e : Σ _ : KeyType, List P) : List P :=
    e.2.filter fun p => IVox.distTo xyz pt p < maxRange * maxRange
  have hpoints : s.points = t.entries.flatMap fun e => e.2 := by
    rw [IVox.points, ← h.cells, List.flatMap_map]
    rfl
  have hright : (s.points.filter fun p =>
      s.pos2Grid (xyz p) - key ∈ s.nearbyGrids ∧ IVox.distTo xyz pt p < maxRange * maxRange) =
      (t.entries.filter close).flatMap inRange := by
    rw [hpoints, List.filter_flatMap, flatMap_filter]
    refine List.flatMap_congr fun e he => ?_
    by_cases hc : close e
    · rw [if_pos hc]
      refine List.filter_congr fun p hp => ?_
      rw [hkeys e he p hp]
      simpa [close] using fun _ => of_decide_eq_true hc
    · rw [if_neg hc, List.filter_eq_nil_iff]
      intro p hp
      rw [hkeys e he p hp]
      simpa using fun hmem => absurd (decide_eq_true hmem) hc
  have hleft : s.around xyz pt maxRange = (s.nearbyGrids.filterMap fun delta =>
      (t.lookup (key + delta)).map fun pts => (⟨key + delta, pts⟩ : Σ _ : KeyType, List P)).flatMap inRange := by
    rw [IVox.around, flatMap_filterMap]
    refine List.flatMap_congr fun delta _ => ?_
    rw [h.cell, ← hkey]
    cases t.lookup (key + delta) <;> rfl
  rw [hright, hleft]
  refine List.Perm.flatMap_right _ ((List.perm_ext_iff_of_nodup ?_ ?_).2 fun e => ?_)
  · refine List.Nodup.filterMap (fun a b e ha hb => ?_) hnear
    obtain ⟨_, _, rfl⟩ := Option.map_eq_some_iff.1 ha
    obtain ⟨_, _, hb⟩ := Option.map_eq_some_iff.1 hb
    exact (KeyType.add_eq_iff.1 rfl).trans (KeyType.add_eq_iff.1 (congrArg Sigma.fst hb)).symm
  · exact t.nodupKeys.nodup.filter _
  · rw [List.mem_filterMap, List.mem_filter]
    constructor
    · rintro ⟨delta, hdelta, he⟩
      obtain ⟨pts, hpts, rfl⟩ := Option.map_eq_some_iff.1 he
      refine ⟨AList.mem_lookup_iff.1 hpts, ?_⟩
      simpa [close, ← KeyType.add_eq_iff.1 rfl] using hdelta
    · rintro ⟨he, hc⟩
      refine ⟨e.1 - key, of_decide_eq_true hc, ?_⟩
      rw [KeyType.add_eq_iff.2 rfl, AList.mem_lookup_iff.2 he]
      rfl

variable (pt maxRange) in
/-- What `GetClosestPoint` answers, by the points around. -/
theorem getClosestPoint_around (nth : NthElement (DistPoint.dist (K := K))) (hnum : 0 < maxNum)
    {t : Recency.Store KeyType P} (h : Represents s t) :
    (s.around xyz pt maxRange = [] ∧ s.getClosestPoint xyz nth pt maxNum maxRange = some none) ∨
      ∃ first rest, s.getClosestPoint xyz nth pt maxNum maxRange = some (some (first :: rest)) ∧
        Smallest (IVox.distTo xyz pt) maxNum (s.around xyz pt maxRange) (first :: rest) ∧
        ∀ p ∈ s.around xyz pt maxRange, IVox.distTo xyz pt first ≤ IVox.distTo xyz pt p := by
  obtain ⟨l, c, hc, hred, hget, hl⟩ := candidates_reduces xyz pt maxRange nth hnum h
  rw [← hl]
  by_cases hempty : c = []
  · subst hempty
    refine Or.inl ⟨by rw [hred.eq_nil hnum, List.filterMap_nil], ?_⟩
    simp [IVox.getClosestPoint, hc]
  · obtain ⟨d, ds, hsel, hsmall, hfirst⟩ := nth.select_smallest hnum hempty
    have hred' := hred.smallest hsmall
    have hread : ∀ l' : List (DistPoint K), (∀ x ∈ l', x ∈ l) → l'.mapM s.get = some (l'.filterMap s.get) := by
      intro l' hl'
      induction l' with
      | nil => rfl
      | cons x l' ih =>
        obtain ⟨p, hp, -⟩ := hget x (hl' x List.mem_cons_self)
        rw [List.mapM_cons, hp, ih fun y hy => hl' y (List.mem_cons_of_mem x hy), List.filterMap_cons_some hp]
        rfl
    obtain ⟨first, hd, hdist⟩ := hget d (hred'.subset d List.mem_cons_self)
    have hsplit : (d :: ds).filterMap s.get = first :: ds.filterMap s.get := List.filterMap_cons_some hd
    refine Or.inr ⟨first, ds.filterMap s.get, ?_, hsplit ▸ hred'.filterMap hget, fun p hp => ?_⟩
    · rw [← hsplit, ← hread (d :: ds) hred'.subset, ← hsel]
      simp only [IVox.getClosestPoint, hc, Option.bind_eq_bind, Option.bind_some, if_neg hempty]
      rw [hsel, hread (d :: ds) hred'.subset]
      rfl
    · obtain ⟨x, hx, hxp⟩ := List.mem_filterMap.1 hp
      obtain ⟨p', hp', hxdist⟩ := hget x hx
      obtain rfl : p' = p := Option.some.inj (hp'.symm.trans hxp)
      rw [← hdist, ← hxdist]
      obtain ⟨left, hperm, -, hle⟩ := hred'
      rcases List.mem_append.1 (hperm.mem_iff.2 hx) with hx | hx
      · exact hfirst x (hsmall.subset x hx)
      · exact hle d List.mem_cons_self x hx

/-- Every point of a map that was built up lies in the cell of its key. -/
theorem placed_of_run {o : Options K} (hm : Made o s) {h : List P} {e : Σ _ : KeyType, List P}
    (he : e ∈ (Recency.run (o.capacity - 1) (h.map (filed xyz o))).entries) {p : P} (hp : p ∈ e.2) :
    s.pos2Grid (xyz p) = e.1 := by
  obtain ⟨q, -, hq⟩ := List.mem_map.1 (Recency.mem_run he hp)
  simp only [filed, Prod.mk.injEq] at hq
  obtain ⟨hk, rfl⟩ := hq
  rw [hm.pos2Grid, hk]

/-- **`GetClosestPoint` answers with the closest of all points of the map that lie in the cells around and within range, the
closest one first, and with `false` if there is none.** -/
theorem getClosestPoint_nearest (nth : NthElement (DistPoint.dist (K := K))) (o : Options K) (batches : List (List P))
    (pt : P) (maxNum : Nat) (maxRange : K) (hnum : 0 < maxNum) :
    ∃ s, batches.foldlM (IVox.addPoints xyz) (IVox.construct o) = some s ∧
      let around := s.points.filter fun p =>
        s.pos2Grid (xyz p) - s.pos2Grid (xyz pt) ∈ s.nearbyGrids ∧ IVox.distTo xyz pt p < maxRange * maxRange
      (around = [] ∧ s.getClosestPoint xyz nth pt maxNum maxRange = some none) ∨
        ∃ first rest, s.getClosestPoint xyz nth pt maxNum maxRange = some (some (first :: rest)) ∧
          Smallest (IVox.distTo xyz pt) maxNum around (first :: rest) ∧
          ∀ p ∈ around, IVox.distTo xyz pt first ≤ IVox.distTo xyz pt p := by
  obtain ⟨s, hs, hm, hrep⟩ := batches_represents xyz o batches
  have hperm := around_perm xyz pt maxRange hrep (hm.nearby ▸ nodup_generateNearbyGrids _)
    fun e he p hp => placed_of_run xyz hm he hp
  refine ⟨s, hs, ?_⟩
  rcases getClosestPoint_around xyz pt maxRange nth hnum hrep with ⟨h0, hnone⟩ | hsome
  · exact Or.inl ⟨List.nil_perm.1 (h0 ▸ hperm), hnone⟩
  · obtain ⟨first, rest, heq, hsmall, hfirst⟩ := hsome
    exact Or.inr ⟨first, rest, heq, hsmall.perm_left hperm, fun p hp => hfirst p (hperm.mem_iff.2 hp)⟩

/-- Points of four cells, two of them in one; one is out of range. -/
def fourCells : List (List (PtType ℚ)) :=
  [[⟨1 / 2, 1 / 2, 0⟩, ⟨3 / 2, 1 / 2, 0⟩], [⟨1 / 4, 1 / 2, 0⟩, ⟨1 / 2, -1 / 2, 0⟩, ⟨9, 9, 9⟩]]

/-- The two closest of the four points around. -/
theorem getClosestPoint_nearest_fourCells :
    ∃ s, fourCells.foldlM (IVox.addPoints id) (IVox.construct ⟨1, 1, .nearby18, 100⟩) = some s ∧
      let around := s.points.filter fun p =>
        s.pos2Grid p - s.pos2Grid ⟨0, 0, 0⟩ ∈ s.nearbyGrids ∧ IVox.distTo id ⟨0, 0, 0⟩ p < (5 * 5 : ℚ)
      around.length = 4 ∧ ∃ first rest, s.getClosestPoint id (NthElement.ofSort _) ⟨0, 0, 0⟩ 2 5 = some (some (first :: rest)) ∧
        Smallest (IVox.distTo id ⟨0, 0, 0⟩) 2 around (first :: rest) ∧
        ∀ p ∈ around, IVox.distTo id (⟨0, 0, 0⟩ : PtType ℚ) first ≤ IVox.distTo id ⟨0, 0, 0⟩ p := by
  obtain ⟨s, hs, hnear⟩ :=
    getClosestPoint_nearest id (NthElement.ofSort _) ⟨1, 1, .nearby18, 100⟩ fourCells ⟨0, 0, 0⟩ 2 5 (by decide)
  have hlength : (fourCells.foldlM (IVox.addPoints id) (IVox.construct ⟨1, 1, .nearby18, 100⟩)).map (fun s =>
      (s.points.filter fun p =>
        s.pos2Grid p - s.pos2Grid ⟨0, 0, 0⟩ ∈ s.nearbyGrids ∧ IVox.distTo id ⟨0, 0, 0⟩ p < (5 * 5 : ℚ)).length) = some 4 := by
    decide +kernel
  rw [hs, Option.map_some, Option.some.injEq] at hlength
  refine ⟨s, hs, hlength, ?_⟩
  rcases hnear with ⟨hnone, -⟩ | hsome
  · rw [← List.length_eq_zero_iff] at hnone
    exact absurd (hlength.symm.trans hnone) (by decide)
  · exact hsome

section Dense

variable [IsStrictOrderedRing K]

/-- Coordinates no further apart than the size of a cell lie in the same cell or in neighbours. -/
theorem floor_sub_floor {r a b : K} (hr : 0 < r) (h : |a - b| ≤ r) :
    -1 ≤ ⌊a * (1 / r)⌋ - ⌊b * (1 / r)⌋ ∧ ⌊a * (1 / r)⌋ - ⌊b * (1 / r)⌋ ≤ 1 := by
  have hshift : ∀ x y : K, x - y ≤ r → ⌊x * (1 / r)⌋ ≤ ⌊y * (1 / r)⌋ + 1 := by
    intro x y hxy
    rw [← Int.floor_add_one]
    refine Int.floor_le_floor ?_
    rw [mul_one_div, mul_one_div, div_add_one hr.ne', div_le_div_iff_of_pos_right hr]
    linarith
  have h1 := hshift a b (le_trans (le_abs_self _) h)
  have h2 := hshift b a (le_trans (by rw [abs_sub_comm]; exact le_abs_self _) h)
  constructor <;> omega

theorem mem_nearby26 {k : KeyType} (hx : -1 ≤ k.x ∧ k.x ≤ 1) (hy : -1 ≤ k.y ∧ k.y ≤ 1) (hz : -1 ≤ k.z ∧ k.z ≤ 1) :
    k ∈ generateNearbyGrids .nearby26 := by
  obtain ⟨x, y, z⟩ := k
  obtain rfl | rfl | rfl : x = -1 ∨ x = 0 ∨ x = 1 := by simp only at hx; omega
  all_goals obtain rfl | rfl | rfl : y = -1 ∨ y = 0 ∨ y = 1 := by simp only at hy; omega
  all_goals obtain rfl | rfl | rfl : z = -1 ∨ z = 0 ∨ z = 1 := by simp only at hz; omega
  all_goals decide

omit [FloorRing K] in
/-- A coordinate differs by no more than the distance. -/
theorem abs_le_of_distance2 {a b : PtType K} {ρ : K} (hρ : 0 ≤ ρ) (h : distance2 a b ≤ ρ * ρ) :
    |a.x - b.x| ≤ ρ ∧ |a.y - b.y| ≤ ρ ∧ |a.z - b.z| ≤ ρ := by
  unfold distance2 at h
  refine ⟨abs_le_of_sq_le_sq' ?_ hρ |> abs_le.2, abs_le_of_sq_le_sq' ?_ hρ |> abs_le.2,
    abs_le_of_sq_le_sq' ?_ hρ |> abs_le.2⟩ <;>
  nlinarith [mul_self_nonneg (a.x - b.x), mul_self_nonneg (a.y - b.y), mul_self_nonneg (a.z - b.z)]

/-- **Where the map is dense the answer is the closest of all its points.** -/
theorem getClosestPoint_of_dense (nth : NthElement (DistPoint.dist (K := K))) (o : Options K) (batches : List (List P))
    (s : IVox K P) (hrun : batches.foldlM (IVox.addPoints xyz) (IVox.construct o) = some s) (pt : P) (maxNum : Nat)
    (maxRange ρ : K) (hnum : 0 < maxNum) (hres : 0 < o.resolution) (hall : o.nearbyType = .nearby26) (hρ : 0 ≤ ρ)
    (hcell : ρ ≤ o.resolution) (hrange : ρ < maxRange)
    (hdense : maxNum ≤ s.points.countP fun p => IVox.distTo xyz pt p ≤ ρ * ρ) :
    ∃ first rest, s.getClosestPoint xyz nth pt maxNum maxRange = some (some (first :: rest)) ∧
      Smallest (IVox.distTo xyz pt) maxNum s.points (first :: rest) ∧
      ∀ p ∈ s.points, IVox.distTo xyz pt first ≤ IVox.distTo xyz pt p := by
  obtain ⟨s', hs, hm, hrep⟩ := batches_represents xyz o batches
  obtain rfl : s' = s := Option.some.inj (hs.symm.trans hrun)
  have hperm := around_perm xyz pt maxRange hrep (hm.nearby ▸ nodup_generateNearbyGrids _)
    fun e he p hp => placed_of_run xyz hm he hp
  have haround : ∀ p ∈ s'.points, IVox.distTo xyz pt p ≤ ρ * ρ →
      (decide (s'.pos2Grid (xyz p) - s'.pos2Grid (xyz pt) ∈ s'.nearbyGrids ∧
        IVox.distTo xyz pt p < maxRange * maxRange) : Bool) := by
    intro p _ hp
    obtain ⟨hx, hy, hz⟩ := abs_le_of_distance2 hρ hp
    rw [decide_eq_true_iff, hm.nearby, hall, hm.pos2Grid, hm.pos2Grid]
    refine ⟨mem_nearby26 ?_ ?_ ?_, hp.trans_lt (mul_self_lt_mul_self hρ hrange)⟩
    · exact floor_sub_floor hres (hx.trans hcell)
    · exact floor_sub_floor hres (hy.trans hcell)
    · exact floor_sub_floor hres (hz.trans hcell)
  rcases getClosestPoint_around xyz pt maxRange nth hnum hrep with ⟨h0, -⟩ | hsome
  · -- there are points around
    have hpos : 0 < s'.points.countP fun p => IVox.distTo xyz pt p ≤ ρ * ρ := by omega
    obtain ⟨p, hp, hle⟩ := List.countP_pos_iff.1 hpos
    have hin := hperm.mem_iff.2 (List.mem_filter.2 ⟨hp, haround p hp (of_decide_eq_true hle)⟩)
    rw [h0] at hin
    cases hin
  · obtain ⟨first, rest, heq, hsmall, hfirst⟩ := hsome
    have hwhole := Smallest.of_filter haround hdense (hsmall.perm_left hperm)
    refine ⟨first, rest, heq, hwhole, fun p hp => ?_⟩
    obtain ⟨left, hp', -, hle⟩ := hwhole
    rcases List.mem_append.1 (hp'.mem_iff.2 hp) with hp | hp
    · exact hfirst p (hsmall.subset p hp)
    · exact hle first List.mem_cons_self p hp

/-- The two closest of all points of the map. -/
theorem getClosestPoint_of_dense_fourCells :
    ∃ s, fourCells.foldlM (IVox.addPoints id) (IVox.construct ⟨1, 1, .nearby26, 100⟩) = some s ∧
      ∃ first rest, s.getClosestPoint id (NthElement.ofSort _) ⟨0, 0, 0⟩ 2 5 = some (some (first :: rest)) ∧
        Smallest (IVox.distTo id ⟨0, 0, 0⟩) 2 s.points (first :: rest) ∧
        ∀ p ∈ s.points, IVox.distTo id (⟨0, 0, 0⟩ : PtType ℚ) first ≤ IVox.distTo id ⟨0, 0, 0⟩ p := by
  have hcount : (fourCells.foldlM (IVox.addPoints id) (IVox.construct ⟨1, 1, .nearby26, 100⟩)).map (fun s =>
      s.points.countP fun p => IVox.distTo id ⟨0, 0, 0⟩ p ≤ (1 * 1 : ℚ)) = some 3 := by decide +kernel
  obtain ⟨s, hs, hthree⟩ := Option.map_eq_some_iff.1 hcount
  exact ⟨s, hs, getClosestPoint_of_dense id (NthElement.ofSort _) ⟨1, 1, .nearby26, 100⟩ fourCells s hs ⟨0, 0, 0⟩ 2 5 1
    (by decide) (by norm_num) rfl (by norm_num) le_rfl (by norm_num) (by rw [hthree]; decide)⟩

end Dense

end Ivox
end LfSentry
