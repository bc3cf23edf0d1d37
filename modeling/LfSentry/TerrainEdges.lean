import LfSentry.Sweeps
import LfSentry.TerrainAnalysis
/-!
# TerrainEdges — where the node blocks for want of data

`planarVoxelEdge` counts up, in place, how deep a cell lies inside what has too few heights.  It is the truncated distance of
`Sweeps` from the cells that have enough, in king's moves; so the cells that get blocks are those further than
`noDataBlockSkipNum` moves from all of them (`mem_blockedCells`).
-/
namespace LfSentry
namespace TerrainAnalysis

open Terrain

/-- The cells around a cell, itself included. -/
def around (width i : Nat) : List Nat := Grid.square width 1 (i / width : Nat) (i % width : Nat)

variable {width i m : Nat}

theorem mem_around {j : Nat} : j ∈ around width i ↔ j < width * width ∧ Grid.cheb width i j ≤ 1 := Grid.mem_square_cell

/-- **Being within so many steps of a source is being within so many king's moves of it.** -/
theorem within_iff {source : Nat → Prop} (hi : i < width * width) :
    Sweeps.Within (around width) (fun j => j < width * width ∧ source j) m i ↔
      ∃ j < width * width, source j ∧ Grid.cheb width i j ≤ m := by
  induction m generalizing i with
  | zero =>
    constructor
    · exact fun h => ⟨i, hi, h.2, (Grid.cheb_self width i).le⟩
    · rintro ⟨j, hj, hs, hc⟩
      obtain rfl := Grid.eq_of_cheb_eq_zero (Nat.le_zero.1 hc)
      exact ⟨hi, hs⟩
  | succ m ih =>
    constructor
    · rintro (h | ⟨k, hk, h⟩)
      · obtain ⟨j, hj, hs, hc⟩ := (ih hi).1 h
        exact ⟨j, hj, hs, hc.trans (Nat.le_succ m)⟩
      · obtain ⟨hkw, hik⟩ := mem_around.1 hk
        obtain ⟨j, hj, hs, hc⟩ := (ih hkw).1 h
        have := Grid.cheb_triangle width i j k
        exact ⟨j, hj, hs, by omega⟩
    · rintro ⟨j, hj, hs, hc⟩
      obtain ⟨k, hk, hik, hkj⟩ := Grid.exists_step hi hj hc
      exact Or.inr ⟨k, mem_around.2 ⟨hk, hik⟩, (ih hk).2 ⟨j, hj, hs, hkj⟩⟩

/-! ## The loops count in place as the sweeps do -/

variable {K : Type}

/-- The values of the loop are never negative. -/
def counts (v : Nat → Nat) (j : Nat) : Int := v j

theorem counts_update {v : Nat → Nat} {x : Nat} :
    Function.update (counts v) i (x : Int) = counts (Function.update v i x) := by
  funext j
  by_cases h : j = i <;> simp [counts, h]

theorem countEdge_counts (v : Nat → Nat) : countEdge width (counts v) i = counts (Sweeps.visit (around width) v i) := by
  have hstay : ((around width i).any fun j => counts v j < counts v i) = true ↔ ¬ ∀ j ∈ around width i, ¬ v j < v i := by
    simp [counts]
  have hpos : counts v i ≥ 1 ↔ 1 ≤ v i := by simp [counts]
  unfold countEdge Sweeps.visit
  dsimp only
  split_ifs with h hedge hup hup hup
  · exact absurd hup.2 (hstay.1 hedge)
  · rfl
  · exact counts_update
  · exact absurd ⟨hpos.1 h, not_not.1 fun hno => hedge (hstay.2 hno)⟩ hup
  · exact absurd (hpos.2 hup.1) h
  · rfl

theorem sweep_counts (l : List Nat) (v : Nat → Nat) :
    l.foldl (countEdge width) (counts v) = counts (Sweeps.sweep (around width) l v) := by
  induction l generalizing v with
  | nil => rfl
  | cons i l ih =>
    rw [List.foldl_cons, countEdge_counts, ih]
    rfl

theorem iterate_counts (l : List Nat) (k : Nat) (v : Nat → Nat) :
    (fun edge => l.foldl (countEdge width) edge)^[k] (counts v) = counts ((Sweeps.sweep (around width) l)^[k] v) := by
  induction k generalizing v with
  | zero => rfl
  | succ k ih => rw [Function.iterate_succ_apply, Function.iterate_succ_apply, sweep_counts, ih]

/-- What the first loop marks. -/
theorem mark_counts (poor : Nat → Prop) [DecidablePred poor] (l : List Nat) (v : Nat → Nat) :
    l.foldl (fun edge i => if poor i then Function.update edge i 1 else edge) (counts v) =
      counts fun j => if j ∈ l ∧ poor j then 1 else v j := by
  induction l generalizing v with
  | nil => simp
  | cons i l ih =>
    have hstep : (if poor i then Function.update (counts v) i 1 else counts v) =
        counts fun j => if j = i ∧ poor j then 1 else v j := by
      by_cases h : poor i
      · rw [if_pos h]
        funext j
        by_cases hj : j = i <;> simp [counts, hj, h]
      · rw [if_neg h]
        funext j
        by_cases hj : j = i <;> simp [counts, hj, h]
    rw [List.foldl_cons, hstep, ih]
    funext j
    simp only [counts, List.mem_cons]
    grind

variable (p : Params K)

/-- A cell that has heights enough. -/
def Rich (elev : Nat → List K) (i : Nat) : Prop := p.minBlockPointNum ≤ ((elev i).length : Int)

/-- **`planarVoxelEdge` is a truncated distance.** -/
theorem planarVoxelEdge_readsTo (elev : Nat → List K) (hi : i < width * width) :
    ∃ x : Nat, planarVoxelEdge p width elev i = x ∧
      Sweeps.ReadsTo (around width) (fun j => j < width * width ∧ Rich p elev j) p.noDataBlockSkipNum.toNat i x := by
  set cells := List.range (width * width) with hcells
  set v : Nat → Nat := fun j => if j ∈ cells ∧ ((elev j).length : Int) < p.minBlockPointNum then 1 else 0 with hv
  have hmark : cells.foldl (fun edge i => if ((elev i).length : Int) < p.minBlockPointNum then Function.update edge i 1
      else edge) (fun _ => 0) = counts v := mark_counts (fun i => ((elev i).length : Int) < p.minBlockPointNum) cells _
  refine ⟨(Sweeps.sweep (around width) cells)^[p.noDataBlockSkipNum.toNat] v i, ?_,
    Sweeps.after_sweeps (fun j _ k hk => ?_) List.nodup_range (fun j hj => ?_) _ i (List.mem_range.2 hi)⟩
  · rw [planarVoxelEdge, hmark, iterate_counts]
    rfl
  · exact List.mem_range.2 (mem_around.1 hk).1
  · have hj' := List.mem_range.1 hj
    by_cases hpoor : ((elev j).length : Int) < p.minBlockPointNum
    · simp [hv, hcells, hj', Rich, not_le.2 hpoor, hpoor]
    · simp [hv, hj', hpoor, Rich, not_lt.1 hpoor]

/-- **A cell gets blocks exactly when it is further than `noDataBlockSkipNum` king's moves from every cell that has heights
enough.** -/
theorem mem_blockedCells (elev : Nat → List K) : i ∈ blockedCells p width elev ↔
    i < width * width ∧ ∀ j < width * width, Rich p elev j → p.noDataBlockSkipNum < Grid.cheb width i j := by
  rw [blockedCells, List.mem_filter, List.mem_range]
  refine and_congr_right fun hi => ?_
  obtain ⟨x, hx, hreads⟩ := planarVoxelEdge_readsTo p elev hi
  rw [decide_eq_true_iff, hx]
  rcases lt_or_ge p.noDataBlockSkipNum 0 with hneg | hpos
  · -- with a negative number every cell is blocked
    exact ⟨fun _ j _ _ => by omega, fun _ => by omega⟩
  · have hk := hreads.iff _ le_rfl
    rw [within_iff hi] at hk
    constructor
    · intro hlt j hj hrich
      by_contra hnear
      have := hk.2 ⟨j, hj, hrich, by omega⟩
      omega
    · intro hfar
      by_contra hle
      obtain ⟨j, hj, hrich, hc⟩ := hk.1 (by omega)
      have := hfar j hj hrich
      omega

end TerrainAnalysis
end LfSentry
