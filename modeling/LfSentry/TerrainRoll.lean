import LfSentry.Terrain
import Mathlib.Algebra.Order.Floor.Ring
import Mathlib.Algebra.Order.Field.Basic
import Mathlib.Tactic.Linarith
/-!
# TerrainRoll — the roll over moves the square and nothing else

The four loops of the roll over shuffle pointers along rows and columns.  They end with the vehicle within one cell of the
middle, every place keeps a cloud of its own, and what lies where is what lay there in the world before: only what the
square leaves behind is lost, and the cells that it enters are empty (`rollOver_moves`).
-/
namespace LfSentry
namespace Terrain

variable {K : Type} {w : Nat}

/-! ## One line of pointers -/

namespace Voxels

variable {v : Voxels K} {line : Nat → Nat}

/-- The places of a line are apart. -/
def Apart (w : Nat) (line : Nat → Nat) : Prop := ∀ k < w, ∀ l < w, line k = line l → k = l

@[simp] theorem setPtr_clouds (ind ptr : Nat) : (v.setPtr ind ptr).clouds = v.clouds := rfl

/-- The loop that moves the pointers of a line up. -/
theorem moveUp (n : Nat) (hn : n < w) (hline : Apart w line) :
    let v' := (List.range n).reverse.foldl (fun v k => v.setPtr (line (k + 1)) (v.terrainVoxelCloud (line k))) v
    (∀ k < n, v'.terrainVoxelCloud (line (k + 1)) = v.terrainVoxelCloud (line k)) ∧
      (∀ j, (∀ k < n, j ≠ line (k + 1)) → v'.terrainVoxelCloud j = v.terrainVoxelCloud j) ∧
      v' = { v with terrainVoxelCloud := v'.terrainVoxelCloud } := by
  induction n generalizing v with
  | zero => exact ⟨by simp, fun _ _ => rfl, rfl⟩
  | succ n ih =>
    rw [List.range_succ, List.reverse_append, List.reverse_singleton, List.singleton_append, List.foldl_cons]
    obtain ⟨hup, hother, hrest⟩ := ih (v := v.setPtr (line (n + 1)) (v.terrainVoxelCloud (line n))) (by omega)
    refine ⟨fun k hk => ?_, fun j hj => ?_, hrest⟩
    · rcases Nat.lt_or_ge k n with hlt | hge
      · rw [hup k hlt]
        exact Function.update_of_ne (fun h => by have := hline k (by omega) (n + 1) hn h; omega) _ _
      · obtain rfl : k = n := by omega
        rw [hother _ fun l hl h => by have := hline (k + 1) hn (l + 1) (by omega) h; omega]
        exact Function.update_self _ _ _
    · rw [hother j fun k hk => hj k (by omega)]
      exact Function.update_of_ne (hj n (by omega)) _ _

/-- The other way round is the same along the reversed line. -/
theorem frontToLast_eq (hw : 0 < w) (line : Nat → Nat) :
    v.frontToLast w line = v.lastToFront w fun k => line (w - 1 - k) := by
  have hrev : (List.range (w - 1)).reverse = (List.range (w - 1)).map (w - 1 - 1 - ·) := by
    rw [List.range_eq_range', List.reverse_range', Nat.zero_add, List.range_eq_range']
  have hloop : ∀ u : Voxels K,
      (List.range (w - 1)).foldl (fun v k => v.setPtr (line k) (v.terrainVoxelCloud (line (k + 1)))) u =
        (List.range (w - 1)).reverse.foldl
          (fun v k => v.setPtr (line (w - 1 - (k + 1))) (v.terrainVoxelCloud (line (w - 1 - k)))) u := by
    intro u
    rw [hrev, List.foldl_map]
    refine List.foldl_ext _ _ u fun v k hk => ?_
    rw [List.mem_range] at hk
    rw [show w - 1 - (w - 1 - 1 - k + 1) = k by omega, show w - 1 - (w - 1 - 1 - k) = k + 1 by omega]
  simp only [frontToLast, lastToFront, hloop, Nat.sub_zero, Nat.sub_self]

/-- The place that a cloud of a line comes from. -/
def before (w k : Nat) : Nat := if k = 0 then w - 1 else k - 1

variable (line) in
/-- **One line after its last cloud came to the front.** -/
theorem lastToFront_spec (hw : 0 < w) (hline : Apart w line) :
    (∀ k < w, (v.lastToFront w line).terrainVoxelCloud (line k) = v.terrainVoxelCloud (line (before w k))) ∧
      (∀ j, (∀ k < w, j ≠ line k) → (v.lastToFront w line).terrainVoxelCloud j = v.terrainVoxelCloud j) ∧
      v.lastToFront w line = { v with
        terrainVoxelCloud := (v.lastToFront w line).terrainVoxelCloud
        clouds := Function.update v.clouds (v.terrainVoxelCloud (line (w - 1))) [] } := by
  obtain ⟨hup, hother, hrest⟩ := moveUp (v := v) (w - 1) (by omega) hline
  unfold lastToFront
  generalize hv' : (List.range (w - 1)).reverse.foldl
    (fun v k => v.setPtr (line (k + 1)) (v.terrainVoxelCloud (line k))) v = v' at hup hother hrest
  simp only [clear, setPtr]
  refine ⟨fun k hk => ?_, fun j hj => ?_, ?_⟩
  · by_cases h0 : k = 0
    · rw [h0, Function.update_self, before, if_pos rfl]
    · have hne : line k ≠ line 0 := fun h => h0 (hline k hk 0 hw h)
      rw [Function.update_of_ne hne, before, if_neg h0]
      have := hup (k - 1) (by omega)
      rwa [show k - 1 + 1 = k by omega] at this
  · rw [Function.update_of_ne (hj 0 hw)]
    exact hother j fun k hk => hj (k + 1) (by omega)
  · rw [Function.update_self, hrest]

/-! ## All lines of the square -/

/-- Lines that make up the square. -/
structure Lines (w : Nat) (line : Nat → Nat → Nat) : Prop where
  apart : ∀ i < w, ∀ k < w, ∀ j < w, ∀ l < w, line i k = line j l → i = j ∧ k = l
  exists_line : ∀ a < w * w, ∃ i < w, ∃ k < w, line i k = a

theorem columns (w : Nat) : Lines w fun i k => w * k + i where
  apart i hi k hk j hj l hl h := by
    have h1 := congrArg (· % w) h
    have h2 := congrArg (· / w) h
    simp only [Grid.index_mod hi, Grid.index_mod hj] at h1
    simp only [Grid.index_div hi, Grid.index_div hj] at h2
    exact ⟨h1, h2⟩
  exists_line a ha := ⟨a % w, Grid.mod_lt ha, a / w, Grid.div_lt ha, Nat.div_add_mod a w⟩

theorem rows (w : Nat) : Lines w fun i k => w * i + k where
  apart i hi k hk j hj l hl h := by
    have h1 := congrArg (· % w) h
    have h2 := congrArg (· / w) h
    simp only [Grid.index_mod hk, Grid.index_mod hl] at h1
    simp only [Grid.index_div hk, Grid.index_div hl] at h2
    exact ⟨h2, h1⟩
  exists_line a ha := ⟨a / w, Grid.div_lt ha, a % w, Grid.mod_lt ha, Nat.div_add_mod a w⟩

theorem Lines.reverse {line : Nat → Nat → Nat} (h : Lines w line) : Lines w fun i k => line i (w - 1 - k) where
  apart i hi k hk j hj l hl heq := by
    have := h.apart i hi (w - 1 - k) (by omega) j hj (w - 1 - l) (by omega) heq
    omega
  exists_line a ha := by
    obtain ⟨i, hi, k, hk, rfl⟩ := h.exists_line a ha
    exact ⟨i, hi, w - 1 - k, by omega, by rw [show w - 1 - (w - 1 - k) = k by omega]⟩

/-- **The first `n` lines, one after the other.** -/
theorem lines_spec {line : Nat → Nat → Nat} (h : Lines w line) (n : Nat) (hn : n ≤ w) :
    let v' := (List.range n).foldl (fun v i => v.lastToFront w (line i)) v
    (∀ i < w, ∀ k < w, v'.terrainVoxelCloud (line i k) =
        if i < n then v.terrainVoxelCloud (line i (before w k)) else v.terrainVoxelCloud (line i k)) ∧
      (∀ ptr, v'.clouds ptr = if ∃ i < n, ptr = v.terrainVoxelCloud (line i (w - 1)) then [] else v.clouds ptr) ∧
      v' = { v with terrainVoxelCloud := v'.terrainVoxelCloud, clouds := v'.clouds } := by
  induction n with
  | zero => exact ⟨fun i _ k _ => by simp, fun ptr => by simp, rfl⟩
  | succ n ih =>
    obtain ⟨hptr, hclouds, hrest⟩ := ih (by omega)
    rw [List.range_succ, List.foldl_append, List.foldl_cons, List.foldl_nil]
    generalize (List.range n).foldl (fun v i => v.lastToFront w (line i)) v = u at hptr hclouds hrest ⊢
    have hn' : n < w := hn
    obtain ⟨hmove, hother, hnew⟩ := lastToFront_spec (v := u) (w := w) (line n) (by omega)
      fun k hk l hl heq => (h.apart n hn' k hk n hn' l hl heq).2
    have hb : ∀ k < w, before w k < w := fun k hk => by unfold before; split <;> omega
    refine ⟨fun i hi k hk => ?_, fun ptr => ?_, ?_⟩
    · rcases Nat.lt_trichotomy i n with hlt | rfl | hgt
      · rw [hother _ fun l hl heq => by have := (h.apart i hi k hk n hn' l hl heq).1; omega, hptr i hi k hk,
          if_pos hlt, if_pos (by omega)]
      · rw [hmove k hk, hptr i hi _ (hb k hk), if_neg (by omega), if_pos (by omega)]
      · rw [hother _ fun l hl heq => by have := (h.apart i hi k hk n hn' l hl heq).1; omega, hptr i hi k hk,
          if_neg (by omega), if_neg (by omega)]
    · have hlast := hptr n hn' (w - 1) (by omega)
      rw [if_neg (by omega)] at hlast
      rw [hnew]
      simp only [hlast]
      by_cases heq : ptr = v.terrainVoxelCloud (line n (w - 1))
      · rw [heq, Function.update_self, if_pos ⟨n, by omega, rfl⟩]
      · rw [Function.update_of_ne heq, hclouds]
        refine if_congr ⟨?_, ?_⟩ rfl rfl
        · rintro ⟨i, hi, hp⟩
          exact ⟨i, by omega, hp⟩
        · rintro ⟨i, hi, hp⟩
          refine ⟨i, ?_, hp⟩
          rcases Nat.lt_or_ge i n with hlt | hge
          · exact hlt
          · exact absurd (show i = n by omega ▸ hp) (by omega)
    · rw [hnew, hrest]

/-- Every place of the array has a cloud of its own. -/
def Distinct (w : Nat) (v : Voxels K) : Prop :=
  ∀ a < w * w, ∀ b < w * w, v.terrainVoxelCloud a = v.terrainVoxelCloud b → a = b

/-- What lies in a cell that may be outside the square. -/
def world (v : Voxels K) (w : Nat) (x y : Int) : List (PointXYZI K) :=
  if 0 ≤ x ∧ x < w ∧ 0 ≤ y ∧ y < w then v.content w x.toNat y.toNat else []

theorem world_of_mem {x y : Nat} (hx : x < w) (hy : y < w) : v.world w x y = v.content w x y := by
  rw [world, if_pos (by omega), Int.toNat_natCast, Int.toNat_natCast]

/-- The square has moved by so many cells, over what stays where it is. -/
structure Moves (w : Nat) (v v' : Voxels K) (a b : Int) : Prop where
  shiftX : v'.terrainVoxelShiftX = v.terrainVoxelShiftX + a
  shiftY : v'.terrainVoxelShiftY = v.terrainVoxelShiftY + b
  distinct : v.Distinct w → v'.Distinct w
  content : v.Distinct w → ∀ x < w, ∀ y < w, v'.content w x y = v.world w (x + a) (y + b)

theorem Moves.refl (w : Nat) (v : Voxels K) : Moves w v v 0 0 where
  shiftX := (add_zero _).symm
  shiftY := (add_zero _).symm
  distinct h := h
  content _ x hx y hy := by rw [add_zero, add_zero, world_of_mem hx hy]

/-- **Moves in one direction add up.** -/
theorem Moves.trans {v₁ v₂ : Voxels K} {a a' b b' : Int} (h : Moves w v v₁ a b) (h' : Moves w v₁ v₂ a' b')
    (ha : 0 ≤ a * a') (hb : 0 ≤ b * b') : Moves w v v₂ (a + a') (b + b') where
  shiftX := by rw [h'.shiftX, h.shiftX, add_assoc]
  shiftY := by rw [h'.shiftY, h.shiftY, add_assoc]
  distinct hd := h'.distinct (h.distinct hd)
  content hd x hx y hy := by
    -- a cell that is outside after the second move is outside after both
    have hsame : ∀ c c' : Int, 0 ≤ c * c' → ∀ k < w, (0 ≤ (k : Int) + (c + c') ∧ (k : Int) + (c + c') < w) →
        0 ≤ (k : Int) + c' ∧ (k : Int) + c' < w := by
      intro c c' hcc k hk hin
      rcases lt_trichotomy c' 0 with hneg | rfl | hpos
      · have : c ≤ 0 := by nlinarith
        omega
      · omega
      · have : 0 ≤ c := by nlinarith
        omega
    rw [h'.content (h.distinct hd) x hx y hy]
    by_cases hin : 0 ≤ (x : Int) + a' ∧ (x : Int) + a' < w ∧ 0 ≤ (y : Int) + b' ∧ (y : Int) + b' < w
    · rw [world, if_pos hin, h.content hd _ (by omega) _ (by omega), Int.toNat_of_nonneg hin.1,
        Int.toNat_of_nonneg hin.2.2.1, add_assoc, add_assoc, add_comm a', add_comm b']
    · rw [world, if_neg hin, world, if_neg]
      rintro ⟨h1, h2, h3, h4⟩
      exact hin ⟨(hsame a a' ha x hx ⟨h1, h2⟩).1, (hsame a a' ha x hx ⟨h1, h2⟩).2,
        (hsame b b' hb y hy ⟨h3, h4⟩).1, (hsame b b' hb y hy ⟨h3, h4⟩).2⟩

/-- **All lines rolled**: each keeps its clouds, the last one in front and empty. -/
theorem lines_roll {line : Nat → Nat → Nat} (h : Lines w line) (hd : v.Distinct w) (hlt : ∀ i < w, ∀ k < w, line i k < w * w) :
    let v' := (List.range w).foldl (fun v i => v.lastToFront w (line i)) v
    v'.Distinct w ∧ ∀ i < w, ∀ k < w, v'.clouds (v'.terrainVoxelCloud (line i k)) =
      if k = 0 then [] else v.clouds (v.terrainVoxelCloud (line i (k - 1))) := by
  obtain ⟨hptr, hclouds, -⟩ := lines_spec (v := v) h w le_rfl
  have hb : ∀ k < w, before w k < w := fun k hk => by unfold before; split <;> omega
  refine ⟨fun a ha b hb' hab => ?_, fun i hi k hk => ?_⟩
  · obtain ⟨i, hi, k, hk, rfl⟩ := h.exists_line a ha
    obtain ⟨j, hj, l, hl, rfl⟩ := h.exists_line b hb'
    rw [hptr i hi k hk, hptr j hj l hl, if_pos hi, if_pos hj] at hab
    obtain ⟨rfl, hbe⟩ := h.apart i hi _ (hb k hk) j hj _ (hb l hl)
      (hd _ (hlt i hi _ (hb k hk)) _ (hlt j hj _ (hb l hl)) hab)
    have hkl : k = l := by
      unfold before at hbe
      split_ifs at hbe <;> omega
    rw [hkl]
  · rw [hclouds, hptr i hi k hk, if_pos hi]
    by_cases h0 : k = 0
    · rw [if_pos h0, if_pos ⟨i, hi, by rw [before, if_pos h0]⟩]
    · rw [if_neg h0, if_neg, before, if_neg h0]
      rintro ⟨j, hj, heq⟩
      rw [before, if_neg h0] at heq
      have := (h.apart i hi (k - 1) (by omega) j hj (w - 1) (by omega)
        (hd _ (hlt i hi _ (by omega)) _ (hlt j hj _ (by omega)) heq)).2
      omega

theorem lines_rest {line : Nat → Nat → Nat} (h : Lines w line) :
    let v' := (List.range w).foldl (fun v i => v.lastToFront w (line i)) v
    v' = { v with terrainVoxelCloud := v'.terrainVoxelCloud, clouds := v'.clouds } :=
  (lines_spec (v := v) h w le_rfl).2.2

theorem columns_lt : ∀ i < w, ∀ k < w, w * k + i < w * w := fun _ hi _ hk => Grid.index_lt hk hi

theorem rows_lt : ∀ i < w, ∀ k < w, w * i + k < w * w := fun _ hi _ hk => Grid.index_lt hi hk

/-! ## The four rounds -/

theorem moves_rollXDown (w : Nat) (v : Voxels K) : Moves w v (v.rollXDown w) (-1) 0 := by
  have hrest := lines_rest (v := v) (columns w)
  have hroll := fun hd => lines_roll (v := v) (columns w) hd columns_lt
  unfold rollXDown
  generalize (List.range w).foldl (fun v indY => v.lastToFront w fun indX => w * indX + indY) v = u at hrest hroll ⊢
  refine ⟨by rw [hrest]; rfl, by rw [hrest, add_zero], fun hd => (hroll hd).1, fun hd x hx y hy => ?_⟩
  refine ((hroll hd).2 y hy x hx).trans ?_
  by_cases h0 : x = 0
  · rw [if_pos h0, world, if_neg (by omega)]
  · rw [if_neg h0, show (x : Int) + -1 = (x - 1 : Nat) by omega, add_zero, world_of_mem (by omega) hy]
    rfl

theorem moves_rollYDown (w : Nat) (v : Voxels K) : Moves w v (v.rollYDown w) 0 (-1) := by
  have hrest := lines_rest (v := v) (rows w)
  have hroll := fun hd => lines_roll (v := v) (rows w) hd rows_lt
  unfold rollYDown
  generalize (List.range w).foldl (fun v indX => v.lastToFront w fun indY => w * indX + indY) v = u at hrest hroll ⊢
  refine ⟨by rw [hrest, add_zero], by rw [hrest]; rfl, fun hd => (hroll hd).1, fun hd x hx y hy => ?_⟩
  refine ((hroll hd).2 x hx y hy).trans ?_
  by_cases h0 : y = 0
  · rw [if_pos h0, world, if_neg (by omega)]
  · rw [if_neg h0, show (y : Int) + -1 = (y - 1 : Nat) by omega, add_zero, world_of_mem hx (by omega)]
    rfl

/-- The lines rolled the other way round. -/
theorem foldl_frontToLast (line : Nat → Nat → Nat) :
    (List.range w).foldl (fun v i => v.frontToLast w (line i)) v =
      (List.range w).foldl (fun v i => v.lastToFront w fun k => line i (w - 1 - k)) v :=
  List.foldl_ext _ _ v fun u i hi => frontToLast_eq (by rw [List.mem_range] at hi; omega) (line i)

theorem moves_rollXUp (w : Nat) (v : Voxels K) : Moves w v (v.rollXUp w) 1 0 := by
  have hrest := lines_rest (v := v) (columns w).reverse
  have hroll := fun hd => lines_roll (v := v) (columns w).reverse hd fun i hi k hk => columns_lt i hi _ (by omega)
  unfold rollXUp
  rw [foldl_frontToLast fun indY indX => w * indX + indY]
  generalize (List.range w).foldl (fun v i => v.lastToFront w fun k => w * (w - 1 - k) + i) v = u at hrest hroll ⊢
  refine ⟨by rw [hrest], by rw [hrest, add_zero], fun hd => (hroll hd).1, fun hd x hx y hy => ?_⟩
  have hx' := (hroll hd).2 y hy (w - 1 - x) (by omega)
  rw [show w - 1 - (w - 1 - x) = x by omega] at hx'
  refine hx'.trans ?_
  by_cases h0 : w - 1 - x = 0
  · rw [if_pos h0, world, if_neg (by omega)]
  · rw [if_neg h0, show (x : Int) + 1 = (x + 1 : Nat) by omega, add_zero, world_of_mem (by omega) hy,
      show w - 1 - (w - 1 - x - 1) = x + 1 by omega]
    rfl

theorem moves_rollYUp (w : Nat) (v : Voxels K) : Moves w v (v.rollYUp w) 0 1 := by
  have hrest := lines_rest (v := v) (rows w).reverse
  have hroll := fun hd => lines_roll (v := v) (rows w).reverse hd fun i hi k hk => rows_lt i hi _ (by omega)
  unfold rollYUp
  rw [foldl_frontToLast fun indX indY => w * indX + indY]
  generalize (List.range w).foldl (fun v i => v.lastToFront w fun k => w * i + (w - 1 - k)) v = u at hrest hroll ⊢
  refine ⟨by rw [hrest, add_zero], by rw [hrest], fun hd => (hroll hd).1, fun hd x hx y hy => ?_⟩
  have hy' := (hroll hd).2 x hx (w - 1 - y) (by omega)
  rw [show w - 1 - (w - 1 - y) = y by omega] at hy'
  refine hy'.trans ?_
  by_cases h0 : w - 1 - y = 0
  · rw [if_pos h0, world, if_neg (by omega)]
  · rw [if_neg h0, show (y : Int) + 1 = (y + 1 : Nat) by omega, add_zero, world_of_mem hx (by omega),
      show w - 1 - (w - 1 - y - 1) = y + 1 by omega]
    rfl

end Voxels

/-! ## The loops -/

section Loops

variable [Field K] [LinearOrder K] [IsStrictOrderedRing K] [FloorRing K] {σ : Type}

/-- **Two loops that bring a counter of steps of size `s` to a coordinate, one down and one up.** -/
theorem follow {s c : K} (hs : 0 < s) (shift : σ → Int) (down up : σ → σ) (moved : σ → σ → Int → Prop)
    (hrefl : ∀ v, moved v v 0) (hdown : ∀ v v' a, moved v v' a → a ≤ 0 → moved v (down v') (a - 1))
    (hup : ∀ v v' a, moved v v' a → 0 ≤ a → moved v (up v') (a + 1)) (hshiftDown : ∀ v, shift (down v) = shift v - 1)
    (hshiftUp : ∀ v, shift (up v) = shift v + 1) (v : σ) :
    ∃ v₁ v₂ a, whileLoop (fun v => c - s * shift v < -s) down (⌈|c - s * shift v| / s⌉).toNat v = some v₁ ∧
      whileLoop (fun v => c - s * shift v > s) up (⌈|c - s * shift v₁| / s⌉).toNat v₁ = some v₂ ∧
      moved v v₂ a ∧ |c - s * shift v₂| ≤ s := by
  have hcancel : ∀ x : K, x / s * s = x := fun x => div_mul_cancel₀ x hs.ne'
  -- a round brings the counter closer by one
  have hvariant : ∀ x : K, s < x → (⌈(x - s) / s⌉).toNat < (⌈x / s⌉).toNat := by
    intro x hx
    have hone : (x - s) / s = x / s - 1 := by rw [sub_div, div_self hs.ne']
    have hpos : 0 < ⌈x / s⌉ := Int.ceil_pos.2 (div_pos (hs.trans hx) hs)
    rw [hone, Int.ceil_sub_one]
    omega
  have hfuel : ∀ x y : K, x ≤ |y| → (⌈x / s⌉).toNat ≤ (⌈|y| / s⌉).toNat := fun x y hxy =>
    Int.toNat_le_toNat (Int.ceil_le_ceil (div_le_div_of_nonneg_right hxy hs.le))
  obtain ⟨v₁, ⟨a, ha, hmoved, hnear⟩, hstop, hends⟩ := @exists_of_variant σ (fun v => c - s * shift v < -s) _
    down v (fun v' => ∃ a ≤ 0, moved v v' a ∧ (a = 0 ∨ c - s * shift v' < 0))
    (fun v' => (⌈(s * shift v' - c) / s⌉).toNat)
    (fun v' ⟨a, ha, hm, _⟩ hc => ⟨⟨a - 1, by omega, hdown v v' a hm ha, Or.inr (by
        rw [hshiftDown]
        push_cast
        linarith)⟩, by
      have := hvariant (s * shift v' - c) (by linarith)
      rw [hshiftDown]
      push_cast
      convert this using 4
      ring⟩) ⟨0, le_rfl, hrefl v, Or.inl rfl⟩
  have hfirst := hends _ (hfuel _ (c - s * shift v) (by rw [← neg_sub]; exact neg_le_abs _))
  rw [not_lt] at hstop
  rcases hnear with rfl | hneg
  · -- the first loop did nothing that the second one could undo
    obtain ⟨v₂, ⟨b, hb, hmoved₂, hnear₂⟩, hstop₂, hends₂⟩ := @exists_of_variant σ (fun v => c - s * shift v > s) _
      up v₁ (fun v' => ∃ b, 0 ≤ b ∧ moved v v' b ∧ -s ≤ c - s * shift v')
      (fun v' => (⌈(c - s * shift v') / s⌉).toNat)
      (fun v' ⟨b, hb, hm, _⟩ hc => ⟨⟨b + 1, by omega, hup v v' b hm hb, by
          rw [hshiftUp]
          push_cast
          linarith [show c - s * shift v' > s from hc]⟩, by
        have := hvariant (c - s * shift v') hc
        rw [hshiftUp]
        push_cast
        convert this using 4
        ring⟩) ⟨0, le_rfl, hmoved, hstop⟩
    refine ⟨v₁, v₂, b, hfirst, hends₂ _ (hfuel _ _ (le_abs_self _)), hmoved₂, abs_le.2 ⟨hnear₂, not_lt.1 hstop₂⟩⟩
  · have hnot : ¬ c - s * shift v₁ > s := by
      rw [not_lt]
      linarith
    exact ⟨v₁, v₁, a, hfirst, @whileLoop_of_not σ (fun v => c - s * shift v > s) _ up v₁ hnot _, hmoved, abs_le.2 ⟨hstop, not_lt.1 hnot⟩⟩

open Voxels (Moves)

/-- What the four loops of the roll over do. -/
theorem rollOver_eq {L : Layout K} (hs : 0 < L.terrainVoxelSize) (vehicle : Vehicle K) (v : Voxels K) :
    ∃ v' a b, rollOver L vehicle v = some v' ∧ Moves L.terrainVoxelWidth v v' a b ∧
      |vehicle.x - L.terrainVoxelSize * v'.terrainVoxelShiftX| ≤ L.terrainVoxelSize ∧
      |vehicle.y - L.terrainVoxelSize * v'.terrainVoxelShiftY| ≤ L.terrainVoxelSize := by
  obtain ⟨v₁, v₂, a, h₁, h₂, hx, hxnear⟩ := follow (c := vehicle.x) hs Voxels.terrainVoxelShiftX
    (Voxels.rollXDown · L.terrainVoxelWidth) (Voxels.rollXUp · L.terrainVoxelWidth) (fun v v' a => Moves L.terrainVoxelWidth v v' a 0) (Moves.refl _)
    (fun _ v' _ h ha => h.trans (Voxels.moves_rollXDown _ v') (by omega) le_rfl)
    (fun _ v' _ h ha => h.trans (Voxels.moves_rollXUp _ v') (by omega) le_rfl)
    (fun v => (Voxels.moves_rollXDown _ v).shiftX) (fun v => (Voxels.moves_rollXUp _ v).shiftX) v
  obtain ⟨v₃, v₄, b, h₃, h₄, hy, hynear⟩ := follow (c := vehicle.y) hs Voxels.terrainVoxelShiftY
    (Voxels.rollYDown · L.terrainVoxelWidth) (Voxels.rollYUp · L.terrainVoxelWidth) (fun v v' b => Moves L.terrainVoxelWidth v v' 0 b) (Moves.refl _)
    (fun _ v' _ h hb => h.trans (Voxels.moves_rollYDown _ v') le_rfl (by omega))
    (fun _ v' _ h hb => h.trans (Voxels.moves_rollYUp _ v') le_rfl (by omega))
    (fun v => (Voxels.moves_rollYDown _ v).shiftY) (fun v => (Voxels.moves_rollYUp _ v).shiftY) v₂
  refine ⟨v₄, a, b, ?_, ?_, ?_, hynear⟩
  · simp only [rollOver, rounds, h₁, h₂, h₃, h₄, Option.bind_eq_bind, Option.bind_some]
  · simpa using hx.trans hy (by simp) (by simp)
  · rwa [hy.shiftX, add_zero]

omit [LinearOrder K] [IsStrictOrderedRing K] [FloorRing K] in
theorem distinct_init (w : Nat) : (Voxels.init : Voxels K).Distinct w := fun _ _ _ _ h => h

/-- **The roll over ends with the vehicle within one cell of the middle.  Every place keeps a cloud of its own, what lies
in a cell of the world that was in the square and still is stays there, and a cell that was not is empty.** -/
theorem rollOver_moves {L : Layout K} (hs : 0 < L.terrainVoxelSize) (vehicle : Vehicle K) (v : Voxels K)
    (hd : v.Distinct L.terrainVoxelWidth) :
    ∃ v', rollOver L vehicle v = some v' ∧ v'.Distinct L.terrainVoxelWidth ∧
      |vehicle.x - L.terrainVoxelSize * v'.terrainVoxelShiftX| ≤ L.terrainVoxelSize ∧
      |vehicle.y - L.terrainVoxelSize * v'.terrainVoxelShiftY| ≤ L.terrainVoxelSize ∧
      ∀ x < L.terrainVoxelWidth, ∀ y < L.terrainVoxelWidth, v'.content L.terrainVoxelWidth x y =
        v.world L.terrainVoxelWidth (x + (v'.terrainVoxelShiftX - v.terrainVoxelShiftX))
          (y + (v'.terrainVoxelShiftY - v.terrainVoxelShiftY)) := by
  obtain ⟨v', a, b, hroll, hmoves, hx, hy⟩ := rollOver_eq hs vehicle v
  refine ⟨v', hroll, hmoves.distinct hd, hx, hy, fun x hxw y hyw => ?_⟩
  rw [hmoves.content hd x hxw y hyw, hmoves.shiftX, hmoves.shiftY, add_sub_cancel_left, add_sub_cancel_left]

end Loops

/-- Nine cells with a point each, that carries the number of its cell. -/
def ninePoints : Voxels Rat := { Voxels.init with clouds := fun i => [⟨i, 0, 0, 0⟩] }

/-- The vehicle has gone two cells on and two to the side: the square follows by one each, and four clouds stay. -/
theorem rollOver_moves_ninePoints :
    ∃ v', rollOver (⟨1, 3, 1, 1, 3⟩ : Layout Rat) ⟨2, -2, 0, 0, 0, 0⟩ ninePoints = some v' ∧ v'.Distinct 3 ∧
      |(2 : Rat) - 1 * v'.terrainVoxelShiftX| ≤ 1 ∧ |(-2 : Rat) - 1 * v'.terrainVoxelShiftY| ≤ 1 ∧
      ∀ x < 3, ∀ y < 3, v'.content 3 x y = ninePoints.world 3 (x + (v'.terrainVoxelShiftX - 0)) (y + (v'.terrainVoxelShiftY - 0)) :=
  rollOver_moves (L := ⟨1, 3, 1, 1, 3⟩) (by decide : (0 : Rat) < 1) ⟨2, -2, 0, 0, 0, 0⟩ ninePoints fun _ _ _ _ h => h

end Terrain
end LfSentry
