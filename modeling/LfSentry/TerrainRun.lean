import LfSentry.DualArbiter
import LfSentry.TerrainAnalysis
import LfSentry.TerrainRoll
/-!
# TerrainRun — what the terrain store holds over whole runs

The scans are sorted into cells relative to the vehicle, the square rolls relative to its middle, and the filter replaces
points by others between them.  Over every run of the node the stored points stay within one and a half cells of the middle
of their cell in the world (`Placed`); after a round the terrain cloud has every stored point closer than three and a half
cells and none further than seven and a half (`node_keeps_placed`).
-/
namespace LfSentry
namespace Terrain

open Vision (Libm toInt)
open Voxels (Moves Distinct)

variable {K : Type} [Field K] [LinearOrder K] [IsStrictOrderedRing K] [FloorRing K]

omit [Field K] [IsStrictOrderedRing K] [FloorRing K] in
/-- Voxels so small that no two points share one. -/
def VoxelGrid.fine : VoxelGrid K := ⟨id, fun _ _ _ h => h, fun _ _ _ h => h⟩

/-- **The cell of a coordinate is the one around it, up to the border.** -/
theorem abs_sub_voxelInd {size : K} (hs : 0 < size) (width : Nat) (d : K) :
    |d - size * ((voxelInd size width d : K) - halfWidth width)| ≤ size / 2 := by
  have hcancel : (d + size / 2) / size * size = d + size / 2 := div_mul_cancel₀ _ hs.ne'
  set t := (d + size / 2) / size with ht
  rw [voxelInd, show (2.0 : K) = 2 by norm_num]
  rw [← ht]
  by_cases hneg : d + size / 2 < 0
  · have htneg : t < 0 := div_neg_of_neg_of_pos hneg hs
    have hint : toInt t = ⌈t⌉ := if_neg (not_le.2 htneg)
    have hlo := Int.ceil_lt_add_one t
    have hhi := Int.le_ceil t
    simp only [if_pos hneg, hint]
    push_cast
    rw [abs_le]
    constructor <;> nlinarith
  · have htpos : 0 ≤ t := div_nonneg (not_lt.1 hneg) hs.le
    have hint : toInt t = ⌊t⌋ := if_pos htpos
    have hlo := Int.floor_le t
    have hhi := Int.lt_floor_add_one t
    simp only [if_neg hneg, hint]
    push_cast
    rw [abs_le]
    constructor <;> nlinarith

variable (L : Layout K)

/-- The points of a cell lie within one and a half cells of its middle in the world. -/
structure NearCell (shiftX shiftY : Int) (x y : Nat) (point : PointXYZI K) : Prop where
  x : |point.x - L.terrainVoxelSize * ((shiftX : K) + x - halfWidth L.terrainVoxelWidth)| ≤ L.terrainVoxelSize * 1.5
  y : |point.y - L.terrainVoxelSize * ((shiftY : K) + y - halfWidth L.terrainVoxelWidth)| ≤ L.terrainVoxelSize * 1.5

def Placed (v : Voxels K) : Prop :=
  ∀ x < L.terrainVoxelWidth, ∀ y < L.terrainVoxelWidth, ∀ point ∈ v.content L.terrainVoxelWidth x y,
    NearCell L v.terrainVoxelShiftX v.terrainVoxelShiftY x y point

variable {L} {v v' : Voxels K}

omit [IsStrictOrderedRing K] [FloorRing K] in
/-- What moved with the square lies in its cell still. -/
theorem Placed.moves {a b : Int} (h : Placed L v) (hd : v.Distinct L.terrainVoxelWidth)
    (hm : Moves L.terrainVoxelWidth v v' a b) : Placed L v' := by
  intro x hx y hy point hp
  rw [hm.content hd x hx y hy, Voxels.world] at hp
  split at hp
  · rename_i hin
    obtain ⟨hx', hy'⟩ := h _ (by omega) _ (by omega) point hp
    have hxa : (((x : Int) + a).toNat : K) = x + a := by
      rw [← Int.cast_natCast, Int.toNat_of_nonneg hin.1]
      push_cast
      rfl
    have hyb : (((y : Int) + b).toNat : K) = y + b := by
      rw [← Int.cast_natCast, Int.toNat_of_nonneg hin.2.2.1]
      push_cast
      rfl
    rw [hxa] at hx'
    rw [hyb] at hy'
    refine ⟨?_, ?_⟩
    · rw [hm.shiftX]
      push_cast
      convert hx' using 4
      ring
    · rw [hm.shiftY]
      push_cast
      convert hy' using 4
      ring
  · cases hp

/-- What the rounds keep. -/
structure Sound (L : Layout K) (v : Voxels K) : Prop where
  distinct : v.Distinct L.terrainVoxelWidth
  placed : Placed L v

omit [IsStrictOrderedRing K] [FloorRing K] in
/-- A change of one cloud changes one cell. -/
theorem Sound.update (h : Sound L v) {ind : Nat} {cloud : List (PointXYZI K)}
    (hind : ind < L.terrainVoxelWidth * L.terrainVoxelWidth) (hptr : v'.terrainVoxelCloud = v.terrainVoxelCloud)
    (hclouds : v'.clouds = Function.update v.clouds (v.terrainVoxelCloud ind) cloud)
    (hX : v'.terrainVoxelShiftX = v.terrainVoxelShiftX) (hY : v'.terrainVoxelShiftY = v.terrainVoxelShiftY)
    (hcloud : ∀ q ∈ cloud, NearCell L v.terrainVoxelShiftX v.terrainVoxelShiftY (ind / L.terrainVoxelWidth)
      (ind % L.terrainVoxelWidth) q) : Sound L v' where
  distinct := by
    rw [Distinct, hptr]
    exact h.distinct
  placed x hx y hy q hq := by
    rw [hX, hY]
    rw [Voxels.content, hptr, hclouds] at hq
    by_cases heq : L.terrainVoxelWidth * x + y = ind
    · rw [heq, Function.update_self] at hq
      have := hcloud q hq
      rwa [← heq, Grid.index_div hy, Grid.index_mod hy] at this
    · rw [Function.update_of_ne fun hsame => heq (h.distinct _ (Grid.index_lt hx hy) _ hind hsame)] at hq
      exact h.placed x hx y hy q hq

omit [IsStrictOrderedRing K] [FloorRing K] in
/-- What lies at a place of the array. -/
theorem Sound.near (h : Sound L v) {ind : Nat} (hind : ind < L.terrainVoxelWidth * L.terrainVoxelWidth) :
    ∀ q ∈ v.clouds (v.terrainVoxelCloud ind), NearCell L v.terrainVoxelShiftX v.terrainVoxelShiftY
      (ind / L.terrainVoxelWidth) (ind % L.terrainVoxelWidth) q := fun q hq =>
  h.placed _ (Grid.div_lt hind) _ (Grid.mod_lt hind) q (by rwa [Voxels.content, Nat.div_add_mod])

/-- The vehicle is within one cell of the middle of the square. -/
structure Centred (L : Layout K) (vehicle : Vehicle K) (v : Voxels K) : Prop where
  x : |vehicle.x - L.terrainVoxelSize * v.terrainVoxelShiftX| ≤ L.terrainVoxelSize
  y : |vehicle.y - L.terrainVoxelSize * v.terrainVoxelShiftY| ≤ L.terrainVoxelSize

/-- A point is put within half a cell of where the vehicle sees the cell, which is within one cell of where it is. -/
theorem abs_sub_cell {s c p k : K} {shift : K} (hnear : |c - s * shift| ≤ s) (hk : |p - c - s * k| ≤ s / 2) :
    |p - s * (shift + k)| ≤ s * 1.5 := by
  rw [abs_le] at *
  constructor <;> nlinarith [hnear.1, hnear.2, hk.1, hk.2]

/-- **A point of the scan keeps the store sound.** -/
theorem stackPoint_sound (hs : 0 < L.terrainVoxelSize) {vehicle : Vehicle K} (h : Sound L v) (hc : Centred L vehicle v)
    (point : PointXYZI K) :
    Sound L (stackPoint L vehicle v point) ∧ Centred L vehicle (stackPoint L vehicle v point) := by
  unfold stackPoint
  dsimp only
  split
  · rename_i hin
    obtain ⟨hx0, hxw, hy0, hyw⟩ := hin
    have hX := abs_sub_voxelInd hs L.terrainVoxelWidth (point.x - vehicle.x)
    have hY := abs_sub_voxelInd hs L.terrainVoxelWidth (point.y - vehicle.y)
    generalize voxelInd L.terrainVoxelSize L.terrainVoxelWidth (point.x - vehicle.x) = indX at hx0 hxw hX
    generalize voxelInd L.terrainVoxelSize L.terrainVoxelWidth (point.y - vehicle.y) = indY at hy0 hyw hY
    obtain ⟨a, rfl⟩ := Int.eq_ofNat_of_zero_le hx0
    obtain ⟨b, rfl⟩ := Int.eq_ofNat_of_zero_le hy0
    simp only [Int.toNat_natCast]
    have ha : a < L.terrainVoxelWidth := by omega
    have hb : b < L.terrainVoxelWidth := by omega
    have hind := Grid.index_lt ha hb
    refine ⟨h.update hind rfl rfl rfl rfl fun q hq => ?_, hc.x, hc.y⟩
    rcases List.mem_append.1 hq with hq | hq
    · exact h.near hind q hq
    · rw [List.mem_singleton.1 hq, Grid.index_div hb, Grid.index_mod hb]
      refine ⟨?_, ?_⟩
      · rw [add_sub_assoc]
        exact abs_sub_cell hc.x (by exact_mod_cast hX)
      · rw [add_sub_assoc]
        exact abs_sub_cell hc.y (by exact_mod_cast hY)
  · exact ⟨h, hc⟩

variable (lib : Libm K) (p : StoreParams K) (grid : VoxelGrid K)

omit [FloorRing K] in
/-- **Thinning out a cell leaves what lies between the points that were there.** -/
theorem refresh_sound {vehicle : Vehicle K} {time clearingDis : K} {clearingCloud : Bool} (h : Sound L v)
    (hc : Centred L vehicle v) {ind : Nat} (hind : ind < L.terrainVoxelWidth * L.terrainVoxelWidth) :
    Sound L (refresh lib p grid vehicle time clearingDis clearingCloud v ind) ∧
      Centred L vehicle (refresh lib p grid vehicle time clearingDis clearingCloud v ind) := by
  unfold refresh
  split
  · refine ⟨h.update hind rfl rfl rfl rfl fun q hq => ?_, hc.x, hc.y⟩
    have hq' := List.mem_of_mem_filter hq
    refine ⟨?_, ?_⟩
    · have hbounds := fun r hr => abs_le.1 (h.near hind r hr).x
      have := grid.x_mem _ (_ + -(L.terrainVoxelSize * 1.5)) (_ + L.terrainVoxelSize * 1.5)
        (fun r hr => ⟨le_sub_iff_add_le'.1 (hbounds r hr).1, sub_le_iff_le_add'.1 (hbounds r hr).2⟩) q hq'
      exact abs_le.2 ⟨le_sub_iff_add_le'.2 this.1, sub_le_iff_le_add'.2 this.2⟩
    · have hbounds := fun r hr => abs_le.1 (h.near hind r hr).y
      have := grid.y_mem _ (_ + -(L.terrainVoxelSize * 1.5)) (_ + L.terrainVoxelSize * 1.5)
        (fun r hr => ⟨le_sub_iff_add_le'.1 (hbounds r hr).1, sub_le_iff_le_add'.1 (hbounds r hr).2⟩) q hq'
      exact abs_le.2 ⟨le_sub_iff_add_le'.2 this.1, sub_le_iff_le_add'.2 this.2⟩
  · exact ⟨h, hc⟩

/-- **A scan is taken up, whatever came before.** -/
theorem scan_sound (hs : 0 < L.terrainVoxelSize) (vehicle : Vehicle K) (time clearingDis : K) (clearingCloud : Bool)
    (laserCloudCrop : List (PointXYZI K)) (h : Sound L v) :
    ∃ v', v.scan lib L p grid vehicle time clearingDis clearingCloud laserCloudCrop = some v' ∧ Sound L v' ∧
      Centred L vehicle v' := by
  obtain ⟨v₁, a, b, hroll, hmoves, hx, hy⟩ := rollOver_eq hs vehicle v
  have h₁ : Sound L v₁ ∧ Centred L vehicle v₁ :=
    ⟨⟨hmoves.distinct h.distinct, h.placed.moves h.distinct hmoves⟩, hx, hy⟩
  have h₂ := List.foldlRecOn (motive := fun v => Sound L v ∧ Centred L vehicle v) laserCloudCrop (stackPoint L vehicle) h₁
    fun u hu point _ => stackPoint_sound hs hu.1 hu.2 point
  have h₃ := List.foldlRecOn (motive := fun v => Sound L v ∧ Centred L vehicle v)
    (List.range (L.terrainVoxelWidth * L.terrainVoxelWidth))
    (refresh lib p grid vehicle time clearingDis clearingCloud) h₂
    fun u hu ind hind => refresh_sound lib p grid hu.1 hu.2 (List.mem_range.1 hind)
  refine ⟨_, ?_, h₃⟩
  rw [Voxels.scan, hroll]
  rfl

omit [IsStrictOrderedRing K] [FloorRing K] in
theorem sound_init (L : Layout K) : Sound L (Voxels.init : Voxels K) where
  distinct := distinct_init _
  placed _ _ _ _ _ hq := by cases hq

/-- What the terrain cloud has of the store. -/
structure Covers (L : Layout K) (vehicle : Vehicle K) (v : Voxels K) : Prop where
  centred : Centred L vehicle v
  complete : ∀ x < L.terrainVoxelWidth, ∀ y < L.terrainVoxelWidth, ∀ point ∈ v.content L.terrainVoxelWidth x y,
    |point.x - vehicle.x| < L.terrainVoxelSize * (L.terrainWindow - 1.5) →
    |point.y - vehicle.y| < L.terrainVoxelSize * (L.terrainWindow - 1.5) → point ∈ v.terrainCloud L
  within : ∀ point ∈ v.terrainCloud L, |point.x - vehicle.x| ≤ L.terrainVoxelSize * (L.terrainWindow + 2.5) ∧
    |point.y - vehicle.y| ≤ L.terrainVoxelSize * (L.terrainWindow + 2.5)

omit [Field K] [LinearOrder K] [IsStrictOrderedRing K] [FloorRing K] in
theorem mem_terrainCloud {point : PointXYZI K} : point ∈ v.terrainCloud L ↔
    ∃ i ≤ 2 * L.terrainWindow, ∃ j ≤ 2 * L.terrainWindow, point ∈ v.content L.terrainVoxelWidth
      (i + (halfWidth L.terrainVoxelWidth - L.terrainWindow)) (j + (halfWidth L.terrainVoxelWidth - L.terrainWindow)) := by
  simp only [Voxels.terrainCloud, List.mem_flatMap, List.mem_map, List.mem_range, Nat.lt_succ_iff]
  constructor
  · rintro ⟨_, ⟨i, hi, rfl⟩, _, ⟨j, hj, rfl⟩, hp⟩
    exact ⟨i, hi, j, hj, hp⟩
  · rintro ⟨i, hi, j, hj, hp⟩
    exact ⟨_, ⟨i, hi, rfl⟩, _, ⟨j, hj, rfl⟩, hp⟩

omit [FloorRing K] in
/-- How far the middle of a cell is from the vehicle, by where a point of it is. -/
theorem abs_cell_le {s c q k shift r : K} (hs : 0 < s) (hnear : |c - s * shift| ≤ s)
    (hq : |q - s * (shift + k)| ≤ s * 1.5) :
    (|q - c| < s * (r - 1.5) → |k| < r + 1) ∧ (|k| ≤ r → |q - c| ≤ s * (r + 2.5)) := by
  rw [abs_le] at hnear hq
  refine ⟨fun h => ?_, fun h => ?_⟩
  · rw [abs_lt] at h ⊢
    constructor
    · by_contra hk
      nlinarith [mul_le_mul_of_nonneg_left (not_lt.1 hk) hs.le]
    · by_contra hk
      nlinarith [mul_le_mul_of_nonneg_left (not_lt.1 hk) hs.le]
  · rw [abs_le] at h ⊢
    constructor <;> nlinarith [mul_le_mul_of_nonneg_left h.1 hs.le, mul_le_mul_of_nonneg_left h.2 hs.le]

omit [FloorRing K] in
/-- **The terrain cloud has what is close and nothing that is far.** -/
theorem Sound.covers (hs : 0 < L.terrainVoxelSize) (hlo : L.terrainWindow ≤ halfWidth L.terrainVoxelWidth)
    (hhi : halfWidth L.terrainVoxelWidth + L.terrainWindow < L.terrainVoxelWidth) {vehicle : Vehicle K} (h : Sound L v)
    (hc : Centred L vehicle v) : Covers L vehicle v where
  centred := hc
  complete x hx y hy point hp hnx hny := by
    obtain ⟨hX, hY⟩ := h.placed x hx y hy point hp
    rw [add_sub_assoc] at hX hY
    have hxk := abs_lt.1 ((abs_cell_le hs hc.x hX).1 hnx)
    have hyk := abs_lt.1 ((abs_cell_le hs hc.y hY).1 hny)
    -- a whole number of cells less than one more than the window is within the window
    have hwhole : ∀ k : Nat, -((L.terrainWindow : K) + 1) < (k : K) - halfWidth L.terrainVoxelWidth ∧
        (k : K) - halfWidth L.terrainVoxelWidth < L.terrainWindow + 1 →
        ∃ i ≤ 2 * L.terrainWindow, k = i + (halfWidth L.terrainVoxelWidth - L.terrainWindow) := by
      rintro k ⟨h1, h2⟩
      have h1' : halfWidth L.terrainVoxelWidth < k + L.terrainWindow + 1 := by
        have : ((halfWidth L.terrainVoxelWidth : Nat) : K) < ((k + L.terrainWindow + 1 : Nat) : K) := by
          push_cast
          linarith
        exact_mod_cast this
      have h2' : k < halfWidth L.terrainVoxelWidth + L.terrainWindow + 1 := by
        have : (k : K) < ((halfWidth L.terrainVoxelWidth + L.terrainWindow + 1 : Nat) : K) := by
          push_cast
          linarith
        exact_mod_cast this
      exact ⟨k - (halfWidth L.terrainVoxelWidth - L.terrainWindow), by omega, by omega⟩
    obtain ⟨i, hi, rfl⟩ := hwhole x hxk
    obtain ⟨j, hj, rfl⟩ := hwhole y hyk
    exact mem_terrainCloud.2 ⟨i, hi, j, hj, hp⟩
  within point hp := by
    obtain ⟨i, hi, j, hj, hp⟩ := mem_terrainCloud.1 hp
    obtain ⟨hX, hY⟩ := h.placed _ (by omega) _ (by omega) point hp
    rw [add_sub_assoc] at hX hY
    have hwhole : ∀ k ≤ 2 * L.terrainWindow, |((k + (halfWidth L.terrainVoxelWidth - L.terrainWindow) : Nat) : K) -
        halfWidth L.terrainVoxelWidth| ≤ L.terrainWindow := by
      intro k hk
      have hk' : (k : K) ≤ 2 * L.terrainWindow := by exact_mod_cast hk
      push_cast [Nat.cast_sub hlo]
      rw [abs_le]
      have : (0 : K) ≤ k := Nat.cast_nonneg k
      constructor <;> linarith
    exact ⟨(abs_cell_le hs hc.x hX).2 (hwhole i hi), (abs_cell_le hs hc.y hY).2 (hwhole j hj)⟩

end Terrain

namespace TerrainAnalysis

open Vision (Libm)
open Terrain

variable {K : Type} [Field K] [LinearOrder K] [IsStrictOrderedRing K] [FloorRing K] (lib : Libm K) (grid : VoxelGrid K)
  (p : Params K)

omit [FloorRing K] in
theorem layout_size_pos : 0 < (layout : Layout K).terrainVoxelSize := by
  norm_num [layout]

omit [LinearOrder K] [IsStrictOrderedRing K] [FloorRing K] in
/-- The terrain cloud lies inside the array. -/
theorem layout_window : (layout : Layout K).terrainWindow ≤ halfWidth (layout : Layout K).terrainVoxelWidth ∧
    halfWidth (layout : Layout K).terrainVoxelWidth + (layout : Layout K).terrainWindow <
      (layout : Layout K).terrainVoxelWidth := by
  simp [layout, halfWidth]

omit [IsStrictOrderedRing K] in
theorem round_eq {n : Node K} {v : Voxels K} (h : n.voxels.scan lib layout p.toStoreParams grid n.vehicle
    (n.laserCloudTime - n.systemInitTime) n.clearingDis n.clearingCloud n.laserCloudCrop = some v) :
    ∃ n' out, round lib grid p n = some (n', out) ∧ n'.voxels = v ∧ n'.vehicle = n.vehicle := by
  refine ⟨{ n with newlaserCloud := false, voxels := v, clearingCloud := false },
    published lib p { n with newlaserCloud := false, voxels := v } (v.terrainCloud layout), ?_, rfl, rfl⟩
  rw [round, h]
  rfl

/-- **Every event goes through and keeps the store sound.** -/
theorem step_sound (n : Node K) (e : Event K) (h : Sound layout n.voxels) :
    ∃ n' out, (node lib grid p).step n e = some (n', out) ∧ Sound layout n'.voxels ∧
      (out ≠ [] → Covers layout n'.vehicle n'.voxels) := by
  cases e with
  | odometry vehicle =>
    have hkeep : (odometryHandler lib p n vehicle).voxels = n.voxels := by
      unfold odometryHandler
      dsimp only
      split_ifs <;> rfl
    exact ⟨_, _, rfl, by rwa [hkeep], fun hne => absurd rfl hne⟩
  | laserCloud stamp cloud =>
    have hkeep : (laserCloudHandler lib p n stamp cloud).voxels = n.voxels := by
      unfold laserCloudHandler
      dsimp only
      split_ifs <;> rfl
    exact ⟨_, _, rfl, by rwa [hkeep], fun hne => absurd rfl hne⟩
  | joystick pressed =>
    have hkeep : (joystickHandler n pressed).voxels = n.voxels := by
      unfold joystickHandler
      split_ifs <;> rfl
    exact ⟨_, _, rfl, by rwa [hkeep], fun hne => absurd rfl hne⟩
  | clearing dis => exact ⟨_, _, rfl, h, fun hne => absurd rfl hne⟩
  | round =>
    obtain ⟨v', hscan, hsound, hcentred⟩ := scan_sound lib p.toStoreParams grid layout_size_pos n.vehicle
      (n.laserCloudTime - n.systemInitTime) n.clearingDis n.clearingCloud n.laserCloudCrop h
    have hcovers := hsound.covers layout_size_pos layout_window.1 layout_window.2 hcentred
    by_cases hnew : n.newlaserCloud
    · obtain ⟨n', out, hround, hvoxels, hvehicle⟩ := round_eq lib grid p hscan
      refine ⟨n', [out], ?_, ?_, fun _ => ?_⟩
      · simp only [node, if_pos hnew, hround, Option.map_some]
      · rwa [hvoxels]
      · rwa [hvoxels, hvehicle]
    · exact ⟨n, [], by simp only [node, if_neg hnew], h, fun hne => absurd rfl hne⟩

/-- **Over every run of the node no round hangs, the places of the array keep clouds of their own, every stored point lies
within one and a half cells of the middle of its cell in the world, and whenever a cloud is published the terrain cloud had
every stored point closer than three and a half cells and none further than seven and a half.** -/
theorem node_keeps_placed (clearingDis : K) (events : List (Event K)) :
    (∃ n out, (node lib grid p).run (Node.init clearingDis) events = some (n, out) ∧
      n.voxels.Distinct (layout (K := K)).terrainVoxelWidth ∧ Placed layout n.voxels) ∧
    (node lib grid p).Along (fun n e => ∀ n' out, (node lib grid p).step n e = some (n', out) → out ≠ [] →
      Covers layout n'.vehicle n'.voxels) (Node.init clearingDis) events := by
  have h0 : Sound layout (Node.init clearingDis : Node K).voxels := sound_init layout
  refine ⟨?_, ?_⟩
  · obtain ⟨n, out, hrun, h⟩ := Machine.exists_run (m := node lib grid p) (I := fun n : Node K => Sound layout n.voxels)
      (fun n e h => by
        obtain ⟨n', out, hst, h', -⟩ := step_sound lib grid p n e h
        exact ⟨n', out, hst, h'⟩) events h0
    exact ⟨n, out, hrun, h.distinct, h.placed⟩
  · refine Machine.along_of_inv (I := fun n : Node K => Sound layout n.voxels) (fun n e h n' out hst hne => ?_)
      (fun n e n' out h hst => ?_) h0
    · obtain ⟨n'', out', hst', -, hcov⟩ := step_sound lib grid p n e h
      obtain ⟨rfl, rfl⟩ := Prod.mk.inj (Option.some.inj (hst'.symm.trans hst))
      exact hcov hne
    · obtain ⟨n'', out', hst', h', -⟩ := step_sound lib grid p n e h
      obtain ⟨rfl, rfl⟩ := Prod.mk.inj (Option.some.inj (hst'.symm.trans hst))
      exact h'

/-- The vehicle drives off and a scan is taken up. -/
def firstScan : List (Event K) :=
  [.odometry ⟨4.0, -3.0, 0, 0, 0, 0⟩, .laserCloud 0 [⟨5.0, -3.0, 0, 0⟩], .round]

theorem node_keeps_placed_firstScan : ∃ n out,
    (node Vision.Dual.realLibm VoxelGrid.fine defaults).run (Node.init 8.0) firstScan = some (n, out) ∧
      n.voxels.Distinct (layout (K := ℝ)).terrainVoxelWidth ∧ Placed layout n.voxels :=
  (node_keeps_placed Vision.Dual.realLibm VoxelGrid.fine defaults 8.0 firstScan).1

end TerrainAnalysis
end LfSentry
