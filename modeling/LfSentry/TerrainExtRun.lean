import LfSentry.TerrainExt
import LfSentry.TerrainRun
/-!
# TerrainExtRun — what the second node publishes over whole runs

The search from under the vehicle ends in every round.  The cells it keeps hang together by steps that can be driven, and a
cell that could be driven onto from a kept one is kept too, unless a kept cell has seen it as a ceiling (`Kept`).
-/
namespace LfSentry
namespace TerrainExt

open Vision (Libm)
open Terrain

variable {K : Type} [Field K] [LinearOrder K] [FloorRing K] (lib : Libm K) (grid : VoxelGrid K) (p : Params K)

/-- What the search keeps of the cells with these heights. -/
structure Kept (elev : Nat → List K) (z : Nat → K) (kept : Nat → Prop) : Prop where
  walk : ∀ c, kept c → Relation.ReflTransGen (fun f c => kept f ∧ kept c ∧ c < 101 * 101 ∧ Grid.cheb 101 f c ≤ 10 ∧
    elev c ≠ [] ∧ |z f - z c| < p.terrainConnThre) middle c
  middle : kept middle
  closed : ∀ f c, kept f → c < 101 * 101 → Grid.cheb 101 f c ≤ 10 → elev c ≠ [] → |z f - z c| < p.terrainConnThre →
    ¬ kept c → ∃ g, kept g ∧ Grid.cheb 101 g c ≤ 10 ∧ ¬ |z g - z c| < p.terrainConnThre ∧
      |z g - z c| > p.ceilingFilteringThre

omit [FloorRing K] in
/-- **The search ends, and its marks are what it keeps.** -/
theorem planarVoxelConn_kept (elev : Nat → List K) (z : Nat → K) (hcheck : p.checkTerrainConn) :
    ∃ conn, planarVoxelConn p elev z = some conn ∧ Kept p elev z fun c => conn c = .done := by
  have haround : ∀ f ∈ Finset.range (101 * 101), ∀ c ∈ around f, c ∈ Finset.range (101 * 101) := fun f _ c hc =>
    Finset.mem_range.2 (Grid.mem_square_cell.1 hc).1
  obtain ⟨s, hfill, hfilled, -⟩ := @Flood.fill_spec Nat around (Joins p elev z) (Bars p elev z) middle _ _ _ _ haround
    (Finset.mem_range.2 (by decide : middle < 101 * 101))
  refine ⟨s.mark, ?_, fun c hc => ?_, (hfilled.done middle).2 Relation.ReflTransGen.refl, fun f c hf hc hnear hdata hlow hno => ?_⟩
  · have hcredit := Flood.credit_seed_le (Finset.range (101 * 101)) middle
    rw [Finset.card_range] at hcredit
    rw [planarVoxelConn, if_pos hcheck, hfill _ hcredit]
    rfl
  · have hwalk := (hfilled.done c).1 hc
    clear hc
    induction hwalk with
    | refl => exact Relation.ReflTransGen.refl
    | @tail f c hpre hstep ih =>
      obtain ⟨hc, hjoin, hbar⟩ := hstep
      obtain ⟨hlt, hnear⟩ := Grid.mem_square_cell.1 hc
      exact ih.tail ⟨(hfilled.done f).2 hpre, (hfilled.done c).2 (hpre.tail ⟨hc, hjoin, hbar⟩), hlt, hnear, hjoin⟩
  · -- a cell that could be driven onto and is not kept has been barred
    have hmem : c ∈ around f := Grid.mem_square_cell.2 ⟨hc, hnear⟩
    have hbar : s.mark c = .barred := by
      by_contra hfree
      exact hno ((hfilled.done c).2 (((hfilled.done f).1 hf).tail ⟨hmem, ⟨hdata, hlow⟩, hfree⟩))
    obtain ⟨g, hg, hcg, hnjoin, hceil⟩ := hfilled.barred c hbar
    exact ⟨g, hg, (Grid.mem_square_cell.1 hcg).2, fun h => hnjoin ⟨hdata, h⟩, hceil.2⟩

/-- What is published for a terrain cloud: beyond the radius the points over kept ground with their distance from it, within
it the points of the other node. -/
def Publishes (n : Node K) (terrainCloud cloud : List (PointXYZI K)) : Prop :=
  let elev := planarPointElev layout (looked lib p n.vehicle) n.vehicle terrainCloud
  let z := planarVoxelElevs p n.vehicle elev
  ∃ kept : Nat → Prop, (p.checkTerrainConn → Kept p elev z kept) ∧ ∀ q, q ∈ cloud ↔
    (∃ point ∈ terrainCloud, looked lib p n.vehicle point ∧ n.vehicle.dis lib point > p.localTerrainMapRadius ∧
      ∃ ind, planarInd layout n.vehicle point = some ind ∧ |point.z - z ind| < p.vehicleHeight ∧
        (p.checkTerrainConn → kept ind) ∧ q = { point with intensity := |point.z - z ind| }) ∨
    (q ∈ n.terrainCloudLocal ∧ n.vehicle.dis lib q ≤ p.localTerrainMapRadius)

theorem mem_terrainCloudElev {vehicle : Vehicle K} {z : Nat → K} {conn : Nat → Flood.Mark} {terrainCloud : List (PointXYZI K)}
    {q : PointXYZI K} : q ∈ terrainCloudElev lib p vehicle z conn terrainCloud ↔
      ∃ point ∈ terrainCloud, looked lib p vehicle point ∧ vehicle.dis lib point > p.localTerrainMapRadius ∧
        ∃ ind, planarInd layout vehicle point = some ind ∧ |point.z - z ind| < p.vehicleHeight ∧
          (p.checkTerrainConn → conn ind = .done) ∧ q = { point with intensity := |point.z - z ind| } := by
  rw [terrainCloudElev, List.mem_filterMap]
  refine exists_congr fun point => and_congr_right fun _ => ?_
  rw [Option.ite_none_right_eq_some, and_assoc]
  refine and_congr_right fun _ => and_congr_right fun _ => ?_
  cases planarInd layout vehicle point with
  | none => simp
  | some ind =>
    simp only [Option.ite_none_right_eq_some, Option.some.injEq, exists_eq_left', and_assoc]
    refine and_congr_right fun _ => and_congr ?_ eq_comm
    by_cases hcheck : p.checkTerrainConn = true <;> simp [hcheck]

/-- **A terrain cloud is published whatever it holds.** -/
theorem published_spec (n : Node K) (terrainCloud : List (PointXYZI K)) :
    ∃ cloud, published lib p n terrainCloud = some cloud ∧ Publishes lib p n terrainCloud cloud := by
  set elev := planarPointElev layout (looked lib p n.vehicle) n.vehicle terrainCloud with helev
  set z := planarVoxelElevs p n.vehicle elev with hz
  obtain ⟨conn, hconn, hkept⟩ : ∃ conn, planarVoxelConn p elev z = some conn ∧
      (p.checkTerrainConn → Kept p elev z fun c => conn c = .done) := by
    by_cases hcheck : p.checkTerrainConn
    · obtain ⟨conn, hconn, hkept⟩ := planarVoxelConn_kept p elev z hcheck
      exact ⟨conn, hconn, fun _ => hkept⟩
    · exact ⟨_, if_neg hcheck, fun h => absurd h hcheck⟩
  refine ⟨terrainCloudElev lib p n.vehicle z conn terrainCloud ++
    n.terrainCloudLocal.filter fun point => n.vehicle.dis lib point ≤ p.localTerrainMapRadius, ?_, _, hkept, fun q => ?_⟩
  · rw [published, ← helev, ← hz, hconn]
    rfl
  · rw [List.mem_append, mem_terrainCloudElev, List.mem_filter, decide_eq_true_iff]

variable [IsStrictOrderedRing K]

omit [FloorRing K] in
theorem layout_size_pos : 0 < (layout : Layout K).terrainVoxelSize := by
  norm_num [layout]

omit [LinearOrder K] [IsStrictOrderedRing K] [FloorRing K] in
/-- The terrain cloud lies inside the array. -/
theorem layout_window : (layout : Layout K).terrainWindow ≤ halfWidth (layout : Layout K).terrainVoxelWidth ∧
    halfWidth (layout : Layout K).terrainVoxelWidth + (layout : Layout K).terrainWindow <
      (layout : Layout K).terrainVoxelWidth := by
  simp [layout, halfWidth]

/-- **A round with a new scan goes through.** -/
theorem round_spec {n : Node K} (h : Sound layout n.voxels) :
    ∃ n' out, round lib grid p n = some (n', out) ∧ Sound layout n'.voxels ∧ Covers layout n'.vehicle n'.voxels ∧
      Publishes lib p n' (n'.voxels.terrainCloud layout) out := by
  obtain ⟨v', hscan, hsound, hcentred⟩ := scan_sound lib p.toStoreParams grid layout_size_pos n.vehicle
    (n.laserCloudTime - n.systemInitTime) n.clearingDis n.clearingCloud n.laserCloudCrop h
  obtain ⟨out, hout, hpub⟩ := published_spec lib p { n with newlaserCloud := false, voxels := v' } (v'.terrainCloud layout)
  refine ⟨{ n with newlaserCloud := false, voxels := v', clearingCloud := false }, out, ?_, hsound,
    hsound.covers layout_size_pos layout_window.1 layout_window.2 hcentred, hpub⟩
  rw [round, hscan]
  simp only [Option.bind_eq_bind, Option.bind_some, hout]

/-- **Every event goes through and keeps the store sound.** -/
theorem step_sound (n : Node K) (e : Event K) (h : Sound layout n.voxels) :
    ∃ n' out, (node lib grid p).step n e = some (n', out) ∧ Sound layout n'.voxels ∧
      ∀ cloud ∈ out, Covers layout n'.vehicle n'.voxels ∧ Publishes lib p n' (n'.voxels.terrainCloud layout) cloud := by
  cases e with
  | odometry vehicle => exact ⟨_, _, rfl, h, fun _ hc => absurd hc List.not_mem_nil⟩
  | laserCloud stamp cloud =>
    have hkeep : (laserCloudHandler lib p n stamp cloud).voxels = n.voxels := by
      unfold laserCloudHandler
      dsimp only
      split_ifs <;> rfl
    exact ⟨_, _, rfl, by rwa [hkeep], fun _ hc => absurd hc List.not_mem_nil⟩
  | terrainCloudLocal cloud => exact ⟨_, _, rfl, h, fun _ hc => absurd hc List.not_mem_nil⟩
  | joystick pressed =>
    have hkeep : (joystickHandler n pressed).voxels = n.voxels := by
      unfold joystickHandler
      split_ifs <;> rfl
    exact ⟨_, _, rfl, by rwa [hkeep], fun _ hc => absurd hc List.not_mem_nil⟩
  | clearing dis => exact ⟨_, _, rfl, h, fun _ hc => absurd hc List.not_mem_nil⟩
  | round =>
    by_cases hnew : n.newlaserCloud
    · obtain ⟨n', out, hround, hsound, hcovers, hpub⟩ := round_spec lib grid p h
      refine ⟨n', [out], ?_, hsound, fun cloud hc => ?_⟩
      · simp only [node, if_pos hnew, hround, Option.map_some]
      · rw [List.mem_singleton.1 hc]
        exact ⟨hcovers, hpub⟩
    · exact ⟨n, [], by simp only [node, if_neg hnew], h, fun _ hc => absurd hc List.not_mem_nil⟩

/-- **Over every run of the second node no round hangs, and every cloud that it publishes has, beyond the radius, exactly the
points over ground that hangs together with the ground under the vehicle.** -/
theorem node_publishes_kept (clearingDis : K) (events : List (Event K)) :
    (∃ r, (node lib grid p).run (Node.init clearingDis) events = some r) ∧
    (node lib grid p).Along (fun n e => ∀ n' out, (node lib grid p).step n e = some (n', out) → ∀ cloud ∈ out,
      Covers layout n'.vehicle n'.voxels ∧ Publishes lib p n' (n'.voxels.terrainCloud layout) cloud)
      (Node.init clearingDis) events := by
  have h0 : Sound layout (Node.init clearingDis : Node K).voxels := sound_init layout
  refine ⟨?_, ?_⟩
  · obtain ⟨n, out, hrun, -⟩ := Machine.exists_run (m := node lib grid p) (I := fun n : Node K => Sound layout n.voxels)
      (fun n e h => by
        obtain ⟨n', out, hst, h', -⟩ := step_sound lib grid p n e h
        exact ⟨n', out, hst, h'⟩) events h0
    exact ⟨_, hrun⟩
  · refine Machine.along_of_inv (I := fun n : Node K => Sound layout n.voxels) (fun n e h n' out hst => ?_)
      (fun n e n' out h hst => ?_) h0
    · obtain ⟨n'', out', hst', -, hcov⟩ := step_sound lib grid p n e h
      obtain ⟨rfl, rfl⟩ := Prod.mk.inj (Option.some.inj (hst'.symm.trans hst))
      exact hcov
    · obtain ⟨n'', out', hst', h', -⟩ := step_sound lib grid p n e h
      obtain ⟨rfl, rfl⟩ := Prod.mk.inj (Option.some.inj (hst'.symm.trans hst))
      exact h'

/-- The vehicle drives off and a scan is taken up. -/
def firstScan : List (Event K) :=
  [.odometry ⟨4.0, -3.0, 0, 0, 0, 0⟩, .terrainCloudLocal [⟨5.0, -3.0, 0, 0⟩], .laserCloud 0 [⟨9.0, -3.0, 0, 0⟩], .round]

theorem node_publishes_kept_firstScan :
    ∃ r, (node Vision.Dual.realLibm VoxelGrid.fine defaults).run (Node.init 30.0) firstScan = some r :=
  (node_publishes_kept Vision.Dual.realLibm VoxelGrid.fine defaults 30.0 firstScan).1

end TerrainExt
end LfSentry
