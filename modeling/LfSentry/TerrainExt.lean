import LfSentry.Flood
import LfSentry.Runs
import LfSentry.TerrainPlane
/-!
# TerrainExt — the node that publishes the terrain further away (`terrainAnalysisExt.cpp`)

It keeps the same store with larger cells.  Ground that cannot be reached from under the vehicle without a step that is too
high is a ceiling and left out; near the vehicle the cloud of the other node is published as it is.
-/
namespace LfSentry
namespace TerrainExt

open Vision (Libm)
open Terrain

/-- The parameters; those of the store go by the names of the first node. -/
structure Params (K : Type) extends StoreParams K where
  useSorting : Bool
  quantileZ : K
  vehicleHeight : K
  checkTerrainConn : Bool
  terrainUnderVehicle : K
  terrainConnThre : K
  ceilingFilteringThre : K
  localTerrainMapRadius : K

/-- The variables that the handlers and the loop share. -/
structure Node (K : Type) where
  vehicle : Vehicle K
  laserCloudTime : K
  newlaserCloud : Bool
  systemInitTime : K
  systemInited : Bool
  clearingDis : K
  clearingCloud : Bool
  laserCloudCrop : List (PointXYZI K)
  terrainCloudLocal : List (PointXYZI K)
  voxels : Voxels K

section Node

variable {K : Type} [Field K] [LinearOrder K] [FloorRing K] (lib : Libm K) (grid : VoxelGrid K) (p : Params K)

/-- The constants of this node. -/
def layout : Layout K where
  terrainVoxelSize := 2.0
  terrainVoxelWidth := 41
  terrainWindow := 10
  planarVoxelSize := 0.4
  planarVoxelWidth := 101

/-- The values that the parameters have when nothing else is given. -/
def defaults : Params K where
  minRelZ := -1.5
  maxRelZ := 1.0
  disRatioZ := 0.1
  decayTime := 10.0
  noDecayDis := 0
  voxelPointUpdateThre := 100
  voxelTimeUpdateThre := 2.0
  useSorting := false
  quantileZ := 0.25
  vehicleHeight := 1.5
  checkTerrainConn := true
  terrainUnderVehicle := -0.75
  terrainConnThre := 0.5
  ceilingFilteringThre := 2.0
  localTerrainMapRadius := 4.0

/-! ## The handlers -/

/-- `odometryHandler`. -/
def odometryHandler (n : Node K) (vehicle : Vehicle K) : Node K := { n with vehicle := vehicle }

/-- `laserCloudHandler`. -/
def laserCloudHandler (n : Node K) (stamp : K) (laserCloud : List (PointXYZI K)) : Node K :=
  let n := { n with laserCloudTime := stamp }
  let n := if n.systemInited then n else { n with systemInitTime := stamp, systemInited := true }
  { n with
    laserCloudCrop := crop lib layout p.toStoreParams n.vehicle (n.laserCloudTime - n.systemInitTime) laserCloud
    newlaserCloud := true }

/-- `terrainCloudLocalHandler`. -/
def terrainCloudLocalHandler (n : Node K) (cloud : List (PointXYZI K)) : Node K := { n with terrainCloudLocal := cloud }

/-- `joystickHandler`, by whether the button is pressed. -/
def joystickHandler (n : Node K) (pressed : Bool) : Node K := if pressed then { n with clearingCloud := true } else n

/-- `clearingHandler`. -/
def clearingHandler (n : Node K) (dis : K) : Node K := { n with clearingDis := dis, clearingCloud := true }

/-! ## The ground -/

/-- The points whose heights count for the ground. -/
def looked (vehicle : Vehicle K) (point : PointXYZI K) : Bool := InBand lib p.toStoreParams vehicle point

/-- The cell under the vehicle. -/
def middle : Nat := 101 * halfWidth 101 + halfWidth 101

/-- `planarVoxelElev` of a cell, by the heights gathered for it. -/
def planarVoxelElev (elev : List K) : K :=
  if p.useSorting then
    match elev.insertionSort (· ≤ ·) with
    | [] => 0
    | first :: rest => (first :: rest).getD (quantileID p.quantileZ elev.length) 0
  else (lowest elev).getD 0

/-- `planarVoxelElev` once the cell under the vehicle has been given a height. -/
def planarVoxelElevs (vehicle : Vehicle K) (elev : Nat → List K) : Nat → K := fun i =>
  if p.checkTerrainConn ∧ i = middle ∧ elev middle = [] then vehicle.z + p.terrainUnderVehicle
  else planarVoxelElev p (elev i)

/-! ## The search from under the vehicle -/

/-- The cells that a cell looks at. -/
def around (f : Nat) : List Nat := Grid.square 101 10 (f / 101 : Nat) (f % 101 : Nat)

/-- Ground that can be driven onto. -/
def Joins (elev : Nat → List K) (z : Nat → K) (f c : Nat) : Prop := elev c ≠ [] ∧ |z f - z c| < p.terrainConnThre

/-- A ceiling, or a floor that is too far below. -/
def Bars (elev : Nat → List K) (z : Nat → K) (f c : Nat) : Prop := elev c ≠ [] ∧ |z f - z c| > p.ceilingFilteringThre

instance (elev : Nat → List K) (z : Nat → K) : DecidableRel (Joins p elev z) := fun _ _ =>
  inferInstanceAs (Decidable (_ ∧ _))

instance (elev : Nat → List K) (z : Nat → K) : DecidableRel (Bars p elev z) := fun _ _ =>
  inferInstanceAs (Decidable (_ ∧ _))

/-- `planarVoxelConn`: no mark is 0, queued 1, done 2 and barred -1.  No search has been made if it is not asked for. -/
def planarVoxelConn (elev : Nat → List K) (z : Nat → K) : Option (Nat → Flood.Mark) :=
  if p.checkTerrainConn then
    (Flood.fill around (Joins p elev z) (Bars p elev z) middle (2 * (101 * 101) + 1)).map (·.mark)
  else some fun _ => .unseen

/-! ## What is published -/

/-- The terrain map beyond `localTerrainMapRadius`. -/
def terrainCloudElev (vehicle : Vehicle K) (z : Nat → K) (conn : Nat → Flood.Mark) (terrainCloud : List (PointXYZI K)) :
    List (PointXYZI K) :=
  terrainCloud.filterMap fun point =>
    if looked lib p vehicle point ∧ vehicle.dis lib point > p.localTerrainMapRadius then
      match planarInd layout vehicle point with
      | none => none
      | some ind =>
        let disZ := |point.z - z ind|
        if disZ < p.vehicleHeight ∧ (conn ind = .done ∨ ¬ p.checkTerrainConn) then some { point with intensity := disZ }
        else none
    else none

/-- What is published for a terrain cloud; `none` is a search that does not end. -/
def published (n : Node K) (terrainCloud : List (PointXYZI K)) : Option (List (PointXYZI K)) := do
  let elev := planarPointElev layout (looked lib p n.vehicle) n.vehicle terrainCloud
  let z := planarVoxelElevs p n.vehicle elev
  let conn ← planarVoxelConn p elev z
  some (terrainCloudElev lib p n.vehicle z conn terrainCloud ++
    n.terrainCloudLocal.filter fun point => n.vehicle.dis lib point ≤ p.localTerrainMapRadius)

/-- What `rclcpp` hands to the node, and a round of the loop. -/
inductive Event (K : Type)
  | odometry (vehicle : Vehicle K)
  | laserCloud (stamp : K) (cloud : List (PointXYZI K))
  | terrainCloudLocal (cloud : List (PointXYZI K))
  | joystick (pressed : Bool)
  | clearing (dis : K)
  | round

/-- A round of the loop with a new scan. -/
def round (n : Node K) : Option (Node K × List (PointXYZI K)) := do
  let voxels ← n.voxels.scan lib layout p.toStoreParams grid n.vehicle (n.laserCloudTime - n.systemInitTime)
    n.clearingDis n.clearingCloud n.laserCloudCrop
  let n := { n with newlaserCloud := false, voxels := voxels }
  let cloud ← published lib p n (voxels.terrainCloud layout)
  some ({ n with clearingCloud := false }, cloud)

/-- The node; it says the clouds that it publishes. -/
def node : Machine (Node K) (Event K) (List (PointXYZI K)) where
  step n
    | .odometry vehicle => some (odometryHandler n vehicle, [])
    | .laserCloud stamp cloud => some (laserCloudHandler lib p n stamp cloud, [])
    | .terrainCloudLocal cloud => some (terrainCloudLocalHandler n cloud, [])
    | .joystick pressed => some (joystickHandler n pressed, [])
    | .clearing dis => some (clearingHandler n dis, [])
    | .round => if n.newlaserCloud then (round lib grid p n).map fun r => (r.1, [r.2]) else some (n, [])

/-- The node before its first message. -/
def Node.init (clearingDis : K) : Node K where
  vehicle := ⟨0, 0, 0, 0, 0, 0⟩
  laserCloudTime := 0
  newlaserCloud := false
  systemInitTime := 0
  systemInited := false
  clearingDis := clearingDis
  clearingCloud := false
  laserCloudCrop := []
  terrainCloudLocal := []
  voxels := Voxels.init

end Node
end TerrainExt
end LfSentry
