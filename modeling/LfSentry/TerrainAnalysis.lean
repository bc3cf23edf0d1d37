import LfSentry.Runs
import LfSentry.TerrainPlane
/-!
# TerrainAnalysis — the node that publishes the terrain near the vehicle (`terrainAnalysis.cpp`)

The handlers of the messages keep the pose and the last scan; the loop of `main` takes up a new scan, estimates the ground
and publishes the points above it with their height as intensity, and blocks where there is no data.
-/
namespace LfSentry
namespace TerrainAnalysis

open Vision (Libm toInt)
open Terrain

/-- The parameters. -/
structure Params (K : Type) extends StoreParams K where
  useSorting : Bool
  quantileZ : K
  considerDrop : Bool
  limitGroundLift : Bool
  maxGroundLift : K
  clearDyObs : Bool
  minDyObsDis : K
  minDyObsAngle : K
  minDyObsRelZ : K
  absDyObsRelZThre : K
  minDyObsVFOV : K
  maxDyObsVFOV : K
  minDyObsPointNum : Int
  noDataObstacle : Bool
  noDataBlockSkipNum : Int
  minBlockPointNum : Int
  vehicleHeight : K

/-- The variables that the handlers and the loop share. -/
structure Node (K : Type) where
  vehicle : Vehicle K
  laserCloudTime : K
  newlaserCloud : Bool
  systemInitTime : K
  systemInited : Bool
  noDataInited : Nat
  vehicleXRec : K
  vehicleYRec : K
  clearingDis : K
  clearingCloud : Bool
  laserCloudCrop : List (PointXYZI K)
  voxels : Voxels K

section Node

variable {K : Type} [Field K] [LinearOrder K] [FloorRing K] (lib : Libm K) (grid : VoxelGrid K) (p : Params K)

/-- The constants of this node. -/
def layout : Layout K where
  terrainVoxelSize := 1.0
  terrainVoxelWidth := 21
  terrainWindow := 5
  planarVoxelSize := 0.2
  planarVoxelWidth := 51

/-- The values that the parameters have when nothing else is given. -/
def defaults : Params K where
  minRelZ := -1.5
  maxRelZ := 0.2
  disRatioZ := 0.2
  decayTime := 2.0
  noDecayDis := 4.0
  voxelPointUpdateThre := 100
  voxelTimeUpdateThre := 2.0
  useSorting := true
  quantileZ := 0.25
  considerDrop := false
  limitGroundLift := false
  maxGroundLift := 0.15
  clearDyObs := false
  minDyObsDis := 0.3
  minDyObsAngle := 0
  minDyObsRelZ := -0.5
  absDyObsRelZThre := 0.2
  minDyObsVFOV := -16.0
  maxDyObsVFOV := 16.0
  minDyObsPointNum := 1
  noDataObstacle := false
  noDataBlockSkipNum := 0
  minBlockPointNum := 10
  vehicleHeight := 1.5

/-! ## The handlers -/

/-- `odometryHandler`; `noDataInited` notes where the vehicle was and when it has gone far enough. -/
def odometryHandler (n : Node K) (vehicle : Vehicle K) : Node K :=
  let n := { n with vehicle := vehicle }
  let n := if n.noDataInited = 0 then
    { n with vehicleXRec := vehicle.x, vehicleYRec := vehicle.y, noDataInited := 1 } else n
  if n.noDataInited = 1 then
    let dis := lib.sqrt ((vehicle.x - n.vehicleXRec) * (vehicle.x - n.vehicleXRec) +
      (vehicle.y - n.vehicleYRec) * (vehicle.y - n.vehicleYRec))
    if dis ≥ p.noDecayDis then { n with noDataInited := 2 } else n
  else n

/-- `laserCloudHandler`. -/
def laserCloudHandler (n : Node K) (stamp : K) (laserCloud : List (PointXYZI K)) : Node K :=
  let n := { n with laserCloudTime := stamp }
  let n := if n.systemInited then n else { n with systemInitTime := stamp, systemInited := true }
  { n with
    laserCloudCrop := crop lib layout p.toStoreParams n.vehicle (n.laserCloudTime - n.systemInitTime) laserCloud
    newlaserCloud := true }

/-- `joystickHandler`, by whether the button is pressed. -/
def joystickHandler (n : Node K) (pressed : Bool) : Node K :=
  if pressed then { n with noDataInited := 0, clearingCloud := true } else n

/-- `clearingHandler`. -/
def clearingHandler (n : Node K) (dis : K) : Node K :=
  { n with noDataInited := 0, clearingDis := dis, clearingCloud := true }

/-! ## The ground -/

/-- The points whose heights count for the ground. -/
def looked (vehicle : Vehicle K) (point : PointXYZI K) : Bool :=
  point.z - vehicle.z > p.minRelZ ∧ point.z - vehicle.z < p.maxRelZ

/-- `atan2` in degrees. -/
def degrees (y x : K) : K := lib.atan2 y x * 180.0 / lib.pi

/-- Whether a point of the terrain cloud that is not too close speaks for something that moves: it is high enough and, seen
from the tilted sensor, in its field of view. -/
def seenMoving (vehicle : Vehicle K) (x1 y1 z1 dis1 : K) : Prop :=
  let x2 := x1 * lib.cos vehicle.yaw + y1 * lib.sin vehicle.yaw
  let y2 := -x1 * lib.sin vehicle.yaw + y1 * lib.cos vehicle.yaw
  let x3 := x2 * lib.cos vehicle.pitch - z1 * lib.sin vehicle.pitch
  let z3 := x2 * lib.sin vehicle.pitch + z1 * lib.cos vehicle.pitch
  let y4 := y2 * lib.cos vehicle.roll + z3 * lib.sin vehicle.roll
  let z4 := -y2 * lib.sin vehicle.roll + z3 * lib.cos vehicle.roll
  let angle4 := degrees lib z4 (lib.sqrt (x3 * x3 + y4 * y4))
  degrees lib (z1 - p.minDyObsRelZ) dis1 > p.minDyObsAngle ∧
    ((angle4 > p.minDyObsVFOV ∧ angle4 < p.maxDyObsVFOV) ∨ |z4| < p.absDyObsRelZThre)

instance (vehicle : Vehicle K) (x1 y1 z1 dis1 : K) : Decidable (seenMoving lib p vehicle x1 y1 z1 dis1) :=
  inferInstanceAs (Decidable (_ ∧ _))

/-- What a point of the terrain cloud adds to `planarVoxelDyObs`. -/
def countDyObs (vehicle : Vehicle K) (dyObs : Nat → Int) (point : PointXYZI K) : Nat → Int :=
  match planarInd layout vehicle point with
  | none => dyObs
  | some ind =>
    let x1 := point.x - vehicle.x
    let y1 := point.y - vehicle.y
    let z1 := point.z - vehicle.z
    let dis1 := lib.sqrt (x1 * x1 + y1 * y1)
    if dis1 > p.minDyObsDis then
      if seenMoving lib p vehicle x1 y1 z1 dis1 then Function.update dyObs ind (dyObs ind + 1) else dyObs
    else Function.update dyObs ind (dyObs ind + p.minDyObsPointNum)

/-- A point of the scan that is there now: what is counted in its cell is no longer taken for something that has gone. -/
def resetDyObs (vehicle : Vehicle K) (dyObs : Nat → Int) (point : PointXYZI K) : Nat → Int :=
  match planarInd layout vehicle point with
  | none => dyObs
  | some ind =>
    let x1 := point.x - vehicle.x
    let y1 := point.y - vehicle.y
    let z1 := point.z - vehicle.z
    let dis1 := lib.sqrt (x1 * x1 + y1 * y1)
    if degrees lib (z1 - p.minDyObsRelZ) dis1 > p.minDyObsAngle then Function.update dyObs ind 0 else dyObs

/-- `planarVoxelDyObs`. -/
def planarVoxelDyObs (vehicle : Vehicle K) (terrainCloud laserCloudCrop : List (PointXYZI K)) : Nat → Int :=
  if p.clearDyObs then
    laserCloudCrop.foldl (resetDyObs lib p vehicle) (terrainCloud.foldl (countDyObs lib p vehicle) fun _ => 0)
  else fun _ => 0

/-- `planarVoxelElev` of a cell, by the heights gathered for it. -/
def planarVoxelElev (elev : List K) : K :=
  if p.useSorting then
    match elev.insertionSort (· ≤ ·) with
    | [] => 0
    | first :: rest =>
      let z := (first :: rest).getD (quantileID p.quantileZ elev.length) 0
      if z > first + p.maxGroundLift ∧ p.limitGroundLift then first + p.maxGroundLift else z
  else (lowest elev).getD 0

/-- `terrainCloudElev`: the points above the ground, with their height. -/
def terrainCloudElev (vehicle : Vehicle K) (elev : Nat → List K) (dyObs : Nat → Int) (terrainCloud : List (PointXYZI K)) :
    List (PointXYZI K) :=
  terrainCloud.filterMap fun point =>
    if looked p vehicle point then
      match planarInd layout vehicle point with
      | none => none
      | some ind =>
        if dyObs ind < p.minDyObsPointNum ∨ ¬ p.clearDyObs then
          let disZ := point.z - planarVoxelElev p (elev ind)
          let disZ := if p.considerDrop then |disZ| else disZ
          if disZ ≥ 0 ∧ disZ < p.vehicleHeight ∧ ((elev ind).length : Int) ≥ p.minBlockPointNum then
            some { point with intensity := disZ }
          else none
        else none
    else none

/-! ## Blocks where there is no data -/

/-- One cell of the loop that counts `planarVoxelEdge` up. -/
def countEdge (width : Nat) (edge : Nat → Int) (i : Nat) : Nat → Int :=
  if edge i ≥ 1 then
    let edgeVoxel := (Grid.square width 1 (i / width : Nat) (i % width : Nat)).any fun j => edge j < edge i
    if edgeVoxel then edge else Function.update edge i (edge i + 1)
  else edge

/-- `planarVoxelEdge`. -/
def planarVoxelEdge (width : Nat) (elev : Nat → List K) : Nat → Int :=
  let cells := List.range (width * width)
  (fun edge => cells.foldl (countEdge width) edge)^[p.noDataBlockSkipNum.toNat]
    (cells.foldl (fun edge i => if ((elev i).length : Int) < p.minBlockPointNum then Function.update edge i 1 else edge)
      fun _ => 0)

/-- The four points that stand for a cell. -/
def blockPoints (L : Layout K) (vehicle : Vehicle K) (i : Nat) : List (PointXYZI K) :=
  let s := L.planarVoxelSize
  let x := s * ((i / L.planarVoxelWidth : Nat) - halfWidth L.planarVoxelWidth) + vehicle.x - s / 4.0
  let y := s * ((i % L.planarVoxelWidth : Nat) - halfWidth L.planarVoxelWidth) + vehicle.y - s / 4.0
  [⟨x, y, vehicle.z, p.vehicleHeight⟩, ⟨x + s / 2.0, y, vehicle.z, p.vehicleHeight⟩,
    ⟨x + s / 2.0, y + s / 2.0, vehicle.z, p.vehicleHeight⟩,
    ⟨x + s / 2.0 - s / 2.0, y + s / 2.0, vehicle.z, p.vehicleHeight⟩]

/-- The cells that get blocks. -/
def blockedCells (width : Nat) (elev : Nat → List K) : List Nat :=
  (List.range (width * width)).filter fun i => planarVoxelEdge p width elev i > p.noDataBlockSkipNum

/-! ## The loop of `main` -/

/-- What is published for a terrain cloud. -/
def published (n : Node K) (terrainCloud : List (PointXYZI K)) : List (PointXYZI K) :=
  let elev := planarPointElev layout (looked p n.vehicle) n.vehicle terrainCloud
  let dyObs := planarVoxelDyObs lib p n.vehicle terrainCloud n.laserCloudCrop
  let above := terrainCloudElev p n.vehicle elev dyObs terrainCloud
  if p.noDataObstacle ∧ n.noDataInited = 2 then
    above ++ (blockedCells p (layout (K := K)).planarVoxelWidth elev).flatMap (blockPoints p layout n.vehicle)
  else above

/-- What `rclcpp` hands to the node, and a round of the loop. -/
inductive Event (K : Type)
  | odometry (vehicle : Vehicle K)
  | laserCloud (stamp : K) (cloud : List (PointXYZI K))
  | joystick (pressed : Bool)
  | clearing (dis : K)
  | round

/-- A round of the loop with a new scan. -/
def round (n : Node K) : Option (Node K × List (PointXYZI K)) := do
  let voxels ← n.voxels.scan lib layout p.toStoreParams grid n.vehicle (n.laserCloudTime - n.systemInitTime)
    n.clearingDis n.clearingCloud n.laserCloudCrop
  let n := { n with newlaserCloud := false, voxels := voxels }
  some ({ n with clearingCloud := false }, published lib p n (voxels.terrainCloud layout))

/-- The node; it says the clouds that it publishes. -/
def node : Machine (Node K) (Event K) (List (PointXYZI K)) where
  step n
    | .odometry vehicle => some (odometryHandler lib p n vehicle, [])
    | .laserCloud stamp cloud => some (laserCloudHandler lib p n stamp cloud, [])
    | .joystick pressed => some (joystickHandler n pressed, [])
    | .clearing dis => some (clearingHandler n dis, [])
    | .round => if n.newlaserCloud then (round lib grid p n).map fun r => (r.1, [r.2]) else some (n, [])

/-- The node before its first message. -/
def Node.init (clearingDis : K) : Node K where
  vehicle := ⟨0, 0, 0, 0, 0, 0⟩
  laserCloudTime := 0
  newlaserCloud := false
  systemInitTime := 0
  systemInited := false
  noDataInited := 0
  vehicleXRec := 0
  vehicleYRec := 0
  clearingDis := clearingDis
  clearingCloud := false
  laserCloudCrop := []
  voxels := Voxels.init

end Node
end TerrainAnalysis
end LfSentry
