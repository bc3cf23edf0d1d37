import LfSentry.Aimer
import LfSentry.Grid
import LfSentry.WhileLoop
import Mathlib.Logic.Function.Basic
/-!
# Terrain — the rolling voxel store of the two terrain nodes (`terrainAnalysis.cpp`, `terrainAnalysisExt.cpp`)

Both nodes keep the scans of the last seconds in a square of cells that rolls along with the vehicle.  The array holds
pointers to clouds: when the square rolls, the pointers move, and the clouds that leave on one side come back emptied on
the other.  The two nodes differ in their constants (`Layout`) and in the names of their parameters.  Floats are exact.
-/
namespace LfSentry
namespace Terrain

open Vision (Libm toInt)

/-- `pcl::PointXYZI`. -/
structure PointXYZI (K : Type) where
  x : K
  y : K
  z : K
  intensity : K
  deriving DecidableEq, Repr

/-- The constants of a node; `terrainWindow` is how far from the middle the terrain cloud is taken. -/
structure Layout (K : Type) where
  terrainVoxelSize : K
  terrainVoxelWidth : Nat
  terrainWindow : Nat
  planarVoxelSize : K
  planarVoxelWidth : Nat

/-- The parameters of the store; `minRelZ` and `maxRelZ` are called `lowerBoundZ` and `upperBoundZ` in the second node. -/
structure StoreParams (K : Type) where
  minRelZ : K
  maxRelZ : K
  disRatioZ : K
  decayTime : K
  noDecayDis : K
  voxelPointUpdateThre : Int
  voxelTimeUpdateThre : K

/-- `vehicleX` and so on. -/
structure Vehicle (K : Type) where
  x : K
  y : K
  z : K
  roll : K
  pitch : K
  yaw : K

/-- `terrainVoxelCloud` (pointers), the clouds they point to, and what is counted for each place of the array. -/
structure Voxels (K : Type) where
  terrainVoxelCloud : Nat → Nat
  clouds : Nat → List (PointXYZI K)
  terrainVoxelUpdateNum : Nat → Int
  terrainVoxelUpdateTime : Nat → K
  terrainVoxelShiftX : Int
  terrainVoxelShiftY : Int

/-- `pcl::VoxelGrid`: what it makes of a cloud are centroids, which lie between the points they stand for. -/
structure VoxelGrid (K : Type) [LE K] where
  filter : List (PointXYZI K) → List (PointXYZI K)
  x_mem : ∀ cloud lo hi, (∀ p ∈ cloud, lo ≤ p.x ∧ p.x ≤ hi) → ∀ q ∈ filter cloud, lo ≤ q.x ∧ q.x ≤ hi
  y_mem : ∀ cloud lo hi, (∀ p ∈ cloud, lo ≤ p.y ∧ p.y ≤ hi) → ∀ q ∈ filter cloud, lo ≤ q.y ∧ q.y ≤ hi

/-- `(width - 1) / 2`. -/
def halfWidth (width : Nat) : Nat := (width - 1) / 2

namespace Voxels

variable {K : Type} (v : Voxels K) (w : Nat)

/-- What lies in a cell of the array. -/
def content (x y : Nat) : List (PointXYZI K) := v.clouds (v.terrainVoxelCloud (w * x + y))

def setPtr (ind ptr : Nat) : Voxels K := { v with terrainVoxelCloud := Function.update v.terrainVoxelCloud ind ptr }

/-- `clear()` of the cloud that a place of the array points to. -/
def clear (ind : Nat) : Voxels K :=
  { v with clouds := Function.update v.clouds (v.terrainVoxelCloud ind) [] }

/-- The last cloud of a line comes to its front, emptied, and the others move up. -/
def lastToFront (line : Nat → Nat) : Voxels K :=
  let ptr := v.terrainVoxelCloud (line (w - 1))
  let v := (List.range (w - 1)).reverse.foldl (fun v k => v.setPtr (line (k + 1)) (v.terrainVoxelCloud (line k))) v
  (v.setPtr (line 0) ptr).clear (line 0)

/-- The first cloud of a line comes to its end, emptied, and the others move down. -/
def frontToLast (line : Nat → Nat) : Voxels K :=
  let ptr := v.terrainVoxelCloud (line 0)
  let v := (List.range (w - 1)).foldl (fun v k => v.setPtr (line k) (v.terrainVoxelCloud (line (k + 1)))) v
  (v.setPtr (line (w - 1)) ptr).clear (line (w - 1))

/-- The body of the first loop of the roll over. -/
def rollXDown : Voxels K :=
  let v := (List.range w).foldl (fun v indY => v.lastToFront w fun indX => w * indX + indY) v
  { v with terrainVoxelShiftX := v.terrainVoxelShiftX - 1 }

def rollXUp : Voxels K :=
  let v := (List.range w).foldl (fun v indY => v.frontToLast w fun indX => w * indX + indY) v
  { v with terrainVoxelShiftX := v.terrainVoxelShiftX + 1 }

def rollYDown : Voxels K :=
  let v := (List.range w).foldl (fun v indX => v.lastToFront w fun indY => w * indX + indY) v
  { v with terrainVoxelShiftY := v.terrainVoxelShiftY - 1 }

def rollYUp : Voxels K :=
  let v := (List.range w).foldl (fun v indX => v.frontToLast w fun indY => w * indX + indY) v
  { v with terrainVoxelShiftY := v.terrainVoxelShiftY + 1 }

end Voxels

section Store

variable {K : Type} [Field K] [LinearOrder K] [FloorRing K] (lib : Libm K) (L : Layout K) (p : StoreParams K)

/-- How far a point is from the vehicle in the plane. -/
def Vehicle.dis (vehicle : Vehicle K) (point : PointXYZI K) : K :=
  lib.sqrt ((point.x - vehicle.x) * (point.x - vehicle.x) + (point.y - vehicle.y) * (point.y - vehicle.y))

/-- The band of heights that widens with the distance. -/
def InBand (vehicle : Vehicle K) (point : PointXYZI K) : Prop :=
  point.z - vehicle.z > p.minRelZ - p.disRatioZ * vehicle.dis lib point ∧
    point.z - vehicle.z < p.maxRelZ + p.disRatioZ * vehicle.dis lib point

instance (vehicle : Vehicle K) (point : PointXYZI K) : Decidable (InBand lib p vehicle point) :=
  inferInstanceAs (Decidable (_ ∧ _))

/-- The cell of a coordinate relative to the vehicle: the middle cell is around the vehicle. -/
def voxelInd (size : K) (width : Nat) (d : K) : Int :=
  let ind := toInt ((d + size / 2.0) / size) + halfWidth width
  if d + size / 2.0 < 0 then ind - 1 else ind

/-- `laserCloudCrop` of a scan, whose points carry their time. -/
def crop (vehicle : Vehicle K) (time : K) (laserCloud : List (PointXYZI K)) : List (PointXYZI K) :=
  laserCloud.filterMap fun point =>
    if InBand lib p vehicle point ∧ vehicle.dis lib point < L.terrainVoxelSize * (halfWidth L.terrainVoxelWidth + 1) then
      some { point with intensity := time }
    else none

/-- As many rounds as the roll over can need for a coordinate. -/
def rounds (at' : K) (shift : Int) : Nat := (⌈|at' - L.terrainVoxelSize * shift| / L.terrainVoxelSize⌉).toNat

/-- The four loops of the roll over; `none` is a loop that does not end. -/
def rollOver (vehicle : Vehicle K) (v : Voxels K) : Option (Voxels K) := do
  let s := L.terrainVoxelSize
  let w := L.terrainVoxelWidth
  let v ← whileLoop (fun v : Voxels K => vehicle.x - s * v.terrainVoxelShiftX < -s) (Voxels.rollXDown · w)
    (rounds L vehicle.x v.terrainVoxelShiftX) v
  let v ← whileLoop (fun v : Voxels K => vehicle.x - s * v.terrainVoxelShiftX > s) (Voxels.rollXUp · w)
    (rounds L vehicle.x v.terrainVoxelShiftX) v
  let v ← whileLoop (fun v : Voxels K => vehicle.y - s * v.terrainVoxelShiftY < -s) (Voxels.rollYDown · w)
    (rounds L vehicle.y v.terrainVoxelShiftY) v
  whileLoop (fun v : Voxels K => vehicle.y - s * v.terrainVoxelShiftY > s) (Voxels.rollYUp · w)
    (rounds L vehicle.y v.terrainVoxelShiftY) v

/-- A point of the scan goes into its cell. -/
def stackPoint (vehicle : Vehicle K) (v : Voxels K) (point : PointXYZI K) : Voxels K :=
  let w := L.terrainVoxelWidth
  let indX := voxelInd L.terrainVoxelSize w (point.x - vehicle.x)
  let indY := voxelInd L.terrainVoxelSize w (point.y - vehicle.y)
  if 0 ≤ indX ∧ indX < w ∧ 0 ≤ indY ∧ indY < w then
    let ind := w * indX.toNat + indY.toNat
    let ptr := v.terrainVoxelCloud ind
    { v with
      clouds := Function.update v.clouds ptr (v.clouds ptr ++ [point])
      terrainVoxelUpdateNum := Function.update v.terrainVoxelUpdateNum ind (v.terrainVoxelUpdateNum ind + 1) }
  else v

/-- A cell that has many new points or has not been looked at for long is thinned out, and what is old or cleared goes. -/
def refresh (grid : VoxelGrid K) (vehicle : Vehicle K) (time clearingDis : K) (clearingCloud : Bool) (v : Voxels K)
    (ind : Nat) : Voxels K :=
  if v.terrainVoxelUpdateNum ind ≥ p.voxelPointUpdateThre ∨
      time - v.terrainVoxelUpdateTime ind ≥ p.voxelTimeUpdateThre ∨ clearingCloud then
    let ptr := v.terrainVoxelCloud ind
    { v with
      clouds := Function.update v.clouds ptr ((grid.filter (v.clouds ptr)).filter fun point =>
        InBand lib p vehicle point ∧
          (time - point.intensity < p.decayTime ∨ vehicle.dis lib point < p.noDecayDis) ∧
          ¬ (vehicle.dis lib point < clearingDis ∧ clearingCloud))
      terrainVoxelUpdateNum := Function.update v.terrainVoxelUpdateNum ind 0
      terrainVoxelUpdateTime := Function.update v.terrainVoxelUpdateTime ind time }
  else v

/-- The store after a scan: rolled, stacked and refreshed. -/
def Voxels.scan (grid : VoxelGrid K) (vehicle : Vehicle K) (time clearingDis : K) (clearingCloud : Bool)
    (laserCloudCrop : List (PointXYZI K)) (v : Voxels K) : Option (Voxels K) := do
  let v ← rollOver L vehicle v
  let v := laserCloudCrop.foldl (stackPoint L vehicle) v
  some ((List.range (L.terrainVoxelWidth * L.terrainVoxelWidth)).foldl
    (refresh lib p grid vehicle time clearingDis clearingCloud) v)

/-- `terrainCloud`: the cells around the middle. -/
def Voxels.terrainCloud (v : Voxels K) : List (PointXYZI K) :=
  let w := L.terrainVoxelWidth
  let window := (List.range (2 * L.terrainWindow + 1)).map (· + (halfWidth w - L.terrainWindow))
  window.flatMap fun indX => window.flatMap fun indY => v.content w indX indY

/-- The array at the start: every place has a cloud of its own, which is empty. -/
def Voxels.init : Voxels K where
  terrainVoxelCloud := id
  clouds _ := []
  terrainVoxelUpdateNum _ := 0
  terrainVoxelUpdateTime _ := 0
  terrainVoxelShiftX := 0
  terrainVoxelShiftY := 0

end Store
end Terrain
end LfSentry
