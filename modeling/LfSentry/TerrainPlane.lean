import LfSentry.Terrain
import Mathlib.Data.List.Sort
/-!
# TerrainPlane — the planar cells of the terrain nodes

Around the vehicle lies a square of finer cells.  Each gathers the heights of the points in it and in the cells next to
it, and takes one of them for the height of the ground.
-/
namespace LfSentry
namespace Terrain

open Vision (Libm toInt)

variable {K : Type} [Field K] [LinearOrder K] [FloorRing K] (lib : Libm K) (L : Layout K)

/-- `indX` of a point. -/
def planarIndX (vehicle : Vehicle K) (point : PointXYZI K) : Int :=
  voxelInd L.planarVoxelSize L.planarVoxelWidth (point.x - vehicle.x)

/-- `indY` of a point. -/
def planarIndY (vehicle : Vehicle K) (point : PointXYZI K) : Int :=
  voxelInd L.planarVoxelSize L.planarVoxelWidth (point.y - vehicle.y)

/-- The planar cell of a point, if it lies in the square. -/
def planarInd (vehicle : Vehicle K) (point : PointXYZI K) : Option Nat :=
  let indX := planarIndX L vehicle point
  let indY := planarIndY L vehicle point
  if 0 ≤ indX ∧ indX < L.planarVoxelWidth ∧ 0 ≤ indY ∧ indY < L.planarVoxelWidth then
    some (L.planarVoxelWidth * indX.toNat + indY.toNat)
  else none

/-- The loops over `dX` and `dY` for one point. -/
def pushElev (vehicle : Vehicle K) (elev : Nat → List K) (point : PointXYZI K) : Nat → List K :=
  (Grid.square L.planarVoxelWidth 1 (planarIndX L vehicle point) (planarIndY L vehicle point)).foldl
    (fun elev ind => Function.update elev ind (elev ind ++ [point.z])) elev

/-- `planarPointElev` of the points that are looked at. -/
def planarPointElev (looked : PointXYZI K → Bool) (vehicle : Vehicle K) (terrainCloud : List (PointXYZI K)) :
    Nat → List K :=
  terrainCloud.foldl (fun elev point => if looked point then pushElev L vehicle elev point else elev) fun _ => []

/-- `quantileID`. -/
def quantileID (quantileZ : K) (size : Nat) : Nat :=
  let id := toInt (quantileZ * size)
  if id < 0 then 0 else if id ≥ size then size - 1 else id.toNat

/-- The lowest height, as the loop without sorting finds it: nothing from 1000 on counts. -/
def lowest (elev : List K) : Option K :=
  (elev.foldl (fun (m : K × Option K) z => if z < m.1 then (z, some z) else m) (1000.0, none)).2

end Terrain
end LfSentry
