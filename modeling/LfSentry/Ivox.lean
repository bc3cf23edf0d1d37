import LfSentry.Nearest
import Mathlib.Algebra.Order.Floor.Defs
import Mathlib.Algebra.Field.Defs
import Mathlib.Data.List.AList
/-!
# Ivox — the voxel map of the lidar odometry (`ivox/ivox3d.h`, `ivox/ivox3d_node.hpp`)

The points of the map lie in cells of equal size.  The cells are the nodes of a `std::list`, the one used last in front,
and a hash map holds for each cell an iterator to its node.  A node keeps its identity while the list changes around it:
it is numbered here, and reading through a number that is no longer in the list is `none`.  Floats are exact.
-/
namespace LfSentry
namespace Ivox

/-- `KeyType`, the cell of a point. -/
structure KeyType where
  x : Int
  y : Int
  z : Int
  deriving DecidableEq, Repr

instance : Add KeyType := ⟨fun a b => ⟨a.x + b.x, a.y + b.y, a.z + b.z⟩⟩

instance : Sub KeyType := ⟨fun a b => ⟨a.x - b.x, a.y - b.y, a.z - b.z⟩⟩

theorem KeyType.add_eq_iff {a b c : KeyType} : a + b = c ↔ b = c - a := by
  constructor
  · rintro rfl
    change b = ⟨a.x + b.x - a.x, a.y + b.y - a.y, a.z + b.z - a.z⟩
    simp
  · rintro rfl
    change (⟨a.x + (c.x - a.x), a.y + (c.y - a.y), a.z + (c.z - a.z)⟩ : KeyType) = c
    simp

/-- `PtType`. -/
structure PtType (K : Type) where
  x : K
  y : K
  z : K
  deriving DecidableEq, Repr

inductive NearbyType
  | center
  | nearby6
  | nearby18
  | nearby26
  deriving DecidableEq, Repr

structure Options (K : Type) where
  resolution : K
  invResolution : K
  nearbyType : NearbyType
  capacity : Nat

/-- `IVoxNode`. -/
structure IVoxNode (P : Type) where
  points : List P
  deriving DecidableEq, Repr

/-- `DistPoint`: a squared distance, the cell (by its node) and the place in the cell. -/
structure DistPoint (K : Type) where
  dist : K
  node : Nat
  idx : Nat
  deriving DecidableEq, Repr

/-- `IVox`; `next` numbers the node that the list makes next. -/
structure IVox (K P : Type) where
  options : Options K
  gridsMap : AList fun _ : KeyType => Nat
  gridsCache : AList fun _ : Nat => KeyType × IVoxNode P
  next : Nat
  nearbyGrids : List KeyType

/-- `GenerateNearbyGrids`. -/
def generateNearbyGrids : NearbyType → List KeyType
  | .center => [⟨0, 0, 0⟩]
  | .nearby6 => [⟨0, 0, 0⟩, ⟨-1, 0, 0⟩, ⟨1, 0, 0⟩, ⟨0, 1, 0⟩, ⟨0, -1, 0⟩, ⟨0, 0, -1⟩, ⟨0, 0, 1⟩]
  | .nearby18 => [⟨0, 0, 0⟩, ⟨-1, 0, 0⟩, ⟨1, 0, 0⟩, ⟨0, 1, 0⟩, ⟨0, -1, 0⟩, ⟨0, 0, -1⟩, ⟨0, 0, 1⟩, ⟨1, 1, 0⟩,
      ⟨-1, 1, 0⟩, ⟨1, -1, 0⟩, ⟨-1, -1, 0⟩, ⟨1, 0, 1⟩, ⟨-1, 0, 1⟩, ⟨1, 0, -1⟩, ⟨-1, 0, -1⟩, ⟨0, 1, 1⟩,
      ⟨0, -1, 1⟩, ⟨0, 1, -1⟩, ⟨0, -1, -1⟩]
  | .nearby26 => [⟨0, 0, 0⟩, ⟨-1, 0, 0⟩, ⟨1, 0, 0⟩, ⟨0, 1, 0⟩, ⟨0, -1, 0⟩, ⟨0, 0, -1⟩, ⟨0, 0, 1⟩, ⟨1, 1, 0⟩,
      ⟨-1, 1, 0⟩, ⟨1, -1, 0⟩, ⟨-1, -1, 0⟩, ⟨1, 0, 1⟩, ⟨-1, 0, 1⟩, ⟨1, 0, -1⟩, ⟨-1, 0, -1⟩, ⟨0, 1, 1⟩,
      ⟨0, -1, 1⟩, ⟨0, 1, -1⟩, ⟨0, -1, -1⟩, ⟨1, 1, 1⟩, ⟨-1, 1, 1⟩, ⟨1, -1, 1⟩, ⟨1, 1, -1⟩, ⟨-1, -1, 1⟩,
      ⟨-1, 1, -1⟩, ⟨1, -1, -1⟩, ⟨-1, -1, -1⟩]

section Map

variable {K P : Type}

/-- The constructor. -/
def IVox.construct [One K] [Div K] (o : Options K) : IVox K P where
  options := { o with invResolution := 1 / o.resolution }
  gridsMap := ∅
  gridsCache := ∅
  next := 0
  nearbyGrids := generateNearbyGrids o.nearbyType

/-- `InsertPoint`. -/
def IVoxNode.insertPoint (node : IVoxNode P) (pt : P) : IVoxNode P := ⟨node.points ++ [pt]⟩

namespace IVox

variable (s : IVox K P)

/-- `grids_cache_.push_front`. -/
def pushFront (key : KeyType) (node : IVoxNode P) : IVox K P :=
  { s with gridsCache := s.gridsCache.insert s.next (key, node), next := s.next + 1 }

/-- `grids_cache_.begin()`. -/
def begin : Option Nat := s.gridsCache.entries.head?.map Sigma.fst

/-- `iter->second->second.InsertPoint`: the node changes where it is. -/
def insertAt (it : Nat) (pt : P) : Option (IVox K P) :=
  (s.gridsCache.lookup it).map fun cell =>
    { s with gridsCache := s.gridsCache.replace it (cell.1, cell.2.insertPoint pt) }

/-- `grids_cache_.splice` of one node to the front. -/
def splice (it : Nat) : Option (IVox K P) :=
  (s.gridsCache.lookup it).map fun cell => { s with gridsCache := s.gridsCache.insert it cell }

/-- `grids_map_.erase(grids_cache_.back().first)` and `grids_cache_.pop_back()`. -/
def evict : Option (IVox K P) :=
  s.gridsCache.entries.getLast?.map fun last =>
    { s with
      gridsMap := s.gridsMap.erase last.2.1
      gridsCache := ⟨s.gridsCache.entries.dropLast, s.gridsCache.nodupKeys.sublist (List.dropLast_sublist _)⟩ }

end IVox

section Points

variable [Field K] [LinearOrder K] [FloorRing K] (xyz : P → PtType K)

/-- `Pos2Grid`. -/
def IVox.pos2Grid (s : IVox K P) (pt : PtType K) : KeyType where
  x := ⌊pt.x * s.options.invResolution⌋
  y := ⌊pt.y * s.options.invResolution⌋
  z := ⌊pt.z * s.options.invResolution⌋

/-- The body of `AddPoints`, for one point. -/
def IVox.addPoint (s : IVox K P) (pt : P) : Option (IVox K P) :=
  let key := s.pos2Grid (xyz pt)
  match s.gridsMap.lookup key with
  | none => do
    let s := s.pushFront key ⟨[]⟩
    let it ← s.begin
    let s := { s with gridsMap := s.gridsMap.insert key it }
    let s ← s.insertAt it pt
    if s.options.capacity ≤ s.gridsMap.entries.length then s.evict else some s
  | some it => do
    let s ← s.insertAt it pt
    let s ← s.splice it
    let it ← s.begin
    some { s with gridsMap := s.gridsMap.insert key it }

/-- `AddPoints`. -/
def IVox.addPoints (s : IVox K P) (pointsToAdd : List P) : Option (IVox K P) := pointsToAdd.foldlM (IVox.addPoint xyz) s

/-- `distance2`. -/
def distance2 (a b : PtType K) : K :=
  (a.x - b.x) * (a.x - b.x) + (a.y - b.y) * (a.y - b.y) + (a.z - b.z) * (a.z - b.z)

/-- The points of a cell within range, as `KNNPointByCondition` notes them. -/
def IVoxNode.inRange (node : IVoxNode P) (it : Nat) (point : P) (maxRange : K) : List (DistPoint K) :=
  node.points.zipIdx.filterMap fun p =>
    let d := distance2 (xyz p.1) (xyz point)
    if d < maxRange * maxRange then some ⟨d, it, p.2⟩ else none

/-- `KNNPointByCondition` of the cell in node `it`. -/
def IVoxNode.knnPointByCondition (nth : Nearest.NthElement (DistPoint.dist (K := K))) (node : IVoxNode P) (it : Nat)
    (disPoints : List (DistPoint K)) (point : P) (k : Nat) (maxRange : K) : List (DistPoint K) :=
  let oldSize := disPoints.length
  let disPoints := disPoints ++ node.inRange xyz it point maxRange
  if disPoints.length ≤ oldSize + k then disPoints
  else (disPoints.take oldSize ++ nth.apply (disPoints.drop oldSize) (k - 1)).take (oldSize + k)

/-- `DistPoint::Get`. -/
def IVox.get (s : IVox K P) (d : DistPoint K) : Option P := do
  let cell ← s.gridsCache.lookup d.node
  cell.2.points[d.idx]?

/-- The candidates of the cells around a point. -/
def IVox.candidates (nth : Nearest.NthElement (DistPoint.dist (K := K))) (s : IVox K P) (pt : P) (maxNum : Nat)
    (maxRange : K) : Option (List (DistPoint K)) :=
  s.nearbyGrids.foldlM (fun candidates delta =>
    match s.gridsMap.lookup (s.pos2Grid (xyz pt) + delta) with
    | none => some candidates
    | some it => (s.gridsCache.lookup it).map fun cell =>
      cell.2.knnPointByCondition xyz nth it candidates pt maxNum maxRange) []

/-- `GetClosestPoint` of several points; the inner `none` is its `false`. -/
def IVox.getClosestPoint (nth : Nearest.NthElement (DistPoint.dist (K := K))) (s : IVox K P) (pt : P) (maxNum : Nat)
    (maxRange : K) : Option (Option (List P)) := do
  let candidates ← s.candidates xyz nth pt maxNum maxRange
  if candidates = [] then some none
  else
    let candidates :=
      if candidates.length ≤ maxNum then candidates else (nth.apply candidates (maxNum - 1)).take maxNum
    let closestPt ← (nth.apply candidates 0).mapM s.get
    some (some closestPt)

end Points
end Map
end Ivox
end LfSentry
