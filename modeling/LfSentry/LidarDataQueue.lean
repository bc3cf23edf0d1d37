import LfSentry.Ring
/-!
# LidarDataQueue — the queue between the lidar's callbacks and the publisher (`ldq.h`, `ldq.cpp`)

The points of a packet are `P`.  A queue that has not been initialised has no storage.
-/
namespace LfSentry
namespace Livox

/-- `StoragePacket`, without the kind and the handle, which the queue does not store. -/
structure StoragePacket (P : Type) where
  baseTime : Nat
  pointsNum : Nat
  points : List P

/-- A packet that has not been written. -/
def StoragePacket.empty {P : Type} : StoragePacket P := ⟨0, 0, []⟩

/-- `PointPacket` with its base time; it points to as many points as `points_num` says. -/
structure PointPacket (P : Type) where
  baseTime : Nat
  points : List P

/-- `LidarDataQueue`. -/
structure LidarDataQueue (P : Type) where
  storagePacket : Option (Nat → StoragePacket P)
  rdIdx : UInt32
  wrIdx : UInt32
  mask : UInt32
  size : UInt32

section Size

/-- `IsPowerOf2`. -/
def isPowerOf2 (size : UInt32) : Bool := size ≠ 0 ∧ size &&& (size - 1) = 0

/-- `RoundupPowerOf2`, from the bit that the loop has come to. -/
def roundupFrom (size : UInt32) (i : Nat) : Nat → UInt32
  | 0 => (1 : UInt32) <<< UInt32.ofNat (i - 1)
  | fuel + 1 => if size ≤ (1 : UInt32) <<< UInt32.ofNat i then (1 : UInt32) <<< UInt32.ofNat i else roundupFrom size (i + 1) fuel

/-- `RoundupPowerOf2`. -/
def roundupPowerOf2 (size : UInt32) : UInt32 := roundupFrom size 0 32

/-- The size that `InitQueue` gives the queue. -/
def initSize (queueSize : UInt32) : UInt32 := if isPowerOf2 queueSize then queueSize else roundupPowerOf2 queueSize

end Size

namespace LidarDataQueue

variable {P : Type} (queue : LidarDataQueue P)

/-- A queue after `DeInitQueue`. -/
def deInit : LidarDataQueue P := ⟨none, 0, 0, 0, 0⟩

/-- `InitQueue`, first the storage. -/
def alloc : LidarDataQueue P := { queue with storagePacket := some fun _ => StoragePacket.empty }

/-- `QueueUsedSize`. -/
def usedSize : UInt32 := queue.wrIdx - queue.rdIdx

/-- `QueueIsFull`. -/
def isFull : Bool := queue.wrIdx - queue.rdIdx > queue.mask

/-- `QueueIsEmpty`. -/
def isEmpty : Bool := queue.rdIdx = queue.wrIdx

/-- A slot. -/
def slot (i : Nat) : StoragePacket P :=
  match queue.storagePacket with
  | none => StoragePacket.empty
  | some storagePacket => storagePacket i

/-- The slot that is written next. -/
def wrSlot : StoragePacket P := queue.slot (queue.wrIdx &&& queue.mask).toNat

/-- The slot that is read next. -/
def rdSlot : StoragePacket P := queue.slot (queue.rdIdx &&& queue.mask).toNat

/-- Writes to the slot that is written next. -/
def write (packet : StoragePacket P) : LidarDataQueue P :=
  { queue with storagePacket := some (Function.update queue.slot (queue.wrIdx &&& queue.mask).toNat packet) }

/-- `queue->wr_idx++`. -/
def bump : LidarDataQueue P := { queue with wrIdx := queue.wrIdx + 1 }

/-- `QueuePopUpdate`. -/
def popUpdate : LidarDataQueue P := { queue with rdIdx := queue.rdIdx + 1 }

/-- What the queue holds, the oldest first. -/
def contents : List (StoragePacket P) :=
  (List.range queue.usedSize.toNat).map fun i => queue.slot ((queue.rdIdx + UInt32.ofNat i) &&& queue.mask).toNat

end LidarDataQueue
end Livox
end LfSentry
