import LfSentry.LidarDataQueue
import LfSentry.Runs
/-!
# LivoxDriver — packets from the lidar's callbacks to the publisher (`lds.cpp`, `lddc.cpp`, `semaphore.cpp`)

The callback thread stores a packet (`PushLidarData`) and rings the semaphore, the polling thread waits for it and empties
the queues one lidar after the other.  Nothing but the semaphore is locked: each step below writes one shared variable at
most and reads at most one that the other thread writes, and the two threads take their steps in any order.
-/
namespace LfSentry
namespace Livox

/-- `TransferType`. -/
inductive TransferType
  | pointCloud2Msg
  | livoxCustomMsg
  | pclPxyziMsg
  | allMsg
  deriving DecidableEq

/-- `LidarDevice`, its queue and whether its state is `kConnectStateSampling`. -/
structure LidarDevice (P : Type) where
  data : LidarDataQueue P
  sampling : Bool

/-- Where `PushLidarData` is. -/
inductive Storing (P : Type)
  /-- Not called. -/
  | idle
  /-- Called for a lidar with a packet: is there storage? -/
  | called (index : Nat) (packet : PointPacket P)
  /-- In `InitQueue`, the storage is there and the other members are set. -/
  | zeroRd (index : Nat) (packet : PointPacket P)
  | zeroWr (index : Nat) (packet : PointPacket P)
  | setSize (index : Nat) (packet : PointPacket P)
  | setMask (index : Nat) (packet : PointPacket P)
  /-- `if (!QueueIsFull(queue))`. -/
  | checkFull (index : Nat) (packet : PointPacket P)
  /-- In `QueuePushAny`. -/
  | writeTime (index : Nat) (packet : PointPacket P)
  | writeNum (index : Nat) (packet : PointPacket P)
  | writePoints (index : Nat) (packet : PointPacket P)
  | bump (index : Nat) (packet : PointPacket P)
  /-- `if (!QueueIsEmpty(queue))`. -/
  | checkEmpty (index : Nat)
  /-- `if (pcd_semaphore_.GetCount() <= 0)`. -/
  | checkCount
  /-- `pcd_semaphore_.Signal()`. -/
  | signal

/-- Where the polling thread is. -/
inductive Polling (P : Type)
  /-- About to call `DistributePointCloudData`. -/
  | enter
  /-- `pcd_semaphore_.Wait()`. -/
  | wait
  /-- At this lidar of the loop: is it sampling? -/
  | lidar (i : Nat)
  /-- In `PollingLidarPointCloudData`: is there storage? -/
  | storage (i : Nat)
  /-- `while (!lds_->IsRequestExit() && !QueueIsEmpty(p_queue))`, its first half and its second. -/
  | outer (i : Nat)
  | queued (i : Nat)
  /-- `while (!QueueIsEmpty(queue))` of the function that publishes. -/
  | inner (i : Nat)
  /-- In `QueuePrePop`. -/
  | prePop (i : Nat)
  | readTime (i : Nat)
  | readNum (i : Nat) (baseTime : Nat)
  | readPoints (i : Nat) (baseTime pointsNum : Nat)
  /-- `QueuePopUpdate`. -/
  | update (i : Nat) (pkg : StoragePacket P)
  /-- Popped: is there a point in it? -/
  | publish (i : Nat) (pkg : StoragePacket P)

/-- `Lds` and where the two threads are. -/
structure Lds (P : Type) where
  lidars : Nat → LidarDevice P
  pcdSemaphore : Int
  requestExit : Bool
  storing : Storing P
  polling : Polling P

namespace Lds

variable {P : Type} (s : Lds P)

/-- The queue of a lidar. -/
def queue (i : Nat) : LidarDataQueue P := (s.lidars i).data

/-- A change of the queue of a lidar. -/
def setQueue (i : Nat) (data : LidarDataQueue P) : Lds P :=
  { s with lidars := Function.update s.lidars i { s.lidars i with data := data } }

/-- `Lds::Lds`. -/
def init : Lds P where
  lidars _ := ⟨LidarDataQueue.deInit, false⟩
  pcdSemaphore := 0
  requestExit := false
  storing := .idle
  polling := .enter

end Lds

/-- What goes on: a callback calls `PushLidarData` or finds the lidar sampling, one of the threads takes a step, or the node
asks for the end. -/
inductive Act (P : Type)
  | call (index : Nat) (packet : PointPacket P)
  | store
  | poll
  | sampling (index : Nat)
  | exit

/-- What is noted of a run. -/
inductive Note (P : Type)
  /-- A packet has come into the queue of a lidar. -/
  | stored (index : Nat) (packet : StoragePacket P)
  /-- A packet has been published. -/
  | published (index : Nat) (packet : StoragePacket P)

section Steps

variable {P : Type} (lidarCount : Nat) (queueSize : UInt32) (transferFormat : TransferType) (s : Lds P)

/-- A step of `PushLidarData`. -/
def storeStep : Option (Lds P × List (Note P)) :=
  match s.storing with
  | .idle => none
  | .called i packet =>
    if (s.queue i).storagePacket.isNone then
      some ({ s.setQueue i (s.queue i).alloc with storing := .zeroRd i packet }, [])
    else some ({ s with storing := .checkFull i packet }, [])
  | .zeroRd i packet => some ({ s.setQueue i { s.queue i with rdIdx := 0 } with storing := .zeroWr i packet }, [])
  | .zeroWr i packet => some ({ s.setQueue i { s.queue i with wrIdx := 0 } with storing := .setSize i packet }, [])
  | .setSize i packet =>
    some ({ s.setQueue i { s.queue i with size := initSize queueSize } with storing := .setMask i packet }, [])
  | .setMask i packet =>
    some ({ s.setQueue i { s.queue i with mask := initSize queueSize - 1 } with storing := .checkFull i packet }, [])
  | .checkFull i packet =>
    if (s.queue i).isFull then some ({ s with storing := .checkCount }, [])
    else some ({ s with storing := .writeTime i packet }, [])
  | .writeTime i packet =>
    some ({ s.setQueue i ((s.queue i).write { (s.queue i).wrSlot with baseTime := packet.baseTime }) with
      storing := .writeNum i packet }, [])
  | .writeNum i packet =>
    some ({ s.setQueue i ((s.queue i).write { (s.queue i).wrSlot with pointsNum := packet.points.length }) with
      storing := .writePoints i packet }, [])
  | .writePoints i packet =>
    some ({ s.setQueue i ((s.queue i).write { (s.queue i).wrSlot with points := packet.points }) with
      storing := .bump i packet }, [])
  | .bump i packet =>
    some ({ s.setQueue i (s.queue i).bump with storing := .checkEmpty i },
      [.stored i ⟨packet.baseTime, packet.points.length, packet.points⟩])
  | .checkEmpty i =>
    if (s.queue i).isEmpty then some ({ s with storing := .idle }, [])
    else some ({ s with storing := .checkCount }, [])
  | .checkCount =>
    if s.pcdSemaphore ≤ 0 then some ({ s with storing := .signal }, []) else some ({ s with storing := .idle }, [])
  | .signal => some ({ s with pcdSemaphore := s.pcdSemaphore + 1, storing := .idle }, [])

/-- A step of `DistributePointCloudData`. -/
def pollStep : Option (Lds P × List (Note P)) :=
  match s.polling with
  | .enter => if s.requestExit then some (s, []) else some ({ s with polling := .wait }, [])
  | .wait =>
    if s.pcdSemaphore > 0 then some ({ s with pcdSemaphore := s.pcdSemaphore - 1, polling := .lidar 0 }, []) else none
  | .lidar i =>
    if i < lidarCount then
      if (s.lidars i).sampling then some ({ s with polling := .storage i }, [])
      else some ({ s with polling := .lidar (i + 1) }, [])
    else some ({ s with polling := .enter }, [])
  | .storage i =>
    if (s.queue i).storagePacket.isSome then some ({ s with polling := .outer i }, [])
    else some ({ s with polling := .lidar (i + 1) }, [])
  | .outer i =>
    if s.requestExit then some ({ s with polling := .lidar (i + 1) }, []) else some ({ s with polling := .queued i }, [])
  | .queued i =>
    if (s.queue i).isEmpty then some ({ s with polling := .lidar (i + 1) }, [])
    -- publishing `pcl` messages is not supported: nothing is popped
    else if transferFormat = .pclPxyziMsg then some ({ s with polling := .outer i }, [])
    else some ({ s with polling := .inner i }, [])
  | .inner i =>
    if (s.queue i).isEmpty then some ({ s with polling := .outer i }, []) else some ({ s with polling := .prePop i }, [])
  | .prePop i =>
    -- a packet that could not be popped has no points
    if (s.queue i).isEmpty then some ({ s with polling := .inner i }, []) else some ({ s with polling := .readTime i }, [])
  | .readTime i => some ({ s with polling := .readNum i (s.queue i).rdSlot.baseTime }, [])
  | .readNum i baseTime => some ({ s with polling := .readPoints i baseTime (s.queue i).rdSlot.pointsNum }, [])
  | .readPoints i baseTime pointsNum =>
    some ({ s with polling := .update i ⟨baseTime, pointsNum, (s.queue i).rdSlot.points.take pointsNum⟩ }, [])
  | .update i pkg => some ({ s.setQueue i (s.queue i).popUpdate with polling := .publish i pkg }, [])
  | .publish i pkg =>
    some ({ s with polling := .inner i }, if pkg.points.isEmpty then [] else [.published i pkg])

/-- The driver. -/
def driver : Machine (Lds P) (Act P) (Note P) where
  step s
    | .call i packet =>
      match s.storing with
      | .idle => if i < lidarCount then some ({ s with storing := .called i packet }, []) else none
      | _ => none
    | .store => storeStep queueSize s
    | .poll => pollStep lidarCount transferFormat s
    | .sampling i =>
      some ({ s with lidars := Function.update s.lidars i { s.lidars i with sampling := true } }, [])
    | .exit => some ({ s with requestExit := true }, [])

end Steps
end Livox
end LfSentry
