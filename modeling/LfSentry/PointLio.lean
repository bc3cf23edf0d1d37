import LfSentry.Runs
import Mathlib.Algebra.Order.Field.Basic
import Mathlib.Algebra.Order.Ring.Unbundled.Rat
import Mathlib.Algebra.Order.Group.Abs
/-!
# PointLio — how the lidar odometry feeds its filter (`point_lio/src`)

The callbacks of the lidar and of the IMU fill two queues, and the main loop takes from both: a scan is measured when the
IMU has come as far as its last point (`sync_packages`), and its points go into the filter one time after the other, each
after the samples of the IMU that are older (`laserMapping.cpp`).  The filter and the map are not modelled: what the loop
asks of them is said (`Act`), and no answer of theirs decides what is asked next.  The IMU is on (`imu_en`) and measured
rather than an input of the filter, as in every configuration; frames are neither combined nor cut.  Floats are exact.
-/
namespace LfSentry
namespace Lio

abbrev V3D (K : Type) := Fin 3 → K

/-- `sensor_msgs::msg::Imu`. -/
structure Imu (K : Type) where
  stamp : K
  angularVelocity : V3D K
  linearAcceleration : V3D K

/-- `PointType`; the curvature is the time since the scan began, in milliseconds. -/
structure PointType (K : Type) where
  x : K
  y : K
  z : K
  intensity : K
  curvature : K

/-- `livox_ros_driver2::msg::CustomPoint`. -/
structure CustomPoint (K : Type) where
  offsetTime : UInt32
  x : K
  y : K
  z : K
  reflectivity : UInt8
  tag : UInt8
  line : UInt8

/-- `livox_ros_driver2::msg::CustomMsg`. -/
structure CustomMsg (K : Type) where
  stamp : K
  points : List (CustomPoint K)

/-- A front of `time_buffer` with the one of `lidar_buffer`: they are pushed and popped together. -/
structure Scan (K : Type) where
  begTime : K
  points : List (PointType K)

/-- The parameters. -/
structure Params (K : Type) where
  nScans : Nat
  pointFilterNum : Nat
  blind : K
  detRange : K
  timediffImuWrtLidar : K
  timeLagImuWtrLidar : K
  lidarTimeInte : K
  spaceDownSample : Bool
  initMapSize : Nat
  propAtFreqOfImu : Bool

/-- What the node uses of the point cloud library and of the standard one: a voxel's point is the mean of its points in every
field, and there are voxels where there are points; `sort` orders by `time_list`, equals in any order. -/
structure Pcl (K : Type) [LinearOrder K] where
  filter : List (PointType K) → List (PointType K)
  sort : List (PointType K) → List (PointType K)
  filter_ne_nil : ∀ cloud, cloud ≠ [] → filter cloud ≠ []
  filter_after : ∀ cloud, ∀ p ∈ filter cloud, ∃ q ∈ cloud, q.curvature ≤ p.curvature
  filter_before : ∀ cloud, ∀ p ∈ filter cloud, ∃ q ∈ cloud, p.curvature ≤ q.curvature
  sort_perm : ∀ cloud, (sort cloud).Perm cloud
  sort_sorted : ∀ cloud, (sort cloud).Pairwise fun p q => p.curvature ≤ q.curvature

/-- What the node does that is seen outside: what it takes in, the scan it measures, and what it asks of its filter. -/
inductive Act (K : Type) where
  | accepted (imu : Imu K)
  | buffered (scan : Scan K)
  | measured (scan : Scan K)
  | setInit (meanAcc : V3D K)
  | initMap (points : List (PointType K))
  | predict (dt : K) (predictState propCov : Bool)
  | updateIMU (imu : Imu K)
  | updatePoints (time : K) (points : List (PointType K))

variable {K : Type} [Field K] [LinearOrder K]

/-! ## `preprocess.cpp` -/

/-- A point of `pl_full` that is not written. -/
def PointType.zero : PointType K := ⟨0, 0, 0, 0, 0⟩

def CustomPoint.valid (pt : Params K) (point : CustomPoint K) : Bool :=
  decide (point.line.toNat < pt.nScans) && (point.tag &&& 0x30 == 0x10 || point.tag &&& 0x30 == 0x00)

def CustomPoint.full (point : CustomPoint K) : PointType K :=
  ⟨point.x, point.y, point.z, (point.reflectivity.toNat : K), (point.offsetTime.toNat : K) / 1000000.0⟩

/-- Not the place of the point before. -/
def PointType.Moved (p last : PointType K) : Prop :=
  1 / 10000000.0 < |p.x - last.x| ∨ 1 / 10000000.0 < |p.y - last.y| ∨ 1 / 10000000.0 < |p.z - last.z|

instance (p last : PointType K) : Decidable (p.Moved last) := inferInstanceAs (Decidable (_ ∨ _))

/-- The loop of `avia_handler`: `last` is `pl_full[i - 1]`. -/
def aviaLoop (pt : Params K) : Nat → PointType K → List (CustomPoint K) → List (PointType K)
  | _, _, [] => []
  | validNum, last, point :: rest =>
    if point.valid pt then
      if (validNum + 1) % pt.pointFilterNum = 0 then
        let p := point.full
        let dist := p.x * p.x + p.y * p.y + p.z * p.z
        if dist < pt.blind * pt.blind ∨ pt.detRange * pt.detRange < dist then aviaLoop pt (validNum + 1) p rest
        else if p.Moved last then p :: aviaLoop pt (validNum + 1) p rest
        else aviaLoop pt (validNum + 1) p rest
      else aviaLoop pt (validNum + 1) .zero rest
    else aviaLoop pt validNum .zero rest

/-- `avia_handler`; the first point of a message is not looked at. -/
def aviaHandler (pt : Params K) (msg : CustomMsg K) : List (PointType K) := aviaLoop pt 0 .zero msg.points.tail

/-! ## `IMU_Processing.cpp` -/

structure ImuProcess (K : Type) where
  imuNeedInit : Bool
  afterImuInit : Bool
  bFirstFrame : Bool
  initIterNum : Nat
  meanAcc : V3D K
  meanGyr : V3D K

def ImuProcess.init : ImuProcess K := ⟨true, false, true, 1, fun _ => 0, fun _ => 0⟩

def ImuProcess.reset (p : ImuProcess K) : ImuProcess K :=
  { p with meanAcc := fun _ => 0, meanGyr := fun _ => 0, imuNeedInit := true, initIterNum := 1, afterImuInit := false }

/-- A turn of the loop of `IMU_init`. -/
def ImuProcess.average (p : ImuProcess K) (imu : Imu K) : ImuProcess K :=
  { p with
    meanAcc := fun i => p.meanAcc i + (imu.linearAcceleration i - p.meanAcc i) / p.initIterNum
    meanGyr := fun i => p.meanGyr i + (imu.angularVelocity i - p.meanGyr i) / p.initIterNum
    initIterNum := p.initIterNum + 1 }

/-- `IMU_init` with `first`, the front of the samples. -/
def ImuProcess.imuInit (first : Imu K) (imus : List (Imu K)) (p : ImuProcess K) : ImuProcess K :=
  let p := if p.bFirstFrame then
      { p.reset with
        initIterNum := 1, bFirstFrame := false, meanAcc := first.linearAcceleration, meanGyr := first.angularVelocity }
    else p
  imus.foldl ImuProcess.average p

def maxIniCount : Nat := 100

/-- `Process`: what becomes of the cloud, if it is written. -/
def ImuProcess.process (imus : List (Imu K)) (lidar : List (PointType K)) (p : ImuProcess K) :
    ImuProcess K × Option (List (PointType K)) :=
  match imus with
  | [] => (p, none)
  | first :: rest =>
    if p.imuNeedInit then
      let p := { p.imuInit first (first :: rest) with imuNeedInit := true }
      if p.initIterNum > maxIniCount then ({ p with imuNeedInit := false }, some lidar) else (p, none)
    else ({ p with afterImuInit := true }, some lidar)

/-! ## The samples and the times of the filter -/

/-- `imu_deque`, `imu_last`, `imu_next`, and how far the filter has come. -/
structure Feed (K : Type) where
  imuDeque : List (Imu K)
  imuLast : Imu K
  imuNext : Imu K
  isFirstFrame : Bool
  timePredictLastConst : K
  timeUpdateLast : K

/-- A sample is popped and another follows: it is the next one. -/
def Feed.advance (front : Imu K) (rest : List (Imu K)) (f : Feed K) : Feed K :=
  { f with imuDeque := front :: rest, imuLast := f.imuNext, imuNext := front }

/-- `while (t > imu_next.stamp)`: the samples older than `t` are popped. -/
def Feed.skipLoop (t : K) : List (Imu K) → Feed K → Feed K
  | [], f => f
  | [_], f => if f.imuNext.stamp < t then { f with imuDeque := [] } else f
  | _ :: front :: rest, f => if f.imuNext.stamp < t then skipLoop t (front :: rest) (f.advance front rest) else f

/-- The same; a pop from an empty deque is undefined. -/
def Feed.skip (t : K) (f : Feed K) : Option (Feed K) :=
  match f.imuDeque with
  | [] => if f.imuNext.stamp < t then none else some f
  | front :: rest => some (f.skipLoop t (front :: rest))

/-- The turn of the loop `while (imu_comes)` but for the pop: the filter comes up to the next sample. -/
def Feed.fuse (f : Feed K) : Feed K × List (Act K) :=
  let stamp := f.imuNext.stamp
  if 0 < stamp - f.timeUpdateLast then
    ({ f with timePredictLastConst := stamp, timeUpdateLast := stamp },
      [.predict (stamp - f.timePredictLastConst) true false, .predict (stamp - f.timeUpdateLast) false true,
        .updateIMU f.imuNext])
  else ({ f with timePredictLastConst := stamp }, [.predict (stamp - f.timePredictLastConst) true false])

def Feed.fuseLoop (t : K) : List (Imu K) → Feed K → Feed K × List (Act K)
  | [], f => (f, [])
  | [_], f => if f.imuNext.stamp < t then ({ f.fuse.1 with imuDeque := [] }, f.fuse.2) else (f, [])
  | _ :: front :: rest, f =>
    if f.imuNext.stamp < t then
      let p := fuseLoop t (front :: rest) (f.fuse.1.advance front rest)
      (p.1, f.fuse.2 ++ p.2)
    else (f, [])

/-- What is older than the state of the filter is left behind; `last_imu` tells whether the next sample is the front. -/
def Feed.catchUp (f : Feed K) : Feed K :=
  match f.imuDeque with
  | [] => f
  | front :: rest =>
    if f.imuNext.stamp = front.stamp then f.skipLoop f.timePredictLastConst (front :: rest)
    else if f.imuNext.stamp < f.timePredictLastConst then { f with imuLast := f.imuNext, imuNext := front }
    else f

/-- The samples older than the point at `t`. -/
def Feed.imuComes (t : K) (f : Feed K) : Option (Feed K × List (Act K)) :=
  match f.imuDeque with
  | [] => some (f, [])
  | _ :: _ =>
    let f := f.catchUp
    match f.imuDeque with
    | [] => if f.imuNext.stamp < t then none else some (f, [])
    | front :: rest => some (f.fuseLoop t (front :: rest))

/-- The first point of all sets the times. -/
def Feed.firstFrame (t : K) (f : Feed K) : Option (Feed K) :=
  if f.isFirstFrame then
    (f.skip t).map fun f => { f with isFirstFrame := false, timeUpdateLast := t, timePredictLastConst := t }
  else some f

/-- The state is propagated to the point's time, the covariance as well unless it follows the IMU. -/
def Feed.propagate (pt : Params K) (t : K) (f : Feed K) : Feed K × List (Act K) :=
  if !pt.propAtFreqOfImu && decide (0 < t - f.timeUpdateLast) then
    ({ f with timeUpdateLast := t, timePredictLastConst := t },
      [.predict (t - f.timeUpdateLast) false true, .predict (t - f.timePredictLastConst) true false])
  else ({ f with timePredictLastConst := t }, [.predict (t - f.timePredictLastConst) true false])

/-- One time of the scan and its points. -/
def Feed.pointStep (pt : Params K) (t : K) (points : List (PointType K)) (f : Feed K) : Option (Feed K × List (Act K)) :=
  (f.firstFrame t).bind fun f => (f.imuComes t).map fun p =>
    ((p.1.propagate pt t).1, p.2 ++ (p.1.propagate pt t).2 ++ [.updatePoints t points])

/-- The loop of `time_compressing`: how many points have the same time, one number for each time. -/
def timeCompressingFrom (j : Nat) : List (PointType K) → List Nat
  | [] => [j + 1]
  | [_] => [j + 1]
  | p :: q :: rest =>
    if p.curvature < q.curvature then (j + 1) :: timeCompressingFrom 0 (q :: rest)
    else timeCompressingFrom (j + 1) (q :: rest)

/-- `time_compressing`; of an empty cloud it makes one time with one point. -/
def timeCompressing (body : List (PointType K)) : List Nat := timeCompressingFrom 0 body

/-- The loop over `time_seq` with `start`, which is `idx + 1`; a read beyond the cloud is undefined. -/
def Feed.pointLoop (pt : Params K) (body : List (PointType K)) (begTime : K) :
    List Nat → Nat → Feed K → Option (Feed K × List (Act K))
  | [], _, f => some (f, [])
  | n :: timeSeq, start, f =>
    body[start + n - 1]?.bind fun point =>
      (f.pointStep pt (point.curvature / 1000.0 + begTime) ((body.drop start).take n)).bind fun p =>
        (p.1.pointLoop pt body begTime timeSeq (start + n)).map fun q => (q.1, p.2 ++ q.2)

/-! ## `li_initialization.cpp` -/

/-- `MeasureGroup`; the samples in it are never taken out. -/
structure MeasureGroup (K : Type) where
  lidarBegTime : K
  lidar : List (PointType K)
  imu : List (Imu K)

structure Node (K : Type) where
  lidarBuffer : List (Scan K)
  lastTimestampLidar : K
  lastTimestampImu : K
  feed : Feed K
  meas : MeasureGroup K
  lidarPushed : Bool
  imuPushed : Bool
  loseLid : Bool
  lidarEndTime : K
  pImu : ImuProcess K
  flgFirstScan : Bool
  initMap : Bool
  featsUndistort : List (PointType K)
  initFeatsWorld : List (PointType K)

/-- A message as it is made. -/
def Imu.fresh : Imu K := ⟨0, fun _ => 0, fun _ => 0⟩

def Feed.init : Feed K := ⟨[], .fresh, .fresh, true, 0, 0⟩

def Node.init : Node K :=
  ⟨[], -1, -1, .init, ⟨0, [], []⟩, false, false, false, 0, .init, true, false, [], []⟩

/-- `livox_pcl_cbk`. -/
def Node.livoxPclCbk (pt : Params K) (msg : CustomMsg K) (n : Node K) : Node K × List (Act K) :=
  if msg.stamp < n.lastTimestampLidar then (n, [])
  else if aviaHandler pt msg = [] then ({ n with lastTimestampLidar := msg.stamp }, [])
  else
    let scan : Scan K := ⟨msg.stamp, aviaHandler pt msg⟩
    ({ n with lastTimestampLidar := msg.stamp, lidarBuffer := n.lidarBuffer ++ [scan] }, [.buffered scan])

/-- `imu_cbk`. -/
def Node.imuCbk (pt : Params K) (msgIn : Imu K) (n : Node K) : Node K × List (Act K) :=
  let msg := { msgIn with stamp := msgIn.stamp - pt.timediffImuWrtLidar - pt.timeLagImuWtrLidar }
  if msg.stamp < n.lastTimestampImu then (n, [])
  else ({ n with lastTimestampImu := msg.stamp, feed := { n.feed with imuDeque := n.feed.imuDeque ++ [msg] } },
    [.accepted msg])

/-- The greatest curvature, from that of the last point on. -/
def endTime (points : List (PointType K)) (last : PointType K) : K :=
  points.foldl (fun m p => if m < p.curvature then p.curvature else m) last.curvature

/-- The front of the lidar's queue becomes the scan to measure. -/
def Node.pushLidar (scan : Scan K) (n : Node K) : Node K :=
  let n := { n with
    loseLid := false, lidarPushed := true
    meas := { n.meas with lidar := scan.points, lidarBegTime := scan.begTime } }
  match scan.points.getLast? with
  | none => { n with loseLid := true }
  | some last => { n with lidarEndTime := scan.begTime + endTime scan.points last / 1000.0 }

/-- The loop that puts samples older than `bound` into the measure. -/
def Feed.collectLoop (bound : K) : List (Imu K) → Feed K → List (Imu K) × Feed K
  | [], f => ([], f)
  | imu :: rest, f =>
    if imu.stamp < bound then
      let p := collectLoop bound rest { f with imuDeque := rest, imuLast := imu, imuNext := imu }
      (imu :: p.1, p.2)
    else ([], { f with imuNext := imu })

/-- The samples of the measure, which only the initialization takes. -/
def Node.pushImu (bound : K) (n : Node K) : Node K :=
  if n.imuPushed then n
  else if n.pImu.imuNeedInit then
    let p := n.feed.collectLoop bound n.feed.imuDeque
    { n with imuPushed := true, feed := p.2, meas := { n.meas with imu := n.meas.imu ++ p.1 } }
  else { n with imuPushed := true }

/-- `sync_packages`. -/
def Node.syncPackages (pt : Params K) (n : Node K) : Node K × Bool :=
  match n.lidarBuffer, n.feed.imuDeque with
  | scan :: lidarBuffer, _ :: _ =>
    let n := if n.lidarPushed then n else n.pushLidar scan
    let bound := if n.loseLid then n.meas.lidarBegTime + pt.lidarTimeInte else n.lidarEndTime
    if n.lastTimestampImu < bound then (n, false)
    else ({ n.pushImu bound with lidarBuffer := lidarBuffer, lidarPushed := false, imuPushed := false }, true)
  | _, _ => (n, false)

/-! ## `laserMapping.cpp` -/

/-- The samples from before the first scan are left behind. -/
def Node.firstScan (n : Node K) : Option (Node K) :=
  if n.flgFirstScan then (n.feed.skip n.meas.lidarBegTime).map fun f => { n with flgFirstScan := false, feed := f }
  else some n

/-- The body of the main loop from the scan measured to the filter. -/
def Node.mapping (pt : Params K) (lib : Pcl K) (n : Node K) : Option (Node K × List (Act K)) :=
  n.firstScan.bind fun n =>
    let p := n.pImu.process n.meas.imu n.meas.lidar
    let n := { n with pImu := p.1, featsUndistort := p.2.getD n.featsUndistort }
    let featsDownBody := lib.sort (if pt.spaceDownSample then lib.filter n.featsUndistort else n.meas.lidar)
    if !n.pImu.afterImuInit && n.pImu.imuNeedInit then some (n, [])
    else
      let inits := if n.pImu.afterImuInit then [] else [Act.setInit n.pImu.meanAcc]
      if n.initMap then
        (n.feed.pointLoop pt featsDownBody n.meas.lidarBegTime (timeCompressing featsDownBody) 0).map fun q =>
          ({ n with feed := q.1 }, inits ++ q.2)
      else
        let initFeatsWorld := n.initFeatsWorld ++ n.featsUndistort
        if initFeatsWorld.length ≥ pt.initMapSize then
          some ({ n with initMap := true, initFeatsWorld := [] }, inits ++ [.initMap initFeatsWorld])
        else some ({ n with initFeatsWorld := initFeatsWorld }, inits)

/-- A turn of the main loop after the callbacks. -/
def Node.round (pt : Params K) (lib : Pcl K) (n : Node K) : Option (Node K × List (Act K)) :=
  let p := n.syncPackages pt
  if p.2 then
    (p.1.mapping pt lib).map fun q => (q.1, .measured ⟨p.1.meas.lidarBegTime, p.1.meas.lidar⟩ :: q.2)
  else some (p.1, [])

/-- What happens to the node: messages, in the order in which they are taken, and turns of the main loop. -/
inductive Event (K : Type) where
  | imu (msg : Imu K)
  | lidar (msg : CustomMsg K)
  | round

/-- The node; a turn that would read what is not there has no step. -/
def node (pt : Params K) (lib : Pcl K) : Machine (Node K) (Event K) (Act K) where
  step n
    | .imu msg => some (n.imuCbk pt msg)
    | .lidar msg => some (n.livoxPclCbk pt msg)
    | .round => n.round pt lib

end Lio
end LfSentry
