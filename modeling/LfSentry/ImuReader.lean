import LfSentry.Runs
import LfSentry.Samples
import LfSentry.SerialPacket
import LfSentry.VisionCrc
import Mathlib.Data.List.GetD
/-!
# ImuReader — the reading thread of the DM IMU (`io/dm_imu/dm_imu.cpp`, `io/dm_imu/dm_imu.hpp`)

The thread reads four bytes until they are a head, then the other 53 of a frame of three blocks.  Each block is taken over
if its check holds, and a sample of the Euler angles is pushed in any case: also when the Euler block fails, and, since the
counts that `read` returns are not looked at, when it has not come whole (`samples_fresh_iff`).
-/
namespace LfSentry
namespace Vision
namespace ImuReader

open Samples

/-! ## The frame -/

/-- One of the three blocks of `IMU_Receive_Frame`: acceleration, angular velocity, Euler angles (roll, pitch, yaw). -/
structure ImuBlock where
  frameHeader : U8
  flag : U8
  slaveId : U8
  reg : U8
  x : Serial.F32
  y : Serial.F32
  z : Serial.F32
  crc : U16
  frameEnd : U8
  deriving DecidableEq

open Serial.Reader in
def ImuBlock.read : Serial.Reader ImuBlock := do
  return {
    frameHeader := ← u8, flag := ← u8, slaveId := ← u8, reg := ← u8
    x := ← f32, y := ← f32, z := ← f32, crc := ← u16, frameEnd := ← u8 }

def sizeofImuBlock : Nat := 4 + 3 * 4 + 2 + 1

structure ImuReceiveFrame where
  acc : ImuBlock
  gyro : ImuBlock
  euler : ImuBlock
  deriving DecidableEq

def ImuReceiveFrame.read : Serial.Reader ImuReceiveFrame := do
  return { acc := ← ImuBlock.read, gyro := ← ImuBlock.read, euler := ← ImuBlock.read }

def sizeofImuReceiveFrame : Nat := 3 * sizeofImuBlock

structure ReceiveData where
  bytes : List U8
  size : bytes.length = sizeofImuReceiveFrame
  deriving DecidableEq

def ReceiveData.zero : ReceiveData := ⟨List.replicate sizeofImuReceiveFrame 0, by decide⟩

/-- What `read` gave is laid over the memory from its `k`-th byte on; the other bytes stay. -/
def ReceiveData.overlay (r : ReceiveData) (k : Nat) (bs : List U8) : ReceiveData where
  bytes := r.bytes.mapIdx fun j b => if k ≤ j ∧ j < k + bs.length then bs.getD (j - k) 0 else b
  size := by rw [List.length_mapIdx, r.size]

def ReceiveData.frame (r : ReceiveData) : ImuReceiveFrame := (ImuReceiveFrame.read.run r.bytes).1

/-! ## The thread -/

structure ImuData where
  accx : Serial.F32
  accy : Serial.F32
  accz : Serial.F32
  gyrox : Serial.F32
  gyroy : Serial.F32
  gyroz : Serial.F32
  roll : Serial.F32
  pitch : Serial.F32
  yaw : Serial.F32
  deriving DecidableEq

def ImuData.zero : ImuData := ⟨⟨0⟩, ⟨0⟩, ⟨0⟩, ⟨0⟩, ⟨0⟩, ⟨0⟩, ⟨0⟩, ⟨0⟩, ⟨0⟩⟩

/-- The quaternion of a sample, named by the angles it is made from. -/
structure Euler where
  roll : Serial.F32
  pitch : Serial.F32
  yaw : Serial.F32
  deriving DecidableEq

inductive Phase
  | head
  | rest
  deriving DecidableEq

structure DmImu where
  phase : Phase
  receiveData : ReceiveData
  data : ImuData
  deriving DecidableEq

def DmImu.init : DmImu := ⟨.head, .zero, .zero⟩

/-- What a call of `read` returned and the clock after it. -/
structure Read where
  bs : List U8
  now : Int
  deriving DecidableEq

def isHead (rx : ImuReceiveFrame) : Bool :=
  rx.acc.frameHeader == 0x55 && rx.acc.flag == 0xAA && rx.acc.slaveId == 0x01 && rx.acc.reg == 0x01

/-- The check of the block that starts at the first of the bytes. -/
def crcOk (bytes : List U8) (block : ImuBlock) : Bool := getCrc16 bytes 16 == block.crc

def onFrame (d : ImuData) (r : ReceiveData) : ImuData :=
  let rx := r.frame
  let d := if crcOk r.bytes rx.acc then { d with accx := rx.acc.x, accy := rx.acc.y, accz := rx.acc.z } else d
  let d := if crcOk (r.bytes.drop sizeofImuBlock) rx.gyro then
    { d with gyrox := rx.gyro.x, gyroy := rx.gyro.y, gyroz := rx.gyro.z } else d
  if crcOk (r.bytes.drop (2 * sizeofImuBlock)) rx.euler then
    { d with roll := rx.euler.x, pitch := rx.euler.y, yaw := rx.euler.z } else d

def wants : Phase → Nat
  | .head => 4
  | .rest => sizeofImuReceiveFrame - 4

/-- `get_imu_data_thread`, a step a call of `read`; one that throws ends the program. -/
def getImuDataThread : Machine DmImu Read (Sample Euler Int) where
  step s i :=
    if wants s.phase < i.bs.length then none
    else match s.phase with
      | .head =>
        let r := s.receiveData.overlay 0 i.bs
        some ({ s with receiveData := r, phase := if isHead r.frame then .rest else .head }, [])
      | .rest =>
        let r := s.receiveData.overlay 4 i.bs
        let d := onFrame s.data r
        some (⟨.head, r, d⟩, [⟨⟨d.roll, d.pitch, d.yaw⟩, i.now⟩])

/-! ## The Euler block of a pass -/

/-- The Euler block among the bytes of a frame's second read has come whole and its check holds. -/
def EulerReceived (bs : List U8) : Prop :=
  sizeofImuBlock - 1 ≤ (bs.drop (2 * sizeofImuBlock - 4)).length ∧
    crcOk (bs.drop (2 * sizeofImuBlock - 4)) (ImuBlock.read.run (bs.drop (2 * sizeofImuBlock - 4))).1 = true

instance (bs : List U8) : Decidable (EulerReceived bs) := inferInstanceAs (Decidable (_ ∧ _))

/-- The angles of the Euler block among the bytes of a frame's second read. -/
def eulerOf (bs : List U8) : Euler :=
  let block := (ImuBlock.read.run (bs.drop (2 * sizeofImuBlock - 4))).1
  ⟨block.x, block.y, block.z⟩

/-- Every sample pushed in the step carries the angles of an Euler block read for it whose check holds. -/
def Fresh (s : DmImu) (i : Read) : Prop :=
  ∀ t o, getImuDataThread.step s i = some (t, o) → ∀ v ∈ o, EulerReceived i.bs ∧ v = ⟨eulerOf i.bs, i.now⟩

/-- A second read brings the Euler block whole, and its check holds. -/
def BringsEuler (s : DmImu) (i : Read) : Prop := s.phase = .rest → i.bs.length ≤ wants .rest → EulerReceived i.bs

theorem getElem_overlay (r : ReceiveData) {k j : Nat} {bs : List U8} (h : j < bs.length)
    (hk : k + bs.length ≤ sizeofImuReceiveFrame) : (r.overlay k bs).bytes.getD (k + j) 0 = bs.getD j 0 := by
  have hlen : k + j < (r.overlay k bs).bytes.length := by
    rw [(r.overlay k bs).size]
    omega
  rw [List.getD_eq_getElem _ _ hlen]
  simp only [ReceiveData.overlay, List.getElem_mapIdx]
  rw [if_pos ⟨by omega, by omega⟩, Nat.add_sub_cancel_left]

theorem headD_drop (bs : List U8) (n : Nat) : (bs.drop n).headD 0 = bs.getD n 0 := by
  rw [List.headD_eq_head?_getD, List.head?_drop, List.getD_eq_getElem?_getD]

theorem getD_drop (bs : List U8) (n j : Nat) : (bs.drop n).getD j 0 = bs.getD (n + j) 0 := by
  rw [List.getD_eq_getElem?_getD, List.getD_eq_getElem?_getD, List.getElem?_drop]

theorem drop_succ_tail (bs : List U8) (n : Nat) : bs.drop (n + 1) = (bs.drop n).tail := List.tail_drop.symm

/-- The members of a block by the places of their bytes. -/
theorem read_eq (bs : List U8) : (ImuBlock.read.run bs).1 =
    ⟨bs.getD 0 0, bs.getD 1 0, bs.getD 2 0, bs.getD 3 0,
      ⟨bs.getD 7 0 ++ bs.getD 6 0 ++ bs.getD 5 0 ++ bs.getD 4 0⟩,
      ⟨bs.getD 11 0 ++ bs.getD 10 0 ++ bs.getD 9 0 ++ bs.getD 8 0⟩,
      ⟨bs.getD 15 0 ++ bs.getD 14 0 ++ bs.getD 13 0 ++ bs.getD 12 0⟩,
      bs.getD 17 0 ++ bs.getD 16 0, bs.getD 18 0⟩ := by
  simp only [← headD_drop, drop_succ_tail, List.drop_zero]
  rfl

theorem read_drop (bs : List U8) : (ImuBlock.read.run bs).2 = bs.drop sizeofImuBlock := by
  simp only [sizeofImuBlock, Nat.reduceAdd, Nat.reduceMul, drop_succ_tail, List.drop_zero]
  rfl

theorem frame_euler (r : ReceiveData) :
    r.frame.euler = (ImuBlock.read.run (r.bytes.drop (2 * sizeofImuBlock))).1 := by
  have h : r.frame.euler = (ImuBlock.read.run (ImuBlock.read.run (ImuBlock.read.run r.bytes).2).2).1 := rfl
  rw [h, read_drop, read_drop, List.drop_drop, Nat.two_mul]

/-- **A block's check and its numbers lie in its first 18 bytes.** -/
theorem block_congr {as bs : List U8} (h : ∀ j < 18, as.getD j 0 = bs.getD j 0) (has : 18 ≤ as.length)
    (hbs : 18 ≤ bs.length) :
    let a := (ImuBlock.read.run as).1
    let b := (ImuBlock.read.run bs).1
    crcOk as a = crcOk bs b ∧ a.x = b.x ∧ a.y = b.y ∧ a.z = b.z := by
  have htake : as.take 16 = bs.take 16 := by
    apply List.ext_getElem
    · rw [List.length_take, List.length_take]
      omega
    · intro j h₁ h₂
      rw [List.length_take] at h₁ h₂
      rw [List.getElem_take, List.getElem_take, ← List.getD_eq_getElem _ 0, ← List.getD_eq_getElem _ 0]
      exact h j (by omega)
  intro a b
  have hcrc : getCrc16 as 16 = getCrc16 bs 16 := by rw [getCrc16, getCrc16, htake]
  simp only [a, b, crcOk, read_eq, hcrc]
  rw [h 4 (by omega), h 5 (by omega), h 6 (by omega), h 7 (by omega), h 8 (by omega), h 9 (by omega), h 10 (by omega),
    h 11 (by omega), h 12 (by omega), h 13 (by omega), h 14 (by omega), h 15 (by omega), h 16 (by omega), h 17 (by omega)]
  exact ⟨rfl, rfl, rfl, rfl⟩

/-- **A whole Euler block of the second read lies over the memory of the third block.** -/
theorem overlay_euler (r : ReceiveData) {bs : List U8} (hle : bs.length ≤ wants .rest)
    (h : sizeofImuBlock - 1 ≤ (bs.drop (2 * sizeofImuBlock - 4)).length) :
    let m := (r.overlay 4 bs).bytes.drop (2 * sizeofImuBlock)
    crcOk m (r.overlay 4 bs).frame.euler = crcOk (bs.drop (2 * sizeofImuBlock - 4))
        (ImuBlock.read.run (bs.drop (2 * sizeofImuBlock - 4))).1 ∧
      (⟨(r.overlay 4 bs).frame.euler.x, (r.overlay 4 bs).frame.euler.y, (r.overlay 4 bs).frame.euler.z⟩ : Euler) =
        eulerOf bs := by
  intro m
  simp only [sizeofImuBlock, wants, sizeofImuReceiveFrame, List.length_drop] at h hle ⊢
  have hm : m.length = 19 := by
    rw [List.length_drop, (r.overlay 4 bs).size]
    rfl
  have hsame : ∀ j < 18, m.getD j 0 = (bs.drop 34).getD j 0 := by
    intro j hj
    have hover : (r.overlay 4 bs).bytes.getD (4 + (34 + j)) 0 = bs.getD (34 + j) 0 :=
      getElem_overlay r (by omega) (by rw [sizeofImuReceiveFrame, sizeofImuBlock]; omega)
    rw [getD_drop, getD_drop, ← hover, ← Nat.add_assoc, show 2 * sizeofImuBlock = 4 + 34 from rfl]
  obtain ⟨hcrc, hx, hy, hz⟩ := block_congr hsame (by omega) (by rw [List.length_drop]; omega)
  rw [frame_euler, eulerOf, Euler.mk.injEq]
  exact ⟨hcrc, hx, hy, hz⟩

theorem onFrame_euler (d : ImuData) (r : ReceiveData)
    (h : crcOk (r.bytes.drop (2 * sizeofImuBlock)) r.frame.euler = true) :
    (onFrame d r).roll = r.frame.euler.x ∧ (onFrame d r).pitch = r.frame.euler.y ∧
      (onFrame d r).yaw = r.frame.euler.z := by
  unfold onFrame
  simp only [if_pos h]
  exact ⟨trivial, trivial, trivial⟩

/-- **A step pushes fresh angles iff its read brought the Euler block.** -/
theorem fresh_iff (s : DmImu) (i : Read) : Fresh s i ↔ BringsEuler s i := by
  by_cases hlen : wants s.phase < i.bs.length
  · have hnone : getImuDataThread.step s i = none := if_pos hlen
    refine ⟨fun _ hp hle => ?_, fun _ t o hst => ?_⟩
    · rw [hp] at hlen
      omega
    · rw [hnone] at hst
      cases hst
  · unfold Fresh BringsEuler
    simp only [getImuDataThread, if_neg hlen]
    cases hp : s.phase with
    | head =>
      refine ⟨fun _ h => (by cases h), fun _ t o hst v hv => ?_⟩
      simp only [Option.some.injEq, Prod.mk.injEq] at hst
      rw [← hst.2] at hv
      cases hv
    | rest =>
      rw [hp, not_lt] at hlen
      constructor
      · intro h _ _
        exact (h _ _ rfl _ List.mem_cons_self).1
      · intro h t o hst v hv
        have hbrings := h rfl hlen
        simp only [Option.some.injEq, Prod.mk.injEq] at hst
        obtain ⟨-, rfl⟩ := hst
        obtain rfl := List.mem_singleton.1 hv
        refine ⟨hbrings, ?_⟩
        obtain ⟨hcrc, hangles⟩ := overlay_euler s.receiveData hlen hbrings.1
        obtain ⟨hx, hy, hz⟩ := onFrame_euler s.data (s.receiveData.overlay 4 i.bs) (hcrc.trans hbrings.2)
        rw [hx, hy, hz, hangles]

/-- **The samples of a run are fresh exactly if every frame's second read brings an Euler block that passes its check.** -/
theorem samples_fresh_iff (reads : List Read) :
    getImuDataThread.Along Fresh .init reads ↔ getImuDataThread.Along BringsEuler .init reads :=
  Machine.along_iff (I := fun _ => True) (fun s i _ => fresh_iff s i) (fun _ _ _ _ _ _ _ => trivial) trivial

/-- The rest of a frame at rest whose Euler block has the yaw and the check given. -/
def yawFrame (yaw crc : List U8) : List U8 :=
  List.replicate 12 0 ++ [0x63, 0x09, 0x0A] ++ [0x55, 0xAA, 0x01, 0x02] ++ List.replicate 12 0 ++ [0x94, 0x07, 0x0A] ++
    [0x55, 0xAA, 0x01, 0x03] ++ List.replicate 8 0 ++ yaw ++ crc ++ [0x0A]

/-- **A frame at 91° with one bit wrong in its Euler block is pushed with the 90° of the frame before.** -/
theorem failed_block_is_pushed : ¬ getImuDataThread.Along Fresh .init
    [⟨[0x55, 0xAA, 0x01, 0x01], 0⟩, ⟨yawFrame [0x00, 0x00, 0xB4, 0x42] [0x21, 0x3E], 1⟩,
      ⟨[0x55, 0xAA, 0x01, 0x01], 2⟩, ⟨yawFrame [0x01, 0x00, 0xB6, 0x42] [0x91, 0x0D], 3⟩] := by
  intro h
  have hrun : ((getImuDataThread.run .init
      [⟨[0x55, 0xAA, 0x01, 0x01], 0⟩, ⟨yawFrame [0x00, 0x00, 0xB4, 0x42] [0x21, 0x3E], 1⟩,
        ⟨[0x55, 0xAA, 0x01, 0x01], 2⟩]).map fun p => p.1.phase) = some .rest := by decide +kernel
  obtain ⟨p, hp, hphase⟩ := Option.map_eq_some_iff.1 hrun
  have hlast := ((Machine.along_append (o := p.2) hp).1 h).2.1
  exact absurd ((fresh_iff _ _).1 hlast hphase (by decide)) (by decide +kernel)

/-- What such a run pushes, and what silence after the good frame does. -/
example : ((getImuDataThread.run .init
    [⟨[0x55, 0xAA, 0x01, 0x01], 0⟩, ⟨yawFrame [0x00, 0x00, 0xB4, 0x42] [0x21, 0x3E], 1⟩, ⟨[], 21⟩, ⟨[], 41⟩]).map
      fun p => p.2) = some [⟨⟨⟨0⟩, ⟨0⟩, ⟨0x42B40000⟩⟩, 1⟩, ⟨⟨⟨0⟩, ⟨0⟩, ⟨0x42B40000⟩⟩, 41⟩] := by decide +kernel

end ImuReader
end Vision
end LfSentry
