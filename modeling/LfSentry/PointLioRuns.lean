import LfSentry.PointLioUpdates
import Mathlib.Algebra.Field.Rat
import Mathlib.Algebra.Order.Ring.Rat
import Mathlib.Data.List.Sort
import Mathlib.Tactic.Linarith
/-!
# PointLioRuns — what the lidar odometry does with its two streams, over every run

Messages and turns of the main loop come in any order.  Nothing is read that is not there; every scan is measured once, in
order, and not before the IMU has come as far; nothing updates the filter before the map stands, and after that every point
of a scan does once, at its time; and the samples that update it come in order, none twice.  Where no point is older than one
of a scan before, samples and points update it in the order of time, and from its first update on no sample is lost.
-/
namespace LfSentry
namespace Lio

open Chronicle (InOrder Turns)

variable {K : Type} [LinearOrder K] [Field K] [IsStrictOrderedRing K] {o es : List (Act K)} {lastTs : K}

/-! ## The node -/

/-- The points that a scan updates the filter by, with their times. -/
def Scan.timed (pt : Params K) (lib : Pcl K) (scan : Scan K) : List (K × PointType K) :=
  (bodyOf pt lib scan.points).map fun p => (p.time scan.begTime, p)

/-- No point of a scan is older than one of a scan before. -/
def Apart (scans : List (Scan K)) : Prop :=
  scans.Pairwise fun a b => ∀ p ∈ a.points, ∀ q ∈ b.points, p.time a.begTime ≤ q.time b.begTime

instance (scans : List (Scan K)) : Decidable (Apart scans) := inferInstanceAs (Decidable (List.Pairwise _ scans))

/-- A sample has come that is not older than the scan. -/
def Scan.Covered (scan : Scan K) (imus : List (Imu K)) : Prop :=
  ∃ imu ∈ imus, ∀ p ∈ scan.points, p.time scan.begTime ≤ imu.stamp

/-- Every scan measured was covered by then. -/
def Waits (o : List (Act K)) : Prop :=
  ∀ before scan, before ++ [.measured scan] <+: o → scan.Covered (acceptedOf before)

/-- What a scan in the lidar's queue is like: the callback drops empty ones, and offsets are not negative. -/
structure Scan.Sound (scan : Scan K) : Prop where
  ne_nil : scan.points ≠ []
  nonneg : ∀ p ∈ scan.points, 0 ≤ p.curvature

/-- The scan is the one to measure. -/
structure Scan.Pushed (scan : Scan K) (meas : MeasureGroup K) (lidarEndTime : K) : Prop where
  lidar : meas.lidar = scan.points
  begTime : meas.lidarBegTime = scan.begTime
  beg_le : scan.begTime ≤ lidarEndTime
  le_end : ∀ p ∈ scan.points, p.time scan.begTime ≤ lidarEndTime
  end_mem : ∃ p ∈ scan.points, lidarEndTime = p.time scan.begTime

/-- What the node keeps; `pending` are the scans measured that have not been mapped yet. -/
structure Node.Kept (pt : Params K) (lib : Pcl K) (pending : List (Scan K)) (n : Node K) (o : List (Act K)) : Prop where
  fed : n.feed.Fed n.lastTimestampImu o
  ready : n.flgFirstScan = false → n.feed.Ready
  first : n.flgFirstScan = true → n.pImu.imuNeedInit = true
  after : n.pImu.afterImuInit = true → n.pImu.imuNeedInit = false
  needInit : n.pImu.imuNeedInit = true → n.initMap = false
  measured : n.pImu.imuNeedInit = false → n.meas.imu ≠ []
  frame : n.initMap = false → n.feed.isFirstFrame = true
  imuPushed : n.imuPushed = false
  loseLid : n.loseLid = false
  sound : ∀ scan ∈ n.lidarBuffer, scan.Sound
  pushed : n.lidarPushed = true → ∃ scan rest, n.lidarBuffer = scan :: rest ∧ scan.Pushed n.meas n.lidarEndTime
  scans : bufferedOf o = measuredOf o ++ n.lidarBuffer
  early : n.initMap = false → updates o = [] ∧ ∀ points, Act.initMap points ∉ o
  whole : n.initMap = true → ∃ before points after fused, o = before ++ .initMap points :: after ∧ updates before = [] ∧
    measuredOf after = fused ++ pending ∧ timedOf o = fused.flatMap (Scan.timed pt lib)
  waits : Waits o

variable {pt : Params K} {lib : Pcl K} {n : Node K}

omit [IsStrictOrderedRing K] in
theorem Waits.snoc {a : Act K} (h : Waits o) (ha : ∀ scan, a = .measured scan → scan.Covered (acceptedOf o)) :
    Waits (o ++ [a]) := by
  intro before scan hprefix
  rcases List.prefix_concat_iff.1 hprefix with heq | hprefix
  · obtain ⟨rfl, hlast⟩ := List.append_inj' heq rfl
    exact ha scan (List.cons.inj hlast).1.symm
  · exact h before scan hprefix

omit [IsStrictOrderedRing K] in
theorem Waits.append : ∀ {es : List (Act K)} {o : List (Act K)}, Waits o → (∀ a ∈ es, a.OfFilter) → Waits (o ++ es)
  | [], o, h, _ => by rwa [List.append_nil]
  | a :: es, o, h, hes => by
    have hsnoc : Waits (o ++ [a]) := h.snoc fun scan heq => by
      have hof := hes a List.mem_cons_self
      rw [heq] at hof
      exact hof.elim
    have := Waits.append hsnoc fun b hb => hes b (List.mem_cons_of_mem a hb)
    rwa [List.append_assoc] at this

omit [IsStrictOrderedRing K] in
theorem Node.Kept.append_early {pending : List (Scan K)} (h : n.Kept pt lib pending o) (hmap : n.initMap = false)
    (hnone : ∀ points, Act.initMap points ∉ es) (hupdates : updates es = []) :
    updates (o ++ es) = [] ∧ ∀ points, Act.initMap points ∉ o ++ es := by
  obtain ⟨hnone'', hnone'⟩ := h.early hmap
  refine ⟨by rw [updates_append, hnone'', hupdates, List.append_nil], fun points hpoints => ?_⟩
  rcases List.mem_append.1 hpoints with hpoints | hpoints
  · exact hnone' points hpoints
  · exact hnone points hpoints

omit [IsStrictOrderedRing K] in
/-- Scans measured wait, what the others have done stays. -/
theorem Node.Kept.append_whole (h : n.Kept pt lib [] o) (hmap : n.initMap = true) (hupdates : updates es = []) :
    ∃ before points after fused, o ++ es = before ++ .initMap points :: after ∧ updates before = [] ∧
      measuredOf after = fused ++ measuredOf es ∧ timedOf (o ++ es) = fused.flatMap (Scan.timed pt lib) := by
  obtain ⟨before, points, after, fused, rfl, hbefore, hafter, htimed⟩ := h.whole hmap
  refine ⟨before, points, after ++ es, fused, by rw [List.append_assoc, List.cons_append], hbefore, ?_, ?_⟩
  · rw [measuredOf_append, hafter, List.append_nil]
  · have hes : timedOf es = [] := by rw [timedOf, hupdates]; rfl
    rw [timedOf_append, hes, List.append_nil, htimed]

/-- **The front of the lidar's queue is the scan to measure.** -/
theorem Node.pushLidar_spec {scan : Scan K} (hsound : scan.Sound) (n : Node K) :
    ∃ e, n.pushLidar scan = { n with
        loseLid := false, lidarPushed := true, lidarEndTime := e
        meas := { n.meas with lidar := scan.points, lidarBegTime := scan.begTime } } ∧
      scan.Pushed (n.pushLidar scan).meas (n.pushLidar scan).lidarEndTime := by
  have hlast := List.getLast?_eq_getLast_of_ne_nil hsound.ne_nil
  have heq : n.pushLidar scan = { n with
      loseLid := false, lidarPushed := true
      lidarEndTime := scan.begTime + endTime scan.points (scan.points.getLast hsound.ne_nil) / 1000.0
      meas := { n.meas with lidar := scan.points, lidarBegTime := scan.begTime } } := by
    rw [Node.pushLidar]
    dsimp only
    rw [hlast]
  have hle : ∀ p ∈ scan.points, p.curvature ≤ endTime scan.points (scan.points.getLast hsound.ne_nil) :=
    fun p hp => le_endTime (Or.inl hp)
  have h1000 : (0 : K) < 1000.0 := by norm_num
  refine ⟨_, heq, ?_, ?_, ?_, ?_, ?_⟩
  · rw [heq]
  · rw [heq]
  · rw [heq]
    obtain ⟨p, hp⟩ := List.exists_mem_of_ne_nil _ hsound.ne_nil
    exact le_add_of_nonneg_right (div_nonneg ((hsound.nonneg p hp).trans (hle p hp)) h1000.le)
  · intro p hp
    rw [heq, PointType.time, add_comm]
    exact add_le_add_right ((div_le_div_iff_of_pos_right h1000).2 (hle p hp)) scan.begTime
  · rw [heq]
    have hmem : ∃ p ∈ scan.points, endTime scan.points (scan.points.getLast hsound.ne_nil) = p.curvature := by
      rcases endTime_mem scan.points (scan.points.getLast hsound.ne_nil).curvature with hend | hend
      · exact ⟨_, List.getLast_mem hsound.ne_nil, hend⟩
      · exact hend
    obtain ⟨p, hp, hend⟩ := hmem
    refine ⟨p, hp, ?_⟩
    dsimp only
    rw [hend, add_comm]
    rfl

/-- The front of the queue is the scan to measure, pushed now or before. -/
theorem Node.Kept.pushLidar (h : n.Kept pt lib [] o) {scan : Scan K} {rest : List (Scan K)}
    (hbuffer : n.lidarBuffer = scan :: rest) :
    ∃ n₁, (if n.lidarPushed then n else n.pushLidar scan) = n₁ ∧ n₁.Kept pt lib [] o ∧
      scan.Pushed n₁.meas n₁.lidarEndTime ∧ n₁.lidarBuffer = scan :: rest ∧ n₁.feed = n.feed := by
  by_cases hpushed : n.lidarPushed = true
  · obtain ⟨scan', rest', hbuffer', hscan⟩ := h.pushed hpushed
    obtain ⟨rfl, rfl⟩ := List.cons.inj (hbuffer.symm.trans hbuffer')
    exact ⟨n, if_pos hpushed, h, hscan, hbuffer, rfl⟩
  · have hsound : scan.Sound := h.sound scan (by rw [hbuffer]; exact List.mem_cons_self)
    obtain ⟨e, heq, hscan⟩ := Node.pushLidar_spec hsound n
    refine ⟨n.pushLidar scan, if_neg hpushed, ?_, hscan, by rw [heq]; exact hbuffer, by rw [heq]⟩
    rw [heq] at hscan ⊢
    exact ⟨h.fed, h.ready, h.first, h.after, h.needInit, h.measured, h.frame, h.imuPushed, rfl, h.sound,
      fun _ => ⟨scan, rest, hbuffer, hscan⟩, h.scans, h.early, h.whole, h.waits⟩

/-- The scan is measured: the deque begins with the next sample and reaches beyond the scan. -/
structure Node.Measures (n : Node K) (scan : Scan K) : Prop where
  sound : scan.Sound
  pushed : scan.Pushed n.meas n.lidarEndTime
  ready : n.feed.Ready
  reaches : n.lidarEndTime ≤ n.lastTimestampImu

omit [IsStrictOrderedRing K] in
/-- The samples of a measure are taken, or there is nothing more to initialize. -/
theorem Node.Kept.pushImu {pending : List (Scan K)} {bound : K} {o' : List (Act K)} (h : n.Kept pt lib pending o)
    (hfed : n.feed.Fed n.lastTimestampImu o') (hne : n.feed.imuDeque ≠ []) (hbound : bound ≤ n.lastTimestampImu)
    (hscan : n.initMap = false → ∃ scan ∈ firstScans o', ∃ p ∈ scan.points, bound ≤ p.time scan.begTime) :
    ∃ f imus, n.pushImu bound = { n with
        imuPushed := true, feed := f, meas := { n.meas with imu := n.meas.imu ++ imus } } ∧
      f.Fed n.lastTimestampImu o' ∧ f.Ready ∧ f.isFirstFrame = n.feed.isFirstFrame := by
  rw [Node.pushImu, h.imuPushed, if_neg Bool.false_ne_true]
  by_cases hneed : n.pImu.imuNeedInit = true
  · obtain ⟨front, rest, hdeque⟩ := List.exists_cons_of_ne_nil hne
    have hreach := hfed.reaches hne hbound
    rw [hdeque] at hreach
    obtain ⟨taken, front', rest', last', htakes, hcollect⟩ := Feed.collectLoop_spec bound front rest n.feed hdeque hreach
    rw [← hdeque] at htakes
    rw [if_pos hneed, hdeque]
    dsimp only
    rw [hcollect]
    have hmap := h.needInit hneed
    refine ⟨_, taken, rfl, hfed.drop _ htakes (h.frame hmap) (hscan hmap), ⟨⟨rest', rfl⟩, fun hfirst => ?_⟩, rfl⟩
    exact absurd (hfirst.symm.trans (h.frame hmap)) Bool.false_ne_true
  · have hfirst : n.flgFirstScan = false := Bool.eq_false_iff.2 fun hscan => hneed (h.first hscan)
    rw [if_neg hneed]
    exact ⟨n.feed, [], by rw [List.append_nil], hfed, h.ready hfirst, rfl⟩

/-- **A scan is measured when a sample has come that is not older than its end**; otherwise it waits. -/
theorem Node.Kept.syncPackages (h : n.Kept pt lib [] o) :
    (∃ n', n.syncPackages pt = (n', false) ∧ n'.Kept pt lib [] o) ∨
    ∃ n' scan, n.syncPackages pt = (n', true) ∧ n'.Measures scan ∧ n'.Kept pt lib [scan] (o ++ [.measured scan]) := by
  cases hbuffer : n.lidarBuffer with
  | nil => exact Or.inl ⟨n, by rw [Node.syncPackages, hbuffer], h⟩
  | cons scan lidarBuffer =>
    cases hdeque : n.feed.imuDeque with
    | nil => exact Or.inl ⟨n, by rw [Node.syncPackages, hbuffer, hdeque], h⟩
    | cons imu imuDeque =>
      obtain ⟨n₁, hn₁, hkept, hpushed, hbuffer₁, hfeed⟩ := h.pushLidar hbuffer
      have hsync : n.syncPackages pt = if n₁.lastTimestampImu < n₁.lidarEndTime then (n₁, false)
          else ({ n₁.pushImu n₁.lidarEndTime with
            lidarBuffer := lidarBuffer, lidarPushed := false, imuPushed := false }, true) := by
        rw [Node.syncPackages, hbuffer, hdeque]
        dsimp only
        rw [hn₁, hkept.loseLid]
        rfl
      by_cases hwait : n₁.lastTimestampImu < n₁.lidarEndTime
      · exact Or.inl ⟨n₁, by rw [hsync, if_pos hwait], hkept⟩
      · have hle := not_lt.1 hwait
        have hne : n₁.feed.imuDeque ≠ [] := by
          rw [hfeed, hdeque]
          exact List.cons_ne_nil _ _
        have hfed : n₁.feed.Fed n₁.lastTimestampImu (o ++ [.measured scan]) := hkept.fed.append rfl rfl
        have hfirstScan : n₁.initMap = false → ∃ scan' ∈ firstScans (o ++ [.measured scan]), ∃ p ∈ scan'.points,
            n₁.lidarEndTime ≤ p.time scan'.begTime := fun hmap => by
          obtain ⟨p, hp, heq⟩ := hpushed.end_mem
          refine ⟨scan, ?_, p, hp, heq.le⟩
          rw [firstScans_of_early (hkept.append_early hmap (by simp) rfl).2, measuredOf_append]
          exact List.mem_append_right _ List.mem_cons_self
        obtain ⟨f, imus, hpushImu, hfed, hready, hframe⟩ := hkept.pushImu hfed hne hle hfirstScan
        refine Or.inr ⟨_, scan, by rw [hsync, if_neg hwait], ?_, ?_⟩
        · rw [hpushImu]
          exact ⟨h.sound scan (by rw [hbuffer]; exact List.mem_cons_self),
            ⟨hpushed.lidar, hpushed.begTime, hpushed.beg_le, hpushed.le_end, hpushed.end_mem⟩, hready, hle⟩
        · rw [hpushImu]
          have hcovered : scan.Covered (acceptedOf o) := by
            obtain ⟨s, hs, hle'⟩ := hkept.fed.reaches hne hle
            obtain ⟨taken, haccepted, -⟩ := hkept.fed.taken
            exact ⟨s, by rw [haccepted]; exact List.mem_append_right _ hs, fun p hp => (hpushed.le_end p hp).trans hle'⟩
          refine ⟨hfed, fun _ => hready, hkept.first, hkept.after, hkept.needInit, ?_, ?_, rfl, hkept.loseLid, ?_,
            fun hfalse => absurd hfalse Bool.false_ne_true, ?_, fun hmap => hkept.append_early hmap (by simp) rfl,
            fun hmap => hkept.append_whole hmap rfl, ?_⟩
          · intro hneed hnil
            exact hkept.measured hneed (List.append_eq_nil_iff.1 hnil).1
          · intro hmap
            rw [hframe]
            exact hkept.frame hmap
          · intro scan' hscan'
            exact hkept.sound scan' (by rw [hbuffer₁]; exact List.mem_cons_of_mem _ hscan')
          · have hscans := hkept.scans
            rw [hbuffer₁] at hscans
            rw [bufferedOf_append, measuredOf_append, List.append_assoc]
            exact (List.append_nil _).trans hscans
          · exact hkept.waits.snoc fun scan' heq => by
              cases heq
              exact hcovered

theorem Node.Measures.firstScan {scan : Scan K} (hm : n.Measures scan) (hfed : n.feed.Fed n.lastTimestampImu o)
    (hfirst : n.flgFirstScan = true → n.feed.isFirstFrame = true) (hmem : n.flgFirstScan = true → scan ∈ firstScans o) :
    ∃ f, n.firstScan = some { n with flgFirstScan := false, feed := f } ∧ f.Fed n.lastTimestampImu o ∧ f.Ready ∧
      f.isFirstFrame = n.feed.isFirstFrame := by
  by_cases hscan : n.flgFirstScan = true
  · have h1000 : (0 : K) < 1000.0 := by norm_num
    obtain ⟨rest, hdeque⟩ := hm.ready.next
    have hle : n.meas.lidarBegTime ≤ n.lastTimestampImu := by
      rw [hm.pushed.begTime]
      exact hm.pushed.beg_le.trans hm.reaches
    have hreach := hfed.reaches (hdeque ▸ List.cons_ne_nil _ _) hle
    rw [hdeque] at hreach
    obtain ⟨taken, front', rest', last', htakes, hskip⟩ :=
      Feed.skipLoop_spec n.meas.lidarBegTime n.feed.imuNext rest n.feed hdeque rfl hreach
    rw [← hdeque] at htakes
    have hbeg : ∃ p ∈ scan.points, n.meas.lidarBegTime ≤ p.time scan.begTime := by
      obtain ⟨p, hp⟩ := List.exists_mem_of_ne_nil _ hm.sound.ne_nil
      rw [hm.pushed.begTime]
      exact ⟨p, hp, le_add_of_nonneg_left (div_nonneg (hm.sound.nonneg p hp) h1000.le)⟩
    refine ⟨_, ?_, hfed.drop last' htakes (hfirst hscan) ⟨scan, hmem hscan, hbeg⟩, ⟨⟨rest', rfl⟩, fun hframe => ?_⟩, rfl⟩
    · rw [Node.firstScan, if_pos hscan, Feed.skip, hdeque]
      dsimp only
      rw [hskip]
      rfl
    · exact absurd (hframe.symm.trans (hfirst hscan)) Bool.false_ne_true
  · refine ⟨n.feed, ?_, hfed, hm.ready, rfl⟩
    rw [Node.firstScan, if_neg hscan, ← Bool.eq_false_iff.2 hscan]

/-! ## Initialization -/

section Process

variable (imus : List (Imu K)) (lidar : List (PointType K)) {p : ImuProcess K}

omit [IsStrictOrderedRing K] [LinearOrder K]

@[simp] theorem ImuProcess.foldl_average_after (imus : List (Imu K)) (p : ImuProcess K) :
    (imus.foldl ImuProcess.average p).afterImuInit = p.afterImuInit := by
  induction imus generalizing p with
  | nil => rfl
  | cons imu imus ih => rw [List.foldl_cons, ih]; rfl

theorem ImuProcess.imuInit_after (first : Imu K) (h : p.afterImuInit = false) :
    (p.imuInit first imus).afterImuInit = false := by
  rw [ImuProcess.imuInit]
  dsimp only
  rw [ImuProcess.foldl_average_after]
  split
  · rfl
  · exact h

theorem ImuProcess.process_stays (h : p.imuNeedInit = false) : (p.process imus lidar).1.imuNeedInit = false := by
  cases imus with
  | nil => exact h
  | cons first rest =>
    rw [ImuProcess.process, h, if_neg Bool.false_ne_true]

/-- **Once there is nothing to initialize the cloud is the scan's**, and there have been samples. -/
theorem ImuProcess.process_done (hp : p.imuNeedInit = false → imus ≠ [])
    (h : (p.process imus lidar).1.imuNeedInit = false) : imus ≠ [] ∧ (p.process imus lidar).2 = some lidar := by
  cases imus with
  | nil => exact absurd rfl (hp h)
  | cons first rest =>
    refine ⟨List.cons_ne_nil _ _, ?_⟩
    rw [ImuProcess.process] at h ⊢
    dsimp only at h ⊢
    by_cases hneed : p.imuNeedInit = true
    · rw [if_pos hneed] at h ⊢
      split at h
      · rw [if_pos ‹_›]
      · exact absurd h.symm Bool.false_ne_true
    · rw [if_neg hneed]

theorem ImuProcess.process_after (hp : p.afterImuInit = true → p.imuNeedInit = false)
    (h : (p.process imus lidar).1.afterImuInit = true) : (p.process imus lidar).1.imuNeedInit = false := by
  cases imus with
  | nil => exact hp h
  | cons first rest =>
    rw [ImuProcess.process] at h ⊢
    dsimp only at h ⊢
    by_cases hneed : p.imuNeedInit = true
    · rw [if_pos hneed] at h ⊢
      have hnot : p.afterImuInit = false := Bool.eq_false_iff.2 fun hafter => by
        rw [hp hafter] at hneed
        exact Bool.false_ne_true hneed
      split at h
      · rw [if_pos ‹_›]
      · have := ImuProcess.imuInit_after (first :: rest) first hnot
        exact absurd (this.symm.trans h) Bool.false_ne_true
    · rw [if_neg hneed]
      exact Bool.eq_false_iff.2 hneed

end Process

/-! ## Mapping -/

omit [IsStrictOrderedRing K] in
/-- What a scan that has been mapped leaves, wherever it went. -/
theorem Node.Kept.mapped {scan : Scan K} (h : n.Kept pt lib [scan] o) {f : Feed K} {p : ImuProcess K} {map : Bool}
    {undistort world : List (PointType K)} (hes : ∀ a ∈ es, a.OfFilter) (hfed : f.Fed n.lastTimestampImu (o ++ es))
    (hready : f.Ready) (hafter : p.afterImuInit = true → p.imuNeedInit = false) (hneed : p.imuNeedInit = true → map = false)
    (hmeas : p.imuNeedInit = false → n.meas.imu ≠ []) (hframe : map = false → f.isFirstFrame = true)
    (hearly : map = false → updates (o ++ es) = [] ∧ ∀ points, Act.initMap points ∉ o ++ es)
    (hwhole : map = true → ∃ before points after fused, o ++ es = before ++ .initMap points :: after ∧ updates before = [] ∧
      measuredOf after = fused ++ [] ∧ timedOf (o ++ es) = fused.flatMap (Scan.timed pt lib)) :
    Node.Kept pt lib [] { n with
      flgFirstScan := false, feed := f, pImu := p, initMap := map, featsUndistort := undistort, initFeatsWorld := world }
      (o ++ es) where
  fed := hfed
  ready _ := hready
  first hfirst := absurd hfirst Bool.false_ne_true
  after := hafter
  needInit := hneed
  measured := hmeas
  frame := hframe
  imuPushed := h.imuPushed
  loseLid := h.loseLid
  sound := h.sound
  pushed := h.pushed
  scans := by
    rw [bufferedOf_append_filter hes, measuredOf_append_filter hes]
    exact h.scans
  early := hearly
  whole := hwhole
  waits := h.waits.append hes

/-- **The scan goes where it should**: nowhere while the IMU is initialized, then into the first map, then into the filter. -/
theorem Node.Kept.mapping {scan : Scan K} (h : n.Kept pt lib [scan] o) (hm : n.Measures scan) (hmem : scan ∈ measuredOf o) :
    ∃ n' acts, n.mapping pt lib = some (n', acts) ∧ (∀ a ∈ acts, a.OfFilter) ∧ n'.Kept pt lib [] (o ++ acts) := by
  have hfirstScan : n.flgFirstScan = true → scan ∈ firstScans o := fun hfirst => by
    rw [firstScans_of_early (h.early (h.needInit (h.first hfirst))).2]
    exact hmem
  obtain ⟨f, hscan, hfed, hready, hframe⟩ :=
    hm.firstScan h.fed (fun hfirst => h.frame (h.needInit (h.first hfirst))) hfirstScan
  have hstays := ImuProcess.process_stays n.meas.imu n.meas.lidar (p := n.pImu)
  have hdone := ImuProcess.process_done n.meas.imu n.meas.lidar h.measured
  have hafter := ImuProcess.process_after n.meas.imu n.meas.lidar h.after
  rw [Node.mapping, hscan, Option.bind_some]
  dsimp only
  generalize n.pImu.process n.meas.imu n.meas.lidar = p at hstays hdone hafter ⊢
  obtain ⟨pImu, cloud⟩ := p
  dsimp only at hstays hdone hafter ⊢
  by_cases hinit : (!pImu.afterImuInit && pImu.imuNeedInit) = true
  · -- the IMU is still being initialized
    rw [if_pos hinit]
    simp only [Bool.and_eq_true, Bool.not_eq_true'] at hinit
    have hneed : n.pImu.imuNeedInit = true := Bool.eq_true_of_not_eq_false fun hneed => by
      rw [hstays hneed] at hinit
      exact Bool.false_ne_true hinit.2
    have hmap := h.needInit hneed
    have hnone : ∀ a ∈ ([] : List (Act K)), a.OfFilter := fun a ha => absurd ha List.not_mem_nil
    refine ⟨_, [], rfl, hnone, h.mapped hnone ?_ hready hafter (fun _ => hmap) (fun hneed' => (hdone hneed').1)
      (fun _ => hframe.trans (h.frame hmap)) (fun _ => h.append_early hmap (by simp) rfl)
      fun hmap' => absurd (hmap.symm.trans hmap') Bool.false_ne_true⟩
    rwa [List.append_nil]
  · rw [if_neg hinit]
    have hneed : pImu.imuNeedInit = false := by
      by_cases hafterInit : pImu.afterImuInit = true
      · exact hafter hafterInit
      · simpa [Bool.eq_false_iff.2 hafterInit] using hinit
    have hneedAbs : pImu.imuNeedInit = true → False := fun htrue => Bool.false_ne_true (hneed.symm.trans htrue)
    obtain ⟨hmeas, hcloud⟩ := hdone hneed
    have hinitsOf : ∀ a ∈ (if pImu.afterImuInit then [] else [Act.setInit pImu.meanAcc]), a.OfFilter := by
      split <;> simp
    have hinitsUpdates : updates (if pImu.afterImuInit then [] else [Act.setInit pImu.meanAcc]) = [] := by
      split <;> rfl
    have hinitsMap : ∀ points, Act.initMap points ∉ (if pImu.afterImuInit then [] else [Act.setInit pImu.meanAcc]) := by
      split <;> simp
    generalize (if pImu.afterImuInit then [] else [Act.setInit pImu.meanAcc]) = inits at hinitsOf hinitsUpdates hinitsMap ⊢
    have hfedInits : f.Fed n.lastTimestampImu (o ++ inits) :=
      hfed.append (acceptedOf_filter hinitsOf) hinitsUpdates
    rw [hcloud, Option.getD_some]
    by_cases hmap : n.initMap = true
    · -- the scan goes into the filter
      rw [if_pos hmap, hm.pushed.lidar, hm.pushed.begTime]
      obtain ⟨g, acts, hloop, hfed', hready', -, htimed', hof⟩ :=
        hfedInits.pointLoop pt scan.begTime hready (bodyOf_ne_nil pt lib hm.sound.ne_nil) (lib.sort_sorted _) fun p hp => by
          obtain ⟨q, hq, hle⟩ := (mem_bodyOf hp).2
          exact (time_le_time hle).trans ((hm.pushed.le_end q hq).trans hm.reaches)
      rw [bodyOf] at hloop
      rw [hloop, Option.map_some]
      have hacts : ∀ a ∈ inits ++ acts, a.OfFilter := List.forall_mem_append.2 ⟨hinitsOf, hof⟩
      rw [List.append_assoc] at hfed'
      refine ⟨_, _, rfl, hacts, h.mapped hacts hfed' hready' hafter (fun hneed' => (hneedAbs hneed').elim) (fun _ => hmeas)
        (fun hmap' => absurd (hmap'.symm.trans hmap) Bool.false_ne_true)
        (fun hmap' => absurd (hmap'.symm.trans hmap) Bool.false_ne_true) fun _ => ?_⟩
      obtain ⟨before, points, after, fused, rfl, hbefore, hmeasured, htimed⟩ := h.whole hmap
      refine ⟨before, points, after ++ (inits ++ acts), fused ++ [scan], by simp, hbefore, ?_, ?_⟩
      · rw [measuredOf_append_filter hacts, hmeasured, List.append_nil]
      · have hinits : timedOf inits = [] := by rw [timedOf, hinitsUpdates]; rfl
        rw [timedOf_append (before ++ .initMap points :: after), timedOf_append inits, hinits, htimed, htimed',
          List.flatMap_append, List.flatMap_singleton]
        rfl
    · -- the scan goes into the first map
      have hmap' : n.initMap = false := Bool.eq_false_iff.2 hmap
      have hframe' : f.isFirstFrame = true := hframe.trans (h.frame hmap')
      rw [if_neg hmap]
      split
      · have hacts : ∀ a ∈ inits ++ [Act.initMap (n.initFeatsWorld ++ n.meas.lidar)], a.OfFilter :=
          List.forall_mem_append.2 ⟨hinitsOf, by simp⟩
        have hupdates : updates (inits ++ [Act.initMap (n.initFeatsWorld ++ n.meas.lidar)]) = [] := by
          rw [updates_append, hinitsUpdates]
          rfl
        refine ⟨_, _, rfl, hacts, h.mapped hacts
          (hfed.append (acceptedOf_filter hacts) hupdates) hready hafter (fun hneed' => (hneedAbs hneed').elim)
          (fun _ => hmeas) (fun _ => hframe')
          (fun htrue => absurd htrue.symm Bool.false_ne_true) fun _ => ?_⟩
        have hnone : updates (o ++ inits) = [] := by rw [updates_append, (h.early hmap').1, hinitsUpdates, List.append_nil]
        refine ⟨o ++ inits, _, [], [], by rw [List.append_assoc], hnone, rfl, ?_⟩
        rw [timedOf, updates_append, (h.early hmap').1, hupdates]
        rfl
      · exact ⟨_, _, rfl, hinitsOf, h.mapped hinitsOf hfedInits hready hafter (fun hneed' => (hneedAbs hneed').elim)
          (fun _ => hmeas) (fun _ => hframe') (fun _ => h.append_early hmap' hinitsMap hinitsUpdates)
          fun htrue => absurd (hmap'.symm.trans htrue) Bool.false_ne_true⟩

/-! ## The callbacks -/

theorem aviaLoop_nonneg (pt : Params K) : ∀ (validNum : Nat) (last : PointType K) (points : List (CustomPoint K)),
    ∀ p ∈ aviaLoop pt validNum last points, 0 ≤ p.curvature
  | _, _, [], p, hp => absurd hp List.not_mem_nil
  | validNum, last, point :: points, p, hp => by
    have h1000000 : (0 : K) < 1000000.0 := by norm_num
    rw [aviaLoop] at hp
    split at hp
    · split at hp
      · dsimp only at hp
        split at hp
        · exact aviaLoop_nonneg pt _ _ points p hp
        · split at hp
          · rcases List.mem_cons.1 hp with rfl | hp
            · exact div_nonneg (Nat.cast_nonneg _) h1000000.le
            · exact aviaLoop_nonneg pt _ _ points p hp
          · exact aviaLoop_nonneg pt _ _ points p hp
      · exact aviaLoop_nonneg pt _ _ points p hp
    · exact aviaLoop_nonneg pt _ _ points p hp

theorem Node.Kept.livoxPclCbk (h : n.Kept pt lib [] o) (msg : CustomMsg K) :
    (n.livoxPclCbk pt msg).1.Kept pt lib [] (o ++ (n.livoxPclCbk pt msg).2) := by
  rw [Node.livoxPclCbk]
  split
  · rw [List.append_nil]
    exact h
  · split
    · rw [List.append_nil]
      exact ⟨h.fed, h.ready, h.first, h.after, h.needInit, h.measured, h.frame, h.imuPushed, h.loseLid, h.sound, h.pushed,
        h.scans, h.early, h.whole, h.waits⟩
    · rename_i hne
      dsimp only
      have hsound : Scan.Sound (⟨msg.stamp, aviaHandler pt msg⟩ : Scan K) :=
        ⟨hne, fun p hp => aviaLoop_nonneg pt 0 .zero msg.points.tail p hp⟩
      generalize (⟨msg.stamp, aviaHandler pt msg⟩ : Scan K) = scan at hsound ⊢
      have hbuffered : bufferedOf (o ++ [.buffered scan]) = bufferedOf o ++ [scan] := bufferedOf_append _ _
      have hmeasured : measuredOf (o ++ [.buffered scan]) = measuredOf o :=
        (measuredOf_append _ _).trans (List.append_nil _)
      refine ⟨h.fed.append rfl rfl, h.ready, h.first, h.after, h.needInit, h.measured, h.frame, h.imuPushed,
        h.loseLid, ?_, ?_, ?_, fun hmap => h.append_early hmap (by simp) rfl, fun hmap => h.append_whole hmap rfl,
        h.waits.snoc fun scan heq => by cases heq⟩
      · intro scan' hscan'
        rcases List.mem_append.1 hscan' with hscan' | hscan'
        · exact h.sound scan' hscan'
        · rw [List.mem_singleton.1 hscan']
          exact hsound
      · intro hpushed
        obtain ⟨front, rest, hbuffer, hfront⟩ := h.pushed hpushed
        refine ⟨front, rest ++ [scan], ?_, hfront⟩
        dsimp only
        rw [hbuffer, List.cons_append]
      · rw [hbuffered, hmeasured, h.scans, List.append_assoc]

omit [IsStrictOrderedRing K] in
/-- A sample comes. -/
theorem Feed.Fed.snoc {f : Feed K} (h : f.Fed lastTs o) {msg : Imu K} (hle : lastTs ≤ msg.stamp) :
    Feed.Fed msg.stamp { f with imuDeque := f.imuDeque ++ [msg] } (o ++ [.accepted msg]) := by
  have haccepted : acceptedOf (o ++ [.accepted msg]) = acceptedOf o ++ [msg] := acceptedOf_append _ _
  have hupdates : updates (o ++ [.accepted msg]) = updates o := (updates_append _ _).trans (List.append_nil _)
  have hfused : fusedOf (o ++ [.accepted msg]) = fusedOf o := by rw [fusedOf, hupdates, fusedOf]
  refine ⟨?_, ?_, ?_, ?_, ?_, ?_, ?_, hupdates ▸ h.turns, ?_, ?_, hupdates ▸ h.full, hupdates ▸ h.begun,
    hupdates ▸ h.opens, h.accounted.snoc msg⟩
  · rw [haccepted]
    refine List.pairwise_append.2 ⟨h.inOrder, List.pairwise_singleton _ _, fun a ha b hb => ?_⟩
    rw [List.mem_singleton.1 hb]
    exact (h.upTo a ha).trans hle
  · intro imu himu
    rw [haccepted] at himu
    rcases List.mem_append.1 himu with himu | himu
    · exact (h.upTo imu himu).trans hle
    · rw [List.mem_singleton.1 himu]
  · intro imu himu
    dsimp only at himu
    rw [List.getLast?_append_of_ne_nil _ (List.cons_ne_nil msg []), List.getLast?_singleton, Option.mem_some_iff] at himu
    rw [himu]
  · obtain ⟨taken, htaken, hsub⟩ := h.taken
    refine ⟨taken, ?_, hfused ▸ hsub⟩
    rw [haccepted, htaken, List.append_assoc]
  · intro hframe
    rw [hupdates]
    exact h.first hframe
  · rw [hfused]
    exact h.rising
  · rw [hfused]
    exact h.behind
  · intro u hu imu himu
    rw [hupdates] at hu
    rcases List.mem_append.1 himu with himu | himu
    · exact h.ahead u hu imu himu
    · rw [List.mem_singleton.1 himu]
      exact (h.reached u hu).trans hle
  · intro u hu
    rw [hupdates] at hu
    exact (h.reached u hu).trans hle

omit [IsStrictOrderedRing K] in
theorem Node.Kept.imuCbk (h : n.Kept pt lib [] o) (msgIn : Imu K) :
    (n.imuCbk pt msgIn).1.Kept pt lib [] (o ++ (n.imuCbk pt msgIn).2) := by
  obtain ⟨msg, hmsg⟩ : ∃ msg : Imu K,
      msg = { msgIn with stamp := msgIn.stamp - pt.timediffImuWrtLidar - pt.timeLagImuWtrLidar } := ⟨_, rfl⟩
  have heq : n.imuCbk pt msgIn = if msg.stamp < n.lastTimestampImu then (n, [])
      else ({ n with lastTimestampImu := msg.stamp, feed := { n.feed with imuDeque := n.feed.imuDeque ++ [msg] } },
        [.accepted msg]) := by
    rw [hmsg]
    rfl
  rw [heq]
  split
  · rw [List.append_nil]
    exact h
  · rename_i hlt
    have hbuffered : bufferedOf (o ++ [.accepted msg]) = bufferedOf o := (bufferedOf_append _ _).trans (List.append_nil _)
    have hmeasured : measuredOf (o ++ [.accepted msg]) = measuredOf o := (measuredOf_append _ _).trans (List.append_nil _)
    refine ⟨h.fed.snoc (not_lt.1 hlt), fun hfirst => ?_, h.first, h.after, h.needInit, h.measured, h.frame, h.imuPushed,
      h.loseLid, h.sound, h.pushed, ?_, fun hmap => h.append_early hmap (by simp) rfl,
      fun hmap => h.append_whole hmap rfl, h.waits.snoc fun scan heq => by cases heq⟩
    · obtain ⟨rest, hdeque⟩ := (h.ready hfirst).next
      refine ⟨⟨rest ++ [msg], ?_⟩, (h.ready hfirst).ahead⟩
      dsimp only
      rw [hdeque, List.cons_append]
    · rw [hbuffered, hmeasured]
      exact h.scans

/-! ## Runs -/

omit [IsStrictOrderedRing K] in
theorem Node.kept_init (pt : Params K) (lib : Pcl K) : (Node.init : Node K).Kept pt lib [] [] where
  fed := {
    inOrder := List.Pairwise.nil
    upTo := fun imu himu => absurd himu List.not_mem_nil
    newest := fun imu himu => by cases himu
    taken := ⟨[], rfl, List.Sublist.slnil⟩
    first := fun _ => rfl
    rising := List.Pairwise.nil
    behind := fun hfalse => absurd hfalse.symm Bool.false_ne_true
    turns := Chronicle.turns_nil _ _
    ahead := fun u hu => absurd hu List.not_mem_nil
    reached := fun u hu => absurd hu List.not_mem_nil
    full := fun u hu => absurd hu List.not_mem_nil
    begun := fun hfalse => absurd hfalse.symm Bool.false_ne_true
    opens := fun u hu => by cases hu
    accounted := ⟨[], [], rfl, fun _ => rfl, fun imu himu => absurd himu List.not_mem_nil,
      fun imu himu => absurd himu List.not_mem_nil⟩ }
  ready := fun hfalse => absurd hfalse.symm Bool.false_ne_true
  first := fun _ => rfl
  after := fun hfalse => absurd hfalse Bool.false_ne_true
  needInit := fun _ => rfl
  measured := fun hfalse => absurd hfalse.symm Bool.false_ne_true
  frame := fun _ => rfl
  imuPushed := rfl
  loseLid := rfl
  sound := fun scan hscan => absurd hscan List.not_mem_nil
  pushed := fun hfalse => absurd hfalse Bool.false_ne_true
  scans := rfl
  early := fun _ => ⟨rfl, fun points hpoints => absurd hpoints List.not_mem_nil⟩
  whole := fun hfalse => absurd hfalse Bool.false_ne_true
  waits := fun before scan hprefix => by
    have := List.prefix_nil.1 hprefix
    simp at this

/-- **Every message and every turn of the main loop is taken, and keeps what the node keeps.** -/
theorem kept_step (h : n.Kept pt lib [] o) (e : Event K) :
    ∃ n' es, (node pt lib).step n e = some (n', es) ∧ n'.Kept pt lib [] (o ++ es) := by
  cases e with
  | imu msg => exact ⟨_, _, rfl, h.imuCbk msg⟩
  | lidar msg => exact ⟨_, _, rfl, h.livoxPclCbk msg⟩
  | round =>
    rcases h.syncPackages with ⟨n', hsync, hkept⟩ | ⟨n', scan, hsync, hm, hkept⟩
    · refine ⟨n', [], ?_, by rwa [List.append_nil]⟩
      change n.round pt lib = _
      rw [Node.round, hsync]
      rfl
    · obtain ⟨n'', acts, hmap, -, hkept'⟩ := hkept.mapping hm (by
        rw [measuredOf_append]
        exact List.mem_append_right _ List.mem_cons_self)
      refine ⟨n'', .measured scan :: acts, ?_, by rwa [List.append_assoc] at hkept'⟩
      change n.round pt lib = _
      rw [Node.round, hsync]
      dsimp only
      rw [hmap, hm.pushed.lidar, hm.pushed.begTime]
      rfl

theorem kept_run {events : List (Event K)} (hrun : (node pt lib).run Node.init events = some (n, o)) : n.Kept pt lib [] o :=
  Machine.inv_said_of_run (I := fun (n : Node K) o => n.Kept pt lib [] o)
    (fun n e n' es o h hst => by
      obtain ⟨n'', es', hst', h'⟩ := kept_step h e
      rw [hst] at hst'
      obtain ⟨rfl, rfl⟩ := Prod.mk.inj (Option.some.inj hst')
      exact h') (Node.kept_init pt lib) hrun

/-- What comes of the two streams: every scan taken in is measured once, in order, or waits, and none before a sample has come
that is not older than all its points; before the map stands nothing updates the filter, and after that every point of every
scan does once, at its time; the samples are popped in order, and some of those popped, each newer than the one before, have
updated the filter. -/
structure Streams (pt : Params K) (lib : Pcl K) (n : Node K) (o : List (Act K)) : Prop where
  scans : bufferedOf o = measuredOf o ++ n.lidarBuffer
  waits : Waits o
  points : updates o = [] ∧ (∀ points, Act.initMap points ∉ o) ∨ ∃ before points after,
    o = before ++ .initMap points :: after ∧ updates before = [] ∧
      timedOf o = (measuredOf after).flatMap (Scan.timed pt lib)
  samples : ∃ popped, acceptedOf o = popped ++ n.feed.imuDeque ∧ (fusedOf o).Sublist popped
  rising : (fusedOf o).Pairwise fun a b => a.stamp < b.stamp

omit [IsStrictOrderedRing K] in
theorem Node.Kept.streams (h : n.Kept pt lib [] o) : Streams pt lib n o where
  scans := h.scans
  waits := h.waits
  points := by
    by_cases hmap : n.initMap = true
    · obtain ⟨before, points, after, fused, heq, hbefore, hmeasured, htimed⟩ := h.whole hmap
      refine Or.inr ⟨before, points, after, heq, hbefore, ?_⟩
      rw [hmeasured, List.append_nil]
      exact htimed
    · exact Or.inl (h.early (Bool.eq_false_iff.2 hmap))
  samples := h.fed.taken
  rising := h.fed.rising

theorem node_runs (pt : Params K) (lib : Pcl K) (events : List (Event K)) :
    ∃ n o, (node pt lib).run Node.init events = some (n, o) := by
  obtain ⟨n, o, hrun, -⟩ := Machine.exists_run (I := fun n : Node K => ∃ o, n.Kept pt lib [] o)
    (fun n e hI => by
      obtain ⟨o, h⟩ := hI
      obtain ⟨n', es, hst, h'⟩ := kept_step h e
      exact ⟨n', es, hst, o ++ es, h'⟩) events ⟨[], Node.kept_init pt lib⟩
  exact ⟨n, o, hrun⟩

/-- **Messages and turns of the main loop in any order are all taken, and nothing is read that is not there: every scan is
measured once, in order, not before the IMU has come as far, nothing updates the filter before the map stands, and after that
each point of a scan does once, at its time; the samples that update it come in order, none twice.** -/
theorem node_keeps_streams (pt : Params K) (lib : Pcl K) (events : List (Event K)) :
    ∃ n o, (node pt lib).run Node.init events = some (n, o) ∧ Streams pt lib n o := by
  obtain ⟨n, o, hrun⟩ := node_runs pt lib events
  exact ⟨n, o, hrun, (kept_run hrun).streams⟩

/-! ## The order of the updates -/

theorem Scan.timed_pairwise (pt : Params K) (lib : Pcl K) (scan : Scan K) :
    (scan.timed pt lib).Pairwise fun x y => x.1 ≤ y.1 :=
  List.pairwise_map.2 ((lib.sort_sorted _).imp time_le_time)

/-- **The points of scans that are apart go into the filter in order.** -/
theorem timed_pairwise {scans : List (Scan K)} (h : Apart scans) :
    (scans.flatMap (Scan.timed pt lib)).Pairwise fun x y => x.1 ≤ y.1 := by
  refine List.pairwise_flatMap.2 ⟨fun scan _ => scan.timed_pairwise pt lib, h.imp fun {a b} hab x hx y hy => ?_⟩
  obtain ⟨p, hp, rfl⟩ := List.mem_map.1 hx
  obtain ⟨q, hq, rfl⟩ := List.mem_map.1 hy
  obtain ⟨p', hp', hpp'⟩ := (mem_bodyOf hp).2
  obtain ⟨q', hq', hqq'⟩ := (mem_bodyOf hq).1
  calc p.time a.begTime ≤ p'.time a.begTime := time_le_time hpp'
    _ ≤ q'.time b.begTime := hab p' hp' q' hq'
    _ ≤ q.time b.begTime := time_le_time hqq'

omit [IsStrictOrderedRing K] [Field K] [LinearOrder K] in
theorem Update.time_of_mem_timed : ∀ {u : Update K} {x : K × PointType K}, x ∈ u.timed → x.1 = u.time
  | .imu _, _, hx => absurd hx List.not_mem_nil
  | .points t ps, x, hx => by
    obtain ⟨p, -, rfl⟩ := List.mem_map.1 hx
    rfl

theorem Node.Kept.points_inOrder (h : n.Kept pt lib [] o) (hapart : Apart (measuredOf o)) :
    (updates o).Pairwise fun u v => u.IsPoints → v.IsPoints → u.time ≤ v.time := by
  have htimed : (timedOf o).Pairwise fun x y => x.1 ≤ y.1 := by
    rcases h.streams.points with ⟨hnil, -⟩ | ⟨before, points, after, rfl, -, htimed⟩
    · rw [timedOf, hnil]
      exact List.Pairwise.nil
    · rw [htimed]
      refine timed_pairwise (hapart.sublist ?_)
      rw [measuredOf_append]
      exact List.sublist_append_right (measuredOf before) _
  refine List.Pairwise.imp_of_mem ?_ (List.pairwise_flatMap.1 htimed).2
  intro u v hu hv huv hPu hPv
  obtain ⟨x, hx⟩ := List.exists_mem_of_ne_nil _ (h.fed.full u hu hPu)
  obtain ⟨y, hy⟩ := List.exists_mem_of_ne_nil _ (h.fed.full v hv hPv)
  rw [← Update.time_of_mem_timed hx, ← Update.time_of_mem_timed hy]
  exact huv x hx y hy

/-- **However messages and turns of the main loop come, the filter is updated in the order of time**, samples and points
together, when no point is older than one of a scan measured before. -/
theorem node_merges_streams (pt : Params K) (lib : Pcl K) (events : List (Event K)) (n : Node K) (o : List (Act K))
    (hrun : (node pt lib).run Node.init events = some (n, o)) (hapart : Apart (measuredOf o)) :
    InOrder Update.time (updates o) :=
  have hkept := kept_run hrun
  Chronicle.Turns.inOrder hkept.fed.turns.ordered hkept.fed.turns.next (hkept.points_inOrder hapart)

/-! ## No sample lost -/

/-- What was measured before there was a map is not newer than the first update. -/
theorem Node.Kept.le_opening (h : n.Kept pt lib [] o) (hapart : Apart (measuredOf o)) {u : Update K}
    (hu : u ∈ (updates o).head?) {scan : Scan K} (hscan : scan ∈ firstScans o) {p : PointType K} (hp : p ∈ scan.points) :
    p.time scan.begTime ≤ u.time := by
  have humem : u ∈ updates o := List.mem_of_mem_head? hu
  obtain ⟨x, hx⟩ := List.exists_mem_of_ne_nil _ (h.fed.full u humem (h.fed.opens u hu))
  have hxtimed : x ∈ timedOf o := List.mem_flatMap.2 ⟨u, humem, hx⟩
  rcases h.streams.points with ⟨hnil, -⟩ | ⟨before, points, after, rfl, -, htimed⟩
  · rw [hnil] at humem
    cases humem
  · rw [htimed] at hxtimed
    obtain ⟨scan', hscan', hx'⟩ := List.mem_flatMap.1 hxtimed
    obtain ⟨q, hq, rfl⟩ := List.mem_map.1 hx'
    obtain ⟨q', hq', hqq'⟩ := (mem_bodyOf hq).1
    rw [measuredOf_append] at hapart
    have hbefore : scan ∈ measuredOf before := (firstScans_sublist points before after).subset hscan
    calc p.time scan.begTime ≤ q'.time scan'.begTime :=
          (List.pairwise_append.1 hapart).2.2 scan hbefore scan' hscan' p hp q' hq'
      _ ≤ q.time scan'.begTime := time_le_time hqq'
      _ = u.time := Update.time_of_mem_timed hx

/-- **From the first update on no sample is lost**: each that is taken in waits in the deque, or its time is that of an update,
when no point is older than one of a scan measured before. -/
theorem node_loses_no_sample (pt : Params K) (lib : Pcl K) (events : List (Event K)) (n : Node K) (o : List (Act K))
    (hrun : (node pt lib).run Node.init events = some (n, o)) (hapart : Apart (measuredOf o)) :
    ∀ u ∈ (updates o).head?, ∀ imu ∈ acceptedOf o, u.time ≤ imu.stamp →
      imu ∈ n.feed.imuDeque ∨ ∃ v ∈ updates o, v.time = imu.stamp := by
  intro u hu imu himu hle
  have hkept := kept_run hrun
  obtain ⟨early, late, haccepted, -, hupdated, hearly⟩ := hkept.fed.accounted
  rw [haccepted] at himu
  rcases List.mem_append.1 himu with himu | himu
  · rcases List.mem_append.1 himu with himu | himu
    · rcases hearly imu himu with ⟨u', hu', hlt⟩ | ⟨scan, hscan, p, hp, hlt⟩
      · obtain rfl := Option.mem_unique hu hu'
        exact absurd hle (not_le.2 hlt)
      · exact absurd hle (not_le.2 (hlt.trans_le (hkept.le_opening hapart hu hscan hp)))
    · exact Or.inr (hupdated imu himu)
  · exact Or.inl himu

/-! ## Three scans -/

/-- No downsampling, and a stable sort. -/
def Pcl.plain : Pcl ℚ where
  filter cloud := cloud
  sort cloud := cloud.insertionSort fun p q => p.curvature ≤ q.curvature
  filter_ne_nil _ h := h
  filter_after _ p hp := ⟨p, hp, le_rfl⟩
  filter_before _ p hp := ⟨p, hp, le_rfl⟩
  sort_perm cloud := List.perm_insertionSort _ cloud
  sort_sorted cloud := by
    have : Std.Total fun p q : PointType ℚ => p.curvature ≤ q.curvature := ⟨fun p q => le_total p.curvature q.curvature⟩
    have : IsTrans (PointType ℚ) fun p q => p.curvature ≤ q.curvature := ⟨fun _ _ _ => le_trans⟩
    exact List.pairwise_insertionSort _ cloud

/-- The parameters of the sentry, with a smaller first map. -/
def sentryParams : Params ℚ where
  nScans := 4
  pointFilterNum := 1
  blind := 0.5
  detRange := 1000.0
  timediffImuWrtLidar := 0
  timeLagImuWtrLidar := 0
  lidarTimeInte := 0.1
  spaceDownSample := true
  initMapSize := 1
  propAtFreqOfImu := true

def sampleAt (stamp : ℚ) : Event ℚ := .imu ⟨stamp, fun _ => 0, fun _ => 0⟩

/-- A scan from `stamp` with one point that is looked at, a second later. -/
def scanAt (stamp : ℚ) : Event ℚ :=
  let ahead (offsetTime : UInt32) : CustomPoint ℚ := ⟨offsetTime, 1, 0, 0, 10, 0x10, 0⟩
  .lidar ⟨stamp, [ahead 0, ahead 1000000000]⟩

/-- The IMU is initialized during the first scan, which becomes the map. -/
def threeScans : List (Event ℚ) :=
  scanAt 0 :: (List.range 101).map (fun i => sampleAt (i / 200.0)) ++ [sampleAt 1, .round] ++
    [scanAt 5.0, sampleAt 5.5, sampleAt 7.0, .round] ++ [scanAt 8.0, sampleAt 8.5, sampleAt 10.0, .round]

def threeScansSaid : List (Act ℚ) := (((node sentryParams .plain).run Node.init threeScans).map Prod.snd).getD []

theorem threeScans_run : ∃ n, (node sentryParams .plain).run Node.init threeScans = some (n, threeScansSaid) := by
  obtain ⟨n, o, hrun⟩ := node_runs sentryParams .plain threeScans
  refine ⟨n, ?_⟩
  rw [threeScansSaid, hrun]
  rfl

theorem threeScans_apart : Apart (measuredOf threeScansSaid) := by decide +kernel

theorem node_keeps_streams_threeScans : ∃ n o, (node sentryParams .plain).run Node.init threeScans = some (n, o) ∧
    Streams sentryParams .plain n o :=
  node_keeps_streams sentryParams .plain threeScans

/-- The second scan is the first that the filter is updated by, and the third comes after two samples. -/
theorem node_merges_streams_threeScans : (updates threeScansSaid).map Update.time = [6.0, 7.0, 8.5, 9.0] ∧
    InOrder Update.time (updates threeScansSaid) := by
  obtain ⟨n, hrun⟩ := threeScans_run
  exact ⟨by decide +kernel, node_merges_streams sentryParams .plain threeScans n _ hrun threeScans_apart⟩

/-- Of the samples from the first update on, that at 10 waits. -/
theorem node_loses_no_sample_threeScans : ∃ n, (node sentryParams .plain).run Node.init threeScans = some (n, threeScansSaid) ∧
    ∀ u ∈ (updates threeScansSaid).head?, ∀ imu ∈ acceptedOf threeScansSaid, u.time ≤ imu.stamp →
      imu ∈ n.feed.imuDeque ∨ ∃ v ∈ updates threeScansSaid, v.time = imu.stamp := by
  obtain ⟨n, hrun⟩ := threeScans_run
  exact ⟨n, hrun, node_loses_no_sample sentryParams .plain threeScans n _ hrun threeScans_apart⟩

end Lio
end LfSentry
