import LfSentry.PointLioFeed
import Mathlib.Data.List.TakeWhile
import Mathlib.Tactic.NormNum
/-!
# PointLioUpdates — what the filter of the lidar odometry is updated by

What is said of the samples and the scans, and what one scan makes of it: the samples come in order, newer and newer, each
before the points that it is older than, and the whole cloud of the scan goes in.
-/
namespace LfSentry
namespace Lio

open Chronicle (newer latest InOrder Turns)

variable {K : Type}

/-- The samples taken in. -/
def acceptedOf (o : List (Act K)) : List (Imu K) :=
  o.filterMap fun | .accepted imu => some imu | _ => none

/-- The scans taken in. -/
def bufferedOf (o : List (Act K)) : List (Scan K) :=
  o.filterMap fun | .buffered scan => some scan | _ => none

def measuredOf (o : List (Act K)) : List (Scan K) :=
  o.filterMap fun | .measured scan => some scan | _ => none

/-- The samples that the filter was updated by. -/
def fusedOf (o : List (Act K)) : List (Imu K) :=
  (updates o).filterMap fun | .imu s => some s | .points _ _ => none

/-- The points that the filter was updated by, with their times. -/
def timedOf (o : List (Act K)) : List (K × PointType K) := (updates o).flatMap Update.timed

variable {o es : List (Act K)}

@[simp] theorem acceptedOf_append (o es : List (Act K)) : acceptedOf (o ++ es) = acceptedOf o ++ acceptedOf es :=
  List.filterMap_append

@[simp] theorem bufferedOf_append (o es : List (Act K)) : bufferedOf (o ++ es) = bufferedOf o ++ bufferedOf es :=
  List.filterMap_append

@[simp] theorem measuredOf_append (o es : List (Act K)) : measuredOf (o ++ es) = measuredOf o ++ measuredOf es :=
  List.filterMap_append

@[simp] theorem fusedOf_append (o es : List (Act K)) : fusedOf (o ++ es) = fusedOf o ++ fusedOf es := by
  simp [fusedOf]

@[simp] theorem timedOf_append (o es : List (Act K)) : timedOf (o ++ es) = timedOf o ++ timedOf es := by
  simp [timedOf]

theorem acceptedOf_filter (h : ∀ a ∈ es, a.OfFilter) : acceptedOf es = [] :=
  List.filterMap_eq_nil_iff.2 fun a ha => by
    have := h a ha
    cases a <;> simp_all

theorem bufferedOf_filter (h : ∀ a ∈ es, a.OfFilter) : bufferedOf es = [] :=
  List.filterMap_eq_nil_iff.2 fun a ha => by
    have := h a ha
    cases a <;> simp_all

theorem measuredOf_filter (h : ∀ a ∈ es, a.OfFilter) : measuredOf es = [] :=
  List.filterMap_eq_nil_iff.2 fun a ha => by
    have := h a ha
    cases a <;> simp_all

theorem bufferedOf_append_filter (hes : ∀ a ∈ es, a.OfFilter) : bufferedOf (o ++ es) = bufferedOf o := by
  rw [bufferedOf_append, bufferedOf_filter hes, List.append_nil]

theorem measuredOf_append_filter (hes : ∀ a ∈ es, a.OfFilter) : measuredOf (o ++ es) = measuredOf o := by
  rw [measuredOf_append, measuredOf_filter hes, List.append_nil]

theorem fusedOf_point (taken : List (Imu K)) {t : K} {points : List (PointType K)}
    (h : updates es = taken.map .imu ++ [.points t points]) : fusedOf es = taken := by
  rw [fusedOf, h, List.filterMap_append, List.filterMap_map]
  simp

theorem timedOf_point (taken : List (Imu K)) {t : K} {points : List (PointType K)}
    (h : updates es = taken.map .imu ++ [.points t points]) : timedOf es = points.map fun p => (t, p) := by
  rw [timedOf, h, List.flatMap_append, List.flatMap_map]
  simp

/-! ## The scans before the map -/

@[simp] def Act.notMap : Act K → Bool
  | .initMap _ => false
  | _ => true

/-- The scans measured before the map stands. -/
def firstScans (o : List (Act K)) : List (Scan K) := measuredOf (o.takeWhile Act.notMap)

theorem takeWhile_prefix_append (P : Act K → Bool) : ∀ o es : List (Act K), o.takeWhile P <+: (o ++ es).takeWhile P
  | [], es => List.nil_prefix
  | a :: o, es => by
    rw [List.cons_append, List.takeWhile_cons, List.takeWhile_cons]
    split
    · exact (List.prefix_cons_inj a).2 (takeWhile_prefix_append P o es)
    · exact List.nil_prefix

theorem firstScans_subset (o es : List (Act K)) : firstScans o ⊆ firstScans (o ++ es) :=
  ((takeWhile_prefix_append Act.notMap o es).sublist.filterMap _).subset

theorem firstScans_of_early (h : ∀ points, Act.initMap points ∉ o) : firstScans o = measuredOf o := by
  rw [firstScans, List.takeWhile_eq_self_iff.2]
  intro a ha
  cases a with
  | initMap points => exact absurd ha (h points)
  | _ => rfl

theorem takeWhile_sublist (points : List (PointType K)) : ∀ before after : List (Act K),
    ((before ++ .initMap points :: after).takeWhile Act.notMap).Sublist before
  | [], after => List.Sublist.slnil
  | a :: before, after => by
    rw [List.cons_append, List.takeWhile_cons]
    split
    · exact (takeWhile_sublist points before after).cons_cons a
    · exact List.nil_sublist _

theorem firstScans_sublist (points : List (PointType K)) (before after : List (Act K)) :
    (firstScans (before ++ .initMap points :: after)).Sublist (measuredOf before) :=
  (takeWhile_sublist points before after).filterMap _

/-! ## What is left behind -/

variable [LinearOrder K] [Field K]

/-- The sample is older than the first update, or than a point of a scan measured before there was a map. -/
def LeftBehind (o : List (Act K)) (imu : Imu K) : Prop :=
  (∃ u ∈ (updates o).head?, imu.stamp < u.time) ∨
    ∃ scan ∈ firstScans o, ∃ p ∈ scan.points, imu.stamp < p.time scan.begTime

theorem LeftBehind.append {imu : Imu K} (h : LeftBehind o imu) (es : List (Act K)) : LeftBehind (o ++ es) imu := by
  rcases h with ⟨u, hu, hlt⟩ | ⟨scan, hscan, hp⟩
  · refine Or.inl ⟨u, ?_, hlt⟩
    rw [updates_append, List.head?_append, Option.mem_def.1 hu]
    rfl
  · exact Or.inr ⟨scan, firstScans_subset o es hscan, hp⟩

/-- Of the samples that are not in the deque any more, those that were not left behind have their time among the updates; until
the filter begins all are left behind. -/
def Accounted (isFirstFrame : Bool) (deque : List (Imu K)) (o : List (Act K)) : Prop :=
  ∃ early late, acceptedOf o = early ++ late ++ deque ∧ (isFirstFrame = true → late = []) ∧
    (∀ imu ∈ late, ∃ u ∈ updates o, u.time = imu.stamp) ∧ ∀ imu ∈ early, LeftBehind o imu

variable {isFirstFrame : Bool} {deque taken rest : List (Imu K)}

theorem Accounted.append (h : Accounted isFirstFrame deque o) (hes : acceptedOf es = []) :
    Accounted isFirstFrame deque (o ++ es) := by
  obtain ⟨early, late, haccepted, hlate, hupdated, hearly⟩ := h
  refine ⟨early, late, by rw [acceptedOf_append, hes, List.append_nil, haccepted], hlate, fun imu himu => ?_,
    fun imu himu => (hearly imu himu).append es⟩
  obtain ⟨u, hu, heq⟩ := hupdated imu himu
  exact ⟨u, by rw [updates_append]; exact List.mem_append_left _ hu, heq⟩

theorem Accounted.leave (h : Accounted true (taken ++ rest) o) (htaken : ∀ imu ∈ taken, LeftBehind o imu) :
    Accounted isFirstFrame rest o := by
  obtain ⟨early, late, haccepted, hlate, -, hearly⟩ := h
  rw [hlate rfl, List.append_nil, ← List.append_assoc] at haccepted
  refine ⟨early ++ taken, [], by rw [List.append_nil, haccepted], fun _ => rfl, fun imu himu => absurd himu List.not_mem_nil,
    List.forall_mem_append.2 ⟨hearly, htaken⟩⟩

theorem Accounted.fuse (h : Accounted false (taken ++ rest) o) (htaken : ∀ imu ∈ taken, ∃ u ∈ updates o, u.time = imu.stamp) :
    Accounted false rest o := by
  obtain ⟨early, late, haccepted, -, hupdated, hearly⟩ := h
  refine ⟨early, late ++ taken, ?_, fun hfalse => absurd hfalse Bool.false_ne_true,
    List.forall_mem_append.2 ⟨hupdated, htaken⟩, hearly⟩
  rw [haccepted, List.append_assoc, List.append_assoc, List.append_assoc]

theorem Accounted.snoc (h : Accounted isFirstFrame deque o) (msg : Imu K) :
    Accounted isFirstFrame (deque ++ [msg]) (o ++ [.accepted msg]) := by
  obtain ⟨early, late, haccepted, hlate, hupdated, hearly⟩ := h
  have hupdates : updates (o ++ [.accepted msg]) = updates o := (updates_append _ _).trans (List.append_nil _)
  refine ⟨early, late, ?_, hlate, ?_, fun imu himu => (hearly imu himu).append _⟩
  · rw [acceptedOf_append, haccepted, List.append_assoc]
    rfl
  · rw [hupdates]
    exact hupdated

/-! ## The samples -/

/-- The samples taken in are in order, the deque holds the last of them up to the newest, and some of those popped, newer and
newer, have updated the filter, each before the points that it is older than. -/
structure Feed.Fed (lastTimestampImu : K) (f : Feed K) (o : List (Act K)) : Prop where
  inOrder : InOrder Imu.stamp (acceptedOf o)
  upTo : ∀ imu ∈ acceptedOf o, imu.stamp ≤ lastTimestampImu
  newest : ∀ imu ∈ f.imuDeque.getLast?, imu.stamp = lastTimestampImu
  taken : ∃ taken, acceptedOf o = taken ++ f.imuDeque ∧ (fusedOf o).Sublist taken
  first : f.isFirstFrame = true → updates o = []
  rising : (fusedOf o).Pairwise fun a b => a.stamp < b.stamp
  behind : f.isFirstFrame = false → ∀ imu ∈ fusedOf o, imu.stamp ≤ f.timeUpdateLast
  turns : Turns Update.IsPoints Update.time (updates o)
  ahead : ∀ u ∈ updates o, ∀ imu ∈ f.imuDeque, u.time ≤ imu.stamp
  reached : ∀ u ∈ updates o, u.time ≤ lastTimestampImu
  full : ∀ u ∈ updates o, u.IsPoints → u.timed ≠ []
  begun : f.isFirstFrame = false → ∃ u ∈ updates o, u.time = f.timeUpdateLast
  opens : ∀ u ∈ (updates o).head?, u.IsPoints
  accounted : Accounted f.isFirstFrame f.imuDeque o

variable {t lastTs : K} {f : Feed K}

theorem Feed.Fed.deque_inOrder (h : f.Fed lastTs o) : InOrder Imu.stamp f.imuDeque := by
  obtain ⟨taken, haccepted, -⟩ := h.taken
  have hinOrder := h.inOrder
  rw [haccepted] at hinOrder
  exact (List.pairwise_append.1 hinOrder).2.1

/-- While there are samples the deque reaches as far as the newest. -/
theorem Feed.Fed.reaches (h : f.Fed lastTs o) (hne : f.imuDeque ≠ []) (ht : t ≤ lastTs) :
    ∃ imu ∈ f.imuDeque, t ≤ imu.stamp := by
  have hlast := List.getLast?_eq_getLast_of_ne_nil hne
  refine ⟨f.imuDeque.getLast hne, List.getLast_mem hne, ?_⟩
  rw [h.newest _ hlast]
  exact ht

/-- Samples are popped: the deque still ends with the newest. -/
theorem Feed.Fed.pop {taken rest : List (Imu K)} {front : Imu K} (h : f.Fed lastTs o)
    (htakes : Takes t f.imuDeque taken front rest) : (∀ imu ∈ (front :: rest).getLast?, imu.stamp = lastTs) ∧
      ∃ before, acceptedOf o = before ++ taken ++ front :: rest ∧ (fusedOf o).Sublist before := by
  have hnewest := h.newest
  rw [htakes.deque, List.getLast?_append_of_ne_nil _ (List.cons_ne_nil front rest)] at hnewest
  obtain ⟨before, haccepted, hsub⟩ := h.taken
  exact ⟨hnewest, before, by rw [haccepted, htakes.deque, List.append_assoc], hsub⟩

/-- Samples older than a point of a scan measured before the map are left behind, and nothing else happens. -/
theorem Feed.Fed.drop {taken rest : List (Imu K)} {front : Imu K} (h : f.Fed lastTs o) (last : Imu K)
    (htakes : Takes t f.imuDeque taken front rest) (hfirst : f.isFirstFrame = true)
    (hscan : ∃ scan ∈ firstScans o, ∃ p ∈ scan.points, t ≤ p.time scan.begTime) :
    Feed.Fed lastTs { f with imuDeque := front :: rest, imuLast := last, imuNext := front } o where
  inOrder := h.inOrder
  upTo := h.upTo
  newest := (h.pop htakes).1
  taken := by
    obtain ⟨-, before, haccepted, hsub⟩ := h.pop htakes
    exact ⟨before ++ taken, haccepted, hsub.trans (List.sublist_append_left before taken)⟩
  first := h.first
  rising := h.rising
  behind := h.behind
  turns := h.turns
  ahead u hu imu himu := h.ahead u hu imu (by rw [htakes.deque]; exact List.mem_append_right taken himu)
  reached := h.reached
  full := h.full
  begun := h.begun
  opens := h.opens
  accounted := by
    have haccounted := h.accounted
    rw [hfirst, htakes.deque] at haccounted
    obtain ⟨scan, hmem, p, hp, hle⟩ := hscan
    exact haccounted.leave fun imu himu => Or.inr ⟨scan, hmem, p, hp, (htakes.taken imu himu).trans_le hle⟩

theorem Feed.Fed.append (h : f.Fed lastTs o) (hes : acceptedOf es = []) (hes' : updates es = []) : f.Fed lastTs (o ++ es) := by
  have haccepted : acceptedOf (o ++ es) = acceptedOf o := by rw [acceptedOf_append, hes, List.append_nil]
  have hupdates : updates (o ++ es) = updates o := by rw [updates_append, hes', List.append_nil]
  have hfused : fusedOf (o ++ es) = fusedOf o := by rw [fusedOf, hupdates, fusedOf]
  exact ⟨haccepted ▸ h.inOrder, haccepted ▸ h.upTo, h.newest, haccepted ▸ hfused ▸ h.taken,
    fun hfirst => hupdates.trans (h.first hfirst), hfused ▸ h.rising, hfused ▸ h.behind, hupdates ▸ h.turns, hupdates ▸ h.ahead, hupdates ▸ h.reached, hupdates ▸ h.full,
    hupdates ▸ h.begun, hupdates ▸ h.opens, h.accounted.append hes⟩

/-- **One turn of the filter's updates**: some of the samples taken, then the points of one time. -/
theorem Feed.Fed.turn {taken rest : List (Imu K)} {front : Imu K} {points : List (PointType K)} (h : f.Fed lastTs o)
    (htakes : Takes t f.imuDeque taken front rest) (ht : t ≤ lastTs) (hpoints : points ≠ []) {fused : List (Imu K)}
    (hfused : fused.Sublist taken) (hupdates : updates es = fused.map .imu ++ [.points t points]) :
    Turns Update.IsPoints Update.time (updates (o ++ es)) ∧
      (∀ u ∈ updates (o ++ es), ∀ imu ∈ front :: rest, u.time ≤ imu.stamp) ∧ (∀ u ∈ updates (o ++ es), u.time ≤ lastTs) ∧
      ∀ u ∈ updates (o ++ es), u.IsPoints → u.timed ≠ [] := by
  have hsorted := h.deque_inOrder
  rw [htakes.deque] at hsorted
  obtain ⟨htaken, hrest, hcross⟩ := List.pairwise_append.1 hsorted
  have hmem : ∀ s ∈ fused, s ∈ f.imuDeque := fun s hs => by
    rw [htakes.deque]
    exact List.mem_append_left _ (hfused.subset hs)
  have hturn : InOrder Update.time (fused.map Update.imu ++ [.points t points]) := by
    refine List.pairwise_append.2 ⟨List.pairwise_map.2 (htaken.sublist hfused), List.pairwise_singleton _ _, ?_⟩
    intro u hu v hv
    obtain ⟨s, hs, rfl⟩ := List.mem_map.1 hu
    rw [List.mem_singleton.1 hv]
    exact (htakes.taken s (hfused.subset hs)).le
  have hcases : ∀ u ∈ updates (o ++ es), u ∈ updates o ∨ (∃ s ∈ fused, Update.imu s = u) ∨ u = .points t points := by
    intro u hu
    rw [updates_append, hupdates] at hu
    rcases List.mem_append.1 hu with hu | hu
    · exact Or.inl hu
    · rcases List.mem_append.1 hu with hu | hu
      · exact Or.inr (Or.inl (List.mem_map.1 hu))
      · exact Or.inr (Or.inr (List.mem_singleton.1 hu))
  refine ⟨?_, fun u hu imu himu => ?_, fun u hu => ?_, fun u hu hP => ?_⟩
  · rw [updates_append, hupdates]
    refine h.turns.append hturn trivial fun u hu v hv => ?_
    obtain ⟨s, hs, rfl⟩ := List.mem_map.1 hv
    exact h.ahead u hu s (hmem s hs)
  · rcases hcases u hu with hu | ⟨s, hs, rfl⟩ | rfl
    · exact h.ahead u hu imu (by rw [htakes.deque]; exact List.mem_append_right taken himu)
    · exact hcross s (hfused.subset hs) imu himu
    · rcases List.mem_cons.1 himu with rfl | himu
      · exact htakes.front
      · exact htakes.front.trans ((List.pairwise_cons.1 hrest).1 imu himu)
  · rcases hcases u hu with hu | ⟨s, hs, rfl⟩ | rfl
    · exact h.reached u hu
    · obtain ⟨before, haccepted, -⟩ := h.taken
      exact h.upTo s (by rw [haccepted]; exact List.mem_append_right before (hmem s hs))
    · exact ht
  · rcases hcases u hu with hu | ⟨s, hs, rfl⟩ | rfl
    · exact h.full u hu hP
    · exact hP.elim
    · exact fun hnil => hpoints (List.map_eq_nil_iff.1 hnil)

/-! ## The cloud of a scan -/

/-- The cloud that goes into the filter for a scan. -/
def bodyOf (pt : Params K) (lib : Pcl K) (points : List (PointType K)) : List (PointType K) :=
  lib.sort (if pt.spaceDownSample then lib.filter points else points)

omit [Field K] in
/-- A point of it lies between two points of the scan in time. -/
theorem mem_bodyOf {pt : Params K} {lib : Pcl K} {points : List (PointType K)} {p : PointType K}
    (hp : p ∈ bodyOf pt lib points) :
    (∃ q ∈ points, q.curvature ≤ p.curvature) ∧ ∃ q ∈ points, p.curvature ≤ q.curvature := by
  have hp := (lib.sort_perm _).mem_iff.1 hp
  by_cases h : pt.spaceDownSample = true
  · rw [if_pos h] at hp
    exact ⟨lib.filter_after points p hp, lib.filter_before points p hp⟩
  · rw [if_neg h] at hp
    exact ⟨⟨p, hp, le_rfl⟩, ⟨p, hp, le_rfl⟩⟩

omit [Field K] in
theorem bodyOf_ne_nil (pt : Params K) (lib : Pcl K) {points : List (PointType K)} (h : points ≠ []) :
    bodyOf pt lib points ≠ [] := by
  intro hnil
  have hperm := lib.sort_perm (if pt.spaceDownSample then lib.filter points else points)
  rw [bodyOf] at hnil
  rw [hnil] at hperm
  have hnil := hperm.symm.eq_nil
  by_cases hdown : pt.spaceDownSample = true
  · rw [if_pos hdown] at hnil
    exact lib.filter_ne_nil points h hnil
  · rw [if_neg hdown] at hnil
    exact h hnil

omit [Field K] in
theorem le_endTime {p : PointType K} : ∀ {points : List (PointType K)} {m : K}, (p ∈ points ∨ p.curvature ≤ m) →
    p.curvature ≤ points.foldl (fun m p => if m < p.curvature then p.curvature else m) m
  | [], _, h => h.resolve_left List.not_mem_nil
  | q :: points, m, h => by
    rw [List.foldl_cons]
    refine le_endTime ?_
    rcases h with h | h
    · rcases List.mem_cons.1 h with rfl | h
      · refine Or.inr ?_
        split
        · exact le_rfl
        · exact not_lt.1 ‹_›
      · exact Or.inl h
    · refine Or.inr (h.trans ?_)
      split
      · exact le_of_lt ‹_›
      · exact le_rfl

omit [Field K] in
theorem endTime_mem : ∀ (points : List (PointType K)) (m : K),
    points.foldl (fun m p => if m < p.curvature then p.curvature else m) m = m ∨
      ∃ p ∈ points, points.foldl (fun m p => if m < p.curvature then p.curvature else m) m = p.curvature
  | [], _ => Or.inl rfl
  | q :: points, m => by
    rw [List.foldl_cons]
    rcases endTime_mem points (if m < q.curvature then q.curvature else m) with heq | ⟨p, hp, heq⟩
    · rw [heq]
      split
      · exact Or.inr ⟨q, List.mem_cons_self, rfl⟩
      · exact Or.inl rfl
    · exact Or.inr ⟨p, List.mem_cons_of_mem q hp, heq⟩

/-! ## The times of a scan -/

variable [IsStrictOrderedRing K]

theorem time_le_time {begTime : K} {p q : PointType K} (h : p.curvature ≤ q.curvature) : p.time begTime ≤ q.time begTime := by
  have h1000 : (0 : K) < 1000.0 := by norm_num
  exact add_le_add_left ((div_le_div_iff_of_pos_right h1000).2 h) begTime

section Step

variable {taken rest : List (Imu K)} {front : Imu K} {points : List (PointType K)} {tu : K}

omit [IsStrictOrderedRing K]

/-- The first time of all: the samples before it are left behind. -/
theorem Feed.Fed.begin (h : f.Fed lastTs o) (hfirst : f.isFirstFrame = true) (htakes : Takes t f.imuDeque taken front rest)
    (ht : t ≤ lastTs) (hpoints : points ≠ []) (last : Imu K) (hes : acceptedOf es = [])
    (hupdates : updates es = [.points t points]) : Feed.Fed lastTs ⟨front :: rest, last, front, false, t, t⟩ (o ++ es) := by
  obtain ⟨hnewest, before, htaken, -⟩ := h.pop htakes
  have haccepted : acceptedOf (o ++ es) = acceptedOf o := by rw [acceptedOf_append, hes, List.append_nil]
  have haccounted := h.accounted.append hes
  rw [htakes.deque, hfirst] at haccounted
  have hall : updates (o ++ es) = [.points t points] := by
    rw [updates_append, h.first hfirst, hupdates]
    rfl
  have hfused : fusedOf (o ++ es) = [] := by
    rw [fusedOf, hall]
    rfl
  obtain ⟨hturns, hahead, hreached, hfull⟩ := h.turn htakes ht hpoints (List.nil_sublist taken) hupdates
  refine ⟨haccepted ▸ h.inOrder, haccepted ▸ h.upTo, hnewest, ?_, by simp, ?_, ?_, hturns, hahead, hreached, hfull,
    fun _ => ?_, fun u hu => ?_, haccounted.leave fun imu himu => ?_⟩
  · exact ⟨before ++ taken, haccepted.trans htaken, hfused ▸ List.nil_sublist _⟩
  · rw [hfused]
    exact List.Pairwise.nil
  · intro _ imu himu
    rw [hfused] at himu
    cases himu
  · rw [hall]
    exact ⟨_, List.mem_cons_self, rfl⟩
  · rw [hall, List.head?_cons, Option.mem_some_iff] at hu
    rw [← hu]
    trivial
  · refine Or.inl ⟨.points t points, ?_, htakes.taken imu himu⟩
    rw [hall]
    rfl

/-- Another time: the newer ones of the samples before it are fused. -/
theorem Feed.Fed.proceed (h : f.Fed lastTs o) (hfirst : f.isFirstFrame = false)
    (htakes : Takes t f.imuDeque taken front rest) (ht : t ≤ lastTs) (hpoints : points ≠ []) (last : Imu K)
    (hes : acceptedOf es = []) (hupdates : updates es = (newer Imu.stamp f.timeUpdateLast taken).map .imu ++ [.points t points])
    (htu : tu = latest Imu.stamp f.timeUpdateLast taken ∨ latest Imu.stamp f.timeUpdateLast taken < t ∧ tu = t) :
    Feed.Fed lastTs ⟨front :: rest, last, front, false, t, tu⟩ (o ++ es) := by
  obtain ⟨hnewest, before, htaken, hsub⟩ := h.pop htakes
  have haccepted : acceptedOf (o ++ es) = acceptedOf o := by rw [acceptedOf_append, hes, List.append_nil]
  have haccounted := h.accounted.append hes
  rw [htakes.deque, hfirst] at haccounted
  have hfused : fusedOf (o ++ es) = fusedOf o ++ newer Imu.stamp f.timeUpdateLast taken := by
    rw [fusedOf_append, fusedOf_point _ hupdates]
  have hle : latest Imu.stamp f.timeUpdateLast taken ≤ tu := by
    rcases htu with rfl | ⟨hlt, rfl⟩
    · exact le_rfl
    · exact hlt.le
  have hnewer : ∀ s ∈ newer Imu.stamp f.timeUpdateLast taken, Update.imu s ∈ updates (o ++ es) := fun s hs => by
    rw [updates_append, hupdates]
    exact List.mem_append_right _ (List.mem_append_left _ (List.mem_map.2 ⟨s, hs, rfl⟩))
  obtain ⟨u₀, hu₀, htime⟩ := h.begun hfirst
  have hmem : u₀ ∈ updates (o ++ es) := by
    rw [updates_append]
    exact List.mem_append_left _ hu₀
  obtain ⟨hturns, hahead, hreached, hfull⟩ := h.turn htakes ht hpoints (Chronicle.newer_sublist _ taken) hupdates
  refine ⟨haccepted ▸ h.inOrder, haccepted ▸ h.upTo, hnewest, ?_, by simp, ?_, ?_, hturns, hahead, hreached, hfull,
    fun _ => ?_, fun u hu => ?_, haccounted.fuse fun imu himu => ?_⟩
  · refine ⟨before ++ taken, haccepted.trans htaken, ?_⟩
    rw [hfused]
    exact hsub.append (Chronicle.newer_sublist _ _)
  · rw [hfused, List.pairwise_append]
    refine ⟨h.rising, Chronicle.newer_pairwise _ _, fun a ha b hb => ?_⟩
    exact (h.behind hfirst a ha).trans_lt (Chronicle.lt_of_mem_newer hb)
  · intro _ imu himu
    rw [hfused] at himu
    rcases List.mem_append.1 himu with himu | himu
    · exact (h.behind hfirst imu himu).trans ((Chronicle.le_latest _ _).trans hle)
    · exact (Chronicle.le_latest_of_mem_newer himu).trans hle
  · rcases htu with rfl | ⟨-, rfl⟩
    · rcases Chronicle.latest_mem f.timeUpdateLast taken with heq | ⟨s, hs, heq⟩
      · exact ⟨u₀, hmem, htime.trans heq.symm⟩
      · exact ⟨_, hnewer s hs, heq⟩
    · refine ⟨.points _ points, ?_, rfl⟩
      rw [updates_append, hupdates]
      exact List.mem_append_right _ (List.mem_append_right _ List.mem_cons_self)
  · rw [updates_append, List.head?_append_of_ne_nil _ (List.ne_nil_of_mem hu₀)] at hu
    exact h.opens u hu
  · -- a sample that is not newer than the last update has its time
    have hdeque : imu ∈ f.imuDeque := by
      rw [htakes.deque]
      exact List.mem_append_left _ himu
    have hsorted := h.deque_inOrder
    rw [htakes.deque] at hsorted
    by_cases hlt : f.timeUpdateLast < imu.stamp
    · obtain ⟨s, hs, heq⟩ := Chronicle.exists_mem_newer (List.pairwise_append.1 hsorted).1 himu hlt
      exact ⟨_, hnewer s hs, heq⟩
    · exact ⟨u₀, hmem, le_antisymm (h.ahead u₀ hu₀ imu hdeque) (htime ▸ not_lt.1 hlt)⟩

end Step

/-- **One time of a scan keeps the samples**, and its points have updated the filter. -/
theorem Feed.Fed.pointStep (pt : Params K) {points : List (PointType K)} (hpoints : points ≠ []) (h : f.Fed lastTs o)
    (hready : f.Ready) (ht : t ≤ lastTs) :
    ∃ g acts, f.pointStep pt t points = some (g, acts) ∧ g.Fed lastTs (o ++ acts) ∧ g.Ready ∧
      g.isFirstFrame = false ∧ timedOf acts = points.map (fun p => (t, p)) ∧ ∀ a ∈ acts, a.OfFilter := by
  obtain ⟨rest, hdeque⟩ := hready.next
  have hreach := h.reaches (hdeque ▸ List.cons_ne_nil _ _) ht
  obtain ⟨taken, front', rest', last', tu, acts, htakes, hstep, htu, hupdates, hof⟩ :=
    Feed.pointStep_spec pt points hready hreach
  have hes : acceptedOf acts = [] := acceptedOf_filter hof
  refine ⟨_, acts, hstep, ?_, ⟨⟨rest', rfl⟩, fun _ => htakes.front⟩, rfl, ?_, hof⟩
  · by_cases hfirst : f.isFirstFrame = true
    · rw [if_pos hfirst] at hupdates htu
      have htu : tu = t := by
        rcases htu with htu | ⟨-, -, htu⟩
        · exact htu
        · exact htu
      rw [htu]
      exact h.begin hfirst htakes ht hpoints last' hes hupdates
    · rw [if_neg hfirst] at hupdates htu
      exact h.proceed (Bool.eq_false_iff.2 hfirst) htakes ht hpoints last' hes hupdates (htu.imp_right And.right)
  · by_cases hfirst : f.isFirstFrame = true
    · rw [if_pos hfirst] at hupdates
      exact timedOf_point [] hupdates
    · rw [if_neg hfirst] at hupdates
      exact timedOf_point _ hupdates

/-- **The times of a scan keep the samples**, and its whole cloud has updated the filter. -/
theorem Feed.Fed.pointLoop (pt : Params K) {body : List (PointType K)} (begTime : K) (h : f.Fed lastTs o) (hready : f.Ready)
    (hne : body ≠ []) (hsorted : body.Pairwise fun p q => p.curvature ≤ q.curvature)
    (hle : ∀ p ∈ body, p.time begTime ≤ lastTs) :
    ∃ g acts, f.pointLoop pt body begTime (timeCompressing body) 0 = some (g, acts) ∧ g.Fed lastTs (o ++ acts) ∧ g.Ready ∧
      g.isFirstFrame = false ∧ timedOf acts = body.map (fun p => (p.time begTime, p)) ∧ ∀ a ∈ acts, a.OfFilter := by
  obtain ⟨groups, hgroups, hseq⟩ := timeCompressing_spec hne hsorted
  -- `before` has gone in, and what has been said since the loop began speaks of it
  let I (before : List (PointType K)) (g : Feed K) (o' : List (Act K)) : Prop := g.Fed lastTs o' ∧ g.Ready ∧
    (before ≠ [] → g.isFirstFrame = false) ∧ ∃ acts, o' = o ++ acts ∧
      timedOf acts = before.map (fun p => (p.time begTime, p)) ∧ ∀ a ∈ acts, a.OfFilter
  have hstep : ∀ before group g o' t, (∃ after, body = before ++ group ++ after) → group ≠ [] →
      (∀ p ∈ group, p.time begTime = t) → I before g o' →
        ∃ g' acts, g.pointStep pt t group = some (g', acts) ∧ I (before ++ group) g' (o' ++ acts) := by
    rintro before group g o' t ⟨after, hbody⟩ hgroup htime ⟨hfed, hready, -, acts, rfl, htimed, hof⟩
    have ht : t ≤ lastTs := by
      obtain ⟨p, hp⟩ := List.exists_mem_of_ne_nil group hgroup
      rw [← htime p hp]
      exact hle p (by rw [hbody]; simp [hp])
    obtain ⟨g', acts', hpoint, hfed', hready', hfirst, htimed', hof'⟩ := hfed.pointStep pt hgroup hready ht
    refine ⟨g', acts', hpoint, hfed', hready', fun _ => hfirst, acts ++ acts', (List.append_assoc _ _ _), ?_, ?_⟩
    · rw [timedOf_append, htimed, htimed', List.map_append]
      refine congrArg _ (List.map_congr_left fun p hp => ?_)
      rw [htime p hp]
    · intro a ha
      rcases List.mem_append.1 ha with ha | ha
      · exact hof a ha
      · exact hof' a ha
  obtain ⟨g, acts, hloop, hfed, hready, hfirst, acts', hacts, htimed, hof⟩ :=
    Feed.pointLoop_inv pt (I := I) hstep groups [] f o hgroups.flatten.symm hgroups.ne_nil hgroups.same
      ⟨h, hready, fun hnil => absurd rfl hnil, [], (List.append_nil o).symm, rfl, by simp⟩
  obtain rfl := List.append_cancel_left hacts
  exact ⟨g, acts, by rw [hseq]; exact hloop, hfed, hready, hfirst hne, htimed, hof⟩

end Lio
end LfSentry
