import LfSentry.Chronicle
import LfSentry.PointLio
/-!
# PointLioFeed — one time of a scan and the samples before it

While the deque reaches as far as the point and its front is the next sample, the loops over the samples take exactly
those that are older than the point and leave the others; of those taken the filter is updated by the ones newer than
all before them.
-/
namespace LfSentry
namespace Lio

open Chronicle (newer latest)

/-- An update of the filter, by a sample or by the points of one time. -/
inductive Update (K : Type) where
  | imu (imu : Imu K)
  | points (time : K) (points : List (PointType K))

def Update.time {K : Type} : Update K → K
  | .imu s => s.stamp
  | .points t _ => t

@[simp] def Update.IsPoints {K : Type} : Update K → Prop
  | .imu _ => False
  | .points _ _ => True

/-- The points of an update with their time. -/
@[simp] def Update.timed {K : Type} : Update K → List (K × PointType K)
  | .imu _ => []
  | .points t ps => ps.map fun p => (t, p)

@[simp] def Act.update {K : Type} : Act K → Option (Update K)
  | .updateIMU imu => some (.imu imu)
  | .updatePoints time points => some (.points time points)
  | _ => none

/-- What the node asks of its filter, not what it takes in. -/
@[simp] def Act.OfFilter {K : Type} : Act K → Prop
  | .setInit _ | .initMap _ | .predict _ _ _ | .updateIMU _ | .updatePoints _ _ => True
  | _ => False

def updates {K : Type} (o : List (Act K)) : List (Update K) := o.filterMap Act.update

variable {K : Type} {o es : List (Act K)}

@[simp] theorem updates_nil : updates ([] : List (Act K)) = [] := rfl

@[simp] theorem updates_append (o es : List (Act K)) : updates (o ++ es) = updates o ++ updates es :=
  List.filterMap_append

variable [LinearOrder K] {t : K}

/-! ## The loops over the samples -/

/-- What a loop over the samples has done by the time it ends: `taken` is older than `t`, and what is left begins at `t` or
later with the next sample. -/
structure Takes (t : K) (deque taken : List (Imu K)) (front : Imu K) (rest : List (Imu K)) : Prop where
  deque : deque = taken ++ front :: rest
  taken : ∀ imu ∈ taken, imu.stamp < t
  front : t ≤ front.stamp

theorem Takes.cons {imu front : Imu K} {deque taken rest : List (Imu K)} (hlt : imu.stamp < t)
    (h : Takes t deque taken front rest) : Takes t (imu :: deque) (imu :: taken) front rest where
  deque := by rw [h.deque, List.cons_append]
  taken := by
    intro s hs
    rcases List.mem_cons.1 hs with rfl | hs
    · exact hlt
    · exact h.taken s hs
  front := h.front

theorem Takes.nil {front : Imu K} (h : ¬ front.stamp < t) (rest : List (Imu K)) :
    Takes t (front :: rest) [] front rest := ⟨rfl, fun _ hs => absurd hs List.not_mem_nil, not_lt.1 h⟩

theorem exists_ge_of_lt {imu : Imu K} {rest : List (Imu K)} (hlt : imu.stamp < t)
    (h : ∃ s ∈ imu :: rest, t ≤ s.stamp) : ∃ s ∈ rest, t ≤ s.stamp := by
  obtain ⟨s, hs, hle⟩ := h
  rcases List.mem_cons.1 hs with rfl | hs
  · exact absurd hlt (not_lt.2 hle)
  · exact ⟨s, hs, hle⟩

omit [LinearOrder K] in
theorem Feed.eq_of_front {f : Feed K} {front : Imu K} {rest : List (Imu K)} (hdeque : f.imuDeque = front :: rest)
    (hnext : f.imuNext = front) : f = { f with imuDeque := front :: rest, imuLast := f.imuLast, imuNext := front } := by
  cases f
  simp only at hdeque hnext
  rw [hdeque, hnext]

theorem Feed.skipLoop_spec (t : K) : ∀ (front : Imu K) (rest : List (Imu K)) (f : Feed K), f.imuDeque = front :: rest →
    f.imuNext = front → (∃ imu ∈ front :: rest, t ≤ imu.stamp) →
      ∃ taken front' rest' last', Takes t (front :: rest) taken front' rest' ∧
        f.skipLoop t (front :: rest) = { f with imuDeque := front' :: rest', imuLast := last', imuNext := front' }
  | front, [], f, hdeque, hnext, hreach => by
    have hle : ¬ front.stamp < t := fun hlt => by
      obtain ⟨s, hs, -⟩ := exists_ge_of_lt hlt hreach
      cases hs
    refine ⟨[], front, [], f.imuLast, .nil hle [], ?_⟩
    rw [Feed.skipLoop, hnext, if_neg hle]
    exact Feed.eq_of_front hdeque hnext
  | front, next :: rest, f, hdeque, hnext, hreach => by
    by_cases hlt : front.stamp < t
    · obtain ⟨taken, front', rest', last', htakes, heq⟩ :=
        Feed.skipLoop_spec t next rest (f.advance next rest) rfl rfl (exists_ge_of_lt hlt hreach)
      refine ⟨front :: taken, front', rest', last', htakes.cons hlt, ?_⟩
      rw [Feed.skipLoop, hnext, if_pos hlt, heq]
      rfl
    · refine ⟨[], front, next :: rest, f.imuLast, .nil hlt _, ?_⟩
      rw [Feed.skipLoop, hnext, if_neg hlt]
      exact Feed.eq_of_front hdeque hnext

theorem Feed.collectLoop_spec (bound : K) : ∀ (front : Imu K) (rest : List (Imu K)) (f : Feed K),
    f.imuDeque = front :: rest → (∃ imu ∈ front :: rest, bound ≤ imu.stamp) →
      ∃ taken front' rest' last', Takes bound (front :: rest) taken front' rest' ∧ f.collectLoop bound (front :: rest) =
        (taken, { f with imuDeque := front' :: rest', imuLast := last', imuNext := front' })
  | front, rest, f, hdeque, hreach => by
    by_cases hlt : front.stamp < bound
    · cases rest with
      | nil =>
        obtain ⟨s, hs, -⟩ := exists_ge_of_lt hlt hreach
        cases hs
      | cons next rest =>
        obtain ⟨taken, front', rest', last', htakes, heq⟩ := Feed.collectLoop_spec bound next rest
          { f with imuDeque := next :: rest, imuLast := front, imuNext := front } rfl (exists_ge_of_lt hlt hreach)
        refine ⟨front :: taken, front', rest', last', htakes.cons hlt, ?_⟩
        rw [Feed.collectLoop, if_pos hlt]
        dsimp only
        rw [heq]
    · refine ⟨[], front, rest, f.imuLast, .nil hlt rest, ?_⟩
      rw [Feed.collectLoop, if_neg hlt, ← hdeque]

/-- The filter has not come further than the next sample, which is the front of the deque. -/
structure Feed.Ready (f : Feed K) : Prop where
  next : ∃ rest, f.imuDeque = f.imuNext :: rest
  ahead : f.isFirstFrame = false → f.timePredictLastConst ≤ f.imuNext.stamp

/-- With the filter behind the front there is nothing to catch up with. -/
theorem Feed.catchUp_of_ready {f : Feed K} (h : f.Ready) (hfirst : f.isFirstFrame = false) : f.catchUp = f := by
  obtain ⟨rest, hdeque⟩ := h.next
  have hle : ¬ f.imuNext.stamp < f.timePredictLastConst := not_lt.2 (h.ahead hfirst)
  rw [Feed.catchUp, hdeque]
  dsimp only
  rw [if_pos rfl]
  cases rest with
  | nil => rw [Feed.skipLoop, if_neg hle]
  | cons next rest => rw [Feed.skipLoop, if_neg hle]

/-- The first point of all: what is older is left behind, and the times are set. -/
theorem Feed.firstFrame_spec {f : Feed K} (hready : f.Ready) (hfirst : f.isFirstFrame = true)
    (hreach : ∃ imu ∈ f.imuDeque, t ≤ imu.stamp) :
    ∃ taken front' rest' last', Takes t f.imuDeque taken front' rest' ∧
      f.firstFrame t = some ⟨front' :: rest', last', front', false, t, t⟩ := by
  obtain ⟨rest, hdeque⟩ := hready.next
  rw [hdeque] at hreach
  obtain ⟨taken, front', rest', last', htakes, heq⟩ := Feed.skipLoop_spec t f.imuNext rest f hdeque rfl hreach
  refine ⟨taken, front', rest', last', hdeque ▸ htakes, ?_⟩
  rw [Feed.firstFrame, if_pos hfirst, Feed.skip, hdeque]
  dsimp only
  rw [heq]
  rfl

/-! ## The times of a scan -/

/-- A cloud cut into groups of one time each. -/
structure Grouped (body : List (PointType K)) (groups : List (List (PointType K))) : Prop where
  flatten : groups.flatten = body
  ne_nil : ∀ group ∈ groups, group ≠ []
  same : ∀ group ∈ groups, ∀ p ∈ group, ∀ q ∈ group, p.curvature = q.curvature

theorem timeCompressingFrom_spec : ∀ (before : List (PointType K)) (p : PointType K) (rest : List (PointType K)),
    (p :: rest).Pairwise (fun p q => p.curvature ≤ q.curvature) → (∀ q ∈ before, q.curvature = p.curvature) →
      ∃ groups, Grouped (before ++ p :: rest) groups ∧
        timeCompressingFrom before.length (p :: rest) = groups.map List.length
  | before, p, rest, hsorted, hbefore => by
    have hsnoc : ∀ q ∈ before ++ [p], q.curvature = p.curvature := by
      intro q hq
      rcases List.mem_append.1 hq with hq | hq
      · exact hbefore q hq
      · rw [List.mem_singleton.1 hq]
    cases rest with
    | nil =>
      refine ⟨[before ++ [p]], ⟨List.flatten_singleton, by simp, fun group hgroup q hq r hr => ?_⟩, by
        simp [timeCompressingFrom]⟩
      rw [List.mem_singleton.1 hgroup] at hq hr
      rw [hsnoc q hq, hsnoc r hr]
    | cons q rest =>
      obtain ⟨hp, hrest⟩ := List.pairwise_cons.1 hsorted
      by_cases hlt : p.curvature < q.curvature
      · obtain ⟨groups, hgroups, hlengths⟩ :=
          timeCompressingFrom_spec [] q rest hrest fun r hr => absurd hr List.not_mem_nil
        refine ⟨(before ++ [p]) :: groups, ⟨?_, ?_, ?_⟩, ?_⟩
        · rw [List.flatten_cons, hgroups.flatten, List.append_assoc]
          rfl
        · intro group hgroup
          rcases List.mem_cons.1 hgroup with rfl | hgroup
          · simp
          · exact hgroups.ne_nil group hgroup
        · intro group hgroup r hr r' hr'
          rcases List.mem_cons.1 hgroup with rfl | hgroup
          · rw [hsnoc r hr, hsnoc r' hr']
          · exact hgroups.same group hgroup r hr r' hr'
        · rw [timeCompressingFrom, if_pos hlt, List.map_cons, ← hlengths, List.length_append]
          rfl
      · -- the point after has the same time
        have heq : q.curvature = p.curvature := le_antisymm (not_lt.1 hlt) (hp q List.mem_cons_self)
        obtain ⟨groups, hgroups, hlengths⟩ :=
          timeCompressingFrom_spec (before ++ [p]) q rest hrest fun r hr => (hsnoc r hr).trans heq.symm
        refine ⟨groups, ?_, ?_⟩
        · rw [List.append_assoc] at hgroups
          exact hgroups
        · rw [timeCompressingFrom, if_neg hlt, ← hlengths, List.length_append]
          rfl

/-- **`time_compressing` cuts a sorted cloud into the groups of one time each.** -/
theorem timeCompressing_spec {body : List (PointType K)} (hne : body ≠ [])
    (hsorted : body.Pairwise fun p q => p.curvature ≤ q.curvature) :
    ∃ groups, Grouped body groups ∧ timeCompressing body = groups.map List.length := by
  cases body with
  | nil => exact absurd rfl hne
  | cons p rest => exact timeCompressingFrom_spec [] p rest hsorted fun r hr => absurd hr List.not_mem_nil

variable [Field K]

/-- When a point of a scan was taken. -/
def PointType.time (begTime : K) (p : PointType K) : K := p.curvature / 1000.0 + begTime

/-- **What every time of a scan keeps, the loop over its times keeps**; `I` also speaks of the points before. -/
theorem Feed.pointLoop_inv (pt : Params K) {body : List (PointType K)} {begTime : K}
    {I : List (PointType K) → Feed K → List (Act K) → Prop}
    (hstep : ∀ before group f o t, (∃ after, body = before ++ group ++ after) → group ≠ [] →
      (∀ p ∈ group, p.time begTime = t) → I before f o →
        ∃ g acts, f.pointStep pt t group = some (g, acts) ∧ I (before ++ group) g (o ++ acts)) :
    ∀ (groups : List (List (PointType K))) (before : List (PointType K)) (f : Feed K) (o : List (Act K)),
      body = before ++ groups.flatten → (∀ group ∈ groups, group ≠ []) →
      (∀ group ∈ groups, ∀ p ∈ group, ∀ q ∈ group, p.curvature = q.curvature) → I before f o →
        ∃ g acts, f.pointLoop pt body begTime (groups.map List.length) before.length = some (g, acts) ∧ I body g (o ++ acts)
  | [], before, f, o, hbody, _, _, hI => by
    refine ⟨f, [], rfl, ?_⟩
    rw [List.flatten_nil, List.append_nil] at hbody
    rwa [List.append_nil, hbody]
  | group :: groups, before, f, o, hbody, hne, hsame, hI => by
    have hgroup := hne group List.mem_cons_self
    have hlen := List.length_pos_iff.2 hgroup
    rw [List.flatten_cons, ← List.append_assoc] at hbody
    -- the point that is read is the last one of the group
    have hread : body[before.length + group.length - 1]? = some (group.getLast hgroup) := by
      rw [hbody, List.getElem?_append_left (by rw [List.length_append]; omega),
        List.getElem?_append_right (by omega), show before.length + group.length - 1 - before.length = group.length - 1 by omega,
        ← List.getLast?_eq_getElem?, List.getLast?_eq_getLast_of_ne_nil hgroup]
    have htake : (body.drop before.length).take group.length = group := by
      rw [hbody, List.append_assoc, List.drop_left, List.take_left]
    obtain ⟨g, acts, hpoint, hI'⟩ := hstep before group f o ((group.getLast hgroup).time begTime) ⟨_, hbody⟩ hgroup
      (fun p hp => by
        rw [PointType.time, hsame group List.mem_cons_self p hp _ (List.getLast_mem hgroup), PointType.time]) hI
    obtain ⟨h, acts', hloop, hI''⟩ := Feed.pointLoop_inv pt hstep groups (before ++ group) g (o ++ acts) hbody
      (fun g hg => hne g (List.mem_cons_of_mem _ hg)) (fun g hg => hsame g (List.mem_cons_of_mem _ hg)) hI'
    refine ⟨h, acts ++ acts', ?_, by rwa [← List.append_assoc]⟩
    rw [List.map_cons, Feed.pointLoop, hread, Option.bind_some, htake]
    rw [List.length_append] at hloop
    change (f.pointStep pt ((group.getLast hgroup).time begTime) group).bind _ = _
    rw [hpoint, Option.bind_some, hloop, Option.map_some]

/-! ## A sample -/

variable [IsStrictOrderedRing K]

/-- **One sample: the filter is updated by it if it is newer than the last update.** -/
theorem Feed.fuse_spec (f : Feed K) : ∃ acts, f.fuse = ({ f with
      timePredictLastConst := f.imuNext.stamp
      timeUpdateLast := if f.timeUpdateLast < f.imuNext.stamp then f.imuNext.stamp else f.timeUpdateLast }, acts) ∧
    updates acts = (if f.timeUpdateLast < f.imuNext.stamp then [.imu f.imuNext] else []) ∧ ∀ a ∈ acts, a.OfFilter := by
  by_cases h : f.timeUpdateLast < f.imuNext.stamp
  · rw [Feed.fuse, if_pos (sub_pos.2 h), if_pos h, if_pos h]
    exact ⟨_, rfl, rfl, by simp⟩
  · rw [Feed.fuse, if_neg (fun hpos => h (sub_pos.1 hpos)), if_neg h, if_neg h]
    exact ⟨_, rfl, rfl, by simp⟩

theorem Feed.fuseLoop_spec (t : K) : ∀ (front : Imu K) (rest : List (Imu K)) (f : Feed K), f.imuDeque = front :: rest →
    f.imuNext = front → (∃ imu ∈ front :: rest, t ≤ imu.stamp) →
      ∃ taken front' rest' last' tp' acts, Takes t (front :: rest) taken front' rest' ∧
        f.fuseLoop t (front :: rest) = ({ f with
          imuDeque := front' :: rest', imuLast := last', imuNext := front', timePredictLastConst := tp'
          timeUpdateLast := latest Imu.stamp f.timeUpdateLast taken }, acts) ∧
        updates acts = (newer Imu.stamp f.timeUpdateLast taken).map .imu ∧ ∀ a ∈ acts, a.OfFilter
  | front, [], f, hdeque, hnext, hreach => by
    have hle : ¬ front.stamp < t := fun hlt => by
      obtain ⟨s, hs, -⟩ := exists_ge_of_lt hlt hreach
      cases hs
    refine ⟨[], front, [], f.imuLast, f.timePredictLastConst, [], .nil hle [], ?_, rfl, by simp⟩
    rw [Feed.fuseLoop, hnext, if_neg hle]
    exact congrArg (·, []) (Feed.eq_of_front hdeque hnext)
  | front, next :: rest, f, hdeque, hnext, hreach => by
    by_cases hlt : front.stamp < t
    · obtain ⟨first, hfuse, hfirst, hfirstOf⟩ := f.fuse_spec
      rw [hnext] at hfuse hfirst
      obtain ⟨taken, front', rest', last', tp', acts, htakes, heq, hupdates, hof⟩ :=
        Feed.fuseLoop_spec t next rest (f.fuse.1.advance next rest) rfl rfl (exists_ge_of_lt hlt hreach)
      refine ⟨front :: taken, front', rest', last', tp', first ++ acts, htakes.cons hlt, ?_, ?_, ?_⟩
      · rw [Feed.fuseLoop, hnext, if_pos hlt]
        dsimp only
        rw [heq, hfuse]
        rfl
      · rw [updates_append, hfirst, hupdates, hfuse]
        change _ ++ (newer Imu.stamp (if f.timeUpdateLast < front.stamp then front.stamp else f.timeUpdateLast) taken).map _ = _
        by_cases h : f.timeUpdateLast < front.stamp
        · rw [if_pos h, if_pos h, Chronicle.newer_cons_of_lt h]
          rfl
        · rw [if_neg h, if_neg h, Chronicle.newer_cons_of_not_lt h]
          rfl
      · intro a ha
        rcases List.mem_append.1 ha with ha | ha
        · exact hfirstOf a ha
        · exact hof a ha
    · refine ⟨[], front, next :: rest, f.imuLast, f.timePredictLastConst, [], .nil hlt _, ?_, rfl, by simp⟩
      rw [Feed.fuseLoop, hnext, if_neg hlt]
      exact congrArg (·, []) (Feed.eq_of_front hdeque hnext)

/-! ## One time of a scan -/

theorem Feed.imuComes_spec {f : Feed K} (hready : f.Ready) (hfirst : f.isFirstFrame = false)
    (hreach : ∃ imu ∈ f.imuDeque, t ≤ imu.stamp) :
    ∃ taken front' rest' last' tp' acts, Takes t f.imuDeque taken front' rest' ∧
      f.imuComes t = some (⟨front' :: rest', last', front', false, tp', latest Imu.stamp f.timeUpdateLast taken⟩, acts) ∧
      updates acts = (newer Imu.stamp f.timeUpdateLast taken).map .imu ∧ ∀ a ∈ acts, a.OfFilter := by
  obtain ⟨rest, hdeque⟩ := hready.next
  have hcatch := Feed.catchUp_of_ready hready hfirst
  have hreach' := hreach
  rw [hdeque] at hreach'
  obtain ⟨taken, front', rest', last', tp', acts, htakes, heq, hupdates, hof⟩ :=
    Feed.fuseLoop_spec t f.imuNext rest f hdeque rfl hreach'
  refine ⟨taken, front', rest', last', tp', acts, hdeque ▸ htakes, ?_, hupdates, hof⟩
  rw [Feed.imuComes, hdeque]
  dsimp only
  rw [hcatch, hdeque]
  dsimp only
  rw [heq, hfirst]

/-- The filter comes to the point; its last update is the one before or that of the point. -/
theorem Feed.propagate_spec (pt : Params K) (t : K) (f : Feed K) : ∃ tu acts,
    f.propagate pt t = ({ f with timePredictLastConst := t, timeUpdateLast := tu }, acts) ∧
      (tu = f.timeUpdateLast ∨ pt.propAtFreqOfImu = false ∧ f.timeUpdateLast < t ∧ tu = t) ∧
      updates acts = [] ∧ ∀ a ∈ acts, a.OfFilter := by
  rw [Feed.propagate]
  by_cases h : (!pt.propAtFreqOfImu && decide (0 < t - f.timeUpdateLast)) = true
  · rw [if_pos h]
    simp only [Bool.and_eq_true, Bool.not_eq_true', decide_eq_true_eq, sub_pos] at h
    exact ⟨t, _, rfl, Or.inr ⟨h.1, h.2, rfl⟩, rfl, by simp⟩
  · rw [if_neg h]
    exact ⟨f.timeUpdateLast, _, rfl, Or.inl rfl, rfl, by simp⟩

/-- A time that is not the first of all. -/
theorem Feed.pointStep_started (pt : Params K) (points : List (PointType K)) {f : Feed K} (hready : f.Ready)
    (hfirst : f.isFirstFrame = false) (hreach : ∃ imu ∈ f.imuDeque, t ≤ imu.stamp) :
    ∃ taken front' rest' last' tu acts, Takes t f.imuDeque taken front' rest' ∧
      f.pointStep pt t points = some (⟨front' :: rest', last', front', false, t, tu⟩, acts) ∧
      (tu = latest Imu.stamp f.timeUpdateLast taken ∨
        pt.propAtFreqOfImu = false ∧ latest Imu.stamp f.timeUpdateLast taken < t ∧ tu = t) ∧
      updates acts = (newer Imu.stamp f.timeUpdateLast taken).map .imu ++ [.points t points] ∧ ∀ a ∈ acts, a.OfFilter := by
  obtain ⟨taken, front', rest', last', tp', acts, htakes, hcomes, hupdates, hof⟩ :=
    Feed.imuComes_spec hready hfirst hreach
  obtain ⟨tu, last, hprop, htu, hlast, hlastOf⟩ := Feed.propagate_spec pt t
    (⟨front' :: rest', last', front', false, tp', latest Imu.stamp f.timeUpdateLast taken⟩ : Feed K)
  refine ⟨taken, front', rest', last', tu, acts ++ last ++ [.updatePoints t points], htakes, ?_, htu, ?_, ?_⟩
  · rw [Feed.pointStep, Feed.firstFrame, hfirst, if_neg Bool.false_ne_true, Option.bind_some, hcomes, Option.map_some, hprop]
  · rw [updates_append, updates_append, hupdates, hlast, List.append_nil]
    rfl
  · intro a ha
    rcases List.mem_append.1 ha with ha | ha
    · rcases List.mem_append.1 ha with ha | ha
      · exact hof a ha
      · exact hlastOf a ha
    · rw [List.mem_singleton.1 ha]
      trivial

/-- **One time of a scan**: the samples before it are taken, those newer than all before update the filter unless it is the
first time of all, and then the points do. -/
theorem Feed.pointStep_spec (pt : Params K) (points : List (PointType K)) {f : Feed K} (hready : f.Ready)
    (hreach : ∃ imu ∈ f.imuDeque, t ≤ imu.stamp) :
    ∃ taken front' rest' last' tu acts, Takes t f.imuDeque taken front' rest' ∧
      f.pointStep pt t points = some (⟨front' :: rest', last', front', false, t, tu⟩, acts) ∧
      (tu = (if f.isFirstFrame then t else latest Imu.stamp f.timeUpdateLast taken) ∨
        pt.propAtFreqOfImu = false ∧ (if f.isFirstFrame then t else latest Imu.stamp f.timeUpdateLast taken) < t ∧ tu = t) ∧
      updates acts = (if f.isFirstFrame then [] else (newer Imu.stamp f.timeUpdateLast taken).map .imu) ++
        [.points t points] ∧ ∀ a ∈ acts, a.OfFilter := by
  by_cases hfirst : f.isFirstFrame = true
  · obtain ⟨taken, front', rest', last', htakes, hframe⟩ := Feed.firstFrame_spec hready hfirst hreach
    let f' : Feed K := ⟨front' :: rest', last', front', false, t, t⟩
    have hready' : f'.Ready := ⟨⟨rest', rfl⟩, fun _ => htakes.front⟩
    obtain ⟨none, front'', rest'', last'', tu, acts, hnone, hstep, htu, hupdates, hof⟩ :=
      Feed.pointStep_started (t := t) pt points hready' rfl ⟨front', List.mem_cons_self, htakes.front⟩
    -- the front is not older than the point, so nothing more is taken
    have hnil : none = [] := by
      cases none with
      | nil => rfl
      | cons imu none =>
        obtain ⟨rfl, -⟩ := List.cons.inj hnone.deque
        exact absurd (hnone.taken _ List.mem_cons_self) (not_lt.2 htakes.front)
    subst hnil
    obtain ⟨rfl, rfl⟩ := List.cons.inj hnone.deque
    refine ⟨taken, front', rest', last'', tu, acts, htakes, ?_, ?_, ?_, hof⟩
    · rw [Feed.pointStep, hframe, Option.bind_some, ← hstep]
      rfl
    · rw [if_pos hfirst]
      exact htu
    · rw [if_pos hfirst]
      exact hupdates
  · obtain ⟨taken, front', rest', last', tu, acts, htakes, hstep, htu, hupdates, hof⟩ :=
      Feed.pointStep_started pt points hready (Bool.eq_false_iff.2 hfirst) hreach
    refine ⟨taken, front', rest', last', tu, acts, htakes, hstep, ?_, ?_, hof⟩
    · rw [if_neg hfirst]
      exact htu
    · rw [if_neg hfirst]
      exact hupdates

end Lio
end LfSentry
