import LfSentry.RestingTarget
/-!
# TrackerEpisodes — `switching` and `detecting` over whole runs of the tracker

`temp_lost_count_` counts the frames without a target in `temp_lost` and in `switching`, and is set to 1 on the way into
the first alone; `detect_count_` counts the frames of a target to be confirmed, and is set to 1 on the way from `lost`
alone.  A record of each episode is kept beside the tracker, and each law is shown to hold in exactly the runs that do not
come into the state the other way.
-/
namespace LfSentry
namespace Vision

variable {K : Type}

/-! ## The state machine around `switching` -/

theorem advance_switching {s : Sought K} (h : s.tracker.state = .switching) (hf : s.found = false) :
    s.advance.tempLostCount = s.tracker.tempLostCount + 1 ∧
      s.advance.state = if s.tracker.tempLostCount + 1 > 200 then .lost else .switching := by
  obtain ⟨hstate, -, hcount, -⟩ := advance_eq s
  rw [hstate, hcount, stateMachine_state, stateMachine_tempLostCount, h, hf]
  exact ⟨rfl, rfl⟩

theorem advance_switching_found {s : Sought K} (h : s.tracker.state = .switching) (hf : s.found = true) :
    s.advance.tempLostCount = s.tracker.tempLostCount ∧ s.advance.state = .detecting := by
  obtain ⟨hstate, -, hcount, -⟩ := advance_eq s
  rw [hstate, hcount, stateMachine_state, stateMachine_tempLostCount, h, hf]
  exact ⟨rfl, rfl⟩

theorem advance_of_ne_switching {s : Sought K} (h : s.tracker.state ≠ .switching) (hn : 0 ≤ s.tracker.tempLostCount) :
    s.advance.state ≠ .switching ∧ 0 ≤ s.advance.tempLostCount := by
  obtain ⟨hstate, -, hcount, -⟩ := advance_eq s
  rw [hstate, hcount, stateMachine_state, stateMachine_tempLostCount]
  cases hs : s.tracker.state with
  | switching => exact absurd hs h
  | lost => cases s.found <;> simp [hn]
  | detecting =>
    cases s.found with
    | true =>
      refine ⟨?_, hn⟩
      dsimp only
      split <;> simp
    | false => simp [hn]
  | tracking => cases s.found <;> simp [hn]
  | tempLost =>
    cases s.found with
    | true => simp [hn]
    | false =>
      dsimp only
      refine ⟨?_, by omega⟩
      split <;> simp

variable [Field K] [LinearOrder K] [FloorRing K] (num : Numerics K)

structure OmniCall (K : Type) where
  detectionQueue : List (DetectionResult K)
  frame : TrackFrame K

def omniTracking : Machine (Tracker K) (OmniCall K) (DetectionResult K × List (TrackedTarget K)) where
  step tr c :=
    let r := tr.track num c.detectionQueue c.frame
    some (r.1, [r.2])

theorem omniTracking_step {tr tr' : Tracker K} {c : OmniCall K} {es : List (DetectionResult K × List (TrackedTarget K))}
    (h : (omniTracking num).step tr c = some (tr', es)) :
    tr' = (tr.seek num c.detectionQueue c.frame).advance.checkDiverged.1 := by
  simp only [omniTracking, Option.some.injEq, Prod.mk.injEq] at h
  rw [← h.1, track_fst]

theorem along_next {γ : Type} {rec : γ → Tracker K → OmniCall K →
    Tracker K × List (DetectionResult K × List (TrackedTarget K)) → γ} {P : Tracker K × γ → OmniCall K → Prop}
    {p : Tracker K × γ} {c : OmniCall K} {cs : List (OmniCall K)} (h : ((omniTracking num).ghost rec).Along P p (c :: cs)) :
    ∃ q : Tracker K × γ, q.1 = (p.1.track num c.detectionQueue c.frame).1 ∧
      q.2 = rec p.2 p.1 c (q.1, [(p.1.track num c.detectionQueue c.frame).2]) ∧
      ((omniTracking num).ghost rec).Along P q cs :=
  ⟨(_, rec p.2 p.1 c (_, _)), rfl, rfl, h.2 _ _ (Machine.ghost_step.2 ⟨rfl, rfl⟩)⟩

/-! ## The budget of `switching` -/

/-- The episode of `switching` that goes on: its frames without the wanted target, the one that entered it among them, and
what `temp_lost_count_` was when it was entered. -/
structure Episode where
  misses : Int
  atEntry : Int

def Episode.note (g : Episode) (tr : Tracker K) (c : OmniCall K) : Episode :=
  let s := tr.seek num c.detectionQueue c.frame
  if s.tracker.state = .switching ∧ s.found = false then
    if (tr.tick c.frame.t).state = .switching then { g with misses := g.misses + 1 } else ⟨1, tr.tempLostCount⟩
  else ⟨0, 0⟩

def recordedEpisodes : Machine (Tracker K × Episode) (OmniCall K) (DetectionResult K × List (TrackedTarget K)) :=
  (omniTracking num).ghost fun g tr c _ => g.note num tr c

/-- The state machine leaves `switching` for `lost` in the call. -/
def GivesUp (tr : Tracker K) (c : OmniCall K) : Prop :=
  (tr.seek num c.detectionQueue c.frame).tracker.state = .switching ∧
    (tr.seek num c.detectionQueue c.frame).advance.state = .lost

/-- More than 200 frames without the wanted target before `switching` is given up. -/
def Budgeted (p : Tracker K × Episode) (c : OmniCall K) : Prop :=
  GivesUp num p.1 c → 200 < (p.2.note num p.1 c).misses

/-- The episode given up was entered with a `temp_lost_count_` of 0. -/
def EnteredFresh (p : Tracker K × Episode) (c : OmniCall K) : Prop :=
  GivesUp num p.1 c → (p.2.note num p.1 c).atEntry = 0

/-- In `switching` the counter is what it was at the entry and the misses since. -/
structure Counted (p : Tracker K × Episode) : Prop where
  nonneg : 0 ≤ p.1.tempLostCount
  switching : p.1.state = .switching →
    p.1.tempLostCount = p.2.atEntry + p.2.misses ∧ p.1.tempLostCount ≤ 200 ∧ 0 ≤ p.2.atEntry ∧ 0 < p.2.misses

variable {num}

theorem note_stays {g : Episode} {tr : Tracker K} {c : OmniCall K}
    (hs : (tr.seek num c.detectionQueue c.frame).tracker.state = .switching)
    (hf : (tr.seek num c.detectionQueue c.frame).found = false) (ht : (tr.tick c.frame.t).state = .switching) :
    g.note num tr c = { g with misses := g.misses + 1 } := by
  unfold Episode.note
  dsimp only
  rw [if_pos ⟨hs, hf⟩, if_pos ht]

theorem note_enters {g : Episode} {tr : Tracker K} {c : OmniCall K}
    (hs : (tr.seek num c.detectionQueue c.frame).tracker.state = .switching)
    (hf : (tr.seek num c.detectionQueue c.frame).found = false) (ht : (tr.tick c.frame.t).state ≠ .switching) :
    g.note num tr c = ⟨1, tr.tempLostCount⟩ := by
  unfold Episode.note
  dsimp only
  rw [if_pos ⟨hs, hf⟩, if_neg ht]

/-- **What a frame of `switching` without the wanted target is to the record.** -/
theorem note_of_miss {p : Tracker K × Episode} {c : OmniCall K} (hp : Counted p)
    (hs : (p.1.seek num c.detectionQueue c.frame).tracker.state = .switching)
    (hf : (p.1.seek num c.detectionQueue c.frame).found = false) :
    p.1.tempLostCount + 1 = (p.2.note num p.1 c).atEntry + (p.2.note num p.1 c).misses ∧
      0 ≤ (p.2.note num p.1 c).atEntry ∧ 0 < (p.2.note num p.1 c).misses ∧
      (1 < (p.2.note num p.1 c).misses → p.1.tempLostCount ≤ 200) := by
  by_cases ht : (p.1.tick c.frame.t).state = .switching
  · rw [note_stays hs hf ht]
    rcases tick_state p.1 c.frame.t with h | h
    · obtain ⟨hcount, hle, hentry, hmiss⟩ := hp.switching (h.symm.trans ht)
      dsimp only
      omega
    · rw [h] at ht
      cases ht
  · rw [note_enters hs hf ht]
    have := hp.nonneg
    dsimp only
    omega

theorem counted_step {p q : Tracker K × Episode} {c : OmniCall K} {es : List (DetectionResult K × List (TrackedTarget K))}
    (hp : Counted p) (h : (recordedEpisodes num).step p c = some (q, es)) : Counted q := by
  obtain ⟨hstep, hnote⟩ := Machine.ghost_step.1 h
  have htr := omniTracking_step num hstep
  obtain ⟨halike, -⟩ := seek_alike num p.1 c.detectionQueue c.frame
  obtain ⟨hcheck, -, hstate⟩ := checkDiverged_alike (p.1.seek num c.detectionQueue c.frame).advance
  rw [← htr] at hcheck hstate
  have hcount := hcheck.tempLostCount
  by_cases hs : (p.1.seek num c.detectionQueue c.frame).tracker.state = .switching
  · cases hf : (p.1.seek num c.detectionQueue c.frame).found with
    | true =>
      obtain ⟨hadv, hadvs⟩ := advance_switching_found hs hf
      refine ⟨by rw [hcount, hadv, halike.tempLostCount]; exact hp.nonneg, fun hq => ?_⟩
      rcases hstate with ⟨hl, -⟩ | ⟨hl, -⟩
      · rw [hl] at hq
        cases hq
      · rw [hl, hadvs] at hq
        cases hq
    | false =>
      obtain ⟨hadv, hadvs⟩ := advance_switching hs hf
      obtain ⟨hsum, hentry, hmiss, -⟩ := note_of_miss hp hs hf
      have hq : q.1.tempLostCount = p.1.tempLostCount + 1 := by rw [hcount, hadv, halike.tempLostCount]
      refine ⟨by have := hp.nonneg; omega, fun hsw => ?_⟩
      rw [hnote]
      refine ⟨by rw [hq]; exact hsum, ?_, hentry, hmiss⟩
      rcases hstate with ⟨hl, -⟩ | ⟨hl, -⟩
      · rw [hl] at hsw
        cases hsw
      · rw [hl, hadvs, halike.tempLostCount] at hsw
        split at hsw
        · cases hsw
        · omega
  · obtain ⟨hadvs, hadv⟩ := advance_of_ne_switching hs (by rw [halike.tempLostCount]; exact hp.nonneg)
    refine ⟨by rw [hcount]; exact hadv, fun hq => ?_⟩
    rcases hstate with ⟨hl, -⟩ | ⟨hl, -⟩
    · rw [hl] at hq
      cases hq
    · rw [hl] at hq
      exact absurd hq hadvs

/-- **An episode is given up in time exactly if it was entered with a counter of 0.** -/
theorem budgeted_iff {p : Tracker K × Episode} {c : OmniCall K} (hp : Counted p) :
    Budgeted num p c ↔ EnteredFresh num p c := by
  refine imp_congr_right fun hgive => ?_
  obtain ⟨hs, hlost⟩ := hgive
  cases hf : (p.1.seek num c.detectionQueue c.frame).found with
  | true =>
    rw [(advance_switching_found hs hf).2] at hlost
    cases hlost
  | false =>
    obtain ⟨hsum, hentry, hmiss, hle⟩ := note_of_miss hp hs hf
    obtain ⟨-, hadvs⟩ := advance_switching hs hf
    rw [hlost, (seek_alike num p.1 c.detectionQueue c.frame).1.tempLostCount] at hadvs
    split at hadvs
    · omega
    · cases hadvs

variable (num)

/-- **The budget of `switching` is kept in exactly the runs in which every episode given up was entered with a counter
of 0.** -/
theorem switching_budget_iff (config : TrackerConfig) (target : TrackedTarget K) (now : Int) (calls : List (OmniCall K)) :
    (recordedEpisodes num).Along (Budgeted num) (Tracker.init config target now, ⟨0, 0⟩) calls ↔
      (recordedEpisodes num).Along (EnteredFresh num) (Tracker.init config target now, ⟨0, 0⟩) calls := by
  refine Machine.along_iff (I := Counted) (fun p c hp => budgeted_iff hp) (fun p c q es hp _ h => counted_step hp h) ?_
  exact ⟨le_rfl, fun h => by cases h⟩

/-- Five images with the balance robot, 10 ms from one to the next. -/
noncomputable def confirming : List (OmniCall ℝ) :=
  [⟨[], seenFrame 1 0⟩, ⟨[], seenFrame 1 10000000⟩, ⟨[], seenFrame 1 20000000⟩, ⟨[], seenFrame 1 30000000⟩,
    ⟨[], seenFrame 1 40000000⟩]

/-- `n` images with nothing, 10 ms from one to the next. -/
def emptyCalls : Int → Nat → List (OmniCall ℝ)
  | _, 0 => []
  | t, n + 1 => ⟨[], emptyFrame 1 (t + 10000000)⟩ :: emptyCalls (t + 10000000) n

/-- **Five frames after the start the target is tracked and has had four updates.** -/
theorem stage_confirming {γ : Type} {rec : γ → Tracker ℝ → OmniCall ℝ →
    Tracker ℝ × List (DetectionResult ℝ × List (TrackedTarget ℝ)) → γ} {P : Tracker ℝ × γ → OmniCall ℝ → Prop} {g : γ}
    {cs : List (OmniCall ℝ)} (h : ((omniTracking realNumerics).ghost rec).Along P
      (Tracker.init sentryTracker unsetTarget 0, g) (confirming ++ cs)) :
    ∃ p, Stage 1 p.1 .tracking .detecting 5 0 4 40000000 ∧ ((omniTracking realNumerics).ghost rec).Along P p cs := by
  obtain ⟨p1, e1, -, h⟩ := along_next _ h
  obtain ⟨p2, e2, -, h⟩ := along_next _ h
  obtain ⟨p3, e3, -, h⟩ := along_next _ h
  obtain ⟨p4, e4, -, h⟩ := along_next _ h
  obtain ⟨p5, e5, -, h⟩ := along_next _ h
  have h1 : Stage 1 p1.1 .detecting .lost 1 0 0 0 := e1 ▸ track_first rfl unsetTarget 0
  have h2 := track_detecting (u := 10000000) (by norm_num) h1 (by decide) (by decide)
  rw [← e2] at h2
  have h3 := track_detecting (u := 20000000) (by norm_num) h2 (by decide) (by decide)
  rw [← e3] at h3
  have h4 := track_detecting (u := 30000000) (by norm_num) h3 (by decide) (by decide)
  rw [← e4] at h4
  have h5 := track_detecting (u := 40000000) (by norm_num) h4 (by decide) (by decide)
  rw [← e5] at h5
  exact ⟨p5, h5, h⟩

/-- Frames of `switching` up to the one that gives up, of an episode with fewer misses than the counter says. -/
theorem switching_run : ∀ (n : Nat) {p : Tracker ℝ × Episode} {dc tc uc t : Int},
    Stage 1 p.1 .switching .switching dc tc uc t → p.2.misses < tc → tc + n = 200 →
      ¬ (recordedEpisodes realNumerics).Along (Budgeted realNumerics) p (emptyCalls t (n + 1))
  | 0, p, dc, tc, uc, t, hs, hg, hn, h => by
    have hbudget := h.1
    obtain ⟨hf, hseek⟩ := seek_empty_switching (u := t + 10000000) hs (by omega)
    obtain ⟨-, hadv⟩ := advance_switching hseek.state hf
    rw [hseek.tempLostCount, if_pos (by omega)] at hadv
    have hover := hbudget ⟨hseek.state, hadv⟩
    have htick := (stage_tick (u := t + 10000000) hs (by omega)).1.state
    have hstays := note_stays (c := ⟨[], emptyFrame 1 (t + 10000000)⟩) (g := p.2) hseek.state hf htick
    rw [hstays] at hover
    dsimp only at hover
    omega
  | n + 1, p, dc, tc, uc, t, hs, hg, hn, h => by
    have hnext := track_switching (u := t + 10000000) hs (by omega) (by omega)
    obtain ⟨hf, hseek⟩ := seek_empty_switching (u := t + 10000000) hs (by omega)
    have htick := (stage_tick (u := t + 10000000) hs (by omega)).1.state
    have hstays := note_stays (c := ⟨[], emptyFrame 1 (t + 10000000)⟩) (g := p.2) hseek.state hf htick
    obtain ⟨q, hq, hnote, h⟩ := along_next _ h
    rw [← hq] at hnext
    rw [hstays] at hnote
    refine switching_run n hnext ?_ (by omega) h
    rw [hnote]
    dsimp only
    omega

/-- **After one missed frame `switching` is given up one frame too early.** -/
theorem switching_budget_fails : ¬ (recordedEpisodes realNumerics).Along (Budgeted realNumerics)
    (Tracker.init sentryTracker unsetTarget 0, ⟨0, 0⟩)
    (confirming ++ ⟨[], emptyFrame 1 50000000⟩ :: ⟨[], seenFrame 1 60000000⟩ ::
      ⟨[betterSeen 1], emptyFrame 1 70000000⟩ :: emptyCalls 70000000 199) := by
  intro h
  obtain ⟨p, hp, h⟩ := stage_confirming h
  obtain ⟨p1, e1, -, h⟩ := along_next _ h
  obtain ⟨p2, e2, -, h⟩ := along_next _ h
  obtain ⟨p3, e3, hnote, h⟩ := along_next _ h
  have hmissed := track_missed (u := 50000000) hp (by decide)
  rw [← e1] at hmissed
  have hback := track_tempLost (u := 60000000) (by norm_num) hmissed (by decide)
  rw [← e2] at hback
  have hbetter := track_better (u := 70000000) hback (by decide) (by decide) (by decide) 1
  rw [← e3] at hbetter
  obtain ⟨hf, hseek, -⟩ := seek_better (u := 70000000) hback (by decide) (by decide) 1
  have htick := (stage_tick (u := 70000000) hback (by decide)).1.state
  have henters := note_enters (c := ⟨[betterSeen 1], emptyFrame 1 70000000⟩) (g := p2.2) hseek.state hf
    fun hc => TrackState.noConfusion (htick.symm.trans hc)
  rw [henters] at hnote
  refine switching_run 198 hbetter ?_ (by decide) h
  rw [hnote]
  dsimp only
  omega

/-! ## The confirmation of a target -/

variable {num}

omit [FloorRing K] in
theorem state_of_tick {tr : Tracker K} {t : Int} {st : TrackState} (h : (tr.tick t).state = st) (hne : st ≠ .lost) :
    tr.state = st := by
  rcases tick_state tr t with ht | ht
  · exact ht.symm.trans h
  · exact absurd (h.symm.trans ht) hne

theorem tick_state_of_seek {tr : Tracker K} {c : OmniCall K} {st : TrackState}
    (h : (tr.seek num c.detectionQueue c.frame).tracker.state = st) (hne : st ≠ .switching) :
    (tr.tick c.frame.t).state = st := by
  rcases (seek_alike num tr c.detectionQueue c.frame).2 with hk | ⟨-, hk, -⟩
  · exact hk.symm.trans h
  · exact absurd (h.symm.trans hk) hne

/-- The state that the state machine steps is that before the call, or `switching` after `tracking`. -/
theorem state_of_seek {tr : Tracker K} {c : OmniCall K} {st : TrackState}
    (h : (tr.seek num c.detectionQueue c.frame).tracker.state = st) (hne : st ≠ .lost) :
    tr.state = st ∨ tr.state = .tracking ∧ st = .switching := by
  rcases (seek_alike num tr c.detectionQueue c.frame).2 with hk | ⟨hk, hk', -⟩
  · exact .inl (state_of_tick (hk.symm.trans h) hne)
  · exact .inr ⟨state_of_tick hk (by decide), h.symm.trans hk'⟩

variable (num)

/-- The frames in a row that found the target since it was set, the frame that set it among them. -/
def noteFound (g : Int) (tr : Tracker K) (c : OmniCall K) : Int :=
  if (tr.seek num c.detectionQueue c.frame).found = true then if tr.SetsTarget num c.frame then 1 else g + 1 else 0

def recordedFinds : Machine (Tracker K × Int) (OmniCall K) (DetectionResult K × List (TrackedTarget K)) :=
  (omniTracking num).ghost fun g tr c _ => noteFound num g tr c

/-- The state machine takes the target of `detecting` for confirmed in the call. -/
def Confirms (tr : Tracker K) (c : OmniCall K) : Prop :=
  (tr.seek num c.detectionQueue c.frame).tracker.state = .detecting ∧
    (tr.seek num c.detectionQueue c.frame).advance.state = .tracking

/-- `min_detect_count` frames in a row before a target is confirmed. -/
def ConfirmedInTime (p : Tracker K × Int) (c : OmniCall K) : Prop :=
  Confirms num p.1 c → p.1.config.minDetectCount ≤ noteFound num p.2 p.1 c

/-- No target is set in `detecting`, in the call after `switching`, or one frame is enough. -/
def SetFromLost (p : Tracker K × Int) (c : OmniCall K) : Prop :=
  p.1.config.minDetectCount ≤ 1 ∨
    ¬ ((p.1.tick c.frame.t).state = .detecting ∧ p.1.preState = .switching ∧ c.frame.armors ≠ [])

/-- A target past `detecting` had the frames it needs; in `detecting` they are counted, unless `switching` led there. -/
structure Confirming (p : Tracker K × Int) : Prop where
  held : p.1.state = .tracking ∨ p.1.state = .switching ∨ p.1.state = .tempLost →
    p.1.config.minDetectCount ≤ p.1.detectCount
  again : p.1.state = .detecting → p.1.preState = .switching → p.1.config.minDetectCount ≤ p.1.detectCount
  counted : p.1.state = .detecting → p.1.preState ≠ .switching → p.1.detectCount = p.2

variable {num}

/-- **What a frame that finds a target of `detecting` is to the count.** -/
theorem noteFound_detecting {p : Tracker K × Int} {c : OmniCall K} (hp : Confirming p)
    (ht : (p.1.tick c.frame.t).state = .detecting) (hf : (p.1.seek num c.detectionQueue c.frame).found = true) :
    (p.1.preState = .switching ∧ p.1.config.minDetectCount ≤ p.1.detectCount ∧ noteFound num p.2 p.1 c = 1) ∨
      (p.1.preState ≠ .switching ∧ noteFound num p.2 p.1 c = p.1.detectCount + 1) := by
  have hs := state_of_tick ht (by decide)
  unfold noteFound
  rw [if_pos hf]
  by_cases hpre : p.1.preState = .switching
  · refine .inl ⟨hpre, hp.again hs hpre, ?_⟩
    rw [if_pos (.inr (.inr ⟨ht, hpre⟩))]
  · refine .inr ⟨hpre, ?_⟩
    rw [if_neg, hp.counted hs hpre]
    rintro (h | ⟨h, -⟩ | ⟨-, h⟩)
    · rw [ht] at h
      cases h
    · rw [ht] at h
      cases h
    · exact hpre h

theorem confirming_step {p q : Tracker K × Int} {c : OmniCall K} {es : List (DetectionResult K × List (TrackedTarget K))}
    (hp : Confirming p) (h : (recordedFinds num).step p c = some (q, es)) : Confirming q := by
  obtain ⟨hstep, hnote⟩ := Machine.ghost_step.1 h
  have htr := omniTracking_step num hstep
  obtain ⟨halike, -⟩ := seek_alike num p.1 c.detectionQueue c.frame
  obtain ⟨hcheck, -, hstate⟩ := checkDiverged_alike (p.1.seek num c.detectionQueue c.frame).advance
  rw [← htr] at hcheck hstate
  obtain ⟨hadv, hdetect, -, hpre⟩ := advance_eq (p.1.seek num c.detectionQueue c.frame)
  have hconfig : q.1.config = p.1.config := by
    rw [hcheck.config, Sought.advance, (stateMachine_keeps _ _).1]
    exact halike.config
  rw [hadv, stateMachine_state] at hstate
  rw [stateMachine_detectCount] at hdetect
  have hq := hcheck.detectCount.trans hdetect
  have hqpre := hcheck.preState.trans hpre
  rw [halike.detectCount] at hq hstate
  rw [halike.config] at hstate
  rcases hstate with ⟨hlost, -⟩ | ⟨hstate, -⟩
  · exact ⟨fun h => by simp [hlost] at h, fun h => by simp [hlost] at h, fun h => by simp [hlost] at h⟩
  cases hs : (p.1.seek num c.detectionQueue c.frame).tracker.state <;>
    cases hf : (p.1.seek num c.detectionQueue c.frame).found <;>
    rw [hs, hf] at hstate hq <;> rw [hs] at hqpre <;> dsimp only at hstate hq
  case lost.false => exact ⟨fun h => by simp [hstate] at h, fun h => by simp [hstate] at h, fun h => by simp [hstate] at h⟩
  case lost.true =>
    have ht := tick_state_of_seek hs (by decide)
    have hone : q.2 = 1 := by
      rw [hnote, noteFound, if_pos hf, if_pos (.inl ht)]
    exact ⟨fun h => by simp [hstate] at h, fun _ h => by simp [hqpre] at h, fun _ _ => by rw [hq, hone]⟩
  case detecting.false =>
    exact ⟨fun h => by simp [hstate] at h, fun h => by simp [hstate] at h, fun h => by simp [hstate] at h⟩
  case detecting.true =>
    have ht := tick_state_of_seek hs (by decide)
    refine ⟨fun h => ?_, fun _ h => by simp [hqpre] at h, fun h _ => ?_⟩
    · rw [hconfig, hq]
      split at hstate
      · assumption
      · simp [hstate] at h
    · rw [hq, hnote]
      rcases noteFound_detecting hp ht hf with ⟨-, hmin, -⟩ | ⟨-, hcount⟩
      · rw [if_pos (by omega)] at hstate
        rw [hstate] at h
        cases h
      · exact hcount.symm
  case tracking.false | tracking.true | switching.false | tempLost.false | tempLost.true =>
    have hmin : p.1.config.minDetectCount ≤ p.1.detectCount := by
      rcases state_of_seek hs (by decide) with h | ⟨h, -⟩ <;> exact hp.held (by simp [h])
    have hmin' : q.1.config.minDetectCount ≤ q.1.detectCount := by rw [hconfig, hq]; exact hmin
    refine ⟨fun _ => hmin', fun _ _ => hmin', fun h => ?_⟩
    simp only [h] at hstate
    first | cases hstate | (split at hstate <;> cases hstate)
  case switching.true =>
    have hmin : p.1.config.minDetectCount ≤ p.1.detectCount := by
      rcases state_of_seek hs (by decide) with h | ⟨h, -⟩ <;> exact hp.held (by simp [h])
    have hmin' : q.1.config.minDetectCount ≤ q.1.detectCount := by rw [hconfig, hq]; exact hmin
    exact ⟨fun _ => hmin', fun _ _ => hmin', fun _ h => absurd hqpre h⟩

/-- **A target is confirmed in time exactly if it was not set in `detecting`.** -/
theorem confirmedInTime_iff {p : Tracker K × Int} {c : OmniCall K} (hp : Confirming p) :
    ConfirmedInTime num p c ↔ SetFromLost p c := by
  obtain ⟨halike, hseek⟩ := seek_alike num p.1 c.detectionQueue c.frame
  obtain ⟨hadv, -⟩ := advance_eq (p.1.seek num c.detectionQueue c.frame)
  rw [stateMachine_state, halike.detectCount, halike.config] at hadv
  constructor
  · intro hc
    by_contra hset
    simp only [SetFromLost, not_or, not_not] at hset
    obtain ⟨hmin, ht, hpre, harmors⟩ := hset
    have hsets : p.1.SetsTarget num c.frame := .inr (.inr ⟨ht, hpre⟩)
    have hf := (seek_found_of_setsTarget num c.detectionQueue hsets).2 harmors
    have hs : (p.1.seek num c.detectionQueue c.frame).tracker.state = .detecting := by
      rcases hseek with h | ⟨h, -⟩
      · exact h.trans ht
      · rw [ht] at h
        cases h
    rcases noteFound_detecting hp ht hf with ⟨-, hle, hone⟩ | ⟨hpre', -⟩
    · rw [hs, hf] at hadv
      dsimp only at hadv
      rw [if_pos (by omega)] at hadv
      have := hc ⟨hs, hadv⟩
      omega
    · exact hpre' hpre
  · rintro hset ⟨hs, htrack⟩
    have ht := tick_state_of_seek hs (by decide)
    rw [hs, htrack] at hadv
    cases hf : (p.1.seek num c.detectionQueue c.frame).found with
    | false =>
      rw [hf] at hadv
      cases hadv
    | true =>
      rw [hf] at hadv
      dsimp only at hadv
      split at hadv
      · rcases noteFound_detecting hp ht hf with ⟨hpre, hle, hone⟩ | ⟨-, hcount⟩
        · have hsets : p.1.SetsTarget num c.frame := .inr (.inr ⟨ht, hpre⟩)
          rcases hset with hset | hset
          · omega
          · exact absurd ⟨ht, hpre, (seek_found_of_setsTarget num c.detectionQueue hsets).1 hf⟩ hset
        · omega
      · cases hadv

variable (num)

/-- **Targets are confirmed in time in exactly the runs that set none in the call after `switching`.** -/
theorem confirmed_before_tracking_iff (config : TrackerConfig) (target : TrackedTarget K) (now : Int)
    (calls : List (OmniCall K)) :
    (recordedFinds num).Along (ConfirmedInTime num) (Tracker.init config target now, 0) calls ↔
      (recordedFinds num).Along SetFromLost (Tracker.init config target now, 0) calls := by
  refine Machine.along_iff (I := Confirming) (fun p c hp => confirmedInTime_iff hp)
    (fun p c q es hp _ h => confirming_step hp h) ?_
  exact ⟨fun h => by simp [Tracker.init] at h, fun h => by simp [Tracker.init] at h,
    fun h => by simp [Tracker.init] at h⟩

/-- **After `switching` one frame is taken for a confirmation.** -/
theorem confirmed_before_tracking_fails : ¬ (recordedFinds realNumerics).Along (ConfirmedInTime realNumerics)
    (Tracker.init sentryTracker unsetTarget 0, 0)
    (confirming ++ [⟨[betterSeen 1], emptyFrame 1 50000000⟩, ⟨[], betterFrame 1 60000000⟩,
      ⟨[], betterFrame 1 70000000⟩]) := by
  intro h
  obtain ⟨p, hp, h⟩ := stage_confirming h
  obtain ⟨p1, e1, -, h⟩ := along_next _ h
  obtain ⟨p2, e2, -, h⟩ := along_next _ h
  have hbetter := track_better (u := 50000000) hp (by decide) (by decide) (by decide) 1
  rw [← e1] at hbetter
  have hwanted : p1.1.omniTargetPriority = .first := by
    rw [e1, track_omniTargetPriority]
    exact (seek_better (u := 50000000) hp (by decide) (by decide) 1).2.2.1
  -- the better target is found: `detecting`, with the count of the target before it
  have hagain := track_wanted (u := 60000000) hbetter (by decide) hwanted
  rw [← e2] at hagain
  have htick := (stage_tick (u := 70000000) hagain (by decide)).1
  have hsets : p2.1.SetsTarget realNumerics (betterFrame 1 70000000) := .inr (.inr ⟨htick.state, hagain.preState⟩)
  have hf := (seek_found_of_setsTarget realNumerics [] hsets).2 (by simp [betterFrame])
  obtain ⟨halike, hstate | ⟨hstate, -⟩⟩ := seek_alike realNumerics p2.1 [] (betterFrame 1 70000000)
  · obtain ⟨hadv, -⟩ := advance_eq (p2.1.seek realNumerics [] (betterFrame 1 70000000))
    rw [stateMachine_state, hstate.trans htick.state, hf, halike.detectCount, halike.config, hagain.detectCount,
      hagain.minDetectCount] at hadv
    have hone := h.1 ⟨hstate.trans htick.state, hadv⟩
    rw [noteFound, if_pos hf, if_pos hsets, hagain.minDetectCount] at hone
    exact absurd hone (by decide)
  · exact TrackState.noConfusion (htick.state.symm.trans hstate)

end Vision
end LfSentry
