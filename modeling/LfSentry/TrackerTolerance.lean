import LfSentry.TrackerEpisodes
/-!
# TrackerTolerance — how many missed frames the tracker bears

`temp_lost_count_` is shared with `switching` and its bound is a member that each miss sets anew.  Still a tracked target is
given up at the frame after the configured number of misses in a row, in every run of the two overloads without a gap or a
reset (`lost_tolerance`): the way from `tracking` sets the counter, and the bound is set for the target before it is read.
-/
namespace LfSentry
namespace Vision

variable {K : Type} [Field K] [LinearOrder K] [FloorRing K] (num : Numerics K)

inductive TrackCall (K : Type)
  | own (frame : TrackFrame K)
  | omni (c : OmniCall K)

def TrackCall.frame : TrackCall K → TrackFrame K
  | .own frame => frame
  | .omni c => c.frame

/-- The tracker before its state machine is stepped, and whether it found its target. -/
def Tracker.search (tr : Tracker K) : TrackCall K → Tracker K × Bool
  | .own frame => tr.seekOwn num frame
  | .omni c => ((tr.seek num c.detectionQueue c.frame).tracker, (tr.seek num c.detectionQueue c.frame).found)

def Tracker.call (tr : Tracker K) : TrackCall K → Tracker K × List (TrackedTarget K)
  | .own frame => tr.trackOwn num frame
  | .omni c => ((tr.track num c.detectionQueue c.frame).1, (tr.track num c.detectionQueue c.frame).2.2)

def tracking : Machine (Tracker K) (TrackCall K) (List (TrackedTarget K)) where
  step tr c := some ((tr.call num c).1, [(tr.call num c).2])

/-- No reset: neither the divergence check nor, in the overload that has it, the check of the convergence. -/
def Tracker.NotReset (tr : Tracker K) : TrackCall K → Prop
  | .own frame =>
    let c := ((tr.seekOwn num frame).1.stateMachine (tr.seekOwn num frame).2).checkDiverged
    c.2 = false ∧ c.1.target.badConverge = false
  | .omni c => (tr.seek num c.detectionQueue c.frame).advance.checkDiverged.2 = false

/-- A call within 0.1 s of the one before that does not reset the tracker. -/
def Regular (tr : Tracker K) (c : TrackCall K) : Prop :=
  deltaTime c.frame.t tr.lastTimestamp ≤ (0.1 : K) ∧ tr.NotReset num c

/-- The frames in a row, up to this one, in which the target was not found. -/
def noteMiss (g : Int) (tr : Tracker K) (c : TrackCall K) : Int := if (tr.search num c).2 = true then 0 else g + 1

def recordedMisses : Machine (Tracker K × Int) (TrackCall K) (List (TrackedTarget K)) :=
  (tracking num).ghost fun g tr c _ => noteMiss num g tr c

/-- **A call gives a tracked target up exactly with the miss after the last that is borne**; a find before it goes back to
`tracking`, with no miss counted. -/
structure Tolerates (p : Tracker K × Int) (c : TrackCall K) : Prop where
  tracked : p.1.state = .tracking → p.2 = 0
  found : p.1.state = .tempLost → (p.1.search num c).2 = true →
    (p.1.call num c).1.state = .tracking ∧ noteMiss num p.2 p.1 c = 0
  dropped : p.1.state = .tempLost → (p.1.search num c).2 = false →
    ((p.1.call num c).1.state = .lost ↔ noteMiss num p.2 p.1 c = p.1.tempLostLimit + 1) ∧
      ((p.1.call num c).1.state ≠ .lost → (p.1.call num c).1.state = .tempLost)
  missed : p.1.state = .tracking → (p.1.search num c).1.state = .tracking → (p.1.search num c).2 = false →
    (p.1.call num c).1.state = .tempLost ∧ noteMiss num p.2 p.1 c = 1

variable {num}

/-! ## What a regular call does -/

variable (num) in
theorem search_alike {tr : Tracker K} {c : TrackCall K} (hdt : deltaTime c.frame.t tr.lastTimestamp ≤ (0.1 : K)) :
    Alike tr (tr.search num c).1 ∧
      ((tr.search num c).1.state = tr.state ∨
        tr.state = .tracking ∧ (tr.search num c).1.state = .switching ∧ (tr.search num c).2 = false) ∧
      (tr.state = .tempLost → (tr.search num c).1.target.name = tr.target.name) := by
  have htick := tick_state_of_le hdt
  cases c with
  | own frame =>
    change deltaTime frame.t tr.lastTimestamp ≤ (0.1 : K) at hdt
    have halike := tick_alike tr frame.t
    change (tr.tick frame.t).state = tr.state at htick
    unfold Tracker.search Tracker.seekOwn
    dsimp only
    split
    · obtain ⟨ha, hs⟩ := setTarget_alike num (tr.tick frame.t) { frame with
        armors := sortArmors num (frame.armors.filter fun a => a.color = (tr.tick frame.t).config.enemyColor) }
      rename_i hlost
      refine ⟨halike.trans ha, .inl (hs.trans htick), fun h => ?_⟩
      rw [htick, h] at hlost
      cases hlost
    · obtain ⟨ha, hs, hn⟩ := updateTarget_alike num (tr.tick frame.t) { frame with
        armors := sortArmors num (frame.armors.filter fun a => a.color = (tr.tick frame.t).config.enemyColor) }
      exact ⟨halike.trans ha, .inl (hs.trans htick), fun _ => by rw [hn, tick_target]⟩
  | omni c =>
    change (tr.tick c.frame.t).state = tr.state at htick
    obtain ⟨ha, hs⟩ := seek_alike num tr c.detectionQueue c.frame
    rw [htick] at hs
    refine ⟨ha, hs, fun h => ?_⟩
    refine (seek_of_not_setsTarget num c.detectionQueue ?_).2.1
    unfold Tracker.SetsTarget
    rw [htick, h]
    simp

theorem call_of_notReset {tr : Tracker K} {c : TrackCall K} (h : tr.NotReset num c) :
    (tr.call num c).1.state = ((tr.search num c).1.stateMachine (tr.search num c).2).state ∧
      (tr.call num c).1.tempLostCount = ((tr.search num c).1.stateMachine (tr.search num c).2).tempLostCount ∧
      (tr.call num c).1.config = (tr.search num c).1.config ∧
      (tr.call num c).1.target.name = (tr.search num c).1.target.name := by
  have hleft : ∀ {tr : Tracker K}, tr.checkDiverged.2 = false → tr.checkDiverged.1.state = tr.state := by
    intro tr h
    rcases (checkDiverged_alike tr).2.2 with ⟨-, hd⟩ | ⟨hs, -⟩
    · rw [h] at hd
      cases hd
    · exact hs
  cases c with
  | own frame =>
    obtain ⟨hd, hb⟩ := h
    have hcall : (tr.call num (.own frame)).1 =
        ((tr.seekOwn num frame).1.stateMachine (tr.seekOwn num frame).2).checkDiverged.1 := by
      unfold Tracker.call Tracker.trackOwn
      dsimp only
      rw [if_neg (by rw [hd]; exact Bool.false_ne_true), if_neg (by rw [hb]; exact Bool.false_ne_true)]
      split <;> rfl
    obtain ⟨hconfig, -, htarget⟩ := stateMachine_keeps (tr.seekOwn num frame).1 (tr.seekOwn num frame).2
    obtain ⟨ha, hn, -⟩ := checkDiverged_alike ((tr.seekOwn num frame).1.stateMachine (tr.seekOwn num frame).2)
    rw [hcall]
    exact ⟨hleft hd, ha.tempLostCount, ha.config.trans hconfig, hn.trans (congrArg (·.name) htarget)⟩
  | omni c =>
    obtain ⟨hstate, -, hcount, -⟩ := advance_eq (tr.seek num c.detectionQueue c.frame)
    obtain ⟨hconfig, -, htarget⟩ := stateMachine_keeps
      { (tr.seek num c.detectionQueue c.frame).tracker with
        preState := (tr.seek num c.detectionQueue c.frame).tracker.state } (tr.seek num c.detectionQueue c.frame).found
    obtain ⟨ha, hn, -⟩ := checkDiverged_alike (tr.seek num c.detectionQueue c.frame).advance
    have hcall : (tr.call num (.omni c)).1 = (tr.seek num c.detectionQueue c.frame).advance.checkDiverged.1 :=
      track_fst num tr c.detectionQueue c.frame
    rw [hcall]
    exact ⟨(hleft h).trans hstate, ha.tempLostCount.trans hcount, ha.config.trans hconfig,
      hn.trans (congrArg (·.name) htarget)⟩

/-! ## The law -/

/-- In `temp_lost` the counter is the number of the misses, which are within the bound of the target. -/
structure Bearing (p : Tracker K × Int) : Prop where
  normal : 1 ≤ p.1.config.normalTempLostCount
  outpost : 1 ≤ p.1.config.outpostMaxTempLostCount
  tracked : p.1.state = .tracking → p.2 = 0
  lost : p.1.state = .tempLost → p.1.tempLostCount = p.2 ∧ 1 ≤ p.2 ∧ p.2 ≤ p.1.tempLostLimit

omit [Field K] [LinearOrder K] [FloorRing K] in
theorem tempLostLimit_congr {tr tr' : Tracker K} (hc : tr'.config = tr.config) (hn : tr'.target.name = tr.target.name) :
    tr'.tempLostLimit = tr.tempLostLimit := by
  unfold Tracker.tempLostLimit
  rw [hc, hn]

omit [Field K] [LinearOrder K] [FloorRing K] in
theorem Bearing.one_le_limit {p : Tracker K × Int} (hp : Bearing p) {tr : Tracker K} (hc : tr.config = p.1.config) :
    1 ≤ tr.tempLostLimit := by
  unfold Tracker.tempLostLimit
  rw [hc]
  split
  · exact hp.outpost
  · exact hp.normal

/-- Past the state machine a target is tracked where it was found alone, and `temp_lost` is entered and left by misses. -/
theorem bearing_call {p : Tracker K × Int} {c : TrackCall K} (hp : Bearing p) (hr : Regular num p.1 c) :
    Bearing ((p.1.call num c).1, noteMiss num p.2 p.1 c) := by
  obtain ⟨halike, hsearch, -⟩ := search_alike num hr.1
  obtain ⟨hstate, hcount, hconfig, hcname⟩ := call_of_notReset hr.2
  have hcfg : (p.1.call num c).1.config = p.1.config := hconfig.trans halike.config
  have hlimit : (p.1.search num c).1.tempLostLimit = (p.1.call num c).1.tempLostLimit :=
    tempLostLimit_congr hconfig.symm hcname.symm
  rw [stateMachine_state, hlimit, halike.tempLostCount] at hstate
  rw [stateMachine_tempLostCount, halike.tempLostCount] at hcount
  refine ⟨hcfg ▸ hp.normal, hcfg ▸ hp.outpost, fun htrack => ?_, fun hlost => ?_⟩
  · rw [htrack] at hstate
    cases hf : (p.1.search num c).2 with
    | true => exact if_pos hf
    | false =>
      rw [hf] at hstate
      cases hs : (p.1.search num c).1.state <;> rw [hs] at hstate <;> dsimp only at hstate
      all_goals first | cases hstate | (split at hstate <;> cases hstate)
  · rw [hlost] at hstate
    cases hf : (p.1.search num c).2 with
    | true =>
      rw [hf] at hstate
      cases hs : (p.1.search num c).1.state <;> rw [hs] at hstate <;> dsimp only at hstate
      all_goals first | cases hstate | (split at hstate <;> cases hstate)
    | false =>
      have hnote : noteMiss num p.2 p.1 c = p.2 + 1 := if_neg (by rw [hf]; exact Bool.false_ne_true)
      rw [hf] at hstate hcount
      cases hs : (p.1.search num c).1.state <;> rw [hs] at hstate hcount <;> dsimp only at hstate hcount
      case lost | detecting => cases hstate
      case switching => split at hstate <;> cases hstate
      case tracking =>
        have htracked : p.1.state = .tracking := by
          rcases hsearch with h | ⟨h, -⟩
          · exact h.symm.trans hs
          · exact h
        have hone := hp.one_le_limit hcfg
        rw [hnote, hp.tracked htracked]
        dsimp only
        omega
      case tempLost =>
        have hbefore : p.1.state = .tempLost := by
          rcases hsearch with h | ⟨-, h, -⟩
          · exact h.symm.trans hs
          · rw [h] at hs
            cases hs
        obtain ⟨htc, hone, -⟩ := hp.lost hbefore
        rw [hnote]
        dsimp only
        split at hstate
        · cases hstate
        · omega

/-- **A regular call bears the misses it is configured for.** -/
theorem tolerates_call {p : Tracker K × Int} {c : TrackCall K} (hp : Bearing p) (hr : Regular num p.1 c) :
    Tolerates num p c := by
  obtain ⟨halike, hsearch, hname⟩ := search_alike num hr.1
  obtain ⟨hstate, -, -, -⟩ := call_of_notReset hr.2
  rw [stateMachine_state, halike.tempLostCount] at hstate
  have hs : p.1.state = .tempLost → (p.1.search num c).1.state = .tempLost := by
    intro h
    rcases hsearch with hs | ⟨hs, -⟩
    · exact hs.trans h
    · rw [h] at hs
      cases hs
  refine ⟨hp.tracked, fun h hf => ?_, fun h hf => ?_, fun h ht hf => ?_⟩
  · rw [hs h, hf] at hstate
    exact ⟨hstate, if_pos hf⟩
  · obtain ⟨htc, -, hle⟩ := hp.lost h
    have hnote : noteMiss num p.2 p.1 c = p.2 + 1 := if_neg (by rw [hf]; exact Bool.false_ne_true)
    rw [hs h, hf, tempLostLimit_congr halike.config (hname h), htc] at hstate
    dsimp only at hstate
    rw [hnote]
    split at hstate
    · rw [hstate]
      exact ⟨⟨fun _ => by omega, fun _ => rfl⟩, fun hne => absurd rfl hne⟩
    · rw [hstate]
      exact ⟨⟨fun hc => (by cases hc), fun hc => (by omega)⟩, fun _ => rfl⟩
  · rw [ht, hf] at hstate
    refine ⟨hstate, ?_⟩
    rw [noteMiss, if_neg (by rw [hf]; exact Bool.false_ne_true), hp.tracked h, zero_add]

variable (num)

/-- **Lost tolerance: in every run of regular calls of the two overloads a tracked target is given up at the miss after the
configured number of misses in a row, and at no other.** -/
theorem lost_tolerance (config : TrackerConfig) (hnormal : 1 ≤ config.normalTempLostCount)
    (houtpost : 1 ≤ config.outpostMaxTempLostCount) (target : TrackedTarget K) (now : Int) (calls : List (TrackCall K))
    (h : (recordedMisses num).Along (fun p c => Regular num p.1 c) (Tracker.init config target now, 0) calls) :
    (recordedMisses num).Along (Tolerates num) (Tracker.init config target now, 0) calls := by
  refine Machine.Along.imp_of_inv (I := Bearing) (fun p c hp hr => tolerates_call hp hr) (fun p c q es hp hr hq => ?_) ?_ h
  · obtain ⟨hstep, hnote⟩ := Machine.ghost_step.1 hq
    have hnext := bearing_call hp hr
    simp only [tracking, Option.some.injEq, Prod.mk.injEq] at hstep
    obtain ⟨q1, q2⟩ := q
    obtain ⟨rfl, -⟩ := hstep
    cases hnote
    exact hnext
  · exact ⟨hnormal, houtpost, fun _ => rfl, fun hl => by simp [Tracker.init] at hl⟩

/-! ## A target that is missed -/

section Missed

variable {tr : Tracker ℝ} {pre : TrackState} {d : ℝ} {dc tc uc t u : Int}

theorem track_config (f : TrackFrame ℝ) : (tr.track realNumerics [] f).1.config = tr.config := by
  rw [track_fst, (checkDiverged_alike _).1.config, Sought.advance, (stateMachine_keeps _ _).1]
  exact (seek_alike realNumerics tr [] f).1.config

theorem limit_of_atRest (h : AtRest d tr.target) : tr.tempLostLimit = tr.config.normalTempLostCount :=
  if_neg (by rw [h.name]; decide)

/-- What a miss in `temp_lost` starts the state machine with. -/
theorem seek_missed (h : Stage d tr .tempLost pre dc tc uc t) (ht : u - t ≤ 100000000) :
    Stage d (tr.seek realNumerics [] (emptyFrame d u)).tracker .tempLost pre dc tc uc u ∧
      (tr.seek realNumerics [] (emptyFrame d u)).found = false ∧
      (tr.seek realNumerics [] (emptyFrame d u)).tracker.tempLostLimit = tr.config.normalTempLostCount := by
  obtain ⟨hf, hs⟩ := seek_empty h ht (.inr (.inr rfl))
  exact ⟨hs, hf, (limit_of_atRest hs.rest).trans
    (congrArg TrackerConfig.normalTempLostCount (seek_alike realNumerics tr [] (emptyFrame d u)).1.config)⟩

theorem track_missing (h : Stage d tr .tempLost pre dc tc uc t) (ht : u - t ≤ 100000000)
    (hlimit : tc + 1 ≤ tr.config.normalTempLostCount) :
    Stage d (tr.track realNumerics [] (emptyFrame d u)).1 .tempLost .tempLost dc (tc + 1) uc u := by
  obtain ⟨hs, hf, hl⟩ := seek_missed h ht
  refine stage_track rfl hs ?_ ?_ ?_ (by decide)
  · rw [stateMachine_state, hs.state, hf, hs.tempLostCount, hl]
    exact if_neg (not_lt.2 hlimit)
  · rw [stateMachine_detectCount, hs.state, hf]
    exact hs.detectCount
  · rw [stateMachine_tempLostCount, hs.state, hf, hs.tempLostCount]

theorem track_given_up (h : Stage d tr .tempLost pre dc tc uc t) (ht : u - t ≤ 100000000)
    (hlimit : tr.config.normalTempLostCount < tc + 1) : (tr.track realNumerics [] (emptyFrame d u)).1.state = .lost := by
  obtain ⟨hs, hf, hl⟩ := seek_missed h ht
  have hadvance : (tr.seek realNumerics [] (emptyFrame d u)).advance.state = .lost := by
    rw [(advance_eq _).1, stateMachine_state, hs.state, hf, hs.tempLostCount, hl]
    exact if_pos hlimit
  rw [track_fst, Tracker.checkDiverged, if_pos hadvance]
  exact hadvance

/-- The frames come every ten milliseconds. -/
theorem deltaTime_stage {st : TrackState} (h : Stage d tr st pre dc tc uc t) (hu : u - t = 10000000) :
    deltaTime u tr.lastTimestamp ≤ (0.1 : ℝ) := by
  rw [h.lastTimestamp, deltaTime, hu]
  norm_num

theorem regular_of_atRest {g : Int} {f : TrackFrame ℝ} {cs : List (TrackCall ℝ)}
    (hdt : deltaTime f.t tr.lastTimestamp ≤ (0.1 : ℝ)) (h : AtRest d (tr.seek realNumerics [] f).tracker.target)
    (hnext : ∀ g', (recordedMisses realNumerics).Along (fun p c => Regular realNumerics p.1 c)
      ((tr.track realNumerics [] f).1, g') cs) :
    (recordedMisses realNumerics).Along (fun p c => Regular realNumerics p.1 c) (tr, g) (.omni ⟨[], f⟩ :: cs) :=
  ⟨⟨hdt, atRest_checkDiverged h⟩, fun _ _ hq => by cases hq; exact hnext _⟩

theorem regular_seen {st : TrackState} {g : Int} {cs : List (TrackCall ℝ)} (hd : 0 ≤ d) (h : Stage d tr st pre dc tc uc t)
    (hu : u - t = 10000000) (hst : LooksFor st pre)
    (hnext : ∀ g', (recordedMisses realNumerics).Along (fun p c => Regular realNumerics p.1 c)
      ((tr.track realNumerics [] (seenFrame d u)).1, g') cs) :
    (recordedMisses realNumerics).Along (fun p c => Regular realNumerics p.1 c) (tr, g) (.omni ⟨[], seenFrame d u⟩ :: cs) :=
  regular_of_atRest (deltaTime_stage h hu) (seek_seen hd h (by omega) hst).2.rest hnext

theorem regular_empty {st : TrackState} {g : Int} {cs : List (TrackCall ℝ)} (h : Stage d tr st pre dc tc uc t)
    (hu : u - t = 10000000) (hst : LooksFor st pre)
    (hnext : ∀ g', (recordedMisses realNumerics).Along (fun p c => Regular realNumerics p.1 c)
      ((tr.track realNumerics [] (emptyFrame d u)).1, g') cs) :
    (recordedMisses realNumerics).Along (fun p c => Regular realNumerics p.1 c) (tr, g) (.omni ⟨[], emptyFrame d u⟩ :: cs) :=
  regular_of_atRest (deltaTime_stage h hu) (seek_empty h (by omega) hst).2.rest hnext

end Missed

/-- A tracker that bears two misses. -/
def twoMisses : TrackerConfig := { sentryTracker with normalTempLostCount := 2 }

set_option maxRecDepth 4000 in
/-- The target is confirmed, missed once and found again; at the third miss in a row after that it is given up. -/
theorem lost_tolerance_twoMisses :
    let calls : List (TrackCall ℝ) := [.omni ⟨[], seenFrame 1 0⟩, .omni ⟨[], seenFrame 1 10000000⟩,
      .omni ⟨[], seenFrame 1 20000000⟩, .omni ⟨[], seenFrame 1 30000000⟩, .omni ⟨[], seenFrame 1 40000000⟩,
      .omni ⟨[], emptyFrame 1 50000000⟩, .omni ⟨[], seenFrame 1 60000000⟩, .omni ⟨[], emptyFrame 1 70000000⟩,
      .omni ⟨[], emptyFrame 1 80000000⟩, .omni ⟨[], emptyFrame 1 90000000⟩]
    ∃ q o, (recordedMisses realNumerics).run (Tracker.init twoMisses unsetTarget 0, 0) calls = some (q, o) ∧
      q.1.state = .lost ∧
      (recordedMisses realNumerics).Along (Tolerates realNumerics) (Tracker.init twoMisses unsetTarget 0, 0) calls := by
  intro calls
  have hmin : twoMisses.minDetectCount = 5 := rfl
  have h0 := seek_first (d := 1) hmin unsetTarget 0
  have h1 := track_first (d := 1) hmin unsetTarget 0
  have h2 := track_detecting (u := 10000000) (by norm_num) h1 (by decide) (by decide)
  have h3 := track_detecting (u := 20000000) (by norm_num) h2 (by decide) (by decide)
  have h4 := track_detecting (u := 30000000) (by norm_num) h3 (by decide) (by decide)
  have h5 := track_detecting (u := 40000000) (by norm_num) h4 (by decide) (by decide)
  have h6 := track_missed (u := 50000000) h5 (by decide)
  have h7 := track_tempLost (u := 60000000) (by norm_num) h6 (by decide)
  have h8 := track_missed (u := 70000000) h7 (by decide)
  have h9 := track_missing (u := 80000000) h8 (by decide) (by simp only [track_config]; decide)
  have h10 := track_given_up (u := 90000000) h9 (by decide) (by simp only [track_config]; decide)
  refine ⟨_, _, rfl, h10, lost_tolerance realNumerics twoMisses (by decide) (by decide) unsetTarget 0 calls ?_⟩
  refine regular_of_atRest ?_ h0.2.rest fun _ => ?_
  · norm_num [Tracker.init, deltaTime, seenFrame]
  refine regular_seen (by norm_num) h1 rfl (.inl ⟨rfl, by decide⟩) fun _ => ?_
  refine regular_seen (by norm_num) h2 rfl (.inl ⟨rfl, by decide⟩) fun _ => ?_
  refine regular_seen (by norm_num) h3 rfl (.inl ⟨rfl, by decide⟩) fun _ => ?_
  refine regular_seen (by norm_num) h4 rfl (.inl ⟨rfl, by decide⟩) fun _ => ?_
  refine regular_empty h5 rfl (.inr (.inl rfl)) fun _ => ?_
  refine regular_seen (by norm_num) h6 rfl (.inr (.inr rfl)) fun _ => ?_
  refine regular_empty h7 rfl (.inr (.inl rfl)) fun _ => ?_
  refine regular_empty h8 rfl (.inr (.inr rfl)) fun _ => ?_
  refine regular_empty h9 rfl (.inr (.inr rfl)) fun _ => ?_
  exact Machine.along_nil _ _ _

end Vision
end LfSentry
