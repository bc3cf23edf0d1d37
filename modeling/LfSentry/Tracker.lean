import LfSentry.Runs
import LfSentry.TrackedTarget
/-!
# Tracker — the tracker of the auto-aim (`sp_vision_25/tasks/auto_aim/tracker.cpp`)

A call of `track` finds its target among the armors of a frame or does not (`seek`), steps the state machine, and gives the
target up where its filter diverges.  The overload for the omnidirectional cameras may also turn to a better target that
they see.  A frame carries what `Solver::solve` answers for its armors.
-/
namespace LfSentry
namespace Vision

variable {K : Type}

inductive TrackState
  | lost | detecting | tracking | switching | tempLost
  deriving DecidableEq, Repr

/-- What one camera of the omnidirectional perception detected. -/
structure DetectionResult (K : Type) where
  armors : List (Armor K)
  timestamp : Int
  deltaYaw : K
  deltaPitch : K

structure TrackerConfig where
  enemyColor : Color
  minDetectCount : Int
  normalTempLostCount : Int
  outpostMaxTempLostCount : Int

structure Tracker (K : Type) where
  config : TrackerConfig
  maxTempLostCount : Int
  detectCount : Int
  tempLostCount : Int
  state : TrackState
  preState : TrackState
  target : TrackedTarget K
  lastTimestamp : Int
  omniTargetPriority : ArmorPriority

/-- `Tracker::Tracker`; `target` is not yet set. -/
def Tracker.init (config : TrackerConfig) (target : TrackedTarget K) (now : Int) : Tracker K where
  config := config
  maxTempLostCount := config.normalTempLostCount
  detectCount := 0
  tempLostCount := 0
  state := .lost
  preState := .lost
  target := { target with recentNisFailures := [0] }
  lastTimestamp := now
  omniTargetPriority := .fifth

/-- The armors of one image and when it was taken. -/
structure TrackFrame (K : Type) where
  armors : List (Armor K)
  solve : Armor K → Pose K
  t : Int

/-- The frames without the target that `temp_lost` bears. -/
def Tracker.tempLostLimit (tr : Tracker K) : Int :=
  if tr.target.name = .outpost then tr.config.outpostMaxTempLostCount else tr.config.normalTempLostCount

def Tracker.stateMachine (tr : Tracker K) (found : Bool) : Tracker K :=
  match tr.state with
  | .lost => if found then { tr with state := .detecting, detectCount := 1 } else tr
  | .detecting =>
    if found then
      if tr.detectCount + 1 ≥ tr.config.minDetectCount then
        { tr with detectCount := tr.detectCount + 1, state := .tracking }
      else { tr with detectCount := tr.detectCount + 1 }
    else { tr with detectCount := 0, state := .lost }
  | .tracking => if found then tr else { tr with tempLostCount := 1, state := .tempLost }
  | .switching =>
    if found then { tr with state := .detecting }
    else if tr.tempLostCount + 1 > 200 then { tr with tempLostCount := tr.tempLostCount + 1, state := .lost }
    else { tr with tempLostCount := tr.tempLostCount + 1 }
  | .tempLost =>
    if found then { tr with state := .tracking }
    else
      let tr := { tr with tempLostCount := tr.tempLostCount + 1, maxTempLostCount := tr.tempLostLimit }
      if tr.tempLostCount > tr.maxTempLostCount then { tr with state := .lost } else tr

/-- The two trackers differ in their target, their clock, the state and the priority looked for alone. -/
structure Alike (tr tr' : Tracker K) : Prop where
  config : tr'.config = tr.config
  detectCount : tr'.detectCount = tr.detectCount
  tempLostCount : tr'.tempLostCount = tr.tempLostCount
  preState : tr'.preState = tr.preState

theorem Alike.refl (tr : Tracker K) : Alike tr tr := ⟨rfl, rfl, rfl, rfl⟩

theorem Alike.trans {tr₁ tr₂ tr₃ : Tracker K} (h : Alike tr₁ tr₂) (h' : Alike tr₂ tr₃) : Alike tr₁ tr₃ :=
  ⟨h'.config.trans h.config, h'.detectCount.trans h.detectCount, h'.tempLostCount.trans h.tempLostCount,
    h'.preState.trans h.preState⟩

theorem stateMachine_keeps (tr : Tracker K) (found : Bool) : (tr.stateMachine found).config = tr.config ∧
    (tr.stateMachine found).preState = tr.preState ∧ (tr.stateMachine found).target = tr.target := by
  unfold Tracker.stateMachine
  dsimp only
  repeat' split
  all_goals exact ⟨rfl, rfl, rfl⟩

/-- **The transitions of the state machine.** -/
theorem stateMachine_state (tr : Tracker K) (found : Bool) : (tr.stateMachine found).state =
    match tr.state, found with
    | .lost, true => .detecting
    | .lost, false => .lost
    | .detecting, true => if tr.detectCount + 1 ≥ tr.config.minDetectCount then .tracking else .detecting
    | .detecting, false => .lost
    | .tracking, true => .tracking
    | .tracking, false => .tempLost
    | .switching, true => .detecting
    | .switching, false => if tr.tempLostCount + 1 > 200 then .lost else .switching
    | .tempLost, true => .tracking
    | .tempLost, false => if tr.tempLostCount + 1 > tr.tempLostLimit then .lost else .tempLost := by
  unfold Tracker.stateMachine
  cases hs : tr.state <;> cases found <;>
    simp only [Bool.false_eq_true, if_true, if_false, apply_ite Tracker.state, hs]

/-- `temp_lost_count_` counts on in `switching` and in `temp_lost`; only the way into `temp_lost` sets it. -/
theorem stateMachine_tempLostCount (tr : Tracker K) (found : Bool) : (tr.stateMachine found).tempLostCount =
    match tr.state, found with
    | .tracking, false => 1
    | .switching, false | .tempLost, false => tr.tempLostCount + 1
    | _, _ => tr.tempLostCount := by
  unfold Tracker.stateMachine
  cases hs : tr.state <;> cases found <;>
    simp only [Bool.false_eq_true, if_true, if_false, apply_ite Tracker.tempLostCount, ite_self]

/-- `detect_count_` counts on in `detecting`; only the way from `lost` sets it. -/
theorem stateMachine_detectCount (tr : Tracker K) (found : Bool) : (tr.stateMachine found).detectCount =
    match tr.state, found with
    | .lost, true => 1
    | .detecting, true => tr.detectCount + 1
    | .detecting, false => 0
    | _, _ => tr.detectCount := by
  unfold Tracker.stateMachine
  cases hs : tr.state <;> cases found <;>
    simp only [Bool.false_eq_true, if_true, if_false, apply_ite Tracker.detectCount, ite_self]

/-- What the overload for the omnidirectional cameras has found before it steps the state machine. -/
structure Sought (K : Type) where
  tracker : Tracker K
  found : Bool
  switchTarget : DetectionResult K

def Sought.advance (s : Sought K) : Tracker K := { s.tracker with preState := s.tracker.state }.stateMachine s.found

theorem advance_eq (s : Sought K) : s.advance.state = (s.tracker.stateMachine s.found).state ∧
    s.advance.detectCount = (s.tracker.stateMachine s.found).detectCount ∧
    s.advance.tempLostCount = (s.tracker.stateMachine s.found).tempLostCount ∧
    s.advance.preState = s.tracker.state := by
  unfold Sought.advance
  simp only [stateMachine_state, stateMachine_detectCount, stateMachine_tempLostCount, (stateMachine_keeps _ _).2.1]
  exact ⟨rfl, trivial, trivial, trivial⟩

variable [Field K] [LinearOrder K] [FloorRing K] (num : Numerics K)

/-! ## Finding the target -/

def Armor.centerDistance (armor : Armor K) : K :=
  let dx := armor.center.1 - 720.0
  let dy := armor.center.2 - 540.0
  num.sqrt (dx * dx + dy * dy)

/-- The armors by their distance from the middle of the image, then by priority; both sorts keep the order of equals. -/
def sortArmors (armors : List (Armor K)) : List (Armor K) :=
  (armors.insertionSort fun a b => ¬ b.centerDistance num < a.centerDistance num).insertionSort
    fun a b => ¬ b.priority < a.priority

/-- Of two outposts the lower one is first. -/
def outpostFirst (a b : Armor K) : Bool :=
  if a.name = .outpost ∧ b.name = .outpost then decide (b.center.2 < a.center.2) else decide (a.priority < b.priority)

/-- The armors in the order in which `set_target` leaves them. -/
def setTargetOrder (armors : List (Armor K)) : List (Armor K) :=
  if armors.head?.any fun a => a.name = .outpost then armors.insertionSort fun a b => ¬ outpostFirst b a = true else armors

def targetOf (armor : Armor K) (t : Int) : TrackedTarget K :=
  if armor.isBalance then
    TrackedTarget.ofArmor num armor t 0.2 2 ![1, 64.0, 1, 64.0, 1, 64.0, 0.4, 100.0, 1, 1, 1]
  else if armor.name = .outpost then
    TrackedTarget.ofArmor num armor t 0.2765 3 ![1, 64.0, 1, 64.0, 1, 81.0, 0.4, 100.0, 1e-4, 1, 1]
  else if armor.name = .base then
    TrackedTarget.ofArmor num armor t 0.3205 3 ![1, 64.0, 1, 64.0, 1, 64.0, 0.4, 100.0, 1e-4, 0, 0]
  else TrackedTarget.ofArmor num armor t 0.2 4 ![1, 64.0, 1, 64.0, 1, 64.0, 0.4, 100.0, 1, 1, 1]

def Tracker.setTarget (tr : Tracker K) (frame : TrackFrame K) : Tracker K × Bool :=
  match setTargetOrder frame.armors with
  | [] => (tr, false)
  | armor :: _ => ({ tr with target := targetOf num (armor.solved num (frame.solve armor)) frame.t }, true)

/-- What it costs to take an armor for armor `i` of the target. -/
def TrackedTarget.cost (target : TrackedTarget K) (armor : Armor K) (xyza : Xyza K) (i : Nat) : K :=
  let predYpd := xyzaYpd num xyza
  let costDist := |armor.ypdInWorld 2 - predYpd 2|
  let costYaw := |limitRad num.toLibm (armor.yprInWorld 0 - xyza.angle)|
  let costView := |limitRad num.toLibm (armor.ypdInWorld 0 - predYpd 0)|
  let costPitch := |limitRad num.toLibm (armor.ypdInWorld 1 - predYpd 1)|
  let cost := 2.0 * costDist + 1.5 * costYaw + 1 * costView
  let cost := if target.name = .outpost then cost + 2.0 * costPitch else cost
  if i ≠ target.lastId then cost + 0.35 else cost

/-- The least cost of an armor over the armors of the target, below 1e9; of an outpost only its lowest armor counts. -/
def TrackedTarget.minCost (target : TrackedTarget K) (armor : Armor K) : K :=
  ((target.toTarget.armorXyzaList num.toLibm).zipIdx).foldl (fun min p =>
    if target.name = .outpost ∧ p.2 ≠ 2 then min
    else
      let cost := target.cost num armor p.1 p.2
      if cost < min then cost else min) 1e9

/-- The cheapest of the solved candidates, the first of equals. -/
def TrackedTarget.bestArmor (target : TrackedTarget K) (candidates : List (Armor K)) : Option (Armor K) :=
  (candidates.foldl (fun (best : K × Option (Armor K)) armor =>
    let cost := target.minCost num armor
    if cost < best.1 then (cost, some armor) else best) (1e9, none)).2

def Tracker.updateTarget (tr : Tracker K) (frame : TrackFrame K) : Tracker K × Bool :=
  let target := tr.target.predict num frame.t
  let candidates := (frame.armors.filter fun armor => armor.name = target.name ∧ armor.type = target.armorType).map
    fun armor => armor.solved num (frame.solve armor)
  match target.bestArmor num candidates with
  | none => ({ tr with target := target }, false)
  | some armor => ({ tr with target := target.update num armor }, true)

/-! ## A call of `track` -/

/-- The clock: after more than 0.1 s the camera is taken to have been away. -/
def Tracker.tick (tr : Tracker K) (t : Int) : Tracker K :=
  let dt : K := deltaTime t tr.lastTimestamp
  if tr.state ≠ .lost ∧ 0.1 < dt then { tr with lastTimestamp := t, state := .lost }
  else { tr with lastTimestamp := t }

/-- The search of the overload without the omnidirectional cameras. -/
def Tracker.seekOwn (tr : Tracker K) (frame : TrackFrame K) : Tracker K × Bool :=
  let tr := tr.tick frame.t
  let armors := sortArmors num (frame.armors.filter fun a => a.color = tr.config.enemyColor)
  let frame := { frame with armors := armors }
  if tr.state = .lost then tr.setTarget num frame else tr.updateTarget num frame

def frontBelow (armors : List (Armor K)) (priority : ArmorPriority) : Bool :=
  armors.head?.any fun a => decide (a.priority < priority)

def Tracker.seek (tr : Tracker K) (detectionQueue : List (DetectionResult K)) (frame : TrackFrame K) : Sought K :=
  let switchTarget : DetectionResult K := ⟨[], frame.t, 0, 0⟩
  let tempTarget := detectionQueue.head?.getD ⟨[], frame.t, 0, 0⟩
  let tr := tr.tick frame.t
  let frame := { frame with armors := sortArmors num frame.armors }
  if tr.state = .lost then
    let r := tr.setTarget num frame
    ⟨r.1, r.2, switchTarget⟩
  -- the camera of the gimbal sees a better target
  else if tr.state = .tracking ∧ frontBelow frame.armors tr.target.priority = true then
    let r := tr.setTarget num frame
    ⟨r.1, r.2, switchTarget⟩
  -- the omnidirectional cameras see a better target; `convergened` is asked last
  else if tr.state = .tracking ∧ frontBelow tempTarget.armors tr.target.priority = true then
    let target := tr.target.convergened
    if target.isConverged = true then
      ⟨{ tr with
          target := target
          state := .switching
          omniTargetPriority := (tempTarget.armors.head?.map Armor.priority).getD tr.omniTargetPriority },
        false, ⟨tempTarget.armors, frame.t, tempTarget.deltaYaw, tempTarget.deltaPitch⟩⟩
    else
      let r := { tr with target := target }.updateTarget num frame
      ⟨r.1, r.2, switchTarget⟩
  else if tr.state = .switching then
    ⟨tr, frame.armors.head?.any fun a => decide (a.priority = tr.omniTargetPriority), switchTarget⟩
  else if tr.state = .detecting ∧ tr.preState = .switching then
    let r := tr.setTarget num frame
    ⟨r.1, r.2, switchTarget⟩
  else
    let r := tr.updateTarget num frame
    ⟨r.1, r.2, switchTarget⟩

/-- The divergence check; its answer is whether the target was given up. -/
def Tracker.checkDiverged (tr : Tracker K) : Tracker K × Bool :=
  if tr.state = .lost then (tr, false)
  else
    let d := tr.target.diverged
    if d.2 = true then ({ tr with target := d.1, state := .lost }, true) else ({ tr with target := d.1 }, false)

/-- `Tracker::track(armors, t)`. -/
def Tracker.trackOwn (tr : Tracker K) (frame : TrackFrame K) : Tracker K × List (TrackedTarget K) :=
  let r := tr.seekOwn num frame
  let c := (r.1.stateMachine r.2).checkDiverged
  let tr := c.1
  if c.2 = true then (tr, [])
  else if tr.target.badConverge = true then ({ tr with state := .lost }, [])
  else if tr.state = .lost then (tr, [])
  else (tr, [tr.target])

/-- `Tracker::track(detection_queue, armors, t)`. -/
def Tracker.track (tr : Tracker K) (detectionQueue : List (DetectionResult K)) (frame : TrackFrame K) :
    Tracker K × DetectionResult K × List (TrackedTarget K) :=
  let s := tr.seek num detectionQueue frame
  let c := s.advance.checkDiverged
  let tr := c.1
  if c.2 = true then (tr, s.switchTarget, [])
  else if tr.state = .lost then (tr, s.switchTarget, [])
  else (tr, s.switchTarget, [tr.target])

/-! ## What a call leaves -/

omit [FloorRing K] in
theorem tick_alike (tr : Tracker K) (t : Int) : Alike tr (tr.tick t) := by
  unfold Tracker.tick
  dsimp only
  split <;> exact ⟨rfl, rfl, rfl, rfl⟩

omit [FloorRing K] in
@[simp] theorem tick_target (tr : Tracker K) (t : Int) : (tr.tick t).target = tr.target := by
  unfold Tracker.tick
  dsimp only
  split <;> rfl

omit [FloorRing K] in
theorem tick_state (tr : Tracker K) (t : Int) : (tr.tick t).state = tr.state ∨ (tr.tick t).state = .lost := by
  unfold Tracker.tick
  dsimp only
  split
  · exact .inr rfl
  · exact .inl rfl

omit [FloorRing K] in
theorem tick_state_of_le {tr : Tracker K} {t : Int} (h : deltaTime t tr.lastTimestamp ≤ (0.1 : K)) :
    (tr.tick t).state = tr.state := by
  unfold Tracker.tick
  dsimp only
  rw [if_neg fun hc => not_lt.2 h hc.2]

omit [FloorRing K] in
theorem setTarget_alike (tr : Tracker K) (frame : TrackFrame K) :
    Alike tr (tr.setTarget num frame).1 ∧ (tr.setTarget num frame).1.state = tr.state := by
  unfold Tracker.setTarget
  split <;> exact ⟨⟨rfl, rfl, rfl, rfl⟩, rfl⟩

omit [Field K] [FloorRing K] in
theorem setTargetOrder_eq_nil {armors : List (Armor K)} : setTargetOrder armors = [] ↔ armors = [] := by
  unfold setTargetOrder
  split
  · rw [← List.length_eq_zero_iff, List.length_insertionSort, List.length_eq_zero_iff]
  · exact Iff.rfl

omit [FloorRing K] in
theorem setTarget_found {tr : Tracker K} {frame : TrackFrame K} :
    (tr.setTarget num frame).2 = true ↔ frame.armors ≠ [] := by
  rw [ne_eq, ← setTargetOrder_eq_nil]
  unfold Tracker.setTarget
  split
  · rename_i h
    simp [h]
  · rename_i h
    simp [h]

omit [FloorRing K] in
theorem sortArmors_eq_nil {armors : List (Armor K)} : sortArmors num armors = [] ↔ armors = [] := by
  unfold sortArmors
  rw [← List.length_eq_zero_iff, List.length_insertionSort, List.length_insertionSort, List.length_eq_zero_iff]

theorem updateTarget_alike (tr : Tracker K) (frame : TrackFrame K) :
    Alike tr (tr.updateTarget num frame).1 ∧ (tr.updateTarget num frame).1.state = tr.state ∧
      (tr.updateTarget num frame).1.target.name = tr.target.name := by
  unfold Tracker.updateTarget
  dsimp only
  split
  · exact ⟨⟨rfl, rfl, rfl, rfl⟩, rfl, predict_name num _ _⟩
  · exact ⟨⟨rfl, rfl, rfl, rfl⟩, rfl, (update_name num _ _).trans (predict_name num _ _)⟩

/-- The call sets its target anew: nothing is tracked, a better armor is in the image, or the omnidirectional cameras'
target was found in the call before. -/
def Tracker.SetsTarget (tr : Tracker K) (frame : TrackFrame K) : Prop :=
  (tr.tick frame.t).state = .lost ∨
    ((tr.tick frame.t).state = .tracking ∧ frontBelow (sortArmors num frame.armors) tr.target.priority = true) ∨
    ((tr.tick frame.t).state = .detecting ∧ tr.preState = .switching)

instance (tr : Tracker K) (frame : TrackFrame K) : Decidable (tr.SetsTarget num frame) :=
  inferInstanceAs (Decidable (_ ∨ _ ∨ _))

/-- **A call that sets its target finds one where it sees an armor.** -/
theorem seek_of_setsTarget {tr : Tracker K} (detectionQueue : List (DetectionResult K)) {frame : TrackFrame K}
    (h : tr.SetsTarget num frame) : tr.seek num detectionQueue frame =
      ⟨((tr.tick frame.t).setTarget num { frame with armors := sortArmors num frame.armors }).1,
        ((tr.tick frame.t).setTarget num { frame with armors := sortArmors num frame.armors }).2, ⟨[], frame.t, 0, 0⟩⟩ := by
  have hpre := (tick_alike tr frame.t).preState
  unfold Tracker.seek
  dsimp only
  rcases h with h | ⟨h, hb⟩ | ⟨h, hp⟩
  · rw [if_pos h]
  · rw [if_neg (by rw [h]; decide), tick_target, if_pos ⟨h, hb⟩]
  · have hne : ∀ {p : Prop}, ¬ ((tr.tick frame.t).state = .tracking ∧ p) := by
      rintro p ⟨h', -⟩
      rw [h] at h'
      cases h'
    rw [if_neg (by rw [h]; decide), if_neg hne, if_neg hne, if_neg (by rw [h]; decide), if_pos ⟨h, hpre.trans hp⟩]

theorem seek_of_switching {tr : Tracker K} (detectionQueue : List (DetectionResult K)) {frame : TrackFrame K}
    (h : (tr.tick frame.t).state = .switching) : tr.seek num detectionQueue frame =
      ⟨tr.tick frame.t,
        (sortArmors num frame.armors).head?.any fun a => decide (a.priority = (tr.tick frame.t).omniTargetPriority),
        ⟨[], frame.t, 0, 0⟩⟩ := by
  have hne : ∀ {p : Prop}, ¬ ((tr.tick frame.t).state = .tracking ∧ p) := by
    rintro p ⟨h', -⟩
    rw [h] at h'
    cases h'
  unfold Tracker.seek
  dsimp only
  rw [if_neg (by rw [h]; decide), if_neg hne, if_neg hne, if_pos h]

/-- The omnidirectional cameras see a target better than the one tracked, which has converged. -/
def Tracker.TurnsAway (tr : Tracker K) (detectionQueue : List (DetectionResult K)) (frame : TrackFrame K) : Prop :=
  (tr.tick frame.t).state = .tracking ∧
    frontBelow (detectionQueue.head?.getD ⟨[], frame.t, 0, 0⟩).armors tr.target.priority = true ∧
    tr.target.convergened.isConverged = true

/-- **A call that turns away takes over the direction of the detection.** -/
theorem seek_of_turnsAway {tr : Tracker K} {detectionQueue : List (DetectionResult K)} {frame : TrackFrame K}
    (hsets : ¬ tr.SetsTarget num frame) (h : tr.TurnsAway detectionQueue frame) :
    tr.seek num detectionQueue frame =
      ⟨{ tr.tick frame.t with
          target := tr.target.convergened
          state := .switching
          omniTargetPriority := ((detectionQueue.head?.getD ⟨[], frame.t, 0, 0⟩).armors.head?.map Armor.priority).getD
            (tr.tick frame.t).omniTargetPriority }, false,
        { detectionQueue.head?.getD ⟨[], frame.t, 0, 0⟩ with timestamp := frame.t }⟩ := by
  obtain ⟨ht, hfront, hconv⟩ := h
  simp only [Tracker.SetsTarget, not_or] at hsets
  unfold Tracker.seek
  dsimp only
  rw [tick_target, if_neg hsets.1, if_neg hsets.2.1, if_pos ⟨ht, hfront⟩, if_pos hconv]

/-- **Every other call looks for the target it has.** -/
theorem seek_of_updates {tr : Tracker K} {detectionQueue : List (DetectionResult K)} {frame : TrackFrame K}
    (hsets : ¬ tr.SetsTarget num frame) (hturns : ¬ tr.TurnsAway detectionQueue frame)
    (hswitching : (tr.tick frame.t).state ≠ .switching) : tr.seek num detectionQueue frame =
      ⟨((tr.tick frame.t).updateTarget num { frame with armors := sortArmors num frame.armors }).1,
        ((tr.tick frame.t).updateTarget num { frame with armors := sortArmors num frame.armors }).2,
        ⟨[], frame.t, 0, 0⟩⟩ := by
  simp only [Tracker.SetsTarget, not_or] at hsets
  obtain ⟨hlost, hbetter, hagain⟩ := hsets
  unfold Tracker.seek
  dsimp only
  rw [tick_target, if_neg hlost, if_neg hbetter]
  by_cases homni : (tr.tick frame.t).state = .tracking ∧
      frontBelow (detectionQueue.head?.getD ⟨[], frame.t, 0, 0⟩).armors tr.target.priority = true
  · have hconv : tr.target.convergened.isConverged = false := by
      simpa using fun hc => hturns ⟨homni.1, homni.2, hc⟩
    have hsame : { tr.tick frame.t with target := tr.target.convergened } = tr.tick frame.t := by
      rw [convergened_of_not hconv, ← tick_target tr frame.t]
    rw [if_pos homni, if_neg (by rw [hconv]; exact Bool.false_ne_true), hsame]
  · rw [if_neg homni, if_neg hswitching, if_neg (by rw [(tick_alike tr frame.t).preState]; exact hagain)]

/-- **A call that does not set its target keeps the kind of it, and leaves the state or turns from `tracking` to
`switching`.** -/
theorem seek_of_not_setsTarget {tr : Tracker K} (detectionQueue : List (DetectionResult K)) {frame : TrackFrame K}
    (h : ¬ tr.SetsTarget num frame) :
    Alike tr (tr.seek num detectionQueue frame).tracker ∧
      (tr.seek num detectionQueue frame).tracker.target.name = tr.target.name ∧
      ((tr.seek num detectionQueue frame).tracker.state = (tr.tick frame.t).state ∨
        ((tr.tick frame.t).state = .tracking ∧ (tr.seek num detectionQueue frame).tracker.state = .switching ∧
          (tr.seek num detectionQueue frame).found = false)) := by
  have halike := tick_alike tr frame.t
  by_cases hs : (tr.tick frame.t).state = .switching
  · rw [seek_of_switching num detectionQueue hs]
    exact ⟨halike, by rw [tick_target], .inl rfl⟩
  by_cases hturns : tr.TurnsAway detectionQueue frame
  · rw [seek_of_turnsAway num h hturns]
    exact ⟨halike.trans ⟨rfl, rfl, rfl, rfl⟩, convergened_name _, .inr ⟨hturns.1, rfl, rfl⟩⟩
  · rw [seek_of_updates num h hturns hs]
    obtain ⟨ha, hstate, hname⟩ := updateTarget_alike num (tr.tick frame.t)
      { frame with armors := sortArmors num frame.armors }
    exact ⟨halike.trans ha, by rw [hname, tick_target], .inl hstate⟩

/-- **A search leaves the counters; the state it leaves, or turns from `tracking` to `switching` without a find.** -/
theorem seek_alike (tr : Tracker K) (detectionQueue : List (DetectionResult K)) (frame : TrackFrame K) :
    Alike tr (tr.seek num detectionQueue frame).tracker ∧
      ((tr.seek num detectionQueue frame).tracker.state = (tr.tick frame.t).state ∨
        ((tr.tick frame.t).state = .tracking ∧ (tr.seek num detectionQueue frame).tracker.state = .switching ∧
          (tr.seek num detectionQueue frame).found = false)) := by
  by_cases h : tr.SetsTarget num frame
  · rw [seek_of_setsTarget num detectionQueue h]
    obtain ⟨ha, hs⟩ := setTarget_alike num (tr.tick frame.t) { frame with armors := sortArmors num frame.armors }
    exact ⟨(tick_alike tr frame.t).trans ha, .inl hs⟩
  · obtain ⟨ha, -, hs⟩ := seek_of_not_setsTarget num detectionQueue h
    exact ⟨ha, hs⟩

theorem seek_found_of_setsTarget {tr : Tracker K} (detectionQueue : List (DetectionResult K)) {frame : TrackFrame K}
    (h : tr.SetsTarget num frame) : (tr.seek num detectionQueue frame).found = true ↔ frame.armors ≠ [] := by
  rw [seek_of_setsTarget num detectionQueue h, setTarget_found, ne_eq, sortArmors_eq_nil]

omit [FloorRing K] in
/-- **The divergence check gives the target up or leaves the state.** -/
theorem checkDiverged_alike (tr : Tracker K) : Alike tr tr.checkDiverged.1 ∧
    tr.checkDiverged.1.target.name = tr.target.name ∧
    (tr.checkDiverged.1.state = .lost ∧ tr.checkDiverged.2 = true ∨
      tr.checkDiverged.1.state = tr.state ∧ tr.checkDiverged.2 = false) := by
  unfold Tracker.checkDiverged
  split
  · exact ⟨.refl tr, rfl, .inr ⟨rfl, rfl⟩⟩
  · dsimp only
    split
    · exact ⟨⟨rfl, rfl, rfl, rfl⟩, diverged_name _, .inl ⟨rfl, rfl⟩⟩
    · exact ⟨⟨rfl, rfl, rfl, rfl⟩, diverged_name _, .inr ⟨rfl, rfl⟩⟩

theorem track_fst (tr : Tracker K) (detectionQueue : List (DetectionResult K)) (frame : TrackFrame K) :
    (tr.track num detectionQueue frame).1 = (tr.seek num detectionQueue frame).advance.checkDiverged.1 := by
  unfold Tracker.track
  dsimp only
  split
  · rfl
  · split <;> rfl

/-- **A call answers its target where it has not lost it.** -/
theorem track_targets (tr : Tracker K) (detectionQueue : List (DetectionResult K)) (frame : TrackFrame K) :
    (tr.track num detectionQueue frame).2.2 =
      if (tr.track num detectionQueue frame).1.state = .lost then [] else [(tr.track num detectionQueue frame).1.target] := by
  obtain ⟨-, -, hstate⟩ := checkDiverged_alike (tr.seek num detectionQueue frame).advance
  rw [track_fst]
  unfold Tracker.track
  dsimp only
  rcases hstate with ⟨hlost, hgone⟩ | ⟨-, hkept⟩
  · rw [if_pos hgone, if_pos hlost]
  · rw [if_neg (by rw [hkept]; exact Bool.false_ne_true)]
    split <;> rfl

theorem track_switchTarget (tr : Tracker K) (detectionQueue : List (DetectionResult K)) (frame : TrackFrame K) :
    (tr.track num detectionQueue frame).2.1 = (tr.seek num detectionQueue frame).switchTarget := by
  unfold Tracker.track
  dsimp only
  split
  · rfl
  · split <;> rfl

/-- The call turns to what the omnidirectional cameras see, and stays with it. -/
def Tracker.Switches (tr : Tracker K) (detectionQueue : List (DetectionResult K)) (frame : TrackFrame K) : Prop :=
  ¬ tr.SetsTarget num frame ∧ tr.TurnsAway detectionQueue frame ∧ tr.tempLostCount < 200 ∧ tr.target.diverged.2 = false

omit [FloorRing K] in
theorem checkDiverged_x (tr : Tracker K) : tr.checkDiverged.1.target.x = tr.target.x := by
  unfold Tracker.checkDiverged
  dsimp only
  split
  · rfl
  · split <;> exact diverged_x _

/-- A search has a direction to turn to only where it turns away. -/
theorem turnsAway_of_switchTarget {tr : Tracker K} {detectionQueue : List (DetectionResult K)} {frame : TrackFrame K}
    (h : (tr.seek num detectionQueue frame).switchTarget.armors ≠ []) :
    ¬ tr.SetsTarget num frame ∧ tr.TurnsAway detectionQueue frame := by
  by_cases hsets : tr.SetsTarget num frame
  · rw [seek_of_setsTarget num detectionQueue hsets] at h
    exact absurd rfl h
  refine ⟨hsets, ?_⟩
  by_contra hturns
  by_cases hs : (tr.tick frame.t).state = .switching
  · rw [seek_of_switching num detectionQueue hs] at h
    exact absurd rfl h
  · rw [seek_of_updates num hsets hturns hs] at h
    exact absurd rfl h

theorem advance_of_turnsAway {tr : Tracker K} {detectionQueue : List (DetectionResult K)} {frame : TrackFrame K}
    (hsets : ¬ tr.SetsTarget num frame) (hturns : tr.TurnsAway detectionQueue frame) :
    (tr.seek num detectionQueue frame).advance.state = (if tr.tempLostCount + 1 > 200 then .lost else .switching) ∧
      (tr.seek num detectionQueue frame).advance.target = tr.target.convergened := by
  obtain ⟨hadv, -⟩ := advance_eq (tr.seek num detectionQueue frame)
  rw [hadv, stateMachine_state, Sought.advance, (stateMachine_keeps _ _).2.2, seek_of_turnsAway num hsets hturns]
  exact ⟨by rw [← (tick_alike tr frame.t).tempLostCount], rfl⟩

/-- **A call that switches carries the direction of the detection, and its target is where it was.** -/
theorem track_of_switches {tr : Tracker K} {detectionQueue : List (DetectionResult K)} {frame : TrackFrame K}
    (h : tr.Switches num detectionQueue frame) : (tr.track num detectionQueue frame).1.state = .switching ∧
      (tr.track num detectionQueue frame).1.target.x = tr.target.x ∧
      ∃ dr ∈ detectionQueue.head?, dr.armors ≠ [] ∧
        (tr.track num detectionQueue frame).2.1 = { dr with timestamp := frame.t } := by
  obtain ⟨hsets, hturns, hcount, hkept⟩ := h
  obtain ⟨hstate, htarget⟩ := advance_of_turnsAway num hsets hturns
  rw [if_neg (by omega)] at hstate
  refine ⟨?_, ?_, ?_⟩
  · have hd : (tr.seek num detectionQueue frame).advance.target.diverged.2 = false := by
      rw [htarget, convergened_diverged, hkept]
    rw [track_fst]
    unfold Tracker.checkDiverged
    dsimp only
    rw [if_neg (by rw [hstate]; decide), if_neg (by rw [hd]; exact Bool.false_ne_true)]
    exact hstate
  · rw [track_fst, checkDiverged_x, htarget]
    exact (convergened_x _).1
  · have hfront := hturns.2.1
    rw [track_switchTarget, seek_of_turnsAway num hsets hturns]
    cases hq : detectionQueue.head? with
    | none =>
      rw [hq] at hfront
      cases hfront
    | some dr =>
      rw [hq] at hfront
      refine ⟨dr, rfl, ?_, rfl⟩
      rintro hnil
      rw [Option.getD_some, hnil] at hfront
      cases hfront

/-- **The tracker ends in `switching` with a direction exactly in the calls that switch.** -/
theorem switches_iff {tr : Tracker K} {detectionQueue : List (DetectionResult K)} {frame : TrackFrame K} :
    tr.Switches num detectionQueue frame ↔ (tr.track num detectionQueue frame).1.state = .switching ∧
      (tr.track num detectionQueue frame).2.1.armors ≠ [] := by
  constructor
  · intro h
    obtain ⟨hstate, -, dr, -, hdr, heq⟩ := track_of_switches num h
    rw [heq]
    exact ⟨hstate, hdr⟩
  · rintro ⟨hstate, harmors⟩
    rw [track_switchTarget] at harmors
    obtain ⟨hsets, hturns⟩ := turnsAway_of_switchTarget num harmors
    obtain ⟨hadv, htarget⟩ := advance_of_turnsAway num hsets hturns
    rw [track_fst] at hstate
    have hcheck := (checkDiverged_alike (tr.seek num detectionQueue frame).advance).2.2
    rw [hstate] at hcheck
    obtain ⟨hlost, -⟩ | ⟨hkept, hd⟩ := hcheck
    · cases hlost
    have hcount : ¬ tr.tempLostCount + 1 > 200 := by
      intro hgt
      rw [hadv, if_pos hgt] at hkept
      cases hkept
    refine ⟨hsets, hturns, by omega, ?_⟩
    unfold Tracker.checkDiverged at hd
    dsimp only at hd
    rw [if_neg (by rw [← hkept]; decide), htarget, convergened_diverged] at hd
    split at hd
    · cases hd
    · rename_i h
      simpa using h

theorem track_omniTargetPriority (tr : Tracker K) (detectionQueue : List (DetectionResult K)) (frame : TrackFrame K) :
    (tr.track num detectionQueue frame).1.omniTargetPriority =
      (tr.seek num detectionQueue frame).tracker.omniTargetPriority := by
  have hcheck : ∀ tr : Tracker K, tr.checkDiverged.1.omniTargetPriority = tr.omniTargetPriority := by
    intro tr
    unfold Tracker.checkDiverged
    dsimp only
    repeat' split
    all_goals rfl
  rw [track_fst, hcheck]
  unfold Sought.advance Tracker.stateMachine
  dsimp only
  repeat' split
  all_goals rfl

end Vision
end LfSentry
