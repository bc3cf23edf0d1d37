import LfSentry.Decider
import LfSentry.DualArbiter
/-!
# DualCameras — the loop with two cameras (`src/sentry_dual_cameras.cpp`, `src/sentry_dual_sn.cpp`)

Both programs make a queue of detections of what their two cameras see, decide on a turn, hold the last one for a few frames
when nothing is seen, and send the yaw that the turn leads to.  They differ in how steady a yaw must be to fire.  What is
held is the turn: each frame of a hold adds it to where the gimbal is by then (`hold_keeps_aim_iff`).
-/
namespace LfSentry
namespace Vision
namespace DualCameras

open AddCommGroup

variable {K : Type} [Field K] [LinearOrder K] [FloorRing K] (lib : Libm K)

/-! ## The queue -/

/-- The detection made of what a camera sees; it is tagged `front` or `back`. -/
def detect (d : Decider K) (v : View K) : Option (DetectionResult K) := d.detect (limitRad lib) v

/-- The detections that still have armors, by the priority of their first ones. -/
def Queued (d : Decider K) (dets queue : List (DetectionResult K)) : Prop :=
  ByFront ((dets.map d.sorted).filter fun dr => ¬ dr.armors.isEmpty) queue

/-! ## The loop -/

/-- The static variables of the loop; times are nanoseconds. -/
structure Loop (K : Type) where
  lastValidCommand : Command K
  consecutiveLostFrames : Int
  targetStable : Bool
  stableFrameCount : Int
  lastSentYaw : K
  firstYawReceived : Bool
  lastFoundTime : Int

def Loop.init (K : Type) [OfNat K 0] (now : Int) : Loop K := ⟨Command.none K, 0, false, 0, 0, false, now⟩

def maxLostFrames : Int := 8
def holdMs : Int := 200

/-- `while (diff > pi) …; while (diff < -pi) …`: all turns at once. -/
def shortestTurn (diff : K) : K :=
  if diff > lib.pi then diff - lib.turn * ⌈(diff - lib.pi) / lib.turn⌉
  else if diff < -lib.pi then diff + lib.turn * ⌈(-lib.pi - diff) / lib.turn⌉
  else diff

section Loops

variable [IsStrictOrderedRing K] {lib}

theorem shortestTurn_neg (hpi : 0 < lib.pi) (diff : K) : shortestTurn lib (-diff) = -shortestTurn lib diff := by
  unfold shortestTurn
  by_cases hhi : diff > lib.pi
  · rw [if_neg (by linarith), if_pos (by linarith), if_pos hhi, neg_sub_neg]
    ring
  · by_cases hlo : diff < -lib.pi
    · rw [if_pos (by linarith), if_neg hhi, if_pos hlo, show -diff - lib.pi = -lib.pi - diff by ring]
      ring
    · rw [if_neg (by linarith), if_neg (by linarith), if_neg hhi, if_neg hlo]

theorem shortestTurn_sub_turn (hpi : 0 < lib.pi) {diff : K} (h : diff > lib.pi) :
    shortestTurn lib (diff - lib.turn) = shortestTurn lib diff := by
  have htwo : lib.turn = 2 * lib.pi := rfl
  have hturn : (diff - lib.turn - lib.pi) / lib.turn = (diff - lib.pi) / lib.turn - 1 := by
    rw [sub_right_comm, sub_div, div_self (by linarith)]
  unfold shortestTurn
  rw [if_pos h]
  by_cases hhi : diff - lib.turn > lib.pi
  · rw [if_pos hhi, hturn, Int.ceil_sub_one, Int.cast_sub, Int.cast_one]
    ring
  · have hceil : ⌈(diff - lib.pi) / lib.turn⌉ = 1 := by
      rw [Int.ceil_eq_iff, Int.cast_one, lt_div_iff₀ (by linarith), div_le_iff₀ (by linarith)]
      constructor <;> linarith
    rw [if_neg hhi, if_neg (by linarith), hceil, Int.cast_one, mul_one]

/-- **It meets the equation of the two loops.** -/
theorem shortestTurn_loops (hpi : 0 < lib.pi) (diff : K) : shortestTurn lib diff =
    if diff > lib.pi then shortestTurn lib (diff - lib.turn)
    else if diff < -lib.pi then shortestTurn lib (diff + lib.turn)
    else diff := by
  by_cases hhi : diff > lib.pi
  · rw [if_pos hhi, shortestTurn_sub_turn hpi hhi]
  · rw [if_neg hhi]
    by_cases hlo : diff < -lib.pi
    · have hneg : shortestTurn lib (-diff - lib.turn) = shortestTurn lib (-diff) :=
        shortestTurn_sub_turn hpi (by linarith)
      rw [shortestTurn_neg hpi, ← neg_add', shortestTurn_neg hpi, neg_inj] at hneg
      rw [if_pos hlo, hneg]
    · rw [if_neg hlo, shortestTurn, if_neg hhi, if_neg hlo]

end Loops

/-- `smooth_yaw_transition`, in exact arithmetic; the source's is in `float`, and rounds the yaw that is sent. -/
def smoothYawTransition (currentYaw lastYaw : K) : K := lastYaw + shortestTurn lib (currentYaw - lastYaw)

/-- What the program asks of the C library's `isfinite`, and the degrees within which it fires. -/
structure Program (K : Type) where
  isfinite : K → Bool
  stableYawDeg : K

def sentryDualCameras (isfinite : K → Bool) : Program K := ⟨isfinite, 2.0⟩

def sentryDualSn (isfinite : K → Bool) : Program K := ⟨isfinite, 5.0⟩

def Program.finite (pr : Program K) (cmd : Command K) : Bool := pr.isfinite cmd.yaw && pr.isfinite cmd.pitch

def Loop.keepFound (pr : Program K) (s : Loop K) (outCmd : Command K) (now : Int) : Loop K :=
  let s := { s with lastFoundTime := now }
  if outCmd.control then
    let s := { s with consecutiveLostFrames := 0, stableFrameCount := s.stableFrameCount + 1 }
    let s := if s.stableFrameCount ≥ 3 then { s with targetStable := true } else s
    if pr.finite outCmd then { s with lastValidCommand := outCmd } else s
  else
    { s with consecutiveLostFrames := s.consecutiveLostFrames + 1, stableFrameCount := 0, targetStable := false }

def Loop.commandFound (pr : Program K) (s : Loop K) (outCmd : Command K) : Command K :=
  let outCmd := { outCmd with control := true }
  let outCmd := if pr.finite outCmd then outCmd else { s.lastValidCommand with control := true, shoot := false }
  if s.targetStable ∧ |outCmd.yaw - s.lastValidCommand.yaw| * 57.3 < pr.stableYawDeg then
    { outCmd with shoot := true }
  else { outCmd with shoot := false }

def Loop.keepLost (s : Loop K) : Loop K :=
  { s with consecutiveLostFrames := s.consecutiveLostFrames + 1, stableFrameCount := 0, targetStable := false }

def Loop.commandLost (s : Loop K) (outCmd : Command K) (now : Int) : Command K :=
  let outCmd := if s.consecutiveLostFrames ≤ maxLostFrames then
      { s.lastValidCommand with control := true, shoot := false }
    else { outCmd with control := false, shoot := false, yaw := 0, pitch := 0 }
  -- a `duration_cast` to milliseconds cuts towards zero
  if (now - s.lastFoundTime).tdiv 1000000 > holdMs then
    { outCmd with control := false, shoot := false, yaw := 0, pitch := 0 }
  else outCmd

/-- The turn is added to where the gimbal is, and what comes of it is sent. -/
def Loop.send (s : Loop K) (outCmd : Command K) (gimbalYaw : K) : Loop K × List (Command K) :=
  if outCmd.control then
    let yaw := limitRad lib (outCmd.yaw + gimbalYaw)
    let yaw := if s.firstYawReceived then smoothYawTransition lib yaw s.lastSentYaw else yaw
    ({ s with firstYawReceived := true, lastSentYaw := yaw }, [{ outCmd with yaw := yaw }])
  else (s, [])

/-- What an iteration starts from: the queue, the yaw of the gimbal and the time. -/
structure Iteration (K : Type) where
  detectionQueue : List (DetectionResult K)
  gimbalYaw : K
  now : Int

def Loop.iterate (pr : Program K) (s : Loop K) (i : Iteration K) : Loop K × List (Command K) :=
  let outCmd := decideQueue i.detectionQueue
  if i.detectionQueue ≠ [] then
    let s := s.keepFound pr outCmd i.now
    s.send lib (s.commandFound pr outCmd) i.gimbalYaw
  else
    let s := s.keepLost
    s.send lib (s.commandLost outCmd i.now) i.gimbalYaw

def loop (pr : Program K) : Machine (Loop K) (Iteration K) (Command K) where
  step s i := some (s.iterate lib pr i)

/-! ## The turns that are taken off -/

theorem shortestTurn_modEq (diff : K) : shortestTurn lib diff ≡ diff [PMOD lib.turn] := by
  unfold shortestTurn
  split
  · exact Turns.sub_turns_modEq _ _ _
  · split
    · exact Turns.add_turns_modEq _ _ _
    · exact modEq_rfl

/-- **What is sent is the turn from where the gimbal is, up to whole turns.** -/
theorem send_yaw (s : Loop K) {outCmd cmd : Command K} {gimbalYaw : K} (h : cmd ∈ (s.send lib outCmd gimbalYaw).2) :
    cmd.yaw ≡ outCmd.yaw + gimbalYaw [PMOD lib.turn] := by
  unfold Loop.send at h
  split at h
  · rw [List.mem_singleton.1 h]
    dsimp only
    split
    · have hturn := (shortestTurn_modEq lib (limitRad lib (outCmd.yaw + gimbalYaw) - s.lastSentYaw)).add_left s.lastSentYaw
      rw [add_sub_cancel] at hturn
      exact hturn.trans (limitRad_modEq _)
    · exact limitRad_modEq _
  · cases h

/-! ## Holding -/

/-- The yaw sent in an iteration with a valid target, and where the gimbal was. -/
structure Aimed (K : Type) where
  sent : K
  gimbalYaw : K

def Iteration.valid (i : Iteration K) : Bool := (decideQueue i.detectionQueue).control

def noteAimed (g : Option (Aimed K)) (i : Iteration K) (out : List (Command K)) : Option (Aimed K) :=
  match out with
  | [cmd] => if i.valid then some ⟨cmd.yaw, i.gimbalYaw⟩ else g
  | _ => g

/-- The loop with the last aim at a valid target. -/
def recordedLoop (pr : Program K) : Machine (Loop K × Option (Aimed K)) (Iteration K) (Command K) :=
  (loop lib pr).ghost fun g _ i q => noteAimed g i q.2

/-- What a hold sends is, up to whole turns, the yaw sent at the last valid target. -/
def HoldsAim (pr : Program K) (p : Loop K × Option (Aimed K)) (i : Iteration K) : Prop :=
  i.detectionQueue = [] → ∀ q es, (recordedLoop lib pr).step p i = some (q, es) → ∀ cmd ∈ es, ∀ a ∈ p.2,
    cmd.yaw ≡ a.sent [PMOD lib.turn]

/-- An iteration with nothing found holds the last command. -/
def Loop.Holding (s : Loop K) (now : Int) : Prop :=
  s.consecutiveLostFrames + 1 ≤ maxLostFrames ∧ (now - s.lastFoundTime).tdiv 1000000 ≤ holdMs

/-- In a hold the gimbal is, up to whole turns, where it was at the last valid target. -/
def GimbalBack (p : Loop K × Option (Aimed K)) (i : Iteration K) : Prop :=
  i.detectionQueue = [] → p.1.Holding i.now → ∀ a ∈ p.2, i.gimbalYaw ≡ a.gimbalYaw [PMOD lib.turn]

/-- The yaw sent at the last valid target is the turn that is held, from where the gimbal was. -/
def Kept (p : Loop K × Option (Aimed K)) : Prop :=
  ∀ a ∈ p.2, a.sent ≡ p.1.lastValidCommand.yaw + a.gimbalYaw [PMOD lib.turn]

variable {lib}

omit [LinearOrder K] [FloorRing K] in
theorem valid_ne_nil {i : Iteration K} (h : i.valid = true) : i.detectionQueue ≠ [] := by
  intro hnil
  rw [Iteration.valid, hnil] at h
  cases h

omit [FloorRing K] in
/-- **The command of a valid target has the turn that is kept.** -/
theorem commandFound_yaw {pr : Program K} {s : Loop K} {outCmd : Command K} {now : Int} (hc : outCmd.control = true) :
    ((s.keepFound pr outCmd now).commandFound pr outCmd).yaw = (s.keepFound pr outCmd now).lastValidCommand.yaw := by
  by_cases hf : pr.finite outCmd = true
  · have hkept : (s.keepFound pr outCmd now).lastValidCommand = outCmd := by
      unfold Loop.keepFound
      simp only [hc, hf, if_true]
    have hfc : pr.finite { outCmd with control := true } = true := hf
    rw [hkept]
    unfold Loop.commandFound
    simp only [hfc, if_true]
    split <;> rfl
  · have hfc : ¬ pr.finite { outCmd with control := true } = true := hf
    unfold Loop.commandFound
    simp only [if_neg hfc]
    split <;> rfl

omit [FloorRing K] in
theorem commandFound_control (pr : Program K) (s : Loop K) (outCmd : Command K) :
    (s.commandFound pr outCmd).control = true := by
  unfold Loop.commandFound
  dsimp only
  by_cases hf : pr.finite { outCmd with control := true } = true
  · rw [if_pos hf]
    split <;> rfl
  · rw [if_neg hf]
    split <;> rfl

variable (lib) in
theorem send_control (s : Loop K) {outCmd : Command K} (gimbalYaw : K) (hc : outCmd.control = true) :
    ∃ cmd, (s.send lib outCmd gimbalYaw).2 = [cmd] := by
  unfold Loop.send
  rw [if_pos hc]
  exact ⟨_, rfl⟩

variable (lib) in
theorem send_keeps (s : Loop K) (outCmd : Command K) (gimbalYaw : K) :
    (s.send lib outCmd gimbalYaw).1.consecutiveLostFrames = s.consecutiveLostFrames ∧
      (s.send lib outCmd gimbalYaw).1.lastFoundTime = s.lastFoundTime := by
  unfold Loop.send
  split <;> exact ⟨rfl, rfl⟩

theorem send_lastValidCommand (s : Loop K) (outCmd : Command K) (gimbalYaw : K) :
    (s.send lib outCmd gimbalYaw).1.lastValidCommand = s.lastValidCommand := by
  unfold Loop.send
  split <;> rfl

/-- **What is held changes only with a valid target.** -/
theorem iterate_lastValidCommand {pr : Program K} {s : Loop K} {i : Iteration K} (h : i.valid = false) :
    (s.iterate lib pr i).1.lastValidCommand = s.lastValidCommand := by
  unfold Loop.iterate
  dsimp only
  split
  · rw [send_lastValidCommand]
    unfold Loop.keepFound
    rw [Iteration.valid] at h
    simp only [h, Bool.false_eq_true, if_false]
  · rw [send_lastValidCommand]
    rfl

theorem recordedLoop_step {pr : Program K} {p q : Loop K × Option (Aimed K)} {i : Iteration K} {es : List (Command K)} :
    (recordedLoop lib pr).step p i = some (q, es) ↔ p.1.iterate lib pr i = (q.1, es) ∧ q.2 = noteAimed p.2 i es := by
  rw [recordedLoop, Machine.ghost_step]
  simp only [loop, Option.some.injEq]

theorem kept_step {pr : Program K} {p q : Loop K × Option (Aimed K)} {i : Iteration K} {es : List (Command K)}
    (hp : Kept lib p) (h : (recordedLoop lib pr).step p i = some (q, es)) : Kept lib q := by
  obtain ⟨hstep, hnote⟩ := recordedLoop_step.1 h
  obtain ⟨s, g⟩ := q
  dsimp only at hstep hnote
  cases hv : i.valid with
  | false =>
    have hsame : g = p.2 := by
      rw [hnote]
      unfold noteAimed
      split
      · rw [hv]
        rfl
      · rfl
    have hlast : (p.1.iterate lib pr i).1.lastValidCommand = p.1.lastValidCommand := iterate_lastValidCommand hv
    rw [hstep] at hlast
    intro a ha
    rw [hsame] at ha
    dsimp only at hlast ⊢
    rw [hlast]
    exact hp a ha
  | true =>
    have hne := valid_ne_nil hv
    unfold Loop.iterate at hstep
    simp only [if_pos hne] at hstep
    let kept := p.1.keepFound pr (decideQueue i.detectionQueue) i.now
    obtain ⟨cmd, hcmd⟩ := send_control lib kept i.gimbalYaw (commandFound_control pr kept (decideQueue i.detectionQueue))
    have hyaw := send_yaw lib _ (hcmd ▸ List.mem_singleton_self cmd)
    rw [commandFound_yaw hv] at hyaw
    have hlast := congrArg (fun r => r.1.lastValidCommand) hstep
    simp only [send_lastValidCommand] at hlast
    have hes := congrArg Prod.snd hstep
    rw [hcmd] at hes
    simp only at hes
    subst hes
    intro a ha
    rw [hnote, noteAimed, if_pos hv, Option.mem_some_iff] at ha
    subst ha
    dsimp only
    rw [← hlast]
    exact hyaw

omit [LinearOrder K] [FloorRing K] in
theorem commandLost_control (s : Loop K) (now : Int) :
    (s.keepLost.commandLost (Command.none K) now).control = true ↔ s.Holding now := by
  unfold Loop.commandLost Loop.Holding Loop.keepLost
  dsimp only
  by_cases hms : (now - s.lastFoundTime).tdiv 1000000 > holdMs
  · rw [if_pos hms]
    exact ⟨fun h => (by cases h), fun h => absurd h.2 (by omega)⟩
  · rw [if_neg hms]
    by_cases hn : s.consecutiveLostFrames + 1 ≤ maxLostFrames
    · rw [if_pos hn]
      exact ⟨fun _ => ⟨hn, by omega⟩, fun _ => rfl⟩
    · rw [if_neg hn]
      exact ⟨fun h => (by cases h), fun h => absurd h.1 hn⟩

omit [LinearOrder K] [FloorRing K] in
theorem commandLost_yaw {s : Loop K} {outCmd : Command K} {now : Int} (h : s.Holding now) :
    (s.keepLost.commandLost outCmd now).yaw = s.lastValidCommand.yaw := by
  unfold Loop.commandLost Loop.keepLost
  dsimp only
  rw [if_neg (by have := h.2; omega), if_pos h.1]

/-- **A hold keeps the aim iff the gimbal has not moved.** -/
theorem holdsAim_iff {pr : Program K} {p : Loop K × Option (Aimed K)} {i : Iteration K} (hp : Kept lib p) :
    HoldsAim lib pr p i ↔ GimbalBack lib p i := by
  unfold HoldsAim GimbalBack
  refine imp_congr_right fun hnil => ?_
  have hiterate : p.1.iterate lib pr i =
      p.1.keepLost.send lib (p.1.keepLost.commandLost (Command.none K) i.now) i.gimbalYaw := by
    simp only [Loop.iterate, hnil, ne_eq, not_true, if_false]
    rfl
  constructor
  · intro h hhold a ha
    obtain ⟨cmd, hcmd⟩ := send_control lib p.1.keepLost i.gimbalYaw ((commandLost_control p.1 i.now).2 hhold)
    have hmem := hcmd ▸ List.mem_singleton_self cmd
    have hsent := send_yaw lib _ hmem
    rw [commandLost_yaw hhold] at hsent
    rw [← hiterate] at hmem
    have hkeeps := h ((p.1.iterate lib pr i).1, _) _ (recordedLoop_step.2 ⟨rfl, rfl⟩) cmd hmem a ha
    exact ModEq.add_left_cancel' _ ((hsent.symm.trans hkeeps).trans (hp a ha))
  · intro h q es hq cmd hcmd a ha
    obtain ⟨hq, -⟩ := recordedLoop_step.1 hq
    rw [hiterate] at hq
    rw [show es = _ from (congrArg Prod.snd hq).symm] at hcmd
    have hhold : p.1.Holding i.now := by
      by_contra hn
      rw [← commandLost_control] at hn
      rw [Loop.send, if_neg hn] at hcmd
      cases hcmd
    have hsent := send_yaw lib _ hcmd
    rw [commandLost_yaw hhold] at hsent
    exact (hsent.trans ((h hhold a ha).add_left _)).trans (hp a ha).symm

theorem hold_iff (pr : Program K) (now : Int) (iterations : List (Iteration K)) :
    (recordedLoop lib pr).Along (HoldsAim lib pr) (Loop.init K now, none) iterations ↔
      (recordedLoop lib pr).Along (GimbalBack lib) (Loop.init K now, none) iterations :=
  Machine.along_iff (I := Kept lib) (fun p i hp => holdsAim_iff hp) (fun p i q es hp _ h => kept_step hp h)
    fun a ha => by cases ha

variable (lib)

/-- **In both programs the holds of a run keep the aim exactly if at each frame of a hold the gimbal is where it was at the
last valid target.** -/
theorem hold_keeps_aim_iff (isfinite : K → Bool) (now : Int) (iterations : List (Iteration K)) :
    ((recordedLoop lib (sentryDualCameras isfinite)).Along (HoldsAim lib (sentryDualCameras isfinite))
        (Loop.init K now, none) iterations ↔
      (recordedLoop lib (sentryDualCameras isfinite)).Along (GimbalBack lib) (Loop.init K now, none) iterations) ∧
    ((recordedLoop lib (sentryDualSn isfinite)).Along (HoldsAim lib (sentryDualSn isfinite))
        (Loop.init K now, none) iterations ↔
      (recordedLoop lib (sentryDualSn isfinite)).Along (GimbalBack lib) (Loop.init K now, none) iterations) :=
  ⟨hold_iff _ now iterations, hold_iff _ now iterations⟩

/-- A detection straight ahead of an armor. -/
noncomputable def straightAhead : DetectionResult ℝ := ⟨[⟨.red, .one, .small, .first, (0, 0), (0, 0), 0, 0, 0⟩], 0, 0, 0⟩

/-- **A gimbal that has moved by 1 rad since the target was seen is sent 1 rad past it.** -/
theorem hold_moves_with_gimbal : ¬ (recordedLoop Dual.realLibm (sentryDualCameras fun _ => true)).Along
    (HoldsAim Dual.realLibm (sentryDualCameras fun _ => true)) (Loop.init ℝ 0, none)
    [⟨[straightAhead], 0, 0⟩, ⟨[], 1, 10000000⟩] := by
  intro h
  let pr : Program ℝ := sentryDualCameras fun _ => true
  let i : Iteration ℝ := ⟨[straightAhead], 0, 0⟩
  let found := (Loop.init ℝ 0).keepFound pr ⟨true, false, 0, 0, 0⟩ 0
  obtain ⟨cmd, hcmd⟩ := send_control Dual.realLibm found 0 (commandFound_control pr found ⟨true, false, 0, 0, 0⟩)
  have hiterate : (Loop.init ℝ 0).iterate Dual.realLibm pr i = (((Loop.init ℝ 0).iterate Dual.realLibm pr i).1, [cmd]) := by
    rw [← hcmd]
    rfl
  have hstep : (recordedLoop Dual.realLibm pr).step (Loop.init ℝ 0, none) i =
      some ((((Loop.init ℝ 0).iterate Dual.realLibm pr i).1, some ⟨cmd.yaw, 0⟩), [cmd]) :=
    recordedLoop_step.2 ⟨hiterate, rfl⟩
  obtain ⟨hlost, hfound⟩ := send_keeps Dual.realLibm found (found.commandFound pr ⟨true, false, 0, 0, 0⟩) 0
  have hkept := kept_step (fun a ha => by cases ha) hstep
  have hback := (holdsAim_iff hkept).1 (h.2 _ _ hstep).1 rfl ⟨?_, ?_⟩ _ rfl
  · obtain ⟨m, hm⟩ := modEq_iff_zsmul'.1 hback
    have hpi := Real.two_le_pi
    simp only [Libm.turn, Dual.realLibm, zero_sub, zsmul_eq_mul] at hm
    have hlt : -1 < m := by
      by_contra hle
      have hm1 : (m : ℝ) ≤ -1 := by exact_mod_cast not_lt.1 hle
      nlinarith
    have hneg : m < 0 := by
      by_contra hle
      have hm0 : (0 : ℝ) ≤ m := by exact_mod_cast not_lt.1 hle
      nlinarith
    omega
  · refine le_of_eq_of_le (congrArg (· + 1) hlost) ?_
    decide
  · refine le_of_eq_of_le (congrArg (fun t => (10000000 - t).tdiv 1000000) hfound) ?_
    decide

end DualCameras
end Vision
end LfSentry
