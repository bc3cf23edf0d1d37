import LfSentry.Fp
import LfSentry.Runs
import LfSentry.Command
/-!
# AimGuard — holding and firing on a guarded aim (`sp_vision_25/tools/aim_guard`)

`process` answers each call of a run with a command.  What it keeps is a function of the calls so far: the command of
the last valid call and the number of aimed calls in a row (`kept_step`).  From it, call by call, when the answer steers
to an aimed point (`guard_steers_iff`) and when it fires on a stable aim (`guard_fires_iff`).
-/
namespace LfSentry
namespace Vision

instance : OfNat Fp 0 := ⟨.fin 0⟩

def Command.isFinite (cmd : Command Fp) : Bool := cmd.yaw.isFinite && cmd.pitch.isFinite

theorem not_isFinite_eq (cmd : Command Fp) : (!cmd.yaw.isFinite || !cmd.pitch.isFinite) = !cmd.isFinite :=
  (Bool.not_and _ _).symm

/-- `AimGuard::Params`; `hold_ms` are milliseconds. -/
structure Params where
  maxLostFrames : Int := 8
  holdMs : Int := 200
  stableNeedFrames : Int := 3
  stableYawDeg : Fp := .fin 5
  enableStableFire : Bool := true
  deriving DecidableEq, Repr

/-- The state of an `AimGuard`; times are nanoseconds. -/
structure AimGuard where
  p : Params
  lastValidCommand : Command Fp
  consecutiveLostFrames : Int
  targetStable : Bool
  stableFrameCount : Int
  lastFoundTime : Int
  deriving DecidableEq, Repr

def AimGuard.init (p : Params) (now : Int) : AimGuard := ⟨p, Command.none Fp, 0, false, 0, now⟩

/-- `process` with `found`: what is kept. -/
def AimGuard.keepFound (g : AimGuard) (cmd : Command Fp) (now : Int) : AimGuard :=
  let g := { g with lastFoundTime := now }
  if cmd.control then
    let g := { g with consecutiveLostFrames := 0, stableFrameCount := g.stableFrameCount + 1 }
    let g := if g.stableFrameCount ≥ g.p.stableNeedFrames then { g with targetStable := true } else g
    if cmd.isFinite then { g with lastValidCommand := cmd } else g
  else
    { g with
      consecutiveLostFrames := g.consecutiveLostFrames + 1
      stableFrameCount := 0
      targetStable := false }

/-- `process` with `found`: the answer, from what is kept. -/
def AimGuard.answerFound (g : AimGuard) (cmd : Command Fp) : Command Fp :=
  let cmd := { cmd with control := true }
  let cmd := if !cmd.yaw.isFinite || !cmd.pitch.isFinite then
      { g.lastValidCommand with control := true, shoot := false }
    else cmd
  if g.p.enableStableFire && g.targetStable then
    let yawDiffDeg := (cmd.yaw.sub g.lastValidCommand.yaw).abs.scale (573 / 10)
    { cmd with shoot := yawDiffDeg.lt g.p.stableYawDeg }
  else { cmd with shoot := false }

/-- `process` without: what is kept. -/
def AimGuard.keepLost (g : AimGuard) : AimGuard :=
  { g with
    consecutiveLostFrames := g.consecutiveLostFrames + 1
    stableFrameCount := 0
    targetStable := false }

/-- `process` without: the answer, from what is kept. -/
def AimGuard.answerLost (g : AimGuard) (cmd : Command Fp) (now : Int) : Command Fp :=
  let cmd := if g.consecutiveLostFrames ≤ g.p.maxLostFrames then
      { g.lastValidCommand with control := true, shoot := false }
    else { cmd with control := false, shoot := false, yaw := 0, pitch := 0 }
  -- a `duration_cast` to milliseconds cuts towards zero
  let sinceFoundMs := (now - g.lastFoundTime).tdiv 1000000
  if sinceFoundMs > g.p.holdMs then { cmd with control := false, shoot := false, yaw := 0, pitch := 0 } else cmd

structure Call where
  found : Bool
  cmd : Command Fp
  now : Int
  deriving DecidableEq, Repr

def AimGuard.process (g : AimGuard) (c : Call) : AimGuard × Command Fp :=
  if c.found then
    let g := g.keepFound c.cmd c.now
    (g, g.answerFound c.cmd)
  else
    let g := g.keepLost
    (g, g.answerLost c.cmd c.now)

def aimGuard : Machine AimGuard Call (Command Fp) where
  step g c := some ((g.process c).1, [(g.process c).2])

/-- The guard with the calls so far, the latest first. -/
def guarded : Machine (AimGuard × List Call) Call (Command Fp) := aimGuard.ghost fun cs _ c _ => c :: cs

/-! ## What the calls so far say -/

def Call.aimed (c : Call) : Bool := c.found && c.cmd.control

/-- A call whose command may be held. -/
def Call.valid (c : Call) : Bool := c.aimed && c.cmd.isFinite

def lastValid : List Call → Option (Command Fp)
  | [] => none
  | c :: cs => if c.valid then some c.cmd else lastValid cs

/-- How many calls in a row, up to the last one, were aimed. -/
def streak : List Call → Nat
  | [] => 0
  | c :: cs => if c.aimed then streak cs + 1 else 0

theorem lastValid_eq_some {v : Command Fp} : ∀ {cs : List Call}, lastValid cs = some v →
    ∃ c ∈ cs, c.valid = true ∧ c.cmd = v
  | c :: cs, h => by
    by_cases hc : c.valid = true
    · rw [lastValid, if_pos hc, Option.some.injEq] at h
      exact ⟨c, List.mem_cons_self, hc, h⟩
    · rw [lastValid, if_neg hc] at h
      obtain ⟨d, hd, hv⟩ := lastValid_eq_some h
      exact ⟨d, List.mem_cons_of_mem c hd, hv⟩

theorem lastValid_eq_none {cs : List Call} : lastValid cs = none ↔ ∀ c ∈ cs, c.valid = false := by
  induction cs with
  | nil => simp [lastValid]
  | cons c cs ih =>
    rw [lastValid, List.forall_mem_cons, ← ih]
    cases c.valid <;> simp

structure Kept (p : Params) (q : AimGuard × List Call) : Prop where
  params : q.1.p = p
  command : q.1.lastValidCommand = (lastValid q.2).getD (Command.none Fp)
  count : q.1.stableFrameCount = streak q.2
  stable : q.1.targetStable = true ↔ 0 < streak q.2 ∧ p.stableNeedFrames ≤ streak q.2

theorem kept_init (p : Params) (now : Int) : Kept p (AimGuard.init p now, []) where
  params := rfl
  command := rfl
  count := rfl
  stable := by simp [AimGuard.init, streak]

theorem keepFound_of_control (g : AimGuard) {cmd : Command Fp} (h : cmd.control = true) (now : Int) :
    g.keepFound cmd now =
      { g with
        lastFoundTime := now
        consecutiveLostFrames := 0
        stableFrameCount := g.stableFrameCount + 1
        targetStable := g.targetStable || decide (g.p.stableNeedFrames ≤ g.stableFrameCount + 1)
        lastValidCommand := if cmd.isFinite then cmd else g.lastValidCommand } := by
  unfold AimGuard.keepFound
  by_cases hneed : g.p.stableNeedFrames ≤ g.stableFrameCount + 1
  · cases cmd.isFinite <;> simp [h, hneed]
  · cases cmd.isFinite <;> simp [h, hneed]

theorem kept_process {p : Params} {g : AimGuard} {cs : List Call} (h : Kept p (g, cs)) (c : Call) :
    Kept p ((g.process c).1, c :: cs) := by
  obtain ⟨hparams, hcommand, hcount, hstable⟩ := h
  simp only at hparams hcommand hcount hstable
  unfold AimGuard.process
  by_cases haimed : c.aimed = true
  · have hparts : c.found = true ∧ c.cmd.control = true := by simpa [Call.aimed] using haimed
    rw [if_pos hparts.1, keepFound_of_control g hparts.2]
    refine ⟨hparams, ?_, ?_, ?_⟩
    · simp only [lastValid, Call.valid, haimed, Bool.true_and, hcommand]
      cases c.cmd.isFinite <;> rfl
    · simp only [streak, if_pos haimed, hcount, Nat.cast_add, Nat.cast_one]
    · simp only [streak, if_pos haimed, Bool.or_eq_true, decide_eq_true_eq, hstable, hparams, hcount]
      omega
  · have hvalid : ¬ c.valid = true := by simp [Call.valid, haimed]
    have hlost : (if c.found = true then (g.keepFound c.cmd c.now, (g.keepFound c.cmd c.now).answerFound c.cmd)
        else (g.keepLost, g.keepLost.answerLost c.cmd c.now)).1 =
        { g.keepLost with lastFoundTime := if c.found then c.now else g.lastFoundTime } := by
      by_cases hfound : c.found = true
      · have hcontrol : ¬ c.cmd.control = true := by simpa [Call.aimed, hfound] using haimed
        rw [if_pos hfound, if_pos hfound]
        unfold AimGuard.keepFound
        rw [if_neg hcontrol]
        rfl
      · rw [if_neg hfound, if_neg hfound]
        rfl
    rw [hlost]
    refine ⟨hparams, ?_, ?_, ?_⟩
    · simp only [lastValid, if_neg hvalid]
      exact hcommand
    · simp only [streak, if_neg haimed]
      rfl
    · simp [streak, haimed, AimGuard.keepLost]

/-- **Every call keeps what the calls so far say.** -/
theorem kept_step {p : Params} (q : AimGuard × List Call) (c : Call) (r : AimGuard × List Call)
    (es : List (Command Fp)) (h : Kept p q) (hst : guarded.step q c = some (r, es)) : Kept p r := by
  obtain ⟨hstep, hrec⟩ := Machine.ghost_step.1 hst
  simp only [aimGuard, Option.some.injEq, Prod.mk.injEq] at hstep
  obtain ⟨t, cs⟩ := r
  simp only at hstep hrec
  rw [← hstep.1, hrec]
  exact kept_process h c

/-! ## Steering -/

/-- The answer steers, if it does, to angles that are numbers and those of an aimed command passed in so far. -/
def Steered (q : AimGuard × List Call) (c : Call) : Prop :=
  (q.1.process c).2.control = true → (q.1.process c).2.isFinite = true ∧
    AimedAt ((c :: q.2).map Call.cmd) (q.1.process c).2.yaw (q.1.process c).2.pitch

def FallsBack (g : AimGuard) (c : Call) : Prop :=
  c.found = true ∧ c.cmd.isFinite = false ∨
    c.found = false ∧ g.consecutiveLostFrames + 1 ≤ g.p.maxLostFrames ∧
      (c.now - g.lastFoundTime).tdiv 1000000 ≤ g.p.holdMs

/-- A call that is found passes angles of an aimed command, if they are numbers; and one that falls back has a valid
command to fall back on, or `(0, 0)` are angles of an aimed command. -/
def SteersRight (q : AimGuard × List Call) (c : Call) : Prop :=
  (c.found = true → c.cmd.isFinite = true → AimedAt ((c :: q.2).map Call.cmd) c.cmd.yaw c.cmd.pitch) ∧
    (FallsBack q.1 c → (∀ d ∈ q.2, d.valid = false) → AimedAt ((c :: q.2).map Call.cmd) 0 0)

theorem answerFound_of_finite (g : AimGuard) {cmd : Command Fp} (h : cmd.isFinite = true) :
    (g.answerFound cmd).control = true ∧ (g.answerFound cmd).yaw = cmd.yaw ∧ (g.answerFound cmd).pitch = cmd.pitch := by
  unfold AimGuard.answerFound
  simp only [not_isFinite_eq, h]
  split <;> exact ⟨rfl, rfl, rfl⟩

theorem answerFound_of_not_finite (g : AimGuard) {cmd : Command Fp} (h : cmd.isFinite = false) :
    (g.answerFound cmd).control = true ∧ (g.answerFound cmd).yaw = g.lastValidCommand.yaw ∧
      (g.answerFound cmd).pitch = g.lastValidCommand.pitch := by
  unfold AimGuard.answerFound
  simp only [not_isFinite_eq, h]
  split <;> exact ⟨rfl, rfl, rfl⟩

theorem keepFound_lastValidCommand (g : AimGuard) {cmd : Command Fp} (h : cmd.isFinite = false) (now : Int) :
    (g.keepFound cmd now).lastValidCommand = g.lastValidCommand := by
  by_cases hcontrol : cmd.control = true
  · simp [keepFound_of_control g hcontrol, h]
  · simp [AimGuard.keepFound, hcontrol]

theorem answerLost_cases (g : AimGuard) (cmd : Command Fp) (now : Int) :
    ((g.consecutiveLostFrames ≤ g.p.maxLostFrames ∧ (now - g.lastFoundTime).tdiv 1000000 ≤ g.p.holdMs) ∧
        (g.answerLost cmd now).control = true ∧ (g.answerLost cmd now).yaw = g.lastValidCommand.yaw ∧
        (g.answerLost cmd now).pitch = g.lastValidCommand.pitch) ∨
      (¬ (g.consecutiveLostFrames ≤ g.p.maxLostFrames ∧ (now - g.lastFoundTime).tdiv 1000000 ≤ g.p.holdMs) ∧
        (g.answerLost cmd now).control = false) := by
  unfold AimGuard.answerLost
  by_cases htime : (now - g.lastFoundTime).tdiv 1000000 > g.p.holdMs
  · exact .inr ⟨fun h => absurd h.2 (Int.not_le.2 htime), by simp [htime]⟩
  · by_cases hlost : g.consecutiveLostFrames ≤ g.p.maxLostFrames
    · exact .inl ⟨⟨hlost, Int.not_lt.1 htime⟩, by simp [htime, hlost]⟩
    · exact .inr ⟨fun h => hlost h.1, by simp [htime, hlost]⟩

/-- What the answer steers to: the angles passed in, those of the last valid command, or nothing. -/
theorem process_cases (g : AimGuard) (c : Call) :
    (c.found = true ∧ c.cmd.isFinite = true ∧ (g.process c).2.control = true ∧
        (g.process c).2.yaw = c.cmd.yaw ∧ (g.process c).2.pitch = c.cmd.pitch) ∨
      (FallsBack g c ∧ (g.process c).2.control = true ∧
        (g.process c).2.yaw = g.lastValidCommand.yaw ∧ (g.process c).2.pitch = g.lastValidCommand.pitch) ∨
      (c.found = false ∧ ¬ FallsBack g c ∧ (g.process c).2.control = false) := by
  unfold AimGuard.process
  by_cases hfound : c.found = true
  · rw [if_pos hfound]
    by_cases hfin : c.cmd.isFinite = true
    · exact .inl ⟨hfound, hfin, answerFound_of_finite _ hfin⟩
    · have hfin : c.cmd.isFinite = false := by simpa using hfin
      have hanswer := answerFound_of_not_finite (g.keepFound c.cmd c.now) hfin
      rw [keepFound_lastValidCommand g hfin] at hanswer
      exact .inr (.inl ⟨.inl ⟨hfound, hfin⟩, hanswer⟩)
  · have hfound' : c.found = false := by simpa using hfound
    rw [if_neg hfound]
    rcases answerLost_cases g.keepLost c.cmd c.now with ⟨hholds, hanswer⟩ | ⟨hover, hctl⟩
    · exact .inr (.inl ⟨.inr ⟨hfound', hholds⟩, hanswer⟩)
    · refine .inr (.inr ⟨hfound', ?_, hctl⟩)
      rintro (⟨h, -⟩ | ⟨-, h⟩)
      · exact hfound h
      · exact hover h

theorem steered_iff_of_kept {p : Params} {q : AimGuard × List Call} (h : Kept p q) (c : Call) :
    Steered q c ↔ SteersRight q c := by
  unfold Steered SteersRight
  rcases process_cases q.1 c with ⟨hfound, hfin, hctl, hyaw, hpitch⟩ | ⟨hback, hctl, hyaw, hpitch⟩ |
    ⟨hfound, hback, hctl⟩
  · have hback : ¬ FallsBack q.1 c := by
      rintro (⟨-, h⟩ | ⟨h, -⟩)
      · rw [hfin] at h
        cases h
      · rw [hfound] at h
        cases h
    have hout : (q.1.process c).2.isFinite = true := by rw [Command.isFinite, hyaw, hpitch]; exact hfin
    rw [hout, hyaw, hpitch]
    exact ⟨fun hs => ⟨fun _ _ => (hs hctl).2, fun hb => absurd hb hback⟩, fun hs _ => ⟨rfl, hs.1 hfound hfin⟩⟩
  · have hnot : c.found = true → ¬ c.cmd.isFinite = true := by
      rcases hback with ⟨-, hb⟩ | ⟨hb, -⟩
      · exact fun _ hf => by rw [hb] at hf; cases hf
      · exact fun hf => by rw [hb] at hf; cases hf
    have hout : (q.1.process c).2.isFinite = q.1.lastValidCommand.isFinite := by
      rw [Command.isFinite, hyaw, hpitch]
      rfl
    rw [hout, hyaw, hpitch, h.command]
    cases hlast : lastValid q.2 with
    | none =>
      have hnone := lastValid_eq_none.1 hlast
      exact ⟨fun hs => ⟨fun hf hn => absurd hn (hnot hf), fun _ _ => (hs hctl).2⟩,
        fun hs _ => ⟨rfl, hs.2 hback hnone⟩⟩
    | some v =>
      obtain ⟨d, hd, hvalid, rfl⟩ := lastValid_eq_some hlast
      have hparts : (d.found = true ∧ d.cmd.control = true) ∧ d.cmd.isFinite = true := by
        simpa [Call.valid, Call.aimed] using hvalid
      refine iff_of_true (fun _ => ⟨hparts.2, ?_⟩) ⟨fun hf hn => absurd hn (hnot hf), fun _ hno => ?_⟩
      · exact ⟨d.cmd, List.mem_map_of_mem (List.mem_cons_of_mem c hd), hparts.1.2, rfl, rfl⟩
      · rw [hno d hd] at hvalid
        cases hvalid
  · refine iff_of_true (fun hs => ?_) ⟨fun hf => ?_, fun hb => absurd hb hback⟩
    · rw [hctl] at hs
      cases hs
    · rw [hfound] at hf
      cases hf

/-- **Over every run of calls the guard steers to aimed points only, iff each call steers right.** -/
theorem guard_steers_iff (p : Params) (now : Int) (cs : List Call) :
    guarded.Along Steered (AimGuard.init p now, []) cs ↔ guarded.Along SteersRight (AimGuard.init p now, []) cs :=
  Machine.along_iff (fun _ c h => steered_iff_of_kept h c) (fun q c r es h _ hst => kept_step q c r es h hst)
    (kept_init p now)

/-- **A target that is found but not aimed at is steered to.** -/
theorem unaimed_command_steers :
    ¬ guarded.Along Steered (AimGuard.init {} 0, []) [⟨true, ⟨false, false, .fin 1, .fin 0, .fin 0⟩, 0⟩] := by
  intro h
  obtain ⟨-, d, hd, hctl, -⟩ := h.1 rfl
  simp only [List.map_cons, List.map_nil, List.mem_singleton] at hd
  rw [hd] at hctl
  cases hctl

/-! ## Firing -/

/-- The yaw is within `stable_yaw_deg` degrees of the command's. -/
def Near (p : Params) (yaw : Fp) (v : Command Fp) : Prop :=
  ((yaw.sub v.yaw).abs.scale (573 / 10)).lt p.stableYawDeg = true

/-- The present command may be fired on: its angles are numbers, close to those of the last valid command before. -/
def OnTarget (p : Params) (cs : List Call) (c : Call) : Prop :=
  c.cmd.isFinite = true ∧ ∃ v, lastValid cs = some v ∧ Near p c.cmd.yaw v

/-- The answer fires, if it does, on a stable aim. -/
def Stable (p : Params) (q : AimGuard × List Call) (c : Call) : Prop :=
  (q.1.process c).2.shoot = true → p.enableStableFire = true ∧ c.cmd.control = true ∧
    p.stableNeedFrames ≤ streak (c :: q.2) ∧ OnTarget p q.2 c

/-- An aimed call that completes the frames needed, with fire enabled and some tolerance, is on target. -/
def FiresRight (p : Params) (q : AimGuard × List Call) (c : Call) : Prop :=
  p.enableStableFire = true → c.aimed = true → p.stableNeedFrames ≤ streak (c :: q.2) →
    (Fp.fin 0).lt p.stableYawDeg = true → OnTarget p q.2 c

theorem isFinite_of_kept {p : Params} {q : AimGuard × List Call} (h : Kept p q) :
    q.1.lastValidCommand.isFinite = true := by
  rw [h.command]
  cases hlast : lastValid q.2 with
  | none => rfl
  | some v =>
    obtain ⟨d, -, hvalid, rfl⟩ := lastValid_eq_some hlast
    exact (Bool.and_eq_true_iff.1 hvalid).2

/-- The yaw is compared with itself: the last valid command is the present one, or takes its place. -/
theorem answerFound_shoot {g : AimGuard} (hg : g.lastValidCommand.isFinite = true) {cmd : Command Fp}
    (h : cmd.isFinite = true → g.lastValidCommand = cmd) :
    (g.answerFound cmd).shoot = (g.p.enableStableFire && g.targetStable && (Fp.fin 0).lt g.p.stableYawDeg) := by
  have hself : (g.lastValidCommand.yaw.sub g.lastValidCommand.yaw).abs.scale (573 / 10) = .fin 0 := by
    rw [Fp.abs_sub_self (Bool.and_eq_true_iff.1 hg).1, Fp.scale_zero]
  unfold AimGuard.answerFound
  by_cases hfire : (g.p.enableStableFire && g.targetStable) = true
  · rw [if_pos hfire, hfire, Bool.true_and]
    by_cases hfin : cmd.isFinite = true
    · rw [h hfin] at hself
      simp [not_isFinite_eq, hfin, h hfin, hself]
    · simp [not_isFinite_eq, hfin, hself]
  · rw [if_neg hfire]
    simp [Bool.eq_false_iff.2 hfire]

/-- **The guard fires on every aimed call that completes the frames needed**, wherever the command points. -/
theorem shoot_iff {p : Params} {q : AimGuard × List Call} (h : Kept p q) (c : Call) :
    (q.1.process c).2.shoot = true ↔ p.enableStableFire = true ∧ c.aimed = true ∧
      p.stableNeedFrames ≤ streak (c :: q.2) ∧ (Fp.fin 0).lt p.stableYawDeg = true := by
  have hnext : Kept p ((q.1.process c).1, c :: q.2) := kept_process h c
  unfold AimGuard.process at hnext ⊢
  by_cases hfound : c.found = true
  · rw [if_pos hfound] at hnext ⊢
    have hlast : c.cmd.isFinite = true → (q.1.keepFound c.cmd c.now).lastValidCommand = c.cmd ∨ c.aimed = false := by
      intro hfin
      by_cases hcontrol : c.cmd.control = true
      · exact .inl (by simp [keepFound_of_control q.1 hcontrol, hfin])
      · exact .inr (by simp [Call.aimed, hcontrol])
    by_cases haimed : c.aimed = true
    · have hown := fun hfin => (hlast hfin).resolve_right (by rw [haimed]; simp)
      have hpos : 0 < streak (c :: q.2) := by simp [streak, haimed]
      have hp : (q.1.keepFound c.cmd c.now).p = p := hnext.params
      simp only [answerFound_shoot (isFinite_of_kept hnext) hown, hp, Bool.and_eq_true, hnext.stable, haimed, hpos,
        true_and, and_assoc]
    · refine iff_of_false ?_ fun hr => haimed hr.2.1
      have hstable : (q.1.keepFound c.cmd c.now).targetStable = false := by
        have hnot : ¬ 0 < streak (c :: q.2) := by simp [streak, haimed]
        exact Bool.eq_false_iff.2 fun ht => hnot (hnext.stable.1 ht).1
      simp [AimGuard.answerFound, hstable]
  · rw [if_neg hfound]
    refine iff_of_false ?_ fun hr => hfound (Bool.and_eq_true_iff.1 hr.2.1).1
    simp only [AimGuard.answerLost]
    split
    · simp
    · split <;> simp

/-- **Over every run of calls the guard fires on a stable aim only, iff each call fires right.** -/
theorem guard_fires_iff (p : Params) (now : Int) (cs : List Call) :
    guarded.Along (Stable p) (AimGuard.init p now, []) cs ↔ guarded.Along (FiresRight p) (AimGuard.init p now, []) cs := by
  refine Machine.along_iff (fun q c h => ?_) (fun q c r es h _ hst => kept_step q c r es h hst) (kept_init p now)
  unfold Stable FiresRight
  rw [shoot_iff h]
  constructor
  · exact fun hs he ha hn hd => (hs ⟨he, ha, hn, hd⟩).2.2.2
  · rintro hf ⟨he, ha, hn, hd⟩
    exact ⟨he, (Bool.and_eq_true_iff.1 ha).2, hn, hf he ha hn hd⟩

/-- **On the third aimed frame in a row the guard fires, though the yaw has jumped by a radian.** -/
theorem jump_fires :
    ¬ guarded.Along (Stable {}) (AimGuard.init {} 0, [])
      [⟨true, ⟨true, false, .fin 0, .fin 0, .fin 0⟩, 0⟩, ⟨true, ⟨true, false, .fin 0, .fin 0, .fin 0⟩, 0⟩,
        ⟨true, ⟨true, false, .fin 1, .fin 0, .fin 0⟩, 0⟩] := by
  intro h
  have hthird := ((h.2 _ _ rfl).2 _ _ rfl).1 (by decide +kernel)
  obtain ⟨-, v, hv, hnear⟩ := hthird.2.2.2
  cases hv
  revert hnear
  unfold Near
  decide +kernel

end Vision
end LfSentry
