import LfSentry.RefereeHealth
import LfSentry.Marks
/-!
# RefereeAward — the award of every half minute

A tick of a running game gives both sides 50 when the game time modulo 30 s is under half a second.  The ticks come about
every half second, so the window behind a boundary can hold two of them or none: a boundary is awarded once iff the
first tick at or after it comes within the half second and the next one does not (`awardedOnce_iff`).  `last_time`,
which is set with each award, is never read.
-/
namespace LfSentry
namespace Referee

/-- A tick of a running game: the two game times it compares and what it adds to the resources. -/
structure Tick where
  time : ℚ
  again : ℚ
  red : Int
  blue : Int
deriving DecidableEq

def inPlay (s : System) : Input → Bool
  | .timer _ _ _ => s.timer.running && !s.gameOver
  | _ => false

def noteTick (log : List Tick) (s : System) (i : Input) (r : System × List Event) : List Tick :=
  match i with
  | .timer now₁ now₂ now₃ =>
    if inPlay s (.timer now₁ now₂ now₃) then
      log ++ [⟨s.timer.getTime now₁, s.timer.getTime now₂, r.1.redResources - s.redResources,
        r.1.blueResources - s.blueResources⟩]
    else log
  | _ => log

def ticked (parseFloat : String → Option Fp) : Machine (System × List Tick) Input Event :=
  (referee parseFloat).ghost noteTick

/-- The game times of consecutive ticks are 0.4 s to 0.6 s apart, and the readings of one tick in order and within that
time. -/
structure Jittered (log : List Tick) : Prop where
  gaps : (log.map Tick.time).IsChain fun t next => t + 2 / 5 ≤ next ∧ next ≤ t + 3 / 5
  readings : ∀ t ∈ log, t.time ≤ t.again ∧ t.again ≤ t.time + 3 / 5

instance (log : List Tick) : Decidable (Jittered log) :=
  decidable_of_iff (((log.map Tick.time).IsChain fun t next => t + 2 / 5 ≤ next ∧ next ≤ t + 3 / 5) ∧
    ∀ t ∈ log, t.time ≤ t.again ∧ t.again ≤ t.time + 3 / 5) ⟨fun h => ⟨h.1, h.2⟩, fun h => ⟨h.gaps, h.readings⟩⟩

def boundary (k : ℤ) : ℚ := 30 * k

/-- How many ticks added something from the boundary to the next. -/
def awards (k : ℤ) (log : List Tick) : Nat :=
  log.countP fun t => decide (⌊t.time / 30⌋ = k) && decide ((t.red, t.blue) ≠ (0, 0))

/-- The step is a tick of the running game, or adds nothing. -/
def AddsNothingElse (parseFloat : String → Option Fp) (p : System × List Tick) (i : Input) : Prop :=
  inPlay p.1 i = false → ∀ q es, (ticked parseFloat).step p i = some (q, es) →
    q.1.redResources = p.1.redResources ∧ q.1.blueResources = p.1.blueResources

/-- Every boundary is awarded once when it has been passed by more than a period, and nothing else is added. -/
structure AwardedOnce (parseFloat : String → Option Fp) (p : System × List Tick) (is : List Input) (log : List Tick) :
    Prop where
  once : ∀ k, 1 ≤ k → awards k log ≤ 1 ∧ ((∃ t ∈ log, boundary k + 1 / 2 < t.time) → awards k log = 1)
  never : ∀ k, k ≤ 0 → awards k log = 0
  amount : ∀ t ∈ log, (t.red, t.blue) = (0, 0) ∨ (t.red, t.blue) = (50, 50)
  otherwise : (ticked parseFloat).Along (AddsNothingElse parseFloat) p is

variable {parseFloat : String → Option Fp}

theorem ticked_step {p q : System × List Tick} {i : Input} {es : List Event} :
    (ticked parseFloat).step p i = some (q, es) ↔
      p.1.dead = false ∧ callback parseFloat p.1 i = (q.1, es) ∧ q.2 = noteTick p.2 p.1 i (q.1, es) := by
  refine Machine.ghost_step.trans ?_
  rw [referee_step, and_assoc]

/-! ## What a tick adds -/

/-- The comparison of the award. -/
def Due (t : Tick) : Prop := pyMod t.time 30 < 1 / 2 ∧ t.again > 29

instance (t : Tick) : Decidable (Due t) := inferInstanceAs (Decidable (_ ∧ _))

def Tick.Paid (t : Tick) : Prop := (t.red, t.blue) = if Due t then (50, 50) else (0, 0)

theorem funds_timer_of_play {s : System} (h : s.gameOver = false) (now₁ now₂ now₃ : ℚ) :
    (timerCb s now₁ now₂ now₃).1.funds = (award s now₁ now₂ now₃).funds := by
  rw [timerCb_of_play h]
  rfl

theorem funds_award (s : System) (now₁ now₂ now₃ : ℚ) :
    (award s now₁ now₂ now₃).funds =
      if pyMod (s.timer.getTime now₁) 30 < 1 / 2 ∧ s.timer.getTime now₂ > 29 then
        (s.params, s.redResources + 50, s.blueResources + 50)
      else s.funds := by
  unfold award
  split <;> rfl

/-- **A tick of the running game adds the award if it is due, and nothing if not.** -/
theorem paid_tick {s : System} (h : s.gameOver = false) (now₁ now₂ now₃ : ℚ) :
    Tick.Paid ⟨s.timer.getTime now₁, s.timer.getTime now₂, (timerCb s now₁ now₂ now₃).1.redResources - s.redResources,
      (timerCb s now₁ now₂ now₃).1.blueResources - s.blueResources⟩ := by
  have hfunds := (funds_timer_of_play h now₁ now₂ now₃).trans (funds_award s now₁ now₂ now₃)
  have hred : (timerCb s now₁ now₂ now₃).1.redResources = _ := congrArg (fun f => f.2.1) hfunds
  have hblue : (timerCb s now₁ now₂ now₃).1.blueResources = _ := congrArg (fun f => f.2.2) hfunds
  unfold Tick.Paid Due
  rw [hred, hblue]
  split
  · simp
  · simp [System.funds]

theorem paid_step {p q : System × List Tick} {i : Input} {es : List Event} (hp : ∀ t ∈ p.2, t.Paid)
    (hst : (ticked parseFloat).step p i = some (q, es)) : ∀ t ∈ q.2, t.Paid := by
  obtain ⟨-, hcall, hlog⟩ := ticked_step.1 hst
  rw [hlog]
  cases i with
  | timer now₁ now₂ now₃ =>
    simp only [noteTick]
    split
    · rename_i hplay
      have hover : p.1.gameOver = false := by
        simp only [inPlay, Bool.and_eq_true, Bool.not_eq_true'] at hplay
        exact hplay.2
      obtain hq : (timerCb p.1 now₁ now₂ now₃).1 = q.1 := congrArg Prod.fst hcall
      intro t ht
      rcases List.mem_append.1 ht with ht | ht
      · exact hp t ht
      · obtain rfl := List.mem_singleton.1 ht
        rw [← hq]
        exact paid_tick hover now₁ now₂ now₃
    · exact hp
  | _ => exact hp

/-! ## What else adds -/

/-- A timer that stands while the game is on stands at zero. -/
def Idle (s : System) : Prop := s.timer.running = false → s.gameOver = false → s.timer.elapsedTime = 0

theorem idle_of_rest {s t : System} (h : t.rest = s.rest) (hs : Idle s) : Idle t := by
  show Idle t.rest
  rw [h]
  exact hs

theorem idle_settle {s : System} (hs : Idle s) (es : List Event) (e : Option PyError) : Idle (settle s es e).1 := by
  cases e <;> exact hs

theorem award_timer (s : System) (now₁ now₂ now₃ : ℚ) : (award s now₁ now₂ now₃).timer = s.timer := by
  unfold award
  split <;> rfl

theorem timer_timerCb (s : System) (now₁ now₂ now₃ : ℚ) : (timerCb s now₁ now₂ now₃).1.timer = s.timer := by
  cases hover : s.gameOver with
  | true => simp only [timerCb, hover, if_true]
  | false =>
    rw [timerCb_of_play hover]
    exact award_timer s now₁ now₂ now₃

theorem idle_timer {s : System} (hs : Idle s) (now₁ now₂ now₃ : ℚ) : Idle (timerCb s now₁ now₂ now₃).1 := by
  cases hover : s.gameOver with
  | true =>
    have hsame : timerCb s now₁ now₂ now₃ = (s, []) := by simp only [timerCb, hover, if_true]
    rw [hsame]
    exact hs
  | false =>
    intro hrun _
    rw [timer_timerCb] at hrun ⊢
    exact hs hrun hover

theorem rest_known {s : System} {name : String} {f : StandardRobot → StandardRobot} (es : List Event) :
    (if s.knows name then (s.onRobot name f, es, (none : Option PyError)) else (s, [], none)).1.rest = s.rest := by
  split <;> rfl

theorem idle_cmd {s : System} (hs : Idle s) (robotName : String) (now : ℚ) :
    ∀ cmd, Idle (refereeCmdCallback s cmd robotName now).1
  | 0 => fun _ h => nomatch h
  | 1 => fun _ _ => rfl
  | 2 => by
    intro hrun
    have hstart : (s.timer.start now).running = true := by
      unfold GameTimer.start
      split
      · assumption
      · rfl
    exact absurd (hstart.symm.trans hrun) (by decide)
  | 3 => fun _ h => nomatch h
  | 4 => idle_of_rest (rest_known [.enablePower robotName false]) hs
  | 5 => idle_of_rest (rest_known [.enablePower robotName true]) hs
  | _ + 6 => hs

theorem idle_callback {s : System} (hs : Idle s) (i : Input) : Idle (callback parseFloat s i).1 := by
  cases i with
  | exchange robotName ammoAmount => exact idle_of_rest (rest_exchange s robotName ammoAmount) hs
  | attackInfo data => exact idle_of_rest (rest_attackInfo s data) hs
  | shootInfo data => exact idle_settle (idle_of_rest (rest_shootInfo parseFloat s data) hs) _ _
  | poseInfo transforms => exact idle_of_rest (rest_poseInfo transforms s) hs
  | timer now₁ now₂ now₃ => exact idle_timer hs now₁ now₂ now₃
  | cmd cmd robotName now => exact idle_settle (idle_cmd hs robotName now cmd) _ _

theorem funds_timer_out_of_play {s : System} (hs : Idle s) {now₁ now₂ now₃ : ℚ}
    (h : inPlay s (.timer now₁ now₂ now₃) = false) : (timerCb s now₁ now₂ now₃).1.funds = s.funds := by
  cases hover : s.gameOver with
  | true => simp only [timerCb, hover, if_true]
  | false =>
    have hrun : s.timer.running = false := by
      simp only [inPlay, hover, Bool.not_false, Bool.and_true] at h
      exact h
    have htime : s.timer.getTime now₂ = 0 := by
      unfold GameTimer.getTime
      rw [dif_neg (by rw [hrun]; decide)]
      exact hs hrun hover
    rw [funds_timer_of_play hover, funds_award, if_neg]
    rintro ⟨-, hlate⟩
    rw [htime] at hlate
    exact absurd hlate (by decide)

/-- **Nothing but a tick of the running game adds to the resources**, but for the command that resets them. -/
theorem addsNothingElse_of_idle {p : System × List Tick} (hp : Idle p.1) {i : Input}
    (hno : ∀ robotName now, i ≠ .cmd RefereeCmd.selfChecking robotName now) : AddsNothingElse parseFloat p i := by
  intro hplay q es hst
  have hq : (callback parseFloat p.1 i).1 = q.1 := congrArg Prod.fst (ticked_step.1 hst).2.1
  have hfunds : q.1.funds = p.1.funds := by
    rw [← hq]
    cases i with
    | exchange robotName ammoAmount => exact funds_of_rest (rest_exchange p.1 robotName ammoAmount)
    | attackInfo data => exact funds_of_rest (rest_attackInfo p.1 data)
    | shootInfo data => exact (funds_settle _ _ _).trans (funds_of_rest (rest_shootInfo parseFloat p.1 data))
    | poseInfo transforms => exact funds_of_rest (rest_poseInfo transforms p.1)
    | timer now₁ now₂ now₃ => exact funds_timer_out_of_play hp hplay
    | cmd cmd robotName now =>
      have hcmd : cmd ≠ RefereeCmd.selfChecking := fun h => hno robotName now (by rw [h])
      refine (funds_settle _ _ _).trans ((funds_cmd p.1 cmd robotName now).trans ?_)
      rw [if_neg hcmd]
  exact ⟨resources_of_funds hfunds .red, resources_of_funds hfunds .blue⟩

/-! ## Awards and marks -/

theorem pyMod_of_floor {time : ℚ} {k : ℤ} (h : ⌊time / 30⌋ = k) : pyMod time 30 = time - boundary k := by
  rw [pyMod, h, boundary]

theorem floor_eq_of_window {time : ℚ} {k : ℤ} (h : boundary k ≤ time) (hlt : time < boundary k + 1 / 2) :
    ⌊time / 30⌋ = k := by
  unfold boundary at h hlt
  rw [Int.floor_eq_iff]
  constructor <;> linarith

theorem boundary_le_of_floor {time : ℚ} {k : ℤ} (h : ⌊time / 30⌋ = k) : boundary k ≤ time := by
  have hle : (k : ℚ) ≤ time / 30 := Int.floor_eq_iff.1 h |>.1
  unfold boundary
  linarith

theorem paid_ne_zero {t : Tick} (h : t.Paid) : (t.red, t.blue) ≠ (0, 0) ↔ Due t := by
  rw [h]
  split
  · rename_i hdue
    exact iff_of_true (by decide) hdue
  · rename_i hdue
    exact iff_of_false (fun hne => hne rfl) hdue

/-- A tick is awarded to a boundary iff it falls within the half second behind it. -/
theorem awarded_iff {t : Tick} (h : t.Paid) (hread : t.time ≤ t.again) {k : ℤ} (hk : 1 ≤ k) :
    ⌊t.time / 30⌋ = k ∧ (t.red, t.blue) ≠ (0, 0) ↔ boundary k ≤ t.time ∧ t.time < boundary k + 1 / 2 := by
  rw [paid_ne_zero h]
  constructor
  · rintro ⟨hfloor, hmod, -⟩
    rw [pyMod_of_floor hfloor] at hmod
    exact ⟨boundary_le_of_floor hfloor, by linarith⟩
  · rintro ⟨hle, hlt⟩
    have hfloor := floor_eq_of_window hle hlt
    have hthirty : (30 : ℚ) ≤ boundary k := by
      have : (1 : ℚ) ≤ k := by exact_mod_cast hk
      unfold boundary
      linarith
    refine ⟨hfloor, ?_, by linarith⟩
    rw [pyMod_of_floor hfloor]
    linarith

theorem awards_eq_within {log : List Tick} (hpaid : ∀ t ∈ log, t.Paid) (hread : ∀ t ∈ log, t.time ≤ t.again) {k : ℤ}
    (hk : 1 ≤ k) : awards k log = Marks.within (boundary k) (boundary k + 1 / 2) (log.map Tick.time) := by
  rw [awards, Marks.within, List.countP_map]
  refine List.countP_congr fun t ht => ?_
  have h := awarded_iff (hpaid t ht) (hread t ht) hk
  simpa only [Bool.and_eq_true, decide_eq_true_eq, Function.comp_apply] using h

/-- Before the first boundary the second reading is too early. -/
theorem awards_eq_zero {log : List Tick} (hpaid : ∀ t ∈ log, t.Paid) (hj : Jittered log) {k : ℤ} (hk : k ≤ 0) :
    awards k log = 0 := by
  refine List.countP_eq_zero.2 fun t ht => ?_
  simp only [Bool.and_eq_true, decide_eq_true_eq, not_and]
  intro hfloor hne
  obtain ⟨hmod, hlate⟩ := (paid_ne_zero (hpaid t ht)).1 hne
  have hclose := (hj.readings t ht).2
  rw [pyMod_of_floor hfloor] at hmod
  have hzero : boundary k ≤ 0 := by
    have : (k : ℚ) ≤ 0 := by exact_mod_cast hk
    unfold boundary
    linarith
  linarith

theorem increasing_of_jittered {log : List Tick} (hj : Jittered log) : (log.map Tick.time).Pairwise (· < ·) := by
  refine List.isChain_iff_pairwise.1 (hj.gaps.imp fun t next h => ?_)
  linarith [h.1]

/-! ## A game in which nobody dies -/

structure Steady (s : System) : Prop where
  alive : s.dead = false
  playing : s.gameOver = false
  running : s.timer.running = true
  health : ∀ p ∈ s.robots, p.2.remainHp ≠ 0
  sides : sideSurvives s "red" = true ∧ sideSurvives s "blue" = true

theorem checkSurvive_of_health {s : System} (h : ∀ p ∈ s.robots, p.2.remainHp ≠ 0) : (checkSurvive s).1 = s := by
  have hsame : (s.robots.map fun p => if (p.2.survive && p.2.remainHp == 0) = true then
      (p.1, { p.2 with survive := false }) else p) = s.robots := by
    refine (List.map_congr_left fun p hp => if_neg ?_).trans (List.map_id' s.robots)
    simp [h p hp]
  simp only [checkSurvive, hsame]

theorem steady_tick {s : System} (hs : Steady s) (now₁ now₂ now₃ : ℚ) :
    Steady (timerCb s now₁ now₂ now₃).1 ∧ (timerCb s now₁ now₂ now₃).1.timer = s.timer := by
  have hrobots := award_robots s now₁ now₂ now₃
  have htimer := award_timer s now₁ now₂ now₃
  have hdead : (award s now₁ now₂ now₃).dead = s.dead := by
    unfold award
    split <;> rfl
  have hside : ∀ side, sideSurvives (award s now₁ now₂ now₃) side = sideSurvives s side := fun side => by
    rw [sideSurvives, sideSurvives, hrobots]
  have hsame : (checkSurvive (award s now₁ now₂ now₃)).1 = award s now₁ now₂ now₃ :=
    checkSurvive_of_health (hrobots ▸ hs.health)
  rw [timerCb_of_play hs.playing, hsame, hside, hside, hs.sides.1, hs.sides.2]
  refine ⟨⟨hdead.trans hs.alive, rfl, htimer ▸ hs.running, hrobots ▸ hs.health, ?_⟩, htimer⟩
  exact ⟨(hside "red").trans hs.sides.1, (hside "blue").trans hs.sides.2⟩

/-- **While nobody dies every tick is logged with its readings.** -/
theorem run_ticks : ∀ (nows : List ℚ) {s : System} {log : List Tick}, Steady s → (∀ t ∈ log, t.again = t.time) →
    ∃ q o, (ticked parseFloat).run (s, log) (nows.map fun now => .timer now now now) = some (q, o) ∧
      q.2.map Tick.time = log.map Tick.time ++ nows.map s.timer.getTime ∧ ∀ t ∈ q.2, t.again = t.time
  | [], s, log, _, hlog => ⟨(s, log), [], rfl, (List.append_nil _).symm, hlog⟩
  | now :: nows, s, log, hs, hlog => by
    obtain ⟨ht, htimer⟩ := steady_tick hs now now now
    let tick : Tick := ⟨s.timer.getTime now, s.timer.getTime now, (timerCb s now now now).1.redResources - s.redResources,
      (timerCb s now now now).1.blueResources - s.blueResources⟩
    have hnote : noteTick log s (.timer now now now) (timerCb s now now now) = log ++ [tick] := by
      simp [noteTick, inPlay, hs.running, hs.playing, tick]
    have hst : (ticked parseFloat).step (s, log) (.timer now now now) =
        some (((timerCb s now now now).1, log ++ [tick]), (timerCb s now now now).2) :=
      ticked_step.2 ⟨hs.alive, rfl, hnote.symm⟩
    have hlog' : ∀ t ∈ log ++ [tick], t.again = t.time := by
      intro t hmem
      rcases List.mem_append.1 hmem with hold | hnew
      · exact hlog t hold
      · rw [List.mem_singleton.1 hnew]
    obtain ⟨q, o, hr, htimes, hagain⟩ := run_ticks nows ht hlog'
    refine ⟨q, _, Machine.run_cons.2 ⟨_, _, _, hst, hr, rfl⟩, ?_, hagain⟩
    rw [htimes, htimer, List.map_append, List.append_assoc]
    rfl

/-- A game from its start on, with ticks at these times. -/
def gameOf (nows : List ℚ) : List Input :=
  .cmd RefereeCmd.startGame "" 0 :: nows.map fun now => .timer now now now

theorem run_gameOf (nows : List ℚ) : ∃ q o, (ticked fun _ => none).run (System.init ⟨500, 100, 200⟩, []) (gameOf nows) =
    some (q, o) ∧ q.2.map Tick.time = nows ∧ ∀ t ∈ q.2, t.again = t.time := by
  let started : System := (refereeCmdCallback (System.init ⟨500, 100, 200⟩) RefereeCmd.startGame "" 0).1
  have hstart : (ticked fun _ => none).step (System.init ⟨500, 100, 200⟩, []) (.cmd RefereeCmd.startGame "" 0) =
      some ((started, []), _) := rfl
  have hsteady : Steady started := ⟨rfl, rfl, rfl, by decide, by decide⟩
  have htime : ∀ now, started.timer.getTime now = now := fun now => by
    show now - (0 - 0) = now
    ring
  obtain ⟨q, o, hticks, htimes, hagain⟩ := @run_ticks (fun _ => none) nows _ [] hsteady (List.forall_mem_nil _)
  rw [funext htime, List.map_nil, List.nil_append, List.map_id'] at htimes
  exact ⟨q, _, Machine.run_cons.2 ⟨_, _, _, hstart, hticks, rfl⟩, htimes, hagain⟩

theorem jittered_of_times {log : List Tick} (hagain : ∀ t ∈ log, t.again = t.time)
    (hgaps : (log.map Tick.time).IsChain fun t next => t + 2 / 5 ≤ next ∧ next ≤ t + 3 / 5) : Jittered log := by
  refine ⟨hgaps, fun t ht => ?_⟩
  rw [hagain t ht]
  constructor <;> linarith

/-! ## Awards on the mark -/

/-- **Every boundary is awarded exactly once iff at every boundary the first tick at or after it comes within half a
second and the next one does not.** -/
theorem awardedOnce_iff (parseFloat : String → Option Fp) {s : System} (hfresh : s.timer = GameTimer.init)
    {is : List Input} (hno : ∀ i ∈ is, ∀ robotName now, i ≠ .cmd RefereeCmd.selfChecking robotName now)
    {q : System × List Tick} {o : List Event} (hr : (ticked parseFloat).run (s, []) is = some (q, o))
    (hj : Jittered q.2) : AwardedOnce parseFloat (s, []) is q.2 ↔
      ∀ k, 1 ≤ k → Marks.OnMark (boundary k) (boundary k + 1 / 2) (q.2.map Tick.time) := by
  have hpaid : ∀ t ∈ q.2, t.Paid := Machine.inv_of_run (fun _ _ _ _ hp hst => paid_step hp hst) (by simp) hr
  have honce : ∀ k, 1 ≤ k → (awards k q.2 ≤ 1 ∧ ((∃ t ∈ q.2, boundary k + 1 / 2 < t.time) → awards k q.2 = 1) ↔
      Marks.OnMark (boundary k) (boundary k + 1 / 2) (q.2.map Tick.time)) := by
    intro k hk
    have hle : boundary k ≤ boundary k + 1 / 2 := by linarith
    rw [← Marks.once_iff hle (increasing_of_jittered hj), Marks.Once,
      awards_eq_within hpaid (fun t ht => (hj.readings t ht).1) hk]
    simp only [List.mem_map, exists_exists_and_eq_and]
  constructor
  · intro h k hk
    exact (honce k hk).1 (h.once k hk)
  · intro h
    refine ⟨fun k hk => (honce k hk).2 (h k hk), fun k hk => awards_eq_zero hpaid hj hk, fun t ht => ?_, ?_⟩
    · rw [hpaid t ht]
      split
      · exact .inr rfl
      · exact .inl rfl
    · have hidle : Idle s := fun _ _ => by rw [hfresh]; rfl
      exact Machine.Along.imp_of_inv (I := fun p => Idle p.1) (fun p i hp hi => addsNothingElse_of_idle hp hi)
        (fun p i q es hp _ hst => by
          have hq := congrArg Prod.fst (ticked_step.1 hst).2.1
          exact hq ▸ idle_callback hp i) hidle (Machine.along_of_forall_mem hno)

/-- Ticks every half second up to 31 s. -/
def halfSeconds : List ℚ := (List.range 62).map fun n : Nat => ((n : ℚ) + 1) / 2

/-- The tick at 30 s makes the award and the one at 30.5 s does not. -/
theorem awardedOnce_iff_halfSeconds :
    ∃ q o, (ticked fun _ => none).run (System.init ⟨500, 100, 200⟩, []) (gameOf halfSeconds) = some (q, o) ∧
      awards 1 q.2 = 1 ∧ (AwardedOnce (fun _ => none) (System.init ⟨500, 100, 200⟩, []) (gameOf halfSeconds) q.2 ↔
        ∀ k, 1 ≤ k → Marks.OnMark (boundary k) (boundary k + 1 / 2) (q.2.map Tick.time)) := by
  obtain ⟨q, o, hr, htimes, hagain⟩ := run_gameOf halfSeconds
  have hj : Jittered q.2 := jittered_of_times hagain (htimes ▸ by decide +kernel)
  have hpaid : ∀ t ∈ q.2, t.Paid := Machine.inv_of_run (fun _ _ _ _ hp hst => paid_step hp hst) (by simp) hr
  refine ⟨q, o, hr, ?_, awardedOnce_iff (fun _ => none) rfl ?_ hr hj⟩
  · rw [awards_eq_within hpaid (fun t ht => (hagain t ht).ge) le_rfl, htimes]
    decide +kernel
  · simp [gameOf, RefereeCmd.startGame, RefereeCmd.selfChecking]

/-- **A tick at 30 s and one at 30.4 s both make the award.** -/
theorem boundary_awarded_twice :
    let nows : List ℚ := ((List.range 60).map fun n : Nat => ((n : ℚ) + 1) / 2) ++ [152 / 5]
    let is : List Input := .cmd RefereeCmd.startGame "" 0 :: nows.map fun now => .timer now now now
    ∃ q o, (ticked fun _ => none).run (System.init ⟨500, 100, 200⟩, []) is = some (q, o) ∧ Jittered q.2 ∧
      awards 1 q.2 = 2 ∧ ¬ AwardedOnce (fun _ => none) (System.init ⟨500, 100, 200⟩, []) is q.2 := by
  intro nows is
  obtain ⟨q, o, hr, htimes, hagain⟩ := run_gameOf nows
  have hj : Jittered q.2 := jittered_of_times hagain (htimes ▸ by decide +kernel)
  have hpaid : ∀ t ∈ q.2, t.Paid := Machine.inv_of_run (fun _ _ _ _ hp hst => paid_step hp hst) (by simp) hr
  have htwice : awards 1 q.2 = 2 := by
    rw [awards_eq_within hpaid (fun t ht => (hagain t ht).ge) le_rfl, htimes]
    decide +kernel
  refine ⟨q, o, hr, hj, htwice, fun h => ?_⟩
  have hle := (h.once 1 le_rfl).1
  rw [htwice] at hle
  exact absurd hle (by decide)

end Referee
end LfSentry
