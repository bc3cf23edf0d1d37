import LfSentry.BehaviorTree
import LfSentry.Runs
/-!
# AttackState — when an attack goes on and when it is left (`plugins/condition/is_attack_state.cpp`)

The nodes of the tree share one static state, which their ticks in the modes `enemy_visible`, `can_leave`, `keep_attack` and
`reset` and the messages of the gimbal change.  `keep_attack` does not look at `attack_finished_`: after the attack was left,
a message alone makes it succeed again (`attackState_iff`).
-/
namespace LfSentry
namespace Behavior

open Vision (deltaTime)

variable {K : Type} [Field K] [LinearOrder K]

namespace AttackState

inductive Mode
  | reset | enemyVisible | canLeave | keepAttack | unknown
  deriving DecidableEq, Repr

def modeOf (mode : String) : Mode :=
  if mode = "reset" then .reset
  else if mode = "enemy_visible" then .enemyVisible
  else if mode = "can_leave" then .canLeave
  else if mode = "keep_attack" then .keepAttack
  else .unknown

/-- The ports of a node, read at each tick. -/
structure Ports (K : Type) where
  mode : String
  detectTimeoutMs : Int
  noEnemyTimeoutS : K
  minAttackDurationS : K

/-- The static members. -/
structure Shared where
  receivedOnce : Bool
  attackStarted : Bool
  attackFinished : Bool
  lastEnemyTime : Int
  attackStartTime : Int
  deriving DecidableEq, Repr

def Shared.initial : Shared := ⟨false, false, false, 0, 0⟩

def Shared.gimbalCmdCallback (s : Shared) (now : Int) : Shared := { s with lastEnemyTime := now, receivedOnce := true }

def Shared.isEnemyRecent (s : Shared) (ports : Ports K) (now : Int) : Bool :=
  s.receivedOnce && decide (0 ≤ now - s.lastEnemyTime) &&
    decide (now - s.lastEnemyTime ≤ ports.detectTimeoutMs * 1000 * 1000)

def Shared.canLeaveAttack (s : Shared) (ports : Ports K) (now : Int) : Bool :=
  (s.attackStarted && s.receivedOnce) && !s.isEnemyRecent ports now &&
    (decide (ports.noEnemyTimeoutS ≤ deltaTime now s.lastEnemyTime) &&
      decide (ports.minAttackDurationS ≤ deltaTime now s.attackStartTime))

def Shared.tick (s : Shared) (ports : Ports K) (now : Int) : Shared × NodeStatus :=
  match modeOf ports.mode with
  | .reset => (.initial, .success)
  | .enemyVisible =>
    if s.isEnemyRecent ports now then
      if !s.attackStarted || s.attackFinished then
        ({ s with attackStarted := true, attackFinished := false, attackStartTime := now }, .success)
      else (s, .success)
    else (s, .failure)
  | .canLeave => if s.canLeaveAttack ports now then ({ s with attackFinished := true }, .success) else (s, .failure)
  | .keepAttack => (s, if s.attackStarted && !s.canLeaveAttack ports now then .success else .failure)
  | .unknown => (s, .failure)

/-- A message of the gimbal, or a tick of some node. -/
inductive Label (K : Type)
  | gimbalCmd (now : Int)
  | tick (ports : Ports K) (now : Int)

/-- The shared state under messages and ticks in any order; a tick answers with a status. -/
def machine : Machine Shared (Label K) NodeStatus where
  step s
    | .gimbalCmd now => some (s.gimbalCmdCallback now, [])
    | .tick ports now => some ((s.tick ports now).1, [(s.tick ports now).2])

/-! ## What has been seen from outside -/

/-- The messages so far, when the attack began, whether it was left, and the newest clock reading. -/
structure History where
  seen : List Int
  attackSince : Option Int
  left : Bool
  clock : Int
  deriving DecidableEq, Repr

def History.begun (clock : Int) : History := ⟨[], none, false, clock⟩

/-- An attack begins with the first success of `enemy_visible` after a reset or after it was left. -/
def History.answered (h : History) (mode : Mode) (now : Int) (status : NodeStatus) : History :=
  match mode, status with
  | .reset, _ => { h with attackSince := none, left := false, clock := now }
  | .enemyVisible, .success =>
    { h with attackSince := if h.left then some now else h.attackSince.or (some now), left := false, clock := now }
  | .canLeave, .success => { h with left := true, clock := now }
  | _, _ => { h with clock := now }

def recorded : Machine (Shared × History) (Label K) NodeStatus :=
  machine.ghost fun h _ label q =>
    match label with
    | .gimbalCmd now => { h with seen := now :: h.seen, clock := now }
    | .tick ports now => q.2.foldl (fun h status => h.answered (modeOf ports.mode) now status) h

/-- The clock is monotone. -/
def Clocked (p : Shared × History) : Label K → Prop
  | .gimbalCmd now => p.2.clock ≤ now
  | .tick _ now => p.2.clock ≤ now

/-- **The law**: `can_leave` succeeds only in an attack that has lasted long enough, with no enemy seen for long enough, and
`keep_attack` succeeds only in an attack that was not left. -/
def Law (p : Shared × History) : Label K → Prop
  | .gimbalCmd _ => True
  | .tick ports now => (p.1.tick ports now).2 = .success →
      (modeOf ports.mode = .canLeave → (∃ t, p.2.attackSince = some t ∧ ports.minAttackDurationS ≤ deltaTime now t) ∧
        p.2.seen ≠ [] ∧ ∀ t ∈ p.2.seen, ports.noEnemyTimeoutS ≤ deltaTime now t) ∧
      (modeOf ports.mode = .keepAttack → p.2.left = false)

/-- Where `keep_attack` is ticked after the attack was finished, it could still be left. -/
def StaysLeft (p : Shared × History) : Label K → Prop
  | .gimbalCmd _ => True
  | .tick ports now => modeOf ports.mode = .keepAttack → p.1.attackFinished = true → p.1.canLeaveAttack ports now = true

/-! ## The shared state and the history -/

/-- What the static members record. -/
structure Inv (p : Shared × History) : Prop where
  started : ∀ t, p.2.attackSince = some t ↔ p.1.attackStarted = true ∧ p.1.attackStartTime = t
  finished : p.1.attackFinished = p.2.left
  finished_started : p.1.attackFinished = true → p.1.attackStarted = true
  received : p.1.receivedOnce = true → p.2.seen ≠ [] ∧ ∀ t ∈ p.2.seen, t ≤ p.1.lastEnemyTime
  clock : ∀ t ∈ p.2.seen, t ≤ p.2.clock

theorem inv_initial (clock : Int) : Inv (Shared.initial, History.begun clock) where
  started t := by simp [History.begun, Shared.initial]
  finished := rfl
  finished_started h := by cases h
  received h := by cases h
  clock t ht := by cases ht

section Steps

variable {p q : Shared × History} {s : Shared} {ports : Ports K} {now : Int} {label : Label K} {es : List NodeStatus}

theorem canLeaveAttack_iff : s.canLeaveAttack ports now = true ↔
    (s.attackStarted = true ∧ s.receivedOnce = true) ∧ s.isEnemyRecent ports now = false ∧
      ports.noEnemyTimeoutS ≤ deltaTime now s.lastEnemyTime ∧ ports.minAttackDurationS ≤ deltaTime now s.attackStartTime := by
  simp [Shared.canLeaveAttack, and_assoc]

theorem tick_canLeave (hm : modeOf ports.mode = .canLeave) :
    (s.tick ports now).2 = .success ↔ s.canLeaveAttack ports now = true := by
  by_cases h : s.canLeaveAttack ports now = true
  · simp [Shared.tick, hm, h]
  · simp [Shared.tick, hm, h]

theorem tick_keepAttack (hm : modeOf ports.mode = .keepAttack) :
    (s.tick ports now).2 = .success ↔ s.attackStarted = true ∧ s.canLeaveAttack ports now = false := by
  by_cases h : (s.attackStarted && !s.canLeaveAttack ports now) = true
  · simp only [Shared.tick, hm, if_pos h, true_iff]
    simpa using h
  · simp only [Shared.tick, hm, if_neg h, reduceCtorEq, false_iff]
    simpa using h

/-- **The attack is only left after its time.** -/
theorem leaves_in_time [IsStrictOrderedRing K] (hI : Inv p) (h : p.1.canLeaveAttack ports now = true) :
    (∃ t, p.2.attackSince = some t ∧ ports.minAttackDurationS ≤ deltaTime now t) ∧
      p.2.seen ≠ [] ∧ ∀ t ∈ p.2.seen, ports.noEnemyTimeoutS ≤ deltaTime now t := by
  obtain ⟨⟨hstarted, hreceived⟩, -, hno, hmin⟩ := canLeaveAttack_iff.1 h
  obtain ⟨hne, hseen⟩ := hI.received hreceived
  refine ⟨⟨p.1.attackStartTime, (hI.started _).2 ⟨hstarted, rfl⟩, hmin⟩, hne, fun t ht => ?_⟩
  exact hno.trans (deltaTime_anti (hseen t ht))

/-- **At each step the law holds exactly if what was left stays left.** -/
theorem law_iff_staysLeft [IsStrictOrderedRing K] (hI : Inv p) : Law p label ↔ StaysLeft p label := by
  cases label with
  | gimbalCmd => exact Iff.rfl
  | tick ports now =>
    constructor
    · intro hlaw hm hfin
      by_contra hcan
      have hsucc : (p.1.tick ports now).2 = .success :=
        (tick_keepAttack hm).2 ⟨hI.finished_started hfin, Bool.not_eq_true _ ▸ hcan⟩
      have hleft := (hlaw hsucc).2 hm
      rw [← hI.finished, hfin] at hleft
      cases hleft
    · intro hstays hsucc
      refine ⟨fun hm => leaves_in_time hI ((tick_canLeave hm).1 hsucc), fun hm => ?_⟩
      obtain ⟨-, hcan⟩ := (tick_keepAttack hm).1 hsucc
      rw [← hI.finished]
      by_contra hfin
      rw [hstays hm (Bool.not_eq_false _ ▸ hfin)] at hcan
      cases hcan

theorem inv_gimbalCmd (hI : Inv p) (hclock : p.2.clock ≤ now) :
    Inv (p.1.gimbalCmdCallback now, { p.2 with seen := now :: p.2.seen, clock := now }) where
  started := hI.started
  finished := hI.finished
  finished_started := hI.finished_started
  received _ := by
    refine ⟨List.cons_ne_nil _ _, fun t ht => ?_⟩
    rcases List.mem_cons.1 ht with rfl | ht
    · exact le_rfl
    · exact (hI.clock t ht).trans hclock
  clock t ht := by
    rcases List.mem_cons.1 ht with rfl | ht
    · exact le_rfl
    · exact (hI.clock t ht).trans hclock

/-- A later clock reading alone. -/
theorem Inv.later (hI : Inv p) (hclock : p.2.clock ≤ now) : Inv (p.1, { p.2 with clock := now }) :=
  ⟨hI.started, hI.finished, hI.finished_started, hI.received, fun t ht => (hI.clock t ht).trans hclock⟩

/-- An attack that begins, begins now. -/
theorem attackSince_begins (hI : Inv p) (hnew : (!p.1.attackStarted || p.1.attackFinished) = true) :
    (if p.2.left then some now else p.2.attackSince.or (some now)) = some now := by
  by_cases hleft : p.2.left = true
  · rw [if_pos hleft]
  · have hnone : p.2.attackSince = none := by
      rw [Option.eq_none_iff_forall_ne_some]
      intro t ht
      have hstarted := ((hI.started t).1 ht).1
      rw [hstarted, hI.finished] at hnew
      exact hleft (by simpa using hnew)
    rw [if_neg hleft, hnone]
    rfl

theorem inv_tick (hI : Inv p) (hclock : p.2.clock ≤ now) :
    Inv ((p.1.tick ports now).1, p.2.answered (modeOf ports.mode) now (p.1.tick ports now).2) := by
  have hlater := hI.later hclock
  unfold Shared.tick
  cases hm : modeOf ports.mode with
  | reset =>
    exact ⟨fun t => by simp [Shared.initial, History.answered], rfl, nofun, nofun, hlater.clock⟩
  | enemyVisible =>
    dsimp only
    by_cases hrecent : p.1.isEnemyRecent ports now = true
    · rw [if_pos hrecent]
      by_cases hnew : (!p.1.attackStarted || p.1.attackFinished) = true
      · rw [if_pos hnew]
        refine ⟨fun t => ?_, rfl, fun h => rfl, hI.received, hlater.clock⟩
        simp only [History.answered, attackSince_begins hI hnew, Option.some.injEq, true_and]
      · rw [if_neg hnew]
        have hold : p.1.attackStarted = true ∧ p.1.attackFinished = false := by simpa using hnew
        have hleft : p.2.left = false := by rw [← hI.finished, hold.2]
        have hsince : p.2.attackSince = some p.1.attackStartTime := (hI.started _).2 ⟨hold.1, rfl⟩
        refine ⟨fun t => ?_, hold.2, hI.finished_started, hI.received, hlater.clock⟩
        simp [History.answered, hleft, hsince, hold.1]
    · rw [if_neg hrecent]
      exact hlater
  | canLeave =>
    dsimp only
    by_cases hcan : p.1.canLeaveAttack ports now = true
    · rw [if_pos hcan]
      exact ⟨hI.started, rfl, fun _ => (canLeaveAttack_iff.1 hcan).1.1, hI.received, hlater.clock⟩
    · rw [if_neg hcan]
      exact hlater
  | keepAttack =>
    dsimp only
    by_cases hkeep : (p.1.attackStarted && !p.1.canLeaveAttack ports now) = true
    · rw [if_pos hkeep]
      exact hlater
    · rw [if_neg hkeep]
      exact hlater
  | unknown => exact hlater

theorem inv_step (hI : Inv p) (hclock : Clocked p label) (hstep : recorded.step p label = some (q, es)) : Inv q := by
  obtain ⟨hs, hq⟩ := Machine.ghost_step.1 hstep
  obtain ⟨s, h⟩ := q
  cases label with
  | gimbalCmd now =>
    simp only [machine, Option.some.injEq, Prod.mk.injEq] at hs
    obtain ⟨rfl, rfl⟩ := hs
    dsimp only at hq
    rw [hq]
    exact inv_gimbalCmd hI hclock
  | tick ports now =>
    simp only [machine, Option.some.injEq, Prod.mk.injEq] at hs
    obtain ⟨rfl, rfl⟩ := hs
    dsimp only at hq
    rw [hq]
    exact inv_tick hI hclock

/-- **In every run with a monotone clock the law holds exactly if what was left stays left.** -/
theorem attackState_iff [IsStrictOrderedRing K] (clock : Int) (labels : List (Label K))
    (hclock : recorded.Along Clocked (Shared.initial, History.begun clock) labels) :
    recorded.Along Law (Shared.initial, History.begun clock) labels ↔
      recorded.Along StaysLeft (Shared.initial, History.begun clock) labels :=
  Machine.along_congr (I := Inv) (fun _ _ hI _ => law_iff_staysLeft hI) (fun _ _ _ _ hI hc _ hstep => inv_step hI hc hstep)
    (inv_initial clock) hclock

end Steps

/-- A node with the declared timeouts. -/
def declaredPorts (mode : String) : Ports ℚ := ⟨mode, 500, 60.0, 180.0⟩

/-- The attack begins with a message at once, and is left after 200 s. -/
def leavesAfter200 : List (Label ℚ) := [.gimbalCmd 0, .tick (declaredPorts "enemy_visible") 0,
  .tick (declaredPorts "can_leave") 200000000000]

theorem along_leavesAfter200 {P : Shared × History → Label ℚ → Prop} {rest : List (Label ℚ)} :
    recorded.Along P (.initial, .begun 0) (leavesAfter200 ++ rest) ↔
      P (.initial, .begun 0) (.gimbalCmd 0) ∧
        P (⟨true, false, false, 0, 0⟩, ⟨[0], none, false, 0⟩) (.tick (declaredPorts "enemy_visible") 0) ∧
        P (⟨true, true, false, 0, 0⟩, ⟨[0], some 0, false, 0⟩) (.tick (declaredPorts "can_leave") 200000000000) ∧
        recorded.Along P (⟨true, true, true, 0, 0⟩, ⟨[0], some 0, true, 200000000000⟩) rest := by
  have h1 : recorded.step (Shared.initial, History.begun 0) (.gimbalCmd 0 : Label ℚ) =
      some ((⟨true, false, false, 0, 0⟩, ⟨[0], none, false, 0⟩), []) := rfl
  have h2 : recorded.step (⟨true, false, false, 0, 0⟩, ⟨[0], none, false, 0⟩) (.tick (declaredPorts "enemy_visible") 0) =
      some ((⟨true, true, false, 0, 0⟩, ⟨[0], some 0, false, 0⟩), [.success]) := by decide +kernel
  have h3 : recorded.step (⟨true, true, false, 0, 0⟩, ⟨[0], some 0, false, 0⟩)
      (.tick (declaredPorts "can_leave") 200000000000) =
      some ((⟨true, true, true, 0, 0⟩, ⟨[0], some 0, true, 200000000000⟩), [.success]) := by decide +kernel
  rw [leavesAfter200, List.cons_append, List.cons_append, List.cons_append, List.nil_append,
    Machine.along_cons_of_step h1, Machine.along_cons_of_step h2, Machine.along_cons_of_step h3]

/-- Ten seconds later, with no message in between, `keep_attack` fails. -/
def staysLeft210 : List (Label ℚ) := [.tick (declaredPorts "keep_attack") 210000000000]

theorem attackState_iff_staysLeft210 :
    ((⟨true, true, true, 0, 0⟩ : Shared).tick (declaredPorts "keep_attack") 210000000000).2 = .failure ∧
      recorded.Along Law (Shared.initial, History.begun 0) (leavesAfter200 ++ staysLeft210) := by
  have hcan : (⟨true, true, true, 0, 0⟩ : Shared).canLeaveAttack (declaredPorts "keep_attack") 210000000000 = true := by
    decide +kernel
  refine ⟨by decide +kernel, (attackState_iff 0 (leavesAfter200 ++ staysLeft210) ?_).2 ?_⟩
  · rw [along_leavesAfter200]
    refine ⟨?_, ?_, ?_, ?_, fun _ _ _ => trivial⟩ <;> simp [Clocked, History.begun]
  · rw [along_leavesAfter200]
    refine ⟨trivial, ?_, ?_, fun _ _ => hcan, fun _ _ _ => trivial⟩ <;> simp [StaysLeft, modeOf, declaredPorts]

/-- **A message a second after the attack was left makes `keep_attack` succeed again.** -/
theorem kept_after_left : ¬ recorded.Along Law (Shared.initial, History.begun 0)
    (leavesAfter200 ++ [.gimbalCmd 201000000000, .tick (declaredPorts "keep_attack") 201000000000]) := by
  rw [along_leavesAfter200]
  rintro ⟨-, -, -, hrest⟩
  have hlaw := (hrest.2 _ _ rfl).1
  have hkeep : ((⟨true, true, true, 201000000000, 0⟩ : Shared).tick (declaredPorts "keep_attack") 201000000000).2 =
      .success := by decide +kernel
  have hleft := (hlaw hkeep).2 rfl
  cases hleft

end AttackState

end Behavior
end LfSentry
