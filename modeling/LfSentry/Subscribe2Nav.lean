import LfSentry.Runs
import LfSentry.ThreadSafeQueue
/-!
# Subscribe2Nav — messages of the navigation and their expiry (`io/ros2/subscribe2nav.cpp`)

A topic keeps its newest message.  From the second message since the last clearing on each one arms a wall timer in place
of the one before, whose callback clears the topic.  The timer is periodic and the callback does not stop it: it goes on
to fire, and a first message after a clearing is cleared with its next period (`messages_expire_iff`).

Callbacks run when they are due; of two events at one instant either may come first.
-/
namespace LfSentry
namespace Vision
namespace Subscribe2Nav

/-- 1500 ms, in nanoseconds. -/
def inactivity : Int := 1500000000

/-- The members of one topic, and the time: `timer` is when the wall timer fires next. -/
structure Topic (M : Type) where
  clock : Int
  queue : ThreadSafeQueue M false
  counter : Nat
  timer : Option Int

variable {M : Type}

def Topic.init (M : Type) (now : Int) : Topic M := ⟨now, .empty M false 1 (by decide), 0, none⟩

/-- `enemy_status_callback` and `autoaim_target_callback`, which differ only in the members they name. -/
def Topic.callback (s : Topic M) (msg : M) : Topic M :=
  let counter := s.counter + 1
  { s with
    queue := s.queue.clear.push msg
    counter := counter
    -- the timer before is cancelled
    timer := if counter ≥ 2 then some (s.clock + inactivity) else s.timer }

/-- The callback of the topic's timer, which fires again after the same time. -/
def Topic.onTimer (s : Topic M) : Topic M :=
  { s with queue := s.queue.clear, counter := 0, timer := some (s.clock + inactivity) }

inductive Occurrence (M : Type)
  | message (msg : M)
  | timer
  | nothing
  deriving DecidableEq, Repr

structure Event (M : Type) where
  t : Int
  what : Occurrence M
  deriving DecidableEq, Repr

/-- Time goes on, not past a timer that is due, and something happens. -/
def Topic.step (s : Topic M) (e : Event M) : Option (Topic M) :=
  if s.clock ≤ e.t ∧ ∀ due ∈ s.timer, e.t ≤ due then
    let s := { s with clock := e.t }
    match e.what with
    | .message msg => some (s.callback msg)
    | .timer => if s.timer = some e.t then some s.onTimer else none
    | .nothing => some s
  else none

/-- The times of the newest message and of the last callback of the timer. -/
structure Times where
  arrived : Int
  fired : Int
  deriving DecidableEq, Repr

def Times.note (g : Times) (e : Event M) : Times :=
  match e.what with
  | .message _ => { g with arrived := e.t }
  | .timer => { g with fired := e.t }
  | .nothing => g

def recordedTopic (M : Type) : Machine (Topic M × Times) (Event M) Empty :=
  Machine.ghost ⟨fun s e => (s.step e).map fun s => (s, [])⟩ fun g _ e _ => g.note e

/-! ## The node -/

/-- What happens to the node: a message or a timer of one of its two topics. -/
inductive NavEvent (E A : Type)
  | enemyStatus (e : Event E)
  | autoaimTarget (e : Event A)
  deriving DecidableEq, Repr

variable {E A : Type}

/-- An event of the other topic is time that passes. -/
def NavEvent.forEnemyStatus : NavEvent E A → Event E
  | .enemyStatus e => e
  | .autoaimTarget e => ⟨e.t, .nothing⟩

def NavEvent.forAutoaimTarget : NavEvent E A → Event A
  | .enemyStatus e => ⟨e.t, .nothing⟩
  | .autoaimTarget e => e

def recordedNav (E A : Type) : Machine ((Topic E × Times) × (Topic A × Times)) (NavEvent E A) Empty :=
  (recordedTopic E).sync (recordedTopic A) NavEvent.forEnemyStatus NavEvent.forAutoaimTarget

def navInit (E A : Type) (now : Int) : (Topic E × Times) × (Topic A × Times) :=
  ((Topic.init E now, ⟨now, now⟩), (Topic.init A now, ⟨now, now⟩))

/-! ## Expiry -/

/-- The timer's callback clears no message that has been there for less than 1500 ms. -/
def KeptLong (p : Topic M × Times) (e : Event M) : Prop :=
  e.what = .timer → p.1.timer = some e.t → p.1.queue.queue ≠ [] → p.2.arrived + inactivity ≤ e.t

/-- A message that is the first since the last callback of a timer when the timer fires again came at the instant of that
callback. -/
def FirstAtClearing (p : Topic M × Times) (e : Event M) : Prop :=
  e.what = .timer → p.1.timer = some e.t → p.1.counter = 1 → p.2.arrived = p.2.fired

/-- Over the events `es` a message that is at least the second one stays for 1500 ms and is cleared then, if nothing newer
comes. -/
def ExpiresInTime (p q : Topic M × Times) (es : List (Event M)) : Prop :=
  2 ≤ p.1.counter → (∀ e ∈ es, ∀ msg, e.what ≠ .message msg) →
    (q.1.queue = p.1.queue ∧ q.1.clock ≤ p.2.arrived + inactivity) ∨
      (⟨p.2.arrived + inactivity, .timer⟩ ∈ es ∧ q.1.queue.queue = [])

/-- The timer is armed by the newest message from the second on; before that it is the one of the last callback. -/
structure Armed (p : Topic M × Times) : Prop where
  idle : p.1.counter = 0 → p.1.queue.queue = []
  holds : p.1.counter ≠ 0 → p.1.queue.queue ≠ []
  armed : 2 ≤ p.1.counter → p.1.timer = some (p.2.arrived + inactivity)
  periodic : p.1.counter ≤ 1 → ∀ due, p.1.timer = some due →
    due = p.2.fired + inactivity ∧ p.2.fired ≤ p.1.clock ∧ (p.1.counter = 1 → p.2.fired ≤ p.2.arrived)
  prompt : ∀ due, p.1.timer = some due → p.1.clock ≤ due

theorem armed_init (now : Int) : Armed (Topic.init M now, ⟨now, now⟩) where
  idle _ := rfl
  holds h := absurd rfl h
  armed h := by simp [Topic.init] at h
  periodic _ due h := by cases h
  prompt due h := by cases h

theorem step_cases {p q : Topic M × Times} {e : Event M} {o : List Empty} (h : (recordedTopic M).step p e = some (q, o)) :
    p.1.clock ≤ e.t ∧ (∀ due, p.1.timer = some due → e.t ≤ due) ∧
      ((∃ msg, e.what = .message msg ∧ q = ({ p.1 with clock := e.t }.callback msg, { p.2 with arrived := e.t })) ∨
        (e.what = .timer ∧ p.1.timer = some e.t ∧ q = ({ p.1 with clock := e.t }.onTimer, { p.2 with fired := e.t })) ∨
        (e.what = .nothing ∧ q = ({ p.1 with clock := e.t }, p.2))) := by
  obtain ⟨hstep, hnote⟩ := Machine.ghost_step.1 h
  obtain ⟨s, g⟩ := q
  obtain ⟨t, what⟩ := e
  simp only [Option.map_eq_some_iff, Prod.mk.injEq] at hstep
  obtain ⟨s', hs, rfl, -⟩ := hstep
  simp only at hnote
  subst hnote
  unfold Topic.step at hs
  split at hs
  · rename_i hguard
    refine ⟨hguard.1, fun due hdue => hguard.2 due hdue, ?_⟩
    cases what with
    | message msg =>
      cases hs
      exact .inl ⟨msg, rfl, rfl⟩
    | timer =>
      simp only at hs
      split at hs
      · rename_i hdue
        cases hs
        exact .inr (.inl ⟨rfl, hdue, rfl⟩)
      · cases hs
    | nothing =>
      cases hs
      exact .inr (.inr ⟨rfl, rfl⟩)
  · cases hs

theorem armed_step {p q : Topic M × Times} {e : Event M} {o : List Empty} (hp : Armed p)
    (h : (recordedTopic M).step p e = some (q, o)) : Armed q := by
  obtain ⟨hclock, hdue, ⟨msg, -, rfl⟩ | ⟨-, htimer, rfl⟩ | ⟨-, rfl⟩⟩ := step_cases h
  · refine ⟨fun hc => ?_, fun _ => ?_, fun hc => ?_, fun hc due htimer => ?_, fun due htimer => ?_⟩
    · simp [Topic.callback] at hc
    · simp [Topic.callback, ThreadSafeQueue.push_clear]
    · simp only [Topic.callback] at hc ⊢
      rw [if_pos hc]
    · simp only [Topic.callback] at hc htimer ⊢
      rw [if_neg (by omega)] at htimer
      obtain ⟨rfl, hfired, -⟩ := hp.periodic (by omega) due htimer
      exact ⟨rfl, Int.le_trans hfired hclock, fun _ => Int.le_trans hfired hclock⟩
    · simp only [Topic.callback] at htimer ⊢
      split at htimer
      · rw [Option.some.injEq] at htimer
        rw [← htimer, inactivity]
        omega
      · exact hdue due htimer
  · refine ⟨fun _ => rfl, fun hc => absurd rfl hc, fun hc => ?_, fun _ due hnext => ?_, fun due hnext => ?_⟩
    · simp [Topic.onTimer] at hc
    · simp only [Topic.onTimer, Option.some.injEq] at hnext ⊢
      exact ⟨hnext.symm, Int.le_refl _, fun hc => absurd hc (by decide)⟩
    · simp only [Topic.onTimer, Option.some.injEq] at hnext ⊢
      rw [← hnext, inactivity]
      omega
  · refine ⟨hp.idle, hp.holds, hp.armed, fun hc due htimer => ?_, hdue⟩
    obtain ⟨hperiod, hfired, hfirst⟩ := hp.periodic hc due htimer
    exact ⟨hperiod, Int.le_trans hfired hclock, hfirst⟩

/-- **Only a first message can be cleared early, and it is, unless it came with the clearing before.** -/
theorem keptLong_iff {p : Topic M × Times} {e : Event M} (hp : Armed p) : KeptLong p e ↔ FirstAtClearing p e := by
  unfold KeptLong FirstAtClearing
  refine imp_congr_right fun _ => imp_congr_right fun htimer => ?_
  rcases Nat.lt_trichotomy p.1.counter 1 with hc | hc | hc
  · have hzero : p.1.counter = 0 := by omega
    exact ⟨fun _ hone => (by omega), fun _ hne => absurd (hp.idle hzero) hne⟩
  · obtain ⟨ht, -, hfirst⟩ := hp.periodic (Nat.le_of_eq hc) e.t htimer
    have hle := hfirst hc
    constructor
    · intro h _
      have hkept := h (hp.holds (by omega))
      omega
    · intro h _
      have hcame := h hc
      omega
  · have ht := hp.armed hc
    rw [htimer, Option.some.injEq] at ht
    exact ⟨fun _ hone => (by omega), fun _ _ => ht ▸ Int.le_refl _⟩

/-- What is cleared stays so until something comes. -/
theorem empty_run : ∀ {es : List (Event M)} {p q : Topic M × Times} {o : List Empty}, p.1.queue.queue = [] →
    (∀ e ∈ es, ∀ msg, e.what ≠ .message msg) → (recordedTopic M).run p es = some (q, o) → q.1.queue.queue = []
  | [], p, q, o, hp, _, hr => by
    simp only [Machine.run_nil, Option.some.injEq, Prod.mk.injEq] at hr
    exact hr.1 ▸ hp
  | e :: es, p, q, o, hp, hquiet, hr => by
    obtain ⟨t, o₁, o₂, hst, hr', -⟩ := Machine.run_cons.1 hr
    refine empty_run ?_ (fun e' he' => hquiet e' (List.mem_cons_of_mem e he')) hr'
    obtain ⟨-, -, ⟨msg, hmsg, -⟩ | ⟨-, -, rfl⟩ | ⟨-, rfl⟩⟩ := step_cases hst
    · exact absurd hmsg (hquiet e List.mem_cons_self msg)
    · rfl
    · exact hp

/-- **The timer of a second message clears it 1500 ms after it came.** -/
theorem expires_run : ∀ {es : List (Event M)} {p q : Topic M × Times} {o : List Empty}, Armed p →
    (recordedTopic M).run p es = some (q, o) → ExpiresInTime p q es
  | [], p, q, o, hp, hr => by
    simp only [Machine.run_nil, Option.some.injEq, Prod.mk.injEq] at hr
    obtain ⟨rfl, -⟩ := hr
    exact fun hc _ => .inl ⟨rfl, hp.prompt _ (hp.armed hc)⟩
  | e :: es, p, q, o, hp, hr => by
    intro hc hquiet
    obtain ⟨t, o₁, o₂, hst, hr', -⟩ := Machine.run_cons.1 hr
    have hrest : ∀ e' ∈ es, ∀ msg, e'.what ≠ .message msg := fun e' he' => hquiet e' (List.mem_cons_of_mem e he')
    have ht := armed_step hp hst
    obtain ⟨-, -, ⟨msg, hmsg, -⟩ | ⟨hwhat, htimer, rfl⟩ | ⟨-, rfl⟩⟩ := step_cases hst
    · exact absurd hmsg (hquiet e List.mem_cons_self msg)
    · have hdue := hp.armed hc
      rw [htimer, Option.some.injEq] at hdue
      refine .inr ⟨?_, empty_run rfl hrest hr'⟩
      rw [← hdue, ← hwhat]
      exact List.mem_cons_self
    · rcases expires_run ht hr' hc hrest with hwaits | ⟨hmem, hempty⟩
      · exact .inl hwaits
      · exact .inr ⟨List.mem_cons_of_mem e hmem, hempty⟩

theorem armed_nav {p q : (Topic E × Times) × (Topic A × Times)} {e : NavEvent E A} {o : List Empty}
    (hp : Armed p.1 ∧ Armed p.2) (h : (recordedNav E A).step p e = some (q, o)) : Armed q.1 ∧ Armed q.2 := by
  obtain ⟨o₁, o₂, h₁, h₂, -⟩ := Machine.sync_step.1 h
  exact ⟨armed_step hp.1 h₁, armed_step hp.2 h₂⟩

/-- **The messages of both topics are kept for 1500 ms in exactly the runs in which no first message is left to the timer
of the clearing before it; from the second on they expire in time in every run.** -/
theorem messages_expire_iff (now : Int) (events : List (NavEvent E A)) :
    ((recordedNav E A).Along (fun p e => KeptLong p.1 e.forEnemyStatus ∧ KeptLong p.2 e.forAutoaimTarget)
        (navInit E A now) events ↔
      (recordedNav E A).Along (fun p e => FirstAtClearing p.1 e.forEnemyStatus ∧ FirstAtClearing p.2 e.forAutoaimTarget)
        (navInit E A now) events) ∧
    ∀ pre post p q o o', events = pre ++ post → (recordedNav E A).run (navInit E A now) pre = some (p, o) →
      (recordedNav E A).run p post = some (q, o') →
        ExpiresInTime p.1 q.1 (post.map NavEvent.forEnemyStatus) ∧
          ExpiresInTime p.2 q.2 (post.map NavEvent.forAutoaimTarget) := by
  have hinit : Armed (navInit E A now).1 ∧ Armed (navInit E A now).2 := ⟨armed_init now, armed_init now⟩
  refine ⟨?_, fun pre post p q o o' _ hpre hpost => ?_⟩
  · exact Machine.along_iff (I := fun p : (Topic E × Times) × (Topic A × Times) => Armed p.1 ∧ Armed p.2)
      (fun p e hp => and_congr (keptLong_iff hp.1) (keptLong_iff hp.2)) (fun p e q o hp _ h => armed_nav hp h) hinit
  · have hp := Machine.inv_of_run (I := fun p => Armed p.1 ∧ Armed p.2) (fun p e q o hp h => armed_nav hp h) hinit hpre
    obtain ⟨⟨o₁, h₁⟩, ⟨o₂, h₂⟩⟩ := Machine.sync_run hpost
    exact ⟨expires_run hp.1 h₁, expires_run hp.2 h₂⟩

/-- **A message that comes 100 ms before the old timer's next period is cleared with it.** -/
theorem first_message_cleared_early : ¬ (recordedNav Nat Nat).Along
    (fun p e => KeptLong p.1 e.forEnemyStatus ∧ KeptLong p.2 e.forAutoaimTarget) (navInit Nat Nat 0)
    [.enemyStatus ⟨0, .message 0⟩, .enemyStatus ⟨100000000, .message 1⟩, .enemyStatus ⟨1600000000, .timer⟩,
      .enemyStatus ⟨3000000000, .message 2⟩, .enemyStatus ⟨3100000000, .timer⟩] := by
  intro h
  have hrun : ((recordedNav Nat Nat).run (navInit Nat Nat 0)
      [.enemyStatus ⟨0, .message 0⟩, .enemyStatus ⟨100000000, .message 1⟩, .enemyStatus ⟨1600000000, .timer⟩,
        .enemyStatus ⟨3000000000, .message 2⟩]).map (fun p => (p.1.1.1.timer, p.1.1.1.queue.queue, p.1.1.2.arrived)) =
      some (some 3100000000, [2], 3000000000) := by decide
  obtain ⟨p, hp, hlast⟩ := Option.map_eq_some_iff.1 hrun
  simp only [Prod.mk.injEq] at hlast
  obtain ⟨htimer, hqueue, harrived⟩ := hlast
  have hkept := ((Machine.along_append (o := p.2) hp).1 h).2.1.1 rfl htimer (by rw [hqueue]; exact List.cons_ne_nil _ _)
  rw [harrived] at hkept
  exact absurd hkept (by decide)

end Subscribe2Nav
end Vision
end LfSentry
