import LfSentry.Aimer
import LfSentry.Runs
import LfSentry.Samples
import LfSentry.ThreadSafeQueue
/-!
# Attitude — the attitude at a time, from the gimbal's samples (`io/gimbal/gimbal.cpp`, `io/ros2/gimbal_ros.cpp`)

`q(t)` pops a sample, looks at the one behind it and interpolates if `t` lies between them; the popped sample is gone
for every later call.  Calls of several threads take their pops and looks in any order.  Every call is answered between
neighbours around its time iff a call finds a sample before its time next in the queue, and every pop leaves one there for
each other call under way (`q_answers_iff`).
-/
namespace LfSentry
namespace Vision

open Samples

variable {Q : Type}

/-- `q_a.slerp(k, q_b).normalized()`: the samples and the factor it is computed from. -/
structure Interpolation (Q : Type) where
  a : Sample Q Int
  b : Sample Q Int
  k : ℚ
  deriving DecidableEq, Repr

/-- It is taken between neighbours of the samples `received` around `t`. -/
structure Interpolation.Brackets (received : List (Sample Q Int)) (t : Int) (r : Interpolation Q) : Prop where
  adjacent : Adjacent received r.a r.b
  lower : r.a.time ≤ t
  upper : t ≤ r.b.time
  factor : r.k = (t - r.a.time) / (r.b.time - r.a.time)
  nonneg : 0 ≤ r.k
  le_one : r.k ≤ 1

/-- The interpolation of `q` between two samples. -/
def interpolate (a b : Sample Q Int) (t : Int) : Interpolation Q :=
  let tAb : ℚ := deltaTime a.time b.time
  let tAc : ℚ := deltaTime a.time t
  ⟨a, b, tAc / tAb⟩

theorem interpolate_factor (a b : Sample Q Int) (t : Int) :
    (interpolate a b t).k = (t - a.time) / (b.time - a.time) := by
  unfold interpolate deltaTime
  dsimp only
  rw [div_div_div_cancel_right₀ (by norm_num), ← neg_div_neg_eq]
  push_cast
  ring

/-- **Between neighbours around `t` nothing is extrapolated.** -/
theorem interpolate_brackets {received : List (Sample Q Int)} {a b : Sample Q Int} {t : Int}
    (h : Adjacent received a b) (hlo : a.time ≤ t) (hhi : t ≤ b.time) :
    (interpolate a b t).Brackets received t := by
  have hlt : (0 : ℚ) < b.time - a.time := sub_pos.2 (Int.cast_lt.2 h.lt)
  have hlo' : (0 : ℚ) ≤ t - a.time := sub_nonneg.2 (Int.cast_le.2 hlo)
  have hhi' : (t : ℚ) - a.time ≤ b.time - a.time := sub_le_sub_right (Int.cast_le.2 hhi) _
  refine ⟨h, hlo, hhi, interpolate_factor a b t, ?_, ?_⟩
  · rw [interpolate_factor]
    exact div_nonneg hlo' hlt.le
  · rw [interpolate_factor, div_le_one hlt]
    exact hhi'

/-! ## `q` -/

namespace Attitude

/-- What one turn of the loop of `q` returns; `none` is its `continue`. -/
def turn (a b : Sample Q Int) (t : Int) : Option (Interpolation Q) :=
  let qC := interpolate a b t
  if t < a.time then some qC
  else if ¬ (a.time < t ∧ t ≤ b.time) then none
  else some qC

/-- A call of `q(t)` before its next pop, or with the sample it has popped. -/
inductive Call (Q : Type)
  | seeking (t : Int)
  | holding (t : Int) (a : Sample Q Int)
  deriving DecidableEq, Repr

/-- The object and the calls under way, by thread. -/
structure System (Q : Type) where
  queue : ThreadSafeQueue (Sample Q Int) false
  opened : Bool
  calls : Nat → Option (Call Q)

/-- A `Gimbal` whose constructor has not yet popped the first sample. -/
def gimbal (Q : Type) : System Q := ⟨.empty _ _ 1000 (by decide), false, fun _ => none⟩

def gimbalROS (Q : Type) : System Q := ⟨.empty _ _ 1000 (by decide), true, fun _ => none⟩

def System.setCall (s : System Q) (j : Nat) (c : Option (Call Q)) : System Q :=
  { s with calls := Function.update s.calls j c }

inductive Label (Q : Type)
  | push (v : Sample Q Int)
  | opening
  | call (j : Nat) (t : Int)
  | pop (j : Nat)
  | front (j : Nat)
  deriving DecidableEq, Repr

structure Answer (Q : Type) where
  j : Nat
  t : Int
  result : Interpolation Q
  deriving DecidableEq, Repr

/-- The reader of the samples and the threads that call `q`, one operation of the queue at a time. -/
def attitude (Q : Type) : Machine (System Q) (Label Q) (Answer Q) where
  step s
    | .push v => some ({ s with queue := s.queue.push v }, [])
    | .opening =>
      if s.opened then none
      else s.queue.pop.map fun r => ({ s with queue := r.2, opened := true }, [])
    | .call j t => if s.opened = true ∧ s.calls j = none then some (s.setCall j (some (.seeking t)), []) else none
    | .pop j =>
      match s.calls j with
      | some (.seeking t) => s.queue.pop.map fun r => ({ s with queue := r.2 }.setCall j (some (.holding t r.1)), [])
      | _ => none
    | .front j =>
      match s.calls j with
      | some (.holding t a) =>
        s.queue.front.map fun b =>
          match turn a b t with
          | some r => (s.setCall j none, [⟨j, t, r⟩])
          | none => (s.setCall j (some (.seeking t)), [])
      | _ => none

/-! ## The samples received -/

/-- The samples pushed so far, the query times so far and the thread of the last pop. -/
structure Record (Q : Type) where
  received : List (Sample Q Int)
  asked : List Int
  popper : Option Nat

def Record.empty (Q : Type) : Record Q := ⟨[], [], none⟩

def Record.note (r : Record Q) : Label Q → Record Q
  | .push v => { r with received := r.received ++ [v] }
  | .opening => { r with popper := none }
  | .call _ t => { r with asked := t :: r.asked }
  | .pop j => { r with popper := some j }
  | .front _ => r

def recorded (Q : Type) : Machine (System Q × Record Q) (Label Q) (Answer Q) :=
  (attitude Q).ghost fun r _ i _ => r.note i

/-- Samples are pushed in the order of time, and the queue has room for them. -/
def Fed (p : System Q × Record Q) (i : Label Q) : Prop :=
  ∀ v, i = .push v → (∀ r ∈ p.2.received, r.time < v.time) ∧ p.1.queue.queue.length < p.1.queue.maxSize

/-- Query times do not go back and lie between the first sample received and the newest. -/
def Asked (p : System Q × Record Q) (i : Label Q) : Prop :=
  ∀ j t, i = .call j t → (∀ u ∈ p.2.asked, u ≤ t) ∧ (∃ v, p.2.received.head? = some v ∧ v.time ≤ t) ∧
    ∃ v, p.2.received.getLast? = some v ∧ t ≤ v.time

def Call.time : Call Q → Int
  | .seeking t => t
  | .holding t _ => t

/-- Left alone, the call of thread `j` comes to an answer, taken between neighbours around its query time. -/
def Comes (p : System Q × Record Q) (j : Nat) (c : Call Q) : Prop :=
  ∃ is q e, (∀ i ∈ is, i = .pop j ∨ i = .front j) ∧ (recorded Q).run p is = some (q, [e]) ∧ e.j = j ∧ e.t = c.time ∧
    e.result.Brackets p.2.received e.t

/-- **The promise**: what a step answers is taken between neighbours around its query time, and no call under way after it
waits for ever or goes wrong. -/
def Answers (p : System Q × Record Q) (i : Label Q) : Prop :=
  ∀ q es, (recorded Q).step p i = some (q, es) →
    (∀ e ∈ es, e.result.Brackets p.2.received e.t) ∧ ∀ j c, q.1.calls j = some c → Comes q j c

/-- The next sample of the queue lies before `t`. -/
def Ahead (queue : ThreadSafeQueue (Sample Q Int) false) (t : Int) : Prop := ∃ b, queue.front = some b ∧ b.time < t

/-- A call begins while the next sample lies before its time; a pop leaves such a sample next for every other call. -/
def InTime (p : System Q × Record Q) : Label Q → Prop
  | .call j t => p.1.opened = true → p.1.calls j = none → Ahead p.1.queue t
  | .pop j => ∀ t, p.1.calls j = some (.seeking t) → ∀ a queue, p.1.queue.pop = some (a, queue) →
      ∀ k c, k ≠ j → p.1.calls k = some c → Ahead queue c.time
  | _ => True

/-! ## What a step does -/

inductive Stepped (s : System Q) : Label Q → System Q → List (Answer Q) → Prop
  | push (v : Sample Q Int) : Stepped s (.push v) { s with queue := s.queue.push v } []
  | opening {a : Sample Q Int} {queue : ThreadSafeQueue (Sample Q Int) false} : s.opened = false →
      s.queue.pop = some (a, queue) → Stepped s .opening { s with queue := queue, opened := true } []
  | call {j : Nat} {t : Int} : s.opened = true → s.calls j = none → Stepped s (.call j t) (s.setCall j (some (.seeking t))) []
  | pop {j : Nat} {t : Int} {a : Sample Q Int} {queue : ThreadSafeQueue (Sample Q Int) false} :
      s.calls j = some (.seeking t) → s.queue.pop = some (a, queue) →
      Stepped s (.pop j) ({ s with queue := queue }.setCall j (some (.holding t a))) []
  | answer {j : Nat} {t : Int} {a b : Sample Q Int} {r : Interpolation Q} : s.calls j = some (.holding t a) →
      s.queue.front = some b → turn a b t = some r → Stepped s (.front j) (s.setCall j none) [⟨j, t, r⟩]
  | again {j : Nat} {t : Int} {a b : Sample Q Int} : s.calls j = some (.holding t a) → s.queue.front = some b →
      turn a b t = none → Stepped s (.front j) (s.setCall j (some (.seeking t))) []

theorem stepped_iff {s s' : System Q} {i : Label Q} {es : List (Answer Q)} :
    (attitude Q).step s i = some (s', es) ↔ Stepped s i s' es := by
  constructor
  · intro h
    cases i with
    | push v =>
      simp only [attitude, Option.some.injEq, Prod.mk.injEq] at h
      obtain ⟨rfl, rfl⟩ := h
      exact .push v
    | opening =>
      by_cases hopen : s.opened = true
      · simp [attitude, hopen] at h
      · simp only [attitude, if_neg hopen, Option.map_eq_some_iff, Prod.exists, Prod.mk.injEq] at h
        obtain ⟨a, queue, hpop, rfl, rfl⟩ := h
        exact .opening (Bool.not_eq_true _ ▸ hopen) hpop
    | call j t =>
      simp only [attitude] at h
      split at h
      · rename_i hc
        simp only [Option.some.injEq, Prod.mk.injEq] at h
        obtain ⟨rfl, rfl⟩ := h
        exact .call hc.1 hc.2
      · cases h
    | pop j =>
      simp only [attitude] at h
      split at h
      · rename_i t hcall
        simp only [Option.map_eq_some_iff, Prod.exists, Prod.mk.injEq] at h
        obtain ⟨a, queue, hpop, rfl, rfl⟩ := h
        exact .pop hcall hpop
      · cases h
    | front j =>
      simp only [attitude] at h
      split at h
      · rename_i t a hcall
        simp only [Option.map_eq_some_iff] at h
        obtain ⟨b, hfront, hturn⟩ := h
        split at hturn
        · rename_i r hr
          simp only [Prod.mk.injEq] at hturn
          obtain ⟨rfl, rfl⟩ := hturn
          exact .answer hcall hfront hr
        · rename_i hr
          simp only [Prod.mk.injEq] at hturn
          obtain ⟨rfl, rfl⟩ := hturn
          exact .again hcall hfront hr
      · cases h
  · intro h
    cases h with
    | push v => rfl
    | opening hopen hpop => simp [attitude, hopen, hpop]
    | call hopen hnone => simp [attitude, hopen, hnone]
    | pop hcall hpop => simp [attitude, hcall, hpop]
    | answer hcall hfront hturn => simp [attitude, hcall, hfront, hturn]
    | again hcall hfront hturn => simp [attitude, hcall, hfront, hturn]

theorem recorded_step {p q : System Q × Record Q} {i : Label Q} {es : List (Answer Q)} :
    (recorded Q).step p i = some (q, es) ↔ Stepped p.1 i q.1 es ∧ q.2 = p.2.note i :=
  Machine.ghost_step.trans (and_congr_left' stepped_iff)

/-! ## What has been popped -/

/-- What was received is what was popped and then what is queued; a call holds the newest popped sample if it was the
last to pop, else there is a newer one. -/
structure Split (p : System Q × Record Q) (popped : List (Sample Q Int)) : Prop where
  received : p.2.received = popped ++ p.1.queue.queue
  rising : Rising p.2.received
  held : ∀ j t a, p.1.calls j = some (.holding t a) → a ∈ popped ∧
    ((p.2.popper = some j ∧ ∃ older, popped = older ++ [a]) ∨ (p.2.popper ≠ some j ∧ ∃ s ∈ popped, a.time < s.time))

theorem split_init {s : System Q} (hs : s = gimbal Q ∨ s = gimbalROS Q) : Split (s, Record.empty Q) [] := by
  rcases hs with rfl | rfl <;> exact ⟨rfl, List.Pairwise.nil, fun _ _ _ h => nomatch h⟩

/-- The popped sample is newer than every sample held. -/
theorem Split.pop {p : System Q × Record Q} {popped : List (Sample Q Int)} (h : Split p popped) {a : Sample Q Int}
    {queue : ThreadSafeQueue (Sample Q Int) false} (hpop : p.1.queue.pop = some (a, queue)) :
    p.2.received = popped ++ [a] ++ queue.queue ∧
      ∀ j t x, p.1.calls j = some (.holding t x) → x ∈ popped ++ [a] ∧ ∃ s ∈ popped ++ [a], x.time < s.time := by
  have hrec : p.2.received = popped ++ a :: queue.queue := by rw [h.received, ThreadSafeQueue.queue_of_pop hpop]
  have hrise := h.rising
  rw [hrec] at hrise
  refine ⟨by rw [hrec, List.append_assoc, List.singleton_append], fun j t x hx => ?_⟩
  have hmem := (h.held j t x hx).1
  exact ⟨List.mem_append_left _ hmem, a, List.mem_append_right _ (List.mem_singleton_self a),
    hrise.taken_lt hmem List.mem_cons_self⟩

theorem setCall_calls (s : System Q) (j k : Nat) (c : Option (Call Q)) :
    (s.setCall j c).calls k = if k = j then c else s.calls k := by
  simp [System.setCall, Function.update_apply]

/-- A call that holds nothing changes nothing of what is held. -/
theorem Split.setCall {p : System Q × Record Q} {popped : List (Sample Q Int)} (h : Split p popped) (j : Nat)
    {c : Option (Call Q)} (hc : ∀ t a, c ≠ some (.holding t a)) : Split (p.1.setCall j c, p.2) popped where
  received := h.received
  rising := h.rising
  held k t a hk := by
    rw [setCall_calls] at hk
    by_cases hkj : k = j
    · rw [if_pos hkj] at hk
      exact absurd hk (hc t a)
    · rw [if_neg hkj] at hk
      exact h.held k t a hk

theorem split_step {s : System Q} {p : System Q × Record Q} {i : Label Q} {es : List (Answer Q)} {popped : List (Sample Q Int)}
    (h : Split p popped) (hfed : Fed p i) (hst : Stepped p.1 i s es) : ∃ popped', Split (s, p.2.note i) popped' := by
  cases hst with
  | push v =>
    obtain ⟨hlater, hroom⟩ := hfed v rfl
    refine ⟨popped, ?_, rising_snoc.2 ⟨h.rising, hlater⟩, h.held⟩
    simp only [Record.note]
    rw [h.received, ThreadSafeQueue.push_of_lt hroom, List.append_assoc]
  | opening hopen hpop =>
    obtain ⟨hrec, hheld⟩ := h.pop hpop
    exact ⟨_, hrec, h.rising, fun j t x hx => ⟨(hheld j t x hx).1, Or.inr ⟨nofun, (hheld j t x hx).2⟩⟩⟩
  | @call j t =>
    have hset := h.setCall j (c := some (.seeking t)) nofun
    exact ⟨popped, hset.received, hset.rising, hset.held⟩
  | @pop j t a queue hcall hpop =>
    obtain ⟨hrec, hheld⟩ := h.pop hpop
    refine ⟨popped ++ [a], hrec, h.rising, fun k u x hx => ?_⟩
    rw [setCall_calls] at hx
    by_cases hkj : k = j
    · rw [if_pos hkj, Option.some.injEq, Call.holding.injEq] at hx
      obtain ⟨-, rfl⟩ := hx
      exact ⟨List.mem_append_right _ (List.mem_singleton_self a), Or.inl ⟨by rw [hkj]; rfl, popped, rfl⟩⟩
    · rw [if_neg hkj] at hx
      refine ⟨(hheld k u x hx).1, Or.inr ⟨fun hpopper => hkj ?_, (hheld k u x hx).2⟩⟩
      exact (Option.some.inj hpopper).symm
  | answer hcall hfront hturn => exact ⟨popped, h.setCall _ nofun⟩
  | again hcall hfront hturn => exact ⟨popped, h.setCall _ nofun⟩

/-! ## When an answer is right -/

theorem turn_eq_some {a b : Sample Q Int} {t : Int} {r : Interpolation Q} (h : turn a b t = some r) :
    r = interpolate a b t ∧ (t < a.time ∨ (a.time < t ∧ t ≤ b.time)) := by
  unfold turn at h
  dsimp only at h
  split at h
  · exact ⟨(Option.some.inj h).symm, Or.inl ‹_›⟩
  · split at h
    · cases h
    · exact ⟨(Option.some.inj h).symm, Or.inr (not_not.1 ‹_›)⟩

/-- **What a call answers is right iff the sample it holds lies before its time and is the newest one popped.** -/
theorem brackets_iff {p : System Q × Record Q} {popped : List (Sample Q Int)} (h : Split p popped) {j : Nat} {t : Int}
    {a b : Sample Q Int} {r : Interpolation Q} (hcall : p.1.calls j = some (.holding t a))
    (hfront : p.1.queue.front = some b) (hturn : turn a b t = some r) :
    r.Brackets p.2.received t ↔ a.time < t ∧ p.2.popper = some j := by
  obtain ⟨rfl, hend⟩ := turn_eq_some hturn
  obtain ⟨rest, hq⟩ := ThreadSafeQueue.queue_of_front hfront
  have hrec : p.2.received = popped ++ b :: rest := by rw [h.received, hq]
  have hrise := h.rising
  rw [hrec] at hrise ⊢
  constructor
  · intro hb
    have hlo : a.time ≤ t := hb.lower
    refine ⟨?_, ?_⟩
    · rcases hend with hlt | hin
      · omega
      · exact hin.1
    · rcases (h.held j t a hcall).2 with ⟨hpopper, -⟩ | ⟨-, s, hs, hlater⟩
      · exact hpopper
      · have hno := hb.adjacent.not_taken_since hrise List.mem_cons_self hs
        exact absurd hlater (not_lt.2 hno)
  · rintro ⟨hlt, hpopper⟩
    rcases (h.held j t a hcall).2 with ⟨-, older, rfl⟩ | ⟨hne, -⟩
    · refine interpolate_brackets hrise.adjacent hlt.le ?_
      rcases hend with hbefore | hin
      · omega
      · exact hin.2
    · exact absurd hpopper hne


/-! ## Which calls come to a right answer -/

/-- The call holds the newest sample popped, from before its time, or one from before its time is next. -/
def Sound (p : System Q × Record Q) (j : Nat) (c : Call Q) : Prop :=
  (∃ a, c = .holding c.time a ∧ a.time < c.time ∧ p.2.popper = some j) ∨ Ahead p.1.queue c.time

theorem sound_seeking {p : System Q × Record Q} {j : Nat} {t : Int} : Sound p j (.seeking t) ↔ Ahead p.1.queue t := by
  simp [Sound, Call.time]

theorem sound_holding {p : System Q × Record Q} {j : Nat} {t : Int} {a : Sample Q Int} :
    Sound p j (.holding t a) ↔ (a.time < t ∧ p.2.popper = some j) ∨ Ahead p.1.queue t := by
  simp [Sound, Call.time]

/-- A popped sample lies before the next one. -/
theorem Split.lt_front {p : System Q × Record Q} {popped : List (Sample Q Int)} (h : Split p popped) {a b : Sample Q Int}
    (ha : a ∈ popped) (hfront : p.1.queue.front = some b) : a.time < b.time := by
  obtain ⟨rest, hq⟩ := ThreadSafeQueue.queue_of_front hfront
  have hrise := h.rising
  rw [h.received, hq] at hrise
  exact hrise.taken_lt ha List.mem_cons_self

/-- What a sound call answers is right. -/
theorem Sound.brackets {p : System Q × Record Q} {popped : List (Sample Q Int)} (h : Split p popped) {j : Nat} {t : Int}
    {a b : Sample Q Int} {r : Interpolation Q} (hcall : p.1.calls j = some (.holding t a))
    (hsound : Sound p j (.holding t a)) (hfront : p.1.queue.front = some b) (hturn : turn a b t = some r) :
    r.Brackets p.2.received t := by
  rcases sound_holding.1 hsound with hnewest | ⟨b', hb', hlt⟩
  · exact (brackets_iff h hcall hfront hturn).2 hnewest
  · rw [hfront, Option.some.injEq] at hb'
    subst hb'
    have hab := h.lt_front (h.held j t a hcall).1 hfront
    obtain ⟨-, hend⟩ := turn_eq_some hturn
    omega

/-- A sound call that goes on finds a sample before its time again. -/
theorem Sound.again {p : System Q × Record Q} {j : Nat} {t : Int} {a b : Sample Q Int} (hsound : Sound p j (.holding t a))
    (hfront : p.1.queue.front = some b) (hturn : turn a b t = none) : Ahead p.1.queue t := by
  rcases sound_holding.1 hsound with ⟨hlt, -⟩ | hahead
  · refine ⟨b, hfront, ?_⟩
    unfold turn at hturn
    rw [if_neg (by omega)] at hturn
    by_contra hge
    rw [if_neg (not_not.2 ⟨hlt, by omega⟩)] at hturn
    cases hturn
  · exact hahead

/-- A step of its own thread leaves a call that is not sound so, and what it answers is wrong. -/
theorem unsound_step {s : System Q} {p : System Q × Record Q} {i : Label Q} {es : List (Answer Q)}
    {popped : List (Sample Q Int)} {j : Nat} (h : Split p popped) (hun : ∀ c, p.1.calls j = some c → ¬ Sound p j c)
    (hi : i = .pop j ∨ i = .front j) (hst : Stepped p.1 i s es) :
    (∀ c, s.calls j = some c → ¬ Sound (s, p.2.note i) j c) ∧ ∀ e ∈ es, ¬ e.result.Brackets p.2.received e.t := by
  cases hst with
  | push v => simp at hi
  | opening hopen hpop => simp at hi
  | call hopen hnone => simp at hi
  | @pop k t a queue hcall hpop =>
    obtain rfl : k = j := by simpa using hi
    have hnot := sound_seeking.not.1 (hun _ hcall)
    have hqueue := ThreadSafeQueue.queue_of_pop hpop
    have hat : ¬ a.time < t := fun hlt => hnot ⟨a, by rw [ThreadSafeQueue.front, hqueue]; rfl, hlt⟩
    refine ⟨fun c hc => ?_, nofun⟩
    rw [setCall_calls, if_pos rfl, Option.some.injEq] at hc
    subst hc
    rw [sound_holding, not_or]
    refine ⟨fun hnewest => hat hnewest.1, ?_⟩
    rintro ⟨b, (hb : queue.front = some b), hbt⟩
    obtain ⟨rest, hrest⟩ := ThreadSafeQueue.queue_of_front hb
    have hrise := h.rising
    rw [h.received, hqueue] at hrise
    have hab : a.time < b.time :=
      List.rel_of_pairwise_cons (List.pairwise_append.1 hrise).2.1 (by rw [hrest]; exact List.mem_cons_self)
    omega
  | @answer k t a b r hcall hfront hturn =>
    obtain rfl : k = j := by simpa using hi
    refine ⟨fun c hc => ?_, fun e he hright => ?_⟩
    · rw [setCall_calls, if_pos rfl] at hc
      cases hc
    · rw [List.mem_singleton.1 he] at hright
      exact hun _ hcall (sound_holding.2 (Or.inl ((brackets_iff h hcall hfront hturn).1 hright)))
  | @again k t a b hcall hfront hturn =>
    obtain rfl : k = j := by simpa using hi
    refine ⟨fun c hc => ?_, nofun⟩
    rw [setCall_calls, if_pos rfl, Option.some.injEq] at hc
    subst hc
    exact sound_seeking.not.2 fun hahead => hun _ hcall (sound_holding.2 (Or.inr hahead))

theorem note_received {r : Record Q} {i : Label Q} {j : Nat} (hi : i = .pop j ∨ i = .front j) :
    (r.note i).received = r.received := by
  rcases hi with rfl | rfl <;> rfl

theorem fed_of_alone {p : System Q × Record Q} {i : Label Q} {j : Nat} (hi : i = .pop j ∨ i = .front j) : Fed p i := by
  rintro v rfl
  simp at hi

/-- **Left alone, a call that is not sound answers nothing right.** -/
theorem unsound_run {j : Nat} : ∀ {is : List (Label Q)} {p q : System Q × Record Q} {popped : List (Sample Q Int)}
    {o : List (Answer Q)}, Split p popped → (∀ c, p.1.calls j = some c → ¬ Sound p j c) →
    (∀ i ∈ is, i = .pop j ∨ i = .front j) → (recorded Q).run p is = some (q, o) →
    ∀ e ∈ o, ¬ e.result.Brackets p.2.received e.t
  | [], p, q, popped, o, _, _, _, hrun => by
    simp only [Machine.run_nil, Option.some.injEq, Prod.mk.injEq] at hrun
    rw [← hrun.2]
    nofun
  | i :: is, p, q, popped, o, h, hun, halone, hrun => by
    obtain ⟨⟨s, r⟩, es, o', hst, hrun', rfl⟩ := Machine.run_cons.1 hrun
    obtain ⟨hstep, rfl⟩ := recorded_step.1 hst
    have hi := halone i List.mem_cons_self
    obtain ⟨hun', hes⟩ := unsound_step h hun hi hstep
    obtain ⟨popped', h'⟩ := split_step h (fed_of_alone hi) hstep
    have hrest := unsound_run h' hun' (fun k hk => halone k (List.mem_cons_of_mem i hk)) hrun'
    simp only [note_received hi] at hrest
    intro e he
    rcases List.mem_append.1 he with he | he
    · exact hes e he
    · exact hrest e he

/-- A step of its own thread that answers nothing, and what comes of the call after it. -/
theorem Comes.of_step {s : System Q} {p : System Q × Record Q} {i : Label Q} {j : Nat} {c d : Call Q}
    (hi : i = .pop j ∨ i = .front j) (hst : Stepped p.1 i s []) (htime : d.time = c.time)
    (h : Comes (s, p.2.note i) j d) : Comes p j c := by
  obtain ⟨is, q, e, halone, hrun, hj, ht, hright⟩ := h
  refine ⟨i :: is, q, e, ?_, ?_, hj, ht.trans htime, ?_⟩
  · intro k hk
    rcases List.mem_cons.1 hk with rfl | hk
    · exact hi
    · exact halone k hk
  · exact Machine.run_cons.2 ⟨_, [], [e], recorded_step.2 ⟨hst, rfl⟩, hrun, rfl⟩
  · simp only [note_received hi] at hright
    exact hright

/-- The sample that `t` waits for is still queued. -/
theorem Split.exists_front {p : System Q × Record Q} {popped : List (Sample Q Int)} (h : Split p popped) {t : Int}
    {a v : Sample Q Int} (hv : v ∈ p.2.received) (htv : t ≤ v.time) (hlast : ∃ older, popped = older ++ [a])
    (hat : a.time < t) : ∃ b, p.1.queue.front = some b := by
  obtain ⟨older, rfl⟩ := hlast
  rw [h.received] at hv
  rcases List.mem_append.1 hv with hv | hv
  · have hrise := h.rising
    rw [h.received] at hrise
    rcases List.mem_append.1 hv with hv | hv
    · have hva := (List.pairwise_append.1 (List.pairwise_append.1 hrise).1).2.2 v hv a (List.mem_singleton_self a)
      omega
    · rw [List.mem_singleton.1 hv] at htv
      omega
  · exact ⟨_, List.head?_eq_some_head (List.ne_nil_of_mem hv)⟩

/-- The turns of the loop still to go: a look, and a pop and a look for each sample queued. -/
def Call.turns (c : Call Q) (queue : ThreadSafeQueue (Sample Q Int) false) : Nat :=
  match c with
  | .seeking _ => 2 * queue.queue.length
  | .holding _ _ => 2 * queue.queue.length + 1

/-- **Left alone, a sound call comes to a right answer.** -/
theorem comes_of_sound {p : System Q × Record Q} {popped : List (Sample Q Int)} {j : Nat} {c : Call Q} (h : Split p popped)
    (hcall : p.1.calls j = some c) (hasked : ∃ v ∈ p.2.received, c.time ≤ v.time) (hsound : Sound p j c) : Comes p j c := by
  match c with
  | .seeking t =>
    obtain ⟨a, hfront, hat⟩ := sound_seeking.1 hsound
    obtain ⟨queue, hpop⟩ := ThreadSafeQueue.pop_of_front hfront
    have hst := Stepped.pop hcall hpop
    obtain ⟨popped', h'⟩ := split_step h (fed_of_alone (Or.inl rfl)) hst
    refine Comes.of_step (Or.inl rfl) hst rfl (comes_of_sound (c := .holding t a) h' ?_ hasked ?_)
    · rw [setCall_calls, if_pos rfl]
    · exact sound_holding.2 (Or.inl ⟨hat, rfl⟩)
  | .holding t a =>
    obtain ⟨b, hfront⟩ : ∃ b, p.1.queue.front = some b := by
      rcases sound_holding.1 hsound with ⟨hat, hpopper⟩ | ⟨b, hb, -⟩
      · obtain ⟨v, hv, htv⟩ := hasked
        rcases (h.held j t a hcall).2 with ⟨-, hlast⟩ | ⟨hne, -⟩
        · exact h.exists_front hv htv hlast hat
        · exact absurd hpopper hne
      · exact ⟨b, hb⟩
    cases hturn : turn a b t with
    | some r =>
      have hst : (recorded Q).step p (.front j) = some ((p.1.setCall j none, p.2), [⟨j, t, r⟩]) :=
        recorded_step.2 ⟨.answer hcall hfront hturn, rfl⟩
      exact ⟨[.front j], _, _, by simp, Machine.run_cons.2 ⟨_, _, [], hst, rfl, rfl⟩, rfl, rfl,
        hsound.brackets h hcall hfront hturn⟩
    | none =>
      have hst := Stepped.again hcall hfront hturn
      obtain ⟨popped', h'⟩ := split_step h (fed_of_alone (Or.inr rfl)) hst
      refine Comes.of_step (Or.inr rfl) hst rfl (comes_of_sound (c := .seeking t) h' ?_ hasked ?_)
      · rw [setCall_calls, if_pos rfl]
      · exact sound_seeking.2 (hsound.again hfront hturn)
termination_by c.turns p.1.queue
decreasing_by
  · have hqueue := ThreadSafeQueue.queue_of_pop hpop
    simp only [Call.turns, hqueue, List.length_cons, System.setCall]
    omega
  · simp only [Call.turns, System.setCall]
    omega

theorem comes_iff_sound {p : System Q × Record Q} {popped : List (Sample Q Int)} {j : Nat} {c : Call Q} (h : Split p popped)
    (hcall : p.1.calls j = some c) (hasked : ∃ v ∈ p.2.received, c.time ≤ v.time) : Comes p j c ↔ Sound p j c := by
  refine ⟨fun hcomes => ?_, comes_of_sound h hcall hasked⟩
  obtain ⟨is, q, e, halone, hrun, -, -, hright⟩ := hcomes
  by_contra hun
  refine unsound_run h (fun d hd => ?_) halone hrun e (List.mem_singleton_self e) hright
  rw [hcall, Option.some.injEq] at hd
  exact hd ▸ hun

/-! ## When all calls come to right answers -/

/-- Before the constructor's pop no call is under way; no call asks for a time after the newest sample. -/
structure Settled (p : System Q × Record Q) : Prop where
  split : ∃ popped, Split p popped
  closed : p.1.opened = false → ∀ j, p.1.calls j = none
  asked : ∀ j c, p.1.calls j = some c → ∃ v ∈ p.2.received, c.time ≤ v.time

theorem settled_init {s : System Q} (hs : s = gimbal Q ∨ s = gimbalROS Q) : Settled (s, Record.empty Q) := by
  refine ⟨⟨[], split_init hs⟩, ?_, ?_⟩ <;> rcases hs with rfl | rfl <;> intros <;> simp_all [gimbal, gimbalROS]

/-- A call set, as the others see it. -/
theorem forall_setCall {s : System Q} {j : Nat} {c : Option (Call Q)} {P : Nat → Call Q → Prop} :
    (∀ k d, (s.setCall j c).calls k = some d → P k d) ↔
      (∀ d, c = some d → P j d) ∧ ∀ k d, k ≠ j → s.calls k = some d → P k d := by
  constructor
  · intro h
    refine ⟨fun d hd => h j d (by rw [setCall_calls, if_pos rfl, hd]), fun k d hkj hk => h k d ?_⟩
    rw [setCall_calls, if_neg hkj, hk]
  · rintro ⟨hj, hrest⟩ k d hk
    rw [setCall_calls] at hk
    by_cases hkj : k = j
    · rw [if_pos hkj] at hk
      exact hkj ▸ hj d hk
    · rw [if_neg hkj] at hk
      exact hrest k d hkj hk

theorem settled_step {s : System Q} {p : System Q × Record Q} {i : Label Q} {es : List (Answer Q)} (h : Settled p)
    (hfed : Fed p i) (hasked : Asked p i) (hst : Stepped p.1 i s es) : Settled (s, p.2.note i) := by
  obtain ⟨popped, hsplit⟩ := h.split
  have hset : ∀ {j : Nat} {c : Call Q}, p.1.calls j = some c → p.1.opened = false → False := fun hcall hclosed => by
    rw [h.closed hclosed] at hcall
    cases hcall
  refine ⟨split_step hsplit hfed hst, ?_, ?_⟩
  · cases hst with
    | push v => exact h.closed
    | opening hopen hpop => nofun
    | call hopen hnone => exact fun hclosed => absurd (hopen.symm.trans hclosed) nofun
    | pop hcall hpop => exact fun hclosed => (hset hcall hclosed).elim
    | answer hcall hfront hturn => exact fun hclosed => (hset hcall hclosed).elim
    | again hcall hfront hturn => exact fun hclosed => (hset hcall hclosed).elim
  · cases hst with
    | push v =>
      intro k c hk
      obtain ⟨w, hw, hle⟩ := h.asked k c hk
      exact ⟨w, List.mem_append_left _ hw, hle⟩
    | opening hopen hpop => exact h.asked
    | @call j t hopen hnone =>
      refine forall_setCall.2 ⟨?_, fun k d _ => h.asked k d⟩
      rintro d ⟨rfl⟩
      obtain ⟨-, -, v, hv, hle⟩ := hasked j t rfl
      exact ⟨v, List.mem_of_getLast? hv, hle⟩
    | @pop j t a queue hcall hpop =>
      refine forall_setCall.2 ⟨?_, fun k d _ => h.asked k d⟩
      rintro d ⟨rfl⟩
      exact h.asked j (.seeking t) hcall
    | answer hcall hfront hturn => exact forall_setCall.2 ⟨nofun, fun k d _ => h.asked k d⟩
    | @again j t a b hcall hfront hturn =>
      refine forall_setCall.2 ⟨?_, fun k d _ => h.asked k d⟩
      rintro d ⟨rfl⟩
      exact h.asked j (.holding t a) hcall

/-- Every call under way is sound. -/
def AllSound (p : System Q × Record Q) : Prop := ∀ j c, p.1.calls j = some c → Sound p j c

/-- **A step that is in time leaves every call sound, and no other does.** -/
theorem allSound_step {s : System Q} {p : System Q × Record Q} {i : Label Q} {es : List (Answer Q)} (h : Settled p)
    (hall : AllSound p) (hfed : Fed p i) (hst : Stepped p.1 i s es) : AllSound (s, p.2.note i) ↔ InTime p i := by
  cases hst with
  | push v =>
    obtain ⟨-, hroom⟩ := hfed v rfl
    refine ⟨fun _ => trivial, fun _ k c hk => (hall k c hk).imp id ?_⟩
    rintro ⟨b, hb, hlt⟩
    obtain ⟨rest, hq⟩ := ThreadSafeQueue.queue_of_front hb
    refine ⟨b, ?_, hlt⟩
    dsimp only
    rw [ThreadSafeQueue.front, ThreadSafeQueue.push_of_lt hroom, hq]
    rfl
  | opening hopen hpop =>
    refine ⟨fun _ => trivial, fun _ k c hk => ?_⟩
    rw [h.closed hopen k] at hk
    cases hk
  | @call j t hopen hnone =>
    refine forall_setCall.trans ⟨fun hq _ _ => sound_seeking.1 (hq.1 _ rfl), fun hin => ⟨?_, fun k c _ hk => hall k c hk⟩⟩
    rintro d ⟨rfl⟩
    exact sound_seeking.2 (hin hopen hnone)
  | @pop j t a queue hcall hpop =>
    obtain ⟨b, hb, hbt⟩ := sound_seeking.1 (hall j _ hcall)
    have hqueue := ThreadSafeQueue.queue_of_pop hpop
    obtain ⟨rest, hrest⟩ := ThreadSafeQueue.queue_of_front hb
    obtain ⟨rfl, -⟩ := List.cons.inj (hqueue.symm.trans hrest)
    have hother : ∀ k c, k ≠ j → (Sound ({ p.1 with queue := queue }.setCall j (some (.holding t a)), p.2.note (.pop j)) k c ↔
        Ahead queue c.time) := fun k c hkj => by
      have hpopper : some j ≠ some k := fun hjk => hkj (Option.some.inj hjk).symm
      simp [Sound, Record.note, System.setCall, hpopper]
    refine forall_setCall.trans ⟨fun hq u hu x queue' hx k c hkj hk => ?_, fun hin => ⟨?_, fun k c hkj hk => ?_⟩⟩
    · rw [hpop, Option.some.injEq, Prod.mk.injEq] at hx
      exact hx.2 ▸ (hother k c hkj).1 (hq.2 k c hkj hk)
    · rintro d ⟨rfl⟩
      exact sound_holding.2 (Or.inl ⟨hbt, rfl⟩)
    · exact (hother k c hkj).2 (hin t hcall a queue hpop k c hkj hk)
  | @answer j t a b r hcall hfront hturn =>
    exact ⟨fun _ => trivial, fun _ => forall_setCall.2 ⟨nofun, fun k c _ hk => hall k c hk⟩⟩
  | @again j t a b hcall hfront hturn =>
    refine ⟨fun _ => trivial, fun _ => forall_setCall.2 ⟨?_, fun k c _ hk => hall k c hk⟩⟩
    rintro d ⟨rfl⟩
    exact sound_seeking.2 ((hall j _ hcall).again hfront hturn)

/-- While all calls are sound, no answer is wrong. -/
theorem brackets_of_allSound {s : System Q} {p : System Q × Record Q} {i : Label Q} {es : List (Answer Q)} (h : Settled p)
    (hall : AllSound p) (hst : Stepped p.1 i s es) : ∀ e ∈ es, e.result.Brackets p.2.received e.t := by
  obtain ⟨popped, hsplit⟩ := h.split
  cases hst with
  | answer hcall hfront hturn =>
    intro e he
    rw [List.mem_singleton.1 he]
    exact (hall _ _ hcall).brackets hsplit hcall hfront hturn
  | push v => nofun
  | opening hopen hpop => nofun
  | call hopen hnone => nofun
  | pop hcall hpop => nofun
  | again hcall hfront hturn => nofun

theorem allSound_iff_comes {p : System Q × Record Q} (h : Settled p) :
    AllSound p ↔ ∀ j c, p.1.calls j = some c → Comes p j c := by
  obtain ⟨popped, hsplit⟩ := h.split
  exact forall₂_congr fun j c => imp_congr_right fun hc => (comes_iff_sound hsplit hc (h.asked j c hc)).symm

theorem answers_iff_inTime {p : System Q × Record Q} (h : Settled p) (hall : AllSound p) {i : Label Q} (hfed : Fed p i)
    (hasked : Asked p i) : Answers p i ↔ InTime p i := by
  constructor
  · intro hans
    have hgive : ∀ {s es}, Stepped p.1 i s es → InTime p i := fun hst =>
      (allSound_step h hall hfed hst).1
        ((allSound_iff_comes (settled_step h hfed hasked hst)).2 (hans _ _ (recorded_step.2 ⟨hst, rfl⟩)).2)
    cases i with
    | push v => trivial
    | opening => trivial
    | call j t => exact fun hopen hnone => hgive (.call hopen hnone) hopen hnone
    | pop j => exact fun t hcall a queue hpop => hgive (.pop hcall hpop) t hcall a queue hpop
    | front j => trivial
  · rintro hin ⟨s, r⟩ es hst
    obtain ⟨hstep, rfl⟩ := recorded_step.1 hst
    exact ⟨brackets_of_allSound h hall hstep,
      (allSound_iff_comes (settled_step h hfed hasked hstep)).1 ((allSound_step h hall hfed hstep).2 hin)⟩

/-- **In every interleaving, all calls come to answers taken between neighbours around their times iff each call begins while
a sample before its time is next, and each pop leaves one for every other call under way.** -/
theorem q_answers_iff {s : System Q} (hs : s = gimbal Q ∨ s = gimbalROS Q) (is : List (Label Q))
    (hfed : (recorded Q).Along (fun p i => Fed p i ∧ Asked p i) (s, Record.empty Q) is) :
    (recorded Q).Along Answers (s, Record.empty Q) is ↔ (recorded Q).Along InTime (s, Record.empty Q) is := by
  refine Machine.along_congr (I := fun p => Settled p ∧ AllSound p)
    (fun p i h hf => answers_iff_inTime h.1 h.2 hf.1 hf.2) (fun p i q es h hf hans hst => ?_)
    ⟨settled_init hs, fun j c hc => ?_⟩ hfed
  · obtain ⟨t, r⟩ := q
    obtain ⟨hstep, rfl⟩ := recorded_step.1 hst
    have hsettled := settled_step h.1 hf.1 hf.2 hstep
    exact ⟨hsettled, (allSound_iff_comes hsettled).2 (hans _ _ hst).2⟩
  · rcases hs with rfl | rfl <;> cases hc

/-- Two callers, the second under way while the first pops twice. -/
def twoCallers : List (Label String) :=
  [.push ⟨"a", 0⟩, .push ⟨"b", 10⟩, .push ⟨"c", 20⟩, .push ⟨"d", 30⟩, .call 0 15, .pop 0, .call 1 25, .front 0, .pop 0, .front 0,
    .pop 1, .front 1]

theorem q_answers_iff_twoCallers : (recorded String).Along Answers (gimbalROS String, Record.empty String) twoCallers := by
  refine (q_answers_iff (Or.inr rfl) twoCallers ?_).2 ?_
  · iterate 4
      refine (Machine.along_cons_of_step rfl).2 ⟨⟨?_, nofun⟩, ?_⟩
      · rintro _ ⟨rfl⟩
        exact ⟨by decide, by decide⟩
    refine (Machine.along_cons_of_step rfl).2 ⟨⟨nofun, ?_⟩, ?_⟩
    · rintro _ _ ⟨rfl, rfl⟩
      exact ⟨nofun, ⟨_, rfl, by decide⟩, ⟨_, rfl, by decide⟩⟩
    refine (Machine.along_cons_of_step rfl).2 ⟨⟨nofun, nofun⟩, ?_⟩
    refine (Machine.along_cons_of_step rfl).2 ⟨⟨nofun, ?_⟩, ?_⟩
    · rintro _ _ ⟨rfl, rfl⟩
      exact ⟨by decide, ⟨_, rfl, by decide⟩, ⟨_, rfl, by decide⟩⟩
    iterate 5 refine (Machine.along_cons_of_step rfl).2 ⟨⟨nofun, nofun⟩, ?_⟩
    trivial
  · iterate 4 refine (Machine.along_cons_of_step rfl).2 ⟨trivial, ?_⟩
    refine (Machine.along_cons_of_step rfl).2 ⟨fun _ _ => ⟨_, rfl, by decide⟩, ?_⟩
    refine (Machine.along_cons_of_step rfl).2 ⟨?_, ?_⟩
    · rintro _ - _ _ ⟨rfl⟩ (_ | k) c hk hc
      · exact absurd rfl hk
      · cases hc
    refine (Machine.along_cons_of_step rfl).2 ⟨fun _ _ => ⟨_, rfl, by decide⟩, ?_⟩
    refine (Machine.along_cons_of_step rfl).2 ⟨trivial, ?_⟩
    refine (Machine.along_cons_of_step rfl).2 ⟨?_, ?_⟩
    · rintro _ - _ _ ⟨rfl⟩ (_ | _ | k) c hk hc
      · exact absurd rfl hk
      · rw [← Option.some.inj hc]
        exact ⟨_, rfl, by decide⟩
      · cases hc
    refine (Machine.along_cons_of_step rfl).2 ⟨trivial, ?_⟩
    refine (Machine.along_cons_of_step rfl).2 ⟨?_, ?_⟩
    · rintro _ - _ _ ⟨rfl⟩ (_ | _ | k) c hk hc
      · cases hc
      · exact absurd rfl hk
      · cases hc
    refine (Machine.along_cons_of_step rfl).2 ⟨trivial, ?_⟩
    trivial

/-- Two queries between the same two samples. -/
def twoQueries : List (Label String) :=
  [.push ⟨"a", 0⟩, .push ⟨"b", 10⟩, .push ⟨"c", 20⟩, .call 0 5, .pop 0, .front 0, .call 0 7, .pop 0, .front 0]

/-- **The second query between the same two samples is answered from the next two, before the first of them.** -/
theorem second_query_extrapolates :
    (recorded String).Along (fun p i => Fed p i ∧ Asked p i) (gimbalROS String, Record.empty String) twoQueries ∧
      ¬ (recorded String).Along Answers (gimbalROS String, Record.empty String) twoQueries := by
  refine ⟨?_, fun h => ?_⟩
  · iterate 3
      refine (Machine.along_cons_of_step rfl).2 ⟨⟨?_, nofun⟩, ?_⟩
      · rintro _ ⟨rfl⟩
        exact ⟨by decide, by decide⟩
    refine (Machine.along_cons_of_step rfl).2 ⟨⟨nofun, ?_⟩, ?_⟩
    · rintro _ _ ⟨rfl, rfl⟩
      exact ⟨nofun, ⟨_, rfl, by decide⟩, ⟨_, rfl, by decide⟩⟩
    iterate 2 refine (Machine.along_cons_of_step rfl).2 ⟨⟨nofun, nofun⟩, ?_⟩
    refine (Machine.along_cons_of_step rfl).2 ⟨⟨nofun, ?_⟩, ?_⟩
    · rintro _ _ ⟨rfl, rfl⟩
      exact ⟨by decide, ⟨_, rfl, by decide⟩, ⟨_, rfl, by decide⟩⟩
    iterate 2 refine (Machine.along_cons_of_step rfl).2 ⟨⟨nofun, nofun⟩, ?_⟩
    trivial
  · iterate 8 replace h := h.2 _ _ rfl
    have hright := (h.1 _ _ rfl).1 _ (List.mem_singleton_self _)
    exact absurd hright.lower (by decide)

end Attitude

end Vision
end LfSentry
