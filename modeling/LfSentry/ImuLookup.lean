import LfSentry.Attitude
/-!
# ImuLookup — the attitude at a time, from a kept pair of samples (`io/cboard.cpp`, `io/dm_imu/dm_imu.cpp`)

`imu_at(t)` keeps the last two samples it took from one call to the next.  It always pops once more before it looks
whether the sample behind already lies after `t`: so a call whose time the kept pair encloses skips a sample.  An answer
is taken between neighbours iff the call was made after the time of the sample behind (`imuAt_neighbouring_iff`); it
always encloses its time (`enclosed_along`).
-/
namespace LfSentry
namespace Vision

open Samples

variable {Q : Type}

namespace Imu

/-- What the object is about to do: the two pops of its constructor, nothing, or the next pop of `imu_at(t)`. -/
inductive Phase (Q : Type)
  | openAhead
  | openBehind (dataAhead : Sample Q Int)
  | idle (dataAhead dataBehind : Sample Q Int)
  | looking (t : Int) (dataAhead dataBehind : Sample Q Int)
  deriving DecidableEq, Repr

structure System (Q : Type) where
  queue : ThreadSafeQueue (Sample Q Int) false
  phase : Phase Q

def cboard (Q : Type) : System Q := ⟨.empty _ _ 5000 (by decide), .openAhead⟩

def dmImu (Q : Type) : System Q := ⟨.empty _ _ 5000 (by decide), .openAhead⟩

inductive Label (Q : Type)
  | push (v : Sample Q Int)
  | imuAt (t : Int)
  | pop
  deriving DecidableEq, Repr

structure Answer (Q : Type) where
  t : Int
  result : Interpolation Q
  deriving DecidableEq, Repr

/-- A pop of the constructor or of the loop of `imu_at`, by what it takes. -/
def take (phase : Phase Q) (v : Sample Q Int) : Phase Q × List (Answer Q) :=
  match phase with
  | .openAhead => (.openBehind v, [])
  | .openBehind dataAhead => (.idle dataAhead v, [])
  | .idle dataAhead dataBehind => (.idle dataAhead dataBehind, [])
  | .looking t dataAhead _ =>
    if v.time > t then (.idle dataAhead v, [⟨t, interpolate dataAhead v t⟩])
    else (.looking t v v, [])

/-- The receiving thread and the one that calls `imu_at`. -/
def lookup (Q : Type) : Machine (System Q) (Label Q) (Answer Q) where
  step s
    | .push v => some ({ s with queue := s.queue.push v }, [])
    | .imuAt t =>
      match s.phase with
      | .idle dataAhead dataBehind =>
        let dataAhead := if dataBehind.time < t then dataBehind else dataAhead
        some ({ s with phase := .looking t dataAhead dataBehind }, [])
      | _ => none
    | .pop =>
      match s.phase with
      | .idle _ _ => none
      | phase => s.queue.pop.map fun r => let p := take phase r.1; (⟨r.2, p.1⟩, p.2)

/-! ## The samples received -/

/-- The samples pushed and the query times so far, and whether the last call was made after the sample behind. -/
structure Record (Q : Type) where
  received : List (Sample Q Int)
  asked : List Int
  late : Bool

def Record.empty (Q : Type) : Record Q := ⟨[], [], false⟩

def Record.note (r : Record Q) (s : System Q) : Label Q → Record Q
  | .push v => { r with received := r.received ++ [v] }
  | .imuAt t =>
    match s.phase with
    | .idle _ dataBehind => { r with asked := t :: r.asked, late := decide (dataBehind.time < t) }
    | _ => r
  | .pop => r

def recorded (Q : Type) : Machine (System Q × Record Q) (Label Q) (Answer Q) :=
  (lookup Q).ghost fun r s i _ => r.note s i

/-- Samples are pushed in the order of time, and the queue has room for them. -/
def Fed (p : System Q × Record Q) (i : Label Q) : Prop :=
  ∀ v, i = .push v → (∀ r ∈ p.2.received, r.time < v.time) ∧ p.1.queue.queue.length < p.1.queue.maxSize

/-- Query times do not go back and start at the first sample received. -/
def Asked (p : System Q × Record Q) (i : Label Q) : Prop :=
  ∀ t, i = .imuAt t → (∀ u ∈ p.2.asked, u ≤ t) ∧ ∃ v, p.2.received.head? = some v ∧ v.time ≤ t

/-- The answer encloses its time: the division is not by zero. -/
def Enclosed (p : System Q × Record Q) (i : Label Q) : Prop :=
  ∀ q es, (recorded Q).step p i = some (q, es) → ∀ e ∈ es, e.result.a.time ≤ e.t ∧ e.t < e.result.b.time

/-- The answer encloses its time between neighbours. -/
def Neighbouring (p : System Q × Record Q) (i : Label Q) : Prop :=
  ∀ q es, (recorded Q).step p i = some (q, es) → ∀ e ∈ es,
    (e.result.a.time ≤ e.t ∧ e.t < e.result.b.time) ∧ e.result.Brackets p.2.received e.t

/-- A call that returns here was made after the time of the sample behind. -/
def AskedLate (p : System Q × Record Q) (i : Label Q) : Prop :=
  ∀ q es, (recorded Q).step p i = some (q, es) → es ≠ [] → p.2.late = true

/-- Where the kept pair stands among the samples `popped`. -/
inductive Kept : Phase Q → Bool → List (Sample Q Int) → Prop
  | openAhead (late : Bool) : Kept .openAhead late []
  | openBehind (late : Bool) (a : Sample Q Int) : Kept (.openBehind a) late [a]
  | idle (late : Bool) (older : List (Sample Q Int)) (a b : Sample Q Int) (h : a ∈ older) :
      Kept (.idle a b) late (older ++ [b])
  | late (older : List (Sample Q Int)) (t : Int) (a b : Sample Q Int) (h : a.time ≤ t) :
      Kept (.looking t a b) true (older ++ [a])
  | early (older : List (Sample Q Int)) (t : Int) (a b : Sample Q Int) (h : a ∈ older) (ht : t ≤ b.time) :
      Kept (.looking t a b) false (older ++ [b])

structure Split (p : System Q × Record Q) (popped : List (Sample Q Int)) : Prop where
  received : p.2.received = popped ++ p.1.queue.queue
  rising : Rising p.2.received
  kept : Kept p.1.phase p.2.late popped

theorem split_init {s : System Q} (hs : s = cboard Q ∨ s = dmImu Q) : Split (s, Record.empty Q) [] := by
  rcases hs with rfl | rfl <;> exact ⟨rfl, List.Pairwise.nil, .openAhead false⟩

/-- **A pop takes the next sample and moves the pair on by it.** -/
theorem kept_take {phase : Phase Q} {late : Bool} {popped rest : List (Sample Q Int)} {v : Sample Q Int}
    (h : Kept phase late popped) (hrise : Rising (popped ++ v :: rest)) (hidle : ∀ a b, phase ≠ .idle a b) :
    Kept (take phase v).1 late (popped ++ [v]) := by
  cases h with
  | openAhead => exact .openBehind _ v
  | openBehind _ a => exact .idle _ [a] a v (List.mem_singleton_self a)
  | idle _ older a b h => exact absurd rfl (hidle a b)
  | late older t a b h =>
    unfold take
    dsimp only
    split
    · exact .idle _ (older ++ [a]) a v (by simp)
    · exact .late (older ++ [a]) t v v (not_lt.1 ‹_›)
  | early older t a b h ht =>
    have hlt : b.time < v.time := hrise.taken_lt (by simp) List.mem_cons_self
    have hnext : v.time > t := by omega
    rw [take, if_pos hnext]
    exact .idle _ (older ++ [b]) a v (List.mem_append_left _ h)

/-- What a pop does: it takes the next sample for a phase that is not idle. -/
theorem pop_cases {s s' : System Q} {es : List (Answer Q)} (hst : (lookup Q).step s .pop = some (s', es)) :
    (∀ a b, s.phase ≠ .idle a b) ∧ ∃ v, s.queue.queue = v :: s'.queue.queue ∧ s'.phase = (take s.phase v).1 ∧
      es = (take s.phase v).2 := by
  simp only [lookup] at hst
  split at hst
  · cases hst
  · rename_i hidle
    simp only [Option.map_eq_some_iff, Prod.exists, Prod.mk.injEq] at hst
    obtain ⟨v, queue, hpop, rfl, rfl⟩ := hst
    exact ⟨hidle, v, ThreadSafeQueue.queue_of_pop hpop, rfl, rfl⟩

theorem split_step {p q : System Q × Record Q} {i : Label Q} {es : List (Answer Q)} {popped : List (Sample Q Int)}
    (h : Split p popped) (hfed : Fed p i) (hst : (recorded Q).step p i = some (q, es)) : ∃ popped', Split q popped' := by
  obtain ⟨hstep, hnote⟩ := Machine.ghost_step.1 hst
  obtain ⟨s, r⟩ := q
  simp only at hstep hnote
  subst hnote
  cases i with
  | push v =>
    simp only [lookup, Option.some.injEq, Prod.mk.injEq] at hstep
    obtain ⟨rfl, -⟩ := hstep
    obtain ⟨hlater, hroom⟩ := hfed v rfl
    refine ⟨popped, ?_, rising_snoc.2 ⟨h.rising, hlater⟩, h.kept⟩
    simp only [Record.note]
    rw [h.received, ThreadSafeQueue.push_of_lt hroom, List.append_assoc]
  | imuAt t =>
    simp only [lookup] at hstep
    split at hstep
    · rename_i a b hphase
      simp only [Option.some.injEq, Prod.mk.injEq] at hstep
      obtain ⟨rfl, -⟩ := hstep
      have hkept := h.kept
      rw [hphase] at hkept
      refine ⟨popped, ?_, ?_, ?_⟩
      · simpa [Record.note, hphase] using h.received
      · simpa [Record.note, hphase] using h.rising
      · cases hkept with
        | idle _ older _ _ ha =>
          by_cases hlate : b.time < t
          · simpa [Record.note, hphase, hlate] using Kept.late older t b b hlate.le
          · simpa [Record.note, hphase, hlate] using Kept.early older t a b ha (not_lt.1 hlate)
    · cases hstep
  | pop =>
    obtain ⟨hidle, v, hqueue, hphase, -⟩ := pop_cases hstep
    have hrec : p.2.received = popped ++ v :: s.queue.queue := by rw [h.received, hqueue]
    have hrise := h.rising
    rw [hrec] at hrise
    refine ⟨popped ++ [v], ?_, h.rising, ?_⟩
    · rw [List.append_assoc, List.singleton_append]
      exact hrec
    · rw [hphase]
      exact kept_take h.kept hrise hidle

/-! ## When an answer is right -/

/-- Only a pop of `imu_at` answers. -/
theorem answer_cases {s s' : System Q} {i : Label Q} {es : List (Answer Q)} {e : Answer Q}
    (hst : (lookup Q).step s i = some (s', es)) (he : e ∈ es) :
    i = .pop ∧ ∃ a b v, s.phase = .looking e.t a b ∧ s.queue.queue = v :: s'.queue.queue ∧ e.t < v.time ∧
      s'.phase = .idle a v ∧ e.result = interpolate a v e.t := by
  cases i with
  | push v =>
    simp only [lookup, Option.some.injEq, Prod.mk.injEq] at hst
    rw [← hst.2] at he
    cases he
  | imuAt t =>
    simp only [lookup] at hst
    split at hst
    · simp only [Option.some.injEq, Prod.mk.injEq] at hst
      rw [← hst.2] at he
      cases he
    · cases hst
  | pop =>
    obtain ⟨-, v, hqueue, hphase, rfl⟩ := pop_cases hst
    refine ⟨rfl, ?_⟩
    cases hs : s.phase with
    | openAhead =>
      rw [hs] at he
      cases he
    | openBehind a =>
      rw [hs] at he
      cases he
    | idle a b =>
      rw [hs] at he
      cases he
    | looking t a b =>
      rw [hs] at he hphase
      unfold take at he hphase
      dsimp only at he hphase
      split at he
      · rename_i hlater
        rw [if_pos hlater] at hphase
        rw [List.mem_singleton.1 he]
        exact ⟨a, b, v, rfl, hqueue, hlater, hphase, rfl⟩
      · cases he

/-- **What is answered is right iff the call was made after the sample behind.** -/
theorem brackets_iff {p : System Q × Record Q} {popped rest : List (Sample Q Int)} (h : Split p popped) {t : Int}
    {a b v : Sample Q Int} (hphase : p.1.phase = .looking t a b) (hqueue : p.1.queue.queue = v :: rest)
    (hlater : t < v.time) :
    ((a.time ≤ t ∧ t < v.time) ∧ (interpolate a v t).Brackets p.2.received t) ↔ p.2.late = true := by
  have hkept := h.kept
  have hrise := h.rising
  rw [hphase] at hkept
  rw [h.received, hqueue] at hrise ⊢
  generalize p.2.late = late at hkept ⊢
  cases hkept with
  | late older _ _ _ hlo => exact iff_of_true ⟨⟨hlo, hlater⟩, interpolate_brackets hrise.adjacent hlo hlater.le⟩ rfl
  | early older _ _ _ ha ht =>
    refine iff_of_false (fun hright => ?_) Bool.false_ne_true
    have hold : Rising (older ++ [b]) := (List.pairwise_append.1 hrise).1
    have hbetween : b.time ≤ a.time :=
      hright.2.adjacent.not_taken_since hrise List.mem_cons_self (List.mem_append_right _ (List.mem_singleton_self b))
    exact absurd (hold.taken_lt ha (List.mem_singleton_self b)) (not_lt.2 hbetween)

theorem neighbouring_iff_askedLate {p : System Q × Record Q} {popped : List (Sample Q Int)} (h : Split p popped)
    (i : Label Q) : Neighbouring p i ↔ AskedLate p i := by
  constructor
  · intro hn q es hst hne
    obtain ⟨e, he⟩ := List.exists_mem_of_ne_nil es hne
    obtain ⟨rfl, a, b, v, hphase, hqueue, hlater, -, hres⟩ := answer_cases (Machine.ghost_step.1 hst).1 he
    have hright := hn q es hst e he
    rw [hres] at hright
    exact (brackets_iff h hphase hqueue hlater).1 hright
  · intro hl q es hst e he
    obtain ⟨rfl, a, b, v, hphase, hqueue, hlater, -, hres⟩ := answer_cases (Machine.ghost_step.1 hst).1 he
    rw [hres]
    exact (brackets_iff h hphase hqueue hlater).2 (hl q es hst (List.ne_nil_of_mem he))

/-- **In every run, all answers are taken between neighbours around their times iff each call that returns was made after
the time of the sample behind.** -/
theorem imuAt_neighbouring_iff {s : System Q} (hs : s = cboard Q ∨ s = dmImu Q) (is : List (Label Q))
    (hfed : (recorded Q).Along Fed (s, Record.empty Q) is) :
    (recorded Q).Along Neighbouring (s, Record.empty Q) is ↔ (recorded Q).Along AskedLate (s, Record.empty Q) is := by
  refine Machine.along_congr (I := fun p => ∃ popped, Split p popped) (fun p i h _ => ?_) (fun p i q es h hf _ hst => ?_)
    ⟨[], split_init hs⟩ hfed
  · obtain ⟨popped, h⟩ := h
    exact neighbouring_iff_askedLate h i
  · obtain ⟨popped, h⟩ := h
    exact split_step h hf hst

/-- The third sample is here when the first query comes, between the first two. -/
def earlyQuery : List (Label String) :=
  [.push ⟨"a", 0⟩, .pop, .push ⟨"b", 10⟩, .pop, .push ⟨"c", 20⟩, .imuAt 5, .pop]

theorem fed_earlyQuery : (recorded String).Along Fed (cboard String, Record.empty String) earlyQuery := by
  refine (Machine.along_cons_of_step rfl).2 ⟨?_, (Machine.along_cons_of_step rfl).2 ⟨nofun,
    (Machine.along_cons_of_step rfl).2 ⟨?_, (Machine.along_cons_of_step rfl).2 ⟨nofun,
      (Machine.along_cons_of_step rfl).2 ⟨?_, ?_⟩⟩⟩⟩⟩
  · rintro _ ⟨rfl⟩
    exact ⟨nofun, by decide⟩
  · rintro _ ⟨rfl⟩
    exact ⟨by decide, by decide⟩
  · rintro _ ⟨rfl⟩
    exact ⟨by decide, by decide⟩
  · iterate 2 refine (Machine.along_cons_of_step rfl).2 ⟨nofun, ?_⟩
    trivial

theorem imuAt_neighbouring_iff_earlyQuery :
    (recorded String).Along Neighbouring (cboard String, Record.empty String) earlyQuery ↔
      (recorded String).Along AskedLate (cboard String, Record.empty String) earlyQuery :=
  imuAt_neighbouring_iff (Or.inl rfl) earlyQuery fed_earlyQuery

/-- **A query inside the kept pair skips the sample behind it.** -/
theorem early_query_skips_sample :
    (recorded String).Along Fed (cboard String, Record.empty String) earlyQuery ∧
      (recorded String).Along Asked (cboard String, Record.empty String) earlyQuery ∧
        ¬ (recorded String).Along Neighbouring (cboard String, Record.empty String) earlyQuery := by
  refine ⟨fed_earlyQuery, ?_, fun h => ?_⟩
  · iterate 5 refine (Machine.along_cons_of_step rfl).2 ⟨nofun, ?_⟩
    refine (Machine.along_cons_of_step rfl).2 ⟨?_, (Machine.along_cons_of_step rfl).2 ⟨nofun, trivial⟩⟩
    rintro _ ⟨rfl⟩
    exact ⟨nofun, _, rfl, by decide⟩
  · iterate 6 replace h := h.2 _ _ rfl
    have hright := h.1 _ _ rfl _ (List.mem_singleton_self _)
    have hbetween := hright.2.adjacent.not_between (s := ⟨"b", 10⟩) (by decide) (by decide)
    exact absurd hbetween (by decide)

/-! ## What always holds -/

/-- The sample ahead is not after the query times to come. -/
def Low (p : System Q × Record Q) : Prop :=
  match p.1.phase with
  | .openAhead => True
  | .openBehind a => p.2.received.head? = some a
  | .idle a _ => p.2.received.head? = some a ∨ ∃ u ∈ p.2.asked, a.time ≤ u
  | .looking t a _ => t ∈ p.2.asked ∧ a.time ≤ t

/-- A query at or after the first sample and the queries before it is at or after the sample ahead. -/
theorem low_asked {p : System Q × Record Q} {a b : Sample Q Int} {t : Int} (h : Low p) (hphase : p.1.phase = .idle a b)
    (hasked : Asked p (.imuAt t)) : a.time ≤ t := by
  obtain ⟨hprev, v, hv, hfirst⟩ := hasked t rfl
  rw [Low, hphase] at h
  rcases h with hhead | ⟨u, hu, hle⟩
  · rw [hv] at hhead
    exact (Option.some.inj hhead) ▸ hfirst
  · exact hle.trans (hprev u hu)

theorem low_take {p q : System Q × Record Q} {popped : List (Sample Q Int)} {v : Sample Q Int} (h : Split p popped)
    (hlow : Low p) (hqueue : p.1.queue.queue = v :: q.1.queue.queue) (hphase : q.1.phase = (take p.1.phase v).1)
    (hrec : q.2 = p.2) : Low q := by
  have hkept := h.kept
  unfold Low at hlow ⊢
  rw [hphase, hrec]
  cases hp : p.1.phase with
  | openAhead =>
    rw [hp] at hkept
    cases hkept
    simp [take, h.received, hqueue]
  | openBehind a =>
    rw [hp] at hlow
    exact Or.inl hlow
  | idle a b =>
    rw [hp] at hlow
    exact hlow
  | looking t a b =>
    rw [hp] at hlow
    by_cases hlater : v.time > t
    · rw [take, if_pos hlater]
      exact Or.inr ⟨t, hlow⟩
    · rw [take, if_neg hlater]
      exact ⟨hlow.1, not_lt.1 hlater⟩

theorem low_step {p q : System Q × Record Q} {i : Label Q} {es : List (Answer Q)} {popped : List (Sample Q Int)}
    (h : Split p popped) (hlow : Low p) (hasked : Asked p i) (hst : (recorded Q).step p i = some (q, es)) : Low q := by
  obtain ⟨hstep, hnote⟩ := Machine.ghost_step.1 hst
  cases i with
  | push v =>
    simp only [lookup, Option.some.injEq, Prod.mk.injEq] at hstep
    unfold Low at hlow ⊢
    rw [← hstep.1, hnote]
    cases hp : p.1.phase with
    | openAhead => trivial
    | openBehind a =>
      rw [hp] at hlow
      simp [Record.note, hlow]
    | idle a b =>
      rw [hp] at hlow
      exact hlow.imp_left fun hhead => by simp [Record.note, hhead]
    | looking t a b =>
      rw [hp] at hlow
      exact hlow
  | imuAt t =>
    simp only [lookup] at hstep
    split at hstep
    · rename_i a b hp
      simp only [Option.some.injEq, Prod.mk.injEq] at hstep
      have hle := low_asked hlow hp hasked
      unfold Low
      rw [← hstep.1, hnote]
      simp only [Record.note, hp]
      refine ⟨List.mem_cons_self, ?_⟩
      split
      · exact le_of_lt ‹_›
      · exact hle
    · cases hstep
  | pop =>
    obtain ⟨-, v, hqueue, hphase, -⟩ := pop_cases hstep
    exact low_take h hlow hqueue hphase hnote

/-- **Every answer encloses its time, whatever the queries: the division is never by zero.** -/
theorem enclosed_along {s : System Q} (hs : s = cboard Q ∨ s = dmImu Q) {is : List (Label Q)}
    (h : (recorded Q).Along (fun p i => Fed p i ∧ Asked p i) (s, Record.empty Q) is) :
    (recorded Q).Along Enclosed (s, Record.empty Q) is := by
  refine Machine.Along.imp_of_inv (I := fun p => Low p ∧ ∃ popped, Split p popped) (fun p i hI _ q es hst e he => ?_)
    (fun p i q es hI hin hst => ?_) ⟨?_, [], split_init hs⟩ h
  · obtain ⟨rfl, a, b, v, hphase, -, hlater, -, hres⟩ := answer_cases (Machine.ghost_step.1 hst).1 he
    have hlow := hI.1
    rw [Low, hphase] at hlow
    rw [hres]
    exact ⟨hlow.2, hlater⟩
  · obtain ⟨hlow, popped, hsplit⟩ := hI
    exact ⟨low_step hsplit hlow hin.2 hst, split_step hsplit hin.1 hst⟩
  · rcases hs with rfl | rfl <;> trivial

end Imu

end Vision
end LfSentry
