import LfSentry.Runs
import Mathlib.Data.Int.Order.Basic
import Mathlib.Data.List.AList
/-!
# OrderedQueue — frames put back in order (`sp_vision_25/tools/thread_pool.hpp`)

Workers hand in frames in any order; `enqueue` passes on the one whose turn it is and the buffered ones behind it, and
keeps a frame that comes early in a map by its id.  What has been passed on is `1, 2, …` without a gap or a repetition
(`ordered_delivery`).  An increment of the largest `int` has no defined result and no step here.
-/
namespace LfSentry
namespace Vision
namespace ThreadPool

variable {α : Type}

/-- `tools::Frame`: its id, and the rest of it. -/
structure Frame (α : Type) where
  id : Int
  content : α
  deriving DecidableEq, Repr

structure OrderedQueue (α : Type) where
  mainQueue : List (Frame α)
  buffer : AList fun _ : Int => Frame α
  currentId : Int

namespace OrderedQueue

def init (α : Type) : OrderedQueue α := ⟨[], ∅, 1⟩

def intMax : Int := 2147483647

/-- Pushes a frame whose turn it is; `none` if `current_id_` overflows. -/
def pass (s : OrderedQueue α) (item : Frame α) : Option (OrderedQueue α) :=
  if s.currentId < intMax then some { s with mainQueue := s.mainQueue ++ [item], currentId := s.currentId + 1 } else none

/-- The loop over the buffered frames whose turn it is now; there are at most `fuel` buffered. -/
def drain : Nat → OrderedQueue α → Option (OrderedQueue α)
  | 0, s => some s
  | fuel + 1, s =>
    match s.buffer.lookup s.currentId with
    | none => some s
    | some item => (({ s with buffer := s.buffer.erase s.currentId } : OrderedQueue α).pass item).bind (drain fuel)

def enqueue (s : OrderedQueue α) (item : Frame α) : Option (OrderedQueue α) :=
  if item.id < s.currentId then some s
  else if item.id = s.currentId then (s.pass item).bind fun s => drain s.buffer.keys.length s
  else some { s with buffer := s.buffer.insert item.id item }

/-- `dequeue`; it waits for a frame. -/
def dequeue (s : OrderedQueue α) : Option (Frame α × OrderedQueue α) :=
  match s.mainQueue with
  | [] => none
  | item :: rest => some (item, { s with mainQueue := rest })

/-- `try_dequeue`; `none` is its `false`. -/
def tryDequeue (s : OrderedQueue α) : OrderedQueue α × Option (Frame α) :=
  match s.mainQueue with
  | [] => (s, none)
  | item :: rest => ({ s with mainQueue := rest }, some item)

end OrderedQueue

inductive Label (α : Type)
  | enqueue (item : Frame α)
  | dequeue
  | tryDequeue
  deriving DecidableEq, Repr

/-- The queue between its threads; it says what is dequeued. -/
def orderedQueue (α : Type) : Machine (OrderedQueue α) (Label α) (Frame α) where
  step s
    | .enqueue item => (s.enqueue item).map fun s => (s, [])
    | .dequeue => s.dequeue.map fun r => (r.2, [r.1])
    | .tryDequeue => let r := s.tryDequeue; some (r.1, r.2.toList)

/-! ## What has been passed on -/

/-- `1, 2, …, n - 1`. -/
def idsBelow (n : Int) : List Int := (List.range (n - 1).toNat).map fun k : Nat => (k : Int) + 1

theorem idsBelow_succ {n : Int} (h : 1 ≤ n) : idsBelow (n + 1) = idsBelow n ++ [n] := by
  have hn : (n + 1 - 1).toNat = (n - 1).toNat + 1 := by omega
  have hlast : (((n - 1).toNat : Nat) : Int) + 1 = n := by omega
  rw [idsBelow, hn, List.range_succ, List.map_append, List.map_singleton, hlast, idsBelow]

theorem mem_idsBelow {n k : Int} : k ∈ idsBelow n ↔ 1 ≤ k ∧ k < n := by
  simp only [idsBelow, List.mem_map, List.mem_range]
  constructor
  · rintro ⟨m, hm, rfl⟩
    omega
  · rintro ⟨hlo, hhi⟩
    exact ⟨(k - 1).toNat, by omega, by omega⟩

theorem nodup_idsBelow (n : Int) : (idsBelow n).Nodup :=
  List.nodup_range.map fun a b (h : (a : Int) + 1 = (b : Int) + 1) => by omega

/-- After the frames with the ids `enqueued` came in and the ids `dequeued` went out. -/
structure Ordered (enqueued dequeued : List Int) (s : OrderedQueue α) : Prop where
  current : 1 ≤ s.currentId
  passed : dequeued ++ s.mainQueue.map Frame.id = idsBelow s.currentId
  keyed : ∀ k item, s.buffer.lookup k = some item → item.id = k
  later : ∀ k ∈ s.buffer, s.currentId ≤ k
  kept : ∀ k ∈ enqueued, k < s.currentId ∨ k ∈ s.buffer

variable {enqueued dequeued : List Int} {s t : OrderedQueue α}

/-- **The frame whose turn it is goes on, and the turn to the next id.** -/
theorem ordered_pass {item : Frame α} {buffer : AList fun _ : Int => Frame α} (hcurrent : 1 ≤ s.currentId)
    (hpassed : dequeued ++ s.mainQueue.map Frame.id = idsBelow s.currentId)
    (hkeyed : ∀ k item, buffer.lookup k = some item → item.id = k) (hlater : ∀ k ∈ buffer, s.currentId < k)
    (hkept : ∀ k ∈ enqueued, k ≤ s.currentId ∨ k ∈ buffer) (hid : item.id = s.currentId)
    (hp : OrderedQueue.pass { s with buffer := buffer } item = some t) :
    Ordered enqueued dequeued t ∧ t.buffer = buffer := by
  simp only [OrderedQueue.pass, Option.ite_none_right_eq_some, Option.some.injEq] at hp
  obtain ⟨-, rfl⟩ := hp
  refine ⟨⟨?_, ?_, hkeyed, hlater, fun k hk => ?_⟩, rfl⟩
  · simp only
    omega
  · rw [List.map_append, ← List.append_assoc, hpassed, idsBelow_succ hcurrent, List.map_singleton, hid]
  · exact (hkept k hk).imp_left fun hle => by
      simp only
      omega

theorem drain_cases {fuel : Nat} (h : OrderedQueue.drain (fuel + 1) s = some t) :
    (s.buffer.lookup s.currentId = none ∧ t = s) ∨
      ∃ item u, s.buffer.lookup s.currentId = some item ∧
        OrderedQueue.pass { s with buffer := s.buffer.erase s.currentId } item = some u ∧
          OrderedQueue.drain fuel u = some t := by
  rw [OrderedQueue.drain] at h
  cases hl : s.buffer.lookup s.currentId with
  | none =>
    rw [hl] at h
    exact Or.inl ⟨rfl, (Option.some.inj h).symm⟩
  | some item =>
    rw [hl] at h
    obtain ⟨u, hu, ht⟩ := Option.bind_eq_some_iff.1 h
    exact Or.inr ⟨item, u, rfl, hu, ht⟩

/-- **The loop passes on what follows without a gap, and stops where nothing is buffered.** -/
theorem ordered_drain : ∀ {fuel : Nat} {s t : OrderedQueue α}, s.buffer.keys.length ≤ fuel →
    Ordered enqueued dequeued s → OrderedQueue.drain fuel s = some t →
      Ordered enqueued dequeued t ∧ t.currentId ∉ t.buffer
  | 0, s, t, hfuel, h, hd => by
    rw [OrderedQueue.drain, Option.some.injEq] at hd
    subst hd
    have hnil : s.buffer.keys = [] := List.eq_nil_of_length_eq_zero (Nat.le_zero.1 hfuel)
    refine ⟨h, fun hmem => ?_⟩
    rw [AList.mem_keys, hnil] at hmem
    cases hmem
  | fuel + 1, s, t, hfuel, h, hd => by
    rcases drain_cases hd with ⟨hnone, rfl⟩ | ⟨item, u, hitem, hpass, hrest⟩
    · exact ⟨h, AList.lookup_eq_none.1 hnone⟩
    have hmem : s.currentId ∈ s.buffer := AList.lookup_isSome.1 (by rw [hitem]; rfl)
    have hkeyed : ∀ k x, (s.buffer.erase s.currentId).lookup k = some x → x.id = k := by
      intro k x hk
      by_cases hks : k = s.currentId
      · rw [hks, AList.lookup_erase] at hk
        cases hk
      · rw [AList.lookup_erase_ne hks] at hk
        exact h.keyed k x hk
    have hlater : ∀ k ∈ s.buffer.erase s.currentId, s.currentId < k := by
      intro k hk
      obtain ⟨hne, hin⟩ := AList.mem_erase.1 hk
      exact lt_of_le_of_ne (h.later k hin) (Ne.symm hne)
    have hkept : ∀ k ∈ enqueued, k ≤ s.currentId ∨ k ∈ s.buffer.erase s.currentId := by
      intro k hk
      by_cases hks : k = s.currentId
      · exact Or.inl (le_of_eq hks)
      · exact (h.kept k hk).imp le_of_lt fun hin => AList.mem_erase.2 ⟨hks, hin⟩
    obtain ⟨hu, hbuffer⟩ :=
      ordered_pass h.current h.passed hkeyed hlater hkept (h.keyed s.currentId item hitem) hpass
    refine ordered_drain ?_ hu hrest
    have hlen := List.length_erase_of_mem (AList.mem_keys.1 hmem)
    rw [hbuffer, AList.keys_erase, hlen]
    omega

theorem ordered_enqueue {item : Frame α} (h : Ordered enqueued dequeued s) (hnext : s.currentId ∉ s.buffer)
    (he : s.enqueue item = some t) : Ordered (item.id :: enqueued) dequeued t ∧ t.currentId ∉ t.buffer := by
  have hlater : ∀ k ∈ s.buffer, s.currentId < k := fun k hk =>
    lt_of_le_of_ne (h.later k hk) (ne_of_mem_of_not_mem hk hnext).symm
  unfold OrderedQueue.enqueue at he
  by_cases hsmall : item.id < s.currentId
  · rw [if_pos hsmall, Option.some.injEq] at he
    subst he
    refine ⟨⟨h.current, h.passed, h.keyed, h.later, ?_⟩, hnext⟩
    exact List.forall_mem_cons.2 ⟨Or.inl hsmall, h.kept⟩
  rw [if_neg hsmall] at he
  by_cases hturn : item.id = s.currentId
  · rw [if_pos hturn, Option.bind_eq_some_iff] at he
    obtain ⟨u, hu, hd⟩ := he
    obtain ⟨hordered, -⟩ : Ordered (item.id :: enqueued) dequeued u ∧ _ := ordered_pass h.current h.passed h.keyed hlater
      (List.forall_mem_cons.2 ⟨Or.inl (le_of_eq hturn), fun k hk => (h.kept k hk).imp_left le_of_lt⟩) hturn hu
    exact ordered_drain le_rfl hordered hd
  · rw [if_neg hturn, Option.some.injEq] at he
    subst he
    refine ⟨⟨h.current, h.passed, fun k x hk => ?_, fun k hk => ?_, ?_⟩, fun hin => ?_⟩
    · by_cases hki : k = item.id
      · rw [hki, AList.lookup_insert, Option.some.injEq] at hk
        rw [← hk, hki]
      · rw [AList.lookup_insert_ne hki] at hk
        exact h.keyed k x hk
    · rcases (AList.mem_insert _).1 hk with rfl | hin
      · exact not_lt.1 hsmall
      · exact h.later k hin
    · refine List.forall_mem_cons.2 ⟨Or.inr ((AList.mem_insert _).2 (Or.inl rfl)), fun k hk => ?_⟩
      exact (h.kept k hk).imp_right fun hin => (AList.mem_insert _).2 (Or.inr hin)
    · rcases (AList.mem_insert _).1 hin with heq | hin
      · exact hturn heq.symm
      · exact hnext hin

/-- A frame that goes out leaves what was passed on as it is. -/
theorem ordered_dequeue {item : Frame α} {rest : List (Frame α)} (h : Ordered enqueued dequeued s)
    (hq : s.mainQueue = item :: rest) : Ordered enqueued (dequeued ++ [item.id]) { s with mainQueue := rest } where
  current := h.current
  passed := by
    have hpassed := h.passed
    rw [hq, List.map_cons] at hpassed
    rw [List.append_assoc, List.singleton_append]
    exact hpassed
  keyed := h.keyed
  later := h.later
  kept := h.kept

/-! ## Runs -/

/-- The ids handed in. -/
def enqueuedOf : List (Label α) → List Int
  | [] => []
  | .enqueue item :: ls => item.id :: enqueuedOf ls
  | .dequeue :: ls => enqueuedOf ls
  | .tryDequeue :: ls => enqueuedOf ls

theorem ordered_step {l : Label α} {es : List (Frame α)} (h : Ordered enqueued dequeued s)
    (hnext : s.currentId ∉ s.buffer) (hst : (orderedQueue α).step s l = some (t, es)) :
    Ordered (enqueuedOf [l] ++ enqueued) (dequeued ++ es.map Frame.id) t ∧ t.currentId ∉ t.buffer := by
  cases l with
  | enqueue item =>
    simp only [orderedQueue, Option.map_eq_some_iff, Prod.mk.injEq] at hst
    obtain ⟨u, hu, rfl, rfl⟩ := hst
    rw [List.map_nil, List.append_nil]
    exact ordered_enqueue h hnext hu
  | dequeue =>
    simp only [orderedQueue, OrderedQueue.dequeue] at hst
    cases hq : s.mainQueue with
    | nil => simp [hq] at hst
    | cons item rest =>
      simp only [hq, Option.map_some, Option.some.injEq, Prod.mk.injEq] at hst
      obtain ⟨rfl, rfl⟩ := hst
      exact ⟨ordered_dequeue h hq, hnext⟩
  | tryDequeue =>
    simp only [orderedQueue, OrderedQueue.tryDequeue] at hst
    cases hq : s.mainQueue with
    | nil =>
      simp only [hq, Option.some.injEq, Prod.mk.injEq] at hst
      obtain ⟨rfl, rfl⟩ := hst
      refine ⟨?_, hnext⟩
      simpa [enqueuedOf] using h
    | cons item rest =>
      simp only [hq, Option.some.injEq, Prod.mk.injEq] at hst
      obtain ⟨rfl, rfl⟩ := hst
      exact ⟨ordered_dequeue h hq, hnext⟩

theorem ordered_run : ∀ {ls : List (Label α)} {s t : OrderedQueue α} {enqueued dequeued : List Int}
    {o : List (Frame α)}, Ordered enqueued dequeued s → s.currentId ∉ s.buffer →
      (orderedQueue α).run s ls = some (t, o) →
        ∃ enqueued', (∀ k, k ∈ enqueued' ↔ k ∈ enqueued ∨ k ∈ enqueuedOf ls) ∧
          Ordered enqueued' (dequeued ++ o.map Frame.id) t ∧ t.currentId ∉ t.buffer
  | [], s, t, enqueued, dequeued, o, h, hnext, hr => by
    simp only [Machine.run_nil, Option.some.injEq, Prod.mk.injEq] at hr
    obtain ⟨rfl, rfl⟩ := hr
    refine ⟨enqueued, fun k => by simp [enqueuedOf], ?_, hnext⟩
    rw [List.map_nil, List.append_nil]
    exact h
  | l :: ls, s, u, enqueued, dequeued, o, h, hnext, hr => by
    obtain ⟨t, es, o', hst, hr', rfl⟩ := Machine.run_cons.1 hr
    obtain ⟨hordered, hnext'⟩ := ordered_step h hnext hst
    obtain ⟨enqueued', hmem, hend, hlast⟩ := ordered_run hordered hnext' hr'
    refine ⟨enqueued', fun k => ?_, ?_, hlast⟩
    · rw [hmem, List.mem_append]
      cases l <;> simp only [enqueuedOf, List.mem_cons, List.not_mem_nil, or_false, false_or]
      tauto
    · rw [List.map_append, ← List.append_assoc]
      exact hend

theorem ordered_init : Ordered ([] : List Int) [] (OrderedQueue.init α) where
  current := le_rfl
  passed := rfl
  keyed _ _ h := by cases h
  later _ h := by cases h
  kept _ h := by cases h

/-- **In every run the ids dequeued and then those in the queue are `1, 2, …` up to the turn, every buffered id is still
to come, and an id handed in with all those before it has been passed on exactly once.** -/
theorem ordered_delivery {ls : List (Label α)} {s : OrderedQueue α} {o : List (Frame α)}
    (hr : (orderedQueue α).run (OrderedQueue.init α) ls = some (s, o)) :
    o.map Frame.id ++ s.mainQueue.map Frame.id = idsBelow s.currentId ∧ (∀ k ∈ s.buffer, s.currentId < k) ∧
      ∀ id, 1 ≤ id → (∀ k, 1 ≤ k → k ≤ id → k ∈ enqueuedOf ls) →
        (o.map Frame.id ++ s.mainQueue.map Frame.id).count id = 1 := by
  obtain ⟨enqueued, hmem, h, hnext⟩ := ordered_run ordered_init (by simp [OrderedQueue.init]) hr
  have hpassed : o.map Frame.id ++ s.mainQueue.map Frame.id = idsBelow s.currentId := h.passed
  refine ⟨hpassed, fun k hk => ?_, fun id hid hall => ?_⟩
  · exact lt_of_le_of_ne (h.later k hk) (ne_of_mem_of_not_mem hk hnext).symm
  · rw [hpassed]
    -- were the turn at or before `id`, its id would have been handed in, and be buffered
    have hturn : id < s.currentId := by
      by_contra hle
      have hin : s.currentId ∈ enqueued := (hmem _).2 (Or.inr (hall _ h.current (not_lt.1 hle)))
      rcases h.kept _ hin with hlt | hbuffer
      · exact lt_irrefl _ hlt
      · exact hnext hbuffer
    exact List.count_eq_one_of_mem (nodup_idsBelow _) (mem_idsBelow.2 ⟨hid, hturn⟩)

/-- Three frames in the order 2, 1, 3, one of them twice. -/
theorem ordered_delivery_twoFirst :
    ∃ s o, (orderedQueue String).run (OrderedQueue.init String)
        [.enqueue ⟨2, "b"⟩, .tryDequeue, .enqueue ⟨1, "a"⟩, .dequeue, .enqueue ⟨3, "c"⟩, .enqueue ⟨2, "b"⟩] = some (s, o) ∧
      o.map Frame.id ++ s.mainQueue.map Frame.id = idsBelow s.currentId := by
  have hsome : ((orderedQueue String).run (OrderedQueue.init String)
      [.enqueue ⟨2, "b"⟩, .tryDequeue, .enqueue ⟨1, "a"⟩, .dequeue, .enqueue ⟨3, "c"⟩, .enqueue ⟨2, "b"⟩]).isSome = true :=
    rfl
  obtain ⟨⟨s, o⟩, hr⟩ := Option.isSome_iff_exists.1 hsome
  exact ⟨s, o, hr, (ordered_delivery hr).1⟩

end ThreadPool
end Vision
end LfSentry
