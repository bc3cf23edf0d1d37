import LfSentry.Fifo
import LfSentry.ThreadSafeQueue
/-!
# QueueLedger — what becomes of the elements of a `ThreadSafeQueue` (`tools/thread_safe_queue.hpp`)

The operations of any number of threads, one at a time, follow the bounded sequence of `Fifo` (`follows_step`), whose books
say where every element went (`bounded_fifo`).
-/
namespace LfSentry
namespace ThreadSafeQueue

open Fifo (Op Reply Ledger Sound Losses)

variable {τ α : Type} {popWhenFull : Bool}

/-- Whether `push` calls the `full_handler_`. -/
def handlesFull (q : ThreadSafeQueue α popWhenFull) : Bool := decide (q.queue.length ≥ q.maxSize) && !popWhenFull

/-- One operation of the thread `τ`; `pop` and `front` have no step while they wait. -/
def machine (τ α : Type) (popWhenFull : Bool) : Machine (ThreadSafeQueue α popWhenFull) (τ × Op α) (Reply α) where
  step q i :=
    match i.2 with
    | .push value => some (q.push value, if q.handlesFull then [.full] else [])
    | .pop => q.pop.map fun p => (p.2, [.popped p.1])
    | .tryPop => some (q.tryPop.1, [.tried q.tryPop.2])
    | .front => q.front.map fun value => (q, [.first value])
    | .back => some (q, [.last q.back])
    | .size => some (q, [.size q.queue.length])
    | .empty => some (q, [.empty q.queue.isEmpty])
    | .clear => some (q.clear, [])

/-- The queue holds what the books say. -/
structure Follows (maxSize : Nat) (q : ThreadSafeQueue α popWhenFull) (l : Ledger α) : Prop where
  size : q.maxSize = maxSize
  held : q.queue.map some = l.held.map l.element
  sound : Sound maxSize l

variable {maxSize : Nat} {q : ThreadSafeQueue α popWhenFull} {l : Ledger α}

theorem Follows.length (h : Follows maxSize q l) : q.queue.length = l.held.length := by
  have hlen := congrArg List.length h.held
  rwa [List.length_map, List.length_map] at hlen

/-- Numbers keep their elements when a push adds one. -/
theorem Follows.push_held (h : Follows maxSize q l) (value : α) (js : List Nat) (hsub : ∀ j ∈ js, j ∈ l.held) :
    (js ++ [l.pushed.length]).map (fun i => (l.pushed ++ [value])[i]?) = js.map l.element ++ [some value] := by
  rw [List.map_append, List.map_singleton, List.getElem?_concat_length]
  refine congrArg (· ++ [some value]) (List.map_congr_left fun j hj => ?_)
  exact List.getElem?_append_left (h.sound.lt_of_held (hsub j hj))

theorem Follows.push (h : Follows maxSize q l) (hpos : 0 < maxSize) (value : α) :
    Follows maxSize (q.push value) (l.push maxSize popWhenFull value).1 ∧
      (l.push maxSize popWhenFull value).2 = if q.handlesFull then [.full] else [] := by
  have hsound := h.sound.push hpos popWhenFull value
  have hlen := h.length
  have hheld := h.held
  have hsize := h.size
  unfold ThreadSafeQueue.push handlesFull
  obtain ⟨hfull, hpop, heq⟩ | ⟨hfull, hpop, heq⟩ | ⟨hroom, heq⟩ := @Ledger.push_cases α maxSize popWhenFull l value
  · rw [heq] at hsound ⊢
    subst hpop
    rw [dif_pos (show q.queue.length ≥ q.maxSize by omega), if_pos rfl]
    refine ⟨⟨hsize, ?_, hsound⟩, by simp⟩
    have htail := h.push_held value l.held.tail fun j hj => List.mem_of_mem_tail hj
    refine Eq.trans ?_ htail.symm
    simp [← hheld]
  · rw [heq] at hsound ⊢
    subst hpop
    rw [dif_pos (show q.queue.length ≥ q.maxSize by omega), if_neg Bool.false_ne_true]
    refine ⟨⟨hsize, ?_, hsound⟩, by simp; omega⟩
    rw [hheld]
    exact List.map_congr_left fun j hj => (List.getElem?_append_left (h.sound.lt_of_held hj)).symm
  · rw [heq] at hsound ⊢
    rw [dif_neg (show ¬ q.queue.length ≥ q.maxSize by omega)]
    refine ⟨⟨hsize, ?_, hsound⟩, by simp; omega⟩
    refine Eq.trans ?_ (h.push_held value l.held fun j hj => hj).symm
    simp [hheld]

theorem Follows.pop (h : Follows maxSize q l) :
    (q.pop = none ∧ l.pop = none) ∨
      ∃ value r l', q.pop = some (value, r) ∧ l.pop = some (l', value) ∧ Follows maxSize r l' := by
  have hheld := h.held
  cases hq : q.pop with
  | none =>
    refine .inl ⟨rfl, ?_⟩
    have hnil : q.queue = [] := by
      unfold ThreadSafeQueue.pop at hq
      split at hq
      · assumption
      · cases hq
    rw [hnil, List.map_nil, eq_comm, List.map_eq_nil_iff] at hheld
    rw [Ledger.pop, hheld]
  | some p =>
    obtain ⟨value, r⟩ := p
    have hqueue := queue_of_pop hq
    rw [hqueue, List.map_cons] at hheld
    obtain ⟨i, rest, hl, hi, hrest⟩ := List.map_eq_cons_iff.1 hheld.symm
    have hpop := Ledger.pop_eq_some.2 ⟨i, rest, hl, hi, rfl⟩
    refine .inr ⟨value, r, _, rfl, hpop, ⟨?_, hrest.symm, h.sound.pop hpop⟩⟩
    rw [← h.size]
    unfold ThreadSafeQueue.pop at hq
    split at hq
    · cases hq
    · rw [← (Prod.mk.inj (Option.some.inj hq)).2]

/-- **Every operation follows the bounded sequence**, and says the same. -/
theorem follows_step (hpos : 0 < maxSize) {i : τ × Op α} {r : ThreadSafeQueue α popWhenFull} {out : List (Reply α)}
    (h : Follows maxSize q l) (hstep : (machine τ α popWhenFull).step q i = some (r, out)) :
    ∃ l', (Fifo.sequence α maxSize popWhenFull).step l i.2 = some (l', out) ∧ Follows maxSize r l' := by
  obtain ⟨thread, op⟩ := i
  cases op with
  | push value =>
    obtain ⟨rfl, rfl⟩ := Prod.mk.inj (Option.some.inj hstep)
    obtain ⟨hfollows, hout⟩ := h.push hpos value
    exact ⟨_, congrArg some (Prod.ext rfl hout), hfollows⟩
  | pop =>
    obtain ⟨p, hp, heq⟩ := Option.map_eq_some_iff.1 hstep
    obtain ⟨rfl, rfl⟩ := Prod.mk.inj heq
    obtain ⟨hnone, -⟩ | ⟨value, r, l', hq, hl, hfollows⟩ := h.pop
    · rw [hnone] at hp
      cases hp
    · rw [hq, Option.some.injEq] at hp
      subst hp
      exact ⟨l', by simp [Fifo.sequence, Ledger.step, hl], hfollows⟩
  | tryPop =>
    obtain ⟨rfl, rfl⟩ := Prod.mk.inj (Option.some.inj hstep)
    obtain ⟨hq, hl⟩ | ⟨value, r, l', hq, hl, hfollows⟩ := h.pop
    · exact ⟨l, by simp [Fifo.sequence, Ledger.step, tryPop, hq, hl], by simpa [tryPop, hq] using h⟩
    · exact ⟨l', by simp [Fifo.sequence, Ledger.step, tryPop, hq, hl], by simpa [tryPop, hq] using hfollows⟩
  | front =>
    obtain ⟨value, hvalue, heq⟩ := Option.map_eq_some_iff.1 hstep
    obtain ⟨rfl, rfl⟩ := Prod.mk.inj heq
    have hfirst : l.held.head?.bind l.element = some value := by
      have hhead := congrArg List.head? h.held
      rw [List.head?_map, List.head?_map, show q.queue.head? = some value from hvalue] at hhead
      cases hl : l.held.head? with
      | none => simp [hl] at hhead
      | some i => simpa [hl] using hhead.symm
    exact ⟨l, congrArg (Option.map fun value => (l, [Reply.first value])) hfirst, h⟩
  | back =>
    obtain ⟨rfl, rfl⟩ := Prod.mk.inj (Option.some.inj hstep)
    have hlast : l.held.getLast?.bind l.element = q.back := by
      have hback := congrArg List.getLast? h.held
      rw [List.getLast?_map, List.getLast?_map] at hback
      unfold ThreadSafeQueue.back
      cases hl : l.held.getLast? <;> cases hq : q.queue.getLast? <;> simp_all
    exact ⟨l, by simp [Fifo.sequence, Ledger.step, hlast], h⟩
  | size =>
    obtain ⟨rfl, rfl⟩ := Prod.mk.inj (Option.some.inj hstep)
    exact ⟨l, by simp [Fifo.sequence, Ledger.step, h.length], h⟩
  | empty =>
    obtain ⟨rfl, rfl⟩ := Prod.mk.inj (Option.some.inj hstep)
    have hempty : q.queue.isEmpty = l.held.isEmpty := by
      rw [Bool.eq_iff_iff, List.isEmpty_iff_length_eq_zero, List.isEmpty_iff_length_eq_zero, h.length]
    exact ⟨l, by simp [Fifo.sequence, Ledger.step, hempty], h⟩
  | clear =>
    obtain ⟨rfl, rfl⟩ := Prod.mk.inj (Option.some.inj hstep)
    exact ⟨_, rfl, ⟨h.size, rfl, h.sound.clear⟩⟩

theorem follows_empty (hsize : 0 < maxSize) :
    Follows maxSize (ThreadSafeQueue.empty α popWhenFull maxSize hsize) (Ledger.init α) :=
  ⟨rfl, rfl, Sound.init α maxSize⟩

/-- **A bounded FIFO**: whatever the threads do, at most `maxSize` elements are held, and there are books of the run that
balance: the number of every push is in one place, held and left ones are in the order of the pushes, what left is what
was handed out, and a number is lost only by `clear` or at a push to a full queue, which costs the oldest or itself. -/
theorem bounded_fifo (hsize : 0 < maxSize) {labels : List (τ × Op α)} {out : List (Reply α)}
    (hr : (machine τ α popWhenFull).run (ThreadSafeQueue.empty α popWhenFull maxSize hsize) labels = some (q, out)) :
    q.queue.length ≤ maxSize ∧ ∃ l, (Fifo.sequence α maxSize popWhenFull).run (Ledger.init α) (labels.map Prod.snd) =
        some (l, out) ∧
      l.pushed = (labels.map Prod.snd).filterMap Op.pushes ∧
      q.queue.map some = l.held.map l.element ∧
      (out.filterMap Reply.leaving).map some = l.left.map l.element ∧
      Sound maxSize l ∧
      (Fifo.sequence α maxSize popWhenFull).Along
        (fun l op => ∀ l' out, (Fifo.sequence α maxSize popWhenFull).step l op = some (l', out) →
          Losses maxSize popWhenFull l op l') (Ledger.init α) (labels.map Prod.snd) := by
  obtain ⟨l, hl, hfollows⟩ := Machine.run_of_simulation Prod.snd (fun q l i r out h hst => follows_step hsize h hst)
    (follows_empty hsize) hr
  obtain ⟨hsound, hpushed, hleft⟩ := Fifo.run_sound hsize (Sound.init α maxSize) hl
  refine ⟨by rw [hfollows.length]; exact hsound.bounded, l, hl, hpushed, hfollows.held, hleft.symm, hsound, ?_⟩
  exact Machine.along_of_inv (I := Sound maxSize) (fun l op hl l' out hst => Fifo.losses_step hl hsize hst)
    (fun l op l' out hl hst => hl.step hsize hst) (Sound.init α maxSize)

/-- Three pushes of two threads to a queue of two that drops its oldest. -/
theorem bounded_fifo_drop : ∃ l, (Fifo.sequence Nat 2 true).run (Ledger.init Nat)
    ([(0, Op.push 7), (1, Op.push 8), (0, Op.push 9), (1, Op.pop)].map Prod.snd) = some (l, [.popped 8]) ∧
    l = ⟨[7, 8, 9], [2], [1], [], [0]⟩ := by
  obtain ⟨-, l, hl, -⟩ := bounded_fifo (τ := Nat) (q := ⟨[9], 2, by decide, by decide⟩) (by decide : 0 < 2)
    (show (machine Nat Nat true).run (ThreadSafeQueue.empty Nat true 2 (by decide))
      [(0, Op.push 7), (1, Op.push 8), (0, Op.push 9), (1, Op.pop)] =
        some (⟨[9], 2, by decide, by decide⟩, [.popped 8]) from rfl)
  refine ⟨l, hl, ?_⟩
  have hrun : (Fifo.sequence Nat 2 true).run (Ledger.init Nat)
      ([(0, Op.push 7), (1, Op.push 8), (0, Op.push 9), (1, Op.pop)].map Prod.snd) =
        some (⟨[7, 8, 9], [2], [1], [], [0]⟩, [.popped 8]) := rfl
  rw [hl, Option.some.injEq, Prod.mk.injEq] at hrun
  exact hrun.1

end ThreadSafeQueue
end LfSentry
