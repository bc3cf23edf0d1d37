import Mathlib.Data.List.Basic
/-!
# ThreadSafeQueue — the bounded queue between two threads (`tools/thread_safe_queue.hpp`)

Each operation holds the queue's mutex, so a thread does one at a time.  A full queue either drops its oldest element or
refuses the new one (`popWhenFull`); `pop` and `front` wait for an element, which is `none` here.
-/
namespace LfSentry

/-- `ThreadSafeQueue<T, PopWhenFull>`. -/
structure ThreadSafeQueue (α : Type) (popWhenFull : Bool) where
  queue : List α
  maxSize : Nat
  size_pos : 0 < maxSize
  bounded : queue.length ≤ maxSize

namespace ThreadSafeQueue

variable {α : Type} {popWhenFull : Bool} {q r : ThreadSafeQueue α popWhenFull} {a : α}

def empty (α : Type) (popWhenFull : Bool) (maxSize : Nat) (h : 0 < maxSize) : ThreadSafeQueue α popWhenFull :=
  ⟨[], maxSize, h, Nat.zero_le _⟩

def push (q : ThreadSafeQueue α popWhenFull) (value : α) : ThreadSafeQueue α popWhenFull :=
  if h : q.queue.length ≥ q.maxSize then
    if popWhenFull then
      ⟨q.queue.tail ++ [value], q.maxSize, q.size_pos, by
        have hpos := q.size_pos
        have hle := q.bounded
        rw [List.length_append, List.length_tail, List.length_singleton]
        omega⟩
    else q
  else
    ⟨q.queue ++ [value], q.maxSize, q.size_pos, by
      rw [List.length_append, List.length_singleton]
      omega⟩

def pop (q : ThreadSafeQueue α popWhenFull) : Option (α × ThreadSafeQueue α popWhenFull) :=
  match h : q.queue with
  | [] => none
  | value :: rest => some (value, ⟨rest, q.maxSize, q.size_pos, by
      have hle := q.bounded
      rw [h, List.length_cons] at hle
      omega⟩)

/-- `try_pop`; `none` is its `false`. -/
def tryPop (q : ThreadSafeQueue α popWhenFull) : ThreadSafeQueue α popWhenFull × Option α :=
  match q.pop with
  | none => (q, none)
  | some p => (p.2, some p.1)

def front (q : ThreadSafeQueue α popWhenFull) : Option α := q.queue.head?

/-- `back`; `none` leaves the caller's value as it was. -/
def back (q : ThreadSafeQueue α popWhenFull) : Option α := q.queue.getLast?

def clear (q : ThreadSafeQueue α popWhenFull) : ThreadSafeQueue α popWhenFull :=
  ⟨[], q.maxSize, q.size_pos, Nat.zero_le _⟩

@[simp] theorem clear_queue (q : ThreadSafeQueue α popWhenFull) : q.clear.queue = [] := rfl

theorem push_of_lt (h : q.queue.length < q.maxSize) (value : α) : (q.push value).queue = q.queue ++ [value] := by
  rw [push, dif_neg (Nat.not_le.2 h)]

theorem push_clear (q : ThreadSafeQueue α popWhenFull) (value : α) : (q.clear.push value).queue = [value] :=
  push_of_lt (q := q.clear) q.size_pos value

theorem queue_of_pop (h : q.pop = some (a, r)) : q.queue = a :: r.queue := by
  unfold pop at h
  split at h
  · cases h
  · rename_i value rest hq
    simp only [Option.some.injEq, Prod.mk.injEq] at h
    obtain ⟨rfl, rfl⟩ := h
    exact hq

theorem queue_of_front (h : q.front = some a) : ∃ rest, q.queue = a :: rest := by
  unfold front at h
  exact ⟨q.queue.tail, (List.cons_head?_tail h).symm⟩

theorem pop_of_front (h : q.front = some a) : ∃ r, q.pop = some (a, r) := by
  obtain ⟨rest, hq⟩ := queue_of_front h
  unfold pop
  split
  · rename_i hnil
    rw [hnil] at hq
    cases hq
  · rename_i value rest' hcons
    rw [hcons, List.cons.injEq] at hq
    obtain ⟨rfl, -⟩ := hq
    exact ⟨_, rfl⟩

end ThreadSafeQueue
end LfSentry
