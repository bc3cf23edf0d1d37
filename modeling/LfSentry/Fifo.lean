import LfSentry.Runs
import Mathlib.Data.List.Perm.Basic
import Mathlib.Data.List.Range
/-!
# Fifo — a bounded sequence that accounts for everything put into it

A `Ledger` numbers what is pushed and knows of every number whether it is held, has left, was cleared away or was dropped
because there was no room.  The specification of a bounded queue: no number is in two places, what leaves does so in the
order of the pushes (`Sound`), and a number is lost by `clear` or at a push to a full queue only (`Losses`).
-/
namespace LfSentry
namespace Fifo

variable {α : Type}

/-- What is asked of a queue. -/
inductive Op (α : Type)
  | push (value : α)
  | pop
  | tryPop
  | front
  | back
  | size
  | empty
  | clear
  deriving DecidableEq, Repr

/-- What it says: `full` is the call of a handler, `tried none` and `last none` are the failures of an empty queue. -/
inductive Reply (α : Type)
  | full
  | popped (value : α)
  | tried (value : Option α)
  | first (value : α)
  | last (value : Option α)
  | size (n : Nat)
  | empty (yes : Bool)
  deriving DecidableEq, Repr

/-- The value that a reply hands out of the queue. -/
def Reply.leaving : Reply α → Option α
  | .popped value => some value
  | .tried value => value
  | _ => none

def Op.pushes : Op α → Option α
  | .push value => some value
  | _ => none

/-- Everything pushed, and where the numbers of the pushes are. -/
structure Ledger (α : Type) where
  pushed : List α
  held : List Nat
  left : List Nat
  cleared : List Nat
  dropped : List Nat
  deriving DecidableEq, Repr

namespace Ledger

def init (α : Type) : Ledger α := ⟨[], [], [], [], []⟩

variable (maxSize : Nat) (dropOldest : Bool) (l : Ledger α)

/-- The element of a number. -/
def element (i : Nat) : Option α := l.pushed[i]?

/-- A full queue drops the oldest that it holds, or what is pushed. -/
def push (value : α) : Ledger α × List (Reply α) :=
  let pushed := l.pushed ++ [value]
  if maxSize ≤ l.held.length then
    if dropOldest then
      ({ l with pushed := pushed, held := l.held.tail ++ [l.pushed.length], dropped := l.dropped ++ l.held.take 1 }, [])
    else ({ l with pushed := pushed, dropped := l.dropped ++ [l.pushed.length] }, [.full])
  else ({ l with pushed := pushed, held := l.held ++ [l.pushed.length] }, [])

/-- The oldest leaves. -/
def pop : Option (Ledger α × α) :=
  match l.held with
  | [] => none
  | i :: rest => (l.element i).map fun value => ({ l with held := rest, left := l.left ++ [i] }, value)

def step : Op α → Option (Ledger α × List (Reply α))
  | .push value => some (l.push maxSize dropOldest value)
  | .pop => l.pop.map fun p => (p.1, [.popped p.2])
  | .tryPop =>
    match l.pop with
    | some p => some (p.1, [.tried (some p.2)])
    | none => some (l, [.tried none])
  | .front => (l.held.head?.bind l.element).map fun value => (l, [.first value])
  | .back => some (l, [.last (l.held.getLast?.bind l.element)])
  | .size => some (l, [.size l.held.length])
  | .empty => some (l, [.empty l.held.isEmpty])
  | .clear => some ({ l with held := [], cleared := l.cleared ++ l.held }, [])

end Ledger

/-- The bounded sequence. -/
def sequence (α : Type) (maxSize : Nat) (dropOldest : Bool) : Machine (Ledger α) (Op α) (Reply α) where
  step l op := l.step maxSize dropOldest op

/-- **The books balance**: within its bound, the number of every push in one place, and in order. -/
structure Sound (maxSize : Nat) (l : Ledger α) : Prop where
  bounded : l.held.length ≤ maxSize
  places : (l.left ++ l.cleared ++ l.dropped ++ l.held).Perm (List.range l.pushed.length)
  order : (l.left ++ l.held).Pairwise (· < ·)

/-- **What a step may lose**: `clear` what is held; a push to a full queue the oldest or itself. -/
structure Losses (maxSize : Nat) (dropOldest : Bool) (l : Ledger α) (op : Op α) (l' : Ledger α) : Prop where
  cleared : l'.cleared = l.cleared ∨ op = .clear ∧ l'.cleared = l.cleared ++ l.held
  dropped : l'.dropped = l.dropped ∨ (∃ value, op = .push value) ∧ l.held.length = maxSize ∧
    if dropOldest then ∃ i rest, l.held = i :: rest ∧ l'.dropped = l.dropped ++ [i]
    else l'.dropped = l.dropped ++ [l.pushed.length]

variable {maxSize : Nat} {dropOldest : Bool} {l l' : Ledger α} {op : Op α} {out : List (Reply α)}

namespace Ledger

theorem push_cases (value : α) :
    (maxSize ≤ l.held.length ∧ dropOldest = true ∧ l.push maxSize dropOldest value =
      ({ l with
          pushed := l.pushed ++ [value], held := l.held.tail ++ [l.pushed.length],
          dropped := l.dropped ++ l.held.take 1 }, [])) ∨
    (maxSize ≤ l.held.length ∧ dropOldest = false ∧ l.push maxSize dropOldest value =
      ({ l with pushed := l.pushed ++ [value], dropped := l.dropped ++ [l.pushed.length] }, [.full])) ∨
    (l.held.length < maxSize ∧ l.push maxSize dropOldest value =
      ({ l with pushed := l.pushed ++ [value], held := l.held ++ [l.pushed.length] }, [])) := by
  unfold push
  by_cases hfull : maxSize ≤ l.held.length
  · cases dropOldest with
    | true => exact .inl ⟨hfull, rfl, by simp [hfull]⟩
    | false => exact .inr (.inl ⟨hfull, rfl, by simp [hfull]⟩)
  · exact .inr (.inr ⟨Nat.lt_of_not_le hfull, by simp [hfull]⟩)

theorem pop_eq_some {value : α} : l.pop = some (l', value) ↔
    ∃ i rest, l.held = i :: rest ∧ l.element i = some value ∧ l' = { l with held := rest, left := l.left ++ [i] } := by
  unfold pop
  cases hheld : l.held with
  | nil => simp
  | cons i rest =>
    simp only [Option.map_eq_some_iff, Prod.mk.injEq, List.cons.injEq]
    constructor
    · rintro ⟨a, ha, rfl, rfl⟩
      exact ⟨i, rest, ⟨rfl, rfl⟩, ha, rfl⟩
    · rintro ⟨j, js, ⟨rfl, rfl⟩, ha, rfl⟩
      exact ⟨value, ha, rfl, rfl⟩

/-- **What a step can do**: a push, an element that leaves, `clear`, or nothing. -/
theorem step_cases (h : l.step maxSize dropOldest op = some (l', out)) :
    (∃ value, op = .push value ∧ l.push maxSize dropOldest value = (l', out)) ∨
      (∃ value, op.pushes = none ∧ op ≠ .clear ∧ l.pop = some (l', value) ∧ out.filterMap Reply.leaving = [value]) ∨
      (op = .clear ∧ l' = { l with held := [], cleared := l.cleared ++ l.held } ∧ out = []) ∨
      (op.pushes = none ∧ op ≠ .clear ∧ l' = l ∧ out.filterMap Reply.leaving = []) := by
  cases op with
  | push value => exact .inl ⟨value, rfl, Option.some.inj h⟩
  | pop =>
    obtain ⟨p, hp, heq⟩ := Option.map_eq_some_iff.1 h
    obtain ⟨rfl, rfl⟩ := Prod.mk.inj heq
    exact .inr (.inl ⟨p.2, rfl, by simp, hp, rfl⟩)
  | tryPop =>
    simp only [step] at h
    split at h
    · rename_i p hp
      obtain ⟨rfl, rfl⟩ := Prod.mk.inj (Option.some.inj h)
      exact .inr (.inl ⟨p.2, rfl, by simp, hp, rfl⟩)
    · obtain ⟨rfl, rfl⟩ := Prod.mk.inj (Option.some.inj h)
      exact .inr (.inr (.inr ⟨rfl, by simp, rfl, rfl⟩))
  | front =>
    obtain ⟨value, -, heq⟩ := Option.map_eq_some_iff.1 h
    obtain ⟨rfl, rfl⟩ := Prod.mk.inj heq
    exact .inr (.inr (.inr ⟨rfl, by simp, rfl, rfl⟩))
  | back | size | empty =>
    obtain ⟨rfl, rfl⟩ := Prod.mk.inj (Option.some.inj h)
    exact .inr (.inr (.inr ⟨rfl, by simp, rfl, rfl⟩))
  | clear =>
    obtain ⟨rfl, rfl⟩ := Prod.mk.inj (Option.some.inj h)
    exact .inr (.inr (.inl ⟨rfl, rfl, rfl⟩))

end Ledger

namespace Sound

theorem init (α : Type) (maxSize : Nat) : Sound maxSize (Ledger.init α) :=
  ⟨Nat.zero_le _, List.Perm.nil, List.Pairwise.nil⟩

theorem lt_of_held (h : Sound maxSize l) {i : Nat} (hi : i ∈ l.held) : i < l.pushed.length :=
  List.mem_range.1 (h.places.mem_iff.1 (List.mem_append_right _ hi))

theorem lt_of_left (h : Sound maxSize l) {i : Nat} (hi : i ∈ l.left) : i < l.pushed.length := by
  refine List.mem_range.1 (h.places.mem_iff.1 ?_)
  simp [hi]

/-- The newest number is beyond every other. -/
theorem order_append (h : Sound maxSize l) {js : List Nat} (hsub : js.Sublist l.held) :
    (l.left ++ (js ++ [l.pushed.length])).Pairwise (· < ·) := by
  rw [← List.append_assoc, List.pairwise_append]
  refine ⟨h.order.sublist (hsub.append_left l.left), List.pairwise_singleton _ _, fun i hi j hj => ?_⟩
  rw [List.mem_singleton.1 hj]
  rcases List.mem_append.1 hi with hi | hi
  · exact h.lt_of_left hi
  · exact h.lt_of_held (hsub.subset hi)

theorem push (h : Sound maxSize l) (hpos : 0 < maxSize) (dropOldest : Bool) (value : α) :
    Sound maxSize (l.push maxSize dropOldest value).1 := by
  have hbounded := h.bounded
  have hplaces := h.places.append_right [l.pushed.length]
  have hrange : List.range (l.pushed ++ [value]).length = List.range l.pushed.length ++ [l.pushed.length] := by
    rw [List.length_append, List.length_singleton, List.range_succ]
  obtain ⟨hfull, -, heq⟩ | ⟨-, -, heq⟩ | ⟨hroom, heq⟩ := @Ledger.push_cases α maxSize dropOldest l value
  · rw [heq]
    refine ⟨?_, ?_, h.order_append (List.tail_sublist l.held)⟩
    · simp only [List.length_append, List.length_tail, List.length_singleton]
      omega
    · dsimp only
      rw [hrange]
      refine List.Perm.trans (List.Perm.of_eq ?_) hplaces
      have hsplit : l.held.take 1 ++ l.held.tail = l.held := by cases l.held <;> rfl
      conv => rhs; rw [← hsplit]
      simp only [List.append_assoc]
  · rw [heq]
    refine ⟨hbounded, ?_, h.order⟩
    dsimp only
    rw [hrange]
    refine List.Perm.trans ?_ hplaces
    simp only [List.append_assoc]
    refine List.Perm.append_left _ (List.Perm.append_left _ (List.Perm.append_left _ ?_))
    exact List.perm_append_comm
  · rw [heq]
    refine ⟨?_, ?_, h.order_append (List.Sublist.refl l.held)⟩
    · simp only [List.length_append, List.length_singleton]
      omega
    · dsimp only
      rw [hrange, ← List.append_assoc]
      exact hplaces

theorem pop (h : Sound maxSize l) {value : α} (hpop : l.pop = some (l', value)) : Sound maxSize l' := by
  obtain ⟨i, rest, hheld, -, rfl⟩ := Ledger.pop_eq_some.1 hpop
  have hbounded := h.bounded
  have hplaces := h.places
  have horder := h.order
  rw [hheld] at hbounded hplaces horder
  refine ⟨?_, ?_, ?_⟩
  · simp only [List.length_cons] at hbounded
    dsimp only
    omega
  · refine List.Perm.trans ?_ hplaces
    simp only [List.append_assoc, List.cons_append, List.nil_append]
    refine List.Perm.append_left _ ?_
    rw [← List.append_assoc, ← List.append_assoc]
    exact List.perm_middle.symm
  · rw [List.append_assoc]
    exact horder

theorem clear (h : Sound maxSize l) : Sound maxSize { l with held := [], cleared := l.cleared ++ l.held } := by
  refine ⟨Nat.zero_le _, ?_, ?_⟩
  · refine List.Perm.trans ?_ h.places
    simp only [List.append_nil, List.append_assoc]
    refine List.Perm.append_left _ (List.Perm.append_left _ ?_)
    exact List.perm_append_comm
  · rw [List.append_nil]
    exact h.order.sublist (List.sublist_append_left _ _)

/-- **Every step keeps the books.** -/
theorem step (h : Sound maxSize l) (hpos : 0 < maxSize) (hstep : l.step maxSize dropOldest op = some (l', out)) :
    Sound maxSize l' := by
  obtain ⟨value, -, hpush⟩ | ⟨value, -, -, hpop, -⟩ | ⟨-, rfl, -⟩ | ⟨-, -, rfl, -⟩ := Ledger.step_cases hstep
  · have hsound := h.push hpos dropOldest value
    rwa [hpush] at hsound
  · exact h.pop hpop
  · exact h.clear
  · exact h

end Sound

/-! ## One step -/

theorem pushed_step (h : l.step maxSize dropOldest op = some (l', out)) : l'.pushed = l.pushed ++ op.pushes.toList := by
  obtain ⟨value, rfl, hpush⟩ | ⟨value, hop, -, hpop, -⟩ | ⟨rfl, rfl, -⟩ | ⟨hop, -, rfl, -⟩ := Ledger.step_cases h
  · obtain ⟨-, -, heq⟩ | ⟨-, -, heq⟩ | ⟨-, heq⟩ := @Ledger.push_cases α maxSize dropOldest l value <;>
    · obtain ⟨rfl, -⟩ := Prod.mk.inj (hpush.symm.trans heq)
      rfl
  · obtain ⟨i, rest, -, -, rfl⟩ := Ledger.pop_eq_some.1 hpop
    simp [hop]
  · exact (List.append_nil _).symm
  · simp [hop]

/-- A number has its element for good. -/
theorem element_step (h : l.step maxSize dropOldest op = some (l', out)) {i : Nat} (hi : i < l.pushed.length) :
    l'.element i = l.element i := by
  rw [Ledger.element, Ledger.element, pushed_step h, List.getElem?_append_left hi]

/-- **Nothing is lost otherwise.** -/
theorem losses_step (hsound : Sound maxSize l) (hpos : 0 < maxSize) (h : l.step maxSize dropOldest op = some (l', out)) :
    Losses maxSize dropOldest l op l' := by
  obtain ⟨value, rfl, hpush⟩ | ⟨value, -, -, hpop, -⟩ | ⟨rfl, rfl, -⟩ | ⟨-, -, rfl, -⟩ := Ledger.step_cases h
  · obtain ⟨hfull, rfl, heq⟩ | ⟨hfull, rfl, heq⟩ | ⟨-, heq⟩ := @Ledger.push_cases α maxSize dropOldest l value
    · obtain ⟨rfl, -⟩ := Prod.mk.inj (hpush.symm.trans heq)
      obtain ⟨i, rest, hheld⟩ := List.exists_cons_of_length_pos (hpos.trans_le hfull)
      refine ⟨.inl rfl, .inr ⟨⟨value, rfl⟩, le_antisymm hsound.bounded hfull, ?_⟩⟩
      rw [if_pos rfl, hheld]
      exact ⟨i, rest, rfl, rfl⟩
    · obtain ⟨rfl, -⟩ := Prod.mk.inj (hpush.symm.trans heq)
      exact ⟨.inl rfl, .inr ⟨⟨value, rfl⟩, le_antisymm hsound.bounded hfull, by simp⟩⟩
    · obtain ⟨rfl, -⟩ := Prod.mk.inj (hpush.symm.trans heq)
      exact ⟨.inl rfl, .inl rfl⟩
  · obtain ⟨i, rest, -, -, rfl⟩ := Ledger.pop_eq_some.1 hpop
    exact ⟨.inl rfl, .inl rfl⟩
  · exact ⟨.inr ⟨rfl, rfl⟩, .inl rfl⟩
  · exact ⟨.inl rfl, .inl rfl⟩

/-- What has left is what the replies handed out. -/
theorem left_step (hsound : Sound maxSize l) (h : l.step maxSize dropOldest op = some (l', out)) :
    l'.left.map l'.element = l.left.map l.element ++ (out.filterMap Reply.leaving).map some := by
  have hkeep : l.left.map l'.element = l.left.map l.element :=
    List.map_congr_left fun i hi => element_step h (hsound.lt_of_left hi)
  obtain ⟨value, rfl, hpush⟩ | ⟨value, -, -, hpop, hout⟩ | ⟨rfl, rfl, rfl⟩ | ⟨-, -, rfl, hout⟩ := Ledger.step_cases h
  · have hleft : l'.left = l.left ∧ out.filterMap Reply.leaving = [] := by
      obtain ⟨-, -, heq⟩ | ⟨-, -, heq⟩ | ⟨-, heq⟩ := @Ledger.push_cases α maxSize dropOldest l value <;>
      · obtain ⟨rfl, rfl⟩ := Prod.mk.inj (hpush.symm.trans heq)
        exact ⟨rfl, rfl⟩
    rw [hleft.1, hleft.2, hkeep]
    exact (List.append_nil _).symm
  · obtain ⟨i, rest, -, helem, rfl⟩ := Ledger.pop_eq_some.1 hpop
    rw [hout, List.map_append, hkeep, List.map_singleton, List.map_singleton, ← helem]
    rfl
  · exact (List.append_nil _).symm
  · rw [hout]
    exact (List.append_nil _).symm

/-! ## Runs -/

/-- **What every run of the bounded sequence keeps**, from the books that balance. -/
theorem run_sound (hpos : 0 < maxSize) {ops : List (Op α)} :
    ∀ {l l' : Ledger α} {out : List (Reply α)}, Sound maxSize l →
      (sequence α maxSize dropOldest).run l ops = some (l', out) →
      Sound maxSize l' ∧ l'.pushed = l.pushed ++ ops.filterMap Op.pushes ∧
        l'.left.map l'.element = l.left.map l.element ++ (out.filterMap Reply.leaving).map some := by
  induction ops with
  | nil =>
    intro l l' out hl hr
    simp only [Machine.run_nil, Option.some.injEq, Prod.mk.injEq] at hr
    obtain ⟨rfl, rfl⟩ := hr
    exact ⟨hl, by simp, by simp⟩
  | cons op ops ih =>
    intro l l' out hl hr
    obtain ⟨t, es, o, hst, hr', rfl⟩ := Machine.run_cons.1 hr
    obtain ⟨hl', hpushed, hleft⟩ := ih (hl.step hpos hst) hr'
    refine ⟨hl', ?_, ?_⟩
    · rw [hpushed, pushed_step hst, List.append_assoc, List.filterMap_cons]
      cases op.pushes <;> rfl
    · rw [hleft, left_step hl hst, List.append_assoc, List.filterMap_append, List.map_append]

end Fifo
end LfSentry
