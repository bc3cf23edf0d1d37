import Mathlib.Algebra.Group.Basic
import Mathlib.Algebra.BigOperators.Group.List.Basic
import Mathlib.Data.List.Infix
import Mathlib.Order.Lattice
/-!
# Stopwatch — how long a switch was on

A switch is turned on and off, and turned again the way it stands without effect.  The spells it was on are read off its
turns (`spells`); where the turns are in the order of time they are the instants whose last turn was on, in order and
apart (`onDuring_spells`).  A stopwatch keeps the sum of the spells that are over and the beginning of the one that is not;
what it shows is the length of the spells (`reading_foldl`).
-/
namespace LfSentry
namespace Stopwatch

variable {T : Type}

/-- The switch is turned on or off. -/
structure Turn (T : Type) where
  time : T
  on : Bool
deriving DecidableEq

/-- The spells the switch is on, the last one up to `now`; it is on since `since` at first. -/
def spells : Option T → List (Turn T) → T → List (T × T)
  | none, [], _ => []
  | some s, [], now => [(s, now)]
  | none, ⟨time, true⟩ :: turns, now => spells (some time) turns now
  | none, ⟨_, false⟩ :: turns, now => spells none turns now
  | some s, ⟨_, true⟩ :: turns, now => spells (some s) turns now
  | some s, ⟨time, false⟩ :: turns, now => (s, time) :: spells none turns now

/-- The switch is on at an instant: the last turn up to it was on. -/
def OnAt [Preorder T] (turns : List (Turn T)) (τ : T) : Prop :=
  ∃ e rest, e :: rest <:+ turns ∧ e.on = true ∧ e.time ≤ τ ∧ ∀ f ∈ rest, τ < f.time

/-- The spells are, in order and apart, the instants before `now` at which the switch is on. -/
structure OnDuring [Preorder T] (turns : List (Turn T)) (now : T) (l : List (T × T)) : Prop where
  forward : ∀ s ∈ l, s.1 ≤ s.2 ∧ s.2 ≤ now
  apart : l.Pairwise fun s t => s.2 ≤ t.1
  onAt_iff : ∀ τ < now, OnAt turns τ ↔ ∃ s ∈ l, s.1 ≤ τ ∧ τ < s.2

/-- A switch that is on at first was turned on before. -/
def begun : Option T → List (Turn T)
  | none => []
  | some s => [⟨s, true⟩]

section Order

variable [LinearOrder T] {τ now : T} {turns : List (Turn T)}

theorem onAt_cons (e : Turn T) :
    OnAt (e :: turns) τ ↔ (e.on = true ∧ e.time ≤ τ ∧ ∀ f ∈ turns, τ < f.time) ∨ OnAt turns τ := by
  constructor
  · rintro ⟨e', rest, hsuffix, hon⟩
    rcases List.suffix_cons_iff.1 hsuffix with heq | hsuffix
    · cases heq
      exact Or.inl hon
    · exact Or.inr ⟨e', rest, hsuffix, hon⟩
  · rintro (hon | ⟨e', rest, hsuffix, hon⟩)
    · exact ⟨e, turns, List.suffix_refl _, hon⟩
    · exact ⟨e', rest, hsuffix.trans (List.suffix_cons e turns), hon⟩

theorem not_onAt_nil : ¬ OnAt ([] : List (Turn T)) τ := by
  rintro ⟨e, rest, hsuffix, -⟩
  cases List.suffix_nil.1 hsuffix

theorem onAt_off (t : T) : OnAt (⟨t, false⟩ :: turns) τ ↔ OnAt turns τ := by simp [onAt_cons]

/-- Turned on while on: the later turn changes nothing. -/
theorem onAt_again {s t : T} (hst : s ≤ t) : OnAt (⟨s, true⟩ :: ⟨t, true⟩ :: turns) τ ↔ OnAt (⟨s, true⟩ :: turns) τ := by
  rw [onAt_cons, onAt_cons, onAt_cons]
  simp only [true_and, List.forall_mem_cons]
  constructor
  · rintro (⟨hs, -, hrest⟩ | ⟨ht, hrest⟩ | h)
    · exact Or.inl ⟨hs, hrest⟩
    · exact Or.inl ⟨hst.trans ht, hrest⟩
    · exact Or.inr h
  · rintro (⟨hs, hrest⟩ | h)
    · rcases lt_or_ge τ t with ht | ht
      · exact Or.inl ⟨hs, ht, hrest⟩
      · exact Or.inr (Or.inl ⟨ht, hrest⟩)
    · exact Or.inr (Or.inr h)

/-- Turned off after it was on. -/
theorem onAt_spell {s t : T} (hrest : ∀ f ∈ turns, t ≤ f.time) :
    OnAt (⟨s, true⟩ :: ⟨t, false⟩ :: turns) τ ↔ (s ≤ τ ∧ τ < t) ∨ OnAt turns τ := by
  rw [onAt_cons, onAt_off]
  simp only [true_and, List.forall_mem_cons]
  refine or_congr_left (and_congr_right fun _ => ?_)
  exact ⟨fun h => h.1, fun h => ⟨h, fun f hf => h.trans_le (hrest f hf)⟩⟩

theorem OnDuring.congr {turns' : List (Turn T)} {l : List (T × T)} (h : OnDuring turns now l)
    (hat : ∀ τ, OnAt turns' τ ↔ OnAt turns τ) : OnDuring turns' now l :=
  ⟨h.forward, h.apart, fun τ hτ => (hat τ).trans (h.onAt_iff τ hτ)⟩

omit [LinearOrder T] in
/-- A spell begins with a turn. -/
theorem fst_mem_spells : ∀ (since : Option T) (turns : List (Turn T)) {p : T × T},
    p ∈ spells since turns now → p.1 ∈ (begun since ++ turns).map Turn.time
  | none, [], _, hp => by cases hp
  | some s, [], _, hp => by
    rw [List.mem_singleton.1 hp]
    exact List.mem_cons_self
  | none, ⟨time, true⟩ :: turns, _, hp => fst_mem_spells (some time) turns hp
  | none, ⟨_, false⟩ :: turns, _, hp => List.mem_cons_of_mem _ (fst_mem_spells none turns hp)
  | some s, ⟨_, true⟩ :: turns, _, hp => by
    have ih := fst_mem_spells (some s) turns hp
    simp only [begun, List.cons_append, List.nil_append, List.map_cons, List.mem_cons] at ih ⊢
    exact ih.imp_right Or.inr
  | some s, ⟨time, false⟩ :: turns, _, hp => by
    rcases List.mem_cons.1 hp with rfl | hp
    · exact List.mem_cons_self
    · exact List.mem_cons_of_mem _ (List.mem_cons_of_mem _ (fst_mem_spells none turns hp))

/-- **In the order of time the spells are the instants at which the switch is on.** -/
theorem onDuring_spells : ∀ (since : Option T) (turns : List (Turn T)),
    ((begun since ++ turns).map Turn.time ++ [now]).Pairwise (· ≤ ·) →
      OnDuring (begun since ++ turns) now (spells since turns now)
  | none, [], _ => ⟨by simp [spells], by simp [spells], fun _ _ => by simpa [spells, begun] using not_onAt_nil⟩
  | some s, [], h => by
    have hs : s ≤ now := by simpa [begun] using h
    refine ⟨by simpa [spells] using hs, by simp [spells], fun τ hτ => ?_⟩
    simp [begun, spells, onAt_cons, not_onAt_nil, hτ]
  | none, ⟨time, true⟩ :: turns, h => onDuring_spells (some time) turns h
  | none, ⟨_, false⟩ :: turns, h => (onDuring_spells none turns h.of_cons).congr fun _ => onAt_off _
  | some s, ⟨time, true⟩ :: turns, h => by
    have hst : s ≤ time := List.rel_of_pairwise_cons h List.mem_cons_self
    have htail : ((begun (some s) ++ turns).map Turn.time ++ [now]).Pairwise (· ≤ ·) :=
      h.sublist ((List.sublist_cons_self time _).cons_cons s)
    exact (onDuring_spells (some s) turns htail).congr fun _ => onAt_again hst
  | some s, ⟨time, false⟩ :: turns, h => by
    have hst : s ≤ time := List.rel_of_pairwise_cons h List.mem_cons_self
    have hlater : ∀ t ∈ turns.map Turn.time ++ [now], time ≤ t := fun t ht => List.rel_of_pairwise_cons h.of_cons ht
    have ih := onDuring_spells none turns h.of_cons.of_cons
    refine ⟨?_, ?_, fun τ hτ => ?_⟩
    · rw [spells, List.forall_mem_cons]
      exact ⟨⟨hst, hlater now (by simp)⟩, ih.forward⟩
    · rw [spells, List.pairwise_cons]
      exact ⟨fun p hp => hlater p.1 (List.mem_append_left _ (fst_mem_spells none turns hp)), ih.apart⟩
    · have hrest : ∀ f ∈ turns, time ≤ f.time := fun f hf =>
        hlater f.time (List.mem_append_left _ (List.mem_map_of_mem hf))
      rw [spells, List.exists_mem_cons_iff, ← ih.onAt_iff τ hτ]
      exact onAt_spell hrest

end Order

/-! ## The stopwatch -/

/-- The sum of the spells that are over, and the beginning of the one that is not. -/
structure Watch (T : Type) where
  sum : T
  since : Option T

namespace Watch

variable [AddCommGroup T]

def zero : Watch T := ⟨0, none⟩

def turn (w : Watch T) (e : Turn T) : Watch T :=
  match w.since, e.on with
  | none, true => ⟨w.sum, some e.time⟩
  | some s, false => ⟨w.sum + (e.time - s), none⟩
  | none, false => w
  | some _, true => w

def reading (w : Watch T) (now : T) : T :=
  match w.since with
  | none => w.sum
  | some s => w.sum + (now - s)

theorem isSome_turn (w : Watch T) (e : Turn T) : (w.turn e).since.isSome = e.on := by
  obtain ⟨sum, since⟩ := w
  obtain ⟨time, on⟩ := e
  cases since <;> cases on <;> rfl

/-- A stopwatch runs as the last turn says. -/
theorem isSome_foldl (w : Watch T) (turns : List (Turn T)) :
    (turns.foldl Watch.turn w).since.isSome = (turns.getLast?.map Turn.on).getD w.since.isSome := by
  induction turns using List.reverseRecOn with
  | nil => rfl
  | append_singleton turns e _ =>
    rw [List.foldl_append, List.foldl_cons, List.foldl_nil, isSome_turn, List.getLast?_concat]
    rfl

end Watch

section Length

variable [AddCommGroup T]

def length (l : List (T × T)) : T := (l.map fun s => s.2 - s.1).sum

@[simp] theorem length_nil : length ([] : List (T × T)) = 0 := rfl

@[simp] theorem length_cons (s : T × T) (l : List (T × T)) : length (s :: l) = (s.2 - s.1) + length l := by
  rw [length, List.map_cons, List.sum_cons, length]

/-- **What a stopwatch shows is what it had and the length of the spells since.** -/
theorem reading_foldl (now : T) : ∀ (sum : T) (since : Option T) (turns : List (Turn T)),
    (turns.foldl Watch.turn ⟨sum, since⟩).reading now = sum + length (spells since turns now)
  | sum, none, [] => by simp [Watch.reading, spells]
  | sum, some s, [] => by simp [Watch.reading, spells]
  | sum, none, ⟨time, true⟩ :: turns => reading_foldl now sum (some time) turns
  | sum, none, ⟨_, false⟩ :: turns => reading_foldl now sum none turns
  | sum, some s, ⟨_, true⟩ :: turns => reading_foldl now sum (some s) turns
  | sum, some s, ⟨time, false⟩ :: turns => by
    rw [spells, length_cons, ← add_assoc]
    exact reading_foldl now (sum + (time - s)) none turns

end Length

end Stopwatch
end LfSentry
