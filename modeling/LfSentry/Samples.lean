import Mathlib.Data.List.Pairwise
import Mathlib.Order.Lattice
/-!
# Samples — values with their times, taken in the order of time

In a rising sequence two samples are adjacent if none lies strictly between them in time.  A sequence that is partly
taken: what is taken lies before what is left, and the last one taken is adjacent to the first one left.
-/
namespace LfSentry
namespace Samples

/-- A value and the time it was sampled at. -/
structure Sample (Q T : Type) where
  value : Q
  time : T
  deriving DecidableEq, Repr

variable {Q T : Type} [LinearOrder T]

def Rising (l : List (Sample Q T)) : Prop := l.Pairwise fun a b => a.time < b.time

/-- Neighbours in time among the samples `l`. -/
structure Adjacent (l : List (Sample Q T)) (a b : Sample Q T) : Prop where
  left : a ∈ l
  right : b ∈ l
  lt : a.time < b.time
  gap : ∀ s ∈ l, s.time ≤ a.time ∨ b.time ≤ s.time

variable {l taken rest : List (Sample Q T)} {a b s : Sample Q T}

theorem rising_snoc : Rising (l ++ [s]) ↔ Rising l ∧ ∀ r ∈ l, r.time < s.time := by
  simp [Rising, List.pairwise_append]

theorem Adjacent.not_between (h : Adjacent l a b) (hs : s ∈ l) (has : a.time < s.time) : b.time ≤ s.time :=
  (h.gap s hs).resolve_left (not_le.2 has)

/-- **What is taken lies before what is left.** -/
theorem Rising.taken_lt (h : Rising (taken ++ rest)) (ha : a ∈ taken) (hb : b ∈ rest) : a.time < b.time :=
  (List.pairwise_append.1 h).2.2 a ha b hb

/-- **The last one taken is adjacent to the first one left.** -/
theorem Rising.adjacent (h : Rising (taken ++ [a] ++ b :: rest)) : Adjacent (taken ++ [a] ++ b :: rest) a b where
  left := by simp
  right := by simp
  lt := h.taken_lt (by simp) List.mem_cons_self
  gap s hs := by
    rcases List.mem_append.1 hs with hs | hs
    · rcases List.mem_append.1 hs with hs | hs
      · have hrise : Rising (taken ++ [a]) := (List.pairwise_append.1 h).1
        exact Or.inl (le_of_lt (hrise.taken_lt hs (List.mem_singleton_self a)))
      · rw [List.mem_singleton.1 hs]
        exact Or.inl le_rfl
    · rcases List.mem_cons.1 hs with rfl | hs
      · exact Or.inr le_rfl
      · have hrise : Rising (b :: rest) := (List.pairwise_append.1 h).2.1
        exact Or.inr (le_of_lt (List.rel_of_pairwise_cons hrise hs))

/-- Nothing taken later lies between two that are adjacent. -/
theorem Adjacent.not_taken_since (hadj : Adjacent (taken ++ rest) a b) (h : Rising (taken ++ rest)) (hb : b ∈ rest)
    (hs : s ∈ taken) : s.time ≤ a.time := by
  rcases hadj.gap s (List.mem_append_left _ hs) with hle | hge
  · exact hle
  · exact absurd (h.taken_lt hs hb) (not_lt.2 hge)

end Samples
end LfSentry
