import Mathlib.Data.Nat.Find
/-!
# Settling — a bounded iteration that stops when it settles

A partial step is repeated up to `n` times, and no longer once a state is close to the one before.  Such a loop ends at the
first state that is (`settle_of_settled`), or at the last iterate where none is (`settle_of_not_settled`): that it returned
says nothing of having settled.
-/
namespace LfSentry
namespace Settling

variable {σ : Type} (step : σ → Option σ) (close : σ → σ → Prop)

def iterates : Nat → σ → Option σ
  | 0, s => some s
  | n + 1, s => (step s).bind (iterates n)

/-- The iterate after the first `m` exists, and is close to the one before. -/
def CloseAt (m : Nat) (s : σ) : Prop := ∃ a b, iterates step m s = some a ∧ step a = some b ∧ close a b

/-- The iteration settles at the iterate `b`, the first that is close to the one before. -/
structure SettlesAt (m : Nat) (s a b : σ) : Prop where
  before : iterates step m s = some a
  next : step a = some b
  near : close a b
  first : ∀ k < m, ¬ CloseAt step close k s

/-- The loop: at most `n` steps, and none after two states that are close. -/
def settle [DecidableRel close] : Nat → σ → Option σ
  | 0, s => some s
  | n + 1, s =>
    match step s with
    | none => none
    | some s' => if close s s' then some s' else settle n s'

variable {step close} {s s' : σ}

theorem closeAt_zero : CloseAt step close 0 s ↔ ∃ b, step s = some b ∧ close s b :=
  ⟨fun ⟨_, b, ha, hb, h⟩ => Option.some.inj ha ▸ ⟨b, hb, h⟩, fun ⟨b, hb, h⟩ => ⟨s, b, rfl, hb, h⟩⟩

theorem iterates_succ (hs : step s = some s') (m : Nat) : iterates step (m + 1) s = iterates step m s' := by
  rw [iterates, hs]
  rfl

theorem closeAt_succ (hs : step s = some s') (m : Nat) : CloseAt step close (m + 1) s ↔ CloseAt step close m s' := by
  unfold CloseAt
  rw [iterates_succ hs]

/-- An iterate has the iterates before it. -/
theorem step_of_iterates_succ {m : Nat} (h : (iterates step (m + 1) s).isSome = true) : ∃ s', step s = some s' := by
  rw [iterates] at h
  cases hs : step s with
  | none => rw [hs] at h; cases h
  | some s' => exact ⟨s', rfl⟩

section Loop

variable [DecidableRel close]

/-- **A loop that settles in time ends there.** -/
theorem settle_of_settled {n m : Nat} {a b : σ} (h : SettlesAt step close m s a b) (hm : m < n) :
    settle step close n s = some b := by
  induction m generalizing n s with
  | zero =>
    obtain ⟨n, rfl⟩ : ∃ n', n = n' + 1 := ⟨n - 1, by omega⟩
    obtain rfl : s = a := Option.some.inj h.before
    rw [settle, h.next]
    exact if_pos h.near
  | succ m ih =>
    obtain ⟨n, rfl⟩ : ∃ n', n = n' + 1 := ⟨n - 1, by omega⟩
    obtain ⟨s', hs⟩ := step_of_iterates_succ (Option.isSome_iff_exists.2 ⟨a, h.before⟩)
    have hnot : ¬ close s s' := fun hclose => h.first 0 m.succ_pos (closeAt_zero.2 ⟨s', hs, hclose⟩)
    have hrest : SettlesAt step close m s' a b :=
      ⟨(iterates_succ hs m).symm.trans h.before, h.next, h.near,
        fun k hk hclose => h.first (k + 1) (Nat.succ_lt_succ hk) ((closeAt_succ hs k).2 hclose)⟩
    rw [settle, hs]
    simp only [if_neg hnot]
    exact ih hrest (Nat.lt_of_succ_lt_succ hm)

/-- **A loop that does not settle ends at its last iterate.** -/
theorem settle_of_not_settled {n : Nat} (h : ∀ m < n, ¬ CloseAt step close m s) :
    settle step close n s = iterates step n s := by
  induction n generalizing s with
  | zero => rfl
  | succ n ih =>
    rw [settle]
    cases hs : step s with
    | none => rw [iterates, hs]; rfl
    | some s' =>
      have hnot : ¬ close s s' := fun hclose => h 0 n.succ_pos (closeAt_zero.2 ⟨s', hs, hclose⟩)
      simp only [if_neg hnot]
      rw [iterates_succ hs]
      exact ih fun m hm hclose => h (m + 1) (Nat.succ_lt_succ hm) ((closeAt_succ hs m).2 hclose)

end Loop

/-- An iteration that is close somewhere settles at the first such place. -/
theorem CloseAt.settles {m : Nat} (h : CloseAt step close m s) : ∃ k ≤ m, ∃ a b, SettlesAt step close k s a b := by
  classical
  have hex : ∃ k, CloseAt step close k s := ⟨m, h⟩
  obtain ⟨a, b, ha, hb, hclose⟩ := Nat.find_spec hex
  exact ⟨Nat.find hex, Nat.find_min' hex h, a, b, ha, hb, hclose, fun k hk => Nat.find_min hex hk⟩

end Settling
end LfSentry
