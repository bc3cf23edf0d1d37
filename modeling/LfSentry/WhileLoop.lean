import Mathlib.Order.Basic
/-!
# WhileLoop — a `while` loop by rounds

`whileLoop cond body fuel` is the loop for at most `fuel` rounds; `none` is a loop that wants one more.  A variant that
every round lowers makes it end, with whatever the rounds keep (`exists_of_variant`).
-/
namespace LfSentry

section Loop

variable {σ : Type} (cond : σ → Prop) [DecidablePred cond] (body : σ → σ)

/-- `while (cond) body`, at most `fuel` rounds of it. -/
def whileLoop : Nat → σ → Option σ
  | 0, s => if cond s then none else some s
  | fuel + 1, s => if cond s then whileLoop fuel (body s) else some s

variable {cond body} {s : σ}

theorem whileLoop_of_not (h : ¬ cond s) (fuel : Nat) : whileLoop cond body fuel s = some s := by
  cases fuel <;> simp [whileLoop, h]

theorem whileLoop_of_cond (h : cond s) (fuel : Nat) :
    whileLoop cond body (fuel + 1) s = whileLoop cond body fuel (body s) := by
  simp [whileLoop, h]

/-- **The rule of total correctness**: what every round keeps holds at the end, and there is an end. -/
theorem exists_of_variant (inv : σ → Prop) (variant : σ → Nat)
    (hround : ∀ s, inv s → cond s → inv (body s) ∧ variant (body s) < variant s) (hs : inv s) :
    ∃ r, inv r ∧ ¬ cond r ∧ ∀ fuel, variant s ≤ fuel → whileLoop cond body fuel s = some r := by
  induction hv : variant s using Nat.strongRecOn generalizing s with
  | _ v ih =>
    subst hv
    by_cases hc : cond s
    · obtain ⟨hinv, hlt⟩ := hround s hs hc
      obtain ⟨r, hr, hnot, hends⟩ := ih _ hlt hinv rfl
      refine ⟨r, hr, hnot, fun fuel hfuel => ?_⟩
      obtain ⟨k, rfl⟩ : ∃ k, fuel = k + 1 := ⟨fuel - 1, by omega⟩
      rw [whileLoop_of_cond hc]
      exact hends k (by omega)
    · exact ⟨s, hs, hc, fun fuel _ => whileLoop_of_not hc fuel⟩

end Loop

end LfSentry
