import Mathlib.Order.Lattice
import Mathlib.Data.List.Basic
/-!
# Marks — the samples of an increasing clock in the window behind a mark

The window is `[b, e)`.  It holds one sample, once a sample has passed it and never more, iff the first sample at or
after the mark falls into it and the next one does not (`once_iff`).
-/
namespace LfSentry
namespace Marks

variable {K : Type} [LinearOrder K]

/-- How many of the samples fall into the window. -/
def within (b e : K) (ts : List K) : Nat := ts.countP fun t => decide (b ≤ t) && decide (t < e)

/-- At most one sample in the window, and one if a sample is behind it. -/
def Once (b e : K) (ts : List K) : Prop := within b e ts ≤ 1 ∧ ((∃ t ∈ ts, e < t) → within b e ts = 1)

/-- The first sample at or after the mark is in the window and the next is not; at the window's very end the first may
be the last there is. -/
def OnMark (b e : K) (ts : List K) : Prop :=
  ∀ t rest, ts.dropWhile (fun t => decide (t < b)) = t :: rest →
    t < e ∧ (∀ next ∈ rest.head?, e ≤ next) ∨ t = e ∧ rest = []

theorem within_cons (b e t : K) (ts : List K) :
    within b e (t :: ts) = within b e ts + if b ≤ t ∧ t < e then 1 else 0 := by
  simp only [within, List.countP_cons, Bool.and_eq_true, decide_eq_true_eq]

theorem within_eq_zero_of_le {b e : K} {ts : List K} (h : ∀ t ∈ ts, e ≤ t) : within b e ts = 0 := by
  refine List.countP_eq_zero.2 fun t ht => ?_
  simp [not_lt.2 (h t ht)]

theorem le_of_head {e : K} {ts : List K} (hs : ts.Pairwise (· < ·)) (hhead : ∀ next ∈ ts.head?, e ≤ next) :
    ∀ t ∈ ts, e ≤ t := by
  intro t ht
  cases ts with
  | nil => cases ht
  | cons next rest =>
    have hnext : e ≤ next := hhead next rfl
    rcases List.mem_cons.1 ht with rfl | hrest
    · exact hnext
    · exact hnext.trans ((List.pairwise_cons.1 hs).1 t hrest).le

/-- Behind the first sample no further one is in the window iff the next is not. -/
theorem within_eq_zero_iff {b e t : K} {ts : List K} (hb : b ≤ t) (hs : (t :: ts).Pairwise (· < ·)) :
    within b e ts = 0 ↔ ∀ next ∈ ts.head?, e ≤ next := by
  obtain ⟨hlt, hts⟩ := List.pairwise_cons.1 hs
  constructor
  · intro hzero next hnext
    have hmem : next ∈ ts := List.mem_of_mem_head? hnext
    have hout := List.countP_eq_zero.1 hzero next hmem
    simp only [Bool.and_eq_true, decide_eq_true_eq, not_and, not_lt] at hout
    exact hout (hb.trans (hlt next hmem).le)
  · intro hhead
    exact within_eq_zero_of_le (le_of_head hts hhead)

/-! ## By the first sample -/

theorem onMark_cons_of_lt {b e t : K} {ts : List K} (hb : t < b) : OnMark b e (t :: ts) ↔ OnMark b e ts := by
  simp only [OnMark, List.dropWhile_cons, decide_eq_true hb, if_true]

theorem onMark_cons_of_le {b e t : K} {ts : List K} (hb : b ≤ t) :
    OnMark b e (t :: ts) ↔ t < e ∧ (∀ next ∈ ts.head?, e ≤ next) ∨ t = e ∧ ts = [] := by
  simp only [OnMark, List.dropWhile_cons, decide_eq_false hb.not_gt, Bool.false_eq_true, if_false, List.cons.injEq,
    and_imp]
  constructor
  · intro h
    exact h t ts rfl rfl
  · rintro h _ _ rfl rfl
    exact h

/-- A sample before the mark counts for nothing. -/
theorem once_cons_of_lt {b e t : K} {ts : List K} (hbe : b ≤ e) (hb : t < b) : Once b e (t :: ts) ↔ Once b e ts := by
  have hcount : within b e (t :: ts) = within b e ts := by
    rw [within_cons, if_neg fun h => absurd hb h.1.not_gt, Nat.add_zero]
  have hpassed : (∃ x ∈ t :: ts, e < x) ↔ ∃ x ∈ ts, e < x := by
    simp only [List.mem_cons, exists_eq_or_imp, or_iff_right_iff_imp]
    intro h
    exact absurd (hb.trans_le hbe) h.not_gt
  rw [Once, Once, hcount, hpassed]

/-- With the first sample in the window no other may be. -/
theorem once_cons_of_within {b e t : K} {ts : List K} (hs : (t :: ts).Pairwise (· < ·)) (hb : b ≤ t) (he : t < e) :
    Once b e (t :: ts) ↔ ∀ next ∈ ts.head?, e ≤ next := by
  rw [Once, within_cons, if_pos ⟨hb, he⟩, ← within_eq_zero_iff hb hs]
  constructor
  · rintro ⟨hle, -⟩
    omega
  · intro hzero
    rw [hzero]
    exact ⟨Nat.le_refl 1, fun _ => rfl⟩

/-- With the first sample behind the window nothing may have passed it. -/
theorem once_cons_of_behind {b e t : K} {ts : List K} (hs : (t :: ts).Pairwise (· < ·)) (he : e ≤ t) :
    Once b e (t :: ts) ↔ t = e ∧ ts = [] := by
  have hall : ∀ x ∈ t :: ts, e ≤ x := le_of_head hs fun next hnext => by
    obtain rfl := Option.some.inj hnext
    exact he
  rw [Once, within_eq_zero_of_le hall]
  constructor
  · rintro ⟨-, hnone⟩
    have hlast : ∀ x ∈ t :: ts, x = e := fun x hx =>
      (hall x hx).antisymm' (not_lt.1 fun h => absurd (hnone ⟨x, hx, h⟩) (by decide))
    refine ⟨hlast t List.mem_cons_self, List.eq_nil_iff_forall_not_mem.2 fun x hx => ?_⟩
    have hlt := (List.pairwise_cons.1 hs).1 x hx
    rw [hlast t List.mem_cons_self, hlast x (List.mem_cons_of_mem t hx)] at hlt
    exact lt_irrefl e hlt
  · rintro ⟨rfl, rfl⟩
    refine ⟨Nat.zero_le 1, ?_⟩
    rintro ⟨x, hx, hlt⟩
    obtain rfl := List.mem_singleton.1 hx
    exact absurd hlt (lt_irrefl x)

/-- **The window is met once iff the samples are on the mark.** -/
theorem once_iff {b e : K} (hbe : b ≤ e) : ∀ {ts : List K}, ts.Pairwise (· < ·) → (Once b e ts ↔ OnMark b e ts)
  | [], _ => by simp [Once, OnMark, within]
  | t :: ts, hs => by
    by_cases hb : t < b
    · rw [once_cons_of_lt hbe hb, onMark_cons_of_lt hb]
      exact once_iff hbe (List.pairwise_cons.1 hs).2
    · rw [onMark_cons_of_le (not_lt.1 hb)]
      by_cases he : t < e
      · rw [once_cons_of_within hs (not_lt.1 hb) he, and_iff_right he]
        exact (or_iff_left fun h => he.ne h.1).symm
      · rw [once_cons_of_behind hs (not_lt.1 he)]
        exact (or_iff_right fun h => he h.1).symm

end Marks
end LfSentry
