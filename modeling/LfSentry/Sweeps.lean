import Mathlib.Data.List.Nodup
import Mathlib.Logic.Function.Iterate
import Mathlib.Order.Lattice
/-!
# Sweeps — distances found by going over all places again and again

Every place starts with 0 if it is a source and with 1 if not.  A sweep visits each place once, in any order and on the
values as they are then: a place that has none smaller around it goes up by one.  After `k` sweeps a place holds its
distance from the sources, cut off at `k + 1` (`after_sweeps`).
-/
namespace LfSentry
namespace Sweeps

variable {ι : Type} (nbr : ι → List ι) (source : ι → Prop)

/-- A source can be reached in at most so many steps. -/
def Within : Nat → ι → Prop
  | 0, i => source i
  | m + 1, i => Within m i ∨ ∃ j ∈ nbr i, Within m j

/-- The value of a place after `k` sweeps: its distance as far as that is at most `k`. -/
structure ReadsTo (k : Nat) (i : ι) (x : Nat) : Prop where
  le : x ≤ k + 1
  iff : ∀ m ≤ k, x ≤ m ↔ Within nbr source m i

variable {nbr source} {k m : Nat} {i : ι} {x : Nat}

theorem Within.mono (h : Within nbr source m i) : ∀ {n}, m ≤ n → Within nbr source n i
  | 0, hn => by
    obtain rfl : m = 0 := by omega
    exact h
  | n + 1, hn => by
    rcases Nat.lt_or_ge m (n + 1) with hlt | hge
    · exact Or.inl (h.mono (by omega))
    · obtain rfl : m = n + 1 := by omega
      exact h

theorem ReadsTo.within (h : ReadsTo nbr source k i x) (hx : x ≤ k) : Within nbr source x i := (h.iff x hx).1 le_rfl

/-- A value that the next sweep does not change. -/
theorem ReadsTo.succ (h : ReadsTo nbr source k i x) (hw : Within nbr source (k + 1) i) :
    ReadsTo nbr source (k + 1) i x where
  le := h.le.trans (by omega)
  iff n hn := by
    rcases Nat.lt_or_ge n (k + 1) with hlt | hge
    · exact h.iff n (by omega)
    · obtain rfl : n = k + 1 := by omega
      exact ⟨fun _ => hw, fun _ => h.le⟩

variable [DecidableEq ι]

variable (nbr) in
/-- The visit of one place. -/
def visit (v : ι → Nat) (i : ι) : ι → Nat :=
  if 1 ≤ v i ∧ ∀ j ∈ nbr i, ¬ v j < v i then Function.update v i (v i + 1) else v

variable (nbr) in
/-- All places, in the order of the list. -/
def sweep (l : List ι) (v : ι → Nat) : ι → Nat := l.foldl (visit nbr) v

variable {v : ι → Nat}

theorem visit_of_ne {j : ι} (h : j ≠ i) : visit nbr v i j = v j := by
  unfold visit
  split
  · rw [Function.update_of_ne h]
  · rfl

/-- **The visit of a place, some of whose neighbours this sweep has visited already.** -/
theorem visit_readsTo (hi : ReadsTo nbr source k i (v i))
    (hnbr : ∀ j ∈ nbr i, ReadsTo nbr source k j (v j) ∨ ReadsTo nbr source (k + 1) j (v j)) :
    ReadsTo nbr source (k + 1) i (visit nbr v i i) := by
  have hread : ∀ j ∈ nbr i, ∀ m ≤ k, v j ≤ m ↔ Within nbr source m j := by
    intro j hj m hm
    rcases hnbr j hj with h | h
    · exact h.iff m hm
    · exact h.iff m (by omega)
  unfold visit
  split
  · -- nothing around is smaller: the place is further away than any it could know of
    rename_i hup
    obtain ⟨hpos, hmin⟩ := hup
    have htop : v i = k + 1 := by
      by_contra hne
      obtain ⟨y, hy⟩ : ∃ y, v i = y + 1 := ⟨v i - 1, by omega⟩
      have hle := hi.le
      have hw := hi.within (by omega)
      rw [hy] at hw
      rcases hw with hw | ⟨j, hj, hw⟩
      · have := (hi.iff y (by omega)).2 hw
        omega
      · have := (hread j hj y (by omega)).2 hw
        exact hmin j hj (by omega)
    have hfar : ¬ Within nbr source (k + 1) i := by
      rintro (hw | ⟨j, hj, hw⟩)
      · have := (hi.iff k le_rfl).2 hw
        omega
      · have := (hread j hj k le_rfl).2 hw
        exact hmin j hj (by omega)
    rw [Function.update_self, htop]
    exact ⟨le_rfl, fun m hm => ⟨fun h => by omega, fun h => absurd (h.mono hm) hfar⟩⟩
  · rename_i hstay
    refine hi.succ ?_
    rcases Nat.eq_zero_or_pos (v i) with h0 | hpos
    · exact (hi.within (by omega)).mono (by omega)
    · have hex : ∃ j ∈ nbr i, v j < v i := by
        by_contra hno
        exact hstay ⟨hpos, fun j hj hlt => hno ⟨j, hj, hlt⟩⟩
      obtain ⟨j, hj, hlt⟩ := hex
      have hle := hi.le
      exact Or.inr ⟨j, hj, ((hread j hj (v j) (by omega)).1 le_rfl).mono (by omega)⟩

/-- **One sweep over all places takes their values one step further.** -/
theorem sweep_readsTo {all l : List ι} (hclosed : ∀ i ∈ all, ∀ j ∈ nbr i, j ∈ all) (hnodup : l.Nodup)
    (hleft : ∀ i ∈ l, i ∈ all ∧ ReadsTo nbr source k i (v i))
    (hdone : ∀ i ∈ all, i ∉ l → ReadsTo nbr source (k + 1) i (v i)) :
    ∀ i ∈ all, ReadsTo nbr source (k + 1) i (sweep nbr l v i) := by
  induction l generalizing v with
  | nil => exact fun i hi => hdone i hi List.not_mem_nil
  | cons a l ih =>
    obtain ⟨ha, hl⟩ := List.nodup_cons.1 hnodup
    have hvisit : ReadsTo nbr source (k + 1) a (visit nbr v a a) := by
      refine visit_readsTo (hleft a List.mem_cons_self).2 fun j hj => ?_
      by_cases hjl : j ∈ a :: l
      · exact Or.inl (hleft j hjl).2
      · exact Or.inr (hdone j (hclosed a (hleft a List.mem_cons_self).1 j hj) hjl)
    refine ih hl (fun i hi => ?_) fun i hi hil => ?_
    · have hne : i ≠ a := fun h => ha (h ▸ hi)
      rw [visit_of_ne hne]
      exact hleft i (List.mem_cons_of_mem a hi)
    · by_cases hia : i = a
      · rw [hia]
        exact hvisit
      · rw [visit_of_ne hia]
        exact hdone i hi (by simp [hia, hil])

/-- **After `k` sweeps every place holds its distance, cut off at `k + 1`.** -/
theorem after_sweeps {all : List ι} (hclosed : ∀ i ∈ all, ∀ j ∈ nbr i, j ∈ all) (hnodup : all.Nodup)
    (h0 : ∀ i ∈ all, v i ≤ 1 ∧ (v i = 0 ↔ source i)) (k : Nat) :
    ∀ i ∈ all, ReadsTo nbr source k i ((sweep nbr all)^[k] v i) := by
  induction k with
  | zero =>
    intro i hi
    obtain ⟨hle, hiff⟩ := h0 i hi
    exact ⟨hle, fun m hm => by
      obtain rfl : m = 0 := by omega
      exact Nat.le_zero.trans hiff⟩
  | succ k ih =>
    intro i hi
    rw [Function.iterate_succ_apply']
    exact sweep_readsTo hclosed hnodup (fun j hj => ⟨hj, ih j hj⟩) (fun j hj hn => absurd hj hn) i hi

end Sweeps
end LfSentry
