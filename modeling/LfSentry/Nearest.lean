import Mathlib.Data.List.Sort
import Mathlib.Data.List.Perm.Basic
import Mathlib.Order.Lattice
/-!
# Nearest — the `n` smallest of a list, found part by part

What a selection of the `n` smallest leaves behind is no smaller than what it takes (`Smallest`).  Parts of a list may be
cut down to their `n` smallest first: the `n` smallest of what is left are the `n` smallest of all (`Smallest.part`).  A
selection rearranges a list so that one place holds what it would hold if the list were sorted (`NthElement`).
-/
namespace LfSentry
namespace Nearest

variable {α β : Type} [LinearOrder β] (f : α → β)

/-- `r` is made of the `n` elements of `l` with the smallest values, of all of them if there are no more than `n`. -/
def Smallest (n : Nat) (l r : List α) : Prop :=
  ∃ rest, (r ++ rest).Perm l ∧ r.length = min n l.length ∧ ∀ a ∈ r, ∀ b ∈ rest, f a ≤ f b

variable {f} {n : Nat} {l l' r r' a a' b : List α}

theorem Smallest.of_le (h : l.length ≤ n) : Smallest f n l l := ⟨[], by simp, by omega, by simp⟩

theorem Smallest.length (h : Smallest f n l r) : r.length = min n l.length := h.choose_spec.2.1

theorem Smallest.subset (h : Smallest f n l r) : ∀ x ∈ r, x ∈ l := by
  obtain ⟨rest, hp, -, -⟩ := h
  intro x hx
  exact hp.mem_iff.1 (List.mem_append_left _ hx)

theorem Smallest.perm_right (h : Smallest f n l r) (hr : r'.Perm r) : Smallest f n l r' := by
  obtain ⟨rest, hp, hlen, hle⟩ := h
  exact ⟨rest, (hr.append_right rest).trans hp, hr.length_eq.trans hlen, fun x hx => hle x (hr.mem_iff.1 hx)⟩

theorem Smallest.perm_left (h : Smallest f n l r) (hl : l.Perm l') : Smallest f n l' r := by
  obtain ⟨rest, hp, hlen, hle⟩ := h
  exact ⟨rest, hp.trans hl, hl.length_eq ▸ hlen, hle⟩

/-- Something that is not taken is beaten by `n` others. -/
theorem countP_of_lt {rest : List α} (hp : (a' ++ rest).Perm a) (hlen : a'.length = min n a.length)
    (hle : ∀ x ∈ a', ∀ y ∈ rest, f x ≤ f y) {y : α} (hy : y ∈ rest) {v : β} (hyv : f y < v) :
    n ≤ a'.countP fun x => f x < v := by
  have hall : a'.countP (fun x => f x < v) = a'.length :=
    List.countP_eq_length.2 fun x hx => by simpa using lt_of_le_of_lt (hle x hx y hy) hyv
  have htot := hp.length_eq
  have hpos := List.length_pos_of_mem hy
  rw [List.length_append] at htot
  omega

/-- **A part may be cut down to its smallest first.** -/
theorem Smallest.part (ha : Smallest f n a a') (hr : Smallest f n (a' ++ b) r) : Smallest f n (a ++ b) r := by
  obtain ⟨rest, hpa, hlena, hlea⟩ := ha
  obtain ⟨left, hpr, hlenr, hler⟩ := hr
  refine ⟨left ++ rest, ?_, ?_, fun x hx y hy => ?_⟩
  · calc (r ++ (left ++ rest)).Perm ((a' ++ b) ++ rest) := by
          rw [← List.append_assoc]
          exact hpr.append_right rest
      _ |>.Perm ((a' ++ rest) ++ b) := by
          rw [List.append_assoc, List.append_assoc]
          exact List.perm_append_comm.append_left a'
      _ |>.Perm (a ++ b) := hpa.append_right b
  · rw [hlenr, List.length_append, List.length_append, hlena]
    omega
  · rcases List.mem_append.1 hy with hy | hy
    · exact hler x hx y hy
    · by_contra hlt
      rw [not_le] at hlt
      -- `n` of the elements kept lie below `x`, and all of them are taken beside it
      have hn : n ≤ (a' ++ b).countP fun z => f z < f x := by
        rw [List.countP_append]
        exact Nat.le_add_right_of_le (countP_of_lt hpa hlena hlea hy hlt)
      have hleft : left.countP (fun z => f z < f x) = 0 :=
        List.countP_eq_zero.2 fun z hz => by simpa using hler x hx z hz
      rw [← hpr.countP_eq, List.countP_append, hleft, Nat.add_zero] at hn
      have hall : r.countP (fun z => f z < f x) = r.length := by
        have := r.countP_le_length (p := fun z => f z < f x)
        omega
      simpa using List.countP_eq_length.1 hall x hx

/-- Of values that some elements have, under another name. -/
theorem Smallest.filterMap {γ : Type} {g : γ → β} {h : α → Option γ} (hl : ∀ x ∈ l, ∃ y, h x = some y ∧ f x = g y)
    (hr : Smallest f n l r) : Smallest g n (l.filterMap h) (r.filterMap h) := by
  have hlength : ∀ l' : List α, (∀ x ∈ l', x ∈ l) → (l'.filterMap h).length = l'.length := by
    intro l' hl'
    induction l' with
    | nil => rfl
    | cons x l' ih =>
      obtain ⟨y, hy, -⟩ := hl x (hl' x List.mem_cons_self)
      rw [List.filterMap_cons_some hy, List.length_cons, List.length_cons, ih fun z hz => hl' z (List.mem_cons_of_mem x hz)]
  have hsub := hr.subset
  obtain ⟨rest, hp, hlen, hle⟩ := hr
  have hrest : ∀ x ∈ rest, x ∈ l := fun x hx => hp.mem_iff.1 (List.mem_append_right r hx)
  refine ⟨rest.filterMap h, ?_, ?_, fun a ha b hb => ?_⟩
  · rw [← List.filterMap_append]
    exact hp.filterMap h
  · rw [hlength r hsub, hlength l fun x hx => hx]
    exact hlen
  · obtain ⟨x, hx, hxa⟩ := List.mem_filterMap.1 ha
    obtain ⟨z, hz, hzb⟩ := List.mem_filterMap.1 hb
    obtain ⟨a', ha', hfa⟩ := hl x (hsub x hx)
    obtain ⟨b', hb', hfb⟩ := hl z (hrest z hz)
    obtain rfl : a' = a := Option.some.inj (ha'.symm.trans hxa)
    obtain rfl : b' = b := Option.some.inj (hb'.symm.trans hzb)
    rw [← hfa, ← hfb]
    exact hle x hx z hz

/-- What is below a value is taken from the whole list if enough of it is among the elements looked at. -/
theorem Smallest.of_filter {p : α → Bool} {v : β} (hv : ∀ x ∈ l, f x ≤ v → p x) (hn : n ≤ l.countP fun x => f x ≤ v)
    (hr : Smallest f n (l.filter p) r) : Smallest f n l r := by
  obtain ⟨rest, hp, hlen, hle⟩ := hr
  have hcount : (l.filter p).countP (fun x => f x ≤ v) = l.countP fun x => f x ≤ v := by
    rw [List.countP_filter]
    exact List.countP_congr fun x hx => by simpa using hv x hx
  have hfilter : n ≤ (l.filter p).length := (hcount ▸ hn).trans List.countP_le_length
  have hall : n ≤ l.length := hn.trans List.countP_le_length
  refine ⟨rest ++ l.filter fun x => !p x, ?_, by omega, fun x hx y hy => ?_⟩
  · rw [← List.append_assoc]
    exact (hp.append_right _).trans (List.filter_append_perm p l)
  · rcases List.mem_append.1 hy with hy | hy
    · exact hle x hx y hy
    · have hyv : v < f y := by
        by_contra hyv
        simp [hv y (List.mem_of_mem_filter hy) (not_lt.1 hyv)] at hy
      refine le_trans ?_ hyv.le
      by_contra hxv
      -- all that is not above `v` is taken before `x`
      have hrest : rest.countP (fun z => f z ≤ v) = 0 :=
        List.countP_eq_zero.2 fun z hz => by simpa using (not_le.1 hxv).trans_le (hle x hx z hz)
      rw [← hcount, ← hp.countP_eq, List.countP_append, hrest, Nat.add_zero] at hn
      have hfull : r.countP (fun z => f z ≤ v) = r.length := by
        have := r.countP_le_length (p := fun z => f z ≤ v)
        omega
      exact hxv (by simpa using List.countP_eq_length.1 hfull x hx)

/-- A list cut down to `c`: the smallest of the one are the smallest of the other, with whatever follows. -/
def Reduces (f : α → β) (n : Nat) (l c : List α) : Prop := ∀ b r, Smallest f n (c ++ b) r → Smallest f n (l ++ b) r

theorem Reduces.smallest {c : List α} (h : Reduces f n l c) (hr : Smallest f n c r) : Smallest f n l r := by
  simpa using h [] r (by simpa using hr)

/-- Nothing is left only of nothing. -/
theorem Reduces.eq_nil (h : Reduces f n l []) (hn : 0 < n) : l = [] := by
  have hlen := (h.smallest (Smallest.of_le (Nat.zero_le _))).length
  rw [List.length_nil] at hlen
  exact List.length_eq_zero_iff.1 (by omega)

/-- **The next part may be cut down as well.** -/
theorem Reduces.append {c kept : List α} (h : Reduces f n l c) (hk : Smallest f n b kept) :
    Reduces f n (l ++ b) (c ++ kept) := by
  intro d r hr
  have hfirst : Smallest f n (b ++ (c ++ d)) r := by
    refine hk.part (hr.perm_left ?_)
    rw [← List.append_assoc]
    exact List.perm_append_comm.append_right d
  rw [List.append_assoc]
  refine h (b ++ d) r (hfirst.perm_left ?_)
  rw [← List.append_assoc, ← List.append_assoc]
  exact List.perm_append_comm.append_right d

/-- `std::nth_element` by `operator<` of the values `f`: a rearrangement with what sorting would bring there in place `n`,
nothing larger before it and nothing smaller after it. -/
structure NthElement (f : α → β) where
  apply : List α → Nat → List α
  perm : ∀ l n, (apply l n).Perm l
  split : ∀ l n, n < l.length → ∃ front mid back, apply l n = front ++ mid :: back ∧ front.length = n ∧
    (∀ x ∈ front, f x ≤ f mid) ∧ ∀ x ∈ back, f mid ≤ f x

namespace NthElement

variable (nth : NthElement f)

/-- **What stands up to the place selected are the smallest.** -/
theorem smallest_take (l : List α) (hn : n < l.length) : Smallest f (n + 1) l ((nth.apply l n).take (n + 1)) := by
  obtain ⟨front, mid, back, heq, hlen, hfront, hback⟩ := nth.split l n hn
  have htake : (nth.apply l n).take (n + 1) = front ++ [mid] := by
    rw [heq, List.append_cons, List.take_left' (by simp [hlen])]
  rw [htake]
  refine ⟨back, ?_, by simp [hlen]; omega, fun x hx y hy => ?_⟩
  · rw [List.append_assoc, List.singleton_append, ← heq]
    exact nth.perm l n
  · rcases List.mem_append.1 hx with hx | hx
    · exact (hfront x hx).trans (hback y hy)
    · rw [List.mem_singleton.1 hx]
      exact hback y hy

/-- The first place selected holds a smallest element. -/
theorem head_le (l : List α) (hl : l ≠ []) : ∃ x rest, nth.apply l 0 = x :: rest ∧ ∀ y ∈ l, f x ≤ f y := by
  obtain ⟨front, mid, back, heq, hlen, -, hback⟩ := nth.split l 0 (List.length_pos_iff.2 hl)
  rw [List.length_eq_zero_iff.1 hlen, List.nil_append] at heq
  refine ⟨mid, back, heq, fun y hy => ?_⟩
  have hy' : y ∈ mid :: back := heq ▸ (nth.perm l 0).mem_iff.2 hy
  rcases List.mem_cons.1 hy' with rfl | hy'
  · exact le_rfl
  · exact hback y hy'

/-- **A list cut down to its `n` smallest, the smallest brought to the front.** -/
theorem select_smallest (hn : 0 < n) (hl : l ≠ []) :
    ∃ first rest, nth.apply (if l.length ≤ n then l else (nth.apply l (n - 1)).take n) 0 = first :: rest ∧
      Smallest f n l (first :: rest) ∧ ∀ x ∈ l, f first ≤ f x := by
  set trimmed := if l.length ≤ n then l else (nth.apply l (n - 1)).take n with htrimmed
  have hsmall : Smallest f n l trimmed := by
    rw [htrimmed]
    split
    · exact Smallest.of_le ‹_›
    · have := nth.smallest_take l (n := n - 1) (by omega)
      rwa [Nat.sub_add_cancel hn] at this
  have hne : trimmed ≠ [] := by
    intro h0
    have hlen := hsmall.length
    have := List.length_pos_iff.2 hl
    rw [h0, List.length_nil] at hlen
    omega
  obtain ⟨first, rest, heq, hle⟩ := nth.head_le trimmed hne
  have hperm : (first :: rest).Perm trimmed := heq ▸ nth.perm trimmed 0
  refine ⟨first, rest, heq, hsmall.perm_right hperm, fun x hx => ?_⟩
  obtain ⟨left, hp, -, hle'⟩ := hsmall
  rcases List.mem_append.1 (hp.mem_iff.2 hx) with hx | hx
  · exact hle x hx
  · exact hle' first (hperm.mem_iff.1 List.mem_cons_self) x hx

/-- A full sort is such a rearrangement. -/
def ofSort (f : α → β) : NthElement f where
  apply l _ := l.insertionSort fun a b => f a ≤ f b
  perm l _ := List.perm_insertionSort _ l
  split l n hn := by
    have hs : (l.insertionSort fun a b => f a ≤ f b).Pairwise fun a b => f a ≤ f b :=
      haveI : Std.Total fun a b : α => f a ≤ f b := ⟨fun a b => le_total (f a) (f b)⟩
      haveI : IsTrans α fun a b => f a ≤ f b := ⟨fun _ _ _ => le_trans⟩
      List.pairwise_insertionSort _ l
    set s := l.insertionSort fun a b => f a ≤ f b
    have hn' : n < s.length := by rwa [(List.perm_insertionSort _ l).length_eq]
    have hsplit : s = s.take n ++ s[n] :: s.drop (n + 1) := by simp
    rw [hsplit, List.pairwise_append, List.pairwise_cons] at hs
    exact ⟨s.take n, s[n], s.drop (n + 1), hsplit, by simp; omega, fun x hx => hs.2.2 x hx _ List.mem_cons_self,
      hs.2.1.1⟩

end NthElement
end Nearest
end LfSentry
