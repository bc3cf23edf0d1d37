import Mathlib.Data.List.Basic
import Mathlib.Order.Defs.LinearOrder
import Mathlib.Tactic.Linarith
/-!
# Stretches — the parts of an ordered list whose members pass a test

A stretch is as long as it can be: what stands before it and after it does not pass (`IsStretch`).  `closedStretches` gives
those with a member after them, by their first member and that one; of a list in order they are told by order alone.
-/
namespace LfSentry
namespace Stretches

variable {α : Type} (p : α → Bool)

/-- `mid` is a stretch of `l`. -/
structure IsStretch (l pre mid post : List α) : Prop where
  split : l = pre ++ mid ++ post
  nonempty : mid ≠ []
  inside : ∀ a ∈ mid, p a = true
  before : ∀ a ∈ pre.getLast?, p a = false
  after : ∀ a ∈ post.head?, p a = false

/-- The first member of each stretch with the member that ends it; the stretch under way begins with the option. -/
def closedStretches : Option α → List α → List (α × α)
  | _, [] => []
  | none, a :: l => if p a then closedStretches (some a) l else closedStretches none l
  | some first, a :: l => if p a then closedStretches (some first) l else (first, a) :: closedStretches none l

variable {p}

section Ordered

variable [LinearOrder α]

/-- What order tells of a closed stretch. -/
structure Closed (p : α → Bool) (l : List α) (first stop : α) : Prop where
  first_mem : first ∈ l
  stop_mem : stop ∈ l
  lt : first < stop
  inside : ∀ a ∈ l, first ≤ a → a < stop → p a = true
  stop_fails : p stop = false

theorem Closed.mono {l l' : List α} {first stop : α} (h : Closed p l first stop) (hsub : l ⊆ l')
    (hnew : ∀ a ∈ l', a ∈ l ∨ p a = true ∨ a < first) : Closed p l' first stop where
  first_mem := hsub h.first_mem
  stop_mem := hsub h.stop_mem
  lt := h.lt
  inside b hb hle hlt := by
    rcases hnew b hb with hl | hp | hbefore
    · exact h.inside b hl hle hlt
    · exact hp
    · exact absurd hle (not_le.2 hbefore)
  stop_fails := h.stop_fails

/-- **Closed stretches of a list in order are told by order.** -/
theorem closed_of_mem : ∀ {l : List α} {o : Option α} {first stop : α}, (o.toList ++ l).Pairwise (· < ·) →
    (∀ a ∈ o, p a = true) → (first, stop) ∈ closedStretches p o l → Closed p (o.toList ++ l) first stop
  | [], o, first, stop, _, _, h => by cases o <;> cases h
  | a :: l, none, first, stop, hl, _, h => by
    unfold closedStretches at h
    by_cases ha : p a = true
    · rw [if_pos ha] at h
      exact closed_of_mem (o := some a) hl (fun b hb => by cases hb; exact ha) h
    · rw [if_neg ha] at h
      obtain ⟨hfirst, hl⟩ := List.pairwise_cons.1 hl
      have htail := closed_of_mem (o := none) hl (fun b hb => by cases hb) h
      refine htail.mono (List.subset_cons_self a l) fun b hb => ?_
      rcases List.mem_cons.1 hb with rfl | hb
      · exact .inr (.inr (hfirst first htail.first_mem))
      · exact .inl hb
  | a :: l, some f, first, stop, hl, hf, h => by
    obtain ⟨hfirst, hal⟩ := List.pairwise_cons.1 hl
    unfold closedStretches at h
    by_cases ha : p a = true
    · rw [if_pos ha] at h
      have hskip : (f :: l).Pairwise (· < ·) := hl.sublist ((List.sublist_cons_self a l).cons_cons f)
      have htail := closed_of_mem (o := some f) hskip hf h
      refine htail.mono (List.cons_subset_cons f (List.subset_cons_self a l)) fun b hb => ?_
      rcases List.mem_cons.1 hb with rfl | hb
      · exact .inl List.mem_cons_self
      · rcases List.mem_cons.1 hb with rfl | hb
        · exact .inr (.inl ha)
        · exact .inl (List.mem_cons_of_mem f hb)
    · rw [if_neg ha] at h
      rcases List.mem_cons.1 h with heq | h
      · cases heq
        refine ⟨List.mem_cons_self, List.mem_cons_of_mem f List.mem_cons_self, hfirst a List.mem_cons_self, ?_,
          Bool.eq_false_iff.2 ha⟩
        intro b hb hle hlt
        rcases List.mem_cons.1 hb with rfl | hb
        · exact hf b rfl
        · rcases List.mem_cons.1 hb with rfl | hb
          · exact absurd hlt (lt_irrefl b)
          · exact absurd hlt (not_lt.2 ((List.pairwise_cons.1 hal).1 b hb).le)
      · have htail := closed_of_mem (o := none) (List.pairwise_cons.1 hal).2 (fun b hb => by cases hb) h
        refine htail.mono (fun b hb => List.mem_cons_of_mem f (List.mem_cons_of_mem a hb)) fun b hb => ?_
        rcases List.mem_cons.1 hb with rfl | hb
        · exact .inr (.inl (hf b rfl))
        · rcases List.mem_cons.1 hb with rfl | hb
          · exact .inr (.inr ((List.pairwise_cons.1 hal).1 first htail.first_mem))
          · exact .inl hb

/-- What order tells of a stretch from `first` to `stop`, whether a member ends it or the list does. -/
structure Between (p : α → Bool) (l : List α) (first stop : α) : Prop where
  first_mem : first ∈ l
  first_passes : p first = true
  stop_mem : stop ∈ l
  le : first ≤ stop
  inside : ∀ a ∈ l, first ≤ a → a < stop → p a = true
  before : ∀ a ∈ l, a < first → ∃ b ∈ l, a ≤ b ∧ b < first ∧ p b = false
  ends : p stop = false ∨ ∀ a ∈ l, a ≤ stop

/-- The member that ends a stretch, or else its last one. -/
def stopOf (mid post : List α) : Option α := post.head?.or mid.getLast?

/-- `first` and `stop` are those of a stretch that none is longer than. -/
def IsLongest (p : α → Bool) (l : List α) (first stop : α) : Prop :=
  ∃ pre mid post, IsStretch p l pre mid post ∧ mid.head? = some first ∧ stopOf mid post = some stop ∧
    ∀ pre' mid' post', IsStretch p l pre' mid' post' → mid'.length ≤ mid.length

/-- **Every stretch of a list in order is told by order.** -/
theorem IsStretch.between {l pre mid post : List α} (h : IsStretch p l pre mid post) (hl : l.Pairwise (· < ·))
    {first stop : α} (hfirst : mid.head? = some first) (hstop : stopOf mid post = some stop) :
    Between p l first stop := by
  obtain ⟨hsplit, -, hinside, hbefore, hafter⟩ := h
  obtain ⟨rest, rfl⟩ : ∃ rest, mid = first :: rest := List.head?_eq_some_iff.1 hfirst
  rw [hsplit, List.append_assoc] at hl
  obtain ⟨hpre, hmidpost, hpre_lt⟩ := List.pairwise_append.1 hl
  obtain ⟨hmid, hpost, hmid_lt⟩ := List.pairwise_append.1 hmidpost
  have hmem : ∀ a, a ∈ l ↔ a ∈ pre ∨ a ∈ first :: rest ∨ a ∈ post := fun a => by
    rw [hsplit, List.mem_append, List.mem_append, or_assoc]
  have hfirst_le : ∀ a ∈ first :: rest, first ≤ a := fun a ha => by
    rcases List.mem_cons.1 ha with rfl | ha
    · exact le_rfl
    · exact ((List.pairwise_cons.1 hmid).1 a ha).le
  have hpre_first : ∀ a ∈ pre, a < first := fun a ha =>
    hpre_lt a ha first (List.mem_append_left post List.mem_cons_self)
  have hleft : ∀ a ∈ l, a < first → ∃ b ∈ l, a ≤ b ∧ b < first ∧ p b = false := by
    intro a ha hlt
    rcases (hmem a).1 ha with ha | ha | ha
    · rcases List.eq_nil_or_concat' pre with rfl | ⟨pre', g, rfl⟩
      · cases ha
      · have hg : g ∈ pre' ++ [g] := List.mem_append_right pre' List.mem_cons_self
        refine ⟨g, (hmem g).2 (.inl hg), ?_, hpre_first g hg, hbefore g (by simp)⟩
        rcases List.mem_append.1 ha with ha | ha
        · exact ((List.pairwise_append.1 hpre).2.2 a ha g List.mem_cons_self).le
        · exact (List.mem_singleton.1 ha).le
    · exact absurd hlt (not_lt.2 (hfirst_le a ha))
    · exact absurd hlt (not_lt.2 (hmid_lt first List.mem_cons_self a ha).le)
  cases post with
  | nil =>
    have hlast : stop ∈ first :: rest := List.mem_of_getLast? hstop
    refine ⟨(hmem first).2 (.inr (.inl List.mem_cons_self)), hinside first List.mem_cons_self,
      (hmem stop).2 (.inr (.inl hlast)), hfirst_le stop hlast, ?_, hleft, .inr ?_⟩
    · intro a ha hle _
      rcases (hmem a).1 ha with ha | ha | ha
      · exact absurd hle (not_le.2 (hpre_first a ha))
      · exact hinside a ha
      · cases ha
    · intro a ha
      rcases (hmem a).1 ha with ha | ha | ha
      · exact (hpre_lt a ha stop (List.mem_append_left [] hlast)).le
      · obtain ⟨front, hfront⟩ := List.getLast?_eq_some_iff.1 (show (first :: rest).getLast? = some stop from hstop)
        rw [hfront] at ha hmid
        rcases List.mem_append.1 ha with ha | ha
        · exact ((List.pairwise_append.1 hmid).2.2 a ha stop List.mem_cons_self).le
        · exact (List.mem_singleton.1 ha).le
      · cases ha
  | cons q post =>
    have hq : q = stop := by simpa [stopOf] using hstop
    have hstop_mem : stop ∈ q :: post := hq ▸ List.mem_cons_self
    refine ⟨(hmem first).2 (.inr (.inl List.mem_cons_self)), hinside first List.mem_cons_self,
      (hmem stop).2 (.inr (.inr hstop_mem)), (hmid_lt first List.mem_cons_self stop hstop_mem).le, ?_, hleft, .inl ?_⟩
    · intro a ha hle hlt
      rcases (hmem a).1 ha with ha | ha | ha
      · exact absurd hle (not_le.2 (hpre_first a ha))
      · exact hinside a ha
      · rw [← hq] at hlt
        rcases List.mem_cons.1 ha with rfl | ha
        · exact absurd hlt (lt_irrefl a)
        · exact absurd hlt (not_lt.2 ((List.pairwise_cons.1 hpost).1 a ha).le)
    · rw [← hq]
      exact hafter q rfl

theorem IsLongest.between {l : List α} {first stop : α} (h : IsLongest p l first stop) (hl : l.Pairwise (· < ·)) :
    Between p l first stop := by
  obtain ⟨pre, mid, post, hstretch, hfirst, hstop, -⟩ := h
  exact hstretch.between hl hfirst hstop

end Ordered

/-- **Two stretches with one centre are one**, if the second is closed in the list without the members `c`. -/
theorem eq_of_add_eq {K : Type} [Field K] [LinearOrder K] [IsStrictOrderedRing K] {p : K → Bool} {l : List K}
    {first stop first' stop' c : K} (h : Between p l first stop)
    (h' : Closed p (l.filter fun a => decide (a ≠ c)) first' stop') (hsum : first + stop = first' + stop') :
    first = first' ∧ stop = stop' := by
  have hmem : ∀ a, a ∈ l.filter (fun a => decide (a ≠ c)) ↔ a ∈ l ∧ a ≠ c := fun a => by
    rw [List.mem_filter, decide_eq_true_iff]
  have hlt' := h'.lt
  have hle := h.le
  rcases lt_trichotomy first first' with hlt | heq | hgt
  · have hpass := h.inside stop' ((hmem stop').1 h'.stop_mem).1 (hlt.trans hlt').le (by linarith)
    rw [h'.stop_fails] at hpass
    cases hpass
  · exact ⟨heq, by linarith⟩
  · exfalso
    have hfail : p stop = false := by
      rcases h.ends with hfail | hall
      · exact hfail
      · have := hall stop' ((hmem stop').1 h'.stop_mem).1
        linarith
    -- a member that fails stands within the second stretch: the one that ends the first or, if that is `c`, the one before
    obtain ⟨b, hb, hle', hblt, hbfail⟩ := h.before first' ((hmem first').1 h'.first_mem).1 hgt
    by_cases hc : stop = c
    · have hbc : b < c := by linarith
      have hpass := h'.inside b ((hmem b).2 ⟨hb, hbc.ne⟩) hle' (by linarith)
      rw [hbfail] at hpass
      cases hpass
    · have hpass := h'.inside stop ((hmem stop).2 ⟨h.stop_mem, hc⟩) (by linarith) (by linarith)
      rw [hfail] at hpass
      cases hpass

end Stretches
end LfSentry
