import Mathlib.Data.List.Basic
/-!
# PairLoops — a loop over the pairs of a list that marks their members

The outer loop goes through the list, the inner one through what follows; the body may change both members of a pair, so
later pairs meet what earlier ones left.  A body that only marks, and marks by what it never changes, marks a member exactly
if it loses against some other one of the list as it was (`forPairs_getElem?`): the order of the pairs does not matter.
-/
namespace LfSentry
namespace PairLoops

variable {α β : Type}

/-- The inner loop: `a` with each of the list. -/
def inner (body : α → α → α × α) (a : α) : List α → α × List α
  | [] => (a, [])
  | b :: l => ((inner body (body a b).1 l).1, (body a b).2 :: (inner body (body a b).1 l).2)

theorem length_inner (body : α → α → α × α) : ∀ (l : List α) (a : α), (inner body a l).2.length = l.length
  | [], _ => rfl
  | b :: l, a => congrArg (· + 1) (length_inner body l (body a b).1)

theorem length_inner_lt (body : α → α → α × α) (a : α) (l : List α) : (inner body a l).2.length < (a :: l).length := by
  rw [length_inner]
  exact Nat.lt_succ_self l.length

/-- The outer loop. -/
def forPairs (body : α → α → α × α) : List α → List α
  | [] => []
  | a :: l => (inner body a l).1 :: forPairs body (inner body a l).2
termination_by l => l.length
decreasing_by exact length_inner_lt body a l

theorem length_forPairs (body : α → α → α × α) : ∀ l : List α, (forPairs body l).length = l.length
  | [] => by rw [forPairs]
  | a :: l => by
    rw [forPairs, List.length_cons, length_forPairs body (inner body a l).2, length_inner, List.length_cons]
termination_by l => l.length
decreasing_by exact length_inner_lt body a l

/-- The body keeps the view of both, and marks the first or the second by their views. -/
structure Marks (body : α → α → α × α) (view : α → β) (flag : α → Prop) (first second : β → β → Prop) : Prop where
  view_fst : ∀ a b, view (body a b).1 = view a
  view_snd : ∀ a b, view (body a b).2 = view b
  flag_fst : ∀ a b, flag (body a b).1 ↔ flag a ∨ first (view a) (view b)
  flag_snd : ∀ a b, flag (body a b).2 ↔ flag b ∨ second (view a) (view b)

/-- **A body that marks at most one of the two by setting its flag.** -/
theorem Marks.of_cases {body : α → α → α × α} {view : α → β} {flag : α → Prop} {first second : β → β → Prop} (mark : α → α)
    (hview : ∀ a, view (mark a) = view a) (hflag : ∀ a, flag (mark a))
    (h : ∀ a b, body a b = (a, b) ∧ ¬ first (view a) (view b) ∧ ¬ second (view a) (view b) ∨
      body a b = (mark a, b) ∧ first (view a) (view b) ∧ ¬ second (view a) (view b) ∨
      body a b = (a, mark b) ∧ ¬ first (view a) (view b) ∧ second (view a) (view b)) : Marks body view flag first second where
  view_fst a b := by rcases h a b with ⟨hbody, -⟩ | ⟨hbody, -⟩ | ⟨hbody, -⟩ <;> simp [hbody, hview]
  view_snd a b := by rcases h a b with ⟨hbody, -⟩ | ⟨hbody, -⟩ | ⟨hbody, -⟩ <;> simp [hbody, hview]
  flag_fst a b := by
    rcases h a b with ⟨hbody, hfirst, -⟩ | ⟨hbody, hfirst, -⟩ | ⟨hbody, hfirst, -⟩ <;> simp [hbody, hfirst, hflag]
  flag_snd a b := by
    rcases h a b with ⟨hbody, -, hsecond⟩ | ⟨hbody, -, hsecond⟩ | ⟨hbody, -, hsecond⟩ <;> simp [hbody, hsecond, hflag]

/-- **One body after another marks what either marks.** -/
theorem Marks.comp {body body' : α → α → α × α} {view : α → β} {flag : α → Prop} {first second first' second' : β → β → Prop}
    (h : Marks body view flag first second) (h' : Marks body' view flag first' second') :
    Marks (fun a b => body' (body a b).1 (body a b).2) view flag (fun a b => first a b ∨ first' a b)
      (fun a b => second a b ∨ second' a b) where
  view_fst a b := by rw [h'.view_fst, h.view_fst]
  view_snd a b := by rw [h'.view_snd, h.view_snd]
  flag_fst a b := by rw [h'.flag_fst, h.flag_fst, h.view_fst, h.view_snd, or_assoc]
  flag_snd a b := by rw [h'.flag_snd, h.flag_snd, h.view_fst, h.view_snd, or_assoc]

/-- The member at `i` is the one marked of the pair of those at `i` and `j`. -/
def Loses (first second : β → β → Prop) (l : List β) (i j : Nat) : Prop :=
  ∃ a b, l[i]? = some a ∧ l[j]? = some b ∧ (i < j ∧ first a b ∨ j < i ∧ second b a)

section Loses

variable {first second : β → β → Prop} {a b : β} {l : List β}

theorem loses_of_lt {i j : Nat} (hij : i < j) (ha : l[i]? = some a) (hb : l[j]? = some b) :
    Loses first second l i j ↔ first a b := by
  constructor
  · rintro ⟨x, y, hx, hy, h⟩
    rw [ha, Option.some.injEq] at hx
    rw [hb, Option.some.injEq] at hy
    subst hx hy
    exact (h.resolve_right fun h => Nat.lt_asymm hij h.1).2
  · intro h
    exact ⟨a, b, ha, hb, .inl ⟨hij, h⟩⟩

theorem loses_of_gt {i j : Nat} (hij : i < j) (ha : l[i]? = some a) (hb : l[j]? = some b) :
    Loses first second l j i ↔ second a b := by
  constructor
  · rintro ⟨y, x, hy, hx, h⟩
    rw [ha, Option.some.injEq] at hx
    rw [hb, Option.some.injEq] at hy
    subst hx hy
    exact (h.resolve_left fun h => Nat.lt_asymm hij h.1).2
  · intro h
    exact ⟨b, a, hb, ha, .inr ⟨hij, h⟩⟩

theorem loses_head : (∃ j, Loses first second (a :: l) 0 j) ↔ ∃ b ∈ l, first a b := by
  constructor
  · rintro ⟨j, x, b, hx, hb, ⟨hj, hfirst⟩ | ⟨hj, -⟩⟩
    · obtain ⟨j, rfl⟩ := Nat.exists_eq_succ_of_ne_zero (Nat.ne_of_gt hj)
      rw [List.getElem?_cons_zero, Option.some.injEq] at hx
      rw [List.getElem?_cons_succ] at hb
      subst hx
      exact ⟨b, List.mem_of_getElem? hb, hfirst⟩
    · exact absurd hj (Nat.not_lt_zero j)
  · rintro ⟨b, hb, hfirst⟩
    obtain ⟨j, hj⟩ := List.mem_iff_getElem?.1 hb
    exact ⟨j + 1, a, b, List.getElem?_cons_zero, by rwa [List.getElem?_cons_succ], .inl ⟨Nat.succ_pos j, hfirst⟩⟩

theorem loses_tail {i : Nat} (hb : l[i]? = some b) :
    (∃ j, Loses first second (a :: l) (i + 1) j) ↔ second a b ∨ ∃ j, Loses first second l i j := by
  constructor
  · rintro ⟨j, x, y, hx, hy, hj⟩
    rw [List.getElem?_cons_succ] at hx
    cases j with
    | zero =>
      rw [List.getElem?_cons_zero, Option.some.injEq] at hy
      rw [hb, Option.some.injEq] at hx
      subst hx hy
      exact .inl (hj.resolve_left fun h => Nat.not_lt_zero _ h.1).2
    | succ j =>
      rw [List.getElem?_cons_succ] at hy
      exact .inr ⟨j, x, y, hx, hy, hj.imp (And.imp_left Nat.lt_of_succ_lt_succ) (And.imp_left Nat.lt_of_succ_lt_succ)⟩
  · rintro (hsecond | ⟨j, x, y, hx, hy, hj⟩)
    · exact ⟨0, b, a, by rwa [List.getElem?_cons_succ], List.getElem?_cons_zero, .inr ⟨Nat.succ_pos i, hsecond⟩⟩
    · refine ⟨j + 1, x, y, by rwa [List.getElem?_cons_succ], by rwa [List.getElem?_cons_succ], ?_⟩
      exact hj.imp (And.imp_left Nat.succ_lt_succ) (And.imp_left Nat.succ_lt_succ)

end Loses

section Marks

variable {body : α → α → α × α} {view : α → β} {flag : α → Prop} {first second : β → β → Prop}

theorem inner_fst (h : Marks body view flag first second) : ∀ (l : List α) (a : α),
    view (inner body a l).1 = view a ∧ (flag (inner body a l).1 ↔ flag a ∨ ∃ b ∈ l, first (view a) (view b))
  | [], a => by simp [inner]
  | b :: l, a => by
    obtain ⟨hview, hflag⟩ := inner_fst h l (body a b).1
    rw [h.view_fst] at hview hflag
    refine ⟨hview, hflag.trans ?_⟩
    simp only [h.flag_fst, List.mem_cons, exists_eq_or_imp, or_assoc]

theorem inner_snd (h : Marks body view flag first second) : ∀ (l : List α) (a : α) {i : Nat} {c : α},
    (inner body a l).2[i]? = some c →
      ∃ b, l[i]? = some b ∧ view c = view b ∧ (flag c ↔ flag b ∨ second (view a) (view b))
  | b :: l, a, 0, c, hc => by
    rw [inner, List.getElem?_cons_zero, Option.some.injEq] at hc
    subst hc
    exact ⟨b, List.getElem?_cons_zero, h.view_snd a b, h.flag_snd a b⟩
  | b :: l, a, i + 1, c, hc => by
    rw [inner, List.getElem?_cons_succ] at hc
    obtain ⟨d, hd, hview, hflag⟩ := inner_snd h l (body a b).1 hc
    rw [h.view_fst] at hflag
    exact ⟨d, by rwa [List.getElem?_cons_succ], hview, hflag⟩

theorem map_inner (h : Marks body view flag first second) : ∀ (l : List α) (a : α),
    (inner body a l).2.map view = l.map view
  | [], _ => rfl
  | b :: l, a => by rw [inner, List.map_cons, List.map_cons, h.view_snd, map_inner h l]

/-- **A member is marked exactly if it was or if it loses against another one of the list as it was.** -/
theorem forPairs_getElem? (h : Marks body view flag first second) : ∀ (l : List α) {i : Nat} {c : α},
    (forPairs body l)[i]? = some c →
      ∃ b, l[i]? = some b ∧ view c = view b ∧ (flag c ↔ flag b ∨ ∃ j, Loses first second (l.map view) i j)
  | [], i, c, hc => by
    rw [forPairs] at hc
    cases hc
  | a :: l, 0, c, hc => by
    rw [forPairs, List.getElem?_cons_zero, Option.some.injEq] at hc
    subst hc
    obtain ⟨hview, hflag⟩ := inner_fst h l a
    refine ⟨a, List.getElem?_cons_zero, hview, hflag.trans ?_⟩
    simp only [List.map_cons, loses_head, List.mem_map, exists_exists_and_eq_and]
  | a :: l, i + 1, c, hc => by
    rw [forPairs, List.getElem?_cons_succ] at hc
    obtain ⟨d, hd, hcview, hcflag⟩ := forPairs_getElem? h (inner body a l).2 hc
    obtain ⟨b, hb, hdview, hdflag⟩ := inner_snd h l a hd
    refine ⟨b, by rwa [List.getElem?_cons_succ], hcview.trans hdview, hcflag.trans ?_⟩
    -- the inner loop has met the head, the loops over the rest all others
    have hmap : (l.map view)[i]? = some (view b) := by rw [List.getElem?_map, hb, Option.map_some]
    rw [hdflag, map_inner h, List.map_cons, loses_tail hmap, or_assoc]
termination_by l => l.length
decreasing_by exact length_inner_lt body a l

end Marks

end PairLoops
end LfSentry
