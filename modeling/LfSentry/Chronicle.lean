import Mathlib.Data.List.Chain
import Mathlib.Order.Lattice
/-!
# Chronicle — what happened at which time, told in order

Of elements told in order of time, `newer` keeps those that are newer than everything kept before them: no time is kept
twice, and every time is kept that is later than the one it began with.  Of two kinds of elements told in turns, one of which
is never told late, all are in order when those of the other are.
-/
namespace LfSentry
namespace Chronicle

variable {α T : Type} [LinearOrder T] (time : α → T)

/-- Told in order; equal times are allowed. -/
def InOrder (l : List α) : Prop := l.Pairwise fun a b => time a ≤ time b

/-- Those newer than `last` and than all kept before them. -/
def newer : T → List α → List α
  | _, [] => []
  | last, a :: l => if last < time a then a :: newer (time a) l else newer last l

/-- The time of the newest, `last` if none is newer. -/
def latest : T → List α → T
  | last, [] => last
  | last, a :: l => latest (if last < time a then time a else last) l

variable {time} {last : T} {a b : α} {l k : List α}

@[simp] theorem newer_nil : newer time last [] = [] := rfl

@[simp] theorem latest_nil : latest time last [] = last := rfl

theorem newer_cons_of_lt (h : last < time a) : newer time last (a :: l) = a :: newer time (time a) l := if_pos h

theorem newer_cons_of_not_lt (h : ¬ last < time a) : newer time last (a :: l) = newer time last l := if_neg h

theorem latest_cons_of_lt (h : last < time a) : latest time last (a :: l) = latest time (time a) l := by
  rw [latest, if_pos h]

theorem latest_cons_of_not_lt (h : ¬ last < time a) : latest time last (a :: l) = latest time last l := by
  rw [latest, if_neg h]

theorem newer_sublist : ∀ (last : T) (l : List α), (newer time last l).Sublist l
  | _, [] => List.Sublist.slnil
  | last, a :: l => by
    by_cases h : last < time a
    · rw [newer_cons_of_lt h]
      exact (newer_sublist _ l).cons_cons a
    · rw [newer_cons_of_not_lt h]
      exact (newer_sublist _ l).cons a

theorem lt_of_mem_newer : ∀ {last : T} {l : List α}, a ∈ newer time last l → last < time a
  | _, [], h => absurd h List.not_mem_nil
  | last, b :: l, h => by
    by_cases hb : last < time b
    · rw [newer_cons_of_lt hb] at h
      rcases List.mem_cons.1 h with rfl | h
      · exact hb
      · exact hb.trans (lt_of_mem_newer h)
    · rw [newer_cons_of_not_lt hb] at h
      exact lt_of_mem_newer h

/-- **No time is kept twice.** -/
theorem newer_pairwise : ∀ (last : T) (l : List α), (newer time last l).Pairwise fun a b => time a < time b
  | _, [] => List.Pairwise.nil
  | last, a :: l => by
    by_cases h : last < time a
    · rw [newer_cons_of_lt h]
      exact List.pairwise_cons.2 ⟨fun b hb => lt_of_mem_newer hb, newer_pairwise _ l⟩
    · rw [newer_cons_of_not_lt h]
      exact newer_pairwise _ l

theorem le_latest : ∀ (last : T) (l : List α), last ≤ latest time last l
  | _, [] => le_rfl
  | last, a :: l => by
    by_cases h : last < time a
    · rw [latest_cons_of_lt h]
      exact h.le.trans (le_latest _ l)
    · rw [latest_cons_of_not_lt h]
      exact le_latest _ l

theorem le_latest_of_mem_newer : ∀ {last : T} {l : List α}, a ∈ newer time last l → time a ≤ latest time last l
  | _, [], h => absurd h List.not_mem_nil
  | last, b :: l, h => by
    by_cases hb : last < time b
    · rw [newer_cons_of_lt hb] at h
      rw [latest_cons_of_lt hb]
      rcases List.mem_cons.1 h with rfl | h
      · exact le_latest _ l
      · exact le_latest_of_mem_newer h
    · rw [newer_cons_of_not_lt hb] at h
      rw [latest_cons_of_not_lt hb]
      exact le_latest_of_mem_newer h

theorem latest_mem : ∀ (last : T) (l : List α), latest time last l = last ∨ ∃ a ∈ newer time last l, time a = latest time last l
  | _, [] => Or.inl rfl
  | last, a :: l => by
    by_cases h : last < time a
    · rw [latest_cons_of_lt h, newer_cons_of_lt h]
      rcases latest_mem (time a) l with heq | ⟨b, hb, heq⟩
      · exact Or.inr ⟨a, List.mem_cons_self, heq.symm⟩
      · exact Or.inr ⟨b, List.mem_cons_of_mem a hb, heq⟩
    · rw [latest_cons_of_not_lt h, newer_cons_of_not_lt h]
      exact latest_mem last l

/-- **Every later time is kept**, of elements told in order. -/
theorem exists_mem_newer : ∀ {last : T} {l : List α}, InOrder time l → a ∈ l → last < time a →
    ∃ b ∈ newer time last l, time b = time a
  | _, [], _, ha, _ => absurd ha List.not_mem_nil
  | last, b :: l, hl, ha, hlt => by
    obtain ⟨hb, hl⟩ := List.pairwise_cons.1 hl
    by_cases h : last < time b
    · rw [newer_cons_of_lt h]
      by_cases heq : time b = time a
      · exact ⟨b, List.mem_cons_self, heq⟩
      · have ha : a ∈ l := (List.mem_cons.1 ha).resolve_left fun hab => heq (by rw [hab])
        obtain ⟨c, hc, hca⟩ := exists_mem_newer hl ha (lt_of_le_of_ne (hb a ha) heq)
        exact ⟨c, List.mem_cons_of_mem b hc, hca⟩
    · rw [newer_cons_of_not_lt h]
      have ha : a ∈ l := (List.mem_cons.1 ha).resolve_left fun hab => h (hab ▸ hlt)
      exact exists_mem_newer hl ha hlt

/-! ## Turns -/

/-- Told in turns that end with a marked element each: what is not marked is not earlier than anything told before it, nor later
than what is told next. -/
structure Turns (P : α → Prop) (time : α → T) (l : List α) : Prop where
  ordered : l.Pairwise fun a b => ¬ P b → time a ≤ time b
  next : l.IsChain fun a b => ¬ P a → time a ≤ time b
  last : ∀ a ∈ l.getLast?, P a

variable {P : α → Prop}

theorem turns_nil (P : α → Prop) (time : α → T) : Turns P time [] := ⟨List.Pairwise.nil, List.isChain_nil, by simp⟩

theorem Turns.append (h : Turns P time l) (hk : InOrder time (k ++ [a])) (ha : P a)
    (hlk : ∀ b ∈ l, ∀ c ∈ k, time b ≤ time c) : Turns P time (l ++ (k ++ [a])) where
  ordered := by
    have hturn : (k ++ [a]).Pairwise fun a b => ¬ P b → time a ≤ time b := by
      refine List.Pairwise.imp ?_ hk
      intro a b hle _
      exact hle
    refine List.pairwise_append.2 ⟨h.ordered, hturn, fun b hb c hc hnot => ?_⟩
    rcases List.mem_append.1 hc with hc | hc
    · exact hlk b hb c hc
    · exact absurd (List.mem_singleton.1 hc ▸ ha) hnot
  next := by
    have hturn : (k ++ [a]).Pairwise fun a b => ¬ P a → time a ≤ time b := by
      refine List.Pairwise.imp ?_ hk
      intro a b hle _
      exact hle
    refine List.isChain_append.2 ⟨h.next, hturn.isChain, fun b hb c _ hnot => ?_⟩
    exact absurd (h.last b hb) hnot
  last := by
    intro b hb
    rw [← List.append_assoc, List.getLast?_concat, Option.mem_some_iff] at hb
    exact hb ▸ ha

/-- **Turns are told in order when the marked elements are.** -/
theorem Turns.inOrder : ∀ {l : List α}, l.Pairwise (fun a b => ¬ P b → time a ≤ time b) →
    l.IsChain (fun a b => ¬ P a → time a ≤ time b) → l.Pairwise (fun a b => P a → P b → time a ≤ time b) → InOrder time l
  | [], _, _, _ => List.Pairwise.nil
  | [_], _, _, _ => List.pairwise_singleton _ _
  | a :: b :: l, hordered, hnext, hmarked => by
    obtain ⟨ha, hordered⟩ := List.pairwise_cons.1 hordered
    obtain ⟨hab, hnext⟩ := List.isChain_cons_cons.1 hnext
    obtain ⟨ham, hmarked⟩ := List.pairwise_cons.1 hmarked
    have ih := Turns.inOrder hordered hnext hmarked
    refine List.pairwise_cons.2 ⟨fun c hc => ?_, ih⟩
    by_cases hPc : P c
    · by_cases hPa : P a
      · exact ham c hc hPa hPc
      · rcases List.mem_cons.1 hc with rfl | hc
        · exact hab hPa
        · exact (hab hPa).trans ((List.pairwise_cons.1 ih).1 c hc)
    · exact ha c hc hPc

end Chronicle
end LfSentry
