import LfSentry.PairLoops
import Mathlib.Algebra.Order.Ring.Rat
/-!
# DuplicateArmors — armors that share a lightbar (`Detector::detect`)

Every two armors with a lightbar in common are compared, the one with the larger pattern or the smaller confidence is marked
as duplicated, and all marked ones are removed together.  A marked armor still marks others, so of a chain of armors more
are removed than share a lightbar with what is kept: each removed one does exactly if each that loses a comparison loses one
to an armor that loses none (`removeDuplicates_iff`).
-/
namespace LfSentry
namespace Vision
namespace Detector

structure Lightbar where
  id : Nat
  deriving DecidableEq

/-- The picture cut out for an armor. -/
structure Pattern where
  cols : Int
  rows : Int
  deriving DecidableEq

/-- What the pass reads of an armor. -/
structure Armor (K : Type) where
  left : Lightbar
  right : Lightbar
  pattern : Pattern
  confidence : K
  duplicated : Bool
  deriving DecidableEq

namespace Armor

variable {K : Type}

def area (a : Armor K) : Int := a.pattern.cols * a.pattern.rows

def markDuplicated (a : Armor K) : Armor K := { a with duplicated := true }

/-- The armor as it was made. -/
def unmarked (a : Armor K) : Armor K := { a with duplicated := false }

@[simp] theorem unmarked_markDuplicated (a : Armor K) : a.markDuplicated.unmarked = a.unmarked := rfl

@[simp] theorem markDuplicated_duplicated (a : Armor K) : a.markDuplicated.duplicated = true := rfl

theorem unmarked_eq {a : Armor K} (h : a.duplicated = false) : a.unmarked = a := by
  unfold unmarked
  rw [← h]

/-- The same left lightbar or the same right one. -/
def Overlaps (a b : Armor K) : Prop := a.left.id = b.left.id ∨ a.right.id = b.right.id

/-- The left lightbar of one is the right one of the other. -/
def Connected (a b : Armor K) : Prop := a.left.id = b.right.id ∨ a.right.id = b.left.id

def Shares (a b : Armor K) : Prop := Overlaps a b ∨ Connected a b

@[simp] theorem overlaps_unmarked (a b : Armor K) : Overlaps a.unmarked b.unmarked ↔ Overlaps a b := Iff.rfl

@[simp] theorem connected_unmarked (a b : Armor K) : Connected a.unmarked b.unmarked ↔ Connected a b := Iff.rfl

@[simp] theorem area_unmarked (a : Armor K) : a.unmarked.area = a.area := rfl

@[simp] theorem confidence_unmarked (a : Armor K) : a.unmarked.confidence = a.confidence := rfl

instance (a b : Armor K) : Decidable (Overlaps a b) := inferInstanceAs (Decidable (_ ∨ _))

instance (a b : Armor K) : Decidable (Connected a b) := inferInstanceAs (Decidable (_ ∨ _))

instance (a b : Armor K) : Decidable (Shares a b) := inferInstanceAs (Decidable (_ ∨ _))

theorem Shares.symm {a b : Armor K} (h : Shares a b) : Shares b a := by
  rcases h with (h | h) | (h | h)
  · exact .inl (.inl h.symm)
  · exact .inl (.inr h.symm)
  · exact .inr (.inr h.symm)
  · exact .inr (.inl h.symm)

end Armor

open Armor

variable {K : Type} [LT K] [DecidableLT K]

/-! ## The pass -/

/-- Of two that overlap the one with the smaller pattern is kept. -/
def keepSmaller (armor1 armor2 : Armor K) : Armor K × Armor K :=
  if Overlaps armor1 armor2 then
    if armor1.area < armor2.area then (armor1, armor2.markDuplicated) else (armor1.markDuplicated, armor2)
  else (armor1, armor2)

/-- Of two that are connected the surer one is kept. -/
def keepSurer (armor1 armor2 : Armor K) : Armor K × Armor K :=
  if Connected armor1 armor2 then
    if armor1.confidence < armor2.confidence then (armor1.markDuplicated, armor2) else (armor1, armor2.markDuplicated)
  else (armor1, armor2)

/-- The body of the two loops. -/
def compare (armor1 armor2 : Armor K) : Armor K × Armor K :=
  if armor1.left.id ≠ armor2.left.id ∧ armor1.left.id ≠ armor2.right.id ∧
      armor1.right.id ≠ armor2.left.id ∧ armor1.right.id ≠ armor2.right.id then (armor1, armor2)
  else
    let (armor1, armor2) := keepSmaller armor1 armor2
    keepSurer armor1 armor2

def markDuplicates (armors : List (Armor K)) : List (Armor K) := PairLoops.forPairs compare armors

/-- The armors that are returned. -/
def removeDuplicates (armors : List (Armor K)) : List (Armor K) :=
  (markDuplicates armors).filter fun a => !a.duplicated

/-- **No two of the armors kept share a lightbar, and each one removed shares one with an armor kept.** -/
def KeepsOneOfEach (armors : List (Armor K)) : Prop :=
  (removeDuplicates armors).Pairwise (fun a b => ¬ Shares a b) ∧
    ∀ a ∈ markDuplicates armors, a.duplicated = true → ∃ b ∈ removeDuplicates armors, Shares a b

/-! ## What a comparison marks -/

/-- The first of a pair is marked. -/
def FirstLoses (a b : Armor K) : Prop :=
  Overlaps a b ∧ ¬ a.area < b.area ∨ Connected a b ∧ a.confidence < b.confidence

/-- The second of a pair is marked. -/
def SecondLoses (a b : Armor K) : Prop :=
  Overlaps a b ∧ a.area < b.area ∨ Connected a b ∧ ¬ a.confidence < b.confidence

theorem shares_iff {a b : Armor K} : Shares a b ↔ FirstLoses a b ∨ SecondLoses a b := by
  unfold Shares FirstLoses SecondLoses
  by_cases harea : a.area < b.area
  · by_cases hconf : a.confidence < b.confidence <;> simp [harea, hconf, or_comm]
  · by_cases hconf : a.confidence < b.confidence <;> simp [harea, hconf]

theorem compare_eq (a b : Armor K) : compare a b = keepSurer (keepSmaller a b).1 (keepSmaller a b).2 := by
  unfold compare
  by_cases h : a.left.id ≠ b.left.id ∧ a.left.id ≠ b.right.id ∧ a.right.id ≠ b.left.id ∧ a.right.id ≠ b.right.id
  · obtain ⟨hll, hlr, hrl, hrr⟩ := h
    have hoverlaps : ¬ Overlaps a b := not_or.2 ⟨hll, hrr⟩
    have hconnected : ¬ Connected a b := not_or.2 ⟨hlr, hrl⟩
    rw [if_pos ⟨hll, hlr, hrl, hrr⟩, keepSmaller, if_neg hoverlaps, keepSurer, if_neg hconnected]
  · rw [if_neg h]

omit [LT K] [DecidableLT K] in
theorem marks_keepSmaller : PairLoops.Marks (keepSmaller (K := K)) unmarked (fun a => a.duplicated = true)
    (fun a b => Overlaps a b ∧ ¬ a.area < b.area) (fun a b => Overlaps a b ∧ a.area < b.area) := by
  refine .of_cases markDuplicated unmarked_markDuplicated markDuplicated_duplicated fun a b => ?_
  unfold keepSmaller
  by_cases hoverlaps : Overlaps a b
  · by_cases harea : a.area < b.area <;> simp [hoverlaps, harea]
  · simp [hoverlaps]

theorem marks_keepSurer : PairLoops.Marks (keepSurer (K := K)) unmarked (fun a => a.duplicated = true)
    (fun a b => Connected a b ∧ a.confidence < b.confidence) (fun a b => Connected a b ∧ ¬ a.confidence < b.confidence) := by
  refine .of_cases markDuplicated unmarked_markDuplicated markDuplicated_duplicated fun a b => ?_
  unfold keepSurer
  by_cases hconnected : Connected a b
  · by_cases hconf : a.confidence < b.confidence <;> simp [hconnected, hconf]
  · simp [hconnected]

/-- **The body marks by lightbars, patterns and confidences only.** -/
theorem marks_compare :
    PairLoops.Marks (compare (K := K)) unmarked (fun a => a.duplicated = true) FirstLoses SecondLoses := by
  rw [show compare (K := K) = fun a b => keepSurer (keepSmaller a b).1 (keepSmaller a b).2 from
    funext fun a => funext fun b => compare_eq a b]
  exact marks_keepSmaller.comp marks_keepSurer

/-! ## The whole list -/

variable {armors : List (Armor K)}

/-- The comparison of the armors at `i` and `j` marks the one at `i`. -/
def Beats (armors : List (Armor K)) (j i : Nat) : Prop := PairLoops.Loses FirstLoses SecondLoses armors i j

theorem markDuplicates_getElem? (hnew : ∀ a ∈ armors, a.duplicated = false) {i : Nat} {a : Armor K}
    (ha : (markDuplicates armors)[i]? = some a) :
    armors[i]? = some a.unmarked ∧ (a.duplicated = true ↔ ∃ j, Beats armors j i) := by
  obtain ⟨b, hb, hview, hflag⟩ := PairLoops.forPairs_getElem? marks_compare armors ha
  have hbnew : b.duplicated = false := hnew b (List.mem_of_getElem? hb)
  have hmap : armors.map unmarked = armors :=
    (List.map_congr_left fun a ha => unmarked_eq (hnew a ha)).trans (List.map_id' armors)
  rw [hmap, hbnew] at hflag
  rw [hview, unmarked_eq hbnew]
  refine ⟨hb, hflag.trans ?_⟩
  simp [Beats]

theorem exists_marked {i : Nat} {a : Armor K} (ha : armors[i]? = some a) : ∃ b, (markDuplicates armors)[i]? = some b := by
  obtain ⟨hi, -⟩ := List.getElem?_eq_some_iff.1 ha
  rw [← PairLoops.length_forPairs compare armors] at hi
  exact ⟨_, List.getElem?_eq_getElem hi⟩

/-- Of two armors with a lightbar in common one beats the other. -/
theorem shares_iff_beats {i j : Nat} {a b : Armor K} (hij : i ≠ j) (ha : armors[i]? = some a) (hb : armors[j]? = some b) :
    Shares a b ↔ Beats armors j i ∨ Beats armors i j := by
  rcases Nat.lt_or_gt_of_ne hij with hlt | hgt
  · rw [Beats, Beats, PairLoops.loses_of_lt hlt ha hb, PairLoops.loses_of_gt hlt ha hb, shares_iff]
  · rw [Beats, Beats, PairLoops.loses_of_lt hgt hb ha, PairLoops.loses_of_gt hgt hb ha, or_comm, ← shares_iff]
    exact ⟨Shares.symm, Shares.symm⟩

theorem mem_removeDuplicates {a : Armor K} :
    a ∈ removeDuplicates armors ↔ a ∈ markDuplicates armors ∧ a.duplicated = false := by
  simp [removeDuplicates]

/-- **No two of the armors kept share a lightbar.** -/
theorem removeDuplicates_pairwise (hnew : ∀ a ∈ armors, a.duplicated = false) :
    (removeDuplicates armors).Pairwise fun a b => ¬ Shares a b := by
  rw [removeDuplicates, List.pairwise_filter, List.pairwise_iff_getElem]
  intro i j hi hj hij hikept hjkept hshares
  obtain ⟨ha, haflag⟩ := markDuplicates_getElem? hnew (List.getElem?_eq_getElem hi)
  obtain ⟨hb, hbflag⟩ := markDuplicates_getElem? hnew (List.getElem?_eq_getElem hj)
  rcases (shares_iff_beats (Nat.ne_of_lt hij) ha hb).1 hshares with hbeats | hbeats
  · simp [haflag.2 ⟨j, hbeats⟩] at hikept
  · simp [hbflag.2 ⟨i, hbeats⟩] at hjkept

/-- **The armors kept are the ones to keep exactly if every armor that loses a comparison loses one to an armor that loses
none.** -/
theorem removeDuplicates_iff (hnew : ∀ a ∈ armors, a.duplicated = false) :
    KeepsOneOfEach armors ↔ ∀ i, (∃ j, Beats armors j i) → ∃ j, Beats armors j i ∧ ∀ k, ¬ Beats armors k j := by
  constructor
  · rintro ⟨-, hremoved⟩ i ⟨j, hbeats⟩
    obtain ⟨x, -, hx, -⟩ := id hbeats
    obtain ⟨a, ha⟩ := exists_marked hx
    obtain ⟨hai, haflag⟩ := markDuplicates_getElem? hnew ha
    obtain ⟨b, hb, hshares⟩ := hremoved a (List.mem_of_getElem? ha) (haflag.2 ⟨j, hbeats⟩)
    obtain ⟨hbmem, hbkept⟩ := mem_removeDuplicates.1 hb
    obtain ⟨k, hk⟩ := List.mem_iff_getElem?.1 hbmem
    obtain ⟨hbk, hbflag⟩ := markDuplicates_getElem? hnew hk
    have hstands : ∀ l, ¬ Beats armors l k := by
      intro l hl
      rw [hbflag.2 ⟨l, hl⟩] at hbkept
      cases hbkept
    have hik : i ≠ k := by
      rintro rfl
      exact hstands j hbeats
    exact ⟨k, ((shares_iff_beats hik hai hbk).1 hshares).resolve_right (hstands i), hstands⟩
  · intro h
    refine ⟨removeDuplicates_pairwise hnew, fun a ha hmarked => ?_⟩
    obtain ⟨i, hi⟩ := List.mem_iff_getElem?.1 ha
    obtain ⟨hai, haflag⟩ := markDuplicates_getElem? hnew hi
    obtain ⟨j, hbeats, hstands⟩ := h i (haflag.1 hmarked)
    obtain ⟨-, y, -, hy, -⟩ := id hbeats
    obtain ⟨b, hb⟩ := exists_marked hy
    obtain ⟨hbj, hbflag⟩ := markDuplicates_getElem? hnew hb
    have hij : i ≠ j := by
      rintro rfl
      exact hstands i hbeats
    have hbkept : b.duplicated = false := by
      rw [Bool.eq_false_iff, ne_eq, hbflag, not_exists]
      exact hstands
    exact ⟨b, mem_removeDuplicates.2 ⟨List.mem_of_getElem? hb, hbkept⟩, (shares_iff_beats hij hai hbj).2 (.inl hbeats)⟩

/-- An armor between two lightbars. -/
def between (left right : Nat) (confidence : ℚ) : Armor ℚ := ⟨⟨left⟩, ⟨right⟩, ⟨50, 36⟩, confidence, false⟩

theorem removeDuplicates_iff_twoConnected : KeepsOneOfEach [between 0 1 (4 / 5), between 1 2 (9 / 10)] := by
  refine (removeDuplicates_iff (by decide)).2 ?_
  have hbeats : Beats [between 0 1 (4 / 5), between 1 2 (9 / 10)] 1 0 :=
    (PairLoops.loses_of_lt Nat.zero_lt_one rfl rfl).2 (.inr ⟨by decide, by decide +kernel⟩)
  have hstands : ∀ k, ¬ Beats [between 0 1 (4 / 5), between 1 2 (9 / 10)] k 1 := by
    rintro k ⟨a, b, ha, hb, h⟩
    rcases h with ⟨hk, -⟩ | ⟨hk, hsecond⟩
    · rw [List.getElem?_eq_none (show 2 ≤ k from hk)] at hb
      cases hb
    · obtain rfl := Nat.lt_one_iff.1 hk
      cases ha
      cases hb
      rcases hsecond with ⟨hoverlaps, -⟩ | ⟨-, hconf⟩
      · exact absurd hoverlaps (by decide)
      · exact hconf (by decide +kernel)
  rintro i ⟨j, hj⟩
  match i with
  | 0 => exact ⟨1, hbeats, hstands⟩
  | 1 => exact absurd hj (hstands j)
  | i + 2 =>
    obtain ⟨a, b, ha, -⟩ := hj
    cases ha

/-- Three armors in a row, each surer than the one before. -/
def row : List (Armor ℚ) := [between 0 1 (4 / 5), between 1 2 (9 / 10), between 2 3 (19 / 20)]

/-- **Only the third is kept; the first shares no lightbar with it.** -/
theorem first_removed_alone : ¬ KeepsOneOfEach row := by
  rintro ⟨-, hremoved⟩
  have hmem : (between 0 1 (4 / 5)).markDuplicated ∈ markDuplicates row := by decide +kernel
  have hkept : removeDuplicates row = [between 2 3 (19 / 20)] := by decide +kernel
  obtain ⟨b, hb, hshares⟩ := hremoved _ hmem rfl
  rw [hkept, List.mem_singleton] at hb
  subst hb
  exact absurd hshares (by decide)

end Detector
end Vision
end LfSentry
