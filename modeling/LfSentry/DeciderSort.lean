import LfSentry.Comparisons
import LfSentry.Decider
/-!
# DeciderSort — sorting the queue of detections (`Decider::sort`)

Each detection's armors are filtered and sorted, then `std::sort` orders the detections by their front armors.  The filter
may leave a detection without armors, and a sorting procedure compares every one of several detections, so the front of an
empty list is read exactly where there are two detections or more and one of them has lost all its armors
(`sort_safe_iff`).
-/
namespace LfSentry
namespace Vision

open Comparisons (Sorter byKey partially)

variable {K : Type}

/-- The comparison of `std::sort`; there is no front of an empty list. -/
def frontLess (queue : List (DetectionResult K)) (i j : Fin queue.length) : Option Bool :=
  (queue.get i).armors.head?.bind fun a => (queue.get j).armors.head?.map fun b => decide (a.priority < b.priority)

/-- `Decider::sort`; none where the front of an empty list is read. -/
def Decider.sort (d : Decider K) (stdSort : Sorter) (detectionQueue : List (DetectionResult K)) :
    Option (List (DetectionResult K)) :=
  if detectionQueue.isEmpty then some detectionQueue
  else
    let queue := detectionQueue.map d.sorted
    ((stdSort.program queue.length).run (frontLess queue)).map fun order => order.map queue.get

/-- **No front of an empty list is read, and the queue is as it should be**: the same detections, each with its armors by
priority, and those with armors by their best one's. -/
def SafeSort (d : Decider K) (stdSort : Sorter) (detectionQueue : List (DetectionResult K)) : Prop :=
  ∃ queue, d.sort stdSort detectionQueue = some queue ∧ queue.Perm (detectionQueue.map d.sorted) ∧
    (∀ dr ∈ queue, dr.armors.Pairwise fun a b => a.priority.val ≤ b.priority.val) ∧
    queue.Pairwise fun x y => ∀ a ∈ x.armors.head?, ∀ b ∈ y.armors.head?, a.priority.val ≤ b.priority.val

/-! ## The armors of a detection -/

theorem byPriority_pairwise (armors : List (Armor K)) :
    (byPriority armors).Pairwise fun a b => a.priority.val ≤ b.priority.val := by
  have htotal : Std.Total fun a b : Armor K => ¬ b.priority < a.priority := by
    refine ⟨fun a b => ?_⟩
    rw [ArmorPriority.lt_iff, ArmorPriority.lt_iff]
    omega
  have htrans : IsTrans (Armor K) fun a b => ¬ b.priority < a.priority := by
    refine ⟨fun a b c hab hbc => ?_⟩
    rw [ArmorPriority.lt_iff] at hab hbc ⊢
    omega
  refine (List.pairwise_insertionSort (fun a b : Armor K => ¬ b.priority < a.priority) armors).imp fun hab => ?_
  rw [ArmorPriority.lt_iff] at hab
  omega

theorem sorted_armors_eq_nil (d : Decider K) (dr : DetectionResult K) :
    (d.sorted dr).armors = [] ↔ d.armorFilter dr.armors = [] := by
  have hperm : (d.sorted dr).armors.Perm (d.setPriority (d.armorFilter dr.armors)) := List.perm_insertionSort _ _
  constructor
  · intro h
    rw [h] at hperm
    exact List.map_eq_nil_iff.1 hperm.nil_eq.symm
  · intro h
    rw [h] at hperm
    exact hperm.eq_nil

/-! ## The queue -/

section Queue

variable {queue : List (DetectionResult K)}

/-- The value of the front armor's priority. -/
def frontKey (queue : List (DetectionResult K)) (i : Fin queue.length) : Int :=
  ((queue.get i).armors.head?.map fun a => (a.priority.val : Int)).getD 0

/-- There is a front armor. -/
def HasFront (queue : List (DetectionResult K)) (i : Fin queue.length) : Prop := (queue.get i).armors.head?.isSome = true

instance (queue : List (DetectionResult K)) : DecidablePred (HasFront queue) := fun i =>
  inferInstanceAs (Decidable ((queue.get i).armors.head?.isSome = true))

theorem frontLess_eq (queue : List (DetectionResult K)) : frontLess queue = partially (HasFront queue) (frontKey queue) := by
  funext i j
  unfold frontLess partially HasFront byKey frontKey
  rcases Option.eq_none_or_eq_some (queue.get i).armors.head? with hi | ⟨a, hi⟩
  · simp only [hi, Option.bind_none, Option.isSome_none, Bool.false_eq_true, false_and, if_false]
  · rcases Option.eq_none_or_eq_some (queue.get j).armors.head? with hj | ⟨b, hj⟩
    · simp only [hi, hj, Option.bind_some, Option.map_none, Option.isSome_none, Bool.false_eq_true, and_false, if_false]
    · simp only [hi, hj, Option.bind_some, Option.map_some, Option.isSome_some, true_and, if_true, Option.getD_some,
        ArmorPriority.lt_iff, Nat.cast_lt]

theorem frontKey_le {i j : Fin queue.length} (h : frontKey queue i ≤ frontKey queue j) :
    ∀ a ∈ (queue.get i).armors.head?, ∀ b ∈ (queue.get j).armors.head?, a.priority.val ≤ b.priority.val := by
  intro a ha b hb
  rw [Option.mem_def] at ha hb
  simp only [frontKey, ha, hb, Option.map_some, Option.getD_some] at h
  exact_mod_cast h

/-- **A detection without a front armor among others: its front is read.** -/
theorem run_frontLess_eq_none (stdSort : Sorter) (hlen : 2 ≤ queue.length) {i : Fin queue.length}
    (hi : (queue.get i).armors = []) : (stdSort.program queue.length).run (frontLess queue) = none := by
  have hfront : ¬ HasFront queue i := by
    unfold HasFront
    rw [hi]
    exact Bool.false_ne_true
  obtain ⟨j, hj⟩ : ∃ j : Fin queue.length, j ≠ i := by
    by_cases h0 : i.val = 0
    · exact ⟨⟨1, hlen⟩, fun h => by rw [← h] at h0; cases h0⟩
    · exact ⟨⟨0, by omega⟩, fun h => h0 (by rw [← h])⟩
  rw [frontLess_eq]
  exact Comparisons.run_eq_none (stdSort.sorts queue.length) (frontKey queue) (List.mem_finRange i) (List.mem_finRange j) hj
    hfront

/-- **Else the detections are ordered.** -/
theorem run_frontLess_eq_some (stdSort : Sorter) (h : queue.length ≤ 1 ∨ ∀ i, HasFront queue i) :
    ∃ order, (stdSort.program queue.length).run (frontLess queue) = some order ∧
      order.Perm (List.finRange queue.length) ∧ order.Pairwise fun i j => frontKey queue i ≤ frontKey queue j := by
  rcases h with hlen | hall
  · obtain ⟨order, horder⟩ := stdSort.few queue.length hlen
    obtain ⟨order', hrun, h⟩ := stdSort.sorts queue.length (frontKey queue)
    rw [horder] at hrun ⊢
    obtain rfl : order = order' := Option.some.inj hrun
    exact ⟨order, rfl, h⟩
  · rw [frontLess_eq]
    exact Comparisons.run_partially (stdSort.sorts queue.length) (frontKey queue) hall

end Queue

theorem hasFront_iff {queue : List (DetectionResult K)} : (∀ i, HasFront queue i) ↔ ∀ dr ∈ queue, dr.armors ≠ [] := by
  constructor
  · intro h dr hdr hnil
    obtain ⟨i, rfl⟩ := List.get_of_mem hdr
    have hi := h i
    rw [HasFront, hnil] at hi
    cases hi
  · intro h i
    rw [HasFront, List.isSome_head?]
    exact h _ (List.get_mem queue i)

/-- **The queue is sorted safely exactly if it has one detection, or the filter leaves each of its detections an armor.** -/
theorem sort_safe_iff (d : Decider K) (stdSort : Sorter) (detectionQueue : List (DetectionResult K)) :
    SafeSort d stdSort detectionQueue ↔
      detectionQueue.length ≤ 1 ∨ ∀ dr ∈ detectionQueue, d.armorFilter dr.armors ≠ [] := by
  have hempty : (∀ dr ∈ detectionQueue.map d.sorted, dr.armors ≠ []) ↔
      ∀ dr ∈ detectionQueue, d.armorFilter dr.armors ≠ [] := by
    rw [List.forall_mem_map]
    exact forall₂_congr fun dr _ => not_congr (sorted_armors_eq_nil d dr)
  rw [← hempty, ← hasFront_iff, ← List.length_map d.sorted]
  generalize hqueue : detectionQueue.map d.sorted = queue
  have hnil : detectionQueue.isEmpty = queue.isEmpty := by rw [← hqueue, List.isEmpty_map]
  constructor
  · rintro ⟨queue', hsort, -⟩
    by_contra hc
    obtain ⟨hlen, hall⟩ := not_or.1 hc
    obtain ⟨i, hi⟩ := not_forall.1 hall
    have hi' : (queue.get i).armors = [] := by
      rw [HasFront, List.isSome_head?, ne_eq, not_not] at hi
      exact hi
    have hsome : detectionQueue.isEmpty = false := by
      rw [hnil, List.isEmpty_eq_false_iff]
      rintro rfl
      exact hlen (Nat.zero_le 1)
    rw [Decider.sort, hsome, if_neg Bool.false_ne_true, hqueue] at hsort
    dsimp only at hsort
    rw [run_frontLess_eq_none stdSort (by omega) hi'] at hsort
    cases hsort
  · intro h
    by_cases hsome : detectionQueue.isEmpty = true
    · refine ⟨detectionQueue, by rw [Decider.sort, if_pos hsome], ?_⟩
      obtain rfl := List.isEmpty_iff.1 hsome
      exact ⟨List.Perm.refl _, nofun, List.Pairwise.nil⟩
    · obtain ⟨order, hrun, hperm, hpairwise⟩ := run_frontLess_eq_some stdSort h
      have hmap : (order.map queue.get).Perm queue := by
        refine (hperm.map queue.get).trans ?_
        rw [List.map_get_finRange]
      refine ⟨order.map queue.get, ?_, ?_, fun dr hdr => ?_, ?_⟩
      · rw [Decider.sort, if_neg hsome, hqueue]
        dsimp only
        rw [hrun]
        rfl
      · rw [hqueue]
        exact hmap
      · have hmem : dr ∈ detectionQueue.map d.sorted := hqueue ▸ hmap.mem_iff.1 hdr
        obtain ⟨raw, -, rfl⟩ := List.mem_map.1 hmem
        exact byPriority_pairwise _
      · rw [List.pairwise_map]
        exact hpairwise.imp fun hle => frontKey_le hle

def plate (color : Color) : Armor ℚ := ⟨color, .three, .small, .fifth, (0, 0), (0, 0), fun _ => 0, fun _ => 0, fun _ => 0⟩

def plateSeen (color : Color) : DetectionResult ℚ := ⟨[plate color], 0, 0, 0⟩

/-- **Two cameras, of which one sees only a plate of the own colour.** -/
theorem own_colour_is_read : ¬ SafeSort ⟨0, 0, 1, .blue⟩ Comparisons.insertionSorter [plateSeen .blue, plateSeen .red] := by
  rintro ⟨queue, hsort, -⟩
  have hnone :
      (Decider.sort ⟨0, 0, 1, .blue⟩ Comparisons.insertionSorter [plateSeen .blue, plateSeen .red]).isSome = false := by
    decide +kernel
  rw [hsort] at hnone
  cases hnone

/-- **What the code's queue is, is a queue as the programs that read it take it to be.** -/
theorem sort_sorts {d : Decider K} {stdSort : Sorter} {detectionQueue queue : List (DetectionResult K)}
    (h : SafeSort d stdSort detectionQueue) (hsort : d.sort stdSort detectionQueue = some queue) :
    d.Sorts detectionQueue queue := by
  obtain ⟨queue', hsort', hperm, -, hpairwise⟩ := h
  rw [hsort, Option.some.injEq] at hsort'
  subst hsort'
  refine ⟨hperm, fun _ => hpairwise.imp fun hle a ha b hb hlt => ?_⟩
  exact absurd (ArmorPriority.lt_iff.1 hlt) (not_lt.2 (hle a ha b hb))

end Vision
end LfSentry
