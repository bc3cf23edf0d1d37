import LfSentry.DualCameras
/-!
# OmniDirection — whose direction a detection carries

A detection takes its angles from the front of the list that the network finds, before anything is filtered or sorted; what
is turned to is the front of what is left.  The two have one direction iff the first armor found lies where the first of the
best armors does (`carriesFront_iff`).
-/
namespace LfSentry
namespace Vision

open AddCommGroup

variable {K : Type} [Field K]

/-! ## The front after the sort -/

def Decider.rank (d : Decider K) (a : Armor K) : Nat := (d.priorityMap a.name).val

/-- The first armor of the best priority among those that the filter keeps. -/
def Decider.best (d : Decider K) (armors : List (Armor K)) : Option (Armor K) := (d.armorFilter armors).argmin d.rank

omit [Field K] in
/-- **The sort puts the first of the best armors in front.** -/
theorem head_byPriority (d : Decider K) : ∀ armors : List (Armor K),
    (byPriority (d.setPriority armors)).head? = (armors.argmin d.rank).map d.prioritised
  | [] => rfl
  | a :: armors => by
    have ih := head_byPriority d armors
    have hcons : byPriority (d.setPriority (a :: armors)) =
        (byPriority (d.setPriority armors)).orderedInsert (fun a b => ¬ b.priority < a.priority) (d.prioritised a) := rfl
    rw [hcons, List.argmin_cons]
    cases hs : byPriority (d.setPriority armors) with
    | nil =>
      rw [hs, List.head?_nil, eq_comm, Option.map_eq_none_iff] at ih
      rw [ih]
      rfl
    | cons b rest =>
      rw [hs, List.head?_cons, eq_comm, Option.map_eq_some_iff] at ih
      obtain ⟨c, hc, rfl⟩ := ih
      rw [hc, List.orderedInsert_cons]
      by_cases hlt : d.rank c < d.rank a
      · have hprio : (d.prioritised c).priority < (d.prioritised a).priority := hlt
        rw [if_neg (not_not.2 hprio)]
        simp only [if_pos hlt]
        rfl
      · have hprio : ¬ (d.prioritised c).priority < (d.prioritised a).priority := hlt
        rw [if_pos hprio]
        simp only [if_neg hlt]
        rfl

omit [Field K] in
theorem mem_armorFilter {d : Decider K} {armors : List (Armor K)} {a : Armor K} :
    a ∈ d.armorFilter armors ↔ a ∈ armors ∧ a.color = d.enemyColor ∧ a.name ≠ .five := by
  simp only [Decider.armorFilter, List.mem_filter, decide_eq_true_eq, and_assoc]

omit [Field K] in
theorem best_spec {d : Decider K} {armors : List (Armor K)} {a : Armor K} (h : a ∈ d.best armors) :
    a ∈ armors ∧ a.color = d.enemyColor ∧ a.name ≠ .five ∧
      ∀ b ∈ armors, b.color = d.enemyColor → b.name ≠ .five → d.rank a ≤ d.rank b := by
  obtain ⟨hmem, hcolor, hname⟩ := mem_armorFilter.1 (List.argmin_mem h)
  exact ⟨hmem, hcolor, hname, fun b hb hc hn => List.le_of_mem_argmin (mem_armorFilter.2 ⟨hb, hc, hn⟩) h⟩

/-! ## Whose direction it is -/

/-- A detection of the view that still has armors after the sort carries the angles to its front armor. -/
def CarriesFront (d : Decider K) (turn : K → K) (v : View K) : Prop :=
  ∀ dr ∈ d.detect turn v, ∀ a ∈ (d.sorted dr).armors.head?,
    (d.sorted dr).deltaYaw = turn ((d.deltaAngle a v.camera).1 / 57.3) ∧
      (d.sorted dr).deltaPitch = turn ((d.deltaAngle a v.camera).2 / 57.3)

/-- What the queue is decided to is an armor of the enemy of the best priority that a camera sees. -/
def Steers (d : Decider K) (turn : K → K) (views : List (View K)) (queue : List (DetectionResult K)) : Prop :=
  (decideQueue queue).control = true → ∃ v ∈ views, ∃ a ∈ v.armors, a.color = d.enemyColor ∧ a.name ≠ .five ∧
    (∀ b ∈ v.armors, b.color = d.enemyColor → b.name ≠ .five → d.rank a ≤ d.rank b) ∧
    (decideQueue queue).yaw = turn ((d.deltaAngle a v.camera).1 / 57.3) ∧
    (decideQueue queue).pitch = turn ((d.deltaAngle a v.camera).2 / 57.3)

/-- The first armor that the network found lies, in both directions, as far as the first of the best ones, up to multiples
of `p`. -/
def FirstIsBest (d : Decider K) (p : K) (v : View K) : Prop :=
  ∀ first ∈ v.armors.head?, ∀ best ∈ d.best v.armors,
    first.centerNorm.1 * (d.fov v.camera).1 / 57.3 ≡ best.centerNorm.1 * (d.fov v.camera).1 / 57.3 [PMOD p] ∧
      first.centerNorm.2 * (d.fov v.camera).2 / 57.3 ≡
        best.centerNorm.2 * (d.fov v.camera).2 / 57.3 [PMOD p]

omit [Field K] in
theorem head_sorted {d : Decider K} {dr : DetectionResult K} {a : Armor K} :
    a ∈ (d.sorted dr).armors.head? ↔ ∃ best ∈ d.best dr.armors, a = d.prioritised best := by
  have h := head_byPriority d (d.armorFilter dr.armors)
  rw [Decider.sorted, h, Option.mem_map]
  exact ⟨fun ⟨b, hb, he⟩ => ⟨b, hb, he.symm⟩, fun ⟨b, hb, he⟩ => ⟨b, hb, he.symm⟩⟩

/-- **A detection carries the direction of its front armor iff the first armor found lies where that does.** -/
theorem carriesFront_iff {d : Decider K} {turn : K → K} {p : K} (hturn : ∀ a b, turn a = turn b ↔ a ≡ b [PMOD p])
    (v : View K) : CarriesFront d turn v ↔ FirstIsBest d p v := by
  unfold CarriesFront FirstIsBest Decider.detect
  cases harmors : v.armors with
  | nil => exact ⟨fun _ first h => (by cases h), fun _ dr h => (by cases h)⟩
  | cons front rest =>
    have hdirection : ∀ best : Armor K,
        (turn ((d.deltaAngle front v.camera).1 / 57.3) =
            turn ((d.deltaAngle (d.prioritised best) v.camera).1 / 57.3) ∧
          turn ((d.deltaAngle front v.camera).2 / 57.3) =
            turn ((d.deltaAngle (d.prioritised best) v.camera).2 / 57.3)) ↔
        (front.centerNorm.1 * (d.fov v.camera).1 / 57.3 ≡
            best.centerNorm.1 * (d.fov v.camera).1 / 57.3 [PMOD p] ∧
          front.centerNorm.2 * (d.fov v.camera).2 / 57.3 ≡
            best.centerNorm.2 * (d.fov v.camera).2 / 57.3 [PMOD p]) := by
      intro best
      obtain ⟨hyaw, hpitch⟩ := deltaAngle_sub d front (d.prioritised best) v.camera
      rw [hturn, hturn, hyaw, hpitch]
      refine and_congr ?_ ?_
      · refine (Turns.modEq_of_sub_eq ?_).trans modEq_comm
        rw [add_div, add_sub_cancel_left, sub_div]
        rfl
      · refine Turns.modEq_of_sub_eq ?_
        rw [sub_div, sub_sub_cancel_left, sub_div, neg_sub]
        rfl
    constructor
    · intro h first hfirst best hbest
      cases hfirst
      refine (hdirection best).1 (h _ rfl (d.prioritised best) (head_sorted.2 ⟨best, hbest, rfl⟩))
    · intro h dr hdr a ha
      cases hdr
      obtain ⟨best, hbest, rfl⟩ := head_sorted.1 ha
      exact (hdirection best).2 (h front rfl best hbest)

theorem detect_armors {d : Decider K} {turn : K → K} {v : View K} {dr : DetectionResult K} (h : dr ∈ d.detect turn v) :
    dr.armors = v.armors := by
  unfold Decider.detect at h
  split at h
  · cases h
  · rw [← Option.some.inj h]

/-- **A queue of detections that carry the directions of their fronts is decided to one of the best armors.** -/
theorem steers_of_carries {d : Decider K} {turn : K → K} {views : List (View K)} {queue : List (DetectionResult K)}
    (h : ∀ v ∈ views, CarriesFront d turn v) (hqueue : ∀ dr ∈ queue, ∃ v ∈ views, ∃ raw ∈ d.detect turn v, dr = d.sorted raw) :
    Steers d turn views queue := by
  intro hcontrol
  cases queue with
  | nil => cases hcontrol
  | cons dr rest =>
    obtain ⟨v, hv, raw, hraw, rfl⟩ := hqueue dr List.mem_cons_self
    cases harmors : (d.sorted raw).armors with
    | nil =>
      rw [decideQueue, if_pos harmors] at hcontrol
      cases hcontrol
    | cons a others =>
      have hhead : a ∈ (d.sorted raw).armors.head? := by
        rw [harmors]
        rfl
      obtain ⟨hyaw, hpitch⟩ := h v hv raw hraw a hhead
      obtain ⟨best, hbest, rfl⟩ := head_sorted.1 hhead
      rw [detect_armors hraw] at hbest
      obtain ⟨hmem, hcolor, hname, hfirst⟩ := best_spec hbest
      have hne : (d.sorted raw).armors ≠ [] := by
        rw [harmors]
        exact List.cons_ne_nil _ _
      refine ⟨v, hv, best, hmem, hcolor, hname, hfirst, ?_⟩
      rw [decideQueue, if_neg hne]
      exact ⟨hyaw, hpitch⟩

theorem mem_sorts {d : Decider K} {views : List (View K)} {queue : List (DetectionResult K)}
    (h : d.Sorts (views.filterMap d.parallelInfer) queue) {dr : DetectionResult K} (hdr : dr ∈ queue) :
    ∃ v ∈ views, ∃ raw ∈ d.detect id v, dr = d.sorted raw := by
  obtain ⟨raw, hraw, rfl⟩ := List.mem_map.1 (h.perm.mem_iff.1 hdr)
  obtain ⟨v, hv, hdetect⟩ := List.mem_filterMap.1 hraw
  exact ⟨v, hv, raw, hdetect, rfl⟩

section Dual

variable [LinearOrder K] [FloorRing K] {lib : Libm K}

theorem mem_queued {d : Decider K} {views : List (View K)} {queue : List (DetectionResult K)}
    (h : DualCameras.Queued d (views.filterMap (DualCameras.detect lib d)) queue) {dr : DetectionResult K} (hdr : dr ∈ queue) :
    ∃ v ∈ views, ∃ raw ∈ d.detect (limitRad lib) v, dr = d.sorted raw := by
  obtain ⟨raw, hraw, rfl⟩ := List.mem_map.1 (List.mem_filter.1 (h.perm.mem_iff.1 hdr)).1
  obtain ⟨v, hv, hdetect⟩ := List.mem_filterMap.1 hraw
  exact ⟨v, hv, raw, hdetect, rfl⟩

variable [IsStrictOrderedRing K] (lib)

/-- **In both pipelines the detections carry the directions of the armors that they are sorted by, and the decision steers
to one of the best, exactly if in every camera's list the first armor found lies where the first of the best ones does.** -/
theorem direction_of_front_iff (hpi : 0 < lib.pi) (d : Decider K) (views : List (View K)) :
    (((∀ v ∈ views, CarriesFront d id v) ∧
        ∀ queue, d.Sorts (views.filterMap d.parallelInfer) queue → Steers d id views queue) ↔
      ∀ v ∈ views, FirstIsBest d 0 v) ∧
    (((∀ v ∈ views, CarriesFront d (limitRad lib) v) ∧
        ∀ queue, DualCameras.Queued d (views.filterMap (DualCameras.detect lib d)) queue →
          Steers d (limitRad lib) views queue) ↔
      ∀ v ∈ views, FirstIsBest d (2 * lib.pi) v) := by
  constructor
  · have hturn : ∀ a b : K, id a = id b ↔ a ≡ b [PMOD 0] := fun a b => modEq_zero.symm
    constructor
    · exact fun h v hv => (carriesFront_iff hturn v).1 (h.1 v hv)
    · intro h
      have hcarries : ∀ v ∈ views, CarriesFront d id v := fun v hv => (carriesFront_iff hturn v).2 (h v hv)
      exact ⟨hcarries, fun queue hq => steers_of_carries hcarries fun dr hdr => mem_sorts hq hdr⟩
  · constructor
    · exact fun h v hv => (carriesFront_iff (limitRad_inj hpi) v).1 (h.1 v hv)
    · intro h
      have hcarries : ∀ v ∈ views, CarriesFront d (limitRad lib) v :=
        fun v hv => (carriesFront_iff (limitRad_inj hpi) v).2 (h v hv)
      exact ⟨hcarries, fun queue hq => steers_of_carries hcarries fun dr hdr => mem_queued hq hdr⟩

end Dual

/-- The decider of the sentry, whose enemy is blue. -/
noncomputable def blueDecider : Decider ℝ := ⟨64.0, 48.0, 1, .blue⟩

/-- A standard robot's armor at a place across the image, half way down. -/
noncomputable def armorAcross (color : Color) (x : ℝ) : Armor ℝ :=
  ⟨color, .three, .small, .first, (0, 0), (x, 0.5), 0, 0, 0⟩

/-- On the left an own armor hides the best of the enemy's, and a worse one stands aside; at the back the best is found
first, before a sentry and a 5. -/
noncomputable def twoViews : List (View ℝ) :=
  [⟨"left", [armorAcross .red 0.75, { armorAcross .blue 0.25 with name := .two }, armorAcross .blue 0.75], 0⟩,
    ⟨"back", [armorAcross .blue 0.5, { armorAcross .blue 0.25 with name := .sentry }, { armorAcross .blue 0.1 with name := .five }],
      0⟩]

theorem firstIsBest_twoViews {p : ℝ} : ∀ v ∈ twoViews, FirstIsBest blueDecider p v := by
  refine List.forall_mem_cons.2 ⟨?_, List.forall_mem_singleton.2 ?_⟩ <;> intro first hfirst best hbest <;>
    cases hfirst <;> cases hbest <;> exact ⟨modEq_rfl, modEq_rfl⟩

theorem direction_of_front_iff_twoViews :
    ((∀ v ∈ twoViews, CarriesFront blueDecider id v) ∧
      ∀ queue, blueDecider.Sorts (twoViews.filterMap blueDecider.parallelInfer) queue → Steers blueDecider id twoViews queue) ∧
    ((∀ v ∈ twoViews, CarriesFront blueDecider (limitRad Dual.realLibm) v) ∧
      ∀ queue, DualCameras.Queued blueDecider (twoViews.filterMap (DualCameras.detect Dual.realLibm blueDecider)) queue →
        Steers blueDecider (limitRad Dual.realLibm) twoViews queue) :=
  have h := direction_of_front_iff Dual.realLibm Real.pi_pos blueDecider twoViews
  ⟨h.1.2 firstIsBest_twoViews, h.2.2 firstIsBest_twoViews⟩

/-- **With an own armor first in the list the camera's direction is that armor's.** -/
theorem own_armor_gives_direction :
    ¬ CarriesFront blueDecider id ⟨"left", [armorAcross .red 0.25, armorAcross .blue 0.75], 0⟩ := by
  intro hcarries
  have hturn : ∀ a b : ℝ, id a = id b ↔ a ≡ b [PMOD 0] := fun a b => modEq_zero.symm
  have h := (carriesFront_iff hturn _).1 hcarries
  have hfov : (blueDecider.fov "left").1 = 64.0 := by
    unfold Decider.fov
    rw [if_neg (by decide)]
    rfl
  have hbest : armorAcross .blue 0.75 ∈ blueDecider.best [armorAcross .red 0.25, armorAcross .blue 0.75] := rfl
  have hyaw := (h _ rfl _ hbest).1
  rw [modEq_zero, hfov] at hyaw
  norm_num [armorAcross] at hyaw

end Vision
end LfSentry
