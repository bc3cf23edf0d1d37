import LfSentry.BehaviorTree
/-!
# HpDecreased — has the robot been hit (`plugins/condition/is_hp_decreased.cpp`)

The node keeps the health readings of the last seconds in a queue that it prunes at its front, and for a while after a
drop it answers SUCCESS without looking.  What it answers is what the whole past says: no reading that counts is ever pruned
(`hpDecreased_tick`).
-/
namespace LfSentry
namespace Behavior

open Vision (toInt deltaTime)

/-! ## Lists in order -/

section Lists

variable {α : Type}

/-- **Where what is behind an old one is not older, dropping the old ones at the front drops all of them.** -/
theorem mem_dropWhile_iff {old : α → Bool} : ∀ {l : List α}, l.Pairwise (fun a b => old b = true → old a = true) →
    ∀ x, x ∈ l.dropWhile old ↔ x ∈ l ∧ old x = false
  | [], _, x => by simp
  | a :: l, h, x => by
    obtain ⟨ha, hl⟩ := List.pairwise_cons.1 h
    by_cases hold : old a = true
    · rw [List.dropWhile_cons_of_pos hold, mem_dropWhile_iff hl, List.mem_cons]
      refine and_congr_left fun hx => (or_iff_right ?_).symm
      rintro rfl
      rw [hold] at hx
      cases hx
    · rw [List.dropWhile_cons_of_neg hold]
      refine (and_iff_left_of_imp fun hx => ?_).symm
      rcases List.mem_cons.1 hx with rfl | hx
      · exact Bool.not_eq_true _ ▸ hold
      · by_contra hc
        exact hold (ha x hx (Bool.not_eq_false _ ▸ hc))

/-- The loop that keeps the greatest value. -/
theorem lt_foldl_greatest {value : α → Int} {y : Int} : ∀ {l : List α} {m : Int},
    y < l.foldl (fun m a => if value a > m then value a else m) m ↔ y < m ∨ ∃ a ∈ l, y < value a
  | [], m => by simp
  | a :: l, m => by
    rw [List.foldl_cons, lt_foldl_greatest]
    simp only [List.exists_mem_cons_iff, ← or_assoc]
    apply or_congr_left
    by_cases h : value a > m
    · rw [if_pos h]
      constructor
      · exact Or.inr
      · rintro (hm | ha)
        · exact hm.trans h
        · exact ha
    · rw [if_neg h]
      constructor
      · exact Or.inl
      · rintro (hm | ha)
        · exact hm
        · exact ha.trans_le (not_lt.1 h)

end Lists

namespace HpDecreased

variable {K : Type} [Field K] [LinearOrder K] [FloorRing K]

/-! ## The node -/

structure Ports (K : Type) where
  windowS : K
  dropThreshold : Int
  holdS : K

end HpDecreased

/-- `hp_history_`, of times and health, and `hold_until_`. -/
structure HpDecreased where
  hpHistory : List (Int × Int)
  holdUntil : Option Int

namespace HpDecreased

variable {K : Type} [Field K] [LinearOrder K] [FloorRing K]

def fresh : HpDecreased := ⟨[], none⟩

/-- A tick's reading of the clock and of the port; there may be no robot status. -/
structure Reading where
  now : Int
  currentHp : Option UInt16

/-- `rclcpp::Duration::from_seconds(hold_s)` -/
def Ports.hold (ports : Ports K) : Int := toInt (ports.holdS * 1e9)

def Ports.expired (ports : Ports K) (now : Int) (item : Int × Int) : Bool :=
  !decide (deltaTime now item.1 ≤ ports.windowS)

/-- The tick after the hold. -/
def look (ports : Ports K) (node : HpDecreased) (now currentHp : Int) : HpDecreased × NodeStatus :=
  let hpHistory := (node.hpHistory ++ [(now, currentHp)]).dropWhile (ports.expired now)
  if hpHistory.isEmpty then (⟨hpHistory, none⟩, .failure)
  else
    let maxHpInWindow := hpHistory.foldl (fun m item => if item.2 > m then item.2 else m) currentHp
    if maxHpInWindow - currentHp > ports.dropThreshold then (⟨hpHistory, some (now + ports.hold)⟩, .success)
    else (⟨hpHistory, none⟩, .failure)

/-- Without a robot status the tick throws. -/
def tick (ports : Ports K) (node : HpDecreased) (r : Reading) : Except String (HpDecreased × NodeStatus) :=
  match r.currentHp with
  | none => .error "IsHpDecreased: missing required input [key_port]: "
  | some hp =>
    if node.holdUntil.any (fun until_ => decide (r.now < until_)) then .ok (node, .success)
    else .ok (node.look ports r.now hp.toNat)

/-- The node after some ticks; one that throws leaves it as it was. -/
def after (ports : Ports K) (node : HpDecreased) (readings : List Reading) : HpDecreased :=
  readings.foldl (fun node r => match node.tick ports r with | .ok p => p.1 | .error _ => node) node

/-! ## What the past says -/

/-- The health readings of the ticks outside a hold, and the times of the detections. -/
structure Past where
  recorded : List (Int × Int)
  detections : List Int

def Past.none : Past := ⟨[], []⟩

/-- Within the hold time of an earlier detection. -/
def Past.Held (past : Past) (ports : Ports K) (now : Int) : Prop := ∃ d ∈ past.detections, now < d + ports.hold

/-- A reading that is not older than the window exceeds the health by more than the threshold. -/
def Past.Dropped (past : Past) (ports : Ports K) (now currentHp : Int) : Prop :=
  ∃ item ∈ past.recorded, deltaTime now item.1 ≤ ports.windowS ∧ item.2 - currentHp > ports.dropThreshold

instance (past : Past) (ports : Ports K) (now : Int) : Decidable (past.Held ports now) :=
  inferInstanceAs (Decidable (∃ d ∈ past.detections, _))

instance (past : Past) (ports : Ports K) (now currentHp : Int) : Decidable (past.Dropped ports now currentHp) :=
  inferInstanceAs (Decidable (∃ item ∈ past.recorded, _))

/-- Nothing is ever forgotten. -/
def Past.next (ports : Ports K) (past : Past) (r : Reading) : Past :=
  match r.currentHp with
  | Option.none => past
  | some hp =>
    if past.Held ports r.now then past
    else ⟨(r.now, hp.toNat) :: past.recorded,
      if past.Dropped ports r.now hp.toNat then r.now :: past.detections else past.detections⟩

def pastOf (ports : Ports K) (readings : List Reading) : Past := readings.foldl (Past.next ports) Past.none

/-! ## The queue and the past -/

/-- The queue has what the past has in the window, and the hold is that of the past, from a time on. -/
structure Agrees (ports : Ports K) (last : Int) (node : HpDecreased) (past : Past) : Prop where
  recorded : ∀ item ∈ node.hpHistory, item ∈ past.recorded
  kept : ∀ item ∈ past.recorded, deltaTime last item.1 ≤ ports.windowS → item ∈ node.hpHistory
  sorted : node.hpHistory.Pairwise fun a b => a.1 ≤ b.1
  before : ∀ item ∈ past.recorded, item.1 ≤ last
  hold : ∀ now, last ≤ now → (past.Held ports now ↔ ∃ u ∈ node.holdUntil, now < u)

theorem agrees_fresh (ports : Ports K) (last : Int) : Agrees ports last fresh Past.none where
  recorded item h := by cases h
  kept item h := by cases h
  sorted := List.Pairwise.nil
  before item h := by cases h
  hold now _ := by simp [Past.Held, Past.none, fresh]

section Ticks

variable [IsStrictOrderedRing K] {ports : Ports K} {last now : Int} {node : HpDecreased} {past : Past} {hp : Int}

omit [FloorRing K] in
theorem deltaTime_mono {s t u : Int} (h : s ≤ t) : (deltaTime s u : K) ≤ deltaTime t u := by
  have hcast : ((s - u : Int) : K) ≤ ((t - u : Int) : K) := by exact_mod_cast sub_le_sub_right h u
  exact div_le_div_of_nonneg_right hcast (by positivity)

/-- **Pruning leaves exactly what is in the window.** -/
theorem mem_pruned_iff (hp : Int) (hA : Agrees ports last node past) (hle : last ≤ now) (item : Int × Int) :
    item ∈ (node.hpHistory ++ [(now, hp)]).dropWhile (ports.expired now) ↔
      (item ∈ past.recorded ∨ item = (now, hp)) ∧ deltaTime now item.1 ≤ ports.windowS := by
  have hsorted : (node.hpHistory ++ [(now, hp)]).Pairwise fun a b => a.1 ≤ b.1 := by
    rw [List.pairwise_append]
    refine ⟨hA.sorted, List.pairwise_singleton _ _, fun a ha b hb => ?_⟩
    rw [List.mem_singleton.1 hb]
    exact (hA.before a (hA.recorded a ha)).trans hle
  have hold : (node.hpHistory ++ [(now, hp)]).Pairwise
      fun a b => ports.expired now b = true → ports.expired now a = true := by
    refine hsorted.imp fun hab hb => ?_
    simp only [Ports.expired, Bool.not_eq_true', decide_eq_false_iff_not, not_le] at hb ⊢
    exact hb.trans_le (deltaTime_anti hab)
  rw [mem_dropWhile_iff hold, List.mem_append, List.mem_singleton]
  simp only [Ports.expired, Bool.not_eq_false', decide_eq_true_eq]
  refine and_congr_left fun hage => or_congr_left ⟨hA.recorded item, fun hrec => ?_⟩
  exact hA.kept item hrec ((deltaTime_mono hle).trans hage)

/-- **What the tick finds in the queue is what there is in the past.** -/
theorem look_success_iff (hthreshold : 0 ≤ ports.dropThreshold) (hA : Agrees ports last node past) (hle : last ≤ now) :
    (node.look ports now hp).2 = .success ↔ past.Dropped ports now hp := by
  have hmem := mem_pruned_iff hp hA hle
  have hdrop : past.Dropped ports now hp ↔
      ∃ item ∈ (node.hpHistory ++ [(now, hp)]).dropWhile (ports.expired now), hp + ports.dropThreshold < item.2 := by
    constructor
    · rintro ⟨item, hitem, hage, hgt⟩
      exact ⟨item, (hmem item).2 ⟨Or.inl hitem, hage⟩, by omega⟩
    · rintro ⟨item, hitem, hgt⟩
      obtain ⟨hrec | rfl, hage⟩ := (hmem item).1 hitem
      · exact ⟨item, hrec, hage, by omega⟩
      · dsimp only at hgt
        omega
  rw [hdrop]
  unfold look
  dsimp only
  generalize (node.hpHistory ++ [(now, hp)]).dropWhile (ports.expired now) = pruned
  by_cases hempty : pruned.isEmpty = true
  · rw [if_pos hempty, List.isEmpty_iff.1 hempty]
    simp
  · rw [if_neg hempty]
    have hgreatest : pruned.foldl (fun m item => if item.2 > m then item.2 else m) hp - hp > ports.dropThreshold ↔
        ∃ item ∈ pruned, hp + ports.dropThreshold < item.2 := by
      rw [gt_iff_lt, lt_sub_iff_add_lt', lt_foldl_greatest]
      apply or_iff_right
      omega
    by_cases hhit : pruned.foldl (fun m item => if item.2 > m then item.2 else m) hp - hp > ports.dropThreshold
    · rw [if_pos hhit]
      exact iff_of_true rfl (hgreatest.1 hhit)
    · rw [if_neg hhit]
      exact iff_of_false (by simp) fun h => hhit (hgreatest.2 h)

omit [IsStrictOrderedRing K] in
/-- What the queue and the hold are after a look. -/
theorem look_fst (node : HpDecreased) (now hp : Int) : (node.look ports now hp).1 =
    ⟨(node.hpHistory ++ [(now, hp)]).dropWhile (ports.expired now),
      if (node.look ports now hp).2 = .success then some (now + ports.hold) else none⟩ := by
  unfold look
  dsimp only
  generalize (node.hpHistory ++ [(now, hp)]).dropWhile (ports.expired now) = pruned
  by_cases hempty : pruned.isEmpty = true
  · simp [hempty]
  · by_cases hhit : pruned.foldl (fun m item => if item.2 > m then item.2 else m) hp - hp > ports.dropThreshold
    · simp [hempty, hhit]
    · simp [hempty, hhit]

theorem agrees_look (hthreshold : 0 ≤ ports.dropThreshold) (hA : Agrees ports last node past) (hle : last ≤ now)
    (hheld : ¬ past.Held ports now) :
    Agrees ports now (node.look ports now hp).1
      ⟨(now, hp) :: past.recorded, if past.Dropped ports now hp then now :: past.detections else past.detections⟩ := by
  have hmem := mem_pruned_iff hp hA hle
  rw [look_fst]
  refine ⟨fun item hitem => ?_, fun item hitem hage => ?_, ?_, fun item hitem => ?_, fun t ht => ?_⟩
  · rw [List.mem_cons]
    exact ((hmem item).1 hitem).1.symm
  · exact (hmem item).2 ⟨(List.mem_cons.1 hitem).symm, hage⟩
  · refine List.Pairwise.sublist (List.dropWhile_sublist _) ?_
    rw [List.pairwise_append]
    refine ⟨hA.sorted, List.pairwise_singleton _ _, fun a ha b hb => ?_⟩
    rw [List.mem_singleton.1 hb]
    exact (hA.before a (hA.recorded a ha)).trans hle
  · rcases List.mem_cons.1 hitem with rfl | hitem
    · exact le_rfl
    · exact (hA.before item hitem).trans hle
  · -- no detection so far holds any more
    have hover : ∀ d ∈ past.detections, ¬ t < d + ports.hold := by
      intro d hd hlt
      exact hheld ⟨d, hd, lt_of_le_of_lt ht hlt⟩
    by_cases hdrop : past.Dropped ports now hp
    · rw [if_pos hdrop, if_pos ((look_success_iff hthreshold hA hle).2 hdrop)]
      simp only [Past.Held, List.mem_cons, Option.mem_some_iff, exists_eq_left', exists_eq_or_imp, or_iff_left_iff_imp]
      rintro ⟨d, hd, hlt⟩
      exact absurd hlt (hover d hd)
    · rw [if_neg hdrop, if_neg fun h => hdrop ((look_success_iff hthreshold hA hle).1 h)]
      refine iff_of_false ?_ (by simp)
      rintro ⟨d, hd, hlt⟩
      exact hover d hd hlt

omit [IsStrictOrderedRing K] in
theorem held_iff (hA : Agrees ports last node past) (hle : last ≤ now) :
    past.Held ports now ↔ node.holdUntil.any (fun until_ => decide (now < until_)) = true := by
  rw [hA.hold now hle, Option.any_eq_true]
  simp

theorem Agrees.later (hA : Agrees ports last node past) (hle : last ≤ now) : Agrees ports now node past where
  recorded := hA.recorded
  kept item hitem hage := hA.kept item hitem ((deltaTime_mono hle).trans hage)
  sorted := hA.sorted
  before item hitem := (hA.before item hitem).trans hle
  hold t ht := hA.hold t (hle.trans ht)

/-- **A tick answers what the past says.** -/
theorem tick_success_iff (hthreshold : 0 ≤ ports.dropThreshold) (hA : Agrees ports last node past) {r : Reading}
    (hle : last ≤ r.now) {currentHp : UInt16} (hr : r.currentHp = some currentHp) :
    (∃ node', node.tick ports r = .ok (node', .success)) ↔
      past.Held ports r.now ∨ past.Dropped ports r.now currentHp.toNat := by
  unfold tick
  rw [hr]
  dsimp only
  by_cases hheld : past.Held ports r.now
  · rw [if_pos ((held_iff hA hle).1 hheld)]
    exact iff_of_true ⟨node, rfl⟩ (Or.inl hheld)
  · rw [if_neg fun h => hheld ((held_iff hA hle).2 h), or_iff_right hheld, ← look_success_iff hthreshold hA hle]
    constructor
    · rintro ⟨node', h⟩
      rw [Except.ok.injEq] at h
      rw [h]
    · intro h
      exact ⟨(node.look ports r.now currentHp.toNat).1, by rw [← h]⟩

theorem agrees_tick (hthreshold : 0 ≤ ports.dropThreshold) (hA : Agrees ports last node past) {r : Reading}
    (hle : last ≤ r.now) : Agrees ports r.now (node.after ports [r]) (past.next ports r) := by
  unfold after Past.next tick
  rw [List.foldl_cons, List.foldl_nil]
  cases r.currentHp with
  | none => exact hA.later hle
  | some currentHp =>
    dsimp only
    by_cases hheld : past.Held ports r.now
    · rw [if_pos hheld, if_pos ((held_iff hA hle).1 hheld)]
      exact hA.later hle
    · rw [if_neg hheld, if_neg fun h => hheld ((held_iff hA hle).2 h)]
      exact agrees_look hthreshold hA hle hheld

/-- **After any ticks in order of time the queue agrees with the past.** -/
theorem agrees_after (hthreshold : 0 ≤ ports.dropThreshold) : ∀ {readings : List Reading} {last : Int} {node : HpDecreased}
    {past : Past}, Agrees ports last node past → (readings.Pairwise fun a b => a.now ≤ b.now) →
      (∀ r ∈ readings, last ≤ r.now) → ∀ now, last ≤ now → (∀ r ∈ readings, r.now ≤ now) →
        Agrees ports now (node.after ports readings) (readings.foldl (Past.next ports) past)
  | [], last, node, past, hA, _, _, now, hle, _ => hA.later hle
  | r :: readings, last, node, past, hA, hsorted, hfrom, now, hle, hto => by
    obtain ⟨hr, hrest⟩ := List.pairwise_cons.1 hsorted
    have hstep := agrees_tick hthreshold hA (hfrom r List.mem_cons_self)
    have hnow := hto r List.mem_cons_self
    exact agrees_after hthreshold hstep hrest hr now hnow fun s hs => hto s (List.mem_cons_of_mem _ hs)

/-- **Every tick answers SUCCESS exactly within the hold of an earlier detection or after a drop in its window.** -/
theorem hpDecreased_tick (ports : Ports K) (hthreshold : 0 ≤ ports.dropThreshold) (before : List Reading) (r : Reading)
    (hsorted : (before ++ [r]).Pairwise fun a b => a.now ≤ b.now) (currentHp : UInt16) (hr : r.currentHp = some currentHp) :
    (∃ node', (fresh.after ports before).tick ports r = .ok (node', .success)) ↔
      (pastOf ports before).Held ports r.now ∨ (pastOf ports before).Dropped ports r.now currentHp.toNat := by
  rw [List.pairwise_append] at hsorted
  obtain ⟨hbefore, -, hlast⟩ := hsorted
  have hto : ∀ s ∈ before, s.now ≤ r.now := fun s hs => hlast s hs r (List.mem_singleton_self r)
  cases before with
  | nil => exact tick_success_iff hthreshold (agrees_fresh ports r.now) le_rfl hr
  | cons first rest =>
    have hfrom : ∀ s ∈ first :: rest, first.now ≤ s.now := by
      intro s hs
      rcases List.mem_cons.1 hs with rfl | hs
      · exact le_rfl
      · exact (List.pairwise_cons.1 hbefore).1 s hs
    have hA := agrees_after hthreshold (agrees_fresh ports first.now) hbefore hfrom r.now (hto first List.mem_cons_self) hto
    exact tick_success_iff hthreshold hA le_rfl hr

end Ticks

/-- A hundred points at the start and fifty a second later. -/
theorem hpDecreased_tick_hit :
    ∃ node', (fresh.after (⟨3.0, 40, 10.0⟩ : Ports ℚ) [⟨0, some 100⟩]).tick (⟨3.0, 40, 10.0⟩ : Ports ℚ) ⟨1000000000, some 50⟩ =
      .ok (node', .success) := by
  refine (hpDecreased_tick (⟨3.0, 40, 10.0⟩ : Ports ℚ) (by decide) [⟨0, some 100⟩] ⟨1000000000, some 50⟩ (by decide) 50 rfl).2
    (Or.inr ⟨(0, 100), ?_, ?_, ?_⟩)
  · decide +kernel
  · norm_num [deltaTime]
  · decide

end HpDecreased

end Behavior
end LfSentry
