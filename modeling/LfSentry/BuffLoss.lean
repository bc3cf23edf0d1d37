import LfSentry.BuffTarget
import LfSentry.RestingTarget
import LfSentry.Runs
/-!
# BuffLoss — when a rune's filter is dropped (`sp_vision_25/tasks/auto_buff/buff_target.cpp`)

`get_target` counts the frames without a rune in a `static` variable, one for each class: its targets share it, and only a
drop sets it back.  So the misses of all of them add up, and the frames with a rune in between do not count
(`get_target_loss_iff`).
-/
namespace LfSentry
namespace Vision

/-- The `static` variables of a `get_target`. -/
structure Statics where
  lostCn : Int
  startTimestamp : Option Int
  deriving DecidableEq

/-- A class of targets: what its `get_target` reads and writes, and how the count of the misses moves. -/
structure TargetClass (K T : Type) where
  statics : T → Statics
  share : T → Statics → T
  unsolvable : T → Bool
  enter : T → Option (PowerRune K) → Int → T × Option (K × PowerRune K)
  getTarget : T → Option (PowerRune K) → Int → T
  statics_share : ∀ t c, statics (share t c) = c
  miss : ∀ t timestamp, (statics (getTarget t none timestamp)).lostCn = (statics t).lostCn + 1
  lost : ∀ t p timestamp, (statics t).lostCn > 6 →
    (enter t (some p) timestamp).2 = none ∧ (statics (getTarget t (some p) timestamp)).lostCn = 0
  kept : ∀ t p timestamp, ¬ (statics t).lostCn > 6 →
    (enter t (some p) timestamp).2.isSome = true ∧
      (statics (getTarget t (some p) timestamp)).lostCn = (statics t).lostCn

section Classes

variable {K : Type} {n : Nat} [Field K] [LinearOrder K] [FloorRing K] (num : Numerics K)
  (inverse : ∀ {k : Nat}, Matrix (Fin k) (Fin k) K → Matrix (Fin k) (Fin k) K)

def BuffTarget.statics {K : Type} (target : BuffTarget K n) : Statics := ⟨target.lostCn, target.startTimestamp⟩

def BuffTarget.share {K : Type} (target : BuffTarget K n) (c : Statics) : BuffTarget K n :=
  { target with lostCn := c.lostCn, startTimestamp := c.startTimestamp }

theorem SmallTarget.started_lostCn (target : SmallTarget K) (nowtime : K) (p : PowerRune K) :
    (target.started num nowtime p).lostCn = target.lostCn := by
  unfold SmallTarget.started
  split <;> rfl

theorem BigTarget.started_lostCn (target : BigTarget K) (nowtime : K) (p : PowerRune K) :
    (target.started num nowtime p).lostCn = target.lostCn := by
  unfold BigTarget.started
  split <;> rfl

theorem SmallTarget.getTarget_lost {target : SmallTarget K} (h : target.lostCn > 6) (p : PowerRune K) (timestamp : Int) :
    (target.enter num (some p) timestamp).2 = none ∧ (target.getTarget num inverse (some p) timestamp).lostCn = 0 := by
  unfold SmallTarget.getTarget SmallTarget.enter
  dsimp only
  rw [if_pos (by rw [SmallTarget.started_lostCn]; exact h)]
  exact ⟨rfl, rfl⟩

theorem SmallTarget.getTarget_kept {target : SmallTarget K} (h : ¬ target.lostCn > 6) (p : PowerRune K) (timestamp : Int) :
    (target.enter num (some p) timestamp).2.isSome = true ∧
      (target.getTarget num inverse (some p) timestamp).lostCn = target.lostCn := by
  unfold SmallTarget.getTarget SmallTarget.enter
  dsimp only
  rw [if_neg (by rw [SmallTarget.started_lostCn]; exact h)]
  refine ⟨rfl, ?_⟩
  dsimp only
  split <;> exact SmallTarget.started_lostCn num _ _ p

theorem BigTarget.getTarget_lost {target : BigTarget K} (h : target.lostCn > 6) (p : PowerRune K) (timestamp : Int) :
    (target.enter num (some p) timestamp).2 = none ∧ (target.getTarget num inverse (some p) timestamp).lostCn = 0 := by
  unfold BigTarget.getTarget BigTarget.enter
  dsimp only
  rw [if_pos (by rw [BigTarget.started_lostCn]; exact h)]
  exact ⟨rfl, rfl⟩

theorem BigTarget.getTarget_kept {target : BigTarget K} (h : ¬ target.lostCn > 6) (p : PowerRune K) (timestamp : Int) :
    (target.enter num (some p) timestamp).2.isSome = true ∧
      (target.getTarget num inverse (some p) timestamp).lostCn = target.lostCn := by
  unfold BigTarget.getTarget BigTarget.enter
  dsimp only
  rw [if_neg (by rw [BigTarget.started_lostCn]; exact h)]
  refine ⟨rfl, ?_⟩
  dsimp only
  split <;> exact BigTarget.started_lostCn num _ _ p

/-- `SmallTarget`, with its `static` variables. -/
def smallClass : TargetClass K (SmallTarget K) where
  statics target := target.statics
  share target c := { target with toBuffTarget := target.share c }
  unsolvable target := target.unsolvable
  enter target := target.enter num
  getTarget target := target.getTarget num inverse
  statics_share _ _ := rfl
  miss _ _ := rfl
  lost _ p timestamp h := SmallTarget.getTarget_lost num inverse h p timestamp
  kept _ p timestamp h := SmallTarget.getTarget_kept num inverse h p timestamp

/-- `BigTarget`, with its `static` variables. -/
def bigClass : TargetClass K (BigTarget K) where
  statics target := target.statics
  share target c := { target with toBuffTarget := target.share c }
  unsolvable target := target.unsolvable
  enter target := target.enter num
  getTarget target := target.getTarget num inverse
  statics_share _ _ := rfl
  miss _ _ := rfl
  lost _ p timestamp h := BigTarget.getTarget_lost num inverse h p timestamp
  kept _ p timestamp h := BigTarget.getTarget_kept num inverse h p timestamp

end Classes

/-! ## The targets of a class -/

/-- A call of `get_target`: on which target, and with what. -/
structure RuneFrame (K I : Type) where
  target : I
  rune : Option (PowerRune K)
  timestamp : Int

/-- The targets of a class, and the `static` variables that they share. -/
structure Family (I T : Type) where
  statics : Statics
  targets : I → T

namespace TargetClass

variable {K T I : Type} [DecidableEq I] (c : TargetClass K T)

/-- The target that is called, as it finds the `static` variables. -/
def calledOn (s : Family I T) (i : RuneFrame K I) : T := c.share (s.targets i.target) s.statics

def after (s : Family I T) (i : RuneFrame K I) : T := c.getTarget (c.calledOn s i) i.rune i.timestamp

def call (s : Family I T) (i : RuneFrame K I) : Family I T :=
  ⟨c.statics (c.after s i), Function.update s.targets i.target (c.after s i)⟩

def machine (I : Type) [DecidableEq I] : Machine (Family I T) (RuneFrame K I) Unit := ⟨fun s i => some (c.call s i, [])⟩

/-! ## Loss -/

/-- The call has a rune and drops the filter all the same, for the frames that had none. -/
def Drops (s : Family I T) (i : RuneFrame K I) : Prop :=
  i.rune.isSome = true ∧ (c.enter (c.calledOn s i) i.rune i.timestamp).2 = none

/-- For each target the frames without a rune since its last one. -/
def noteStreak (streak : I → Nat) (i : RuneFrame K I) : I → Nat :=
  Function.update streak i.target (if i.rune.isSome then 0 else streak i.target + 1)

/-- The class with what its targets have missed in a row. -/
def watched (I : Type) [DecidableEq I] : Machine (Family I T × (I → Nat)) (RuneFrame K I) Unit :=
  (c.machine I).ghost fun streak _ i _ => noteStreak streak i

/-- A filter is dropped after more than six frames in a row without a rune only. -/
def LossLaw (p : Family I T × (I → Nat)) (i : RuneFrame K I) : Prop := c.Drops p.1 i → p.2 i.target > 6

end TargetClass

section Loss

open TargetClass

variable {K T I : Type} [DecidableEq I]

/-- The condition, of the frames alone.  `missed` frames of the class have been without a rune since its last drop, and
`streak` of each target since its last rune: a frame with a rune that comes when the class has missed more than six is of a
target that has missed more than six in a row. -/
def LossFree (missed : Nat) (streak : I → Nat) : List (RuneFrame K I) → Prop
  | [] => True
  | i :: is =>
    if i.rune.isSome then
      (missed > 6 → streak i.target > 6) ∧ LossFree (if missed > 6 then 0 else missed) (noteStreak streak i) is
    else LossFree (missed + 1) (noteStreak streak i) is

omit [DecidableEq I] in
theorem drops_iff (c : TargetClass K T) (s : Family I T) (i : RuneFrame K I) :
    c.Drops s i ↔ i.rune.isSome = true ∧ s.statics.lostCn > 6 := by
  have hstatics : c.statics (c.calledOn s i) = s.statics := c.statics_share _ _
  unfold Drops
  refine and_congr_right fun hrune => ?_
  obtain ⟨p, hp⟩ := Option.isSome_iff_exists.1 hrune
  rw [hp]
  constructor
  · intro hnone
    by_contra hkept
    rw [← hstatics] at hkept
    have hsome := (c.kept _ p i.timestamp hkept).1
    rw [hnone] at hsome
    cases hsome
  · intro hlost
    rw [← hstatics] at hlost
    exact (c.lost _ p i.timestamp hlost).1

/-- The count of the class, after a call. -/
theorem lostCn_call (c : TargetClass K T) (s : Family I T) (i : RuneFrame K I) :
    (c.call s i).statics.lostCn =
      if i.rune.isSome then if s.statics.lostCn > 6 then 0 else s.statics.lostCn else s.statics.lostCn + 1 := by
  have hstatics : c.statics (c.calledOn s i) = s.statics := c.statics_share _ _
  have hmiss := c.miss (c.calledOn s i) i.timestamp
  have hlost := fun p => c.lost (c.calledOn s i) p i.timestamp
  have hkept := fun p => c.kept (c.calledOn s i) p i.timestamp
  rw [hstatics] at hmiss hlost hkept
  unfold TargetClass.call TargetClass.after
  cases hrune : i.rune with
  | none => exact hmiss
  | some p =>
    by_cases hcount : s.statics.lostCn > 6
    · simp only [Option.isSome_some, if_true, if_pos hcount]
      exact (hlost p hcount).2
    · simp only [Option.isSome_some, if_true, if_neg hcount]
      exact (hkept p hcount).2

/-- **The misses of a class are dropped with the filter only**: the law holds along a run iff its frames are free of losses
by misses that were not in a row. -/
theorem along_lossLaw_iff (c : TargetClass K T) (frames : List (RuneFrame K I)) {s : Family I T} (missed : Nat)
    (hcount : s.statics.lostCn = missed) (streak : I → Nat) :
    (c.watched I).Along c.LossLaw (s, streak) frames ↔ LossFree missed streak frames := by
  induction frames generalizing s missed streak with
  | nil => exact Iff.rfl
  | cons i is ih =>
    have hstep : (c.watched I).step (s, streak) i = some ((c.call s i, noteStreak streak i), []) := rfl
    have hcall := lostCn_call c s i
    rw [Machine.along_cons_of_step hstep, LossLaw, drops_iff, LossFree]
    rw [hcount] at hcall ⊢
    cases hrune : i.rune with
    | none =>
      simp only [hrune, Option.isSome_none, Bool.false_eq_true, if_false, false_and, false_imp_iff, true_and] at hcall ⊢
      exact ih _ (by rw [hcall]; push_cast; rfl) _
    | some p =>
      simp only [hrune, Option.isSome_some, if_true, true_and] at hcall ⊢
      refine and_congr ?_ (ih _ ?_ _)
      · exact imp_congr_left (by omega)
      · rw [hcall]
        split_ifs <;> omega

end Loss

section BothClasses

open TargetClass

variable {K I : Type} [DecidableEq I] [Field K] [LinearOrder K] [FloorRing K] (num : Numerics K)
  (inverse : ∀ {k : Nat}, Matrix (Fin k) (Fin k) K → Matrix (Fin k) (Fin k) K)

/-- **When filters are dropped for loss as they should be**, for every run of the targets of either class. -/
theorem get_target_loss_iff (small : I → SmallTarget K) (big : I → BigTarget K) (frames : List (RuneFrame K I)) :
    (((smallClass num inverse).watched I).Along (smallClass num inverse).LossLaw (⟨⟨0, none⟩, small⟩, fun _ => 0)
      frames ↔ LossFree 0 (fun _ => 0) frames) ∧
    (((bigClass num inverse).watched I).Along (bigClass num inverse).LossLaw (⟨⟨0, none⟩, big⟩, fun _ => 0) frames ↔
      LossFree 0 (fun _ => 0) frames) :=
  ⟨along_lossLaw_iff _ frames 0 rfl _, along_lossLaw_iff _ frames 0 rfl _⟩

end BothClasses

/-- A frame without a rune and a frame with one, seven times. -/
noncomputable def blinking : List (RuneFrame ℝ Unit) :=
  (List.replicate 7 [⟨(), none, 0⟩, ⟨(), some ⟨![0, 0, 1], ![0, 0, 0], ![0, 0, 1]⟩, 0⟩]).flatten

/-- **Single misses add up**: the seventh frame with a rune is dropped after a single frame without one. -/
theorem blinking_drops : ¬ ((smallClass realNumerics fun M => M⁻¹).watched Unit).Along
    (smallClass realNumerics fun M => M⁻¹).LossLaw (⟨⟨0, none⟩, fun _ => ⟨BuffTarget.fresh⟩⟩, fun _ => 0)
      blinking := by
  rw [along_lossLaw_iff _ blinking 0 rfl]
  simp [blinking, LossFree, TargetClass.noteStreak, List.replicate]

end Vision
end LfSentry
