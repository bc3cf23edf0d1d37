import Mathlib.Analysis.Real.Pi.Bounds
import LfSentry.DualArbiter
import LfSentry.TrackedTarget
/-!
# ChooseArmor — the armor aimed at on a target that turns slowly (`sp_vision_25/tasks/auto_aim/aimer.cpp`)

Below the spin threshold `choose_aim_point` aims at an armor within 50 degrees of the line to the centre, or calls it
impossible that there is none.  With four armors it is (`exists_within_of_four`); with two or three it is not, and there is
an aim point iff one of the armors, wherever the turns of the target have taken it, is that close
(`choose_aim_point_low_speed_iff`).  Its lists are read within their bounds in any case (`chooseAimPointAt_eq`).
-/
namespace LfSentry
namespace Vision

open LfSentry.Vision.Dual (realLibm)

/-! ## The same function with its reads checked -/

section Reads

variable {K : Type} [Field K] [LinearOrder K] [FloorRing K] (lib : Libm K)

/-- `l[i]`; `none` is a read out of bounds. -/
def readAt {α : Type} (l : List α) (i : Int) : Option α := if 0 ≤ i then l[i.toNat]? else none

def Aimer.selectAt (a : Aimer K) (deltaAngle : List K) (xyza : List (Xyza K)) (i : Int) :
    Option (Aimer K × AimPoint K) := do
  let delta ← readAt deltaAngle i
  let armor ← readAt xyza i
  pure ({ a with debugSelectedDeltaAngle := delta, debugSelectedArmorId := i }, ⟨true, armor⟩)

def Aimer.relockAt (a : Aimer K) (deltaAngle : List K) (id0 id1 : Nat) : Option Int :=
  if a.lockId ≠ id0 ∧ a.lockId ≠ id1 then do
    let delta0 ← readAt deltaAngle id0
    let delta1 ← readAt deltaAngle id1
    pure (if |delta0| < |delta1| then id0 else id1)
  else do
    let otherId : Int := if a.lockId = id0 then id1 else id0
    let locked ← readAt deltaAngle a.lockId
    let other ← readAt deltaAngle otherId
    pure (if |other| + 8.0 / 57.3 < |locked| then otherId else a.lockId)

/-- `Aimer::choose_aim_point`; `none` is a read out of bounds. -/
def Aimer.chooseAimPointAt (a : Aimer K) (target : Target K) : Option (Aimer K × AimPoint K) := do
  let xyza := target.armorXyzaList lib
  let centerYaw := lib.atan2 (target.x 2) (target.x 0)
  let deltaAngle := xyza.map fun armor => limitRad lib (armor.angle - centerYaw)
  let a := { a with debugSelectedDeltaAngle := 999.0, debugSelectedArmorId := -1 }
  if target.jumped = false then a.selectAt deltaAngle xyza 0
  else if |target.x 7| < 7.0 ∧ target.name ≠ .outpost then
    let idList ← (List.range target.armorNum).filterM fun i : Nat =>
      (readAt deltaAngle i).map fun delta => !decide (|delta| > 50.0 / 57.3)
    match idList with
    | [] => (readAt xyza 0).map fun armor => (a, ⟨false, armor⟩)
    | [id0] => Aimer.selectAt { a with lockId := -1 } deltaAngle xyza id0
    | id0 :: id1 :: _ =>
      let lockId ← a.relockAt deltaAngle id0 id1
      Aimer.selectAt { a with lockId := lockId } deltaAngle xyza lockId
  else
    let comingAngle := if target.name = .outpost then 70.0 / 57.3 else a.commingAngle
    let leavingAngle := if target.name = .outpost then 30.0 / 57.3 else a.leavingAngle
    let found ← (List.range target.armorNum).findM? fun i : Nat =>
      (readAt deltaAngle i).map fun delta => !decide (|delta| > comingAngle) &&
        (decide (target.x 7 > 0) && decide (delta < leavingAngle) ||
          decide (target.x 7 < 0) && decide (delta > -leavingAngle))
    match found with
    | some i => a.selectAt deltaAngle xyza i
    | none => (readAt xyza 0).map fun armor => (a, ⟨false, armor⟩)

theorem readAt_eq_getD {α : Type} {l : List α} {i : Nat} (h : i < l.length) (d : α) :
    readAt l i = some (l.getD i d) := by
  simp [readAt, h]

/-- A filter whose reads all succeed. -/
theorem filterM_some {α : Type} {p : α → Option Bool} {q : α → Bool} {l : List α} (h : ∀ a ∈ l, p a = some (q a)) :
    l.filterM p = some (l.filter q) := by
  have haux : ∀ (l : List α), (∀ a ∈ l, p a = some (q a)) → ∀ acc,
      l.filterAuxM p acc = some ((l.filter q).reverse ++ acc) := by
    intro l h
    induction l with
    | nil => exact fun acc => rfl
    | cons a l ih =>
      intro acc
      rw [List.forall_mem_cons] at h
      simp only [List.filterAuxM, h.1, Option.bind_eq_bind, Option.bind_some]
      rw [ih h.2]
      cases hq : q a <;> simp [hq]
  simp [List.filterM, haux l h]

theorem findM?_some {α : Type} {p : α → Option Bool} {q : α → Bool} {l : List α} (h : ∀ a ∈ l, p a = some (q a)) :
    l.findM? p = some (l.find? q) := by
  induction l with
  | nil => rfl
  | cons a l ih =>
    rw [List.forall_mem_cons] at h
    simp only [List.findM?, h.1, Option.bind_eq_bind, Option.bind_some]
    rw [ih h.2]
    cases hq : q a <;> simp [hq]

variable {a : Aimer K} {deltaAngle : List K} {xyza : List (Xyza K)} {target : Target K} {id0 id1 i : Nat}

omit [LinearOrder K] [FloorRing K] in
theorem selectAt_eq (hdelta : i < deltaAngle.length) (hxyza : i < xyza.length) :
    a.selectAt deltaAngle xyza i = some (a.select deltaAngle xyza i) := by
  rw [Aimer.selectAt, readAt_eq_getD hdelta 0, readAt_eq_getD hxyza ⟨0, 0, 0, 0⟩]
  rfl

omit [FloorRing K] in
/-- The armor that is kept or changed to is one of the two within reach, whatever was locked before. -/
theorem relock_mem : a.relock deltaAngle id0 id1 = id0 ∨ a.relock deltaAngle id0 id1 = id1 := by
  unfold Aimer.relock
  dsimp only
  split
  · split
    · exact .inl rfl
    · exact .inr rfl
  · rename_i hlocked
    rw [not_and_or, not_not, not_not] at hlocked
    by_cases h0 : a.lockId = id0
    · rw [if_pos h0]
      split
      · exact .inr rfl
      · exact .inl h0
    · rw [if_neg h0]
      split
      · exact .inl rfl
      · exact .inr (hlocked.resolve_left h0)

omit [FloorRing K] in
/-- **The saved id is read only where it is one of the two.** -/
theorem relockAt_eq [IsStrictOrderedRing K] (h0 : id0 < deltaAngle.length) (h1 : id1 < deltaAngle.length) :
    a.relockAt deltaAngle id0 id1 = some (a.relock deltaAngle id0 id1) := by
  have h8 : (8.0 / 57.3 : K) = 80 / 573 := by norm_num
  unfold Aimer.relockAt Aimer.relock
  simp only [h8]
  split
  · rw [readAt_eq_getD h0 0, readAt_eq_getD h1 0]
    rfl
  · rename_i hlocked
    rw [not_and_or, not_not, not_not] at hlocked
    by_cases hlock : a.lockId = id0
    · have hother : (if a.lockId = id0 then (id1 : Int) else id0) = id1 := if_pos hlock
      rw [hother, hlock, readAt_eq_getD h0 0, readAt_eq_getD h1 0]
      rfl
    · have hother : (if a.lockId = id0 then (id1 : Int) else id0) = id0 := if_neg hlock
      rw [hother, hlocked.resolve_left hlock, readAt_eq_getD h0 0, readAt_eq_getD h1 0]
      rfl

variable {lib}

/-- How far from the line to the centre an armor faces. -/
def Target.facing (lib : Libm K) (target : Target K) (i : Nat) : K :=
  limitRad lib ((target.armorXyza lib i).angle - lib.atan2 (target.x 2) (target.x 0))

theorem getD_facing (h : i < target.armorNum) :
    ((target.armorXyzaList lib).map fun armor =>
      limitRad lib (armor.angle - lib.atan2 (target.x 2) (target.x 0))).getD i 0 = target.facing lib i := by
  simp [Target.armorXyzaList, Target.facing, h]

theorem length_armorXyzaList : (target.armorXyzaList lib).length = target.armorNum := by
  simp [Target.armorXyzaList]

/-- **No read is out of bounds**, for a target with an armor and any saved id. -/
theorem chooseAimPointAt_eq [IsStrictOrderedRing K] (a : Aimer K) (hnum : 0 < target.armorNum) :
    a.chooseAimPointAt lib target = some (a.chooseAimPoint lib target) := by
  have hlen := @length_armorXyzaList K _ _ _ lib target
  have hdelta : ((target.armorXyzaList lib).map fun armor =>
      limitRad lib (armor.angle - lib.atan2 (target.x 2) (target.x 0))).length = target.armorNum := by
    rw [List.length_map, hlen]
  have h999 : (999.0 : K) = 999 := by norm_num
  have h7 : (7.0 : K) = 7 := by norm_num
  have h50 : (50.0 / 57.3 : K) = 500 / 573 := by norm_num
  have h70 : (70.0 / 57.3 : K) = 700 / 573 := by norm_num
  have h30 : (30.0 / 57.3 : K) = 300 / 573 := by norm_num
  unfold Aimer.chooseAimPointAt Aimer.chooseAimPoint
  simp only [h999, h7, h50, h70, h30]
  generalize ((target.armorXyzaList lib).map fun armor =>
    limitRad lib (armor.angle - lib.atan2 (target.x 2) (target.x 0))) = deltaAngle at hdelta ⊢
  generalize target.armorXyzaList lib = xyza at hlen ⊢
  have hread : ∀ i ∈ List.range target.armorNum, readAt deltaAngle i = some (deltaAngle.getD i 0) :=
    fun i hi => readAt_eq_getD (by rw [hdelta]; exact List.mem_range.1 hi) 0
  have hfirst : readAt xyza 0 = some (armorAt xyza 0) := readAt_eq_getD (i := 0) (by rw [hlen]; exact hnum) _
  split
  · exact selectAt_eq (by rw [hdelta]; exact hnum) (by rw [hlen]; exact hnum)
  · split
    · rw [filterM_some (q := fun i => !decide (|deltaAngle.getD i 0| > 500 / 573))
        (fun i hi => by rw [hread i hi, Option.map_some]), Option.bind_eq_bind, Option.bind_some]
      have hids : ∀ i ∈ (List.range target.armorNum).filter fun i => !decide (|deltaAngle.getD i 0| > 500 / 573),
          i < target.armorNum := fun i hi => List.mem_range.1 (List.mem_of_mem_filter hi)
      generalize (List.range target.armorNum).filter (fun i => !decide (|deltaAngle.getD i 0| > 500 / 573)) = ids
        at hids ⊢
      rcases ids with _ | ⟨id0, _ | ⟨id1, ids⟩⟩
      · simp [hfirst]
      · have h0 := hids id0 (by simp)
        exact selectAt_eq (by rw [hdelta]; exact h0) (by rw [hlen]; exact h0)
      · have h0 := hids id0 (by simp)
        have h1 := hids id1 (by simp)
        dsimp only
        rw [relockAt_eq (by rw [hdelta]; exact h0) (by rw [hdelta]; exact h1), Option.bind_eq_bind, Option.bind_some]
        obtain hlock | hlock := @relock_mem K _ _
          { a with debugSelectedDeltaAngle := 999, debugSelectedArmorId := -1 } deltaAngle id0 id1
        · rw [hlock]
          exact selectAt_eq (by rw [hdelta]; exact h0) (by rw [hlen]; exact h0)
        · rw [hlock]
          exact selectAt_eq (by rw [hdelta]; exact h1) (by rw [hlen]; exact h1)
    · rw [findM?_some (fun i hi => by rw [hread i hi, Option.map_some]), Option.bind_eq_bind, Option.bind_some]
      cases hfound : (List.range target.armorNum).find? _ with
      | none => simp [hfirst]
      | some i =>
        have hi := List.mem_range.1 (List.mem_of_find?_eq_some hfound)
        exact selectAt_eq (by rw [hdelta]; exact hi) (by rw [hlen]; exact hi)

/-! ## The choice -/

variable (lib) in
/-- Below the spin threshold and after a jump the aim is at an armor within reach, if there is one. -/
theorem chooseAimPoint_slow (a : Aimer K) (hjumped : target.jumped = true) (hname : target.name ≠ .outpost)
    (hslow : |target.x 7| < 7) :
    ((∀ i < target.armorNum, ¬ |target.facing lib i| ≤ 500 / 573) ∧
        (a.chooseAimPoint lib target).2.valid = false) ∨
      ∃ i < target.armorNum, |target.facing lib i| ≤ 500 / 573 ∧
        (a.chooseAimPoint lib target).2 = ⟨true, target.armorXyza lib i⟩ := by
  have hmem : ∀ i, i ∈ ((List.range target.armorNum).filter fun i => !decide (|((target.armorXyzaList lib).map
      fun armor => limitRad lib (armor.angle - lib.atan2 (target.x 2) (target.x 0))).getD i 0| > 500 / 573)) ↔
      i < target.armorNum ∧ |target.facing lib i| ≤ 500 / 573 := by
    intro i
    rw [List.mem_filter, List.mem_range]
    refine and_congr_right fun hi => ?_
    rw [getD_facing hi]
    simp
  unfold Aimer.chooseAimPoint
  dsimp only
  rw [if_neg (by rw [hjumped]; exact Bool.noConfusion), if_pos ⟨hslow, hname⟩]
  generalize (List.range target.armorNum).filter _ = ids at hmem ⊢
  rcases ids with _ | ⟨id0, _ | ⟨id1, ids⟩⟩
  · exact .inl ⟨fun i hi hle => List.not_mem_nil ((hmem i).2 ⟨hi, hle⟩), rfl⟩
  · obtain ⟨hlt, hle⟩ := (hmem id0).1 (by simp)
    refine .inr ⟨id0, hlt, hle, ?_⟩
    rw [← armorAt_armorXyzaList lib target hlt]
    rfl
  · have hchosen : ∀ i ∈ [id0, id1], i < target.armorNum ∧ |target.facing lib i| ≤ 500 / 573 :=
      fun i hi => (hmem i).1 (by simp at hi ⊢; tauto)
    dsimp only
    obtain hlock | hlock := @relock_mem K _ _ { a with debugSelectedDeltaAngle := 999, debugSelectedArmorId := -1 }
      ((target.armorXyzaList lib).map fun armor => limitRad lib (armor.angle - lib.atan2 (target.x 2) (target.x 0))) id0 id1
    · obtain ⟨hlt, hle⟩ := hchosen id0 (by simp)
      refine .inr ⟨id0, hlt, hle, ?_⟩
      rw [hlock, ← armorAt_armorXyzaList lib target hlt]
      rfl
    · obtain ⟨hlt, hle⟩ := hchosen id1 (by simp)
      refine .inr ⟨id1, hlt, hle, ?_⟩
      rw [hlock, ← armorAt_armorXyzaList lib target hlt]
      rfl

end Reads

/-! ## Within reach -/

section Reach

variable {K : Type} [Field K] [LinearOrder K] [FloorRing K] [IsStrictOrderedRing K] {lib : Libm K} {target : Target K}

/-- How far the yaw of the target is from the line to its centre. -/
def Target.offLine (lib : Libm K) (target : Target K) : K := target.x 6 - lib.atan2 (target.x 2) (target.x 0)

theorem facing_eq (hpi : 0 < lib.pi) (i : Nat) :
    target.facing lib i = limitRad lib (target.offLine lib + i * (lib.turn / target.armorNum)) := by
  rw [Target.facing, Target.armorXyza, sub_eq_add_neg, limitRad_limitRad_add hpi, Target.offLine, Libm.turn]
  congr 1
  ring

/-- **An armor is within reach iff a place of the armors is**, counted around the target without end. -/
theorem exists_facing_iff (hpi : 0 < lib.pi) (hnum : 0 < target.armorNum) (reach : K) :
    (∃ i < target.armorNum, |target.facing lib i| ≤ reach) ↔
      ∃ m : ℤ, |target.offLine lib + m * (lib.turn / target.armorNum)| ≤ reach := by
  have hcast : (target.armorNum : K) ≠ 0 := Nat.cast_ne_zero.2 hnum.ne'
  constructor
  · rintro ⟨i, -, hle⟩
    rw [facing_eq hpi, limitRad] at hle
    refine ⟨i - target.armorNum *
      ⌈(target.offLine lib + i * (lib.turn / target.armorNum) - lib.pi) / (2 * lib.pi)⌉, ?_⟩
    refine le_of_eq_of_le (congrArg abs ?_) hle
    push_cast
    rw [Libm.turn]
    field_simp
    ring
  · rintro ⟨m, hle⟩
    have hpos : (0 : ℤ) < target.armorNum := by exact_mod_cast hnum
    have hmod := Int.emod_nonneg m hpos.ne'
    have hlt := Int.emod_lt_of_pos m hpos
    refine ⟨(m % target.armorNum).toNat, by omega, ?_⟩
    rw [facing_eq hpi]
    refine (abs_limitRad_le hpi _ (m / target.armorNum)).trans (le_of_eq_of_le (congrArg abs ?_) hle)
    have hcount : (((m % target.armorNum).toNat : Nat) : K) + target.armorNum * ((m / target.armorNum : ℤ) : K) = m := by
      have hnat : (((m % target.armorNum).toNat : Nat) : K) = ((m % target.armorNum : ℤ) : K) := by
        rw [← Int.toNat_of_nonneg hmod, Int.cast_natCast, Int.toNat_natCast]
      rw [hnat]
      exact_mod_cast congrArg (Int.cast (R := K)) (Int.emod_add_mul_ediv m target.armorNum)
    rw [← hcount, Libm.turn]
    field_simp
    ring

/-- **Of four armors one is within reach.** -/
theorem exists_within_of_four (hpi : 0 < lib.pi) (hfour : target.armorNum = 4) {reach : K} (hreach : lib.pi / 4 ≤ reach) :
    ∃ m : ℤ, |target.offLine lib + m * (lib.turn / target.armorNum)| ≤ reach := by
  have hquarter : 0 < lib.turn / target.armorNum := by
    rw [hfour, Libm.turn]
    positivity
  have hround := Turns.abs_sub_round_mul_le hquarter (target.offLine lib)
  refine ⟨-round (target.offLine lib / (lib.turn / target.armorNum)), le_trans ?_ hreach⟩
  rw [Int.cast_neg, neg_mul, ← sub_eq_add_neg]
  refine hround.trans_eq ?_
  rw [hfour, Libm.turn]
  ring

end Reach

/-- What a call of `choose_aim_point` owes: a valid point, at an armor within reach or at armor 0 before the first jump, and
no read out of bounds. -/
structure ArmorChosen (a : Aimer ℝ) (target : Target ℝ) : Prop where
  valid : (a.chooseAimPoint realLibm target).2.valid = true
  armor : ∃ i < target.armorNum, (a.chooseAimPoint realLibm target).2.xyza = target.armorXyza realLibm i ∧
    (|target.facing realLibm i| ≤ 500 / 573 ∨ i = 0 ∧ target.jumped = false)
  reads : a.chooseAimPointAt realLibm target = some (a.chooseAimPoint realLibm target)

variable {a : Aimer ℝ} {target : Target ℝ}

theorem armorChosen_of_not_jumped (hnum : 0 < target.armorNum) (hjumped : target.jumped = false) :
    ArmorChosen a target := by
  have hchoose := chooseAimPoint_of_not_jumped realLibm a hjumped
  refine ⟨by rw [hchoose], ⟨0, hnum, ?_, .inr ⟨rfl, hjumped⟩⟩, chooseAimPointAt_eq a hnum⟩
  rw [hchoose, armorAt_armorXyzaList realLibm target hnum]

/-- After a jump a slow target is aimed at iff one of its armors is within reach. -/
theorem armorChosen_of_jumped (hnum : 0 < target.armorNum) (hjumped : target.jumped = true)
    (hname : target.name ≠ .outpost) (hslow : |target.x 7| < 7) :
    ArmorChosen a target ↔
      ∃ m : ℤ, |target.offLine realLibm + m * (realLibm.turn / target.armorNum)| ≤ 500 / 573 := by
  rw [← exists_facing_iff Real.pi_pos hnum]
  obtain ⟨hnone, hinvalid⟩ | ⟨i, hi, hle, hchoose⟩ := chooseAimPoint_slow realLibm a hjumped hname hslow
  · refine ⟨fun h => absurd h.valid (by rw [hinvalid]; exact Bool.noConfusion), ?_⟩
    rintro ⟨i, hi, hle⟩
    exact absurd hle (hnone i hi)
  · refine ⟨fun _ => ⟨i, hi, hle⟩, fun _ => ?_⟩
    refine ⟨by rw [hchoose], ⟨i, hi, ?_, .inl hle⟩, chooseAimPointAt_eq a hnum⟩
    rw [hchoose]

/-- **Where an armor can be chosen** on a target of two, three or four that turns slowly: before the first jump, with four
armors, or with an armor turned to within 50 degrees. -/
theorem choose_aim_point_low_speed_iff (a : Aimer ℝ)
    (hnum : target.armorNum = 2 ∨ target.armorNum = 3 ∨ target.armorNum = 4) (hname : target.name ≠ .outpost)
    (hslow : |target.x 7| < 7) : ArmorChosen a target ↔ target.jumped = false ∨ target.armorNum = 4 ∨
      ∃ m : ℤ, |target.x 6 - realLibm.atan2 (target.x 2) (target.x 0) + m * (2 * Real.pi / target.armorNum)| ≤
        500 / 573 := by
  have hpos : 0 < target.armorNum := by omega
  have hpi : 0 < realLibm.pi := Real.pi_pos
  have hreach : realLibm.pi / 4 ≤ 500 / 573 := by
    have hlt : realLibm.pi < 3.15 := Real.pi_lt_d2
    norm_num at hlt ⊢
    linarith
  cases hjumped : target.jumped with
  | false => exact iff_of_true (armorChosen_of_not_jumped hpos hjumped) (.inl rfl)
  | true =>
    rw [armorChosen_of_jumped hpos hjumped hname hslow]
    refine ⟨fun h => .inr (.inr h), ?_⟩
    rintro (h | hfour | h)
    · cases h
    · exact exists_within_of_four hpi hfour hreach
    · exact h

/-- A target straight ahead that has jumped and does not turn, with `armorNum` armors, the first of them facing `yaw`. -/
noncomputable def stillTarget (armorNum : Nat) (yaw : ℝ) : Target ℝ where
  name := .three
  jumped := true
  armorNum := armorNum
  updateCount := 20
  isConverged := true
  x := ![1, 0, 0, 0, 0, 0, yaw, 0, 0.2, 0, 0]
  t := 0

theorem offLine_stillTarget (armorNum : Nat) (yaw : ℝ) : (stillTarget armorNum yaw).offLine realLibm = yaw := by
  have hahead : Complex.arg ⟨1, 0⟩ = 0 := Complex.arg_ofReal_of_nonneg zero_le_one
  change yaw - Complex.arg ⟨1, 0⟩ = yaw
  rw [hahead, sub_zero]

theorem still_slow (armorNum : Nat) (yaw : ℝ) : |(stillTarget armorNum yaw).x 7| < 7 := by
  have hw : (stillTarget armorNum yaw).x 7 = 0 := rfl
  rw [hw, abs_zero]
  norm_num

/-- Four armors, one of them in front. -/
theorem choose_aim_point_four : ArmorChosen (Aimer.ofConfig (-8 / 10) (-1) 60 20 (26 / 1000) (10 / 1000) 10)
    (stillTarget 4 0) :=
  (choose_aim_point_low_speed_iff _ (.inr (.inr rfl)) (by simp [stillTarget]) (still_slow 4 0)).2 (.inr (.inl rfl))

/-- **Two armors seen edge on: the list is empty.** -/
theorem choose_aim_point_edge_on : (stillTarget 2 (Real.pi / 2)).armorNum = 2 ∧
    (stillTarget 2 (Real.pi / 2)).name ≠ .outpost ∧ |(stillTarget 2 (Real.pi / 2)).x 7| < 7 ∧
    ¬ ArmorChosen (Aimer.ofConfig (-8 / 10) (-1) 60 20 (26 / 1000) (10 / 1000) 10) (stillTarget 2 (Real.pi / 2)) := by
  have hname : (stillTarget 2 (Real.pi / 2)).name ≠ .outpost := by simp [stillTarget]
  refine ⟨rfl, hname, still_slow 2 _, fun h => ?_⟩
  obtain ⟨m, hm⟩ := (armorChosen_of_jumped (by simp [stillTarget]) rfl hname (still_slow 2 _)).1 h
  have hgt : (3 : ℝ) < Real.pi := Real.pi_gt_three
  have hstep : realLibm.turn / ((stillTarget 2 (Real.pi / 2)).armorNum : ℝ) = Real.pi := by
    rw [Libm.turn]
    change 2 * Real.pi / ((2 : Nat) : ℝ) = Real.pi
    rw [Nat.cast_ofNat]
    field_simp
  rw [offLine_stillTarget, hstep, abs_le] at hm
  -- the armors are a quarter of a turn off on either side
  obtain hneg | hpos := lt_or_ge m 0
  · have hle : (m : ℝ) ≤ -1 := by exact_mod_cast Int.le_sub_one_of_lt hneg
    have hprod := mul_le_mul_of_nonneg_right hle Real.pi_pos.le
    linarith [hm.1]
  · have hge : (0 : ℝ) ≤ m := by exact_mod_cast hpos
    have hprod := mul_nonneg hge Real.pi_pos.le
    linarith [hm.2]

end Vision
end LfSentry
