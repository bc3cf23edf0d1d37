import LfSentry.BehaviorTree
import LfSentry.DualArbiter
/-!
# GoalStrings — goals written as `x;y;yaw` or `x;y;z;yaw`

Three nodes read the same strings: `PubNav2Goal` publishes the goal, `SendNav2Goal` sends it as an action, and
`IsGoalReachedByOdom` looks whether it is reached.  The second takes three or seven numbers, and the third does not look
behind the first two, so the strings that mean one thing to all of them are few (`goalString_iff`).  How a string is split
and how a number is read is BehaviorTree.CPP's, a parameter.
-/
namespace LfSentry
namespace Behavior

open Vision (Libm)
open Vision.Dual (realLibm)
open Pursuit (Point PoseStamped hypot)

namespace GoalString

variable {K : Type} [Field K]

/-- `BT::splitString` and `BT::convertFromString<double>`, which throws where there is none. -/
structure Bt (K : Type) where
  splitString : String → Char → List String
  convertFromString : String → Option K

variable (lib : Libm K) (bt : Bt K)

/-! ## The parsers -/

/-- `PubNav2Goal`: the numbers into the message one by one; what was written before a number that is none stays. -/
def fill (msg : PoseStamped K) (x y : String) (z : Option String) (yaw : String) : Bool × PoseStamped K :=
  match bt.convertFromString x with
  | none => (false, msg)
  | some vx =>
    let msg := { msg with position := { msg.position with x := vx } }
    match bt.convertFromString y with
    | none => (false, msg)
    | some vy =>
      let msg := { msg with position := { msg.position with y := vy } }
      match z.elim (some 0) bt.convertFromString with
      | none => (false, msg)
      | some vz =>
        let msg := { msg with position := { msg.position with z := vz } }
        match bt.convertFromString yaw with
        | none => (false, msg)
        | some vyaw => (true, { msg with orientation := yawQuaternion lib vyaw })

def fillGoalFromString (goalStr : String) (msg : PoseStamped K) : Bool × PoseStamped K :=
  match bt.splitString goalStr ';' with
  | [x, y, yaw] => fill lib bt msg x y none yaw
  | [x, y, z, yaw] => fill lib bt msg x y (some z) yaw
  | _ => (false, msg)

/-- `BT::convertFromString<PoseStamped>`, for `SendNav2Goal`; none throws. -/
def convertFromString (key : String) : Option (PoseStamped K) :=
  match bt.splitString key ';' with
  | [x, y, z, qx, qy, qz, qw] =>
    match bt.convertFromString x, bt.convertFromString y, bt.convertFromString z, bt.convertFromString qx,
      bt.convertFromString qy, bt.convertFromString qz, bt.convertFromString qw with
    | some x, some y, some z, some qx, some qy, some qz, some qw =>
      some { (PoseStamped.fresh : PoseStamped K) with position := ⟨x, y, z⟩, orientation := ⟨qx, qy, qz, qw⟩ }
    | _, _, _, _, _, _, _ => none
  | [x, y, yaw] =>
    match bt.convertFromString yaw, bt.convertFromString x, bt.convertFromString y with
    | some yaw, some x, some y =>
      some { (PoseStamped.fresh : PoseStamped K) with position := ⟨x, y, 0⟩, orientation := yawQuaternion lib yaw }
    | _, _, _ => none
  | _ => none

/-- The goal of `IsGoalReachedByOdom`, which is a place; none throws. -/
def odomGoal (goalStr : String) : Option (K × K) :=
  let xy (x y : String) : Option (K × K) :=
    (bt.convertFromString x).bind fun goalX => (bt.convertFromString y).map fun goalY => (goalX, goalY)
  match bt.splitString goalStr ';' with
  | [x, y, _] => xy x y
  | [x, y, _, _] => xy x y
  | _ => none

/-- `IsGoalReachedByOdom::onTick`, of the last odometry's place and the ports; none throws. -/
def onTick [LinearOrder K] (lastMsg : Option (Point K)) (goal : Option String) (posTolerance : Option K) : Option NodeStatus :=
  match lastMsg with
  | none => some .failure
  | some p =>
    goal.bind fun goalStr => (odomGoal bt goalStr).map fun g =>
      if hypot lib (p.x - g.1) (p.y - g.2) ≤ posTolerance.getD 0.50 then .success else .failure

/-- `SendNav2Goal::setGoal`: a pose on the blackboard goes before a string. -/
def setGoal (goalPose : Option (PoseStamped K)) (goal frameId : Option String) (now : Int) : Option (PoseStamped K) :=
  (goalPose.or (goal.bind (convertFromString lib bt))).map fun pose =>
    let frame := if (frameId.getD "").isEmpty then pose.frameId else frameId.getD ""
    { pose with frameId := if frame.isEmpty then "map" else frame, stamp := now }

/-! ## The documented forms -/

/-- `x;y;yaw` or `x;y;z;yaw`, of numbers. -/
inductive DocumentedAs (goalStr : String) : K → K → K → Prop
  | flat {x y yaw : String} {vx vy vyaw : K} : bt.splitString goalStr ';' = [x, y, yaw] →
      bt.convertFromString x = some vx → bt.convertFromString y = some vy → bt.convertFromString yaw = some vyaw →
        DocumentedAs goalStr vx vy vyaw
  | high {x y z yaw : String} {vx vy vz vyaw : K} : bt.splitString goalStr ';' = [x, y, z, yaw] →
      bt.convertFromString x = some vx → bt.convertFromString y = some vy → bt.convertFromString z = some vz →
        bt.convertFromString yaw = some vyaw → DocumentedAs goalStr vx vy vyaw

/-- A pose at a place with a yaw. -/
def At (pose : PoseStamped K) (x y yaw : K) : Prop :=
  pose.position.x = x ∧ pose.position.y = y ∧ pose.orientation = yawQuaternion lib yaw

/-- **One meaning**: the string is of a documented form and all three parsers take it for the same place, and yaw where
they have one; or it is not and all three reject it. -/
def OneMeaning (goalStr : String) : Prop :=
  (∃ x y yaw, DocumentedAs bt goalStr x y yaw ∧
      (∀ msg, (fillGoalFromString lib bt goalStr msg).1 = true ∧ At lib (fillGoalFromString lib bt goalStr msg).2 x y yaw) ∧
      (∃ pose, convertFromString lib bt goalStr = some pose ∧ At lib pose x y yaw) ∧ odomGoal bt goalStr = some (x, y)) ∨
    ((∀ x y yaw, ¬ DocumentedAs bt goalStr x y yaw) ∧ (∀ msg, (fillGoalFromString lib bt goalStr msg).1 = false) ∧
      convertFromString lib bt goalStr = none ∧ odomGoal bt goalStr = none)

def number (s : String) : Prop := (bt.convertFromString s).isSome = true

/-- Of three parts the last one is a number if the first two are; of four one of the first two is none; of seven one is
none. -/
def Unambiguous : List String → Prop
  | [x, y, yaw] => number bt x → number bt y → number bt yaw
  | [x, y, _, _] => number bt x → ¬ number bt y
  | [x, y, z, qx, qy, qz, qw] => ¬ ∀ s ∈ [x, y, z, qx, qy, qz, qw], number bt s
  | _ => True

/-! ## Who takes what -/

section Parts

variable {lib bt} {goalStr : String} {msg : PoseStamped K} {x y z yaw : String}

omit [Field K] in
theorem number_iff {s : String} : number bt s ↔ ∃ v, bt.convertFromString s = some v := Option.isSome_iff_exists

omit [Field K] in
theorem not_number_iff {s : String} : ¬ number bt s ↔ bt.convertFromString s = none := by
  rw [number, Bool.not_eq_true, Option.isSome_eq_false_iff, Option.isNone_iff_eq_none]

/-- A goal is taken only if all its numbers are read. -/
theorem fill_numbers {z : Option String} (h : (fill lib bt msg x y z yaw).1 = true) :
    (∃ vx, bt.convertFromString x = some vx) ∧ (∃ vy, bt.convertFromString y = some vy) ∧
      (∃ vz, z.elim (some 0) bt.convertFromString = some vz) ∧ ∃ vyaw, bt.convertFromString yaw = some vyaw := by
  unfold fill at h
  cases hx : bt.convertFromString x with
  | none => simp [hx] at h
  | some vx =>
    cases hy : bt.convertFromString y with
    | none => simp [hx, hy] at h
    | some vy =>
      cases hz : z.elim (some 0) bt.convertFromString with
      | none => simp [hx, hy, hz] at h
      | some vz =>
        cases hyaw : bt.convertFromString yaw with
        | none => simp [hx, hy, hz, hyaw] at h
        | some vyaw => exact ⟨⟨vx, rfl⟩, ⟨vy, rfl⟩, ⟨vz, rfl⟩, vyaw, rfl⟩

/-- **`PubNav2Goal` takes exactly the documented forms**, with their numbers. -/
theorem fillGoalFromString_iff (goalStr : String) (msg : PoseStamped K) :
    (fillGoalFromString lib bt goalStr msg).1 = true ↔ ∃ x y yaw, DocumentedAs bt goalStr x y yaw := by
  unfold fillGoalFromString
  constructor
  · intro h
    split at h
    · rename_i x y yaw hparts
      obtain ⟨⟨vx, hx⟩, ⟨vy, hy⟩, -, vyaw, hyaw⟩ := fill_numbers h
      exact ⟨vx, vy, vyaw, .flat hparts hx hy hyaw⟩
    · rename_i x y z yaw hparts
      obtain ⟨⟨vx, hx⟩, ⟨vy, hy⟩, ⟨vz, hz⟩, vyaw, hyaw⟩ := fill_numbers h
      exact ⟨vx, vy, vyaw, .high hparts hx hy hz hyaw⟩
    · cases h
  · rintro ⟨vx, vy, vyaw, hdoc⟩
    cases hdoc with
    | flat hparts hx hy hyaw => simp [hparts, fill, hx, hy, hyaw]
    | high hparts hx hy hz hyaw => simp [hparts, fill, hx, hy, hz, hyaw]

variable (lib) in
theorem fillGoalFromString_at {vx vy vyaw : K} (hdoc : DocumentedAs bt goalStr vx vy vyaw) (msg : PoseStamped K) :
    At lib (fillGoalFromString lib bt goalStr msg).2 vx vy vyaw := by
  unfold fillGoalFromString
  cases hdoc with
  | flat hparts hx hy hyaw => simp [hparts, fill, hx, hy, hyaw, At]
  | high hparts hx hy hz hyaw => simp [hparts, fill, hx, hy, hz, hyaw, At]

omit [Field K] in
/-- **`IsGoalReachedByOdom` takes the place of every goal that `PubNav2Goal` takes.** -/
theorem odomGoal_of_documented {vx vy vyaw : K} (hdoc : DocumentedAs bt goalStr vx vy vyaw) :
    odomGoal bt goalStr = some (vx, vy) := by
  unfold odomGoal
  cases hdoc with
  | flat hparts hx hy hyaw => simp [hparts, hx, hy]
  | high hparts hx hy hz hyaw => simp [hparts, hx, hy]

/-- **A goal that is published is reached within the tolerance of the place that was published.** -/
theorem reached_iff [LinearOrder K] (h : (fillGoalFromString lib bt goalStr msg).1 = true) (p : Point K)
    (posTolerance : Option K) :
    onTick lib bt (some p) (some goalStr) posTolerance = some .success ↔
      hypot lib (p.x - (fillGoalFromString lib bt goalStr msg).2.position.x)
        (p.y - (fillGoalFromString lib bt goalStr msg).2.position.y) ≤ posTolerance.getD 0.50 := by
  obtain ⟨vx, vy, vyaw, hdoc⟩ := (fillGoalFromString_iff goalStr msg).1 h
  obtain ⟨hx, hy, -⟩ := fillGoalFromString_at lib hdoc msg
  rw [hx, hy]
  simp [onTick, odomGoal_of_documented hdoc]

/-- **A string that both take is sent to where it is published.** -/
theorem setGoal_at {frameId : Option String} {now : Int} {pose : PoseStamped K}
    (h : (fillGoalFromString lib bt goalStr msg).1 = true)
    (hsent : setGoal lib bt none (some goalStr) frameId now = some pose) :
    pose.position.x = (fillGoalFromString lib bt goalStr msg).2.position.x ∧
      pose.position.y = (fillGoalFromString lib bt goalStr msg).2.position.y ∧
      pose.orientation = (fillGoalFromString lib bt goalStr msg).2.orientation := by
  obtain ⟨vx, vy, vyaw, hdoc⟩ := (fillGoalFromString_iff goalStr msg).1 h
  obtain ⟨hx, hy, horientation⟩ := fillGoalFromString_at lib hdoc msg
  obtain ⟨taken, htaken, rfl⟩ := Option.map_eq_some_iff.1 hsent
  rw [Option.none_or, Option.bind_some] at htaken
  rw [hx, hy, horientation]
  cases hdoc with
  | flat hparts hvx hvy hvyaw =>
    simp only [GoalString.convertFromString, hparts, hvx, hvy, hvyaw, Option.some.injEq] at htaken
    rw [← htaken]
    exact ⟨rfl, rfl, rfl⟩
  | high hparts =>
    simp [GoalString.convertFromString, hparts] at htaken

omit [Field K] in
theorem not_documented_of_length (h3 : (bt.splitString goalStr ';').length ≠ 3)
    (h4 : (bt.splitString goalStr ';').length ≠ 4) : ∀ vx vy vyaw : K, ¬ DocumentedAs bt goalStr vx vy vyaw := by
  rintro vx vy vyaw (hparts | hparts)
  · exact h3 (by rw [hparts]; rfl)
  · exact h4 (by rw [hparts]; rfl)

theorem fill_false_of_not_documented (h : ∀ vx vy vyaw : K, ¬ DocumentedAs bt goalStr vx vy vyaw) (msg : PoseStamped K) :
    (fillGoalFromString lib bt goalStr msg).1 = false := by
  rw [← Bool.not_eq_true, fillGoalFromString_iff]
  rintro ⟨vx, vy, vyaw, hdoc⟩
  exact h vx vy vyaw hdoc

/-! ## Which strings mean one thing -/

variable (lib) in
/-- Strings of three parts. -/
theorem oneMeaning_three (hparts : bt.splitString goalStr ';' = [x, y, yaw]) :
    OneMeaning lib bt goalStr ↔ (number bt x → number bt y → number bt yaw) := by
  have hodom : odomGoal bt goalStr = (bt.convertFromString x).bind fun vx =>
      (bt.convertFromString y).map fun vy => (vx, vy) := by
    simp [odomGoal, hparts]
  constructor
  · rintro (⟨vx, vy, vyaw, hdoc, -⟩ | ⟨-, -, -, hnone⟩) hx hy
    · cases hdoc with
      | flat hparts' _ _ hyaw =>
        rw [hparts] at hparts'
        simp only [List.cons.injEq, and_true] at hparts'
        obtain ⟨-, -, rfl⟩ := hparts'
        exact number_iff.2 ⟨vyaw, hyaw⟩
      | high hparts' =>
        rw [hparts] at hparts'
        simp at hparts'
    · obtain ⟨vx, hvx⟩ := number_iff.1 hx
      obtain ⟨vy, hvy⟩ := number_iff.1 hy
      rw [hodom, hvx, hvy] at hnone
      cases hnone
  · intro h
    by_cases hxy : number bt x ∧ number bt y
    · obtain ⟨vx, hvx⟩ := number_iff.1 hxy.1
      obtain ⟨vy, hvy⟩ := number_iff.1 hxy.2
      obtain ⟨vyaw, hvyaw⟩ := number_iff.1 (h hxy.1 hxy.2)
      have hdoc : DocumentedAs bt goalStr vx vy vyaw := .flat hparts hvx hvy hvyaw
      refine Or.inl ⟨vx, vy, vyaw, hdoc, fun msg => ?_, ?_, odomGoal_of_documented hdoc⟩
      · exact ⟨(fillGoalFromString_iff goalStr msg).2 ⟨vx, vy, vyaw, hdoc⟩, fillGoalFromString_at lib hdoc msg⟩
      · simp [GoalString.convertFromString, hparts, hvx, hvy, hvyaw, At]
    · have hdoc : ∀ vx vy vyaw : K, ¬ DocumentedAs bt goalStr vx vy vyaw := by
        intro vx vy vyaw hdoc
        have hboth := odomGoal_of_documented hdoc
        rw [hodom] at hboth
        obtain ⟨vx', hvx, hrest⟩ := Option.bind_eq_some_iff.1 hboth
        obtain ⟨vy', hvy, -⟩ := Option.map_eq_some_iff.1 hrest
        exact hxy ⟨number_iff.2 ⟨vx', hvx⟩, number_iff.2 ⟨vy', hvy⟩⟩
      refine Or.inr ⟨hdoc, fill_false_of_not_documented hdoc, ?_, ?_⟩
      · rcases not_and_or.1 hxy with hx | hy
        · cases bt.convertFromString yaw <;> simp [GoalString.convertFromString, hparts, not_number_iff.1 hx]
        · cases bt.convertFromString yaw <;> cases bt.convertFromString x <;>
            simp [GoalString.convertFromString, hparts, not_number_iff.1 hy]
      · rw [hodom]
        rcases not_and_or.1 hxy with hx | hy
        · rw [not_number_iff.1 hx]
          rfl
        · rw [not_number_iff.1 hy]
          cases bt.convertFromString x <;> rfl

variable (lib) in
/-- Strings of four parts, which `SendNav2Goal` never takes. -/
theorem oneMeaning_four (hparts : bt.splitString goalStr ';' = [x, y, z, yaw]) :
    OneMeaning lib bt goalStr ↔ (number bt x → ¬ number bt y) := by
  have hodom : odomGoal bt goalStr = (bt.convertFromString x).bind fun vx =>
      (bt.convertFromString y).map fun vy => (vx, vy) := by
    simp [odomGoal, hparts]
  have hnone : GoalString.convertFromString lib bt goalStr = none := by simp [GoalString.convertFromString, hparts]
  constructor
  · rintro (⟨vx, vy, vyaw, -, -, ⟨pose, hpose, -⟩, -⟩ | ⟨-, -, -, hrejects⟩) hx hy
    · rw [hnone] at hpose
      cases hpose
    · obtain ⟨vx, hvx⟩ := number_iff.1 hx
      obtain ⟨vy, hvy⟩ := number_iff.1 hy
      rw [hodom, hvx, hvy] at hrejects
      cases hrejects
  · intro h
    have hrejects : odomGoal bt goalStr = none := by
      rw [hodom]
      by_cases hx : number bt x
      · rw [not_number_iff.1 (h hx)]
        cases bt.convertFromString x <;> rfl
      · rw [not_number_iff.1 hx]
        rfl
    have hdoc : ∀ vx vy vyaw : K, ¬ DocumentedAs bt goalStr vx vy vyaw := by
      intro vx vy vyaw hdoc
      rw [odomGoal_of_documented hdoc] at hrejects
      cases hrejects
    exact Or.inr ⟨hdoc, fill_false_of_not_documented hdoc, hnone, hrejects⟩

/-- Where the three parsers agree on a string that is of no documented form, it is rejected by `SendNav2Goal`. -/
theorem oneMeaning_of_length (h3 : (bt.splitString goalStr ';').length ≠ 3) (h4 : (bt.splitString goalStr ';').length ≠ 4) :
    OneMeaning lib bt goalStr ↔ GoalString.convertFromString lib bt goalStr = none := by
  have hdoc : ∀ vx vy vyaw : K, ¬ DocumentedAs bt goalStr vx vy vyaw := not_documented_of_length h3 h4
  constructor
  · rintro (⟨vx, vy, vyaw, h, -⟩ | ⟨-, -, hnone, -⟩)
    · exact absurd h (hdoc vx vy vyaw)
    · exact hnone
  · intro hnone
    refine Or.inr ⟨hdoc, fill_false_of_not_documented hdoc, hnone, ?_⟩
    unfold odomGoal
    split
    · rename_i hparts
      exact absurd (by rw [hparts]; rfl) h3
    · rename_i hparts
      exact absurd (by rw [hparts]; rfl) h4
    · rfl

theorem convertFromString_seven {qx qy qz qw : String} (hparts : bt.splitString goalStr ';' = [x, y, z, qx, qy, qz, qw]) :
    GoalString.convertFromString lib bt goalStr = none ↔ ¬ ∀ s ∈ [x, y, z, qx, qy, qz, qw], number bt s := by
  simp only [List.forall_mem_cons, number_iff]
  unfold GoalString.convertFromString
  rw [hparts]
  dsimp only
  split
  · rename_i hx hy hz hqx hqy hqz hqw
    simp [hx, hy, hz, hqx, hqy, hqz, hqw]
  · rename_i hnone
    refine iff_of_true rfl ?_
    rintro ⟨⟨vx, hx⟩, ⟨vy, hy⟩, ⟨vz, hz⟩, ⟨vqx, hqx⟩, ⟨vqy, hqy⟩, ⟨vqz, hqz⟩, ⟨vqw, hqw⟩, -⟩
    exact hnone vx vy vz vqx vqy vqz vqw hx hy hz hqx hqy hqz hqw

theorem convertFromString_other (h3 : (bt.splitString goalStr ';').length ≠ 3)
    (h7 : (bt.splitString goalStr ';').length ≠ 7) : GoalString.convertFromString lib bt goalStr = none := by
  unfold GoalString.convertFromString
  split
  · rename_i hparts
    exact absurd (by rw [hparts]; rfl) h7
  · rename_i hparts
    exact absurd (by rw [hparts]; rfl) h3
  · rfl

end Parts

/-- **A string means one thing to the three nodes exactly if its parts are unambiguous.** -/
theorem goalString_iff (lib : Libm K) (bt : Bt K) (goalStr : String) :
    OneMeaning lib bt goalStr ↔ Unambiguous bt (bt.splitString goalStr ';') := by
  generalize hparts : bt.splitString goalStr ';' = parts
  unfold Unambiguous
  split
  · exact oneMeaning_three lib hparts
  · exact oneMeaning_four lib hparts
  · rw [oneMeaning_of_length (by rw [hparts]; simp) (by rw [hparts]; simp), convertFromString_seven hparts]
  · rename_i h3 h4 h7
    have hlen3 : (bt.splitString goalStr ';').length ≠ 3 := by
      rw [hparts]
      intro h
      obtain ⟨x, y, yaw, rfl⟩ := List.length_eq_three.1 h
      exact h3 x y yaw rfl
    have hlen4 : (bt.splitString goalStr ';').length ≠ 4 := by
      rw [hparts]
      intro h
      match parts, h with
      | [x, y, z, yaw], _ => exact h4 x y z yaw rfl
    have hlen7 : (bt.splitString goalStr ';').length ≠ 7 := by
      rw [hparts]
      intro h
      match parts, h with
      | [x, y, z, qx, qy, qz, qw], _ => exact h7 x y z qx qy qz qw rfl
    rw [oneMeaning_of_length hlen3 hlen4]
    exact iff_of_true (convertFromString_other hlen3 hlen7) trivial

/-! ## A goal with a height -/

/-- `BT::splitString`, by characters: what is behind the last delimiter counts if there is anything. -/
def splitFrom (delimiter : Char) : List Char → List Char → List String
  | [], [] => []
  | [], part => [String.ofList part]
  | c :: rest, part =>
    if c = delimiter then String.ofList part :: splitFrom delimiter rest [] else splitFrom delimiter rest (part ++ [c])

/-- A number of one digit. -/
def digitOf (s : String) : Option Nat :=
  match s.toList with
  | [c] => if c.isDigit then some (c.toNat - '0'.toNat) else none
  | _ => none

noncomputable def digits : Bt ℝ where
  splitString s delimiter := splitFrom delimiter s.toList []
  convertFromString s := (digitOf s).map fun n => (n : ℝ)

/-- **`SendNav2Goal` rejects the documented form with a height, which the other two take.** -/
theorem height_not_one_meaning : ¬ OneMeaning realLibm digits "1;2;0;3" := by
  have hparts : digits.splitString "1;2;0;3" ';' = ["1", "2", "0", "3"] := by decide +kernel
  have hdoc : ∃ x y yaw, DocumentedAs digits "1;2;0;3" x y yaw := by
    have h (s : String) (n : Nat) (hs : digitOf s = some n) : digits.convertFromString s = some (n : ℝ) := by
      simp [digits, hs]
    exact ⟨_, _, _, .high hparts (h "1" 1 (by decide +kernel)) (h "2" 2 (by decide +kernel)) (h "0" 0 (by decide +kernel))
      (h "3" 3 (by decide +kernel))⟩
  rintro (⟨x, y, yaw, -, -, ⟨pose, hpose, -⟩, -⟩ | ⟨hnone, -⟩)
  · simp [GoalString.convertFromString, hparts] at hpose
  · obtain ⟨x, y, yaw, h⟩ := hdoc
    exact hnone x y yaw h

end GoalString

end Behavior
end LfSentry
