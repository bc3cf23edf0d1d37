import LfSentry.DualArbiter
import LfSentry.Stretches
/-!
# BackUpFreeSpace — where to back up to (`pb_nav2_plugins/src/behaviors/back_up_free_space.cpp`)

`findBestDirection` takes samples of a costmap all around and keeps the widest stretch of safe ones.  It keeps a stretch
only once an unsafe sample ends it, and the first one that is no wider than the one kept ends the search: what it answers
is the centre of a longest stretch exactly if the widths grow until there (`midpoint_iff`).
-/
namespace LfSentry
namespace BackUp

open Stretches
open Vision (Libm toInt)

variable {K : Type} [Field K] [LinearOrder K] [FloorRing K]

/-! ## Samples -/

/-- The values of `for (v = start; v <= stop; v += step)`. -/
def steps (start stop step : K) : List K :=
  (List.range (⌊(stop - start) / step⌋ + 1).toNat).map fun n : Nat => start + (n : K) * step

/-- `nav2_msgs::msg::Costmap`: a value for each cell. -/
structure Costmap (K : Type) [Field K] [LinearOrder K] where
  resolution : K
  originX : K
  originY : K
  sizeX : Nat
  sizeY : Nat
  data : Array Nat
  resolution_pos : 0 < resolution
  size_eq : data.size = sizeX * sizeY

/-- `geometry_msgs::msg::Pose2D` -/
structure Pose2D (K : Type) where
  x : K
  y : K
  theta : K

def Costmap.freeAt (costmap : Costmap K) (x y : K) : Bool :=
  let mapMaxX := costmap.originX + costmap.sizeX * costmap.resolution
  let mapMaxY := costmap.originY + costmap.sizeY * costmap.resolution
  if x ≥ costmap.originX ∧ x ≤ mapMaxX ∧ y ≥ costmap.originY ∧ y ≤ mapMaxY then
    let i := toInt ((x - costmap.originX) / costmap.resolution)
    let j := toInt ((y - costmap.originY) / costmap.resolution)
    if i ≥ 0 ∧ i < costmap.sizeX ∧ j ≥ 0 ∧ j < costmap.sizeY then
      decide (costmap.data.getD (i + j * costmap.sizeX).toNat 0 < 253)
    else false
  else false

variable (lib : Libm K)

/-- The `is_safe` of an angle. -/
def isSafe (costmap : Costmap K) (pose : Pose2D K) (radius angle : K) : Bool :=
  (steps 0 radius costmap.resolution).all fun r =>
    costmap.freeAt (pose.x + r * lib.cos angle) (pose.y + r * lib.sin angle)

/-! ## The search -/

structure BestScan (K : Type) where
  firstSafeAngle : K
  lastUnsafeAngle : K
  finalSafeAngle : K
  finalUnsafeAngle : K

def BestScan.start : BestScan K := ⟨-1, -1, 0, 0⟩

def BestScan.openAt (s : BestScan K) (isSafe : Bool) (angle : K) : BestScan K :=
  if isSafe = true ∧ s.firstSafeAngle = -1 then { s with firstSafeAngle := angle } else s

def BestScan.closeAt (s : BestScan K) (isSafe : Bool) (angle : K) : BestScan K :=
  if isSafe = false ∧ s.firstSafeAngle ≠ -1 ∧ s.lastUnsafeAngle = -1 then { s with lastUnsafeAngle := angle } else s

def BestScan.keep (s : BestScan K) : BestScan K :=
  if s.lastUnsafeAngle - s.firstSafeAngle > s.finalUnsafeAngle - s.finalSafeAngle ∧
      s.firstSafeAngle ≠ -1 ∧ s.lastUnsafeAngle ≠ -1 then
    ⟨-1, -1, s.firstSafeAngle, s.lastUnsafeAngle⟩
  else s

/-- The body of the loop over the angles. -/
def BestScan.step (isSafe : K → Bool) (s : BestScan K) (angle : K) : BestScan K :=
  ((s.openAt (isSafe angle) angle).closeAt (isSafe angle) angle).keep

def BestScan.scan (isSafe : K → Bool) (angles : List K) : BestScan K := angles.foldl (BestScan.step isSafe) .start

def findBestDirection (costmap : Costmap K) (pose : Pose2D K) (startAngle endAngle radius angleIncrement : K) : K :=
  let s := BestScan.scan (isSafe lib costmap pose radius) (steps startAngle endAngle angleIncrement)
  (s.finalSafeAngle + s.finalUnsafeAngle) / 2.0

/-! ## What it keeps -/

/-- The last of the stretches, as long as each is wider than the one before. -/
def widening (kept : K × K) : List (K × K) → K × K
  | [] => kept
  | r :: rs => if r.2 - r.1 > kept.2 - kept.1 then widening r rs else kept

/-- The closed stretch at which the widths stop growing. -/
def lastWidening : List (K × K) → Option (K × K)
  | [] => none
  | r :: rs => some (widening r rs)

section Loop

variable [IsStrictOrderedRing K]

/-- **`steps` meets the equation of its loop.** -/
theorem steps_loop {step : K} (hstep : 0 < step) (start stop : K) : steps start stop step =
    if start ≤ stop then start :: steps (start + step) stop step else [] := by
  have hdiv : (stop - (start + step)) / step = (stop - start) / step - 1 := by
    rw [← sub_sub, sub_div, div_self hstep.ne']
  unfold steps
  by_cases hle : start ≤ stop
  · have hfloor : 0 ≤ ⌊(stop - start) / step⌋ := Int.floor_nonneg.2 (div_nonneg (sub_nonneg.2 hle) hstep.le)
    have hcount : (⌊(stop - start) / step⌋ + 1).toNat = ⌊(stop - start) / step⌋.toNat + 1 := by omega
    rw [if_pos hle, hcount, List.range_succ_eq_map, List.map_cons, Nat.cast_zero, zero_mul, add_zero, List.map_map, hdiv,
      Int.floor_sub_one, sub_add_cancel]
    refine congrArg _ (List.map_congr_left fun n _ => ?_)
    simp only [Function.comp_apply, Nat.succ_eq_add_one]
    push_cast
    ring
  · have hfloor : ⌊(stop - start) / step⌋ < 0 := Int.floor_lt.2 (by
      rw [Int.cast_zero]
      exact div_neg_of_neg_of_pos (by linarith) hstep)
    rw [if_neg hle, Int.toNat_of_nonpos (by omega), List.range_zero, List.map_nil]

theorem steps_sorted {step : K} (hstep : 0 < step) (start stop : K) : (steps start stop step).Pairwise (· < ·) := by
  unfold steps
  rw [List.pairwise_map]
  refine List.pairwise_lt_range.imp fun {m n} hmn => ?_
  have hcast : (m : K) < n := by exact_mod_cast hmn
  have := mul_lt_mul_of_pos_right hcast hstep
  linarith

end Loop

section Scan

variable {p : K → Bool}

omit [FloorRing K] in
theorem scan_stuck {s : BestScan K} (hfirst : s.firstSafeAngle ≠ -1) (hlast : s.lastUnsafeAngle ≠ -1)
    (hwide : ¬ s.lastUnsafeAngle - s.firstSafeAngle > s.finalUnsafeAngle - s.finalSafeAngle) (angles : List K) :
    angles.foldl (BestScan.step p) s = s := by
  have hstep : ∀ a, BestScan.step p s a = s := fun a => by
    simp [BestScan.step, BestScan.openAt, BestScan.closeAt, BestScan.keep, hfirst, hlast, hwide]
  induction angles with
  | nil => rfl
  | cons a angles ih => rw [List.foldl_cons, hstep, ih]

/-- No stretch is waiting to be kept. -/
def Settled (s : BestScan K) : Prop :=
  ¬ (s.lastUnsafeAngle - s.firstSafeAngle > s.finalUnsafeAngle - s.finalSafeAngle ∧ s.firstSafeAngle ≠ -1 ∧
    s.lastUnsafeAngle ≠ -1)

omit [FloorRing K] in
theorem settled_keep (s : BestScan K) : Settled s.keep := by
  unfold BestScan.keep
  split
  · exact fun h => h.2.1 rfl
  · assumption

omit [FloorRing K] in
theorem settled_step (s : BestScan K) (angle : K) : Settled (BestScan.step p s angle) := settled_keep _

omit [FloorRing K] in
theorem step_sentinel {s : BestScan K} (h : Settled s) : BestScan.step p s (-1) = s := by
  have hopen : s.openAt (p (-1)) (-1) = s := by
    unfold BestScan.openAt
    split
    · rename_i hsafe
      rw [← hsafe.2]
    · rfl
  have hclose : s.closeAt (p (-1)) (-1) = s := by
    unfold BestScan.closeAt
    split
    · rename_i hunsafe
      rw [← hunsafe.2.2]
    · rfl
  rw [BestScan.step, hopen, hclose]
  exact if_neg h

omit [FloorRing K] in
theorem scan_filter {s : BestScan K} (h : Settled s) (angles : List K) :
    angles.foldl (BestScan.step p) s = (angles.filter fun a => decide (a ≠ -1)).foldl (BestScan.step p) s := by
  induction angles generalizing s with
  | nil => rfl
  | cons a angles ih =>
    by_cases ha : a = -1
    · rw [List.filter_cons_of_neg (by simpa using ha), List.foldl_cons, ha, step_sentinel h, ih h]
    · rw [List.filter_cons_of_pos (by simpa using ha), List.foldl_cons, List.foldl_cons, ih (settled_step s a)]

omit [FloorRing K] in
/-- **The search keeps the closed stretch at which the widths stop growing.** -/
theorem scan_widening : ∀ {angles : List K} {o : Option K} (kept : K × K), (∀ a ∈ angles, a ≠ -1) →
    (∀ f ∈ o, f ≠ -1) →
    let s := angles.foldl (BestScan.step p) ⟨o.getD (-1), -1, kept.1, kept.2⟩
    (s.finalSafeAngle, s.finalUnsafeAngle) = widening kept (closedStretches p o angles)
  | [], o, kept, _, _ => by cases o <;> rfl
  | a :: angles, none, kept, ha, _ => by
    obtain ⟨ha, hangles⟩ := List.forall_mem_cons.1 ha
    unfold closedStretches
    cases hp : p a with
    | true =>
      have hstep : BestScan.step p ⟨-1, -1, kept.1, kept.2⟩ a = ⟨a, -1, kept.1, kept.2⟩ := by
        simp [BestScan.step, BestScan.openAt, BestScan.closeAt, BestScan.keep, hp]
      have hrest := scan_widening (o := some a) kept hangles fun f hf => by cases hf; exact ha
      simpa [hstep] using hrest
    | false =>
      have hstep : BestScan.step p ⟨-1, -1, kept.1, kept.2⟩ a = ⟨-1, -1, kept.1, kept.2⟩ := by
        simp [BestScan.step, BestScan.openAt, BestScan.closeAt, BestScan.keep, hp]
      have hrest := scan_widening (o := none) kept hangles fun f hf => by cases hf
      simpa [hstep] using hrest
  | a :: angles, some f, kept, ha, hf => by
    obtain ⟨ha, hangles⟩ := List.forall_mem_cons.1 ha
    have hf := hf f rfl
    unfold closedStretches
    cases hp : p a with
    | true =>
      have hstep : BestScan.step p ⟨f, -1, kept.1, kept.2⟩ a = ⟨f, -1, kept.1, kept.2⟩ := by
        simp [BestScan.step, BestScan.openAt, BestScan.closeAt, BestScan.keep, hp, hf]
      have hrest := scan_widening (o := some f) kept hangles fun g hg => by cases hg; exact hf
      simpa [hstep] using hrest
    | false =>
      by_cases hwide : a - f > kept.2 - kept.1
      · have hstep : BestScan.step p ⟨f, -1, kept.1, kept.2⟩ a = ⟨-1, -1, f, a⟩ := by
          simp [BestScan.step, BestScan.openAt, BestScan.closeAt, BestScan.keep, hp, hf, ha, hwide]
        have hrest := scan_widening (o := none) (f, a) hangles fun g hg => by cases hg
        simpa [hstep, widening, hwide] using hrest
      · have hstep : BestScan.step p ⟨f, -1, kept.1, kept.2⟩ a = ⟨f, a, kept.1, kept.2⟩ := by
          simp [BestScan.step, BestScan.openAt, BestScan.closeAt, BestScan.keep, hp, hf, ha, hwide]
        simp [hstep, widening, hwide, scan_stuck (s := ⟨f, a, kept.1, kept.2⟩) hf ha hwide]

omit [FloorRing K] in
theorem widening_mem (kept : K × K) : ∀ rs : List (K × K), widening kept rs = kept ∨ widening kept rs ∈ rs
  | [] => .inl rfl
  | r :: rs => by
    unfold widening
    split
    · rcases widening_mem r rs with h | h
      · rw [h]
        exact .inr List.mem_cons_self
      · exact .inr (List.mem_cons_of_mem r h)
    · exact .inl rfl

omit [FloorRing K] in
theorem lastWidening_mem {rs : List (K × K)} {r : K × K} (h : lastWidening rs = some r) : r ∈ rs := by
  cases rs with
  | nil => cases h
  | cons r' rs =>
    cases h
    rcases widening_mem r' rs with h | h
    · rw [h]
      exact List.mem_cons_self
    · exact List.mem_cons_of_mem r' h

/-- Without the sample at the angle that stands for none, the closed stretch at which the widths stop growing is a longest
one; where no stretch is closed a longest one is centred on 0. -/
def GrowsToLongest (p : K → Bool) (angles : List K) : Prop :=
  match lastWidening (closedStretches p none (angles.filter fun a => decide (a ≠ -1))) with
  | some r => IsLongest p angles r.1 r.2
  | none => ∃ first stop, IsLongest p angles first stop ∧ first + stop = 0

omit [FloorRing K] in
theorem scan_eq [IsStrictOrderedRing K] {angles : List K} (hsorted : angles.Pairwise (· < ·)) :
    ((BestScan.scan p angles).finalSafeAngle, (BestScan.scan p angles).finalUnsafeAngle) =
      (lastWidening (closedStretches p none (angles.filter fun a => decide (a ≠ -1)))).getD (0, 0) := by
  have hstart : Settled (BestScan.start : BestScan K) := fun h => h.2.1 rfl
  have hscan := @scan_widening _ _ _ p (angles.filter fun a => decide (a ≠ -1)) none (0, 0)
    (fun a ha => of_decide_eq_true (List.mem_filter.1 ha).2) fun f hf => by cases hf
  unfold BestScan.scan
  rw [scan_filter hstart]
  refine hscan.trans ?_
  cases hclosed : closedStretches p none (angles.filter fun a => decide (a ≠ -1)) with
  | nil => rfl
  | cons r rs =>
    have hr := @closed_of_mem _ p _ _ none r.1 r.2 (hsorted.filter _)
      (fun f hf => by cases hf) (by rw [hclosed]; exact List.mem_cons_self)
    have hwide : r.2 - r.1 > (0 : K) - 0 := by linarith [hr.lt]
    exact if_pos hwide

omit [FloorRing K] in
/-- **The centre of what is kept is that of a longest stretch exactly if the widths grow to a longest one.** -/
theorem centre_iff [IsStrictOrderedRing K] {angles : List K} (hsorted : angles.Pairwise (· < ·)) :
    (∃ first stop, IsLongest p angles first stop ∧
        ((BestScan.scan p angles).finalSafeAngle + (BestScan.scan p angles).finalUnsafeAngle) / 2.0 = (first + stop) / 2.0) ↔
      GrowsToLongest p angles := by
  have hscan := scan_eq (p := p) hsorted
  have htwo : (2.0 : K) = 2 := by norm_num
  unfold GrowsToLongest
  cases hlast : lastWidening (closedStretches p none (angles.filter fun a => decide (a ≠ -1))) with
  | none =>
    rw [hlast, Option.getD_none, Prod.mk.injEq] at hscan
    rw [hscan.1, hscan.2, htwo, add_zero, zero_div]
    refine exists_congr fun first => exists_congr fun stop => and_congr_right fun _ => ?_
    rw [eq_comm, div_eq_zero_iff, or_iff_left two_ne_zero]
  | some r =>
    rw [hlast, Option.getD_some, Prod.mk.injEq] at hscan
    rw [hscan.1, hscan.2, htwo]
    have hclosed := closed_of_mem (o := none) (hsorted.filter _) (fun f hf => by cases hf) (lastWidening_mem hlast)
    constructor
    · rintro ⟨first, stop, hlongest, hcentre⟩
      have hsum : first + stop = r.1 + r.2 := by linarith
      obtain ⟨hfirst, hstop⟩ := eq_of_add_eq (hlongest.between hsorted) hclosed hsum
      rwa [hfirst, hstop] at hlongest
    · intro h
      exact ⟨r.1, r.2, h, rfl⟩

end Scan

/-- Nine cells, the one straight ahead of the middle occupied. -/
noncomputable def blockedAhead : Costmap ℝ where
  resolution := 1
  originX := 0
  originY := 0
  sizeX := 3
  sizeY := 3
  data := #[0, 0, 0, 0, 0, 254, 0, 0, 0]
  resolution_pos := one_pos
  size_eq := rfl

noncomputable def middle : Pose2D ℝ := ⟨1.5, 1.5, 0⟩

/-- The answer is the centre of a longest stretch of safe samples. -/
def AnswersCentre (lib : Libm K) (costmap : Costmap K) (pose : Pose2D K) (startAngle endAngle radius angleIncrement : K) :
    Prop :=
  ∃ first stop, IsLongest (isSafe lib costmap pose radius) (steps startAngle endAngle angleIncrement) first stop ∧
    findBestDirection lib costmap pose startAngle endAngle radius angleIncrement = (first + stop) / 2.0

/-- **Where at least one sample is safe, the answer is the centre of a longest stretch of safe samples exactly if the widths
of the stretches grow to a longest one.** -/
theorem findBestDirection_iff (lib : Libm ℝ) (costmap : Costmap ℝ) (pose : Pose2D ℝ)
    (startAngle endAngle radius angleIncrement : ℝ) (hstep : 0 < angleIncrement) :
    ((∃ a ∈ steps startAngle endAngle angleIncrement, isSafe lib costmap pose radius a = true) →
        AnswersCentre lib costmap pose startAngle endAngle radius angleIncrement) ↔
      ((∃ a ∈ steps startAngle endAngle angleIncrement, isSafe lib costmap pose radius a = true) →
        GrowsToLongest (isSafe lib costmap pose radius) (steps startAngle endAngle angleIncrement)) :=
  imp_congr_right fun _ => centre_iff (steps_sorted hstep startAngle endAngle)

theorem findBestDirection_iff_round :
    ((∃ a ∈ steps (-Real.pi) Real.pi (Real.pi / 32), isSafe Vision.Dual.realLibm blockedAhead middle 1 a = true) →
        AnswersCentre Vision.Dual.realLibm blockedAhead middle (-Real.pi) Real.pi 1 (Real.pi / 32)) ↔
      ((∃ a ∈ steps (-Real.pi) Real.pi (Real.pi / 32), isSafe Vision.Dual.realLibm blockedAhead middle 1 a = true) →
        GrowsToLongest (isSafe Vision.Dual.realLibm blockedAhead middle 1) (steps (-Real.pi) Real.pi (Real.pi / 32))) :=
  findBestDirection_iff Vision.Dual.realLibm blockedAhead middle (-Real.pi) Real.pi 1 (Real.pi / 32)
    (div_pos Real.pi_pos (by norm_num))

/-! ## A stretch that reaches the end of the scan -/

theorem steps_half_turn : steps 0 Real.pi (Real.pi / 2) = [0, Real.pi / 2, Real.pi] := by
  have hpi := Real.pi_pos
  have hstep : 0 < Real.pi / 2 := by positivity
  have hthird : Real.pi / 2 + Real.pi / 2 = Real.pi := by ring
  rw [steps_loop hstep, if_pos hpi.le, zero_add, steps_loop hstep, if_pos (by linarith), hthird, steps_loop hstep,
    if_pos le_rfl, steps_loop hstep, if_neg (by linarith)]

theorem steps_radius : steps (0 : ℝ) 1 1 = [0, 1] := by
  rw [steps_loop one_pos, if_pos zero_le_one, zero_add, steps_loop one_pos, if_pos le_rfl, steps_loop one_pos,
    if_neg (by norm_num)]

theorem toInt_centre (i : Nat) : toInt ((i + 0.5 - 0) / 1 : ℝ) = i := by
  have hfloor : ⌊(i : ℝ) + 0.5⌋ = (i : ℤ) := by
    rw [Int.floor_eq_iff]
    constructor <;> push_cast <;> norm_num
  rw [sub_zero, div_one, toInt, if_pos (by positivity), hfloor]

theorem freeAt_centre {i j : Nat} (hi : i < 3) (hj : j < 3) :
    blockedAhead.freeAt (i + 0.5) (j + 0.5) = decide (blockedAhead.data.getD (i + j * 3) 0 < 253) := by
  have hin : ∀ {k : Nat}, k < 3 → (k : ℝ) + 0.5 ≥ 0 ∧ (k : ℝ) + 0.5 ≤ 0 + (3 : ℕ) * 1 := fun {k} hk => by
    have hle : (k : ℝ) ≤ 2 := by exact_mod_cast Nat.le_of_lt_succ hk
    constructor
    · positivity
    · push_cast
      linarith
  have hindex : ((i : ℤ) + (j : ℤ) * ((3 : ℕ) : ℤ)).toNat = i + j * 3 := by omega
  unfold Costmap.freeAt
  show (if (i : ℝ) + 0.5 ≥ 0 ∧ (i : ℝ) + 0.5 ≤ 0 + (3 : ℕ) * 1 ∧ (j : ℝ) + 0.5 ≥ 0 ∧ (j : ℝ) + 0.5 ≤ 0 + (3 : ℕ) * 1 then
    _ else _) = _
  rw [if_pos ⟨(hin hi).1, (hin hi).2, (hin hj).1, (hin hj).2⟩]
  show (if toInt (((i : ℝ) + 0.5 - 0) / 1) ≥ 0 ∧ toInt (((i : ℝ) + 0.5 - 0) / 1) < ((3 : ℕ) : ℤ) ∧
      toInt (((j : ℝ) + 0.5 - 0) / 1) ≥ 0 ∧ toInt (((j : ℝ) + 0.5 - 0) / 1) < ((3 : ℕ) : ℤ) then
    decide (blockedAhead.data.getD
      (toInt (((i : ℝ) + 0.5 - 0) / 1) + toInt (((j : ℝ) + 0.5 - 0) / 1) * ((3 : ℕ) : ℤ)).toNat 0 < 253) else false) = _
  rw [toInt_centre, toInt_centre, if_pos (by omega), hindex]

theorem isSafe_blockedAhead (angle : ℝ) : isSafe Vision.Dual.realLibm blockedAhead middle 1 angle =
    (blockedAhead.freeAt 1.5 1.5 && blockedAhead.freeAt (1.5 + Real.cos angle) (1.5 + Real.sin angle)) := by
  show (steps (0 : ℝ) 1 1).all _ = _
  rw [steps_radius]
  simp [middle, Vision.Dual.realLibm]

theorem freeAt_middle : blockedAhead.freeAt 1.5 1.5 = true := by
  have h := freeAt_centre (i := 1) (j := 1) (by decide) (by decide)
  norm_num at h ⊢
  exact h

theorem isSafe_toward {i j : Nat} (hi : i < 3) (hj : j < 3) {angle : ℝ} (hx : 1.5 + Real.cos angle = i + 0.5)
    (hy : 1.5 + Real.sin angle = j + 0.5) :
    isSafe Vision.Dual.realLibm blockedAhead middle 1 angle = decide (blockedAhead.data.getD (i + j * 3) 0 < 253) := by
  rw [isSafe_blockedAhead, freeAt_middle, Bool.true_and, hx, hy, freeAt_centre hi hj]

theorem isSafe_ahead : isSafe Vision.Dual.realLibm blockedAhead middle 1 0 = false := by
  have hx : 1.5 + Real.cos 0 = (2 : Nat) + 0.5 := by
    rw [Real.cos_zero]
    norm_num
  have hy : 1.5 + Real.sin 0 = (1 : Nat) + 0.5 := by
    rw [Real.sin_zero]
    norm_num
  exact isSafe_toward (by decide) (by decide) hx hy

theorem isSafe_left : isSafe Vision.Dual.realLibm blockedAhead middle 1 (Real.pi / 2) = true := by
  have hx : 1.5 + Real.cos (Real.pi / 2) = (1 : Nat) + 0.5 := by
    rw [Real.cos_pi_div_two]
    norm_num
  have hy : 1.5 + Real.sin (Real.pi / 2) = (2 : Nat) + 0.5 := by
    rw [Real.sin_pi_div_two]
    norm_num
  exact isSafe_toward (by decide) (by decide) hx hy

theorem isSafe_back : isSafe Vision.Dual.realLibm blockedAhead middle 1 Real.pi = true := by
  have hx : 1.5 + Real.cos Real.pi = (0 : Nat) + 0.5 := by
    rw [Real.cos_pi]
    norm_num
  have hy : 1.5 + Real.sin Real.pi = (1 : Nat) + 0.5 := by
    rw [Real.sin_pi]
    norm_num
  exact isSafe_toward (by decide) (by decide) hx hy

/-- **The last two of three samples are safe and the answer is the first, where the obstacle is.** -/
theorem answers_the_obstacle :
    findBestDirection Vision.Dual.realLibm blockedAhead middle 0 Real.pi 1 (Real.pi / 2) = 0 ∧
      isSafe Vision.Dual.realLibm blockedAhead middle 1 0 = false ∧
      isSafe Vision.Dual.realLibm blockedAhead middle 1 Real.pi = true ∧
      ¬ AnswersCentre Vision.Dual.realLibm blockedAhead middle 0 Real.pi 1 (Real.pi / 2) := by
  have hpi := Real.pi_pos
  have hsorted := steps_sorted (by positivity : 0 < Real.pi / 2) 0 Real.pi
  have hclosed : closedStretches (isSafe Vision.Dual.realLibm blockedAhead middle 1) none
      ((steps 0 Real.pi (Real.pi / 2)).filter fun a => decide (a ≠ -1)) = [] := by
    have hleft : Real.pi / 2 ≠ -1 := by linarith
    have hback : Real.pi ≠ -1 := by linarith
    rw [steps_half_turn]
    simp [hleft, hback, closedStretches, isSafe_ahead, isSafe_left, isSafe_back]
  have hzero : findBestDirection Vision.Dual.realLibm blockedAhead middle 0 Real.pi 1 (Real.pi / 2) = 0 := by
    have hscan := scan_eq (p := isSafe Vision.Dual.realLibm blockedAhead middle 1) hsorted
    rw [hclosed] at hscan
    obtain ⟨hfirst, hlast⟩ := Prod.mk.inj hscan
    unfold findBestDirection
    dsimp only
    rw [hfirst, hlast, add_zero, zero_div]
  refine ⟨hzero, isSafe_ahead, isSafe_back, ?_⟩
  rintro ⟨first, stop, hlongest, hcentre⟩
  have hbetween := hlongest.between hsorted
  rw [hzero] at hcentre
  have hnonneg : ∀ a ∈ steps 0 Real.pi (Real.pi / 2), 0 ≤ a := fun a ha => by
    rw [steps_half_turn] at ha
    simp only [List.mem_cons, List.not_mem_nil, or_false] at ha
    rcases ha with rfl | rfl | rfl <;> positivity
  have hfirst := hnonneg first hbetween.first_mem
  have hstop := hnonneg stop hbetween.stop_mem
  have hfirst0 : first = 0 := by linarith
  have hpasses := hbetween.first_passes
  rw [hfirst0, isSafe_ahead] at hpasses
  cases hpasses

end BackUp
end LfSentry
