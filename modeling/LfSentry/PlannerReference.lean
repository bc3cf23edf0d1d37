import LfSentry.Planner
/-!
# PlannerReference — what the columns of a planned trajectory hold

`get_trajectory` moves one target through the horizon and keeps three aims at a time.  Because predictions compose, column
`i` is the aim at the target predicted by `i - HALF_HORIZON` steps from its state at the call (`getTrajectory_aligned`).
-/
namespace LfSentry
namespace Vision
namespace Planner

variable {K : Type} [Field K] [LinearOrder K] [FloorRing K] (lib : Libm K)

/-- The column that belongs to step `k`, of the aims at all steps. -/
def columnOf (yaw0 : K) (aimed : ℤ → YawPitch K) (k : ℤ) : PlanColumn K where
  yaw := limitRad lib ((aimed k).yaw - yaw0)
  yawVel := limitRad lib ((aimed (k + 1)).yaw - (aimed (k - 1)).yaw) / (2.0 * dt)
  pitch := (aimed k).pitch
  pitchVel := ((aimed (k + 1)).pitch - (aimed (k - 1)).pitch) / (2.0 * dt)

variable {lib} [IsStrictOrderedRing K]

/-- A target predicted by no time has its armors where it had them. -/
theorem armorXyzaList_predictBy_zero (hpi : 0 < lib.pi) (target : Target K) :
    (target.predictBy lib 0).armorXyzaList lib = target.armorXyzaList lib := by
  obtain ⟨-, hnum, -⟩ := convergened_x target
  have hname := convergened_name target
  have hnum0 : (target.predictBy lib 0).armorNum = target.armorNum := hnum
  have hname0 : (target.predictBy lib 0).name = target.name := hname
  unfold Target.armorXyzaList
  rw [hnum0]
  refine List.map_congr_left fun id _ => ?_
  unfold Target.armorXyza
  rw [hnum0, hname0, predictBy_x]
  simp only [Matrix.cons_val, zero_mul, add_zero, limitRad_limitRad_add hpi]

variable {p : Planner K} {memory : Memory K} {target : Target K} {bulletSpeed : K}

theorem predictBy_step (hpi : 0 < lib.pi) (target : Target K) (k : ℤ) :
    (target.predictBy lib (k * dt)).predictBy lib dt = target.predictBy lib ((k + 1 : ℤ) * dt) := by
  rw [predictBy_predictBy hpi, Int.cast_add, Int.cast_one, add_mul, one_mul]

/-- **The loop, from any step on.** -/
theorem columns_aligned (hpi : 0 < lib.pi) (yaw0 : K) {aimed : ℤ → YawPitch K} (n : Nat) (k : ℤ)
    (haimed : ∀ j : ℤ, k < j → j ≤ k + n →
      (p.aim lib memory (target.predictBy lib (j * dt)) bulletSpeed).value = some (aimed j)) :
    (p.columns lib memory yaw0 bulletSpeed n (target.predictBy lib (k * dt)) (aimed (k - 1)) (aimed k)).value =
      some ((List.range n).map fun i : Nat => columnOf lib yaw0 aimed (k + i)) := by
  induction n generalizing k with
  | zero => rfl
  | succ n ih =>
    have hnext := haimed (k + 1) (by omega) (by push_cast; omega)
    have hrest := ih (k + 1) fun j hlo hhi => haimed j (by omega) (by push_cast; omega)
    rw [add_sub_cancel_right] at hrest
    unfold columns
    dsimp only
    rw [predictBy_step hpi]
    simp only [Logged.value_bind, hnext, hrest, Option.bind_some, Logged.value_pure, List.range_succ_eq_map, List.map_cons,
      List.map_map, Nat.cast_zero, add_zero]
    congr 2
    refine List.map_congr_left fun i _ => ?_
    rw [Function.comp_apply, Nat.cast_succ, add_assoc, add_comm 1 (i : ℤ)]

/-- **Column `i` of `get_trajectory` is the aim at the target predicted by `i - HALF_HORIZON` steps**, with the central
differences of its neighbours; column `HALF_HORIZON` is the aim at the target as it is. -/
theorem getTrajectory_aligned (hpi : 0 < lib.pi) (p : Planner K) (memory : Memory K) (target : Target K)
    (yaw0 bulletSpeed : K)
    (hsolved : ∀ k : ℤ, -51 ≤ k → k ≤ 50 →
      (p.aim lib memory (target.predictBy lib (k * dt)) bulletSpeed).value ≠ none) :
    ∃ aimed : ℤ → YawPitch K,
      (∀ k : ℤ, -51 ≤ k → k ≤ 50 →
        (p.aim lib memory (target.predictBy lib (k * dt)) bulletSpeed).value = some (aimed k)) ∧
      (p.aim lib memory target bulletSpeed).value = some (aimed 0) ∧
      (p.getTrajectory lib memory target yaw0 bulletSpeed).value =
        some ((List.range horizon).map fun i : Nat => columnOf lib yaw0 aimed (i - halfHorizon)) := by
  obtain ⟨aimed, haimed⟩ : ∃ aimed : ℤ → YawPitch K, ∀ k : ℤ, -51 ≤ k → k ≤ 50 →
      (p.aim lib memory (target.predictBy lib (k * dt)) bulletSpeed).value = some (aimed k) := by
    refine ⟨fun k => (p.aim lib memory (target.predictBy lib (k * dt)) bulletSpeed).value.getD ⟨0, 0⟩, fun k hlo hhi => ?_⟩
    obtain ⟨a, ha⟩ := Option.ne_none_iff_exists'.1 (hsolved k hlo hhi)
    simp only [ha, Option.getD_some]
  have hnow : (p.aim lib memory target bulletSpeed).value = some (aimed 0) := by
    have hzero := haimed 0 (by omega) (by omega)
    rw [Int.cast_zero, zero_mul] at hzero
    unfold aim at hzero ⊢
    rwa [armorXyzaList_predictBy_zero hpi] at hzero
  refine ⟨aimed, haimed, hnow, ?_⟩
  have hstart : -dt * ((halfHorizon : K) + 1) = ((-51 : ℤ) : K) * dt := by
    unfold halfHorizon
    push_cast
    ring
  have hfirst := haimed (-51) (by omega) (by omega)
  have hsecond := haimed (-50) (by omega) (by omega)
  have hcolumns := columns_aligned hpi yaw0 horizon (-50) fun j hlo hhi => haimed j (by omega) (by
    unfold horizon halfHorizon at hhi
    omega)
  have hlast : (-50 : ℤ) - 1 = -51 := by omega
  have hstep : (-51 : ℤ) + 1 = -50 := by omega
  rw [hlast] at hcolumns
  unfold getTrajectory
  dsimp only
  rw [hstart, predictBy_step hpi, hstep]
  simp only [Logged.value_bind, hfirst, hsecond, Option.bind_some]
  exact hcolumns

/-! ## A robot that moves and turns -/

omit [FloorRing K] [IsStrictOrderedRing K] in
variable (lib) in
/-- The fold either leaves what it starts with, which is no farther than any armor, or finds an armor. -/
theorem foldl_nearest (xyzaList : List (Xyza K)) (best : K × Xyza K) :
    let nearer := xyzaList.foldl (fun best xyza =>
      let dist := lib.sqrt (xyza.x * xyza.x + xyza.y * xyza.y)
      if dist < best.1 then (dist, xyza) else best) best
    (nearer = best ∧ ∀ a ∈ xyzaList, best.1 ≤ lib.sqrt (a.x * a.x + a.y * a.y)) ∨
      ∃ a ∈ xyzaList, nearer = (lib.sqrt (a.x * a.x + a.y * a.y), a) := by
  induction xyzaList generalizing best with
  | nil => exact .inl ⟨rfl, List.forall_mem_nil _⟩
  | cons a rest ih =>
    dsimp only [List.foldl_cons]
    split
    · rename_i hlt
      rcases ih (lib.sqrt (a.x * a.x + a.y * a.y), a) with ⟨heq, -⟩ | ⟨b, hb, heq⟩
      · exact .inr ⟨a, List.mem_cons_self, heq⟩
      · exact .inr ⟨b, List.mem_cons_of_mem _ hb, heq⟩
    · rename_i hge
      rcases ih best with ⟨heq, hall⟩ | ⟨b, hb, heq⟩
      · exact .inl ⟨heq, List.forall_mem_cons.2 ⟨not_lt.1 hge, hall⟩⟩
      · exact .inr ⟨b, List.mem_cons_of_mem _ hb, heq⟩

/-- Three metres ahead, at one metre a second in both directions, turning. -/
noncomputable def moving : Target ℝ := { ahead 3.0 with x := ![3.0, 1, 0, 1, 0.1, 0.2, 0.5, 2.0, 0.2, 0, 0] }

theorem armorNum_moving (t : ℝ) : (moving.predictBy Dual.realLibm t).armorNum = 2 :=
  (convergened_x moving).2.1.trans (atRest_targetOf (d := 3.0) 0).1.armorNum

theorem armor_moving (t : ℝ) (id : Nat) : ∃ yaw : ℝ, (moving.predictBy Dual.realLibm t).armorXyza Dual.realLibm id =
    ⟨3.0 + t * 1 - 0.2 * Real.cos yaw, 0 + t * 1 - 0.2 * Real.sin yaw, 0.1 + t * 0.2, yaw⟩ := by
  have hrest := (atRest_targetOf (d := 3.0) 0).1
  have hname : (moving.predictBy Dual.realLibm t).name = .three := (convergened_name moving).trans hrest.name
  refine ⟨((moving.predictBy Dual.realLibm t).armorXyza Dual.realLibm id).angle, ?_⟩
  unfold Target.armorXyza
  rw [armorNum_moving, hname, predictBy_x]
  rfl

/-- It stays near, and low, over the horizon. -/
theorem near_moving {t : ℝ} (hlo : -0.51 ≤ t) (hhi : t ≤ 0.5) {a : Xyza ℝ}
    (ha : a ∈ (moving.predictBy Dual.realLibm t).armorXyzaList Dual.realLibm) :
    a.x * a.x + a.y * a.y ≤ 17 ∧ a.z ≤ 0.2 := by
  obtain ⟨id, -, rfl⟩ := List.mem_map.1 ha
  obtain ⟨yaw, heq⟩ := armor_moving t id
  rw [heq]
  have hcos := Real.neg_one_le_cos yaw
  have hcos' := Real.cos_le_one yaw
  have hsin := Real.neg_one_le_sin yaw
  have hsin' := Real.sin_le_one yaw
  have hx : |3.0 + t * 1 - 0.2 * Real.cos yaw| ≤ 4 := abs_le.2 ⟨by linarith, by linarith⟩
  have hy : |0 + t * 1 - 0.2 * Real.sin yaw| ≤ 1 := abs_le.2 ⟨by linarith, by linarith⟩
  have hxx := mul_self_le_mul_self (abs_nonneg _) hx
  have hyy := mul_self_le_mul_self (abs_nonneg _) hy
  rw [abs_mul_abs_self] at hxx hyy
  dsimp only
  constructor <;> linarith

theorem getTrajectory_moving : ∃ traj, (idle.getTrajectory Dual.realLibm blank moving 0 22).value = some traj := by
  have hpi : (0 : ℝ) < Dual.realLibm.pi := Real.pi_pos
  have hsolved : ∀ k : ℤ, -51 ≤ k → k ≤ 50 →
      (idle.aim Dual.realLibm blank (moving.predictBy Dual.realLibm (k * dt)) 22).value ≠ none := by
    intro k hlo hhi
    have hk : -0.51 ≤ (k : ℝ) * dt ∧ (k : ℝ) * dt ≤ 0.5 := by
      have hlo' : (-51 : ℝ) ≤ k := by exact_mod_cast hlo
      have hhi' : (k : ℝ) ≤ 50 := by exact_mod_cast hhi
      unfold dt
      constructor <;> linarith
    unfold aim
    set xyzaList := (moving.predictBy Dual.realLibm (k * dt)).armorXyzaList Dual.realLibm with hlist
    have hnear : ∀ {a : Xyza ℝ}, a ∈ xyzaList → Real.sqrt (a.x * a.x + a.y * a.y) < 1e10 := fun ha =>
      (Real.sqrt_lt' (by norm_num)).2 ((near_moving hk.1 hk.2 ha).1.trans_lt (by norm_num))
    obtain ⟨a, ha, hnearest⟩ : ∃ a ∈ xyzaList,
        nearest Dual.realLibm blank.xyza xyzaList = (Real.sqrt (a.x * a.x + a.y * a.y), a) := by
      rcases foldl_nearest Dual.realLibm xyzaList (1e10, blank.xyza) with ⟨-, hfar⟩ | hmem
      · have hfirst : (moving.predictBy Dual.realLibm (k * dt)).armorXyza Dual.realLibm 0 ∈ xyzaList :=
          List.mem_map.2 ⟨0, List.mem_range.2 (by rw [armorNum_moving]; exact two_pos), rfl⟩
        exact absurd (hnear hfirst) (not_lt.2 (hfar _ hfirst))
      · exact hmem
    have hreach : (TrajectoryObject.construct Dual.realLibm blank.trajectory 22 (Real.sqrt (a.x * a.x + a.y * a.y)) a.z).unsolvable =
        false := by
      obtain ⟨hlow, hz⟩ := near_moving hk.1 hk.2 ha
      have hnonneg : 0 ≤ a.x * a.x + a.y * a.y := add_nonneg (mul_self_nonneg _) (mul_self_nonneg _)
      refine (construct_solved_iff _ _ _ _).2 ?_
      rw [mul_assoc 9.7833, Real.mul_self_sqrt hnonneg]
      nlinarith
    rw [hnearest]
    simp [hreach]
  obtain ⟨aimed, -, -, htraj⟩ := getTrajectory_aligned hpi idle blank moving 0 22 hsolved
  exact ⟨_, htraj⟩

end Planner
end Vision
end LfSentry
