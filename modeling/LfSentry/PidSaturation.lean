import LfSentry.Reconfigure
import LfSentry.Saturation
/-!
# PidSaturation — what the limits of the PID hold

The output is cut last and stays between the limits of the PID (`outputs_mem`).  The integral is cut to `[-1, 1]` after its
share of the output was taken, so the cut is one call late: a share is within `ki` times `[-1, 1]` at every call iff the
integral at first and the errors summed from there, times `dt`, never leave `[-1, 1]` (`pidSaturates_iff`), and is at most
one call's error beyond it (`along_abs_iOut_le`).
-/
namespace LfSentry
namespace Pursuit

open Saturation (saturate sums saturate_mem sums_mem_iff)

variable {K : Type} [Field K] [LinearOrder K]

/-- The integral that enters the output: what was kept and this call's error. -/
def Pid.summed (pid : Pid K) (setPoint pv : K) : K := pid.integral + (setPoint - pv) * pid.dt

/-- `i_out` -/
def Pid.iOut (pid : Pid K) (setPoint pv : K) : K := pid.ki * pid.summed setPoint pv

theorem calculate_eq (pid : Pid K) (setPoint pv : K) :
    pid.calculate setPoint pv =
      ({ pid with integral := saturate (-1) 1 (pid.summed setPoint pv), preError := setPoint - pv },
        saturate pid.min pid.max (pid.kp * (setPoint - pv) + pid.iOut setPoint pv +
          pid.kd * ((setPoint - pv - pid.preError) / pid.dt))) := rfl

/-- A PID called again and again; a call is a set point and a measurement, and says its output. -/
def pidCalls : Machine (Pid K) (K × K) K :=
  ⟨fun pid call => some ((pid.calculate call.1 call.2).1, [(pid.calculate call.1 call.2).2])⟩

/-- A call's output is within the limits, and the integral's share of it within `ki` times `[-1, 1]`. -/
structure Saturates (pid : Pid K) (call : K × K) : Prop where
  output : (pid.calculate call.1 call.2).2 ∈ Set.Icc pid.min pid.max
  share : ∃ x ∈ Set.Icc (-1 : K) 1, pid.iOut call.1 call.2 = pid.ki * x

theorem pidCalls_step {pid next : Pid K} {call : K × K} {outs : List K}
    (h : pidCalls.step pid call = some (next, outs)) :
    next = (pid.calculate call.1 call.2).1 ∧ outs = [(pid.calculate call.1 call.2).2] := by
  simp only [pidCalls, Option.some.injEq, Prod.mk.injEq] at h
  exact ⟨h.1.symm, h.2.symm⟩

theorem output_mem {pid : Pid K} (hrange : pid.min ≤ pid.max) (setPoint pv : K) :
    (pid.calculate setPoint pv).2 ∈ Set.Icc pid.min pid.max := by
  rw [calculate_eq]
  exact saturate_mem hrange _

/-- **Every output of every run is within the limits.** -/
theorem outputs_mem {pid last : Pid K} (hrange : pid.min ≤ pid.max) {calls : List (K × K)} {outs : List K}
    (hrun : pidCalls.run pid calls = some (last, outs)) : ∀ y ∈ outs, y ∈ Set.Icc pid.min pid.max := by
  refine Machine.forall_mem_of_run (I := fun p => p.min = pid.min ∧ p.max = pid.max) ?_ ⟨rfl, rfl⟩ hrun
  rintro p call next es ⟨hmin, hmax⟩ hst
  obtain ⟨rfl, rfl⟩ := pidCalls_step hst
  refine ⟨⟨hmin, hmax⟩, fun y hy => ?_⟩
  rw [List.mem_singleton] at hy
  rw [hy, ← hmin, ← hmax]
  exact output_mem (by rw [hmin, hmax]; exact hrange) call.1 call.2

section Order

variable [IsStrictOrderedRing K]

theorem zero_mem_Icc : (0 : K) ∈ Set.Icc (-1 : K) 1 := ⟨neg_one_lt_zero.le, zero_le_one⟩

theorem saturates_iff {pid : Pid K} (hrange : pid.min ≤ pid.max) (call : K × K) :
    Saturates pid call ↔ pid.ki = 0 ∨ pid.summed call.1 call.2 ∈ Set.Icc (-1 : K) 1 := by
  constructor
  · rintro ⟨-, x, hx, hshare⟩
    rw [Pid.iOut, mul_eq_mul_left_iff] at hshare
    rcases hshare with hsame | hki
    · exact Or.inr (hsame ▸ hx)
    · exact Or.inl hki
  · intro h
    refine ⟨output_mem hrange call.1 call.2, ?_⟩
    rcases h with hki | hmem
    · exact ⟨0, zero_mem_Icc, by simp [Pid.iOut, hki]⟩
    · exact ⟨pid.summed call.1 call.2, hmem, rfl⟩

/-- The shares along a run are those of a running sum that is read before it is cut. -/
theorem along_saturates_iff : ∀ {calls : List (K × K)} {pid : Pid K}, pid.min ≤ pid.max →
    (pidCalls.Along Saturates pid calls ↔ pid.ki = 0 ∨
      ∀ y ∈ sums (-1) 1 pid.integral (calls.map fun call => (call.1 - call.2) * pid.dt), y ∈ Set.Icc (-1 : K) 1)
  | [], _, _ => by simp [sums]
  | call :: calls, pid, hrange => by
    have ih : pidCalls.Along Saturates (pid.calculate call.1 call.2).1 calls ↔ pid.ki = 0 ∨
        ∀ y ∈ sums (-1) 1 (saturate (-1) 1 (pid.summed call.1 call.2)) (calls.map fun call => (call.1 - call.2) * pid.dt),
          y ∈ Set.Icc (-1 : K) 1 := along_saturates_iff hrange
    rw [Machine.along_cons_of_step (m := pidCalls) rfl, saturates_iff hrange, ih, ← or_and_left, List.map_cons, sums,
      List.forall_mem_cons]
    rfl

/-! ## What is kept -/

theorem integral_mem (pid : Pid K) (setPoint pv : K) : (pid.calculate setPoint pv).1.integral ∈ Set.Icc (-1 : K) 1 := by
  rw [calculate_eq]
  exact saturate_mem (neg_le_self zero_le_one) _

theorem abs_iOut_le {pid : Pid K} (hpid : pid.integral ∈ Set.Icc (-1 : K) 1) (setPoint pv : K) :
    |pid.iOut setPoint pv| ≤ |pid.ki| * (1 + |(setPoint - pv) * pid.dt|) := by
  have hsum : |pid.summed setPoint pv| ≤ 1 + |(setPoint - pv) * pid.dt| :=
    (abs_add_le _ _).trans (add_le_add (abs_le.2 hpid) le_rfl)
  rw [Pid.iOut, abs_mul]
  exact mul_le_mul_of_nonneg_left hsum (abs_nonneg _)

/-- **A share is at most one call's error beyond `ki` times `[-1, 1]`**, at every call. -/
theorem along_abs_iOut_le {pid : Pid K} (hpid : pid.integral ∈ Set.Icc (-1 : K) 1) (calls : List (K × K)) :
    pidCalls.Along (fun p call => |p.iOut call.1 call.2| ≤ |p.ki| * (1 + |(call.1 - call.2) * p.dt|)) pid calls :=
  Machine.along_of_inv (I := fun p => p.integral ∈ Set.Icc (-1 : K) 1) (fun _ call hp => abs_iOut_le hp call.1 call.2)
    (fun p call _ _ _ hst => (pidCalls_step hst).1 ▸ integral_mem p call.1 call.2) hpid

/-- **Both integrals of a configured controller stay in `[-1, 1]`**, whatever cycles and updates it goes through. -/
theorem integrals_mem_of_run {lib : Vision.Libm K} {pluginName : String} {node0 : Params K} {controlFrequency last : K}
    {events : List (Event K)} {s : Controller K × Params K} {o : List (Option (Twist K))}
    (hrun : (controller lib pluginName).run (configure node0 controlFrequency last, node0) events = some (s, o)) :
    s.1.movePid.integral ∈ Set.Icc (-1 : K) 1 ∧ s.1.headingPid.integral ∈ Set.Icc (-1 : K) 1 := by
  refine Machine.inv_of_run (I := fun s => s.1.movePid.integral ∈ Set.Icc (-1 : K) 1 ∧
    s.1.headingPid.integral ∈ Set.Icc (-1 : K) 1) ?_ ⟨zero_mem_Icc, zero_mem_Icc⟩ hrun
  rintro s event t es ⟨hmove, hheading⟩ hst
  cases event with
  | update parameters =>
    cases hst
    exact ⟨hmove, hheading⟩
  | cycle nav transformedPlan speed =>
    cases hst
    obtain ⟨linDist, angleToGoal, velocity, hnext⟩ := computeVelocityCommands_fst lib nav s.1 transformedPlan speed
    rw [hnext]
    refine ⟨integral_mem _ _ _, ?_⟩
    dsimp only
    split
    · exact integral_mem _ _ _
    · exact hheading

/-! ## The share of every call -/

/-- **A PID's shares are within `ki` times `[-1, 1]` iff `ki` is 0 or its integral and the errors summed from the first call
on, times `dt`, never leave `[-1, 1]`.** -/
theorem pidSaturates_iff {pid : Pid K} (hrange : pid.min ≤ pid.max) (calls : List (K × K)) :
    pidCalls.Along Saturates pid calls ↔ pid.ki = 0 ∨ ∀ n < calls.length,
      |pid.integral + ((calls.take (n + 1)).map fun call => (call.1 - call.2) * pid.dt).sum| ≤ 1 := by
  rw [along_saturates_iff hrange, sums_mem_iff, List.length_map]
  simp only [Set.mem_Icc, ← abs_le, List.map_take]

end Order

/-- Three calls of a new PID on the way to the goal. -/
theorem pidSaturates_braking :
    pidCalls.Along Saturates (.create (1 / 20) 3 (-3) 3 (3 / 10) (1 / 10)) [((5 : ℚ), 0), (3, 0), (1, 0)] :=
  (pidSaturates_iff (by decide +kernel) [((5 : ℚ), 0), (3, 0), (1, 0)]).2 (Or.inr (by decide +kernel))

/-- A new PID two metres from the goal for eleven cycles: the eleventh call's share is more than `ki`. -/
theorem not_pidSaturates_approach :
    (-3 : ℚ) ≤ 3 ∧ (0 : ℚ) < 1 / 20 ∧
      ¬ pidCalls.Along Saturates (.create (1 / 20) 3 (-3) 3 (3 / 10) (1 / 10)) (List.replicate 11 ((2 : ℚ), 0)) := by
  rw [along_saturates_iff (by decide +kernel)]
  decide +kernel

end Pursuit
end LfSentry
