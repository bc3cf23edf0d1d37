import LfSentry.AimFlight
/-!
# TrajectorySolution — the flights that `Trajectory` knows (`sp_vision_25/tools/trajectory.cpp`)

`Trajectory` solves a quadratic equation for the tangent of the pitch and keeps the faster of its two roots.  No pitch
whatever hits where it finds none, and none hits sooner than the one that it finds (`trajectory_solution`).
-/
namespace LfSentry
namespace Vision

open Ballistics
open LfSentry.Vision.Dual (realLibm)

variable {v d h : ℝ} {traj : Trajectory ℝ}

theorem trajectory_eq_none_iff : trajectory realLibm v d h = none ↔
    -d * -d - 4 * (gravity * d * d / (2 * v * v)) * (gravity * d * d / (2 * v * v) + h) < 0 := by
  unfold trajectory
  dsimp only
  rw [← gravity_eq]
  constructor
  · intro hnone
    by_contra hdelta
    rw [if_neg hdelta] at hnone
    cases hnone
  · intro hdelta
    rw [if_pos hdelta]

/-- What is kept is not slower than either of the two roots. -/
theorem trajectory_le (htraj : trajectory realLibm v d h = some traj) :
    let a := gravity * d * d / (2 * v * v)
    ∃ s, s * s = -d * -d - 4 * a * (a + h) ∧
      traj.flyTime ≤ d / (v * Real.cos (Real.arctan ((d + s) / (2 * a)))) ∧
      traj.flyTime ≤ d / (v * Real.cos (Real.arctan ((d - s) / (2 * a)))) := by
  unfold trajectory at htraj
  dsimp only at htraj
  rw [← gravity_eq] at htraj
  split at htraj
  · cases htraj
  · rename_i hdelta
    refine ⟨_, Real.mul_self_sqrt (not_lt.1 hdelta), ?_⟩
    rw [← Option.some.inj htraj, neg_neg]
    dsimp only
    split
    · rename_i hlt
      exact ⟨le_rfl, hlt.le⟩
    · rename_i hge
      exact ⟨not_lt.1 hge, le_rfl⟩

/-- **No pitch hits sooner.** -/
theorem trajectory_fastest (hv : 0 < v) (hd : 0 < d) (htraj : trajectory realLibm v d h = some traj) {θ t : ℝ}
    (hits : Hits gravity v θ t d h) : traj.flyTime ≤ t := by
  have hg : (0 : ℝ) < gravity := by norm_num [gravity]
  have ha : gravity * d * d / (2 * v * v) ≠ 0 := by positivity
  obtain ⟨s, hs, hfirst, hsecond⟩ := trajectory_le htraj
  rw [hits.time_eq_tan hv hd]
  obtain htan | htan := hits_roots hv hd ha hs hits
  · rw [htan]
    exact hfirst
  · rw [htan]
    exact hsecond

/-- **`Trajectory` is complete and picks the fastest flight**: it is unsolvable iff no pitch hits, and otherwise its pitch
hits after its time of flight, and no pitch that hits does so sooner. -/
theorem trajectory_solution (hv : 0 < v) (hd : 0 < d) :
    (trajectory realLibm v d h = none ↔ ¬ ∃ θ t, Hits gravity v θ t d h) ∧
      ∀ traj, trajectory realLibm v d h = some traj →
        Hits gravity v traj.pitch traj.flyTime d h ∧ ∀ θ t, Hits gravity v θ t d h → traj.flyTime ≤ t := by
  refine ⟨⟨fun hnone => ?_, fun hno => ?_⟩, fun traj htraj =>
    ⟨trajectory_hits hv hd htraj, fun θ t hits => trajectory_fastest hv hd htraj hits⟩⟩
  · rintro ⟨θ, t, hits⟩
    exact absurd (discrim_nonneg hv hd hits) (not_le.2 (trajectory_eq_none_iff.1 hnone))
  · obtain hnone | ⟨traj, htraj⟩ := Option.eq_none_or_eq_some (trajectory realLibm v d h)
    · exact hnone
    · exact absurd ⟨_, _, trajectory_hits hv hd htraj⟩ hno

/-- A bullet of 20 metres a second, over two metres of flat ground. -/
theorem trajectory_solution_near : ∃ traj, trajectory realLibm 20 2 0 = some traj ∧
    Hits gravity 20 traj.pitch traj.flyTime 2 0 ∧ ∀ θ t, Hits gravity 20 θ t 2 0 → traj.flyTime ≤ t := by
  have hsolution := trajectory_solution (h := 0) (by norm_num : (0 : ℝ) < 20) (by norm_num : (0 : ℝ) < 2)
  have hsome : trajectory realLibm 20 2 0 ≠ none := by
    rw [Ne, trajectory_eq_none_iff, gravity]
    norm_num
  obtain ⟨traj, htraj⟩ := Option.ne_none_iff_exists'.1 hsome
  exact ⟨traj, htraj, hsolution.2 traj htraj⟩

end Vision
end LfSentry
