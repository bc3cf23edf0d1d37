import Mathlib.Algebra.Order.Field.Basic
import Mathlib.Data.List.GetD
import Mathlib.Tactic.Linarith
import Mathlib.Tactic.Ring
/-!
# Polyline — the points of a chain of segments by the length of the way to them

`OnPolyline` says that a point is reached after a way `s` along the chain.  `arcsFrom` gives the ways to the corners; the
first corner whose way is not below `s` ends the segment of the point, and that segment has a length (`lookup`).
-/
namespace LfSentry
namespace Polyline

variable {P K : Type} [Field K] [LinearOrder K] (dist : P → P → K) (between : P → P → K → P)

/-- `x` is reached after a way `s` along the chain. -/
inductive OnPolyline : List P → K → P → Prop
  | start (p : P) (ps : List P) : OnPolyline (p :: ps) 0 p
  | along (p q : P) (ps : List P) (t : K) (h0 : 0 ≤ t) (h1 : t ≤ 1) :
      OnPolyline (p :: q :: ps) (t * dist p q) (between p q t)
  | next (p q : P) (ps : List P) {s : K} {x : P} (h : OnPolyline (q :: ps) s x) :
      OnPolyline (p :: q :: ps) (dist p q + s) x

def length : List P → K
  | p :: q :: ps => dist p q + length (q :: ps)
  | _ => 0

/-- The ways to the corners after `p`, to which the way is `back`. -/
def arcsFrom : K → P → List P → List K
  | _, _, [] => []
  | back, p, q :: ps => (back + dist p q) :: arcsFrom (back + dist p q) q ps

variable {dist between}

omit [LinearOrder K] in
theorem length_singleton (p : P) : length dist [p] = 0 := rfl

omit [LinearOrder K] in
theorem length_cons_cons (p q : P) (ps : List P) :
    length dist (p :: q :: ps) = dist p q + length dist (q :: ps) := rfl

omit [LinearOrder K] in
theorem getLast_arcs : ∀ (back : K) (p : P) (ps : List P) (d : K),
    (back :: arcsFrom dist back p ps).getLastD d = back + length dist (p :: ps)
  | back, p, [], d => by simp [arcsFrom, length]
  | back, p, q :: ps, d => by
    show ((back + dist p q) :: arcsFrom dist (back + dist p q) q ps).getLastD back = _
    rw [getLast_arcs (back + dist p q) q ps back, length, add_assoc]

theorem arcs_sorted [IsStrictOrderedRing K] (hdist : ∀ p q, 0 ≤ dist p q) : ∀ (back : K) (p : P) (ps : List P),
    (back :: arcsFrom dist back p ps).Pairwise (· ≤ ·)
  | back, p, [] => List.pairwise_singleton _ _
  | back, p, q :: ps => by
    have htail := arcs_sorted hdist (back + dist p q) q ps
    have hstep : back ≤ back + dist p q := le_add_of_nonneg_right (hdist p q)
    refine List.pairwise_cons.2 ⟨fun c hc => ?_, htail⟩
    rcases List.mem_cons.1 hc with rfl | hc
    · exact hstep
    · exact hstep.trans ((List.pairwise_cons.1 htail).1 c hc)

theorem onPolyline_last : ∀ (p : P) (ps : List P) (d : P),
    OnPolyline dist between (p :: ps) (length dist (p :: ps)) ((p :: ps).getLastD d)
  | p, [], _ => .start p []
  | p, q :: ps, _ => .next p q ps (onPolyline_last q ps p)

/-- **The segment of a point that is reached after a way `target`**: it has a length, and the point divides it as the way
does. -/
theorem lookup [IsStrictOrderedRing K] (d : P) : ∀ (back : K) (p : P) (ps : List P) {target : K}, back < target →
    target ≤ back + length dist (p :: ps) →
    ∃ i, (back :: arcsFrom dist back p ps).findIdx (fun c => decide (¬ c < target)) = i + 1 ∧
      (back :: arcsFrom dist back p ps).getD i 0 < (back :: arcsFrom dist back p ps).getD (i + 1) 0 ∧
      OnPolyline dist between (p :: ps) (target - back) (between ((p :: ps).getD i d) ((p :: ps).getD (i + 1) d)
        ((target - (back :: arcsFrom dist back p ps).getD i 0) /
          ((back :: arcsFrom dist back p ps).getD (i + 1) 0 - (back :: arcsFrom dist back p ps).getD i 0)))
  | back, p, [], target, hlt, hle => by
    rw [length_singleton, add_zero] at hle
    exact absurd hlt (not_lt.2 hle)
  | back, p, q :: ps, target, hlt, hle => by
    have hskip : (back :: arcsFrom dist back p (q :: ps)).findIdx (fun c => decide (¬ c < target)) =
        ((back + dist p q) :: arcsFrom dist (back + dist p q) q ps).findIdx (fun c => decide (¬ c < target)) + 1 := by
      rw [List.findIdx_cons, decide_eq_false (not_not_intro hlt)]
      rfl
    -- the segment is the first one whose end is not passed, so it begins before the target and has a length
    by_cases hreach : target ≤ back + dist p q
    · -- the point is on the first segment
      have hpos : 0 < dist p q := by linarith
      have hfirst : ((back + dist p q) :: arcsFrom dist (back + dist p q) q ps).findIdx
          (fun c => decide (¬ c < target)) = 0 := by
        rw [List.findIdx_cons, decide_eq_true (not_lt.2 hreach)]
        rfl
      refine ⟨0, by rw [hskip, hfirst], lt_add_of_pos_right back hpos, ?_⟩
      show OnPolyline dist between (p :: q :: ps) (target - back)
        (between p q ((target - back) / (back + dist p q - back)))
      have hon : OnPolyline dist between (p :: q :: ps) ((target - back) / dist p q * dist p q)
          (between p q ((target - back) / dist p q)) :=
        .along p q ps _ (div_nonneg (by linarith) hpos.le) ((div_le_one hpos).2 (by linarith))
      rw [div_mul_cancel₀ _ hpos.ne'] at hon
      rw [add_sub_cancel_left]
      exact hon
    · -- it is on a later one
      obtain ⟨i, hidx, hlen, hon⟩ := lookup d (back + dist p q) q ps (not_le.1 hreach)
        (by rw [length_cons_cons] at hle; linarith)
      have hway : target - back = dist p q + (target - (back + dist p q)) := by ring
      refine ⟨i + 1, by rw [hskip, hidx], hlen, ?_⟩
      rw [hway]
      exact .next p q ps hon

end Polyline
end LfSentry
