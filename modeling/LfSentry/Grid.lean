import Mathlib.Data.List.Basic
import Mathlib.Order.Lattice
/-!
# Grid — the cells of a square, numbered row by row

Cell `w * x + y` lies at `(x, y)`.  The cells around a place, as two nested loops go through them (`square`), are those that
are no further away in either direction; a walk over neighbours needs as many steps as the larger of the two differences
(`exists_step`).
-/
namespace LfSentry
namespace Grid

variable {w i j r m : Nat}

/-- The larger of the differences in the two directions. -/
def cheb (w i j : Nat) : Nat :=
  max ((i / w - j / w) + (j / w - i / w)) ((i % w - j % w) + (j % w - i % w))

/-- `for (int d = -r; d <= r; d++)`. -/
def offsets (r : Nat) : List Int := (List.range (2 * r + 1)).map fun k : Nat => (k : Int) - r

/-- The cells no further than `r` from a place, in the order of the loops. -/
def square (w r : Nat) (x y : Int) : List Nat :=
  (offsets r).flatMap fun dX => (offsets r).filterMap fun dY =>
    if 0 ≤ x + dX ∧ x + dX < w ∧ 0 ≤ y + dY ∧ y + dY < w then some (w * (x + dX) + (y + dY)).toNat else none

@[simp] theorem mem_offsets {d : Int} : d ∈ offsets r ↔ -(r : Int) ≤ d ∧ d ≤ r := by
  rw [offsets, List.mem_map]
  constructor
  · rintro ⟨k, hk, rfl⟩
    rw [List.mem_range] at hk
    omega
  · intro h
    exact ⟨(d + r).toNat, List.mem_range.2 (by omega), by omega⟩

theorem div_lt (h : i < w * w) : i / w < w := Nat.div_lt_of_lt_mul h

theorem mod_lt (h : i < w * w) : i % w < w := Nat.mod_lt i (Nat.pos_of_ne_zero fun h0 => by simp [h0] at h)

theorem index_lt {x y : Nat} (hx : x < w) (hy : y < w) : w * x + y < w * w := by
  calc w * x + y < w * x + w := Nat.add_lt_add_left hy _
    _ = w * (x + 1) := (Nat.mul_succ w x).symm
    _ ≤ w * w := Nat.mul_le_mul_left w hx

theorem index_div {x y : Nat} (hy : y < w) : (w * x + y) / w = x := by
  rw [Nat.mul_add_div (by omega), Nat.div_eq_of_lt hy, Nat.add_zero]

theorem index_mod {x y : Nat} (hy : y < w) : (w * x + y) % w = y := by
  rw [Nat.mul_add_mod, Nat.mod_eq_of_lt hy]

/-- **What the loops go through.** -/
theorem mem_square {x y : Int} :
    j ∈ square w r x y ↔ j < w * w ∧ ((j / w : Nat) - x).natAbs ≤ r ∧ ((j % w : Nat) - y).natAbs ≤ r := by
  simp only [square, List.mem_flatMap, List.mem_filterMap, Option.ite_none_right_eq_some, Option.some.injEq]
  constructor
  · rintro ⟨dX, hX, dY, hY, ⟨hx0, hxw, hy0, hyw⟩, rfl⟩
    rw [mem_offsets] at hX hY
    obtain ⟨a, ha⟩ := Int.eq_ofNat_of_zero_le hx0
    obtain ⟨b, hb⟩ := Int.eq_ofNat_of_zero_le hy0
    rw [ha] at hxw
    rw [hb] at hyw
    have hindex : ((w : Int) * (x + dX) + (y + dY)).toNat = w * a + b := by
      rw [ha, hb]
      rfl
    rw [hindex, index_div (by omega), index_mod (by omega)]
    exact ⟨index_lt (by omega) (by omega), by omega, by omega⟩
  · rintro ⟨hj, hX, hY⟩
    have hd := div_lt hj
    have hm := mod_lt hj
    have hindex := Nat.div_add_mod j w
    generalize j / w = a at hX hd hindex
    generalize j % w = b at hY hm hindex
    refine ⟨a - x, mem_offsets.2 (by omega), b - y, mem_offsets.2 (by omega), by omega, ?_⟩
    rw [show x + ((a : Int) - x) = a by omega, show y + ((b : Int) - y) = b by omega]
    exact_mod_cast hindex

theorem mem_square_cell : j ∈ square w r (i / w : Nat) (i % w : Nat) ↔ j < w * w ∧ cheb w i j ≤ r := by
  rw [mem_square, cheb]
  refine and_congr_right fun _ => ?_
  rw [Nat.max_le]
  omega

theorem cheb_self (w i : Nat) : cheb w i i = 0 := by simp [cheb]

theorem eq_of_cheb_eq_zero (h : cheb w i j = 0) : i = j := by
  have h1 : i / w = j / w := by
    have := Nat.max_le.1 (h.le : cheb w i j ≤ 0)
    omega
  have h2 : i % w = j % w := by
    have := Nat.max_le.1 (h.le : cheb w i j ≤ 0)
    omega
  rw [← Nat.div_add_mod i w, ← Nat.div_add_mod j w, h1, h2]

theorem cheb_triangle (w i j k : Nat) : cheb w i j ≤ cheb w i k + cheb w k j := by
  have hsides : ∀ a b c : Nat, (a - b) + (b - a) ≤ ((a - c) + (c - a)) + ((c - b) + (b - c)) := by omega
  refine Nat.max_le.2 ⟨(hsides _ _ (k / w)).trans ?_, (hsides _ _ (k % w)).trans ?_⟩
  · exact Nat.add_le_add (Nat.le_max_left _ _) (Nat.le_max_left _ _)
  · exact Nat.add_le_add (Nat.le_max_right _ _) (Nat.le_max_right _ _)

/-- One step towards a place on a line. -/
theorem exists_toward {a b m : Nat} (ha : a < w) (hb : b < w) (h : (a - b) + (b - a) ≤ m + 1) :
    ∃ c < w, (a - c) + (c - a) ≤ 1 ∧ (c - b) + (b - c) ≤ m := by
  rcases Nat.lt_trichotomy a b with hab | hab | hab
  · exact ⟨a + 1, by omega, by omega, by omega⟩
  · exact ⟨a, ha, by omega, by omega⟩
  · exact ⟨a - 1, by omega, by omega, by omega⟩

/-- **A step to a neighbour brings one closer.** -/
theorem exists_step (hi : i < w * w) (hj : j < w * w) (h : cheb w i j ≤ m + 1) :
    ∃ k < w * w, cheb w i k ≤ 1 ∧ cheb w k j ≤ m := by
  obtain ⟨hX, hY⟩ := Nat.max_le.1 h
  obtain ⟨x, hx, hx1, hxm⟩ := exists_toward (div_lt hi) (div_lt hj) hX
  obtain ⟨y, hy, hy1, hym⟩ := exists_toward (mod_lt hi) (mod_lt hj) hY
  refine ⟨w * x + y, index_lt hx hy, ?_, ?_⟩
  · rw [cheb, index_div hy, index_mod hy]
    exact Nat.max_le.2 ⟨hx1, hy1⟩
  · rw [cheb, index_div hy, index_mod hy]
    exact Nat.max_le.2 ⟨hxm, hym⟩

end Grid
end LfSentry
