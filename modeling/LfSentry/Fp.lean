import Mathlib.Data.Rat.Defs
import Mathlib.Algebra.Order.Ring.Rat
import Mathlib.Tactic.Positivity
/-!
# Fp — floating-point values in exact arithmetic

A value is a number, an infinity or not a number.  Arithmetic on numbers is exact (nothing is rounded); the special
values behave as IEEE 754 has them: every comparison with `nan` is false, and equal infinities have no difference.
-/
namespace LfSentry

inductive Fp where
  | nan
  | inf (neg : Bool)
  | fin (q : ℚ)
deriving DecidableEq, Repr

namespace Fp

instance : Inhabited Fp := ⟨fin 0⟩

def isFinite : Fp → Bool
  | fin _ => true
  | _ => false

def sub : Fp → Fp → Fp
  | fin a, fin b => fin (a - b)
  | nan, _ => nan
  | _, nan => nan
  | inf a, inf b => if a = b then nan else inf a
  | inf a, fin _ => inf a
  | fin _, inf b => inf !b

def abs : Fp → Fp
  | fin a => fin |a|
  | inf _ => inf false
  | nan => nan

/-- Times a positive number. -/
def scale (k : ℚ) : Fp → Fp
  | fin a => fin (a * k)
  | inf a => inf a
  | nan => nan

def lt : Fp → Fp → Bool
  | fin a, fin b => decide (a < b)
  | inf true, fin _ => true
  | fin _, inf false => true
  | inf true, inf false => true
  | _, _ => false

theorem isFinite_iff (x : Fp) : x.isFinite = true ↔ ∃ q, x = fin q := by
  cases x <;> simp [isFinite]

/-- **A number is at distance zero from itself.** -/
theorem abs_sub_self {x : Fp} (h : x.isFinite = true) : (x.sub x).abs = fin 0 := by
  obtain ⟨q, rfl⟩ := (isFinite_iff x).1 h
  simp [sub, abs]

theorem scale_zero (k : ℚ) : (fin 0).scale k = fin 0 := by simp [scale]

/-! ## Binary32 -/

/-- The value of a 32-bit pattern: sign, eight exponent bits, 23 fraction bits. -/
def ofBits32 (b : BitVec 32) : Fp :=
  let neg := b.getLsbD 31
  let e := (b.extractLsb' 23 8).toNat
  let m := (b.extractLsb' 0 23).toNat
  let sign : ℚ := if neg then -1 else 1
  if e = 255 then (if m = 0 then inf neg else nan)
  else if e = 0 then fin (sign * m / 2 ^ 149)
  else if 150 ≤ e then fin (sign * (2 ^ 23 + m) * 2 ^ (e - 150))
  else fin (sign * (2 ^ 23 + m) / 2 ^ (150 - e))

end Fp
end LfSentry
