import LfSentry.DualArbiter
import LfSentry.WhileLoop
/-!
# LimitRad — the loops of `limit_rad` (`tools/math_tools.cpp`)

The rest of the development takes `limit_rad` for a closed form, all turns at once (`limitRad`).  Here are the two loops
as written, turn by turn; they end, and with that value (`returns_limitRad`).
-/
namespace LfSentry
namespace Vision

open AddCommGroup
open Vision.Dual (realLibm)

variable {K : Type} [Field K] [LinearOrder K] [FloorRing K] (lib : Libm K)

/-- `limit_rad`, each of its loops for at most `fuel` rounds. -/
def limitRadWhile (fuel : Nat) (angle : K) : Option K :=
  (whileLoop (fun angle => angle > lib.pi) (fun angle => angle - lib.turn) fuel angle).bind fun angle =>
    whileLoop (fun angle => angle ≤ -lib.pi) (fun angle => angle + lib.turn) fuel angle

/-- The loops started at `angle` end, and `r` is returned. -/
def LimitRadReturns (angle r : K) : Prop := ∃ rounds, ∀ fuel, rounds ≤ fuel → limitRadWhile lib fuel angle = some r

variable {lib}

variable [IsStrictOrderedRing K]

/-- The first loop takes whole turns off, until the angle is not above `π`. -/
theorem exists_whileLoop_down (hpi : 0 < lib.pi) (angle : K) :
    ∃ r, limitRad lib r = limitRad lib angle ∧ r ≤ lib.pi ∧ ∃ rounds, ∀ fuel, rounds ≤ fuel →
      whileLoop (fun angle => angle > lib.pi) (fun angle => angle - 2 * lib.pi) fuel angle = some r := by
  have htwo : 0 < 2 * lib.pi := by linarith
  have hround : ∀ r, limitRad lib r = limitRad lib angle → r > lib.pi →
      limitRad lib (r - 2 * lib.pi) = limitRad lib angle ∧
        ⌈(r - 2 * lib.pi - lib.pi) / (2 * lib.pi)⌉₊ < ⌈(r - lib.pi) / (2 * lib.pi)⌉₊ := by
    intro r hr hc
    have hpos : 0 < (r - lib.pi) / (2 * lib.pi) := div_pos (sub_pos.2 hc) htwo
    have hturn : (r - 2 * lib.pi - lib.pi) / (2 * lib.pi) = (r - lib.pi) / (2 * lib.pi) - 1 := by
      rw [sub_right_comm, sub_div, div_self htwo.ne']
    refine ⟨(limitRad_sub_two_pi hpi r).trans hr, ?_⟩
    rw [hturn, Nat.ceil_sub_one]
    exact Nat.sub_lt (Nat.ceil_pos.2 hpos) Nat.one_pos
  obtain ⟨r, hr, hnot, hends⟩ := exists_of_variant _ (fun r => ⌈(r - lib.pi) / (2 * lib.pi)⌉₊) hround rfl
  exact ⟨r, hr, not_lt.1 hnot, _, hends⟩

/-- The second loop puts whole turns on, until the angle is above `-π`; it does not leave `π` behind. -/
theorem exists_whileLoop_up (hpi : 0 < lib.pi) {angle : K} (hle : angle ≤ lib.pi) :
    ∃ r, limitRad lib r = limitRad lib angle ∧ r ≤ lib.pi ∧ -lib.pi < r ∧ ∃ rounds, ∀ fuel, rounds ≤ fuel →
      whileLoop (fun angle => angle ≤ -lib.pi) (fun angle => angle + 2 * lib.pi) fuel angle = some r := by
  have htwo : 0 < 2 * lib.pi := by linarith
  have hround : ∀ r, limitRad lib r = limitRad lib angle ∧ r ≤ lib.pi → r ≤ -lib.pi →
      (limitRad lib (r + 2 * lib.pi) = limitRad lib angle ∧ r + 2 * lib.pi ≤ lib.pi) ∧
        ⌊(lib.pi - (r + 2 * lib.pi)) / (2 * lib.pi)⌋₊ < ⌊(lib.pi - r) / (2 * lib.pi)⌋₊ := by
    intro r hr hc
    have hup : limitRad lib (r + 2 * lib.pi) = limitRad lib r := by
      rw [← limitRad_sub_two_pi hpi (r + 2 * lib.pi), add_sub_cancel_right]
    have hone : 1 ≤ (lib.pi - r) / (2 * lib.pi) := by
      rw [le_div_iff₀ htwo]
      linarith
    have hturn : (lib.pi - (r + 2 * lib.pi)) / (2 * lib.pi) = (lib.pi - r) / (2 * lib.pi) - 1 := by
      rw [← sub_sub, sub_div, div_self htwo.ne']
    refine ⟨⟨hup.trans hr.1, by linarith⟩, ?_⟩
    rw [hturn, Nat.floor_sub_one]
    exact Nat.sub_lt (Nat.floor_pos.2 hone) Nat.one_pos
  obtain ⟨r, ⟨hr, hrle⟩, hnot, hends⟩ :=
    exists_of_variant _ (fun r => ⌊(lib.pi - r) / (2 * lib.pi)⌋₊) hround ⟨rfl, hle⟩
  exact ⟨r, hr, hrle, not_le.1 hnot, _, hends⟩

/-- **The loops end, and with the closed form.** -/
theorem returns_limitRad (hpi : 0 < lib.pi) (angle : K) : LimitRadReturns lib angle (limitRad lib angle) := by
  obtain ⟨mid, hmid, hle, n, hdown⟩ := exists_whileLoop_down hpi angle
  obtain ⟨r, hr, hhi, hlo, m, hup⟩ := exists_whileLoop_up hpi hle
  have hval : limitRad lib angle = r := by rw [← hmid, ← hr, limitRad_of_mem hpi hlo hhi]
  refine ⟨max n m, fun fuel hfuel => ?_⟩
  rw [limitRadWhile, Libm.turn, hdown fuel (le_trans (le_max_left n m) hfuel), Option.bind_some,
    hup fuel (le_trans (le_max_right n m) hfuel), hval]

theorem limitRad_mem_Ioc (hpi : 0 < lib.pi) (angle : K) : limitRad lib angle ∈ Set.Ioc (-lib.pi) lib.pi := by
  have htwo : 0 < 2 * lib.pi := by linarith
  have hmem := toIocMod_mem_Ioc htwo (-lib.pi) angle
  rw [← Turns.sub_ceil_eq_toIocMod htwo, neg_add_eq_sub, two_mul, add_sub_cancel_right, ← two_mul] at hmem
  exact hmem

/-- Of the angles congruent to one there is a single one in the range. -/
theorem limitRad_unique (hpi : 0 < lib.pi) {angle r : K} (hr : r ∈ Set.Ioc (-lib.pi) lib.pi)
    (hmod : r ≡ angle [PMOD 2 * lib.pi]) : r = limitRad lib angle := by
  rw [← (limitRad_inj hpi r angle).2 hmod, limitRad_of_mem hpi hr.1 hr.2]

theorem limitRad_add_turns (hpi : 0 < lib.pi) (angle : K) (k : ℤ) :
    limitRad lib (angle + 2 * lib.pi * k) = limitRad lib angle :=
  (limitRad_inj hpi _ _).2 (Turns.add_turns_modEq _ _ _)

/-- **`limit_rad` over the reals**: its loops end at the one angle of `(-π, π]` congruent to the input, where they do
not move, and a whole number of turns on the input makes no difference. -/
theorem limit_rad_wraps (angle : ℝ) : ∃ r, LimitRadReturns realLibm angle r ∧
    (r ∈ Set.Ioc (-Real.pi) Real.pi ∧ r ≡ angle [PMOD 2 * Real.pi]) ∧
    (∀ s ∈ Set.Ioc (-Real.pi) Real.pi, s ≡ angle [PMOD 2 * Real.pi] → s = r) ∧
    LimitRadReturns realLibm r r ∧
    ∀ k : ℤ, LimitRadReturns realLibm (angle + 2 * Real.pi * k) r := by
  have hpi : 0 < realLibm.pi := Real.pi_pos
  have hmod : limitRad realLibm angle ≡ angle [PMOD realLibm.turn] := limitRad_modEq angle
  refine ⟨limitRad realLibm angle, returns_limitRad hpi angle, ⟨limitRad_mem_Ioc hpi angle, hmod⟩,
    fun s hs hmod => limitRad_unique hpi hs hmod, ?_, fun k => ?_⟩
  · have h := returns_limitRad hpi (limitRad realLibm angle)
    rwa [limitRad_limitRad hpi] at h
  · have h := returns_limitRad hpi (angle + 2 * Real.pi * k)
    have hturn : limitRad realLibm (angle + 2 * Real.pi * k) = limitRad realLibm angle :=
      limitRad_add_turns hpi angle k
    rwa [hturn] at h

end Vision
end LfSentry
