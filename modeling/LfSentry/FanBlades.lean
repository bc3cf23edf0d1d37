import LfSentry.BuffDetector
import LfSentry.Rounding
import LfSentry.Turns
import Mathlib.Data.Rat.Floor
/-!
# FanBlades — the five places of a rune (`sp_vision_25/tasks/auto_buff/buff_type.cpp`)

`PowerRune::PowerRune` chooses the target among the blades of an image (`keepBetter_cases`) and puts the blades, sorted by
their angle from it, into five sectors of 72 degrees.  Both of its comparisons are strict: a blade whose angle, as the
`double` that it is, is half way between two sectors is in neither, and with it all that come after it are lost
(`power_rune_iff`).
-/
namespace LfSentry
namespace Rune

open Rounding

/-! ## The target -/

section Target

variable {K : Type} [Field K] [LinearOrder K] (lib : Arithmetic K)

/-- The place of the blade that the constructor makes the target. -/
def targetPlace (ts : List (FanBlade K)) (lastPowerrune : Option (PowerRune K)) : Option Nat :=
  if ts.length = 1 then some 0
  else
    match lastPowerrune with
    | none => none
    | some last =>
      if ts.length = last.lightNum then
        let near : FanBlade K → K := fun t => t.distance lib (last.fanblades.headD FanBlade.unlit)
        some (keepBetter (fun a b => decide (a < b)) near ts 0 (near (ts.headD FanBlade.unlit)) 0)
      else if ts.length = last.lightNum + 1 then
        some (keepBetter (fun a b => decide (a > b)) (minDistance lib last.fanblades) ts 0 (-1) 0)
      else none

theorem selectTarget_eq (ts : List (FanBlade K)) (lastPowerrune : Option (PowerRune K)) :
    selectTarget lib ts lastPowerrune = (targetPlace lib ts lastPowerrune).map (makeTarget ts) := by
  unfold selectTarget targetPlace
  by_cases h1 : ts.length = 1
  · rw [if_pos h1, if_pos h1]
    rfl
  · rw [if_neg h1, if_neg h1]
    cases lastPowerrune with
    | none => rfl
    | some last =>
      dsimp only
      by_cases h2 : ts.length = last.lightNum
      · rw [if_pos h2, if_pos h2]
        rfl
      · rw [if_neg h2, if_neg h2, apply_ite (Option.map _)]
        rfl

variable {lib}

omit [Field K] [LinearOrder K] in
/-- **The loop keeps what it has while nothing is better, or the first of the best.** -/
theorem keepBetter_cases (better : K → K → Bool) (hirrefl : ∀ x, better x x = false)
    (htrans : ∀ x y z, better x y = true → better y z = true → better x z = true) (f : FanBlade K → K) :
    ∀ (ts : List (FanBlade K)) (place : Nat) (best : K) (kept : Nat),
      (keepBetter better f ts place best kept = kept ∧ ∀ t ∈ ts, better (f t) best = false) ∨
        ∃ j t, ts[j]? = some t ∧ keepBetter better f ts place best kept = place + j ∧ better (f t) best = true ∧
          ∀ u ∈ ts, better (f u) (f t) = false
  | [], place, best, kept => .inl ⟨rfl, fun _ h => nomatch h⟩
  | t :: ts, place, best, kept => by
    rw [keepBetter]
    cases hbetter : better (f t) best with
    | false =>
      rw [if_neg Bool.false_ne_true]
      obtain ⟨hkept, hall⟩ | ⟨j, u, hj, hplace, hu, hall⟩ :=
        keepBetter_cases better hirrefl htrans f ts (place + 1) best kept
      · refine .inl ⟨hkept, fun u hu => ?_⟩
        rcases List.mem_cons.1 hu with rfl | hu
        · exact hbetter
        · exact hall u hu
      · refine .inr ⟨j + 1, u, by simpa using hj, by omega, hu, fun v hv => ?_⟩
        rcases List.mem_cons.1 hv with rfl | hv
        · rw [Bool.eq_false_iff]
          intro hvu
          rw [htrans _ _ _ hvu hu] at hbetter
          cases hbetter
        · exact hall v hv
    | true =>
      rw [if_pos rfl]
      obtain ⟨hkept, hall⟩ | ⟨j, u, hj, hplace, hu, hall⟩ :=
        keepBetter_cases better hirrefl htrans f ts (place + 1) (f t) place
      · refine .inr ⟨0, t, rfl, hkept, hbetter, fun u hu => ?_⟩
        rcases List.mem_cons.1 hu with rfl | hu
        · exact hirrefl _
        · exact hall u hu
      · refine .inr ⟨j + 1, u, by simpa using hj, by omega, htrans _ _ _ hu hbetter, fun v hv => ?_⟩
        rcases List.mem_cons.1 hv with rfl | hv
        · rw [Bool.eq_false_iff]
          intro hvu
          have hloop := htrans _ _ _ hvu hu
          rw [hirrefl] at hloop
          cases hloop
        · exact hall v hv

/-- The largest `float`. -/
def floatMax : K := 340282346638528859811704183484516925440.0

/-- The distance of two blades as the search for the least one sees it, which starts from the largest `float`. -/
def FanBlade.cappedDistance (lib : Arithmetic K) (a b : FanBlade K) : K := min floatMax (a.distance lib b)

variable (lib) in
/-- **The least distance is one of those to the lit blades**, or the bound that the search starts from. -/
theorem minDistance_cases (lastFanblades : List (FanBlade K)) (t : FanBlade K) :
    minDistance lib lastFanblades t ≤ floatMax ∧
      (∀ b ∈ lastFanblades, b.type ≠ .unlight → minDistance lib lastFanblades t ≤ t.distance lib b) ∧
      (minDistance lib lastFanblades t = floatMax ∨
        ∃ b ∈ lastFanblades, b.type ≠ .unlight ∧ minDistance lib lastFanblades t = t.distance lib b) := by
  unfold minDistance floatMax
  generalize (340282346638528859811704183484516925440.0 : K) = start
  induction lastFanblades using List.reverseRecOn with
  | nil => exact ⟨le_rfl, fun b hb => absurd hb List.not_mem_nil, .inl rfl⟩
  | append_singleton bs b ih =>
    rw [List.foldl_append, List.foldl_cons, List.foldl_nil]
    generalize bs.foldl _ start = best at ih ⊢
    obtain ⟨hstart, hle, hattained⟩ := ih
    have hkept : best = start ∨ ∃ c ∈ bs ++ [b], c.type ≠ .unlight ∧ best = t.distance lib c :=
      hattained.imp_right fun ⟨c, hc, hlit, heq⟩ => ⟨c, List.mem_append_left _ hc, hlit, heq⟩
    split
    · rename_i hunlit
      refine ⟨hstart, fun c hc hlit => ?_, hkept⟩
      rcases List.mem_append.1 hc with hc | hc
      · exact hle c hc hlit
      · exact absurd hunlit (List.mem_singleton.1 hc ▸ hlit)
    · rename_i hlit
      split
      · rename_i hlt
        refine ⟨hlt.le.trans hstart, fun c hc hc' => ?_, .inr ⟨b, by simp, hlit, rfl⟩⟩
        rcases List.mem_append.1 hc with hc | hc
        · exact hlt.le.trans (hle c hc hc')
        · rw [List.mem_singleton.1 hc]
      · rename_i hge
        refine ⟨hstart, fun c hc hc' => ?_, hkept⟩
        rcases List.mem_append.1 hc with hc | hc
        · exact hle c hc hc'
        · rw [List.mem_singleton.1 hc]
          exact not_lt.1 hge

/-- The blade at a place. -/
def bladeAt (ts : List (FanBlade K)) (i : Nat) : FanBlade K := ts.getD i FanBlade.unlit

end Target

/-! ## Places and angles -/

/-- The blades, the one at `place` marked as the target. -/
def marked {K : Type} [Field K] (ts : List (FanBlade K)) (place : Nat) : List (FanBlade K) :=
  ts.set place { bladeAt ts place with type := .target }

theorem makeTarget_cons {K : Type} [Field K] (first : FanBlade K) (rest : List (FanBlade K)) {place : Nat}
    (h : place < (first :: rest).length) :
    makeTarget (first :: rest) place =
      ((first :: rest).set place first).set 0 { bladeAt (first :: rest) place with type := .target } := by
  unfold makeTarget bladeAt
  rw [List.getD_eq_getElem?_getD, List.getElem?_eq_getElem h]
  rfl

theorem makeTarget_perm {K : Type} [Field K] {ts : List (FanBlade K)} {place : Nat} (h : place < ts.length) :
    (makeTarget ts place).Perm (marked ts place) ∧
      (makeTarget ts place).headD FanBlade.unlit = { bladeAt ts place with type := .target } := by
  cases ts with
  | nil => simp at h
  | cons first rest =>
    rw [makeTarget_cons first rest h]
    cases place with
    | zero => simp [marked]
    | succ i =>
      have hi : i + 1 < (marked (first :: rest) (i + 1)).length := by simpa [marked] using h
      have hswap := List.set_set_perm hi (Nat.zero_lt_of_lt hi)
      exact ⟨by simpa [marked] using hswap, rfl⟩

section Places

variable {K : Type} [Field K] [LinearOrder K] (lib : Arithmetic K)

/-- The direction `a` from the direction `angle` on. -/
def angleFrom (angle a : K) : K :=
  let d := lib.toDouble (a - angle)
  if d < -lib.toDouble 0.001 then lib.toDouble (d + 2.0 * lib.pi) else d

/-- A blade with its angle from the direction `angle` on. -/
def FanBlade.turned (rCenter : Point2 K) (angle : K) (t : FanBlade K) : FanBlade K :=
  { t with angle := angleFrom lib angle (atanAngle lib rCenter t.center) }

/-- The angle of the `i`-th blade from that at `place`. -/
def fromTarget (rCenter : Point2 K) (ts : List (FanBlade K)) (place i : Nat) : K :=
  angleFrom lib (atanAngle lib rCenter (bladeAt ts place).center) (atanAngle lib rCenter (bladeAt ts i).center)

/-- The `i`-th blade as the constructor leaves it. -/
def filled (rCenter : Point2 K) (ts : List (FanBlade K)) (place i : Nat) : FanBlade K :=
  let t := bladeAt ts i
  FanBlade.turned lib rCenter (atanAngle lib rCenter (bladeAt ts place).center)
    { t with type := if i = place then .target else t.type }

theorem fillAngles_perm (rCenter : Point2 K) {ts : List (FanBlade K)} {place : Nat} (h : place < ts.length) :
    (fillAngles lib rCenter (makeTarget ts place)).Perm ((List.range ts.length).map (filled lib rCenter ts place)) := by
  obtain ⟨hperm, hhead⟩ := makeTarget_perm h
  have hfill : fillAngles lib rCenter (makeTarget ts place) = (makeTarget ts place).map
      (FanBlade.turned lib rCenter (atanAngle lib rCenter (bladeAt ts place).center)) := by
    unfold fillAngles
    rw [hhead]
    rfl
  have hmarked : marked ts place = (List.range ts.length).map fun i =>
      { bladeAt ts i with type := if i = place then .target else (bladeAt ts i).type } := by
    refine List.ext_getElem (by simp [marked]) fun i hi _ => ?_
    have hlen : i < ts.length := by simpa [marked] using hi
    simp only [marked, List.getElem_set, List.getElem_map, List.getElem_range]
    by_cases hip : place = i
    · rw [if_pos hip, if_pos hip.symm, hip]
    · rw [if_neg hip, if_neg (Ne.symm hip)]
      simp [bladeAt, List.getElem?_eq_getElem hlen]
  rw [hfill]
  refine (hperm.map _).trans ?_
  rw [hmarked, List.map_map]
  exact List.Perm.of_eq rfl

/-! ## The five places -/

theorem arrange_length_le : ∀ (angles : List K) (ts : List (FanBlade K)), (arrange lib angles ts).length ≤ angles.length
  | [], _ => by simp [arrange]
  | _ :: _, [] => by simp [arrange]
  | angle :: angles, t :: ts => by
    rw [arrange]
    split
    · exact Nat.succ_le_succ (arrange_length_le angles ts)
    · exact Nat.succ_le_succ (arrange_length_le angles (t :: ts))

/-- **What stands at a place is near its angle, or unlit.** -/
theorem arrange_near : ∀ (angles : List K) (ts : List (FanBlade K)) (i : Nat) (t : FanBlade K),
    (arrange lib angles ts)[i]? = some t →
      t = FanBlade.unlit ∨ t ∈ ts ∧ ∃ angle, angles[i]? = some angle ∧
        |lib.toDouble (t.angle - angle)| < lib.toDouble (lib.pi / 5.0)
  | [], _, _, _, h => by simp [arrange] at h
  | _ :: _, [], _, _, h => by simp [arrange] at h
  | angle :: angles, u :: ts, i, t, h => by
    rw [arrange] at h
    split at h
    · rename_i hnear
      cases i with
      | zero =>
        obtain rfl : u = t := by simpa using h
        exact .inr ⟨List.mem_cons_self, angle, rfl, hnear⟩
      | succ i =>
        refine (arrange_near angles ts i t (by simpa using h)).imp_right fun ⟨hmem, hex⟩ =>
          ⟨List.mem_cons_of_mem _ hmem, ?_⟩
        simpa using hex
    · cases i with
      | zero => exact .inl (by simpa using h.symm)
      | succ i =>
        refine (arrange_near angles (u :: ts) i t (by simpa using h)).imp_right fun ⟨hmem, hex⟩ => ⟨hmem, ?_⟩
        simpa using hex

/-- **Blades in the order of their sectors all come to stand at them**, where being near an angle says which it is. -/
theorem arrange_slot (sector : FanBlade K → Nat) : ∀ (angles : List K) (k : Nat) (ts : List (FanBlade K)),
    (∀ t ∈ ts, k ≤ sector t ∧ sector t < k + angles.length) →
    (∀ t ∈ ts, ∀ i angle, angles[i]? = some angle →
      (|lib.toDouble (t.angle - angle)| < lib.toDouble (lib.pi / 5.0) ↔ sector t = k + i)) →
    ts.Pairwise (fun a b => sector a < sector b) →
    ∀ t ∈ ts, ∀ i, sector t = k + i → (arrange lib angles ts)[i]? = some t
  | [], k, ts, hbound, _, _, t, ht, _, _ => by
    have := hbound t ht
    simp at this
    omega
  | _ :: _, _, [], _, _, _, _, ht, _, _ => by simp at ht
  | angle :: angles, k, u :: ts, hbound, hnear, hsorted, t, ht, i, hi => by
    rw [arrange]
    obtain ⟨hfirst, hrest⟩ := List.pairwise_cons.1 hsorted
    have hu := hnear u List.mem_cons_self 0 angle rfl
    have hk : ∀ v ∈ u :: ts, sector u ≤ sector v := fun v hv =>
      (List.mem_cons.1 hv).elim (fun h => h ▸ le_rfl) fun h => (hfirst v h).le
    have hlater : ∀ l : List (FanBlade K), (∀ v ∈ l, v ∈ u :: ts) → (∀ v ∈ l, k < sector v) →
        l.Pairwise (fun a b => sector a < sector b) → ∀ v ∈ l, ∀ j, sector v = k + 1 + j →
          (arrange lib angles l)[j]? = some v := by
      intro l hsub hgt hl
      refine arrange_slot sector angles (k + 1) l (fun v hv => ⟨hgt v hv, ?_⟩) (fun v hv j a hj => ?_) hl
      · have := (hbound v (hsub v hv)).2
        simp at this
        omega
      · rw [hnear v (hsub v hv) (j + 1) a (by simpa using hj)]
        omega
    by_cases hsec : |lib.toDouble (u.angle - angle)| < lib.toDouble (lib.pi / 5.0)
    · rw [if_pos hsec]
      rw [hu] at hsec
      rcases List.mem_cons.1 ht with rfl | ht'
      · obtain rfl : i = 0 := by omega
        rfl
      · have hgt := hfirst t ht'
        obtain ⟨j, rfl⟩ : ∃ j, i = j + 1 := ⟨i - 1, by omega⟩
        rw [List.getElem?_cons_succ]
        exact hlater ts (fun v hv => List.mem_cons_of_mem _ hv) (fun v hv => by have := hfirst v hv; omega) hrest
          t ht' j (by omega)
    · rw [if_neg hsec]
      rw [hu] at hsec
      have hgt : k < sector u := by
        have := (hbound u List.mem_cons_self).1
        omega
      have hget := hk t ht
      obtain ⟨j, rfl⟩ : ∃ j, i = j + 1 := ⟨i - 1, by omega⟩
      rw [List.getElem?_cons_succ]
      exact hlater (u :: ts) (fun v hv => hv) (fun v hv => hgt.trans_le (hk v hv)) hsorted t ht j (by omega)

end Places

/-! ## Angles in double precision -/

/-- What the source relies on: `float` and `double` round, `M_PI` is a `double`, and no angle is beyond the `float` next
to `π`. -/
structure Arithmetic.Ieee {K : Type} [Field K] [LinearOrder K] (lib : Arithmetic K) : Prop where
  toFloat_mono : Monotone lib.toFloat
  toFloat_zero : lib.toFloat 0 = 0
  toDouble : Rounds 53 lib.toDouble
  sqrt_nonneg : ∀ x, 0 ≤ x → 0 ≤ lib.sqrt x
  pi : lib.pi = 884279719003555.0 / 281474976710656.0
  abs_atan2_le : ∀ y x, |lib.atan2 y x| ≤ 13176795.0 / 4194304.0

section Sectors

variable {K : Type} [Field K] [LinearOrder K] [FloorRing K] (lib : Arithmetic K)

/-- The sector of 72 degrees that an angle lies in, counted from the target's on round the rune. -/
def sector (angle : K) : Nat := (round (angle / (2.0 * lib.pi / 5.0)) % 5).toNat

/-- The angle is half way between two sectors. -/
def HalfWay (angle : K) : Prop := Int.fract (angle / (2.0 * lib.pi / 5.0)) = 0.5

theorem sector_lt (angle : K) : sector lib angle < 5 := by
  unfold sector
  omega

variable [IsStrictOrderedRing K] {lib} (h : lib.Ieee)

omit [IsStrictOrderedRing K] in
theorem sector_eq (angle : K) : sector lib angle = (round (angle / (2 * (lib.pi / 5))) % 5).toNat := by
  norm_num [sector, mul_div_assoc]

@[simp] theorem sector_zero : sector lib 0 = 0 := by simp [sector]

include h

omit [FloorRing K] in
theorem pi_pos : 0 < lib.pi := by
  rw [h.pi]
  norm_num

theorem halfWay_iff {angle : K} : HalfWay lib angle ↔ ∃ m : ℤ, angle = (2 * m + 1) * (lib.pi / 5) := by
  have hpi := pi_pos h
  have hq : (2.0 : K) * lib.pi / 5.0 = 2 * (lib.pi / 5) := by norm_num [mul_div_assoc]
  unfold HalfWay
  rw [hq, show (0.5 : K) = 1 / 2 by norm_num, Int.fract_eq_iff]
  constructor
  · rintro ⟨-, -, m, hm⟩
    refine ⟨m, ?_⟩
    rw [sub_eq_iff_eq_add, div_eq_iff (by positivity)] at hm
    rw [hm]
    ring
  · rintro ⟨m, hm⟩
    refine ⟨by norm_num, by norm_num, m, ?_⟩
    rw [hm]
    field_simp
    ring

theorem sector_sub_turn (angle : K) : sector lib (angle - 2 * lib.pi) = sector lib angle := by
  have hpi := pi_pos h
  have hdiv : (angle - 2 * lib.pi) / (2 * (lib.pi / 5)) = angle / (2 * (lib.pi / 5)) - (5 : ℤ) := by
    field_simp
    push_cast
    ring
  rw [sector_eq, sector_eq, hdiv, round_sub_intCast, Int.sub_emod_right]

omit [FloorRing K] in
/-- The fifth part of `M_PI` is a `double`, and so are its multiples. -/
theorem digits_fifths (n : ℤ) (hn : |n| ≤ 50) : Digits 53 (n * (lib.pi / 5)) := by
  refine ⟨n * 176855943800711, -48, ?_, ?_⟩
  · rw [abs_le] at hn ⊢
    omega
  · rw [h.pi]
    norm_num
    ring

omit [FloorRing K] in
theorem toDouble_fifths (n : ℤ) (hn : |n| ≤ 50) : lib.toDouble (n * (lib.pi / 5)) = n * (lib.pi / 5) :=
  h.toDouble.fixes (digits_fifths h n hn)

omit [FloorRing K] in
theorem digits_turn : Digits 53 (2 * lib.pi) := by
  have hturn := digits_fifths h 10 (by norm_num)
  convert hturn using 1
  push_cast
  ring

omit [FloorRing K] in
theorem toDouble_fifth : lib.toDouble (lib.pi / 5.0) = lib.pi / 5 := by
  have hfifth := toDouble_fifths h 1 (by norm_num)
  rw [Int.cast_one, one_mul] at hfifth
  rw [show (5.0 : K) = 5 by norm_num, hfifth]

omit [FloorRing K] in
/-- The angle of the `k`-th place. -/
theorem targetAngles_get {k : Nat} {angle : K} :
    (targetAngles lib)[k]? = some angle ↔ k < 5 ∧ angle = k * (2 * (lib.pi / 5)) := by
  have hplace : ∀ n : ℤ, |n| ≤ 10 → lib.toDouble (lib.toDouble (n * lib.pi) / 5) = n * (lib.pi / 5) := by
    intro n hn
    have hwhole := toDouble_fifths h (n * 5) (by rw [abs_le] at hn ⊢; omega)
    rw [show ((n * 5 : ℤ) : K) * (lib.pi / 5) = n * lib.pi by push_cast; ring] at hwhole
    rw [hwhole, mul_div_assoc, toDouble_fifths h n (by omega)]
  have h2 := hplace 2 (by norm_num)
  have h4 := hplace 4 (by norm_num)
  have h6 := hplace 6 (by norm_num)
  have h8 := hplace 8 (by norm_num)
  push_cast at h2 h4 h6 h8
  have heq : targetAngles lib = (List.range 5).map fun k : ℕ => (k : K) * (2 * (lib.pi / 5)) := by
    norm_num [targetAngles, List.range_succ, h2, h4, h6, h8]
    refine ⟨?_, ?_, ?_⟩ <;> ring
  rw [heq, List.getElem?_map, Option.map_eq_some_iff]
  constructor
  · rintro ⟨i, hi, rfl⟩
    obtain ⟨hlt, rfl⟩ := List.getElem?_eq_some_iff.1 hi
    exact ⟨by simpa using hlt, by simp⟩
  · rintro ⟨hk, rfl⟩
    exact ⟨k, by rw [List.getElem?_range hk], rfl⟩

omit [FloorRing K] in
/-- The comparison with a place is as exact as if nothing were rounded. -/
theorem near_iff {a : K} (ha : Digits 53 a) {k : Nat} (hk : k < 5) :
    |lib.toDouble (a - k * (2 * (lib.pi / 5)))| < lib.toDouble (lib.pi / 5.0) ↔
      |a - k * (2 * (lib.pi / 5))| < lib.pi / 5 := by
  have hplace : Digits 53 ((k : K) * (2 * (lib.pi / 5))) := by
    have hmul := digits_fifths h (2 * k) (by rw [abs_le]; omega)
    convert hmul using 1
    push_cast
    ring
  have hone := digits_fifths h 1 (by norm_num)
  rw [Int.cast_one, one_mul] at hone
  rw [toDouble_fifth h]
  refine h.toDouble.abs_sub_lt_iff ha hplace hone ?_
  rcases Nat.eq_zero_or_pos k with rfl | hpos
  · left
    simp
  · right
    have hpi := pi_pos h
    have hk1 : (1 : K) ≤ k := by exact_mod_cast hpos
    exact le_mul_of_one_le_left (by positivity) hk1

/-- An angle within 36 degrees of a place is in its sector. -/
theorem sector_of_near {angle : K} {k : Nat} (hk : k < 5) (hnear : |angle - k * (2 * (lib.pi / 5))| < lib.pi / 5) :
    sector lib angle = k := by
  have hpi := pi_pos h
  have hround : round (angle / (2 * (lib.pi / 5))) = (k : ℤ) := by
    obtain ⟨hlo, hhi⟩ := abs_lt.1 hnear
    rw [round_eq_iff, Set.mem_Ico, le_div_iff₀ (by positivity), div_lt_iff₀ (by positivity)]
    push_cast
    constructor <;> linarith
  rw [sector_eq]
  omega

/-- Of an angle that is less than a turn, and not in the first sector from above, the sector says the nearest place. -/
theorem near_sector {angle : K} (h0 : -(1 / 100) ≤ angle) (h2 : angle < 9 * (lib.pi / 5)) (hhalf : ¬ HalfWay lib angle) :
    |angle - sector lib angle * (2 * (lib.pi / 5))| < lib.pi / 5 := by
  have hpi := pi_pos h
  have hpi3 : 3 < lib.pi := by
    rw [h.pi]
    norm_num
  have hlt := Turns.abs_sub_round_mul_lt (d := angle) (q := 2 * (lib.pi / 5)) (by positivity)
    fun m hm => hhalf ((halfWay_iff h).2 ⟨m, by rw [hm]; ring⟩)
  have hround : 0 ≤ round (angle / (2 * (lib.pi / 5))) ∧ round (angle / (2 * (lib.pi / 5))) < 5 := by
    generalize round (angle / (2 * (lib.pi / 5))) = r at hlt ⊢
    obtain ⟨hlo, hhi⟩ := abs_lt.1 hlt
    have hr0 : (-1 : K) < r := by
      by_contra hneg
      have := mul_le_mul_of_nonneg_right (not_lt.1 hneg) (by positivity : 0 ≤ 2 * (lib.pi / 5))
      linarith
    have hr5 : (r : K) < 5 := by
      by_contra hpos
      have := mul_le_mul_of_nonneg_right (not_lt.1 hpos) (by positivity : 0 ≤ 2 * (lib.pi / 5))
      linarith
    constructor
    · have : (-1 : ℤ) < r := by exact_mod_cast hr0
      omega
    · exact_mod_cast hr5
  have hsector : ((sector lib angle : ℕ) : K) = ((round (angle / (2 * (lib.pi / 5))) : ℤ) : K) := by
    have hint : ((sector lib angle : ℕ) : ℤ) = round (angle / (2 * (lib.pi / 5))) := by
      rw [sector_eq]
      omega
    exact_mod_cast hint
  rw [hsector]
  linarith

end Sectors

/-! ## The blades as the constructor leaves them -/

section Filled

variable {K : Type} [Field K] [LinearOrder K] {lib : Arithmetic K} (rCenter : Point2 K) (ts : List (FanBlade K)) (place : Nat)

@[simp] theorem filled_angle (i : Nat) : (filled lib rCenter ts place i).angle = fromTarget lib rCenter ts place i := rfl

@[simp] theorem filled_self_type : (filled lib rCenter ts place place).type = .target := by
  simp [filled, FanBlade.turned]

section Ieee

variable [IsStrictOrderedRing K] (h : lib.Ieee)

include h

theorem atanAngle_mem (point : Point2 K) :
    0 ≤ atanAngle lib rCenter point ∧ atanAngle lib rCenter point ≤ 2 * lib.pi := by
  have hpi := h.pi
  unfold atanAngle
  dsimp only
  obtain ⟨hlo, hhi⟩ := abs_le.1 (h.abs_atan2_le (point.sub lib rCenter).y (point.sub lib rCenter).x)
  generalize lib.atan2 _ _ = a at hlo hhi ⊢
  norm_num at hpi hlo hhi
  split
  · rename_i hpos
    refine ⟨hpos, hhi.trans ?_⟩
    rw [hpi]
    norm_num
  · rename_i hneg
    rw [show (2.0 : K) = 2 by norm_num]
    refine ⟨h.toDouble.ge_of_ge (digits_zero 53) ?_, h.toDouble.le_of_le (digits_turn h) (by linarith)⟩
    rw [hpi]
    linarith

/-- An angle from the target is a `double`, of no more than a turn and hardly below zero. -/
theorem fromTarget_mem (i : Nat) : Digits 53 (fromTarget lib rCenter ts place i) ∧
    -(1 / 100) ≤ fromTarget lib rCenter ts place i ∧ fromTarget lib rCenter ts place i ≤ 2 * lib.pi := by
  have hi := atanAngle_mem rCenter h (bladeAt ts i).center
  have hplace := atanAngle_mem rCenter h (bladeAt ts place).center
  have hturn := digits_turn h
  have hmilli : 0 ≤ lib.toDouble 0.001 ∧ lib.toDouble 0.001 ≤ 1 / 100 := by
    refine ⟨h.toDouble.ge_of_ge (digits_zero 53) (by norm_num), ?_⟩
    have hle : lib.toDouble 0.001 ≤ 1 / 128 := by
      refine h.toDouble.le_of_le ⟨1, -7, by norm_num, by norm_num⟩ (by norm_num)
    exact hle.trans (by norm_num)
  unfold fromTarget angleFrom
  dsimp only
  have hlo : -(2 * lib.pi) ≤ lib.toDouble
      (atanAngle lib rCenter (bladeAt ts i).center - atanAngle lib rCenter (bladeAt ts place).center) :=
    h.toDouble.ge_of_ge hturn.neg (by linarith)
  have hhi : lib.toDouble
      (atanAngle lib rCenter (bladeAt ts i).center - atanAngle lib rCenter (bladeAt ts place).center) ≤ 2 * lib.pi :=
    h.toDouble.le_of_le hturn (by linarith)
  split
  · rename_i hneg
    rw [show (2.0 : K) = 2 by norm_num]
    refine ⟨h.toDouble.digits _, le_trans (by norm_num) (h.toDouble.ge_of_ge (digits_zero 53) ?_),
      h.toDouble.le_of_le hturn ?_⟩ <;> linarith
  · rename_i hpos
    exact ⟨h.toDouble.digits _, by linarith, hhi⟩

theorem fromTarget_self : fromTarget lib rCenter ts place place = 0 := by
  have hmilli := h.toDouble.ge_of_ge (digits_zero 53) (by norm_num : (0 : K) ≤ 0.001)
  unfold fromTarget angleFrom
  simp only [sub_self, h.toDouble.zero]
  exact if_neg (not_lt.2 (neg_nonpos.2 hmilli))

end Ieee

variable [FloorRing K]

/-- No two blades lie in the same sector. -/
def Distinct (lib : Arithmetic K) (rCenter : Point2 K) (ts : List (FanBlade K)) (place : Nat) : Prop :=
  ∀ i < ts.length, ∀ j < ts.length,
    sector lib (fromTarget lib rCenter ts place i) = sector lib (fromTarget lib rCenter ts place j) → i = j

variable [IsStrictOrderedRing K] {rCenter ts place}

omit [FloorRing K] [IsStrictOrderedRing K] in
/-- The blades in the order of their angles. -/
theorem mem_sorted (hplace : place < ts.length) {t : FanBlade K} :
    t ∈ (fillAngles lib rCenter (makeTarget ts place)).mergeSort (fun a b => decide (a.angle ≤ b.angle)) ↔
      ∃ i < ts.length, filled lib rCenter ts place i = t := by
  rw [List.mem_mergeSort, (fillAngles_perm lib rCenter hplace).mem_iff, List.mem_map]
  simp only [List.mem_range]

section Sorted

variable (h : lib.Ieee)

include h

theorem filled_ne_unlit (hplace : place < ts.length) (hdistinct : Distinct lib rCenter ts place) {i : Nat}
    (hi : i < ts.length) : filled lib rCenter ts place i ≠ FanBlade.unlit := by
  intro heq
  have hangle : fromTarget lib rCenter ts place i = 0 := congrArg FanBlade.angle heq
  obtain rfl := hdistinct i hi place hplace (by rw [hangle, fromTarget_self rCenter ts place h])
  have htype : (filled lib rCenter ts i i).type = .target := filled_self_type rCenter ts i
  rw [heq] at htype
  cases htype

theorem near_iff_sector (hplace : place < ts.length) (hdistinct : Distinct lib rCenter ts place)
    (hhalf : ∀ i < ts.length, ¬ HalfWay lib (fromTarget lib rCenter ts place i)) {i : Nat} (hi : i < ts.length) {k : Nat}
    (hk : k < 5) : |fromTarget lib rCenter ts place i - k * (2 * (lib.pi / 5))| < lib.pi / 5 ↔
      sector lib (fromTarget lib rCenter ts place i) = k := by
  have hpi := pi_pos h
  constructor
  · exact sector_of_near h hk
  · rintro rfl
    obtain ⟨-, hlo, hhi⟩ := fromTarget_mem rCenter ts place h i
    refine near_sector h hlo (not_le.1 fun hlast => ?_) (hhalf i hi)
    -- from 324 degrees on a blade would be in the target's sector
    have hne : fromTarget lib rCenter ts place i ≠ 9 * (lib.pi / 5) := by
      intro heq
      refine hhalf i hi ((halfWay_iff h).2 ⟨4, ?_⟩)
      rw [heq]
      norm_num
    have hgt := lt_of_le_of_ne hlast hne.symm
    have hzero : sector lib (fromTarget lib rCenter ts place i) = 0 := by
      rw [← sector_sub_turn h]
      apply sector_of_near h (by norm_num)
      rw [abs_lt]
      push_cast
      constructor <;> linarith
    obtain rfl := hdistinct i hi place hplace (by rw [hzero, fromTarget_self rCenter ts place h, sector_zero])
    rw [fromTarget_self rCenter ts i h] at hlast
    linarith

/-- **In the order of their angles the blades are in the order of their sectors.** -/
theorem sorted_sectors (hplace : place < ts.length) (hdistinct : Distinct lib rCenter ts place)
    (hhalf : ∀ i < ts.length, ¬ HalfWay lib (fromTarget lib rCenter ts place i)) :
    ((fillAngles lib rCenter (makeTarget ts place)).mergeSort fun a b => decide (a.angle ≤ b.angle)).Pairwise
      fun a b => sector lib a.angle < sector lib b.angle := by
  have hangles : ((fillAngles lib rCenter (makeTarget ts place)).mergeSort
      fun a b => decide (a.angle ≤ b.angle)).Pairwise fun a b => decide (a.angle ≤ b.angle) = true :=
    List.pairwise_mergeSort (fun a b c hab hbc => by simp only [decide_eq_true_eq] at *; exact hab.trans hbc)
      (fun a b => by simpa using le_total a.angle b.angle) _
  have hne : ((fillAngles lib rCenter (makeTarget ts place)).mergeSort
      fun a b => decide (a.angle ≤ b.angle)).Pairwise fun a b => sector lib a.angle ≠ sector lib b.angle := by
    refine ((List.mergeSort_perm _ _).trans (fillAngles_perm lib rCenter hplace)).symm.pairwise ?_ fun h => Ne.symm h
    rw [List.pairwise_map]
    refine List.nodup_range.imp_of_mem fun hi hj hij heq => hij ?_
    exact hdistinct _ (List.mem_range.1 hi) _ (List.mem_range.1 hj) heq
  refine (hangles.and hne).imp_of_mem fun {a b} ha hb hab => ?_
  obtain ⟨i, hi, rfl⟩ := (mem_sorted hplace).1 ha
  obtain ⟨j, hj, rfl⟩ := (mem_sorted hplace).1 hb
  obtain ⟨hle, hsec⟩ := hab
  rw [decide_eq_true_eq] at hle
  refine lt_of_le_of_ne (not_lt.1 fun hlt => ?_) hsec
  have hneari := (near_iff_sector h hplace hdistinct hhalf hi (sector_lt lib _)).2 rfl
  have hnearj := (near_iff_sector h hplace hdistinct hhalf hj (sector_lt lib _)).2 rfl
  simp only [filled_angle] at hle hlt
  have hstep : ((sector lib (fromTarget lib rCenter ts place j) : ℕ) : K) + 1 ≤
      (sector lib (fromTarget lib rCenter ts place i) : ℕ) := by
    exact_mod_cast hlt
  have hpi := pi_pos h
  have hmul := mul_le_mul_of_nonneg_right hstep (by positivity : 0 ≤ 2 * (lib.pi / 5))
  rw [abs_lt] at hneari hnearj
  linarith [hneari.1, hnearj.2]

end Sorted

/-! ## The rune -/

/-- **The target that is chosen**: of as many blades as before the nearest to the target before, of one more the farthest
from the lit blades before; by the distances that a `float` holds. -/
structure Chosen (lib : Arithmetic K) (lastPowerrune : Option (PowerRune K)) (ts : List (FanBlade K)) (place : Nat) :
    Prop where
  nearest : ∀ last ∈ lastPowerrune, ts.length = last.lightNum → ∀ t ∈ ts,
    (bladeAt ts place).distance lib (last.fanblades.headD FanBlade.unlit) ≤
      t.distance lib (last.fanblades.headD FanBlade.unlit)
  farthest : ∀ last ∈ lastPowerrune, ts.length = last.lightNum + 1 → ∀ t ∈ ts, ∀ d,
    (∀ b ∈ last.fanblades, b.type ≠ .unlight → d ≤ t.cappedDistance lib b) →
      ∀ b ∈ last.fanblades, b.type ≠ .unlight → d ≤ (bladeAt ts place).cappedDistance lib b

/-- **The blades of a rune are those found**, each once and at its sector, the target first; every other place is unlit. -/
structure Placed (lib : Arithmetic K) (rCenter : Point2 K) (ts : List (FanBlade K)) (place : Nat) (r : PowerRune K) :
    Prop where
  once : ∀ i < ts.length, ∀ k,
    r.fanblades[k]? = some (filled lib rCenter ts place i) ↔ k = sector lib (fromTarget lib rCenter ts place i)
  target : r.fanblades.head? = some (filled lib rCenter ts place place)
  unlit : ∀ k t, r.fanblades[k]? = some t →
    (∀ i < ts.length, k ≠ sector lib (fromTarget lib rCenter ts place i)) → t.type = .unlight
  length_le : r.fanblades.length ≤ 5

variable {lastPowerrune : Option (PowerRune K)}

omit [FloorRing K] [IsStrictOrderedRing K] in
theorem of_eq (hplace : targetPlace lib ts lastPowerrune = some place) :
    PowerRune.of lib ts rCenter lastPowerrune = ⟨rCenter, arrange lib (targetAngles lib)
      ((fillAngles lib rCenter (makeTarget ts place)).mergeSort fun a b => decide (a.angle ≤ b.angle)),
      ts.length, false⟩ := by
  unfold PowerRune.of
  rw [selectTarget_eq, hplace]
  rfl

omit [FloorRing K] [IsStrictOrderedRing K] in
theorem exists_targetPlace (hsolvable : (PowerRune.of lib ts rCenter lastPowerrune).unsolvable = false) :
    ∃ place, targetPlace lib ts lastPowerrune = some place := by
  unfold PowerRune.of at hsolvable
  rw [selectTarget_eq] at hsolvable
  cases hplace : targetPlace lib ts lastPowerrune with
  | none =>
    rw [hplace] at hsolvable
    cases hsolvable
  | some place => exact ⟨place, rfl⟩

section Placing

variable (h : lib.Ieee)

include h

/-- Without a blade half way between sectors every blade has its place. -/
theorem placed_of_not_halfWay (hsome : targetPlace lib ts lastPowerrune = some place) (hplace : place < ts.length)
    (hdistinct : Distinct lib rCenter ts place)
    (hhalf : ∀ i < ts.length, ¬ HalfWay lib (fromTarget lib rCenter ts place i)) :
    Placed lib rCenter ts place (PowerRune.of lib ts rCenter lastPowerrune) := by
  rw [of_eq hsome]
  have hslot : ∀ i < ts.length, (arrange lib (targetAngles lib)
      ((fillAngles lib rCenter (makeTarget ts place)).mergeSort fun a b => decide (a.angle ≤ b.angle)))[
        sector lib (fromTarget lib rCenter ts place i)]? = some (filled lib rCenter ts place i) := by
    intro i hi
    refine arrange_slot lib (fun t => sector lib t.angle) _ 0 _ (fun t _ => ⟨Nat.zero_le _, ?_⟩) ?_
      (sorted_sectors h hplace hdistinct hhalf) _ ((mem_sorted hplace).2 ⟨i, hi, rfl⟩) _ (by simp)
    · have := sector_lt lib t.angle
      simpa [targetAngles] using this
    · intro t ht k angle hk
      obtain ⟨j, hj, rfl⟩ := (mem_sorted hplace).1 ht
      obtain ⟨hk5, rfl⟩ := (targetAngles_get h).1 hk
      rw [zero_add, filled_angle, near_iff h (fromTarget_mem rCenter ts place h j).1 hk5]
      exact near_iff_sector h hplace hdistinct hhalf hj hk5
  have hnear : ∀ k t, (arrange lib (targetAngles lib)
      ((fillAngles lib rCenter (makeTarget ts place)).mergeSort fun a b => decide (a.angle ≤ b.angle)))[k]? =
        some t → t = FanBlade.unlit ∨ ∃ i < ts.length, k = sector lib (fromTarget lib rCenter ts place i) ∧
          filled lib rCenter ts place i = t := by
    intro k t ht
    refine (arrange_near lib _ _ k t ht).imp_right fun ⟨hmem, angle, hk, habs⟩ => ?_
    obtain ⟨i, hi, rfl⟩ := (mem_sorted hplace).1 hmem
    obtain ⟨hk5, rfl⟩ := (targetAngles_get h).1 hk
    refine ⟨i, hi, ?_, rfl⟩
    rw [filled_angle, near_iff h (fromTarget_mem rCenter ts place h i).1 hk5] at habs
    exact ((near_iff_sector h hplace hdistinct hhalf hi hk5).1 habs).symm
  refine ⟨fun i hi k => ⟨fun hk => ?_, fun hk => hk ▸ hslot i hi⟩, ?_, fun k t ht hnone => ?_, ?_⟩
  · rcases hnear k _ hk with hunlit | ⟨j, hj, hkj, heq⟩
    · exact absurd hunlit (filled_ne_unlit h hplace hdistinct hi)
    · rw [hkj]
      exact congrArg (fun t => sector lib t.angle) heq
  · have h0 := hslot place hplace
    rw [fromTarget_self rCenter ts place h, sector_zero] at h0
    rw [List.head?_eq_getElem?]
    exact h0
  · rcases hnear k t ht with rfl | ⟨j, hj, hkj, -⟩
    · rfl
    · exact absurd hkj (hnone j hj)
  · refine (arrange_length_le lib _ _).trans ?_
    simp [targetAngles]

/-- A blade that stands at a place is not half way between sectors. -/
theorem not_halfWay_of_slot (hsome : targetPlace lib ts lastPowerrune = some place) (hplace : place < ts.length)
    (hdistinct : Distinct lib rCenter ts place) {i : Nat} (hi : i < ts.length) {k : Nat}
    (hk : (PowerRune.of lib ts rCenter lastPowerrune).fanblades[k]? = some (filled lib rCenter ts place i)) :
    ¬ HalfWay lib (fromTarget lib rCenter ts place i) := by
  rw [of_eq hsome] at hk
  rcases arrange_near lib _ _ k _ hk with hunlit | ⟨-, angle, hang, habs⟩
  · exact absurd hunlit (filled_ne_unlit h hplace hdistinct hi)
  · obtain ⟨hk5, rfl⟩ := (targetAngles_get h).1 hang
    rw [filled_angle, near_iff h (fromTarget_mem rCenter ts place h i).1 hk5] at habs
    rw [halfWay_iff h]
    rintro ⟨m, hm⟩
    have hpi := pi_pos h
    have hscale : (2 * (m : K) + 1) * (lib.pi / 5) - k * (2 * (lib.pi / 5)) =
        ((2 * (m - k) + 1 : ℤ) : K) * (lib.pi / 5) := by
      push_cast
      ring
    rw [hm, hscale, abs_mul, abs_of_pos (by positivity : 0 < lib.pi / 5)] at habs
    have hone : |((2 * (m - k) + 1 : ℤ) : K)| < 1 := by
      by_contra hge
      have := mul_le_mul_of_nonneg_right (not_lt.1 hge) (by positivity : 0 ≤ lib.pi / 5)
      linarith
    have hint : |(2 * (m - k) + 1 : ℤ)| < 1 := by exact_mod_cast hone
    have := Int.abs_lt_one_iff.1 hint
    omega

omit [FloorRing K] in
theorem distance_nonneg (a b : FanBlade K) : 0 ≤ a.distance lib b := by
  unfold FanBlade.distance
  rw [← h.toFloat_zero]
  refine h.toFloat_mono (h.sqrt_nonneg _ (h.toDouble.ge_of_ge (digits_zero 53) (add_nonneg ?_ ?_)))
  · exact h.toDouble.ge_of_ge (digits_zero 53) (mul_self_nonneg _)
  · exact h.toDouble.ge_of_ge (digits_zero 53) (mul_self_nonneg _)

omit [FloorRing K] in
theorem minDistance_nonneg (lastFanblades : List (FanBlade K)) (t : FanBlade K) : 0 ≤ minDistance lib lastFanblades t := by
  obtain ⟨-, -, heq | ⟨b, -, -, heq⟩⟩ := minDistance_cases lib lastFanblades t
  · rw [heq]
    norm_num [floatMax]
  · rw [heq]
    exact distance_nonneg h t b

end Placing

omit [LinearOrder K] [FloorRing K] [IsStrictOrderedRing K] in
theorem bladeAt_of_getElem? {i : Nat} {t : FanBlade K} (hi : ts[i]? = some t) : bladeAt ts i = t := by
  rw [bladeAt, List.getD_eq_getElem?_getD, hi, Option.getD_some]

omit [FloorRing K] [IsStrictOrderedRing K] in
theorem nearest_of_keepBetter (f : FanBlade K → K) (hts : ts ≠ []) :
    keepBetter (fun a b => decide (a < b)) f ts 0 (f (ts.headD FanBlade.unlit)) 0 < ts.length ∧ ∀ t ∈ ts,
      f (bladeAt ts (keepBetter (fun a b => decide (a < b)) f ts 0 (f (ts.headD FanBlade.unlit)) 0)) ≤ f t := by
  obtain ⟨hkept, hall⟩ | ⟨j, u, hj, hkept, -, hall⟩ := keepBetter_cases (fun a b : K => decide (a < b))
    (by simp) (by simpa using fun x y z => lt_trans) f ts 0 (f (ts.headD FanBlade.unlit)) 0
  · rw [hkept]
    refine ⟨List.length_pos_iff.2 hts, fun t ht => ?_⟩
    have hhead : bladeAt ts 0 = ts.headD FanBlade.unlit := by cases ts <;> rfl
    rw [hhead]
    simpa using hall t ht
  · rw [hkept, zero_add, bladeAt_of_getElem? hj]
    refine ⟨(List.getElem?_eq_some_iff.1 hj).1, fun t ht => ?_⟩
    simpa using hall t ht

omit [FloorRing K] in
theorem farthest_of_keepBetter (f : FanBlade K → K) (hf : ∀ t, 0 ≤ f t) (hts : ts ≠ []) :
    keepBetter (fun a b => decide (a > b)) f ts 0 (-1) 0 < ts.length ∧
      ∀ t ∈ ts, f t ≤ f (bladeAt ts (keepBetter (fun a b => decide (a > b)) f ts 0 (-1) 0)) := by
  obtain ⟨-, hall⟩ | ⟨j, u, hj, hkept, -, hall⟩ := keepBetter_cases (fun a b : K => decide (a > b))
    (by simp) (by simpa using fun x y z hxy hyz => lt_trans hyz hxy) f ts 0 (-1) 0
  · obtain ⟨t, ht⟩ := List.exists_mem_of_ne_nil ts hts
    have hle : f t ≤ -1 := by simpa using hall t ht
    linarith [hf t]
  · rw [hkept, zero_add, bladeAt_of_getElem? hj]
    refine ⟨(List.getElem?_eq_some_iff.1 hj).1, fun t ht => ?_⟩
    simpa using hall t ht

omit [FloorRing K] [IsStrictOrderedRing K] in
/-- A bound of the least distance bounds them all, and a bound of them all the least. -/
theorem le_minDistance_iff {lastFanblades : List (FanBlade K)} {t b : FanBlade K} {d : K} (hb : b ∈ lastFanblades)
    (hlit : b.type ≠ .unlight) : d ≤ minDistance lib lastFanblades t ↔
      ∀ b ∈ lastFanblades, b.type ≠ .unlight → d ≤ t.cappedDistance lib b := by
  obtain ⟨hmax, hle, hattained⟩ := minDistance_cases lib lastFanblades t
  constructor
  · intro h c hc hc'
    exact le_min (h.trans hmax) (h.trans (hle c hc hc'))
  · intro h
    rcases hattained with heq | ⟨c, hc, hc', heq⟩
    · rw [heq]
      exact (h b hb hlit).trans (min_le_left _ _)
    · rw [heq]
      exact (h c hc hc').trans (min_le_right _ _)

omit [FloorRing K] in
theorem chosen_of_targetPlace (h : lib.Ieee) (hts : ts ≠ []) (hsome : targetPlace lib ts lastPowerrune = some place) :
    place < ts.length ∧ Chosen lib lastPowerrune ts place := by
  unfold targetPlace at hsome
  split at hsome
  · rename_i hone
    obtain rfl : 0 = place := by simpa using hsome
    obtain ⟨t, rfl⟩ := List.length_eq_one_iff.1 hone
    refine ⟨by simp, fun last _ _ u hu => ?_, fun last _ _ u hu d hd => ?_⟩
    · rw [List.mem_singleton.1 hu]
      rfl
    · rw [List.mem_singleton.1 hu] at hd
      exact hd
  · cases lastPowerrune with
    | none => cases hsome
    | some last =>
      dsimp only at hsome
      split at hsome
      · rename_i heq
        obtain rfl := Option.some.inj hsome
        obtain ⟨hlt, hle⟩ := nearest_of_keepBetter
          (fun t => t.distance lib (last.fanblades.headD FanBlade.unlit)) hts
        refine ⟨hlt, fun last' hlast _ => ?_, fun last' hlast hgrew => ?_⟩
        · obtain rfl := Option.some.inj hlast
          exact hle
        · obtain rfl := Option.some.inj hlast
          omega
      · rename_i hne
        split at hsome
        · obtain rfl := Option.some.inj hsome
          obtain ⟨hlt, hle⟩ := farthest_of_keepBetter _ (minDistance_nonneg h last.fanblades) hts
          refine ⟨hlt, fun last' hlast hsame => ?_, fun last' hlast _ t ht d hd b hb hlit => ?_⟩
          · obtain rfl := Option.some.inj hlast
            exact absurd hsame hne
          · obtain rfl := Option.some.inj hlast
            rw [← le_minDistance_iff hb hlit] at hd
            exact (le_minDistance_iff hb hlit).1 (hd.trans (hle t ht)) b hb hlit
        · cases hsome

/-- **A rune has all its blades exactly when the angle of none, as a `double`, is half way between two sectors.** -/
theorem power_rune_iff (h : lib.Ieee) (ts : List (FanBlade K)) (rCenter : Point2 K) (lastPowerrune : Option (PowerRune K))
    (hts : ts ≠ []) (hsolvable : (PowerRune.of lib ts rCenter lastPowerrune).unsolvable = false) :
    ∃ place < ts.length, targetPlace lib ts lastPowerrune = some place ∧ (Distinct lib rCenter ts place →
      (Chosen lib lastPowerrune ts place ∧ Placed lib rCenter ts place (PowerRune.of lib ts rCenter lastPowerrune) ↔
        ∀ i < ts.length, ¬ HalfWay lib (fromTarget lib rCenter ts place i))) := by
  obtain ⟨place, hsome⟩ := exists_targetPlace hsolvable
  obtain ⟨hplace, hchosen⟩ := chosen_of_targetPlace h hts hsome
  refine ⟨place, hplace, hsome, fun hdistinct => ⟨fun hr i hi => ?_, fun hhalf => ?_⟩⟩
  · exact not_halfWay_of_slot h hsome hplace hdistinct hi ((hr.2.once i hi _).2 rfl)
  · exact ⟨hchosen, placed_of_not_halfWay h hsome hplace hdistinct hhalf⟩

end Filled

/-! ## In the formats of the machine -/

/-- The directions, as `float`s, of the points that the runes below ask for. -/
def directionOf (y x : ℚ) : ℚ :=
  if y = 0 ∧ 0 < x then 0
  else if x = 0 ∧ 0 < y then 13176795 / 8388608
  else if x = y ∧ x < 0 then -2470649 / 1048576
  else if x = 512 ∧ y = 14764395 / 549755813888 then 14764395 / 281474976710656
  else if x = -278.375 ∧ y = 856.75 then 7906077 / 4194304
  else 0

/-- Everything to the nearest. -/
def binary : Arithmetic ℚ where
  pi := 884279719003555 / 281474976710656
  sqrt q := nearest 53 (Nat.sqrt ⌊q * 4 ^ 100⌋₊ / 2 ^ 100)
  atan _ := 0
  cos _ := 0
  sin _ := 0
  atan2 := directionOf
  toFloat := nearest 24
  toDouble := nearest 53

theorem ieee_binary : binary.Ieee where
  toFloat_mono := (rounds_nearest 23).mono
  toFloat_zero := (rounds_nearest 23).zero
  toDouble := rounds_nearest 52
  sqrt_nonneg q _ := (rounds_nearest 52).ge_of_ge (digits_zero 53) (by positivity)
  pi := by norm_num [binary]
  abs_atan2_le y x := by
    simp only [binary, directionOf]
    split_ifs <;> norm_num [abs_le]

/-- A lit blade as the network finds it. -/
def FanBlade.litAt (x y : ℚ) : FanBlade ℚ := ⟨⟨x, y⟩, [⟨x, y⟩], 0, .light⟩

/-- A rune with two blades lit. -/
def twoLit : PowerRune ℚ :=
  ⟨⟨0, 0⟩, [{ FanBlade.litAt 100 0 with type := .target }, FanBlade.litAt 0 100], 2, false⟩

/-- A third blade at 225 degrees, and the rune keeps all three: the new one is the target. -/
theorem power_rune_third_blade :
    let ts := [FanBlade.litAt 100 0, FanBlade.litAt 0 100, FanBlade.litAt (-100) (-100)]
    Chosen binary (some twoLit) ts 2 ∧ Placed binary ⟨0, 0⟩ ts 2 (PowerRune.of binary ts ⟨0, 0⟩ (some twoLit)) := by
  intro ts
  have hchosen : targetPlace binary ts (some twoLit) = some 2 := by decide +kernel
  have hdistinct : Distinct binary ⟨0, 0⟩ ts 2 := by
    unfold Distinct
    decide +kernel
  obtain ⟨place, -, hsome, hiff⟩ := power_rune_iff ieee_binary ts ⟨0, 0⟩ (some twoLit) (List.cons_ne_nil _ _)
    (by rw [of_eq hchosen])
  obtain rfl : 2 = place := Option.some.inj (hchosen.symm.trans hsome)
  refine (hiff hdistinct).2 ?_
  unfold HalfWay
  decide +kernel

/-- A rune with one blade lit, at 108 degrees. -/
def oneLit : PowerRune ℚ := ⟨⟨0, 0⟩, [{ FanBlade.litAt (-278.375) 856.75 with type := .target }], 1, false⟩

/-- **A blade that is three times 36 degrees from the new target is at none of the five places.** -/
theorem half_way_blade_lost :
    let ts := [FanBlade.litAt (-278.375) 856.75, FanBlade.litAt 512 (14764395 / 549755813888)]
    let r := PowerRune.of binary ts ⟨0, 0⟩ (some oneLit)
    r.unsolvable = false ∧ targetPlace binary ts (some oneLit) = some 1 ∧ Distinct binary ⟨0, 0⟩ ts 1 ∧
      ∀ k : Nat, r.fanblades[k]? ≠ some (filled binary ⟨0, 0⟩ ts 1 0) := by
  intro ts r
  have hchosen : targetPlace binary ts (some oneLit) = some 1 := by decide +kernel
  have hdistinct : Distinct binary ⟨0, 0⟩ ts 1 := by
    unfold Distinct
    decide +kernel
  refine ⟨congrArg PowerRune.unsolvable (of_eq hchosen), hchosen, hdistinct, fun k hk => ?_⟩
  apply not_halfWay_of_slot ieee_binary hchosen (by simp [ts]) hdistinct (by simp [ts]) hk
  unfold HalfWay
  decide +kernel

end Rune
end LfSentry
