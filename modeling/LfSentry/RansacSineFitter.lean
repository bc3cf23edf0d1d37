import Mathlib.Data.List.MinMax
import LfSentry.DualArbiter
import LfSentry.Runs
/-!
# RansacSineFitter — a sine through most of the last speeds (`sp_vision_25/tools/ransac_sine_fitter.cpp`)

`fit` tries curves through random samples and keeps the best, with the number of points near it; the number is not counted
again when points are added, evicted or cleared, so it may be of points that are gone.  What a fit keeps is the first of the
best of its curves or what was there (`tryAll_eq`), and from that, when it describes the points (`fit_describes_iff`).
-/
namespace LfSentry
namespace Vision

/-- A sine `A sin(omega t + phi) + C`. -/
structure Curve (K : Type) where
  A : K
  omega : K
  phi : K
  C : K

/-- `RansacSineFitter::Result` -/
structure FitResult (K : Type) extends Curve K where
  inliers : Int

/-- A `RansacSineFitter`; `fitData` holds times and values, the oldest first. -/
structure RansacSineFitter (K : Type) where
  bestResult : FitResult K
  maxIterations : Nat
  threshold : K
  minOmega : K
  maxOmega : K
  fitData : List (K × K)

/-- What one iteration draws: the indices as they are shuffled, and `omega`. -/
structure Draw (K : Type) where
  indices : List Nat
  omega : K

namespace RansacSineFitter

variable {K : Type} [Field K] [LinearOrder K] (lib : Libm K)
  (solve : List (K × K) → K → Option (K × K × K))

/-- The constructor. -/
def make (maxIterations : Nat) (threshold minOmega maxOmega : K) : RansacSineFitter K :=
  ⟨⟨⟨0, 0, 0, 0⟩, 0⟩, maxIterations, threshold, minOmega, maxOmega, []⟩

def addData (s : RansacSineFitter K) (t v : K) : RansacSineFitter K :=
  let kept :=
    match s.fitData.getLast? with
    | some last => if t - last.1 > 5.0 then [] else s.fitData
    | none => s.fitData
  { s with fitData := kept ++ [(t, v)] }

/-- Whether a point is within the threshold of a curve. -/
def near (threshold : K) (c : Curve K) (p : K × K) : Bool :=
  decide (|p.2 - (c.A * lib.sin (c.omega * p.1 + c.phi) + c.C)| < threshold)

def evaluateInliers (s : RansacSineFitter K) (c : Curve K) : Int := s.fitData.countP (near lib s.threshold c)

/-- The curve of an iteration, if its three points have one: `solve` stands for `fit_partial_model`, which answers the
least-squares `A1 sin + A2 cos + C` of a sample. -/
def candidate (s : RansacSineFitter K) (draw : Draw K) : Option (Curve K) :=
  (solve ((draw.indices.take 3).map fun i => s.fitData.getD i (0, 0)) draw.omega).map fun params =>
    ⟨lib.sqrt (params.1 * params.1 + params.2.1 * params.2.1), draw.omega, lib.atan2 params.2.1 params.1, params.2.2⟩

/-- One iteration of `fit`. -/
def tryOne (s : RansacSineFitter K) (best : FitResult K) (draw : Draw K) : FitResult K :=
  match s.candidate lib solve draw with
  | none => best
  | some c => if s.evaluateInliers lib c > best.inliers then ⟨c, s.evaluateInliers lib c⟩ else best

/-- The loop of `fit`. -/
def tryAll (s : RansacSineFitter K) (draws : List (Draw K)) : FitResult K := draws.foldl (s.tryOne lib solve) s.bestResult

/-- The points that a fit leaves: the oldest is evicted from more than 150. -/
def evicted (s : RansacSineFitter K) : List (K × K) := if s.fitData.length > 150 then s.fitData.tail else s.fitData

def fit (s : RansacSineFitter K) (draws : List (Draw K)) : RansacSineFitter K :=
  if s.fitData.length < 3 then s else { s with bestResult := s.tryAll lib solve draws, fitData := s.evicted }

/-- What `std::shuffle` and the distribution can draw for the iterations of a fit. -/
def CanDraw (s : RansacSineFitter K) (draws : List (Draw K)) : Prop :=
  draws.length = s.maxIterations ∧ ∀ draw ∈ draws,
    draw.indices.Perm (List.range s.fitData.length) ∧ s.minOmega ≤ draw.omega ∧ draw.omega ≤ s.maxOmega

instance (s : RansacSineFitter K) (draws : List (Draw K)) : Decidable (s.CanDraw draws) :=
  inferInstanceAs (Decidable (_ ∧ _))

inductive Op (K : Type)
  | addData (t v : K)
  | fit (draws : List (Draw K))

/-- The operations on a fitter; a `fit` with what it draws. -/
def machine : Machine (RansacSineFitter K) (Op K) Unit where
  step s
    | .addData t v => some (s.addData t v, [])
    | .fit draws => if s.fitData.length < 3 ∨ s.CanDraw draws then some (s.fit lib solve draws, []) else none

/-- The curves that a fit tries. -/
def tried (s : RansacSineFitter K) (draws : List (Draw K)) : List (Curve K) := draws.filterMap (s.candidate lib solve)

/-! ## What a fit keeps -/

variable {lib} {solve} {s : RansacSineFitter K} {draws : List (Draw K)}

/-- **The loop keeps the first of the best curves that it tries, or what was there if none is better.** -/
theorem tryAll_eq : s.tryAll lib solve draws =
    match (s.tried lib solve draws).argmax (s.evaluateInliers lib) with
    | none => s.bestResult
    | some c => if s.evaluateInliers lib c > s.bestResult.inliers then ⟨c, s.evaluateInliers lib c⟩ else s.bestResult := by
  unfold tryAll tried
  induction draws using List.reverseRecOn with
  | nil => rfl
  | append_singleton draws draw ih =>
    rw [List.foldl_append, ih, List.foldl_cons, List.foldl_nil, List.filterMap_append, tryOne]
    cases hc : s.candidate lib solve draw with
    | none => simp [hc]
    | some c =>
      simp only [List.filterMap_cons, hc, List.filterMap_nil, List.argmax_concat]
      cases (draws.filterMap (s.candidate lib solve)).argmax (s.evaluateInliers lib) with
      | none => rfl
      | some b =>
        by_cases hbc : s.evaluateInliers lib b < s.evaluateInliers lib c
        · by_cases hb : s.evaluateInliers lib b > s.bestResult.inliers
          · simp [hb, hbc, hb.trans hbc]
          · simp [hb, hbc]
        · by_cases hb : s.evaluateInliers lib b > s.bestResult.inliers
          · simp [hb, hbc]
          · have hc' : ¬ s.evaluateInliers lib c > s.bestResult.inliers := by omega
            simp [hb, hbc, hc']

theorem tryAll_cases (lib : Libm K) (solve : List (K × K) → K → Option (K × K × K)) (s : RansacSineFitter K)
    (draws : List (Draw K)) :
    (∃ c ∈ s.tried lib solve draws, (s.tried lib solve draws).argmax (s.evaluateInliers lib) = some c ∧
        (∀ b ∈ s.tried lib solve draws, s.evaluateInliers lib b ≤ s.evaluateInliers lib c) ∧
        s.bestResult.inliers < s.evaluateInliers lib c ∧ s.tryAll lib solve draws = ⟨c, s.evaluateInliers lib c⟩) ∨
      ((∀ b ∈ s.tried lib solve draws, s.evaluateInliers lib b ≤ s.bestResult.inliers) ∧
        s.tryAll lib solve draws = s.bestResult) := by
  rw [tryAll_eq]
  cases hc : (s.tried lib solve draws).argmax (s.evaluateInliers lib) with
  | none =>
    rw [List.argmax_eq_none] at hc
    exact .inr ⟨by simp [hc], rfl⟩
  | some c =>
    have hmem := List.argmax_mem hc
    have hle : ∀ b ∈ s.tried lib solve draws, s.evaluateInliers lib b ≤ s.evaluateInliers lib c :=
      fun b hb => List.le_of_mem_argmax hb hc
    by_cases hbest : s.evaluateInliers lib c > s.bestResult.inliers
    · exact .inl ⟨c, hmem, rfl, hle, hbest, if_pos hbest⟩
    · exact .inr ⟨fun b hb => (hle b hb).trans (not_lt.1 hbest), if_neg hbest⟩

/-- The result is of these points: its number is of those near its curve, and no curve tried is near more. -/
structure Describes (lib : Libm K) (solve : List (K × K) → K → Option (K × K × K)) (s : RansacSineFitter K)
    (draws : List (Draw K)) (points : List (K × K)) : Prop where
  inliers : (s.fit lib solve draws).bestResult.inliers =
    points.countP (near lib s.threshold (s.fit lib solve draws).bestResult.toCurve)
  best : ∀ c ∈ s.tried lib solve draws,
    (points.countP (near lib s.threshold c) : Int) ≤ (s.fit lib solve draws).bestResult.inliers

theorem fit_bestResult (h : 3 ≤ s.fitData.length) : (s.fit lib solve draws).bestResult = s.tryAll lib solve draws := by
  rw [fit, if_neg (by omega)]

/-- Of fewer points fewer are near. -/
theorem describes_iff (h : 3 ≤ s.fitData.length) {points : List (K × K)} (hsub : points.Sublist s.fitData) :
    Describes lib solve s draws points ↔ (s.fit lib solve draws).bestResult.inliers =
      points.countP (near lib s.threshold (s.fit lib solve draws).bestResult.toCurve) := by
  refine ⟨fun hd => hd.inliers, fun hinliers => ⟨hinliers, fun c hc => ?_⟩⟩
  have hcount : (points.countP (near lib s.threshold c) : Int) ≤ s.evaluateInliers lib c :=
    Int.ofNat_le.2 hsub.countP_le
  rw [fit_bestResult h]
  refine hcount.trans ?_
  obtain ⟨b, -, -, hle, -, heq⟩ | ⟨hle, heq⟩ := tryAll_cases lib solve s draws
  · rw [heq]
    exact hle c hc
  · rw [heq]
    exact hle c hc

/-- **When the result is of the points that the fit ran on**: a curve tried is better than the number says, or the number
still holds. -/
theorem describes_fitData_iff (h : 3 ≤ s.fitData.length) : Describes lib solve s draws s.fitData ↔
    (∃ c ∈ s.tried lib solve draws, s.bestResult.inliers < s.evaluateInliers lib c) ∨
      s.bestResult.inliers = s.evaluateInliers lib s.bestResult.toCurve := by
  rw [describes_iff h (List.Sublist.refl _), fit_bestResult h]
  obtain ⟨c, hc, -, -, hlt, heq⟩ | ⟨hle, heq⟩ := tryAll_cases lib solve s draws
  · rw [heq]
    exact iff_of_true rfl (.inl ⟨c, hc, hlt⟩)
  · rw [heq]
    refine ⟨.inr, ?_⟩
    rintro (⟨c, hc, hlt⟩ | hinliers)
    · exact absurd (hle c hc) (not_le.2 hlt)
    · exact hinliers

omit [Field K] [LinearOrder K] in
theorem evicted_sublist (s : RansacSineFitter K) : s.evicted.Sublist s.fitData := by
  unfold evicted
  split
  · exact List.tail_sublist _
  · exact List.Sublist.refl _

/-- The oldest point, if it is to be evicted, is not one of those near a curve. -/
def SparesEvicted (lib : Libm K) (s : RansacSineFitter K) (c : Curve K) : Prop :=
  s.fitData.length > 150 → ∀ p ∈ s.fitData.head?, near lib s.threshold c p = false

theorem countP_evicted (c : Curve K) :
    s.evaluateInliers lib c = s.evicted.countP (near lib s.threshold c) ↔ SparesEvicted lib s c := by
  unfold evaluateInliers evicted SparesEvicted
  split
  · rename_i hlen
    cases hdata : s.fitData with
    | nil => simp
    | cons p rest =>
      have hcount : (p :: rest).length > 150 := hdata ▸ hlen
      cases hnear : near lib s.threshold c p with
      | false =>
        refine iff_of_true (by simp [hnear]) fun _ q hq => ?_
        obtain rfl := Option.some.inj hq
        exact hnear
      | true =>
        refine iff_of_false (by simp [hnear]) fun h => ?_
        rw [h hcount p rfl] at hnear
        cases hnear
  · rename_i hlen
    exact iff_of_true rfl fun hgt => absurd hgt hlen

/-- **When it is of the points that the fit leaves**: the best of the curves tried is better than the number says and not
near the point evicted, or none is and the number holds of the points left. -/
theorem describes_evicted_iff (h : 3 ≤ s.fitData.length) : Describes lib solve s draws s.evicted ↔
    (∀ c ∈ (s.tried lib solve draws).argmax (s.evaluateInliers lib),
        s.bestResult.inliers < s.evaluateInliers lib c → SparesEvicted lib s c) ∧
      ((∀ c ∈ s.tried lib solve draws, s.evaluateInliers lib c ≤ s.bestResult.inliers) →
        s.bestResult.inliers = s.evicted.countP (near lib s.threshold s.bestResult.toCurve)) := by
  rw [describes_iff h s.evicted_sublist, fit_bestResult h]
  obtain ⟨c, hc, hmax, -, hlt, heq⟩ | ⟨hle, heq⟩ := tryAll_cases lib solve s draws
  · rw [heq, hmax]
    dsimp only
    rw [countP_evicted]
    constructor
    · intro hspares
      refine ⟨fun b hb _ => ?_, fun hle => absurd (hle c hc) (not_le.2 hlt)⟩
      rw [Option.mem_some_iff] at hb
      exact hb ▸ hspares
    · exact fun h => h.1 c rfl hlt
  · rw [heq]
    refine ⟨fun hinliers => ⟨fun b hb hlt => ?_, fun _ => hinliers⟩, fun h => h.2 hle⟩
    exact absurd (hle b (List.argmax_mem hb)) (not_le.2 hlt)

/-! ## Runs -/

variable (lib) (solve)

/-- After a fit of at least three points the result describes `points` of the fitter before it. -/
def FitLaw (points : RansacSineFitter K → List (K × K)) (s : RansacSineFitter K) : Op K → Prop
  | .addData _ _ => True
  | .fit draws => 3 ≤ s.fitData.length → Describes lib solve s draws (points s)

/-- The condition for the points that a fit runs on. -/
def CountHolds (s : RansacSineFitter K) : Op K → Prop
  | .addData _ _ => True
  | .fit draws => 3 ≤ s.fitData.length →
    (∃ c ∈ s.tried lib solve draws, s.bestResult.inliers < s.evaluateInliers lib c) ∨
      s.bestResult.inliers = s.evaluateInliers lib s.bestResult.toCurve

/-- The condition for the points that it leaves. -/
def CountHoldsLeft (s : RansacSineFitter K) : Op K → Prop
  | .addData _ _ => True
  | .fit draws => 3 ≤ s.fitData.length →
    (∀ c ∈ (s.tried lib solve draws).argmax (s.evaluateInliers lib),
        s.bestResult.inliers < s.evaluateInliers lib c → SparesEvicted lib s c) ∧
      ((∀ c ∈ s.tried lib solve draws, s.evaluateInliers lib c ≤ s.bestResult.inliers) →
        s.bestResult.inliers = s.evicted.countP (near lib s.threshold s.bestResult.toCurve))

/-- What `BigTarget::update` does with its fitter: perhaps a point, and a fit. -/
def updateOps (point : Option (K × K)) (draws : List (Draw K)) : List (Op K) :=
  (point.map fun p => Op.addData p.1 p.2).toList ++ [.fit draws]

variable {lib} {solve}

theorem along_fitLaw_iff (s : RansacSineFitter K) (ops : List (Op K)) :
    ((machine lib solve).Along (FitLaw lib solve fitData) s ops ↔ (machine lib solve).Along (CountHolds lib solve) s ops) ∧
    ((machine lib solve).Along (FitLaw lib solve evicted) s ops ↔
      (machine lib solve).Along (CountHoldsLeft lib solve) s ops) := by
  constructor
  · refine Machine.along_iff (I := fun _ => True) (fun s op _ => ?_) (fun _ _ _ _ _ _ _ => trivial) trivial
    cases op with
    | addData t v => exact Iff.rfl
    | fit draws => exact imp_congr_right describes_fitData_iff
  · refine Machine.along_iff (I := fun _ => True) (fun s op _ => ?_) (fun _ _ _ _ _ _ _ => trivial) trivial
    cases op with
    | addData t v => exact Iff.rfl
    | fit draws => exact imp_congr_right describes_evicted_iff

theorem length_addData_le (s : RansacSineFitter K) (t v : K) : (s.addData t v).fitData.length ≤ s.fitData.length + 1 := by
  unfold addData
  dsimp only
  rw [List.length_append, List.length_singleton]
  split
  · split
    · simp
    · rfl
  · simp

theorem length_fit_le (h : s.fitData.length ≤ 151) : (s.fit lib solve draws).fitData.length ≤ 150 := by
  unfold fit evicted
  split
  · omega
  · dsimp only
    split
    · rw [List.length_tail]
      omega
    · omega

/-- **An update starts with at most 150 points, and never holds more than 151.** -/
theorem length_updateOps (point : Option (K × K)) (hs : s.fitData.length ≤ 150) :
    (machine lib solve).Along (fun s _ => s.fitData.length ≤ 151) s (updateOps point draws) ∧
      ∀ u o, (machine lib solve).run s (updateOps point draws) = some (u, o) → u.fitData.length ≤ 150 := by
  have hfit : ∀ t : RansacSineFitter K, t.fitData.length ≤ 151 →
      (machine lib solve).Along (fun s _ => s.fitData.length ≤ 151) t [.fit draws] ∧
        ∀ u o, (machine lib solve).run t [.fit draws] = some (u, o) → u.fitData.length ≤ 150 := by
    intro t ht
    refine ⟨⟨ht, fun _ _ _ => trivial⟩, fun u o hr => ?_⟩
    obtain ⟨v, es, o', hst, hr', -⟩ := Machine.run_cons.1 hr
    obtain ⟨rfl, -⟩ := Prod.mk.inj (Option.some.inj hr')
    unfold machine at hst
    dsimp only at hst
    split at hst
    · obtain ⟨rfl, -⟩ := Prod.mk.inj (Option.some.inj hst)
      exact length_fit_le ht
    · cases hst
  cases point with
  | none => exact hfit s (by omega)
  | some p =>
    have hadd := s.length_addData_le p.1 p.2
    have hstep : (machine lib solve).step s (.addData p.1 p.2) = some (s.addData p.1 p.2, []) := rfl
    obtain ⟨halong, hrun⟩ := hfit (s.addData p.1 p.2) (by omega)
    refine ⟨(Machine.along_cons_of_step hstep).2 ⟨by omega, halong⟩, fun u o hr => ?_⟩
    obtain ⟨v, es, o', hst, hr', -⟩ := Machine.run_cons.1 hr
    rw [hstep, Option.some.injEq, Prod.mk.injEq] at hst
    exact hrun u o' (hst.1 ▸ hr')

theorem length_updates (updates : List (Option (K × K) × List (Draw K))) (hs : s.fitData.length ≤ 150) :
    (machine lib solve).Along (fun s _ => s.fitData.length ≤ 151) s (updates.flatMap fun u => updateOps u.1 u.2) ∧
      ∀ u o, (machine lib solve).run s (updates.flatMap fun u => updateOps u.1 u.2) = some (u, o) →
        u.fitData.length ≤ 150 := by
  induction updates generalizing s with
  | nil =>
    refine ⟨trivial, fun u o hr => ?_⟩
    obtain ⟨rfl, -⟩ := Prod.mk.inj (Option.some.inj hr)
    exact hs
  | cons update updates ih =>
    obtain ⟨halong, hrun⟩ := @length_updateOps K _ _ lib solve s update.2 update.1 hs
    rw [List.flatMap_cons]
    refine ⟨halong.append fun t o hr => (ih (hrun t o hr)).1, fun u o hr => ?_⟩
    obtain ⟨t, o₁, o₂, hfirst, hrest, -⟩ := Machine.run_append.1 hr
    exact (ih (hrun t o₁ hfirst)).2 u o₂ hrest

/-- **When the result describes the points**, along every run of a fitter: those that the fits run on, and those that they
leave.  The points of `BigTarget::update` are never more than 151. -/
theorem fit_describes_iff (lib : Libm K) (solve : List (K × K) → K → Option (K × K × K)) (maxIterations : Nat)
    (threshold minOmega maxOmega : K) :
    (∀ ops : List (Op K),
      ((machine lib solve).Along (FitLaw lib solve fitData) (make maxIterations threshold minOmega maxOmega) ops ↔
        (machine lib solve).Along (CountHolds lib solve) (make maxIterations threshold minOmega maxOmega) ops) ∧
      ((machine lib solve).Along (FitLaw lib solve evicted) (make maxIterations threshold minOmega maxOmega) ops ↔
        (machine lib solve).Along (CountHoldsLeft lib solve) (make maxIterations threshold minOmega maxOmega) ops)) ∧
    ∀ updates : List (Option (K × K) × List (Draw K)),
      (machine lib solve).Along (fun s _ => s.fitData.length ≤ 151) (make maxIterations threshold minOmega maxOmega)
        (updates.flatMap fun u => updateOps u.1 u.2) ∧
      ∀ u o, (machine lib solve).run (make maxIterations threshold minOmega maxOmega)
        (updates.flatMap fun u => updateOps u.1 u.2) = some (u, o) → u.fitData.length ≤ 151 := by
  refine ⟨fun ops => along_fitLaw_iff _ ops, fun updates => ?_⟩
  obtain ⟨halong, hrun⟩ := @length_updates K _ _ lib solve (make maxIterations threshold minOmega maxOmega) updates
    (Nat.zero_le _)
  exact ⟨halong, fun u o hr => (hrun u o hr).trans (by norm_num)⟩

/-! ### A stale number -/

/-- The curve through a sample of equal values. -/
def solveConstant (sample : List (ℝ × ℝ)) (_ : ℝ) : Option (ℝ × ℝ × ℝ) := some (0, 0, (sample.headD (0, 0)).2)

/-- Four equal speeds, a gap of more than five seconds, and three others. -/
noncomputable def gapOps : List (Op ℝ) :=
  [.addData 0 1, .addData 0.1 1, .addData 0.2 1, .addData 0.3 1, .fit [⟨[0, 1, 2, 3], 1.9⟩],
    .addData 6.0 0, .addData 6.1 0, .addData 6.2 0, .fit [⟨[0, 1, 2], 1.9⟩]]

/-- A fitter of one iteration, as `BigTarget`'s otherwise. -/
noncomputable def gapFitter (best : FitResult ℝ) (points : List (ℝ × ℝ)) : RansacSineFitter ℝ :=
  ⟨best, 1, 0.5, 1.884, 2.0, points⟩

noncomputable def flatCurve : Curve ℝ := ⟨0, 1.9, Dual.realLibm.atan2 0 0, 1⟩

theorem gapFitter_addData (best : FitResult ℝ) (t v : ℝ) :
    (gapFitter best []).addData t v = gapFitter best [(t, v)] := by
  simp [addData, gapFitter]

theorem gapFitter_addData_next (best : FitResult ℝ) (points : List (ℝ × ℝ)) (last : ℝ × ℝ) {t : ℝ} (v : ℝ)
    (h : t - last.1 ≤ 5.0) : (gapFitter best (points ++ [last])).addData t v =
      gapFitter best (points ++ [last] ++ [(t, v)]) := by
  simp [addData, gapFitter, not_lt.2 h]

theorem gapFitter_addData_gap (best : FitResult ℝ) (points : List (ℝ × ℝ)) (last : ℝ × ℝ) {t : ℝ} (v : ℝ)
    (h : 5.0 < t - last.1) : (gapFitter best (points ++ [last])).addData t v = gapFitter best [(t, v)] := by
  simp [addData, gapFitter, h]

theorem near_flatCurve (t : ℝ) : near Dual.realLibm 0.5 flatCurve (t, 1) = true := by
  simp [near, flatCurve]
  norm_num

theorem gapFitter_fit : (gapFitter ⟨⟨0, 0, 0, 0⟩, 0⟩ [(0, 1), (0.1, 1), (0.2, 1), (0.3, 1)]).fit Dual.realLibm
    solveConstant [⟨[0, 1, 2, 3], 1.9⟩] = gapFitter ⟨flatCurve, 4⟩ [(0, 1), (0.1, 1), (0.2, 1), (0.3, 1)] := by
  have hcandidate : (gapFitter ⟨⟨0, 0, 0, 0⟩, 0⟩ [(0, 1), (0.1, 1), (0.2, 1), (0.3, 1)]).candidate Dual.realLibm
      solveConstant ⟨[0, 1, 2, 3], 1.9⟩ = some flatCurve := by
    have hsqrt : Dual.realLibm.sqrt (0 * 0 + 0 * 0) = 0 := by
      rw [mul_zero, add_zero]
      exact Real.sqrt_zero
    simp only [candidate, solveConstant, Option.map_some, hsqrt, flatCurve, gapFitter, List.take, List.map_cons,
      List.getD_cons_zero, List.headD_cons]
  have hinliers : (gapFitter ⟨⟨0, 0, 0, 0⟩, 0⟩ [(0, 1), (0.1, 1), (0.2, 1), (0.3, 1)]).evaluateInliers Dual.realLibm
      flatCurve = 4 := by
    simp [evaluateInliers, gapFitter, near_flatCurve]
  simp only [fit, tryAll, List.foldl_cons, List.foldl_nil, tryOne, hcandidate, hinliers]
  simp [gapFitter, evicted]

/-- **The number of a curve through points that are gone**: four, of the three that there are. -/
theorem gap_stale : ¬ (machine Dual.realLibm solveConstant).Along (FitLaw Dual.realLibm solveConstant fitData)
    (make 1 0.5 1.884 2.0) gapOps := by
  have hadd : ∀ (s : RansacSineFitter ℝ) (t v : ℝ),
      (machine Dual.realLibm solveConstant).step s (.addData t v) = some (s.addData t v, []) := fun s t v => rfl
  have hfit : (machine Dual.realLibm solveConstant).step
      (gapFitter ⟨⟨0, 0, 0, 0⟩, 0⟩ [(0, 1), (0.1, 1), (0.2, 1), (0.3, 1)]) (.fit [⟨[0, 1, 2, 3], 1.9⟩]) =
        some (gapFitter ⟨flatCurve, 4⟩ [(0, 1), (0.1, 1), (0.2, 1), (0.3, 1)], []) := by
    rw [← gapFitter_fit]
    refine if_pos (.inr ⟨rfl, ?_⟩)
    simp only [List.mem_singleton, forall_eq]
    refine ⟨List.Perm.of_eq rfl, ?_, ?_⟩ <;> norm_num [gapFitter]
  have hfour : ((((make 1 0.5 1.884 2.0 : RansacSineFitter ℝ).addData 0 1).addData 0.1 1).addData 0.2 1).addData 0.3 1 =
      gapFitter ⟨⟨0, 0, 0, 0⟩, 0⟩ [(0, 1), (0.1, 1), (0.2, 1), (0.3, 1)] := by
    rw [show (make 1 0.5 1.884 2.0 : RansacSineFitter ℝ) = gapFitter ⟨⟨0, 0, 0, 0⟩, 0⟩ [] from rfl, gapFitter_addData]
    rw [show [((0 : ℝ), (1 : ℝ))] = [] ++ [(0, 1)] from rfl, gapFitter_addData_next _ _ _ _ (by norm_num),
      gapFitter_addData_next _ _ _ _ (by norm_num), gapFitter_addData_next _ _ _ _ (by norm_num)]
    rfl
  have hthree : (((gapFitter ⟨flatCurve, 4⟩ [(0, 1), (0.1, 1), (0.2, 1), (0.3, 1)]).addData 6.0 0).addData
      6.1 0).addData 6.2 0 = gapFitter ⟨flatCurve, 4⟩ [(6.0, 0), (6.1, 0), (6.2, 0)] := by
    rw [show [((0 : ℝ), (1 : ℝ)), (0.1, 1), (0.2, 1), (0.3, 1)] = [(0, 1), (0.1, 1), (0.2, 1)] ++ [(0.3, 1)] from rfl,
      gapFitter_addData_gap _ _ _ _ (by norm_num), show [((6.0 : ℝ), (0 : ℝ))] = [] ++ [(6.0, 0)] from rfl,
      gapFitter_addData_next _ _ _ _ (by norm_num), gapFitter_addData_next _ _ _ _ (by norm_num)]
    rfl
  rw [(along_fitLaw_iff _ _).1, gapOps]
  simp only [Machine.along_cons_of_step (hadd _ _ _), hfour, Machine.along_cons_of_step hfit, hthree]
  rintro ⟨-, -, -, -, -, -, -, -, hlast, -⟩
  -- four is more than three points can have near any curve
  have hle : ∀ c, (gapFitter ⟨flatCurve, 4⟩ [(6.0, 0), (6.1, 0), (6.2, 0)]).evaluateInliers Dual.realLibm c ≤ 3 :=
    fun c => Int.ofNat_le.2 List.countP_le_length
  obtain ⟨c, -, hlt⟩ | hcount := hlast (by simp [gapFitter])
  · exact absurd (hle c) (not_le.2 ((by norm_num : (3 : Int) < 4).trans hlt))
  · have h := hle (gapFitter ⟨flatCurve, 4⟩ [(6.0, 0), (6.1, 0), (6.2, 0)]).bestResult.toCurve
    rw [← hcount] at h
    exact absurd h (by simp [gapFitter])

end RansacSineFitter

end Vision
end LfSentry
