import LfSentry.DualArbiter
import LfSentry.Runs
/-!
# BuffDetector — the rune detector's status over a run of frames (`sp_vision_25/tasks/auto_buff/buff_detector.cpp`)

`detect` and `detect_24` build a `PowerRune` from the blades of a frame and the rune remembered, and count the calls that
get none.  What the network finds and where the centre of the rune is, the frame says.  Points and distances are `float`s,
angles `double`s.

After the `LOSE_MAX`-th failure in a row the rune is forgotten, but the status is not `LOSE`: `handle_lose` sets it and
then writes `TEM_LOSE` over it (`status_in_step_iff`).
-/
namespace LfSentry
namespace Rune

open Vision (Libm)

/-- The numbers that `float` and `double` round to, and the C library's functions on them: `atan2` that of `float`. -/
structure Arithmetic (K : Type) extends Libm K where
  toFloat : K → K
  toDouble : K → K

variable {K : Type} [Field K] [LinearOrder K] (lib : Arithmetic K)

/-! ## PowerRune -/

/-- `cv::Point2f` -/
structure Point2 (K : Type) where
  x : K
  y : K

def Point2.sub (p q : Point2 K) : Point2 K := ⟨lib.toFloat (p.x - q.x), lib.toFloat (p.y - q.y)⟩

/-- `cv::norm` -/
def Point2.norm (p : Point2 K) : K := lib.sqrt (lib.toDouble (lib.toDouble (p.x * p.x) + lib.toDouble (p.y * p.y)))

inductive FanBladeType
  | target
  | unlight
  | light
  deriving DecidableEq, Repr

structure FanBlade (K : Type) where
  center : Point2 K
  points : List (Point2 K)
  angle : K
  type : FanBladeType

/-- `float distance = norm(a.center - b.center)` -/
def FanBlade.distance (a b : FanBlade K) : K := lib.toFloat ((a.center.sub lib b.center).norm lib)

/-- `FanBlade(kpt, kpt[4], _light)`; a box of the network has ten key points. -/
def FanBlade.ofBox (kpt : Fin 10 → Point2 K) : FanBlade K := ⟨kpt ⟨4, by decide⟩, List.ofFn kpt, 0, .light⟩

/-- `FanBlade(_unlight)` -/
def FanBlade.unlit : FanBlade K := ⟨⟨0, 0⟩, [], 0, .unlight⟩

structure PowerRune (K : Type) where
  rCenter : Point2 K
  fanblades : List (FanBlade K)
  lightNum : Nat
  unsolvable : Bool

/-- The loops that keep the first blade at which `f` is better than at every one before: its place. -/
def keepBetter (better : K → K → Bool) (f : FanBlade K → K) : List (FanBlade K) → Nat → K → Nat → Nat
  | [], _, _, kept => kept
  | t :: ts, place, best, kept =>
    if better (f t) best then keepBetter better f ts (place + 1) (f t) place
    else keepBetter better f ts (place + 1) best kept

/-- The blade at `place` becomes the target and changes places with the first. -/
def makeTarget (ts : List (FanBlade K)) (place : Nat) : List (FanBlade K) :=
  match ts, ts[place]? with
  | first :: _, some t => (ts.set place first).set 0 { t with type := .target }
  | _, _ => ts

/-- The distance of a blade to the nearest lit one of the last rune, from `numeric_limits<float>::max()` down. -/
def minDistance (lastFanblades : List (FanBlade K)) (t : FanBlade K) : K :=
  lastFanblades.foldl (fun best blade =>
    if blade.type = .unlight then best
    else if t.distance lib blade < best then t.distance lib blade else best) 340282346638528859811704183484516925440.0

/-- The blades with the target first, where the constructor finds one. -/
def selectTarget (ts : List (FanBlade K)) (lastPowerrune : Option (PowerRune K)) : Option (List (FanBlade K)) :=
  if ts.length = 1 then some (makeTarget ts 0)
  else
    match lastPowerrune with
    | none => none
    | some last =>
      if ts.length = last.lightNum then
        let near : FanBlade K → K := fun t => t.distance lib (last.fanblades.headD FanBlade.unlit)
        some (makeTarget ts (keepBetter (fun a b => decide (a < b)) near ts 0 (near (ts.headD FanBlade.unlit)) 0))
      else if ts.length = last.lightNum + 1 then
        some (makeTarget ts (keepBetter (fun a b => decide (a > b)) (minDistance lib last.fanblades) ts 0 (-1) 0))
      else none

def atanAngle (rCenter point : Point2 K) : K :=
  let v := point.sub lib rCenter
  let angle := lib.atan2 v.y v.x
  if angle ≥ 0 then angle else lib.toDouble (angle + 2.0 * lib.pi)

/-- `FanBlade.angle`, from the target on. -/
def fillAngles (rCenter : Point2 K) (ts : List (FanBlade K)) : List (FanBlade K) :=
  let angle := atanAngle lib rCenter (ts.headD FanBlade.unlit).center
  ts.map fun t =>
    let a := lib.toDouble (atanAngle lib rCenter t.center - angle)
    { t with angle := if a < -lib.toDouble 0.001 then lib.toDouble (a + 2.0 * lib.pi) else a }

/-- The blades at the five places of a rune; a place that none of them is near is unlit. -/
def arrange : List K → List (FanBlade K) → List (FanBlade K)
  | [], _ => []
  | _, [] => []
  | angle :: angles, t :: ts =>
    if |lib.toDouble (t.angle - angle)| < lib.toDouble (lib.pi / 5.0) then t :: arrange angles ts
    else FanBlade.unlit :: arrange angles (t :: ts)

def targetAngles : List K :=
  0 :: [2.0, 4.0, 6.0, 8.0].map fun k => lib.toDouble (lib.toDouble (k * lib.pi) / 5.0)

/-- `PowerRune::PowerRune` -/
def PowerRune.of (ts : List (FanBlade K)) (rCenter : Point2 K) (lastPowerrune : Option (PowerRune K)) : PowerRune K :=
  match selectTarget lib ts lastPowerrune with
  | none => ⟨rCenter, [], ts.length, true⟩
  | some selected =>
    -- std::sort; in which order it leaves equal angles is open
    let sorted := (fillAngles lib rCenter selected).mergeSort fun a b => decide (a.angle ≤ b.angle)
    ⟨rCenter, arrange lib (targetAngles lib) sorted, ts.length, false⟩

/-! ## Buff_Detector -/

inductive TrackStatus
  | track
  | temLose
  | lose
  deriving DecidableEq, Repr

def loseMax : Nat := 20

structure BuffDetector (K : Type) where
  status : TrackStatus
  lose : Nat
  lastPowerrune : Option (PowerRune K)

/-- `Buff_Detector::Buff_Detector` -/
def BuffDetector.fresh : BuffDetector K := ⟨.lose, 0, none⟩

/-- What a call gets of its image: the boxes of the network, and `get_r_center` of their blades. -/
structure Frame (K : Type) where
  results : List (Fin 10 → Point2 K)
  rCenter : List (FanBlade K) → Point2 K

namespace BuffDetector

def handleLose (d : BuffDetector K) : BuffDetector K :=
  let d1 := { d with lose := d.lose + 1 }
  let d2 := if d1.lose ≥ loseMax then { d1 with status := .lose, lastPowerrune := none } else d1
  { d2 with status := .temLose }

/-- What `detect` and `detect_24` do with the blades they take. -/
def detectBlades (d : BuffDetector K) (fanblades : List (FanBlade K)) (frame : Frame K) :
    BuffDetector K × Option (PowerRune K) :=
  let powerrune := PowerRune.of lib fanblades (frame.rCenter fanblades) d.lastPowerrune
  if powerrune.unsolvable then (d.handleLose, none)
  else (⟨.track, 0, some powerrune⟩, some powerrune)

def detect24 (d : BuffDetector K) (frame : Frame K) : BuffDetector K × Option (PowerRune K) :=
  if frame.results.isEmpty then (d.handleLose, none)
  else d.detectBlades lib (frame.results.map FanBlade.ofBox) frame

def detect (d : BuffDetector K) (frame : Frame K) : BuffDetector K × Option (PowerRune K) :=
  match frame.results with
  | [] => (d.handleLose, none)
  | result :: _ => d.detectBlades lib [FanBlade.ofBox result] frame

end BuffDetector

inductive DetectCall (K : Type)
  | detect (frame : Frame K)
  | detect24 (frame : Frame K)

def DetectCall.apply (d : BuffDetector K) : DetectCall K → BuffDetector K × Option (PowerRune K)
  | detect frame => d.detect lib frame
  | detect24 frame => d.detect24 lib frame

def detector : Machine (BuffDetector K) (DetectCall K) (Option (PowerRune K)) where
  step d c := some ((c.apply lib d).1, [(c.apply lib d).2])

/-! ## What a history of answers says -/

/-- The calls without a rune since the last one with a rune. -/
def failures {R : Type} (o : List (Option R)) : Nat := (o.reverse.takeWhile Option.isNone).length

def lastFound {R : Type} (o : List (Option R)) : Option R := o.reverse.findSome? id

@[simp] theorem failures_append_none {R : Type} (o : List (Option R)) : failures (o ++ [none]) = failures o + 1 := by
  simp [failures]

@[simp] theorem failures_append_some {R : Type} (o : List (Option R)) (r : R) : failures (o ++ [some r]) = 0 := by
  simp [failures]

@[simp] theorem lastFound_append_none {R : Type} (o : List (Option R)) : lastFound (o ++ [none]) = lastFound o := by
  simp [lastFound]

@[simp] theorem lastFound_append_some {R : Type} (o : List (Option R)) (r : R) :
    lastFound (o ++ [some r]) = some r := by
  simp [lastFound]

/-- Status and rune are what the answers up to now ask for. -/
structure InStep (d : BuffDetector K) (o : List (Option (PowerRune K))) : Prop where
  track : d.status = .track ↔ ∃ r, o.getLast? = some (some r)
  lose : d.status = .lose ↔ failures o ≥ loseMax
  temLose : d.status = .temLose ↔ ¬ (∃ r, o.getLast? = some (some r)) ∧ ¬ failures o ≥ loseMax
  lastPowerrune : ∀ r, d.lastPowerrune = some r ↔ lastFound o = some r ∧ failures o < loseMax

/-! ## A call -/

/-- Blades that `PowerRune::PowerRune` finds a target among. -/
def Recognised (ts : List (FanBlade K)) (lastPowerrune : Option (PowerRune K)) : Prop :=
  ts.length = 1 ∨ ∃ last ∈ lastPowerrune, ts.length = last.lightNum ∨ ts.length = last.lightNum + 1

/-- The boxes of the call's frame make a rune. -/
def DetectCall.Finds (d : BuffDetector K) : DetectCall K → Prop
  | detect frame => frame.results ≠ []
  | detect24 frame => frame.results ≠ [] ∧ Recognised (frame.results.map FanBlade.ofBox) d.lastPowerrune

variable {lib}

variable (lib) in
theorem selectTarget_eq_none_iff {ts : List (FanBlade K)} {lastPowerrune : Option (PowerRune K)} :
    selectTarget lib ts lastPowerrune = none ↔ ¬ Recognised ts lastPowerrune := by
  unfold selectTarget Recognised
  by_cases h1 : ts.length = 1
  · simp [h1]
  · rw [if_neg h1]
    cases lastPowerrune with
    | none => simp [h1]
    | some last =>
      by_cases h2 : ts.length = last.lightNum
      · simp [h2]
      · by_cases h3 : ts.length = last.lightNum + 1 <;> simp [h1, h2, h3]

theorem unsolvable_iff {ts : List (FanBlade K)} {rCenter : Point2 K} {lastPowerrune : Option (PowerRune K)} :
    (PowerRune.of lib ts rCenter lastPowerrune).unsolvable = true ↔ ¬ Recognised ts lastPowerrune := by
  rw [← selectTarget_eq_none_iff lib]
  unfold PowerRune.of
  cases selectTarget lib ts lastPowerrune <;> simp

variable (lib) in
theorem detectBlades_cases (d : BuffDetector K) (ts : List (FanBlade K)) (frame : Frame K) :
    (Recognised ts d.lastPowerrune ∧ ∃ r, d.detectBlades lib ts frame = (⟨.track, 0, some r⟩, some r)) ∨
      (¬ Recognised ts d.lastPowerrune ∧ d.detectBlades lib ts frame = (d.handleLose, none)) := by
  unfold BuffDetector.detectBlades
  by_cases h : Recognised ts d.lastPowerrune
  · refine .inl ⟨h, PowerRune.of lib ts (frame.rCenter ts) d.lastPowerrune, if_neg ?_⟩
    rw [unsolvable_iff]
    exact not_not_intro h
  · exact .inr ⟨h, if_pos (unsolvable_iff.2 h)⟩

variable (lib) in
theorem detect_cases (d : BuffDetector K) (frame : Frame K) :
    (frame.results ≠ [] ∧ ∃ r, d.detect lib frame = (⟨.track, 0, some r⟩, some r)) ∨
      (frame.results = [] ∧ d.detect lib frame = (d.handleLose, none)) := by
  unfold BuffDetector.detect
  cases frame.results with
  | nil => exact .inr ⟨rfl, rfl⟩
  | cons result rest =>
    rcases detectBlades_cases lib d [FanBlade.ofBox result] frame with ⟨-, hr⟩ | ⟨hn, -⟩
    · exact .inl ⟨List.cons_ne_nil _ _, hr⟩
    · exact absurd (.inl rfl) hn

theorem detect24_cases (d : BuffDetector K) (frame : Frame K) :
    ((frame.results ≠ [] ∧ Recognised (frame.results.map FanBlade.ofBox) d.lastPowerrune) ∧
        ∃ r, d.detect24 lib frame = (⟨.track, 0, some r⟩, some r)) ∨
      (¬ (frame.results ≠ [] ∧ Recognised (frame.results.map FanBlade.ofBox) d.lastPowerrune) ∧
        d.detect24 lib frame = (d.handleLose, none)) := by
  unfold BuffDetector.detect24
  by_cases hres : frame.results = []
  · exact .inr ⟨fun h => h.1 hres, if_pos (List.isEmpty_iff.2 hres)⟩
  · rw [if_neg (fun h => hres (List.isEmpty_iff.1 h))]
    rcases detectBlades_cases lib d (frame.results.map FanBlade.ofBox) frame with ⟨hrec, hr⟩ | ⟨hn, hr⟩
    · exact .inl ⟨⟨hres, hrec⟩, hr⟩
    · exact .inr ⟨fun h => hn h.2, hr⟩

variable (lib) in
/-- **What a call does**: with a rune it tracks it and counts from 0; without, it is a loss. -/
theorem apply_cases (d : BuffDetector K) (c : DetectCall K) :
    (c.Finds d ∧ ∃ r, c.apply lib d = (⟨.track, 0, some r⟩, some r)) ∨
      (¬ c.Finds d ∧ c.apply lib d = (d.handleLose, none)) := by
  cases c with
  | detect frame =>
    rcases detect_cases lib d frame with h | ⟨hres, hr⟩
    · exact .inl h
    · exact .inr ⟨fun h => h hres, hr⟩
  | detect24 frame => exact detect24_cases d frame

/-! ## A run -/

/-- What the answers up to now and the detector have in common in every run. -/
structure Recorded (d : BuffDetector K) (o : List (Option (PowerRune K))) : Prop where
  lose : d.lose = failures o
  lastPowerrune : ∀ r, d.lastPowerrune = some r ↔ lastFound o = some r ∧ failures o < loseMax

omit [Field K] [LinearOrder K] in
theorem handleLose_status (d : BuffDetector K) : d.handleLose.status = .temLose := rfl

omit [Field K] [LinearOrder K] in
theorem handleLose_lose (d : BuffDetector K) : d.handleLose.lose = d.lose + 1 := by
  unfold BuffDetector.handleLose
  dsimp only
  split <;> rfl

omit [Field K] [LinearOrder K] in
theorem handleLose_lastPowerrune (d : BuffDetector K) :
    d.handleLose.lastPowerrune = if d.lose + 1 ≥ loseMax then none else d.lastPowerrune := by
  unfold BuffDetector.handleLose
  dsimp only
  split <;> rfl

omit [Field K] [LinearOrder K] in
theorem recorded_fresh : Recorded (BuffDetector.fresh : BuffDetector K) [] where
  lose := rfl
  lastPowerrune r := by simp [BuffDetector.fresh, lastFound]

omit [Field K] [LinearOrder K] in
theorem recorded_found (o : List (Option (PowerRune K))) (r : PowerRune K) :
    Recorded ⟨.track, 0, some r⟩ (o ++ [some r]) where
  lose := (failures_append_some o r).symm
  lastPowerrune r' := by simp [loseMax]

omit [Field K] [LinearOrder K] in
theorem recorded_handleLose {d : BuffDetector K} {o : List (Option (PowerRune K))} (h : Recorded d o) :
    Recorded d.handleLose (o ++ [none]) where
  lose := by rw [handleLose_lose, failures_append_none, h.lose]
  lastPowerrune r := by
    rw [handleLose_lastPowerrune, failures_append_none, lastFound_append_none, ← h.lose]
    by_cases hmax : d.lose + 1 ≥ loseMax
    · rw [if_pos hmax]
      exact ⟨fun hr => (by cases hr), fun hr => absurd hr.2 (Nat.not_lt.2 hmax)⟩
    · rw [if_neg hmax, h.lastPowerrune, ← h.lose]
      exact and_congr_right fun _ => ⟨fun _ => Nat.lt_of_not_ge hmax, fun hlt => Nat.lt_of_succ_lt hlt⟩

variable (lib) in
/-- **One call keeps the record; status and rune stay in step unless it is a failure too many.** -/
theorem apply_recorded {d : BuffDetector K} {o : List (Option (PowerRune K))} (h : Recorded d o) (c : DetectCall K) :
    Recorded (c.apply lib d).1 (o ++ [(c.apply lib d).2]) ∧
      (InStep (c.apply lib d).1 (o ++ [(c.apply lib d).2]) ↔ c.Finds d ∨ d.lose + 1 < loseMax) := by
  rcases apply_cases lib d c with ⟨hf, r, hr⟩ | ⟨hf, hr⟩
  · rw [hr]
    have hrec := recorded_found o r
    refine ⟨hrec, iff_of_true ⟨?_, ?_, ?_, hrec.lastPowerrune⟩ (.inl hf)⟩ <;> simp [loseMax]
  · rw [hr]
    have hrec := recorded_handleLose h
    refine ⟨hrec, ?_⟩
    rw [or_iff_right hf, h.lose, ← failures_append_none]
    constructor
    · intro hin
      exact Nat.lt_of_not_ge (hin.temLose.1 (handleLose_status d)).2
    · intro hmax
      have hno : ¬ failures (o ++ [none]) ≥ loseMax := Nat.not_le.2 hmax
      refine ⟨?_, ?_, ?_, hrec.lastPowerrune⟩ <;> rw [handleLose_status] <;> simp [hno, -failures_append_none]

theorem recorded_of_run {cs : List (DetectCall K)} {d : BuffDetector K} {o : List (Option (PowerRune K))}
    (hr : (detector lib).run .fresh cs = some (d, o)) : Recorded d o := by
  induction cs using List.reverseRecOn generalizing d o with
  | nil =>
    simp only [Machine.run_nil, Option.some.injEq, Prod.mk.injEq] at hr
    rw [← hr.1, ← hr.2]
    exact recorded_fresh
  | append_singleton cs c ih =>
    obtain ⟨e, o₁, o₂, h1, h2, rfl⟩ := Machine.run_append.1 hr
    obtain ⟨t, es, o', hst, hnil, rfl⟩ := Machine.run_cons.1 h2
    cases hst
    cases hnil
    exact (apply_recorded lib (ih h1) c).1

variable (lib) in
theorem run_total : ∀ (cs : List (DetectCall K)) (d : BuffDetector K), ∃ e o, (detector lib).run d cs = some (e, o)
  | [], d => ⟨d, [], rfl⟩
  | c :: cs, d => by
    obtain ⟨e, o, hr⟩ := run_total cs (c.apply lib d).1
    exact ⟨e, (c.apply lib d).2 :: o, Machine.run_cons.2 ⟨_, _, o, rfl, hr, rfl⟩⟩

/-- **Status and rune stay in step through a run, exactly while no call is a failure too many.** -/
theorem status_in_step_iff (cs : List (DetectCall K)) :
    (∀ pre d o, pre <+: cs → pre ≠ [] → (detector lib).run .fresh pre = some (d, o) → InStep d o) ↔
      (detector lib).Along (fun d c => c.Finds d ∨ d.lose + 1 < loseMax) .fresh cs := by
  induction cs using List.reverseRecOn with
  | nil => exact iff_of_true (fun pre _ _ hpre hne => absurd (List.prefix_nil.1 hpre) hne) trivial
  | append_singleton cs c ih =>
    obtain ⟨d, o, hd⟩ := run_total lib cs .fresh
    have hlast : (detector lib).run .fresh (cs ++ [c]) = some ((c.apply lib d).1, o ++ [(c.apply lib d).2]) :=
      Machine.run_append.2 ⟨d, o, _, hd, rfl, rfl⟩
    have hstep := (apply_recorded lib (recorded_of_run hd) c).2
    rw [Machine.along_append hd, Machine.along_cons_of_step rfl, and_iff_left (Machine.along_nil ..), ← ih, ← hstep]
    constructor
    · intro h
      exact ⟨fun pre e q hpre => h pre e q (hpre.trans (List.prefix_append cs [c])),
        h (cs ++ [c]) _ _ (List.prefix_refl _) (List.concat_ne_nil c cs) hlast⟩
    · rintro ⟨h, hin⟩ pre e q hpre hne hr
      rcases List.prefix_concat_iff.1 hpre with rfl | hpre
      · rw [hlast] at hr
        cases hr
        exact hin
      · exact h pre e q hpre hne hr

/-- Without rounding. -/
noncomputable def exactReal : Arithmetic ℝ := { Vision.Dual.realLibm with toFloat := id, toDouble := id }

def Frame.blank {K : Type} [Field K] : Frame K := ⟨[], fun _ => ⟨0, 0⟩⟩

/-- **Twenty blank frames**: the rune is given up and the status is `TEM_LOSE`. -/
theorem temLose_after_twenty_losses :
    ∃ o, (detector exactReal).run .fresh (List.replicate 20 (.detect .blank)) = some (⟨.temLose, 20, none⟩, o) ∧
      failures o ≥ loseMax ∧ ¬ InStep (⟨.temLose, 20, none⟩ : BuffDetector ℝ) o := by
  refine ⟨List.replicate 20 none, rfl, by decide, fun h => ?_⟩
  have hlose := h.lose.2 (by decide)
  cases hlose

end Rune
end LfSentry
