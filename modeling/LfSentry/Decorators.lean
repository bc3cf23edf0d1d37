import LfSentry.BehaviorTree
import LfSentry.Rounding
import LfSentry.Runs
import Mathlib.Data.Rat.Floor
/-!
# Decorators — nodes that tick their child by the clock (`plugins/decorator`)

`TickAfterTimeout` skips its child for a while after a success.  `RateController` ticks its child on the first tick of an
activation and whenever a period is over, and goes on with it while it runs; the period starts anew only when the child
succeeds, so after a run that ended otherwise the next ones are not a period apart (`rateController_iff`).  Clock readings
are nanoseconds; `RateController` compares the time that has passed as a `float` with a period that is a `double`.
-/
namespace LfSentry
namespace Behavior

open Vision (deltaTime)
open Rounding (nearest)

variable {K : Type} [Field K] [LinearOrder K]

/-! ## TickAfterTimeout -/

structure TickAfterTimeout where
  lastSuccessTime : Int

/-- The clock at the test and after the child's tick, and the child's answer if it is ticked. -/
structure TimeoutReading where
  now : Int
  answer : NodeStatus
  done : Int

/-- The time since the last success in seconds, of which whole milliseconds are counted. -/
def TickAfterTimeout.dt (node : TickAfterTimeout) (now : Int) : K := ((now - node.lastSuccessTime).tdiv 1000000 : Int) / 1000.0

def TickAfterTimeout.tick (timeout : K) (node : TickAfterTimeout) (r : TimeoutReading) : TickAfterTimeout × NodeStatus :=
  if node.dt r.now < timeout then (node, .skipped)
  else (if r.answer = .success then ⟨r.done⟩ else node, r.answer)

/-- **SKIPPED is what the node answers until the timeout is over, whatever its child would.** -/
theorem TickAfterTimeout.tick_of_early [IsStrictOrderedRing K] {timeout : K} {node : TickAfterTimeout} {r : TimeoutReading}
    (hle : node.lastSuccessTime ≤ r.now) (h : deltaTime r.now node.lastSuccessTime < timeout) :
    node.tick timeout r = (node, .skipped) := by
  have hms : ((r.now - node.lastSuccessTime).tdiv 1000000 : Int) * 1000000 ≤ r.now - node.lastSuccessTime := by
    rw [Int.tdiv_eq_ediv_of_nonneg (by omega)]
    omega
  have hcast : (((r.now - node.lastSuccessTime).tdiv 1000000 : Int) : K) * 1000000 ≤
      ((r.now - node.lastSuccessTime : Int) : K) := by
    exact_mod_cast hms
  have hdt : node.dt r.now ≤ (deltaTime r.now node.lastSuccessTime : K) := by
    unfold TickAfterTimeout.dt deltaTime
    rw [show (1000.0 : K) = 1000 by norm_num, div_le_div_iff₀ (by norm_num) (by norm_num)]
    calc (((r.now - node.lastSuccessTime).tdiv 1000000 : Int) : K) * 10 ^ 9
        = (((r.now - node.lastSuccessTime).tdiv 1000000 : Int) : K) * 1000000 * 1000 := by ring
      _ ≤ ((r.now - node.lastSuccessTime : Int) : K) * 1000 := mul_le_mul_of_nonneg_right hcast (by norm_num)
  exact if_pos (hdt.trans_lt h)

/-! ## RateController -/

structure RateController where
  status : NodeStatus
  start : Int
  firstTime : Bool
  deriving DecidableEq, Repr

namespace RateController

def constructed : RateController := ⟨.idle, 0, false⟩

/-- `duration_cast<duration<float>>` of the time since `start`; `1e9` is a `float`. -/
def seconds (toFloat : K → K) (now start : Int) : K := toFloat (toFloat ((now - start : Int) : K) / 1e9)

/-- What a tick reads: the clock where an activation begins, at the test and after the child's tick; the child's status
before and its answer, if it is ticked. -/
structure Reading where
  opened : Int
  now : Int
  childStatus : NodeStatus
  answer : NodeStatus
  done : Int

section Node

variable (toFloat toDouble : K → K) (hz : K)

def period : K := toDouble (1 / hz)

/-- From IDLE to RUNNING. -/
def opening (node : RateController) (r : Reading) : RateController :=
  if node.status = .idle then { node with start := r.opened, firstTime := true } else node

def ticksChild (node : RateController) (r : Reading) : Prop :=
  node.firstTime = true ∨ r.childStatus = .running ∨ seconds toFloat r.now node.start ≥ period toDouble hz

instance (node : RateController) (r : Reading) : Decidable (node.ticksChild toFloat toDouble hz r) :=
  inferInstanceAs (Decidable (_ ∨ _ ∨ _))

/-- The node, with the status that it returned, and whether it ticked its child. -/
def tick (node : RateController) (r : Reading) : RateController × Bool :=
  if (node.opening r).ticksChild toFloat toDouble hz r then
    match r.answer with
    | .running => (⟨.running, (node.opening r).start, false⟩, true)
    | .success => (⟨.success, r.done, false⟩, true)
    | _ => (⟨.failure, (node.opening r).start, false⟩, true)
  else (⟨.running, (node.opening r).start, (node.opening r).firstTime⟩, false)

/-- A tick, or the node being halted or reset to IDLE. -/
inductive Label
  | tick (r : Reading)
  | reset

/-- The node under ticks and resets; it says whether the child was ticked. -/
def machine : Machine RateController Label Bool where
  step node
    | .tick r => some ((node.tick toFloat toDouble hz r).1, [(node.tick toFloat toDouble hz r).2])
    | .reset => some ({ node with status := .idle }, [])

/-! ## Starts of the child -/

/-- When the activation began or the child last succeeded in it, when it was last started in it, and the newest reading of
the clock. -/
structure Starts where
  since : Int
  lastStart : Option Int
  clock : Int
  deriving DecidableEq, Repr

/-- At a tick that finds the node IDLE an activation begins. -/
def Starts.opened (g : Starts) (node : RateController) (r : Reading) : Starts :=
  if node.status = .idle then ⟨r.opened, none, g.clock⟩ else g

def Starts.ticked (g : Starts) (r : Reading) : Starts :=
  ⟨if r.answer = .success then r.done else g.since, if r.childStatus = .running then g.lastStart else some r.now, r.done⟩

def recorded : Machine (RateController × Starts) Label Bool :=
  (machine toFloat toDouble hz).ghost fun g node label q =>
    match label with
    | .tick r => if q.2 = [true] then (g.opened node r).ticked r else { g.opened node r with clock := r.now }
    | .reset => g

/-- The clock is monotone. -/
def Clocked (p : RateController × Starts) : Label → Prop
  | .tick r => p.2.clock ≤ r.opened ∧ r.opened ≤ r.now ∧ r.now ≤ r.done
  | .reset => True

/-- **The promise**: a tick that starts the child comes a period or more after the start before, in the same activation. -/
def Spaced (p : RateController × Starts) : Label → Prop
  | .tick r => (p.1.opening r).ticksChild toFloat toDouble hz r → r.childStatus ≠ .running →
      ∀ t ∈ (p.2.opened p.1 r).lastStart, 1 / hz ≤ deltaTime r.now t
  | .reset => True

/-- A tick between two runs of the child, within a period of the last start, comes before a period is counted since the
activation began or the child last succeeded. -/
def Waits (p : RateController × Starts) : Label → Prop
  | .tick r => r.childStatus ≠ .running → ∀ t ∈ (p.2.opened p.1 r).lastStart, deltaTime r.now t < 1 / hz →
      seconds toFloat r.now (p.2.opened p.1 r).since < period toDouble hz
  | .reset => True

end Node

/-- While the node is not IDLE the first tick is behind it, and the timer runs since the activation began or the child last
succeeded. -/
def Inv (p : RateController × Starts) : Prop := p.1.status ≠ .idle → p.1.firstTime = false ∧ p.1.start = p.2.since

section Steps

variable {toFloat toDouble : K → K} {hz : K} {p q : RateController × Starts} {label : Label} {r : Reading} {es : List Bool}

/-- **At each step the promise is kept exactly if the tick waits.** -/
theorem spaced_iff_waits (hI : Inv p) : Spaced toFloat toDouble hz p label ↔ Waits toFloat toDouble hz p label := by
  cases label with
  | reset => exact Iff.rfl
  | tick r =>
    by_cases hidle : p.1.status = .idle
    · simp [Spaced, Waits, Starts.opened, hidle]
    · obtain ⟨hfirst, hstart⟩ := hI hidle
      have hopening : p.1.opening r = p.1 := if_neg hidle
      have hopened : p.2.opened p.1 r = p.2 := if_neg hidle
      simp only [Spaced, Waits, hopening, hopened, ticksChild, hfirst, hstart, Bool.false_eq_true, false_or]
      constructor
      · intro h hchild t ht hlt
        by_contra hge
        exact absurd hlt (not_lt.2 (h (Or.inr (not_lt.1 hge)) hchild t ht))
      · intro h hticks hchild t ht
        by_contra hlt
        exact absurd (hticks.resolve_left hchild) (not_le.2 (h hchild t ht (not_le.1 hlt)))

/-- **What a tick does.** -/
theorem tick_cases (toFloat toDouble : K → K) (hz : K) (node : RateController) (r : Reading) :
    (node.tick toFloat toDouble hz r).1.status ≠ .idle ∧ (node.tick toFloat toDouble hz r).1.firstTime = false ∧
      (((node.tick toFloat toDouble hz r).2 = true ∧
          (node.tick toFloat toDouble hz r).1.start = if r.answer = .success then r.done else (node.opening r).start) ∨
        ((node.tick toFloat toDouble hz r).2 = false ∧
          (node.tick toFloat toDouble hz r).1.start = (node.opening r).start)) := by
  unfold tick
  by_cases hticks : (node.opening r).ticksChild toFloat toDouble hz r
  · rw [if_pos hticks]
    cases r.answer <;> simp
  · rw [if_neg hticks]
    have hfirst : (node.opening r).firstTime = false := by
      by_contra hc
      exact hticks (Or.inl (Bool.not_eq_false _ ▸ hc))
    simp [hfirst]

theorem inv_step (hI : Inv p) (hstep : (recorded toFloat toDouble hz).step p label = some (q, es)) : Inv q := by
  obtain ⟨hnode, hq⟩ := Machine.ghost_step.1 hstep
  obtain ⟨node, g⟩ := q
  cases label with
  | reset =>
    simp only [machine, Option.some.injEq, Prod.mk.injEq] at hnode
    rw [← hnode.1]
    exact fun h => absurd rfl h
  | tick r =>
    simp only [machine, Option.some.injEq, Prod.mk.injEq] at hnode
    obtain ⟨rfl, rfl⟩ := hnode
    dsimp only at hq
    have hopened : (p.1.opening r).start = (p.2.opened p.1 r).since := by
      unfold opening Starts.opened
      by_cases hidle : p.1.status = .idle
      · rw [if_pos hidle, if_pos hidle]
      · rw [if_neg hidle, if_neg hidle]
        exact (hI hidle).2
    obtain ⟨-, hfirst, ⟨hticked, hstart⟩ | ⟨hticked, hstart⟩⟩ := tick_cases toFloat toDouble hz p.1 r
    · rw [hticked, if_pos rfl] at hq
      rw [hq]
      exact fun _ => ⟨hfirst, by rw [hstart, hopened]; rfl⟩
    · rw [hticked, if_neg (by simp)] at hq
      rw [hq]
      exact fun _ => ⟨hfirst, hstart.trans hopened⟩

/-- Once the child has succeeded since its last start, a tick starts it too soon only where less than a period is rounded to
one. -/
theorem waits_of_start_le [IsStrictOrderedRing K] (hmono : Monotone toFloat)
    (hle : ∀ t ∈ (p.2.opened p.1 r).lastStart, t ≤ (p.2.opened p.1 r).since)
    (hround : ∀ t ∈ (p.2.opened p.1 r).lastStart, deltaTime r.now t < 1 / hz →
      seconds toFloat r.now t < period toDouble hz) : Waits toFloat toDouble hz p (.tick r) := by
  intro _ t ht hlt
  refine lt_of_le_of_lt (hmono (div_le_div_of_nonneg_right (hmono ?_) (by positivity))) (hround t ht hlt)
  exact_mod_cast sub_le_sub_left (hle t ht) r.now

/-- **In every run the starts are a period apart exactly if the ticks between the runs of the child wait.** -/
theorem rateController_iff (toFloat toDouble : K → K) (hz : K) (g : Starts) (labels : List Label) :
    (recorded toFloat toDouble hz).Along (Spaced toFloat toDouble hz) (constructed, g) labels ↔
      (recorded toFloat toDouble hz).Along (Waits toFloat toDouble hz) (constructed, g) labels :=
  Machine.along_iff (I := Inv) (fun _ _ hI => spaced_iff_waits hI) (fun _ _ _ _ hI _ hstep => inv_step hI hstep)
    fun h => absurd rfl h

end Steps

/-! ## In the formats of the machine -/

def atHertz (hz : ℚ) : Machine (RateController × Starts) Label Bool := recorded (nearest 24) (nearest 53) hz

/-- A tick at a time, at which an idle child answers. -/
def readingAt (t : Int) (answer : NodeStatus) : Reading := ⟨t, t, .idle, answer, t⟩

/-- A child ticked every half second: a run that fails and, a period later, one that succeeds. -/
theorem rateController_iff_halfSeconds :
    (atHertz 1).Along (Spaced (nearest 24) (nearest 53) (1 : ℚ)) (constructed, ⟨0, none, 0⟩)
      [.tick (readingAt 0 .failure), .tick (readingAt 500000000 .failure), .tick (readingAt 1000000000 .success)] := by
  refine (rateController_iff (nearest 24) (nearest 53) (1 : ℚ) _ _).2 ?_
  have h1 : (atHertz 1).step (constructed, ⟨0, none, 0⟩) (.tick (readingAt 0 .failure)) =
      some ((⟨.failure, 0, false⟩, ⟨0, some 0, 0⟩), [true]) := by decide +kernel
  have h2 : (atHertz 1).step (⟨.failure, 0, false⟩, ⟨0, some 0, 0⟩) (.tick (readingAt 500000000 .failure)) =
      some ((⟨.running, 0, false⟩, ⟨0, some 0, 500000000⟩), [false]) := by decide +kernel
  refine (Machine.along_cons_of_step h1).2 ⟨by simp [Waits, Starts.opened, constructed], ?_⟩
  refine (Machine.along_cons_of_step h2).2 ⟨?_, ?_⟩
  · rintro - t ⟨rfl⟩ -
    decide +kernel
  · refine ⟨?_, fun _ _ _ => trivial⟩
    rintro - t ⟨rfl⟩ hlt
    norm_num [deltaTime, readingAt] at hlt

/-- **Failing runs**: started at 0 s and, the period being over, at 1 s, the child is started again at 1.1 s. -/
theorem started_too_soon :
    let failing := [.tick (readingAt 0 .failure), .tick (readingAt 1000000000 .failure), .tick (readingAt 1100000000 .failure)]
    (atHertz 1).Along Clocked (constructed, ⟨0, none, 0⟩) failing ∧
      ¬ (atHertz 1).Along (Spaced (nearest 24) (nearest 53) (1 : ℚ)) (constructed, ⟨0, none, 0⟩) failing := by
  have h1 : (atHertz 1).step (constructed, ⟨0, none, 0⟩) (.tick (readingAt 0 .failure)) =
      some ((⟨.failure, 0, false⟩, ⟨0, some 0, 0⟩), [true]) := by decide +kernel
  have h2 : (atHertz 1).step (⟨.failure, 0, false⟩, ⟨0, some 0, 0⟩) (.tick (readingAt 1000000000 .failure)) =
      some ((⟨.failure, 0, false⟩, ⟨0, some 1000000000, 1000000000⟩), [true]) := by decide +kernel
  intro failing
  constructor
  · rw [Machine.along_cons_of_step h1, Machine.along_cons_of_step h2, Machine.along_cons]
    simp [Clocked, readingAt]
  rw [Machine.along_cons_of_step h1, Machine.along_cons_of_step h2]
  rintro ⟨-, -, hthird, -⟩
  have hticks : (⟨.failure, 0, false⟩ : RateController).ticksChild (nearest 24) (nearest 53) (1 : ℚ)
      (readingAt 1100000000 .failure) := by decide +kernel
  have hspaced := hthird hticks (by decide) 1000000000 rfl
  norm_num [deltaTime, readingAt] at hspaced

-- Half a second less a nanosecond is half a second as a `float`: after a success too the child is started early, by that.
example : (atHertz 2).run (constructed, ⟨0, none, 0⟩) [.tick (readingAt 0 .success), .tick (readingAt 499999999 .success)] =
    some ((⟨.success, 499999999, false⟩, ⟨499999999, some 499999999, 499999999⟩), [true, true]) := by decide +kernel

end RateController

end Behavior
end LfSentry
