import LfSentry.RefereeAward
import LfSentry.Stopwatch
import Mathlib.Data.List.DropRight
/-!
# RefereeTimer — what the game timer shows

The timer keeps its start moved back by what had elapsed, so that one subtraction gives the game time; read so it is a
stopwatch (`GameTimer.watch`).  After any calls it shows the length of the intervals it ran since the last reset
(`gameTimer_accumulates`), and in every run of the referee those are the intervals that the commands started and stopped
(`gameTime_of_run`).
-/
namespace LfSentry
namespace Referee

open Stopwatch (Turn Watch OnDuring spells onDuring_spells reading_foldl)

inductive TimerCall where
  | start (now : ℚ)
  | stop (now : ℚ)
  | reset
  | getTime (now : ℚ)
deriving DecidableEq

namespace TimerCall

/-- The clock at a call, for those that read it. -/
def clock? : TimerCall → Option ℚ
  | .start now | .stop now | .getTime now => some now
  | .reset => none

def turn? : TimerCall → Option (Turn ℚ)
  | .start now => some ⟨now, true⟩
  | .stop now => some ⟨now, false⟩
  | .reset | .getTime _ => none

end TimerCall

/-- The timer after a call. -/
def GameTimer.call (t : GameTimer) : TimerCall → GameTimer
  | .start now => t.start now
  | .stop now => t.stop now
  | .reset => t.reset
  | .getTime _ => t

def timerAfter (calls : List TimerCall) : GameTimer := calls.foldl GameTimer.call .init

/-- The starts and stops after the last reset. -/
def turnsSinceReset (calls : List TimerCall) : List (Turn ℚ) :=
  (calls.rtakeWhile (· != .reset)).filterMap TimerCall.turn?

/-- The intervals the timer runs since the last reset, up to `now`. -/
def runningIntervals (calls : List TimerCall) (now : ℚ) : List (ℚ × ℚ) := spells none (turnsSinceReset calls) now

/-! ## The timer as a stopwatch -/

/-- The timer as a stopwatch: it runs since its start, and what had elapsed then. -/
def GameTimer.watch (t : GameTimer) : Watch ℚ :=
  ⟨t.elapsedTime, if t.running then t.startTime.map (· + t.elapsedTime) else none⟩

/-- A timer stands, or it runs and has a start. -/
@[elab_as_elim] theorem GameTimer.byRunning {motive : GameTimer → Prop}
    (standing : ∀ startTime elapsedTime started, motive ⟨startTime, elapsedTime, false, started⟩)
    (running : ∀ s elapsedTime started, motive ⟨some s, elapsedTime, true, started⟩) (t : GameTimer) : motive t := by
  obtain ⟨startTime, elapsedTime, on, started⟩ := t
  cases on with
  | false => exact standing startTime elapsedTime started
  | true =>
    obtain ⟨s, rfl⟩ := Option.isSome_iff_exists.1 (started rfl)
    exact running s elapsedTime started

theorem watch_start (t : GameTimer) (now : ℚ) : (t.start now).watch = t.watch.turn ⟨now, true⟩ := by
  cases t using GameTimer.byRunning with
  | standing => simp [GameTimer.start, GameTimer.watch, Watch.turn]
  | running => simp [GameTimer.start, GameTimer.watch, Watch.turn]

theorem getTime_eq_reading (t : GameTimer) (now : ℚ) : t.getTime now = t.watch.reading now := by
  cases t using GameTimer.byRunning with
  | standing => simp [GameTimer.getTime, GameTimer.watch, Watch.reading]
  | running s elapsedTime =>
    show now - s = elapsedTime + (now - (s + elapsedTime))
    ring

theorem watch_stop (t : GameTimer) (now : ℚ) : (t.stop now).watch = t.watch.turn ⟨now, false⟩ := by
  cases t using GameTimer.byRunning with
  | standing => simp [GameTimer.stop, GameTimer.watch, Watch.turn]
  | running s elapsedTime started =>
    exact congrArg (Watch.mk · none) (getTime_eq_reading ⟨some s, elapsedTime, true, started⟩ now)

theorem isSome_watch (t : GameTimer) : t.watch.since.isSome = t.running := by
  cases t using GameTimer.byRunning with
  | standing => rfl
  | running => rfl

/-- **After any calls the timer is the stopwatch after the turns since the last reset.** -/
theorem watch_timerAfter (calls : List TimerCall) :
    (timerAfter calls).watch = (turnsSinceReset calls).foldl Watch.turn .zero := by
  induction calls using List.reverseRecOn with
  | nil => rfl
  | append_singleton calls call ih =>
    rw [timerAfter, List.foldl_append, List.foldl_cons, List.foldl_nil, turnsSinceReset]
    cases call with
    | start now =>
      rw [List.rtakeWhile_concat_pos _ _ _ (by simp), List.filterMap_append, List.foldl_append]
      exact (watch_start _ now).trans (congrArg (·.turn ⟨now, true⟩) ih)
    | stop now =>
      rw [List.rtakeWhile_concat_pos _ _ _ (by simp), List.filterMap_append, List.foldl_append]
      exact (watch_stop _ now).trans (congrArg (·.turn ⟨now, false⟩) ih)
    | reset =>
      rw [List.rtakeWhile_concat_neg _ _ _ (by simp)]
      rfl
    | getTime now =>
      rw [List.rtakeWhile_concat_pos _ _ _ (by simp), List.filterMap_append, List.foldl_append]
      exact ih

/-- **The timer runs iff the last start or stop since the last reset was a start.** -/
theorem running_timerAfter (calls : List TimerCall) :
    (timerAfter calls).running = ((turnsSinceReset calls).getLast?.map Turn.on).getD false := by
  rw [← isSome_watch, watch_timerAfter, Watch.isSome_foldl]
  rfl

/-! ## The game time -/

theorem times_sublist : ∀ calls : List TimerCall,
    ((calls.filterMap TimerCall.turn?).map Turn.time).Sublist (calls.filterMap TimerCall.clock?)
  | [] => List.Sublist.slnil
  | .start now :: calls => (times_sublist calls).cons_cons now
  | .stop now :: calls => (times_sublist calls).cons_cons now
  | .reset :: calls => times_sublist calls
  | .getTime now :: calls => (times_sublist calls).cons now

theorem inOrder_turnsSinceReset {calls : List TimerCall} {now : ℚ}
    (hclock : (calls.filterMap TimerCall.clock? ++ [now]).Pairwise (· ≤ ·)) :
    ((turnsSinceReset calls).map Turn.time ++ [now]).Pairwise (· ≤ ·) := by
  have hsince : (calls.rtakeWhile (· != .reset)).Sublist calls := (List.rtakeWhile_suffix _ _).sublist
  exact hclock.sublist (((times_sublist _).trans (hsince.filterMap _)).append_right [now])

theorem getTime_timerAfter (calls : List TimerCall) (now : ℚ) :
    (timerAfter calls).getTime now = Stopwatch.length (runningIntervals calls now) := by
  rw [getTime_eq_reading, watch_timerAfter]
  exact (reading_foldl now 0 none (turnsSinceReset calls)).trans (zero_add _)

/-- **After any calls the timer shows the length of the intervals it ran since the last reset**: the instants whose last
start or stop was a start, whatever was started while it ran or stopped while it stood. -/
theorem gameTimer_accumulates (calls : List TimerCall) (now : ℚ)
    (hclock : (calls.filterMap TimerCall.clock? ++ [now]).Pairwise (· ≤ ·)) :
    (timerAfter calls).getTime now = Stopwatch.length (runningIntervals calls now) ∧
      OnDuring (turnsSinceReset calls) now (runningIntervals calls now) ∧
      ((timerAfter calls).running = true → ∀ τ, (timerAfter calls).start τ = timerAfter calls) ∧
      ((timerAfter calls).running = false → ∀ τ, (timerAfter calls).stop τ = timerAfter calls) := by
  refine ⟨getTime_timerAfter calls now, onDuring_spells none _ (inOrder_turnsSinceReset hclock), fun h τ => ?_,
    fun h τ => ?_⟩
  · rw [GameTimer.start, if_pos h]
  · rw [GameTimer.stop, if_neg (by rw [h]; exact Bool.false_ne_true)]

/-- Started twice, stopped twice, started again. -/
theorem gameTimer_accumulates_restarted :
    let calls : List TimerCall := [.start 0, .reset, .start 1, .start 2, .stop 3, .stop 4, .getTime 5, .start 6]
    (timerAfter calls).getTime 8 = Stopwatch.length (runningIntervals calls 8) ∧
      OnDuring (turnsSinceReset calls) 8 (runningIntervals calls 8) ∧
      ((timerAfter calls).running = true → ∀ τ, (timerAfter calls).start τ = timerAfter calls) ∧
      ((timerAfter calls).running = false → ∀ τ, (timerAfter calls).stop τ = timerAfter calls) :=
  gameTimer_accumulates [.start 0, .reset, .start 1, .start 2, .stop 3, .stop 4, .getTime 5, .start 6] 8 (by decide +kernel)

example : runningIntervals [.start 0, .reset, .start 1, .start 2, .stop 3, .stop 4, .getTime 5, .start 6] 8 =
    [(1, 3), (6, 8)] := by decide +kernel

/-! ## The timer of the referee -/

/-- What a callback does to the timer. -/
def Input.timerCall? : Input → Option TimerCall
  | .cmd command _ now =>
    if command = RefereeCmd.selfChecking then some .reset
    else if command = RefereeCmd.startGame then some (.start now)
    else if command = RefereeCmd.stopGame then some (.stop now)
    else none
  | _ => none

variable {parseFloat : String → Option Fp}

theorem timer_of_rest {s t : System} (h : t.rest = s.rest) : t.timer = s.timer :=
  show t.rest.timer = s.rest.timer from congrArg System.timer h

theorem timer_settle (s : System) (es : List Event) (e : Option PyError) : (settle s es e).1.timer = s.timer := by
  cases e <;> rfl

theorem timer_cmd (s : System) (robotName : String) (now : ℚ) : ∀ cmd,
    (refereeCmdCallback s cmd robotName now).1.timer =
      (Input.cmd cmd robotName now).timerCall?.elim s.timer s.timer.call
  | 0 | 1 | 2 | 3 => rfl
  | 4 => timer_of_rest (rest_known [.enablePower robotName false])
  | 5 => timer_of_rest (rest_known [.enablePower robotName true])
  | _ + 6 => rfl

theorem timer_callback (s : System) (i : Input) :
    (callback parseFloat s i).1.timer = i.timerCall?.elim s.timer s.timer.call := by
  cases i with
  | exchange robotName ammoAmount => exact timer_of_rest (rest_exchange s robotName ammoAmount)
  | attackInfo data => exact timer_of_rest (rest_attackInfo s data)
  | shootInfo data => exact (timer_settle _ _ _).trans (timer_of_rest (rest_shootInfo parseFloat s data))
  | poseInfo transforms => exact timer_of_rest (rest_poseInfo transforms s)
  | timer now₁ now₂ now₃ => exact timer_timerCb s now₁ now₂ now₃
  | cmd cmd robotName now => exact (timer_settle _ _ _).trans (timer_cmd s robotName now cmd)

theorem timer_of_run : ∀ {is : List Input} {s t : System} {o : List Event},
    (referee parseFloat).run s is = some (t, o) → t.timer = (is.filterMap Input.timerCall?).foldl GameTimer.call s.timer
  | [], s, t, o, hrun => by
    simp only [Machine.run_nil, Option.some.injEq, Prod.mk.injEq] at hrun
    rw [hrun.1]
    rfl
  | i :: is, s, u, o, hrun => by
    obtain ⟨t, es, o', hst, hrun', rfl⟩ := Machine.run_cons.1 hrun
    have ht : t.timer = i.timerCall?.elim s.timer s.timer.call := by
      simp only [referee] at hst
      split at hst
      · cases hst
      · have hcall : (callback parseFloat s i).1 = t := congrArg Prod.fst (Option.some.inj hst)
        rw [← hcall, timer_callback]
    rw [timer_of_run hrun', ht]
    cases h : i.timerCall? with
    | none => rw [List.filterMap_cons_none h, Option.elim_none]
    | some call => rw [List.filterMap_cons_some h, List.foldl_cons, Option.elim_some]

/-- **In every run of the referee the game time is the length of the intervals that its commands ran the timer.** -/
theorem gameTime_of_run {params : Params} {is : List Input} {t : System} {o : List Event}
    (hrun : (referee parseFloat).run (System.init params) is = some (t, o)) (now : ℚ) :
    t.timer.getTime now = Stopwatch.length (runningIntervals (is.filterMap Input.timerCall?) now) := by
  rw [timer_of_run hrun]
  exact getTime_timerAfter (is.filterMap Input.timerCall?) now

end Referee
end LfSentry
