import LfSentry.ThreadPool
import Mathlib.Algebra.Order.BigOperators.Group.Finset
/-!
# ThreadPoolRuns — what the pool keeps in every interleaving

The tasks are started in the order in which they were accepted, each once; what the destructor finds in the queue is thrown
away.  No task waits in the queue while a worker sleeps, unless somebody is on the way to wake it (`Attended`), and once the
destructor has notified, every worker returns.
-/
namespace LfSentry
namespace Pool

variable {T : Type}

@[simp] def Note.accepts : Note T → List T
  | .accepted task => [task]
  | _ => []

@[simp] def Note.starts : Note T → List T
  | .started _ task => [task]
  | _ => []

@[simp] def Note.drops : Note T → List T
  | .dropped tasks => tasks
  | _ => []

@[simp] def Note.startsAt (w : Nat) : Note T → List T
  | .started v task => if v = w then [task] else []
  | _ => []

@[simp] def Note.finishesAt (w : Nat) : Note T → List T
  | .finished v task => if v = w then [task] else []
  | _ => []

/-- What the notes of a run say of one kind, in order. -/
def said (kind : Note T → List T) (o : List (Note T)) : List T := o.flatMap kind

@[simp] def Note.isDropped : Note T → Bool
  | .dropped _ => true
  | _ => false

/-- What is noted from the destructor's turn on. -/
def ending (o : List (Note T)) : List (Note T) := o.dropWhile fun note => !note.isDropped

/-- What a worker has started and not finished. -/
def Worker.task : Worker T → List T
  | .running task => [task]
  | _ => []

/-- What holds of the tasks between any two steps, after everything noted so far. -/
structure Kept (s : ThreadPool T) (o : List (Note T)) : Prop where
  queue : said Note.accepts o = said Note.starts o ++ (said Note.drops o ++ s.tasks)
  stopped : s.stop = true → s.tasks = []
  going : s.stop = false → said Note.drops o = [] ∧ ending o = []
  ended : said Note.starts (ending o) = []
  worker : ∀ w, said (Note.startsAt w) o = said (Note.finishesAt w) o ++ (s.workers w).task

variable {numThreads : Nat} {s t : ThreadPool T} {o es : List (Note T)} {w : Nat} {worker : Worker T}

@[simp] theorem said_append (kind : Note T → List T) (o es : List (Note T)) : said kind (o ++ es) = said kind o ++ said kind es :=
  List.flatMap_append

@[simp] theorem said_nil (kind : Note T → List T) : said kind [] = [] := rfl

@[simp] theorem said_singleton (kind : Note T → List T) (note : Note T) : said kind [note] = kind note := by
  simp [said]

theorem ending_append (o es : List (Note T)) :
    ending (o ++ es) = if ending o = [] then ending es else ending o ++ es := by
  unfold ending
  rw [List.dropWhile_append]
  simp only [List.isEmpty_iff]

/-- From the destructor's turn on there is no start in notes that have none. -/
theorem starts_ending_append {note : Note T} (h : said Note.starts (ending o) = [])
    (hnote : note.starts = [] ∨ ending o = []) : said Note.starts (ending (o ++ [note])) = [] := by
  rw [ending_append]
  split
  · cases note <;> simp [ending]
  · rename_i hne
    rw [said_append, h, said_singleton, hnote.resolve_right hne, List.append_nil]

/-- Before the destructor's turn a note that is not its own changes nothing of that. -/
theorem going_append {note : Note T} (h : said Note.drops o = [] ∧ ending o = []) (hnote : note.isDropped = false) :
    said Note.drops (o ++ [note]) = [] ∧ ending (o ++ [note]) = [] := by
  rw [said_append, ending_append, if_pos h.2, h.1]
  cases note with
  | dropped tasks => cases hnote
  | _ => exact ⟨rfl, rfl⟩

@[simp] theorem set_tasks (s : ThreadPool T) (w : Nat) (worker : Worker T) : (s.set w worker).tasks = s.tasks := rfl

@[simp] theorem set_stop (s : ThreadPool T) (w : Nat) (worker : Worker T) : (s.set w worker).stop = s.stop := rfl

variable (worker) in
/-- A worker moves, and neither starts nor finishes a task. -/
theorem Kept.move (h : Kept s o) (htask : worker.task = (s.workers w).task) : Kept (s.set w worker) (o ++ []) where
  queue := by
    rw [List.append_nil]
    exact h.queue
  stopped := h.stopped
  going := by
    rw [List.append_nil]
    exact h.going
  ended := by
    rw [List.append_nil]
    exact h.ended
  worker v := by
    rw [List.append_nil]
    by_cases hv : v = w
    · subst hv
      simpa [ThreadPool.set, htask] using h.worker v
    · simpa [ThreadPool.set, hv] using h.worker v

/-- **Every step keeps the tasks.** -/
theorem kept_step {a : Act T} (h : Kept s o) (hst : (pool numThreads).step s a = some (t, es)) : Kept t (o ++ es) := by
  cases a with
  | enqueue task =>
    simp only [pool] at hst
    split at hst
    · obtain ⟨rfl, rfl⟩ := Prod.mk.inj (Option.some.inj hst)
      rename_i hstop
      exact ⟨by simpa using h.queue, h.stopped, fun hgoing => absurd hstop (by simp [hgoing]),
        starts_ending_append h.ended (Or.inl rfl), by simpa using h.worker⟩
    · rename_i hgoing
      obtain ⟨rfl, rfl⟩ := Prod.mk.inj (Option.some.inj hst)
      obtain ⟨hdropped, hending⟩ := h.going (by simpa using hgoing)
      have hqueue := h.queue
      rw [hdropped] at hqueue
      exact ⟨by simp [hqueue, hdropped], fun hstop => absurd hstop hgoing,
        fun _ => going_append ⟨hdropped, hending⟩ rfl, starts_ending_append h.ended (Or.inl rfl), by simpa using h.worker⟩
  | notifyOne woken =>
    cases woken with
    | some w =>
      simp only [pool] at hst
      split at hst
      · rename_i hw
        split at hst
        · obtain ⟨rfl, rfl⟩ := Prod.mk.inj (Option.some.inj hst)
          have := h.move .looking (w := w) (by rw [hw]; rfl)
          exact ⟨this.queue, this.stopped, this.going, this.ended, this.worker⟩
        · cases hst
      · cases hst
    | none =>
      simp only [pool] at hst
      split at hst
      · obtain ⟨rfl, rfl⟩ := Prod.mk.inj (Option.some.inj hst)
        rw [List.append_nil]
        exact ⟨h.queue, h.stopped, h.going, h.ended, h.worker⟩
      · cases hst
  | destroy =>
    simp only [pool] at hst
    split at hst
    · cases hst
    · rename_i hgoing
      obtain ⟨rfl, rfl⟩ := Prod.mk.inj (Option.some.inj hst)
      obtain ⟨hdropped, -⟩ := h.going (by simpa using hgoing)
      have hqueue := h.queue
      rw [hdropped] at hqueue
      exact ⟨by simp [hqueue, hdropped], fun _ => rfl, fun hstop => absurd hstop (by simp),
        starts_ending_append h.ended (Or.inl rfl), by simpa using h.worker⟩
  | notifyAll =>
    simp only [pool] at hst
    split at hst
    · obtain ⟨rfl, rfl⟩ := Prod.mk.inj (Option.some.inj hst)
      rw [List.append_nil]
      refine ⟨h.queue, h.stopped, h.going, h.ended, fun w => ?_⟩
      rw [h.worker w]
      cases hw : s.workers w <;> simp [hw, Worker.woken, Worker.task]
    · cases hst
  | look w =>
    simp only [pool] at hst
    split at hst
    · rename_i hw
      split at hst
      · split at hst
        · split at hst <;> obtain ⟨rfl, rfl⟩ := Prod.mk.inj (Option.some.inj hst) <;> exact h.move _ (by rw [hw]; rfl)
        · rename_i task tasks htasks
          obtain ⟨rfl, rfl⟩ := Prod.mk.inj (Option.some.inj hst)
          have hgoing : s.stop = false := by
            by_contra hstop
            simp [h.stopped (by simpa using hstop)] at htasks
          obtain ⟨hdropped, hending⟩ := h.going hgoing
          have hqueue := h.queue
          rw [hdropped, htasks] at hqueue
          refine ⟨by simp [hqueue, hdropped], fun hstop => ?_, fun _ => going_append ⟨hdropped, hending⟩ rfl,
            starts_ending_append h.ended (Or.inr hending), fun v => ?_⟩
          · exact absurd hstop (by simp [ThreadPool.set, hgoing])
          · have hv := h.worker v
            by_cases hvw : v = w
            · subst hvw
              rw [hw] at hv
              simp [hv, Worker.task, ThreadPool.set]
            · simp [hv, ThreadPool.set, hvw, Ne.symm hvw]
      · cases hst
    · cases hst
  | finish w =>
    simp only [pool] at hst
    split at hst
    · rename_i task hw
      split at hst
      · obtain ⟨rfl, rfl⟩ := Prod.mk.inj (Option.some.inj hst)
        refine ⟨by simpa using h.queue, h.stopped, fun hgoing => going_append (h.going hgoing) rfl,
          starts_ending_append h.ended (Or.inl rfl), fun v => ?_⟩
        have hv := h.worker v
        by_cases hvw : v = w
        · subst hvw
          rw [hw] at hv
          simp [hv, Worker.task, ThreadPool.set]
        · simp [hv, ThreadPool.set, hvw, Ne.symm hvw]
      · cases hst
    · cases hst
  | wake w =>
    simp only [pool] at hst
    split at hst
    · rename_i hw
      split at hst
      · obtain ⟨rfl, rfl⟩ := Prod.mk.inj (Option.some.inj hst)
        exact h.move _ (by rw [hw]; rfl)
      · cases hst
    · cases hst

theorem kept_init : Kept (init : ThreadPool T) [] := ⟨rfl, fun _ => rfl, fun _ => ⟨rfl, rfl⟩, rfl, fun _ => rfl⟩

/-- **In every interleaving the tasks are started in the order in which they were accepted, none twice and none after the
destructor has begun; what it throws away comes after all that were started; and every worker has finished what it has
started but for the task that it is in.** -/
theorem pool_runs_in_order (numThreads : Nat) (acts : List (Act T)) (s : ThreadPool T) (o : List (Note T))
    (hrun : (pool numThreads).run init acts = some (s, o)) : Kept s o :=
  Machine.inv_said_of_run (fun _ _ _ _ _ h hst => kept_step h hst) kept_init hrun

/-- Two workers, three tasks; the last is thrown away. -/
def twoOfThree : List (Act Nat) :=
  [.look 0, .look 1, .enqueue 1, .enqueue 2, .enqueue 3, .notifyOne (some 1), .look 1, .notifyOne (some 0), .finish 1, .look 0,
    .destroy, .notifyOne none, .notifyAll, .look 1, .finish 0, .look 0]

theorem pool_runs_in_order_twoOfThree : ∃ s o, (pool 2).run (init : ThreadPool Nat) twoOfThree = some (s, o) ∧ Kept s o :=
  ⟨_, _, rfl, pool_runs_in_order 2 twoOfThree _ _ rfl⟩

/-! ## Nobody sleeps over a task -/

/-- 1 for a worker that is about to look. -/
@[simp] def Worker.looks : Worker T → Nat
  | .looking => 1
  | _ => 0

@[simp] def Worker.Sleeps : Worker T → Prop
  | .sleeping => True
  | _ => False

/-- How many steps a worker may take before it returns, once the pool is stopped. -/
@[simp] def Worker.credit : Worker T → Nat
  | .looking => 1
  | .running _ => 2
  | _ => 0

/-- A count over all workers. -/
def total (numThreads : Nat) (f : Worker T → Nat) (s : ThreadPool T) : Nat := ∑ w ∈ Finset.range numThreads, f (s.workers w)

theorem workers_set_self : (s.set w worker).workers w = worker := Function.update_self _ _ _

theorem workers_set_of_ne {v : Nat} (h : v ≠ w) : (s.set w worker).workers v = s.workers v := Function.update_of_ne h _ _

variable (s worker) in
theorem total_set (f : Worker T → Nat) (hw : w < numThreads) :
    total numThreads f (s.set w worker) + f (s.workers w) = total numThreads f s + f worker := by
  have hmem := Finset.mem_range.2 hw
  have hrest : ∑ v ∈ (Finset.range numThreads).erase w, f ((s.set w worker).workers v) =
      ∑ v ∈ (Finset.range numThreads).erase w, f (s.workers v) :=
    Finset.sum_congr rfl fun v hv => by simp [ThreadPool.set, Finset.ne_of_mem_erase hv]
  rw [total, total, ← Finset.add_sum_erase _ _ hmem, ← Finset.add_sum_erase _ (fun v => f (s.workers v)) hmem, hrest, workers_set_self]
  omega

/-- While a worker sleeps there are no more tasks than calls of `notify_one` to come and workers about to look. -/
structure Attended (numThreads : Nat) (s : ThreadPool T) : Prop where
  awake : (∃ w < numThreads, (s.workers w).Sleeps) → s.tasks.length ≤ s.notifies + total numThreads Worker.looks s
  stopped : s.stop = true → s.tasks = [] ∧ (s.notifyAll = false → ∀ w < numThreads, ¬ (s.workers w).Sleeps)

/-- A worker that sleeps while another moves slept before, unless it is the one that has gone to sleep. -/
theorem sleeps_of_set (hworker : ¬ worker.Sleeps) (h : ∃ v < numThreads, ((s.set w worker).workers v).Sleeps) :
    ∃ v < numThreads, (s.workers v).Sleeps := by
  obtain ⟨v, hv, hsleeps⟩ := h
  by_cases hvw : v = w
  · subst hvw
    rw [workers_set_self] at hsleeps
    exact absurd hsleeps hworker
  · rw [workers_set_of_ne hvw] at hsleeps
    exact ⟨v, hv, hsleeps⟩

/-- The workers that do not sleep stay awake when one moves without going to sleep. -/
theorem not_sleeps_set (hworker : ¬ worker.Sleeps) (h : ∀ v < numThreads, ¬ (s.workers v).Sleeps) :
    ∀ v < numThreads, ¬ ((s.set w worker).workers v).Sleeps := fun v hv hsleeps => by
  obtain ⟨u, hu, hsleeps⟩ := sleeps_of_set hworker ⟨v, hv, hsleeps⟩
  exact h u hu hsleeps

theorem not_sleeps_woken (worker : Worker T) : ¬ worker.woken.Sleeps := by
  cases worker <;> simp [Worker.woken]

/-- A worker that neither takes a task nor goes to sleep, and is about to look afterwards. -/
theorem Attended.toLook (h : Attended numThreads s) (hw : w < numThreads) (hlooks : (s.workers w).looks = 0) :
    Attended numThreads (s.set w .looking) ∧ total numThreads Worker.looks (s.set w .looking) =
      total numThreads Worker.looks s + 1 := by
  have htotal := total_set s .looking Worker.looks hw
  have hsum : total numThreads Worker.looks (s.set w .looking) = total numThreads Worker.looks s + 1 := by
    rw [hlooks] at htotal
    simpa using htotal
  refine ⟨⟨fun hsleeps => ?_, fun hstop => ⟨(h.stopped hstop).1, fun hall =>
    not_sleeps_set (by simp) ((h.stopped hstop).2 hall)⟩⟩, hsum⟩
  have := h.awake (sleeps_of_set (by simp) hsleeps)
  rw [hsum]
  change s.tasks.length ≤ s.notifies + (total numThreads Worker.looks s + 1)
  omega

/-- **Every step keeps the tasks attended.** -/
theorem attended_step {a : Act T} (h : Attended numThreads s) (hst : (pool numThreads).step s a = some (t, es)) :
    Attended numThreads t := by
  cases a with
  | enqueue task =>
    simp only [pool] at hst
    split at hst
    · obtain ⟨rfl, -⟩ := Prod.mk.inj (Option.some.inj hst)
      exact h
    · rename_i hgoing
      obtain ⟨rfl, -⟩ := Prod.mk.inj (Option.some.inj hst)
      refine ⟨fun hsleeps => ?_, fun hstop => absurd hstop hgoing⟩
      have := h.awake hsleeps
      change (s.tasks ++ [task]).length ≤ s.notifies + 1 + total numThreads Worker.looks s
      rw [List.length_append, List.length_singleton]
      omega
  | notifyOne woken =>
    cases woken with
    | some w =>
      simp only [pool] at hst
      split at hst
      · rename_i hw
        split at hst
        · rename_i hpending
          obtain ⟨rfl, -⟩ := Prod.mk.inj (Option.some.inj hst)
          obtain ⟨hset, hsum⟩ := h.toLook hpending.1 (by rw [hw]; rfl)
          refine ⟨fun hsleeps => ?_, hset.stopped⟩
          have := h.awake (sleeps_of_set (by simp) hsleeps)
          change s.tasks.length ≤ s.notifies - 1 + total numThreads Worker.looks (s.set w .looking)
          rw [hsum]
          omega
        · cases hst
      · cases hst
    | none =>
      simp only [pool] at hst
      split at hst
      · rename_i hnobody
        obtain ⟨rfl, -⟩ := Prod.mk.inj (Option.some.inj hst)
        refine ⟨fun hany => ?_, h.stopped⟩
        -- nobody sleeps, so there is nothing to say
        obtain ⟨w, hw, hsleeps⟩ := hany
        have hall := List.all_eq_true.1 hnobody.2 w (List.mem_range.2 hw)
        replace hsleeps : (s.workers w).Sleeps := hsleeps
        cases hworker : s.workers w <;> simp_all
      · cases hst
  | destroy =>
    simp only [pool] at hst
    split at hst
    · cases hst
    · obtain ⟨rfl, -⟩ := Prod.mk.inj (Option.some.inj hst)
      exact ⟨fun _ => Nat.zero_le _, fun _ => ⟨rfl, fun hnotified => absurd hnotified (by simp)⟩⟩
  | notifyAll =>
    simp only [pool] at hst
    split at hst
    · obtain ⟨rfl, -⟩ := Prod.mk.inj (Option.some.inj hst)
      refine ⟨fun hany => ?_, fun hstop => ⟨(h.stopped hstop).1, fun _ w _ => not_sleeps_woken _⟩⟩
      obtain ⟨w, -, hsleeps⟩ := hany
      exact absurd hsleeps (not_sleeps_woken _)
    · cases hst
  | look w =>
    simp only [pool] at hst
    split at hst
    · rename_i hlooking
      split at hst
      · rename_i hw
        split at hst
        · rename_i htasks
          have hzero : s.tasks.length = 0 := by rw [htasks]; rfl
          split at hst <;> obtain ⟨rfl, -⟩ := Prod.mk.inj (Option.some.inj hst)
          · refine ⟨fun _ => ?_, fun hstop => ⟨htasks, fun hall => ?_⟩⟩
            · rw [set_tasks, hzero]
              exact Nat.zero_le _
            · exact not_sleeps_set (by simp) ((h.stopped hstop).2 hall)
          · rename_i hgoing
            refine ⟨fun _ => ?_, fun hstop => absurd hstop hgoing⟩
            rw [set_tasks, hzero]
            exact Nat.zero_le _
        · rename_i task tasks htasks
          obtain ⟨rfl, -⟩ := Prod.mk.inj (Option.some.inj hst)
          refine ⟨fun hsleeps => ?_, fun hstop => ?_⟩
          · have hawake := h.awake (sleeps_of_set (by simp) hsleeps)
            have htotal := total_set s (.running task) Worker.looks hw
            rw [hlooking] at htotal
            rw [htasks, List.length_cons] at hawake
            change tasks.length ≤ s.notifies + total numThreads Worker.looks (s.set w (.running task))
            simp only [Worker.looks] at htotal
            omega
          · have := (h.stopped hstop).1
            rw [htasks] at this
            cases this
      · cases hst
    · cases hst
  | finish w =>
    simp only [pool] at hst
    split at hst
    · rename_i task hrunning
      split at hst
      · rename_i hw
        obtain ⟨rfl, -⟩ := Prod.mk.inj (Option.some.inj hst)
        exact (h.toLook hw (by rw [hrunning]; rfl)).1
      · cases hst
    · cases hst
  | wake w =>
    simp only [pool] at hst
    split at hst
    · rename_i hsleeping
      split at hst
      · rename_i hw
        obtain ⟨rfl, -⟩ := Prod.mk.inj (Option.some.inj hst)
        exact (h.toLook hw (by rw [hsleeping]; rfl)).1
      · cases hst
    · cases hst

theorem attended_init : Attended numThreads (init : ThreadPool T) :=
  ⟨fun _ => Nat.zero_le _, nofun⟩

/-- **In every interleaving: while a task waits in the queue and a worker sleeps, a call of `notify_one` is still to come or a
worker is about to look at the queue.** -/
theorem pool_no_lost_wakeup (numThreads : Nat) (acts : List (Act T)) (s : ThreadPool T) (o : List (Note T))
    (hrun : (pool numThreads).run init acts = some (s, o)) (htask : s.tasks ≠ [])
    (hsleeps : ∃ w < numThreads, (s.workers w).Sleeps) :
    0 < s.notifies ∨ ∃ w < numThreads, (s.workers w).looks = 1 := by
  have h := Machine.inv_of_run (fun _ _ _ _ h hst => attended_step h hst) attended_init hrun
  have hawake := h.awake hsleeps
  have hpos := List.length_pos_iff.2 htask
  by_contra hno
  have hlooks : total numThreads Worker.looks s = 0 := Finset.sum_eq_zero fun w hw => by
    have hw' := Finset.mem_range.1 hw
    have hne : (s.workers w).looks ≠ 1 := fun h1 => hno (Or.inr ⟨w, hw', h1⟩)
    cases hworker : s.workers w <;> simp_all
  have hnotifies : ¬ 0 < s.notifies := fun h0 => hno (Or.inl h0)
  omega

/-- Two workers asleep, two tasks, one call of `notify_one` made and one still to come; then the woken one takes a task. -/
theorem pool_no_lost_wakeup_twoTasks : ∃ s o, (pool 2).run (init : ThreadPool Nat)
    [.look 0, .look 1, .enqueue 7, .enqueue 8, .notifyOne (some 1), .look 1] = some (s, o) ∧ s.tasks = [8] ∧
      (0 < s.notifies ∨ ∃ w < 2, (s.workers w).looks = 1) :=
  ⟨_, _, rfl, rfl, pool_no_lost_wakeup 2 [.look 0, .look 1, .enqueue 7, .enqueue 8, .notifyOne (some 1), .look 1] _ _ rfl
    (List.cons_ne_nil _ _) ⟨0, by decide, trivial⟩⟩

/-! ## The destructor's join -/

/-- The worker whose step it is, wake-ups apart. -/
def Act.stepOf : Act T → Option Nat
  | .look w | .finish w => some w
  | _ => none

/-- The pool has been stopped and everybody told so. -/
structure Stopped (numThreads : Nat) (s : ThreadPool T) : Prop where
  stop : s.stop = true
  notified : s.notifyAll = false
  tasks : s.tasks = []
  awake : ∀ w < numThreads, ¬ (s.workers w).Sleeps

/-- A worker that moves and does not go to sleep. -/
theorem Stopped.set (h : Stopped numThreads s) (hworker : ¬ worker.Sleeps) : Stopped numThreads (s.set w worker) :=
  ⟨h.stop, h.notified, h.tasks, not_sleeps_set hworker h.awake⟩

variable (worker) in
/-- Its own step takes one off a worker's credit, where it moves as it does then. -/
theorem credit_set (h : worker.credit + 1 = (s.workers w).credit) (v : Nat) :
    (if some w = some v then 1 else 0) + ((s.set w worker).workers v).credit = (s.workers v).credit := by
  by_cases hv : v = w
  · subst hv
    rw [if_pos rfl, workers_set_self]
    omega
  · rw [if_neg (fun hw => hv (Option.some.inj hw).symm), workers_set_of_ne hv, Nat.zero_add]

/-- **A worker's step uses up its credit, and no other step touches it.** -/
theorem stopped_step {a : Act T} (h : Stopped numThreads s) (hst : (pool numThreads).step s a = some (t, es)) :
    Stopped numThreads t ∧ said Note.starts es = [] ∧
      ∀ v, (if a.stepOf = some v then 1 else 0) + (t.workers v).credit = (s.workers v).credit := by
  cases a with
  | enqueue task =>
    simp only [pool, if_pos h.stop] at hst
    obtain ⟨rfl, rfl⟩ := Prod.mk.inj (Option.some.inj hst)
    exact ⟨h, rfl, fun _ => Nat.zero_add _⟩
  | notifyOne woken =>
    cases woken with
    | some w =>
      simp only [pool] at hst
      split at hst
      · rename_i hw
        split at hst
        · rename_i hpending
          exact absurd (by rw [hw]; trivial) (h.awake w hpending.1)
        · cases hst
      · cases hst
    | none =>
      simp only [pool] at hst
      split at hst
      · obtain ⟨rfl, rfl⟩ := Prod.mk.inj (Option.some.inj hst)
        exact ⟨⟨h.stop, h.notified, h.tasks, h.awake⟩, rfl, fun _ => Nat.zero_add _⟩
      · cases hst
  | destroy =>
    simp only [pool, if_pos h.stop] at hst
    cases hst
  | notifyAll => simp [pool, h.notified] at hst
  | look w =>
    simp only [pool, h.tasks, h.stop] at hst
    split at hst
    · rename_i hlooking
      split at hst
      · rename_i hw
        obtain ⟨rfl, rfl⟩ := Prod.mk.inj (Option.some.inj hst)
        exact ⟨h.set (by simp), rfl, credit_set .returned (by rw [hlooking]; rfl)⟩
      · cases hst
    · cases hst
  | finish w =>
    simp only [pool] at hst
    split at hst
    · rename_i task hrunning
      split at hst
      · rename_i hw
        obtain ⟨rfl, rfl⟩ := Prod.mk.inj (Option.some.inj hst)
        exact ⟨h.set (by simp), rfl, credit_set .looking (by rw [hrunning]; rfl)⟩
      · cases hst
    · cases hst
  | wake w =>
    simp only [pool] at hst
    split at hst
    · rename_i hsleeping
      split at hst
      · rename_i hw
        exact absurd (by rw [hsleeping]; trivial) (h.awake w hw)
      · cases hst
    · cases hst

/-- A run uses up as much of a worker's credit as it has steps of that worker. -/
theorem stopped_run : ∀ {acts : List (Act T)} {s t : ThreadPool T} {o : List (Note T)}, Stopped numThreads s →
    (pool numThreads).run s acts = some (t, o) →
    Stopped numThreads t ∧ said Note.starts o = [] ∧
      ∀ v, acts.countP (fun a => a.stepOf = some v) + (t.workers v).credit = (s.workers v).credit
  | [], s, t, o, h, hrun => by
    simp only [Machine.run_nil, Option.some.injEq, Prod.mk.injEq] at hrun
    obtain ⟨rfl, rfl⟩ := hrun
    exact ⟨h, rfl, by simp⟩
  | a :: acts, s, u, o, h, hrun => by
    obtain ⟨t, es, o', hst, hrest, rfl⟩ := Machine.run_cons.1 hrun
    obtain ⟨ht, hes, hcredit⟩ := stopped_step h hst
    obtain ⟨hu, ho, hcount⟩ := stopped_run ht hrest
    refine ⟨hu, by rw [said_append, hes, ho, List.append_nil], fun v => ?_⟩
    have hstep := hcredit v
    have hrun := hcount v
    rw [List.countP_cons]
    simp only [decide_eq_true_eq]
    omega

/-- A worker that has not returned can take a step. -/
theorem Stopped.enabled (h : Stopped numThreads s) (hw : w < numThreads) :
    s.workers w = .returned ∨ ∃ a t es, a.stepOf = some w ∧ (pool numThreads).step s a = some (t, es) := by
  cases hworker : s.workers w with
  | looking =>
    refine Or.inr ⟨.look w, s.set w .returned, [], rfl, ?_⟩
    simp [pool, hworker, hw, h.tasks, h.stop]
  | sleeping => exact absurd (by rw [hworker]; trivial) (h.awake w hw)
  | running task =>
    refine Or.inr ⟨.finish w, s.set w .looking, [.finished w task], rfl, ?_⟩
    simp [pool, hworker, hw]
  | returned => exact Or.inl rfl

/-- **Once the destructor has notified, its joins come to an end whatever the order of the steps: every worker takes at most two
steps, the end of its task included, none is started any more, and a worker that has not returned can take a step.** -/
theorem pool_shuts_down (numThreads : Nat) (before after : List (Act T)) (s t : ThreadPool T) (o₁ o₂ : List (Note T))
    (hbefore : (pool numThreads).run init before = some (s, o₁)) (hstop : s.stop = true) (hnotified : s.notifyAll = false)
    (hafter : (pool numThreads).run s after = some (t, o₂)) :
    said Note.starts o₂ = [] ∧ ∀ w < numThreads, after.countP (fun a => a.stepOf = some w) ≤ 2 ∧
      (t.workers w = .returned ∨ ∃ a u es, a.stepOf = some w ∧ (pool numThreads).step t a = some (u, es)) := by
  have h := Machine.inv_of_run (fun _ _ _ _ h hst => attended_step h hst) attended_init hbefore
  obtain ⟨htasks, hawake⟩ := h.stopped hstop
  obtain ⟨ht, hstarts, hcount⟩ := stopped_run ⟨hstop, hnotified, htasks, hawake hnotified⟩ hafter
  refine ⟨hstarts, fun w hw => ⟨?_, ht.enabled hw⟩⟩
  have hcredit : (s.workers w).credit ≤ 2 := by cases s.workers w <;> simp
  have := hcount w
  omega

/-- Two workers in a task when the pool is stopped; the third task is thrown away before the worker woken for it looks. -/
def threeWorkers : List (Act Nat) :=
  [.look 2, .enqueue 5, .enqueue 6, .look 0, .notifyOne (some 2), .look 1, .look 2, .enqueue 8, .destroy, .notifyOne (some 2),
    .notifyAll]

theorem pool_shuts_down_threeWorkers : ∃ s t o₁ o₂,
    (pool 3).run (init : ThreadPool Nat) threeWorkers = some (s, o₁) ∧
      (pool 3).run s [.finish 1, .look 2, .finish 0, .look 1] = some (t, o₂) ∧ said Note.starts o₂ = [] ∧
        (t.workers 0 = .returned ∨ ∃ a u es, a.stepOf = some 0 ∧ (pool 3).step t a = some (u, es)) :=
  have h := pool_shuts_down 3 threeWorkers [.finish 1, .look 2, .finish 0, .look 1] _ _ _ _ rfl rfl rfl rfl
  ⟨_, _, _, _, rfl, rfl, h.1, (h.2 0 (by decide)).2⟩

end Pool
end LfSentry
