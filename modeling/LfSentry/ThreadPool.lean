import LfSentry.Runs
import Mathlib.Algebra.BigOperators.Fin
import Mathlib.Algebra.BigOperators.Intervals
import Mathlib.Logic.Function.Basic
/-!
# ThreadPool — the pool of workers, its queue and its condition variable (`thread_pool.hpp`)

What a thread does under the mutex is one step.  A worker that finds nothing to do gives up the mutex and sleeps in the same
step; it wakes when it is notified, or for no reason at all, and looks again.  A caller notifies after it has given up the
mutex, so other steps may come between.
-/
namespace LfSentry
namespace Pool

/-- Where a worker is. -/
inductive Worker (T : Type)
  /-- About to look at the queue under the mutex. -/
  | looking
  /-- In `condition.wait`. -/
  | sleeping
  /-- In `task()`. -/
  | running (task : T)
  | returned

/-- `ThreadPool`; `notifies` are the calls of `notify_one` still to come, `notifyAll` that of the destructor. -/
structure ThreadPool (T : Type) where
  tasks : List T
  stop : Bool
  workers : Nat → Worker T
  notifies : Nat
  notifyAll : Bool

/-- A step of the pool. -/
inductive Act (T : Type)
  /-- `enqueue`, what it does under the mutex. -/
  | enqueue (task : T)
  /-- Its `notify_one`, which wakes this worker, or nobody when nobody sleeps. -/
  | notifyOne (woken : Option Nat)
  /-- The destructor, what it does under the mutex. -/
  | destroy
  /-- Its `notify_all`. -/
  | notifyAll
  /-- A worker looks at the queue. -/
  | look (w : Nat)
  /-- A worker's task ends. -/
  | finish (w : Nat)
  /-- A worker wakes without having been notified. -/
  | wake (w : Nat)

/-- What is noted of a run. -/
inductive Note (T : Type)
  | accepted (task : T)
  /-- `enqueue on stopped ThreadPool`. -/
  | refused (task : T)
  | started (w : Nat) (task : T)
  | finished (w : Nat) (task : T)
  /-- The destructor throws away what is in the queue. -/
  | dropped (tasks : List T)

section Pool

variable {T : Type} (numThreads : Nat)

/-- A pool that has just been made. -/
def init : ThreadPool T where
  tasks := []
  stop := false
  workers _ := .looking
  notifies := 0
  notifyAll := false

/-- A worker's place changes. -/
def ThreadPool.set (s : ThreadPool T) (w : Nat) (worker : Worker T) : ThreadPool T :=
  { s with workers := Function.update s.workers w worker }

/-- A worker that sleeps is woken. -/
def Worker.woken : Worker T → Worker T
  | .sleeping => .looking
  | worker => worker

/-- The pool and its callers. -/
def pool : Machine (ThreadPool T) (Act T) (Note T) where
  step s
    | .enqueue task =>
      if s.stop then some (s, [.refused task])
      else some ({ s with tasks := s.tasks ++ [task], notifies := s.notifies + 1 }, [.accepted task])
    | .notifyOne (some w) =>
      match s.workers w with
      | .sleeping =>
        if w < numThreads ∧ 0 < s.notifies then some ({ s.set w .looking with notifies := s.notifies - 1 }, []) else none
      | _ => none
    | .notifyOne none =>
      if 0 < s.notifies ∧ (List.range numThreads).all fun w => match s.workers w with | .sleeping => false | _ => true then
        some ({ s with notifies := s.notifies - 1 }, [])
      else none
    | .destroy =>
      if s.stop then none
      else some ({ s with stop := true, tasks := [], notifyAll := true }, [.dropped s.tasks])
    | .notifyAll =>
      if s.notifyAll then some ({ s with workers := fun w => (s.workers w).woken, notifyAll := false }, []) else none
    | .look w =>
      match s.workers w with
      | .looking =>
        if w < numThreads then
          match s.tasks with
          | [] => if s.stop then some (s.set w .returned, []) else some (s.set w .sleeping, [])
          | task :: tasks => some ({ s.set w (.running task) with tasks := tasks }, [.started w task])
        else none
      | _ => none
    | .finish w =>
      match s.workers w with
      | .running task => if w < numThreads then some (s.set w .looking, [.finished w task]) else none
      | _ => none
    | .wake w =>
      match s.workers w with
      | .sleeping => if w < numThreads then some (s.set w .looking, []) else none
      | _ => none

end Pool
end Pool
end LfSentry
