import Mathlib.Data.List.Sort
import Mathlib.Data.List.FinRange
import Mathlib.Logic.Function.Basic
import Mathlib.Order.Lattice
/-!
# Comparisons — procedures that learn of their elements by comparing them

A `Program` asks which of two elements is less, goes on with the answer, and ends with a result.  The answer may be missing,
where it is not defined; then there is no result.  A program that sorts by every key compares every element that is not
alone (`run_eq_none`): with no answer for one element the result would be the same wherever that element belongs.
-/
namespace LfSentry
namespace Comparisons

/-- A procedure over the elements `ι` with results in `α`. -/
inductive Program (ι α : Type)
  | done (result : α)
  | ask (i j : ι) (next : Bool → Program ι α)

namespace Program

variable {ι α β : Type}

/-- The result if all that is asked has an answer. -/
def run (less : ι → ι → Option Bool) : Program ι α → Option α
  | done result => some result
  | ask i j next => (less i j).bind fun answer => (next answer).run less

def bind : Program ι α → (α → Program ι β) → Program ι β
  | done result, f => f result
  | ask i j next, f => ask i j fun answer => (next answer).bind f

theorem run_bind (less : ι → ι → Option Bool) (f : α → Program ι β) :
    ∀ p : Program ι α, (p.bind f).run less = (p.run less).bind fun a => (f a).run less
  | done result => rfl
  | ask i j next => by
    simp only [bind, run, Option.bind_assoc]
    exact congrArg _ (funext fun answer => run_bind less f (next answer))

/-- **More answers do not change a result.** -/
theorem run_mono {less less' : ι → ι → Option Bool} (h : ∀ i j answer, less i j = some answer → less' i j = some answer) :
    ∀ {p : Program ι α} {a : α}, p.run less = some a → p.run less' = some a
  | done result, a, hr => hr
  | ask i j next, a, hr => by
    obtain ⟨answer, hanswer, hrest⟩ := Option.bind_eq_some_iff.1 hr
    rw [run, h i j answer hanswer]
    exact run_mono h hrest

end Program

/-! ## Sorting -/

section Sorts

variable {ι : Type}

/-- The answers by a key. -/
def byKey (key : ι → Int) (i j : ι) : Option Bool := some (decide (key i < key j))

/-- The answers by a key among elements for which there is one. -/
def partially (defined : ι → Prop) [DecidablePred defined] (key : ι → Int) (i j : ι) : Option Bool :=
  if defined i ∧ defined j then byKey key i j else none

/-- By every key the program orders the elements. -/
def Sorts (all : List ι) (p : Program ι (List ι)) : Prop :=
  ∀ key : ι → Int, ∃ order, p.run (byKey key) = some order ∧ order.Perm all ∧ order.Pairwise fun i j => key i ≤ key j

variable {all : List ι} {p : Program ι (List ι)} {defined : ι → Prop} [DecidablePred defined]

/-- A result found without an element is the result by every key of that element. -/
theorem run_update [DecidableEq ι] {key : ι → Int} {order : List ι} {x : ι} (hx : ¬ defined x)
    (h : p.run (partially defined key) = some order) (v : Int) : p.run (byKey (Function.update key x v)) = some order := by
  refine Program.run_mono (fun i j answer ha => ?_) h
  unfold partially at ha
  by_cases hij : defined i ∧ defined j
  · rw [if_pos hij] at ha
    have hi : i ≠ x := fun h => hx (h ▸ hij.1)
    have hj : j ≠ x := fun h => hx (h ▸ hij.2)
    rw [← ha, byKey, byKey, Function.update_of_ne hi, Function.update_of_ne hj]
  · rw [if_neg hij] at ha
    cases ha

/-- **A program that sorts has no result where an element is not defined and not the only one.** -/
theorem run_eq_none [DecidableEq ι] (hsorts : Sorts all p) (key : ι → Int) {x y : ι} (hx : x ∈ all) (hy : y ∈ all)
    (hne : y ≠ x) (hundefined : ¬ defined x) : p.run (partially defined key) = none := by
  rw [Option.eq_none_iff_forall_ne_some]
  intro order horder
  -- the same order would do with `x` below `y` and with `x` above it
  have hsorted : ∀ v, order.Perm all ∧ order.Pairwise fun i j => Function.update key x v i ≤ Function.update key x v j := by
    intro v
    obtain ⟨order', hrun, hperm, hpairwise⟩ := hsorts (Function.update key x v)
    rw [run_update hundefined horder v, Option.some.injEq] at hrun
    subst hrun
    exact ⟨hperm, hpairwise⟩
  have hkey : ∀ v, Function.update key x v x = v ∧ Function.update key x v y = key y :=
    fun v => ⟨Function.update_self .., Function.update_of_ne hne ..⟩
  obtain ⟨before, after, hsplit⟩ := List.append_of_mem ((hsorted 0).1.mem_iff.2 hx)
  have hyorder : y ∈ order := (hsorted 0).1.mem_iff.2 hy
  rw [hsplit, List.mem_append, List.mem_cons] at hyorder
  rcases hyorder with hbefore | rfl | hafter
  · have hpairwise := (hsorted (key y - 1)).2
    rw [hsplit, List.pairwise_append] at hpairwise
    have hle := hpairwise.2.2 y hbefore x List.mem_cons_self
    rw [(hkey _).1, (hkey _).2] at hle
    omega
  · exact hne rfl
  · have hpairwise := (hsorted (key y + 1)).2
    rw [hsplit, List.pairwise_append, List.pairwise_cons] at hpairwise
    have hle := hpairwise.2.1.1 y hafter
    rw [(hkey _).1, (hkey _).2] at hle
    omega

/-- Where every element is defined the result is that of the key. -/
theorem run_partially (hsorts : Sorts all p) (key : ι → Int) (hdefined : ∀ i, defined i) :
    ∃ order, p.run (partially defined key) = some order ∧ order.Perm all ∧ order.Pairwise fun i j => key i ≤ key j := by
  obtain ⟨order, hrun, h⟩ := hsorts key
  refine ⟨order, Program.run_mono (fun i j answer ha => ?_) hrun, h⟩
  rw [partially, if_pos ⟨hdefined i, hdefined j⟩]
  exact ha

end Sorts

/-- A procedure that sorts any number of elements, and compares none where there are fewer than two. -/
structure Sorter where
  program : (n : Nat) → Program (Fin n) (List (Fin n))
  sorts : ∀ n, Sorts (List.finRange n) (program n)
  few : ∀ n ≤ 1, ∃ order, program n = .done order

/-! ## Insertion sort -/

section Insertion

variable {ι : Type}

def insert (i : ι) : List ι → Program ι (List ι)
  | [] => .done [i]
  | j :: order => .ask j i fun answer =>
    if answer then (insert i order).bind fun rest => .done (j :: rest) else .done (i :: j :: order)

def insertAll : List ι → Program ι (List ι)
  | [] => .done []
  | i :: rest => (insertAll rest).bind (insert i)

theorem run_insert (key : ι → Int) (i : ι) : ∀ order : List ι,
    (insert i order).run (byKey key) = some (order.orderedInsert (fun a b => key a ≤ key b) i)
  | [] => rfl
  | j :: order => by
    rw [insert, Program.run, byKey, Option.bind_some]
    by_cases h : key j < key i
    · rw [decide_eq_true h, if_pos rfl, Program.run_bind, run_insert key i order,
        List.orderedInsert_cons, if_neg (not_le.2 h)]
      rfl
    · rw [decide_eq_false h, List.orderedInsert_cons, if_pos (not_lt.1 h)]
      rfl

theorem run_insertAll (key : ι → Int) : ∀ l : List ι,
    (insertAll l).run (byKey key) = some (l.insertionSort fun a b => key a ≤ key b)
  | [] => rfl
  | i :: rest => by
    rw [insertAll, Program.run_bind, run_insertAll key rest, Option.bind_some, run_insert, List.insertionSort_cons]

theorem sorts_insertAll (l : List ι) : Sorts l (insertAll l) := by
  intro key
  have htotal : Std.Total fun a b : ι => key a ≤ key b := ⟨fun a b => le_total (key a) (key b)⟩
  have htrans : IsTrans ι fun a b => key a ≤ key b := ⟨fun a b c => le_trans⟩
  exact ⟨_, run_insertAll key l, List.perm_insertionSort _ l, List.pairwise_insertionSort _ l⟩

def insertionSorter : Sorter where
  program n := insertAll (List.finRange n)
  sorts n := sorts_insertAll (List.finRange n)
  few n hn := by
    match n, hn with
    | 0, _ => exact ⟨[], rfl⟩
    | 1, _ => exact ⟨[0], rfl⟩

end Insertion

end Comparisons
end LfSentry
