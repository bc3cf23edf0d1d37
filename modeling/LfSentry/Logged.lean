import Mathlib.Data.List.Basic
/-!
# Logged — computations that say what they do and may throw

A computation says a list of events and ends with a value or an exception; what comes after an exception is neither done nor
said.  `Says` is about every event, `SaysIfDone` about the events of a computation that throws nothing; both pass from the
parts of a computation to the whole.
-/
namespace LfSentry

/-- What is said, and the value; `none` is an exception. -/
structure Logged (ε α : Type) where
  events : List ε
  value : Option α

namespace Logged

variable {ε α β : Type}

def bind (x : Logged ε α) (f : α → Logged ε β) : Logged ε β :=
  match x.value with
  | none => ⟨x.events, none⟩
  | some a => ⟨x.events ++ (f a).events, (f a).value⟩

instance : Monad (Logged ε) where
  pure a := ⟨[], some a⟩
  bind := bind

def say (e : ε) : Logged ε Unit := ⟨[e], some ()⟩

def throw : Logged ε α := ⟨[], none⟩

/-- A handler for the exceptions of `x`. -/
def attempt (x : Logged ε α) : Logged ε (Option α) := ⟨x.events, some x.value⟩

@[simp] theorem value_pure (a : α) : (Pure.pure a : Logged ε α).value = some a := rfl

@[simp] theorem value_bind (x : Logged ε α) (f : α → Logged ε β) : (x >>= f).value = x.value.bind fun a => (f a).value := by
  change (x.bind f).value = _
  unfold bind
  split <;> simp_all

@[simp] theorem value_say (e : ε) : (say e).value = some () := rfl

@[simp] theorem value_throw : (throw : Logged ε α).value = none := rfl

@[simp] theorem value_attempt (x : Logged ε α) : x.attempt.value = some x.value := rfl

/-! ## What is said -/

def Says (P : ε → Prop) (x : Logged ε α) : Prop := ∀ e ∈ x.events, P e

def SaysIfDone (P : ε → Prop) (x : Logged ε α) : Prop := x.value ≠ none → ∀ e ∈ x.events, P e

variable {P : ε → Prop}

theorem says_pure (a : α) : (Pure.pure a : Logged ε α).Says P := fun _ he => absurd he List.not_mem_nil

theorem says_throw : (throw : Logged ε α).Says P := fun _ he => absurd he List.not_mem_nil

theorem says_say {e : ε} (h : P e) : (say e).Says P := fun e' he => by rwa [List.mem_singleton.1 he]

/-- **A part and what follows it, the whole.** -/
theorem says_bind_iff {x : Logged ε α} {f : α → Logged ε β} :
    (x >>= f).Says P ↔ x.Says P ∧ ∀ a, x.value = some a → (f a).Says P := by
  change (x.bind f).Says P ↔ _
  unfold bind
  split
  · rename_i hnone
    exact ⟨fun h => ⟨h, fun a ha => by rw [hnone] at ha; cases ha⟩, fun h => h.1⟩
  · rename_i a hsome
    constructor
    · refine fun h => ⟨fun e he => h e (List.mem_append_left _ he), fun b hb e he => ?_⟩
      rw [hsome] at hb
      cases hb
      exact h e (List.mem_append_right _ he)
    · intro h e he
      rcases List.mem_append.1 he with hx | hf
      · exact h.1 e hx
      · exact h.2 a hsome e hf

theorem says_bind {x : Logged ε α} {f : α → Logged ε β} (hx : x.Says P) (hf : ∀ a, (f a).Says P) : (x >>= f).Says P :=
  says_bind_iff.2 ⟨hx, fun a _ => hf a⟩

theorem SaysIfDone.always {x : Logged ε α} (h : x.Says P) : x.SaysIfDone P := fun _ => h

theorem saysIfDone_bind {x : Logged ε α} {f : α → Logged ε β} (hx : x.SaysIfDone P) (hf : ∀ a, (f a).SaysIfDone P) :
    (x >>= f).SaysIfDone P := by
  intro hdone
  rw [value_bind] at hdone
  have hsome : x.value ≠ none := fun hnone => hdone (by rw [hnone, Option.bind_none])
  obtain ⟨a, ha⟩ := Option.ne_none_iff_exists'.1 hsome
  rw [ha, Option.bind_some] at hdone
  refine says_bind_iff.2 ⟨hx (by rw [ha]; simp), fun b hb => ?_⟩
  rw [ha, Option.some.injEq] at hb
  exact hf b (hb ▸ hdone)

end Logged
end LfSentry
