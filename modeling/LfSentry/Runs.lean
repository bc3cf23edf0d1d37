import Mathlib.Data.List.Basic
/-!
# Runs — a stepped system, its runs, and the rules that carry an invariant along them

A `Machine` takes one labelled step at a time and may say something at each step; a label that is not possible in a
state has no step.  A run is a list of labels, taken in order (`run`).  `Along` reads a condition at every step of a
run, on the state before it.  `ghost` adds a component that only records.
-/
namespace LfSentry

/-- A system that steps on labels `ι` from states `σ` and says a list of `ε` at each step. -/
structure Machine (σ ι ε : Type) where
  step : σ → ι → Option (σ × List ε)

namespace Machine

variable {σ ι ε γ : Type} (m : Machine σ ι ε)

/-- The labels in order: the state reached and everything said on the way. -/
def run : σ → List ι → Option (σ × List ε)
  | s, [] => some (s, [])
  | s, i :: is => (m.step s i).bind fun p => (run p.1 is).map fun q => (q.1, p.2 ++ q.2)

/-- `P` holds at every step of the run, of the state before the step and the label. -/
def Along (P : σ → ι → Prop) : σ → List ι → Prop
  | _, [] => True
  | s, i :: is => P s i ∧ ∀ t es, m.step s i = some (t, es) → Along P t is

@[simp] theorem run_nil (s : σ) : m.run s [] = some (s, []) := rfl

@[simp] theorem along_nil (P : σ → ι → Prop) (s : σ) : m.Along P s [] := trivial

theorem along_cons (P : σ → ι → Prop) (s : σ) (i : ι) (is : List ι) :
    m.Along P s (i :: is) ↔ P s i ∧ ∀ t es, m.step s i = some (t, es) → m.Along P t is := Iff.rfl

variable {m}

theorem run_cons {s u : σ} {i : ι} {is : List ι} {o : List ε} :
    m.run s (i :: is) = some (u, o) ↔
      ∃ t es o', m.step s i = some (t, es) ∧ m.run t is = some (u, o') ∧ o = es ++ o' := by
  simp only [run, Option.bind_eq_some_iff, Option.map_eq_some_iff, Prod.exists, Prod.mk.injEq]
  constructor
  · rintro ⟨t, es, hst, v, o', hr, rfl, rfl⟩
    exact ⟨t, es, o', hst, hr, rfl⟩
  · rintro ⟨t, es, o', hst, hr, rfl⟩
    exact ⟨t, es, hst, u, o', hr, rfl, rfl⟩

theorem run_append {s u : σ} {is js : List ι} {o : List ε} :
    m.run s (is ++ js) = some (u, o) ↔
      ∃ t o₁ o₂, m.run s is = some (t, o₁) ∧ m.run t js = some (u, o₂) ∧ o = o₁ ++ o₂ := by
  induction is generalizing s o with
  | nil => simp
  | cons i is ih =>
    rw [List.cons_append, run_cons]
    constructor
    · rintro ⟨t, es, o', hst, hr, rfl⟩
      obtain ⟨v, o₁, o₂, h1, h2, rfl⟩ := ih.1 hr
      exact ⟨v, es ++ o₁, o₂, run_cons.2 ⟨t, es, o₁, hst, h1, rfl⟩, h2, by rw [List.append_assoc]⟩
    · rintro ⟨v, o₁, o₂, h1, h2, rfl⟩
      obtain ⟨t, es, o', hst, hr, rfl⟩ := run_cons.1 h1
      exact ⟨t, es, o' ++ o₂, hst, ih.2 ⟨v, o', o₂, hr, h2, rfl⟩, by rw [List.append_assoc]⟩

theorem along_cons_of_step {P : σ → ι → Prop} {s t : σ} {i : ι} {is : List ι} {es : List ε}
    (hst : m.step s i = some (t, es)) : m.Along P s (i :: is) ↔ P s i ∧ m.Along P t is := by
  refine and_congr_right fun _ => ⟨fun h => h t es hst, fun h v es' hv => ?_⟩
  rw [hst, Option.some.injEq, Prod.mk.injEq] at hv
  exact hv.1 ▸ h

/-- **An invariant of the steps that meet `P` holds at the end of a run that meets `P`.** -/
theorem inv_of_along {P : σ → ι → Prop} {I : σ → Prop}
    (hstep : ∀ s i t es, I s → P s i → m.step s i = some (t, es) → I t) :
    ∀ {is : List ι} {s u : σ} {o : List ε}, I s → m.Along P s is → m.run s is = some (u, o) → I u
  | [], s, u, o, hI, _, hr => by
    simp only [run_nil, Option.some.injEq, Prod.mk.injEq] at hr
    exact hr.1 ▸ hI
  | i :: is, s, u, o, hI, hP, hr => by
    obtain ⟨t, es, o', hst, hr', rfl⟩ := run_cons.1 hr
    exact inv_of_along hstep (hstep s i t es hI hP.1 hst) (hP.2 t es hst) hr'

theorem inv_of_run {I : σ → Prop} (hstep : ∀ s i t es, I s → m.step s i = some (t, es) → I t)
    {is : List ι} {s u : σ} {o : List ε} (hI : I s) (hr : m.run s is = some (u, o)) : I u := by
  refine inv_of_along (P := fun _ _ => True) (fun s i t es hI _ hst => hstep s i t es hI hst) hI ?_ hr
  clear hI hr
  induction is generalizing s with
  | nil => trivial
  | cons i is ih => exact ⟨trivial, fun t _ _ => ih⟩

/-- **An invariant that also speaks of everything said so far.** -/
theorem inv_said_of_run {I : σ → List ε → Prop} (hstep : ∀ s i t es h, I s h → m.step s i = some (t, es) → I t (h ++ es)) :
    ∀ {is : List ι} {s u : σ} {h o : List ε}, I s h → m.run s is = some (u, o) → I u (h ++ o)
  | [], s, u, h, o, hI, hr => by
    simp only [run_nil, Option.some.injEq, Prod.mk.injEq] at hr
    obtain ⟨rfl, rfl⟩ := hr
    rwa [List.append_nil]
  | i :: is, s, u, h, o, hI, hr => by
    obtain ⟨t, es, o', hst, hr', rfl⟩ := run_cons.1 hr
    rw [← List.append_assoc]
    exact inv_said_of_run hstep (hstep s i t es h hI hst) hr'

/-- **A system whose every step is possible while an invariant holds runs through every list of labels.** -/
theorem exists_run {I : σ → Prop} (hstep : ∀ s i, I s → ∃ t es, m.step s i = some (t, es) ∧ I t) :
    ∀ (is : List ι) {s : σ}, I s → ∃ u o, m.run s is = some (u, o) ∧ I u
  | [], s, hI => ⟨s, [], rfl, hI⟩
  | i :: is, s, hI => by
    obtain ⟨t, es, hst, ht⟩ := hstep s i hI
    obtain ⟨u, o, hr, hu⟩ := exists_run hstep is ht
    exact ⟨u, es ++ o, run_cons.2 ⟨t, es, o, hst, hr, rfl⟩, hu⟩

/-- **What every step says while the invariant holds, the run says.** -/
theorem forall_mem_of_run {I : σ → Prop} {Q : ε → Prop}
    (hstep : ∀ s i t es, I s → m.step s i = some (t, es) → I t ∧ ∀ e ∈ es, Q e) :
    ∀ {is : List ι} {s u : σ} {o : List ε}, I s → m.run s is = some (u, o) → ∀ e ∈ o, Q e
  | [], s, u, o, _, hr => by
    simp only [run_nil, Option.some.injEq, Prod.mk.injEq] at hr
    rw [← hr.2]
    intro e he
    cases he
  | i :: is, s, u, o, hI, hr => by
    obtain ⟨t, es, o', hst, hr', rfl⟩ := run_cons.1 hr
    obtain ⟨ht, hQ⟩ := hstep s i t es hI hst
    intro e he
    rcases List.mem_append.1 he with h | h
    · exact hQ e h
    · exact forall_mem_of_run hstep ht hr' e h

/-- **Two conditions that agree at every step of an invariant that the first one keeps agree along every run.** -/
theorem along_iff {P Q : σ → ι → Prop} {I : σ → Prop} (hPQ : ∀ s i, I s → (P s i ↔ Q s i))
    (hstep : ∀ s i t es, I s → P s i → m.step s i = some (t, es) → I t) :
    ∀ {is : List ι} {s : σ}, I s → (m.Along P s is ↔ m.Along Q s is)
  | [], _, _ => Iff.rfl
  | i :: is, s, hI => by
    rw [along_cons, along_cons, hPQ s i hI]
    refine and_congr_right fun hQ => forall_congr' fun t => forall_congr' fun es => ?_
    exact imp_congr_right fun hst => along_iff hPQ hstep (hstep s i t es hI ((hPQ s i hI).2 hQ) hst)

/-- **Two conditions that agree at every step of an invariant that the first one keeps, along with `R`, agree along every run
that meets `R`.** -/
theorem along_congr {P Q R : σ → ι → Prop} {I : σ → Prop} (hPQ : ∀ s i, I s → R s i → (P s i ↔ Q s i))
    (hstep : ∀ s i t es, I s → R s i → P s i → m.step s i = some (t, es) → I t) :
    ∀ {is : List ι} {s : σ}, I s → m.Along R s is → (m.Along P s is ↔ m.Along Q s is)
  | [], _, _, _ => Iff.rfl
  | i :: is, s, hI, hR => by
    rw [along_cons, along_cons, hPQ s i hI hR.1]
    refine and_congr_right fun hQ => forall_congr' fun t => forall_congr' fun es => ?_
    refine imp_congr_right fun hst => along_congr hPQ hstep ?_ (hR.2 t es hst)
    exact hstep s i t es hI hR.1 ((hPQ s i hI hR.1).2 hQ) hst

theorem Along.imp {P Q : σ → ι → Prop} (h : ∀ s i, P s i → Q s i) {is : List ι} {s : σ} (hP : m.Along P s is) :
    m.Along Q s is := by
  induction is generalizing s with
  | nil => trivial
  | cons i is ih => exact ⟨h s i hP.1, fun t es hst => ih (hP.2 t es hst)⟩

/-- A condition on the labels alone. -/
theorem along_of_forall_mem {P : ι → Prop} {is : List ι} {s : σ} (h : ∀ i ∈ is, P i) : m.Along (fun _ i => P i) s is := by
  induction is generalizing s with
  | nil => trivial
  | cons i is ih => exact ⟨h i List.mem_cons_self, fun t es _ => ih fun j hj => h j (List.mem_cons_of_mem i hj)⟩

/-- A condition that follows from `P` where an invariant of the steps that meet `P` holds. -/
theorem Along.imp_of_inv {P Q : σ → ι → Prop} {I : σ → Prop} (h : ∀ s i, I s → P s i → Q s i)
    (hstep : ∀ s i t es, I s → P s i → m.step s i = some (t, es) → I t) {is : List ι} {s : σ} (hI : I s)
    (hP : m.Along P s is) : m.Along Q s is := by
  induction is generalizing s with
  | nil => trivial
  | cons i is ih => exact ⟨h s i hI hP.1, fun t es hst => ih (hstep s i t es hI hP.1 hst) (hP.2 t es hst)⟩

/-- **What an invariant says of every step holds along every run.** -/
theorem along_of_inv {Q : σ → ι → Prop} {I : σ → Prop} (h : ∀ s i, I s → Q s i)
    (hstep : ∀ s i t es, I s → m.step s i = some (t, es) → I t) {is : List ι} {s : σ} (hI : I s) : m.Along Q s is := by
  induction is generalizing s with
  | nil => trivial
  | cons i is ih => exact ⟨h s i hI, fun t es hst => ih (hstep s i t es hI hst)⟩

theorem along_append {P : σ → ι → Prop} : ∀ {is js : List ι} {s t : σ} {o : List ε}, m.run s is = some (t, o) →
    (m.Along P s (is ++ js) ↔ m.Along P s is ∧ m.Along P t js)
  | [], js, s, t, o, hr => by
    simp only [run_nil, Option.some.injEq, Prod.mk.injEq] at hr
    rw [List.nil_append, hr.1]
    exact (and_iff_right trivial).symm
  | i :: is, js, s, u, o, hr => by
    obtain ⟨t, es, o', hst, hr', rfl⟩ := run_cons.1 hr
    rw [List.cons_append, along_cons_of_step hst, along_cons_of_step hst, along_append hr', and_assoc]

/-- A condition along a run and along whatever follows it. -/
theorem Along.append {P : σ → ι → Prop} : ∀ {is js : List ι} {s : σ}, m.Along P s is →
    (∀ t o, m.run s is = some (t, o) → m.Along P t js) → m.Along P s (is ++ js)
  | [], _, s, _, hjs => hjs s [] rfl
  | _ :: _, _, _, his, hjs =>
    ⟨his.1, fun t es hst => (his.2 t es hst).append fun u o hr =>
      hjs u (es ++ o) (run_cons.2 ⟨t, es, o, hst, hr, rfl⟩)⟩

/-! ## A recording component -/

/-- The same system carrying a record that each step extends, from what it saw, and nothing reads. -/
def ghost (m : Machine σ ι ε) (rec : γ → σ → ι → σ × List ε → γ) : Machine (σ × γ) ι ε where
  step p i := (m.step p.1 i).map fun q => ((q.1, rec p.2 p.1 i q), q.2)

theorem ghost_step {rec : γ → σ → ι → σ × List ε → γ} {p q : σ × γ} {i : ι} {es : List ε} :
    (m.ghost rec).step p i = some (q, es) ↔ m.step p.1 i = some (q.1, es) ∧ q.2 = rec p.2 p.1 i (q.1, es) := by
  obtain ⟨t, g⟩ := q
  simp only [ghost, Option.map_eq_some_iff, Prod.mk.injEq, Prod.exists]
  constructor
  · rintro ⟨a, b, h, ⟨rfl, rfl⟩, rfl⟩
    exact ⟨h, rfl⟩
  · rintro ⟨h, rfl⟩
    exact ⟨t, es, h, ⟨rfl, rfl⟩, rfl⟩

theorem ghost_run_of_run {rec : γ → σ → ι → σ × List ε → γ} :
    ∀ {is : List ι} {s u : σ} {o : List ε} (g : γ), m.run s is = some (u, o) →
      ∃ g', (m.ghost rec).run (s, g) is = some ((u, g'), o)
  | [], s, u, o, g, hr => by
    simp only [run_nil, Option.some.injEq, Prod.mk.injEq] at hr
    obtain ⟨rfl, rfl⟩ := hr
    exact ⟨g, rfl⟩
  | i :: is, s, u, o, g, hr => by
    obtain ⟨t, es, o', hst, hr', rfl⟩ := run_cons.1 hr
    obtain ⟨g', hg⟩ := ghost_run_of_run (rec g s i (t, es)) hr'
    exact ⟨g', run_cons.2 ⟨(t, rec g s i (t, es)), es, o', ghost_step.2 ⟨hst, rfl⟩, hg, rfl⟩⟩

/-! ## A system that follows another -/

/-- **A simulation of the steps is one of the runs**, which say the same. -/
theorem run_of_simulation {σ' ι' : Type} {m' : Machine σ' ι' ε} (f : ι → ι') {R : σ → σ' → Prop}
    (hstep : ∀ s s' i t es, R s s' → m.step s i = some (t, es) → ∃ t', m'.step s' (f i) = some (t', es) ∧ R t t') :
    ∀ {is : List ι} {s u : σ} {s' : σ'} {o : List ε}, R s s' → m.run s is = some (u, o) →
      ∃ u', m'.run s' (is.map f) = some (u', o) ∧ R u u'
  | [], s, u, s', o, hR, hr => by
    simp only [run_nil, Option.some.injEq, Prod.mk.injEq] at hr
    obtain ⟨rfl, rfl⟩ := hr
    exact ⟨s', rfl, hR⟩
  | i :: is, s, u, s', o, hR, hr => by
    obtain ⟨t, es, o', hst, hr', rfl⟩ := run_cons.1 hr
    obtain ⟨t', hst', hR'⟩ := hstep s s' i t es hR hst
    obtain ⟨u', hu, hRu⟩ := run_of_simulation f hstep hR' hr'
    exact ⟨u', run_cons.2 ⟨t', es, o', hst', hu, rfl⟩, hRu⟩

/-! ## Two systems side by side -/

/-- Two systems that take every label together, each in its own view of it. -/
def sync {σ' ι' κ : Type} (m : Machine σ ι ε) (m' : Machine σ' ι' ε) (f : κ → ι) (g : κ → ι') : Machine (σ × σ') κ ε where
  step p k := (m.step p.1 (f k)).bind fun q => (m'.step p.2 (g k)).map fun r => ((q.1, r.1), q.2 ++ r.2)

section Sync

variable {σ' ι' κ : Type} {m' : Machine σ' ι' ε} {f : κ → ι} {g : κ → ι'}

theorem sync_step {p q : σ × σ'} {k : κ} {es : List ε} :
    (m.sync m' f g).step p k = some (q, es) ↔
      ∃ es₁ es₂, m.step p.1 (f k) = some (q.1, es₁) ∧ m'.step p.2 (g k) = some (q.2, es₂) ∧ es = es₁ ++ es₂ := by
  obtain ⟨q₁, q₂⟩ := q
  simp only [sync, Option.bind_eq_some_iff, Option.map_eq_some_iff, Prod.mk.injEq, Prod.exists]
  constructor
  · rintro ⟨a, es₁, h₁, b, es₂, h₂, ⟨rfl, rfl⟩, rfl⟩
    exact ⟨es₁, es₂, h₁, h₂, rfl⟩
  · rintro ⟨es₁, es₂, h₁, h₂, rfl⟩
    exact ⟨q₁, es₁, h₁, q₂, es₂, h₂, ⟨rfl, rfl⟩, rfl⟩

/-- **Each side of a run is a run of its system.** -/
theorem sync_run : ∀ {ks : List κ} {p q : σ × σ'} {o : List ε}, (m.sync m' f g).run p ks = some (q, o) →
    (∃ o₁, m.run p.1 (ks.map f) = some (q.1, o₁)) ∧ ∃ o₂, m'.run p.2 (ks.map g) = some (q.2, o₂)
  | [], p, q, o, hr => by
    simp only [run_nil, Option.some.injEq, Prod.mk.injEq] at hr
    obtain ⟨rfl, -⟩ := hr
    exact ⟨⟨[], rfl⟩, ⟨[], rfl⟩⟩
  | k :: ks, p, q, o, hr => by
    obtain ⟨t, es, o', hst, hr', rfl⟩ := run_cons.1 hr
    obtain ⟨es₁, es₂, h₁, h₂, -⟩ := sync_step.1 hst
    obtain ⟨⟨o₁, hl⟩, ⟨o₂, hrun⟩⟩ := sync_run hr'
    exact ⟨⟨es₁ ++ o₁, run_cons.2 ⟨t.1, es₁, o₁, h₁, hl, rfl⟩⟩,
      ⟨es₂ ++ o₂, run_cons.2 ⟨t.2, es₂, o₂, h₂, hrun, rfl⟩⟩⟩

end Sync

end Machine
end LfSentry
