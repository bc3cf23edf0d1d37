import LfSentry.WhileLoop
import Mathlib.Data.Finset.Card
import Mathlib.Data.List.Nodup
import Mathlib.Logic.Function.Basic
import Mathlib.Logic.Relation
import Mathlib.Order.Lattice
/-!
# Flood — a search that spreads from one place and bars others on its way

A place taken from the queue looks at the places around it that have no mark yet: some join it and are queued, some are
barred for good, the rest stay as they are.  The search ends, and what it has reached is all that a walk from the start can
reach without a barred place (`fill_spec`).
-/
namespace LfSentry
namespace Flood

inductive Mark
  | unseen
  | queued
  | done
  | barred
  deriving DecidableEq, Repr

structure State (ι : Type) where
  mark : ι → Mark
  queue : List ι

variable {ι : Type} (around : ι → List ι) (joins bars : ι → ι → Prop)

/-- A step of a walk whose places the search has done. -/
def DoneStep (mark : ι → Mark) (f c : ι) : Prop := mark f = .done ∧ c ∈ around f ∧ joins f c

/-- What the marks say while `looking` is looking around and still has `left` to look at. -/
structure Spread (start : ι) (mark : ι → Mark) (looking : Option ι) (left : List ι) : Prop where
  started : mark start = .queued ∨ mark start = .done
  reached : ∀ c, mark c = .queued ∨ mark c = .done → Relation.ReflTransGen (DoneStep around joins mark) start c
  looked : ∀ f c, mark f = .done → c ∈ around f → mark c = .unseen →
    (¬ joins f c ∧ ¬ bars f c) ∨ (looking = some f ∧ c ∈ left)
  barred : ∀ c, mark c = .barred → ∃ f, mark f = .done ∧ c ∈ around f ∧ ¬ joins f c ∧ bars f c

/-- The queue holds what is marked as queued, once. -/
structure Queued (s : State ι) : Prop where
  nodup : s.queue.Nodup
  iff : ∀ c, c ∈ s.queue ↔ s.mark c = .queued

variable {around joins bars}

/-- What has been reached stays reached while more is done. -/
theorem reached_mono {mark mark' : ι → Mark} (h : ∀ f, mark f = .done → mark' f = .done) {a b : ι}
    (hab : Relation.ReflTransGen (DoneStep around joins mark) a b) :
    Relation.ReflTransGen (DoneStep around joins mark') a b :=
  Relation.ReflTransGen.mono (fun x _ hxy => ⟨h x hxy.1, hxy.2⟩) a b hab

variable {start f c : ι} {s : State ι} {mark : ι → Mark} {left : List ι} {m : Mark}

/-- A place that is not marked has a mark, or neither joins nor is barred. -/
theorem Spread.pass (h : Spread around joins bars start mark (some f) (c :: left))
    (hc : mark c = .unseen → ¬ joins f c ∧ ¬ bars f c) : Spread around joins bars start mark (some f) left where
  started := h.started
  reached := h.reached
  barred := h.barred
  looked g d hg hd hud := by
    rcases h.looked g d hg hd hud with hno | ⟨hlook, hmem⟩
    · exact Or.inl hno
    · rcases List.mem_cons.1 hmem with rfl | hmem
      · exact Or.inl (Option.some.inj hlook ▸ hc hud)
      · exact Or.inr ⟨hlook, hmem⟩

variable [DecidableEq ι]

/-- **A place is marked by the one that looks at it.** -/
theorem Spread.put (h : Spread around joins bars start mark (some f) (c :: left)) (hf : mark f = .done) (hc : c ∈ around f)
    (hu : mark c = .unseen) (hm : (m = .queued ∧ joins f c) ∨ (m = .barred ∧ ¬ joins f c ∧ bars f c)) :
    Spread around joins bars start (Function.update mark c m) (some f) left := by
  have hother : ∀ g, g ≠ c → Function.update mark c m g = mark g := fun g hg => Function.update_of_ne hg _ _
  have hdone : ∀ g, mark g = .done → Function.update mark c m g = .done := by
    intro g hg
    rw [hother g (fun heq => by simp [heq, hu] at hg), hg]
  have hdone' : ∀ g, Function.update mark c m g = .done → mark g = .done := by
    intro g hg
    by_cases hgc : g = c
    · rcases hm with ⟨rfl, -⟩ | ⟨rfl, -⟩ <;> simp [hgc] at hg
    · rwa [hother g hgc] at hg
  refine ⟨?_, fun g hg => ?_, fun g d hg hd hud => ?_, fun g hg => ?_⟩
  · rw [hother start fun heq => by rcases h.started with h | h <;> simp [heq, hu] at h]
    exact h.started
  · refine reached_mono hdone ?_
    by_cases hgc : g = c
    · rcases hm with ⟨-, hjoin⟩ | ⟨rfl, -⟩
      · exact hgc ▸ (h.reached f (Or.inr hf)).tail ⟨hf, hc, hjoin⟩
      · simp [hgc] at hg
    · rw [hother g hgc] at hg
      exact h.reached g hg
  · have hdc : d ≠ c := by
      rintro rfl
      rcases hm with ⟨rfl, -⟩ | ⟨rfl, -⟩ <;> simp at hud
    rw [hother d hdc] at hud
    exact (h.looked g d (hdone' g hg) hd hud).imp_right fun ⟨hlook, hmem⟩ =>
      ⟨hlook, (List.mem_cons.1 hmem).resolve_left hdc⟩
  · by_cases hgc : g = c
    · rcases hm with ⟨rfl, -⟩ | ⟨-, hjoin, hbar⟩
      · simp [hgc] at hg
      · exact ⟨f, hdone f hf, hgc ▸ hc, hgc ▸ hjoin, hgc ▸ hbar⟩
    · rw [hother g hgc] at hg
      obtain ⟨e, he, hrest⟩ := h.barred g hg
      exact ⟨e, hdone e he, hrest⟩

section Search

variable (around joins bars) [DecidableRel joins] [DecidableRel bars]

/-- The place `f` looks at `c`. -/
def look (f : ι) (s : State ι) (c : ι) : State ι :=
  if s.mark c = .unseen then
    if joins f c then ⟨Function.update s.mark c .queued, s.queue ++ [c]⟩
    else if bars f c then { s with mark := Function.update s.mark c .barred }
    else s
  else s

/-- The first of the queue is done, and looks around. -/
def expand (s : State ι) : State ι :=
  match s.queue with
  | [] => s
  | f :: rest => (around f).foldl (look joins bars f) ⟨Function.update s.mark f .done, rest⟩

def seed (start : ι) : State ι := ⟨Function.update (fun _ => .unseen) start .queued, [start]⟩

/-- `while (!queue.empty())`. -/
def fill (start : ι) (fuel : Nat) : Option (State ι) :=
  whileLoop (fun s => s.queue ≠ []) (expand around joins bars) fuel (seed start)

variable {around joins bars}

/-- **One look.** -/
theorem Spread.look (h : Spread around joins bars start s.mark (some f) (c :: left)) (hf : s.mark f = .done)
    (hc : c ∈ around f) : Spread around joins bars start (look joins bars f s c).mark (some f) left := by
  unfold Flood.look
  split_ifs with hu hjoin hbar
  · exact h.put hf hc hu (Or.inl ⟨rfl, hjoin⟩)
  · exact h.put hf hc hu (Or.inr ⟨rfl, hjoin, hbar⟩)
  · exact h.pass fun _ => ⟨hjoin, hbar⟩
  · exact h.pass fun hu' => absurd hu' hu

theorem look_done (hf : s.mark f = .done) : (look joins bars f s c).mark f = .done := by
  unfold Flood.look
  split_ifs with hu
  · exact (Function.update_of_ne (fun heq => by simp [← heq, hf] at hu) _ _).trans hf
  · exact (Function.update_of_ne (fun heq => by simp [← heq, hf] at hu) _ _).trans hf
  · exact hf
  · exact hf

theorem Queued.look (h : Queued s) : Queued (look joins bars f s c) := by
  unfold Flood.look
  split_ifs with hu
  · have hcq : c ∉ s.queue := fun hmem => by simp [(h.iff c).1 hmem] at hu
    refine ⟨List.nodup_append.2 ⟨h.nodup, List.nodup_singleton c, fun a ha b hb heq =>
      hcq (List.mem_singleton.1 hb ▸ heq ▸ ha)⟩, fun g => ?_⟩
    by_cases hgc : g = c
    · simp [hgc]
    · simp [hgc, h.iff g]
  · have hcq : c ∉ s.queue := fun hmem => by simp [(h.iff c).1 hmem] at hu
    refine ⟨h.nodup, fun g => ?_⟩
    by_cases hgc : g = c
    · simp [hgc, hcq]
    · simp [hgc, h.iff g]
  · exact h
  · exact h

/-- How much the search may still do: a place without a mark can be queued and taken from the queue. -/
def credit (all : Finset ι) (s : State ι) : Nat := 2 * (all.filter fun c => s.mark c = .unseen).card + s.queue.length

theorem card_update_lt {all : Finset ι} (hc : c ∈ all) (hu : mark c = .unseen) (hm : m ≠ .unseen) :
    (all.filter fun d => Function.update mark c m d = .unseen).card < (all.filter fun d => mark d = .unseen).card := by
  refine Finset.card_lt_card (Finset.ssubset_iff_of_subset (fun d hd => ?_) |>.2 ⟨c, ?_, ?_⟩)
  · obtain ⟨hd, hud⟩ := Finset.mem_filter.1 hd
    have hdc : d ≠ c := fun heq => by simp [heq, hm] at hud
    rw [Function.update_of_ne hdc] at hud
    exact Finset.mem_filter.2 ⟨hd, hud⟩
  · exact Finset.mem_filter.2 ⟨hc, hu⟩
  · simp [hm]

theorem credit_look {all : Finset ι} (hc : c ∈ all) : credit all (look joins bars f s c) ≤ credit all s := by
  unfold Flood.look
  split_ifs with hu
  · have := card_update_lt (m := .queued) hc hu (by decide)
    simp only [credit, List.length_append, List.length_singleton]
    omega
  · have := card_update_lt (m := .barred) hc hu (by decide)
    simp only [credit]
    omega
  · exact le_rfl
  · exact le_rfl

/-- **All the looks of one place.** -/
theorem looks {all : Finset ι} (hall : ∀ c ∈ around f, c ∈ all) : ∀ {l : List ι} {s : State ι}, (∀ c ∈ l, c ∈ around f) →
    Queued s → s.mark f = .done → Spread around joins bars start s.mark (some f) l →
    Queued (l.foldl (look joins bars f) s) ∧
      Spread around joins bars start (l.foldl (look joins bars f) s).mark (some f) [] ∧
      credit all (l.foldl (look joins bars f) s) ≤ credit all s
  | [], _, _, hq, _, hs => ⟨hq, hs, le_rfl⟩
  | c :: l, s, hl, hq, hf, hs => by
    have hc := hl c List.mem_cons_self
    obtain ⟨hq', hs', hle⟩ := looks hall (fun d hd => hl d (List.mem_cons_of_mem c hd)) hq.look (look_done hf) (hs.look hf hc)
    exact ⟨hq', hs', hle.trans (credit_look (hall c hc))⟩

/-- Nobody is looking around. -/
structure Settled (around : ι → List ι) (joins bars : ι → ι → Prop) (start : ι) (s : State ι) : Prop where
  queued : Queued s
  spread : Spread around joins bars start s.mark none []

omit [DecidableEq ι] [DecidableRel joins] [DecidableRel bars] in
/-- The one that has nothing left to look at is no longer looking. -/
theorem Spread.settle (h : Spread around joins bars start mark (some f) []) :
    Spread around joins bars start mark none [] where
  started := h.started
  reached := h.reached
  barred := h.barred
  looked g d hg hd hud := (h.looked g d hg hd hud).imp_right fun ⟨_, hmem⟩ => absurd hmem List.not_mem_nil

omit [DecidableRel joins] [DecidableRel bars] in
/-- The first of the queue begins to look around. -/
theorem Spread.begin (h : Spread around joins bars start mark none []) (hf : mark f = .queued) :
    Spread around joins bars start (Function.update mark f .done) (some f) (around f) := by
  have hother : ∀ g, g ≠ f → Function.update mark f .done g = mark g := fun g hg => Function.update_of_ne hg _ _
  have hdone : ∀ g, mark g = .done → Function.update mark f .done g = .done := by
    intro g hg
    by_cases hgf : g = f
    · simp [hgf]
    · rw [hother g hgf, hg]
  refine ⟨?_, fun g hg => reached_mono hdone ?_, fun g d hg hd hud => ?_, fun g hg => ?_⟩
  · by_cases hsf : start = f
    · simp [hsf]
    · rw [hother start hsf]
      exact h.started
  · by_cases hgf : g = f
    · exact h.reached g (Or.inl (hgf ▸ hf))
    · rw [hother g hgf] at hg
      exact h.reached g hg
  · have hdf : d ≠ f := fun heq => by simp [heq] at hud
    rw [hother d hdf] at hud
    by_cases hgf : g = f
    · exact Or.inr ⟨by rw [hgf], hgf ▸ hd⟩
    · rw [hother g hgf] at hg
      exact (h.looked g d hg hd hud).imp_right fun ⟨hlook, _⟩ => by cases hlook
  · have hgf : g ≠ f := fun heq => by simp [heq] at hg
    rw [hother g hgf] at hg
    obtain ⟨e, he, hrest⟩ := h.barred g hg
    exact ⟨e, hdone e he, hrest⟩

omit [DecidableEq ι] [DecidableRel joins] [DecidableRel bars] in
theorem Spread.mem_all {all : Finset ι} (hall : ∀ f ∈ all, ∀ c ∈ around f, c ∈ all) (hstart : start ∈ all)
    (h : Spread around joins bars start mark none []) (hf : mark f = .queued ∨ mark f = .done) : f ∈ all := by
  induction h.reached f hf with
  | refl => exact hstart
  | tail _ hstep ih => exact hall _ (ih (Or.inr hstep.1)) _ hstep.2.1

/-- **The first of the queue is done and has looked around.** -/
theorem Settled.expand {all : Finset ι} (hall : ∀ f ∈ all, ∀ c ∈ around f, c ∈ all) (hstart : start ∈ all)
    (h : Settled around joins bars start s) (hne : s.queue ≠ []) :
    Settled around joins bars start (expand around joins bars s) ∧
      credit all (expand around joins bars s) < credit all s := by
  obtain ⟨f, rest, hq⟩ := List.exists_cons_of_ne_nil hne
  have hf : s.mark f = .queued := (h.queued.iff f).1 (by simp [hq])
  have hnodup := h.queued.nodup
  rw [hq, List.nodup_cons] at hnodup
  set t : State ι := ⟨Function.update s.mark f .done, rest⟩ with ht
  have hqueued : Queued t := by
    refine ⟨hnodup.2, fun c => ?_⟩
    by_cases hcf : c = f
    · simp [ht, hcf, hnodup.1]
    · have := h.queued.iff c
      rw [hq] at this
      simpa [ht, hcf] using this
  have hfall : f ∈ all := h.spread.mem_all hall hstart (Or.inl hf)
  obtain ⟨hq', hs', hle⟩ := looks (s := t) (l := around f) (hall f hfall) (fun c hc => hc) hqueued (by simp [ht])
    (h.spread.begin hf)
  have hexpand : Flood.expand around joins bars s = (around f).foldl (Flood.look joins bars f) t := by
    rw [Flood.expand, hq]
  rw [hexpand]
  refine ⟨⟨hq', hs'.settle⟩, hle.trans_lt ?_⟩
  have hcard : (all.filter fun c => t.mark c = .unseen).card ≤ (all.filter fun c => s.mark c = .unseen).card := by
    refine Finset.card_le_card fun c hc => ?_
    obtain ⟨hc, huc⟩ := Finset.mem_filter.1 hc
    have hcf : c ≠ f := fun heq => by simp [ht, heq] at huc
    exact Finset.mem_filter.2 ⟨hc, (Function.update_of_ne hcf _ _).symm.trans huc⟩
  have hlen : t.queue.length = rest.length := rfl
  simp only [credit, hq, List.length_cons, hlen]
  omega

omit [DecidableRel joins] [DecidableRel bars] in
theorem settled_seed (start : ι) : Settled around joins bars start (seed start) := by
  have hmark : ∀ c, (seed start).mark c = .queued ↔ c = start := by
    intro c
    by_cases hc : c = start <;> simp [seed, hc]
  have hother : ∀ c, (seed start).mark c ≠ .done ∧ (seed start).mark c ≠ .barred := by
    intro c
    by_cases hc : c = start <;> simp [seed, hc]
  refine ⟨⟨by simp [seed], fun c => by rw [hmark]; simp [seed]⟩, ⟨Or.inl ((hmark start).2 rfl), fun c hc => ?_,
    fun g _ hg => absurd hg (hother g).1, fun c hc => absurd hc (hother c).2⟩⟩
  rcases hc with hc | hc
  · rw [(hmark c).1 hc]
  · exact absurd hc (hother c).1

/-- A step of a walk that avoids what is barred. -/
def FreeStep (around : ι → List ι) (joins : ι → ι → Prop) (mark : ι → Mark) (f c : ι) : Prop :=
  c ∈ around f ∧ joins f c ∧ mark c ≠ .barred

/-- What the search leaves: it has done the places that a walk from the start reaches without a barred place, every place
that it has barred was barred by one that it has done, and what it has not marked neither joins nor is barred by any. -/
structure Filled (around : ι → List ι) (joins bars : ι → ι → Prop) (start : ι) (mark : ι → Mark) : Prop where
  done : ∀ c, mark c = .done ↔ Relation.ReflTransGen (FreeStep around joins mark) start c
  barred : ∀ c, mark c = .barred → ∃ f, mark f = .done ∧ c ∈ around f ∧ ¬ joins f c ∧ bars f c
  unseen : ∀ c, mark c = .unseen → ∀ f, mark f = .done → c ∈ around f → ¬ joins f c ∧ ¬ bars f c
  notQueued : ∀ c, mark c ≠ .queued

omit [DecidableRel joins] [DecidableRel bars] [DecidableEq ι] in
theorem Settled.filled (h : Settled around joins bars start s) (hempty : s.queue = []) :
    Filled around joins bars start s.mark := by
  have hnq : ∀ c, s.mark c ≠ .queued := fun c hc => by
    have := (h.queued.iff c).2 hc
    rw [hempty] at this
    cases this
  have hlooked : ∀ f c, s.mark f = .done → c ∈ around f → s.mark c = .unseen → ¬ joins f c ∧ ¬ bars f c :=
    fun f c hf hc hu => (h.spread.looked f c hf hc hu).resolve_right fun hlook => by cases hlook.1
  refine ⟨fun c => ⟨fun hc => ?_, fun hc => ?_⟩, h.spread.barred, fun c hu f hf hc => hlooked f c hf hc hu, hnq⟩
  · -- every place of the walk is done itself
    have hwalk := h.spread.reached c (Or.inr hc)
    revert hc
    induction hwalk with
    | refl => exact fun _ => Relation.ReflTransGen.refl
    | tail _ hstep ih =>
      exact fun hd => (ih hstep.1).tail ⟨hstep.2.1, hstep.2.2, by rw [hd]; decide⟩
  · induction hc with
    | refl => exact h.spread.started.resolve_left (hnq start)
    | @tail f c _ hstep ih =>
      obtain ⟨hc, hjoin, hbar⟩ := hstep
      cases hm : s.mark c with
      | unseen => exact absurd hjoin (hlooked f c ih hc hm).1
      | queued => exact absurd hm (hnq c)
      | done => rfl
      | barred => exact absurd hm hbar

/-- **The search ends, and has spread as far as it can.** -/
theorem fill_spec {all : Finset ι} (hall : ∀ f ∈ all, ∀ c ∈ around f, c ∈ all) (hstart : start ∈ all) :
    ∃ s, (∀ fuel, credit all (seed start) ≤ fuel → fill around joins bars start fuel = some s) ∧
      Filled around joins bars start s.mark ∧ s.queue = [] := by
  obtain ⟨s, hs, hempty, hends⟩ := exists_of_variant (Settled around joins bars start) (credit all)
    (fun s hs hne => hs.expand hall hstart hne) (settled_seed start)
  rw [not_not] at hempty
  exact ⟨s, hends, hs.filled hempty, hempty⟩

theorem credit_seed_le (all : Finset ι) (start : ι) : credit all (seed start) ≤ 2 * all.card + 1 := by
  have := Finset.card_filter_le all fun c => (seed start).mark c = .unseen
  simp only [credit, seed, List.length_singleton] at this ⊢
  omega

end Search
end Flood
end LfSentry
