import LfSentry.Runs
/-!
# CameraStream — the hand-off of the latest frame (`sentry_dual_sn_ros.cpp`)

`grab_loop` swaps a captured image into the slot, `get_latest` swaps the slot with the image of its caller, which the
worker keeps from one call to the next.  What `get_latest` hands out is a captured frame, each at most once and in
order, as long as a call without a new capture comes while at most one image was taken (`handOff_iff`): after the second
one the slot holds an image already taken, under the timestamp of a later capture.
-/
namespace LfSentry
namespace Camera

variable {α : Type}

/-- `FrameData`; an empty `cv::Mat` is `none`, times are nanoseconds. -/
structure FrameData (α : Type) where
  img : Option α
  timestamp : Int
  deriving DecidableEq, Repr

/-- The slot of a `CameraStream` and the image its worker keeps. -/
structure Stream (α : Type) where
  latestFrame : FrameData α
  img : Option α
  deriving DecidableEq, Repr

def Stream.init : Stream α := ⟨⟨none, 0⟩, none⟩

/-- `CameraStream::get_latest`; `none` is its `false`. -/
def getLatest (s : Stream α) : Stream α × Option Int :=
  match s.latestFrame.img with
  | none => (s, none)
  | some a => (⟨{ s.latestFrame with img := s.img }, some a⟩, some s.latestFrame.timestamp)

/-- One turn of `grab_loop`, with what the camera reads. -/
def grab (s : Stream α) (img : Option α) (t : Int) : Stream α :=
  match img with
  | none => s
  | some a => { s with latestFrame := ⟨some a, t⟩ }

inductive Label (α : Type)
  | grab (img : Option α) (t : Int)
  | getLatest
  deriving DecidableEq, Repr

/-- The steps under the mutex, in any order; a successful `get_latest` says its image and time. -/
def stream (α : Type) : Machine (Stream α) (Label α) (α × Int) where
  step s
    | .grab img t => some (grab s img t, [])
    | .getLatest =>
      let r := getLatest s
      some (r.1, match r.2, r.1.img with
        | some t, some a => [(a, t)]
        | _, _ => [])

def capturesOf : List (Label α) → List (α × Int)
  | [] => []
  | .grab (some a) t :: ls => (a, t) :: capturesOf ls
  | .grab none _ :: ls => capturesOf ls
  | .getLatest :: ls => capturesOf ls

/-- Each call has a capture since the one before, or comes while at most one image was taken; `fresh` says whether there
is one already, `taken` how many images were taken. -/
def Paced : Bool → Nat → List (Label α) → Prop
  | _, _, [] => True
  | _, taken, .grab (some _) _ :: ls => Paced true taken ls
  | fresh, taken, .grab none _ :: ls => Paced fresh taken ls
  | true, taken, .getLatest :: ls => Paced false (taken + 1) ls
  | false, taken, .getLatest :: ls => taken ≤ 1 ∧ Paced false taken ls

/-- Who has which image, after the captures `c` and the answers `o`. -/
structure Handing (fresh : Bool) (taken : Nat) (c o : List (α × Int)) (s : Stream α) : Prop where
  given : List.Sublist o c
  latest : fresh = true →
    ∃ c' a, c = c' ++ [(a, s.latestFrame.timestamp)] ∧ s.latestFrame.img = some a ∧ List.Sublist o c'
  first : taken = 0 → s.img = none
  kept : 0 < taken → ∃ a ∈ o.map Prod.fst, s.img = some a
  slotEmpty : fresh = false → taken ≤ 1 → s.latestFrame.img = none
  slotTaken : fresh = false → 1 < taken → ∃ a ∈ o.map Prod.fst, s.latestFrame.img = some a

theorem handing_init : Handing false 0 [] [] (Stream.init : Stream α) where
  given := List.nil_sublist _
  latest h := by cases h
  first _ := rfl
  kept h := absurd h (Nat.lt_irrefl 0)
  slotEmpty _ _ := rfl
  slotTaken _ h := absurd h (by decide)

variable {fresh : Bool} {taken : Nat} {c o : List (α × Int)} {s : Stream α}

theorem Handing.grab (h : Handing fresh taken c o s) (a : α) (t : Int) :
    Handing true taken (c ++ [(a, t)]) o (grab s (some a) t) where
  given := h.given.trans (List.sublist_append_left _ _)
  latest _ := ⟨c, a, rfl, rfl, h.given⟩
  first := h.first
  kept := h.kept
  slotEmpty h := by cases h
  slotTaken h := by cases h

theorem Handing.take (h : Handing true taken c o s) : ∃ a, s.latestFrame.img = some a ∧
    Handing false (taken + 1) c (o ++ [(a, s.latestFrame.timestamp)]) (getLatest s).1 := by
  obtain ⟨c', a, hc, ha, hsub⟩ := h.latest rfl
  have hget : (getLatest s).1 = ⟨{ s.latestFrame with img := s.img }, some a⟩ := by rw [getLatest, ha]
  refine ⟨a, ha, ?_, ?_, ?_, ?_, ?_, ?_⟩
  · rw [hc]
    exact hsub.append (List.Sublist.refl _)
  · intro hf
    cases hf
  · intro h0
    omega
  · intro _
    exact ⟨a, by simp, by rw [hget]⟩
  · intro _ hle
    rw [hget]
    exact h.first (by omega)
  · intro _ hlt
    obtain ⟨b, hb, hkept⟩ := h.kept (by omega)
    refine ⟨b, ?_, by rw [hget]; exact hkept⟩
    rw [List.map_append, List.mem_append]
    exact .inl hb

/-- **From any hand-off, the answers of a run are captured frames in order iff the run is paced.** -/
theorem handOff_from : ∀ (ls : List (Label α)) {fresh : Bool} {taken : Nat} {c o o' : List (α × Int)} {s u : Stream α},
    Handing fresh taken c o s → ((c ++ capturesOf ls).map Prod.fst).Nodup → (stream α).run s ls = some (u, o') →
      (List.Sublist (o ++ o') (c ++ capturesOf ls) ↔ Paced fresh taken ls)
  | [], fresh, taken, c, o, o', s, u, h, _, hr => by
    simp only [Machine.run_nil, Option.some.injEq, Prod.mk.injEq] at hr
    rw [← hr.2, List.append_nil, capturesOf, List.append_nil]
    exact iff_of_true h.given trivial
  | .grab none t :: ls, fresh, taken, c, o, o', s, u, h, hnd, hr => by
    obtain ⟨v, es, p, hst, hr', rfl⟩ := Machine.run_cons.1 hr
    simp only [stream, grab, Option.some.injEq, Prod.mk.injEq] at hst
    obtain ⟨rfl, rfl⟩ := hst
    exact handOff_from ls h hnd hr'
  | .grab (some a) t :: ls, fresh, taken, c, o, o', s, u, h, hnd, hr => by
    obtain ⟨v, es, p, hst, hr', rfl⟩ := Machine.run_cons.1 hr
    simp only [stream, Option.some.injEq, Prod.mk.injEq] at hst
    obtain ⟨rfl, rfl⟩ := hst
    rw [capturesOf, List.append_cons] at hnd ⊢
    exact handOff_from ls (h.grab a t) hnd hr'
  | .getLatest :: ls, true, taken, c, o, o', s, u, h, hnd, hr => by
    obtain ⟨v, es, p, hst, hr', rfl⟩ := Machine.run_cons.1 hr
    obtain ⟨a, ha, htake⟩ := h.take
    simp only [stream, getLatest, ha, Option.some.injEq, Prod.mk.injEq] at hst
    obtain ⟨rfl, rfl⟩ := hst
    simp only [getLatest, ha] at htake
    rw [← List.append_assoc]
    exact handOff_from ls htake hnd hr'
  | .getLatest :: ls, false, taken, c, o, o', s, u, h, hnd, hr => by
    obtain ⟨v, es, p, hst, hr', rfl⟩ := Machine.run_cons.1 hr
    rcases Nat.lt_or_ge 1 taken with htaken | htaken
    · -- the slot holds an image taken before: it is handed out again
      obtain ⟨a, hmem, ha⟩ := h.slotTaken rfl htaken
      simp only [stream, getLatest, ha, Option.some.injEq, Prod.mk.injEq] at hst
      obtain ⟨rfl, rfl⟩ := hst
      refine iff_of_false (fun hsub => ?_) (fun hp => absurd hp.1 (Nat.not_le.2 htaken))
      have hout := hnd.sublist (hsub.map Prod.fst)
      rw [List.map_append, List.nodup_append] at hout
      exact hout.2.2 a hmem a (by simp) rfl
    · have hempty := h.slotEmpty rfl htaken
      simp only [stream, getLatest, hempty, Option.some.injEq, Prod.mk.injEq] at hst
      obtain ⟨rfl, rfl⟩ := hst
      exact (handOff_from ls h hnd hr').trans (and_iff_right htaken).symm

/-- **For any order of captures of distinct images and calls, the calls answer with captured frames, each with its own
time, none twice and in the order of capture, iff the run is paced.** -/
theorem handOff_iff (ls : List (Label α)) {u : Stream α} {o : List (α × Int)}
    (hnd : ((capturesOf ls).map Prod.fst).Nodup) (hr : (stream α).run Stream.init ls = some (u, o)) :
    List.Sublist o (capturesOf ls) ↔ Paced false 0 ls :=
  handOff_from ls handing_init hnd hr

theorem handOff_iff_twoFrames :
    ∃ u o, (stream String).run Stream.init [.grab (some "a") 1, .getLatest, .grab (some "b") 2, .getLatest] = some (u, o) ∧
      (List.Sublist o [("a", 1), ("b", 2)] ↔
        Paced false 0 [.grab (some "a") 1, .getLatest, .grab (some "b") 2, .getLatest]) := by
  refine ⟨_, _, rfl, ?_⟩
  exact handOff_iff [.grab (some "a") 1, .getLatest, .grab (some "b") 2, .getLatest] (by decide) rfl

/-- **A third call after two frames hands the first frame out again, with the time of the second.** -/
theorem third_call_returns_first_frame :
    ∃ u o, (stream String).run Stream.init
        [.grab (some "a") 1, .getLatest, .grab (some "b") 2, .getLatest, .getLatest] = some (u, o) ∧
      o = [("a", 1), ("b", 2), ("a", 2)] ∧ ¬ List.Sublist o [("a", 1), ("b", 2)] :=
  ⟨_, _, rfl, rfl, by decide⟩

end Camera
end LfSentry
