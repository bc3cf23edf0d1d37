import LfSentry.DualArbiter
/-!
# DualCooldown — priority and cool-down of the dual-camera controller (`sentry_dual_sn_ros.cpp`)

A front lock and an acquired back target each put the next acquisition off by 2000 ms; an acquired target is repeated
until the wait for the front camera is over.  A history of the locks and acquisitions is kept beside the system: every
time in it is 2000 ms before `cooldown_until`, and the waiting controller holds the angles of the newest acquisition
(`Cooled`).
-/
namespace LfSentry
namespace Vision
namespace Dual

variable {K : Type}

/-- The controller takes the branch that sets `waiting_front_lock`. -/
def Acquires (s : System K) (now : Int) : Prop :=
  s.shared.frontLocked = false ∧ ¬ (s.controller.waitingFrontLock = true ∧ now < s.controller.waitUntil) ∧
    now > s.controller.cooldownUntil ∧ s.shared.backHasTarget = true

instance (s : System K) (now : Int) : Decidable (Acquires s now) := inferInstanceAs (Decidable (_ ∧ _ ∧ _ ∧ _))

/-! ## What an iteration does -/

theorem controllerLoop_locked {s : System K} (now : Int) (h : s.shared.frontLocked = true) :
    (controllerLoop s now).1.controller.cooldownUntil = now + 2000000000 ∧
      (controllerLoop s now).1.controller.waitingFrontLock = false := by
  simp [controllerLoop, h]

theorem controllerLoop_waiting {s : System K} {now : Int} (h : s.shared.frontLocked = false)
    (hw : s.controller.waitingFrontLock = true ∧ now < s.controller.waitUntil) :
    controllerLoop s now = (s, [⟨true, false, s.controller.backTargetYaw, s.controller.backTargetPitch⟩]) := by
  simp [controllerLoop, h, hw]

theorem controllerLoop_acquires {s : System K} {now : Int} (h : Acquires s now) :
    (controllerLoop s now).1.controller.cooldownUntil = now + 2000000000 ∧
      (controllerLoop s now).1.controller.backTargetYaw = s.shared.backCmd.yaw ∧
      (controllerLoop s now).1.controller.backTargetPitch = s.shared.backCmd.pitch ∧
      (controllerLoop s now).2 = [⟨true, false, s.shared.backCmd.yaw, s.shared.backCmd.pitch⟩] := by
  obtain ⟨hlocked, hwait, hback⟩ := h
  simp [controllerLoop, hlocked, hwait, hback]

/-- **An iteration without a lock or an acquisition leaves the deadlines and the back target, and does not fire.** -/
theorem controllerLoop_idle {s : System K} {now : Int} (hl : s.shared.frontLocked = false) (ha : ¬ Acquires s now) :
    (controllerLoop s now).1.controller.cooldownUntil = s.controller.cooldownUntil ∧
      (controllerLoop s now).1.controller.waitingFrontLock = s.controller.waitingFrontLock ∧
      (controllerLoop s now).1.controller.backTargetYaw = s.controller.backTargetYaw ∧
      (controllerLoop s now).1.controller.backTargetPitch = s.controller.backTargetPitch ∧
      ∀ e ∈ (controllerLoop s now).2, e.fire = false := by
  unfold controllerLoop
  dsimp only
  rw [if_neg (by simp [hl])]
  by_cases hwait : s.controller.waitingFrontLock = true ∧ now < s.controller.waitUntil
  · rw [if_pos hwait]
    exact ⟨rfl, rfl, rfl, rfl, List.forall_mem_singleton.2 rfl⟩
  rw [if_neg hwait, if_neg fun hback => ha ⟨hl, hwait, hback⟩]
  by_cases hlast : s.controller.lastFrontDetected = true
  · rw [if_pos hlast]
    exact ⟨rfl, rfl, rfl, rfl, List.forall_mem_singleton.2 rfl⟩
  · rw [if_neg hlast]
    exact ⟨rfl, rfl, rfl, rfl, List.forall_mem_nil _⟩

theorem controllerLoop_fire {s : System K} {now : Int} {e : Send K} (he : e ∈ (controllerLoop s now).2)
    (hfire : e.fire = true) : s.shared.frontLocked = true := by
  by_contra hlocked
  have hlocked : s.shared.frontLocked = false := by simpa using hlocked
  by_cases hacq : Acquires s now
  · rw [(controllerLoop_acquires hacq).2.2.2, List.mem_singleton] at he
    rw [he] at hfire
    cases hfire
  · rw [(controllerLoop_idle hlocked hacq).2.2.2.2 e he] at hfire
    cases hfire

/-! ## The history -/

/-- The iterations that read a front lock, and the acquisitions with their angles, the newest first. -/
structure History (K : Type) where
  locks : List Int
  acquisitions : List (Int × K × K)

def History.empty (K : Type) : History K := ⟨[], []⟩

def History.times (h : History K) : List Int := h.locks ++ h.acquisitions.map Prod.fst

/-- An iteration of the controller, entered in the history. -/
def History.note (h : History K) (s : System K) (now : Int) : History K :=
  if s.shared.frontLocked then { h with locks := now :: h.locks }
  else if Acquires s now then
    { h with acquisitions := (now, s.shared.backCmd.yaw, s.shared.backCmd.pitch) :: h.acquisitions }
  else h

/-- The clock readings of the controller. -/
def timesOf : List (Label K) → List Int
  | [] => []
  | .control now :: is => now :: timesOf is
  | .front _ :: is => timesOf is
  | .back _ :: is => timesOf is

/-- Every time in the history is 2000 ms before `cooldown_until`; who waits holds the angles acquired last. -/
structure Cooled (p : System K × History K) : Prop where
  cooldown : ∀ t ∈ p.2.times, t + 2000000000 ≤ p.1.controller.cooldownUntil
  target : p.1.controller.waitingFrontLock = true →
    ∃ t, p.2.acquisitions.head? = some (t, p.1.controller.backTargetYaw, p.1.controller.backTargetPitch)

theorem times_note {h : History K} {s : System K} {now t : Int} (ht : t ∈ (h.note s now).times) :
    t = now ∨ t ∈ h.times := by
  unfold History.note at ht
  split at ht
  · simpa [History.times] using ht
  · split at ht
    · simp only [History.times, List.map_cons, List.mem_append, List.mem_cons] at ht ⊢
      tauto
    · exact Or.inr ht

/-- **An iteration no earlier than the history keeps it cooled.** -/
theorem cooled_note {p : System K × History K} (h : Cooled p) {now : Int} (hpast : ∀ t ∈ p.2.times, t ≤ now) :
    Cooled ((controllerLoop p.1 now).1, p.2.note p.1 now) := by
  have hset : ∀ t ∈ (p.2.note p.1 now).times, t + 2000000000 ≤ now + 2000000000 := by
    intro t ht
    rcases times_note ht with rfl | ht
    · exact le_rfl
    · have := hpast t ht
      omega
  by_cases hlocked : p.1.shared.frontLocked = true
  · obtain ⟨hcool, hwait⟩ := controllerLoop_locked now hlocked
    refine ⟨fun t ht => ?_, fun hw => ?_⟩
    · rw [hcool]
      exact hset t ht
    · rw [hwait] at hw
      cases hw
  have hlocked : p.1.shared.frontLocked = false := by simpa using hlocked
  by_cases hacq : Acquires p.1 now
  · obtain ⟨hcool, hyaw, hpitch, -⟩ := controllerLoop_acquires hacq
    refine ⟨fun t ht => ?_, fun _ => ⟨now, ?_⟩⟩
    · rw [hcool]
      exact hset t ht
    · rw [hyaw, hpitch]
      simp [History.note, hlocked, hacq]
  · obtain ⟨hcool, hwait, hyaw, hpitch, -⟩ := controllerLoop_idle hlocked hacq
    have hnote : p.2.note p.1 now = p.2 := by simp [History.note, hlocked, hacq]
    rw [hnote]
    refine ⟨fun t ht => ?_, fun hw => ?_⟩
    · rw [hcool]
      exact h.cooldown t ht
    · rw [hyaw, hpitch]
      exact h.target (hwait ▸ hw)

section Run

variable [Field K] [LinearOrder K] [FloorRing K] (lib : Libm K)

def remembered : Machine (System K × History K) (Label K) (Send K) :=
  (arbiter lib).ghost fun h s i _ => match i with
    | .control now => h.note s now
    | .front _ => h
    | .back _ => h

/-- What an iteration at `now` may do after the history `p.2`. -/
structure Disciplined (p : System K × History K) (now : Int) (sent : List (Send K)) : Prop where
  fire : ∀ e ∈ sent, e.fire = true → p.1.shared.frontLocked = true
  acquisitions : Acquires p.1 now → ∀ a ∈ p.2.acquisitions, a.1 + 2000000000 < now
  locks : Acquires p.1 now → ∀ t ∈ p.2.locks, t + 2000000000 < now
  repeats : p.1.shared.frontLocked = false → p.1.controller.waitingFrontLock = true →
    now < p.1.controller.waitUntil →
      ∃ a, p.2.acquisitions.head? = some a ∧ ∀ e ∈ sent, e.control = true ∧ e.yaw = a.2.1 ∧ e.pitch = a.2.2

def IterationDisciplined (p : System K × History K) (i : Label K) : Prop :=
  ∀ now, i = .control now → ∀ q es, (remembered lib).step p i = some (q, es) → Disciplined p now es

omit [Field K] [LinearOrder K] [FloorRing K] in
theorem disciplined_of_cooled {p : System K × History K} (h : Cooled p) (now : Int) :
    Disciplined p now (controllerLoop p.1 now).2 where
  fire _ he hfire := controllerLoop_fire he hfire
  acquisitions hacq a ha := by
    have hcool := h.cooldown a.1 (List.mem_append_right _ (List.mem_map_of_mem ha))
    have hnow := hacq.2.2.1
    omega
  locks hacq t ht := by
    have hcool := h.cooldown t (List.mem_append_left _ ht)
    have hnow := hacq.2.2.1
    omega
  repeats hlocked hwait hnow := by
    obtain ⟨t, ht⟩ := h.target hwait
    rw [controllerLoop_waiting hlocked ⟨hwait, hnow⟩]
    exact ⟨_, ht, List.forall_mem_singleton.2 ⟨rfl, rfl, rfl⟩⟩

variable {lib}

theorem frontWorker_cooled {p : System K × History K} (h : Cooled p) (f : Frame K) :
    Cooled (frontWorker lib p.1 f, p.2) := by
  refine ⟨?_, ?_⟩
  · rw [frontWorker_controller]
    exact h.cooldown
  · rw [frontWorker_controller]
    exact h.target

omit [Field K] [LinearOrder K] [FloorRing K] in
theorem mem_timesOf_cons {i : Label K} {is : List (Label K)} {now : Int} :
    now ∈ timesOf (i :: is) ↔ i = .control now ∨ now ∈ timesOf is := by
  cases i with
  | front f => simp [timesOf]
  | back decided => simp [timesOf]
  | control now' => simp [timesOf, eq_comm]

omit [Field K] [LinearOrder K] [FloorRing K] in
theorem pairwise_timesOf_cons {i : Label K} {is : List (Label K)} (h : (timesOf (i :: is)).Pairwise (· ≤ ·)) :
    (∀ now, i = .control now → ∀ n ∈ timesOf is, now ≤ n) ∧ (timesOf is).Pairwise (· ≤ ·) := by
  cases i with
  | front f => exact ⟨nofun, h⟩
  | back decided => exact ⟨nofun, h⟩
  | control now =>
    obtain ⟨hle, his⟩ := List.pairwise_cons.1 h
    refine ⟨fun now' hi => ?_, his⟩
    obtain rfl := Label.control.inj hi
    exact hle

/-- **A step no earlier than the history keeps it cooled**, and enters no time but its own. -/
theorem cooled_step {p q : System K × History K} {i : Label K} {es : List (Send K)} (h : Cooled p)
    (hpast : ∀ now, i = .control now → ∀ t ∈ p.2.times, t ≤ now) (hst : (remembered lib).step p i = some (q, es)) :
    Cooled q ∧ ∀ t ∈ q.2.times, t ∈ p.2.times ∨ i = .control t := by
  obtain ⟨hstep, hnote⟩ := Machine.ghost_step.1 hst
  obtain ⟨s, hist⟩ := q
  cases i with
  | front f =>
    simp only [arbiter, Option.some.injEq, Prod.mk.injEq] at hstep hnote
    rw [hnote, ← hstep.1]
    exact ⟨frontWorker_cooled h f, fun t ht => .inl ht⟩
  | back decided =>
    simp only [arbiter, Option.some.injEq, Prod.mk.injEq] at hstep hnote
    rw [hnote, ← hstep.1]
    exact ⟨⟨h.cooldown, h.target⟩, fun t ht => .inl ht⟩
  | control now =>
    simp only [arbiter, Option.some.injEq] at hstep hnote
    have hsys : (controllerLoop p.1 now).1 = s := congrArg Prod.fst hstep
    rw [hnote, ← hsys]
    refine ⟨cooled_note h (hpast now rfl), fun t ht => ?_⟩
    rcases times_note ht with rfl | hold
    · exact .inr rfl
    · exact .inl hold

theorem iterationDisciplined_of_cooled {p : System K × History K} (h : Cooled p) (i : Label K) :
    IterationDisciplined lib p i := by
  rintro now rfl q es hst
  have hstep := (Machine.ghost_step.1 hst).1
  simp only [arbiter, Option.some.injEq] at hstep
  have hsent : (controllerLoop p.1 now).2 = es := congrArg Prod.snd hstep
  rw [← hsent]
  exact disciplined_of_cooled h now

/-- The run from a cooled history that is not later than any of its clock readings. -/
theorem disciplined_along : ∀ (is : List (Label K)) {p : System K × History K}, Cooled p →
    (timesOf is).Pairwise (· ≤ ·) → (∀ t ∈ p.2.times, ∀ now ∈ timesOf is, t ≤ now) →
      (remembered lib).Along (IterationDisciplined lib) p is
  | [], _, _, _, _ => trivial
  | i :: is, p, h, hmono, hpast => by
    obtain ⟨hlater, hmono'⟩ := pairwise_timesOf_cons hmono
    have hnow : ∀ now, i = .control now → ∀ t ∈ p.2.times, t ≤ now := fun now hi t ht =>
      hpast t ht now (mem_timesOf_cons.2 (.inl hi))
    refine ⟨iterationDisciplined_of_cooled h i, fun q es hst => ?_⟩
    obtain ⟨hq, htimes⟩ := cooled_step h hnow hst
    refine disciplined_along is hq hmono' fun t ht n hn => ?_
    rcases htimes t ht with hold | hi
    · exact hpast t hold n (mem_timesOf_cons.2 (.inr hn))
    · exact hlater t hi n hn

variable (lib)

/-- **In every interleaving with a clock that does not run back: it fires on a front lock only; an acquisition comes more
than 2000 ms after every acquisition and every lock before it; while it waits it repeats the last acquisition.** -/
theorem arbiter_disciplined (aimer : Aimer K) (now₁ now₂ : Int) (is : List (Label K))
    (hclock : (timesOf is).Pairwise (· ≤ ·)) :
    (remembered lib).Along (IterationDisciplined lib) (System.init aimer now₁ now₂, History.empty K) is :=
  disciplined_along is ⟨nofun, nofun⟩ hclock nofun

end Run

theorem arbiter_disciplined_backTarget :
    (remembered realLibm).Along (IterationDisciplined realLibm)
      (System.init (Aimer.ofConfig (-8 / 10) (-1) 60 20 (26 / 1000) (10 / 1000) 10) 0 0, History.empty ℝ)
      [.back (some ⟨true, false, 1, 0, 0⟩), .control 1, .control 700000000, .control 2500000000] :=
  arbiter_disciplined realLibm (Aimer.ofConfig (-8 / 10) (-1) 60 20 (26 / 1000) (10 / 1000) 10) 0 0
    [.back (some ⟨true, false, 1, 0, 0⟩), .control 1, .control 700000000, .control 2500000000]
    (by simp [timesOf])

end Dual
end Vision
end LfSentry
