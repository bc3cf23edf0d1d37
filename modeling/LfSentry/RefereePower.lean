import LfSentry.RefereeHealth
/-!
# RefereePower — the power of a killed robot

A robot that is dead stays dead until it is revived or everything is reset.  Two of the commands nevertheless give it
power: the game's start and the preparation, which free the control of every robot; nothing else does
(`killed_power_iff`).
-/
namespace LfSentry
namespace Referee

def Killed (s : System) (name : String) : Prop := ∃ p ∈ s.robots, p.1 = name ∧ p.2.survive = false

instance (s : System) (name : String) : Decidable (Killed s name) :=
  inferInstanceAs (Decidable (∃ p ∈ s.robots, p.1 = name ∧ p.2.survive = false))

/-- A command that makes the robot live again. -/
def Revives (name : String) : Input → Prop
  | .cmd cmd robotName _ => cmd = RefereeCmd.selfChecking ∨ cmd = RefereeCmd.reviveRobot ∧ robotName = name
  | _ => False

/-- A command that frees the control of all robots; the preparation gets that far if it can put every robot back. -/
def FreesControl (s : System) : Input → Prop
  | .cmd cmd _ _ => cmd = RefereeCmd.startGame ∨
      cmd = RefereeCmd.preparation ∧ ∀ p ∈ s.robots, p.2.initialTf.isSome = true
  | _ => False

/-! ## The dead stay dead -/

theorem killed_iff {s : System} {name : String} : Killed s name ↔ ∃ p ∈ s.vitals, p.1 = name ∧ p.2.survive = false := by
  constructor
  · rintro ⟨p, hp, hname, hdead⟩
    exact ⟨(p.1, p.2.vitals), List.mem_map_of_mem hp, hname, hdead⟩
  · rintro ⟨q, hq, hname, hdead⟩
    obtain ⟨p, hp, rfl⟩ := List.mem_map.1 hq
    exact ⟨p, hp, hname, hdead⟩

/-- An effect wakes a robot only if it resets everything or revives this robot. -/
theorem Effect.survive_on {maxHp : Int} {name : String} {v : Vitals} (hdead : v.survive = false) :
    ∀ e : Effect, e ≠ .reset → e ≠ .revive name → (e.on maxHp name v).survive = false
  | leave, _, _ => hdead
  | hit other, _, _ => by
    simp only [Effect.on]
    split <;> exact hdead
  | reap, _, _ => by simp only [Effect.on, hdead, Bool.false_and]
  | reset, h, _ => absurd rfl h
  | kill other, _, _ => by
    simp only [Effect.on]
    split
    · rfl
    · exact hdead
  | revive other, _, h => by
    have hother : name ≠ other := fun heq => h (by rw [heq])
    simp only [Effect.on, if_neg hother, hdead]

/-- Who causes such an effect revives the robot. -/
theorem revives_of_causes {i : Input} {e : Effect} {name : String} (h : Causes i e)
    (he : e = .reset ∨ e = .revive name) : Revives name i := by
  cases i with
  | cmd cmd robotName now =>
    rcases h with rfl | ⟨hcmd, rfl⟩ | ⟨-, rfl⟩ | ⟨hcmd, rfl⟩
    · rcases he with he | he <;> cases he
    · exact .inl hcmd
    · rcases he with he | he <;> cases he
    · rcases he with he | he
      · cases he
      · exact .inr ⟨hcmd, Effect.revive.inj he⟩
  | exchange robotName ammoAmount =>
    obtain rfl := h
    rcases he with he | he <;> cases he
  | poseInfo transforms =>
    obtain rfl := h
    rcases he with he | he <;> cases he
  | attackInfo data => rcases h with rfl | ⟨_, rfl⟩ <;> rcases he with he | he <;> cases he
  | shootInfo data => rcases h with rfl | ⟨_, rfl⟩ <;> rcases he with he | he <;> cases he
  | timer now₁ now₂ now₃ => rcases h with rfl | rfl <;> rcases he with he | he <;> cases he

variable {parseFloat : String → Option Fp}

/-- **Only what revives a robot makes it live again.** -/
theorem killed_callback {s : System} {name : String} {i : Input} (hk : Killed s name) (hno : ¬ Revives name i) :
    Killed (callback parseFloat s i).1 name := by
  obtain ⟨e, hcause, he⟩ := @vitals_callback parseFloat s i
  obtain ⟨p, hp, hname, hdead⟩ := killed_iff.1 hk
  have hreset : e ≠ .reset := fun h => hno (revives_of_causes hcause (.inl h))
  have hrevive : e ≠ .revive p.1 := fun h => hno (revives_of_causes hcause (.inr (hname ▸ h)))
  refine killed_iff.2 ⟨(p.1, e.on s.params.maxHp p.1 p.2), ?_, hname, Effect.survive_on hdead e hreset hrevive⟩
  rw [he]
  exact List.mem_map_of_mem hp

/-! ## Who gets power -/

theorem mem_enablePowers {s : System} {name : String} {enable b : Bool} :
    .enablePower name b ∈ s.enablePowers enable ↔ b = enable ∧ ∃ p ∈ s.robots, p.1 = name := by
  simp only [System.enablePowers, List.mem_map, Event.enablePower.injEq]
  constructor
  · rintro ⟨p, hp, hname, rfl⟩
    exact ⟨rfl, p, hp, hname⟩
  · rintro ⟨rfl, p, hp, hname⟩
    exact ⟨p, hp, hname, rfl⟩

theorem enablePower_notMem_resetPoses (name : String) (b : Bool) :
    ∀ robots : List (String × StandardRobot), .enablePower name b ∉ (resetPoses robots).1
  | [] => List.not_mem_nil
  | (other, r) :: rs => by
    have ih := enablePower_notMem_resetPoses name b rs
    unfold resetPoses
    cases r.initialTf with
    | none => exact List.not_mem_nil
    | some tf => simpa using ih

theorem resetPoses_ends_iff : ∀ robots : List (String × StandardRobot),
    (resetPoses robots).2.isNone = true ↔ ∀ p ∈ robots, p.2.initialTf.isSome = true
  | [] => by simp [resetPoses]
  | (other, r) :: rs => by
    have ih := resetPoses_ends_iff rs
    unfold resetPoses
    rw [List.forall_mem_cons]
    cases htf : r.initialTf with
    | none => simp
    | some tf => simp [ih]

theorem mem_settle {s : System} {es : List Event} {e : Option PyError} {name : String} {b : Bool} :
    .enablePower name b ∈ (settle s es e).2 ↔ .enablePower name b ∈ es := by
  cases e <;> simp [settle]

theorem power_preparation {s : System} {name : String} (hname : ∃ p ∈ s.robots, p.1 = name) (robotName : String)
    (now : ℚ) : .enablePower name true ∈ (refereeCmdCallback s RefereeCmd.preparation robotName now).2.1 ↔
      ∀ p ∈ s.robots, p.2.initialTf.isSome = true := by
  have hposes := enablePower_notMem_resetPoses name true s.robots
  rw [← resetPoses_ends_iff]
  simp only [refereeCmdCallback, if_true, List.mem_append, mem_enablePowers]
  cases (resetPoses s.robots).2.isNone with
  | false => simp [hposes]
  | true =>
    have hpowered : .enablePower name true ∈ ({ s with gameOver := true } : System).enablePowers true :=
      mem_enablePowers.2 ⟨rfl, hname⟩
    simp [hpowered]

theorem power_startGame {s : System} {name : String} (hname : ∃ p ∈ s.robots, p.1 = name) (robotName : String)
    (now : ℚ) : .enablePower name true ∈ (refereeCmdCallback s RefereeCmd.startGame robotName now).2.1 := by
  obtain ⟨p, hp, rfl⟩ := hname
  exact List.mem_flatMap.2 ⟨p, hp, List.mem_cons_self⟩

/-- The power that a command to one robot publishes is for that robot. -/
theorem power_known {s : System} {robotName name : String} {f : StandardRobot → StandardRobot} {b : Bool}
    (h : Event.enablePower name true ∈ (if s.knows robotName then
      (s.onRobot robotName f, [Event.enablePower robotName b], (none : Option PyError)) else (s, [], none)).2.1) :
    robotName = name ∧ b = true := by
  split at h
  · obtain ⟨hname, hb⟩ := Event.enablePower.inj (List.mem_singleton.1 h)
    exact ⟨hname.symm, hb.symm⟩
  · cases h

/-- **A command that does not revive the robot gives it power iff it frees the control of all.** -/
theorem power_cmd {s : System} {name : String} (hname : ∃ p ∈ s.robots, p.1 = name) (robotName : String) (now : ℚ) :
    ∀ cmd, ¬ Revives name (.cmd cmd robotName now) →
      (.enablePower name true ∈ (refereeCmdCallback s cmd robotName now).2.1 ↔
        FreesControl s (.cmd cmd robotName now))
  | 0, _ => by
    refine (power_preparation hname robotName now).trans ⟨fun h => .inr ⟨rfl, h⟩, ?_⟩
    rintro (h | ⟨-, h⟩)
    · cases h
    · exact h
  | 1, h => absurd (.inl rfl) h
  | 2, _ => ⟨fun _ => .inl rfl, fun _ => power_startGame hname robotName now⟩
  | 3, _ => by
    constructor
    · intro h
      exact absurd (mem_enablePowers.1 h).1 (by decide)
    · rintro (h | ⟨h, -⟩) <;> cases h
  | 4, _ => by
    constructor
    · intro h
      exact absurd (power_known (f := fun r => { r with remainHp := 0, survive := false }) h).2 (by decide)
    · rintro (h | ⟨h, -⟩) <;> cases h
  | 5, hno => by
    constructor
    · intro h
      have hsame := (power_known (f := fun r => { r with remainHp := r.maxHp, survive := true }) h).1
      exact absurd (Or.inr ⟨rfl, hsame⟩) hno
    · rintro (h | ⟨h, -⟩) <;> cases h
  | n + 6, _ => by
    constructor
    · intro h
      cases h
    · rintro (h | ⟨h, -⟩) <;> cases h

theorem power_timer (s : System) (now₁ now₂ now₃ : ℚ) (name : String) :
    .enablePower name true ∉ (timerCb s now₁ now₂ now₃).2 := by
  unfold timerCb
  split
  · exact List.not_mem_nil
  · intro h
    rcases List.mem_append.1 h with h | h
    · obtain ⟨p, -, hp⟩ := List.mem_map.1 h
      cases hp
    · obtain ⟨p, -, hp⟩ := List.mem_map.1 h
      cases hp

/-- **A callback that does not revive the robot gives it power iff it is a command that frees the control of all.** -/
theorem power_callback {s : System} {name : String} {i : Input} (hname : ∃ p ∈ s.robots, p.1 = name)
    (hno : ¬ Revives name i) : .enablePower name true ∈ (callback parseFloat s i).2 ↔ FreesControl s i := by
  cases i with
  | exchange robotName ammoAmount =>
    have hanswer : .enablePower name true ∉ (handleExchangeAmmo s robotName ammoAmount).2 := by
      by_cases h : Grantable s robotName ammoAmount
      · obtain ⟨side, hside, hamount⟩ := h
        rw [exchange_granted hside hamount]
        simp
      · obtain ⟨message, heq⟩ := exchange_refused h
        rw [heq]
        simp
    exact iff_of_false hanswer id
  | attackInfo data => exact iff_of_false List.not_mem_nil id
  | shootInfo data => exact iff_of_false (fun h => List.not_mem_nil (mem_settle.1 h)) id
  | poseInfo transforms => exact iff_of_false List.not_mem_nil id
  | timer now₁ now₂ now₃ => exact iff_of_false (power_timer s now₁ now₂ now₃ name) id
  | cmd cmd robotName now => exact mem_settle.trans (power_cmd hname robotName now cmd hno)

/-! ## Runs -/

/-- The step gives the robot power iff it is a command that frees the control of all. -/
def PowerFreed (parseFloat : String → Option Fp) (name : String) (s : System) (i : Input) : Prop :=
  ∀ t es, (referee parseFloat).step s i = some (t, es) → (.enablePower name true ∈ es ↔ FreesControl s i)

/-- **From any state, until it is revived or everything is reset a killed robot stays dead, and it gets power by the
game's start, by a preparation that finds every initial pose, and by nothing else.** -/
theorem killed_power_iff (parseFloat : String → Option Fp) {name : String} :
    ∀ {is : List Input} {s t : System} {o : List Event}, Killed s name → (∀ i ∈ is, ¬ Revives name i) →
      (referee parseFloat).run s is = some (t, o) →
      Killed t name ∧ (referee parseFloat).Along (PowerFreed parseFloat name) s is
  | [], s, t, o, hk, _, hr => by
    simp only [Machine.run_nil, Option.some.injEq, Prod.mk.injEq] at hr
    exact ⟨hr.1 ▸ hk, trivial⟩
  | i :: is, s, u, o, hk, hno, hr => by
    obtain ⟨t, es, o', hst, hr', rfl⟩ := Machine.run_cons.1 hr
    obtain ⟨hi, his⟩ := List.forall_mem_cons.1 hno
    have hcall := (referee_step.1 hst).2
    have ht : Killed t name := by
      have hnext := @killed_callback parseFloat _ _ _ hk hi
      rw [hcall] at hnext
      exact hnext
    obtain ⟨hu, halong⟩ := killed_power_iff parseFloat ht his hr'
    refine ⟨hu, (Machine.along_cons_of_step hst).2 ⟨fun t' es' hst' => ?_, halong⟩⟩
    obtain ⟨p, hp, hname, -⟩ := hk
    have hpower := @power_callback parseFloat _ _ _ ⟨p, hp, hname⟩ hi
    rw [(referee_step.1 hst').2] at hpower
    exact hpower

theorem killed_power_iff_stopGame :
    ∃ s o, (referee fun _ => none).run (System.init ⟨500, 100, 200⟩)
        [.cmd RefereeCmd.killRobot "red_standard_robot1" 0] = some (s, o) ∧
      ∃ t o', (referee fun _ => none).run s [.cmd RefereeCmd.stopGame "" 1] = some (t, o') ∧
        Killed t "red_standard_robot1" ∧
        (referee fun _ => none).Along (PowerFreed (fun _ => none) "red_standard_robot1") s
          [.cmd RefereeCmd.stopGame "" 1] := by
  refine ⟨_, _, rfl, _, _, rfl, killed_power_iff (fun _ => none) (by decide) ?_ rfl⟩
  intro i hi
  obtain rfl := List.mem_singleton.1 hi
  rintro (h | ⟨h, -⟩) <;> cases h

/-- **The start of the game gives a killed robot its power back, and it is still dead.** -/
theorem startGame_powers_killed :
    ∃ s o t o', (referee fun _ => none).run (System.init ⟨500, 100, 200⟩)
        [.cmd RefereeCmd.killRobot "red_standard_robot1" 0] = some (s, o) ∧ Killed s "red_standard_robot1" ∧
      (referee fun _ => none).run s [.cmd RefereeCmd.startGame "" 1] = some (t, o') ∧
      (∀ i ∈ [Input.cmd RefereeCmd.startGame "" 1], ¬ Revives "red_standard_robot1" i) ∧
      Killed t "red_standard_robot1" ∧ .enablePower "red_standard_robot1" true ∈ o' := by
  refine ⟨_, _, _, _, rfl, by decide, rfl, ?_, by decide, by decide⟩
  intro i hi
  obtain rfl := List.mem_singleton.1 hi
  rintro (h | ⟨h, -⟩) <;> cases h

end Referee
end LfSentry
