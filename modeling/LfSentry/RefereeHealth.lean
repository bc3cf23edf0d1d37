import LfSentry.RefereeLedger
/-!
# RefereeHealth — who is alive

The robots of the referee read as a table of health points and survival.  A callback does one of six things to the table
(`vitals_callback`): it leaves it, hits one robot, counts out the dead, resets it, kills one robot or revives one.  What
holds of the table in every state a run reaches follows from that (`health_of_run`).
-/
namespace LfSentry
namespace Referee

structure Vitals where
  maxHp : Int
  remainHp : Int
  survive : Bool
deriving DecidableEq

/-- Ten points less, within the bounds. -/
def Vitals.hit (v : Vitals) : Vitals := { v with remainHp := min v.maxHp (max 0 (v.remainHp - 10)) }

def StandardRobot.vitals (r : StandardRobot) : Vitals := ⟨r.maxHp, r.remainHp, r.survive⟩

def System.vitals (s : System) : List (String × Vitals) := s.robots.map fun p => (p.1, p.2.vitals)

/-- What can happen to the table. -/
inductive Effect where
  | leave
  | hit (name : String)
  | reap
  | reset
  | kill (name : String)
  | revive (name : String)

namespace Effect

/-- The effect on one robot, by its name. -/
def on (maxHp : Int) : Effect → String → Vitals → Vitals
  | leave, _, v => v
  | hit name, other, v => if other = name then v.hit else v
  | reap, _, v => { v with survive := v.survive && decide (v.remainHp ≠ 0) }
  | reset, _, _ => ⟨maxHp, maxHp, true⟩
  | kill name, other, v => if other = name then { v with remainHp := 0, survive := false } else v
  | revive name, other, v => if other = name then { v with remainHp := v.maxHp, survive := true } else v

def apply (e : Effect) (maxHp : Int) (table : List (String × Vitals)) : List (String × Vitals) :=
  table.map fun p => (p.1, e.on maxHp p.1 p.2)

@[simp] theorem apply_leave (maxHp : Int) (table : List (String × Vitals)) : leave.apply maxHp table = table :=
  List.map_id' table

end Effect

/-- The effects that a callback can have. -/
def Causes : Input → Effect → Prop
  | .exchange _ _, e => e = .leave
  | .attackInfo _, e => e = .leave ∨ ∃ name, e = .hit name
  | .shootInfo _, e => e = .leave ∨ ∃ name, e = .hit name
  | .poseInfo _, e => e = .leave
  | .timer _ _ _, e => e = .leave ∨ e = .reap
  | .cmd cmd robotName _, e =>
    e = .leave ∨ cmd = RefereeCmd.selfChecking ∧ e = .reset ∨ cmd = RefereeCmd.killRobot ∧ e = .kill robotName ∨
      cmd = RefereeCmd.reviveRobot ∧ e = .revive robotName

/-! ## The callbacks on the table -/

theorem vitals_onRobot {s : System} {name : String} {f : StandardRobot → StandardRobot} {g : Vitals → Vitals}
    (hf : ∀ r, (f r).vitals = g r.vitals) :
    (s.onRobot name f).vitals = s.vitals.map fun p => (p.1, if p.1 = name then g p.2 else p.2) := by
  simp only [System.vitals, System.onRobot, List.map_map]
  refine List.map_congr_left fun p _ => ?_
  simp only [Function.comp_apply]
  split
  · simp only [hf]
  · rfl

theorem vitals_onRobot_same {s : System} {name : String} {f : StandardRobot → StandardRobot}
    (hf : ∀ r, (f r).vitals = r.vitals) : (s.onRobot name f).vitals = s.vitals := by
  rw [vitals_onRobot (show ∀ r, (f r).vitals = id r.vitals from hf)]
  simp

theorem vitals_updateHp (r : StandardRobot) : (r.updateHp (-10)).vitals = r.vitals.hit := by
  simp only [StandardRobot.updateHp, StandardRobot.vitals, Vitals.hit, Vitals.mk.injEq, true_and, and_true]
  split <;> split <;> omega

theorem vitals_hit (s : System) (name : String) (maxHp : Int) :
    (s.onRobot name (·.updateHp (-10))).vitals = (Effect.hit name).apply maxHp s.vitals := by
  rw [vitals_onRobot vitals_updateHp]
  refine List.map_congr_left fun p _ => ?_
  simp only [Effect.on]

theorem vitals_exchange (s : System) (robotName : String) (ammoAmount : Int) :
    (handleExchangeAmmo s robotName ammoAmount).1.vitals = s.vitals := by
  by_cases h : Grantable s robotName ammoAmount
  · obtain ⟨side, hside, hamount⟩ := h
    rw [exchange_granted hside hamount]
    dsimp only
    split
    · exact vitals_onRobot_same fun _ => rfl
    · rfl
  · obtain ⟨message, heq⟩ := exchange_refused h
    rw [heq]

theorem vitals_recordHit (s : System) (name : String) :
    (if s.knows name then s.onRobot name (·.recordHit) else s).vitals = s.vitals := by
  split
  · exact vitals_onRobot_same fun _ => rfl
  · rfl

theorem vitals_attackInfo (s : System) (data : String) (maxHp : Int) :
    (attackInfoCallback s data).vitals = s.vitals ∨
      ∃ name, (attackInfoCallback s data).vitals = (Effect.hit name).apply maxHp s.vitals := by
  unfold attackInfoCallback
  split
  · exact .inl rfl
  · split
    · exact .inl rfl
    · rename_i targetModelName targetLinkName _
      dsimp only
      rw [vitals_recordHit]
      split
      · exact .inr ⟨targetModelName, vitals_hit s targetModelName maxHp⟩
      · exact .inl rfl

theorem vitals_shootInfo (parseFloat : String → Option Fp) (s : System) (data : String) (maxHp : Int) :
    (shootInfoCallback parseFloat s data).1.vitals = s.vitals ∨
      ∃ name, (shootInfoCallback parseFloat s data).1.vitals = (Effect.hit name).apply maxHp s.vitals := by
  have hconsume : ∀ name, (s.onRobot name (·.consumeProjectile)).vitals = s.vitals := fun _ =>
    vitals_onRobot_same fun _ => rfl
  unfold shootInfoCallback
  split
  · exact .inl rfl
  · split
    · split
      · rename_i shooterModelName _ _
        split
        · exact .inl rfl
        · split
          · exact .inl rfl
          · dsimp only
            split
            · exact .inr ⟨shooterModelName, (vitals_hit _ shooterModelName maxHp).trans (by rw [hconsume])⟩
            · exact .inl (hconsume shooterModelName)
      · exact .inl rfl
    · exact .inl rfl

theorem vitals_poseInfo : ∀ (transforms : List (String × Transform)) (s : System),
    (poseInfoCallback s transforms).vitals = s.vitals
  | [], _ => rfl
  | p :: ps, s => by
    have ih := vitals_poseInfo ps (if s.knows p.1 then s.onRobot p.1 (·.updateTf p.2) else s)
    unfold poseInfoCallback at ih ⊢
    rw [List.foldl_cons, ih]
    split
    · exact vitals_onRobot_same fun _ => rfl
    · rfl

theorem award_robots (s : System) (now₁ now₂ now₃ : ℚ) : (award s now₁ now₂ now₃).robots = s.robots := by
  unfold award
  split <;> rfl

theorem award_gameOver (s : System) (now₁ now₂ now₃ : ℚ) : (award s now₁ now₂ now₃).gameOver = s.gameOver := by
  unfold award
  split <;> rfl

theorem vitals_checkSurvive (s : System) (maxHp : Int) :
    (checkSurvive s).1.vitals = Effect.reap.apply maxHp s.vitals := by
  simp only [System.vitals, checkSurvive, Effect.apply, List.map_map]
  refine List.map_congr_left fun p _ => ?_
  obtain ⟨name, r⟩ := p
  simp only [Function.comp_apply, Effect.on, StandardRobot.vitals]
  cases hs : r.survive with
  | false => simp [hs]
  | true => by_cases h : r.remainHp = 0 <;> simp [hs, h]

/-- **A tick while the game is on**: the award, the dead counted out, and the game over if a side has nobody left. -/
theorem timerCb_of_play {s : System} (h : s.gameOver = false) (now₁ now₂ now₃ : ℚ) :
    (timerCb s now₁ now₂ now₃).1 =
      { (checkSurvive (award s now₁ now₂ now₃)).1 with
        gameOver := !sideSurvives (checkSurvive (award s now₁ now₂ now₃)).1 "red" ||
          !sideSurvives (checkSurvive (award s now₁ now₂ now₃)).1 "blue" } := by
  have hover : (checkSurvive (award s now₁ now₂ now₃)).1.gameOver = false := (award_gameOver s now₁ now₂ now₃).trans h
  unfold timerCb
  rw [if_neg (by rw [h]; exact Bool.false_ne_true)]
  simp only
  split
  · rename_i hend
    rw [hend]
  · rename_i hend
    rw [Bool.not_eq_true] at hend
    rw [hend, ← hover]

theorem vitals_timer {s : System} (h : s.gameOver = false) (now₁ now₂ now₃ : ℚ) (maxHp : Int) :
    (timerCb s now₁ now₂ now₃).1.vitals = Effect.reap.apply maxHp s.vitals := by
  have haward : (award s now₁ now₂ now₃).vitals = s.vitals := by
    rw [System.vitals, award_robots]
    rfl
  rw [timerCb_of_play h, ← haward]
  exact vitals_checkSurvive (award s now₁ now₂ now₃) maxHp

theorem vitals_known {s : System} {name : String} {f : StandardRobot → StandardRobot} {e : Effect} {maxHp : Int}
    (h : (s.onRobot name f).vitals = e.apply maxHp s.vitals) (es : List Event) :
    (if s.knows name then (s.onRobot name f, es, (none : Option PyError)) else (s, [], none)).1.vitals = s.vitals ∨
      (if s.knows name then (s.onRobot name f, es, (none : Option PyError)) else (s, [], none)).1.vitals =
        e.apply maxHp s.vitals := by
  split
  · exact .inr h
  · exact .inl rfl

theorem vitals_cmd (s : System) (robotName : String) (now : ℚ) : ∀ cmd, ∃ e, Causes (.cmd cmd robotName now) e ∧
    (refereeCmdCallback s cmd robotName now).1.vitals = e.apply s.params.maxHp s.vitals
  | 0 => ⟨.leave, .inl rfl, (Effect.apply_leave _ _).symm⟩
  | 1 => by
    refine ⟨.reset, .inr (.inl ⟨rfl, rfl⟩), ?_⟩
    show System.vitals { s with robots := s.robots.map fun p => (p.1, p.2.resetData s.params) } = _
    simp only [System.vitals, Effect.apply, List.map_map]
    rfl
  | 2 => ⟨.leave, .inl rfl, (Effect.apply_leave _ _).symm⟩
  | 3 => ⟨.leave, .inl rfl, (Effect.apply_leave _ _).symm⟩
  | 4 => by
    have hkill : (s.onRobot robotName fun r => { r with remainHp := 0, survive := false }).vitals =
        (Effect.kill robotName).apply s.params.maxHp s.vitals :=
      vitals_onRobot (g := fun v => { v with remainHp := 0, survive := false }) fun _ => rfl
    rcases vitals_known hkill [.enablePower robotName false] with h | h
    · exact ⟨.leave, .inl rfl, h.trans (Effect.apply_leave _ _).symm⟩
    · exact ⟨.kill robotName, .inr (.inr (.inl ⟨rfl, rfl⟩)), h⟩
  | 5 => by
    have hrevive : (s.onRobot robotName fun r => { r with remainHp := r.maxHp, survive := true }).vitals =
        (Effect.revive robotName).apply s.params.maxHp s.vitals :=
      vitals_onRobot (g := fun v => { v with remainHp := v.maxHp, survive := true }) fun _ => rfl
    rcases vitals_known hrevive [.enablePower robotName true] with h | h
    · exact ⟨.leave, .inl rfl, h.trans (Effect.apply_leave _ _).symm⟩
    · exact ⟨.revive robotName, .inr (.inr (.inr ⟨rfl, rfl⟩)), h⟩
  | _ + 6 => ⟨.leave, .inl rfl, (Effect.apply_leave _ _).symm⟩

variable {parseFloat : String → Option Fp}

/-- **A callback does to the table one of the effects it can cause.** -/
theorem vitals_callback (s : System) (i : Input) :
    ∃ e, Causes i e ∧ (callback parseFloat s i).1.vitals = e.apply s.params.maxHp s.vitals := by
  have hsettle : ∀ (t : System) (es : List Event) (e : Option PyError), (settle t es e).1.vitals = t.vitals :=
    fun t es e => by cases e <;> rfl
  cases i with
  | exchange robotName ammoAmount =>
    exact ⟨.leave, rfl, (vitals_exchange s robotName ammoAmount).trans (Effect.apply_leave _ _).symm⟩
  | attackInfo data =>
    rcases vitals_attackInfo s data s.params.maxHp with h | ⟨name, h⟩
    · exact ⟨.leave, .inl rfl, h.trans (Effect.apply_leave _ _).symm⟩
    · exact ⟨.hit name, .inr ⟨name, rfl⟩, h⟩
  | shootInfo data =>
    rcases vitals_shootInfo parseFloat s data s.params.maxHp with h | ⟨name, h⟩
    · exact ⟨.leave, .inl rfl, (hsettle _ _ _).trans (h.trans (Effect.apply_leave _ _).symm)⟩
    · exact ⟨.hit name, .inr ⟨name, rfl⟩, (hsettle _ _ _).trans h⟩
  | poseInfo transforms =>
    exact ⟨.leave, rfl, (vitals_poseInfo transforms s).trans (Effect.apply_leave _ _).symm⟩
  | timer now₁ now₂ now₃ =>
    cases hover : s.gameOver with
    | false => exact ⟨.reap, .inr rfl, vitals_timer hover now₁ now₂ now₃ _⟩
    | true =>
      refine ⟨.leave, .inl rfl, ?_⟩
      simp only [callback, timerCb, hover, if_true, Effect.apply_leave]
  | cmd cmd robotName now =>
    obtain ⟨e, hcause, h⟩ := vitals_cmd s robotName now cmd
    exact ⟨e, hcause, (hsettle _ _ _).trans h⟩

theorem params_callback (s : System) (i : Input) : (callback parseFloat s i).1.params = s.params := by
  cases i with
  | exchange robotName ammoAmount => exact params_of_funds (funds_of_rest (rest_exchange s robotName ammoAmount))
  | attackInfo data => exact params_of_funds (funds_of_rest (rest_attackInfo s data))
  | shootInfo data => exact params_of_funds ((funds_settle _ _ _).trans (funds_of_rest (rest_shootInfo parseFloat s data)))
  | poseInfo transforms => exact params_of_funds (funds_of_rest (rest_poseInfo transforms s))
  | timer now₁ now₂ now₃ =>
    rcases funds_timer s now₁ now₂ now₃ with h | h
    · exact params_of_funds h
    · exact congrArg Prod.fst h
  | cmd cmd robotName now =>
    have hcmd := (funds_settle _ (refereeCmdCallback s cmd robotName now).2.1
      (refereeCmdCallback s cmd robotName now).2.2).trans (funds_cmd s cmd robotName now)
    refine (congrArg Prod.fst hcmd).trans ?_
    split <;> rfl

/-! ## What holds of the table -/

structure Vitals.Sound (v : Vitals) : Prop where
  nonneg : 0 ≤ v.remainHp
  le : v.remainHp ≤ v.maxHp
  dead : v.survive = false → v.remainHp = 0

theorem Vitals.sound_full {maxHp : Int} (hmax : 0 ≤ maxHp) : Vitals.Sound ⟨maxHp, maxHp, true⟩ :=
  ⟨hmax, Int.le_refl _, fun h => by cases h⟩

theorem Effect.sound {maxHp : Int} (hmax : 0 ≤ maxHp) {v : Vitals} (hv : v.Sound) (name : String) :
    ∀ e : Effect, (e.on maxHp name v).Sound
  | leave => hv
  | hit other => by
    simp only [Effect.on]
    split
    · refine ⟨?_, ?_, fun hdead => ?_⟩
      · have := hv.nonneg
        have := hv.le
        simp only [Vitals.hit]
        omega
      · exact Int.min_le_left _ _
      · have := hv.nonneg
        have := hv.le
        have := hv.dead hdead
        simp only [Vitals.hit]
        omega
    · exact hv
  | reap => by
    refine ⟨hv.nonneg, hv.le, fun hdead => ?_⟩
    rcases Bool.and_eq_false_iff.1 hdead with h | h
    · exact hv.dead h
    · exact Decidable.not_not.1 (of_decide_eq_false h)
  | reset => Vitals.sound_full hmax
  | kill other => by
    simp only [Effect.on]
    split
    · exact ⟨Int.le_refl 0, Int.le_trans hv.nonneg hv.le, fun _ => rfl⟩
    · exact hv
  | revive other => by
    simp only [Effect.on]
    split
    · exact ⟨Int.le_trans hv.nonneg hv.le, Int.le_refl _, fun h => nomatch h⟩
    · exact hv

/-- **After the dead are counted out, the survivors are those with points left.** -/
theorem Effect.survive_reap {v : Vitals} (hv : v.Sound) (maxHp : Int) (name : String) :
    (reap.on maxHp name v).survive = true ↔ 0 < (reap.on maxHp name v).remainHp := by
  have := hv.nonneg
  simp only [Effect.on, Bool.and_eq_true, decide_eq_true_eq]
  constructor
  · rintro ⟨-, hne⟩
    omega
  · intro hpos
    refine ⟨Bool.of_not_eq_false fun hdead => ?_, by omega⟩
    have := hv.dead hdead
    omega

structure Healthy (params : Params) (s : System) : Prop where
  same : s.params = params
  sound : ∀ p ∈ s.vitals, p.2.Sound

theorem healthy_init {params : Params} (hmax : 0 ≤ params.maxHp) : Healthy params (System.init params) := by
  refine ⟨rfl, fun p hp => ?_⟩
  obtain ⟨q, hq, rfl⟩ := List.mem_map.1 hp
  simp only [System.init, List.mem_cons, List.not_mem_nil, or_false] at hq
  rcases hq with rfl | rfl
  · exact Vitals.sound_full hmax
  · exact Vitals.sound_full hmax

theorem sound_apply {maxHp : Int} (hmax : 0 ≤ maxHp) {table : List (String × Vitals)} (h : ∀ p ∈ table, p.2.Sound)
    (e : Effect) : ∀ p ∈ e.apply maxHp table, p.2.Sound := by
  intro p hp
  obtain ⟨q, hq, rfl⟩ := List.mem_map.1 hp
  exact Effect.sound hmax (h q hq) q.1 e

/-- **Every callback keeps the table sound.** -/
theorem healthy_step {params : Params} (hmax : 0 ≤ params.maxHp) (s : System) (i : Input) (t : System)
    (es : List Event) (hs : Healthy params s) (hst : (referee parseFloat).step s i = some (t, es)) :
    Healthy params t := by
  have ht : (callback parseFloat s i).1 = t := congrArg Prod.fst (referee_step.1 hst).2
  obtain ⟨e, -, he⟩ := @vitals_callback parseFloat s i
  refine ⟨ht ▸ (params_callback s i).trans hs.same, ?_⟩
  rw [← ht, he]
  exact sound_apply (hs.same ▸ hmax) hs.sound e

theorem sideSurvives_eq_false {s : System} {side : String} :
    sideSurvives s side = false ↔ ∀ p ∈ s.robots, pyIn side p.1 = true → p.2.survive = false := by
  simp only [sideSurvives, List.any_eq_false, Bool.and_eq_true, not_and, Bool.not_eq_true]

theorem gameOver_iff {s : System} (h : s.gameOver = false) (now₁ now₂ now₃ : ℚ) :
    (timerCb s now₁ now₂ now₃).1.gameOver = true ↔ ∃ side : Side,
      ∀ p ∈ (timerCb s now₁ now₂ now₃).1.robots, pyIn side.text p.1 = true → p.2.survive = false := by
  rw [timerCb_of_play h]
  simp only [Bool.or_eq_true, Bool.not_eq_true', sideSurvives_eq_false]
  constructor
  · rintro (hred | hblue)
    · exact ⟨.red, hred⟩
    · exact ⟨.blue, hblue⟩
  · rintro ⟨side, hside⟩
    cases side with
    | red => exact .inl hside
    | blue => exact .inr hside

/-- The points within their bounds and none left to the dead; after a tick of a game that is not over the survivors are
those with points, and the game is over iff a side has no survivor. -/
structure HealthOk (parseFloat : String → Option Fp) (s : System) : Prop where
  points : ∀ p ∈ s.robots,
    0 ≤ p.2.remainHp ∧ p.2.remainHp ≤ p.2.maxHp ∧ (p.2.survive = false → p.2.remainHp = 0)
  tick : ∀ now₁ now₂ now₃ t es, s.gameOver = false →
    (referee parseFloat).step s (.timer now₁ now₂ now₃) = some (t, es) →
      (∀ p ∈ t.robots, p.2.survive = true ↔ 0 < p.2.remainHp) ∧
        (t.gameOver = true ↔ ∃ side : Side, ∀ p ∈ t.robots, pyIn side.text p.1 = true → p.2.survive = false)

/-- **The health of the robots is in order in every state a run reaches**, whatever the callbacks and their order. -/
theorem health_of_run (parseFloat : String → Option Fp) {params : Params} (hmax : 0 ≤ params.maxHp) {is : List Input}
    {s : System} {o : List Event} (hr : (referee parseFloat).run (System.init params) is = some (s, o)) :
    HealthOk parseFloat s := by
  have hs : Healthy params s := Machine.inv_of_run (healthy_step hmax) (healthy_init hmax) hr
  refine ⟨fun p hp => ?_, fun now₁ now₂ now₃ t es hplay hst => ?_⟩
  · have hv := hs.sound (p.1, p.2.vitals) (List.mem_map_of_mem hp)
    exact ⟨hv.nonneg, hv.le, hv.dead⟩
  · obtain rfl : (timerCb s now₁ now₂ now₃).1 = t := congrArg Prod.fst (referee_step.1 hst).2
    refine ⟨fun p hp => ?_, gameOver_iff hplay now₁ now₂ now₃⟩
    have hv : (p.1, p.2.vitals) ∈ (timerCb s now₁ now₂ now₃).1.vitals := List.mem_map_of_mem hp
    rw [vitals_timer hplay now₁ now₂ now₃ params.maxHp] at hv
    obtain ⟨q, hq, hqp⟩ := List.mem_map.1 hv
    have hvitals : Effect.reap.on params.maxHp q.1 q.2 = p.2.vitals := congrArg Prod.snd hqp
    have hsurvive := Effect.survive_reap (hs.sound q hq) params.maxHp q.1
    rw [hvitals] at hsurvive
    exact hsurvive

theorem health_of_run_killed :
    ∃ s o, (referee fun _ => none).run (System.init ⟨500, 100, 200⟩)
        [.cmd RefereeCmd.killRobot "red_standard_robot1" 0] = some (s, o) ∧ HealthOk (fun _ => none) s := by
  have hsome : ((referee fun _ => none).run (System.init ⟨500, 100, 200⟩)
      [.cmd RefereeCmd.killRobot "red_standard_robot1" 0]).isSome = true := rfl
  obtain ⟨⟨s, o⟩, hr⟩ := Option.isSome_iff_exists.1 hsome
  exact ⟨s, o, hr, health_of_run (fun _ => none) (by decide) hr⟩

end Referee
end LfSentry
