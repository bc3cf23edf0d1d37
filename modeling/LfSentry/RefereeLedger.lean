import LfSentry.Referee
/-!
# RefereeLedger — what the exchanges do to the resources of a side

The ledger is kept from outside: what each side was awarded and what its robots were supplied since the resources were
last set to their initial value.  The resources are the initial value and the awards, in every run
(`resources_eq_ledger`): no exchange ever takes anything from them.
-/
namespace LfSentry
namespace Referee

inductive Side where
  | red
  | blue
deriving DecidableEq

def Side.text : Side → String
  | .red => "red"
  | .blue => "blue"

def sideOf (robotName : String) : Option Side :=
  if pyIn "red" robotName then some .red else if pyIn "blue" robotName then some .blue else none

def System.resources (s : System) : Side → Int
  | .red => s.redResources
  | .blue => s.blueResources

def ammo (side : Side) (s : System) : Int :=
  ((s.robots.filter fun p => pyIn side.text p.1).map fun p => p.2.totalProjectiles).sum

structure Ledger where
  awards : Side → Int
  supplied : Side → Int

namespace Ledger

def zero : Ledger := ⟨fun _ => 0, fun _ => 0⟩

/-- Exchanges are booked by what they add to the robots, ticks by what they add to the resources. -/
def record (g : Ledger) (s : System) (i : Input) (r : System × List Event) : Ledger :=
  match i with
  | .exchange _ _ => { g with supplied := fun side => g.supplied side + (ammo side r.1 - ammo side s) }
  | .timer _ _ _ => { g with awards := fun side => g.awards side + (r.1.resources side - s.resources side) }
  | .cmd cmd _ _ => if cmd = RefereeCmd.selfChecking then zero else g
  | _ => g

end Ledger

def ledgered (parseFloat : String → Option Fp) : Machine (System × Ledger) Input Event :=
  (referee parseFloat).ghost Ledger.record

theorem referee_step {parseFloat : String → Option Fp} {s t : System} {i : Input} {es : List Event} :
    (referee parseFloat).step s i = some (t, es) ↔ s.dead = false ∧ callback parseFloat s i = (t, es) := by
  simp only [referee]
  cases s.dead with
  | true => simp
  | false => simp

theorem ledgered_step {parseFloat : String → Option Fp} {p q : System × Ledger} {i : Input} {es : List Event} :
    (ledgered parseFloat).step p i = some (q, es) ↔
      p.1.dead = false ∧ callback parseFloat p.1 i = (q.1, es) ∧ q.2 = p.2.record p.1 i (q.1, es) := by
  refine Machine.ghost_step.trans ?_
  rw [referee_step, and_assoc]

/-! ## What an exchange does -/

/-- The request names a side and asks for a positive amount that the side has. -/
def Grantable (s : System) (robotName : String) (ammoAmount : Int) : Prop :=
  ∃ side, sideOf robotName = some side ∧ 0 < ammoAmount ∧ ammoAmount ≤ s.resources side

theorem exchange_granted {s : System} {robotName : String} {ammoAmount : Int} {side : Side}
    (hside : sideOf robotName = some side) (h : 0 < ammoAmount ∧ ammoAmount ≤ s.resources side) :
    handleExchangeAmmo s robotName ammoAmount =
      (if s.knows robotName then s.onRobot robotName (·.supplyProjectile ammoAmount) else s,
        [.response true "Ammo exchanged successfully"]) := by
  unfold sideOf at hside
  unfold handleExchangeAmmo
  split at hside
  · rename_i hred
    cases hside
    rw [if_pos hred]
    exact if_pos h
  · rename_i hred
    split at hside
    · rename_i hblue
      cases hside
      rw [if_neg hred, if_pos hblue]
      exact if_pos h
    · cases hside

theorem exchange_refused {s : System} {robotName : String} {ammoAmount : Int}
    (h : ¬ Grantable s robotName ammoAmount) :
    ∃ message, handleExchangeAmmo s robotName ammoAmount = (s, [.response false message]) := by
  unfold handleExchangeAmmo
  by_cases hred : pyIn "red" robotName = true
  · rw [if_pos hred]
    have hno : ¬ (ammoAmount > 0 ∧ ammoAmount ≤ s.redResources) := fun ha =>
      h ⟨.red, if_pos hred, ha⟩
    exact ⟨_, if_neg hno⟩
  · rw [if_neg hred]
    by_cases hblue : pyIn "blue" robotName = true
    · rw [if_pos hblue]
      have hno : ¬ (ammoAmount > 0 ∧ ammoAmount ≤ s.blueResources) := fun ha =>
        h ⟨.blue, by rw [sideOf, if_neg hred, if_pos hblue], ha⟩
      exact ⟨_, if_neg hno⟩
    · rw [if_neg hblue]
      exact ⟨_, rfl⟩

/-! ## The resources -/

def System.funds (s : System) : Params × Int × Int := (s.params, s.redResources, s.blueResources)

theorem params_of_funds {s t : System} (h : t.funds = s.funds) : t.params = s.params := congrArg Prod.fst h

theorem resources_of_funds {s t : System} (h : t.funds = s.funds) : ∀ side, t.resources side = s.resources side
  | .red => congrArg (fun f => f.2.1) h
  | .blue => congrArg (fun f => f.2.2) h

/-- Everything but the robots. -/
def System.rest (s : System) : System := { s with robots := [] }

theorem funds_of_rest {s t : System} (h : t.rest = s.rest) : t.funds = s.funds :=
  show t.rest.funds = s.rest.funds from congrArg System.funds h

@[simp] theorem rest_onRobot (s : System) (name : String) (f : StandardRobot → StandardRobot) :
    (s.onRobot name f).rest = s.rest := rfl

theorem rest_exchange (s : System) (robotName : String) (ammoAmount : Int) :
    (handleExchangeAmmo s robotName ammoAmount).1.rest = s.rest := by
  by_cases h : Grantable s robotName ammoAmount
  · obtain ⟨side, hside, hamount⟩ := h
    rw [exchange_granted hside hamount]
    dsimp only
    split <;> simp
  · obtain ⟨message, heq⟩ := exchange_refused h
    rw [heq]

theorem rest_attackInfo (s : System) (data : String) : (attackInfoCallback s data).rest = s.rest := by
  unfold attackInfoCallback
  split
  · rfl
  · split
    · rfl
    · dsimp only
      split <;> split <;> simp

theorem rest_shootInfo (parseFloat : String → Option Fp) (s : System) (data : String) :
    (shootInfoCallback parseFloat s data).1.rest = s.rest := by
  unfold shootInfoCallback
  split
  · rfl
  · split
    · split
      · split
        · rfl
        · split
          · rfl
          · dsimp only
            split <;> simp
      · rfl
    · rfl

theorem rest_poseInfo : ∀ (transforms : List (String × Transform)) (s : System),
    (poseInfoCallback s transforms).rest = s.rest
  | [], _ => rfl
  | p :: ps, s => by
    have ih := rest_poseInfo ps (if s.knows p.1 then s.onRobot p.1 (·.updateTf p.2) else s)
    unfold poseInfoCallback at ih ⊢
    rw [List.foldl_cons, ih]
    split <;> simp

theorem funds_settle (s : System) (es : List Event) (e : Option PyError) : (settle s es e).1.funds = s.funds := by
  cases e <;> rfl

/-- A tick adds the award, or nothing, to both sides. -/
theorem funds_timer (s : System) (now₁ now₂ now₃ : ℚ) :
    (timerCb s now₁ now₂ now₃).1.funds = s.funds ∨
      (timerCb s now₁ now₂ now₃).1.funds = (s.params, s.redResources + 50, s.blueResources + 50) := by
  unfold timerCb
  split
  · exact .inl rfl
  · have hfunds : ∀ t : System, (if (!sideSurvives (checkSurvive t).1 "red" || !sideSurvives (checkSurvive t).1 "blue")
        = true then { (checkSurvive t).1 with gameOver := true } else (checkSurvive t).1).funds = t.funds := by
      intro t
      split <;> rfl
    have haward : (award s now₁ now₂ now₃).funds = s.funds ∨
        (award s now₁ now₂ now₃).funds = (s.params, s.redResources + 50, s.blueResources + 50) := by
      unfold award
      split
      · exact .inr rfl
      · exact .inl rfl
    rw [← hfunds] at haward
    exact haward

/-- A command leaves the resources alone, or is the one that resets them. -/
theorem funds_cmd (s : System) (cmd : Nat) (robotName : String) (now : ℚ) :
    (refereeCmdCallback s cmd robotName now).1.funds =
      if cmd = RefereeCmd.selfChecking then (s.params, s.params.initialResources, s.params.initialResources)
      else s.funds := by
  unfold refereeCmdCallback
  by_cases h0 : cmd = RefereeCmd.preparation
  · rw [if_pos h0, if_neg (by rw [h0]; decide)]
    rfl
  rw [if_neg h0]
  by_cases h1 : cmd = RefereeCmd.selfChecking
  · rw [if_pos h1, if_pos h1]
    rfl
  rw [if_neg h1, if_neg h1]
  by_cases h2 : cmd = RefereeCmd.startGame
  · rw [if_pos h2]
    rfl
  rw [if_neg h2]
  by_cases h3 : cmd = RefereeCmd.stopGame
  · rw [if_pos h3]
    rfl
  rw [if_neg h3]
  split
  · split <;> rfl
  · split
    · split <;> rfl
    · rfl

/-! ## The ledger along a run -/

structure Booked (params : Params) (p : System × Ledger) : Prop where
  same : p.1.params = params
  resources : ∀ side, p.1.resources side = params.initialResources + p.2.awards side
  awards : ∀ side, 0 ≤ p.2.awards side

theorem booked_init (params : Params) : Booked params (System.init params, Ledger.zero) :=
  ⟨rfl, fun side => by cases side <;> exact (Int.add_zero _).symm, fun _ => Int.le_refl 0⟩

variable {parseFloat : String → Option Fp}

theorem booked_of_funds {params : Params} {p q : System × Ledger} (hp : Booked params p)
    (hf : q.1.funds = p.1.funds) (ha : q.2.awards = p.2.awards) : Booked params q := by
  refine ⟨(params_of_funds hf).trans hp.same, fun side => ?_, fun side => ?_⟩
  · rw [resources_of_funds hf, ha]
    exact hp.resources side
  · rw [ha]
    exact hp.awards side

/-- **Every step keeps the books.** -/
theorem booked_step {params : Params} (p : System × Ledger) (i : Input) (q : System × Ledger) (es : List Event)
    (hp : Booked params p) (hst : (ledgered parseFloat).step p i = some (q, es)) : Booked params q := by
  obtain ⟨-, hcall, hg⟩ := ledgered_step.1 hst
  obtain ⟨t, g⟩ := q
  simp only at hcall hg
  subst hg
  have ht : (callback parseFloat p.1 i).1 = t := congrArg Prod.fst hcall
  cases i with
  | exchange robotName ammoAmount =>
    have hf : t.funds = p.1.funds := ht ▸ funds_of_rest (rest_exchange p.1 robotName ammoAmount)
    exact booked_of_funds hp hf rfl
  | attackInfo data =>
    have hf : t.funds = p.1.funds := ht ▸ funds_of_rest (rest_attackInfo p.1 data)
    exact booked_of_funds hp hf rfl
  | shootInfo data =>
    have hf : t.funds = p.1.funds := ht ▸ (funds_settle _ _ _).trans (funds_of_rest (rest_shootInfo parseFloat p.1 data))
    exact booked_of_funds hp hf rfl
  | poseInfo transforms =>
    have hf : t.funds = p.1.funds := ht ▸ funds_of_rest (rest_poseInfo transforms p.1)
    exact booked_of_funds hp hf rfl
  | timer now₁ now₂ now₃ =>
    have hf := funds_timer p.1 now₁ now₂ now₃
    rw [show (timerCb p.1 now₁ now₂ now₃).1 = t from ht] at hf
    rcases hf with hf | hf
    · have hres := resources_of_funds hf
      refine booked_of_funds hp hf (funext fun side => ?_)
      simp only [Ledger.record, hres side]
      omega
    · have hres : ∀ side, t.resources side = p.1.resources side + 50 := fun side => by
        cases side
        · exact congrArg (fun f => f.2.1) hf
        · exact congrArg (fun f => f.2.2) hf
      refine ⟨(congrArg Prod.fst hf).trans hp.same, fun side => ?_, fun side => ?_⟩
      · have := hp.resources side
        simp only [Ledger.record, hres side]
        omega
      · have := hp.awards side
        simp only [Ledger.record, hres side]
        omega
  | cmd cmd robotName now =>
    have hf : t.funds = (refereeCmdCallback p.1 cmd robotName now).1.funds := ht ▸ funds_settle _ _ _
    rw [funds_cmd] at hf
    by_cases hc : cmd = RefereeCmd.selfChecking
    · rw [if_pos hc] at hf
      simp only [Ledger.record, if_pos hc]
      refine ⟨(congrArg Prod.fst hf).trans hp.same, fun side => ?_, fun _ => Int.le_refl 0⟩
      have hi : p.1.params.initialResources = params.initialResources := congrArg _ hp.same
      rw [← hi, show Ledger.zero.awards side = 0 from rfl, Int.add_zero]
      cases side
      · exact congrArg (fun f => f.2.1) hf
      · exact congrArg (fun f => f.2.2) hf
    · rw [if_neg hc] at hf
      refine booked_of_funds hp hf ?_
      simp only [Ledger.record, if_neg hc]

/-- **In every run the resources of a side are its initial resources and its awards**, whatever was exchanged. -/
theorem resources_eq_ledger {params : Params} {is : List Input} {q : System × Ledger} {o : List Event}
    (hr : (ledgered parseFloat).run (System.init params, Ledger.zero) is = some (q, o)) (side : Side) :
    q.1.resources side = params.initialResources + q.2.awards side :=
  (Machine.inv_of_run booked_step (booked_init params) hr).resources side

/-! ## Conservation -/

/-- The answer to a request, against what the request did. -/
structure ExchangeOk (s : System) (robotName : String) (ammoAmount : Int) (t : System) (es : List Event) : Prop where
  success : ∀ message, .response true message ∈ es →
    (∃ side, sideOf robotName = some side ∧ t.resources side = s.resources side - ammoAmount) ∧
      s.knows robotName = true ∧ t.robots = (s.onRobot robotName (·.supplyProjectile ammoAmount)).robots
  failure : ∀ message, .response false message ∈ es → t = s

/-- No side has been supplied more than it had. -/
def Balanced (p : System × Ledger) : Prop :=
  ∀ side, p.2.supplied side ≤ p.1.params.initialResources + p.2.awards side

/-- The step answers the request it serves, if it serves one, by what it does. -/
def ExchangesOk (parseFloat : String → Option Fp) (p : System × Ledger) (i : Input) : Prop :=
  ∀ robotName ammoAmount q es, i = .exchange robotName ammoAmount → (ledgered parseFloat).step p i = some (q, es) →
    ExchangeOk p.1 robotName ammoAmount q.1 es

structure Conserved (parseFloat : String → Option Fp) (p : System × Ledger) (is : List Input) (q : System × Ledger) :
    Prop where
  balanced : (ledgered parseFloat).Along (fun p _ => Balanced p) p is
  balancedAtEnd : Balanced q
  exchanges : (ledgered parseFloat).Along (ExchangesOk parseFloat) p is

def Grants (p : System × Ledger) (i : Input) : Prop :=
  p.1.dead = false ∧ ∃ robotName ammoAmount, i = .exchange robotName ammoAmount ∧ Grantable p.1 robotName ammoAmount

/-- A request that is granted is answered as if its amount had been taken from the side. -/
theorem not_exchangesOk_of_grants {p : System × Ledger} {i : Input} (h : Grants p i) : ¬ ExchangesOk parseFloat p i := by
  obtain ⟨hdead, robotName, ammoAmount, rfl, side, hside, hpos, hle⟩ := h
  intro hok
  let r := handleExchangeAmmo p.1 robotName ammoAmount
  have hst : (ledgered parseFloat).step p (.exchange robotName ammoAmount) =
      some ((r.1, p.2.record p.1 (.exchange robotName ammoAmount) r), r.2) := ledgered_step.2 ⟨hdead, rfl, rfl⟩
  have hsuccess : .response true "Ammo exchanged successfully" ∈ r.2 := by
    simp only [r, exchange_granted hside ⟨hpos, hle⟩]
    exact List.mem_singleton_self _
  obtain ⟨⟨side', -, hres⟩, -⟩ := (hok robotName ammoAmount _ _ rfl hst).success _ hsuccess
  have hsame := resources_of_funds (funds_of_rest (rest_exchange p.1 robotName ammoAmount)) side'
  simp only [r] at hres
  omega

theorem step_of_not_grants {p q : System × Ledger} {robotName : String} {ammoAmount : Int} {es : List Event}
    (h : ¬ Grants p (.exchange robotName ammoAmount))
    (hst : (ledgered parseFloat).step p (.exchange robotName ammoAmount) = some (q, es)) :
    q.1 = p.1 ∧ ∃ message, es = [.response false message] := by
  obtain ⟨hdead, hcall, -⟩ := ledgered_step.1 hst
  have hno : ¬ Grantable p.1 robotName ammoAmount := fun hg => h ⟨hdead, robotName, ammoAmount, rfl, hg⟩
  obtain ⟨message, heq⟩ := exchange_refused hno
  rw [show callback parseFloat p.1 (.exchange robotName ammoAmount) = _ from heq, Prod.mk.injEq] at hcall
  exact ⟨hcall.1.symm, message, hcall.2.symm⟩

theorem exchangesOk_of_not_grants {p : System × Ledger} {i : Input} (h : ¬ Grants p i) : ExchangesOk parseFloat p i := by
  rintro robotName ammoAmount q es rfl hst
  obtain ⟨hq, message, rfl⟩ := step_of_not_grants h hst
  refine ⟨fun message' hm => ?_, fun _ _ => hq⟩
  simp at hm

theorem supplied_step {p : System × Ledger} {i : Input} {q : System × Ledger} {es : List Event}
    (hp : ∀ side, p.2.supplied side = 0) (hno : ¬ Grants p i) (hst : (ledgered parseFloat).step p i = some (q, es)) :
    ∀ side, q.2.supplied side = 0 := by
  intro side
  obtain ⟨-, -, hg⟩ := ledgered_step.1 hst
  rw [hg]
  cases i with
  | exchange robotName ammoAmount =>
    rw [(step_of_not_grants hno hst).1]
    simp [Ledger.record, hp side]
  | cmd cmd robotName now =>
    simp only [Ledger.record]
    split
    · rfl
    · exact hp side
  | _ => exact hp side

/-- **The resources are conserved exactly in the runs in which no request is granted.** -/
theorem conserved_iff (parseFloat : String → Option Fp) (params : Params) {is : List Input} {q : System × Ledger}
    {o : List Event} (hr : (ledgered parseFloat).run (System.init params, Ledger.zero) is = some (q, o)) :
    Conserved parseFloat (System.init params, Ledger.zero) is q ↔
      0 ≤ params.initialResources ∧
        (ledgered parseFloat).Along (fun p i => ¬ Grants p i) (System.init params, Ledger.zero) is := by
  constructor
  · intro h
    refine ⟨?_, Machine.Along.imp (fun p i hok hg => not_exchangesOk_of_grants hg hok) h.exchanges⟩
    have hstart : Balanced (System.init params, Ledger.zero) := by
      cases is with
      | nil =>
        simp only [Machine.run_nil, Option.some.injEq, Prod.mk.injEq] at hr
        exact hr.1 ▸ h.balancedAtEnd
      | cons i is => exact h.balanced.1
    have := hstart .red
    simpa [Ledger.zero, System.init] using this
  · rintro ⟨hinit, hno⟩
    have hI : (∀ side, Ledger.zero.supplied side = 0) ∧ Booked params (System.init params, Ledger.zero) :=
      ⟨fun _ => rfl, booked_init params⟩
    have hstep : ∀ p i q es, ((∀ side, p.2.supplied side = 0) ∧ Booked params p) → ¬ Grants p i →
        (ledgered parseFloat).step p i = some (q, es) → (∀ side, q.2.supplied side = 0) ∧ Booked params q :=
      fun p i q es hp hg hst => ⟨supplied_step hp.1 hg hst, booked_step p i q es hp.2 hst⟩
    have hbal : ∀ p : System × Ledger, ((∀ side, p.2.supplied side = 0) ∧ Booked params p) → Balanced p := by
      intro p hp side
      have h1 := hp.1 side
      have h2 := hp.2.awards side
      have h3 : p.1.params.initialResources = params.initialResources := congrArg _ hp.2.same
      omega
    exact ⟨Machine.Along.imp_of_inv (fun p i hp _ => hbal p hp) hstep hI hno,
      hbal q (Machine.inv_of_along hstep hI hno hr), Machine.Along.imp (fun p i => exchangesOk_of_not_grants) hno⟩

/-- Two awards, with requests in between that are each refused: one for more than there is, one for nothing, one of nobody
and, after the second award, one for more again. -/
def twoAwards : List Input :=
  [.cmd RefereeCmd.startGame "" 0, .timer 30 30 30, .exchange "red_standard_robot1" 251, .exchange "red_standard_robot1" 0,
    .exchange "nobody" 5, .timer 60 60 60, .exchange "blue_standard_robot1" 301]

theorem conserved_iff_twoAwards :
    ∃ q o, (ledgered fun _ => none).run (System.init ⟨500, 100, 200⟩, Ledger.zero) twoAwards = some (q, o) ∧
      q.1.resources .red = 300 ∧ (Conserved (fun _ => none) (System.init ⟨500, 100, 200⟩, Ledger.zero) twoAwards q ↔
        0 ≤ (Params.mk 500 100 200).initialResources ∧
          (ledgered fun _ => none).Along (fun p i => ¬ Grants p i) (System.init ⟨500, 100, 200⟩, Ledger.zero) twoAwards) := by
  have hrun : ((ledgered fun _ => none).run (System.init ⟨500, 100, 200⟩, Ledger.zero) twoAwards).map
      (fun r => r.1.1.resources .red) = some 300 := by decide +kernel
  obtain ⟨⟨q, o⟩, hr, hred⟩ := Option.map_eq_some_iff.1 hrun
  exact ⟨q, o, hr, hred, conserved_iff (fun _ => none) ⟨500, 100, 200⟩ hr⟩

/-- **Two requests for all that a side has are both granted.** -/
theorem resources_spent_twice :
    ∃ q o, (ledgered fun _ => none).run (System.init ⟨500, 100, 200⟩, Ledger.zero)
        [.exchange "red_standard_robot1" 200, .exchange "red_standard_robot1" 200] = some (q, o) ∧
      q.2.supplied .red = 400 ∧ q.1.resources .red = 200 ∧
      ¬ Conserved (fun _ => none) (System.init ⟨500, 100, 200⟩, Ledger.zero)
        [.exchange "red_standard_robot1" 200, .exchange "red_standard_robot1" 200] q :=
  ⟨_, _, rfl, by decide, by decide, fun h => absurd (h.balancedAtEnd .red) (by decide)⟩

end Referee
end LfSentry
