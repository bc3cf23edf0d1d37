import LfSentry.SentryCmd
import LfSentry.Runs
/-!
# ExchangeVisits — one exchange a visit to the supply zone (`plugins/action/exchange_projectile_once.cpp`)

The description of the node names a time that the RFID reading has to be lost before a visit is over and a cooldown between
commands; the members for them are never used.  The node publishes on every tick in the zone with little ammunition and
enough gold, so the promise is kept exactly in the runs whose readings ask for no more than one exchange
(`exchange_promised_iff`).
-/
namespace LfSentry
namespace Sentry

/-- The clock and the two ports of a tick; the other ports are constant. -/
structure Reading where
  now : Int
  rfid : Option RfidStatus
  robotStatus : Option RobotStatus
  deriving DecidableEq, Repr

/-- What the description promises, in nanoseconds: `leave_confirm_s` and `exchange_cooldown_s`. -/
structure Documented where
  leaveConfirm : Int
  exchangeCooldown : Int

variable (ports : ExchangePorts) (doc : Documented)

def ExchangePorts.reading (r : Reading) : ExchangePorts :=
  { ports with rfidKeyPort := r.rfid, robotStatusKeyPort := r.robotStatus }

def ExchangePorts.amount (index : Int) : Int :=
  clamp (ports.baseExchange.getD 150 + index * ports.incrementStep.getD 150) (ports.maxExchange.getD 500)

/-- The RFID reading is there and in the zone. -/
def inZone (r : Reading) : Bool := r.rfid.any (isInSupplyZone ports)

/-- Both readings are there, in the zone, with little ammunition and enough gold. -/
def qualifies (r : Reading) : Bool :=
  inZone ports r && r.robotStatus.any fun status =>
    !decide (status.projectileAllowance17mm.toNat ≥ ports.ammoThreshold.getD 50) &&
      !decide (status.remainingGoldCoin.toNat < ports.minGold.getD 150)

/-- Both readings are there, and not in the zone. -/
def outside (r : Reading) : Bool := r.robotStatus.isSome && r.rfid.any fun rfid => !isInSupplyZone ports rfid

/-! ## Visits -/

/-- A visit as it is documented: whether one is going on and has had its exchange, and since when the reading is lost. -/
structure Visit where
  going : Bool
  served : Bool
  lostSince : Option Int
  deriving DecidableEq, Repr

/-- A reading that is missing or false ends a visit once it has been lost for the time to confirm. -/
def Visit.next (leaveConfirm : Int) (v : Visit) (now : Int) (inZone : Bool) : Visit :=
  if inZone then ⟨true, v.going && v.served, none⟩
  else
    ⟨v.going && !decide (leaveConfirm ≤ now - v.lostSince.getD now), v.served, some (v.lostSince.getD now)⟩

def Visit.serve (v : Visit) (served : Bool) : Visit := { v with served := v.served || served }

/-- What was published: the visit by its commands, and the last command with its time. -/
structure Commands where
  visit : Visit
  last : Option (Int × SentryCmd)
  deriving DecidableEq, Repr

def Commands.next (c : Commands) (r : Reading) (published : List SentryCmd) : Commands where
  visit := (c.visit.next doc.leaveConfirm r.now (inZone ports r)).serve !published.isEmpty
  last := (published.getLast?.map fun cmd => (r.now, cmd)).or c.last

/-- What the readings asked for: the visit by its qualifying ticks, the time of the last one, and whether no tick outside has
come since. -/
structure Demand where
  visit : Visit
  last : Option Int
  latched : Bool
  deriving DecidableEq, Repr

def Demand.next (d : Demand) (r : Reading) : Demand where
  visit := (d.visit.next doc.leaveConfirm r.now (inZone ports r)).serve (qualifies ports r)
  last := if qualifies ports r then some r.now else d.last
  latched := if outside ports r then false else d.latched || qualifies ports r

abbrev Recorded := ExchangeProjectileOnce × Commands × Demand

def Recorded.init : Recorded := (.init, ⟨⟨false, false, none⟩, none⟩, ⟨⟨false, false, none⟩, none, false⟩)

/-- The node under ticks; a tick publishes at most one command. -/
def exchangeMachine : Machine ExchangeProjectileOnce Reading SentryCmd where
  step n r := some ((n.tick (ports.reading r)).1, (n.tick (ports.reading r)).2.2.toList)

def exchangeRecorded : Machine Recorded Reading SentryCmd :=
  (exchangeMachine ports).ghost fun g _ r q => (g.1.next ports doc r q.2, g.2.next ports doc r)

/-- **The promise of a tick**: a command is the first of its visit, comes a cooldown after the one before and asks for no
less, and the index counts the commands. -/
def Promised (p : Recorded) (r : Reading) : Prop :=
  ∀ q es, (exchangeRecorded ports doc).step p r = some (q, es) →
    (∀ cmd ∈ es, (p.2.1.visit.next doc.leaveConfirm r.now (inZone ports r)).served = false ∧
      (∀ l ∈ p.2.1.last, doc.exchangeCooldown ≤ r.now - l.1 ∧
        l.2.projectileAllowanceToExchange.toNat ≤ cmd.projectileAllowanceToExchange.toNat) ∧
      (cmd.projectileAllowanceToExchange.toNat : Int) ≤ ports.maxExchange.getD 500) ∧
    q.1.exchangeIndex = p.1.exchangeIndex + es.length

/-- A tick that qualifies is the first one of its visit, comes a cooldown after the one before, and between the two a tick
has seen the robot outside. -/
def Orderly (p : Recorded) (r : Reading) : Prop :=
  qualifies ports r = true →
    (p.2.2.visit.next doc.leaveConfirm r.now (inZone ports r)).served = false ∧
      (∀ t ∈ p.2.2.last, doc.exchangeCooldown ≤ r.now - t) ∧ p.2.2.latched = false

/-- The amount at hand fits in 16 bits, and the next one can be reckoned in an `int`. -/
def Fits (p : Recorded) (r : Reading) : Prop :=
  qualifies ports r = true → ports.amount p.1.exchangeIndex < 2 ^ 16 ∧
    ports.baseExchange.getD 150 + (p.1.exchangeIndex + 1) * ports.incrementStep.getD 150 < 2 ^ 31

/-! ## What a tick does -/

section Tick

variable {ports doc} {n : ExchangeProjectileOnce} {r : Reading} {p q : Recorded} {es : List SentryCmd}

/-- **A tick that does not qualify publishes nothing**; the latch falls outside. -/
theorem tick_of_not_qualifies (h : qualifies ports r = false) :
    ((n.tick (ports.reading r)).2.2 = none ∧ (n.tick (ports.reading r)).1.exchangeIndex = n.exchangeIndex ∧
      (n.tick (ports.reading r)).1.lastExchangeAmount = n.lastExchangeAmount ∧
      (n.tick (ports.reading r)).1.exchangedThisVisit = if outside ports r then false else n.exchangedThisVisit) := by
  obtain ⟨now, rfid, robotStatus⟩ := r
  cases rfid with
  | none => simp [ExchangeProjectileOnce.tick, ExchangePorts.reading, outside]
  | some rfid =>
    cases robotStatus with
    | none => simp [ExchangeProjectileOnce.tick, ExchangePorts.reading, outside]
    | some status =>
      by_cases hzone : isInSupplyZone ports rfid = true
      · have hzone' : isInSupplyZone (ports.reading ⟨now, some rfid, some status⟩) rfid = true := hzone
        have hammo : ports.ammoThreshold.getD 50 ≤ status.projectileAllowance17mm.toNat ∨
            ¬ ports.ammoThreshold.getD 50 ≤ status.projectileAllowance17mm.toNat ∧
              (status.remainingGoldCoin.toNat : Int) < ports.minGold.getD 150 := by
          by_cases ha : ports.ammoThreshold.getD 50 ≤ status.projectileAllowance17mm.toNat
          · exact Or.inl ha
          · refine Or.inr ⟨ha, ?_⟩
            simp only [qualifies, inZone, Option.any_some, hzone, ge_iff_le, ha, decide_false, Bool.not_false,
              Bool.true_and, Bool.not_eq_false', decide_eq_true_eq] at h
            exact h
        simp only [ExchangeProjectileOnce.tick, ExchangePorts.reading, outside] at hzone' ⊢
        rcases hammo with ha | ⟨ha, hg⟩
        · simp [hzone', hzone, ha]
        · simp [hzone', hzone, ha, hg]
      · have hzone' : isInSupplyZone (ports.reading ⟨now, some rfid, some status⟩) rfid = false :=
          Bool.not_eq_true _ ▸ hzone
        simp only [ExchangeProjectileOnce.tick, ExchangePorts.reading, outside] at hzone' ⊢
        simp [hzone', hzone]

/-- **A tick that qualifies publishes**: the amount at hand, or again the last one. -/
theorem tick_of_qualifies (h : qualifies ports r = true) :
    (n.tick (ports.reading r)).1.exchangedThisVisit = true ∧
      (n.tick (ports.reading r)).2.2 = some (exchangeCommand (n.tick (ports.reading r)).1.lastExchangeAmount) ∧
      (n.exchangedThisVisit = false → (n.tick (ports.reading r)).1.exchangeIndex = n.exchangeIndex + 1 ∧
        (n.tick (ports.reading r)).1.lastExchangeAmount = ports.amount n.exchangeIndex) ∧
      (n.exchangedThisVisit = true → (n.tick (ports.reading r)).1.exchangeIndex = n.exchangeIndex ∧
        (n.tick (ports.reading r)).1.lastExchangeAmount = n.lastExchangeAmount) := by
  obtain ⟨now, rfid, robotStatus⟩ := r
  cases rfid with
  | none => simp [qualifies, inZone] at h
  | some rfid =>
    cases robotStatus with
    | none => simp [qualifies] at h
    | some status =>
      simp only [qualifies, inZone, Option.any_some, Bool.and_eq_true, Bool.not_eq_true', decide_eq_false_iff_not] at h
      obtain ⟨hzone, ha, hg⟩ := h
      have hzone' : isInSupplyZone (ports.reading ⟨now, some rfid, some status⟩) rfid = true := hzone
      simp only [ExchangePorts.reading] at hzone'
      cases hlatch : n.exchangedThisVisit with
      | false => simp [ExchangeProjectileOnce.tick, ExchangePorts.reading, hzone', ha, hg, hlatch, ExchangePorts.amount]
      | true => simp [ExchangeProjectileOnce.tick, ExchangePorts.reading, hzone', ha, hg, hlatch]

/-- A qualifying reading is not one outside. -/
theorem outside_of_qualifies (h : qualifies ports r = true) : outside ports r = false := by
  obtain ⟨now, rfid, robotStatus⟩ := r
  cases rfid with
  | none => simp [outside]
  | some rfid =>
    simp only [qualifies, inZone, Option.any_some, Bool.and_eq_true] at h
    simp [outside, h.1]

theorem amount_mono (hstep : 0 ≤ ports.incrementStep.getD 150) {i j : Int} (h : i ≤ j) : ports.amount i ≤ ports.amount j := by
  have hmul : i * ports.incrementStep.getD 150 ≤ j * ports.incrementStep.getD 150 :=
    Int.mul_le_mul_of_nonneg_right h hstep
  unfold ExchangePorts.amount clamp
  omega

theorem amount_mem (hmax : 0 ≤ ports.maxExchange.getD 500) (i : Int) :
    0 ≤ ports.amount i ∧ ports.amount i ≤ ports.maxExchange.getD 500 := by
  unfold ExchangePorts.amount clamp
  omega

/-- **An amount of 16 bits is sent as it is.** -/
theorem exchangeCommand_amount {a : Int} (h0 : 0 ≤ a) (h16 : a < 2 ^ 16) :
    ((exchangeCommand a).projectileAllowanceToExchange.toNat : Int) = a := by
  simp only [exchangeCommand, BitVec.toNat_ofInt]
  rw [Int.max_eq_right h0, Int.toNat_of_nonneg (Int.emod_nonneg _ (by decide))]
  exact Int.emod_eq_of_lt h0 (by exact_mod_cast h16)

/-- The node, its commands and the readings agree. -/
structure Inv (ports : ExchangePorts) (p : Recorded) : Prop where
  visit : p.2.1.visit = p.2.2.visit
  last : p.2.1.last.map Prod.fst = p.2.2.last
  latched : p.1.exchangedThisVisit = p.2.2.latched
  sent : ∀ l ∈ p.2.1.last, l.2 = exchangeCommand (ports.amount (p.1.exchangeIndex - 1))
  amount : p.2.2.latched = true → p.1.lastExchangeAmount = ports.amount (p.1.exchangeIndex - 1)

theorem inv_init : Inv ports Recorded.init where
  visit := rfl
  last := rfl
  latched := rfl
  sent l hl := by cases hl
  amount h := by cases h

theorem exchange_step (hstep : (exchangeRecorded ports doc).step p r = some (q, es)) :
    q.1 = (p.1.tick (ports.reading r)).1 ∧ es = (p.1.tick (ports.reading r)).2.2.toList ∧
      q.2.1 = p.2.1.next ports doc r es ∧ q.2.2 = p.2.2.next ports doc r := by
  obtain ⟨hnode, hq⟩ := Machine.ghost_step.1 hstep
  simp only [exchangeMachine, Option.some.injEq, Prod.mk.injEq] at hnode
  rw [hq]
  exact ⟨hnode.1.symm, hnode.2.symm, rfl, rfl⟩

/-- **A step keeps the agreement.** -/
theorem inv_exchange (hI : Inv ports p) (hstep : (exchangeRecorded ports doc).step p r = some (q, es)) : Inv ports q := by
  obtain ⟨hnode, hes, hcommands, hdemand⟩ := exchange_step hstep
  cases hqual : qualifies ports r with
  | false =>
    obtain ⟨hnone, hindex, hamount, hlatch⟩ := tick_of_not_qualifies (n := p.1) hqual
    rw [hnone] at hes
    have hlatched : q.2.2.latched = if outside ports r then false else p.2.2.latched := by
      rw [hdemand]
      simp [Demand.next, hqual]
    refine ⟨?_, ?_, ?_, ?_, ?_⟩
    · rw [hcommands, hdemand, hes]
      simp [Commands.next, Demand.next, hqual, hI.visit]
    · rw [hcommands, hdemand, hes]
      simp [Commands.next, Demand.next, hqual, hI.last]
    · rw [hnode, hlatch, hlatched, hI.latched]
    · rw [hnode, hindex, hcommands, hes]
      simpa [Commands.next] using hI.sent
    · rw [hlatched, hnode, hindex, hamount]
      by_cases hout : outside ports r = true
      · rw [if_pos hout]
        intro hfalse
        cases hfalse
      · rw [if_neg hout]
        exact hI.amount
  | true =>
    obtain ⟨hexchanged, hsome, hfresh, hagain⟩ := tick_of_qualifies (n := p.1) hqual
    rw [hsome, Option.toList_some] at hes
    have hlatched : q.2.2.latched = true := by
      rw [hdemand]
      simp [Demand.next, hqual, outside_of_qualifies hqual]
    have hamount : (p.1.tick (ports.reading r)).1.lastExchangeAmount =
        ports.amount ((p.1.tick (ports.reading r)).1.exchangeIndex - 1) := by
      cases hlatch : p.1.exchangedThisVisit with
      | false =>
        obtain ⟨hindex, ha⟩ := hfresh hlatch
        rw [ha, hindex, add_sub_cancel_right]
      | true =>
        obtain ⟨hindex, ha⟩ := hagain hlatch
        rw [ha, hindex, hI.amount (by rw [← hI.latched, hlatch])]
    refine ⟨?_, ?_, ?_, ?_, ?_⟩
    · rw [hcommands, hdemand, hes]
      simp [Commands.next, Demand.next, hqual, hI.visit]
    · rw [hcommands, hdemand, hes]
      simp [Commands.next, Demand.next, hqual]
    · rw [hnode, hexchanged, hlatched]
    · rw [hcommands, hes, hnode]
      intro l hl
      simp only [Commands.next, List.getLast?_singleton, Option.map_some, Option.some_or, Option.mem_some_iff] at hl
      rw [← hl, hamount]
    · rw [hnode]
      exact fun _ => hamount

/-- There is one step to keep the promise in. -/
theorem promised_iff_step (hstep : (exchangeRecorded ports doc).step p r = some (q, es)) :
    Promised ports doc p r ↔
      (∀ cmd ∈ es, (p.2.1.visit.next doc.leaveConfirm r.now (inZone ports r)).served = false ∧
        (∀ l ∈ p.2.1.last, doc.exchangeCooldown ≤ r.now - l.1 ∧
          l.2.projectileAllowanceToExchange.toNat ≤ cmd.projectileAllowanceToExchange.toNat) ∧
        (cmd.projectileAllowanceToExchange.toNat : Int) ≤ ports.maxExchange.getD 500) ∧
      q.1.exchangeIndex = p.1.exchangeIndex + es.length := by
  refine ⟨fun h => h q es hstep, fun h q' es' hstep' => ?_⟩
  rw [hstep, Option.some.injEq, Prod.mk.injEq] at hstep'
  obtain ⟨rfl, rfl⟩ := hstep'
  exact h

/-- **At each step whose amount fits the promise is kept exactly if the tick is orderly.** -/
theorem promised_iff_orderly (hincrement : 0 ≤ ports.incrementStep.getD 150) (hmax : 0 ≤ ports.maxExchange.getD 500)
    (hI : Inv ports p) (hfits : Fits ports p r) : Promised ports doc p r ↔ Orderly ports doc p r := by
  obtain ⟨⟨q, es⟩, hstep⟩ : ∃ qes, (exchangeRecorded ports doc).step p r = some qes := ⟨_, rfl⟩
  obtain ⟨hnode, hes, -, -⟩ := exchange_step hstep
  rw [promised_iff_step hstep]
  cases hqual : qualifies ports r with
  | false =>
    obtain ⟨hnone, hindex, -, -⟩ := tick_of_not_qualifies (n := p.1) hqual
    rw [hnone] at hes
    refine iff_of_true ⟨fun cmd hcmd => ?_, ?_⟩ fun h => ?_
    · rw [hes] at hcmd
      cases hcmd
    · rw [hnode, hindex, hes]
      simp
    · rw [hqual] at h
      cases h
  | true =>
    obtain ⟨-, hsome, hfresh, hagain⟩ := tick_of_qualifies (n := p.1) hqual
    rw [hsome, Option.toList_some] at hes
    rw [hes, hnode]
    simp only [List.mem_singleton, forall_eq, List.length_singleton]
    constructor
    · rintro ⟨⟨hvisit, hlast, -⟩, hindex⟩ -
      refine ⟨hI.visit ▸ hvisit, fun t ht => ?_, ?_⟩
      · rw [← hI.last] at ht
        obtain ⟨l, hl, rfl⟩ := Option.mem_map.1 ht
        exact (hlast l hl).1
      · rw [← hI.latched]
        by_contra hlatch
        have hsame := (hagain (Bool.not_eq_false _ ▸ hlatch)).1
        push_cast at hindex
        omega
    · intro horderly
      obtain ⟨hvisit, hlast, hlatch⟩ := horderly hqual
      obtain ⟨hindex, hamount⟩ := hfresh (hI.latched.trans hlatch)
      obtain ⟨hfit, -⟩ := hfits hqual
      have hmem := amount_mem hmax p.1.exchangeIndex
      have hcmd := exchangeCommand_amount hmem.1 hfit
      rw [hamount]
      refine ⟨⟨hI.visit ▸ hvisit, fun l hl => ⟨?_, ?_⟩, ?_⟩, by rw [hindex]; rfl⟩
      · apply hlast
        rw [← hI.last]
        exact Option.mem_map_of_mem Prod.fst hl
      · have hle : ports.amount (p.1.exchangeIndex - 1) ≤ ports.amount p.1.exchangeIndex :=
          amount_mono hincrement (by omega)
        have hsent := exchangeCommand_amount (amount_mem hmax (p.1.exchangeIndex - 1)).1 (Int.lt_of_le_of_lt hle hfit)
        rw [hI.sent l hl]
        omega
      · rw [hcmd]
        exact hmem.2

end Tick

/-- **Every run whose amounts fit keeps the promise exactly if it is orderly.** -/
theorem exchange_promised_iff (ports : ExchangePorts) (doc : Documented) (hincrement : 0 ≤ ports.incrementStep.getD 150)
    (hmax : 0 ≤ ports.maxExchange.getD 500) (readings : List Reading)
    (hfits : (exchangeRecorded ports doc).Along (Fits ports) Recorded.init readings) :
    (exchangeRecorded ports doc).Along (Promised ports doc) Recorded.init readings ↔
      (exchangeRecorded ports doc).Along (Orderly ports doc) Recorded.init readings :=
  Machine.along_congr (I := Inv ports) (fun _ _ hI hf => promised_iff_orderly hincrement hmax hI hf)
    (fun _ _ _ _ hI _ _ hstep => inv_exchange hI hstep) inv_init hfits

/-- The ports of the tree, and the documented times: one second to confirm a leave, eight between commands. -/
def treePorts : ExchangePorts := ⟨none, none, some true, some true, some 50, some 150, some 150, some 1, some 200⟩

def describedTimes : Documented := ⟨1000000000, 8000000000⟩

/-- Ten bullets and five hundred coins. -/
def readingAt (now : Int) (zone : Bool) : Reading := ⟨now, some ⟨zone, false⟩, some ⟨10#16, 500#16⟩⟩

/-- Out of the zone from 10 s to 20 s. -/
def twoVisits : List Reading := [readingAt 0 true, readingAt 10000000000 false, readingAt 12000000000 false,
  readingAt 20000000000 true]

theorem exchange_promised_iff_twoVisits :
    (exchangeRecorded treePorts describedTimes).Along (Promised treePorts describedTimes) Recorded.init twoVisits := by
  refine (exchange_promised_iff treePorts describedTimes (by decide) (by decide) twoVisits ?_).2 ?_
  · refine ⟨by unfold Fits; decide, fun t es h => ?_⟩
    cases h
    refine ⟨by unfold Fits; decide, fun t es h => ?_⟩
    cases h
    refine ⟨by unfold Fits; decide, fun t es h => ?_⟩
    cases h
    exact ⟨by unfold Fits; decide, fun t es _ => trivial⟩
  · refine ⟨by unfold Orderly; decide, fun t es h => ?_⟩
    cases h
    refine ⟨by unfold Orderly; decide, fun t es h => ?_⟩
    cases h
    refine ⟨by unfold Orderly; decide, fun t es h => ?_⟩
    cases h
    exact ⟨by unfold Orderly; decide, fun t es _ => trivial⟩

/-- **Two ticks in the zone a second apart: the exchange is asked for twice.** -/
theorem published_twice : ¬ (exchangeRecorded treePorts describedTimes).Along (Promised treePorts describedTimes)
    Recorded.init [readingAt 0 true, readingAt 1000000000 true] := by
  intro h
  obtain ⟨hcommand, -⟩ := (h.2 _ _ rfl).1 _ _ rfl
  have hserved := (hcommand _ (List.mem_singleton_self _)).1
  exact absurd hserved (by decide)

end Sentry
end LfSentry
