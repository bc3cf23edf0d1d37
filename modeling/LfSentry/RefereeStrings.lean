import LfSentry.Referee
import Mathlib.Data.Nat.Digits.Defs
/-!
# RefereeStrings — what the referee makes of any string (`simple_competition_1v1.py`)

The callbacks with what Python raises: an index out of a list, a text that `float` does not read.  No index is ever out of
its list (`attackInfoCallbackAt_eq`, `shootInfoCallbackAt_eq`), but nothing guards the number, nor a string with more parts
than were asked for: exactly the strings that are harmless are those of `harmless_iff`.
-/
namespace LfSentry
namespace Referee

/-! ## `float` -/

/-- What the text of a number says. -/
inductive FloatText
  | decimal (value : ℚ)
  | infinity (neg : Bool)
  | nan

def isSpace (c : Char) : Bool := [' ', '\t', '\n', '\r', '\x0b', '\x0c'].contains c

def strip (cs : List Char) : List Char := ((cs.dropWhile isSpace).reverse.dropWhile isSpace).reverse

/-- An optional sign: whether it is a minus, and what follows. -/
def signed : List Char → Bool × List Char
  | '-' :: cs => (true, cs)
  | '+' :: cs => (false, cs)
  | cs => (false, cs)

/-- `digitpart`: digits, with single underscores between them. -/
def digitPart (cs : List Char) : Option (List Nat) :=
  let parts := cs.splitOn '_'
  if parts.all fun part => !part.isEmpty && part.all Char.isDigit then
    some (parts.flatten.map fun c => c.toNat - '0'.toNat)
  else none

/-- `number`: its digits, and how many of them follow the point. -/
def number (cs : List Char) : Option (List Nat × Nat) :=
  let part (cs : List Char) : Option (List Nat) := if cs.isEmpty then some [] else digitPart cs
  match cs.splitOn '.' with
  | [whole] => (digitPart whole).map fun ds => (ds, 0)
  | [whole, fraction] =>
    if whole.isEmpty && fraction.isEmpty then none
    else (part whole).bind fun ws => (part fraction).map fun fs => (ws ++ fs, fs.length)
  | _ => none

def ofDigits (ds : List Nat) : Nat := Nat.ofDigits 10 ds.reverse

/-- `floatnumber`: a number and perhaps an exponent. -/
def floatNumber (cs : List Char) : Option ℚ :=
  match cs.splitOnP fun c => c == 'e' || c == 'E' with
  | [mantissa] => (number mantissa).map fun n => (ofDigits n.1 : ℚ) / 10 ^ n.2
  | [mantissa, exponent] =>
    (number mantissa).bind fun n => (digitPart (signed exponent).2).map fun es =>
      (ofDigits n.1 : ℚ) / 10 ^ n.2 *
        (10 : ℚ) ^ (if (signed exponent).1 then -(ofDigits es : Int) else (ofDigits es : Int))
  | _ => none

/-- `floatvalue`. -/
def floatValue (cs : List Char) : Option FloatText :=
  let rest := (signed cs).2
  let lower := String.ofList (rest.map Char.toLower)
  if lower = "inf" ∨ lower = "infinity" then some (.infinity (signed cs).1)
  else if lower = "nan" then some .nan
  else (floatNumber rest).map fun value => .decimal (if (signed cs).1 then -value else value)

/-- The text of a number, between spaces; `ascii` makes the digits and the spaces of other scripts those of ASCII. -/
def readFloat (ascii : Char → Char) (s : String) : Option FloatText := floatValue (strip (s.toList.map ascii))

/-- `float(s)`, for a `round` to the nearest double; `none` is its `ValueError`. -/
def pyFloat (ascii : Char → Char) (round : ℚ → Fp) (s : String) : Option Fp :=
  (readFloat ascii s).map fun
    | .decimal value => round value
    | .infinity neg => .inf neg
    | .nan => .nan

/-! ## The callbacks, with what they raise -/

inductive PyException
  | indexError
  | valueError
  deriving DecidableEq, Repr

/-- `l[i]`. -/
def pyIndex {α : Type} (l : List α) (i : Nat) : Except PyException α :=
  match l[i]? with
  | some a => .ok a
  | none => .error .indexError

/-- `parse_attack_info`. -/
def parseAttackInfoAt (attackStr : String) : Except PyException (Option (String × String × String × String)) := do
  let info := pySplit attackStr ','
  if info.length < 2 then return none
  let shooter := pySplit (← pyIndex info 0) '/'
  if shooter.length ≠ 2 then return none
  let shooterModelName ← pyIndex shooter 0
  let shooterName ← pyIndex shooter 1
  let target := pySplit (← pyIndex info 1) '/'
  if target.length ≠ 4 then return none
  let targetModelName ← pyIndex target 1
  let targetLinkName ← pyIndex target 2
  let targetCollisionName ← pyIndex target 3
  if targetCollisionName ≠ "target_collision" then return none
  return some (shooterModelName, shooterName, targetModelName, targetLinkName)

def attackInfoCallbackAt (s : System) (data : String) : Except PyException System := do
  if s.gameOver then return s
  match ← parseAttackInfoAt data with
  | none => return s
  | some (shooterModelName, _, targetModelName, targetLinkName) =>
    let s :=
      if pyIn "armor" targetLinkName && s.knows targetModelName then s.onRobot targetModelName (·.updateHp (-10))
      else s
    return if s.knows shooterModelName then s.onRobot shooterModelName (·.recordHit) else s

def shootInfoCallbackAt (parseFloat : String → Option Fp) (s : System) (data : String) : Except PyException System := do
  if s.gameOver then return s
  let info := pySplit data ','
  if info.length < 2 then return s
  let shooter := pySplit (← pyIndex info 0) '/'
  if shooter.length ≠ 2 then return s
  let shooterModelName ← pyIndex shooter 0
  let velInfo ← pyIndex info 1
  match parseFloat velInfo with
  | none => throw .valueError
  | some vel =>
    if !s.knows shooterModelName then return s
    let s := s.onRobot shooterModelName (·.consumeProjectile)
    return if Fp.lt (.fin 30) vel then s.onRobot shooterModelName (·.updateHp (-10)) else s

@[simp] theorem pyIndex_cons_zero {α : Type} (a : α) (l : List α) : pyIndex (a :: l) 0 = .ok a := rfl

@[simp] theorem pyIndex_cons_succ {α : Type} (a : α) (l : List α) (i : Nat) : pyIndex (a :: l) (i + 1) = pyIndex l i := rfl

@[simp] theorem ok_bind {α β : Type} (a : α) (f : α → Except PyException β) : (Except.ok a >>= f) = f a := rfl

theorem parseAttackInfoAt_eq (attackStr : String) : parseAttackInfoAt attackStr = .ok (parseAttackInfo attackStr) := by
  unfold parseAttackInfoAt parseAttackInfo
  match pySplit attackStr ',' with
  | [] => rfl
  | [_] => rfl
  | shooterInfo :: targetInfo :: _ =>
    simp only [pyIndex_cons_zero, pyIndex_cons_succ, ok_bind]
    generalize pySplit shooterInfo '/' = shooter
    generalize pySplit targetInfo '/' = target
    match shooter with
    | [] => rfl
    | [_] => rfl
    | _ :: _ :: _ :: _ => rfl
    | [shooterModelName, shooterName] =>
      match target with
      | [] => rfl
      | [_] => rfl
      | [_, _] => rfl
      | [_, _, _] => rfl
      | _ :: _ :: _ :: _ :: _ :: _ => rfl
      | [_, targetModelName, targetLinkName, targetCollisionName] =>
        by_cases hcollision : targetCollisionName = "target_collision"
        · subst hcollision
          rfl
        · simp [hcollision]

/-- **`attack_info_callback` raises nothing.** -/
theorem attackInfoCallbackAt_eq (s : System) (data : String) :
    attackInfoCallbackAt s data = .ok (attackInfoCallback s data) := by
  unfold attackInfoCallbackAt attackInfoCallback
  rw [parseAttackInfoAt_eq]
  split
  · rfl
  · cases parseAttackInfo data with
    | none => rfl
    | some names => rfl

/-- **`shoot_info_callback` raises nothing but what `float` does.** -/
theorem shootInfoCallbackAt_eq (parseFloat : String → Option Fp) (s : System) (data : String) :
    shootInfoCallbackAt parseFloat s data =
      match shootInfoCallback parseFloat s data with
      | (t, none) => .ok t
      | (_, some _) => .error .valueError := by
  unfold shootInfoCallbackAt shootInfoCallback
  split
  · rfl
  · rcases pySplit data ',' with _ | ⟨shooterInfo, _ | ⟨velInfo, rest⟩⟩
    · rfl
    · rfl
    · simp only [pyIndex_cons_zero, pyIndex_cons_succ, ok_bind]
      rcases pySplit shooterInfo '/' with _ | ⟨shooterModelName, _ | ⟨name, _ | ⟨next, names⟩⟩⟩
      · rfl
      · rfl
      · simp only [pyIndex_cons_zero, ok_bind]
        cases parseFloat velInfo with
        | none => rfl
        | some vel =>
          dsimp only
          cases s.knows shooterModelName with
          | false => rfl
          | true =>
            cases Fp.lt (.fin 30) vel with
            | false => rfl
            | true => rfl
      · rfl

/-! ## Which strings are harmless -/

/-- Shooter model and name, a comma, a path of four parts that ends in `target_collision`. -/
def AttackForm (data : String) : Prop :=
  ∃ shooter target, pySplit data ',' = [shooter, target] ∧ (∃ model name, pySplit shooter '/' = [model, name]) ∧
    ∃ scope model link, pySplit target '/' = [scope, model, link, "target_collision"]

/-- Shooter model and name, a comma, a decimal number. -/
def ShootForm (ascii : Char → Char) (data : String) : Prop :=
  ∃ shooter vel, pySplit data ',' = [shooter, vel] ∧ (∃ model name, pySplit shooter '/' = [model, name]) ∧
    ∃ value, readFloat ascii vel = some (.decimal value)

/-- No exception, and the robots as they were if the string is not of its form. -/
structure Harmless (callback : System → String → Except PyException System) (form : String → Prop) (s : System)
    (data : String) : Prop where
  quiet : ∃ t, callback s data = .ok t
  unchanged : ¬ form data → ∀ t, callback s data = .ok t → t.robots = s.robots

variable {s : System} {data name : String} {f : StandardRobot → StandardRobot}

theorem knows_iff : s.knows name = true ↔ ∃ p ∈ s.robots, p.1 = name := by
  simp [System.knows]

theorem robots_onRobot : (s.onRobot name f).robots = s.robots.map fun p => if p.1 = name then (p.1, f p.2) else p := rfl

theorem robots_onRobot_eq_iff : (s.onRobot name f).robots = s.robots ↔ ∀ p ∈ s.robots, p.1 = name → f p.2 = p.2 := by
  have hmap := @List.map_inj_left _ _ s.robots (fun p => if p.1 = name then (p.1, f p.2) else p) id
  rw [List.map_id] at hmap
  refine hmap.trans (forall_congr' fun p => imp_congr_right fun _ => ?_)
  by_cases hname : p.1 = name
  · rw [if_pos hname]
    simp [Prod.ext_iff, hname]
  · simp [hname]

/-- A name that is not known is nobody's. -/
theorem onRobot_of_not_knows (h : s.knows name = false) (f : StandardRobot → StandardRobot) :
    (s.onRobot name f).robots = s.robots := by
  refine robots_onRobot_eq_iff.2 fun p hp hname => ?_
  rw [knows_iff.2 ⟨p, hp, hname⟩] at h
  cases h

theorem robots_ite_knows : (if s.knows name then s.onRobot name f else s).robots = (s.onRobot name f).robots := by
  cases h : s.knows name with
  | true => rfl
  | false => exact (onRobot_of_not_knows h f).symm

/-- A count that only `g` moves tells where `g` was applied. -/
theorem robots_onRobot_onRobot_eq_iff {target shooter : String} {f g : StandardRobot → StandardRobot}
    (count : StandardRobot → Int) (hf : ∀ r, count (f r) = count r) (hg : ∀ r, count (g r) ≠ count r) :
    ((s.onRobot target f).onRobot shooter g).robots = s.robots ↔
      s.knows shooter = false ∧ ∀ p ∈ s.robots, p.1 = target → f p.2 = p.2 := by
  constructor
  · intro h
    have hunknown : s.knows shooter = false := by
      rw [Bool.eq_false_iff, Ne, knows_iff]
      rintro ⟨p, hp, rfl⟩
      obtain ⟨i, hi, rfl⟩ := List.getElem_of_mem hp
      have hat := congrArg (fun l : List (String × StandardRobot) => (l[i]?).map fun p => count p.2) h
      simp only [System.onRobot, List.map_map, List.getElem?_map, List.getElem?_eq_getElem hi, Option.map_some,
        Function.comp_apply, Option.some.injEq] at hat
      by_cases htarget : s.robots[i].1 = target
      · simp only [htarget, if_true] at hat
        exact hg _ (hat.trans (hf _).symm)
      · simp only [htarget, if_false, if_true] at hat
        exact hg _ hat
    refine ⟨hunknown, ?_⟩
    have hknows : (s.onRobot target f).knows shooter = false := by
      rw [← hunknown]
      simp only [System.knows, System.onRobot, List.map_map]
      congr 1
      refine List.map_congr_left fun p _ => ?_
      by_cases hp : p.1 = target <;> simp [hp]
    rw [onRobot_of_not_knows hknows] at h
    exact robots_onRobot_eq_iff.1 h
  · rintro ⟨hunknown, hf⟩
    have hrobots := robots_onRobot_eq_iff.2 hf
    have hknows : (s.onRobot target f).knows shooter = false := by rw [System.knows, hrobots]; exact hunknown
    rw [onRobot_of_not_knows hknows, hrobots]

/-- What `attack_info` of a shot does to the robots. -/
theorem robots_attackInfoCallback (hover : s.gameOver = false) {shooter scope target link : String}
    (hparse : parseAttackInfo data = some (shooter, scope, target, link)) :
    (attackInfoCallback s data).robots = s.robots ↔
      s.knows shooter = false ∧
        (pyIn "armor" link = true → ∀ p ∈ s.robots, p.1 = target → p.2.updateHp (-10) = p.2) := by
  have hcallback : (attackInfoCallback s data).robots =
      ((if pyIn "armor" link then s.onRobot target (·.updateHp (-10)) else s).onRobot shooter (·.recordHit)).robots := by
    unfold attackInfoCallback
    rw [if_neg (by rw [hover]; exact Bool.false_ne_true), hparse]
    dsimp only
    rw [robots_ite_knows]
    cases harmor : pyIn "armor" link with
    | false => rfl
    | true =>
      rw [Bool.true_and, if_pos rfl]
      rw [robots_onRobot, robots_ite_knows]
      rfl
  rw [hcallback]
  have hcount : ∀ r : StandardRobot, r.recordHit.hitProjectiles ≠ r.hitProjectiles := by
    intro r
    change r.hitProjectiles + 1 ≠ r.hitProjectiles
    omega
  cases harmor : pyIn "armor" link with
  | false =>
    have hone := @robots_onRobot_onRobot_eq_iff s shooter shooter id (·.recordHit) (·.hitProjectiles) (fun r => rfl) hcount
    simpa [System.onRobot] using hone
  | true =>
    have htwo := @robots_onRobot_onRobot_eq_iff s target shooter (·.updateHp (-10)) (·.recordHit) (·.hitProjectiles)
      (fun r => rfl) hcount
    simpa using htwo

/-- What `shoot_info` of a shot that `float` reads does to the robots: nothing iff the shooter is nobody. -/
theorem robots_shootInfoCallback (parseFloat : String → Option Fp) (hover : s.gameOver = false)
    {shooterInfo vel model : String} {rest : List String} (hdata : pySplit data ',' = shooterInfo :: vel :: rest)
    (hshooter : pySplit shooterInfo '/' = [model, name]) {v : Fp} (hv : parseFloat vel = some v) :
    (shootInfoCallback parseFloat s data).2 = none ∧
      ((shootInfoCallback parseFloat s data).1.robots = s.robots ↔ s.knows model = false) := by
  unfold shootInfoCallback
  rw [if_neg (by rw [hover]; exact Bool.false_ne_true), hdata]
  dsimp only
  rw [hshooter]
  dsimp only
  rw [hv]
  dsimp only
  have hcount : ∀ r : StandardRobot, r.consumeProjectile.usedProjectiles ≠ r.usedProjectiles := by
    intro r
    change r.usedProjectiles + 1 ≠ r.usedProjectiles
    omega
  cases hknows : s.knows model with
  | false => exact ⟨rfl, iff_of_true rfl rfl⟩
  | true =>
    rw [Bool.not_true, if_neg Bool.false_ne_true]
    refine ⟨by split <;> rfl, iff_of_false ?_ Bool.noConfusion⟩
    split
    · -- the two changes of the shooter, in either order
      have htwo := @robots_onRobot_onRobot_eq_iff s model model (·.updateHp (-10)) (·.consumeProjectile) (·.usedProjectiles)
        (fun r => rfl) hcount
      rw [hknows] at htwo
      intro h
      refine absurd (htwo.1 ?_).1 Bool.noConfusion
      rw [← h]
      simp only [robots_onRobot, List.map_map]
      refine List.map_congr_left fun p _ => ?_
      by_cases hp : p.1 = model <;> simp [hp, StandardRobot.updateHp, StandardRobot.consumeProjectile]
    · have hone := @robots_onRobot_onRobot_eq_iff s model model id (·.consumeProjectile) (·.usedProjectiles)
        (fun r => rfl) hcount
      rw [hknows] at hone
      intro h
      refine absurd (hone.1 ?_).1 Bool.noConfusion
      rw [← h]
      simp [robots_onRobot]

/-- What is parsed has the form, with perhaps more parts behind it. -/
theorem attackForm_iff :
    AttackForm data ↔ (∃ names, parseAttackInfo data = some names) ∧ (pySplit data ',').length ≤ 2 := by
  unfold AttackForm parseAttackInfo
  constructor
  · rintro ⟨shooter, target, hdata, ⟨model, name, hshooter⟩, scope, targetModel, link, htarget⟩
    rw [hdata]
    dsimp only
    rw [hshooter, htarget]
    exact ⟨⟨_, rfl⟩, le_rfl⟩
  · rintro ⟨⟨names, hnames⟩, hlen⟩
    split at hnames
    · rename_i shooter target rest hdata
      split at hnames
      · rename_i model name scope targetModel link collision hshooter htarget
        split at hnames
        · cases hnames
        · rename_i hcollision
          rw [ne_eq, not_not] at hcollision
          subst hcollision
          have hrest : rest = [] := by
            rw [hdata, List.length_cons, List.length_cons] at hlen
            exact List.length_eq_zero_iff.1 (by omega)
          rw [hrest] at hdata
          exact ⟨shooter, target, hdata, ⟨model, name, hshooter⟩, scope, targetModel, link, htarget⟩
      · cases hnames
    · cases hnames

/-- Where a callback returns, what counts is the robots that it leaves. -/
theorem harmless_iff_of_ok {form : String → Prop} {callback : System → String → Except PyException System} {t : System}
    (h : callback s data = .ok t) : Harmless callback form s data ↔ (¬ form data → t.robots = s.robots) := by
  refine ⟨fun hharmless hform => hharmless.unchanged hform _ h, fun hrobots => ⟨⟨t, h⟩, fun hform u hu => ?_⟩⟩
  rw [h, Except.ok.injEq] at hu
  rw [← hu]
  exact hrobots hform

theorem harmless_of_idle {form : String → Prop} {callback : System → String → Except PyException System}
    (h : callback s data = .ok s) : Harmless callback form s data := (harmless_iff_of_ok h).2 fun _ => rfl

theorem attackHarmless_iff : Harmless attackInfoCallbackAt AttackForm s data ↔
    s.gameOver = true ∨ (pySplit data ',').length ≤ 2 ∨
      ∀ shooter name target link, parseAttackInfo data = some (shooter, name, target, link) →
        s.knows shooter = false ∧
          (pyIn "armor" link = true → ∀ p ∈ s.robots, p.1 = target → p.2.updateHp (-10) = p.2) := by
  cases hover : s.gameOver with
  | true =>
    refine iff_of_true (harmless_of_idle ?_) (.inl rfl)
    rw [attackInfoCallbackAt_eq, attackInfoCallback, if_pos hover]
  | false =>
    rw [harmless_iff_of_ok (attackInfoCallbackAt_eq s data), attackForm_iff]
    cases hparse : parseAttackInfo data with
    | none =>
      have hsame : (attackInfoCallback s data).robots = s.robots := by
        rw [attackInfoCallback, if_neg (by rw [hover]; exact Bool.false_ne_true), hparse]
      exact iff_of_true (fun _ => hsame) (.inr (.inr fun _ _ _ _ h => nomatch h))
    | some names =>
      obtain ⟨shooter, name, target, link⟩ := names
      rw [robots_attackInfoCallback hover hparse]
      constructor
      · intro h
        by_cases hlen : (pySplit data ',').length ≤ 2
        · exact .inr (.inl hlen)
        · refine .inr (.inr fun shooter' name' target' link' heq => ?_)
          simp only [Option.some.injEq, Prod.mk.injEq] at heq
          obtain ⟨rfl, rfl, rfl, rfl⟩ := heq
          exact h fun hform => hlen hform.2
      · rintro (h | hlen | h) hform
        · cases h
        · exact absurd ⟨⟨_, rfl⟩, hlen⟩ hform
        · exact h _ _ _ _ rfl

variable {ascii : Char → Char} {round : ℚ → Fp}

/-- A string that `shoot_info_callback` returns on before it reads the number. -/
theorem shootInfoCallback_ignores {parseFloat : String → Option Fp} (h : ∀ shooterInfo vel rest model name,
    pySplit data ',' = shooterInfo :: vel :: rest → pySplit shooterInfo '/' ≠ [model, name]) :
    shootInfoCallback parseFloat s data = (s, none) := by
  unfold shootInfoCallback
  split
  · rfl
  · split
    · rename_i shooterInfo vel rest hdata
      split
      · rename_i model name hshooter
        exact absurd hshooter (h _ _ _ _ _ hdata)
      · rfl
    · rfl

/-- The shot of a shooter of two parts: `float` has to read it, and more is asked of that of a known one. -/
theorem shootHarmless_parsed (hover : s.gameOver = false) {shooterInfo vel model : String} {rest : List String}
    (hdata : pySplit data ',' = shooterInfo :: vel :: rest) (hshooter : pySplit shooterInfo '/' = [model, name]) :
    Harmless (shootInfoCallbackAt (pyFloat ascii round)) (ShootForm ascii) s data ↔
      (∃ text, readFloat ascii vel = some text) ∧
        (s.knows model = true → rest = [] ∧ ∃ value, readFloat ascii vel = some (.decimal value)) := by
  have hat := shootInfoCallbackAt_eq (pyFloat ascii round) s data
  have hform : ShootForm ascii data ↔ rest = [] ∧ ∃ value, readFloat ascii vel = some (.decimal value) := by
    constructor
    · rintro ⟨shooter, vel', hdata', -, hvalue⟩
      rw [hdata, List.cons.injEq, List.cons.injEq] at hdata'
      obtain ⟨-, rfl, hrest⟩ := hdata'
      exact ⟨hrest, hvalue⟩
    · rintro ⟨rfl, hvalue⟩
      exact ⟨shooterInfo, vel, hdata, ⟨model, name, hshooter⟩, hvalue⟩
  rw [← hform]
  cases hread : readFloat ascii vel with
  | none =>
    -- the number is read before the shooter is looked up
    have hraised : (shootInfoCallback (pyFloat ascii round) s data).2 = some .valueError := by
      simp [shootInfoCallback, hover, hdata, hshooter, pyFloat, hread]
    refine iff_of_false (fun h => ?_) fun h => nomatch h.1
    obtain ⟨t, ht⟩ := h.quiet
    rw [hat] at ht
    split at ht
    · rename_i heq
      rw [heq] at hraised
      cases hraised
    · cases ht
  | some text =>
    obtain ⟨hquiet, hrobots⟩ := robots_shootInfoCallback (pyFloat ascii round) hover hdata hshooter
      (congrArg (Option.map _) hread)
    have hok : shootInfoCallbackAt (pyFloat ascii round) s data =
        .ok (shootInfoCallback (pyFloat ascii round) s data).1 := by
      rw [hat]
      split
      · rename_i heq
        rw [heq]
      · rename_i heq
        rw [heq] at hquiet
        cases hquiet
    rw [harmless_iff_of_ok hok, hrobots, Bool.eq_false_iff]
    refine ⟨fun h => ⟨⟨text, rfl⟩, fun hknows => ?_⟩, fun h hno hknows => hno (h.2 hknows)⟩
    by_contra hno
    exact h hno hknows

theorem shootHarmless_iff : Harmless (shootInfoCallbackAt (pyFloat ascii round)) (ShootForm ascii) s data ↔
    s.gameOver = true ∨ ∀ shooterInfo vel rest model name, pySplit data ',' = shooterInfo :: vel :: rest →
      pySplit shooterInfo '/' = [model, name] → (∃ text, readFloat ascii vel = some text) ∧
        (s.knows model = true → rest = [] ∧ ∃ value, readFloat ascii vel = some (.decimal value)) := by
  have hat := shootInfoCallbackAt_eq (pyFloat ascii round) s data
  cases hover : s.gameOver with
  | true =>
    refine iff_of_true (harmless_of_idle ?_) (.inl rfl)
    rw [hat, shootInfoCallback, if_pos hover]
  | false =>
    simp only [Bool.false_eq_true, false_or]
    by_cases hshape : ∃ shooterInfo vel rest model name, pySplit data ',' = shooterInfo :: vel :: rest ∧
        pySplit shooterInfo '/' = [model, name]
    · obtain ⟨shooterInfo, vel, rest, model, name, hdata, hshooter⟩ := hshape
      rw [shootHarmless_parsed hover hdata hshooter]
      refine ⟨fun h shooterInfo' vel' rest' model' name' hdata' hshooter' => ?_, fun h => h _ _ _ _ _ hdata hshooter⟩
      rw [hdata, List.cons.injEq, List.cons.injEq] at hdata'
      obtain ⟨rfl, rfl, rfl⟩ := hdata'
      rw [hshooter, List.cons.injEq] at hshooter'
      exact hshooter'.1 ▸ h
    · have hignore : ∀ shooterInfo vel rest model name, pySplit data ',' = shooterInfo :: vel :: rest →
          pySplit shooterInfo '/' ≠ [model, name] :=
        fun shooterInfo vel rest model name hdata hshooter => hshape ⟨_, _, _, _, _, hdata, hshooter⟩
      rw [shootInfoCallback_ignores hignore] at hat
      refine iff_of_true (harmless_of_idle hat) fun shooterInfo vel rest model name hdata hshooter => ?_
      exact absurd hshooter (hignore _ _ _ _ _ hdata)

/-- **The strings that are harmless.**  An `attack_info`: one of at most two parts, or one that changes no robot.  A
`shoot_info`: one without a shooter's two parts, or with a number that `float` reads, and for a known shooter with nothing
but a decimal number behind the comma.  When the game is over, every string. -/
theorem harmless_iff (ascii : Char → Char) (round : ℚ → Fp) (s : System) (data : String) :
    (Harmless attackInfoCallbackAt AttackForm s data ↔
      s.gameOver = true ∨ (pySplit data ',').length ≤ 2 ∨
        ∀ shooter name target link, parseAttackInfo data = some (shooter, name, target, link) →
          s.knows shooter = false ∧
            (pyIn "armor" link = true → ∀ p ∈ s.robots, p.1 = target → p.2.updateHp (-10) = p.2)) ∧
    (Harmless (shootInfoCallbackAt (pyFloat ascii round)) (ShootForm ascii) s data ↔
      s.gameOver = true ∨ ∀ shooterInfo vel rest model name, pySplit data ',' = shooterInfo :: vel :: rest →
        pySplit shooterInfo '/' = [model, name] → (∃ text, readFloat ascii vel = some text) ∧
          (s.knows model = true → rest = [] ∧ ∃ value, readFloat ascii vel = some (.decimal value))) :=
  ⟨attackHarmless_iff, shootHarmless_iff⟩

/-- **A speed that is no number raises.** -/
theorem shoot_info_raises :
    shootInfoCallbackAt (pyFloat id Fp.fin) (.init ⟨500, 100, 200⟩) "red_standard_robot1/shooter,fast" =
        .error .valueError ∧
      ¬ Harmless (shootInfoCallbackAt (pyFloat id Fp.fin)) (ShootForm id) (.init ⟨500, 100, 200⟩)
        "red_standard_robot1/shooter,fast" := by
  have hraises : shootInfoCallbackAt (pyFloat id Fp.fin) (.init ⟨500, 100, 200⟩) "red_standard_robot1/shooter,fast" =
      .error .valueError := by decide +kernel
  refine ⟨hraises, fun h => ?_⟩
  obtain ⟨t, ht⟩ := h.quiet
  rw [hraises] at ht
  cases ht

example : pyFloat id Fp.fin " -1_0.25e1 " = some (.fin (-205 / 2)) := by decide +kernel

end Referee
end LfSentry
