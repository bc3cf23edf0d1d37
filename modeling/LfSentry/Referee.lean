import LfSentry.Runs
import LfSentry.Fp
import Mathlib.Data.List.Infix
import Mathlib.Data.Rat.Floor
/-!
# Referee — the simulator's referee (`simple_competition_1v1.py`)

The callbacks run one at a time.  A callback that raises ends the program: what it did before that stays done, and
nothing follows.  The clock is what `time.time()` answers, read as often as the callback reads it; the text of a number
is read by `parseFloat`.
-/
namespace LfSentry
namespace Referee

/-- `sub in s`. -/
def pyIn (sub s : String) : Bool := decide (sub.toList <:+: s.toList)

/-- `s.split(sep)`, for a separator of one character. -/
def pySplit (s : String) (sep : Char) : List String := (s.toList.splitOn sep).map String.ofList

/-- `x % y` of floats, for a positive `y`. -/
def pyMod (x y : ℚ) : ℚ := x - y * ⌊x / y⌋

inductive PyError where
  | assertionError
  | valueError
deriving DecidableEq

/-- The parts of `attack_info` that the referee uses: shooter model and name, target model and link. -/
def parseAttackInfo (attackStr : String) : Option (String × String × String × String) :=
  match pySplit attackStr ',' with
  | shooterInfo :: targetInfo :: _ =>
    match pySplit shooterInfo '/', pySplit targetInfo '/' with
    | [shooterModelName, shooterName], [_, targetModelName, targetLinkName, targetCollisionName] =>
      if targetCollisionName ≠ "target_collision" then none
      else some (shooterModelName, shooterName, targetModelName, targetLinkName)
    | _, _ => none
  | _ => none

/-! ## `GameTimer` -/

structure GameTimer where
  startTime : Option ℚ
  elapsedTime : ℚ
  running : Bool
  /-- A running timer has been started. -/
  started : running = true → startTime.isSome = true
deriving DecidableEq

namespace GameTimer

def init : GameTimer := ⟨none, 0, false, fun h => nomatch h⟩

def start (t : GameTimer) (now : ℚ) : GameTimer :=
  if t.running then t else ⟨some (now - t.elapsedTime), t.elapsedTime, true, fun _ => rfl⟩

/-- The running time, or what had elapsed at the last stop. -/
def getTime (t : GameTimer) (now : ℚ) : ℚ :=
  if h : t.running = true then now - t.startTime.get (t.started h) else t.elapsedTime

def stop (t : GameTimer) (now : ℚ) : GameTimer :=
  if t.running then ⟨t.startTime, t.getTime now, false, fun h => nomatch h⟩ else t

def reset (_ : GameTimer) : GameTimer := init

end GameTimer

/-! ## `StandardRobot` -/

structure Transform where
  translation : ℚ × ℚ × ℚ
  rotation : ℚ × ℚ × ℚ × ℚ
deriving DecidableEq

structure Params where
  maxHp : Int
  initialProjectiles : Int
  initialResources : Int
deriving DecidableEq

structure StandardRobot where
  initialTf : Option Transform
  tf : Option Transform
  maxHp : Int
  totalProjectiles : Int
  remainHp : Int
  usedProjectiles : Int
  hitProjectiles : Int
  survive : Bool
deriving DecidableEq

namespace StandardRobot

def resetData (params : Params) (r : StandardRobot) : StandardRobot :=
  { r with maxHp := params.maxHp, totalProjectiles := params.initialProjectiles, remainHp := params.maxHp,
           usedProjectiles := 0, hitProjectiles := 0, survive := true }

def init (params : Params) : StandardRobot := resetData params ⟨none, none, 0, 0, 0, 0, 0, true⟩

def updateHp (r : StandardRobot) (hp : Int) : StandardRobot :=
  let remainHp := r.remainHp + hp
  let remainHp := if remainHp < 0 then 0 else remainHp
  { r with remainHp := if remainHp > r.maxHp then r.maxHp else remainHp }

def updateTf (r : StandardRobot) (tf : Transform) : StandardRobot :=
  { r with tf := some tf, initialTf := r.initialTf.or (some tf) }

def supplyProjectile (r : StandardRobot) (num : Int) : StandardRobot :=
  { r with totalProjectiles := r.totalProjectiles + num }

def consumeProjectile (r : StandardRobot) : StandardRobot := { r with usedProjectiles := r.usedProjectiles + 1 }

def recordHit (r : StandardRobot) : StandardRobot := { r with hitProjectiles := r.hitProjectiles + 1 }

end StandardRobot

/-! ## `SimpleRefereeSystem` -/

inductive Event where
  | response (success : Bool) (message : String)
  | enablePower (robot : String) (enable : Bool)
  | enableControl (robot : String) (enable : Bool)
  | setPose (childFrameId : String) (transform : Transform)
  | robotStatus (robot : String) (maxHp remainHp totalProjectiles usedProjectiles hitProjectiles : Int)
      (gtTf : Option Transform)
  | raised (e : PyError)
deriving DecidableEq

structure System where
  params : Params
  lastTime : Option ℚ
  timer : GameTimer
  /-- The dictionary, in the order of insertion. -/
  robots : List (String × StandardRobot)
  gameOver : Bool
  redResources : Int
  blueResources : Int
  /-- A callback has raised. -/
  dead : Bool
deriving DecidableEq

def System.init (params : Params) : System where
  params := params
  lastTime := none
  timer := GameTimer.init
  robots := [("red_standard_robot1", .init params), ("blue_standard_robot1", .init params)]
  gameOver := false
  redResources := params.initialResources
  blueResources := params.initialResources
  dead := false

/-- `f(self.robots[name])`, where there is one. -/
def System.onRobot (s : System) (name : String) (f : StandardRobot → StandardRobot) : System :=
  { s with robots := s.robots.map fun p => if p.1 = name then (p.1, f p.2) else p }

def System.knows (s : System) (name : String) : Bool := (s.robots.map Prod.fst).contains name

def System.enablePowers (s : System) (enable : Bool) : List Event := s.robots.map fun p => .enablePower p.1 enable

def handleExchangeAmmo (s : System) (robotName : String) (ammoAmount : Int) : System × List Event :=
  let serve (resources : Int) : System × List Event :=
    if ammoAmount > 0 ∧ ammoAmount ≤ resources then
      -- the deduction is made on the local variable
      let _resources := resources - ammoAmount
      let s := if s.knows robotName then s.onRobot robotName (·.supplyProjectile ammoAmount) else s
      (s, [.response true "Ammo exchanged successfully"])
    else (s, [.response false ("Not enough resources, resources left: " ++ toString resources)])
  if pyIn "red" robotName then serve s.redResources
  else if pyIn "blue" robotName then serve s.blueResources
  else (s, [.response false "Invalid robot name"])

def attackInfoCallback (s : System) (data : String) : System :=
  if s.gameOver then s
  else
    match parseAttackInfo data with
    | none => s
    | some (shooterModelName, _, targetModelName, targetLinkName) =>
      let s :=
        if pyIn "armor" targetLinkName && s.knows targetModelName then s.onRobot targetModelName (·.updateHp (-10))
        else s
      if s.knows shooterModelName then s.onRobot shooterModelName (·.recordHit) else s

def shootInfoCallback (parseFloat : String → Option Fp) (s : System) (data : String) : System × Option PyError :=
  if s.gameOver then (s, none)
  else
    match pySplit data ',' with
    | shooterInfo :: velInfo :: _ =>
      match pySplit shooterInfo '/' with
      | [shooterModelName, _] =>
        match parseFloat velInfo with
        | none => (s, some .valueError)
        | some vel =>
          if !s.knows shooterModelName then (s, none)
          else
            let s := s.onRobot shooterModelName (·.consumeProjectile)
            if Fp.lt (.fin 30) vel then (s.onRobot shooterModelName (·.updateHp (-10)), none) else (s, none)
      | _ => (s, none)
    | _ => (s, none)

def poseInfoCallback (s : System) (transforms : List (String × Transform)) : System :=
  transforms.foldl (fun s p => if s.knows p.1 then s.onRobot p.1 (·.updateTf p.2) else s) s

/-- The award of `timer_cb`; the three readings of the clock are of the two comparisons and of `last_time`. -/
def award (s : System) (now₁ now₂ now₃ : ℚ) : System :=
  if pyMod (s.timer.getTime now₁) 30 < 1 / 2 ∧ s.timer.getTime now₂ > 29 then
    { s with lastTime := some (s.timer.getTime now₃), redResources := s.redResources + 50,
             blueResources := s.blueResources + 50 }
  else s

def checkSurvive (s : System) : System × List Event :=
  let dies (r : StandardRobot) : Bool := r.survive && r.remainHp == 0
  ({ s with robots := s.robots.map fun p => if dies p.2 then (p.1, { p.2 with survive := false }) else p },
    (s.robots.filter fun p => dies p.2).map fun p => .enablePower p.1 false)

def sideSurvives (s : System) (side : String) : Bool := s.robots.any fun p => pyIn side p.1 && p.2.survive

def publishStatus (p : String × StandardRobot) : Event :=
  .robotStatus p.1 p.2.maxHp p.2.remainHp p.2.totalProjectiles p.2.usedProjectiles p.2.hitProjectiles p.2.tf

def timerCb (s : System) (now₁ now₂ now₃ : ℚ) : System × List Event :=
  if s.gameOver then (s, [])
  else
    let (s, es) := checkSurvive (award s now₁ now₂ now₃)
    let s := if !sideSurvives s "red" || !sideSurvives s "blue" then { s with gameOver := true } else s
    (s, es ++ s.robots.map publishStatus)

/-! ### Commands -/

namespace RefereeCmd

def preparation : Nat := 0
def selfChecking : Nat := 1
def startGame : Nat := 2
def stopGame : Nat := 3
def killRobot : Nat := 4
def reviveRobot : Nat := 5

end RefereeCmd

/-- The loop that puts the robots back; it stops at a robot without an initial pose. -/
def resetPoses : List (String × StandardRobot) → List Event × Option PyError
  | [] => ([], none)
  | (name, r) :: rs =>
    match r.initialTf with
    | none => ([], some .assertionError)
    | some tf => let (es, e) := resetPoses rs; (.setPose name tf :: es, e)

def refereeCmdCallback (s : System) (cmd : Nat) (robotName : String) (now : ℚ) : System × List Event × Option PyError :=
  if cmd = RefereeCmd.preparation then
    let s := { s with gameOver := true }
    let (es, e) := resetPoses s.robots
    let powered := if e.isNone then s.enablePowers true else []
    (s, s.enablePowers false ++ es ++ powered, e)
  else if cmd = RefereeCmd.selfChecking then
    let s := { s with gameOver := false, redResources := s.params.initialResources,
                      blueResources := s.params.initialResources,
                      robots := s.robots.map fun p => (p.1, p.2.resetData s.params), timer := s.timer.reset }
    (s, s.robots.flatMap fun p => [.enablePower p.1 true, .enableControl p.1 false], none)
  else if cmd = RefereeCmd.startGame then
    ({ s with gameOver := false, timer := s.timer.start now },
      s.robots.flatMap fun p => [.enablePower p.1 true, .enableControl p.1 true], none)
  else if cmd = RefereeCmd.stopGame then
    ({ s with gameOver := true, timer := s.timer.stop now }, s.enablePowers false, none)
  else if cmd = RefereeCmd.killRobot then
    if s.knows robotName then
      (s.onRobot robotName fun r => { r with remainHp := 0, survive := false }, [.enablePower robotName false], none)
    else (s, [], none)
  else if cmd = RefereeCmd.reviveRobot then
    if s.knows robotName then
      (s.onRobot robotName fun r => { r with remainHp := r.maxHp, survive := true }, [.enablePower robotName true], none)
    else (s, [], none)
  else (s, [], none)

/-! ### The executor -/

inductive Input where
  | exchange (robotName : String) (ammoAmount : Int)
  | attackInfo (data : String)
  | shootInfo (data : String)
  | poseInfo (transforms : List (String × Transform))
  | timer (now₁ now₂ now₃ : ℚ)
  | cmd (cmd : Nat) (robotName : String) (now : ℚ)
deriving DecidableEq

/-- What a callback raises ends the program. -/
def settle (s : System) (es : List Event) : Option PyError → System × List Event
  | none => (s, es)
  | some e => ({ s with dead := true }, es ++ [.raised e])

def callback (parseFloat : String → Option Fp) (s : System) : Input → System × List Event
  | .exchange robotName ammoAmount => handleExchangeAmmo s robotName ammoAmount
  | .attackInfo data => (attackInfoCallback s data, [])
  | .shootInfo data => let (s, e) := shootInfoCallback parseFloat s data; settle s [] e
  | .poseInfo transforms => (poseInfoCallback s transforms, [])
  | .timer now₁ now₂ now₃ => timerCb s now₁ now₂ now₃
  | .cmd cmd robotName now => let (s, es, e) := refereeCmdCallback s cmd robotName now; settle s es e

/-- The referee; after a callback has raised nothing more is called. -/
def referee (parseFloat : String → Option Fp) : Machine System Input Event :=
  ⟨fun s i => if s.dead then none else some (callback parseFloat s i)⟩

end Referee
end LfSentry
