import Mathlib.Logic.Function.Basic
import LfSentry.Runs
import LfSentry.Delivery
import LfSentry.SentryCmd
/-!
# SentryBus — the behaviour tree, the topic `sentry_cmd` and the register of the next frame

Any number of `SetSentryCmd` and `ExchangeProjectileOnce` nodes tick in any order; each publishes for itself, and the
node of the serial link takes the oldest command of some publisher at a time and overwrites its register with the word.
The counters of the register are to grow only.  For the ticks of a run they do, under every order of delivery, iff the
counters asked for grow in the order of the ticks and no two nodes ask for different ones (`countersGrow_iff`).
-/
namespace LfSentry
namespace Sentry

open Delivery

/-- A publisher on `sentry_cmd`. -/
inductive Node
  | setSentryCmd (i : Nat)
  | exchangeProjectileOnce (j : Nat)
  deriving DecidableEq, Repr

inductive Tick
  | setSentryCmd (i : Nat) (ports : SetPorts)
  | exchangeProjectileOnce (j : Nat) (ports : ExchangePorts)
  deriving DecidableEq, Repr

abbrev Exchanges : Type := Nat → ExchangeProjectileOnce

/-- The tick of a node among the others: their states after it and what is published. -/
def Tick.serve (nodes : Exchanges) : Tick → Exchanges × List (Node × SentryCmd)
  | .setSentryCmd i ports => (nodes, [(.setSentryCmd i, setMessage ports)])
  | .exchangeProjectileOnce j ports =>
    let r := (nodes j).tick ports
    (Function.update nodes j r.1, (r.2.2.map fun cmd => (Node.exchangeProjectileOnce j, cmd)).toList)

/-- The commands on their way, and the word that goes into the next frame. -/
structure Bus where
  nodes : Exchanges
  inFlight : List (Node × SentryCmd)
  sentryCmd : BitVec 32

def Bus.init : Bus := ⟨fun _ => .init, [], 0⟩

inductive Label
  | tick (t : Tick)
  | deliver (w : Node)
  deriving DecidableEq, Repr

/-- The system; it says the new value of the register. -/
def bus : Machine Bus Label (BitVec 32) where
  step s
    | .tick t =>
      let r := t.serve s.nodes
      some ({ s with nodes := r.1, inFlight := s.inFlight ++ r.2 }, [])
    | .deliver w => (takeFrom w s.inFlight).map fun r =>
      ({ s with inFlight := r.2, sentryCmd := cmdSentryCallback r.1 }, [cmdSentryCallback r.1])

def published : Exchanges → List Tick → List (Node × SentryCmd)
  | _, [] => []
  | nodes, t :: ts => (t.serve nodes).2 ++ published (t.serve nodes).1 ts

/-- The tick of `ExchangeProjectileOnce` publishes. -/
def ExchangePorts.publishes (ports : ExchangePorts) : Bool :=
  match ports.rfidKeyPort, ports.robotStatusKeyPort with
  | some rfidMsg, some robotStatusMsg =>
    isInSupplyZone ports rfidMsg && decide (robotStatusMsg.projectileAllowance17mm.toNat < ports.ammoThreshold.getD 50) &&
      decide (ports.minGold.getD 150 ≤ robotStatusMsg.remainingGoldCoin.toNat)
  | _, _ => false

/-- The amount it then asks for: the one of this visit, or the next one. -/
def ExchangeProjectileOnce.amount (n : ExchangeProjectileOnce) (ports : ExchangePorts) : Int :=
  if n.exchangedThisVisit then n.lastExchangeAmount
  else clamp (ports.baseExchange.getD 150 + n.exchangeIndex * ports.incrementStep.getD 150) (ports.maxExchange.getD 500)

def Tick.asks (nodes : Exchanges) : Tick → List (Node × Counters)
  | .setSentryCmd i ports =>
    [(.setSentryCmd i, (ports.projectileAllowanceToExchange.getD 0).toNat % 2 ^ 11,
      (ports.remoteProjectileRequestCount.getD 0).toNat % 2 ^ 4, (ports.remoteHpRequestCount.getD 0).toNat % 2 ^ 4)]
  | .exchangeProjectileOnce j ports =>
    if ports.publishes then [(.exchangeProjectileOnce j, ((nodes j).amount ports).toNat % 2 ^ 11, 0, 0)] else []

def asked : Exchanges → List Tick → List (Node × Counters)
  | _, [] => []
  | nodes, t :: ts => t.asks nodes ++ asked (t.serve nodes).1 ts

theorem run_ticks : ∀ (ts : List Tick) (s : Bus), ∃ nodes, bus.run s (ts.map .tick) =
    some ({ s with nodes := nodes, inFlight := s.inFlight ++ published s.nodes ts }, [])
  | [], s => ⟨s.nodes, by simp [published]⟩
  | t :: ts, s => by
    obtain ⟨nodes, hrun⟩ := run_ticks ts
      { s with nodes := (t.serve s.nodes).1, inFlight := s.inFlight ++ (t.serve s.nodes).2 }
    refine ⟨nodes, Machine.run_cons.2 ⟨_, _, _, rfl, hrun.trans ?_, rfl⟩⟩
    rw [published, List.append_assoc]

end Sentry
end LfSentry
