import LfSentry.BitFields
/-!
# SentryCmd — the sentry's autonomous commands (`standard_robot_pp_ros2`, `pb2025_sentry_behavior`)

The message `SentryCmd`, the word `cmdSentryCallback` packs it into, and the two behaviour-tree nodes that publish it:
`SetSentryCmd`, whose command is its ports, and `ExchangeProjectileOnce`, which asks for one exchange a visit to the
supply zone.  A port read is `none` where `getInput` fails; the local variable then keeps its own default.
-/
namespace LfSentry
namespace Sentry

structure SentryCmd where
  confirmRespawn : Bool
  confirmPayRespawn : Bool
  projectileAllowanceToExchange : BitVec 16
  remoteProjectileRequestCount : BitVec 8
  remoteHpRequestCount : BitVec 8
  postureCommand : BitVec 8
  activateRune : Bool
  deriving DecidableEq, Repr

/-- `cmdSentryCallback`: the word of a command. -/
def cmdSentryCallback (msg : SentryCmd) : BitVec 32 :=
  let cmd := 0#32
  let confirmRespawn := (BitVec.ofBool msg.confirmRespawn).setWidth 32
  let cmd := cmd ||| (confirmRespawn &&& 0x1#32) <<< 0
  let confirmPayRespawn := (BitVec.ofBool msg.confirmPayRespawn).setWidth 32
  let cmd := cmd ||| (confirmPayRespawn &&& 0x1#32) <<< 1
  let projectileAllowance := msg.projectileAllowanceToExchange.setWidth 32
  let cmd := cmd ||| (projectileAllowance &&& 0x7FF#32) <<< 2
  let remoteProjectileReqCount := msg.remoteProjectileRequestCount.setWidth 32
  let cmd := cmd ||| (remoteProjectileReqCount &&& 0x0F#32) <<< 13
  let remoteHpReqCount := msg.remoteHpRequestCount.setWidth 32
  let cmd := cmd ||| (remoteHpReqCount &&& 0x0F#32) <<< 17
  let postureCommand := msg.postureCommand.setWidth 32
  -- any other posture falls back to the moving one
  let postureCommand := if postureCommand < 1#32 ∨ postureCommand > 3#32 then 3#32 else postureCommand
  let cmd := cmd ||| (postureCommand &&& 0x03#32) <<< 21
  let activateRune := (BitVec.ofBool msg.activateRune).setWidth 32
  cmd ||| (activateRune &&& 0x1#32) <<< 23

/-! ## The cumulative counters -/

/-- The allowance to exchange and the two counts of remote requests, each to grow only. -/
abbrev Counters : Type := Nat × Nat × Nat

open BitFields in
theorem cmdSentryCallback_eq (msg : SentryCmd) : cmdSentryCallback msg =
    field ((BitVec.ofBool msg.confirmRespawn).setWidth 32) 1 0 |||
      field ((BitVec.ofBool msg.confirmPayRespawn).setWidth 32) 1 1 |||
      field (msg.projectileAllowanceToExchange.setWidth 32) 11 2 |||
      field (msg.remoteProjectileRequestCount.setWidth 32) 4 13 |||
      field (msg.remoteHpRequestCount.setWidth 32) 4 17 |||
      field (if msg.postureCommand.setWidth 32 < 1#32 ∨ msg.postureCommand.setWidth 32 > 3#32 then 3#32
        else msg.postureCommand.setWidth 32) 2 21 |||
      field ((BitVec.ofBool msg.activateRune).setWidth 32) 1 23 := by
  simp only [cmdSentryCallback, BitVec.zero_or]
  rfl

structure SetPorts where
  confirmRespawn : Option Bool
  confirmPayRespawn : Option Bool
  projectileAllowanceToExchange : Option Int
  remoteProjectileRequestCount : Option Int
  remoteHpRequestCount : Option Int
  postureCommand : Option Int
  activateRune : Option Bool
  deriving DecidableEq, Repr

def setMessage (ports : SetPorts) : SentryCmd where
  confirmRespawn := ports.confirmRespawn.getD false
  confirmPayRespawn := ports.confirmPayRespawn.getD false
  projectileAllowanceToExchange := BitVec.ofInt 16 (max 0 (ports.projectileAllowanceToExchange.getD 0))
  remoteProjectileRequestCount := BitVec.ofInt 8 (max 0 (ports.remoteProjectileRequestCount.getD 0))
  remoteHpRequestCount := BitVec.ofInt 8 (max 0 (ports.remoteHpRequestCount.getD 0))
  postureCommand := BitVec.ofInt 8 (max 0 (ports.postureCommand.getD 0))
  activateRune := ports.activateRune.getD false

/-! ## ExchangeProjectileOnce -/

/-- `BT::NodeStatus`, as far as an action returns it here. -/
inductive NodeStatus
  | success
  | failure
  deriving DecidableEq, Repr

/-- What the node reads of `RfidStatus`. -/
structure RfidStatus where
  friendlySupplyZoneExchange : Bool
  friendlySupplyZoneNonExchange : Bool
  deriving DecidableEq, Repr

/-- What the node reads of `RobotStatus`. -/
structure RobotStatus where
  projectileAllowance17mm : BitVec 16
  remainingGoldCoin : BitVec 16
  deriving DecidableEq, Repr

structure ExchangePorts where
  rfidKeyPort : Option RfidStatus
  robotStatusKeyPort : Option RobotStatus
  friendlySupplyZoneExchange : Option Bool
  friendlySupplyZoneNonExchange : Option Bool
  ammoThreshold : Option Int
  minGold : Option Int
  baseExchange : Option Int
  incrementStep : Option Int
  maxExchange : Option Int
  deriving DecidableEq, Repr

def isInSupplyZone (ports : ExchangePorts) (rfidMsg : RfidStatus) : Bool :=
  let useExchange := ports.friendlySupplyZoneExchange.getD true
  let useNonExchange := ports.friendlySupplyZoneNonExchange.getD true
  let inExchangeZone := useExchange && rfidMsg.friendlySupplyZoneExchange
  let inNonExchangeZone := useNonExchange && rfidMsg.friendlySupplyZoneNonExchange
  inExchangeZone || inNonExchangeZone

/-- The command of `publishExchangeCommand`. -/
def exchangeCommand (exchangeAmount : Int) : SentryCmd where
  confirmRespawn := false
  confirmPayRespawn := false
  projectileAllowanceToExchange := BitVec.ofInt 16 (max 0 exchangeAmount)
  remoteProjectileRequestCount := 0
  remoteHpRequestCount := 0
  postureCommand := 0
  activateRune := false

structure ExchangeProjectileOnce where
  exchangedThisVisit : Bool
  wasInSupplyZone : Bool
  exchangeIndex : Int
  lastExchangeAmount : Int
  deriving DecidableEq, Repr

def ExchangeProjectileOnce.init : ExchangeProjectileOnce := ⟨false, false, 0, 0⟩

/-- `std::clamp(v, 0, hi)`. -/
def clamp (v hi : Int) : Int := min (max v 0) hi

/-- `ExchangeProjectileOnceAction::tick`: the state after it, its status and the command it publishes. -/
def ExchangeProjectileOnce.tick (n : ExchangeProjectileOnce) (ports : ExchangePorts) :
    ExchangeProjectileOnce × NodeStatus × Option SentryCmd :=
  match ports.rfidKeyPort with
  | none => (n, .failure, none)
  | some rfidMsg =>
    match ports.robotStatusKeyPort with
    | none => (n, .failure, none)
    | some robotStatusMsg =>
      if !isInSupplyZone ports rfidMsg then
        ({ n with wasInSupplyZone := false, exchangedThisVisit := false }, .failure, none)
      else
        let n := { n with wasInSupplyZone := true }
        if robotStatusMsg.projectileAllowance17mm.toNat ≥ ports.ammoThreshold.getD 50 then (n, .failure, none)
        else if robotStatusMsg.remainingGoldCoin.toNat < ports.minGold.getD 150 then (n, .failure, none)
        else
          let n :=
            if !n.exchangedThisVisit then
              let exchangeAmount := ports.baseExchange.getD 150 + n.exchangeIndex * ports.incrementStep.getD 150
              let exchangeAmount := clamp exchangeAmount (ports.maxExchange.getD 500)
              { n with
                lastExchangeAmount := exchangeAmount
                exchangedThisVisit := true
                exchangeIndex := n.exchangeIndex + 1 }
            else n
          (n, .success, some (exchangeCommand n.lastExchangeAmount))

end Sentry
end LfSentry
