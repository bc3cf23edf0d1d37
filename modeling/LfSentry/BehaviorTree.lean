import LfSentry.OmniPidPursuit
/-!
# BehaviorTree — what the plugins of `pb2025_sentry_behavior` share

A node is ticked and answers with a status; its state is what it keeps between ticks.  The framework (BehaviorTree.CPP),
ROS and tf2 are not part of the repository: what a node asks of them is a parameter or an input of its tick.
-/
namespace LfSentry
namespace Behavior

open Vision (Libm deltaTime)

/-- `BT::NodeStatus` -/
inductive NodeStatus
  | idle | running | success | failure | skipped
  deriving DecidableEq, Repr

/-- `isStatusCompleted` -/
def NodeStatus.completed : NodeStatus → Bool
  | .success | .failure => true
  | _ => false

variable {K : Type} [Field K] [LinearOrder K] (lib : Libm K)

/-- `tf2::Quaternion::setRPY(0, 0, yaw)` -/
def yawQuaternion (yaw : K) : Pursuit.Quaternion K := ⟨0, 0, lib.sin (yaw / 2.0), lib.cos (yaw / 2.0)⟩

/-- The later of two times is the less long ago. -/
theorem deltaTime_anti [IsStrictOrderedRing K] {now s t : Int} (h : s ≤ t) :
    (deltaTime now t : K) ≤ deltaTime now s := by
  have hcast : ((now - t : Int) : K) ≤ ((now - s : Int) : K) := by exact_mod_cast sub_le_sub_left h now
  exact div_le_div_of_nonneg_right hcast (by positivity)

end Behavior
end LfSentry
