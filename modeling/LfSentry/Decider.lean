import LfSentry.Tracker
import LfSentry.Turns
import Mathlib.Data.List.MinMax
/-!
# Decider — which omnidirectional detection to turn to (`sp_vision_25/tasks/omniperception`)

A camera's detection carries the angles to its first armor; of what is detected the enemy's armors are kept and sorted by
priority, then the detections by their first armor's, and the first one is turned to.  `decider.cpp`, `perceptron.cpp`.
-/
namespace LfSentry
namespace Vision

variable {K : Type} [Field K]

/-! ## Angles -/

/-- The cameras that `delta_angle` knows. -/
inductive Mount
  | left | right | front | back | other
  deriving DecidableEq, Repr

def mountOf (camera : String) : Mount :=
  if camera = "left" then .left
  else if camera = "right" then .right
  else if camera = "front" ∨ camera = "FRONT" then .front
  else if camera = "back" ∨ camera = "BACK" then .back
  else .other

structure Decider (K : Type) where
  newFovH : K
  newFovV : K
  mode : Int
  enemyColor : Color

/-- `delta_angle`, of a list by its front armor: the angles to it in degrees. -/
def Decider.deltaAngle (d : Decider K) (front : Armor K) (camera : String) : K × K :=
  match mountOf camera with
  | .left => (62.0 + d.newFovH / 2.0 - front.centerNorm.1 * d.newFovH, front.centerNorm.2 * d.newFovV - d.newFovV / 2.0)
  | .right => (-62.0 + d.newFovH / 2.0 - front.centerNorm.1 * d.newFovH, front.centerNorm.2 * d.newFovV - d.newFovV / 2.0)
  | .front => (d.newFovH / 2.0 - front.centerNorm.1 * d.newFovH, front.centerNorm.2 * d.newFovV - d.newFovV / 2.0)
  | .back => (180.0 + d.newFovH / 2.0 - front.centerNorm.1 * d.newFovH, front.centerNorm.2 * d.newFovV - d.newFovV / 2.0)
  | .other => (170.0 + 54.2 / 2.0 - front.centerNorm.1 * 54.2, front.centerNorm.2 * 44.5 - 44.5 / 2.0)

/-- The fields of view by which a camera's angles are reckoned. -/
def Decider.fov (d : Decider K) (camera : String) : K × K :=
  if mountOf camera = .other then (54.2, 44.5) else (d.newFovH, d.newFovV)

/-- **The angles to two armors differ by the distance of their centres.** -/
theorem deltaAngle_sub (d : Decider K) (a b : Armor K) (camera : String) :
    (d.deltaAngle b camera).1 = (d.deltaAngle a camera).1 +
        (a.centerNorm.1 * (d.fov camera).1 - b.centerNorm.1 * (d.fov camera).1) ∧
      (d.deltaAngle b camera).2 = (d.deltaAngle a camera).2 -
        (a.centerNorm.2 * (d.fov camera).2 - b.centerNorm.2 * (d.fov camera).2) := by
  unfold Decider.deltaAngle Decider.fov
  cases mountOf camera <;> constructor <;> simp

/-! ## Priorities -/

def mode1 : ArmorName → ArmorPriority
  | .one => .second
  | .two => .forth
  | .three | .four => .first
  | .five | .sentry => .third
  | .outpost | .base | .notArmor => .fifth

def mode2 : ArmorName → ArmorPriority
  | .two => .first
  | .one | .three | .four | .five => .second
  | .sentry | .outpost | .base | .notArmor => .third

def modeOne : Int := 1

def Decider.priorityMap (d : Decider K) : ArmorName → ArmorPriority := if d.mode = modeOne then mode1 else mode2

/-- Armors of the enemy that are not a 5; there is no 5 this season. -/
def Decider.armorFilter (d : Decider K) (armors : List (Armor K)) : List (Armor K) :=
  (armors.filter fun a => a.color = d.enemyColor).filter fun a => a.name ≠ .five

def Decider.prioritised (d : Decider K) (a : Armor K) : Armor K := { a with priority := d.priorityMap a.name }

def Decider.setPriority (d : Decider K) (armors : List (Armor K)) : List (Armor K) := armors.map d.prioritised

def byPriority (armors : List (Armor K)) : List (Armor K) := armors.insertionSort fun a b => ¬ b.priority < a.priority

def Decider.sorted (d : Decider K) (dr : DetectionResult K) : DetectionResult K :=
  { dr with armors := byPriority (d.setPriority (d.armorFilter dr.armors)) }

/-- The detections by the priority of their first armors.  `std::sort` leaves equals in any order, and compares nothing that
is defined if a detection has no armors left. -/
structure ByFront (queue queue' : List (DetectionResult K)) : Prop where
  perm : queue'.Perm queue
  ordered : (∀ dr ∈ queue, dr.armors ≠ []) →
    queue'.Pairwise fun a b => ∀ x ∈ a.armors.head?, ∀ y ∈ b.armors.head?, ¬ y.priority < x.priority

def Decider.Sorts (d : Decider K) (queue queue' : List (DetectionResult K)) : Prop :=
  ByFront (queue.map d.sorted) queue'

def decideQueue (queue : List (DetectionResult K)) : Command K :=
  match queue with
  | [] => Command.none K
  | dr :: _ => if dr.armors = [] then Command.none K else ⟨true, false, dr.deltaYaw, dr.deltaPitch, 0⟩

/-! ## Detections -/

/-- What one camera's network finds in an image. -/
structure View (K : Type) where
  camera : String
  armors : List (Armor K)
  timestamp : Int

/-- The detection made of a view; `turn` is what is done to its angles in radians. -/
def Decider.detect (d : Decider K) (turn : K → K) (v : View K) : Option (DetectionResult K) :=
  match v.armors with
  | [] => none
  | front :: _ =>
    let deltaAngle := d.deltaAngle front v.camera
    some ⟨v.armors, v.timestamp, turn (deltaAngle.1 / 57.3), turn (deltaAngle.2 / 57.3)⟩

/-- `Perceptron::parallel_infer`, for one image. -/
def Decider.parallelInfer (d : Decider K) (v : View K) : Option (DetectionResult K) := d.detect id v

end Vision
end LfSentry
