import Mathlib.Data.List.Basic
/-!
# Command — what the vision asks of the gimbal (`sp_vision_25/io/command.hpp`)

A command with `control` set is aimed at a point.  Angles are aimed at among commands if an aimed one has them; the
programs are to steer only to such angles.
-/
namespace LfSentry
namespace Vision

/-- `io::Command`, over the numbers it carries. -/
structure Command (K : Type) where
  control : Bool
  shoot : Bool
  yaw : K
  pitch : K
  horizonDistance : K
  deriving DecidableEq, Repr

def Command.none (K : Type) [OfNat K 0] : Command K := ⟨false, false, 0, 0, 0⟩

variable {K : Type}

/-- Some command among `cs` is aimed and has these angles. -/
def AimedAt (cs : List (Command K)) (yaw pitch : K) : Prop :=
  ∃ c ∈ cs, c.control = true ∧ c.yaw = yaw ∧ c.pitch = pitch

variable {cs : List (Command K)} {yaw pitch : K}

theorem AimedAt.cons (h : AimedAt cs yaw pitch) (c : Command K) : AimedAt (c :: cs) yaw pitch := by
  obtain ⟨d, hd, haimed⟩ := h
  exact ⟨d, List.mem_cons_of_mem c hd, haimed⟩

end Vision
end LfSentry
