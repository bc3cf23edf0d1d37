import Mathlib.Analysis.Real.Pi.Bounds
import LfSentry.DualArbiter
import LfSentry.Shooter
/-!
# CBoard — commands and measurements on the CAN bus (`sp_vision_25/io/cboard.cpp`)

A frame carries eight bytes; a number is sent as ten thousandths in a big-endian `int16_t`.  An angle fits, a distance only
below 3.2768 metres (`arrives_iff`): the conversion to `int16_t` of more than that is not defined, and whatever it gives is
too small.  Of the frames received every quaternion pushed can be normalized (`CBoard.pushed_normalizable`).
-/
namespace LfSentry
namespace Vision

variable {K : Type} [Field K] [LinearOrder K] [FloorRing K]

/-! ## Bytes -/

/-- A conversion to `int16_t`; `other` is what the machine makes of numbers that do not fit. -/
def toInt16 (other : K → BitVec 16) (x : K) : BitVec 16 :=
  if -32768 ≤ toInt x ∧ toInt x ≤ 32767 then BitVec.ofInt 16 (toInt x) else other x

/-- `(int16_t)v >> 8`, stored in a byte. -/
def highByte (v : BitVec 16) : BitVec 8 := ((v.signExtend 32).sshiftRight 8).setWidth 8

def lowByte (v : BitVec 16) : BitVec 8 := v.setWidth 8

/-- `(int16_t)(hi << 8 | lo)` -/
def bigEndian (hi lo : BitVec 8) : BitVec 16 := (hi.setWidth 32 <<< 8 ||| lo.setWidth 32).setWidth 16

theorem bigEndian_highByte_lowByte (v : BitVec 16) : bigEndian (highByte v) (lowByte v) = v := by
  unfold bigEndian highByte lowByte
  apply BitVec.eq_of_getLsbD_eq
  intro i hi
  by_cases h8 : i < 8
  · simp [hi, h8]
  · have hlow : i - 8 < 8 := by omega
    have hhigh : i - 8 < 32 := by omega
    have hback : 8 + (i - 8) = i := by omega
    have hwide : i < 32 := by omega
    simp [hi, h8, hlow, hhigh, hback, hwide, BitVec.getElem_sshiftRight, BitVec.getElem_signExtend]

/-! ## Frames -/

structure CanFrame where
  canId : Int
  canDlc : Nat
  data : Fin 8 → BitVec 8

structure CBoard (K : Type) where
  bulletSpeed : K
  mode : BitVec 8
  shootMode : BitVec 8
  ftAngle : K
  quaternionCanid : Int
  bulletSpeedCanid : Int
  sendCanid : Int

variable (other : K → BitVec 16)

/-- The frame that `send` writes.  The products are exact here: in doubles one just below a whole number may come to it, as
`0.0007 * 1e4` does, and one more ten thousandth is sent. -/
def CBoard.frame (cboard : CBoard K) (command : Command K) : CanFrame where
  canId := cboard.sendCanid
  canDlc := 8
  data := ![if command.control then 1 else 0, if command.shoot then 1 else 0,
    highByte (toInt16 other (command.yaw * 1e4)), lowByte (toInt16 other (command.yaw * 1e4)),
    highByte (toInt16 other (command.pitch * 1e4)), lowByte (toInt16 other (command.pitch * 1e4)),
    highByte (toInt16 other (command.horizonDistance * 1e4)), lowByte (toInt16 other (command.horizonDistance * 1e4))]

/-- The signed number at two bytes of a frame. -/
def CanFrame.int16 (frame : CanFrame) (i j : Fin 8) : Int := (bigEndian (frame.data i) (frame.data j)).toInt

/-- The quaternion `(w, x, y, z)` of a frame, if it is near enough to a unit one. -/
def CanFrame.quaternion (frame : CanFrame) : Option (K × K × K × K) :=
  let x : K := frame.int16 0 1 / 1e4
  let y : K := frame.int16 2 3 / 1e4
  let z : K := frame.int16 4 5 / 1e4
  let w : K := frame.int16 6 7 / 1e4
  if |x * x + y * y + z * z + w * w - 1| > 1e-2 then none else some (w, x, y, z)

/-- `callback`: the board, and the quaternion that is pushed. -/
def CBoard.callback (cboard : CBoard K) (frame : CanFrame) : CBoard K × Option (K × K × K × K) :=
  if frame.canId = cboard.quaternionCanid then (cboard, frame.quaternion)
  else if frame.canId = cboard.bulletSpeedCanid then
    ({ cboard with
        bulletSpeed := frame.int16 0 1 / 1e2
        mode := frame.data 2
        shootMode := frame.data 3
        ftAngle := frame.int16 4 5 / 1e4 }, none)
  else (cboard, none)

/-- The frames received one after the other, and the quaternions pushed. -/
def CBoard.receiving : Machine (CBoard K) CanFrame (K × K × K × K) where
  step cboard frame := some ((cboard.callback frame).1, (cboard.callback frame).2.toList)

def normSq : K × K × K × K → K
  | (w, x, y, z) => x * x + y * y + z * z + w * w

/-- The board at the other end, that reads a frame of `send` as this one reads its own. -/
def CanFrame.command (frame : CanFrame) : Command K where
  control := frame.data 0 = 1
  shoot := frame.data 1 = 1
  yaw := frame.int16 2 3 / 1e4
  pitch := frame.int16 4 5 / 1e4
  horizonDistance := frame.int16 6 7 / 1e4

/-- The command of a round of `generate_command`. -/
def generateCommand (lib : Libm K) (shooter : Shooter K) (aimer : Aimer K) (targets : List (Target K)) (t now : Int)
    (bulletSpeed gimbalYaw : K) : Command K :=
  let (aimed, command) := aimer.aim lib targets t bulletSpeed true now
  let fired := (shooter.shoot lib command aimed targets gimbalYaw).2
  { command with
    shoot := fired
    horizonDistance := match targets with
      | [] => 0
      | target :: _ => target.distance lib }

/-! ## The quaternions pushed -/

section Received

variable [IsStrictOrderedRing K]

theorem CanFrame.normSq_quaternion {frame : CanFrame} {q : K × K × K × K} (h : frame.quaternion = some q) :
    0.99 ≤ normSq q ∧ normSq q ≤ 1.01 := by
  unfold CanFrame.quaternion at h
  dsimp only at h
  split_ifs at h with hfar
  obtain rfl := Option.some.inj h
  obtain ⟨hlo, hhi⟩ := abs_le.1 (not_lt.1 hfar)
  constructor <;> norm_num [normSq] at hlo hhi ⊢ <;> linarith

omit [FloorRing K] [IsStrictOrderedRing K] in
theorem CBoard.callback_spec (cboard : CBoard K) (frame : CanFrame) :
    (cboard.callback frame).1.quaternionCanid = cboard.quaternionCanid ∧
      ∀ q ∈ (cboard.callback frame).2, frame.canId = cboard.quaternionCanid ∧ frame.quaternion = some q := by
  unfold CBoard.callback
  split_ifs with hquaternion hspeed
  · exact ⟨rfl, fun q hq => ⟨hquaternion, hq⟩⟩
  · exact ⟨rfl, fun q hq => by cases hq⟩
  · exact ⟨rfl, fun q hq => by cases hq⟩

/-- **Whatever frames come, no quaternion is pushed that could not be normalized**, and frames that are not measurements push
none. -/
theorem CBoard.pushed_normalizable {cboard cboard' : CBoard K} {frames : List CanFrame} {pushed : List (K × K × K × K)}
    (hrun : CBoard.receiving.run cboard frames = some (cboard', pushed)) :
    ∀ q ∈ pushed, (0.99 ≤ normSq q ∧ normSq q ≤ 1.01) ∧
      ∃ frame ∈ frames, frame.canId = cboard.quaternionCanid ∧ frame.quaternion = some q := by
  induction frames generalizing cboard pushed with
  | nil =>
    obtain ⟨-, rfl⟩ := Prod.mk.inj (Option.some.inj hrun)
    exact fun q hq => absurd hq List.not_mem_nil
  | cons frame frames ih =>
    obtain ⟨next, _, rest, hst, hrest, rfl⟩ := Machine.run_cons.1 hrun
    obtain ⟨rfl, rfl⟩ := Prod.mk.inj (Option.some.inj hst)
    obtain ⟨hid, hpushes⟩ := cboard.callback_spec frame
    intro q hq
    rcases List.mem_append.1 hq with hq | hq
    · obtain ⟨hmine, hq⟩ := hpushes q (Option.mem_toList.1 hq)
      exact ⟨CanFrame.normSq_quaternion hq, frame, List.mem_cons_self, hmine, hq⟩
    · obtain ⟨hnorm, frame', hmem, hmine, hq⟩ := ih hrest q hq
      exact ⟨hnorm, frame', List.mem_cons_of_mem frame hmem, hmine.trans hid, hq⟩

end Received

/-! ## The way there and back -/

/-- The command that arrives is the one sent, each number to a ten thousandth. -/
structure Arrives (sent arrived : Command K) : Prop where
  control : arrived.control = sent.control
  shoot : arrived.shoot = sent.shoot
  yaw : |arrived.yaw - sent.yaw| < 1e-4
  pitch : |arrived.pitch - sent.pitch| < 1e-4
  horizonDistance : |arrived.horizonDistance - sent.horizonDistance| < 1e-4

section Ordered

variable [IsStrictOrderedRing K]

theorem abs_toInt_le (x : K) : |(toInt x : K)| ≤ |x| := by
  unfold toInt
  split
  · rename_i hx
    rw [abs_of_nonneg hx, abs_of_nonneg (by exact_mod_cast Int.floor_nonneg.2 hx)]
    exact Int.floor_le x
  · rename_i hx
    have hx := (not_le.1 hx).le
    rw [abs_of_nonpos hx, abs_of_nonpos (by exact_mod_cast Int.ceil_nonpos.2 hx)]
    linarith [Int.le_ceil x]

theorem abs_toInt_sub_lt (x : K) : |(toInt x : K) - x| < 1 := by
  unfold toInt
  rw [abs_lt]
  split
  · constructor <;> linarith [Int.floor_le x, Int.lt_floor_add_one x]
  · constructor <;> linarith [Int.le_ceil x, Int.ceil_lt_add_one x]

theorem toInt16_toInt {x : K} (hx : |x| < 32768) : (toInt16 other x).toInt = toInt x := by
  have habs : |toInt x| < 32768 := by exact_mod_cast (abs_toInt_le x).trans_lt hx
  obtain ⟨hlo, hhi⟩ := abs_lt.1 habs
  rw [toInt16, if_pos (by omega), BitVec.toInt_ofInt]
  exact Int.bmod_eq_of_le (by norm_num; omega) (by norm_num; omega)

/-- **A number below 3.2768 in size arrives to a ten thousandth.** -/
theorem arrives_of_lt {v : K} (hv : |v * 1e4| < 32768) : |((toInt16 other (v * 1e4)).toInt : K) / 1e4 - v| < 1e-4 := by
  have hten : (0 : K) < 1e4 := by norm_num
  have hdiff : ((toInt (v * 1e4) : K)) / 1e4 - v = ((toInt (v * 1e4) : K) - v * 1e4) / 1e4 := by
    rw [sub_div, mul_div_cancel_right₀ v hten.ne']
  rw [toInt16_toInt other hv, hdiff, abs_div, abs_of_pos hten, div_lt_iff₀ hten]
  refine (abs_toInt_sub_lt (v * 1e4)).trans_le ?_
  norm_num

/-- **A greater one does not, whatever the machine makes of it.** -/
theorem not_arrives_of_le {v : K} (hv : 32768 ≤ v * 1e4) : ¬ |((toInt16 other (v * 1e4)).toInt : K) / 1e4 - v| < 1e-4 := by
  have hmax : ((toInt16 other (v * 1e4)).toInt : K) ≤ 32767 := by
    have hlt := BitVec.toInt_lt (x := toInt16 other (v * 1e4))
    have hint : (toInt16 other (v * 1e4)).toInt ≤ 32767 := by omega
    exact_mod_cast hint
  rw [not_lt, le_abs]
  right
  norm_num at hv ⊢
  linarith

variable (cboard : CBoard K)

omit [IsStrictOrderedRing K] in
theorem frame_command (command : Command K) : (cboard.frame other command).command =
    (⟨command.control, command.shoot, (toInt16 other (command.yaw * 1e4)).toInt / 1e4,
      (toInt16 other (command.pitch * 1e4)).toInt / 1e4,
      (toInt16 other (command.horizonDistance * 1e4)).toInt / 1e4⟩ : Command K) := by
  have hflag : ∀ b : Bool, decide ((if b then (1 : BitVec 8) else 0) = 1) = b := by decide
  unfold CanFrame.command CanFrame.int16 CBoard.frame
  simp only [Command.mk.injEq]
  refine ⟨hflag command.control, hflag command.shoot, ?_, ?_, ?_⟩
  · exact congrArg (fun v : BitVec 16 => (v.toInt : K) / 1e4) (bigEndian_highByte_lowByte _)
  · exact congrArg (fun v : BitVec 16 => (v.toInt : K) / 1e4) (bigEndian_highByte_lowByte _)
  · exact congrArg (fun v : BitVec 16 => (v.toInt : K) / 1e4) (bigEndian_highByte_lowByte _)

theorem arrives_iff {command : Command K} (hyaw : |command.yaw * 1e4| < 32768) (hpitch : |command.pitch * 1e4| < 32768)
    (hdist : 0 ≤ command.horizonDistance) :
    Arrives command (cboard.frame other command).command ↔ command.horizonDistance < 3.2768 := by
  have hbound : command.horizonDistance < 3.2768 ↔ command.horizonDistance * 1e4 < 32768 := by
    constructor <;> intro h <;> norm_num at h ⊢ <;> linarith
  rw [frame_command, hbound]
  constructor
  · intro h
    by_contra hfar
    exact not_arrives_of_le other (not_lt.1 hfar) h.horizonDistance
  · intro hnear
    have hnonneg : 0 ≤ command.horizonDistance * 1e4 := mul_nonneg hdist (by norm_num)
    exact ⟨rfl, rfl, arrives_of_lt other hyaw, arrives_of_lt other hpitch,
      arrives_of_lt other (by rwa [abs_of_nonneg hnonneg])⟩

end Ordered

theorem abs_yaw_lt {yaw : ℝ} (h : |yaw| ≤ Real.pi) : |yaw * 1e4| < 32768 := by
  have hpi := Real.pi_lt_d4
  have hten : |(1e4 : ℝ)| = 10000 := by norm_num
  rw [abs_mul, hten]
  linarith

/-- **A command of angles arrives exactly if its distance is below 3.2768 metres.** -/
theorem command_arrives_iff (other : ℝ → BitVec 16) (cboard : CBoard ℝ) (command : Command ℝ)
    (hyaw : |command.yaw| ≤ Real.pi) (hpitch : |command.pitch| ≤ Real.pi / 2) (hdist : 0 ≤ command.horizonDistance) :
    Arrives command (cboard.frame other command).command ↔ command.horizonDistance < 3.2768 :=
  arrives_iff other cboard (abs_yaw_lt hyaw) (abs_yaw_lt (hpitch.trans (half_le_self Real.pi_pos.le))) hdist

/-- The conversion of the machine: to 32 bits, of which 16 are kept. -/
noncomputable def keepLow (x : ℝ) : BitVec 16 := BitVec.ofInt 16 (toInt x)

noncomputable def canBoard : CBoard ℝ := ⟨0, 0, 0, 0, 1, 2, 255⟩

theorem command_arrives_iff_two_metres :
    Arrives (⟨true, false, 0.5, -0.25, 2⟩ : Command ℝ) (canBoard.frame keepLow ⟨true, false, 0.5, -0.25, 2⟩).command ↔
      (2 : ℝ) < 3.2768 :=
  command_arrives_iff keepLow canBoard ⟨true, false, 0.5, -0.25, 2⟩
    (by have := Real.pi_gt_three; norm_num [abs_le]; linarith)
    (by have := Real.pi_gt_three; norm_num [abs_le]; linarith) (by norm_num)

/-- **Five metres arrive as less than nothing.** -/
theorem five_metres_do_not_arrive :
    ((canBoard.frame keepLow ⟨true, true, 0, 0, 5⟩).command : Command ℝ).horizonDistance = -1.5536 ∧
      ¬ Arrives (⟨true, true, 0, 0, 5⟩ : Command ℝ) (canBoard.frame keepLow ⟨true, true, 0, 0, 5⟩).command := by
  have hfive : toInt (5 * 1e4 : ℝ) = 50000 := by
    have hcast : (5 * 1e4 : ℝ) = ((50000 : ℤ) : ℝ) := by norm_num
    rw [hcast, toInt, if_pos (by norm_num), Int.floor_intCast]
  have hbits : (toInt16 keepLow (5 * 1e4 : ℝ)).toInt = -15536 := by
    unfold toInt16 keepLow
    rw [hfive]
    rfl
  have harrived : ((canBoard.frame keepLow ⟨true, true, 0, 0, 5⟩).command : Command ℝ).horizonDistance = -1.5536 := by
    rw [frame_command]
    dsimp only
    rw [hbits]
    norm_num
  refine ⟨harrived, fun h => ?_⟩
  have hnear := h.horizonDistance
  rw [harrived] at hnear
  norm_num at hnear

theorem generated_arrives_iff (other : ℝ → BitVec 16) (cboard : CBoard ℝ) (shooter : Shooter ℝ) (aimer : Aimer ℝ)
    (target : Target ℝ) (rest : List (Target ℝ)) (t now : Int) (bulletSpeed gimbalYaw : ℝ)
    (hyaw : |(generateCommand Dual.realLibm shooter aimer (target :: rest) t now bulletSpeed gimbalYaw).yaw| ≤ Real.pi)
    (hpitch : |(generateCommand Dual.realLibm shooter aimer (target :: rest) t now bulletSpeed gimbalYaw).pitch| ≤
      Real.pi) :
    let command := generateCommand Dual.realLibm shooter aimer (target :: rest) t now bulletSpeed gimbalYaw
    Arrives command (cboard.frame other command).command ↔ target.distance Dual.realLibm < 3.2768 :=
  arrives_iff other cboard (abs_yaw_lt hyaw) (abs_yaw_lt hpitch) (Real.sqrt_nonneg _)

end Vision
end LfSentry
