import LfSentry.SentryCmd
/-!
# SentryWord — the layout of the sentry's command word

The word of a command read field by field, as its layout says, gives the command back, each field cut to its width
(`read_cmdSentryCallback`).  The posture is the exception: whatever is not 1, 2 or 3 becomes the moving posture 3, 0
included, so a 0 keeps the posture of the word before only where that was 3 (`word_of_command`).
-/
namespace LfSentry
namespace Sentry

/-- The fields of the word. -/
structure SentryWord where
  confirmRespawn : BitVec 1
  confirmPayRespawn : BitVec 1
  projectileAllowance : BitVec 11
  remoteProjectileReqCount : BitVec 4
  remoteHpReqCount : BitVec 4
  postureCommand : BitVec 2
  activateRune : BitVec 1
  reserved : BitVec 8
  deriving DecidableEq, Repr

/-- Bits 0, 1, 2–12, 13–16, 17–20, 21–22, 23 and 24–31. -/
def SentryWord.read (word : BitVec 32) : SentryWord where
  confirmRespawn := word.extractLsb' 0 1
  confirmPayRespawn := word.extractLsb' 1 1
  projectileAllowance := word.extractLsb' 2 11
  remoteProjectileReqCount := word.extractLsb' 13 4
  remoteHpReqCount := word.extractLsb' 17 4
  postureCommand := word.extractLsb' 21 2
  activateRune := word.extractLsb' 23 1
  reserved := word.extractLsb' 24 8

/-- A posture that the protocol has. -/
def SentryCmd.ValidPosture (msg : SentryCmd) : Prop := 1 ≤ msg.postureCommand.toNat ∧ msg.postureCommand.toNat ≤ 3

instance (msg : SentryCmd) : Decidable msg.ValidPosture := inferInstanceAs (Decidable (_ ∧ _))

/-- The fields of a command, each cut to its width. -/
def SentryCmd.fields (msg : SentryCmd) : SentryWord where
  confirmRespawn := BitVec.ofBool msg.confirmRespawn
  confirmPayRespawn := BitVec.ofBool msg.confirmPayRespawn
  projectileAllowance := msg.projectileAllowanceToExchange.setWidth 11
  remoteProjectileReqCount := msg.remoteProjectileRequestCount.setWidth 4
  remoteHpReqCount := msg.remoteHpRequestCount.setWidth 4
  postureCommand := if msg.ValidPosture then msg.postureCommand.setWidth 2 else 3#2
  activateRune := BitVec.ofBool msg.activateRune
  reserved := 0#8

theorem setWidth_setWidth_ofBool (b : Bool) : ((BitVec.ofBool b).setWidth 32).setWidth 1 = BitVec.ofBool b := by
  cases b <;> rfl

/-- The comparison on the widened posture is the one on its value. -/
theorem posture_setWidth (msg : SentryCmd) :
    (if msg.postureCommand.setWidth 32 < 1#32 ∨ msg.postureCommand.setWidth 32 > 3#32 then 3#32
      else msg.postureCommand.setWidth 32).setWidth 2 = msg.fields.postureCommand := by
  have hlt := msg.postureCommand.isLt
  have hwide : (msg.postureCommand.setWidth 32).toNat = msg.postureCommand.toNat := by
    rw [BitVec.toNat_setWidth]
    exact Nat.mod_eq_of_lt (by omega)
  have hguard : msg.postureCommand.setWidth 32 < 1#32 ∨ msg.postureCommand.setWidth 32 > 3#32 ↔ ¬ msg.ValidPosture := by
    unfold SentryCmd.ValidPosture
    rw [gt_iff_lt, BitVec.lt_def, BitVec.lt_def, hwide]
    have hone : (1#32).toNat = 1 := rfl
    have hthree : (3#32).toNat = 3 := rfl
    omega
  simp only [SentryCmd.fields]
  by_cases hvalid : msg.ValidPosture
  · rw [if_neg fun h => hguard.1 h hvalid, if_pos hvalid]
    exact BitVec.setWidth_setWidth_of_le _ (by decide)
  · rw [if_pos (hguard.2 hvalid), if_neg hvalid]
    rfl

/-- **The layout gives back every field of the command.** -/
theorem read_cmdSentryCallback (msg : SentryCmd) : SentryWord.read (cmdSentryCallback msg) = msg.fields := by
  unfold SentryWord.read
  rw [cmdSentryCallback_eq]
  simp only [BitVec.extractLsb'_or]
  rw [BitFields.extractLsb'_field ((BitVec.ofBool msg.confirmRespawn).setWidth 32) (by decide),
    BitFields.extractLsb'_field ((BitVec.ofBool msg.confirmPayRespawn).setWidth 32) (by decide),
    BitFields.extractLsb'_field (msg.projectileAllowanceToExchange.setWidth 32) (by decide),
    BitFields.extractLsb'_field (msg.remoteProjectileRequestCount.setWidth 32) (by decide),
    BitFields.extractLsb'_field (msg.remoteHpRequestCount.setWidth 32) (by decide),
    BitFields.extractLsb'_field (if msg.postureCommand.setWidth 32 < 1#32 ∨ msg.postureCommand.setWidth 32 > 3#32 then
      3#32 else msg.postureCommand.setWidth 32) (by decide),
    BitFields.extractLsb'_field ((BitVec.ofBool msg.activateRune).setWidth 32) (by decide)]
  simp (disch := decide) only [BitFields.extractLsb'_field_apart]
  simp only [BitVec.zero_or, BitVec.or_zero, posture_setWidth, setWidth_setWidth_ofBool]
  simp only [SentryCmd.fields, SentryWord.mk.injEq, true_and, and_true]
  exact ⟨BitVec.setWidth_setWidth_of_le _ (by decide), BitVec.setWidth_setWidth_of_le _ (by decide),
    BitVec.setWidth_setWidth_of_le _ (by decide)⟩

/-- **The word of a command holds its fields; a posture that the protocol does not have becomes 3, and so is that of
the word before only where that was 3.** -/
theorem word_of_command (msg : SentryCmd) : SentryWord.read (cmdSentryCallback msg) = msg.fields ∧
    ∀ previous : BitVec 32, ¬ msg.ValidPosture →
      ((SentryWord.read (cmdSentryCallback msg)).postureCommand = (SentryWord.read previous).postureCommand ↔
        (SentryWord.read previous).postureCommand = 3#2) := by
  have hread := read_cmdSentryCallback msg
  refine ⟨hread, fun previous hinvalid => ?_⟩
  have hmoving : msg.fields.postureCommand = 3#2 := if_neg hinvalid
  rw [hread, hmoving]
  exact eq_comm

/-- A command that attacks, then one without a posture: the second word says to move. -/
theorem no_posture_moves :
    let attack := cmdSentryCallback ⟨false, false, 0, 0, 0, 1, false⟩
    let exchange := cmdSentryCallback (exchangeCommand 150)
    (exchangeCommand 150).postureCommand = 0 ∧ (SentryWord.read attack).postureCommand = 1 ∧
      (SentryWord.read exchange).postureCommand = 3 := by
  decide

end Sentry
end LfSentry
