import LfSentry.LivoxFifo
/-!
# LivoxWakeup — the polling thread does not sleep over a packet

The semaphore is only rung when its count is read as zero, and a pass over the queues takes one count for any number of
packets.  Still, a queue that is not empty has either a count waiting for the poller, or the poller on its way to it, or the
storing thread on its way to the semaphore (`Watched`).
-/
namespace LfSentry
namespace Livox

variable {P : Type}

/-- The poller has this lidar still before it in its pass. -/
def Polling.WillLook (i : Nat) : Polling P → Prop
  | .enter | .wait => False
  | .lidar j | .storage j | .outer j | .queued j | .inner j | .prePop j | .readTime j | .readNum j _ | .readPoints j _ _
  | .update j _ | .publish j _ => j ≤ i

/-- The storing thread is on its way to the semaphore for this lidar. -/
def Storing.WillRing (i : Nat) : Storing P → Prop
  | .checkEmpty j => j = i
  | .checkCount | .signal => True
  | _ => False

/-- A lidar whose packets are not slept over. -/
structure Watched (i : Nat) (s : Lds P) : Prop where
  sampling : (s.lidars i).sampling = true
  count : 0 ≤ s.pcdSemaphore
  watched : (s.queue i).isEmpty = true ∨ 0 < s.pcdSemaphore ∨ s.polling.WillLook i ∨ s.storing.WillRing i ∨
    s.requestExit = true

variable {i : Nat} {s t : Lds P} {es : List (Note P)}

/-- A step of the storing thread. -/
theorem Watched.stores (h : Watched i s) (hsampling : (t.lidars i).sampling = (s.lidars i).sampling)
    (hcount : s.pcdSemaphore ≤ t.pcdSemaphore) (hpolling : t.polling = s.polling) (hexit : t.requestExit = s.requestExit)
    (hempty : (s.queue i).isEmpty = true → (t.queue i).isEmpty = true ∨ t.storing.WillRing i)
    (hring : s.storing.WillRing i → (t.queue i).isEmpty = true ∨ 0 < t.pcdSemaphore ∨ t.storing.WillRing i) : Watched i t where
  sampling := hsampling.trans h.sampling
  count := h.count.trans hcount
  watched := by
    rw [hpolling, hexit]
    rcases h.watched with h | h | h | h | h
    · rcases hempty h with h | h
      · exact Or.inl h
      · exact Or.inr (Or.inr (Or.inr (Or.inl h)))
    · exact Or.inr (Or.inl (h.trans_le hcount))
    · exact Or.inr (Or.inr (Or.inl h))
    · rcases hring h with h | h | h
      · exact Or.inl h
      · exact Or.inr (Or.inl h)
      · exact Or.inr (Or.inr (Or.inr (Or.inl h)))
    · exact Or.inr (Or.inr (Or.inr (Or.inr h)))

/-- A step of the polling thread. -/
theorem Watched.polls (h : Watched i s) (hsampling : (t.lidars i).sampling = (s.lidars i).sampling) (hcount : 0 ≤ t.pcdSemaphore)
    (hstoring : t.storing = s.storing) (hexit : t.requestExit = s.requestExit)
    (hempty : (s.queue i).isEmpty = true → (t.queue i).isEmpty = true ∨ t.polling.WillLook i)
    (htaken : 0 < s.pcdSemaphore → 0 < t.pcdSemaphore ∨ t.polling.WillLook i)
    (hlook : s.polling.WillLook i → (t.queue i).isEmpty = true ∨ t.polling.WillLook i ∨ t.requestExit = true) :
    Watched i t where
  sampling := hsampling.trans h.sampling
  count := hcount
  watched := by
    rw [hstoring]
    rcases h.watched with h | h | h | h | h
    · rcases hempty h with h | h
      · exact Or.inl h
      · exact Or.inr (Or.inr (Or.inl h))
    · rcases htaken h with h | h
      · exact Or.inr (Or.inl h)
      · exact Or.inr (Or.inr (Or.inl h))
    · rcases hlook h with h | h | h
      · exact Or.inl h
      · exact Or.inr (Or.inr (Or.inl h))
      · exact Or.inr (Or.inr (Or.inr (Or.inr h)))
    · exact Or.inr (Or.inr (Or.inr (Or.inl h)))
    · exact Or.inr (Or.inr (Or.inr (Or.inr (hexit.trans h))))

theorem sampling_setQueue (s : Lds P) (j i : Nat) (d : LidarDataQueue P) :
    ((s.setQueue j d).lidars i).sampling = (s.lidars i).sampling := by
  by_cases h : i = j
  · subst h
    simp [Lds.setQueue]
  · simp [Lds.setQueue, h]

/-- Work on a queue that leaves the counters alone does not empty or fill it. -/
theorem isEmpty_setQueue {s : Lds P} {j : Nat} {d : LidarDataQueue P} (hrd : d.rdIdx = (s.queue j).rdIdx)
    (hwr : d.wrIdx = (s.queue j).wrIdx) : ((s.setQueue j d).queue i).isEmpty = (s.queue i).isEmpty := by
  rw [queue_setQueue]
  split
  · rename_i hij
    subst hij
    rw [LidarDataQueue.isEmpty, LidarDataQueue.isEmpty, hrd, hwr]
  · rfl

/-- **The storing thread leaves no packet behind without a ring.** -/
theorem watched_storeStep {queueSize : UInt32} {o : List (Note P)} (hlanes : Lanes s o) (h : Watched i s)
    (hst : storeStep queueSize s = some (t, es)) : Watched i t := by
  unfold storeStep at hst
  cases hs : s.storing with
  | idle => simp [hs] at hst
  | called j packet =>
    rw [hs] at hst
    dsimp only at hst
    split at hst <;> obtain ⟨rfl, -⟩ := Prod.mk.inj (Option.some.inj hst)
    · refine h.stores (sampling_setQueue _ _ _ _) le_rfl rfl rfl (fun hempty => Or.inl ?_) fun hring => ?_
      · change ((s.setQueue j (s.queue j).alloc).queue i).isEmpty = true
        exact Eq.trans (by apply isEmpty_setQueue <;> rfl) hempty
      · rw [hs] at hring
        cases hring
    · exact h.stores rfl le_rfl rfl rfl Or.inl fun hring => by rw [hs] at hring; cases hring
  | zeroRd j packet | zeroWr j packet | setSize j packet | setMask j packet =>
    rw [hs] at hst
    obtain ⟨rfl, -⟩ := Prod.mk.inj (Option.some.inj hst)
    obtain ⟨held, hl⟩ := hlanes j
    rw [hs] at hl
    obtain ⟨-, hrd, hwr⟩ := hl.writer rfl
    refine h.stores (sampling_setQueue _ _ _ _) le_rfl rfl rfl (fun hempty => Or.inl ?_) fun hring => ?_
    · -- the counters are at zero already
      exact Eq.trans (isEmpty_setQueue (by first | rfl | exact hrd.symm) (by first | rfl | exact hwr.symm)) hempty
    · rw [hs] at hring
      cases hring
  | checkFull j packet =>
    rw [hs] at hst
    dsimp only at hst
    split at hst <;> obtain ⟨rfl, -⟩ := Prod.mk.inj (Option.some.inj hst) <;>
      exact h.stores rfl le_rfl rfl rfl Or.inl fun hring => by rw [hs] at hring; cases hring
  | writeTime j packet | writeNum j packet | writePoints j packet =>
    rw [hs] at hst
    obtain ⟨rfl, -⟩ := Prod.mk.inj (Option.some.inj hst)
    refine h.stores (sampling_setQueue _ _ _ _) le_rfl rfl rfl (fun hempty => Or.inl ?_) fun hring => ?_
    · change ((s.setQueue j ((s.queue j).write _)).queue i).isEmpty = true
      exact Eq.trans (by apply isEmpty_setQueue <;> rfl) hempty
    · rw [hs] at hring
      cases hring
  | bump j packet =>
    rw [hs] at hst
    obtain ⟨rfl, -⟩ := Prod.mk.inj (Option.some.inj hst)
    refine h.stores (sampling_setQueue _ _ _ _) le_rfl rfl rfl (fun hempty => ?_) fun hring => ?_
    · by_cases hij : j = i
      · exact Or.inr hij
      · refine Or.inl ?_
        change ((s.setQueue j (s.queue j).bump).queue i).isEmpty = true
        rwa [queue_setQueue, if_neg (Ne.symm hij)]
    · rw [hs] at hring
      cases hring
  | checkEmpty j =>
    rw [hs] at hst
    dsimp only at hst
    split at hst <;> obtain ⟨rfl, -⟩ := Prod.mk.inj (Option.some.inj hst)
    · rename_i hempty
      refine h.stores rfl le_rfl rfl rfl Or.inl fun hring => Or.inl ?_
      rw [hs] at hring
      obtain rfl : j = i := hring
      exact hempty
    · exact h.stores rfl le_rfl rfl rfl Or.inl fun _ => Or.inr (Or.inr trivial)
  | checkCount =>
    rw [hs] at hst
    dsimp only at hst
    split at hst <;> obtain ⟨rfl, -⟩ := Prod.mk.inj (Option.some.inj hst)
    · exact h.stores rfl le_rfl rfl rfl Or.inl fun _ => Or.inr (Or.inr trivial)
    · rename_i hcount
      exact h.stores rfl le_rfl rfl rfl Or.inl fun _ => Or.inr (Or.inl (not_le.1 hcount))
  | signal =>
    rw [hs] at hst
    obtain ⟨rfl, -⟩ := Prod.mk.inj (Option.some.inj hst)
    have hpos := h.count
    refine h.stores rfl ?_ rfl rfl Or.inl fun _ => Or.inr (Or.inl ?_)
    · change s.pcdSemaphore ≤ s.pcdSemaphore + 1
      omega
    · change 0 < s.pcdSemaphore + 1
      omega

/-- **The polling thread passes no packet by.** -/
theorem watched_pollStep {lidarCount : Nat} {transferFormat : TransferType} {o : List (Note P)} (hi : i < lidarCount)
    (hlanes : Lanes s o) (h : Watched i s) (hst : pollStep lidarCount transferFormat s = some (t, es)) : Watched i t := by
  unfold pollStep at hst
  cases hs : s.polling with
  | enter =>
    rw [hs] at hst
    dsimp only at hst
    split at hst <;> obtain ⟨rfl, -⟩ := Prod.mk.inj (Option.some.inj hst)
    · exact h
    · exact h.polls rfl h.count rfl rfl Or.inl Or.inl fun hlook => by rw [hs] at hlook; cases hlook
  | wait =>
    rw [hs] at hst
    dsimp only at hst
    split at hst
    · rename_i hcount
      obtain ⟨rfl, -⟩ := Prod.mk.inj (Option.some.inj hst)
      refine h.polls rfl ?_ rfl rfl Or.inl (fun _ => Or.inr (Nat.zero_le i)) fun _ => Or.inr (Or.inl (Nat.zero_le i))
      change 0 ≤ s.pcdSemaphore - 1
      omega
    · cases hst
  | lidar j =>
    rw [hs] at hst
    dsimp only at hst
    split_ifs at hst with hj hsampling <;> obtain ⟨rfl, -⟩ := Prod.mk.inj (Option.some.inj hst)
    · exact h.polls rfl h.count rfl rfl Or.inl Or.inl fun hlook => Or.inr (Or.inl (by rw [hs] at hlook; exact hlook))
    · refine h.polls rfl h.count rfl rfl Or.inl Or.inl fun hlook => ?_
      rw [hs] at hlook
      rcases Nat.lt_or_eq_of_le (show j ≤ i from hlook) with hlt | rfl
      · exact Or.inr (Or.inl hlt)
      · exact absurd h.sampling hsampling
    · refine h.polls rfl h.count rfl rfl Or.inl Or.inl fun hlook => ?_
      rw [hs] at hlook
      exact absurd (lt_of_le_of_lt (show j ≤ i from hlook) hi) hj
  | storage j =>
    rw [hs] at hst
    dsimp only at hst
    split_ifs at hst with hsome <;> obtain ⟨rfl, -⟩ := Prod.mk.inj (Option.some.inj hst)
    · exact h.polls rfl h.count rfl rfl Or.inl Or.inl fun hlook => Or.inr (Or.inl (by rw [hs] at hlook; exact hlook))
    · refine h.polls rfl h.count rfl rfl Or.inl Or.inl fun hlook => ?_
      rw [hs] at hlook
      rcases Nat.lt_or_eq_of_le (show j ≤ i from hlook) with hlt | rfl
      · exact Or.inr (Or.inl hlt)
      · -- without storage there is nothing in the queue
        obtain ⟨held, hl⟩ := hlanes j
        have hnone : (s.queue j).storagePacket = none := Option.not_isSome_iff_eq_none.1 hsome
        exact Or.inl (decide_eq_true (hl.holds.empty_iff.2 (hl.bare hnone).1))
  | outer j =>
    rw [hs] at hst
    dsimp only at hst
    split_ifs at hst with hexit <;> obtain ⟨rfl, -⟩ := Prod.mk.inj (Option.some.inj hst)
    · exact h.polls rfl h.count rfl rfl Or.inl Or.inl fun _ => Or.inr (Or.inr hexit)
    · exact h.polls rfl h.count rfl rfl Or.inl Or.inl fun hlook => Or.inr (Or.inl (by rw [hs] at hlook; exact hlook))
  | queued j =>
    rw [hs] at hst
    dsimp only at hst
    split_ifs at hst with hempty hformat <;> obtain ⟨rfl, -⟩ := Prod.mk.inj (Option.some.inj hst)
    · refine h.polls rfl h.count rfl rfl Or.inl Or.inl fun hlook => ?_
      rw [hs] at hlook
      rcases Nat.lt_or_eq_of_le (show j ≤ i from hlook) with hlt | rfl
      · exact Or.inr (Or.inl hlt)
      · exact Or.inl hempty
    all_goals
      exact h.polls rfl h.count rfl rfl Or.inl Or.inl fun hlook => Or.inr (Or.inl (by rw [hs] at hlook; exact hlook))
  | inner j | prePop j =>
    rw [hs] at hst
    dsimp only at hst
    split_ifs at hst <;> obtain ⟨rfl, -⟩ := Prod.mk.inj (Option.some.inj hst) <;>
      exact h.polls rfl h.count rfl rfl Or.inl Or.inl fun hlook => Or.inr (Or.inl (by rw [hs] at hlook; exact hlook))
  | readTime j | readNum j baseTime | readPoints j baseTime pointsNum | publish j pkg =>
    rw [hs] at hst
    obtain ⟨rfl, -⟩ := Prod.mk.inj (Option.some.inj hst)
    exact h.polls rfl h.count rfl rfl Or.inl Or.inl fun hlook => Or.inr (Or.inl (by rw [hs] at hlook; exact hlook))
  | update j pkg =>
    rw [hs] at hst
    obtain ⟨rfl, -⟩ := Prod.mk.inj (Option.some.inj hst)
    refine h.polls (sampling_setQueue _ _ _ _) h.count rfl rfl (fun hempty => ?_) Or.inl fun hlook =>
      Or.inr (Or.inl (by rw [hs] at hlook; exact hlook))
    by_cases hij : j = i
    · exact Or.inr (Nat.le_of_eq hij)
    · refine Or.inl ?_
      change ((s.setQueue j (s.queue j).popUpdate).queue i).isEmpty = true
      rwa [queue_setQueue, if_neg (Ne.symm hij)]

/-- The semaphore never counts below zero. -/
theorem count_step {lidarCount : Nat} {queueSize : UInt32} {transferFormat : TransferType} {a : Act P}
    (h : 0 ≤ s.pcdSemaphore) (hst : (driver lidarCount queueSize transferFormat).step s a = some (t, es)) :
    0 ≤ t.pcdSemaphore := by
  cases a with
  | call j packet =>
    simp only [driver] at hst
    split at hst
    · split at hst
      · obtain ⟨rfl, -⟩ := Prod.mk.inj (Option.some.inj hst)
        exact h
      · cases hst
    · cases hst
  | store =>
    replace hst : storeStep queueSize s = some (t, es) := hst
    unfold storeStep at hst
    split at hst <;> try split_ifs at hst
    all_goals
      first
      | (obtain ⟨rfl, -⟩ := Prod.mk.inj (Option.some.inj hst); first | exact h | exact Int.le_add_one h)
      | cases hst
  | poll =>
    replace hst : pollStep lidarCount transferFormat s = some (t, es) := hst
    unfold pollStep at hst
    split at hst <;> try split_ifs at hst
    all_goals
      obtain ⟨rfl, -⟩ := Prod.mk.inj (Option.some.inj hst)
      first
      | exact h
      | exact Int.sub_nonneg_of_le ‹s.pcdSemaphore > 0›
  | sampling j | exit =>
    obtain ⟨rfl, -⟩ := Prod.mk.inj (Option.some.inj hst)
    exact h

/-- What holds of a watched lidar between any two steps. -/
def Awake (i : Nat) (s : Lds P) (o : List (Note P)) : Prop := Lanes s o ∧ Watched i s

theorem awake_step {lidarCount : Nat} {queueSize : UInt32} {transferFormat : TransferType} {a : Act P} {o : List (Note P)}
    (hi : i < lidarCount) (h : Awake i s o) (hst : (driver lidarCount queueSize transferFormat).step s a = some (t, es)) :
    Awake i t (o ++ es) := by
  refine ⟨lanes_step h.1 hst, ?_⟩
  cases a with
  | call j packet =>
    simp only [driver] at hst
    split at hst
    · rename_i hs
      split at hst
      · obtain ⟨rfl, -⟩ := Prod.mk.inj (Option.some.inj hst)
        exact h.2.stores rfl le_rfl rfl rfl Or.inl fun hring => by rw [hs] at hring; cases hring
      · cases hst
    · cases hst
  | store => exact watched_storeStep h.1 h.2 hst
  | poll => exact watched_pollStep hi h.1 h.2 hst
  | sampling j =>
    obtain ⟨rfl, -⟩ := Prod.mk.inj (Option.some.inj hst)
    have hkeep : ∀ k, (Function.update s.lidars j { s.lidars j with sampling := true } k).data = (s.lidars k).data := by
      intro k
      by_cases hk : k = j
      · subst hk
        simp
      · simp [hk]
    refine ⟨?_, h.2.count, ?_⟩
    · by_cases hij : i = j
      · subst hij
        simp
      · simpa [hij] using h.2.sampling
    · have := h.2.watched
      simp only [Lds.queue, hkeep] at this ⊢
      exact this
  | exit =>
    obtain ⟨rfl, -⟩ := Prod.mk.inj (Option.some.inj hst)
    exact ⟨h.2.sampling, h.2.count, Or.inr (Or.inr (Or.inr (Or.inr rfl)))⟩

/-- The polling thread sleeps at the semaphore. -/
def Asleep (lidarCount : Nat) (transferFormat : TransferType) (s : Lds P) : Prop :=
  pollStep lidarCount transferFormat s = none

/-- It sleeps nowhere else. -/
theorem asleep_iff {lidarCount : Nat} {transferFormat : TransferType} :
    Asleep lidarCount transferFormat s ↔ s.polling = .wait ∧ s.pcdSemaphore ≤ 0 := by
  unfold Asleep pollStep
  cases hs : s.polling with
  | wait => simp
  | enter | lidar j | storage j | outer j | queued j | inner j | prePop j =>
    simp only [reduceCtorEq, false_and, iff_false]
    split_ifs <;> simp
  | readTime j | readNum j baseTime | readPoints j baseTime pointsNum | update j pkg | publish j pkg => simp

/-- The storing thread has nothing to do but between calls. -/
theorem idle_iff {queueSize : UInt32} : storeStep queueSize s = none ↔ s.storing = .idle := by
  unfold storeStep
  cases hs : s.storing with
  | idle => simp
  | called j packet | checkFull j packet | checkEmpty j | checkCount =>
    simp only [reduceCtorEq, iff_false]
    split_ifs <;> simp
  | zeroRd j packet | zeroWr j packet | setSize j packet | setMask j packet | writeTime j packet | writeNum j packet
  | writePoints j packet | bump j packet | signal => simp

/-- **In every interleaving: a lidar that was found sampling while its queue was empty has had everything published that was
stored for it, whenever the polling thread sleeps at the semaphore, no packet is being stored, and no end has been asked
for.** -/
theorem driver_no_lost_wakeup (lidarCount : Nat) (queueSize : UInt32) (transferFormat : TransferType) (before after : List (Act P))
    (s t : Lds P) (o₁ o₂ : List (Note P)) (hbefore : (driver lidarCount queueSize transferFormat).run Lds.init before = some (s, o₁))
    (hafter : (driver lidarCount queueSize transferFormat).run s after = some (t, o₂)) (i : Nat) (hi : i < lidarCount)
    (hsampling : (s.lidars i).sampling = true) (hempty : (s.queue i).contents = [])
    (hasleep : Asleep lidarCount transferFormat t) (hidle : t.storing = .idle) (hexit : t.requestExit = false) :
    withPoints (storedOf i (o₁ ++ o₂)) = publishedOf i (o₁ ++ o₂) := by
  have hlanes := Machine.inv_said_of_run (I := fun s o => Lanes s o ∧ 0 ≤ s.pcdSemaphore)
    (fun s a t es h hl hst => ⟨lanes_step hl.1 hst, count_step hl.2 hst⟩) ⟨lanes_init, le_rfl⟩ hbefore
  obtain ⟨held, hl⟩ := hlanes.1 i
  rw [contents_eq hl] at hempty
  have hwatched : Watched i s := ⟨hsampling, hlanes.2, Or.inl (decide_eq_true (hl.holds.empty_iff.2 hempty))⟩
  obtain ⟨hend, hw⟩ := Machine.inv_said_of_run (I := Awake i) (fun s a t es h ha hst => awake_step hi ha hst)
    ⟨hlanes.1, hwatched⟩ hafter
  obtain ⟨held, hl⟩ := hend i
  obtain ⟨hwait, hcount⟩ := asleep_iff.1 hasleep
  have hnil : held = [] := by
    rcases hw.watched with h | h | h | h | h
    · exact hl.holds.empty_iff.1 (of_decide_eq_true h)
    · exact absurd h (not_lt.2 hcount)
    · rw [hwait] at h
      cases h
    · rw [hidle] at h
      cases h
    · rw [hexit] at h
      cases h
  have hflow := hl.flow
  rw [hnil, hwait] at hflow
  simpa [Polling.inHand, withPoints] using hflow

/-- Two lidars; the second packet of the second one comes while the poller is still on its way to the first, and its ring
brings the poller round once more. -/
def twoLidars : List (Act Nat) :=
  .call 1 ⟨5, [7]⟩ :: List.replicate 13 .store ++ .poll :: .poll :: .call 0 ⟨5, [1]⟩ ::
    (List.replicate 13 [.store, .poll]).flatten ++ .call 1 ⟨6, [8, 9]⟩ :: (List.replicate 8 [.poll, .store]).flatten ++
    .store :: List.replicate 41 .poll

theorem driver_no_lost_wakeup_twoLidars : ∃ s t o₁ o₂,
    (driver 2 2 .allMsg).run (Lds.init : Lds Nat) [.sampling 0, .sampling 1] = some (s, o₁) ∧
    (driver 2 2 .allMsg).run s twoLidars = some (t, o₂) ∧ (storedOf 1 (o₁ ++ o₂)).length = 2 ∧
    withPoints (storedOf 1 (o₁ ++ o₂)) = publishedOf 1 (o₁ ++ o₂) := by
  have hrun : (((driver 2 2 .allMsg).run (Lds.init : Lds Nat) [.sampling 0, .sampling 1]).bind fun before =>
      ((driver 2 2 .allMsg).run before.1 twoLidars).map fun after =>
        ((before.1.lidars 1).sampling, (before.1.queue 1).contents.length, (storedOf 1 (before.2 ++ after.2)).length,
          (pollStep 2 .allMsg after.1).isNone, (storeStep 2 after.1).isNone, after.1.requestExit)) =
      some (true, 0, 2, true, true, false) := by decide +kernel
  obtain ⟨⟨s, o₁⟩, hbefore, hrest⟩ := Option.bind_eq_some_iff.1 hrun
  obtain ⟨⟨t, o₂⟩, hafter, heq⟩ := Option.map_eq_some_iff.1 hrest
  simp only [Prod.mk.injEq] at heq
  obtain ⟨hsampling, hempty, hstored, hasleep, hidle, hexit⟩ := heq
  exact ⟨s, t, o₁, o₂, hbefore, hafter, hstored, driver_no_lost_wakeup 2 2 .allMsg [.sampling 0, .sampling 1] twoLidars s t o₁ o₂
    hbefore hafter 1 (by decide) hsampling (List.eq_nil_of_length_eq_zero hempty) (Option.isNone_iff_eq_none.1 hasleep)
    (idle_iff.1 (Option.isNone_iff_eq_none.1 hidle)) hexit⟩

end Livox
end LfSentry
