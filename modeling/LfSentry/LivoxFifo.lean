import LfSentry.LivoxDriver
import Mathlib.Data.Nat.Log
/-!
# LivoxFifo — no packet is lost, doubled, torn or overtaken between the two threads

For each lidar: what has been published, then the packet in hand, then what the queue holds, is what has been stored, in
order.  The writer fills the next free slot while the reader copies the oldest one; neither sees the other at work.
-/
namespace LfSentry
namespace Livox

variable {P : Type}

/-! ## The size of the queue -/

theorem roundupFrom_eq (size : UInt32) (fuel i : Nat) (h : i + fuel = 32) :
    ∃ k < 32, (roundupFrom size i fuel).toNat = 2 ^ k := by
  have hpow : ∀ k < 32, ((1 : UInt32) <<< UInt32.ofNat k).toNat = 2 ^ k := by decide
  induction fuel generalizing i with
  | zero => exact ⟨31, by decide, by rw [roundupFrom, show i = 32 by omega]; exact hpow 31 (by decide)⟩
  | succ fuel ih =>
    rw [roundupFrom]
    split
    · exact ⟨i, by omega, hpow i (by omega)⟩
    · exact ih (i + 1) (by omega)

/-- **Whatever size is asked for, the queue gets a power of two.** -/
theorem mask_initSize (queueSize : UInt32) : Ring.Mask (initSize queueSize - 1) := by
  obtain ⟨k, hk, hsize⟩ : ∃ k < 32, (initSize queueSize).toNat = 2 ^ k := by
    unfold initSize
    split
    · rename_i hpow
      simp only [isPowerOf2, decide_eq_true_eq] at hpow
      obtain ⟨hne, hand⟩ := hpow
      have hpos : queueSize.toNat ≠ 0 := fun h0 => hne (UInt32.toNat_inj.1 h0)
      have hsub : (queueSize - 1).toNat = queueSize.toNat - 1 := by
        have hone : (1 : UInt32) ≤ queueSize := UInt32.le_iff_toNat_le.2 (Nat.one_le_iff_ne_zero.2 hpos)
        rw [UInt32.toNat_sub_of_le _ _ hone]
        rfl
      have hnat := congrArg UInt32.toNat hand
      rw [UInt32.toNat_and, hsub] at hnat
      obtain ⟨k, hk⟩ := (Nat.and_sub_one_eq_zero_iff_isPowerOfTwo hpos).1 hnat
      have hlt := UInt32.toNat_lt queueSize
      rw [hk] at hlt
      exact ⟨k, (Nat.pow_lt_pow_iff_right (by decide)).1 hlt, hk⟩
    · exact roundupFrom_eq queueSize 32 0 rfl
  have hpos := Nat.two_pow_pos k
  have hone : (1 : UInt32) ≤ initSize queueSize := UInt32.le_iff_toNat_le.2 (by rw [hsize]; exact hpos)
  refine ⟨k, hk, ?_⟩
  rw [UInt32.toNat_sub_of_le _ _ hone, hsize]
  rfl

/-! ## One lane -/

/-- What has been stored for a lidar. -/
def storedOf (i : Nat) (o : List (Note P)) : List (StoragePacket P) :=
  o.filterMap fun
    | .stored j packet => if j = i then some packet else none
    | .published _ _ => none

/-- What has been published for a lidar. -/
def publishedOf (i : Nat) (o : List (Note P)) : List (StoragePacket P) :=
  o.filterMap fun
    | .stored _ _ => none
    | .published j packet => if j = i then some packet else none

/-- Packets without points are popped and not published. -/
def withPoints (l : List (StoragePacket P)) : List (StoragePacket P) := l.filter fun packet => !packet.points.isEmpty

/-- The packet that a lidar's reader has popped and not dealt with yet. -/
def Polling.inHand (i : Nat) : Polling P → List (StoragePacket P)
  | .publish j pkg => if j = i then [pkg] else []
  | _ => []

/-- What the writer relies on for a lidar whose queue holds these packets. -/
def Storing.Fits (i : Nat) (q : LidarDataQueue P) (held : List (StoragePacket P)) : Storing P → Prop
  | .zeroRd j _ | .zeroWr j _ | .setSize j _ | .setMask j _ => j = i → held = [] ∧ q.rdIdx = 0 ∧ q.wrIdx = 0
  | .writeTime j _ => j = i → held.length < Ring.capacity q.mask
  | .writeNum j packet => j = i → held.length < Ring.capacity q.mask ∧ q.wrSlot.baseTime = packet.baseTime
  | .writePoints j packet => j = i → held.length < Ring.capacity q.mask ∧ q.wrSlot.baseTime = packet.baseTime ∧
      q.wrSlot.pointsNum = packet.points.length
  | .bump j packet => j = i → held.length < Ring.capacity q.mask ∧ q.storagePacket ≠ none ∧
      q.wrSlot = ⟨packet.baseTime, packet.points.length, packet.points⟩
  | _ => True

/-- What the reader relies on. -/
def Polling.Fits (i : Nat) (held : List (StoragePacket P)) : Polling P → Prop
  | .readTime j => j = i → held ≠ []
  | .readNum j baseTime => j = i → ∃ a rest, held = a :: rest ∧ baseTime = a.baseTime
  | .readPoints j baseTime pointsNum => j = i → ∃ a rest, held = a :: rest ∧ baseTime = a.baseTime ∧ pointsNum = a.pointsNum
  | .update j pkg => j = i → ∃ rest, held = pkg :: rest
  | _ => True

/-- What holds of a lidar between any two steps, after everything noted so far. -/
structure Lane (i : Nat) (q : LidarDataQueue P) (storing : Storing P) (polling : Polling P) (o : List (Note P))
    (held : List (StoragePacket P)) : Prop where
  holds : Ring.Holds q.mask q.rdIdx q.wrIdx q.slot held
  bare : q.storagePacket = none → held = [] ∧ q.rdIdx = 0 ∧ q.wrIdx = 0
  whole : ∀ a ∈ held, a.pointsNum = a.points.length
  writer : storing.Fits i q held
  reader : polling.Fits i held
  flow : withPoints (storedOf i o) = publishedOf i o ++ withPoints (polling.inHand i ++ held)

variable {i : Nat} {q q' : LidarDataQueue P} {storing storing' : Storing P} {polling polling' : Polling P} {o : List (Note P)}
  {held : List (StoragePacket P)}

/-- The writer goes on without touching the queue of the lidar. -/
theorem Lane.stores (h : Lane i q storing polling o held) (hfits : storing'.Fits i q held) :
    Lane i q storing' polling o held :=
  ⟨h.holds, h.bare, h.whole, hfits, h.reader, h.flow⟩

/-- The reader goes on without touching the queue of the lidar. -/
theorem Lane.polls (h : Lane i q storing polling o held) (hfits : polling'.Fits i held)
    (hhand : polling'.inHand i = polling.inHand i) : Lane i q storing polling' o held :=
  ⟨h.holds, h.bare, h.whole, h.writer, hfits, by rw [hhand]; exact h.flow⟩

/-- A write to the next free slot. -/
theorem Lane.write (h : Lane i q storing polling o held) (hroom : held.length < Ring.capacity q.mask) (packet : StoragePacket P)
    (hfits : storing'.Fits i (q.write packet) held) : Lane i (q.write packet) storing' polling o held where
  holds := h.holds.write hroom packet
  bare hnone := by cases hnone
  whole := h.whole
  writer := hfits
  reader := h.reader
  flow := h.flow

@[simp] theorem wrSlot_write (packet : StoragePacket P) : (q.write packet).wrSlot = packet := Function.update_self _ _ _

@[simp] theorem mask_write (packet : StoragePacket P) : (q.write packet).mask = q.mask := rfl

@[simp] theorem storedOf_append (i : Nat) (o es : List (Note P)) : storedOf i (o ++ es) = storedOf i o ++ storedOf i es :=
  List.filterMap_append

@[simp] theorem publishedOf_append (i : Nat) (o es : List (Note P)) :
    publishedOf i (o ++ es) = publishedOf i o ++ publishedOf i es := List.filterMap_append

@[simp] theorem withPoints_append (k l : List (StoragePacket P)) : withPoints (k ++ l) = withPoints k ++ withPoints l := List.filter_append ..

/-- What the reader relies on survives what is added at the end. -/
theorem Polling.Fits.append (h : polling.Fits i held) (l : List (StoragePacket P)) : polling.Fits i (held ++ l) := by
  cases polling with
  | readTime j => exact fun hj hnil => h hj (List.append_eq_nil_iff.1 hnil).1
  | readNum j baseTime =>
    intro hj
    obtain ⟨a, rest, rfl, ht⟩ := h hj
    exact ⟨a, rest ++ l, rfl, ht⟩
  | readPoints j baseTime pointsNum =>
    intro hj
    obtain ⟨a, rest, rfl, ht⟩ := h hj
    exact ⟨a, rest ++ l, rfl, ht⟩
  | update j pkg =>
    intro hj
    obtain ⟨rest, rfl⟩ := h hj
    exact ⟨rest ++ l, rfl⟩
  | _ => trivial

/-- What the writer relies on survives that the oldest packet is taken. -/
theorem Storing.Fits.pop {a : StoragePacket P} (h : storing.Fits i q (a :: held)) :
    storing.Fits i q.popUpdate held := by
  cases storing with
  | zeroRd j packet | zeroWr j packet | setSize j packet | setMask j packet =>
    exact fun hj => absurd (h hj).1 (List.cons_ne_nil _ _)
  | writeTime j packet => exact fun hj => (Nat.lt_succ_self _).trans (h hj)
  | writeNum j packet => exact fun hj => ⟨(Nat.lt_succ_self _).trans (h hj).1, (h hj).2⟩
  | writePoints j packet => exact fun hj => ⟨(Nat.lt_succ_self _).trans (h hj).1, (h hj).2⟩
  | bump j packet => exact fun hj => ⟨(Nat.lt_succ_self _).trans (h hj).1, (h hj).2⟩
  | _ => trivial

/-- A queue that is being set up holds nothing. -/
theorem Lane.fresh (h : Lane i q storing polling o []) (hmask : Ring.Mask q'.mask) (hrd : q'.rdIdx = 0) (hwr : q'.wrIdx = 0)
    (hfits : storing'.Fits i q' []) : Lane i q' storing' polling o [] where
  holds := by
    rw [hrd, hwr]
    exact Ring.Holds.nil hmask _ _
  bare _ := ⟨rfl, hrd, hwr⟩
  whole := h.whole
  writer := hfits
  reader := h.reader
  flow := h.flow

/-- **The packet that is written whole comes into the queue.** -/
theorem Lane.push {packet : PointPacket P} (h : Lane i q (.bump i packet) polling o held) :
    Lane i q.bump (.checkEmpty i) polling (o ++ [.stored i ⟨packet.baseTime, packet.points.length, packet.points⟩])
      (held ++ [⟨packet.baseTime, packet.points.length, packet.points⟩]) := by
  obtain ⟨hroom, hstorage, hslot⟩ := h.writer rfl
  refine ⟨?_, fun hnone => absurd hnone hstorage, fun a ha => ?_, trivial, h.reader.append _, ?_⟩
  · rw [← hslot]
    exact h.holds.push hroom
  · rcases List.mem_append.1 ha with ha | ha
    · exact h.whole a ha
    · rw [List.mem_singleton.1 ha]
  · have hstored : storedOf i [Note.stored i (⟨packet.baseTime, packet.points.length, packet.points⟩ : StoragePacket P)] =
        [⟨packet.baseTime, packet.points.length, packet.points⟩] := by simp [storedOf]
    have hpublished : publishedOf i [Note.stored i (⟨packet.baseTime, packet.points.length, packet.points⟩ : StoragePacket P)] =
        [] := by simp [publishedOf]
    rw [storedOf_append, hstored, withPoints_append, h.flow, publishedOf_append, hpublished, List.append_nil]
    simp

/-- **The oldest packet comes out of the queue.** -/
theorem Lane.pop {pkg : StoragePacket P} {rest : List (StoragePacket P)} (h : Lane i q storing (.update i pkg) o (pkg :: rest)) :
    Lane i q.popUpdate storing (.publish i pkg) o rest where
  holds := h.holds.pop
  bare hnone := absurd (h.bare hnone).1 (List.cons_ne_nil _ _)
  whole a ha := h.whole a (List.mem_cons_of_mem _ ha)
  writer := h.writer.pop
  reader := trivial
  flow := by
    rw [h.flow]
    simp [Polling.inHand]

/-! ## The steps -/

/-- What holds between any two steps, of every lidar. -/
def Lanes (s : Lds P) (o : List (Note P)) : Prop := ∀ i, ∃ held, Lane i (s.queue i) s.storing s.polling o held

variable {s t : Lds P} {es : List (Note P)}

theorem queue_setQueue (s : Lds P) (j i : Nat) (d : LidarDataQueue P) :
    (s.setQueue j d).queue i = if i = j then d else s.queue i := by
  by_cases h : i = j
  · subst h
    simp [Lds.setQueue, Lds.queue]
  · simp [Lds.setQueue, Lds.queue, h]

/-- The notes of a step that are about another lidar. -/
theorem Lane.note (h : Lane i q storing polling o held) (hstored : storedOf i es = []) (hpublished : publishedOf i es = []) :
    Lane i q storing polling (o ++ es) held :=
  ⟨h.holds, h.bare, h.whole, h.writer, h.reader, by
    rw [storedOf_append, publishedOf_append, hstored, hpublished, List.append_nil, List.append_nil]
    exact h.flow⟩

/-- The writer works on the queue of one lidar. -/
theorem Lanes.write {j : Nat} {d : LidarDataQueue P} (h : Lanes s o)
    (hj : ∀ held, Lane j (s.queue j) s.storing s.polling o held → ∃ held', Lane j d storing' s.polling (o ++ es) held')
    (hother : ∀ i q held, j ≠ i → storing'.Fits i q held)
    (hnotes : ∀ i, j ≠ i → storedOf i es = [] ∧ publishedOf i es = []) :
    Lanes { s.setQueue j d with storing := storing' } (o ++ es) := by
  intro i
  obtain ⟨held, hl⟩ := h i
  change ∃ held, Lane i ((s.setQueue j d).queue i) storing' s.polling (o ++ es) held
  rw [queue_setQueue]
  split
  · rename_i hij
    subst hij
    exact hj held hl
  · rename_i hij
    obtain ⟨hstored, hpublished⟩ := hnotes i (Ne.symm hij)
    exact ⟨held, (hl.stores (hother i _ _ (Ne.symm hij))).note hstored hpublished⟩

/-- The writer goes on. -/
theorem Lanes.goOn (h : Lanes s o)
    (hfits : ∀ i held, Lane i (s.queue i) s.storing s.polling o held → storing'.Fits i (s.queue i) held) :
    Lanes { s with storing := storing' } (o ++ []) := by
  intro i
  obtain ⟨held, hl⟩ := h i
  rw [List.append_nil]
  exact ⟨held, hl.stores (hfits i held hl)⟩

/-- **A step of the thread that stores.** -/
theorem lanes_storeStep {queueSize : UInt32} (h : Lanes s o) (hst : storeStep queueSize s = some (t, es)) :
    Lanes t (o ++ es) := by
  unfold storeStep at hst
  cases hs : s.storing with
  | idle => simp [hs] at hst
  | called j packet =>
    rw [hs] at hst
    dsimp only at hst
    split at hst
    · rename_i hnone
      obtain ⟨rfl, rfl⟩ := Prod.mk.inj (Option.some.inj hst)
      refine h.write (fun held hl => ?_) (fun i q held hne hj => absurd hj hne) fun _ _ => ⟨rfl, rfl⟩
      obtain ⟨rfl, hrd, hwr⟩ := hl.bare (Option.isNone_iff_eq_none.1 hnone)
      rw [List.append_nil]
      exact ⟨[], hl.fresh hl.holds.masked hrd hwr fun _ => ⟨rfl, hrd, hwr⟩⟩
    · obtain ⟨rfl, rfl⟩ := Prod.mk.inj (Option.some.inj hst)
      exact h.goOn fun _ _ _ => trivial
  | zeroRd j packet | zeroWr j packet | setSize j packet =>
    rw [hs] at hst
    obtain ⟨rfl, rfl⟩ := Prod.mk.inj (Option.some.inj hst)
    refine h.write (fun held hl => ?_) (fun i q held hne hj => absurd hj hne) fun _ _ => ⟨rfl, rfl⟩
    rw [hs] at hl
    obtain ⟨rfl, hrd, hwr⟩ := hl.writer rfl
    rw [List.append_nil]
    first
    | exact ⟨[], hl.fresh hl.holds.masked rfl hwr fun _ => ⟨rfl, rfl, hwr⟩⟩
    | exact ⟨[], hl.fresh hl.holds.masked hrd rfl fun _ => ⟨rfl, hrd, rfl⟩⟩
    | exact ⟨[], hl.fresh hl.holds.masked hrd hwr fun _ => ⟨rfl, hrd, hwr⟩⟩
  | setMask j packet =>
    rw [hs] at hst
    obtain ⟨rfl, rfl⟩ := Prod.mk.inj (Option.some.inj hst)
    refine h.write (fun held hl => ?_) (fun _ _ _ _ => trivial) fun _ _ => ⟨rfl, rfl⟩
    rw [hs] at hl
    obtain ⟨rfl, hrd, hwr⟩ := hl.writer rfl
    rw [List.append_nil]
    exact ⟨[], hl.fresh (mask_initSize queueSize) hrd hwr trivial⟩
  | checkFull j packet =>
    rw [hs] at hst
    dsimp only at hst
    split at hst
    · obtain ⟨rfl, rfl⟩ := Prod.mk.inj (Option.some.inj hst)
      exact h.goOn fun _ _ _ => trivial
    · rename_i hfull
      obtain ⟨rfl, rfl⟩ := Prod.mk.inj (Option.some.inj hst)
      refine h.goOn fun i held hl hij => ?_
      subst hij
      have hne : held.length ≠ Ring.capacity (s.queue j).mask := fun heq =>
        hfull (decide_eq_true (hl.holds.full_iff.2 heq))
      exact lt_of_le_of_ne hl.holds.length_le hne
  | writeTime j packet =>
    rw [hs] at hst
    obtain ⟨rfl, rfl⟩ := Prod.mk.inj (Option.some.inj hst)
    refine h.write (fun held hl => ?_) (fun i q held hne hj => absurd hj hne) fun _ _ => ⟨rfl, rfl⟩
    rw [hs] at hl
    rw [List.append_nil]
    exact ⟨held, hl.write (hl.writer rfl) _ fun _ => ⟨hl.writer rfl, by simp⟩⟩
  | writeNum j packet =>
    rw [hs] at hst
    obtain ⟨rfl, rfl⟩ := Prod.mk.inj (Option.some.inj hst)
    refine h.write (fun held hl => ?_) (fun i q held hne hj => absurd hj hne) fun _ _ => ⟨rfl, rfl⟩
    rw [hs] at hl
    obtain ⟨hroom, htime⟩ := hl.writer rfl
    rw [List.append_nil]
    exact ⟨held, hl.write hroom _ fun _ => ⟨hroom, by simp [htime], by simp⟩⟩
  | writePoints j packet =>
    rw [hs] at hst
    obtain ⟨rfl, rfl⟩ := Prod.mk.inj (Option.some.inj hst)
    refine h.write (fun held hl => ?_) (fun i q held hne hj => absurd hj hne) fun _ _ => ⟨rfl, rfl⟩
    rw [hs] at hl
    obtain ⟨hroom, htime, hnum⟩ := hl.writer rfl
    rw [List.append_nil]
    exact ⟨held, hl.write hroom _ fun _ => ⟨hroom, Option.some_ne_none _, by simp [htime, hnum]⟩⟩
  | bump j packet =>
    rw [hs] at hst
    obtain ⟨rfl, rfl⟩ := Prod.mk.inj (Option.some.inj hst)
    refine h.write (fun held hl => ?_) (fun _ _ _ _ => trivial) fun i hne => ⟨by simp [storedOf, hne], by simp [publishedOf]⟩
    rw [hs] at hl
    exact ⟨_, hl.push⟩
  | checkEmpty j =>
    rw [hs] at hst
    dsimp only at hst
    split at hst <;>
      obtain ⟨rfl, rfl⟩ := Prod.mk.inj (Option.some.inj hst) <;>
      exact h.goOn fun _ _ _ => trivial
  | checkCount =>
    rw [hs] at hst
    dsimp only at hst
    split at hst <;>
      obtain ⟨rfl, rfl⟩ := Prod.mk.inj (Option.some.inj hst) <;>
      exact h.goOn fun _ _ _ => trivial
  | signal =>
    rw [hs] at hst
    obtain ⟨rfl, rfl⟩ := Prod.mk.inj (Option.some.inj hst)
    exact h.goOn fun _ _ _ => trivial

/-- The reader goes on. -/
theorem Lanes.reads (h : Lanes s o)
    (hfits : ∀ i held, Lane i (s.queue i) s.storing s.polling o held → polling'.Fits i held)
    (hhand : ∀ i, polling'.inHand i = s.polling.inHand i) : Lanes { s with polling := polling' } (o ++ []) := by
  intro i
  obtain ⟨held, hl⟩ := h i
  rw [List.append_nil]
  exact ⟨held, hl.polls (hfits i held hl) (hhand i)⟩

/-- What the reader finds in its slot. -/
theorem rdSlot_eq {a : StoragePacket P} {rest : List (StoragePacket P)} (h : Lane i q storing polling o (a :: rest)) :
    q.rdSlot = a := h.holds.head

/-- **A step of the thread that polls.** -/
theorem lanes_pollStep {lidarCount : Nat} {transferFormat : TransferType} (h : Lanes s o)
    (hst : pollStep lidarCount transferFormat s = some (t, es)) : Lanes t (o ++ es) := by
  unfold pollStep at hst
  cases hs : s.polling with
  | enter =>
    rw [hs] at hst
    dsimp only at hst
    split at hst <;> obtain ⟨rfl, rfl⟩ := Prod.mk.inj (Option.some.inj hst)
    · rwa [List.append_nil]
    · exact h.reads (fun _ _ _ => trivial) fun _ => by rw [hs]; rfl
  | wait =>
    rw [hs] at hst
    dsimp only at hst
    split at hst
    · obtain ⟨rfl, rfl⟩ := Prod.mk.inj (Option.some.inj hst)
      exact h.reads (fun _ _ _ => trivial) fun _ => by rw [hs]; rfl
    · cases hst
  | lidar j | storage j | outer j | queued j | inner j =>
    rw [hs] at hst
    dsimp only at hst
    split_ifs at hst <;> obtain ⟨rfl, rfl⟩ := Prod.mk.inj (Option.some.inj hst) <;>
      exact h.reads (fun _ _ _ => trivial) fun _ => by rw [hs]; rfl
  | prePop j =>
    rw [hs] at hst
    dsimp only at hst
    split_ifs at hst with hempty <;> obtain ⟨rfl, rfl⟩ := Prod.mk.inj (Option.some.inj hst)
    · exact h.reads (fun _ _ _ => trivial) fun _ => by rw [hs]; rfl
    · refine h.reads (fun i held hl hij hnil => hempty ?_) fun _ => by rw [hs]; rfl
      subst hij
      exact decide_eq_true (hl.holds.empty_iff.2 hnil)
  | readTime j =>
    rw [hs] at hst
    obtain ⟨rfl, rfl⟩ := Prod.mk.inj (Option.some.inj hst)
    refine h.reads (fun i held hl hij => ?_) fun _ => by rw [hs]; rfl
    subst hij
    have hne := hl.reader
    rw [hs] at hne
    obtain ⟨a, rest, rfl⟩ := List.exists_cons_of_ne_nil (hne rfl)
    exact ⟨a, rest, rfl, by rw [rdSlot_eq hl]⟩
  | readNum j baseTime =>
    rw [hs] at hst
    obtain ⟨rfl, rfl⟩ := Prod.mk.inj (Option.some.inj hst)
    refine h.reads (fun i held hl hij => ?_) fun _ => by rw [hs]; rfl
    subst hij
    have hr := hl.reader
    rw [hs] at hr
    obtain ⟨a, rest, rfl, ht⟩ := hr rfl
    exact ⟨a, rest, rfl, ht, by rw [rdSlot_eq hl]⟩
  | readPoints j baseTime pointsNum =>
    rw [hs] at hst
    obtain ⟨rfl, rfl⟩ := Prod.mk.inj (Option.some.inj hst)
    refine h.reads (fun i held hl hij => ?_) fun _ => by rw [hs]; rfl
    subst hij
    have hr := hl.reader
    rw [hs] at hr
    obtain ⟨a, rest, rfl, rfl, rfl⟩ := hr rfl
    refine ⟨rest, ?_⟩
    rw [rdSlot_eq hl]
    obtain ⟨baseTime, pointsNum, points⟩ := a
    obtain rfl : pointsNum = points.length := hl.whole _ List.mem_cons_self
    rw [List.take_length]
  | update j pkg =>
    rw [hs] at hst
    obtain ⟨rfl, rfl⟩ := Prod.mk.inj (Option.some.inj hst)
    intro i
    obtain ⟨held, hl⟩ := h i
    rw [hs] at hl
    rw [List.append_nil]
    change ∃ held, Lane i ((s.setQueue j (s.queue j).popUpdate).queue i) s.storing (.publish j pkg) o held
    rw [queue_setQueue]
    split
    · rename_i hij
      subst hij
      obtain ⟨rest, rfl⟩ := hl.reader rfl
      exact ⟨rest, hl.pop⟩
    · rename_i hij
      exact ⟨held, hl.polls trivial (if_neg (Ne.symm hij))⟩
  | publish j pkg =>
    rw [hs] at hst
    obtain ⟨rfl, rfl⟩ := Prod.mk.inj (Option.some.inj hst)
    intro i
    obtain ⟨held, hl⟩ := h i
    rw [hs] at hl
    refine ⟨held, hl.holds, hl.bare, hl.whole, hl.writer, trivial, ?_⟩
    have hflow := hl.flow
    by_cases hij : j = i
    · rw [storedOf_append, publishedOf_append, withPoints_append, hflow]
      cases hp : pkg.points.isEmpty <;> simp [Polling.inHand, hij, hp, withPoints, storedOf, publishedOf]
    · rw [storedOf_append, publishedOf_append, withPoints_append, hflow]
      cases pkg.points.isEmpty <;> simp [Polling.inHand, hij, withPoints, storedOf, publishedOf]

/-- **Every step keeps every lane.** -/
theorem lanes_step {lidarCount : Nat} {queueSize : UInt32} {transferFormat : TransferType} {a : Act P} (h : Lanes s o)
    (hst : (driver lidarCount queueSize transferFormat).step s a = some (t, es)) : Lanes t (o ++ es) := by
  cases a with
  | call j packet =>
    simp only [driver] at hst
    split at hst
    · split at hst
      · obtain ⟨rfl, rfl⟩ := Prod.mk.inj (Option.some.inj hst)
        exact h.goOn fun _ _ _ => trivial
      · cases hst
    · cases hst
  | store => exact lanes_storeStep h hst
  | poll => exact lanes_pollStep h hst
  | sampling j =>
    obtain ⟨rfl, rfl⟩ := Prod.mk.inj (Option.some.inj hst)
    intro i
    obtain ⟨held, hl⟩ := h i
    rw [List.append_nil]
    refine ⟨held, ?_⟩
    by_cases hij : i = j
    · subst hij
      simpa [Lds.queue] using hl
    · simpa [Lds.queue, hij] using hl
  | exit =>
    obtain ⟨rfl, rfl⟩ := Prod.mk.inj (Option.some.inj hst)
    rw [List.append_nil]
    exact h

theorem lanes_init : Lanes (Lds.init : Lds P) [] := fun _ =>
  ⟨[], Ring.Holds.nil ⟨0, by decide, rfl⟩ _ _, fun _ => ⟨rfl, rfl, rfl⟩, fun _ ha => absurd ha List.not_mem_nil, trivial, trivial, rfl⟩

/-- What the counters say the queue holds is what it holds. -/
theorem contents_eq (h : Lane i q storing polling o held) : q.contents = held := by
  refine List.ext_getElem ?_ fun k hk hk' => ?_
  · rw [LidarDataQueue.contents, List.length_map, List.length_range, LidarDataQueue.usedSize, h.holds.used]
  · simp only [LidarDataQueue.contents, List.getElem_map, List.getElem_range]
    exact h.holds.getElem k hk'

/-- **In every interleaving of the two threads, whatever the size asked for: for each lidar the packets published, the one in
hand and those in the queue are the packets stored, in order, each as it was written; and the queue never holds more than it
has slots.** -/
theorem driver_fifo (lidarCount : Nat) (queueSize : UInt32) (transferFormat : TransferType) (acts : List (Act P)) (s : Lds P)
    (o : List (Note P)) (hrun : (driver lidarCount queueSize transferFormat).run Lds.init acts = some (s, o)) (i : Nat) :
    withPoints (storedOf i o) = publishedOf i o ++ withPoints (s.polling.inHand i ++ (s.queue i).contents) ∧
      (s.queue i).contents.length ≤ (s.queue i).mask.toNat + 1 := by
  have hlanes := Machine.inv_said_of_run (I := Lanes) (fun s a t es h hl hst => lanes_step hl hst) lanes_init hrun
  obtain ⟨held, hl⟩ := hlanes i
  rw [contents_eq hl]
  exact ⟨hl.flow, hl.holds.length_le⟩

/-- Three packets for a queue of two slots, stored while others are read: the third comes into the slot of the first. -/
def threePackets : List (Act Nat) :=
  .sampling 0 :: .call 0 ⟨5, [7]⟩ :: List.replicate 13 .store ++
    .call 0 ⟨6, [8, 9]⟩ :: (List.replicate 9 [.poll, .store]).flatten ++ List.replicate 3 .poll ++
    .call 0 ⟨7, [3]⟩ :: (List.replicate 8 [.store, .poll]).flatten

theorem driver_fifo_threePackets : ∃ s o, (driver 1 2 .allMsg).run (Lds.init : Lds Nat) threePackets = some (s, o) ∧
    (storedOf 0 o).length = 3 ∧ (publishedOf 0 o).length = 2 ∧
    withPoints (storedOf 0 o) = publishedOf 0 o ++ withPoints (s.polling.inHand 0 ++ (s.queue 0).contents) := by
  have hrun : ((driver 1 2 .allMsg).run (Lds.init : Lds Nat) threePackets).map
      (fun r => ((storedOf 0 r.2).length, (publishedOf 0 r.2).length)) = some (3, 2) := by decide +kernel
  obtain ⟨⟨s, o⟩, h, hcounts⟩ := Option.map_eq_some_iff.1 hrun
  obtain ⟨hstored, hpublished⟩ := Prod.mk.inj hcounts
  exact ⟨s, o, h, hstored, hpublished, (driver_fifo 1 2 .allMsg threePackets s o h 0).1⟩

end Livox
end LfSentry
