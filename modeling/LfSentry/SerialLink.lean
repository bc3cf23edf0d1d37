import LfSentry.SerialFramer
/-!
# SerialLink — a turn of the receive thread, and the runs it can always make

A `receive` that returns either hands no packet on and leaves the node as it was, or ends its turn in the handler of one
packet (`onRead_turn`).  So as long as no handler throws, the thread can follow the framer through any stream
(`link_of_framer`).
-/
namespace LfSentry
namespace Serial

inductive Turn (ros : Ros) (s : Sys) : Sys × List Event → Prop
  | idle (t : Sys) (es : List Event) (hnode : t.node = s.node) (hport : t.portOpen = s.portOpen)
      (hguard : t.guardLoops = s.guardLoops) (hes : ∀ e ∈ es, ∃ start stop buf, e = .assembled start stop buf) :
      Turn ros s (t, es)
  | handled (u : Sys) (start stop : Nat) (h : HeaderFrame) (buf : List U8) (hnode : u.node = s.node)
      (hport : u.portOpen = s.portOpen) (hguard : u.guardLoops = s.guardLoops) :
      Turn ros s ((handle ros u (packetOf h buf)).1,
        .assembled start stop buf :: .dispatch h buf :: (handle ros u (packetOf h buf)).2)

theorem finish_turn (ros : Ros) (s : Sys) (start : Nat) (headerFrameBuf dataBuf : List U8) :
    Turn ros s (finish ros s start headerFrameBuf dataBuf) := by
  unfold finish
  dsimp only
  have hone : ∀ start stop buf, ∀ e ∈ [Event.assembled start stop buf], ∃ a b c, e = .assembled a b c :=
    fun start stop buf e he => ⟨start, stop, buf, List.mem_singleton.1 he⟩
  split
  · exact .idle _ _ rfl rfl rfl (hone _ _ _)
  · split
    · exact .idle _ _ rfl rfl rfl (hone _ _ _)
    · exact .handled { s with pc := .top } _ _ _ _ rfl rfl rfl

theorem refill_turn (ros : Ros) (s : Sys) (start : Nat) (headerFrameBuf dataBuf : List U8) (receivedLenSum remainLen : Nat) :
    Turn ros s (refill ros s start headerFrameBuf dataBuf receivedLenSum remainLen) := by
  unfold refill
  split
  · exact .idle _ _ rfl rfl rfl fun e he => by cases he
  · exact finish_turn ros s start headerFrameBuf dataBuf

theorem Turn.of_taken {ros : Ros} {s : Sys} {n : Nat} {r : Sys × List Event} (h : Turn ros { s with taken := n } r) :
    Turn ros s r := by
  cases h with
  | idle t es hnode hport hguard hes => exact .idle t es hnode hport hguard hes
  | handled u start stop h buf hnode hport hguard => exact .handled u start stop h buf hnode hport hguard

/-- **A turn handles one packet or none.** -/
theorem onRead_turn (ros : Ros) (s : Sys) (chunk : List U8) : Turn ros s (onRead ros s chunk) := by
  unfold onRead
  dsimp only
  have hnil : ∀ e ∈ ([] : List Event), ∃ a b c, e = .assembled a b c := fun e he => by cases he
  split
  · exact .idle _ _ rfl rfl rfl hnil
  · split
    · exact .idle _ _ rfl rfl rfl hnil
    · exact .idle _ _ rfl rfl rfl hnil
  · split
    · exact .idle _ _ rfl rfl rfl hnil
    · exact .idle _ _ rfl rfl rfl hnil
  · exact (refill_turn _ _ _ _ _ _ _).of_taken
  · exact (refill_turn _ _ _ _ _ _ _).of_taken

/-! ## Following the framer -/

/-- Handling the packet throws in no state of the node. -/
def NeverThrows (ros : Ros) (p : Packet) : Prop := ∀ st, Returns (handlePacket ros p) st

variable {ros : Ros}

theorem handle_usb {s : Sys} {p : Packet} (hp : NeverThrows ros p) :
    (handle ros s p).1.node.isUsbOk = s.node.isUsbOk := by
  obtain ⟨a, st', hst⟩ := hp ⟨s.node, []⟩
  have hsp := spares_handlePacket ros p ⟨s.node, []⟩
  rw [hst] at hsp
  unfold handle
  rw [hst]
  exact hsp.1

theorem onRead_usb {s : Sys} {chunk : List U8}
    (hp : ∀ h buf, .dispatch h buf ∈ (onRead ros s chunk).2 → NeverThrows ros (packetOf h buf)) :
    (onRead ros s chunk).1.node.isUsbOk = s.node.isUsbOk := by
  generalize hr : onRead ros s chunk = r at hp
  have ht := onRead_turn ros s chunk
  rw [hr] at ht
  cases ht with
  | idle t es hnode => rw [hnode]
  | handled u start stop h buf hnode =>
    rw [handle_usb (hp h buf (List.mem_cons_of_mem _ List.mem_cons_self)), hnode]

theorem mem_framing {es : List Event} {h : HeaderFrame} {buf : List U8} :
    .dispatch h buf ∈ es ↔ .dispatch h buf ∈ es.filterMap framing := by
  rw [List.mem_filterMap]
  constructor
  · exact fun he => ⟨_, he, rfl⟩
  · rintro ⟨e, he, hf⟩
    cases e <;> simp only [framing, Option.some.injEq, reduceCtorEq, FrameEvent.dispatch.injEq] at hf
    obtain ⟨rfl, rfl⟩ := hf
    exact he

theorem read_of_framer {s : Sys} {chunk : List U8} {q : Phase × Nat} {o : List FrameEvent} (hpc : s.pc ≠ .top)
    (hst : (framer s.node.debug).step s.framer chunk = some (q, o))
    (hp : ∀ h buf, .dispatch h buf ∈ o → NeverThrows ros (packetOf h buf)) :
    ∃ t es, (link ros).step s (.read chunk) = some (t, es) ∧ t.framer = q ∧ t.node.isUsbOk = s.node.isUsbOk ∧
      t.node.debug = s.node.debug := by
  have hlen := (framer_step.1 hst).1
  rw [show s.framer.1 = phaseOf s.pc from rfl, wants_eq hpc] at hlen
  have hstep : step ros s (.read chunk) = some (onRead ros s chunk) := if_pos hlen
  obtain ⟨h1, h2, -⟩ := read_step hstep
  rw [hst, Option.some.injEq, Prod.mk.injEq] at h1
  refine ⟨_, _, hstep, h1.1.symm, onRead_usb fun h buf he => hp h buf ?_, h2⟩
  rw [h1.2]
  exact mem_framing.1 he

/-- The receive thread alone moves, and its `receive` calls return. -/
def OnlyReceives (is : List Input) : Prop := ∀ i ∈ is, i = .wake ∨ ∃ chunk, i = .read chunk

theorem OnlyReceives.driverOk {is : List Input} (h : OnlyReceives is) : DriverOk is := fun i hi => by
  rcases h i hi with rfl | ⟨chunk, rfl⟩ <;> exact ⟨nofun, nofun, nofun⟩

/-- **The receive thread follows the framer through every stream whose packets no handler throws at.** -/
theorem link_of_framer : ∀ {cs : List (List U8)} {s : Sys} {q : Phase × Nat} {o : List FrameEvent},
    s.node.isUsbOk = true → (framer s.node.debug).run s.framer cs = some (q, o) →
      (∀ h buf, .dispatch h buf ∈ o → NeverThrows ros (packetOf h buf)) →
        ∃ is t evs, OnlyReceives is ∧ (link ros).run s is = some (t, evs) ∧ chunks is = cs
  | [], s, q, o, _, _, _ => ⟨[], s, [], nofun, rfl, rfl⟩
  | c :: cs, s, q, o, husb, hr, hp => by
    obtain ⟨p, es, o', hst, hr', rfl⟩ := Machine.run_cons.1 hr
    have hp₁ : ∀ h buf, .dispatch h buf ∈ es → NeverThrows ros (packetOf h buf) := fun h buf he =>
      hp h buf (List.mem_append_left _ he)
    have hp₂ : ∀ h buf, .dispatch h buf ∈ o' → NeverThrows ros (packetOf h buf) := fun h buf he =>
      hp h buf (List.mem_append_right _ he)
    by_cases hpc : s.pc = .top
    · -- at the head of its loop the thread first finds the link up
      have hwake : (link ros).step s .wake = some ({ s with pc := .sof }, []) := by
        simp only [link, step, hpc, husb, if_true, Bool.not_true, Bool.false_eq_true, if_false]
      have hst' : (framer s.node.debug).step (Sys.framer { s with pc := .sof }) c = some (p, es) := by
        rw [show Sys.framer { s with pc := .sof } = s.framer by simp only [Sys.framer, hpc, phaseOf]]
        exact hst
      obtain ⟨t, evs, h1, rfl, h3, h4⟩ := read_of_framer (s := { s with pc := .sof }) (by simp) hst' hp₁
      rw [← show t.node.debug = s.node.debug from h4] at hr'
      obtain ⟨is, u, evs', hok, hrun, hcs⟩ := link_of_framer (h3.trans husb) hr' hp₂
      refine ⟨.wake :: .read c :: is, u, _, ?_,
        Machine.run_cons.2 ⟨_, _, _, hwake, Machine.run_cons.2 ⟨_, _, _, h1, hrun, rfl⟩, rfl⟩, by rw [← hcs]; rfl⟩
      exact List.forall_mem_cons.2 ⟨.inl rfl, List.forall_mem_cons.2 ⟨.inr ⟨c, rfl⟩, hok⟩⟩
    · obtain ⟨t, evs, h1, rfl, h3, h4⟩ := read_of_framer hpc hst hp₁
      rw [← h4] at hr'
      obtain ⟨is, u, evs', hok, hrun, hcs⟩ := link_of_framer (h3.trans husb) hr' hp₂
      exact ⟨.read c :: is, u, _, List.forall_mem_cons.2 ⟨.inr ⟨c, rfl⟩, hok⟩,
        Machine.run_cons.2 ⟨_, _, _, h1, hrun, rfl⟩, by rw [← hcs]; rfl⟩

end Serial
end LfSentry
