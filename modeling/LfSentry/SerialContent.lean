import LfSentry.SerialLink
import LfSentry.SerialFrame
/-!
# SerialContent — what the contents of a packet can do to the link

The receive thread takes every exception for a broken port.  While the driver works, the link stays up exactly as long
as each packet that reaches the switch is one that its handler accepts.
-/
namespace LfSentry
namespace Serial

variable {ros : Ros}

/-- Nothing was caught and the port was not closed. -/
def Calm (es : List Event) : Prop := ∀ e ∈ es, (∀ x, e ≠ .caught x) ∧ e ≠ .portClosed

/-- The link is up from the first state of the run to the last. -/
structure StaysUp (ros : Ros) (s : Sys) (is : List Input) (t : Sys) (evs : List Event) : Prop where
  calm : Calm evs
  up : (link ros).Along (fun s _ => s.node.isUsbOk = true) s is
  upAtEnd : t.node.isUsbOk = true

/-- If the step hands a packet to the switch, its handler accepts it. -/
def AcceptsDispatched (ros : Ros) (s : Sys) (i : Input) : Prop :=
  ∀ t es, step ros s i = some (t, es) → ∀ h buf, .dispatch h buf ∈ es → Accepts ros s.node (packetOf h buf)

theorem calm_append {es es' : List Event} : Calm (es ++ es') ↔ Calm es ∧ Calm es' := List.forall_mem_append

theorem calm_nil : Calm [] := fun _ he => by cases he

theorem calm_singleton {e : Event} (hcaught : ∀ x, e ≠ .caught x) (hclosed : e ≠ .portClosed) : Calm [e] :=
  List.forall_mem_singleton.2 ⟨hcaught, hclosed⟩

theorem calm_assembled (start stop : Nat) (buf : List U8) : Calm [.assembled start stop buf] :=
  calm_singleton (by simp) (by simp)

theorem calm_published (ms : List Msg) : Calm (ms.map .published) := fun e he => by
  obtain ⟨m, -, rfl⟩ := List.mem_map.1 he
  exact ⟨by simp, by simp⟩

/-- **Handling a packet keeps the link up exactly when the handler accepts it.** -/
theorem handle_up_iff (ros : Ros) {s : Sys} (p : Packet) (husb : s.node.isUsbOk = true) :
    (Calm (handle ros s p).2 ∧ (handle ros s p).1.node.isUsbOk = true) ↔ Accepts ros s.node p := by
  rw [← handlePacket_returns_iff ⟨s.node, []⟩ p]
  have hsp := spares_handlePacket ros p ⟨s.node, []⟩
  unfold handle
  cases hr : handlePacket ros p ⟨s.node, []⟩ with
  | ok a st =>
    rw [hr] at hsp
    exact ⟨fun _ => ⟨a, st, hr⟩, fun _ => ⟨calm_published _, hsp.1.trans husb⟩⟩
  | error e st => exact ⟨fun h => absurd h.2 Bool.false_ne_true, fun h => absurd h (not_returns_error hr)⟩

theorem handle_no_dispatch (s : Sys) (p : Packet) (h : HeaderFrame) (buf : List U8) :
    .dispatch h buf ∉ (handle ros s p).2 := by
  have hpub : ∀ ms : List Msg, Event.dispatch h buf ∉ ms.map .published := fun ms hm => by
    obtain ⟨m, -, hm⟩ := List.mem_map.1 hm
    cases hm
  unfold handle
  split
  · exact hpub _
  · intro hm
    rcases List.mem_append.1 hm with hm | hm
    · exact hpub _ hm
    · cases List.mem_singleton.1 hm

theorem turn_up_iff {s : Sys} {r : Sys × List Event} (husb : s.node.isUsbOk = true) (ht : Turn ros s r) :
    (Calm r.2 ∧ r.1.node.isUsbOk = true) ↔ ∀ h buf, .dispatch h buf ∈ r.2 → Accepts ros s.node (packetOf h buf) := by
  cases ht with
  | idle t es hnode hport hguard hes =>
    refine ⟨fun _ h buf hd => ?_, fun _ => ⟨fun e he => ?_, by rw [hnode]; exact husb⟩⟩
    · obtain ⟨a, b, c, he⟩ := hes _ hd
      cases he
    · obtain ⟨a, b, c, rfl⟩ := hes e he
      exact calm_assembled a b c _ (List.mem_singleton_self _)
  | handled u start stop h buf hnode =>
    have hiff := handle_up_iff ros (packetOf h buf) (show u.node.isUsbOk = true by rw [hnode]; exact husb)
    rw [hnode] at hiff
    have hcalm : Calm (.assembled start stop buf :: .dispatch h buf :: (handle ros u (packetOf h buf)).2) ↔
        Calm (handle ros u (packetOf h buf)).2 := by
      exact ⟨fun hc e he => hc e (List.mem_cons_of_mem _ (List.mem_cons_of_mem _ he)), fun hc =>
        calm_append.2 ⟨calm_assembled start stop buf, calm_append.2 ⟨calm_singleton (by simp) (by simp), hc⟩⟩⟩
    rw [hcalm, hiff]
    refine ⟨fun ha h' buf' hd => ?_, fun ha => ha h buf (List.mem_cons_of_mem _ List.mem_cons_self)⟩
    simp only [List.mem_cons, reduceCtorEq, Event.dispatch.injEq, false_or] at hd
    rcases hd with ⟨rfl, rfl⟩ | hd
    · exact ha
    · exact absurd hd (handle_no_dispatch u _ h' buf')

/-- **One step keeps the link up exactly when the packet it hands on, if any, is accepted.** -/
theorem step_up_iff {s t : Sys} {i : Input} {es : List Event} (husb : s.node.isUsbOk = true)
    (hok : i ≠ .readFails ∧ i ≠ .sendFails ∧ i ≠ .protect false) (hst : step ros s i = some (t, es)) :
    (Calm es ∧ t.node.isUsbOk = true) ↔ AcceptsDispatched ros s i := by
  have hacc : AcceptsDispatched ros s i ↔ ∀ h buf, .dispatch h buf ∈ es → Accepts ros s.node (packetOf h buf) := by
    refine ⟨fun h => h t es hst, fun h t' es' hst' => ?_⟩
    rw [hst, Option.some.injEq, Prod.mk.injEq] at hst'
    exact hst'.2 ▸ h
  rw [hacc]
  have hquiet : es = [] → t.node.isUsbOk = true →
      ((Calm es ∧ t.node.isUsbOk = true) ↔ ∀ h buf, .dispatch h buf ∈ es → Accepts ros s.node (packetOf h buf)) := by
    rintro rfl ht
    exact iff_of_true ⟨calm_nil, ht⟩ fun _ _ hd => by cases hd
  cases i with
  | wake =>
    simp only [step, husb, Bool.not_true, Bool.false_eq_true, if_false] at hst
    split at hst
    · simp only [Option.some.injEq, Prod.mk.injEq] at hst
      exact hquiet hst.2.symm (hst.1 ▸ husb)
    · cases hst
  | read chunk =>
    simp only [step] at hst
    split at hst
    · rw [Option.some.injEq] at hst
      have ht := onRead_turn ros s chunk
      rw [hst] at ht
      exact turn_up_iff husb ht
    · cases hst
  | readFails => exact absurd rfl hok.1
  | sendFails => exact absurd rfl hok.2.1
  | protect opens =>
    simp only [step, Option.some.injEq, onProtect, husb, Bool.not_true, Bool.false_eq_true, if_false] at hst
    split at hst
    · split at hst
      · simp only [Prod.mk.injEq] at hst
        obtain ⟨rfl, rfl⟩ := hst
        exact iff_of_true ⟨calm_singleton (by simp) (by simp), rfl⟩ fun h buf hd => by simp at hd
      · simp only [Prod.mk.injEq] at hst
        exact hquiet hst.2.symm (hst.1 ▸ rfl)
    · simp only [Prod.mk.injEq] at hst
      exact hquiet hst.2.symm (hst.1 ▸ husb)
  | paramSet =>
    simp only [step, Option.some.injEq, Prod.mk.injEq] at hst
    exact hquiet hst.2.symm (hst.1 ▸ husb)

/-- **The link stays up exactly when every packet that reaches the switch is accepted**: in a run in which the driver
works, from any state in which the link is up. -/
theorem staysUp_iff (ros : Ros) : ∀ {is : List Input} {s t : Sys} {evs : List Event}, s.node.isUsbOk = true →
    DriverOk is → (link ros).run s is = some (t, evs) →
      (StaysUp ros s is t evs ↔ (link ros).Along (AcceptsDispatched ros) s is)
  | [], s, t, evs, husb, _, hr => by
    simp only [Machine.run_nil, Option.some.injEq, Prod.mk.injEq] at hr
    obtain ⟨rfl, rfl⟩ := hr
    exact iff_of_true ⟨calm_nil, trivial, husb⟩ trivial
  | i :: is, s, u, evs, husb, hok, hr => by
    obtain ⟨t, es, o', hst, hr', rfl⟩ := Machine.run_cons.1 hr
    obtain ⟨hi, his⟩ := List.forall_mem_cons.1 hok
    have hstep := step_up_iff husb hi hst
    have hsplit : StaysUp ros s (i :: is) u (es ++ o') ↔
        (Calm es ∧ t.node.isUsbOk = true) ∧ StaysUp ros t is u o' := by
      constructor
      · rintro ⟨hc, hup, hend⟩
        have hup' := ((Machine.along_cons_of_step hst).1 hup).2
        refine ⟨⟨(calm_append.1 hc).1, ?_⟩, (calm_append.1 hc).2, hup', hend⟩
        cases is with
        | nil =>
          simp only [Machine.run_nil, Option.some.injEq, Prod.mk.injEq] at hr'
          rw [hr'.1]
          exact hend
        | cons j js => exact hup'.1
      · rintro ⟨⟨hc, ht⟩, hc', hup, hend⟩
        exact ⟨calm_append.2 ⟨hc, hc'⟩, (Machine.along_cons_of_step hst).2 ⟨husb, hup⟩, hend⟩
    rw [hsplit, Machine.along_cons_of_step hst, ← hstep]
    exact and_congr_right fun h => staysUp_iff ros h.2 his hr'

/-- Robot info that names a chassis outside the table. -/
def unlistedChassis : Frame :=
  ⟨0x07, 0x03, 0x4f, [0x00, 0x00, 0x00, 0x00, 0x07, 0x00, 0x00], 0x57, 0x11, rfl, by decide, by decide⟩

theorem staysUp_iff_unlistedChassis :
    ∃ is t evs, bytesRead is = unlistedChassis.bytes ∧ (link .granting).run .started is = some (t, evs) ∧
      (StaysUp .granting .started is t evs ↔ (link .granting).Along (AcceptsDispatched .granting) .started is) :=
  ⟨[.wake, .read [0x5A], .read [0x07, 0x03, 0x4f], .read [0x00, 0x00, 0x00, 0x00, 0x07, 0x00, 0x00, 0x57, 0x11]],
    _, _, rfl, rfl, staysUp_iff .granting rfl (by decide) rfl⟩

/-- **A chassis outside the table takes the link down and has the port closed.** -/
theorem unlistedChassis_breaks_link :
    ∃ is t evs, DriverOk is ∧ bytesRead is = unlistedChassis.bytes ∧
      (link .granting).run .started is = some (t, evs) ∧ .caught .outOfRange ∈ evs ∧ .portClosed ∈ evs ∧
        ¬ StaysUp .granting .started is t evs := by
  refine ⟨[.wake, .read [0x5A], .read [0x07, 0x03, 0x4f],
    .read [0x00, 0x00, 0x00, 0x00, 0x07, 0x00, 0x00, 0x57, 0x11], .protect true], _, _, by decide, rfl, rfl, by decide,
    by decide, fun h => (h.calm .portClosed (by decide)).2 rfl⟩

end Serial
end LfSentry
