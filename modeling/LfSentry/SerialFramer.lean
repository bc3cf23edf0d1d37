import LfSentry.SerialReceive
import LfSentry.SerialHandlers
/-!
# SerialFramer — what the receive thread does to the byte stream

The framer is the receive thread without the guard, the handlers and the counters: it takes the bytes of one `receive`
at a time and says which buffers it assembled and which of them went to the switch.  Every run of the threads in
which the driver does not fail is a run of the framer on the bytes read (`framer_of_link`), so what holds of the framer
for every splitting holds of the threads for every interleaving.
-/
namespace LfSentry
namespace Serial

inductive Phase where
  | hunt
  | header (start : Nat) (sof : U8)
  | data (start : Nat) (headerFrameBuf : List U8)
  | remain (start : Nat) (headerFrameBuf dataBuf : List U8) (receivedLenSum remainLen : Nat)
deriving DecidableEq

inductive FrameEvent where
  | assembled (start stop : Nat) (dataBuf : List U8)
  | dispatch (headerFrame : HeaderFrame) (dataBuf : List U8)
deriving DecidableEq

namespace Framer

def wants : Phase → Nat
  | .hunt => 1
  | .header _ _ => 3
  | .data _ headerFrameBuf => (headerFrameOf headerFrameBuf).len.toNat + 2
  | .remain _ _ _ _ remainLen => remainLen

def crc8Ok (headerFrameBuf : List U8) : Bool :=
  let h := headerFrameOf headerFrameBuf
  verifyCrc8CheckSum [h.sof, h.len, h.id, h.crc] sizeofHeaderFrame

def emit (debug : Bool) (start stop : Nat) (headerFrameBuf dataBuf : List U8) : List FrameEvent :=
  let h := headerFrameOf headerFrameBuf
  let buf := headerFrameBuf ++ dataBuf
  if !debug && h.id == idDebug then [.assembled start stop buf]
  else if !verifyCrc16CheckSum buf then [.assembled start stop buf]
  else [.assembled start stop buf, .dispatch h buf]

def more (debug : Bool) (start stop : Nat) (headerFrameBuf dataBuf : List U8) (receivedLenSum remainLen : Nat) :
    Phase × List FrameEvent :=
  if 0 < remainLen then (.remain start headerFrameBuf dataBuf receivedLenSum remainLen, [])
  else (.hunt, emit debug start stop headerFrameBuf dataBuf)

/-- One `receive`; `at_` is the stream offset of the first byte of `chunk`. -/
def feed (debug : Bool) (at_ : Nat) (chunk : List U8) : Phase → Phase × List FrameEvent
  | .hunt => if chunk.headD 0 = sofReceive then (.header at_ sofReceive, []) else (.hunt, [])
  | .header start sof =>
    let headerFrameBuf := sof :: fill (List.replicate 3 0) chunk
    if crc8Ok headerFrameBuf then (.data start headerFrameBuf, []) else (.hunt, [])
  | .data start headerFrameBuf =>
    let n := (headerFrameOf headerFrameBuf).len.toNat + 2
    more debug start (at_ + chunk.length) headerFrameBuf (fill (List.replicate n 0) chunk) chunk.length
      (n - chunk.length)
  | .remain start headerFrameBuf dataBuf receivedLenSum remainLen =>
    more debug start (at_ + chunk.length) headerFrameBuf
      (insertAt dataBuf receivedLenSum (fill (List.replicate remainLen 0) chunk)) (receivedLenSum + chunk.length)
      (remainLen - chunk.length)

def step (debug : Bool) (p : Phase × Nat) (chunk : List U8) : Option ((Phase × Nat) × List FrameEvent) :=
  if 1 ≤ chunk.length ∧ chunk.length ≤ wants p.1 then
    let r := feed debug p.2 chunk p.1
    some ((r.1, p.2 + chunk.length), r.2)
  else none

end Framer

/-- The framer; its labels are the bytes of one `receive` each. -/
def framer (debug : Bool) : Machine (Phase × Nat) (List U8) FrameEvent := ⟨Framer.step debug⟩

theorem framer_step {debug : Bool} {p q : Phase × Nat} {chunk : List U8} {es : List FrameEvent} :
    (framer debug).step p chunk = some (q, es) ↔
      (1 ≤ chunk.length ∧ chunk.length ≤ Framer.wants p.1) ∧
        q = ((Framer.feed debug p.2 chunk p.1).1, p.2 + chunk.length) ∧ es = (Framer.feed debug p.2 chunk p.1).2 := by
  simp only [framer, Framer.step]
  split
  · rename_i h
    simp only [Option.some.injEq, Prod.mk.injEq, h, and_self, true_and]
    exact ⟨fun ⟨h1, h2⟩ => ⟨h1.symm, h2.symm⟩, fun ⟨h1, h2⟩ => ⟨h1.symm, h2.symm⟩⟩
  · rename_i h
    simp [h]

/-! ## The threads run the framer -/

/-- The framer does not tell the head of the loop from the wait for a start byte. -/
def phaseOf : Pc → Phase
  | .top => .hunt
  | .sof => .hunt
  | .header start sof => .header start sof
  | .data start headerFrameBuf => .data start headerFrameBuf
  | .remain start headerFrameBuf dataBuf receivedLenSum remainLen =>
    .remain start headerFrameBuf dataBuf receivedLenSum remainLen

def framing : Event → Option FrameEvent
  | .assembled start stop buf => some (.assembled start stop buf)
  | .dispatch h buf => some (.dispatch h buf)
  | _ => none

def chunks : List Input → List (List U8)
  | [] => []
  | .read chunk :: is => chunk :: chunks is
  | _ :: is => chunks is

theorem flatten_chunks : ∀ is : List Input, (chunks is).flatten = bytesRead is
  | [] => rfl
  | .read chunk :: is => by rw [chunks, bytesRead, List.flatten_cons, flatten_chunks is]
  | .wake :: is => flatten_chunks is
  | .readFails :: is => flatten_chunks is
  | .protect _ :: is => flatten_chunks is
  | .sendFails :: is => flatten_chunks is
  | .paramSet :: is => flatten_chunks is

/-- The state and the events of a step, as the framer has them. -/
structure Frames (r : Sys × List Event) (debug : Bool) (taken : Nat) (q : Phase × List FrameEvent) : Prop where
  phase : phaseOf r.1.pc = q.1
  events : r.2.filterMap framing = q.2
  taken : r.1.taken = taken
  debug : r.1.node.debug = debug

theorem handle_frames (ros : Ros) (s : Sys) (p : Packet) :
    Frames (handle ros s p) s.node.debug s.taken (phaseOf s.pc, []) := by
  have hsp := spares_handlePacket ros p ⟨s.node, []⟩
  have hpub : ∀ ms : List Msg, (ms.map Event.published).filterMap framing = [] := fun ms => by
    rw [List.filterMap_map]; exact List.filterMap_eq_nil_iff.2 fun _ _ => rfl
  unfold handle
  cases hr : handlePacket ros p ⟨s.node, []⟩ with
  | ok a st => rw [hr] at hsp; exact ⟨rfl, hpub _, rfl, hsp.2⟩
  | error e st =>
    rw [hr] at hsp
    refine ⟨rfl, ?_, rfl, hsp.2⟩
    rw [List.filterMap_append, hpub]
    rfl

theorem finish_frames (ros : Ros) (s : Sys) (start : Nat) (headerFrameBuf dataBuf : List U8) :
    Frames (finish ros s start headerFrameBuf dataBuf) s.node.debug s.taken
      (.hunt, Framer.emit s.node.debug start s.taken headerFrameBuf dataBuf) := by
  have hbuf : insertAt dataBuf 0 headerFrameBuf = headerFrameBuf ++ dataBuf := by simp [insertAt]
  unfold finish Framer.emit
  simp only [hbuf]
  split
  · exact ⟨rfl, rfl, rfl, rfl⟩
  · split
    · exact ⟨rfl, rfl, rfl, rfl⟩
    · have h := handle_frames ros { s with pc := .top }
        (packetOf (headerFrameOf headerFrameBuf) (headerFrameBuf ++ dataBuf))
      refine ⟨h.phase, ?_, h.taken, h.debug⟩
      simp only [List.filterMap_cons, framing, h.events]

theorem refill_frames (ros : Ros) (s : Sys) (start : Nat) (headerFrameBuf dataBuf : List U8)
    (receivedLenSum remainLen : Nat) :
    Frames (refill ros s start headerFrameBuf dataBuf receivedLenSum remainLen) s.node.debug s.taken
      (Framer.more s.node.debug start s.taken headerFrameBuf dataBuf receivedLenSum remainLen) := by
  unfold refill Framer.more
  split
  · exact ⟨rfl, rfl, rfl, rfl⟩
  · exact finish_frames ros s start headerFrameBuf dataBuf

theorem onRead_frames (ros : Ros) (s : Sys) (chunk : List U8) (hpos : 1 ≤ chunk.length)
    (hlen : chunk.length ≤ s.pc.wants) :
    Frames (onRead ros s chunk) s.node.debug (s.taken + chunk.length)
      (Framer.feed s.node.debug s.taken chunk (phaseOf s.pc)) := by
  obtain ⟨node, pc, sofCount, retryCount, portOpen, guardLoops, taken⟩ := s
  cases pc with
  | top => exact absurd hpos (by simp only [Pc.wants] at hlen; omega)
  | sof =>
    obtain ⟨b, rfl⟩ : ∃ b, chunk = [b] := List.length_eq_one_iff.1 (Nat.le_antisymm hlen hpos)
    by_cases hb : b = sofReceive
    · subst hb
      exact ⟨rfl, rfl, rfl, rfl⟩
    · have hsof : (b != sofReceive) = true := by simpa using hb
      have hfeed : Framer.feed node.debug taken [b] (phaseOf .sof) = (.hunt, []) := if_neg hb
      have hread : onRead ros ⟨node, .sof, sofCount, retryCount, portOpen, guardLoops, taken⟩ [b] =
          (⟨node, .top, sofCount + 1, retryCount, portOpen, guardLoops, taken + 1⟩, []) := if_pos hsof
      rw [hfeed, hread]
      exact ⟨rfl, rfl, rfl, rfl⟩
  | header start sof =>
    have hfeed : Framer.feed node.debug taken chunk (phaseOf (.header start sof)) =
        if Framer.crc8Ok (sof :: fill (List.replicate 3 0) chunk)
        then (.data start (sof :: fill (List.replicate 3 0) chunk), []) else (.hunt, []) := rfl
    have hread : onRead ros ⟨node, .header start sof, sofCount, retryCount, portOpen, guardLoops, taken⟩ chunk =
        if !Framer.crc8Ok (sof :: fill (List.replicate 3 0) chunk)
        then (⟨node, .top, sofCount, retryCount, portOpen, guardLoops, taken + chunk.length⟩, [])
        else (⟨node, .data start (sof :: fill (List.replicate 3 0) chunk), sofCount, retryCount, portOpen, guardLoops,
          taken + chunk.length⟩, []) := rfl
    rw [hfeed, hread]
    cases Framer.crc8Ok (sof :: fill (List.replicate 3 0) chunk) with
    | false => exact ⟨rfl, rfl, rfl, rfl⟩
    | true => exact ⟨rfl, rfl, rfl, rfl⟩
  | data start headerFrameBuf =>
    exact refill_frames ros
      ⟨node, .data start headerFrameBuf, sofCount, retryCount, portOpen, guardLoops, taken + chunk.length⟩ _ _ _ _ _
  | remain start headerFrameBuf dataBuf receivedLenSum remainLen =>
    exact refill_frames ros
      ⟨node, .remain start headerFrameBuf dataBuf receivedLenSum remainLen, sofCount, retryCount, portOpen,
        guardLoops, taken + chunk.length⟩ _ _ _ _ _

def Sys.framer (s : Sys) : Phase × Nat := (phaseOf s.pc, s.taken)

theorem wants_eq {pc : Pc} (h : pc ≠ .top) : Framer.wants (phaseOf pc) = pc.wants := by
  cases pc with
  | top => exact absurd rfl h
  | _ => rfl

/-- **A `receive` that returns is a step of the framer.** -/
theorem read_step {ros : Ros} {s t : Sys} {chunk : List U8} {es : List Event}
    (h : step ros s (.read chunk) = some (t, es)) :
    (framer s.node.debug).step s.framer chunk = some (t.framer, es.filterMap framing) ∧
      t.node.debug = s.node.debug ∧ s.pc ≠ .top := by
  simp only [step] at h
  split at h
  · rename_i hc
    simp only [Option.some.injEq] at h
    have hf := onRead_frames ros s chunk hc.1 hc.2
    rw [h] at hf
    have hpc : s.pc ≠ .top := fun hp => by rw [hp] at hc; simp only [Pc.wants] at hc; omega
    refine ⟨framer_step.2 ⟨⟨hc.1, ?_⟩, ?_, hf.events⟩, hf.debug, hpc⟩
    · rw [Sys.framer, wants_eq hpc]; exact hc.2
    · rw [Sys.framer, hf.phase, hf.taken]; rfl
  · cases h

/-- **Every other step leaves the framer where it is**, unless the driver throws. -/
theorem quiet_step {ros : Ros} {s t : Sys} {i : Input} {es : List Event} (hread : ∀ chunk, i ≠ .read chunk)
    (hok : i ≠ .readFails) (h : step ros s i = some (t, es)) :
    t.framer = s.framer ∧ es.filterMap framing = [] ∧ t.node.debug = s.node.debug := by
  cases i with
  | wake =>
    simp only [step] at h
    split at h
    · rename_i hp
      split at h <;> simp only [Option.some.injEq, Prod.mk.injEq] at h <;> obtain ⟨rfl, rfl⟩ := h
      · exact ⟨rfl, rfl, rfl⟩
      · exact ⟨by simp only [Sys.framer, hp, phaseOf], rfl, rfl⟩
    · cases h
  | read chunk => exact absurd rfl (hread chunk)
  | readFails => exact absurd rfl hok
  | protect opens =>
    simp only [step, Option.some.injEq, onProtect] at h
    split at h
    · split at h <;> simp only [Prod.mk.injEq] at h <;> obtain ⟨rfl, rfl⟩ := h <;> exact ⟨rfl, rfl, rfl⟩
    · split at h
      · split at h <;> simp only [Prod.mk.injEq] at h <;> obtain ⟨rfl, rfl⟩ := h <;> refine ⟨rfl, ?_, rfl⟩ <;>
          cases s.portOpen <;> rfl
      · simp only [Prod.mk.injEq] at h
        obtain ⟨rfl, rfl⟩ := h
        exact ⟨rfl, rfl, rfl⟩
  | sendFails =>
    simp only [step, Option.some.injEq, Prod.mk.injEq] at h
    obtain ⟨rfl, rfl⟩ := h
    exact ⟨rfl, rfl, rfl⟩
  | paramSet =>
    simp only [step, Option.some.injEq, Prod.mk.injEq] at h
    obtain ⟨rfl, rfl⟩ := h
    exact ⟨rfl, rfl, rfl⟩

/-- **The framer refinement.**  A run of the threads in which the driver does not fail runs the framer on what
`receive` returned. -/
theorem framer_of_link {ros : Ros} : ∀ {is : List Input} {s t : Sys} {o : List Event}, DriverOk is →
    (link ros).run s is = some (t, o) →
      (framer s.node.debug).run s.framer (chunks is) = some (t.framer, o.filterMap framing)
  | [], s, t, o, _, hr => by
    simp only [Machine.run_nil, Option.some.injEq, Prod.mk.injEq] at hr
    obtain ⟨rfl, rfl⟩ := hr
    rfl
  | i :: is, s, u, o, hok, hr => by
    obtain ⟨t, es, o', hst, hr', rfl⟩ := Machine.run_cons.1 hr
    have ih := framer_of_link (fun j hj => hok j (List.mem_cons_of_mem i hj)) hr'
    have hfail : i ≠ .readFails := (hok i List.mem_cons_self).1
    rw [List.filterMap_append]
    by_cases hread : ∃ chunk, i = .read chunk
    · obtain ⟨chunk, rfl⟩ := hread
      obtain ⟨h1, h2, -⟩ := read_step hst
      rw [h2] at ih
      exact Machine.run_cons.2 ⟨_, _, _, h1, ih, rfl⟩
    · have hread' : ∀ chunk, i ≠ .read chunk := fun chunk hc => hread ⟨chunk, hc⟩
      obtain ⟨h1, h2, h3⟩ := quiet_step hread' hfail hst
      rw [h1, h3] at ih
      rw [h2, List.nil_append, show chunks (i :: is) = chunks is by cases i <;> first | rfl | exact absurd rfl (hread' _)]
      exact ih

/-- **A condition on the reads of the threads is one on the chunks of the framer.** -/
theorem along_framer_iff {ros : Ros} {P : Sys → Input → Prop} {Q : Phase × Nat → List U8 → Prop}
    (hread : ∀ s chunk, s.pc ≠ .top → (P s (.read chunk) ↔ Q s.framer chunk))
    (hquiet : ∀ s i, (∀ chunk, i ≠ .read chunk) → P s i) :
    ∀ {is : List Input} {s t : Sys} {o : List Event}, DriverOk is → (link ros).run s is = some (t, o) →
      ((link ros).Along P s is ↔ (framer s.node.debug).Along Q s.framer (chunks is))
  | [], _, _, _, _, _ => Iff.rfl
  | i :: is, s, u, o, hok, hr => by
    obtain ⟨t, es, o', hst, hr', rfl⟩ := Machine.run_cons.1 hr
    have ih := along_framer_iff hread hquiet (fun j hj => hok j (List.mem_cons_of_mem i hj)) hr'
    have hfail : i ≠ .readFails := (hok i List.mem_cons_self).1
    rw [Machine.along_cons_of_step hst, ih]
    by_cases hc : ∃ chunk, i = .read chunk
    · obtain ⟨chunk, rfl⟩ := hc
      obtain ⟨h1, h2, h3⟩ := read_step hst
      rw [hread s chunk h3, h2, chunks, Machine.along_cons_of_step h1]
    · have hc' : ∀ chunk, i ≠ .read chunk := fun chunk h => hc ⟨chunk, h⟩
      obtain ⟨h1, -, h3⟩ := quiet_step hc' hfail hst
      rw [h1, h3, show chunks (i :: is) = chunks is by cases i <;> first | rfl | exact absurd rfl (hc' _)]
      exact and_iff_right (hquiet s i hc')

def FullChunk (p : Phase × Nat) (chunk : List U8) : Prop := chunk.length = Framer.wants p.1

theorem along_full_iff {ros : Ros} {is : List Input} {s t : Sys} {o : List Event} (hok : DriverOk is)
    (hr : (link ros).run s is = some (t, o)) :
    (link ros).Along FullRead s is ↔ (framer s.node.debug).Along FullChunk s.framer (chunks is) := by
  refine along_framer_iff (fun s chunk hpc => ?_) (fun s i hi chunk hc => absurd hc (hi chunk)) hok hr
  unfold FullRead FullChunk Sys.framer
  rw [wants_eq hpc]
  exact ⟨fun h => h chunk rfl, fun h c hc => by cases hc; exact h⟩

def FullHeaderChunk (p : Phase × Nat) (chunk : List U8) : Prop :=
  ∀ start sof, p.1 = .header start sof → chunk.length = 3

theorem along_fullHeader_iff {ros : Ros} {is : List Input} {s t : Sys} {o : List Event} (hok : DriverOk is)
    (hr : (link ros).run s is = some (t, o)) :
    (link ros).Along FullHeaderRead s is ↔ (framer s.node.debug).Along FullHeaderChunk s.framer (chunks is) := by
  refine along_framer_iff (fun s chunk hpc => ?_) (fun s i hi chunk _ _ hc => absurd hc (hi chunk)) hok hr
  unfold FullHeaderRead FullHeaderChunk Sys.framer
  constructor
  · intro h start sof hp
    refine h chunk start sof rfl ?_
    cases hs : s.pc <;> rw [hs] at hp <;> cases hp
    rfl
  · intro h c start sof hc hp
    cases hc
    exact h start sof (by rw [hp]; rfl)

end Serial
end LfSentry
