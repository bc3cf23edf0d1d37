import LfSentry.SerialLink
import LfSentry.SerialSplit
/-!
# SerialFraming — which frames of a stream come through

Two questions about a stream of good frames: what the size of the reads does to it, and, when every read is full,
whether each frame reaches the switch once and in order.
-/
namespace LfSentry
namespace Serial

variable {debug : Bool}

/-- The stretch of the stream and the bytes of each frame, from offset `t`. -/
def spans : Nat → List Frame → List (Nat × Nat × List U8)
  | _, [] => []
  | t, f :: fs => (t, t + f.bytes.length, f.bytes) :: spans (t + f.bytes.length) fs

def Frame.segment (f : Frame) : Segment := ⟨[], List.not_mem_nil, f⟩

theorem segments_reads : ∀ fs : List Frame, (fs.map Frame.segment).flatMap Segment.reads = fs.flatMap Frame.reads
  | [] => rfl
  | f :: fs => by rw [List.map_cons, List.flatMap_cons, List.flatMap_cons, segments_reads fs]; rfl

theorem segments_bytes : ∀ fs : List Frame, (fs.map Frame.segment).flatMap Segment.bytes = fs.flatMap Frame.bytes
  | [] => rfl
  | f :: fs => by rw [List.map_cons, List.flatMap_cons, List.flatMap_cons, segments_bytes fs]; rfl

theorem assembledIn_streamEvents : ∀ (fs : List Frame) (t : Nat),
    assembledIn (streamEvents debug t (fs.map Frame.segment)) = spans t fs
  | [], _ => rfl
  | f :: fs, t => by
    have hb : f.segment.bytes = f.bytes := rfl
    rw [List.map_cons, streamEvents, assembledIn_append, assembledIn_streamEvents fs, hb]
    rw [show t + f.segment.junk.length = t from rfl, show f.segment.frame = f from rfl, assembledIn_events]
    rfl

theorem fullRun_frames (debug : Bool) (fs : List Frame) (t : Nat) :
    FullRun debug (.hunt, t) (fs.flatMap Frame.reads) (.hunt, t + (fs.flatMap Frame.bytes).length)
      (streamEvents debug t (fs.map Frame.segment)) := by
  have h := fullRun_segments debug (fs.map Frame.segment) t
  rwa [segments_reads, segments_bytes] at h

theorem flatten_frame_reads (fs : List Frame) : (fs.flatMap Frame.reads).flatten = fs.flatMap Frame.bytes := by
  rw [← segments_reads, flatten_flatMap_reads, segments_bytes]

/-! ## The size of the reads -/

theorem split_sof {p : Phase × Nat} {cs : List (List U8)} {o : List FrameEvent} {bs : List U8} {t : Nat}
    (hr : (framer debug).run (.hunt, t) cs = some (p, o)) (hcs : cs.flatten = sofReceive :: bs) :
    ∃ cs', cs = [sofReceive] :: cs' ∧ cs'.flatten = bs ∧
      (framer debug).run (.header t sofReceive, t + 1) cs' = some (p, o) := by
  cases cs with
  | nil => cases hcs
  | cons c cs =>
    obtain ⟨q, es, o', hst, hr', rfl⟩ := Machine.run_cons.1 hr
    obtain ⟨⟨hpos, hle⟩, rfl, rfl⟩ := framer_step.1 hst
    obtain ⟨b, rfl⟩ : ∃ b, c = [b] := List.length_eq_one_iff.1 (Nat.le_antisymm hle hpos)
    rw [List.flatten_cons, List.singleton_append, List.cons.injEq] at hcs
    obtain ⟨rfl, hcs⟩ := hcs
    exact ⟨cs, rfl, hcs, hr'⟩

/-- The next read takes some of the header, the rest of which is taken as zero. -/
theorem split_header {p : Phase × Nat} {cs : List (List U8)} {o : List FrameEvent} {bs : List U8} {t : Nat}
    (hr : (framer debug).run (.header t sofReceive, t + 1) cs = some (p, o)) (hcs : cs.flatten = bs) (hbs : bs ≠ []) :
    ∃ c cs', cs = c :: cs' ∧ c.length ≤ 3 ∧ c ++ cs'.flatten = bs ∧
      (Framer.crc8Ok (sofReceive :: fill (List.replicate 3 0) c) = false ∧
          (framer debug).run (.hunt, t + 1 + c.length) cs' = some (p, o) ∨
        (framer debug).run (.data t (sofReceive :: fill (List.replicate 3 0) c), t + 1 + c.length) cs' =
          some (p, o)) := by
  cases cs with
  | nil => exact absurd hcs.symm hbs
  | cons c cs =>
    obtain ⟨q, es, o', hst, hr', rfl⟩ := Machine.run_cons.1 hr
    obtain ⟨⟨hpos, hle⟩, rfl, rfl⟩ := framer_step.1 hst
    refine ⟨c, cs, rfl, hle, by rw [← hcs, List.flatten_cons], ?_⟩
    simp only [Framer.feed] at hr' ⊢
    split at hr'
    · rename_i hok
      rw [if_pos hok]
      exact .inr hr'
    · rename_i hok
      rw [if_neg hok]
      exact .inl ⟨Bool.eq_false_iff.2 hok, hr'⟩

/-- **A frame whose buffer is assembled from its own stretch, byte for byte, was read whole.** -/
theorem frame_reads {f : Frame} {p : Phase × Nat} {cs : List (List U8)} {o : List FrameEvent} {bs : List U8} {t : Nat}
    {l : List (Nat × Nat × List U8)} (hr : (framer debug).run (.hunt, t) cs = some (p, o))
    (hcs : cs.flatten = f.bytes ++ bs) (ho : assembledIn o = (t, t + f.bytes.length, f.bytes) :: l) :
    ∃ cs', cs = f.reads ++ cs' := by
  obtain ⟨cs₁, rfl, hcs₁, hr₁⟩ := split_sof hr hcs
  obtain ⟨c, cs₂, rfl, hle, hcs₂, ⟨-, hr₂⟩ | hr₂⟩ := split_header hr₁ hcs₁ (by simp)
  · -- the header does not check: every later buffer starts behind this frame's first byte
    have hstart := start_le (Nat.le_refl _) hr₂ _ (ho ▸ List.mem_cons_self)
    simp only [begun] at hstart
    omega
  · rcases body_reads (.data t _) hr₂ with ⟨-, rfl⟩ | ⟨cs₃, cs₄, z, o₂, hc⟩
    · cases ho
    · rw [hc.events, assembledIn_append, assembledIn_emit, List.singleton_append, List.cons.injEq, Prod.mk.injEq,
        Prod.mk.injEq] at ho
      obtain ⟨⟨-, hstop, hbuf⟩, -⟩ := ho
      have hfill : (sofReceive :: fill (List.replicate 3 0) c).length = 4 := by simp [fill]; omega
      obtain ⟨hheader, hbody⟩ := List.append_inj hbuf (by rw [hfill]; rfl)
      -- where the buffer ends tells how much of the header was read
      have hlen := f.bytes_length
      rw [hheader] at hstop hc
      rw [f.wants_data] at hstop
      have hc3 : c.length = 3 := by omega
      obtain ⟨rfl, -⟩ := List.append_inj (hcs₂.trans (List.append_assoc [f.len, f.id, f.crc8] _ bs)) hc3
      have hz : z = 0 := by
        have h1 := congrArg List.length hbody
        have h2 := hc.length
        rw [f.wants_data] at h2
        rw [List.nil_append, List.length_append, List.length_replicate, h2, f.body_length] at h1
        omega
      subst hz
      rw [List.replicate_zero, List.append_nil, List.nil_append] at hbody
      refine ⟨cs₄, ?_⟩
      rw [hc.split, (hc.whole rfl).2, hbody]
      rfl

/-- **Frames that are all assembled from their own stretches were all read whole.** -/
theorem reads_of_assembled : ∀ {fs : List Frame} {t : Nat} {cs : List (List U8)} {p : Phase × Nat}
    {o : List FrameEvent}, (framer debug).run (.hunt, t) cs = some (p, o) → cs.flatten = fs.flatMap Frame.bytes →
      assembledIn o = spans t fs → cs = fs.flatMap Frame.reads
  | [], _, _, _, _, hr, hcs, _ => eq_nil_of_flatten hr hcs
  | f :: fs, t, cs, p, o, hr, hcs, ho => by
    obtain ⟨cs', rfl⟩ := frame_reads hr hcs ho
    obtain ⟨q, o₁, o₂, h1, h2, rfl⟩ := Machine.run_append.1 hr
    have hf := fullRun_frame debug t f
    rw [hf.run, Option.some.injEq, Prod.mk.injEq] at h1
    obtain ⟨rfl, rfl⟩ := h1
    rw [List.flatten_append, f.flatten_reads, List.flatMap_cons] at hcs
    rw [assembledIn_append, assembledIn_events, spans, List.singleton_append, List.cons.injEq] at ho
    rw [List.flatMap_cons, reads_of_assembled h2 (List.append_cancel_left hcs) ho.2]

/-- The frames of a stream come out of the receive thread as they do when every read is full: each is assembled, byte
for byte, from its own stretch, and the same packets reach the switch. -/
def FragmentationFree (ros : Ros) (s : Sys) (fs : List Frame) (evs : List Event) : Prop :=
  assembledOf evs = spans s.taken fs ∧
    ∀ is t evs', DriverOk is → bytesRead is = fs.flatMap Frame.bytes → (link ros).run s is = some (t, evs') →
      (link ros).Along FullRead s is → packetsOf evs = packetsOf evs'

theorem framer_of_top {ros : Ros} {s t : Sys} {is : List Input} {evs : List Event} (hpc : s.pc = .top)
    (hok : DriverOk is) (hr : (link ros).run s is = some (t, evs)) :
    (framer s.node.debug).run (.hunt, s.taken) (chunks is) = some (t.framer, evs.filterMap framing) := by
  have h := framer_of_link hok hr
  rwa [show s.framer = (.hunt, s.taken) by rw [Sys.framer, hpc]; rfl] at h

theorem fullRun_of_link {ros : Ros} {s t : Sys} {is : List Input} {evs : List Event} (hpc : s.pc = .top)
    (hok : DriverOk is) (hr : (link ros).run s is = some (t, evs)) (hfull : (link ros).Along FullRead s is) :
    FullRun s.node.debug (.hunt, s.taken) (chunks is) t.framer (evs.filterMap framing) := by
  refine ⟨framer_of_top hpc hok hr, ?_⟩
  have h := (along_full_iff hok hr).1 hfull
  rwa [show s.framer = (.hunt, s.taken) by rw [Sys.framer, hpc]; rfl] at h

/-- **The receive thread is independent of the splitting of a stream exactly when the stream is not split**: when each
frame arrives in three reads, of one, three and `len + 2` bytes. -/
theorem fragmentationFree_iff (ros : Ros) (fs : List Frame) {s t : Sys} {is : List Input} {evs : List Event}
    (hpc : s.pc = .top) (hok : DriverOk is) (hr : (link ros).run s is = some (t, evs))
    (hbytes : bytesRead is = fs.flatMap Frame.bytes) :
    FragmentationFree ros s fs evs ↔ chunks is = fs.flatMap Frame.reads := by
  have hrun := framer_of_top hpc hok hr
  constructor
  · intro h
    refine reads_of_assembled hrun (by rw [flatten_chunks, hbytes]) ?_
    rw [← assembledOf_eq]
    exact h.1
  · intro hreads
    have hfs := fullRun_frames s.node.debug fs s.taken
    rw [hreads, hfs.run, Option.some.injEq, Prod.mk.injEq] at hrun
    refine ⟨by rw [assembledOf_eq, ← hrun.2, assembledIn_streamEvents], ?_⟩
    intro is' t' evs' hok' hbytes' hr' hfull
    have hf' := fullRun_of_link hpc hok' hr' hfull
    have hsame := hf'.unique hfs (by rw [flatten_chunks, hbytes', flatten_frame_reads])
    have hrun' := hf'.run
    rw [hsame, hfs.run, Option.some.injEq, Prod.mk.injEq] at hrun'
    rw [packetsOf, packetsOf, dispatchedOf_eq, dispatchedOf_eq, ← hrun.2, ← hrun'.2]

/-- A frame without data, under an id that nothing handles. -/
def emptyFrame : Frame := ⟨0x00, 0x20, 0xe0, [], 0xa4, 0xce, rfl, by decide, by decide⟩

/-- A frame with the speed of a bullet, and one with events: the start byte is among the data of both. -/
def speedFrame : Frame :=
  ⟨0x08, 0x10, 0x28, [0xe8, 0x03, 0x5a, 0x00, 0x00, 0x00, 0x5a, 0x41], 0x91, 0xba, rfl, by decide, by decide⟩

def eventFrame : Frame := ⟨0x06, 0x04, 0x08, [0x5a, 0x5a, 0x00, 0x01, 0x02, 0x03], 0xb6, 0x49, rfl, by decide, by decide⟩

/-- Both frames, the data of the first in two reads. -/
def splitData : List Input := [.wake, .read [0x5A], .read [0x08, 0x10, 0x28], .read [0xe8, 0x03, 0x5a],
  .read [0x00, 0x00, 0x00, 0x5a, 0x41, 0x91, 0xba], .wake, .read [0x5A], .read [0x06, 0x04, 0x08],
  .read [0x5a, 0x5a, 0x00, 0x01, 0x02, 0x03, 0xb6, 0x49]]

theorem fragmentationFree_iff_splitData :
    ∃ t evs, (link .granting).run .started splitData = some (t, evs) ∧
      (FragmentationFree .granting .started [speedFrame, eventFrame] evs ↔
        chunks splitData = [speedFrame, eventFrame].flatMap Frame.reads) :=
  ⟨_, _, rfl, fragmentationFree_iff .granting [speedFrame, eventFrame] rfl (by decide) rfl rfl⟩

/-- **A header of which one byte comes first loses its frame.** -/
theorem fragmentation_short_header :
    ∃ is t evs, DriverOk is ∧ bytesRead is = [emptyFrame].flatMap Frame.bytes ∧
      (link .granting).run .started is = some (t, evs) ∧ ¬ FragmentationFree .granting .started [emptyFrame] evs :=
  ⟨[.wake, .read [0x5A], .read [0x00], .wake, .read [0x20], .wake, .read [0xe0], .wake, .read [0xa4], .wake,
      .read [0xce]], _, _, by decide, rfl, rfl, fun h => absurd h.1 (by decide)⟩

/-! ## Full headers -/

theorem dispatchedIn_events (t : Nat) (f : Frame) :
    dispatchedIn (f.events debug t) =
      if debug = true ∨ f.id ≠ idDebug then [(f.headerFrame, f.bytes)] else [] := by
  unfold Frame.events
  split <;> rfl

/-- The packets of the frames that the node does not drop for their id. -/
def packetsIn (debug : Bool) : List Frame → List Packet
  | [] => []
  | f :: fs => (if debug = true ∨ f.id ≠ idDebug then [f.packet] else []) ++ packetsIn debug fs

/-- The packet of a buffer does not depend on the zeros behind the frame. -/
theorem packets_emit_zeros (f : Frame) (t stop z : Nat) :
    (dispatchedIn (Framer.emit debug t stop f.headerBytes (f.data ++ f.trailer ++ List.replicate z 0))).map
      (fun p => packetOf p.1 p.2) = if debug = true ∨ f.id ≠ idDebug then [f.packet] else [] := by
  rw [f.emit_zeros]
  split
  · exact congrArg (fun p => [p]) (packetOf_append_zeros f.headerFrame f.bytes z)
  · rfl

/-- **However the data segments are split, full headers are enough for the packets.** -/
theorem packets_of_fullHeaders : ∀ {fs : List Frame} {t : Nat} {cs : List (List U8)} {p : Phase × Nat}
    {o : List FrameEvent}, (framer debug).run (.hunt, t) cs = some (p, o) →
      (framer debug).Along FullHeaderChunk (.hunt, t) cs → cs.flatten = fs.flatMap Frame.bytes →
        (dispatchedIn o).map (fun p => packetOf p.1 p.2) = packetsIn debug fs
  | [], t, cs, p, o, hr, _, hcs => by
    cases eq_nil_of_flatten hr hcs
    simp only [Machine.run_nil, Option.some.injEq, Prod.mk.injEq] at hr
    rw [← hr.2]
    rfl
  | f :: fs, t, cs, p, o, hr, hfull, hcs => by
    rw [List.flatMap_cons] at hcs
    obtain ⟨cs₁, rfl, hcs₁, hr₁⟩ := split_sof hr hcs
    have hfull₁ := (Machine.along_cons_of_step (step_sof debug t)).1 hfull
    obtain ⟨c, cs₂, rfl, hle, hcs₂, hnext⟩ := split_header hr₁ hcs₁ (by simp)
    have hc3 : c.length = 3 := hfull₁.2.1 t sofReceive rfl
    obtain ⟨rfl, hcs₃⟩ := List.append_inj (hcs₂.trans (List.append_assoc [f.len, f.id, f.crc8] _ _)) hc3
    rcases hnext with ⟨hbad, -⟩ | hr₂
    · exact absurd (hbad.symm.trans f.crc8Ok_headerBytes) (by decide)
    · have hfull₂ := (Machine.along_cons_of_step (step_header debug t f)).1 hfull₁.2
      rcases body_reads (.data t f.headerBytes) hr₂ with ⟨hshort, -⟩ | ⟨cs₃, cs₄, z, o₂, hc⟩
      · have hbody := f.body_length
        rw [hcs₃, List.length_append, f.wants_data] at hshort
        omega
      · have hbody : cs₃.flatten = f.data ++ f.trailer ∧ cs₄.flatten = fs.flatMap Frame.bytes := by
          rw [hc.split, List.flatten_append] at hcs₃
          exact List.append_inj hcs₃ (by rw [hc.length, f.body_length]; rfl)
        have hfull₄ := ((Machine.along_append hc.first).1 (hc.split ▸ hfull₂.2)).2
        rw [hc.events, dispatchedIn_append, List.map_append, packets_of_fullHeaders hc.rest hfull₄ hbody.2,
          List.nil_append, hbody.1, packets_emit_zeros, packetsIn]

/-- **Only a short read of a header can change which packets reach the switch.** -/
theorem packetsOf_of_fullHeaders (ros : Ros) (fs : List Frame) {s t : Sys} {is : List Input} {evs : List Event}
    (hpc : s.pc = .top) (hok : DriverOk is) (hr : (link ros).run s is = some (t, evs))
    (hbytes : bytesRead is = fs.flatMap Frame.bytes) (hfull : (link ros).Along FullHeaderRead s is) :
    packetsOf evs = packetsIn s.node.debug fs := by
  have hfull' := (along_fullHeader_iff hok hr).1 hfull
  rw [show s.framer = (.hunt, s.taken) by rw [Sys.framer, hpc]; rfl] at hfull'
  rw [packetsOf, dispatchedOf_eq]
  exact packets_of_fullHeaders (framer_of_top hpc hok hr) hfull' (by rw [flatten_chunks, hbytes])

/-! ## Full reads of a stream with other bytes in it -/

/-- The frames of the segments, and the bytes after the last of them. -/
def stream (gs : List Segment) (tail : List U8) : List U8 := gs.flatMap Segment.bytes ++ tail

theorem dispatchedIn_streamEvents : ∀ {gs : List Segment} (t : Nat), (∀ g ∈ gs, g.frame.id ≠ idDebug) →
    dispatchedIn (streamEvents debug t gs) = gs.map fun g => (g.frame.headerFrame, g.frame.bytes)
  | [], _, _ => rfl
  | g :: gs, t, h => by
    obtain ⟨hg, hgs⟩ := List.forall_mem_cons.1 h
    rw [streamEvents, dispatchedIn_append, dispatchedIn_streamEvents _ hgs, dispatchedIn_events, if_pos (Or.inr hg)]
    rfl

theorem fullRun_stream (debug : Bool) (gs : List Segment) {tail : List U8} (htail : sofReceive ∉ tail) (t : Nat) :
    FullRun debug (.hunt, t) (gs.flatMap Segment.reads ++ tail.map ([·])) (.hunt, t + (stream gs tail).length)
      (streamEvents debug t gs) := by
  have h := (fullRun_segments debug gs t).append (fullRun_junk _ htail)
  rw [List.append_nil, Nat.add_assoc, ← List.length_append] at h
  exact h

theorem flatten_stream_reads (gs : List Segment) (tail : List U8) :
    (gs.flatMap Segment.reads ++ tail.map ([·])).flatten = stream gs tail := by
  rw [List.flatten_append, flatten_flatMap_reads, flatten_map_singleton, stream]

/-- **Framing is lossless.**  With full reads, a stream of good frames between bytes that start none can be read to its
end by the receive thread alone; whatever else happens meanwhile, the buffers that have reached the switch are at all
times the first frames of the stream, in order, each once, and at its end they are all of them, with the thread looking
for the next frame right behind the stream. -/
theorem framing_lossless (ros : Ros) (gs : List Segment) (tail : List U8) (htail : sofReceive ∉ tail)
    (hid : ∀ g ∈ gs, g.frame.id ≠ idDebug) (hp : ∀ g ∈ gs, NeverThrows ros g.frame.packet) (s : Sys)
    (hpc : s.pc = .top) (husb : s.node.isUsbOk = true) :
    (∃ is t evs, OnlyReceives is ∧ (link ros).run s is = some (t, evs) ∧ (link ros).Along FullRead s is ∧
      bytesRead is = stream gs tail) ∧
    ∀ is t evs, DriverOk is → (link ros).run s is = some (t, evs) → (link ros).Along FullRead s is →
      (bytesRead is <+: stream gs tail →
        dispatchedOf evs <+: gs.map fun g => (g.frame.headerFrame, g.frame.bytes)) ∧
      (bytesRead is = stream gs tail →
        dispatchedOf evs = (gs.map fun g => (g.frame.headerFrame, g.frame.bytes)) ∧ phaseOf t.pc = .hunt ∧
          t.taken = s.taken + (stream gs tail).length) := by
  have hwhole := fullRun_stream s.node.debug gs htail s.taken
  have htop : s.framer = (.hunt, s.taken) := by rw [Sys.framer, hpc]; rfl
  constructor
  · have hthrow : ∀ h buf, .dispatch h buf ∈ streamEvents s.node.debug s.taken gs →
        NeverThrows ros (packetOf h buf) := by
      intro h buf he
      have hmem : (h, buf) ∈ dispatchedIn (streamEvents s.node.debug s.taken gs) :=
        List.mem_filterMap.2 ⟨_, he, rfl⟩
      rw [dispatchedIn_streamEvents _ hid, List.mem_map] at hmem
      obtain ⟨g, hg, heq⟩ := hmem
      simp only [Prod.mk.injEq] at heq
      obtain ⟨rfl, rfl⟩ := heq
      exact hp g hg
    obtain ⟨is, t, evs, hrec, hr, hcs⟩ := link_of_framer husb (by rw [htop]; exact hwhole.run) hthrow
    refine ⟨is, t, evs, hrec, hr, ?_, ?_⟩
    · rw [along_full_iff hrec.driverOk hr, htop, hcs]
      exact hwhole.full
    · rw [← flatten_chunks, hcs, flatten_stream_reads]
  · intro is t evs hok hr hfull
    have hrun := fullRun_of_link hpc hok hr hfull
    refine ⟨fun hpre => ?_, fun hall => ?_⟩
    · obtain ⟨-, rest, hrest⟩ := hrun.isPrefix hwhole (by rw [flatten_chunks, flatten_stream_reads]; exact hpre)
      rw [dispatchedOf_eq, ← dispatchedIn_streamEvents _ hid, ← hrest, dispatchedIn_append]
      exact List.prefix_append _ _
    · have hsame := hrun.unique hwhole (by rw [flatten_chunks, hall, flatten_stream_reads])
      have hrun' := hrun.run
      rw [hsame, hwhole.run, Option.some.injEq, Prod.mk.injEq] at hrun'
      obtain ⟨hend, hevs⟩ := hrun'
      rw [dispatchedOf_eq, ← hevs, dispatchedIn_streamEvents _ hid]
      exact ⟨rfl, (congrArg Prod.fst hend).symm, (congrArg Prod.snd hend).symm⟩

/-- The two frames with other bytes before them. -/
def withJunk : List Segment := [⟨[0x00, 0x07], by decide, speedFrame⟩, ⟨[0xff], by decide, eventFrame⟩]

theorem framing_lossless_withJunk :
    ∃ is t evs, OnlyReceives is ∧ (link .granting).run .started is = some (t, evs) ∧ bytesRead is = stream withJunk [0x01] ∧
      dispatchedOf evs = [(speedFrame.headerFrame, speedFrame.bytes), (eventFrame.headerFrame, eventFrame.bytes)] := by
  have hp : ∀ g ∈ withJunk, NeverThrows .granting g.frame.packet :=
    List.forall_mem_cons.2 ⟨fun _ => returns_publish _, List.forall_mem_singleton.2 fun _ => returns_publish _⟩
  obtain ⟨⟨is, t, evs, hrec, hr, hfull, hbytes⟩, hall⟩ :=
    framing_lossless .granting withJunk [0x01] (by decide) (by decide) hp .started rfl rfl
  exact ⟨is, t, evs, hrec, hr, hbytes, ((hall is t evs hrec.driverOk hr hfull).2 hbytes).1⟩

end Serial
end LfSentry
