import LfSentry.SerialFramer
/-!
# SerialFrame — the frames of the link and the full read of a stream of them

A frame carries the proofs of its length and of its two check sequences.  A stream is a list of frames, each after some
bytes that are no start byte.  Full reads of a stream are determined by it (`FullRun.unique`), so one run tells them
all.
-/
namespace LfSentry
namespace Serial

structure Frame where
  len : U8
  id : U8
  crc8 : U8
  data : List U8
  crc16Lo : U8
  crc16Hi : U8
  data_len : data.length = len.toNat
  crc8_ok : verifyCrc8CheckSum [sofReceive, len, id, crc8] sizeofHeaderFrame = true
  crc16_ok : verifyCrc16CheckSum ([sofReceive, len, id, crc8] ++ (data ++ [crc16Lo, crc16Hi])) = true

namespace Frame

def headerBytes (f : Frame) : List U8 := [sofReceive, f.len, f.id, f.crc8]

def trailer (f : Frame) : List U8 := [f.crc16Lo, f.crc16Hi]

def bytes (f : Frame) : List U8 := f.headerBytes ++ (f.data ++ f.trailer)

def headerFrame (f : Frame) : HeaderFrame := ⟨sofReceive, f.len, f.id, f.crc8⟩

def reads (f : Frame) : List (List U8) := [[sofReceive], [f.len, f.id, f.crc8], f.data ++ f.trailer]

def packet (f : Frame) : Packet := packetOf f.headerFrame f.bytes

/-- What the framer says of the frame when it is read whole from offset `t`. -/
def events (debug : Bool) (t : Nat) (f : Frame) : List FrameEvent :=
  .assembled t (t + f.bytes.length) f.bytes ::
    if debug = true ∨ f.id ≠ idDebug then [.dispatch f.headerFrame f.bytes] else []

theorem body_length (f : Frame) : (f.data ++ f.trailer).length = f.len.toNat + 2 := by
  rw [List.length_append, f.data_len]
  rfl

theorem bytes_length (f : Frame) : f.bytes.length = f.len.toNat + 6 := by
  rw [bytes, List.length_append, f.body_length]
  exact Nat.add_comm 4 _

theorem flatten_reads (f : Frame) : f.reads.flatten = f.bytes := by
  simp [reads, bytes, headerBytes]

theorem headerFrameOf_headerBytes (f : Frame) : headerFrameOf f.headerBytes = f.headerFrame := rfl

theorem crc8Ok_headerBytes (f : Frame) : Framer.crc8Ok f.headerBytes = true := f.crc8_ok

theorem wants_data (f : Frame) (t : Nat) : Framer.wants (.data t f.headerBytes) = f.len.toNat + 2 := rfl

/-- **A complete frame passes its checks**, with any zeros behind it. -/
theorem emit_zeros (f : Frame) (debug : Bool) (t stop z : Nat) :
    Framer.emit debug t stop f.headerBytes (f.data ++ f.trailer ++ List.replicate z 0) =
      .assembled t stop (f.bytes ++ List.replicate z 0) ::
        if debug = true ∨ f.id ≠ idDebug then [.dispatch f.headerFrame (f.bytes ++ List.replicate z 0)] else [] := by
  have hbuf : f.headerBytes ++ (f.data ++ f.trailer ++ List.replicate z 0) = f.bytes ++ List.replicate z 0 := by
    simp only [bytes, List.append_assoc]
  have hcrc : verifyCrc16CheckSum (f.bytes ++ List.replicate z 0) = true := by
    have h := verifyCrc16CheckSum_zeros (f.headerBytes ++ f.data) f.crc16Lo f.crc16Hi (by simp [headerBytes])
    rw [List.append_assoc] at h
    exact h f.crc16_ok z
  unfold Framer.emit
  simp only [headerFrameOf_headerBytes, hbuf, hcrc]
  by_cases hid : f.id = idDebug
  · have hh : (f.headerFrame.id == idDebug) = true := beq_iff_eq.2 hid
    simp only [hh, hid]
    cases debug <;> rfl
  · have hh : (f.headerFrame.id == idDebug) = false := beq_eq_false_iff_ne.2 hid
    rw [hh, if_pos (Or.inr hid), Bool.and_false]
    rfl

theorem emit_eq (f : Frame) (debug : Bool) (t : Nat) :
    Framer.emit debug t (t + f.bytes.length) f.headerBytes (f.data ++ f.trailer) = f.events debug t := by
  have h := f.emit_zeros debug t (t + f.bytes.length) 0
  rw [List.replicate_zero, List.append_nil, List.append_nil] at h
  exact h

end Frame

/-- A frame and the bytes before it, none of which starts one. -/
structure Segment where
  junk : List U8
  quiet : sofReceive ∉ junk
  frame : Frame

namespace Segment

def bytes (g : Segment) : List U8 := g.junk ++ g.frame.bytes

def reads (g : Segment) : List (List U8) := g.junk.map ([·]) ++ g.frame.reads

end Segment

/-- The frames of a stream, each read whole, from offset `t`. -/
def streamEvents (debug : Bool) : Nat → List Segment → List FrameEvent
  | _, [] => []
  | t, g :: gs => g.frame.events debug (t + g.junk.length) ++ streamEvents debug (t + g.bytes.length) gs

/-! ## Full reads -/

/-- A run of the framer in which every read is full. -/
structure FullRun (debug : Bool) (p : Phase × Nat) (cs : List (List U8)) (q : Phase × Nat) (o : List FrameEvent) :
    Prop where
  run : (framer debug).run p cs = some (q, o)
  full : (framer debug).Along FullChunk p cs

namespace FullRun

variable {debug : Bool} {p q r : Phase × Nat} {cs cs' : List (List U8)} {o o' : List FrameEvent}

theorem nil (p : Phase × Nat) : FullRun debug p [] p [] := ⟨rfl, trivial⟩

theorem cons {c : List U8} {es : List FrameEvent} (hst : (framer debug).step p c = some (q, es)) (hc : FullChunk p c)
    (h : FullRun debug q cs r o) : FullRun debug p (c :: cs) r (es ++ o) :=
  ⟨Machine.run_cons.2 ⟨_, _, _, hst, h.run, rfl⟩, (Machine.along_cons_of_step hst).2 ⟨hc, h.full⟩⟩

theorem append (h : FullRun debug p cs q o) (h' : FullRun debug q cs' r o') :
    FullRun debug p (cs ++ cs') r (o ++ o') :=
  ⟨Machine.run_append.2 ⟨q, o, o', h.run, h'.run, rfl⟩, (Machine.along_append h.run).2 ⟨h.full, h'.full⟩⟩

end FullRun

theorem chunk_pos {debug : Bool} {p q : Phase × Nat} {c : List U8} {cs : List (List U8)} {o : List FrameEvent}
    (hr : (framer debug).run p (c :: cs) = some (q, o)) : 1 ≤ c.length := by
  obtain ⟨t, es, o', hst, -, -⟩ := Machine.run_cons.1 hr
  exact (framer_step.1 hst).1.1

theorem eq_nil_of_flatten {debug : Bool} {p q : Phase × Nat} {cs : List (List U8)} {o : List FrameEvent}
    (hr : (framer debug).run p cs = some (q, o)) (h : cs.flatten = []) : cs = [] := by
  cases cs with
  | nil => rfl
  | cons c cs =>
    have hpos := chunk_pos hr
    rw [List.flatten_cons, List.append_eq_nil_iff] at h
    rw [h.1] at hpos
    exact absurd hpos (by decide)

/-- **Full reads of a first part of a stream are the first of the full reads of the stream.** -/
theorem FullRun.isPrefix {debug : Bool} : ∀ {cs cs' : List (List U8)} {p q q' : Phase × Nat}
    {o o' : List FrameEvent}, FullRun debug p cs q o → FullRun debug p cs' q' o' → cs.flatten <+: cs'.flatten →
      cs <+: cs' ∧ o <+: o'
  | [], _, _, _, _, _, _, h, _, _ => by
    have hr := h.run
    simp only [Machine.run_nil, Option.some.injEq, Prod.mk.injEq] at hr
    rw [← hr.2]
    exact ⟨List.nil_prefix, List.nil_prefix⟩
  | _ :: _, [], _, _, _, _, _, h, _, he => nomatch eq_nil_of_flatten h.run (List.prefix_nil.1 he)
  | c :: cs, c' :: cs', p, q, q', o, o', h, h', he => by
    obtain ⟨t, es, o₁, hst, hr, rfl⟩ := Machine.run_cons.1 h.run
    obtain ⟨t', es', o₁', hst', hr', rfl⟩ := Machine.run_cons.1 h'.run
    have hf := (Machine.along_cons_of_step hst).1 h.full
    have hf' := (Machine.along_cons_of_step hst').1 h'.full
    obtain ⟨bs, hbs⟩ := he
    rw [List.flatten_cons, List.flatten_cons, List.append_assoc] at hbs
    obtain ⟨rfl, hrest⟩ := List.append_inj hbs (hf.1.trans hf'.1.symm)
    rw [hst, Option.some.injEq, Prod.mk.injEq] at hst'
    obtain ⟨rfl, rfl⟩ := hst'
    obtain ⟨h1, h2⟩ := FullRun.isPrefix ⟨hr, hf.2⟩ ⟨hr', hf'.2⟩ ⟨bs, hrest⟩
    exact ⟨(List.prefix_cons_inj c).2 h1, (List.prefix_append_right_inj es).2 h2⟩

/-- **Full reads are determined by the bytes.** -/
theorem FullRun.unique {debug : Bool} {cs cs' : List (List U8)} {p q q' : Phase × Nat} {o o' : List FrameEvent}
    (h : FullRun debug p cs q o) (h' : FullRun debug p cs' q' o') (he : cs.flatten = cs'.flatten) : cs = cs' := by
  obtain ⟨⟨ds, rfl⟩, -⟩ := h.isPrefix h' (he ▸ List.prefix_refl _)
  obtain ⟨t, o₁, o₂, -, hr, -⟩ := Machine.run_append.1 h'.run
  rw [List.flatten_append, List.self_eq_append_right] at he
  rw [eq_nil_of_flatten hr he, List.append_nil]

theorem fullRun_junk {debug : Bool} : ∀ {js : List U8} (t : Nat), sofReceive ∉ js →
    FullRun debug (.hunt, t) (js.map ([·])) (.hunt, t + js.length) []
  | [], t, _ => .nil _
  | j :: js, t, h => by
    have hj : j ≠ sofReceive := fun hj => h (hj ▸ List.mem_cons_self)
    have hst : (framer debug).step (.hunt, t) [j] = some ((.hunt, t + 1), []) :=
      framer_step.2 ⟨⟨Nat.le_refl 1, Nat.le_refl 1⟩, by rw [show Framer.feed debug t [j] .hunt = _ from if_neg hj]; rfl,
        by rw [show Framer.feed debug t [j] .hunt = _ from if_neg hj]⟩
    have hc := FullRun.cons hst rfl (fullRun_junk (t + 1) fun hm => h (List.mem_cons_of_mem j hm))
    rwa [Nat.add_assoc, Nat.add_comm 1] at hc

theorem step_sof (debug : Bool) (t : Nat) :
    (framer debug).step (.hunt, t) [sofReceive] = some ((.header t sofReceive, t + 1), []) := rfl

theorem step_header (debug : Bool) (t : Nat) (f : Frame) :
    (framer debug).step (.header t sofReceive, t + 1) [f.len, f.id, f.crc8] =
      some ((.data t f.headerBytes, t + 4), []) := by
  have hfeed : Framer.feed debug (t + 1) [f.len, f.id, f.crc8] (.header t sofReceive) = (.data t f.headerBytes, []) :=
    if_pos f.crc8Ok_headerBytes
  exact framer_step.2 ⟨⟨Nat.le_add_left 1 2, Nat.le_refl 3⟩, by rw [hfeed]; rfl, by rw [hfeed]⟩

theorem step_body (debug : Bool) (t : Nat) (f : Frame) :
    (framer debug).step (.data t f.headerBytes, t + 4) (f.data ++ f.trailer) =
      some ((.hunt, t + f.bytes.length), f.events debug t) := by
  have hlen : (headerFrameOf f.headerBytes).len.toNat + 2 = (f.data ++ f.trailer).length := f.body_length.symm
  have hstop : t + 4 + (f.data ++ f.trailer).length = t + f.bytes.length := by
    rw [f.bytes_length, f.body_length]
    omega
  have hfeed : Framer.feed debug (t + 4) (f.data ++ f.trailer) (.data t f.headerBytes) = (.hunt, f.events debug t) := by
    simp only [Framer.feed, Framer.more, hlen, Nat.sub_self, Nat.lt_irrefl, if_false, fill, List.drop_replicate,
      List.replicate_zero, List.append_nil, hstop, f.emit_eq]
  refine framer_step.2 ⟨⟨by rw [f.body_length]; omega, Nat.le_of_eq f.body_length⟩, ?_, ?_⟩
  · rw [hfeed, hstop]
  · rw [hfeed]

/-- **A frame read whole is assembled as it is.** -/
theorem fullRun_frame (debug : Bool) (t : Nat) (f : Frame) :
    FullRun debug (.hunt, t) f.reads (.hunt, t + f.bytes.length) (f.events debug t) := by
  have h3 := FullRun.cons (step_body debug t f) f.body_length (FullRun.nil _)
  have h2 := FullRun.cons (step_header debug t f) rfl h3
  have h1 := FullRun.cons (step_sof debug t) rfl h2
  rw [List.append_nil] at h1
  exact h1

theorem fullRun_segments (debug : Bool) : ∀ (gs : List Segment) (t : Nat),
    FullRun debug (.hunt, t) (gs.flatMap Segment.reads) (.hunt, t + (gs.flatMap Segment.bytes).length)
      (streamEvents debug t gs)
  | [], t => .nil _
  | g :: gs, t => by
    have hlen : t + ((g :: gs).flatMap Segment.bytes).length =
        t + g.bytes.length + (gs.flatMap Segment.bytes).length := by
      rw [List.flatMap_cons, List.length_append, Nat.add_assoc]
    have hg : t + g.bytes.length = t + g.junk.length + g.frame.bytes.length := by
      rw [Segment.bytes, List.length_append, Nat.add_assoc]
    rw [hlen, List.flatMap_cons, Segment.reads]
    have hframe := fullRun_frame debug (t + g.junk.length) g.frame
    rw [← hg] at hframe
    exact ((fullRun_junk t g.quiet).append hframe).append (fullRun_segments debug gs (t + g.bytes.length))

theorem flatten_map_singleton : ∀ js : List U8, (js.map ([·])).flatten = js
  | [] => rfl
  | j :: js => by rw [List.map_cons, List.flatten_cons, flatten_map_singleton js]; rfl

theorem flatten_segment_reads (g : Segment) : g.reads.flatten = g.bytes := by
  rw [Segment.reads, List.flatten_append, flatten_map_singleton, g.frame.flatten_reads, Segment.bytes]

theorem flatten_flatMap_reads : ∀ gs : List Segment, (gs.flatMap Segment.reads).flatten = gs.flatMap Segment.bytes
  | [] => rfl
  | g :: gs => by
    rw [List.flatMap_cons, List.flatten_append, flatten_segment_reads, flatten_flatMap_reads gs, List.flatMap_cons]

end Serial
end LfSentry
