import LfSentry.SerialSplit
import LfSentry.SerialLink
/-!
# SerialPayload — where the bytes of a decoded struct come from

Nothing compares the length in a header with the size of the struct its id stands for.  The bytes of a struct are
followed back through the copy of `fromVector` by copying cells that say where they are from in place of bytes: a copy
that cannot look at its cells moves both alike (`map_fromVectorOf`).
-/
namespace LfSentry
namespace Serial

/-- Where a byte of an assembled buffer is from. -/
inductive Cell where
  | header (i : Nat)
  | data (i : Nat)
  | trailer (i : Nat)
  | zero
deriving DecidableEq

/-- The cells of a buffer of a frame with `len` data bytes and `z` zeros behind it. -/
def cellsOf (len z : Nat) : List Cell :=
  (List.range sizeofHeaderFrame).map .header ++ ((List.range len).map .data ++ ((List.range 2).map .trailer ++
    List.replicate z .zero))

def Cell.byte (header data trailer : List U8) : Cell → U8
  | .header i => header.getD i 0
  | .data i => data.getD i 0
  | .trailer i => trailer.getD i 0
  | .zero => 0

theorem map_getD_range (l : List U8) : (List.range l.length).map (fun i => l.getD i 0) = l := by
  refine List.ext_getElem (by simp) fun i h1 h2 => ?_
  rw [List.getElem_map, List.getElem_range]
  exact (List.getElem_eq_getD 0).symm

theorem map_byte_cellsOf (header data trailer : List U8) (z : Nat) (hh : header.length = sizeofHeaderFrame)
    (ht : trailer.length = 2) :
    (cellsOf data.length z).map (Cell.byte header data trailer) = header ++ (data ++ (trailer ++ List.replicate z 0)) := by
  have h1 := map_getD_range header
  have h2 := map_getD_range data
  have h3 := map_getD_range trailer
  rw [hh] at h1
  rw [ht] at h3
  simp only [cellsOf, List.map_append, List.map_map, List.map_replicate]
  rw [show Cell.byte header data trailer ∘ Cell.header = fun i => header.getD i 0 from rfl,
    show Cell.byte header data trailer ∘ Cell.data = fun i => data.getD i 0 from rfl,
    show Cell.byte header data trailer ∘ Cell.trailer = fun i => trailer.getD i 0 from rfl, h1, h2, h3]
  rfl

/-- The cells of the struct decoded from such a buffer. -/
def decodedCells (k : PacketKind) (len z : Nat) : List Cell := fromVectorOf .zero k.sizeof (cellsOf len z)

def PacketKind.payloadSize (k : PacketKind) : Nat := 4 + k.sizeofData

/-- Each byte of the time stamp and the data of the struct is the byte of the data segment at its offset, or zero. -/
def PayloadFromData (k : PacketKind) (cells : List Cell) : Prop :=
  ∀ o < k.payloadSize, cells[sizeofHeaderFrame + o]? = some (.data o) ∨ cells[sizeofHeaderFrame + o]? = some .zero

instance (k : PacketKind) (cells : List Cell) : Decidable (PayloadFromData k cells) :=
  inferInstanceAs (Decidable (∀ o < k.payloadSize, _))

theorem decodedCells_payload {k : PacketKind} {len z o : Nat} (ho : o < k.payloadSize) :
    (decodedCells k len z)[sizeofHeaderFrame + o]? =
      some (@List.getD Cell
        ((List.range len).map .data ++ ((List.range 2).map .trailer ++ List.replicate z .zero)) o .zero) := by
  have hsize : sizeofHeaderFrame + o < k.sizeof := by
    simp only [PacketKind.payloadSize, PacketKind.sizeof] at *
    omega
  have hheader : ((List.range sizeofHeaderFrame).map Cell.header).length ≤ sizeofHeaderFrame + o := by simp
  rw [decodedCells, getElem?_fromVectorOf _ _ _ _ hsize, cellsOf, List.getD_eq_getElem?_getD,
    List.getElem?_append_right hheader, List.getD_eq_getElem?_getD]
  congr 3
  simp only [List.length_map, List.length_range]
  omega

/-- **The payload is frame payload exactly when the data segment is as long as the struct's.** -/
theorem payloadFromData_iff (k : PacketKind) (len z : Nat) :
    PayloadFromData k (decodedCells k len z) ↔ k.payloadSize ≤ len := by
  have hdata : ((List.range len).map Cell.data).length = len := by simp
  constructor
  · intro h
    by_contra hlt
    -- the first byte after the data segment is the low byte of the trailer
    have ho : len < k.payloadSize := by omega
    have hcell : (decodedCells k len z)[sizeofHeaderFrame + len]? = some (.trailer 0) := by
      rw [decodedCells_payload ho, List.getD_eq_getElem?_getD, List.getElem?_append_right (by rw [hdata]), hdata,
        Nat.sub_self]
      rfl
    rcases h len ho with h | h <;> rw [hcell] at h <;> cases h
  · intro hle o ho
    refine .inl ?_
    rw [decodedCells_payload ho, List.getD_eq_getElem?_getD, List.getElem?_append_left (by rw [hdata]; omega),
      List.getElem?_map, List.getElem?_range (by omega)]
    rfl

/-! ## The buffers that reach the switch -/

/-- A buffer that a checked frame was assembled in. -/
structure Assembled (h : HeaderFrame) (buf : List U8) (data trailer : List U8) (z : Nat) : Prop where
  buf_eq : buf = h.bytes ++ (data ++ (trailer ++ List.replicate z 0))
  data_len : data.length = h.len.toNat
  trailer_len : trailer.length = 2
  crc16_ok : verifyCrc16CheckSum buf = true

/-- The receive thread between two reads: what it fills is the buffer of the header it holds. -/
def Aligned : Phase → Prop
  | .hunt => True
  | .header _ _ => True
  | ph => ∃ start hb got z, Filling ph start hb got z ∧ hb.length = sizeofHeaderFrame

theorem headerFrameOf_bytes {hb : List U8} (h : hb.length = sizeofHeaderFrame) : (headerFrameOf hb).bytes = hb := by
  obtain ⟨a, b, c, d, rfl⟩ := List.length_eq_four.1 h
  rfl

theorem mem_emit {debug : Bool} {start stop : Nat} {hb body buf : List U8} {h : HeaderFrame}
    (he : .dispatch h buf ∈ Framer.emit debug start stop hb body) :
    h = headerFrameOf hb ∧ buf = hb ++ body ∧ verifyCrc16CheckSum buf = true := by
  unfold Framer.emit at he
  dsimp only at he
  split at he
  · simp at he
  · split at he
    · simp at he
    · rename_i hcrc
      simp only [List.mem_cons, reduceCtorEq, FrameEvent.dispatch.injEq, List.not_mem_nil, or_false, false_or] at he
      obtain ⟨rfl, rfl⟩ := he
      exact ⟨rfl, rfl, by simpa using hcrc⟩

theorem Filling.aligned {ph : Phase} {start z : Nat} {hb got : List U8} (hf : Filling ph start hb got z)
    (hhb : hb.length = sizeofHeaderFrame) : Aligned ph := by
  cases hf with
  | data => exact ⟨start, hb, _, _, .data start hb, hhb⟩
  | remain hz hrem hlen => exact ⟨start, hb, _, _, .remain hz hrem hlen, hhb⟩

theorem filling_step {debug : Bool} {ph : Phase} {start z at_ : Nat} {hb got c : List U8}
    (hf : Filling ph start hb got z) (hhb : hb.length = sizeofHeaderFrame) (hc : c.length ≤ Framer.wants ph) :
    Aligned (Framer.feed debug at_ c ph).1 ∧ ∀ h buf, .dispatch h buf ∈ (Framer.feed debug at_ c ph).2 →
      ∃ data trailer z, Assembled h buf data trailer z := by
  rcases Nat.lt_or_eq_of_le hc with hlt | heq
  · obtain ⟨ph', z', hfeed, -, hf'⟩ := hf.feed_short debug hlt at_
    rw [hfeed]
    exact ⟨hf'.aligned hhb, fun h buf he => by cases he⟩
  · rw [hf.feed_full heq]
    refine ⟨trivial, fun h buf he => ?_⟩
    obtain ⟨rfl, rfl, hcrc⟩ := mem_emit he
    have hw := hf.wants_eq.1
    have hlen : (got ++ c).length = (headerFrameOf hb).len.toNat + 2 := by rw [List.length_append]; omega
    refine ⟨(got ++ c).take (headerFrameOf hb).len.toNat, (got ++ c).drop (headerFrameOf hb).len.toNat, z, ?_, ?_, ?_,
      hcrc⟩
    · rw [headerFrameOf_bytes hhb, ← List.append_assoc (List.take _ _), List.take_append_drop]
    · rw [List.length_take]
      omega
    · rw [List.length_drop]
      omega

/-- **A read keeps the thread aligned, and hands on only buffers of checked frames.** -/
theorem framer_aligned {debug : Bool} {p q : Phase × Nat} {c : List U8} {es : List FrameEvent} (hp : Aligned p.1)
    (hst : (framer debug).step p c = some (q, es)) :
    Aligned q.1 ∧ ∀ h buf, .dispatch h buf ∈ es → ∃ data trailer z, Assembled h buf data trailer z := by
  obtain ⟨⟨hpos, hle⟩, rfl, rfl⟩ := framer_step.1 hst
  obtain ⟨ph, at_⟩ := p
  cases ph with
  | hunt =>
    simp only [Framer.feed]
    split <;> exact ⟨trivial, fun h buf he => by cases he⟩
  | header start sof =>
    have hlen : (sof :: fill (List.replicate 3 0) c).length = sizeofHeaderFrame := by
      have : c.length ≤ 3 := hle
      simp [fill, sizeofHeaderFrame]
      omega
    simp only [Framer.feed]
    split
    · exact ⟨⟨start, _, _, _, .data start _, hlen⟩, fun h buf he => by cases he⟩
    · exact ⟨trivial, fun h buf he => by cases he⟩
  | data start hb =>
    obtain ⟨start', hb', got, z, hf, hhb⟩ := hp
    exact filling_step hf hhb hle
  | remain start hb buf sum rem =>
    obtain ⟨start', hb', got, z, hf, hhb⟩ := hp
    exact filling_step hf hhb hle

/-- **Whatever the driver and the other threads do, a buffer that reaches the switch is that of a checked frame.** -/
theorem assembled_of_dispatched {ros : Ros} {s t : Sys} {is : List Input} {evs : List Event}
    (hs : Aligned (phaseOf s.pc)) (hr : (link ros).run s is = some (t, evs)) :
    ∀ h buf, (h, buf) ∈ dispatchedOf evs → ∃ data trailer z, Assembled h buf data trailer z := by
  have hstep : ∀ s i t es, Aligned (phaseOf s.pc) → (link ros).step s i = some (t, es) →
      Aligned (phaseOf t.pc) ∧ ∀ e ∈ es, ∀ h buf, e = .dispatch h buf → ∃ data trailer z, Assembled h buf data trailer z := by
    intro s i t es hs hst
    by_cases hread : ∃ chunk, i = .read chunk
    · obtain ⟨chunk, rfl⟩ := hread
      obtain ⟨h1, -, -⟩ := read_step hst
      obtain ⟨h2, h3⟩ := framer_aligned hs h1
      refine ⟨h2, fun e he h buf heq => h3 h buf ?_⟩
      exact mem_framing.1 (heq ▸ he)
    · have hread' : ∀ chunk, i ≠ .read chunk := fun chunk h => hread ⟨chunk, h⟩
      by_cases hfail : i = .readFails
      · subst hfail
        simp only [link, step] at hst
        split at hst
        · cases hst
        · simp only [Option.some.injEq, Prod.mk.injEq] at hst
          obtain ⟨rfl, rfl⟩ := hst
          refine ⟨trivial, fun e he h buf heq => ?_⟩
          rw [heq] at he
          simp at he
      · obtain ⟨h1, h2, -⟩ := quiet_step hread' hfail hst
        refine ⟨?_, fun e he h buf heq => ?_⟩
        · rw [show phaseOf t.pc = phaseOf s.pc from congrArg Prod.fst h1]
          exact hs
        · have := mem_framing.1 (heq ▸ he)
          rw [h2] at this
          cases this
  intro h buf hmem
  obtain ⟨e, he, heq⟩ := List.mem_filterMap.1 hmem
  have hall := Machine.forall_mem_of_run hstep hs hr e he h buf
  cases e <;> simp only [reduceCtorEq, Option.some.injEq, Prod.mk.injEq] at heq
  exact hall (by rw [heq.1, heq.2])

/-- **The bytes of a decoded struct and where they are from.**  For every buffer that reaches the switch, in any run:
the struct decoded there holds the bytes of its cells, and those of its time stamp and data are from the data segment or
zero exactly when the frame's `len` is at least their size. -/
theorem payload_from_data_iff (ros : Ros) {s t : Sys} {is : List Input} {evs : List Event} (hpc : s.pc = .top)
    (hr : (link ros).run s is = some (t, evs)) :
    ∀ h buf k, (h, buf) ∈ dispatchedOf evs → PacketKind.ofId h.id = some k →
      ∃ data trailer z s, Assembled h buf data trailer z ∧ packetOf h buf = .decoded k s ∧
        s.bytes = (decodedCells k h.len.toNat z).map (Cell.byte h.bytes data trailer) ∧
        (PayloadFromData k (decodedCells k h.len.toNat z) ↔ k.payloadSize ≤ h.len.toNat) := by
  intro h buf k hmem hid
  obtain ⟨data, trailer, z, ha⟩ := assembled_of_dispatched (by rw [hpc]; trivial) hr h buf hmem
  refine ⟨data, trailer, z, fromVector k.sizeof buf, ha, by rw [packetOf, hid], ?_, payloadFromData_iff k _ z⟩
  rw [decodedCells, map_fromVectorOf, ← ha.data_len, map_byte_cellsOf _ _ _ _ rfl ha.trailer_len, ← ha.buf_eq]
  rfl

/-- Game status with a data segment of four zeros, the size of its time stamp. -/
def shortGameStatus : Frame := ⟨0x04, 0x07, 0x7b, [0x00, 0x00, 0x00, 0x00], 0x6e, 0x45, rfl, by decide, by decide⟩

theorem payload_from_data_iff_shortGameStatus :
    ∃ t evs, (link .granting).run .started
        [.wake, .read [0x5A], .read [0x04, 0x07, 0x7b], .read [0x00, 0x00, 0x00, 0x00, 0x6e, 0x45]] = some (t, evs) ∧
      ∃ data trailer z s, Assembled shortGameStatus.headerFrame shortGameStatus.bytes data trailer z ∧
        packetOf shortGameStatus.headerFrame shortGameStatus.bytes = .decoded .gameStatus s ∧
        s.bytes = (decodedCells .gameStatus shortGameStatus.headerFrame.len.toNat z).map
          (Cell.byte shortGameStatus.headerFrame.bytes data trailer) ∧
        (PayloadFromData .gameStatus (decodedCells .gameStatus shortGameStatus.headerFrame.len.toNat z) ↔
          PacketKind.gameStatus.payloadSize ≤ shortGameStatus.headerFrame.len.toNat) := by
  obtain ⟨t, evs, hr, hd⟩ : ∃ t evs, (link .granting).run .started
      [.wake, .read [0x5A], .read [0x04, 0x07, 0x7b], .read [0x00, 0x00, 0x00, 0x00, 0x6e, 0x45]] = some (t, evs) ∧
      dispatchedOf evs = [(shortGameStatus.headerFrame, shortGameStatus.bytes)] := ⟨_, _, rfl, by decide⟩
  exact ⟨t, evs, hr, payload_from_data_iff .granting rfl hr _ _ .gameStatus (by rw [hd]; exact List.mem_singleton_self _)
    (by decide)⟩

/-- **A frame without game status publishes its checksum as one.** -/
theorem shortGameStatus_publishes_trailer :
    ∃ t evs, (link .granting).run .started
        [.wake, .read [0x5A], .read [0x04, 0x07, 0x7b], .read [0x00, 0x00, 0x00, 0x00, 0x6e, 0x45]] = some (t, evs) ∧
      dispatchedOf evs = [(shortGameStatus.headerFrame, shortGameStatus.bytes)] ∧
      .published (.gameStatus 0x6e 0x45) ∈ evs ∧
      ¬ PayloadFromData .gameStatus (decodedCells .gameStatus shortGameStatus.headerFrame.len.toNat 0) :=
  ⟨_, _, rfl, by decide, by decide, by decide⟩

end Serial
end LfSentry
