import LfSentry.SerialFrame
/-!
# SerialSplit — what a short `receive` does to a frame

The refill loop appends what it reads behind what it has, but leaves the zeros of every short read in the buffer: a
data segment read in several parts comes out whole with zeros after its trailer.  The header read does not look at its
count, so a short one shifts everything after it.
-/
namespace LfSentry
namespace Serial

/-! ## The refill loop -/

/-- The framer has the header `hb` and the bytes `got` after it; `z` zeros stand behind them. -/
inductive Filling : Phase → Nat → List U8 → List U8 → Nat → Prop
  | data (start : Nat) (hb : List U8) : Filling (.data start hb) start hb [] 0
  | remain {start : Nat} {hb got : List U8} {z remainLen : Nat} (hz : 0 < z) (hrem : 0 < remainLen)
      (hlen : got.length + remainLen = (headerFrameOf hb).len.toNat + 2) :
      Filling (.remain start hb (got ++ List.replicate z 0) got.length remainLen) start hb got z

variable {debug : Bool}

theorem Filling.wants_eq {ph : Phase} {start z : Nat} {hb got : List U8} (h : Filling ph start hb got z) :
    got.length + Framer.wants ph = (headerFrameOf hb).len.toNat + 2 ∧ 0 < Framer.wants ph := by
  cases h with
  | data => exact ⟨Nat.zero_add _, Nat.succ_pos _⟩
  | remain hz hrem hlen => exact ⟨hlen, hrem⟩

theorem fill_replicate (n : Nat) (c : List U8) :
    fill (List.replicate n 0) c = c ++ List.replicate (n - c.length) 0 := by
  rw [fill, List.drop_replicate]

theorem insertAt_length (got src tail : List U8) : insertAt (got ++ tail) got.length src = got ++ src ++ tail := by
  simp [insertAt]

/-- **A read that completes the buffer.** -/
theorem Filling.feed_full {ph : Phase} {start z : Nat} {hb got c : List U8} (h : Filling ph start hb got z)
    (hc : c.length = Framer.wants ph) (at_ : Nat) :
    Framer.feed debug at_ c ph =
      (.hunt, Framer.emit debug start (at_ + c.length) hb (got ++ c ++ List.replicate z 0)) := by
  cases h with
  | data =>
    simp only [Framer.wants] at hc
    simp only [Framer.feed, Framer.more, fill_replicate, ← hc, Nat.sub_self, Nat.lt_irrefl, if_false, List.nil_append]
  | remain hz hrem hlen =>
    simp only [Framer.wants] at hc
    simp only [Framer.feed, Framer.more, fill_replicate, ← hc, Nat.sub_self, Nat.lt_irrefl, if_false,
      List.replicate_zero, List.append_nil, insertAt_length]

/-- **A read that does not complete it leaves zeros behind.** -/
theorem Filling.feed_short (debug : Bool) {ph : Phase} {start z : Nat} {hb got c : List U8}
    (h : Filling ph start hb got z) (hc : c.length < Framer.wants ph) (at_ : Nat) :
    ∃ ph' z', Framer.feed debug at_ c ph = (ph', []) ∧ 0 < z' ∧ Filling ph' start hb (got ++ c) z' := by
  cases h with
  | data =>
    simp only [Framer.wants] at hc
    refine ⟨_, (headerFrameOf hb).len.toNat + 2 - c.length, ?_, by omega,
      .remain (by omega) (show 0 < (headerFrameOf hb).len.toNat + 2 - c.length by omega) ?_⟩
    · simp only [Framer.feed, Framer.more, fill_replicate]
      rw [if_pos (by omega), List.nil_append]
    · rw [List.nil_append]
      omega
  | @remain _ _ _ z remainLen hz hrem hlen =>
    simp only [Framer.wants] at hc
    refine ⟨_, remainLen - c.length + z, ?_, by omega,
      .remain (by omega) (show 0 < remainLen - c.length by omega) ?_⟩
    · simp only [Framer.feed, Framer.more, fill_replicate, insertAt_length]
      rw [if_pos (by omega), List.length_append, List.replicate_add]
      simp only [List.append_assoc]
    · rw [List.length_append]
      omega

/-- The rest of the data segment and the trailer arrive in the reads `cs₁`, and the buffer is complete. -/
structure Completes (debug : Bool) (ph : Phase) (start : Nat) (hb got : List U8) (z at_ : Nat) (cs : List (List U8))
    (q : Phase × Nat) (o : List FrameEvent) (cs₁ cs₂ : List (List U8)) (z' : Nat) (o₂ : List FrameEvent) : Prop where
  split : cs = cs₁ ++ cs₂
  length : cs₁.flatten.length = Framer.wants ph
  first : (framer debug).run (ph, at_) cs₁ = some ((.hunt, at_ + Framer.wants ph),
    Framer.emit debug start (at_ + Framer.wants ph) hb (got ++ cs₁.flatten ++ List.replicate z' 0))
  rest : (framer debug).run (.hunt, at_ + Framer.wants ph) cs₂ = some (q, o₂)
  events : o = Framer.emit debug start (at_ + Framer.wants ph) hb (got ++ cs₁.flatten ++ List.replicate z' 0) ++ o₂
  whole : z' = 0 → z = 0 ∧ cs₁ = [cs₁.flatten]

/-- **Every way of reading the rest of a buffer fills it with these bytes in order.** -/
theorem body_reads : ∀ {cs : List (List U8)} {ph : Phase} {start z at_ : Nat} {hb got : List U8} {q : Phase × Nat}
    {o : List FrameEvent}, Filling ph start hb got z → (framer debug).run (ph, at_) cs = some (q, o) →
      (cs.flatten.length < Framer.wants ph ∧ o = []) ∨
        ∃ cs₁ cs₂ z' o₂, Completes debug ph start hb got z at_ cs q o cs₁ cs₂ z' o₂
  | [], ph, _, _, _, _, _, q, o, hf, hr => by
    simp only [Machine.run_nil, Option.some.injEq, Prod.mk.injEq] at hr
    exact .inl ⟨hf.wants_eq.2, hr.2.symm⟩
  | c :: cs, ph, start, z, at_, hb, got, q, o, hf, hr => by
    obtain ⟨t, es, o', hst, hr', rfl⟩ := Machine.run_cons.1 hr
    obtain ⟨⟨hpos, hle⟩, rfl, rfl⟩ := framer_step.1 hst
    rcases Nat.lt_or_eq_of_le hle with hlt | heq
    · obtain ⟨ph', z₁, hfeed, hz₁, hf'⟩ := hf.feed_short debug hlt at_
      have hw := hf.wants_eq
      have hw' := hf'.wants_eq
      rw [List.length_append] at hw'
      have hwant : at_ + Framer.wants ph = at_ + c.length + Framer.wants ph' := by omega
      simp only [hfeed] at hr' hst ⊢
      rcases body_reads hf' hr' with ⟨hshort, rfl⟩ | ⟨cs₁, cs₂, z', o₂, hc⟩
      · refine .inl ⟨?_, rfl⟩
        rw [List.flatten_cons, List.length_append]
        omega
      · have hgot : got ++ (c :: cs₁).flatten = got ++ c ++ cs₁.flatten := by
          rw [List.flatten_cons, List.append_assoc]
        refine .inr ⟨c :: cs₁, cs₂, z', o₂, ?_, ?_, ?_, ?_, ?_, fun hz' => absurd (hc.whole hz').1 (by omega)⟩
        · rw [hc.split, List.cons_append]
        · rw [List.flatten_cons, List.length_append, hc.length]
          omega
        · rw [hwant, hgot]
          exact Machine.run_cons.2 ⟨_, _, _, hst, hc.first, rfl⟩
        · rw [hwant]
          exact hc.rest
        · rw [hwant, hgot, hc.events]
          rfl
    · simp only [hf.feed_full heq] at hr' hst ⊢
      rw [heq] at hr' hst ⊢
      refine .inr ⟨[c], cs, z, o', rfl, by simpa using heq, ?_, hr', ?_, fun hz => ⟨hz, by simp⟩⟩
      · rw [List.flatten_singleton]
        exact Machine.run_cons.2 ⟨_, _, _, hst, rfl, (List.append_nil _).symm⟩
      · rw [List.flatten_singleton]

/-! ## Where a buffer started -/

def assembledIn (o : List FrameEvent) : List (Nat × Nat × List U8) :=
  o.filterMap fun | .assembled start stop buf => some (start, stop, buf) | .dispatch _ _ => none

def dispatchedIn (o : List FrameEvent) : List (HeaderFrame × List U8) :=
  o.filterMap fun | .assembled _ _ _ => none | .dispatch h buf => some (h, buf)

theorem assembledOf_eq (es : List Event) : assembledOf es = assembledIn (es.filterMap framing) := by
  unfold assembledOf assembledIn
  rw [List.filterMap_filterMap]
  congr 1
  funext e
  cases e <;> rfl

theorem dispatchedOf_eq (es : List Event) : dispatchedOf es = dispatchedIn (es.filterMap framing) := by
  unfold dispatchedOf dispatchedIn
  rw [List.filterMap_filterMap]
  congr 1
  funext e
  cases e <;> rfl

theorem assembledIn_append (o o' : List FrameEvent) : assembledIn (o ++ o') = assembledIn o ++ assembledIn o' :=
  List.filterMap_append

theorem dispatchedIn_append (o o' : List FrameEvent) : dispatchedIn (o ++ o') = dispatchedIn o ++ dispatchedIn o' :=
  List.filterMap_append

theorem assembledIn_emit (start stop : Nat) (hb buf : List U8) :
    assembledIn (Framer.emit debug start stop hb buf) = [(start, stop, hb ++ buf)] := by
  unfold Framer.emit
  dsimp only
  split
  · rfl
  · split <;> rfl

theorem assembledIn_events (t : Nat) (f : Frame) :
    assembledIn (f.events debug t) = [(t, t + f.bytes.length, f.bytes)] := by
  rw [← f.emit_eq, assembledIn_emit]
  rfl

/-- Where the buffer being filled started, or the next one can at the earliest. -/
def begun : Phase × Nat → Nat
  | (.hunt, t) => t
  | (.header start _, _) => start
  | (.data start _, _) => start
  | (.remain start _ _ _ _, _) => start

/-- **No buffer starts before the framer looked for it.** -/
theorem start_le {cs : List (List U8)} {p q : Phase × Nat} {o : List FrameEvent} (hp : begun p ≤ p.2)
    (hr : (framer debug).run p cs = some (q, o)) : ∀ e ∈ assembledIn o, begun p ≤ e.1 := by
  have hstep : ∀ s c t es, (begun p ≤ begun s ∧ begun s ≤ s.2) → (framer debug).step s c = some (t, es) →
      (begun p ≤ begun t ∧ begun t ≤ t.2) ∧ ∀ e ∈ es, ∀ a ∈ assembledIn [e], begun p ≤ a.1 := by
    intro s c t es hs hst
    obtain ⟨-, rfl, rfl⟩ := framer_step.1 hst
    obtain ⟨ph, n⟩ := s
    have hmore : ∀ start hb buf sum rem, begun p ≤ start → start ≤ n →
        (begun p ≤ begun ((Framer.more debug start (n + c.length) hb buf sum rem).1, n + c.length) ∧
          begun ((Framer.more debug start (n + c.length) hb buf sum rem).1, n + c.length) ≤ n + c.length) ∧
        ∀ e ∈ (Framer.more debug start (n + c.length) hb buf sum rem).2, ∀ a ∈ assembledIn [e], begun p ≤ a.1 := by
      intro start hb buf sum rem h1 h2
      unfold Framer.more
      split
      · exact ⟨⟨h1, show start ≤ n + c.length by omega⟩, fun e he => by cases he⟩
      · refine ⟨⟨show begun p ≤ n + c.length by omega, Nat.le_refl _⟩, fun e he a ha => ?_⟩
        have hmem : a ∈ assembledIn (Framer.emit debug start (n + c.length) hb buf) := by
          obtain ⟨l₁, l₂, hl⟩ := List.append_of_mem (show e ∈ Framer.emit debug start (n + c.length) hb buf from he)
          rw [hl, show l₁ ++ e :: l₂ = l₁ ++ ([e] ++ l₂) from rfl, assembledIn_append, assembledIn_append]
          exact List.mem_append_right _ (List.mem_append_left _ ha)
        rw [assembledIn_emit, List.mem_singleton] at hmem
        exact hmem ▸ h1
    cases ph with
    | hunt =>
      have hs : begun p ≤ n ∧ n ≤ n := hs
      simp only [Framer.feed]
      split
      · exact ⟨⟨hs.1, Nat.le_add_right n _⟩, fun e he => by cases he⟩
      · exact ⟨⟨Nat.le_trans hs.1 (Nat.le_add_right n _), Nat.le_refl _⟩, fun e he => by cases he⟩
    | header start sof =>
      have hs : begun p ≤ start ∧ start ≤ n := hs
      simp only [Framer.feed]
      split
      · exact ⟨⟨hs.1, Nat.le_trans hs.2 (Nat.le_add_right n _)⟩, fun e he => by cases he⟩
      · exact ⟨⟨show begun p ≤ n + c.length by omega, Nat.le_refl _⟩, fun e he => by cases he⟩
    | data start hb => exact hmore start _ _ _ _ hs.1 hs.2
    | remain start hb buf sum rem => exact hmore start _ _ _ _ hs.1 hs.2
  have hall := Machine.forall_mem_of_run hstep ⟨Nat.le_refl _, hp⟩ hr
  intro a ha
  obtain ⟨e, he, hae⟩ := List.mem_filterMap.1 ha
  exact hall e he a (List.mem_filterMap.2 ⟨e, List.mem_singleton_self e, hae⟩)

end Serial
end LfSentry
