import LfSentry.GimbalSerial
import Mathlib.Data.List.Infix
/-!
# GimbalResync — which frames the gimbal's reading thread catches

Without a timeout the thread takes from the bytes it reads what `scan` takes from them, however `serial_.read` splits
them.  On junk before the first frame `scan` goes in pairs: after an even number of bytes it meets the first head, after
an odd number it passes over the first frame in pairs and meets the second head (`thread_resynchronises`).
-/
namespace LfSentry
namespace Vision
namespace GimbalSerial

/-- The checked frames among the bytes, looked for in pairs. -/
def scan : List U8 → List (List U8)
  | a :: b :: rest =>
    if [a, b] = [headS, headP] then
      if rest.length < sizeofGimbalToVision - 2 then []
      else
        let rxData := a :: b :: rest.take (sizeofGimbalToVision - 2)
        (if checkCrc16 rxData sizeofGimbalToVision then [rxData] else []) ++
          scan (rest.drop (sizeofGimbalToVision - 2))
    else scan rest
  | _ => []
termination_by bytes => bytes.length
decreasing_by
  · simp only [List.length_drop, List.length_cons]
    omega
  · simp only [List.length_cons]
    omega

theorem scan_short {bytes : List U8} (h : bytes.length < 2) : scan bytes = [] := by
  match bytes, h with
  | [], _ => rw [scan]; rintro _ _ _ ⟨⟩
  | [a], _ => rw [scan]; rintro _ _ _ ⟨⟩

theorem scan_pair {a b : U8} (h : [a, b] ≠ [headS, headP]) (rest : List U8) : scan (a :: b :: rest) = scan rest := by
  rw [scan, if_neg h]

theorem scan_head_short {got : List U8} (h : got.length < sizeofGimbalToVision - 2) :
    scan ([headS, headP] ++ got) = [] := by
  rw [List.cons_append, List.cons_append, List.nil_append, scan, if_pos rfl, if_pos h]

/-- **A head and the rest of a frame: the frame is taken if it checks.** -/
theorem scan_head {got : List U8} (h : got.length = sizeofGimbalToVision - 2) (rest : List U8) :
    scan ([headS, headP] ++ got ++ rest) =
      (if checkCrc16 ([headS, headP] ++ got) sizeofGimbalToVision then [[headS, headP] ++ got] else []) ++
        scan rest := by
  have hlen : ¬ (got ++ rest).length < sizeofGimbalToVision - 2 := by rw [List.length_append]; omega
  rw [List.append_assoc, List.cons_append, List.cons_append, List.nil_append, scan, if_pos rfl, if_neg hlen, ← h]
  simp only [List.take_left, List.drop_left]
  rfl

/-! ## The thread takes what `scan` takes -/

/-- What `scan` takes from the bytes to come, with those of the read under way before them. -/
def scanFrom (phase : Phase) (bytes : List U8) : List (List U8) :=
  match phase with
  | .head got => scan (got ++ bytes)
  | .body _ got => scan ([headS, headP] ++ got ++ bytes)
  | .reconnecting => scan bytes

def pushedOf : List Event → List Quaternion
  | [] => []
  | .pushed v :: es => v.value :: pushedOf es
  | .cleared :: es => pushedOf es

def bytesRead : List Input → List U8
  | [] => []
  | .read bs _ :: is => bs ++ bytesRead is
  | .timeout :: is => bytesRead is
  | .reconnect _ :: is => bytesRead is

def NoTimeout (is : List Input) : Prop := ∀ i ∈ is, ∃ bs now, i = .read bs now

theorem pushedOf_append (es fs : List Event) : pushedOf (es ++ fs) = pushedOf es ++ pushedOf fs := by
  induction es with
  | nil => rfl
  | cons e es ih => cases e <;> simp [pushedOf, ih]

/-- The attitude in a frame. -/
def attitudeOf (rxData : List U8) : Quaternion := (gimbalToVisionOf rxData).q

/-- The bytes of a read are fewer than it was asked for, until it ends. -/
def Phase.Open : Phase → Prop
  | .head got => got.length < 2
  | .body _ got => got.length < sizeofGimbalToVision - 2
  | .reconnecting => False

theorem onFrame_phase (s : Gimbal) (t : Int) (rxData : List U8) :
    (onFrame s t rxData).1.phase = .head [] ∧ (onFrame s t rxData).1.isOpen = s.isOpen ∧
      pushedOf (onFrame s t rxData).2 =
        if checkCrc16 rxData sizeofGimbalToVision then [attitudeOf rxData] else [] := by
  unfold onFrame
  by_cases h : checkCrc16 rxData sizeofGimbalToVision = true
  · simp [h, pushedOf, attitudeOf]
  · simp [h, pushedOf]

/-- **A read takes its part of what `scan` takes, and leaves the rest.** -/
theorem scanFrom_onRead {s : Gimbal} {bs : List U8} (hopen : s.phase.Open) (hlen : bs.length ≤ wants s.phase)
    (now : Int) (rest : List U8) :
    (scanFrom s.phase (bs ++ rest)).map attitudeOf =
        pushedOf (onRead s bs now).2 ++ (scanFrom (onRead s bs now).1.phase rest).map attitudeOf ∧
      (onRead s bs now).1.phase.Open ∧ (onRead s bs now).1.isOpen = s.isOpen := by
  unfold onRead
  cases hp : s.phase with
  | head got =>
    rw [hp] at hopen hlen
    simp only [Phase.Open, wants] at hopen hlen
    simp only [scanFrom, ← List.append_assoc]
    by_cases hshort : (got ++ bs).length < 2
    · rw [if_pos hshort]
      exact ⟨rfl, hshort, rfl⟩
    rw [if_neg hshort]
    by_cases hhead : got ++ bs ≠ [headS, headP]
    · rw [if_pos hhead]
      have htwo : (got ++ bs).length = 2 := by
        rw [List.length_append] at hshort ⊢
        omega
      obtain ⟨a, b, hab⟩ := List.length_eq_two.1 htwo
      rw [hab] at hhead ⊢
      rw [List.cons_append, List.cons_append, List.nil_append, scan_pair hhead]
      exact ⟨rfl, by simp [Phase.Open], rfl⟩
    · rw [if_neg hhead, not_not.1 hhead]
      exact ⟨rfl, by simp [Phase.Open, sizeofGimbalToVision], rfl⟩
  | body t got =>
    rw [hp] at hopen hlen
    simp only [Phase.Open, wants] at hopen hlen
    simp only [scanFrom]
    have hassoc : [headS, headP] ++ got ++ (bs ++ rest) = [headS, headP] ++ (got ++ bs) ++ rest := by
      simp only [List.append_assoc]
    rw [hassoc]
    by_cases hshort : (got ++ bs).length < sizeofGimbalToVision - 2
    · rw [if_pos hshort]
      exact ⟨rfl, hshort, rfl⟩
    · have hfull : (got ++ bs).length = sizeofGimbalToVision - 2 := by
        rw [List.length_append] at hshort ⊢
        omega
      obtain ⟨hphase, hisOpen, hpushed⟩ := onFrame_phase s t ([headS, headP] ++ (got ++ bs))
      rw [if_neg hshort, hphase, hpushed, scan_head hfull]
      refine ⟨?_, by simp [Phase.Open], hisOpen⟩
      split <;> simp
  | reconnecting =>
    rw [hp] at hopen
    exact hopen.elim

theorem scanFrom_nil {phase : Phase} (h : phase.Open) : scanFrom phase [] = [] := by
  cases phase with
  | head got => rw [scanFrom, List.append_nil, scan_short h]
  | body t got => rw [scanFrom, List.append_nil, scan_head_short h]
  | reconnecting => exact h.elim

/-- **A run without timeouts takes what `scan` takes from the bytes it reads.** -/
theorem scanFrom_run : ∀ {is : List Input} {s t : Gimbal} {evs : List Event}, s.phase.Open → NoTimeout is →
    readThread.run s is = some (t, evs) → ∀ rest,
      (scanFrom s.phase (bytesRead is ++ rest)).map attitudeOf =
        pushedOf evs ++ (scanFrom t.phase rest).map attitudeOf ∧ t.phase.Open
  | [], s, t, evs, hopen, _, hr, rest => by
    simp only [Machine.run_nil, Option.some.injEq, Prod.mk.injEq] at hr
    obtain ⟨rfl, rfl⟩ := hr
    exact ⟨rfl, hopen⟩
  | i :: is, s, u, evs, hopen, hno, hr, rest => by
    obtain ⟨t, es, o', hst, hr', rfl⟩ := Machine.run_cons.1 hr
    obtain ⟨⟨bs, now, rfl⟩, hno'⟩ := List.forall_mem_cons.1 hno
    simp only [readThread, Option.ite_none_right_eq_some, Option.some.injEq] at hst
    obtain ⟨⟨-, -, hlen⟩, hread⟩ := hst
    obtain ⟨hscan, hopen', -⟩ := scanFrom_onRead hopen hlen now (bytesRead is ++ rest)
    rw [hread] at hscan hopen'
    obtain ⟨htail, hend⟩ := scanFrom_run hopen' hno' hr' rest
    refine ⟨?_, hend⟩
    rw [bytesRead, List.append_assoc, hscan, htail, pushedOf_append, List.append_assoc]

/-! ## Junk, then frames -/

/-- A frame as it is sent: 43 bytes, `SP` at its head and a valid check. -/
structure Frame where
  bytes : List U8
  size : bytes.length = sizeofGimbalToVision
  head : bytes.take 2 = [headS, headP]
  crc : checkCrc16 bytes sizeofGimbalToVision = true

def Frame.attitude (f : Frame) : Quaternion := attitudeOf f.bytes

def stream (junk : List U8) (fs : List Frame) : List U8 := junk ++ fs.flatMap Frame.bytes

/-- `S` and `P` are adjacent at the heads of the frames only. -/
def HeadsOnly (junk : List U8) (fs : List Frame) : Prop :=
  ∀ n, (stream junk fs)[n]? = some headS → (stream junk fs)[n + 1]? = some headP →
    ∃ k < fs.length, n = junk.length + sizeofGimbalToVision * k

/-- All frames after an even number of bytes of junk, all but the first after an odd number. -/
def caught (junk : List U8) (fs : List Frame) : List Frame := if junk.length % 2 = 0 then fs else fs.tail

/-- No pair from the start on is a head. -/
def PairFree (bytes : List U8) : Prop := ∀ n, bytes[2 * n]? = some headS → bytes[2 * n + 1]? ≠ some headP

theorem PairFree.cons {a b : U8} {bytes : List U8} (h : PairFree (a :: b :: bytes)) :
    [a, b] ≠ [headS, headP] ∧ PairFree bytes := by
  constructor
  · rintro ⟨⟩
    exact h 0 rfl rfl
  · intro n hs hp
    exact h (n + 1) (by simpa [Nat.mul_add] using hs) (by simpa [Nat.mul_add] using hp)

/-- **Pairs without a head are passed over.** -/
theorem scan_skip : ∀ {bytes : List U8}, PairFree bytes → bytes.length % 2 = 0 → ∀ rest, scan (bytes ++ rest) = scan rest
  | [], _, _, _ => rfl
  | [_], _, heven, _ => by simp at heven
  | a :: b :: bytes, h, heven, rest => by
    rw [List.length_cons, List.length_cons] at heven
    rw [List.cons_append, List.cons_append, scan_pair h.cons.1, scan_skip h.cons.2 (by omega)]

theorem scan_pairFree : ∀ {bytes : List U8}, PairFree bytes → scan bytes = []
  | [], _ => scan_short (by decide)
  | [_], _ => scan_short (by simp)
  | a :: b :: bytes, h => by rw [scan_pair h.cons.1, scan_pairFree h.cons.2]

theorem scan_frame (f : Frame) (rest : List U8) : scan (f.bytes ++ rest) = f.bytes :: scan rest := by
  have hsplit : f.bytes = [headS, headP] ++ f.bytes.drop 2 := by
    rw [← f.head, List.take_append_drop]
  have hlen : (f.bytes.drop 2).length = sizeofGimbalToVision - 2 := by rw [List.length_drop, f.size]
  rw [hsplit, scan_head hlen, ← hsplit, if_pos f.crc]
  rfl

theorem scan_frames (fs : List Frame) : scan (fs.flatMap Frame.bytes) = fs.map Frame.bytes := by
  induction fs with
  | nil => exact scan_short (by decide)
  | cons f fs ih => rw [List.flatMap_cons, scan_frame, ih, List.map_cons]

/-- A start of the stream in which no head stands at an even place. -/
theorem pairFree_of_headsOnly {junk : List U8} {fs : List Frame} (h : HeadsOnly junk fs) {start rest : List U8}
    (hsplit : stream junk fs = start ++ rest)
    (hout : ∀ k < fs.length, ∀ n, 2 * n = junk.length + sizeofGimbalToVision * k → start.length ≤ 2 * n + 1) :
    PairFree start := by
  intro n hs hp
  have hlt : 2 * n + 1 < start.length := (List.getElem?_eq_some_iff.1 hp).1
  obtain ⟨k, hk, hn⟩ := h (2 * n)
    (by rw [hsplit, List.getElem?_append_left (by omega), hs]) (by rw [hsplit, List.getElem?_append_left hlt, hp])
  have hge := hout k hk n hn
  omega

/-- **What is taken of junk and frames: every frame, or every frame but the first.** -/
theorem scan_stream {junk : List U8} {fs : List Frame} (h : HeadsOnly junk fs) :
    scan (stream junk fs) = (caught junk fs).map Frame.bytes := by
  unfold caught
  by_cases heven : junk.length % 2 = 0
  · have hfree : PairFree junk := pairFree_of_headsOnly h rfl fun k _ n hn => by omega
    rw [if_pos heven, stream, scan_skip hfree heven, scan_frames]
  · rw [if_neg heven]
    cases fs with
    | nil =>
      have hfree : PairFree junk := pairFree_of_headsOnly h rfl fun k hk => absurd hk (Nat.not_lt_zero k)
      rw [stream, List.flatMap_nil, List.append_nil, scan_pairFree hfree]
      rfl
    | cons f fs =>
      have hsplit : stream junk (f :: fs) = (junk ++ f.bytes) ++ fs.flatMap Frame.bytes := by
        rw [stream, List.flatMap_cons, List.append_assoc]
      have hlen : (junk ++ f.bytes).length = junk.length + 43 := by rw [List.length_append, f.size]; rfl
      have hfree : PairFree (junk ++ f.bytes) := by
        refine pairFree_of_headsOnly h hsplit fun k _ n hn => ?_
        rw [hlen]
        simp only [sizeofGimbalToVision] at hn
        omega
      rw [hsplit, scan_skip hfree (by omega), scan_frames]
      rfl

/-- The bytes can be read, one at a time. -/
theorem run_bytes : ∀ (bytes : List U8) {s : Gimbal}, s.isOpen = true → s.phase.Open →
    ∃ t evs, readThread.run s (bytes.map fun b => .read [b] 0) = some (t, evs)
  | [], s, _, _ => ⟨s, [], rfl⟩
  | b :: bytes, s, hport, hopen => by
    have hlen : [b].length ≤ wants s.phase := by
      cases hp : s.phase with
      | head got =>
        rw [hp] at hopen
        simp only [Phase.Open] at hopen
        simp only [wants, List.length_singleton]
        omega
      | body t got =>
        rw [hp] at hopen
        simp only [Phase.Open] at hopen
        simp only [wants, List.length_singleton]
        omega
      | reconnecting =>
        rw [hp] at hopen
        exact hopen.elim
    have hphase : s.phase ≠ .reconnecting := fun hp => by
      rw [hp] at hopen
      exact hopen
    obtain ⟨-, hopen', hport'⟩ := scanFrom_onRead hopen hlen 0 []
    obtain ⟨t, evs, hr⟩ := run_bytes bytes (hport' ▸ hport) hopen'
    refine ⟨t, (onRead s [b] 0).2 ++ evs, Machine.run_cons.2 ⟨_, _, _, ?_, hr, rfl⟩⟩
    exact if_pos ⟨hport, hphase, hlen⟩

theorem bytesRead_bytes (bytes : List U8) : bytesRead (bytes.map fun b => .read [b] 0) = bytes := by
  induction bytes with
  | nil => rfl
  | cons b bytes ih => rw [List.map_cons, bytesRead, ih, List.singleton_append]

/-- **However the reads split junk and frames, the thread pushes one sample for each frame, in order, from the first frame
on after an even number of bytes of junk and from the second frame on after an odd number.** -/
theorem thread_resynchronises (junk : List U8) (fs : List Frame) (h : HeadsOnly junk fs) (state : GimbalState) :
    (∃ is t evs, NoTimeout is ∧ readThread.run (Gimbal.init state) is = some (t, evs) ∧
      bytesRead is = stream junk fs) ∧
    ∀ is t evs, NoTimeout is → readThread.run (Gimbal.init state) is = some (t, evs) →
      (bytesRead is <+: stream junk fs → pushedOf evs <+: (caught junk fs).map Frame.attitude) ∧
      (bytesRead is = stream junk fs → pushedOf evs = (caught junk fs).map Frame.attitude) := by
  have hopen : (Gimbal.init state).phase.Open := by simp [Gimbal.init, Phase.Open]
  have hscan : (scan (stream junk fs)).map attitudeOf = (caught junk fs).map Frame.attitude := by
    rw [scan_stream h, List.map_map]
    rfl
  constructor
  · obtain ⟨t, evs, hr⟩ := run_bytes (stream junk fs) (s := Gimbal.init state) rfl hopen
    refine ⟨_, t, evs, fun i hi => ?_, hr, bytesRead_bytes _⟩
    obtain ⟨b, -, rfl⟩ := List.mem_map.1 hi
    exact ⟨[b], 0, rfl⟩
  · intro is t evs hno hr
    have hrun : ∀ rest, (scan (bytesRead is ++ rest)).map attitudeOf =
        pushedOf evs ++ (scanFrom t.phase rest).map attitudeOf := fun rest => (scanFrom_run hopen hno hr rest).1
    refine ⟨fun ⟨rest, hrest⟩ => ?_, fun hall => ?_⟩
    · rw [← hscan, ← hrest, hrun rest]
      exact List.prefix_append _ _
    · have hend := (scanFrom_run hopen hno hr []).2
      have hpushed := hrun []
      rw [List.append_nil, hall, scanFrom_nil hend, List.map_nil, List.append_nil, hscan] at hpushed
      exact hpushed.symm

/-- A frame in auto-aim mode, level, everything else zero. -/
def levelFrame : Frame where
  bytes := [headS, headP, 0x01, 0x00, 0x00, 0x80, 0x3f] ++ List.replicate 34 0x00 ++ [0xb0, 0xb6]
  size := rfl
  head := rfl
  crc := by decide +kernel

theorem headsOnly_levelFrame : HeadsOnly [0x00] [levelFrame, levelFrame] := by
  have hall : ∀ n < 87, (stream [0x00] [levelFrame, levelFrame])[n]? = some headS →
      (stream [0x00] [levelFrame, levelFrame])[n + 1]? = some headP →
        ∃ k < [levelFrame, levelFrame].length, n = [(0x00 : U8)].length + sizeofGimbalToVision * k := by
    decide +kernel
  intro n hs
  exact hall n (List.getElem?_eq_some_iff.1 hs).1 hs

/-- One byte of junk, then two frames: the second one is caught. -/
theorem thread_resynchronises_levelFrame :
    ∃ is t evs, NoTimeout is ∧ readThread.run (Gimbal.init ⟨⟨0⟩, ⟨0⟩, ⟨0⟩, ⟨0⟩, ⟨0⟩, 0⟩) is = some (t, evs) ∧
      pushedOf evs = [levelFrame.attitude] := by
  obtain ⟨⟨is, t, evs, hno, hr, hall⟩, hpushed⟩ :=
    thread_resynchronises [0x00] [levelFrame, levelFrame] headsOnly_levelFrame ⟨⟨0⟩, ⟨0⟩, ⟨0⟩, ⟨0⟩, ⟨0⟩, 0⟩
  exact ⟨is, t, evs, hno, hr, (hpushed is t evs hno hr).2 hall⟩

end GimbalSerial
end Vision
end LfSentry
