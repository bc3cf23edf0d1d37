import LfSentry.SerialPublish
/-!
# SerialHandlers — what a handler can and cannot do to the link

No handler touches `is_usb_ok_` itself (`spares_handlePacket`); a handler breaks the link by throwing, and when it throws
is told from the packet and the node (`handlePacket_returns_iff`).
-/
namespace LfSentry
namespace Serial

/-! ## The handlers leave the link alone -/

/-- A handler that never touches `is_usb_ok_` and `debug_`. -/
def Spares {α : Type} (x : Pub α) : Prop :=
  ∀ s, match x s with
    | .ok _ t => t.node.isUsbOk = s.node.isUsbOk ∧ t.node.debug = s.node.debug
    | .error _ t => t.node.isUsbOk = s.node.isUsbOk ∧ t.node.debug = s.node.debug

theorem spares_pure {α : Type} (a : α) : Spares (pure a : Pub α) := fun _ => ⟨rfl, rfl⟩

theorem spares_throw {α : Type} (e : Exn) : Spares (throw e : Pub α) := fun _ => ⟨rfl, rfl⟩

theorem spares_publish (msg : Msg) : Spares (publish msg) := fun _ => ⟨rfl, rfl⟩

theorem spares_getNode : Spares getNode := fun _ => ⟨rfl, rfl⟩

theorem spares_call {α : Type} : ∀ x : Except Exn α, Spares (call x)
  | .ok _ => fun _ => ⟨rfl, rfl⟩
  | .error _ => fun _ => ⟨rfl, rfl⟩

theorem spares_modifyNode {f : Node → Node} (h : ∀ n, (f n).isUsbOk = n.isUsbOk ∧ (f n).debug = n.debug) :
    Spares (modifyNode f) := fun s => h s.node

theorem spares_bind {α β : Type} {x : Pub α} {f : α → Pub β} (hx : Spares x) (hf : ∀ a, Spares (f a)) :
    Spares (x >>= f) := by
  intro s
  have h1 := hx s
  show match EStateM.bind x f s with | .ok _ t => _ | .error _ t => _
  unfold EStateM.bind
  cases hxs : x s with
  | error e t => rw [hxs] at h1; exact h1
  | ok a t =>
    rw [hxs] at h1
    have h2 := hf a t
    simp only
    cases hfs : f a t with
    | error e u => rw [hfs] at h2; exact ⟨h2.1.trans h1.1, h2.2.trans h1.2⟩
    | ok b u => rw [hfs] at h2; exact ⟨h2.1.trans h1.1, h2.2.trans h1.2⟩

theorem spares_forM {α : Type} {f : α → Pub Unit} (hf : ∀ a, Spares (f a)) : ∀ l : List α, Spares (l.forM f)
  | [] => spares_pure ()
  | a :: l => spares_bind (hf a) fun _ => spares_forM hf l

theorem spares_ite {α : Type} {c : Prop} [Decidable c] {x y : Pub α} (hx : Spares x) (hy : Spares y) :
    Spares (if c then x else y) := by
  split
  · exact hx
  · exact hy

theorem spares_debugPubAt (name : List U8) : Spares (debugPubAt name) :=
  spares_bind spares_getNode fun _ => spares_ite (spares_throw _) (spares_pure _)

/-- `publishDebugPackage`, from the lookup of the publisher on. -/
def publishDebugNamed (p : DebugPackage) : Pub Unit := do
  debugPubAt (nonZeroName p)
  publish (.debug (nonZeroName p) p.data.value)

theorem publishDebugPackage_eq (ros : Ros) (p : DebugPackage) :
    publishDebugPackage ros p =
      if (nonZeroName p).isEmpty then pure ()
      else getNode >>= fun n =>
        if !n.debugPubMap.contains (nonZeroName p)
        then createNewDebugPublisher ros (nonZeroName p) >>= fun _ => publishDebugNamed p
        else publishDebugNamed p := rfl

theorem spares_publishDebugPackage (ros : Ros) (package : DebugPackage) : Spares (publishDebugPackage ros package) := by
  have hcreate : ∀ name, Spares (createNewDebugPublisher ros name) := fun name =>
    spares_bind (spares_call _) fun _ => spares_modifyNode fun _ => ⟨rfl, rfl⟩
  have hnamed : Spares (publishDebugNamed package) :=
    spares_bind (spares_debugPubAt _) fun _ => spares_publish _
  rw [publishDebugPackage_eq]
  exact spares_ite (spares_pure ()) (spares_bind spares_getNode fun _ =>
    spares_ite (spares_bind (hcreate _) fun _ => hnamed) hnamed)

theorem spares_publishGameStatus (ros : Ros) (d : ReceiveGameStatusData) : Spares (publishGameStatus ros d) := by
  refine spares_bind (spares_publish _) fun _ => spares_bind spares_getNode fun n => spares_ite ?_ (spares_pure _)
  refine spares_bind (spares_modifyNode fun _ => ⟨rfl, rfl⟩) fun _ => ?_
  cases recordingService d.gameProgress with
  | none => exact spares_pure _
  | some name =>
    refine spares_bind ?_ fun _ => spares_pure _
    exact spares_bind spares_getNode fun _ => spares_bind (spares_modifyNode fun _ => ⟨rfl, rfl⟩) fun _ => spares_call _

theorem spares_publishRobotInfo (d : ReceiveRobotInfoData) : Spares (publishRobotInfo d) :=
  spares_bind (spares_call _) fun _ => spares_bind (spares_call _) fun _ => spares_bind (spares_call _) fun _ =>
    spares_bind (spares_call _) fun _ => spares_bind (spares_call _) fun _ => spares_publish _

theorem spares_publishRobotStatus (ros : Ros) (d : ReceiveRobotStatus) : Spares (publishRobotStatus ros d) := by
  refine spares_bind spares_getNode fun n => spares_bind (spares_modifyNode fun _ => ⟨rfl, rfl⟩) fun _ =>
    spares_bind (spares_publish _) fun _ => spares_ite ?_ (spares_pure _)
  cases getDetectColor d.robotId with
  | none => exact spares_pure _
  | some c =>
    refine spares_ite (spares_bind (spares_modifyNode fun _ => ⟨rfl, rfl⟩) fun _ => ?_) (spares_pure _)
    exact spares_bind spares_getNode fun _ => spares_bind (spares_modifyNode fun _ => ⟨rfl, rfl⟩) fun _ => spares_call _

/-- **No handler touches the link.** -/
theorem spares_handlePacket (ros : Ros) : ∀ p : Packet, Spares (handlePacket ros p)
  | .decoded .debug _ => spares_forM (spares_publishDebugPackage ros) _
  | .decoded .imu _ => spares_bind (spares_publish _) fun _ => spares_bind spares_getNode fun _ => spares_publish _
  | .decoded .robotInfo _ => spares_publishRobotInfo _
  | .decoded .event _ => spares_publish _
  | .decoded .allRobotHp _ => spares_publish _
  | .decoded .gameStatus _ => spares_publishGameStatus ros _
  | .decoded .robotMotion _ => spares_publish _
  | .decoded .groundRobotPosition _ => spares_publish _
  | .decoded .rfidStatus _ => spares_publish _
  | .decoded .robotStatus _ => spares_publishRobotStatus ros _
  | .decoded .jointState _ => spares_modifyNode fun _ => ⟨rfl, rfl⟩
  | .decoded .buff _ => spares_publish _
  | .decoded .sentryInfo _ => spares_publish _
  | .decoded .mapCommand _ => spares_publish _
  | .decoded .bulletSpeed _ => spares_publish _
  | .notHandled _ => spares_pure ()

/-! ## When a handler throws -/

/-- The handler returns. -/
def Returns {α : Type} (x : Pub α) (st : PubState) : Prop := ∃ a st', x st = .ok a st'

section
variable {α β : Type} {x : Pub α} {f : α → Pub β} {st : PubState}

theorem bind_of_ok {a : α} {st' : PubState} (h : x st = .ok a st') : (x >>= f) st = f a st' := by
  show EStateM.bind x f st = f a st'
  unfold EStateM.bind
  rw [h]

theorem bind_of_error {e : Exn} {st' : PubState} (h : x st = .error e st') : (x >>= f) st = .error e st' := by
  show EStateM.bind x f st = .error e st'
  unfold EStateM.bind
  rw [h]

theorem returns_bind_of_ok {a : α} {st' : PubState} (h : x st = .ok a st') :
    Returns (x >>= f) st ↔ Returns (f a) st' := by
  unfold Returns
  rw [bind_of_ok h]

theorem not_returns_error {e : Exn} {st' : PubState} (h : x st = .error e st') : ¬ Returns x st := by
  rintro ⟨a, st₁, h₁⟩
  rw [h] at h₁
  cases h₁

theorem returns_call {e : Except Exn α} : Returns (call e) st ↔ ∃ a, e = .ok a := by
  cases e with
  | ok a => exact ⟨fun _ => ⟨a, rfl⟩, fun _ => ⟨a, st, rfl⟩⟩
  | error e => exact ⟨fun h => absurd h (not_returns_error rfl), nofun⟩

theorem returns_call_bind {e : Except Exn α} : Returns (call e >>= f) st ↔ ∃ a, e = .ok a ∧ Returns (f a) st := by
  cases e with
  | ok a =>
    refine (returns_bind_of_ok rfl).trans ⟨fun h => ⟨a, rfl, h⟩, ?_⟩
    rintro ⟨b, hb, h⟩
    cases hb
    exact h
  | error e => exact ⟨fun h => absurd h (not_returns_error (bind_of_error rfl)), nofun⟩

theorem returns_bind_of_forall (hf : ∀ a st', Returns (f a) st') : Returns (x >>= f) st ↔ Returns x st := by
  cases hx : x st with
  | ok a st' => exact (returns_bind_of_ok hx).trans ⟨fun _ => ⟨a, st', hx⟩, fun _ => hf a st'⟩
  | error e st' =>
    exact ⟨fun h => absurd h (not_returns_error (bind_of_error hx)), fun h => absurd h (not_returns_error hx)⟩

theorem returns_publish (msg : Msg) : Returns (publish msg) st := ⟨(), _, rfl⟩

theorem returns_pure (a : α) : Returns (pure a) st := ⟨a, st, rfl⟩

theorem returns_publish_bind {msg : Msg} {g : Unit → Pub β} :
    Returns (publish msg >>= g) st ↔ Returns (g ()) { st with out := st.out ++ [msg] } := returns_bind_of_ok rfl

theorem returns_getNode_bind {g : Node → Pub β} : Returns (getNode >>= g) st ↔ Returns (g st.node) st :=
  returns_bind_of_ok rfl

theorem returns_modifyNode_bind {h : Node → Node} {g : Unit → Pub β} :
    Returns (modifyNode h >>= g) st ↔ Returns (g ()) { st with node := h st.node } := returns_bind_of_ok rfl

end

theorem mapAt_ok_iff {m : List (U8 × String)} {k : U8} : (∃ v, mapAt m k = .ok v) ↔ k ∈ m.map Prod.fst := by
  have hl : (∃ v, mapAt m k = .ok v) ↔ (m.lookup k).isSome = true := by
    unfold mapAt
    cases m.lookup k with
    | none => exact ⟨nofun, nofun⟩
    | some v => exact ⟨fun _ => rfl, fun _ => ⟨v, rfl⟩⟩
  rw [hl]
  clear hl
  induction m with
  | nil => simp
  | cons p m ih =>
    obtain ⟨k', v⟩ := p
    rw [List.lookup_cons, List.map_cons, List.mem_cons]
    by_cases hk : k = k'
    · simp [hk]
    · simp only [beq_eq_false_iff_ne.2 hk, hk, false_or]
      exact ih

section
variable (ros : Ros)

/-- A debug package can be published: it has no name, its publisher exists, or one can be made. -/
def AcceptsPackage (n : Node) (p : DebugPackage) : Prop :=
  nonZeroName p = [] ∨ nonZeroName p ∈ n.debugPubMap ∨
    ∃ u, ros.createPublisher (ascii "serial/debug/" ++ nonZeroName p) = .ok u

/-- What a packet must contain, given the node and the other nodes, for its handler not to throw. -/
def Accepts (n : Node) : Packet → Prop
  | .decoded .debug s => ∀ p ∈ (decode ReceiveDebugData.read s).packages, AcceptsPackage ros n p
  | .decoded .robotInfo s =>
    let d := decode ReceiveRobotInfoData.read s
    d.chassis ∈ RobotModels.chassis.map Prod.fst ∧ d.gimbal ∈ RobotModels.gimbal.map Prod.fst ∧
      d.shoot ∈ RobotModels.shoot.map Prod.fst ∧ d.arm ∈ RobotModels.arm.map Prod.fst ∧
      d.customController ∈ RobotModels.customController.map Prod.fst
  | .decoded .gameStatus s =>
    let d := decode ReceiveGameStatusData.read s
    n.recordRosbag = true → d.gameProgress ≠ n.previousGameProgress →
      ∀ serviceName, recordingService d.gameProgress = some serviceName →
        ∃ b, ros.callTriggerService n.rosCalls serviceName = .ok b
  | .decoded .robotStatus s =>
    let d := decode ReceiveRobotStatus.read s
    n.setDetectorColor = true → ∀ detectColor, getDetectColor d.robotId = some detectColor →
      (n.initialSetParam = false ∨ detectColor ≠ n.previousReceiveColor) →
        ∃ u, ros.setParam n.rosCalls detectColor = .ok u
  | _ => True

variable {ros}

theorem returns_publishRobotInfo (d : ReceiveRobotInfoData) (st : PubState) :
    Returns (publishRobotInfo d) st ↔
      d.chassis ∈ RobotModels.chassis.map Prod.fst ∧ d.gimbal ∈ RobotModels.gimbal.map Prod.fst ∧
        d.shoot ∈ RobotModels.shoot.map Prod.fst ∧ d.arm ∈ RobotModels.arm.map Prod.fst ∧
        d.customController ∈ RobotModels.customController.map Prod.fst := by
  unfold publishRobotInfo
  simp only [returns_call_bind, ← mapAt_ok_iff]
  constructor
  · rintro ⟨a, ha, b, hb, c, hc, e, he, g, hg, -⟩
    exact ⟨⟨a, ha⟩, ⟨b, hb⟩, ⟨c, hc⟩, ⟨e, he⟩, ⟨g, hg⟩⟩
  · rintro ⟨⟨a, ha⟩, ⟨b, hb⟩, ⟨c, hc⟩, ⟨e, he⟩, ⟨g, hg⟩⟩
    exact ⟨a, ha, b, hb, c, hc, e, he, g, hg, returns_publish _⟩

theorem returns_callTriggerService (serviceName : String) (st : PubState) :
    Returns (callTriggerService ros serviceName) st ↔
      ∃ b, ros.callTriggerService st.node.rosCalls serviceName = .ok b := by
  unfold callTriggerService
  rw [returns_getNode_bind, returns_modifyNode_bind, returns_call]

theorem returns_setParam (detectColor : U8) (st : PubState) :
    Returns (setParam ros detectColor) st ↔ ∃ u, ros.setParam st.node.rosCalls detectColor = .ok u := by
  unfold setParam
  rw [returns_getNode_bind, returns_modifyNode_bind, returns_call]

theorem returns_publishGameStatus (d : ReceiveGameStatusData) (st : PubState) :
    Returns (publishGameStatus ros d) st ↔
      (st.node.recordRosbag = true → d.gameProgress ≠ st.node.previousGameProgress →
        ∀ serviceName, recordingService d.gameProgress = some serviceName →
          ∃ b, ros.callTriggerService st.node.rosCalls serviceName = .ok b) := by
  unfold publishGameStatus
  rw [returns_publish_bind, returns_getNode_bind]
  by_cases hc : (st.node.recordRosbag && d.gameProgress != st.node.previousGameProgress) = true
  · rw [if_pos hc, returns_modifyNode_bind]
    simp only [Bool.and_eq_true, bne_iff_ne] at hc
    cases recordingService d.gameProgress with
    | none => exact ⟨fun _ _ _ => nofun, fun _ => returns_pure _⟩
    | some serviceName =>
      rw [returns_bind_of_forall fun _ _ => returns_pure _, returns_callTriggerService]
      refine ⟨fun h _ _ name hname => ?_, fun h => h hc.1 hc.2 _ rfl⟩
      cases hname
      exact h
  · rw [if_neg hc]
    simp only [Bool.and_eq_true, bne_iff_ne] at hc
    exact ⟨fun _ h1 h2 => absurd ⟨h1, h2⟩ hc, fun _ => returns_pure _⟩

theorem returns_publishRobotStatus (d : ReceiveRobotStatus) (st : PubState) :
    Returns (publishRobotStatus ros d) st ↔
      (st.node.setDetectorColor = true → ∀ detectColor, getDetectColor d.robotId = some detectColor →
        (st.node.initialSetParam = false ∨ detectColor ≠ st.node.previousReceiveColor) →
          ∃ u, ros.setParam st.node.rosCalls detectColor = .ok u) := by
  unfold publishRobotStatus
  rw [returns_getNode_bind, returns_modifyNode_bind, returns_publish_bind]
  by_cases hset : st.node.setDetectorColor = true
  · rw [if_pos hset]
    cases getDetectColor d.robotId with
    | none => exact ⟨fun _ _ _ => nofun, fun _ => returns_pure _⟩
    | some detectColor =>
      dsimp only
      by_cases hc : (!st.node.initialSetParam || detectColor != st.node.previousReceiveColor) = true
      · rw [if_pos hc, returns_modifyNode_bind, returns_setParam]
        simp only [Bool.or_eq_true, Bool.not_eq_true', bne_iff_ne] at hc
        refine ⟨fun h _ c hcolor _ => ?_, fun h => h hset _ rfl hc⟩
        cases hcolor
        exact h
      · rw [if_neg hc]
        simp only [Bool.or_eq_true, Bool.not_eq_true', bne_iff_ne] at hc
        refine ⟨fun _ _ c hcolor h => ?_, fun _ => returns_pure _⟩
        cases hcolor
        exact absurd h hc
  · rw [if_neg hset]
    exact ⟨fun _ h => absurd h hset, fun _ => returns_pure _⟩

theorem getNode_bind {β : Type} (g : Node → Pub β) (st : PubState) : (getNode >>= g) st = g st.node st := rfl

theorem publishDebugNamed_known {p : DebugPackage} {st : PubState} (hin : nonZeroName p ∈ st.node.debugPubMap) :
    publishDebugNamed p st = publish (.debug (nonZeroName p) p.data.value) st := by
  have hat : debugPubAt (nonZeroName p) st = .ok () st := by
    unfold debugPubAt
    rw [getNode_bind, if_neg (by simpa using hin)]
    rfl
  exact bind_of_ok hat

theorem createNewDebugPublisher_ok {name : List U8} {st : PubState} {u : Unit}
    (hc : ros.createPublisher (ascii "serial/debug/" ++ name) = .ok u) :
    createNewDebugPublisher ros name st =
      .ok () { st with node := { st.node with debugPubMap := name :: st.node.debugPubMap } } := by
  unfold createNewDebugPublisher
  rw [hc]
  rfl

theorem createNewDebugPublisher_error {name : List U8} {st : PubState} {e : Exn}
    (hc : ros.createPublisher (ascii "serial/debug/" ++ name) = .error e) :
    createNewDebugPublisher ros name st = .error e st := by
  unfold createNewDebugPublisher
  rw [hc]
  rfl

theorem publishDebugPackage_ok {p : DebugPackage} {st : PubState} (h : AcceptsPackage ros st.node p) :
    ∃ st', publishDebugPackage ros p st = .ok () st' ∧
      ∀ p', AcceptsPackage ros st'.node p' ↔ AcceptsPackage ros st.node p' := by
  rw [publishDebugPackage_eq]
  by_cases hne : nonZeroName p = []
  · rw [if_pos (by simpa using hne)]
    exact ⟨st, rfl, fun _ => Iff.rfl⟩
  rw [if_neg (by simpa using hne), getNode_bind]
  by_cases hin : nonZeroName p ∈ st.node.debugPubMap
  · rw [if_neg (by simpa using hin), publishDebugNamed_known hin]
    exact ⟨_, rfl, fun _ => Iff.rfl⟩
  obtain ⟨u, hc⟩ := (h.resolve_left hne).resolve_left hin
  rw [if_pos (by simpa using hin), bind_of_ok (createNewDebugPublisher_ok hc),
    publishDebugNamed_known (by exact List.mem_cons_self)]
  refine ⟨_, rfl, fun p' => ?_⟩
  -- the name made known is one that could be made anyway
  unfold AcceptsPackage
  simp only [List.mem_cons]
  constructor
  · rintro (h | (h | h) | h)
    · exact .inl h
    · exact .inr (.inr ⟨u, h ▸ hc⟩)
    · exact .inr (.inl h)
    · exact .inr (.inr h)
  · rintro (h | h | h)
    · exact .inl h
    · exact .inr (.inl (.inr h))
    · exact .inr (.inr h)

theorem publishDebugPackage_error {p : DebugPackage} {st : PubState} (h : ¬ AcceptsPackage ros st.node p) :
    ∃ e, publishDebugPackage ros p st = .error e st := by
  simp only [AcceptsPackage, not_or] at h
  rw [publishDebugPackage_eq, if_neg (by simpa using h.1), getNode_bind, if_pos (by simpa using h.2.1)]
  cases hc : ros.createPublisher (ascii "serial/debug/" ++ nonZeroName p) with
  | ok u => exact absurd ⟨u, hc⟩ h.2.2
  | error e => exact ⟨e, bind_of_error (createNewDebugPublisher_error hc)⟩

theorem returns_packages : ∀ (ps : List DebugPackage) (st : PubState),
    Returns (ps.forM (publishDebugPackage ros)) st ↔ ∀ p ∈ ps, AcceptsPackage ros st.node p
  | [], st => ⟨fun _ => nofun, fun _ => returns_pure ()⟩
  | p :: ps, st => by
    show Returns (publishDebugPackage ros p >>= fun _ => ps.forM (publishDebugPackage ros)) st ↔ _
    rw [List.forall_mem_cons]
    by_cases h : AcceptsPackage ros st.node p
    · obtain ⟨st', hok, hsame⟩ := publishDebugPackage_ok h
      rw [returns_bind_of_ok hok, returns_packages ps st', and_iff_right h]
      exact forall_congr' fun p' => imp_congr_right fun _ => hsame p'
    · obtain ⟨e, herr⟩ := publishDebugPackage_error h
      exact ⟨fun hr => absurd hr (not_returns_error (bind_of_error herr)), fun hp => absurd hp.1 h⟩

/-- **A handler returns exactly on the packets it accepts.** -/
theorem handlePacket_returns_iff (st : PubState) : ∀ p : Packet,
    Returns (handlePacket ros p) st ↔ Accepts ros st.node p
  | .decoded .debug _ => returns_packages _ st
  | .decoded .imu _ => iff_of_true ⟨(), _, rfl⟩ trivial
  | .decoded .robotInfo _ => returns_publishRobotInfo _ st
  | .decoded .event _ => iff_of_true ⟨(), _, rfl⟩ trivial
  | .decoded .allRobotHp _ => iff_of_true ⟨(), _, rfl⟩ trivial
  | .decoded .gameStatus _ => returns_publishGameStatus _ st
  | .decoded .robotMotion _ => iff_of_true ⟨(), _, rfl⟩ trivial
  | .decoded .groundRobotPosition _ => iff_of_true ⟨(), _, rfl⟩ trivial
  | .decoded .rfidStatus _ => iff_of_true ⟨(), _, rfl⟩ trivial
  | .decoded .robotStatus _ => returns_publishRobotStatus _ st
  | .decoded .jointState _ => iff_of_true ⟨(), _, rfl⟩ trivial
  | .decoded .buff _ => iff_of_true ⟨(), _, rfl⟩ trivial
  | .decoded .sentryInfo _ => iff_of_true ⟨(), _, rfl⟩ trivial
  | .decoded .mapCommand _ => iff_of_true ⟨(), _, rfl⟩ trivial
  | .decoded .bulletSpeed _ => iff_of_true ⟨(), _, rfl⟩ trivial
  | .notHandled _ => iff_of_true ⟨(), _, rfl⟩ trivial

end

end Serial
end LfSentry
