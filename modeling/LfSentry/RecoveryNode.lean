import LfSentry.Decorators
/-!
# RecoveryNode — try, recover, try again (`plugins/control/recovery_node.cpp`)

The first child is ticked until it succeeds; each time it fails the second one is run before the next attempt.  A tick of
the node takes the statuses that its children answer with, in the order in which it ticks them.  A child that answers
SKIPPED makes it throw, so the promises of the node are those of the ticks with no such answer (`recoveryNode_iff`).
-/
namespace LfSentry
namespace Behavior

/-! ## The node -/

structure RecoveryNode where
  currentChildIdx : Nat
  retryCount : Nat
  deriving DecidableEq, Repr

namespace RecoveryNode

/-- As it is constructed, and as `halt` leaves it. -/
def fresh : RecoveryNode := ⟨0, 0⟩

/-- What is fixed for a node of the tree: its name, its port and its children. -/
structure Config where
  name : String
  numAttempts : Nat
  childrenCount : Nat

/-- After a child's answer the loop goes on, or the tick ends. -/
inductive Next
  | again (node : RecoveryNode)
  | stop (node : RecoveryNode) (result : Except String NodeStatus)

def onChild (numAttempts : Nat) (node : RecoveryNode) (childStatus : NodeStatus) : Next :=
  if node.currentChildIdx = 0 then
    match childStatus with
    | .success => .stop fresh (.ok .success)
    | .failure =>
      if node.retryCount < numAttempts then .again { node with currentChildIdx := node.currentChildIdx + 1 }
      else .stop fresh (.ok .failure)
    | .running => .stop node (.ok .running)
    | _ => .stop node (.error "A child node must never return IDLE")
  else if node.currentChildIdx = 1 then
    match childStatus with
    | .success => .again ⟨node.currentChildIdx - 1, node.retryCount + 1⟩
    | .failure => .stop fresh (.ok .failure)
    | .running => .stop node (.ok .running)
    | _ => .stop node (.error "A child node must never return IDLE")
  else .again node

/-- Which child was ticked, and its answer. -/
abbrev Ticked := List (Nat × NodeStatus)

/-- The `while` loop over the answers of the children; none where there are fewer or more of them than it takes. -/
def loop (config : Config) : RecoveryNode → List NodeStatus → Option (RecoveryNode × Except String NodeStatus × Ticked)
  | node, [] =>
    if node.currentChildIdx < config.childrenCount ∧ node.retryCount ≤ config.numAttempts then none
    else some (fresh, .ok .failure, [])
  | node, childStatus :: answers =>
    if node.currentChildIdx < config.childrenCount ∧ node.retryCount ≤ config.numAttempts then
      match onChild config.numAttempts node childStatus with
      | .again node' =>
        (loop config node' answers).map fun p => (p.1, p.2.1, (node.currentChildIdx, childStatus) :: p.2.2)
      | .stop node' result =>
        if answers.isEmpty then some (node', result, [(node.currentChildIdx, childStatus)]) else none
    else none

def tick (config : Config) (node : RecoveryNode) (answers : List NodeStatus) :
    Option (RecoveryNode × Except String NodeStatus × Ticked) :=
  if config.childrenCount ≠ 2 then
    if answers.isEmpty then
      some (node, .error ("Recovery Node '" ++ config.name ++ "' must only have 2 children."), [])
    else none
  else loop config node answers

inductive Label
  | tick (answers : List NodeStatus)
  | halt
  deriving DecidableEq, Repr

/-- A tick as it is seen: what the node returns, and which children it ticked with which answers. -/
structure Record where
  result : Except String NodeStatus
  ticked : Ticked

/-- The node under ticks and halts in any order. -/
def machine (config : Config) : Machine RecoveryNode Label Record where
  step node
    | .tick answers => (tick config node answers).map fun p => (p.1, [⟨p.2.1, p.2.2⟩])
    | .halt => some (fresh, [])

/-! ## What is promised -/

/-- How often a child completes. -/
def completions (child : Nat) (ticked : Ticked) : Nat := ticked.countP fun t => decide (t.1 = child) && t.2.completed

def Record.ended (r : Record) : Bool :=
  match r.result with
  | .ok status => status.completed
  | .error _ => false

/-- The completions of the two children in the activation that goes on. -/
structure Tally where
  first : Nat
  second : Nat

def Tally.add (tally : Tally) (r : Record) : Tally :=
  if r.ended then ⟨0, 0⟩ else ⟨tally.first + completions 0 r.ticked, tally.second + completions 1 r.ticked⟩

/-- The node with the tally of its activation; a halt ends one. -/
def recorded (config : Config) : Machine (RecoveryNode × Tally) Label Record :=
  (machine config).ghost fun tally _ label q =>
    match label with
    | .tick _ => q.2.foldl Tally.add tally
    | .halt => ⟨0, 0⟩

/-- **The promise of a step**: no exception; success exactly with the first child's; the completions within the bounds of an
activation; where the activation is over, the next one starts anew. -/
def Keeps (config : Config) (p : RecoveryNode × Tally) (label : Label) : Prop :=
  ∀ q es, (recorded config).step p label = some (q, es) → ∀ r ∈ es,
    (∃ status, r.result = .ok status) ∧
    (r.result = .ok .success ↔ (0, NodeStatus.success) ∈ r.ticked) ∧
    (p.2.first + completions 0 r.ticked ≤ config.numAttempts + 1 ∧
      p.2.second + completions 1 r.ticked ≤ config.numAttempts) ∧
    (r.ended = true → q.1.currentChildIdx = 0 ∧ q.1.retryCount = 0)

/-! ## One tick -/

section Loop

variable {config : Config} {node node' : RecoveryNode} {childStatus : NodeStatus} {answers : List NodeStatus}
  {result : Except String NodeStatus} {ticked : Ticked} {tally : Tally} {n : Nat}

/-- The counters of the node are those of its activation. -/
structure Matches (n : Nat) (node : RecoveryNode) (tally : Tally) : Prop where
  idx : node.currentChildIdx = 0 ∨ node.currentChildIdx = 1
  bound : node.retryCount + node.currentChildIdx ≤ n
  first : tally.first = node.retryCount + node.currentChildIdx
  second : tally.second = node.retryCount

theorem matches_fresh (n : Nat) : Matches n fresh ⟨0, 0⟩ := ⟨Or.inl rfl, Nat.zero_le n, rfl, rfl⟩

/-- The tally after one more answer. -/
def Tally.tick (tally : Tally) (idx : Nat) (childStatus : NodeStatus) : Tally :=
  ⟨tally.first + completions 0 [(idx, childStatus)], tally.second + completions 1 [(idx, childStatus)]⟩

theorem completions_cons (child : Nat) (t : Nat × NodeStatus) (ticked : Ticked) :
    completions child (t :: ticked) = completions child [t] + completions child ticked := by
  unfold completions
  rw [← List.singleton_append, List.countP_append]

theorem completions_singleton (child idx : Nat) (childStatus : NodeStatus) :
    completions child [(idx, childStatus)] = if idx = child ∧ childStatus.completed = true then 1 else 0 := by
  simp [completions]

/-- **The loop goes on after the first child's failure with an attempt left and after the second one's success.** -/
theorem onChild_again (h : Matches n node tally) (hnext : onChild n node childStatus = .again node') :
    Matches n node' (tally.tick node.currentChildIdx childStatus) ∧
      (node.currentChildIdx = 0 ∧ childStatus = .failure ∨ node.currentChildIdx = 1 ∧ childStatus = .success) := by
  obtain ⟨idx, retry⟩ := node
  obtain ⟨hidx, hbound, hfirst, hsecond⟩ := h
  rcases hidx with rfl | rfl
  · cases childStatus with
    | failure =>
      by_cases hlt : retry < n
      · simp [onChild, hlt] at hnext
        subst hnext
        refine ⟨⟨Or.inr rfl, hlt, ?_, ?_⟩, Or.inl ⟨rfl, rfl⟩⟩
        · simp [Tally.tick, completions_singleton, NodeStatus.completed, hfirst]
        · simp [Tally.tick, completions_singleton, hsecond]
      · simp [onChild, hlt] at hnext
    | _ => simp [onChild] at hnext
  · cases childStatus with
    | success =>
      simp [onChild] at hnext
      subst hnext
      refine ⟨⟨Or.inl rfl, hbound, ?_, ?_⟩, Or.inr ⟨rfl, rfl⟩⟩
      · simp [Tally.tick, completions_singleton, hfirst]
      · simp [Tally.tick, completions_singleton, NodeStatus.completed, hsecond]
    | _ => simp [onChild] at hnext

/-- What is true of a tick from a node and a tally. -/
structure Outcome (n : Nat) (tally : Tally) (answers : List NodeStatus) (node' : RecoveryNode)
    (result : Except String NodeStatus) (ticked : Ticked) : Prop where
  total : (∃ status, result = .ok status) ↔ ∀ a ∈ answers, a ≠ .idle ∧ a ≠ .skipped
  success : result = .ok .success ↔ (0, NodeStatus.success) ∈ ticked
  first : tally.first + completions 0 ticked ≤ n + 1
  second : tally.second + completions 1 ticked ≤ n
  ended : ∀ status, result = .ok status → status.completed = true → node' = fresh
  goesOn : ∀ status, result = .ok status → status.completed = false →
    Matches n node' ⟨tally.first + completions 0 ticked, tally.second + completions 1 ticked⟩

/-- One more completion of the child at hand is within the bounds. -/
theorem Matches.tick_le (h : Matches n node tally) (childStatus : NodeStatus) :
    tally.first + completions 0 [(node.currentChildIdx, childStatus)] ≤ n + 1 ∧
      tally.second + completions 1 [(node.currentChildIdx, childStatus)] ≤ n := by
  obtain ⟨hidx, hbound, hfirst, hsecond⟩ := h
  rw [completions_singleton, completions_singleton, hfirst, hsecond]
  constructor
  · split_ifs <;> omega
  · split_ifs <;> omega

theorem outcome_running (h : Matches n node tally) :
    Outcome n tally [.running] node (.ok .running) [(node.currentChildIdx, .running)] where
  total := by simp
  success := by simp
  first := (h.tick_le .running).1
  second := (h.tick_le .running).2
  ended := by simp [NodeStatus.completed]
  goesOn _ _ _ := by simpa [completions_singleton, NodeStatus.completed] using h

theorem outcome_error (h : Matches n node tally) (hbad : childStatus = .idle ∨ childStatus = .skipped) (error : String) :
    Outcome n tally [childStatus] node (.error error) [(node.currentChildIdx, childStatus)] where
  total := by rcases hbad with rfl | rfl <;> simp
  success := by rcases hbad with rfl | rfl <;> simp
  first := (h.tick_le childStatus).1
  second := (h.tick_le childStatus).2
  ended _ hr := by cases hr
  goesOn _ hr := by cases hr

theorem outcome_completed (h : Matches n node tally) {status : NodeStatus} (hchild : childStatus.completed = true)
    (hstatus : status.completed = true) (hsuccess : status = .success ↔ node.currentChildIdx = 0 ∧ childStatus = .success) :
    Outcome n tally [childStatus] fresh (.ok status) [(node.currentChildIdx, childStatus)] where
  total := by
    refine ⟨fun _ a ha => ?_, fun _ => ⟨status, rfl⟩⟩
    rw [List.mem_singleton.1 ha]
    cases childStatus <;> simp [NodeStatus.completed] at hchild ⊢
  success := by simp [hsuccess, eq_comm]
  first := (h.tick_le childStatus).1
  second := (h.tick_le childStatus).2
  ended _ _ _ := rfl
  goesOn _ hr hc := by
    cases hr
    rw [hstatus] at hc
    cases hc

theorem onChild_running (hidx : node.currentChildIdx = 0 ∨ node.currentChildIdx = 1) :
    onChild n node .running = .stop node (.ok .running) := by
  rcases hidx with hidx | hidx <;> simp [onChild, hidx]

theorem onChild_bad (hidx : node.currentChildIdx = 0 ∨ node.currentChildIdx = 1)
    (hbad : childStatus = .idle ∨ childStatus = .skipped) :
    onChild n node childStatus = .stop node (.error "A child node must never return IDLE") := by
  rcases hidx with hidx | hidx <;> rcases hbad with rfl | rfl <;> simp [onChild, hidx]

theorem onChild_stop (h : Matches n node tally) (hnext : onChild n node childStatus = .stop node' result) :
    Outcome n tally [childStatus] node' result [(node.currentChildIdx, childStatus)] := by
  cases childStatus with
  | success =>
    rcases h.idx with hidx | hidx
    · obtain ⟨rfl, rfl⟩ : fresh = node' ∧ .ok .success = result := by simpa [onChild, hidx] using hnext
      exact outcome_completed h rfl rfl (by simp [hidx])
    · simp [onChild, hidx] at hnext
  | failure =>
    have hfailed : fresh = node' ∧ .ok .failure = result := by
      rcases h.idx with hidx | hidx
      · by_cases hlt : node.retryCount < n
        · simp [onChild, hidx, hlt] at hnext
        · simpa [onChild, hidx, hlt] using hnext
      · simpa [onChild, hidx] using hnext
    obtain ⟨rfl, rfl⟩ := hfailed
    exact outcome_completed h rfl rfl (by simp)
  | running =>
    rw [onChild_running h.idx] at hnext
    cases hnext
    exact outcome_running h
  | idle =>
    rw [onChild_bad h.idx (Or.inl rfl)] at hnext
    cases hnext
    exact outcome_error h (Or.inl rfl) _
  | skipped =>
    rw [onChild_bad h.idx (Or.inr rfl)] at hnext
    cases hnext
    exact outcome_error h (Or.inr rfl) _

/-- **An answer after which the loop goes on, before a tick from there.** -/
theorem Outcome.cons (hidx : node.currentChildIdx = 0 ∧ childStatus = .failure ∨
      node.currentChildIdx = 1 ∧ childStatus = .success)
    (h : Outcome n (tally.tick node.currentChildIdx childStatus) answers node' result ticked) :
    Outcome n tally (childStatus :: answers) node' result ((node.currentChildIdx, childStatus) :: ticked) where
  total := by
    rw [h.total, List.forall_mem_cons]
    refine (and_iff_right ?_).symm
    rcases hidx with ⟨-, rfl⟩ | ⟨-, rfl⟩ <;> simp
  success := by
    rw [h.success, List.mem_cons, or_iff_right]
    rintro heq
    rw [Prod.mk.injEq] at heq
    rcases hidx with ⟨-, rfl⟩ | ⟨h1, rfl⟩
    · cases heq.2
    · rw [h1] at heq
      cases heq.1
  first := by
    rw [completions_cons, ← Nat.add_assoc]
    exact h.first
  second := by
    rw [completions_cons, ← Nat.add_assoc]
    exact h.second
  ended := h.ended
  goesOn status hr hc := by
    rw [completions_cons, completions_cons 1, ← Nat.add_assoc, ← Nat.add_assoc]
    exact h.goesOn status hr hc

/-- **The loop.** -/
theorem loop_outcome (hcount : config.childrenCount = 2) :
    ∀ {answers : List NodeStatus} {node node' : RecoveryNode} {tally : Tally} {result : Except String NodeStatus}
      {ticked : Ticked}, Matches config.numAttempts node tally → loop config node answers = some (node', result, ticked) →
        Outcome config.numAttempts tally answers node' result ticked
  | [], node, node', tally, result, ticked, hm, h => by
    have hcond : node.currentChildIdx < config.childrenCount ∧ node.retryCount ≤ config.numAttempts := by
      have hidx := hm.idx
      have hbound := hm.bound
      omega
    rw [loop, if_pos hcond] at h
    cases h
  | childStatus :: answers, node, node', tally, result, ticked, hm, h => by
    have hcond : node.currentChildIdx < config.childrenCount ∧ node.retryCount ≤ config.numAttempts := by
      have hidx := hm.idx
      have hbound := hm.bound
      omega
    rw [loop, if_pos hcond] at h
    cases hnext : onChild config.numAttempts node childStatus with
    | again node₁ =>
      rw [hnext] at h
      obtain ⟨⟨node₂, result', ticked'⟩, hloop, heq⟩ := Option.map_eq_some_iff.1 h
      simp only [Prod.mk.injEq] at heq
      obtain ⟨rfl, rfl, rfl⟩ := heq
      obtain ⟨hm', hidx⟩ := onChild_again hm hnext
      exact Outcome.cons hidx (loop_outcome hcount hm' hloop)
    | stop node₁ result' =>
      rw [hnext] at h
      dsimp only at h
      by_cases hempty : answers.isEmpty = true
      · rw [if_pos hempty] at h
        obtain rfl := List.isEmpty_iff.1 hempty
        simp only [Option.some.injEq, Prod.mk.injEq] at h
        obtain ⟨rfl, rfl, rfl⟩ := h
        exact onChild_stop hm hnext
      · rw [if_neg hempty] at h
        cases h

/-- **A tick ends whatever the children answer**, after at most `2 · (N − retries) + 1` answers, one less if it starts at the
second child. -/
theorem loop_ends (hcount : config.childrenCount = 2) :
    ∀ {answers : List NodeStatus} {node : RecoveryNode} {tally : Tally}, Matches config.numAttempts node tally →
      2 * (config.numAttempts - node.retryCount) + 1 - node.currentChildIdx ≤ answers.length →
        ∃ k ≤ answers.length, (loop config node (answers.take k)).isSome
  | [], node, tally, hm, hlen => by
    have hidx := hm.idx
    have hbound := hm.bound
    simp only [List.length_nil] at hlen
    omega
  | childStatus :: answers, node, tally, hm, hlen => by
    have hidx := hm.idx
    have hbound := hm.bound
    have hcond : node.currentChildIdx < config.childrenCount ∧ node.retryCount ≤ config.numAttempts := by omega
    rw [List.length_cons] at hlen
    cases hnext : onChild config.numAttempts node childStatus with
    | again node₁ =>
      obtain ⟨hm', -⟩ := onChild_again hm hnext
      have hfirst := hm'.first
      have hsecond := hm'.second
      have hlen' : 2 * (config.numAttempts - node₁.retryCount) + 1 - node₁.currentChildIdx ≤ answers.length := by
        have h1 := hm.first
        have h2 := hm.second
        have hbound' := hm'.bound
        have hsum : completions 0 [(node.currentChildIdx, childStatus)] +
            completions 1 [(node.currentChildIdx, childStatus)] = 1 := by
          rw [completions_singleton, completions_singleton]
          rcases (onChild_again hm hnext).2 with ⟨h0, rfl⟩ | ⟨h1, rfl⟩
          · simp [h0, NodeStatus.completed]
          · simp [h1, NodeStatus.completed]
        simp only [Tally.tick] at hfirst hsecond
        omega
      obtain ⟨k, hk, hsome⟩ := loop_ends hcount hm' hlen'
      refine ⟨k + 1, by rw [List.length_cons]; omega, ?_⟩
      rw [List.take_succ_cons, loop, if_pos hcond, hnext]
      simpa using hsome
    | stop node₁ result' =>
      refine ⟨1, by rw [List.length_cons]; omega, ?_⟩
      rw [List.take_succ_cons, List.take_zero, loop, if_pos hcond, hnext]
      rfl

end Loop

/-! ## Runs -/

section Run

variable {config : Config} {p q : RecoveryNode × Tally} {label : Label} {labels : List Label} {es : List Record}

/-- **A step of the node with its tally.** -/
theorem recorded_step (hcount : config.childrenCount = 2) (hm : Matches config.numAttempts p.1 p.2)
    (h : (recorded config).step p label = some (q, es)) :
    (label = .halt ∧ q = (fresh, ⟨0, 0⟩) ∧ es = []) ∨
      ∃ answers r, label = .tick answers ∧ es = [r] ∧ q.2 = p.2.add r ∧
        Outcome config.numAttempts p.2 answers q.1 r.result r.ticked := by
  obtain ⟨hstep, hq⟩ := Machine.ghost_step.1 h
  cases label with
  | halt =>
    simp only [machine, Option.some.injEq, Prod.mk.injEq] at hstep
    exact Or.inl ⟨rfl, Prod.ext hstep.1.symm hq, hstep.2.symm⟩
  | tick answers =>
    obtain ⟨⟨node', result, ticked⟩, htick, heq⟩ := Option.map_eq_some_iff.1 hstep
    simp only [Prod.mk.injEq] at heq
    obtain ⟨hnode, rfl⟩ := heq
    rw [tick, if_neg (not_not.2 hcount)] at htick
    refine Or.inr ⟨answers, ⟨result, ticked⟩, rfl, rfl, hq, ?_⟩
    rw [← hnode]
    exact loop_outcome hcount hm htick

theorem ended_iff {r : Record} : r.ended = true ↔ ∃ status, r.result = .ok status ∧ status.completed = true := by
  cases hr : r.result with
  | error => simp [Record.ended, hr]
  | ok status => simp [Record.ended, hr]

/-- An answer that is not allowed, or SKIPPED, makes the tick throw; else the promise is kept. -/
theorem keeps_iff_step (hcount : config.childrenCount = 2) (hm : Matches config.numAttempts p.1 p.2)
    (hpossible : ((recorded config).step p label).isSome) :
    Keeps config p label ↔ ∀ answers, label = .tick answers → ∀ a ∈ answers, a ≠ .idle ∧ a ≠ .skipped := by
  obtain ⟨⟨q, es⟩, hstep⟩ := Option.isSome_iff_exists.1 hpossible
  rcases recorded_step hcount hm hstep with ⟨rfl, -, rfl⟩ | ⟨answers, r, rfl, rfl, -, ho⟩
  · refine ⟨fun _ answers h => (nomatch h), fun _ q' es' h r hr => ?_⟩
    rw [hstep, Option.some.injEq, Prod.mk.injEq] at h
    rw [← h.2] at hr
    cases hr
  · constructor
    · intro hkeeps answers' h
      cases h
      exact ho.total.1 (hkeeps q [r] hstep r (List.mem_singleton_self r)).1
    · intro h q' es' hstep' r' hr'
      rw [hstep, Option.some.injEq, Prod.mk.injEq] at hstep'
      obtain ⟨rfl, rfl⟩ := hstep'
      rw [List.mem_singleton.1 hr']
      refine ⟨ho.total.2 (h answers rfl), ho.success, ⟨ho.first, ho.second⟩, fun hended => ?_⟩
      obtain ⟨status, hstatus, hcompleted⟩ := ended_iff.1 hended
      rw [ho.ended status hstatus hcompleted]
      exact ⟨rfl, rfl⟩

/-- **The counters go on matching the activation while no exception is thrown.** -/
theorem matches_step (hcount : config.childrenCount = 2) (hm : Matches config.numAttempts p.1 p.2)
    (hkeeps : Keeps config p label) (hstep : (recorded config).step p label = some (q, es)) :
    Matches config.numAttempts q.1 q.2 := by
  rcases recorded_step hcount hm hstep with ⟨-, rfl, -⟩ | ⟨answers, r, -, rfl, hq, ho⟩
  · exact matches_fresh _
  · obtain ⟨⟨status, hstatus⟩, -⟩ := hkeeps q [r] hstep r (List.mem_singleton_self r)
    rw [hq]
    by_cases hcompleted : status.completed = true
    · have hended : r.ended = true := ended_iff.2 ⟨status, hstatus, hcompleted⟩
      rw [Tally.add, if_pos hended, ho.ended status hstatus hcompleted]
      exact matches_fresh _
    · have hended : ¬ r.ended = true := by
        intro h
        obtain ⟨status', hstatus', hc⟩ := ended_iff.1 h
        rw [hstatus, Except.ok.injEq] at hstatus'
        exact hcompleted (hstatus' ▸ hc)
      rw [Tally.add, if_neg hended]
      exact ho.goesOn status hstatus (Bool.not_eq_true _ ▸ hcompleted)

theorem along_keeps_iff (hcount : config.childrenCount = 2) :
    ∀ {labels : List Label} {p q : RecoveryNode × Tally} {es : List Record}, Matches config.numAttempts p.1 p.2 →
      (recorded config).run p labels = some (q, es) →
        ((recorded config).Along (Keeps config) p labels ↔
          ∀ answers, .tick answers ∈ labels → ∀ a ∈ answers, a ≠ .idle ∧ a ≠ .skipped)
  | [], p, q, es, _, _ => by simp
  | label :: labels, p, q, es, hm, hrun => by
    obtain ⟨t, es₁, es₂, hstep, hrest, -⟩ := Machine.run_cons.1 hrun
    have hlabel := keeps_iff_step hcount hm (Option.isSome_iff_exists.2 ⟨_, hstep⟩)
    rw [Machine.along_cons_of_step hstep]
    constructor
    · rintro ⟨hkeeps, halong⟩ answers hmem
      rcases List.mem_cons.1 hmem with rfl | hmem
      · exact hlabel.1 hkeeps answers rfl
      · exact (along_keeps_iff hcount (matches_step hcount hm hkeeps hstep) hrest).1 halong answers hmem
    · intro h
      have hkeeps : Keeps config p label := hlabel.2 fun answers heq => h answers (heq ▸ List.mem_cons_self)
      refine ⟨hkeeps, (along_keeps_iff hcount (matches_step hcount hm hkeeps hstep) hrest).2 fun answers hmem => ?_⟩
      exact h answers (List.mem_cons_of_mem _ hmem)

/-- **Every run of ticks and halts keeps the promise exactly if no child ever answers SKIPPED.** -/
theorem recoveryNode_iff (config : Config) (hcount : config.childrenCount = 2) (labels : List Label)
    (hlegal : ∀ answers, .tick answers ∈ labels → ∀ a ∈ answers, a ≠ .idle)
    (hrun : ((machine config).run fresh labels).isSome) :
    (recorded config).Along (Keeps config) (fresh, ⟨0, 0⟩) labels ↔
      ∀ answers, .tick answers ∈ labels → .skipped ∉ answers := by
  obtain ⟨⟨u, o⟩, hu⟩ := Option.isSome_iff_exists.1 hrun
  obtain ⟨g, hg⟩ : ∃ g, (recorded config).run (fresh, ⟨0, 0⟩) labels = some ((u, g), o) := by
    unfold recorded
    exact Machine.ghost_run_of_run _ hu
  rw [along_keeps_iff hcount (matches_fresh _) hg]
  constructor
  · exact fun h answers hmem hsk => (h answers hmem .skipped hsk).2 rfl
  · intro h answers hmem a ha
    refine ⟨hlegal answers hmem a ha, ?_⟩
    rintro rfl
    exact h answers hmem ha

end Run

/-- One retry: the second tick finds the second child still running, and the third attempt is a success. -/
def oneRetry : Config := ⟨"recovery", 1, 2⟩

theorem recoveryNode_iff_recovers :
    (recorded oneRetry).Along (Keeps oneRetry) (fresh, ⟨0, 0⟩) [.tick [.failure, .running], .tick [.success, .success]] := by
  refine (recoveryNode_iff oneRetry rfl [.tick [.failure, .running], .tick [.success, .success]] ?_ rfl).2 ?_
  · intro answers h
    simp only [List.mem_cons, Label.tick.injEq, List.not_mem_nil, or_false] at h
    rcases h with rfl | rfl <;> decide
  · intro answers h
    simp only [List.mem_cons, Label.tick.injEq, List.not_mem_nil, or_false] at h
    rcases h with rfl | rfl <;> decide

/-- **A first child that waits for its timeout makes the node throw.** -/
theorem skipped_throws : ¬ (recorded oneRetry).Along (Keeps oneRetry) (fresh, ⟨0, 0⟩)
    [.tick [(TickAfterTimeout.tick (1 : ℚ) ⟨0⟩ ⟨500000000, .success, 500000000⟩).2]] := by
  have hskipped : (TickAfterTimeout.tick (1 : ℚ) ⟨0⟩ ⟨500000000, .success, 500000000⟩).2 = .skipped := by decide +kernel
  rw [hskipped]
  intro h
  obtain ⟨⟨status, hstatus⟩, -⟩ := h.1 _ _ rfl _ (List.mem_singleton_self _)
  cases hstatus

end RecoveryNode

end Behavior
end LfSentry
