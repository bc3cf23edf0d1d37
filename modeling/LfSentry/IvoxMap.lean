import LfSentry.Ivox
import LfSentry.Recency
/-!
# IvoxMap — the cells of the voxel map are the ones used last

The list with its iterators and the hash map behave as the store of `Recency`: no iterator of the map is ever stale
(`Represents`), the cells held are the ones that points came to last, one fewer than the capacity, and a cell holds the
points that came to it since it was last given up.
-/
namespace LfSentry
namespace Ivox

section Lists

variable {α β : Type} [DecidableEq α]

/-- A node that is replaced and then taken out was only taken out. -/
theorem kerase_kreplace (a : α) (b : β) (l : List (Σ _ : α, β)) :
    (l.kreplace a b).kerase a = l.kerase a := by
  induction l with
  | nil => rfl
  | cons e l ih =>
    by_cases h : a = e.1
    · subst h
      rw [List.kreplace, List.lookmap_cons_some _ _ (b := ⟨e.1, b⟩) (by simp)]
      simp
    · rw [List.kreplace, List.lookmap_cons_none _ _ (by simp [h]), List.kerase_cons_ne h, List.kerase_cons_ne h]
      exact congrArg _ ih

theorem dlookup_kreplace (a : α) (b : β) (l : List (Σ _ : α, β)) :
    (l.kreplace a b).dlookup a = (l.dlookup a).map fun _ => b := by
  induction l with
  | nil => rfl
  | cons e l ih =>
    by_cases h : a = e.1
    · obtain ⟨k, v⟩ := e
      obtain rfl : a = k := h
      rw [List.kreplace, List.lookmap_cons_some _ _ (b := ⟨a, b⟩) (by simp), List.dlookup_cons_eq, List.dlookup_cons_eq]
      rfl
    · rw [List.kreplace, List.lookmap_cons_none _ _ (by simp [h]), List.dlookup_cons_ne _ _ h, List.dlookup_cons_ne _ _ h]
      exact ih

theorem lookup_replace {l : AList fun _ : α => β} {a : α} {v : β} (h : l.lookup a = some v) (w : β) :
    (l.replace a w).lookup a = some w := by
  have := dlookup_kreplace a w l.entries
  rwa [show l.entries.dlookup a = some v from h] at this

theorem insert_replace (l : AList fun _ : α => β) (a : α) (w : β) : (l.replace a w).insert a w = l.insert a w := by
  apply AList.ext
  rw [AList.entries_insert, AList.entries_insert]
  exact congrArg _ (kerase_kreplace a w l.entries)

theorem replace_insert (l : AList fun _ : α => β) (a : α) (v w : β) :
    (l.insert a v).replace a w = l.insert a w := by
  apply AList.ext
  change (l.insert a v).entries.kreplace a w = _
  rw [AList.entries_insert, AList.entries_insert, List.kreplace, List.lookmap_cons_some _ _ (b := ⟨a, w⟩) (by simp)]

/-- A node moved to the front. -/
theorem perm_cons_kerase {l : List (Σ _ : α, β)} {e : Σ _ : α, β} (hl : l.NodupKeys) (he : e ∈ l) :
    (e :: l.kerase e.1).Perm l := by
  obtain ⟨b, l₁, l₂, -, rfl, h⟩ := List.exists_of_kerase (List.mem_keys_of_mem he)
  have hb : (⟨e.1, b⟩ : Σ _ : α, β) = e := hl.eq_of_fst_eq (by simp) he rfl
  rw [h, hb]
  exact List.perm_middle.symm

/-- Taking out a node and taking out the key that its node has. -/
theorem map_kerase {γ δ : Type} [DecidableEq γ] (g : (Σ _ : α, β) → Σ _ : γ, δ) {l : List (Σ _ : α, β)}
    (hl : l.NodupKeys) (hg : (l.map g).NodupKeys) {e : Σ _ : α, β} (he : e ∈ l) :
    (l.kerase e.1).map g = (l.map g).kerase (g e).1 := by
  induction l with
  | nil => simp at he
  | cons d l ih =>
    rw [List.map_cons] at hg ⊢
    rcases List.mem_cons.1 he with rfl | he
    · rw [List.kerase_cons_eq rfl, List.kerase_cons_eq rfl]
    · have hd : e.1 ≠ d.1 := fun h =>
        List.notMem_keys_of_nodupKeys_cons hl (h ▸ List.mem_keys_of_mem he)
      have hgd : (g e).1 ≠ (g d).1 := fun h =>
        List.notMem_keys_of_nodupKeys_cons hg (h ▸ List.mem_keys_of_mem (List.mem_map_of_mem he))
      rw [List.kerase_cons_ne hd, List.kerase_cons_ne hgd, List.map_cons,
        ih (List.nodupKeys_of_nodupKeys_cons hl) (List.nodupKeys_of_nodupKeys_cons hg) he]

end Lists

variable {K P : Type}

/-- A cell of the list, under its key. -/
def cellOf (e : Σ _ : Nat, KeyType × IVoxNode P) : Σ _ : KeyType, List P := ⟨e.2.1, e.2.2.points⟩

/-- What the hash map is to hold for a cell of the list. -/
def iteratorOf (e : Σ _ : Nat, KeyType × IVoxNode P) : Σ _ : KeyType, Nat := ⟨e.2.1, e.1⟩

/-- The list holds the cells of the store in its order, and the map one iterator to each. -/
structure Represents (s : IVox K P) (t : Recency.Store KeyType P) : Prop where
  cells : s.gridsCache.entries.map cellOf = t.entries
  iterators : s.gridsMap.entries.Perm (s.gridsCache.entries.map iteratorOf)
  numbered : ∀ it ∈ s.gridsCache.keys, it < s.next

namespace Represents

variable {s : IVox K P} {t : Recency.Store KeyType P} {key : KeyType} {it : Nat}

theorem keys (h : Represents s t) : s.gridsMap.keys.Perm t.keys := by
  have hk : t.keys = (s.gridsCache.entries.map iteratorOf).keys := by
    rw [AList.keys, ← h.cells, List.keys, List.keys, List.map_map, List.map_map]
    rfl
  rw [hk]
  exact h.iterators.map Sigma.fst

theorem length (h : Represents s t) : s.gridsMap.entries.length = t.entries.length := by
  rw [h.iterators.length_eq, ← h.cells, List.length_map, List.length_map]

/-- **An iterator of the map is never stale: it leads to the cell of its key.** -/
theorem lookup (h : Represents s t) (hk : s.gridsMap.lookup key = some it) :
    ∃ node, s.gridsCache.lookup it = some (key, node) ∧ t.lookup key = some node.points := by
  have hmem : (⟨key, it⟩ : Σ _ : KeyType, Nat) ∈ s.gridsCache.entries.map iteratorOf :=
    h.iterators.mem_iff.1 (AList.mem_lookup_iff.1 hk)
  obtain ⟨⟨i, k, node⟩, he, heq⟩ := List.mem_map.1 hmem
  simp only [iteratorOf, Sigma.mk.injEq, heq_eq_eq] at heq
  obtain ⟨rfl, rfl⟩ := heq
  refine ⟨node, AList.mem_lookup_iff.2 he, AList.mem_lookup_iff.2 ?_⟩
  rw [← h.cells]
  exact List.mem_map_of_mem (f := cellOf) he

theorem lookup_eq_none (h : Represents s t) : s.gridsMap.lookup key = none ↔ t.lookup key = none := by
  rw [AList.lookup_eq_none, AList.lookup_eq_none, AList.mem_keys, AList.mem_keys, h.keys.mem_iff]

theorem next_notMem (h : Represents s t) : s.next ∉ s.gridsCache := fun hm =>
  lt_irrefl _ (h.numbered _ (AList.mem_keys.1 hm))

end Represents

/-- The points of a cell, found as the readers of the map find them. -/
def IVox.cell (s : IVox K P) (key : KeyType) : Option (List P) :=
  (s.gridsMap.lookup key).bind fun it => (s.gridsCache.lookup it).map fun cell => cell.2.points

theorem Represents.cell {s : IVox K P} {t : Recency.Store KeyType P} (h : Represents s t) (key : KeyType) :
    s.cell key = t.lookup key := by
  unfold IVox.cell
  cases hk : s.gridsMap.lookup key with
  | none => exact (h.lookup_eq_none.1 hk).symm
  | some it =>
    obtain ⟨node, hnode, ht⟩ := h.lookup hk
    simp [hnode, ht]

/-- The map with a new cell in front, for its first point. -/
def IVox.withCell (s : IVox K P) (key : KeyType) (pt : P) : IVox K P :=
  { s with
    gridsMap := s.gridsMap.insert key s.next
    gridsCache := s.gridsCache.insert s.next (key, ⟨[pt]⟩)
    next := s.next + 1 }

theorem Represents.withCell {s : IVox K P} {t : Recency.Store KeyType P} (h : Represents s t) {key : KeyType}
    (hk : key ∉ s.gridsMap) (ht : key ∉ t) (pt : P) : Represents (s.withCell key pt) (t.insert key [pt]) where
  cells := by
    rw [IVox.withCell, AList.entries_insert_of_notMem h.next_notMem, AList.entries_insert_of_notMem ht, List.map_cons,
      h.cells]
    rfl
  iterators := by
    rw [IVox.withCell, AList.entries_insert_of_notMem h.next_notMem, AList.entries_insert_of_notMem hk, List.map_cons]
    exact h.iterators.cons _
  numbered it hit := by
    rw [IVox.withCell, AList.keys_insert, List.mem_cons] at hit
    rcases hit with rfl | hit
    · exact Nat.lt_succ_self _
    · exact Nat.lt_succ_of_lt (h.numbered it (List.mem_of_mem_erase hit))

/-- The cell that was not used for longest is given up, in the list and in the map. -/
theorem Represents.evict {s : IVox K P} {t : Recency.Store KeyType P} (h : Represents s t) (hne : t.entries ≠ []) :
    ∃ s', s.evict = some s' ∧ s'.options = s.options ∧ s'.nearbyGrids = s.nearbyGrids ∧
      ∀ u : Recency.Store KeyType P, u.entries = t.entries.dropLast → Represents s' u := by
  have hcache : s.gridsCache.entries ≠ [] := fun h0 => hne (by rw [← h.cells, h0, List.map_nil])
  set last := s.gridsCache.entries.getLast hcache with hlast
  have hsplit : s.gridsCache.entries.dropLast ++ [last] = s.gridsCache.entries := List.dropLast_append_getLast hcache
  have hmem : last ∈ s.gridsCache.entries := List.getLast_mem hcache
  have hnodup := s.gridsCache.nodupKeys
  have hmap : (s.gridsCache.entries.map iteratorOf).NodupKeys :=
    (List.perm_nodupKeys h.iterators).1 s.gridsMap.nodupKeys
  have herase : s.gridsCache.entries.kerase last.1 = s.gridsCache.entries.dropLast := by
    have hout : last.1 ∉ s.gridsCache.entries.dropLast.keys := by
      rw [← hsplit, List.NodupKeys, List.keys_append] at hnodup
      exact fun hin => List.disjoint_of_nodup_append hnodup hin (by simp [List.keys])
    conv_lhs => rw [← hsplit]
    rw [List.kerase_append_right hout, List.kerase_cons_eq rfl, List.append_nil]
  have hevict : s.evict = some { s with
      gridsMap := s.gridsMap.erase last.2.1
      gridsCache := ⟨s.gridsCache.entries.dropLast, s.gridsCache.nodupKeys.sublist (List.dropLast_sublist _)⟩ } := by
    rw [IVox.evict, List.getLast?_eq_some_getLast hcache]
    rfl
  refine ⟨_, hevict, rfl, rfl, fun u hu => ⟨?_, ?_, ?_⟩⟩
  · rw [hu, ← h.cells]
    exact List.map_dropLast
  · calc (s.gridsMap.entries.kerase last.2.1).Perm ((s.gridsCache.entries.map iteratorOf).kerase last.2.1) :=
          h.iterators.kerase s.gridsMap.nodupKeys
      _ = (s.gridsCache.entries.kerase last.1).map iteratorOf := (map_kerase iteratorOf hnodup hmap hmem).symm
      _ = s.gridsCache.entries.dropLast.map iteratorOf := by rw [herase]
  · intro it hit
    exact h.numbered it ((List.Sublist.map Sigma.fst (List.dropLast_sublist _)).subset hit)

section AddPoints

variable [Field K] [LinearOrder K] [FloorRing K] (xyz : P → PtType K) {s : IVox K P} {t : Recency.Store KeyType P} {pt : P}

/-- A point of a cell that the map does not hold. -/
theorem addPoint_new (h : s.gridsMap.lookup (s.pos2Grid (xyz pt)) = none) :
    s.addPoint xyz pt =
      if s.options.capacity ≤ (s.withCell (s.pos2Grid (xyz pt)) pt).gridsMap.entries.length then
        (s.withCell (s.pos2Grid (xyz pt)) pt).evict
      else some (s.withCell (s.pos2Grid (xyz pt)) pt) := by
  simp [IVox.addPoint, h, IVox.withCell, IVox.pushFront, IVox.begin, IVox.insertAt, AList.entries_insert, replace_insert,
    IVoxNode.insertPoint]
  rfl

/-- A point of a cell that the map holds. -/
theorem addPoint_found {it : Nat} {node : IVoxNode P} (h : s.gridsMap.lookup (s.pos2Grid (xyz pt)) = some it)
    (hnode : s.gridsCache.lookup it = some (s.pos2Grid (xyz pt), node)) :
    s.addPoint xyz pt = some { s with
      gridsMap := s.gridsMap.insert (s.pos2Grid (xyz pt)) it
      gridsCache := s.gridsCache.insert it (s.pos2Grid (xyz pt), node.insertPoint pt) } := by
  simp [IVox.addPoint, h, IVox.insertAt, hnode, IVox.splice, lookup_replace hnode, insert_replace, IVox.begin, AList.entries_insert]

/-- **A point added to the map is put into the store, under its cell.** -/
theorem Represents.addPoint (h : Represents s t) (pt : P) (hroom : t.entries.length ≤ s.options.capacity - 1) :
    ∃ s', s.addPoint xyz pt = some s' ∧ s'.options = s.options ∧ s'.nearbyGrids = s.nearbyGrids ∧
      Represents s' (Recency.put (s.options.capacity - 1) t (s.pos2Grid (xyz pt), pt)) := by
  set key := s.pos2Grid (xyz pt) with hkey
  have hput := Recency.entries_put (s.options.capacity - 1) t (key, pt)
  cases hk : s.gridsMap.lookup key with
  | none =>
    have ht : t.lookup key = none := h.lookup_eq_none.1 hk
    have hnt : key ∉ t := AList.lookup_eq_none.1 ht
    have hnm : key ∉ s.gridsMap := AList.lookup_eq_none.1 hk
    have hu : (t.insert key [pt]).entries = ⟨key, [pt]⟩ :: t.entries := AList.entries_insert_of_notMem hnt
    rw [ht, List.kerase_of_notMem_keys (AList.mem_keys.not.1 hnt), Option.getD_none, List.nil_append, ← hu] at hput
    rw [addPoint_new xyz hk]
    have hrep := h.withCell hnm hnt pt
    have hlen : (s.withCell key pt).gridsMap.entries.length = t.entries.length + 1 := by
      rw [hrep.length, hu, List.length_cons]
    rw [← hkey, hlen]
    split
    · rename_i hfull
      obtain ⟨s', hs', hopt, hnear, hrep'⟩ := hrep.evict (by rw [hu]; exact List.cons_ne_nil _ _)
      refine ⟨s', hs', hopt, hnear, hrep' _ ?_⟩
      rw [hput, List.dropLast_eq_take, hu, List.length_cons]
      congr 1
      omega
    · rename_i hfull
      refine ⟨_, rfl, rfl, rfl, ?_⟩
      have heq : Recency.put (s.options.capacity - 1) t (key, pt) = t.insert key [pt] := by
        apply AList.ext
        rw [hput, List.take_of_length_le]
        rw [hu, List.length_cons]
        omega
      rw [heq]
      exact hrep
  | some it =>
    obtain ⟨node, hnode, ht⟩ := h.lookup hk
    have hcache := AList.mem_lookup_iff.1 hnode
    have hmap : (s.gridsCache.entries.map iteratorOf).NodupKeys :=
      (List.perm_nodupKeys h.iterators).1 s.gridsMap.nodupKeys
    refine ⟨_, addPoint_found xyz hk hnode, rfl, rfl, ?_, ?_, ?_⟩
    · have hcells : (s.gridsCache.entries.kerase it).map cellOf = t.entries.kerase key := by
        have htn : (s.gridsCache.entries.map cellOf).NodupKeys := h.cells ▸ t.nodupKeys
        rw [← h.cells]
        exact map_kerase cellOf s.gridsCache.nodupKeys htn hcache
      have hlen : (t.entries.kerase key).length + 1 = t.entries.length := by
        have hmem : (⟨key, node.points⟩ : Σ _ : KeyType, List P) ∈ t.entries := AList.mem_lookup_iff.1 ht
        exact (perm_cons_kerase t.nodupKeys hmem).length_eq
      rw [hput, ht, AList.entries_insert, List.map_cons, hcells, List.take_of_length_le]
      · rfl
      · rw [List.length_cons, hlen]
        exact hroom
    · have hold : (s.gridsMap.insert key it).entries.Perm s.gridsMap.entries := by
        rw [AList.entries_insert]
        exact perm_cons_kerase s.gridsMap.nodupKeys (AList.mem_lookup_iff.1 hk)
      have hnew := (perm_cons_kerase s.gridsCache.nodupKeys hcache).map iteratorOf
      rw [AList.entries_insert]
      exact (hold.trans h.iterators).trans hnew.symm
    · intro i hi
      rw [AList.keys_insert, List.mem_cons] at hi
      rcases hi with rfl | hi
      · exact h.numbered _ (List.mem_keys_of_mem hcache)
      · exact h.numbered i (List.mem_of_mem_erase hi)

/-- The key of each point, as the map files it. -/
def filed (o : Options K) (pt : P) : KeyType × P := ((IVox.construct o : IVox K P).pos2Grid (xyz pt), pt)

/-- The constructor's options, whose resolution the cells have. -/
structure Made (o : Options K) (s : IVox K P) : Prop where
  options : s.options = (IVox.construct o : IVox K P).options
  nearby : s.nearbyGrids = generateNearbyGrids o.nearbyType

theorem Made.pos2Grid {o : Options K} (h : Made o s) (p : PtType K) :
    s.pos2Grid p = (IVox.construct o : IVox K P).pos2Grid p := by
  rw [IVox.pos2Grid, h.options]
  rfl

/-- **The map and the store go through the same points alike.** -/
theorem addPoints_represents {o : Options K} (hm : Made o s) {h : List P}
    (hs : Represents s (Recency.run (o.capacity - 1) (h.map (filed xyz o)))) (pts : List P) :
    ∃ s', s.addPoints xyz pts = some s' ∧ Made o s' ∧
      Represents s' (Recency.run (o.capacity - 1) ((h ++ pts).map (filed xyz o))) := by
  induction pts generalizing s h with
  | nil => exact ⟨s, rfl, hm, by simpa using hs⟩
  | cons pt pts ih =>
    have hcap : s.options.capacity = o.capacity := by rw [hm.options]; rfl
    have hroom : (Recency.run (o.capacity - 1) (h.map (filed xyz o))).entries.length ≤ s.options.capacity - 1 := by
      rw [hcap, ← List.length_map (f := Sigma.fst)]
      change (Recency.run (o.capacity - 1) (h.map (filed xyz o))).keys.length ≤ _
      rw [Recency.keys_run]
      exact Recency.length_latest_le _ _
    obtain ⟨s₁, hs₁, hopt, hnear, hrep⟩ := hs.addPoint xyz pt hroom
    rw [hcap, hm.pos2Grid, ← Recency.run_snoc] at hrep
    obtain ⟨s', hs', hm', hrep'⟩ := ih (s := s₁) (h := h ++ [pt]) ⟨hopt.trans hm.options, hnear.trans hm.nearby⟩
      (by simpa [filed] using hrep)
    refine ⟨s', ?_, hm', by simpa using hrep'⟩
    rw [IVox.addPoints, List.foldlM_cons, hs₁]
    exact hs'

omit [LinearOrder K] [FloorRing K] in
theorem represents_construct (o : Options K) : Represents (IVox.construct o : IVox K P) ∅ :=
  ⟨rfl, List.Perm.refl _, by simp [IVox.construct]⟩

/-- **Every sequence of calls of `AddPoints` goes through, and leaves what the store of all the points has.** -/
theorem batches_represents (o : Options K) (batches : List (List P)) :
    ∃ s, batches.foldlM (IVox.addPoints xyz) (IVox.construct o) = some s ∧ Made o s ∧
      Represents s (Recency.run (o.capacity - 1) (batches.flatten.map (filed xyz o))) := by
  induction batches using List.reverseRecOn with
  | nil => exact ⟨_, rfl, ⟨rfl, rfl⟩, represents_construct o⟩
  | append_singleton batches pts ih =>
    obtain ⟨s, hs, hm, hrep⟩ := ih
    obtain ⟨s', hs', hm', hrep'⟩ := addPoints_represents xyz hm hrep pts
    refine ⟨s', ?_, hm', by simpa using hrep'⟩
    rw [List.foldlM_append, hs]
    simpa using hs'

/-- **After any calls of `AddPoints` the map's iterators lead to the cells of their keys, the cells held are the ones that
points came to last, and each holds the points that came to it since it was last given up.** -/
theorem addPoints_keeps_latest (o : Options K) (batches : List (List P)) :
    ∃ s, batches.foldlM (IVox.addPoints xyz) (IVox.construct o) = some s ∧
      (∀ key it, s.gridsMap.lookup key = some it → ∃ node, s.gridsCache.lookup it = some (key, node)) ∧
      s.gridsMap.keys.Perm (s.gridsCache.entries.map fun e => e.2.1) ∧
      (s.gridsCache.entries.map fun e => e.2.1) =
        Recency.latest (o.capacity - 1) (batches.flatten.map fun pt => (filed xyz o pt).1) ∧
      ∀ key, (∃ n, Recency.HeldSince (o.capacity - 1) key (batches.flatten.map (filed xyz o)) n ∧
          s.cell key = some ((batches.flatten.drop n).filter fun pt => (filed xyz o pt).1 = key)) ∨
        key ∉ Recency.latest (o.capacity - 1) (batches.flatten.map fun pt => (filed xyz o pt).1) ∧
          s.cell key = none := by
  obtain ⟨s, hs, -, hrep⟩ := batches_represents xyz o batches
  have hcells : (s.gridsCache.entries.map fun e => e.2.1) =
      (Recency.run (o.capacity - 1) (batches.flatten.map (filed xyz o))).keys := by
    rw [AList.keys, ← hrep.cells, List.keys, List.map_map]
    rfl
  have hlatest : (Recency.run (o.capacity - 1) (batches.flatten.map (filed xyz o))).keys =
      Recency.latest (o.capacity - 1) (batches.flatten.map fun pt => (filed xyz o pt).1) := by
    rw [Recency.keys_run, List.map_map]
    rfl
  refine ⟨s, hs, fun key it hk => ?_, hcells ▸ hrep.keys, hcells.trans hlatest, fun key => ?_⟩
  · obtain ⟨node, hnode, -⟩ := hrep.lookup hk
    exact ⟨node, hnode⟩
  · by_cases hkey : key ∈ Recency.latest (o.capacity - 1) ((batches.flatten.map (filed xyz o)).map Prod.fst)
    · obtain ⟨n, hn⟩ := Recency.exists_heldSince hkey
      refine Or.inl ⟨n, hn, ?_⟩
      rw [hrep.cell, Recency.lookup_run hn, ← List.map_drop, List.filter_map, List.map_map]
      exact congrArg some (List.map_id _)
    · have hout : key ∉ (Recency.run (o.capacity - 1) (batches.flatten.map (filed xyz o))).keys := by
        rwa [Recency.keys_run]
      refine Or.inr ⟨hlatest ▸ hout, ?_⟩
      rw [hrep.cell, AList.lookup_eq_none, AList.mem_keys]
      exact hout

end AddPoints

end Ivox
end LfSentry
