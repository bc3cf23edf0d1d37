import Mathlib.Data.List.AList
import Mathlib.Data.List.Induction
/-!
# Recency — a store that keeps what was used most recently

Values are filed under keys.  A value put under a key brings the key to the front, and what is beyond the capacity goes.
The keys held are the ones used last (`keys_run`), and under a key lies what was put there since the key was last among the
forgotten (`lookup_run`).
-/
namespace LfSentry
namespace Recency

variable {κ α : Type} [DecidableEq κ]

/-- The keys used, in the order of their last use, the latest first. -/
def recent (ks : List κ) : List κ := ks.foldl (fun l k => k :: l.erase k) []

/-- The `c` keys used last. -/
def latest (c : Nat) (ks : List κ) : List κ := (recent ks).take c

@[simp] theorem recent_nil : recent ([] : List κ) = [] := rfl

@[simp] theorem recent_snoc (ks : List κ) (k : κ) : recent (ks ++ [k]) = k :: (recent ks).erase k := by
  simp [recent]

@[simp] theorem latest_nil (c : Nat) : latest c ([] : List κ) = [] := by simp [latest]

theorem length_latest_le (c : Nat) (ks : List κ) : (latest c ks).length ≤ c := List.length_take_le c _

/-- What lies beyond the capacity does not come back. -/
theorem take_erase_take (c : Nat) (k : κ) (l : List κ) :
    ((l.take (c + 1)).erase k).take c = (l.erase k).take c := by
  induction l generalizing c with
  | nil => simp
  | cons j l ih =>
    by_cases hj : j = k
    · simp [hj, List.take_take]
    · rw [List.take_succ_cons, List.erase_cons_tail (by simpa using hj), List.erase_cons_tail (by simpa using hj)]
      cases c with
      | zero => simp
      | succ c => rw [List.take_succ_cons, List.take_succ_cons, ih]

theorem latest_snoc (c : Nat) (ks : List κ) (k : κ) :
    latest c (ks ++ [k]) = (k :: (latest c ks).erase k).take c := by
  cases c with
  | zero => simp [latest]
  | succ c => rw [latest, recent_snoc, List.take_succ_cons, List.take_succ_cons, latest, take_erase_take]

/-- A key that is among the latest was so before, or has just been used. -/
theorem mem_latest_snoc {c : Nat} {ks : List κ} {j k : κ} (h : j ∈ latest c (ks ++ [k])) (hne : j ≠ k) :
    j ∈ latest c ks := by
  rw [latest_snoc] at h
  rcases List.mem_cons.1 (List.mem_of_mem_take h) with rfl | h
  · exact absurd rfl hne
  · exact List.mem_of_mem_erase h

/-- What is filed under each key, the key used last in front. -/
abbrev Store (κ α : Type) := AList (fun _ : κ => List α)

/-- A value goes under its key, the key to the front, and the rest as far as there is room. -/
def put (c : Nat) (s : Store κ α) (e : κ × α) : Store κ α where
  entries := (s.insert e.1 ((s.lookup e.1).getD [] ++ [e.2])).entries.take c
  nodupKeys := (AList.nodupKeys _).sublist (List.take_sublist c _)

def run (c : Nat) (h : List (κ × α)) : Store κ α := h.foldl (put c) ∅

@[simp] theorem run_nil (c : Nat) : run c ([] : List (κ × α)) = ∅ := rfl

@[simp] theorem run_snoc (c : Nat) (h : List (κ × α)) (e : κ × α) : run c (h ++ [e]) = put c (run c h) e := by
  simp [run]

theorem entries_put (c : Nat) (s : Store κ α) (e : κ × α) :
    (put c s e).entries = (⟨e.1, (s.lookup e.1).getD [] ++ [e.2]⟩ :: s.entries.kerase e.1).take c := by
  rw [← AList.entries_insert]
  rfl

theorem keys_put (c : Nat) (s : Store κ α) (e : κ × α) : (put c s e).keys = (e.1 :: s.keys.erase e.1).take c := by
  rw [← AList.keys_insert (β := fun _ : κ => List α) (b := (s.lookup e.1).getD [] ++ [e.2]) s]
  exact List.map_take

/-- **The keys held are the ones used last.** -/
theorem keys_run (c : Nat) (h : List (κ × α)) : (run c h).keys = latest c (h.map Prod.fst) := by
  induction h using List.reverseRecOn with
  | nil => simp
  | append_singleton h e ih => rw [run_snoc, keys_put, ih, List.map_append, List.map_singleton, latest_snoc]

theorem lookup_put {c : Nat} {s : Store κ α} {e : κ × α} {k : κ} (hk : k ∈ (put c s e).keys) :
    (put c s e).lookup k = if k = e.1 then some ((s.lookup e.1).getD [] ++ [e.2]) else s.lookup k := by
  set t := s.insert e.1 ((s.lookup e.1).getD [] ++ [e.2]) with ht
  have hsub : (put c s e).entries.Sublist t.entries := List.take_sublist c _
  obtain ⟨v, hv⟩ := Option.isSome_iff_exists.1 (AList.lookup_isSome.2 (AList.mem_keys.2 hk))
  have hmem : (⟨k, v⟩ : Σ _ : κ, List α) ∈ t.entries := hsub.subset (AList.mem_lookup_iff.1 hv)
  have hv' : t.lookup k = some v := AList.mem_lookup_iff.2 hmem
  rw [hv, ← hv', ht]
  split
  · rename_i hke
    rw [hke, AList.lookup_insert]
  · rename_i hke
    rw [AList.lookup_insert_ne hke]

/-- What lies under a key was put there. -/
theorem mem_run {c : Nat} {h : List (κ × α)} {d : Σ _ : κ, List α} (hd : d ∈ (run c h).entries) {a : α} (ha : a ∈ d.2) :
    (d.1, a) ∈ h := by
  induction h using List.reverseRecOn generalizing d with
  | nil => cases hd
  | append_singleton h e ih =>
    rw [run_snoc, entries_put] at hd
    rw [List.mem_append, List.mem_singleton]
    rcases List.mem_cons.1 (List.mem_of_mem_take hd) with rfl | hd
    · rcases List.mem_append.1 ha with ha | ha
      · cases hv : (run c h).lookup e.1 with
        | none => simp [hv] at ha
        | some v =>
          have hmem : (⟨e.1, v⟩ : Σ _ : κ, List α) ∈ (run c h).entries := AList.mem_lookup_iff.1 hv
          exact Or.inl (ih (d := ⟨e.1, v⟩) hmem (by simpa [hv] using ha))
      · exact Or.inr (by rw [List.mem_singleton.1 ha])
    · exact Or.inl (ih ((List.kerase_sublist _ _).subset hd) ha)

/-- The key has been among the latest since the first `n` were used, and was not then. -/
structure HeldSince (c : Nat) (k : κ) (h : List (κ × α)) (n : Nat) : Prop where
  lt : n < h.length
  forgotten : k ∉ latest c ((h.take n).map Prod.fst)
  held : ∀ m, n < m → m ≤ h.length → k ∈ latest c ((h.take m).map Prod.fst)

variable {c n : Nat} {k : κ} {h : List (κ × α)} {e : κ × α}

theorem HeldSince.mem (hh : HeldSince c k h n) : k ∈ latest c (h.map Prod.fst) := by
  simpa using hh.held h.length hh.lt le_rfl

theorem HeldSince.unsnoc (hh : HeldSince c k (h ++ [e]) n) (hn : n < h.length) : HeldSince c k h n where
  lt := hn
  forgotten := by
    have := hh.forgotten
    rwa [List.take_append_of_le_length (Nat.le_of_lt hn)] at this
  held m hnm hm := by
    have := hh.held m hnm (by simp; omega)
    rwa [List.take_append_of_le_length hm] at this

/-- A key that is held has been held since some moment. -/
theorem exists_heldSince (hk : k ∈ latest c (h.map Prod.fst)) : ∃ n, HeldSince c k h n := by
  induction h using List.reverseRecOn with
  | nil => simp at hk
  | append_singleton h e ih =>
    by_cases hb : k ∈ latest c (h.map Prod.fst)
    · obtain ⟨n, hn⟩ := ih hb
      refine ⟨n, by have := hn.lt; simp; omega, ?_, fun m hnm hm => ?_⟩
      · rw [List.take_append_of_le_length (Nat.le_of_lt hn.lt)]
        exact hn.forgotten
      · rcases Nat.lt_or_ge h.length m with hlt | hge
        · rw [List.take_of_length_le (by simp; omega)]
          exact hk
        · rw [List.take_append_of_le_length hge]
          exact hn.held m hnm hge
    · refine ⟨h.length, by simp, by simpa using hb, fun m hnm _ => ?_⟩
      rw [List.take_of_length_le (by simp; omega)]
      exact hk

/-- **Under a key lies what was put there since the key was last among the forgotten, in order.** -/
theorem lookup_run (hh : HeldSince c k h n) :
    (run c h).lookup k = some (((h.drop n).filter fun e => e.1 = k).map Prod.snd) := by
  induction h using List.reverseRecOn with
  | nil => exact absurd hh.lt (by simp)
  | append_singleton h e ih =>
    have hkeys : k ∈ (put c (run c h) e).keys := by
      rw [← run_snoc, keys_run]
      exact hh.mem
    rw [run_snoc, lookup_put hkeys]
    rcases Nat.lt_or_ge n h.length with hn | hn
    · have hold := ih (hh.unsnoc hn)
      rw [List.drop_append_of_le_length (Nat.le_of_lt hn), List.filter_append, List.map_append]
      split
      · rename_i hke
        rw [← hke, hold]
        simp [hke]
      · rename_i hke
        rw [hold]
        simp [Ne.symm hke]
    · -- the key came back with this value
      have hn' : n = h.length := by have := hh.lt; simp at this; omega
      have hout : k ∉ latest c (h.map Prod.fst) := by simpa [hn'] using hh.forgotten
      have hke : k = e.1 := by
        by_contra hne
        refine hout (mem_latest_snoc (k := e.1) ?_ hne)
        simpa using hh.mem
      have hnone : (run c h).lookup k = none := by
        rw [AList.lookup_eq_none, AList.mem_keys, keys_run]
        exact hout
      rw [if_pos hke, ← hke, hnone, hn']
      simp [hke]

end Recency
end LfSentry
