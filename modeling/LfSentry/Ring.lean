import Mathlib.Data.List.Basic
import Mathlib.Logic.Function.Basic
import Mathlib.Tactic.Ring
/-!
# Ring — a ring buffer whose two counters wrap around

One side writes a slot and then moves its counter on, the other reads a slot and then moves its own.  The counters run over
all of 32 bits and are masked when a slot is addressed; the size is a power of two (`Mask`).  What is held is told by the
counters alone (`Holds`): a write to the next free slot does not touch it, whatever it writes.
-/
namespace LfSentry
namespace Ring

/-- The mask of a ring of a size that the counters can tell from an empty one. -/
def Mask (mask : UInt32) : Prop := ∃ k < 32, mask.toNat = 2 ^ k - 1

/-- How many slots there are. -/
def capacity (mask : UInt32) : Nat := mask.toNat + 1

variable {α : Type} {mask rd wr : UInt32} {slot : Nat → α} {held : List α}

theorem capacity_dvd (h : Mask mask) : capacity mask ∣ 2 ^ 32 := by
  obtain ⟨k, hk, hm⟩ := h
  have := Nat.two_pow_pos k
  rw [capacity, hm, Nat.sub_add_cancel this]
  exact Nat.pow_dvd_pow 2 hk.le

theorem capacity_le (h : Mask mask) : capacity mask ≤ 2 ^ 31 := by
  obtain ⟨k, hk, hm⟩ := h
  have := Nat.two_pow_pos k
  rw [capacity, hm, Nat.sub_add_cancel this]
  exact Nat.pow_le_pow_right (by decide) (by omega)

theorem toNat_and_mask (h : Mask mask) (x : UInt32) : (x &&& mask).toNat = x.toNat % capacity mask := by
  obtain ⟨k, -, hm⟩ := h
  rw [UInt32.toNat_and, hm, Nat.and_two_pow_sub_one_eq_mod, capacity, hm, Nat.sub_add_cancel (Nat.two_pow_pos k)]

/-- The slot of the `i`-th element from a counter on. -/
theorem slot_add (h : Mask mask) (rd : UInt32) (i : Nat) :
    ((rd + UInt32.ofNat i) &&& mask).toNat = (rd.toNat + i) % capacity mask := by
  have hsum : (rd.toNat + i % 2 ^ 32) % 2 ^ 32 % capacity mask = (rd.toNat + i) % capacity mask := by
    rw [Nat.mod_mod_of_dvd _ (capacity_dvd h), Nat.add_mod, Nat.mod_mod_of_dvd _ (capacity_dvd h), ← Nat.add_mod]
  rw [toNat_and_mask h, UInt32.toNat_add, UInt32.toNat_ofNat', hsum]

/-- Slots closer than the capacity are different. -/
theorem slot_inj (h : Mask mask) {i j : Nat} (hij : i < j) (hj : j - i < capacity mask) :
    ((rd + UInt32.ofNat i) &&& mask).toNat ≠ ((rd + UInt32.ofNat j) &&& mask).toNat := by
  rw [slot_add h, slot_add h]
  intro heq
  have hmod := Nat.sub_mod_eq_zero_of_mod_eq heq.symm
  rw [Nat.add_sub_add_left] at hmod
  rw [Nat.mod_eq_of_lt hj] at hmod
  omega

/-- The ring holds these elements, from its read counter on. -/
structure Holds (mask rd wr : UInt32) (slot : Nat → α) (held : List α) : Prop where
  masked : Mask mask
  length_le : held.length ≤ capacity mask
  counter : wr = rd + UInt32.ofNat held.length
  getElem : ∀ i (h : i < held.length), slot ((rd + UInt32.ofNat i) &&& mask).toNat = held[i]

theorem Holds.used (h : Holds mask rd wr slot held) : (wr - rd).toNat = held.length := by
  have hle := h.length_le.trans (capacity_le h.masked)
  have hsub : wr - rd = UInt32.ofNat held.length := by
    rw [h.counter, UInt32.add_comm, UInt32.add_sub_cancel]
  rw [hsub, UInt32.toNat_ofNat', Nat.mod_eq_of_lt (by omega)]

theorem Holds.empty_iff (h : Holds mask rd wr slot held) : rd = wr ↔ held = [] := by
  rw [← List.length_eq_zero_iff, ← h.used]
  constructor
  · rintro rfl
    rw [UInt32.sub_self]
    rfl
  · intro h0
    have hsub : wr - rd = 0 := UInt32.toNat_inj.1 h0
    have hback := UInt32.sub_add_cancel wr rd
    rwa [hsub, UInt32.zero_add] at hback

theorem Holds.full_iff (h : Holds mask rd wr slot held) : wr - rd > mask ↔ held.length = capacity mask := by
  have hle := h.length_le
  rw [gt_iff_lt, UInt32.lt_iff_toNat_lt, h.used]
  unfold capacity at *
  omega

theorem Holds.nil (h : Mask mask) (rd : UInt32) (slot : Nat → α) : Holds mask rd rd slot [] :=
  ⟨h, Nat.zero_le _, by simp, fun _ hi => absurd hi (Nat.not_lt_zero _)⟩

/-- **A write to the next free slot does not touch what is held.** -/
theorem Holds.write (h : Holds mask rd wr slot held) (hroom : held.length < capacity mask) (a : α) :
    Holds mask rd wr (Function.update slot (wr &&& mask).toNat a) held where
  masked := h.masked
  length_le := h.length_le
  counter := h.counter
  getElem i hi := by
    rw [h.counter, Function.update_of_ne (slot_inj h.masked hi (by omega))]
    exact h.getElem i hi

/-- **Moving the write counter on adds what is in the next slot.** -/
theorem Holds.push (h : Holds mask rd wr slot held) (hroom : held.length < capacity mask) :
    Holds mask rd (wr + 1) slot (held ++ [slot (wr &&& mask).toNat]) where
  masked := h.masked
  length_le := by
    rw [List.length_append, List.length_singleton]
    exact hroom
  counter := by
    rw [h.counter, List.length_append, List.length_singleton, UInt32.ofNat_add, UInt32.add_assoc]
    rfl
  getElem i hi := by
    rcases Nat.lt_or_ge i held.length with hlt | hge
    · rw [List.getElem_append_left hlt]
      exact h.getElem i hlt
    · obtain rfl : i = held.length := by
        rw [List.length_append, List.length_singleton] at hi
        omega
      rw [← h.counter]
      simp

/-- **What the reader finds in its slot is the oldest element.** -/
theorem Holds.head {a : α} (h : Holds mask rd wr slot (a :: held)) : slot (rd &&& mask).toNat = a := by
  have := h.getElem 0 (Nat.zero_lt_succ _)
  simpa using this

/-- **Moving the read counter on takes the oldest element.** -/
theorem Holds.pop {a : α} (h : Holds mask rd wr slot (a :: held)) : Holds mask (rd + 1) wr slot held where
  masked := h.masked
  length_le := (Nat.le_succ _).trans h.length_le
  counter := by
    rw [h.counter, List.length_cons, Nat.add_comm, UInt32.ofNat_add, UInt32.add_assoc]
    rfl
  getElem i hi := by
    have hnext : rd + 1 + UInt32.ofNat i = rd + UInt32.ofNat (i + 1) := by
      rw [Nat.add_comm i 1, UInt32.ofNat_add, UInt32.add_assoc]
      rfl
    rw [hnext]
    exact h.getElem (i + 1) (Nat.succ_lt_succ hi)

end Ring
end LfSentry
