import LfSentry.CrcTable
/-!
# CrcBits — a reflected check sequence, a bit at a time

One step moves the remainder down one place and takes the polynomial off where a one falls out.  A step is linear, and
injective where the polynomial's top bit is set.  The table whose word for an octet is its eight steps (`IsTable`) makes a
byte of `CrcTable` the eight steps of remainder and byte together (`crcByte_eq`); so the remainder of two messages'
difference is the difference of their remainders (`crcFold_xor`), and zero bytes lose nothing (`crcFold_zeros_eq_zero`).
-/
namespace LfSentry

variable {w : Nat} (poly : BitVec w)

/-- One step: a bit falls out. -/
def crcBit (c : BitVec w) : BitVec w := if c.getLsbD 0 then (c >>> 1) ^^^ poly else c >>> 1

def crcBits : Nat → BitVec w → BitVec w
  | 0, c => c
  | n + 1, c => crcBits n (crcBit poly c)

/-- The remainder of a message, a bit at a time. -/
def crcSerial (c : BitVec w) (bs : List (BitVec 8)) : BitVec w :=
  bs.foldl (fun c b => crcBits poly 8 (c ^^^ b.setWidth w)) c

/-- The table of the polynomial: eight steps of each octet. -/
def IsTable (table : BitVec 8 → BitVec w) : Prop := ∀ i, table i = crcBits poly 8 (i.setWidth w)

variable {poly}

/-! ## Steps -/

theorem crcBit_xor (a b : BitVec w) : crcBit poly (a ^^^ b) = crcBit poly a ^^^ crcBit poly b := by
  unfold crcBit
  rw [BitVec.getLsbD_xor, BitVec.ushiftRight_xor_distrib]
  apply BitVec.eq_of_getLsbD_eq
  intro i _
  cases a.getLsbD 0 <;> cases b.getLsbD 0
  all_goals
    simp only [Bool.xor_self, Bool.xor_true, Bool.xor_false, Bool.not_false, Bool.false_eq_true, if_true, if_false,
      BitVec.getLsbD_xor]
  · cases (a >>> 1).getLsbD i <;> cases (b >>> 1).getLsbD i <;> cases poly.getLsbD i <;> rfl
  · cases (a >>> 1).getLsbD i <;> cases (b >>> 1).getLsbD i <;> cases poly.getLsbD i <;> rfl
  · cases (a >>> 1).getLsbD i <;> cases (b >>> 1).getLsbD i <;> cases poly.getLsbD i <;> rfl

theorem crcBit_zero : crcBit poly 0 = 0 := by
  unfold crcBit
  simp

/-- **Where the polynomial's top bit is set only zero steps to zero.** -/
theorem crcBit_eq_zero (htop : poly.getLsbD (w - 1) = true) {c : BitVec w} (h : crcBit poly c = 0) : c = 0 := by
  unfold crcBit at h
  have hbit : ∀ i, (c >>> 1).getLsbD i = c.getLsbD (i + 1) := by
    intro i
    rw [BitVec.getLsbD_ushiftRight, Nat.add_comm]
  split at h
  · -- the bit that fell out leaves the top bit of the polynomial
    have htop' := congrArg (fun x => x.getLsbD (w - 1)) h
    have hpast : c.getLsbD (w - 1 + 1) = false := BitVec.getLsbD_of_ge c (w - 1 + 1) (by omega)
    simp only [BitVec.getLsbD_xor, hbit, hpast, htop] at htop'
    simp at htop'
  · rename_i h0
    apply BitVec.eq_of_getLsbD_eq
    intro i _
    show c.getLsbD i = (0#w).getLsbD i
    rw [BitVec.getLsbD_zero]
    cases i with
    | zero => simpa using h0
    | succ i =>
      have hi := congrArg (fun x => x.getLsbD i) h
      simp only [hbit] at hi
      simpa using hi

theorem crcBits_xor : ∀ (n : Nat) (a b : BitVec w), crcBits poly n (a ^^^ b) = crcBits poly n a ^^^ crcBits poly n b
  | 0, _, _ => rfl
  | n + 1, a, b => by rw [crcBits, crcBits, crcBits, crcBit_xor, crcBits_xor n]

theorem crcBits_zero : ∀ n : Nat, crcBits poly n 0 = 0
  | 0 => rfl
  | n + 1 => by rw [crcBits, crcBit_zero, crcBits_zero n]

theorem crcBits_add : ∀ (m n : Nat) (c : BitVec w), crcBits poly (m + n) c = crcBits poly n (crcBits poly m c)
  | 0, _, _ => by rw [Nat.zero_add, crcBits]
  | m + 1, n, c => by rw [Nat.succ_add, crcBits, crcBits, crcBits_add m n]

theorem crcBits_eq_zero (htop : poly.getLsbD (w - 1) = true) :
    ∀ {n : Nat} {c : BitVec w}, crcBits poly n c = 0 → c = 0
  | 0, _, h => h
  | n + 1, _, h => crcBit_eq_zero htop (crcBits_eq_zero (n := n) htop h)

/-- **Steps lose nothing.** -/
theorem crcBits_inj (htop : poly.getLsbD (w - 1) = true) {n : Nat} {a b : BitVec w}
    (h : crcBits poly n a = crcBits poly n b) : a = b := by
  have hxor : crcBits poly n (a ^^^ b) = 0 := by
    rw [crcBits_xor, h]
    exact BitVec.xor_self
  have hzero := crcBits_eq_zero htop hxor
  rwa [show (0 : BitVec w) = 0#w from rfl, BitVec.xor_eq_zero_iff] at hzero

/-- A remainder whose low `n` bits are clear only moves down in `n` steps. -/
theorem crcBits_shift : ∀ (n : Nat) {c : BitVec w}, (∀ i < n, c.getLsbD i = false) → crcBits poly n c = c >>> n
  | 0, _, _ => by rw [crcBits, BitVec.ushiftRight_zero]
  | n + 1, c, h => by
    have hstep : crcBit poly c = c >>> 1 := by
      unfold crcBit
      rw [if_neg (by rw [h 0 (by omega)]; exact Bool.false_ne_true)]
    rw [crcBits, hstep, crcBits_shift n fun i hi => by rw [BitVec.getLsbD_ushiftRight]; exact h _ (by omega),
      ← BitVec.shiftRight_add, Nat.add_comm]

/-! ## Bytes -/

variable {table : BitVec 8 → BitVec w}

theorem IsTable.zero (ht : IsTable poly table) : table 0 = 0 := by
  rw [ht 0, show ((0 : BitVec 8).setWidth w) = 0 by simp, crcBits_zero]

/-- **A byte of the table-driven remainder is eight steps of remainder and byte together.** -/
theorem crcByte_eq (ht : IsTable poly table) (hw : 8 ≤ w) (c : BitVec w) (b : BitVec 8) :
    crcByte table c b = crcBits poly 8 (c ^^^ b.setWidth w) := by
  let low : BitVec w := (c.setWidth 8).setWidth w
  have hlow : ∀ i, low.getLsbD i = (decide (i < 8) && c.getLsbD i) := by
    intro i
    simp only [low, BitVec.getLsbD_setWidth]
    by_cases hi : i < 8
    · simp [hi, show i < w by omega]
    · simp [hi]
  have hsplit : c ^^^ b.setWidth w = (c.setWidth 8 ^^^ b).setWidth w ^^^ (c ^^^ low) := by
    rw [BitVec.setWidth_xor, BitVec.xor_comm low, BitVec.xor_assoc, BitVec.xor_comm c low, ← BitVec.xor_assoc low low,
      BitVec.xor_self, BitVec.zero_xor, BitVec.xor_comm]
  have hclear : ∀ i < 8, (c ^^^ low).getLsbD i = false := by
    intro i hi
    rw [BitVec.getLsbD_xor, hlow, decide_eq_true hi, Bool.true_and, Bool.xor_self]
  have hhigh : (c ^^^ low) >>> 8 = c >>> 8 := by
    apply BitVec.eq_of_getLsbD_eq
    intro i _
    have hout : decide (8 + i < 8) = false := by simp
    rw [BitVec.getLsbD_ushiftRight, BitVec.getLsbD_ushiftRight, BitVec.getLsbD_xor, hlow, hout, Bool.false_and,
      Bool.xor_false]
  rw [hsplit, crcBits_xor, ← ht, crcBits_shift 8 hclear, hhigh, crcByte, BitVec.xor_comm]

/-- **The table-driven remainder is the one taken a bit at a time.** -/
theorem crcFold_eq_crcSerial (ht : IsTable poly table) (hw : 8 ≤ w) (c : BitVec w) (bs : List (BitVec 8)) :
    crcFold table c bs = crcSerial poly c bs := by
  unfold crcFold crcSerial
  congr 1
  funext c b
  exact crcByte_eq ht hw c b

/-- **The difference of two messages leaves the difference of their remainders.** -/
theorem crcFold_xor (ht : IsTable poly table) (hw : 8 ≤ w) : ∀ {as bs : List (BitVec 8)} (c d : BitVec w),
    as.length = bs.length →
      crcFold table (c ^^^ d) (List.zipWith (· ^^^ ·) as bs) = crcFold table c as ^^^ crcFold table d bs
  | [], [], _, _, _ => rfl
  | [], _ :: _, _, _, h => absurd h (by simp)
  | _ :: _, [], _, _, h => absurd h (by simp)
  | a :: as, b :: bs, c, d, h => by
    have hbyte : crcByte table (c ^^^ d) (a ^^^ b) = crcByte table c a ^^^ crcByte table d b := by
      rw [crcByte_eq ht hw, crcByte_eq ht hw, crcByte_eq ht hw, ← crcBits_xor, BitVec.setWidth_xor]
      congr 1
      ac_rfl
    rw [List.zipWith_cons_cons, crcFold_cons, crcFold_cons, crcFold_cons, hbyte]
    exact crcFold_xor ht hw _ _ (by simpa using h)

theorem crcFold_replicate_zero (ht : IsTable poly table) (hw : 8 ≤ w) : ∀ (n : Nat) (c : BitVec w),
    crcFold table c (List.replicate n 0) = crcBits poly (8 * n) c
  | 0, _ => rfl
  | n + 1, _ => by
    rw [List.replicate_succ, crcFold_cons, crcByte_eq ht hw, crcFold_replicate_zero ht hw n,
      show ((0 : BitVec 8).setWidth w) = 0#w by simp, BitVec.xor_zero, ← crcBits_add]
    congr 1
    omega

/-- **Zero bytes lose nothing.** -/
theorem crcFold_zeros_eq_zero (ht : IsTable poly table) (hw : 8 ≤ w) (htop : poly.getLsbD (w - 1) = true) {n : Nat}
    {c : BitVec w} (h : crcFold table c (List.replicate n 0) = 0) : c = 0 := by
  rw [crcFold_replicate_zero ht hw] at h
  exact crcBits_eq_zero htop h

/-- **Octets from a remainder of zero: the steps of the word they make.** -/
theorem crcFold_zero_octets (ht : IsTable poly table) (hw : 8 ≤ w) {n : Nat} (hn : w ≤ 8 * n) (x : BitVec w) :
    crcFold table 0 (octets x n) = crcBits poly (8 * n) x := by
  have hlen : ∀ (n : Nat) (x : BitVec w), (octets x n).length = n := by
    intro n
    induction n with
    | zero => exact fun _ => rfl
    | succ n ih => exact fun x => by rw [octets, List.length_cons, ih]
  have hpad : (octets x n).length = (List.replicate n (0 : BitVec 8)).length := by simp [hlen]
  have hxor := crcFold_xor ht hw x x hpad
  have hzip : List.zipWith (· ^^^ ·) (octets x n) (List.replicate n (0 : BitVec 8)) = octets x n := by
    apply List.ext_getElem
    · simp [hlen]
    · intro i h₁ h₂
      simp
  rw [hzip, crcFold_self ht.zero n hn, crcFold_replicate_zero ht hw, BitVec.xor_self] at hxor
  rw [show (0 : BitVec w) = 0#w from rfl, hxor]
  exact BitVec.zero_xor

end LfSentry
