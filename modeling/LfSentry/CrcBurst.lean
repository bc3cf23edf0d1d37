import Mathlib.Data.List.GetD
import LfSentry.CrcBits
import LfSentry.VisionCrc
/-!
# CrcBurst — one check sequence on both sides, and what it detects

The table of the serial link (`crc8_crc16.cpp`) and that of the vision (`tools/crc.cpp`) are the same table, of the
polynomial 0x8408.  What `append_CRC16_check_sum` leaves verifies, and a buffer that verifies does not verify with an error
in up to 16 bits one after the other: whatever the error is, its remainder is not zero (`crcFold_burst`).
-/
namespace LfSentry
namespace Serial

def ccitt : U16 := 0x8408

theorem wCrcTable_eq : wCrcTable = (List.range 256).map fun i => crcBits ccitt 8 (BitVec.ofNat 16 i) := by decide +kernel

theorem isTable_wCrcEntry : IsTable ccitt wCrcEntry := by
  intro i
  have hi : i.toNat < 256 := i.isLt
  unfold wCrcEntry
  rw [wCrcTable_eq, List.getD_eq_getElem _ _ (by simpa using hi), List.getElem_map, List.getElem_range,
    BitVec.ofNat_toNat]

theorem ccitt_top : ccitt.getLsbD (16 - 1) = true := by decide

theorem crc16Table_eq : Vision.crc16Table = wCrcTable := rfl

/-- **Both packages' functions are the remainder taken a bit at a time.** -/
theorem getCrc16CheckSum_serial (msg : List U8) (n : Nat) (crc : U16) :
    getCrc16CheckSum msg n crc = crcSerial ccitt crc (msg.take n) := by
  rw [getCrc16CheckSum_eq, crcFold_eq_crcSerial isTable_wCrcEntry (by decide)]

theorem getCrc16_eq (data : List U8) (len : Nat) : Vision.getCrc16 data len = getCrc16CheckSum data len crc16Init := by
  have hbyte : ∀ x : U16, ((x &&& 0x00ff).setWidth 8).toNat = (x &&& 0x00ff).toNat := by
    intro x
    rw [and_mask_toNat, BitVec.toNat_setWidth, and_mask_toNat, BitVec.toNat_setWidth, Nat.mod_mod]
  unfold Vision.getCrc16 getCrc16CheckSum
  rw [crc16Table_eq]
  dsimp only
  congr 1
  funext c b
  rw [hbyte]

/-! ## Appending and verifying -/

/-- `append_CRC8_check_sum`: the check is the last of `dwLength` bytes. -/
def appendCrc8CheckSum (msg : List U8) (dwLength : Nat) : List U8 :=
  if dwLength ≤ 2 then msg
  else
    let ucCrc := getCrc8CheckSum msg (dwLength - 1) crc8Init
    msg.set (dwLength - 1) ucCrc

/-- `append_CRC16_check_sum`: the check is the last two of `dwLength` bytes. -/
def appendCrc16CheckSum (msg : List U8) (dwLength : Nat) : List U8 :=
  if dwLength ≤ 2 then msg
  else
    let wCrc := getCrc16CheckSum msg (dwLength - 2) crc16Init
    (msg.set (dwLength - 2) ((wCrc &&& 0x00ff).setWidth 8)).set (dwLength - 1) (((wCrc >>> 8) &&& 0x00ff).setWidth 8)

/-- `verify_CRC16_check_sum(pchMessage, dwLength)`. -/
def verifyCrc16CheckSumAt (msg : List U8) (dwLength : Nat) : Bool :=
  if dwLength ≤ 2 then false
  else
    let wExpected := getCrc16CheckSum msg (dwLength - 2) crc16Init
    (wExpected &&& 0xff) == (msg.getD (dwLength - 2) 0).setWidth 16 &&
      ((wExpected >>> 8) &&& 0xff) == (msg.getD (dwLength - 1) 0).setWidth 16

/-- The overload for a vector is that for its bytes. -/
theorem verifyCrc16CheckSum_eq_at (msg : List U8) : verifyCrc16CheckSum msg = verifyCrc16CheckSumAt msg msg.length := rfl

theorem verify_appendCrc8 (msg : List U8) {n : Nat} (hn : 2 < n) (hlen : n ≤ msg.length) :
    verifyCrc8CheckSum (appendCrc8CheckSum msg n) n = true := by
  have htake : ∀ x : U8, (msg.set (n - 1) x).take (n - 1) = msg.take (n - 1) := fun x => List.take_set_of_le (le_refl _)
  unfold verifyCrc8CheckSum appendCrc8CheckSum
  rw [if_neg (by omega), if_neg (by omega)]
  dsimp only
  unfold getCrc8CheckSum
  rw [htake, List.getD_eq_getElem _ _ (by rw [List.length_set]; omega), List.getElem_set_self]
  exact beq_self_eq_true _

theorem verify_appendCrc16 (msg : List U8) {n : Nat} (hn : 2 < n) (hlen : n ≤ msg.length) :
    verifyCrc16CheckSumAt (appendCrc16CheckSum msg n) n = true := by
  have htake : ∀ x y : U8, ((msg.set (n - 2) x).set (n - 1) y).take (n - 2) = msg.take (n - 2) := by
    intro x y
    rw [List.take_set_of_le (by omega), List.take_set_of_le (le_refl _)]
  have hmask : ∀ x : U16, (((x &&& 0x00ff).setWidth 8 : U8).setWidth 16 : U16) = x &&& 0xff := by
    intro x
    exact ((low_octet_iff x _).2 (by rw [← BitVec.toNat_inj, BitVec.toNat_setWidth, BitVec.toNat_setWidth, and_mask_toNat, BitVec.toNat_setWidth, Nat.mod_mod])).symm
  unfold verifyCrc16CheckSumAt appendCrc16CheckSum
  rw [if_neg (by omega), if_neg (by omega)]
  dsimp only
  have hget : ∀ x y : U8, getCrc16CheckSum ((msg.set (n - 2) x).set (n - 1) y) (n - 2) crc16Init =
      getCrc16CheckSum msg (n - 2) crc16Init := by
    intro x y
    unfold getCrc16CheckSum
    rw [htake]
  rw [hget, List.getD_eq_getElem _ _ (by simp; omega), List.getD_eq_getElem _ _ (by simp; omega),
    List.getElem_set_self, List.getElem_set_ne (by omega), List.getElem_set_self, hmask, hmask, beq_self_eq_true,
    beq_self_eq_true]
  rfl

theorem octets_append (a b : U8) : octets (b ++ a : U16) 2 = [a, b] := by
  have hlow : (b ++ a : U16).setWidth 8 = a := by
    apply BitVec.eq_of_getLsbD_eq
    intro i hi
    rw [BitVec.getLsbD_setWidth, BitVec.getLsbD_append]
    simp [hi]
  have hhigh : ((b ++ a : U16) >>> 8).setWidth 8 = b := by
    apply BitVec.eq_of_getLsbD_eq
    intro i hi
    rw [BitVec.getLsbD_setWidth, BitVec.getLsbD_ushiftRight, BitVec.getLsbD_append]
    simp [hi]
  rw [octets, octets, octets, hlow, hhigh]

theorem crcFold_pair_eq_zero {c : U16} {a b : U8} : crcFold wCrcEntry c [a, b] = 0 ↔ octets c 2 = [a, b] := by
  constructor
  · intro h
    have hlen : (octets (b ++ a : U16) 2).length = (octets c 2).length := rfl
    have hxor := crcFold_xor isTable_wCrcEntry (by decide) c c hlen
    rw [octets_append] at hxor
    rw [crcFold_self wCrcEntry_zero 2 (by decide), h, BitVec.xor_self] at hxor
    rw [← octets_append a b] at hxor ⊢
    have hzip : List.zipWith (· ^^^ ·) (octets (b ++ a : U16) 2) (octets c 2) = octets ((b ++ a : U16) ^^^ c) 2 := by
      simp [octets, BitVec.setWidth_xor, BitVec.ushiftRight_xor_distrib]
    rw [hzip] at hxor
    have hsteps := (crcFold_zero_octets isTable_wCrcEntry (by decide) (n := 2) (by decide) _).symm.trans hxor
    have hzero := crcBits_eq_zero ccitt_top (hsteps.trans (by rfl))
    rw [show (0 : U16) = 0#16 from rfl, BitVec.xor_eq_zero_iff] at hzero
    rw [hzero]
  · intro h
    rw [← h]
    exact crcFold_self wCrcEntry_zero 2 (by decide) c

/-- **A buffer verifies exactly where its remainder, check and all, is zero.** -/
theorem verifyCrc16CheckSumAt_iff (msg : List U8) {n : Nat} (hn : 2 < n) (hlen : n ≤ msg.length) :
    verifyCrc16CheckSumAt msg n = true ↔ crcFold wCrcEntry crc16Init (msg.take n) = 0 := by
  obtain ⟨m, rfl⟩ : ∃ m, n = m + 2 := ⟨n - 2, by omega⟩
  have hsplit : msg.take (m + 2) = msg.take m ++ [msg.getD m 0, msg.getD (m + 1) 0] := by
    rw [List.take_add_one, List.take_add_one, List.getElem?_eq_getElem (by omega), List.getElem?_eq_getElem (by omega),
      List.getD_eq_getElem _ _ (by omega), List.getD_eq_getElem _ _ (by omega), List.append_assoc]
    rfl
  rw [hsplit, crcFold_append, crcFold_pair_eq_zero]
  unfold verifyCrc16CheckSumAt
  rw [if_neg (by omega)]
  simp only [getCrc16CheckSum_eq, Nat.add_sub_cancel, show m + 2 - 1 = m + 1 by omega, Bool.and_eq_true, beq_iff_eq,
    low_octet_iff, octets, List.cons.injEq, and_true]

/-! ## Bursts -/

/-- The order of the bits of a byte: the lowest first, as the remainder takes them, or the highest first. -/
inductive BitOrder
  | lowFirst | highFirst

/-- Where in its byte the `k`-th bit is; and which of its byte's bits a bit is. -/
def BitOrder.place : BitOrder → Nat → Nat
  | .lowFirst, k => k
  | .highFirst, k => 7 - k

def bitOf (order : BitOrder) (buf : List U8) (k : Nat) : Bool := (buf.getD (k / 8) 0).getLsbD (order.place (k % 8))

/-- The two buffers differ, if at all, in the 16 bits from the `p`-th on. -/
structure Burst (order : BitOrder) (p : Nat) (buf buf' : List U8) : Prop where
  length : buf'.length = buf.length
  outside : ∀ k, k < p ∨ p + 16 ≤ k → bitOf order buf' k = bitOf order buf k

theorem place_place (order : BitOrder) {j : Nat} (hj : j < 8) : order.place (order.place j) = j ∧ order.place j < 8 := by
  cases order with
  | lowFirst => exact ⟨rfl, hj⟩
  | highFirst => exact ⟨show 7 - (7 - j) = j by omega, show 7 - j < 8 by omega⟩

def crcUnbit (c : U16) : U16 := if c.getLsbD 15 then ((c ^^^ ccitt) <<< 1) ||| 1 else c <<< 1

def crcUnbits : Nat → U16 → U16
  | 0, c => c
  | n + 1, c => crcUnbits n (crcUnbit c)

theorem crcUnbits_zero : ∀ n, crcUnbits n 0 = 0
  | 0 => rfl
  | n + 1 => by
    rw [crcUnbits, show crcUnbit 0 = 0 by decide]
    exact crcUnbits_zero n

/-- The bits of a byte before the `o`-th. -/
def BitOrder.mask : BitOrder → Nat → U8
  | .lowFirst, o => ~~~(0xff <<< o)
  | .highFirst, o => ~~~(0xff >>> o)

theorem mask_bit (order : BitOrder) : ∀ o j : Fin 8, (order.mask o).getLsbD j = decide (order.place j < o) := by
  cases order <;> decide

/-- A byte and one two places after it are not the ends of one burst, unless the later one is zero. -/
def Apart (order : BitOrder) (u z : U8) : Prop :=
  ∀ o : Fin 8, z &&& ~~~order.mask o = 0 → u &&& order.mask o = 0 → z = 0

instance (order : BitOrder) (u z : U8) : Decidable (Apart order u z) := inferInstanceAs (Decidable (∀ _ : Fin 8, _))

/-- **The third byte that uses up the remainder of two before it is not in one burst with them.** -/
theorem apart (order : BitOrder) : ∀ z : U8, Apart order ((crcUnbits 16 (z.setWidth 16)).setWidth 8) z := by
  cases order <;> decide +kernel

/-- A step takes back a step back: the bit that comes in says whether the polynomial was taken off. -/
theorem crcBit_crcUnbit (c : U16) : crcBit ccitt (crcUnbit c) = c := by
  have hdown : ∀ x : U16, x.getLsbD 15 = false → (x <<< 1) >>> 1 = x := by
    intro x hx
    apply BitVec.eq_of_getLsbD_eq
    intro i hi
    rw [BitVec.getLsbD_ushiftRight, BitVec.getLsbD_shiftLeft]
    by_cases h15 : i = 15
    · rw [h15, hx]
      rfl
    · have hlt : 1 + i < 16 := by omega
      simp [hlt]
  unfold crcBit crcUnbit
  by_cases h : c.getLsbD 15 = true
  · have htop : (c ^^^ ccitt).getLsbD 15 = false := by
      rw [BitVec.getLsbD_xor, h]
      rfl
    have hone : (1 : U16) >>> 1 = 0#16 := by decide
    rw [if_pos h, if_pos (by simp), BitVec.ushiftRight_or_distrib, hdown _ htop, hone, BitVec.or_zero, BitVec.xor_assoc,
      BitVec.xor_self, BitVec.xor_zero]
  · have htop : c.getLsbD 15 = false := by simpa using h
    rw [if_neg h, if_neg (by simp), hdown c htop]

theorem crcBits_crcUnbits : ∀ (n : Nat) (c : U16), crcBits ccitt n (crcUnbits n c) = c
  | 0, _ => rfl
  | n + 1, c => by
    rw [crcBits_add n 1, crcUnbits, crcBits_crcUnbits n, crcBits, crcBits, crcBit_crcUnbit]

theorem crcFold_triple {u v z : U8} (h : crcFold wCrcEntry 0 [u, v, z] = 0) : (v ++ u : U16) = crcUnbits 16 (z.setWidth 16) := by
  have htwo : crcFold wCrcEntry 0 [u, v] = crcBits ccitt 16 (v ++ u : U16) := by
    rw [← octets_append u v]
    exact crcFold_zero_octets isTable_wCrcEntry (by decide) (n := 2) (by decide) _
  rw [show [u, v, z] = [u, v] ++ [z] from rfl, crcFold_append, htwo, crcFold_cons, crcFold_nil,
    crcByte_eq isTable_wCrcEntry (by decide)] at h
  have hzero := crcBits_eq_zero ccitt_top h
  rw [show (0 : U16) = 0#16 from rfl, BitVec.xor_eq_zero_iff] at hzero
  exact crcBits_inj ccitt_top (hzero.trans (crcBits_crcUnbits 16 _).symm)

/-- **Three bytes that leave no remainder are zero if the first and the third are the ends of one burst.** -/
theorem triple_eq_zero {order : BitOrder} {u v z : U8} (o : Fin 8) (h : crcFold wCrcEntry 0 [u, v, z] = 0)
    (hfirst : u &&& order.mask o = 0) (hlast : z &&& ~~~order.mask o = 0) : u = 0 ∧ v = 0 ∧ z = 0 := by
  have hused := crcFold_triple h
  have hu : u = (crcUnbits 16 (z.setWidth 16)).setWidth 8 := by
    rw [← hused]
    exact (List.cons.inj (octets_append u v)).1.symm
  have hz : z = 0 := apart order z o hlast (hu ▸ hfirst)
  rw [hz, show (0 : U8).setWidth 16 = (0 : U16) from rfl, crcUnbits_zero] at hused
  have hpair := octets_append u v
  rw [hused] at hpair
  obtain ⟨hu, hpair⟩ := List.cons.inj hpair
  obtain ⟨hv, -⟩ := List.cons.inj hpair
  exact ⟨hu.symm, hv.symm, hz⟩

/-- Bytes that are zero but for three, with zeros after them. -/
theorem append_zeros {q : Nat} {e : List U8} (hbyte : ∀ i, i < q ∨ q + 3 ≤ i → e.getD i 0 = 0) :
    e ++ List.replicate (q + 3) 0 = List.replicate q 0 ++ ([e.getD q 0, e.getD (q + 1) 0, e.getD (q + 2) 0] ++
      List.replicate e.length 0) := by
  have hget : ∀ i (_ : i < (e ++ List.replicate (q + 3) (0 : U8)).length),
      (e ++ List.replicate (q + 3) 0)[i] = e.getD i 0 := by
    intro i hi
    rw [List.getElem_append]
    split
    · rw [List.getD_eq_getElem]
    · rw [List.getElem_replicate, List.getD_eq_default _ _ (by omega)]
  apply List.ext_getElem
  · simp
    omega
  · intro i h₁ h₂
    rw [hget i h₁, List.getElem_append]
    split
    · rename_i hi
      rw [List.getElem_replicate, hbyte i (.inl (by simpa using hi))]
    · rename_i hi
      obtain ⟨k, rfl⟩ : ∃ k, i = q + k := ⟨i - q, by simp at hi; omega⟩
      simp only [List.length_replicate, Nat.add_sub_cancel_left]
      match k with
      | 0 => rfl
      | 1 => rfl
      | 2 => rfl
      | k + 3 =>
        rw [List.getElem_append_right (by simp), List.getElem_replicate, hbyte _ (.inr (by omega))]

section

variable {order : BitOrder} {p : Nat} {e : List U8} (hout : ∀ k, k < p ∨ p + 16 ≤ k → bitOf order e k = false)

include hout

theorem bit_outside {i j : Nat} (hj : j < 8) (hk : 8 * i + order.place j < p ∨ p + 16 ≤ 8 * i + order.place j) :
    (e.getD i 0).getLsbD j = false := by
  obtain ⟨hplace, hlt⟩ := place_place order hj
  have hb := hout _ hk
  unfold bitOf at hb
  rwa [show (8 * i + order.place j) / 8 = i by omega, show (8 * i + order.place j) % 8 = order.place j by omega,
    hplace] at hb

/-- Only three bytes can hold the 16 bits. -/
theorem byte_outside (i : Nat) (hi : i < p / 8 ∨ p / 8 + 3 ≤ i) : e.getD i 0 = 0 := by
  apply BitVec.eq_of_getLsbD_eq
  intro j hj
  have hlt := (place_place order hj).2
  rw [bit_outside hout hj (by omega)]
  exact BitVec.getLsbD_zero.symm

theorem first_outside {o : Fin 8} (ho : p % 8 = o) : e.getD (p / 8) 0 &&& order.mask o = 0 := by
  apply BitVec.eq_of_getLsbD_eq
  intro j hj
  rw [BitVec.getLsbD_and, mask_bit order o ⟨j, hj⟩]
  by_cases hb : order.place j < o
  · rw [bit_outside hout hj (.inl (by omega))]
    exact BitVec.getLsbD_zero.symm
  · rw [decide_eq_false hb, Bool.and_false]
    exact BitVec.getLsbD_zero.symm

theorem last_outside {o : Fin 8} (ho : p % 8 = o) : e.getD (p / 8 + 2) 0 &&& ~~~order.mask o = 0 := by
  apply BitVec.eq_of_getLsbD_eq
  intro j hj
  rw [BitVec.getLsbD_and, BitVec.getLsbD_not, mask_bit order o ⟨j, hj⟩]
  by_cases hb : order.place j < o
  · rw [decide_eq_true hb, Bool.not_true, Bool.and_false, Bool.and_false]
    exact BitVec.getLsbD_zero.symm
  · rw [bit_outside hout hj (.inr (by omega)), Bool.false_and]
    exact BitVec.getLsbD_zero.symm

/-- **An error in up to 16 bits one after the other leaves a remainder.** -/
theorem crcFold_burst (h : crcFold wCrcEntry 0 e = 0) (i : Nat) : e.getD i 0 = 0 := by
  have hfold := congrArg (crcFold wCrcEntry 0) (append_zeros (byte_outside hout))
  rw [crcFold_append, h, crcFold_zeros wCrcEntry_zero, crcFold_append, crcFold_zeros wCrcEntry_zero, crcFold_append] at hfold
  have hnone := crcFold_zeros_eq_zero isTable_wCrcEntry (by decide) ccitt_top hfold.symm
  let o : Fin 8 := ⟨p % 8, Nat.mod_lt _ (by decide)⟩
  obtain ⟨hu, hv, hz⟩ := triple_eq_zero o hnone (first_outside hout rfl) (last_outside hout rfl)
  by_cases hi : i < p / 8 ∨ p / 8 + 3 ≤ i
  · exact byte_outside hout i hi
  · obtain rfl | rfl | rfl : i = p / 8 ∨ i = p / 8 + 1 ∨ i = p / 8 + 2 := by omega
    · exact hu
    · exact hv
    · exact hz

end

/-- **No error in up to 16 bits one after the other passes `verify_CRC16_check_sum`.** -/
theorem verifyCrc16CheckSumAt_burst {order : BitOrder} {p : Nat} {msg msg' : List U8}
    (h : verifyCrc16CheckSumAt msg msg.length = true) (hb : Burst order p msg msg') (hne : msg' ≠ msg) :
    verifyCrc16CheckSumAt msg' msg'.length = false := by
  have hn : 2 < msg.length := by
    by_contra hle
    rw [verifyCrc16CheckSumAt, if_pos (by omega)] at h
    cases h
  by_contra hv
  rw [Bool.not_eq_false, verifyCrc16CheckSumAt_iff msg' (by rw [hb.length]; exact hn) (le_refl _), List.take_length] at hv
  rw [verifyCrc16CheckSumAt_iff msg hn (le_refl _), List.take_length] at h
  have hxor := crcFold_xor isTable_wCrcEntry (by decide) crc16Init crc16Init hb.length
  rw [h, hv, BitVec.xor_self, BitVec.xor_self] at hxor
  have hgetD : ∀ i, (List.zipWith (· ^^^ ·) msg' msg).getD i 0 = msg'.getD i 0 ^^^ msg.getD i 0 := by
    intro i
    by_cases hi : i < msg.length
    · have hi' : i < msg'.length := by rw [hb.length]; exact hi
      rw [List.getD_eq_getElem _ _ (by simp [hi, hi']), List.getElem_zipWith, List.getD_eq_getElem _ _ hi',
        List.getD_eq_getElem _ _ hi]
    · have hi' : ¬ i < msg'.length := by rw [hb.length]; exact hi
      rw [List.getD_eq_default _ _ (by simp; omega), List.getD_eq_default _ _ (by omega),
        List.getD_eq_default _ _ (by omega)]
      rfl
  have hout : ∀ k, k < p ∨ p + 16 ≤ k → bitOf order (List.zipWith (· ^^^ ·) msg' msg) k = false := by
    intro k hk
    have hk := hb.outside k hk
    unfold bitOf at hk ⊢
    rw [hgetD, BitVec.getLsbD_xor, hk, Bool.xor_self]
  have hzero := crcFold_burst hout hxor
  refine hne (List.ext_getElem hb.length fun i h₁ h₂ => ?_)
  have hi := hzero i
  rw [hgetD, List.getD_eq_getElem _ _ h₁, List.getD_eq_getElem _ _ h₂] at hi
  rwa [show (0 : U8) = 0#8 from rfl, BitVec.xor_eq_zero_iff] at hi

/-- **One check sequence on both sides.**  The two packages' functions are the reflected remainder of 0x8408 from 0xFFFF, what
the appending functions leave verifies, and no burst of up to 16 bits in it does, in either order of a byte's bits. -/
theorem crc_agrees_and_detects (msg : List U8) :
    (∀ n, getCrc16CheckSum msg n crc16Init = crcSerial 0x8408 0xFFFF (msg.take n) ∧
      Vision.getCrc16 msg n = getCrc16CheckSum msg n crc16Init) ∧
    (∀ n, 2 < n → n ≤ msg.length → verifyCrc16CheckSumAt (appendCrc16CheckSum msg n) n = true ∧
      verifyCrc8CheckSum (appendCrc8CheckSum msg n) n = true) ∧
    (2 < msg.length → verifyCrc16CheckSum (appendCrc16CheckSum msg msg.length) = true ∧
      ∀ order p msg', Burst order p (appendCrc16CheckSum msg msg.length) msg' →
        msg' ≠ appendCrc16CheckSum msg msg.length →
          verifyCrc16CheckSumAt msg' msg'.length = false ∧ verifyCrc16CheckSum msg' = false) := by
  refine ⟨fun n => ⟨getCrc16CheckSum_serial msg n crc16Init, getCrc16_eq msg n⟩,
    fun n hn hlen => ⟨verify_appendCrc16 msg hn hlen, verify_appendCrc8 msg hn hlen⟩, fun hlen => ?_⟩
  have hsize : (appendCrc16CheckSum msg msg.length).length = msg.length := by
    unfold appendCrc16CheckSum
    rw [if_neg (by omega)]
    dsimp only
    rw [List.length_set, List.length_set]
  have hok : verifyCrc16CheckSumAt (appendCrc16CheckSum msg msg.length) (appendCrc16CheckSum msg msg.length).length = true := by
    rw [hsize]
    exact verify_appendCrc16 msg hlen (le_refl _)
  refine ⟨by rw [verifyCrc16CheckSum_eq_at]; exact hok, fun order p msg' hb hne => ?_⟩
  have hrejected := verifyCrc16CheckSumAt_burst hok hb hne
  exact ⟨hrejected, by rw [verifyCrc16CheckSum_eq_at]; exact hrejected⟩

end Serial
end LfSentry
