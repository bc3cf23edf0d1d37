import Mathlib.Data.List.Basic
import Mathlib.Data.BitVec
/-!
# CrcTable — a reflected table-driven check sequence, a byte at a time

The remainder moves down one octet per byte and takes the table's word for its low octet and the byte.  Where the
table's word for zero is zero, a remainder fed its own octets, lowest first, is used up (`crcFold_self`), and a
remainder of zero stays zero on zero bytes (`crcFold_zeros`).  So a message followed by its own check octets and any
number of zero bytes still checks.
-/
namespace LfSentry

variable {w : Nat}

/-- One byte of a reflected table-driven remainder. -/
def crcByte (table : BitVec 8 → BitVec w) (crc : BitVec w) (b : BitVec 8) : BitVec w :=
  (crc >>> 8) ^^^ table (crc.setWidth 8 ^^^ b)

def crcFold (table : BitVec 8 → BitVec w) (crc : BitVec w) (bs : List (BitVec 8)) : BitVec w :=
  bs.foldl (crcByte table) crc

variable {table : BitVec 8 → BitVec w}

@[simp] theorem crcFold_nil (crc : BitVec w) : crcFold table crc [] = crc := rfl

@[simp] theorem crcFold_cons (crc : BitVec w) (b : BitVec 8) (bs : List (BitVec 8)) :
    crcFold table crc (b :: bs) = crcFold table (crcByte table crc b) bs := rfl

theorem crcFold_append (crc : BitVec w) (as bs : List (BitVec 8)) :
    crcFold table crc (as ++ bs) = crcFold table (crcFold table crc as) bs := List.foldl_append

/-- **A byte equal to the remainder's low octet only moves the remainder down.** -/
theorem crcByte_self (h0 : table 0 = 0) (crc : BitVec w) : crcByte table crc (crc.setWidth 8) = crc >>> 8 := by
  rw [crcByte, BitVec.xor_self, show (0#8 : BitVec 8) = 0 from rfl, h0]
  exact BitVec.xor_zero

theorem crcByte_zero (h0 : table 0 = 0) : crcByte table 0 0 = 0 := by
  have h : crcByte table 0 ((0 : BitVec w).setWidth 8) = (0 : BitVec w) >>> 8 := crcByte_self h0 0
  simpa using h

/-- **A zero remainder stays zero on zero bytes.** -/
theorem crcFold_zeros (h0 : table 0 = 0) : ∀ n : Nat, crcFold table 0 (List.replicate n 0) = 0
  | 0 => rfl
  | n + 1 => by rw [List.replicate_succ, crcFold_cons, crcByte_zero h0, crcFold_zeros h0 n]

/-- The octets of a remainder, lowest first. -/
def octets (crc : BitVec w) : Nat → List (BitVec 8)
  | 0 => []
  | n + 1 => crc.setWidth 8 :: octets (crc >>> 8) n

/-- **A remainder fed `n` of its own octets has moved down `n` places.** -/
theorem crcFold_octets (h0 : table 0 = 0) : ∀ (n : Nat) (crc : BitVec w),
    crcFold table crc (octets crc n) = crc >>> (8 * n)
  | 0, crc => by simp [octets]
  | n + 1, crc => by
    rw [octets, crcFold_cons, crcByte_self h0, crcFold_octets h0 n (crc >>> 8), ← BitVec.shiftRight_add]
    congr 1
    omega

/-- **A remainder fed all of its own octets is used up.** -/
theorem crcFold_self (h0 : table 0 = 0) (n : Nat) (hw : w ≤ 8 * n) (crc : BitVec w) :
    crcFold table crc (octets crc n) = 0 := by
  rw [crcFold_octets h0]
  exact BitVec.ushiftRight_eq_zero hw

/-- **A message, its own check octets and any zero bytes after them leave no remainder.** -/
theorem crcFold_checked_zeros (h0 : table 0 = 0) (n : Nat) (hw : w ≤ 8 * n) (crc : BitVec w)
    (msg : List (BitVec 8)) (z : Nat) :
    crcFold table crc (msg ++ octets (crcFold table crc msg) n ++ List.replicate z 0) = 0 := by
  rw [crcFold_append, crcFold_append, crcFold_self h0 n hw, crcFold_zeros h0]

end LfSentry
