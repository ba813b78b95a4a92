import Mathlib.Data.List.Basic
import Mathlib.Data.List.Induction
import Mathlib.Data.Nat.Bitwise
import Mathlib.Tactic.Common
import Mathlib.Tactic.Ring

/-!
# Bits of bytes

A byte is known by its bits, the lowest of which is bit 0; the operators of
machine code are read through them.
-/

namespace Byte

def bit (x : UInt8) (i : Nat) : Bool := x.toBitVec.getLsbD i

variable {x y : UInt8} {i : Nat}

@[simp] theorem bit_or : bit (x ||| y) i = (bit x i || bit y i) := by
  simp [bit]

@[simp] theorem bit_and : bit (x &&& y) i = (bit x i && bit y i) := by
  simp [bit]

theorem bit_not (h : i < 8) : bit (~~~x) i = !bit x i := by
  simp [bit, h]

@[simp] theorem bit_zero : bit 0 i = false := by
  simp [bit]

theorem bit_eq_testBit (x : UInt8) (i : Nat) : bit x i = x.toNat.testBit i :=
  (BitVec.testBit_toNat x.toBitVec).symm

theorem bit_of_le (h : 8 ≤ i) : bit x i = false := BitVec.getLsbD_of_ge _ _ h

theorem ext (h : ∀ i < 8, bit x i = bit y i) : x = y := by
  apply UInt8.toBitVec_inj.mp
  ext i hi
  exact h i hi

/-- The mask of one bit. -/
theorem bit_mask {m : UInt8} (hi : i < 8) (hm : m.toBitVec = BitVec.twoPow 8 i) (j : Nat) :
    bit m j = decide (i = j) := by
  rw [bit, hm, BitVec.getLsbD_twoPow]
  simp [hi]

/-- A bit is tested with its mask. -/
theorem and_mask_ne_zero {m : UInt8} (hi : i < 8) (hm : m.toBitVec = BitVec.twoPow 8 i) :
    x &&& m ≠ 0 ↔ bit x i = true := by
  have hbits : (x &&& m).toBitVec = if bit x i then BitVec.twoPow 8 i else 0#8 := by
    rw [UInt8.toBitVec_and, hm, BitVec.and_twoPow]
    rfl
  constructor
  · intro h
    by_contra hnot
    rw [if_neg hnot] at hbits
    exact h (UInt8.toBitVec_inj.mp hbits)
  · intro h h0
    rw [h0, if_pos h] at hbits
    have hbit := congrArg (fun b => b.getLsbD i) hbits
    simp [hi] at hbit

/-- The bits of a byte, the highest one first. -/
def bits (x : UInt8) : List Bool :=
  [bit x 7, bit x 6, bit x 5, bit x 4, bit x 3, bit x 2, bit x 1, bit x 0]

@[simp] theorem length_bits (x : UInt8) : (bits x).length = 8 := rfl

theorem getElem?_bits (h : i < 8) : (bits x)[i]? = some (bit x (7 - i)) := by
  obtain rfl | rfl | rfl | rfl | rfl | rfl | rfl | rfl :
      i = 0 ∨ i = 1 ∨ i = 2 ∨ i = 3 ∨ i = 4 ∨ i = 5 ∨ i = 6 ∨ i = 7 := by omega
  all_goals rfl

end Byte

/-!
## Strings of bits

A string of bytes is one of bits, the highest bit of each byte first, and a string of bits
is a number, its first bit the highest one.
-/

namespace BitString

def ofBytes (bytes : List UInt8) : List Bool := bytes.flatMap Byte.bits

/-- The bit at a position of a string of bytes. -/
def bitAt (bytes : List UInt8) (q : Nat) : Bool := Byte.bit (bytes.getD (q / 8) 0) (7 - q % 8)

/-- The number that a string of bits is. -/
def value (bs : List Bool) : Nat := bs.foldl (fun n b => 2 * n + b.toNat) 0

/-- The lower `n` bits of a number. -/
def ofNat (n v : Nat) : List Bool := (List.range n).map fun i => v.testBit (n - 1 - i)

variable {bytes : List UInt8} {bs : List Bool} {p q n : Nat}

@[simp] theorem length_ofBytes (bytes : List UInt8) :
    (ofBytes bytes).length = 8 * bytes.length := by
  induction bytes with
  | nil => rfl
  | cons x bytes ih =>
      rw [ofBytes, List.flatMap_cons, List.length_append, Byte.length_bits, ← ofBytes, ih,
        List.length_cons]
      omega

theorem getElem?_ofBytes (h : q < 8 * bytes.length) :
    (ofBytes bytes)[q]? = some (bitAt bytes q) := by
  induction bytes generalizing q with
  | nil => exact absurd h (Nat.not_lt_zero q)
  | cons x bytes ih =>
      rw [ofBytes, List.flatMap_cons, ← ofBytes, bitAt]
      by_cases hq : q < 8
      · rw [List.getElem?_append_left (by rw [Byte.length_bits]; exact hq), Byte.getElem?_bits hq,
          Nat.div_eq_of_lt hq, Nat.mod_eq_of_lt hq]
        rfl
      · rw [List.length_cons] at h
        have hdiv : q / 8 = (q - 8) / 8 + 1 := by omega
        have hmod : q % 8 = (q - 8) % 8 := by omega
        rw [List.getElem?_append_right (by rw [Byte.length_bits]; omega), Byte.length_bits,
          ih (by omega), bitAt, hdiv, hmod]
        rfl

theorem value_append (as bs : List Bool) :
    value (as ++ bs) = value as * 2 ^ bs.length + value bs := by
  have hfrom : ∀ (bs : List Bool) (n : Nat),
      bs.foldl (fun n b => 2 * n + b.toNat) n = n * 2 ^ bs.length + value bs := by
    intro bs
    induction bs with
    | nil => intro n; simp [value]
    | cons b bs ih =>
        intro n
        rw [value, List.foldl_cons, ih, List.foldl_cons, ih (2 * 0 + b.toNat), List.length_cons,
          Nat.pow_succ]
        ring
  rw [value, List.foldl_append, hfrom]
  rfl

theorem value_lt (bs : List Bool) : value bs < 2 ^ bs.length := by
  induction bs using List.reverseRecOn with
  | nil => exact Nat.one_pos
  | append_singleton bs b ih =>
      have hb : value [b] < 2 := by cases b <;> decide
      rw [value_append, List.length_append, List.length_singleton, Nat.pow_succ]
      omega

/-- The bits of the number are those of the string, from its end. -/
theorem testBit_value {i : Nat} (h : i < bs.length) :
    (value bs).testBit i = bs.getD (bs.length - 1 - i) false := by
  induction bs using List.reverseRecOn generalizing i with
  | nil => exact absurd h (Nat.not_lt_zero i)
  | append_singleton bs b ih =>
      have hvalue : value (bs ++ [b]) = 2 * value bs + b.toNat := by
        rw [value_append]
        have hone : value [b] = b.toNat := by cases b <;> rfl
        rw [hone, List.length_singleton]
        omega
      rw [List.length_append, List.length_singleton] at h ⊢
      rw [hvalue]
      cases i with
      | zero =>
          rw [Nat.testBit_zero, List.getD_eq_getElem?_getD,
            List.getElem?_append_right (by omega)]
          have hlast : bs.length + 1 - 1 - 0 - bs.length = 0 := by omega
          rw [hlast]
          cases b <;> simp
      | succ i =>
          have hhalf : (2 * value bs + b.toNat) / 2 = value bs := by
            cases b <;> simp only [Bool.toNat_true, Bool.toNat_false] <;> omega
          rw [Nat.testBit_succ, hhalf, ih (by omega), List.getD_eq_getElem?_getD,
            List.getD_eq_getElem?_getD, List.getElem?_append_left (by omega)]
          congr 2
          omega

theorem testBit_value_of_le {i : Nat} (h : bs.length ≤ i) : (value bs).testBit i = false :=
  Nat.testBit_lt_two_pow (Nat.lt_of_lt_of_le (value_lt bs) (Nat.pow_le_pow_right Nat.two_pos h))

@[simp] theorem length_ofNat (n v : Nat) : (ofNat n v).length = n := by
  rw [ofNat, List.length_map, List.length_range]

theorem value_ofNat {v : Nat} (h : v < 2 ^ n) : value (ofNat n v) = v := by
  refine Nat.eq_of_testBit_eq fun i => ?_
  by_cases hi : i < n
  · have hback : n - 1 - (n - 1 - i) = i := by omega
    rw [testBit_value (by rwa [length_ofNat]), length_ofNat, ofNat, List.getD_eq_getElem?_getD,
      List.getElem?_map, List.getElem?_range (by omega), Option.map_some, hback]
    rfl
  · have hle : n ≤ i := Nat.not_lt.1 hi
    rw [testBit_value_of_le (by rwa [length_ofNat])]
    exact (Nat.testBit_lt_two_pow (Nat.lt_of_lt_of_le h
      (Nat.pow_le_pow_right Nat.two_pos hle))).symm

/-- `n` bits of a string of bytes as a number, bit by bit. -/
theorem testBit_slice (h : p + n ≤ 8 * bytes.length) {i : Nat} (hi : i < n) :
    (value (((ofBytes bytes).drop p).take n)).testBit i = bitAt bytes (p + n - 1 - i) := by
  have hlen : (((ofBytes bytes).drop p).take n).length = n := by
    rw [List.length_take, List.length_drop, length_ofBytes]
    omega
  rw [testBit_value (by omega), hlen, List.getD_eq_getElem?_getD,
    List.getElem?_take_of_lt (by omega), List.getElem?_drop, getElem?_ofBytes (by omega),
    Option.getD_some]
  congr 1
  omega

/-- A number is what is read if its bits are. -/
theorem eq_slice_iff (h : p + n ≤ 8 * bytes.length) {v : Nat} (hv : v < 2 ^ n) :
    v = value (((ofBytes bytes).drop p).take n) ↔
      ∀ i < n, v.testBit i = bitAt bytes (p + n - 1 - i) := by
  constructor
  · rintro rfl i hi
    exact testBit_slice h hi
  · intro hbits
    refine Nat.eq_of_testBit_eq fun i => ?_
    by_cases hi : i < n
    · rw [hbits i hi, testBit_slice h hi]
    · have hlen : (((ofBytes bytes).drop p).take n).length ≤ i := by
        rw [List.length_take]
        omega
      rw [testBit_value_of_le hlen]
      exact Nat.testBit_lt_two_pow (Nat.lt_of_lt_of_le hv (Nat.pow_le_pow_right Nat.two_pos
        (Nat.not_lt.1 hi)))

/-- The bits of a byte are the byte. -/
theorem value_bits (x : UInt8) : value (Byte.bits x) = x.toNat := by
  refine Nat.eq_of_testBit_eq fun i => ?_
  by_cases hi : i < 8
  · have hback : 7 - (8 - 1 - i) = i := by omega
    rw [testBit_value (by rwa [Byte.length_bits]), Byte.length_bits, List.getD_eq_getElem?_getD,
      Byte.getElem?_bits (by omega), Option.getD_some, hback, Byte.bit_eq_testBit]
  · have hle : 8 ≤ i := Nat.not_lt.1 hi
    rw [testBit_value_of_le (by rwa [Byte.length_bits])]
    exact (Nat.testBit_lt_two_pow (Nat.lt_of_lt_of_le x.toNat_lt
      (Nat.pow_le_pow_right Nat.two_pos hle))).symm

end BitString
