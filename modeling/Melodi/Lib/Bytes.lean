import Mathlib

/-!
# Big-endian fields

`put16`, `put32`, `put64` write a machine word as octets, the most significant first; `get16`, `get32`, `get64` read one
back from the front of a byte string. `splice xs n ys` writes `ys` over `xs` from position `n` on. The bits of a bitmap
that names the first numbers, or one number, are the last section.
-/

namespace Melodi.Lib
variable {n w : Nat}

def octet (v k : Nat) : UInt8 := UInt8.ofNat (v / 256 ^ k)

def put16 (v : UInt16) : List UInt8 := [octet v.toNat 1, octet v.toNat 0]

def put32 (v : UInt32) : List UInt8 := [octet v.toNat 3, octet v.toNat 2, octet v.toNat 1, octet v.toNat 0]

def put64 (v : UInt64) : List UInt8 :=
  [octet v.toNat 7, octet v.toNat 6, octet v.toNat 5, octet v.toNat 4,
    octet v.toNat 3, octet v.toNat 2, octet v.toNat 1, octet v.toNat 0]

def beNat (bs : List UInt8) : Nat → Nat
  | 0 => 0
  | w + 1 => beNat bs w * 256 + (bs.getD w 0).toNat

def get16 (bs : List UInt8) : UInt16 := UInt16.ofNat (beNat bs 2)

def get32 (bs : List UInt8) : UInt32 := UInt32.ofNat (beNat bs 4)

def get64 (bs : List UInt8) : UInt64 := UInt64.ofNat (beNat bs 8)

@[simp] theorem length_put16 (v : UInt16) : (put16 v).length = 2 := rfl

@[simp] theorem length_put32 (v : UInt32) : (put32 v).length = 4 := rfl

@[simp] theorem length_put64 (v : UInt64) : (put64 v).length = 8 := rfl

theorem toNat_octet (v k : Nat) : (octet v k).toNat = v / 256 ^ k % 256 := by simp [octet]

@[simp] theorem get16_put16 (v : UInt16) (bs : List UInt8) : get16 (put16 v ++ bs) = v := by
  have h := v.toNat_lt
  apply UInt16.toNat_inj.mp
  simp only [get16, beNat, put16, List.cons_append, List.nil_append, List.getD_cons_zero, List.getD_cons_succ,
    toNat_octet, UInt16.toNat_ofNat']
  norm_num
  omega

@[simp] theorem get32_put32 (v : UInt32) (bs : List UInt8) : get32 (put32 v ++ bs) = v := by
  have h := v.toNat_lt
  apply UInt32.toNat_inj.mp
  simp only [get32, beNat, put32, List.cons_append, List.nil_append, List.getD_cons_zero, List.getD_cons_succ,
    toNat_octet, UInt32.toNat_ofNat']
  norm_num
  omega

@[simp] theorem get64_put64 (v : UInt64) (bs : List UInt8) : get64 (put64 v ++ bs) = v := by
  have h := v.toNat_lt
  apply UInt64.toNat_inj.mp
  simp only [get64, beNat, put64, List.cons_append, List.nil_append, List.getD_cons_zero, List.getD_cons_succ,
    toNat_octet, UInt64.toNat_ofNat']
  norm_num
  omega

/-! ## Writing into a buffer -/

section
variable {α : Type}

def splice (xs : List α) (n : Nat) (ys : List α) : List α := xs.take n ++ ys ++ xs.drop (n + ys.length)

theorem length_splice {xs ys : List α} (h : n + ys.length ≤ xs.length) : (splice xs n ys).length = xs.length := by
  simp only [splice, List.length_append, List.length_take, List.length_drop]
  omega

theorem take_splice {xs ys : List α} (h : n ≤ xs.length) : (splice xs n ys).take (n + ys.length) = xs.take n ++ ys := by
  rw [splice]
  exact List.take_left' (by rw [List.length_append, List.length_take]; omega)

theorem splice_append (xs : List α) {ys zs : List α} (rest : List α) (h : ys.length = zs.length) :
    splice (xs ++ (ys ++ rest)) xs.length zs = xs ++ (zs ++ rest) := by
  rw [splice, List.take_left' rfl, ← List.append_assoc xs,
    List.drop_left' (by rw [List.length_append, h]), List.append_assoc]

theorem getElem?_splice {xs ys : List α} (h : n + ys.length ≤ xs.length) (k : Nat) :
    (splice xs n ys)[k]? = if n ≤ k ∧ k < n + ys.length then ys[k - n]? else xs[k]? := by
  have htake : (xs.take n).length = n := by
    rw [List.length_take]
    omega
  unfold splice
  by_cases hbefore : k < n
  · rw [if_neg (by omega), List.getElem?_append_left (by simp; omega), List.getElem?_append_left (by omega),
      List.getElem?_take_of_lt hbefore]
  by_cases hinside : k < n + ys.length
  · rw [if_pos
      ⟨by omega, hinside⟩, List.getElem?_append_left (by simp; omega), List.getElem?_append_right (by omega), htake]
  rw [if_neg (by omega), List.getElem?_append_right (by simp; omega), List.getElem?_drop]
  congr 1
  simp only [List.length_append, htake]
  omega

end

/-! ## Bitmaps -/

theorem getLsbD_lowBits (h : n < w) (j : Nat) : ((1#w <<< n) - 1).getLsbD j = decide (j < n) := by
  have hpow : 2 ^ n < 2 ^ w := Nat.pow_lt_pow_right (by decide) h
  have hone : (1#w).toNat = 1 := by
    rw [BitVec.toNat_ofNat]
    exact Nat.mod_eq_of_lt (Nat.one_lt_two_pow (by omega))
  have hshift : (1#w <<< n).toNat = 2 ^ n := by
    rw [BitVec.toNat_shiftLeft, Nat.shiftLeft_eq, hone, Nat.one_mul, Nat.mod_eq_of_lt hpow]
  have hnat : ((1#w <<< n) - 1).toNat = 2 ^ n - 1 := by
    rw [BitVec.toNat_sub_of_le, hshift]
    · exact congrArg (2 ^ n - ·) hone
    · rw [BitVec.le_def, hshift]
      exact hone.le.trans Nat.one_le_two_pow
  rw [← BitVec.testBit_toNat, hnat, Nat.testBit_two_pow_sub_one]

theorem getLsbD_oneBit (h : n < w) (j : Nat) : (1#w <<< n).getLsbD j = decide (j = n) := by
  simp only [BitVec.getLsbD_shiftLeft, BitVec.getLsbD_one]
  grind

end Melodi.Lib
