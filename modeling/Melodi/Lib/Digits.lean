import Mathlib

/-!
# Repacking digits

`ofDigitsBE` is the number a list of digits writes, the most significant first; digits below the base are determined by
their number and the number of digits (`ofDigitsBE_inj`).

An accumulator repacks digits of one power of two into digits of another: they go in at the low end, and come out above
the `bits` that are left. `Packed v w acc bits` says that the digits that went in write `v`, those that came out write
`w`, and the rest is in the accumulator. `Packed.push` and `Packed.pop` are the two moves.
-/

namespace Melodi.Lib

def ofDigitsBE (base : Nat) (v : Nat) (digits : List Nat) : Nat := digits.foldl (fun v d => v * base + d) v

@[simp] theorem ofDigitsBE_concat (base v : Nat) (digits : List Nat) (d : Nat) :
    ofDigitsBE base v (digits ++ [d]) = ofDigitsBE base v digits * base + d := by
  simp [ofDigitsBE]

theorem ofDigitsBE_inj {base v v' : Nat} {ds ds' : List Nat} (hlength : ds.length = ds'.length)
    (hds : ∀ d ∈ ds, d < base)
    (hds' : ∀ d ∈ ds', d < base) (h : ofDigitsBE base v ds = ofDigitsBE base v' ds') : v = v' ∧ ds = ds' := by
  induction ds generalizing v v' ds' with
  | nil =>
    obtain rfl := List.eq_nil_of_length_eq_zero hlength.symm
    exact ⟨h, rfl⟩
  | cons d ds ih =>
    cases ds' with
    | nil => simp at hlength
    | cons d' ds' =>
      have hrest : ofDigitsBE base (v * base + d) ds = ofDigitsBE base (v' * base + d') ds' := h
      obtain ⟨hstep, rfl⟩ :=
        ih (by simpa using hlength) (fun e he => hds e (by simp [he])) (fun e he => hds' e (by simp [he]))
        hrest
      have hd := hds d (by simp)
      have hd' := hds' d' (by simp)
      obtain ⟨rfl, rfl⟩ : v = v' ∧ d = d' := by
        have hdiv := congrArg (· / base) hstep
        have hmod := congrArg (· % base) hstep
        simpa [Nat.mul_comm _ base, Nat.mul_add_mod, Nat.mod_eq_of_lt, Nat.mul_add_div (Nat.zero_lt_of_lt hd),
          Nat.div_eq_of_lt, hd, hd'] using And.intro hdiv hmod
      exact ⟨rfl, rfl⟩

def Packed (v w acc bits : Nat) : Prop := v = w * 2 ^ bits + acc % 2 ^ bits

theorem Packed.push {v w acc bits k d width : Nat} (h : Packed v w acc bits) (hd : d < 2 ^ k)
    (hwidth : bits + k ≤ width) : Packed (v * 2 ^ k + d) w ((acc <<< k ||| d) % 2 ^ width) (bits + k) := by
  have hmod : (acc <<< k ||| d) % 2 ^ width % 2 ^ (bits + k) = acc % 2 ^ bits * 2 ^ k + d := by
    rw [Nat.mod_mod_of_dvd _ (Nat.pow_dvd_pow 2 hwidth), ← Nat.shiftLeft_add_eq_or_of_lt hd, Nat.shiftLeft_eq, pow_add,
      Nat.mul_comm (2 ^ bits), Nat.mod_mul, Nat.mul_comm acc, Nat.mul_add_mod, Nat.mod_eq_of_lt hd,
      Nat.mul_add_div (Nat.two_pow_pos k), Nat.div_eq_of_lt hd, Nat.add_zero]
    ring
  unfold Packed at *
  rw [hmod, h, pow_add]
  ring

theorem Packed.pop {v w acc n k : Nat} (h : Packed v w acc (n + k)) :
    Packed v (w * 2 ^ k + (acc >>> n) % 2 ^ k) acc n := by
  unfold Packed at *
  rw [h, pow_add, Nat.mod_mul, Nat.shiftRight_eq_div_pow]
  ring

end Melodi.Lib
