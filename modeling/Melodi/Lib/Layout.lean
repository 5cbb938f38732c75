import Melodi.Lib.Bytes

/-!
# Layouts

A `Layout α` says how a value is laid out in a fixed number of octets: a writer, a reader, and two laws. What was
written reads back (`get_put`), and octets whose reserved ones are zero are what writing the value read from them gives
(`put_get`).

* `u8`, `u16`, `u32`, `u64`, `bytes n` : words, big-endian, and arrays of `n` octets;
* `seq` : one layout after another; `pad n` : with `n` reserved octets behind; `map` : the same octets for another type;
* `Layout.exact` : octets of exactly the size, clean, are the writing of the value read from them.
-/

namespace Melodi.Lib
variable {bs : List UInt8}

/-- A layout of the values of a type in `size` octets. `Fits` are the values that have a writing, `Clean` the octets
that are one. -/
structure Layout (α : Type) where
  size : Nat
  put : α → List UInt8
  get : List UInt8 → α
  Fits : α → Prop
  Clean : List UInt8 → Prop
  length_put : ∀ a, Fits a → (put a).length = size
  get_put : ∀ a rest, Fits a → get (put a ++ rest) = a
  clean_put : ∀ a rest, Fits a → Clean (put a ++ rest)
  fits_get : ∀ bs, size ≤ bs.length → Fits (get bs)
  put_get : ∀ bs, size ≤ bs.length → Clean bs → put (get bs) = bs.take size

/-! ## Words -/

theorem octet_of_get (a b : Nat) (x : UInt8) (h : a / 256 ^ b % 256 = x.toNat) : octet a b = x := by
  apply UInt8.toNat_inj.mp
  rw [toNat_octet, h]

theorem put16_get16 (h : 2 ≤ bs.length) : put16 (get16 bs) = bs.take 2 := by
  match bs, h with
  | a :: b :: rest, _ =>
    have ha := a.toNat_lt
    have hb := b.toNat_lt
    have hword : (get16 (a :: b :: rest)).toNat = a.toNat * 256 + b.toNat := by
      simp only [get16, beNat, List.getD_cons_zero, List.getD_cons_succ, UInt16.toNat_ofNat']
      omega
    simp only [put16, hword, List.take_succ_cons, List.take_zero]
    rw [octet_of_get _ 1 a (by norm_num; omega), octet_of_get _ 0 b (by norm_num)]

theorem put32_get32 (h : 4 ≤ bs.length) : put32 (get32 bs) = bs.take 4 := by
  match bs, h with
  | a :: b :: c :: d :: rest, _ =>
    have ha := a.toNat_lt
    have hb := b.toNat_lt
    have hc := c.toNat_lt
    have hd := d.toNat_lt
    have hword : (get32 (a :: b :: c :: d :: rest)).toNat =
        ((a.toNat * 256 + b.toNat) * 256 + c.toNat) * 256 + d.toNat := by
      simp only [get32, beNat, List.getD_cons_zero, List.getD_cons_succ, UInt32.toNat_ofNat']
      omega
    simp only [put32, hword, List.take_succ_cons, List.take_zero]
    rw [octet_of_get _ 3 a (by norm_num; omega), octet_of_get _ 2 b (by norm_num; omega),
      octet_of_get _ 1 c (by norm_num; omega), octet_of_get _ 0 d (by norm_num)]

theorem put64_get64 (h : 8 ≤ bs.length) : put64 (get64 bs) = bs.take 8 := by
  match bs, h with
  | a :: b :: c :: d :: e :: f :: g :: i :: rest, _ =>
    have ha := a.toNat_lt
    have hb := b.toNat_lt
    have hc := c.toNat_lt
    have hd := d.toNat_lt
    have he := e.toNat_lt
    have hf := f.toNat_lt
    have hg := g.toNat_lt
    have hi := i.toNat_lt
    have hword : (get64 (a :: b :: c :: d :: e :: f :: g :: i :: rest)).toNat =
        ((((((a.toNat * 256 + b.toNat) * 256 + c.toNat) * 256 + d.toNat) * 256 + e.toNat) * 256 + f.toNat) * 256 +
          g.toNat) * 256 + i.toNat := by
      simp only [get64, beNat, List.getD_cons_zero, List.getD_cons_succ, UInt64.toNat_ofNat']
      omega
    simp only [put64, hword, List.take_succ_cons, List.take_zero]
    rw [octet_of_get _ 7 a (by norm_num; omega), octet_of_get _ 6 b (by norm_num; omega),
      octet_of_get _ 5 c (by norm_num; omega), octet_of_get _ 4 d (by norm_num; omega),
      octet_of_get _ 3 e (by norm_num; omega), octet_of_get _ 2 f (by norm_num; omega),
      octet_of_get _ 1 g (by norm_num; omega), octet_of_get _ 0 i (by norm_num)]

namespace Layout

@[simps]
def u8 : Layout UInt8 where
  size := 1
  put a := [a]
  get bs := bs.getD 0 0
  Fits _ := True
  Clean _ := True
  length_put _ _ := rfl
  get_put _ _ _ := rfl
  clean_put _ _ _ := trivial
  fits_get _ _ := trivial
  put_get bs h _ := by
    match bs, h with
    | a :: rest, _ => rfl

@[simps]
def u16 : Layout UInt16 where
  size := 2
  put := put16
  get := get16
  Fits _ := True
  Clean _ := True
  length_put _ _ := rfl
  get_put a rest _ := get16_put16 a rest
  clean_put _ _ _ := trivial
  fits_get _ _ := trivial
  put_get _ h _ := put16_get16 h

@[simps]
def u32 : Layout UInt32 where
  size := 4
  put := put32
  get := get32
  Fits _ := True
  Clean _ := True
  length_put _ _ := rfl
  get_put a rest _ := get32_put32 a rest
  clean_put _ _ _ := trivial
  fits_get _ _ := trivial
  put_get _ h _ := put32_get32 h

@[simps]
def u64 : Layout UInt64 where
  size := 8
  put := put64
  get := get64
  Fits _ := True
  Clean _ := True
  length_put _ _ := rfl
  get_put a rest _ := get64_put64 a rest
  clean_put _ _ _ := trivial
  fits_get _ _ := trivial
  put_get _ h _ := put64_get64 h

@[simps]
def bytes (n : Nat) : Layout (List UInt8) where
  size := n
  put a := a
  get bs := bs.take n
  Fits a := a.length = n
  Clean _ := True
  length_put _ h := h
  get_put _ _ h := List.take_left' h
  clean_put _ _ _ := trivial
  fits_get bs h := by rw [List.length_take]; omega
  put_get _ _ _ := rfl

/-! ## Composition -/

section
variable {α β : Type}

@[simps]
def seq (f : Layout α) (g : Layout β) : Layout (α × β) where
  size := f.size + g.size
  put a := f.put a.1 ++ g.put a.2
  get bs := (f.get bs, g.get (bs.drop f.size))
  Fits a := f.Fits a.1 ∧ g.Fits a.2
  Clean bs := f.Clean bs ∧ g.Clean (bs.drop f.size)
  length_put a h := by rw [List.length_append, f.length_put _ h.1, g.length_put _ h.2]
  get_put a rest h := by
    rw [List.append_assoc, f.get_put _ _ h.1, List.drop_left' (f.length_put _ h.1), g.get_put _ _ h.2]
  clean_put a rest h := by
    rw [List.append_assoc, List.drop_left' (f.length_put _ h.1)]
    exact ⟨f.clean_put _ _ h.1, g.clean_put _ _ h.2⟩
  fits_get bs h := ⟨f.fits_get bs (by omega), g.fits_get _ (by rw [List.length_drop]; omega)⟩
  put_get bs h hclean := by
    rw [f.put_get bs (by omega) hclean.1, g.put_get _ (by rw [List.length_drop]; omega) hclean.2, List.take_add]

@[simps]
def pad (f : Layout α) (n : Nat) : Layout α where
  size := f.size + n
  put a := f.put a ++ List.replicate n 0
  get := f.get
  Fits := f.Fits
  Clean bs := f.Clean bs ∧ ∀ k < n, bs.getD (f.size + k) 0 = 0
  length_put a h := by rw [List.length_append, f.length_put a h, List.length_replicate]
  get_put a rest h := by rw [List.append_assoc, f.get_put a _ h]
  clean_put a rest h := by
    rw [List.append_assoc]
    refine ⟨f.clean_put a _ h, fun k hk => ?_⟩
    have hlength := f.length_put a h
    rw [List.getD_eq_getElem?_getD, List.getElem?_append_right (by omega), List.getElem?_append_left
      (by rw [List.length_replicate]; omega), List.getElem?_replicate, if_pos (by omega)]
    rfl
  fits_get bs h := f.fits_get bs (by omega)
  put_get bs h hclean := by
    rw [f.put_get bs (by omega) hclean.1, List.take_add]
    congr 1
    refine List.ext_getElem? fun k => ?_
    by_cases hk : k < n
    · have hzero := hclean.2 k hk
      rw [List.getD_eq_getElem?_getD, List.getElem?_eq_getElem (by omega), Option.getD_some] at hzero
      rw [List.getElem?_replicate, if_pos hk, List.getElem?_take_of_lt hk, List.getElem?_drop,
        List.getElem?_eq_getElem (by omega), hzero]
    · rw [List.getElem?_eq_none (by rw [List.length_replicate]; omega),
        List.getElem?_eq_none (by rw [List.length_take]; omega)]

@[simps]
def map (f : Layout α) (into : α → β) (out : β → α) (hinto : ∀ b, into (out b) = b) (hout : ∀ a, out (into a) = a) :
    Layout β where
  size := f.size
  put b := f.put (out b)
  get bs := into (f.get bs)
  Fits b := f.Fits (out b)
  Clean := f.Clean
  length_put b h := f.length_put _ h
  get_put b rest h := by rw [f.get_put _ _ h, hinto]
  clean_put b rest h := f.clean_put _ _ h
  fits_get bs h := by rw [hout]; exact f.fits_get bs h
  put_get bs h hclean := by rw [hout]; exact f.put_get bs h hclean

theorem exact (f : Layout α) (h : bs.length = f.size) (hclean : f.Clean bs) : f.put (f.get bs) = bs := by
  rw [f.put_get bs h.ge hclean, List.take_of_length_le h.le]

end
end Layout
end Melodi.Lib
