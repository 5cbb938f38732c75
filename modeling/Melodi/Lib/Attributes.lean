import Melodi.Lib.Bytes

/-!
# Streams of attributes

An attribute is its length (of header and value) and its type in the byte order of the host, then its value, then zero
octets up to a multiple of four.

* `ByteOrder` : the words of a host, written and read back (`get16_put16`, `get32_put32`);
* `putAttribute`, `splitAttribute` : one attribute written, and the first of a stream read (`splitAttribute_put`);
* `attributeStream` : attributes one after another;
* `foldAttributes` : a loop over a stream, which ends with an error at octets that are no attribute.
-/

namespace Melodi.Lib
variable {bs value : List UInt8} {items : List (UInt16 × List UInt8)}

/-! ## Words of a host -/

inductive ByteOrder where
  | little
  | big
  deriving DecidableEq, Repr

namespace ByteOrder

def arrange : ByteOrder → List UInt8 → List UInt8
  | little, bs => bs.reverse
  | big, bs => bs

def put16 (o : ByteOrder) (v : UInt16) : List UInt8 := o.arrange (Lib.put16 v)

def put32 (o : ByteOrder) (v : UInt32) : List UInt8 := o.arrange (Lib.put32 v)

def put64 (o : ByteOrder) (v : UInt64) : List UInt8 := o.arrange (Lib.put64 v)

def get16 (o : ByteOrder) (bs : List UInt8) : UInt16 := Lib.get16 (o.arrange (bs.take 2))

def get32 (o : ByteOrder) (bs : List UInt8) : UInt32 := Lib.get32 (o.arrange (bs.take 4))

@[simp] theorem length_arrange (o : ByteOrder) (bs : List UInt8) : (o.arrange bs).length = bs.length := by
  cases o <;> simp [arrange]

theorem arrange_arrange (o : ByteOrder) (bs : List UInt8) : o.arrange (o.arrange bs) = bs := by
  cases o <;> simp [arrange]

@[simp] theorem length_put16 (o : ByteOrder) (v : UInt16) : (o.put16 v).length = 2 := by simp [put16]

@[simp] theorem length_put32 (o : ByteOrder) (v : UInt32) : (o.put32 v).length = 4 := by simp [put32]

@[simp] theorem length_put64 (o : ByteOrder) (v : UInt64) : (o.put64 v).length = 8 := by simp [put64]

@[simp] theorem get16_put16 (o : ByteOrder) (v : UInt16) (bs : List UInt8) : o.get16 (o.put16 v ++ bs) = v := by
  rw [get16, List.take_left' (length_put16 o v), put16, arrange_arrange]
  simpa using Lib.get16_put16 v []

@[simp] theorem get32_put32 (o : ByteOrder) (v : UInt32) (bs : List UInt8) : o.get32 (o.put32 v ++ bs) = v := by
  rw [get32, List.take_left' (length_put32 o v), put32, arrange_arrange]
  simpa using Lib.get32_put32 v []

end ByteOrder

/-! ## One attribute -/

def aligned (n : Nat) : Nat := (n + 3) / 4 * 4

theorem le_aligned (n : Nat) : n ≤ aligned n := by
  unfold aligned
  omega

def putAttribute (o : ByteOrder) (type : UInt16) (value : List UInt8) : List UInt8 :=
  o.put16 (UInt16.ofNat (4 + value.length)) ++ o.put16 type ++ value ++
    List.replicate (aligned (4 + value.length) - (4 + value.length)) 0

theorem length_putAttribute (o : ByteOrder) (type : UInt16) (value : List UInt8) :
    (putAttribute o type value).length = aligned (4 + value.length) := by
  have hle := le_aligned (4 + value.length)
  simp only [putAttribute, List.length_append, ByteOrder.length_put16, List.length_replicate]
  omega

/-- An attribute as it is read, with the octets between its end and the next multiple of four. -/
structure Attr where
  type : UInt16
  value : List UInt8
  padding : List UInt8
  deriving DecidableEq, Repr

def splitAttribute (o : ByteOrder) (bs : List UInt8) : Option (Attr × List UInt8) :=
  if bs.length < 4 then none
  else
    let raw := (o.get16 bs).toNat
    if raw < 4 ∨ bs.length < raw then none
    else if bs.length < aligned raw then none
    else some (⟨o.get16 (bs.drop 2), (bs.take raw).drop 4, (bs.take (aligned raw)).drop raw⟩, bs.drop (aligned raw))

theorem length_of_splitAttribute {o : ByteOrder} {rest : List UInt8} {a : Attr}
    (h : splitAttribute o bs = some (a, rest)) : rest.length + 4 ≤ bs.length := by
  simp only [splitAttribute] at h
  split_ifs at h with hshort hraw haligned
  obtain ⟨-, rfl⟩ := Prod.ext_iff.mp (Option.some.inj h)
  have hle := le_aligned (o.get16 bs).toNat
  rw [List.length_drop]
  omega

/-- **An attribute that was written is the first of the stream it begins.** -/
theorem splitAttribute_put (o : ByteOrder) (type : UInt16) (rest : List UInt8) (h : 4 + value.length < 2 ^ 16) :
    splitAttribute o (putAttribute o type value ++ rest) =
      some (⟨type, value, List.replicate (aligned (4 + value.length) - (4 + value.length)) 0⟩, rest) := by
  have hle := le_aligned (4 + value.length)
  have hlength := length_putAttribute o type value
  have hlen : (o.get16 (putAttribute o type value ++ rest)).toNat = 4 + value.length := by
    simp only [putAttribute, List.append_assoc, ByteOrder.get16_put16, UInt16.toNat_ofNat']
    exact Nat.mod_eq_of_lt h
  have htype : o.get16 ((putAttribute o type value ++ rest).drop 2) = type := by
    simp only [putAttribute, List.append_assoc]
    rw [List.drop_left' (ByteOrder.length_put16 o _), ByteOrder.get16_put16]
  have hhead : (o.put16 (UInt16.ofNat (4 + value.length)) ++ o.put16 type).length = 4 := by simp
  have htake : (putAttribute o type value ++ rest).take (4 + value.length) =
      o.put16 (UInt16.ofNat (4 + value.length)) ++ o.put16 type ++ value := by
    rw [putAttribute, List.append_assoc]
    exact List.take_left' (by rw [List.length_append, hhead])
  have hall : (putAttribute o type value ++ rest).take (aligned (4 + value.length)) = putAttribute o type value :=
    List.take_left' hlength
  unfold splitAttribute
  rw [if_neg (by rw [List.length_append]; omega)]
  dsimp only
  rw [hlen, if_neg (by rw [List.length_append]; omega), if_neg (by rw [List.length_append]; omega), htype, htake, hall,
    List.drop_left' hhead, List.drop_left' hlength]
  have hpadding : (putAttribute o type value).drop (4 + value.length) =
      List.replicate (aligned (4 + value.length) - (4 + value.length)) 0 := by
    rw [putAttribute]
    exact List.drop_left' (by rw [List.length_append, hhead])
  rw [hpadding]

/-! ## A stream -/

def attributeStream (o : ByteOrder) (items : List (UInt16 × List UInt8)) : List UInt8 :=
  items.flatMap fun a => putAttribute o a.1 a.2

theorem attributeStream_append (o : ByteOrder) (xs ys : List (UInt16 × List UInt8)) :
    attributeStream o (xs ++ ys) = attributeStream o xs ++ attributeStream o ys := List.flatMap_append

theorem length_attributeStream (o : ByteOrder) (items : List (UInt16 × List UInt8)) :
    (attributeStream o items).length = (items.map fun a => aligned (4 + a.2.length)).sum := by
  simp only [attributeStream, List.length_flatMap, length_putAttribute]

theorem length_attributeStream_mod (o : ByteOrder) (items : List (UInt16 × List UInt8)) :
    (attributeStream o items).length % 4 = 0 := by
  induction items with
  | nil => rfl
  | cons a items ih =>
    rw [length_attributeStream] at ih ⊢
    rw [List.map_cons, List.sum_cons, Nat.add_mod, ih]
    unfold aligned
    omega

theorem length_attributeStream_le (o : ByteOrder) {w : Nat} (h : ∀ a ∈ items, aligned (4 + a.2.length) ≤ w) :
    (attributeStream o items).length ≤ items.length * w := by
  have hsum := List.sum_le_card_nsmul (items.map fun a => aligned (4 + a.2.length)) w fun n hn => by
    obtain ⟨a, ha, rfl⟩ := List.mem_map.mp hn
    exact h a ha
  rwa [List.length_map, smul_eq_mul, ← length_attributeStream o] at hsum

/-! ## A loop over a stream -/

section
variable {σ ε : Type} (o : ByteOrder) (bad : ε) (body : σ → Attr → Except ε σ)

def foldAttributesUpTo : Nat → List UInt8 → σ → Except ε σ
  | 0, _, s => .ok s
  | n + 1, bs, s =>
    if bs = [] then .ok s
    else
      match splitAttribute o bs with
      | none => .error bad
      | some (a, rest) =>
        match body s a with
        | .error e => .error e
        | .ok s' => foldAttributesUpTo n rest s'

def foldAttributes (bs : List UInt8) (s : σ) : Except ε σ := foldAttributesUpTo o bad body bs.length bs s

theorem foldAttributesUpTo_eq {n : Nat} (h : bs.length ≤ n) (s : σ) :
    foldAttributesUpTo o bad body n bs s = foldAttributes o bad body bs s := by
  induction n using Nat.strongRecOn generalizing bs s with
  | _ n ih =>
    match n, bs with
    | 0, bs =>
      obtain rfl : bs = [] := List.length_eq_zero_iff.mp (by omega)
      rfl
    | n + 1, [] => rfl
    | n + 1, b :: bs =>
      simp only [foldAttributes, List.length_cons, foldAttributesUpTo, reduceCtorEq, if_false]
      cases hsplit : splitAttribute o (b :: bs) with
      | none => rfl
      | some r =>
        obtain ⟨a, rest⟩ := r
        have hshorter := length_of_splitAttribute hsplit
        rw [List.length_cons] at hshorter h
        dsimp only
        cases body s a with
        | error e => rfl
        | ok s' => exact (ih n (by omega) (by omega) s').trans (ih bs.length (by omega) (by omega) s').symm

@[simp] theorem foldAttributes_nil (s : σ) : foldAttributes o bad body [] s = .ok s := rfl

theorem foldAttributes_put (type : UInt16) (rest : List UInt8) (s : σ) (h : 4 + value.length < 2 ^ 16) :
    foldAttributes o bad body (putAttribute o type value ++ rest) s =
      body s ⟨type, value, List.replicate (aligned (4 + value.length) - (4 + value.length)) 0⟩ >>=
        foldAttributes o bad body rest := by
  have hlength := length_putAttribute o type value
  have hle := le_aligned (4 + value.length)
  have hne : putAttribute o type value ++ rest ≠ [] := by
    intro hnil
    have := congrArg List.length hnil
    rw [List.length_append, List.length_nil] at this
    omega
  obtain ⟨n, hn⟩ : ∃ n, (putAttribute o type value ++ rest).length = n + 1 :=
    ⟨_, (Nat.succ_pred (by rw [List.length_append]; omega)).symm⟩
  rw [foldAttributes, hn, foldAttributesUpTo, if_neg hne, splitAttribute_put o type rest h]
  rw [List.length_append] at hn
  dsimp only
  cases body s ⟨type, value, _⟩ with
  | error e => rfl
  | ok s' => exact foldAttributesUpTo_eq o bad body (by omega) s'

/-- **Over attributes that were written the loop is a fold over their list.** -/
theorem foldAttributes_stream (h : ∀ a ∈ items, 4 + a.2.length < 2 ^ 16) (s : σ) :
    foldAttributes o bad body (attributeStream o items) s =
      items.foldlM (fun s a =>
        body s ⟨a.1, a.2, List.replicate (aligned (4 + a.2.length) - (4 + a.2.length)) 0⟩) s := by
  induction items generalizing s with
  | nil => rfl
  | cons a items ih =>
    rw [attributeStream, List.flatMap_cons, foldAttributes_put o bad body a.1 _ s (h a List.mem_cons_self),
      List.foldlM_cons]
    exact congrArg (_ >>= ·) (funext fun s' => ih (fun b hb => h b (List.mem_cons_of_mem _ hb)) s')

end

end Melodi.Lib
