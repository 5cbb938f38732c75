import Mathlib

/-!
# Fixed arrays of slots

A `Table n α` is an array of `n` slots, each free or holding one record: a C array of records with an `active` flag,
where an inactive record is always the zeroed one.

* `find?`, `free?`, `set`, `clear`; `drop` frees every slot whose record passes a test;
* `foldl_finRange` : what a loop over all slots leaves, when each step rewrites its own slot;
* `Keyed` : no two records have one key, so that a search by key finds the record (`Keyed.find?_bind`);
* `sum` : the total of a weight over the held records, with one equation for each write.
-/

namespace Melodi.Lib

/-- A table of `n` slots, each free or with a record. -/
abbrev Table (n : Nat) (α : Type) := Fin n → Option α

namespace Table
variable {n : Nat} {α : Type}
variable {i j k : Fin n} {t t' : Table n α} {a b : α} {p : α → Bool} {σ : Type} {f : α → Nat} {step : σ → Fin n → σ}

def empty : Table n α := fun _ => none

def set (t : Table n α) (i : Fin n) (a : α) : Table n α := Function.update t i (some a)

def clear (t : Table n α) (i : Fin n) : Table n α := Function.update t i none

def drop (t : Table n α) (p : α → Bool) : Table n α := fun i => (t i).filter (fun a => !p a)

def find? (t : Table n α) (p : α → Bool) : Option (Fin n) := (List.finRange n).find? fun i => (t i).any p

def free? (t : Table n α) : Option (Fin n) := (List.finRange n).find? fun i => (t i).isNone

def weight (f : α → Nat) (o : Option α) : Nat := o.elim 0 f

def sum (t : Table n α) (f : α → Nat) : Nat := ∑ i, weight f (t i)

def Any (t : Table n α) (p : α → Prop) : Prop := ∃ i a, t i = some a ∧ p a

/-! ## Reading a written slot -/

@[simp] theorem empty_apply (i : Fin n) : (empty : Table n α) i = none := rfl

@[simp] theorem set_self (t : Table n α) (i : Fin n) (a : α) : t.set i a i = some a := by simp [set]

theorem set_of_ne (t : Table n α) (a : α) (h : j ≠ i) : t.set i a j = t j := by simp [set, h]

theorem set_apply (t : Table n α) (i j : Fin n) (a : α) : t.set i a j = if j = i then some a else t j := by
  by_cases h : j = i
  · subst h; simp
  · rw [set_of_ne t a h, if_neg h]

theorem set_set (t : Table n α) (i : Fin n) (a b : α) : (t.set i a).set i b = t.set i b := by
  simp [set, Function.update_idem]

theorem clear_set (t : Table n α) (i : Fin n) (a : α) : (t.set i a).clear i = t.clear i := by
  simp [set, clear, Function.update_idem]

@[simp] theorem clear_self (t : Table n α) (i : Fin n) : t.clear i i = none := by simp [clear]

theorem clear_of_ne (t : Table n α) (h : j ≠ i) : t.clear i j = t j := by simp [clear, h]

theorem clear_apply (t : Table n α) (i j : Fin n) : t.clear i j = if j = i then none else t j := by
  by_cases h : j = i
  · subst h; simp
  · rw [clear_of_ne t h, if_neg h]

theorem clear_eq_some : t.clear i j = some a ↔ j ≠ i ∧ t j = some a := by
  rw [clear_apply]
  by_cases h : j = i <;> simp [h]

theorem set_eq_some : t.set i b j = some a ↔ j = i ∧ a = b ∨ j ≠ i ∧ t j = some a := by
  rw [set_apply]
  by_cases h : j = i <;> simp [h, eq_comm]

theorem drop_eq_some : t.drop p i = some a ↔ t i = some a ∧ p a = false := by
  simp only [drop, Option.filter_eq_some_iff, Bool.not_eq_true']

/-! ## Searching -/

theorem find?_some (h : t.find? p = some i) : ∃ a, t i = some a ∧ p a = true := by
  have := List.find?_some h
  simpa [Option.any_eq_true] using this

theorem find?_none (h : t.find? p = none) (ha : t i = some a) : p a = false := by
  have := List.find?_eq_none.mp h i (List.mem_finRange i)
  simpa [ha] using this

theorem find?_eq_none_iff : t.find? p = none ↔ ∀ i a, t i = some a → p a = false := by
  refine ⟨fun h i a ha => find?_none h ha, fun h => ?_⟩
  rw [find?, List.find?_eq_none]
  intro i _
  cases ha : t i with
  | none => simp
  | some a => simpa using h i a ha

theorem find?_isSome_iff : (t.find? p).isSome = true ↔ ∃ i a, t i = some a ∧ p a = true := by
  rw [Option.isSome_iff_ne_none, ne_eq, find?_eq_none_iff]
  simp only [not_forall, Bool.not_eq_false, exists_prop]

theorem find?_set (ha : t i = some a) (hp : p b = p a) : (t.set i b).find? p = t.find? p := by
  unfold find?
  congr 1
  funext j
  by_cases hj : j = i
  · subst hj
    simp [ha, hp]
  · rw [set_of_ne t b hj]

theorem find?_bind_set_of_false (hb : p b = false) (ht : ∀ a, t i = some a → p a = false) :
    ((t.set i b).find? p).bind (t.set i b) = (t.find? p).bind t := by
  have hsearch : (t.set i b).find? p = t.find? p := by
    unfold find?
    congr 1
    funext j
    by_cases hj : j = i
    · subst hj
      cases ha : t j with
      | none => simp [hb]
      | some a => simp [hb, ht a ha]
    · rw [set_of_ne t b hj]
  rw [hsearch]
  cases hj : t.find? p with
  | none => rfl
  | some j =>
    obtain ⟨a, ha, hp⟩ := find?_some hj
    have hne : j ≠ i := by
      rintro rfl
      rw [ht a ha] at hp
      cases hp
    exact set_of_ne t b hne

theorem find?_eq_some_of_unique (ha : t i = some a) (hp : p a = true)
    (huniq : ∀ j b, t j = some b → p b = true → j = i) : t.find? p = some i := by
  cases h : t.find? p with
  | none => exact absurd (find?_none h ha) (by simp [hp])
  | some j =>
    obtain ⟨b, hb, hpb⟩ := find?_some h
    rw [huniq j b hb hpb]

theorem free?_some (h : t.free? = some i) : t i = none := by
  have := List.find?_some h
  simpa using this

theorem free?_none (h : t.free? = none) (i : Fin n) : ∃ a, t i = some a := by
  have := List.find?_eq_none.mp h i (List.mem_finRange i)
  exact Option.isSome_iff_exists.mp (by simpa [Option.isSome_iff_ne_none] using this)

theorem find?_or_free?_some (h : (t.find? p).or t.free? = some k) (ha : t k = some a) : p a = true := by
  cases hf : t.find? p with
  | some i =>
    rw [hf] at h
    cases h
    obtain ⟨b, hb, hp⟩ := find?_some hf
    rw [ha, Option.some.injEq] at hb
    exact hb ▸ hp
  | none =>
    rw [hf] at h
    rw [free?_some h] at ha
    cases ha

/-! ## Loops over the slots -/

theorem foldl_apply {get : σ → Table n α} {f : Fin n → Option α → Option α}
    (h : ∀ s i j, get (step s i) j = if j = i then f i (get s i) else get s j) {is : List (Fin n)} (his : is.Nodup)
    (s : σ) (j : Fin n) : get (is.foldl step s) j = if j ∈ is then f j (get s j) else get s j := by
  induction is generalizing s with
  | nil => simp
  | cons i is ih =>
    obtain ⟨hi, his⟩ := List.nodup_cons.mp his
    rw [List.foldl_cons, ih his, h]
    by_cases hj : j = i
    · subst hj
      simp [hi]
    · simp [hj]

theorem foldl_finRange (get : σ → Table n α) {f : Fin n → Option α → Option α}
    (h : ∀ s i j, get (step s i) j = if j = i then f i (get s i) else get s j) (s : σ) (j : Fin n) :
    get ((List.finRange n).foldl step s) j = f j (get s j) := by
  rw [foldl_apply h (List.nodup_finRange n), if_pos (List.mem_finRange j)]

/-! ## Tables with one record for each key -/

section Keyed
variable {κ : Type}

def Keyed (t : Table n α) (key : α → κ) : Prop := ∀ i j a b, t i = some a → t j = some b → key a = key b → i = j

theorem keyed_empty (key : α → κ) : (empty : Table n α).Keyed key := fun _ _ _ _ h => nomatch h

theorem Keyed.clear {key : α → κ} (h : t.Keyed key) (i : Fin n) : (t.clear i).Keyed key :=
  fun j k a b ha hb => h j k a b (clear_eq_some.mp ha).2 (clear_eq_some.mp hb).2

theorem Keyed.set_of {key : α → κ} (h : t.Keyed key) (hkey : ∀ j a, t j = some a → key a = key b → j = i) :
    (t.set i b).Keyed key := by
  intro j k a c ha hc hac
  rcases set_eq_some.mp ha with ⟨rfl, rfl⟩ | ⟨-, hold⟩
  · rcases set_eq_some.mp hc with ⟨rfl, -⟩ | ⟨-, hold⟩
    · rfl
    · exact (hkey k c hold hac.symm).symm
  rcases set_eq_some.mp hc with ⟨rfl, rfl⟩ | ⟨-, hold'⟩
  · exact hkey j a hold hac
  · exact h j k a c hold hold' hac

theorem Keyed.set [DecidableEq κ] {key : α → κ} (h : t.Keyed key)
    (hi : (t.find? fun a => key a = key b).or t.free? = some i) : (t.set i b).Keyed key := by
  refine h.set_of fun j a ha hab => ?_
  rcases Option.or_eq_some_iff.mp hi with hf | ⟨hf, -⟩
  · obtain ⟨c, hc, hcb⟩ := find?_some hf
    exact h j i a c ha hc (hab.trans (of_decide_eq_true hcb).symm)
  · exact absurd (find?_none hf ha) (by simp [hab])

theorem Keyed.find?_bind [DecidableEq κ] {key : α → κ} (h : t.Keyed key) {k : κ} :
    (t.find? fun a => key a = k).bind t = some a ↔ ∃ i, t i = some a ∧ key a = k := by
  constructor
  · intro hf
    obtain ⟨i, hi, ha⟩ := Option.bind_eq_some_iff.mp hf
    obtain ⟨b, hb, hkb⟩ := find?_some hi
    rw [ha, Option.some.injEq] at hb
    exact ⟨i, ha, hb ▸ of_decide_eq_true hkb⟩
  · rintro ⟨i, ha, rfl⟩
    rw [find?_eq_some_of_unique ha (decide_eq_true rfl) fun j b hb hkb => h j i b a hb ha (of_decide_eq_true hkb)]
    exact ha

end Keyed

/-! ## Sums -/

@[simp] theorem weight_none (f : α → Nat) : weight f none = 0 := rfl

@[simp] theorem weight_some (f : α → Nat) (a : α) : weight f (some a) = f a := rfl

@[simp] theorem sum_empty (f : α → Nat) : (empty : Table n α).sum f = 0 := by simp [sum]

theorem sum_update (t : Table n α) (i : Fin n) (o : Option α) (f : α → Nat) :
    sum (Function.update t i o) f + weight f (t i) = t.sum f + weight f o := by
  have h₁ : sum (Function.update t i o) f = weight f o + ∑ j ∈ Finset.univ.erase i, weight f (t j) := by
    rw [sum, ← Finset.add_sum_erase _ _ (Finset.mem_univ i), Function.update_self]
    congr 1
    refine Finset.sum_congr rfl fun j hj => ?_
    rw [Function.update_of_ne (Finset.ne_of_mem_erase hj)]
  have h₂ : t.sum f = weight f (t i) + ∑ j ∈ Finset.univ.erase i, weight f (t j) := by
    rw [sum, ← Finset.add_sum_erase _ _ (Finset.mem_univ i)]
  omega

theorem sum_set (t : Table n α) (i : Fin n) (a : α) (f : α → Nat) :
    (t.set i a).sum f + weight f (t i) = t.sum f + f a := sum_update t i (some a) f

theorem sum_clear (t : Table n α) (i : Fin n) (f : α → Nat) :
    (t.clear i).sum f + weight f (t i) = t.sum f := sum_update t i none f

theorem weight_le_sum (t : Table n α) (i : Fin n) (f : α → Nat) : weight f (t i) ≤ t.sum f :=
  Finset.single_le_sum (f := fun j => weight f (t j)) (fun _ _ => Nat.zero_le _) (Finset.mem_univ i)

theorem le_sum (h : t i = some a) (f : α → Nat) : f a ≤ t.sum f := by
  simpa [h] using weight_le_sum t i f

theorem sum_le_of_weight (h : ∀ i, weight f (t' i) ≤ weight f (t i)) : t'.sum f ≤ t.sum f :=
  Finset.sum_le_sum fun i _ => h i

theorem sum_le_of_sub (h : ∀ i a, t' i = some a → t i = some a) (f : α → Nat) : t'.sum f ≤ t.sum f := by
  refine Finset.sum_le_sum fun i _ => ?_
  cases ha : t' i with
  | none => simp
  | some a => rw [h i a ha]

theorem sum_drop (t : Table n α) (p : α → Bool) (f : α → Nat) :
    (t.drop p).sum f + t.sum (fun a => if p a then f a else 0) = t.sum f := by
  unfold sum
  rw [← Finset.sum_add_distrib]
  refine Finset.sum_congr rfl fun i _ => ?_
  cases ha : t i with
  | none => simp [drop, ha]
  | some a => cases hp : p a <;> simp [drop, ha, hp, Option.filter]

theorem sum_drop_le (t : Table n α) (p : α → Bool) (f : α → Nat) : (t.drop p).sum f ≤ t.sum f := by
  have := sum_drop t p f
  omega

theorem sum_eq_zero (h : ∀ i a, t i = some a → f a = 0) : t.sum f = 0 := by
  refine Finset.sum_eq_zero fun i _ => ?_
  cases ha : t i with
  | none => rfl
  | some a => exact h i a ha

theorem sum_lt_sum (h : ∀ i, weight f (t' i) ≤ weight f (t i)) (hk : weight f (t' k) < weight f (t k)) :
    t'.sum f < t.sum f :=
  Finset.sum_lt_sum (fun i _ => h i) ⟨k, Finset.mem_univ k, hk⟩

theorem length_free_add_sum (t : Table n α) :
    ((List.finRange n).filter fun i => (t i).isNone).length + t.sum (fun _ => 1) = n := by
  have hlist : ∀ is : List (Fin n), (is.filter fun i => (t i).isNone).length +
      (is.map fun i => weight (fun _ => 1) (t i)).sum = is.length := by
    intro is
    induction is with
    | nil => rfl
    | cons i is ih => cases hi : t i <;> simp [hi] <;> omega
  rw [sum, Fin.sum_univ_def, hlist, List.length_finRange]

theorem free?_isSome_of_sum_lt (h : t.sum (fun _ => 1) < n) : t.free?.isSome = true := by
  by_contra hnone
  rw [Option.not_isSome_iff_eq_none] at hnone
  have hempty : (List.finRange n).filter (fun i => (t i).isNone) = [] := by
    refine List.filter_eq_nil_iff.mpr fun i _ => ?_
    obtain ⟨a, ha⟩ := free?_none hnone i
    simp [ha]
  have := length_free_add_sum t
  rw [hempty, List.length_nil] at this
  omega

-- comparing two records that hold tables must never unfold a sum over all slots
attribute [irreducible] sum

end Table
end Melodi.Lib
