import Mathlib

/-!
# Choosing by turns

Two ways a scheduler chooses among what is ready.

A *cycle* assigns a class to each of `L` positions. A choice passes over the classes that are not ready and takes the
first that is; the next one starts behind it. A class that is always ready is chosen at every position of its own that
the choices reach (`choices_count`), so it gets its share of the cycle in every `L` of them (`weight_le_count`).

A *search* passes once over a list and keeps the least key it has seen, from a bound on: `search_spec`.
-/

namespace Melodi.Lib

/-! ## Cycles -/

section Cycle

variable {κ : Type} (L : Nat) (cycle : Nat → κ)

def choose (ready : κ → Bool) (start : Nat) : Option (κ × Nat) :=
  (List.range L).findSome? fun j =>
    if ready (cycle ((start + j) % L)) then some (cycle ((start + j) % L), ((start + j) % L + 1) % L) else none

def choices : Nat → List (κ → Bool) → List κ
  | _, [] => []
  | start, ready :: rest =>
    match choose L cycle ready start with
    | none => choices start rest
    | some (k, next) => k :: choices next rest

variable {L cycle}

theorem choose_some {ready : κ → Bool} {start : Nat} {k : κ} {next : Nat}
    (h : choose L cycle ready start = some (k, next)) :
    ∃ j, k = cycle ((start + j) % L) ∧ ready k = true ∧ next = (start + (j + 1)) % L ∧
      ∀ i < j, ready (cycle ((start + i) % L)) = false := by
  obtain ⟨passed, j, rest, hsplit, hj, hpassed⟩ := List.findSome?_eq_some_iff.mp h
  rw [List.range_eq_range', List.range'_eq_append_iff] at hsplit
  obtain ⟨n, -, rfl, hrest⟩ := hsplit
  obtain ⟨rfl, -, -⟩ := List.range'_eq_cons_iff.mp hrest.symm
  rw [Nat.zero_add, Nat.mul_one] at hj
  split_ifs at hj with hready
  obtain ⟨rfl, rfl⟩ := Prod.mk.inj (Option.some.inj hj)
  refine ⟨n, rfl, hready, by rw [Nat.mod_add_mod, Nat.add_assoc], fun i hi => ?_⟩
  have hnone := hpassed i (by simp [hi])
  rw [ite_eq_right_iff] at hnone
  exact Bool.eq_false_iff.mpr fun hr => nomatch hnone hr

theorem choose_isSome {ready : κ → Bool} {j : Nat} (hj : j < L) (hready : ready (cycle j) = true) (start : Nat) :
    (choose L cycle ready start).isSome = true := by
  have hstart : start % L < L := Nat.mod_lt _ (by omega)
  have hdiv := Nat.div_add_mod start L
  have hposition : (start + (j + (L - start % L)) % L) % L = j := by
    rw [Nat.add_mod_mod, show start + (j + (L - start % L)) = j + L * (start / L) + L by omega, Nat.add_mod_right,
      Nat.add_mul_mod_self_left, Nat.mod_eq_of_lt hj]
  refine List.findSome?_isSome_iff.mpr ⟨_, List.mem_range.mpr (Nat.mod_lt (j + (L - start % L)) (by omega)), ?_⟩
  rw [hposition, if_pos hready]
  rfl

variable [DecidableEq κ]

def visits (L : Nat) (cycle : Nat → κ) (k : κ) (start n : Nat) : Nat :=
  Nat.count (fun j => cycle ((start + j) % L) = k) n

/-- **A class that is ready whenever some class is, is chosen at each of its positions that the choices reach.** -/
theorem choices_count {k : κ} (readies : List (κ → Bool)) (start : Nat)
    (hready : ∀ ready ∈ readies, (∃ j, ready (cycle j) = true) → ready k = true) :
    ∃ n, (choices L cycle start readies).length ≤ n ∧ (choices L cycle start readies).count k =
    visits L cycle k start n := by
  induction readies generalizing start with
  | nil => exact ⟨0, le_refl 0, rfl⟩
  | cons ready rest ih =>
    have hrest := fun r hr => hready r (List.mem_cons_of_mem _ hr)
    rw [choices]
    cases hc : choose L cycle ready start with
    | none => exact ih start hrest
    | some choice =>
      obtain ⟨chosen, next⟩ := choice
      obtain ⟨n, hn, hcount⟩ := ih next hrest
      obtain ⟨j, hchosen, hchosenReady, hnext, hpassed⟩ := choose_some hc
      have hk : ready k = true := hready ready List.mem_cons_self ⟨_, hchosen ▸ hchosenReady⟩
      refine ⟨j + 1 + n, by rw [List.length_cons]; omega, ?_⟩
      -- the positions passed over are not of class `k`, which is ready
      have hbefore : Nat.count (fun i => cycle ((start + i) % L) = k) j = 0 := by
        refine Nat.count_of_forall_not fun i hi heq => ?_
        have := hpassed i hi
        rw [heq, hk] at this
        cases this
      have hafter : (fun i => cycle ((start + (j + 1 + i)) % L) = k) = fun i => cycle ((next + i) % L) = k := by
        funext i
        rw [hnext, Nat.mod_add_mod, Nat.add_assoc start]
      have hlast : (if cycle ((start + j) % L) = k then 1 else 0) = if chosen == k then 1 else 0 := by
        simp [hchosen]
      simp only [visits] at hcount ⊢
      rw [Nat.count_add, Nat.count_succ, hbefore, hlast, List.count_cons, hcount, Nat.zero_add, Nat.add_comm]
      simp only [hafter]

theorem visits_cycle (k : κ) (start : Nat) : visits L cycle k start L = Nat.count (fun j => cycle j = k) L := by
  have hperiod : Nat.count (fun j => cycle ((L + j) % L) = k) start = Nat.count (fun j => cycle (j % L) = k) start := by
    simp only [Nat.add_mod_left]
  have hsplit := Nat.count_add (fun j => cycle (j % L) = k) start L
  rw [Nat.add_comm start L, Nat.count_add, hperiod, Nat.add_comm, Nat.add_left_cancel_iff] at hsplit
  rw [visits, ← hsplit]
  have hmod : ∀ n ≤ L, Nat.count (fun j => cycle (j % L) = k) n = Nat.count (fun j => cycle j = k) n := by
    intro n hn
    induction n with
    | zero => rfl
    | succ n ih => rw [Nat.count_succ, Nat.count_succ, ih (by omega), Nat.mod_eq_of_lt hn]
  exact hmod L (le_refl L)

/-- **A class that is ready whenever some class is gets its share of the cycle in any `L` choices.** -/
theorem weight_le_count {k : κ} {readies : List (κ → Bool)} {start : Nat}
    (hready : ∀ ready ∈ readies, (∃ j, ready (cycle j) = true) → ready k = true)
    (hlen : L ≤ (choices L cycle start readies).length) :
    Nat.count (fun j => cycle j = k) L ≤ (choices L cycle start readies).count k := by
  obtain ⟨n, hn, hcount⟩ := choices_count readies start hready
  rw [hcount, ← visits_cycle k start]
  exact Nat.count_monotone _ (hlen.trans hn)

end Cycle

/-! ## Searches -/

section Search

variable {α β K : Type} [LinearOrder K] (key : α → Option (K × β))

def searchStep (best : K × Option β) (a : α) : K × Option β :=
  match key a with
  | none => best
  | some (k, b) => if k < best.1 then (k, some b) else best

def search (bound : K) (as : List α) : K × Option β := as.foldl (searchStep key) (bound, none)

theorem search_concat (bound : K) (as : List α) (a : α) :
    search key bound (as ++ [a]) = searchStep key (search key bound as) a := by
  rw [search, List.foldl_append]
  rfl

theorem search_spec (bound : K) (as : List α) :
    (search key bound as).1 ≤ bound ∧ (∀ a ∈ as, ∀ k b, key a = some (k, b) → (search key bound as).1 ≤ k) ∧
      (search key bound as = (bound, none) ∨
        ∃ a ∈ as, ∃ b, key a = some ((search key bound as).1, b) ∧ (search key bound as).2 = some b) := by
  induction as using List.reverseRecOn with
  | nil => exact ⟨le_refl _, fun _ h => (List.not_mem_nil h).elim, .inl rfl⟩
  | append_singleton as a ih =>
    obtain ⟨hbound, hleast, hfound⟩ := ih
    have hmem : ∀ {a'}, a' ∈ as → a' ∈ as ++ [a] := fun h => List.mem_append_left _ h
    rw [search_concat, searchStep]
    cases hk : key a with
    | none =>
      refine ⟨hbound, fun a' ha' k b h => ?_, hfound.imp_right fun ⟨a', ha', hb⟩ => ⟨a', hmem ha', hb⟩⟩
      rcases List.mem_append.mp ha' with ha' | ha'
      · exact hleast a' ha' k b h
      · rw [List.mem_singleton.mp ha', hk] at h
        cases h
    | some kb =>
      obtain ⟨k₀, b₀⟩ := kb
      dsimp only
      split_ifs with hlt
      · refine ⟨hlt.le.trans hbound, fun a' ha' k b h => ?_, .inr ⟨a, by simp, b₀, hk, rfl⟩⟩
        rcases List.mem_append.mp ha' with ha' | ha'
        · exact hlt.le.trans (hleast a' ha' k b h)
        · rw [List.mem_singleton.mp ha', hk] at h
          cases h
          exact le_refl _
      · refine ⟨hbound, fun a' ha' k b h => ?_, hfound.imp_right fun ⟨a', ha', hb⟩ => ⟨a', hmem ha', hb⟩⟩
        rcases List.mem_append.mp ha' with ha' | ha'
        · exact hleast a' ha' k b h
        rw [List.mem_singleton.mp ha', hk] at h
        cases h
        exact not_lt.mp hlt

variable {key}

theorem search_some {bound : K} {as : List α} {b : β} (h : (search key bound as).2 = some b) :
    ∃ a ∈ as, ∃ k, key a = some (k, b) ∧ ∀ a' ∈ as, ∀ k' b', key a' = some (k', b') → k ≤ k' := by
  obtain ⟨-, hleast, hfound⟩ := search_spec key bound as
  rcases hfound with hnone | ⟨a, ha, b', hkey, hb'⟩
  · rw [hnone] at h
    cases h
  · rw [h, Option.some.injEq] at hb'
    exact ⟨a, ha, _, hb' ▸ hkey, hleast⟩

theorem search_isSome {bound : K} {as : List α} {a : α} {k : K} {b : β} (ha : a ∈ as) (hkey : key a = some (k, b))
    (hlt : k < bound) : (search key bound as).2.isSome = true := by
  obtain ⟨-, hleast, hfound⟩ := search_spec key bound as
  rcases hfound with hnone | ⟨a', -, b', -, hb'⟩
  · have hle := hleast a ha k b hkey
    rw [hnone] at hle
    exact absurd hlt (not_lt.mpr hle)
  · rw [hb']
    rfl

end Search

end Melodi.Lib
