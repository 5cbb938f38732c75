import Mathlib

/-!
# Charges in slots of time

A history of charges, each made in a numbered slot.

* `spent p h` : what was charged in the slots that pass the test (`spent_cons`, `spent_add`);
* `recent n slot h` : what was charged in the `n` slots that end with `slot`;
* `Within n budget h` : no `n` consecutive slots spend more than the budget, and the rule to keep it so
  (`Within.charge`): charge in the last slot, and only what its own window still allows.
-/

namespace Melodi.Lib

abbrev Charges := List (Nat × Nat)

namespace Charges
variable {p q : Nat → Bool} {h : Charges} {n budget slot slot' cost : Nat}

def spent (p : Nat → Bool) (h : Charges) : Nat := ((h.filter fun e => p e.1).map Prod.snd).sum

def recent (n slot : Nat) (h : Charges) : Nat := h.spent fun s => s ≤ slot && slot < s + n

def Until (slot : Nat) (h : Charges) : Prop := ∀ e ∈ h, e.1 ≤ slot

def Gone (n slot : Nat) (h : Charges) : Prop := ∀ e ∈ h, e.1 + n ≤ slot

def Within (n budget : Nat) (h : Charges) : Prop := ∀ slot, h.recent n slot ≤ budget

@[simp] theorem spent_nil (p : Nat → Bool) : spent p [] = 0 := rfl

theorem spent_cons (p : Nat → Bool) (slot cost : Nat) (h : Charges) :
    spent p ((slot, cost) :: h) = (if p slot then cost else 0) + spent p h := by
  by_cases hp : p slot <;> simp [spent, hp]

theorem spent_congr (heq : ∀ e ∈ h, p e.1 = q e.1) : spent p h = spent q h := by
  rw [spent, spent, List.filter_congr heq]

theorem spent_le (himp : ∀ e ∈ h, p e.1 = true → q e.1 = true) : spent p h ≤ spent q h := by
  induction h with
  | nil => exact Nat.le_refl _
  | cons e h ih =>
    obtain ⟨slot, cost⟩ := e
    have htail := ih fun e he => himp e (List.mem_cons_of_mem _ he)
    have hhead := himp (slot, cost) List.mem_cons_self
    rw [spent_cons, spent_cons]
    split_ifs with hp hq
    · omega
    · exact absurd (hhead hp) hq
    · omega
    · omega

theorem spent_add {r : Nat → Bool} (hor : ∀ e ∈ h, p e.1 = (q e.1 || r e.1))
    (hand : ∀ e ∈ h, (q e.1 && r e.1) = false) : spent p h = spent q h + spent r h := by
  induction h with
  | nil => rfl
  | cons e h ih =>
    obtain ⟨slot, cost⟩ := e
    have htail := ih (fun e he => hor e (List.mem_cons_of_mem _ he)) fun e he => hand e (List.mem_cons_of_mem _ he)
    have hp := hor (slot, cost) List.mem_cons_self
    have hqr := hand (slot, cost) List.mem_cons_self
    simp only [spent_cons, htail]
    cases hq : q slot <;> cases hr : r slot <;> simp_all <;> omega

theorem spent_eq_zero (hp : ∀ e ∈ h, p e.1 = false) : spent p h = 0 := by
  rw [spent, List.filter_eq_nil_iff.mpr fun e he => by simp [hp e he]]
  rfl

theorem spent_append (p : Nat → Bool) (h h' : Charges) : spent p (h ++ h') = spent p h + spent p h' := by
  simp [spent, List.filter_append]

theorem spent_filter (p : Nat → Bool) (h : Charges) : spent p (h.filter fun e => e.2 ≠ 0) = spent p h := by
  induction h with
  | nil => rfl
  | cons e h ih =>
    obtain ⟨slot, cost⟩ := e
    by_cases hcost : cost = 0
    · subst hcost
      rw [List.filter_cons_of_neg (by simp), ih, spent_cons]
      split_ifs <;> exact (Nat.zero_add _).symm
    · rw [List.filter_cons_of_pos (by simpa using hcost), spent_cons, spent_cons, ih]

theorem sum_spent (bin : Nat → Fin n) (p : Nat → Bool) (h : Charges) :
    ∑ i, spent (fun s => p s && bin s = i) h = spent p h := by
  induction h with
  | nil => simp
  | cons e h ih =>
    obtain ⟨slot, cost⟩ := e
    simp only [spent_cons, Finset.sum_add_distrib, ih]
    congr 1
    by_cases hp : p slot = true
    · simp [hp]
    · simp [hp]

theorem within_filter (hw : Within n budget (h.filter fun e => e.2 ≠ 0)) : Within n budget h := fun slot => by
  rw [recent, ← spent_filter]
  exact hw slot

theorem recent_cons (n slot s cost : Nat) (h : Charges) :
    recent n slot ((s, cost) :: h) = (if s ≤ slot ∧ slot < s + n then cost else 0) + recent n slot h := by
  rw [recent, spent_cons, recent]
  simp only [Bool.and_eq_true, decide_eq_true_eq]

theorem Until.mono (hu : h.Until slot) (hle : slot ≤ slot') : h.Until slot' :=
  fun e he => Nat.le_trans (hu e he) hle

theorem Until.cons (hu : h.Until slot) : Until slot ((slot, cost) :: h) := by
  intro e he
  rcases List.mem_cons.mp he with rfl | he
  · exact Nat.le_refl _
  · exact hu e he

theorem Gone.mono (hg : h.Gone n slot) (hle : slot ≤ slot') : h.Gone n slot' :=
  fun e he => Nat.le_trans (hg e he) hle

theorem Gone.until (hg : h.Gone n slot) : h.Until slot :=
  fun e he => Nat.le_trans (Nat.le_add_right _ _) (hg e he)

theorem recent_append_gone {old : Charges} (hg : old.Gone n slot) : recent n slot (h ++ old) = h.recent n slot := by
  have hzero : old.recent n slot = 0 := by
    refine spent_eq_zero fun e he => ?_
    have := hg e he
    simp only [Bool.and_eq_false_iff, decide_eq_false_iff_not]
    omega
  rw [recent, spent_append]
  exact congrArg (h.recent n slot + ·) hzero

theorem recent_le_of_until {later : Nat} (hu : h.Until slot) (hle : slot ≤ later) :
    h.recent n later ≤ h.recent n slot := by
  refine spent_le fun e he hp => ?_
  have := hu e he
  simp only [Bool.and_eq_true, decide_eq_true_eq] at hp ⊢
  omega

theorem within_nil (n budget : Nat) : Within n budget [] := fun _ => Nat.zero_le _

/-- **Charging within the window of the last slot keeps every window within the budget.** -/
theorem Within.charge (hw : h.Within n budget) (hu : h.Until slot) (hfit : h.recent n slot + cost ≤ budget) :
    Within n budget ((slot, cost) :: h) := by
  intro later
  rw [recent_cons]
  split_ifs with hin
  · have := recent_le_of_until (n := n) hu hin.1
    omega
  · have := hw later
    omega

end Charges
end Melodi.Lib
