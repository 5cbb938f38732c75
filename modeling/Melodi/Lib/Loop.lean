import Mathlib

/-!
# Loops that scan until nothing changes

A pass either changes the state and says something, or finds nothing to do, and then the loop ends.

* `Loops pass s os s'` : the loop started in `s` ends in `s'`, having said `os`;
* `Loops.done`, `Loops.induct` : the last pass found nothing to do, and what every pass keeps still holds.
-/

namespace Melodi.Lib
variable {σ ω : Type}

/-- A loop that makes passes until one finds nothing to do. -/
inductive Loops (pass : σ → Option (σ × ω)) : σ → List ω → σ → Prop where
  | stop {s} (h : pass s = none) : Loops pass s [] s
  | next {s s₁ s' o os} (h : pass s = some (s₁, o)) (hrest : Loops pass s₁ os s') : Loops pass s (o :: os) s'

variable {pass : σ → Option (σ × ω)}

theorem Loops.done {s s' : σ} {os : List ω} (h : Loops pass s os s') : pass s' = none := by
  induction h with
  | stop h => exact h
  | next _ _ ih => exact ih

theorem Loops.induct {s s' : σ} {os : List ω} (h : Loops pass s os s') (R : σ → σ → Prop) (hrefl : ∀ s, R s s)
    (hpass : ∀ s s₁ s' o, pass s = some (s₁, o) → R s₁ s' → R s s') : R s s' := by
  induction h with
  | stop _ => exact hrefl _
  | next hp _ ih => exact hpass _ _ _ _ hp ih

/-- **A loop whose passes make a measure smaller ends.** -/
theorem Loops.exists_of_measure (measure : σ → Nat) (hpass : ∀ s s₁ o, pass s = some (s₁, o) → measure s₁ < measure s)
    (s : σ) : ∃ os s', Loops pass s os s' := by
  induction hm : measure s using Nat.strongRecOn generalizing s with
  | _ n ih =>
    cases hp : pass s with
    | none => exact ⟨[], s, .stop hp⟩
    | some r =>
      obtain ⟨s₁, o⟩ := r
      obtain ⟨os, s', hrest⟩ := ih (measure s₁) (hm ▸ hpass s s₁ o hp) s₁ rfl
      exact ⟨o :: os, s', .next hp hrest⟩

/-! ## Loops that may fail -/

theorem mapM_ok {α β ε : Type} {f : α → Except ε β} {xs : List α} {ys : List β} (h : xs.mapM f = .ok ys) :
    ys.length = xs.length ∧ ∀ (k : Nat) (x : α), xs[k]? = some x → ∃ y, ys[k]? = some y ∧ f x = .ok y := by
  induction xs generalizing ys with
  | nil =>
    obtain rfl : [] = ys := Except.ok.inj h
    exact ⟨rfl, by simp⟩
  | cons x xs ih =>
    rw [List.mapM_cons] at h
    cases hx : f x with
    | error e => rw [hx] at h; exact nomatch h
    | ok y =>
      rw [hx] at h
      cases hxs : xs.mapM f with
      | error e => simp [hxs, bind, Except.bind] at h
      | ok ys' =>
        simp only [hxs, bind, Except.bind, pure, Except.pure, Except.ok.injEq] at h
        subst h
        obtain ⟨hlength, hget⟩ := ih hxs
        refine ⟨congrArg (· + 1) hlength, fun k x' hk => ?_⟩
        cases k with
        | zero => exact ⟨y, rfl, Option.some.inj hk ▸ hx⟩
        | succ k => exact hget k x' hk

end Melodi.Lib
