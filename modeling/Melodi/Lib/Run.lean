import Mathlib

/-!
# Runs of a step function

A system is a step function `step : σ → α → σ`: the label carries every choice the system does not make itself
(what arrives, what an allocation returns, the time). A run is a list of labels.

* `run step s as` : the state after the labels `as`;
* `Along step P s as` : every step of the run satisfies `P` at the state it is taken from;
* `run_induction`, `along_of_invariant` : an invariant kept by every step that satisfies `P` holds after every such
run, and what it gives holds at every step of it (`run_invariant`, `along_invariant` without a condition);
* `run_refines` : a run whose steps are runs of another system is a run of it;
* `trace step s as` : the run of a step function with outputs, and the outputs in order.
-/

namespace Melodi.Lib
variable {σ α : Type}
variable {P Q : σ → α → Prop} {s : σ} {as : List α}

def run (step : σ → α → σ) (s : σ) (as : List α) : σ := as.foldl step s

def Along (step : σ → α → σ) (P : σ → α → Prop) : σ → List α → Prop
  | _, [] => True
  | s, a :: as => P s a ∧ Along step P (step s a) as

instance decidableAlong {step : σ → α → σ} {P : σ → α → Prop} [∀ s a, Decidable (P s a)] :
    ∀ (s : σ) (as : List α), Decidable (Along step P s as)
  | _, [] => inferInstanceAs (Decidable True)
  | s, a :: as => @instDecidableAnd _ _ _ (decidableAlong (step s a) as)

section
variable (step : σ → α → σ)

@[simp] theorem run_nil (s : σ) : run step s [] = s := rfl

@[simp] theorem run_cons (s : σ) (a : α) (as : List α) : run step s (a :: as) = run step (step s a) as := rfl

theorem run_append (s : σ) (as bs : List α) : run step s (as ++ bs) = run step (run step s as) bs := by
  simp [run, List.foldl_append]

theorem along_append (P : σ → α → Prop) (s : σ) (as bs : List α) :
    Along step P s (as ++ bs) ↔ Along step P s as ∧ Along step P (run step s as) bs := by
  induction as generalizing s with
  | nil => simp [Along]
  | cons a as ih => simp [Along, ih, and_assoc]

theorem along_split {bs : List α} {a : α} (h : Along step P s (as ++ a :: bs)) :
    P (run step s as) a := ((along_append step P s as (a :: bs)).mp h).2.1

theorem run_induction (Inv : σ → Prop) (hstep : ∀ s a, P s a → Inv s → Inv (step s a)) (hs : Inv s)
    (has : Along step P s as) : Inv (run step s as) := by
  induction as generalizing s with
  | nil => exact hs
  | cons a as ih => exact ih (hstep s a has.1 hs) has.2

theorem run_invariant (Inv : σ → Prop) (hstep : ∀ s a, Inv s → Inv (step s a)) (hs : Inv s) (as : List α) :
    Inv (run step s as) := by
  induction as generalizing s with
  | nil => exact hs
  | cons a as ih => exact ih (hstep s a hs)

theorem along_of_invariant (Inv : σ → Prop) (hstep : ∀ s a, P s a → Inv s → Inv (step s a))
    (hgoal : ∀ s a, P s a → Inv s → Q s a) (hs : Inv s) (has : Along step P s as) : Along step Q s as := by
  induction as generalizing s with
  | nil => trivial
  | cons a as ih => exact ⟨hgoal s a has.1 hs, ih (hstep s a has.1 hs) has.2⟩

theorem along_invariant (Inv : σ → Prop) (hstep : ∀ s a, Inv s → Inv (step s a)) (hgoal : ∀ s a, Inv s → Q s a)
    (hs : Inv s) (as : List α) : Along step Q s as := by
  induction as generalizing s with
  | nil => trivial
  | cons a as ih => exact ⟨hgoal s a hs, ih (hstep s a hs)⟩

/-- If every step is a run of another system, where `abs` is how the states look there, then so is every run. -/
theorem run_refines {τ β : Type} {step' : τ → β → τ} (abs : σ → τ)
    (h : ∀ s a, ∃ bs, run step' (abs s) bs = abs (step s a)) (s : σ) (as : List α) :
    ∃ bs, run step' (abs s) bs = abs (run step s as) := by
  induction as generalizing s with
  | nil => exact ⟨[], rfl⟩
  | cons a as ih =>
    obtain ⟨bs, hbs⟩ := h s a
    obtain ⟨cs, hcs⟩ := ih (step s a)
    refine ⟨bs ++ cs, ?_⟩
    rw [run_append, hbs, hcs, run_cons]

end

/-! ## Steps with outputs -/

section
variable {ω : Type} (step : σ → α → σ × ω)

def trace (s : σ) : List α → σ × List ω
  | [] => (s, [])
  | a :: as =>
    let r := trace (step s a).1 as
    (r.1, (step s a).2 :: r.2)

@[simp] theorem trace_nil (s : σ) : trace step s [] = (s, []) := rfl

theorem trace_cons (s : σ) (a : α) (as : List α) :
    trace step s (a :: as) = ((trace step (step s a).1 as).1, (step s a).2 :: (trace step (step s a).1 as).2) := rfl

theorem trace_append (s : σ) (as bs : List α) :
    trace step s (as ++ bs) =
      ((trace step (trace step s as).1 bs).1, (trace step s as).2 ++ (trace step (trace step s as).1 bs).2) := by
  induction as generalizing s with
  | nil => rfl
  | cons a as ih => simp only [List.cons_append, trace_cons, ih]

end
end Melodi.Lib
