import Melodi.Lib.Charges
import Melodi.Proto.Basic

/-!
# The airtime window (`proto/airtime.c`)

One hour in `AIRTIME_BUCKETS` slots of ten seconds: a bucket holds what was charged in its slot, and is cleared when the
slot comes round again.
-/

namespace Melodi
open Lib

def AIRTIME_BUCKETS : Nat := 360
def AIRTIME_SLOT_MS : Nat := 10000
def AIRTIME_WINDOW_US : Nat := 3600000000

structure AirtimeWindow where
  buckets : Fin AIRTIME_BUCKETS → Nat := fun _ => 0
  totalUs : Nat := 0
  epochSlot : Nat := 0
  initialized : Bool := false

def airtimeBucket (slot : Nat) : Fin AIRTIME_BUCKETS := ⟨slot % AIRTIME_BUCKETS, Nat.mod_lt _ (by decide)⟩

def airtimeReset : AirtimeWindow := {}

def airtimeExpire (w : AirtimeWindow) (slot : Nat) : AirtimeWindow :=
  { w with
    totalUs := (w.totalUs + 2 ^ 64 - w.buckets (airtimeBucket slot)) % 2 ^ 64
    buckets := Function.update w.buckets (airtimeBucket slot) 0 }

def airtimeAdvance (w : AirtimeWindow) (slot : Nat) : AirtimeWindow :=
  if w.initialized = false ∨ slot < w.epochSlot then { epochSlot := slot, initialized := true }
  else
    let elapsed := slot - w.epochSlot
    let w' := if AIRTIME_BUCKETS ≤ elapsed then { w with buckets := fun _ => 0, totalUs := 0 }
      else (List.range elapsed).foldl (fun w' k => airtimeExpire w' (w.epochSlot + (k + 1))) w
    { w' with epochSlot := slot }

/-- The loop of `melodi_airtime_admit` that looks for the slot at which the cost fits, with `n` slots left to look
at. -/
def airtimeWait (w : AirtimeWindow) (slot limitUs : Nat) : Nat → Nat → Nat → Option Nat
  | 0, _, _ => none
  | n + 1, index, remaining =>
    let remaining := (remaining + 2 ^ 64 - w.buckets (airtimeBucket (slot + index))) % 2 ^ 64
    if remaining ≤ limitUs then some index else airtimeWait w slot limitUs n (index + 1) remaining

def airtimeAdmit (w : AirtimeWindow) (nowMs budgetUs costUs : Nat) : AirtimeWindow × Except Errno Unit × Nat :=
  if budgetUs = 0 ∨ costUs = 0 ∨ AIRTIME_WINDOW_US < budgetUs then (w, .error .EINVAL, 0)
  else if budgetUs < costUs then (w, .error .EMSGSIZE, 0)
  else
    let slot := nowMs / AIRTIME_SLOT_MS
    let w := airtimeAdvance w slot
    if w.totalUs ≤ budgetUs - costUs then
      let i := airtimeBucket slot
      ({ w with buckets := Function.update w.buckets i ((w.buckets i + costUs % 2 ^ 32) % 2 ^ 32)
                totalUs := (w.totalUs + costUs) % 2 ^ 64 }, .ok (), 0)
    else
      match airtimeWait w slot (budgetUs - costUs) AIRTIME_BUCKETS 1 w.totalUs with
      | some index => (w, .error .EAGAIN, index * AIRTIME_SLOT_MS - nowMs % AIRTIME_SLOT_MS)
      | none => (w, .error .EOVERFLOW, 0)

/-! ## What the window holds -/

/-- The window holds the charges of its last `AIRTIME_BUCKETS` slots, each in the bucket of its slot. -/
structure AirtimeWindow.Holds (w : AirtimeWindow) (h : Charges) : Prop where
  fresh : w.initialized = false → h = []
  past : w.initialized = true → h.Until w.epochSlot
  bucket : w.initialized = true → ∀ i, w.buckets i =
    h.spent fun s => w.epochSlot < s + AIRTIME_BUCKETS && airtimeBucket s = i
  total : w.initialized = true → w.totalUs = h.recent AIRTIME_BUCKETS w.epochSlot
  bound : w.totalUs ≤ AIRTIME_WINDOW_US

variable {s slot : Nat} {w : AirtimeWindow} {h : Charges}

theorem airtimeReset_holds : airtimeReset.Holds [] :=
  ⟨fun _ => rfl, nofun, nofun, nofun, Nat.zero_le _⟩

theorem airtimeBucket_inj {s' : Nat} (h : airtimeBucket s = airtimeBucket s') (hlt : s' < s + AIRTIME_BUCKETS)
    (hle : s ≤ s') : s = s' := by
  have hmod : s % 360 = s' % 360 := congrArg Fin.val h
  have : s' < s + 360 := hlt
  omega

theorem airtimeBucket_next (hle : s ≤ slot) :
    slot < s + AIRTIME_BUCKETS ∧ airtimeBucket s = airtimeBucket (slot + 1) ↔ s + AIRTIME_BUCKETS = slot + 1 := by
  constructor
  · rintro ⟨hlt, hb⟩
    by_contra hne
    have := airtimeBucket_inj hb (by omega) (by omega)
    omega
  · intro heq
    refine ⟨by omega, Fin.ext ?_⟩
    show s % 360 = (slot + 1) % 360
    rw [← heq]
    exact (Nat.add_mod_right s 360).symm

theorem AirtimeWindow.Holds.expire (hw : { w with epochSlot := slot }.Holds h) (hinit : w.initialized = true) :
    { airtimeExpire w (slot + 1) with epochSlot := slot + 1 }.Holds h := by
  have hpast := hw.past hinit
  -- the window one slot on has all of this one but what the next slot's bucket held
  have hsplit : h.recent AIRTIME_BUCKETS slot =
      h.recent AIRTIME_BUCKETS (slot + 1) + w.buckets (airtimeBucket (slot + 1)) := by
    rw [hw.bucket hinit]
    refine Charges.spent_add (fun e he => ?_) fun e he => ?_
    · rw [Bool.eq_iff_iff]
      simp only [Bool.or_eq_true, Bool.and_eq_true, decide_eq_true_eq, airtimeBucket_next (hpast e he)]
      have := hpast e he
      dsimp only at this
      omega
    · rw [Bool.and_eq_false_iff]
      simp only [Bool.and_eq_false_iff, decide_eq_false_iff_not, ← not_and_or, airtimeBucket_next (hpast e he)]
      omega
  have htotal := hw.total hinit
  have hbound := hw.bound
  dsimp only at htotal hbound
  have hsum : (airtimeExpire w (slot + 1)).totalUs = h.recent AIRTIME_BUCKETS (slot + 1) := by
    unfold AIRTIME_WINDOW_US at hbound
    simp only [airtimeExpire]
    omega
  refine ⟨fun hf => ?_, fun _ => hpast.mono (Nat.le_succ _), fun _ i => ?_, fun _ => hsum, ?_⟩
  · exact absurd (hinit.symm.trans hf) (by simp)
  · dsimp only [airtimeExpire]
    by_cases hi : i = airtimeBucket (slot + 1)
    · subst hi
      rw [Function.update_self]
      refine (Charges.spent_eq_zero fun e he => ?_).symm
      have hle := hpast e he
      dsimp only at hle
      rw [Bool.and_eq_false_iff]
      simp only [decide_eq_false_iff_not, ← not_and_or]
      rintro ⟨hlt, hb⟩
      have := airtimeBucket_inj hb (by omega) (by omega)
      omega
    · rw [Function.update_of_ne hi, hw.bucket hinit]
      refine Charges.spent_congr fun e he => ?_
      have hle := hpast e he
      dsimp only at hle
      rw [Bool.eq_iff_iff]
      simp only [Bool.and_eq_true, decide_eq_true_eq]
      refine ⟨fun ⟨hlt, hb⟩ => ⟨?_, hb⟩, fun ⟨hlt, hb⟩ => ⟨by omega, hb⟩⟩
      -- a charge at the far end of the window would be in the bucket that is cleared
      by_contra hnot
      exact hi (hb ▸ ((airtimeBucket_next hle).mpr (by omega)).2)
  · show (airtimeExpire w (slot + 1)).totalUs ≤ _
    omega

theorem AirtimeWindow.Holds.expireAll (hw : w.Holds h) (hinit : w.initialized = true) (n : Nat) :
    { (List.range n).foldl (fun w' k => airtimeExpire w' (w.epochSlot + (k + 1))) w with
      epochSlot := w.epochSlot + n }.Holds h ∧
    ((List.range n).foldl (fun w' k => airtimeExpire w' (w.epochSlot + (k + 1))) w).initialized = true := by
  induction n with
  | zero => exact ⟨hw, hinit⟩
  | succ n ih =>
    rw [List.range_succ, List.foldl_append]
    exact ⟨ih.1.expire ih.2, ih.2⟩

theorem AirtimeWindow.Holds.advance (hw : w.Holds h) (hle : w.initialized = true → w.epochSlot ≤ slot) :
    (airtimeAdvance w slot).Holds h ∧ (airtimeAdvance w slot).initialized = true ∧
      (airtimeAdvance w slot).epochSlot = slot := by
  unfold airtimeAdvance
  cases hinit : w.initialized with
  | false =>
    rw [if_pos (.inl rfl), hw.fresh hinit]
    exact ⟨⟨nofun, fun _ => nofun, fun _ _ => rfl, fun _ => rfl, Nat.zero_le _⟩, rfl, rfl⟩
  | true =>
    have hle := hle hinit
    rw [if_neg (by simp; omega)]
    dsimp only
    split_ifs with hfar
    · refine ⟨⟨nofun, fun _ => (hw.past hinit).mono hle, fun _ i => ?_, fun _ => ?_, Nat.zero_le _⟩, rfl, rfl⟩
      all_goals
        refine (Charges.spent_eq_zero fun e he => ?_).symm
        have := hw.past hinit e he
        simp only [Bool.and_eq_false_iff, decide_eq_false_iff_not]
        omega
    · have hall := hw.expireAll hinit (slot - w.epochSlot)
      rw [Nat.add_sub_cancel' hle] at hall
      exact ⟨hall.1, hall.2, rfl⟩

theorem airtimeAdmit_ok {w' : AirtimeWindow} {nowMs budgetUs costUs waitMs : Nat} (hw : w.Holds h)
    (hle : w.initialized = true → w.epochSlot ≤ nowMs / AIRTIME_SLOT_MS)
    (hok : airtimeAdmit w nowMs budgetUs costUs = (w', .ok (), waitMs)) :
    h.recent AIRTIME_BUCKETS (nowMs / AIRTIME_SLOT_MS) + costUs ≤ budgetUs ∧ h.Until (nowMs / AIRTIME_SLOT_MS) ∧
      w'.Holds ((nowMs / AIRTIME_SLOT_MS, costUs) :: h) ∧ w'.epochSlot = nowMs / AIRTIME_SLOT_MS := by
  obtain ⟨hadv, hinit, hslot⟩ := hw.advance hle
  unfold airtimeAdmit at hok
  by_cases hargs : budgetUs = 0 ∨ costUs = 0 ∨ AIRTIME_WINDOW_US < budgetUs
  · rw [if_pos hargs] at hok
    simp at hok
  by_cases hsize : budgetUs < costUs
  · rw [if_neg hargs, if_pos hsize] at hok
    simp at hok
  rw [if_neg hargs, if_neg hsize] at hok
  dsimp only at hok
  generalize nowMs / AIRTIME_SLOT_MS = slot at *
  generalize airtimeAdvance w slot = v at *
  subst hslot
  by_cases hfit : v.totalUs ≤ budgetUs - costUs
  · rw [if_pos hfit] at hok
    obtain rfl := (Prod.mk.inj hok).1
    have htotal := hadv.total hinit
    have hwide : AIRTIME_WINDOW_US < 2 ^ 32 := by decide
    have hpast := hadv.past hinit
    refine ⟨by omega, hpast, ⟨fun hf => ?_, fun _ => hpast.cons, fun _ i => ?_, fun _ => ?_, ?_⟩, rfl⟩
    · exact absurd (hinit.symm.trans hf) (by simp)
    · dsimp only
      rw [Charges.spent_cons, ← hadv.bucket hinit i]
      have hpart : v.buckets i ≤ v.totalUs := by
        rw [hadv.bucket hinit i, htotal]
        refine Charges.spent_le fun e he hp => ?_
        simp only [Bool.and_eq_true, decide_eq_true_eq] at hp ⊢
        exact ⟨hpast e he, hp.1⟩
      by_cases hi : i = airtimeBucket v.epochSlot
      · subst hi
        have hnow : v.epochSlot < v.epochSlot + AIRTIME_BUCKETS := Nat.lt_add_of_pos_right (by decide)
        rw [Function.update_self, if_pos (by simp [hnow])]
        omega
      · rw [Function.update_of_ne hi, if_neg (by simp [Ne.symm hi])]
        omega
    · dsimp only
      rw [Charges.recent_cons, if_pos (by simp [AIRTIME_BUCKETS]), ← htotal]
      omega
    · dsimp only
      omega
  · rw [if_neg hfit] at hok
    split at hok <;> simp at hok

end Melodi
