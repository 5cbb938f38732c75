import Melodi.Lib.Run
import Melodi.Proto.Airtime

/-!
# Runs of the airtime window

The calls of `melodi_airtime_admit` on one window under one budget, with everything they admitted.

* `airtime_exact` : admission, the total and the wait of every call of every run.
-/

namespace Melodi
open Lib
variable {w : AirtimeWindow} {h : Charges} {calls : List (Nat × Nat)} {costUs nowMs : Nat}

/-! ## The slots to come -/

theorem AirtimeWindow.Holds.later (hw : w.Holds h) (hinit : w.initialized = true) {k : Nat} (hk : k < AIRTIME_BUCKETS) :
    h.recent AIRTIME_BUCKETS (w.epochSlot + k) =
      h.recent AIRTIME_BUCKETS (w.epochSlot + k + 1) + w.buckets (airtimeBucket (w.epochSlot + k + 1)) := by
  rw [hw.bucket hinit]
  have hpast := hw.past hinit
  -- of all charges up to now, the bucket of that slot holds the ones that are a whole window older
  have hbucket : ∀ e ∈ h, w.epochSlot < e.1 + AIRTIME_BUCKETS ∧
      airtimeBucket e.1 = airtimeBucket (w.epochSlot + k + 1) ↔ e.1 + AIRTIME_BUCKETS = w.epochSlot + k + 1 := by
    intro e he
    have hle := hpast e he
    unfold AIRTIME_BUCKETS at hk ⊢
    constructor
    · rintro ⟨hlt, hb⟩
      have hmod : e.1 % 360 = (w.epochSlot + k + 1) % 360 := congrArg Fin.val hb
      omega
    · intro heq
      refine ⟨by omega, Fin.ext ?_⟩
      show e.1 % 360 = (w.epochSlot + k + 1) % 360
      omega
  refine Charges.spent_add (fun e he => ?_) fun e he => ?_
  · have hle := hpast e he
    rw [Bool.eq_iff_iff]
    simp only [Bool.or_eq_true, Bool.and_eq_true, decide_eq_true_eq, hbucket e he]
    omega
  · rw [Bool.and_eq_false_iff]
    simp only [Bool.and_eq_false_iff, decide_eq_false_iff_not, ← not_and_or, hbucket e he]
    omega

theorem recent_eq_zero {slot : Nat} (hpast : h.Until slot) :
    h.recent AIRTIME_BUCKETS (slot + AIRTIME_BUCKETS) = 0 := by
  refine Charges.spent_eq_zero fun e he => ?_
  have hle := hpast e he
  simp only [Bool.and_eq_false_iff, decide_eq_false_iff_not]
  omega

theorem airtimeWait_spec (hw : w.Holds h) (hinit : w.initialized = true) (limitUs : Nat) (n k : Nat)
    (hn : n + k = AIRTIME_BUCKETS) (hsmall : h.recent AIRTIME_BUCKETS (w.epochSlot + k) < 2 ^ 64)
    (hmore : limitUs < h.recent AIRTIME_BUCKETS (w.epochSlot + k)) :
    ∃ index, airtimeWait w w.epochSlot limitUs n (k + 1) (h.recent AIRTIME_BUCKETS (w.epochSlot + k)) = some index ∧
      k < index ∧ h.recent AIRTIME_BUCKETS (w.epochSlot + index) ≤ limitUs ∧
      ∀ m, k ≤ m → m < index → limitUs < h.recent AIRTIME_BUCKETS (w.epochSlot + m) := by
  induction n generalizing k with
  | zero =>
    -- a whole window later nothing is left
    have hzero := recent_eq_zero (hw.past hinit)
    rw [show k = AIRTIME_BUCKETS by omega, hzero] at hmore
    omega
  | succ n ih =>
    have hlater := hw.later hinit (by omega : k < AIRTIME_BUCKETS)
    have hremaining : (h.recent AIRTIME_BUCKETS (w.epochSlot + k) + 2 ^ 64 -
        w.buckets (airtimeBucket (w.epochSlot + (k + 1)))) % 2 ^ 64 =
        h.recent AIRTIME_BUCKETS (w.epochSlot + (k + 1)) := by
      rw [← Nat.add_assoc]
      omega
    rw [airtimeWait, hremaining]
    split_ifs with hfits
    · refine ⟨k + 1, rfl, by omega, hfits, fun m hle hlt => ?_⟩
      rw [show m = k by omega]
      exact hmore
    obtain ⟨index, hfound, hlt, hfit, hbefore⟩ := ih (k + 1) (by omega) (by rw [← Nat.add_assoc]; omega) (by omega)
    refine ⟨index, hfound, by omega, hfit, fun m hle hm => ?_⟩
    rcases Nat.eq_or_lt_of_le hle with rfl | hafter
    · exact hmore
    · exact hbefore m hafter hm

theorem airtimeAdmit_spec {budgetUs : Nat} (hw : w.Holds h)
    (hle : w.initialized = true → w.epochSlot ≤ nowMs / AIRTIME_SLOT_MS) (hbudget : budgetUs ≤ AIRTIME_WINDOW_US)
    (hcost : 0 < costUs) (hsize : costUs ≤ budgetUs) :
    (h.recent AIRTIME_BUCKETS (nowMs / AIRTIME_SLOT_MS) + costUs ≤ budgetUs ∧
      ∃ w', airtimeAdmit w nowMs budgetUs costUs = (w', .ok (), 0)) ∨
    (budgetUs < h.recent AIRTIME_BUCKETS (nowMs / AIRTIME_SLOT_MS) + costUs ∧
      ∃ index, airtimeAdmit w nowMs budgetUs costUs = (airtimeAdvance w (nowMs / AIRTIME_SLOT_MS), .error .EAGAIN,
        index * AIRTIME_SLOT_MS - nowMs % AIRTIME_SLOT_MS) ∧ 0 < index ∧
      h.recent AIRTIME_BUCKETS (nowMs / AIRTIME_SLOT_MS + index) + costUs ≤ budgetUs ∧
      ∀ m < index, budgetUs < h.recent AIRTIME_BUCKETS (nowMs / AIRTIME_SLOT_MS + m) + costUs) := by
  obtain ⟨hadv, hinit, hslot⟩ := hw.advance hle
  have htotal := hadv.total hinit
  have hbound := hadv.bound
  unfold airtimeAdmit
  rw [if_neg (by omega), if_neg (by omega)]
  dsimp only
  rw [hslot] at htotal
  by_cases hfits : (airtimeAdvance w (nowMs / AIRTIME_SLOT_MS)).totalUs ≤ budgetUs - costUs
  · rw [if_pos hfits]
    exact .inl ⟨by omega, _, rfl⟩
  rw [if_neg hfits]
  have hsmall : h.recent AIRTIME_BUCKETS (nowMs / AIRTIME_SLOT_MS) < 2 ^ 64 := by
    unfold AIRTIME_WINDOW_US at hbound
    omega
  have hover : budgetUs - costUs < h.recent AIRTIME_BUCKETS (nowMs / AIRTIME_SLOT_MS) := by omega
  have hwait := airtimeWait_spec hadv hinit (budgetUs - costUs) AIRTIME_BUCKETS 0 (Nat.add_zero _)
  simp only [hslot, Nat.add_zero, Nat.zero_add, ← htotal] at hwait
  rw [← htotal] at hsmall hover
  obtain ⟨index, hfound, hpos, hfit, hbefore⟩ := hwait hsmall hover
  rw [hfound]
  refine .inr ⟨by omega, index, rfl, hpos, by omega, fun m hm => ?_⟩
  have hstill := hbefore m (Nat.zero_le m) hm
  omega

/-! ## Runs -/

/-- A window, what was admitted at which time, the latest first, and the time of the last call. -/
structure AirtimeRun where
  window : AirtimeWindow := airtimeReset
  admitted : List (Nat × Nat) := []
  nowMs : Nat := 0

def AirtimeRun.answer (s : AirtimeRun) (budgetUs nowMs costUs : Nat) : Except Errno Unit × Nat :=
  (airtimeAdmit s.window nowMs budgetUs costUs).2

def airtimeCall (budgetUs : Nat) (s : AirtimeRun) (call : Nat × Nat) : AirtimeRun where
  window := (airtimeAdmit s.window call.1 budgetUs call.2).1
  admitted := if (s.answer budgetUs call.1 call.2).1.isOk then call :: s.admitted else s.admitted
  nowMs := call.1

def Onward (budgetUs : Nat) (s : AirtimeRun) (calls : List (Nat × Nat)) : Prop :=
  Along (airtimeCall budgetUs) (fun s call => s.nowMs ≤ call.1) s calls

def AirtimeRun.charges (s : AirtimeRun) : Charges := s.admitted.map fun e => (e.1 / AIRTIME_SLOT_MS, e.2)

def AirtimeRun.recent (s : AirtimeRun) (nowMs : Nat) : Nat := s.charges.recent AIRTIME_BUCKETS (nowMs / AIRTIME_SLOT_MS)

structure AirtimeRun.Faithful (s : AirtimeRun) : Prop where
  holds : s.window.Holds s.charges
  fresh : s.window.initialized = false → s.window = airtimeReset
  slot : s.window.initialized = true → s.window.epochSlot ≤ s.nowMs / AIRTIME_SLOT_MS
  past : ∀ e ∈ s.admitted, e.1 ≤ s.nowMs

theorem airtimeRun_faithful_initial : ({} : AirtimeRun).Faithful where
  holds := airtimeReset_holds
  fresh := fun _ => rfl
  slot := fun h => nomatch h
  past := fun _ h => nomatch h

section
variable {budgetUs : Nat} {s : AirtimeRun}

theorem AirtimeRun.Faithful.epoch (h : s.Faithful) (hle : s.nowMs ≤ nowMs) :
    s.window.initialized = true → s.window.epochSlot ≤ nowMs / AIRTIME_SLOT_MS := fun hinit =>
  Nat.le_trans (h.slot hinit) (Nat.div_le_div_right hle)

theorem airtimeAdmit_error (h : (airtimeAdmit w nowMs budgetUs costUs).2.1.isOk = false) :
    (airtimeAdmit w nowMs budgetUs costUs).1 = w ∨
      (airtimeAdmit w nowMs budgetUs costUs).1 = airtimeAdvance w (nowMs / AIRTIME_SLOT_MS) := by
  unfold airtimeAdmit at h ⊢
  by_cases hargs : budgetUs = 0 ∨ costUs = 0 ∨ AIRTIME_WINDOW_US < budgetUs
  · rw [if_pos hargs]
    exact .inl rfl
  by_cases hsize : budgetUs < costUs
  · rw [if_neg hargs, if_pos hsize]
    exact .inl rfl
  rw [if_neg hargs, if_neg hsize] at h ⊢
  dsimp only at h ⊢
  split_ifs at h ⊢ with hfits
  · cases h
  · split <;> exact .inr rfl

theorem airtimeCall_faithful (h : s.Faithful) {call : Nat × Nat} (hle : s.nowMs ≤ call.1) :
    (airtimeCall budgetUs s call).Faithful := by
  have hpast : ∀ e ∈ s.admitted, e.1 ≤ call.1 := fun e he => Nat.le_trans (h.past e he) hle
  cases hok : (s.answer budgetUs call.1 call.2).1.isOk with
  | true =>
    have hadmitted : (airtimeCall budgetUs s call).admitted = call :: s.admitted := by rw [airtimeCall, hok]; rfl
    have hcharges : (airtimeCall budgetUs s call).charges = (call.1 / AIRTIME_SLOT_MS, call.2) :: s.charges := by
      rw [AirtimeRun.charges, hadmitted]
      rfl
    cases hadm : airtimeAdmit s.window call.1 budgetUs call.2 with
    | mk w r =>
      have hr : r = (.ok (), r.2) := by
        rw [AirtimeRun.answer, hadm] at hok
        obtain ⟨_ | _, _⟩ := r
        · cases hok
        · rfl
      have hwindow : (airtimeCall budgetUs s call).window = w := congrArg Prod.fst hadm
      rw [hr] at hadm
      obtain ⟨-, -, hholds, hslot⟩ := airtimeAdmit_ok h.holds (h.epoch hle) hadm
      refine ⟨?_, fun hf => ?_, fun _ => ?_, ?_⟩
      · rw [hwindow, hcharges]
        exact hholds
      · rw [hwindow] at hf
        cases hholds.fresh hf
      · rw [hwindow, hslot]
        exact Nat.le_refl _
      · rw [hadmitted]
        exact List.forall_mem_cons.mpr ⟨Nat.le_refl _, hpast⟩
  | false =>
    have hadmitted : (airtimeCall budgetUs s call).admitted = s.admitted := by rw [airtimeCall, hok]; rfl
    have hcharges : (airtimeCall budgetUs s call).charges = s.charges := by
      rw [AirtimeRun.charges, hadmitted, AirtimeRun.charges]
    obtain ⟨hadv, hinit, hslot⟩ := h.holds.advance (h.epoch hle)
    rcases airtimeAdmit_error hok with hsame | hmoved
    · have hwindow : (airtimeCall budgetUs s call).window = s.window := hsame
      refine ⟨?_, ?_, ?_, ?_⟩
      · rw [hwindow, hcharges]
        exact h.holds
      · rw [hwindow]
        exact h.fresh
      · rw [hwindow]
        exact h.epoch hle
      · rw [hadmitted]
        exact hpast
    · have hwindow : (airtimeCall budgetUs s call).window = airtimeAdvance s.window (call.1 / AIRTIME_SLOT_MS) := hmoved
      refine ⟨?_, ?_, ?_, ?_⟩
      · rw [hwindow, hcharges]
        exact hadv
      · rw [hwindow, hinit]
        exact fun hf => nomatch hf
      · rw [hwindow, hslot]
        exact fun _ => Nat.le_refl _
      · rw [hadmitted]
        exact hpast

theorem run_faithful (h : s.Faithful) (honward : Onward budgetUs s calls) :
    (run (airtimeCall budgetUs) s calls).Faithful :=
  run_induction _ AirtimeRun.Faithful (fun _ _ hle hs => airtimeCall_faithful hs hle) h honward

/-! ## Admission is exact -/

/-- What holds of a run under the budget: of the buckets, of the admissions, and of the waits. -/
structure AirtimeRun.Exact (s : AirtimeRun) (budgetUs : Nat) : Prop where
  bucket : s.window.initialized = true → ∀ i, s.window.buckets i =
    s.charges.spent fun slot => s.window.epochSlot < slot + AIRTIME_BUCKETS && airtimeBucket slot = i
  total : s.window.totalUs = ∑ i, s.window.buckets i
  admits : ∀ nowMs costUs, s.nowMs ≤ nowMs → 0 < costUs → costUs ≤ budgetUs →
    ((s.answer budgetUs nowMs costUs).1 = .ok () ↔ costUs + s.recent nowMs ≤ budgetUs)
  overflow : ∀ nowMs costUs, s.nowMs ≤ nowMs → (s.answer budgetUs nowMs costUs).1 ≠ .error .EOVERFLOW
  waits : ∀ nowMs costUs waitMs, s.nowMs ≤ nowMs → s.answer budgetUs nowMs costUs = (.error .EAGAIN, waitMs) →
    ∀ more, Onward budgetUs (airtimeCall budgetUs s (nowMs, costUs)) more →
      let s' := run (airtimeCall budgetUs) (airtimeCall budgetUs s (nowMs, costUs)) more
      s'.admitted = s.admitted → ∀ laterMs, s'.nowMs ≤ laterMs →
        (laterMs < nowMs + waitMs → (s'.answer budgetUs laterMs costUs).1 = .error .EAGAIN) ∧
          (laterMs = nowMs + waitMs → (s'.answer budgetUs laterMs costUs).1 = .ok ())

theorem AirtimeRun.Faithful.answer (h : s.Faithful) (hbudget : budgetUs ≤ AIRTIME_WINDOW_US) (hle : s.nowMs ≤ nowMs)
    (hcost : 0 < costUs) (hsize : costUs ≤ budgetUs) :
    (s.recent nowMs + costUs ≤ budgetUs ∧ s.answer budgetUs nowMs costUs = (.ok (), 0)) ∨
    (budgetUs < s.recent nowMs + costUs ∧ ∃ index,
      s.answer budgetUs nowMs costUs = (.error .EAGAIN, index * AIRTIME_SLOT_MS - nowMs % AIRTIME_SLOT_MS) ∧ 0 < index ∧
      s.charges.recent AIRTIME_BUCKETS (nowMs / AIRTIME_SLOT_MS + index) + costUs ≤ budgetUs ∧
      ∀ m < index, budgetUs < s.charges.recent AIRTIME_BUCKETS (nowMs / AIRTIME_SLOT_MS + m) + costUs) := by
  rcases airtimeAdmit_spec h.holds (h.epoch hle) hbudget hcost hsize with
    ⟨hfits, w, heq⟩ | ⟨hover, index, heq, hrest⟩
  · exact .inl ⟨hfits, by rw [AirtimeRun.answer, heq]⟩
  · exact .inr ⟨hover, index, by rw [AirtimeRun.answer, heq], hrest⟩

theorem AirtimeRun.answer_invalid (h : ¬ (0 < costUs ∧ costUs ≤ budgetUs)) :
    (s.answer budgetUs nowMs costUs).1 = .error .EINVAL ∨ (s.answer budgetUs nowMs costUs).1 = .error .EMSGSIZE := by
  unfold AirtimeRun.answer airtimeAdmit
  by_cases hargs : budgetUs = 0 ∨ costUs = 0 ∨ AIRTIME_WINDOW_US < budgetUs
  · rw [if_pos hargs]
    exact .inl rfl
  · rw [if_neg hargs, if_pos (by omega)]
    exact .inr rfl

theorem AirtimeRun.Faithful.total (h : s.Faithful) : s.window.totalUs = ∑ i, s.window.buckets i := by
  cases hinit : s.window.initialized with
  | false => simp [h.fresh hinit, airtimeReset]
  | true =>
    have hpast := h.holds.past hinit
    rw [h.holds.total hinit, Finset.sum_congr rfl fun i _ => h.holds.bucket hinit i, Charges.sum_spent]
    refine Charges.spent_congr fun e he => ?_
    simp [hpast e he]

theorem AirtimeRun.Faithful.waits (h : s.Faithful) (hbudget : budgetUs ≤ AIRTIME_WINDOW_US) {waitMs : Nat}
    (hle : s.nowMs ≤ nowMs) (hanswer : s.answer budgetUs nowMs costUs = (.error .EAGAIN, waitMs)) {s' : AirtimeRun}
    (hs' : s'.Faithful) (hsame : s'.admitted = s.admitted) (hafter : nowMs ≤ s'.nowMs) {laterMs : Nat}
    (hlater : s'.nowMs ≤ laterMs) :
    (laterMs < nowMs + waitMs → (s'.answer budgetUs laterMs costUs).1 = .error .EAGAIN) ∧
      (laterMs = nowMs + waitMs → (s'.answer budgetUs laterMs costUs).1 = .ok ()) := by
  have hvalid : 0 < costUs ∧ costUs ≤ budgetUs := by
    by_contra hinvalid
    rcases AirtimeRun.answer_invalid hinvalid with herr | herr <;> rw [hanswer] at herr <;> cases herr
  obtain ⟨hcost, hsize⟩ := hvalid
  have hcharges : s'.charges = s.charges := by rw [AirtimeRun.charges, hsame, AirtimeRun.charges]
  have hrecent : s'.recent laterMs = s.charges.recent AIRTIME_BUCKETS (laterMs / AIRTIME_SLOT_MS) := by
    rw [AirtimeRun.recent, hcharges]
  rcases h.answer hbudget hle hcost hsize with ⟨-, heq⟩ | ⟨-, index, heq, hpos, hfit, hbefore⟩
  · rw [hanswer] at heq
    cases heq
  rw [hanswer] at heq
  have hwait : waitMs = index * AIRTIME_SLOT_MS - nowMs % AIRTIME_SLOT_MS := (Prod.mk.inj heq).2
  -- the time to wait ends where the slot begins
  have hend : nowMs + waitMs = (nowMs / AIRTIME_SLOT_MS + index) * AIRTIME_SLOT_MS := by
    unfold AIRTIME_SLOT_MS at hwait ⊢
    omega
  have hslot : nowMs / AIRTIME_SLOT_MS ≤ laterMs / AIRTIME_SLOT_MS := Nat.div_le_div_right (Nat.le_trans hafter hlater)
  rw [hend]
  constructor
  · intro hlt
    have hin : laterMs / AIRTIME_SLOT_MS < nowMs / AIRTIME_SLOT_MS + index :=
      Nat.div_lt_of_lt_mul (by rwa [Nat.mul_comm])
    have hover := hbefore (laterMs / AIRTIME_SLOT_MS - nowMs / AIRTIME_SLOT_MS) (by omega)
    rw [Nat.add_sub_cancel' hslot, ← hrecent] at hover
    rcases hs'.answer hbudget hlater hcost hsize with ⟨hfits, -⟩ | ⟨-, _, heq', -⟩
    · omega
    · rw [heq']
  · intro hat
    have hin : laterMs / AIRTIME_SLOT_MS = nowMs / AIRTIME_SLOT_MS + index := by
      rw [hat]
      exact Nat.mul_div_cancel _ (by decide)
    rw [← hin, ← hrecent] at hfit
    rcases hs'.answer hbudget hlater hcost hsize with ⟨-, heq'⟩ | ⟨hover, -⟩
    · rw [heq']
    · omega

theorem Onward.le (h : Onward budgetUs s calls) :
    s.nowMs ≤ (run (airtimeCall budgetUs) s calls).nowMs := by
  induction calls generalizing s with
  | nil => exact Nat.le_refl _
  | cons call calls ih => exact Nat.le_trans h.1 (ih h.2)

/-- A call with a positive cost is admitted exactly if its cost and what was admitted in the last 360 slots stay
within the budget. -/
theorem airtime_exact (budgetUs : Nat) (hbudget : 0 < budgetUs ∧ budgetUs ≤ AIRTIME_WINDOW_US)
    (calls : List (Nat × Nat))
    (honward : Onward budgetUs {} calls) : (run (airtimeCall budgetUs) {} calls).Exact budgetUs := by
  have h := run_faithful airtimeRun_faithful_initial honward
  generalize run (airtimeCall budgetUs) {} calls = s at h
  refine ⟨h.holds.bucket, h.total, fun nowMs costUs hle hcost hsize => ?_, fun nowMs costUs hle => ?_, ?_⟩
  · rcases h.answer hbudget.2 hle hcost hsize with ⟨hfits, heq⟩ | ⟨hover, _, heq, -⟩
    · rw [heq]
      exact iff_of_true rfl (by omega)
    · rw [heq]
      exact iff_of_false nofun (by omega)
  · by_cases hvalid : 0 < costUs ∧ costUs ≤ budgetUs
    · rcases h.answer hbudget.2 hle hvalid.1 hvalid.2 with ⟨-, heq⟩ | ⟨-, _, heq, -⟩
      · rw [heq]
        nofun
      · rw [heq]
        nofun
    · rcases AirtimeRun.answer_invalid hvalid with herr | herr
      · rw [herr]
        nofun
      · rw [herr]
        nofun
  · intro nowMs costUs waitMs hle hanswer more hmore s' hsame laterMs hlater
    have hs' : s'.Faithful := run_faithful (airtimeCall_faithful h hle) hmore
    exact h.waits hbudget.2 hle hanswer hs' hsame hmore.le hlater

theorem airtime_exact_spent : (run (airtimeCall 10) {} [(0, 6), (1, 6)]).Exact 10 :=
  airtime_exact 10 ⟨by decide, by decide⟩ _ ⟨Nat.zero_le _, Nat.zero_le _, trivial⟩

/-- A call that costs nothing is refused, though nothing was spent. -/
theorem airtime_free_refused :
    ¬ ((({} : AirtimeRun).answer 10 0 0).1 = .ok () ↔ 0 + ({} : AirtimeRun).recent 0 ≤ 10) := by
  intro hiff
  have hok := hiff.mpr (by decide)
  cases hok

/-! ## The hour -/

def AirtimeRun.between (s : AirtimeRun) (startMs endMs : Nat) : Nat :=
  ((s.admitted.filter fun e => startMs ≤ e.1 && e.1 < endMs).map Prod.snd).sum

theorem run_within (honward : Onward budgetUs {} calls) :
    (run (airtimeCall budgetUs) {} calls).charges.Within AIRTIME_BUCKETS budgetUs := by
  refine (run_induction (airtimeCall budgetUs)
    (fun s => s.Faithful ∧ s.charges.Within AIRTIME_BUCKETS budgetUs) (fun s call hle hs => ?_)
    ⟨airtimeRun_faithful_initial, Charges.within_nil _ _⟩ honward).2
  refine ⟨airtimeCall_faithful hs.1 hle, ?_⟩
  cases hadm : airtimeAdmit s.window call.1 budgetUs call.2 with
  | mk w r =>
    obtain ⟨result, waitMs⟩ := r
    have hanswer : (s.answer budgetUs call.1 call.2).1 = result := by rw [AirtimeRun.answer, hadm]
    cases result with
    | error e =>
      have hcharges : (airtimeCall budgetUs s call).charges = s.charges := by
        rw [AirtimeRun.charges, airtimeCall, hanswer]
        rfl
      rw [hcharges]
      exact hs.2
    | ok _ =>
      obtain ⟨hfits, hpast, -, -⟩ := airtimeAdmit_ok hs.1.holds (hs.1.epoch hle) hadm
      have hcharges : (airtimeCall budgetUs s call).charges = (call.1 / AIRTIME_SLOT_MS, call.2) :: s.charges := by
        rw [AirtimeRun.charges, airtimeCall, hanswer]
        rfl
      rw [hcharges]
      exact hs.2.charge hpast hfits

theorem AirtimeRun.between_le (s : AirtimeRun) {startMs endMs : Nat}
    (hslots : (endMs - 1) / AIRTIME_SLOT_MS < startMs / AIRTIME_SLOT_MS + AIRTIME_BUCKETS) :
    s.between startMs endMs ≤ s.charges.recent AIRTIME_BUCKETS ((endMs - 1) / AIRTIME_SLOT_MS) := by
  unfold AirtimeRun.between AirtimeRun.charges
  induction s.admitted with
  | nil => exact Nat.zero_le _
  | cons e admitted ih =>
    rw [List.map_cons, Charges.recent_cons, List.filter_cons]
    split_ifs with hin hnear hnear
    · rw [List.map_cons, List.sum_cons]
      omega
    · simp only [Bool.and_eq_true, decide_eq_true_eq] at hin
      unfold AIRTIME_SLOT_MS at hnear hslots
      omega
    · omega
    · omega

end

/-- **The budget holds over all times that touch no more slots than the window has**: over every hour that begins with
a slot, and over every time that is shorter than an hour by a slot. -/
theorem airtime_hour (budgetUs : Nat) (calls : List (Nat × Nat)) (honward : Onward budgetUs {} calls)
    (startMs endMs : Nat) (hslots : (endMs - 1) / AIRTIME_SLOT_MS < startMs / AIRTIME_SLOT_MS + AIRTIME_BUCKETS) :
    (run (airtimeCall budgetUs) {} calls).between startMs endMs ≤ budgetUs :=
  Nat.le_trans (AirtimeRun.between_le _ hslots) (run_within honward _)

/-- Two calls a slot apart from an hour, each with the whole budget; the hour that starts with the second slot. -/
theorem airtime_hour_aligned : (run (airtimeCall 10) {} [(9999, 10), (3600000, 10)]).between 10000 3610000 ≤ 10 :=
  airtime_hour 10 [(9999, 10), (3600000, 10)] ⟨Nat.zero_le _, by decide, trivial⟩ 10000 3610000 (by decide)

/-- In an hour that starts inside a slot more than the budget is admitted. -/
theorem airtime_hour_crossed :
    10 < (run (airtimeCall 10) {} [(9999, 10), (3600000, 10)]).between 9999 (9999 + 3600000) := by
  decide +kernel

end Melodi
