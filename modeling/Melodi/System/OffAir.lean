import Melodi.System.Accounting
import Melodi.System.Entries

/-!
# A cancelled frame stays off the air

The worker of the queue lets go of the lock while its entry is at the transport. A cancellation that runs meanwhile
cannot take the entry away: it sets a flag, which the worker reads the next time it holds the entry.

* `cancelled_off_air` : from the moment an entry is flagged or gone, it is not passed to the transport any more, and it
  leaves the table exactly once.
-/

namespace Melodi
open Lib
variable {e : TxEntry} {writes : TxEntry → Prop} {q q' : TxQueue}

def TxQueue.holds (q : TxQueue) (n : Nat) : Bool := (q.entries.find? (·.sequence = n)).isSome

/-- The entry number `n` was given, and if it is still in the queue it is cancelled. -/
structure Sunk (q : TxQueue) (n : Nat) : Prop where
  given : n ≤ q.queueSequence
  flagged : ∀ i e, q.entries i = some e → e.sequence = n → e.cancelled = true

instance (q : TxQueue) (n : Nat) : Decidable (Sunk q n) :=
  decidable_of_iff (n ≤ q.queueSequence ∧ ∀ i, ∀ e ∈ q.entries i, e.sequence = n → e.cancelled = true)
    ⟨fun h => ⟨h.1, fun i e he => h.2 i e he⟩, fun h => ⟨h.given, fun i e he => h.flagged i e he⟩⟩

def QueueState.airing (s : QueueState) : Option Nat :=
  match s.work with
  | some (.transmitting i _ _) => (s.queue.entries i).map (·.sequence)
  | _ => none

theorem TxQueue.holds_iff {n : Nat} : q.holds n = true ↔ ∃ i e, q.entries i = some e ∧ e.sequence = n := by
  unfold TxQueue.holds
  constructor
  · intro h
    obtain ⟨i, hi⟩ := Option.isSome_iff_exists.mp h
    obtain ⟨e, he, hn⟩ := Table.find?_some hi
    exact ⟨i, e, he, of_decide_eq_true hn⟩
  · rintro ⟨i, e, he, hn⟩
    by_contra hnone
    rw [Option.not_isSome_iff_eq_none] at hnone
    exact absurd (Table.find?_none hnone he) (by simp [hn])

theorem Sequenced.removed (h : Sequenced q) {i : Fin TX_QUEUE_LIMIT} (he : q.entries i = some e)
    (hsub : ∀ j e', q'.entries j = some e' → ∃ e₀, q.entries j = some e₀ ∧ e₀.Tended e') (hfree : q'.entries i = none) :
    q'.holds e.sequence = false := by
  by_contra hholds
  obtain ⟨j, e', he', hn⟩ := TxQueue.holds_iff.mp (Bool.not_eq_false _ ▸ hholds)
  obtain ⟨e₀, he₀, ht⟩ := hsub j e' he'
  have hji : j = i := h.keyed j i e₀ e he₀ he (ht.sequence.symm.trans hn)
  rw [hji, hfree] at he'
  cases he'

theorem Sequenced.remove (h : Sequenced q) {i : Fin TX_QUEUE_LIMIT} (he : q.entries i = some e) :
    (queueRemoveLocked q i).holds e.sequence = false := by
  refine h.removed he (fun j e' he' => ?_) (by rw [queueRemoveLocked_entries, Table.clear_self])
  rw [queueRemoveLocked_entries, Table.clear_eq_some] at he'
  exact ⟨e', he'.2, TxEntry.Tended.refl e'⟩

theorem Moved.sunk (h : Moved writes q q') {n : Nat} (hsunk : Sunk q n) :
    Sunk q' n := by
  refine ⟨hsunk.given.trans h.sequence, fun j e' he' hn => ?_⟩
  rcases h.slot j e' he' with ⟨e, he, ht⟩ | ⟨hlt, -⟩
  · exact ht.cancelled (hsunk.flagged j e he (ht.sequence.symm.trans hn))
  · exact absurd hsunk.given (by omega)

theorem Moved.gone (h : Moved writes q q') {n : Nat} (hgiven : n ≤ q.queueSequence) (hgone : q.holds n = false) :
    q'.holds n = false := by
  by_contra hholds
  obtain ⟨j, e', he', hn⟩ := TxQueue.holds_iff.mp (Bool.not_eq_false _ ▸ hholds)
  rcases h.slot j e' he' with ⟨e, he, ht⟩ | ⟨hlt, -⟩
  · have := TxQueue.holds_iff.mpr ⟨j, e, he, ht.sequence.symm.trans hn⟩
    rw [hgone] at this
    cases this
  · omega

/-! ## One section -/

section
variable {siphash : Octets → UInt64} {s : QueueState} {n : Nat}

theorem airing_kept {s' : QueueState} (hheld : Held s) (hkept : FlightKept s.queue s'.queue)
    (hwork : s'.work = s.work) : s'.airing = s.airing := by
  unfold QueueState.airing
  rw [hwork]
  split
  · rename_i i durationUs admittedMs hw
    obtain ⟨e, he, hfly⟩ := hheld.entry hw
    obtain ⟨cancelled, notified, he'⟩ := hkept i e he hfly
    have hslot : s.queue.entries i = some e := he
    rw [he', hslot]
    rfl
  · rfl

theorem queueStep_airing (hheld : Held s) (a : QueueLabel) (h : (queueStep siphash s a).1.airing = some n) :
    s.airing = some n ∨ ∃ i e, s.queue.entries i = some e ∧ e.sequence = n ∧ e.cancelled = false := by
  by_cases ha : a.ofWorker = true
  · cases a with
    | select linkBusy guardMs =>
      change (workStep s (.select linkBusy guardMs)).1.airing = some n at h
      unfold workStep at h
      dsimp only at h
      split_ifs at h
      · exact .inl h
      · unfold QueueState.airing at h
        cases hi : (queueWorkSelect s.queue s.nowMs linkBusy guardMs).2.2 <;> simp [hi] at h
    | check valid =>
      change (workStep s (.check valid)).1.airing = some n at h
      unfold workStep at h
      dsimp only at h
      split at h
      · split at h
        · exact .inl h
        · split_ifs at h
          · cases h
          · split at h <;> cases h
      · exact .inl h
    | airtime answer =>
      change (workStep s (.airtime answer)).1.airing = some n at h
      unfold workStep at h
      dsimp only at h
      split at h
      · rename_i i hw
        split at h
        · exact .inl h
        rename_i e he
        rcases queueWorkAirtime_cases s.queue i e s.nowMs (coreAirtime answer) with
          ⟨-, hs⟩ | ⟨error, -, hs⟩ | ⟨c, -, hcancelled, -, hs⟩
        · rw [hs] at h
          cases h
        · rw [hs] at h
          cases h
        · dsimp only at hs
          generalize (!e.control && decide (e.metadata.destinationLocator = LINK_LOCATOR_BROADCAST)) = broadcast at hs
          obtain ⟨_, _, _, _, _, _, heq⟩ := queueAirtimeLocked_eq s.queue c broadcast s.nowMs
          rcases hs with ⟨-, hs⟩ | ⟨-, _, hs⟩ | ⟨error, -, hs⟩
          · rw [hs, heq] at h
            refine .inr ⟨i, e, he, ?_, hcancelled⟩
            unfold QueueState.airing at h
            dsimp only at h
            rw [he] at h
            exact Option.some.inj h
          · rw [hs] at h
            cases h
          · rw [hs] at h
            cases h
      · exact .inl h
    | finish result =>
      change (workStep s (.finish result)).1.airing = some n at h
      unfold workStep at h
      dsimp only at h
      split at h
      · split at h
        · exact .inl h
        · cases h
      · exact .inl h
    | _ => cases ha
  · obtain ⟨hkept, hwork, -⟩ := queueStep_kept siphash hheld (Bool.not_eq_true _ ▸ ha)
    exact .inl ((airing_kept hheld hkept hwork).symm.trans h)

theorem queueStep_sent (hheld : Held s) (hseq : Sequenced s.queue) (a : QueueLabel) {durationUs : Nat}
    (h : (queueStep siphash s a).2.sent = some (e, durationUs)) :
    s.airing = some e.sequence ∧ s.queue.holds e.sequence = true ∧
      (queueStep siphash s a).1.queue.holds e.sequence = false := by
  by_cases ha : a.ofWorker = true
  · cases a with
    | select linkBusy guardMs =>
      change (workStep s (.select linkBusy guardMs)).2.sent = _ at h
      unfold workStep at h
      dsimp only at h
      split_ifs at h
    | check valid =>
      change (workStep s (.check valid)).2.sent = _ at h
      unfold workStep at h
      dsimp only at h
      split at h
      · split at h
        · cases h
        · split_ifs at h
          split at h <;> cases h
      · cases h
    | airtime answer =>
      change (workStep s (.airtime answer)).2.sent = _ at h
      unfold workStep at h
      dsimp only at h
      split at h
      · split at h
        · cases h
        · split at h <;> cases h
      · cases h
    | finish result =>
      change (workStep s (.finish result)).2.sent = _ at h
      show s.airing = _ ∧ _ ∧ (workStep s (.finish result)).1.queue.holds _ = false
      unfold workStep at h ⊢
      dsimp only at h ⊢
      split at h
      · rename_i i duration admittedMs hw
        split at h
        · cases h
        rename_i e₀ he
        cases result with
        | error error => cases h
        | ok _ =>
          obtain ⟨rfl, -⟩ := Prod.mk.inj (Option.some.inj h)
          have hgone := hseq.remove he
          refine ⟨?_, TxQueue.holds_iff.mpr ⟨i, e₀, he, rfl⟩, ?_⟩
          · simp [QueueState.airing, hw, he]
          · obtain ⟨_, _, _, hcommit⟩ := queueCommit_eq (queueRemoveLocked s.queue i) e₀.control (decide (duration ≠ 0))
            show (queueCommit (queueRemoveLocked s.queue i) e₀.control (decide (duration ≠ 0))).holds _ = false
            rw [hcommit]
            exact hgone
      · cases h
    | _ => cases ha
  · obtain ⟨-, -, hsent⟩ := queueStep_kept siphash hheld (Bool.not_eq_true _ ▸ ha)
    rw [hsent] at h
    cases h

theorem check_drops (hseq : Sequenced s.queue) {i : Fin TX_QUEUE_LIMIT} (hw : s.work = some (.selected i))
    (he : s.queue.entries i = some e) (hcontrol : e.control = false) (hcancelled : e.cancelled = true)
    (valid : Except Errno Unit) : (queueStep siphash s (.check valid)).1.queue.holds e.sequence = false := by
  have hstep : (queueStep siphash s (.check valid)).1.queue =
      (queueCancelGroupLocked s.queue e.groupId (some i) .EACCES none).queue := by
    show (workStep s (.check valid)).1.queue = _
    simp [workStep, hw, he, hcontrol, queueWorkCheck, hcancelled]
  rw [hstep]
  obtain ⟨rep, hrep, hc⟩ := queueCancelGroupLocked_of he (some i) .EACCES none
  rw [hc]
  refine hseq.removed he (fun j e' he' => ?_) ?_
  · dsimp only at he'
    rw [cancelLoop_entries] at he'
    cases hj : s.queue.entries j with
    | none =>
      rw [hj] at he'
      cases he'
    | some e₀ =>
      rw [hj] at he'
      refine ⟨e₀, rfl, ?_⟩
      rcases cancelled_cases rep (some i) j e₀ with ⟨-, h⟩ | ⟨-, -, -, h⟩ | ⟨-, -, h⟩
      · rw [h] at he'
        exact Option.some.inj he' ▸ TxEntry.Tended.refl e₀
      · rw [h] at he'
        exact Option.some.inj he' ▸ ⟨rfl, fun _ => rfl⟩
      · rw [h] at he'
        cases he'
  · dsimp only
    rw [cancelLoop_entries, he]
    have hin : inGroup rep e = true := by simp [inGroup, hrep]
    rcases cancelled_cases rep (some i) i e with ⟨hout, -⟩ | ⟨-, -, hne, -⟩ | ⟨-, -, h⟩
    · rw [hin] at hout
      cases hout
    · exact absurd rfl hne
    · exact h

theorem airtime_drops (hseq : Sequenced s.queue) {i : Fin TX_QUEUE_LIMIT} (hw : s.work = some (.checked i))
    (he : s.queue.entries i = some e) (hcancelled : e.cancelled = true) (answer : Option (Except Errno AirtimeCharge)) :
    (queueStep siphash s (.airtime answer)).1.queue.holds e.sequence = false := by
  have hstep : (queueStep siphash s (.airtime answer)).1.queue = queueRemoveLocked s.queue i := by
    show (workStep s (.airtime answer)).1.queue = _
    unfold workStep
    rw [hw]
    dsimp only
    rw [he]
    dsimp only
    rcases queueWorkAirtime_cases s.queue i e s.nowMs (coreAirtime answer) with ⟨-, hs⟩ | ⟨error, -, hs⟩ | ⟨c, -, hc, -⟩
    · rw [hs]
    · rw [hs]
    · rw [hcancelled] at hc
      cases hc
  rw [hstep]
  exact hseq.remove he

theorem select_drops (hheld : Held s) (hseq : Sequenced s.queue) (hw : s.work = none) (hstop : s.queue.stopping = false)
    {i : Fin TX_QUEUE_LIMIT} (he : s.queue.entries i = some e) (hexpired : e.expiresMs ≤ s.nowMs) (linkBusy : Bool)
    (guardMs : Nat) :
    (queueStep siphash s (.select linkBusy guardMs)).1.queue.holds e.sequence = false := by
  have hstep : (queueStep siphash s (.select linkBusy guardMs)).1.queue =
      (queueWorkSelect s.queue s.nowMs linkBusy guardMs).1 := by
    show (workStep s (.select linkBusy guardMs)).1.queue = _
    simp [workStep, hw]
  rw [hstep]
  have hidle : e.inFlight = false := by
    have hi := hheld.idle hw i
    rw [inFlightAt, he] at hi
    exact hi
  have hexpire : Tends (fun _ => False) s.queue (queueExpireLocked s.queue s.nowMs).1 :=
    (queueExpireLocked_edits (K := (· = .entries)) rfl _ _).tends
  have hfree : (queueExpireLocked s.queue s.nowMs).1.entries i = none := by
    rw [queueExpireLocked_entries, he, unexpired, Option.filter_some, hidle]
    simp [hexpired]
  have hcases := queueWorkSelect_cases s.queue s.nowMs linkBusy guardMs
  generalize queueExpireLocked s.queue s.nowMs = expired at hexpire hfree hcases
  obtain ⟨hseq₁, hmoved⟩ := hexpire hseq
  have hgone : expired.1.holds e.sequence = false := by
    refine hseq.removed he (fun j e' he' => ?_) hfree
    rcases hmoved.slot j e' he' with h | ⟨-, _, hfalse, -⟩
    · exact h
    · exact hfalse.elim
  rcases hcases with ⟨h, -⟩ | ⟨-, guard, h | h⟩
  · rw [hstop] at h
    cases h
  · rw [h]
    exact hgone
  rw [h]
  have hguard : Tends (fun _ => False) expired.1 { expired.1 with guardUntilMs := guard } := .of_entries rfl rfl
  have hselect : Tends (fun _ => False) _ (queueSelect { expired.1 with guardUntilMs := guard } s.nowMs).1 :=
    (queueSelect_edits (K := fun _ => True) trivial trivial trivial _ _).tends
  exact ((hguard.trans hselect) hseq₁).2.gone ((hseq.le i e he).trans hmoved.sequence) hgone

end

/-! ## Every run -/

section
variable {k : Nat} (siphash : Fin k → Octets → UInt64) (i : Fin k) (n : Nat)

/-- What holds at every section after entry `n` was cancelled or removed. -/
structure OffAir (h : Host k) (x : Fin k × QueueLabel) : Prop where
  silent : ((hostStep siphash h x).at i).airing = some n → (h.at i).airing = some n
  checked : ∀ slot e valid, x = (i, .check valid) → (h.at i).work = some (.selected slot) →
    (h.at i).queue.entries slot = some e → e.sequence = n → e.control = false →
    ((hostStep siphash h x).at i).queue.holds n = false
  admitted : ∀ slot e answer, x = (i, .airtime answer) → (h.at i).work = some (.checked slot) →
    (h.at i).queue.entries slot = some e → e.sequence = n → ((hostStep siphash h x).at i).queue.holds n = false
  expired : ∀ slot e linkBusy guardMs, x = (i, .select linkBusy guardMs) → (h.at i).work = none →
    (h.at i).queue.stopping = false → (h.at i).queue.entries slot = some e → e.sequence = n →
    e.expiresMs ≤ (h.at i).nowMs → ((hostStep siphash h x).at i).queue.holds n = false
  handed : ∀ e durationUs, x.1 = i → (queueStep (siphash i) (h.at i) x.2).2.sent = some (e, durationUs) →
    e.sequence = n → (h.at i).airing = some n ∧ ((hostStep siphash h x).at i).queue.holds n = false

def departures (h : Host k) (xs : List (Fin k × QueueLabel)) : Nat :=
  (trace (fun h x => (hostStep siphash h x, (h.at i).queue.holds n && !((hostStep siphash h x).at i).queue.holds n)) h
    xs).2.count true

variable {siphash i n}

structure Tidy (s : QueueState) : Prop where
  held : Held s
  sequenced : Sequenced s.queue

theorem Moved.weaken (h : Moved writes q q') : Moved (fun _ => True) q q' where
  sequence := h.sequence
  slot j e' he' := by
    rcases h.slot j e' he' with hold | ⟨hlt, e, -, ht⟩
    · exact .inl hold
    · exact .inr ⟨hlt, e, trivial, ht⟩

theorem initial_tidy (k : Nat) (i : Fin k) : Tidy ((Host.initial k).at i) where
  held j := by
    show false = _
    simp [Host.at, Host.initial]
  sequenced := ⟨fun _ _ h => (nomatch h), Table.keyed_empty _⟩

theorem hostStep_tidy (siphash : Fin k → Octets → UInt64) {h : Host k} (ht : Tidy (h.at i)) (x : Fin k × QueueLabel) :
    Tidy ((hostStep siphash h x).at i) ∧ Moved (fun _ => True) (h.at i).queue ((hostStep siphash h x).at i).queue := by
  obtain ⟨j, a⟩ := x
  by_cases hj : j = i
  · subst hj
    rw [hostStep_at_self]
    obtain ⟨hseq, hmoved⟩ := queueStep_tends (siphash j) (h.at j) a ht.sequenced
    exact ⟨⟨queueStep_held (siphash j) ht.held a, hseq⟩, hmoved.weaken⟩
  · obtain ⟨ns, hat⟩ := hostStep_at_other siphash h hj a
    rw [hat]
    have hsame : Tends (fun _ => True) (h.at i).queue { (h.at i).queue with namespaces := ns } := .of_entries rfl rfl
    obtain ⟨hseq, hmoved⟩ := hsame ht.sequenced
    exact ⟨⟨ht.held, hseq⟩, hmoved⟩

theorem run_tidy (k : Nat) (siphash : Fin k → Octets → UInt64) (i : Fin k) (xs : List (Fin k × QueueLabel)) :
    Tidy ((run (hostStep siphash) (Host.initial k) xs).at i) :=
  run_invariant (hostStep siphash) (fun h => Tidy (h.at i)) (fun _ x ht => (hostStep_tidy siphash ht x).1)
    (initial_tidy k i) xs

theorem hostStep_offAir {h : Host k} (ht : Tidy (h.at i)) (hsunk : Sunk (h.at i).queue n) (x : Fin k × QueueLabel) :
    OffAir siphash i n h x where
  silent hair := by
    obtain ⟨j, a⟩ := x
    by_cases hj : j = i
    · subst hj
      rw [hostStep_at_self] at hair
      rcases queueStep_airing ht.held a hair with hair | ⟨slot, e, he, hn, hc⟩
      · exact hair
      · rw [hsunk.flagged slot e he hn] at hc
        cases hc
    · obtain ⟨ns, hat⟩ := hostStep_at_other siphash h hj a
      rw [hat] at hair
      exact hair
  checked slot e valid hx hw he hn hcontrol := by
    subst hx hn
    rw [hostStep_at_self]
    exact check_drops ht.sequenced hw he hcontrol (hsunk.flagged slot e he rfl) valid
  admitted slot e answer hx hw he hn := by
    subst hx hn
    rw [hostStep_at_self]
    exact airtime_drops ht.sequenced hw he (hsunk.flagged slot e he rfl) answer
  expired slot e linkBusy guardMs hx hw hstop he hn hexpired := by
    subst hx hn
    rw [hostStep_at_self]
    exact select_drops ht.held ht.sequenced hw hstop he hexpired linkBusy guardMs
  handed e durationUs hx hsent hn := by
    obtain ⟨j, a⟩ := x
    subst hx hn
    rw [hostStep_at_self]
    obtain ⟨hair, -, hgone⟩ := queueStep_sent ht.held ht.sequenced a hsent
    exact ⟨hair, hgone⟩

/-! ### Departures -/

theorem departures_cons (h : Host k) (x : Fin k × QueueLabel) (xs : List (Fin k × QueueLabel)) :
    departures siphash i n h (x :: xs) =
      (if (h.at i).queue.holds n && !((hostStep siphash h x).at i).queue.holds n then 1 else 0) +
        departures siphash i n (hostStep siphash h x) xs := by
  unfold departures
  rw [trace_cons, List.count_cons, Nat.add_comm]
  simp

theorem departures_append (h : Host k) (xs ys : List (Fin k × QueueLabel)) :
    departures siphash i n h (xs ++ ys) =
      departures siphash i n h xs + departures siphash i n (run (hostStep siphash) h xs) ys := by
  induction xs generalizing h with
  | nil => simp [departures]
  | cons x xs ih => rw [List.cons_append, departures_cons, departures_cons, ih, run_cons, Nat.add_assoc]

theorem departures_gone (siphash : Fin k → Octets → UInt64) {h : Host k} (ht : Tidy (h.at i))
    (hgiven : n ≤ (h.at i).queue.queueSequence)
    (hgone : (h.at i).queue.holds n = false) (xs : List (Fin k × QueueLabel)) :
    ((run (hostStep siphash) h xs).at i).queue.holds n = false ∧ departures siphash i n h xs = 0 := by
  induction xs generalizing h with
  | nil => exact ⟨hgone, rfl⟩
  | cons x xs ih =>
    obtain ⟨ht', hmoved⟩ := hostStep_tidy siphash ht x
    obtain ⟨hend, hzero⟩ := ih ht' (hgiven.trans hmoved.sequence) (hmoved.gone hgiven hgone)
    refine ⟨hend, ?_⟩
    rw [departures_cons, hzero, hgone]
    rfl

theorem departures_present {h : Host k} (ht : Tidy (h.at i)) (hin : (h.at i).queue.holds n = true)
    (xs : List (Fin k × QueueLabel)) :
    departures siphash i n h xs = if ((run (hostStep siphash) h xs).at i).queue.holds n then 0 else 1 := by
  induction xs generalizing h with
  | nil =>
    rw [run_nil, hin]
    rfl
  | cons x xs ih =>
    obtain ⟨ht', hmoved⟩ := hostStep_tidy siphash ht x
    obtain ⟨slot, e, he, hn⟩ := TxQueue.holds_iff.mp hin
    have hgiven : n ≤ (h.at i).queue.queueSequence := hn ▸ ht.sequenced.le slot e he
    rw [departures_cons, run_cons, hin]
    cases hnext : ((hostStep siphash h x).at i).queue.holds n with
    | true => simp [ih ht' hnext]
    | false =>
      obtain ⟨hend, hzero⟩ := departures_gone siphash ht' (hgiven.trans hmoved.sequence) hnext xs
      rw [hend, hzero]
      rfl

theorem departures_before {h : Host k} (ht : Tidy (h.at i)) (xs : List (Fin k × QueueLabel))
    (hin : ((run (hostStep siphash) h xs).at i).queue.holds n = true) : departures siphash i n h xs = 0 := by
  induction xs generalizing h with
  | nil => rfl
  | cons x xs ih =>
    obtain ⟨ht', hmoved⟩ := hostStep_tidy siphash ht x
    rw [departures_cons, ih ht' hin]
    cases hhere : (h.at i).queue.holds n with
    | false => rfl
    | true =>
      cases hnext : ((hostStep siphash h x).at i).queue.holds n with
      | true => rfl
      | false =>
        obtain ⟨slot, e, he, hn⟩ := TxQueue.holds_iff.mp hhere
        have hgiven : n ≤ (h.at i).queue.queueSequence := hn ▸ ht.sequenced.le slot e he
        obtain ⟨hend, -⟩ := departures_gone siphash ht' (hgiven.trans hmoved.sequence) hnext xs
        rw [run_cons, hend] at hin
        cases hin

/-- An entry that was cancelled or removed is not handed to the transport by any later section. -/
theorem cancelled_off_air (k : Nat) (siphash : Fin k → Octets → UInt64) (i : Fin k)
    (xs ys zs : List (Fin k × QueueLabel))
    (n : Nat) (hin : ((run (hostStep siphash) (Host.initial k) xs).at i).queue.holds n = true)
    (hsunk : Sunk ((run (hostStep siphash) (Host.initial k) (xs ++ ys)).at i).queue n) :
    Along (hostStep siphash) (fun h x => Sunk (h.at i).queue n ∧ OffAir siphash i n h x)
        (run (hostStep siphash) (Host.initial k) (xs ++ ys)) zs ∧
      departures siphash i n (Host.initial k) (xs ++ ys ++ zs) =
        if ((run (hostStep siphash) (Host.initial k) (xs ++ ys ++ zs)).at i).queue.holds n then 0 else 1 := by
  have ht : Tidy ((run (hostStep siphash) (Host.initial k) (xs ++ ys)).at i) := run_tidy k siphash i (xs ++ ys)
  refine ⟨?_, ?_⟩
  · refine along_invariant (hostStep siphash) (fun h => Tidy (h.at i) ∧ Sunk (h.at i).queue n) ?_ ?_ ⟨ht, hsunk⟩ zs
    · rintro h x ⟨ht, hsunk⟩
      obtain ⟨ht', hmoved⟩ := hostStep_tidy siphash ht x
      exact ⟨ht', hmoved.sunk hsunk⟩
    · rintro h x ⟨ht, hsunk⟩
      exact ⟨hsunk, hostStep_offAir ht hsunk x⟩
  · rw [List.append_assoc, departures_append, departures_before (initial_tidy k i) xs hin, Nat.zero_add,
      departures_present (run_tidy k siphash i xs) hin, ← run_append]

namespace Scenario

def queued : List (Fin 1 × QueueLabel) :=
  [(.last 0, .start),
    (.last 0, .send true 0 [[1]] { destinationLocator := 2 } { ttlMs := 1000, service := 5 } true (.ok ()))]

def recalled : List (Fin 1 × QueueLabel) :=
  [(.last 0, .select false 0), (.last 0, .check (.ok ())), (.last 0, .airtime none), (.last 0, .stateChanged {})]

def retried : List (Fin 1 × QueueLabel) :=
  [(.last 0, .finish (.error .EAGAIN)), (.last 0, .tick 200), (.last 0, .select false 0), (.last 0, .check (.ok ()))]

end Scenario

open Scenario

theorem cancelled_off_air_recalled :
    ((run (hostStep (fun _ _ => 0)) (Host.initial 1) (queued ++ recalled)).at 0).airing = some 1 ∧
      departures (fun _ _ => 0) 0 1 (Host.initial 1) (queued ++ recalled ++ retried) = 1 := by
  refine ⟨by decide +kernel, ?_⟩
  have h := (cancelled_off_air 1 (fun _ _ => 0) 0 queued recalled retried 1 (by decide +kernel) (by decide +kernel)).2
  exact h.trans (by decide +kernel)

end
end Melodi
