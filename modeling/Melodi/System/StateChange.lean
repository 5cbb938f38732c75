import Melodi.Lib.Loop
import Melodi.Core.QueueEffects
import Melodi.Core.PendingEffects
import Melodi.System.Node

/-!
# After the policy or a session changed

`melodi_queue_state_changed` and `melodi_data_state_changed` drop one violator, unlock to report it, and start again
from the first slot.

* `state_changed_settles` : both hold when the two functions have returned.

Control frames are sent whatever the policy says: no check is made of them (`control_entry_not_checked`).
-/

namespace Melodi
open Lib Scenario
variable {d : Device} {nowMs : Nat} {o : Notice} {t t' : Transmit}
variable {clock : Nat → Nat} {s s' : Nat × Transmit}

/-! ## The loops -/

def dataLoopPass (d : Device) (clock : Nat → Nat) (s : Nat × Transmit) : Option ((Nat × Transmit) × Notice) :=
  (dataStatePass d (clock s.1) s.2).map fun r => ((s.1 + 1, r.1), r.2)

/-- `melodi_queue_state_changed` and then `melodi_data_state_changed` have returned, with no operation in between; the
clock last read `nowMs`. -/
def StateChanged (d : Device) (clock : Nat → Nat) (t t' : Transmit) (nowMs : Nat) : Prop :=
  ∃ t₁ notices notices' k, Loops (queueStatePass d) t notices t₁ ∧
    Loops (dataLoopPass d clock) (0, t₁) notices' (k, t') ∧ nowMs = clock k

/-- Everything that waits passes the check of the present policy and sessions. -/
structure Settled (d : Device) (nowMs : Nat) (t : Transmit) : Prop where
  reservations : ∀ i r, t.queue.reservations i = some r → reservationValidLocked d r = .ok ()
  entries : ∀ i e, t.queue.entries i = some e → e.control = false → e.cancelled = false → entryValidLocked d e = .ok ()
  pending : ∀ i p, t.pending i = some p → pendingValidLocked d nowMs p = .ok ()
  discovery : ∀ i p, t.discovery.pending i = some p → p.inFlight = false →
    policyCheckMessageLocked d p.destination p.destinationService false = .ok ()

/-- What the worker has in its hands is neither removed nor changed beside its flags. -/
def Flagged (t t' : Transmit) : Prop :=
  ∀ i e, t.queue.entries i = some e → e.inFlight = true →
    ∃ cancelled notified, t'.queue.entries i = some { e with cancelled := cancelled, terminalNotified := notified } ∧
      (e.cancelled = true → cancelled = true)

/-! ## What a pass does -/

/-- A pass of the first loop: a reservation goes, or a group of entries is cancelled. -/
inductive QueuePasses (d : Device) (t t' : Transmit) : Prop where
  | reservation (i : Fin TX_RESERVATION_LIMIT) (r : TxReservation) (hr : t.queue.reservations i = some r)
      (hq : t'.queue = reservationRemoveLocked t.queue i)
  | group (i : Fin TX_QUEUE_LIMIT) (e rep : TxEntry) (he : t.queue.entries i = some e) (hlive : e.cancelled = false)
      (hrep : rep.groupId = e.groupId)
      (hq : t'.queue = (List.finRange TX_QUEUE_LIMIT).foldl (cancelSlot rep none) t.queue)

theorem queueStatePass_some {o : Option Notice} (h : queueStatePass d t = some (t', o)) :
    QueuePasses d t t' := by
  unfold queueStatePass at h
  split at h
  · rename_i i r e hi
    obtain ⟨rfl, -⟩ := Prod.mk.inj (Option.some.inj h)
    exact .reservation i r (firstInvalid_some hi).1 rfl
  split at h
  · cases h
  rename_i i entry e hi
  obtain ⟨hentry, hcheck⟩ := firstInvalid_some hi
  have hlive : entry.cancelled = false := by
    by_contra hc
    simp [entryStateCheck, Bool.not_eq_false _ ▸ hc] at hcheck
  obtain ⟨rep, hrep, hc⟩ := queueCancelGroupLocked_of hentry none e none
  rw [hc] at h
  simp only [if_true, Option.some.injEq, Prod.mk.injEq] at h
  exact .group i entry rep hentry hlive hrep (by rw [← h.1, cancelGroup_queue])

theorem queueStatePass_none (h : queueStatePass d t = none) :
    (∀ i r, t.queue.reservations i = some r → reservationValidLocked d r = .ok ()) ∧
      ∀ i e, t.queue.entries i = some e → e.control = false → e.cancelled = false → entryValidLocked d e = .ok () := by
  unfold queueStatePass at h
  split at h
  · cases h
  rename_i hres
  refine ⟨fun i r hr => firstInvalid_none hres hr, ?_⟩
  split at h
  · rename_i hent
    intro i e he hcontrol hlive
    have hcheck := firstInvalid_none hent he
    simpa [entryStateCheck, hcontrol, hlive] using hcheck
  · rename_i i entry e hi
    -- the group of a violator has a representative, so its cancellation changes something
    obtain ⟨rep, -, hc⟩ := queueCancelGroupLocked_of (firstInvalid_some hi).1 none e none
    rw [hc] at h
    cases h

/-- A pass of the second loop: a pending message or one in the discovery queue goes. -/
inductive DataPasses (t t' : Transmit) : Prop where
  | pending (i : Fin PENDING_LIMIT) (p : PendingMessage) (hp : t.pending i = some p)
      (ht : t' = { t with pending := t.pending.clear i })
  | discovery (i : Fin DISCOVERY_PENDING_LIMIT) (p : DiscoveryPending) (hp : t.discovery.pending i = some p)
      (ht : t' = { t with discovery := discoveryPendingClear t.discovery i })

theorem dataStatePass_some (h : dataStatePass d nowMs t = some (t', o)) : DataPasses t t' := by
  unfold dataStatePass at h
  split at h
  · rename_i i p e hi
    obtain ⟨rfl, -⟩ := Prod.mk.inj (Option.some.inj h)
    exact .pending i p (firstInvalid_some hi).1 rfl
  split at h
  · rename_i i p e hi
    obtain ⟨rfl, -⟩ := Prod.mk.inj (Option.some.inj h)
    exact .discovery i p (firstInvalid_some hi).1 rfl
  · cases h

theorem dataStatePass_none (h : dataStatePass d nowMs t = none) :
    (∀ i p, t.pending i = some p → pendingValidLocked d nowMs p = .ok ()) ∧
      ∀ i p, t.discovery.pending i = some p → p.inFlight = false →
        policyCheckMessageLocked d p.destination p.destinationService false = .ok () := by
  unfold dataStatePass at h
  split at h
  · cases h
  rename_i hpend
  refine ⟨fun i p hp => firstInvalid_none hpend hp, ?_⟩
  split at h
  · cases h
  rename_i hdisc
  intro i p hp hfly
  have hcheck := firstInvalid_none hdisc hp
  simpa [discoveryStateCheck, hfly] using hcheck

/-! ## The loops end -/

def queueLeft (t : Transmit) : Nat :=
  t.queue.reservations.sum (fun _ => 1) + t.queue.entries.sum fun e => if e.cancelled then 0 else 1

def dataLeft (t : Transmit) : Nat := t.pending.sum (fun _ => 1) + t.discovery.pending.sum fun _ => 1

theorem weight_cancelled_le (rep : TxEntry) (owned : Option (Fin TX_QUEUE_LIMIT)) (i : Fin TX_QUEUE_LIMIT)
    (o : Option TxEntry) :
    Table.weight (fun e : TxEntry => if e.cancelled then 0 else 1) (cancelled rep owned i o) ≤
      Table.weight (fun e : TxEntry => if e.cancelled then 0 else 1) o := by
  cases o with
  | none => exact Nat.le_refl _
  | some e =>
    rcases cancelled_cases rep owned i e with ⟨-, h⟩ | ⟨-, -, -, h⟩ | ⟨-, -, h⟩ <;> simp [h]

theorem cancelLoop_left_lt {q : TxQueue} {i : Fin TX_QUEUE_LIMIT} {e rep : TxEntry} (he : q.entries i = some e)
    (hlive : e.cancelled = false) (hrep : rep.groupId = e.groupId) :
    (((List.finRange TX_QUEUE_LIMIT).foldl (cancelSlot rep none) q).entries.sum
      fun e => if e.cancelled then 0 else 1) < q.entries.sum fun e => if e.cancelled then 0 else 1 := by
  refine Table.sum_lt_sum (k := i) (fun j => ?_) ?_
  · rw [cancelLoop_entries]
    exact weight_cancelled_le rep none j _
  rw [cancelLoop_entries, he]
  have hin : inGroup rep e = true := by simp [inGroup, hrep]
  rcases cancelled_cases rep none i e with ⟨hout, -⟩ | ⟨-, -, -, h⟩ | ⟨-, -, h⟩
  · rw [hin] at hout
    cases hout
  · simp [h, hlive]
  · simp [h, hlive]

theorem queueStatePass_lt (t t' : Transmit) (o : Option Notice) (h : queueStatePass d t = some (t', o)) :
    queueLeft t' < queueLeft t := by
  unfold queueLeft
  cases queueStatePass_some h with
  | reservation i r hr hq =>
    rw [hq, reservationRemoveLocked_entries, reservationRemoveLocked_reservations]
    have hsum := Table.sum_clear t.queue.reservations i fun _ => 1
    rw [hr, Table.weight_some] at hsum
    omega
  | group i e rep he hlive hrep hq =>
    rw [hq, cancelLoop_reservations]
    exact Nat.add_lt_add_left (cancelLoop_left_lt he hlive hrep) _

theorem dataStatePass_lt (t t' : Transmit) (o : Notice) (h : dataStatePass d nowMs t = some (t', o)) :
    dataLeft t' < dataLeft t := by
  unfold dataLeft
  cases dataStatePass_some h with
  | pending i p hp ht =>
    have hsum := Table.sum_clear t.pending i fun _ => 1
    rw [hp, Table.weight_some] at hsum
    subst ht
    dsimp only
    omega
  | discovery i p hp ht =>
    have hsum := Table.sum_clear t.discovery.pending i fun _ => 1
    rw [hp, Table.weight_some] at hsum
    subst ht
    dsimp only
    rw [discoveryPendingClear_pending]
    omega

theorem dataLoopPass_some (h : dataLoopPass d clock s = some (s', o)) :
    dataStatePass d (clock s.1) s.2 = some (s'.2, o) := by
  obtain ⟨r, hr, heq⟩ := Option.map_eq_some_iff.mp h
  cases heq
  exact hr

theorem dataLoopPass_queue (h : dataLoopPass d clock s = some (s', o)) : s'.2.queue = s.2.queue := by
  cases dataStatePass_some (dataLoopPass_some h) with
  | pending i p hp ht => rw [ht]
  | discovery i p hp ht => rw [ht]

theorem stateChanged_exists (d : Device) (clock : Nat → Nat) (t : Transmit) :
    ∃ t' nowMs, StateChanged d clock t t' nowMs := by
  obtain ⟨notices, t₁, hqueue⟩ := Loops.exists_of_measure queueLeft queueStatePass_lt t
  have hless : ∀ s s₁ o, dataLoopPass d clock s = some (s₁, o) → dataLeft s₁.2 < dataLeft s.2 :=
    fun s s₁ o h => dataStatePass_lt s.2 s₁.2 o (dataLoopPass_some h)
  obtain ⟨notices', s, hdata⟩ := Loops.exists_of_measure (fun s => dataLeft s.2) hless (0, t₁)
  exact ⟨s.2, clock s.1, t₁, notices, notices', s.1, hqueue, hdata, rfl⟩

/-! ## What they leave -/

theorem Flagged.refl (t : Transmit) : Flagged t t := fun _ e he _ => ⟨e.cancelled, e.terminalNotified, he, id⟩

theorem Flagged.trans {t₁ t₂ t₃ : Transmit} (h₁ : Flagged t₁ t₂) (h₂ : Flagged t₂ t₃) : Flagged t₁ t₃ := by
  intro i e he hfly
  obtain ⟨c, n, he', hc⟩ := h₁ i e he hfly
  obtain ⟨c', n', he'', hc'⟩ := h₂ i _ he' hfly
  exact ⟨c', n', he'', fun h => hc' (hc h)⟩

theorem queueStatePass_flagged {o : Option Notice} (h : queueStatePass d t = some (t', o)) :
    Flagged t t' := by
  intro i e he hfly
  cases queueStatePass_some h with
  | reservation j r hr hq =>
    rw [hq, reservationRemoveLocked_entries]
    exact Flagged.refl t i e he hfly
  | group j e₀ rep he₀ hlive hrep hq =>
    rw [hq, cancelLoop_entries, he]
    rcases cancelled_cases rep none i e with ⟨-, hc⟩ | ⟨-, -, -, hc⟩ | ⟨-, hc, -⟩
    · rw [hc]
      exact ⟨e.cancelled, e.terminalNotified, rfl, id⟩
    · rw [hc]
      exact ⟨true, true, rfl, fun _ => rfl⟩
    · simp [hfly] at hc

/-- Both functions return, from every state and after every control operation, and what they leave passes the check or
is a control frame; what was in flight and fails it is flagged. -/
theorem state_changed_settles (P : Platform) (d : Device) (c : Control) (clock : Nat → Nat) (t : Transmit) :
    (∃ t' nowMs, StateChanged (controlStep P d c) clock t t' nowMs) ∧
    ∀ t' nowMs, StateChanged (controlStep P d c) clock t t' nowMs →
      Settled (controlStep P d c) nowMs t' ∧ Flagged t t' ∧
      ∀ i e, t'.queue.entries i = some e → e.control = false → entryValidLocked (controlStep P d c) e ≠ .ok () →
        e.cancelled = true := by
  refine ⟨stateChanged_exists _ clock t, ?_⟩
  rintro t' nowMs ⟨t₁, notices, notices', k, hqueue, hdata, rfl⟩
  have hkeeps : t'.queue = t₁.queue := hdata.induct (fun s s' => s'.2.queue = s.2.queue) (fun _ => rfl)
    fun s s₁ s' o hp h => h.trans (dataLoopPass_queue hp)
  have hflag : Flagged t t₁ := hqueue.induct Flagged Flagged.refl
    fun s s₁ s' o hp h => (queueStatePass_flagged hp).trans h
  obtain ⟨hres, hent⟩ := queueStatePass_none hqueue.done
  obtain ⟨hpend, hdisc⟩ := dataStatePass_none (Option.map_eq_none_iff.mp hdata.done)
  rw [← hkeeps] at hres hent
  refine ⟨⟨hres, hent, hpend, hdisc⟩, fun i e he hfly => hkeeps ▸ hflag i e he hfly, fun i e he hcontrol hbad => ?_⟩
  by_contra hlive
  exact hbad (hent i e he hcontrol (Bool.not_eq_true _ ▸ hlive))

namespace Scenario

def blocking : Device :=
  controlStep Platform.plain (run (step Platform.plain) Node.initial established).dev (.policyPeer there .BLOCKED)

def controlWaits : Transmit :=
  { queue := (coreSend (queueStart {}) true 0 [1] { sourceLocator := 1, destinationLocator := 2 } 0 true).1 }

end Scenario

/-- A control frame that waits names no destination and no generation, so it fails the check of data entries, before the
block as after it. Both functions leave it in the queue unflagged. -/
theorem control_entry_not_checked :
    StateChanged blocking (fun _ => 0) controlWaits controlWaits 0 ∧
      ∃ i e, controlWaits.queue.entries i = some e ∧ e.cancelled = false ∧
        entryValidLocked blocking e ≠ .ok () := by
  have hqueue : (queueStatePass blocking controlWaits).isNone = true := by decide +kernel
  have hdata : (dataLoopPass blocking (fun _ => 0) (0, controlWaits)).isNone = true := by decide +kernel
  have hentry : (controlWaits.queue.entries.find? fun e => !e.cancelled &&
      (errorOf (entryValidLocked blocking e)).isSome).isSome = true := by decide +kernel
  refine ⟨⟨_, [], [], 0, .stop (Option.isNone_iff_eq_none.mp hqueue), .stop (Option.isNone_iff_eq_none.mp hdata), rfl⟩,
    ?_⟩
  obtain ⟨i, hi⟩ := Option.isSome_iff_exists.mp hentry
  obtain ⟨e, he, htest⟩ := Table.find?_some hi
  simp only [Bool.and_eq_true, Bool.not_eq_true'] at htest
  refine ⟨i, e, he, htest.1, fun hok => ?_⟩
  rw [hok] at htest
  cases htest.2

end Melodi
