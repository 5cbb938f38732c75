import Melodi.Core.Pending
import Melodi.Core.QueueEffects

/-!
# The writes of the functions of the queue

Beside the functions that add records, a function of `queue.c` is a sequence of a few writes. `Edits` lists them, each
under its kind, and says of a function which kinds it uses. What a kind leaves alone is then shown once for each write
and not for each function.
-/

namespace Melodi
open Lib
variable {i : Fin TX_QUEUE_LIMIT} {e e' : TxEntry} {v v' : TxReservation} {q q' : TxQueue}

/-! ## Records that stay -/

/-- What a section may change of an entry: its flags and its wait. A cancellation stays. -/
structure TxEntry.Tended (e e' : TxEntry) : Prop where
  same : e' = { e with
    cancelled := e'.cancelled, terminalNotified := e'.terminalNotified, inFlight := e'.inFlight
    deferUntilMs := e'.deferUntilMs }
  cancelled : e.cancelled = true → e'.cancelled = true

theorem TxEntry.Tended.refl (e : TxEntry) : e.Tended e := ⟨rfl, id⟩

theorem TxEntry.Tended.trans {e'' : TxEntry} (h₁ : e.Tended e') (h₂ : e'.Tended e'') : e.Tended e'' := by
  refine ⟨?_, fun h => h₂.cancelled (h₁.cancelled h)⟩
  have h := h₂.same
  rw [h₁.same] at h
  exact h

theorem TxEntry.Tended.sequence (h : e.Tended e') : e'.sequence = e.sequence := by
  rw [h.same]

def TxEntry.Flagged (e e' : TxEntry) : Prop :=
  e' = { e with cancelled := e'.cancelled, terminalNotified := e'.terminalNotified }

def TxReservation.Noted (v v' : TxReservation) : Prop :=
  v' = { v with tag := v'.tag, pendingReserved := v'.pendingReserved, claimed := v'.claimed, sealed := v'.sealed }

theorem TxReservation.Noted.refl (v : TxReservation) : v.Noted v := rfl

theorem TxReservation.Noted.trans {v'' : TxReservation} (h₁ : v.Noted v') (h₂ : v'.Noted v'') : v.Noted v'' := by
  have h : v'' = _ := h₂
  rw [h₁] at h
  exact h

def inFlightAt (q : TxQueue) (i : Fin TX_QUEUE_LIMIT) : Bool := (q.entries i).any (·.inFlight)

/-! ## Writes -/

/-- What is written. `flight` are the writes to an entry in flight that only the worker makes. -/
inductive EditKind where
  | entries
  | flight
  | drops
  | notes
  | turns
  | windows
  | burst

/-- The queue changes by writes of the kinds `K` only. -/
inductive Edits (K : EditKind → Prop) : TxQueue → TxQueue → Prop where
  | remove {q : TxQueue} {i : Fin TX_QUEUE_LIMIT} (hk : K .entries) (hflight : K .flight ∨ inFlightAt q i = false) :
      Edits K q (queueRemoveLocked q i)
  | tend {q : TxQueue} {i : Fin TX_QUEUE_LIMIT} {e e' : TxEntry} (hk : K .entries) (he : q.entries i = some e)
      (ht : e.Tended e')
      (hflight : K .flight ∨ e.Flagged e') : Edits K q (entryUpdate q i e')
  | drop {q : TxQueue} (hk : K .drops) (j : Fin TX_RESERVATION_LIMIT) : Edits K q (reservationRemoveLocked q j)
  | note {q : TxQueue} {j : Fin TX_RESERVATION_LIMIT} {v v' : TxReservation} (hk : K .notes)
      (hv : q.reservations j = some v)
      (hn : v.Noted v') (hpending : v'.pendingReserved = v.pendingReserved) : Edits K q (reservationUpdate q j v')
  | take {q : TxQueue} {j : Fin TX_RESERVATION_LIMIT} {v : TxReservation} (hk : K .notes)
      (hv : q.reservations j = some v)
      (hpending : v.pendingReserved = true) :
      Edits K q
        { (reservationUpdate q j { v with pendingReserved := false }) with pendingReserved := q.pendingReserved - 1 }
  | turn {q q' : TxQueue} (hk : K .turns) (h : SameFrames q q') : Edits K q q'
  | window (q : TxQueue) (hk : K .windows) (budget broadcastBudget : Nat) (a b a' b' : AirtimeWindow) :
      Edits K q { q with
        airtimeBudgetUs := budget, broadcastBudgetUs := broadcastBudget, airtime := a, broadcastAirtime := b
        airtimeAfter := a', broadcastAfter := b' }
  | burst (q : TxQueue) (hk : K .burst) (controlBurst : Nat) : Edits K q { q with controlBurst := controlBurst }
  | rest (q : TxQueue) (guardUntilMs : Nat) (stopping : Bool) :
      Edits K q { q with guardUntilMs := guardUntilMs, stopping := stopping }
  | trans {q q' q'' : TxQueue} (h₁ : Edits K q q') (h₂ : Edits K q' q'') : Edits K q q''

variable {K : EditKind → Prop}

theorem Edits.refl (q : TxQueue) : Edits K q q := .rest q q.guardUntilMs q.stopping

theorem Edits.foldl {α σ : Type} (get : σ → TxQueue) {f : σ → α → σ} (hf : ∀ s a, Edits K (get s) (get (f s a)))
    (as : List α) (s : σ) : Edits K (get s) (get (as.foldl f s)) := by
  induction as generalizing s with
  | nil => exact .refl _
  | cons a as ih => exact (hf s a).trans (ih (f s a))

/-! ### Entries -/

theorem queueCancelGroupLocked_edits (hk : K .entries) (q : TxQueue) (groupId : Nat)
    {owned : Option (Fin TX_QUEUE_LIMIT)}
    (hflight : K .flight ∨ owned = none) (error : Errno) (notice : Option Notice) :
    Edits K q (queueCancelGroupLocked q groupId owned error notice).queue := by
  unfold queueCancelGroupLocked
  split
  · exact .refl q
  dsimp only
  refine Edits.foldl (fun q => q) (fun q i => ?_) _ q
  unfold cancelSlot
  split
  · exact .refl q
  rename_i e he
  split_ifs with hgroup hfly
  · exact .refl q
  · exact .tend hk he ⟨rfl, fun _ => rfl⟩ (.inr rfl)
  refine .remove hk (hflight.imp_right fun hnone => ?_)
  rw [inFlightAt, he]
  simpa [hnone] using hfly

theorem queueStatePass_edits (hk : K .entries) (hd : K .drops) {d : Device} {t t' : Transmit} {notice : Option Notice}
    (h : queueStatePass d t = some (t', notice)) : Edits K t.queue t'.queue := by
  unfold queueStatePass at h
  split at h
  · obtain ⟨rfl, -⟩ := Prod.mk.inj (Option.some.inj h)
    exact .drop hd _
  split at h
  · cases h
  dsimp only at h
  split_ifs at h
  obtain ⟨rfl, -⟩ := Prod.mk.inj (Option.some.inj h)
  exact queueCancelGroupLocked_edits hk _ _ (.inr rfl) _ _

theorem queueExpireLocked_edits (hk : K .entries) (q : TxQueue) (nowMs : Nat) :
    Edits K q (queueExpireLocked q nowMs).1 := by
  refine Edits.foldl Prod.fst (fun s i => ?_) _ (q, none)
  unfold expireSlot
  split
  · exact .refl s.1
  rename_i e he
  split_ifs with hexpired
  · refine .remove hk (.inr ?_)
    rw [inFlightAt, he]
    simp only [Bool.and_eq_true, Bool.not_eq_true'] at hexpired
    exact hexpired.1
  · exact .refl s.1

/-! ### The worker -/

theorem queueSelect_edits (hk : K .entries) (hf : K .flight) (ht : K .turns) (q : TxQueue) (nowMs : Nat) :
    Edits K q (queueSelect q nowMs).1 := by
  obtain ⟨q₁, hsame, h | ⟨i, e, he, h⟩⟩ := queueSelect_cases q nowMs
  · rw [h]
    exact .turn ht hsame
  · rw [h]
    exact (Edits.turn ht hsame).trans (.tend hk he ⟨rfl, id⟩ (.inl hf))

theorem queueWorkSelect_edits (hk : K .entries) (hf : K .flight) (ht : K .turns) (q : TxQueue) (nowMs : Nat)
    (linkBusy : Bool) (guardMs : Nat) : Edits K q (queueWorkSelect q nowMs linkBusy guardMs).1 := by
  have hexpire := queueExpireLocked_edits hk q nowMs
  have hcases := queueWorkSelect_cases q nowMs linkBusy guardMs
  generalize queueExpireLocked q nowMs = expired at hexpire hcases
  have hguard : ∀ guard, Edits K q { expired.1 with guardUntilMs := guard } :=
    fun guard => hexpire.trans (.rest _ guard expired.1.stopping)
  rcases hcases with ⟨-, h⟩ | ⟨-, guard, h | h⟩
  · rw [h]
    exact .refl q
  · rw [h]
    exact hguard guard
  · rw [h]
    exact (hguard guard).trans (queueSelect_edits hk hf ht _ nowMs)

theorem queueWorkCheck_edits (hk : K .entries) (hf : K .flight) {valid : Except Errno Unit} {c : Cancelled}
    (h : queueWorkCheck q i e valid = some c) : Edits K q c.queue := by
  unfold queueWorkCheck at h
  split at h
  · cases h
  · obtain rfl := Option.some.inj h
    exact queueCancelGroupLocked_edits hk _ _ (.inl hf) _ _

theorem queueAirtimeLocked_edits (hw : K .windows) (q : TxQueue) (c : AirtimeCharge) (broadcast : Bool) (nowMs : Nat) :
    Edits K q (queueAirtimeLocked q c broadcast nowMs).1 := by
  obtain ⟨_, _, _, _, _, _, h⟩ := queueAirtimeLocked_eq q c broadcast nowMs
  rw [h]
  exact .window q hw ..

theorem queueCommit_edits (hw : K .windows) (hb : K .burst) (q : TxQueue) (control admitted : Bool) :
    Edits K q (queueCommit q control admitted) := by
  obtain ⟨a, b, _, h⟩ := queueCommit_eq q control admitted
  rw [h]
  exact (Edits.window q hw _ _ a b _ _).trans (.burst _ hb _)

/-! ### Reservations -/

theorem reservationCancel_edits (hk : K .drops) (q : TxQueue) (id : Nat) (error : Errno) (notify : Bool) :
    Edits K q (reservationCancel q id error notify).1 := by
  unfold reservationCancel
  split
  · exact .refl q
  · exact .drop hk _

theorem reservationWork_edits (hk : K .drops) (q : TxQueue) (nowMs : Nat) : Edits K q (reservationWork q nowMs).1 := by
  unfold reservationWork
  split
  · exact .refl q
  · exact .drop hk _

theorem drainReservation_edits (hk : K .drops) (q : TxQueue) (error : Errno) :
    Edits K q (drainReservation q error).1 := by
  unfold drainReservation
  split
  · exact .refl q
  · exact reservationCancel_edits hk q _ error true

theorem reservationPending_edits (hk : K .notes) (q : TxQueue) (id : Nat) : Edits K q (reservationPending q id).1 := by
  unfold reservationPending
  split
  · exact .refl q
  rename_i j v hfind
  split_ifs with hpending
  · exact .refl q
  · exact .take hk (find_reservation hfind).1 (Bool.not_eq_false _ ▸ hpending)

theorem reservationSeal_edits (hk : K .notes) (siphash : Octets → UInt64) (q : TxQueue) (id : Nat) (data : Octets) :
    Edits K q (reservationSeal siphash q id data).1 := by
  unfold reservationSeal
  split_ifs
  · exact .refl q
  split
  · exact .refl q
  rename_i j v hfind
  split_ifs
  · exact .refl q
  · exact .note hk (find_reservation hfind).1 rfl rfl

theorem reservationClaim_edits (hk : K .notes) (siphash : Octets → UInt64) (q : TxQueue) (id : Nat) (data : Octets) :
    Edits K q (reservationClaim siphash q id data).1 := by
  unfold reservationClaim
  split_ifs
  · exact .refl q
  split
  · exact .refl q
  rename_i j v hfind
  split_ifs
  · exact .refl q
  · exact .note hk (find_reservation hfind).1 rfl rfl

/-! ## What is left -/

theorem queueRemoveLocked_rest (q : TxQueue) (i : Fin TX_QUEUE_LIMIT) :
    ∃ entries ns count bytes peers flows, queueRemoveLocked q i = { q with
      entries := entries, namespaces := ns, queueCount := count, queueBytes := bytes, peers := peers, flows :=
      flows } := by
  cases h : q.entries i with
  | none =>
    rw [queueRemoveLocked_free h]
    exact ⟨_, _, _, _, _, _, rfl⟩
  | some e =>
    obtain ⟨peers, flows, hq⟩ := queueRemoveLocked_of h
    rw [hq]
    exact ⟨_, _, _, _, _, _, rfl⟩

theorem reservationRemoveLocked_rest (q : TxQueue) (j : Fin TX_RESERVATION_LIMIT) :
    ∃ reservations ns count bytes pending peers flows, reservationRemoveLocked q j = { q with
      reservations := reservations, namespaces := ns, reservedCount := count, reservedBytes := bytes
      pendingReserved := pending, peers := peers, flows := flows } := by
  cases h : q.reservations j with
  | none =>
    rw [reservationRemoveLocked_free h]
    exact ⟨_, _, _, _, _, _, _, rfl⟩
  | some r =>
    obtain ⟨peers, flows, hq⟩ := reservationRemoveLocked_of h
    rw [hq]
    exact ⟨_, _, _, _, _, _, _, rfl⟩

def TxQueue.sequences (q : TxQueue) : Nat × Nat × Nat := (q.queueSequence, q.groupSequence, q.reservationSequence)

theorem Edits.sequences (h : Edits K q q') : q'.sequences = q.sequences := by
  induction h with
  | @remove q i =>
    obtain ⟨_, _, _, _, _, _, h⟩ := queueRemoveLocked_rest q i
    rw [h]
    rfl
  | @drop q hk j =>
    obtain ⟨_, _, _, _, _, _, _, h⟩ := reservationRemoveLocked_rest q j
    rw [h]
    rfl
  | turn hk h =>
    obtain ⟨_, _, _, _, rfl⟩ := h
    rfl
  | trans h₁ h₂ ih₁ ih₂ => exact ih₂.trans ih₁
  | _ => rfl

theorem Edits.entry (h : Edits K q q') {j : Fin TX_QUEUE_LIMIT} (he' : q'.entries j = some e') :
    ∃ e, q.entries j = some e ∧ e.Tended e' ∧ (¬K .entries → e' = e) := by
  induction h generalizing e' with
  | remove hk =>
    rw [queueRemoveLocked_entries, Table.clear_eq_some] at he'
    exact ⟨e', he'.2, .refl e', fun _ => rfl⟩
  | tend hk he ht =>
    rw [entryUpdate_entries, Table.set_apply] at he'
    split_ifs at he' with hj
    · obtain rfl := Option.some.inj he'
      exact ⟨_, hj ▸ he, ht, fun hn => absurd hk hn⟩
    · exact ⟨e', he', .refl e', fun _ => rfl⟩
  | drop hk i =>
    rw [reservationRemoveLocked_entries] at he'
    exact ⟨e', he', .refl e', fun _ => rfl⟩
  | turn hk h =>
    obtain ⟨_, _, _, _, rfl⟩ := h
    exact ⟨e', he', .refl e', fun _ => rfl⟩
  | trans h₁ h₂ ih₁ ih₂ =>
    obtain ⟨a, ha, ht, heq⟩ := ih₂ he'
    obtain ⟨b, hb, ht', heq'⟩ := ih₁ ha
    exact ⟨b, hb, ht'.trans ht, fun hn => (heq hn).trans (heq' hn)⟩
  | _ => exact ⟨e', he', .refl e', fun _ => rfl⟩

theorem Edits.reservation (h : Edits K q q') {j : Fin TX_RESERVATION_LIMIT} (hv' : q'.reservations j = some v') :
    ∃ v, q.reservations j = some v ∧ v.Noted v' ∧ (¬K .notes → v' = v) := by
  induction h generalizing v' with
  | remove hk =>
    rw [queueRemoveLocked_reservations] at hv'
    exact ⟨v', hv', .refl v', fun _ => rfl⟩
  | drop hk i =>
    rw [reservationRemoveLocked_reservations, Table.clear_eq_some] at hv'
    exact ⟨v', hv'.2, .refl v', fun _ => rfl⟩
  | note hk hv hn =>
    rw [reservationUpdate_reservations, Table.set_apply] at hv'
    split_ifs at hv' with hj
    · obtain rfl := Option.some.inj hv'
      exact ⟨_, hj ▸ hv, hn, fun hnot => absurd hk hnot⟩
    · exact ⟨v', hv', .refl v', fun _ => rfl⟩
  | take hk hv =>
    rw [reservationUpdate_reservations, Table.set_apply] at hv'
    split_ifs at hv' with hj
    · obtain rfl := Option.some.inj hv'
      exact ⟨_, hj ▸ hv, rfl, fun hnot => absurd hk hnot⟩
    · exact ⟨v', hv', .refl v', fun _ => rfl⟩
  | turn hk h =>
    obtain ⟨_, _, _, _, rfl⟩ := h
    exact ⟨v', hv', .refl v', fun _ => rfl⟩
  | trans h₁ h₂ ih₁ ih₂ =>
    obtain ⟨a, ha, ht, heq⟩ := ih₂ hv'
    obtain ⟨b, hb, ht', heq'⟩ := ih₁ ha
    exact ⟨b, hb, ht'.trans ht, fun hn => (heq hn).trans (heq' hn)⟩
  | _ => exact ⟨v', hv', .refl v', fun _ => rfl⟩

theorem Edits.entries (h : Edits K q q') (hk : ¬K .entries) : q'.entries = q.entries := by
  induction h with
  | remove h => exact absurd h hk
  | tend h => exact absurd h hk
  | drop _ j => exact reservationRemoveLocked_entries _ j
  | turn _ h =>
    obtain ⟨_, _, _, _, rfl⟩ := h
    rfl
  | trans h₁ h₂ ih₁ ih₂ => exact ih₂.trans ih₁
  | _ => rfl

/-- The entries in flight stay where they are and change in their flags only. -/
def FlightKept (q q' : TxQueue) : Prop :=
  ∀ i e, q.entries i = some e → e.inFlight = true →
    ∃ cancelled notified, q'.entries i = some { e with cancelled := cancelled, terminalNotified := notified }

theorem FlightKept.of_entries (h : q'.entries = q.entries) : FlightKept q q' :=
  fun i e he _ => ⟨e.cancelled, e.terminalNotified, (congrFun h i).trans he⟩

theorem FlightKept.trans {q'' : TxQueue} (h₁ : FlightKept q q') (h₂ : FlightKept q' q'') : FlightKept q q'' := by
  intro i e he hfly
  obtain ⟨_, _, he'⟩ := h₁ i e he hfly
  obtain ⟨c, n, he''⟩ := h₂ i _ he' hfly
  exact ⟨c, n, he''⟩

theorem inFlightAt_remove (q : TxQueue) (i j : Fin TX_QUEUE_LIMIT) :
    inFlightAt (queueRemoveLocked q i) j = if j = i then false else inFlightAt q j := by
  rw [inFlightAt, queueRemoveLocked_entries, Table.clear_apply]
  split_ifs <;> rfl

theorem inFlightAt_update (q : TxQueue) (i j : Fin TX_QUEUE_LIMIT) (e : TxEntry) :
    inFlightAt (entryUpdate q i e) j = if j = i then e.inFlight else inFlightAt q j := by
  rw [inFlightAt, entryUpdate_entries, Table.set_apply]
  split_ifs <;> rfl

theorem inFlightAt_congr (h : q'.entries = q.entries) : inFlightAt q' = inFlightAt q := by
  funext i
  rw [inFlightAt, inFlightAt, h]

theorem Edits.flight (h : Edits K q q') (hk : ¬K .flight) : FlightKept q q' ∧ inFlightAt q' = inFlightAt q := by
  have hsame : ∀ {q q' : TxQueue}, q'.entries = q.entries → FlightKept q q' ∧ inFlightAt q' = inFlightAt q :=
    fun h => ⟨.of_entries h, inFlightAt_congr h⟩
  induction h with
  | @remove q i _ hflight =>
    have hidle := hflight.resolve_left hk
    refine ⟨fun j e he hfly => ⟨e.cancelled, e.terminalNotified, ?_⟩, funext fun j => ?_⟩
    · rw [queueRemoveLocked_entries, Table.clear_eq_some]
      refine ⟨?_, he⟩
      rintro rfl
      simp [inFlightAt, he, hfly] at hidle
    · rw [inFlightAt_remove]
      split_ifs with hj
      · rw [hj, hidle]
      · rfl
  | @tend q i e e' _ he _ hflight =>
    have hflag : e' = _ := hflight.resolve_left hk
    refine ⟨fun j a ha hfly => ?_, funext fun j => ?_⟩
    · rw [entryUpdate_entries, Table.set_apply]
      split_ifs with hj
      · obtain rfl := Option.some.inj (he.symm.trans (hj ▸ ha))
        rw [hflag]
        exact ⟨_, _, rfl⟩
      · exact ⟨a.cancelled, a.terminalNotified, ha⟩
    · rw [inFlightAt_update]
      split_ifs with hj
      · rw [hj, inFlightAt, he, hflag]
        rfl
      · rfl
  | drop _ j => exact hsame (reservationRemoveLocked_entries _ j)
  | turn _ h =>
    obtain ⟨_, _, _, _, rfl⟩ := h
    exact hsame rfl
  | trans h₁ h₂ ih₁ ih₂ => exact ⟨ih₁.1.trans ih₂.1, ih₂.2.trans ih₁.2⟩
  | _ => exact hsame rfl

end Melodi
