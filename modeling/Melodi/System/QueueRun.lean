import Melodi.Lib.Run
import Melodi.Core.Edits

/-!
# The transmit queue at lock granularity

Every critical section of `queue.c` is one label. The worker keeps the slot of its entry from one section to the next;
the other operations run whole under the lock. What the program does not decide is in the label: allocations, the state
of the interface, what `melodi_data_queue_valid_locked` returns, what the transport answers and the passing of time.
-/

namespace Melodi
open Lib

/-- Where `melodi_queue_work` is between two critical sections, with the slot of its entry. -/
inductive WorkStage where
  | selected (i : Fin TX_QUEUE_LIMIT)
  | checked (i : Fin TX_QUEUE_LIMIT)
  | transmitting (i : Fin TX_QUEUE_LIMIT) (durationUs admittedMs : Nat)
  deriving DecidableEq, Repr

def WorkStage.slot : WorkStage → Fin TX_QUEUE_LIMIT
  | .selected i => i
  | .checked i => i
  | .transmitting i _ _ => i

/-- The queue of a device, how far its worker is, and the time. -/
structure QueueState where
  queue : TxQueue := {}
  work : Option WorkStage := none
  nowMs : Nat := 0

inductive QueueLabel where
  | tick (ms : Nat)
  | reserve (a : ReserveArgs) (r : QueueRequest) (alloc : Bool)
  | cancel (id : Nat) (error : Errno) (notify : Bool)
  | expireReservation
  | takePending (id : Nat)
  | sealReservation (id : Nat) (data : Octets)
  | claim (id : Nat) (data : Octets)
  | send (up : Bool) (net : Nat) (frames : List Octets) (metadata : TxMeta) (r : QueueRequest) (alloc : Bool)
      (valid : Except Errno Unit)
  | sendReserved (up : Bool) (frames : List Octets) (metadata : TxMeta) (r : QueueRequest) (id : Nat)
      (valid : Except Errno Unit)
  | stateChanged (d : Device)
  | select (linkBusy : Bool) (guardMs : Nat)
  | check (valid : Except Errno Unit)
  | airtime (answer : Option (Except Errno AirtimeCharge))
  | finish (result : Except Errno Unit)
  | stop
  | drainReservation (error : Errno)
  | drainEntries
  | start

/-- What a section returns or goes on with: its result, the terminal error it reports, and the entry that was handed to
the transport, with its airtime. -/
structure QueueOut where
  result : Except Errno Nat := .ok 0
  notice : Option Notice := none
  sent : Option (TxEntry × Nat) := none

def workStep (s : QueueState) : QueueLabel → QueueState × QueueOut
  | .select linkBusy guardMs =>
    if s.work.isSome then (s, {})
    else
      match queueWorkSelect s.queue s.nowMs linkBusy guardMs with
      | (q, notice, i) => ({ s with queue := q, work := i.map .selected }, { notice := notice })
  | .check valid =>
    match s.work with
    | some (.selected i) =>
      match s.queue.entries i with
      | none => (s, {})
      | some e =>
        if e.control then ({ s with work := some (.checked i) }, {})
        else
          match queueWorkCheck s.queue i e valid with
          | none => ({ s with work := some (.checked i) }, {})
          | some c => ({ s with queue := c.queue, work := none }, { notice := c.notice })
    | _ => (s, {})
  | .airtime answer =>
    match s.work with
    | some (.checked i) =>
      match s.queue.entries i with
      | none => (s, {})
      | some e =>
        match queueWorkAirtime s.queue i e s.nowMs (coreAirtime answer) with
        | (q, .done notice) => ({ s with queue := q, work := none }, { notice := notice })
        | (q, .transmit _) =>
          ({ s with
              queue := q
              work := some
                (.transmitting i (match coreAirtime answer with | .ok c => c.durationUs | .error _ => 0) s.nowMs) },
            {})
    | _ => (s, {})
  | .finish result =>
    match s.work with
    | some (.transmitting i durationUs _) =>
      match s.queue.entries i with
      | none => (s, {})
      | some e =>
        match queueWorkFinish s.queue i e s.nowMs (durationUs ≠ 0) result with
        | (q, notice) =>
          ({ s with queue := q, work := none },
            { notice := notice, sent := match result with | .ok () => some (e, durationUs) | .error _ => none })
    | _ => (s, {})
  | _ => (s, {})

def queueStep (siphash : Octets → UInt64) (s : QueueState) : QueueLabel → QueueState × QueueOut
  | .tick ms => ({ s with nowMs := s.nowMs + ms }, {})
  | .reserve a r alloc =>
    match queueReserve s.queue a r s.nowMs alloc with
    | (q, result) => ({ s with queue := q }, { result := result })
  | .cancel id error notify =>
    match reservationCancel s.queue id error notify with
    | (q, notice) => ({ s with queue := q }, { notice := notice })
  | .expireReservation =>
    match reservationWork s.queue s.nowMs with
    | (q, notice) => ({ s with queue := q }, { notice := notice })
  | .takePending id =>
    match reservationPending s.queue id with
    | (q, result) => ({ s with queue := q }, { result := result.map fun _ => 0 })
  | .sealReservation id data =>
    match reservationSeal siphash s.queue id data with
    | (q, result) => ({ s with queue := q }, { result := result.map fun _ => 0 })
  | .claim id data =>
    match reservationClaim siphash s.queue id data with
    | (q, result) => ({ s with queue := q }, { result := result.map fun _ => 0 })
  | .send up net frames metadata r alloc valid =>
    match coreSendBatch s.queue up net frames metadata r s.nowMs alloc valid with
    | (q, result) => ({ s with queue := q }, { result := result.map fun _ => 0 })
  | .sendReserved up frames metadata r id valid =>
    match coreSendBatchReserved s.queue up frames metadata r id valid with
    | (q, result) => ({ s with queue := q }, { result := result.map fun _ => 0 })
  | .stateChanged d =>
    match queueStatePass d { queue := s.queue } with
    | none => (s, {})
    | some (t, notice) => ({ s with queue := t.queue }, { notice := notice })
  | .stop => ({ s with queue := queueStop s.queue }, {})
  | .drainReservation error =>
    if s.queue.stopping ∧ s.work = none then
      match Melodi.drainReservation s.queue error with
      | (q, notice) => ({ s with queue := q }, { notice := notice })
    else (s, {})
  | .drainEntries =>
    -- the worker was waited for, and the queue stays stopped until the drain is over
    if s.queue.stopping ∧ s.work = none ∧ (s.queue.reservations.find? fun _ => true) = none then
      ({ s with queue := Melodi.drainEntries s.queue }, {})
    else (s, {})
  | .start => ({ s with queue := queueStart s.queue }, {})
  | .select linkBusy guardMs => workStep s (.select linkBusy guardMs)
  | .check valid => workStep s (.check valid)
  | .airtime answer => workStep s (.airtime answer)
  | .finish result => workStep s (.finish result)

/-! ## What a section writes -/

def QueueLabel.ofWorker : QueueLabel → Bool
  | .select _ _ | .check _ | .airtime _ | .finish _ => true
  | _ => false

def TxEntry.isBroadcastData (e : TxEntry) : Bool :=
  !e.control && e.metadata.destinationLocator = LINK_LOCATOR_BROADCAST

inductive Works (s : QueueState) : QueueLabel → QueueState → QueueOut → Prop where
  | idle {a} (h : ∀ linkBusy guardMs, a = .select linkBusy guardMs → s.work.isSome = true) : Works s a s {}
  | selects {linkBusy guardMs q notice i} (hwork : s.work = none)
      (h : queueWorkSelect s.queue s.nowMs linkBusy guardMs = (q, notice, i)) :
      Works s (.select linkBusy guardMs) { s with queue := q, work := i.map .selected } { notice := notice }
  | passes {valid i e} (hwork : s.work = some (.selected i)) (he : s.queue.entries i = some e) :
      Works s (.check valid) { s with work := some (.checked i) } {}
  | refuses {valid i e c} (hwork : s.work = some (.selected i)) (he : s.queue.entries i = some e)
      (h : queueWorkCheck s.queue i e valid = some c) :
      Works s (.check valid) { s with queue := c.queue, work := none } { notice := c.notice }
  | drops {answer i e q notice} (hwork : s.work = some (.checked i)) (he : s.queue.entries i = some e)
      (hq : q = s.queue ∨ ∃ c, coreAirtime answer = .ok c ∧
        q = (queueAirtimeLocked s.queue c e.isBroadcastData s.nowMs).1)
      (hnotice : s.queue.stopping = true ∧ notice = none ∨ ∃ error, notice = queueNoticeEntry none e error) :
      Works s (.airtime answer) { s with queue := queueRemoveLocked q i, work := none } { notice := notice }
  | defers {answer i e c deferUntilMs} (hwork : s.work = some (.checked i)) (he : s.queue.entries i = some e)
      (hc : coreAirtime answer = .ok c) :
      Works s (.airtime answer)
        { s with
          queue := entryUpdate (queueAirtimeLocked s.queue c e.isBroadcastData s.nowMs).1 i
            { e with inFlight := false, deferUntilMs := deferUntilMs }
          work := none } {}
  | transmits {answer i e c} (hwork : s.work = some (.checked i)) (he : s.queue.entries i = some e)
      (hc : coreAirtime answer = .ok c) (hcancelled : e.cancelled = false) (hlive : s.nowMs < e.expiresMs)
      (hok : (queueAirtimeLocked s.queue c e.isBroadcastData s.nowMs).2.1 = .ok ()) :
      Works s (.airtime answer)
        { s with
          queue := (queueAirtimeLocked s.queue c e.isBroadcastData s.nowMs).1
          work := some (.transmitting i c.durationUs s.nowMs) } {}
  | sends {i durationUs ms e} (hwork : s.work = some (.transmitting i durationUs ms))
      (he : s.queue.entries i = some e) : Works s (.finish (.ok ()))
        { s with queue := queueCommit (queueRemoveLocked s.queue i) e.control (durationUs ≠ 0), work := none }
        { sent := some (e, durationUs) }
  | retries {error i durationUs ms e deferUntilMs} (hwork : s.work = some (.transmitting i durationUs ms))
      (he : s.queue.entries i = some e) :
      Works s (.finish (.error error))
        { s with
          queue := entryUpdate s.queue i { e with inFlight := false, deferUntilMs := deferUntilMs }, work := none } {}
  | fails {error i durationUs ms e} (hwork : s.work = some (.transmitting i durationUs ms))
      (he : s.queue.entries i = some e) :
      Works s (.finish (.error error)) { s with queue := queueRemoveLocked s.queue i, work := none }
        { notice := queueNoticeEntry none e error }

variable {s s' : QueueState} {out : QueueOut} {w : WorkStage}

theorem workStep_works (s : QueueState) (a : QueueLabel) : Works s a (workStep s a).1 (workStep s a).2 := by
  unfold workStep
  split
  · split
    · rename_i hwork
      exact .idle fun _ _ _ => hwork
    · rename_i hwork
      exact .selects (by simpa using hwork) rfl
  · split
    · rename_i hwork
      split
      · exact .idle nofun
      rename_i he
      split
      · exact .passes hwork he
      · split
        · exact .passes hwork he
        · exact .refuses hwork he ‹_›
    · exact .idle nofun
  · rename_i answer
    split
    · rename_i i hwork
      split
      · exact .idle nofun
      rename_i e he
      rcases queueWorkAirtime_cases s.queue i e s.nowMs (coreAirtime answer) with
        ⟨hstop, h⟩ | ⟨error, -, h⟩ | ⟨c, hc, hcancelled, hlive, ⟨hok, h⟩ | ⟨-, deferUntilMs, h⟩ | ⟨error, -, h⟩⟩
      · rw [h]
        exact .drops hwork he (.inl rfl) (.inl ⟨hstop, rfl⟩)
      · rw [h]
        exact .drops hwork he (.inl rfl) (.inr ⟨error, rfl⟩)
      · rw [h, hc]
        exact .transmits hwork he hc hcancelled hlive hok
      · rw [h]
        exact .defers hwork he hc
      · rw [h]
        exact .drops hwork he (.inr ⟨c, hc, rfl⟩) (.inr ⟨error, rfl⟩)
    · exact .idle nofun
  · rename_i result
    split
    · rename_i i durationUs _ hwork
      split
      · exact .idle nofun
      rename_i e he
      rcases queueWorkFinish_cases s.queue i e s.nowMs (durationUs ≠ 0) result with ⟨rfl, h⟩ | ⟨error, rfl, ⟨_, h⟩ | h⟩
      · rw [h]
        exact .sends hwork he
      · rw [h]
        exact .retries hwork he
      · rw [h]
        exact .fails hwork he
    · exact .idle nofun
  · rename_i hselect _ _ _
    exact .idle fun linkBusy guardMs ha => absurd ha (hselect linkBusy guardMs)

def QueueLabel.adds : QueueLabel → Bool
  | .reserve .. | .send .. | .sendReserved .. | .drainEntries => true
  | _ => false

def QueueLabel.edits (a : QueueLabel) (k : EditKind) : Bool :=
  match a with
  | .cancel .. | .expireReservation | .drainReservation _ => (k matches .drops)
  | .takePending _ | .sealReservation .. | .claim .. => (k matches .notes)
  | .stateChanged _ => (k matches .entries | .drops)
  | .select .. => (k matches .entries | .flight | .turns)
  | .check _ => (k matches .entries | .flight)
  | .airtime _ => (k matches .entries | .flight | .windows)
  | .finish _ => (k matches .entries | .flight | .windows | .burst)
  | _ => false

theorem Works.edits {a : QueueLabel} (h : Works s a s' out) : Edits (fun k => a.edits k = true) s.queue s'.queue := by
  cases h with
  | idle | passes => exact .refl _
  | @selects linkBusy guardMs _ _ _ _ h =>
    have hedits :=
      queueWorkSelect_edits (K := fun k => QueueLabel.edits (.select linkBusy guardMs) k = true) rfl rfl rfl s.queue
      s.nowMs linkBusy guardMs
    rw [h] at hedits
    exact hedits
  | refuses _ _ h => exact queueWorkCheck_edits (by rfl) (by rfl) h
  | drops _ _ hq =>
    rcases hq with rfl | ⟨c, -, rfl⟩
    · exact .remove rfl (.inl rfl)
    · exact (queueAirtimeLocked_edits (by rfl) _ _ _ _).trans (.remove rfl (.inl rfl))
  | @defers _ i e c _ _ he =>
    refine (queueAirtimeLocked_edits (by rfl) _ c e.isBroadcastData s.nowMs).trans (.tend rfl ?_ ⟨rfl, id⟩ (.inl rfl))
    rw [(queueAirtimeLocked_edits (K := (· = .windows)) rfl _ _ _ _).entries nofun]
    exact he
  | transmits => exact queueAirtimeLocked_edits (by rfl) _ _ _ _
  | sends => exact (Edits.remove (by rfl) (.inl (by rfl))).trans (queueCommit_edits (by rfl) (by rfl) _ _ _)
  | retries _ he => exact .tend rfl he ⟨rfl, id⟩ (.inl rfl)
  | fails => exact .remove rfl (.inl rfl)

theorem queueStep_edits (siphash : Octets → UInt64) (s : QueueState) {a : QueueLabel} (ha : a.adds = false) :
    Edits (fun k => a.edits k = true) s.queue (queueStep siphash s a).1.queue := by
  cases a with
  | reserve | send | sendReserved | drainEntries => cases ha
  | tick ms => exact .refl _
  | cancel id error notify => exact reservationCancel_edits (by rfl) s.queue id error notify
  | expireReservation => exact reservationWork_edits (by rfl) s.queue s.nowMs
  | takePending id => exact reservationPending_edits (by rfl) s.queue id
  | sealReservation id data => exact reservationSeal_edits (by rfl) siphash s.queue id data
  | claim id data => exact reservationClaim_edits (by rfl) siphash s.queue id data
  | stateChanged d =>
    unfold queueStep
    dsimp only
    split
    · exact .refl _
    · rename_i t notice h
      exact queueStatePass_edits (by rfl) (by rfl) h
  | drainReservation error =>
    unfold queueStep
    dsimp only
    split_ifs
    · exact drainReservation_edits (by rfl) s.queue error
    · exact .refl _
  | stop => exact .rest s.queue s.queue.guardUntilMs true
  | start => exact .rest s.queue s.queue.guardUntilMs false
  | select linkBusy guardMs => exact (workStep_works s _).edits
  | check valid => exact (workStep_works s _).edits
  | airtime answer => exact (workStep_works s _).edits
  | finish result => exact (workStep_works s _).edits

/-! ## The entry in flight -/

def Held (s : QueueState) : Prop := ∀ i, inFlightAt s.queue i = decide (s.work.map WorkStage.slot = some i)

theorem Held.entry (h : Held s) (hw : s.work = some w) : ∃ e, s.queue.entries w.slot = some e ∧ e.inFlight = true := by
  have hflight := h w.slot
  rw [hw, Option.map_some, decide_eq_true rfl] at hflight
  simpa [inFlightAt, Option.any_eq_true] using hflight

theorem Held.idle (h : Held s) (hw : s.work = none) (i : Fin TX_QUEUE_LIMIT) : inFlightAt s.queue i = false := by
  rw [h i, hw]
  rfl

def Added (q q' : TxQueue) : Prop :=
  ∀ j, q'.entries j = q.entries j ∨ q.entries j = none ∧ inFlightAt q' j = false

theorem Added.flight {q q' : TxQueue} (h : Added q q') : FlightKept q q' ∧ inFlightAt q' = inFlightAt q := by
  refine ⟨fun j e he _ => ?_, funext fun j => ?_⟩
  · rcases h j with heq | ⟨hnone, -⟩
    · exact ⟨e.cancelled, e.terminalNotified, heq.trans he⟩
    · exact nomatch hnone.symm.trans he
  rcases h j with heq | ⟨hnone, hidle⟩
  · rw [inFlightAt, inFlightAt, heq]
  · rw [hidle, inFlightAt, hnone]
    rfl

theorem entriesWrite_added {charge : Bool} {net : Nat} {metadata : TxMeta} {r : QueueRequest} {groupId expiresMs : Nat}
    {peerIndex flowIndex : Fin TX_FLOW_LIMIT} {q q₁ : TxQueue} {batch : List (Fin TX_QUEUE_LIMIT × Octets)}
    (hq : q₁.entries = q.entries) (hfree : ∀ i ∈ batch.map Prod.fst, q.entries i = none) :
    Added q (entriesWrite charge net metadata r groupId expiresMs peerIndex flowIndex q₁ batch) := by
  intro j
  rcases entriesWrite_entries q₁ batch j with h | ⟨frame, sequence, hmem, -, h⟩
  · exact .inl (h.trans (congrFun hq j))
  refine .inr ⟨hfree j (List.mem_map.mpr ⟨_, hmem, rfl⟩), ?_⟩
  rw [inFlightAt, h]
  rfl

theorem queueStep_flight (siphash : Octets → UInt64) (hheld : Held s) {a : QueueLabel} (ha : a.ofWorker = false) :
    FlightKept s.queue (queueStep siphash s a).1.queue ∧ inFlightAt (queueStep siphash s a).1.queue =
    inFlightAt s.queue := by
  have hsame : ∀ {q : TxQueue}, q.entries = s.queue.entries → FlightKept s.queue q ∧
    inFlightAt q = inFlightAt s.queue :=
    fun h => ⟨.of_entries h, inFlightAt_congr h⟩
  cases a with
  | select | check | airtime | finish => cases ha
  | reserve a r alloc => exact hsame (queueReserve_entries s.queue a r s.nowMs alloc)
  | send up net frames metadata r alloc valid =>
    suffices h : Added s.queue (coreSendBatch s.queue up net frames metadata r s.nowMs alloc valid).1 from h.flight
    rcases coreSendBatch_cases s.queue up net frames metadata r s.nowMs alloc valid with
      ⟨ns, e, h⟩ | ⟨ns, peers, flows, p, f, -, -, -, hslots, h⟩
    · rw [h]
      exact fun _ => .inl rfl
    · rw [h]
      exact entriesWrite_added rfl (zip_slots hslots).2.1
  | sendReserved up frames metadata r id valid =>
    suffices h : Added s.queue (coreSendBatchReserved s.queue up frames metadata r id valid).1 from h.flight
    rcases coreSendBatchReserved_cases s.queue up frames metadata r id valid with
      ⟨e, h⟩ | ⟨j, v, -, -, -, -, -, -, -, hslots, h⟩
    · rw [h]
      exact fun _ => .inl rfl
    · rw [h]
      exact entriesWrite_added rfl (zip_slots hslots).2.1
  | drainEntries =>
    unfold queueStep
    dsimp only
    split_ifs with hdrain
    · have hidle := hheld.idle hdrain.2.1
      refine ⟨fun j e he hfly => ?_, funext fun j => ?_⟩
      · have hj := hidle j
        simp [inFlightAt, he, hfly] at hj
      · rw [hidle j, inFlightAt, drainEntries_entries]
        rfl
    · exact hsame rfl
  | _ => exact (queueStep_edits siphash s rfl).flight (by simp [QueueLabel.edits])

/-! ## The worker keeps its entry -/

theorem inFlightAt_cancelled (rep : TxEntry) (owned : Option (Fin TX_QUEUE_LIMIT)) (i : Fin TX_QUEUE_LIMIT)
    (o : Option TxEntry) (h : owned ≠ some i) : (cancelled rep owned i o).any (·.inFlight) = o.any (·.inFlight) := by
  cases o with
  | none => rfl
  | some e =>
    rcases cancelled_cases rep owned i e with ⟨-, hc⟩ | ⟨-, -, -, hc⟩ | ⟨-, hfly | ho, hc⟩
    · rw [hc]
    · rw [hc]
      rfl
    · rw [hc]
      simp [hfly]
    · exact absurd ho h

theorem inFlightAt_cancel {q : TxQueue} {i : Fin TX_QUEUE_LIMIT} {e : TxEntry} (he : q.entries i = some e)
    (owned : Option (Fin TX_QUEUE_LIMIT)) (error : Errno) (notice : Option Notice) (j : Fin TX_QUEUE_LIMIT)
    (hj : owned ≠ some j) :
    inFlightAt (queueCancelGroupLocked q e.groupId owned error notice).queue j = inFlightAt q j := by
  obtain ⟨rep, -, hc⟩ := queueCancelGroupLocked_of he owned error notice
  rw [hc, inFlightAt, inFlightAt, cancelLoop_entries]
  exact inFlightAt_cancelled rep owned j _ hj

theorem inFlightAt_cancel_owned {q : TxQueue} {i : Fin TX_QUEUE_LIMIT} {e : TxEntry} (he : q.entries i = some e)
    (error : Errno) (notice : Option Notice) :
    inFlightAt (queueCancelGroupLocked q e.groupId (some i) error notice).queue i = false := by
  obtain ⟨rep, hrep, hc⟩ := queueCancelGroupLocked_of he (some i) error notice
  rw [hc, inFlightAt, cancelLoop_entries, he]
  have hin : inGroup rep e = true := by simp [inGroup, hrep]
  rcases cancelled_cases rep (some i) i e with ⟨hout, -⟩ | ⟨-, -, hne, -⟩ | ⟨-, -, h⟩
  · rw [hin] at hout
    cases hout
  · exact absurd rfl hne
  · rw [h]
    rfl

theorem Held.release (h : Held s) (hw : s.work = some w) {q : TxQueue}
    (hq : ∀ j, inFlightAt q j = if j = w.slot then false else inFlightAt s.queue j) :
    Held { s with queue := q, work := none } := by
  intro j
  have hj := h j
  rw [hw] at hj
  show inFlightAt q j = _
  rw [hq]
  split_ifs with heq
  · rfl
  · rw [hj]
    simpa using fun hslot => heq hslot.symm

theorem Held.goOn (h : Held s) {w' : WorkStage} (hw : s.work = some w) (hslot : w'.slot = w.slot) {q : TxQueue}
    (hq : inFlightAt q = inFlightAt s.queue) : Held { s with queue := q, work := some w' } := by
  intro j
  have hj := h j
  rw [hw] at hj
  show inFlightAt q j = _
  rw [hq, hj, Option.map_some, Option.map_some, hslot]

theorem selectStep_held (h : Held s) (hw : s.work = none) (linkBusy : Bool) (guardMs : Nat) :
    Held { s with
      queue := (queueWorkSelect s.queue s.nowMs linkBusy guardMs).1
      work := (queueWorkSelect s.queue s.nowMs linkBusy guardMs).2.2.map .selected } := by
  have hidle : inFlightAt (queueExpireLocked s.queue s.nowMs).1 = fun _ => false :=
    ((queueExpireLocked_edits (K := (· = .entries)) rfl s.queue s.nowMs).flight nofun).2.trans (funext (h.idle hw))
  have hcases := queueWorkSelect_cases s.queue s.nowMs linkBusy guardMs
  generalize queueExpireLocked s.queue s.nowMs = expired at hidle hcases
  intro j
  dsimp only
  rcases hcases with ⟨-, hs⟩ | ⟨-, guard, hs | hs⟩
  · rw [hs]
    exact h.idle hw j
  · rw [hs]
    exact congrFun hidle j
  rw [hs]
  have hguard : inFlightAt { expired.1 with guardUntilMs := guard } = fun _ => false := hidle
  generalize ({ expired.1 with guardUntilMs := guard } : TxQueue) = q₁ at hguard
  obtain ⟨q₂, ⟨peers, flows, slot, turn, rfl⟩, hsel | ⟨i, e, -, hsel⟩⟩ := queueSelect_cases q₁ s.nowMs
  · rw [hsel]
    exact congrFun hguard j
  rw [hsel]
  dsimp only
  rw [inFlightAt_update]
  split_ifs with hj
  · simp [WorkStage.slot, hj]
  · have hne : ¬i = j := fun hij => hj hij.symm
    exact (congrFun hguard j).trans (by simp [WorkStage.slot, hne])

theorem Works.held {a : QueueLabel} (hworks : Works s a s' out) (h : Held s) : Held s' := by
  have hwindows : ∀ c broadcast, inFlightAt (queueAirtimeLocked s.queue c broadcast s.nowMs).1 = inFlightAt s.queue :=
    fun c broadcast => inFlightAt_congr
      ((queueAirtimeLocked_edits (K := (· = .windows)) rfl s.queue c broadcast s.nowMs).entries nofun)
  cases hworks with
  | idle => exact h
  | @selects linkBusy guardMs _ _ _ hw hsel =>
    have hheld := selectStep_held h hw linkBusy guardMs
    rw [hsel] at hheld
    exact hheld
  | passes hw => exact h.goOn hw rfl rfl
  | refuses hw he hc =>
    unfold queueWorkCheck at hc
    split at hc
    · cases hc
    obtain rfl := Option.some.inj hc
    refine h.release hw fun j => ?_
    split_ifs with hj
    · rw [hj]
      exact inFlightAt_cancel_owned he _ none
    · exact inFlightAt_cancel he _ _ _ j fun hij => hj (Option.some.inj hij).symm
  | @drops _ i _ _ _ hw _ hq =>
    refine h.release hw fun j => (inFlightAt_remove _ i j).trans ?_
    rcases hq with rfl | ⟨c, -, rfl⟩
    · rfl
    · rw [hwindows]
      rfl
  | @defers _ i _ c _ hw =>
    refine h.release hw fun j => (inFlightAt_update _ i j _).trans ?_
    rw [hwindows]
    rfl
  | transmits hw => exact h.goOn hw rfl (hwindows _ _)
  | @sends i _ _ e hw =>
    refine h.release hw fun j => ?_
    obtain ⟨_, _, _, hcommit⟩ := queueCommit_eq (queueRemoveLocked s.queue i) e.control _
    rw [hcommit]
    exact inFlightAt_remove s.queue i j
  | @retries _ i _ _ _ _ hw => exact h.release hw fun j => inFlightAt_update s.queue i j _
  | @fails _ i _ _ _ hw => exact h.release hw fun j => inFlightAt_remove s.queue i j

theorem queueStep_kept (siphash : Octets → UInt64) (hheld : Held s) {a : QueueLabel} (ha : a.ofWorker = false) :
    FlightKept s.queue (queueStep siphash s a).1.queue ∧ (queueStep siphash s a).1.work = s.work ∧
      (queueStep siphash s a).2.sent = none := by
  refine ⟨(queueStep_flight siphash hheld ha).1, ?_⟩
  cases a with
  | select | check | airtime | finish => cases ha
  | stateChanged d =>
    unfold queueStep
    dsimp only
    split <;> exact ⟨rfl, rfl⟩
  | drainReservation | drainEntries =>
    unfold queueStep
    dsimp only
    split_ifs <;> exact ⟨rfl, rfl⟩
  | _ => exact ⟨rfl, rfl⟩

theorem queueStep_nowMs (siphash : Octets → UInt64) (s : QueueState) {a : QueueLabel} (ha : a.ofWorker = false) :
    s.nowMs ≤ (queueStep siphash s a).1.nowMs := by
  cases a with
  | select | check | airtime | finish => cases ha
  | tick ms => exact Nat.le_add_right _ _
  | stateChanged d =>
    unfold queueStep
    dsimp only
    split <;> exact Nat.le_refl _
  | drainReservation | drainEntries =>
    unfold queueStep
    dsimp only
    split_ifs <;> exact Nat.le_refl _
  | _ => exact Nat.le_refl _

theorem queueStep_held (siphash : Octets → UInt64) (h : Held s) (a : QueueLabel) : Held (queueStep siphash s a).1 := by
  cases ha : a.ofWorker with
  | false =>
    intro i
    rw [(queueStep_flight siphash h ha).2, (queueStep_kept siphash h ha).2.1]
    exact h i
  | true =>
    cases a with
    | select | check | airtime | finish => exact (workStep_works s _).held h
    | _ => cases ha

end Melodi
