import Melodi.System.DutyCycle
import Melodi.System.Sender
import Melodi.System.Turns

/-!
# What the worker selects, over runs

* `turns_found` : what is queued or reserved has the turn records of its own peer and flow;
* `InTurn`, `data_selected_in_turn` : it selects an entry whenever a data entry may be taken, by turns.
-/

namespace Melodi
open Lib Scenario
variable {j : Fin TX_QUEUE_LIMIT} {nowMs : Nat} {a : QueueLabel} {e f : TxEntry} {q q' : TxQueue}

/-! ## Priorities -/

structure Ranked (q : TxQueue) : Prop where
  entry : ∀ i e, q.entries i = some e → e.priority ≤ PRIORITY_MAX
  reservation : ∀ j v, q.reservations j = some v → v.priority ≤ PRIORITY_MAX

def QueueLabel.ranked : QueueLabel → Prop
  | .reserve _ r _ => r.priority ≤ PRIORITY_MAX
  | _ => True

theorem Books.ranked {siphash : Octets → UInt64} {result : Except Errno Nat} (h : Books siphash q q' a result)
    (ha : a.ranked) (hq : ∀ j v, q.reservations j = some v → v.priority ≤ PRIORITY_MAX) :
    ∀ j v, q'.reservations j = some v → v.priority ≤ PRIORITY_MAX := by
  -- one reservation is written, the others stay
  have hset : ∀ {k : Fin TX_RESERVATION_LIMIT} {w : TxReservation}, q'.reservations = q.reservations.set k w →
      w.priority ≤ PRIORITY_MAX → ∀ j v, q'.reservations j = some v → v.priority ≤ PRIORITY_MAX := by
    intro k w h hw j v hv
    rw [h] at hv
    rcases Table.set_eq_some.mp hv with ⟨-, rfl⟩ | ⟨-, hv⟩
    · exact hw
    · exact hq j v hv
  cases h with
  | drops _ hsub _ => exact fun j v hv => hq j v (hsub j v hv)
  | reserves _ _ h _ => exact hset h ha
  | takes hv _ _ h _ =>
    have hle := hq _ _ hv
    exact hset h hle
  | seals hv _ _ h _ =>
    have hle := hq _ _ hv
    exact hset h hle
  | claims hv _ _ _ _ h _ =>
    have hle := hq _ _ hv
    exact hset h hle
  | sends _ _ _ h _ =>
    intro j v hv
    rw [h] at hv
    exact hq j v (Table.clear_eq_some.mp hv).2

theorem queueStep_writes_ranked (siphash : Octets → UInt64) {s : QueueState} (h : Ranked s.queue) (a : QueueLabel) :
    (queueStep siphash s a).1.queue.entries = s.queue.entries ∨ ∀ e, a.Writes e → e.priority ≤ PRIORITY_MAX := by
  cases a with
  | send up net frames metadata r alloc valid =>
    rcases coreSendBatch_locked s.queue up net frames metadata r s.nowMs alloc valid with ⟨e, heq⟩ | ⟨hr, -⟩
    · exact .inl (congrArg (fun x => x.1.entries) heq)
    · refine .inr ?_
      rintro e ⟨frames', metadata', r', hbatch, frame, -, _, _, _, _, _, _, rfl⟩
      obtain ⟨-, -, rfl⟩ := by simpa only [QueueLabel.batch, Option.some.injEq, Prod.mk.injEq] using hbatch
      exact hr
  | sendReserved up frames metadata r id valid =>
    rcases coreSendBatchReserved_cases s.queue up frames metadata r id valid with
      ⟨e, heq⟩ | ⟨j, v, hv, -, hfor, -⟩
    · exact .inl (congrArg (fun x => x.1.entries) heq)
    · refine .inr ?_
      rintro e ⟨frames', metadata', r', hbatch, frame, -, _, _, _, _, _, _, rfl⟩
      obtain ⟨-, -, rfl⟩ := by simpa only [QueueLabel.batch, Option.some.injEq, Prod.mk.injEq] using hbatch
      have hsame : v.priority = r.priority := by
        simp only [TxReservation.isFor, Bool.and_eq_true, decide_eq_true_eq] at hfor
        tauto
      exact hsame.symm.le.trans (h.reservation j v hv)
  | _ =>
    refine .inr ?_
    rintro e ⟨_, _, _, hbatch, -⟩
    cases hbatch

theorem queueStep_ranked (siphash : Octets → UInt64) {s : QueueState} (hs : Sequenced s.queue) (h : Ranked s.queue)
    (ha : a.ranked) : Ranked (queueStep siphash s a).1.queue := by
  refine ⟨fun i e he => ?_, (queueStep_books siphash s a).ranked ha h.reservation⟩
  rcases queueStep_writes_ranked siphash h a with heq | hwrites
  · exact h.entry i e (by rw [← heq, he])
  rcases (queueStep_tends siphash s a hs).2.slot i e he with ⟨e₀, he₀, ht⟩ | ⟨-, e₀, hw, ht⟩
  · exact ht.turnKey.2.2.2.2 ▸ h.entry i e₀ he₀
  · exact ht.turnKey.2.2.2.2 ▸ hwrites e₀ hw

/-! ## The states of a device -/

section
variable {n : Nat} {P : Platform} {siphash : Fin n → Octets → UInt64} {i : Fin n}

theorem reserveArgs_priority {d : Device} {pending : Table PENDING_LIMIT PendingMessage} {m : Submission}
    {message : Nat} {a : AdmitAmbient} {args : ReserveArgs} {r : QueueRequest}
    (h : Submit.reserveArgs P d pending m message a = .ok (args, r)) : r.priority ≤ PRIORITY_MAX := by
  obtain ⟨_, _, _, hadm, -, -, -, -, rfl⟩ := Submit.reserveArgs_ok h
  have hcheck : ¬ m.request.malformed = true := fun hbad => by
    rw [Submit.admitCheck, if_pos (.inl hbad)] at hadm
    cases hadm
  simp only [SendRequest.malformed, Bool.or_eq_true, decide_eq_true_eq, not_or, not_lt] at hcheck
  exact hcheck.1.1.2

theorem Sender.Issues.ranked {s : Sender n} (h : s.Issues P i a) : a.ranked := by
  cases a with
  | reserve args r alloc =>
    obtain ⟨m, ambient, h⟩ := h
    exact reserveArgs_priority h
  | _ => trivial

theorem Sender.Runs.queue {s s' : Sender n} (h : s.Runs P siphash i s') :
    (∃ ns, s'.queue i = { s.queue i with queue := { (s.queue i).queue with namespaces := ns } } ∧ s'.trail = s.trail) ∨
      ∃ a, s.Issues P i a ∧ s'.queue i = (queueStep (siphash i) (s.queue i) a).1 ∧
        s'.trail = (a, (queueStep (siphash i) (s.queue i) a).2) :: s.trail := by
  cases h with
  | idle hhost htrail => exact .inl ⟨_, by rw [Sender.queue, hhost]; rfl, htrail⟩
  | elsewhere j a hj hhost htrail =>
    obtain ⟨ns, hat⟩ := hostStep_at_other siphash s.host hj a
    exact .inl ⟨ns, by rw [Sender.queue, hhost, hat]; rfl, htrail⟩
  | here a hissues hhost htrail => exact .inr ⟨a, hissues, by rw [Sender.queue, hhost, hostStep_at_self]; rfl, htrail⟩

structure Scheduled (q : TxQueue) : Prop where
  filed : Filed q
  ranked : Ranked q
  sequenced : Sequenced q

theorem Scheduled.namespaces (h : Scheduled q) (ns : List NamespaceQueue) :
    Scheduled { q with namespaces := ns } :=
  ⟨h.filed.loses (.of_agenda rfl), ⟨h.ranked.entry, h.ranked.reservation⟩, ⟨h.sequenced.le, h.sequenced.keyed⟩⟩

theorem initial_scheduled : Scheduled ((Sender.initial n).queue i).queue := {
  filed := filed_initial
  ranked := ⟨fun _ _ h => (nomatch h), fun _ _ h => (nomatch h)⟩
  sequenced := ⟨fun _ _ h => (nomatch h), Table.keyed_empty _⟩ }

theorem queueStep_scheduled {s : Sender n} (hissues : s.Issues P i a) (h : Scheduled (s.queue i).queue) :
    Scheduled (queueStep (siphash i) (s.queue i) a).1.queue where
  filed := queueStep_filed _ h.filed a
  ranked := queueStep_ranked _ h.sequenced h.ranked hissues.ranked
  sequenced := (queueStep_tends _ _ a h.sequenced).1

theorem senderStep_scheduled {s : Sender n} (h : Scheduled (s.queue i).queue) (a : SenderLabel n) :
    Scheduled ((senderStep P siphash i s a).queue i).queue := by
  have hruns : s.Runs P siphash i (senderStep P siphash i s a) := senderStep_runs s a
  rcases hruns.queue with ⟨ns, hqueue, -⟩ | ⟨b, hissues, hqueue, -⟩
  · rw [hqueue]
    exact h.namespaces ns
  · rw [hqueue]
    exact queueStep_scheduled hissues h

theorem run_scheduled (as : List (SenderLabel n)) :
    Scheduled ((run (senderStep P siphash i) (Sender.initial n) as).queue i).queue :=
  run_invariant (senderStep P siphash i) (fun s => Scheduled (s.queue i).queue) (fun _ a h => senderStep_scheduled h a)
    initial_scheduled as

end

/-! ## The records of what is queued -/

theorem TxQueue.Files.found {key : TurnKey} {peer flow : Fin TX_FLOW_LIMIT} {r : QueueRequest}
    (h : q.Files key peer flow) (hq : Filed q) (hr : r.turnKey key.locator = key) :
    queueTurnsLocked q key.locator r = .ok ((peer, false), (flow, false)) := by
  obtain ⟨⟨p, hp, hlocator⟩, f, hf, hkey⟩ := h
  have hpeer : q.peers.find? (fun p => p.locator = key.locator) = some peer :=
    Table.find?_eq_some_of_unique hp (decide_eq_true hlocator) fun j p' hp' h =>
      hq.peersKeyed j peer p' p hp' hp ((of_decide_eq_true h).trans hlocator.symm)
  have hflow : q.flows.find? (fun f => f.isFor key.locator r) = some flow :=
    Table.find?_eq_some_of_unique hf (TxFlowTurn.isFor_iff.mpr (hkey.trans hr.symm)) fun j f' hf' h =>
      hq.flowsKeyed j flow f' f hf' hf ((TxFlowTurn.isFor_iff.mp h).trans (hr.trans hkey.symm))
  simp only [queueTurnsLocked, queuePeerLocked, queueFlowLocked, hpeer, hflow]

/-- Who asks for the turn records of a frame or a message that is queued or reserved gets those it has. -/
structure TurnsFound (q : TxQueue) : Prop where
  entry : ∀ j e, q.entries j = some e → e.control = false → ∀ r : QueueRequest, r.turnKey e.turnKey.locator =
    e.turnKey → queueTurnsLocked q e.turnKey.locator r = .ok ((e.peerIndex, false), (e.flowIndex, false))
  reservation : ∀ j v, q.reservations j = some v → ∀ r : QueueRequest, r.turnKey v.locator = v.turnKey →
    queueTurnsLocked q v.locator r = .ok ((v.peerIndex, false), (v.flowIndex, false))

/-- In every reachable state a request finds the records that the entries of its peer and flow refer to. -/
theorem turns_found {n : Nat} (P : Platform) (siphash : Fin n → Octets → UInt64) (i : Fin n)
    (as : List (SenderLabel n)) : TurnsFound ((run (senderStep P siphash i) (Sender.initial n) as).queue i).queue := by
  have hq : Filed ((run (senderStep P siphash i) (Sender.initial n) as).queue i).queue := (run_scheduled as).filed
  exact ⟨fun j e he hdata r hr => (hq.entry j e he hdata).found hq hr,
    fun j v hv r hr => (hq.reservation j v hv).found hq hr⟩

/-! ## Selection by turns -/

/-- An entry is the next of a priority: its peer's turn is the least, then its flow's, and it is the oldest of the
flow. -/
structure InTurn (q : TxQueue) (nowMs priority : Nat) (e : TxEntry) : Prop where
  data : e.dataAt nowMs priority = true
  peer : ∃ p, q.peers e.peerIndex = some p ∧ p.locator = e.metadata.destinationLocator ∧
    ∀ j f, q.entries j = some f → f.dataAt nowMs priority = true →
      ∃ p', q.peers f.peerIndex = some p' ∧ p'.locator = f.metadata.destinationLocator ∧ p.turn ≤ p'.turn
  flow : ∃ x, q.flows e.flowIndex = some x ∧ x.turnKey = e.turnKey ∧
    ∀ j f, q.entries j = some f → f.dataAt nowMs priority = true →
      f.metadata.destinationLocator = e.metadata.destinationLocator →
      ∃ x', q.flows f.flowIndex = some x' ∧ x'.turnKey = f.turnKey ∧ x.turn ≤ x'.turn
  oldest : ∀ j f, q.entries j = some f → f.dataAt nowMs priority = true → f.turnKey = e.turnKey →
    e.sequence ≤ f.sequence

theorem Filed.same_peer (h : Filed q) {i : Fin TX_QUEUE_LIMIT} (he : q.entries i = some e) (hf : q.entries j = some f)
    (hdata : e.control = false) (hdata' : f.control = false)
    (hsame : f.metadata.destinationLocator = e.metadata.destinationLocator) : f.peerIndex = e.peerIndex := by
  obtain ⟨⟨p, hp, hlocator⟩, -⟩ := h.entry i e he hdata
  obtain ⟨⟨p', hp', hlocator'⟩, -⟩ := h.entry j f hf hdata'
  exact h.peersKeyed _ _ p' p hp' hp (hlocator'.trans (hsame.trans hlocator.symm))

theorem Filed.same_flow (h : Filed q) {i : Fin TX_QUEUE_LIMIT} (he : q.entries i = some e) (hf : q.entries j = some f)
    (hdata : e.control = false) (hdata' : f.control = false) (hsame : f.turnKey = e.turnKey) :
    f.flowIndex = e.flowIndex := by
  obtain ⟨-, x, hx, hkey⟩ := h.entry i e he hdata
  obtain ⟨-, x', hx', hkey'⟩ := h.entry j f hf hdata'
  exact h.flowsKeyed _ _ x' x hx' hx (hkey'.trans (hsame.trans hkey.symm))

theorem Due.inTurn {priority : Nat} {i : Fin TX_QUEUE_LIMIT} (h : Due q nowMs priority e) (hq : Filed q)
    (he : q.entries i = some e) : InTurn q nowMs priority e := by
  have hcontrol := TxEntry.dataAt_control h.data
  obtain ⟨⟨p, hp, hlocator⟩, x, hx, hkey⟩ := hq.entry i e he hcontrol
  have hpeerTurn : q.peerTurn e.peerIndex = p.turn := by rw [TxQueue.peerTurn, hp]; rfl
  have hflowTurn : q.flowTurn e.flowIndex = x.turn := by rw [TxQueue.flowTurn, hx]; rfl
  refine ⟨h.data, ⟨p, hp, hlocator, fun j f hf hdata => ?_⟩, ⟨x, hx, hkey, fun j f hf hdata hsame => ?_⟩,
    fun j f hf hdata hsame => ?_⟩
  · obtain ⟨⟨p', hp', hlocator'⟩, -⟩ := hq.entry j f hf (TxEntry.dataAt_control hdata)
    have hle := h.peer j f hf hdata
    rw [hpeerTurn, TxQueue.peerTurn, hp'] at hle
    exact ⟨p', hp', hlocator', hle⟩
  · obtain ⟨-, x', hx', hkey'⟩ := hq.entry j f hf (TxEntry.dataAt_control hdata)
    have hle := h.flow j f hf hdata (hq.same_peer he hf hcontrol (TxEntry.dataAt_control hdata) hsame)
    rw [hflowTurn, TxQueue.flowTurn, hx'] at hle
    exact ⟨x', hx', hkey', hle⟩
  · have hdata' := TxEntry.dataAt_control hdata
    exact h.oldest j f hf hdata (hq.same_peer he hf hcontrol hdata' (congrArg TurnKey.locator hsame))
      (hq.same_flow he hf hcontrol hdata' hsame)

theorem Scheduled.selects (h : Scheduled q) (hcount : q.queueSequence < U64_MAX) (hf : q.entries j = some f)
    (hdata : f.control = false) (heligible : f.eligible nowMs = true) : (queueData q nowMs).2.isSome = true := by
  refine queueData_isSome hf heligible hdata (h.ranked.entry j f hf)
    (fun j f hf => Nat.lt_of_le_of_lt (h.sequenced.le j f hf) hcount) (fun k => ?_) (fun k => ?_)
  · unfold TxQueue.peerTurn
    cases hp : q.peers k with
    | none => exact Nat.zero_le _
    | some p => exact (h.filed.peerTurn k p hp).trans h.filed.turn
  · unfold TxQueue.flowTurn
    cases hx : q.flows k with
    | none => exact Nat.zero_le _
    | some x => exact (h.filed.flowTurn k x hx).trans h.filed.turn

/-- Whenever a data entry may be taken, the selection takes one: of the priority chosen, of the peer and then the flow
that had their turn longest ago, and the oldest of that flow. -/
theorem data_selected_in_turn {n : Nat} (P : Platform) (siphash : Fin n → Octets → UInt64) (i : Fin n)
    (as : List (SenderLabel n)) (nowMs : Nat) :
    let q := ((run (senderStep P siphash i) (Sender.initial n) as).queue i).queue
    q.queueSequence < U64_MAX → (∃ j f, q.entries j = some f ∧ f.control = false ∧ f.eligible nowMs = true) →
      ∃ k e priority slot, (queueData q nowMs).2 = some k ∧ q.entries k = some e ∧
        queuePriority q nowMs = some (priority, slot) ∧ InTurn q nowMs priority e := by
  intro q hcount hdata
  have hq : Scheduled q := run_scheduled as
  obtain ⟨j, f, hf, hcontrol, heligible⟩ := hdata
  obtain ⟨k, hk⟩ := Option.isSome_iff_exists.mp (hq.selects hcount hf hcontrol heligible)
  obtain ⟨e, priority, slot, he, hpriority, hdue, -⟩ := queueData_some hk
  exact ⟨k, e, priority, slot, hk, he, hpriority, hdue.inTurn hq.filed he⟩

namespace Scenario

def messageTo (destination : NodeId) (service : UInt16) : List (SenderLabel 1) :=
  handIn ⟨{ request with destination := some destination, sourceService := service }, 3, 1, 1⟩ ++
    [.call 0 .locate, .call 0 (.enter ambient 0), .call 0 (.seal (fun _ => false) true), .call 0 (.enqueue true 0 true),
      .call 0 .finish]

def third : NodeId := 1 :: List.replicate 32 11

-- A second peer proves its key.
def meets : List (SenderLabel 1) :=
  let link := { link with sourceLocator := 3 }
  let auth := { challenge 2 with common.sourceNativeLocator := 11, sourceNodeId := third }
  [.node (.control (.hello { hello 1 with common.sourceNativeLocator := 11, nodeId := third } link true 0)),
    .node (.control (.announce [5] 2)), .node (.control (.challenge auth link true [8]))]

def goesOut : List (SenderLabel 1) :=
  [.queue (.select false 0), .check, .queue (.airtime none), .queue (.finish (.ok ()))]

-- Two flows to one peer and one to another; each peer has been served once.
def contended : List (SenderLabel 1) :=
  online ++ meets ++ messageTo there 5 ++ messageTo there 5 ++ messageTo there 8 ++ messageTo third 5 ++
    messageTo third 5 ++ goesOut ++ goesOut

end Scenario

theorem data_selected_in_turn_contended :
    let q := ((run (senderStep Platform.plain digest 0) (Sender.initial 1) contended).queue 0).queue
    ((q.peers.sum fun _ => 1) = 2 ∧ (q.flows.sum fun _ => 1) = 3 ∧ (queueData q 0).2.map (·.val) = some 2) ∧
      ∃ k e priority slot, (queueData q 0).2 = some k ∧ q.entries k = some e ∧
        queuePriority q 0 = some (priority, slot) ∧ InTurn q 0 priority e := by
  intro q
  have hrun : ((q.peers.sum fun _ => 1) = 2 ∧ (q.flows.sum fun _ => 1) = 3 ∧
      (queueData q 0).2.map (·.val) = some 2) ∧ q.queueSequence < U64_MAX ∧
        (q.entries.find? fun f => !f.control && f.eligible 0).isSome = true := by decide +kernel
  obtain ⟨j, f, hf, htest⟩ := Table.find?_isSome_iff.mp hrun.2.2
  simp only [Bool.and_eq_true, Bool.not_eq_true'] at htest
  exact ⟨hrun.1, data_selected_in_turn Platform.plain digest 0 contended 0 hrun.2.1 ⟨j, f, hf, htest.1, htest.2⟩⟩

/-! ## Control frames in a row -/

/-- What went out, and whether data waited when it was selected. -/
inductive Mark where
  | sent (control waiting : Bool)
  | drained
  deriving DecidableEq, Repr

def streak : List Mark → Nat
  | .sent true true :: marks => streak marks + 1
  | _ => 0

def TxQueue.dataWaits (q : TxQueue) (nowMs : Nat) : Bool :=
  (q.entries.find? fun e => !e.control && e.eligible nowMs).isSome

def waitingAfter (s : QueueState) (waiting : Bool) : QueueLabel → Bool
  | .select _ _ => if s.work.isSome then waiting else (queueExpireLocked s.queue s.nowMs).1.dataWaits s.nowMs
  | _ => waiting

def marksAfter (s : QueueState) (waiting : Bool) (marks : List Mark) (out : QueueOut) : QueueLabel → List Mark
  | .drainEntries =>
    if s.queue.stopping ∧ s.work = none ∧ (s.queue.reservations.find? fun _ => true) = none then .drained :: marks
      else marks
  | _ =>
    match out.sent with
    | some (e, _) => .sent e.control waiting :: marks
    | none => marks

def starved (marks : List Mark) : Prop := List.replicate (TX_CONTROL_BURST + 1) (.sent true true) <:+: marks

theorem le_streak {m : Nat} {marks : List Mark} (h : List.replicate m (.sent true true) <+: marks) :
    m ≤ streak marks := by
  induction m generalizing marks with
  | zero => exact Nat.zero_le _
  | succ m ih =>
    obtain ⟨rest, rfl⟩ := h
    exact Nat.succ_le_succ (ih ⟨rest, rfl⟩)

theorem not_starved_cons {x : Mark} {marks : List Mark} (h : ¬starved marks)
    (hx : streak (x :: marks) ≤ TX_CONTROL_BURST) : ¬starved (x :: marks) := by
  intro hbad
  rcases List.infix_cons_iff.mp hbad with hprefix | hinfix
  · exact absurd ((le_streak hprefix).trans hx) (Nat.not_succ_le_self _)
  · exact h hinfix

/-- The count of `melodi_queue_commit` covers the frames in a row, and a control frame goes on its way past waiting
data only below the limit. -/
structure Tallied (s : QueueState) (waiting : Bool) (marks : List Mark) : Prop where
  covered : streak marks ≤ s.queue.controlBurst
  spared : ¬starved marks
  choice : ∀ w e, s.work = some w → s.queue.entries w.slot = some e → e.control = true → waiting = true →
    s.queue.controlBurst < TX_CONTROL_BURST

theorem Scheduled.loses (h : Scheduled q) (hloses : Loses q q') : Scheduled q' := by
  refine ⟨h.filed.loses hloses, ⟨fun i e' he' => ?_, fun j v' hv' => ?_⟩,
    ⟨fun i e' he' => ?_, fun i j a b ha hb hab => ?_⟩⟩
  · obtain ⟨e, he, ht⟩ := hloses.entry i e' he'
    exact ht.turnKey.2.2.2.2 ▸ h.ranked.entry i e he
  · obtain ⟨v, hv, hn⟩ := hloses.reservation j v' hv'
    exact hn.turnKey.2.2.2 ▸ h.ranked.reservation j v hv
  · obtain ⟨e, he, ht⟩ := hloses.entry i e' he'
    rw [ht.sequence, hloses.sequence]
    exact h.sequenced.le i e he
  obtain ⟨a₀, ha₀, hta⟩ := hloses.entry i a ha
  obtain ⟨b₀, hb₀, htb⟩ := hloses.entry j b hb
  exact h.sequenced.keyed i j a₀ b₀ ha₀ hb₀ (hta.sequence.symm.trans (Eq.trans hab htb.sequence))

theorem queueSelect_control (h : Scheduled q) (hcount : q.queueSequence < U64_MAX) (hwaits : q.dataWaits nowMs = true)
    {k : Fin TX_QUEUE_LIMIT} (hk : (queueSelect q nowMs).2 = some k) (he : (queueSelect q nowMs).1.entries k = some e)
    (hcontrol : e.control = true) : q.controlBurst < TX_CONTROL_BURST := by
  unfold queueSelect at hk he
  dsimp only at hk he
  split_ifs at hk he with hburst
  · exact hburst.2
  exfalso
  obtain ⟨j, f, hf, htest⟩ := Table.find?_isSome_iff.mp hwaits
  rw [Bool.and_eq_true, Bool.not_eq_true'] at htest
  obtain ⟨d, hd⟩ := Option.isSome_iff_exists.mp (h.selects hcount hf htest.1 htest.2)
  obtain ⟨e₀, priority, slot, he₀, -, hdue, -⟩ := queueData_some hd
  have hentry : (queueData q nowMs).1.entries d = some e₀ := by
    obtain ⟨_, _, _, _, hsame⟩ := queueData_same q nowMs
    rw [hsame]
    exact he₀
  rw [hd, Option.some_or, queueMark, hentry] at hk he
  obtain rfl := Option.some.inj hk
  rw [entryUpdate_entries, Table.set_self] at he
  obtain rfl := Option.some.inj he
  exact absurd (TxEntry.dataAt_control hdue.data) (by rw [Bool.not_eq_false]; exact hcontrol)

section
variable {s : QueueState} {waiting : Bool} {marks : List Mark}

theorem Tallied.letGo (h : Tallied s waiting marks) (hburst : q.controlBurst = s.queue.controlBurst) {waiting' : Bool} :
    Tallied { s with queue := q, work := none } waiting' marks where
  covered := hburst ▸ h.covered
  spared := h.spared
  choice := nofun

theorem Tallied.goOn (h : Tallied s waiting marks) {w : WorkStage} (hwork : s.work = some w) (w' : WorkStage)
    (hslot : w'.slot = w.slot) (hburst : q.controlBurst = s.queue.controlBurst)
    (hentries : q.entries = s.queue.entries) : Tallied { s with queue := q, work := some w' } waiting marks where
  covered := hburst ▸ h.covered
  spared := h.spared
  choice := by
    intro w'' e hw he hcontrol hwaiting
    obtain rfl := Option.some.inj hw
    rw [hburst]
    rw [hslot, hentries] at he
    exact h.choice w e hwork he hcontrol hwaiting

theorem Tallied.select (h : Tallied s waiting marks) (hq : Scheduled s.queue) (hcount : s.queue.queueSequence < U64_MAX)
    {linkBusy : Bool} {guardMs : Nat} {notice : Option Notice} {i : Option (Fin TX_QUEUE_LIMIT)}
    (hselect : queueWorkSelect s.queue s.nowMs linkBusy guardMs = (q, notice, i)) :
    Tallied { s with queue := q, work := i.map .selected } ((queueExpireLocked s.queue s.nowMs).1.dataWaits s.nowMs)
    marks := by
  have hedits :=
    queueWorkSelect_edits (K := fun k => k = .entries ∨ k = .flight ∨ k = .turns) (.inl rfl) (.inr (.inl rfl))
    (.inr (.inr rfl)) s.queue s.nowMs linkBusy guardMs
  have hexpire := queueExpireLocked_edits (K := (· = .entries)) rfl s.queue s.nowMs
  have hcases := queueWorkSelect_cases s.queue s.nowMs linkBusy guardMs
  rw [hselect] at hedits hcases
  have hburst : q.controlBurst = s.queue.controlBurst := hedits.meters.2 (by simp)
  generalize queueExpireLocked s.queue s.nowMs = expired at hexpire hcases ⊢
  refine ⟨hburst ▸ h.covered, h.spared, fun w e hw he hcontrol hwaits => ?_⟩
  obtain ⟨k, rfl, rfl⟩ := Option.map_eq_some_iff.mp hw
  rw [hburst]
  rcases hcases with ⟨-, hnone⟩ | ⟨-, guard, hnone | hsome⟩
  · cases hnone
  · cases hnone
  have hguard : Loses s.queue { expired.1 with guardUntilMs := guard } := (hexpire.loses nofun).trans (.of_agenda rfl)
  obtain ⟨rfl, -, hk⟩ := by simpa only [Prod.mk.injEq] using hsome
  have hlimit := queueSelect_control (hq.loses hguard) (hguard.sequence ▸ hcount) hwaits hk.symm he hcontrol
  have hsame : expired.1.controlBurst = s.queue.controlBurst := hexpire.meters.2 nofun
  exact hsame ▸ hlimit

theorem Tallied.send (h : Tallied s waiting marks) {i : Fin TX_QUEUE_LIMIT} {durationUs ms : Nat} (admitted : Bool)
    (hwork : s.work = some (.transmitting i durationUs ms)) (he : s.queue.entries i = some e) :
    Tallied { s with queue := queueCommit (queueRemoveLocked s.queue i) e.control admitted, work := none } waiting
      (.sent e.control waiting :: marks) := by
  have hremove : (queueRemoveLocked s.queue i).controlBurst = s.queue.controlBurst :=
    congrArg Prod.snd (queueRemoveLocked_meters s.queue i)
  have hcommit : (queueCommit (queueRemoveLocked s.queue i) e.control admitted).controlBurst =
      if e.control ∧ s.queue.controlBurst < U8_MAX then s.queue.controlBurst + 1 else 0 := by
    rw [← hremove]
    cases admitted <;> rfl
  have hchoice := h.choice _ e hwork he
  have hstreak := h.covered
  by_cases hpast : e.control = true ∧ waiting = true
  · -- the count was below the limit at the selection, and is one more now
    obtain ⟨hcontrol, rfl⟩ := hpast
    have hlimit := hchoice hcontrol rfl
    have hbelow : s.queue.controlBurst < U8_MAX := hlimit.trans (by decide)
    rw [if_pos ⟨hcontrol, hbelow⟩] at hcommit
    rw [hcontrol] at hcommit ⊢
    refine ⟨?_, not_starved_cons h.spared ?_, nofun⟩
    · rw [hcommit]
      exact Nat.succ_le_succ hstreak
    · exact (Nat.succ_le_succ hstreak).trans hlimit
  · have hzero : streak (.sent e.control waiting :: marks) = 0 := by
      cases hc : e.control with
      | false => rfl
      | true =>
        cases waiting with
        | false => rfl
        | true => exact absurd ⟨hc, rfl⟩ hpast
    exact ⟨hzero ▸ Nat.zero_le _, not_starved_cons h.spared (hzero ▸ Nat.zero_le _), nofun⟩

theorem queueStep_tallied (siphash : Octets → UInt64) (hq : Scheduled s.queue)
    (hcount : s.queue.queueSequence < U64_MAX) (hheld : Held s) (h : Tallied s waiting marks) (a : QueueLabel) :
    Tallied (queueStep siphash s a).1 (waitingAfter s waiting a)
    (marksAfter s waiting marks (queueStep siphash s a).2 a) := by
  cases hworker : a.ofWorker with
  | true =>
    have hstep : queueStep siphash s a = workStep s a := by
      cases a with
      | select | check | airtime | finish => rfl
      | _ => cases hworker
    have hworks := workStep_works s a
    rw [hstep]
    generalize workStep s a = result at hworks
    obtain ⟨s', out⟩ := result
    have hburst := hworks.edits.meters.2
    have hremove : ∀ i, (queueRemoveLocked s.queue i).controlBurst = s.queue.controlBurst :=
      fun i => congrArg Prod.snd (queueRemoveLocked_meters s.queue i)
    cases hworks with
    | idle hidle =>
      have hwaiting : waitingAfter s' waiting a = waiting := by
        cases a with
        | select linkBusy guardMs => exact if_pos (hidle linkBusy guardMs rfl)
        | _ => rfl
      have hmarks : marksAfter s' waiting marks {} a = marks := by
        cases a with
        | drainEntries => cases hworker
        | _ => rfl
      rw [hwaiting]
      dsimp only
      rw [hmarks]
      exact h
    | selects hwork hselect =>
      have hwaiting : ∀ linkBusy guardMs, waitingAfter s waiting (.select linkBusy guardMs) =
          (queueExpireLocked s.queue s.nowMs).1.dataWaits s.nowMs := fun _ _ => if_neg (by rw [hwork]; decide)
      rw [hwaiting]
      exact h.select hq hcount hselect
    | passes hwork he => exact h.goOn hwork (.checked _) rfl rfl rfl
    | refuses => exact h.letGo (hburst nofun)
    | drops => exact h.letGo (hburst nofun)
    | defers => exact h.letGo (hburst nofun)
    | @transmits _ _ e c hwork =>
      exact h.goOn hwork (.transmitting _ _ _) rfl (hburst nofun)
        ((queueAirtimeLocked_edits (K := (· = .windows)) rfl _ c e.isBroadcastData s.nowMs).entries nofun)
    | sends hwork he => exact h.send _ hwork he
    | retries => exact h.letGo (by rfl)
    | fails => exact h.letGo (hremove _)
  | false =>
    have hwaiting : waitingAfter s waiting a = waiting := by
      cases a with
      | select => cases hworker
      | _ => rfl
    rw [hwaiting]
    by_cases hdrain : a = .drainEntries
    · subst hdrain
      unfold queueStep marksAfter
      dsimp only
      split
      · exact ⟨Nat.zero_le _, not_starved_cons h.spared (Nat.zero_le _), fun w e hw => absurd hw (by simp [*])⟩
      · exact h
    · -- the worker's entry stays, and nothing is handed over
      obtain ⟨hkept, hwork, hsent⟩ := queueStep_kept siphash hheld hworker
      have hburst : (queueStep siphash s a).1.queue.controlBurst = s.queue.controlBurst :=
        congrArg Prod.snd (queueStep_meters siphash s hworker hdrain)
      have hmarks : marksAfter s waiting marks (queueStep siphash s a).2 a = marks := by
        unfold marksAfter
        rw [hsent]
        split
        · exact absurd rfl hdrain
        · rfl
      rw [hmarks]
      refine ⟨hburst ▸ h.covered, h.spared, fun w e hw he hcontrol hwaits => ?_⟩
      rw [hwork] at hw
      obtain ⟨e₀, he₀, hflight⟩ := hheld.entry hw
      obtain ⟨cancelled, notified, hnew⟩ := hkept w.slot e₀ he₀ hflight
      rw [hnew] at he
      obtain rfl := Option.some.inj he
      rw [hburst]
      exact h.choice w e₀ hw he₀ hcontrol hwaits

end

section
variable {n : Nat}

/-- A sender with what its worker selected. -/
structure Watch (n : Nat) where
  sender : Sender n := Sender.initial n
  waiting : Bool := false
  marks : List Mark := []

def Sender.latest (s s' : Sender n) : Option (QueueLabel × QueueOut) :=
  if s.trail.length < s'.trail.length then s'.trail.head? else none

def watchStep (P : Platform) (siphash : Fin n → Octets → UInt64) (i : Fin n) (w : Watch n) (a : SenderLabel n) :
    Watch n :=
  let s' := senderStep P siphash i w.sender a
  match w.sender.latest s' with
  | none => { w with sender := s' }
  | some (b, out) =>
    ⟨s', waitingAfter (w.sender.queue i) w.waiting b, marksAfter (w.sender.queue i) w.waiting w.marks out b⟩

variable {P : Platform} {siphash : Fin n → Octets → UInt64} {i : Fin n}

theorem watchStep_sender (w : Watch n) (a : SenderLabel n) :
    (watchStep P siphash i w a).sender = senderStep P siphash i w.sender a := by
  unfold watchStep
  dsimp only
  split <;> rfl

theorem run_watch_sender (w : Watch n) (as : List (SenderLabel n)) :
    (run (watchStep P siphash i) w as).sender = run (senderStep P siphash i) w.sender as := by
  induction as generalizing w with
  | nil => rfl
  | cons a as ih => rw [run_cons, run_cons, ih, watchStep_sender]

structure Watch.Kept (i : Fin n) (w : Watch n) : Prop where
  scheduled : Scheduled (w.sender.queue i).queue
  held : Held (w.sender.queue i)
  counted : (w.sender.queue i).queue.queueSequence < U64_MAX → Tallied (w.sender.queue i) w.waiting w.marks

theorem watchStep_kept {w : Watch n} (h : w.Kept i) (a : SenderLabel n) : (watchStep P siphash i w a).Kept i := by
  have hsender : (watchStep P siphash i w a).sender = senderStep P siphash i w.sender a := watchStep_sender w a
  have hruns : w.sender.Runs P siphash i (senderStep P siphash i w.sender a) := senderStep_runs w.sender a
  have hscheduled : Scheduled ((senderStep P siphash i w.sender a).queue i).queue := senderStep_scheduled h.scheduled a
  unfold watchStep
  dsimp only
  generalize senderStep P siphash i w.sender a = s' at hruns hscheduled ⊢
  rcases hruns.queue with ⟨ns, hqueue, htrail⟩ | ⟨b, hissues, hqueue, htrail⟩
  · have hnone : w.sender.latest s' = none := if_neg (by rw [htrail]; exact lt_irrefl _)
    rw [hnone]
    refine ⟨hscheduled, ?_, fun hcount => ?_⟩
    · dsimp only
      rw [hqueue]
      exact h.held
    · dsimp only at hcount ⊢
      rw [hqueue] at hcount ⊢
      have hcounted := h.counted hcount
      exact ⟨hcounted.covered, hcounted.spared, hcounted.choice⟩
  · have hsome : w.sender.latest s' = some (b, (queueStep (siphash i) (w.sender.queue i) b).2) := by
      rw [Sender.latest, htrail, if_pos (by exact Nat.lt_succ_self _)]
      rfl
    rw [hsome]
    refine ⟨hscheduled, ?_, fun hcount => ?_⟩
    · dsimp only
      rw [hqueue]
      exact queueStep_held (siphash i) h.held b
    dsimp only at hcount ⊢
    rw [hqueue] at hcount ⊢
    have hgrows := (queueStep_tends (siphash i) (w.sender.queue i) b h.scheduled.sequenced).2.sequence
    have hbefore := Nat.lt_of_le_of_lt hgrows hcount
    exact queueStep_tallied (siphash i) h.scheduled hbefore h.held (h.counted hbefore) b

theorem initial_kept : ({} : Watch n).Kept i where
  scheduled := initial_scheduled
  held := fun _ => rfl
  counted _ := ⟨Nat.zero_le _, fun h => (nomatch List.eq_nil_of_infix_nil h), nofun⟩

/-- **Control frames do not starve data.** In every run of a device in which fewer than `2^64 - 1` frames were queued,
there are never more than eight control frames handed over one after the other without a drain in between, each
selected while some data entry could be taken. -/
theorem control_spares_data (P : Platform) (siphash : Fin n → Octets → UInt64) (i : Fin n) (as : List (SenderLabel n)) :
    let w := run (watchStep P siphash i) {} as
    w.sender = run (senderStep P siphash i) (Sender.initial n) as ∧
      ((w.sender.queue i).queue.queueSequence < U64_MAX → ¬starved w.marks) := by
  intro w
  have hkept : w.Kept i :=
    run_invariant (watchStep P siphash i) (Watch.Kept i) (fun _ a h => watchStep_kept h a) initial_kept as
  exact ⟨run_watch_sender {} as, fun hcount => (hkept.counted hcount).spared⟩

instance : DecidablePred starved := fun marks =>
  inferInstanceAs (Decidable (List.replicate (TX_CONTROL_BURST + 1) (.sent true true) <:+: marks))

namespace Scenario

def beacon : List (SenderLabel 1) := .control [1] {} true 0 true :: goesOut

def bounce : List (SenderLabel 1) := [.queue .stop, .queue .drainEntries, .queue .start]

def bounced : List (SenderLabel 1) :=
  online ++ messageTo there 5 ++ (List.replicate 8 beacon).flatten ++ bounce ++ messageTo there 5 ++ beacon

end Scenario

theorem control_spares_data_bounced :
    let w := run (watchStep Platform.plain digest 0) {} bounced
    w.marks.length = 10 ∧ ¬starved w.marks :=
  ⟨by decide +kernel, (control_spares_data Platform.plain digest 0 bounced).2 (by decide +kernel)⟩

/-- The drain starts the count again: nine control frames in a row go out past data that waits. -/
theorem drain_starves_data :
    starved ((run (watchStep Platform.plain digest 0) {} bounced).marks.filter (· ≠ .drained)) := by
  decide +kernel

end

end Melodi
