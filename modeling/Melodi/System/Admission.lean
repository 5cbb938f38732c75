import Melodi.Core.Effects
import Melodi.System.Sender

/-!
# Admission on an idle device

`melodi_data_admit` splits a message into at most `FRAGMENT_LIMIT` fragments and reserves a place in the queue for
them. The queue holds at most `TX_PER_PEER_LIMIT` frames for one peer, service or binding, which is half of that: a
longer message is refused even when nothing is queued.

* `idle_admission` : the messages that are admitted. `long_message_refused` : one of 33 fragments is not.
-/

namespace Melodi
open Lib Scenario

/-! ## An idle queue -/

structure TxQueue.Idle (q : TxQueue) : Prop where
  running : q.stopping = false
  entries : q.entries = Table.empty
  reservations : q.reservations = Table.empty
  peers : q.peers = Table.empty
  flows : q.flows = Table.empty
  queued : q.queueCount = 0 ∧ q.queueBytes = 0
  reserved : q.reservedCount = 0 ∧ q.reservedBytes = 0 ∧ q.pendingReserved = 0

def TxQueue.account (q : TxQueue) (net : Nat) : NamespaceQueue :=
  (namespaceQueueFind q.namespaces net).getD { net := net }

def TxQueue.Charges (q : TxQueue) (net : Nat) (alloc : Bool) (count bytes : Nat) : Prop :=
  ((namespaceQueueFind q.namespaces net).isSome = true ∨ alloc = true) ∧
    (q.account net).messages + count ≤ TX_NAMESPACE_LIMIT ∧ (q.account net).bytes + bytes ≤ TX_NAMESPACE_BYTE_LIMIT

variable {q : TxQueue} {net : Nat} {r : QueueRequest} {count bytes : Nat} {alloc : Bool} {locator : UInt32}

theorem namespaceQueueGet_account {ns : List NamespaceQueue} (h : namespaceQueueGet q.namespaces net alloc = some ns) :
    (namespaceQueueFind ns net).getD { net := net } = q.account net := by
  unfold namespaceQueueGet at h
  unfold TxQueue.account
  split at h
  · rw [Option.some.inj h]
  rename_i hnone
  split_ifs at h
  obtain rfl := Option.some.inj h
  have hnew : namespaceQueueFind (q.namespaces ++ [{ net := net }]) net = some { net := net } := by
    rw [namespaceQueueFind, List.find?_append, show q.namespaces.find? _ = none from hnone]
    simp
  rw [hnew, hnone]
  rfl

theorem TxQueue.Idle.usage (h : q.Idle) (entry : TxEntry → Bool) (reservation : TxReservation → Bool) :
    queueUsage q entry reservation = 0 := by
  rw [queueUsage, h.entries, h.reservations, Table.sum_empty, Table.sum_empty]

theorem capacityCheck_idle (h : q.Idle) (hdata : r.control = false) (hbytes : bytes ≤ TX_BYTE_LIMIT)
    (n : NamespaceQueue) (locator : UInt32) (count : Nat) :
    capacityCheck q n locator r count bytes = .ok () ↔
      count ≤ TX_PER_PEER_LIMIT ∧ n.messages + count ≤ TX_NAMESPACE_LIMIT ∧ n.bytes + bytes ≤
      TX_NAMESPACE_BYTE_LIMIT := by
  rw [capacityCheck_ok, dataUsage, peerUsage, serviceUsage, bindingUsage, h.usage, h.usage, h.usage, h.usage,
    h.queued.1, h.queued.2, h.reserved.1, h.reserved.2.1]
  simp only [hdata, true_implies, TX_QUEUE_LIMIT, TX_DATA_LIMIT, TX_PER_PEER_LIMIT, TX_PER_SERVICE_LIMIT,
    TX_PER_BINDING_LIMIT]
  omega

theorem TxQueue.Idle.turns (h : q.Idle) (ns : List NamespaceQueue) (locator : UInt32) (r : QueueRequest) :
    ∃ peer flow, queueTurnsLocked { q with namespaces := ns } locator r = .ok (peer, flow) := by
  have hpeer : queuePeerLocked { q with namespaces := ns } locator = .ok (⟨0, by decide⟩, true) := by
    rw [queuePeerLocked, h.peers]
    rfl
  have hflow : queueFlowLocked { q with namespaces := ns } locator r = .ok (⟨0, by decide⟩, true) := by
    rw [queueFlowLocked, h.flows]
    rfl
  rw [queueTurnsLocked, hpeer, hflow]
  exact ⟨_, _, rfl⟩

theorem queueReserve_idle (h : q.Idle) {a : ReserveArgs} {nowMs : Nat}
    (hsize : a.count ≠ 0 ∧ a.bytes ≠ 0 ∧ a.bytes ≤ TX_BYTE_LIMIT)
    (hdata : r.control = false) (hreliable : r.reliable = a.reliable) (hpending : a.activePending = 0)
    (httl : r.ttlMs ≠ 0 ∧ r.ttlMs ≤ TTL_DEFAULT_MS) :
    (∃ id, (queueReserve q a r nowMs alloc).2 = .ok id) ↔
      a.count ≤ TX_PER_PEER_LIMIT ∧ q.Charges a.net alloc a.count a.bytes ∧ nowMs ≤ U64_MAX - r.ttlMs ∧
        q.reservationSequence ≠ U64_MAX := by
  obtain ⟨hcount, hbytes, hlimit⟩ := hsize
  have hargs : ¬(a.count = 0 ∨ a.bytes = 0 ∨ r.control = true ∨ r.ttlMs = 0 ∨ r.reliable ≠ a.reliable ∨
      TTL_DEFAULT_MS < r.ttlMs) := by
    simp only [hcount, hbytes, hdata, httl.1, hreliable, Bool.false_eq_true, ne_eq, not_true_eq_false, false_or]
    exact Nat.not_lt.mpr httl.2
  have hfree : q.reservations.free? = some ⟨0, by decide⟩ := by
    rw [h.reservations]
    rfl
  unfold queueReserve
  rw [if_neg hargs]
  by_cases hclock : U64_MAX - r.ttlMs < nowMs
  · rw [if_pos hclock]
    exact ⟨nofun, fun hall => absurd hall.2.2.1 (by omega)⟩
  rw [if_neg hclock,
    if_neg (by rw [h.running]; decide), if_neg (by rw [hpending, h.reserved.2.2]; simp [PENDING_LIMIT]), hfree]
  dsimp only
  unfold queueCapacityLocked TxQueue.Charges
  cases hget : namespaceQueueGet q.namespaces a.net alloc with
  | none =>
    refine ⟨nofun, fun hall => ?_⟩
    unfold namespaceQueueGet at hget
    split at hget
    · cases hget
    rename_i hnone
    split_ifs at hget with halloc
    rcases hall.2.1.1 with hsome | halloc'
    · rw [hnone] at hsome
      cases hsome
    · exact absurd halloc' halloc
  | some ns =>
    have hrecord : (namespaceQueueFind q.namespaces a.net).isSome = true ∨ alloc = true := by
      unfold namespaceQueueGet at hget
      split at hget
      · exact .inl (by simp [*])
      · split_ifs at hget with halloc
        exact .inr halloc
    have hcheck := capacityCheck_idle h hdata hlimit (q.account a.net) a.locator a.count
    dsimp only
    rw [namespaceQueueGet_account hget]
    cases hresult : capacityCheck q (q.account a.net) a.locator r a.count a.bytes with
    | error e =>
      rw [hresult] at hcheck
      exact ⟨nofun, fun hall => nomatch hcheck.mpr ⟨hall.1, hall.2.1.2⟩⟩
    | ok =>
      obtain ⟨hcount, hroom⟩ := hcheck.mp hresult
      obtain ⟨peer, flow, hturns⟩ := h.turns ns a.locator r
      dsimp only
      rw [hturns]
      dsimp only
      by_cases hlast : q.reservationSequence = U64_MAX
      · rw [if_pos hlast]
        exact ⟨nofun, fun hall => absurd hlast hall.2.2.2⟩
      · rw [if_neg hlast]
        exact ⟨fun _ => ⟨hcount, ⟨hrecord, hroom⟩, by omega, hlast⟩, fun _ => ⟨_, rfl⟩⟩

/-! ## Admission -/

/-- The device has its identity and link, and a session with `node` that its policy lets the message use. -/
structure Reaches (P : Platform) (d : Device) (m : Submission) (node : NodeId) : Prop where
  request : sendCheck P m.request = .ok node
  identity : d.identityReady = true
  transport : d.transportReady = true
  session : ∃ p, (peerByNode d node).bind d.peers = some p ∧ p.sessionReady = true ∧ p.conflicted = false
  policy : policyCheckMessageLocked d node m.request.destinationService false = .ok ()

variable {P : Platform} {d : Device} {m : Submission} {node : NodeId} {message : Nat} {a : AdmitAmbient}

theorem Reaches.target (h : Reaches P d m node) (hdest : m.request.destination = some node) :
    ∃ target, Submit.admitTarget d m.request = .ok target := by
  obtain ⟨p, hp, hready, hconflict⟩ := h.session
  unfold Submit.admitTarget
  rw [hdest]
  dsimp only
  rw [hp, h.policy, Option.filter_some_pos (by simp [hready, hconflict])]
  exact ⟨_, rfl⟩

theorem Reaches.reserveArgs (h : Reaches P d m node) (pending : Table PENDING_LIMIT PendingMessage) (message : Nat)
    (hup : a.up = true) (hcount : fragmentCountFor a.frameMtu m.request.payload.length = .ok count) :
    ∃ args r, Submit.reserveArgs P d pending m message a = .ok (args, r) ∧ args.net = a.net ∧ args.count = count ∧
      args.bytes = WIRE_DATA_SIZE * count + m.request.payload.length ∧ r.control = false ∧
      r.ttlMs = m.request.ttlMs := by
  obtain ⟨hform, hdest, hbroadcast, hnode, hecho⟩ := sendCheck_ok h.request
  obtain ⟨⟨locator, generation, epoch⟩, htarget⟩ := h.target hdest
  have hcheck : Submit.admitCheck P m.request a = .ok (count, WIRE_DATA_SIZE) := by
    unfold Submit.admitCheck
    rw [if_neg (by simp [hform, hdest, hbroadcast]), if_neg (by simp [hdest, hnode]), if_neg (by simp [hbroadcast]),
      if_neg (fun hall => hecho hall.2), if_neg (by simp [hup])]
    simp only [hbroadcast, Bool.false_eq_true, if_false, Nat.add_zero]
    rw [show fragmentCountWith WIRE_DATA_SIZE _ _ = .ok count from hcount]
    rfl
  unfold Submit.reserveArgs
  rw [hcheck]
  dsimp only
  rw [if_neg (by simp [h.identity]), if_neg (by simp [h.transport]), htarget]
  exact ⟨_, _, rfl, rfl, rfl, rfl, rfl, rfl⟩

/-- An idle device admits every message of no more fragments than a peer may have in the queue. -/
theorem idle_admission (h : Reaches P d m node) {t : Transmit} (hidle : t.queue.Idle)
    (hpending : t.pending = Table.empty)
    (hup : a.up = true) (hcount : fragmentCountFor a.frameMtu m.request.payload.length = .ok count) (nowMs : Nat) :
    (∃ id, (Submit.dataAdmit P d t m message a nowMs).2 = .ok id) ↔
      count ≤ TX_PER_PEER_LIMIT ∧ t.queue.Charges a.net a.alloc count
      (WIRE_DATA_SIZE * count + m.request.payload.length) ∧
        nowMs ≤ U64_MAX - m.request.ttlMs ∧ t.queue.reservationSequence ≠ U64_MAX := by
  obtain ⟨args, r, hargs, hnet, hargCount, hbytes, hdata, httl⟩ := h.reserveArgs t.pending message hup hcount
  obtain ⟨x, generation, epoch, -, -, -, hreliable, hactive, hr⟩ := Submit.reserveArgs_ok hargs
  have hform := (sendCheck_ok h.request).1
  simp only [SendRequest.malformed, Bool.or_eq_false_iff, decide_eq_false_iff_not, Nat.not_lt] at hform
  obtain ⟨⟨⟨⟨⟨⟨hlength, -⟩, httlPos⟩, httlMax⟩, -⟩, -⟩, -⟩ := hform
  have hfragments : count ≤ FRAGMENT_LIMIT := fragmentCountWith_le hcount
  have hpos := (fragmentCountWith_ok hcount).2.1
  have hsize : args.count ≠ 0 ∧ args.bytes ≠ 0 ∧ args.bytes ≤ TX_BYTE_LIMIT := by
    rw [hargCount, hbytes]
    simp only [WIRE_DATA_SIZE, TX_BYTE_LIMIT, MESSAGE_MTU, FRAGMENT_LIMIT] at hlength hfragments ⊢
    omega
  have hzero : args.activePending = 0 := by
    rw [hactive, hpending, Table.sum_empty, ite_self]
  unfold Submit.dataAdmit
  rw [hargs]
  dsimp only
  rw [queueReserve_idle hidle hsize hdata
    (by rw [hreliable, hr]; rfl) hzero (by rw [httl]; exact ⟨httlPos, httlMax⟩), hnet, hargCount, hbytes, httl]

namespace Scenario

def atRest : Sender 1 := run (senderStep Platform.plain digest (.last 0)) (Sender.initial 1) online

def lengthy (length : Nat) : Submission :=
  { submission F_AUTH_REQUIRED with request := { request with payload := List.replicate length 0 } }

theorem atRest_idle : (atRest.transmit 0).queue.Idle where
  running := by decide +kernel
  entries := funext (by decide +kernel)
  reservations := funext (by decide +kernel)
  peers := funext (by decide +kernel)
  flows := funext (by decide +kernel)
  queued := by decide +kernel
  reserved := by decide +kernel

theorem lengthy_reaches {length : Nat} (h : sendCheck Platform.plain (lengthy length).request = .ok there) :
    Reaches Platform.plain atRest.node.dev (lengthy length) there where
  request := h
  identity := by decide +kernel
  transport := by decide +kernel
  session := by
    have h : (((peerByNode atRest.node.dev there).bind atRest.node.dev.peers).any fun p => p.sessionReady &&
      !p.conflicted) =
        true := by decide +kernel
    cases hp : (peerByNode atRest.node.dev there).bind atRest.node.dev.peers with
    | none =>
      rw [hp] at h
      cases h
    | some p =>
      rw [hp] at h
      exact ⟨p, rfl, by simpa using h⟩
  policy := by
    have h : policyCheckMessageLocked atRest.node.dev there request.destinationService false =
      .ok () := by decide +kernel
    exact h

end Scenario

theorem idle_admission_long :
    ∃ id, (Submit.dataAdmit Platform.plain atRest.node.dev (atRest.transmit 0)
    (lengthy 32) 1 ⟨true, 0, 81, true⟩ 0).2 = .ok id :=
  (idle_admission (lengthy_reaches (by decide +kernel)) atRest_idle rfl rfl
    (by decide : fragmentCountFor 81 (lengthy 32).request.payload.length = .ok 32) 0).mpr
    ⟨by decide, ⟨by decide +kernel, by decide +kernel, by decide +kernel⟩, by decide +kernel, by decide +kernel⟩

/-- A message of more fragments than a peer may have in the queue is refused by an idle device. -/
theorem long_message_refused : Reaches Platform.plain atRest.node.dev (lengthy 33) there ∧
    (atRest.transmit 0).queue.Idle ∧ (atRest.transmit 0).pending = Table.empty ∧
    fragmentCountFor 81 33 = .ok 33 ∧ 33 ≤ FRAGMENT_LIMIT ∧
    (Submit.dataAdmit Platform.plain atRest.node.dev (atRest.transmit 0) (lengthy 33) 1
      ⟨true, 0, 81, true⟩ 0).2 = .error .ENOBUFS :=
  ⟨lengthy_reaches (by decide +kernel), atRest_idle, rfl, by decide, by decide, by decide +kernel⟩

end Melodi
