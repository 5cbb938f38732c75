import Melodi.Core.Queue
import Melodi.Core.Send
import Melodi.Proto.Reliability

/-!
# Messages that wait (`data.c`)

A reliable message stays in the pending table until it is acknowledged; a message to a node without a session waits in
the discovery queue.
-/

namespace Melodi
open Lib

def DISCOVERY_TARGET_LIMIT : Nat := 16
def DISCOVERY_PENDING_LIMIT : Nat := 32
def DISCOVERY_PER_NODE_LIMIT : Nat := 4
def DISCOVERY_BYTE_LIMIT : Nat := MESSAGE_MTU * 8
def DISCOVERY_TIMEOUT_MS : Nat := 5000

/-! ## The records -/

structure PendingMessage where
  reliability : ReliabilityState
  destination : NodeId
  fragments : List Octets
  reservationId : Nat
  cookie : UInt64
  expiresMs : Nat
  sessionEpoch : UInt64
  bindingGeneration : UInt64
  sourceNativeLocator : UInt32
  destinationNativeLocator : UInt32
  sourceLinkLocator : UInt32
  destinationLinkLocator : UInt32
  destinationGeneration : UInt32
  sourceService : UInt16
  destinationService : UInt16
  bindingPortid : UInt32
  priority : Nat
  message : Nat
  deriving DecidableEq, Repr

structure DiscoveryTarget where
  destination : NodeId
  expiresMs : Nat
  deriving DecidableEq, Repr

structure DiscoveryPending where
  destination : NodeId
  payload : Octets
  cookie : UInt64
  expiresMs : Nat
  bindingGeneration : UInt64
  bindingPortid : UInt32
  flags : UInt32
  sourceService : UInt16
  destinationService : UInt16
  priority : Nat
  inFlight : Bool := false
  message : Nat
  deriving DecidableEq, Repr

structure DiscoveryQueue where
  pending : Table DISCOVERY_PENDING_LIMIT DiscoveryPending := Table.empty
  targets : Table DISCOVERY_TARGET_LIMIT DiscoveryTarget := Table.empty
  bytes : Nat := 0
  count : Nat := 0

structure Transmit where
  queue : TxQueue := {}
  pending : Table PENDING_LIMIT PendingMessage := Table.empty
  discovery : DiscoveryQueue := {}

def PendingMessage.notice (p : PendingMessage) (error : Errno) : Notice :=
  ⟨p.bindingGeneration, p.cookie, p.bindingPortid, p.sourceService, error, p.message⟩

def DiscoveryPending.notice (p : DiscoveryPending) (error : Errno) : Notice :=
  ⟨p.bindingGeneration, p.cookie, p.bindingPortid, p.sourceService, error, p.message⟩

def dataCancelPendingLocked (t : Table PENDING_LIMIT PendingMessage) (destination : NodeId) (messageId : UInt64)
    (reservationId : Nat) : Table PENDING_LIMIT PendingMessage :=
  match t.find? fun p => (reservationId = 0 || p.reservationId = reservationId) &&
      (messageId = 0 || p.reliability.messageId = messageId) && p.destination = destination with
  | none => t
  | some i => t.clear i

/-! ## May it still be sent? -/

def queueValidLocked (d : Device) (destination : NodeId) (destinationService : UInt16) (broadcast : Bool)
    (metadata : TxMeta) (identityGeneration : UInt32) (sessionEpoch : UInt64) : Except Errno Unit :=
  if d.identityReady = false ∨ d.transportReady = false ∨ d.identityGeneration ≠ identityGeneration ∨
      d.localLinkLocator ≠ metadata.sourceLocator then .error .EKEYREVOKED
  else
    match policyCheckMessageLocked d destination destinationService broadcast with
    | .error e => .error e
    | .ok () =>
      if broadcast then .ok ()
      else
        match (peerByNode d destination).bind d.peers with
        | none => .error .EHOSTUNREACH
        | some p =>
          if p.sessionReady = false ∨ p.conflicted = true ∨ p.linkLocator ≠ metadata.destinationLocator then
            .error .EHOSTUNREACH
          else if p.sessionEpoch = sessionEpoch then .ok () else .error .EKEYREVOKED

def entryValidLocked (d : Device) (e : TxEntry) : Except Errno Unit :=
  queueValidLocked d e.destination e.destinationService e.broadcast e.metadata e.identityGeneration e.sessionEpoch

def requestValidLocked (d : Device) (metadata : TxMeta) (r : QueueRequest) : Except Errno Unit :=
  queueValidLocked d r.destination r.destinationService r.broadcast metadata r.identityGeneration r.sessionEpoch

def reservationValidLocked (d : Device) (r : TxReservation) : Except Errno Unit :=
  if r.identityGeneration ≠ 0 then
    queueValidLocked d r.destination r.destinationService r.broadcast
      { sourceLocator := r.sourceLocator, destinationLocator := r.locator } r.identityGeneration r.sessionEpoch
  else policyCheckMessageLocked d r.destination r.destinationService r.broadcast

def pendingValidLocked (d : Device) (nowMs : Nat) (p : PendingMessage) : Except Errno Unit :=
  if p.expiresMs ≤ nowMs then .error .ETIMEDOUT
  else if d.transportReady = false ∨ d.identityGeneration ≠ p.reliability.generation ∨
      d.localNativeLocator ≠ p.sourceNativeLocator ∨ d.localLinkLocator ≠ p.sourceLinkLocator then .error .ENETDOWN
  else
    match (peerByNode d p.destination).bind d.peers with
    | none => .error .EHOSTUNREACH
    | some peer =>
      if peer.sessionReady = false ∨ peer.conflicted = true then .error .EHOSTUNREACH
      else if peer.nativeLocator ≠ p.destinationNativeLocator ∨ peer.linkLocator ≠ p.destinationLinkLocator ∨
          peer.generation ≠ p.destinationGeneration ∨ peer.sessionEpoch ≠ p.sessionEpoch then .error .EKEYREVOKED
      else policyCheckMessageLocked d p.destination p.destinationService false

/-! ## Dropping what may not be sent -/

def errorOf (r : Except Errno Unit) : Option Errno :=
  match r with
  | .ok () => none
  | .error e => some e

def firstInvalid {n : Nat} {α : Type} (t : Table n α) (check : α → Except Errno Unit) : Option (Fin n × α × Errno) :=
  (List.finRange n).findSome? fun i => (t i).bind fun a => (errorOf (check a)).map fun e => (i, a, e)

section
variable {n : Nat} {α : Type} {t : Table n α} {check : α → Except Errno Unit}

theorem firstInvalid_some {i : Fin n} {a : α} {e : Errno} (h : firstInvalid t check = some (i, a, e)) :
    t i = some a ∧ check a = .error e := by
  obtain ⟨j, -, hj⟩ := List.exists_of_findSome?_eq_some h
  obtain ⟨b, hb, hm⟩ := Option.bind_eq_some_iff.mp hj
  obtain ⟨error, herr, heq⟩ := Option.map_eq_some_iff.mp hm
  cases heq
  refine ⟨hb, ?_⟩
  cases hc : check a with
  | ok _ => simp [errorOf, hc] at herr
  | error e => simpa [errorOf, hc] using herr

theorem firstInvalid_none (h : firstInvalid t check = none) {i : Fin n} {a : α} (ha : t i = some a) :
    check a = .ok () := by
  have hi := List.findSome?_eq_none_iff.mp h i (List.mem_finRange i)
  rw [ha, Option.bind_some, Option.map_eq_none_iff] at hi
  cases hc : check a with
  | ok _ => rfl
  | error e => simp [errorOf, hc] at hi

end

def entryStateCheck (d : Device) (e : TxEntry) : Except Errno Unit :=
  if e.control || e.cancelled then .ok () else entryValidLocked d e

def cancelGroup (t : Transmit) (c : Cancelled) : Transmit :=
  { t with
    queue := c.queue
    pending := match c.pending with
      | none => t.pending
      | some (destination, messageId) => dataCancelPendingLocked t.pending destination messageId 0 }

theorem cancelGroup_queue (t : Transmit) (c : Cancelled) : (cancelGroup t c).queue = c.queue := rfl

def queueStatePass (d : Device) (t : Transmit) : Option (Transmit × Option Notice) :=
  match firstInvalid t.queue.reservations (reservationValidLocked d) with
  | some (i, r, e) =>
    some ({ t with
      queue := reservationRemoveLocked t.queue i
      pending := if r.reliable then dataCancelPendingLocked t.pending r.destination 0 r.id else t.pending },
      some (r.notice e))
  | none =>
    match firstInvalid t.queue.entries (entryStateCheck d) with
    | none => none
    | some (_, entry, e) =>
      let c := queueCancelGroupLocked t.queue entry.groupId none e none
      if c.changed then some (cancelGroup t c, c.notice) else none

def discoveryTargetRelease (q : DiscoveryQueue) (destination : NodeId) : DiscoveryQueue :=
  if (q.pending.find? fun p => p.destination = destination).isSome then q
  else
    match q.targets.find? fun t => t.destination = destination with
    | none => q
    | some i => { q with targets := q.targets.clear i }

def discoveryPendingClear (q : DiscoveryQueue) (i : Fin DISCOVERY_PENDING_LIMIT) : DiscoveryQueue :=
  match q.pending i with
  | none => q
  | some p =>
    discoveryTargetRelease
      { q with bytes := q.bytes - p.payload.length, count := q.count - 1, pending := q.pending.clear i } p.destination

def discoveryStateCheck (d : Device) (p : DiscoveryPending) : Except Errno Unit :=
  if p.inFlight then .ok () else policyCheckMessageLocked d p.destination p.destinationService false

def dataStatePass (d : Device) (nowMs : Nat) (t : Transmit) : Option (Transmit × Notice) :=
  match firstInvalid t.pending (pendingValidLocked d nowMs) with
  | some (i, p, e) => some ({ t with pending := t.pending.clear i }, p.notice e)
  | none =>
    match firstInvalid t.discovery.pending (discoveryStateCheck d) with
    | some (i, p, e) => some ({ t with discovery := discoveryPendingClear t.discovery i }, p.notice e)
    | none => none

/-! ## The pending table -/

/-- What `melodi_pending_admit_locked` is given beside the reliability record. -/
structure PendingArgs where
  destination : NodeId
  metadata : TxMeta
  sourceService : UInt16
  destinationService : UInt16
  sourceNativeLocator : UInt32
  destinationNativeLocator : UInt32
  generation : UInt32
  destinationGeneration : UInt32
  sessionEpoch : UInt64
  messageId : UInt64
  fragmentCount : Nat
  ttlMs : Nat
  paceMs : Nat
  bindingPortid : UInt32
  bindingGeneration : UInt64
  priority : Nat
  frames : List Octets
  reservation : Nat
  message : Nat

def pendingFor (a : PendingArgs) (reliability : ReliabilityState) (nowMs : Nat) : PendingMessage where
  reliability := reliability
  destination := a.destination
  fragments := a.frames
  reservationId := a.reservation
  cookie := a.metadata.cookie
  expiresMs := nowMs + a.ttlMs
  sessionEpoch := a.sessionEpoch
  bindingGeneration := a.bindingGeneration
  sourceNativeLocator := a.sourceNativeLocator
  destinationNativeLocator := a.destinationNativeLocator
  sourceLinkLocator := a.metadata.sourceLocator
  destinationLinkLocator := a.metadata.destinationLocator
  destinationGeneration := a.destinationGeneration
  sourceService := a.sourceService
  destinationService := a.destinationService
  bindingPortid := a.bindingPortid
  priority := a.priority
  message := a.message

def pendingAdmitLocked (t : Transmit) (a : PendingArgs) (nowMs : Nat) : Transmit × Except Errno Unit :=
  match t.pending.free? with
  | none => (t, .error .ENOSPC)
  | some i =>
    match if a.reservation ≠ 0 then reservationPending t.queue a.reservation else (t.queue, .ok ()) with
    | (q, .error e) => ({ t with queue := q }, .error e)
    | (q, .ok ()) =>
      let t := { t with queue := q }
      if U64_MAX - a.ttlMs < nowMs then (t, .error .EOVERFLOW)
      else
        match reliabilityStart a.messageId a.generation a.fragmentCount nowMs a.paceMs a.ttlMs with
        | .error e => (t, .error e)
        | .ok reliability => ({ t with pending := t.pending.set i (pendingFor a reliability nowMs) }, .ok ())

inductive ReliabilityOutcome where
  | idle
  | terminal (notice : Notice)
  | resend (p : PendingMessage) (missing : BitVec 64)

def reliabilityScan (d : Device) (q : TxQueue) (nowMs : Nat) (busy : Bool) :
    List (Fin PENDING_LIMIT) → Table PENDING_LIMIT PendingMessage →
    Table PENDING_LIMIT PendingMessage × ReliabilityOutcome
  | [], t => (t, .idle)
  | i :: is, t =>
    match t i with
    | none => reliabilityScan d q nowMs busy is t
    | some p =>
      match pendingValidLocked d nowMs p with
      | .error e => (t.clear i, .terminal (p.notice e))
      | .ok () =>
        let queued := queueMessageQueued q p.destination p.reliability.messageId p.bindingPortid p.bindingGeneration
          p.sourceService
        match reliabilityPoll p.reliability nowMs (busy || queued) with
        | (s, .error .ENOENT) => reliabilityScan d q nowMs busy is (t.set i { p with reliability := s })
        | (_, .error e) => (t.clear i, .terminal (p.notice e))
        | (s, .ok none) => reliabilityScan d q nowMs busy is (t.set i { p with reliability := s })
        | (s, .ok (some missing)) =>
          (t.set i { p with reliability := s }, .resend { p with reliability := s } missing)

def resendFrames (p : PendingMessage) (missing : BitVec 64) (fails : Nat → Bool) : List Octets :=
  (List.range p.reliability.fragmentCount).filterMap fun k =>
    if missing.getLsbD k && !fails k then p.fragments[k]? else none

def resendRequest (p : PendingMessage) (nowMs : Nat) : QueueRequest where
  destination := p.destination
  messageId := p.reliability.messageId
  sessionEpoch := p.sessionEpoch
  ttlMs := min (p.expiresMs - nowMs) U32_MAX
  bindingPortid := p.bindingPortid
  identityGeneration := p.reliability.generation
  sourceLocator := p.sourceLinkLocator
  bindingGeneration := p.bindingGeneration
  service := p.sourceService
  destinationService := p.destinationService
  priority := p.priority
  reliable := true
  message := p.message

def resendMeta (p : PendingMessage) : TxMeta :=
  { cookie := p.cookie, sourceLocator := p.sourceLinkLocator, destinationLocator := p.destinationLinkLocator }

def PendingMessage.isFor (p : PendingMessage) (ack : WireAck) (source : NodeId) (sessionEpoch : UInt64) (peer : Peer) :
    Bool :=
  p.reliability.messageId = ack.common.messageId && p.reliability.generation = ack.acknowledgedGeneration &&
    p.reliability.fragmentCount = ack.fragmentCount.toNat && p.sessionEpoch = sessionEpoch &&
    p.destinationGeneration = peer.generation && p.destinationNativeLocator = peer.nativeLocator &&
    p.destination = source

def pendingAckLocked (t : Table PENDING_LIMIT PendingMessage) (ack : WireAck) (source : NodeId) (sessionEpoch : UInt64)
    (peer : Peer) (nowMs : Nat) : Table PENDING_LIMIT PendingMessage × Option Notice :=
  match (t.find? fun p => p.isFor ack source sessionEpoch peer).bind fun i => (t i).map (i, ·) with
  | none => (t, none)
  | some (i, p) =>
    if p.expiresMs ≤ nowMs then (t.clear i, some (p.notice .ETIMEDOUT))
    else
      match reliabilityAck p.reliability ack.common.messageId ack.acknowledgedGeneration ack.fragmentCount.toNat
        ack.bitmap
          (ack.status = AckStatus.REJECTED.toByte) with
      | (_, .ok true) => (t.clear i, none)
      | (_, .error .ECONNREFUSED) => (t.clear i, some (p.notice .ECONNREFUSED))
      | (s, _) => (t.set i { p with reliability := s }, none)

/-- The section of `melodi_data_send_internal` that takes the pending record of a message back that could not be
queued. -/
def pendingForget (t : Table PENDING_LIMIT PendingMessage) (messageId : UInt64) (generation : UInt32) :
    Table PENDING_LIMIT PendingMessage :=
  match t.find? fun p => p.reliability.messageId = messageId && p.reliability.generation = generation with
  | none => t
  | some i => t.clear i

def failPendingPass (t : Table PENDING_LIMIT PendingMessage) (error : Errno) :
    Option (Table PENDING_LIMIT PendingMessage × Notice) :=
  (t.find? fun _ => true).bind fun i => (t i).map fun p => (t.clear i, p.notice error)

def failDiscoveryPass (q : DiscoveryQueue) (error : Errno) : Option (DiscoveryQueue × Notice) :=
  (q.pending.find? fun _ => true).bind fun i => (q.pending i).map fun p => (discoveryPendingClear q i, p.notice error)

/-! ## The discovery queue -/

structure DiscoveryArgs where
  destination : NodeId
  sourceService : UInt16
  destinationService : UInt16
  payload : Octets
  flags : UInt32
  cookie : UInt64
  ttlMs : Nat
  bindingPortid : UInt32
  bindingGeneration : UInt64
  priority : Nat
  message : Nat

def discoveryAdmitLocked (d : Device) (q : DiscoveryQueue) (a : DiscoveryArgs) (nowMs : Nat) :
    DiscoveryQueue × Except Errno (Fin DISCOVERY_PENDING_LIMIT × Bool) :=
  if d.identityReady = false then (q, .error .ENOKEY)
  else if d.transportReady = false then (q, .error .ENETDOWN)
  else
    let target := (q.targets.find? fun t => t.destination = a.destination).bind q.targets
    if target.any (fun t => t.expiresMs ≤ nowMs) then (q, .error .EHOSTUNREACH)
    else
      match q.pending.free? with
      | none => (q, .error .ENOBUFS)
      | some i =>
        if DISCOVERY_PENDING_LIMIT ≤ q.count ∨
            DISCOVERY_PER_NODE_LIMIT ≤ q.pending.sum (fun p => if p.destination = a.destination then 1 else 0) ∨
            DISCOVERY_BYTE_LIMIT - q.bytes < a.payload.length then (q, .error .ENOBUFS)
        else
          let write := fun (q : DiscoveryQueue) (targetExpiresMs : Nat) =>
            { q with
              bytes := q.bytes + a.payload.length
              count := q.count + 1
              pending := q.pending.set i
                { destination := a.destination, payload := a.payload, cookie := a.cookie,
                  expiresMs := min (nowMs + a.ttlMs) targetExpiresMs, bindingGeneration := a.bindingGeneration,
                  bindingPortid := a.bindingPortid, flags := a.flags, sourceService := a.sourceService,
                  destinationService := a.destinationService, priority := a.priority, message := a.message } }
          match target with
          | some t => (write q t.expiresMs, .ok (i, false))
          | none =>
            match q.targets.free? with
            | none => (q, .error .ENOSPC)
            | some k =>
              let expiresMs := nowMs + min a.ttlMs DISCOVERY_TIMEOUT_MS
              (write { q with targets := q.targets.set k ⟨a.destination, expiresMs⟩ } expiresMs, .ok (i, true))

def discoveryRetryable : Errno → Bool
  | .EHOSTUNREACH | .EAGAIN | .ENOBUFS | .ENOSPC | .ENOMEM => true
  | _ => false

/-- What `melodi_discovery_work` goes on with after its first critical section. -/
inductive DiscoveryOutcome where
  | idle
  | terminal (notice : Notice)
  | send (slot : Fin DISCOVERY_PENDING_LIMIT) (p : DiscoveryPending) (ttlMs : Nat)

def sessionWith (d : Device) (node : NodeId) : Bool :=
  ((peerByNode d node).bind d.peers).any fun p => p.sessionReady && !p.conflicted

def discoveryWorkSection (d : Device) (q : DiscoveryQueue) (nowMs : Nat) : DiscoveryQueue × DiscoveryOutcome :=
  match (q.pending.find? fun p => !p.inFlight && (p.expiresMs ≤ nowMs || sessionWith d p.destination)).bind
      fun i => (q.pending i).map (i, ·) with
  | none => (q, .idle)
  | some (i, p) =>
    if p.expiresMs ≤ nowMs then (discoveryPendingClear q i, .terminal (p.notice .EHOSTUNREACH))
    else
      ({ q with pending := q.pending.set i { p with inFlight := true } },
        .send i { p with inFlight := true } (min (p.expiresMs - nowMs) U32_MAX))

/-- The last critical section of `melodi_discovery_work`, for the message at the slot it sent. A slot that was freed in
the meantime is reported with the zeros it holds. -/
def discoveryWorkFinish (q : DiscoveryQueue) (i : Fin DISCOVERY_PENDING_LIMIT) (nowMs : Nat)
    (result : Except Errno Unit) : DiscoveryQueue × Option Notice :=
  match result, q.pending i with
  | .ok (), _ => (discoveryPendingClear q i, none)
  | .error e, none => (q, some ⟨0, 0, 0, 0, e, 0⟩)
  | .error e, some p =>
    if discoveryRetryable e ∧ nowMs < p.expiresMs then
      ({ q with pending := q.pending.set i { p with inFlight := false } }, none)
    else (discoveryPendingClear q i, some (p.notice e))

end Melodi
