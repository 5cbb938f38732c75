import Melodi.Core.Device
import Melodi.Proto.Airtime

/-!
# The transmit queue (`queue.c`)

Frames wait in `TxQueue.entries`; a message that was admitted and is not yet sent has a reservation. Both are charged to
their namespace, which several devices share, and to the turn records of their peer and their flow.

`message` is a history variable: the number of the message an application handed in.
-/

namespace Melodi
open Lib

def TX_QUEUE_LIMIT : Nat := 128
def TX_DATA_LIMIT : Nat := 112
def TX_BYTE_LIMIT : Nat := MESSAGE_MTU * 64
def TX_PER_PEER_LIMIT : Nat := 32
def TX_PER_SERVICE_LIMIT : Nat := 32
def TX_PER_BINDING_LIMIT : Nat := 32
def TX_FLOW_LIMIT : Nat := 64
def TX_CONTROL_TTL_MS : Nat := 5000
def TX_CONTROL_BURST : Nat := 8
def TX_NAMESPACE_LIMIT : Nat := 256
def TX_NAMESPACE_BYTE_LIMIT : Nat := MESSAGE_MTU * 128
def TX_RESERVATION_LIMIT : Nat := 128
def PENDING_LIMIT : Nat := 32
def U8_MAX : Nat := 2 ^ 8 - 1

/-! ## The records -/

structure QueueRequest where
  destination : NodeId := List.replicate 33 0
  messageId : UInt64 := 0
  sessionEpoch : UInt64 := 0
  ttlMs : Nat
  bindingPortid : UInt32 := 0
  identityGeneration : UInt32 := 0
  sourceLocator : UInt32 := 0
  bindingGeneration : UInt64 := 0
  service : UInt16
  destinationService : UInt16 := 0
  priority : Nat := 0
  broadcast : Bool := false
  reliable : Bool := false
  control : Bool := false
  message : Nat := 0
  deriving DecidableEq, Repr

/-- `struct melodi_tx_reservation`. -/
structure TxReservation where
  destination : NodeId
  net : Nat
  id : Nat
  expiresMs : Nat
  bindingGeneration : UInt64
  cookie : UInt64
  tag : UInt64 := 0
  sessionEpoch : UInt64
  locator : UInt32
  sourceLocator : UInt32
  bindingPortid : UInt32
  identityGeneration : UInt32
  bytes : Nat
  logicalLength : Nat
  count : Nat
  service : UInt16
  destinationService : UInt16
  priority : Nat
  peerIndex : Fin TX_FLOW_LIMIT
  flowIndex : Fin TX_FLOW_LIMIT
  pendingReserved : Bool
  broadcast : Bool
  reliable : Bool
  claimed : Bool := false
  sealed : Bool := false
  message : Nat
  deriving DecidableEq, Repr

/-- `struct melodi_tx_entry`. -/
structure TxEntry where
  destination : NodeId
  frame : Octets
  net : Nat
  metadata : TxMeta
  sequence : Nat
  groupId : Nat
  messageId : UInt64
  sessionEpoch : UInt64
  expiresMs : Nat
  deferUntilMs : Nat := 0
  bindingGeneration : UInt64
  bindingPortid : UInt32
  identityGeneration : UInt32
  service : UInt16
  destinationService : UInt16
  priority : Nat
  peerIndex : Fin TX_FLOW_LIMIT
  flowIndex : Fin TX_FLOW_LIMIT
  control : Bool
  broadcast : Bool
  reliable : Bool
  cancelled : Bool := false
  terminalNotified : Bool := false
  inFlight : Bool := false
  message : Nat
  deriving DecidableEq, Repr

structure TxPeerTurn where
  turn : Nat := 0
  locator : UInt32
  deriving DecidableEq, Repr

structure TxFlowTurn where
  turn : Nat := 0
  bindingGeneration : UInt64
  locator : UInt32
  bindingPortid : UInt32
  service : UInt16
  peerIndex : Fin TX_FLOW_LIMIT
  deriving DecidableEq, Repr

structure NamespaceQueue where
  net : Nat
  messages : Nat := 0
  bytes : Nat := 0
  deriving DecidableEq, Repr

structure Notice where
  bindingGeneration : UInt64
  cookie : UInt64
  bindingPortid : UInt32
  service : UInt16
  error : Errno
  message : Nat
  deriving DecidableEq, Repr

/-- The part of `struct melodi_device` that `queue.c` keeps, and the list of namespaces, which devices share. -/
structure TxQueue where
  entries : Table TX_QUEUE_LIMIT TxEntry := Table.empty
  reservations : Table TX_RESERVATION_LIMIT TxReservation := Table.empty
  peers : Table TX_FLOW_LIMIT TxPeerTurn := Table.empty
  flows : Table TX_FLOW_LIMIT TxFlowTurn := Table.empty
  namespaces : List NamespaceQueue := []
  queueCount : Nat := 0
  queueBytes : Nat := 0
  reservedCount : Nat := 0
  reservedBytes : Nat := 0
  pendingReserved : Nat := 0
  queueSequence : Nat := 0
  groupSequence : Nat := 0
  reservationSequence : Nat := 0
  schedulerTurn : Nat := 0
  prioritySlot : Nat := 0
  controlBurst : Nat := 0
  guardUntilMs : Nat := 0
  stopping : Bool := true
  airtimeBudgetUs : Nat := 0
  broadcastBudgetUs : Nat := 0
  airtime : AirtimeWindow := airtimeReset
  broadcastAirtime : AirtimeWindow := airtimeReset
  airtimeAfter : AirtimeWindow := airtimeReset
  broadcastAfter : AirtimeWindow := airtimeReset

/-! ## Namespaces -/

def namespaceQueueFind (ns : List NamespaceQueue) (net : Nat) : Option NamespaceQueue := ns.find? fun n => n.net = net

def namespaceQueueGet (ns : List NamespaceQueue) (net : Nat) (alloc : Bool) : Option (List NamespaceQueue) :=
  match namespaceQueueFind ns net with
  | some _ => some ns
  | none => if alloc then some (ns ++ [{ net := net }]) else none

def namespaceQueuePut (ns : List NamespaceQueue) (net : Nat) : List NamespaceQueue :=
  match namespaceQueueFind ns net with
  | none => ns
  | some n => if n.messages ≠ 0 then ns else ns.eraseP fun n => n.net = net

def namespaceUpdate (ns : List NamespaceQueue) (net : Nat) (f : NamespaceQueue → NamespaceQueue) :
    List NamespaceQueue :=
  ns.map fun n => if n.net = net then f n else n

def namespaceCharge (ns : List NamespaceQueue) (net messages bytes : Nat) : List NamespaceQueue :=
  namespaceUpdate ns net fun n => { n with messages := n.messages + messages, bytes := n.bytes + bytes }

def namespaceRelease (ns : List NamespaceQueue) (net messages bytes : Nat) : List NamespaceQueue :=
  namespaceUpdate ns net fun n => { n with messages := n.messages - messages, bytes := n.bytes - bytes }

/-! ## Removing -/

def queueHasPeer (q : TxQueue) (i : Fin TX_FLOW_LIMIT) : Bool :=
  (q.entries.find? fun e => !e.control && e.peerIndex = i).isSome ||
    (q.reservations.find? fun r => r.peerIndex = i).isSome

def queueHasFlow (q : TxQueue) (i : Fin TX_FLOW_LIMIT) : Bool :=
  (q.entries.find? fun e => !e.control && e.flowIndex = i).isSome ||
    (q.reservations.find? fun r => r.flowIndex = i).isSome

def queueReleaseTurns (q : TxQueue) (peerIndex flowIndex : Fin TX_FLOW_LIMIT) : TxQueue :=
  let q := if queueHasFlow q flowIndex then q else { q with flows := q.flows.clear flowIndex }
  if queueHasPeer q peerIndex then q else { q with peers := q.peers.clear peerIndex }

def reservationFindLocked (q : TxQueue) (id : Nat) : Option (Fin TX_RESERVATION_LIMIT) :=
  q.reservations.find? fun r => r.id = id

def reservationRemoveLocked (q : TxQueue) (i : Fin TX_RESERVATION_LIMIT) : TxQueue :=
  match q.reservations i with
  | none => q
  | some r =>
    let q := { q with
      namespaces := namespaceRelease q.namespaces r.net r.count r.bytes
      reservedCount := q.reservedCount - r.count
      reservedBytes := q.reservedBytes - r.bytes
      pendingReserved := if r.pendingReserved then q.pendingReserved - 1 else q.pendingReserved
      reservations := q.reservations.clear i }
    let q := queueReleaseTurns q r.peerIndex r.flowIndex
    { q with namespaces := namespaceQueuePut q.namespaces r.net }

def queueRemoveLocked (q : TxQueue) (i : Fin TX_QUEUE_LIMIT) : TxQueue :=
  match q.entries i with
  | none => q
  | some e =>
    let q := { q with
      namespaces := namespaceRelease q.namespaces e.net 1 e.frame.length
      queueCount := q.queueCount - 1
      queueBytes := q.queueBytes - e.frame.length
      entries := q.entries.clear i }
    let q := if e.control then q else queueReleaseTurns q e.peerIndex e.flowIndex
    { q with namespaces := namespaceQueuePut q.namespaces e.net }

/-! ## Notices -/

def TxEntry.notice (e : TxEntry) (error : Errno) : Notice :=
  ⟨e.bindingGeneration, e.metadata.cookie, e.bindingPortid, e.service, error, e.message⟩

def TxReservation.notice (r : TxReservation) (error : Errno) : Notice :=
  ⟨r.bindingGeneration, r.cookie, r.bindingPortid, r.service, error, r.message⟩

def queueNoticeEntry (notice : Option Notice) (e : TxEntry) (error : Errno) : Option Notice :=
  if notice.isSome || e.terminalNotified then notice else some (e.notice error)

/-! ## Cancelling a group -/

def sameMessage (rep e : TxEntry) : Bool :=
  rep.reliable && rep.messageId ≠ 0 && e.reliable && e.messageId = rep.messageId && e.bindingPortid =
    rep.bindingPortid &&
    e.bindingGeneration = rep.bindingGeneration && e.service = rep.service && e.destination = rep.destination

def cancelSlot (rep : TxEntry) (owned : Option (Fin TX_QUEUE_LIMIT)) (q : TxQueue) (i : Fin TX_QUEUE_LIMIT) : TxQueue :=
  match q.entries i with
  | none => q
  | some e =>
    if e.groupId ≠ rep.groupId && !sameMessage rep e then q
    else if e.inFlight && owned ≠ some i then
      { q with entries := q.entries.set i { e with cancelled := true, terminalNotified := true } }
    else queueRemoveLocked q i

def cancelNotice (q : TxQueue) (groupId : Nat) (error : Errno) (notice : Option Notice) : Option Notice :=
  (List.finRange TX_QUEUE_LIMIT).foldl (fun notice i =>
    match q.entries i with
    | none => notice
    | some e => if e.groupId = groupId then queueNoticeEntry notice e error else notice) notice

/-- What `melodi_queue_cancel_group_locked` leaves: the queue, the notice, whether anything changed, and the reliable
message whose pending record it cancels. -/
structure Cancelled where
  queue : TxQueue
  notice : Option Notice
  changed : Bool
  pending : Option (NodeId × UInt64)

def queueCancelGroupLocked (q : TxQueue) (groupId : Nat) (owned : Option (Fin TX_QUEUE_LIMIT)) (error : Errno)
    (notice : Option Notice) : Cancelled :=
  match (q.entries.find? fun e => e.groupId = groupId).bind q.entries with
  | none => ⟨q, notice, false, none⟩
  | some rep =>
    { queue := (List.finRange TX_QUEUE_LIMIT).foldl (cancelSlot rep owned) q
      notice := cancelNotice q groupId error notice
      changed := true
      pending := if rep.reliable then some (rep.destination, rep.messageId) else none }

/-! ## Room in the queue -/

def queuePeerLocked (q : TxQueue) (locator : UInt32) : Except Errno (Fin TX_FLOW_LIMIT × Bool) :=
  match q.peers.find? fun p => p.locator = locator with
  | some i => .ok (i, false)
  | none =>
    match q.peers.free? with
    | some i => .ok (i, true)
    | none => .error .ENOSPC

def TxFlowTurn.isFor (f : TxFlowTurn) (locator : UInt32) (r : QueueRequest) : Bool :=
  f.locator = locator && f.service = r.service && f.bindingPortid = r.bindingPortid &&
    f.bindingGeneration = r.bindingGeneration

def queueFlowLocked (q : TxQueue) (locator : UInt32) (r : QueueRequest) : Except Errno (Fin TX_FLOW_LIMIT × Bool) :=
  match q.flows.find? fun f => f.isFor locator r with
  | some i => .ok (i, false)
  | none =>
    match q.flows.free? with
    | some i => .ok (i, true)
    | none => .error .ENOSPC

def queueUsage (q : TxQueue) (entry : TxEntry → Bool) (reservation : TxReservation → Bool) : Nat :=
  q.entries.sum (fun e => if !e.control && entry e then 1 else 0) +
    q.reservations.sum (fun r => if reservation r then r.count else 0)

def dataUsage (q : TxQueue) : Nat := queueUsage q (fun _ => true) fun _ => true

def peerUsage (q : TxQueue) (locator : UInt32) : Nat :=
  queueUsage q (fun e => e.metadata.destinationLocator = locator) fun r => r.locator = locator

def serviceUsage (q : TxQueue) (service : UInt16) : Nat :=
  queueUsage q (fun e => e.service = service) fun r => r.service = service

def bindingUsage (q : TxQueue) (portid : UInt32) (generation : UInt64) : Nat :=
  queueUsage q (fun e => e.bindingPortid = portid && e.bindingGeneration = generation) fun r =>
    r.bindingPortid = portid && r.bindingGeneration = generation

def capacityCheck (q : TxQueue) (n : NamespaceQueue) (locator : UInt32) (r : QueueRequest) (count bytes : Nat) :
    Except Errno Unit :=
  if TX_QUEUE_LIMIT < count ∨ TX_BYTE_LIMIT < bytes ∨ TX_NAMESPACE_LIMIT < count ∨ TX_NAMESPACE_BYTE_LIMIT < bytes then
    .error .ENOBUFS
  else if r.control = false ∧ (TX_DATA_LIMIT < count ∨ TX_PER_PEER_LIMIT < count ∨ TX_PER_SERVICE_LIMIT < count ∨
      TX_PER_BINDING_LIMIT < count) then .error .ENOBUFS
  else if TX_QUEUE_LIMIT - count < q.queueCount + q.reservedCount ∨
      TX_BYTE_LIMIT - bytes < q.queueBytes + q.reservedBytes ∨ TX_NAMESPACE_LIMIT - count < n.messages ∨
      TX_NAMESPACE_BYTE_LIMIT - bytes < n.bytes then .error .ENOBUFS
  else if r.control = false ∧ (TX_DATA_LIMIT - count < dataUsage q ∨ TX_PER_PEER_LIMIT - count < peerUsage q locator ∨
      TX_PER_SERVICE_LIMIT - count < serviceUsage q r.service ∨
      TX_PER_BINDING_LIMIT - count < bindingUsage q r.bindingPortid r.bindingGeneration) then .error .ENOBUFS
  else .ok ()

def queueCapacityLocked (q : TxQueue) (net : Nat) (locator : UInt32) (r : QueueRequest) (count bytes : Nat)
    (alloc : Bool) : TxQueue × Except Errno Unit :=
  match namespaceQueueGet q.namespaces net alloc with
  | none => (q, .error .ENOMEM)
  | some ns =>
    ({ q with namespaces := ns },
      capacityCheck q ((namespaceQueueFind ns net).getD { net := net }) locator r count bytes)

def queueTurns (q : TxQueue) (locator : UInt32) (r : QueueRequest) (peer flow : Fin TX_FLOW_LIMIT × Bool) : TxQueue :=
  let q := if peer.2 then { q with peers := q.peers.set peer.1 { locator := locator } } else q
  let record : TxFlowTurn :=
    { locator := locator, bindingPortid := r.bindingPortid, bindingGeneration := r.bindingGeneration,
      service := r.service, peerIndex := peer.1 }
  if flow.2 then { q with flows := q.flows.set flow.1 record } else q

def queueTurnsLocked (q : TxQueue) (locator : UInt32) (r : QueueRequest) :
    Except Errno ((Fin TX_FLOW_LIMIT × Bool) × (Fin TX_FLOW_LIMIT × Bool)) :=
  match queuePeerLocked q locator with
  | .error e => .error e
  | .ok peer =>
    match queueFlowLocked q locator r with
    | .error e => .error e
    | .ok flow => .ok (peer, flow)

def queueFailed (q : TxQueue) (net : Nat) (e : Errno) {α : Type} : TxQueue × Except Errno α :=
  ({ q with namespaces := namespaceQueuePut q.namespaces net }, .error e)

/-! ## Reservations -/

structure ReserveArgs where
  net : Nat
  locator : UInt32
  count : Nat
  bytes : Nat
  logicalLength : Nat
  cookie : UInt64
  reliable : Bool
  activePending : Nat

def reservationFor (a : ReserveArgs) (r : QueueRequest) (id nowMs : Nat) (peerIndex flowIndex : Fin TX_FLOW_LIMIT) :
    TxReservation where
  destination := r.destination
  net := a.net
  id := id
  expiresMs := nowMs + r.ttlMs
  bindingGeneration := r.bindingGeneration
  cookie := a.cookie
  sessionEpoch := r.sessionEpoch
  locator := a.locator
  sourceLocator := r.sourceLocator
  bindingPortid := r.bindingPortid
  identityGeneration := r.identityGeneration
  bytes := a.bytes
  logicalLength := a.logicalLength
  count := a.count
  service := r.service
  destinationService := r.destinationService
  priority := r.priority
  peerIndex := peerIndex
  flowIndex := flowIndex
  pendingReserved := a.reliable
  broadcast := r.broadcast
  reliable := a.reliable
  message := r.message

def reservationWrite (q : TxQueue) (j : Fin TX_RESERVATION_LIMIT) (r : TxReservation) : TxQueue :=
  { q with
    reservations := q.reservations.set j r
    reservationSequence := r.id
    reservedCount := q.reservedCount + r.count
    reservedBytes := q.reservedBytes + r.bytes
    namespaces := namespaceCharge q.namespaces r.net r.count r.bytes
    pendingReserved := if r.pendingReserved then q.pendingReserved + 1 else q.pendingReserved }

def queueReserve (q : TxQueue) (a : ReserveArgs) (r : QueueRequest) (nowMs : Nat) (alloc : Bool) :
    TxQueue × Except Errno Nat :=
  if a.count = 0 ∨ a.bytes = 0 ∨ r.control = true ∨ r.ttlMs = 0 ∨ r.reliable ≠ a.reliable ∨
      TTL_DEFAULT_MS < r.ttlMs then
    (q, .error .EINVAL)
  else if U64_MAX - r.ttlMs < nowMs then (q, .error .EOVERFLOW)
  else if q.stopping then (q, .error .ENETDOWN)
  else if a.reliable ∧ PENDING_LIMIT ≤ a.activePending + q.pendingReserved then (q, .error .ENOSPC)
  else
    match q.reservations.free? with
    | none => (q, .error .ENOBUFS)
    | some j =>
      match queueCapacityLocked q a.net a.locator r a.count a.bytes alloc with
      | (q, .error e) => queueFailed q a.net e
      | (q, .ok ()) =>
        match queueTurnsLocked q a.locator r with
        | .error e => queueFailed q a.net e
        | .ok (peer, flow) =>
          if q.reservationSequence = U64_MAX then queueFailed q a.net .EOVERFLOW
          else
            (reservationWrite (queueTurns q a.locator r peer flow) j
                (reservationFor a r (q.reservationSequence + 1) nowMs peer.1 flow.1),
              .ok (q.reservationSequence + 1))

def reservationCancel (q : TxQueue) (id : Nat) (error : Errno) (notify : Bool) : TxQueue × Option Notice :=
  match reservationFindLocked q id with
  | none => (q, none)
  | some i =>
    (reservationRemoveLocked q i, if notify then (q.reservations i).map (·.notice error) else none)

def reservationWork (q : TxQueue) (nowMs : Nat) : TxQueue × Option Notice :=
  match q.reservations.find? fun r => r.expiresMs ≤ nowMs with
  | none => (q, none)
  | some i => (reservationRemoveLocked q i, (q.reservations i).map (·.notice .ETIMEDOUT))

def reservationUpdate (q : TxQueue) (i : Fin TX_RESERVATION_LIMIT) (r : TxReservation) : TxQueue :=
  { q with reservations := q.reservations.set i r }

def reservationPending (q : TxQueue) (id : Nat) : TxQueue × Except Errno Unit :=
  match (reservationFindLocked q id).bind fun i => (q.reservations i).map (i, ·) with
  | none => (q, .error .ENOENT)
  | some (i, r) =>
    if r.pendingReserved = false then (q, .error .ENOENT)
    else
      ({ (reservationUpdate q i { r with pendingReserved := false }) with pendingReserved := q.pendingReserved - 1 },
        .ok ())

def reservationSeal (siphash : Octets → UInt64) (q : TxQueue) (id : Nat) (data : Octets) :
    TxQueue × Except Errno Unit :=
  if data = [] then (q, .error .EINVAL)
  else
    match (reservationFindLocked q id).bind fun i => (q.reservations i).map (i, ·) with
    | none => (q, .error .ENOENT)
    | some (i, r) =>
      if r.sealed then (q, .error .ENOENT)
      else (reservationUpdate q i { r with tag := siphash data, sealed := true }, .ok ())

def reservationClaim (siphash : Octets → UInt64) (q : TxQueue) (id : Nat) (data : Octets) :
    TxQueue × Except Errno Unit :=
  if data = [] then (q, .error .EINVAL)
  else
    match (reservationFindLocked q id).bind fun i => (q.reservations i).map (i, ·) with
    | none => (q, .error .ENOENT)
    | some (i, r) =>
      if r.sealed = false ∨ r.claimed = true ∨ r.tag ≠ siphash data then (q, .error .ENOENT)
      else (reservationUpdate q i { r with claimed := true }, .ok ())

def reservationLocator (q : TxQueue) (id : Nat) : Except Errno UInt32 :=
  match (reservationFindLocked q id).bind q.reservations with
  | none => .error .ENOENT
  | some r => .ok r.locator

/-! ## Frames enter the queue -/

def entryFor (frame : Octets) (net : Nat) (metadata : TxMeta) (r : QueueRequest) (sequence groupId expiresMs : Nat)
    (peerIndex flowIndex : Fin TX_FLOW_LIMIT) : TxEntry where
  destination := r.destination
  frame := frame
  net := net
  metadata := metadata
  sequence := sequence
  groupId := groupId
  messageId := r.messageId
  sessionEpoch := r.sessionEpoch
  expiresMs := expiresMs
  bindingGeneration := r.bindingGeneration
  bindingPortid := r.bindingPortid
  identityGeneration := r.identityGeneration
  service := r.service
  destinationService := r.destinationService
  priority := r.priority
  peerIndex := peerIndex
  flowIndex := flowIndex
  control := r.control
  broadcast := r.broadcast
  reliable := r.reliable
  message := r.message

def entryWrite (charge : Bool) (q : TxQueue) (i : Fin TX_QUEUE_LIMIT) (e : TxEntry) : TxQueue :=
  { q with
    entries := q.entries.set i e
    queueSequence := e.sequence
    queueCount := q.queueCount + 1
    queueBytes := q.queueBytes + e.frame.length
    namespaces := if charge then namespaceCharge q.namespaces e.net 1 e.frame.length else q.namespaces }

def entriesWrite (charge : Bool) (net : Nat) (metadata : TxMeta) (r : QueueRequest) (groupId expiresMs : Nat)
    (peerIndex flowIndex : Fin TX_FLOW_LIMIT) : TxQueue → List (Fin TX_QUEUE_LIMIT × Octets) → TxQueue
  | q, [] => q
  | q, (i, frame) :: rest =>
    entriesWrite charge net metadata r groupId expiresMs peerIndex flowIndex
      (entryWrite charge q i
        (entryFor frame net metadata r (q.queueSequence + 1) groupId expiresMs peerIndex flowIndex)) rest

def queueSlots (q : TxQueue) (count : Nat) : List (Fin TX_QUEUE_LIMIT) :=
  ((List.finRange TX_QUEUE_LIMIT).filter fun i => (q.entries i).isNone).take count

def batchBytes : List Octets → Nat → Except Errno Nat
  | [], bytes => .ok bytes
  | frame :: rest, bytes =>
    if frame.length = 0 then .error .EINVAL
    else if TX_BYTE_LIMIT - frame.length < bytes then .error .EMSGSIZE
    else batchBytes rest (bytes + frame.length)

def sendBatchLocked (q : TxQueue) (net : Nat) (frames : List Octets) (bytes : Nat) (metadata : TxMeta)
    (r : QueueRequest) (nowMs : Nat) (alloc : Bool) : TxQueue × Except Errno Unit :=
  if q.stopping then (q, .error .ENETDOWN)
  else
    match queueCapacityLocked q net metadata.destinationLocator r frames.length bytes alloc with
    | (q, .error e) => queueFailed q net e
    | (q, .ok ()) =>
      if U64_MAX - frames.length < q.queueSequence ∨ q.groupSequence = U64_MAX then queueFailed q net .EOVERFLOW
      else if (queueSlots q frames.length).length ≠ frames.length then queueFailed q net .ENOBUFS
      else
        let slots := (queueSlots q frames.length).zip frames
        let groupId := q.groupSequence + 1
        if r.control then
          (entriesWrite true net metadata r groupId (nowMs + r.ttlMs) ⟨0, by decide⟩ ⟨0, by decide⟩
            { q with groupSequence := groupId } slots, .ok ())
        else
          match queueTurnsLocked q metadata.destinationLocator r with
          | .error e => queueFailed q net e
          | .ok (peer, flow) =>
            (entriesWrite true net metadata r groupId (nowMs + r.ttlMs) peer.1 flow.1
              { (queueTurns q metadata.destinationLocator r peer flow) with groupSequence := groupId } slots, .ok ())

/-- `melodi_core_send_batch`. `up` says that the interface runs and has its carrier, `valid` is what
`melodi_data_queue_valid_locked` returns under the lock of the device. -/
def coreSendBatch (q : TxQueue) (up : Bool) (net : Nat) (frames : List Octets) (metadata : TxMeta) (r : QueueRequest)
    (nowMs : Nat) (alloc : Bool) (valid : Except Errno Unit) : TxQueue × Except Errno Unit :=
  if frames.length = 0 ∨ FRAGMENT_LIMIT < frames.length ∨ r.ttlMs = 0 ∨ TTL_DEFAULT_MS < r.ttlMs ∨
      PRIORITY_MAX < r.priority then (q, .error .EINVAL)
  else if up = false then (q, .error .ENETDOWN)
  else
    match batchBytes frames 0 with
    | .error e => (q, .error e)
    | .ok bytes =>
      if U64_MAX - r.ttlMs < nowMs then (q, .error .EOVERFLOW)
      else
        match if r.control then .ok () else valid with
        | .error e => (q, .error e)
        | .ok () => sendBatchLocked q net frames bytes metadata r nowMs alloc

def controlRequest : QueueRequest where
  ttlMs := TX_CONTROL_TTL_MS
  service := SERVICE_CONTROL
  control := true

def coreSend (q : TxQueue) (up : Bool) (net : Nat) (frame : Octets) (metadata : TxMeta) (nowMs : Nat) (alloc : Bool) :
    TxQueue × Except Errno Unit :=
  coreSendBatch q up net [frame] metadata controlRequest nowMs alloc (.ok ())

def TxReservation.isFor (v : TxReservation) (count bytes : Nat) (metadata : TxMeta) (r : QueueRequest) : Bool :=
  v.count = count && v.bytes = bytes && v.locator = metadata.destinationLocator && v.bindingPortid = r.bindingPortid &&
    v.bindingGeneration = r.bindingGeneration && v.service = r.service &&
    v.destinationService = r.destinationService && v.broadcast = r.broadcast && v.reliable = r.reliable &&
    v.identityGeneration = r.identityGeneration && v.sourceLocator = r.sourceLocator &&
    v.sessionEpoch = r.sessionEpoch && v.destination = r.destination && v.priority = r.priority &&
    !v.pendingReserved && v.claimed

def sendBatchReservedLocked (q : TxQueue) (frames : List Octets) (bytes : Nat) (metadata : TxMeta) (r : QueueRequest)
    (id : Nat) : TxQueue × Except Errno Unit :=
  match (reservationFindLocked q id).bind fun i => (q.reservations i).map (i, ·) with
  | none => (q, .error .ENOENT)
  | some (j, v) =>
    if q.stopping then (q, .error .ENETDOWN)
    else if v.isFor frames.length bytes metadata r = false then (q, .error .ESTALE)
    else if (queueSlots q frames.length).length ≠ frames.length then (q, .error .ENOBUFS)
    else if U64_MAX - frames.length < q.queueSequence ∨ q.groupSequence = U64_MAX then (q, .error .EOVERFLOW)
    else
      (entriesWrite false v.net metadata r (q.groupSequence + 1) v.expiresMs v.peerIndex v.flowIndex
        { q with
          groupSequence := q.groupSequence + 1
          reservedCount := q.reservedCount - frames.length
          reservedBytes := q.reservedBytes - bytes
          reservations := q.reservations.clear j }
        ((queueSlots q frames.length).zip frames), .ok ())

def coreSendBatchReserved (q : TxQueue) (up : Bool) (frames : List Octets) (metadata : TxMeta) (r : QueueRequest)
    (id : Nat) (valid : Except Errno Unit) : TxQueue × Except Errno Unit :=
  if id = 0 ∨ frames.length = 0 ∨ FRAGMENT_LIMIT < frames.length ∨ r.control = true then (q, .error .EINVAL)
  else if up = false then (q, .error .ENETDOWN)
  else
    match batchBytes frames 0 with
    | .error e => (q, .error e)
    | .ok bytes =>
      match valid with
      | .error e => (q, .error e)
      | .ok () => sendBatchReservedLocked q frames bytes metadata r id

/-! ## What the worker selects -/

def TxEntry.eligible (e : TxEntry) (nowMs : Nat) : Bool := !e.inFlight && e.deferUntilMs ≤ nowMs

def queueOldestControl (q : TxQueue) (nowMs : Nat) : Option (Fin TX_QUEUE_LIMIT) :=
  ((List.finRange TX_QUEUE_LIMIT).foldl (fun best i =>
    match q.entries i with
    | none => best
    | some e => if e.eligible nowMs && e.control && e.sequence < best.1 then (e.sequence, some i) else best)
    (U64_MAX, none)).2

def priorityCycle : List Nat := [0, 0, 0, 0, 0, 0, 0, 0, 1, 1, 1, 1, 2, 2, 3]

def queuePriority (q : TxQueue) (nowMs : Nat) : Option (Nat × Nat) :=
  (List.range priorityCycle.length).findSome? fun cycle =>
    let slot := (q.prioritySlot + cycle) % priorityCycle.length
    let candidate := priorityCycle.getD slot 0
    if (q.entries.find? fun e => e.eligible nowMs && !e.control && e.priority = candidate).isSome then
      some (candidate, (slot + 1) % priorityCycle.length)
    else none

def TxQueue.peerTurn (q : TxQueue) (i : Fin TX_FLOW_LIMIT) : Nat := (q.peers i).elim 0 (·.turn)

def TxQueue.flowTurn (q : TxQueue) (i : Fin TX_FLOW_LIMIT) : Nat := (q.flows i).elim 0 (·.turn)

/-- The loops of `melodi_queue_data` over the entries that pass the test: the record with the least turn, the oldest
entry deciding between equal ones. -/
def leastTurn (q : TxQueue) (candidate : TxEntry → Bool) (record : TxEntry → Fin TX_FLOW_LIMIT)
    (turn : Fin TX_FLOW_LIMIT → Nat) : Option (Fin TX_FLOW_LIMIT) :=
  ((List.finRange TX_QUEUE_LIMIT).foldl (fun (best : (Nat × Nat) × Option (Fin TX_FLOW_LIMIT)) i =>
    match q.entries i with
    | none => best
    | some e =>
      if candidate e && (turn (record e) < best.1.1 || (turn (record e) = best.1.1 && e.sequence < best.1.2)) then
        ((turn (record e), e.sequence), some (record e))
      else best) ((U64_MAX, U64_MAX), none)).2

def oldestEntry (q : TxQueue) (candidate : TxEntry → Bool) : Option (Fin TX_QUEUE_LIMIT) :=
  ((List.finRange TX_QUEUE_LIMIT).foldl (fun (best : Nat × Option (Fin TX_QUEUE_LIMIT)) i =>
    match q.entries i with
    | none => best
    | some e => if candidate e && e.sequence < best.1 then (e.sequence, some i) else best) (U64_MAX, none)).2

def queueTurnReset (q : TxQueue) : TxQueue :=
  if q.schedulerTurn = U64_MAX then
    { q with
      peers := fun i => (q.peers i).map fun p => { p with turn := 0 }
      flows := fun i => (q.flows i).map fun f => { f with turn := 0 }
      schedulerTurn := 0 }
  else q

def queueTurnTake (q : TxQueue) (peer flow : Fin TX_FLOW_LIMIT) : TxQueue :=
  let turn := q.schedulerTurn + 1
  { q with
    schedulerTurn := turn
    peers := fun i => if i = peer then (q.peers i).map fun p => { p with turn := turn } else q.peers i
    flows := fun i => if i = flow then (q.flows i).map fun f => { f with turn := turn } else q.flows i }

def queueData (q : TxQueue) (nowMs : Nat) : TxQueue × Option (Fin TX_QUEUE_LIMIT) :=
  match queuePriority q nowMs with
  | none => (q, none)
  | some (priority, slot) =>
    let q := { q with prioritySlot := slot }
    let atPriority := fun (e : TxEntry) => e.eligible nowMs && !e.control && e.priority = priority
    match leastTurn q atPriority (·.peerIndex) q.peerTurn with
    | none => (q, none)
    | some peer =>
      let ofPeer := fun (e : TxEntry) => atPriority e && e.peerIndex = peer
      match leastTurn q ofPeer (·.flowIndex) q.flowTurn with
      | none => (q, none)
      | some flow =>
        match oldestEntry q fun e => ofPeer e && e.flowIndex = flow with
        | none => (q, none)
        | some i => (queueTurnTake (queueTurnReset q) peer flow, some i)

/-! ## Expiry and airtime -/

def expireSlot (nowMs : Nat) (s : TxQueue × Option Notice) (i : Fin TX_QUEUE_LIMIT) : TxQueue × Option Notice :=
  match s.1.entries i with
  | none => s
  | some e =>
    if !e.inFlight && e.expiresMs ≤ nowMs then (queueRemoveLocked s.1 i, queueNoticeEntry s.2 e .ETIMEDOUT) else s

def queueExpireLocked (q : TxQueue) (nowMs : Nat) : TxQueue × Option Notice :=
  (List.finRange TX_QUEUE_LIMIT).foldl (expireSlot nowMs) (q, none)

structure AirtimeCharge where
  durationUs : Nat := 0
  budgetUs : Nat := 0
  broadcastBudgetUs : Nat := 0
  deriving DecidableEq, Repr

def coreAirtime : Option (Except Errno AirtimeCharge) → Except Errno AirtimeCharge
  | none => .ok {}
  | some (.error e) => .error e
  | some (.ok c) =>
    if c.durationUs = 0 ∨ c.budgetUs = 0 ∨ c.broadcastBudgetUs = 0 ∨ AIRTIME_WINDOW_US < c.budgetUs ∨
        c.budgetUs < c.broadcastBudgetUs ∨ AIRTIME_WINDOW_US < c.durationUs then .error .EPROTO
    else .ok c

def airtimeBudgets (q : TxQueue) (c : AirtimeCharge) : TxQueue :=
  if q.airtimeBudgetUs ≠ c.budgetUs ∨ q.broadcastBudgetUs ≠ c.broadcastBudgetUs then
    { q with
      airtime := airtimeReset, broadcastAirtime := airtimeReset
      airtimeBudgetUs := c.budgetUs, broadcastBudgetUs := c.broadcastBudgetUs }
  else q

def airtimeVerdict (total broadcast : Except Errno Unit × Nat) : Except Errno Unit × Nat :=
  match total.1, broadcast.1 with
  | .ok (), .ok () => (.ok (), 0)
  | .error .EAGAIN, .ok () | .ok (), .error .EAGAIN | .error .EAGAIN, .error .EAGAIN =>
    (.error .EAGAIN, max total.2 broadcast.2)
  | .error .EAGAIN, .error e => (.error e, 0)
  | .error e, _ => (.error e, 0)
  | .ok (), .error e => (.error e, 0)

def queueAirtimeLocked (q : TxQueue) (c : AirtimeCharge) (broadcast : Bool) (nowMs : Nat) :
    TxQueue × Except Errno Unit × Nat :=
  if c.durationUs = 0 then ({ q with airtimeAfter := q.airtime, broadcastAfter := q.broadcastAirtime }, .ok (), 0)
  else
    let q := airtimeBudgets q c
    let total := airtimeAdmit q.airtime nowMs c.budgetUs c.durationUs
    let bcast := if broadcast then airtimeAdmit q.broadcastAirtime nowMs c.broadcastBudgetUs c.durationUs
      else (q.broadcastAirtime, .ok (), 0)
    ({ q with airtimeAfter := total.1, broadcastAfter := bcast.1 }, airtimeVerdict total.2 bcast.2)

def queueTransient : Errno → Bool
  | .EAGAIN | .ENOBUFS | .ENOSPC => true
  | _ => false

/-! ## The worker (`melodi_queue_work`) -/

def entryUpdate (q : TxQueue) (i : Fin TX_QUEUE_LIMIT) (e : TxEntry) : TxQueue :=
  { q with entries := q.entries.set i e }

def queueMark (q : TxQueue) : Option (Fin TX_QUEUE_LIMIT) → TxQueue × Option (Fin TX_QUEUE_LIMIT)
  | none => (q, none)
  | some i =>
    match q.entries i with
    | none => (q, none)
    | some e => (entryUpdate q i { e with inFlight := true }, some i)

def queueSelect (q : TxQueue) (nowMs : Nat) : TxQueue × Option (Fin TX_QUEUE_LIMIT) :=
  let control := queueOldestControl q nowMs
  if control.isSome ∧ q.controlBurst < TX_CONTROL_BURST then queueMark q control
  else
    let data := queueData q nowMs
    queueMark data.1 (data.2.or control)

def queueGuard (q : TxQueue) (nowMs : Nat) (linkBusy : Bool) (guardMs : Nat) : TxQueue :=
  if linkBusy then { q with guardUntilMs := nowMs + guardMs } else q

def queueWorkSelect (q : TxQueue) (nowMs : Nat) (linkBusy : Bool) (guardMs : Nat) :
    TxQueue × Option Notice × Option (Fin TX_QUEUE_LIMIT) :=
  if q.stopping then (q, none, none)
  else
    let expired := queueExpireLocked q nowMs
    let q := queueGuard expired.1 nowMs linkBusy guardMs
    if q.queueCount ≠ 0 ∧ (linkBusy = true ∨ nowMs < q.guardUntilMs) then (q, expired.2, none)
    else
      let selected := queueSelect q nowMs
      (selected.1, expired.2, selected.2)

/-- The second critical section, for a data entry: `valid` is what `melodi_data_queue_valid_locked` returns. The result
is what cancelling the group left, or nothing when the entry goes on. -/
def queueWorkCheck (q : TxQueue) (i : Fin TX_QUEUE_LIMIT) (e : TxEntry) (valid : Except Errno Unit) :
    Option Cancelled :=
  match if e.cancelled then .error .EACCES else valid with
  | .ok () => none
  | .error error => some (queueCancelGroupLocked q e.groupId (some i) error none)

inductive AirtimeOutcome where
  | done (notice : Option Notice)
  | transmit (admitted : Bool)
  deriving DecidableEq, Repr

def queueWorkAirtime (q : TxQueue) (i : Fin TX_QUEUE_LIMIT) (e : TxEntry) (nowMs : Nat)
    (charge : Except Errno AirtimeCharge) : TxQueue × AirtimeOutcome :=
  let drop :=
    fun (q : TxQueue) (error : Errno) => (queueRemoveLocked q i, AirtimeOutcome.done (queueNoticeEntry none e error))
  if q.stopping then (queueRemoveLocked q i, .done none)
  else if e.cancelled then drop q .EACCES
  else if e.expiresMs ≤ nowMs then drop q .ETIMEDOUT
  else
    match charge with
    | .error error => drop q error
    | .ok c =>
      match queueAirtimeLocked q c (!e.control && e.metadata.destinationLocator = LINK_LOCATOR_BROADCAST) nowMs with
      | (q, .ok (), _) => (q, .transmit (c.durationUs ≠ 0))
      | (q, .error .EAGAIN, waitMs) =>
        (entryUpdate q i { e with inFlight := false, deferUntilMs := nowMs + min waitMs (e.expiresMs - nowMs) },
          .done none)
      | (q, .error error, _) => drop q error

def queueCommit (q : TxQueue) (control admitted : Bool) : TxQueue :=
  let q := if admitted then { q with airtime := q.airtimeAfter, broadcastAirtime := q.broadcastAfter } else q
  { q with controlBurst := if control ∧ q.controlBurst < U8_MAX then q.controlBurst + 1 else 0 }

def queueWorkFinish (q : TxQueue) (i : Fin TX_QUEUE_LIMIT) (e : TxEntry) (nowMs : Nat) (admitted : Bool)
    (result : Except Errno Unit) : TxQueue × Option Notice :=
  match result with
  | .ok () => (queueCommit (queueRemoveLocked q i) e.control admitted, none)
  | .error error =>
    if queueTransient error ∧ q.stopping = false ∧ nowMs < e.expiresMs then
      (entryUpdate q i { e with inFlight := false, deferUntilMs := min e.expiresMs (nowMs + 100) }, none)
    else (queueRemoveLocked q i, queueNoticeEntry none e error)

/-! ## Stopping and starting -/

def queueStop (q : TxQueue) : TxQueue := { q with stopping := true }

def drainReservation (q : TxQueue) (error : Errno) : TxQueue × Option Notice :=
  match (q.reservations.find? fun _ => true).bind q.reservations with
  | none => (q, none)
  | some r => reservationCancel q r.id error true

def drainEntries (q : TxQueue) : TxQueue :=
  { (List.finRange TX_QUEUE_LIMIT).foldl queueRemoveLocked q with
    peers := Table.empty, flows := Table.empty, queueBytes := 0, queueCount := 0, guardUntilMs := 0, controlBurst := 0,
    airtimeBudgetUs := 0, broadcastBudgetUs := 0, airtime := airtimeReset, broadcastAirtime := airtimeReset }

def queueStart (q : TxQueue) : TxQueue := { q with stopping := false }

def queueMessageQueued (q : TxQueue) (destination : NodeId) (messageId : UInt64) (bindingPortid : UInt32)
    (bindingGeneration : UInt64) (service : UInt16) : Bool :=
  (q.entries.find? fun e => e.reliable && e.messageId = messageId && e.bindingPortid = bindingPortid &&
    e.bindingGeneration = bindingGeneration && e.service = service && e.destination = destination).isSome

end Melodi
