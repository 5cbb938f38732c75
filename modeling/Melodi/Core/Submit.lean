import Melodi.Core.Handshake
import Melodi.Core.Pending

/-!
# The send path (`netlink.c`, `main.c`, `data.c`)

A message of an application is admitted, which reserves its place in the queue; it is passed through the network stack
as a `LogicalSkb`; the work of the device claims the reservation and sends the message.
-/

namespace Melodi
open Lib

/-! ## Messages of applications -/

/-- What an application asks for: the message, and the binding it comes from. -/
structure Submission where
  request : SendRequest
  cookie : UInt64 := 0
  bindingPortid : UInt32 := 0
  bindingGeneration : UInt64 := 0
  deriving DecidableEq, Repr

/-- `struct melodi_logical_header` and the payload behind it. Its magic, version and lengths are those the driver
checks. -/
structure LogicalSkb where
  destination : NodeId
  reservationId : UInt64
  cookie : UInt64
  bindingGeneration : UInt64
  flags : UInt32
  ttlMs : UInt32
  bindingPortid : UInt32
  sourceService : UInt16
  destinationService : UInt16
  priority : UInt8
  payload : Octets
  deriving DecidableEq, Repr

def LOGICAL_MAGIC : UInt32 := 0x4d454c51
def LOGICAL_VERSION : UInt8 := 1
def LOGICAL_HEADER_SIZE : UInt16 := 96

def LogicalSkb.data (k : LogicalSkb) : Octets :=
  k.destination ++ List.replicate 7 0 ++ put64 k.reservationId ++ put64 k.cookie ++ put64 k.bindingGeneration ++
    put32 LOGICAL_MAGIC ++ put32 k.flags ++ put32 k.ttlMs ++ put32 k.bindingPortid ++
    put32 (UInt32.ofNat k.payload.length) ++ put16 k.sourceService ++ put16 k.destinationService ++
    put16 LOGICAL_HEADER_SIZE ++ [k.priority, LOGICAL_VERSION] ++ List.replicate 4 0 ++ k.payload

def LogicalSkb.valid (k : LogicalSkb) : Bool := k.reservationId ≠ 0 && k.payload.length ≤ MESSAGE_MTU

def Submission.skb (m : Submission) (id : Nat) : LogicalSkb where
  destination := m.request.destination.getD (List.replicate 33 0)
  reservationId := UInt64.ofNat id
  cookie := m.cookie
  bindingGeneration := m.bindingGeneration
  flags := m.request.flags
  ttlMs := UInt32.ofNat m.request.ttlMs
  bindingPortid := m.bindingPortid
  sourceService := m.request.sourceService
  destinationService := m.request.destinationService
  priority := UInt8.ofNat m.request.priority
  payload := m.request.payload

def LogicalSkb.submission (k : LogicalSkb) : Submission where
  request :=
    { destination := if k.flags &&& F_BROADCAST ≠ 0 then none else some k.destination
      sourceService := k.sourceService
      destinationService := k.destinationService
      payload := k.payload
      flags := k.flags
      ttlMs := k.ttlMs.toNat
      priority := k.priority.toNat }
  cookie := k.cookie
  bindingPortid := k.bindingPortid
  bindingGeneration := k.bindingGeneration

/-! ## Admission (`melodi_data_admit`) -/

def Submission.queueRequest (m : Submission) (message : Nat) : QueueRequest where
  destination := m.request.destination.getD (List.replicate 33 0)
  ttlMs := m.request.ttlMs
  bindingPortid := m.bindingPortid
  bindingGeneration := m.bindingGeneration
  service := m.request.sourceService
  destinationService := m.request.destinationService
  priority := m.request.priority
  broadcast := m.request.isBroadcast
  reliable := m.request.isReliable
  message := message

/-- What the outside decides of an admission: the interface, its namespace, the frame size, an allocation. -/
structure AdmitAmbient where
  up : Bool
  net : Nat
  frameMtu : Nat
  alloc : Bool

namespace Submit

/-- The checks of `melodi_data_admit` before any state is read: the number of fragments and the octets beside the
payload. -/
def admitCheck (P : Platform) (r : SendRequest) (a : AdmitAmbient) : Except Errno (Nat × Nat) :=
  if r.malformed ∨ r.isBroadcast = r.destination.isSome then .error .EINVAL
  else if r.destination.any (fun node => !nodeIdValid P node) then .error .EINVAL
  else if r.isBroadcast ∧ (r.isReliable ∨ BROADCAST_MTU < r.payload.length ∨ r.sourceService = SERVICE_ECHO ∨
      r.destinationService = SERVICE_ECHO) then .error (if r.isReliable then .EOPNOTSUPP else .EINVAL)
  else if r.isBroadcast = false ∧ r.destinationService = SERVICE_ECHO ∧ r.isReliable then .error .EOPNOTSUPP
  else if a.up = false then .error .ENETDOWN
  else
    let overhead := WIRE_DATA_SIZE + if r.isBroadcast then WIRE_BROADCAST_OVERHEAD else 0
    (fragmentCountWith overhead a.frameMtu r.payload.length).map (·, overhead)

/-- The locator, generation and session a message would be sent with now. Without a session there is no locator, and the
message waits for one unless it must not. -/
def admitTarget (d : Device) (r : SendRequest) : Except Errno (UInt32 × UInt32 × UInt64) :=
  match r.destination with
  | none =>
    match policyCheckServiceLocked d r.destinationService true with
    | .error e => .error e
    | .ok () => .ok (LINK_LOCATOR_BROADCAST, d.identityGeneration, 0)
  | some destination =>
    let allowed := policyCheckMessageLocked d destination r.destinationService false
    match ((peerByNode d destination).bind d.peers).filter fun p => p.sessionReady && !p.conflicted with
    | some p => allowed.map fun _ => (p.linkLocator, d.identityGeneration, p.sessionEpoch)
    | none =>
      if r.flags &&& F_DONTWAIT ≠ 0 then .error .EHOSTUNREACH
      else allowed.map fun _ => (NATIVE_LOCATOR_INVALID, 0, 0)

def reserveArgs (P : Platform) (d : Device) (pending : Table PENDING_LIMIT PendingMessage) (m : Submission)
    (message : Nat) (a : AdmitAmbient) : Except Errno (ReserveArgs × QueueRequest) :=
  match admitCheck P m.request a with
  | .error e => .error e
  | .ok (count, overhead) =>
    if d.identityReady = false then .error .ENOKEY
    else if d.transportReady = false then .error .ENETDOWN
    else
      match admitTarget d m.request with
      | .error e => .error e
      | .ok (locator, generation, sessionEpoch) =>
        .ok
          ({ net := a.net, locator := locator, count := count, bytes := overhead * count + m.request.payload.length
             logicalLength := m.request.payload.length, cookie := m.cookie, reliable := m.request.isReliable
             activePending := if m.request.isReliable then pending.sum (fun _ => 1) else 0 },
           { m.queueRequest message with
             identityGeneration := generation, sourceLocator := d.localLinkLocator, sessionEpoch := sessionEpoch })

def dataAdmit (P : Platform) (d : Device) (t : Transmit) (m : Submission) (message : Nat) (a : AdmitAmbient)
    (nowMs : Nat) : TxQueue × Except Errno Nat :=
  match reserveArgs P d t.pending m message a with
  | .error e => (t.queue, .error e)
  | .ok (args, r) => queueReserve t.queue args r nowMs a.alloc

theorem reserveArgs_ok {P : Platform} {d : Device} {pending : Table PENDING_LIMIT PendingMessage} {m : Submission}
    {message : Nat} {a : AdmitAmbient} {args : ReserveArgs} {r : QueueRequest}
    (h : reserveArgs P d pending m message a = .ok (args, r)) :
    ∃ x generation sessionEpoch, admitCheck P m.request a = .ok x ∧ args.count = x.1 ∧
      args.bytes = x.2 * x.1 + m.request.payload.length ∧ args.reliable = m.request.isReliable ∧
      args.activePending = (if m.request.isReliable then pending.sum (fun _ => 1) else 0) ∧
      r = { m.queueRequest message with
        identityGeneration := generation, sourceLocator := d.localLinkLocator, sessionEpoch := sessionEpoch } := by
  unfold reserveArgs at h
  split at h
  · cases h
  rename_i hcheck
  by_cases hidentity : d.identityReady = false
  · rw [if_pos hidentity] at h
    cases h
  rw [if_neg hidentity] at h
  by_cases htransport : d.transportReady = false
  · rw [if_pos htransport] at h
    cases h
  rw [if_neg htransport] at h
  split at h
  · cases h
  · obtain ⟨rfl, rfl⟩ := Prod.mk.inj (Except.ok.inj h)
    exact ⟨_, _, _, hcheck, rfl, rfl, rfl, rfl, rfl⟩

end Submit

/-! ## Broadcast frames -/

def Signing.chunk (g : Signing) (index : Nat) : Octets := (g.payload.drop (index * g.payloadMtu)).take g.payloadMtu

def Signing.header (g : Signing) (index : Nat) : WireData :=
  { g.template with
    fragmentIndex := UInt16.ofNat index
    common := { g.template.common with
      counter := UInt64.ofNat (g.baseCounter + index)
      flags := if index + 1 = g.count then g.template.common.flags ||| WIRE_F_FINAL
        else g.template.common.flags &&& ~~~WIRE_F_FINAL } }

/-- `melodi_data_sign_broadcast`: the frame is encoded with a signature of zeros, which the signature then
overwrites. -/
def signFrame (g : Signing) (index : Nat) (signature : Except Errno Octets) : Except Errno Octets :=
  let chunk := g.chunk index
  match wireEncodeBroadcastData (WIRE_DATA_SIZE + WIRE_BROADCAST_OVERHEAD + chunk.length) (g.header index)
      (List.replicate (WIRE_TAG_SIZE + WIRE_BROADCAST_OVERHEAD) 0) chunk with
  | .error e => .error e
  | .ok frame =>
    signature.map fun octets =>
      frame.take WIRE_AUTH_DATA_SIZE ++ octets.take WIRE_TAG_SIZE ++
        (frame.take WIRE_DATA_SIZE).drop (WIRE_AUTH_DATA_SIZE + WIRE_TAG_SIZE) ++ octets.drop WIRE_TAG_SIZE ++
        frame.drop (WIRE_DATA_SIZE + WIRE_BROADCAST_OVERHEAD)

/-- The loop of `melodi_data_send_broadcast`. `fails` says at which fragment an allocation fails, `sign` what
`melodi_identity_sign` returns. -/
def signFrames (g : Signing) (fails : Nat → Bool) (sign : Nat → Except Errno Octets) :
    Nat → Nat → Except Errno (List Octets)
  | _, 0 => .ok []
  | index, n + 1 =>
    if fails index then .error .ENOMEM
    else
      match signFrame g index (sign index) with
      | .error e => .error e
      | .ok frame => (signFrames g fails sign (index + 1) n).map (frame :: ·)

/-! ## A call of `melodi_data_send_internal` -/

/-- The arguments of a call. A reservation of zero is none; `message` is the history number of the message. -/
structure SendJob where
  submission : Submission
  reservation : Nat := 0
  queueDiscovery : Bool
  message : Nat := 0
  deriving DecidableEq, Repr

def SendJob.request (j : SendJob) : SendRequest := j.submission.request

def SendJob.destination (j : SendJob) : NodeId := j.request.destination.getD (List.replicate 33 0)

/-- The frames of a message, with what they are queued under beside the arguments of the call. -/
structure Batch where
  metadata : TxMeta
  identityGeneration : UInt32
  sessionEpoch : UInt64 := 0
  messageId : UInt64 := 0
  frames : List Octets
  deriving DecidableEq, Repr

def SendJob.queueRequest (j : SendJob) (b : Batch) : QueueRequest :=
  { j.submission.queueRequest j.message with
    identityGeneration := b.identityGeneration, sourceLocator := b.metadata.sourceLocator, sessionEpoch :=
      b.sessionEpoch,
    messageId := b.messageId }

def SendJob.sealedBatch (j : SendJob) (s : Sealing) (frames : List Octets) : Batch where
  metadata := { s.metadata with cookie := j.submission.cookie }
  identityGeneration := s.template.common.identityGeneration
  sessionEpoch := s.sessionEpoch
  messageId := s.template.common.messageId
  frames := frames

def SendJob.signedBatch (j : SendJob) (g : Signing) (frames : List Octets) : Batch where
  metadata := { g.metadata with cookie := j.submission.cookie }
  identityGeneration := g.template.common.identityGeneration
  frames := frames

inductive SendStage where
  | locating
  | opening (reservedInvalid : Bool)
  | sealing (s : Sealing) (paceMs : Nat)
  | signing (g : Signing)
  | registering (s : Sealing) (frames : List Octets) (paceMs : Nat)
  | queueing (b : Batch)
  | forgetting (messageId : UInt64) (generation : UInt32) (error : Errno)
  | discovering (startMs : Nat)
  | probing (slot : Fin DISCOVERY_PENDING_LIMIT)
  | announcing (slot : Fin DISCOVERY_PENDING_LIMIT) (c : WireControl)
  | unprobing (slot : Fin DISCOVERY_PENDING_LIMIT) (error : Errno)
  | done (result : Except Errno Unit)

def SendJob.conclude (j : SendJob) (nowMs : Nat) (result : Except Errno Unit) : SendStage :=
  match result with
  | .error .EHOSTUNREACH => if j.queueDiscovery then .discovering nowMs else .done result
  | _ => .done result

def sendLocate (P : Platform) (q : TxQueue) (j : SendJob) : SendStage :=
  if j.request.isBroadcast then .opening false
  else
    match sendCheck P j.request with
    | .error e => .done (.error e)
    | .ok _ =>
      if j.reservation = 0 then .opening false
      else
        match reservationLocator q j.reservation with
        | .error e => .done (.error e)
        | .ok locator => .opening (locator = NATIVE_LOCATOR_INVALID)

def sendBegin (P : Platform) (d : Device) (j : SendJob) (reservedInvalid : Bool) (a : SendAmbient)
    (paceMs nowMs : Nat) : Device × SendStage :=
  if j.request.isBroadcast then
    match broadcastSend d j.request a with
    | (d, .error e) => (d, .done (.error e))
    | (d, .ok g) => (d, .signing g)
  else
    match sendOpen P d j.request { a with reservedInvalid := reservedInvalid } with
    | (d, .error e) => (d, j.conclude nowMs (.error e))
    | (d, .ok s) => (d, .sealing s paceMs)

def sendSeal (P : Platform) (d : Device) (j : SendJob) (s : Sealing) (paceMs : Nat) (fails : Nat → Bool) (cloned : Bool)
    (nowMs : Nat) : Device × SendStage :=
  match sealFrames P s fails 0 s.count d with
  | (d, .error e) => (d, j.conclude nowMs (.error e))
  | (d, .ok frames) =>
    if j.request.isReliable = false then (d, .queueing (j.sealedBatch s frames))
    else if cloned then (d, .registering s frames paceMs)
    else (d, j.conclude nowMs (.error .ENOMEM))

def sendSign (j : SendJob) (g : Signing) (fails : Nat → Bool) (sign : Nat → Except Errno Octets) : SendStage :=
  match signFrames g fails sign 0 g.count with
  | .error e => .done (.error e)
  | .ok frames => .queueing (j.signedBatch g frames)

def stillReaches (d : Device) (destination : NodeId) (s : Sealing) : Option Peer :=
  ((peerByNode d destination).bind d.peers).filter fun p =>
    p.sessionReady && !p.conflicted && p.linkLocator = s.metadata.destinationLocator &&
      d.localLinkLocator = s.metadata.sourceLocator && d.identityGeneration = s.template.common.identityGeneration

def SendJob.pendingArgs (j : SendJob) (p : Peer) (s : Sealing) (frames : List Octets) (paceMs : Nat) : PendingArgs where
  destination := j.destination
  metadata := { s.metadata with cookie := j.submission.cookie }
  sourceService := j.request.sourceService
  destinationService := j.request.destinationService
  sourceNativeLocator := s.template.common.sourceNativeLocator
  destinationNativeLocator := s.template.common.destinationNativeLocator
  generation := s.template.common.identityGeneration
  destinationGeneration := p.generation
  sessionEpoch := p.sessionEpoch
  messageId := s.template.common.messageId
  fragmentCount := s.count
  ttlMs := j.request.ttlMs
  paceMs := paceMs
  bindingPortid := j.submission.bindingPortid
  bindingGeneration := j.submission.bindingGeneration
  priority := j.request.priority
  frames := frames
  reservation := j.reservation
  message := j.message

def sendRegister (d : Device) (t : Transmit) (j : SendJob) (s : Sealing) (frames : List Octets) (paceMs nowMs : Nat) :
    Transmit × SendStage :=
  match stillReaches d j.destination s with
  | none => (t, j.conclude nowMs (.error .EHOSTUNREACH))
  | some p =>
    match pendingAdmitLocked t (j.pendingArgs p s frames paceMs) nowMs with
    | (t, .error e) => (t, j.conclude nowMs (.error e))
    | (t, .ok ()) => (t, .queueing (j.sealedBatch s frames))

def SendJob.queued (j : SendJob) (b : Batch) (nowMs : Nat) : Except Errno Unit → SendStage
  | .ok () => .done (.ok ())
  | .error e =>
    if j.request.isBroadcast then .done (.error e)
    else if j.request.isReliable then .forgetting b.messageId b.identityGeneration e
    else j.conclude nowMs (.error e)

def sendDiscover (d : Device) (q : DiscoveryQueue) (j : SendJob) (startMs : Nat) (alloc : Bool) :
    DiscoveryQueue × SendStage :=
  if j.request.flags &&& F_DONTWAIT ≠ 0 then (q, .done (.error .EHOSTUNREACH))
  else if j.request.payload ≠ [] ∧ alloc = false then (q, .done (.error .ENOMEM))
  else
    match discoveryAdmitLocked d q
        { destination := j.destination, sourceService := j.request.sourceService,
          destinationService := j.request.destinationService, payload := j.request.payload, flags := j.request.flags,
          cookie := j.submission.cookie, ttlMs := j.request.ttlMs, bindingPortid := j.submission.bindingPortid,
          bindingGeneration := j.submission.bindingGeneration, priority := j.request.priority, message := j.message }
        startMs with
    | (q, .error e) => (q, .done (.error e))
    | (q, .ok (_, false)) => (q, .done (.ok ()))
    | (q, .ok (slot, true)) => (q, .probing slot)

def sendProbe (d : Device) (slot : Fin DISCOVERY_PENDING_LIMIT) (messageId : UInt64) : Device × SendStage :=
  match discoveryProbe d messageId with
  | (d, .error e) => (d, .unprobing slot e)
  | (d, .ok c) => (d, .announcing slot c)

def sendProbed (slot : Fin DISCOVERY_PENDING_LIMIT) : Except Errno Unit → SendStage
  | .ok () => .done (.ok ())
  | .error e => .unprobing slot e

def DiscoveryPending.job (p : DiscoveryPending) (ttlMs : Nat) : SendJob where
  submission :=
    { request := ⟨some p.destination, p.sourceService, p.destinationService, p.payload, p.flags, ttlMs, p.priority⟩
      cookie := p.cookie
      bindingPortid := p.bindingPortid
      bindingGeneration := p.bindingGeneration }
  queueDiscovery := false
  message := p.message

end Melodi
