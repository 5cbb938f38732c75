import Melodi.Core.Identity
import Melodi.Core.Receive

/-!
# Sending a message (`melodi_data_send_internal`)
-/

namespace Melodi
open Lib

structure SendRequest where
  destination : Option NodeId
  sourceService : UInt16
  destinationService : UInt16
  payload : Octets
  flags : UInt32
  ttlMs : Nat
  priority : Nat
  deriving DecidableEq, Repr

def SendRequest.isReliable (r : SendRequest) : Bool := r.flags &&& (F_RELIABLE ||| F_ORDERED) ≠ 0

def SendRequest.isOrdered (r : SendRequest) : Bool := r.flags &&& F_ORDERED ≠ 0

def SendRequest.isBroadcast (r : SendRequest) : Bool := r.flags &&& F_BROADCAST ≠ 0

def dataWireFlags (r : SendRequest) : UInt16 :=
  WIRE_F_ENCRYPTED ||| (if r.isReliable then WIRE_F_RELIABLE else 0) ||| (if r.isOrdered then WIRE_F_ORDERED else 0)

def SendRequest.deliveryMode (r : SendRequest) : UInt8 :=
  if r.isOrdered then DELIVERY_RELIABLE_ORDERED
  else if r.flags &&& F_RELIABLE ≠ 0 then DELIVERY_RELIABLE
  else DELIVERY_UNRELIABLE

def SendRequest.malformed (r : SendRequest) : Bool :=
  MESSAGE_MTU < r.payload.length || r.flags &&& ~~~F_ALL ≠ 0 || r.ttlMs = 0 || TTL_DEFAULT_MS < r.ttlMs ||
    PRIORITY_MAX < r.priority || r.sourceService = SERVICE_CONTROL || r.destinationService = SERVICE_CONTROL

def sendCheck (P : Platform) (r : SendRequest) : Except Errno NodeId :=
  if r.malformed then .error .EINVAL
  else
    match r.destination, r.isBroadcast with
    | some destination, false =>
      if nodeIdValid P destination = false then .error .EINVAL
      else if r.destinationService = SERVICE_ECHO ∧ r.isReliable then .error .EOPNOTSUPP
      else .ok destination
    | _, _ => .error .EINVAL

def fragmentCountWith (overhead frameMtu length : Nat) : Except Errno Nat :=
  if frameMtu < overhead ∨ (length ≠ 0 ∧ frameMtu = overhead) then .error .EMSGSIZE
  else
    let payloadMtu := frameMtu - overhead
    let count := if length = 0 then 1 else (length + payloadMtu - 1) / payloadMtu
    if FRAGMENT_LIMIT < count then .error .EMSGSIZE else .ok count

def fragmentCountFor (frameMtu length : Nat) : Except Errno Nat := fragmentCountWith WIRE_DATA_SIZE frameMtu length

structure Sealing where
  template : WireData
  key : Octets
  baseCounter : Nat
  count : Nat
  payloadMtu : Nat
  payload : Octets
  metadata : TxMeta
  sessionEpoch : UInt64
  session : Nat

/-- What the outside decides: the frame size, the allocations, and the message id drawn, which is not zero. -/
structure SendAmbient where
  frameMtu : Nat
  allocated : Bool
  reservedInvalid : Bool
  messageId : { m : UInt64 // m ≠ 0 }

/-- What the critical section of `melodi_data_send_internal` leaves for the sealing loop: the header all fragments
share, the key, and `count` counters from the next one on. -/
def sealingFor (d : Device) (p : Peer) (r : SendRequest) (a : SendAmbient) (count marker : Nat) : Sealing where
  template :=
    { common :=
        { flags := dataWireFlags r, sourceNativeLocator := d.localNativeLocator,
          destinationNativeLocator := p.nativeLocator, identityGeneration := d.identityGeneration,
          messageId := a.messageId.val }
      destinationService := r.destinationService
      sourceService := r.sourceService
      fragmentCount := UInt16.ofNat count
      logicalLength := UInt32.ofNat r.payload.length
      priority := UInt8.ofNat r.priority
      deliveryMode := r.deliveryMode
      orderingMarker := UInt32.ofNat marker }
  key := p.transmitKey
  baseCounter := d.transmitCounter + 1
  count := count
  payloadMtu := a.frameMtu - WIRE_DATA_SIZE
  payload := r.payload
  metadata := { sourceLocator := d.localLinkLocator, destinationLocator := p.linkLocator }
  sessionEpoch := p.sessionEpoch
  session := p.session

def sendMarker (d : Device) (p : Peer) (r : SendRequest) (destination : NodeId) :
    Except Errno (Nat × Table ORDER_FLOW_LIMIT OrderTxFlow) :=
  if r.isOrdered then
    orderTxMarkerLocked d.orderTx destination r.sourceService r.destinationService p.generation p.sessionEpoch
  else .ok (0, d.orderTx)

def sendSection (d : Device) (r : SendRequest) (destination : NodeId) (count : Nat) (a : SendAmbient) :
    Device × Except Errno Sealing :=
  match (if a.reservedInvalid then none else peerByNode d destination).bind d.peers with
  | none => (d, .error .EHOSTUNREACH)
  | some p =>
    if p.sessionReady = false ∨ p.conflicted = true then (d, .error .EHOSTUNREACH)
    else
      match policyCheckMessageLocked d destination r.destinationService false with
      | .error e => (d, .error e)
      | .ok () =>
        if U64_MAX - count < d.transmitCounter then (d, .error .EOVERFLOW)
        else
          let d' := { d with transmitCounter := d.transmitCounter + count }
          match sendMarker d p r destination with
          | .error e => (d', .error e)
          | .ok (marker, orderTx) => ({ d' with orderTx := orderTx }, .ok (sealingFor d p r a count marker))

def sendOpen (P : Platform) (d : Device) (r : SendRequest) (a : SendAmbient) : Device × Except Errno Sealing :=
  match sendCheck P r with
  | .error e => (d, .error e)
  | .ok destination =>
    match fragmentCountFor a.frameMtu r.payload.length with
    | .error e => (d, .error e)
    | .ok count => if a.allocated = false then (d, .error .ENOMEM) else sendSection d r destination count a

/-! ## Sealing the fragments -/

def Sealing.chunk (s : Sealing) (index : Nat) : Octets := (s.payload.drop (index * s.payloadMtu)).take s.payloadMtu

def Sealing.header (s : Sealing) (index : Nat) : WireData :=
  { s.template with
    fragmentIndex := UInt16.ofNat index
    common := { s.template.common with
      counter := UInt64.ofNat (s.baseCounter + index)
      flags := if index + 1 = s.count then s.template.common.flags ||| WIRE_F_FINAL
        else s.template.common.flags &&& ~~~WIRE_F_FINAL } }

def Sealing.nonce (s : Sealing) (index : Nat) : Octets :=
  dataNonce (s.header index).common.sourceNativeLocator (s.header index).common.identityGeneration
    (s.header index).common.counter (s.header index).common.messageId

def sealFrame (P : Platform) (s : Sealing) (index : Nat) : Except Errno Octets :=
  let chunk := s.chunk index
  match wireEncodeData (WIRE_DATA_SIZE + chunk.length) (s.header index) chunk with
  | .error e => .error e
  | .ok frame =>
    let encrypted := P.encrypt s.key (s.nonce index) (frame.take WIRE_AUTH_DATA_SIZE) chunk
    .ok (frame.take WIRE_AUTH_DATA_SIZE ++ (encrypted.drop chunk.length ++
      ((frame.take WIRE_DATA_SIZE).drop (WIRE_AUTH_DATA_SIZE + WIRE_TAG_SIZE) ++ encrypted.take chunk.length)))

/-- The loop from fragment `index` on, with `n` fragments left: the frames, and the device with what was encrypted.
`fails` says at which fragment the allocation of a frame fails. -/
def sealFrames (P : Platform) (s : Sealing) (fails : Nat → Bool) :
    Nat → Nat → Device → Device × Except Errno (List Octets)
  | _, 0, d => (d, .ok [])
  | index, n + 1, d =>
    if fails index then (d, .error .ENOMEM)
    else
      match sealFrame P s index with
      | .error e => (d, .error e)
      | .ok frame =>
        match sealFrames P s fails (index + 1) n (d.note (.encrypt s.key (s.nonce index))) with
        | (d, .error e) => (d, .error e)
        | (d, .ok frames) => (d, .ok (frame :: frames))

/-! ## Broadcasts (`melodi_data_send_broadcast`) -/

structure Signing where
  template : WireData
  baseCounter : Nat
  count : Nat
  payloadMtu : Nat
  payload : Octets
  metadata : TxMeta

def broadcastCheck (r : SendRequest) (a : SendAmbient) : Except Errno Nat :=
  if r.malformed ∨ r.isBroadcast = false ∨ r.destination.isSome then .error .EINVAL
  else if r.sourceService = SERVICE_ECHO ∨ r.destinationService = SERVICE_ECHO then .error .EINVAL
  else if r.isReliable then .error .EOPNOTSUPP
  else if BROADCAST_MTU < r.payload.length then .error .EMSGSIZE
  else fragmentCountWith (WIRE_DATA_SIZE + WIRE_BROADCAST_OVERHEAD) a.frameMtu r.payload.length

def broadcastTemplate (d : Device) (r : SendRequest) (a : SendAmbient) (count : Nat) : WireData where
  common :=
    { flags := WIRE_F_BROADCAST, sourceNativeLocator := d.localNativeLocator,
      destinationNativeLocator := NATIVE_LOCATOR_BROADCAST, identityGeneration := d.identityGeneration,
      messageId := a.messageId.val }
  destinationService := r.destinationService
  sourceService := r.sourceService
  fragmentCount := UInt16.ofNat count
  logicalLength := UInt32.ofNat r.payload.length
  priority := UInt8.ofNat r.priority
  deliveryMode := DELIVERY_UNRELIABLE
  orderingMarker := 0

def broadcastSend (d : Device) (r : SendRequest) (a : SendAmbient) : Device × Except Errno Signing :=
  match broadcastCheck r a with
  | .error e => (d, .error e)
  | .ok count =>
    if a.allocated = false then (d, .error .ENOMEM)
    else if d.identityReady = false then (d, .error .ENOKEY)
    else if d.transportReady = false then (d, .error .ENETDOWN)
    else if U64_MAX - count < d.transmitCounter then (d, .error .EOVERFLOW)
    else
      match policyCheckServiceLocked d r.destinationService true with
      | .error e => (d, .error e)
      | .ok () =>
        ({ d with transmitCounter := d.transmitCounter + count },
          .ok { template := broadcastTemplate d r a count, baseCounter := d.transmitCounter + 1, count := count,
                payloadMtu := a.frameMtu - (WIRE_DATA_SIZE + WIRE_BROADCAST_OVERHEAD), payload := r.payload,
                metadata := { sourceLocator := d.localLinkLocator, destinationLocator := LINK_LOCATOR_BROADCAST } })

end Melodi
