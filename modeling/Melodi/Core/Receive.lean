import Melodi.Core.Order

/-!
# Receiving a data frame (`melodi_data_receive`)

The function takes the device lock several times. Each critical section is one definition here, with the local work up
to the next one, so that they can be run one after the other (`dataReceive`) or interleaved with those of other calls.
-/

namespace Melodi
open Lib

def dataNonce (sourceNativeLocator generation : UInt32) (counter messageId : UInt64) : Octets :=
  put32 sourceNativeLocator ++ put32 generation ++ put64 counter ++ put64 messageId

/-! ## Header checks -/

def WireData.isBroadcast (h : WireData) : Bool := h.common.flags &&& WIRE_F_BROADCAST ≠ 0

def WireData.isFinal (h : WireData) : Bool := h.common.flags &&& WIRE_F_FINAL ≠ 0

def WireData.isOrdered (h : WireData) : Bool := h.deliveryMode = DELIVERY_RELIABLE_ORDERED

def WireData.isReliable (h : WireData) : Bool := h.deliveryMode ≠ DELIVERY_UNRELIABLE

def dataHeaderValid (h : WireData) : Except Errno Unit :=
  let deliveryFlags := h.common.flags &&& (WIRE_F_RELIABLE ||| WIRE_F_ORDERED)
  if h.common.flags &&& WIRE_F_IGNORABLE ≠ 0 ∨
      h.isFinal ≠ decide (h.fragmentIndex.toNat + 1 = h.fragmentCount.toNat) ∨
      FRAGMENT_LIMIT < h.fragmentCount.toNat ∨
      h.common.sourceNativeLocator = NATIVE_LOCATOR_INVALID ∨
      h.common.sourceNativeLocator = NATIVE_LOCATOR_BROADCAST ∨
      h.common.identityGeneration = 0 ∨ h.common.messageId = 0 ∨ h.common.counter = 0 ∨
      h.sourceService = SERVICE_CONTROL ∨ h.destinationService = SERVICE_CONTROL ∨
      (h.sourceService = SERVICE_ECHO ∧ h.destinationService = SERVICE_ECHO) ∨
      h.isOrdered ≠ decide (h.orderingMarker ≠ 0) then
    .error .EPROTO
  else if h.isBroadcast then
    if h.common.flags &&& ~~~WIRE_F_FINAL ≠ WIRE_F_BROADCAST ∨
        h.common.destinationNativeLocator ≠ NATIVE_LOCATOR_BROADCAST ∨
        BROADCAST_MTU < h.logicalLength.toNat ∨
        h.common.payloadLength.toNat < WIRE_BROADCAST_OVERHEAD ∨
        h.sourceService = SERVICE_ECHO ∨ h.destinationService = SERVICE_ECHO ∨
        h.deliveryMode ≠ DELIVERY_UNRELIABLE ∨ h.orderingMarker ≠ 0 then
      .error .EPROTO
    else .ok ()
  else if h.common.flags &&& WIRE_F_ENCRYPTED = 0 ∨
      h.common.destinationNativeLocator = NATIVE_LOCATOR_INVALID ∨
      h.common.destinationNativeLocator = NATIVE_LOCATOR_BROADCAST ∨
      MESSAGE_MTU < h.logicalLength.toNat ∨
      (h.destinationService = SERVICE_ECHO ∧ h.deliveryMode ≠ DELIVERY_UNRELIABLE) ∨
      (h.common.payloadLength = 0 ∧ (h.logicalLength ≠ 0 ∨ h.fragmentCount ≠ 1)) then
    .error .EPROTO
  else if (h.deliveryMode = DELIVERY_UNRELIABLE ∧ deliveryFlags ≠ 0) ∨
      (h.deliveryMode = DELIVERY_RELIABLE ∧ deliveryFlags ≠ WIRE_F_RELIABLE) ∨
      (h.deliveryMode = DELIVERY_RELIABLE_ORDERED ∧ deliveryFlags ≠ WIRE_F_RELIABLE ||| WIRE_F_ORDERED) then
    .error .EPROTO
  else .ok ()

/-! ## The peer of a frame -/

def lookupPeer (d : Device) (nativeLocator : UInt32) : Option (Fin PEER_LIMIT × Peer) :=
  (peerByNativeLocator d nativeLocator).bind fun i => (d.peers i).map (i, ·)

def policyAllows (d : Device) (source : NodeId) (destinationService : UInt16) : Bool :=
  (policyCheckLocked d source).isOk && (policyCheckServiceLocked d destinationService false).isOk

def markAccepted (d : Device) (i : Fin PEER_LIMIT) (p : Peer) (counter : Nat) (kind : FrameKind) :
    Except Errno (Device × Token) :=
  match replayMark p.receiveReplay counter with
  | .error e => .error e
  | .ok w =>
    let token : Token := ⟨p.session, p.residence, p.nodeId, p.generation, counter, kind⟩
    .ok ({ d with peers := d.peers.set i { p with receiveReplay := w } }.note (.accept token), token)

/-! ## From an accepted fragment to the outcome -/

/-- What the section that admits a frame leaves to do without the lock. -/
inductive Outcome where
  | again (bitmap : BitVec 64) (status : AckStatus)
  | incomplete (bitmap : BitVec 64)
  | ordered (m : Complete) (bitmap : BitVec 64) (batch : Except Errno (List OrderMessage))
  | whole (m : Complete) (bitmap : BitVec 64)

def reliabilityNow (bootNs : UInt64) : Nat := bootNs.toNat / 1000000

/-- What the outside decides in the admitting section: the clocks, and the allocation of the complete message. -/
structure Ambient where
  jiffies : UInt64
  bootNs : UInt64
  allocComplete : Bool

def Ambient.nowMs (a : Ambient) : Nat := reliabilityNow a.bootNs

def dataComplete (d : Device) (h : WireData) (sessionEpoch : UInt64) (m : Complete) (bitmap : BitVec 64) (nowMs : Nat) :
    Device × Except Errno Outcome :=
  if h.isOrdered then
    let r := orderAdmitLocked d.rx h sessionEpoch m nowMs
    ({ d with rx := r.1 }, .ok (.ordered m bitmap r.2))
  else (d, .ok (.whole m bitmap))

def singleComplete (source : NodeId) (h : WireData) (metadata : RxMeta) (plaintext : Octets) (token : Token) :
    Complete where
  source := source
  sourceService := h.sourceService
  destinationService := h.destinationService
  payload := plaintext
  metadata := metadata
  origin := ⟨token.session, h.common.identityGeneration, h.common.messageId, h.orderingMarker.toNat, [token]⟩

def dataAdmit (P : Platform) (d : Device) (h : WireData) (source : NodeId) (sessionEpoch : UInt64) (metadata : RxMeta)
    (plaintext : Octets) (token : Token) (a : Ambient) : Device × Except Errno Outcome :=
  if h.fragmentCount = 1 then
    dataComplete d h sessionEpoch (singleComplete source h metadata plaintext token) 1#64 a.nowMs
  else
    match reassemblyAdd P d.rx a.jiffies source h sessionEpoch metadata plaintext a.allocComplete token with
    | (rx, .error e) => ({ d with rx := rx }, .error e)
    | (rx, .ok (none, bitmap)) => ({ d with rx := rx }, .ok (.incomplete bitmap))
    | (rx, .ok (some m, bitmap)) => dataComplete { d with rx := rx } h sessionEpoch m bitmap a.nowMs

/-! ## Unicast frames -/

/-- A unicast frame between its two critical sections: decrypted, with what the first section read of the peer. -/
structure Opened where
  header : WireData
  metadata : RxMeta
  plaintext : Octets
  source : NodeId
  sessionEpoch : UInt64
  duplicate : Bool

def dataOpen (P : Platform) (d : Device) (frame : Octets) (h : WireData) (ciphertext : Octets) (link : RxMeta) :
    Except Errno Opened :=
  match lookupPeer d h.common.sourceNativeLocator with
  | none => .error .EKEYREJECTED
  | some (_, p) =>
    if p.sessionReady = false ∨ h.common.destinationNativeLocator ≠ d.localNativeLocator ∨
        link.sourceLocator ≠ p.linkLocator ∨ link.destinationLocator ≠ d.localLinkLocator ∨
        h.common.identityGeneration ≠ p.generation ∨ policyAllows d p.nodeId h.destinationService = false then
      .error .EKEYREJECTED
    else
      let nonce := dataNonce h.common.sourceNativeLocator h.common.identityGeneration h.common.counter
        h.common.messageId
      match P.decrypt p.receiveKey nonce (frame.take WIRE_AUTH_DATA_SIZE)
          (ciphertext.take h.common.payloadLength.toNat ++ h.tag) with
      | none => .error .EKEYREJECTED
      | some plaintext =>
        .ok { header := h, metadata := { link with authenticated := true }, plaintext := plaintext,
              source := p.nodeId, sessionEpoch := p.sessionEpoch,
              duplicate := replaySeen p.receiveReplay h.common.counter.toNat }

def dataAgain (d : Device) (o : Opened) : Except Errno Outcome :=
  match dataDuplicateAckLocked d.rx o.source o.header o.sessionEpoch with
  | .error e => .error e
  | .ok (bitmap, status) => .ok (.again bitmap status)

def dataCommit (P : Platform) (d : Device) (o : Opened) (a : Ambient) : Device × Except Errno Outcome :=
  let h := o.header
  match lookupPeer d h.common.sourceNativeLocator with
  | none => (d, .error .EKEYREJECTED)
  | some (i, p) =>
    if p.sessionReady = false ∨ h.common.identityGeneration ≠ p.generation ∨ p.sessionEpoch ≠ o.sessionEpoch ∨
        o.metadata.sourceLocator ≠ p.linkLocator ∨ o.metadata.destinationLocator ≠ d.localLinkLocator ∨
        o.source ≠ p.nodeId ∨ policyAllows d p.nodeId h.destinationService = false then
      (d, .error .EKEYREJECTED)
    else if o.duplicate then
      if h.isReliable then (d, dataAgain d o) else (d, .error .EALREADY)
    else
      match markAccepted d i p h.common.counter.toNat .unicast with
      | .error e => if e = .EALREADY ∧ h.isReliable then (d, dataAgain d o) else (d, .error e)
      | .ok (d, token) => dataAdmit P d h o.source o.sessionEpoch o.metadata o.plaintext token a

/-! ## Broadcast frames -/

def broadcastPeerLocked (d : Device) (h : WireData) (expected : Option NodeId) (link : RxMeta) :
    Except Errno (Fin PEER_LIMIT × Peer) :=
  match lookupPeer d h.common.sourceNativeLocator with
  | none => .error .EKEYREJECTED
  | some (i, p) =>
    if p.sessionReady = false ∨ h.common.identityGeneration ≠ p.generation ∨
        link.sourceLocator ≠ p.linkLocator ∨ link.destinationLocator ≠ LINK_LOCATOR_BROADCAST ∨
        (expected.any fun e => e ≠ p.nodeId) ∨ (policyCheckLocked d p.nodeId).isOk = false then
      .error .EKEYREJECTED
    else .ok (i, p)

/-- A broadcast between its critical sections: its signature is checked, then its counter marked. -/
structure BroadcastOpened where
  header : WireData
  metadata : RxMeta
  payload : Octets
  source : NodeId

def broadcastOpen (P : Platform) (d : Device) (frame : Octets) (link : RxMeta) (allocSigning : Bool) :
    Except Errno BroadcastOpened :=
  match wireDecodeBroadcastData frame with
  | .error e => .error e
  | .ok (h, signature, payload) =>
    if allocSigning = false then .error .ENOMEM
    else
      match broadcastPeerLocked d h none link with
      | .error e => .error e
      | .ok (_, p) =>
        if P.verify p.nodeId (frame.take WIRE_AUTH_DATA_SIZE ++ payload) signature then
          .ok { header := h, metadata := link, payload := payload, source := p.nodeId }
        else .error .EKEYREJECTED

/-- The second critical section of `melodi_data_authenticate_broadcast`. The counter is marked before the plaintext is
allocated. -/
def broadcastMark (d : Device) (o : BroadcastOpened) (allocPlaintext : Bool) : Device × Except Errno Token :=
  match broadcastPeerLocked d o.header (some o.source) o.metadata with
  | .error e => (d, .error e)
  | .ok (i, p) =>
    match markAccepted d i p o.header.common.counter.toNat .broadcast with
    | .error e => (d, .error e)
    | .ok (d, token) => if allocPlaintext then (d, .ok token) else (d, .error .ENOMEM)

def broadcastAdmit (P : Platform) (d : Device) (o : BroadcastOpened) (token : Token) (a : Ambient) :
    Device × Except Errno Outcome :=
  match broadcastPeerLocked d o.header (some o.source) o.metadata with
  | .error e => (d, .error e)
  | .ok _ =>
    match policyCheckServiceLocked d o.header.destinationService true with
    | .error e => (d, .error e)
    | .ok () =>
      let common := { o.header.common with payloadLength := UInt16.ofNat o.payload.length }
      dataAdmit P d { o.header with common := common } o.source 0 { o.metadata with authenticated := true } o.payload
        token a

/-! ## After the lock is dropped -/

structure Binding where
  service : UInt16
  portid : UInt32
  generation : UInt64
  deriving DecidableEq, Repr

def netlinkReceive (bindings : List Binding) (m : Complete) (result : Except Errno Unit) : Except Errno Unit :=
  if MESSAGE_MTU < m.payload.length then .error .EINVAL
  else if (bindings.any fun b => b.service = m.destinationService) = false then .error .ECONNREFUSED
  else result

def handOver (bindings : List Binding) (d : Device) (m : Complete) (result : Except Errno Unit) : Device :=
  d.note (.handOver m (netlinkReceive bindings m result))

/-- What is acknowledged after the hand-over, and the receipt kept of a complete message. -/
structure AckPlan where
  header : WireData
  source : NodeId
  sessionEpoch : UInt64
  bitmap : BitVec 64
  status : AckStatus
  receipt : Bool

def receiptSection (P : Platform) (d : Device) (plan : AckPlan) (jiffies : UInt64) : Device × Except Errno Unit :=
  let r := receiptStore P d.rx jiffies plan.source plan.header.common.identityGeneration plan.sessionEpoch
    plan.header.common.messageId plan.header.fragmentCount plan.bitmap plan.status
  ({ d with rx := r.1 }, r.2)

def ackFor (d : Device) (p : Peer) (h : WireData) (counter : Nat) (bitmap : BitVec 64) (status : AckStatus) :
    WireAck where
  common :=
    { flags := WIRE_F_ENCRYPTED
      sourceNativeLocator := d.localNativeLocator
      destinationNativeLocator := p.nativeLocator
      identityGeneration := d.identityGeneration
      messageId := h.common.messageId
      counter := UInt64.ofNat counter }
  acknowledgedGeneration := h.common.identityGeneration
  fragmentCount := h.fragmentCount
  status := status.toByte
  bitmap := bitmap

def dataSendAck (d : Device) (h : WireData) (bitmap : BitVec 64) (status : AckStatus) (queued : Except Errno Unit) :
    Device × Except Errno Unit :=
  match lookupPeer d h.common.sourceNativeLocator with
  | none => (d, .error .EHOSTUNREACH)
  | some (_, p) =>
    if p.sessionReady = false ∨ h.common.identityGeneration ≠ p.generation then (d, .error .EHOSTUNREACH)
    else
      match counterNextLocked d with
      | .error e => (d, .error e)
      | .ok (counter, d') =>
        let ack := ackFor d p h counter bitmap status
        match wireEncodeAck ack with
        | .error e => (d', .error e)
        | .ok _ =>
          let nonce := dataNonce ack.common.sourceNativeLocator ack.common.identityGeneration ack.common.counter
            ack.common.messageId
          let d' := d'.note (.encrypt p.transmitKey nonce)
          match queued with
          | .error e => (d', .error e)
          | .ok () =>
            (d'.note (.ack ⟨p.nodeId, p.session, h.common.identityGeneration, h.common.messageId,
              h.fragmentCount.toNat, bitmap, status⟩), .ok ())

/-! ## Acknowledgement frames -/

/-- An acknowledgement between the two critical sections of `melodi_data_receive_ack`. -/
structure AckOpened where
  ack : WireAck
  metadata : RxMeta
  source : NodeId
  sessionEpoch : UInt64

def ackOpen (P : Platform) (d : Device) (frame : Octets) (link : RxMeta) : Except Errno AckOpened :=
  match wireDecodeAck frame with
  | .error e => .error e
  | .ok ack =>
    match lookupPeer d ack.common.sourceNativeLocator with
    | none => .error .EKEYREJECTED
    | some (_, p) =>
      if p.sessionReady = false ∨ ack.common.destinationNativeLocator ≠ d.localNativeLocator ∨
          link.sourceLocator ≠ p.linkLocator ∨ link.destinationLocator ≠ d.localLinkLocator ∨
          ack.common.identityGeneration ≠ p.generation then
        .error .EKEYREJECTED
      else
        let nonce := dataNonce ack.common.sourceNativeLocator ack.common.identityGeneration ack.common.counter
          ack.common.messageId
        match P.decrypt p.receiveKey nonce (frame.take WIRE_ACK_AUTH_SIZE) ack.tag with
        | none => .error .EKEYREJECTED
        | some _ => .ok ⟨ack, link, p.nodeId, p.sessionEpoch⟩

/-- The second critical section of `melodi_data_receive_ack`, up to the mark. What it then does to the pending messages
of the sender touches nothing modelled here. -/
def ackCommit (d : Device) (o : AckOpened) : Device × Except Errno Unit :=
  match lookupPeer d o.ack.common.sourceNativeLocator with
  | none => (d, .error .EKEYREJECTED)
  | some (i, p) =>
    if p.sessionReady = false ∨ o.source ≠ p.nodeId ∨ o.metadata.sourceLocator ≠ p.linkLocator ∨
        o.metadata.destinationLocator ≠ d.localLinkLocator ∨ o.ack.common.identityGeneration ≠ p.generation ∨
        o.sessionEpoch ≠ p.sessionEpoch then
      (d, .error .EKEYREJECTED)
    else
      match markAccepted d i p o.ack.common.counter.toNat .ack with
      | .error e => (d, .error e)
      | .ok (d, _) => (d, .ok ())

end Melodi
