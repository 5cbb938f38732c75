import Melodi.Lib.Table
import Melodi.Proto.Replay
import Melodi.Proto.Ordering
import Melodi.Proto.Wire

/-!
# The device (`internal.h`)

The part of `struct melodi_device` that the data path and the discovery read and write. An array of records with an
`active` (or `authenticated`) flag is a `Table`: the source clears a record to zero whenever it drops the flag.

History variables are added, which no function of the source reads: a number for every session and every stay of a
peer, the tokens of accepted frames that a stored fragment or message carries, and the log of what the device did.
-/

namespace Melodi
open Lib

def PEER_LIMIT : Nat := 64
def FRAGMENT_LIMIT : Nat := 64
def REASSEMBLY_LIMIT : Nat := 16
def REASSEMBLY_BYTE_LIMIT : Nat := MESSAGE_MTU * 8
def REASSEMBLY_TIMEOUT_MS : Nat := 5000
def POLICY_PEER_LIMIT : Nat := 64
def POLICY_SERVICE_LIMIT : Nat := 64
def PEER_EXPIRY_MAX_SECONDS : Nat := 300
def CONTROL_EXPIRY_SECONDS : Nat := 30
def RECEIPT_LIMIT : Nat := 64
def RECEIPT_TIMEOUT_MS : Nat := 10000
def ORDER_FLOW_LIMIT : Nat := 32
def ORDER_BUFFER_LIMIT : Nat := 64
def ORDER_BYTE_LIMIT : Nat := MESSAGE_MTU * 8

/-! ## Time -/

def timeAfterEq (a b : UInt64) : Bool := (a - b).toNat < 2 ^ 63

def timeBefore (a b : UInt64) : Bool := !timeAfterEq a b

/-! ## What lies outside the program -/

/-- The arguments of `melodi_session_key` other than the shared secret and the direction. -/
structure SessionContext where
  domain : Octets
  initiator : NodeId
  responder : NodeId
  initiatorNativeLocator : UInt32
  responderNativeLocator : UInt32
  initiatorRound : UInt32
  responderRound : UInt32
  initiatorGeneration : UInt32
  responderGeneration : UInt32
  initiatorEphemeral : Octets
  responderEphemeral : Octets
  initiatorNonce : Octets
  responderNonce : Octets
  deriving DecidableEq, Repr

structure Platform where
  /-- `xchacha20poly1305_encrypt` with key, nonce and associated data: the ciphertext, then the 16 octets of the tag. -/
  encrypt : Octets → Octets → Octets → Octets → Octets
  decrypt : Octets → Octets → Octets → Octets → Option Octets
  encrypt_length : ∀ key nonce aad plain, (encrypt key nonce aad plain).length = plain.length + WIRE_TAG_SIZE
  decrypt_length : ∀ {key nonce aad sealed plain}, decrypt key nonce aad sealed = some plain →
    plain.length + WIRE_TAG_SIZE = sealed.length
  verify : NodeId → Octets → Octets → Bool
  curve25519 : Octets → Octets → Option Octets
  generatePublic : Octets → Option Octets
  sessionKey : Octets → SessionContext → UInt8 → Octets
  locatorHash : Octets → NodeId → UInt32 → UInt32
  publicKeyCheck : Octets → Bool
  msecsToJiffies : Nat → UInt64

/-- A platform to run the model on: it encrypts nothing and accepts every signature, a public key is its secret, and the
shared secret is their sum. -/
def Platform.plain : Platform where
  encrypt := fun _ _ _ plain => plain ++ List.replicate WIRE_TAG_SIZE 0
  decrypt := fun _ _ _ octets =>
    if WIRE_TAG_SIZE ≤ octets.length then some (octets.take (octets.length - WIRE_TAG_SIZE)) else none
  encrypt_length := by simp
  decrypt_length := by
    intro key nonce aad octets plain h
    split_ifs at h with hlen
    rw [← Option.some.inj h, List.length_take]
    omega
  verify := fun _ _ _ => true
  curve25519 := fun secret key => some (List.zipWith (· + ·) secret key)
  generatePublic := fun secret => some secret
  sessionKey := fun shared _ direction => direction :: shared
  locatorHash := fun _ node round => UInt32.ofNat (node.getD 1 0).toNat + round
  publicKeyCheck := fun _ => true
  msecsToJiffies := UInt64.ofNat

/-! ## Metadata -/

structure RxMeta where
  timestampNs : UInt64 := 0
  sourceLocator : UInt32
  destinationLocator : UInt32
  duplicates : UInt16 := 0
  rssi : Int := 0
  snr : Int := 0
  hops : UInt8 := 0
  retransmissions : UInt8 := 0
  authenticated : Bool := false
  deriving DecidableEq, Repr

structure TxMeta where
  destinationLocator : UInt32 := 0
  sourceLocator : UInt32 := 0
  cookie : UInt64 := 0
  deriving DecidableEq, Repr

/-! ## History -/

inductive FrameKind where
  | unicast
  | broadcast
  | ack
  deriving DecidableEq, Repr

/-- The acceptance of one frame: the counter marked, and the session and the stay of the peer it was marked in. -/
structure Token where
  session : Nat
  residence : Nat
  source : NodeId
  generation : UInt32
  counter : Nat
  kind : FrameKind
  deriving DecidableEq, Repr

/-- Where a message comes from: the identity that tells it from every other one, and the frames it was built from. -/
structure Origin where
  session : Nat
  generation : UInt32
  messageId : UInt64
  marker : Nat
  tokens : List Token
  deriving DecidableEq, Repr

/-- A message with all its fragments, as it is passed to `melodi_netlink_receive`. -/
structure Complete where
  source : NodeId
  sourceService : UInt16
  destinationService : UInt16
  payload : Octets
  metadata : RxMeta
  origin : Origin
  deriving DecidableEq, Repr

/-- An acknowledgement sent: to whom, in which of its sessions, and for which message. -/
structure AckRecord where
  peer : NodeId
  session : Nat
  generation : UInt32
  messageId : UInt64
  fragmentCount : Nat
  bitmap : BitVec 64
  status : AckStatus
  deriving DecidableEq, Repr

inductive Event where
  | accept (t : Token)
  | handOver (m : Complete) (result : Except Errno Unit)
  | ack (r : AckRecord)
  | encrypt (key nonce : Octets)
  | install (peer : NodeId) (transmitKey receiveKey : Octets)

/-! ## Records of the device -/

/-- `struct melodi_peer`. The radio observations and the capabilities, which only the peer dump reads, are left out. -/
structure Peer where
  nodeId : NodeId
  nativeLocator : UInt32
  linkLocator : UInt32
  collisionRound : UInt32
  generation : UInt32
  controlCounter : UInt64
  expires : UInt64 := 0
  receiveReplay : ReplayWindow := replayReset
  sessionEpoch : UInt64 := 0
  transmitKey : Octets := zero32
  receiveKey : Octets := zero32
  ephemeralPrivate : Octets := zero32
  ephemeralPublic : Octets := zero32
  remoteHelloChallenge : Octets := zero32
  localChallenge : Octets := zero32
  conflicted : Bool := false
  handshakePending : Bool := false
  sessionReady : Bool := false
  session : Nat
  residence : Nat
  deriving DecidableEq, Repr

/-- `struct melodi_reassembly`. A stored fragment is its octets, so its length needs no field of its own. -/
structure Reassembly where
  source : NodeId
  metadata : RxMeta
  messageId : UInt64
  sessionEpoch : UInt64
  expires : UInt64
  received : BitVec 64 := 0
  generation : UInt32
  logicalLength : Nat
  receivedLength : Nat := 0
  orderingMarker : UInt32
  sourceService : UInt16
  destinationService : UInt16
  fragmentCount : UInt16
  flags : UInt16
  deliveryMode : UInt8
  priority : UInt8
  fragments : Table FRAGMENT_LIMIT Octets := Table.empty
  tokens : List Token := []

structure Receipt where
  source : NodeId
  messageId : UInt64
  bitmap : BitVec 64
  sessionEpoch : UInt64
  expires : UInt64
  generation : UInt32
  fragmentCount : UInt16
  status : AckStatus
  deriving DecidableEq, Repr

structure OrderTxFlow where
  destination : NodeId
  sessionEpoch : UInt64
  generation : UInt32
  nextMarker : Nat
  sourceService : UInt16
  destinationService : UInt16
  deriving DecidableEq, Repr

structure OrderRxFlow where
  state : OrderState
  source : NodeId
  sessionEpoch : UInt64
  generation : UInt32
  sourceService : UInt16
  destinationService : UInt16
  session : Nat
  deriving DecidableEq, Repr

structure OrderMessage where
  message : Complete
  marker : Nat
  flowIndex : Fin ORDER_FLOW_LIMIT
  deriving DecidableEq, Repr

inductive PolicyPeerState where
  | TRUSTED
  | BLOCKED
  deriving DecidableEq, Repr

structure PolicyPeer where
  nodeId : NodeId
  state : PolicyPeerState
  deriving DecidableEq, Repr

inductive PolicyAction where
  | ALLOW
  | DENY
  | CLEAR
  deriving DecidableEq, Repr

structure PolicyService where
  service : UInt16
  action : PolicyAction
  deriving DecidableEq, Repr

inductive PolicyMode where
  | ALLOW_AUTHENTICATED
  | REQUIRE_TRUST
  deriving DecidableEq, Repr

/-- The receive side of `struct melodi_device`: reassembly, receipts and ordered flows. -/
structure RxState where
  reassemblyBytes : Nat := 0
  reassemblies : Table REASSEMBLY_LIMIT Reassembly := Table.empty
  receipts : Table RECEIPT_LIMIT Receipt := Table.empty
  orderRx : Table ORDER_FLOW_LIMIT OrderRxFlow := Table.empty
  orderMessages : Table ORDER_BUFFER_LIMIT OrderMessage := Table.empty
  orderBytes : Nat := 0

/-- The part of `struct melodi_device` that peers, sessions, receiving and policy use. -/
structure Device where
  nodeId : NodeId := []
  identityReady : Bool := false
  transportReady : Bool := false
  meshDomain : Octets := zero32
  localNativeLocator : UInt32 := 0
  localLinkLocator : UInt32 := 0
  localCollisionRound : UInt32 := 0
  identityGeneration : UInt32 := 0
  transmitCounter : Nat := 0
  lastHelloChallenge : Octets := zero32
  previousHelloChallenge : Octets := zero32
  peers : Table PEER_LIMIT Peer := Table.empty
  conflictPending : Bool := false
  rx : RxState := {}
  orderTx : Table ORDER_FLOW_LIMIT OrderTxFlow := Table.empty
  policyMode : PolicyMode := .ALLOW_AUTHENTICATED
  broadcastAllowed : Bool := true
  policyPeers : Table POLICY_PEER_LIMIT PolicyPeer := Table.empty
  policyServices : Table POLICY_SERVICE_LIMIT PolicyService := Table.empty
  serial : Nat := 0
  log : List Event := []

/-! ## Lookups (`data.c`, `discovery.c`) -/

def peerByNode (d : Device) (node : NodeId) : Option (Fin PEER_LIMIT) := d.peers.find? fun p => p.nodeId = node

def peerByNativeLocator (d : Device) (nativeLocator : UInt32) : Option (Fin PEER_LIMIT) :=
  d.peers.find? fun p => !p.conflicted && p.nativeLocator = nativeLocator

def peerSlot (d : Device) (node : NodeId) : Option (Fin PEER_LIMIT) := (peerByNode d node).or d.peers.free?

def counterNextLocked (d : Device) : Except Errno (Nat × Device) :=
  if d.transmitCounter = U64_MAX then .error .EOVERFLOW
  else .ok (d.transmitCounter + 1, { d with transmitCounter := d.transmitCounter + 1 })

def Device.note (d : Device) (e : Event) : Device := { d with log := e :: d.log }

/-! ## Policy (`policy.c`) -/

def policyPeerLocked (d : Device) (node : NodeId) : Option PolicyPeer :=
  (d.policyPeers.find? fun e => e.nodeId = node).bind d.policyPeers

def policyCheckLocked (d : Device) (node : NodeId) : Except Errno Unit :=
  let entry := policyPeerLocked d node
  if entry.any (fun e => e.state = .BLOCKED) then .error .EACCES
  else if d.policyMode = .REQUIRE_TRUST ∧ !entry.any (fun e => e.state = .TRUSTED) then .error .EACCES
  else .ok ()

def policyCheckServiceLocked (d : Device) (service : UInt16) (broadcast : Bool) : Except Errno Unit :=
  if broadcast ∧ d.broadcastAllowed = false then .error .EACCES
  else
    match (d.policyServices.find? fun e => e.service = service).bind d.policyServices with
    | some e => if e.action = .DENY then .error .EACCES else .ok ()
    | none => .ok ()

def policyCheckMessageLocked (d : Device) (destination : NodeId) (destinationService : UInt16) (broadcast : Bool) :
    Except Errno Unit :=
  match if broadcast then .ok () else policyCheckLocked d destination with
  | .error e => .error e
  | .ok () => policyCheckServiceLocked d destinationService broadcast

end Melodi
