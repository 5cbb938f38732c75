import Melodi.Core.Receive
import Melodi.Proto.Genl

/-!
# Replies and events (`netlink.c`)

What the kernel module writes to its clients. A message is a header, a sequence of calls that put attributes into a
socket buffer, one nested sequence at most, and the length filled in at the end; any call may find no room, and then
nothing of the message is left.
-/

namespace Melodi
open Lib

/-! ## Socket buffers -/

/-- What depends on the machine: the order of octets, and whether a 64-bit attribute is preceded by an empty one when
the buffer holds so many octets (`nla_need_padding_for_64bit`). -/
structure NlaHost where
  order : ByteOrder
  pads : Nat → Bool

structure Skb where
  octets : Octets := []
  size : Nat

def Skb.put (skb : Skb) (bytes : Octets) : Except Errno Skb :=
  if skb.size < skb.octets.length + bytes.length then .error .EMSGSIZE
  else .ok { skb with octets := skb.octets ++ bytes }

inductive NlaCall where
  | put (type : UInt16) (value : Octets)
  | putU64 (type : UInt16) (value : UInt64) (padding : UInt16)

def NlaCall.items (h : NlaHost) (length : Nat) : NlaCall → List (UInt16 × Octets)
  | put type value => [(type, value)]
  | putU64 type value padding => (if h.pads length then [(padding, [])] else []) ++ [(type, h.order.put64 value)]

def nlaCall (h : NlaHost) (skb : Skb) (c : NlaCall) : Except Errno Skb :=
  skb.put (attributeStream h.order (c.items h skb.octets.length))

/-- A call on the level of the message; `nest` is everything from `nla_nest_start` to `nla_nest_end`. -/
inductive GenlCall where
  | put (a : Attribute) (value : Octets)
  | putU64 (a : Attribute) (value : UInt64) (padding : UInt16)
  | nest (a : Attribute) (inside : List NlaCall)

def genlCall (h : NlaHost) (skb : Skb) : GenlCall → Except Errno Skb
  | .put a value => nlaCall h skb (.put a.type value)
  | .putU64 a value padding => nlaCall h skb (.putU64 a.type value padding)
  | .nest a inside => do
      let start := skb.octets.length
      let skb ← nlaCall h skb (.put (a.type ||| NLA_F_NESTED) [])
      let skb ← inside.foldlM (nlaCall h) skb
      return { skb with octets := splice skb.octets start (h.order.put16 (UInt16.ofNat (skb.octets.length - start))) }

structure GenlInfo where
  family : UInt16
  flags : UInt16 := 0
  sequence : UInt32 := 0
  portid : UInt32 := 0

/-- A message that was completed. `start`, the octets before it in its buffer, and `calls` are history. -/
structure Written where
  info : GenlInfo
  command : Command
  octets : Octets
  start : Nat
  calls : List GenlCall

def genlMessage (h : NlaHost) (skb : Skb) (info : GenlInfo) (command : Command) (calls : List GenlCall) :
    Except Errno (Skb × Written) := do
  let start := skb.octets.length
  let skb ← skb.put
    (genlHeader h.order (UInt32.ofNat GENL_HEADER) info.family info.flags info.sequence info.portid command.code)
  let skb ← calls.foldlM (genlCall h) skb
  let octets := splice skb.octets start (h.order.put32 (UInt32.ofNat (skb.octets.length - start)))
  return ({ skb with octets := octets }, ⟨info, command, octets.drop start, start, calls⟩)

def genlNew (h : NlaHost) (alloc : Option Nat) (info : GenlInfo) (command : Command) (calls : List GenlCall) :
    Except Errno Written := do
  match alloc with
  | none => .error .ENOMEM
  | some size => (genlMessage h { size := size } info command calls).map Prod.snd

/-! ## What the messages are made from -/

inductive LinkState where
  | DISCONNECTED | CONFIGURING | READY | FAILED
  deriving DecidableEq, Repr

inductive LinkFailure where
  | NONE | TRANSPORT | STREAM | PROTOBUF | FIRMWARE | REGION | MODEM | HOP_LIMIT | RADIO_TX | MQTT | CHANNEL |
      CONFIG_NONCE
  | NODE_NUMBER | PRIVATE_PORT | PAYLOAD_BUDGET | QUEUE_STATUS | ROUTING_RESULTS | TIMEOUT | INTERNAL
  deriving DecidableEq, Repr

inductive PeerState where
  | AUTHENTICATED | TRUSTED | BLOCKED | CONFLICTED | OBSERVED | CHALLENGED
  deriving DecidableEq, Repr

inductive PeerPolicy where
  | DEFAULT | TRUSTED | BLOCKED
  deriving DecidableEq, Repr

def policyPeerStateLocked (d : Device) (p : Peer) : PeerState :=
  let entry := policyPeerLocked d p.nodeId
  if entry.any (fun e => e.state = .BLOCKED) then .BLOCKED
  else if p.conflicted then .CONFLICTED
  else if p.sessionReady = false then (if p.handshakePending then .CHALLENGED else .OBSERVED)
  else if entry.any (fun e => e.state = .TRUSTED) then .TRUSTED else .AUTHENTICATED

def policyPeerPolicyLocked (d : Device) (p : Peer) : PeerPolicy :=
  match policyPeerLocked d p.nodeId with
  | none => .DEFAULT
  | some e => if e.state = .BLOCKED then .BLOCKED else .TRUSTED

structure PeerObservation where
  capabilities : UInt32 := 0
  rssi : Int := 0
  snr : Int := 0
  hops : UInt8 := 0
  lastSeenNs : UInt64 := 0

structure LinkInfo where
  busInfo : Octets
  framePaceUs : UInt32

structure NetlinkView where
  device : Device
  ifindex : UInt32
  linkState : LinkState := .DISCONNECTED
  linkFailure : LinkFailure := .NONE
  linkError : Int := 0
  radioSerial : Octets := []
  link : Option LinkInfo := none
  observed : Fin PEER_LIMIT → PeerObservation := fun _ => {}
  stats : Nat → UInt64 := fun _ => 0
  bindings : List Binding := []
  monitors : List UInt32 := []
  jiffies : UInt64 := 0
  jiffiesToMsecs : UInt64 → Nat := fun _ => 0

def strscpy (size : Nat) (s : Octets) : Octets := (s.takeWhile (· != 0)).take (size - 1)

def putText (a : Attribute) (text : Octets) : List GenlCall := if text = [] then [] else [.put a (text ++ [0])]

def putS16 (o : ByteOrder) (v : Int) : Octets := o.put16 (UInt16.ofInt v)

def putS32 (o : ByteOrder) (v : Int) : Octets := o.put32 (UInt32.ofInt v)

/-! ## The producers -/

def rxMetaCalls (o : ByteOrder) (m : RxMeta) (now : UInt64) : List NlaCall :=
  [.put 1 [if m.authenticated then 1 else 0], .put 2 (o.put16 m.duplicates), .put 3 [m.hops], .put 4 (putS16 o m.rssi),
    .put 5 (putS16 o m.snr), .putU64 6 (if m.timestampNs ≠ 0 then m.timestampNs else now) 0, .put 7 [m.retransmissions]]

def netlinkReceiveMessage (h : NlaHost) (v : NetlinkView) (family : UInt16) (m : Complete) (now : UInt64)
    (alloc : Option Nat) : Except Errno Written :=
  if MESSAGE_MTU < m.payload.length then .error .EINVAL
  else if (v.bindings.any fun b => b.service = m.destinationService) = false then .error .ECONNREFUSED
  else genlNew h alloc { family := family } .RECV
    [.put .SOURCE_NODE m.source, .put .SOURCE_SERVICE (h.order.put16 m.sourceService),
      .put .LOCAL_SERVICE (h.order.put16 m.destinationService), .put .PAYLOAD m.payload,
      .nest .RX_META (rxMetaCalls h.order m.metadata now)]

def bindingError (h : NlaHost) (v : NetlinkView) (family : UInt16) (b : Binding) (code : Int) (cookie : Option UInt64)
    (alloc : Option Nat) : Except Errno Written :=
  genlNew h alloc { family := family } .ERROR <|
    [.put .IFINDEX (h.order.put32 v.ifindex), .put .LOCAL_SERVICE (h.order.put16 b.service)] ++
    (match cookie with
      | some cookie => [.put .COOKIE (h.order.put64 cookie)]
      | none => []) ++
    [.nest .ERROR [.put 1 (putS32 h.order code)]]

def monitorMetaCalls (o : ByteOrder) (direction : UInt8) (metadata : Option RxMeta) (now : UInt64) : List GenlCall :=
  match metadata with
  | some m => if direction = MONITOR_RX then [.nest .RX_META (rxMetaCalls o m now)] else []
  | none => []

def netlinkMonitorFrame (h : NlaHost) (v : NetlinkView) (family : UInt16) (direction : UInt8) (frame : Octets)
    (metadata : Option RxMeta) (now : UInt64) (alloc : UInt32 → Option Nat) : List Written :=
  if frame.length < FRAME_HEADER_MIN ∨ FRAME_MTU_MAX < frame.length ∨ MONITOR_TX < direction ∨
      (direction = MONITOR_RX ∧ metadata = none) then []
  else v.monitors.filterMap fun portid =>
    (genlNew h (alloc portid) { family := family } .MONITOR_FRAME <|
      [.put .IFINDEX (h.order.put32 v.ifindex), .put .MONITOR_DIRECTION [direction], .put .FRAME frame] ++
      monitorMetaCalls h.order direction metadata now).toOption

def peerCalls (o : ByteOrder) (v : NetlinkView) (p : Peer) (seen : PeerObservation) : List GenlCall :=
  let remaining := if timeBefore v.jiffies p.expires then p.expires - v.jiffies else 0
  let expiryMs := UInt32.ofNat (min (v.jiffiesToMsecs remaining) U32_MAX)
  [.put .IFINDEX (o.put32 v.ifindex), .put .NODE_ID p.nodeId, .put .PEER_NATIVE_LOCATOR (o.put32 p.nativeLocator),
    .put .COLLISION_ROUND (o.put32 p.collisionRound), .put .GENERATION (o.put32 p.generation),
    .put .PEER_STATE [UInt8.ofNat (policyPeerStateLocked v.device p).ctorIdx], .put .PEER_EXPIRY_MS (o.put32 expiryMs),
    .put .PEER_CAPABILITIES (o.put32 seen.capabilities), .put .PEER_RSSI (putS16 o seen.rssi),
    .put .PEER_SNR (putS16 o seen.snr), .put .PEER_HOPS [seen.hops], .putU64 .PEER_LAST_SEEN_NS seen.lastSeenNs 0,
    .put .PEER_POLICY [UInt8.ofNat (policyPeerPolicyLocked v.device p).ctorIdx]]

/-- The loop of `melodi_peer_dump` over the slots that are left: a message that does not fit is cancelled and ends
it. -/
def peerDumpLoop (h : NlaHost) (v : NetlinkView) (info : GenlInfo) : List (Fin PEER_LIMIT) → Skb → List Written
  | [], _ => []
  | i :: slots, skb =>
    match v.device.peers i with
    | none => peerDumpLoop h v info slots skb
    | some p =>
      match genlMessage h skb info .PEER_DUMP (peerCalls h.order v p (v.observed i)) with
      | .error _ => []
      | .ok (skb', w) => w :: peerDumpLoop h v info slots skb'

def peerDump (h : NlaHost) (v : NetlinkView) (info : GenlInfo) (first : Nat) (skb : Skb) : List Written :=
  peerDumpLoop h v info ((List.finRange PEER_LIMIT).drop first) skb

def linkGet (h : NlaHost) (v : NetlinkView) (info : GenlInfo) (alloc : Option Nat) : Except Errno Written :=
  let radioSerial := strscpy (RADIO_SERIAL_MAX + 1) v.radioSerial
  let busInfo := match v.link with
    | some link => strscpy (BUS_INFO_MAX + 1) link.busInfo
    | none => []
  let framePaceUs := match v.link with
    | some link => link.framePaceUs
    | none => 0
  genlNew h alloc info .LINK_GET <|
    [.put .LINK_STATE [UInt8.ofNat v.linkState.ctorIdx],
    .put .LINK_FAILURE (h.order.put16 (UInt16.ofNat v.linkFailure.ctorIdx)),
      .put .LINK_ERROR (putS32 h.order v.linkError)] ++
    putText .RADIO_SERIAL radioSerial ++ putText .BUS_INFO busInfo ++
    (if framePaceUs = 0 then [] else [.put .FRAME_PACE_US (h.order.put32 framePaceUs)])

def policyGet (h : NlaHost) (v : NetlinkView) (info : GenlInfo) (alloc : Option Nat) : Except Errno Written :=
  genlNew h alloc info .POLICY_GET [.put .POLICY_MODE [UInt8.ofNat v.device.policyMode.ctorIdx]]

def statCalls (stats : Nat → UInt64) : List NlaCall :=
  (List.range STAT_A_MAX).map fun k => .putU64 (UInt16.ofNat (k + 1)) (stats (k + 1)) 0

def statsGet (h : NlaHost) (v : NetlinkView) (info : GenlInfo) (alloc : Option Nat) : Except Errno Written :=
  genlNew h alloc info .STATS_GET [.nest .STATS (statCalls v.stats)]

def identityGet (h : NlaHost) (v : NetlinkView) (info : GenlInfo) (alloc : Option Nat) : Except Errno Written :=
  if v.device.identityReady = false then .error .ENOKEY
  else genlNew h alloc info .IDENTITY_GET_PUBLIC
    [.put .NODE_ID v.device.nodeId, .put .GENERATION (h.order.put32 v.device.identityGeneration)]

def getBinding (h : NlaHost) (v : NetlinkView) (info : GenlInfo) (alloc : Option Nat) : Except Errno Written :=
  match v.bindings.find? fun b => b.portid = info.portid with
  | none => (genlNew h alloc info .GET_BINDING []).bind fun _ => .error .ENOENT
  | some b => genlNew h alloc info .GET_BINDING
      [.put .IFINDEX (h.order.put32 v.ifindex), .put .LOCAL_SERVICE (h.order.put16 b.service)]

/-! ## All of them -/

inductive KernelCall where
  | receive (family : UInt16) (m : Complete) (now : UInt64) (alloc : Option Nat)
  | error (family : UInt16) (b : Binding) (code : Int) (cookie : Option UInt64) (alloc : Option Nat)
  | monitor (family : UInt16) (direction : UInt8) (frame : Octets) (metadata : Option RxMeta) (now : UInt64)
      (alloc : UInt32 → Option Nat)
  | peerDump (info : GenlInfo) (first : Nat) (skb : Skb)
  | linkGet (info : GenlInfo) (alloc : Option Nat)
  | policyGet (info : GenlInfo) (alloc : Option Nat)
  | statsGet (info : GenlInfo) (alloc : Option Nat)
  | identityGet (info : GenlInfo) (alloc : Option Nat)
  | getBinding (info : GenlInfo) (alloc : Option Nat)

def kernelMessages (h : NlaHost) (v : NetlinkView) : KernelCall → List Written
  | .receive family m now alloc => (netlinkReceiveMessage h v family m now alloc).toOption.toList
  | .error family b code cookie alloc => (bindingError h v family b code cookie alloc).toOption.toList
  | .monitor family direction frame metadata now alloc =>
    netlinkMonitorFrame h v family direction frame metadata now alloc
  | .peerDump info first skb => peerDump h v info first skb
  | .linkGet info alloc => (linkGet h v info alloc).toOption.toList
  | .policyGet info alloc => (policyGet h v info alloc).toOption.toList
  | .statsGet info alloc => (statsGet h v info alloc).toOption.toList
  | .identityGet info alloc => (identityGet h v info alloc).toOption.toList
  | .getBinding info alloc => (getBinding h v info alloc).toOption.toList

end Melodi
