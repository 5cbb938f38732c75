import Melodi.Core.Device

/-!
# Reassembly and receipts (`data.c`)
-/

namespace Melodi
open Lib

/-! ## Reassembly -/

/-- Clear every entry that passes the test, as `melodi_reassembly_clear` does it for one entry. The subtraction stops
at zero, which is the branch the source takes when the byte count is too small. -/
def reassemblyClearWhere (rx : RxState) (p : Reassembly → Bool) : RxState :=
  { rx with
    reassemblyBytes := rx.reassemblyBytes - rx.reassemblies.sum (fun e => if p e then e.receivedLength else 0)
    reassemblies := rx.reassemblies.drop p }

def reassemblyClear (rx : RxState) (i : Fin REASSEMBLY_LIMIT) : RxState :=
  match rx.reassemblies i with
  | none => rx
  | some e =>
    { rx with reassemblyBytes := rx.reassemblyBytes - e.receivedLength, reassemblies := rx.reassemblies.clear i }

def reassemblyExpire (rx : RxState) (jiffies : UInt64) : RxState :=
  { reassemblyClearWhere rx (fun e => timeAfterEq jiffies e.expires) with
    receipts := rx.receipts.drop (fun r => timeAfterEq jiffies r.expires) }

def dataReassemblyResetLocked (rx : RxState) : RxState :=
  { rx with reassemblyBytes := 0, reassemblies := Table.empty, receipts := Table.empty }

def Reassembly.isFor (source : NodeId) (generation : UInt32) (sessionEpoch messageId : UInt64) (e : Reassembly) :
    Bool :=
  e.generation = generation && e.sessionEpoch = sessionEpoch && e.messageId = messageId && e.source = source

def reassemblyFind (rx : RxState) (source : NodeId) (generation : UInt32) (sessionEpoch messageId : UInt64) :
    Option (Fin REASSEMBLY_LIMIT) :=
  (rx.reassemblies.find? (Reassembly.isFor source generation sessionEpoch messageId)).or rx.reassemblies.free?

def reassemblyConsistent (e : Reassembly) (h : WireData) : Bool :=
  e.logicalLength = h.logicalLength.toNat && e.sourceService = h.sourceService &&
    e.destinationService = h.destinationService && e.fragmentCount = h.fragmentCount &&
    e.flags = h.common.flags &&& ~~~WIRE_F_FINAL && e.deliveryMode = h.deliveryMode && e.priority = h.priority &&
    e.orderingMarker = h.orderingMarker

def reassemblyOpen (P : Platform) (jiffies : UInt64) (source : NodeId) (h : WireData) (sessionEpoch : UInt64)
    (metadata : RxMeta) : Reassembly where
  source := source
  metadata := metadata
  messageId := h.common.messageId
  sessionEpoch := sessionEpoch
  expires := jiffies + P.msecsToJiffies REASSEMBLY_TIMEOUT_MS
  generation := h.common.identityGeneration
  logicalLength := h.logicalLength.toNat
  orderingMarker := h.orderingMarker
  sourceService := h.sourceService
  destinationService := h.destinationService
  fragmentCount := h.fragmentCount
  flags := h.common.flags &&& ~~~WIRE_F_FINAL
  deliveryMode := h.deliveryMode
  priority := h.priority

def fragmentSlot (h : WireData) : Fin FRAGMENT_LIMIT :=
  ⟨h.fragmentIndex.toNat % FRAGMENT_LIMIT, Nat.mod_lt _ (by decide)⟩

def reassemblyStore (e : Reassembly) (h : WireData) (fragment : Octets) (token : Token) : Reassembly :=
  { e with
    fragments := e.fragments.set (fragmentSlot h) fragment
    received := e.received ||| (1#64 <<< h.fragmentIndex.toNat)
    receivedLength := e.receivedLength + h.common.payloadLength.toNat
    tokens := e.tokens ++ [token] }

def Reassembly.payload (e : Reassembly) : Octets :=
  ((List.finRange FRAGMENT_LIMIT).take e.fragmentCount.toNat).flatMap fun i => (e.fragments i).getD []

def Reassembly.complete (e : Reassembly) (session : Nat) : Complete where
  source := e.source
  sourceService := e.sourceService
  destinationService := e.destinationService
  payload := e.payload
  metadata := e.metadata
  origin := ⟨session, e.generation, e.messageId, e.orderingMarker.toNat, e.tokens⟩

def reassemblyPut (rx : RxState) (i : Fin REASSEMBLY_LIMIT) (e : Reassembly) (h : WireData) (fragment : Octets)
    (allocComplete : Bool) (token : Token) : RxState × Except Errno (Option Complete × BitVec 64) :=
  let rx := { rx with reassemblies := rx.reassemblies.set i e }
  if e.received.getLsbD h.fragmentIndex.toNat then (rx, .error .EALREADY)
  else if REASSEMBLY_BYTE_LIMIT - rx.reassemblyBytes < h.common.payloadLength.toNat then (rx, .error .ENOSPC)
  else
    let e := reassemblyStore e h fragment token
    let rx := { rx with
      reassemblies := rx.reassemblies.set i e
      reassemblyBytes := rx.reassemblyBytes + h.common.payloadLength.toNat }
    if e.received ≠ fragmentMask e.fragmentCount.toNat then (rx, .ok (none, e.received))
    else if e.receivedLength ≠ e.logicalLength then (reassemblyClear rx i, .error .EPROTO)
    else if allocComplete = false then (reassemblyClear rx i, .error .ENOMEM)
    else (reassemblyClear rx i, .ok (some (e.complete token.session), e.received))

def reassemblyAdd (P : Platform) (rx : RxState) (jiffies : UInt64) (source : NodeId) (h : WireData)
    (sessionEpoch : UInt64) (metadata : RxMeta) (fragment : Octets) (allocComplete : Bool) (token : Token) :
    RxState × Except Errno (Option Complete × BitVec 64) :=
  let rx := reassemblyExpire rx jiffies
  match reassemblyFind rx source h.common.identityGeneration sessionEpoch h.common.messageId with
  | none => (rx, .error .ENOSPC)
  | some i =>
    match rx.reassemblies i with
    | none =>
      reassemblyPut rx i (reassemblyOpen P jiffies source h sessionEpoch metadata) h fragment allocComplete token
    | some e =>
      if reassemblyConsistent e h = false then (reassemblyClear rx i, .error .EPROTO)
      else reassemblyPut rx i e h fragment allocComplete token

/-! ## Receipts -/

def receiptFind (rx : RxState) (source : NodeId) (generation : UInt32) (sessionEpoch messageId : UInt64) :
    Option (Fin RECEIPT_LIMIT) :=
  rx.receipts.find? fun r =>
    r.generation = generation && r.sessionEpoch = sessionEpoch && r.messageId = messageId && r.source = source

def receiptOldest (rx : RxState) (best : Option (Fin RECEIPT_LIMIT)) : List (Fin RECEIPT_LIMIT) →
    Option (Fin RECEIPT_LIMIT)
  | [] => best
  | i :: is =>
    match rx.receipts i, best.bind rx.receipts with
    | some r, some b => receiptOldest rx (if timeBefore r.expires b.expires then some i else best) is
    | some _, none => receiptOldest rx (some i) is
    | none, _ => receiptOldest rx best is

def receiptStore (P : Platform) (rx : RxState) (jiffies : UInt64) (source : NodeId) (generation : UInt32)
    (sessionEpoch messageId : UInt64) (fragmentCount : UInt16) (bitmap : BitVec 64) (status : AckStatus) :
    RxState × Except Errno Unit :=
  let slot := ((receiptFind rx source generation sessionEpoch messageId).or rx.receipts.free?).or
    (receiptOldest rx none (List.finRange RECEIPT_LIMIT))
  match slot with
  | none => (rx, .error .ENOSPC)
  | some i =>
    let receipt : Receipt :=
      { source := source, messageId := messageId, bitmap := bitmap, sessionEpoch := sessionEpoch,
        expires := jiffies + P.msecsToJiffies RECEIPT_TIMEOUT_MS, generation := generation,
        fragmentCount := fragmentCount, status := status }
    ({ rx with receipts := rx.receipts.set i receipt }, .ok ())

def dataDuplicateAckLocked (rx : RxState) (source : NodeId) (h : WireData) (sessionEpoch : UInt64) :
    Except Errno (BitVec 64 × AckStatus) :=
  let entry := (reassemblyFind rx source h.common.identityGeneration sessionEpoch h.common.messageId).bind
    rx.reassemblies
  match entry.filter (fun e => e.received.getLsbD h.fragmentIndex.toNat) with
  | some e => .ok (e.received, .PARTIAL)
  | none =>
    match (receiptFind rx source h.common.identityGeneration sessionEpoch h.common.messageId).bind rx.receipts with
    | none => .error .EALREADY
    | some r => if r.fragmentCount ≠ h.fragmentCount then .error .EALREADY else .ok (r.bitmap, r.status)

end Melodi
