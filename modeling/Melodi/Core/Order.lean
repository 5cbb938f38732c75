import Melodi.Core.Reassembly

/-!
# Ordered flows (`data.c`)

An ordered message goes into the buffer of its flow; what the window releases is detached from the buffer into a
batch, which is handed over after the lock is dropped.
-/

namespace Melodi
open Lib

/-! ## The buffer -/

def orderFlowClear (rx : RxState) (i : Fin ORDER_FLOW_LIMIT) : RxState :=
  { rx with
    orderBytes :=
      rx.orderBytes - rx.orderMessages.sum (fun m => if m.flowIndex = i then m.message.payload.length else 0)
    orderMessages := rx.orderMessages.drop (fun m => m.flowIndex = i)
    orderRx := rx.orderRx.clear i }

def orderMessageFind (rx : RxState) (i : Fin ORDER_FLOW_LIMIT) (marker : Nat) : Option (Fin ORDER_BUFFER_LIMIT) :=
  rx.orderMessages.find? fun m => m.flowIndex = i && m.marker = marker

def orderMarkers (marker : Nat) : Nat → List Nat
  | 0 => []
  | count + 1 => marker :: orderMarkers (orderNext marker) count

def orderDetachOne (i : Fin ORDER_FLOW_LIMIT) (s : RxState × List OrderMessage) (cursor : Nat) :
    RxState × List OrderMessage :=
  match (orderMessageFind s.1 i cursor).bind (fun j => (s.1.orderMessages j).map (j, ·)) with
  | none => s
  | some (j, m) =>
    ({ s.1 with
        orderBytes := s.1.orderBytes - m.message.payload.length
        orderMessages := s.1.orderMessages.clear j }, s.2 ++ [m])

def orderDetachLocked (rx : RxState) (i : Fin ORDER_FLOW_LIMIT) (marker count : Nat) :
    RxState × Except Errno (List OrderMessage) :=
  if ORDER_WINDOW + 1 < count then (rx, .error .EOVERFLOW)
  else if (orderMarkers marker count).any (fun cursor => (orderMessageFind rx i cursor).isNone) then
    (rx, .error Errno.EIO)
  else
    let r := (orderMarkers marker count).foldl (orderDetachOne i) (rx, [])
    (r.1, .ok r.2)

/-! ## Receiving -/

def OrderRxFlow.isFor (source : NodeId) (sourceService destinationService : UInt16) (generation : UInt32)
    (sessionEpoch : UInt64) (f : OrderRxFlow) : Bool :=
  f.generation = generation && f.sessionEpoch = sessionEpoch && f.sourceService = sourceService &&
    f.destinationService = destinationService && f.source = source

def orderRxFlowLocked (rx : RxState) (source : NodeId) (sourceService destinationService : UInt16)
    (generation : UInt32) (sessionEpoch : UInt64) : Except Errno (Fin ORDER_FLOW_LIMIT × Bool) :=
  match rx.orderRx.find? (OrderRxFlow.isFor source sourceService destinationService generation sessionEpoch) with
  | some i => .ok (i, false)
  | none =>
    match rx.orderRx.free? with
    | some i => .ok (i, true)
    | none => .error .ENOSPC

def orderRxState (rx : RxState) (i : Fin ORDER_FLOW_LIMIT) (created : Bool) : OrderState :=
  if created then orderReset else ((rx.orderRx i).map (·.state)).getD orderReset

def orderRxWrite (rx : RxState) (h : WireData) (sessionEpoch : UInt64) (m : Complete) (i : Fin ORDER_FLOW_LIMIT)
    (created : Bool) (state : OrderState) : OrderRxFlow :=
  match created, rx.orderRx i with
  | false, some f => { f with state := state }
  | _, _ =>
    ⟨state, m.source, sessionEpoch, h.common.identityGeneration, h.sourceService, h.destinationService,
      m.origin.session⟩

def orderInsert (rx : RxState) (h : WireData) (m : Complete) (i : Fin ORDER_FLOW_LIMIT) (flow : OrderRxFlow)
    (j : Fin ORDER_BUFFER_LIMIT) : RxState :=
  { rx with
    orderRx := rx.orderRx.set i flow
    orderMessages := rx.orderMessages.set j ⟨m, h.orderingMarker.toNat, i⟩
    orderBytes := rx.orderBytes + m.payload.length }

def orderAdmitLocked (rx : RxState) (h : WireData) (sessionEpoch : UInt64) (m : Complete) (nowMs : Nat) :
    RxState × Except Errno (List OrderMessage) :=
  match orderRxFlowLocked rx m.source h.sourceService h.destinationService h.common.identityGeneration
      sessionEpoch with
  | .error e => (rx, .error e)
  | .ok (i, created) =>
    match orderAdmit (orderRxState rx i created) h.orderingMarker.toNat nowMs with
    | .error e => (rx, .error e)
    | .ok (.duplicate, _) => (rx, .ok [])
    | .ok (result, state) =>
      if ORDER_BYTE_LIMIT - rx.orderBytes < m.payload.length then (rx, .error .ENOSPC)
      else
        match rx.orderMessages.free? with
        | none => (rx, .error .ENOSPC)
        | some j =>
          let rx := orderInsert rx h m i (orderRxWrite rx h sessionEpoch m i created state) j
          match result with
          | .released marker count =>
            match orderDetachLocked rx i marker count with
            | (rx, .error e) => (orderFlowClear rx i, .error e)
            | (rx, .ok batch) => (rx, .ok batch)
          | _ => (rx, .ok [])

def orderPollFrom (nowMs : Nat) (rx : RxState) : List (Fin ORDER_FLOW_LIMIT) →
    RxState × Except Errno (List OrderMessage)
  | [] => (rx, .ok [])
  | i :: is =>
    match rx.orderRx i with
    | none => orderPollFrom nowMs rx is
    | some flow =>
      match orderPoll flow.state nowMs with
      | (state, .error e) =>
        (orderFlowClear { rx with orderRx := rx.orderRx.set i { flow with state := state } } i, .error e)
      | (state, .ok (.released marker count)) =>
        match orderDetachLocked { rx with orderRx := rx.orderRx.set i { flow with state := state } } i marker
            count with
        | (rx, .error e) => (orderFlowClear rx i, .error e)
        | (rx, .ok batch) => (rx, .ok batch)
      | (_, .ok _) => orderPollFrom nowMs rx is

def orderPollLocked (rx : RxState) (nowMs : Nat) : RxState × Except Errno (List OrderMessage) :=
  orderPollFrom nowMs rx (List.finRange ORDER_FLOW_LIMIT)

/-! ## Sending -/

def orderTxMarkerLocked (orderTx : Table ORDER_FLOW_LIMIT OrderTxFlow) (destination : NodeId)
    (sourceService destinationService : UInt16) (generation : UInt32) (sessionEpoch : UInt64) :
    Except Errno (Nat × Table ORDER_FLOW_LIMIT OrderTxFlow) :=
  let fresh : OrderTxFlow := ⟨destination, sessionEpoch, generation, 1, sourceService, destinationService⟩
  let slot : Option (Fin ORDER_FLOW_LIMIT × OrderTxFlow) :=
    match orderTx.find? (fun f => f.destination = destination && f.sourceService = sourceService &&
        f.destinationService = destinationService) with
    | some i =>
      match orderTx i with
      | some f => some (i, if f.generation ≠ generation ∨ f.sessionEpoch ≠ sessionEpoch then fresh else f)
      | none => some (i, fresh)
    | none => orderTx.free?.map (·, fresh)
  match slot with
  | none => .error .ENOSPC
  | some (i, f) => .ok (f.nextMarker, orderTx.set i { f with nextMarker := orderNext f.nextMarker })

/-! ## Resets -/

def rxPeerReset (rx : RxState) (node : NodeId) : RxState :=
  let ours := fun (m : OrderMessage) => (rx.orderRx m.flowIndex).any (fun f => f.source = node)
  { reassemblyClearWhere rx (fun e => e.source = node) with
    receipts := rx.receipts.drop (fun r => r.source = node)
    orderRx := rx.orderRx.drop (fun f => f.source = node)
    orderMessages := rx.orderMessages.drop ours
    orderBytes := rx.orderBytes - rx.orderMessages.sum (fun m => if ours m then m.message.payload.length else 0) }

def dataPeerResetLocked (d : Device) (node : NodeId) : Device :=
  { d with rx := rxPeerReset d.rx node, orderTx := d.orderTx.drop (fun f => f.destination = node) }

def dataOrderResetLocked (d : Device) : Device :=
  { d with rx := { d.rx with orderMessages := Table.empty, orderRx := Table.empty, orderBytes := 0 },
           orderTx := Table.empty }

def dataResetLocked (d : Device) : Device :=
  dataOrderResetLocked { d with rx := dataReassemblyResetLocked d.rx }

end Melodi
