import Melodi.Core.Handshake

/-!
# Identity, link and policy operations (`main.c`, `policy.c`)
-/

namespace Melodi
open Lib

/-! ## Identity -/

/-- What `melodi_device_set_identity` keeps between its two critical sections. -/
structure IdentityOpened where
  nodeId : NodeId
  generation : UInt32
  nativeLocator : UInt32
  round : UInt32
  replacing : Bool
  previousGiven : Bool

def identityCheck (P : Platform) (d : Device) (node : NodeId) (generation : UInt32) (previous : Option NodeId) :
    Except Errno IdentityOpened :=
  if nodeIdValid P node = false ∨ generation = 0 then .error .EINVAL
  else
    match mapNativeLocator P d.meshDomain node 0 with
    | .error e => .error e
    | .ok (nativeLocator, round) =>
      let replacing : Bool := d.identityReady && d.nodeId ≠ node
      if d.identityReady ∧ replacing = false ∧ generation ≤ d.identityGeneration then .error .ESTALE
      else if previous.any (fun p => replacing = false || p ≠ d.nodeId) then .error .ESTALE
      else .ok ⟨node, generation, nativeLocator, UInt32.ofNat round, replacing, previous.isSome⟩

/-- What the second critical section of `melodi_device_set_identity` does after the reset. `configure` says that the
transport is configured anew. -/
def identityRestart (d : Device) (o : IdentityOpened) (configure : Bool) : Device :=
  let d := if o.replacing ∧ o.previousGiven = false then { d with policyPeers := Table.empty } else d
  if configure then { d with transportReady := false, localLinkLocator := 0 } else d

def identityCommit (d : Device) (o : IdentityOpened) (configure : Bool) : Device :=
  let d := { d with
    nodeId := o.nodeId, identityReady := true, identityGeneration := o.generation,
    localNativeLocator := o.nativeLocator, localCollisionRound := o.round, conflictPending := false,
    transmitCounter := 0 }
  identityRestart (discoveryResetLocked (dataResetLocked d)) o configure

/-! ## Link -/

def linkReady (d : Device) (ready : Bool) (locator : UInt32) : Device :=
  if ready ∧ (locator = 0 ∨ locator = LINK_LOCATOR_BROADCAST) then d
  else { d with transportReady := ready, localLinkLocator := if ready then locator else 0 }

def linkFailed (d : Device) : Device := { d with transportReady := false, localLinkLocator := 0 }

def transportConfigure (d : Device) (transport : Bool) : Device × Except Errno Unit :=
  if d.identityReady = false then (d, .error .EAGAIN)
  else if transport = false then (d, .error .EOPNOTSUPP)
  else (linkFailed d, .ok ())

def detachReset (d : Device) : Device := discoveryResetLocked (dataResetLocked d)

def namespaceReset (d : Device) : Device :=
  { discoveryResetLocked (dataResetLocked d) with
    policyPeers := Table.empty, policyServices := Table.empty, policyMode := .ALLOW_AUTHENTICATED,
    broadcastAllowed := true }

/-! ## Policy -/

def policySetPeer (P : Platform) (d : Device) (node : NodeId) (state : PolicyPeerState) : Device × Except Errno Unit :=
  if nodeIdValid P node = false then (d, .error .EINVAL)
  else
    match (d.policyPeers.find? fun e => e.nodeId = node).or d.policyPeers.free? with
    | none => (d, .error .ENOSPC)
    | some k =>
      let d := { d with policyPeers := d.policyPeers.set k ⟨node, state⟩ }
      match state, peerByNode d node with
      | .BLOCKED, some i => (peerSessionResetLocked d i, .ok ())
      | _, _ => (d, .ok ())

def policyClearPeer (P : Platform) (d : Device) (node : NodeId) : Device × Except Errno Unit :=
  if nodeIdValid P node = false then (d, .error .EINVAL)
  else
    match d.policyPeers.find? fun e => e.nodeId = node with
    | none => (d, .error .ENOENT)
    | some k => ({ d with policyPeers := d.policyPeers.clear k }, .ok ())

def policySetService (d : Device) (service : UInt16) (action : PolicyAction) : Device × Except Errno Unit :=
  if service = SERVICE_CONTROL then (d, .error .EINVAL)
  else
    match action, d.policyServices.find? (fun e => e.service = service), d.policyServices.free? with
    | .CLEAR, some k, _ => ({ d with policyServices := d.policyServices.clear k }, .ok ())
    | .CLEAR, none, _ => (d, .error .ENOENT)
    | action, some k, _ => ({ d with policyServices := d.policyServices.set k ⟨service, action⟩ }, .ok ())
    | action, none, some k => ({ d with policyServices := d.policyServices.set k ⟨service, action⟩ }, .ok ())
    | _, none, none => (d, .error .ENOSPC)

def policySetBroadcast (d : Device) (allowed : Bool) : Device := { d with broadcastAllowed := allowed }

def policySetMode (d : Device) (mode : PolicyMode) : Device := { d with policyMode := mode }

def policyReset (d : Device) : Device :=
  { d with policyPeers := Table.empty, policyServices := Table.empty, policyMode := .ALLOW_AUTHENTICATED,
           broadcastAllowed := true }

def policyReverifyPeer (P : Platform) (d : Device) (node : NodeId) : Device × Except Errno Unit :=
  if nodeIdValid P node = false then (d, .error .EINVAL)
  else
    match peerByNode d node with
    | none => (d, .error .ENOENT)
    | some i => (peerSessionResetLocked d i, .ok ())

end Melodi
