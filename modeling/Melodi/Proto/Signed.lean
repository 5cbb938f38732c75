import Melodi.Proto.Wire

/-!
# Signed frames (`wire.c`)

The frames of the control plane carry a signature over everything before it: HELLO and CONFLICT (one layout, `213`
octets), CHALLENGE and RESPONSE (one layout, `302` octets) and CONTROL (`209` octets).
-/

namespace Melodi
open Lib

def WIRE_SIGNATURE_SIZE : Nat := 64
def WIRE_CHALLENGE_SIZE : Nat := 32
def WIRE_HELLO_SIGNED_SIZE : Nat := 149
def WIRE_HELLO_SIZE : Nat := 213
def WIRE_AUTH_SIGNED_SIZE : Nat := 238
def WIRE_AUTH_SIZE : Nat := 302
def WIRE_CONTROL_DATA_SIZE : Nat := 32
def WIRE_CONTROL_SIGNED_SIZE : Nat := 145
def WIRE_CONTROL_SIZE : Nat := 209

def CONTROL_PROBE : UInt16 := 1

/-! ## Records -/

structure WireHello where
  common : WireCommon
  nodeId : NodeId
  meshDomain : Octets
  collisionRound : UInt32
  capabilities : UInt32 := 0
  expirySeconds : UInt32
  challenge : Octets
  signature : Octets := List.replicate WIRE_SIGNATURE_SIZE 0
  deriving DecidableEq, Repr

structure WireAuth where
  common : WireCommon
  sourceNodeId : NodeId
  destinationNodeId : NodeId
  ephemeralKey : Octets
  challenge : Octets
  replyTo : Octets
  meshDomain : Octets
  collisionRound : UInt32
  signature : Octets := List.replicate WIRE_SIGNATURE_SIZE 0
  deriving DecidableEq, Repr

structure WireControl where
  common : WireCommon
  nodeId : NodeId
  meshDomain : Octets
  collisionRound : UInt32
  opcode : UInt16
  data : Octets := List.replicate WIRE_CONTROL_DATA_SIZE 0
  signature : Octets := List.replicate WIRE_SIGNATURE_SIZE 0
  deriving DecidableEq, Repr

/-! ## HELLO and CONFLICT -/

def wireEncodeClaim (h : WireHello) (frameClass : UInt8) : Except Errno Octets :=
  if h.common.flags &&& ~~~WIRE_F_BROADCAST ≠ 0 ∨ h.common.flags &&& WIRE_F_BROADCAST = 0 ∨
      h.common.destinationNativeLocator ≠ NATIVE_LOCATOR_BROADCAST ∨ h.nodeId.getD 0 0 ≠ NODE_ID_SCHEME_ED25519 then
    .error .EINVAL
  else
    let common := { h.common with version := WIRE_VERSION, frameClass := frameClass,
                                  headerLength := UInt16.ofNat WIRE_HELLO_SIZE, payloadLength := 0 }
    .ok (wireEncodeCommon common ++ h.nodeId ++ h.meshDomain ++ put32 h.collisionRound ++ put32 h.capabilities ++
      put32 h.expirySeconds ++ h.challenge ++ h.signature)

def wireEncodeHello (h : WireHello) : Except Errno Octets := wireEncodeClaim h WIRE_HELLO

def wireEncodeConflict (h : WireHello) : Except Errno Octets := wireEncodeClaim h WIRE_CONFLICT

def wireReadHello (common : WireCommon) (input : Octets) : WireHello where
  common := common
  nodeId := (input.drop 40).take NODE_ID_SIZE
  meshDomain := (input.drop 73).take MESH_DOMAIN_SIZE
  collisionRound := get32 (input.drop 105)
  capabilities := get32 (input.drop 109)
  expirySeconds := get32 (input.drop 113)
  challenge := (input.drop 117).take WIRE_CHALLENGE_SIZE
  signature := (input.drop WIRE_HELLO_SIGNED_SIZE).take WIRE_SIGNATURE_SIZE

def wireDecodeClaim (input : Octets) (frameClass : UInt8) : Except Errno WireHello :=
  match wireDecodeCommon input with
  | .error e => .error e
  | .ok common =>
    if common.frameClass ≠ frameClass ∨ common.headerLength ≠ UInt16.ofNat WIRE_HELLO_SIZE ∨ common.payloadLength ≠ 0 ∨
        common.flags ≠ WIRE_F_BROADCAST ∨ common.destinationNativeLocator ≠ NATIVE_LOCATOR_BROADCAST then
      .error .EPROTO
    else
      let h := wireReadHello common input
      if h.nodeId.getD 0 0 = NODE_ID_SCHEME_ED25519 then .ok h else .error .EPROTO

def wireDecodeHello (input : Octets) : Except Errno WireHello := wireDecodeClaim input WIRE_HELLO

def wireDecodeConflict (input : Octets) : Except Errno WireHello := wireDecodeClaim input WIRE_CONFLICT

/-! ## CHALLENGE and RESPONSE -/

def wireEncodeAuth (h : WireAuth) : Except Errno Octets :=
  if (h.common.frameClass ≠ WIRE_CHALLENGE ∧ h.common.frameClass ≠ WIRE_RESPONSE) ∨ h.common.flags ≠ 0 ∨
      h.common.sourceNativeLocator = NATIVE_LOCATOR_INVALID ∨ h.common.sourceNativeLocator = NATIVE_LOCATOR_BROADCAST ∨
      h.common.destinationNativeLocator = NATIVE_LOCATOR_INVALID ∨
      h.common.destinationNativeLocator = NATIVE_LOCATOR_BROADCAST ∨
      h.sourceNodeId.getD 0 0 ≠ NODE_ID_SCHEME_ED25519 ∨ h.destinationNodeId.getD 0 0 ≠ NODE_ID_SCHEME_ED25519 then
    .error .EINVAL
  else
    let common :=
      { h.common with version := WIRE_VERSION, headerLength := UInt16.ofNat WIRE_AUTH_SIZE, payloadLength := 0 }
    .ok (wireEncodeCommon common ++ h.sourceNodeId ++ h.destinationNodeId ++ h.ephemeralKey ++ h.challenge ++
      h.replyTo ++ h.meshDomain ++ put32 h.collisionRound ++ h.signature)

def wireReadAuth (common : WireCommon) (input : Octets) : WireAuth where
  common := common
  sourceNodeId := (input.drop 40).take NODE_ID_SIZE
  destinationNodeId := (input.drop 73).take NODE_ID_SIZE
  ephemeralKey := (input.drop 106).take 32
  challenge := (input.drop 138).take WIRE_CHALLENGE_SIZE
  replyTo := (input.drop 170).take WIRE_CHALLENGE_SIZE
  meshDomain := (input.drop 202).take MESH_DOMAIN_SIZE
  collisionRound := get32 (input.drop 234)
  signature := (input.drop WIRE_AUTH_SIGNED_SIZE).take WIRE_SIGNATURE_SIZE

def wireDecodeAuth (input : Octets) : Except Errno WireAuth :=
  match wireDecodeCommon input with
  | .error e => .error e
  | .ok common =>
    if (common.frameClass ≠ WIRE_CHALLENGE ∧ common.frameClass ≠ WIRE_RESPONSE) ∨ common.flags ≠ 0 ∨
        common.headerLength ≠ UInt16.ofNat WIRE_AUTH_SIZE ∨ common.payloadLength ≠ 0 ∨
        common.sourceNativeLocator = NATIVE_LOCATOR_INVALID ∨ common.sourceNativeLocator = NATIVE_LOCATOR_BROADCAST ∨
        common.destinationNativeLocator = NATIVE_LOCATOR_INVALID ∨
        common.destinationNativeLocator = NATIVE_LOCATOR_BROADCAST then
      .error .EPROTO
    else
      let h := wireReadAuth common input
      if h.sourceNodeId.getD 0 0 ≠ NODE_ID_SCHEME_ED25519 ∨ h.destinationNodeId.getD 0 0 ≠ NODE_ID_SCHEME_ED25519 then
        .error .EPROTO
      else .ok h

/-! ## CONTROL -/

def wireEncodeControl (h : WireControl) : Except Errno Octets :=
  if h.common.flags ≠ WIRE_F_BROADCAST ∨ h.common.sourceNativeLocator = NATIVE_LOCATOR_INVALID ∨
      h.common.sourceNativeLocator = NATIVE_LOCATOR_BROADCAST ∨
      h.common.destinationNativeLocator ≠ NATIVE_LOCATOR_BROADCAST ∨ h.nodeId.getD 0 0 ≠ NODE_ID_SCHEME_ED25519 ∨
      h.opcode ≠ CONTROL_PROBE then
    .error .EINVAL
  else
    let common := { h.common with version := WIRE_VERSION, frameClass := WIRE_CONTROL,
                                  headerLength := UInt16.ofNat WIRE_CONTROL_SIZE, payloadLength := 0 }
    .ok (wireEncodeCommon common ++ h.nodeId ++ h.meshDomain ++ put32 h.collisionRound ++ put16 h.opcode ++ [0, 0] ++
      h.data ++ h.signature)

def wireReadControl (common : WireCommon) (input : Octets) : WireControl where
  common := common
  nodeId := (input.drop 40).take NODE_ID_SIZE
  meshDomain := (input.drop 73).take MESH_DOMAIN_SIZE
  collisionRound := get32 (input.drop 105)
  opcode := get16 (input.drop 109)
  data := (input.drop 113).take WIRE_CONTROL_DATA_SIZE
  signature := (input.drop WIRE_CONTROL_SIGNED_SIZE).take WIRE_SIGNATURE_SIZE

def wireDecodeControl (input : Octets) : Except Errno WireControl :=
  match wireDecodeCommon input with
  | .error e => .error e
  | .ok common =>
    if common.frameClass ≠ WIRE_CONTROL ∨ common.flags ≠ WIRE_F_BROADCAST ∨
        common.headerLength ≠ UInt16.ofNat WIRE_CONTROL_SIZE ∨ common.payloadLength ≠ 0 ∨
        common.sourceNativeLocator = NATIVE_LOCATOR_INVALID ∨ common.sourceNativeLocator = NATIVE_LOCATOR_BROADCAST ∨
        common.destinationNativeLocator ≠ NATIVE_LOCATOR_BROADCAST ∨ input.getD 111 0 ≠ 0 ∨ input.getD 112 0 ≠ 0 then
      .error .EPROTO
    else
      let h := wireReadControl common input
      if h.nodeId.getD 0 0 ≠ NODE_ID_SCHEME_ED25519 ∨ h.opcode ≠ CONTROL_PROBE then .error .EPROTO else .ok h

end Melodi
