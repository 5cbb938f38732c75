import Melodi.Lib.Bytes
import Melodi.Proto.Basic

/-!
# Data and acknowledgement frames (`wire.c`)

A frame is a byte string. The common header takes `40` octets, the data header `80` (the last `20` of them the tag and
a reserved word), an acknowledgement `72`.
-/

namespace Melodi
open Lib

def WIRE_VERSION : UInt8 := 1
def WIRE_COMMON_SIZE : Nat := 40
def WIRE_DATA_SIZE : Nat := 80
def WIRE_AUTH_DATA_SIZE : Nat := 60
def WIRE_BROADCAST_OVERHEAD : Nat := 48
def WIRE_ACK_SIZE : Nat := 72
def WIRE_ACK_AUTH_SIZE : Nat := 56
def WIRE_TAG_SIZE : Nat := 16

def WIRE_HELLO : UInt8 := 1
def WIRE_CHALLENGE : UInt8 := 2
def WIRE_RESPONSE : UInt8 := 3
def WIRE_DATA : UInt8 := 4
def WIRE_ACK : UInt8 := 5
def WIRE_CONFLICT : UInt8 := 6
def WIRE_CONTROL : UInt8 := 7

def WIRE_F_BROADCAST : UInt16 := 0x0001
def WIRE_F_ENCRYPTED : UInt16 := 0x0002
def WIRE_F_RELIABLE : UInt16 := 0x0004
def WIRE_F_ORDERED : UInt16 := 0x0008
def WIRE_F_FINAL : UInt16 := 0x0010
def WIRE_F_IGNORABLE : UInt16 := 0x8000
def WIRE_F_ALL : UInt16 := 0x801f

def DELIVERY_UNRELIABLE : UInt8 := 0
def DELIVERY_RELIABLE : UInt8 := 1
def DELIVERY_RELIABLE_ORDERED : UInt8 := 2

inductive AckStatus where
  | PARTIAL
  | COMPLETE
  | REJECTED
  deriving DecidableEq, Repr

def AckStatus.toByte : AckStatus → UInt8
  | .PARTIAL => 0
  | .COMPLETE => 1
  | .REJECTED => 2

structure WireCommon where
  version : UInt8 := 0
  frameClass : UInt8 := 0
  flags : UInt16 := 0
  headerLength : UInt16 := 0
  payloadLength : UInt16 := 0
  sourceNativeLocator : UInt32 := 0
  destinationNativeLocator : UInt32 := 0
  identityGeneration : UInt32 := 0
  messageId : UInt64 := 0
  counter : UInt64 := 0
  deriving DecidableEq, Repr

structure WireData where
  common : WireCommon := {}
  destinationService : UInt16 := 0
  sourceService : UInt16 := 0
  fragmentIndex : UInt16 := 0
  fragmentCount : UInt16 := 0
  logicalLength : UInt32 := 0
  deliveryMode : UInt8 := 0
  priority : UInt8 := 0
  orderingMarker : UInt32 := 0
  tag : Octets := List.replicate WIRE_TAG_SIZE 0
  deriving DecidableEq, Repr

structure WireAck where
  common : WireCommon := {}
  acknowledgedGeneration : UInt32 := 0
  fragmentCount : UInt16 := 0
  status : UInt8 := 0
  bitmap : BitVec 64 := 0
  tag : Octets := List.replicate WIRE_TAG_SIZE 0
  deriving DecidableEq, Repr

/-! ## Encoders -/

def wireEncodeCommon (h : WireCommon) : Octets :=
  [h.version, h.frameClass] ++ put16 h.flags ++ put16 h.headerLength ++ put16 h.payloadLength ++
    put32 h.sourceNativeLocator ++ put32 h.destinationNativeLocator ++ put32 h.identityGeneration ++
    put64 h.messageId ++ put64 h.counter ++ [0, 0, 0, 0]

def WireCommon.asData (common : WireCommon) (wirePayloadLength : Nat) : WireCommon :=
  { common with version := WIRE_VERSION, frameClass := WIRE_DATA, headerLength := UInt16.ofNat WIRE_DATA_SIZE,
                payloadLength := UInt16.ofNat wirePayloadLength }

def wireDataAuth (h : WireData) (wirePayloadLength : Nat) : Octets :=
  wireEncodeCommon (h.common.asData wirePayloadLength) ++ put16 h.destinationService ++ put16 h.sourceService ++
    put16 h.fragmentIndex ++ put16 h.fragmentCount ++ put32 h.logicalLength ++
    [h.deliveryMode, h.priority, 0, 0] ++ put32 h.orderingMarker

theorem wireDataAuth_length (h : WireData) (n : Nat) : (wireDataAuth h n).length = WIRE_AUTH_DATA_SIZE := by
  simp only [wireDataAuth, wireEncodeCommon, List.length_append, length_put16, length_put32, length_put64,
    List.length_cons, List.length_nil, WIRE_AUTH_DATA_SIZE]

def wireEncodeDataHeader (capacity : Nat) (h : WireData) (wirePayloadLength : Nat) : Except Errno Octets :=
  if 0xffff < wirePayloadLength ∨ capacity < WIRE_DATA_SIZE + wirePayloadLength ∨ h.fragmentCount = 0 ∨
      h.fragmentCount ≤ h.fragmentIndex ∨ DELIVERY_RELIABLE_ORDERED < h.deliveryMode ∨
      PRIORITY_MAX < h.priority.toNat ∨ h.common.flags &&& ~~~WIRE_F_ALL ≠ 0 then
    .error .EINVAL
  else
    .ok (wireDataAuth h wirePayloadLength ++ h.tag ++ [0, 0, 0, 0])

def wireEncodeData (capacity : Nat) (h : WireData) (payload : Octets) : Except Errno Octets :=
  if h.logicalLength.toNat < payload.length then .error .EINVAL
  else
    match wireEncodeDataHeader capacity h payload.length with
    | .error e => .error e
    | .ok header => .ok (header ++ payload)

def wireEncodeBroadcastData (capacity : Nat) (h : WireData) (signature payload : Octets) : Except Errno Octets :=
  if h.logicalLength.toNat < payload.length ∨ h.common.destinationNativeLocator ≠ NATIVE_LOCATOR_BROADCAST ∨
      h.common.flags &&& ~~~WIRE_F_FINAL ≠ WIRE_F_BROADCAST ∨ h.deliveryMode ≠ DELIVERY_UNRELIABLE ∨
      h.orderingMarker ≠ 0 then
    .error .EINVAL
  else
    match wireEncodeDataHeader capacity { h with tag := signature.take WIRE_TAG_SIZE }
        (WIRE_BROADCAST_OVERHEAD + payload.length) with
    | .error e => .error e
    | .ok header => .ok (header ++ (signature.drop WIRE_TAG_SIZE).take WIRE_BROADCAST_OVERHEAD ++ payload)

def fragmentMask (count : Nat) : BitVec 64 := if count = 64 then BitVec.allOnes 64 else (1#64 <<< count) - 1

theorem getLsbD_fragmentMask {count : Nat} (hc : count ≤ 64) (j : Nat) :
    (fragmentMask count).getLsbD j = decide (j < count) := by
  unfold fragmentMask
  split_ifs with h
  · rw [h, BitVec.getLsbD_allOnes]
  · exact getLsbD_lowBits (by omega) j

theorem within_fragmentMask_iff {count : Nat} (hc : count ≤ 64) (b : BitVec 64) :
    b &&& ~~~fragmentMask count = 0 ↔ ∀ j, b.getLsbD j = true → j < count := by
  constructor
  · intro h j hj
    by_contra hge
    have hlt := BitVec.lt_of_getLsbD hj
    have hbit := congrArg (fun b => b.getLsbD j) h
    simp [hj, getLsbD_fragmentMask hc, hge] at hbit
    omega
  · intro h
    apply BitVec.eq_of_getLsbD_eq
    intro j hj
    rw [BitVec.getLsbD_and, BitVec.getLsbD_not, getLsbD_fragmentMask hc]
    cases hb : b.getLsbD j with
    | false => simp
    | true => simp [h j hb]

def wireEncodeAck (h : WireAck) : Except Errno Octets :=
  if h.common.flags ≠ WIRE_F_ENCRYPTED ∨ h.common.sourceNativeLocator = 0 ∨
      h.common.sourceNativeLocator = NATIVE_LOCATOR_BROADCAST ∨ h.common.destinationNativeLocator = 0 ∨
      h.common.destinationNativeLocator = NATIVE_LOCATOR_BROADCAST ∨ h.common.identityGeneration = 0 ∨
      h.common.messageId = 0 ∨ h.common.counter = 0 ∨ h.acknowledgedGeneration = 0 ∨ h.fragmentCount = 0 ∨
      64 < h.fragmentCount.toNat ∨ AckStatus.REJECTED.toByte < h.status ∨ h.bitmap = 0 then
    .error .EINVAL
  else
    let expected := fragmentMask h.fragmentCount.toNat
    if h.bitmap &&& ~~~expected ≠ 0 ∨ (h.status = AckStatus.COMPLETE.toByte ∧ h.bitmap ≠ expected) then
      .error .EINVAL
    else
      let common := { h.common with version := WIRE_VERSION, frameClass := WIRE_ACK,
                                    headerLength := UInt16.ofNat WIRE_ACK_SIZE, payloadLength := 0 }
      .ok (wireEncodeCommon common ++ put32 h.acknowledgedGeneration ++ put16 h.fragmentCount ++ [h.status, 0] ++
        put64 (UInt64.ofBitVec h.bitmap) ++ h.tag)

/-! ## Decoders -/

def wireClassValid (frameClass : UInt8) : Bool := WIRE_HELLO ≤ frameClass && frameClass ≤ WIRE_CONTROL

def wireReadCommon (input : Octets) : WireCommon where
  version := input.getD 0 0
  frameClass := input.getD 1 0
  flags := get16 (input.drop 2)
  headerLength := get16 (input.drop 4)
  payloadLength := get16 (input.drop 6)
  sourceNativeLocator := get32 (input.drop 8)
  destinationNativeLocator := get32 (input.drop 12)
  identityGeneration := get32 (input.drop 16)
  messageId := get64 (input.drop 20)
  counter := get64 (input.drop 28)

def wireDecodeCommon (input : Octets) : Except Errno WireCommon :=
  if input.length < WIRE_COMMON_SIZE then .error .EMSGSIZE
  else
    let h := wireReadCommon input
    if h.version ≠ WIRE_VERSION ∨ wireClassValid h.frameClass = false ∨ h.flags &&& ~~~WIRE_F_ALL ≠ 0 ∨
        h.headerLength.toNat < WIRE_COMMON_SIZE ∨ input.length < h.headerLength.toNat ∨
        h.payloadLength.toNat ≠ input.length - h.headerLength.toNat ∨ input.getD 36 0 ≠ 0 ∨ input.getD 37 0 ≠ 0 ∨
        input.getD 38 0 ≠ 0 ∨ input.getD 39 0 ≠ 0 then
      .error .EPROTO
    else .ok h

def wireReadData (common : WireCommon) (input : Octets) : WireData where
  common := common
  destinationService := get16 (input.drop 40)
  sourceService := get16 (input.drop 42)
  fragmentIndex := get16 (input.drop 44)
  fragmentCount := get16 (input.drop 46)
  logicalLength := get32 (input.drop 48)
  deliveryMode := input.getD 52 0
  priority := input.getD 53 0
  orderingMarker := get32 (input.drop 56)
  tag := (input.drop 60).take WIRE_TAG_SIZE

def wireLengthBad (h : WireData) : Bool :=
  if h.common.flags &&& WIRE_F_BROADCAST ≠ 0 then
    decide (h.common.payloadLength.toNat < WIRE_BROADCAST_OVERHEAD) ||
      decide (h.logicalLength.toNat < h.common.payloadLength.toNat - WIRE_BROADCAST_OVERHEAD)
  else decide (h.logicalLength.toNat < h.common.payloadLength.toNat)

def wireDecodeData (input : Octets) : Except Errno (WireData × Octets) :=
  match wireDecodeCommon input with
  | .error e => .error e
  | .ok common =>
    if common.frameClass ≠ WIRE_DATA ∨ common.headerLength ≠ UInt16.ofNat WIRE_DATA_SIZE then .error .EPROTO
    else
      let h := wireReadData common input
      if h.fragmentCount = 0 ∨ h.fragmentCount ≤ h.fragmentIndex ∨ wireLengthBad h = true ∨
          DELIVERY_RELIABLE_ORDERED < h.deliveryMode ∨ PRIORITY_MAX < h.priority.toNat ∨ input.getD 54 0 ≠ 0 ∨
          input.getD 55 0 ≠ 0 ∨ input.getD 76 0 ≠ 0 ∨ input.getD 77 0 ≠ 0 ∨ input.getD 78 0 ≠ 0 ∨
          input.getD 79 0 ≠ 0 then
        .error .EPROTO
      else .ok (h, input.drop WIRE_DATA_SIZE)

def wireDecodeBroadcastData (input : Octets) : Except Errno (WireData × Octets × Octets) :=
  match wireDecodeData input with
  | .error e => .error e
  | .ok (h, physicalPayload) =>
    if h.common.destinationNativeLocator ≠ NATIVE_LOCATOR_BROADCAST ∨
        h.common.flags &&& ~~~WIRE_F_FINAL ≠ WIRE_F_BROADCAST ∨ h.deliveryMode ≠ DELIVERY_UNRELIABLE ∨
        h.orderingMarker ≠ 0 ∨ h.common.payloadLength.toNat < WIRE_BROADCAST_OVERHEAD then
      .error .EPROTO
    else
      .ok (h, h.tag ++ physicalPayload.take WIRE_BROADCAST_OVERHEAD, physicalPayload.drop WIRE_BROADCAST_OVERHEAD)

def wireDecodeAck (input : Octets) : Except Errno WireAck :=
  match wireDecodeCommon input with
  | .error e => .error e
  | .ok common =>
    if common.frameClass ≠ WIRE_ACK ∨ common.flags ≠ WIRE_F_ENCRYPTED ∨
        common.headerLength ≠ UInt16.ofNat WIRE_ACK_SIZE ∨ common.payloadLength ≠ 0 ∨
        common.sourceNativeLocator = 0 ∨ common.sourceNativeLocator = NATIVE_LOCATOR_BROADCAST ∨
        common.destinationNativeLocator = 0 ∨ common.destinationNativeLocator = NATIVE_LOCATOR_BROADCAST ∨
        common.identityGeneration = 0 ∨ common.messageId = 0 ∨ common.counter = 0 ∨ input.getD 47 0 ≠ 0 then
      .error .EPROTO
    else
      let h : WireAck :=
        { common := common, acknowledgedGeneration := get32 (input.drop 40), fragmentCount := get16 (input.drop 44),
          status := input.getD 46 0, bitmap := (get64 (input.drop 48)).toBitVec,
          tag := (input.drop WIRE_ACK_AUTH_SIZE).take WIRE_TAG_SIZE }
      if h.acknowledgedGeneration = 0 ∨ h.fragmentCount = 0 ∨ 64 < h.fragmentCount.toNat ∨
          AckStatus.REJECTED.toByte < h.status ∨ h.bitmap = 0 then
        .error .EPROTO
      else
        let expected := fragmentMask h.fragmentCount.toNat
        if h.bitmap &&& ~~~expected ≠ 0 ∨ (h.status = AckStatus.COMPLETE.toByte ∧ h.bitmap ≠ expected) then
          .error .EPROTO
        else .ok h

end Melodi
