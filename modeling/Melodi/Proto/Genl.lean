import Melodi.Lib.Attributes
import Melodi.Proto.Basic

/-!
# Netlink messages (`genl.c`)

The messages between the kernel module and its clients: a netlink header, a generic netlink header, and a stream of
attributes in the byte order of the host. A client writes requests with a builder and reads replies and events with a
parser that checks, for each command, which attributes are there and what their values may be.
-/

namespace Melodi
open Lib

def GENL_VERSION : UInt8 := 1
def FRAME_HEADER_MIN : Nat := 40
def RADIO_SERIAL_MAX : Nat := 63
def BUS_INFO_MAX : Nat := 31
def RX_A_MAX : Nat := 7
def ERROR_A_MAX : Nat := 2
def STAT_A_MAX : Nat := 24

def GENL_HEADER : Nat := 20

def NLA_F_NESTED : UInt16 := 0x8000
def NLA_TYPE_MASK : UInt16 := 0x3fff

inductive Command where
  | BIND | UNBIND | SEND | RECV | ERROR | GET_BINDING | LINK_GET | LINK_SET | IDENTITY_LOAD | IDENTITY_GET_PUBLIC
  | PEER_DUMP | PEER_TRUST | PEER_BLOCK | PEER_CLEAR | PEER_REVERIFY | DISCOVER | POLICY_GET | POLICY_SET | STATS_GET
  | MONITOR_BIND | MONITOR_FRAME
  deriving DecidableEq, Repr

def Command.code (c : Command) : UInt8 := UInt8.ofNat (if c.ctorIdx < 6 then c.ctorIdx + 1 else c.ctorIdx + 26)

def Command.all : List Command :=
  [.BIND, .UNBIND, .SEND, .RECV, .ERROR, .GET_BINDING, .LINK_GET, .LINK_SET, .IDENTITY_LOAD, .IDENTITY_GET_PUBLIC,
    .PEER_DUMP, .PEER_TRUST, .PEER_BLOCK, .PEER_CLEAR, .PEER_REVERIFY, .DISCOVER, .POLICY_GET, .POLICY_SET, .STATS_GET,
    .MONITOR_BIND, .MONITOR_FRAME]

def Command.ofCode (code : UInt8) : Option Command := Command.all.find? (·.code == code)

def commandValid (code : UInt8) : Bool := (Command.ofCode code).isSome

/-- The two ranges of `melodi_command_valid`. -/
example : ∀ n < 256, commandValid (UInt8.ofNat n) = ((1 ≤ n && n ≤ 6) || (32 ≤ n && n ≤ 46)) := by decide +kernel

theorem Command.ofCode_code (c : Command) : Command.ofCode c.code = some c := by cases c <;> rfl

inductive Attribute where
  | IFINDEX | LOCAL_SERVICE | DEST_NODE | DEST_SERVICE | SOURCE_NODE | SOURCE_SERVICE | PAYLOAD | FLAGS | COOKIE |
      TTL_MS
  | PRIORITY | RX_META | ERROR | NODE_ID | KEY_SERIAL | LINK_STATE | PEER_NATIVE_LOCATOR | COLLISION_ROUND | PEER_STATE
  | GENERATION | POLICY_MODE | LINK_FAILURE | LINK_ERROR | RADIO_SERIAL | STATS | MONITOR_DIRECTION | FRAME | BUS_INFO
  | PREVIOUS_NODE_ID | POLICY_SERVICE | POLICY_ACTION | POLICY_BROADCAST | PEER_EXPIRY_MS | PEER_CAPABILITIES |
      PEER_RSSI
  | PEER_SNR | PEER_HOPS | PEER_LAST_SEEN_NS | PEER_POLICY | POLICY_RESET | FRAME_PACE_US
  deriving DecidableEq, Repr

def Attribute.number (a : Attribute) : Nat := a.ctorIdx + 1

def Attribute.all : List Attribute :=
  [.IFINDEX, .LOCAL_SERVICE, .DEST_NODE, .DEST_SERVICE, .SOURCE_NODE, .SOURCE_SERVICE, .PAYLOAD, .FLAGS, .COOKIE,
    .TTL_MS,
    .PRIORITY, .RX_META, .ERROR, .NODE_ID, .KEY_SERIAL, .LINK_STATE, .PEER_NATIVE_LOCATOR, .COLLISION_ROUND,
      .PEER_STATE,
    .GENERATION, .POLICY_MODE, .LINK_FAILURE, .LINK_ERROR, .RADIO_SERIAL, .STATS, .MONITOR_DIRECTION, .FRAME, .BUS_INFO,
    .PREVIOUS_NODE_ID, .POLICY_SERVICE, .POLICY_ACTION, .POLICY_BROADCAST, .PEER_EXPIRY_MS, .PEER_CAPABILITIES,
      .PEER_RSSI,
    .PEER_SNR, .PEER_HOPS, .PEER_LAST_SEEN_NS, .PEER_POLICY, .POLICY_RESET, .FRAME_PACE_US]

def Attribute.ofNumber : Nat → Option Attribute
  | 0 => none
  | n + 1 => Attribute.all[n]?

def Attribute.type (a : Attribute) : UInt16 := UInt16.ofNat a.number

theorem Attribute.ofNumber_type (a : Attribute) : Attribute.ofNumber a.type.toNat = some a := by cases a <;> rfl

def Attribute.nested : Attribute → Bool
  | .RX_META | .ERROR | .STATS => true
  | _ => false

def attributeWidth (type : Attribute) (length : Nat) : Bool :=
  match type with
  | .IFINDEX | .FLAGS | .TTL_MS | .KEY_SERIAL | .PEER_NATIVE_LOCATOR | .COLLISION_ROUND | .GENERATION | .LINK_ERROR
  | .PEER_EXPIRY_MS | .PEER_CAPABILITIES | .FRAME_PACE_US => length == 4
  | .LOCAL_SERVICE | .DEST_SERVICE | .SOURCE_SERVICE | .LINK_FAILURE | .POLICY_SERVICE | .PEER_RSSI | .PEER_SNR =>
    length == 2
  | .DEST_NODE | .SOURCE_NODE | .NODE_ID | .PREVIOUS_NODE_ID => length == NODE_ID_SIZE
  | .COOKIE | .PEER_LAST_SEEN_NS => length == 8
  | .PRIORITY | .LINK_STATE | .PEER_STATE | .POLICY_MODE | .POLICY_ACTION | .POLICY_BROADCAST | .POLICY_RESET |
      .PEER_HOPS
  | .PEER_POLICY | .MONITOR_DIRECTION => length == 1
  | .PAYLOAD => length ≤ MESSAGE_MTU
  | .RADIO_SERIAL => 2 ≤ length && length ≤ RADIO_SERIAL_MAX + 1
  | .BUS_INFO => 2 ≤ length && length ≤ BUS_INFO_MAX + 1
  | .RX_META | .ERROR | .STATS => 4 ≤ length
  | .FRAME => FRAME_HEADER_MIN ≤ length && length ≤ FRAME_MTU_MAX

theorem attributeWidth_fits {type : Attribute} {length : Nat} (hwidth : attributeWidth type length = true)
    (hplain : type.nested = false) : 4 + length < 2 ^ 16 := by
  cases type <;> first
    | exact absurd hplain (by decide)
    | simp only [attributeWidth, beq_iff_eq, Bool.and_eq_true, decide_eq_true_eq] at hwidth
      simp only [NODE_ID_SIZE, MESSAGE_MTU, RADIO_SERIAL_MAX, BUS_INFO_MAX, FRAME_MTU_MAX] at hwidth
      omega
    | simp only [attributeWidth, beq_iff_eq] at hwidth
      omega

/-! ## Messages -/

/-- `struct melodi_genl_message`. The pointer to a value and its length are the octets of the value. -/
structure GenlMessage where
  family : UInt16
  flags : UInt16
  sequence : UInt32
  portid : UInt32
  command : Command
  attributes : Attribute → Option Octets := fun _ => none

namespace GenlMessage

def has (m : GenlMessage) (a : Attribute) : Bool := (m.attributes a).isSome

def value (m : GenlMessage) (a : Attribute) : Octets := (m.attributes a).getD []

def octet (m : GenlMessage) (a : Attribute) : UInt8 := (m.value a).getD 0 0

end GenlMessage

def Attribute.bit (a : Attribute) : BitVec 64 := 1#64 <<< a.number

def attributeMask (as : List Attribute) : BitVec 64 := as.foldl (fun mask a => mask ||| a.bit) 0

def GenlMessage.present (m : GenlMessage) : BitVec 64 :=
  Attribute.all.foldl (fun present a => if m.has a then present ||| a.bit else present) 0

def accept (ok : Bool) : Except Errno Unit := if ok then .ok () else .error .EINVAL

def validateBind (o : ByteOrder) (m : GenlMessage) : Except Errno Unit :=
  if !m.has .IFINDEX || !m.has .LOCAL_SERVICE then .error .EINVAL
  else
    let service := o.get16 (m.value .LOCAL_SERVICE)
    accept (service != SERVICE_CONTROL && service != SERVICE_ECHO)

def validateSend (o : ByteOrder) (m : GenlMessage) : Except Errno Unit :=
  if !m.has .DEST_SERVICE || !m.has .PAYLOAD then .error .EINVAL
  else
    let flags := if m.has .FLAGS then o.get32 (m.value .FLAGS) else 0
    let broadcast := flags &&& F_BROADCAST != 0
    if flags &&& ~~~F_ALL != 0 then .error .EINVAL
    else if broadcast == m.has .DEST_NODE then .error .EINVAL
    else if broadcast && flags &&& (F_RELIABLE ||| F_ORDERED) != 0 then .error .EINVAL
    else if broadcast && BROADCAST_MTU < (m.value .PAYLOAD).length then .error .EMSGSIZE
    else if m.has .PRIORITY && PRIORITY_MAX < (m.octet .PRIORITY).toNat then .error .EINVAL
    else if m.has .TTL_MS &&
        (o.get32 (m.value .TTL_MS) == 0 || TTL_DEFAULT_MS < (o.get32 (m.value .TTL_MS)).toNat) then .error .EINVAL
    else .ok ()

def validText (good : UInt8 → Bool) (value : Octets) : Bool :=
  value.getLast? == some 0 && value.dropLast.all good

def validateRadioSerial (m : GenlMessage) : Except Errno Unit :=
  accept (m.has .RADIO_SERIAL && validText (fun c => 0x21 ≤ c && c ≤ 0x7e && c != 0x2c) (m.value .RADIO_SERIAL))

def validateBusInfo (m : GenlMessage) : Except Errno Unit :=
  accept (m.has .BUS_INFO && validText (fun c => 0x21 ≤ c && c ≤ 0x7e) (m.value .BUS_INFO))

/-- `MELODI_PEER_CHALLENGED` and `MELODI_PEER_POLICY_BLOCKED`, the last of their enumerations. -/
def PEER_CHALLENGED : UInt8 := 5
def PEER_POLICY_BLOCKED : UInt8 := 2

def MONITOR_RX : UInt8 := 0
def MONITOR_TX : UInt8 := 1

def validateSchema (o : ByteOrder) (m : GenlMessage) : Except Errno Unit :=
  let present := m.present
  let bind := attributeMask [.IFINDEX, .LOCAL_SERVICE]
  let interface := attributeMask [.IFINDEX]
  match m.command with
  | .BIND => if present != bind then .error .EINVAL else validateBind o m
  | .SEND =>
    let allowed := attributeMask [.DEST_NODE, .DEST_SERVICE, .PAYLOAD, .FLAGS, .COOKIE, .TTL_MS, .PRIORITY]
    if present &&& ~~~allowed != 0 then .error .EINVAL else validateSend o m
  | .UNBIND => accept (present == 0)
  | .GET_BINDING => accept (present == 0 || present == bind)
  | .RECV =>
    let allowed := attributeMask [.SOURCE_NODE, .SOURCE_SERVICE, .LOCAL_SERVICE, .PAYLOAD, .COOKIE, .RX_META]
    accept (present == allowed || present == allowed &&& ~~~Attribute.COOKIE.bit)
  | .ERROR =>
    let allowed := attributeMask [.IFINDEX, .LOCAL_SERVICE, .COOKIE, .ERROR]
    accept (present &&& Attribute.ERROR.bit != 0 && present &&& ~~~allowed == 0)
  | .LINK_GET =>
    let allowed := attributeMask [.LINK_STATE, .LINK_FAILURE, .LINK_ERROR]
    if present == interface then .ok ()
    else if present &&& allowed != allowed ||
        present &&& ~~~(allowed ||| attributeMask [.RADIO_SERIAL, .BUS_INFO, .FRAME_PACE_US]) != 0 then .error .EINVAL
    else if m.has .BUS_INFO then validateBusInfo m else .ok ()
  | .LINK_SET =>
    if present == attributeMask [.IFINDEX, .RADIO_SERIAL] then validateRadioSerial m else .error .EINVAL
  | .IDENTITY_LOAD =>
    let allowed := attributeMask [.IFINDEX, .NODE_ID, .KEY_SERIAL, .GENERATION]
    if present != allowed && present != allowed ||| Attribute.PREVIOUS_NODE_ID.bit then .error .EINVAL
    else accept (o.get32 (m.value .GENERATION) != 0)
  | .IDENTITY_GET_PUBLIC => accept (present == interface || present == attributeMask [.NODE_ID, .GENERATION])
  | .PEER_DUMP =>
    let allowed := attributeMask [.IFINDEX, .NODE_ID, .PEER_NATIVE_LOCATOR, .COLLISION_ROUND, .GENERATION, .PEER_STATE,
      .PEER_EXPIRY_MS, .PEER_CAPABILITIES, .PEER_RSSI, .PEER_SNR, .PEER_HOPS, .PEER_LAST_SEEN_NS, .PEER_POLICY]
    if present == interface then .ok ()
    else if present != allowed then .error .EINVAL
    else accept (m.octet .PEER_STATE ≤ PEER_CHALLENGED && m.octet .PEER_POLICY ≤ PEER_POLICY_BLOCKED)
  | .PEER_TRUST | .PEER_BLOCK | .PEER_CLEAR | .PEER_REVERIFY => accept (present == attributeMask [.IFINDEX, .NODE_ID])
  | .POLICY_GET => accept (present == interface || present == attributeMask [.POLICY_MODE])
  | .POLICY_SET =>
    if present == attributeMask [.IFINDEX, .POLICY_SERVICE, .POLICY_ACTION] then
      accept (1 ≤ m.octet .POLICY_ACTION && m.octet .POLICY_ACTION ≤ 3)
    else if present == attributeMask [.IFINDEX, .POLICY_BROADCAST] then accept (m.octet .POLICY_BROADCAST ≤ 1)
    else if present == attributeMask [.IFINDEX, .POLICY_RESET] then accept (m.octet .POLICY_RESET == 1)
    else accept (present == attributeMask [.IFINDEX, .POLICY_MODE])
  | .DISCOVER | .MONITOR_BIND => accept (present == interface)
  | .STATS_GET => accept (present == interface || present == attributeMask [.STATS])
  | .MONITOR_FRAME =>
    let allowed := attributeMask [.IFINDEX, .MONITOR_DIRECTION, .FRAME]
    if present != allowed && present != allowed ||| Attribute.RX_META.bit then .error .EINVAL
    else accept ((m.octet .MONITOR_DIRECTION == MONITOR_RX) == m.has .RX_META && m.octet .MONITOR_DIRECTION ≤
      MONITOR_TX)

/-! ## Nested attributes -/

/-- `melodi_nested_width`: the three numberings are `enum melodi_rx_meta_attribute`, `enum melodi_stat_attribute` and
`enum melodi_error_attribute`. -/
def nestedWidth (outer : Attribute) (type : Nat) (value : Octets) : Bool :=
  match outer with
  | .RX_META =>
    match type with
    | 1 => value.length == 1 && value.getD 0 0 ≤ 1
    | 2 => value.length == 2
    | 3 | 7 => value.length == 1
    | 4 | 5 => value.length == 2
    | 6 => value.length == 8
    | _ => false
  | .STATS => type ≤ STAT_A_MAX && value.length == 8
  | _ =>
    match type with
    | 1 => value.length == 4
    | 2 => 0 < value.length && value.length ≤ 128 && value.getLast? == some 0
    | _ => false

def nestedMax : Attribute → Nat
  | .RX_META => RX_A_MAX
  | .STATS => STAT_A_MAX
  | _ => ERROR_A_MAX

def nestedAttribute (outer : Attribute) (seen : BitVec 64) (a : Attr) : Except Errno (BitVec 64) :=
  let type := a.type.toNat
  if type = 0 ∧ a.value = [] then .ok seen
  else if nestedMax outer < type ∨ type = 0 ∨ 64 ≤ type ∨ seen.getLsbD type = true ∨
      nestedWidth outer type a.value = false then
    .error .EINVAL
  else if a.padding.any (· != 0) then .error .EPROTO
  else .ok (seen ||| 1#64 <<< type)

def nestedComplete (outer : Attribute) (seen : BitVec 64) : Bool :=
  match outer with
  | .RX_META => seen == (1#64 <<< (RX_A_MAX + 1)) - 2
  | .STATS => seen == (1#64 <<< (STAT_A_MAX + 1)) - 2
  | _ => seen.getLsbD 1

def validateNested (o : ByteOrder) (outer : Attribute) (value : Octets) : Except Errno Unit := do
  let seen ← foldAttributes o .EPROTO (nestedAttribute outer) value 0
  accept (nestedComplete outer seen)

/-! ## The builder -/

def genlHeader (o : ByteOrder) (length : UInt32) (family flags : UInt16) (sequence portid : UInt32) (command : UInt8) :
    Octets :=
  o.put32 length ++ o.put16 family ++ o.put16 flags ++ o.put32 sequence ++ o.put32 portid ++ [command, GENL_VERSION] ++
    o.put16 0

theorem length_genlHeader (o : ByteOrder) (length : UInt32) (family flags : UInt16) (sequence portid : UInt32)
    (command : UInt8) : (genlHeader o length family flags sequence portid command).length = GENL_HEADER := by
  simp [genlHeader, GENL_HEADER]

/-- `struct melodi_genl_builder`: the whole buffer, whose size is the capacity, and the octets used. -/
structure GenlBuilder where
  data : Octets
  length : Nat
  header : GENL_HEADER ≤ length
  room : length ≤ data.length

def GenlBuilder.octets (b : GenlBuilder) : Octets := b.data.take b.length

def genlBegin (o : ByteOrder) (buffer : Octets) (family flags : UInt16) (sequence portid : UInt32) (command : UInt8) :
    Except Errno GenlBuilder :=
  if h : buffer.length < GENL_HEADER ∨ commandValid command = false then .error .EINVAL
  else .ok
    { data := splice (List.replicate buffer.length 0) 0
        (genlHeader o (UInt32.ofNat GENL_HEADER) family flags sequence portid command)
      length := GENL_HEADER
      header := Nat.le_refl _
      room := by
        rw [length_splice (by rw [length_genlHeader, List.length_replicate]; omega), List.length_replicate]
        omega }

def genlPut (o : ByteOrder) (b : GenlBuilder) (type : UInt16) (value : Octets) : Except Errno GenlBuilder :=
  match Attribute.ofNumber type.toNat with
  | none => .error .EINVAL
  | some t =>
    if h : attributeWidth t value.length = false ∨ b.data.length - b.length < aligned (4 + value.length)
      then .error .EINVAL
    else .ok
      { data := splice b.data b.length (putAttribute o type value)
        length := b.length + aligned (4 + value.length)
        header := b.header.trans (Nat.le_add_right _ _)
        room := by
          have hroom := b.room
          have hlength := length_putAttribute o type value
          rw [length_splice (by omega)]
          omega }

def genlEnd (o : ByteOrder) (b : GenlBuilder) : Except Errno GenlBuilder :=
  if U32_MAX < b.length then .error .EINVAL
  else .ok
    { b with
      data := splice b.data 0 (o.put32 (UInt32.ofNat b.length))
      room := by
        have hroom := b.room
        have hheader : 20 ≤ b.length := b.header
        rw [length_splice (by rw [ByteOrder.length_put32]; omega)]
        exact hroom }

/-! ## The parser -/

def parseAttribute (o : ByteOrder) (m : GenlMessage) (a : Attr) : Except Errno GenlMessage :=
  let flags := a.type &&& ~~~NLA_TYPE_MASK
  match Attribute.ofNumber (a.type &&& NLA_TYPE_MASK).toNat with
  | none => .error .EINVAL
  | some type =>
    if m.has type || !attributeWidth type a.value.length then .error .EINVAL
    else if flags != (if type.nested then NLA_F_NESTED else 0) then .error .EINVAL
    else if type.nested && !(validateNested o type a.value).toBool then .error .EINVAL
    else if a.padding.any (· != 0) then .error .EPROTO
    else .ok { m with attributes := Function.update m.attributes type (some a.value) }

def genlParse (o : ByteOrder) (bytes : Octets) : Except Errno GenlMessage :=
  if bytes.length < GENL_HEADER then .error .EINVAL
  else if (o.get32 bytes).toNat ≠ bytes.length then .error .EPROTO
  else
    match Command.ofCode (bytes.getD 16 0) with
    | none => .error .EPROTO
    | some command =>
      if bytes.getD 17 0 ≠ GENL_VERSION ∨ o.get16 (bytes.drop 18) ≠ 0 then .error .EPROTO
      else do
        let m ← foldAttributes o .EPROTO (parseAttribute o) (bytes.drop GENL_HEADER)
          { family := o.get16 (bytes.drop 4)
            flags := o.get16 (bytes.drop 6)
            sequence := o.get32 (bytes.drop 8)
            portid := o.get32 (bytes.drop 12)
            command := command }
        validateSchema o m
        return m

end Melodi
