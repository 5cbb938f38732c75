import Mathlib

/-!
# Octets, error codes and the constants of `melodi.h`

Byte strings are lists of octets. A function that returns a negative `errno` in the source returns it here as an
`Errno`. Definitions are named after what they model: `replayMark` is `melodi_replay_mark`, `WireData` is
`struct melodi_wire_data`.
-/

namespace Melodi

abbrev Octets := List UInt8

def zero32 : Octets := List.replicate 32 0

abbrev NodeId := Octets

inductive Errno where
  | EINVAL | EPROTO | EMSGSIZE | EALREADY | ENOSPC | ENOMEM | ENOBUFS | EOVERFLOW | ERANGE | EIO | EACCES
  | EAGAIN | ENOENT | ENOKEY | ENETDOWN | ENODEV | ENONET | EHOSTUNREACH | EKEYREJECTED | EKEYREVOKED | ESTALE
  | EXDEV | EADDRINUSE | EOPNOTSUPP | ETIMEDOUT | ECONNREFUSED | EPERM | EBADMSG | EEXIST | EBUSY
  deriving DecidableEq, Repr

/-! ## Limits of the interface (`melodi.h`) -/

def NODE_ID_SCHEME_ED25519 : UInt8 := 1
def NODE_ID_SIZE : Nat := 33
def MESH_DOMAIN_SIZE : Nat := 32
def MESSAGE_MTU : Nat := 4096
def BROADCAST_MTU : Nat := 512
def FRAME_MTU_MAX : Nat := MESSAGE_MTU + 80
def SERVICE_CONTROL : UInt16 := 0
def SERVICE_ECHO : UInt16 := 65535
def PRIORITY_MAX : Nat := 3
def TTL_DEFAULT_MS : Nat := 30000

/-! ## Send flags (`enum melodi_send_flag`) -/

def F_RELIABLE : UInt32 := 0x01
def F_ORDERED : UInt32 := 0x02
def F_AUTH_REQUIRED : UInt32 := 0x04
def F_BROADCAST : UInt32 := 0x08
def F_DONTWAIT : UInt32 := 0x10
def F_ALL : UInt32 := 0x1f

/-! ## Locators (`mapping.h`, `core.h`) -/

def NATIVE_LOCATOR_INVALID : UInt32 := 0
def NATIVE_LOCATOR_BROADCAST : UInt32 := 0xffffffff
def LINK_LOCATOR_BROADCAST : UInt32 := 0xffffffff

def U32_MAX : Nat := 2 ^ 32 - 1
def U64_MAX : Nat := 2 ^ 64 - 1

end Melodi
