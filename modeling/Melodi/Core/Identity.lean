import Melodi.Core.Device

/-!
# Node identities and native locators (`main.c`, `mapping.c`)
-/

namespace Melodi

def NODE_KEY_SIZE : Nat := 32

def NODE_KEY_PRIME : Octets := 0xed :: (List.replicate 30 0xff ++ [0x7f])

def keyBelowPrime (encoded : Octets) : Nat → Option Bool
  | 0 => none
  | n + 1 =>
    if encoded.getD n 0 < NODE_KEY_PRIME.getD n 0 then some true
    else if NODE_KEY_PRIME.getD n 0 < encoded.getD n 0 then some false
    else keyBelowPrime encoded n

def nodeIdValid (P : Platform) (node : NodeId) : Bool :=
  let key := (node.drop 1).take NODE_KEY_SIZE
  if node.getD 0 0 ≠ NODE_ID_SCHEME_ED25519 then false
  else if key.all (· = 0) || key.all (· = 0xff) then false
  else (keyBelowPrime (key.set 31 (key.getD 31 0 &&& 0x7f)) NODE_KEY_SIZE).getD (P.publicKeyCheck key)

def mappingNodeValid (node : NodeId) : Bool :=
  node.getD 0 0 = NODE_ID_SCHEME_ED25519 && !node.all (· = 0) && !node.all (· = 0xff)

def roundLocator (P : Platform) (domain : Octets) (node : NodeId) (round : Nat) : Option UInt32 :=
  let candidate := P.locatorHash domain node (UInt32.ofNat round)
  if candidate ≠ NATIVE_LOCATOR_INVALID ∧ candidate ≠ NATIVE_LOCATOR_BROADCAST then some candidate else none

def mapLocatorFrom (P : Platform) (domain : Octets) (node : NodeId) : Nat → Nat → Except Errno (UInt32 × Nat)
  | 0, round => (roundLocator P domain node round).elim (.error .EOVERFLOW) fun candidate => .ok (candidate, round)
  | fuel + 1, round =>
    (roundLocator P domain node round).elim (mapLocatorFrom P domain node fuel (round + 1)) fun candidate =>
      .ok (candidate, round)

def mapNativeLocator (P : Platform) (domain : Octets) (node : NodeId) (firstRound : Nat) :
    Except Errno (UInt32 × Nat) :=
  if mappingNodeValid node = false then .error .EINVAL
  else mapLocatorFrom P domain node (U32_MAX - firstRound) firstRound

def mapAvailableFrom (P : Platform) (domain : Octets) (node : NodeId) (occupied : List UInt32) :
    Nat → Nat → Except Errno (UInt32 × Nat)
  | 0, round =>
    match mapNativeLocator P domain node round with
    | .error e => .error e
    | .ok (candidate, round) => if occupied.contains candidate then .error .EOVERFLOW else .ok (candidate, round)
  | fuel + 1, round =>
    match mapNativeLocator P domain node round with
    | .error e => .error e
    | .ok (candidate, round) =>
      if occupied.contains candidate = false then .ok (candidate, round)
      else if round = U32_MAX then .error .EOVERFLOW
      else mapAvailableFrom P domain node occupied fuel (round + 1)

def mapNativeLocatorAvailable (P : Platform) (domain : Octets) (node : NodeId) (firstRound : Nat)
    (occupied : List UInt32) : Except Errno (UInt32 × Nat) :=
  mapAvailableFrom P domain node occupied (U32_MAX - firstRound) firstRound

end Melodi
