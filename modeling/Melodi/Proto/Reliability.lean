import Melodi.Proto.Wire

/-!
# Retransmission (`proto/reliability.c`)
-/

namespace Melodi
open Lib

def RELIABLE_RETRY_LIMIT : Nat := 4
def RELIABLE_DEADLINE_MS : Nat := 5000
def RELIABLE_PACE_BASE_MS : Nat := 100
def RELIABLE_PACE_LIMIT_MS : Nat := 30000

def retryDelays : List Nat := [200, 500, 1000, 2000]

structure ReliabilityState where
  messageId : UInt64 := 0
  acknowledged : BitVec 64 := 0
  deadlineMs : Nat := 0
  nextRetryMs : Nat := 0
  generation : UInt32 := 0
  paceMs : Nat := 0
  fragmentCount : Nat := 0
  retries : Nat := 0
  active : Bool := false
  deriving DecidableEq, Repr

def reliabilityAdd (value amount : Nat) : Except Errno Nat :=
  if U64_MAX - amount < value then .error .EOVERFLOW else .ok (value + amount)

def reliabilityScale (paceMs nominalMs : Nat) : Nat :=
  nominalMs * min (max paceMs RELIABLE_PACE_BASE_MS) RELIABLE_PACE_LIMIT_MS / RELIABLE_PACE_BASE_MS

def reliabilityDelay (s : ReliabilityState) : Nat :=
  reliabilityScale s.paceMs (retryDelays.getD (min s.retries (RELIABLE_RETRY_LIMIT - 1)) 0)

def reliabilityLifetime (paceMs ttlMs : Nat) : Nat :=
  let deadline := reliabilityScale paceMs RELIABLE_DEADLINE_MS
  if ttlMs ≠ 0 ∧ ttlMs < deadline then ttlMs else deadline

def reliabilityStart (messageId : UInt64) (generation : UInt32) (fragmentCount nowMs paceMs ttlMs : Nat) :
    Except Errno ReliabilityState :=
  if messageId = 0 ∨ generation = 0 ∨ fragmentCount = 0 ∨ 64 < fragmentCount then .error .EINVAL
  else
    match reliabilityAdd nowMs (reliabilityLifetime paceMs ttlMs),
        reliabilityAdd nowMs (reliabilityScale paceMs (retryDelays.getD 0 0)) with
    | .error e, _ => .error e
    | .ok _, .error e => .error e
    | .ok deadlineMs, .ok nextRetryMs =>
      .ok { messageId := messageId, generation := generation, fragmentCount := fragmentCount, paceMs := paceMs,
            deadlineMs := deadlineMs, nextRetryMs := nextRetryMs, active := true }

def reliabilityAck (s : ReliabilityState) (messageId : UInt64) (generation : UInt32) (fragmentCount : Nat)
    (bitmap : BitVec 64) (rejected : Bool) : ReliabilityState × Except Errno Bool :=
  if s.active = false ∨ s.messageId ≠ messageId ∨ s.generation ≠ generation ∨ s.fragmentCount ≠ fragmentCount then
    (s, .error .ENOENT)
  else if bitmap = 0 ∨ bitmap &&& ~~~fragmentMask fragmentCount ≠ 0 then (s, .error .EPROTO)
  else
    let s := { s with acknowledged := s.acknowledged ||| bitmap }
    if rejected then ({ s with active := false }, .error .ECONNREFUSED)
    else if s.acknowledged = fragmentMask fragmentCount then ({ s with active := false }, .ok true)
    else (s, .ok false)

def reliabilityPoll (s : ReliabilityState) (nowMs : Nat) (queued : Bool) :
    ReliabilityState × Except Errno (Option (BitVec 64)) :=
  if s.active = false then (s, .error .ENOENT)
  else if s.deadlineMs ≤ nowMs then ({ s with active := false }, .error .ETIMEDOUT)
  else if queued then
    match reliabilityAdd nowMs (reliabilityDelay s) with
    | .error e => (s, .error e)
    | .ok nextRetryMs => ({ s with nextRetryMs := nextRetryMs }, .ok none)
  else if nowMs < s.nextRetryMs then (s, .ok none)
  else if RELIABLE_RETRY_LIMIT ≤ s.retries then ({ s with active := false }, .error .ETIMEDOUT)
  else
    let missing := fragmentMask s.fragmentCount &&& ~~~s.acknowledged
    let s := { s with retries := s.retries + 1 }
    if s.retries = RELIABLE_RETRY_LIMIT then ({ s with nextRetryMs := s.deadlineMs }, .ok (some missing))
    else
      match reliabilityAdd nowMs (reliabilityDelay s) with
      | .error e => ({ s with active := false }, .error e)
      | .ok nextRetryMs => ({ s with nextRetryMs := nextRetryMs }, .ok (some missing))

end Melodi
