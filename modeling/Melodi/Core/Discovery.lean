import Melodi.Core.Identity
import Melodi.Core.Order
import Melodi.Proto.Signed

/-!
# Claims and sessions (`discovery.c`)

Signed frames are modelled from their decoded records on: a handler takes the record and whether
`melodi_identity_verify` accepted its signature. What the handlers draw at random is an argument.
-/

namespace Melodi
open Lib

/-! ## Sessions -/

def sessionAdvance (epoch : UInt64) : UInt64 := if epoch + 1 = 0 then 1 else epoch + 1

def Peer.sessionReset (p : Peer) (session : Nat) : Peer :=
  { p with
    transmitKey := zero32, receiveKey := zero32, ephemeralPrivate := zero32, receiveReplay := replayReset,
    sessionReady := false, handshakePending := false, sessionEpoch := sessionAdvance p.sessionEpoch,
    session := session }

def peerSessionResetLocked (d : Device) (i : Fin PEER_LIMIT) : Device :=
  match d.peers i with
  | none => d
  | some p =>
    { dataPeerResetLocked d p.nodeId with
      peers := d.peers.set i (p.sessionReset d.serial), serial := d.serial + 1 }

def resetAllSessions (d : Device) : Device := (List.finRange PEER_LIMIT).foldl peerSessionResetLocked d

def discoveryResetLocked (d : Device) : Device := { resetAllSessions d with peers := Table.empty }

def conflictMark (t : Table PEER_LIMIT Peer) (i : Fin PEER_LIMIT) : Table PEER_LIMIT Peer :=
  fun j => if j = i then (t j).map fun p => { p with conflicted := true } else t j

def conflictPair (first : Fin PEER_LIMIT) (t : Table PEER_LIMIT Peer) (second : Fin PEER_LIMIT) :
    Table PEER_LIMIT Peer :=
  match t first, t second with
  | some p, some q => if p.nativeLocator = q.nativeLocator then conflictMark (conflictMark t first) second else t
  | _, _ => t

def conflictRow (t : Table PEER_LIMIT Peer) (first : Fin PEER_LIMIT) : Table PEER_LIMIT Peer :=
  if (t first).isNone then t else ((List.finRange PEER_LIMIT).filter (first < ·)).foldl (conflictPair first) t

/-- The loops of `melodi_conflicts_recompute_locked`: the flags are set from the local locator, and then pair by
pair. -/
@[irreducible] def conflictsScan (d : Device) : Table PEER_LIMIT Peer :=
  (List.finRange PEER_LIMIT).foldl conflictRow
    fun i => (d.peers i).map fun p => { p with conflicted := p.nativeLocator = d.localNativeLocator }

def conflictsRecomputeLocked (d : Device) : Device := { d with peers := conflictsScan d }

def locatorShared (d : Device) (i : Fin PEER_LIMIT) (nativeLocator : UInt32) : Bool :=
  (List.finRange PEER_LIMIT).any fun j => j ≠ i && (d.peers j).any fun q => q.nativeLocator = nativeLocator

/-! What the loops leave, slot by slot. A turn only sets flags (`flag`), and which ones depends on the locators
alone. -/

def flag (t : Table PEER_LIMIT Peer) (f : Fin PEER_LIMIT → Bool) : Table PEER_LIMIT Peer :=
  fun i => (t i).map fun p => { p with conflicted := p.conflicted || f i }

def locators (t : Table PEER_LIMIT Peer) (i : Fin PEER_LIMIT) : Option UInt32 := (t i).map (·.nativeLocator)

def clash (l : Fin PEER_LIMIT → Option UInt32) (i j : Fin PEER_LIMIT) : Bool := (l i).isSome && decide (l i = l j)

def pairFlags (first : Fin PEER_LIMIT) (l : Fin PEER_LIMIT → Option UInt32) (second i : Fin PEER_LIMIT) : Bool :=
  (decide (i = first) || decide (i = second)) && clash l first second

def rowFlags (l : Fin PEER_LIMIT → Option UInt32) (first i : Fin PEER_LIMIT) : Bool :=
  ((List.finRange PEER_LIMIT).filter (first < ·)).any fun second => pairFlags first l second i

theorem locators_flag (t : Table PEER_LIMIT Peer) (f : Fin PEER_LIMIT → Bool) : locators (flag t f) = locators t := by
  funext i
  simp [locators, flag, Function.comp_def]

theorem flag_flag (t : Table PEER_LIMIT Peer) (f g : Fin PEER_LIMIT → Bool) :
    flag (flag t f) g = flag t fun i => f i || g i := by
  funext i
  simp [flag, Function.comp_def, Bool.or_assoc]

theorem flag_false (t : Table PEER_LIMIT Peer) : flag t (fun _ => false) = t := by
  funext i
  simp [flag]

theorem foldl_flag {α : Type} {turn : Table PEER_LIMIT Peer → α → Table PEER_LIMIT Peer}
    {f : (Fin PEER_LIMIT → Option UInt32) → α → Fin PEER_LIMIT → Bool}
    (hturn : ∀ t a, turn t a = flag t (f (locators t) a)) (as : List α) (t : Table PEER_LIMIT Peer) :
    as.foldl turn t = flag t fun i => as.any fun a => f (locators t) a i := by
  induction as generalizing t with
  | nil => exact (flag_false t).symm
  | cons a as ih =>
    rw [List.foldl_cons, ih, hturn, flag_flag, locators_flag]
    rfl

theorem conflictMark_flag (t : Table PEER_LIMIT Peer) (i : Fin PEER_LIMIT) :
    conflictMark t i = flag t (fun j => j = i) := by
  funext j
  by_cases h : j = i <;> simp [conflictMark, flag, h]

theorem conflictPair_flag (first : Fin PEER_LIMIT) (t : Table PEER_LIMIT Peer) (second : Fin PEER_LIMIT) :
    conflictPair first t second = flag t (pairFlags first (locators t) second) := by
  unfold conflictPair pairFlags
  split
  · rename_i p q hp hq
    have hclash : clash (locators t) first second = decide (p.nativeLocator = q.nativeLocator) := by
      simp [clash, locators, hp, hq]
    rw [hclash]
    split_ifs with h
    · simp only [conflictMark_flag, flag_flag, h, decide_true, Bool.and_true]
    · simp only [h, decide_false, Bool.and_false]
      exact (flag_false t).symm
  · rename_i hnone
    have hclash : clash (locators t) first second = false := by
      cases hp : t first with
      | none => simp [clash, locators, hp]
      | some p =>
        cases hq : t second with
        | none => simp [clash, locators, hp, hq]
        | some q => exact absurd hq (hnone p q hp)
    simp only [hclash, Bool.and_false]
    exact (flag_false t).symm

theorem conflictRow_flag (t : Table PEER_LIMIT Peer) (first : Fin PEER_LIMIT) :
    conflictRow t first = flag t (rowFlags (locators t) first) := by
  unfold conflictRow
  split_ifs with hnone
  · have hclash : ∀ second, clash (locators t) first second = false := by
      intro second
      simp [clash, locators, Option.isNone_iff_eq_none.mp hnone]
    have hflags : rowFlags (locators t) first = fun _ => false := by
      funext i
      simp [rowFlags, pairFlags, hclash]
    rw [hflags, flag_false]
  · exact foldl_flag (conflictPair_flag first) _ t

theorem conflictsRecomputeLocked_apply (d : Device) (i : Fin PEER_LIMIT) :
    (conflictsRecomputeLocked d).peers i = (d.peers i).map fun p =>
      { p with conflicted := p.nativeLocator = d.localNativeLocator || locatorShared d i p.nativeLocator } := by
  unfold conflictsRecomputeLocked conflictsScan
  dsimp only
  rw [foldl_flag conflictRow_flag]
  cases hp : d.peers i with
  | none => simp [flag, hp]
  | some p =>
    have hlocators : ∀ j, locators (fun i => (d.peers i).map fun p =>
        { p with conflicted := p.nativeLocator = d.localNativeLocator }) j = (d.peers j).map (·.nativeLocator) := by
      intro j
      simp [locators, Function.comp_def]
    simp only [flag, hp, Option.map_some, Option.some.injEq]
    congr 2
    rw [Bool.eq_iff_iff]
    simp only [List.any_eq_true, List.mem_finRange, true_and, List.mem_filter, decide_eq_true_eq, Bool.and_eq_true,
      Bool.or_eq_true, rowFlags, pairFlags, clash, hlocators, locatorShared, ne_eq, Option.isSome_map, decide_not,
      Bool.not_eq_true', decide_eq_false_iff_not, Option.any_eq_true]
    constructor
    · rintro ⟨first, second, hlt, rfl | rfl, hsome, hsame⟩
      · rw [hp, Option.map_some, eq_comm, Option.map_eq_some_iff] at hsame
        exact ⟨second, hlt.ne', hsame⟩
      · rw [hp, Option.map_some, Option.map_eq_some_iff] at hsame
        exact ⟨first, hlt.ne, hsame⟩
    · rintro ⟨j, hne, q, hq, hsame⟩
      rcases lt_or_gt_of_ne hne with hlt | hlt
      · exact ⟨j, i, hlt, .inr rfl, by simp [hq], by simp [hp, hq, hsame]⟩
      · exact ⟨i, j, hlt, .inl rfl, by simp [hp], by simp [hp, hq, hsame]⟩

def occupiedLocators (d : Device) : List UInt32 :=
  (List.finRange PEER_LIMIT).filterMap fun i => (d.peers i).map (·.nativeLocator)

def localReassignLocked (P : Platform) (d : Device) : Device × Except Errno Unit :=
  if d.localCollisionRound.toNat = U32_MAX then (d, .error .EOVERFLOW)
  else
    match mapNativeLocatorAvailable P d.meshDomain d.nodeId (d.localCollisionRound.toNat + 1)
        (occupiedLocators d) with
    | .error e => (d, .error e)
    | .ok (nativeLocator, round) =>
      let d := resetAllSessions
        { d with localNativeLocator := nativeLocator, localCollisionRound := UInt32.ofNat round,
                 conflictPending := true }
      (dataOrderResetLocked { d with rx := dataReassemblyResetLocked d.rx }, .ok ())

/-! ## Claims -/

/-- What a signed frame says of its sender. -/
structure Claim where
  nodeId : NodeId
  nativeLocator : UInt32
  linkLocator : UInt32
  round : UInt32
  generation : UInt32
  counter : UInt64
  deriving DecidableEq, Repr

structure Claimed where
  slot : Fin PEER_LIMIT
  localChanged : Bool
  localCollision : Bool

def Claim.matchesPeer (c : Claim) (p : Peer) : Bool :=
  c.generation = p.generation && c.nativeLocator = p.nativeLocator && c.linkLocator = p.linkLocator &&
    c.round = p.collisionRound

def Claim.newPeer (c : Claim) (serial : Nat) : Peer :=
  { nodeId := c.nodeId, nativeLocator := c.nativeLocator, linkLocator := c.linkLocator, collisionRound := c.round,
    generation := c.generation, controlCounter := c.counter, session := serial, residence := serial }

def Claim.update (c : Claim) (p : Peer) : Peer :=
  { p with nodeId := c.nodeId, nativeLocator := c.nativeLocator, linkLocator := c.linkLocator,
           collisionRound := c.round, generation := c.generation, controlCounter := c.counter }

def claimWrite (d : Device) (c : Claim) (i : Fin PEER_LIMIT) : Device :=
  match d.peers i with
  | none => { d with peers := d.peers.set i (c.newPeer d.serial), serial := d.serial + 1 }
  | some p =>
    let d := if c.matchesPeer p then d else peerSessionResetLocked d i
    { d with peers := fun j => if j = i then (d.peers i).map c.update else d.peers j }

def claimCheck (P : Platform) (d : Device) (c : Claim) : Except Errno (Fin PEER_LIMIT) :=
  if c.linkLocator = 0 ∨ c.linkLocator = LINK_LOCATOR_BROADCAST then .error .EPROTO
  else
    match mapNativeLocator P d.meshDomain c.nodeId c.round.toNat with
    | .error e => .error e
    | .ok (derived, round) =>
      if round ≠ c.round.toNat ∨ derived ≠ c.nativeLocator then .error .EPROTO
      else if c.nodeId = d.nodeId then .error .EALREADY
      else
        match peerSlot d c.nodeId with
        | none => .error .ENOSPC
        | some i =>
          if (d.peers i).any (fun p => c.generation < p.generation ||
              (c.generation = p.generation && c.counter ≤ p.controlCounter)) then .error .EALREADY
          else .ok i

def claimLocked (P : Platform) (d : Device) (c : Claim) (resolveLocal : Bool) : Device × Except Errno Claimed :=
  match claimCheck P d c with
  | .error e => (d, .error e)
  | .ok i =>
    let d := claimWrite d c i
    let collision : Bool := c.nativeLocator = d.localNativeLocator
    if collision ∧ c.nodeId < d.nodeId ∧ resolveLocal then
      match localReassignLocked P d with
      | (d, .error e) => (conflictsRecomputeLocked d, .error e)
      | (d, .ok ()) => (conflictsRecomputeLocked d, .ok ⟨i, true, collision⟩)
    else
      let d := conflictsRecomputeLocked d
      if (d.peers i).any (·.conflicted) ∧ resolveLocal = false then (d, .error .EADDRINUSE)
      else (d, .ok ⟨i, false, collision⟩)

/-! ## HELLO, CONFLICT and CONTROL -/

def responderLocked (d : Device) (peer : NodeId) : Bool := peer < d.nodeId

def WireHello.claim (hello : WireHello) (link : RxMeta) : Claim :=
  ⟨hello.nodeId, hello.common.sourceNativeLocator, link.sourceLocator, hello.collisionRound,
    hello.common.identityGeneration, hello.common.counter⟩

structure HelloResult where
  conflicted : Bool
  responder : Bool
  localChanged : Bool
  localCollision : Bool

def receiveHello (P : Platform) (d : Device) (hello : WireHello) (link : RxMeta) (verified : Bool) (jiffies : UInt64) :
    Device × Except Errno HelloResult :=
  if hello.expirySeconds = 0 ∨ PEER_EXPIRY_MAX_SECONDS < hello.expirySeconds.toNat then (d, .error .EPROTO)
  else if verified = false then (d, .error .EKEYREJECTED)
  else if hello.meshDomain ≠ d.meshDomain then (d, .error .EXDEV)
  else
    match claimLocked P d (hello.claim link) true with
    | (d, .error e) => (d, .error e)
    | (d, .ok c) =>
      match d.peers c.slot with
      | none => (d, .error .EPROTO)
      | some p =>
        let expires := jiffies + P.msecsToJiffies (hello.expirySeconds.toNat * 1000)
        let d := { d with peers := d.peers.set c.slot { p with expires := expires } }
        let d := if p.sessionReady then peerSessionResetLocked d c.slot else d
        (d, .ok ⟨p.conflicted, responderLocked d p.nodeId, c.localChanged, c.localCollision⟩)

def WireControl.claim (control : WireControl) (link : RxMeta) : Claim :=
  ⟨control.nodeId, control.common.sourceNativeLocator, link.sourceLocator, control.collisionRound,
    control.common.identityGeneration, control.common.counter⟩

def receiveControl (P : Platform) (d : Device) (control : WireControl) (link : RxMeta) (verified : Bool)
    (jiffies : UInt64) : Device × Except Errno Bool :=
  if control.opcode ≠ CONTROL_PROBE then (d, .error .EPROTO)
  else if verified = false then (d, .error .EKEYREJECTED)
  else if control.meshDomain ≠ d.meshDomain then (d, .error .EXDEV)
  else
    match claimLocked P d (control.claim link) true with
    | (d, .error e) => (d, .error e)
    | (d, .ok c) =>
      let expires := jiffies + P.msecsToJiffies (CONTROL_EXPIRY_SECONDS * 1000)
      ({ d with peers := fun j => if j = c.slot then (d.peers j).map fun p =>
            if p.expires = 0 ∨ timeBefore p.expires expires then { p with expires := expires } else p
          else d.peers j }, .ok c.localChanged)

def peerExpire (jiffies : UInt64) (d : Device) (i : Fin PEER_LIMIT) : Device :=
  match d.peers i with
  | none => d
  | some p =>
    if timeBefore jiffies p.expires then d
    else
      let d := peerSessionResetLocked d i
      { d with peers := d.peers.clear i }

def peerExpiryWork (d : Device) (jiffies : UInt64) : Device :=
  conflictsRecomputeLocked ((List.finRange PEER_LIMIT).foldl (peerExpire jiffies) d)

end Melodi
