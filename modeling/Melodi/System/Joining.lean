import Melodi.Core.Queue
import Melodi.System.Claims

/-!
# What a node answers to a HELLO and to a CHALLENGE

The calls around the critical sections of the discovery frames: what `melodi_receive_hello` goes on with once the lock
is dropped, the work it schedules, and the RESPONSE that `melodi_receive_challenge` sends after its section. A call is
followed from its first section to its result with nothing else in between.

* `challenge_refused_keeps_session` : a CHALLENGE that fails leaves the session alone exactly when the frame itself is
refused;
* `hello_answered_alone` : the work answers exactly when no session with any other peer is established.
-/

namespace Melodi
open Lib Scenario
variable {c : Claim} {verified : Bool} {secret : Octets}

/-! ## Frames of the control plane -/

/-- What the outside decides when a signed frame is sent: the interface, its namespace, the signature, the
allocations. -/
structure FrameAmbient where
  up : Bool := true
  net : Nat := 0
  signature : Except Errno Octets
  skb : Bool := true
  alloc : Bool := true

def discoverySendMeta (d : Device) (source destination : UInt32) : Except Errno TxMeta :=
  if d.transportReady = false ∨ source ≠ d.localNativeLocator then .error .ENETDOWN
  else if destination = NATIVE_LOCATOR_BROADCAST then
    .ok { sourceLocator := d.localLinkLocator, destinationLocator := LINK_LOCATOR_BROADCAST }
  else
    match (d.peers.find? fun p => p.nativeLocator = destination).bind d.peers with
    | none => .error .EHOSTUNREACH
    | some p => .ok { sourceLocator := d.localLinkLocator, destinationLocator := p.linkLocator }

def discoverySendFrame (d : Device) (q : TxQueue) (nowMs : Nat) (frame : Octets) (source destination : UInt32)
    (a : FrameAmbient) : TxQueue × Except Errno Unit :=
  match discoverySendMeta d source destination with
  | .error e => (q, .error e)
  | .ok metadata =>
    if a.skb = false then (q, .error .ENOMEM) else coreSend q a.up a.net frame metadata nowMs a.alloc

def sendAuth (d : Device) (q : TxQueue) (nowMs : Nat) (auth : WireAuth) (a : FrameAmbient) :
    TxQueue × Except Errno Unit :=
  match wireEncodeAuth { auth with signature := List.replicate WIRE_SIGNATURE_SIZE 0 } with
  | .error e => (q, .error e)
  | .ok frame =>
    match a.signature with
    | .error e => (q, .error e)
    | .ok signature =>
      discoverySendFrame d q nowMs (frame.take WIRE_AUTH_SIGNED_SIZE ++ signature) auth.common.sourceNativeLocator
        auth.common.destinationNativeLocator a

/-! ## CHALLENGE -/

def receiveChallengeCall (P : Platform) (d : Device) (q : TxQueue) (nowMs : Nat) (auth : WireAuth) (link : RxMeta)
    (verified : Bool) (secret : Octets) (a : FrameAmbient) : Device × TxQueue × Except Errno Unit :=
  match receiveChallenge P d auth link verified secret with
  | (d, .error e) => (d, q, .error e)
  | (d, .ok response) => (d, sendAuth d q nowMs response a)

def Peer.sessionState (p : Peer) : Octets × Octets × Bool × UInt64 × ReplayWindow :=
  (p.transmitKey, p.receiveKey, p.sessionReady, p.sessionEpoch, p.receiveReplay)

/-- The frame itself is refused. -/
def challengeRefused (P : Platform) (d : Device) (auth : WireAuth) (link : RxMeta) (verified : Bool) (secret : Octets) :
    Bool :=
  auth.common.frameClass ≠ WIRE_CHALLENGE || !verified || (P.generatePublic secret).isNone ||
    (P.curve25519 secret auth.ephemeralKey).isNone || !(authValidate P d auth link).2.isOk ||
    (announcedChallenge d auth.replyTo).isNone

/-- A device that a claim may have left: the record of the peer holds the session it held, and the announcements are
the same. -/
def SessionKept (d : Device) (i : Fin PEER_LIMIT) (p : Peer) (d' : Device) : Prop :=
  (∃ p', d'.peers i = some p' ∧ p'.sessionState = p.sessionState) ∧
    ∀ replyTo, announcedChallenge d' replyTo = announcedChallenge d replyTo

section Refused

variable {P : Platform} {d d' : Device} {auth : WireAuth} {link : RxMeta} {i : Fin PEER_LIMIT} {p : Peer}

theorem SessionKept.refl (hp : d.peers i = some p) : SessionKept d i p d := ⟨⟨p, hp, rfl⟩, fun _ => rfl⟩

theorem claimLocked_sessionKept (hslot : peerByNode d c.nodeId = some i) (hp : d.peers i = some p)
    (hm : c.matchesPeer p = true) : SessionKept d i p (claimLocked P d c false).1 := by
  have hwritten : SessionKept d i p (conflictsRecomputeLocked (claimWrite d c i)) := by
    have hrecord : (claimWrite d c i).peers i = some (c.update p) := by
      rw [claimWrite_matches hp hm]
      exact Table.set_self _ _ _
    refine ⟨?_, fun _ => ?_⟩
    · rw [conflictsRecomputeLocked_apply, hrecord, Option.map_some]
      exact ⟨_, rfl, rfl⟩
    · rw [claimWrite_matches hp hm]
      rfl
  unfold claimLocked
  cases hcheck : claimCheck P d c with
  | error e => exact SessionKept.refl hp
  | ok j =>
    have hj : j = i := by
      have h := claimCheck_slot hcheck
      rw [peerSlot, hslot, Option.some_or, Option.some.injEq] at h
      exact h.symm
    subst hj
    dsimp only
    rw [if_neg (by simp)]
    split_ifs
    · exact hwritten
    · exact hwritten

theorem authValidate_sessionKept (hslot : peerByNode d auth.sourceNodeId = some i) (hp : d.peers i = some p)
    (hm : (auth.claim link).matchesPeer p = true) : SessionKept d i p (authValidate P d auth link).1 := by
  rcases authValidate_eq P d auth link with ⟨-, heq⟩ | ⟨-, e, heq⟩
  · rw [heq]
    exact claimLocked_sessionKept (c := auth.claim link) hslot hp hm
  · rw [heq]
    exact SessionKept.refl hp

theorem sessionAdvance_ne (epoch : UInt64) : sessionAdvance epoch ≠ epoch := by
  unfold sessionAdvance
  split_ifs with h
  · rintro rfl
    exact absurd h (by decide)
  intro heq
  have hnat := congrArg UInt64.toNat heq
  rw [UInt64.toNat_add, UInt64.toNat_one] at hnat
  have hlt := epoch.toNat_lt
  omega

theorem receiveChallenge_refused (hslot : peerByNode d auth.sourceNodeId = some i) (hp : d.peers i = some p)
    (hm : (auth.claim link).matchesPeer p = true) (h : challengeRefused P d auth link verified secret = true) :
    SessionKept d i p (receiveChallenge P d auth link verified secret).1 := by
  have hkept := authValidate_sessionKept (P := P) hslot hp hm
  unfold receiveChallenge
  split_ifs with hclass hverified
  · exact SessionKept.refl hp
  · exact SessionKept.refl hp
  split
  · rename_i ephemeralPublic shared hpublic hshared
    split
    · rename_i d₁ e hvalid
      exact (congrArg Prod.fst hvalid ▸ hkept :)
    rename_i d₁ c hvalid
    rw [hvalid] at hkept
    have hnone : announcedChallenge d₁ auth.replyTo = none := by
      simpa [challengeRefused, not_not.mp hclass, hverified, hpublic, hshared, hvalid, Except.isOk, Except.toBool,
        hkept.2]
        using h
    rw [hnone]
    split
    · rename_i heq
      cases heq
    · exact hkept
  · exact SessionKept.refl hp

theorem receiveChallenge_installs (hslot : peerByNode d auth.sourceNodeId = some i) (hp : d.peers i = some p)
    (hm : (auth.claim link).matchesPeer p = true) (h : challengeRefused P d auth link verified secret = false) :
    ∃ p', (receiveChallenge P d auth link verified secret).1.peers i = some p' ∧
      p'.sessionEpoch = sessionAdvance p.sessionEpoch := by
  have hkept := authValidate_sessionKept (P := P) hslot hp hm
  simp only [challengeRefused, Bool.or_eq_false_iff, decide_eq_false_iff_not, not_not, Bool.not_eq_false',
    Option.isNone_eq_false_iff, Option.isSome_iff_exists] at h
  obtain ⟨⟨⟨⟨⟨hclass, hverified⟩, ephemeralPublic, hpublic⟩, shared, hshared⟩, hvalid⟩, announced, hannounced⟩ := h
  unfold receiveChallenge
  rw [if_neg (not_not.mpr hclass), if_neg (by simp [hverified]), hpublic, hshared]
  cases hauth : authValidate P d auth link with
  | mk d₁ result =>
    cases result with
    | error e => simp [hauth, Except.isOk, Except.toBool] at hvalid
    | ok c =>
      have hc : c.slot = i := by
        have hs : peerSlot d auth.sourceNodeId = some c.slot := by
          rcases authValidate_eq P d auth link with ⟨-, heq⟩ | ⟨-, e, heq⟩
          · exact claimLocked_slot (c := auth.claim link) (heq.symm.trans hauth)
          · cases heq.symm.trans hauth
        rw [peerSlot, hslot, Option.some_or, Option.some.injEq] at hs
        exact hs.symm
      rw [hauth] at hkept
      obtain ⟨⟨p₁, hp₁, hstate⟩, hreply⟩ := hkept
      have hepoch : p₁.sessionEpoch = p.sessionEpoch := congrArg (·.2.2.2.1) hstate
      have hinstalled : ∀ tk rk, (installSession d₁ i p₁ tk rk).peers i = some (p₁.sessionStart tk rk d₁.serial) :=
        fun tk rk => Table.set_self _ _ _
      dsimp only at hp₁ hreply ⊢
      rw [hc, hp₁, hreply, hannounced]
      dsimp only
      split
      · exact ⟨_, hinstalled _ _, congrArg sessionAdvance hepoch⟩
      rename_i counter d₂ hcounter
      unfold counterNextLocked at hcounter
      split_ifs at hcounter
      obtain ⟨-, rfl⟩ := Prod.mk.inj (Except.ok.inj hcounter)
      exact ⟨_, hinstalled _ _, congrArg sessionAdvance hepoch⟩

end Refused

/-- A CHALLENGE that fails leaves the keys of the peer alone exactly when the frame itself is refused. -/
theorem challenge_refused_keeps_session {P : Platform} {d d' : Device} {q q' : TxQueue} {nowMs : Nat} {auth : WireAuth}
    {link : RxMeta} {verified : Bool} {secret : Octets} {a : FrameAmbient} {e : Errno} {i : Fin PEER_LIMIT} {p : Peer}
    (hslot : peerByNode d auth.sourceNodeId = some i) (hp : d.peers i = some p)
    (hmatches : (auth.claim link).matchesPeer p = true)
    (hfails : receiveChallengeCall P d q nowMs auth link verified secret a = (d', q', .error e)) :
    (∃ p', d'.peers i = some p' ∧ p'.sessionState = p.sessionState) ↔
      challengeRefused P d auth link verified secret = true := by
  have hd' : d' = (receiveChallenge P d auth link verified secret).1 := by
    unfold receiveChallengeCall at hfails
    split at hfails <;> rename_i heq <;> rw [heq] <;> exact (congrArg Prod.fst hfails).symm
  subst hd'
  constructor
  · rintro ⟨p', hp', hstate⟩
    by_contra hrefused
    obtain ⟨p₁, hp₁, hepoch⟩ := receiveChallenge_installs hslot hp hmatches (Bool.not_eq_true _ ▸ hrefused)
    rw [hp', Option.some.injEq] at hp₁
    have hsame : p'.sessionEpoch = p.sessionEpoch := congrArg (·.2.2.2.1) hstate
    exact sessionAdvance_ne p.sessionEpoch (by rw [← hepoch, ← hp₁, hsame])
  · intro hrefused
    exact (receiveChallenge_refused hslot hp hmatches hrefused).1

namespace Scenario

def paired : Device := (run (step Platform.plain) Node.initial established).dev

def sessionOf (d : Device) : Option (Octets × Octets × Bool × UInt64 × ReplayWindow) :=
  (d.peers ⟨0, by decide⟩).map Peer.sessionState

def rechallenge (replyTo : Octets) : WireAuth := { challenge 3 with replyTo := replyTo }

def challengedAgain (replyTo : Octets) : Device × TxQueue × Except Errno Unit :=
  receiveChallengeCall Platform.plain paired {} 0 (rechallenge replyTo) link true [8]
    { up := false, signature := .ok [] }

end Scenario

/-- A challenge that answers an announcement never made is refused, and the session stays. -/
theorem challenge_refused_keeps_session_stale :
    (challengedAgain [0]).2.2 = .error .EKEYREJECTED ∧
      ∃ i p p', paired.peers i = some p ∧ p.sessionReady = true ∧
        (challengedAgain [0]).1.peers i = some p' ∧ p'.sessionState = p.sessionState := by
  have hslot : peerByNode paired (rechallenge [0]).sourceNodeId = some ⟨0, by decide⟩ := by
    decide +kernel
  have hrecord : (paired.peers ⟨0, by decide⟩).any (fun p =>
      p.sessionReady && ((rechallenge [0]).claim link).matchesPeer p) = true := by decide +kernel
  obtain ⟨p, hp, hready⟩ := (Option.any_eq_true ..).mp hrecord
  rw [Bool.and_eq_true] at hready
  have hfails : (challengedAgain [0]).2.2 = .error .EKEYREJECTED := by decide +kernel
  have hcall : receiveChallengeCall Platform.plain paired {} 0 (rechallenge [0])
      link true [8] { up := false, signature := .ok [] } = (_, _, .error .EKEYREJECTED) :=
      Prod.ext rfl (Prod.ext rfl hfails)
  have hrefused : challengeRefused Platform.plain paired (rechallenge [0]) link true [8] = true := by
    decide +kernel
  obtain ⟨p', hp', hstate⟩ := (challenge_refused_keeps_session hslot hp hready.2 hcall).mpr hrefused
  exact ⟨hfails, _, p, p', hp, hready.1, hp', hstate⟩

/-- A challenge that is in order, and whose RESPONSE cannot be queued, has replaced the session. -/
theorem challenge_unanswered :
    peerByNode paired there = some ⟨0, by decide⟩ ∧
      (paired.peers
      ⟨0, by decide⟩).any (((rechallenge [5]).claim link).matchesPeer ·) = true ∧
      (challengedAgain [5]).2.2 = .error .ENETDOWN ∧
      sessionOf (challengedAgain [5]).1 ≠ sessionOf paired := by
  decide +kernel

/-! ## HELLO -/

inductive HelloNext where
  | configure
  | announce
  | challenge
  | announceSoon
  | nothing
  deriving DecidableEq, Repr

def helloNext (r : HelloResult) (up : Bool) : HelloNext :=
  if r.localChanged then .configure
  else if r.conflicted then if r.localCollision && up then .announce else .nothing
  else if up = false then .nothing
  else if r.responder then .challenge
  else .announceSoon

def announceCall (d : Device) (q : TxQueue) (nowMs : Nat) (challenge : Octets) (messageId : UInt64) (a : FrameAmbient) :
    Device × TxQueue × Except Errno Unit :=
  match discoveryAnnounce d challenge messageId with
  | (d, .error e) => (d, q, .error e)
  | (d, .ok (hello, conflict)) =>
    match if conflict then wireEncodeConflict hello else wireEncodeHello hello with
    | .error e => (d, q, .error e)
    | .ok frame =>
      match a.signature with
      | .error e => (d, q, .error e)
      | .ok signature =>
        match discoverySendFrame d q nowMs (frame.take WIRE_HELLO_SIGNED_SIZE ++ signature)
          hello.common.sourceNativeLocator
            NATIVE_LOCATOR_BROADCAST a with
        | (q, .error e) => (d, q, .error e)
        | (q, .ok ()) => (if conflict then announceSent d hello.collisionRound else d, q, .ok ())

def establishedPeers (d : Device) : Nat :=
  ((List.finRange PEER_LIMIT).filter fun i => (d.peers i).any (·.sessionReady)).length

/-- `melodi_announce_work`: what `melodi_discovery_announce` returned, and the work is scheduled again; nothing when
the work returns before that. -/
def announceWork (d : Device) (q : TxQueue) (nowMs : Nat) (up : Bool) (challenge : Octets) (messageId : UInt64)
    (a : FrameAmbient) : Device × TxQueue × Option (Except Errno Unit) :=
  if up = false then (d, q, none)
  else if establishedPeers d ≠ 0 then (d, q, none)
  else
    match announceCall d q nowMs challenge messageId a with
    | (d, q, result) => (d, q, some result)

/-- What an announcement needs: the identity, the transport, a counter, the frame signed and allocated, and a queue with
room for it. -/
structure Announces (d : Device) (q : TxQueue) (nowMs : Nat) (challenge : Octets) (messageId : UInt64)
    (a : FrameAmbient) (hello : WireHello) (frame signature : Octets) : Prop where
  identity : d.identityReady = true
  transport : d.transportReady = true
  counter : d.transmitCounter ≠ U64_MAX
  announced : (discoveryAnnounce d challenge messageId).2 = .ok (hello, d.conflictPending)
  encoded : (if d.conflictPending then wireEncodeConflict hello else wireEncodeHello hello) = .ok frame
  signed : a.signature = .ok signature
  allocated : a.skb = true
  queued : (coreSend q a.up a.net (frame.take WIRE_HELLO_SIGNED_SIZE ++ signature)
    { sourceLocator := d.localLinkLocator, destinationLocator := LINK_LOCATOR_BROADCAST } nowMs a.alloc).2 = .ok ()

theorem discoveryAnnounce_ready {d : Device} (hid : ¬(d.identityReady = false ∨ d.transportReady = false))
    (hcounter : d.transmitCounter ≠ U64_MAX) (challenge : Octets) (messageId : UInt64) : ∃ d' hello,
      discoveryAnnounce d challenge messageId = (d', .ok (hello, d.conflictPending)) ∧
        discoverySendMeta d' hello.common.sourceNativeLocator NATIVE_LOCATOR_BROADCAST =
          .ok { sourceLocator := d.localLinkLocator, destinationLocator := LINK_LOCATOR_BROADCAST } := by
  rw [discoveryAnnounce, if_neg hid, counterNextLocked, if_neg hcounter]
  refine ⟨_, _, rfl, ?_⟩
  rw [discoverySendMeta, if_neg (by simpa using (not_or.mp hid).2), if_pos rfl]

theorem announceCall_ok {d : Device} {q : TxQueue} {nowMs : Nat} {challenge : Octets} {messageId : UInt64}
    {a : FrameAmbient} :
    (announceCall d q nowMs challenge messageId a).2.2 = .ok () ↔
      ∃ hello frame signature, Announces d q nowMs challenge messageId a hello frame signature := by
  by_cases hid : d.identityReady = false ∨ d.transportReady = false
  · rw [announceCall, discoveryAnnounce, if_pos hid]
    refine iff_of_false (by simp) ?_
    rintro ⟨_, _, _, h⟩
    simp [h.identity, h.transport] at hid
  by_cases hcounter : d.transmitCounter = U64_MAX
  · rw [announceCall, discoveryAnnounce, if_neg hid, counterNextLocked, if_pos hcounter]
    refine iff_of_false (by simp) ?_
    rintro ⟨_, _, _, h⟩
    exact h.counter hcounter
  obtain ⟨d', hello, hann, hmeta⟩ := discoveryAnnounce_ready hid hcounter challenge messageId
  simp only [not_or, Bool.not_eq_false] at hid
  unfold announceCall discoverySendFrame
  rw [hann]
  dsimp only
  rw [hmeta]
  constructor
  · intro h
    split at h
    · cases h
    rename_i frame hframe
    split at h
    · cases h
    rename_i signature hsignature
    dsimp only at h
    by_cases hskb : a.skb = false
    · rw [if_pos hskb] at h
      cases h
    rw [if_neg hskb] at h
    refine ⟨hello, frame, signature, hid.1, hid.2, hcounter, by rw [hann], hframe, hsignature, by simpa using hskb, ?_⟩
    split at h
    · cases h
    · rename_i hsend
      rw [hsend]
  · rintro ⟨_, frame, signature, h⟩
    cases hann ▸ h.announced
    rw [h.encoded, h.signed]
    dsimp only
    rw [if_neg (by simp [h.allocated])]
    have hqueued := h.queued
    generalize coreSend _ _ _ _ _ _ _ = sent at hqueued ⊢
    obtain ⟨q', result⟩ := sent
    obtain rfl : result = .ok () := hqueued
    rfl

theorem establishedPeers_eq_zero (d : Device) :
    establishedPeers d = 0 ↔ ∀ i p, d.peers i = some p → p.sessionReady = false := by
  simp only [establishedPeers, List.length_eq_zero_iff, List.filter_eq_nil_iff, List.mem_finRange, forall_const,
    Option.any_eq_true, not_exists, not_and, Bool.not_eq_true]

theorem claimLocked_greater {P : Platform} {d d' : Device} {resolveLocal : Bool} {r : Claimed}
    (h : claimLocked P d c resolveLocal = (d', .ok r)) (hgreater : d.nodeId < c.nodeId) :
    r.localChanged = false ∧ d' = conflictsRecomputeLocked (claimWrite d c r.slot) := by
  unfold claimLocked at h
  cases hcheck : claimCheck P d c with
  | error e => simp [hcheck] at h
  | ok j =>
    have hnot : ¬ c.nodeId < (claimWrite d c j).nodeId := by
      rw [(claimWrite_nodeId d c j).1]
      exact List.lt_asymm hgreater
    simp only [hcheck] at h
    rw [if_neg fun hc => hnot hc.2.1] at h
    split_ifs at h
    · cases h
    · cases h
      exact ⟨rfl, rfl⟩

theorem receiveHello_greater {P : Platform} {d d' : Device} {hello : WireHello} {link : RxMeta} {jiffies : UInt64}
    {r : HelloResult} (h : receiveHello P d hello link verified jiffies = (d', .ok r))
    (hgreater : d.nodeId < hello.nodeId) : r.localChanged = false ∧ r.responder = false := by
  unfold receiveHello at h
  split_ifs at h
  · cases h
  · cases h
  · cases h
  cases hclaim : claimLocked P d (hello.claim link) true with
  | mk d₁ result =>
    cases result with
    | error e =>
      rw [hclaim] at h
      cases h
    | ok c =>
      obtain ⟨hlocal, rfl⟩ := claimLocked_greater hclaim hgreater
      obtain ⟨p₀, hp₀, hp₀node, -⟩ := claimWrite_recorded d (hello.claim link) c.slot
      have hnode := (claimWrite_nodeId d (hello.claim link) c.slot).1
      rw [hclaim] at h
      simp only [conflictsRecomputeLocked_apply, hp₀, Option.map_some] at h
      obtain ⟨-, hr⟩ := Prod.mk.inj h
      cases hr
      refine ⟨hlocal, ?_⟩
      simp only [responderLocked, hp₀node, decide_eq_false_iff_not]
      refine List.lt_asymm (?_ : _ < hello.nodeId)
      split_ifs
      · obtain ⟨_, _, _, _, _, heq⟩ := peerSessionResetLocked_inside { conflictsRecomputeLocked
          (claimWrite d (hello.claim link) c.slot) with peers := _ } c.slot
        rw [heq]
        exact hnode.symm ▸ hgreater
      · exact hnode.symm ▸ hgreater

/-- A device that leaves the challenge to the sender of a HELLO answers it exactly when it has no session with any
other peer and has what an announcement needs. -/
theorem hello_answered_alone {P : Platform} {d d₁ d₂ : Device} {hello : WireHello} {link : RxMeta} {verified : Bool}
    {jiffies : UInt64} {r : HelloResult} {q : TxQueue} {nowMs : Nat} {challenge : Octets} {messageId : UInt64}
    {a : FrameAmbient} (hhello : receiveHello P d hello link verified jiffies = (d₁, .ok r))
    (hgreater : d.nodeId < hello.nodeId) (hclear : r.conflicted = false)
    (hnone : ∀ i p, d₂.peers i = some p → p.nodeId = hello.nodeId → p.sessionReady = false) :
    helloNext r true = .announceSoon ∧
      ((announceWork d₂ q nowMs true challenge messageId a).2.2 = some (.ok ()) ↔
        (∀ i p, d₂.peers i = some p → p.nodeId ≠ hello.nodeId → p.sessionReady = false) ∧
          ∃ own frame signature, Announces d₂ q nowMs challenge messageId a own frame signature) := by
  obtain ⟨hlocal, hresponder⟩ := receiveHello_greater hhello hgreater
  refine ⟨by simp [helloNext, hlocal, hclear, hresponder], ?_⟩
  have halone : establishedPeers d₂ = 0 ↔ ∀ i p, d₂.peers i = some p → p.nodeId ≠ hello.nodeId → p.sessionReady =
    false := by
    rw [establishedPeers_eq_zero]
    refine ⟨fun h i p hp _ => h i p hp, fun h i p hp => ?_⟩
    by_cases hnode : p.nodeId = hello.nodeId
    · exact hnone i p hp hnode
    · exact h i p hp hnode
  rw [← halone, ← announceCall_ok]
  unfold announceWork
  rw [if_neg (by simp)]
  split_ifs with hpeers
  · simp [hpeers]
  · simp [not_not.mp hpeers]

namespace Scenario

def newcomer : NodeId := 1 :: List.replicate 32 11

def newcomerHello : WireHello where
  common := { sourceNativeLocator := 11, identityGeneration := 1, counter := 1 }
  nodeId := newcomer
  meshDomain := zero32
  collisionRound := 0
  expirySeconds := 300
  challenge := [3]

def greeted (d : Device) : Device × Except Errno HelloResult :=
  receiveHello Platform.plain d newcomerHello { link with sourceLocator := 3 } true 0

def answered (d : Device) : Option (Except Errno Unit) :=
  (announceWork (greeted d).1 { stopping := false } 0 true [7] 2 { signature := .ok [] }).2.2

def announced (d : Device) : Except Errno Unit :=
  (announceCall (greeted d).1 { stopping := false } 0 [7] 2 { signature := .ok [] }).2.2

def alone : Device :=
  (run (step Platform.plain) Node.initial
    [.control (.identity ⟨here, 1, 7, 0, false, false⟩ false), .control (.link true 1)]).dev

def welcome (d : Device) : Bool := (greeted d).2.toOption.any fun r => !r.conflicted

def silentBut (d : Device) (test : NodeId → Bool) : Bool :=
  (List.finRange PEER_LIMIT).all fun i => ((greeted d).1.peers i).all fun p => test p.nodeId || !p.sessionReady

end Scenario

theorem hello_answered_alone_first : answered alone = some (.ok ()) := by
  have hwelcome : welcome alone = true := by decide +kernel
  obtain ⟨r, hr, hclear⟩ := (Option.any_eq_true ..).mp hwelcome
  have hsilent : ∀ i p, (greeted alone).1.peers i = some p → p.sessionReady = false := by
    have h : silentBut alone (fun _ => false) = true := by decide +kernel
    intro i p hp
    have hi := List.all_eq_true.mp h i (List.mem_finRange i)
    rw [hp, Option.all_some] at hi
    simpa using hi
  have hresult : (greeted alone).2 = .ok r := by
    cases hg : (greeted alone).2 with
    | error e => rw [hg] at hr; cases hr
    | ok r' => rw [hg] at hr; exact congrArg Except.ok (Option.some.inj hr)
  have hhello : receiveHello Platform.plain alone newcomerHello
    { link with sourceLocator := 3 } true 0 = ((greeted alone).1, .ok r) := Prod.ext rfl hresult
  have hgreater : alone.nodeId < newcomerHello.nodeId := by decide +kernel
  have hannounced : announced alone = .ok () := by decide +kernel
  exact (hello_answered_alone hhello hgreater (by simpa using hclear) fun i p hp _ => hsilent i p hp).2.mpr
    ⟨fun i p hp _ => hsilent i p hp, announceCall_ok.mp hannounced⟩

/-- A device with a session accepts the HELLO of a third node, has no session with it and leaves the challenge to it,
and the work keeps silent, though the announcement would go through. -/
theorem hello_unanswered :
    welcome paired = true ∧ paired.nodeId < newcomerHello.nodeId ∧
      (greeted paired).2.toOption.all (fun r => helloNext r true = .announceSoon) = true ∧
      silentBut paired (· ≠ newcomer) = true ∧
      announced paired = .ok () ∧ answered paired = none := by
  decide +kernel

end Melodi
