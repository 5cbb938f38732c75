import Melodi.Core.Discovery

/-!
# The handshake (`discovery.c`)

The node with the greater NodeId answers a HELLO with a CHALLENGE, the other one answers that with a RESPONSE. The
initiator derives its keys when it sends the RESPONSE, the responder when it receives it.
-/

namespace Melodi
open Lib

/-! ## HELLO and CONTROL -/

def discoveryAnnounce (d : Device) (challenge : Octets) (messageId : UInt64) :
    Device × Except Errno (WireHello × Bool) :=
  if d.identityReady = false ∨ d.transportReady = false then (d, .error .ENETDOWN)
  else
    match counterNextLocked d with
    | .error e => (d, .error e)
    | .ok (counter, d) =>
      let common : WireCommon :=
        { flags := WIRE_F_BROADCAST, sourceNativeLocator := d.localNativeLocator,
          destinationNativeLocator := NATIVE_LOCATOR_BROADCAST, identityGeneration := d.identityGeneration,
          messageId := messageId, counter := UInt64.ofNat counter }
      ({ d with previousHelloChallenge := d.lastHelloChallenge, lastHelloChallenge := challenge },
        .ok (
          { common := common, nodeId := d.nodeId, meshDomain := d.meshDomain, collisionRound := d.localCollisionRound,
            expirySeconds := 300, challenge := challenge }, d.conflictPending))

def announceSent (d : Device) (round : UInt32) : Device :=
  if d.localCollisionRound = round then { d with conflictPending := false } else d

def discoveryProbe (d : Device) (messageId : UInt64) : Device × Except Errno WireControl :=
  if d.identityReady = false ∨ d.transportReady = false then (d, .error .ENETDOWN)
  else
    match counterNextLocked d with
    | .error e => (d, .error e)
    | .ok (counter, d) =>
      let common : WireCommon :=
        { frameClass := WIRE_CONTROL, flags := WIRE_F_BROADCAST, sourceNativeLocator := d.localNativeLocator,
          destinationNativeLocator := NATIVE_LOCATOR_BROADCAST, identityGeneration := d.identityGeneration,
          messageId := messageId, counter := UInt64.ofNat counter }
      (d, .ok
        { common := common, nodeId := d.nodeId, meshDomain := d.meshDomain, collisionRound := d.localCollisionRound,
          opcode := CONTROL_PROBE })

/-! ## CHALLENGE -/

structure ChallengeDraw where
  secret : Octets
  challenge : Octets
  messageId : UInt64

def challengeFrame (d : Device) (p : Peer) (counter : Nat) (messageId : UInt64) : WireAuth where
  common :=
    { frameClass := WIRE_CHALLENGE, sourceNativeLocator := d.localNativeLocator,
      destinationNativeLocator := p.nativeLocator, identityGeneration := d.identityGeneration,
      messageId := messageId, counter := UInt64.ofNat counter }
  sourceNodeId := d.nodeId
  destinationNodeId := p.nodeId
  ephemeralKey := p.ephemeralPublic
  challenge := p.localChallenge
  replyTo := p.remoteHelloChallenge
  meshDomain := d.meshDomain
  collisionRound := d.localCollisionRound

def sendChallenge (P : Platform) (d : Device) (hello : WireHello) (draw : ChallengeDraw) :
    Device × Except Errno WireAuth :=
  match (peerByNode d hello.nodeId).bind fun i => (d.peers i).map (i, ·) with
  | none => (d, .error .ENETDOWN)
  | some (i, p) =>
    if d.identityReady = false ∨ d.transportReady = false then (d, .error .ENETDOWN)
    else
      match P.generatePublic draw.secret with
      | none => ({ d with peers := d.peers.set i { p with ephemeralPrivate := draw.secret } }, .error .EKEYREJECTED)
      | some ephemeralPublic =>
        let p := { p with
          ephemeralPrivate := draw.secret, ephemeralPublic := ephemeralPublic, localChallenge := draw.challenge,
          remoteHelloChallenge := hello.challenge, handshakePending := true }
        let d := { d with peers := d.peers.set i p }
        match counterNextLocked d with
        | .error e => (d, .error e)
        | .ok (counter, d) => (d, .ok (challengeFrame d p counter draw.messageId))

def WireAuth.claim (auth : WireAuth) (link : RxMeta) : Claim :=
  ⟨auth.sourceNodeId, auth.common.sourceNativeLocator, link.sourceLocator, auth.collisionRound,
    auth.common.identityGeneration, auth.common.counter⟩

def authValidate (P : Platform) (d : Device) (auth : WireAuth) (link : RxMeta) : Device × Except Errno Claimed :=
  if auth.meshDomain ≠ d.meshDomain ∨ auth.destinationNodeId ≠ d.nodeId ∨
      auth.common.destinationNativeLocator ≠ d.localNativeLocator ∨ link.destinationLocator ≠ d.localLinkLocator then
    (d, .error .EPROTO)
  else
    match (peerByNode d auth.sourceNodeId).bind d.peers with
    | none => (d, .error .ENOENT)
    | some known =>
      if known.linkLocator ≠ link.sourceLocator then (d, .error .EHOSTUNREACH)
      else claimLocked P d (auth.claim link) false

/-! ## The initiator -/

def initiatorContext (d : Device) (p : Peer) (auth : WireAuth) (ephemeralPublic announced : Octets) :
    SessionContext where
  domain := d.meshDomain
  initiator := d.nodeId
  responder := p.nodeId
  initiatorNativeLocator := d.localNativeLocator
  responderNativeLocator := p.nativeLocator
  initiatorRound := d.localCollisionRound
  responderRound := p.collisionRound
  initiatorGeneration := d.identityGeneration
  responderGeneration := p.generation
  initiatorEphemeral := ephemeralPublic
  responderEphemeral := auth.ephemeralKey
  initiatorNonce := announced
  responderNonce := auth.challenge

def Peer.sessionStart (p : Peer) (transmitKey receiveKey : Octets) (session : Nat) : Peer :=
  { p with
    transmitKey := transmitKey, receiveKey := receiveKey, receiveReplay := replayReset,
    sessionEpoch := sessionAdvance p.sessionEpoch, sessionReady := true, session := session }

def installSession (d : Device) (i : Fin PEER_LIMIT) (p : Peer) (transmitKey receiveKey : Octets) : Device :=
  { dataPeerResetLocked d p.nodeId with
    peers := d.peers.set i (p.sessionStart transmitKey receiveKey d.serial), serial := d.serial + 1,
    log := .install p.nodeId transmitKey receiveKey :: d.log }

def responseFrame (d : Device) (p : Peer) (auth : WireAuth) (counter : Nat) (ephemeralPublic announced : Octets) :
    WireAuth where
  common :=
    { frameClass := WIRE_RESPONSE, sourceNativeLocator := d.localNativeLocator,
      destinationNativeLocator := p.nativeLocator, identityGeneration := d.identityGeneration,
      messageId := auth.common.messageId, counter := UInt64.ofNat counter }
  sourceNodeId := d.nodeId
  destinationNodeId := p.nodeId
  ephemeralKey := ephemeralPublic
  challenge := announced
  replyTo := auth.challenge
  meshDomain := d.meshDomain
  collisionRound := d.localCollisionRound

def announcedChallenge (d : Device) (replyTo : Octets) : Option Octets :=
  if replyTo = d.lastHelloChallenge then some d.lastHelloChallenge
  else if replyTo = d.previousHelloChallenge then some d.previousHelloChallenge
  else none

def receiveChallenge (P : Platform) (d : Device) (auth : WireAuth) (link : RxMeta) (verified : Bool)
    (secret : Octets) : Device × Except Errno WireAuth :=
  if auth.common.frameClass ≠ WIRE_CHALLENGE then (d, .error .EPROTO)
  else if verified = false then (d, .error .EKEYREJECTED)
  else
    match P.generatePublic secret, P.curve25519 secret auth.ephemeralKey with
    | some ephemeralPublic, some shared =>
      match authValidate P d auth link with
      | (d, .error e) => (d, .error e)
      | (d, .ok c) =>
        match d.peers c.slot, announcedChallenge d auth.replyTo with
        | some p, some announced =>
          let context := initiatorContext d p auth ephemeralPublic announced
          let d := installSession d c.slot p (P.sessionKey shared context 0) (P.sessionKey shared context 1)
          match counterNextLocked d with
          | .error e => (d, .error e)
          | .ok (counter, d) => (d, .ok (responseFrame d p auth counter ephemeralPublic announced))
        | _, _ => (d, .error .EKEYREJECTED)
    | _, _ => (d, .error .EKEYREJECTED)

/-! ## The responder -/

def responderContext (d : Device) (p : Peer) (auth : WireAuth) : SessionContext where
  domain := d.meshDomain
  initiator := p.nodeId
  responder := d.nodeId
  initiatorNativeLocator := p.nativeLocator
  responderNativeLocator := d.localNativeLocator
  initiatorRound := p.collisionRound
  responderRound := d.localCollisionRound
  initiatorGeneration := p.generation
  responderGeneration := d.identityGeneration
  initiatorEphemeral := auth.ephemeralKey
  responderEphemeral := p.ephemeralPublic
  initiatorNonce := p.remoteHelloChallenge
  responderNonce := p.localChallenge

def answersPending (p : Peer) (auth : WireAuth) : Bool :=
  p.handshakePending && auth.challenge = p.remoteHelloChallenge && auth.replyTo = p.localChallenge

def receiveResponse (P : Platform) (d : Device) (auth : WireAuth) (link : RxMeta) (verified : Bool) :
    Device × Except Errno Unit :=
  if auth.common.frameClass ≠ WIRE_RESPONSE then (d, .error .EPROTO)
  else if verified = false then (d, .error .EKEYREJECTED)
  else if ((peerByNode d auth.sourceNodeId).bind d.peers).any (answersPending · auth) = false then
    (d, .error .EKEYREJECTED)
  else
    match authValidate P d auth link with
    | (d, .error e) => (d, .error e)
    | (d, .ok c) =>
      match d.peers c.slot with
      | none => (d, .error .EKEYREJECTED)
      | some p =>
        match P.curve25519 p.ephemeralPrivate auth.ephemeralKey with
        | none => (d, .error .EKEYREJECTED)
        | some shared =>
          let context := responderContext d p auth
          let p := { p with handshakePending := false, ephemeralPrivate := zero32 }
          (installSession d c.slot p (P.sessionKey shared context 1) (P.sessionKey shared context 0), .ok ())

end Melodi
