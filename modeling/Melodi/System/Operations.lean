import Melodi.System.Node
import Melodi.Core.Effects

/-!
# What a control operation does

The handlers of discovery, identity, link and policy share a few actions: a claim on a record of the peer table, a note
on that record, the end of a session, a new one. Everything that holds of control operations is read off this list.
-/

namespace Melodi
open Lib

/-! ## What the operations are told apart by -/

structure Address where
  nodeId : NodeId
  meshDomain : Octets
  nativeLocator : UInt32
  round : UInt32
  deriving DecidableEq, Repr

def Device.address (d : Device) : Address := ⟨d.nodeId, d.meshDomain, d.localNativeLocator, d.localCollisionRound⟩

def Device.policy (d : Device) :
    PolicyMode × Table POLICY_PEER_LIMIT PolicyPeer × Table POLICY_SERVICE_LIMIT PolicyService × Bool :=
  (d.policyMode, d.policyPeers, d.policyServices, d.broadcastAllowed)

def Control.keepsPolicy : Control → Bool
  | .identity .. | .namespaceReset | .policyPeer .. | .policyClear .. | .policyService .. | .policyBroadcast ..
  | .policyMode .. | .policyReset => false
  | _ => true

def Control.forgets : Control → Bool
  | .identity _ _ => true
  | .detach => true
  | .namespaceReset => true
  | _ => false

def Control.startsAnew : Control → Bool
  | .hello .. | .challenge .. | .response .. => true
  | _ => false

def Control.resets : Control → Option NodeId
  | .policyPeer node .BLOCKED => some node
  | .reverify node => some node
  | _ => none

def authPasses (d : Device) (auth : WireAuth) (link : RxMeta) : Bool :=
  auth.meshDomain = d.meshDomain && auth.destinationNodeId = d.nodeId &&
    auth.common.destinationNativeLocator = d.localNativeLocator && link.destinationLocator = d.localLinkLocator &&
    ((peerByNode d auth.sourceNodeId).bind d.peers).any fun known => known.linkLocator = link.sourceLocator

/-- What a control operation hands to `melodi_claim_locked`: the claim, and whether the local locator may give way. -/
def Control.claim (P : Platform) (d : Device) : Control → Option (Claim × Bool)
  | .hello h source verified _ =>
    if h.expirySeconds = 0 ∨ PEER_EXPIRY_MAX_SECONDS < h.expirySeconds.toNat ∨ verified = false ∨
        h.meshDomain ≠ d.meshDomain then none
    else some (h.claim source, true)
  | .control c source verified _ =>
    if c.opcode ≠ CONTROL_PROBE ∨ verified = false ∨ c.meshDomain ≠ d.meshDomain then none
    else some (c.claim source, true)
  | .challenge auth source verified secret =>
    if auth.common.frameClass ≠ WIRE_CHALLENGE ∨ verified = false ∨ (P.generatePublic secret).isNone ∨
        (P.curve25519 secret auth.ephemeralKey).isNone ∨ authPasses d auth source = false then none
    else some (auth.claim source, false)
  | .response auth source verified =>
    if auth.common.frameClass ≠ WIRE_RESPONSE ∨ verified = false ∨
        ((peerByNode d auth.sourceNodeId).bind d.peers).any (answersPending · auth) = false ∨
        authPasses d auth source = false then none
    else some (auth.claim source, false)
  | _ => none

/-! ## The list -/

/-- The section touches neither the peers nor the receive side; it may draw counters. -/
structure Passive (op : Control) (d d' : Device) : Prop where
  peers : d'.peers = d.peers
  rx : d'.rx = d.rx
  log : d'.log = d.log
  serial : d'.serial = d.serial
  counter : d.transmitCounter ≤ d'.transmitCounter
  counter_le : d.transmitCounter ≤ U64_MAX → d'.transmitCounter ≤ U64_MAX
  address : d'.address = d.address
  generation : d'.identityGeneration = d.identityGeneration
  policy : op.keepsPolicy = true → d'.policy = d.policy

/-- The record with other notes: when it expires, and what a handshake keeps. -/
def Peer.Annotates (p p' : Peer) : Prop :=
  ∃ expires ephemeralPrivate ephemeralPublic remoteHelloChallenge localChallenge handshakePending,
    p' = { p with
      expires := expires, ephemeralPrivate := ephemeralPrivate, ephemeralPublic := ephemeralPublic,
      remoteHelloChallenge := remoteHelloChallenge, localChallenge := localChallenge,
      handshakePending := handshakePending }

/-- What a frame does to the record of its sender after its claim. -/
inductive Settles (op : Control) (d : Device) (i : Fin PEER_LIMIT) : Device → Prop where
  | nothing : Settles op d i d
  | notes {p p'} (hp : d.peers i = some p) (hn : p.Annotates p') : Settles op d i { d with peers := d.peers.set i p' }
  | restarts {p p'} (hop : op.startsAnew = true) (hp : d.peers i = some p) (hn : p.Annotates p') :
      Settles op d i (peerSessionResetLocked { d with peers := d.peers.set i p' } i)
  | installs {p p' transmitKey receiveKey d'} (hop : op.startsAnew = true) (hp : d.peers i = some p)
      (hn : p.Annotates p')
      (h : Passive op (installSession d i p' transmitKey receiveKey) d') : Settles op d i d'

/-- What a control operation can do to the device. -/
inductive Operates (P : Platform) (d : Device) (op : Control) : Device → Prop where
  | passes {d'} (hclaim : op.claim P d = none) (h : Passive op d d') : Operates P d op d'
  | refused {c resolveLocal d₁ e} (hclaim : op.claim P d = some (c, resolveLocal))
      (h : claimLocked P d c resolveLocal = (d₁, .error e)) : Operates P d op d₁
  | claims {c resolveLocal d₁ r d'} (hclaim : op.claim P d = some (c, resolveLocal))
      (h : claimLocked P d c resolveLocal = (d₁, .ok r)) (hs : Settles op d₁ r.slot d') : Operates P d op d'
  | challenges {i p p' d'} (hclaim : op.claim P d = none) (hp : d.peers i = some p) (hn : p.Annotates p')
      (h : Passive op { d with peers := d.peers.set i p' } d') : Operates P d op d'
  | resets {node i d₁} (hclaim : op.claim P d = none) (hop : op.resets = some node) (hi : peerByNode d node = some i)
      (h : Passive op d d₁) : Operates P d op (peerSessionResetLocked d₁ i)
  | expires {jiffies} (hop : op = .expiry jiffies) : Operates P d op (peerExpiryWork d jiffies)
  | identity {o configure} (hop : op = .identity o configure) : Operates P d op (identityCommit d o configure)
  | detaches {d'} (hop : op.forgets = true) (h : Passive op (detachReset d) d') : Operates P d op d'

variable {P : Platform} {d d' : Device} {op : Control}

theorem Passive.refl (d : Device) : Passive op d d :=
  ⟨rfl, rfl, rfl, rfl, Nat.le_refl _, id, rfl, rfl, fun _ => rfl⟩

theorem counterNextLocked_passive {counter : Nat} (h : counterNextLocked d = .ok (counter, d')) : Passive op d d' := by
  unfold counterNextLocked at h
  split_ifs at h with hmax
  obtain ⟨-, rfl⟩ := Prod.mk.inj (Except.ok.inj h)
  refine ⟨rfl, rfl, rfl, rfl, Nat.le_succ _, fun hle => ?_, rfl, rfl, fun _ => rfl⟩
  show d.transmitCounter + 1 ≤ U64_MAX
  omega

/-! ## Sections that stay inside the tables -/

def Inside (d d' : Device) : Prop :=
  ∃ peers rx orderTx serial log,
    d' = { d with peers := peers, rx := rx, orderTx := orderTx, serial := serial, log := log }

theorem Inside.refl (d : Device) : Inside d d := ⟨_, _, _, _, _, rfl⟩

theorem Inside.trans {d'' : Device} (h₁ : Inside d d') (h₂ : Inside d' d'') : Inside d d'' := by
  obtain ⟨_, _, _, _, _, rfl⟩ := h₁
  obtain ⟨_, _, _, _, _, rfl⟩ := h₂
  exact ⟨_, _, _, _, _, rfl⟩

theorem Inside.address (h : Inside d d') : d'.address = d.address := by
  obtain ⟨_, _, _, _, _, rfl⟩ := h
  rfl

theorem Inside.generation (h : Inside d d') : d'.identityGeneration = d.identityGeneration := by
  obtain ⟨_, _, _, _, _, rfl⟩ := h
  rfl

theorem peerSessionResetLocked_inside (d : Device) (i : Fin PEER_LIMIT) : Inside d (peerSessionResetLocked d i) := by
  unfold peerSessionResetLocked
  split <;> exact ⟨_, _, _, _, _, rfl⟩

theorem resetAllSessions_inside (d : Device) : Inside d (resetAllSessions d) :=
  List.foldlRecOn _ _ (motive := fun d' => Inside d d') (.refl d)
    fun d' h i _ => h.trans (peerSessionResetLocked_inside d' i)

theorem claimWrite_inside (d : Device) (c : Claim) (i : Fin PEER_LIMIT) : Inside d (claimWrite d c i) := by
  unfold claimWrite
  split
  · exact ⟨_, _, _, _, _, rfl⟩
  dsimp only
  split_ifs
  · exact ⟨_, _, _, _, _, rfl⟩
  · exact (peerSessionResetLocked_inside d i).trans ⟨_, _, _, _, _, rfl⟩

theorem peerExpiryWork_inside (d : Device) (jiffies : UInt64) : Inside d (peerExpiryWork d jiffies) := by
  refine Inside.trans (List.foldlRecOn _ _ (motive := fun d' => Inside d d') (.refl d) fun d' h i _ => ?_)
    ⟨_, _, _, _, _, rfl⟩
  unfold peerExpire
  split
  · exact h
  split_ifs
  · exact h
  · exact (h.trans (peerSessionResetLocked_inside d' i)).trans ⟨_, _, _, _, _, rfl⟩

theorem localReassignLocked_cases (P : Platform) (d : Device) :
    (localReassignLocked P d).1 = d ∨ ∃ nativeLocator round, d.localCollisionRound.toNat ≠ U32_MAX ∧
      mapNativeLocatorAvailable P d.meshDomain d.nodeId (d.localCollisionRound.toNat + 1) (occupiedLocators d) =
        .ok (nativeLocator, round) ∧
      Inside { d with
        localNativeLocator := nativeLocator, localCollisionRound := UInt32.ofNat round, conflictPending := true }
        (localReassignLocked P d).1 := by
  unfold localReassignLocked
  split_ifs with hround
  · exact .inl rfl
  cases hmap : mapNativeLocatorAvailable P d.meshDomain d.nodeId (d.localCollisionRound.toNat + 1)
      (occupiedLocators d) with
  | error e => exact .inl rfl
  | ok lr =>
    obtain ⟨nativeLocator, round⟩ := lr
    exact .inr ⟨nativeLocator, round, hround, rfl, (resetAllSessions_inside _).trans ⟨_, _, _, _, _, rfl⟩⟩

/-! ## The frames of discovery -/

theorem receiveHello_operates (P : Platform) (d : Device) (hello : WireHello) (link : RxMeta) (verified : Bool)
    (jiffies : UInt64) :
    Operates P d (.hello hello link verified jiffies) (receiveHello P d hello link verified jiffies).1 := by
  unfold receiveHello
  split_ifs with hexpiry hverified hdomain
  · exact .passes (by rcases hexpiry with h | h <;> simp [Control.claim, h]) (.refl d)
  · exact .passes (by simp [Control.claim, hverified]) (.refl d)
  · exact .passes (by simp [Control.claim, hdomain]) (.refl d)
  simp only [not_or] at hexpiry
  have hclaim : Control.claim P d (.hello hello link verified jiffies) = some (hello.claim link, true) := by
    simp [Control.claim, hexpiry.1, hexpiry.2, hverified, hdomain]
  split
  · exact .refused hclaim ‹_›
  rename_i d₁ c hr
  refine .claims hclaim hr ?_
  cases hp : d₁.peers c.slot with
  | none => exact .nothing
  | some p =>
    dsimp only
    split_ifs
    · exact .restarts rfl hp ⟨_, _, _, _, _, _, rfl⟩
    · exact .notes hp ⟨_, _, _, _, _, _, rfl⟩

theorem receiveControl_operates (P : Platform) (d : Device) (control : WireControl) (link : RxMeta) (verified : Bool)
    (jiffies : UInt64) :
    Operates P d (.control control link verified jiffies) (receiveControl P d control link verified jiffies).1 := by
  unfold receiveControl
  split_ifs with hopcode hverified hdomain
  · exact .passes (by simp [Control.claim, hopcode]) (.refl d)
  · exact .passes (by simp [Control.claim, hverified]) (.refl d)
  · exact .passes (by simp [Control.claim, hdomain]) (.refl d)
  have hclaim : Control.claim P d (.control control link verified jiffies) = some (control.claim link, true) := by
    simp [Control.claim, hopcode, hverified, hdomain]
  split
  · exact .refused hclaim ‹_›
  rename_i d₁ c hr
  refine .claims hclaim hr ?_
  dsimp only
  cases hp : d₁.peers c.slot with
  | none =>
    have hsame : d₁.peers = fun j => if j = c.slot then (d₁.peers j).map fun p =>
        if p.expires = 0 ∨ timeBefore p.expires (jiffies + P.msecsToJiffies (CONTROL_EXPIRY_SECONDS * 1000)) then
          { p with expires := jiffies + P.msecsToJiffies (CONTROL_EXPIRY_SECONDS * 1000) } else p
        else d₁.peers j := by
      funext j
      split_ifs with hj
      · rw [hj, hp]
        rfl
      · rfl
    rw [← hsame]
    exact .nothing
  | some p =>
    have hset : ∀ f : Peer → Peer, (fun j => if j = c.slot then (d₁.peers j).map f else d₁.peers j) =
        d₁.peers.set c.slot (f p) := by
      intro f
      funext j
      rw [Table.set_apply]
      split_ifs with hj
      · rw [hj, hp]
        rfl
      · rfl
    rw [hset]
    refine .notes hp ?_
    split_ifs <;> exact ⟨_, _, _, _, _, _, rfl⟩

theorem sendChallenge_operates (P : Platform) (d : Device) (hello : WireHello) (draw : ChallengeDraw) :
    Operates P d (.sendChallenge hello draw) (sendChallenge P d hello draw).1 := by
  unfold sendChallenge
  split
  · exact .passes rfl (.refl d)
  rename_i hfind
  simp only [Option.bind_eq_some_iff, Option.map_eq_some_iff, Prod.mk.injEq] at hfind
  obtain ⟨k, -, q, hq, rfl, rfl⟩ := hfind
  split_ifs
  · exact .passes rfl (.refl d)
  split
  · exact .challenges rfl hq ⟨_, _, _, _, _, _, rfl⟩ (.refl _)
  dsimp only
  split
  · exact .challenges rfl hq ⟨_, _, _, _, _, _, rfl⟩ (.refl _)
  · exact .challenges rfl hq ⟨_, _, _, _, _, _, rfl⟩ (counterNextLocked_passive ‹_›)

/-! ## The handshake -/

theorem authValidate_eq (P : Platform) (d : Device) (auth : WireAuth) (link : RxMeta) :
    (authPasses d auth link = true ∧ authValidate P d auth link = claimLocked P d (auth.claim link) false) ∨
      (authPasses d auth link = false ∧ ∃ e, authValidate P d auth link = (d, .error e)) := by
  unfold authValidate
  split_ifs with haddress
  · refine .inr ⟨?_, _, rfl⟩
    by_contra hpass
    simp only [authPasses, Bool.not_eq_false, Bool.and_eq_true, decide_eq_true_eq] at hpass
    obtain ⟨⟨⟨⟨h1, h2⟩, h3⟩, h4⟩, -⟩ := hpass
    rcases haddress with h | h | h | h
    · exact h h1
    · exact h h2
    · exact h h3
    · exact h h4
  · simp only [ne_eq, not_or, not_not] at haddress
    obtain ⟨h1, h2, h3, h4⟩ := haddress
    cases hknown : (peerByNode d auth.sourceNodeId).bind d.peers with
    | none => exact .inr ⟨by simp [authPasses, hknown], _, rfl⟩
    | some known =>
      dsimp only
      split_ifs with hlink
      · exact .inr ⟨by simp [authPasses, hknown, hlink], _, rfl⟩
      · exact .inl ⟨by simp [authPasses, h1, h2, h3, h4, hknown, not_not.mp hlink], rfl⟩

theorem receiveChallenge_operates (P : Platform) (d : Device) (auth : WireAuth) (link : RxMeta) (verified : Bool)
    (secret : Octets) :
    Operates P d (.challenge auth link verified secret) (receiveChallenge P d auth link verified secret).1 := by
  unfold receiveChallenge
  split_ifs with hclass hverified
  · exact .passes (by simp [Control.claim, hclass]) (.refl d)
  · exact .passes (by simp [Control.claim, hverified]) (.refl d)
  split
  · rename_i ephemeralPublic shared hpublic hshared
    rcases authValidate_eq P d auth link with ⟨hpass, heq⟩ | ⟨hpass, e, heq⟩
    · have hclaim : Control.claim P d (.challenge auth link verified secret) = some (auth.claim link, false) := by
        simp [Control.claim, hclass, hverified, hpublic, hshared, hpass]
      rw [heq]
      split
      · exact .refused hclaim ‹_›
      rename_i d₁ c hr
      refine .claims hclaim hr ?_
      split
      · rename_i p announced hp _
        dsimp only
        split
        · exact .installs rfl hp ⟨_, _, _, _, _, _, rfl⟩ (.refl _)
        · exact .installs rfl hp ⟨_, _, _, _, _, _, rfl⟩ (counterNextLocked_passive ‹_›)
      · exact .nothing
    · rw [heq]
      exact .passes (by simp [Control.claim, hpass]) (.refl d)
  · rename_i hnone
    refine .passes ?_ (.refl d)
    cases hpublic : P.generatePublic secret with
    | none => simp [Control.claim, hpublic]
    | some ephemeralPublic =>
      cases hshared : P.curve25519 secret auth.ephemeralKey with
      | none => simp [Control.claim, hshared]
      | some shared => exact absurd hshared (hnone ephemeralPublic shared hpublic)

theorem receiveResponse_operates (P : Platform) (d : Device) (auth : WireAuth) (link : RxMeta) (verified : Bool) :
    Operates P d (.response auth link verified) (receiveResponse P d auth link verified).1 := by
  unfold receiveResponse
  split_ifs with hclass hverified hpending
  · exact .passes (by simp [Control.claim, hclass]) (.refl d)
  · exact .passes (by simp [Control.claim, hverified]) (.refl d)
  · exact .passes (by simp only [Control.claim, hpending, true_or, or_true, if_true]) (.refl d)
  rcases authValidate_eq P d auth link with ⟨hpass, heq⟩ | ⟨hpass, e, heq⟩
  · have hclaim : Control.claim P d (.response auth link verified) = some (auth.claim link, false) := by
      simp only [Control.claim, hclass, hverified, hpending, hpass, Bool.true_eq_false, or_self, if_false]
    rw [heq]
    split
    · exact .refused hclaim ‹_›
    rename_i d₁ c hr
    refine .claims hclaim hr ?_
    split
    · exact .nothing
    · rename_i p hp
      split
      · exact .nothing
      · exact .installs rfl hp ⟨_, _, _, _, _, _, rfl⟩ (.refl _)
  · rw [heq]
    exact .passes (by simp [Control.claim, hpass]) (.refl d)

/-! ## The other operations -/

theorem discoveryAnnounce_passive (d : Device) (challenge : Octets) (messageId : UInt64) :
    Passive op d (discoveryAnnounce d challenge messageId).1 := by
  unfold discoveryAnnounce
  split_ifs
  · exact .refl d
  split
  · exact .refl d
  · have h : Passive op d _ := counterNextLocked_passive ‹_›
    exact ⟨h.1, h.2, h.3, h.4, h.5, h.6, h.7, h.8, h.9⟩

theorem discoveryProbe_passive (d : Device) (messageId : UInt64) : Passive op d (discoveryProbe d messageId).1 := by
  unfold discoveryProbe
  split_ifs
  · exact .refl d
  split
  · exact .refl d
  · exact counterNextLocked_passive ‹_›

theorem broadcastSend_passive (d : Device) (r : SendRequest) (a : SendAmbient) :
    Passive op d (broadcastSend d r a).1 := by
  obtain ⟨n, heq, hle⟩ := broadcastSend_cases d r a
  rw [heq]
  refine ⟨rfl, rfl, rfl, rfl, Nat.le_add_right _ _, fun hmax => ?_, rfl, rfl, fun _ => rfl⟩
  rcases hle with rfl | hle
  · exact hmax
  · exact hle

theorem Passive.same (hpeers : d'.peers = d.peers) (hrx : d'.rx = d.rx) (hlog : d'.log = d.log)
    (hserial : d'.serial = d.serial) (hcounter : d'.transmitCounter = d.transmitCounter)
    (haddress : d'.address = d.address)
    (hgeneration : d'.identityGeneration = d.identityGeneration)
    (hpolicy : op.keepsPolicy = true → d'.policy = d.policy) : Passive op d d' :=
  ⟨hpeers, hrx, hlog, hserial, Nat.le_of_eq hcounter.symm, fun h => hcounter ▸ h, haddress, hgeneration, hpolicy⟩

theorem namespaceReset_passive (d : Device) : Passive .namespaceReset (detachReset d) (namespaceReset d) := by
  unfold namespaceReset detachReset
  generalize discoveryResetLocked (dataResetLocked d) = d₁
  exact .same rfl rfl rfl rfl rfl rfl rfl nofun

theorem controlStep_operates (P : Platform) (d : Device) (op : Control) : Operates P d op (controlStep P d op) := by
  cases op with
  | hello h link verified jiffies => exact receiveHello_operates P d h link verified jiffies
  | control c link verified jiffies => exact receiveControl_operates P d c link verified jiffies
  | sendChallenge h draw => exact sendChallenge_operates P d h draw
  | challenge auth link verified secret => exact receiveChallenge_operates P d auth link verified secret
  | response auth link verified => exact receiveResponse_operates P d auth link verified
  | announce challenge messageId => exact .passes rfl (discoveryAnnounce_passive d challenge messageId)
  | announceSent round =>
    refine .passes rfl ?_
    simp only [controlStep, announceSent]
    split_ifs <;> exact .same rfl rfl rfl rfl rfl rfl rfl fun _ => rfl
  | probe messageId => exact .passes rfl (discoveryProbe_passive d messageId)
  | expiry jiffies => exact .expires rfl
  | identity o configure => exact .identity rfl
  | link ready locator =>
    refine .passes rfl ?_
    simp only [controlStep, linkReady]
    split_ifs <;> exact .same rfl rfl rfl rfl rfl rfl rfl fun _ => rfl
  | linkFailed => exact .passes rfl (.same rfl rfl rfl rfl rfl rfl rfl fun _ => rfl)
  | configure transport =>
    refine .passes rfl ?_
    simp only [controlStep, transportConfigure]
    split_ifs <;> exact .same rfl rfl rfl rfl rfl rfl rfl fun _ => rfl
  | detach => exact .detaches rfl (.refl _)
  | namespaceReset => exact .detaches rfl (namespaceReset_passive d)
  | policyPeer node state =>
    simp only [controlStep, policySetPeer]
    split_ifs
    · exact .passes rfl (.refl d)
    split
    · exact .passes rfl (.refl d)
    · split
      · exact .resets rfl rfl ‹_› (.same rfl rfl rfl rfl rfl rfl rfl nofun)
      · exact .passes rfl (.same rfl rfl rfl rfl rfl rfl rfl nofun)
  | policyClear node =>
    refine .passes rfl ?_
    simp only [controlStep, policyClearPeer]
    split_ifs
    · exact .refl d
    · split <;> exact .same rfl rfl rfl rfl rfl rfl rfl nofun
  | policyService service action =>
    refine .passes rfl ?_
    simp only [controlStep, policySetService]
    split_ifs
    · exact .refl d
    · split <;> exact .same rfl rfl rfl rfl rfl rfl rfl nofun
  | policyBroadcast allowed | policyMode mode | policyReset =>
      exact .passes rfl (.same rfl rfl rfl rfl rfl rfl rfl nofun)
  | reverify node =>
    simp only [controlStep, policyReverifyPeer]
    split_ifs
    · exact .passes rfl (.refl d)
    · split
      · exact .passes rfl (.refl d)
      · exact .resets rfl rfl ‹_› (.refl d)
  | sendBroadcast r a => exact .passes rfl (broadcastSend_passive d r a)

end Melodi
