import Melodi.System.Buffer
import Melodi.System.InOrder
import Melodi.System.Transit

/-!
# The policy at delivery

A frame is checked against the policy when it is received. The message it completes may wait in an ordered flow, or for
its hand-over after the lock is dropped, and the policy can change in the meantime.

* `held_handed_after_deny` : a held message is handed to a service that was denied since;
* `handed_under_policy` : and no message is handed over that the policy in force denies.
-/

namespace Melodi
open Lib Scenario
variable {a : Ambient} {o : BroadcastOpened} {m n : Complete} {d d' : Device} {i : Fin ORDER_FLOW_LIMIT}
  {s s' : Node} {node source : NodeId} {P : Platform} {rx' : RxState} {t : Token} {service : UInt16} {h : WireData}

/-! ## A message held while its service is denied -/

def HandsAllowed (P : Platform) (s : Node) (a : Label) : Prop :=
  ∀ m, (step P s a).dev.handed = m :: s.dev.handed → policyAllows s.dev m.source m.destinationService = true

namespace Scenario

def heldAndDenied : List Label :=
  established ++ orderedArrives 3 2 ++
    [.commit 0 ⟨0, 0, true⟩, .deliver 0 (.ok ()), .store 0 0, .sendAck 0 (.ok ()),
      .control (.policyService 6 .DENY), .work true 0 6000000000]

def handedThenDenied : List Label :=
  established ++ orderedArrives 3 1 ++
    [.commit 0 ⟨0, 0, true⟩, .deliver 0 (.ok ()), .deliver 0 (.ok ()), .store 0 0, .sendAck 0 (.ok ()),
      .control (.policyService 6 .DENY), .work true 0 6000000000]

end Scenario

/-- A held message is handed over after its service was denied. -/
theorem held_handed_after_deny :
    (∀ m ∈ (run (step Platform.plain) Node.initial (heldAndDenied ++ [.workDeliver (.ok ())])).dev.handed,
      (netlinkReceive (run (step Platform.plain) Node.initial heldAndDenied).bindings m (.ok ())).isOk = true) ∧
    ¬Along (step Platform.plain) (HandsAllowed Platform.plain) Node.initial
      (heldAndDenied ++ [.workDeliver (.ok ())]) := by
  refine ⟨by decide +kernel, ?_⟩
  intro h
  have hlast := along_split (step Platform.plain) h
  have hhead : (step Platform.plain (run (step Platform.plain) Node.initial heldAndDenied)
      (.workDeliver (.ok ()))).dev.handed.map (fun m => (m.source, m.destinationService)) = [(there, 6)] := by
    decide +kernel
  have hdenied : policyAllows (run (step Platform.plain) Node.initial heldAndDenied).dev there 6 =
      false := by decide +kernel
  have hbefore : (run (step Platform.plain) Node.initial heldAndDenied).dev.handed = [] := by decide +kernel
  obtain ⟨m, hm, hkey⟩ := List.map_eq_singleton_iff.mp hhead
  have hallowed := hlast m (by rw [hm, hbefore])
  obtain ⟨hsource, hservice⟩ := Prod.mk.inj hkey
  rw [hsource, hservice, hdenied] at hallowed
  cases hallowed

/-! ## What the policy says -/

structure PolicyKeyed (d : Device) : Prop where
  peers : d.policyPeers.Keyed (·.nodeId)
  services : d.policyServices.Keyed (·.service)

structure Allowed (d : Device) (source : NodeId) (service : UInt16) : Prop where
  peer : ∀ i e, d.policyPeers i = some e → e.nodeId = source → e.state ≠ .BLOCKED
  trusted : d.policyMode = .REQUIRE_TRUST → ∃ i e, d.policyPeers i = some e ∧ e.nodeId = source ∧ e.state = .TRUSTED
  service : ∀ i e, d.policyServices i = some e → e.service = service → e.action ≠ .DENY

theorem policyCheckLocked_isOk (hk : PolicyKeyed d) :
    (policyCheckLocked d source).isOk = true ↔
      (∀ i e, d.policyPeers i = some e → e.nodeId = source → e.state ≠ .BLOCKED) ∧
      (d.policyMode = .REQUIRE_TRUST →
        ∃ i e, d.policyPeers i = some e ∧ e.nodeId = source ∧ e.state = .TRUSTED) := by
  have hany : ∀ q : PolicyPeer → Bool, (policyPeerLocked d source).any q = true ↔
      ∃ i e, d.policyPeers i = some e ∧ e.nodeId = source ∧ q e = true := by
    intro q
    rw [Option.any_eq_true]
    constructor
    · rintro ⟨e, he, hq⟩
      obtain ⟨i, hi, hnode⟩ := hk.peers.find?_bind.mp he
      exact ⟨i, e, hi, hnode, hq⟩
    · rintro ⟨i, e, hi, hnode, hq⟩
      exact ⟨e, hk.peers.find?_bind.mpr ⟨i, hi, hnode⟩, hq⟩
  have hblocked := hany fun e => e.state = .BLOCKED
  have htrusted := hany fun e => e.state = .TRUSTED
  simp only [decide_eq_true_eq] at hblocked htrusted
  unfold policyCheckLocked
  dsimp only
  split_ifs with hb ht
  · obtain ⟨i, e, hi, hnode, hstate⟩ := hblocked.mp hb
    exact iff_of_false (by simp [Except.isOk, Except.toBool]) fun hok => hok.1 i e hi hnode hstate
  · refine iff_of_false (by simp [Except.isOk, Except.toBool]) fun hok => ?_
    have := htrusted.mpr (hok.2 ht.1)
    simp [this] at ht
  · refine iff_of_true rfl ⟨fun i e hi hnode hstate => hb (hblocked.mpr ⟨i, e, hi, hnode, hstate⟩), fun hmode => ?_⟩
    exact htrusted.mp (by simpa [hmode] using ht)

theorem policyCheckServiceLocked_isOk (hk : PolicyKeyed d) :
    (policyCheckServiceLocked d service false).isOk = true ↔
      ∀ i e, d.policyServices i = some e → e.service = service → e.action ≠ .DENY := by
  unfold policyCheckServiceLocked
  rw [if_neg (by simp)]
  split
  · rename_i e he
    obtain ⟨i, hi, hservice⟩ := hk.services.find?_bind.mp he
    split_ifs with hdeny
    · exact iff_of_false (by simp [Except.isOk, Except.toBool]) fun hok => hok i e hi hservice hdeny
    · refine iff_of_true rfl fun j e' hj hservice' => ?_
      have hij := hk.services i j e e' hi hj (hservice.trans hservice'.symm)
      rw [← hij, hi, Option.some.injEq] at hj
      exact hj ▸ hdeny
  · rename_i hnone
    refine iff_of_true rfl fun i e hi hservice _ => ?_
    rw [hk.services.find?_bind.mpr ⟨i, hi, hservice⟩] at hnone
    cases hnone

theorem policyAllows_iff (hk : PolicyKeyed d) :
    policyAllows d source service = true ↔ Allowed d source service := by
  rw [policyAllows, Bool.and_eq_true, policyCheckLocked_isOk hk, policyCheckServiceLocked_isOk hk]
  exact ⟨fun h => ⟨h.1.1, h.1.2, h.2⟩, fun h => ⟨⟨h.peer, h.trusted⟩, h.service⟩⟩

theorem Device.policy_inj (h : d'.policy = d.policy) :
    d'.policyMode = d.policyMode ∧ d'.policyPeers = d.policyPeers ∧ d'.policyServices = d.policyServices := by
  simp only [Device.policy, Prod.mk.injEq] at h
  exact ⟨h.1, h.2.1, h.2.2.1⟩

theorem PolicyKeyed.congr (hk : PolicyKeyed d) (h : d'.policy = d.policy) : PolicyKeyed d' := by
  obtain ⟨-, hpeers, hservices⟩ := Device.policy_inj h
  exact ⟨hpeers ▸ hk.peers, hservices ▸ hk.services⟩

theorem Allowed.congr (ha : Allowed d source service) (h : d'.policy = d.policy) : Allowed d' source service := by
  obtain ⟨hmode, hpeers, hservices⟩ := Device.policy_inj h
  exact ⟨hpeers ▸ ha.peer, hpeers ▸ hmode ▸ ha.trusted, hservices ▸ ha.service⟩

/-! ## Operations on the policy -/

def Spares (s : Node) : Control → Prop
  -- the held messages of a blocked peer go with its session
  | .policyPeer node .BLOCKED => ∀ m ∈ s.transit, m.source ≠ node
  | .policyClear node => s.dev.policyMode = .REQUIRE_TRUST → ∀ m ∈ s.awaiting, m.source ≠ node
  | .policyService service .DENY => ∀ m ∈ s.awaiting, m.destinationService ≠ service
  | .policyMode .REQUIRE_TRUST =>
    ∀ m ∈ s.awaiting, (policyPeerLocked s.dev m.source).any (fun e => e.state = .TRUSTED) = true
  -- a new identity forgets the trusted peers, and resets the flows
  | .identity o _ => o.replacing = true → o.previousGiven = false → s.dev.policyMode = .REQUIRE_TRUST → s.transit = []
  | _ => True

/-- All that is received and not yet handed over is allowed. -/
structure Lawful (s : Node) : Prop where
  keyed : PolicyKeyed s.dev
  allowed : ∀ m ∈ s.awaiting, Allowed s.dev m.source m.destinationService

theorem lawful_initial : Lawful Node.initial where
  keyed := ⟨Table.keyed_empty _, Table.keyed_empty _⟩
  allowed := by
    intro m hm
    rcases mem_awaiting.mp hm with hm | ⟨c, hc, -⟩ | ⟨n, hn, -⟩
    · obtain ⟨j, n, hj, -⟩ := mem_heldMessages.mp hm
      cases hj
    · cases hc
    · cases hn

theorem Brings.allows {a : Label} {c : Call} (h : Brings P d m a c) :
    policyAllows d m.source m.destinationService = true := by
  unfold Brings at h
  split at h
  · rename_i k amb o
    obtain ⟨out, hout, hm⟩ := h
    rcases dataCommit_cases (Prod.mk.eta (p := dataCommit P d o amb)).symm with ⟨-, e, hr⟩ |
      ⟨-, -, -, bitmap, status, -, hr⟩ |
      ⟨i, p, d₁, t, rx', hcur, -, -, ht, -⟩
    · cases hr.symm.trans hout
    · obtain rfl := Except.ok.inj (hr.symm.trans hout)
      cases hm
    · rw [hout] at ht
      have hof := ht.isOf hm
      rw [hof.source, hof.destinationService]
      exact hcur.allows
  · rename_i k amb o t
    obtain ⟨out, hout, hm⟩ := h
    rcases broadcastAdmit_cases (Prod.mk.eta (p := broadcastAdmit P d o t amb)).symm with ⟨-, e, hr⟩ |
      ⟨rx', -, ht, hallow, -⟩
    · cases hr.symm.trans hout
    · rw [hout] at ht
      have hof := ht.isOf hm
      rw [hof.source, hof.destinationService]
      exact hallow
  · exact h.elim

theorem Passes.lawful {a : Label} (hp : Passes P s a s') (hl : Lawful s) : Lawful s' where
  keyed := hl.keyed.congr hp.policy
  allowed := by
    intro m hm
    rcases hp.awaiting m hm with h | ⟨c, -, h⟩
    · exact (hl.allowed m h).congr hp.policy
    · exact ((policyAllows_iff hl.keyed).mp h.allows).congr hp.policy

theorem cons_ne_self_of_eq {l l' : List Complete} (h : l' = l) (hm : l' = m :: l) : False := by
  have := congrArg List.length (h.symm.trans hm)
  simp at this

theorem Passes.hands {a : Label} (hp : Passes P s a s') (hl : Lawful s) (hm : s'.dev.handed = m :: s.dev.handed) :
    policyAllows s.dev m.source m.destinationService = true := by
  rcases hp.handed with heq | ⟨m', hm', heq⟩
  · exact (cons_ne_self_of_eq heq hm).elim
  · obtain rfl := (List.cons.inj (heq.symm.trans hm)).1
    exact (policyAllows_iff hl.keyed).mpr (hl.allowed m' hm')

theorem Owned.heldMessages_nil (ho : Owned d) (hpeers : d.peers = Table.empty) (m : Complete) :
    m ∉ d.rx.heldMessages := by
  intro hm
  obtain ⟨j, n, hj, -⟩ := mem_heldMessages.mp hm
  obtain ⟨f, hf, -⟩ := ho.message_flow j n hj
  obtain ⟨k, p, hp, -⟩ := ho.flow_owner _ f hf
  rw [hpeers] at hp
  cases hp

theorem rxPeerReset_held (ho : Owned d) (hm : m ∈ (rxPeerReset d.rx node).heldMessages) : m.source ≠ node := by
  intro hsource
  obtain ⟨j, n, hj, rfl⟩ := mem_heldMessages.mp hm
  simp only [rxPeerReset, Table.drop_eq_some] at hj
  obtain ⟨f, hf, hfits⟩ := ho.message_flow j n hj.1
  have hours := hj.2
  rw [hf, Option.any_some, hfits.source, hsource] at hours
  simp at hours

theorem policySetPeer_cases (P : Platform) (ho : Owned d) (node : NodeId) (state : PolicyPeerState) :
    (policySetPeer P d node state).1 = d ∨
    ∃ k, (d.policyPeers.find? fun e => e.nodeId = node).or d.policyPeers.free? = some k ∧
      (policySetPeer P d node state).1.policyPeers = d.policyPeers.set k ⟨node, state⟩ ∧
      (policySetPeer P d node state).1.policyMode = d.policyMode ∧
      (policySetPeer P d node state).1.policyServices = d.policyServices ∧
      (state = .BLOCKED → ∀ m ∈ (policySetPeer P d node state).1.rx.heldMessages, m.source ≠ node) := by
  unfold policySetPeer
  split_ifs with hvalid
  · exact .inl rfl
  split
  · exact .inl rfl
  rename_i k hslot
  refine .inr ⟨k, hslot, ?_⟩
  dsimp only
  split
  · rename_i i hpeer
    obtain ⟨p, hp, hnode⟩ := Table.find?_some hpeer
    simp only [decide_eq_true_eq] at hnode
    subst hnode
    rw [peerSessionResetLocked_some hp]
    exact ⟨rfl, rfl, rfl, fun _ m hm => rxPeerReset_held ho hm⟩
  · rename_i hnot
    refine ⟨rfl, rfl, rfl, ?_⟩
    rintro rfl m hm rfl
    obtain ⟨j, n, hj, rfl⟩ := mem_heldMessages.mp hm
    obtain ⟨f, hf, hfits⟩ := ho.message_flow j n hj
    obtain ⟨i, p, hp, hown⟩ := ho.flow_owner _ f hf
    cases hfind : d.peers.find? fun p => p.nodeId = n.message.source with
    | some i => exact hnot i rfl hfind
    | none =>
      have := Table.find?_none hfind hp
      simp [hown.nodeId, hfits.source] at this

theorem Allowed.setPeer {state : PolicyPeerState} {k : Fin POLICY_PEER_LIMIT}
    (hslot : (d.policyPeers.find? fun e => e.nodeId = node).or d.policyPeers.free? = some k)
    (hpeers : d'.policyPeers = d.policyPeers.set k ⟨node, state⟩) (hmode : d'.policyMode = d.policyMode)
    (hservices : d'.policyServices = d.policyServices) (ha : Allowed d source service)
    (hne : state = .TRUSTED ∨ source ≠ node) : Allowed d' source service where
  peer := by
    intro i e hi hnode hblocked
    rw [hpeers, Table.set_apply] at hi
    split_ifs at hi with hik
    · cases hi
      rcases hne with rfl | hne
      · cases hblocked
      · exact hne hnode.symm
    · exact ha.peer i e hi hnode hblocked
  trusted := by
    intro hreq
    obtain ⟨i, e, hi, hnode, htrusted⟩ := ha.trusted (hmode ▸ hreq)
    by_cases hik : i = k
    · subst hik
      have hsame : e.nodeId = node := by simpa using Table.find?_or_free?_some hslot hi
      rcases hne with rfl | hne
      · exact ⟨i, _, by rw [hpeers, Table.set_self], hsame.symm.trans hnode, rfl⟩
      · exact absurd (hnode.symm.trans hsame) hne
    · exact ⟨i, e, by rw [hpeers, Table.set_of_ne _ _ hik]; exact hi, hnode, htrusted⟩
  service := hservices ▸ ha.service

theorem Allowed.clearPeer {k : Fin POLICY_PEER_LIMIT} (hslot : (d.policyPeers.find? fun e => e.nodeId = node) = some k)
    (ha : Allowed d source service) (hne : d.policyMode = .REQUIRE_TRUST → source ≠ node) :
    Allowed { d with policyPeers := d.policyPeers.clear k } source service where
  peer := fun i e hi => ha.peer i e (Table.clear_eq_some.mp hi).2
  trusted := by
    intro hreq
    obtain ⟨i, e, hi, hnode, htrusted⟩ := ha.trusted hreq
    refine ⟨i, e, Table.clear_eq_some.mpr ⟨?_, hi⟩, hnode, htrusted⟩
    rintro rfl
    obtain ⟨e', he', hsame⟩ := Table.find?_some hslot
    rw [hi, Option.some.injEq] at he'
    subst he'
    exact hne hreq (hnode.symm.trans (by simpa using hsame))
  service := ha.service

theorem policySetService_cases (d : Device) (service : UInt16) (action : PolicyAction) :
    (policySetService d service action).1 = d ∨
    (∃ k, (policySetService d service action).1 = { d with policyServices := d.policyServices.clear k }) ∨
    ∃ k, (d.policyServices.find? fun e => e.service = service).or d.policyServices.free? = some k ∧
      (policySetService d service action).1 =
      { d with policyServices := d.policyServices.set k ⟨service, action⟩ } := by
  unfold policySetService
  split_ifs
  · exact .inl rfl
  split
  · exact .inr (.inl ⟨_, rfl⟩)
  · exact .inl rfl
  · rename_i k hfind
    exact .inr (.inr ⟨_, by rw [hfind]; rfl, rfl⟩)
  · rename_i k hfind hfree
    exact .inr (.inr ⟨_, by rw [hfind, hfree]; rfl, rfl⟩)
  · exact .inl rfl

theorem Allowed.setService {k : Fin POLICY_SERVICE_LIMIT} {action : PolicyAction} {destination : UInt16}
    (ha : Allowed d source destination) (hne : action = .DENY → destination ≠ service) :
    Allowed { d with policyServices := d.policyServices.set k ⟨service, action⟩ } source destination where
  peer := ha.peer
  trusted := ha.trusted
  service := by
    intro i e hi hservice hdeny
    dsimp only at hi
    rw [Table.set_apply] at hi
    split_ifs at hi with hik
    · cases hi
      exact hne hdeny hservice.symm
    · exact ha.service i e hi hservice hdeny

theorem policyClearPeer_cases (P : Platform) (d : Device) (node : NodeId) :
    (policyClearPeer P d node).1 = d ∨
    ∃ k, (d.policyPeers.find? fun e => e.nodeId = node) = some k ∧
      (policyClearPeer P d node).1 = { d with policyPeers := d.policyPeers.clear k } := by
  unfold policyClearPeer
  split_ifs
  · exact .inl rfl
  split
  · exact .inl rfl
  · exact .inr ⟨_, ‹_›, rfl⟩

theorem identityRestart_policy (d : Device) (o : IdentityOpened) (configure : Bool) :
    (identityRestart d o configure).policyMode = d.policyMode ∧
    (identityRestart d o configure).policyServices = d.policyServices ∧
    (identityRestart d o configure).policyPeers =
      if o.replacing = true ∧ o.previousGiven = false then Table.empty else d.policyPeers := by
  unfold identityRestart
  dsimp only
  split_ifs <;> exact ⟨rfl, rfl, rfl⟩

theorem identityCommit_policy (d : Device) (o : IdentityOpened) (configure : Bool) :
    (identityCommit d o configure).policyMode = d.policyMode ∧
    (identityCommit d o configure).policyServices = d.policyServices ∧
    (identityCommit d o configure).policyPeers =
      if o.replacing = true ∧ o.previousGiven = false then Table.empty else d.policyPeers := by
  have hpolicy := (detachReset_clears { d with
    nodeId := o.nodeId, identityReady := true, identityGeneration := o.generation,
    localNativeLocator := o.nativeLocator, localCollisionRound := o.round, conflictPending := false,
    transmitCounter := 0 }).policy
  obtain ⟨hmode, hpeers, hservices⟩ := Device.policy_inj hpolicy
  obtain ⟨hmode', hservices', hpeers'⟩ := identityRestart_policy (detachReset { d with
    nodeId := o.nodeId, identityReady := true, identityGeneration := o.generation,
    localNativeLocator := o.nativeLocator, localCollisionRound := o.round, conflictPending := false,
    transmitCounter := 0 }) o configure
  refine ⟨hmode'.trans hmode, hservices'.trans hservices, hpeers'.trans ?_⟩
  rw [hpeers]

theorem Spares.lawful {c : Control} (ho : Owned s.dev) (hl : Lawful s) (hs : Spares s c) :
    Lawful { s with dev := controlStep P s.dev c } := by
  have hwas : ∀ m ∈ Node.awaiting { s with dev := controlStep P s.dev c }, m ∈ s.awaiting := by
    intro m hm
    rcases awaiting_control ho hm with ⟨-, hm⟩ | hm
    · exact List.mem_append_left _ hm
    · exact List.mem_append_right _ hm
  have hold := fun m hm => hl.allowed m (hwas m hm)
  cases hkeep : c.keepsPolicy with
  | true =>
    have hpolicy := (controlStep_clears P s.dev hkeep).policy
    exact ⟨hl.keyed.congr hpolicy, fun m hm => (hold m hm).congr hpolicy⟩
  | false =>
    cases c with
    | identity o configure =>
      obtain ⟨hmode, hservices, hpeers⟩ := identityCommit_policy s.dev o configure
      have hnone : (controlStep P s.dev (.identity o configure)).peers = Table.empty := by
        show (identityRestart _ o configure).peers = _
        unfold identityRestart
        dsimp only
        split_ifs <;> rfl
      have hgone := ((controlStep_evolves P s.dev (.identity o configure) ho).1).heldMessages_nil hnone
      by_cases hforget : o.replacing = true ∧ o.previousGiven = false
      · rw [if_pos hforget] at hpeers
        refine ⟨⟨hpeers ▸ Table.keyed_empty _, hservices ▸ hl.keyed.services⟩, fun m hm => ?_⟩
        refine ⟨hpeers ▸ nofun, fun hreq => ?_, hservices ▸ (hold m hm).service⟩
        rcases awaiting_control ho hm with ⟨hm, -⟩ | hm
        · exact (hgone m hm).elim
        · rw [hs hforget.1 hforget.2 (hmode ▸ hreq)] at hm
          cases hm
      · rw [if_neg hforget] at hpeers
        refine ⟨⟨hpeers ▸ hl.keyed.peers, hservices ▸ hl.keyed.services⟩, fun m hm => ?_⟩
        exact ⟨hpeers ▸ (hold m hm).peer, hpeers ▸ hmode ▸ (hold m hm).trusted, hservices ▸ (hold m hm).service⟩
    | namespaceReset | policyReset =>
        exact ⟨⟨Table.keyed_empty _, Table.keyed_empty _⟩, fun m hm => ⟨nofun, nofun, nofun⟩⟩
    | policyPeer node state =>
      rcases policySetPeer_cases P ho node state with heq | ⟨k, hslot, hpeers, hmode, hservices, hblocked⟩
      · have hpolicy : (policySetPeer P s.dev node state).1.policy = s.dev.policy := by rw [heq]
        exact ⟨hl.keyed.congr hpolicy, fun m hm => (hold m hm).congr hpolicy⟩
      refine ⟨⟨?_, ?_⟩, fun m hm => (hold m hm).setPeer hslot hpeers hmode hservices ?_⟩
      · show (policySetPeer P s.dev node state).1.policyPeers.Keyed _
        rw [hpeers]
        exact hl.keyed.peers.set hslot
      · show (policySetPeer P s.dev node state).1.policyServices.Keyed _
        rw [hservices]
        exact hl.keyed.services
      cases state with
      | TRUSTED => exact .inl rfl
      | BLOCKED =>
        rcases awaiting_control ho hm with ⟨hm, -⟩ | hm
        · exact .inr (hblocked rfl m hm)
        · exact .inr (hs m hm)
    | policyClear node =>
      have hstep : controlStep P s.dev (.policyClear node) = (policyClearPeer P s.dev node).1 := rfl
      rcases policyClearPeer_cases P s.dev node with heq | ⟨k, hslot, heq⟩ <;> rw [hstep, heq] at hwas hold ⊢
      · exact hl
      · refine ⟨⟨hl.keyed.peers.clear k, hl.keyed.services⟩, fun m hm => (hold m hm).clearPeer hslot fun hreq => ?_⟩
        exact hs hreq m (hwas m hm)
    | policyService service action =>
      have hstep : controlStep P s.dev (.policyService service action) = (policySetService s.dev service action).1 :=
        rfl
      rcases policySetService_cases s.dev service action with heq | ⟨k, heq⟩ | ⟨k, hslot, heq⟩ <;>
        rw [hstep, heq] at hwas hold ⊢
      · exact hl
      · refine ⟨⟨hl.keyed.peers, hl.keyed.services.clear k⟩, fun m hm => ?_⟩
        exact ⟨(hold m hm).peer, (hold m hm).trusted, fun i e hi =>
          (hold m hm).service i e (Table.clear_eq_some.mp hi).2⟩
      · refine ⟨⟨hl.keyed.peers, hl.keyed.services.set hslot⟩, fun m hm => (hold m hm).setService ?_⟩
        rintro rfl
        exact hs m (hwas m hm)
    | policyBroadcast allowed => exact ⟨⟨hl.keyed.peers, hl.keyed.services⟩, fun m hm =>
      ⟨(hold m hm).peer, (hold m hm).trusted, (hold m hm).service⟩⟩
    | policyMode mode =>
      refine ⟨⟨hl.keyed.peers, hl.keyed.services⟩, fun m hm => ⟨(hold m hm).peer, ?_, (hold m hm).service⟩⟩
      intro hreq
      obtain rfl : mode = .REQUIRE_TRUST := hreq
      obtain ⟨e, he, htrusted⟩ := (Option.any_eq_true _ _).mp (hs m (hwas m hm))
      obtain ⟨i, hi, hnode⟩ := hl.keyed.peers.find?_bind.mp he
      exact ⟨i, e, hi, hnode, by simpa using htrusted⟩
    | _ => cases hkeep

/-! ## Whole runs -/

def SparesLabel (s : Node) : Label → Prop
  | .control c => Spares s c
  | _ => True

theorem step_lawful (P : Platform) (s : Node) (a : Label) (ha : SparesLabel s a) (h : NodeOwned s ∧ Lawful s) :
    NodeOwned (step P s a) ∧ Lawful (step P s a) := by
  refine ⟨step_owned P s a h.1, ?_⟩
  cases a with
  | control c => exact Spares.lawful h.1.dev h.2 ha
  | _ => exact (step_passes P s fun c h => by cases h).lawful h.2

theorem step_handsAllowed (P : Platform) (s : Node) (a : Label) (h : NodeOwned s ∧ Lawful s) : HandsAllowed P s a := by
  intro m hm
  cases a with
  | control c =>
    obtain ⟨es, hlog, hes⟩ := (controlStep_evolves P s.dev c h.1.dev).2.silent
    exact (cons_ne_self_of_eq (hes.handed hlog) hm).elim
  | _ => exact (step_passes P s fun c h => by cases h).hands h.2 hm

/-- If policy operations spare what is received and not yet handed over, every message is handed over under a policy
that allows it. -/
theorem handed_under_policy (P : Platform) (as : List Label) (h : Along (step P) SparesLabel Node.initial as) :
    Along (step P) (HandsAllowed P) Node.initial as :=
  along_of_invariant (step P) (fun s => NodeOwned s ∧ Lawful s) (fun s a => step_lawful P s a)
    (fun s a _ => step_handsAllowed P s a) ⟨nodeOwned_initial, lawful_initial⟩ h

instance decidableSpares (s : Node) : (c : Control) → Decidable (Spares s c)
  | .policyPeer node .BLOCKED => inferInstanceAs (Decidable (∀ m ∈ s.transit, m.source ≠ node))
  | .policyClear node =>
    inferInstanceAs (Decidable (s.dev.policyMode = .REQUIRE_TRUST → ∀ m ∈ s.awaiting, m.source ≠ node))
  | .policyService service .DENY => inferInstanceAs (Decidable (∀ m ∈ s.awaiting, m.destinationService ≠ service))
  | .policyMode .REQUIRE_TRUST => inferInstanceAs (Decidable
      (∀ m ∈ s.awaiting, (policyPeerLocked s.dev m.source).any (fun e => e.state = .TRUSTED) = true))
  | .identity o _ => inferInstanceAs (Decidable
      (o.replacing = true → o.previousGiven = false → s.dev.policyMode = .REQUIRE_TRUST → s.transit = []))
  | .policyPeer _ .TRUSTED | .policyService _ .ALLOW | .policyService _ .CLEAR | .policyMode .ALLOW_AUTHENTICATED
  | .hello .. | .control .. | .sendChallenge .. | .challenge .. | .response .. | .announce .. | .announceSent ..
  | .probe .. | .expiry .. | .link .. | .linkFailed | .configure .. | .detach | .namespaceReset | .policyBroadcast ..
  | .policyReset | .reverify .. | .sendBroadcast .. => isTrue trivial

instance decidableSparesLabel (s : Node) : (a : Label) → Decidable (SparesLabel s a)
  | .control c => decidableSpares s c
  | .bind .. | .rxData .. | .rxAck .. | .commit .. | .mark .. | .admitBroadcast .. | .deliver .. | .echo .. | .store ..
  | .sendAck .. | .ackCommit .. | .sealMessage .. | .work .. | .workDeliver .. | .send .. => isTrue trivial

theorem handed_under_policy_before_deny :
    Along (step Platform.plain) SparesLabel Node.initial handedThenDenied ∧
    (run (step Platform.plain) Node.initial handedThenDenied).dev.handed.length = 1 ∧
    Along (step Platform.plain) (HandsAllowed Platform.plain) Node.initial handedThenDenied := by
  have hspares : Along (step Platform.plain) SparesLabel Node.initial handedThenDenied := by decide +kernel
  exact ⟨hspares, by decide +kernel, handed_under_policy _ _ hspares⟩

/-! ## What the check decides -/

theorem controlStep_keyed (P : Platform) (ho : Owned d) (hk : PolicyKeyed d) (c : Control) :
    PolicyKeyed (controlStep P d c) := by
  cases hkeep : c.keepsPolicy with
  | true => exact hk.congr (controlStep_clears P d hkeep).policy
  | false =>
    cases c with
    | identity o configure =>
      obtain ⟨-, hservices, hpeers⟩ := identityCommit_policy d o configure
      refine ⟨?_, hservices ▸ hk.services⟩
      show (identityCommit d o configure).policyPeers.Keyed _
      rw [hpeers]
      split_ifs
      · exact Table.keyed_empty _
      · exact hk.peers
    | namespaceReset | policyReset => exact ⟨Table.keyed_empty _, Table.keyed_empty _⟩
    | policyPeer node state =>
      show PolicyKeyed (policySetPeer P d node state).1
      rcases policySetPeer_cases P ho node state with heq | ⟨k, hslot, hpeers, -, hservices, -⟩
      · rw [heq]
        exact hk
      · exact ⟨hpeers ▸ hk.peers.set hslot, hservices ▸ hk.services⟩
    | policyClear node =>
      show PolicyKeyed (policyClearPeer P d node).1
      rcases policyClearPeer_cases P d node with heq | ⟨k, -, heq⟩ <;> rw [heq]
      · exact hk
      · exact ⟨hk.peers.clear k, hk.services⟩
    | policyService service action =>
      show PolicyKeyed (policySetService d service action).1
      rcases policySetService_cases d service action with heq | ⟨k, heq⟩ | ⟨k, hslot, heq⟩ <;> rw [heq]
      · exact hk
      · exact ⟨hk.peers, hk.services.clear k⟩
      · exact ⟨hk.peers, hk.services.set hslot⟩
    | policyBroadcast _ | policyMode _ => exact ⟨hk.peers, hk.services⟩
    | _ => cases hkeep

/-- In every run the check decides what the tables and the mode say: whoever is blocked or, where trust is required, not
trusted is refused, and so is a denied service. -/
theorem policy_decides (P : Platform) (as : List Label) (source : NodeId) (service : UInt16) :
    policyAllows (run (step P) Node.initial as).dev source service = true ↔
      Allowed (run (step P) Node.initial as).dev source service := by
  have hrun := run_invariant (step P) (fun s => NodeOwned s ∧ PolicyKeyed s.dev) (fun s a h => ?_)
    ⟨nodeOwned_initial, lawful_initial.keyed⟩ as
  · exact policyAllows_iff hrun.2
  · refine ⟨step_owned P s a h.1, ?_⟩
    cases a with
    | control c => exact controlStep_keyed P h.1.dev h.2 c
    | _ => exact h.2.congr (step_passes P s fun c h => by cases h).policy

end Melodi
