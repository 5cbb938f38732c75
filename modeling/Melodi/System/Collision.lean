import Melodi.Core.Mapping
import Melodi.System.Claims

/-!
# Two nodes with one locator

Two nodes that derive the same locator hear each other's HELLOs. The greater NodeId gives way, from the round behind
its own; `resolveCollisionSet` searches for both from round zero. The two agree.

* `pair_collision_resolved` : once the greater one has heard the smaller one, the two addresses are those of
  `resolveCollisionSet`.
-/

namespace Melodi
open Lib Scenario

/-! ## Addresses -/

def WireHello.address (hello : WireHello) : Address :=
  ⟨hello.nodeId, hello.meshDomain, hello.common.sourceNativeLocator, hello.collisionRound⟩

section
variable {P : Platform} {d : Device} {c : Claim} {i : Fin PEER_LIMIT}

theorem localReassignLocked_address {locator : UInt32} {round : Nat} (hround : d.localCollisionRound.toNat ≠ U32_MAX)
    (h : mapNativeLocatorAvailable P d.meshDomain d.nodeId (d.localCollisionRound.toNat + 1) (occupiedLocators d) =
      .ok (locator, round)) :
    (localReassignLocked P d).1.address = ⟨d.nodeId, d.meshDomain, locator, UInt32.ofNat round⟩ := by
  rw [localReassignLocked, if_neg hround, h]
  exact (resetAllSessions_inside _).address

theorem claimLocked_address (h : claimCheck P d c = .ok i) :
    (claimLocked P d c true).1.address =
      if claimsLocal d c then (localReassignLocked P (claimWrite d c i)).1.address else d.address := by
  obtain ⟨hnode, hlocal⟩ := claimWrite_nodeId d c i
  have hiff : (decide (c.nativeLocator = (claimWrite d c i).localNativeLocator) = true ∧
      c.nodeId < (claimWrite d c i).nodeId ∧ true = true) ↔ claimsLocal d c = true := by
    rw [hnode, hlocal]
    simp [claimsLocal]
  unfold claimLocked
  rw [h]
  dsimp only
  rw [if_congr hiff rfl rfl]
  by_cases hwins : claimsLocal d c = true
  · rw [if_pos hwins, if_pos hwins]
    split <;> rename_i heq <;> rw [heq] <;> rfl
  · rw [if_neg hwins, if_neg hwins, if_neg (by simp)]
    exact (claimWrite_inside d c i).address

theorem claimLocked_address_lost (P : Platform) (h : claimsLocal d c = false) :
    (claimLocked P d c true).1.address = d.address := by
  cases hcheck : claimCheck P d c with
  | error e =>
    rw [claimLocked, hcheck]
  | ok i => rw [claimLocked_address hcheck, h, if_neg Bool.false_ne_true]

theorem receiveHello_address (P : Platform) {hello : WireHello} (link : RxMeta) (jiffies : UInt64)
    (hexpiry : hello.expirySeconds = 300) (hdomain : hello.meshDomain = d.meshDomain) :
    (receiveHello P d hello link true jiffies).1.address = (claimLocked P d (hello.claim link) true).1.address := by
  unfold receiveHello
  rw [if_neg (by rw [hexpiry]; decide), if_neg (by simp), if_neg (by simp [hdomain])]
  split
  · rename_i heq
    rw [heq]
  rename_i heq
  rw [heq]
  split
  · rfl
  dsimp only
  split_ifs
  · exact (peerSessionResetLocked_inside _ _).address
  · rfl

theorem discoveryAnnounce_address (d : Device) (challenge : Octets) (messageId : UInt64) :
    (discoveryAnnounce d challenge messageId).1.address = d.address ∧
    (discoveryAnnounce d challenge messageId).1.peers = d.peers ∧
    ∀ hello conflict, (discoveryAnnounce d challenge messageId).2 = .ok (hello, conflict) →
      hello.address = d.address ∧ hello.expirySeconds = 300 := by
  unfold discoveryAnnounce counterNextLocked
  split_ifs
  · exact ⟨rfl, rfl, nofun⟩
  · exact ⟨rfl, rfl, nofun⟩
  refine ⟨rfl, rfl, fun hello conflict h => ?_⟩
  obtain ⟨rfl, -⟩ := Prod.mk.inj (Except.ok.inj h)
  exact ⟨rfl, rfl⟩

theorem identityCommit_address (d : Device) (o : IdentityOpened) (configure : Bool) :
    (identityCommit d o configure).address = ⟨o.nodeId, d.meshDomain, o.nativeLocator, o.round⟩ ∧
    (identityCommit d o configure).peers = Table.empty := by
  have hrestart : ∀ d : Device, (identityRestart d o configure).address = d.address ∧
      (identityRestart d o configure).peers = d.peers := by
    intro d
    unfold identityRestart
    dsimp only
    split_ifs <;> exact ⟨rfl, rfl⟩
  unfold identityCommit discoveryResetLocked
  dsimp only
  rw [(hrestart _).1, (hrestart _).2]
  exact ⟨(resetAllSessions_inside _).address, rfl⟩

theorem claimCheck_first (hlink : c.linkLocator ≠ 0 ∧ c.linkLocator ≠ LINK_LOCATOR_BROADCAST)
    (hderived : mapNativeLocator P d.meshDomain c.nodeId c.round.toNat = .ok (c.nativeLocator, c.round.toNat))
    (hne : c.nodeId ≠ d.nodeId) (hempty : d.peers = Table.empty) : ∃ i, claimCheck P d c = .ok i := by
  cases hslot : peerSlot d c.nodeId with
  | some i => exact ⟨i, by simp [claimCheck, hlink, hderived, hne, hslot, hempty]⟩
  | none =>
    obtain ⟨p, hp⟩ := Table.free?_none (Option.or_eq_none_iff.mp hslot).2 ⟨0, by decide⟩
    rw [hempty] at hp
    cases hp

theorem occupiedLocators_first (hempty : d.peers = Table.empty) (c : Claim) (i : Fin PEER_LIMIT) (l : UInt32) :
    l ∈ occupiedLocators (claimWrite d c i) ↔ l ∈ [c.nativeLocator] := by
  have hnone : d.peers i = none := by rw [hempty]; rfl
  have hpeers : (claimWrite d c i).peers = (Table.empty : Table PEER_LIMIT Peer).set i (c.newPeer d.serial) := by
    rw [claimWrite, hnone, ← hempty]
  rw [occupiedLocators, hpeers, List.mem_filterMap, List.mem_singleton]
  constructor
  · rintro ⟨j, -, hj⟩
    rw [Table.set_apply] at hj
    split_ifs at hj
    · exact (Option.some.inj hj).symm
    · cases hj
  · rintro rfl
    exact ⟨i, List.mem_finRange i, by rw [Table.set_self]; rfl⟩

end

/-! ## The pair -/

/-- One of the two nodes. History: the HELLOs that it announced, and whether it heard one of the other node. -/
structure Party where
  dev : Device
  aired : List WireHello := []
  heard : Bool := false

/-- What a device does while two of them look for their locators. -/
inductive PartyOp where
  | link (ready : Bool) (locator : UInt32)
  | announce (challenge : Octets) (messageId : UInt64)
  | sent (round : UInt32)
  | hello (hello : WireHello) (link : RxMeta) (jiffies : UInt64)

def partyStep (P : Platform) (others : List WireHello) (n : Party) : PartyOp → Party
  | .link ready locator => { n with dev := linkReady n.dev ready locator }
  | .announce challenge messageId =>
    match discoveryAnnounce n.dev challenge messageId with
    | (d, .error _) => { n with dev := d }
    | (d, .ok (hello, _)) => { n with dev := d, aired := hello :: n.aired }
  | .sent round => { n with dev := announceSent n.dev round }
  | .hello hello link jiffies =>
    if hello ∈ others ∧ link.sourceLocator ≠ 0 ∧ link.sourceLocator ≠ LINK_LOCATOR_BROADCAST then
      { n with dev := (receiveHello P n.dev hello link true jiffies).1, heard := true }
    else n

/-- One of the two devices moves; it hears what the other has put on the air. -/
def pairStep (P : Platform) (s : Party × Party) : Bool × PartyOp → Party × Party
  | (false, op) => (partyStep P s.2.aired s.1 op, s.2)
  | (true, op) => (s.1, partyStep P s.1.aired s.2 op)

theorem partyStep_cases (P : Platform) (others : List WireHello) (n : Party) (op : PartyOp) :
    ((partyStep P others n op).dev.address = n.dev.address ∧ (partyStep P others n op).dev.peers = n.dev.peers ∧
      (partyStep P others n op).heard = n.heard ∧
      ∀ hello ∈ (partyStep P others n op).aired,
        hello ∈ n.aired ∨ hello.expirySeconds = 300 ∧ hello.address = n.dev.address) ∨
    ∃ hello ∈ others, ∃ link jiffies, (link.sourceLocator ≠ 0 ∧ link.sourceLocator ≠ LINK_LOCATOR_BROADCAST) ∧
      partyStep P others n op = { n with dev := (receiveHello P n.dev hello link true jiffies).1, heard := true } := by
  cases op with
  | link ready locator =>
    have hsame : (linkReady n.dev ready locator).address = n.dev.address ∧
        (linkReady n.dev ready locator).peers = n.dev.peers := by
      unfold linkReady
      split_ifs <;> exact ⟨rfl, rfl⟩
    exact .inl ⟨hsame.1, hsame.2, rfl, fun _ => .inl⟩
  | announce challenge messageId =>
    obtain ⟨haddress, hpeers, hhello⟩ := discoveryAnnounce_address n.dev challenge messageId
    refine .inl ?_
    simp only [partyStep]
    split <;> rename_i heq <;> rw [heq] at haddress hpeers hhello
    · exact ⟨haddress, hpeers, rfl, fun _ => .inl⟩
    obtain ⟨hsame, hexpiry⟩ := hhello _ _ rfl
    refine ⟨haddress, hpeers, rfl, fun hello hmem => ?_⟩
    rcases List.mem_cons.mp hmem with rfl | hmem
    · exact .inr ⟨hexpiry, hsame⟩
    · exact .inl hmem
  | sent round =>
    have hsame : (announceSent n.dev round).address = n.dev.address ∧ (announceSent n.dev round).peers =
      n.dev.peers := by
      unfold announceSent
      split_ifs <;> exact ⟨rfl, rfl⟩
    exact .inl ⟨hsame.1, hsame.2, rfl, fun _ => .inl⟩
  | hello hello link jiffies =>
    simp only [partyStep]
    split_ifs with h
    · exact .inr ⟨hello, h.1, link, jiffies, h.2, rfl⟩
    · exact .inl ⟨rfl, rfl, rfl, fun _ => .inl⟩

/-- Two addresses with one locator, and the one that the greater NodeId takes next. -/
structure Collides (P : Platform) (A B B' : Address) : Prop where
  order : A.nodeId < B.nodeId
  meshDomain : B.meshDomain = A.meshDomain ∧ B'.meshDomain = A.meshDomain
  nodeId : B'.nodeId = B.nodeId
  locator : B.nativeLocator = A.nativeLocator
  derived : mapNativeLocator P A.meshDomain A.nodeId A.round.toNat = .ok (A.nativeLocator, A.round.toNat)
  valid : mappingNodeValid B.nodeId = true
  next : FirstRound P A.meshDomain B.nodeId [A.nativeLocator] (B.round.toNat + 1) B'.nativeLocator B'.round.toNat

/-- What holds in every run: only the greater NodeId changes its address, with the first HELLO that it hears. -/
structure Settling (A B B' : Address) (s : Party × Party) : Prop where
  smaller : s.1.dev.address = A
  greater : s.2.dev.address = if s.2.heard then B' else B
  alone : s.2.heard = false → s.2.dev.peers = Table.empty
  tells_smaller : ∀ hello ∈ s.1.aired, hello.expirySeconds = 300 ∧ hello.address = A
  tells_greater : ∀ hello ∈ s.2.aired, hello.expirySeconds = 300 ∧ (hello.address = B ∨ hello.address = B')

section
variable {P : Platform} {A B B' : Address} {s : Party × Party}

theorem Settling.smaller_hears (hc : Collides P A B B') (h : Settling A B B' s) {hello : WireHello}
    (hmem : hello ∈ s.2.aired) (link : RxMeta) (jiffies : UInt64) :
    (receiveHello P s.1.dev hello link true jiffies).1.address = A := by
  obtain ⟨hexpiry, haddress⟩ := h.tells_greater hello hmem
  have hfrom : hello.nodeId = B.nodeId ∧ hello.meshDomain = A.meshDomain := by
    rcases haddress with heq | heq
    · exact ⟨congrArg Address.nodeId heq, (congrArg Address.meshDomain heq).trans hc.meshDomain.1⟩
    · exact ⟨(congrArg Address.nodeId heq).trans hc.nodeId, (congrArg Address.meshDomain heq).trans hc.meshDomain.2⟩
  have hlost : claimsLocal s.1.dev (hello.claim link) = false := by
    have hnode : s.1.dev.nodeId = A.nodeId := congrArg Address.nodeId h.smaller
    have hge : ¬B.nodeId < A.nodeId := fun hlt => List.lt_irrefl _ (List.lt_trans hc.order hlt)
    simp [claimsLocal, WireHello.claim, hnode, hfrom.1, hge]
  rw [receiveHello_address P link jiffies hexpiry (hfrom.2.trans (congrArg Address.meshDomain h.smaller).symm),
    claimLocked_address_lost P hlost, h.smaller]

theorem hears_first {d : Device} {hello : WireHello} (hc : Collides P hello.address B B') (haddress : d.address = B)
    (hempty : d.peers = Table.empty) (hexpiry : hello.expirySeconds = 300) {link : RxMeta}
    (hlink : link.sourceLocator ≠ 0 ∧ link.sourceLocator ≠ LINK_LOCATOR_BROADCAST) (jiffies : UInt64) :
    (receiveHello P d hello link true jiffies).1.address = B' := by
  subst haddress
  have hdomain : d.meshDomain = hello.meshDomain := hc.meshDomain.1
  have horder : hello.nodeId < d.nodeId := hc.order
  have hlocal : d.localNativeLocator = hello.common.sourceNativeLocator := hc.locator
  have hnext : FirstRound P d.meshDomain d.nodeId [hello.common.sourceNativeLocator] (d.localCollisionRound.toNat + 1)
      B'.nativeLocator B'.round.toNat := by
    rw [hdomain]
    exact hc.next
  have hlast : B'.round.toNat ≤ U32_MAX := Nat.le_of_lt_succ B'.round.toNat_lt
  have hround := hnext.from_first
  have hderived : mapNativeLocator P d.meshDomain hello.nodeId hello.collisionRound.toNat =
      .ok (hello.common.sourceNativeLocator, hello.collisionRound.toNat) := by
    rw [hdomain]
    exact hc.derived
  have hne : hello.nodeId ≠ d.nodeId := fun heq => List.lt_irrefl _ (heq ▸ horder)
  obtain ⟨i, hcheck⟩ := claimCheck_first (c := hello.claim link) hlink hderived hne hempty
  have hwins : claimsLocal d (hello.claim link) = true := by simp [claimsLocal, WireHello.claim, horder, hlocal]
  have hfound := (hnext.congr fun l => (occupiedLocators_first hempty (hello.claim link) i l).symm).found hc.valid hlast
  -- the claim is on record, and the address is still the old one
  have hwritten := (claimWrite_inside d (hello.claim link) i).address
  simp only [Device.address, Address.mk.injEq] at hwritten
  obtain ⟨hnode, hmesh, -, hcollision⟩ := hwritten
  rw [receiveHello_address P link jiffies hexpiry hdomain.symm, claimLocked_address hcheck, if_pos hwins,
    localReassignLocked_address
    (by rw [hcollision]; omega) (by rw [hnode, hmesh, hcollision]; exact hfound), hnode, hmesh, UInt32.ofNat_toNat]
  have hmesh' : B'.meshDomain = d.meshDomain := hc.meshDomain.2.trans hdomain.symm
  have hnode' : B'.nodeId = d.nodeId := hc.nodeId
  rw [← hmesh', ← hnode']

theorem Settling.greater_hears (hc : Collides P A B B') (h : Settling A B B' s) {hello : WireHello}
    (hmem : hello ∈ s.1.aired)
    {link : RxMeta} (hlink : link.sourceLocator ≠ 0 ∧ link.sourceLocator ≠ LINK_LOCATOR_BROADCAST) (jiffies : UInt64) :
    (receiveHello P s.2.dev hello link true jiffies).1.address = B' := by
  obtain ⟨hexpiry, haddress⟩ := h.tells_smaller hello hmem
  obtain rfl : hello.address = A := haddress
  have hgreater := h.greater
  cases hheard : s.2.heard with
  | true =>
    rw [hheard, if_pos rfl] at hgreater
    have hlost : claimsLocal s.2.dev (hello.claim link) = false := by
      have hlocal : s.2.dev.localNativeLocator = B'.nativeLocator := congrArg Address.nativeLocator hgreater
      have hne : hello.common.sourceNativeLocator ≠ B'.nativeLocator := fun heq =>
        hc.next.free (List.mem_singleton.mpr heq.symm)
      simp [claimsLocal, WireHello.claim, hlocal, hne]
    have hdomain : hello.meshDomain = s.2.dev.meshDomain :=
      hc.meshDomain.2.symm.trans (congrArg Address.meshDomain hgreater).symm
    rw [receiveHello_address P link jiffies hexpiry hdomain, claimLocked_address_lost P hlost, hgreater]
  | false =>
    rw [hheard, if_neg Bool.false_ne_true] at hgreater
    exact hears_first hc hgreater (h.alone hheard) hexpiry hlink jiffies

theorem pairStep_settling (hc : Collides P A B B') (s : Party × Party) (a : Bool × PartyOp) (h : Settling A B B' s) :
    Settling A B B' (pairStep P s a) := by
  obtain ⟨side, op⟩ := a
  cases side with
  | false =>
    rcases partyStep_cases P s.2.aired s.1 op with ⟨haddress, -, -, haired⟩ | ⟨hello, hmem, link, jiffies, -, heq⟩
    · refine ⟨haddress.trans h.smaller, h.greater, h.alone, fun hello hmem => ?_, h.tells_greater⟩
      rcases haired hello hmem with hold | ⟨hexpiry, hnew⟩
      · exact h.tells_smaller hello hold
      · exact ⟨hexpiry, hnew.trans h.smaller⟩
    · rw [pairStep, heq]
      exact ⟨h.smaller_hears hc hmem link jiffies, h.greater, h.alone, h.tells_smaller, h.tells_greater⟩
  | true =>
    rcases partyStep_cases P s.1.aired s.2 op with ⟨haddress, hpeers, hheard, haired⟩ |
      ⟨hello, hmem, link, jiffies, hlink, heq⟩
    · have hgreater := haddress.trans h.greater
      refine ⟨h.smaller, hheard ▸ hgreater, fun hno => hpeers.trans (h.alone (hheard ▸ hno)), h.tells_smaller,
        fun hello hmem => ?_⟩
      rcases haired hello hmem with hold | ⟨hexpiry, hnew⟩
      · exact h.tells_greater hello hold
      refine ⟨hexpiry, ?_⟩
      rw [hnew, h.greater]
      split_ifs
      · exact .inr rfl
      · exact .inl rfl
    · rw [pairStep, heq]
      exact ⟨h.smaller, h.greater_hears hc hmem hlink jiffies, nofun, h.tells_smaller, h.tells_greater⟩

end

/-! ## Agreement -/

theorem identityCheck_first {P : Platform} {d : Device} {node : NodeId} {generation : UInt32} {previous : Option NodeId}
    {o : IdentityOpened} (h : identityCheck P d node generation previous = .ok o) :
    o.nodeId = node ∧ mappingNodeValid node = true ∧
      FirstRound P d.meshDomain node [] 0 o.nativeLocator o.round.toNat ∧ o.generation ≠ 0 := by
  have hvalid : mappingNodeValid node = true := by
    by_contra hno
    have hinvalid : mapNativeLocator P d.meshDomain node 0 = .error .EINVAL := if_pos (Bool.eq_false_iff.mpr hno)
    simp [identityCheck, hinvalid] at h
  rcases mapNativeLocator_spec P d.meshDomain hvalid (Nat.zero_le _) with ⟨l, r, hok, hr, hfirst⟩ | ⟨hno, -⟩
  · simp only [identityCheck, hok] at h
    split_ifs at h with hbad
    obtain rfl := Except.ok.inj h
    refine ⟨rfl, hvalid, ?_, fun hzero => hbad (.inr hzero)⟩
    rwa [UInt32.toNat_ofNat_of_lt' (Nat.lt_succ_of_le hr)]
  · simp only [identityCheck, hno] at h
    split_ifs at h

theorem resolveCollisionSet_pair {P : Platform} {domain : Octets} {a b : NodeId} {l l' : UInt32} {ra rb : Nat}
    (hlt : a < b)
    (ha : mappingNodeValid a = true) (hb : mappingNodeValid b = true) (hra : ra ≤ U32_MAX) (hrb : rb ≤ U32_MAX)
    (hfirst : FirstRound P domain a [] 0 l ra) (hsecond : FirstRound P domain b [l] 0 l' rb) {nodes : List NodeId}
    (hperm : nodes.Perm [a, b]) : resolveCollisionSet P domain nodes = .ok [⟨a, l, ra⟩, ⟨b, l', rb⟩] := by
  have hpair : [a, b].Pairwise (· < ·) := by simpa using hlt
  have hlen : nodes.length = 2 := hperm.length_eq
  rcases resolveCollisionSet_eq P domain (by omega : 0 < nodes.length) (by rw [hlen]; decide) with
    ⟨hdup, -⟩ | ⟨sorted, hs, hp, heq⟩
  · exact absurd (hperm.nodup_iff.mpr (ascending_nodup hpair)) hdup
  · rw [heq, ascending_unique hs hpair (hp.trans hperm)]
    simp [assignLocators, hfirst.found ha hra, hsecond.found hb hrb]

/-- Two devices whose first locators collide end with the locators of the reference resolver, in whatever order their
HELLOs arrive. -/
theorem pair_collision_resolved {P : Platform} {dA dB : Device} {a b : NodeId} {gA gB : UInt32} {pA pB : Option NodeId}
    {oA oB : IdentityOpened} (hlt : a < b) (hdomain : dB.meshDomain = dA.meshDomain)
    (hA : identityCheck P dA a gA pA = .ok oA) (hB : identityCheck P dB b gB pB = .ok oB)
    (hcollide : oB.nativeLocator = oA.nativeLocator)
    (hrounds : ∃ k l, oB.round.toNat < k ∧ k ≤ U32_MAX ∧ roundLocator P dA.meshDomain b k = some l ∧
    l ≠ oA.nativeLocator) (cA cB : Bool) :
    ∃ locator round, oB.round < round ∧
      (∀ nodes : List NodeId, nodes.Perm [a, b] → resolveCollisionSet P dA.meshDomain nodes =
        .ok [⟨a, oA.nativeLocator, oA.round.toNat⟩, ⟨b, locator, round.toNat⟩]) ∧
      ∀ steps s, s = run (pairStep P) ({ dev := identityCommit dA oA cA }, { dev := identityCommit dB oB cB }) steps →
        s.1.dev.address = ⟨a, dA.meshDomain, oA.nativeLocator, oA.round⟩ ∧
        s.2.dev.address = (if s.2.heard then ⟨b, dA.meshDomain, locator, round⟩
          else ⟨b, dA.meshDomain, oB.nativeLocator, oB.round⟩) ∧
        mapNativeLocator P s.1.dev.meshDomain b round.toNat = .ok (locator, round.toNat) := by
  obtain ⟨hnodeA, hvalidA, hfirstA, -⟩ := identityCheck_first hA
  obtain ⟨hnodeB, hvalidB, hfirstB, -⟩ := identityCheck_first hB
  rw [hdomain, hcollide] at hfirstB
  have hmax : ∀ r : UInt32, r.toNat ≤ U32_MAX := fun r => Nat.le_of_lt_succ r.toNat_lt
  obtain ⟨k, lk, hk, hk', hlk, hfree⟩ := hrounds
  rcases mapNativeLocatorAvailable_spec P dA.meshDomain [oA.nativeLocator] hvalidB
    (Nat.le_trans hk hk' : oB.round.toNat + 1 ≤ U32_MAX) with
    ⟨l, r, -, hr, hnext⟩ | ⟨-, hnone⟩
  · obtain ⟨round, rfl⟩ : ∃ round : UInt32, r = round.toNat :=
      ⟨UInt32.ofNat r, (UInt32.toNat_ofNat_of_lt' (Nat.lt_succ_of_le hr)).symm⟩
    -- up to its own round, the greater NodeId has only the locator that is taken
    have hsecond : FirstRound P dA.meshDomain b [oA.nativeLocator] 0 l round.toNat :=
      hnext.skip (Nat.zero_le _) fun k _ hlt l hl => by
        by_cases heq : k = oB.round.toNat
        · rw [heq, hfirstB.derived] at hl
          exact List.mem_singleton.mpr (Option.some.inj hl).symm
        · exact absurd (hfirstB.least k (Nat.zero_le _) (by omega) l hl) List.not_mem_nil
    refine ⟨l, round, hnext.from_first, fun nodes hperm => ?_, fun steps s hs => ?_⟩
    · exact resolveCollisionSet_pair hlt hvalidA hvalidB (hmax _) hr hfirstA hsecond hperm
    · obtain ⟨haddressA, -⟩ := identityCommit_address dA oA cA
      obtain ⟨haddressB, hpeersB⟩ := identityCommit_address dB oB cB
      rw [hnodeA] at haddressA
      rw [hnodeB, hdomain] at haddressB
      have hc : Collides P ⟨a, dA.meshDomain, oA.nativeLocator, oA.round⟩ ⟨b, dA.meshDomain, oB.nativeLocator, oB.round⟩
          ⟨b, dA.meshDomain, l, round⟩ :=
        ⟨hlt, ⟨rfl, rfl⟩, rfl, hcollide, hfirstA.again hvalidA (hmax _), hvalidB, hnext⟩
      have hinitial : Settling ⟨a, dA.meshDomain, oA.nativeLocator, oA.round⟩
        ⟨b, dA.meshDomain, oB.nativeLocator, oB.round⟩
          ⟨b, dA.meshDomain, l, round⟩ ({ dev := identityCommit dA oA cA }, { dev := identityCommit dB oB cB }) :=
        ⟨haddressA, haddressB, fun _ => hpeersB, fun _ h => absurd h List.not_mem_nil,
          fun _ h => absurd h List.not_mem_nil⟩
      have hsettling := run_invariant (pairStep P) _ (pairStep_settling hc) hinitial steps
      rw [← hs] at hsettling
      refine ⟨hsettling.smaller, hsettling.greater, ?_⟩
      have hmesh : s.1.dev.meshDomain = dA.meshDomain := congrArg Address.meshDomain hsettling.smaller
      rw [hmesh]
      exact hnext.again hvalidB hr
  · exact absurd (List.mem_singleton.mp (hnone k hk hk' lk hlk)) hfree

namespace Scenario

def lesser : NodeId := 1 :: 5 :: List.replicate 31 3

def greater : NodeId := 1 :: 5 :: List.replicate 31 9

def loaded (node : NodeId) : IdentityOpened := ⟨node, 1, 5, 0, false, false⟩

def lesserHello : WireHello where
  common := { flags := WIRE_F_BROADCAST, sourceNativeLocator := 5, destinationNativeLocator := NATIVE_LOCATOR_BROADCAST,
              identityGeneration := 1, messageId := 1, counter := 1 }
  nodeId := lesser
  meshDomain := zero32
  collisionRound := 0
  expirySeconds := 300
  challenge := []

def met : Party × Party :=
  run (pairStep .plain)
    ({ dev := identityCommit {} (loaded lesser) false }, { dev := identityCommit {} (loaded greater) false })
    [(false, .link true 7), (false, .announce [] 1), (true, .hello lesserHello link 0)]

end Scenario

theorem pair_collision_resolved_met : met.2.dev.address = ⟨greater, zero32, 6, 1⟩ := by
  obtain ⟨locator, round, -, hset, hrun⟩ :=
    @pair_collision_resolved .plain {} {} lesser greater 1 1 none none
    (loaded lesser) (loaded greater) (by decide) rfl (by rfl) (by rfl) rfl
    ⟨1, 6, by decide, by decide, by decide, by decide⟩ false false
  have hheard : met.2.heard = true := by decide +kernel
  have hsecond : resolveCollisionSet .plain zero32 [lesser, greater] =
      .ok [⟨lesser, 5, 0⟩, ⟨greater, 6, 1⟩] := by decide +kernel
  have heq := (hset _ (.refl _)).symm.trans hsecond
  simp only [Except.ok.injEq, List.cons.injEq, MappingEntry.mk.injEq, true_and, and_true] at heq
  obtain ⟨-, rfl, hround⟩ := heq
  obtain rfl : round = 1 := UInt32.toNat_inj.mp hround
  exact (hrun _ _ rfl).2.1.trans (if_pos hheard)

end Melodi
