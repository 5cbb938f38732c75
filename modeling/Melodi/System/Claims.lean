import Melodi.System.Broadcast

/-!
# The peers a device knows by their claims

Every signed frame ends in `claimLocked`, which writes who the peer is on its record and sets the conflict flags anew.
Nothing else writes them, except the works and resets that drop records.

* `conflicts_exact` : in every state the flags tell exactly which locators are taken twice.
-/

namespace Melodi
open Lib Scenario
variable {d d' : Device} {i : Fin PEER_LIMIT} {p : Peer} {P : Platform}
variable {p' : Peer} {op : Control}

/-! ## What only control operations write -/

def Device.standing (d : Device) : Device :=
  { d with
    transmitCounter := 0, rx := {}, orderTx := Table.empty, log := []
    peers := fun i => (d.peers i).map fun p => { p with receiveReplay := replayReset } }

theorem markAccepted_standing {counter : Nat} {kind : FrameKind} {t : Token} (hp : d.peers i = some p)
    (h : markAccepted d i p counter kind = .ok (d', t)) :
    d'.standing = d.standing := by
  obtain ⟨-, w, -, rfl⟩ := markAccepted_ok h
  unfold Device.standing
  congr 1
  funext j
  dsimp only
  rw [Table.set_apply]
  split_ifs with hj
  · rw [hj, hp]
    rfl
  · rfl

theorem Stage.standing {bindings : List Binding} {a : Label} {c : Call} {next : List Call}
    (h : Stage P bindings d a c d' next) : d'.standing = d.standing := by
  have hcommit : ∀ {o : Opened} {a : Ambient} {r}, dataCommit P d o a = (d', r) → d'.standing = d.standing := by
    intro o a r h
    rcases dataCommit_cases h with ⟨rfl, -⟩ | ⟨rfl, -⟩ | ⟨i, p, d₁, t, rx', hcur, hm, rfl, -⟩
    · rfl
    · rfl
    · exact (markAccepted_standing hcur.slot hm : d₁.standing = d.standing)
  have hmark : ∀ {o : BroadcastOpened} {alloc : Bool} {r}, broadcastMark d o alloc = (d', r) →
      d'.standing = d.standing := by
    intro o alloc r h
    rcases broadcastMark_cases h with ⟨rfl, -⟩ | ⟨i, p, t, hp, hm, -⟩
    · rfl
    · exact markAccepted_standing (broadcastPeerLocked_ok hp).1 hm
  have hadm : ∀ {o : BroadcastOpened} {t : Token} {a : Ambient} {r}, broadcastAdmit P d o t a = (d', r) →
      d'.standing = d.standing := by
    intro o t a r h
    rcases broadcastAdmit_cases h with ⟨rfl, -⟩ | ⟨rx', rfl, -⟩ <;> rfl
  cases h with
  | commitFailed h => exact hcommit h
  | commit h => exact hcommit h
  | markFailed h => exact hmark h
  | mark h => exact hmark h
  | admitFailed h => exact hadm h
  | admitBroadcast h => exact hadm h
  | deliver => rfl
  | delivered => rfl
  | hand => rfl
  | echoFailed h | echo h =>
    obtain ⟨n, ⟨orderTx, rfl⟩, -⟩ := sendOpen_reserves h
    rfl
  | @store i jiffies plan =>
    obtain ⟨receipts, heq⟩ := receiptSection_eq P d plan jiffies
    rw [heq]
    rfl
  | @sendAck i queued plan =>
    rcases dataSendAck_cases d plan.header plan.bitmap plan.status queued with
      heq | ⟨i, p, nonce, es, -, -, -, -, -, heq, -⟩
    · rw [heq]
    · rw [heq]
      rfl
  | @ackCommit i o =>
    rcases ackCommit_cases d o with heq | ⟨i, p, t, hp, hm⟩
    · rw [heq]
    · exact markAccepted_standing hp hm
  | @sealed i fails s =>
    obtain ⟨k, -, heq⟩ := sealFrames_cases P s fails s.count 0 d
    rw [heq]
    rfl

theorem step_standing (P : Platform) (s : Node) (a : Label) :
    (∃ c, a = .control c ∧ (step P s a).dev = controlStep P s.dev c) ∨
      ((∀ c, a ≠ .control c) ∧ (step P s a).dev.standing = s.dev.standing) := by
  by_cases ha : ∃ c, a = .control c
  · obtain ⟨c, rfl⟩ := ha
    exact .inl ⟨c, rfl, rfl⟩
  refine .inr ⟨fun c h => ha ⟨c, h⟩, ?_⟩
  have hmove := step_moves P s a
  generalize step P s a = s' at hmove ⊢
  cases hmove with
  | stay => rfl
  | @control c => exact absurd ⟨c, rfl⟩ ha
  | bind => rfl
  | rxData h => rfl
  | rxAck h => rfl
  | stage hi hc h => exact h.standing
  | @work jiffies bootNs hidle =>
    obtain ⟨rx', r, heq, -⟩ := reassemblyWork_polls s.dev jiffies (reliabilityNow bootNs)
    rw [heq]
    rfl
  | workDone h => rfl
  | workDeliver h => rfl
  | sendFailed h | send h =>
    obtain ⟨n, ⟨orderTx, rfl⟩, -⟩ := sendOpen_reserves h
    rfl

/-! ## The directory -/

structure Card where
  nodeId : NodeId
  nativeLocator : UInt32
  generation : UInt32
  controlCounter : UInt64
  conflicted : Bool

def Peer.card (p : Peer) : Card := ⟨p.nodeId, p.nativeLocator, p.generation, p.controlCounter, p.conflicted⟩

def Device.directory (d : Device) : UInt32 × Table PEER_LIMIT Card :=
  (d.localNativeLocator, fun i => (d.peers i).map Peer.card)

theorem directory_standing (h : d'.standing = d.standing) : d'.directory = d.directory := by
  have hd : ∀ d : Device, d.standing.directory = d.directory := by
    intro d
    simp only [Device.directory, Device.standing, Option.map_map]
    rfl
  rw [← hd d', h, hd d]

theorem directory_peer (h : d'.directory = d.directory) (hp' : d'.peers i = some p') :
    ∃ p, d.peers i = some p ∧ p.card = p'.card := by
  have hi : (d'.peers i).map Peer.card = (d.peers i).map Peer.card := congrFun (congrArg Prod.snd h) i
  rw [hp', Option.map_some, eq_comm, Option.map_eq_some_iff] at hi
  exact hi

theorem directory_set (hp : d.peers i = some p) (hcard : p'.card = p.card) :
    Device.directory { d with peers := d.peers.set i p' } = d.directory := by
  unfold Device.directory
  congr 1
  funext j
  dsimp only
  rw [Table.set_apply]
  split_ifs with hj
  · rw [hj, hp, Option.map_some, hcard]
    rfl
  · rfl

theorem peerSessionResetLocked_directory (d : Device) (i : Fin PEER_LIMIT) :
    (peerSessionResetLocked d i).directory = d.directory := by
  cases hp : d.peers i with
  | none => rw [peerSessionResetLocked_none hp]
  | some p =>
    rw [peerSessionResetLocked_some hp]
    have hset : Device.directory { d with peers := d.peers.set i (p.sessionReset d.serial) } = d.directory :=
      directory_set hp rfl
    exact hset

theorem resetAllSessions_directory (d : Device) : (resetAllSessions d).directory = d.directory :=
  List.foldlRecOn _ _ (motive := fun d' => d'.directory = d.directory) rfl
    fun d' h i _ => (peerSessionResetLocked_directory d' i).trans h

theorem installSession_directory {p₀ : Peer} (hp : d.peers i = some p₀) (hcard : p.card = p₀.card)
    (transmitKey receiveKey : Octets) :
    (installSession d i p transmitKey receiveKey).directory = d.directory := by
  have hset : Device.directory { d with peers := d.peers.set i (p.sessionStart transmitKey receiveKey d.serial) } =
      d.directory := directory_set hp hcard
  exact hset

/-! ## The claims of the signed frames -/

/-- What a control operation does to the directory of peers. -/
inductive Directs (P : Platform) (d : Device) (op : Control) (d' : Device) : Prop where
  | same (hclaim : op.claim P d = none) (h : d'.directory = d.directory)
  | claims {c resolveLocal} (hclaim : op.claim P d = some (c, resolveLocal))
      (h : d'.directory = (claimLocked P d c resolveLocal).1.directory)
  | expires {jiffies} (hop : op = .expiry jiffies) (h : d' = peerExpiryWork d jiffies)
  | forgets (hop : op.forgets = true) (h : d'.peers = Table.empty)

theorem Passive.directory (h : Passive op d d') : d'.directory = d.directory := by
  have hlocal : d'.localNativeLocator = d.localNativeLocator := congrArg Address.nativeLocator h.address
  rw [Device.directory, Device.directory, hlocal, h.peers]

theorem Peer.Annotates.card (h : p.Annotates p') : p'.card = p.card := by
  obtain ⟨_, _, _, _, _, _, rfl⟩ := h
  rfl

theorem Settles.directory (h : Settles op d i d') : d'.directory = d.directory := by
  cases h with
  | nothing => rfl
  | notes hp hn => exact directory_set hp hn.card
  | restarts _ hp hn => rw [peerSessionResetLocked_directory, directory_set hp hn.card]
  | installs _ hp hn h => rw [h.directory, installSession_directory hp hn.card]

theorem controlStep_directs (P : Platform) (d : Device) (op : Control) : Directs P d op (controlStep P d op) := by
  have h := controlStep_operates P d op
  generalize controlStep P d op = d' at h ⊢
  cases h with
  | passes hclaim h => exact .same hclaim h.directory
  | refused hclaim h => exact .claims hclaim (by rw [h])
  | claims hclaim h hs => exact .claims hclaim (by rw [h, hs.directory])
  | challenges hclaim hp hn h => exact .same hclaim (h.directory.trans (directory_set hp hn.card))
  | resets hclaim _ _ h => exact .same hclaim ((peerSessionResetLocked_directory _ _).trans h.directory)
  | expires hop => exact .expires hop rfl
  | identity hop => exact .forgets (by rw [hop]; rfl) (funext (identityCommit_peers d _ _))
  | detaches hop h => exact .forgets hop h.peers

/-! ## Conflicts -/

def LocatorTaken (d : Device) (i : Fin PEER_LIMIT) (nativeLocator : UInt32) : Prop :=
  ∃ j q, j ≠ i ∧ d.peers j = some q ∧ q.nativeLocator = nativeLocator

theorem locatorShared_iff (d : Device) (i : Fin PEER_LIMIT) (nativeLocator : UInt32) :
    locatorShared d i nativeLocator = true ↔ LocatorTaken d i nativeLocator := by
  simp only [locatorShared, LocatorTaken, List.any_eq_true, List.mem_finRange, true_and, Bool.and_eq_true,
    decide_eq_true_eq, Option.any_eq_true]
  constructor
  · rintro ⟨j, hne, q, hq, hl⟩
    exact ⟨j, q, hne, hq, hl⟩
  · rintro ⟨j, q, hne, hq, hl⟩
    exact ⟨j, hne, q, hq, hl⟩

/-- The flags say which locators are the local one or that of another record. -/
def Exact (d : Device) : Prop :=
  ∀ i p, d.peers i = some p →
    (p.conflicted = true ↔ p.nativeLocator = d.localNativeLocator ∨ LocatorTaken d i p.nativeLocator)

theorem conflictsRecomputeLocked_exact (d : Device) : Exact (conflictsRecomputeLocked d) := by
  intro i p hp
  have htaken : ∀ L, LocatorTaken (conflictsRecomputeLocked d) i L ↔ LocatorTaken d i L := by
    intro L
    constructor
    · rintro ⟨j, q, hne, hq, hl⟩
      rw [conflictsRecomputeLocked_apply, Option.map_eq_some_iff] at hq
      obtain ⟨q₀, hq₀, rfl⟩ := hq
      exact ⟨j, q₀, hne, hq₀, hl⟩
    · rintro ⟨j, q, hne, hq, hl⟩
      have hq' := conflictsRecomputeLocked_apply d j
      rw [hq, Option.map_some] at hq'
      exact ⟨j, _, hne, hq', hl⟩
  rw [htaken]
  rw [conflictsRecomputeLocked_apply, Option.map_eq_some_iff] at hp
  obtain ⟨q, -, rfl⟩ := hp
  rw [← locatorShared_iff]
  simp [conflictsRecomputeLocked]

theorem Exact.congr (he : Exact d) (h : d'.directory = d.directory) : Exact d' := by
  have htaken : ∀ i L, LocatorTaken d' i L ↔ LocatorTaken d i L := by
    intro i L
    constructor
    · rintro ⟨j, q, hne, hq, hl⟩
      obtain ⟨q₀, hq₀, hcard⟩ := directory_peer h hq
      exact ⟨j, q₀, hne, hq₀, (congrArg Card.nativeLocator hcard).trans hl⟩
    · rintro ⟨j, q, hne, hq, hl⟩
      obtain ⟨q₀, hq₀, hcard⟩ := directory_peer h.symm hq
      exact ⟨j, q₀, hne, hq₀, (congrArg Card.nativeLocator hcard).trans hl⟩
  intro i p' hp'
  obtain ⟨p, hp, hcard⟩ := directory_peer h hp'
  have hlocal : d'.localNativeLocator = d.localNativeLocator := congrArg Prod.fst h
  have hlocator : p.nativeLocator = p'.nativeLocator := congrArg Card.nativeLocator hcard
  have hflag : p.conflicted = p'.conflicted := congrArg Card.conflicted hcard
  rw [htaken, hlocal, ← hlocator, ← hflag]
  exact he i p hp

theorem exact_empty (h : d.peers = Table.empty) : Exact d := by
  intro i p hp
  rw [h] at hp
  cases hp

theorem claimLocked_exact (P : Platform) (he : Exact d) (c : Claim) (resolveLocal : Bool) :
    Exact (claimLocked P d c resolveLocal).1 := by
  unfold claimLocked
  cases claimCheck P d c with
  | error e => exact he
  | ok i =>
    dsimp only
    split_ifs
    · split <;> exact conflictsRecomputeLocked_exact _
    · exact conflictsRecomputeLocked_exact _
    · exact conflictsRecomputeLocked_exact _

theorem step_exact (P : Platform) (s : Node) (a : Label) (he : Exact s.dev) : Exact (step P s a).dev := by
  rcases step_standing P s a with ⟨op, rfl, heq⟩ | ⟨-, hstanding⟩
  · rw [heq]
    cases controlStep_directs P s.dev op with
    | same hclaim h => exact he.congr h
    | claims hclaim h => exact (claimLocked_exact P he _ _).congr h
    | expires hop h =>
      rw [h]
      exact conflictsRecomputeLocked_exact _
    | forgets hop h => exact exact_empty h
  · exact he.congr (directory_standing hstanding)

def Peer.Holds (p : Peer) (nativeLocator : UInt32) : Prop := p.conflicted = false ∧ p.nativeLocator = nativeLocator

/-- The flags are exact, and a locator leads to one peer at most. -/
structure ConflictsResolved (d : Device) : Prop where
  exact : Exact d
  single : ∀ nativeLocator i j p q, d.peers i = some p → d.peers j = some q → p.Holds nativeLocator →
    q.Holds nativeLocator → i = j
  lookup : ∀ nativeLocator i, peerByNativeLocator d nativeLocator = some i →
    ∃ p, d.peers i = some p ∧ p.Holds nativeLocator ∧
      ∀ j q, d.peers j = some q → q.Holds nativeLocator → q.nodeId = p.nodeId

theorem Exact.single (he : Exact d) {nativeLocator : UInt32} {j : Fin PEER_LIMIT} {q : Peer} (hp : d.peers i = some p)
    (hq : d.peers j = some q) (hpl : p.Holds nativeLocator) (hql : q.Holds nativeLocator) :
    i = j := by
  by_contra hne
  have htaken : LocatorTaken d i p.nativeLocator := ⟨j, q, Ne.symm hne, hq, hql.2.trans hpl.2.symm⟩
  have hflag := (he i p hp).mpr (.inr htaken)
  rw [hpl.1] at hflag
  cases hflag

/-- In every reachable state a peer is flagged exactly if its locator is the local one or that of another peer, so
that a locator leads to one NodeId at most. -/
theorem conflicts_exact (P : Platform) (as : List Label) : ConflictsResolved (run (step P) Node.initial as).dev := by
  have he : Exact (run (step P) Node.initial as).dev :=
    run_invariant (step P) (fun s => Exact s.dev) (step_exact P) (exact_empty rfl) as
  refine ⟨he, fun _ _ _ _ _ hp hq hpl hql => he.single hp hq hpl hql, fun nativeLocator i hfind => ?_⟩
  obtain ⟨p, hp, hmatch⟩ := Table.find?_some hfind
  simp only [Bool.and_eq_true, Bool.not_eq_true', decide_eq_true_eq] at hmatch
  refine ⟨p, hp, hmatch, fun j q hq hql => ?_⟩
  obtain rfl := he.single hp hq hmatch hql
  rw [hp, Option.some.injEq] at hq
  rw [hq]

/-! ## Claims that are accepted -/

def Claim.stamp (c : Claim) : Nat ×ₗ Nat := toLex (c.generation.toNat, c.counter.toNat)

def Peer.stamp (p : Peer) : Nat ×ₗ Nat := toLex (p.generation.toNat, p.controlCounter.toNat)

def accepted (P : Platform) (s : Node) : Label → Option Claim
  | .control op => (op.claim P s.dev).bind fun c => if (claimCheck P s.dev c.1).isOk then some c.1 else none
  | _ => none

def claimsFrom (P : Platform) (s : Node) (as : List Label) : List Claim :=
  (trace (fun s a => (step P s a, accepted P s a)) s as).2.filterMap id

def acceptedClaims (P : Platform) (as : List Label) : List Claim := claimsFrom P Node.initial as

def Increasing (cs : List Claim) : Prop := cs.Pairwise fun c c' => c.nodeId = c'.nodeId → c.stamp < c'.stamp

instance (cs : List Claim) : Decidable (Increasing cs) :=
  inferInstanceAs (Decidable (cs.Pairwise fun c c' => c.nodeId = c'.nodeId → c.stamp < c'.stamp))

def Scenario.replayed : List Label :=
  [.control (.identity ⟨here, 1, 7, 0, false, false⟩ false), .control (.link true 1),
    .control (.hello (hello 1) link true 0), .control (.expiry 300000),
    .control (.hello (hello 1) link true 300001)]

/-- **The counter of a peer is forgotten with its record, and a frame recorded before is accepted again.** -/
theorem hello_replayed_after_expiry :
    acceptedClaims Platform.plain replayed = [(hello 1).claim link, (hello 1).claim link] ∧
      ¬ Increasing (acceptedClaims Platform.plain replayed) := by
  decide +kernel

/-! ## Runs that drop no record -/

def Control.keeps (p : Peer) : Control → Bool
  | .expiry jiffies => timeBefore jiffies p.expires
  | op => !op.forgets

def Remembers (s : Node) : Label → Prop
  | .control op => ∀ i, ∀ p ∈ s.dev.peers i, op.keeps p = true
  | _ => True

instance decidableRemembers (s : Node) (a : Label) : Decidable (Remembers s a) :=
  match a with
  | .control op => inferInstanceAs (Decidable (∀ i, ∀ p ∈ s.dev.peers i, op.keeps p = true))
  | .bind _ | .rxData .. | .commit .. | .mark .. | .admitBroadcast .. | .deliver .. | .echo .. | .store .. | .sendAck ..
  | .rxAck .. | .ackCommit _ | .work .. | .workDeliver _ | .send .. | .sealMessage .. => inferInstanceAs
      (Decidable True)

def Advances (d d' : Device) : Prop :=
  ∀ i p, d.peers i = some p → ∃ p', d'.peers i = some p' ∧ p'.nodeId = p.nodeId ∧ p.stamp ≤ p'.stamp

theorem Advances.trans {d'' : Device} (h₁ : Advances d d') (h₂ : Advances d' d'') : Advances d d'' := by
  intro i p hp
  obtain ⟨p', hp', hnode, hle⟩ := h₁ i p hp
  obtain ⟨p'', hp'', hnode', hle'⟩ := h₂ i p' hp'
  exact ⟨p'', hp'', hnode'.trans hnode, hle.trans hle'⟩

def Recorded (c : Claim) (d : Device) : Prop := ∃ i p, d.peers i = some p ∧ p.nodeId = c.nodeId ∧ c.stamp ≤ p.stamp

theorem Recorded.advances {c : Claim} (h : Recorded c d) (ha : Advances d d') : Recorded c d' := by
  obtain ⟨i, p, hp, hnode, hle⟩ := h
  obtain ⟨p', hp', hnode', hle'⟩ := ha i p hp
  exact ⟨i, p', hp', hnode'.trans hnode, hle.trans hle'⟩

theorem Advances.cards (h : d'.directory.2 = d.directory.2) : Advances d d' := by
  intro i p hp
  have hi : (d'.peers i).map Peer.card = (d.peers i).map Peer.card := congrFun h i
  rw [hp, Option.map_some, Option.map_eq_some_iff] at hi
  obtain ⟨p', hp', hcard⟩ := hi
  have hstamp : p'.stamp = p.stamp :=
    congrArg (fun k : Card => toLex (k.generation.toNat, k.controlCounter.toNat)) hcard
  exact ⟨p', hp', congrArg Card.nodeId hcard, hstamp.ge⟩

theorem conflictsRecomputeLocked_advances (d : Device) : Advances d (conflictsRecomputeLocked d) := by
  intro i p hp
  have hp' := conflictsRecomputeLocked_apply d i
  rw [hp, Option.map_some] at hp'
  exact ⟨_, hp', rfl, le_refl _⟩

theorem localReassignLocked_advances (P : Platform) (d : Device) : Advances d (localReassignLocked P d).1 := by
  unfold localReassignLocked
  split_ifs
  · exact .cards rfl
  split
  · exact .cards rfl
  rename_i nativeLocator round _
  have hreset := resetAllSessions_directory { d with
    localNativeLocator := nativeLocator, localCollisionRound := UInt32.ofNat round, conflictPending := true }
  have hcards := congrArg Prod.snd hreset
  exact .cards hcards

theorem claimCheck_stamp {c : Claim} (h : claimCheck P d c = .ok i) (hp : d.peers i = some p) : p.stamp < c.stamp := by
  unfold claimCheck at h
  repeat' split at h
  all_goals try cases h
  rename_i hold
  simp only [hp, Option.any_some, Bool.or_eq_true, Bool.and_eq_true, decide_eq_true_eq, not_or, not_and] at hold
  rw [Peer.stamp, Claim.stamp, Prod.Lex.toLex_lt_toLex]
  rcases Nat.lt_trichotomy p.generation.toNat c.generation.toNat with hlt | heq | hgt
  · exact .inl hlt
  · refine .inr ⟨heq, Nat.lt_of_not_le fun hle => hold.2 (UInt32.toNat_inj.mp heq.symm) hle⟩
  · exact absurd hgt hold.1

theorem claimWrite_recorded (d : Device) (c : Claim) (i : Fin PEER_LIMIT) :
    ∃ p, (claimWrite d c i).peers i = some p ∧ p.nodeId = c.nodeId ∧ p.stamp = c.stamp := by
  cases hp : d.peers i with
  | none =>
    refine ⟨c.newPeer d.serial, ?_, rfl, rfl⟩
    simp only [claimWrite, hp, Table.set_self]
  | some p =>
    cases hm : c.matchesPeer p with
    | true =>
      rw [claimWrite_matches hp hm]
      exact ⟨c.update p, Table.set_self _ _ _, rfl, rfl⟩
    | false =>
      rw [claimWrite_differs hp hm]
      exact ⟨c.update (p.sessionReset d.serial), Table.set_self _ _ _, rfl, rfl⟩

theorem claimLocked_advances {c : Claim} (resolveLocal : Bool) (h : claimCheck P d c = .ok i) :
    Advances d (claimLocked P d c resolveLocal).1 ∧ Recorded c (claimLocked P d c resolveLocal).1 := by
  have hwrite : Advances d (claimWrite d c i) ∧ Recorded c (claimWrite d c i) := by
    obtain ⟨p', hp', hnode', hstamp'⟩ := claimWrite_recorded d c i
    refine ⟨fun j p hp => ?_, i, p', hp', hnode', hstamp'.ge⟩
    by_cases hj : j = i
    · subst hj
      have hlt := claimCheck_stamp h hp
      rcases peerSlot_cases (claimCheck_slot h) with ⟨hfree, -⟩ | ⟨q, hq, hnode⟩
      · rw [hp] at hfree
        cases hfree
      · rw [hp, Option.some.injEq] at hq
        exact ⟨p', hp', hnode'.trans (hq ▸ hnode.symm), hstamp' ▸ hlt.le⟩
    · exact ⟨p, (claimWrite_other hj).trans hp, rfl, le_refl _⟩
  have hgoal : ∀ d', Advances (claimWrite d c i) d' →
      Advances d (conflictsRecomputeLocked d') ∧ Recorded c (conflictsRecomputeLocked d') := by
    intro d' ha
    have hafter := ha.trans (conflictsRecomputeLocked_advances d')
    exact ⟨hwrite.1.trans hafter, hwrite.2.advances hafter⟩
  unfold claimLocked
  rw [h]
  dsimp only
  split_ifs
  · have hr := localReassignLocked_advances P (claimWrite d c i)
    split <;> rename_i heq <;> rw [heq] at hr <;> exact hgoal _ hr
  · exact hgoal _ (.cards rfl)
  · exact hgoal _ (.cards rfl)

theorem peerExpiryWork_remembers {jiffies : UInt64}
    (h : ∀ i p, d.peers i = some p → timeBefore jiffies p.expires = true) : Advances d (peerExpiryWork d jiffies) := by
  have hstay : ∀ i, peerExpire jiffies d i = d := by
    intro i
    unfold peerExpire
    split
    · rfl
    · rename_i p hp
      rw [if_pos (h i p hp)]
  have hfold : (List.finRange PEER_LIMIT).foldl (peerExpire jiffies) d = d :=
    List.foldlRecOn _ _ (motive := fun d' => d' = d) rfl fun d' hd i _ => hd ▸ hstay i
  unfold peerExpiryWork
  rw [hfold]
  exact conflictsRecomputeLocked_advances d

/-- What a step that drops no record does to the records, and with which claims. -/
structure Hears (d d' : Device) (heard : Option Claim) : Prop where
  advances : Advances d d'
  newer : ∀ c, heard = some c → ∀ i p, d.peers i = some p → p.nodeId = c.nodeId → p.stamp < c.stamp
  recorded : ∀ c, heard = some c → Recorded c d'

theorem Hears.quiet (h : Advances d d') : Hears d d' none := ⟨h, nofun, nofun⟩

theorem step_hears (P : Platform) (s : Node) (a : Label) (ho : NodeOwned s) (hr : Remembers s a) :
    Hears s.dev (step P s a).dev (accepted P s a) := by
  rcases step_standing P s a with ⟨op, rfl, heq⟩ | ⟨hno, hstanding⟩
  · rw [heq]
    cases controlStep_directs P s.dev op with
    | same hclaim h =>
      rw [accepted, hclaim]
      exact .quiet (.cards (congrArg Prod.snd h))
    | @claims c resolveLocal hclaim h =>
      have hcards := Advances.cards (congrArg Prod.snd h)
      rw [accepted, hclaim, Option.bind_some]
      cases hcheck : claimCheck P s.dev c with
      | error e =>
        refine .quiet (Advances.cards (congrArg Prod.snd (h.trans ?_)))
        rw [claimLocked, hcheck]
      | ok i =>
        obtain ⟨hadv, hrec⟩ := claimLocked_advances resolveLocal hcheck
        refine ⟨hadv.trans hcards, ?_, ?_⟩
        · rintro _ ⟨⟩ j p hp hnode
          -- the record of the node is the one at the slot the claim is checked against
          rcases peerSlot_cases (claimCheck_slot hcheck) with ⟨-, hnone⟩ | ⟨q, hq, hqn⟩
          · exact absurd hnode (hnone j p hp)
          · obtain rfl := ho.dev.node_inj j i p q hp hq (hnode.trans hqn.symm)
            exact claimCheck_stamp hcheck hp
        · rintro _ ⟨⟩
          exact hrec.advances hcards
    | @expires jiffies hop h =>
      subst hop
      rw [h]
      exact .quiet (peerExpiryWork_remembers hr)
    | forgets hop h =>
      have hempty : ∀ i p, s.dev.peers i ≠ some p := by
        intro i p hp
        have hkeeps := hr i p hp
        cases op <;> first | cases hop; done | cases hkeeps
      have hnone : op.claim P s.dev = none := by
        cases op <;> first | cases hop; done | rfl
      rw [accepted, hnone]
      exact .quiet fun i p hp => absurd hp (hempty i p)
  · have hnone : accepted P s a = none := by
      cases a with
      | control c => exact absurd rfl (hno c)
      | _ => rfl
    rw [hnone]
    exact .quiet (.cards (congrArg Prod.snd (directory_standing hstanding)))

theorem claimsFrom_cons (P : Platform) (s : Node) (a : Label) (as : List Label) :
    claimsFrom P s (a :: as) = (accepted P s a).toList ++ claimsFrom P (step P s a) as := by
  unfold claimsFrom
  rw [trace_cons]
  cases accepted P s a <;> rfl

theorem claimsFrom_increasing (P : Platform) (s : Node) (as : List Label) (ho : NodeOwned s)
    (hr : Along (step P) Remembers s as) :
    Increasing (claimsFrom P s as) ∧
      ∀ c ∈ claimsFrom P s as, ∀ i p, s.dev.peers i = some p → p.nodeId = c.nodeId → p.stamp < c.stamp := by
  induction as generalizing s with
  | nil => exact ⟨List.Pairwise.nil, fun _ hc => nomatch hc⟩
  | cons a as ih =>
    obtain ⟨hstep, hrest⟩ := hr
    have hh := step_hears P s a ho hstep
    obtain ⟨hinc, hnewer⟩ := ih (step P s a) (step_owned P s a ho) hrest
    rw [claimsFrom_cons]
    refine ⟨List.pairwise_append.mpr ⟨?_, hinc, ?_⟩, ?_⟩
    · cases accepted P s a <;> simp
    · intro c hc c' hc' hnode
      obtain ⟨i, p, hp, hpn, hle⟩ := hh.recorded c (Option.mem_toList.mp hc)
      exact hle.trans_lt (hnewer c' hc' i p hp (hpn.trans hnode))
    intro c hc i p hp hnode
    rcases List.mem_append.mp hc with hc | hc
    · exact hh.newer c (Option.mem_toList.mp hc) i p hp hnode
    · obtain ⟨p', hp', hnode', hle⟩ := hh.advances i p hp
      exact hle.trans_lt (hnewer c hc i p' hp' (hnode'.trans hnode))

/-- **As long as no record is dropped, the claims accepted of one node strictly increase.** -/
theorem claims_increase (P : Platform) (as : List Label) (h : Along (step P) Remembers Node.initial as) :
    Increasing (acceptedClaims P as) :=
  (claimsFrom_increasing P Node.initial as nodeOwned_initial h).1

def Scenario.renewed : List Label :=
  [.control (.identity ⟨here, 1, 7, 0, false, false⟩ false), .control (.link true 1),
    .control (.hello (hello 1) link true 0), .control (.expiry 200000),
    .control (.hello (hello 2) link true 200001)]

theorem claims_increase_renewed :
    Along (step Platform.plain) Remembers Node.initial renewed ∧
      (acceptedClaims Platform.plain renewed).length = 2 ∧
      Increasing (acceptedClaims Platform.plain renewed) := by
  have h : Along (step Platform.plain) Remembers Node.initial renewed := by decide +kernel
  exact ⟨h, by decide +kernel, claims_increase Platform.plain _ h⟩

end Melodi
