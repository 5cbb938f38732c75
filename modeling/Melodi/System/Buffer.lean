import Melodi.Core.Flows
import Melodi.System.Custody

/-!
# The ordered buffer in every state

The window of a flow, the buffer that all flows share and the count of the buffered octets are updated one by one, with
failures in between. In every state of every run they agree.

* `buffer_matches_window` : what this says of the buffer, and that a release finds its messages.
-/

namespace Melodi
open Lib
variable {a : Ambient} {d d' : Device} {i : Fin ORDER_FLOW_LIMIT} {P : Platform} {rx : RxState} {h : WireData}
variable {rx'' : RxState} {op : Control} {f : OrderRxFlow} {marker count : Nat} {m : Complete}

/-! ## What control operations do to the receive side -/

/-- The receive side after some resets: of everything a peer sent, of the reassembly, of the ordered flows. -/
inductive RxClears (rx : RxState) : RxState → Prop where
  | refl : RxClears rx rx
  | peer {rx'} (h : RxClears rx rx') (node : NodeId) : RxClears rx (rxPeerReset rx' node)
  | reassembly {rx'} (h : RxClears rx rx') : RxClears rx (dataReassemblyResetLocked rx')
  | order {rx'} (h : RxClears rx rx') :
      RxClears rx { rx' with orderMessages := Table.empty, orderRx := Table.empty, orderBytes := 0 }

theorem RxClears.trans {rx' : RxState} (h₁ : RxClears rx rx') (h₂ : RxClears rx' rx'') : RxClears rx rx'' := by
  induction h₂ with
  | refl => exact h₁
  | peer _ node ih => exact ih.peer node
  | reassembly _ ih => exact ih.reassembly
  | order _ ih => exact ih.order

/-- A section that resets parts of the receive side and leaves the policy alone. -/
structure Clears (d d' : Device) : Prop where
  rx : RxClears d.rx d'.rx
  policy : d'.policy = d.policy

theorem Clears.refl (d : Device) : Clears d d := ⟨.refl, rfl⟩

theorem Clears.trans {d'' : Device} (h₁ : Clears d d') (h₂ : Clears d' d'') : Clears d d'' :=
  ⟨h₁.rx.trans h₂.rx, h₂.policy.trans h₁.policy⟩

theorem Clears.same (hrx : d'.rx = d.rx) (hpolicy : d'.policy = d.policy) : Clears d d' :=
  ⟨hrx ▸ .refl, hpolicy⟩

theorem dataResetLocked_clears (d : Device) : Clears d (dataResetLocked d) := ⟨RxClears.refl.reassembly.order, rfl⟩

theorem peerSessionResetLocked_clears (d : Device) (i : Fin PEER_LIMIT) : Clears d (peerSessionResetLocked d i) := by
  cases hp : d.peers i with
  | none =>
    rw [peerSessionResetLocked_none hp]
    exact .refl d
  | some p =>
    rw [peerSessionResetLocked_some hp]
    exact ⟨RxClears.refl.peer p.nodeId, rfl⟩

theorem foldl_clears (f : Device → Fin PEER_LIMIT → Device) (hf : ∀ d i, Clears d (f d i)) (l : List (Fin PEER_LIMIT))
    (d : Device) : Clears d (l.foldl f d) := by
  induction l generalizing d with
  | nil => exact .refl d
  | cons i l ih => exact (hf d i).trans (ih (f d i))

theorem resetAllSessions_clears (d : Device) : Clears d (resetAllSessions d) :=
  foldl_clears _ peerSessionResetLocked_clears _ d

theorem discoveryResetLocked_clears (d : Device) : Clears d (discoveryResetLocked d) :=
  (resetAllSessions_clears d).trans (.same rfl rfl)

theorem conflictsRecomputeLocked_clears (d : Device) : Clears d (conflictsRecomputeLocked d) := .same rfl rfl

theorem localReassignLocked_clears (P : Platform) (d : Device) : Clears d (localReassignLocked P d).1 := by
  unfold localReassignLocked
  split
  · exact .refl d
  split
  · exact .refl d
  rename_i nativeLocator round _
  have hreset := resetAllSessions_clears { d with
    localNativeLocator := nativeLocator, localCollisionRound := UInt32.ofNat round, conflictPending := true }
  exact ⟨hreset.rx.reassembly.order, hreset.policy⟩

theorem claimWrite_clears (d : Device) (c : Claim) (i : Fin PEER_LIMIT) : Clears d (claimWrite d c i) := by
  unfold claimWrite
  split
  · exact .same rfl rfl
  dsimp only
  split_ifs
  · exact .same rfl rfl
  · exact (peerSessionResetLocked_clears d i).trans (.same rfl rfl)

theorem claimLocked_clears (P : Platform) (d : Device) (c : Claim) (resolveLocal : Bool) :
    Clears d (claimLocked P d c resolveLocal).1 := by
  unfold claimLocked
  cases claimCheck P d c with
  | error e => exact .refl d
  | ok i =>
    have hw := claimWrite_clears d c i
    dsimp only
    split_ifs
    · have hr := localReassignLocked_clears P (claimWrite d c i)
      split <;> rename_i hl <;> rw [hl] at hr <;> exact (hw.trans hr).trans (conflictsRecomputeLocked_clears _)
    · exact hw.trans (conflictsRecomputeLocked_clears _)
    · exact hw.trans (conflictsRecomputeLocked_clears _)

theorem peerExpire_clears (jiffies : UInt64) (d : Device) (i : Fin PEER_LIMIT) : Clears d (peerExpire jiffies d i) := by
  unfold peerExpire
  split
  · exact .refl d
  split_ifs
  · exact .refl d
  · exact (peerSessionResetLocked_clears d i).trans (.same rfl rfl)

theorem peerExpiryWork_clears (d : Device) (jiffies : UInt64) : Clears d (peerExpiryWork d jiffies) :=
  (foldl_clears _ (peerExpire_clears jiffies) _ d).trans (conflictsRecomputeLocked_clears _)

theorem detachReset_clears (d : Device) : Clears d (detachReset d) :=
  (dataResetLocked_clears d).trans (discoveryResetLocked_clears _)

theorem identityCommit_clears (d : Device) (o : IdentityOpened) (configure : Bool) :
    RxClears d.rx (identityCommit d o configure).rx := by
  unfold identityCommit
  rw [(identityRestart_frame _ o configure).rx]
  exact (detachReset_clears { d with
    nodeId := o.nodeId, identityReady := true, identityGeneration := o.generation,
    localNativeLocator := o.nativeLocator, localCollisionRound := o.round, conflictPending := false,
    transmitCounter := 0 }).rx

theorem Settles.clears {j : Fin PEER_LIMIT} (h : Settles op d j d') :
    RxClears d.rx d'.rx ∧ (op.keepsPolicy = true → d'.policy = d.policy) := by
  cases h with
  | nothing => exact ⟨.refl, fun _ => rfl⟩
  | notes _ _ => exact ⟨.refl, fun _ => rfl⟩
  | @restarts _ p' _ _ _ =>
    have hreset := peerSessionResetLocked_clears { d with peers := d.peers.set j p' } j
    exact ⟨hreset.rx, fun _ => hreset.policy⟩
  | @installs _ p' _ _ _ _ _ _ h =>
    refine ⟨?_, fun hop => h.policy hop⟩
    rw [h.rx]
    exact RxClears.refl.peer p'.nodeId

theorem Operates.clears (h : Operates P d op d') :
    RxClears d.rx d'.rx ∧ (op.keepsPolicy = true → d'.policy = d.policy) := by
  cases h with
  | passes _ h => exact ⟨h.rx ▸ .refl, h.policy⟩
  | @refused c resolveLocal _ _ _ h =>
    have hc := claimLocked_clears P d c resolveLocal
    rw [h] at hc
    exact ⟨hc.rx, fun _ => hc.policy⟩
  | @claims c resolveLocal _ _ _ _ h hs =>
    have hc := claimLocked_clears P d c resolveLocal
    rw [h] at hc
    exact ⟨hc.rx.trans hs.clears.1, fun hop => (hs.clears.2 hop).trans hc.policy⟩
  | challenges _ _ _ h => exact ⟨h.rx ▸ .refl, h.policy⟩
  | @resets _ j d₁ _ _ _ h =>
    have hreset := peerSessionResetLocked_clears d₁ j
    exact ⟨h.rx ▸ hreset.rx, fun hop => hreset.policy.trans (h.policy hop)⟩
  | expires _ => exact ⟨(peerExpiryWork_clears d _).rx, fun _ => (peerExpiryWork_clears d _).policy⟩
  | identity hop => exact ⟨identityCommit_clears d _ _, by rw [hop]; nofun⟩
  | detaches _ h =>
    exact ⟨h.rx ▸ (detachReset_clears d).rx, fun hop => (h.policy hop).trans (detachReset_clears d).policy⟩

theorem controlStep_clears (P : Platform) (d : Device) {c : Control} (hc : c.keepsPolicy = true) :
    Clears d (controlStep P d c) :=
  ⟨(controlStep_operates P d c).clears.1, (controlStep_operates P d c).clears.2 hc⟩

theorem controlStep_rx (P : Platform) (d : Device) (c : Control) : RxClears d.rx (controlStep P d c).rx :=
  (controlStep_operates P d c).clears.1

/-! ## Octets and deadlines -/

/-- The octets of the buffer are counted and within their limit, and a deadline runs exactly while something waits. -/
structure Counted (rx : RxState) : Prop where
  bytes : rx.orderBytes = rx.orderMessages.sum fun m => m.message.payload.length
  limit : rx.orderBytes ≤ ORDER_BYTE_LIMIT
  timed : ∀ i f, rx.orderRx i = some f → f.state.Timed

theorem counted_empty : Counted {} := ⟨by simp, by simp, by simp⟩

structure OrderSame (rx rx' : RxState) : Prop where
  orderRx : rx'.orderRx = rx.orderRx
  orderMessages : rx'.orderMessages = rx.orderMessages
  orderBytes : rx'.orderBytes = rx.orderBytes

theorem OrderSame.refl (rx : RxState) : OrderSame rx rx := ⟨rfl, rfl, rfl⟩

theorem OrderSame.trans {rx' : RxState} (h₁ : OrderSame rx rx') (h₂ : OrderSame rx' rx'') : OrderSame rx rx'' :=
  ⟨h₂.orderRx.trans h₁.orderRx, h₂.orderMessages.trans h₁.orderMessages, h₂.orderBytes.trans h₁.orderBytes⟩

theorem Counted.congr {rx' : RxState} (hc : Counted rx) (h : OrderSame rx rx') : Counted rx' := by
  obtain ⟨hb, hl, ht⟩ := hc
  rw [← h.orderBytes] at hb hl
  rw [← h.orderMessages] at hb
  rw [← h.orderRx] at ht
  exact ⟨hb, hl, ht⟩

theorem Counted.drop {rx' : RxState} (hc : Counted rx) (p : OrderMessage → Bool)
    (hmsg : rx'.orderMessages = rx.orderMessages.drop p) (hbytes : rx'.orderBytes =
      rx.orderBytes - rx.orderMessages.sum fun m => if p m then m.message.payload.length else 0)
    (hflow : ∀ i f, rx'.orderRx i = some f → rx.orderRx i = some f) : Counted rx' := by
  have hsum := Table.sum_drop rx.orderMessages p fun m => m.message.payload.length
  have := hc.bytes
  have := hc.limit
  refine ⟨?_, ?_, fun i f hf => hc.timed i f (hflow i f hf)⟩
  · rw [hbytes, hmsg]
    omega
  · omega

theorem Counted.flowClear (hc : Counted rx) (i : Fin ORDER_FLOW_LIMIT) : Counted (orderFlowClear rx i) := by
  refine hc.drop (fun m => m.flowIndex = i) rfl ?_ fun k f hf => (Table.clear_eq_some.mp hf).2
  simp [orderFlowClear]

theorem Counted.peerReset (hc : Counted rx) (node : NodeId) : Counted (rxPeerReset rx node) :=
  hc.drop _ rfl rfl fun _ _ hf => (Table.drop_eq_some.mp hf).1

theorem Counted.setFlow (hc : Counted rx) (ht : f.state.Timed) : Counted { rx with orderRx := rx.orderRx.set i f } := by
  refine ⟨hc.bytes, hc.limit, fun k g hg => ?_⟩
  dsimp only at hg
  rw [Table.set_apply] at hg
  split_ifs at hg with hk
  · rw [← Option.some.inj hg]
    exact ht
  · exact hc.timed k g hg

theorem Counted.detachOne (hc : Counted rx) (i : Fin ORDER_FLOW_LIMIT) (acc : List OrderMessage) (cursor : Nat) :
    Counted (orderDetachOne i (rx, acc) cursor).1 := by
  unfold orderDetachOne
  cases hf : orderMessageFind rx i cursor with
  | none => exact hc
  | some j =>
    obtain ⟨m, hm, -⟩ := orderMessageFind_some hf
    simp only [Option.bind_some, hm, Option.map_some]
    have hsum := Table.sum_clear rx.orderMessages j fun m => m.message.payload.length
    rw [hm, Table.weight_some] at hsum
    have := hc.bytes
    have := hc.limit
    refine ⟨?_, ?_, hc.timed⟩
    · dsimp only
      omega
    · dsimp only
      omega

theorem Counted.detach {rx' : RxState} {r : Except Errno (List OrderMessage)} (hc : Counted rx)
    (h : orderDetachLocked rx i marker count = (rx', r)) : Counted rx' := by
  have hfold : ∀ (cursors : List Nat) (rx : RxState) (acc : List OrderMessage), Counted rx →
      Counted (cursors.foldl (orderDetachOne i) (rx, acc)).1 := by
    intro cursors
    induction cursors with
    | nil => exact fun _ _ hc => hc
    | cons c cs ih => exact fun rx acc hc => ih _ _ (hc.detachOne i acc c)
  unfold orderDetachLocked at h
  split_ifs at h
  · exact (Prod.mk.inj h).1 ▸ hc
  · exact (Prod.mk.inj h).1 ▸ hc
  · rw [← (Prod.mk.inj h).1]
    exact hfold _ rx [] hc

theorem Counted.state (hc : Counted rx) (i : Fin ORDER_FLOW_LIMIT) (created : Bool) :
    (orderRxState rx i created).Timed := by
  unfold orderRxState
  split_ifs
  · exact timed_orderReset
  cases hf : rx.orderRx i with
  | none => exact timed_orderReset
  | some f => exact hc.timed i f hf

theorem Counted.insert {j : Fin ORDER_BUFFER_LIMIT} (hc : Counted rx) (hfree : rx.orderMessages j = none)
    (hroom : m.payload.length ≤ ORDER_BYTE_LIMIT - rx.orderBytes) (ht : f.state.Timed) :
    Counted (orderInsert rx h m i f j) := by
  have hsum := Table.sum_set rx.orderMessages j ⟨m, h.orderingMarker.toNat, i⟩ fun m => m.message.payload.length
  rw [hfree, Table.weight_none] at hsum
  dsimp only at hsum
  have := hc.bytes
  have := hc.limit
  refine ⟨?_, ?_, (hc.setFlow ht).timed⟩
  · dsimp only [orderInsert]
    omega
  · dsimp only [orderInsert]
    omega

theorem Counted.admitted (hc : Counted rx) (h : WireData) (sessionEpoch : UInt64) (m : Complete) (nowMs : Nat) :
    Counted (orderAdmitLocked rx h sessionEpoch m nowMs).1 := by
  unfold orderAdmitLocked
  cases orderRxFlowLocked rx m.source h.sourceService h.destinationService h.common.identityGeneration sessionEpoch with
  | error e => exact hc
  | ok r =>
    obtain ⟨i, created⟩ := r
    dsimp only
    cases hstate : orderAdmit (orderRxState rx i created) h.orderingMarker.toNat nowMs with
    | error e => exact hc
    | ok r =>
      obtain ⟨result, state⟩ := r
      have ht : (orderRxWrite rx h sessionEpoch m i created state).state.Timed := by
        rw [orderRxWrite_state]
        exact (hc.state i created).admitted hstate
      have hinsert : ∀ j, rx.orderMessages j = none → ¬ORDER_BYTE_LIMIT - rx.orderBytes < m.payload.length →
          Counted (orderInsert rx h m i (orderRxWrite rx h sessionEpoch m i created state) j) :=
        fun j hfree hroom => hc.insert hfree (Nat.le_of_not_lt hroom) ht
      cases result with
      | duplicate => exact hc
      | held =>
        dsimp only
        split_ifs with hroom
        · exact hc
        · cases hfree : rx.orderMessages.free? with
          | none => exact hc
          | some j => exact hinsert j (Table.free?_some hfree) hroom
      | released marker count =>
        dsimp only
        split_ifs with hroom
        · exact hc
        cases hfree : rx.orderMessages.free? with
        | none => exact hc
        | some j =>
          have hins := hinsert j (Table.free?_some hfree) hroom
          dsimp only
          split
          · exact (hins.detach ‹_›).flowClear i
          · exact hins.detach ‹_›

theorem Counted.poll (hc : Counted rx) (nowMs : Nat) : Counted (orderPollLocked rx nowMs).1 := by
  have hloop : ∀ is, Counted (orderPollFrom nowMs rx is).1 := by
    intro is
    induction is with
    | nil => exact hc
    | cons i is ih =>
      unfold orderPollFrom
      cases hflow : rx.orderRx i with
      | none => exact ih
      | some flow =>
        dsimp only
        split
        · -- the flow goes with the window that was written
          have := hc.flowClear i
          simp only [orderFlowClear, Table.clear_set] at this ⊢
          exact this
        · rename_i hpoll
          have hset := hc.setFlow (i := i) (f := { flow with state := _ }) ((hc.timed i flow hflow).poll hpoll)
          split
          · exact (hset.detach ‹_›).flowClear i
          · exact hset.detach ‹_›
        · exact ih
  exact hloop _

/-! ## The invariant -/

structure Orderly (rx : RxState) : Prop where
  windowed : Windowed rx
  counted : Counted rx

theorem orderly_empty : Orderly {} := ⟨windowed_empty, counted_empty⟩

theorem Orderly.congr {rx' : RxState} (ho : Orderly rx) (h : OrderSame rx rx') : Orderly rx' :=
  ⟨ho.windowed.congr h.orderRx h.orderMessages, ho.counted.congr h⟩

theorem Windowed.peerReset (hw : Windowed rx) (node : NodeId) : Windowed (rxPeerReset rx node) := by
  have hmsg : ∀ j m, (rxPeerReset rx node).orderMessages j = some m → rx.orderMessages j = some m :=
    fun j m hm => (rxPeerReset_message.mp hm).1
  refine ⟨⟨fun j j' m m' hm hm' => ?_, fun j m hm => ?_, fun j m hm => ?_⟩, fun i f hf => ?_⟩
  · exact hw.buffered.unique j j' m m' (hmsg j m hm) (hmsg j' m' hm')
  · exact hw.buffered.marker j m (hmsg j m hm)
  · obtain ⟨hm, hother⟩ := rxPeerReset_message.mp hm
    obtain ⟨f, hf⟩ := hw.buffered.flow j m hm
    exact ⟨f, rxPeerReset_flow.mpr ⟨hf, hother f hf⟩⟩
  obtain ⟨hf, hne⟩ := rxPeerReset_flow.mp hf
  obtain ⟨hmark, hwaits⟩ := hw.agrees i f hf
  refine ⟨hmark, hwaits.other (fun j m hm hi => ?_) fun j m hm _ => hmsg j m hm⟩
  refine rxPeerReset_message.mpr ⟨hm, fun g hg => ?_⟩
  rw [hi, hf, Option.some.injEq] at hg
  exact hg ▸ hne

theorem Orderly.clears {rx' : RxState} (ho : Orderly rx) (h : RxClears rx rx') : Orderly rx' := by
  induction h with
  | refl => exact ho
  | peer _ node ih => exact ⟨ih.windowed.peerReset node, ih.counted.peerReset node⟩
  | reassembly _ ih => exact ih.congr ⟨rfl, rfl, rfl⟩
  | order _ _ => exact orderly_empty.congr ⟨rfl, rfl, rfl⟩

theorem Orderly.admitted (ho : Orderly rx) (hmark : m.origin.marker = h.orderingMarker.toNat) (sessionEpoch : UInt64)
    (nowMs : Nat) : Orderly (orderAdmitLocked rx h sessionEpoch m nowMs).1 :=
  ⟨(ho.windowed.admits hmark (orderAdmitLocked_admits rx h sessionEpoch m nowMs)).1,
    ho.counted.admitted h sessionEpoch m nowMs⟩

theorem Orderly.poll (ho : Orderly rx) (bootNs : UInt64) :
    Orderly (orderPollLocked rx (reliabilityNow bootNs)).1 :=
  ⟨(ho.windowed.polls (orderDeadline_reliabilityNow bootNs) (orderPollLocked_polls _ rx)).1, ho.counted.poll _⟩

/-! ## Steps of the machine -/

theorem reassemblyClear_same (rx : RxState) (i : Fin REASSEMBLY_LIMIT) : OrderSame rx (reassemblyClear rx i) := by
  unfold reassemblyClear
  split <;> exact ⟨rfl, rfl, rfl⟩

theorem reassemblyPut_same (rx : RxState) (i : Fin REASSEMBLY_LIMIT) (e : Reassembly) (h : WireData) (fragment : Octets)
    (allocComplete : Bool) (token : Token) : OrderSame rx (reassemblyPut rx i e h fragment allocComplete token).1 := by
  have hclear : ∀ rx' : RxState, OrderSame rx rx' → OrderSame rx (reassemblyClear rx' i) :=
    fun rx' hsame => hsame.trans (reassemblyClear_same rx' i)
  unfold reassemblyPut
  dsimp only
  split_ifs
  · exact ⟨rfl, rfl, rfl⟩
  · exact ⟨rfl, rfl, rfl⟩
  · exact ⟨rfl, rfl, rfl⟩
  · exact hclear _ ⟨rfl, rfl, rfl⟩
  · exact hclear _ ⟨rfl, rfl, rfl⟩
  · exact hclear _ ⟨rfl, rfl, rfl⟩

theorem reassemblyExpire_same (rx : RxState) (jiffies : UInt64) : OrderSame rx (reassemblyExpire rx jiffies) :=
  ⟨rfl, rfl, rfl⟩

theorem reassemblyAdd_same (P : Platform) (rx : RxState) (jiffies : UInt64) (source : NodeId) (h : WireData)
    (sessionEpoch : UInt64) (metadata : RxMeta) (fragment : Octets) (allocComplete : Bool) (token : Token) :
    OrderSame rx (reassemblyAdd P rx jiffies source h sessionEpoch metadata fragment allocComplete token).1 := by
  unfold reassemblyAdd
  dsimp only
  refine (reassemblyExpire_same rx jiffies).trans ?_
  split
  · exact OrderSame.refl _
  split
  · exact reassemblyPut_same ..
  split_ifs
  · exact reassemblyClear_same ..
  · exact reassemblyPut_same ..

theorem Orderly.dataAdmit {source : NodeId} {sessionEpoch : UInt64} {metadata : RxMeta} {plaintext : Octets}
    {token : Token} (ho : Orderly d.rx) :
    Orderly (dataAdmit P d h source sessionEpoch metadata plaintext token a).1.rx := by
  have hcomplete : ∀ (d : Device) (m : Complete) (bitmap : BitVec 64), Orderly d.rx →
      m.origin.marker = h.orderingMarker.toNat → Orderly (dataComplete d h sessionEpoch m bitmap a.nowMs).1.rx := by
    intro d m bitmap ho hmark
    unfold dataComplete
    split_ifs
    · exact ho.admitted hmark sessionEpoch a.nowMs
    · exact ho
  unfold Melodi.dataAdmit
  split_ifs
  · exact hcomplete d _ _ ho rfl
  have hsame := reassemblyAdd_same P d.rx a.jiffies source h sessionEpoch metadata plaintext a.allocComplete token
  have hadd := reassemblyAdd_adds P d.rx a.jiffies source h sessionEpoch metadata plaintext a.allocComplete token
  split <;> rename_i hr <;> rw [hr] at hadd hsame
  · exact ho.congr hsame
  · exact ho.congr hsame
  · exact hcomplete _ _ _ (ho.congr hsame) (hadd.complete _ rfl).marker

theorem Orderly.dataCommit {o : Opened} (ho : Orderly d.rx) :
    Orderly (dataCommit P d o a).1.rx := by
  unfold Melodi.dataCommit
  dsimp only
  split
  · exact ho
  split_ifs
  · exact ho
  · exact ho
  · exact ho
  split
  · split_ifs <;> exact ho
  rename_i hm
  obtain ⟨-, w, -, rfl⟩ := markAccepted_ok hm
  exact Orderly.dataAdmit ho

theorem Orderly.broadcastAdmit {o : BroadcastOpened} {t : Token} (ho : Orderly d.rx) :
    Orderly (broadcastAdmit P d o t a).1.rx := by
  unfold Melodi.broadcastAdmit
  split
  · exact ho
  split
  · exact ho
  · exact Orderly.dataAdmit ho

theorem Sends.orderly (h : Sends d d') (ho : Orderly d.rx) : Orderly d'.rx := by
  rw [h.rx]
  exact ho

theorem step_orderly (P : Platform) (s : Node) (a : Label) (ho : Orderly s.dev.rx) : Orderly (step P s a).dev.rx := by
  have hmove := step_moves P s a
  generalize step P s a = s' at hmove ⊢
  cases hmove with
  | stay => exact ho
  | @control c => exact ho.clears (controlStep_rx P s.dev c)
  | bind => exact ho
  | rxData h => exact ho
  | rxAck h => exact ho
  | work hidle => exact (ho.congr (reassemblyExpire_same s.dev.rx _)).poll _
  | workDone h => exact ho
  | workDeliver h => exact ho
  | sendFailed h | send h =>
    obtain ⟨n, hr⟩ := sendOpen_reserves h
    exact hr.sends.orderly ho
  | stage hidx hc h =>
    cases h with
    | commitFailed h | commit h => exact (congrArg (fun r => r.1.rx) h) ▸ Orderly.dataCommit ho
    | markFailed h | mark h =>
      rcases broadcastMark_cases h with ⟨rfl, -⟩ | ⟨k, p, t, hp, hm, -⟩
      · exact ho
      · exact markAccepted_rx hm ▸ ho
    | admitFailed h | admitBroadcast h => exact (congrArg (fun r => r.1.rx) h) ▸ Orderly.broadcastAdmit ho
    | deliver => exact ho
    | delivered => exact ho
    | hand => exact ho
    | echoFailed h | echo h =>
      obtain ⟨n, hr⟩ := sendOpen_reserves h
      exact hr.sends.orderly ho
    | @store _ jiffies plan =>
      obtain ⟨receipts, heq⟩ := receiptSection_eq P s.dev plan jiffies
      rw [heq]
      exact ho.congr ⟨rfl, rfl, rfl⟩
    | sendAck => exact (dataSendAck_sends ..).orderly ho
    | @ackCommit _ o =>
      rcases ackCommit_cases s.dev o with heq | ⟨k, p, t, hp, hm⟩
      · rw [heq]
        exact ho
      · exact markAccepted_rx hm ▸ ho
    | sealed => exact (sealFrames_sends ..).orderly ho

/-! ## The buffer matches the window -/

/-- The buffer holds exactly one message for each bit of the mask of a flow, at the marker the bit stands for; the
octets are counted, and the deadline runs while something waits. -/
structure BufferMatches (rx : RxState) : Prop where
  bit : ∀ i f, rx.orderRx i = some f → ∀ k, f.state.pending.getLsbD k = true →
    ∃! j, ∃ m, rx.orderMessages j = some m ∧ m.flowIndex = i ∧ m.marker = orderAdvance f.state.expected (k + 1)
  message : ∀ i f, rx.orderRx i = some f → ∀ j m, rx.orderMessages j = some m → m.flowIndex = i →
    ∃! k, f.state.pending.getLsbD k = true ∧ m.marker = orderAdvance f.state.expected (k + 1)
  bytes : rx.orderBytes = rx.orderMessages.sum fun m => m.message.payload.length
  limit : rx.orderBytes ≤ ORDER_BYTE_LIMIT
  deadline : ∀ i f, rx.orderRx i = some f → (f.state.deadlineMs ≠ 0 ↔ f.state.pending ≠ 0)

/-- What the window releases is found in the buffer, in the order of the markers: when the message of a frame is put
into its flow, and when a flow is polled. -/
structure ReleaseFinds (rx : RxState) : Prop where
  admitted : ∀ (h : WireData) (sessionEpoch : UInt64) (m : Complete) (nowMs : Nat) i created state marker count j,
    m.origin.marker = h.orderingMarker.toNat →
    orderRxFlowLocked rx m.source h.sourceService h.destinationService h.common.identityGeneration sessionEpoch =
      .ok (i, created) →
    orderAdmit (orderRxState rx i created) h.orderingMarker.toNat nowMs = .ok (.released marker count, state) →
    rx.orderMessages j = none →
    ∃ rx' batch, orderDetachLocked (orderInsert rx h m i (orderRxWrite rx h sessionEpoch m i created state) j) i marker
      count = (rx', .ok batch) ∧ batch.map (·.marker) = orderMarkers marker count
  poll : ∀ (bootNs : UInt64) i flow state marker count, rx.orderRx i = some flow →
    orderPoll flow.state (reliabilityNow bootNs) = (state, .ok (.released marker count)) →
    ∃ rx' batch, orderDetachLocked { rx with orderRx := rx.orderRx.set i { flow with state := state } } i marker count =
      (rx', .ok batch) ∧ batch.map (·.marker) = orderMarkers marker count

theorem Orderly.matches (ho : Orderly rx) : BufferMatches rx where
  bit := by
    intro i f hf k hk
    obtain ⟨-, hwaits⟩ := ho.windowed.agrees i f hf
    obtain ⟨j, m, hm, hi, hmark⟩ := hwaits.message (k + 1) ⟨Nat.succ_pos k, hk⟩
    refine ⟨j, ⟨m, hm, hi, hmark⟩, ?_⟩
    rintro j' ⟨m', hm', hi', hmark'⟩
    exact ho.windowed.buffered.unique j' j m' m hm' hm (hi'.trans hi.symm) (hmark'.trans hmark.symm)
  message := by
    intro i f hf j m hm hi
    obtain ⟨he, hwaits⟩ := ho.windowed.agrees i f hf
    obtain ⟨o, hmem, hmark⟩ := hwaits.offset j m hm hi
    have hpos := hmem.1
    refine ⟨o - 1, ⟨hmem.2, by rw [hmark, Nat.sub_add_cancel hpos]⟩, ?_⟩
    rintro k ⟨hk, hmark'⟩
    have hk : k + 1 ∈ f.state.offsets := ⟨Nat.succ_pos k, hk⟩
    have := orderAdvance_inj he (OrderState.offsets_lt hk) (OrderState.offsets_lt hmem) (hmark'.symm.trans hmark)
    omega
  bytes := ho.counted.bytes
  limit := ho.counted.limit
  deadline := ho.counted.timed

theorem Releases.nodup {st st' : OrderState} {offset : Nat} (h : Releases st st' offset count marker)
    (he : IsMarker st.expected) (hoffset : offset ≤ ORDER_WINDOW) : (orderMarkers marker count).Nodup := by
  have hle := h.le hoffset
  have hmod : ORDER_WINDOW + 1 < ORDER_MODULUS := by decide
  rw [h.marker_eq, orderMarkers_eq]
  exact orderMarkers_nodup he (by omega)

theorem Orderly.finds (ho : Orderly rx) : ReleaseFinds rx where
  admitted := by
    intro h sessionEpoch m nowMs i created state marker count j hmark hflow hstate hfree
    obtain ⟨rx', batch, hdet, -⟩ := ho.windowed.admit_release hmark hflow hstate hfree
    obtain ⟨he, -⟩ := ho.windowed.state hflow
    obtain ⟨o, -, -, hcases⟩ := orderAdmit_cases he (orderingMarker_le h) hstate
    have hr : Releases (orderRxState rx i created) state 0 count marker := by
      rcases hcases with ⟨-, n, hres, hr⟩ | ⟨-, -, -, hres, -⟩ | ⟨-, -, -, hres, -⟩ | ⟨-, -, hres, -⟩
      · obtain ⟨rfl, rfl⟩ := OrderResult.released.inj hres
        exact hr
      · cases hres
      · cases hres
      · cases hres
    exact ⟨rx', batch, hdet, (orderDetachLocked_ok hdet).2.2 (hr.nodup he (Nat.zero_le _))⟩
  poll := by
    intro bootNs i flow state marker count hf hpoll
    obtain ⟨marker', count', rx', offset, batch, hres, hdet, -⟩ :=
      ho.windowed.poll_release (orderDeadline_reliabilityNow bootNs) hf hpoll (by simp)
    obtain ⟨rfl, rfl⟩ := OrderResult.released.inj (Except.ok.inj hres)
    obtain ⟨he, -⟩ := ho.windowed.agrees i flow hf
    refine ⟨rx', batch, hdet, (orderDetachLocked_ok hdet).2.2 ?_⟩
    rcases orderPoll_cases he hpoll with ⟨h, -⟩ | ⟨-, s, m, n, -, hone, hrel, h | ⟨h, -⟩⟩
    · cases h
    · obtain ⟨rfl, rfl⟩ := OrderResult.released.inj (Except.ok.inj h)
      exact hrel.nodup he (OrderState.offsets_le ⟨Nat.succ_pos s, hone⟩)
    · cases h

/-- In every reachable state the buffer holds, for each flow, exactly one message for each pending marker of its
window, and no others. -/
theorem buffer_matches_window (P : Platform) (as : List Label) :
    BufferMatches (run (step P) Node.initial as).dev.rx ∧ ReleaseFinds (run (step P) Node.initial as).dev.rx := by
  have ho := run_invariant (step P) (fun s => Orderly s.dev.rx) (step_orderly P) (s := Node.initial) orderly_empty as
  exact ⟨ho.matches, ho.finds⟩

end Melodi
