import Melodi.System.Sessions

/-!
# Ownership is kept by every step
-/

namespace Melodi
open Lib
variable {m : Complete} {d d' : Device} {i : Fin ORDER_FLOW_LIMIT} {k : Fin PEER_LIMIT} {batch : List OrderMessage}
  {nowMs session : Nat} {source : NodeId} {frame : Octets} {f : OrderRxFlow} {p : Peer} {P : Platform} {link : RxMeta}
  {rx : RxState} {t token : Token} {sessionEpoch : UInt64} {h : WireData}
variable {created alloc : Bool} {rx' : RxState} {counter : Nat} {kind : FrameKind} {o : BroadcastOpened} {c : Call}

/-! ## The tables of the ordered flows -/

theorem Owned.shrink (ho : Owned d) (hflow : ∀ i f, rx.orderRx i = some f → d.rx.orderRx i = some f)
    (hmsg : ∀ j m, rx.orderMessages j = some m → d.rx.orderMessages j = some m)
    (hkept : ∀ j m, rx.orderMessages j = some m → rx.orderRx m.flowIndex = d.rx.orderRx m.flowIndex) :
    Owned { d with rx := rx } := { ho with
  flow_owner := fun i f hf => ho.flow_owner i f (hflow i f hf)
  flow_inj := fun i j f g hf hg => ho.flow_inj i j f g (hflow i f hf) (hflow j g hg)
  message_flow := by
    intro j m hm
    obtain ⟨f, hf, hfit⟩ := ho.message_flow j m (hmsg j m hm)
    exact ⟨f, (hkept j m hm).trans hf, hfit⟩ }

theorem Owned.write (ho : Owned d) (hf : d.rx.orderRx i = some f) (state : OrderState) :
    Owned { d with rx := { d.rx with orderRx := d.rx.orderRx.set i { f with state := state } } } := { ho with
  flow_owner := by
    intro k g hg
    dsimp only at hg
    rw [Table.set_apply] at hg
    split_ifs at hg with hk
    · obtain ⟨j, p, hp, hown⟩ := ho.flow_owner i f hf
      rw [← Option.some.inj hg]
      exact ⟨j, p, hp, hown.nodeId, hown.session, hown.generation, hown.sessionEpoch⟩
    · exact ho.flow_owner k g hg
  flow_inj := by
    -- each record of the new table stands for one of the old table with the same key
    have hold : ∀ k g, d.rx.orderRx.set i { f with state := state } k = some g → ∃ g₀, d.rx.orderRx k = some g₀ ∧
        g₀.source = g.source ∧ g₀.sourceService = g.sourceService ∧ g₀.destinationService = g.destinationService := by
      intro k g hg
      rw [Table.set_apply] at hg
      split_ifs at hg with hk
      · rw [← Option.some.inj hg, hk]
        exact ⟨f, hf, rfl, rfl, rfl⟩
      · exact ⟨g, hg, rfl, rfl, rfl⟩
    intro j k g g' hg hg' hs hss hds
    obtain ⟨g₀, hg₀, h1, h2, h3⟩ := hold j g hg
    obtain ⟨g₀', hg₀', h1', h2', h3'⟩ := hold k g' hg'
    exact ho.flow_inj j k g₀ g₀' hg₀ hg₀' (by rw [h1, h1', hs]) (by rw [h2, h2', hss]) (by rw [h3, h3', hds])
  message_flow := by
    intro j m hm
    obtain ⟨g, hg, hfit⟩ := ho.message_flow j m hm
    by_cases hk : m.flowIndex = i
    · rw [hk, hf, Option.some.injEq] at hg
      refine ⟨{ f with state := state }, by rw [hk]; exact Table.set_self _ _ _, ?_⟩
      rw [← hg] at hfit
      exact ⟨hfit.source, hfit.session, hfit.sourceService, hfit.destinationService⟩
    · exact ⟨g, (Table.set_of_ne _ _ hk).trans hg, hfit⟩ }

theorem Owned.start {g : OrderRxFlow} (ho : Owned d) (hfree : d.rx.orderRx i = none)
    (hown : ∃ j p, d.peers j = some p ∧ g.OwnedBy p)
    (hnew : ∀ k f, d.rx.orderRx k = some f → f.source = g.source → f.sourceService = g.sourceService →
      f.destinationService ≠ g.destinationService) :
    Owned { d with rx := { d.rx with orderRx := d.rx.orderRx.set i g } } := { ho with
  flow_owner := by
    intro k f hf
    dsimp only at hf
    rw [Table.set_apply] at hf
    split_ifs at hf with hk
    · exact Option.some.inj hf ▸ hown
    · exact ho.flow_owner k f hf
  flow_inj := by
    intro j k f f' hf hf' hs hss hds
    dsimp only at hf hf'
    rw [Table.set_apply] at hf hf'
    split_ifs at hf hf' with hj hk
    · rw [hj, hk]
    · rw [← Option.some.inj hf] at hs hss hds
      exact absurd hds.symm (hnew k f' hf' hs.symm hss.symm)
    · rw [← Option.some.inj hf'] at hs hss hds
      exact absurd hds (hnew j f hf hs hss)
    · exact ho.flow_inj j k f f' hf hf' hs hss hds
  message_flow := by
    intro j m hm
    obtain ⟨f, hf, hfit⟩ := ho.message_flow j m hm
    have hk : m.flowIndex ≠ i := by
      rintro hk
      rw [hk, hfree] at hf
      cases hf
    exact ⟨f, (Table.set_of_ne _ _ hk).trans hf, hfit⟩ }

theorem Owned.buffer {m : OrderMessage} (ho : Owned d) (hf : d.rx.orderRx m.flowIndex = some f) (hfit : m.Fits f)
    (j : Fin ORDER_BUFFER_LIMIT) (bytes : Nat) :
    Owned { d with rx := { d.rx with orderMessages := d.rx.orderMessages.set j m, orderBytes := bytes } } := { ho with
  message_flow := by
    intro k n hn
    dsimp only at hn
    rw [Table.set_apply] at hn
    split_ifs at hn with hk
    · rw [← Option.some.inj hn]
      exact ⟨f, hf, hfit⟩
    · exact ho.message_flow k n hn }

theorem Owned.detach (ho : Owned d) (h : Detaches i d.rx rx batch) : Owned { d with rx := rx } :=
  ho.shrink (fun _ _ hf => h.orderRx ▸ hf) h.left fun _ _ _ => by rw [h.orderRx]

theorem Owned.flowClear (ho : Owned d) (i : Fin ORDER_FLOW_LIMIT) :
    Owned { d with rx := orderFlowClear d.rx i } := by
  refine ho.shrink (fun k f hf => (Table.clear_eq_some.mp hf).2) (fun j m hm => (Table.drop_eq_some.mp hm).1) ?_
  intro j m hm
  have := (Table.drop_eq_some.mp hm).2
  exact Table.clear_of_ne _ (by simpa using this)

/-! ## Admission -/

/-- The header and the message belong to the present session of the peer at slot `i`. -/
structure InSession (d : Device) (h : WireData) (source : NodeId) (sessionEpoch : UInt64) (session : Nat)
    (i : Fin PEER_LIMIT) (p : Peer) : Prop where
  slot : d.peers i = some p
  nodeId : p.nodeId = source
  session : p.session = session
  generation : p.generation = h.common.identityGeneration
  sessionEpoch : p.sessionEpoch = sessionEpoch

theorem InSession.owner {i : Fin PEER_LIMIT} (hs : InSession d h source sessionEpoch session i p) (ho : Owned d)
    {k : Fin ORDER_FLOW_LIMIT} (hf : d.rx.orderRx k = some f) (hsrc : f.source = source) :
    f.OwnedBy p := by
  obtain ⟨j, q, hq, hown⟩ := ho.flow_owner k f hf
  have hij : j = i := ho.node_inj j i q p hq hs.slot (by rw [hown.nodeId, hsrc, hs.nodeId])
  subst hij
  rw [hs.slot, Option.some.injEq] at hq
  exact hq ▸ hown

theorem Owned.insert (ho : Owned d) (hs : InSession d h source sessionEpoch session k p) (hm : m.IsOf h source session)
    (hflow : orderRxFlowLocked d.rx m.source h.sourceService h.destinationService h.common.identityGeneration
      sessionEpoch = .ok (i, created))
    (state : OrderState) (j : Fin ORDER_BUFFER_LIMIT) :
    Owned { d with rx := orderInsert d.rx h m i (orderRxWrite d.rx h sessionEpoch m i created state) j } := by
  rcases orderRxFlowLocked_cases hflow with ⟨rfl, f, hf, hfor⟩ | ⟨rfl, hfree, hnone⟩
  · have hwrite : orderRxWrite d.rx h sessionEpoch m i false state = { f with state := state } := by
      simp only [orderRxWrite, hf]
    simp only [OrderRxFlow.isFor, Bool.and_eq_true, decide_eq_true_eq] at hfor
    have hown := hs.owner ho hf (hfor.2.trans hm.source)
    rw [hwrite]
    refine Owned.buffer (m := ⟨m, h.orderingMarker.toNat, i⟩) (f := { f with state := state }) (ho.write hf state)
      (Table.set_self _ _ _) ⟨hfor.2, ?_, ?_, ?_⟩ j _
    · exact hown.session.symm.trans (hs.session.trans hm.session.symm)
    · exact hfor.1.1.2.trans hm.sourceService.symm
    · exact hfor.1.2.trans hm.destinationService.symm
  · have hwrite : orderRxWrite d.rx h sessionEpoch m i true state =
        ⟨state, m.source, sessionEpoch, h.common.identityGeneration, h.sourceService, h.destinationService,
          m.origin.session⟩ := rfl
    rw [hwrite]
    have hstart := ho.start (g := ⟨state, m.source, sessionEpoch, h.common.identityGeneration, h.sourceService,
      h.destinationService, m.origin.session⟩) hfree ⟨k, p, hs.slot, hs.nodeId.trans hm.source.symm,
        hs.session.trans hm.session.symm, hs.generation, hs.sessionEpoch⟩ ?_
    · exact Owned.buffer (m := ⟨m, h.orderingMarker.toNat, i⟩) hstart (Table.set_self _ _ _)
        ⟨rfl, rfl, hm.sourceService.symm, hm.destinationService.symm⟩ j _
    · intro l f hf hsrc hss hds
      -- a flow of the peer with these services is one of this session, and would have been found
      have hown := hs.owner ho hf (hsrc.trans hm.source)
      have := hnone l f hf
      simp only [OrderRxFlow.isFor, ← hown.generation, hs.generation, ← hown.sessionEpoch, hs.sessionEpoch, hss, hds,
        hsrc, decide_true, Bool.and_self] at this
      cases this

theorem Owned.admits {r : Except Errno (List OrderMessage)} (ho : Owned d)
    (hs : InSession d h source sessionEpoch session k p) (hm : m.IsOf h source session)
    (ha : Admits h sessionEpoch m nowMs d.rx rx r) : Owned { d with rx := rx } := by
  cases ha with
  | refused => exact ho
  | duplicate hflow hstate => exact ho
  | held hflow hstate hfree => exact ho.insert hs hm hflow _ _
  | released hflow hstate hfree hdetach =>
    exact (ho.insert hs hm hflow _ _).detach (orderDetachLocked_ok hdetach).1
  | broken hflow hstate hfree hdetach =>
    rw [(orderDetachLocked_error hdetach).1]
    exact (ho.insert hs hm hflow _ _).flowClear _

theorem Owned.adds {out : Option Complete} (ho : Owned d) (ha : Adds h source token d.rx rx out) :
    Owned { d with rx := rx } :=
  ho.shrink (fun _ _ hf => ha.orderRx ▸ hf) (fun _ _ hm => ha.orderMessages ▸ hm) fun _ _ _ => by rw [ha.orderRx]

theorem Owned.takes {r : Except Errno Outcome} (ho : Owned d)
    (hs : h.isOrdered = true → ∃ i p, InSession d h source sessionEpoch token.session i p)
    (ht : Takes h source sessionEpoch token nowMs d.rx rx r) : Owned { d with rx := rx } := by
  cases ht with
  | failed hadd => exact ho.adds hadd
  | incomplete hadd => exact ho.adds hadd
  | whole hord hadd => exact ho.adds hadd
  | ordered hord hadd hstate =>
    obtain ⟨i, p, hin⟩ := hs hord
    exact (ho.adds hadd).admits ⟨hin.slot, hin.nodeId, hin.session, hin.generation, hin.sessionEpoch⟩
      (hadd.complete _ rfl) hstate

theorem Owned.polls {r : Except Errno (List OrderMessage)} (ho : Owned d) (hp : Polls nowMs d.rx rx r) :
    Owned { d with rx := rx } := by
  cases hp with
  | idle => exact ho
  | released hflow hpoll hdetach => exact (ho.write hflow _).detach (orderDetachLocked_ok hdetach).1
  | broken hflow hpoll hdetach =>
    rw [(orderDetachLocked_error hdetach).1]
    exact (ho.write hflow _).flowClear _
  | failed hflow hpoll => exact (ho.write hflow _).flowClear _

/-! ## The flow of a message -/

/-- An ordered flow: who sends it, in which session, and between which services. -/
structure FlowKey where
  source : NodeId
  session : Nat
  sourceService : UInt16
  destinationService : UInt16
  deriving DecidableEq, Repr

def Complete.flow (m : Complete) : FlowKey := ⟨m.source, m.origin.session, m.sourceService, m.destinationService⟩

def OrderRxFlow.key (f : OrderRxFlow) : FlowKey := ⟨f.source, f.session, f.sourceService, f.destinationService⟩

theorem OrderMessage.Fits.key {m : OrderMessage} (h : m.Fits f) : m.message.flow = f.key := by
  rw [Complete.flow, OrderRxFlow.key, h.source, h.session, h.sourceService, h.destinationService]

theorem Owned.write_key (ho : Owned d) (hs : InSession d h source sessionEpoch session k p)
    (hm : m.IsOf h source session)
    (hflow : orderRxFlowLocked d.rx m.source h.sourceService h.destinationService h.common.identityGeneration
      sessionEpoch = .ok (i, created))
    (state : OrderState) : (orderRxWrite d.rx h sessionEpoch m i created state).key = m.flow := by
  obtain ⟨j⟩ : Nonempty (Fin ORDER_BUFFER_LIMIT) := ⟨⟨0, by decide⟩⟩
  have hown := ho.insert hs hm hflow state j
  obtain ⟨f, hf, hfit⟩ := hown.message_flow j ⟨m, h.orderingMarker.toNat, i⟩ (Table.set_self _ _ _)
  simp only [orderInsert, Table.set_self, Option.some.injEq] at hf
  rw [hf, ← hfit.key]

theorem Owned.admits_batch (ho : Owned d) (hs : InSession d h source sessionEpoch session k p)
    (hm : m.IsOf h source session)
    (ha : Admits h sessionEpoch m nowMs d.rx rx (.ok batch)) : ∀ b ∈ batch, b.message.flow = m.flow := by
  cases ha with
  | duplicate hflow hstate => simp
  | held hflow hstate hfree => simp
  | released hflow hstate hfree hdetach =>
    intro b hb
    obtain ⟨hi, j, hj⟩ := (orderDetachLocked_ok hdetach).1.buffered b hb
    obtain ⟨f, hf, hfit⟩ := (ho.insert hs hm hflow _ _).message_flow j b hj
    simp only [hi, orderInsert, Table.set_self, Option.some.injEq] at hf
    rw [hfit.key, ← hf, ho.write_key hs hm hflow]

theorem Polls.buffered (hp : Polls nowMs rx rx' (.ok batch)) : ∀ b ∈ batch, ∃ j, rx.orderMessages j = some b := by
  cases hp with
  | idle => simp
  | released hflow hpoll hdetach =>
    intro b hb
    exact ((orderDetachLocked_ok hdetach).1.buffered b hb).2

theorem Owned.expire (ho : Owned d) (jiffies : UInt64) :
    Owned { d with rx := reassemblyExpire d.rx jiffies } :=
  ho.shrink (fun _ _ hf => reassemblyExpire_orderRx d.rx jiffies ▸ hf)
    (fun _ _ hm => reassemblyExpire_orderMessages d.rx jiffies ▸ hm) fun _ _ _ => by rw [reassemblyExpire_orderRx]

/-! ## The other sections -/

theorem Owned.congr (ho : Owned d) (hpeers : d'.peers = d.peers) (hserial : d'.serial = d.serial)
    (hflow : d'.rx.orderRx = d.rx.orderRx) (hmsg : d'.rx.orderMessages = d.rx.orderMessages) : Owned d' := by
  obtain ⟨h1, h2, h3, h4, h5, h6, h7, h8⟩ := ho
  rw [← hpeers, ← hserial] at h1 h2
  rw [← hpeers] at h3 h4 h5
  rw [← hpeers, ← hflow] at h6
  rw [← hflow] at h7
  rw [← hflow, ← hmsg] at h8
  exact ⟨h1, h2, h3, h4, h5, h6, h7, h8⟩

theorem Owned.mark {i : Fin PEER_LIMIT} (ho : Owned d) (hp : d.peers i = some p)
    (hm : markAccepted d i p counter kind = .ok (d', t)) : Owned d' := by
  obtain ⟨-, w, -, rfl⟩ := markAccepted_ok hm
  have hat : ∀ j q, d.peers.set i { p with receiveReplay := w } j = some q → ∃ q₀, d.peers j = some q₀ ∧
      q₀.session = q.session ∧ q₀.residence = q.residence ∧ q₀.nodeId = q.nodeId := by
    intro j q hq
    rw [Table.set_apply] at hq
    split_ifs at hq with hj
    · rw [hj, ← Option.some.inj hq]
      exact ⟨p, hp, rfl, rfl, rfl⟩
    · exact ⟨q, hq, rfl, rfl, rfl⟩
  refine ⟨?_, ?_, ?_, ?_, ?_, ?_, ho.flow_inj, ho.message_flow⟩
  · intro j q hq
    obtain ⟨q₀, hq₀, h1, -⟩ := hat j q hq
    exact h1 ▸ ho.session_lt j q₀ hq₀
  · intro j q hq
    obtain ⟨q₀, hq₀, -, h2, -⟩ := hat j q hq
    exact h2 ▸ ho.residence_lt j q₀ hq₀
  · intro j k q r hq hr heq
    obtain ⟨q₀, hq₀, h1, -⟩ := hat j q hq
    obtain ⟨r₀, hr₀, h1', -⟩ := hat k r hr
    exact ho.session_inj j k q₀ r₀ hq₀ hr₀ (by rw [h1, h1', heq])
  · intro j k q r hq hr heq
    obtain ⟨q₀, hq₀, -, h2, -⟩ := hat j q hq
    obtain ⟨r₀, hr₀, -, h2', -⟩ := hat k r hr
    exact ho.residence_inj j k q₀ r₀ hq₀ hr₀ (by rw [h2, h2', heq])
  · intro j k q r hq hr heq
    obtain ⟨q₀, hq₀, -, -, h3⟩ := hat j q hq
    obtain ⟨r₀, hr₀, -, -, h3'⟩ := hat k r hr
    exact ho.node_inj j k q₀ r₀ hq₀ hr₀ (by rw [h3, h3', heq])
  · intro k f hf
    obtain ⟨j, q, hq, hown⟩ := ho.flow_owner k f hf
    by_cases hj : j = i
    · rw [hj, hp, Option.some.injEq] at hq
      refine ⟨i, { p with receiveReplay := w }, Table.set_self _ _ _, ?_⟩
      rw [← hq] at hown
      exact ⟨hown.nodeId, hown.session, hown.generation, hown.sessionEpoch⟩
    · exact ⟨j, q, (Table.set_of_ne _ _ hj).trans hq, hown⟩

theorem Opened.Current.inSession {o : Opened} {d₁ : Device} {i : Fin PEER_LIMIT} (hc : o.Current d i p)
    (hm : markAccepted d i p counter kind = .ok (d₁, t)) :
    ∃ p', InSession d₁ o.header o.source o.sessionEpoch t.session i p' := by
  obtain ⟨rfl, w, -, rfl⟩ := markAccepted_ok hm
  exact ⟨{ p with receiveReplay := w }, Table.set_self _ _ _, hc.nodeId, rfl, hc.generation, hc.sessionEpoch⟩

/-! ## The machine -/

/-- Exactly the ordered frames carry a marker, no broadcast does, and a message handed over outside the flows has
none. -/
def Call.Marked : Call → Prop
  | .unicast o => o.header.isOrdered = decide (o.header.orderingMarker ≠ 0)
  | .broadcast o => o.header.isOrdered = false ∧ o.header.orderingMarker = 0
  | .broadcastMarked o _ => o.header.isOrdered = false ∧ o.header.orderingMarker = 0
  | .handing m _ _ _ => m.origin.marker = 0
  | _ => True

theorem Call.Marked.admitHeader (h : (Call.broadcastMarked o t).Marked) :
    o.admitHeader.isOrdered ≠ true := Bool.eq_false_iff.mp h.1

structure NodeOwned (s : Node) : Prop where
  dev : Owned s.dev
  calls : ∀ c ∈ s.calls, c.Marked

theorem nodeOwned_initial : NodeOwned Node.initial where
  dev := by
    refine ⟨?_, ?_, ?_, ?_, ?_, ?_, ?_, ?_⟩ <;> intro i <;> simp [Node.initial]
  calls := by simp [Node.initial]

theorem broadcastOpen_header (h : broadcastOpen P d frame link alloc = .ok o) :
    (∃ payload, wireDecodeData frame = .ok (o.header, payload)) ∧ o.header.deliveryMode = DELIVERY_UNRELIABLE ∧
      o.header.orderingMarker = 0 := by
  unfold broadcastOpen at h
  cases hd : wireDecodeBroadcastData frame with
  | error e => simp [hd] at h
  | ok r =>
    obtain ⟨hdr, signature, payload⟩ := r
    simp only [hd] at h
    repeat' split at h
    all_goals cases h
    unfold wireDecodeBroadcastData at hd
    split at hd
    · cases hd
    split_ifs at hd with hbad
    obtain ⟨rfl, -⟩ := Prod.mk.inj (Except.ok.inj hd)
    simp only [not_or, not_not] at hbad
    exact ⟨⟨_, ‹_›⟩, hbad.2.2.1, hbad.2.2.2.1⟩

theorem broadcastOpen_marked (h : broadcastOpen P d frame link alloc = .ok o) : (Call.broadcast o).Marked := by
  obtain ⟨-, hmode, hmarker⟩ := broadcastOpen_header h
  refine ⟨?_, hmarker⟩
  simp only [WireData.isOrdered, hmode]
  decide

theorem dataOpen_header {ciphertext : Octets} {o : Opened} (ho : dataOpen P d frame h ciphertext link = .ok o) :
    o.header = h := by
  unfold dataOpen at ho
  split at ho
  · cases ho
  split_ifs at ho
  dsimp only at ho
  split at ho
  · cases ho
  · rw [← Except.ok.inj ho]

theorem dataHeaderValid_marked (hv : dataHeaderValid h = .ok ()) :
    h.isOrdered = decide (h.orderingMarker ≠ 0) := by
  unfold dataHeaderValid at hv
  dsimp only at hv
  split at hv
  · cases hv
  rename_i hbad
  simp only [not_or, not_not] at hbad
  exact hbad.2.2.2.2.2.2.2.2.2.2.2

theorem rxDataOpen_marked {allocBatch allocBuffers allocSigning : Bool}
    (h : rxDataOpen P d frame link allocBatch allocBuffers allocSigning = .ok c) : c.Marked := by
  rcases rxDataOpen_cases h with ⟨o, rfl, ho⟩ | ⟨o, hdr, ciphertext, rfl, -, hvalid, ho⟩
  · exact broadcastOpen_marked ho
  show o.header.isOrdered = decide (o.header.orderingMarker ≠ 0)
  rw [dataOpen_header ho]
  exact dataHeaderValid_marked hvalid

theorem afterOutcome_marked (h : WireData) (source : NodeId) (sessionEpoch : UInt64) (r : Outcome)
    (hwhole : ∀ m bitmap, r = .whole m bitmap → m.origin.marker = 0) :
    ∀ c ∈ afterOutcome h source sessionEpoch r, c.Marked := by
  intro c hc
  unfold afterOutcome at hc
  repeat' split at hc
  all_goals first
    | (rw [List.mem_singleton] at hc; rw [hc]; first | trivial | exact hwhole _ _ rfl)
    | cases hc

theorem Takes.whole_marker {bitmap : BitVec 64}
    (ht : Takes h source sessionEpoch token nowMs rx rx' (.ok (.whole m bitmap)))
    (hm : h.isOrdered = false → h.orderingMarker = 0) : m.origin.marker = 0 := by
  cases ht with
  | whole hord hadd =>
    rw [(hadd.complete m rfl).marker, hm hord]
    rfl

theorem stage_owned {bindings : List Binding} {a : Label} {next : List Call} (h : Stage P bindings d a c d' next)
    (ho : Owned d) (hc : c.Marked) : Owned d' ∧ ∀ c ∈ next, c.Marked := by
  have hcommit : ∀ {o : Opened} {a : Ambient} {r}, dataCommit P d o a = (d', r) → (Call.unicast o).Marked →
      Owned d' ∧ ∀ m bitmap, r = .ok (.whole m bitmap) → m.origin.marker = 0 := by
    intro o a r h hmarked
    rcases dataCommit_cases h with ⟨rfl, e, rfl⟩ | ⟨rfl, -, -, bitmap, status, -, rfl⟩ |
      ⟨i, p, d₁, t, rx', hcur, hm, rfl, ht, -⟩
    · exact ⟨ho, by simp⟩
    · exact ⟨ho, by simp⟩
    · refine ⟨?_, fun m bitmap hr => (hr ▸ ht).whole_marker fun hord => ?_⟩
      swap
      · have : o.header.isOrdered = decide (o.header.orderingMarker ≠ 0) := hmarked
        simpa [hord] using this.symm
      obtain ⟨p', hin⟩ := hcur.inSession hm
      have hrx : d₁.rx = d.rx := by
        obtain ⟨-, w, -, hd₁⟩ := markAccepted_ok hm
        rw [hd₁]
      exact (ho.mark hcur.slot hm).takes (fun _ => ⟨i, p', hin⟩) (hrx ▸ ht)
  cases h with
  | commitFailed h => exact ⟨(hcommit h hc).1, by simp⟩
  | commit h =>
    obtain ⟨hd, hwhole⟩ := hcommit h hc
    exact ⟨hd, afterOutcome_marked _ _ _ _ fun m bitmap hr => hwhole m bitmap (by rw [hr])⟩
  | markFailed h =>
    rcases broadcastMark_cases h with ⟨rfl, -⟩ | ⟨i, p, t, hp, hm, -⟩
    · exact ⟨ho, by simp⟩
    · exact ⟨ho.mark (broadcastPeerLocked_ok hp).1 hm, by simp⟩
  | mark h =>
    refine ⟨?_, fun c' hc' => List.mem_singleton.mp hc' ▸ hc⟩
    rcases broadcastMark_cases h with ⟨rfl, -⟩ | ⟨i, p, t, hp, hm, -⟩
    · exact ho
    · exact ho.mark (broadcastPeerLocked_ok hp).1 hm
  | admitFailed h =>
    rcases broadcastAdmit_cases h with ⟨rfl, -⟩ | ⟨rx', rfl, ht, -⟩
    · exact ⟨ho, by simp⟩
    · exact ⟨ho.takes (fun hord => absurd hord hc.admitHeader) ht, by simp⟩
  | admitBroadcast h =>
    rcases broadcastAdmit_cases h with ⟨-, e, he⟩ | ⟨rx', rfl, ht, -⟩
    · cases he
    · refine ⟨ho.takes (fun hord => absurd hord hc.admitHeader) ht, afterOutcome_marked _ _ _ _ fun m bitmap hr => ?_⟩
      exact (hr ▸ ht).whole_marker fun _ => hc.2
  | deliver => exact ⟨ho.congr rfl rfl rfl rfl, by simp [Call.Marked]⟩
  | delivered => exact ⟨ho, by simp [Call.Marked]⟩
  | hand =>
    refine ⟨ho.congr rfl rfl rfl rfl, ?_⟩
    unfold afterHandOver
    split_ifs <;> simp [Call.Marked]
  | echoFailed h =>
    obtain ⟨n, ⟨orderTx, rfl⟩, -, -⟩ := sendOpen_reserves h
    exact ⟨ho.congr rfl rfl rfl rfl, by simp⟩
  | echo h =>
    obtain ⟨n, ⟨orderTx, rfl⟩, -, -⟩ := sendOpen_reserves h
    exact ⟨ho.congr rfl rfl rfl rfl, by simp [Call.Marked]⟩
  | store =>
    obtain ⟨receipts, heq⟩ := receiptSection_eq P d _ _
    rw [heq]
    exact ⟨ho.congr rfl rfl rfl rfl, by simp [Call.Marked]⟩
  | sendAck =>
    refine ⟨?_, by simp⟩
    rcases dataSendAck_cases d _ _ _ _ with heq | ⟨i, p, nonce, es, -, -, -, -, -, heq, -⟩
    · rw [heq]
      exact ho
    · rw [heq]
      exact ho.congr rfl rfl rfl rfl
  | ackCommit =>
    refine ⟨?_, by simp⟩
    rcases ackCommit_cases d _ with heq | ⟨i, p, t, hp, hm⟩
    · rw [heq]
      exact ho
    · exact ho.mark hp hm
  | sealed =>
    obtain ⟨k, -, heq⟩ := sealFrames_cases P _ _ _ 0 d
    rw [heq]
    exact ⟨ho.congr rfl rfl rfl rfl, by simp⟩

theorem reassemblyWork_polls (d : Device) (jiffies : UInt64) (nowMs : Nat) :
    ∃ rx' r, (reassemblyWork d jiffies nowMs).1 = { d with rx := rx' } ∧
      Polls nowMs (reassemblyExpire d.rx jiffies) rx' r ∧ (reassemblyWork d jiffies nowMs).2 = r.toOption.getD [] := by
  refine ⟨_, _, rfl, orderPollLocked_polls nowMs _, ?_⟩
  unfold reassemblyWork
  dsimp only
  split <;> rename_i h <;> rw [h] <;> rfl

theorem step_owned (P : Platform) (s : Node) (a : Label) (ho : NodeOwned s) : NodeOwned (step P s a) := by
  have happend : ∀ c : Call, c.Marked → ∀ c' ∈ s.calls ++ [c], c'.Marked := by
    intro c hc c' hc'
    rcases List.mem_append.mp hc' with h | h
    · exact ho.calls c' h
    · rw [List.mem_singleton.mp h]
      exact hc
  have hmove := step_moves P s a
  generalize step P s a = s' at hmove ⊢
  cases hmove with
  | stay => exact ho
  | control => exact ⟨(controlStep_evolves P s.dev _ ho.dev).1, ho.calls⟩
  | bind => exact ⟨ho.dev, ho.calls⟩
  | rxData h => exact ⟨ho.dev, happend _ (rxDataOpen_marked h)⟩
  | rxAck h => exact ⟨ho.dev, happend _ trivial⟩
  | stage hi hc h =>
    obtain ⟨hd, hnext⟩ := stage_owned h ho.dev (ho.calls _ (List.mem_of_getElem? hc))
    refine ⟨hd, fun c' hc' => ?_⟩
    rcases List.mem_append.mp hc' with h | h
    · exact ho.calls c' (List.mem_of_mem_eraseIdx h)
    · exact hnext c' h
  | @work jiffies bootNs hidle =>
    obtain ⟨rx', r, heq, hp, -⟩ := reassemblyWork_polls s.dev jiffies (reliabilityNow bootNs)
    have hpoll := (ho.dev.expire jiffies).polls hp
    refine ⟨?_, ho.calls⟩
    rw [heq]
    exact hpoll
  | workDone h => exact ⟨ho.dev, ho.calls⟩
  | workDeliver h => exact ⟨ho.dev.congr rfl rfl rfl rfl, ho.calls⟩
  | sendFailed h =>
    obtain ⟨n, ⟨orderTx, rfl⟩, -, -⟩ := sendOpen_reserves h
    exact ⟨ho.dev.congr rfl rfl rfl rfl, ho.calls⟩
  | send h =>
    obtain ⟨n, ⟨orderTx, rfl⟩, -, -⟩ := sendOpen_reserves h
    exact ⟨ho.dev.congr rfl rfl rfl rfl, happend _ trivial⟩

end Melodi
