import Melodi.System.Custody

/-!
# Messages on their way to an application

A message that is complete waits in an ordered flow, in a call that dropped the lock, or in the batch of the reassembly
work, until it is handed over.
-/

namespace Melodi
open Lib
variable {m n : Complete} {d d' : Device} {r : Except Errno Outcome} {i : Fin ORDER_FLOW_LIMIT} {nowMs : Nat}
  {s s' : Node}
  {source : NodeId} {P : Platform} {rx rx' : RxState} {t : Token} {sessionEpoch : UInt64} {h : WireData} {a : Label}
    {c : Call}
variable {batch : List OrderMessage} {next : List Call} {k : Nat} {o : BroadcastOpened}

/-! ## Messages on their way -/

def Call.transit : Call → List Complete
  | .delivering batch _ => batch.map (·.message)
  | .handing m _ _ _ => [m]
  | _ => []

def Node.transit (s : Node) : List Complete :=
  s.calls.flatMap Call.transit ++ (s.worker.getD []).map (·.message)

def RxState.heldMessages (rx : RxState) : List Complete :=
  (List.finRange ORDER_BUFFER_LIMIT).filterMap fun j => (rx.orderMessages j).map (·.message)

def Node.awaiting (s : Node) : List Complete := s.dev.rx.heldMessages ++ s.transit

theorem mem_heldMessages :
    m ∈ rx.heldMessages ↔ ∃ j n, rx.orderMessages j = some n ∧ n.message = m := by
  simp [RxState.heldMessages]

theorem mem_awaiting :
    m ∈ s.awaiting ↔ m ∈ s.dev.rx.heldMessages ∨ (∃ c ∈ s.calls, m ∈ c.transit) ∨
      ∃ n ∈ s.worker.getD [], n.message = m := by
  simp [Node.awaiting, Node.transit]

theorem handOver_handed (bindings : List Binding) (d : Device) (m : Complete) (result : Except Errno Unit) :
    (handOver bindings d m result).handed = m :: d.handed := rfl

theorem awaiting_control (ho : Owned s.dev) {c : Control}
    (hm : m ∈ Node.awaiting { s with dev := controlStep P s.dev c }) :
    (m ∈ (controlStep P s.dev c).rx.heldMessages ∧ m ∈ s.dev.rx.heldMessages) ∨ m ∈ s.transit := by
  rcases List.mem_append.mp hm with hm | hm
  · obtain ⟨j, n, hj, rfl⟩ := mem_heldMessages.mp hm
    exact .inl ⟨hm, mem_heldMessages.mpr ⟨j, n, (controlStep_evolves P s.dev c ho).2.message j n hj, rfl⟩⟩
  · exact .inr hm

/-! ## What the ordered flows hold and release -/

def HeldOr (rx : RxState) (m n : Complete) : Prop := n ∈ rx.heldMessages ∨ n = m

theorem heldOr_insert {f : OrderRxFlow} {j : Fin ORDER_BUFFER_LIMIT}
    (hn : n ∈ (orderInsert rx h m i f j).heldMessages) : HeldOr rx m n := by
  obtain ⟨k, e, he, rfl⟩ := mem_heldMessages.mp hn
  simp only [orderInsert, Table.set_apply] at he
  split_ifs at he with hk
  · cases he
    exact .inr rfl
  · exact .inl (mem_heldMessages.mpr ⟨k, e, he, rfl⟩)

theorem heldMessages_flowClear (hn : n ∈ (orderFlowClear rx i).heldMessages) : n ∈ rx.heldMessages := by
  obtain ⟨k, e, he, rfl⟩ := mem_heldMessages.mp hn
  simp only [orderFlowClear, Table.drop_eq_some] at he
  exact mem_heldMessages.mpr ⟨k, e, he.1, rfl⟩

theorem Detaches.heldMessages (h : Detaches i rx rx' batch) (hn : n ∈ rx'.heldMessages) : n ∈ rx.heldMessages := by
  obtain ⟨k, e, he, rfl⟩ := mem_heldMessages.mp hn
  exact mem_heldMessages.mpr ⟨k, e, h.left k e he, rfl⟩

theorem Detaches.batch_held (h : Detaches i rx rx' batch) {e : OrderMessage} (he : e ∈ batch) :
    e.message ∈ rx.heldMessages := by
  obtain ⟨-, k, hk⟩ := h.buffered e he
  exact mem_heldMessages.mpr ⟨k, e, hk, rfl⟩

theorem Admits.heldOr {r : Except Errno (List OrderMessage)} (ha : Admits h sessionEpoch m nowMs rx rx' r) :
    (∀ n ∈ rx'.heldMessages, HeldOr rx m n) ∧ ∀ batch, r = .ok batch → ∀ e ∈ batch, HeldOr rx m e.message := by
  cases ha with
  | refused => exact ⟨fun n hn => .inl hn, nofun⟩
  | duplicate hflow hstate => exact ⟨fun n hn => .inl hn, by simp⟩
  | held hflow hstate hfree => exact ⟨fun n hn => heldOr_insert hn, by simp⟩
  | released hflow hstate hfree hdetach =>
    have hd := (orderDetachLocked_ok hdetach).1
    refine ⟨fun n hn => heldOr_insert (hd.heldMessages hn), ?_⟩
    rintro _ ⟨⟩ e he
    exact heldOr_insert (hd.batch_held he)
  | broken hflow hstate hfree hdetach =>
    obtain ⟨rfl, -⟩ := orderDetachLocked_error hdetach
    exact ⟨fun n hn => heldOr_insert (heldMessages_flowClear hn), nofun⟩

theorem Polls.held {r : Except Errno (List OrderMessage)} (hp : Polls nowMs rx rx' r) :
    (∀ n ∈ rx'.heldMessages, n ∈ rx.heldMessages) ∧ ∀ e ∈ r.toOption.getD [], e.message ∈ rx.heldMessages := by
  cases hp with
  | idle => exact ⟨fun n hn => hn, by simp [Except.toOption]⟩
  | released hflow hpoll hdetach =>
    have hd := (orderDetachLocked_ok hdetach).1
    exact ⟨fun n hn => hd.heldMessages hn, fun e he => hd.batch_held he⟩
  | broken hflow hpoll hdetach =>
    obtain ⟨rfl, -⟩ := orderDetachLocked_error hdetach
    exact ⟨fun n hn => heldMessages_flowClear hn, by simp [Except.toOption]⟩
  | failed hflow hpoll => exact ⟨fun n hn => heldMessages_flowClear hn, by simp [Except.toOption]⟩

/-! ## What the admitting sections bring -/

def Outcome.complete : Outcome → Option Complete
  | .ordered m _ _ => some m
  | .whole m _ => some m
  | _ => none

def Brings (P : Platform) (d : Device) (m : Complete) : Label → Call → Prop
  | .commit _ a, .unicast o => ∃ out, (dataCommit P d o a).2 = .ok out ∧ out.complete = some m
  | .admitBroadcast _ a, .broadcastMarked o t => ∃ out, (broadcastAdmit P d o t a).2 = .ok out ∧ out.complete = some m
  | _, _ => False

theorem Takes.isOf {out : Outcome} (ht : Takes h source sessionEpoch t nowMs rx rx' (.ok out))
    (hm : out.complete = some m) : m.IsOf h source t.session := by
  cases ht with
  | incomplete => cases hm
  | whole _ hadd => exact hadd.complete m hm
  | ordered _ hadd => exact hadd.complete m hm

theorem Takes.held (ht : Takes h source sessionEpoch t nowMs rx rx' r) :
    (∀ n ∈ rx'.heldMessages, n ∈ rx.heldMessages ∨ ∃ out, r = .ok out ∧ out.complete = some n) ∧
      ∀ h' source' epoch' out, r = .ok out → ∀ c ∈ afterOutcome h' source' epoch' out, ∀ n ∈ c.transit,
        n ∈ rx.heldMessages ∨ out.complete = some n := by
  have hheld : ∀ {rx₁ out}, Adds h source t rx rx₁ out → rx₁.heldMessages = rx.heldMessages := fun hadd => by
    rw [RxState.heldMessages, hadd.orderMessages, RxState.heldMessages]
  cases ht with
  | failed hadd => exact ⟨fun n hn => .inl (hheld hadd ▸ hn), nofun⟩
  | incomplete hadd =>
    refine ⟨fun n hn => .inl (hheld hadd ▸ hn), ?_⟩
    rintro h' source' epoch' _ ⟨⟩ c hc n hn
    simp only [afterOutcome] at hc
    split_ifs at hc
    · rw [List.mem_singleton.mp hc] at hn
      cases hn
    · cases hc
  | @whole _ m bitmap hord hadd =>
    refine ⟨fun n hn => .inl (hheld hadd ▸ hn), ?_⟩
    rintro h' source' epoch' _ ⟨⟩ c hc n hn
    simp only [afterOutcome] at hc
    split_ifs at hc <;> rw [List.mem_singleton.mp hc] at hn
    · cases hn
    · exact .inr (congrArg some (List.mem_singleton.mp hn).symm)
  | @ordered rx₁ m bitmap _ r hord hadd hstate =>
    obtain ⟨hleft, hbatch⟩ := hstate.heldOr
    refine ⟨fun n hn => ?_, ?_⟩
    · rcases hleft n hn with hn | rfl
      · exact .inl (hheld hadd ▸ hn)
      · exact .inr ⟨_, rfl, rfl⟩
    rintro h' source' epoch' _ ⟨⟩ c hc n hn
    cases r with
    | error e =>
      rw [List.mem_singleton.mp hc] at hn
      cases hn
    | ok batch =>
      rw [List.mem_singleton.mp hc] at hn
      obtain ⟨e, he, rfl⟩ := List.mem_map.mp hn
      rcases hbatch batch rfl e he with hn | heq
      · exact .inl (hheld hadd ▸ hn)
      · exact .inr (congrArg some heq.symm)

/-! ## One stage of a call -/

/-- The next section of a call, as far as the messages and the policy are concerned. -/
structure StagePasses (P : Platform) (d : Device) (a : Label) (c : Call) (d' : Device) (next : List Call) : Prop where
  policy : d'.policy = d.policy
  held : ∀ m ∈ d'.rx.heldMessages, m ∈ d.rx.heldMessages ∨ Brings P d m a c
  next : ∀ c' ∈ next, ∀ m ∈ c'.transit, m ∈ c.transit ∨ m ∈ d.rx.heldMessages ∨ Brings P d m a c
  handed : d'.handed = d.handed ∨ ∃ m ∈ c.transit, d'.handed = m :: d.handed

structure Unmoved (d d' : Device) : Prop where
  policy : d'.policy = d.policy
  rx : d'.rx.orderMessages = d.rx.orderMessages
  handed : d'.handed = d.handed

theorem Unmoved.refl (d : Device) : Unmoved d d := ⟨rfl, rfl, rfl⟩

theorem Unmoved.heldMessages (h : Unmoved d d') : d'.rx.heldMessages = d.rx.heldMessages := by
  rw [RxState.heldMessages, h.rx, RxState.heldMessages]

theorem Sends.unmoved (h : Sends d d') : Unmoved d d' := by
  obtain ⟨es, hlog, hes⟩ := h.log
  exact ⟨h.policy, by rw [h.rx], hes.handed hlog⟩

theorem sendOpen_unmoved {r : SendRequest} {a : SendAmbient} {res : Except Errno Sealing}
    (h : sendOpen P d r a = (d', res)) : Unmoved d d' := by
  obtain ⟨n, hr⟩ := sendOpen_reserves h
  exact hr.sends.unmoved

theorem markAccepted_unmoved {i : Fin PEER_LIMIT} {p : Peer} {counter : Nat} {kind : FrameKind}
    (h : markAccepted d i p counter kind = .ok (d', t)) : Unmoved d d' := by
  obtain ⟨-, w, -, rfl⟩ := markAccepted_ok h
  exact ⟨rfl, rfl, rfl⟩

theorem Unmoved.stage (h : Unmoved d d') (hnext : ∀ c' ∈ next, c'.transit = []) : StagePasses P d a c d' next where
  policy := h.policy
  held := fun _ hm => .inl (h.heldMessages ▸ hm)
  next := fun c' hc' _ hm => nomatch (hnext c' hc' ▸ hm)
  handed := .inl h.handed

def goesOn (h : WireData) (source : NodeId) (sessionEpoch : UInt64) (r : Except Errno Outcome) : List Call :=
  r.toOption.elim [] (afterOutcome h source sessionEpoch)

theorem Takes.stage {h' : WireData} {source' : NodeId} {epoch' : UInt64} {d₁ : Device}
    (ht : Takes h source sessionEpoch t nowMs d.rx rx' r) (hs : Unmoved d d₁)
    (hbrings : ∀ out m, r = .ok out → out.complete = some m → Brings P d m a c) :
    StagePasses P d a c { d₁ with rx := rx' } (goesOn h' source' epoch' r) := by
  obtain ⟨hheld, hnext⟩ := ht.held
  refine ⟨hs.policy, fun m hm => ?_, fun c' hc' m hm => .inr ?_, .inl hs.handed⟩
  · rcases hheld m hm with hm | ⟨out, hr, hm⟩
    · exact .inl hm
    · exact .inr (hbrings out m hr hm)
  cases r with
  | error e => cases hc'
  | ok out => exact (hnext h' source' epoch' out rfl c' hc' m hm).imp_right (hbrings out m rfl)

theorem dataCommit_stage {o : Opened} {a : Ambient} (h : dataCommit P d o a = (d', r)) :
    StagePasses P d (.commit k a) (.unicast o) d' (goesOn o.header o.source o.sessionEpoch r) := by
  rcases dataCommit_cases h with ⟨rfl, e, rfl⟩ | ⟨rfl, -, -, bitmap, status, -, rfl⟩ |
    ⟨i, p, d₁, t, rx', -, hm, rfl, ht, -⟩
  · exact (Unmoved.refl _).stage (by simp [goesOn, Except.toOption])
  · exact (Unmoved.refl _).stage (by simp [goesOn, Except.toOption, afterOutcome, Call.transit])
  · exact ht.stage (markAccepted_unmoved hm) fun out m hr hm => ⟨out, by rw [h]; exact hr, hm⟩

theorem broadcastAdmit_stage {a : Ambient} (h : broadcastAdmit P d o t a = (d', r)) :
    StagePasses P d (.admitBroadcast k a) (.broadcastMarked o t) d' (goesOn o.header o.source 0 r) := by
  rcases broadcastAdmit_cases h with ⟨rfl, e, rfl⟩ | ⟨rx', rfl, ht, -⟩
  · exact (Unmoved.refl _).stage (by simp [goesOn, Except.toOption])
  · exact ht.stage (Unmoved.refl d) fun out m hr hm => ⟨out, by rw [h]; exact hr, hm⟩

theorem broadcastMark_unmoved {alloc : Bool} {r : Except Errno Token} (h : broadcastMark d o alloc = (d', r)) :
    Unmoved d d' := by
  rcases broadcastMark_cases h with ⟨rfl, -⟩ | ⟨k, p, t, hp, hm, -⟩
  · exact .refl _
  · exact markAccepted_unmoved hm

theorem stage_passes {bindings : List Binding} (h : Stage P bindings d a c d' next) : StagePasses P d a c d' next := by
  cases h with
  | commitFailed h | commit h => exact dataCommit_stage h
  | markFailed h => exact (broadcastMark_unmoved h).stage (by simp)
  | mark h => exact (broadcastMark_unmoved h).stage (by simp [Call.transit])
  | admitFailed h | admitBroadcast h => exact broadcastAdmit_stage h
  | @deliver _ result m batch plan =>
    refine ⟨rfl, fun m hm => .inl hm, ?_, .inr ⟨m.message, List.mem_cons_self, handOver_handed ..⟩⟩
    rintro c' hc' m hm
    rw [List.mem_singleton.mp hc'] at hm
    exact .inl (List.mem_cons_of_mem _ hm)
  | delivered => exact (Unmoved.refl d).stage (by simp [Call.transit])
  | @hand _ result m h sessionEpoch bitmap =>
    refine ⟨rfl, fun m hm => .inl hm, ?_, .inr ⟨m, List.mem_singleton_self m, handOver_handed ..⟩⟩
    intro c' hc' n hn
    by_cases hrel : h.isReliable = true
    · rw [afterHandOver, if_pos hrel] at hc'
      rw [List.mem_singleton.mp hc'] at hn
      cases hn
    · rw [afterHandOver, if_neg hrel] at hc'
      cases hc'
  | echoFailed h => exact (sendOpen_unmoved h).stage (by simp)
  | echo h => exact (sendOpen_unmoved h).stage (by simp [Call.transit])
  | @store _ jiffies plan =>
    obtain ⟨receipts, heq⟩ := receiptSection_eq P d plan jiffies
    have hunmoved : Unmoved d (receiptSection P d plan jiffies).1 := by
      rw [heq]
      exact ⟨rfl, rfl, rfl⟩
    exact hunmoved.stage (by simp [Call.transit])
  | sendAck => exact (dataSendAck_sends ..).unmoved.stage (by simp)
  | @ackCommit _ o =>
    rcases ackCommit_cases d o with heq | ⟨k, p, t, hp, hm⟩
    · rw [heq]
      exact (Unmoved.refl d).stage (by simp)
    · exact (markAccepted_unmoved hm).stage (by simp)
  | sealed => exact (sealFrames_sends ..).unmoved.stage (by simp)

/-! ## One step -/

/-- What a step takes over to be handed on, and what it hands over. -/
structure Passes (P : Platform) (s : Node) (a : Label) (s' : Node) : Prop where
  policy : s'.dev.policy = s.dev.policy
  awaiting : ∀ m ∈ s'.awaiting, m ∈ s.awaiting ∨ ∃ c ∈ s.calls, Brings P s.dev m a c
  handed : s'.dev.handed = s.dev.handed ∨ ∃ m ∈ s.awaiting, s'.dev.handed = m :: s.dev.handed

theorem Unmoved.passes (h : Unmoved s.dev s'.dev) (hcalls : ∀ c ∈ s'.calls, c ∈ s.calls ∨ c.transit = [])
    (hworker : s'.worker = s.worker) : Passes P s a s' where
  policy := h.policy
  awaiting := by
    intro m hm
    refine .inl (mem_awaiting.mpr ?_)
    rcases mem_awaiting.mp hm with hm | ⟨c, hc, hm⟩ | hm
    · exact .inl (h.heldMessages ▸ hm)
    · rcases hcalls c hc with hc | hnil
      · exact .inr (.inl ⟨c, hc, hm⟩)
      · rw [hnil] at hm
        cases hm
    · exact .inr (.inr (hworker ▸ hm))
  handed := .inl h.handed

theorem step_passes (P : Platform) (s : Node) {a : Label} (ha : ∀ c, a ≠ .control c) : Passes P s a (step P s a) := by
  have hmove := step_moves P s a
  generalize step P s a = s' at hmove ⊢
  have happend : ∀ c : Call, c.transit = [] → ∀ c' ∈ s.calls ++ [c], c' ∈ s.calls ∨ c'.transit = [] := by
    intro c hnil c' hc'
    rcases List.mem_append.mp hc' with h | h
    · exact .inl h
    · rw [List.mem_singleton.mp h]
      exact .inr hnil
  cases hmove with
  | stay => exact (Unmoved.refl _).passes (fun c hc => .inl hc) rfl
  | control => exact absurd rfl (ha _)
  | bind => exact Unmoved.passes ⟨rfl, rfl, rfl⟩ (fun c hc => .inl hc) rfl
  | rxData h =>
    refine Unmoved.passes ⟨rfl, rfl, rfl⟩ (happend _ ?_) rfl
    rcases rxDataOpen_cases h with ⟨o, rfl, -⟩ | ⟨o, hdr, ciphertext, rfl, -⟩ <;> rfl
  | rxAck h => exact Unmoved.passes ⟨rfl, rfl, rfl⟩ (happend _ rfl) rfl
  | sendFailed h => exact (sendOpen_unmoved h).passes (fun c hc => .inl hc) rfl
  | send h => exact (sendOpen_unmoved h).passes (happend _ rfl) rfl
  | workDone h =>
    refine ⟨rfl, fun m hm => .inl (mem_awaiting.mpr ?_), .inl rfl⟩
    rcases mem_awaiting.mp hm with hm | hm | ⟨n, hn, -⟩
    · exact .inl hm
    · exact .inr (.inl hm)
    · cases hn
  | @work jiffies bootNs hidle =>
    obtain ⟨rx', r, heq, hp, hbatch⟩ := reassemblyWork_polls s.dev jiffies (reliabilityNow bootNs)
    have hsame : (reassemblyExpire s.dev.rx jiffies).heldMessages = s.dev.rx.heldMessages := by
      rw [RxState.heldMessages, reassemblyExpire_orderMessages, RxState.heldMessages]
    obtain ⟨hleft, hout⟩ := hp.held
    rw [heq, hbatch]
    refine ⟨rfl, fun m hm => .inl (mem_awaiting.mpr ?_), .inl rfl⟩
    rcases mem_awaiting.mp hm with hm | hm | ⟨n, hn, rfl⟩
    · exact .inl (hsame ▸ hleft m hm)
    · exact .inr (.inl hm)
    · exact .inl (hsame ▸ hout n hn)
  | @workDeliver result m batch h =>
    refine ⟨rfl, fun n hn => .inl (mem_awaiting.mpr ?_),
      .inr ⟨m.message, mem_awaiting.mpr (.inr (.inr ⟨m, ?_, rfl⟩)), rfl⟩⟩
    · rcases mem_awaiting.mp hn with hn | hn | ⟨e, he, rfl⟩
      · exact .inl hn
      · exact .inr (.inl hn)
      · refine .inr (.inr ⟨e, ?_, rfl⟩)
        rw [h]
        exact List.mem_cons_of_mem _ he
    · rw [h]
      exact List.mem_cons_self
  | @stage _ i c d next hidx hc h =>
    have hp := stage_passes h
    have hmem : c ∈ s.calls := List.mem_of_getElem? hc
    have htransit : ∀ m ∈ c.transit, m ∈ s.awaiting := fun m hm => mem_awaiting.mpr (.inr (.inl ⟨c, hmem, hm⟩))
    refine ⟨hp.policy, fun m hm => ?_, hp.handed.imp_right fun ⟨m, hm, heq⟩ => ⟨m, htransit m hm, heq⟩⟩
    rcases mem_awaiting.mp hm with hm | ⟨c', hc', hm⟩ | hm
    · exact (hp.held m hm).imp (fun hm => mem_awaiting.mpr (.inl hm)) fun hm => ⟨c, hmem, hm⟩
    · rcases List.mem_append.mp hc' with hc' | hc'
      · exact .inl (mem_awaiting.mpr (.inr (.inl ⟨c', List.mem_of_mem_eraseIdx hc', hm⟩)))
      · rcases hp.next c' hc' m hm with hm | hm | hm
        · exact .inl (htransit m hm)
        · exact .inl (mem_awaiting.mpr (.inl hm))
        · exact .inr ⟨c, hmem, hm⟩
    · exact .inl (mem_awaiting.mpr (.inr (.inr hm)))

end Melodi
