import Melodi.System.Ownership

/-!
# Where every accepted frame is

An accepted frame is in a reassembly entry, in the buffer of a flow, in a call or in the batch of the reassembly work,
or in a message that was handed over; or it was dropped. It is never in two places. Tokens are counted by a test `q`:
for one frame, one counter of a session, or the broadcasts of a peer.
-/

namespace Melodi
open Lib
variable {c : Call} {d d' : Device} {r : Except Errno Outcome} {i : Fin PEER_LIMIT} {kind : FrameKind}
  {next : List Call}
  {counter nowMs : Nat} {p : Peer} {P : Platform} {rx rx' : RxState} {t : Token} {h : WireData}
variable {source : NodeId} {token : Token} {m : Complete} {sessionEpoch : UInt64} {es : List Event} {a : Ambient}
  {o : BroadcastOpened}

/-! ## The log -/

def Event.accepted : Event → List Token
  | .accept t => [t]
  | _ => []

def Event.handed : Event → List Complete
  | .handOver m _ => [m]
  | _ => []

def Device.accepts (d : Device) : List Token := d.log.flatMap Event.accepted

def Device.handed (d : Device) : List Complete := d.log.flatMap Event.handed

/-! ## Counts -/

def batchCount (q : Token → Bool) (batch : List OrderMessage) : Nat := (batch.map fun m => m.message.count q).sum

def RxState.held (q : Token → Bool) (rx : RxState) : Nat :=
  rx.fragmentCount q + rx.orderMessages.sum fun m => m.message.count q

def Call.count (q : Token → Bool) : Call → Nat
  | .broadcastMarked _ t => [t].countP q
  | .delivering batch _ => batchCount q batch
  | .handing m _ _ _ => m.count q
  | .echoing m => m.count q
  | _ => 0

def callsCount (q : Token → Bool) (calls : List Call) : Nat := (calls.map (Call.count q)).sum

def Device.delivered (q : Token → Bool) (d : Device) : Nat := (d.handed.map (Complete.count q)).sum

def Node.count (q : Token → Bool) (s : Node) : Nat :=
  s.dev.rx.held q + callsCount q s.calls + batchCount q (s.worker.getD []) + s.dev.delivered q

def Custody (s : Node) : Prop := ∀ q, s.count q ≤ s.dev.accepts.countP q

theorem callsCount_append (q : Token → Bool) (l l' : List Call) :
    callsCount q (l ++ l') = callsCount q l + callsCount q l' := by simp [callsCount]

theorem callsCount_eraseIdx (q : Token → Bool) {calls : List Call} {i : Nat} (h : calls[i]? = some c) :
    callsCount q (calls.eraseIdx i) + c.count q = callsCount q calls := by
  obtain ⟨hi, rfl⟩ := List.getElem?_eq_some_iff.mp h
  have hperm := (List.getElem_cons_eraseIdx_perm hi).map (Call.count q)
  have := hperm.sum_eq
  simp only [List.map_cons, List.sum_cons] at this
  unfold callsCount
  omega

/-! ## The receive tables -/

theorem Adds.held_le {out : Option Complete} (ha : Adds h source token rx rx' out) (q : Token → Bool) :
    rx'.held q + (out.map (Complete.count q)).getD 0 ≤ rx.held q + [token].countP q := by
  have := ha.tokens q
  unfold RxState.held
  rw [ha.orderMessages]
  omega

theorem Detaches.held_eq {i : Fin ORDER_FLOW_LIMIT} {batch : List OrderMessage} (hd : Detaches i rx rx' batch)
    (q : Token → Bool) : rx'.held q + batchCount q batch = rx.held q := by
  have := hd.sum fun m => m.message.count q
  unfold RxState.held RxState.fragmentCount batchCount
  rw [hd.reassemblies]
  omega

theorem held_flowClear_le (q : Token → Bool) (rx : RxState) (i : Fin ORDER_FLOW_LIMIT) :
    (orderFlowClear rx i).held q ≤ rx.held q := by
  have := Table.sum_drop_le rx.orderMessages (fun m => decide (m.flowIndex = i)) fun m => m.message.count q
  unfold RxState.held RxState.fragmentCount orderFlowClear
  dsimp only
  omega

theorem held_insert (q : Token → Bool) {i : Fin ORDER_FLOW_LIMIT} {flow : OrderRxFlow} {j : Fin ORDER_BUFFER_LIMIT}
    (hfree : rx.orderMessages j = none) : (orderInsert rx h m i flow j).held q = rx.held q + m.count q := by
  have := Table.sum_set rx.orderMessages j ⟨m, h.orderingMarker.toNat, i⟩ fun m => m.message.count q
  rw [hfree, Table.weight_none] at this
  unfold RxState.held RxState.fragmentCount orderInsert
  dsimp only at this ⊢
  omega

def resultCount (q : Token → Bool) : Except Errno (List OrderMessage) → Nat
  | .ok batch => batchCount q batch
  | .error _ => 0

theorem Admits.held_le {r : Except Errno (List OrderMessage)} (ha : Admits h sessionEpoch m nowMs rx rx' r)
    (q : Token → Bool) : rx'.held q + resultCount q r ≤ rx.held q + m.count q := by
  cases ha with
  | refused => exact Nat.le_add_right _ _
  | duplicate => exact Nat.le_add_right _ _
  | held hflow hstate hfree =>
    rw [held_insert q hfree]
    exact Nat.le_refl _
  | released hflow hstate hfree hdetach =>
    have := (orderDetachLocked_ok hdetach).1.held_eq q
    rw [held_insert q hfree] at this
    exact Nat.le_of_eq this
  | @broken i created state j marker count rx₁ e hflow hstate hfree hdetach =>
    have := held_flowClear_le q rx₁ i
    rw [(orderDetachLocked_error hdetach).1, held_insert q hfree] at this
    rw [(orderDetachLocked_error hdetach).1]
    exact this

def outcomeCount (q : Token → Bool) : Except Errno Outcome → Nat
  | .ok (.whole m _) => m.count q
  | .ok (.ordered _ _ r) => resultCount q r
  | _ => 0

theorem Takes.held_le (ht : Takes h source sessionEpoch token nowMs rx rx' r) (q : Token → Bool) :
    rx'.held q + outcomeCount q r ≤ rx.held q + [token].countP q := by
  cases ht with
  | failed hadd => exact hadd.held_le q
  | incomplete hadd => exact hadd.held_le q
  | whole hord hadd => exact hadd.held_le q
  | ordered hord hadd hstate => exact Nat.le_trans (hstate.held_le q) (hadd.held_le q)

theorem Polls.held_le {r : Except Errno (List OrderMessage)} (hp : Polls nowMs rx rx' r) (q : Token → Bool) :
    rx'.held q + resultCount q r ≤ rx.held q := by
  have hset : ∀ (i : Fin ORDER_FLOW_LIMIT) (f : OrderRxFlow),
      RxState.held q { rx with orderRx := rx.orderRx.set i f } = rx.held q := fun _ _ => by
    simp only [RxState.held, RxState.fragmentCount]
  cases hp with
  | idle => exact Nat.le_refl _
  | released hflow hpoll hdetach =>
    have := (orderDetachLocked_ok hdetach).1.held_eq q
    rw [hset] at this
    exact Nat.le_of_eq this
  | @broken i flow state marker count rx₁ e hflow hpoll hdetach =>
    have := held_flowClear_le q rx₁ i
    rw [(orderDetachLocked_error hdetach).1, hset] at this
    rw [(orderDetachLocked_error hdetach).1]
    exact this
  | @failed i flow state e hflow hpoll =>
    have := held_flowClear_le q { rx with orderRx := rx.orderRx.set i { flow with state := state } } i
    rw [hset] at this
    exact this

theorem held_expire_le (q : Token → Bool) (rx : RxState) (jiffies : UInt64) :
    (reassemblyExpire rx jiffies).held q ≤ rx.held q := by
  have := fragmentCount_expire_le q rx jiffies
  unfold RxState.held
  rw [reassemblyExpire_orderMessages]
  omega

theorem Sheds.held_le (hs : Sheds d d') (q : Token → Bool) : d'.rx.held q ≤ d.rx.held q :=
  Nat.add_le_add (Table.sum_le_of_sub hs.reassembly _) (Table.sum_le_of_sub hs.message _)

/-! ## The log of a step -/

def Silent (es : List Event) : Prop := ∀ e ∈ es, e.accepted = [] ∧ e.handed = []

theorem Silent.accepts (hs : Silent es) (hlog : d'.log = es ++ d.log) : d'.accepts = d.accepts := by
  have hnil : es.flatMap Event.accepted = [] := List.flatMap_eq_nil_iff.mpr fun e he => (hs e he).1
  rw [Device.accepts, hlog, List.flatMap_append, hnil, List.nil_append, Device.accepts]

theorem Silent.handed (hs : Silent es) (hlog : d'.log = es ++ d.log) : d'.handed = d.handed := by
  have hnil : es.flatMap Event.handed = [] := List.flatMap_eq_nil_iff.mpr fun e he => (hs e he).2
  rw [Device.handed, hlog, List.flatMap_append, hnil, List.nil_append, Device.handed]

theorem Sheds.silent (hs : Sheds d d') : ∃ es, d'.log = es ++ d.log ∧ Silent es := by
  obtain ⟨es, hlog, hes, -⟩ := hs.log
  refine ⟨es, hlog, fun e he => ?_⟩
  have := hes e he
  cases e with
  | install peer tk rk => exact ⟨rfl, rfl⟩
  | _ => cases this

/-- A section that only sends: nothing is received, and the log gains silent events only. -/
structure Sends (d d' : Device) : Prop where
  rx : d'.rx = d.rx
  policy : d'.policy = d.policy
  peers : d'.peers = d.peers
  serial : d'.serial = d.serial
  log : ∃ es, d'.log = es ++ d.log ∧ Silent es

theorem Reserves.sends {res : Except Errno Sealing} {n : Nat} (h : Reserves d d' res n) :
    Sends d d' := by
  obtain ⟨orderTx, rfl⟩ := h.device
  exact ⟨rfl, rfl, rfl, rfl, [], rfl, by simp [Silent]⟩

theorem dataSendAck_sends (d : Device) (h : WireData) (bitmap : BitVec 64) (status : AckStatus)
    (queued : Except Errno Unit) : Sends d (dataSendAck d h bitmap status queued).1 := by
  rcases dataSendAck_cases d h bitmap status queued with heq | ⟨i, p, nonce, es, -, -, -, -, -, heq, hes⟩
  · rw [heq]
    exact ⟨rfl, rfl, rfl, rfl, [], rfl, by simp [Silent]⟩
  rw [heq]
  refine ⟨rfl, rfl, rfl, rfl, es, rfl, fun e he => ?_⟩
  rcases hes with rfl | rfl | rfl
  · cases he
  · rw [List.mem_singleton.mp he]
    exact ⟨rfl, rfl⟩
  rcases List.mem_cons.mp he with rfl | he
  · exact ⟨rfl, rfl⟩
  · rw [List.mem_singleton.mp he]
    exact ⟨rfl, rfl⟩

theorem sealFrames_sends (P : Platform) (s : Sealing) (fails : Nat → Bool) (n index : Nat) (d : Device) :
    Sends d (sealFrames P s fails index n d).1 := by
  obtain ⟨k, -, heq⟩ := sealFrames_cases P s fails n index d
  rw [heq]
  refine ⟨rfl, rfl, rfl, rfl, _, rfl, fun e he => ?_⟩
  obtain ⟨j, -, rfl⟩ := List.mem_map.mp (List.mem_reverse.mp he)
  exact ⟨rfl, rfl⟩

theorem markAccepted_accepts (h : markAccepted d i p counter kind = .ok (d', t)) : d'.accepts = t :: d.accepts := by
  obtain ⟨-, w, -, rfl⟩ := markAccepted_ok h
  rfl

theorem markAccepted_handed (h : markAccepted d i p counter kind = .ok (d', t)) : d'.handed = d.handed := by
  obtain ⟨-, w, -, rfl⟩ := markAccepted_ok h
  rfl

theorem markAccepted_rx (h : markAccepted d i p counter kind = .ok (d', t)) : d'.rx = d.rx := by
  obtain ⟨-, w, -, rfl⟩ := markAccepted_ok h
  rfl

theorem handOver_delivered (q : Token → Bool) (bindings : List Binding) (d : Device) (m : Complete)
    (result : Except Errno Unit) : (handOver bindings d m result).delivered q = d.delivered q + m.count q := by
  simp [Device.delivered, Device.handed, handOver, Device.note, Event.handed, Nat.add_comm]

theorem handOver_accepts (bindings : List Binding) (d : Device) (m : Complete) (result : Except Errno Unit) :
    (handOver bindings d m result).accepts = d.accepts := rfl

/-! ## One stage of a call -/

theorem afterOutcome_count_le (q : Token → Bool) (h : WireData) (source : NodeId) (sessionEpoch : UInt64)
    (r : Outcome) : callsCount q (afterOutcome h source sessionEpoch r) ≤ outcomeCount q (.ok r) := by
  cases r with
  | again bitmap status => exact Nat.le_refl _
  | incomplete bitmap =>
    unfold afterOutcome
    split_ifs <;> exact Nat.le_refl _
  | ordered m bitmap r => cases r <;> exact Nat.le_refl _
  | whole m bitmap =>
    dsimp only [afterOutcome]
    split_ifs <;> exact Nat.le_refl _

/-- What a stage adds to the tables, the calls and the hand-overs, beyond what its call carried, it accepted. -/
def Balanced (q : Token → Bool) (d : Device) (c : Call) (d' : Device) (next : List Call) : Prop :=
  d'.rx.held q + callsCount q next + d'.delivered q + d.accepts.countP q ≤
    d.rx.held q + c.count q + d.delivered q + d'.accepts.countP q

theorem Sends.balanced (h : Sends d d') (q : Token → Bool) (hnext : callsCount q next ≤ c.count q) :
    Balanced q d c d' next := by
  obtain ⟨es, hlog, hes⟩ := h.log
  unfold Balanced Device.delivered
  rw [h.rx, hes.accepts hlog, hes.handed hlog]
  omega

theorem dataCommit_balanced {o : Opened} (h : dataCommit P d o a = (d', r)) (q : Token → Bool)
    (hnext : callsCount q next ≤ outcomeCount q r) : Balanced q d (.unicast o) d' next := by
  unfold Balanced Device.delivered
  rcases dataCommit_cases h with ⟨rfl, e, rfl⟩ | ⟨rfl, -, -, bitmap, status, -, rfl⟩ |
    ⟨i, p, d₁, t, rx', hcur, hm, rfl, ht, -⟩
  · simp only [outcomeCount] at hnext
    omega
  · simp only [outcomeCount] at hnext
    omega
  · have hheld := ht.held_le q
    have hacc : Device.accepts { d₁ with rx := rx' } = t :: d.accepts :=
      (show _ = d₁.accepts from rfl).trans (markAccepted_accepts hm)
    have hhan : Device.handed { d₁ with rx := rx' } = d.handed :=
      (show _ = d₁.handed from rfl).trans (markAccepted_handed hm)
    rw [hacc, hhan, ← List.singleton_append, List.countP_append]
    show rx'.held q + _ + _ + _ ≤ _
    omega

theorem broadcastMark_balanced {alloc : Bool} {r : Except Errno Token} (h : broadcastMark d o alloc = (d', r))
    (q : Token → Bool) (hnext : callsCount q next ≤ (r.toOption.map fun t => [t].countP q).getD 0) :
    Balanced q d (.broadcast o) d' next := by
  unfold Balanced Device.delivered
  rcases broadcastMark_cases h with ⟨rfl, e, rfl⟩ | ⟨i, p, t, hp, hm, ht⟩
  · simp only [Except.toOption, Option.map_none, Option.getD_none] at hnext
    omega
  rw [markAccepted_rx hm, markAccepted_accepts hm, markAccepted_handed hm, ← List.singleton_append, List.countP_append]
  have : callsCount q next ≤ [t].countP q := by
    cases r with
    | error e => exact Nat.le_trans hnext (Nat.zero_le _)
    | ok t' => rw [← ht t' rfl]; exact hnext
  omega

theorem broadcastAdmit_balanced (h : broadcastAdmit P d o t a = (d', r)) (q : Token → Bool)
    (hnext : callsCount q next ≤ outcomeCount q r) : Balanced q d (.broadcastMarked o t) d' next := by
  unfold Balanced Device.delivered
  rcases broadcastAdmit_cases h with ⟨rfl, e, rfl⟩ | ⟨rx', rfl, ht, -⟩
  · simp only [outcomeCount] at hnext
    omega
  have hheld := ht.held_le q
  have hacc : Device.accepts { d with rx := rx' } = d.accepts := rfl
  have hhan : Device.handed { d with rx := rx' } = d.handed := rfl
  rw [hacc, hhan]
  show rx'.held q + _ + _ + _ ≤ _ + [t].countP q + _ + _
  omega

theorem handOver_balanced (q : Token → Bool) (bindings : List Binding) (d : Device) (m : Complete)
    (result : Except Errno Unit) (hnext : callsCount q next + m.count q ≤ c.count q) :
    Balanced q d c (handOver bindings d m result) next := by
  unfold Balanced
  rw [handOver_delivered, handOver_accepts]
  show d.rx.held q + _ + _ + _ ≤ _
  omega

theorem Stage.balanced {bindings : List Binding} {a : Label} (h : Stage P bindings d a c d' next) (q : Token → Bool) :
    Balanced q d c d' next := by
  cases h with
  | commitFailed h => exact dataCommit_balanced h q (Nat.zero_le _)
  | commit h => exact dataCommit_balanced h q (afterOutcome_count_le q _ _ _ _)
  | markFailed h => exact broadcastMark_balanced h q (Nat.zero_le _)
  | mark h => exact broadcastMark_balanced h q (Nat.le_refl _)
  | admitFailed h => exact broadcastAdmit_balanced h q (Nat.zero_le _)
  | admitBroadcast h => exact broadcastAdmit_balanced h q (afterOutcome_count_le q _ _ _ _)
  | @deliver i result m batch plan =>
    refine handOver_balanced q bindings d m.message result (Nat.le_of_eq ?_)
    simp [callsCount, Call.count, batchCount, Nat.add_comm]
  | delivered => exact Sends.balanced ⟨rfl, rfl, rfl, rfl, [], rfl, by simp [Silent]⟩ q (Nat.le_refl _)
  | hand =>
    refine handOver_balanced q bindings d _ _ ?_
    unfold afterHandOver
    split_ifs <;> simp [callsCount, Call.count]
  | echoFailed h | echo h =>
    obtain ⟨n, hr⟩ := sendOpen_reserves h
    exact hr.sends.balanced q (Nat.zero_le _)
  | @store i jiffies plan =>
    obtain ⟨receipts, heq⟩ := receiptSection_eq P d plan jiffies
    rw [heq]
    exact Nat.le_refl _
  | sendAck => exact (dataSendAck_sends ..).balanced q (Nat.zero_le _)
  | @ackCommit i o =>
    unfold Balanced Device.delivered
    rcases ackCommit_cases d o with heq | ⟨i, p, t, hp, hm⟩
    · rw [heq]
      exact Nat.le_refl _
    · rw [markAccepted_rx hm, markAccepted_accepts hm, markAccepted_handed hm, ← List.singleton_append,
        List.countP_append]
      simp only [callsCount, List.map_nil, List.sum_nil, Call.count]
      omega
  | sealed => exact (sealFrames_sends ..).balanced q (Nat.zero_le _)

/-! ## The machine -/

theorem custody_initial : Custody Node.initial := by
  intro q
  simp [Node.count, Node.initial, RxState.held, RxState.fragmentCount, callsCount, batchCount, Device.delivered,
    Device.handed]

theorem step_custody (P : Platform) (s : Node) (a : Label) (ho : NodeOwned s) (hc : Custody s) :
    Custody (step P s a) := by
  intro q
  have hq := hc q
  have hmove := step_moves P s a
  generalize step P s a = s' at hmove ⊢
  unfold Node.count at hq ⊢
  cases hmove with
  | stay => exact hq
  | @control c =>
    have hs := (controlStep_evolves P s.dev c ho.dev).2
    obtain ⟨es, hlog, hes⟩ := hs.silent
    have := hs.held_le q
    unfold Device.delivered at hq ⊢
    dsimp only
    rw [hes.accepts hlog, hes.handed hlog]
    omega
  | bind => exact hq
  | @rxData frame link _ _ _ c h =>
    have hzero : c.count q = 0 := by
      rcases rxDataOpen_cases h with ⟨o, rfl, -⟩ | ⟨o, hdr, ciphertext, rfl, -⟩ <;> rfl
    rw [callsCount_append]
    simp only [callsCount, List.map_cons, List.map_nil, List.sum_cons, List.sum_nil, hzero] at hq ⊢
    exact hq
  | rxAck h =>
    rw [callsCount_append]
    exact hq
  | stage hi hcall h =>
    have hb := h.balanced q
    have he := callsCount_eraseIdx q hcall
    unfold Balanced at hb
    rw [callsCount_append]
    dsimp only
    omega
  | @work jiffies bootNs hidle =>
    obtain ⟨rx', r, heq, hp, hbatch⟩ := reassemblyWork_polls s.dev jiffies (reliabilityNow bootNs)
    have hheld := hp.held_le q
    have hexp := held_expire_le q s.dev.rx jiffies
    have hcount : batchCount q (reassemblyWork s.dev jiffies (reliabilityNow bootNs)).2 ≤ resultCount q r := by
      rw [hbatch]
      cases r with
      | error e => exact Nat.zero_le _
      | ok batch => exact Nat.le_refl _
    rw [hidle] at hq
    rw [heq]
    show rx'.held q + _ + _ + s.dev.delivered q ≤ s.dev.accepts.countP q
    simp only [Option.getD_none, Option.getD_some, batchCount, List.map_nil, List.sum_nil] at hq hcount ⊢
    omega
  | workDone h =>
    rw [h] at hq
    exact hq
  | @workDeliver result m batch h =>
    rw [h] at hq
    rw [handOver_delivered, handOver_accepts]
    simp only [Option.getD_some, batchCount, List.map_cons, List.sum_cons] at hq ⊢
    show s.dev.rx.held q + _ + _ + _ ≤ _
    omega
  | sendFailed h =>
    obtain ⟨n, ⟨orderTx, rfl⟩, -, -⟩ := sendOpen_reserves h
    exact hq
  | send h =>
    obtain ⟨n, ⟨orderTx, rfl⟩, -, -⟩ := sendOpen_reserves h
    rw [callsCount_append]
    exact hq

end Melodi
