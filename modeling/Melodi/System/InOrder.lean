import Melodi.Core.Flows
import Melodi.System.Delivery

/-!
# Ordered flows are handed over in order

A batch is taken out of the buffer under the lock and handed over after the lock is dropped, by the call that received a
frame or by the reassembly work. Two batches of one flow can then pass each other.

* `flow_handed_in_order` : in a run of prompt steps every flow is handed over in the order of its markers.
-/

namespace Melodi
open Lib Scenario
variable {c : Call} {m : Complete} {d d' : Device} {κ : FlowKey} {bs : List (List OrderMessage)} {l : List Nat}
  {b : List OrderMessage} {i offset : Nat} {s s' : Node} {f : OrderRxFlow} {st : OrderState} {p : Peer}
  {rx rx' : RxState}
  {sessionEpoch : UInt64} {h : WireData}
variable {d₁ : Device} {t : Token} {source : NodeId} {nowMs : Nat} {r : Except Errno Outcome} {k : Fin PEER_LIMIT}
  {created : Bool} {o : Opened} {P : Platform}

/-! ## Hand-overs of a flow -/

/-- The marker comes after the other one, at most a window away on the cycle. -/
def Ahead (m m' : Nat) : Prop := ∃ k ≤ ORDER_WINDOW + 1, 0 < k ∧ m' = orderAdvance m k

instance decidableAhead (m m' : Nat) : Decidable (Ahead m m') :=
  inferInstanceAs (Decidable (∃ k ≤ ORDER_WINDOW + 1, 0 < k ∧ m' = orderAdvance m k))

def Complete.isIn (m : Complete) (κ : FlowKey) : Bool := m.flow = κ && m.origin.marker ≠ 0

def Device.handedMarkers (d : Device) (κ : FlowKey) : List Nat :=
  (d.handed.reverse.filter (·.isIn κ)).map (·.origin.marker)

def Call.batch : Call → List (List OrderMessage)
  | .delivering batch _ => [batch]
  | _ => []

def Node.batches (s : Node) : List (List OrderMessage) := s.calls.flatMap Call.batch ++ s.worker.toList

/-- No message of the batch is of a flow of which another one is released and not yet handed over. -/
def Node.Apart (s : Node) (batch : List OrderMessage) : Prop :=
  ∀ m ∈ batch, ∀ b ∈ s.batches, ∀ n ∈ b, n.message.flow ≠ m.message.flow

instance decidableApart (s : Node) (batch : List OrderMessage) : Decidable (s.Apart batch) :=
  inferInstanceAs (Decidable (∀ m ∈ batch, ∀ b ∈ s.batches, ∀ n ∈ b, n.message.flow ≠ m.message.flow))

def waitingIn (κ : FlowKey) (batches : List (List OrderMessage)) : List (List OrderMessage) :=
  (batches.map (List.filter fun m => m.message.flow = κ)).filter (!·.isEmpty)

def undeliveredIn (κ : FlowKey) (batches : List (List OrderMessage)) : List Nat :=
  (waitingIn κ batches).flatten.map (·.marker)

/-! ## Two batches that pass each other -/

namespace Scenario

def flow : FlowKey := ⟨there, 1, 5, 6⟩

def orderedArrives (counter : UInt64) (marker : UInt32) : List Label :=
  let h : WireData :=
    { common :=
        { flags := WIRE_F_ENCRYPTED ||| WIRE_F_RELIABLE ||| WIRE_F_ORDERED ||| WIRE_F_FINAL, sourceNativeLocator := 9,
          destinationNativeLocator := 7, identityGeneration := 1, messageId := counter, counter := counter }
      destinationService := 6
      sourceService := 5
      fragmentIndex := 0
      fragmentCount := 1
      logicalLength := 1
      priority := 1
      deliveryMode := DELIVERY_RELIABLE_ORDERED
      orderingMarker := marker }
  match wireEncodeData 200 h [1] with
  | .error _ => []
  | .ok frame => [.rxData frame link true true true]

/-- Marker `3` is held. Six seconds later marker `1` arrives; before it is handed over, the work gives marker `2` up. -/
def passing : List Label :=
  established ++ orderedArrives 3 3 ++
    [.commit 0 ⟨0, 0, true⟩, .deliver 0 (.ok ()), .store 0 0, .sendAck 0 (.ok ())] ++ orderedArrives 4 1 ++
    [.commit 0 ⟨0, 6000000000, true⟩, .work true 0 6000000000, .workDeliver (.ok ()), .deliver 0 (.ok ())]

def prompt : List Label :=
  established ++ orderedArrives 3 1 ++
    [.commit 0 ⟨0, 0, true⟩, .deliver 0 (.ok ()), .deliver 0 (.ok ()), .store 0 0, .sendAck 0 (.ok ())] ++
    orderedArrives 4 2 ++ [.commit 0 ⟨0, 0, true⟩, .deliver 0 (.ok ()), .work true 0 6000000000]

end Scenario

/-- The work hands marker `3` over before the call that received marker `1` hands it over. -/
theorem handed_out_of_order :
    ((run (step Platform.plain) Node.initial passing).dev.handedMarkers flow) = [3, 1] ∧
      ¬((run (step Platform.plain) Node.initial passing).dev.handedMarkers flow).IsChain Ahead := by
  have heq : (run (step Platform.plain) Node.initial passing).dev.handedMarkers flow = [3, 1] := by
    decide +kernel
  rw [heq]
  refine ⟨rfl, fun h => ?_⟩
  have : ¬Ahead 3 1 := by decide +kernel
  exact this (List.isChain_pair.mp h)

/-! ## Batches -/

theorem waitingIn_cons (κ : FlowKey) (b : List OrderMessage) (bs : List (List OrderMessage)) :
    waitingIn κ (b :: bs) = [b.filter fun m => m.message.flow = κ].filter (!·.isEmpty) ++ waitingIn κ bs := by
  rw [waitingIn, waitingIn, ← List.filter_append, List.map_cons, List.singleton_append]

theorem waitingIn_cons_of_none (h : ∀ m ∈ b, m.message.flow ≠ κ) : waitingIn κ (b :: bs) = waitingIn κ bs := by
  have hnil : b.filter (fun m => m.message.flow = κ) = [] :=
    List.filter_eq_nil_iff.mpr fun m hm => by simpa using h m hm
  rw [waitingIn_cons, hnil]
  rfl

theorem waitingIn_eq_nil (h : ∀ b ∈ bs, ∀ m ∈ b, m.message.flow ≠ κ) :
    waitingIn κ bs = [] := by
  induction bs with
  | nil => rfl
  | cons b bs ih =>
    rw [waitingIn_cons_of_none (h b List.mem_cons_self)]
    exact ih fun b' hb' => h b' (List.mem_cons_of_mem _ hb')

theorem waitingIn_perm {bs' : List (List OrderMessage)} (h : bs.Perm bs') :
    (waitingIn κ bs).Perm (waitingIn κ bs') := (h.map _).filter _

theorem undeliveredIn_perm {bs' : List (List OrderMessage)} (hperm : (waitingIn κ bs).Perm (waitingIn κ bs'))
    (hlen : (waitingIn κ bs).length ≤ 1) :
    (waitingIn κ bs').length ≤ 1 ∧ undeliveredIn κ bs' = undeliveredIn κ bs := by
  refine ⟨hperm.length_eq ▸ hlen, ?_⟩
  have heq : waitingIn κ bs' = waitingIn κ bs := by
    match hw : waitingIn κ bs, hlen with
    | [], _ => exact (hw ▸ hperm).nil_eq.symm
    | [b], _ => exact (List.singleton_perm.mp (hw ▸ hperm)).symm
  rw [undeliveredIn, heq, undeliveredIn]

theorem undeliveredIn_cons (hb : ∀ m ∈ b, m.message.flow = κ) (hlen : (waitingIn κ bs).length ≤ 1)
    (hapart : ∀ m ∈ b, ∀ c ∈ bs, ∀ n ∈ c, n.message.flow ≠ m.message.flow) :
    (waitingIn κ (b :: bs)).length ≤ 1 ∧ undeliveredIn κ (b :: bs) = undeliveredIn κ bs ++ b.map (·.marker) := by
  have hfilter : b.filter (fun m => m.message.flow = κ) = b :=
    List.filter_eq_self.mpr fun m hm => by simpa using hb m hm
  cases b with
  | nil =>
    rw [undeliveredIn, waitingIn_cons_of_none (by simp)]
    exact ⟨hlen, (List.append_nil _).symm⟩
  | cons m b =>
    have hbs : waitingIn κ bs = [] :=
      waitingIn_eq_nil fun c hc n hn => hb m List.mem_cons_self ▸ hapart m List.mem_cons_self c hc n hn
    rw [undeliveredIn, undeliveredIn, waitingIn_cons, hfilter, hbs, List.append_nil]
    exact ⟨Nat.le_refl _, by simp⟩

theorem undeliveredIn_head {m : OrderMessage} (hlen : (waitingIn κ ((m :: b) :: bs)).length ≤ 1) :
    (waitingIn κ (b :: bs)).length ≤ 1 ∧ undeliveredIn κ ((m :: b) :: bs) =
      (if m.message.flow = κ then [m.marker] else []) ++ undeliveredIn κ (b :: bs) := by
  by_cases hm : m.message.flow = κ
  · have hw : waitingIn κ ((m :: b) :: bs) = (m :: b.filter fun m => m.message.flow = κ) :: waitingIn κ bs := by
      simp [waitingIn, hm]
    rw [hw, List.length_cons] at hlen
    have hbs : waitingIn κ bs = [] := List.length_eq_zero_iff.mp (by omega)
    rw [if_pos hm, undeliveredIn, undeliveredIn, hw, waitingIn_cons κ b, hbs, List.append_nil]
    cases b.filter fun m => m.message.flow = κ with
    | nil => exact ⟨Nat.zero_le _, rfl⟩
    | cons m' b' => exact ⟨Nat.le_refl _, by simp⟩
  · have hw : waitingIn κ ((m :: b) :: bs) = waitingIn κ (b :: bs) := by
      simp [waitingIn, hm]
    rw [hw] at hlen
    rw [if_neg hm, undeliveredIn, hw, undeliveredIn, List.nil_append]
    exact ⟨hlen, rfl⟩

theorem batches_stage (hc : s.calls[i]? = some c) (d : Device) (next : List Call) :
    ∃ rest, s.batches.Perm (c.batch ++ rest) ∧
      ({ s with dev := d, calls := s.calls.eraseIdx i ++ next } : Node).batches.Perm
      (next.flatMap Call.batch ++ rest) := by
  obtain ⟨hlt, rfl⟩ := List.getElem?_eq_some_iff.mp hc
  refine ⟨(s.calls.eraseIdx i).flatMap Call.batch ++ s.worker.toList, ?_, ?_⟩
  · rw [← List.append_assoc, ← List.flatMap_cons]
    exact ((List.getElem_cons_eraseIdx_perm hlt).symm.flatMap_right _).append_right _
  simp only [Node.batches, List.flatMap_append]
  rw [← List.append_assoc]
  exact List.perm_append_comm.append_right _

/-! ## The sequence of a flow -/

/-- The markers follow each other up to the one the flow expects next, unless the session is over. -/
structure Lined (d : Device) (κ : FlowKey) (l : List Nat) : Prop where
  chain : l.IsChain Ahead
  ends : ∀ x ∈ l.getLast?, (∃ i f, d.rx.orderRx i = some f ∧ f.key = κ ∧ f.state.expected = orderNext x) ∨
    ∀ j p, d.peers j = some p → p.session ≠ κ.session
  known : l ≠ [] → κ.session < d.serial

/-- A step that leaves the flows, the sessions and the hand-overs of ordered messages alone. -/
structure Quiet (d d' : Device) : Prop where
  orderRx : d'.rx.orderRx = d.rx.orderRx
  orderMessages : d'.rx.orderMessages = d.rx.orderMessages
  serial : d'.serial = d.serial
  session : ∀ j p', d'.peers j = some p' → ∃ p, d.peers j = some p ∧ p'.session = p.session
  handed : ∀ κ, d'.handedMarkers κ = d.handedMarkers κ

theorem Lined.quiet (hl : Lined d κ l) (hrx : d'.rx.orderRx = d.rx.orderRx) (hserial : d'.serial = d.serial)
    (hsession : ∀ j p', d'.peers j = some p' → ∃ p, d.peers j = some p ∧ p'.session = p.session) : Lined d' κ l where
  chain := hl.chain
  ends := by
    intro x hx
    rw [hrx]
    rcases hl.ends x hx with h | h
    · exact .inl h
    · refine .inr fun j p' hp' => ?_
      obtain ⟨p, hp, heq⟩ := hsession j p' hp'
      exact heq ▸ h j p hp
  known := fun hne => hserial ▸ hl.known hne

theorem Lined.sheds (hl : Lined d κ l) (hs : Sheds d d') : Lined d' κ l where
  chain := hl.chain
  ends := by
    intro x hx
    have hknown := hl.known fun hnil => by
      rw [hnil] at hx
      cases hx
    rcases hl.ends x hx with ⟨i, f, hf, hkey, hexp⟩ | hover
    · rcases hs.flow_kept i f hf with hf' | hgone
      · exact .inl ⟨i, f, hf', hkey, hexp⟩
      · refine .inr fun j p hp => ?_
        rw [← hkey]
        exact hgone j p hp
    · -- a session that is over does not come back
      refine .inr fun j p' hp' => ?_
      rcases hs.peer j p' hp' with ⟨p, hp, hk⟩ | hren
      · exact hk.session ▸ hover j p hp
      · have := hren.session_ge
        omega
  known := fun hne => Nat.lt_of_lt_of_le (hl.known hne) hs.serial_le

theorem Windowed.sheds (hw : Windowed d.rx) (ho' : Owned d') (hs : Sheds d d') : Windowed d'.rx := by
  refine ⟨⟨fun j j' m m' hm hm' => ?_, fun j m hm => ?_, fun j m hm => ?_⟩, fun i f hf => ?_⟩
  · exact hw.buffered.unique j j' m m' (hs.message j m hm) (hs.message j' m' hm')
  · exact hw.buffered.marker j m (hs.message j m hm)
  · obtain ⟨f, hf, -⟩ := ho'.message_flow j m hm
    exact ⟨f, hf⟩
  obtain ⟨hmark, hwaits⟩ := hw.agrees i f (hs.flow i f hf)
  refine ⟨hmark, hwaits.other (fun j m hm hi => ?_) fun j m hm _ => hs.message j m hm⟩
  rcases hs.message_kept j m hm with h | ⟨hgone, -⟩
  · exact h
  · exact absurd (hi ▸ hf) (hgone f (hi ▸ hs.flow i f hf))

theorem isChain_advance (e offset n : Nat) : ((List.range' offset n).map (orderAdvance e)).IsChain Ahead := by
  induction n generalizing offset with
  | zero => exact List.isChain_nil
  | succ n ih =>
    rw [List.range'_succ, List.map_cons, List.isChain_cons]
    refine ⟨fun y hy => ?_, ih (offset + 1)⟩
    cases n with
    | zero => cases hy
    | succ n =>
      rw [List.range'_succ, List.map_cons, List.head?_cons, Option.mem_some_iff] at hy
      exact ⟨1, by decide, Nat.one_pos, by rw [← hy, orderAdvance_add]⟩

theorem Lined.progress {i : Fin ORDER_FLOW_LIMIT} {batch : List OrderMessage} (hl : Lined d f.key l)
    (hp : Progress d.rx rx' i st f offset batch) (hst : ∀ x ∈ l.getLast?, st.expected = orderNext x)
    (hlt : f.session < d.serial) : Lined { d with rx := rx' } f.key (l ++ batch.map (·.marker)) where
  chain := by
    refine hl.chain.append ?_ fun x hx y hy => ?_
    · rw [hp.markers]
      exact isChain_advance _ _ _
    -- the batch starts `offset` steps after the marker that follows `x`
    rw [hp.markers] at hy
    cases hb : batch with
    | nil =>
      rw [hb] at hy
      cases hy
    | cons m b =>
      rw [hb, List.length_cons, List.range'_succ, List.map_cons, List.head?_cons, Option.mem_some_iff] at hy
      refine ⟨1 + offset, by have := hp.offset_le; omega, by omega, ?_⟩
      rw [← hy, hst x hx, orderAdvance_add]
      rfl
  ends := by
    intro x hx
    refine .inl ⟨i, f, by rw [hp.flow, Table.set_self], rfl, ?_⟩
    rw [hp.expected]
    cases hb : batch with
    | nil =>
      rw [hb, List.map_nil, List.append_nil] at hx
      rw [hp.start hb, hst x hx]
      rfl
    | cons m b =>
      have hne : batch.map (·.marker) ≠ [] := by simp [hb]
      rw [List.getLast?_append_of_ne_nil _ hne, hp.markers, hb, List.length_cons, List.range'_concat, List.map_append,
        List.map_singleton, List.getLast?_concat, Option.mem_some_iff] at hx
      rw [← hx, List.length_cons, ← Nat.add_assoc, orderAdvance_succ, Nat.one_mul]
  known := fun _ => hlt

theorem Lined.other {i : Fin ORDER_FLOW_LIMIT} {batch : List OrderMessage} (hl : Lined d κ l)
    (hp : Progress d.rx rx' i st f offset batch) (hslot : ∀ g, d.rx.orderRx i = some g → g.key = f.key)
    (hκ : f.key ≠ κ) : Lined { d with rx := rx' } κ l where
  chain := hl.chain
  ends := by
    intro x hx
    rcases hl.ends x hx with ⟨k, g, hg, hkey, hexp⟩ | h
    · have hk : k ≠ i := by
        rintro rfl
        exact hκ ((hslot g hg).symm.trans hkey)
      exact .inl ⟨k, g, by rw [hp.flow, Table.set_of_ne _ _ hk]; exact hg, hkey, hexp⟩
    · exact .inr h
  known := hl.known

/-! ## The invariant -/

/-- The buffers agree with the windows, only one batch has messages of a flow, and what was handed over and what is
about to be follow each other up to the marker the flow expects. -/
structure InOrder (s : Node) : Prop where
  windowed : Windowed s.dev.rx
  single : ∀ κ, (waitingIn κ s.batches).length ≤ 1
  batched : ∀ b ∈ s.batches, ∀ m ∈ b, m.message.origin.marker = m.marker ∧ m.marker ≠ 0
  lined : ∀ κ, Lined s.dev κ (s.dev.handedMarkers κ ++ undeliveredIn κ s.batches)

theorem inOrder_initial : InOrder Node.initial where
  windowed := windowed_empty
  single := fun κ => Nat.zero_le _
  batched := by simp [Node.initial, Node.batches]
  lined := fun κ => ⟨List.isChain_nil, fun x hx => (nomatch hx), fun hne => absurd rfl hne⟩

theorem InOrder.quiet (hi : InOrder s) (hq : Quiet s.dev s'.dev)
    (hperm : ∀ κ, (waitingIn κ s.batches).Perm (waitingIn κ s'.batches))
    (hmem : ∀ b ∈ s'.batches, ∀ m ∈ b, ∃ b' ∈ s.batches, m ∈ b') : InOrder s' where
  windowed := hi.windowed.congr hq.orderRx hq.orderMessages
  single := fun κ => (undeliveredIn_perm (hperm κ) (hi.single κ)).1
  batched := by
    intro b hb m hm
    obtain ⟨b', hb', hm'⟩ := hmem b hb m hm
    exact hi.batched b' hb' m hm'
  lined := by
    intro κ
    rw [(undeliveredIn_perm (hperm κ) (hi.single κ)).2, hq.handed κ]
    exact (hi.lined κ).quiet hq.orderRx hq.serial hq.session

theorem InOrder.still (hi : InOrder s) (hq : Quiet s.dev s'.dev) (hperm : s.batches.Perm s'.batches) :
    InOrder s' :=
  hi.quiet hq (fun _ => waitingIn_perm hperm) fun b hb _ hm => ⟨b, hperm.mem_iff.mpr hb, hm⟩

theorem InOrder.done (hi : InOrder s) (hq : Quiet s.dev s'.dev) (hperm : s.batches.Perm ([] :: s'.batches)) :
    InOrder s' := by
  refine hi.quiet hq (fun κ => ?_) fun b hb _ hm => ⟨b, hperm.mem_iff.mpr (List.mem_cons_of_mem _ hb), hm⟩
  have := waitingIn_perm (κ := κ) hperm
  rwa [waitingIn_cons_of_none (by simp)] at this

theorem handOver_handedMarkers (κ : FlowKey) (bindings : List Binding) (d : Device) (m : Complete)
    (result : Except Errno Unit) : (handOver bindings d m result).handedMarkers κ =
      d.handedMarkers κ ++ if m.isIn κ then [m.origin.marker] else [] := by
  have hhanded : (handOver bindings d m result).handed.reverse = d.handed.reverse ++ [m] := by
    show (m :: d.handed).reverse = _
    rw [List.reverse_cons]
  rw [Device.handedMarkers, hhanded, List.filter_append, List.map_append, Device.handedMarkers, List.filter_singleton]
  cases m.isIn κ <;> rfl

theorem InOrder.handOver (hi : InOrder s) {m : OrderMessage} (rest : List (List OrderMessage)) {bindings : List Binding}
    {result : Except Errno Unit} (hdev : s'.dev = Melodi.handOver bindings s.dev m.message result)
    (hb : s.batches.Perm ((m :: b) :: rest)) (hb' : s'.batches.Perm (b :: rest)) : InOrder s' := by
  have hmem : ∀ c ∈ s'.batches, ∀ n ∈ c, ∃ c' ∈ s.batches, n ∈ c' := by
    intro c hc n hn
    rcases List.mem_cons.mp (hb'.mem_iff.mp hc) with rfl | hc
    · exact ⟨m :: c, hb.mem_iff.mpr List.mem_cons_self, List.mem_cons_of_mem _ hn⟩
    · exact ⟨c, hb.mem_iff.mpr (List.mem_cons_of_mem _ hc), hn⟩
  obtain ⟨hmark, hne⟩ := hi.batched (m :: b) (hb.mem_iff.mpr List.mem_cons_self) m List.mem_cons_self
  -- the flow's sequence is the same, one marker further
  have hkey : ∀ κ, (waitingIn κ s'.batches).length ≤ 1 ∧ s'.dev.handedMarkers κ ++ undeliveredIn κ s'.batches =
      s.dev.handedMarkers κ ++ undeliveredIn κ s.batches := by
    intro κ
    obtain ⟨hlen₁, heq₁⟩ := undeliveredIn_perm (waitingIn_perm (κ := κ) hb) (hi.single κ)
    obtain ⟨hlen₂, heq₂⟩ := undeliveredIn_head hlen₁
    obtain ⟨hlen₃, heq₃⟩ := undeliveredIn_perm (waitingIn_perm (κ := κ) hb'.symm) hlen₂
    refine ⟨hlen₃, ?_⟩
    rw [heq₃, ← heq₁, heq₂, hdev, handOver_handedMarkers, List.append_assoc]
    simp [Complete.isIn, hmark, hne]
  refine ⟨?_, fun κ => (hkey κ).1, fun c hc n hn => ?_, fun κ => ?_⟩
  · rw [hdev]
    exact hi.windowed.congr rfl rfl
  · obtain ⟨c', hc', hn'⟩ := hmem c hc n hn
    exact hi.batched c' hc' n hn'
  · rw [(hkey κ).2, hdev]
    exact (hi.lined κ).quiet rfl rfl fun j p' hp' => ⟨p', hp', rfl⟩

theorem InOrder.release (hi : InOrder s) {i : Fin ORDER_FLOW_LIMIT} {batch : List OrderMessage} (hq : Quiet s.dev d)
    (hdev : s'.dev = { d with rx := rx' }) (hw : Windowed rx') (hp : Progress d.rx rx' i st f offset batch)
    (hslot : ∀ g, d.rx.orderRx i = some g → g.key = f.key) (hlt : f.session < d.serial)
    (hst : ∀ x ∈ (s.dev.handedMarkers f.key ++ undeliveredIn f.key s.batches).getLast?, st.expected = orderNext x)
    (hkey : ∀ m ∈ batch, m.message.flow = f.key) (hapart : s.Apart batch)
    (hb : s'.batches.Perm (batch :: s.batches)) : InOrder s' := by
  have hhanded : ∀ κ, s'.dev.handedMarkers κ = s.dev.handedMarkers κ := by
    intro κ
    rw [hdev]
    exact hq.handed κ
  have hlined : ∀ κ, Lined d κ (s.dev.handedMarkers κ ++ undeliveredIn κ s.batches) :=
    fun κ => (hi.lined κ).quiet hq.orderRx hq.serial hq.session
  have hflow : ∀ κ, (waitingIn κ s'.batches).length ≤ 1 ∧
      Lined s'.dev κ (s'.dev.handedMarkers κ ++ undeliveredIn κ s'.batches) := by
    intro κ
    rw [hhanded κ]
    have hl := hlined κ
    by_cases hκ : f.key = κ
    · subst hκ
      have hnext := hl.progress hp hst hlt
      obtain ⟨hlen, heq⟩ := undeliveredIn_cons hkey (hi.single _) hapart
      obtain ⟨hlen', heq'⟩ := undeliveredIn_perm (waitingIn_perm hb.symm) hlen
      rw [heq', heq, hdev, ← List.append_assoc]
      exact ⟨hlen', hnext⟩
    · have hcons : waitingIn κ (batch :: s.batches) = waitingIn κ s.batches :=
        waitingIn_cons_of_none fun m hm => hkey m hm ▸ hκ
      obtain ⟨hlen', heq'⟩ := undeliveredIn_perm (waitingIn_perm hb.symm) (hcons ▸ hi.single κ)
      rw [heq', undeliveredIn, hcons, hdev]
      exact ⟨hlen', hl.other hp hslot hκ⟩
  refine ⟨hdev ▸ hw, fun κ => (hflow κ).1, fun c hc m hm => ?_, fun κ => (hflow κ).2⟩
  rcases List.mem_cons.mp (hb.mem_iff.mp hc) with rfl | hc
  · have hmem : m.marker ∈ c.map (·.marker) := List.mem_map_of_mem hm
    rw [hp.markers, List.mem_map] at hmem
    obtain ⟨o, -, ho⟩ := hmem
    have := (isMarker_advance hp.isMarker o).1
    exact ⟨(hp.members m hm).2, by omega⟩
  · exact hi.batched c hc m hm

/-! ## Prompt steps -/

def releasedBy : Except Errno Outcome → List OrderMessage
  | .ok (.ordered _ _ (.ok batch)) => batch
  | _ => []

/-- A step that releases messages of a flow finds none of the flow released and not yet handed over. -/
def Prompt (P : Platform) (s : Node) : Label → Prop
  | .commit i a =>
    match s.calls[i]? with
    | some (.unicast o) => s.Apart (releasedBy (dataCommit P s.dev o a).2)
    | _ => True
  | .work alloc jiffies bootNs =>
    alloc = true → s.worker.isNone = true → s.Apart (reassemblyWork s.dev jiffies (reliabilityNow bootNs)).2
  | _ => True

instance decidablePrompt (P : Platform) (s : Node) (a : Label) : Decidable (Prompt P s a) :=
  match a with
  | .commit i ambient =>
    match h : s.calls[i]? with
    | some (.unicast o) =>
      decidable_of_iff (s.Apart (releasedBy (dataCommit P s.dev o ambient).2)) (by simp only [Prompt, h])
    | none | some (.broadcast ..) | some (.broadcastMarked ..) | some (.delivering ..) | some (.handing ..)
    | some (.echoing ..) | some (.receipt ..) | some (.acking ..) | some (.ackFrame ..) | some (.sealing ..) =>
      .isTrue (by simp only [Prompt, h])
  | .work alloc jiffies bootNs => inferInstanceAs (Decidable (alloc = true → s.worker.isNone = true →
      s.Apart (reassemblyWork s.dev jiffies (reliabilityNow bootNs)).2))
  | .control _ | .bind _ | .rxData .. | .mark .. | .admitBroadcast .. | .deliver .. | .echo .. | .store .. | .sendAck ..
  | .rxAck .. | .ackCommit _ | .workDeliver _ | .send .. | .sealMessage .. => inferInstanceAs (Decidable True)

theorem Quiet.refl (d : Device) : Quiet d d where
  orderRx := rfl
  orderMessages := rfl
  serial := rfl
  session := fun _ p' hp' => ⟨p', hp', rfl⟩
  handed := fun _ => rfl

theorem Sends.quiet (h : Sends d d') : Quiet d d' where
  orderRx := by rw [h.rx]
  orderMessages := by rw [h.rx]
  serial := h.serial
  session := fun _ p' hp' => ⟨p', h.peers ▸ hp', rfl⟩
  handed := by
    obtain ⟨es, hlog, hes⟩ := h.log
    intro κ
    rw [Device.handedMarkers, hes.handed hlog, Device.handedMarkers]

theorem Quiet.mark {i : Fin PEER_LIMIT} {counter : Nat} {kind : FrameKind} (hp : d.peers i = some p)
    (hm : markAccepted d i p counter kind = .ok (d₁, t)) (hflow : rx.orderRx = d.rx.orderRx)
    (hmsg : rx.orderMessages = d.rx.orderMessages) : Quiet d { d₁ with rx := rx } := by
  obtain ⟨-, w, -, rfl⟩ := markAccepted_ok hm
  refine ⟨hflow, hmsg, rfl, fun j p' hp' => ?_, fun κ => rfl⟩
  dsimp only at hp'
  rw [Table.set_apply] at hp'
  split_ifs at hp' with hj
  · rw [hj, ← Option.some.inj hp']
    exact ⟨p, hp, rfl⟩
  · exact ⟨p', hp', rfl⟩

theorem Takes.unordered {token : Token} (ht : Takes h source sessionEpoch token nowMs rx rx' r)
    (hord : h.isOrdered ≠ true) : rx'.orderRx = rx.orderRx ∧ rx'.orderMessages = rx.orderMessages := by
  cases ht with
  | failed hadd => exact ⟨hadd.orderRx, hadd.orderMessages⟩
  | incomplete hadd => exact ⟨hadd.orderRx, hadd.orderMessages⟩
  | whole _ hadd => exact ⟨hadd.orderRx, hadd.orderMessages⟩
  | ordered h => exact absurd h hord

theorem Lined.expected {session : Nat} {i : Fin ORDER_FLOW_LIMIT} (hl : Lined d m.flow l) (ho : Owned d)
    (hs : InSession d h source sessionEpoch session k p) (hm : m.IsOf h source session)
    (hflow : orderRxFlowLocked d.rx m.source h.sourceService h.destinationService h.common.identityGeneration
      sessionEpoch = .ok (i, created)) :
    ∀ x ∈ l.getLast?, (orderRxState d.rx i created).expected = orderNext x := by
  intro x hx
  rcases hl.ends x hx with ⟨j, f, hf, hkey, hexp⟩ | hover
  · simp only [OrderRxFlow.key, Complete.flow, FlowKey.mk.injEq] at hkey
    obtain ⟨hsrc, -, hss, hds⟩ := hkey
    rcases orderRxFlowLocked_cases hflow with ⟨rfl, g, hg, hfor⟩ | ⟨rfl, -, hnone⟩
    · simp only [OrderRxFlow.isFor, Bool.and_eq_true, decide_eq_true_eq] at hfor
      have hij : i = j := ho.flow_inj i j g f hg hf (hfor.2.trans hsrc.symm)
        (by rw [hfor.1.1.2, hss, hm.sourceService]) (by rw [hfor.1.2, hds, hm.destinationService])
      rw [orderRxState, if_neg (by decide), hij, hf]
      exact hexp
    · -- the flow would have been found
      have hown := hs.owner ho hf (hsrc.trans hm.source)
      have := hnone j f hf
      simp only [OrderRxFlow.isFor, ← hown.generation, hs.generation, ← hown.sessionEpoch, hs.sessionEpoch, hss, hds,
        hm.sourceService, hm.destinationService, hsrc, decide_true, Bool.and_self] at this
      cases this
  · refine absurd ?_ (hover k p hs.slot)
    rw [hs.session, ← hm.session]
    rfl

theorem OrderRxFlow.key_session (f : OrderRxFlow) : f.key.session = f.session := rfl

theorem orderRxWrite_slot {i : Fin ORDER_FLOW_LIMIT}
    (hflow : orderRxFlowLocked rx m.source h.sourceService h.destinationService h.common.identityGeneration
      sessionEpoch = .ok (i, created))
    (state : OrderState) :
    ∀ g, rx.orderRx i = some g → g.key = (orderRxWrite rx h sessionEpoch m i created state).key := by
  intro g hg
  rcases orderRxFlowLocked_cases hflow with ⟨rfl, f, hf, -⟩ | ⟨rfl, hfree, -⟩
  · simp only [orderRxWrite, hg, OrderRxFlow.key]
  · rw [hfree] at hg
    cases hg

theorem batches_same (hc : s.calls[i]? = some c) (d : Device) {next : List Call}
    (hnext : next.flatMap Call.batch = c.batch) :
    s.batches.Perm ({ s with dev := d, calls := s.calls.eraseIdx i ++ next } : Node).batches := by
  obtain ⟨rest, h₁, h₂⟩ := batches_stage hc d next
  exact h₁.trans (hnext ▸ h₂.symm)

theorem InOrder.ordered {rx₁ : RxState} {r : Except Errno (List OrderMessage)} {bitmap : BitVec 64} (hi : InOrder s)
    (ho : Owned s.dev) (hc : s.calls[i]? = some (.unicast o)) (hcur : o.Current s.dev k p)
    (hm : markAccepted s.dev k p o.header.common.counter.toNat .unicast = .ok (d₁, t))
    (hadd : Adds o.header o.source t s.dev.rx rx₁ (some m)) (ha : Admits o.header o.sessionEpoch m nowMs rx₁ rx' r)
    (hapart : ∀ batch, r = .ok batch → s.Apart batch) :
    InOrder { s with
      dev := { d₁ with rx := rx' }
      calls := s.calls.eraseIdx i ++ afterOutcome o.header o.source o.sessionEpoch (.ordered m bitmap r) } := by
  have hof := hadd.complete m rfl
  have hq : Quiet s.dev { d₁ with rx := rx₁ } := Quiet.mark hcur.slot hm hadd.orderRx hadd.orderMessages
  have hrx : d₁.rx = s.dev.rx := markAccepted_rx hm
  have ho₂ : Owned { d₁ with rx := rx₁ } := (ho.mark hcur.slot hm).adds (hrx.symm ▸ hadd)
  obtain ⟨p', hin⟩ := hcur.inSession hm
  have hin₂ : InSession { d₁ with rx := rx₁ } o.header o.source o.sessionEpoch t.session k p' :=
    ⟨hin.slot, hin.nodeId, hin.session, hin.generation, hin.sessionEpoch⟩
  obtain ⟨rest, hb, hb'⟩ := batches_stage hc { d₁ with rx := rx' }
    (afterOutcome o.header o.source o.sessionEpoch (.ordered m bitmap r))
  rw [show (Call.unicast o).batch = [] from rfl, List.nil_append] at hb
  have hw₁ : Windowed rx₁ := hi.windowed.congr hadd.orderRx hadd.orderMessages
  obtain ⟨hw', ⟨rfl, hr⟩ | ⟨j, created, state, batch, hflow, rfl, hprog⟩⟩ := hw₁.admits hof.marker ha
  · rcases hr with rfl | ⟨e, rfl⟩
    · have hperm := hb'.trans (hb.symm.cons [])
      refine hi.quiet hq (fun κ => ?_) fun b hbm n hn => ?_
      · have := waitingIn_perm (κ := κ) hperm.symm
        rwa [waitingIn_cons_of_none (by simp)] at this
      · rcases List.mem_cons.mp (hperm.mem_iff.mp hbm) with rfl | hbm
        · cases hn
        · exact ⟨b, hbm, hn⟩
    · exact hi.still hq (hb.trans hb'.symm)
  · have hkey := ho₂.write_key hin₂ hof hflow state
    have hlined := (hi.lined m.flow).quiet hq.orderRx hq.serial hq.session
    refine hi.release hq rfl hw' hprog (orderRxWrite_slot hflow state) ?_ ?_ ?_ (hapart batch rfl)
      (hb'.trans (hb.symm.cons batch))
    · rw [← OrderRxFlow.key_session, hkey]
      have := ho₂.session_lt k p' hin₂.slot
      rwa [hin₂.session, ← hof.session] at this
    · rw [hkey]
      exact hlined.expected ho₂ hin₂ hof hflow
    · rw [hkey]
      exact ho₂.admits_batch hin₂ hof ha

theorem afterHandOver_batch (m : Complete) (h : WireData) (sessionEpoch : UInt64) (bitmap : BitVec 64)
    (result : Except Errno Unit) : (afterHandOver m h sessionEpoch bitmap result).flatMap Call.batch = [] := by
  unfold afterHandOver
  split_ifs <;> rfl

theorem Quiet.hand (bindings : List Binding) (result : Except Errno Unit) (hm : m.origin.marker = 0) :
    Quiet d (handOver bindings d m result) where
  orderRx := rfl
  orderMessages := rfl
  serial := rfl
  session := fun _ p' hp' => ⟨p', hp', rfl⟩
  handed := by
    intro κ
    rw [handOver_handedMarkers]
    simp [Complete.isIn, hm]

theorem InOrder.commit {a : Ambient} (hi : InOrder s) (ho : Owned s.dev) (hc : s.calls[i]? = some (.unicast o))
    (h : dataCommit P s.dev o a = (d', r)) (hprompt : Prompt P s (.commit i a)) :
    InOrder { s with
      dev := d'
      calls := s.calls.eraseIdx i ++ (r.toOption.map (afterOutcome o.header o.source o.sessionEpoch)).getD [] } := by
  simp only [Prompt, hc, h] at hprompt
  rcases dataCommit_cases h with ⟨rfl, e, rfl⟩ | ⟨rfl, -, -, bitmap, status, -, rfl⟩ |
    ⟨k, p, d₁, t, rx', hcur, hm, rfl, ht, -⟩
  · exact hi.still (Quiet.refl _) (batches_same hc _ rfl)
  · exact hi.still (Quiet.refl _) (batches_same hc _ rfl)
  · cases ht with
    | failed hadd =>
      exact hi.still (Quiet.mark hcur.slot hm hadd.orderRx hadd.orderMessages) (batches_same hc _ rfl)
    | incomplete hadd | whole hord hadd =>
      refine hi.still (Quiet.mark hcur.slot hm hadd.orderRx hadd.orderMessages) (batches_same hc _ ?_)
      dsimp only [Except.toOption, Option.map_some, Option.getD_some, afterOutcome]
      split_ifs <;> rfl
    | ordered hord hadd ha =>
      refine hi.ordered ho hc hcur hm hadd ha fun batch hbatch => ?_
      rw [hbatch] at hprompt
      exact hprompt

theorem Stage.inOrder {a : Label} {next : List Call} (h : Stage P s.bindings s.dev a c d' next) (hi : InOrder s)
    (ho : NodeOwned s) (hidx : a.index = some i) (hc : s.calls[i]? = some c) (hprompt : Prompt P s a) :
    InOrder { s with dev := d', calls := s.calls.eraseIdx i ++ next } := by
  have hmarked := ho.calls c (List.mem_of_getElem? hc)
  have hsame := fun (d : Device) {next : List Call} (hnext : next.flatMap Call.batch = c.batch) =>
    batches_same hc d hnext
  cases h with
  | commitFailed h | commit h =>
    obtain rfl := Option.some.inj hidx
    exact hi.commit ho.dev hc h hprompt
  | markFailed h | mark h =>
    refine hi.still ?_ (hsame _ rfl)
    rcases broadcastMark_cases h with ⟨rfl, -⟩ | ⟨k, p, t, hp, hm, -⟩
    · exact Quiet.refl _
    · exact Quiet.mark (broadcastPeerLocked_ok hp).1 hm (by rw [markAccepted_rx hm]) (by rw [markAccepted_rx hm])
  | admitFailed h =>
    refine hi.still ?_ (hsame _ rfl)
    rcases broadcastAdmit_cases h with ⟨rfl, -⟩ | ⟨rx', rfl, ht, -⟩
    · exact Quiet.refl _
    · obtain ⟨hflow, hmsg⟩ := ht.unordered hmarked.admitHeader
      exact ⟨hflow, hmsg, rfl, fun _ p' hp' => ⟨p', hp', rfl⟩, fun _ => rfl⟩
  | @admitBroadcast _ _ o t _ r h =>
    rcases broadcastAdmit_cases h with ⟨-, e, he⟩ | ⟨rx', rfl, ht, -⟩
    · cases he
    obtain ⟨hflow, hmsg⟩ := ht.unordered hmarked.admitHeader
    refine hi.still ⟨hflow, hmsg, rfl, fun _ p' hp' => ⟨p', hp', rfl⟩, fun _ => rfl⟩ (hsame _ ?_)
    cases ht with
    | incomplete hadd | whole hord hadd =>
      dsimp only [afterOutcome]
      split_ifs <;> rfl
    | ordered hord => exact absurd hord hmarked.admitHeader
  | deliver =>
    obtain ⟨rest, hb, hb'⟩ := batches_stage hc _ _
    exact hi.handOver rest rfl hb hb'
  | @delivered _ _ plan =>
    obtain ⟨rest, hb, hb'⟩ := batches_stage hc s.dev [.receipt plan]
    exact hi.done (Quiet.refl _) (hb.trans (hb'.symm.cons []))
  | hand => exact hi.still (Quiet.hand _ _ hmarked) (hsame _ (afterHandOver_batch _ _ _ _ _))
  | echoFailed h | echo h =>
    obtain ⟨n, hr⟩ := sendOpen_reserves h
    exact hi.still hr.sends.quiet (hsame _ rfl)
  | @store _ jiffies plan =>
    obtain ⟨receipts, heq⟩ := receiptSection_eq P s.dev plan jiffies
    refine hi.still ?_ (hsame _ rfl)
    rw [heq]
    exact ⟨rfl, rfl, rfl, fun _ p' hp' => ⟨p', hp', rfl⟩, fun _ => rfl⟩
  | sendAck => exact hi.still (dataSendAck_sends ..).quiet (hsame _ rfl)
  | @ackCommit _ o =>
    refine hi.still ?_ (hsame _ rfl)
    rcases ackCommit_cases s.dev o with heq | ⟨k, p, t, hp, hm⟩
    · rw [heq]
      exact Quiet.refl _
    · exact Quiet.mark hp hm (by rw [markAccepted_rx hm]) (by rw [markAccepted_rx hm])
  | sealed => exact hi.still (sealFrames_sends ..).quiet (hsame _ rfl)

theorem InOrder.work (hi : InOrder s) (ho : Owned s.dev) (hidle : s.worker = none) (jiffies bootNs : UInt64)
    (hapart : s.Apart (reassemblyWork s.dev jiffies (reliabilityNow bootNs)).2) :
    InOrder { s with
      dev := (reassemblyWork s.dev jiffies (reliabilityNow bootNs)).1
      worker := some (reassemblyWork s.dev jiffies (reliabilityNow bootNs)).2 } := by
  obtain ⟨rx', r, heq, hp, hbatch⟩ := reassemblyWork_polls s.dev jiffies (reliabilityNow bootNs)
  have hflow := reassemblyExpire_orderRx s.dev.rx jiffies
  have hmsg := reassemblyExpire_orderMessages s.dev.rx jiffies
  have hq : Quiet s.dev { s.dev with rx := reassemblyExpire s.dev.rx jiffies } :=
    ⟨hflow, hmsg, rfl, fun _ p' hp' => ⟨p', hp', rfl⟩, fun _ => rfl⟩
  have hperm : ∀ (d : Device) (batch : List OrderMessage),
      ({ s with dev := d, worker := some batch } : Node).batches.Perm (batch :: s.batches) := by
    intro d batch
    simp only [Node.batches, hidle, Option.toList_none, Option.toList_some, List.append_nil]
    exact List.perm_append_comm
  rw [hbatch] at hapart
  rw [heq, hbatch]
  obtain ⟨hw', ⟨rfl, rfl⟩ | ⟨i, flow, state, offset, batch, hf, rfl, hprog⟩⟩ :=
    (hi.windowed.congr hflow hmsg).polls (orderDeadline_reliabilityNow bootNs) hp
  · refine hi.quiet hq (fun κ => ?_) fun b hb m hm => ?_
    · have := waitingIn_perm (κ := κ) (hperm { s.dev with rx := reassemblyExpire s.dev.rx jiffies } []).symm
      rwa [waitingIn_cons_of_none (by simp)] at this
    · rcases List.mem_cons.mp ((hperm _ _).mem_iff.mp hb) with rfl | hb
      · cases hm
      · exact ⟨b, hb, hm⟩
  · have hf₀ : s.dev.rx.orderRx i = some flow := hflow ▸ hf
    have hlined := hi.lined flow.key
    have hlt : flow.session < s.dev.serial := ho.flow_session_lt hf₀
    refine hi.release hq rfl hw' hprog (fun g hg => ?_) hlt (fun x hx => ?_) (fun m hm => ?_) hapart (hperm _ _)
    · rw [hf, Option.some.injEq] at hg
      rw [← hg]
      rfl
    · rcases hlined.ends x hx with ⟨k, g, hg, hkey, hexp⟩ | hover
      · simp only [OrderRxFlow.key, FlowKey.mk.injEq] at hkey
        have hk := ho.flow_inj k i g flow hg hf₀ hkey.1 hkey.2.2.1 hkey.2.2.2
        rw [hk, hf₀, Option.some.injEq] at hg
        exact hg ▸ hexp
      · obtain ⟨j, p, hp, hown⟩ := ho.flow_owner i flow hf₀
        exact absurd hown.session (hover j p hp)
    · obtain ⟨j, hj⟩ := hp.buffered m hm
      obtain ⟨g, hg, hfit⟩ := ho.message_flow j m (hmsg ▸ hj)
      rw [(hprog.members m hm).1, hf₀, Option.some.injEq] at hg
      rw [hfit.key, ← hg]
      rfl

theorem step_inOrder (P : Platform) (s : Node) (a : Label) (ho : NodeOwned s) (hprompt : Prompt P s a)
    (hi : InOrder s) : InOrder (step P s a) := by
  have hmove := step_moves P s a
  generalize step P s a = s' at hmove ⊢
  have happend : ∀ c : Call, c.batch = [] → InOrder { s with calls := s.calls ++ [c] } := by
    intro c hc
    refine hi.still (Quiet.refl _) ?_
    simp [Node.batches, hc]
  cases hmove with
  | stay => exact hi
  | @control c =>
    obtain ⟨ho', hs⟩ := controlStep_evolves P s.dev c ho.dev
    obtain ⟨es, hlog, hes⟩ := hs.silent
    refine ⟨hi.windowed.sheds ho' hs, hi.single, hi.batched, fun κ => ?_⟩
    have := (hi.lined κ).sheds hs
    rwa [Device.handedMarkers, ← hes.handed hlog] at this
  | bind => exact hi.still (Quiet.refl _) (List.Perm.refl _)
  | rxData h =>
    refine happend _ ?_
    rcases rxDataOpen_cases h with ⟨o, rfl, -⟩ | ⟨o, hdr, ciphertext, rfl, -⟩ <;> rfl
  | rxAck h => exact happend _ rfl
  | stage hidx hc h => exact h.inOrder hi ho hidx hc hprompt
  | @work jiffies bootNs hidle => exact hi.work ho.dev hidle jiffies bootNs (hprompt rfl (by rw [hidle]; rfl))
  | workDone h =>
    refine hi.done (Quiet.refl _) ?_
    simp only [Node.batches, h, Option.toList_some, Option.toList_none, List.append_nil]
    exact List.perm_append_comm
  | @workDeliver result m batch h =>
    refine hi.handOver (s.calls.flatMap Call.batch) (b := batch) rfl ?_ ?_
    · rw [Node.batches, h]
      exact List.perm_append_comm
    · exact List.perm_append_comm
  | sendFailed h =>
    obtain ⟨n, hr⟩ := sendOpen_reserves h
    exact hi.still hr.sends.quiet (List.Perm.refl _)
  | send h =>
    obtain ⟨n, hr⟩ := sendOpen_reserves h
    refine hi.still hr.sends.quiet ?_
    simp [Node.batches, Call.batch]

/-- If no step releases messages of a flow while others of it are still to be handed over, the markers of every flow
are handed over in ascending order on the cycle. -/
theorem flow_handed_in_order (P : Platform) (as : List Label) (hprompt : Along (step P) (Prompt P) Node.initial as)
    (κ : FlowKey) : ((run (step P) Node.initial as).dev.handedMarkers κ).IsChain Ahead := by
  have hinv := run_induction (step P) (fun s => NodeOwned s ∧ InOrder s)
    (fun s a hp hi => ⟨step_owned P s a hi.1, step_inOrder P s a hi.1 hp hi.2⟩) ⟨nodeOwned_initial, inOrder_initial⟩
    hprompt
  exact (hinv.2.lined κ).chain.left_of_append

theorem flow_handed_in_order_prompt :
    Along (step Platform.plain) (Prompt Platform.plain) Node.initial prompt ∧
      (run (step Platform.plain) Node.initial prompt).dev.handedMarkers flow = [1, 2] ∧
      ((run (step Platform.plain) Node.initial prompt).dev.handedMarkers flow).IsChain Ahead := by
  have hprompt : Along (step Platform.plain) (Prompt Platform.plain) Node.initial prompt := by decide +kernel
  exact ⟨hprompt, by decide +kernel, flow_handed_in_order Platform.plain _ hprompt flow⟩

end Melodi
