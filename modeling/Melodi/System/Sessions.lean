import Melodi.System.Operations

/-!
# What a control operation can do to the receive side

No discovery, identity, link or policy operation puts anything into the receive tables or marks a replay window. They
end sessions: a record keeps its session, with its keys and its window, or starts one with a number that was never
given out before, and then everything received in the old one is gone.
-/

namespace Melodi
open Lib
variable {c : Claim} {d d' d'' : Device} {i : Fin PEER_LIMIT} {node : NodeId} {f : OrderRxFlow} {p p' : Peer}
  {rx : RxState}
variable {j : Fin PEER_LIMIT} {d₀ : Device} {P : Platform} {op : Control}

/-! ## Ownership -/

structure OrderRxFlow.OwnedBy (f : OrderRxFlow) (p : Peer) : Prop where
  nodeId : p.nodeId = f.source
  session : p.session = f.session
  generation : p.generation = f.generation
  sessionEpoch : p.sessionEpoch = f.sessionEpoch

structure OrderMessage.Fits (m : OrderMessage) (f : OrderRxFlow) : Prop where
  source : f.source = m.message.source
  session : f.session = m.message.origin.session
  sourceService : f.sourceService = m.message.sourceService
  destinationService : f.destinationService = m.message.destinationService

/-- Sessions have distinct numbers, flows belong to sessions and buffered messages to flows. -/
structure Owned (d : Device) : Prop where
  session_lt : ∀ i p, d.peers i = some p → p.session < d.serial
  residence_lt : ∀ i p, d.peers i = some p → p.residence < d.serial
  session_inj : ∀ i j p q, d.peers i = some p → d.peers j = some q → p.session = q.session → i = j
  residence_inj : ∀ i j p q, d.peers i = some p → d.peers j = some q → p.residence = q.residence → i = j
  node_inj : ∀ i j p q, d.peers i = some p → d.peers j = some q → p.nodeId = q.nodeId → i = j
  flow_owner : ∀ i f, d.rx.orderRx i = some f → ∃ j p, d.peers j = some p ∧ f.OwnedBy p
  flow_inj : ∀ i j f g, d.rx.orderRx i = some f → d.rx.orderRx j = some g → f.source = g.source →
    f.sourceService = g.sourceService → f.destinationService = g.destinationService → i = j
  message_flow : ∀ i m, d.rx.orderMessages i = some m → ∃ f, d.rx.orderRx m.flowIndex = some f ∧ m.Fits f

/-- Everything of a peer that only a new session changes is as it was. -/
structure Kept (p p' : Peer) : Prop where
  session : p'.session = p.session
  residence : p'.residence = p.residence
  nodeId : p'.nodeId = p.nodeId
  generation : p'.generation = p.generation
  receiveReplay : p'.receiveReplay = p.receiveReplay
  sessionEpoch : p'.sessionEpoch = p.sessionEpoch
  transmitKey : p'.transmitKey = p.transmitKey
  sessionReady : p'.sessionReady = p.sessionReady

theorem Kept.refl (p : Peer) : Kept p p := ⟨rfl, rfl, rfl, rfl, rfl, rfl, rfl, rfl⟩

theorem OrderRxFlow.OwnedBy.kept (h : f.OwnedBy p) (hk : Kept p p') : f.OwnedBy p' where
  nodeId := hk.nodeId.trans h.nodeId
  session := hk.session.trans h.session
  generation := hk.generation.trans h.generation
  sessionEpoch := hk.sessionEpoch.trans h.sessionEpoch

theorem Kept.trans {q r : Peer} (h₁ : Kept p q) (h₂ : Kept q r) : Kept p r where
  session := h₂.session.trans h₁.session
  residence := h₂.residence.trans h₁.residence
  nodeId := h₂.nodeId.trans h₁.nodeId
  generation := h₂.generation.trans h₁.generation
  receiveReplay := h₂.receiveReplay.trans h₁.receiveReplay
  sessionEpoch := h₂.sessionEpoch.trans h₁.sessionEpoch
  transmitKey := h₂.transmitKey.trans h₁.transmitKey
  sessionReady := h₂.sessionReady.trans h₁.sessionReady

/-- The session of the peer began in this step. -/
structure Renewed (d : Device) (p' : Peer) : Prop where
  session_ge : d.serial ≤ p'.session
  receiveReplay : p'.receiveReplay = replayReset

def Event.IsInstall : Event → Prop
  | .install _ _ _ => True
  | _ => False

/-- Sessions are kept or begin anew, with everything that belonged to an old one gone. -/
structure Sheds (d d' : Device) : Prop where
  serial_le : d.serial ≤ d'.serial
  log : ∃ es, d'.log = es ++ d.log ∧ (∀ e ∈ es, e.IsInstall) ∧
    ∀ i p', d'.peers i = some p' → d.serial ≤ p'.session → p'.sessionReady = true →
      ∃ rk, Event.install p'.nodeId p'.transmitKey rk ∈ es
  peer : ∀ i p', d'.peers i = some p' → (∃ p, d.peers i = some p ∧ Kept p p') ∨ Renewed d p'
  stay : ∀ i p', d'.peers i = some p' →
    (∃ p, d.peers i = some p ∧ p'.residence = p.residence ∧ p'.nodeId = p.nodeId) ∨ d.serial ≤ p'.residence
  counter : ∀ i p', d'.peers i = some p' → p'.session < d.serial → d.transmitCounter ≤ d'.transmitCounter
  counter_le : d.transmitCounter ≤ U64_MAX → d'.transmitCounter ≤ U64_MAX
  reassembly : ∀ i e, d'.rx.reassemblies i = some e → d.rx.reassemblies i = some e
  receipt : ∀ i r, d'.rx.receipts i = some r → d.rx.receipts i = some r
  receipt_left : ∀ j r, d'.rx.receipts j = some r → ∀ i p, d.peers i = some p → p.nodeId = r.source →
    ∃ p', d'.peers i = some p' ∧ Kept p p'
  message : ∀ i m, d'.rx.orderMessages i = some m → d.rx.orderMessages i = some m
  flow : ∀ i f, d'.rx.orderRx i = some f → d.rx.orderRx i = some f
  flow_kept : ∀ i f, d.rx.orderRx i = some f →
    d'.rx.orderRx i = some f ∨ ∀ j p, d'.peers j = some p → p.session ≠ f.session
  message_kept : ∀ i m, d.rx.orderMessages i = some m → d'.rx.orderMessages i = some m ∨
    ((∀ f, d.rx.orderRx m.flowIndex = some f → d'.rx.orderRx m.flowIndex ≠ some f) ∧
      ∀ j r, d'.rx.receipts j = some r → r.source ≠ m.message.source)

def Evolves (d d' : Device) : Prop := Owned d → Owned d' ∧ Sheds d d'

theorem Owned.flow_session_lt (ho : Owned d) {i : Fin ORDER_FLOW_LIMIT} (hf : d.rx.orderRx i = some f) :
    f.session < d.serial := by
  obtain ⟨j, p, hp, hown⟩ := ho.flow_owner i f hf
  exact hown.session ▸ ho.session_lt j p hp

theorem Sheds.refl (ho : Owned d) : Sheds d d where
  serial_le := Nat.le_refl _
  log := ⟨[], rfl, by simp, fun i p hp hge => absurd (ho.session_lt i p hp) (Nat.not_lt.mpr hge)⟩
  peer := fun _ p h => .inl ⟨p, h, Kept.refl p⟩
  stay := fun _ p h => .inl ⟨p, h, rfl, rfl⟩
  counter := fun _ _ _ _ => Nat.le_refl _
  counter_le := id
  reassembly := fun _ _ h => h
  receipt := fun _ _ h => h
  receipt_left := fun _ _ _ _ p hp _ => ⟨p, hp, Kept.refl p⟩
  message := fun _ _ h => h
  flow := fun _ _ h => h
  flow_kept := fun _ _ h => .inl h
  message_kept := fun _ _ h => .inl h

theorem Sheds.peer_trans (h₁ : Sheds d d') (h₂ : Sheds d' d'') {p'' : Peer} (hp : d''.peers i = some p'') :
    (∃ p p', d.peers i = some p ∧ d'.peers i = some p' ∧ Kept p p' ∧ Kept p' p'') ∨
    (∃ p', d'.peers i = some p' ∧ Renewed d p' ∧ Kept p' p'') ∨ Renewed d' p'' := by
  rcases h₂.peer i p'' hp with ⟨p', hp', hk'⟩ | hr
  · rcases h₁.peer i p' hp' with ⟨p, hp₀, hk⟩ | hr
    · exact .inl ⟨p, p', hp₀, hp', hk, hk'⟩
    · exact .inr (.inl ⟨p', hp', hr, hk'⟩)
  · exact .inr (.inr hr)

theorem Sheds.log_trans (h₁ : Sheds d d') (h₂ : Sheds d' d'') (ho : Owned d) :
    ∃ es, d''.log = es ++ d.log ∧ (∀ e ∈ es, e.IsInstall) ∧
      ∀ i p', d''.peers i = some p' → d.serial ≤ p'.session → p'.sessionReady = true →
        ∃ rk, Event.install p'.nodeId p'.transmitKey rk ∈ es := by
  obtain ⟨es₁, hlog₁, hes₁, hinst₁⟩ := h₁.log
  obtain ⟨es₂, hlog₂, hes₂, hinst₂⟩ := h₂.log
  refine ⟨es₂ ++ es₁, by rw [hlog₂, hlog₁, List.append_assoc], ?_, ?_⟩
  · intro e he
    rcases List.mem_append.mp he with he | he
    · exact hes₂ e he
    · exact hes₁ e he
  · intro i p'' hp hge hready
    rcases h₁.peer_trans h₂ hp with ⟨p, p', hp₀, -, hk, hk'⟩ | ⟨p', hp', -, hk'⟩ | hr
    · have := ho.session_lt i p hp₀
      rw [hk'.session, hk.session] at hge
      omega
    · obtain ⟨rk, hrk⟩ := hinst₁ i p' hp' (hk'.session ▸ hge) (hk'.sessionReady ▸ hready)
      exact ⟨rk, List.mem_append_right _ (by rw [hk'.nodeId, hk'.transmitKey]; exact hrk)⟩
    · obtain ⟨rk, hrk⟩ := hinst₂ i p'' hp hr.session_ge hready
      exact ⟨rk, List.mem_append_left _ hrk⟩

theorem Sheds.trans (h₁ : Sheds d d') (h₂ : Sheds d' d'') (ho : Owned d) : Sheds d d'' where
  serial_le := Nat.le_trans h₁.serial_le h₂.serial_le
  log := h₁.log_trans h₂ ho
  peer := by
    intro i p'' hp
    rcases h₁.peer_trans h₂ hp with ⟨p, p', hp₀, -, hk, hk'⟩ | ⟨p', -, hr, hk'⟩ | hr
    · exact .inl ⟨p, hp₀, hk.trans hk'⟩
    · exact .inr ⟨hk'.session ▸ hr.session_ge, hk'.receiveReplay.trans hr.receiveReplay⟩
    · exact .inr ⟨Nat.le_trans h₁.serial_le hr.session_ge, hr.receiveReplay⟩
  stay := by
    intro i p'' hp
    rcases h₂.stay i p'' hp with ⟨p', hp', hres', hnode'⟩ | hge
    · rcases h₁.stay i p' hp' with ⟨p, hp₀, hres, hnode⟩ | hge
      · exact .inl ⟨p, hp₀, hres'.trans hres, hnode'.trans hnode⟩
      · exact .inr (hres' ▸ hge)
    · exact .inr (Nat.le_trans h₁.serial_le hge)
  counter := by
    intro i p'' hp hlt
    rcases h₁.peer_trans h₂ hp with ⟨p, p', -, hp', hk, hk'⟩ | ⟨p', -, hr, hk'⟩ | hr
    · have hlt' : p'.session < d.serial := hk'.session ▸ hlt
      exact Nat.le_trans (h₁.counter i p' hp' hlt')
        (h₂.counter i p'' hp (Nat.lt_of_lt_of_le hlt h₁.serial_le))
    · have := hr.session_ge
      rw [hk'.session] at hlt
      omega
    · have := hr.session_ge
      have := h₁.serial_le
      omega
  counter_le := h₂.counter_le ∘ h₁.counter_le
  reassembly := fun i e h => h₁.reassembly i e (h₂.reassembly i e h)
  receipt := fun i r h => h₁.receipt i r (h₂.receipt i r h)
  receipt_left := by
    intro j r hr i p hp hn
    obtain ⟨p', hp', hk⟩ := h₁.receipt_left j r (h₂.receipt j r hr) i p hp hn
    obtain ⟨p'', hp'', hk'⟩ := h₂.receipt_left j r hr i p' hp' (hk.nodeId.trans hn)
    exact ⟨p'', hp'', hk.trans hk'⟩
  message := fun i m h => h₁.message i m (h₂.message i m h)
  flow := fun i f h => h₁.flow i f (h₂.flow i f h)
  flow_kept := by
    intro i f hf
    have hlt := ho.flow_session_lt hf
    rcases h₁.flow_kept i f hf with hf' | hgone
    · exact h₂.flow_kept i f hf'
    refine .inr fun j p'' hp => ?_
    rcases h₂.peer j p'' hp with ⟨p', hp', hk⟩ | hr
    · exact hk.session ▸ hgone j p' hp'
    · have := hr.session_ge
      have := h₁.serial_le
      omega
  message_kept := by
    intro i m hm
    rcases h₁.message_kept i m hm with hm' | ⟨hgone, hrec⟩
    · rcases h₂.message_kept i m hm' with hm'' | ⟨hgone, hrec⟩
      · exact .inl hm''
      · exact .inr ⟨fun f _ hf'' => hgone f (h₂.flow _ f hf'') hf'', hrec⟩
    · exact .inr ⟨fun f hf hf'' => hgone f hf (h₂.flow _ f hf''), fun j r hr => hrec j r (h₂.receipt j r hr)⟩

theorem Evolves.refl (d : Device) : Evolves d d := fun ho => ⟨ho, Sheds.refl ho⟩

theorem Evolves.trans (h₁ : Evolves d d') (h₂ : Evolves d' d'') : Evolves d d'' := by
  intro ho
  obtain ⟨ho', hs⟩ := h₁ ho
  obtain ⟨ho'', hs'⟩ := h₂ ho'
  exact ⟨ho'', hs.trans hs' ho⟩

theorem Evolves.foldl {α : Type} (f : Device → α → Device) (hf : ∀ d a, Evolves d (f d a)) (d : Device) (l : List α) :
    Evolves d (l.foldl f d) := by
  induction l generalizing d with
  | nil => exact Evolves.refl d
  | cons a l ih => exact (hf d a).trans (ih (f d a))

/-! ## Changes that end no session -/

/-- The step touches neither what is received nor any session. -/
structure Frame (d d' : Device) : Prop where
  rx : d'.rx = d.rx
  log : d'.log = d.log
  serial : d'.serial = d.serial
  counter : d.transmitCounter ≤ d'.transmitCounter
  counter_le : d.transmitCounter ≤ U64_MAX → d'.transmitCounter ≤ U64_MAX
  peers : ∀ i, (d'.peers i = none ∧ d.peers i = none) ∨
    ∃ p p', d.peers i = some p ∧ d'.peers i = some p' ∧ Kept p p'

theorem Frame.peer_of (h : Frame d d') (hp : d'.peers i = some p') :
    ∃ p, d.peers i = some p ∧ Kept p p' := by
  rcases h.peers i with ⟨hn, -⟩ | ⟨p, q, hp₀, hq, hk⟩
  · rw [hn] at hp
    cases hp
  · rw [hq, Option.some.injEq] at hp
    exact ⟨p, hp₀, hp ▸ hk⟩

theorem Frame.peer_to (h : Frame d d') (hp : d.peers i = some p) :
    ∃ p', d'.peers i = some p' ∧ Kept p p' := by
  rcases h.peers i with ⟨-, hn⟩ | ⟨q, p', hq, hp', hk⟩
  · rw [hn] at hp
    cases hp
  · rw [hq, Option.some.injEq] at hp
    exact ⟨p', hp', hp ▸ hk⟩

theorem Frame.owned (h : Frame d d') (ho : Owned d) : Owned d' where
  session_lt := by
    intro i p' hp'
    obtain ⟨p, hp, hk⟩ := h.peer_of hp'
    rw [hk.session, h.serial]
    exact ho.session_lt i p hp
  residence_lt := by
    intro i p' hp'
    obtain ⟨p, hp, hk⟩ := h.peer_of hp'
    rw [hk.residence, h.serial]
    exact ho.residence_lt i p hp
  session_inj := by
    intro i j p' q' hp' hq' heq
    obtain ⟨p, hp, hk⟩ := h.peer_of hp'
    obtain ⟨q, hq, hl⟩ := h.peer_of hq'
    exact ho.session_inj i j p q hp hq (by rw [← hk.session, ← hl.session, heq])
  residence_inj := by
    intro i j p' q' hp' hq' heq
    obtain ⟨p, hp, hk⟩ := h.peer_of hp'
    obtain ⟨q, hq, hl⟩ := h.peer_of hq'
    exact ho.residence_inj i j p q hp hq (by rw [← hk.residence, ← hl.residence, heq])
  node_inj := by
    intro i j p' q' hp' hq' heq
    obtain ⟨p, hp, hk⟩ := h.peer_of hp'
    obtain ⟨q, hq, hl⟩ := h.peer_of hq'
    exact ho.node_inj i j p q hp hq (by rw [← hk.nodeId, ← hl.nodeId, heq])
  flow_owner := by
    intro i f hf
    rw [h.rx] at hf
    obtain ⟨j, p, hp, hown⟩ := ho.flow_owner i f hf
    obtain ⟨p', hp', hk⟩ := h.peer_to hp
    exact ⟨j, p', hp', hown.kept hk⟩
  flow_inj := by
    rw [h.rx]
    exact ho.flow_inj
  message_flow := by
    rw [h.rx]
    exact ho.message_flow

theorem Frame.evolves (h : Frame d d') : Evolves d d' := by
  intro ho
  refine ⟨h.owned ho, ?_⟩
  refine
    { serial_le := Nat.le_of_eq h.serial.symm
      log := ⟨[], h.log, by simp, ?_⟩
      peer := fun i p' hp' => .inl (h.peer_of hp')
      stay := ?_
      counter := fun _ _ _ _ => h.counter
      counter_le := h.counter_le
      reassembly := by rw [h.rx]; exact fun _ _ hx => hx
      receipt := by rw [h.rx]; exact fun _ _ hx => hx
      receipt_left := fun _ _ _ _ _ hp _ => h.peer_to hp
      message := by rw [h.rx]; exact fun _ _ hx => hx
      flow := by rw [h.rx]; exact fun _ _ hx => hx
      flow_kept := by rw [h.rx]; exact fun _ _ hx => .inl hx
      message_kept := by rw [h.rx]; exact fun _ _ hx => .inl hx }
  · intro i p' hp' hge
    obtain ⟨p, hp, hk⟩ := h.peer_of hp'
    have := ho.session_lt i p hp
    rw [hk.session] at hge
    omega
  · intro i p' hp'
    obtain ⟨p, hp, hk⟩ := h.peer_of hp'
    exact .inl ⟨p, hp, hk.residence, hk.nodeId⟩

theorem Frame.of_peers (hrx : d'.rx = d.rx) (hlog : d'.log = d.log) (hserial : d'.serial = d.serial)
    (hcounter : d.transmitCounter ≤ d'.transmitCounter)
    (hle : d.transmitCounter ≤ U64_MAX → d'.transmitCounter ≤ U64_MAX) (hpeers : d'.peers = d.peers) : Frame d d' :=
  ⟨hrx, hlog, hserial, hcounter, hle, fun i => by
    rw [hpeers]
    cases h : d.peers i with
    | none => exact .inl ⟨rfl, rfl⟩
    | some p => exact .inr ⟨p, p, rfl, rfl, Kept.refl p⟩⟩

theorem Frame.of_set (hp : d.peers i = some p) (hk : Kept p p') :
    Frame d { d with peers := d.peers.set i p' } := by
  refine ⟨rfl, rfl, rfl, Nat.le_refl _, id, fun j => ?_⟩
  by_cases hj : j = i
  · subst hj
    exact .inr ⟨p, p', hp, Table.set_self _ _ _, hk⟩
  cases hq : d.peers j with
  | none => exact .inl ⟨(Table.set_of_ne _ _ hj).trans hq, rfl⟩
  | some q => exact .inr ⟨q, q, rfl, (Table.set_of_ne _ _ hj).trans hq, Kept.refl q⟩

/-! ## The end of one session -/

theorem rxPeerReset_reassembly {i : Fin REASSEMBLY_LIMIT} {e : Reassembly} :
    (rxPeerReset rx node).reassemblies i = some e ↔ rx.reassemblies i = some e ∧ e.source ≠ node := by
  simp [rxPeerReset, reassemblyClearWhere, Table.drop_eq_some]

theorem rxPeerReset_receipt {i : Fin RECEIPT_LIMIT} {r : Receipt} :
    (rxPeerReset rx node).receipts i = some r ↔ rx.receipts i = some r ∧ r.source ≠ node := by
  simp [rxPeerReset, Table.drop_eq_some]

theorem rxPeerReset_flow {i : Fin ORDER_FLOW_LIMIT} :
    (rxPeerReset rx node).orderRx i = some f ↔ rx.orderRx i = some f ∧ f.source ≠ node := by
  simp [rxPeerReset, Table.drop_eq_some]

theorem rxPeerReset_message {i : Fin ORDER_BUFFER_LIMIT} {m : OrderMessage} :
    (rxPeerReset rx node).orderMessages i = some m ↔
      rx.orderMessages i = some m ∧ ∀ f, rx.orderRx m.flowIndex = some f → f.source ≠ node := by
  cases hf : rx.orderRx m.flowIndex <;> simp [rxPeerReset, Table.drop_eq_some, hf]

/-- The session of the peer at slot `i` ends: its record goes or starts a new session, and what it sent is dropped. -/
structure Renews (d d' : Device) (i : Fin PEER_LIMIT) (p : Peer) : Prop where
  before : d.peers i = some p
  rx : d'.rx = rxPeerReset d.rx p.nodeId
  serial : d'.serial = d.serial + 1
  counter : d'.transmitCounter = d.transmitCounter
  others : ∀ j, j ≠ i → d'.peers j = d.peers j
  log : ∃ es, d'.log = es ++ d.log ∧ (∀ e ∈ es, e.IsInstall) ∧
    ∀ p', d'.peers i = some p' → p'.session = d.serial ∧ p'.residence = p.residence ∧ p'.nodeId = p.nodeId ∧
      p'.receiveReplay = replayReset ∧ (p'.sessionReady = true → ∃ rk, Event.install p'.nodeId p'.transmitKey rk ∈ es)

theorem Renews.at_slot (h : Renews d d' i p) (hp' : d'.peers j = some p') :
    (j ≠ i ∧ d.peers j = some p') ∨ (j = i ∧ p'.session = d.serial ∧ p'.residence = p.residence ∧ p'.nodeId = p.nodeId ∧
      p'.receiveReplay = replayReset) := by
  by_cases hj : j = i
  · subst hj
    obtain ⟨es, -, -, hes⟩ := h.log
    obtain ⟨h1, h2, h3, h4, -⟩ := hes p' hp'
    exact .inr ⟨rfl, h1, h2, h3, h4⟩
  · exact .inl ⟨hj, (h.others j hj) ▸ hp'⟩

theorem Renews.owned (h : Renews d d' i p) (ho : Owned d) :
    Owned d' where
  session_lt := by
    intro j p' hp'
    rcases h.at_slot hp' with ⟨-, hp⟩ | ⟨-, hs, -⟩
    · have := ho.session_lt j p' hp
      rw [h.serial]
      omega
    · rw [h.serial, hs]
      omega
  residence_lt := by
    intro j p' hp'
    rcases h.at_slot hp' with ⟨-, hp⟩ | ⟨-, -, hr, -⟩
    · have := ho.residence_lt j p' hp
      rw [h.serial]
      omega
    · have := ho.residence_lt i p h.before
      rw [h.serial, hr]
      omega
  session_inj := by
    intro j k p' q' hp' hq' heq
    rcases h.at_slot hp' with ⟨-, hp⟩ | ⟨rfl, hs, -⟩ <;> rcases h.at_slot hq' with ⟨-, hq⟩ | ⟨rfl, ht, -⟩
    · exact ho.session_inj j k p' q' hp hq heq
    · have := ho.session_lt j p' hp
      omega
    · have := ho.session_lt k q' hq
      omega
    · rfl
  residence_inj := by
    intro j k p' q' hp' hq' heq
    rcases h.at_slot hp' with ⟨-, hp⟩ | ⟨rfl, -, hr, -⟩ <;> rcases h.at_slot hq' with ⟨-, hq⟩ | ⟨rfl, -, hr', -⟩
    · exact ho.residence_inj j k p' q' hp hq heq
    · exact ho.residence_inj j _ p' p hp h.before (heq.trans hr')
    · exact ho.residence_inj _ k p q' h.before hq (hr.symm.trans heq)
    · rfl
  node_inj := by
    intro j k p' q' hp' hq' heq
    rcases h.at_slot hp' with ⟨-, hp⟩ | ⟨rfl, -, -, hn, -⟩ <;> rcases h.at_slot hq' with ⟨-, hq⟩ | ⟨rfl, -, -, hn', -⟩
    · exact ho.node_inj j k p' q' hp hq heq
    · exact ho.node_inj j _ p' p hp h.before (heq.trans hn')
    · exact ho.node_inj _ k p q' h.before hq (hn.symm.trans heq)
    · rfl
  flow_owner := by
    intro k f hf
    rw [h.rx, rxPeerReset_flow] at hf
    obtain ⟨j, q, hq, hown⟩ := ho.flow_owner k f hf.1
    have hj : j ≠ i := by
      rintro rfl
      rw [h.before, Option.some.injEq] at hq
      exact hf.2 (by rw [← hown.nodeId, hq])
    exact ⟨j, q, (h.others j hj).trans hq, hown⟩
  flow_inj := by
    intro j k f g hf hg
    rw [h.rx, rxPeerReset_flow] at hf hg
    exact ho.flow_inj j k f g hf.1 hg.1
  message_flow := by
    intro k m hm
    rw [h.rx, rxPeerReset_message] at hm
    obtain ⟨f, hf, hfit⟩ := ho.message_flow k m hm.1
    exact ⟨f, by rw [h.rx, rxPeerReset_flow]; exact ⟨hf, hm.2 f hf⟩, hfit⟩

theorem Renews.evolves (h : Renews d d' i p) : Evolves d d' := by
  intro ho
  refine ⟨h.owned ho, ?_⟩
  obtain ⟨es, hlog, hes, hnew⟩ := h.log
  refine
    { serial_le := by rw [h.serial]; omega
      log := ⟨es, hlog, hes, ?_⟩
      peer := ?_
      stay := ?_
      counter := fun _ _ _ _ => Nat.le_of_eq h.counter.symm
      counter_le := by rw [h.counter]; exact id
      reassembly := fun k e he => (rxPeerReset_reassembly.mp (h.rx ▸ he)).1
      receipt := fun k r hr => (rxPeerReset_receipt.mp (h.rx ▸ hr)).1
      receipt_left := ?_
      message := fun k m hm => (rxPeerReset_message.mp (h.rx ▸ hm)).1
      flow := fun k f hf => (rxPeerReset_flow.mp (h.rx ▸ hf)).1
      flow_kept := ?_
      message_kept := ?_ }
  · intro j p' hp' hge hready
    by_cases hj : j = i
    · subst hj
      exact (hnew p' hp').2.2.2.2 hready
    · have := ho.session_lt j p' ((h.others j hj) ▸ hp')
      omega
  · intro j p' hp'
    rcases h.at_slot hp' with ⟨-, hp⟩ | ⟨-, hs, -, -, hr⟩
    · exact .inl ⟨p', hp, Kept.refl p'⟩
    · exact .inr ⟨Nat.le_of_eq hs.symm, hr⟩
  · intro j p' hp'
    rcases h.at_slot hp' with ⟨-, hp⟩ | ⟨rfl, -, hr, hn, -⟩
    · exact .inl ⟨p', hp, rfl, rfl⟩
    · exact .inl ⟨p, h.before, hr, hn⟩
  · intro k r hr j q hq hn
    rw [h.rx, rxPeerReset_receipt] at hr
    have hj : j ≠ i := by
      rintro rfl
      rw [h.before, Option.some.injEq] at hq
      exact hr.2 (by rw [← hn, hq])
    exact ⟨q, (h.others j hj).trans hq, Kept.refl q⟩
  · intro k f hf
    by_cases hsrc : f.source = p.nodeId
    · refine .inr fun j p' hp' => ?_
      -- the flow belongs to the session that ended
      obtain ⟨l, q, hq, hown⟩ := ho.flow_owner k f hf
      have hl : l = i := ho.node_inj l i q p hq h.before (hown.nodeId.trans hsrc)
      subst hl
      rcases h.at_slot hp' with ⟨hj, hp⟩ | ⟨-, hses, -⟩
      · exact fun heq => hj (ho.session_inj j l p' q hp hq (heq.trans hown.session.symm))
      · have := ho.flow_session_lt hf
        omega
    · exact .inl (by rw [h.rx, rxPeerReset_flow]; exact ⟨hf, hsrc⟩)
  · intro k m hm
    obtain ⟨f, hf, hfit⟩ := ho.message_flow k m hm
    by_cases hnode : f.source = p.nodeId
    · refine .inr ⟨fun g hg hg' => ?_, fun j r hr => ?_⟩
      · rw [hf, Option.some.injEq] at hg
        rw [h.rx, rxPeerReset_flow] at hg'
        exact hg'.2 (hg ▸ hnode)
      · rw [h.rx, rxPeerReset_receipt] at hr
        rw [← hfit.source, hnode]
        exact hr.2
    · refine .inl ?_
      rw [h.rx, rxPeerReset_message]
      refine ⟨hm, fun g hg => ?_⟩
      rw [hf, Option.some.injEq] at hg
      exact hg ▸ hnode

theorem peerSessionResetLocked_some (hp : d.peers i = some p) :
    peerSessionResetLocked d i = { dataPeerResetLocked d p.nodeId with
      peers := d.peers.set i (p.sessionReset d.serial), serial := d.serial + 1 } := by
  simp only [peerSessionResetLocked, hp]

theorem peerSessionResetLocked_renews (hp : d.peers i = some p) :
    Renews d (peerSessionResetLocked d i) i p := by
  rw [peerSessionResetLocked_some hp]
  refine ⟨hp, by simp only [dataPeerResetLocked], rfl, by simp only [dataPeerResetLocked],
    fun j hj => Table.set_of_ne _ _ hj, [], by simp only [dataPeerResetLocked, List.nil_append], by simp,
    fun p' hp' => ?_⟩
  simp only [Table.set_self, Option.some.injEq] at hp'
  subst hp'
  exact ⟨rfl, rfl, rfl, rfl, by simp [Peer.sessionReset]⟩

theorem peerSessionResetLocked_none (hp : d.peers i = none) :
    peerSessionResetLocked d i = d := by
  simp [peerSessionResetLocked, hp]

theorem peerSessionResetLocked_evolves (d : Device) (i : Fin PEER_LIMIT) :
    Evolves d (peerSessionResetLocked d i) := by
  cases hp : d.peers i with
  | none => rw [peerSessionResetLocked_none hp]; exact Evolves.refl d
  | some p => exact (peerSessionResetLocked_renews hp).evolves

theorem peerForget_evolves (d : Device) (i : Fin PEER_LIMIT) :
    Evolves d { peerSessionResetLocked d i with peers := (peerSessionResetLocked d i).peers.clear i } := by
  cases hp : d.peers i with
  | none =>
    rw [peerSessionResetLocked_none hp]
    have hclear : d.peers.clear i = d.peers := by
      funext j
      rw [Table.clear_apply]
      split_ifs with hj
      · rw [hj, hp]
      · rfl
    rw [hclear]
    exact Evolves.refl d
  | some p =>
    have h := peerSessionResetLocked_renews hp
    refine Renews.evolves (i := i) (p := p) ⟨hp, h.rx, h.serial, h.counter, fun j hj => ?_, ?_⟩
    · rw [← h.others j hj]
      exact Table.clear_of_ne _ hj
    · obtain ⟨es, hlog, hes, -⟩ := h.log
      exact ⟨es, hlog, hes, fun p' hp' => by simp at hp'⟩

theorem installSession_evolves {p₀ : Peer} (hp : d.peers i = some p₀) (hnode : p.nodeId = p₀.nodeId)
    (hres : p.residence = p₀.residence) (tk rk : Octets) :
    Evolves d (installSession d i p tk rk) := by
  refine Renews.evolves (i := i) (p := p₀) ⟨hp, ?_, rfl, ?_, fun j hj => Table.set_of_ne _ _ hj,
    [.install p.nodeId tk rk], rfl, ?_, fun p' hp' => ?_⟩
  · simp only [installSession, dataPeerResetLocked, hnode]
  · simp only [installSession, dataPeerResetLocked]
  · intro e he
    rw [List.mem_singleton] at he
    subst he
    trivial
  · simp only [installSession, Table.set_self, Option.some.injEq] at hp'
    subst hp'
    exact ⟨rfl, hres, hnode, rfl, fun _ => ⟨rk, List.mem_singleton.mpr rfl⟩⟩

/-! ## Claims -/

theorem peerByNode_some (h : peerByNode d node = some i) :
    ∃ p, d.peers i = some p ∧ p.nodeId = node := by
  obtain ⟨p, hp, hn⟩ := Table.find?_some h
  exact ⟨p, hp, by simpa using hn⟩

theorem peerSlot_cases (h : peerSlot d node = some i) :
    (d.peers i = none ∧ ∀ j p, d.peers j = some p → p.nodeId ≠ node) ∨ ∃ p, d.peers i = some p ∧ p.nodeId = node := by
  unfold peerSlot at h
  cases hf : peerByNode d node with
  | none =>
    rw [hf, Option.none_or] at h
    refine .inl ⟨Table.free?_some h, fun j p hp => ?_⟩
    simpa using Table.find?_none hf hp
  | some k =>
    rw [hf, Option.some_or, Option.some.injEq] at h
    subst h
    exact .inr (peerByNode_some hf)

theorem claimNew_evolves (hfree : d.peers i = none) (hnew : ∀ j p, d.peers j = some p → p.nodeId ≠ c.nodeId) :
    Evolves d { d with peers := d.peers.set i (c.newPeer d.serial), serial := d.serial + 1 } := by
  intro ho
  have hat : ∀ j p', d.peers.set i (c.newPeer d.serial) j = some p' →
      (j ≠ i ∧ d.peers j = some p') ∨ (j = i ∧ p' = c.newPeer d.serial) := by
    intro j p' hp'
    rw [Table.set_apply] at hp'
    split_ifs at hp' with hj
    · exact .inr ⟨hj, (Option.some.inj hp').symm⟩
    · exact .inl ⟨hj, hp'⟩
  refine ⟨⟨?_, ?_, ?_, ?_, ?_, ?_, ho.flow_inj, ho.message_flow⟩, ?_⟩
  · intro j p' hp'
    rcases hat j p' hp' with ⟨-, hp⟩ | ⟨-, rfl⟩
    · exact Nat.lt_succ_of_lt (ho.session_lt j p' hp)
    · exact Nat.lt_succ_self _
  · intro j p' hp'
    rcases hat j p' hp' with ⟨-, hp⟩ | ⟨-, rfl⟩
    · exact Nat.lt_succ_of_lt (ho.residence_lt j p' hp)
    · exact Nat.lt_succ_self _
  · intro j k p' q' hp' hq' heq
    rcases hat j p' hp' with ⟨-, hp⟩ | ⟨rfl, rfl⟩ <;> rcases hat k q' hq' with ⟨-, hq⟩ | ⟨rfl, rfl⟩
    · exact ho.session_inj j k p' q' hp hq heq
    · exact absurd heq (Nat.ne_of_lt (ho.session_lt j p' hp))
    · exact absurd heq.symm (Nat.ne_of_lt (ho.session_lt k q' hq))
    · rfl
  · intro j k p' q' hp' hq' heq
    rcases hat j p' hp' with ⟨-, hp⟩ | ⟨rfl, rfl⟩ <;> rcases hat k q' hq' with ⟨-, hq⟩ | ⟨rfl, rfl⟩
    · exact ho.residence_inj j k p' q' hp hq heq
    · exact absurd heq (Nat.ne_of_lt (ho.residence_lt j p' hp))
    · exact absurd heq.symm (Nat.ne_of_lt (ho.residence_lt k q' hq))
    · rfl
  · intro j k p' q' hp' hq' heq
    rcases hat j p' hp' with ⟨-, hp⟩ | ⟨rfl, rfl⟩ <;> rcases hat k q' hq' with ⟨-, hq⟩ | ⟨rfl, rfl⟩
    · exact ho.node_inj j k p' q' hp hq heq
    · exact absurd heq (hnew j p' hp)
    · exact absurd heq.symm (hnew k q' hq)
    · rfl
  · intro k f hf
    obtain ⟨j, p, hp, hown⟩ := ho.flow_owner k f hf
    have hj : j ≠ i := by rintro rfl; rw [hfree] at hp; cases hp
    exact ⟨j, p, (Table.set_of_ne _ _ hj).trans hp, hown⟩
  · refine
      { serial_le := Nat.le_succ _
        log := ⟨[], rfl, by simp, ?_⟩
        peer := ?_
        stay := ?_
        counter := fun _ _ _ _ => Nat.le_refl _
        counter_le := id
        reassembly := fun _ _ h => h
        receipt := fun _ _ h => h
        receipt_left := ?_
        message := fun _ _ h => h
        flow := fun _ _ h => h
        flow_kept := fun _ _ h => .inl h
        message_kept := fun _ _ h => .inl h }
    · intro j p' hp' hge hready
      rcases hat j p' hp' with ⟨-, hp⟩ | ⟨-, rfl⟩
      · exact absurd (ho.session_lt j p' hp) (Nat.not_lt.mpr hge)
      · simp [Claim.newPeer] at hready
    · intro j p' hp'
      rcases hat j p' hp' with ⟨-, hp⟩ | ⟨-, rfl⟩
      · exact .inl ⟨p', hp, Kept.refl p'⟩
      · exact .inr ⟨Nat.le_refl _, rfl⟩
    · intro j p' hp'
      rcases hat j p' hp' with ⟨-, hp⟩ | ⟨-, rfl⟩
      · exact .inl ⟨p', hp, rfl, rfl⟩
      · exact .inr (Nat.le_refl _)
    · intro k r _ j p hp _
      have hj : j ≠ i := by rintro rfl; rw [hfree] at hp; cases hp
      exact ⟨p, (Table.set_of_ne _ _ hj).trans hp, Kept.refl p⟩

theorem Claim.update_kept (hnode : p.nodeId = c.nodeId) (hm : c.matchesPeer p = true) :
    Kept p (c.update p) := by
  simp only [Claim.matchesPeer, Bool.and_eq_true, decide_eq_true_eq] at hm
  exact ⟨rfl, rfl, hnode.symm, hm.1.1.1, rfl, rfl, rfl, rfl⟩

theorem claimWrite_matches (hp : d.peers i = some p) (hm : c.matchesPeer p = true) :
    claimWrite d c i = { d with peers := d.peers.set i (c.update p) } := by
  simp only [claimWrite, hp, hm, if_true, Option.map_some]
  congr 1
  funext j
  rw [Table.set_apply]

theorem claimWrite_differs (hp : d.peers i = some p) (hm : c.matchesPeer p = false) :
    claimWrite d c i = { peerSessionResetLocked d i with
      peers := d.peers.set i (c.update (p.sessionReset d.serial)) } := by
  simp only [claimWrite, hp, hm, Bool.false_eq_true, if_false, peerSessionResetLocked_some hp, Table.set_self,
    Option.map_some]
  congr 1
  funext j
  simp only [Table.set_apply]
  split_ifs <;> rfl

theorem claimUpdate_evolves (hp : d.peers i = some p) (hnode : p.nodeId = c.nodeId) : Evolves d (claimWrite d c i) := by
  cases hm : c.matchesPeer p with
  | true =>
    rw [claimWrite_matches hp hm]
    exact (Frame.of_set hp (Claim.update_kept hnode hm)).evolves
  | false =>
    have h := peerSessionResetLocked_renews hp
    obtain ⟨es, hlog, hes, -⟩ := h.log
    rw [claimWrite_differs hp hm]
    refine Renews.evolves (i := i) (p := p) ⟨hp, h.rx, h.serial, h.counter, fun j hj => Table.set_of_ne _ _ hj,
      es, hlog, hes, fun p' hp' => ?_⟩
    simp only [Table.set_self, Option.some.injEq] at hp'
    subst hp'
    exact ⟨rfl, rfl, hnode.symm, rfl, fun hready => by simp [Claim.update, Peer.sessionReset] at hready⟩

theorem claimWrite_evolves (h : peerSlot d c.nodeId = some i) :
    Evolves d (claimWrite d c i) := by
  rcases peerSlot_cases h with ⟨hfree, hnew⟩ | ⟨p, hp, hn⟩
  · unfold claimWrite
    rw [hfree]
    exact claimNew_evolves hfree hnew
  · exact claimUpdate_evolves hp hn

/-! ## Changes that keep every record -/

theorem conflictsRecompute_frame (d : Device) : Frame d (conflictsRecomputeLocked d) := by
  refine ⟨rfl, rfl, rfl, Nat.le_refl _, id, fun i => ?_⟩
  cases hp : d.peers i with
  | none => exact .inl ⟨by rw [conflictsRecomputeLocked_apply, hp]; rfl, rfl⟩
  | some p =>
    refine .inr ⟨p, _, rfl, (conflictsRecomputeLocked_apply d i).trans (congrArg (Option.map _) hp), ?_⟩
    exact ⟨rfl, rfl, rfl, rfl, rfl, rfl, rfl, rfl⟩

/-! ## All sessions at once -/

theorem resetAllSessions_evolves (d : Device) : Evolves d (resetAllSessions d) :=
  Evolves.foldl _ peerSessionResetLocked_evolves d _

theorem dataReset_owned (hpeers : d₀.peers = d.peers) (hserial : d₀.serial = d.serial) (ho : Owned d) :
    Owned (dataResetLocked d₀) where
  session_lt := by
    intro i p hp
    exact hserial ▸ ho.session_lt i p (hpeers ▸ hp)
  residence_lt := by
    intro i p hp
    exact hserial ▸ ho.residence_lt i p (hpeers ▸ hp)
  session_inj := fun i j p q hp hq => ho.session_inj i j p q (hpeers ▸ hp) (hpeers ▸ hq)
  residence_inj := fun i j p q hp hq => ho.residence_inj i j p q (hpeers ▸ hp) (hpeers ▸ hq)
  node_inj := fun i j p q hp hq => ho.node_inj i j p q (hpeers ▸ hp) (hpeers ▸ hq)
  flow_owner := by
    intro i f hf
    simp [dataResetLocked, dataOrderResetLocked, Table.empty] at hf
  flow_inj := by
    intro i j f g hf
    simp [dataResetLocked, dataOrderResetLocked, Table.empty] at hf
  message_flow := by
    intro i m hm
    simp [dataResetLocked, dataOrderResetLocked, Table.empty] at hm

theorem discoveryReset_evolves (hpeers : d₀.peers = d.peers) (hserial : d₀.serial = d.serial) (hlog : d₀.log = d.log)
    (hle : d.transmitCounter ≤ U64_MAX → d₀.transmitCounter ≤ U64_MAX) :
    Evolves d (discoveryResetLocked (dataResetLocked d₀)) := by
  intro ho
  obtain ⟨ho', hs⟩ := resetAllSessions_evolves _ (dataReset_owned hpeers hserial ho)
  have hno : ∀ i, (discoveryResetLocked (dataResetLocked d₀)).peers i = none := fun _ => rfl
  have hreasm : ∀ i, (discoveryResetLocked (dataResetLocked d₀)).rx.reassemblies i = none := fun i =>
    Option.eq_none_iff_forall_ne_some.mpr fun e he => by
      have := hs.reassembly i e he
      simp [dataResetLocked, dataOrderResetLocked, dataReassemblyResetLocked, Table.empty] at this
  have hrec : ∀ i, (discoveryResetLocked (dataResetLocked d₀)).rx.receipts i = none := fun i =>
    Option.eq_none_iff_forall_ne_some.mpr fun e he => by
      have := hs.receipt i e he
      simp [dataResetLocked, dataOrderResetLocked, dataReassemblyResetLocked, Table.empty] at this
  have hmsg : ∀ i, (discoveryResetLocked (dataResetLocked d₀)).rx.orderMessages i = none := fun i =>
    Option.eq_none_iff_forall_ne_some.mpr fun e he => by
      have := hs.message i e he
      simp [dataResetLocked, dataOrderResetLocked, Table.empty] at this
  have hflow : ∀ i, (discoveryResetLocked (dataResetLocked d₀)).rx.orderRx i = none := fun i =>
    Option.eq_none_iff_forall_ne_some.mpr fun e he => by
      have := hs.flow i e he
      simp [dataResetLocked, dataOrderResetLocked, Table.empty] at this
  obtain ⟨es, hes, hinst, -⟩ := hs.log
  have hpeer : ∀ {i p}, (discoveryResetLocked (dataResetLocked d₀)).peers i ≠ some p := fun h => by cases h
  refine ⟨⟨?_, ?_, ?_, ?_, ?_, ?_, ?_, ?_⟩, ?_⟩
  · exact fun _ _ h => absurd h hpeer
  · exact fun _ _ h => absurd h hpeer
  · exact fun _ _ _ _ h => absurd h hpeer
  · exact fun _ _ _ _ h => absurd h hpeer
  · exact fun _ _ _ _ h => absurd h hpeer
  · exact fun i f h => absurd ((hflow i).symm.trans h) (by simp)
  · exact fun i _ _ _ h => absurd ((hflow i).symm.trans h) (by simp)
  · exact fun i m h => absurd ((hmsg i).symm.trans h) (by simp)
  exact
    { serial_le := hserial ▸ hs.serial_le
      log := ⟨es, hlog ▸ hes, hinst, fun _ _ h => absurd h hpeer⟩
      peer := fun _ _ h => absurd h hpeer
      stay := fun _ _ h => absurd h hpeer
      counter := fun _ _ h => absurd h hpeer
      counter_le := hs.counter_le ∘ hle
      reassembly := fun i e h => absurd ((hreasm i).symm.trans h) (by simp)
      receipt := fun i r h => absurd ((hrec i).symm.trans h) (by simp)
      receipt_left := fun i r h => absurd ((hrec i).symm.trans h) (by simp)
      message := fun i m h => absurd ((hmsg i).symm.trans h) (by simp)
      flow := fun i f h => absurd ((hflow i).symm.trans h) (by simp)
      flow_kept := fun _ _ _ => .inr fun _ _ h => absurd h hpeer
      message_kept := fun _ m _ => .inr ⟨fun f _ h => absurd ((hflow _).symm.trans h) (by simp),
        fun j r h => absurd ((hrec j).symm.trans h) (by simp)⟩ }

theorem peerSessionResetLocked_session (hp' : (peerSessionResetLocked d i).peers j = some p') :
    (j ≠ i ∧ d.peers j = some p') ∨ d.serial ≤ p'.session := by
  cases hp : d.peers i with
  | none =>
    rw [peerSessionResetLocked_none hp] at hp'
    refine .inl ⟨?_, hp'⟩
    rintro rfl
    rw [hp] at hp'
    cases hp'
  | some p =>
    rcases (peerSessionResetLocked_renews hp).at_slot hp' with h | ⟨-, hs, -⟩
    · exact .inl h
    · exact .inr (Nat.le_of_eq hs.symm)

theorem resetSessions_session {n : Nat} (l : List (Fin PEER_LIMIT)) (d : Device) (ho : Owned d) (hn : n ≤ d.serial)
    (hd : ∀ i p, i ∉ l → d.peers i = some p → n ≤ p.session) :
    ∀ i p, (l.foldl peerSessionResetLocked d).peers i = some p → n ≤ p.session := by
  induction l generalizing d with
  | nil => exact fun i p => hd i p (by simp)
  | cons a l ih =>
    obtain ⟨ho', hs⟩ := peerSessionResetLocked_evolves d a ho
    refine ih _ ho' (Nat.le_trans hn hs.serial_le) fun i p hi hp => ?_
    rcases peerSessionResetLocked_session hp with ⟨hne, hp⟩ | hge
    · exact hd i p (by simp [hne, hi]) hp
    · exact Nat.le_trans hn hge

theorem resetAllSessions_flow (ho : Owned d) (i : Fin ORDER_FLOW_LIMIT) :
    (resetAllSessions d).rx.orderRx i = none := by
  obtain ⟨ho', hs⟩ := resetAllSessions_evolves d ho
  refine Option.eq_none_iff_forall_ne_some.mpr fun f hf => ?_
  obtain ⟨j, p, hp, hown⟩ := ho'.flow_owner i f hf
  have hge : d.serial ≤ p.session :=
    resetSessions_session _ d ho (Nat.le_refl _) (fun i _ hi => absurd (List.mem_finRange i) hi) j p hp
  have hlt : f.session < d.serial := ho.flow_session_lt (hs.flow i f hf)
  rw [hown.session] at hge
  omega

theorem dataReset_evolves (hflow : ∀ i, d.rx.orderRx i = none) : Evolves d (dataResetLocked d) := by
  intro ho
  have hmsg : ∀ i m, d.rx.orderMessages i ≠ some m := by
    intro i m hm
    obtain ⟨f, hf, -⟩ := ho.message_flow i m hm
    rw [hflow] at hf
    cases hf
  refine ⟨dataReset_owned rfl rfl ho, ?_⟩
  exact
    { Sheds.refl ho with
      log := (Sheds.refl ho).log
      reassembly := fun _ _ h => by cases h
      receipt := fun _ _ h => by cases h
      receipt_left := fun _ _ h => by cases h
      message := fun _ _ h => by cases h
      flow := fun _ _ h => by cases h
      flow_kept := fun i _ h => by rw [hflow i] at h; cases h
      message_kept := fun i m h => absurd h (hmsg i m) }

theorem localReassign_evolves (P : Platform) (d : Device) : Evolves d (localReassignLocked P d).1 := by
  unfold localReassignLocked
  split
  · exact Evolves.refl d
  split
  · exact Evolves.refl d
  rename_i nativeLocator round _
  have hframe : Frame d { d with
      localNativeLocator := nativeLocator, localCollisionRound := UInt32.ofNat round, conflictPending := true } :=
    Frame.of_peers rfl rfl rfl (Nat.le_refl _) id rfl
  exact hframe.evolves.trans fun ho =>
    ((resetAllSessions_evolves _).trans (dataReset_evolves (resetAllSessions_flow ho))) ho

/-! ## The frames of discovery -/

theorem claimCheck_slot (h : claimCheck P d c = .ok i) : peerSlot d c.nodeId = some i := by
  unfold claimCheck at h
  repeat' split at h
  all_goals first
    | cases h; done
    | assumption
    | simp_all

theorem claimLocked_evolves (P : Platform) (d : Device) (c : Claim) (resolveLocal : Bool) :
    Evolves d (claimLocked P d c resolveLocal).1 := by
  unfold claimLocked
  cases hc : claimCheck P d c with
  | error e => exact Evolves.refl d
  | ok i =>
    have hw := claimWrite_evolves (claimCheck_slot hc)
    dsimp only
    split_ifs
    · have hr := localReassign_evolves P (claimWrite d c i)
      have hf := conflictsRecompute_frame (localReassignLocked P (claimWrite d c i)).1
      split <;> rename_i hl <;> rw [hl] at hr hf <;> exact (hw.trans hr).trans hf.evolves
    · exact hw.trans (conflictsRecompute_frame _).evolves
    · exact hw.trans (conflictsRecompute_frame _).evolves

theorem Passive.frame (h : Passive op d d') : Frame d d' :=
  Frame.of_peers h.rx h.log h.serial h.counter h.counter_le h.peers

theorem Peer.Annotates.kept (h : p.Annotates p') : Kept p p' := by
  obtain ⟨_, _, _, _, _, _, rfl⟩ := h
  exact ⟨rfl, rfl, rfl, rfl, rfl, rfl, rfl, rfl⟩

theorem Settles.evolves (h : Settles op d i d') : Evolves d d' := by
  cases h with
  | nothing => exact Evolves.refl d
  | notes hp hn => exact (Frame.of_set hp hn.kept).evolves
  | restarts _ hp hn => exact (Frame.of_set hp hn.kept).evolves.trans (peerSessionResetLocked_evolves _ _)
  | installs _ hp hn h =>
    exact (installSession_evolves hp hn.kept.nodeId hn.kept.residence _ _).trans h.frame.evolves

/-! ## All control operations -/

theorem peerExpire_evolves (jiffies : UInt64) (d : Device) (i : Fin PEER_LIMIT) :
    Evolves d (peerExpire jiffies d i) := by
  unfold peerExpire
  split
  · exact Evolves.refl d
  split_ifs
  · exact Evolves.refl d
  · exact peerForget_evolves d i

theorem peerExpiryWork_evolves (d : Device) (jiffies : UInt64) : Evolves d (peerExpiryWork d jiffies) :=
  (Evolves.foldl _ (peerExpire_evolves jiffies) d _).trans (conflictsRecompute_frame _).evolves

theorem identityRestart_frame (d : Device) (o : IdentityOpened) (configure : Bool) :
    Frame d (identityRestart d o configure) := by
  unfold identityRestart
  dsimp only
  split_ifs <;> exact Frame.of_peers rfl rfl rfl (Nat.le_refl _) id rfl

theorem identityCommit_evolves (d : Device) (o : IdentityOpened) (configure : Bool) :
    Evolves d (identityCommit d o configure) := by
  unfold identityCommit
  refine Evolves.trans (discoveryReset_evolves ?_ ?_ ?_ ?_) (identityRestart_frame _ o configure).evolves
  · rfl
  · rfl
  · rfl
  · exact fun _ => Nat.zero_le _

theorem Operates.evolves (h : Operates P d op d') : Evolves d d' := by
  cases h with
  | passes _ h => exact h.frame.evolves
  | @refused c resolveLocal _ _ _ h =>
    have hc := claimLocked_evolves P d c resolveLocal
    rw [h] at hc
    exact hc
  | @claims c resolveLocal _ _ _ _ h hs =>
    have hc := claimLocked_evolves P d c resolveLocal
    rw [h] at hc
    exact hc.trans hs.evolves
  | challenges _ hp hn h => exact (Frame.of_set hp hn.kept).evolves.trans h.frame.evolves
  | resets _ _ _ h => exact h.frame.evolves.trans (peerSessionResetLocked_evolves _ _)
  | expires _ => exact peerExpiryWork_evolves d _
  | identity _ => exact identityCommit_evolves d _ _
  | detaches _ h => exact (discoveryReset_evolves rfl rfl rfl id).trans h.frame.evolves

theorem controlStep_evolves (P : Platform) (d : Device) (c : Control) : Evolves d (controlStep P d c) :=
  (controlStep_operates P d c).evolves

end Melodi
