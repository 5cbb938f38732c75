import Melodi.Core.Selection
import Melodi.System.Entries

/-!
# The turn records of peers and flows

Data entries and reservations refer to the records that say when their peer and their flow had their last turn. A
record is created when a frame or a reservation needs it, and freed with the last one that refers to it.
-/

namespace Melodi
open Lib
variable {flow k peer : Fin TX_FLOW_LIMIT} {r : QueueRequest} {e : TxEntry} {entryIndex : TxEntry → Fin TX_FLOW_LIMIT}
  {q q' : TxQueue} {v : TxReservation} {index : TxReservation → Fin TX_FLOW_LIMIT} {locator : UInt32}
variable {q'' : TxQueue} {α κ : Type} {t t' : Table TX_FLOW_LIMIT α}

def TxQueue.agenda (q : TxQueue) : Table TX_QUEUE_LIMIT TxEntry × Table TX_RESERVATION_LIMIT TxReservation ×
    Table TX_FLOW_LIMIT TxPeerTurn × Table TX_FLOW_LIMIT TxFlowTurn × Nat × Nat × Nat :=
  (q.entries, q.reservations, q.peers, q.flows, q.schedulerTurn, q.prioritySlot, q.queueSequence)

/-! ## What refers to a record -/

structure TurnKey where
  locator : UInt32
  bindingPortid : UInt32
  bindingGeneration : UInt64
  service : UInt16
  deriving DecidableEq, Repr

def TxEntry.turnKey (e : TxEntry) : TurnKey :=
  ⟨e.metadata.destinationLocator, e.bindingPortid, e.bindingGeneration, e.service⟩

def TxReservation.turnKey (v : TxReservation) : TurnKey := ⟨v.locator, v.bindingPortid, v.bindingGeneration, v.service⟩

def TxFlowTurn.turnKey (f : TxFlowTurn) : TurnKey := ⟨f.locator, f.bindingPortid, f.bindingGeneration, f.service⟩

def QueueRequest.turnKey (r : QueueRequest) (locator : UInt32) : TurnKey :=
  ⟨locator, r.bindingPortid, r.bindingGeneration, r.service⟩

theorem TxEntry.Tended.turnKey {e' : TxEntry} (h : e.Tended e') :
    e'.turnKey = e.turnKey ∧ e'.control = e.control ∧ e'.peerIndex = e.peerIndex ∧ e'.flowIndex = e.flowIndex ∧
      e'.priority = e.priority := by
  rw [h.same]
  exact ⟨rfl, rfl, rfl, rfl, rfl⟩

theorem TxReservation.Noted.turnKey {v' : TxReservation} (h : v.Noted v') :
    v'.turnKey = v.turnKey ∧ v'.peerIndex = v.peerIndex ∧ v'.flowIndex = v.flowIndex ∧ v'.priority = v.priority := by
  rw [h]
  exact ⟨rfl, rfl, rfl, rfl⟩

/-- Some data entry or some reservation refers to the record at `k`, where it keeps its index. -/
def TxQueue.Refers (q : TxQueue) (entryIndex : TxEntry → Fin TX_FLOW_LIMIT) (index : TxReservation → Fin TX_FLOW_LIMIT)
    (k : Fin TX_FLOW_LIMIT) : Prop :=
  (∃ i e, q.entries i = some e ∧ e.control = false ∧ entryIndex e = k) ∨ ∃ j v, q.reservations j = some v ∧ index v = k

theorem queueHasPeer_iff :
    queueHasPeer q k = true ↔ q.Refers (·.peerIndex) (·.peerIndex) k := by
  simp only [queueHasPeer, Bool.or_eq_true, Table.find?_isSome_iff, Bool.and_eq_true, Bool.not_eq_true',
    decide_eq_true_eq, TxQueue.Refers]

theorem queueHasFlow_iff :
    queueHasFlow q k = true ↔ q.Refers (·.flowIndex) (·.flowIndex) k := by
  simp only [queueHasFlow, Bool.or_eq_true, Table.find?_isSome_iff, Bool.and_eq_true, Bool.not_eq_true',
    decide_eq_true_eq, TxQueue.Refers]

def Released {α : Type} (q' : TxQueue) (entryIndex : TxEntry → Fin TX_FLOW_LIMIT)
    (index : TxReservation → Fin TX_FLOW_LIMIT) (t t' : Table TX_FLOW_LIMIT α) : Prop :=
  ∀ k, t' k = t k ∨ (t' k = none ∧ ¬ q'.Refers entryIndex index k)

/-- What is left of a queue from which only records were removed, and where only flags were written. -/
structure Loses (q q' : TxQueue) : Prop where
  entry : ∀ i e', q'.entries i = some e' → ∃ e, q.entries i = some e ∧ e.Tended e'
  reservation : ∀ j v', q'.reservations j = some v' → ∃ v, q.reservations j = some v ∧ v.Noted v'
  peer : Released q' (·.peerIndex) (·.peerIndex) q.peers q'.peers
  flow : Released q' (·.flowIndex) (·.flowIndex) q.flows q'.flows
  turn : q'.schedulerTurn = q.schedulerTurn
  slot : q'.prioritySlot = q.prioritySlot
  sequence : q'.queueSequence = q.queueSequence

theorem Loses.refers (h : Loses q q') (he : ∀ {e e' : TxEntry}, e.Tended e' → entryIndex e' = entryIndex e)
    (hr : ∀ {v v' : TxReservation}, v.Noted v' → index v' = index v) (hk : q'.Refers entryIndex index k) :
    q.Refers entryIndex index k := by
  rcases hk with ⟨i, e', he', hdata, rfl⟩ | ⟨j, v', hv', rfl⟩
  · obtain ⟨e, hold, ht⟩ := h.entry i e' he'
    exact .inl ⟨i, e, hold, ht.turnKey.2.1 ▸ hdata, (he ht).symm⟩
  · obtain ⟨v, hold, hn⟩ := h.reservation j v' hv'
    exact .inr ⟨j, v, hold, (hr hn).symm⟩

theorem Loses.refersPeer (h : Loses q q') (hk : q'.Refers (·.peerIndex) (·.peerIndex) k) :
    q.Refers (·.peerIndex) (·.peerIndex) k :=
  h.refers (fun ht => ht.turnKey.2.2.1) (fun hn => hn.turnKey.2.1) hk

theorem Loses.refersFlow (h : Loses q q') (hk : q'.Refers (·.flowIndex) (·.flowIndex) k) :
    q.Refers (·.flowIndex) (·.flowIndex) k :=
  h.refers (fun ht => ht.turnKey.2.2.2.1) (fun hn => hn.turnKey.2.2.1) hk

theorem Loses.of_agenda (h : q'.agenda = q.agenda) : Loses q q' := by
  simp only [TxQueue.agenda, Prod.mk.injEq] at h
  obtain ⟨he, hr, hp, hf, ht, hs, hn⟩ := h
  exact ⟨fun i e' he' => ⟨e', he ▸ he', .refl e'⟩, fun j v' hv' => ⟨v', hr ▸ hv', .refl v'⟩, fun k => .inl (by rw [hp]),
    fun k => .inl (by rw [hf]), ht, hs, hn⟩

theorem Loses.trans (h₁ : Loses q q') (h₂ : Loses q' q'') : Loses q q'' where
  entry i e'' he'' := by
    obtain ⟨e', he', ht'⟩ := h₂.entry i e'' he''
    obtain ⟨e, he, ht⟩ := h₁.entry i e' he'
    exact ⟨e, he, ht.trans ht'⟩
  reservation j v'' hv'' := by
    obtain ⟨v', hv', hn'⟩ := h₂.reservation j v'' hv''
    obtain ⟨v, hv, hn⟩ := h₁.reservation j v' hv'
    exact ⟨v, hv, hn.trans hn'⟩
  peer k := by
    rcases h₂.peer k with heq | hgone
    · rcases h₁.peer k with heq' | ⟨hnone, hrefers⟩
      · exact .inl (heq.trans heq')
      · exact .inr ⟨heq.trans hnone, fun hk => hrefers (h₂.refersPeer hk)⟩
    · exact .inr hgone
  flow k := by
    rcases h₂.flow k with heq | hgone
    · rcases h₁.flow k with heq' | ⟨hnone, hrefers⟩
      · exact .inl (heq.trans heq')
      · exact .inr ⟨heq.trans hnone, fun hk => hrefers (h₂.refersFlow hk)⟩
    · exact .inr hgone
  turn := h₂.turn.trans h₁.turn
  slot := h₂.slot.trans h₁.slot
  sequence := h₂.sequence.trans h₁.sequence

theorem queueReleaseTurns_loses (q : TxQueue) (peer flow : Fin TX_FLOW_LIMIT) :
    Loses q (queueReleaseTurns q peer flow) := by
  have hflow : Loses q (if queueHasFlow q flow then q else { q with flows := q.flows.clear flow }) := by
    split_ifs with hhas
    · exact .of_agenda rfl
    refine ⟨fun i e' he' => ⟨e', he', .refl e'⟩, fun j v' hv' => ⟨v', hv', .refl v'⟩, fun k => .inl rfl, fun k => ?_,
      rfl, rfl, rfl⟩
    dsimp only
    rw [Table.clear_apply]
    split_ifs with hk
    · exact .inr ⟨rfl, fun hrefers => hhas (queueHasFlow_iff.mpr (hk ▸ hrefers))⟩
    · exact .inl rfl
  unfold queueReleaseTurns
  refine hflow.trans ?_
  generalize (if queueHasFlow q flow then q else { q with flows := q.flows.clear flow }) = q₁
  dsimp only
  split_ifs with hhas
  · exact .of_agenda rfl
  refine ⟨fun i e' he' => ⟨e', he', .refl e'⟩, fun j v' hv' => ⟨v', hv', .refl v'⟩, fun k => ?_, fun k => .inl rfl, rfl,
    rfl, rfl⟩
  dsimp only
  rw [Table.clear_apply]
  split_ifs with hk
  · exact .inr ⟨rfl, fun hrefers => hhas (queueHasPeer_iff.mpr (hk ▸ hrefers))⟩
  · exact .inl rfl

theorem queueRemoveLocked_loses (q : TxQueue) (i : Fin TX_QUEUE_LIMIT) : Loses q (queueRemoveLocked q i) := by
  unfold queueRemoveLocked
  split
  · exact .of_agenda rfl
  rename_i e he
  dsimp only
  have hcleared : ∀ ns count bytes, Loses q { q with
      namespaces := ns, queueCount := count, queueBytes := bytes, entries := q.entries.clear i } := by
    intro ns count bytes
    exact ⟨fun j e' he' => ⟨e', (Table.clear_eq_some.mp he').2, .refl e'⟩, fun j v' hv' => ⟨v', hv', .refl v'⟩,
      fun k => .inl rfl, fun k => .inl rfl, rfl, rfl, rfl⟩
  split_ifs
  · exact (hcleared _ _ _).trans (.of_agenda rfl)
  · exact ((hcleared _ _ _).trans (queueReleaseTurns_loses _ _ _)).trans (.of_agenda rfl)

theorem reservationRemoveLocked_loses (q : TxQueue) (j : Fin TX_RESERVATION_LIMIT) :
    Loses q (reservationRemoveLocked q j) := by
  unfold reservationRemoveLocked
  split
  · exact .of_agenda rfl
  rename_i r hr
  dsimp only
  have hcleared : ∀ ns count bytes pending, Loses q { q with
      namespaces := ns, reservedCount := count, reservedBytes := bytes, pendingReserved := pending
      reservations := q.reservations.clear j } := by
    intro ns count bytes pending
    exact ⟨fun i e' he' => ⟨e', he', .refl e'⟩, fun k v' hv' => ⟨v', (Table.clear_eq_some.mp hv').2, .refl v'⟩,
      fun k => .inl rfl, fun k => .inl rfl, rfl, rfl, rfl⟩
  exact ((hcleared _ _ _ _).trans (queueReleaseTurns_loses _ _ _)).trans (.of_agenda rfl)

theorem Edits.loses {K : EditKind → Prop} (h : Edits K q q') (hk : ¬K .turns) : Loses q q' := by
  induction h with
  | remove => exact queueRemoveLocked_loses _ _
  | drop _ j => exact reservationRemoveLocked_loses _ j
  | @tend q i e e' hentries he ht hflight =>
    have h : Edits K q (entryUpdate q i e') := .tend hentries he ht hflight
    exact ⟨fun j a ha => (h.entry ha).imp fun _ h => ⟨h.1, h.2.1⟩, fun j v' hv' => ⟨v', hv', .refl v'⟩,
      fun k => .inl rfl, fun k => .inl rfl, rfl, rfl, rfl⟩
  | @note q j v v' hnotes hv hn hpending =>
    have h : Edits K q (reservationUpdate q j v') := .note hnotes hv hn hpending
    exact ⟨fun j e' he' => ⟨e', he', .refl e'⟩, fun j a ha => (h.reservation ha).imp fun _ h => ⟨h.1, h.2.1⟩,
      fun k => .inl rfl, fun k => .inl rfl, rfl, rfl, rfl⟩
  | @take q j v hnotes hv hpending =>
    have h : Edits K q _ := .take hnotes hv hpending
    exact ⟨fun j e' he' => ⟨e', he', .refl e'⟩, fun j a ha => (h.reservation ha).imp fun _ h => ⟨h.1, h.2.1⟩,
      fun k => .inl rfl, fun k => .inl rfl, rfl, rfl, rfl⟩
  | turn h => exact absurd h hk
  | trans h₁ h₂ ih₁ ih₂ => exact ih₁.trans ih₂
  | _ => exact .of_agenda rfl

/-! ## Records of one's own -/

def TxQueue.Files (q : TxQueue) (key : TurnKey) (peer flow : Fin TX_FLOW_LIMIT) : Prop :=
  (∃ p, q.peers peer = some p ∧ p.locator = key.locator) ∧ ∃ f, q.flows flow = some f ∧ f.turnKey = key

/-- Data entries and reservations refer to the records of their own peer and flow, of which there is one each, and
every turn was given out. -/
structure Filed (q : TxQueue) : Prop where
  entry : ∀ i e, q.entries i = some e → e.control = false → q.Files e.turnKey e.peerIndex e.flowIndex
  reservation : ∀ j v, q.reservations j = some v → q.Files v.turnKey v.peerIndex v.flowIndex
  peersKeyed : q.peers.Keyed (·.locator)
  flowsKeyed : q.flows.Keyed (·.turnKey)
  peerTurn : ∀ k p, q.peers k = some p → p.turn ≤ q.schedulerTurn
  flowTurn : ∀ k f, q.flows k = some f → f.turn ≤ q.schedulerTurn
  turn : q.schedulerTurn ≤ U64_MAX

theorem TxQueue.Files.congr {key : TurnKey} (h : q.Files key peer flow)
    (hp : ∀ p, q.peers peer = some p → q'.peers peer = some p)
    (hf : ∀ f, q.flows flow = some f → q'.flows flow = some f) : q'.Files key peer flow := by
  obtain ⟨⟨p, hpeer, hlocator⟩, f, hflow, hkey⟩ := h
  exact ⟨⟨p, hp p hpeer, hlocator⟩, f, hf f hflow, hkey⟩

theorem Released.kept (h : Released q' entryIndex index t t') (hk : q'.Refers entryIndex index k) : t' k = t k :=
  (h k).resolve_right fun hgone => hgone.2 hk

theorem Released.old (h : Released q' entryIndex index t t') {a : α} (hk : t' k = some a) : t k = some a := by
  rcases h k with heq | ⟨hnone, -⟩
  · exact heq.symm.trans hk
  · rw [hnone] at hk
    cases hk

theorem filed_initial : Filed ({} : TxQueue) where
  entry _ _ h := nomatch h
  reservation _ _ h := nomatch h
  peersKeyed := Table.keyed_empty _
  flowsKeyed := Table.keyed_empty _
  peerTurn _ _ h := nomatch h
  flowTurn _ _ h := nomatch h
  turn := Nat.zero_le _

theorem Filed.loses (h : Filed q) (hl : Loses q q') : Filed q' where
  entry i e' he' hdata := by
    obtain ⟨e, he, ht⟩ := hl.entry i e' he'
    obtain ⟨hkey, hcontrol, hpeer, hflow, -⟩ := ht.turnKey
    rw [hkey]
    refine (hpeer ▸ hflow ▸ h.entry i e he (hcontrol ▸ hdata) : q.Files e.turnKey e'.peerIndex e'.flowIndex).congr
      (fun p hp => ?_) fun f hf => ?_
    · rw [hl.peer.kept (.inl ⟨i, e', he', hdata, rfl⟩), hp]
    · rw [hl.flow.kept (.inl ⟨i, e', he', hdata, rfl⟩), hf]
  reservation j v' hv' := by
    obtain ⟨v, hv, hn⟩ := hl.reservation j v' hv'
    obtain ⟨hkey, hpeer, hflow, -⟩ := hn.turnKey
    rw [hkey]
    refine (hpeer ▸ hflow ▸ h.reservation j v hv : q.Files v.turnKey v'.peerIndex v'.flowIndex).congr
      (fun p hp => ?_) fun f hf => ?_
    · rw [hl.peer.kept (.inr ⟨j, v', hv', rfl⟩), hp]
    · rw [hl.flow.kept (.inr ⟨j, v', hv', rfl⟩), hf]
  peersKeyed i j a b ha hb := h.peersKeyed i j a b (hl.peer.old ha) (hl.peer.old hb)
  flowsKeyed i j a b ha hb := h.flowsKeyed i j a b (hl.flow.old ha) (hl.flow.old hb)
  peerTurn k p hp := hl.turn ▸ h.peerTurn k p (hl.peer.old hp)
  flowTurn k f hf := hl.turn ▸ h.flowTurn k f (hl.flow.old hf)
  turn := hl.turn ▸ h.turn

/-! ## Frames and reservations come in -/

/-- The records a newcomer needs are there, and every other record is as it was. -/
structure Opens (q q' : TxQueue) (key : TurnKey) (peer flow : Fin TX_FLOW_LIMIT) : Prop where
  files : q'.Files key peer flow
  peer : ∀ k p, q.peers k = some p → q'.peers k = some p
  flow : ∀ k f, q.flows k = some f → q'.flows k = some f
  rest : q' = { q with peers := q'.peers, flows := q'.flows }
  filed : Filed q → Filed q'

theorem find_or_open (key : α → κ) (x : α) {test : α → Bool} {i : Fin TX_FLOW_LIMIT} {created : Bool}
    (hx : test x = true) (hkey : ∀ a, key a = key x → test a = true)
    (h : (created = false ∧ t.find? test = some i) ∨ (created = true ∧ t.find? test = none ∧ t.free? = some i)) :
    (∃ a, (if created then t.set i x else t) i = some a ∧ test a = true) ∧
      (∀ k a, t k = some a → (if created then t.set i x else t) k = some a) ∧
      (∀ k a, (if created then t.set i x else t) k = some a → t k = some a ∨ a = x) ∧
      (t.Keyed key → (if created then t.set i x else t).Keyed key) := by
  rcases h with ⟨rfl, hfind⟩ | ⟨rfl, hfind, hfree⟩
  · exact ⟨Table.find?_some hfind, fun k a ha => ha, fun k a ha => .inl ha, id⟩
  have hnone := Table.free?_some hfree
  simp only [if_true]
  refine ⟨⟨x, Table.set_self _ _ _, hx⟩, fun k a ha => ?_, fun k a ha => ?_, fun hkeyed => hkeyed.set_of
    fun j a ha hji => ?_⟩
  · rw [Table.set_of_ne _ _ (fun hk => by rw [hk, hnone] at ha; cases ha)]
    exact ha
  · rcases Table.set_eq_some.mp ha with ⟨-, rfl⟩ | ⟨-, ha⟩
    · exact .inr rfl
    · exact .inl ha
  have htest := Table.find?_none hfind ha
  rw [hkey a hji] at htest
  cases htest

theorem queuePeerLocked_ok {peer : Fin TX_FLOW_LIMIT × Bool} (h : queuePeerLocked q locator = .ok peer) :
    (peer.2 = false ∧ (q.peers.find? fun p => p.locator = locator) = some peer.1) ∨
      (peer.2 = true ∧ (q.peers.find? fun p => p.locator = locator) = none ∧ q.peers.free? = some peer.1) := by
  unfold queuePeerLocked at h
  cases hfind : q.peers.find? fun p => p.locator = locator with
  | some i =>
    rw [hfind] at h
    cases h
    exact .inl ⟨rfl, rfl⟩
  | none =>
    rw [hfind] at h
    cases hfree : q.peers.free? with
    | none =>
      rw [hfree] at h
      cases h
    | some i =>
      rw [hfree] at h
      cases h
      exact .inr ⟨rfl, rfl, rfl⟩

theorem queueFlowLocked_ok {flow : Fin TX_FLOW_LIMIT × Bool} (h : queueFlowLocked q locator r = .ok flow) :
    (flow.2 = false ∧ (q.flows.find? fun f => f.isFor locator r) = some flow.1) ∨
      (flow.2 = true ∧ (q.flows.find? fun f => f.isFor locator r) = none ∧ q.flows.free? = some flow.1) := by
  unfold queueFlowLocked at h
  cases hfind : q.flows.find? fun f => f.isFor locator r with
  | some i =>
    rw [hfind] at h
    cases h
    exact .inl ⟨rfl, rfl⟩
  | none =>
    rw [hfind] at h
    cases hfree : q.flows.free? with
    | none =>
      rw [hfree] at h
      cases h
    | some i =>
      rw [hfree] at h
      cases h
      exact .inr ⟨rfl, rfl, rfl⟩

theorem TxFlowTurn.isFor_iff {f : TxFlowTurn} :
    f.isFor locator r = true ↔ f.turnKey = r.turnKey locator := by
  simp only [TxFlowTurn.isFor, Bool.and_eq_true, decide_eq_true_eq, TxFlowTurn.turnKey, QueueRequest.turnKey,
    TurnKey.mk.injEq]
  tauto

theorem queueTurns_opens {peer flow : Fin TX_FLOW_LIMIT × Bool} (h : queueTurnsLocked q locator r = .ok (peer, flow)) :
    Opens q (queueTurns q locator r peer flow) (r.turnKey locator) peer.1 flow.1 := by
  have hparts : queuePeerLocked q locator = .ok peer ∧ queueFlowLocked q locator r = .ok flow := by
    unfold queueTurnsLocked at h
    split at h
    · cases h
    rename_i hpeer
    split at h
    · cases h
    · rename_i hflow
      cases h
      exact ⟨hpeer, hflow⟩
  let record : TxFlowTurn :=
    { locator := locator, bindingPortid := r.bindingPortid, bindingGeneration := r.bindingGeneration,
      service := r.service, peerIndex := peer.1 }
  have heq : queueTurns q locator r peer flow =
      { q with
        peers := if peer.2 then q.peers.set peer.1 { locator := locator } else q.peers
        flows := if flow.2 then q.flows.set flow.1 record else q.flows } := by
    unfold queueTurns
    cases peer.2 <;> cases flow.2 <;> rfl
  obtain ⟨⟨p, hp, hplocator⟩, hpeerOld, hpeerNew, hpeersKeyed⟩ :=
    find_or_open TxPeerTurn.locator { locator := locator } (by simp) (fun a ha => decide_eq_true ha)
      (queuePeerLocked_ok hparts.1)
  obtain ⟨⟨f, hf, hfkey⟩, hflowOld, hflowNew, hflowsKeyed⟩ :=
    find_or_open TxFlowTurn.turnKey record (TxFlowTurn.isFor_iff.mpr rfl)
      (fun a ha => TxFlowTurn.isFor_iff.mpr ha) (queueFlowLocked_ok hparts.2)
  have hfiles : (queueTurns q locator r peer flow).Files (r.turnKey locator) peer.1 flow.1 := by
    rw [heq]
    exact ⟨⟨p, hp, of_decide_eq_true hplocator⟩, f, hf, TxFlowTurn.isFor_iff.mp hfkey⟩
  rw [heq] at hfiles ⊢
  refine ⟨hfiles, hpeerOld, hflowOld, rfl, fun hq => ?_⟩
  exact {
    entry := fun i e he hdata => (hq.entry i e he hdata).congr (fun p => hpeerOld _ p) fun f => hflowOld _ f
    reservation := fun j v hv => (hq.reservation j v hv).congr (fun p => hpeerOld _ p) fun f => hflowOld _ f
    peersKeyed := hpeersKeyed hq.peersKeyed
    flowsKeyed := hflowsKeyed hq.flowsKeyed
    peerTurn := fun k p hp => (hpeerNew k p hp).elim (hq.peerTurn k p) fun h => by rw [h]; exact Nat.zero_le _
    flowTurn := fun k f hf => (hflowNew k f hf).elim (hq.flowTurn k f) fun h => by rw [h]; exact Nat.zero_le _
    turn := hq.turn }

/-- Frames or a reservation come in: no turn record changes, and everything has its records again. -/
structure Joins (q q' : TxQueue) : Prop where
  peer : ∀ k p, q.peers k = some p → q'.peers k = some p
  turn : q'.schedulerTurn = q.schedulerTurn
  slot : q'.prioritySlot = q.prioritySlot
  filed : Filed q → Filed q'

theorem Joins.of_agenda (h : q'.agenda = q.agenda) : Joins q q' := by
  have hloses := Loses.of_agenda h
  simp only [TxQueue.agenda, Prod.mk.injEq] at h
  exact ⟨fun k p hp => by rw [h.2.2.1, hp], hloses.turn, hloses.slot, fun hq => hq.loses hloses⟩

theorem Joins.trans (h₁ : Joins q q') (h₂ : Joins q' q'') : Joins q q'' :=
  ⟨fun k p hp => h₂.peer k p (h₁.peer k p hp), h₂.turn.trans h₁.turn, h₂.slot.trans h₁.slot,
    fun h => h₂.filed (h₁.filed h)⟩

theorem Opens.joins {key : TurnKey} (h : Opens q q' key peer flow) : Joins q q' :=
  ⟨h.peer, by rw [h.rest], by rw [h.rest], h.filed⟩

theorem entriesWrite_joins (charge : Bool) (net : Nat) {metadata : TxMeta} (groupId expiresMs : Nat)
    (batch : List (Fin TX_QUEUE_LIMIT × Octets))
    (hfiles : r.control = false → q.Files (r.turnKey metadata.destinationLocator) peer flow) :
    Joins q (entriesWrite charge net metadata r groupId expiresMs peer flow q batch) := by
  have hslots : ∀ j, (entriesWrite charge net metadata r groupId expiresMs peer flow q batch).entries j = q.entries j ∨
      ∃ frame sequence, (j, frame) ∈ batch ∧ q.queueSequence < sequence ∧
        (entriesWrite charge net metadata r groupId expiresMs peer flow q batch).entries j =
          some (entryFor frame net metadata r sequence groupId expiresMs peer flow) := entriesWrite_entries q batch
  obtain ⟨entries, sequence, heq⟩ := entriesWrite_eq charge net metadata r groupId expiresMs peer flow q batch
  rw [heq] at hslots ⊢
  refine ⟨fun k p hp => hp, rfl, rfl, fun hq => ?_⟩
  exact {
    entry := fun i e he hdata => by
      rcases hslots i with hold | ⟨frame, sequence, -, -, hnew⟩
      · exact hq.entry i e (hold.symm.trans he) hdata
      · obtain rfl := Option.some.inj (hnew.symm.trans he)
        exact hfiles hdata
    reservation := hq.reservation
    peersKeyed := hq.peersKeyed
    flowsKeyed := hq.flowsKeyed
    peerTurn := hq.peerTurn
    flowTurn := hq.flowTurn
    turn := hq.turn }

theorem sendBatchLocked_joins (q : TxQueue) (net : Nat) (frames : List Octets) (bytes : Nat) (metadata : TxMeta)
    (r : QueueRequest) (nowMs : Nat) (alloc : Bool) :
    Joins q (sendBatchLocked q net frames bytes metadata r nowMs alloc).1 := by
  unfold sendBatchLocked
  split
  · exact .of_agenda rfl
  obtain ⟨ns, hns⟩ := queueCapacityLocked_eq q net metadata.destinationLocator r frames.length bytes alloc
  generalize queueCapacityLocked q net metadata.destinationLocator r frames.length bytes alloc = cap at hns
  obtain ⟨q₁, result⟩ := cap
  dsimp only at hns
  subst hns
  have hspace : ∀ group, Joins q { q with namespaces := ns, groupSequence := group } := fun _ => .of_agenda rfl
  cases result with
  | error e => exact .of_agenda rfl
  | ok _ =>
    dsimp only
    split
    · exact .of_agenda rfl
    split
    · exact .of_agenda rfl
    split
    · rename_i hcontrol
      exact (hspace _).trans (entriesWrite_joins _ _ _ _ _ fun hdata => by rw [hcontrol] at hdata; cases hdata)
    split
    · exact .of_agenda rfl
    rename_i peer flow hturns
    have hopens := queueTurns_opens hturns
    have hgroup : ∀ q₁ : TxQueue, Joins q₁ { q₁ with groupSequence := q.groupSequence + 1 } := fun _ => .of_agenda rfl
    exact (hspace _).trans (hopens.joins.trans ((hgroup _).trans (entriesWrite_joins _ _ _ _ _ fun _ => hopens.files)))

theorem coreSendBatch_locked (q : TxQueue) (up : Bool) (net : Nat) (frames : List Octets) (metadata : TxMeta)
    (r : QueueRequest) (nowMs : Nat) (alloc : Bool) (valid : Except Errno Unit) :
    (∃ e, coreSendBatch q up net frames metadata r nowMs alloc valid = (q, .error e)) ∨
      r.priority ≤ PRIORITY_MAX ∧ ∃ bytes, coreSendBatch q up net frames metadata r nowMs alloc valid =
        sendBatchLocked q net frames bytes metadata r nowMs alloc := by
  unfold coreSendBatch
  split
  · exact .inl ⟨_, rfl⟩
  rename_i hargs
  split
  · exact .inl ⟨_, rfl⟩
  split
  · exact .inl ⟨_, rfl⟩
  split
  · exact .inl ⟨_, rfl⟩
  split
  · exact .inl ⟨_, rfl⟩
  · exact .inr ⟨Nat.le_of_not_lt fun h => hargs (.inr (.inr (.inr (.inr h)))), _, rfl⟩

theorem coreSendBatch_joins (q : TxQueue) (up : Bool) (net : Nat) (frames : List Octets) (metadata : TxMeta)
    (r : QueueRequest) (nowMs : Nat) (alloc : Bool) (valid : Except Errno Unit) :
    Joins q (coreSendBatch q up net frames metadata r nowMs alloc valid).1 := by
  rcases coreSendBatch_locked q up net frames metadata r nowMs alloc valid with ⟨e, h⟩ | ⟨-, bytes, h⟩
  · rw [h]
    exact .of_agenda rfl
  · rw [h]
    exact sendBatchLocked_joins ..

theorem coreSendBatchReserved_joins (q : TxQueue) (up : Bool) (frames : List Octets) (metadata : TxMeta)
    (r : QueueRequest) (id : Nat) (valid : Except Errno Unit) (hq : Filed q) :
    Joins q (coreSendBatchReserved q up frames metadata r id valid).1 := by
  rcases coreSendBatchReserved_cases q up frames metadata r id valid with
    ⟨e, h⟩ | ⟨j, v, hv, -, hfor, -, -, -, -, -, h⟩
  · rw [h]
    exact .of_agenda rfl
  · rw [h]
    have hkey : v.turnKey = r.turnKey metadata.destinationLocator := by
      simp only [TxReservation.isFor, Bool.and_eq_true, decide_eq_true_eq] at hfor
      simp only [TxReservation.turnKey, QueueRequest.turnKey, TurnKey.mk.injEq]
      tauto
    -- the reservation goes, and its records stay for the entries
    have hcleared : ∀ group count bytes, Joins q { q with
        groupSequence := group, reservedCount := count, reservedBytes := bytes, reservations :=
          q.reservations.clear j } := by
      intro group count bytes
      refine ⟨fun k p hp => hp, rfl, rfl, fun hq => hq.loses ?_⟩
      exact ⟨fun i e' he' => ⟨e', he', .refl e'⟩, fun k v' hv' => ⟨v', (Table.clear_eq_some.mp hv').2, .refl v'⟩,
        fun k => .inl rfl, fun k => .inl rfl, rfl, rfl, rfl⟩
    refine (hcleared _ _ _).trans (entriesWrite_joins _ _ _ _ _ fun _ => ?_)
    exact hkey ▸ hq.reservation j v hv

theorem reservationWrite_joins {j : Fin TX_RESERVATION_LIMIT} (hfiles : q.Files v.turnKey v.peerIndex v.flowIndex) :
    Joins q (reservationWrite q j v) := by
  refine ⟨fun k p hp => hp, rfl, rfl, fun hq => ?_⟩
  exact {
    entry := hq.entry
    reservation := fun k w hw => by
      rcases Table.set_eq_some.mp hw with ⟨-, rfl⟩ | ⟨-, hw⟩
      · exact hfiles
      · exact hq.reservation k w hw
    peersKeyed := hq.peersKeyed
    flowsKeyed := hq.flowsKeyed
    peerTurn := hq.peerTurn
    flowTurn := hq.flowTurn
    turn := hq.turn }

theorem queueReserve_joins (q : TxQueue) (a : ReserveArgs) (r : QueueRequest) (nowMs : Nat) (alloc : Bool) :
    Joins q (queueReserve q a r nowMs alloc).1 := by
  unfold queueReserve
  split
  · exact .of_agenda rfl
  split
  · exact .of_agenda rfl
  split
  · exact .of_agenda rfl
  split
  · exact .of_agenda rfl
  split
  · exact .of_agenda rfl
  obtain ⟨ns, hns⟩ := queueCapacityLocked_eq q a.net a.locator r a.count a.bytes alloc
  generalize queueCapacityLocked q a.net a.locator r a.count a.bytes alloc = cap at hns
  obtain ⟨q₁, result⟩ := cap
  dsimp only at hns
  subst hns
  have hspace : Joins q { q with namespaces := ns } := .of_agenda rfl
  cases result with
  | error e => exact .of_agenda rfl
  | ok _ =>
    dsimp only
    split
    · exact .of_agenda rfl
    rename_i peer flow hturns
    split
    · exact .of_agenda rfl
    · have hopens := queueTurns_opens hturns
      exact hspace.trans (hopens.joins.trans (reservationWrite_joins hopens.files))

/-! ## Turns are taken -/

theorem Lib.Table.Keyed.of_map {n : Nat} {t t' : Table n α} {key : α → κ} (h : t.Keyed key)
    (hsame : ∀ k, (t' k).map key = (t k).map key) : t'.Keyed key := by
  intro i j a b ha hb hab
  have hi := hsame i
  have hj := hsame j
  rw [ha, Option.map_some, eq_comm, Option.map_eq_some_iff] at hi
  rw [hb, Option.map_some, eq_comm, Option.map_eq_some_iff] at hj
  obtain ⟨a₀, ha₀, hka⟩ := hi
  obtain ⟨b₀, hb₀, hkb⟩ := hj
  exact h i j a₀ b₀ ha₀ hb₀ (hka.trans (hab.trans hkb.symm))

theorem Filed.stamped (h : Filed q) (he : q'.entries = q.entries) (hr : q'.reservations = q.reservations)
    (hp : ∀ k, (q'.peers k).map (·.locator) = (q.peers k).map (·.locator))
    (hf : ∀ k, (q'.flows k).map (·.turnKey) = (q.flows k).map (·.turnKey))
    (hpeerTurn : ∀ k p, q'.peers k = some p → p.turn ≤ q'.schedulerTurn)
    (hflowTurn : ∀ k f, q'.flows k = some f → f.turn ≤ q'.schedulerTurn) (hturn : q'.schedulerTurn ≤ U64_MAX) :
    Filed q' := by
  have hfiles : ∀ {key peer flow}, q.Files key peer flow → q'.Files key peer flow := by
    rintro key peer flow ⟨⟨p, hpeer, hlocator⟩, f, hflow, hkey⟩
    have hpeer' := hp peer
    have hflow' := hf flow
    rw [hpeer, Option.map_some, Option.map_eq_some_iff] at hpeer'
    rw [hflow, Option.map_some, Option.map_eq_some_iff] at hflow'
    obtain ⟨p', hp', heq⟩ := hpeer'
    obtain ⟨f', hf', hfeq⟩ := hflow'
    exact ⟨⟨p', hp', heq.trans hlocator⟩, f', hf', hfeq.trans hkey⟩
  exact {
    entry := fun i e hi hdata => hfiles (h.entry i e (he ▸ hi) hdata)
    reservation := fun j v hj => hfiles (h.reservation j v (hr ▸ hj))
    peersKeyed := h.peersKeyed.of_map hp
    flowsKeyed := h.flowsKeyed.of_map hf
    peerTurn := hpeerTurn
    flowTurn := hflowTurn
    turn := hturn }

theorem queueTurnReset_filed (h : Filed q) :
    Filed (queueTurnReset q) ∧ (queueTurnReset q).schedulerTurn < U64_MAX := by
  unfold queueTurnReset
  split_ifs with hmax
  · refine ⟨h.stamped rfl rfl (fun k => ?_) (fun k => ?_) (fun k p hp => ?_) (fun k f hf => ?_) (Nat.zero_le _),
      (by decide : 0 < U64_MAX)⟩
    · rw [Option.map_map]
      rfl
    · rw [Option.map_map]
      rfl
    · obtain ⟨p₀, -, rfl⟩ := Option.map_eq_some_iff.mp hp
      exact le_refl _
    · obtain ⟨f₀, -, rfl⟩ := Option.map_eq_some_iff.mp hf
      exact le_refl _
  · exact ⟨h, Nat.lt_of_le_of_ne h.turn hmax⟩

theorem queueTurnTake_filed (h : Filed q) (hturn : q.schedulerTurn < U64_MAX) (peer flow : Fin TX_FLOW_LIMIT) :
    Filed (queueTurnTake q peer flow) := by
  unfold queueTurnTake
  refine h.stamped rfl rfl (fun k => ?_) (fun k => ?_) (fun k p hp => ?_) (fun k f hf => ?_) hturn
  · dsimp only
    split_ifs
    · rw [Option.map_map]
      rfl
    · rfl
  · dsimp only
    split_ifs
    · rw [Option.map_map]
      rfl
    · rfl
  · dsimp only at hp ⊢
    split_ifs at hp
    · obtain ⟨p₀, -, rfl⟩ := Option.map_eq_some_iff.mp hp
      exact le_refl _
    · exact (h.peerTurn k p hp).trans (Nat.le_succ _)
  · dsimp only at hf ⊢
    split_ifs at hf
    · obtain ⟨f₀, -, rfl⟩ := Option.map_eq_some_iff.mp hf
      exact le_refl _
    · exact (h.flowTurn k f hf).trans (Nat.le_succ _)

theorem Filed.slot (h : Filed q) (slot : Nat) : Filed { q with prioritySlot := slot } :=
  h.stamped rfl rfl (fun _ => rfl) (fun _ => rfl) h.peerTurn h.flowTurn h.turn

theorem queueData_filed (h : Filed q) (nowMs : Nat) : Filed (queueData q nowMs).1 := by
  rw [queueData_eq]
  split
  · exact h
  split
  · exact h.slot _
  split
  · exact h.slot _
  split
  · exact h.slot _
  · obtain ⟨hreset, hlt⟩ := queueTurnReset_filed (h.slot _)
    exact queueTurnTake_filed hreset hlt _ _

theorem queueMark_loses (q : TxQueue) (o : Option (Fin TX_QUEUE_LIMIT)) : Loses q (queueMark q o).1 := by
  rcases queueMark_cases q o with h | ⟨i, e, he, h⟩
  · rw [h]
    exact .of_agenda rfl
  rw [h]
  have hmark : Edits (· ≠ .turns) q (entryUpdate q i { e with inFlight := true }) :=
    .tend nofun he ⟨rfl, id⟩ (.inl nofun)
  exact hmark.loses fun h => h rfl

theorem queueExpireLocked_loses (q : TxQueue) (nowMs : Nat) : Loses q (queueExpireLocked q nowMs).1 :=
  (queueExpireLocked_edits (K := (· = .entries)) rfl q nowMs).loses nofun

theorem queueSelect_filed (h : Filed q) (nowMs : Nat) : Filed (queueSelect q nowMs).1 := by
  unfold queueSelect
  dsimp only
  split_ifs
  · exact h.loses (queueMark_loses _ _)
  · exact (queueData_filed h nowMs).loses (queueMark_loses _ _)

theorem queueWorkSelect_filed (h : Filed q) (nowMs : Nat) (linkBusy : Bool) (guardMs : Nat) :
    Filed (queueWorkSelect q nowMs linkBusy guardMs).1 := by
  have hexpired := h.loses (queueExpireLocked_loses q nowMs)
  have hcases := queueWorkSelect_cases q nowMs linkBusy guardMs
  generalize queueExpireLocked q nowMs = expired at hexpired hcases
  have hguard : ∀ guard, Filed { expired.1 with guardUntilMs := guard } := fun guard => hexpired.loses (.of_agenda rfl)
  rcases hcases with ⟨-, heq⟩ | ⟨-, guard, heq | heq⟩
  · rw [heq]
    exact h
  · rw [heq]
    exact hguard guard
  · rw [heq]
    exact queueSelect_filed (hguard guard) nowMs

theorem drainEntries_filed (h : Filed q) (hempty : (q.reservations.find? fun _ => true) = none) :
    Filed (drainEntries q) := by
  have hloop : Loses q ((List.finRange TX_QUEUE_LIMIT).foldl queueRemoveLocked q) :=
    (Edits.foldl (K := (· ≠ .turns)) (fun q => q) (fun _ _ => .remove nofun (.inl nofun)) _ q).loses fun h => h rfl
  have hnone := drainLoop_entries q
  unfold drainEntries
  generalize (List.finRange TX_QUEUE_LIMIT).foldl queueRemoveLocked q = q₁ at hloop hnone
  exact {
    entry := fun i e he => nomatch (hnone i).symm.trans he
    reservation := fun j v hv => by
      obtain ⟨v₀, hv₀, -⟩ := hloop.reservation j v hv
      exact absurd (Table.find?_none hempty hv₀) (by simp)
    peersKeyed := fun i j a b ha => nomatch ha
    flowsKeyed := fun i j a b ha => nomatch ha
    peerTurn := fun k p hp => nomatch hp
    flowTurn := fun k f hf => nomatch hf
    turn := hloop.turn.le.trans h.turn }

theorem queueStep_filed (siphash : Octets → UInt64) {s : QueueState} (h : Filed s.queue) (a : QueueLabel) :
    Filed (queueStep siphash s a).1.queue := by
  cases a with
  | reserve args r alloc => exact (queueReserve_joins s.queue args r s.nowMs alloc).filed h
  | send up net frames metadata r alloc valid =>
    exact (coreSendBatch_joins s.queue up net frames metadata r s.nowMs alloc valid).filed h
  | sendReserved up frames metadata r id valid =>
    exact (coreSendBatchReserved_joins s.queue up frames metadata r id valid h).filed h
  | select linkBusy guardMs =>
    unfold queueStep workStep
    dsimp only
    split_ifs
    · exact h
    · exact queueWorkSelect_filed h s.nowMs linkBusy guardMs
  | drainEntries =>
    unfold queueStep
    dsimp only
    split_ifs with hdrain
    · exact drainEntries_filed h hdrain.2.2
    · exact h
  | _ => exact h.loses ((queueStep_edits siphash s rfl).loses (by simp [QueueLabel.edits]))

end Melodi
