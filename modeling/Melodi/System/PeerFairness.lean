import Melodi.System.Accounting
import Melodi.System.Turns

/-!
# Fairness between peers

`melodi_queue_data` takes the peer whose record has the least turn, and gives the record the next turn. A peer that
leaves the queue and comes back has a new record, with turn zero, and goes before peers that have been waiting since.

* `peers_take_turns` : between two selections of a peer that stays in the queue, a peer that waits is selected.
  `returning_peer_first` : a peer that leaves and comes back is selected again at once.
-/

namespace Melodi
open Lib Scenario
variable {priority t : Nat} {q' : TxQueue} {locator : UInt32}

/-! ## Selections -/

def pickOf (r : TxQueue × Option Notice × Option (Fin TX_QUEUE_LIMIT)) : Option (UInt32 × Nat) :=
  (r.2.2.bind r.1.entries).bind fun e => if e.control then none else some (e.metadata.destinationLocator, e.priority)

def pick (s : QueueState) : QueueLabel → Option (UInt32 × Nat)
  | .select linkBusy guardMs =>
    if s.work.isSome then none else pickOf (queueWorkSelect s.queue s.nowMs linkBusy guardMs)
  | _ => none

def TxQueue.servable (q : TxQueue) (nowMs : Nat) (locator : UInt32) (priority : Nat) : Bool :=
  (q.entries.find? fun e => e.dataAt nowMs priority && e.metadata.destinationLocator = locator).isSome

def TxQueue.present (q : TxQueue) (locator : UInt32) : Bool :=
  (q.entries.find? fun e => !e.control && e.metadata.destinationLocator = locator).isSome ||
    (q.reservations.find? fun v => v.locator = locator).isSome

theorem TxQueue.servable_iff {q : TxQueue} {nowMs : Nat} :
    q.servable nowMs locator priority = true ↔
      ∃ j e, q.entries j = some e ∧ e.dataAt nowMs priority = true ∧ e.metadata.destinationLocator = locator := by
  simp only [TxQueue.servable, Table.find?_isSome_iff, Bool.and_eq_true, decide_eq_true_eq]

theorem TxQueue.present_iff {q : TxQueue} :
    q.present locator = true ↔
      (∃ j e, q.entries j = some e ∧ e.control = false ∧ e.metadata.destinationLocator = locator) ∨
        ∃ j v, q.reservations j = some v ∧ v.locator = locator := by
  simp only [TxQueue.present, Bool.or_eq_true, Table.find?_isSome_iff, Bool.and_eq_true, Bool.not_eq_true',
    decide_eq_true_eq]

theorem TxQueue.present_of_servable {q : TxQueue} {nowMs : Nat} (h : q.servable nowMs locator priority = true) :
    q.present locator = true := by
  obtain ⟨j, e, he, hdata, hlocator⟩ := TxQueue.servable_iff.mp h
  exact TxQueue.present_iff.mpr (.inl ⟨j, e, he, TxEntry.dataAt_control hdata, hlocator⟩)

/-! ## Turns of peers -/

def TxQueue.TurnOf (q : TxQueue) (locator : UInt32) (turn : Nat) : Prop :=
  ∃ k p, q.peers k = some p ∧ p.locator = locator ∧ p.turn = turn

def Behind (q : TxQueue) (a b : UInt32) : Prop := ∃ s t, q.TurnOf a s ∧ q.TurnOf b t ∧ s < t

theorem Filed.turnOf_unique {q : TxQueue} (h : Filed q) {s : Nat} (hs : q.TurnOf locator s) (ht : q.TurnOf locator t) :
    s = t := by
  obtain ⟨k, p, hp, hlocator, rfl⟩ := hs
  obtain ⟨k', p', hp', hlocator', rfl⟩ := ht
  obtain rfl := h.peersKeyed k k' p p' hp hp' (hlocator.trans hlocator'.symm)
  obtain rfl := Option.some.inj (hp.symm.trans hp')
  rfl

theorem Filed.turnOf {q : TxQueue} (h : Filed q) (hpresent : q.present locator = true) :
    ∃ t, q.TurnOf locator t ∧ t ≤ q.schedulerTurn := by
  rcases TxQueue.present_iff.mp hpresent with ⟨j, e, he, hdata, rfl⟩ | ⟨j, v, hv, rfl⟩
  · obtain ⟨⟨p, hp, hlocator⟩, -⟩ := h.entry j e he hdata
    exact ⟨p.turn, ⟨_, p, hp, hlocator, rfl⟩, h.peerTurn _ p hp⟩
  · obtain ⟨⟨p, hp, hlocator⟩, -⟩ := h.reservation j v hv
    exact ⟨p.turn, ⟨_, p, hp, hlocator, rfl⟩, h.peerTurn _ p hp⟩

theorem Loses.turnOf {q : TxQueue} (h : Loses q q') (hq : Filed q) (ht : q.TurnOf locator t)
    (hpresent : q'.present locator = true) : q'.TurnOf locator t := by
  obtain ⟨s, ⟨k, p, hp, hlocator, rfl⟩, -⟩ := (hq.loses h).turnOf hpresent
  have hold : q.TurnOf locator p.turn := ⟨k, p, h.peer.old hp, hlocator, rfl⟩
  rw [hq.turnOf_unique ht hold]
  exact ⟨k, p, hp, hlocator, rfl⟩

theorem Joins.turnOf {q : TxQueue} (h : Joins q q') (ht : q.TurnOf locator t) :
    q'.TurnOf locator t := by
  obtain ⟨k, p, hp, hlocator, hturn⟩ := ht
  exact ⟨k, p, h.peer k p hp, hlocator, hturn⟩

/-! ## The selection -/

/-- What the first section of the worker does: expired entries go, then a data entry that is due is selected and its
peer takes the next turn, or no data entry is and the turns stay. -/
structure SelectsBy (q q₁ : TxQueue) (nowMs : Nat) (r : TxQueue × Option Notice × Option (Fin TX_QUEUE_LIMIT)) :
    Prop where
  loses : Loses q q₁
  entry : ∀ j e', r.1.entries j = some e' → ∃ e, q₁.entries j = some e ∧ (e' = e ∨ e' = { e with inFlight := true })
  reservations : r.1.reservations = q₁.reservations
  turns : (r.1.peers = q₁.peers ∧ ∀ k e, r.2.2 = some k → r.1.entries k = some e → e.control = true) ∨
    ∃ k e priority, r.2.2 = some k ∧ q₁.entries k = some e ∧ Due q₁ nowMs priority e ∧
      r.1.entries k = some { e with inFlight := true } ∧
      r.1.peers = (queueTurnTake (queueTurnReset q₁) e.peerIndex e.flowIndex).peers

theorem queueSelect_entries (q : TxQueue) (nowMs : Nat) :
    (∀ j e', (queueSelect q nowMs).1.entries j = some e' →
      ∃ e, q.entries j = some e ∧ (e' = e ∨ e' = { e with inFlight := true })) ∧
    (queueSelect q nowMs).1.reservations = q.reservations := by
  obtain ⟨q₁, ⟨peers, flows, slot, turn, rfl⟩, h | ⟨i, e, he, h⟩⟩ := queueSelect_cases q nowMs
  · rw [h]
    exact ⟨fun j e' he' => ⟨e', he', .inl rfl⟩, rfl⟩
  rw [h]
  refine ⟨fun j e' he' => ?_, rfl⟩
  rw [entryUpdate_entries, Table.set_apply] at he'
  split_ifs at he' with hj
  · exact ⟨e, hj ▸ he, .inr (Option.some.inj he').symm⟩
  · exact ⟨e', he', .inl rfl⟩

theorem queueWorkSelect_selectsBy (q : TxQueue) (nowMs : Nat) (linkBusy : Bool) (guardMs : Nat) :
    ∃ q₁, SelectsBy q q₁ nowMs (queueWorkSelect q nowMs linkBusy guardMs) := by
  have hloses := queueExpireLocked_loses q nowMs
  have hcases := queueWorkSelect_cases q nowMs linkBusy guardMs
  generalize queueExpireLocked q nowMs = expired at hloses hcases
  have hnone : ∀ (q₁ : TxQueue) (notice : Option Notice), Loses q q₁ → SelectsBy q q₁ nowMs (q₁, notice, none) :=
    fun q₁ notice h => ⟨h, fun j e' he' => ⟨e', he', .inl rfl⟩, rfl, .inl ⟨rfl, nofun⟩⟩
  rcases hcases with ⟨-, heq⟩ | ⟨-, guard, heq | heq⟩
  · rw [heq]
    exact ⟨q, hnone q none (.of_agenda rfl)⟩
  · rw [heq]
    exact ⟨_, hnone _ _ (hloses.trans (.of_agenda rfl))⟩
  rw [heq]
  obtain ⟨hentry, hreservations⟩ := queueSelect_entries { expired.1 with guardUntilMs := guard } nowMs
  exact ⟨{ expired.1 with guardUntilMs := guard }, hloses.trans (.of_agenda rfl), hentry, hreservations,
    queueSelect_turns { expired.1 with guardUntilMs := guard } nowMs⟩

section
variable {q q₁ : TxQueue} {nowMs : Nat} {r : TxQueue × Option Notice × Option (Fin TX_QUEUE_LIMIT)} {a b : UInt32}

theorem SelectsBy.present (h : SelectsBy q q₁ nowMs r) (hpresent : r.1.present a = true) : q₁.present a = true := by
  rw [TxQueue.present_iff] at hpresent ⊢
  rcases hpresent with ⟨j, e', he', hdata, hlocator⟩ | ⟨j, v, hv, hlocator⟩
  · obtain ⟨e, he, rfl | rfl⟩ := h.entry j e' he'
    · exact .inl ⟨j, e', he, hdata, hlocator⟩
    · exact .inl ⟨j, e, he, hdata, hlocator⟩
  · exact .inr ⟨j, v, h.reservations ▸ hv, hlocator⟩

theorem SelectsBy.servable (h : SelectsBy q q₁ nowMs r) (hservable : r.1.servable nowMs a priority = true) :
    q₁.servable nowMs a priority = true := by
  rw [TxQueue.servable_iff] at hservable ⊢
  obtain ⟨j, e', he', hdata, hlocator⟩ := hservable
  obtain ⟨e, he, rfl | rfl⟩ := h.entry j e' he'
  · exact ⟨j, e', he, hdata, hlocator⟩
  · simp [TxEntry.dataAt, TxEntry.eligible] at hdata

theorem Filed.turnOf_take (h : Filed q) (hturn : q.schedulerTurn < U64_MAX) {i : Fin TX_QUEUE_LIMIT} {e : TxEntry}
    (he : q.entries i = some e) (hdata : e.control = false) {peers : Table TX_FLOW_LIMIT TxPeerTurn}
    (hpeers : peers = (queueTurnTake (queueTurnReset q) e.peerIndex e.flowIndex).peers) (hq' : q'.peers = peers) :
    q'.TurnOf e.metadata.destinationLocator (q.schedulerTurn + 1) ∧
      ∀ {t : Nat}, a ≠ e.metadata.destinationLocator → q.TurnOf a t → q'.TurnOf a t := by
  have hreset : queueTurnReset q = q := if_neg (Nat.ne_of_lt hturn)
  obtain ⟨⟨p, hp, hlocator⟩, -⟩ := h.entry i e he hdata
  have hat : ∀ k, q'.peers k = if k = e.peerIndex then (q.peers k).map fun p => { p with turn := q.schedulerTurn + 1 }
      else q.peers k := by
    intro k
    rw [hq', hpeers, hreset]
    rfl
  refine ⟨⟨e.peerIndex, { p with turn := q.schedulerTurn + 1 }, ?_, hlocator, rfl⟩, ?_⟩
  · rw [hat, if_pos rfl, hp]
    rfl
  rintro t hne ⟨k, p', hp', hlocator', rfl⟩
  have hk : k ≠ e.peerIndex := by
    rintro rfl
    obtain rfl := Option.some.inj (hp.symm.trans hp')
    exact hne (hlocator'.symm.trans hlocator)
  exact ⟨k, p', by rw [hat, if_neg hk, hp'], hlocator', rfl⟩

theorem SelectsBy.picked (h : SelectsBy q q₁ nowMs r) (hpick : pickOf r = some (b, priority)) :
    ∃ k e, q₁.entries k = some e ∧ Due q₁ nowMs priority e ∧ e.metadata.destinationLocator = b ∧
      r.1.peers = (queueTurnTake (queueTurnReset q₁) e.peerIndex e.flowIndex).peers := by
  rcases h.turns with ⟨-, hcontrol⟩ | ⟨k, e, p, hk, he, hdue, hentry, hpeers⟩
  · exfalso
    unfold pickOf at hpick
    obtain ⟨e, hfound, hsome⟩ := Option.bind_eq_some_iff.mp hpick
    obtain ⟨k, hk, he⟩ := Option.bind_eq_some_iff.mp hfound
    rw [if_pos (hcontrol k e hk he)] at hsome
    cases hsome
  · have hdata := TxEntry.dataAt_control hdue.data
    have hp : e.priority = p := by
      have h := hdue.data
      simp only [TxEntry.dataAt, Bool.and_eq_true, decide_eq_true_eq] at h
      exact h.2
    rw [pickOf, hk, Option.bind_some, hentry, Option.bind_some, hdata, if_neg (by decide)] at hpick
    obtain ⟨rfl, rfl⟩ := Prod.mk.inj (Option.some.inj hpick)
    exact ⟨k, e, he, hp ▸ hdue, rfl, hpeers⟩

theorem queueTurnReset_keeps (q : TxQueue) :
    (queueTurnReset q).entries = q.entries ∧ (queueTurnReset q).reservations = q.reservations := by
  unfold queueTurnReset
  split_ifs
  · exact ⟨rfl, rfl⟩
  · exact ⟨rfl, rfl⟩

/-- Whoever is selected has the greatest turn afterwards, also when the turns start again at zero. -/
theorem SelectsBy.behind_of_picked (h : SelectsBy q q₁ nowMs r) (hq : Filed q) (hab : a ≠ b)
    (hpick : pickOf r = some (b, priority)) (ha : r.1.present a = true) : Behind r.1 a b := by
  obtain ⟨k, e, he, hdue, rfl, hpeers⟩ := h.picked hpick
  obtain ⟨hq₂, hturn⟩ := queueTurnReset_filed (hq.loses h.loses)
  obtain ⟨hentries, hreservations⟩ := queueTurnReset_keeps q₁
  have hagain : queueTurnReset (queueTurnReset q₁) = queueTurnReset q₁ := if_neg (Nat.ne_of_lt hturn)
  have hpresent : (queueTurnReset q₁).present a = true := by
    have := h.present ha
    rwa [TxQueue.present, ← hentries, ← hreservations] at this
  obtain ⟨s, hs, hle⟩ := hq₂.turnOf hpresent
  obtain ⟨hb, hother⟩ :=
    hq₂.turnOf_take hturn (hentries ▸ he) (TxEntry.dataAt_control hdue.data) (hagain.symm ▸ hpeers) rfl
  exact ⟨s, _, hother hab hs, hb, Nat.lt_succ_of_le hle⟩

theorem SelectsBy.behind (h : SelectsBy q q₁ nowMs r) (hq : Filed q) (hbehind : Behind q a b)
    (hturn : ∀ c priority, pickOf r = some (c, priority) → c ≠ b → q.schedulerTurn < U64_MAX)
    (hpick : ∀ priority, pickOf r ≠ some (a, priority)) (ha : r.1.present a = true) (hb : r.1.present b = true) :
    Behind r.1 a b := by
  have hloses := h.loses
  have hq₁ := hq.loses hloses
  rcases h.turns with ⟨hpeers, -⟩ | ⟨k, e, p, hk, he, hdue, hentry, hpeers⟩
  · obtain ⟨s, t, hs, ht, hlt⟩ := hbehind
    refine ⟨s, t, ?_, ?_, hlt⟩
    · rw [TxQueue.TurnOf, hpeers]
      exact hloses.turnOf hq hs (h.present ha)
    · rw [TxQueue.TurnOf, hpeers]
      exact hloses.turnOf hq ht (h.present hb)
  · have hdata := TxEntry.dataAt_control hdue.data
    have hpicked : pickOf r = some (e.metadata.destinationLocator, e.priority) := by
      rw [pickOf, hk, Option.bind_some, hentry, Option.bind_some, hdata, if_neg (by decide)]
    have hne : a ≠ e.metadata.destinationLocator := by
      rintro rfl
      exact hpick e.priority hpicked
    by_cases hb' : e.metadata.destinationLocator = b
    · exact h.behind_of_picked hq (hb' ▸ hne) (hb' ▸ hpicked) ha
    · obtain ⟨s, t, hs, ht, hlt⟩ := hbehind
      obtain ⟨-, hother⟩ := hq₁.turnOf_take (hloses.turn ▸ hturn _ _ hpicked hb') he hdata hpeers rfl
      obtain ⟨-, hother'⟩ := hq₁.turnOf_take (hloses.turn ▸ hturn _ _ hpicked hb') he hdata hpeers rfl
      exact ⟨s, t, hother hne (hloses.turnOf hq hs (h.present ha)),
        hother' (Ne.symm hb') (hloses.turnOf hq ht (h.present hb)), hlt⟩

theorem SelectsBy.not_picked (h : SelectsBy q q₁ nowMs r) (hq : Filed q) (hbehind : Behind q a b)
    (ha : r.1.servable nowMs a priority = true) : pickOf r ≠ some (b, priority) := by
  intro hpick
  have hloses := h.loses
  have hq₁ := hq.loses hloses
  obtain ⟨k, e, he, hdue, hlocator, -⟩ := h.picked hpick
  obtain ⟨j, f, hf, hdata, hlocator'⟩ := TxQueue.servable_iff.mp (h.servable ha)
  obtain ⟨s, t, hs, ht, hlt⟩ := hbehind
  have hcontrol := TxEntry.dataAt_control hdue.data
  have hcontrol' := TxEntry.dataAt_control hdata
  have hs₁ := hloses.turnOf hq hs (TxQueue.present_iff.mpr (.inl ⟨j, f, hf, hcontrol', hlocator'⟩))
  have ht₁ := hloses.turnOf hq ht (TxQueue.present_iff.mpr (.inl ⟨k, e, he, hcontrol, hlocator⟩))
  obtain ⟨⟨p, hp, hpl⟩, -⟩ := hq₁.entry k e he hcontrol
  obtain ⟨⟨p', hp', hpl'⟩, -⟩ := hq₁.entry j f hf hcontrol'
  have hle := hdue.peer j f hf hdata
  rw [TxQueue.peerTurn, TxQueue.peerTurn, hp, hp'] at hle
  have ht : p.turn = t := hq₁.turnOf_unique ⟨_, p, hp, hpl.trans hlocator, rfl⟩ ht₁
  have hs : p'.turn = s := hq₁.turnOf_unique ⟨_, p', hp', hpl'.trans hlocator', rfl⟩ hs₁
  have hle' : p.turn ≤ p'.turn := hle
  omega

end

/-! ## Runs -/

section
variable {n : Nat} {siphash : Fin n → Octets → UInt64} {i : Fin n} {h : Host n} {x : Fin n × QueueLabel} {a b : UInt32}

def hostPick (i : Fin n) (h : Host n) (x : Fin n × QueueLabel) : Option (UInt32 × Nat) :=
  if x.1 = i then pick (h.at i) x.2 else none

def picked (siphash : Fin n → Octets → UInt64) (i : Fin n) : Host n → List (Fin n × QueueLabel) → List (UInt32 × Nat)
  | _, [] => []
  | h, x :: xs => (hostPick i h x).toList ++ picked siphash i (hostStep siphash h x) xs

def Host.serves (h : Host n) (i : Fin n) (locator : UInt32) (priority : Nat) : Bool :=
  (h.at i).queue.servable (h.at i).nowMs locator priority

/-- Peer `b` is in the queue, and if the step selects another peer, the turns do not start again at zero. -/
def Host.queues (h : Host n) (i : Fin n) (b : UInt32) (x : Fin n × QueueLabel) : Prop :=
  (h.at i).queue.present b = true ∧
    (hostPick i h x).all (fun c => c.1 = b || (h.at i).queue.schedulerTurn < U64_MAX) = true

theorem hostStep_filed (hq : Filed (h.at i).queue) (x : Fin n × QueueLabel) :
    Filed ((hostStep siphash h x).at i).queue := by
  obtain ⟨j, l⟩ := x
  by_cases hj : j = i
  · subst hj
    rw [hostStep_at_self]
    exact queueStep_filed (siphash j) hq l
  obtain ⟨ns, hother⟩ := hostStep_at_other siphash h hj l
  rw [hother]
  exact hq.loses (.of_agenda rfl)

theorem hostPick_some (siphash : Fin n → Octets → UInt64) (hpick : hostPick i h x = some (b, priority)) :
    ∃ linkBusy guardMs, pickOf (queueWorkSelect (h.at i).queue (h.at i).nowMs linkBusy guardMs) = some (b, priority) ∧
      ((hostStep siphash h x).at i).queue = (queueWorkSelect (h.at i).queue (h.at i).nowMs linkBusy guardMs).1 ∧
      ((hostStep siphash h x).at i).nowMs = (h.at i).nowMs := by
  obtain ⟨j, l⟩ := x
  unfold hostPick at hpick
  split_ifs at hpick with hj
  obtain rfl : j = i := hj
  rw [hostStep_at_self]
  cases l with
  | select linkBusy guardMs =>
    simp only [pick] at hpick
    split_ifs at hpick with hwork
    refine ⟨linkBusy, guardMs, hpick, ?_⟩
    simp only [queueStep, workStep, if_neg hwork, and_self]
  | _ => cases hpick

theorem hostStep_behind (hq : Filed (h.at i).queue) (hbehind : Behind (h.at i).queue a b)
    (hturn : ∀ c priority, hostPick i h x = some (c, priority) → c ≠ b → (h.at i).queue.schedulerTurn < U64_MAX)
    (hpick : ∀ priority, hostPick i h x ≠ some (a, priority))
    (ha : (hostStep siphash h x).serves i a priority = true)
    (hb : ((hostStep siphash h x).at i).queue.present b = true) : Behind ((hostStep siphash h x).at i).queue a b := by
  have ha' := TxQueue.present_of_servable ha
  obtain ⟨j, l⟩ := x
  by_cases hj : j = i
  · subst hj
    rw [Host.serves, hostStep_at_self] at ha
    rw [hostStep_at_self] at hb ha' ⊢
    have hjoins : ∀ {q' : TxQueue}, Joins (h.at j).queue q' → Behind q' a b := by
      intro q' hjoins
      obtain ⟨s, t, hs, ht, hlt⟩ := hbehind
      exact ⟨s, t, hjoins.turnOf hs, hjoins.turnOf ht, hlt⟩
    have hstays : ∀ {q' : TxQueue}, q'.present a = true → q'.present b = true → Loses (h.at j).queue q' →
      Behind q' a b := by
      intro q' ha' hb hloses
      obtain ⟨s, t, hs, ht, hlt⟩ := hbehind
      exact ⟨s, t, hloses.turnOf hq hs ha', hloses.turnOf hq ht hb, hlt⟩
    cases l with
    | reserve args r alloc => exact hjoins (queueReserve_joins _ args r _ alloc)
    | send up net frames metadata r alloc valid =>
        exact hjoins (coreSendBatch_joins _ up net frames metadata r _ alloc valid)
    | sendReserved up frames metadata r id valid =>
        exact hjoins (coreSendBatchReserved_joins _ up frames metadata r id valid hq)
    | select linkBusy guardMs =>
      simp only [hostPick, if_true, pick] at hpick hturn
      simp only [queueStep, workStep] at ha' hb ⊢
      split_ifs at hpick hturn ha' hb ⊢ with hwork
      · exact hbehind
      · obtain ⟨q₁, hselects⟩ := queueWorkSelect_selectsBy (h.at j).queue (h.at j).nowMs linkBusy guardMs
        exact hselects.behind hq hbehind hturn hpick ha' hb
    | drainEntries =>
      simp only [queueStep] at ha ⊢
      split_ifs at ha ⊢ with hdrain
      · obtain ⟨k, e, he, -⟩ := TxQueue.servable_iff.mp ha
        exact nomatch (drainEntries_entries (h.at j).queue k).symm.trans he
      · exact hbehind
    | _ => exact hstays ha' hb ((queueStep_edits (siphash j) (h.at j) rfl).loses (by simp [QueueLabel.edits]))
  · obtain ⟨ns, hother⟩ := hostStep_at_other siphash h hj l
    rw [hother]
    exact hbehind

theorem behind_run {mid : List (Fin n × QueueLabel)} (hq : Filed (h.at i).queue) (hbehind : Behind (h.at i).queue a b)
    (hwaits : Along (hostStep siphash) (fun h x => h.serves i a priority = true ∧ h.queues i b x) h mid)
    (ha : (run (hostStep siphash) h mid).serves i a priority = true)
    (hb : ((run (hostStep siphash) h mid).at i).queue.present b = true)
    (hnot : ∀ p, (a, p) ∉ picked siphash i h mid) :
    Filed ((run (hostStep siphash) h mid).at i).queue ∧ Behind ((run (hostStep siphash) h mid).at i).queue a b := by
  induction mid generalizing h with
  | nil => exact ⟨hq, hbehind⟩
  | cons x mid ih =>
    have hnow : (hostStep siphash h x).serves i a priority = true ∧ ((hostStep siphash h x).at i).queue.present b =
      true := by
      cases mid with
      | nil => exact ⟨ha, hb⟩
      | cons y mid => exact ⟨hwaits.2.1.1, hwaits.2.1.2.1⟩
    have hpick : ∀ p, hostPick i h x ≠ some (a, p) := fun p hp => hnot p (by simp [picked, hp])
    have hturn : ∀ c p, hostPick i h x = some (c, p) → c ≠ b → (h.at i).queue.schedulerTurn < U64_MAX := by
      intro c p hp hne
      simpa [hp, hne] using hwaits.1.2.2
    exact ih (hostStep_filed hq x) (hostStep_behind hq hbehind hturn hpick hnow.1 hnow.2) hwaits.2 ha hb
      fun p hp => hnot p (by simp [picked, hp])

/-- Between two selections of a peer that stays in the queue, a peer that waits at the same priority is selected. -/
theorem peers_take_turns (siphash : Fin n → Octets → UInt64) (i : Fin n) {a b : UInt32} (hab : a ≠ b) (priority : Nat)
    (as mid : List (Fin n × QueueLabel)) (x y : Fin n × QueueLabel) :
    let h := run (hostStep siphash) (Host.initial n) as
    let last := run (hostStep siphash) h (x :: mid)
    hostPick i h x = some (b, priority) → hostPick i last y = some (b, priority) →
      Along (hostStep siphash) (fun h x => h.serves i a priority = true ∧ h.queues i b x) h (x :: mid ++ [y]) →
      (hostStep siphash last y).serves i a priority = true →
      ∃ p, (a, p) ∈ picked siphash i (hostStep siphash h x) mid := by
  intro h last hx hy hwaits hend
  by_contra hnot
  have hnot : ∀ p, (a, p) ∉ picked siphash i (hostStep siphash h x) mid := fun p hp => hnot ⟨p, hp⟩
  have hq : Filed (h.at i).queue :=
    run_invariant (hostStep siphash) (fun h => Filed (h.at i).queue) (fun _ x hq => hostStep_filed hq x)
      (filed_initial.loses (.of_agenda rfl)) as
  obtain ⟨⟨-, hmid⟩, ⟨ha, hb⟩, -⟩ := (along_append (hostStep siphash) _ h (x :: mid) [y]).mp hwaits
  -- the first selection puts `b` behind `a`
  have hfirst : (hostStep siphash h x).serves i a priority = true := by
    cases mid with
    | nil => exact ha
    | cons z mid => exact hmid.1.1
  have hbehind : Behind ((hostStep siphash h x).at i).queue a b := by
    obtain ⟨linkBusy, guardMs, hpick, hqueue, -⟩ := hostPick_some siphash hx
    obtain ⟨q₁, hselects⟩ := queueWorkSelect_selectsBy (h.at i).queue (h.at i).nowMs linkBusy guardMs
    have hpresent := TxQueue.present_of_servable hfirst
    rw [hqueue] at hpresent ⊢
    exact hselects.behind_of_picked hq hab hpick hpresent
  -- and the second one would select it before `a`
  obtain ⟨hfiled, hlast⟩ := behind_run (hostStep_filed hq x) hbehind hmid ha hb.1 hnot
  obtain ⟨linkBusy, guardMs, hpick, hqueue, hnow⟩ := hostPick_some siphash hy
  obtain ⟨q₁, hselects⟩ := queueWorkSelect_selectsBy (last.at i).queue (last.at i).nowMs linkBusy guardMs
  rw [Host.serves, hqueue, hnow] at hend
  exact hselects.not_picked hfiled hlast hend hpick

end

namespace Scenario

def dataFor (locator : UInt32) : Fin 1 × QueueLabel :=
  (.last 0, .send true 0 [[1]] { destinationLocator := locator } { ttlMs := 1000, service := 5 } true (.ok ()))

def selection : Fin 1 × QueueLabel := (.last 0, .select false 0)

def handOver : List (Fin 1 × QueueLabel) :=
  [(.last 0, .check (.ok ())), (.last 0, .airtime none), (.last 0, .finish (.ok ()))]

def servedOnce : List (Fin 1 × QueueLabel) :=
  [(.last 0, .start), dataFor 2, dataFor 2, dataFor 2, selection] ++ handOver

end Scenario

theorem peers_take_turns_servedOnce :
    let h := run (hostStep (fun _ _ => 0)) (Host.initial 1) (servedOnce ++ [dataFor 3, dataFor 3])
    let mid := Scenario.handOver ++ selection :: Scenario.handOver
    ∃ p, (2, p) ∈ picked (fun _ _ => 0) 0 (hostStep (fun _ _ => 0) h selection) mid :=
  peers_take_turns (fun _ _ => 0) 0 (show (2 : UInt32) ≠ 3 by decide) 0 (servedOnce ++ [dataFor 3, dataFor 3])
    (Scenario.handOver ++ selection :: Scenario.handOver) selection selection
      (by decide +kernel)
    (by decide +kernel) (by unfold Host.queues; decide +kernel) (by decide +kernel)

/-- **A peer that comes back goes first.** Peer 2 waits with turn 1. Peer 3 is selected, its only frame goes out and
its record with it; its next frame gets a new record with turn 0, and is selected before the one that has waited all
the time. -/
theorem returning_peer_first :
    let h := run (hostStep (fun _ _ => 0)) (Host.initial 1) (servedOnce ++ [dataFor 3])
    let mid := Scenario.handOver ++ [dataFor 3]
    let last := run (hostStep (fun _ _ => 0)) h (selection :: mid)
    hostPick 0 h selection = some (3, 0) ∧ hostPick 0 last selection = some (3, 0) ∧
      Along (hostStep (fun _ _ => 0)) (fun h _ => h.serves 0 2 0 = true) h
      (selection :: mid ++ [selection]) ∧
      (hostStep (fun _ _ => 0) last selection).serves 0 2 0 = true ∧
      picked (fun _ _ => 0) 0 (hostStep (fun _ _ => 0) h selection) mid = [] := by
  decide +kernel

end Melodi
