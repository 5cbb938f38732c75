import Melodi.System.QueueRun

/-!
# What the sections do to the records of the queue
-/

namespace Melodi
open Lib
variable {i : Fin TX_QUEUE_LIMIT} {e e' : TxEntry} {q q' : TxQueue}
variable {q'' : TxQueue} {K : EditKind → Prop} {siphash : Octets → UInt64}

/-! ## Entries -/

/-- What happened to the entries from `q` to `q'`; `writes` holds of those that are new. -/
structure Moved (writes : TxEntry → Prop) (q q' : TxQueue) : Prop where
  sequence : q.queueSequence ≤ q'.queueSequence
  slot : ∀ j e', q'.entries j = some e' → (∃ e, q.entries j = some e ∧ e.Tended e') ∨
    (q.queueSequence < e'.sequence ∧ ∃ e, writes e ∧ e.Tended e')

/-- Entries have numbers of their own, none above the counter. -/
structure Sequenced (q : TxQueue) : Prop where
  le : ∀ j e, q.entries j = some e → e.sequence ≤ q.queueSequence
  keyed : q.entries.Keyed (·.sequence)

def Tends (writes : TxEntry → Prop) (q q' : TxQueue) : Prop := Sequenced q → Sequenced q' ∧ Moved writes q q'

section Tends
variable {writes : TxEntry → Prop}

theorem Moved.trans (h₁ : Moved writes q q') (h₂ : Moved writes q' q'') : Moved writes q q'' where
  sequence := Nat.le_trans h₁.sequence h₂.sequence
  slot := by
    intro j e'' he''
    rcases h₂.slot j e'' he'' with ⟨e', he', ht'⟩ | ⟨hlt, hw⟩
    · rcases h₁.slot j e' he' with ⟨e, he, ht⟩ | ⟨hlt, e, hw, ht⟩
      · exact .inl ⟨e, he, ht.trans ht'⟩
      · exact .inr ⟨ht'.sequence ▸ hlt, e, hw, ht.trans ht'⟩
    · exact .inr ⟨Nat.lt_of_le_of_lt h₁.sequence hlt, hw⟩

theorem Tends.trans (h₁ : Tends writes q q') (h₂ : Tends writes q' q'') : Tends writes q q'' := by
  intro hs
  obtain ⟨hs', hm⟩ := h₁ hs
  obtain ⟨hs'', hm'⟩ := h₂ hs'
  exact ⟨hs'', hm.trans hm'⟩

theorem Tends.of_slots (hseq : q'.queueSequence = q.queueSequence)
    (hslot : ∀ j e', q'.entries j = some e' → ∃ e, q.entries j = some e ∧ e.Tended e') : Tends writes q q' := by
  intro hs
  refine ⟨⟨fun j e' he' => ?_, fun j k a b ha hb hab => ?_⟩, hseq.ge, fun j e' he' => .inl (hslot j e' he')⟩
  · obtain ⟨e, he, ht⟩ := hslot j e' he'
    rw [ht.sequence, hseq]
    exact hs.le j e he
  obtain ⟨e, he, ht⟩ := hslot j a ha
  obtain ⟨e', he', ht'⟩ := hslot k b hb
  have hab' : a.sequence = b.sequence := hab
  exact hs.keyed j k e e' he he' (ht.sequence.symm.trans (hab'.trans ht'.sequence))

theorem Tends.of_entries (hseq : q'.queueSequence = q.queueSequence) (h : q'.entries = q.entries) :
    Tends writes q q' :=
  .of_slots hseq fun _ e' he' => ⟨e', h ▸ he', TxEntry.Tended.refl e'⟩

theorem Edits.tends (h : Edits K q q') : Tends writes q q' := by
  refine .of_slots (congrArg Prod.fst h.sequences) fun j e' he' => ?_
  obtain ⟨e, he, ht, -⟩ := h.entry he'
  exact ⟨e, he, ht⟩

theorem drainLoop_edits (q : TxQueue) :
    Edits (· ≠ .notes) q ((List.finRange TX_QUEUE_LIMIT).foldl queueRemoveLocked q) :=
  Edits.foldl (fun q => q) (fun _ _ => .remove nofun (.inl nofun)) _ q

theorem drainEntries_tends (q : TxQueue) : Tends writes q (drainEntries q) := by
  have hloop : Tends writes q _ := (drainLoop_edits q).tends
  unfold drainEntries
  generalize (List.finRange TX_QUEUE_LIMIT).foldl queueRemoveLocked q = q₁ at hloop ⊢
  exact hloop.trans (.of_entries rfl rfl)

end Tends

/-! ### Batches -/

def QueueLabel.batch : QueueLabel → Option (List Octets × TxMeta × QueueRequest)
  | .send _ _ frames metadata r _ _ => some (frames, metadata, r)
  | .sendReserved _ frames metadata r _ _ => some (frames, metadata, r)
  | _ => none

def EntryOf (frames : List Octets) (metadata : TxMeta) (r : QueueRequest) (e : TxEntry) : Prop :=
  ∃ frame ∈ frames, ∃ net sequence groupId expiresMs peerIndex flowIndex,
    e = entryFor frame net metadata r sequence groupId expiresMs peerIndex flowIndex

def QueueLabel.Writes (a : QueueLabel) (e : TxEntry) : Prop :=
  ∃ frames metadata r, a.batch = some (frames, metadata, r) ∧ EntryOf frames metadata r e

theorem entryWrite_tends {writes : TxEntry → Prop} (charge : Bool) (hseq : e.sequence = q.queueSequence + 1)
    (hw : writes e) : Tends writes q (entryWrite charge q i e) := by
  intro hs
  have hslot : ∀ j a, (entryWrite charge q i e).entries j = some a → (j = i ∧ a = e) ∨
    (j ≠ i ∧ q.entries j = some a) := by
    intro j a ha
    have ha' : (q.entries.set i e) j = some a := ha
    rw [Table.set_apply] at ha'
    split_ifs at ha' with hj
    · exact .inl ⟨hj, (Option.some.inj ha').symm⟩
    · exact .inr ⟨hj, ha'⟩
  have hnext : (entryWrite charge q i e).queueSequence = q.queueSequence + 1 := hseq
  refine ⟨⟨fun j a ha => ?_, fun j k a b ha hb hab => ?_⟩, by omega, fun j a ha => ?_⟩
  · rcases hslot j a ha with ⟨-, rfl⟩ | ⟨-, hold⟩
    · omega
    · have := hs.le j a hold
      omega
  · have hab' : a.sequence = b.sequence := hab
    rcases hslot j a ha with ⟨rfl, rfl⟩ | ⟨-, hold⟩
    · rcases hslot k b hb with ⟨rfl, -⟩ | ⟨-, hold⟩
      · rfl
      · have := hs.le k b hold
        omega
    · rcases hslot k b hb with ⟨rfl, rfl⟩ | ⟨-, hold'⟩
      · have := hs.le j a hold
        omega
      · exact hs.keyed j k a b hold hold' hab
  · rcases hslot j a ha with ⟨-, rfl⟩ | ⟨-, hold⟩
    · exact .inr ⟨by omega, a, hw, TxEntry.Tended.refl a⟩
    · exact .inl ⟨a, hold, TxEntry.Tended.refl a⟩

theorem entriesWrite_tends {frames : List Octets} {charge : Bool} {net : Nat} {metadata : TxMeta} {r : QueueRequest}
    {groupId expiresMs : Nat} {peerIndex flowIndex : Fin TX_FLOW_LIMIT} (batch : List (Fin TX_QUEUE_LIMIT × Octets))
    (q : TxQueue) (hframes : ∀ b ∈ batch, b.2 ∈ frames) :
    Tends (EntryOf frames metadata r) q
      (entriesWrite charge net metadata r groupId expiresMs peerIndex flowIndex q batch) := by
  induction batch generalizing q with
  | nil => exact .of_entries rfl rfl
  | cons b rest ih =>
    obtain ⟨i, frame⟩ := b
    rw [entriesWrite]
    refine Tends.trans (entryWrite_tends charge rfl ?_) (ih _ fun b hb => hframes b (List.mem_cons_of_mem _ hb))
    exact ⟨frame, hframes _ List.mem_cons_self, net, _, groupId, expiresMs, peerIndex, flowIndex, rfl⟩

theorem zip_frames {slots : List (Fin TX_QUEUE_LIMIT)} {frames : List Octets} : ∀ b ∈ slots.zip frames, b.2 ∈ frames :=
  fun _ hb => (List.of_mem_zip hb).2

theorem coreSendBatch_tends (q : TxQueue) (up : Bool) (net : Nat) (frames : List Octets) (metadata : TxMeta)
    (r : QueueRequest) (nowMs : Nat) (alloc : Bool) (valid : Except Errno Unit) :
    Tends (EntryOf frames metadata r) q (coreSendBatch q up net frames metadata r nowMs alloc valid).1 := by
  rcases coreSendBatch_cases q up net frames metadata r nowMs alloc valid with
    ⟨ns, e, h⟩ | ⟨ns, peers, flows, p, f, -, -, -, -, h⟩
  · rw [h]
    exact .of_entries rfl rfl
  · rw [h]
    have hturns : Tends (EntryOf frames metadata r) q
        { q with namespaces := ns, peers := peers, flows := flows, groupSequence := q.groupSequence + 1 } :=
      .of_entries rfl rfl
    exact hturns.trans (entriesWrite_tends _ _ zip_frames)

theorem coreSendBatchReserved_tends (q : TxQueue) (up : Bool) (frames : List Octets) (metadata : TxMeta)
    (r : QueueRequest) (id : Nat) (valid : Except Errno Unit) :
    Tends (EntryOf frames metadata r) q (coreSendBatchReserved q up frames metadata r id valid).1 := by
  rcases coreSendBatchReserved_cases q up frames metadata r id valid with ⟨e, h⟩ | ⟨j, v, -, -, -, -, -, -, -, -, h⟩
  · rw [h]
    exact .of_entries rfl rfl
  rw [h]
  have hspend : Tends (EntryOf frames metadata r) q
      { q with
        groupSequence := q.groupSequence + 1
        reservedCount := q.reservedCount - frames.length
        reservedBytes := q.reservedBytes - (frames.map List.length).sum
        reservations := q.reservations.clear j } := .of_entries rfl rfl
  exact hspend.trans (entriesWrite_tends _ _ zip_frames)

theorem queueStep_tends (siphash : Octets → UInt64) (s : QueueState) (a : QueueLabel) :
    Tends a.Writes s.queue (queueStep siphash s a).1.queue := by
  have hbatch : ∀ {frames metadata r} {q' : TxQueue}, a.batch = some (frames, metadata, r) →
      Tends (EntryOf frames metadata r) s.queue q' → Tends a.Writes s.queue q' := by
    intro frames metadata r q' hb h hs
    obtain ⟨hs', hseq, hslot⟩ := h hs
    refine ⟨hs', hseq, fun j e' he' => ?_⟩
    rcases hslot j e' he' with hold | ⟨hlt, e, hw, ht⟩
    · exact .inl hold
    · exact .inr ⟨hlt, e, ⟨frames, metadata, r, hb, hw⟩, ht⟩
  cases a with
  | reserve a r alloc =>
    refine .of_entries ?_ (queueReserve_entries s.queue a r s.nowMs alloc)
    rcases queueReserve_cases s.queue a r s.nowMs alloc with ⟨ns, e, h⟩ | ⟨ns, peers, flows, j, p, f, -, -, -, -, h⟩
    · show (queueReserve s.queue a r s.nowMs alloc).1.queueSequence = _
      rw [h]
    · show (queueReserve s.queue a r s.nowMs alloc).1.queueSequence = _
      rw [h]
      rfl
  | send up net frames metadata r alloc valid =>
    exact hbatch rfl (coreSendBatch_tends s.queue up net frames metadata r s.nowMs alloc valid)
  | sendReserved up frames metadata r id valid =>
    exact hbatch rfl (coreSendBatchReserved_tends s.queue up frames metadata r id valid)
  | drainEntries =>
    unfold queueStep
    dsimp only
    split_ifs
    · exact drainEntries_tends s.queue
    · exact .of_entries rfl rfl
  | _ => exact (queueStep_edits siphash s rfl).tends

/-! ## Reservations -/

def TxQueue.bookings (q : TxQueue) : Table TX_RESERVATION_LIMIT TxReservation × Nat :=
  (q.reservations, q.reservationSequence)

def QueueLabel.booking : QueueLabel → Bool
  | .reserve _ _ _ | .takePending _ | .sealReservation _ _ | .claim _ _ | .sendReserved _ _ _ _ _ _ => true
  | _ => false

inductive Books (siphash : Octets → UInt64) (q q' : TxQueue) : QueueLabel → Except Errno Nat → Prop where
  | drops {a result} (hquiet : a.booking = true → result.isOk = false)
      (hsub : ∀ j v, q'.reservations j = some v → q.reservations j = some v)
      (hseq : q'.reservationSequence = q.reservationSequence) : Books siphash q q' a result
  | reserves {a r alloc nowMs j peerIndex flowIndex} (hfree : q.reservations j = none)
      (hpending : a.reliable = true → a.activePending + q.pendingReserved < PENDING_LIMIT)
      (h : q'.reservations =
        q.reservations.set j (reservationFor a r (q.reservationSequence + 1) nowMs peerIndex flowIndex))
      (hseq : q'.reservationSequence = q.reservationSequence + 1) :
      Books siphash q q' (.reserve a r alloc) (.ok (q.reservationSequence + 1))
  | takes {id j v} (hv : q.reservations j = some v) (hid : v.id = id) (hpending : v.pendingReserved = true)
      (h : q'.reservations = q.reservations.set j { v with pendingReserved := false })
      (hseq : q'.reservationSequence = q.reservationSequence) : Books siphash q q' (.takePending id) (.ok 0)
  | seals {id data j v} (hv : q.reservations j = some v) (hid : v.id = id) (hsealed : v.sealed = false)
      (h : q'.reservations = q.reservations.set j { v with tag := siphash data, sealed := true })
      (hseq : q'.reservationSequence = q.reservationSequence) : Books siphash q q' (.sealReservation id data) (.ok 0)
  | claims {id data j v} (hv : q.reservations j = some v) (hid : v.id = id) (hsealed : v.sealed = true)
      (hclaimed : v.claimed = false) (htag : v.tag = siphash data)
      (h : q'.reservations = q.reservations.set j { v with claimed := true })
      (hseq : q'.reservationSequence = q.reservationSequence) : Books siphash q q' (.claim id data) (.ok 0)
  | sends {up frames metadata r id valid j v} (hv : q.reservations j = some v) (hid : v.id = id)
      (hfor : v.isFor frames.length (frames.map List.length).sum metadata r = true)
      (h : q'.reservations = q.reservations.clear j) (hseq : q'.reservationSequence = q.reservationSequence) :
      Books siphash q q' (.sendReserved up frames metadata r id valid) (.ok 0)

theorem Books.same {a : QueueLabel} {result : Except Errno Nat} (hquiet : a.booking = true → result.isOk = false)
    (h : q'.bookings = q.bookings) : Books siphash q q' a result := by
  have hres : q'.reservations = q.reservations := congrArg Prod.fst h
  refine .drops hquiet (fun j v hv => hres ▸ hv) (congrArg Prod.snd h)

theorem Edits.books {a : QueueLabel} {result : Except Errno Nat} (h : Edits K q q') (hk : ¬K .notes)
    (hquiet : a.booking = true → result.isOk = false) : Books siphash q q' a result := by
  refine .drops hquiet (fun j v hv => ?_) (congrArg (·.2.2) h.sequences)
  obtain ⟨v', hv', -, heq⟩ := h.reservation hv
  rw [heq hk]
  exact hv'

theorem entriesWrite_bookings (charge : Bool) (net : Nat) (metadata : TxMeta) (r : QueueRequest)
    (groupId expiresMs : Nat)
    (peerIndex flowIndex : Fin TX_FLOW_LIMIT) (q : TxQueue) (batch : List (Fin TX_QUEUE_LIMIT × Octets)) :
    (entriesWrite charge net metadata r groupId expiresMs peerIndex flowIndex q batch).bookings = q.bookings := by
  obtain ⟨entries, sequence, h⟩ := entriesWrite_eq charge net metadata r groupId expiresMs peerIndex flowIndex q batch
  rw [h]
  rfl

theorem queueStep_books (siphash : Octets → UInt64) (s : QueueState) (a : QueueLabel) :
    Books siphash s.queue (queueStep siphash s a).1.queue a (queueStep siphash s a).2.result := by
  cases a with
  | reserve a r alloc =>
    show Books siphash s.queue (queueReserve s.queue a r s.nowMs alloc).1 _ (queueReserve s.queue a r s.nowMs alloc).2
    rcases queueReserve_cases s.queue a r s.nowMs alloc with
      ⟨ns, e, h⟩ | ⟨ns, peers, flows, j, p, f, hfree, -, hpending, -, h⟩
    · rw [h]
      exact .same (fun _ => rfl) rfl
    · rw [h]
      exact .reserves hfree hpending rfl rfl
  | takePending id =>
    show Books siphash s.queue (reservationPending s.queue id).1 _ ((reservationPending s.queue id).2.map fun _ => 0)
    unfold reservationPending
    split
    · exact .same (fun _ => rfl) rfl
    rename_i j v hfind
    obtain ⟨hv, hid⟩ := find_reservation hfind
    split_ifs with hpending
    · exact .same (fun _ => rfl) rfl
    · exact .takes hv hid (by simpa using hpending) rfl rfl
  | sealReservation id data =>
    show Books siphash s.queue (reservationSeal siphash s.queue id data).1 _
      ((reservationSeal siphash s.queue id data).2.map fun _ => 0)
    unfold reservationSeal
    split_ifs
    · exact .same (fun _ => rfl) rfl
    split
    · exact .same (fun _ => rfl) rfl
    rename_i j v hfind
    obtain ⟨hv, hid⟩ := find_reservation hfind
    split_ifs with hsealed
    · exact .same (fun _ => rfl) rfl
    · exact .seals hv hid (by simpa using hsealed) rfl rfl
  | claim id data =>
    show Books siphash s.queue (reservationClaim siphash s.queue id data).1 _
      ((reservationClaim siphash s.queue id data).2.map fun _ => 0)
    unfold reservationClaim
    split_ifs
    · exact .same (fun _ => rfl) rfl
    split
    · exact .same (fun _ => rfl) rfl
    rename_i j v hfind
    obtain ⟨hv, hid⟩ := find_reservation hfind
    split_ifs with hclaim
    · exact .same (fun _ => rfl) rfl
    · simp only [not_or, Bool.not_eq_false, Bool.not_eq_true, not_not] at hclaim
      exact .claims hv hid hclaim.1 hclaim.2.1 hclaim.2.2 rfl rfl
  | send up net frames metadata r alloc valid =>
    show Books siphash s.queue (coreSendBatch s.queue up net frames metadata r s.nowMs alloc valid).1 _ _
    refine .same nofun ?_
    rcases coreSendBatch_cases s.queue up net frames metadata r s.nowMs alloc valid with
      ⟨ns, e, h⟩ | ⟨ns, peers, flows, p, f, -, -, -, -, h⟩
    · rw [h]
      rfl
    · rw [h]
      exact entriesWrite_bookings ..
  | sendReserved up frames metadata r id valid =>
    show Books siphash s.queue (coreSendBatchReserved s.queue up frames metadata r id valid).1 _
      ((coreSendBatchReserved s.queue up frames metadata r id valid).2.map fun _ => 0)
    rcases coreSendBatchReserved_cases s.queue up frames metadata r id valid with
      ⟨e, h⟩ | ⟨j, v, hv, hid, hfor, -, -, -, -, -, h⟩
    · rw [h]
      exact .same (fun _ => rfl) rfl
    · rw [h]
      have hbook := entriesWrite_bookings false v.net metadata r (s.queue.groupSequence + 1) v.expiresMs v.peerIndex
        v.flowIndex { s.queue with
          groupSequence := s.queue.groupSequence + 1
          reservedCount := s.queue.reservedCount - frames.length
          reservedBytes := s.queue.reservedBytes - (frames.map List.length).sum
          reservations := s.queue.reservations.clear j } ((queueSlots s.queue frames.length).zip frames)
      exact .sends hv hid hfor (congrArg Prod.fst hbook) (congrArg Prod.snd hbook)
  | drainEntries =>
    unfold queueStep
    dsimp only
    split_ifs
    · have hloop := drainLoop_edits s.queue
      unfold drainEntries
      generalize (List.finRange TX_QUEUE_LIMIT).foldl queueRemoveLocked s.queue = q₁ at hloop ⊢
      have hbooks : Books siphash s.queue q₁ .drainEntries (.ok 0) := hloop.books (fun h => h rfl) nofun
      cases hbooks with
      | drops hquiet hsub hseq => exact .drops hquiet hsub hseq
    · exact .same nofun rfl
  | _ => exact (queueStep_edits siphash s rfl).books nofun nofun

end Melodi
