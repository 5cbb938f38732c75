import Melodi.Core.Pending

/-!
# What the sections do to the pending messages
-/

namespace Melodi
open Lib
variable {i : Fin PENDING_LIMIT} {p : PendingMessage} {error : Errno} {notice : Notice} {d : Device} {s s' : Transmit}
  {nowMs : Nat}

/-- What happened to the pending messages from `t` to `t'`; `writes` holds of those that are new. -/
def PendingMoved (writes : PendingMessage → Prop) (t t' : Table PENDING_LIMIT PendingMessage) : Prop :=
  ∀ j p', t' j = some p' →
    (∃ p, t j = some p ∧ p' = { p with reliability := p'.reliability }) ∨
      (t j = none ∧ ∃ p, writes p ∧ p' = { p with reliability := p'.reliability })

def PendingKept (t t' : Table PENDING_LIMIT PendingMessage) : Prop :=
  ∀ j p', t' j = some p' → ∃ p, t j = some p ∧ p' = { p with reliability := p'.reliability }

section
variable {writes : PendingMessage → Prop} {t t' t'' : Table PENDING_LIMIT PendingMessage}

theorem PendingKept.moved (h : PendingKept t t') : PendingMoved writes t t' := fun j p' hp' => .inl (h j p' hp')

theorem PendingKept.refl (t : Table PENDING_LIMIT PendingMessage) : PendingKept t t := fun _ p hp => ⟨p, hp, rfl⟩

theorem PendingKept.clear (t : Table PENDING_LIMIT PendingMessage) (i : Fin PENDING_LIMIT) :
    PendingKept t (t.clear i) :=
  fun _ p hp => ⟨p, (Table.clear_eq_some.mp hp).2, rfl⟩

theorem PendingKept.empty (t : Table PENDING_LIMIT PendingMessage) : PendingKept t Table.empty :=
  fun _ _ hp => nomatch hp

theorem PendingKept.update (hp : t i = some p) (s : ReliabilityState) :
    PendingKept t (t.set i { p with reliability := s }) := by
  intro j p' hp'
  rcases Table.set_eq_some.mp hp' with ⟨rfl, rfl⟩ | ⟨-, hp'⟩
  · exact ⟨p, hp, rfl⟩
  · exact ⟨p', hp', rfl⟩

theorem PendingMoved.write (hfree : t i = none) (hp : writes p) : PendingMoved writes t (t.set i p) := by
  intro j p' hp'
  rcases Table.set_eq_some.mp hp' with ⟨rfl, rfl⟩ | ⟨-, hp'⟩
  · exact .inr ⟨hfree, p', hp, rfl⟩
  · exact .inl ⟨p', hp', rfl⟩

theorem PendingKept.trans (h₁ : PendingKept t t') (h₂ : PendingKept t' t'') : PendingKept t t'' := by
  intro j p'' hp''
  obtain ⟨p', hp', heq'⟩ := h₂ j p'' hp''
  obtain ⟨p, hp, heq⟩ := h₁ j p' hp'
  refine ⟨p, hp, ?_⟩
  rw [heq] at heq'
  exact heq'

theorem PendingKept.sum_le (h : PendingKept t t') : t'.sum (fun _ => 1) ≤ t.sum (fun _ => 1) := by
  refine Table.sum_le_of_weight fun j => ?_
  cases hj : t' j with
  | none => exact Nat.zero_le _
  | some p' =>
    obtain ⟨p, hp, -⟩ := h j p' hj
    rw [hp]
    exact Nat.le_refl _

theorem dataCancelPendingLocked_kept (t : Table PENDING_LIMIT PendingMessage) (destination : NodeId)
    (messageId : UInt64)
    (reservationId : Nat) : PendingKept t (dataCancelPendingLocked t destination messageId reservationId) := by
  unfold dataCancelPendingLocked
  split
  · exact .refl t
  · exact .clear t _

theorem pendingForget_kept (t : Table PENDING_LIMIT PendingMessage) (messageId : UInt64) (generation : UInt32) :
    PendingKept t (pendingForget t messageId generation) := by
  unfold pendingForget
  split
  · exact .refl t
  · exact .clear t _

theorem failPendingPass_kept (h : failPendingPass t error = some (t', notice)) : PendingKept t t' := by
  unfold failPendingPass at h
  obtain ⟨i, -, hi⟩ := Option.bind_eq_some_iff.mp h
  obtain ⟨p, -, heq⟩ := Option.map_eq_some_iff.mp hi
  obtain ⟨rfl, -⟩ := Prod.mk.inj heq
  exact .clear t i

theorem pendingAckLocked_kept (t : Table PENDING_LIMIT PendingMessage) (ack : WireAck) (source : NodeId)
    (sessionEpoch : UInt64) (peer : Peer) (nowMs : Nat) :
    PendingKept t (pendingAckLocked t ack source sessionEpoch peer nowMs).1 := by
  unfold pendingAckLocked
  split
  · exact .refl t
  rename_i i p hfind
  obtain ⟨k, -, hk⟩ := Option.bind_eq_some_iff.mp hfind
  obtain ⟨p', hp, heq⟩ := Option.map_eq_some_iff.mp hk
  obtain ⟨rfl, rfl⟩ := Prod.mk.inj heq
  split_ifs
  · exact .clear t _
  split
  · exact .clear t _
  · exact .clear t _
  · exact .update hp _

theorem reliabilityScan_kept (d : Device) (q : TxQueue) (nowMs : Nat) (busy : Bool) (is : List (Fin PENDING_LIMIT))
    (t : Table PENDING_LIMIT PendingMessage) : PendingKept t (reliabilityScan d q nowMs busy is t).1 := by
  induction is generalizing t with
  | nil => exact .refl t
  | cons i is ih =>
    unfold reliabilityScan
    split
    · exact ih t
    rename_i p hp
    split
    · exact .clear t i
    dsimp only
    have hnext : ∀ s, PendingKept t (reliabilityScan d q nowMs busy is (t.set i { p with reliability := s })).1 :=
      fun s => (PendingKept.update hp s).trans (ih _)
    split
    · exact hnext _
    · exact .clear t i
    · exact hnext _
    · exact .update hp _

theorem queueStatePass_kept {notice : Option Notice} (h : queueStatePass d s = some (s', notice)) :
    PendingKept s.pending s'.pending := by
  unfold queueStatePass at h
  split at h
  · obtain ⟨rfl, -⟩ := Prod.mk.inj (Option.some.inj h)
    dsimp only
    split_ifs
    · exact dataCancelPendingLocked_kept _ _ _ _
    · exact .refl _
  · split at h
    · cases h
    · dsimp only at h
      split_ifs at h
      obtain ⟨rfl, -⟩ := Prod.mk.inj (Option.some.inj h)
      unfold cancelGroup
      dsimp only
      split
      · exact .refl _
      · exact dataCancelPendingLocked_kept _ _ _ _

theorem dataStatePass_kept (h : dataStatePass d nowMs s = some (s', notice)) : PendingKept s.pending s'.pending := by
  unfold dataStatePass at h
  split at h
  · obtain ⟨rfl, -⟩ := Prod.mk.inj (Option.some.inj h)
    exact .clear _ _
  split at h
  · obtain ⟨rfl, -⟩ := Prod.mk.inj (Option.some.inj h)
    exact .refl _
  · cases h

end

theorem reliabilityStart_ne_ENOSPC {messageId : UInt64} {generation : UInt32} {fragmentCount paceMs ttlMs : Nat} :
    reliabilityStart messageId generation fragmentCount nowMs paceMs ttlMs ≠ .error .ENOSPC := by
  unfold reliabilityStart reliabilityAdd
  split_ifs <;> simp

theorem pendingAdmitLocked_cases (t : Transmit) (a : PendingArgs) (nowMs : Nat) :
    (∃ e, (pendingAdmitLocked t a nowMs).2 = .error e ∧ (e = .ENOSPC → t.pending.free? = none) ∧
      (pendingAdmitLocked t a nowMs).1.pending = t.pending) ∨
    ∃ i reliability, t.pending.free? = some i ∧
      (a.reservation ≠ 0 → (reservationPending t.queue a.reservation).2 = .ok ()) ∧
      reliabilityStart a.messageId a.generation a.fragmentCount nowMs a.paceMs a.ttlMs = .ok reliability ∧
      (pendingAdmitLocked t a nowMs).2 = .ok () ∧
      (pendingAdmitLocked t a nowMs).1.pending = t.pending.set i (pendingFor a reliability nowMs) := by
  unfold pendingAdmitLocked
  cases hfree : t.pending.free? with
  | none => exact .inl ⟨.ENOSPC, rfl, fun _ => rfl, rfl⟩
  | some i =>
    dsimp only
    split
    · rename_i q e hq
      refine .inl ⟨e, rfl, fun he => ?_, rfl⟩
      subst he
      split_ifs at hq
      · unfold reservationPending at hq
        split at hq
        · cases hq
        · split_ifs at hq
          · cases hq
          · cases hq
      · cases hq
    · rename_i q hq
      have htake : a.reservation ≠ 0 → (reservationPending t.queue a.reservation).2 = .ok () := by
        intro hr
        rw [if_pos hr] at hq
        rw [hq]
      split_ifs
      · exact .inl ⟨.EOVERFLOW, rfl, nofun, rfl⟩
      cases hstart : reliabilityStart a.messageId a.generation a.fragmentCount nowMs a.paceMs a.ttlMs with
      | error e =>
        refine .inl ⟨e, rfl, fun he => ?_, rfl⟩
        subst he
        exact absurd hstart reliabilityStart_ne_ENOSPC
      | ok reliability => exact .inr ⟨i, reliability, rfl, htake, rfl, rfl, rfl⟩

/-! ## The discovery queue -/

section
variable {q q' : DiscoveryQueue}

theorem discoveryTargetRelease_pending (q : DiscoveryQueue) (destination : NodeId) :
    (discoveryTargetRelease q destination).pending = q.pending := by
  unfold discoveryTargetRelease
  split_ifs
  · rfl
  · split <;> rfl

@[simp] theorem discoveryPendingClear_pending (q : DiscoveryQueue) (i : Fin DISCOVERY_PENDING_LIMIT) :
    (discoveryPendingClear q i).pending = q.pending.clear i := by
  unfold discoveryPendingClear
  split
  · rename_i hnone
    exact (Function.update_eq_self_iff.mpr hnone.symm).symm
  · exact discoveryTargetRelease_pending _ _

theorem discoveryAdmitLocked_cases {a : DiscoveryArgs} {result : Except Errno (Fin DISCOVERY_PENDING_LIMIT × Bool)}
    (h : discoveryAdmitLocked d q a nowMs = (q', result)) :
    (∃ e, result = .error e ∧ q' = q) ∨
    ∃ i probes p, result = .ok (i, probes) ∧ q.pending i = none ∧ q'.pending = q.pending.set i p ∧ p.inFlight = false ∧
      p.message = a.message := by
  obtain ⟨rfl, rfl⟩ : (discoveryAdmitLocked d q a nowMs).1 = q' ∧ (discoveryAdmitLocked d q a nowMs).2 = result := by
    rw [h]
    exact ⟨rfl, rfl⟩
  clear h
  unfold discoveryAdmitLocked
  by_cases hidentity : d.identityReady = false
  · rw [if_pos hidentity]
    exact .inl ⟨_, rfl, rfl⟩
  rw [if_neg hidentity]
  by_cases htransport : d.transportReady = false
  · rw [if_pos htransport]
    exact .inl ⟨_, rfl, rfl⟩
  rw [if_neg htransport]
  dsimp only
  generalize (q.targets.find? fun t => t.destination = a.destination).bind q.targets = target
  by_cases hexpired : target.any (fun t => t.expiresMs ≤ nowMs) = true
  · rw [if_pos hexpired]
    exact .inl ⟨_, rfl, rfl⟩
  rw [if_neg hexpired]
  cases hfree : q.pending.free? with
  | none => exact .inl ⟨_, rfl, rfl⟩
  | some i =>
    dsimp only
    split_ifs
    · exact .inl ⟨_, rfl, rfl⟩
    cases target with
    | some t => exact .inr ⟨i, _, _, rfl, Table.free?_some hfree, rfl, rfl, rfl⟩
    | none =>
      cases q.targets.free? with
      | none => exact .inl ⟨_, rfl, rfl⟩
      | some k => exact .inr ⟨i, _, _, rfl, Table.free?_some hfree, rfl, rfl, rfl⟩

theorem discoveryWorkSection_cases (d : Device) (q : DiscoveryQueue) (nowMs : Nat) :
    discoveryWorkSection d q nowMs = (q, .idle) ∨
    ∃ i p, q.pending i = some p ∧ p.inFlight = false ∧
      ((p.expiresMs ≤ nowMs ∧
          discoveryWorkSection d q nowMs = (discoveryPendingClear q i, .terminal (p.notice .EHOSTUNREACH))) ∨
        (sessionWith d p.destination = true ∧
          discoveryWorkSection d q nowMs =
            ({ q with pending := q.pending.set i { p with inFlight := true } },
              .send i { p with inFlight := true } (min (p.expiresMs - nowMs) U32_MAX)))) := by
  unfold discoveryWorkSection
  split
  · exact .inl rfl
  rename_i i p hfind
  obtain ⟨k, hk, hmap⟩ := Option.bind_eq_some_iff.mp hfind
  obtain ⟨p', hp', heq⟩ := Option.map_eq_some_iff.mp hmap
  obtain ⟨rfl, rfl⟩ := Prod.mk.inj heq
  obtain ⟨p, hp, htest⟩ := Table.find?_some hk
  obtain rfl : p' = p := Option.some.inj (hp'.symm.trans hp)
  rw [Bool.and_eq_true, Bool.or_eq_true, decide_eq_true_eq, Bool.not_eq_true'] at htest
  refine .inr ⟨k, p', hp, htest.1, ?_⟩
  by_cases hexpired : p'.expiresMs ≤ nowMs
  · rw [if_pos hexpired]
    exact .inl ⟨hexpired, rfl⟩
  · rw [if_neg hexpired]
    exact .inr ⟨htest.2.resolve_left hexpired, rfl⟩

theorem discoveryWorkFinish_cases {i : Fin DISCOVERY_PENDING_LIMIT} {p : DiscoveryPending} (hp : q.pending i = some p)
    (nowMs : Nat) (result : Except Errno Unit) :
    (result = .ok () ∧ discoveryWorkFinish q i nowMs result = (discoveryPendingClear q i, none)) ∨
    discoveryWorkFinish q i nowMs result = ({ q with pending := q.pending.set i { p with inFlight := false } }, none) ∨
    ∃ e, result = .error e ∧ discoveryWorkFinish q i nowMs result = (discoveryPendingClear q i, some (p.notice e)) := by
  unfold discoveryWorkFinish
  cases result with
  | ok _ => exact .inl ⟨rfl, rfl⟩
  | error e =>
    rw [hp]
    dsimp only
    split_ifs
    · exact .inr (.inl rfl)
    · exact .inr (.inr ⟨e, rfl, rfl⟩)

theorem dataStatePass_discovery {t t' : Transmit} (h : dataStatePass d nowMs t = some (t', notice)) :
    t'.discovery = t.discovery ∨
    ∃ i p e, t.discovery.pending i = some p ∧ discoveryStateCheck d p = .error e ∧ p.inFlight = false ∧
      t'.discovery = discoveryPendingClear t.discovery i ∧ notice = p.notice e := by
  unfold dataStatePass at h
  split at h
  · obtain ⟨rfl, -⟩ := Prod.mk.inj (Option.some.inj h)
    exact .inl rfl
  split at h
  · rename_i i p e hfirst
    obtain ⟨rfl, rfl⟩ := Prod.mk.inj (Option.some.inj h)
    obtain ⟨hp, hcheck⟩ := firstInvalid_some hfirst
    refine .inr ⟨i, p, e, hp, hcheck, ?_, rfl, rfl⟩
    -- a message that is being sent passes the check
    cases hflight : p.inFlight with
    | false => rfl
    | true =>
      rw [discoveryStateCheck, hflight, if_pos rfl] at hcheck
      cases hcheck
  · cases h

theorem failDiscoveryPass_cases (h : failDiscoveryPass q error = some (q', notice)) :
    ∃ i p, q.pending i = some p ∧ q' = discoveryPendingClear q i ∧ notice = p.notice error ∧
      q.pending.find? (fun _ => true) = some i := by
  unfold failDiscoveryPass at h
  obtain ⟨i, hfirst, hi⟩ := Option.bind_eq_some_iff.mp h
  obtain ⟨p, hp, heq⟩ := Option.map_eq_some_iff.mp hi
  obtain ⟨rfl, rfl⟩ := Prod.mk.inj heq
  exact ⟨i, p, hp, rfl, rfl, hfirst⟩

end

end Melodi
