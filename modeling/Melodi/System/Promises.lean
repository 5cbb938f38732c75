import Melodi.System.Entries
import Melodi.System.Sender

/-!
# The pending slots promised to reservations

`melodi_queue_reserve` promises a slot of the pending table to every reliable message, and
`melodi_pending_admit_locked` takes the slot when the message is registered. The discovery worker registers messages
that have no reservation.

* `promises_kept` : while messages without a reservation leave the promised slots alone, no slot is promised twice.
-/

namespace Melodi
open Lib Scenario

def TxReservation.promise (v : TxReservation) : Nat := if v.pendingReserved then 1 else 0

section
variable {n : Nat}

def Sender.promised (s : Sender n) (i : Fin n) : Nat := s.pending.sum (fun _ => 1) + (s.queue i).queue.pendingReserved

/-- The section finds a free slot for a message that holds no reservation. -/
def Sender.registersFree (s : Sender n) : SenderLabel n → Bool
  | .call k .register => s.pending.free?.isSome && s.calls[k]?.any fun c => c.job.reservation = 0
  | _ => false

end

/-! ## A message of the discovery queue -/

namespace Scenario

def promises (count : Nat) : List (SenderLabel 1) :=
  List.replicate count (.accept (submission (F_RELIABLE ||| F_AUTH_REQUIRED)) ⟨true, 0, 200, true⟩)

def retries : List (SenderLabel 1) := .discoveryWork :: sends.take 4

end Scenario

/-- A message of the discovery queue takes a slot that is promised to one of 32 reservations. -/
theorem promises_overdrawn :
    PENDING_LIMIT < (run (senderStep Platform.plain digest 0) (Sender.initial 1)
      (waiting ++ found ++ promises 32 ++ retries)).promised 0 := by
  decide +kernel

/-! ## What a section of the queue promises -/

section
variable {siphash : Octets → UInt64} {q q' : TxQueue} {a : QueueLabel} {result : Except Errno Nat}

theorem Books.promised (h : Books siphash q q' a result) :
    q'.reservations.sum TxReservation.promise ≤ q.reservations.sum TxReservation.promise ∨
    ∃ args r alloc, a = .reserve args r alloc ∧ args.reliable = true ∧
      args.activePending + q.pendingReserved < PENDING_LIMIT ∧
      q'.reservations.sum TxReservation.promise = q.reservations.sum TxReservation.promise + 1 := by
  cases h with
  | drops _ hsub _ => exact .inl (Table.sum_le_of_sub hsub _)
  | @reserves args r alloc nowMs j peerIndex flowIndex hfree hpending hset _ =>
    have hsum := Table.sum_set q.reservations j
      (reservationFor args r (q.reservationSequence + 1) nowMs peerIndex flowIndex) TxReservation.promise
    rw [hfree, Table.weight_none] at hsum
    rw [hset]
    have hpromise : (reservationFor args r (q.reservationSequence + 1) nowMs peerIndex flowIndex).promise =
        if args.reliable then 1 else 0 := rfl
    cases hr : args.reliable with
    | false =>
      rw [hr] at hpromise
      exact .inl (by simp at hpromise; omega)
    | true =>
      rw [hr] at hpromise
      exact .inr ⟨args, r, alloc, rfl, hr, hpending hr, by simp at hpromise; omega⟩
  | @takes id j v hv _ _ hset _ =>
    have hsum := Table.sum_set q.reservations j { v with pendingReserved := false } TxReservation.promise
    rw [hset]
    have hpromise : TxReservation.promise { v with pendingReserved := false } = 0 := rfl
    exact .inl (by omega)
  | @seals id data j v hv _ _ hset _ =>
    have hsum := Table.sum_set q.reservations j { v with tag := siphash data, sealed := true } TxReservation.promise
    rw [hv, Table.weight_some] at hsum
    rw [hset]
    have hpromise : TxReservation.promise { v with tag := siphash data, sealed := true } = v.promise := rfl
    exact .inl (by omega)
  | @claims id data j v hv _ _ _ _ hset _ =>
    have hsum := Table.sum_set q.reservations j { v with claimed := true } TxReservation.promise
    rw [hv, Table.weight_some] at hsum
    rw [hset]
    have hpromise : TxReservation.promise { v with claimed := true } = v.promise := rfl
    exact .inl (by omega)
  | @sends up frames metadata r id valid j v hv _ _ hclear _ =>
    have hsum := Table.sum_clear q.reservations j TxReservation.promise
    rw [hclear]
    exact .inl (by omega)

theorem Books.taken {id : Nat} (h : Books siphash q q' (.takePending id) result) (hok : result.isOk = true) :
    q'.reservations.sum TxReservation.promise + 1 = q.reservations.sum TxReservation.promise := by
  cases h with
  | drops hquiet _ _ =>
    rw [hquiet rfl] at hok
    cases hok
  | @takes id j v hv _ hpending hset _ =>
    have hsum := Table.sum_set q.reservations j { v with pendingReserved := false } TxReservation.promise
    rw [hv, Table.weight_some] at hsum
    rw [hset]
    have hpromise : TxReservation.promise { v with pendingReserved := false } = 0 := rfl
    have hone : v.promise = 1 := if_pos hpending
    omega

end

/-! ## Every run -/

section
variable {n : Nat} {P : Platform} {siphash : Fin n → Octets → UInt64} {i : Fin n}

theorem HostGood.promise {h : Host n} (hgood : HostGood h) (i : Fin n) :
    (h.at i).queue.pendingReserved = (h.at i).queue.reservations.sum TxReservation.promise :=
  (hgood.device i).accounts.pending

theorem senderStep_reserved {s s' : Sender n} (hruns : s.Runs P siphash i s') (hgood : HostGood s.host) :
    (s'.queue i).queue.pendingReserved ≤ (s.queue i).queue.pendingReserved ∨
      (s.pending.sum (fun _ => 1) + (s.queue i).queue.pendingReserved < PENDING_LIMIT ∧
        (s'.queue i).queue.pendingReserved = (s.queue i).queue.pendingReserved + 1) := by
  unfold Sender.queue
  cases hruns with
  | idle hhost _ => exact .inl (by rw [hhost])
  | elsewhere j a hj hhost _ =>
    obtain ⟨ns, hat⟩ := hostStep_at_other siphash s.host hj a
    exact .inl (by rw [hhost, hat])
  | here a hissues hhost _ =>
    have hgood' := (hostStep_good siphash hgood (i, a)).1
    rw [hhost, hgood'.promise i, hgood.promise i, hostStep_at_self]
    rcases (queueStep_books (siphash i) (s.host.at i) a).promised with hle | ⟨args, r, alloc, rfl, hrel, hroom, heq⟩
    · exact .inl hle
    -- the device counts its messages in the section that reserves
    obtain ⟨m, ambient, hargs⟩ := hissues
    obtain ⟨_, _, _, -, -, -, hreliable, hactive, -⟩ := Submit.reserveArgs_ok hargs
    rw [if_pos (hreliable ▸ hrel)] at hactive
    rw [hactive, hgood.promise i] at hroom
    exact .inr ⟨hroom, heq⟩

theorem takePending_reserved {s : Sender n} (hgood : HostGood s.host) {id : Nat}
    (hok : (reservationPending (s.queue i).queue id).2 = .ok ()) :
    ((s.queueDo siphash i (.takePending id)).queue i).queue.pendingReserved + 1 =
    (s.queue i).queue.pendingReserved := by
  have hgood' := (hostStep_good siphash hgood (i, .takePending id)).1
  show ((hostStep siphash s.host (i, .takePending id)).at i).queue.pendingReserved + 1 =
    (s.host.at i).queue.pendingReserved
  rw [hgood'.promise i, hgood.promise i, hostStep_at_self]
  refine (queueStep_books (siphash i) (s.host.at i) (.takePending id)).taken ?_
  show ((reservationPending (s.queue i).queue id).2.map fun _ => 0).isOk = true
  rw [hok]
  rfl

theorem register_promised {s : Sender n} (hgood : HostGood s.host) (hp : s.promised i ≤ PENDING_LIMIT) (k : Nat)
    (c : SendCall) (stage : SendStage)
    (hfree : s.pending.free?.isSome = true → c.job.reservation = 0 → s.promised i < PENDING_LIMIT) :
    (sendStep P siphash i s k c .register stage).promised i ≤ PENDING_LIMIT := by
  cases stage with
  | registering m frames paceMs =>
    unfold sendStep
    dsimp only
    have hcases := sendRegister_cases s.node.dev (s.transmit i) c.job m frames paceMs (s.nowMs i)
    generalize sendRegister s.node.dev (s.transmit i) c.job m frames paceMs (s.nowMs i) = r at hcases
    have hqueue : (s.transmit i).queue = (s.queue i).queue := rfl
    have hpending : (s.transmit i).pending = s.pending := rfl
    rw [hqueue, hpending] at hcases
    unfold Sender.promised at hp hfree ⊢
    split_ifs with hif
    · show r.1.pending.sum _ + ((s.queueDo siphash i (.takePending c.job.reservation)).queue i).queue.pendingReserved
        ≤ _
      rcases hcases with hsame | ⟨p, slot, reliability, hreach, hslot, htake, hset, -⟩
      · have hruns : s.Runs P siphash i (s.queueDo siphash i (.takePending c.job.reservation)) :=
          .here (.takePending c.job.reservation) trivial rfl rfl
        rcases senderStep_reserved hruns hgood with hle | ⟨hlt, heq⟩
        · rw [hsame]
          omega
        · rw [hsame]
          omega
      · have htaken : ((s.queueDo siphash i (.takePending c.job.reservation)).queue i).queue.pendingReserved + 1 = _ :=
          takePending_reserved hgood (htake hif.2.2)
        have hsum :=
          Table.sum_set s.pending slot (pendingFor (c.job.pendingArgs p m frames paceMs) reliability (s.nowMs i))
          fun _ => 1
        rw [hset]
        omega
    · show r.1.pending.sum _ + (s.queue i).queue.pendingReserved ≤ _
      rcases hcases with hsame | ⟨p, slot, reliability, hreach, hslot, htake, hset, -⟩
      · rw [hsame]
        exact hp
      have hzero : c.job.reservation = 0 := by
        by_contra hne
        exact hif ⟨by rw [hreach]; rfl, by rw [hslot]; rfl, hne⟩
      have hsum :=
        Table.sum_set s.pending slot (pendingFor (c.job.pendingArgs p m frames paceMs) reliability (s.nowMs i))
        fun _ => 1
      have hlt := hfree (by rw [hslot]; rfl) hzero
      rw [hset]
      omega
  | _ => exact hp

theorem senderStep_promised {s : Sender n} (hgood : HostGood s.host) (hp : s.promised i ≤ PENDING_LIMIT)
    (a : SenderLabel n) (ha : s.registersFree a = true → s.promised i < PENDING_LIMIT) :
    (senderStep P siphash i s a).promised i ≤ PENDING_LIMIT := by
  by_cases hregister : ∃ k, a = .call k .register
  · obtain ⟨k, rfl⟩ := hregister
    unfold senderStep
    dsimp only
    split
    · exact hp
    rename_i c hc
    refine register_promised hgood hp k c c.stage fun hslot hzero => ha ?_
    show (s.pending.free?.isSome && s.calls[k]?.any fun c => c.job.reservation = 0) = true
    rw [hslot, hc]
    exact decide_eq_true hzero
  · have hkept : PendingKept s.pending (senderStep P siphash i s a).pending :=
      senderStep_pending s a fun k heq => hregister ⟨k, heq⟩
    have hle := hkept.sum_le
    have hruns : s.Runs P siphash i (senderStep P siphash i s a) := senderStep_runs s a
    unfold Sender.promised at hp ⊢
    rcases senderStep_reserved hruns hgood with hreserved | ⟨hlt, heq⟩
    · omega
    · omega

/-- If a message without a reservation takes a free slot only while one is left over, the promised slots are there for
those who hold the promise. -/
theorem promises_kept (P : Platform) (siphash : Fin n → Octets → UInt64) (i : Fin n) (as : List (SenderLabel n))
    (h : Along (senderStep P siphash i) (fun s a => s.registersFree a = true → s.promised i < PENDING_LIMIT)
      (Sender.initial n) as) :
    let s := run (senderStep P siphash i) (Sender.initial n) as
    s.promised i ≤ PENDING_LIMIT ∧
      ∀ j v, (s.queue i).queue.reservations j = some v → v.pendingReserved = true → s.pending.free?.isSome = true := by
  intro s
  obtain ⟨hgood, hp⟩ : HostGood s.host ∧ s.promised i ≤ PENDING_LIMIT := by
    refine run_induction (senderStep P siphash i) (fun s => HostGood s.host ∧ s.promised i ≤ PENDING_LIMIT) ?_
      ⟨host_initial_good n, ?_⟩ h
    · rintro s a ha ⟨hgood, hp⟩
      exact ⟨senderStep_good hgood a, senderStep_promised hgood hp a ha⟩
    · show (Table.empty : Table PENDING_LIMIT PendingMessage).sum (fun _ => 1) + 0 ≤ _
      rw [Table.sum_empty]
      exact Nat.zero_le _
  refine ⟨hp, fun j v hv hpending => Table.free?_isSome_of_sum_lt ?_⟩
  have hone : v.promise = 1 := if_pos hpending
  have hle := Table.le_sum hv TxReservation.promise
  have hpromise : (s.queue i).queue.pendingReserved = _ := hgood.promise i
  unfold Sender.promised at hp
  rw [hpromise] at hp
  have hsum : (s.host.at i).queue.reservations.sum TxReservation.promise =
    (s.queue i).queue.reservations.sum TxReservation.promise := rfl
  omega

theorem promises_kept_retried :
    (run (senderStep Platform.plain digest 0) (Sender.initial 1)
        (waiting ++ found ++ retries)).pending.sum (fun _ => 1) = 1 ∧
      (run (senderStep Platform.plain digest 0) (Sender.initial 1)
        (waiting ++ found ++ retries)).promised 0 ≤ PENDING_LIMIT :=
  ⟨by decide +kernel, (promises_kept Platform.plain digest 0 _ (by decide +kernel)).1⟩

end
end Melodi
