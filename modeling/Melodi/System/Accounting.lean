import Melodi.System.QueueRun

/-!
# The counters of the transmit queues

Devices share the records of their namespaces, and each counts its own frames and reservations.
-/

namespace Melodi
open Lib
variable {α : Type} {ns : List NamespaceQueue} {bytes count : Nat} {r' v : TxReservation} {locator : UInt32}
  {alloc : Bool}

/-! ## Accounts -/

def usage (q : TxQueue) (entry : TxEntry → Nat) (reservation : TxReservation → Nat) : Nat :=
  q.entries.sum entry + q.reservations.sum reservation

def netMessages (q : TxQueue) (net : Nat) : Nat :=
  usage q (fun e => if e.net = net then 1 else 0) fun r => if r.net = net then r.count else 0

def netBytes (q : TxQueue) (net : Nat) : Nat :=
  usage q (fun e => if e.net = net then e.frame.length else 0) fun r => if r.net = net then r.bytes else 0

/-- The counters are the sums over the tables; `others` is what other devices have in the namespace records. -/
structure Accounts (others : Nat → Nat × Nat) (q : TxQueue) : Prop where
  queued : q.queueCount = q.entries.sum fun _ => 1
  queuedBytes : q.queueBytes = q.entries.sum (·.frame.length)
  reserved : q.reservedCount = q.reservations.sum (·.count)
  reservedBytes : q.reservedBytes = q.reservations.sum (·.bytes)
  pending : q.pendingReserved = q.reservations.sum fun r => if r.pendingReserved then 1 else 0
  messages : ∀ net, nsMessages q.namespaces net = (others net).1 + netMessages q net
  bytes : ∀ net, nsBytes q.namespaces net = (others net).2 + netBytes q net
  idle : ∀ net, (others net).1 = 0 → (others net).2 = 0
  keyed : (q.namespaces.map (·.net)).Nodup
  positive : ∀ j r, q.reservations j = some r → 0 < r.count

/-- The limits of the queue, for each peer, service, binding and namespace. -/
structure Limits (q : TxQueue) : Prop where
  total : q.queueCount + q.reservedCount ≤ TX_QUEUE_LIMIT
  bytes : q.queueBytes + q.reservedBytes ≤ TX_BYTE_LIMIT
  data : dataUsage q ≤ TX_DATA_LIMIT
  peer : ∀ locator, peerUsage q locator ≤ TX_PER_PEER_LIMIT
  service : ∀ service, serviceUsage q service ≤ TX_PER_SERVICE_LIMIT
  binding : ∀ portid generation, bindingUsage q portid generation ≤ TX_PER_BINDING_LIMIT
  messages : ∀ net, nsMessages q.namespaces net ≤ TX_NAMESPACE_LIMIT
  namespaceBytes : ∀ net, nsBytes q.namespaces net ≤ TX_NAMESPACE_BYTE_LIMIT

structure Good (others : Nat → Nat × Nat) (q : TxQueue) : Prop where
  accounts : Accounts others q
  limits : Limits q

/-- What the counters are about: the tables and the counters themselves. -/
def TxQueue.ledger (q : TxQueue) :=
  (q.entries, q.reservations, q.namespaces, q.queueCount, q.queueBytes, q.reservedCount, q.reservedBytes,
    q.pendingReserved)

/-- One update of the code, with all it writes. An update that subtracts from a counter takes no more than it holds, so
that the unsigned counter of the source does not wrap. -/
inductive Safe : TxQueue → TxQueue → Prop where
  | entry {q i e} (h : q.entries i = some e) (hcount : 1 ≤ q.queueCount) (hbytes : e.frame.length ≤ q.queueBytes)
      (hmessages : 1 ≤ nsMessages q.namespaces e.net) (hnet : e.frame.length ≤ nsBytes q.namespaces e.net) :
      Safe q (queueRemoveLocked q i)
  | reservation {q j r} (h : q.reservations j = some r) (hcount : r.count ≤ q.reservedCount)
      (hbytes : r.bytes ≤ q.reservedBytes) (hpending : r.pendingReserved = true → 1 ≤ q.pendingReserved)
      (hmessages : r.count ≤ nsMessages q.namespaces r.net) (hnet : r.bytes ≤ nsBytes q.namespaces r.net) :
      Safe q (reservationRemoveLocked q j)
  | pending {q j r} (h : q.reservations j = some r) (hpending : 1 ≤ q.pendingReserved) :
      Safe q { (reservationUpdate q j { r with pendingReserved := false }) with
        pendingReserved := q.pendingReserved - 1 }
  /-- The reservation at slot `j` becomes the frames of the batch, which stay charged to its namespace. -/
  | convert {q j v metadata r groupId expiresMs peerIndex flowIndex groupSequence}
      {batch : List (Fin TX_QUEUE_LIMIT × Octets)}
      (hv : q.reservations j = some v) (hnodup : (batch.map Prod.fst).Nodup)
      (hfree : ∀ i ∈ batch.map Prod.fst, q.entries i = none)
      (hcount : batch.length = v.count) (hbytes : (batch.map (·.2.length)).sum = v.bytes)
      (hreserved : v.count ≤ q.reservedCount) (hreservedBytes : v.bytes ≤ q.reservedBytes) :
      Safe q (entriesWrite false v.net metadata r groupId expiresMs peerIndex flowIndex
        { q with
          groupSequence := groupSequence
          reservedCount := q.reservedCount - batch.length
          reservedBytes := q.reservedBytes - (batch.map (·.2.length)).sum
          reservations := q.reservations.clear j } batch)
  | batch {q net metadata r groupId expiresMs peerIndex flowIndex} {batch : List (Fin TX_QUEUE_LIMIT × Octets)}
      (hnodup : (batch.map Prod.fst).Nodup) (hfree : ∀ i ∈ batch.map Prod.fst, q.entries i = none) :
      Safe q (entriesWrite true net metadata r groupId expiresMs peerIndex flowIndex q batch)
  | reserve {q j v} (hfree : q.reservations j = none) : Safe q (reservationWrite q j v)
  | tend {q i e e'} (h : q.entries i = some e) (ht : e.Tended e') : Safe q (entryUpdate q i e')
  | note {q j r r'} (h : q.reservations j = some r) (hnoted : r.Noted r')
      (hpending : r'.pendingReserved = r.pendingReserved) : Safe q (reservationUpdate q j r')
  | get {q net alloc ns} (h : namespaceQueueGet q.namespaces net alloc = some ns) : Safe q { q with namespaces := ns }
  | put {q} (net : Nat) : Safe q { q with namespaces := namespaceQueuePut q.namespaces net }
  | keep {q q'} (h : q'.ledger = q.ledger) : Safe q q'

def Sound (others : Nat → Nat × Nat) (q q' : TxQueue) : Prop :=
  Good others q → Good others q' ∧ Relation.ReflTransGen Safe q q'

section
variable {others : Nat → Nat × Nat}

theorem Sound.refl (q : TxQueue) : Sound others q q := fun h => ⟨h, .refl⟩

theorem Sound.trans {q₁ q₂ q₃ : TxQueue} (h₁ : Sound others q₁ q₂) (h₂ : Sound others q₂ q₃) : Sound others q₁ q₃ := by
  intro h
  obtain ⟨hgood, hsafe⟩ := h₁ h
  obtain ⟨hgood', hsafe'⟩ := h₂ hgood
  exact ⟨hgood', hsafe.trans hsafe'⟩

theorem Sound.foldl {f : TxQueue → α → TxQueue} (h : ∀ q a, Sound others q (f q a)) (as : List α) (q : TxQueue) :
    Sound others q (as.foldl f q) := by
  induction as generalizing q with
  | nil => exact Sound.refl q
  | cons a as ih => exact (h q a).trans (ih (f q a))

/-! ## Updates that charge nothing -/

theorem Sound.of_ledger {q q' : TxQueue} (h : q'.ledger = q.ledger) : Sound others q q' := by
  refine fun hgood => ⟨?_, .single (.keep h)⟩
  cases q
  cases q'
  simp only [TxQueue.ledger, Prod.mk.injEq] at h
  obtain ⟨rfl, rfl, rfl, rfl, rfl, rfl, rfl, rfl⟩ := h
  obtain ⟨⟨h₁, h₂, h₃, h₄, h₅, h₆, h₇, h₈, h₉, h₁₀⟩, ⟨l₁, l₂, l₃, l₄, l₅, l₆, l₇, l₈⟩⟩ := hgood
  exact ⟨⟨h₁, h₂, h₃, h₄, h₅, h₆, h₇, h₈, h₉, h₁₀⟩, ⟨l₁, l₂, l₃, l₄, l₅, l₆, l₇, l₈⟩⟩

/-! ## Removing -/

theorem netBytes_eq_zero {q : TxQueue} (hpos : ∀ j r, q.reservations j = some r → 0 < r.count) {net : Nat}
    (h : netMessages q net = 0) : netBytes q net = 0 := by
  unfold netMessages usage at h
  obtain ⟨hentries, hreservations⟩ := Nat.add_eq_zero_iff.mp h
  have he : q.entries.sum (fun e => if e.net = net then e.frame.length else 0) = 0 := by
    refine Table.sum_eq_zero fun i e hi => ?_
    have hle := Table.le_sum hi fun e => if e.net = net then 1 else 0
    split_ifs with hnet
    · rw [if_pos hnet] at hle
      omega
    · rfl
  have hr : q.reservations.sum (fun r => if r.net = net then r.bytes else 0) = 0 := by
    refine Table.sum_eq_zero fun j r hj => ?_
    have hle := Table.le_sum hj fun r => if r.net = net then r.count else 0
    have := hpos j r hj
    split_ifs with hnet
    · rw [if_pos hnet] at hle
      omega
    · rfl
  rw [netBytes, usage, he, hr]

theorem release_namespaces (hkeys : (ns.map (·.net)).Nodup) {net messages : Nat}
    (hempty : nsMessages ns net - messages = 0 → nsBytes ns net - bytes = 0) :
    ((namespaceQueuePut (namespaceRelease ns net messages bytes) net).map (·.net)).Nodup ∧
    ∀ net', nsMessages (namespaceQueuePut (namespaceRelease ns net messages bytes) net) net' =
        (if net' = net then nsMessages ns net - messages else nsMessages ns net') ∧
      nsBytes (namespaceQueuePut (namespaceRelease ns net messages bytes) net) net' =
        if net' = net then nsBytes ns net - bytes else nsBytes ns net' := by
  have hkeys' : ((namespaceRelease ns net messages bytes).map (·.net)).Nodup := by
    rw [namespaceRelease, namespaceUpdate_nets]
    · exact hkeys
    · exact fun _ => rfl
  refine ⟨namespaceQueuePut_nodup hkeys' net, fun net' => ?_⟩
  rw [nsMessages_put hkeys', nsBytes_put hkeys', nsMessages_release, nsBytes_release]
  · exact ⟨rfl, rfl⟩
  · rw [nsMessages_release, nsBytes_release, if_pos rfl, if_pos rfl]
    exact hempty

/-- The counters of the tables are right, and the tables weigh no more than before. -/
structure Shrinks (q q' : TxQueue) : Prop where
  queued : q'.queueCount = q'.entries.sum fun _ => 1
  queuedBytes : q'.queueBytes = q'.entries.sum (·.frame.length)
  reserved : q'.reservedCount = q'.reservations.sum (·.count)
  reservedBytes : q'.reservedBytes = q'.reservations.sum (·.bytes)
  pending : q'.pendingReserved = q'.reservations.sum fun r => if r.pendingReserved then 1 else 0
  entries : ∀ f, q'.entries.sum f ≤ q.entries.sum f
  reservations : ∀ f, q'.reservations.sum f ≤ q.reservations.sum f
  positive : ∀ j r, q'.reservations j = some r → 0 < r.count

theorem Good.shrink {q q' : TxQueue} (hgood : Good others q) (hq : Shrinks q q') (net messages bytes : Nat)
    (hns : q'.namespaces = namespaceQueuePut (namespaceRelease q.namespaces net messages bytes) net)
    (hmessages : ∀ net', netMessages q' net' + (if net' = net then messages else 0) = netMessages q net')
    (hbytes : ∀ net', netBytes q' net' + (if net' = net then bytes else 0) = netBytes q net') : Good others q' := by
  obtain ⟨ha, hl⟩ := hgood
  have hempty : nsMessages q.namespaces net - messages = 0 → nsBytes q.namespaces net - bytes = 0 := by
    have hm := hmessages net
    have hb := hbytes net
    have hidle := ha.idle net
    rw [if_pos rfl] at hm hb
    rw [ha.messages, ha.bytes]
    intro hzero
    have hnone : netBytes q' net = 0 := netBytes_eq_zero hq.positive (by omega)
    have hothers := hidle (by omega)
    omega
  obtain ⟨hkeys, hcharges⟩ := release_namespaces ha.keyed hempty
  rw [← hns] at hkeys hcharges
  have hnsm : ∀ net', nsMessages q'.namespaces net' = (others net').1 + netMessages q' net' := by
    intro net'
    have hm := hmessages net'
    have ham := ha.messages net'
    rw [(hcharges net').1]
    split_ifs at hm ⊢ with hnet
    · subst hnet
      omega
    · omega
  have hnsb : ∀ net', nsBytes q'.namespaces net' = (others net').2 + netBytes q' net' := by
    intro net'
    have hb := hbytes net'
    have hab := ha.bytes net'
    rw [(hcharges net').2]
    split_ifs at hb ⊢ with hnet
    · subst hnet
      omega
    · omega
  have husage : ∀ entry reservation, queueUsage q' entry reservation ≤ queueUsage q entry reservation :=
    fun entry reservation => Nat.add_le_add (hq.entries _) (hq.reservations _)
  refine ⟨⟨hq.queued, hq.queuedBytes, hq.reserved, hq.reservedBytes, hq.pending, hnsm, hnsb, ha.idle, hkeys,
    hq.positive⟩, ⟨?_, ?_, ?_, ?_, ?_, ?_, ?_, ?_⟩⟩
  · have htotal := hl.total
    rw [ha.queued, ha.reserved] at htotal
    rw [hq.queued, hq.reserved]
    exact Nat.le_trans (Nat.add_le_add (hq.entries _) (hq.reservations _)) htotal
  · have htotal := hl.bytes
    rw [ha.queuedBytes, ha.reservedBytes] at htotal
    rw [hq.queuedBytes, hq.reservedBytes]
    exact Nat.le_trans (Nat.add_le_add (hq.entries _) (hq.reservations _)) htotal
  · exact Nat.le_trans (husage _ _) hl.data
  · exact fun locator => Nat.le_trans (husage _ _) (hl.peer locator)
  · exact fun service => Nat.le_trans (husage _ _) (hl.service service)
  · exact fun portid generation => Nat.le_trans (husage _ _) (hl.binding portid generation)
  · intro net'
    have hlim := hl.messages net'
    have hm := hmessages net'
    rw [ha.messages] at hlim
    rw [hnsm]
    omega
  · intro net'
    have hlim := hl.namespaceBytes net'
    have hb := hbytes net'
    rw [ha.bytes] at hlim
    rw [hnsb]
    omega

theorem removeEntry_sound {q : TxQueue} {i : Fin TX_QUEUE_LIMIT} {e : TxEntry} (h : q.entries i = some e) :
    Sound others q (queueRemoveLocked q i) := by
  intro hgood
  have ha := hgood.accounts
  have hsum : ∀ f, (q.entries.clear i).sum f + f e = q.entries.sum f := by
    intro f
    have hclear := Table.sum_clear q.entries i f
    rwa [h, Table.weight_some] at hclear
  have hcount := hsum fun _ => 1
  have hbytes := hsum (·.frame.length)
  obtain ⟨peers, flows, hq⟩ := queueRemoveLocked_of h
  constructor
  · rw [hq]
    refine hgood.shrink ⟨?_, ?_, ha.reserved, ha.reservedBytes, ha.pending, fun f => ?_, fun f => Nat.le_refl _,
      ha.positive⟩ e.net 1 e.frame.length rfl (fun net => ?_) fun net => ?_
    · rw [ha.queued]
      dsimp only
      omega
    · rw [ha.queuedBytes]
      dsimp only
      omega
    · have := hsum f
      dsimp only
      omega
    · have hnet := hsum fun a => if a.net = net then 1 else 0
      simp only [eq_comm (a := net)]
      unfold netMessages usage
      dsimp only
      omega
    · have hnet := hsum fun a => if a.net = net then a.frame.length else 0
      simp only [eq_comm (a := net)]
      unfold netBytes usage
      dsimp only
      omega
  · refine .single (.entry h ?_ ?_ ?_ ?_)
    · rw [ha.queued]
      omega
    · rw [ha.queuedBytes]
      omega
    · have hle := Table.le_sum h fun a => if a.net = e.net then 1 else 0
      rw [if_pos rfl] at hle
      rw [ha.messages, netMessages, usage]
      omega
    · have hle := Table.le_sum h fun a => if a.net = e.net then a.frame.length else 0
      rw [if_pos rfl] at hle
      rw [ha.bytes, netBytes, usage]
      omega

theorem removeReservation_sound {q : TxQueue} {j : Fin TX_RESERVATION_LIMIT} {r : TxReservation}
    (h : q.reservations j = some r) : Sound others q (reservationRemoveLocked q j) := by
  intro hgood
  have ha := hgood.accounts
  have hsum : ∀ f, (q.reservations.clear j).sum f + f r = q.reservations.sum f := by
    intro f
    have hclear := Table.sum_clear q.reservations j f
    rwa [h, Table.weight_some] at hclear
  have hcount := hsum (·.count)
  have hbytes := hsum (·.bytes)
  have hpending := hsum fun a => if a.pendingReserved then 1 else 0
  obtain ⟨peers, flows, hq⟩ := reservationRemoveLocked_of h
  constructor
  · rw [hq]
    refine hgood.shrink ⟨ha.queued, ha.queuedBytes, ?_, ?_, ?_, fun f => Nat.le_refl _, fun f => ?_, ?_⟩ r.net r.count
      r.bytes rfl (fun net => ?_) fun net => ?_
    · rw [ha.reserved]
      dsimp only
      omega
    · rw [ha.reservedBytes]
      dsimp only
      omega
    · rw [ha.pending]
      dsimp only
      split_ifs at hpending ⊢ <;> omega
    · have := hsum f
      dsimp only
      omega
    · exact fun k a hk => ha.positive k a (Table.clear_eq_some.mp hk).2
    · have hnet := hsum fun a => if a.net = net then a.count else 0
      simp only [eq_comm (a := net)]
      unfold netMessages usage
      dsimp only
      omega
    · have hnet := hsum fun a => if a.net = net then a.bytes else 0
      simp only [eq_comm (a := net)]
      unfold netBytes usage
      dsimp only
      omega
  · refine .single (.reservation h ?_ ?_ (fun hp => ?_) ?_ ?_)
    · rw [ha.reserved]
      omega
    · rw [ha.reservedBytes]
      omega
    · rw [if_pos hp] at hpending
      rw [ha.pending]
      omega
    · have hle := Table.le_sum h fun a => if a.net = r.net then a.count else 0
      rw [if_pos rfl] at hle
      rw [ha.messages, netMessages, usage]
      omega
    · have hle := Table.le_sum h fun a => if a.net = r.net then a.bytes else 0
      rw [if_pos rfl] at hle
      rw [ha.bytes, netBytes, usage]
      omega

theorem queueRemoveLocked_sound (q : TxQueue) (i : Fin TX_QUEUE_LIMIT) : Sound others q (queueRemoveLocked q i) := by
  cases h : q.entries i with
  | none =>
    rw [queueRemoveLocked_free h]
    exact Sound.refl q
  | some e => exact removeEntry_sound h

theorem reservationRemoveLocked_sound (q : TxQueue) (j : Fin TX_RESERVATION_LIMIT) :
    Sound others q (reservationRemoveLocked q j) := by
  cases h : q.reservations j with
  | none =>
    rw [reservationRemoveLocked_free h]
    exact Sound.refl q
  | some r => exact removeReservation_sound h

/-! ## Writing flags -/

theorem sum_set_eq {n : Nat} {t : Table n α} {i : Fin n} {a b : α} (h : t i = some a) {f : α → Nat} (hf : f b = f a) :
    (t.set i b).sum f = t.sum f := by
  have hset := Table.sum_set t i b f
  rw [h, Table.weight_some, hf] at hset
  omega

theorem entryUpdate_sound {q : TxQueue} {i : Fin TX_QUEUE_LIMIT} {e e' : TxEntry} (h : q.entries i = some e)
    (ht : e.Tended e') : Sound others q (entryUpdate q i e') := by
  obtain ⟨h₁, h₂, h₃, h₄, h₅, h₆, h₇⟩ : e'.frame = e.frame ∧ e'.net = e.net ∧ e'.control = e.control ∧
      e'.metadata = e.metadata ∧ e'.service = e.service ∧ e'.bindingPortid = e.bindingPortid ∧
      e'.bindingGeneration = e.bindingGeneration := by
    rw [ht.same]
    exact ⟨rfl, rfl, rfl, rfl, rfl, rfl, rfl⟩
  rintro ⟨ha, hl⟩
  have husage : ∀ entry reservation, entry e' = entry e →
      queueUsage (entryUpdate q i e') entry reservation = queueUsage q entry reservation := by
    intro entry reservation he
    exact congrArg (· + _) (sum_set_eq h (by simp [h₃, he]))
  have hmessages : ∀ net, netMessages (entryUpdate q i e') net = netMessages q net := fun net =>
    congrArg (· + _) (sum_set_eq h (by simp [h₂]))
  have hbytes : ∀ net, netBytes (entryUpdate q i e') net = netBytes q net := fun net =>
    congrArg (· + _) (sum_set_eq h (by simp [h₁, h₂]))
  refine ⟨⟨⟨?_, ?_, ha.reserved, ha.reservedBytes, ha.pending, fun net => ?_, fun net => ?_, ha.idle, ha.keyed,
    ha.positive⟩, ⟨hl.total, hl.bytes, ?_, fun l => ?_, fun v => ?_, fun p g => ?_, hl.messages, hl.namespaceBytes⟩⟩,
    .single (.tend h ht)⟩
  · exact ha.queued.trans (sum_set_eq (b := e') (f := fun _ => 1) h rfl).symm
  · exact ha.queuedBytes.trans (sum_set_eq h (by rw [h₁])).symm
  · rw [hmessages]
    exact ha.messages net
  · rw [hbytes]
    exact ha.bytes net
  · exact Nat.le_trans (Nat.le_of_eq (husage _ _ rfl)) hl.data
  · exact Nat.le_trans (Nat.le_of_eq (husage _ _ (by simp [h₄]))) (hl.peer l)
  · exact Nat.le_trans (Nat.le_of_eq (husage _ _ (by simp [h₅]))) (hl.service v)
  · exact Nat.le_trans (Nat.le_of_eq (husage _ _ (by simp [h₆, h₇]))) (hl.binding p g)

theorem Good.writeReservation {q : TxQueue} {j : Fin TX_RESERVATION_LIMIT} {r : TxReservation} {pending : Nat}
    (hgood : Good others q) (h : q.reservations j = some r) (hnoted : r.Noted r')
    (hpending : pending = (q.reservations.set j r').sum fun r => if r.pendingReserved then 1 else 0) :
    Good others { (reservationUpdate q j r') with pendingReserved := pending } := by
  obtain ⟨h₁, h₂, h₃, h₄, h₅, h₆, h₇⟩ : r'.count = r.count ∧ r'.bytes = r.bytes ∧ r'.net = r.net ∧
    r'.locator = r.locator ∧
      r'.service = r.service ∧ r'.bindingPortid = r.bindingPortid ∧ r'.bindingGeneration = r.bindingGeneration := by
    rw [hnoted]
    exact ⟨rfl, rfl, rfl, rfl, rfl, rfl, rfl⟩
  obtain ⟨ha, hl⟩ := hgood
  have husage : ∀ entry reservation, reservation r' = reservation r →
      queueUsage (reservationUpdate q j r') entry reservation = queueUsage q entry reservation := by
    intro entry reservation he
    exact congrArg (_ + ·) (sum_set_eq h (by simp [h₁, he]))
  have hmessages : ∀ net, netMessages (reservationUpdate q j r') net = netMessages q net := fun net =>
    congrArg (_ + ·) (sum_set_eq h (by simp [h₁, h₃]))
  have hbytes : ∀ net, netBytes (reservationUpdate q j r') net = netBytes q net := fun net =>
    congrArg (_ + ·) (sum_set_eq h (by simp [h₂, h₃]))
  refine ⟨⟨ha.queued, ha.queuedBytes, ?_, ?_, hpending, fun net => ?_, fun net => ?_, ha.idle, ha.keyed,
    fun k a hk => ?_⟩,
    ⟨hl.total, hl.bytes, ?_, fun l => ?_, fun v => ?_, fun p g => ?_, hl.messages, hl.namespaceBytes⟩⟩
  · exact ha.reserved.trans (sum_set_eq h h₁).symm
  · exact ha.reservedBytes.trans (sum_set_eq h h₂).symm
  · exact (ha.messages net).trans (congrArg _ (hmessages net).symm)
  · exact (ha.bytes net).trans (congrArg _ (hbytes net).symm)
  · rw [show (reservationUpdate q j r').reservations = q.reservations.set j r' from rfl, Table.set_apply] at hk
    split_ifs at hk
    · cases hk
      rw [h₁]
      exact ha.positive j r h
    · exact ha.positive k a hk
  · exact Nat.le_trans (Nat.le_of_eq (husage _ _ rfl)) hl.data
  · exact Nat.le_trans (Nat.le_of_eq (husage _ _ (by simp [h₄]))) (hl.peer l)
  · exact Nat.le_trans (Nat.le_of_eq (husage _ _ (by simp [h₅]))) (hl.service v)
  · exact Nat.le_trans (Nat.le_of_eq (husage _ _ (by simp [h₆, h₇]))) (hl.binding p g)

theorem reservationUpdate_sound {q : TxQueue} {j : Fin TX_RESERVATION_LIMIT} {r : TxReservation}
    (h : q.reservations j = some r) (hnoted : r.Noted r') (hpending : r'.pendingReserved = r.pendingReserved) :
    Sound others q (reservationUpdate q j r') := by
  intro hgood
  refine ⟨hgood.writeReservation h hnoted ?_, .single (.note h hnoted hpending)⟩
  exact hgood.accounts.pending.trans (sum_set_eq h (by simp [hpending])).symm

theorem takePending_sound {q : TxQueue} {j : Fin TX_RESERVATION_LIMIT} {r : TxReservation}
    (h : q.reservations j = some r) (hpending : r.pendingReserved = true) : Sound others q
      { (reservationUpdate q j { r with pendingReserved := false }) with pendingReserved := q.pendingReserved -
      1 } := by
  intro hgood
  have hsum := Table.sum_set q.reservations j { r with pendingReserved := false }
    fun r => if r.pendingReserved then 1 else 0
  have hone := Table.le_sum h fun r => if r.pendingReserved then 1 else 0
  have ha := hgood.accounts.pending
  simp only [h, Table.weight_some, hpending, if_true, Bool.false_eq_true, if_false] at hsum hone
  refine ⟨hgood.writeReservation h rfl ?_, .single (.pending h ?_)⟩
  · omega
  · omega

/-! ## Namespace records -/

theorem namespaces_sound {q : TxQueue} (hsafe : Safe q { q with namespaces := ns })
    (hkeys : (q.namespaces.map (·.net)).Nodup → (ns.map (·.net)).Nodup)
    (h : Good others q → ∀ net, nsMessages ns net = nsMessages q.namespaces net ∧ nsBytes ns net =
      nsBytes q.namespaces net) :
    Sound others q { q with namespaces := ns } := by
  intro hgood
  have hsame := h hgood
  obtain ⟨ha, hl⟩ := hgood
  refine ⟨⟨⟨ha.queued, ha.queuedBytes, ha.reserved, ha.reservedBytes, ha.pending, fun net => ?_, fun net => ?_, ha.idle,
    hkeys ha.keyed, ha.positive⟩,
    ⟨hl.total, hl.bytes, hl.data, hl.peer, hl.service, hl.binding, fun net => ?_, fun net => ?_⟩⟩, .single hsafe⟩
  · exact (hsame net).1.trans (ha.messages net)
  · exact (hsame net).2.trans (ha.bytes net)
  · exact Nat.le_trans (Nat.le_of_eq (hsame net).1) (hl.messages net)
  · exact Nat.le_trans (Nat.le_of_eq (hsame net).2) (hl.namespaceBytes net)

theorem Good.empty {q : TxQueue} (h : Good others q) {net : Nat} (hzero : nsMessages q.namespaces net = 0) :
    nsBytes q.namespaces net = 0 := by
  have ha := h.accounts
  rw [ha.messages] at hzero
  rw [ha.bytes, ha.idle net (by omega), netBytes_eq_zero ha.positive (by omega)]

theorem put_sound (q : TxQueue) (net : Nat) :
    Sound others q { q with namespaces := namespaceQueuePut q.namespaces net } :=
  namespaces_sound (.put net) (fun hkeys => namespaceQueuePut_nodup hkeys net) fun hgood net' =>
    ⟨nsMessages_put hgood.accounts.keyed net net', nsBytes_put hgood.accounts.keyed hgood.empty net'⟩

theorem queueFailed_sound (q : TxQueue) (net : Nat) (e : Errno) :
    Sound others q (queueFailed q net e (α := α)).1 := put_sound q net

/-! ## Room -/

structure Room (q : TxQueue) (net : Nat) (locator : UInt32) (r : QueueRequest) (count bytes : Nat) : Prop where
  found : (namespaceQueueFind q.namespaces net).isSome = true
  total : q.queueCount + q.reservedCount + count ≤ TX_QUEUE_LIMIT
  totalBytes : q.queueBytes + q.reservedBytes + bytes ≤ TX_BYTE_LIMIT
  messages : nsMessages q.namespaces net + count ≤ TX_NAMESPACE_LIMIT
  namespaceBytes : nsBytes q.namespaces net + bytes ≤ TX_NAMESPACE_BYTE_LIMIT
  data : r.control = false → dataUsage q + count ≤ TX_DATA_LIMIT
  peer : r.control = false → peerUsage q locator + count ≤ TX_PER_PEER_LIMIT
  service : r.control = false → serviceUsage q r.service + count ≤ TX_PER_SERVICE_LIMIT
  binding : r.control = false → bindingUsage q r.bindingPortid r.bindingGeneration + count ≤ TX_PER_BINDING_LIMIT

theorem capacityCheck_ok {q : TxQueue} {n : NamespaceQueue} {r : QueueRequest} :
    capacityCheck q n locator r count bytes = .ok () ↔
    q.queueCount + q.reservedCount + count ≤ TX_QUEUE_LIMIT ∧ q.queueBytes + q.reservedBytes + bytes ≤ TX_BYTE_LIMIT ∧
    n.messages + count ≤ TX_NAMESPACE_LIMIT ∧ n.bytes + bytes ≤ TX_NAMESPACE_BYTE_LIMIT ∧
    (r.control = false → dataUsage q + count ≤ TX_DATA_LIMIT ∧ peerUsage q locator + count ≤ TX_PER_PEER_LIMIT ∧
      serviceUsage q r.service + count ≤ TX_PER_SERVICE_LIMIT ∧
      bindingUsage q r.bindingPortid r.bindingGeneration + count ≤ TX_PER_BINDING_LIMIT) := by
  unfold capacityCheck
  constructor
  · intro h
    split_ifs at h with h₁ h₂ h₃ h₄
    refine ⟨by omega, by omega, by omega, by omega, fun hc => ⟨?_, ?_, ?_, ?_⟩⟩
    all_goals
      simp only [hc, true_and] at h₂ h₄
      omega
  · rintro ⟨h₁, h₂, h₃, h₄, h₅⟩
    rw [if_neg (by omega), if_neg (by rintro ⟨hc, h⟩; have := h₅ hc; omega), if_neg (by omega),
      if_neg (by rintro ⟨hc, h⟩; have := h₅ hc; omega)]

theorem queueCapacityLocked_spec {q q' : TxQueue} {net : Nat} {r : QueueRequest} {result : Except Errno Unit}
    (h : queueCapacityLocked q net locator r count bytes alloc = (q', result)) :
    Sound others q q' ∧ q'.reservations = q.reservations ∧
      (Good others q → result = .ok () → Room q' net locator r count bytes) := by
  unfold queueCapacityLocked at h
  cases hget : namespaceQueueGet q.namespaces net alloc with
  | none =>
    rw [hget] at h
    cases h
    exact ⟨Sound.refl q, rfl, nofun⟩
  | some ns =>
    rw [hget] at h
    obtain ⟨rfl, rfl⟩ := Prod.mk.inj h
    refine ⟨namespaces_sound (.get hget) (fun hkeys => (namespaceQueueGet_some hget hkeys).1) fun hgood =>
      (namespaceQueueGet_some hget hgood.accounts.keyed).2.2, rfl, fun hgood hok => ?_⟩
    obtain ⟨n, hn⟩ := Option.isSome_iff_exists.mp (namespaceQueueGet_some hget hgood.accounts.keyed).2.1
    rw [hn] at hok
    obtain ⟨h₁, h₂, h₃, h₄, h₅⟩ := capacityCheck_ok.mp hok
    exact
      { found := by rw [hn]; rfl
        total := h₁
        totalBytes := h₂
        messages := by simpa [nsMessages, hn] using h₃
        namespaceBytes := by simpa [nsBytes, hn] using h₄
        data := fun hc => (h₅ hc).1
        peer := fun hc => (h₅ hc).2.1
        service := fun hc => (h₅ hc).2.2.1
        binding := fun hc => (h₅ hc).2.2.2 }

theorem Good.grow {q : TxQueue} (hgood : Good others q) (q' : TxQueue) (net messages bytes : Nat)
    (hfound : (namespaceQueueFind q.namespaces net).isSome = true)
    (hns : q'.namespaces = namespaceCharge q.namespaces net messages bytes)
    (hmessages : ∀ net', netMessages q' net' = netMessages q net' + if net' = net then messages else 0)
    (hbytes : ∀ net', netBytes q' net' = netBytes q net' + if net' = net then bytes else 0)
    (hroom : nsMessages q.namespaces net + messages ≤ TX_NAMESPACE_LIMIT)
    (hroomBytes : nsBytes q.namespaces net + bytes ≤ TX_NAMESPACE_BYTE_LIMIT)
    (hcounts : (∀ net, nsMessages q'.namespaces net = (others net).1 + netMessages q' net) →
      (∀ net, nsBytes q'.namespaces net = (others net).2 + netBytes q' net) →
      (q'.namespaces.map (·.net)).Nodup → Accounts others q')
    (hlimits : (∀ net, nsMessages q'.namespaces net ≤ TX_NAMESPACE_LIMIT) →
      (∀ net, nsBytes q'.namespaces net ≤ TX_NAMESPACE_BYTE_LIMIT) → Limits q') : Good others q' := by
  obtain ⟨ha, hl⟩ := hgood
  have hm : ∀ net', nsMessages q'.namespaces net' = nsMessages q.namespaces net' + if net' = net then messages
    else 0 := by
    intro net'
    rw [hns, nsMessages_charge hfound]
    split_ifs with hnet
    · rw [hnet]
    · rfl
  have hb : ∀ net', nsBytes q'.namespaces net' = nsBytes q.namespaces net' + if net' = net then bytes else 0 := by
    intro net'
    rw [hns, nsBytes_charge hfound]
    split_ifs with hnet
    · rw [hnet]
    · rfl
  refine ⟨hcounts (fun net' => ?_) (fun net' => ?_) ?_, hlimits (fun net' => ?_) fun net' => ?_⟩
  · rw [hm, hmessages, ha.messages, Nat.add_assoc]
  · rw [hb, hbytes, ha.bytes, Nat.add_assoc]
  · rw [hns, namespaceCharge, namespaceUpdate_nets]
    · exact ha.keyed
    · exact fun _ => rfl
  · have hlim := hl.messages net'
    rw [hm]
    split_ifs with hnet
    · rw [hnet]
      exact hroom
    · exact hlim
  · have hlim := hl.namespaceBytes net'
    rw [hb]
    split_ifs with hnet
    · rw [hnet]
      exact hroomBytes
    · exact hlim

theorem add_ite_le {c : Prop} [Decidable c] {a b limit : Nat} (hin : c → a + b ≤ limit) (hout : a ≤ limit) :
    a + (if c then b else 0) ≤ limit := by
  split_ifs with h
  · exact hin h
  · exact hout

theorem reservationWrite_sound {q : TxQueue} {j : Fin TX_RESERVATION_LIMIT} {r : QueueRequest}
    (hfree : q.reservations j = none) (hpos : 0 < v.count) (hcontrol : r.control = false)
    (hservice : v.service = r.service) (hportid : v.bindingPortid = r.bindingPortid)
    (hgeneration : v.bindingGeneration = r.bindingGeneration)
    (hroom : Good others q → Room q v.net v.locator r v.count v.bytes) : Sound others q (reservationWrite q j v) := by
  intro hgood
  have hroom := hroom hgood
  have ha := hgood.accounts
  have hl := hgood.limits
  have hsum : ∀ f, (q.reservations.set j v).sum f = q.reservations.sum f + f v := by
    intro f
    have hset := Table.sum_set q.reservations j v f
    rw [hfree, Table.weight_none] at hset
    omega
  have husage : ∀ entry reservation, queueUsage (reservationWrite q j v) entry reservation =
      queueUsage q entry reservation + if reservation v then v.count else 0 := by
    intro entry reservation
    have := hsum fun r => if reservation r then r.count else 0
    unfold queueUsage reservationWrite
    dsimp only
    omega
  refine ⟨hgood.grow (reservationWrite q j v) v.net v.count v.bytes hroom.found rfl ?_ ?_ hroom.messages
    hroom.namespaceBytes ?_ ?_, .single (.reserve hfree)⟩
  · intro net
    have := hsum fun a => if a.net = net then a.count else 0
    simp only [eq_comm (a := net)]
    unfold netMessages usage reservationWrite
    dsimp only
    omega
  · intro net
    have := hsum fun a => if a.net = net then a.bytes else 0
    simp only [eq_comm (a := net)]
    unfold netBytes usage reservationWrite
    dsimp only
    omega
  · intro hm hb hkeys
    refine ⟨ha.queued, ha.queuedBytes, ?_, ?_, ?_, hm, hb, ha.idle, hkeys, fun k a hk => ?_⟩
    · exact (congrArg (· + _) ha.reserved).trans (hsum _).symm
    · exact (congrArg (· + _) ha.reservedBytes).trans (hsum _).symm
    · have hp := hsum fun r => if r.pendingReserved then 1 else 0
      have := ha.pending
      unfold reservationWrite
      dsimp only
      rw [hp]
      split_ifs <;> omega
    · rw [show (reservationWrite q j v).reservations = q.reservations.set j v from rfl, Table.set_apply] at hk
      split_ifs at hk
      · cases hk
        exact hpos
      · exact ha.positive k a hk
  · intro hm hb
    refine ⟨?_, ?_, ?_, fun l => ?_, fun n => ?_, fun p g => ?_, hm, hb⟩
    · have := hroom.total
      unfold reservationWrite
      dsimp only
      omega
    · have := hroom.totalBytes
      unfold reservationWrite
      dsimp only
      omega
    · exact Nat.le_trans (Nat.le_of_eq (husage _ _)) (add_ite_le (fun _ => hroom.data hcontrol) hl.data)
    · refine Nat.le_trans (Nat.le_of_eq (husage _ _)) (add_ite_le (fun h => ?_) (hl.peer l))
      rw [← of_decide_eq_true h]
      exact hroom.peer hcontrol
    · refine Nat.le_trans (Nat.le_of_eq (husage _ _)) (add_ite_le (fun h => ?_) (hl.service n))
      rw [← of_decide_eq_true h, hservice]
      exact hroom.service hcontrol
    · refine Nat.le_trans (Nat.le_of_eq (husage _ _)) (add_ite_le (fun h => ?_) (hl.binding p g))
      obtain ⟨rfl, rfl⟩ : v.bindingPortid = p ∧ v.bindingGeneration = g := by simpa using h
      rw [hportid, hgeneration]
      exact hroom.binding hcontrol

/-! ## Admissions -/

theorem queueTurns_ledger (q : TxQueue) (locator : UInt32) (r : QueueRequest) (peer flow : Fin TX_FLOW_LIMIT × Bool) :
    (queueTurns q locator r peer flow).ledger = q.ledger := by
  unfold queueTurns
  dsimp only
  split_ifs <;> rfl

theorem Room.of_ledger {q q' : TxQueue} (h : q'.ledger = q.ledger) {net : Nat} {r : QueueRequest}
    (hroom : Room q net locator r count bytes) : Room q' net locator r count bytes := by
  cases q
  cases q'
  simp only [TxQueue.ledger, Prod.mk.injEq] at h
  obtain ⟨rfl, rfl, rfl, rfl, rfl, rfl, rfl, rfl⟩ := h
  exact ⟨hroom.found, hroom.total, hroom.totalBytes, hroom.messages, hroom.namespaceBytes, hroom.data, hroom.peer,
    hroom.service, hroom.binding⟩

theorem queueReserve_sound (q : TxQueue) (a : ReserveArgs) (r : QueueRequest) (nowMs : Nat) (alloc : Bool) :
    Sound others q (queueReserve q a r nowMs alloc).1 := by
  unfold queueReserve
  split_ifs with hargs hoverflow hstopping hpending
  · exact Sound.refl q
  · exact Sound.refl q
  · exact Sound.refl q
  · exact Sound.refl q
  simp only [not_or, Bool.not_eq_true] at hargs
  split
  · exact Sound.refl q
  rename_i j hfree
  split
  · rename_i q₁ e hcap
    exact (queueCapacityLocked_spec hcap).1.trans (queueFailed_sound q₁ _ _)
  rename_i q₁ hcap
  obtain ⟨hsound, hres, hroom⟩ : Sound others q q₁ ∧ _ := queueCapacityLocked_spec hcap
  split
  · exact hsound.trans (queueFailed_sound q₁ _ _)
  rename_i peer flow hturns
  split_ifs
  · exact hsound.trans (queueFailed_sound q₁ _ _)
  intro hgood
  have hledger := queueTurns_ledger q₁ a.locator r peer flow
  have hfree' : (queueTurns q₁ a.locator r peer flow).reservations j = none := by
    have hreservations : (queueTurns q₁ a.locator r peer flow).reservations = q₁.reservations :=
      congrArg (fun l => l.2.1) hledger
    rw [hreservations, hres]
    exact Table.free?_some hfree
  refine (hsound.trans ((Sound.of_ledger hledger).trans (reservationWrite_sound hfree' ?_ ?_ rfl rfl rfl
    fun _ => (hroom hgood rfl).of_ledger hledger))) hgood
  · exact Nat.pos_of_ne_zero hargs.1
  · exact hargs.2.2.1

section Batch
variable {net : Nat} {metadata : TxMeta} {r : QueueRequest} {groupId expiresMs : Nat}
  {peerIndex flowIndex : Fin TX_FLOW_LIMIT} {q : TxQueue} {batch : List (Fin TX_QUEUE_LIMIT × Octets)}

theorem entriesWrite_sound (hnodup : (batch.map Prod.fst).Nodup) (hfree : ∀ i ∈ batch.map Prod.fst, q.entries i = none)
    (hroom : Good others q → Room q net metadata.destinationLocator r batch.length (batch.map (·.2.length)).sum) :
    Sound others q (entriesWrite true net metadata r groupId expiresMs peerIndex flowIndex q batch) := by
  intro hgood
  have hroom := hroom hgood
  have ha := hgood.accounts
  have hl := hgood.limits
  obtain ⟨entries, sequence, hq⟩ := entriesWrite_eq true net metadata r groupId expiresMs peerIndex flowIndex q batch
  have hadds : BatchAdds net metadata r batch q.entries entries := by
    rw [show entries = _ from (congrArg TxQueue.entries hq).symm]
    exact entriesWrite_adds rfl hnodup hfree
  have husage : ∀ (entry : TxEntry → Bool) (reservation : TxReservation → Bool) (test : Bool),
      (∀ frame sequence groupId expiresMs peerIndex flowIndex,
        entry (entryFor frame net metadata r sequence groupId expiresMs peerIndex flowIndex) = test) →
      (entries.sum fun e => if !e.control && entry e then 1 else 0) +
        (q.reservations.sum fun r => if reservation r then r.count else 0) =
        queueUsage q entry reservation + if r.control = false ∧ test = true then batch.length else 0 := by
    intro entry reservation test htest
    rw [hadds.test entry test htest, queueUsage]
    omega
  refine ⟨?_, .single (.batch hnodup hfree)⟩
  rw [hq]
  refine hgood.grow _ net batch.length (batch.map (·.2.length)).sum hroom.found rfl ?_ ?_ hroom.messages
    hroom.namespaceBytes ?_ ?_
  · intro net'
    have := hadds.netCount net'
    simp only [eq_comm (a := net')]
    unfold netMessages usage
    dsimp only
    omega
  · intro net'
    have := hadds.netBytes net'
    simp only [eq_comm (a := net')]
    unfold netBytes usage
    dsimp only
    omega
  · intro hm hb hkeys
    refine ⟨?_, ?_, ha.reserved, ha.reservedBytes, ha.pending, hm, hb, ha.idle, hkeys, ha.positive⟩
    · dsimp only
      rw [hadds.count, ha.queued]
    · dsimp only
      rw [hadds.bytes, ha.queuedBytes]
  · intro hm hb
    refine ⟨?_, ?_, ?_, fun l => ?_, fun n => ?_, fun p g => ?_, hm, hb⟩
    · have := hroom.total
      dsimp only
      omega
    · have := hroom.totalBytes
      dsimp only
      omega
    · exact Nat.le_trans (Nat.le_of_eq (husage _ _ true fun _ _ _ _ _ _ => rfl))
        (add_ite_le (fun h => hroom.data h.1) hl.data)
    · refine Nat.le_trans (Nat.le_of_eq (husage _ _ (metadata.destinationLocator = l) fun _ _ _ _ _ _ => rfl))
        (add_ite_le (fun h => ?_) (hl.peer l))
      rw [← of_decide_eq_true h.2]
      exact hroom.peer h.1
    · refine Nat.le_trans (Nat.le_of_eq (husage _ _ (r.service = n) fun _ _ _ _ _ _ => rfl))
        (add_ite_le (fun h => ?_) (hl.service n))
      rw [← of_decide_eq_true h.2]
      exact hroom.service h.1
    · refine Nat.le_trans
        (Nat.le_of_eq (husage _ _ (r.bindingPortid = p && r.bindingGeneration = g) fun _ _ _ _ _ _ => rfl))
        (add_ite_le (fun h => ?_) (hl.binding p g))
      obtain ⟨rfl, rfl⟩ : r.bindingPortid = p ∧ r.bindingGeneration = g := by simpa using h.2
      exact hroom.binding h.1

theorem convert_sound {j : Fin TX_RESERVATION_LIMIT} {groupSequence : Nat} (hnodup : (batch.map Prod.fst).Nodup)
    (hfree : ∀ i ∈ batch.map Prod.fst, q.entries i = none) (hv : q.reservations j = some v)
    (hcount : batch.length = count)
    (hlen : (batch.map (·.2.length)).sum = bytes) (hfor : v.isFor count bytes metadata r = true)
    (hcontrol : r.control = false) :
    Sound others q (entriesWrite false v.net metadata r groupId expiresMs peerIndex flowIndex
      { q with
        groupSequence := groupSequence
        reservedCount := q.reservedCount - count
        reservedBytes := q.reservedBytes - bytes
        reservations := q.reservations.clear j } batch) := by
  subst hcount hlen
  intro hgood
  have ha := hgood.accounts
  have hl := hgood.limits
  simp only [TxReservation.isFor, Bool.and_eq_true, decide_eq_true_eq, Bool.not_eq_true'] at hfor
  obtain ⟨⟨⟨⟨⟨⟨⟨⟨⟨⟨⟨⟨⟨⟨⟨hvc, hvb⟩, hvl⟩, hvp⟩, hvg⟩, hvs⟩, -⟩, -⟩, -⟩, -⟩, -⟩, -⟩, -⟩, -⟩, hvpending⟩, -⟩ := hfor
  have hsum : ∀ f, (q.reservations.clear j).sum f + f v = q.reservations.sum f := by
    intro f
    have hclear := Table.sum_clear q.reservations j f
    rwa [hv, Table.weight_some] at hclear
  have hres := hsum (·.count)
  have hresBytes := hsum (·.bytes)
  have hpending := hsum fun r => if r.pendingReserved then 1 else 0
  obtain ⟨entries, sequence, hq⟩ := entriesWrite_eq false v.net metadata r groupId expiresMs peerIndex flowIndex
    { q with
      groupSequence := groupSequence
      reservedCount := q.reservedCount - batch.length
      reservedBytes := q.reservedBytes - (batch.map (·.2.length)).sum
      reservations := q.reservations.clear j } batch
  have hadds : BatchAdds v.net metadata r batch q.entries entries := by
    rw [show entries = _ from (congrArg TxQueue.entries hq).symm]
    exact entriesWrite_adds rfl hnodup hfree
  have husage : ∀ (entry : TxEntry → Bool) (reservation : TxReservation → Bool),
      (∀ frame sequence groupId expiresMs peerIndex flowIndex,
        entry (entryFor frame v.net metadata r sequence groupId expiresMs peerIndex flowIndex) = reservation v) →
      (entries.sum fun e => if !e.control && entry e then 1 else 0) +
        ((q.reservations.clear j).sum fun r => if reservation r then r.count else 0) =
        queueUsage q entry reservation := by
    intro entry reservation htest
    have := hsum fun r => if reservation r then r.count else 0
    rw [hadds.test entry _ htest, queueUsage]
    simp only [hcontrol, true_and, hvc] at this ⊢
    omega
  have hmessages : ∀ net', (entries.sum fun e => if e.net = net' then 1 else 0) +
      ((q.reservations.clear j).sum fun r => if r.net = net' then r.count else 0) = netMessages q net' := by
    intro net'
    have := hsum fun r => if r.net = net' then r.count else 0
    have := hadds.netCount net'
    rw [netMessages, usage]
    simp only [hvc] at *
    omega
  have hoctets : ∀ net', (entries.sum fun e => if e.net = net' then e.frame.length else 0) +
      ((q.reservations.clear j).sum fun r => if r.net = net' then r.bytes else 0) = netBytes q net' := by
    intro net'
    have := hsum fun r => if r.net = net' then r.bytes else 0
    have := hadds.netBytes net'
    rw [netBytes, usage]
    simp only [hvb] at *
    omega
  have hreserved := ha.reserved
  have hreservedBytes := ha.reservedBytes
  refine ⟨?_, .single (.convert hv hnodup hfree hvc.symm hvb.symm (by omega) (by omega))⟩
  rw [hq]
  refine ⟨⟨?_, ?_, ?_, ?_, ?_, fun net' => ?_, fun net' => ?_, ha.idle, ha.keyed, fun k a hk => ?_⟩,
    ⟨?_, ?_, ?_, fun l => ?_, fun n => ?_, fun p g => ?_, hl.messages, hl.namespaceBytes⟩⟩
  · dsimp only
    rw [hadds.count, ha.queued]
  · dsimp only
    rw [hadds.bytes, ha.queuedBytes]
  · dsimp only
    rw [ha.reserved]
    omega
  · dsimp only
    rw [ha.reservedBytes]
    omega
  · dsimp only
    rw [hvpending] at hpending
    rw [ha.pending]
    exact hpending.symm
  · exact (ha.messages net').trans (congrArg _ (hmessages net').symm)
  · exact (ha.bytes net').trans (congrArg _ (hoctets net').symm)
  · exact ha.positive k a (Table.clear_eq_some.mp hk).2
  · have := hl.total
    have := ha.reserved
    dsimp only
    omega
  · have := hl.bytes
    have := ha.reservedBytes
    dsimp only
    omega
  · exact Nat.le_trans (Nat.le_of_eq (husage _ _ fun _ _ _ _ _ _ => rfl)) hl.data
  · exact Nat.le_trans (Nat.le_of_eq (husage _ _ fun _ _ _ _ _ _ => by rw [hvl]; rfl)) (hl.peer l)
  · exact Nat.le_trans (Nat.le_of_eq (husage _ _ fun _ _ _ _ _ _ => by rw [hvs]; rfl)) (hl.service n)
  · exact Nat.le_trans (Nat.le_of_eq (husage _ _ fun _ _ _ _ _ _ => by rw [hvp, hvg]; rfl)) (hl.binding p g)

end Batch

theorem writeBatch_sound {q₁ q₂ : TxQueue} {net : Nat} {metadata : TxMeta} {r : QueueRequest} {groupId expiresMs : Nat}
    {peerIndex flowIndex : Fin TX_FLOW_LIMIT} {frames : List Octets} (hbytes : bytes = (frames.map List.length).sum)
    (hslots : (queueSlots q₁ frames.length).length = frames.length) (hledger : q₂.ledger = q₁.ledger)
    (hroom : Room q₁ net metadata.destinationLocator r frames.length bytes) :
    Sound others q₁ (entriesWrite true net metadata r groupId expiresMs peerIndex flowIndex q₂
      ((queueSlots q₁ frames.length).zip frames)) := by
  obtain ⟨hnodup, hfree, hsum, hlen⟩ := zip_slots hslots
  have hentries : q₂.entries = q₁.entries := congrArg (fun l => l.1) hledger
  refine (Sound.of_ledger hledger).trans (entriesWrite_sound hnodup (hentries ▸ hfree) fun _ => ?_)
  rw [hlen, hsum, ← hbytes]
  exact hroom.of_ledger hledger

theorem sendBatchLocked_sound {q : TxQueue} {net : Nat} {frames : List Octets} {metadata : TxMeta} {r : QueueRequest}
    {nowMs : Nat} (hbytes : bytes = (frames.map List.length).sum) :
    Sound others q (sendBatchLocked q net frames bytes metadata r nowMs alloc).1 := by
  unfold sendBatchLocked
  by_cases hstopping : q.stopping = true
  · rw [if_pos hstopping]
    exact Sound.refl q
  rw [if_neg hstopping]
  split
  · rename_i q₁ e hcap
    exact (queueCapacityLocked_spec hcap).1.trans (queueFailed_sound q₁ _ _)
  rename_i q₁ hcap
  obtain ⟨hsound, -, hroom⟩ : Sound others q q₁ ∧ _ := queueCapacityLocked_spec hcap
  dsimp only
  by_cases hoverflow : U64_MAX - frames.length < q₁.queueSequence ∨ q₁.groupSequence = U64_MAX
  · rw [if_pos hoverflow]
    exact hsound.trans (queueFailed_sound q₁ _ _)
  rw [if_neg hoverflow]
  by_cases hslots : (queueSlots q₁ frames.length).length ≠ frames.length
  · rw [if_pos hslots]
    exact hsound.trans (queueFailed_sound q₁ _ _)
  rw [if_neg hslots]
  rw [not_not] at hslots
  by_cases hcontrol : r.control = true
  · rw [if_pos hcontrol]
    exact fun hgood => hsound.trans (writeBatch_sound hbytes hslots rfl (hroom hgood rfl)) hgood
  rw [if_neg hcontrol]
  split
  · exact hsound.trans (queueFailed_sound q₁ _ _)
  · rename_i peer flow hturns
    exact fun hgood => hsound.trans
      (writeBatch_sound hbytes hslots (queueTurns_ledger q₁ _ r peer flow) (hroom hgood rfl)) hgood

theorem coreSendBatch_sound (q : TxQueue) (up : Bool) (net : Nat) (frames : List Octets) (metadata : TxMeta)
    (r : QueueRequest) (nowMs : Nat) (alloc : Bool) (valid : Except Errno Unit) :
    Sound others q (coreSendBatch q up net frames metadata r nowMs alloc valid).1 := by
  unfold coreSendBatch
  by_cases hargs : frames.length = 0 ∨ FRAGMENT_LIMIT < frames.length ∨ r.ttlMs = 0 ∨ TTL_DEFAULT_MS < r.ttlMs ∨
      PRIORITY_MAX < r.priority
  · rw [if_pos hargs]
    exact Sound.refl q
  rw [if_neg hargs]
  by_cases hup : up = false
  · rw [if_pos hup]
    exact Sound.refl q
  rw [if_neg hup]
  split
  · exact Sound.refl q
  rename_i bytes hbytes
  by_cases hoverflow : U64_MAX - r.ttlMs < nowMs
  · rw [if_pos hoverflow]
    exact Sound.refl q
  rw [if_neg hoverflow]
  split
  · exact Sound.refl q
  · exact sendBatchLocked_sound (by simpa using batchBytes_ok hbytes)

theorem coreSendBatchReserved_sound (q : TxQueue) (up : Bool) (frames : List Octets) (metadata : TxMeta)
    (r : QueueRequest) (id : Nat) (valid : Except Errno Unit) :
    Sound others q (coreSendBatchReserved q up frames metadata r id valid).1 := by
  rcases coreSendBatchReserved_cases q up frames metadata r id valid with
    ⟨e, h⟩ | ⟨j, v, hv, -, hfor, -, -, hcontrol, -, hslots, h⟩
  · rw [h]
    exact Sound.refl q
  · rw [h]
    obtain ⟨hnodup, hfree, hsum, hlen⟩ := zip_slots hslots
    exact convert_sound hnodup hfree hv hlen hsum hfor hcontrol

/-! ## Reservations -/

theorem Edits.sound {K : EditKind → Prop} {q q' : TxQueue} (h : Edits K q q') : Sound others q q' := by
  induction h with
  | @remove q i => exact queueRemoveLocked_sound q i
  | tend _ he ht => exact entryUpdate_sound he ht
  | @drop q _ j => exact reservationRemoveLocked_sound q j
  | note _ hv hn hpending => exact reservationUpdate_sound hv hn hpending
  | take _ hv hpending => exact takePending_sound hv hpending
  | turn _ h =>
    obtain ⟨_, _, _, _, rfl⟩ := h
    exact Sound.of_ledger rfl
  | trans h₁ h₂ ih₁ ih₂ => exact ih₁.trans ih₂
  | _ => exact Sound.of_ledger rfl

theorem drainEntries_sound (q : TxQueue) : Sound others q (drainEntries q) := by
  refine (Sound.foldl queueRemoveLocked_sound (List.finRange TX_QUEUE_LIMIT) q).trans ?_
  have hnone := drainLoop_entries q
  unfold drainEntries
  generalize (List.finRange TX_QUEUE_LIMIT).foldl queueRemoveLocked q = q₁ at hnone
  intro hgood
  have hcount : q₁.queueCount = 0 := by
    rw [hgood.accounts.queued]
    exact Table.sum_eq_zero fun i e h => by rw [hnone i] at h; cases h
  have hbytes : q₁.queueBytes = 0 := by
    rw [hgood.accounts.queuedBytes]
    exact Table.sum_eq_zero fun i e h => by rw [hnone i] at h; cases h
  refine Sound.of_ledger ?_ hgood
  unfold TxQueue.ledger
  dsimp only
  rw [hcount, hbytes]

/-! ## Every section of the queue -/

theorem queueStep_sound (siphash : Octets → UInt64) (s : QueueState) (a : QueueLabel) :
    Sound others s.queue (queueStep siphash s a).1.queue := by
  cases a with
  | reserve a r alloc => exact queueReserve_sound s.queue a r s.nowMs alloc
  | send up net frames metadata r alloc valid =>
      exact coreSendBatch_sound s.queue up net frames metadata r s.nowMs alloc valid
  | sendReserved up frames metadata r id valid =>
      exact coreSendBatchReserved_sound s.queue up frames metadata r id valid
  | drainEntries =>
    unfold queueStep
    dsimp only
    split_ifs
    · exact drainEntries_sound s.queue
    · exact Sound.refl _
  | _ => exact (queueStep_edits siphash s rfl).sound

end

/-! ## Devices that share their namespaces -/

/-- The devices of a host. The list of namespaces is shared: the field of each queue is not used. -/
structure Host (n : Nat) where
  devices : Fin n → QueueState
  namespaces : List NamespaceQueue

section Host
variable {n : Nat}

def Host.at (h : Host n) (i : Fin n) : QueueState :=
  { h.devices i with queue := { (h.devices i).queue with namespaces := h.namespaces } }

def Host.initial (n : Nat) : Host n := ⟨fun _ => {}, []⟩

def hostStep (siphash : Fin n → Octets → UInt64) (h : Host n) (a : Fin n × QueueLabel) : Host n :=
  let s := (queueStep (siphash a.1) (h.at a.1) a.2).1
  ⟨Function.update h.devices a.1 s, s.queue.namespaces⟩

theorem hostStep_at_self (siphash : Fin n → Octets → UInt64) (h : Host n) (i : Fin n) (a : QueueLabel) :
    (hostStep siphash h (i, a)).at i = (queueStep (siphash i) (h.at i) a).1 := by
  unfold hostStep
  dsimp only
  generalize (queueStep (siphash i) (h.at i) a).1 = s
  unfold Host.at
  dsimp only
  rw [Function.update_self]

theorem hostStep_at_other (siphash : Fin n → Octets → UInt64) (h : Host n) {i j : Fin n} (hj : j ≠ i) (a : QueueLabel) :
    ∃ ns, (hostStep siphash h (j, a)).at i = { h.at i with queue := { (h.at i).queue with namespaces := ns } } := by
  refine ⟨(hostStep siphash h (j, a)).namespaces, ?_⟩
  unfold Host.at hostStep
  dsimp only
  rw [Function.update_of_ne hj.symm]

def Host.others (h : Host n) (i : Fin n) (net : Nat) : Nat × Nat :=
  (∑ j ∈ Finset.univ.erase i, netMessages (h.devices j).queue net, ∑ j ∈ Finset.univ.erase i,
    netBytes (h.devices j).queue net)

/-- Every queue is good, and the shared records are the sums over all devices. -/
structure HostGood (h : Host n) : Prop where
  device : ∀ i, Good (h.others i) (h.at i).queue
  messages : ∀ net, nsMessages h.namespaces net = ∑ j, netMessages (h.devices j).queue net
  bytes : ∀ net, nsBytes h.namespaces net = ∑ j, netBytes (h.devices j).queue net
  keyed : (h.namespaces.map (·.net)).Nodup
  held : ∀ i, Held (h.devices i)

theorem Good.total {h : Host n} {i : Fin n} (hgood : Good (h.others i) (h.at i).queue) (net : Nat) :
    nsMessages h.namespaces net = ∑ j, netMessages (h.devices j).queue net ∧
      nsBytes h.namespaces net = ∑ j, netBytes (h.devices j).queue net := by
  have hm := hgood.accounts.messages net
  have hb := hgood.accounts.bytes net
  rw [← Finset.sum_erase_add _ _ (Finset.mem_univ i), ← Finset.sum_erase_add _ _ (Finset.mem_univ i)]
  exact ⟨hm, hb⟩

theorem Good.elsewhere {others others' : Nat → Nat × Nat} {q : TxQueue} (hgood : Good others q)
    (hm : ∀ net, nsMessages ns net = (others' net).1 + netMessages q net)
    (hb : ∀ net, nsBytes ns net = (others' net).2 + netBytes q net) (hkeys : (ns.map (·.net)).Nodup)
    (hidle : ∀ net, (others' net).1 = 0 → (others' net).2 = 0) (hlim : ∀ net, nsMessages ns net ≤ TX_NAMESPACE_LIMIT)
    (hlimb : ∀ net, nsBytes ns net ≤ TX_NAMESPACE_BYTE_LIMIT) : Good others' { q with namespaces := ns } := by
  obtain ⟨ha, hl⟩ := hgood
  exact ⟨⟨ha.queued, ha.queuedBytes, ha.reserved, ha.reservedBytes, ha.pending, hm, hb, hidle, hkeys, ha.positive⟩,
    ⟨hl.total, hl.bytes, hl.data, hl.peer, hl.service, hl.binding, hlim, hlimb⟩⟩

theorem Host.others_idle {h : Host n} (hpos : ∀ j k r, (h.devices j).queue.reservations k = some r → 0 < r.count)
    (i : Fin n) (net : Nat) (hzero : (h.others i net).1 = 0) : (h.others i net).2 = 0 := by
  unfold Host.others at hzero ⊢
  dsimp only at hzero ⊢
  have hall := Finset.sum_eq_zero_iff.mp hzero
  exact Finset.sum_eq_zero (f := fun j => netBytes (h.devices j).queue net) fun j hj => netBytes_eq_zero (hpos j)
    (hall j hj)

theorem hostStep_good (siphash : Fin n → Octets → UInt64) {h : Host n} (hgood : HostGood h) (a : Fin n × QueueLabel) :
    HostGood (hostStep siphash h a) ∧
      Relation.ReflTransGen Safe (h.at a.1).queue ((hostStep siphash h a).at a.1).queue := by
  obtain ⟨i, a⟩ := a
  obtain ⟨hnew, hsafe⟩ := queueStep_sound (siphash i) (h.at i) a (hgood.device i)
  have hheld := queueStep_held (siphash i) (s := h.at i) (hgood.held i) a
  unfold hostStep
  dsimp only
  generalize (queueStep (siphash i) (h.at i) a).1 = s at hnew hsafe hheld
  have hsame : ∀ f : QueueState → Nat, (∑ j ∈ Finset.univ.erase i, f (Function.update h.devices i s j)) =
      ∑ j ∈ Finset.univ.erase i, f (h.devices j) := fun f =>
    Finset.sum_congr rfl fun j hj => by rw [Function.update_of_ne (Finset.ne_of_mem_erase hj)]
  have hothers : Host.others ⟨Function.update h.devices i s, s.queue.namespaces⟩ i = h.others i := by
    funext net
    exact Prod.ext (hsame fun s => netMessages s.queue net) (hsame fun s => netBytes s.queue net)
  have hat : (Host.at ⟨Function.update h.devices i s, s.queue.namespaces⟩ i).queue = s.queue := by
    unfold Host.at
    dsimp only
    rw [Function.update_self]
  have hgood_i : Good (Host.others ⟨Function.update h.devices i s, s.queue.namespaces⟩ i)
      (Host.at ⟨Function.update h.devices i s, s.queue.namespaces⟩ i).queue := by
    rw [hothers, hat]
    exact hnew
  have hpos : ∀ j k r, (Function.update h.devices i s j).queue.reservations k = some r → 0 < r.count := by
    intro j
    by_cases hj : j = i
    · subst hj
      rw [Function.update_self]
      exact hnew.accounts.positive
    · rw [Function.update_of_ne hj]
      exact (hgood.device j).accounts.positive
  refine ⟨⟨fun k => ?_, fun net => (hgood_i.total net).1, fun net => (hgood_i.total net).2, hnew.accounts.keyed,
    fun k => ?_⟩, ?_⟩
  · by_cases hk : k = i
    · subst hk
      exact hgood_i
    · have hdev : (Host.at ⟨Function.update h.devices i s, s.queue.namespaces⟩ k).queue =
          { (h.at k).queue with namespaces := s.queue.namespaces } := by
        unfold Host.at
        dsimp only
        rw [Function.update_of_ne hk]
      rw [hdev]
      refine (hgood.device k).elsewhere (fun net => ?_) (fun net => ?_) hnew.accounts.keyed
        (fun net => Host.others_idle hpos k net) hnew.limits.messages hnew.limits.namespaceBytes
      · have htotal := (hgood_i.total net).1
        rw [← Finset.sum_erase_add _ _ (Finset.mem_univ k)] at htotal
        dsimp only at htotal
        rw [Function.update_of_ne hk] at htotal
        exact htotal
      · have htotal := (hgood_i.total net).2
        rw [← Finset.sum_erase_add _ _ (Finset.mem_univ k)] at htotal
        dsimp only at htotal
        rw [Function.update_of_ne hk] at htotal
        exact htotal
  · dsimp only
    by_cases hk : k = i
    · subst hk
      rw [Function.update_self]
      exact hheld
    · rw [Function.update_of_ne hk]
      exact hgood.held k
  · rw [hat]
    exact hsafe

theorem host_initial_good (n : Nat) : HostGood (Host.initial n) := by
  have hmessages : ∀ net, netMessages ({} : TxQueue) net = 0 := fun net => by simp [netMessages, usage]
  have hbytes : ∀ net, netBytes ({} : TxQueue) net = 0 := fun net => by simp [netBytes, usage]
  have husage : ∀ entry reservation, queueUsage ({} : TxQueue) entry reservation = 0 := fun _ _ => by simp [queueUsage]
  have hothers : ∀ i net, (Host.initial n).others i net = (0, 0) := by
    intro i net
    simp [Host.others, Host.initial, hmessages, hbytes]
  have hle : ∀ entry reservation limit, queueUsage ({} : TxQueue) entry reservation ≤ limit :=
    fun entry reservation limit => by rw [husage]; exact Nat.zero_le _
  refine
    { device := fun i =>
        { accounts :=
            { queued := (Table.sum_empty _).symm
              queuedBytes := (Table.sum_empty _).symm
              reserved := (Table.sum_empty _).symm
              reservedBytes := (Table.sum_empty _).symm
              pending := (Table.sum_empty _).symm
              messages := fun net => ?_
              bytes := fun net => ?_
              idle := fun net _ => by rw [hothers]
              keyed := List.nodup_nil
              positive := nofun }
          limits :=
            { total := Nat.zero_le _
              bytes := Nat.zero_le _
              data := hle _ _ _
              peer := fun _ => hle _ _ _
              service := fun _ => hle _ _ _
              binding := fun _ _ => hle _ _ _
              messages := fun _ => Nat.zero_le _
              namespaceBytes := fun _ => Nat.zero_le _ } }
      messages := fun net => ?_
      bytes := fun net => ?_
      keyed := List.nodup_nil
      held := fun _ _ => rfl }
  · rw [hothers]
    exact (congrArg (0 + ·) (hmessages net)).symm
  · rw [hothers]
    exact (congrArg (0 + ·) (hbytes net)).symm
  · exact (Finset.sum_eq_zero fun j _ => hmessages net).symm
  · exact (Finset.sum_eq_zero fun j _ => hbytes net).symm

theorem Good.slots {others : Nat → Nat × Nat} {q : TxQueue} (h : Good others q) {j : Fin TX_RESERVATION_LIMIT}
    (hv : q.reservations j = some v) : (queueSlots q v.count).length = v.count := by
  have htotal := h.limits.total
  have hcount := Table.le_sum hv (·.count)
  rw [h.accounts.queued, h.accounts.reserved] at htotal
  exact length_queueSlots (by omega)

/-- **The accounts of the transmit queues.** After any sequence of sections of any number of devices: every counter is
the sum it stands for and no limit is exceeded; the worker's entry is there; the next section takes nothing off a
counter that it does not hold; and a send with a matching reservation finds a free slot for each of its frames. -/
theorem queue_accounts (n : Nat) (siphash : Fin n → Octets → UInt64) (as : List (Fin n × QueueLabel)) :
    HostGood (run (hostStep siphash) (Host.initial n) as) ∧
    (∀ a, Relation.ReflTransGen Safe ((run (hostStep siphash) (Host.initial n) as).at a.1).queue
      ((hostStep siphash (run (hostStep siphash) (Host.initial n) as) a).at a.1).queue) ∧
    ∀ i up frames metadata r id valid,
      (coreSendBatchReserved ((run (hostStep siphash) (Host.initial n) as).at i).queue up frames metadata r id valid).2
      = .error .ENOBUFS → valid = .error .ENOBUFS := by
  have hgood := run_invariant (hostStep siphash) HostGood (fun h a hgood => (hostStep_good siphash hgood a).1)
    (host_initial_good n) as
  refine ⟨hgood, fun a => (hostStep_good siphash hgood a).2, fun i up frames metadata r id valid hfull => ?_⟩
  rcases coreSendBatchReserved_full hfull with h | ⟨j, v, hv, hcount, hslots⟩
  · exact h
  · exact absurd (hcount ▸ (hgood.device i).slots hv) hslots

end Host
end Melodi
