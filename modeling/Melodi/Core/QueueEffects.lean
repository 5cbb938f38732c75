import Melodi.Core.Queue

/-!
# What the operations of the transmit queue change

Each operation of `queue.c` in terms of the tables and the counters, so that no caller unfolds it.
-/

namespace Melodi
open Lib
variable {i : Fin TX_QUEUE_LIMIT} {ns : List NamespaceQueue} {frames : List Octets} {q : TxQueue}
variable {f : NamespaceQueue → NamespaceQueue} {e : TxEntry} {id count start : Nat}
  {batch : List (Fin TX_QUEUE_LIMIT × Octets)}

/-! ## Namespaces -/

def nsMessages (ns : List NamespaceQueue) (net : Nat) : Nat := (namespaceQueueFind ns net).elim 0 (·.messages)

def nsBytes (ns : List NamespaceQueue) (net : Nat) : Nat := (namespaceQueueFind ns net).elim 0 (·.bytes)

theorem find_namespaceUpdate (ns : List NamespaceQueue) (net net' : Nat) (hf : ∀ n, (f n).net = n.net) :
    namespaceQueueFind (namespaceUpdate ns net f) net' =
      if net' = net then (namespaceQueueFind ns net).map f else namespaceQueueFind ns net' := by
  unfold namespaceQueueFind namespaceUpdate
  induction ns with
  | nil => simp
  | cons n ns ih =>
    by_cases hn : n.net = net
    · by_cases hnet : net' = net
      · simp [hn, hnet, hf]
      · have hne : ¬net = net' := fun h => hnet h.symm
        simpa [hn, hnet, hf, hne] using ih
    · by_cases hnet : net' = net
      · subst hnet
        simpa [hn] using ih
      · by_cases hn' : n.net = net'
        · simp [hn', hnet]
        · simpa [hn, hn', hnet] using ih

theorem find_namespaceCharge (ns : List NamespaceQueue) (net messages bytes net' : Nat) :
    namespaceQueueFind (namespaceCharge ns net messages bytes) net' =
      if net' = net then
        (namespaceQueueFind ns net).map fun n => { n with messages := n.messages + messages, bytes := n.bytes + bytes }
      else namespaceQueueFind ns net' := find_namespaceUpdate ns net net' fun _ => rfl

theorem find_namespaceRelease (ns : List NamespaceQueue) (net messages bytes net' : Nat) :
    namespaceQueueFind (namespaceRelease ns net messages bytes) net' =
      if net' = net then
        (namespaceQueueFind ns net).map fun n => { n with messages := n.messages - messages, bytes := n.bytes - bytes }
      else namespaceQueueFind ns net' := find_namespaceUpdate ns net net' fun _ => rfl

theorem namespaceUpdate_nets (ns : List NamespaceQueue) (net : Nat) (hf : ∀ n, (f n).net = n.net) :
    (namespaceUpdate ns net f).map (·.net) = ns.map (·.net) := by
  unfold namespaceUpdate
  rw [List.map_map]
  refine List.map_congr_left fun n _ => ?_
  by_cases hn : n.net = net <;> simp [hn, hf]

theorem namespaceCharge_charge (ns : List NamespaceQueue) (net m₁ b₁ m₂ b₂ : Nat) :
    namespaceCharge (namespaceCharge ns net m₁ b₁) net m₂ b₂ = namespaceCharge ns net (m₁ + m₂) (b₁ + b₂) := by
  unfold namespaceCharge namespaceUpdate
  rw [List.map_map]
  refine List.map_congr_left fun n _ => ?_
  by_cases hn : n.net = net <;> simp [hn, Nat.add_assoc]

theorem namespaceCharge_zero (ns : List NamespaceQueue) (net : Nat) : namespaceCharge ns net 0 0 = ns := by
  unfold namespaceCharge namespaceUpdate
  simp

theorem namespaceQueuePut_cases (ns : List NamespaceQueue) (net : Nat) :
    namespaceQueuePut ns net = ns ∨
      nsMessages ns net = 0 ∧ namespaceQueuePut ns net = ns.eraseP fun n => n.net = net := by
  unfold namespaceQueuePut nsMessages
  cases hf : namespaceQueueFind ns net with
  | none => exact .inl rfl
  | some n =>
    by_cases hm : n.messages = 0
    · exact .inr ⟨by simpa using hm, by simp [hm]⟩
    · exact .inl (by simp [hm])

theorem find_eraseP (hkeys : (ns.map (·.net)).Nodup) (net net' : Nat) :
    namespaceQueueFind (ns.eraseP fun n => n.net = net) net' =
      if net' = net then none else namespaceQueueFind ns net' := by
  unfold namespaceQueueFind
  induction ns with
  | nil => simp
  | cons n ns ih =>
    obtain ⟨hn, hkeys⟩ := List.nodup_cons.mp hkeys
    by_cases h : n.net = net
    · rw [List.eraseP_cons_of_pos (by simpa using h)]
      by_cases hnet : net' = net
      · rw [if_pos hnet, List.find?_eq_none]
        intro m hm hfound
        exact hn (List.mem_map.mpr ⟨m, hm, by simpa [hnet, h] using hfound⟩)
      · have hne : ¬n.net = net' := fun h' => hnet (h'.symm.trans h)
        simp [hnet, hne]
    · rw [List.eraseP_cons_of_neg (by simpa using h)]
      by_cases hn' : n.net = net'
      · have hne : ¬net' = net := fun h' => h (hn'.trans h')
        simp [hn', hne]
      · simpa [hn'] using ih hkeys

theorem nsMessages_put (hkeys : (ns.map (·.net)).Nodup) (net net' : Nat) :
    nsMessages (namespaceQueuePut ns net) net' = nsMessages ns net' := by
  rcases namespaceQueuePut_cases ns net with h | ⟨hzero, h⟩
  · rw [h]
  rw [h, nsMessages, find_eraseP hkeys]
  split_ifs with hnet
  · rw [hnet, hzero]
    rfl
  · rfl

theorem nsBytes_put (hkeys : (ns.map (·.net)).Nodup) {net : Nat} (hempty : nsMessages ns net = 0 → nsBytes ns net = 0)
    (net' : Nat) :
    nsBytes (namespaceQueuePut ns net) net' = nsBytes ns net' := by
  rcases namespaceQueuePut_cases ns net with h | ⟨hzero, h⟩
  · rw [h]
  rw [h, nsBytes, find_eraseP hkeys]
  split_ifs with hnet
  · rw [hnet, hempty hzero]
    rfl
  · rfl

theorem nsMessages_release (ns : List NamespaceQueue) (net messages bytes net' : Nat) :
    nsMessages (namespaceRelease ns net messages bytes) net' =
      if net' = net then nsMessages ns net - messages else nsMessages ns net' := by
  unfold nsMessages
  rw [find_namespaceRelease]
  split_ifs with h
  · cases namespaceQueueFind ns net <;> simp
  · rfl

theorem nsBytes_release (ns : List NamespaceQueue) (net messages bytes net' : Nat) :
    nsBytes (namespaceRelease ns net messages bytes) net' =
      if net' = net then nsBytes ns net - bytes else nsBytes ns net' := by
  unfold nsBytes
  rw [find_namespaceRelease]
  split_ifs with h
  · cases namespaceQueueFind ns net <;> simp
  · rfl

theorem nsMessages_charge {net : Nat} (h : (namespaceQueueFind ns net).isSome = true) (messages bytes net' : Nat) :
    nsMessages (namespaceCharge ns net messages bytes) net' =
      if net' = net then nsMessages ns net + messages else nsMessages ns net' := by
  unfold nsMessages
  rw [find_namespaceCharge]
  split_ifs with hnet
  · obtain ⟨n, hn⟩ := Option.isSome_iff_exists.mp h
    rw [hn]
    rfl
  · rfl

theorem nsBytes_charge {net : Nat} (h : (namespaceQueueFind ns net).isSome = true) (messages bytes net' : Nat) :
    nsBytes (namespaceCharge ns net messages bytes) net' =
      if net' = net then nsBytes ns net + bytes else nsBytes ns net' := by
  unfold nsBytes
  rw [find_namespaceCharge]
  split_ifs with hnet
  · obtain ⟨n, hn⟩ := Option.isSome_iff_exists.mp h
    rw [hn]
    rfl
  · rfl

theorem namespaceQueuePut_nodup (hkeys : (ns.map (·.net)).Nodup) (net : Nat) :
    ((namespaceQueuePut ns net).map (·.net)).Nodup := by
  rcases namespaceQueuePut_cases ns net with h | ⟨-, h⟩
  · rwa [h]
  · rw [h]
    exact hkeys.sublist (List.eraseP_sublist.map _)

theorem namespaceQueueGet_some {ns' : List NamespaceQueue} {net : Nat} {alloc : Bool}
    (h : namespaceQueueGet ns net alloc = some ns') (hkeys : (ns.map (·.net)).Nodup) :
    (ns'.map (·.net)).Nodup ∧ (namespaceQueueFind ns' net).isSome = true ∧
      ∀ net', nsMessages ns' net' = nsMessages ns net' ∧ nsBytes ns' net' = nsBytes ns net' := by
  unfold namespaceQueueGet at h
  cases hf : namespaceQueueFind ns net with
  | some n =>
    rw [hf] at h
    obtain rfl := Option.some.inj h
    exact ⟨hkeys, by rw [hf]; rfl, fun _ => ⟨rfl, rfl⟩⟩
  | none =>
    rw [hf] at h
    cases alloc with
    | false => cases h
    | true =>
      obtain rfl := Option.some.inj h
      have hnone : ∀ m ∈ ns, m.net ≠ net := by simpa [namespaceQueueFind] using hf
      refine ⟨?_, ?_, fun net' => ?_⟩
      · rw [List.map_append, List.nodup_append]
        refine ⟨hkeys, by simp, ?_⟩
        intro a ha b hb hab
        obtain ⟨m, hm, rfl⟩ := List.mem_map.mp ha
        simp only [List.map_cons, List.map_nil, List.mem_singleton] at hb
        exact hnone m hm (hab.trans hb)
      · simp [namespaceQueueFind, List.find?_append]
      · have hlook : namespaceQueueFind (ns ++ [{ net := net }]) net' =
            (namespaceQueueFind ns net').or (if net = net' then some { net := net } else none) := by
          simp [namespaceQueueFind, List.find?_append, List.find?_cons]
          by_cases hn : net = net' <;> simp [hn]
        unfold nsMessages nsBytes
        rw [hlook]
        cases namespaceQueueFind ns net' with
        | some n => exact ⟨rfl, rfl⟩
        | none => by_cases hn : net = net' <;> simp [hn]

/-! ## Removing -/

theorem queueReleaseTurns_eq (q : TxQueue) (peerIndex flowIndex : Fin TX_FLOW_LIMIT) :
    ∃ peers flows, queueReleaseTurns q peerIndex flowIndex = { q with peers := peers, flows := flows } := by
  unfold queueReleaseTurns
  dsimp only
  split_ifs <;> exact ⟨_, _, rfl⟩

theorem queueRemoveLocked_of (h : q.entries i = some e) :
    ∃ peers flows, queueRemoveLocked q i =
      { q with
        entries := q.entries.clear i
        queueCount := q.queueCount - 1
        queueBytes := q.queueBytes - e.frame.length
        namespaces := namespaceQueuePut (namespaceRelease q.namespaces e.net 1 e.frame.length) e.net
        peers := peers, flows := flows } := by
  unfold queueRemoveLocked
  rw [h]
  dsimp only
  cases e.control with
  | true => exact ⟨_, _, rfl⟩
  | false =>
    simp only [Bool.false_eq_true, if_false]
    exact (queueReleaseTurns_eq _ _ _).imp fun peers => Exists.imp fun flows h => by rw [h]

theorem queueRemoveLocked_free (h : q.entries i = none) :
    queueRemoveLocked q i = q := by
  unfold queueRemoveLocked
  rw [h]

theorem reservationRemoveLocked_of {i : Fin TX_RESERVATION_LIMIT} {r : TxReservation} (h : q.reservations i = some r) :
    ∃ peers flows, reservationRemoveLocked q i =
      { q with
        reservations := q.reservations.clear i
        reservedCount := q.reservedCount - r.count
        reservedBytes := q.reservedBytes - r.bytes
        pendingReserved := if r.pendingReserved then q.pendingReserved - 1 else q.pendingReserved
        namespaces := namespaceQueuePut (namespaceRelease q.namespaces r.net r.count r.bytes) r.net
        peers := peers, flows := flows } := by
  unfold reservationRemoveLocked
  rw [h]
  dsimp only
  exact (queueReleaseTurns_eq _ _ _).imp fun peers => Exists.imp fun flows h => by rw [h]

theorem reservationRemoveLocked_free {i : Fin TX_RESERVATION_LIMIT} (h : q.reservations i = none) :
    reservationRemoveLocked q i = q := by
  unfold reservationRemoveLocked
  rw [h]

@[simp] theorem queueRemoveLocked_entries (q : TxQueue) (i : Fin TX_QUEUE_LIMIT) :
    (queueRemoveLocked q i).entries = q.entries.clear i := by
  cases h : q.entries i with
  | none =>
    rw [queueRemoveLocked_free h]
    funext j
    rw [Table.clear_apply]
    split_ifs with hj
    · rw [hj, h]
    · rfl
  | some e =>
    obtain ⟨peers, flows, hq⟩ := queueRemoveLocked_of h
    rw [hq]

@[simp] theorem queueRemoveLocked_reservations (q : TxQueue) (i : Fin TX_QUEUE_LIMIT) :
    (queueRemoveLocked q i).reservations = q.reservations := by
  cases h : q.entries i with
  | none => rw [queueRemoveLocked_free h]
  | some e =>
    obtain ⟨peers, flows, hq⟩ := queueRemoveLocked_of h
    rw [hq]

@[simp] theorem reservationRemoveLocked_entries (q : TxQueue) (i : Fin TX_RESERVATION_LIMIT) :
    (reservationRemoveLocked q i).entries = q.entries := by
  cases h : q.reservations i with
  | none => rw [reservationRemoveLocked_free h]
  | some r =>
    obtain ⟨peers, flows, hq⟩ := reservationRemoveLocked_of h
    rw [hq]

@[simp] theorem reservationRemoveLocked_reservations (q : TxQueue) (i : Fin TX_RESERVATION_LIMIT) :
    (reservationRemoveLocked q i).reservations = q.reservations.clear i := by
  cases h : q.reservations i with
  | none =>
    rw [reservationRemoveLocked_free h]
    funext j
    rw [Table.clear_apply]
    split_ifs with hj
    · rw [hj, h]
    · rfl
  | some r =>
    obtain ⟨peers, flows, hq⟩ := reservationRemoveLocked_of h
    rw [hq]

@[simp] theorem entryUpdate_entries (q : TxQueue) (i : Fin TX_QUEUE_LIMIT) (e : TxEntry) :
    (entryUpdate q i e).entries = q.entries.set i e := rfl

@[simp] theorem reservationUpdate_reservations (q : TxQueue) (i : Fin TX_RESERVATION_LIMIT) (r : TxReservation) :
    (reservationUpdate q i r).reservations = q.reservations.set i r := rfl

/-! ## Reservations -/

theorem find_reservation {i : Fin TX_RESERVATION_LIMIT} {v : TxReservation}
    (h : (reservationFindLocked q id).bind (fun i => (q.reservations i).map (i, ·)) = some (i, v)) :
    q.reservations i = some v ∧ v.id = id := by
  obtain ⟨k, hk, hm⟩ := Option.bind_eq_some_iff.mp h
  obtain ⟨w, hw, heq⟩ := Option.map_eq_some_iff.mp hm
  cases heq
  obtain ⟨a, ha, hid⟩ := Table.find?_some hk
  rw [hw, Option.some.injEq] at ha
  exact ⟨hw, ha ▸ of_decide_eq_true hid⟩

theorem queueTurns_eq (q : TxQueue) (locator : UInt32) (r : QueueRequest) (peer flow : Fin TX_FLOW_LIMIT × Bool) :
    ∃ peers flows, queueTurns q locator r peer flow = { q with peers := peers, flows := flows } := by
  unfold queueTurns
  dsimp only
  split_ifs <;> exact ⟨_, _, rfl⟩

theorem queueCapacityLocked_eq (q : TxQueue) (net : Nat) (locator : UInt32) (r : QueueRequest) (count bytes : Nat)
    (alloc : Bool) :
    ∃ ns, (queueCapacityLocked q net locator r count bytes alloc).1 = { q with namespaces := ns } := by
  unfold queueCapacityLocked
  split <;> exact ⟨_, rfl⟩

theorem queueReserve_cases (q : TxQueue) (a : ReserveArgs) (r : QueueRequest) (nowMs : Nat) (alloc : Bool) :
    (∃ ns e, queueReserve q a r nowMs alloc = ({ q with namespaces := ns }, .error e)) ∨
    ∃ ns peers flows j peerIndex flowIndex, q.reservations j = none ∧ a.count ≠ 0 ∧
      (a.reliable = true → a.activePending + q.pendingReserved < PENDING_LIMIT) ∧ q.stopping = false ∧
      queueReserve q a r nowMs alloc =
        (reservationWrite { q with namespaces := ns, peers := peers, flows := flows } j
          (reservationFor a r (q.reservationSequence + 1) nowMs peerIndex flowIndex),
          .ok (q.reservationSequence + 1)) := by
  unfold queueReserve
  by_cases hargs : a.count = 0 ∨ a.bytes = 0 ∨ r.control = true ∨ r.ttlMs = 0 ∨ r.reliable ≠ a.reliable ∨
      TTL_DEFAULT_MS < r.ttlMs
  · rw [if_pos hargs]
    exact .inl ⟨_, _, rfl⟩
  rw [if_neg hargs]
  by_cases hoverflow : U64_MAX - r.ttlMs < nowMs
  · rw [if_pos hoverflow]
    exact .inl ⟨_, _, rfl⟩
  rw [if_neg hoverflow]
  by_cases hstop : q.stopping = true
  · rw [if_pos hstop]
    exact .inl ⟨_, _, rfl⟩
  rw [if_neg hstop]
  by_cases hfull : a.reliable = true ∧ PENDING_LIMIT ≤ a.activePending + q.pendingReserved
  · rw [if_pos hfull]
    exact .inl ⟨_, _, rfl⟩
  rw [if_neg hfull]
  cases hfree : q.reservations.free? with
  | none => exact .inl ⟨_, _, rfl⟩
  | some j =>
    dsimp only
    obtain ⟨ns, hns⟩ := queueCapacityLocked_eq q a.net a.locator r a.count a.bytes alloc
    generalize queueCapacityLocked q a.net a.locator r a.count a.bytes alloc = cap at hns
    obtain ⟨q₁, result⟩ := cap
    dsimp only at hns
    subst hns
    cases result with
    | error e => exact .inl ⟨_, _, rfl⟩
    | ok _ =>
      dsimp only
      split
      · exact .inl ⟨_, _, rfl⟩
      rename_i peer flow _
      by_cases hlast : q.reservationSequence = U64_MAX
      · rw [if_pos hlast]
        exact .inl ⟨_, _, rfl⟩
      rw [if_neg hlast]
      obtain ⟨peers, flows, hturns⟩ := queueTurns_eq { q with namespaces := ns } a.locator r peer flow
      rw [hturns]
      refine .inr ⟨ns, peers, flows, j, peer.1, flow.1, Table.free?_some hfree, ?_, ?_, ?_, rfl⟩
      · exact fun h => hargs (.inl h)
      · exact fun h => Nat.lt_of_not_le fun hle => hfull ⟨h, hle⟩
      · exact Bool.not_eq_true _ ▸ hstop

theorem queueReserve_entries (q : TxQueue) (a : ReserveArgs) (r : QueueRequest) (nowMs : Nat) (alloc : Bool) :
    (queueReserve q a r nowMs alloc).1.entries = q.entries := by
  rcases queueReserve_cases q a r nowMs alloc with ⟨ns, e, h⟩ | ⟨ns, peers, flows, j, p, f, -, -, -, -, h⟩
  · rw [h]
  · rw [h]
    rfl

/-! ## Cancelling a group -/

def inGroup (rep e : TxEntry) : Bool := e.groupId = rep.groupId || sameMessage rep e

def cancelled (rep : TxEntry) (owned : Option (Fin TX_QUEUE_LIMIT)) (i : Fin TX_QUEUE_LIMIT) :
    Option TxEntry → Option TxEntry
  | none => none
  | some e =>
    if inGroup rep e = false then some e
    else if e.inFlight && owned ≠ some i then some { e with cancelled := true, terminalNotified := true }
    else none

theorem cancelled_cases (rep : TxEntry) (owned : Option (Fin TX_QUEUE_LIMIT)) (i : Fin TX_QUEUE_LIMIT) (e : TxEntry) :
    (inGroup rep e = false ∧ cancelled rep owned i (some e) = some e) ∨
    (inGroup rep e = true ∧ e.inFlight = true ∧ owned ≠ some i ∧
      cancelled rep owned i (some e) = some { e with cancelled := true, terminalNotified := true }) ∨
    (inGroup rep e = true ∧ (e.inFlight = false ∨ owned = some i) ∧ cancelled rep owned i (some e) = none) := by
  unfold cancelled
  cases hg : inGroup rep e
  · exact .inl ⟨rfl, by simp [hg]⟩
  cases hfly : e.inFlight
  · exact .inr (.inr ⟨rfl, .inl rfl, by simp [hg, hfly]⟩)
  by_cases ho : owned = some i
  · exact .inr (.inr ⟨rfl, .inr ho, by simp [hg, hfly, ho]⟩)
  · exact .inr (.inl ⟨rfl, rfl, ho, by simp [hg, hfly, ho]⟩)

theorem cancelSlot_entries (rep : TxEntry) (owned : Option (Fin TX_QUEUE_LIMIT)) (q : TxQueue)
    (i j : Fin TX_QUEUE_LIMIT) :
    (cancelSlot rep owned q i).entries j = if j = i then cancelled rep owned i (q.entries i) else q.entries j := by
  unfold cancelSlot
  cases he : q.entries i with
  | none =>
    split_ifs with hj
    · rw [hj, he]
      rfl
    · rfl
  | some e =>
    have hg : (e.groupId ≠ rep.groupId && !sameMessage rep e) = !inGroup rep e := by simp [inGroup]
    simp only [hg, cancelled]
    by_cases hin : inGroup rep e = true
    · by_cases hfly : (e.inFlight && decide (owned ≠ some i)) = true
      · simp only [hin, hfly, Bool.not_true, Bool.true_eq_false, Bool.false_eq_true, if_false, if_true]
        exact Table.set_apply _ _ _ _
      · simp only [hin, hfly, queueRemoveLocked_entries, Table.clear_apply, Bool.not_true, Bool.true_eq_false,
          Bool.false_eq_true, if_false]
    · rw [Bool.not_eq_true] at hin
      simp only [hin, Bool.not_false, if_true]
      split_ifs with hj
      · rw [hj, he]
      · rfl

theorem cancelSlot_reservations (rep : TxEntry) (owned : Option (Fin TX_QUEUE_LIMIT)) (q : TxQueue)
    (i : Fin TX_QUEUE_LIMIT) : (cancelSlot rep owned q i).reservations = q.reservations := by
  unfold cancelSlot
  split
  · rfl
  split_ifs
  · rfl
  · rfl
  · exact queueRemoveLocked_reservations q i

theorem cancelLoop_entries (rep : TxEntry) (owned : Option (Fin TX_QUEUE_LIMIT)) (q : TxQueue)
    (j : Fin TX_QUEUE_LIMIT) :
    ((List.finRange TX_QUEUE_LIMIT).foldl (cancelSlot rep owned) q).entries j = cancelled rep owned j (q.entries j) :=
  Table.foldl_finRange TxQueue.entries (cancelSlot_entries rep owned) q j

theorem cancelLoop_reservations (rep : TxEntry) (owned : Option (Fin TX_QUEUE_LIMIT)) (is : List (Fin TX_QUEUE_LIMIT))
    (q : TxQueue) : (is.foldl (cancelSlot rep owned) q).reservations = q.reservations := by
  induction is generalizing q with
  | nil => rfl
  | cons i is ih => rw [List.foldl_cons, ih, cancelSlot_reservations]

theorem queueCancelGroupLocked_of (h : q.entries i = some e) (owned : Option (Fin TX_QUEUE_LIMIT)) (error : Errno)
    (notice : Option Notice) :
    ∃ rep, rep.groupId = e.groupId ∧ queueCancelGroupLocked q e.groupId owned error notice =
      { queue := (List.finRange TX_QUEUE_LIMIT).foldl (cancelSlot rep owned) q
        notice := cancelNotice q e.groupId error notice
        changed := true
        pending := if rep.reliable then some (rep.destination, rep.messageId) else none } := by
  cases hf : q.entries.find? fun a => a.groupId = e.groupId with
  | none => exact absurd (Table.find?_none hf h) (by simp)
  | some k =>
    obtain ⟨rep, hk, hg⟩ := Table.find?_some hf
    refine ⟨rep, of_decide_eq_true hg, ?_⟩
    unfold queueCancelGroupLocked
    rw [hf, Option.bind_some, hk]

/-! ## Expiry -/

def unexpired (nowMs : Nat) : Option TxEntry → Option TxEntry :=
  Option.filter fun e => e.inFlight || decide (nowMs < e.expiresMs)

theorem expireSlot_entries (nowMs : Nat) (s : TxQueue × Option Notice) (i j : Fin TX_QUEUE_LIMIT) :
    (expireSlot nowMs s i).1.entries j = if j = i then unexpired nowMs (s.1.entries i) else s.1.entries j := by
  unfold expireSlot
  cases he : s.1.entries i with
  | none =>
    dsimp only
    split_ifs with hj
    · rw [hj, he]
      rfl
    · rfl
  | some e =>
    dsimp only
    have hkeep : (e.inFlight || decide (nowMs < e.expiresMs)) = !(!e.inFlight && decide (e.expiresMs ≤ nowMs)) := by
      by_cases hlt : nowMs < e.expiresMs
      · simp [hlt]
      · simp [hlt, Nat.le_of_not_lt hlt]
    rw [unexpired, Option.filter_some, hkeep]
    by_cases hexp : (!e.inFlight && decide (e.expiresMs ≤ nowMs)) = true
    · rw [if_pos hexp, queueRemoveLocked_entries, Table.clear_apply, hexp]
      rfl
    rw [if_neg hexp]
    rw [Bool.not_eq_true] at hexp
    rw [hexp, Bool.not_false, if_pos rfl, ← he]
    by_cases hj : j = i
    · rw [if_pos hj, hj]
    · rw [if_neg hj]

theorem queueExpireLocked_entries (q : TxQueue) (nowMs : Nat) (i : Fin TX_QUEUE_LIMIT) :
    (queueExpireLocked q nowMs).1.entries i = unexpired nowMs (q.entries i) := by
  have hloop :=
    Table.foldl_finRange (fun s : TxQueue × Option Notice => s.1.entries) (expireSlot_entries nowMs) (q, none) i
  rw [queueExpireLocked]
  exact hloop

/-! ## Frames enter the queue -/

theorem queueSlots_free (h : i ∈ queueSlots q count) : q.entries i = none := by
  have hmem := List.mem_of_mem_take h
  simpa using (List.mem_filter.mp hmem).2

theorem queueSlots_nodup (q : TxQueue) (count : Nat) : (queueSlots q count).Nodup :=
  ((List.nodup_finRange _).filter _).sublist (List.take_sublist _ _)

theorem length_queueSlots (h : q.entries.sum (fun _ => 1) + count ≤ TX_QUEUE_LIMIT) :
    (queueSlots q count).length = count := by
  have hfree := Table.length_free_add_sum q.entries
  rw [queueSlots, List.length_take]
  omega

theorem batchBytes_ok {bytes : Nat} (h : batchBytes frames start = .ok bytes) :
    bytes = start + (frames.map List.length).sum := by
  induction frames generalizing start with
  | nil =>
    cases h
    rfl
  | cons frame rest ih =>
    unfold batchBytes at h
    split_ifs at h
    rw [ih h, List.map_cons, List.sum_cons, Nat.add_assoc]

section Write
variable {charge : Bool} {net : Nat} {metadata : TxMeta} {r : QueueRequest} {groupId expiresMs : Nat}
  {peerIndex flowIndex : Fin TX_FLOW_LIMIT}

theorem entriesWrite_eq (charge : Bool) (net : Nat) (metadata : TxMeta) (r : QueueRequest) (groupId expiresMs : Nat)
    (peerIndex flowIndex : Fin TX_FLOW_LIMIT) (q : TxQueue) (batch : List (Fin TX_QUEUE_LIMIT × Octets)) :
    ∃ entries sequence, entriesWrite charge net metadata r groupId expiresMs peerIndex flowIndex q batch =
      { q with
        entries := entries
        queueSequence := sequence
        queueCount := q.queueCount + batch.length
        queueBytes := q.queueBytes + (batch.map (·.2.length)).sum
        namespaces := if charge then namespaceCharge q.namespaces net batch.length (batch.map (·.2.length)).sum
          else q.namespaces } := by
  induction batch generalizing q with
  | nil => exact ⟨q.entries, q.queueSequence, by simp [entriesWrite, namespaceCharge_zero]⟩
  | cons slot rest ih =>
    obtain ⟨i, frame⟩ := slot
    obtain ⟨entries, sequence, h⟩ := ih (entryWrite charge q i
      (entryFor frame net metadata r (q.queueSequence + 1) groupId expiresMs peerIndex flowIndex))
    refine ⟨entries, sequence, ?_⟩
    rw [entriesWrite, h]
    cases charge with
    | true =>
      simp [entryWrite, entryFor, namespaceCharge_charge, Nat.add_assoc, Nat.add_comm 1]
    | false => simp [entryWrite, entryFor, Nat.add_assoc, Nat.add_comm 1]

theorem entriesWrite_sum {w : TxEntry → Nat} {g : Octets → Nat}
    (hw : ∀ frame sequence, w (entryFor frame net metadata r sequence groupId expiresMs peerIndex flowIndex) = g frame)
    (hnodup : (batch.map Prod.fst).Nodup) (hfree : ∀ i ∈ batch.map Prod.fst, q.entries i = none) :
    (entriesWrite charge net metadata r groupId expiresMs peerIndex flowIndex q batch).entries.sum w =
      q.entries.sum w + (batch.map fun slot => g slot.2).sum := by
  induction batch generalizing q with
  | nil => rfl
  | cons slot rest ih =>
    obtain ⟨i, frame⟩ := slot
    obtain ⟨hi, hnodup⟩ := List.nodup_cons.mp hnodup
    rw [entriesWrite, ih hnodup]
    · have hsum := Table.sum_set q.entries i
        (entryFor frame net metadata r (q.queueSequence + 1) groupId expiresMs peerIndex flowIndex) w
      rw [hfree i List.mem_cons_self, Table.weight_none, hw] at hsum
      simp only [entryWrite, List.map_cons, List.sum_cons]
      omega
    · intro j hj
      have hne : j ≠ i := fun h => hi (h ▸ hj)
      exact (Table.set_of_ne _ _ hne).trans (hfree j (List.mem_cons_of_mem _ hj))

structure BatchAdds (net : Nat) (metadata : TxMeta) (r : QueueRequest) (batch : List (Fin TX_QUEUE_LIMIT × Octets))
    (entries entries' : Table TX_QUEUE_LIMIT TxEntry) : Prop where
  count : (entries'.sum fun _ => 1) = (entries.sum fun _ => 1) + batch.length
  bytes : entries'.sum (·.frame.length) = entries.sum (·.frame.length) + (batch.map (·.2.length)).sum
  netCount : ∀ net', (entries'.sum fun e => if e.net = net' then 1 else 0) =
    (entries.sum fun e => if e.net = net' then 1 else 0) + if net = net' then batch.length else 0
  netBytes : ∀ net', (entries'.sum fun e => if e.net = net' then e.frame.length else 0) =
    (entries.sum fun e => if e.net = net' then e.frame.length else 0) +
      if net = net' then (batch.map (·.2.length)).sum else 0
  test : ∀ (entry : TxEntry → Bool) (test : Bool), (∀ frame sequence groupId expiresMs peerIndex flowIndex,
      entry (entryFor frame net metadata r sequence groupId expiresMs peerIndex flowIndex) = test) →
    (entries'.sum fun e => if !e.control && entry e then 1 else 0) =
      (entries.sum fun e => if !e.control && entry e then 1 else 0) +
        if r.control = false ∧ test = true then batch.length else 0

theorem entriesWrite_adds {entries : Table TX_QUEUE_LIMIT TxEntry} (hq : q.entries = entries)
    (hnodup : (batch.map Prod.fst).Nodup) (hfree : ∀ i ∈ batch.map Prod.fst, entries i = none) :
    BatchAdds net metadata r batch entries
      (entriesWrite charge net metadata r groupId expiresMs peerIndex flowIndex q batch).entries where
  count := by
    rw [entriesWrite_sum (g := fun _ => 1) (fun _ _ => rfl) hnodup (hq ▸ hfree), hq]
    simp
  bytes := hq ▸ entriesWrite_sum (fun _ _ => rfl) hnodup (hq ▸ hfree)
  netCount net' := by
    rw [entriesWrite_sum (g := fun _ => if net = net' then 1 else 0) (fun _ _ => rfl) hnodup (hq ▸ hfree), hq]
    split_ifs <;> simp
  netBytes net' := by
    rw [entriesWrite_sum (g := fun frame => if net = net' then frame.length else 0) (fun _ _ => rfl) hnodup
      (hq ▸ hfree), hq]
    split_ifs
    · rfl
    · simp
  test entry test htest := by
    have hw : ∀ frame sequence, (fun e => if !e.control && entry e then 1 else 0)
        (entryFor frame net metadata r sequence groupId expiresMs peerIndex flowIndex) =
        if r.control = false ∧ test = true then 1 else 0 := by
      intro frame sequence
      simp only [htest]
      rw [show (entryFor frame net metadata r sequence groupId expiresMs peerIndex flowIndex).control =
        r.control from rfl]
      cases r.control <;> cases test <;> rfl
    rw [entriesWrite_sum (g := fun _ => if r.control = false ∧ test = true then 1 else 0) hw hnodup (hq ▸ hfree), hq]
    split_ifs <;> simp

theorem entriesWrite_entries (q : TxQueue) (batch : List (Fin TX_QUEUE_LIMIT × Octets)) (j : Fin TX_QUEUE_LIMIT) :
    (entriesWrite charge net metadata r groupId expiresMs peerIndex flowIndex q batch).entries j = q.entries j ∨
      ∃ frame sequence, (j, frame) ∈ batch ∧ q.queueSequence < sequence ∧
        (entriesWrite charge net metadata r groupId expiresMs peerIndex flowIndex q batch).entries j =
          some (entryFor frame net metadata r sequence groupId expiresMs peerIndex flowIndex) := by
  induction batch generalizing q with
  | nil => exact .inl rfl
  | cons slot rest ih =>
    obtain ⟨i, frame⟩ := slot
    rw [entriesWrite]
    rcases ih (entryWrite charge q i
      (entryFor frame net metadata r (q.queueSequence + 1) groupId expiresMs peerIndex flowIndex)) with
      h | ⟨frame', sequence, hmem, hlt, h⟩
    · rw [h]
      by_cases hj : j = i
      · subst hj
        exact .inr ⟨frame, _, List.mem_cons_self, Nat.lt_succ_self _, Table.set_self _ _ _⟩
      · exact .inl (Table.set_of_ne _ _ hj)
    · exact .inr ⟨frame', sequence, List.mem_cons_of_mem _ hmem, Nat.lt_of_succ_lt hlt, h⟩

end Write

theorem zip_slots (h : (queueSlots q frames.length).length = frames.length) :
    (((queueSlots q frames.length).zip frames).map Prod.fst).Nodup ∧
    (∀ i ∈ ((queueSlots q frames.length).zip frames).map Prod.fst, q.entries i = none) ∧
    (((queueSlots q frames.length).zip frames).map (·.2.length)).sum = (frames.map List.length).sum ∧
    ((queueSlots q frames.length).zip frames).length = frames.length := by
  have hfst : ((queueSlots q frames.length).zip frames).map Prod.fst = queueSlots q frames.length :=
    List.map_fst_zip (Nat.le_of_eq h)
  have hsnd : ((queueSlots q frames.length).zip frames).map Prod.snd = frames := List.map_snd_zip (Nat.le_of_eq h.symm)
  rw [hfst]
  refine ⟨queueSlots_nodup q _, fun i hi => queueSlots_free hi, ?_, ?_⟩
  · have hmap := congrArg (List.map List.length) hsnd
    rw [List.map_map] at hmap
    exact congrArg List.sum hmap
  · rw [List.length_zip, h, Nat.min_self]

theorem sendBatchLocked_cases (q : TxQueue) (net : Nat) (frames : List Octets) (bytes : Nat) (metadata : TxMeta)
    (r : QueueRequest) (nowMs : Nat) (alloc : Bool) :
    (∃ ns e, sendBatchLocked q net frames bytes metadata r nowMs alloc = ({ q with namespaces := ns }, .error e)) ∨
    ∃ ns peers flows peerIndex flowIndex, q.stopping = false ∧ (queueSlots q frames.length).length = frames.length ∧
      sendBatchLocked q net frames bytes metadata r nowMs alloc =
        (entriesWrite true net metadata r (q.groupSequence + 1) (nowMs + r.ttlMs) peerIndex flowIndex
          { q with namespaces := ns, peers := peers, flows := flows, groupSequence := q.groupSequence + 1 }
          ((queueSlots q frames.length).zip frames), .ok ()) := by
  unfold sendBatchLocked
  by_cases hstop : q.stopping = true
  · rw [if_pos hstop]
    exact .inl ⟨_, _, rfl⟩
  rw [if_neg hstop]
  rw [Bool.not_eq_true] at hstop
  obtain ⟨ns, hns⟩ := queueCapacityLocked_eq q net metadata.destinationLocator r frames.length bytes alloc
  generalize queueCapacityLocked q net metadata.destinationLocator r frames.length bytes alloc = cap at hns
  obtain ⟨q₁, result⟩ := cap
  dsimp only at hns
  subst hns
  cases result with
  | error e => exact .inl ⟨_, _, rfl⟩
  | ok _ =>
    dsimp only
    by_cases hoverflow : U64_MAX - frames.length < q.queueSequence ∨ q.groupSequence = U64_MAX
    · rw [if_pos hoverflow]
      exact .inl ⟨_, _, rfl⟩
    rw [if_neg hoverflow]
    have hsame : queueSlots { q with namespaces := ns } frames.length = queueSlots q frames.length := rfl
    rw [hsame]
    by_cases hslots : (queueSlots q frames.length).length ≠ frames.length
    · rw [if_pos hslots]
      exact .inl ⟨_, _, rfl⟩
    rw [if_neg hslots]
    rw [not_not] at hslots
    by_cases hcontrol : r.control = true
    · rw [if_pos hcontrol]
      exact .inr ⟨ns, q.peers, q.flows, _, _, hstop, hslots, rfl⟩
    rw [if_neg hcontrol]
    split
    · exact .inl ⟨_, _, rfl⟩
    rename_i peer flow _
    obtain ⟨peers, flows, hturns⟩ :=
      queueTurns_eq { q with namespaces := ns } metadata.destinationLocator r peer flow
    rw [hturns]
    exact .inr ⟨ns, peers, flows, peer.1, flow.1, hstop, hslots, rfl⟩

theorem coreSendBatch_cases (q : TxQueue) (up : Bool) (net : Nat) (frames : List Octets) (metadata : TxMeta)
    (r : QueueRequest) (nowMs : Nat) (alloc : Bool) (valid : Except Errno Unit) :
    (∃ ns e, coreSendBatch q up net frames metadata r nowMs alloc valid = ({ q with namespaces := ns }, .error e)) ∨
    ∃ ns peers flows peerIndex flowIndex, q.stopping = false ∧ (r.control = false → valid = .ok ()) ∧
      frames.length ≠ 0 ∧ (queueSlots q frames.length).length = frames.length ∧
      coreSendBatch q up net frames metadata r nowMs alloc valid =
        (entriesWrite true net metadata r (q.groupSequence + 1) (nowMs + r.ttlMs) peerIndex flowIndex
          { q with namespaces := ns, peers := peers, flows := flows, groupSequence := q.groupSequence + 1 }
          ((queueSlots q frames.length).zip frames), .ok ()) := by
  unfold coreSendBatch
  by_cases hargs : frames.length = 0 ∨ FRAGMENT_LIMIT < frames.length ∨ r.ttlMs = 0 ∨ TTL_DEFAULT_MS < r.ttlMs ∨
      PRIORITY_MAX < r.priority
  · rw [if_pos hargs]
    exact .inl ⟨_, _, rfl⟩
  rw [if_neg hargs]
  by_cases hup : up = false
  · rw [if_pos hup]
    exact .inl ⟨_, _, rfl⟩
  rw [if_neg hup]
  cases batchBytes frames 0 with
  | error e => exact .inl ⟨_, _, rfl⟩
  | ok bytes =>
    dsimp only
    by_cases hoverflow : U64_MAX - r.ttlMs < nowMs
    · rw [if_pos hoverflow]
      exact .inl ⟨_, _, rfl⟩
    rw [if_neg hoverflow]
    split
    · exact .inl ⟨_, _, rfl⟩
    rename_i hvalid
    rcases sendBatchLocked_cases q net frames bytes metadata r nowMs alloc with
      h | ⟨ns, peers, flows, peer, flow, hstop, hslots, h⟩
    · exact .inl h
    · refine .inr ⟨ns, peers, flows, peer, flow, hstop, fun hc => ?_, fun hz => hargs (.inl hz), hslots, h⟩
      simpa [hc] using hvalid

theorem coreSendBatchReserved_cases (q : TxQueue) (up : Bool) (frames : List Octets) (metadata : TxMeta)
    (r : QueueRequest) (id : Nat) (valid : Except Errno Unit) :
    (∃ e, coreSendBatchReserved q up frames metadata r id valid = (q, .error e)) ∨
    ∃ j v, q.reservations j = some v ∧ v.id = id ∧ v.isFor frames.length (frames.map List.length).sum metadata r =
    true ∧ valid = .ok () ∧ frames.length ≠ 0 ∧ r.control = false ∧ q.stopping = false ∧
      (queueSlots q frames.length).length = frames.length ∧
      coreSendBatchReserved q up frames metadata r id valid =
        (entriesWrite false v.net metadata r (q.groupSequence + 1) v.expiresMs v.peerIndex v.flowIndex
          { q with
            groupSequence := q.groupSequence + 1
            reservedCount := q.reservedCount - frames.length
            reservedBytes := q.reservedBytes - (frames.map List.length).sum
            reservations := q.reservations.clear j }
          ((queueSlots q frames.length).zip frames), .ok ()) := by
  unfold coreSendBatchReserved
  by_cases hargs : id = 0 ∨ frames.length = 0 ∨ FRAGMENT_LIMIT < frames.length ∨ r.control = true
  · rw [if_pos hargs]
    exact .inl ⟨_, rfl⟩
  rw [if_neg hargs]
  simp only [not_or, Bool.not_eq_true] at hargs
  by_cases hup : up = false
  · rw [if_pos hup]
    exact .inl ⟨_, rfl⟩
  rw [if_neg hup]
  cases hbytes : batchBytes frames 0 with
  | error e => exact .inl ⟨_, rfl⟩
  | ok bytes =>
    obtain rfl : bytes = (frames.map List.length).sum := by simpa using batchBytes_ok hbytes
    dsimp only
    cases valid with
    | error e => exact .inl ⟨_, rfl⟩
    | ok _ =>
      dsimp only
      unfold sendBatchReservedLocked
      split
      · exact .inl ⟨_, rfl⟩
      rename_i j v hfind
      obtain ⟨hv, hid⟩ := find_reservation hfind
      split_ifs with hstop hfor hslots hoverflow
      · exact .inl ⟨_, rfl⟩
      · exact .inl ⟨_, rfl⟩
      · exact .inl ⟨_, rfl⟩
      · exact .inl ⟨_, rfl⟩
      · exact .inr ⟨j, v, hv, hid, Bool.not_eq_false _ ▸ hfor, rfl, hargs.2.1, hargs.2.2.2,
          Bool.not_eq_true _ ▸ hstop, not_not.mp hslots, rfl⟩

theorem batchBytes_error {e : Errno} (h : batchBytes frames start = .error e) : e = .EINVAL ∨ e = .EMSGSIZE := by
  induction frames generalizing start with
  | nil => cases h
  | cons frame rest ih =>
    unfold batchBytes at h
    split_ifs at h
    · cases h
      exact .inl rfl
    · cases h
      exact .inr rfl
    · exact ih h

theorem coreSendBatchReserved_full {up : Bool} {metadata : TxMeta} {r : QueueRequest} {valid : Except Errno Unit}
    (h : (coreSendBatchReserved q up frames metadata r id valid).2 = .error .ENOBUFS) :
    valid = .error .ENOBUFS ∨
      ∃ j v, q.reservations j = some v ∧ v.count = frames.length ∧ (queueSlots q frames.length).length ≠
      frames.length := by
  unfold coreSendBatchReserved at h
  by_cases hargs : id = 0 ∨ frames.length = 0 ∨ FRAGMENT_LIMIT < frames.length ∨ r.control = true
  · rw [if_pos hargs] at h
    cases h
  rw [if_neg hargs] at h
  by_cases hup : up = false
  · rw [if_pos hup] at h
    cases h
  rw [if_neg hup] at h
  cases hbytes : batchBytes frames 0 with
  | error e =>
    rw [hbytes] at h
    rcases batchBytes_error hbytes with rfl | rfl <;> cases h
  | ok bytes =>
    rw [hbytes] at h
    cases valid with
    | error e => exact .inl h
    | ok _ =>
      dsimp only at h
      unfold sendBatchReservedLocked at h
      split at h
      · cases h
      rename_i j v hfind
      split_ifs at h with hstop hfor hslots hoverflow
      · cases h
      · cases h
      · refine .inr ⟨j, v, (find_reservation hfind).1, ?_, hslots⟩
        simp only [TxReservation.isFor, Bool.not_eq_false, Bool.and_eq_true, decide_eq_true_eq] at hfor
        exact hfor.1.1.1.1.1.1.1.1.1.1.1.1.1.1.1
      · cases h

/-! ## The drain -/

theorem drainLoop_entries (q : TxQueue) (i : Fin TX_QUEUE_LIMIT) :
    ((List.finRange TX_QUEUE_LIMIT).foldl queueRemoveLocked q).entries i = none :=
  Table.foldl_finRange TxQueue.entries (f := fun _ _ => none)
    (fun q i j => by rw [queueRemoveLocked_entries, Table.clear_apply]) q i

theorem drainEntries_entries (q : TxQueue) (i : Fin TX_QUEUE_LIMIT) : (drainEntries q).entries i = none := by
  unfold drainEntries
  dsimp only
  exact drainLoop_entries q i

/-! ## Selecting -/

def SameFrames (q q' : TxQueue) : Prop :=
  ∃ peers flows slot turn, q' = { q with peers := peers, flows := flows, prioritySlot := slot, schedulerTurn := turn }

theorem queueTurnTake_same (q : TxQueue) (peer flow : Fin TX_FLOW_LIMIT) :
    SameFrames q (queueTurnTake (queueTurnReset q) peer flow) := by
  unfold queueTurnTake queueTurnReset
  split_ifs <;> exact ⟨_, _, _, _, rfl⟩

theorem queueData_same (q : TxQueue) (nowMs : Nat) : SameFrames q (queueData q nowMs).1 := by
  unfold queueData
  split
  · exact ⟨_, _, _, _, rfl⟩
  dsimp only
  split
  · exact ⟨_, _, _, _, rfl⟩
  split
  · exact ⟨_, _, _, _, rfl⟩
  split
  · exact ⟨_, _, _, _, rfl⟩
  · obtain ⟨peers, flows, slot, turn, h⟩ := queueTurnTake_same { q with prioritySlot := _ } _ _
    exact ⟨peers, flows, slot, turn, h⟩

theorem queueMark_cases (q : TxQueue) (o : Option (Fin TX_QUEUE_LIMIT)) :
    queueMark q o = (q, none) ∨
      ∃ i e, q.entries i = some e ∧ queueMark q o = (entryUpdate q i { e with inFlight := true }, some i) := by
  unfold queueMark
  split
  · exact .inl rfl
  split
  · exact .inl rfl
  · exact .inr ⟨_, _, ‹_›, rfl⟩

theorem queueSelect_cases (q : TxQueue) (nowMs : Nat) :
    ∃ q₁, SameFrames q q₁ ∧ (queueSelect q nowMs = (q₁, none) ∨
      ∃ i e, q₁.entries i = some e ∧ queueSelect q nowMs = (entryUpdate q₁ i { e with inFlight := true }, some i)) := by
  unfold queueSelect
  dsimp only
  split_ifs
  · exact ⟨q, ⟨_, _, _, _, rfl⟩, queueMark_cases q _⟩
  · exact ⟨_, queueData_same q nowMs, queueMark_cases _ _⟩

/-! ## The sections of the worker -/

theorem queueGuard_eq (q : TxQueue) (nowMs : Nat) (linkBusy : Bool) (guardMs : Nat) :
    ∃ guard, queueGuard q nowMs linkBusy guardMs = { q with guardUntilMs := guard } := by
  unfold queueGuard
  split_ifs <;> exact ⟨_, rfl⟩

theorem queueWorkSelect_cases (q : TxQueue) (nowMs : Nat) (linkBusy : Bool) (guardMs : Nat) :
    (q.stopping = true ∧ queueWorkSelect q nowMs linkBusy guardMs = (q, none, none)) ∨
    q.stopping = false ∧ ∃ guard, let q₁ := { (queueExpireLocked q nowMs).1 with guardUntilMs := guard }
      queueWorkSelect q nowMs linkBusy guardMs = (q₁, (queueExpireLocked q nowMs).2, none) ∨
      queueWorkSelect q nowMs linkBusy guardMs =
        ((queueSelect q₁ nowMs).1, (queueExpireLocked q nowMs).2, (queueSelect q₁ nowMs).2) := by
  unfold queueWorkSelect
  by_cases hstop : q.stopping = true
  · exact .inl ⟨hstop, if_pos hstop⟩
  rw [if_neg hstop]
  generalize queueExpireLocked q nowMs = expired
  obtain ⟨guard, hguard⟩ := queueGuard_eq expired.1 nowMs linkBusy guardMs
  refine .inr ⟨Bool.not_eq_true _ ▸ hstop, guard, ?_⟩
  dsimp only
  rw [hguard]
  by_cases hbusy : expired.1.queueCount ≠ 0 ∧ (linkBusy = true ∨ nowMs < guard)
  · exact .inl (if_pos hbusy)
  · exact .inr (if_neg hbusy)

theorem queueAirtimeLocked_eq (q : TxQueue) (c : AirtimeCharge) (broadcast : Bool) (nowMs : Nat) :
    ∃ budget broadcastBudget a b a' b', (queueAirtimeLocked q c broadcast nowMs).1 =
      { q with
        airtimeBudgetUs := budget, broadcastBudgetUs := broadcastBudget
        airtime := a, broadcastAirtime := b, airtimeAfter := a', broadcastAfter := b' } := by
  unfold queueAirtimeLocked airtimeBudgets
  by_cases hfree : c.durationUs = 0
  · rw [if_pos hfree]
    exact ⟨_, _, _, _, _, _, rfl⟩
  rw [if_neg hfree]
  dsimp only
  split_ifs <;> exact ⟨_, _, _, _, _, _, rfl⟩

theorem queueWorkAirtime_cases (q : TxQueue) (i : Fin TX_QUEUE_LIMIT) (e : TxEntry) (nowMs : Nat)
    (charge : Except Errno AirtimeCharge) :
    (q.stopping = true ∧ queueWorkAirtime q i e nowMs charge = (queueRemoveLocked q i, .done none)) ∨
    (∃ error, (e.cancelled = true ∨ e.expiresMs ≤ nowMs ∨ charge = .error error) ∧
      queueWorkAirtime q i e nowMs charge = (queueRemoveLocked q i, .done (queueNoticeEntry none e error))) ∨
    ∃ c, charge = .ok c ∧ e.cancelled = false ∧ nowMs < e.expiresMs ∧
      let a := queueAirtimeLocked q c (!e.control && e.metadata.destinationLocator = LINK_LOCATOR_BROADCAST) nowMs
      (a.2.1 = .ok () ∧ queueWorkAirtime q i e nowMs charge = (a.1, .transmit (c.durationUs ≠ 0))) ∨
      (a.2.1 = .error .EAGAIN ∧ ∃ deferUntilMs, queueWorkAirtime q i e nowMs charge =
        (entryUpdate a.1 i { e with inFlight := false, deferUntilMs := deferUntilMs }, .done none)) ∨
      ∃ error, a.2.1 = .error error ∧ queueWorkAirtime q i e nowMs charge =
        (queueRemoveLocked a.1 i, .done (queueNoticeEntry none e error)) := by
  unfold queueWorkAirtime
  dsimp only
  by_cases hstop : q.stopping = true
  · exact .inl ⟨hstop, if_pos hstop⟩
  rw [if_neg hstop]
  by_cases hcancelled : e.cancelled = true
  · exact .inr (.inl ⟨_, .inl hcancelled, if_pos hcancelled⟩)
  rw [if_neg hcancelled]
  by_cases hexpired : e.expiresMs ≤ nowMs
  · exact .inr (.inl ⟨_, .inr (.inl hexpired), if_pos hexpired⟩)
  rw [if_neg hexpired]
  cases charge with
  | error error => exact .inr (.inl ⟨error, .inr (.inr rfl), rfl⟩)
  | ok c =>
    refine .inr (.inr ⟨c, rfl, Bool.not_eq_true _ ▸ hcancelled, Nat.lt_of_not_le hexpired, ?_⟩)
    dsimp only
    generalize queueAirtimeLocked q c _ nowMs = a
    obtain ⟨q₁, result, waitMs⟩ := a
    cases result with
    | ok _ => exact .inl ⟨rfl, rfl⟩
    | error error =>
      by_cases hagain : error = .EAGAIN
      · subst hagain
        exact .inr (.inl ⟨rfl, _, rfl⟩)
      · refine .inr (.inr ⟨error, rfl, ?_⟩)
        cases error <;> first | rfl | exact absurd rfl hagain

theorem queueWorkFinish_cases (q : TxQueue) (i : Fin TX_QUEUE_LIMIT) (e : TxEntry) (nowMs : Nat) (admitted : Bool)
    (result : Except Errno Unit) :
    (result = .ok () ∧
      queueWorkFinish q i e nowMs admitted result = (queueCommit (queueRemoveLocked q i) e.control admitted, none)) ∨
    ∃ error, result = .error error ∧
      ((∃ deferUntilMs, queueWorkFinish q i e nowMs admitted result =
        (entryUpdate q i { e with inFlight := false, deferUntilMs := deferUntilMs }, none)) ∨
      queueWorkFinish q i e nowMs admitted result = (queueRemoveLocked q i, queueNoticeEntry none e error)) := by
  unfold queueWorkFinish
  cases result with
  | ok _ => exact .inl ⟨rfl, rfl⟩
  | error error =>
    refine .inr ⟨error, rfl, ?_⟩
    by_cases hagain : queueTransient error = true ∧ q.stopping = false ∧ nowMs < e.expiresMs
    · exact .inl ⟨_, if_pos hagain⟩
    · exact .inr (if_neg hagain)

theorem queueCommit_eq (q : TxQueue) (control admitted : Bool) :
    ∃ a b burst, queueCommit q control admitted =
    { q with airtime := a, broadcastAirtime := b, controlBurst := burst } := by
  unfold queueCommit
  cases admitted <;> exact ⟨_, _, _, rfl⟩

end Melodi
