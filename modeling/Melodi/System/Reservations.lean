import Melodi.System.Entries
import Melodi.System.Sender

/-!
# Reservations are used once, with the bytes they were sealed for

The netlink command reserves and seals, the network stack hands the buffer over, the worker of the logical queue claims
and the send path makes the frames, while expiry and cancellation may drop the reservation at any time. Buffers that no
command built reach the same worker.

* `reservations_single_use` : the history of every reservation of every run is such a life.
-/

namespace Melodi
open Lib Scenario
variable {id : Nat} {P : Platform} {x : QueueLabel × QueueOut} {q q' : TxQueue} {v : TxReservation}

/-! ## The life of a reservation -/

inductive Use where
  | granted (count bytes : Nat)
  | sealed (data : Octets)
  | claimed (data : Octets)
  | sent (frames : List Octets)
  deriving DecidableEq, Repr

/-- Granted, sealed, claimed with the bytes it was sealed for and turned into one batch of the size it was granted for,
in this order, or a beginning of that. The latest comes first. -/
inductive Life : List Use → Prop where
  | unused : Life []
  | granted (count bytes : Nat) : Life [.granted count bytes]
  | sealed (count bytes : Nat) (data : Octets) : Life [.sealed data, .granted count bytes]
  | claimed (count bytes : Nat) (data : Octets) : Life [.claimed data, .sealed data, .granted count bytes]
  | sent (frames : List Octets) (data : Octets) :
      Life [.sent frames, .claimed data, .sealed data, .granted frames.length (frames.map List.length).sum]

def useOf : QueueLabel × QueueOut → Option (Nat × Use)
  | (.reserve a _ _, out) => out.result.toOption.map fun id => (id, .granted a.count a.bytes)
  | (.sealReservation id data, out) => out.result.toOption.map fun _ => (id, .sealed data)
  | (.claim id data, out) => out.result.toOption.map fun _ => (id, .claimed data)
  | (.sendReserved _ frames _ _ id _, out) => out.result.toOption.map fun _ => (id, .sent frames)
  | _ => none

def usesOf (id : Nat) (trail : List (QueueLabel × QueueOut)) : List Use :=
  trail.filterMap fun x => (useOf x).bind fun u => if u.1 = id then some u.2 else none

def QueueLabel.digested : QueueLabel → Option Octets
  | .sealReservation _ data | .claim _ data => some data
  | _ => none

variable {u : Use} {a : QueueLabel} {out : QueueOut} {uses uses' : Nat → List Use} {j : Fin TX_RESERVATION_LIMIT}

theorem usesOf_none (h : useOf x = none) (id : Nat) (trail : List (QueueLabel × QueueOut)) :
    usesOf id (x :: trail) = usesOf id trail := by
  rw [usesOf, List.filterMap_cons_none]
  · rfl
  · rw [h]
    rfl

theorem usesOf_self (h : useOf x = some (id, u)) (trail : List (QueueLabel × QueueOut)) :
    usesOf id (x :: trail) = u :: usesOf id trail := by
  rw [usesOf, List.filterMap_cons_some]
  · rfl
  · rw [h, Option.bind_some, if_pos rfl]

theorem usesOf_other (h : useOf x = some (id, u)) {k : Nat} (hk : k ≠ id) (trail : List (QueueLabel × QueueOut)) :
    usesOf k (x :: trail) = usesOf k trail := by
  rw [usesOf, List.filterMap_cons_none]
  · rfl
  · rw [h, Option.bind_some, if_neg (Ne.symm hk)]

theorem useOf_quiet (h : a.booking = true → out.result.isOk = false) : useOf (a, out) = none := by
  have herror : a.booking = true → out.result.toOption = none := by
    intro hb
    cases hr : out.result with
    | error e => rfl
    | ok v => simp [hr, Except.isOk, Except.toBool] at h hb; simp [h] at hb
  cases a with
  | reserve a r alloc => rw [useOf, herror rfl, Option.map_none]
  | sealReservation id data => rw [useOf, herror rfl, Option.map_none]
  | claim id data => rw [useOf, herror rfl, Option.map_none]
  | sendReserved up frames metadata r id valid => rw [useOf, herror rfl, Option.map_none]
  | _ => rfl

/-! ## The reservations of the table -/

section
variable {siphash : Octets → UInt64} {X : Set Octets}

def TxReservation.past (v : TxReservation) (data : Octets) : List Use :=
  (if v.claimed then [.claimed data] else []) ++ (if v.sealed then [.sealed data] else []) ++ [.granted v.count v.bytes]

def Stands (siphash : Octets → UInt64) (X : Set Octets) (v : TxReservation) (uses : List Use) : Prop :=
  ∃ data, uses = v.past data ∧ (v.sealed = true → v.tag = siphash data ∧ data ∈ X) ∧
    (v.claimed = true → v.sealed = true)

/-- What holds of the reservations of a queue, given what was done with each. -/
structure Booked (siphash : Octets → UInt64) (X : Set Octets) (q : TxQueue) (uses : Nat → List Use) : Prop where
  keyed : q.reservations.Keyed (·.id)
  le : ∀ j v, q.reservations j = some v → v.id ≤ q.reservationSequence
  stands : ∀ j v, q.reservations j = some v → Stands siphash X v (uses v.id)
  life : ∀ id, Life (uses id)
  fresh : ∀ id, q.reservationSequence < id → uses id = []

theorem Stands.life {uses : List Use} (h : Stands siphash X v uses) : Life uses := by
  obtain ⟨data, rfl, -, horder⟩ := h
  unfold TxReservation.past
  cases hc : v.claimed with
  | true =>
    rw [horder hc]
    exact .claimed _ _ _
  | false =>
    cases v.sealed with
    | true => exact .sealed _ _ _
    | false => exact .granted _ _

theorem Booked.drop (h : Booked siphash X q uses) (hsub : ∀ j v, q'.reservations j = some v → q.reservations j = some v)
    (hseq : q'.reservationSequence = q.reservationSequence) : Booked siphash X q' uses where
  keyed j j' v v' hj hj' := h.keyed j j' v v' (hsub j v hj) (hsub j' v' hj')
  le j v hj := hseq ▸ h.le j v (hsub j v hj)
  stands j v hj := h.stands j v (hsub j v hj)
  life := h.life
  fresh id hid := h.fresh id (hseq ▸ hid)

theorem Booked.update (h : Booked siphash X q uses) (hset : q'.reservations = q.reservations.set j v)
    (honly : ∀ k w, q.reservations k = some w → w.id = v.id → k = j) (hid : v.id ≤ q'.reservationSequence)
    (hseq : q.reservationSequence ≤ q'.reservationSequence) (huses : ∀ id, id ≠ v.id → uses' id = uses id)
    (hstands : Stands siphash X v (uses' v.id)) : Booked siphash X q' uses' := by
  refine ⟨?_, ?_, ?_, ?_, ?_⟩
  · rw [hset]
    exact h.keyed.set_of honly
  · intro k w hk
    rw [hset] at hk
    rcases Table.set_eq_some.mp hk with ⟨-, rfl⟩ | ⟨-, hk⟩
    · exact hid
    · exact (h.le k w hk).trans hseq
  · intro k w hk
    rw [hset] at hk
    rcases Table.set_eq_some.mp hk with ⟨-, rfl⟩ | ⟨hkj, hk⟩
    · exact hstands
    · rw [huses w.id fun heq => hkj (honly k w hk heq)]
      exact h.stands k w hk
  · intro id
    by_cases heq : id = v.id
    · exact heq ▸ hstands.life
    · rw [huses id heq]
      exact h.life id
  · intro id hlt
    rw [huses id (by omega)]
    exact h.fresh id (by omega)

theorem Booked.spend (h : Booked siphash X q uses) (hv : q.reservations j = some v)
    (hclear : q'.reservations = q.reservations.clear j) (hseq : q'.reservationSequence = q.reservationSequence)
    (huses : ∀ id, id ≠ v.id → uses' id = uses id) (hlife : Life (uses' v.id)) : Booked siphash X q' uses' := by
  have hother : ∀ k w, q'.reservations k = some w → k ≠ j ∧ q.reservations k = some w := by
    intro k w hk
    rw [hclear, Table.clear_eq_some] at hk
    exact hk
  refine ⟨?_, ?_, ?_, ?_, ?_⟩
  · rw [hclear]
    exact h.keyed.clear j
  · exact fun k w hk => hseq ▸ h.le k w (hother k w hk).2
  · intro k w hk
    obtain ⟨hkj, hk⟩ := hother k w hk
    rw [huses w.id fun heq => hkj (h.keyed k j w v hk hv heq)]
    exact h.stands k w hk
  · intro id
    by_cases hid : id = v.id
    · exact hid ▸ hlife
    · rw [huses id hid]
      exact h.life id
  · intro id hlt
    rw [hseq] at hlt
    rw [huses id fun heq => absurd (h.le j v hv) (by omega)]
    exact h.fresh id hlt

theorem Books.booked {trail : List (QueueLabel × QueueOut)} (hb : Books siphash q q' a out.result)
    (hX : X.InjOn siphash)
    (hdata : ∀ data, a.digested = some data → data ∈ X) (h : Booked siphash X q fun id => usesOf id trail) :
    Booked siphash X q' fun id => usesOf id ((a, out) :: trail) := by
  generalize hr : out.result = result at hb
  cases hb with
  | drops hquiet hsub hseq =>
    have hnone : useOf (a, out) = none := useOf_quiet (hr ▸ hquiet)
    simp only [usesOf_none hnone]
    exact h.drop hsub hseq
  | @reserves a r alloc nowMs j peerIndex flowIndex hfree hpending hset hseq =>
    have huse : useOf (.reserve a r alloc, out) = some (q.reservationSequence + 1, .granted a.count a.bytes) := by
      rw [useOf, hr]
      rfl
    -- the new number is above every one in the table
    have honly : ∀ k w, q.reservations k = some w → w.id = q.reservationSequence + 1 → k = j :=
      fun k w hw heq => absurd (h.le k w hw) (by omega)
    refine h.update hset honly hseq.ge (by omega) (fun k hk => usesOf_other huse hk trail) ⟨[], ?_, nofun, nofun⟩
    exact (usesOf_self huse trail).trans (congrArg _ (h.fresh _ (Nat.lt_succ_self _)))
  | @takes id j v hv hid hpending hset hseq =>
    have hnone : useOf (.takePending id, out) = none := rfl
    simp only [usesOf_none hnone]
    exact h.update hset (fun k w hw => h.keyed k j w v hw hv) (hseq ▸ h.le j v hv) hseq.ge (fun _ _ => rfl)
      (h.stands j v hv)
  | @seals id data j v hv hid hsealed hset hseq =>
    have huse : useOf (.sealReservation id data, out) = some (v.id, .sealed data) := by
      rw [useOf, hr, hid]
      rfl
    obtain ⟨old, hpast, -, horder⟩ := h.stands j v hv
    have hclaimed : v.claimed = false := by
      cases hc : v.claimed with
      | true => exact absurd (horder hc) (by rw [hsealed]; decide)
      | false => rfl
    refine h.update hset (fun k w hw => h.keyed k j w v hw hv) (hseq ▸ h.le j v hv) hseq.ge
      (fun k hk => usesOf_other huse hk trail) ⟨data, ?_, fun _ => ⟨rfl, hdata data rfl⟩, fun _ => rfl⟩
    refine (usesOf_self huse trail).trans ((congrArg _ hpast).trans ?_)
    simp [TxReservation.past, hclaimed, hsealed]
  | @claims id data j v hv hid hsealed hclaimed htag hset hseq =>
    have huse : useOf (.claim id data, out) = some (v.id, .claimed data) := by
      rw [useOf, hr, hid]
      rfl
    obtain ⟨old, hpast, hold, -⟩ := h.stands j v hv
    -- the digest tells the bytes apart
    obtain rfl : old = data := hX (hold hsealed).2 (hdata data rfl) ((hold hsealed).1.symm.trans htag)
    refine h.update hset (fun k w hw => h.keyed k j w v hw hv) (hseq ▸ h.le j v hv) hseq.ge
      (fun k hk => usesOf_other huse hk trail) ⟨old, ?_, fun _ => hold hsealed, fun _ => hsealed⟩
    refine (usesOf_self huse trail).trans ((congrArg _ hpast).trans ?_)
    simp [TxReservation.past, hclaimed, hsealed]
  | @sends up frames metadata r id valid j v hv hid hfor hclear hseq =>
    have huse : useOf (.sendReserved up frames metadata r id valid, out) = some (v.id, .sent frames) := by
      rw [useOf, hr, hid]
      rfl
    obtain ⟨data, hpast, -, horder⟩ := h.stands j v hv
    simp only [TxReservation.isFor, Bool.and_eq_true, decide_eq_true_eq] at hfor
    obtain ⟨⟨⟨⟨⟨⟨⟨⟨⟨⟨⟨⟨⟨⟨⟨hcount, hbytes⟩, -⟩, -⟩, -⟩, -⟩, -⟩, -⟩, -⟩, -⟩, -⟩, -⟩, -⟩, -⟩, -⟩, hclaimed⟩ := hfor
    refine h.spend hv hclear hseq (fun k hk => usesOf_other huse hk trail) ?_
    have hall : usesOf v.id ((.sendReserved up frames metadata r id valid, out) :: trail) =
      .sent frames :: v.past data :=
      (usesOf_self huse trail).trans (congrArg _ hpast)
    rw [hall, TxReservation.past, hclaimed, horder hclaimed, hcount, hbytes]
    exact .sent frames data

end

/-! ## Every run -/

section
variable {n : Nat}

def Sender.Booked (siphash : Fin n → Octets → UInt64) (X : Set Octets) (i : Fin n) (s : Sender n) : Prop :=
  Melodi.Booked (siphash i) X (s.queue i).queue fun id => usesOf id s.trail

theorem initial_booked (siphash : Fin n → Octets → UInt64) (X : Set Octets) (i : Fin n) :
    (Sender.initial n).Booked siphash X i where
  keyed := Table.keyed_empty _
  le _ _ h := nomatch h
  stands _ _ h := nomatch h
  life _ := .unused
  fresh _ _ := rfl

theorem senderStep_booked {siphash : Fin n → Octets → UInt64} {X : Set Octets} {i : Fin n} (hX : X.InjOn (siphash i))
    (s : Sender n) (a : SenderLabel n)
    (hdata : ∀ x ∈ (senderStep P siphash i s a).trail, ∀ data, x.1.digested = some data → data ∈ X)
    (h : s.Booked siphash X i) : (senderStep P siphash i s a).Booked siphash X i := by
  have hruns : s.Runs P siphash i (senderStep P siphash i s a) := senderStep_runs s a
  generalize senderStep P siphash i s a = s' at hruns hdata ⊢
  unfold Sender.Booked Sender.queue at *
  cases hruns with
  | idle hhost htrail =>
    rw [hhost, htrail]
    exact h
  | elsewhere j a hj hhost htrail =>
    obtain ⟨ns, hat⟩ := hostStep_at_other siphash s.host hj a
    rw [hhost, htrail, hat]
    exact h.drop (fun _ _ hv => hv) rfl
  | here a _ hhost htrail =>
    rw [hhost, htrail, hostStep_at_self]
    rw [htrail] at hdata
    exact (queueStep_books (siphash i) (s.host.at i) a).booked hX (hdata _ List.mem_cons_self) h

theorem senderStep_trail {siphash : Fin n → Octets → UInt64} {i : Fin n} (s : Sender n) (a : SenderLabel n) :
    ∀ x ∈ s.trail, x ∈ (senderStep P siphash i s a).trail := by
  intro x hx
  have hruns : s.Runs P siphash i (senderStep P siphash i s a) := senderStep_runs s a
  cases hruns with
  | idle _ htrail => exact htrail ▸ hx
  | elsewhere _ _ _ _ htrail => exact htrail ▸ hx
  | here _ _ _ htrail => exact htrail ▸ List.mem_cons_of_mem _ hx

theorem run_booked {siphash : Fin n → Octets → UInt64} {X : Set Octets} {i : Fin n} (hX : X.InjOn (siphash i))
    (as : List (SenderLabel n))
    (hdata : ∀ x ∈ (run (senderStep P siphash i) (Sender.initial n) as).trail, ∀ data, x.1.digested = some data →
    data ∈ X) : (run (senderStep P siphash i) (Sender.initial n) as).Booked siphash X i := by
  refine run_invariant (senderStep P siphash i)
    (fun s => (∀ x ∈ s.trail, ∀ data, x.1.digested = some data → data ∈ X) → s.Booked siphash X i) ?_
    (fun _ => initial_booked siphash X i) as hdata
  intro s a h hdata
  exact senderStep_booked hX s a hdata (h fun x hx => hdata x (senderStep_trail s a x hx))

theorem Sender.claim_ok {siphash : Fin n → Octets → UInt64} {i : Fin n} {s : Sender n} {data : Octets}
    (h : (s.queueOut siphash i (.claim id data)).result.isOk = true) :
    ∃ j v, (s.queue i).queue.reservations j = some v ∧ v.id = id ∧ v.sealed = true ∧ v.claimed = false ∧
      v.tag = siphash i data := by
  have hbooks := queueStep_books (siphash i) (s.queue i) (.claim id data)
  unfold Sender.queueOut at h
  generalize (queueStep (siphash i) (s.queue i) (.claim id data)).2.result = result at hbooks h
  cases hbooks with
  | drops hquiet _ _ => exact absurd h (by rw [hquiet rfl]; decide)
  | claims hv hid hsealed hclaimed htag _ _ => exact ⟨_, _, hv, hid, hsealed, hclaimed, htag⟩

theorem Sender.sendReserved_ok {siphash : Fin n → Octets → UInt64} {i : Fin n} {s : Sender n} {up : Bool}
    {frames : List Octets} {metadata : TxMeta} {r : QueueRequest} {valid : Except Errno Unit}
    (h : (s.queueOut siphash i (.sendReserved up frames metadata r id valid)).result.isOk = true) :
    ((s.queueDo siphash i (.sendReserved up frames metadata r id valid)).queue i).queue.queueCount =
        (s.queue i).queue.queueCount + frames.length ∧
    ((s.queueDo siphash i (.sendReserved up frames metadata r id valid)).queue i).queue.queueBytes =
        (s.queue i).queue.queueBytes + (frames.map List.length).sum := by
  have hat : (s.queueDo siphash i (.sendReserved up frames metadata r id valid)).queue i =
      { s.queue i with queue := (coreSendBatchReserved (s.queue i).queue up frames metadata r id valid).1 } :=
    hostStep_at_self siphash s.host i _
  have hresult : (s.queueOut siphash i (.sendReserved up frames metadata r id valid)).result =
      (coreSendBatchReserved (s.queue i).queue up frames metadata r id valid).2.map fun _ => 0 := rfl
  rw [hat]
  rw [hresult] at h
  rcases coreSendBatchReserved_cases (s.queue i).queue up frames metadata r id valid with
    ⟨e, hsend⟩ | ⟨j, v, -, -, -, -, -, -, -, hslots, hsend⟩
  · rw [hsend] at h
    exact absurd h Bool.false_ne_true
  · rw [hsend]
    obtain ⟨entries, sequence, hwrite⟩ := entriesWrite_eq false v.net metadata r ((s.queue i).queue.groupSequence + 1)
      v.expiresMs v.peerIndex v.flowIndex
      { (s.queue i).queue with
        groupSequence := (s.queue i).queue.groupSequence + 1
        reservedCount := (s.queue i).queue.reservedCount - frames.length
        reservedBytes := (s.queue i).queue.reservedBytes - (frames.map List.length).sum
        reservations := (s.queue i).queue.reservations.clear j }
      ((queueSlots (s.queue i).queue frames.length).zip frames)
    dsimp only
    rw [hwrite]
    refine ⟨?_, ?_⟩
    · dsimp only
      rw [List.length_zip, hslots, Nat.min_self]
    dsimp only
    have hframes : ((queueSlots (s.queue i).queue frames.length).zip frames).map (·.2.length) =
        frames.map List.length := by
      have hsnd : ((queueSlots (s.queue i).queue frames.length).zip frames).map Prod.snd = frames :=
        List.map_snd_zip hslots.ge
      exact (List.map_map (f := Prod.snd) (g := List.length)).symm.trans (congrArg _ hsnd)
    rw [hframes]

/-- A claim succeeds only for a sealed reservation that was not claimed before, and only with the content that it was
sealed with. -/
theorem reservations_single_use (P : Platform) (siphash : Fin n → Octets → UInt64) (i : Fin n)
    (as : List (SenderLabel n)) (X : Set Octets) (hX : X.InjOn (siphash i))
    (hdata : ∀ x ∈ (run (senderStep P siphash i) (Sender.initial n) as).trail, ∀ data, x.1.digested = some data →
    data ∈ X) : let s := run (senderStep P siphash i) (Sender.initial n) as
    (∀ id, Life (usesOf id s.trail)) ∧
    (∀ id, ∀ data ∈ X, (s.queueOut siphash i (.claim id data)).result.isOk = true →
      ∃ j v, (s.queue i).queue.reservations j = some v ∧ v.id = id ∧ v.sealed = true ∧ v.claimed = false ∧
        usesOf id s.trail = [.sealed data, .granted v.count v.bytes]) ∧
    ∀ up frames metadata r id valid,
      (s.queueOut siphash i (.sendReserved up frames metadata r id valid)).result.isOk = true →
      ((s.queueDo siphash i (.sendReserved up frames metadata r id valid)).queue i).queue.queueCount =
        (s.queue i).queue.queueCount + frames.length ∧
      ((s.queueDo siphash i (.sendReserved up frames metadata r id valid)).queue i).queue.queueBytes =
        (s.queue i).queue.queueBytes + (frames.map List.length).sum := by
  intro s
  have hbooked : s.Booked siphash X i := run_booked hX as hdata
  refine ⟨hbooked.life, fun id data hmem hok => ?_, fun _ _ _ _ _ _ hok => s.sendReserved_ok hok⟩
  obtain ⟨j, v, hv, rfl, hsealed, hclaimed, htag⟩ := s.claim_ok hok
  obtain ⟨old, hpast, hold, -⟩ := hbooked.stands j v hv
  obtain rfl : old = data := hX (hold hsealed).2 hmem ((hold hsealed).1.symm.trans htag)
  refine ⟨j, v, hv, rfl, hsealed, hclaimed, hpast.trans ?_⟩
  rw [TxReservation.past, hclaimed, hsealed]
  rfl

def Scenario.reserved : List (SenderLabel 1) :=
  online ++ handIn (submission (F_RELIABLE ||| F_AUTH_REQUIRED)) ++ sends

theorem reservations_single_use_reserved :
    (usesOf 1 (run (senderStep Platform.plain digest 0) (Sender.initial 1) reserved).trail).length = 4 ∧
      Life (usesOf 1
      (run (senderStep Platform.plain digest 0) (Sender.initial 1) reserved).trail) := by
  have hdigested : (run (senderStep Platform.plain digest 0) (Sender.initial 1) reserved).trail.all
      (fun x => x.1.digested.all (· = ((submission (F_RELIABLE ||| F_AUTH_REQUIRED)).skb 1).data)) = true := by
    decide +kernel
  refine ⟨by decide +kernel, (reservations_single_use Platform.plain digest 0 reserved
    {((submission (F_RELIABLE ||| F_AUTH_REQUIRED)).skb 1).data} (Set.injOn_singleton _ _) ?_).1 1⟩
  intro x hx data hdata
  have hall := List.all_eq_true.mp hdigested x hx
  rw [hdata, Option.all_some] at hall
  exact of_decide_eq_true hall

end
end Melodi
