import Melodi.Core.Effects
import Melodi.System.Receiver

/-!
# An authentic frame at the receiver

What one call does with a unicast frame that opens: the two critical sections see the same peer, so that only the
window, the reassembly and the ordered flow decide.
-/

namespace Melodi
open Lib
variable {status : AckStatus} {d : Device} {i : Fin PEER_LIMIT} {ciphertext frame : Octets} {o : Opened} {p : Peer}
  {P : Platform} {link : RxMeta} {rx : RxState} {h : WireData}
variable {nativeLocator : UInt32} {counter : Nat} {bitmap : BitVec 64}

/-! ## Opening -/

structure Opened.Authentic (o : Opened) (d : Device) (i : Fin PEER_LIMIT) (p : Peer) : Prop where
  lookup : lookupPeer d o.header.common.sourceNativeLocator = some (i, p)
  ready : p.sessionReady = true
  destination : o.header.common.destinationNativeLocator = d.localNativeLocator
  sourceLink : o.metadata.sourceLocator = p.linkLocator
  destinationLink : o.metadata.destinationLocator = d.localLinkLocator
  generation : o.header.common.identityGeneration = p.generation
  policy : policyAllows d p.nodeId o.header.destinationService = true
  source : o.source = p.nodeId
  sessionEpoch : o.sessionEpoch = p.sessionEpoch
  duplicate : o.duplicate = replaySeen p.receiveReplay o.header.common.counter.toNat

theorem dataOpen_authentic (ho : dataOpen P d frame h ciphertext link = .ok o) :
    o.header = h ∧ ∃ i p, o.Authentic d i p := by
  unfold dataOpen at ho
  cases hl : lookupPeer d h.common.sourceNativeLocator with
  | none => simp [hl] at ho
  | some ip =>
    obtain ⟨i, p⟩ := ip
    simp only [hl] at ho
    split_ifs at ho with hbad
    simp only [not_or, Bool.not_eq_false, not_not] at hbad
    split at ho
    · cases ho
    · rw [← Except.ok.inj ho]
      exact ⟨rfl, i, p, hl, hbad.1, hbad.2.1, hbad.2.2.1, hbad.2.2.2.1, hbad.2.2.2.2.1, hbad.2.2.2.2.2, rfl, rfl, rfl⟩

theorem rxDataOpen_unicast (ho : rxDataOpen P d frame link true true true = .ok (.unicast o)) :
    (∃ ciphertext, wireDecodeData frame = .ok (o.header, ciphertext) ∧
      dataOpen P d frame o.header ciphertext link = .ok o) ∧ dataHeaderValid o.header = .ok () ∧
      o.header.isBroadcast = false ∧ (∃ i p, o.Authentic d i p) ∧
      ∀ allocBatch allocBuffers allocSigning, rxDataOpen P d frame link allocBatch allocBuffers allocSigning =
        if (o.header.isOrdered = true ∧ allocBatch = false) ∨ allocBuffers = false then .error .ENOMEM
        else .ok (.unicast o) := by
  unfold rxDataOpen at ho
  split at ho
  · cases ho
  rename_i h ciphertext hdec
  split at ho
  · cases ho
  rename_i hvalid
  simp only [Bool.true_eq_false, and_false, if_false] at ho
  split at ho
  · cases hb : broadcastOpen P d frame link true <;> simp [hb, Except.map] at ho
  rename_i hcast
  cases hopen : dataOpen P d frame h ciphertext link with
  | error e => simp [hopen, Except.map] at ho
  | ok o' =>
    simp only [hopen, Except.map, Except.ok.injEq, Call.unicast.injEq] at ho
    subst ho
    obtain ⟨rfl, hauth⟩ := dataOpen_authentic hopen
    refine ⟨⟨ciphertext, hdec, hopen⟩, hvalid, by simpa using hcast, hauth, fun b₁ b₂ b₃ => ?_⟩
    unfold rxDataOpen
    simp only [hdec, hvalid, hcast, hopen]
    by_cases h₁ : o'.header.isOrdered = true ∧ b₁ = false
    · simp [h₁]
    · cases b₂ <;> simp [h₁, Except.map]

theorem dataCommit_opened (ha : o.Authentic d i p) (a : Ambient) :
    dataCommit P d o a =
      if o.duplicate then (if o.header.isReliable then (d, dataAgain d o) else (d, .error .EALREADY))
      else
        match markAccepted d i p o.header.common.counter.toNat .unicast with
        | .error e => if e = .EALREADY ∧ o.header.isReliable then (d, dataAgain d o) else (d, .error e)
        | .ok (d, token) => dataAdmit P d o.header o.source o.sessionEpoch o.metadata o.plaintext token a := by
  have heq : dataCommit P d o a = dataCommit P d o a := rfl
  conv_rhs at heq =>
    unfold dataCommit
    simp only [ha.lookup, ha.ready, ha.generation, ha.sessionEpoch, ha.sourceLink, ha.destinationLink, ha.source,
      ha.policy, ne_eq, not_true_eq_false, or_self, Bool.true_eq_false, if_false]
  rw [ha.source, ha.sessionEpoch]
  exact heq

theorem dataCommit_new (ha : o.Authentic d i p) (hnew : o.duplicate = false) (a : Ambient) :
    ∃ d₁ t, markAccepted d i p o.header.common.counter.toNat .unicast = .ok (d₁, t) ∧
      dataCommit P d o a = dataAdmit P d₁ o.header o.source o.sessionEpoch o.metadata o.plaintext t a := by
  obtain ⟨w, hw⟩ := (replayMark_isOk_iff _ _).mpr (ha.duplicate.symm.trans hnew)
  cases hm : markAccepted d i p o.header.common.counter.toNat .unicast with
  | error e => simp [markAccepted, hw] at hm
  | ok dt =>
    refine ⟨dt.1, dt.2, rfl, ?_⟩
    rw [dataCommit_opened ha, hnew, hm]
    rfl

theorem lookupPeer_mark {d₁ : Device} {kind : FrameKind} {t : Token} (hl : lookupPeer d nativeLocator = some (i, p))
    (hm : markAccepted d i p counter kind = .ok (d₁, t)) :
    ∃ w, lookupPeer d₁ nativeLocator = some (i, { p with receiveReplay := w }) ∧ replaySeen w counter = true := by
  obtain ⟨-, w, hw, rfl⟩ := markAccepted_ok hm
  have hp := lookupPeer_some hl
  refine ⟨w, ?_, replaySeen_of_mark_self hw⟩
  have hfind : peerByNativeLocator d nativeLocator = some i := by
    simp only [lookupPeer, Option.bind_eq_some_iff, Option.map_eq_some_iff, Prod.mk.injEq] at hl
    obtain ⟨j, hj, q, -, rfl, -⟩ := hl
    exact hj
  have hsame : (d.peers.set i { p with receiveReplay := w }).find?
      (fun q => !q.conflicted && q.nativeLocator = nativeLocator) = some i :=
    (Table.find?_set (b := { p with receiveReplay := w }) hp rfl).trans hfind
  simp only [lookupPeer, peerByNativeLocator, hsame, Option.bind_some, Table.set_self, Option.map_some]

/-! ## Storing -/

/-- The entry has the other fragments of the message of `h`, as far as they arrived, and waits for this one. -/
structure Reassembly.Awaits (e : Reassembly) (h : WireData) : Prop where
  consistent : reassemblyConsistent e h = true
  missing : e.received.getLsbD h.fragmentIndex.toNat = false
  received : e.received &&& ~~~fragmentMask h.fragmentCount.toNat = 0
  length : e.received ||| (1#64 <<< h.fragmentIndex.toNat) = fragmentMask h.fragmentCount.toNat →
    e.receivedLength + h.common.payloadLength.toNat = e.logicalLength

/-- There is room for the fragment: its octets fit, and it has an entry that waits for it, or a free one. -/
structure RoomFor (rx : RxState) (source : NodeId) (h : WireData) (sessionEpoch : UInt64) : Prop where
  octets : h.common.payloadLength.toNat ≤ REASSEMBLY_BYTE_LIMIT - rx.reassemblyBytes
  slot : ∃ i, reassemblyFind rx source h.common.identityGeneration sessionEpoch h.common.messageId = some i ∧
    ∀ e, rx.reassemblies i = some e → e.Awaits h

/-- The index of a fragment is below the count, and the count at most the limit. -/
structure WireData.Bounded (h : WireData) : Prop where
  index_lt : h.fragmentIndex.toNat < h.fragmentCount.toNat
  count_le : h.fragmentCount.toNat ≤ 64

theorem WireData.Bounded.index_lt_64 (hb : h.Bounded) : h.fragmentIndex.toNat < 64 :=
  Nat.lt_of_lt_of_le hb.index_lt hb.count_le

theorem wireDecodeData_bounded (hdec : wireDecodeData frame = .ok (h, ciphertext)) (hv : dataHeaderValid h = .ok ()) :
    h.Bounded := by
  constructor
  · unfold wireDecodeData at hdec
    split at hdec
    · cases hdec
    split at hdec
    · cases hdec
    dsimp only at hdec
    split at hdec
    · cases hdec
    · rename_i hbad
      rw [← (Prod.mk.inj (Except.ok.inj hdec)).1]
      simp only [not_or] at hbad
      exact UInt16.lt_iff_toNat_lt.mp (UInt16.not_le.mp hbad.2.1)
  · unfold dataHeaderValid at hv
    dsimp only at hv
    split at hv
    · cases hv
    rename_i hbad
    simp only [not_or, not_lt] at hbad
    exact hbad.2.2.1

theorem reassemblyOpen_consistent (P : Platform) (jiffies : UInt64) (source : NodeId) (h : WireData)
    (sessionEpoch : UInt64) (metadata : RxMeta) :
    reassemblyConsistent (reassemblyOpen P jiffies source h sessionEpoch metadata) h = true := by
  simp [reassemblyConsistent, reassemblyOpen]

theorem reassemblyOpen_awaits (P : Platform) (jiffies : UInt64) (source : NodeId) (sessionEpoch : UInt64)
    (metadata : RxMeta) (hb : h.Bounded) (hmany : h.fragmentCount ≠ 1) :
    (reassemblyOpen P jiffies source h sessionEpoch metadata).Awaits h where
  consistent := reassemblyOpen_consistent P jiffies source h sessionEpoch metadata
  missing := by simp [reassemblyOpen]
  received := by simp [reassemblyOpen]
  length := by
    intro hfull
    exfalso
    have hcount : h.fragmentCount.toNat ≠ 1 := fun h1 => hmany (UInt16.toNat_inj.mp h1)
    have hi := hb.index_lt
    -- another index below the count is in the mask, and not in the bit
    obtain ⟨j, hj, hne⟩ : ∃ j, j < h.fragmentCount.toNat ∧ j ≠ h.fragmentIndex.toNat := by
      by_cases h0 : h.fragmentIndex.toNat = 0
      · exact ⟨1, by omega, by omega⟩
      · exact ⟨0, by omega, fun h1 => h0 h1.symm⟩
    have hbit := congrArg (fun b => b.getLsbD j) hfull
    simp [reassemblyOpen, getLsbD_fragmentMask hb.count_le, getLsbD_oneBit hb.index_lt_64, hj, hne] at hbit

def RxState.store (rx : RxState) (i : Fin REASSEMBLY_LIMIT) (e : Reassembly) (octets : Nat) : RxState :=
  { rx with reassemblies := rx.reassemblies.set i e, reassemblyBytes := rx.reassemblyBytes + octets }

def RxState.takeOut (rx : RxState) (i : Fin REASSEMBLY_LIMIT) (e : Reassembly) (octets : Nat) : RxState :=
  { rx with
    reassemblies := rx.reassemblies.clear i, reassemblyBytes := rx.reassemblyBytes + octets - e.receivedLength }

theorem reassemblyPut_awaits {i : Fin REASSEMBLY_LIMIT} {e : Reassembly} (ha : e.Awaits h)
    (hroom : h.common.payloadLength.toNat ≤ REASSEMBLY_BYTE_LIMIT - rx.reassemblyBytes) (fragment : Octets)
    (token : Token) : reassemblyPut rx i e h fragment true token =
      if (reassemblyStore e h fragment token).received = fragmentMask h.fragmentCount.toNat then
        (rx.takeOut i (reassemblyStore e h fragment token) h.common.payloadLength.toNat,
          .ok (some ((reassemblyStore e h fragment token).complete token.session),
            (reassemblyStore e h fragment token).received))
      else
        (rx.store i (reassemblyStore e h fragment token) h.common.payloadLength.toNat,
          .ok (none, (reassemblyStore e h fragment token).received)) := by
  have hcount : e.fragmentCount = h.fragmentCount := by
    have := ha.consistent
    simp only [reassemblyConsistent, Bool.and_eq_true, decide_eq_true_eq] at this
    exact this.1.1.1.1.2
  have hmask : (reassemblyStore e h fragment token).fragmentCount = h.fragmentCount := hcount
  unfold reassemblyPut
  simp only [ha.missing, Bool.false_eq_true, if_false, Nat.not_lt.mpr hroom, Bool.true_eq_false, Table.set_set, hmask]
  by_cases hfull : (reassemblyStore e h fragment token).received = fragmentMask h.fragmentCount.toNat
  · have hlen : (reassemblyStore e h fragment token).receivedLength =
        (reassemblyStore e h fragment token).logicalLength := ha.length hfull
    rw [if_neg (not_not.mpr hfull), if_neg (not_not.mpr hlen), if_pos hfull]
    simp [reassemblyClear, RxState.takeOut, Table.clear_set]
  · rw [if_pos hfull, if_neg hfull]
    rfl

def RxState.entryFor (P : Platform) (rx : RxState) (i : Fin REASSEMBLY_LIMIT) (jiffies : UInt64) (source : NodeId)
    (h : WireData) (sessionEpoch : UInt64) (metadata : RxMeta) : Reassembly :=
  (rx.reassemblies i).getD (reassemblyOpen P jiffies source h sessionEpoch metadata)

theorem reassemblyAdd_room {jiffies : UInt64} {source : NodeId} {sessionEpoch : UInt64} {i : Fin REASSEMBLY_LIMIT}
    (hfind : reassemblyFind (reassemblyExpire rx jiffies) source h.common.identityGeneration sessionEpoch
      h.common.messageId = some i) (hentry : ∀ e, (reassemblyExpire rx jiffies).reassemblies i = some e → e.Awaits h)
    (metadata : RxMeta) (fragment : Octets) (alloc : Bool) (token : Token) :
    reassemblyAdd P rx jiffies source h sessionEpoch metadata fragment alloc token =
      reassemblyPut (reassemblyExpire rx jiffies) i
        ((reassemblyExpire rx jiffies).entryFor P i jiffies source h sessionEpoch metadata) h fragment alloc token := by
  unfold reassemblyAdd RxState.entryFor
  simp only [hfind]
  cases he : (reassemblyExpire rx jiffies).reassemblies i with
  | none => rfl
  | some e => simp [(hentry e he).consistent]

theorem RoomFor.awaits {i : Fin REASSEMBLY_LIMIT} (hentry : ∀ e, rx.reassemblies i = some e → e.Awaits h)
    (hb : h.Bounded)
    (hmany : h.fragmentCount ≠ 1) (jiffies : UInt64) (source : NodeId) (sessionEpoch : UInt64) (metadata : RxMeta) :
    (rx.entryFor P i jiffies source h sessionEpoch metadata).Awaits h := by
  unfold RxState.entryFor
  cases he : rx.reassemblies i with
  | none => exact reassemblyOpen_awaits P jiffies source sessionEpoch metadata hb hmany
  | some e => exact hentry e he

/-! ## Acknowledging -/

/-- What the header check of a unicast frame says about the fields an acknowledgement repeats. -/
structure WireData.Answerable (h : WireData) : Prop where
  source_ne : h.common.sourceNativeLocator ≠ 0 ∧ h.common.sourceNativeLocator ≠ NATIVE_LOCATOR_BROADCAST
  destination_ne : h.common.destinationNativeLocator ≠ 0 ∧ h.common.destinationNativeLocator ≠ NATIVE_LOCATOR_BROADCAST
  generation_ne : h.common.identityGeneration ≠ 0
  messageId_ne : h.common.messageId ≠ 0
  echo : h.isReliable = true → h.destinationService ≠ SERVICE_ECHO

theorem dataHeaderValid_answerable (hv : dataHeaderValid h = .ok ()) (hcast : h.isBroadcast = false) :
    h.Answerable := by
  unfold dataHeaderValid at hv
  simp only [hcast, Bool.false_eq_true, if_false] at hv
  split at hv
  · cases hv
  rename_i hcommon
  split at hv
  · cases hv
  rename_i hunicast
  simp only [not_or] at hcommon hunicast
  refine ⟨⟨hcommon.2.2.2.1, hcommon.2.2.2.2.1⟩, ⟨hunicast.2.1, hunicast.2.2.1⟩, hcommon.2.2.2.2.2.1,
    hcommon.2.2.2.2.2.2.1, fun hrel hecho => hunicast.2.2.2.2.1 ⟨hecho, ?_⟩⟩
  simpa [WireData.isReliable] using hrel

/-- An acknowledgement that names the fragment of `h`, and only fragments of its message. -/
structure Names (h : WireData) (bitmap : BitVec 64) (status : AckStatus) : Prop where
  fragment : bitmap.getLsbD h.fragmentIndex.toNat = true
  within : bitmap &&& ~~~fragmentMask h.fragmentCount.toNat = 0
  complete : status = .COMPLETE → bitmap = fragmentMask h.fragmentCount.toNat

theorem AckStatus.toByte_le (status : AckStatus) : ¬AckStatus.REJECTED.toByte < status.toByte := by
  cases status <;> decide

theorem AckStatus.toByte_complete (h : status.toByte = AckStatus.COMPLETE.toByte) :
    status = .COMPLETE := by
  cases status with
  | COMPLETE => rfl
  | _ => exact absurd h (by decide)

theorem wireEncodeAck_names (hans : h.Answerable) (hb : h.Bounded) (hn : Names h bitmap status)
    (hlocal : d.localNativeLocator ≠ 0 ∧ d.localNativeLocator ≠ NATIVE_LOCATOR_BROADCAST)
    (hpeer : p.nativeLocator = h.common.sourceNativeLocator) (hid : d.identityGeneration ≠ 0) (hpos : 0 < counter)
    (hlt : counter ≤ U64_MAX) (tag : Octets) :
    ∃ frame, wireEncodeAck { ackFor d p h counter bitmap status with tag := tag } = .ok frame := by
  have hcounter : UInt64.ofNat counter ≠ 0 := by
    intro h0
    have := congrArg UInt64.toNat h0
    rw [UInt64.toNat_ofNat', Nat.mod_eq_of_lt (by unfold U64_MAX at hlt; omega)] at this
    simp at this
    omega
  have hcount : h.fragmentCount ≠ 0 := by
    intro h0
    have := hb.index_lt
    simp [h0] at this
  have hbitmap : bitmap ≠ 0 := by
    intro h0
    have := hn.fragment
    simp [h0] at this
  have hstatus : status.toByte = AckStatus.COMPLETE.toByte → bitmap = fragmentMask h.fragmentCount.toNat :=
    fun hs => hn.complete (AckStatus.toByte_complete hs)
  unfold wireEncodeAck ackFor
  simp only [hpeer]
  rw [if_neg, if_neg]
  · exact ⟨_, rfl⟩
  · rintro (h | h)
    · exact h hn.within
    · exact h.2 (hstatus h.1)
  simp only [not_or]
  exact ⟨not_not.mpr rfl, hlocal.1, hlocal.2, hans.source_ne.1, hans.source_ne.2, hid,
    hans.messageId_ne, hcounter, hans.generation_ne, hcount, Nat.not_lt.mpr hb.count_le, status.toByte_le, hbitmap⟩

theorem lookupPeer_nativeLocator (h : lookupPeer d nativeLocator = some (i, p)) : p.nativeLocator = nativeLocator := by
  simp only [lookupPeer, Option.bind_eq_some_iff, Option.map_eq_some_iff, Prod.mk.injEq] at h
  obtain ⟨j, hj, q, hq, rfl, rfl⟩ := h
  obtain ⟨r, hr, hp⟩ := Table.find?_some hj
  rw [hq, Option.some.injEq] at hr
  simp only [Bool.and_eq_true, decide_eq_true_eq] at hp
  rw [hr, hp.2]

theorem dataSendAck_acks (hl : lookupPeer d h.common.sourceNativeLocator = some (i, p)) (hready : p.sessionReady = true)
    (hgen : h.common.identityGeneration = p.generation) (hans : h.Answerable) (hb : h.Bounded)
    (hn : Names h bitmap status)
    (hsource : d.localNativeLocator = h.common.destinationNativeLocator) (hid : d.identityGeneration ≠ 0)
    (hcounter : d.transmitCounter < U64_MAX) :
    ∃ e, (dataSendAck d h bitmap status (.ok ())).1.log =
      .ack ⟨p.nodeId, p.session, h.common.identityGeneration, h.common.messageId, h.fragmentCount.toNat, bitmap,
        status⟩ :: e :: d.log := by
  obtain ⟨frame, hframe⟩ : ∃ frame, wireEncodeAck (ackFor d p h (d.transmitCounter + 1) bitmap status) = .ok frame :=
    wireEncodeAck_names hans hb hn (hsource ▸ hans.destination_ne) (lookupPeer_nativeLocator hl) hid (Nat.succ_pos _)
      hcounter _
  unfold dataSendAck
  simp only [hl, hready, hgen, Bool.true_eq_false, ne_eq, not_true_eq_false, or_self, if_false, counterNextLocked,
    Nat.ne_of_lt hcounter, hframe]
  exact ⟨_, rfl⟩

end Melodi
