import Melodi.System.Accept

/-!
# The reassembly table (`data.c`)

An entry is opened before its first fragment is taken, and the calls that fail in the middle leave it open or clear it.

* `reassembly_table` : whatever calls were made, the keys of the entries are distinct, each entry holds what its bitmap
and its length say, and the octet count is the total of the lengths, so that no clear finds it too small.
-/

namespace Melodi
open Lib
variable {P : Platform} {h : WireData} {rx : RxState} {e : Reassembly} {i : Fin REASSEMBLY_LIMIT}

/-! ## The calls -/

/-- The arguments of `melodi_reassembly_add`: the fragment is one of the header's count, which is within the limit, and
as long as the header says. For a broadcast that is the length without its overhead. -/
structure AddCall where
  jiffies : UInt64
  source : NodeId
  header : WireData
  sessionEpoch : UInt64
  metadata : RxMeta
  fragment : Octets
  alloc : Bool
  token : Token
  bounded : header.Bounded
  octets : fragment.length = header.common.payloadLength.toNat

inductive ReassemblyCall where
  | add (c : AddCall)
  | expire (jiffies : UInt64)
  | peerReset (node : NodeId)
  | sessionReset

def AddCall.run (P : Platform) (rx : RxState) (c : AddCall) : RxState :=
  (reassemblyAdd P rx c.jiffies c.source c.header c.sessionEpoch c.metadata c.fragment c.alloc c.token).1

def reassemblyCall (P : Platform) (rx : RxState) : ReassemblyCall → RxState
  | .add c => c.run P rx
  | .expire jiffies => reassemblyExpire rx jiffies
  | .peerReset node => rxPeerReset rx node
  | .sessionReset => dataReassemblyResetLocked rx

/-! ## Before the clear -/

def AddCall.entry (P : Platform) (rx : RxState) (c : AddCall) (i : Fin REASSEMBLY_LIMIT) : Reassembly :=
  rx.entryFor P i c.jiffies c.source c.header c.sessionEpoch c.metadata

def AddCall.put (rx : RxState) (c : AddCall) (i : Fin REASSEMBLY_LIMIT) (e : Reassembly) :
    RxState × Option (Fin REASSEMBLY_LIMIT) :=
  let opened := rx.store i e 0
  if e.received.getLsbD c.header.fragmentIndex.toNat ∨
      REASSEMBLY_BYTE_LIMIT - rx.reassemblyBytes < c.header.common.payloadLength.toNat then (opened, none)
  else
    let e := reassemblyStore e c.header c.fragment c.token
    (opened.store i e c.header.common.payloadLength.toNat,
      if e.received ≠ fragmentMask e.fragmentCount.toNat then none else some i)

/-- The state in which the call calls `melodi_reassembly_clear`, with the entry it clears; the state it ends in when it
clears none. -/
def AddCall.clearing (P : Platform) (rx : RxState) (c : AddCall) : RxState × Option (Fin REASSEMBLY_LIMIT) :=
  let rx := reassemblyExpire rx c.jiffies
  match reassemblyFind rx c.source c.header.common.identityGeneration c.sessionEpoch c.header.common.messageId with
  | none => (rx, none)
  | some i => if reassemblyConsistent (c.entry P rx i) c.header = false then (rx, some i) else c.put rx i
      (c.entry P rx i)

def clearSlot (s : RxState × Option (Fin REASSEMBLY_LIMIT)) : RxState := s.2.elim s.1 (reassemblyClear s.1)

theorem AddCall.put_eq (c : AddCall) (rx : RxState) (i : Fin REASSEMBLY_LIMIT) (e : Reassembly) :
    (reassemblyPut rx i e c.header c.fragment c.alloc c.token).1 = clearSlot (c.put rx i e) := by
  unfold reassemblyPut AddCall.put
  dsimp only
  rw [ite_or]
  split_ifs <;> rfl

theorem AddCall.run_eq (c : AddCall) (P : Platform) (rx : RxState) : c.run P rx = clearSlot (c.clearing P rx) := by
  unfold AddCall.run reassemblyAdd AddCall.clearing
  dsimp only
  generalize reassemblyExpire rx c.jiffies = rx
  cases reassemblyFind rx c.source c.header.common.identityGeneration c.sessionEpoch c.header.common.messageId with
  | none => rfl
  | some i =>
    unfold AddCall.entry RxState.entryFor
    cases he : rx.reassemblies i with
    | none => simp [he, reassemblyOpen_consistent, c.put_eq]
    | some e =>
      simp only [he, Option.getD_some]
      split_ifs
      · rfl
      · exact c.put_eq rx i e

/-! ## The invariant -/

def Reassembly.key (e : Reassembly) : NodeId × UInt32 × UInt64 × UInt64 :=
  (e.source, e.generation, e.sessionEpoch, e.messageId)

structure Reassembly.Filled (e : Reassembly) : Prop where
  stored : ∀ k : Fin FRAGMENT_LIMIT, e.received.getLsbD k = (e.fragments k).isSome
  below : ∀ k, e.received.getLsbD k = true → k < e.fragmentCount.toNat
  length : e.receivedLength = e.fragments.sum List.length

/-- The table of reassemblies is keyed, filled and counted. -/
structure Tabled (rx : RxState) : Prop where
  keyed : rx.reassemblies.Keyed Reassembly.key
  filled : ∀ i e, rx.reassemblies i = some e → e.Filled
  total : rx.reassemblyBytes = rx.reassemblies.sum Reassembly.receivedLength
  limit : rx.reassemblyBytes ≤ REASSEMBLY_BYTE_LIMIT

theorem Tabled.clearWhere (ht : Tabled rx) (p : Reassembly → Bool) : Tabled (reassemblyClearWhere rx p) where
  keyed i j a b ha hb := ht.keyed i j a b (Table.drop_eq_some.mp ha).1 (Table.drop_eq_some.mp hb).1
  filled i e he := ht.filled i e (Table.drop_eq_some.mp he).1
  total := Nat.sub_eq_of_eq_add (ht.total.trans (rx.reassemblies.sum_drop p Reassembly.receivedLength).symm)
  limit := (Nat.sub_le ..).trans ht.limit

theorem Tabled.expire (ht : Tabled rx) (jiffies : UInt64) : Tabled (reassemblyExpire rx jiffies) :=
  let hd := ht.clearWhere fun e => timeAfterEq jiffies e.expires
  ⟨hd.keyed, hd.filled, hd.total, hd.limit⟩

theorem Tabled.clear (ht : Tabled rx) (i : Fin REASSEMBLY_LIMIT) : Tabled (reassemblyClear rx i) := by
  unfold reassemblyClear
  split
  · exact ht
  rename_i e he
  have hsum := rx.reassemblies.sum_clear i Reassembly.receivedLength
  rw [he, ← ht.total] at hsum
  exact ⟨ht.keyed.clear i, fun j e' he' => ht.filled j e' (Table.clear_eq_some.mp he').2,
    Nat.sub_eq_of_eq_add hsum.symm, (Nat.sub_le ..).trans ht.limit⟩

theorem Tabled.store (ht : Tabled rx) {octets : Nat} (he : e.Filled)
    (hkey : ∀ j a, rx.reassemblies j = some a → a.key = e.key → j = i)
    (hlength : e.receivedLength = Table.weight Reassembly.receivedLength (rx.reassemblies i) + octets)
    (hroom : rx.reassemblyBytes + octets ≤ REASSEMBLY_BYTE_LIMIT) : Tabled (rx.store i e octets) := by
  refine ⟨ht.keyed.set_of hkey, fun j a ha => ?_, ?_, hroom⟩
  · rcases Table.set_eq_some.mp ha with ⟨-, rfl⟩ | ⟨-, hold⟩
    · exact he
    · exact ht.filled j a hold
  have hsum := rx.reassemblies.sum_set i e Reassembly.receivedLength
  have htotal := ht.total
  show rx.reassemblyBytes + octets = (rx.reassemblies.set i e).sum _
  omega

theorem Reassembly.Filled.store (he : e.Filled) (hb : h.Bounded) (hcount : e.fragmentCount = h.fragmentCount)
    (hmissing : e.received.getLsbD h.fragmentIndex.toNat = false) {fragment : Octets}
    (hlength : fragment.length = h.common.payloadLength.toNat) (token : Token) :
    (reassemblyStore e h fragment token).Filled := by
  have hslot : (fragmentSlot h).val = h.fragmentIndex.toNat := Nat.mod_eq_of_lt hb.index_lt_64
  have hbit : ∀ k, (reassemblyStore e h fragment token).received.getLsbD k =
      (e.received.getLsbD k || decide (k = h.fragmentIndex.toNat)) := fun k => by
    simp only [reassemblyStore, BitVec.getLsbD_or, getLsbD_oneBit hb.index_lt_64]
  refine ⟨fun k => ?_, fun k hk => ?_, ?_⟩
  · have hone : k.val = h.fragmentIndex.toNat ↔ k = fragmentSlot h := by rw [← hslot, Fin.ext_iff]
    rw [hbit, he.stored k]
    show _ = (e.fragments.set (fragmentSlot h) fragment k).isSome
    by_cases hk : k = fragmentSlot h <;> simp [Table.set_apply, hone, hk, hslot]
  · rw [hbit, Bool.or_eq_true, decide_eq_true_eq] at hk
    rcases hk with hold | rfl
    · exact he.below k hold
    · exact (congrArg UInt16.toNat hcount).symm ▸ hb.index_lt
  · have hsum := e.fragments.sum_set (fragmentSlot h) fragment List.length
    have hnone : e.fragments (fragmentSlot h) = none := by
      rw [← Option.not_isSome_iff_eq_none, ← he.stored, hslot, hmissing]
      exact Bool.false_ne_true
    rw [hnone, Table.weight_none, hlength, ← he.length] at hsum
    exact hsum.symm

theorem reassemblyFind_key {source : NodeId} {generation : UInt32} {epoch messageId : UInt64} (ht : Tabled rx)
    (hfind : reassemblyFind rx source generation epoch messageId = some i) :
    (∀ e, rx.reassemblies i = some e → e.key = (source, generation, epoch, messageId)) ∧
      ∀ j a, rx.reassemblies j = some a → a.key = (source, generation, epoch, messageId) → j = i := by
  have hfor : ∀ a : Reassembly, a.isFor source generation epoch messageId = true ↔
      a.key = (source, generation, epoch, messageId) := fun a => by
    simp only [Reassembly.isFor, Reassembly.key, Bool.and_eq_true, decide_eq_true_eq, Prod.mk.injEq]
    tauto
  rcases Option.or_eq_some_iff.mp hfind with hf | ⟨hf, hfree⟩
  · obtain ⟨a, ha, hp⟩ := Table.find?_some hf
    have hkey := (hfor a).mp hp
    exact ⟨fun e he => Option.some.inj (ha.symm.trans he) ▸ hkey,
      fun j b hb hkb => ht.keyed j i b a hb ha (hkb.trans hkey.symm)⟩
  · refine ⟨fun e he => absurd he (by simp [Table.free?_some hfree]), fun j b hb hkb => ?_⟩
    exact absurd ((hfor b).mpr hkb) (by simp [Table.find?_none hf hb])

theorem AddCall.clearing_tabled (ht : Tabled rx) (c : AddCall) : Tabled (c.clearing P rx).1 := by
  have hexpired := ht.expire c.jiffies
  unfold AddCall.clearing
  dsimp only
  generalize reassemblyExpire rx c.jiffies = rx at hexpired
  split
  · exact hexpired
  rename_i i hfind
  obtain ⟨hkey, honly⟩ := reassemblyFind_key hexpired hfind
  -- the entry of the message, or the one opened for it
  obtain ⟨hfilled, hlength, hkeyed⟩ : (c.entry P rx i).Filled ∧
      (c.entry P rx i).receivedLength = Table.weight Reassembly.receivedLength (rx.reassemblies i) ∧
      (c.entry P rx i).key =
        (c.source, c.header.common.identityGeneration, c.sessionEpoch, c.header.common.messageId) := by
    unfold AddCall.entry RxState.entryFor
    cases he : rx.reassemblies i with
    | none => exact ⟨⟨fun _ => by simp [reassemblyOpen], fun k hk => by simp [reassemblyOpen] at hk,
        (Table.sum_empty _).symm⟩, rfl, rfl⟩
    | some e => exact ⟨hexpired.filled i e he, rfl, hkey e he⟩
  generalize c.entry P rx i = e at *
  have hopen : Tabled (rx.store i e 0) :=
    hexpired.store hfilled (fun j a ha heq => honly j a ha (heq.trans hkeyed)) hlength hexpired.limit
  split_ifs with hdiffers
  · exact hexpired
  unfold AddCall.put
  dsimp only
  split
  · exact hopen
  rename_i hstop
  obtain ⟨hmissing, hroom⟩ := not_or.mp hstop
  simp only [reassemblyConsistent, Bool.not_eq_false, Bool.and_eq_true, decide_eq_true_eq] at hdiffers
  have hlimit := hexpired.limit
  refine hopen.store (hfilled.store c.bounded hdiffers.1.1.1.1.2
    (Bool.eq_false_iff.mpr hmissing) c.octets c.token) (fun j a ha heq => ?_) ?_ ?_
  · exact hopen.keyed j i a e ha (Table.set_self ..) heq
  · simp [RxState.store, reassemblyStore]
  · show rx.reassemblyBytes + 0 + _ ≤ _
    omega

theorem reassemblyCall_tabled (P : Platform) (rx : RxState) (call : ReassemblyCall) (ht : Tabled rx) :
    Tabled (reassemblyCall P rx call) := by
  cases call with
  | add c =>
    have hclearing := AddCall.clearing_tabled (P := P) ht c
    show Tabled (c.run P rx)
    rw [AddCall.run_eq]
    unfold clearSlot
    cases (c.clearing P rx).2 with
    | none => exact hclearing
    | some i => exact hclearing.clear i
  | expire jiffies => exact ht.expire jiffies
  | peerReset node =>
    have hd := ht.clearWhere fun e => e.source = node
    exact ⟨hd.keyed, hd.filled, hd.total, hd.limit⟩
  | sessionReset => exact ⟨Table.keyed_empty _, nofun, (Table.sum_empty _).symm, Nat.zero_le _⟩

/-- The octet count is at least what a clear subtracts: over all the entries an expiry or a reset clears, and for the
one an add clears. -/
structure Unsaturated (P : Platform) (rx : RxState) : Prop where
  swept : ∀ p : Reassembly → Bool, rx.reassemblies.sum (fun e => if p e then e.receivedLength else 0) ≤
    rx.reassemblyBytes
  added : ∀ c : AddCall, c.run P rx = clearSlot (c.clearing P rx) ∧ ∀ i e, (c.clearing P rx).2 = some i →
    (c.clearing P rx).1.reassemblies i = some e → e.receivedLength ≤ (c.clearing P rx).1.reassemblyBytes

theorem Tabled.unsaturated (ht : Tabled rx) (P : Platform) : Unsaturated P rx where
  swept p := by
    have hsum := rx.reassemblies.sum_drop p Reassembly.receivedLength
    rw [ht.total]
    omega
  added c := ⟨c.run_eq P rx, fun _ _ _ he => (AddCall.clearing_tabled ht c).total ▸ Table.le_sum he _⟩

/-- After any calls, expiries and resets the keys of the table are distinct, its counts are the sums of what is
stored, and no subtraction saturates. -/
theorem reassembly_table (P : Platform) (calls : List ReassemblyCall) :
    Tabled (run (reassemblyCall P) {} calls) ∧ Unsaturated P (run (reassemblyCall P) {} calls) := by
  have ht := run_invariant (reassemblyCall P) Tabled (reassemblyCall_tabled P) (s := {})
    ⟨Table.keyed_empty _, nofun, (Table.sum_empty _).symm, Nat.zero_le _⟩ calls
  exact ⟨ht, ht.unsaturated P⟩

end Melodi
