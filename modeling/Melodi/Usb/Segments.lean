import Melodi.Core.Device
import Melodi.Proto.RadioTyped

/-!
# Segments over the USB radio (`kernel/usb/main.c`)

A frame is cut into segments of at most the packet MTU (`usbSegments`, the loop of `melodi_usb_xmit`). The receiver
puts them together in a table of eight entries (`usbReceiveSegment`): the buffer of an entry comes from `kmalloc`, with
whatever the memory held, and a bitmap of the segment indices says when the entry is complete.

* `UsbReassembly.Covered`, `handed_octets_written` : with segments that fill their range, no octet leaves that no
segment wrote.
-/

namespace Melodi
open Lib
variable {mtu : Nat} {s : RadioSegment} {hz jiffies : UInt64}

def USB_REASSEMBLY_LIMIT : Nat := 8

def USB_REASSEMBLY_TIMEOUT_S : Nat := 60

/-! ## Cutting a frame -/

def usbPayloadMtu (packetMtu : Nat) : Nat :=
  if RADIO_SEGMENT_SIZE < packetMtu then packetMtu - RADIO_SEGMENT_SIZE else 0

def usbSegment (mtu count : Nat) (frameId : UInt32) (frame : Octets) (index : Nat) : RadioSegment where
  frameId := frameId
  totalLength := .ofNat frame.length
  index := .ofNat index
  count := .ofNat count
  payload := (frame.drop (index * mtu)).take (min (frame.length - index * mtu) mtu)

/-- `melodi_usb_xmit`: the packets of a frame. The queue slots and routes that the packets take are not part of this. -/
def usbSegments (packetMtu : Nat) (frameId : UInt32) (frame : Octets) : Except Errno (List Octets) :=
  if frame.length = 0 ∨ RADIO_FRAME_MAX < frame.length then .error .EINVAL
  else if usbPayloadMtu packetMtu = 0 then .error .ENETDOWN
  else
    let mtu := usbPayloadMtu packetMtu
    let count := (frame.length + mtu - 1) / mtu
    if count = 0 ∨ RADIO_SEGMENT_LIMIT < count then .error .EMSGSIZE
    else (List.range count).mapM fun index => radioSegmentEncode (usbSegment mtu count frameId frame index)
      RADIO_PACKET_MAX

/-! ## The reassembly table -/

/-- A frame that is being put together, with the octets written so far. -/
structure UsbReassembly where
  source : UInt32
  destination : UInt32
  frameId : UInt32
  expires : UInt64
  received : BitVec 32 := 0
  totalLength : Nat
  count : Nat
  data : Octets
  written : List Bool
  deriving DecidableEq, Repr

structure UsbReceiver where
  localLocator : UInt32 := 0
  packetMtu : Nat := 0
  reassemblies : Table USB_REASSEMBLY_LIMIT UsbReassembly := Table.empty

/-- What the receive path finds around it: the clocks, the octets `kmalloc` returns (none when it fails) and the result
of `melodi_rx_frame`. -/
structure UsbAmbient where
  jiffies : UInt64 := 0
  timestampNs : UInt64 := 0
  memory : Option (Nat → UInt8) := some fun _ => 0
  result : Except Errno Unit := .ok ()

/-- A frame passed to `melodi_rx_frame`, and which of its octets were written by a segment. -/
structure UsbHanded where
  frame : Octets
  metadata : RxMeta
  written : List Bool

def UsbReassembly.is (source frameId : UInt32) (e : UsbReassembly) : Bool := e.source = source && e.frameId = frameId

def UsbReassembly.expired (jiffies : UInt64) (e : UsbReassembly) : Bool := timeAfterEq jiffies e.expires

def usbReassemblyScan (jiffies : UInt64) (source frameId : UInt32) (t : Table USB_REASSEMBLY_LIMIT UsbReassembly)
    (empty : Option (Fin USB_REASSEMBLY_LIMIT)) :
    List (Fin USB_REASSEMBLY_LIMIT) → Table USB_REASSEMBLY_LIMIT UsbReassembly × Option (Fin USB_REASSEMBLY_LIMIT)
  | [] => (t, empty)
  | i :: rest =>
    let t := if (t i).any (·.expired jiffies) then t.clear i else t
    if (t i).any (·.is source frameId) then (t, some i)
    else usbReassemblyScan jiffies source frameId t (if (t i).isNone then empty.or (some i) else empty) rest

def usbReassemblyFind (jiffies : UInt64) (source frameId : UInt32) (t : Table USB_REASSEMBLY_LIMIT UsbReassembly) :
    Table USB_REASSEMBLY_LIMIT UsbReassembly × Option (Fin USB_REASSEMBLY_LIMIT) :=
  usbReassemblyScan jiffies source frameId t none (List.finRange USB_REASSEMBLY_LIMIT)

def segmentMask (count : Nat) : BitVec 32 := if count = 32 then BitVec.allOnes 32 else (1#32 <<< count) - 1

def usbReassemblyOpen (hz jiffies : UInt64) (memory : Nat → UInt8) (packet : RadioReceive) (segment : RadioSegment) :
    UsbReassembly where
  source := packet.source
  destination := packet.destination
  frameId := segment.frameId
  expires := jiffies + .ofNat USB_REASSEMBLY_TIMEOUT_S * hz
  totalLength := segment.totalLength.toNat
  count := segment.count.toNat
  data := (List.range segment.totalLength.toNat).map memory
  written := List.replicate segment.totalLength.toNat false

def UsbReassembly.store (e : UsbReassembly) (offset : Nat) (segment : RadioSegment) : UsbReassembly :=
  { e with
    data := splice e.data offset segment.payload
    written := splice e.written offset (List.replicate segment.payload.length true)
    received := e.received ||| (1#32 <<< segment.index.toNat) }

def RadioReceive.metadata (packet : RadioReceive) (timestampNs : UInt64) : RxMeta where
  timestampNs := timestampNs
  sourceLocator := packet.source
  destinationLocator := packet.destination
  rssi := packet.rssi.toInt
  snr := packet.snr.toInt
  hops := packet.hops

def usbReassemblyPut (t : Table USB_REASSEMBLY_LIMIT UsbReassembly) (i : Fin USB_REASSEMBLY_LIMIT) (e : UsbReassembly)
    (mtu : Nat) (packet : RadioReceive) (segment : RadioSegment) (ambient : UsbAmbient) :
    Table USB_REASSEMBLY_LIMIT UsbReassembly × Option UsbHanded × Except Errno Unit :=
  let offset := segment.index.toNat * mtu
  if e.totalLength ≤ offset ∨ e.totalLength - offset < segment.payload.length then (t.clear i, none, .error .EPROTO)
  else if e.received.getLsbD segment.index.toNat then
    if (e.data.drop offset).take segment.payload.length = segment.payload then (t.set i e, none, .error .EALREADY)
    else (t.clear i, none, .error .EPROTO)
  else
    let e := e.store offset segment
    if e.received ≠ segmentMask segment.count.toNat then (t.set i e, none, .ok ())
    else (t.clear i, some ⟨e.data, packet.metadata ambient.timestampNs, e.written⟩, ambient.result)

def usbReassemblyAdd (hz : UInt64) (t : Table USB_REASSEMBLY_LIMIT UsbReassembly) (mtu : Nat) (packet : RadioReceive)
    (segment : RadioSegment) (ambient : UsbAmbient) :
    Table USB_REASSEMBLY_LIMIT UsbReassembly × Option UsbHanded × Except Errno Unit :=
  let (t, slot) := usbReassemblyFind ambient.jiffies packet.source segment.frameId t
  match slot with
  | none => (t, none, .error .ENOSPC)
  | some i =>
    match t i with
    | none =>
      match ambient.memory with
      | none => (t, none, .error .ENOMEM)
      | some memory =>
        usbReassemblyPut t i (usbReassemblyOpen hz ambient.jiffies memory packet segment) mtu packet segment ambient
    | some e =>
      if e.destination ≠ packet.destination ∨ e.totalLength ≠ segment.totalLength.toNat ∨
          e.count ≠ segment.count.toNat then
        (t.clear i, none, .error .EPROTO)
      else usbReassemblyPut t i e mtu packet segment ambient

def usbReceiveSegment (hz : UInt64) (d : UsbReceiver) (packet : RadioReceive) (ambient : UsbAmbient) :
    UsbReceiver × Option UsbHanded × Except Errno Unit :=
  match radioSegmentDecode packet.payload with
  | .error e => (d, none, .error e)
  | .ok segment =>
    if packet.destination ≠ RADIO_LOCATOR_BROADCAST ∧ packet.destination ≠ d.localLocator then
      (d, none, .error .EHOSTUNREACH)
    else if usbPayloadMtu d.packetMtu = 0 then (d, none, .error .ENETDOWN)
    else
      let r := usbReassemblyAdd hz d.reassemblies (usbPayloadMtu d.packetMtu) packet segment ambient
      ({ d with reassemblies := r.1 }, r.2)

/-! ## The receiver -/

inductive UsbLabel where
  | receive (packet : RadioReceive) (ambient : UsbAmbient)
  | info (packetMtu : Nat)
  | status (locator : UInt32)
  | configure
  | quiesce
  | maintenance (i : Fin USB_REASSEMBLY_LIMIT) (jiffies : UInt64)

def usbStep (hz : UInt64) (d : UsbReceiver) : UsbLabel → UsbReceiver × Option UsbHanded
  | .receive packet ambient => let r := usbReceiveSegment hz d packet ambient; (r.1, r.2.1)
  -- what melodi_radio_decode_info refuses does not come here
  | .info packetMtu => (if packetMtu = 0 ∨ RADIO_PACKET_MAX < packetMtu then d else { d with packetMtu := packetMtu },
      none)
  | .status locator => ({ d with localLocator := locator }, none)
  | .configure => ({ localLocator := 0, packetMtu := 0, reassemblies := Table.empty }, none)
  | .quiesce => ({ d with reassemblies := Table.empty }, none)
  | .maintenance i jiffies =>
    (if (d.reassemblies i).any (·.expired jiffies) then { d with reassemblies := d.reassemblies.clear i } else d, none)

/-! ## Looking up an entry -/

variable {source frameId : UInt32} {t : Table USB_REASSEMBLY_LIMIT UsbReassembly} {e : UsbReassembly}
  {packet : RadioReceive} {ambient : UsbAmbient} {d : UsbReceiver}

theorem getLsbD_segmentMask {count : Nat} (h : count ≤ 32) (j : Nat) :
    (segmentMask count).getLsbD j = decide (j < count) := by
  unfold segmentMask
  split_ifs with h32
  · rw [h32, BitVec.getLsbD_allOnes]
  · exact getLsbD_lowBits (by omega) j

theorem usbReassemblyScan_spec (l : List (Fin USB_REASSEMBLY_LIMIT)) {empty : Option (Fin USB_REASSEMBLY_LIMIT)}
    (hempty : ∀ i, empty = some i → t i = none) :
    (∀ j e, (usbReassemblyScan jiffies source frameId t empty l).1 j = some e → t j = some e) ∧
    ∀ i e, (usbReassemblyScan jiffies source frameId t empty l).2 = some i →
      (usbReassemblyScan jiffies source frameId t empty l).1 i = some e → e.is source frameId = true := by
  induction l generalizing t empty with
  | nil =>
    refine ⟨fun j e h => h, fun i e hi he => ?_⟩
    have hnone : t i = none := hempty i hi
    exact absurd (hnone.symm.trans he) (by simp)
  | cons i l ih =>
    rw [usbReassemblyScan]
    set t' := if (t i).any (·.expired jiffies) then t.clear i else t with ht'
    have hsub : ∀ j e, t' j = some e → t j = some e := by
      intro j e h
      rw [ht'] at h
      split_ifs at h
      · exact (Table.clear_eq_some.mp h).2
      · exact h
    split_ifs with hmatch hfree
    · refine ⟨hsub, fun k e hk he => ?_⟩
      obtain rfl := Option.some.inj hk
      simpa [show t' i = some e from he] using hmatch
    all_goals
      have hnone : ∀ k, empty = some k → t' k = none := by
        intro k hk
        cases hk' : t' k with
        | none => rfl
        | some e => exact absurd (hempty k hk) (by simp [hsub k e hk'])
    · have hnext : ∀ k, empty.or (some i) = some k → t' k = none := by
        intro k hk
        cases hempty' : empty with
        | none =>
          rw [hempty', Option.none_or, Option.some.injEq] at hk
          exact hk ▸ Option.isNone_iff_eq_none.mp hfree
        | some k' => exact hnone k (by rw [hempty'] at hk ⊢; exact hk)
      obtain ⟨hkept, hfound⟩ := ih hnext
      exact ⟨fun j e h => hsub j e (hkept j e h), hfound⟩
    · obtain ⟨hkept, hfound⟩ := ih hnone
      exact ⟨fun j e h => hsub j e (hkept j e h), hfound⟩

theorem usbReassemblyFind_sub {j : Fin USB_REASSEMBLY_LIMIT}
    (h : (usbReassemblyFind jiffies source frameId t).1 j = some e) :
    t j = some e := (usbReassemblyScan_spec _ (by simp)).1 j e h

/-! ## Coverage

With a packet MTU that gives segments of `mtu` octets, the segment of index `k` stands for the range of `mtu` octets
from `k * mtu` on. An entry is covered when the ranges of its received segments were written, and the ranges reach its
end. -/

/-- The octets of the segments received were written. -/
structure UsbReassembly.Covered (mtu : Nat) (e : UsbReassembly) : Prop where
  written_length : e.written.length = e.totalLength
  data_length : e.data.length = e.totalLength
  count_le : e.count ≤ 32
  room : e.totalLength ≤ e.count * mtu
  covers : ∀ k, e.received.getLsbD k = true → ∀ p, k * mtu ≤ p → p < k * mtu + mtu → p < e.totalLength →
    e.written[p]? = some true

/-- A segment brings all octets of its range, and the segments of its frame reach the end of it. -/
def RadioSegment.Fills (mtu : Nat) (s : RadioSegment) : Prop :=
  min mtu (s.totalLength.toNat - s.index.toNat * mtu) ≤ s.payload.length ∧ s.totalLength.toNat ≤ s.count.toNat * mtu

instance (mtu : Nat) (s : RadioSegment) : Decidable (s.Fills mtu) := inferInstanceAs (Decidable (_ ∧ _))

theorem UsbReassembly.Covered.opened {memory : Nat → UInt8} (hs : s.Fills mtu) (hcount : s.count.toNat ≤ 32) :
    (usbReassemblyOpen hz jiffies memory packet s).Covered mtu where
  written_length := List.length_replicate
  data_length := by simp [usbReassemblyOpen]
  count_le := hcount
  room := hs.2
  covers k hk := by simp [usbReassemblyOpen] at hk

theorem UsbReassembly.Covered.store (h : e.Covered mtu) (hs : s.Fills mtu)
    (htotal : e.totalLength = s.totalLength.toNat)
    (hindex : s.index.toNat < 32) (hfits : s.index.toNat * mtu + s.payload.length ≤ e.totalLength) :
    (e.store (s.index.toNat * mtu) s).Covered mtu where
  written_length := (length_splice (by simpa [h.written_length] using hfits)).trans h.written_length
  data_length := (length_splice (by simpa [h.data_length] using hfits)).trans h.data_length
  count_le := h.count_le
  room := h.room
  covers k hk p hlow hhigh hp := by
    have hget : (splice e.written (s.index.toNat * mtu) (List.replicate s.payload.length true))[p]? = _ :=
      getElem?_splice (by simpa [h.written_length] using hfits) p
    rw [List.length_replicate] at hget
    show (splice e.written (s.index.toNat * mtu) (List.replicate s.payload.length true))[p]? = some true
    rw [hget]
    by_cases hin : s.index.toNat * mtu ≤ p ∧ p < s.index.toNat * mtu + s.payload.length
    · rw [if_pos hin, List.getElem?_replicate, if_pos (by omega)]
    rw [if_neg hin]
    -- outside the copied octets the position belongs to a segment that was there before
    have hold : e.received.getLsbD k = true := by
      have hbit : (e.received ||| (1#32 <<< s.index.toNat)).getLsbD k = true := hk
      rw [BitVec.getLsbD_or, getLsbD_oneBit hindex, Bool.or_eq_true, decide_eq_true_eq] at hbit
      refine hbit.resolve_right fun hki => hin ?_
      subst hki
      have hfill := hs.1
      have hp' : p < e.totalLength := hp
      omega
    exact h.covers k hold p hlow hhigh hp

theorem UsbReassembly.Covered.complete (h : e.Covered mtu) (hmask : e.received = segmentMask e.count) {p : Nat}
    (hp : p < e.totalLength) : e.written[p]? = some true := by
  have hroom := h.room
  have hpos : 0 < mtu := by
    refine Nat.pos_of_ne_zero fun h0 => ?_
    subst h0
    omega
  have hk : p / mtu < e.count := (Nat.div_lt_iff_lt_mul hpos).mpr (by omega)
  have hlow : p / mtu * mtu ≤ p := Nat.div_mul_le_self p mtu
  have hhigh : p < p / mtu * mtu + mtu := Nat.lt_div_mul_add hpos
  refine h.covers (p / mtu) ?_ p hlow hhigh hp
  rw [hmask, getLsbD_segmentMask h.count_le]
  exact decide_eq_true hk

def UsbHanded.Written (f : UsbHanded) : Prop := ∀ p, p < f.frame.length → f.written[p]? = some true

theorem usbReassemblyPut_covered {i : Fin USB_REASSEMBLY_LIMIT} (ht : ∀ j e, t j = some e → e.Covered mtu)
    (he : e.Covered mtu) (hs : s.Fills mtu) (htotal : e.totalLength = s.totalLength.toNat)
    (hcount : e.count = s.count.toNat) (hindex : s.index.toNat < 32) :
    (∀ j e', (usbReassemblyPut t i e mtu packet s ambient).1 j = some e' → e'.Covered mtu) ∧
    ∀ f, (usbReassemblyPut t i e mtu packet s ambient).2.1 = some f → f.Written := by
  have hclear : ∀ j e', t.clear i j = some e' → e'.Covered mtu := fun j e' h => ht j e' (Table.clear_eq_some.mp h).2
  have hset : ∀ e', e'.Covered mtu → ∀ j e'', t.set i e' j = some e'' → e''.Covered mtu := by
    intro e' he' j e'' h
    rw [Table.set_apply] at h
    split_ifs at h
    · exact Option.some.inj h ▸ he'
    · exact ht j e'' h
  unfold usbReassemblyPut
  dsimp only
  split_ifs with hrange hseen hsame hmore
  · exact ⟨hclear, by simp⟩
  · exact ⟨hset e he, by simp⟩
  · exact ⟨hclear, by simp⟩
  all_goals
    have hstored : (e.store (s.index.toNat * mtu) s).Covered mtu := he.store hs htotal hindex (by omega)
  · exact ⟨hset _ hstored, by simp⟩
  · refine ⟨hclear, fun f hf p hp => ?_⟩
    obtain rfl := Option.some.inj hf
    refine hstored.complete (not_not.mp hmore |>.trans (congrArg segmentMask hcount.symm)) ?_
    exact hp.trans_eq hstored.data_length

def UsbReceiver.Covered (d : UsbReceiver) : Prop :=
  ∀ i e, d.reassemblies i = some e → e.Covered (usbPayloadMtu d.packetMtu)

/-- A segment that is addressed to this radio or to all, and is not refused for want of an MTU, fills its range. -/
def UsbReceiver.Filled (d : UsbReceiver) (packet : RadioReceive) : Prop :=
  ∀ s, radioSegmentDecode packet.payload = .ok s →
    (packet.destination ≠ RADIO_LOCATOR_BROADCAST ∧ packet.destination ≠ d.localLocator) ∨
      usbPayloadMtu d.packetMtu = 0 ∨ s.Fills (usbPayloadMtu d.packetMtu)

instance (d : UsbReceiver) (packet : RadioReceive) : Decidable (d.Filled packet) :=
  match h : radioSegmentDecode packet.payload with
  | .error _ => isTrue fun _ hs => nomatch h.symm.trans hs
  | .ok s => decidable_of_iff
      ((packet.destination ≠ RADIO_LOCATOR_BROADCAST ∧ packet.destination ≠ d.localLocator) ∨
        usbPayloadMtu d.packetMtu = 0 ∨ s.Fills (usbPayloadMtu d.packetMtu))
      ⟨fun hs _ hs' => Except.ok.inj (h.symm.trans hs') ▸ hs, fun hs => hs s h⟩

/-- The condition on one step: a segment that is received here fills its range, and the radio announces another packet
MTU only while no frame is being put together. -/
def UsbLabel.Filling (d : UsbReceiver) : UsbLabel → Prop
  | .receive packet _ => d.Filled packet
  | .info packetMtu => packetMtu = d.packetMtu ∨ ∀ i, d.reassemblies i = none
  | .status _ | .configure | .quiesce | .maintenance _ _ => True

instance (d : UsbReceiver) : DecidablePred (UsbLabel.Filling d)
  | .receive packet _ => inferInstanceAs (Decidable (d.Filled packet))
  | .info _ => inferInstanceAs (Decidable (_ ∨ _))
  | .status _ | .configure | .quiesce | .maintenance _ _ => inferInstanceAs (Decidable True)

def HandsWritten (hz : UInt64) (d : UsbReceiver) (label : UsbLabel) : Prop :=
  ∀ f, (usbStep hz d label).2 = some f → f.Written

theorem usbReassemblyAdd_covered (ht : ∀ j e, t j = some e → e.Covered mtu) (hs : s.Fills mtu)
    (hindex : s.index.toNat < s.count.toNat) (hlimit : s.count.toNat ≤ 32) :
    (∀ j e, (usbReassemblyAdd hz t mtu packet s ambient).1 j = some e → e.Covered mtu) ∧
    ∀ f, (usbReassemblyAdd hz t mtu packet s ambient).2.1 = some f → f.Written := by
  have hbound : s.index.toNat < 32 := Nat.lt_of_lt_of_le hindex hlimit
  -- the lookup only clears entries, so those it leaves are covered
  replace ht : ∀ j e, (usbReassemblyFind ambient.jiffies packet.source s.frameId t).1 j = some e → e.Covered mtu :=
    fun j e h => ht j e (usbReassemblyFind_sub h)
  unfold usbReassemblyAdd
  revert ht
  generalize usbReassemblyFind ambient.jiffies packet.source s.frameId t = r
  obtain ⟨t', slot⟩ := r
  intro ht
  cases slot with
  | none => exact ⟨ht, by simp⟩
  | some i =>
    cases hi : t' i with
    | none =>
      cases hmemory : ambient.memory with
      | none =>
        simp only [hi]
        exact ⟨ht, by simp⟩
      | some memory =>
        simp only [hi]
        exact usbReassemblyPut_covered ht (.opened hs hlimit) hs rfl rfl hbound
    | some e =>
      simp only [hi]
      split_ifs with hdiffer
      · exact ⟨fun j e' h => ht j e' (Table.clear_eq_some.mp h).2, by simp⟩
      · simp only [not_or, not_not] at hdiffer
        exact usbReassemblyPut_covered ht (ht i e hi) hs hdiffer.2.1 hdiffer.2.2 hbound

theorem usbReceiveSegment_covered (hd : d.Covered) (hfill : d.Filled packet) :
    (usbReceiveSegment hz d packet ambient).1.Covered ∧
    ∀ f, (usbReceiveSegment hz d packet ambient).2.1 = some f → f.Written := by
  unfold usbReceiveSegment
  cases hdecode : radioSegmentDecode packet.payload with
  | error e => exact ⟨hd, by simp⟩
  | ok s =>
    obtain ⟨-, hindex, hlimit, -, -⟩ := radioSegmentDecode_ok hdecode
    dsimp only
    split_ifs with hforeign hdown
    · exact ⟨hd, by simp⟩
    · exact ⟨hd, by simp⟩
    · exact usbReassemblyAdd_covered hd (((hfill s hdecode).resolve_left hforeign).resolve_left hdown) hindex hlimit

theorem usbStep_covered {label : UsbLabel} (hd : d.Covered) (hfill : label.Filling d) :
    (usbStep hz d label).1.Covered ∧ HandsWritten hz d label := by
  have hempty : ∀ d' : UsbReceiver, d'.reassemblies = Table.empty → d'.Covered := by
    intro d' h i e he
    rw [h] at he
    exact absurd he (by simp)
  cases label with
  | receive packet ambient => exact usbReceiveSegment_covered hd hfill
  | info packetMtu =>
    refine ⟨?_, fun f hf => nomatch hf⟩
    unfold usbStep
    dsimp only
    split_ifs with hbad
    · exact hd
    · rcases hfill with hsame | hnone
      · subst hsame
        exact hd
      · exact hempty _ (funext hnone)
  | status locator => exact ⟨hd, fun f hf => nomatch hf⟩
  | configure => exact ⟨hempty _ rfl, fun f hf => nomatch hf⟩
  | quiesce => exact ⟨hempty _ rfl, fun f hf => nomatch hf⟩
  | maintenance i jiffies =>
    refine ⟨?_, fun f hf => nomatch hf⟩
    unfold usbStep
    dsimp only
    split_ifs with hexpired
    · exact fun j e h => hd j e (Table.clear_eq_some.mp h).2
    · exact hd

/-- If the segments that are received here fill their ranges, every octet that is handed over was written. -/
theorem handed_octets_written (hz : UInt64) (labels : List UsbLabel)
    (hfill : Along (fun d label => (usbStep hz d label).1) UsbLabel.Filling {} labels) :
    Along (fun d label => (usbStep hz d label).1) (HandsWritten hz) {} labels := by
  refine along_of_invariant _ UsbReceiver.Covered ?_ ?_ (fun i e h => nomatch h) hfill
  · exact fun d label hlabel hd => (usbStep_covered hd hlabel).1
  · exact fun d label hlabel hd => (usbStep_covered hd hlabel).2

def shortPacket : RadioReceive where
  source := 9
  destination := 7
  payload := put32 1 ++ put16 2 ++ put16 0 ++ put16 1 ++ put16 0 ++ [0xaa]

def fullPacket : RadioReceive := { shortPacket with payload := shortPacket.payload ++ [0xbb] }

def receiveOne (packet : RadioReceive) : List UsbLabel :=
  [.info 240, .status 7, .receive packet { memory := some fun _ => 0x5a }]

/-- The memory that was in the buffer before is handed over as the second octet of the frame. -/
theorem short_segment_discloses :
    (trace (usbStep 250) {} (receiveOne shortPacket)).2.map (fun o => o.map fun f => (f.frame, f.written)) =
      [none, none, some ([0xaa, 0x5a], [true, false])] ∧
    ¬ Along (fun d label => (usbStep 250 d label).1) (HandsWritten 250) {} (receiveOne shortPacket) := by
  have hrun : (usbStep 250 (run (fun d label => (usbStep 250 d label).1) {} [.info 240, .status 7])
      (.receive shortPacket { memory := some fun _ => 0x5a })).2.map (fun f => (f.frame, f.written)) =
      some ([0xaa, 0x5a], [true, false]) := by decide +kernel
  refine ⟨by decide +kernel, fun h => ?_⟩
  have hwritten : HandsWritten 250 (run (fun d label => (usbStep 250 d label).1) {} [.info 240, .status 7])
      (.receive shortPacket { memory := some fun _ => 0x5a }) := h.2.2.1
  obtain ⟨f, hf, heq⟩ := Option.map_eq_some_iff.mp hrun
  have hlast := hwritten f hf 1
  rw [(Prod.mk.inj heq).1, (Prod.mk.inj heq).2] at hlast
  exact absurd (hlast (by decide)) (by decide)

theorem full_segment_written :
    Along (fun d label => (usbStep 250 d label).1) (HandsWritten 250) {} (receiveOne fullPacket) ∧
    (trace (usbStep 250) {} (receiveOne fullPacket)).2.map (fun o => o.map UsbHanded.frame) =
      [none, none, some [0xaa, 0xbb]] :=
  ⟨handed_octets_written 250 (receiveOne fullPacket) (by decide +kernel), by decide +kernel⟩

end Melodi
