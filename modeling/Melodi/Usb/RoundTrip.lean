import Melodi.Lib.Loop
import Melodi.Usb.Segments

/-!
# Frames come back from their segments

The packets of any number of frames, cut for one packet MTU, reach a receiver that uses the same MTU: in any order,
repeated while their frame is not complete, with at most eight frames under way at a time.

* `segments_round_trip` : every frame is handed over once, with its last missing packet, as it was sent.
-/

namespace Melodi
open Lib
variable {k : Nat} {t : Table USB_REASSEMBLY_LIMIT UsbReassembly} {jiffies : UInt64}

/-! ## Frames that were cut -/

structure SentFrame (packetMtu : Nat) where
  source : UInt32
  destination : UInt32
  frameId : UInt32
  frame : Octets
  packets : List Octets
  cut : usbSegments packetMtu frameId frame = .ok packets

def SentFrame.key {packetMtu : Nat} (f : SentFrame packetMtu) : UInt32 × UInt32 := (f.source, f.frameId)

/-- How a frame was cut: enough segments to reach its end, no more than the receiver's bitmap has bits, and each packet
reads back as its segment. -/
structure SentFrame.Cut {packetMtu : Nat} (f : SentFrame packetMtu) (mtu : Nat) : Prop where
  mtu_pos : 0 < mtu
  length_le : f.frame.length ≤ RADIO_FRAME_MAX
  count_pos : 0 < f.packets.length
  count_le : f.packets.length ≤ 32
  begins : ∀ k, k < f.packets.length → k * mtu < f.frame.length
  reaches : f.frame.length ≤ f.packets.length * mtu
  reads : ∀ k, k < f.packets.length →
    radioSegmentDecode (f.packets.getD k []) = .ok (usbSegment mtu f.packets.length f.frameId f.frame k)

theorem SentFrame.cut_spec {packetMtu : Nat} (f : SentFrame packetMtu) : f.Cut (usbPayloadMtu packetMtu) := by
  have h := f.cut
  unfold usbSegments at h
  set mtu := usbPayloadMtu packetMtu
  dsimp only at h
  split_ifs at h with hlength hmtu hcount
  simp only [not_or, Nat.not_lt] at hlength hcount
  have hpos : 0 < mtu := Nat.pos_of_ne_zero hmtu
  obtain ⟨hpackets, hreads⟩ := mapM_ok h
  rw [List.length_range] at hpackets
  have hdivision := Nat.div_add_mod (f.frame.length + mtu - 1) mtu
  have hremainder := Nat.mod_lt (f.frame.length + mtu - 1) hpos
  rw [← hpackets] at hcount hreads hdivision
  rw [Nat.mul_comm] at hdivision
  refine ⟨hpos, hlength.2, Nat.pos_of_ne_zero hcount.1, hcount.2, fun k hk => ?_, by omega, fun k hk => ?_⟩
  · have hle : (k + 1) * mtu ≤ f.packets.length * mtu := Nat.mul_le_mul_right mtu hk
    rw [Nat.succ_mul] at hle
    omega
  obtain ⟨packet, hpacket, hencode⟩ := hreads k k (by rw [List.getElem?_range hk])
  rw [List.getD_eq_getElem?_getD, hpacket]
  exact radioSegmentDecode_encode hencode

section Segment
variable {packetMtu mtu : Nat} {f : SentFrame packetMtu}

theorem SentFrame.Cut.totalLength (h : f.Cut mtu) (k : Nat) :
    (usbSegment mtu f.packets.length f.frameId f.frame k).totalLength.toNat = f.frame.length := by
  have hle : f.frame.length ≤ 7296 := h.length_le
  show (UInt16.ofNat f.frame.length).toNat = _
  rw [UInt16.toNat_ofNat']
  omega

theorem SentFrame.Cut.count (h : f.Cut mtu) (k : Nat) :
    (usbSegment mtu f.packets.length f.frameId f.frame k).count.toNat = f.packets.length := by
  have hle := h.count_le
  show (UInt16.ofNat f.packets.length).toNat = _
  rw [UInt16.toNat_ofNat']
  omega

theorem SentFrame.Cut.index (h : f.Cut mtu) (hk : k < f.packets.length) :
    (usbSegment mtu f.packets.length f.frameId f.frame k).index.toNat = k := by
  have hle := h.count_le
  show (UInt16.ofNat k).toNat = _
  rw [UInt16.toNat_ofNat']
  omega

theorem usbSegment_payload_length (k : Nat) :
    (usbSegment mtu f.packets.length f.frameId f.frame k).payload.length = min (f.frame.length - k * mtu) mtu := by
  simp only [usbSegment, List.length_take, List.length_drop]
  omega

end Segment

/-! ## Arrivals -/

theorem usbReassemblyScan_fresh {source frameId : UInt32} (hfresh : ∀ i, (t i).any (·.expired jiffies) = false)
    (empty : Option (Fin USB_REASSEMBLY_LIMIT)) (l : List (Fin USB_REASSEMBLY_LIMIT)) :
    usbReassemblyScan jiffies source frameId t empty l =
      (t, (l.find? fun i => (t i).any (·.is source frameId)).or (empty.or (l.find? fun i => (t i).isNone))) := by
  induction l generalizing empty with
  | nil => simp [usbReassemblyScan]
  | cons i l ih =>
    simp only [usbReassemblyScan, hfresh i, Bool.false_eq_true, if_false, List.find?_cons]
    by_cases hmatch : (t i).any (·.is source frameId) = true
    · simp [hmatch]
    rw [if_neg hmatch, ih]
    cases hi : t i with
    | none => cases empty <;> simp
    | some e =>
      simp only [hi, Option.any_some] at hmatch
      simp [hmatch]

theorem usbReassemblyFind_fresh {source frameId : UInt32} (hfresh : ∀ i, (t i).any (·.expired jiffies) = false) :
    usbReassemblyFind jiffies source frameId t = (t, (t.find? (·.is source frameId)).or t.free?) :=
  (usbReassemblyScan_fresh hfresh none _).trans (by rw [Option.none_or]; rfl)

section RoundTrip
variable {packetMtu n : Nat}

structure Arrival (n : Nat) where
  frame : Fin n
  index : Nat
  ambient : UsbAmbient := {}
  rssi : Int16 := 0
  snr : Int16 := 0
  hops : UInt8 := 0

def Arrival.packet (fs : Fin n → SentFrame packetMtu) (a : Arrival n) : RadioReceive where
  source := (fs a.frame).source
  destination := (fs a.frame).destination
  rssi := a.rssi
  snr := a.snr
  hops := a.hops
  payload := (fs a.frame).packets.getD a.index []

/-- A receiver, the packets that have reached it and the frames it has handed over, each with the frame whose packet
it handed it over for. -/
structure Reception (n : Nat) where
  receiver : UsbReceiver
  arrived : List (Fin n × Nat) := []
  handed : List (Fin n × Octets) := []

def receptionStep (hz : UInt64) (fs : Fin n → SentFrame packetMtu) (s : Reception n) (a : Arrival n) : Reception n :=
  let r := usbReceiveSegment hz s.receiver (a.packet fs) a.ambient
  { receiver := r.1
    arrived := s.arrived ++ [(a.frame, a.index)]
    handed := s.handed ++ (r.2.1.map fun f => (a.frame, f.frame)).toList }

def AllArrived (fs : Fin n → SentFrame packetMtu) (arrived : List (Fin n × Nat)) (j : Fin n) : Prop :=
  ∀ k < (fs j).packets.length, (j, k) ∈ arrived

instance (fs : Fin n → SentFrame packetMtu) (arrived : List (Fin n × Nat)) (j : Fin n) :
    Decidable (AllArrived fs arrived j) := inferInstanceAs (Decidable (∀ k < _, _))

def UnderWay (fs : Fin n → SentFrame packetMtu) (arrived : List (Fin n × Nat)) (j : Fin n) : Prop :=
  j ∈ arrived.map Prod.fst ∧ ¬ AllArrived fs arrived j

instance (fs : Fin n → SentFrame packetMtu) (arrived : List (Fin n × Nat)) : DecidablePred (UnderWay fs arrived) :=
  fun _ => inferInstanceAs (Decidable (_ ∧ _))

/-- What the arrivals are: at most eight frames are under way, with distinct sources or frame numbers. -/
structure Admissible (fs : Fin n → SentFrame packetMtu) (s : Reception n) (a : Arrival n) : Prop where
  index_lt : a.index < (fs a.frame).packets.length
  incomplete : ¬ AllArrived fs s.arrived a.frame
  addressed : (fs a.frame).destination = RADIO_LOCATOR_BROADCAST ∨ (fs a.frame).destination = s.receiver.localLocator
  concurrent : (Finset.univ.filter fun j => j = a.frame ∨ UnderWay fs s.arrived j).card ≤ USB_REASSEMBLY_LIMIT
  distinct : ∀ j, j ≠ a.frame → UnderWay fs s.arrived j → (fs j).key ≠ (fs a.frame).key
  fresh : ∀ i, (s.receiver.reassemblies i).any (·.expired a.ambient.jiffies) = false
  memory : a.ambient.memory.isSome

instance (fs : Fin n → SentFrame packetMtu) (s : Reception n) (a : Arrival n) : Decidable (Admissible fs s a) :=
  decidable_of_iff
    (a.index < (fs a.frame).packets.length ∧ ¬ AllArrived fs s.arrived a.frame ∧
      ((fs a.frame).destination = RADIO_LOCATOR_BROADCAST ∨ (fs a.frame).destination = s.receiver.localLocator) ∧
      (Finset.univ.filter fun j => j = a.frame ∨ UnderWay fs s.arrived j).card ≤ USB_REASSEMBLY_LIMIT ∧
      (∀ j, j ≠ a.frame → UnderWay fs s.arrived j → (fs j).key ≠ (fs a.frame).key) ∧
      (∀ i, (s.receiver.reassemblies i).any (·.expired a.ambient.jiffies) = false) ∧ a.ambient.memory.isSome)
    ⟨fun ⟨h₁, h₂, h₃, h₄, h₅, h₆, h₇⟩ => ⟨h₁, h₂, h₃, h₄, h₅, h₆, h₇⟩,
      fun ⟨h₁, h₂, h₃, h₄, h₅, h₆, h₇⟩ => ⟨h₁, h₂, h₃, h₄, h₅, h₆, h₇⟩⟩

/-! ## The entry of a frame -/

/-- The entry of a frame: its fields, the packets that have arrived in its bitmap, and their octets in its buffer. -/
structure Assembles (fs : Fin n → SentFrame packetMtu) (arrived : List (Fin n × Nat)) (j : Fin n) (e : UsbReassembly) :
    Prop where
  source : e.source = (fs j).source
  frameId : e.frameId = (fs j).frameId
  destination : e.destination = (fs j).destination
  totalLength : e.totalLength = (fs j).frame.length
  count : e.count = (fs j).packets.length
  data_length : e.data.length = (fs j).frame.length
  received : ∀ k, k < 32 → (e.received.getLsbD k = true ↔ (j, k) ∈ arrived)
  copied : ∀ k, (j, k) ∈ arrived → ∀ p, k * usbPayloadMtu packetMtu ≤ p →
    p < k * usbPayloadMtu packetMtu + usbPayloadMtu packetMtu → e.data[p]? = (fs j).frame[p]?

variable {fs : Fin n → SentFrame packetMtu} {arrived : List (Fin n × Nat)} {j : Fin n} {e : UsbReassembly}

abbrev segmentOf (fs : Fin n → SentFrame packetMtu) (j : Fin n) (k : Nat) : RadioSegment :=
  usbSegment (usbPayloadMtu packetMtu) (fs j).packets.length (fs j).frameId (fs j).frame k

theorem segmentOf_payload_getElem? (k : Nat) {p : Nat} (hlow : k * usbPayloadMtu packetMtu ≤ p)
    (hhigh : p < k * usbPayloadMtu packetMtu + usbPayloadMtu packetMtu) (hp : p < (fs j).frame.length) :
    (segmentOf fs j k).payload[p - k * usbPayloadMtu packetMtu]? = (fs j).frame[p]? := by
  show (((fs j).frame.drop (k * usbPayloadMtu packetMtu)).take _)[_]? = _
  rw [List.getElem?_take_of_lt (by omega), List.getElem?_drop]
  congr 1
  omega

theorem Assembles.other (h : Assembles fs arrived j e) {j' : Fin n} (hj : j ≠ j') (k : Nat) :
    Assembles fs (arrived ++ [(j', k)]) j e := by
  have hmem : ∀ k', (j, k') ∈ arrived ++ [(j', k)] ↔ (j, k') ∈ arrived := by simp [hj]
  exact { h with
    received := fun k' hk' => (h.received k' hk').trans (hmem k').symm
    copied := fun k' hk' => h.copied k' ((hmem k').mp hk') }

theorem Assembles.opened {hz : UInt64} {memory : Nat → UInt8} {packet : RadioReceive}
    (hcut : (fs j).Cut (usbPayloadMtu packetMtu)) (hsource : packet.source = (fs j).source)
    (hdestination : packet.destination = (fs j).destination) (hnone : ∀ k, (j, k) ∉ arrived) :
    Assembles fs arrived j (usbReassemblyOpen hz jiffies memory packet (segmentOf fs j k)) where
  source := hsource
  frameId := rfl
  destination := hdestination
  totalLength := hcut.totalLength k
  count := hcut.count k
  data_length := by simpa [usbReassemblyOpen] using hcut.totalLength k
  received k' _ := by simp [usbReassemblyOpen, hnone k']
  copied k' hk' := absurd hk' (hnone k')

theorem Assembles.again (h : Assembles fs arrived j e) (hk : (j, k) ∈ arrived) :
    Assembles fs (arrived ++ [(j, k)]) j e := by
  have hmem : ∀ k', (j, k') ∈ arrived ++ [(j, k)] ↔ (j, k') ∈ arrived := by
    intro k'
    simp only [List.mem_append, List.mem_singleton, Prod.mk.injEq, true_and, or_iff_left_iff_imp]
    rintro rfl
    exact hk
  exact { h with
    received := fun k' hk' => (h.received k' hk').trans (hmem k').symm
    copied := fun k' hk' => h.copied k' ((hmem k').mp hk') }

theorem Assembles.store (h : Assembles fs arrived j e) (hcut : (fs j).Cut (usbPayloadMtu packetMtu))
    (hk : k < (fs j).packets.length) :
    Assembles fs (arrived ++ [(j, k)]) j (e.store (k * usbPayloadMtu packetMtu) (segmentOf fs j k)) := by
  have hbegin := hcut.begins k hk
  have hlength : (segmentOf fs j k).payload.length =
      min ((fs j).frame.length - k * usbPayloadMtu packetMtu) (usbPayloadMtu packetMtu) := usbSegment_payload_length k
  have hfits : k * usbPayloadMtu packetMtu + (segmentOf fs j k).payload.length ≤ e.data.length := by
    rw [h.data_length, hlength]
    omega
  have hmem : ∀ k', (j, k') ∈ arrived ++ [(j, k)] ↔ (j, k') ∈ arrived ∨ k' = k := by simp
  refine { h with data_length := (length_splice hfits).trans h.data_length, received := fun k' hk' => ?_, copied := ?_ }
  · show (e.received ||| (1#32 <<< (segmentOf fs j k).index.toNat)).getLsbD k' = true ↔ _
    have hbit : k < 32 := Nat.lt_of_lt_of_le hk hcut.count_le
    rw [hcut.index hk, BitVec.getLsbD_or, getLsbD_oneBit hbit, Bool.or_eq_true, decide_eq_true_eq, hmem,
      h.received k' hk']
  · intro k' hk' p hlow hhigh
    show (splice e.data (k * usbPayloadMtu packetMtu) (segmentOf fs j k).payload)[p]? = _
    rw [getElem?_splice hfits, hlength]
    split_ifs with hin
    · exact segmentOf_payload_getElem? k hin.1 (by omega) (by omega)
    rcases (hmem k').mp hk' with hold | rfl
    · exact h.copied k' hold p hlow hhigh
    · -- the range of the last segment goes past the end of the frame
      rw [List.getElem?_eq_none (by rw [h.data_length]; omega), List.getElem?_eq_none (by omega)]

theorem Assembles.data_eq (h : Assembles fs arrived j e) (hcut : (fs j).Cut (usbPayloadMtu packetMtu))
    (hall : AllArrived fs arrived j) : e.data = (fs j).frame := by
  refine List.ext_getElem? fun p => ?_
  by_cases hp : p < (fs j).frame.length
  · have hreach := hcut.reaches
    have hk : p / usbPayloadMtu packetMtu < (fs j).packets.length :=
      (Nat.div_lt_iff_lt_mul hcut.mtu_pos).mpr (by omega)
    exact h.copied _ (hall _ hk) p (Nat.div_mul_le_self p _) (Nat.lt_div_mul_add hcut.mtu_pos)
  · rw [List.getElem?_eq_none (by rw [h.data_length]; omega), List.getElem?_eq_none (by omega)]

theorem Assembles.full_iff (h : Assembles fs arrived j e) (hcut : (fs j).Cut (usbPayloadMtu packetMtu))
    (hindex : ∀ k, (j, k) ∈ arrived → k < (fs j).packets.length) :
    e.received = segmentMask (fs j).packets.length ↔ AllArrived fs arrived j := by
  have hcount := hcut.count_le
  constructor
  · intro hfull k hk
    rw [← h.received k (by omega), hfull, getLsbD_segmentMask hcount]
    exact decide_eq_true hk
  intro hall
  refine BitVec.eq_of_getLsbD_eq fun k hk => ?_
  rw [getLsbD_segmentMask hcount, Bool.eq_iff_iff, h.received k hk, decide_eq_true_eq]
  exact ⟨hindex k, hall k⟩

theorem usbReassemblyPut_assembles (h : Assembles fs arrived j e) (hcut : (fs j).Cut (usbPayloadMtu packetMtu))
    (hindex : ∀ k, (j, k) ∈ arrived → k < (fs j).packets.length) (hincomplete : ¬ AllArrived fs arrived j)
    (hk : k < (fs j).packets.length) (t : Table USB_REASSEMBLY_LIMIT UsbReassembly) (i : Fin USB_REASSEMBLY_LIMIT)
    (packet : RadioReceive) (ambient : UsbAmbient) :
    (AllArrived fs (arrived ++ [(j, k)]) j ∧ ∃ f, f.frame = (fs j).frame ∧
      usbReassemblyPut t i e (usbPayloadMtu packetMtu) packet (segmentOf fs j k) ambient =
        (t.clear i, some f, ambient.result)) ∨
    (¬ AllArrived fs (arrived ++ [(j, k)]) j ∧ ∃ e' r, Assembles fs (arrived ++ [(j, k)]) j e' ∧
      usbReassemblyPut t i e (usbPayloadMtu packetMtu) packet (segmentOf fs j k) ambient = (t.set i e', none, r)) := by
  have hbegin := hcut.begins k hk
  have hlength : (segmentOf fs j k).payload.length =
      min ((fs j).frame.length - k * usbPayloadMtu packetMtu) (usbPayloadMtu packetMtu) := usbSegment_payload_length k
  have hbit : k < 32 := Nat.lt_of_lt_of_le hk hcut.count_le
  have hnext : ∀ k', (j, k') ∈ arrived ++ [(j, k)] → k' < (fs j).packets.length := by
    intro k' hk'
    rcases List.mem_append.mp hk' with hold | hnew
    · exact hindex k' hold
    · obtain ⟨-, rfl⟩ := Prod.mk.inj (List.mem_singleton.mp hnew)
      exact hk
  unfold usbReassemblyPut
  dsimp only
  rw [hcut.index hk, h.totalLength, if_neg (by omega)]
  by_cases hseen : e.received.getLsbD k = true
  · -- a packet that has come before is the same one
    have harrived := (h.received k hbit).mp hseen
    have hsame : (e.data.drop (k * usbPayloadMtu packetMtu)).take (segmentOf fs j k).payload.length =
        (segmentOf fs j k).payload := by
      refine List.ext_getElem? fun q => ?_
      by_cases hq : q < (segmentOf fs j k).payload.length
      · have hpayload : (segmentOf fs j k).payload[k * usbPayloadMtu packetMtu + q - k * usbPayloadMtu packetMtu]? =
            (fs j).frame[k * usbPayloadMtu packetMtu + q]? :=
          segmentOf_payload_getElem? k (by omega) (by omega) (by omega)
        rw [Nat.add_sub_cancel_left] at hpayload
        rw [List.getElem?_take_of_lt hq, List.getElem?_drop, hpayload]
        exact h.copied k harrived _ (by omega) (by omega)
      · rw [List.getElem?_eq_none (by rw [List.length_take]; omega), List.getElem?_eq_none (by omega)]
    rw [if_pos hseen, if_pos hsame]
    refine .inr ⟨fun hall => hincomplete fun k' hk' => ?_, e, _, h.again harrived, rfl⟩
    rcases List.mem_append.mp (hall k' hk') with hold | hnew
    · exact hold
    · obtain ⟨-, rfl⟩ := Prod.mk.inj (List.mem_singleton.mp hnew)
      exact harrived
  · rw [if_neg hseen]
    have hstored := h.store hcut hk
    have hfull := hstored.full_iff hcut hnext
    rw [hcut.count k]
    by_cases hall : AllArrived fs (arrived ++ [(j, k)]) j
    · rw [if_neg (not_not.mpr (hfull.mpr hall))]
      exact .inl ⟨hall, _, hstored.data_eq hcut hall, rfl⟩
    · rw [if_pos (mt hfull.mp hall)]
      exact .inr ⟨hall, _, _, hstored, rfl⟩

/-! ## The table -/

def UsbReassembly.key (e : UsbReassembly) : UInt32 × UInt32 := (e.source, e.frameId)

/-- The receiver beside the packets that have arrived: the entries of its table are those of the frames under way, one
for each, and every frame that is complete has been handed over once. -/
structure Assembling (fs : Fin n → SentFrame packetMtu) (s : Reception n) : Prop where
  mtu : s.receiver.packetMtu = packetMtu
  indices : ∀ j k, (j, k) ∈ s.arrived → k < (fs j).packets.length
  entries : ∀ i e, s.receiver.reassemblies i = some e → ∃ j, UnderWay fs s.arrived j ∧ Assembles fs s.arrived j e
  slots : ∀ j, UnderWay fs s.arrived j → ∃ i e, s.receiver.reassemblies i = some e ∧ Assembles fs s.arrived j e
  keyed : s.receiver.reassemblies.Keyed UsbReassembly.key
  apart : ∀ j j', UnderWay fs s.arrived j → UnderWay fs s.arrived j' → (fs j).key = (fs j').key → j = j'
  handed : ∀ j, s.handed.filter (·.1 = j) = if AllArrived fs s.arrived j then [(j, (fs j).frame)] else []

/-- The slot of a frame's entry, or the one it is to get; the other slots are those of the other frames. -/
structure SlotOf (fs : Fin n → SentFrame packetMtu) (s : Reception n) (j : Fin n) (i : Fin USB_REASSEMBLY_LIMIT) :
    Prop where
  held : ∀ e, s.receiver.reassemblies i = some e → Assembles fs s.arrived j e
  free : s.receiver.reassemblies i = none → ∀ k, (j, k) ∉ s.arrived
  entries : ∀ i' e, i' ≠ i → s.receiver.reassemblies i' = some e →
    ∃ j', j' ≠ j ∧ UnderWay fs s.arrived j' ∧ Assembles fs s.arrived j' e
  slots : ∀ j', j' ≠ j → UnderWay fs s.arrived j' →
    ∃ i' e, i' ≠ i ∧ s.receiver.reassemblies i' = some e ∧ Assembles fs s.arrived j' e

variable {s : Reception n} {a : Arrival n}

theorem Assembles.key_eq (h : Assembles fs arrived j e) : e.key = (fs j).key := Prod.ext h.source h.frameId

theorem Assembles.is_iff (h : Assembles fs arrived j e) (f : SentFrame packetMtu) :
    e.is f.source f.frameId = true ↔ (fs j).key = f.key := by
  rw [← h.key_eq]
  simp [UsbReassembly.is, UsbReassembly.key, SentFrame.key]

theorem Assembling.free (h : Assembling fs s) (ha : Admissible fs s a) (hnew : ¬ UnderWay fs s.arrived a.frame) :
    ∃ i, s.receiver.reassemblies.free? = some i := by
  cases hfree : s.receiver.reassemblies.free? with
  | some i => exact ⟨i, rfl⟩
  | none =>
    exfalso
    -- otherwise the eight slots belong to eight frames, none of them the new one
    have howner : ∀ i, ∃ j, UnderWay fs s.arrived j ∧
        ∃ e, s.receiver.reassemblies i = some e ∧ Assembles fs s.arrived j e := by
      intro i
      obtain ⟨e, he⟩ := Table.free?_none hfree i
      obtain ⟨j, hj, hassembles⟩ := h.entries i e he
      exact ⟨j, hj, e, he, hassembles⟩
    choose owner hunder hentry using howner
    have hinjective : Function.Injective owner := by
      intro i i' howner
      obtain ⟨e, he, hassembles⟩ := hentry i
      obtain ⟨e', he', hassembles'⟩ := hentry i'
      exact h.keyed i i' e e' he he' (by rw [hassembles.key_eq, hassembles'.key_eq, howner])
    have hsub : insert a.frame (Finset.univ.image owner) ⊆
        Finset.univ.filter fun j => j = a.frame ∨ UnderWay fs s.arrived j := by
      intro j hj
      rw [Finset.mem_insert, Finset.mem_image] at hj
      rw [Finset.mem_filter]
      refine ⟨Finset.mem_univ j, hj.imp id ?_⟩
      rintro ⟨i, -, rfl⟩
      exact hunder i
    have hcard := (Finset.card_le_card hsub).trans ha.concurrent
    rw [Finset.card_insert_of_notMem, Finset.card_image_of_injective _ hinjective, Finset.card_univ,
      Fintype.card_fin] at hcard
    · omega
    · rw [Finset.mem_image]
      rintro ⟨i, -, hi⟩
      exact hnew (hi ▸ hunder i)

theorem Assembling.slot (h : Assembling fs s) (ha : Admissible fs s a) :
    ∃ i, usbReassemblyFind a.ambient.jiffies (fs a.frame).source (fs a.frame).frameId s.receiver.reassemblies =
      (s.receiver.reassemblies, some i) ∧ SlotOf fs s a.frame i := by
  rw [usbReassemblyFind_fresh ha.fresh]
  by_cases hunder : UnderWay fs s.arrived a.frame
  · obtain ⟨i, e, he, hassembles⟩ := h.slots a.frame hunder
    have hfind : s.receiver.reassemblies.find? (·.is (fs a.frame).source (fs a.frame).frameId) = some i := by
      refine Table.find?_eq_some_of_unique he ((hassembles.is_iff _).mpr rfl) fun i' e' he' his => ?_
      obtain ⟨j', -, hassembles'⟩ := h.entries i' e' he'
      exact h.keyed i' i e' e he' he (by rw [hassembles'.key_eq, hassembles.key_eq, (hassembles'.is_iff _).mp his])
    rw [hfind]
    refine ⟨i, rfl,
      ⟨fun e' he' => ?_, fun hnone => (nomatch he.symm.trans hnone), fun i' e' hne he' => ?_, fun j' hne hj' => ?_⟩⟩
    · exact Option.some.inj (he.symm.trans he') ▸ hassembles
    · obtain ⟨j', hj', hassembles'⟩ := h.entries i' e' he'
      refine ⟨j', fun hj => hne (h.keyed i' i e' e he' he ?_), hj', hassembles'⟩
      rw [hassembles'.key_eq, hassembles.key_eq, hj]
    · obtain ⟨i', e', he', hassembles'⟩ := h.slots j' hj'
      refine ⟨i', e', fun hi => hne (h.apart j' a.frame hj' hunder ?_), he', hassembles'⟩
      subst hi
      rw [← hassembles'.key_eq, ← hassembles.key_eq, Option.some.inj (he.symm.trans he')]
  · have hfind : s.receiver.reassemblies.find? (·.is (fs a.frame).source (fs a.frame).frameId) = none := by
      refine Table.find?_eq_none_iff.mpr fun i' e' he' => ?_
      obtain ⟨j', hj', hassembles'⟩ := h.entries i' e' he'
      rw [Bool.eq_false_iff, Ne, hassembles'.is_iff]
      refine ha.distinct j' (fun hj => hunder (hj ▸ hj')) hj'
    obtain ⟨i, hfree⟩ := h.free ha hunder
    rw [hfind, hfree]
    have hnone := Table.free?_some hfree
    refine ⟨i, rfl,
      ⟨fun e he => (nomatch hnone.symm.trans he), fun _ k hk => ?_, fun i' e' _ he' => ?_, fun j' _ hj' => ?_⟩⟩
    · exact hunder ⟨List.mem_map.mpr ⟨_, hk, rfl⟩, ha.incomplete⟩
    · obtain ⟨j', hj', hassembles'⟩ := h.entries i' e' he'
      exact ⟨j', fun hj => hunder (hj ▸ hj'), hj', hassembles'⟩
    obtain ⟨i', e', he', hassembles'⟩ := h.slots j' hj'
    refine ⟨i', e', fun hi => ?_, he', hassembles'⟩
    subst hi
    exact nomatch hnone.symm.trans he'

theorem allArrived_other {j' : Fin n} (hj : j ≠ j') (k : Nat) :
    AllArrived fs (arrived ++ [(j', k)]) j ↔ AllArrived fs arrived j := by
  simp [AllArrived, hj]

theorem underWay_other {j' : Fin n} (hj : j ≠ j') (k : Nat) :
    UnderWay fs (arrived ++ [(j', k)]) j ↔ UnderWay fs arrived j := by
  rw [UnderWay, UnderWay, allArrived_other hj]
  simp [hj]

theorem underWay_self (k : Nat) :
    UnderWay fs (arrived ++ [(j, k)]) j ↔ ¬ AllArrived fs (arrived ++ [(j, k)]) j := by
  simp [UnderWay]

theorem Assembling.next (h : Assembling fs s) (ha : Admissible fs s a) {i : Fin USB_REASSEMBLY_LIMIT}
    (hslot : SlotOf fs s a.frame i) (hothers : ∀ i', i' ≠ i → t i' = s.receiver.reassemblies i')
    (hentry : (AllArrived fs (s.arrived ++ [(a.frame, a.index)]) a.frame ∧ t i = none) ∨
      (¬ AllArrived fs (s.arrived ++ [(a.frame, a.index)]) a.frame ∧
        ∃ e, t i = some e ∧ Assembles fs (s.arrived ++ [(a.frame, a.index)]) a.frame e)) :
    Assembling fs
      { receiver := { s.receiver with reassemblies := t }
        arrived := s.arrived ++ [(a.frame, a.index)]
        handed := s.handed ++ if AllArrived fs (s.arrived ++ [(a.frame, a.index)]) a.frame then
          [(a.frame, (fs a.frame).frame)] else [] } := by
  have hheld : ∀ e, t i = some e → ¬ AllArrived fs (s.arrived ++ [(a.frame, a.index)]) a.frame ∧
      Assembles fs (s.arrived ++ [(a.frame, a.index)]) a.frame e := by
    intro e he
    rcases hentry with ⟨-, hnone⟩ | ⟨hmissing, e', he', hassembles⟩
    · exact nomatch hnone.symm.trans he
    · exact ⟨hmissing, Option.some.inj (he'.symm.trans he) ▸ hassembles⟩
  have hdistinct : ∀ j, UnderWay fs (s.arrived ++ [(a.frame, a.index)]) j → (fs j).key = (fs a.frame).key →
    j = a.frame := by
    intro j hj hkey
    by_contra hne
    exact ha.distinct j hne ((underWay_other hne _).mp hj) hkey
  refine ⟨h.mtu, fun j k hk => ?_, fun i' e he => ?_, fun j hj => ?_, fun i' i'' e e' he he' hkey => ?_,
    fun j j' hj hj' hkey => ?_, fun j => ?_⟩
  · rcases List.mem_append.mp hk with hold | hnew
    · exact h.indices j k hold
    · obtain ⟨rfl, rfl⟩ := Prod.mk.inj (List.mem_singleton.mp hnew)
      exact ha.index_lt
  · by_cases hi : i' = i
    · subst hi
      obtain ⟨hmissing, hassembles⟩ := hheld e he
      exact ⟨a.frame, (underWay_self _).mpr hmissing, hassembles⟩
    · obtain ⟨j, hne, hj, hassembles⟩ := hslot.entries i' e hi ((hothers i' hi).symm.trans he)
      exact ⟨j, (underWay_other hne _).mpr hj, hassembles.other hne _⟩
  · by_cases hne : j = a.frame
    · subst hne
      rcases hentry with ⟨hall, -⟩ | ⟨-, e, he, hassembles⟩
      · exact absurd hall hj.2
      · exact ⟨i, e, he, hassembles⟩
    · obtain ⟨i', e, hi, he, hassembles⟩ := hslot.slots j hne ((underWay_other hne _).mp hj)
      exact ⟨i', e, (hothers i' hi).trans he, hassembles.other hne _⟩
  · -- an entry in another slot is of another frame, and so has another key
    have hkeys : ∀ i' e e', i' ≠ i → t i' = some e → t i = some e' → e.key ≠ e'.key := by
      intro i' e e' hi he he' hkey
      obtain ⟨j, hne, hj, hassembles⟩ := hslot.entries i' e hi ((hothers i' hi).symm.trans he)
      rw [hassembles.key_eq, (hheld e' he').2.key_eq] at hkey
      exact ha.distinct j hne hj hkey
    by_cases hi : i' = i <;> by_cases hi' : i'' = i
    · rw [hi, hi']
    · subst hi
      exact absurd hkey.symm (hkeys i'' e' e hi' he' he)
    · subst hi'
      exact absurd hkey (hkeys i' e e' hi he he')
    · exact h.keyed i' i'' e e' ((hothers i' hi).symm.trans he) ((hothers i'' hi').symm.trans he') hkey
  · by_cases hne : j = a.frame
    · subst hne
      exact (hdistinct j' hj' hkey.symm).symm
    · by_cases hne' : j' = a.frame
      · subst hne'
        exact hdistinct j hj hkey
      · exact h.apart j j' ((underWay_other hne _).mp hj) ((underWay_other hne' _).mp hj') hkey
  · rw [List.filter_append, h.handed j]
    by_cases hne : j = a.frame
    · subst hne
      rw [if_neg ha.incomplete]
      split_ifs <;> simp
    · simp only [allArrived_other hne]
      split_ifs <;> simp [Ne.symm hne]

theorem Assembling.step (hz : UInt64) (h : Assembling fs s) (ha : Admissible fs s a) :
    Assembling fs (receptionStep hz fs s a) ∧
    (receptionStep hz fs s a).handed = s.handed ++
      if AllArrived fs (s.arrived ++ [(a.frame, a.index)]) a.frame then [(a.frame, (fs a.frame).frame)] else [] := by
  have hcut := (fs a.frame).cut_spec
  obtain ⟨i, hfind, hslot⟩ := h.slot ha
  -- the entry the packet goes into, found or opened
  obtain ⟨e, hassembles, hadd⟩ : ∃ e, Assembles fs s.arrived a.frame e ∧
      usbReassemblyAdd hz s.receiver.reassemblies (usbPayloadMtu packetMtu) (a.packet fs) (segmentOf fs a.frame a.index)
        a.ambient = usbReassemblyPut s.receiver.reassemblies i e (usbPayloadMtu packetMtu) (a.packet fs)
          (segmentOf fs a.frame a.index) a.ambient := by
    have hlookup : usbReassemblyFind a.ambient.jiffies (a.packet fs).source (segmentOf fs a.frame a.index).frameId
        s.receiver.reassemblies = (s.receiver.reassemblies, some i) := hfind
    unfold usbReassemblyAdd
    rw [hlookup]
    cases hi : s.receiver.reassemblies i with
    | none =>
      obtain ⟨memory, hmemory⟩ := Option.isSome_iff_exists.mp ha.memory
      simp only [hi, hmemory]
      exact ⟨_, Assembles.opened hcut rfl rfl (hslot.free hi), rfl⟩
    | some e =>
      have hassembles := hslot.held e hi
      simp only [hi]
      rw [if_neg]
      · exact ⟨e, hassembles, rfl⟩
      · rw [hassembles.destination, hassembles.totalLength, hassembles.count, hcut.totalLength, hcut.count]
        simp [Arrival.packet]
  have hreceive : usbReceiveSegment hz s.receiver (a.packet fs) a.ambient =
      ({ s.receiver with
          reassemblies := (usbReassemblyPut s.receiver.reassemblies i e (usbPayloadMtu packetMtu) (a.packet fs)
            (segmentOf fs a.frame a.index) a.ambient).1 },
        (usbReassemblyPut s.receiver.reassemblies i e (usbPayloadMtu packetMtu) (a.packet fs)
          (segmentOf fs a.frame a.index) a.ambient).2) := by
    have hreads : radioSegmentDecode (a.packet fs).payload = .ok (segmentOf fs a.frame a.index) :=
      hcut.reads a.index ha.index_lt
    have hforus : ¬ ((a.packet fs).destination ≠ RADIO_LOCATOR_BROADCAST ∧
        (a.packet fs).destination ≠ s.receiver.localLocator) := by
      rintro ⟨hbroadcast, hlocal⟩
      exact ha.addressed.elim hbroadcast hlocal
    rw [usbReceiveSegment, hreads]
    dsimp only
    rw [if_neg hforus, h.mtu, if_neg hcut.mtu_pos.ne', hadd]
  unfold receptionStep
  rw [hreceive]
  rcases usbReassemblyPut_assembles hassembles hcut (h.indices a.frame) ha.incomplete ha.index_lt
    s.receiver.reassemblies i
    (a.packet fs) a.ambient with ⟨hall, f, hframe, hput⟩ | ⟨hmissing, e', r, hassembles', hput⟩
  · have hnext := h.next ha hslot (t := s.receiver.reassemblies.clear i) (fun i' hi => Table.clear_of_ne _ hi)
      (.inl ⟨hall, Table.clear_self _ i⟩)
    rw [hput]
    rw [if_pos hall] at hnext ⊢
    simp only [Option.map_some, Option.toList_some, hframe]
    exact ⟨hnext, trivial⟩
  · have hnext := h.next ha hslot (t := s.receiver.reassemblies.set i e') (fun i' hi => Table.set_of_ne _ _ hi)
      (.inr ⟨hmissing, e', Table.set_self _ i _, hassembles'⟩)
    rw [hput]
    rw [if_neg hmissing] at hnext ⊢
    exact ⟨hnext, rfl⟩

/-- Whatever the order in which the segments of up to eight frames arrive, each frame is handed over once, with the
octets that were sent. -/
theorem segments_round_trip (hz : UInt64) (fs : Fin n → SentFrame packetMtu) (d : UsbReceiver)
    (hmtu : d.packetMtu = packetMtu) (hempty : d.reassemblies = Table.empty) (arrivals : List (Arrival n))
    (harrivals : Along (receptionStep hz fs) (Admissible fs) { receiver := d } arrivals) :
    Along (receptionStep hz fs)
      (fun s a => (receptionStep hz fs s a).handed = s.handed ++
        if AllArrived fs (s.arrived ++ [(a.frame, a.index)]) a.frame then [(a.frame, (fs a.frame).frame)] else [])
      { receiver := d } arrivals ∧
    ∀ j, (run (receptionStep hz fs) { receiver := d } arrivals).handed.filter (·.1 = j) =
      if AllArrived fs (run (receptionStep hz fs) { receiver := d } arrivals).arrived j then [(j, (fs j).frame)]
      else [] := by
  have hstart : Assembling fs { receiver := d } := by
    have hnone : ∀ j, ¬ AllArrived fs [] j := fun j hall => absurd (hall 0 (fs j).cut_spec.count_pos) (by simp)
    refine ⟨hmtu,
      by simp, by simp [hempty], fun j hj => absurd hj.1 (by simp), ?_, fun j _ hj => absurd hj.1 (by simp), ?_⟩
    · rw [hempty]
      exact Table.keyed_empty _
    · intro j
      rw [if_neg (hnone j)]
      rfl
  refine ⟨?_, (run_induction _ (Assembling fs) (fun s a ha h => (h.step hz ha).1) hstart harrivals).handed⟩
  exact along_of_invariant _ (Assembling fs) (fun s a ha h => (h.step hz ha).1)
    (fun s a ha h => (h.step hz ha).2) hstart
    harrivals

end RoundTrip

def twoFrames : Fin 2 → SentFrame 14
  | 0 => ⟨3, 7, 1, [1, 2, 3], [put32 1 ++ put16 3 ++ put16 0 ++ put16 2 ++ put16 0 ++ [1, 2],
      put32 1 ++ put16 3 ++ put16 1 ++ put16 2 ++ put16 0 ++ [3]], by decide +kernel⟩
  | 1 => ⟨3, 7, 2, [4, 5], [put32 2 ++ put16 2 ++ put16 0 ++ put16 1 ++ put16 0 ++ [4, 5]], by decide +kernel⟩

theorem twoFrames_round_trip :
    (run (receptionStep 250 twoFrames) { receiver := { packetMtu := 14, localLocator := 7 } }
      [⟨0, 1, {}, 0, 0, 0⟩, ⟨0, 1, {}, 0, 0, 0⟩, ⟨1, 0, {}, 0, 0, 0⟩, ⟨0, 0, {}, 0, 0, 0⟩]).handed.filter (·.1 = 0) =
      [(0, [1, 2, 3])] :=
  ((segments_round_trip 250 twoFrames { packetMtu := 14, localLocator := 7 } rfl rfl
    [⟨0, 1, {}, 0, 0, 0⟩, ⟨0, 1, {}, 0, 0, 0⟩, ⟨1, 0, {}, 0, 0, 0⟩, ⟨0, 0, {}, 0, 0, 0⟩] (by decide +kernel)).2 0).trans
    (if_pos (by decide +kernel))

end Melodi
