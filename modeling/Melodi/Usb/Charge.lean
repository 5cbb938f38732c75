import Melodi.Proto.TimeOnAir
import Melodi.Usb.RoundTrip
import Melodi.Usb.Transmit

/-!
# What the USB radio charges for a frame (`melodi_usb_airtime`)

The charge is made before the frame is cut into packets: so many full ones, and one for the rest.

* `usb_airtime_charge` : it is the sum over the packets that `melodi_usb_xmit` writes, and the two accept the same
sizes.
-/

namespace Melodi
open Lib
variable {sf cr : UInt8} {bw : UInt16} {mtu c k : Nat} {frameId : UInt32} {frame : Octets}

/-- `melodi_usb_airtime`: the duration. The budgets, which depend on the region alone, are left out. -/
def usbAirtime (spreading : UInt8) (bandwidthKhz : UInt16) (codingRate : UInt8) (packetMtu length : Nat) :
    Except Errno Nat :=
  if packetMtu ≤ RADIO_SEGMENT_SIZE then .error .ENETDOWN
  else
    let mtu := packetMtu - RADIO_SEGMENT_SIZE
    let segments := (length + mtu - 1) / mtu
    if segments = 0 ∨ RADIO_SEGMENT_LIMIT < segments then .error .EMSGSIZE
    else do
      let packetUs ← radioAirtimeEstimate spreading bandwidthKhz codingRate packetMtu
      let remainder := length - (segments - 1) * mtu + RADIO_SEGMENT_SIZE
      let lastUs ← radioAirtimeEstimate spreading bandwidthKhz codingRate remainder
      .ok (packetUs.toNat * (segments - 1) + lastUs.toNat)

/-- The estimates for some packets, added up. -/
def packetsAirtime (spreading : UInt8) (bandwidthKhz : UInt16) (codingRate : UInt8) (packets : List Octets) :
    Except Errno Nat := do
  let durations ← packets.mapM fun packet => radioAirtimeEstimate spreading bandwidthKhz codingRate packet.length
  .ok (durations.map UInt32.toNat).sum

/-! ## Sizes -/

theorem usbPayloadMtu_eq (packetMtu : Nat) : usbPayloadMtu packetMtu = packetMtu - RADIO_SEGMENT_SIZE := by
  unfold usbPayloadMtu
  split_ifs <;> omega

/-- The size of a frame of `c + 1` packets. -/
structure UsbSized (mtu length c : Nat) : Prop where
  packet : mtu + RADIO_SEGMENT_SIZE ≤ RADIO_PACKET_MAX
  begins : c * mtu < length
  reaches : length ≤ c * mtu + mtu
  limit : c < RADIO_SEGMENT_LIMIT

theorem UsbSized.of_count (hmtu : 0 < mtu) (hpacket : mtu + RADIO_SEGMENT_SIZE ≤ RADIO_PACKET_MAX) {length : Nat}
    (hcount : (length + mtu - 1) / mtu = c + 1) (hlimit : c < RADIO_SEGMENT_LIMIT) : UsbSized mtu length c := by
  have hdivision := Nat.div_add_mod (length + mtu - 1) mtu
  have hremainder := Nat.mod_lt (length + mtu - 1) hmtu
  rw [hcount, Nat.mul_succ, Nat.mul_comm] at hdivision
  exact ⟨hpacket, by omega, by omega, hlimit⟩

theorem UsbSized.bound {length : Nat} (h : UsbSized mtu length c) : mtu ≤ 228 ∧ c * mtu ≤ 31 * 228 := by
  have hpacket := h.packet
  have hlimit := h.limit
  unfold RADIO_SEGMENT_SIZE RADIO_PACKET_MAX at hpacket
  unfold RADIO_SEGMENT_LIMIT at hlimit
  exact ⟨by omega, Nat.mul_le_mul (by omega) (by omega)⟩

theorem UsbSized.encodes (h : UsbSized mtu frame.length c) (hid : frameId ≠ 0) (hk : k ≤ c) :
    ∃ bs, radioSegmentEncode (usbSegment mtu (c + 1) frameId frame k) RADIO_PACKET_MAX = .ok bs ∧
      bs.length = if k = c then frame.length - c * mtu + RADIO_SEGMENT_SIZE else mtu + RADIO_SEGMENT_SIZE := by
  obtain ⟨hsmall, hbound⟩ := h.bound
  obtain ⟨-, hbegins, hreaches, hlimit⟩ := h
  unfold RADIO_SEGMENT_SIZE RADIO_PACKET_MAX
  unfold RADIO_SEGMENT_LIMIT at hlimit
  have hle : k * mtu ≤ c * mtu := Nat.mul_le_mul_right _ hk
  have hfull : k ≠ c → k * mtu + mtu ≤ c * mtu := by
    intro hne
    rw [← Nat.succ_mul]
    exact Nat.mul_le_mul_right _ (by omega)
  have hpayload : (usbSegment mtu (c + 1) frameId frame k).payload.length = min (frame.length - k * mtu) mtu := by
    simp only [usbSegment, List.length_take, List.length_drop]
    omega
  have hgood : (usbSegment mtu (c + 1) frameId frame k).malformed = false := by
    simp only [RadioSegment.malformed, usbSegment, Bool.or_eq_false_iff, decide_eq_false_iff_not, ← UInt16.toNat_inj,
      UInt16.le_iff_toNat_le, UInt16.toNat_ofNat', UInt16.toNat_zero, RADIO_SEGMENT_LIMIT, RADIO_FRAME_MAX,
      RADIO_PACKET_MAX, RADIO_SEGMENT_SIZE]
    exact ⟨⟨⟨⟨⟨decide_eq_false hid, by omega⟩, by omega⟩, by omega⟩, by omega⟩, by omega⟩
  rw [radioSegmentEncode, hgood, hpayload, if_neg, if_neg]
  · refine ⟨_, rfl, ?_⟩
    simp only [List.length_append, length_put32, length_put16, hpayload]
    split_ifs with hlast
    · subst hlast
      omega
    · have := hfull hlast
      omega
  · unfold RADIO_SEGMENT_SIZE
    omega
  · unfold RADIO_PACKET_MAX RADIO_SEGMENT_SIZE
    simp only [Bool.false_eq_true, false_or]
    omega

theorem mapM_of_ok {α β ε : Type} {f : α → Except ε β} {xs : List α} (h : ∀ x ∈ xs, ∃ y, f x = .ok y) :
    ∃ ys, xs.mapM f = .ok ys := by
  induction xs with
  | nil => exact ⟨[], rfl⟩
  | cons x xs ih =>
    obtain ⟨y, hy⟩ := h x List.mem_cons_self
    obtain ⟨ys, hys⟩ := ih fun z hz => h z (List.mem_cons_of_mem _ hz)
    exact ⟨y :: ys, by rw [List.mapM_cons, hy, hys]; rfl⟩

theorem UsbSized.packets (h : UsbSized mtu frame.length c) (hcount : (frame.length + mtu - 1) / mtu = c + 1)
    (hid : frameId ≠ 0) :
    ∃ packets, usbSegments (mtu + RADIO_SEGMENT_SIZE) frameId frame = .ok packets ∧ packets.map List.length =
      List.replicate c (mtu + RADIO_SEGMENT_SIZE) ++ [frame.length - c * mtu + RADIO_SEGMENT_SIZE] := by
  have hencodes : ∀ k ∈ List.range (c + 1), _ := fun k hk => h.encodes hid (Nat.le_of_lt_succ (List.mem_range.mp hk))
  obtain ⟨packets, hpackets⟩ := mapM_of_ok fun k hk => (hencodes k hk).imp fun _ h => h.1
  refine ⟨packets, ?_, ?_⟩
  · obtain ⟨hsmall, hbound⟩ := h.bound
    obtain ⟨-, hbegins, hreaches, hlimit⟩ := h
    rw [usbSegments, if_neg
      (by unfold RADIO_FRAME_MAX RADIO_PACKET_MAX RADIO_SEGMENT_SIZE RADIO_SEGMENT_LIMIT; omega), usbPayloadMtu_eq,
      Nat.add_sub_cancel, if_neg (by omega)]
    dsimp only
    rw [hcount, if_neg (by omega), hpackets]
  · obtain ⟨hlen, hreads⟩ := mapM_ok hpackets
    rw [List.length_range] at hlen
    refine List.ext_getElem? fun k => ?_
    rw [List.getElem?_map]
    by_cases hk : k < c + 1
    · obtain ⟨bs, hbs, hencode⟩ := hreads k k (List.getElem?_range hk)
      obtain ⟨bs', hencode', hsize⟩ := h.encodes hid (Nat.le_of_lt_succ hk)
      obtain rfl := Except.ok.inj (hencode.symm.trans hencode')
      rw [hbs, Option.map_some, hsize]
      split_ifs with hlast
      · subst hlast
        simp
      · rw [List.getElem?_append_left
          (by rw [List.length_replicate]; omega), List.getElem?_replicate, if_pos (by omega)]
    · rw [List.getElem?_eq_none (by omega), List.getElem?_eq_none (by simp; omega)]
      rfl

theorem usb_size_refused (sf : UInt8) (bw : UInt16) (cr : UInt8) (frameId : UInt32) {packetMtu : Nat}
    (h : ∀ mtu, packetMtu = mtu + RADIO_SEGMENT_SIZE →
      (frame.length + mtu - 1) / mtu = 0 ∨ RADIO_SEGMENT_LIMIT < (frame.length + mtu - 1) / mtu) :
    (∃ e, usbSegments packetMtu frameId frame = .error e) ∧ ∃ e, usbAirtime sf bw cr packetMtu frame.length =
    .error e := by
  rw [usbSegments, usbAirtime, usbPayloadMtu_eq]
  constructor
  · split_ifs with hlength hmtu
    · exact ⟨_, rfl⟩
    · exact ⟨_, rfl⟩
    · dsimp only
      rw [if_pos (h _ (by omega))]
      exact ⟨_, rfl⟩
  · split_ifs with hmtu
    · exact ⟨_, rfl⟩
    · dsimp only
      rw [if_pos (h _ (by omega))]
      exact ⟨_, rfl⟩

/-! ## Durations -/

theorem radioAirtimeEstimate_within {len len' : Nat} {d : UInt32} (h : radioAirtimeEstimate sf bw cr len = .ok d)
    (hlen : len' ≤ RADIO_PACKET_MAX) :
    radioAirtimeEstimate sf bw cr len' = .ok (UInt32.ofNat (airtimeUs sf.toNat bw.toNat cr.toNat len')) := by
  have hrange := radioAirtimeEstimate_ok h
  exact radioAirtimeEstimate_eq ⟨hrange.slow, hrange.fast, hrange.band, hrange.rate, hlen⟩

theorem packetsAirtime_ok {packets : List Octets} {d : Nat → UInt32}
    (h : ∀ p ∈ packets, radioAirtimeEstimate sf bw cr p.length = .ok (d p.length)) :
    packetsAirtime sf bw cr packets = .ok ((packets.map List.length).map fun len => (d len).toNat).sum := by
  have hmap : packets.mapM (fun p => radioAirtimeEstimate sf bw cr p.length) =
    .ok (packets.map fun p => d p.length) := by
    induction packets with
    | nil => rfl
    | cons p packets ih =>
      rw [List.mapM_cons, h p List.mem_cons_self, ih fun q hq => h q (List.mem_cons_of_mem _ hq)]
      rfl
  rw [packetsAirtime, hmap, List.map_map]
  show Except.ok _ = _
  rw [List.map_map]
  rfl

theorem radioDecodeInfo_packet {payload : Octets} {info : RadioInfo} (h : radioDecodeInfo payload = .ok info) :
    info.packetMtu.toNat ≤ RADIO_PACKET_MAX := by
  unfold radioDecodeInfo at h
  split_ifs at h
  simp only [bind, Except.bind] at h
  split at h
  · cases h
  split at h
  · cases h
  split_ifs at h with hbad
  cases h
  simp only [RadioInfo.malformed, Bool.or_eq_true, decide_eq_true_eq, not_or, Nat.not_lt] at hbad
  exact hbad.1.2

/-- **The charge is that of the packets.** Whatever the parameters of the radio, for every packet size that the radio
may report and every frame: `melodi_usb_airtime` yields a duration exactly if `melodi_usb_xmit` cuts the frame into
packets and they have estimates, and the duration is the sum of these; where there are estimates, the two accept the
same sizes. -/
theorem usb_airtime_charge (sf : UInt8) (bw : UInt16) (cr : UInt8) {payload : Octets} {info : RadioInfo}
    (hinfo : radioDecodeInfo payload = .ok info) (counter : UInt32) (frame : Octets) :
    (usbAirtime sf bw cr info.packetMtu.toNat frame.length).toOption =
      ((usbSegments info.packetMtu.toNat (usbNextId counter) frame).toOption.bind fun packets =>
        (packetsAirtime sf bw cr packets).toOption) ∧
    ((∃ d, radioAirtimeEstimate sf bw cr 0 = .ok d) →
      ((∃ d, usbAirtime sf bw cr info.packetMtu.toNat frame.length = .ok d) ↔
        ∃ packets, usbSegments info.packetMtu.toNat (usbNextId counter) frame = .ok packets)) := by
  have hid : usbNextId counter ≠ 0 := by
    unfold usbNextId
    split_ifs with hzero
    · decide
    · exact hzero
  have hpacket := radioDecodeInfo_packet hinfo
  generalize info.packetMtu.toNat = packetMtu at hpacket
  by_cases hsize : ∀ mtu, packetMtu = mtu + RADIO_SEGMENT_SIZE →
      (frame.length + mtu - 1) / mtu = 0 ∨ RADIO_SEGMENT_LIMIT < (frame.length + mtu - 1) / mtu
  · obtain ⟨⟨e, hsegments⟩, e', hairtime⟩ := usb_size_refused sf bw cr (usbNextId counter) hsize
    rw [hsegments, hairtime]
    exact ⟨rfl, fun _ => ⟨nofun, nofun⟩⟩
  · simp only [not_forall, not_or, Nat.not_lt] at hsize
    obtain ⟨mtu, rfl, hpos, hlimit⟩ := hsize
    have hmtu : 0 < mtu := Nat.pos_of_ne_zero fun hzero => hpos (by rw [hzero, Nat.div_zero])
    obtain ⟨c, hcount⟩ := Nat.exists_eq_succ_of_ne_zero hpos
    have hsized := UsbSized.of_count hmtu hpacket hcount (by omega)
    obtain ⟨packets, hpackets, hlengths⟩ := hsized.packets hcount hid
    have hle : ∀ p ∈ packets, p.length ≤ RADIO_PACKET_MAX := by
      intro p hp
      have hmem : p.length ∈ packets.map List.length := List.mem_map_of_mem hp
      rw [hlengths, List.mem_append, List.mem_replicate, List.mem_singleton] at hmem
      have := hsized.reaches
      omega
    rw [hpackets, usbAirtime, if_neg (by omega)]
    dsimp only
    rw [Nat.add_sub_cancel, hcount, if_neg (by omega), Nat.succ_sub_one]
    by_cases hest : ∃ d, radioAirtimeEstimate sf bw cr (mtu + RADIO_SEGMENT_SIZE) = .ok d
    · obtain ⟨d, hd⟩ := hest
      have hlast : frame.length - c * mtu + RADIO_SEGMENT_SIZE ≤ RADIO_PACKET_MAX := by
        have := hsized.reaches
        omega
      have hsum :=
        packetsAirtime_ok (d := fun len => UInt32.ofNat (airtimeUs sf.toNat bw.toNat cr.toNat len)) fun p hp =>
        radioAirtimeEstimate_within hd (hle p hp)
      rw [radioAirtimeEstimate_within hd hpacket, radioAirtimeEstimate_within hd hlast]
      refine ⟨?_, fun _ => ⟨fun _ => ⟨packets, rfl⟩, fun _ => ⟨_, rfl⟩⟩⟩
      show some _ = (packetsAirtime sf bw cr packets).toOption
      rw [hsum, hlengths]
      simp [Except.toOption, Nat.mul_comm]
    · -- then no packet has one
      have hnone : ∀ {len d}, radioAirtimeEstimate sf bw cr len ≠ .ok d :=
        fun h => hest ⟨_, radioAirtimeEstimate_within h hpacket⟩
      refine ⟨?_, fun ⟨d, hd⟩ => absurd hd hnone⟩
      cases hfirst : radioAirtimeEstimate sf bw cr (mtu + RADIO_SEGMENT_SIZE) with
      | ok d => exact absurd hfirst hnone
      | error e =>
        show none = (packetsAirtime sf bw cr packets).toOption
        cases packets with
        | nil => simp at hlengths
        | cons p packets =>
          rw [packetsAirtime, List.mapM_cons]
          cases hp : radioAirtimeEstimate sf bw cr p.length with
          | ok d => exact absurd hp hnone
          | error e => rfl

theorem usb_airtime_charge_run : (usbAirtime 7 125 5 14 3).toOption =
    (usbSegments 14 (usbNextId 0) [1, 2, 3]).toOption.bind fun packets =>
    (packetsAirtime 7 125 5 packets).toOption := by
  obtain ⟨bs, hbs⟩ : ∃ bs, radioEncodeInfo ⟨[0x41], [0x42], 1, 14, 4⟩ 96 = .ok bs := ⟨_, rfl⟩
  have hinfo := radioDecodeInfo_encode (by decide +kernel) (by decide +kernel) hbs
  exact (usb_airtime_charge 7 125 5 hinfo 0 [1, 2, 3]).1

end Melodi
