import Melodi.Proto.Radio

/-!
# Typed messages between host and radio (`proto/radio.c`)

What the messages of the stream say: each type has a layout of its payload and a check of its fields, which the encoder
answers with `EINVAL` and the decoder with `EPROTO`.

* `radio_messages_round_trip` : every decoder reads what its encoder wrote.
-/

namespace Melodi
open Lib
variable {octets text : Octets} {capacity : Nat}

def RADIO_DOMAIN_SIZE : Nat := 32
def RADIO_VERSION_MAX : Nat := 31

def RADIO_T_CONFIGURE : UInt8 := 2
def RADIO_T_TRANSMIT : UInt8 := 3
def RADIO_T_INFO : UInt8 := 0x81
def RADIO_T_STATUS : UInt8 := 0x82
def RADIO_T_RECEIVE : UInt8 := 0x83
def RADIO_T_RESULT : UInt8 := 0x84

def RADIO_STATE_FAILED : UInt8 := 2
def RADIO_FAULT_INTERNAL : UInt8 := 7
def RADIO_RESULT_DUTY : UInt8 := 5

/-! ## Encoders and decoders -/

section
variable {α : Type}

def radioEncode (type : UInt8) (malformed : Bool) (payload : Octets) (capacity : Nat) : Except Errno Octets :=
  if malformed then .error .EINVAL else radioStreamEncode type payload capacity

def radioDecodeFixed (layout : Layout α) (malformed : α → Bool) (input : Octets) : Except Errno α :=
  if input.length ≠ layout.size then .error .EINVAL
  else if malformed (layout.get input) then .error .EPROTO
  else .ok (layout.get input)

def radioDecodePacket (layout : Layout (α × UInt16)) (malformed : α → Bool) (input : Octets) :
    Except Errno (α × Octets) :=
  let (fields, length) := layout.get input
  if input.length < layout.size then .error .EINVAL
  else if malformed fields ∨ length = 0 ∨ RADIO_PACKET_MAX < length.toNat ∨
      input.length ≠ layout.size + length.toNat then
    .error .EPROTO
  else .ok (fields, input.drop layout.size)

def packetMalformed (packet : Octets) : Bool := packet.length = 0 || RADIO_PACKET_MAX < packet.length

theorem radioEncode_ok {type : UInt8} {malformed : Bool} {payload : Octets}
    (h : radioEncode type malformed payload capacity = .ok octets) :
    malformed = false ∧ octets.drop RADIO_HEADER_SIZE = payload := by
  unfold radioEncode at h
  split_ifs at h with hgood
  obtain ⟨-, rfl⟩ := radioStreamEncode_ok h
  exact ⟨eq_false_of_ne_true hgood, rfl⟩

theorem radioDecodeFixed_put {layout : Layout α} {malformed : α → Bool} {a : α} (hfits : layout.Fits a)
    (h : malformed a = false) : radioDecodeFixed layout malformed (layout.put a) = .ok a := by
  have hget : layout.get (layout.put a) = a := by simpa using layout.get_put a [] hfits
  rw [radioDecodeFixed, hget, if_neg (by rw [layout.length_put a hfits]; simp), if_neg (by simp [h])]

theorem radioDecodePacket_put {layout : Layout (α × UInt16)} {malformed : α → Bool} {a : α} {packet : Octets}
    (hfits : layout.Fits (a, UInt16.ofNat packet.length)) (h : (malformed a || packetMalformed packet) = false) :
    radioDecodePacket layout malformed (layout.put (a, UInt16.ofNat packet.length) ++ packet) = .ok (a, packet) := by
  obtain ⟨ha, hpacket⟩ := Bool.or_eq_false_iff.mp h
  simp only [packetMalformed, Bool.or_eq_false_iff, decide_eq_false_iff_not] at hpacket
  unfold RADIO_PACKET_MAX at hpacket
  have hsize : (UInt16.ofNat packet.length).toNat = packet.length := by
    rw [UInt16.toNat_ofNat']
    omega
  have hput := layout.length_put _ hfits
  have hzero : UInt16.ofNat packet.length ≠ 0 := fun h0 => hpacket.1 (hsize.symm.trans (congrArg UInt16.toNat h0))
  simp only [radioDecodePacket, layout.get_put _ _ hfits, hsize, List.length_append, hput, ha, RADIO_PACKET_MAX]
  rw [if_neg (by omega), if_neg (by simp [hzero]; omega), List.drop_left' hput]

end

def layoutS16 : Layout Int16 :=
  Layout.u16.map UInt16.toInt16 Int16.toUInt16 Int16.toInt16_toUInt16 UInt16.toUInt16_toInt16

/-! ## Configure, status and result -/

structure RadioConfigure where
  domain : Octets
  locator : UInt32
  frequencyHz : UInt32
  bandwidthKhz : UInt16
  spreadingFactor : UInt8
  codingRate : UInt8
  transmitPowerDbm : Int16
  dutyPermille : UInt16
  deriving DecidableEq

def configureLayout : Layout RadioConfigure :=
  ((Layout.bytes RADIO_DOMAIN_SIZE).seq (Layout.u32.seq (Layout.u32.seq (Layout.u16.seq (Layout.u8.seq (Layout.u8.seq
    (layoutS16.seq Layout.u16))))))).map
    (fun (a, b, c, d, e, f, g, h) => ⟨a, b, c, d, e, f, g, h⟩)
    (fun c => (c.domain, c.locator, c.frequencyHz, c.bandwidthKhz, c.spreadingFactor, c.codingRate, c.transmitPowerDbm,
      c.dutyPermille))
    (fun _ => rfl) (fun _ => rfl)

def RadioConfigure.malformed (c : RadioConfigure) : Bool :=
  c.locator = 0 || c.locator = RADIO_LOCATOR_BROADCAST || c.frequencyHz = 0 || c.bandwidthKhz = 0 ||
    c.spreadingFactor < 6 || 12 < c.spreadingFactor || c.codingRate < 5 || 8 < c.codingRate || c.dutyPermille = 0 ||
    1000 < c.dutyPermille

def radioEncodeConfigure (config : RadioConfigure) (capacity : Nat) : Except Errno Octets :=
  radioEncode RADIO_T_CONFIGURE config.malformed (configureLayout.put config) capacity

def radioDecodeConfigure : Octets → Except Errno RadioConfigure :=
  radioDecodeFixed configureLayout RadioConfigure.malformed

structure RadioStatus where
  locator : UInt32
  queueFree : UInt16
  queueDepth : UInt16
  state : UInt8
  fault : UInt8
  modemStatus : UInt8
  deriving DecidableEq

def statusLayout : Layout RadioStatus :=
  (Layout.u32.seq (Layout.u16.seq (Layout.u16.seq (Layout.u8.seq (Layout.u8.seq Layout.u8))))).map
    (fun (a, b, c, d, e, f) => ⟨a, b, c, d, e, f⟩)
    (fun s => (s.locator, s.queueFree, s.queueDepth, s.state, s.fault, s.modemStatus)) (fun _ => rfl) (fun _ => rfl)

def RadioStatus.malformed (s : RadioStatus) : Bool :=
  RADIO_STATE_FAILED < s.state || RADIO_FAULT_INTERNAL < s.fault || s.queueDepth < s.queueFree

def radioEncodeStatus (status : RadioStatus) (capacity : Nat) : Except Errno Octets :=
  radioEncode RADIO_T_STATUS status.malformed (statusLayout.put status) capacity

def radioDecodeStatus : Octets → Except Errno RadioStatus := radioDecodeFixed statusLayout RadioStatus.malformed

structure RadioResultReport where
  cookie : UInt32
  durationUs : UInt32
  result : UInt8
  deriving DecidableEq

def resultLayout : Layout RadioResultReport :=
  (Layout.u32.seq (Layout.u32.seq (Layout.u8.pad 1))).map (fun (a, b, c) => ⟨a, b, c⟩)
    (fun r => (r.cookie, r.durationUs, r.result)) (fun _ => rfl) (fun _ => rfl)

def RadioResultReport.malformed (r : RadioResultReport) : Bool := r.cookie = 0 || RADIO_RESULT_DUTY < r.result

def radioEncodeResult (report : RadioResultReport) (capacity : Nat) : Except Errno Octets :=
  radioEncode RADIO_T_RESULT report.malformed (resultLayout.put report) capacity

def radioDecodeResult : Octets → Except Errno RadioResultReport :=
  radioDecodeFixed resultLayout RadioResultReport.malformed

/-! ## Info -/

def radioPutText (text : Octets) (capacity : Nat) : Octets :=
  let copied := (text.take (capacity - 1)).takeWhile (· ≠ 0)
  copied ++ List.replicate (capacity - copied.length) 0

def radioGetText : Nat → Octets → Except Errno Octets
  | n + 1, octet :: input =>
    if octet = 0 then .ok []
    else if octet < 0x20 ∨ 0x7e < octet then .error .EPROTO
    else (radioGetText n input).map (octet :: ·)
  | _, _ => .ok []

def Printable (text : Octets) : Prop := text.length ≤ RADIO_VERSION_MAX ∧ ∀ octet ∈ text, 0x20 ≤ octet ∧ octet ≤ 0x7e

instance (text : Octets) : Decidable (Printable text) := inferInstanceAs (Decidable (_ ∧ _))

theorem radioGetText_append {n : Nat} (hn : text.length ≤ n) (h : ∀ octet ∈ text, 0x20 ≤ octet ∧ octet ≤ 0x7e) :
    radioGetText n (text ++ List.replicate (n + 1 - text.length) 0) = .ok text := by
  induction text generalizing n with
  | nil => cases n <;> rfl
  | cons octet text ih =>
    obtain ⟨n, rfl⟩ : ∃ m, n = m + 1 := ⟨n - 1, by simp at hn; omega⟩
    obtain ⟨hlow, hhigh⟩ := h octet (by simp)
    have hzero : octet ≠ 0 := by
      rintro rfl
      exact absurd hlow (by decide)
    have hrest := ih (n := n) (by simpa using hn) fun o ho => h o (by simp [ho])
    rw [List.length_cons, Nat.add_sub_add_right, List.cons_append, radioGetText, if_neg hzero,
      if_neg (by simp [UInt8.not_lt, hlow, hhigh]), hrest]
    rfl

theorem radioGetText_put (h : Printable text) :
    radioGetText RADIO_VERSION_MAX (radioPutText text (RADIO_VERSION_MAX + 1)) = .ok text := by
  have hcopied : (text.take (RADIO_VERSION_MAX + 1 - 1)).takeWhile (· ≠ 0) = text := by
    rw [Nat.add_sub_cancel, List.take_of_length_le h.1]
    refine List.takeWhile_eq_self_iff.mpr fun octet ho => ?_
    have := (h.2 octet ho).1
    simp only [ne_eq, decide_eq_true_eq]
    rintro rfl
    exact absurd this (by decide)
  rw [radioPutText, hcopied]
  exact radioGetText_append h.1 h.2

theorem length_radioPutText (text : Octets) (n : Nat) : (radioPutText text (n + 1)).length = n + 1 := by
  have hcopied : ((text.take n).takeWhile (· ≠ 0)).length ≤ n :=
    (List.takeWhile_prefix _).length_le.trans (List.length_take_le _ _)
  simp only [radioPutText, Nat.add_sub_cancel, List.length_append, List.length_replicate]
  omega

structure RadioInfo where
  firmware : Octets
  hardware : Octets
  abiVersion : UInt32
  packetMtu : UInt16
  queueDepth : UInt16
  deriving DecidableEq

def infoLayout : Layout (UInt32 × UInt16 × UInt16 × Octets × Octets) :=
  Layout.u32.seq (Layout.u16.seq (Layout.u16.seq
    ((Layout.bytes (RADIO_VERSION_MAX + 1)).seq (Layout.bytes (RADIO_VERSION_MAX + 1)))))

def RadioInfo.malformed (i : RadioInfo) : Bool :=
  i.packetMtu = 0 || RADIO_PACKET_MAX < i.packetMtu.toNat || i.queueDepth = 0

def radioEncodeInfo (info : RadioInfo) (capacity : Nat) : Except Errno Octets :=
  radioEncode RADIO_T_INFO info.malformed (infoLayout.put (info.abiVersion, info.packetMtu, info.queueDepth,
    radioPutText info.firmware (RADIO_VERSION_MAX + 1), radioPutText info.hardware (RADIO_VERSION_MAX + 1))) capacity

def radioDecodeInfo (input : Octets) : Except Errno RadioInfo :=
  if input.length ≠ infoLayout.size then .error .EINVAL
  else do
    let (abiVersion, packetMtu, queueDepth, firmware, hardware) := infoLayout.get input
    let firmware ← radioGetText RADIO_VERSION_MAX firmware
    let hardware ← radioGetText RADIO_VERSION_MAX hardware
    let info : RadioInfo := { firmware, hardware, abiVersion, packetMtu, queueDepth }
    if info.malformed then .error .EPROTO else .ok info

theorem radioDecodeInfo_encode {info : RadioInfo} (hfirmware : Printable info.firmware)
    (hhardware : Printable info.hardware) (h : radioEncodeInfo info capacity = .ok octets) :
    radioDecodeInfo (octets.drop RADIO_HEADER_SIZE) = .ok info := by
  obtain ⟨hgood, hpayload⟩ := radioEncode_ok h
  have hfits : infoLayout.Fits (info.abiVersion, info.packetMtu, info.queueDepth,
      radioPutText info.firmware (RADIO_VERSION_MAX + 1), radioPutText info.hardware (RADIO_VERSION_MAX + 1)) :=
    ⟨trivial, trivial, trivial, length_radioPutText _ _, length_radioPutText _ _⟩
  have hget := infoLayout.get_put _ [] hfits
  rw [List.append_nil] at hget
  rw [hpayload, radioDecodeInfo, if_neg (by rw [infoLayout.length_put _ hfits]; simp), hget]
  simp only [radioGetText_put hfirmware, radioGetText_put hhardware]
  exact if_neg (by simp [hgood])

/-! ## Packets -/

structure RadioTransmit where
  cookie : UInt32
  destination : UInt32
  payload : Octets
  deriving DecidableEq

def transmitLayout : Layout ((UInt32 × UInt32) × UInt16) := (Layout.u32.seq Layout.u32).seq Layout.u16

def transmitMalformed (fields : UInt32 × UInt32) : Bool := fields.1 = 0 || fields.2 = 0

def radioEncodeTransmit (t : RadioTransmit) (capacity : Nat) : Except Errno Octets :=
  radioEncode RADIO_T_TRANSMIT (transmitMalformed (t.cookie, t.destination) || packetMalformed t.payload)
    (transmitLayout.put ((t.cookie, t.destination), UInt16.ofNat t.payload.length) ++ t.payload) capacity

def radioDecodeTransmit (input : Octets) : Except Errno RadioTransmit :=
  (radioDecodePacket transmitLayout transmitMalformed input).map fun ((cookie, destination), payload) =>
    { cookie, destination, payload }

structure RadioReceive where
  source : UInt32
  destination : UInt32
  rssi : Int16 := 0
  snr : Int16 := 0
  hops : UInt8 := 0
  payload : Octets
  deriving DecidableEq, Repr

def receiveLayout : Layout ((UInt32 × UInt32 × Int16 × Int16 × UInt8) × UInt16) :=
  (Layout.u32.seq (Layout.u32.seq (layoutS16.seq (layoutS16.seq (Layout.u8.pad 1))))).seq Layout.u16

def receiveMalformed (fields : UInt32 × UInt32 × Int16 × Int16 × UInt8) : Bool := fields.1 = 0 || fields.2.1 = 0

def radioEncodeReceive (r : RadioReceive) (capacity : Nat) : Except Errno Octets :=
  let fields := (r.source, r.destination, r.rssi, r.snr, r.hops)
  radioEncode RADIO_T_RECEIVE (receiveMalformed fields || packetMalformed r.payload)
    (receiveLayout.put (fields, UInt16.ofNat r.payload.length) ++ r.payload) capacity

def radioDecodeReceive (input : Octets) : Except Errno RadioReceive :=
  (radioDecodePacket receiveLayout receiveMalformed input).map fun ((source, destination, rssi, snr, hops), payload) =>
    { source, destination, rssi, snr, hops, payload }

/-! ## Round trips -/

/-- Every structure that an encoder accepts comes back from the decoder of its kind. -/
theorem radio_messages_round_trip (capacity : Nat) (octets : Octets) :
    (∀ c : RadioConfigure, c.domain.length = RADIO_DOMAIN_SIZE → radioEncodeConfigure c capacity = .ok octets →
      radioDecodeConfigure (octets.drop RADIO_HEADER_SIZE) = .ok c) ∧
    (∀ i : RadioInfo, Printable i.firmware → Printable i.hardware → radioEncodeInfo i capacity = .ok octets →
      radioDecodeInfo (octets.drop RADIO_HEADER_SIZE) = .ok i) ∧
    (∀ s, radioEncodeStatus s capacity = .ok octets → radioDecodeStatus (octets.drop RADIO_HEADER_SIZE) = .ok s) ∧
    (∀ t, radioEncodeTransmit t capacity = .ok octets → radioDecodeTransmit (octets.drop RADIO_HEADER_SIZE) = .ok t) ∧
    (∀ r, radioEncodeReceive r capacity = .ok octets → radioDecodeReceive (octets.drop RADIO_HEADER_SIZE) = .ok r) ∧
    (∀ r, radioEncodeResult r capacity = .ok octets → radioDecodeResult (octets.drop RADIO_HEADER_SIZE) = .ok r) ∧
    ∀ s, radioSegmentEncode s capacity = .ok octets → radioSegmentDecode octets = .ok s := by
  refine ⟨?configure, ?info, ?status, ?transmit, ?receive, ?result, fun s h => radioSegmentDecode_encode h⟩
  case configure =>
    intro c hdomain h
    obtain ⟨hgood, hpayload⟩ := radioEncode_ok h
    rw [hpayload]
    exact radioDecodeFixed_put ⟨hdomain, trivial, trivial, trivial, trivial, trivial, trivial, trivial⟩ hgood
  case info => exact fun i hfirmware hhardware h => radioDecodeInfo_encode hfirmware hhardware h
  case status =>
    intro s h
    obtain ⟨hgood, hpayload⟩ := radioEncode_ok h
    rw [hpayload]
    exact radioDecodeFixed_put ⟨trivial, trivial, trivial, trivial, trivial, trivial⟩ hgood
  case transmit =>
    intro t h
    obtain ⟨hgood, hpayload⟩ := radioEncode_ok h
    rw [hpayload, radioDecodeTransmit, radioDecodePacket_put (by exact ⟨⟨trivial, trivial⟩, trivial⟩) hgood]
    rfl
  case receive =>
    intro r h
    obtain ⟨hgood, hpayload⟩ := radioEncode_ok h
    rw [hpayload, radioDecodeReceive,
      radioDecodePacket_put (by exact ⟨⟨trivial, trivial, trivial, trivial, trivial⟩, trivial⟩) hgood]
    rfl
  case result =>
    intro r h
    obtain ⟨hgood, hpayload⟩ := radioEncode_ok h
    rw [hpayload]
    exact radioDecodeFixed_put ⟨trivial, trivial, trivial⟩ hgood

def quietRadio : RadioConfigure := ⟨List.replicate 32 1, 1, 868000000, 125, 7, 5, -4, 10⟩
def faintPacket : RadioReceive := ⟨1, 2, -120, -7, 3, [9]⟩

theorem radio_messages_round_trip_run :
    (∃ bs, radioEncodeConfigure quietRadio 64 = .ok bs ∧ radioDecodeConfigure (bs.drop RADIO_HEADER_SIZE) =
    .ok quietRadio) ∧ (∃ bs, radioEncodeInfo ⟨[0x41], [0x42], 1, 240, 4⟩ 96 = .ok bs ∧
      radioDecodeInfo (bs.drop RADIO_HEADER_SIZE) = .ok ⟨[0x41], [0x42], 1, 240, 4⟩) ∧
    (∃ bs, radioEncodeStatus ⟨1, 2, 4, 1, 0, 0⟩ 64 = .ok bs ∧
      radioDecodeStatus (bs.drop RADIO_HEADER_SIZE) = .ok ⟨1, 2, 4, 1, 0, 0⟩) ∧
    (∃ bs, radioEncodeTransmit ⟨1, 2, [9]⟩ 64 = .ok bs ∧ radioDecodeTransmit (bs.drop RADIO_HEADER_SIZE) =
    .ok ⟨1, 2, [9]⟩) ∧
    (∃ bs, radioEncodeReceive faintPacket 64 = .ok bs ∧ radioDecodeReceive (bs.drop RADIO_HEADER_SIZE) =
    .ok faintPacket) ∧
    (∃ bs, radioEncodeResult ⟨1, 5, 0⟩ 64 = .ok bs ∧ radioDecodeResult (bs.drop RADIO_HEADER_SIZE) = .ok ⟨1, 5, 0⟩) ∧
    ∃ bs, radioSegmentEncode ⟨1, 1, 0, 1, [9]⟩ 64 = .ok bs ∧ radioSegmentDecode bs = .ok ⟨1, 1, 0, 1, [9]⟩ :=
  ⟨⟨_, rfl, (radio_messages_round_trip 64 _).1 quietRadio rfl rfl⟩,
    ⟨_, rfl, (radio_messages_round_trip 96 _).2.1 ⟨[0x41], [0x42], 1, 240, 4⟩ (by decide +kernel)
      (by decide +kernel) rfl⟩,
    ⟨_, rfl, (radio_messages_round_trip 64 _).2.2.1 ⟨1, 2, 4, 1, 0, 0⟩ rfl⟩,
    ⟨_, rfl, (radio_messages_round_trip 64 _).2.2.2.1 ⟨1, 2, [9]⟩ rfl⟩,
    ⟨_, rfl, (radio_messages_round_trip 64 _).2.2.2.2.1 faintPacket rfl⟩,
    ⟨_, rfl, (radio_messages_round_trip 64 _).2.2.2.2.2.1 ⟨1, 5, 0⟩ rfl⟩,
    ⟨_, rfl, (radio_messages_round_trip 64 _).2.2.2.2.2.2 ⟨1, 1, 0, 1, [9]⟩ rfl⟩⟩

end Melodi
