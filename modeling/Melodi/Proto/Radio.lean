import Melodi.Lib.Layout
import Melodi.Lib.Run
import Melodi.Proto.Basic

/-!
# The host and radio stream (`proto/radio.c`)

Messages between host and radio are framed by a header of eight octets: two magic ones, version, type, length and a
checksum of the payload. The reader takes one octet at a time.

* `stream_round_trip` : the reader says exactly the messages that were written, each at its last octet.
-/

namespace Melodi
open Lib

def RADIO_MAGIC0 : UInt8 := 0x4d
def RADIO_MAGIC1 : UInt8 := 0x4c
def RADIO_VERSION : UInt8 := 2
def RADIO_HEADER_SIZE : Nat := 8
def RADIO_PAYLOAD_MAX : Nat := 512
def RADIO_PACKET_MAX : Nat := 240
def RADIO_SEGMENT_SIZE : Nat := 12
def RADIO_SEGMENT_LIMIT : Nat := 32
def RADIO_FRAME_MAX : Nat := (RADIO_PACKET_MAX - RADIO_SEGMENT_SIZE) * RADIO_SEGMENT_LIMIT
def RADIO_LOCATOR_BROADCAST : UInt32 := 0xffffffff

/-! ## Messages -/

structure RadioHeader where
  magic0 : UInt8 := 0
  magic1 : UInt8 := 0
  version : UInt8 := 0
  type : UInt8 := 0
  length : UInt16 := 0
  checksum : UInt16 := 0
  deriving DecidableEq, Repr

def foldCarries (sum : Nat) : Nat :=
  if sum < 2 ^ 16 then sum else foldCarries (sum % 2 ^ 16 + sum / 2 ^ 16)
termination_by sum
decreasing_by omega

def radioChecksum (data : Octets) : UInt16 :=
  ~~~UInt16.ofNat (foldCarries (data.foldl (fun sum octet => (sum + octet.toNat) % 2 ^ 32) 0))

def radioStreamEncode (type : UInt8) (payload : Octets) (capacity : Nat) : Except Errno Octets :=
  if RADIO_PAYLOAD_MAX < payload.length then .error .EINVAL
  else if capacity < RADIO_HEADER_SIZE + payload.length then .error .ENOSPC
  else
    .ok ([RADIO_MAGIC0, RADIO_MAGIC1, RADIO_VERSION, type] ++ put16 (UInt16.ofNat payload.length) ++
      put16 (radioChecksum payload) ++ payload)

/-! ## The reader -/

inductive RadioStreamState where
  | SCAN_MAGIC0
  | SCAN_MAGIC1
  | READ_HEADER
  | READ_PAYLOAD
  deriving DecidableEq, Repr

structure RadioStream where
  state : RadioStreamState := .SCAN_MAGIC0
  offset : Nat := 0
  expected : Nat := 0
  header : RadioHeader := {}
  buffer : Octets := List.replicate RADIO_PAYLOAD_MAX 0
  deriving DecidableEq, Repr

def radioStreamInit : RadioStream := {}

abbrev RadioReport := Except Errno (Option (RadioHeader × Octets))

def radioHeaderRead (buffer : Octets) : RadioHeader where
  magic0 := RADIO_MAGIC0
  magic1 := RADIO_MAGIC1
  version := buffer.getD 0 0
  type := buffer.getD 1 0
  length := get16 (buffer.drop 2)
  checksum := get16 (buffer.drop 4)

def radioStreamFeed (s : RadioStream) (octet : UInt8) : RadioStream × RadioReport :=
  match s.state with
  | .SCAN_MAGIC0 => (if octet = RADIO_MAGIC0 then { s with state := .SCAN_MAGIC1 } else s, .ok none)
  | .SCAN_MAGIC1 =>
    if octet = RADIO_MAGIC1 then ({ s with state := .READ_HEADER, offset := 0 }, .ok none)
    else if octet ≠ RADIO_MAGIC0 then ({ s with state := .SCAN_MAGIC0 }, .ok none)
    else (s, .ok none)
  | .READ_HEADER =>
    let s := { s with buffer := s.buffer.set s.offset octet, offset := s.offset + 1 }
    if s.offset < RADIO_HEADER_SIZE - 2 then (s, .ok none)
    else
      let s := { s with header := radioHeaderRead s.buffer, offset := 0 }
      if s.header.version ≠ RADIO_VERSION ∨ RADIO_PAYLOAD_MAX < s.header.length.toNat then
        ({ s with state := .SCAN_MAGIC0 }, .error .EPROTO)
      else
        let s := { s with expected := s.header.length.toNat }
        if s.expected = 0 then
          ({ s with state := .SCAN_MAGIC0 },
            if s.header.checksum ≠ radioChecksum [] then .error .EBADMSG else .ok (some (s.header, [])))
        else ({ s with state := .READ_PAYLOAD }, .ok none)
  | .READ_PAYLOAD =>
    let s := { s with buffer := s.buffer.set s.offset octet, offset := s.offset + 1 }
    if s.offset < s.expected then (s, .ok none)
    else
      ({ s with state := .SCAN_MAGIC0 },
        if s.header.checksum ≠ radioChecksum (s.buffer.take s.expected) then .error .EBADMSG
        else .ok (some (s.header, s.buffer.take s.expected)))

/-! ## A message goes by -/

def framedHeader (type : UInt8) (checksum : UInt16) (payload : Octets) : RadioHeader where
  magic0 := RADIO_MAGIC0
  magic1 := RADIO_MAGIC1
  version := RADIO_VERSION
  type := type
  length := UInt16.ofNat payload.length
  checksum := checksum

def framed (type : UInt8) (checksum : UInt16) (payload : Octets) : Octets :=
  [RADIO_MAGIC0, RADIO_MAGIC1, RADIO_VERSION, type] ++ put16 (UInt16.ofNat payload.length) ++ put16 checksum ++ payload

def verdict (h : RadioHeader) (payload : Octets) : RadioReport :=
  if h.checksum ≠ radioChecksum payload then .error .EBADMSG else .ok (some (h, payload))

structure RadioMessage where
  type : UInt8
  payload : Octets
  fits : payload.length ≤ RADIO_PAYLOAD_MAX

def RadioMessage.header (m : RadioMessage) : RadioHeader where
  magic0 := RADIO_MAGIC0
  magic1 := RADIO_MAGIC1
  version := RADIO_VERSION
  type := m.type
  length := UInt16.ofNat m.payload.length
  checksum := radioChecksum m.payload

def RadioMessage.octets (m : RadioMessage) : Octets :=
  [RADIO_MAGIC0, RADIO_MAGIC1, RADIO_VERSION, m.type] ++ put16 m.header.length ++ put16 m.header.checksum ++ m.payload

def RadioMessage.reports (m : RadioMessage) : List RadioReport :=
  List.replicate (RADIO_HEADER_SIZE + m.payload.length - 1) (.ok none) ++ [.ok (some (m.header, m.payload))]

def RadioStream.Scanning (s : RadioStream) : Prop := s.state = .SCAN_MAGIC0 ∧ s.buffer.length = RADIO_PAYLOAD_MAX

variable {capacity n : Nat} {s : RadioStream}

theorem radioStreamInit_scanning : radioStreamInit.Scanning := ⟨rfl, List.length_replicate⟩

theorem radioStreamEncode_ok {type : UInt8} {payload octets : Octets}
    (h : radioStreamEncode type payload capacity = .ok octets) :
    payload.length ≤ RADIO_PAYLOAD_MAX ∧ octets = framed type (radioChecksum payload) payload := by
  unfold radioStreamEncode at h
  split_ifs at h with hlong hsmall
  exact ⟨Nat.le_of_not_lt hlong, (Except.ok.inj h).symm⟩

theorem RadioMessage.encode (m : RadioMessage) (h : RADIO_HEADER_SIZE + m.payload.length ≤ capacity) :
    radioStreamEncode m.type m.payload capacity = .ok m.octets := by
  have hfits := m.fits
  rw [radioStreamEncode, if_neg (by omega), if_neg (by omega)]
  rfl

theorem take_set_self {buffer : Octets} (h : n < buffer.length) (octet : UInt8) :
    (buffer.set n octet).take (n + 1) = buffer.take n ++ [octet] := by
  rw [List.take_add_one, List.getElem?_set_self h, List.take_set_of_le (Nat.le_refl n)]
  rfl

theorem feed_payload {d rest : Octets} (hstate : s.state = .READ_PAYLOAD) (hrest : rest ≠ [])
    (hoffset : s.offset = d.length) (hexpected : s.expected = d.length + rest.length)
    (hsize : s.expected ≤ s.buffer.length) (hdone : s.buffer.take d.length = d) :
    ∃ s', trace radioStreamFeed s rest =
        (s', List.replicate (rest.length - 1) (.ok none) ++ [verdict s.header (d ++ rest)]) ∧
      s'.state = .SCAN_MAGIC0 ∧ s'.buffer.length = s.buffer.length := by
  induction rest generalizing s d with
  | nil => exact absurd rfl hrest
  | cons octet rest ih =>
    rw [List.length_cons] at hexpected
    have hput : (s.buffer.set s.offset octet).take (d.length + 1) = d ++ [octet] := by
      rw [hoffset, take_set_self (by omega), hdone]
    rw [trace_cons]
    cases rest with
    | nil =>
      -- the last octet completes the payload, and the checksum decides
      have hfeed : radioStreamFeed s octet =
          ({ s with buffer := s.buffer.set s.offset octet, offset := s.offset + 1, state := .SCAN_MAGIC0 },
            verdict s.header (d ++ [octet])) := by
        have hend : s.expected = d.length + 1 := hexpected
        simp only [radioStreamFeed, hstate]
        rw [if_neg (by omega), hend, hput]
        rfl
      rw [hfeed]
      exact ⟨_, rfl, rfl, List.length_set⟩
    | cons next rest =>
      have hfeed : radioStreamFeed s octet =
          ({ s with buffer := s.buffer.set s.offset octet, offset := s.offset + 1 }, .ok none) := by
        rw [List.length_cons] at hexpected
        simp only [radioStreamFeed, hstate]
        rw [if_pos (by omega)]
      rw [hfeed]
      have happend : d ++ octet :: next :: rest = (d ++ [octet]) ++ next :: rest := by simp
      obtain ⟨s', htrace, hscan, hlength⟩ := ih
        (s := { s with buffer := s.buffer.set s.offset octet, offset := s.offset + 1 }) (d := d ++ [octet])
        hstate (List.cons_ne_nil _ _) (by simp [hoffset]) (by simp [hexpected]; omega)
        (by simpa using hsize) (by simpa using hput)
      refine ⟨s', ?_, hscan, by simpa using hlength⟩
      rw [htrace, happend]
      simp [List.replicate_succ]

theorem feed_header (hs : s.Scanning) (v t l₁ l₀ c₁ : UInt8) :
    ∃ s' b rest, trace radioStreamFeed s [RADIO_MAGIC0, RADIO_MAGIC1, v, t, l₁, l₀, c₁] =
    (s', List.replicate 7 (.ok none)) ∧
      s'.state = .READ_HEADER ∧ s'.offset = 5 ∧ s'.buffer = v :: t :: l₁ :: l₀ :: c₁ :: b :: rest ∧
      s'.buffer.length = RADIO_PAYLOAD_MAX := by
  obtain ⟨hstate, hlength⟩ := hs
  obtain ⟨b₀, b₁, b₂, b₃, b₄, b₅, rest, hbuffer⟩ :
      ∃ b₀ b₁ b₂ b₃ b₄ b₅ rest, s.buffer = b₀ :: b₁ :: b₂ :: b₃ :: b₄ :: b₅ :: rest := by
    match hb : s.buffer, hlength with
    | b₀ :: b₁ :: b₂ :: b₃ :: b₄ :: b₅ :: rest, _ => exact ⟨b₀, b₁, b₂, b₃, b₄, b₅, rest, rfl⟩
  refine ⟨{ s with state := .READ_HEADER, offset := 5, buffer := v :: t :: l₁ :: l₀ :: c₁ :: b₅ :: rest }, b₅, rest, ?_,
    rfl, rfl, rfl, ?_⟩
  · simp [trace_cons, radioStreamFeed, hstate, hbuffer, RADIO_HEADER_SIZE]
  · rw [hbuffer] at hlength
    exact hlength

section
variable (type : UInt8) (checksum : UInt16) (payload : Octets)

theorem framed_eq : framed type checksum payload =
    [RADIO_MAGIC0, RADIO_MAGIC1, RADIO_VERSION, type, octet (UInt16.ofNat payload.length).toNat 1,
      octet (UInt16.ofNat payload.length).toNat 0, octet checksum.toNat 1] ++ (octet checksum.toNat 0 :: payload) := by
  simp [framed, put16]

theorem length_framed : (framed type checksum payload).length = RADIO_HEADER_SIZE + payload.length := by
  simp [framed, RADIO_HEADER_SIZE]
  omega

theorem framedHeader_read (rest : Octets) :
    radioHeaderRead (RADIO_VERSION :: type :: octet (UInt16.ofNat payload.length).toNat 1 ::
      octet (UInt16.ofNat payload.length).toNat 0 :: octet checksum.toNat 1 :: octet checksum.toNat 0 :: rest) =
      framedHeader type checksum payload := by
  have hlength := get16_put16 (UInt16.ofNat payload.length) (put16 checksum ++ rest)
  have hchecksum := get16_put16 checksum rest
  simp only [put16, List.cons_append, List.nil_append] at hlength hchecksum
  simp only [radioHeaderRead, List.getD_cons_zero, List.getD_cons_succ, List.drop_succ_cons, List.drop_zero, hlength,
    hchecksum]
  rfl

variable {payload}

theorem feed_framed (hs : s.Scanning) (hfits : payload.length ≤ RADIO_PAYLOAD_MAX) :
    ∃ s', trace radioStreamFeed s (framed type checksum payload) =
        (s', List.replicate (RADIO_HEADER_SIZE + payload.length - 1) (.ok none) ++
          [verdict (framedHeader type checksum payload) payload]) ∧ s'.Scanning := by
  have hsize : (UInt16.ofNat payload.length).toNat = payload.length := by
    rw [UInt16.toNat_ofNat']
    unfold RADIO_PAYLOAD_MAX at hfits
    omega
  obtain ⟨s₁, b, rest, htrace, hstate, hoffset, hbuffer, hlength⟩ := feed_header hs RADIO_VERSION type
    (octet (UInt16.ofNat payload.length).toNat 1) (octet (UInt16.ofNat payload.length).toNat 0) (octet checksum.toNat 1)
  have hset : radioHeaderRead (s₁.buffer.set 5 (octet checksum.toNat 0)) = framedHeader type checksum payload := by
    rw [hbuffer]
    exact framedHeader_read type checksum payload rest
  have hset_length : (s₁.buffer.set 5 (octet checksum.toNat 0)).length = RADIO_PAYLOAD_MAX :=
    List.length_set.trans hlength
  rw [framed_eq, trace_append, htrace, trace_cons]
  -- the last octet of the header decides whether a payload follows
  have hfeed : radioStreamFeed s₁ (octet checksum.toNat 0) =
      ({ s₁ with
          buffer := s₁.buffer.set 5 (octet checksum.toNat 0), header := framedHeader type checksum payload, offset := 0,
          expected := payload.length, state := if payload.length = 0 then .SCAN_MAGIC0 else .READ_PAYLOAD },
        if payload.length = 0 then verdict (framedHeader type checksum payload) [] else .ok none) := by
    simp only [radioStreamFeed, hstate, hoffset]
    rw [if_neg (by decide), hset, if_neg (by simp [framedHeader, hsize]; omega)]
    simp only [framedHeader, hsize]
    split_ifs <;> rfl
  rw [hfeed]
  by_cases hempty : payload = []
  · subst hempty
    exact ⟨_, rfl, rfl, hset_length⟩
  have hpos : payload.length ≠ 0 := fun h => hempty (List.eq_nil_of_length_eq_zero h)
  rw [if_neg hpos, if_neg hpos]
  obtain ⟨s', hpayload, hscan, hkept⟩ := feed_payload
    (s := { s₁ with
      buffer := s₁.buffer.set 5 (octet checksum.toNat 0), header := framedHeader type checksum payload, offset := 0,
      expected := payload.length, state := .READ_PAYLOAD })
    (d := []) rfl hempty rfl (by simp) (by rw [hset_length]; exact hfits) rfl
  rw [hpayload]
  refine ⟨s', ?_, hscan, hkept.trans hset_length⟩
  have hcount : RADIO_HEADER_SIZE + payload.length - 1 = 7 + (1 + (payload.length - 1)) := by
    unfold RADIO_HEADER_SIZE
    omega
  rw [hcount, ← List.replicate_append_replicate, ← List.replicate_append_replicate]
  simp

end

theorem feed_message (hs : s.Scanning) (m : RadioMessage) :
    ∃ s', trace radioStreamFeed s m.octets = (s', m.reports) ∧ s'.Scanning := by
  obtain ⟨s', htrace, hscan⟩ := feed_framed m.type (radioChecksum m.payload) hs m.fits
  rw [verdict, if_neg (by simp [framedHeader])] at htrace
  exact ⟨s', htrace, hscan⟩

/-- The parser returns the messages of the stream in order, each at its last octet. -/
theorem stream_round_trip (ms : List RadioMessage) :
    (∀ m ∈ ms, ∀ capacity, RADIO_HEADER_SIZE + m.payload.length ≤ capacity →
      radioStreamEncode m.type m.payload capacity = .ok m.octets) ∧
    (trace radioStreamFeed radioStreamInit (ms.flatMap RadioMessage.octets)).2 = ms.flatMap RadioMessage.reports := by
  refine ⟨fun m _ capacity h => m.encode h, ?_⟩
  suffices h : ∀ s : RadioStream, s.Scanning →
      (trace radioStreamFeed s (ms.flatMap RadioMessage.octets)).2 = ms.flatMap RadioMessage.reports from
    h radioStreamInit radioStreamInit_scanning
  induction ms with
  | nil => exact fun s _ => rfl
  | cons m ms ih =>
    intro s hs
    obtain ⟨s', hmessage, hs'⟩ := feed_message hs m
    rw [List.flatMap_cons, List.flatMap_cons, trace_append, hmessage]
    exact congrArg (m.reports ++ ·) (ih s' hs')

/-! ## Corrupted messages -/

theorem foldCarries_spec (n : Nat) : foldCarries n < 2 ^ 16 ∧ foldCarries n % (2 ^ 16 - 1) = n % (2 ^ 16 - 1) := by
  induction n using foldCarries.induct with
  | case1 n h =>
    rw [foldCarries, if_pos h]
    exact ⟨h, rfl⟩
  | case2 n h ih =>
    rw [foldCarries, if_neg h]
    exact ⟨ih.1, ih.2.trans (by omega)⟩

theorem checksumSum_eq (data : Octets) (start : Nat) :
    data.foldl (fun sum octet => (sum + octet.toNat) % 2 ^ 32) (start % 2 ^ 32) =
      (start + (data.map UInt8.toNat).sum) % 2 ^ 32 := by
  induction data generalizing start with
  | nil => simp
  | cons o data ih =>
    rw [List.foldl_cons, Nat.mod_add_mod, ih, List.map_cons, List.sum_cons, Nat.add_assoc]

theorem checksumSum_le (data : Octets) : (data.map UInt8.toNat).sum ≤ 255 * data.length := by
  induction data with
  | nil => simp
  | cons o data ih =>
    have := o.toNat_lt
    simp only [List.map_cons, List.sum_cons, List.length_cons]
    omega

theorem radioChecksum_inj {a b : Octets} (ha : a.length ≤ RADIO_PAYLOAD_MAX) (hb : b.length ≤ RADIO_PAYLOAD_MAX)
    (h : radioChecksum a = radioChecksum b) :
    (a.map UInt8.toNat).sum % (2 ^ 16 - 1) = (b.map UInt8.toNat).sum % (2 ^ 16 - 1) := by
  have hsum : ∀ data : Octets, data.length ≤ RADIO_PAYLOAD_MAX →
      data.foldl (fun sum octet => (sum + octet.toNat) % 2 ^ 32) 0 = (data.map UInt8.toNat).sum := by
    intro data hdata
    have heq := checksumSum_eq data 0
    have hle := checksumSum_le data
    unfold RADIO_PAYLOAD_MAX at hdata
    rw [Nat.zero_mod, Nat.zero_add, Nat.mod_eq_of_lt (by omega)] at heq
    exact heq
  unfold radioChecksum at h
  rw [hsum a ha, hsum b hb] at h
  have hfold := congrArg UInt16.toNat (UInt16.not_inj.mp h)
  obtain ⟨hlt, hmod⟩ := foldCarries_spec (a.map UInt8.toNat).sum
  obtain ⟨hlt', hmod'⟩ := foldCarries_spec (b.map UInt8.toNat).sum
  rw [UInt16.toNat_ofNat', UInt16.toNat_ofNat', Nat.mod_eq_of_lt hlt, Nat.mod_eq_of_lt hlt'] at hfold
  rw [← hmod, ← hmod', hfold]

theorem radioChecksum_set {payload : Octets} (hfits : payload.length ≤ RADIO_PAYLOAD_MAX) {k : Nat} {v : UInt8}
    (hk : k < payload.length) (hv : v ≠ payload[k]) : radioChecksum (payload.set k v) ≠ radioChecksum payload := by
  intro h
  have hmod := radioChecksum_inj (by rwa [List.length_set]) hfits h
  have hset : ((payload.set k v).map UInt8.toNat).sum + payload[k].toNat = (payload.map UInt8.toNat).sum + v.toNat := by
    have hsplit : (payload.map UInt8.toNat).sum =
        ((payload.take k).map UInt8.toNat).sum + (payload[k].toNat + ((payload.drop (k + 1)).map UInt8.toNat).sum) := by
      rw [← List.sum_cons, ← List.map_cons, List.getElem_cons_drop hk, ← List.sum_append, ← List.map_append,
        List.take_append_drop]
    rw [List.set_eq_take_append_cons_drop, if_pos hk, hsplit]
    simp only [List.map_append, List.map_cons, List.sum_append, List.sum_cons]
    omega
  have hne : v.toNat ≠ payload[k].toNat := fun heq => hv (UInt8.toNat_inj.mp heq)
  have := v.toNat_lt
  have := payload[k].toNat_lt
  omega

/-- **A changed octet is found**: of the payload, or of the checksum. The reader says so at the last octet, and reports
no message. -/
theorem corruption_detected {s : RadioStream} (hs : s.Scanning) {type : UInt8} {payload octets : Octets}
    {capacity : Nat} (h : radioStreamEncode type payload capacity = .ok octets) :
    (∀ k v, k < payload.length → octets[RADIO_HEADER_SIZE + k]? ≠ some v →
      (trace radioStreamFeed s (octets.set (RADIO_HEADER_SIZE + k) v)).2 =
        List.replicate (octets.length - 1) (.ok none) ++ [.error .EBADMSG]) ∧
    ∀ c₁ c₀, octets[6]? ≠ some c₁ ∨ octets[7]? ≠ some c₀ →
      (trace radioStreamFeed s ((octets.set 6 c₁).set 7 c₀)).2 =
        List.replicate (octets.length - 1) (.ok none) ++ [.error .EBADMSG] := by
  obtain ⟨hfits, rfl⟩ := radioStreamEncode_ok h
  rw [length_framed]
  refine ⟨fun k v hk hv => ?_, fun c₁ c₀ hc => ?_⟩
  · have hset : (framed type (radioChecksum payload) payload).set (RADIO_HEADER_SIZE + k) v =
        framed type (radioChecksum payload) (payload.set k v) := by
      simp [framed, put16, RADIO_HEADER_SIZE, Nat.add_comm 8 k]
    have hne : v ≠ payload[k] := fun heq => hv (by simp [framed, put16, RADIO_HEADER_SIZE, Nat.add_comm 8 k, hk, heq])
    obtain ⟨s', htrace, -⟩ := feed_framed type (radioChecksum payload) hs
      (by rwa [List.length_set] : (payload.set k v).length ≤ RADIO_PAYLOAD_MAX)
    rw [hset, htrace, List.length_set, verdict, if_pos]
    exact (radioChecksum_set hfits hk hne).symm
  · have hset : ((framed type (radioChecksum payload) payload).set 6 c₁).set 7 c₀ =
        framed type (get16 [c₁, c₀]) payload := by
      rw [framed, framed, put16_get16 (by simp)]
      rfl
    obtain ⟨s', htrace, -⟩ := feed_framed type (get16 [c₁, c₀]) hs hfits
    rw [hset, htrace, verdict, if_pos]
    intro heq
    have hput : put16 (radioChecksum payload) = [c₁, c₀] := by
      rw [← heq]
      exact put16_get16 (by simp)
    rw [framed, hput] at hc
    exact hc.elim (· rfl) (· rfl)

theorem corruption_detected_run : (trace radioStreamFeed radioStreamInit [0x4d, 0x4c, 2, 3, 0, 1, 0xff, 0xfe, 2]).2 =
    List.replicate 8 (.ok none) ++ [.error .EBADMSG] :=
  (@corruption_detected radioStreamInit radioStreamInit_scanning 3 [1] [0x4d, 0x4c, 2, 3, 0, 1, 0xff, 0xfe, 1] 9
    (by simp [radioStreamEncode, radioChecksum, foldCarries, RADIO_PAYLOAD_MAX, RADIO_HEADER_SIZE]; decide)).1
    0 2 (by decide) (by decide)

/-! ## Resynchronisation -/

/-- What every reader keeps, whatever it was fed: the buffer has its size, and the next octet has a place in it. -/
structure RadioStream.Framed (s : RadioStream) : Prop where
  size : s.buffer.length = RADIO_PAYLOAD_MAX
  header : s.state = .READ_HEADER → s.offset < RADIO_HEADER_SIZE - 2
  payload : s.state = .READ_PAYLOAD → s.offset < s.expected ∧ s.expected ≤ RADIO_PAYLOAD_MAX

def RadioStream.owed (s : RadioStream) : Nat :=
  match s.state with
  | .SCAN_MAGIC0 => 0
  | .SCAN_MAGIC1 => 1
  | .READ_HEADER => RADIO_HEADER_SIZE - 2 - s.offset + RADIO_PAYLOAD_MAX
  | .READ_PAYLOAD => s.expected - s.offset

theorem RadioStream.Framed.feed (h : s.Framed) (octet : UInt8) : (radioStreamFeed s octet).1.Framed := by
  obtain ⟨hsize, hheader, hpayload⟩ := h
  unfold radioStreamFeed
  cases hstate : s.state with
  | SCAN_MAGIC0 => constructor <;> grind
  | SCAN_MAGIC1 => constructor <;> grind [RADIO_HEADER_SIZE]
  | READ_HEADER => constructor <;> grind
  | READ_PAYLOAD => constructor <;> grind

theorem RadioStream.Framed.feed_zero (h : s.Framed) : (radioStreamFeed s 0).1.owed ≤ s.owed - 1 := by
  obtain ⟨hsize, hheader, hpayload⟩ := h
  unfold radioStreamFeed RadioStream.owed
  cases hstate : s.state with
  | SCAN_MAGIC0 => simp [hstate, RADIO_MAGIC0]
  | SCAN_MAGIC1 => simp [RADIO_MAGIC0, RADIO_MAGIC1]
  | READ_HEADER => grind
  | READ_PAYLOAD => grind

theorem RadioStream.Framed.owed_le (h : s.Framed) : s.owed ≤ RADIO_HEADER_SIZE - 2 + RADIO_PAYLOAD_MAX := by
  obtain ⟨-, -, hpayload⟩ := h
  unfold RadioStream.owed
  cases hstate : s.state with
  | SCAN_MAGIC0 => exact Nat.zero_le _
  | SCAN_MAGIC1 => exact (by decide : 1 ≤ RADIO_HEADER_SIZE - 2 + RADIO_PAYLOAD_MAX)
  | READ_HEADER => simp only; omega
  | READ_PAYLOAD =>
    have := (hpayload hstate).2
    simp only
    omega

theorem radioStreamInit_framed : radioStreamInit.Framed := ⟨List.length_replicate, nofun, nofun⟩

theorem RadioStream.Framed.trace (h : s.Framed) (octets : Octets) : (Lib.trace radioStreamFeed s octets).1.Framed := by
  induction octets generalizing s with
  | nil => exact h
  | cons octet octets ih =>
    rw [trace_cons]
    exact ih (h.feed octet)

theorem RadioStream.Framed.zeros (h : s.Framed) (hn : s.owed ≤ n) :
    (Lib.trace radioStreamFeed s (List.replicate n 0)).1.Scanning := by
  induction n generalizing s with
  | zero =>
    refine ⟨?_, h.size⟩
    have hheader := h.header
    have hpayload := h.payload
    cases hstate : s.state with
    | SCAN_MAGIC0 => exact hstate
    | SCAN_MAGIC1 => simp [RadioStream.owed, hstate] at hn
    | READ_HEADER => simp [RadioStream.owed, hstate, RADIO_PAYLOAD_MAX] at hn
    | READ_PAYLOAD =>
      have := hpayload hstate
      simp only [RadioStream.owed, hstate] at hn
      omega
  | succ n ih =>
    rw [List.replicate_succ, trace_cons]
    have := h.feed_zero
    exact ih (h.feed 0) (by omega)

def radioStreamAfter (octets : Octets) : RadioStream := (trace radioStreamFeed radioStreamInit octets).1

/-- **The stream resynchronises**: whatever the reader was fed, the octet it stores next has a place in the buffer; 518
zeros later it scans, and the next message is reported at its last octet. -/
theorem stream_resynchronises (noise : Octets) :
    ((radioStreamAfter noise).state = .READ_HEADER ∨ (radioStreamAfter noise).state = .READ_PAYLOAD →
      (radioStreamAfter noise).offset < RADIO_PAYLOAD_MAX) ∧
    (radioStreamAfter (noise ++ List.replicate 518 0)).state = .SCAN_MAGIC0 ∧
    ∀ type payload capacity octets, radioStreamEncode type payload capacity = .ok octets →
      ∃ header : RadioHeader, header.type = type ∧
        (trace radioStreamFeed (radioStreamAfter (noise ++ List.replicate 518 0)) octets).2 =
          List.replicate (octets.length - 1) (.ok none) ++ [.ok (some (header, payload))] := by
  have hframed := radioStreamInit_framed.trace noise
  have hscan : (radioStreamAfter (noise ++ List.replicate 518 0)).Scanning := by
    simp only [radioStreamAfter, trace_append]
    exact hframed.zeros hframed.owed_le
  refine ⟨?_, hscan.1, fun type payload capacity octets h => ?_⟩
  · rintro (hheader | hpayload)
    · exact (hframed.header hheader).trans (by decide)
    · exact (hframed.payload hpayload).1.trans_le (hframed.payload hpayload).2
  · obtain ⟨hfits, rfl⟩ := radioStreamEncode_ok h
    obtain ⟨s', htrace, -⟩ := feed_message hscan ⟨type, payload, hfits⟩
    refine ⟨framedHeader type (radioChecksum payload) payload, rfl, ?_⟩
    rw [length_framed]
    exact congrArg Prod.snd htrace

theorem stream_resynchronises_run :
    (radioStreamAfter [RADIO_MAGIC0, RADIO_MAGIC1]).offset < RADIO_PAYLOAD_MAX ∧
      ∃ header : RadioHeader, header.type = 3 ∧
      (trace radioStreamFeed (radioStreamAfter ([RADIO_MAGIC0, RADIO_MAGIC1] ++ List.replicate 518 0))
        [0x4d, 0x4c, 2, 3, 0, 1, 0xff, 0xfe, 1]).2 = List.replicate 8 (.ok none) ++ [.ok (some (header, [1]))] :=
  have h := stream_resynchronises [RADIO_MAGIC0, RADIO_MAGIC1]
  ⟨h.1 (.inl (by decide +kernel)), h.2.2 3 [1] 9 [0x4d, 0x4c, 2, 3, 0, 1, 0xff, 0xfe, 1]
    (by simp [radioStreamEncode, radioChecksum, foldCarries, RADIO_PAYLOAD_MAX, RADIO_HEADER_SIZE]; decide)⟩

/-! ## Segments of a frame -/

structure RadioSegment where
  frameId : UInt32
  totalLength : UInt16
  index : UInt16
  count : UInt16
  payload : Octets
  deriving DecidableEq, Repr

def RadioSegment.malformed (s : RadioSegment) : Bool :=
  s.frameId = 0 || s.count = 0 || RADIO_SEGMENT_LIMIT < s.count.toNat || s.count ≤ s.index || s.totalLength = 0 ||
    RADIO_FRAME_MAX < s.totalLength.toNat

def radioSegmentEncode (s : RadioSegment) (capacity : Nat) : Except Errno Octets :=
  if s.malformed ∨ s.payload.length = 0 ∨ RADIO_PACKET_MAX - RADIO_SEGMENT_SIZE < s.payload.length then .error .EINVAL
  else if capacity < RADIO_SEGMENT_SIZE + s.payload.length then .error .ENOSPC
  else .ok (put32 s.frameId ++ put16 s.totalLength ++ put16 s.index ++ put16 s.count ++ put16 0 ++ s.payload)

def radioSegmentRead (input : Octets) : RadioSegment :=
  ⟨get32 input, get16 (input.drop 4), get16 (input.drop 6), get16 (input.drop 8), input.drop RADIO_SEGMENT_SIZE⟩

def radioSegmentDecode (input : Octets) : Except Errno RadioSegment :=
  if input.length ≤ RADIO_SEGMENT_SIZE ∨ RADIO_PACKET_MAX < input.length then .error .EINVAL
  else if (radioSegmentRead input).malformed then .error .EPROTO
  else .ok (radioSegmentRead input)

theorem radioSegmentRead_encoded (s : RadioSegment) :
    radioSegmentRead (put32 s.frameId ++ put16 s.totalLength ++ put16 s.index ++ put16 s.count ++ put16 0 ++
    s.payload) = s := by
  have hframe :=
    get32_put32 s.frameId (put16 s.totalLength ++ (put16 s.index ++ (put16 s.count ++ (put16 0 ++ s.payload))))
  have htotal := get16_put16 s.totalLength (put16 s.index ++ (put16 s.count ++ (put16 0 ++ s.payload)))
  have hindex := get16_put16 s.index (put16 s.count ++ (put16 0 ++ s.payload))
  have hcount := get16_put16 s.count (put16 0 ++ s.payload)
  simp only [put32, put16, List.cons_append, List.nil_append] at hframe htotal hindex hcount
  simp only [radioSegmentRead, put32, put16, List.cons_append, List.nil_append, List.drop_succ_cons, List.drop_zero,
    hframe, htotal, hindex, hcount, RADIO_SEGMENT_SIZE]

theorem radioSegmentDecode_encode {s : RadioSegment} {octets : Octets}
    (h : radioSegmentEncode s capacity = .ok octets) : radioSegmentDecode octets = .ok s := by
  unfold radioSegmentEncode at h
  split_ifs at h with hbad hsmall
  obtain rfl := Except.ok.inj h
  simp only [not_or, RADIO_PACKET_MAX, RADIO_SEGMENT_SIZE] at hbad
  obtain ⟨hwell, hempty, hlong⟩ := hbad
  rw [radioSegmentDecode, radioSegmentRead_encoded, if_neg, if_neg hwell]
  simp only [List.length_append, length_put32, length_put16, RADIO_PACKET_MAX, RADIO_SEGMENT_SIZE]
  omega

theorem radioSegmentDecode_ok {input : Octets} {s : RadioSegment} (h : radioSegmentDecode input = .ok s) :
    s.frameId ≠ 0 ∧ s.index.toNat < s.count.toNat ∧ s.count.toNat ≤ RADIO_SEGMENT_LIMIT ∧ 0 < s.totalLength.toNat ∧
      0 < s.payload.length := by
  unfold radioSegmentDecode at h
  split_ifs at h with hsize hwell
  obtain rfl := Except.ok.inj h
  simp only [not_or, Nat.not_le, Nat.not_lt] at hsize
  simp only [RadioSegment.malformed, Bool.or_eq_true, decide_eq_true_eq, not_or, Nat.not_lt, UInt16.not_le] at hwell
  obtain ⟨⟨⟨⟨⟨hframe, -⟩, hlimit⟩, hindex⟩, htotal⟩, -⟩ := hwell
  refine ⟨hframe, UInt16.lt_iff_toNat_lt.mp hindex, hlimit, ?_, ?_⟩
  · exact Nat.pos_of_ne_zero fun h0 => htotal (UInt16.toNat_inj.mp h0)
  show 0 < (input.drop RADIO_SEGMENT_SIZE).length
  rw [List.length_drop]
  omega

end Melodi
