import Melodi.Lib.Digits
import Melodi.Proto.Basic

/-!
# NodeIds as text (`proto/nodeid.c`)

A NodeId is written as `m` and 53 characters of z-base-32. Writer and reader repack its octets through an accumulator
of 32 bits, whose upper bits are lost.

* `nodeid_text_bijection` : what was written is read, and what is read is the one way to write it.
-/

namespace Melodi
open Lib
variable {bytes : Octets} {accumulator bits digit : Nat} {digits : List Nat} {node : NodeId}

def NODE_ID_TEXT_SIZE : Nat := 54

inductive NodeidError where
  | INVALID
  | LENGTH
  | SCHEME
  | ENCODING
  | KEY
  deriving DecidableEq, Repr

def zbase32 : Octets :=
  [0x79, 0x62, 0x6e, 0x64, 0x72, 0x66, 0x67, 0x38, 0x65, 0x6a, 0x6b, 0x6d, 0x63, 0x70, 0x71, 0x78,
    0x6f, 0x74, 0x31, 0x75, 0x77, 0x69, 0x73, 0x7a, 0x61, 0x33, 0x34, 0x35, 0x68, 0x37, 0x36, 0x39]

def zbase32Char (digit : Nat) : UInt8 := zbase32.getD digit 0

def zbase32Value (character : UInt8) : Option Nat := (zbase32 ++ [0]).idxOf? character

def NODE_ID_TEXT_MARK : UInt8 := 0x6d

section
variable (keyValid : Octets → Bool)

def nodeidValidate (node : NodeId) : Except NodeidError Unit :=
  if node.all (· = 0) ∨ node.all (· = 0xff) then .error .INVALID
  else if node.getD 0 0 ≠ NODE_ID_SCHEME_ED25519 then .error .SCHEME
  else if keyValid (node.drop 1) = false then .error .KEY
  else .ok ()

def zbase32Emit (accumulator : Nat) : Nat → Octets → Nat × Octets
  | bits + 5, output => zbase32Emit accumulator bits (output ++ [zbase32Char (accumulator >>> bits &&& 31)])
  | bits, output => (bits, output)

def nodeidFormatStep : Nat × Nat × Octets → UInt8 → Nat × Nat × Octets
  | (accumulator, bits, output), byte =>
    let accumulator := (accumulator <<< 8 ||| byte.toNat) % 2 ^ 32
    (accumulator, zbase32Emit accumulator (bits + 8) output)

def nodeidFormat (node : NodeId) : Except NodeidError Octets := do
  nodeidValidate keyValid node
  let (accumulator, bits, output) := node.foldl nodeidFormatStep (0, 0, [NODE_ID_TEXT_MARK])
  let output := if bits ≠ 0 then output ++ [zbase32Char ((accumulator <<< (5 - bits)) % 2 ^ 32 &&& 31)] else output
  if output.length = NODE_ID_TEXT_SIZE then .ok output else .error .ENCODING

def nodeidParseStep : Nat × Nat × Octets → UInt8 → Except NodeidError (Nat × Nat × Octets)
  | (accumulator, bits, bytes), character =>
    match zbase32Value character with
    | none => .error .ENCODING
    | some value =>
      let accumulator := (accumulator <<< 5 ||| value) % 2 ^ 32
      let bits := bits + 5
      if 8 ≤ bits then
        if NODE_ID_SIZE ≤ bytes.length then .error .ENCODING
        else .ok (accumulator, bits - 8, bytes ++ [UInt8.ofNat (accumulator >>> (bits - 8))])
      else .ok (accumulator, bits, bytes)

def nodeidParse (text : Octets) : Except NodeidError NodeId :=
  if text.length ≠ NODE_ID_TEXT_SIZE ∨ text.getD 0 0 ≠ NODE_ID_TEXT_MARK then .error .LENGTH
  else do
    let (accumulator, bits, node) ← (text.drop 1).foldlM nodeidParseStep (0, 0, [])
    if node.length ≠ NODE_ID_SIZE ∨ bits ≠ 1 ∨ accumulator &&& 1 ≠ 0 then .error .ENCODING
    else
      nodeidValidate keyValid node
      match nodeidFormat keyValid node with
      | .ok canonical => if text = canonical then .ok node else .error .ENCODING
      | .error _ => .error .ENCODING

end

/-! ## Writing -/

def nodeidNumber (bytes : Octets) : Nat := ofDigitsBE (2 ^ 8) 0 (bytes.map UInt8.toNat)

structure Writes (bytes : Octets) (accumulator bits : Nat) (digits : List Nat) : Prop where
  packed : Packed (nodeidNumber bytes) (ofDigitsBE (2 ^ 5) 0 digits) accumulator bits
  below : ∀ d ∈ digits, d < 2 ^ 5
  count : 8 * bytes.length = 5 * digits.length + bits

def zbase32Text (digits : List Nat) : Octets := NODE_ID_TEXT_MARK :: digits.map zbase32Char

theorem zbase32Text_concat (digits : List Nat) (d : Nat) :
    zbase32Text (digits ++ [d]) = zbase32Text digits ++ [zbase32Char d] := by
  simp [zbase32Text]

theorem and_31 (n : Nat) : n &&& 31 = n % 2 ^ 5 := Nat.and_two_pow_sub_one_eq_mod n 5

theorem zbase32Emit_writes (h : Writes bytes accumulator bits digits) : ∃ bits' digits',
      zbase32Emit accumulator bits (zbase32Text digits) = (bits', zbase32Text digits') ∧ bits' < 5 ∧
      Writes bytes accumulator bits' digits' := by
  induction bits using Nat.strongRecOn generalizing digits with
  | ind bits ih =>
    by_cases hbits : bits < 5
    · exact ⟨bits, digits, by unfold zbase32Emit; split <;> first | rfl | omega, hbits, h⟩
    obtain ⟨n, rfl⟩ : ∃ n, bits = n + 5 := ⟨bits - 5, by omega⟩
    rw [zbase32Emit, and_31, ← zbase32Text_concat]
    refine ih n (by omega) ⟨?_, ?_, ?_⟩
    · rw [ofDigitsBE_concat]
      exact h.packed.pop
    · simp only [List.mem_append, List.mem_singleton]
      rintro d (hd | rfl)
      · exact h.below d hd
      · exact Nat.mod_lt _ (by decide)
    · have := h.count
      simp
      omega

theorem nodeidFormatStep_writes (hbits : bits < 5) (h : Writes bytes accumulator bits digits) (byte : UInt8) :
    ∃ accumulator' bits' digits',
      nodeidFormatStep (accumulator, bits, zbase32Text digits) byte = (accumulator', bits', zbase32Text digits') ∧
      bits' < 5 ∧ Writes (bytes ++ [byte]) accumulator' bits' digits' := by
  have hpush : Writes (bytes ++ [byte]) ((accumulator <<< 8 ||| byte.toNat) % 2 ^ 32) (bits + 8) digits := by
    refine ⟨?_, h.below, ?_⟩
    · simp only [nodeidNumber, List.map_append, List.map_cons, List.map_nil, ofDigitsBE_concat]
      exact h.packed.push byte.toNat_lt (by omega)
    · have := h.count
      simp
      omega
  obtain ⟨bits', digits', hemit, hbits', hwrites⟩ := zbase32Emit_writes hpush
  exact ⟨_, bits', digits', by rw [nodeidFormatStep, hemit], hbits', hwrites⟩

theorem foldl_writes (rest : Octets) (hbits : bits < 5) (h : Writes bytes accumulator bits digits) :
    ∃ accumulator' bits' digits',
      rest.foldl nodeidFormatStep (accumulator, bits, zbase32Text digits) = (accumulator', bits', zbase32Text digits') ∧
      bits' < 5 ∧ Writes (bytes ++ rest) accumulator' bits' digits' := by
  induction rest generalizing bytes accumulator bits digits with
  | nil => exact ⟨accumulator, bits, digits, rfl, hbits, by simpa using h⟩
  | cons byte rest ih =>
    obtain ⟨a, b, ds, hstep, hb, hw⟩ := nodeidFormatStep_writes hbits h byte
    rw [List.foldl_cons, hstep]
    simpa using ih hb hw

theorem nodeidFormat_eq {keyValid : Octets → Bool} (hsize : node.length = NODE_ID_SIZE)
    (hvalid : nodeidValidate keyValid node = .ok ()) : ∃ digits,
      nodeidFormat keyValid node = .ok (zbase32Text digits) ∧ digits.length = 53 ∧ (∀ d ∈ digits, d < 2 ^ 5) ∧
      ofDigitsBE (2 ^ 5) 0 digits = 2 * nodeidNumber node ∧ ∃ k, digits.getLast? = some (2 * k) := by
  obtain ⟨accumulator, bits, digits, hfold, hbits, hwrites⟩ :=
    foldl_writes node (by decide) (⟨rfl, nofun, rfl⟩ : Writes [] 0 0 [])
  rw [List.nil_append] at hwrites
  have hcount := hwrites.count
  rw [hsize, NODE_ID_SIZE] at hcount
  obtain rfl : bits = 4 := by omega
  have hlength : digits.length = 52 := by omega
  have hlast : (accumulator <<< (5 - 4)) % 2 ^ 32 &&& 31 = 2 * (accumulator % 2 ^ 4) := by
    rw [and_31, Nat.shiftLeft_eq]
    omega
  refine ⟨digits ++ [2 * (accumulator % 2 ^ 4)], ?_,
    by simp [hlength], ?_, ?_, accumulator % 2 ^ 4, List.getLast?_concat⟩
  · have hstart : node.foldl nodeidFormatStep (0, 0, [NODE_ID_TEXT_MARK]) = (accumulator, 4, zbase32Text digits) :=
      hfold
    simp only [nodeidFormat, hvalid, hstart, bind, Except.bind]
    rw [if_pos (by decide : 4 ≠ 0), hlast, ← zbase32Text_concat,
      if_pos (by simp [zbase32Text, hlength, NODE_ID_TEXT_SIZE])]
  · simp only [List.mem_append, List.mem_singleton]
    rintro d (hd | rfl)
    · exact hwrites.below d hd
    · omega
  · have hpacked : nodeidNumber node = _ * 2 ^ 4 + accumulator % 2 ^ 4 := hwrites.packed
    rw [ofDigitsBE_concat, hpacked]
    omega

/-! ## Reading -/

structure Reads (digits : List Nat) (accumulator bits : Nat) (bytes : Octets) : Prop where
  packed : Packed (ofDigitsBE (2 ^ 5) 0 digits) (nodeidNumber bytes) accumulator bits
  count : 5 * digits.length = 8 * bytes.length + bits

theorem zbase32Value_char (h : digit < 2 ^ 5) : zbase32Value (zbase32Char digit) = some digit := by
  revert digit
  decide

theorem zbase32Char_mem (h : digit < 2 ^ 5) : zbase32Char digit ∈ zbase32 := by
  revert digit
  decide

theorem nodeidParseStep_reads (hbits : bits < 8) (h : Reads digits accumulator bits bytes) (hdigit : digit < 2 ^ 5)
    (hlength : digits.length < 53) :
    ∃ accumulator' bits' bytes', nodeidParseStep (accumulator, bits, bytes) (zbase32Char digit) =
        .ok (accumulator', bits', bytes') ∧ bits' < 8 ∧ Reads (digits ++ [digit]) accumulator' bits' bytes' := by
  have hcount := h.count
  have hpush := h.packed.push hdigit (by omega : bits + 5 ≤ 32)
  rw [← ofDigitsBE_concat] at hpush
  simp only [nodeidParseStep, zbase32Value_char hdigit]
  generalize (accumulator <<< 5 ||| digit) % 2 ^ 32 = acc at hpush
  by_cases hfull : 8 ≤ bits + 5
  · obtain ⟨n, hn⟩ : ∃ n, bits + 5 = n + 8 := ⟨bits + 5 - 8, by omega⟩
    rw [if_pos hfull, if_neg (by unfold NODE_ID_SIZE; omega)]
    refine ⟨acc, bits + 5 - 8, _, rfl, by omega, ?_, ?_⟩
    · rw [hn] at hpush ⊢
      simpa [nodeidNumber, UInt8.toNat_ofNat'] using hpush.pop
    · simp
      omega
  · rw [if_neg hfull]
    exact ⟨acc, bits + 5, bytes, rfl, by omega, hpush, by simp; omega⟩

theorem foldlM_reads (rest : List Nat) (hbits : bits < 8) (h : Reads digits accumulator bits bytes)
    (hrest : ∀ d ∈ rest, d < 2 ^ 5) (hlength : digits.length + rest.length ≤ 53) :
    ∃ accumulator' bits' bytes', (rest.map zbase32Char).foldlM nodeidParseStep (accumulator, bits, bytes) =
        .ok (accumulator', bits', bytes') ∧ bits' < 8 ∧ Reads (digits ++ rest) accumulator' bits' bytes' := by
  induction rest generalizing digits accumulator bits bytes with
  | nil => exact ⟨accumulator, bits, bytes, rfl, hbits, by simpa using h⟩
  | cons digit rest ih =>
    rw [List.length_cons] at hlength
    obtain ⟨a, b, bs, hstep, hb, hr⟩ := nodeidParseStep_reads hbits h (hrest digit (by simp)) (by omega)
    have hgo := ih hb hr (fun d hd => hrest d (by simp [hd])) (by simp; omega)
    rw [List.append_assoc] at hgo
    rw [List.map_cons, List.foldlM_cons, hstep]
    exact hgo

theorem nodeidParse_format {keyValid : Octets → Bool} (hsize : node.length = NODE_ID_SIZE)
    (hvalid : nodeidValidate keyValid node = .ok ()) :
    ∃ text, nodeidFormat keyValid node = .ok text ∧ nodeidParse keyValid text = .ok node := by
  obtain ⟨digits, hformat, hlength, hbelow, hnumber, -⟩ := nodeidFormat_eq hsize hvalid
  refine ⟨_, hformat, ?_⟩
  obtain ⟨accumulator, bits, bytes, hfold, hbits, hreads⟩ := foldlM_reads digits (by decide)
    (⟨rfl, rfl⟩ : Reads [] 0 0 []) hbelow (by simp [hlength])
  rw [List.nil_append] at hreads
  have hcount := hreads.count
  rw [hlength] at hcount
  obtain rfl : bits = 1 := by omega
  have hsize' : bytes.length = NODE_ID_SIZE := by
    unfold NODE_ID_SIZE
    omega
  have hpacked : ofDigitsBE (2 ^ 5) 0 digits = nodeidNumber bytes * 2 ^ 1 + accumulator % 2 ^ 1 := hreads.packed
  have heven : accumulator &&& 1 = 0 := by
    rw [Nat.and_one_is_mod]
    omega
  -- equal numbers of as many octets are the same octets
  obtain rfl : bytes = node := by
    have hnumbers : nodeidNumber bytes = nodeidNumber node := by omega
    have hoctet : ∀ bytes : Octets, ∀ d ∈ bytes.map UInt8.toNat, d < 2 ^ 8 := by
      intro bytes d hd
      obtain ⟨byte, -, rfl⟩ := List.mem_map.mp hd
      exact byte.toNat_lt
    have hbytes := (ofDigitsBE_inj (by simp [hsize, hsize']) (hoctet bytes) (hoctet node) hnumbers).2
    exact (List.map_inj_right fun _ _ => UInt8.toNat_inj.mp).mp hbytes
  unfold nodeidParse
  rw [if_neg (by simp [zbase32Text, hlength, NODE_ID_TEXT_SIZE])]
  have hdrop : (zbase32Text digits).drop 1 = digits.map zbase32Char := rfl
  simp only [hdrop, hfold, bind, Except.bind]
  rw [if_neg (by simp [hsize, heven]), hvalid]
  simp only [hformat, if_true]

theorem nodeidParse_ok {keyValid : Octets → Bool} {text : Octets} (h : nodeidParse keyValid text = .ok node) :
    node.length = NODE_ID_SIZE ∧ nodeidValidate keyValid node = .ok () ∧ nodeidFormat keyValid node = .ok text := by
  unfold nodeidParse at h
  split_ifs at h
  cases hfold : (text.drop 1).foldlM nodeidParseStep (0, 0, []) with
  | error e => simp only [hfold, bind, Except.bind] at h; exact nomatch h
  | ok r =>
    obtain ⟨accumulator, bits, bytes⟩ := r
    simp only [hfold, bind, Except.bind] at h
    split_ifs at h with hend
    cases hvalid : nodeidValidate keyValid bytes with
    | error e => simp [hvalid] at h
    | ok u =>
      cases hformat : nodeidFormat keyValid bytes with
      | error e => simp [hvalid, hformat] at h
      | ok canonical =>
        simp only [hvalid, hformat] at h
        split_ifs at h with htext
        obtain rfl := Except.ok.inj h
        exact ⟨by simpa using (not_or.mp hend).1, hvalid, htext ▸ hformat⟩

/-- Formatting and parsing are inverse to each other, so that each NodeId has one text. -/
theorem nodeid_text_bijection (keyValid : Octets → Bool) :
    (∀ node : NodeId, node.length = NODE_ID_SIZE → nodeidValidate keyValid node = .ok () →
      ∃ text, nodeidFormat keyValid node = .ok text ∧ nodeidParse keyValid text = .ok node) ∧
    ∀ (text : Octets) (node : NodeId), nodeidParse keyValid text = .ok node →
      nodeidFormat keyValid node = .ok text ∧ text.length = NODE_ID_TEXT_SIZE ∧ text.head? = some NODE_ID_TEXT_MARK ∧
      (∀ c ∈ text.tail, c ∈ zbase32) ∧ ∃ k, text.getLast? = some (zbase32Char (2 * k)) := by
  refine ⟨fun node hsize hvalid => nodeidParse_format hsize hvalid, fun text node h => ?_⟩
  obtain ⟨hsize, hvalid, hformat⟩ := nodeidParse_ok h
  obtain ⟨digits, hdigits, hlength, hbelow, -, k, hlast⟩ := nodeidFormat_eq hsize hvalid
  obtain rfl := Except.ok.inj (hformat.symm.trans hdigits)
  refine ⟨hformat, by simp [zbase32Text, hlength, NODE_ID_TEXT_SIZE], rfl, fun c hc => ?_, k, ?_⟩
  · obtain ⟨d, hd, rfl⟩ := List.mem_map.mp hc
    exact zbase32Char_mem (hbelow d hd)
  · rw [zbase32Text, List.getLast?_cons, List.getLast?_map, hlast]
    rfl

/-- The encoding of the base point of Ed25519, which has prime order. -/
def ED25519_BASE : Octets := 0x58 :: List.replicate 31 0x66

theorem nodeid_text_bijection_base :
    ∃ text, nodeidFormat (fun key => key = ED25519_BASE) (1 :: ED25519_BASE) = .ok text ∧
    nodeidParse (fun key => key = ED25519_BASE) text = .ok (1 :: ED25519_BASE) ∧ text.length = NODE_ID_TEXT_SIZE := by
  have hvalid : nodeidValidate (fun key => key = ED25519_BASE) (1 :: ED25519_BASE) = .ok () := by decide +kernel
  obtain ⟨text, hformat, hparse⟩ := (nodeid_text_bijection _).1 (1 :: ED25519_BASE) rfl hvalid
  exact ⟨text, hformat, hparse, ((nodeid_text_bijection _).2 text _ hparse).2.1⟩

end Melodi
