import Melodi.Proto.Radio

/-!
# Time on air (`proto/radio.c`)

`radioAirtimeEstimate` computes the duration of a LoRa packet in microseconds, with integer divisions: the symbol time
is rounded down, and so is the preamble.
-/

namespace Melodi
open Lib

def airtimeSymbolUs (spreading bandwidth : Nat) : Nat := 2 ^ spreading * 1000 / bandwidth

def airtimeLowRate (spreading bandwidth : Nat) : Nat := if 11 ≤ spreading ∧ bandwidth ≤ 125 then 1 else 0

def airtimeNumerator (spreading length : Nat) : Int := 8 * length - 4 * spreading + 28 + 16

def airtimeDenominator (spreading bandwidth : Nat) : Int := 4 * (spreading - 2 * airtimeLowRate spreading bandwidth)

def airtimeSymbols (spreading bandwidth coding length : Nat) : Int :=
  let numerator := airtimeNumerator spreading length
  let denominator := airtimeDenominator spreading bandwidth
  8 + (if numerator ≤ 0 then 0 else (numerator + denominator - 1) / denominator) * (coding - 4 + 4)

def airtimeUs (spreading bandwidth coding length : Nat) : Nat :=
  airtimeSymbolUs spreading bandwidth * 49 / 4 +
    (airtimeSymbols spreading bandwidth coding length).toNat * airtimeSymbolUs spreading bandwidth

def radioAirtimeEstimate (spreadingFactor : UInt8) (bandwidthKhz : UInt16) (codingRate : UInt8) (payloadLength : Nat) :
    Except Errno UInt32 :=
  if spreadingFactor < 6 ∨ 12 < spreadingFactor ∨ bandwidthKhz = 0 ∨ codingRate < 5 ∨ 8 < codingRate ∨
      RADIO_PACKET_MAX < payloadLength then .error .EINVAL
  else if airtimeDenominator spreadingFactor.toNat bandwidthKhz.toNat ≤ 0 then .error .EINVAL
  else .ok (UInt32.ofNat (airtimeUs spreadingFactor.toNat bandwidthKhz.toNat codingRate.toNat payloadLength))

structure AirtimeRange (spreading bandwidth coding length : Nat) : Prop where
  slow : 6 ≤ spreading
  fast : spreading ≤ 12
  band : 0 < bandwidth
  rate : 5 ≤ coding ∧ coding ≤ 8
  packet : length ≤ RADIO_PACKET_MAX

/-! ## Counting in natural numbers -/

section
variable {sf sf' bw bw' cr cr' len len' : Nat}

def airtimeBlocks (sf bw len : Nat) : Nat :=
  (8 * len + 44 - 4 * sf + (4 * (sf - 2 * airtimeLowRate sf bw) - 1)) / (4 * (sf - 2 * airtimeLowRate sf bw))

theorem airtimeDenominator_eq (bw : Nat) (hsf : 6 ≤ sf) :
    airtimeDenominator sf bw = (4 * (sf - 2 * airtimeLowRate sf bw) : Nat) ∧
    24 ≤ 4 * (sf - 2 * airtimeLowRate sf bw) := by
  unfold airtimeDenominator airtimeLowRate
  split <;> constructor <;> omega

theorem airtimeSymbols_eq (hsf : 6 ≤ sf) : airtimeSymbols sf bw cr len = (8 + airtimeBlocks sf bw len * cr : Nat) := by
  obtain ⟨hd, hpos⟩ := airtimeDenominator_eq bw hsf
  unfold airtimeSymbols airtimeBlocks
  simp only [hd]
  generalize 4 * (sf - 2 * airtimeLowRate sf bw) = d at *
  by_cases hn : airtimeNumerator sf len ≤ 0
  · have hzero : 8 * len + 44 - 4 * sf = 0 := by
      unfold airtimeNumerator at hn
      omega
    rw [if_pos hn, hzero, Nat.zero_add, Nat.div_eq_of_lt (by omega)]
    simp
  · have hcast : airtimeNumerator sf len + d - 1 = (8 * len + 44 - 4 * sf + (d - 1) : Nat) := by
      unfold airtimeNumerator at hn ⊢
      omega
    rw [if_neg hn, hcast]
    push_cast
    ring

theorem airtimeUs_eq (hsf : 6 ≤ sf) : airtimeUs sf bw cr len =
    airtimeSymbolUs sf bw * 49 / 4 + (8 + airtimeBlocks sf bw len * cr) * airtimeSymbolUs sf bw := by
  rw [airtimeUs, airtimeSymbols_eq hsf, Int.toNat_natCast]

theorem radioAirtimeEstimate_eq {sf cr : UInt8} {bw : UInt16} (h : AirtimeRange sf.toNat bw.toNat cr.toNat len) :
    radioAirtimeEstimate sf bw cr len = .ok (UInt32.ofNat (airtimeUs sf.toNat bw.toNat cr.toNat len)) := by
  obtain ⟨hslow, hfast, hband, ⟨hrate, hrate'⟩, hpacket⟩ := h
  obtain ⟨hd, hpos⟩ := airtimeDenominator_eq bw.toNat hslow
  rw [radioAirtimeEstimate, if_neg, if_neg (by omega)]
  simp only [UInt8.lt_iff_toNat_lt, ← UInt16.toNat_inj, UInt8.toNat_ofNat, UInt16.toNat_ofNat]
  omega

theorem radioAirtimeEstimate_ok {sf cr : UInt8} {bw : UInt16} {d : UInt32}
    (h : radioAirtimeEstimate sf bw cr len = .ok d) : AirtimeRange sf.toNat bw.toNat cr.toNat len := by
  unfold radioAirtimeEstimate at h
  split_ifs at h with hrange
  simp only [UInt8.lt_iff_toNat_lt, ← UInt16.toNat_inj, UInt8.toNat_ofNat, UInt16.toNat_ofNat] at hrange
  constructor <;> omega

/-! ## Monotone -/

theorem roundUp_le {n d q : Nat} (hd : 0 < d) (h : n ≤ d * q) : (n + (d - 1)) / d ≤ q := by
  rw [Nat.div_le_iff_le_mul_add_pred hd]
  omega

theorem le_roundUp {n d : Nat} (hd : 0 < d) : n ≤ d * ((n + (d - 1)) / d) := by
  have := Nat.div_add_mod (n + (d - 1)) d
  have := Nat.mod_lt (n + (d - 1)) hd
  omega

theorem airtimeBlocks_mono (hsf : 6 ≤ sf) (hbw : bw' ≤ bw) (hlen : len ≤ len') :
    airtimeBlocks sf bw len ≤ airtimeBlocks sf bw' len' := by
  obtain ⟨-, hd⟩ := airtimeDenominator_eq bw hsf
  obtain ⟨-, hd'⟩ := airtimeDenominator_eq bw' hsf
  have hlow : airtimeLowRate sf bw ≤ airtimeLowRate sf bw' := by
    unfold airtimeLowRate
    split_ifs <;> omega
  have hle := le_roundUp (n := 8 * len' + 44 - 4 * sf) (by omega : 0 < 4 * (sf - 2 * airtimeLowRate sf bw'))
  refine roundUp_le (by omega) (le_trans (le_trans (by omega) hle) ?_)
  exact Nat.mul_le_mul_right _ (by omega)

theorem airtimeBlocks_succ (bw len : Nat) (hsf : 6 ≤ sf) :
    airtimeBlocks sf bw len ≤ 2 * airtimeBlocks (sf + 1) bw len + 1 := by
  obtain ⟨-, hd⟩ := airtimeDenominator_eq bw hsf
  obtain ⟨-, hd'⟩ := airtimeDenominator_eq bw (by omega : 6 ≤ sf + 1)
  have hnear : 4 * (sf + 1 - 2 * airtimeLowRate (sf + 1) bw) ≤ 4 * (sf - 2 * airtimeLowRate sf bw) + 4 := by
    unfold airtimeLowRate
    split_ifs <;> omega
  have hle :=
    le_roundUp (n := 8 * len + 44 - 4 * (sf + 1)) (by omega : 0 < 4 * (sf + 1 - 2 * airtimeLowRate (sf + 1) bw))
  refine roundUp_le (by omega) ?_
  change _ ≤ _ * airtimeBlocks (sf + 1) bw len at hle
  generalize airtimeBlocks (sf + 1) bw len = c at *
  generalize 4 * (sf - 2 * airtimeLowRate sf bw) = d at *
  generalize 4 * (sf + 1 - 2 * airtimeLowRate (sf + 1) bw) = d' at *
  have hn : 8 * len + 44 - 4 * sf ≤ d' * c + 4 := by omega
  nlinarith [Nat.mul_le_mul_right c hnear]

theorem airtimeSymbolUs_mono (sf : Nat) (hband : 0 < bw') (hbw : bw' ≤ bw) :
    airtimeSymbolUs sf bw ≤ airtimeSymbolUs sf bw' :=
  Nat.div_le_div_left hbw hband

theorem airtimeSymbolUs_succ (sf bw : Nat) : 2 * airtimeSymbolUs sf bw ≤ airtimeSymbolUs (sf + 1) bw := by
  unfold airtimeSymbolUs
  rw [pow_succ, Nat.mul_right_comm, Nat.mul_comm _ 2]
  exact Nat.mul_div_le_mul_div_assoc 2 _ bw

theorem airtimeUs_succ (hsf : 6 ≤ sf) (hcr : cr ≤ 8) : airtimeUs sf bw cr len ≤ airtimeUs (sf + 1) bw cr len := by
  have hblocks := airtimeBlocks_succ bw len hsf
  have hsymbol := airtimeSymbolUs_succ sf bw
  rw [airtimeUs_eq hsf, airtimeUs_eq (by omega)]
  generalize airtimeSymbolUs sf bw = s at *
  generalize airtimeSymbolUs (sf + 1) bw = s' at *
  generalize airtimeBlocks sf bw len = c at *
  generalize airtimeBlocks (sf + 1) bw len = c' at *
  have hpreamble : s * 49 / 4 ≤ s' * 49 / 4 := Nat.div_le_div_right (by omega)
  have hcount : 8 + c * cr ≤ (8 + c' * cr) * 2 := by nlinarith [Nat.mul_le_mul_right cr hblocks]
  have hpayload : (8 + c * cr) * s ≤ (8 + c' * cr) * s' :=
    calc (8 + c * cr) * s ≤ (8 + c' * cr) * 2 * s := Nat.mul_le_mul_right s hcount
      _ = (8 + c' * cr) * (2 * s) := Nat.mul_assoc _ _ _
      _ ≤ (8 + c' * cr) * s' := Nat.mul_le_mul_left _ hsymbol
  omega

theorem airtimeUs_mono (hsf : 6 ≤ sf) (hband : 0 < bw') (hbw : bw' ≤ bw) (hcr : cr ≤ cr') (hlen : len ≤ len') :
    airtimeUs sf bw cr len ≤ airtimeUs sf bw' cr' len' := by
  have hsymbol := airtimeSymbolUs_mono sf hband hbw
  have hblocks := Nat.mul_le_mul (airtimeBlocks_mono hsf hbw hlen) hcr
  rw [airtimeUs_eq hsf, airtimeUs_eq hsf]
  exact Nat.add_le_add (Nat.div_le_div_right (by omega)) (Nat.mul_le_mul (by omega) hsymbol)

theorem airtimeUs_spreading (hsf : 6 ≤ sf) (hle : sf ≤ sf') (hcr : cr ≤ 8) :
    airtimeUs sf bw cr len ≤ airtimeUs sf' bw cr len := by
  induction sf', hle using Nat.le_induction with
  | base => exact le_rfl
  | succ sf' hle ih => exact ih.trans (airtimeUs_succ (by omega) hcr)

theorem airtimeUs_lt (h : AirtimeRange sf bw cr len) : airtimeUs sf bw cr len < 2 ^ 32 := by
  obtain ⟨hslow, hfast, hband, ⟨-, hrate⟩, hpacket⟩ := h
  unfold RADIO_PACKET_MAX at hpacket
  obtain ⟨-, hd⟩ := airtimeDenominator_eq bw hslow
  have hsymbol : airtimeSymbolUs sf bw ≤ 4096000 := by
    refine (Nat.div_le_self _ _).trans ?_
    have : 2 ^ sf ≤ 2 ^ 12 := Nat.pow_le_pow_right (by decide) hfast
    omega
  have hblocks : airtimeBlocks sf bw len ≤ 81 :=
    roundUp_le (by omega) (le_trans (by omega : _ ≤ 24 * 81) (Nat.mul_le_mul_right 81 hd))
  have hcount : airtimeBlocks sf bw len * cr ≤ 81 * 8 := Nat.mul_le_mul hblocks hrate
  have hpayload : (8 + airtimeBlocks sf bw len * cr) * airtimeSymbolUs sf bw ≤ (8 + 81 * 8) * 4096000 :=
    Nat.mul_le_mul (by omega) hsymbol
  rw [airtimeUs_eq hslow]
  omega

end

/-- **The estimate is monotone**: in the payload length, the coding rate and the spreading factor, and the other way in
the bandwidth. -/
theorem airtime_estimate_monotone {sf sf' cr cr' : UInt8} {bw bw' : UInt16} {len len' : Nat} {us us' : UInt32}
    (h : radioAirtimeEstimate sf bw cr len = .ok us) (h' : radioAirtimeEstimate sf' bw' cr' len' = .ok us')
    (hsf : sf ≤ sf') (hbw : bw' ≤ bw) (hcr : cr ≤ cr') (hlen : len ≤ len') : us ≤ us' := by
  have hrange := radioAirtimeEstimate_ok h
  have hrange' := radioAirtimeEstimate_ok h'
  rw [radioAirtimeEstimate_eq hrange] at h
  rw [radioAirtimeEstimate_eq hrange'] at h'
  obtain rfl := Except.ok.inj h
  obtain rfl := Except.ok.inj h'
  rw [UInt32.le_iff_toNat_le, UInt32.toNat_ofNat', UInt32.toNat_ofNat', Nat.mod_eq_of_lt (airtimeUs_lt hrange),
    Nat.mod_eq_of_lt (airtimeUs_lt hrange')]
  calc airtimeUs sf.toNat bw.toNat cr.toNat len
      ≤ airtimeUs sf.toNat bw'.toNat cr'.toNat len' := airtimeUs_mono hrange.slow hrange'.band hbw hcr hlen
    _ ≤ airtimeUs sf'.toNat bw'.toNat cr'.toNat len' := airtimeUs_spreading hrange.slow hsf hrange'.rate.2

theorem airtime_estimate_monotone_run : (317696 : UInt32) ≤ 7217152 :=
  @airtime_estimate_monotone 7 12 5 5 125 125 200 200 _ _
    (by decide) (by decide) (by decide) (by decide) (by decide) (by decide)

/-! ## Against the formula -/

/-- The time on air, of an explicit header, an enabled CRC and a preamble of eight symbols: all but the number of
payload symbols is exact. -/
def semtechTimeOnAir (sf bw cr len : Nat) : ℚ :=
  let symbol : ℚ := 2 ^ sf * 1000 / bw
  let lowRate : ℚ := if 11 ≤ sf ∧ bw ≤ 125 then 1 else 0
  let payload : ℚ := 8 + max (⌈(8 * len - 4 * sf + 28 + 16 : ℚ) / (4 * (sf - 2 * lowRate))⌉ * (cr : ℚ)) 0
  (8 + 17 / 4) * symbol + payload * symbol

section
variable {sf bw cr len : Nat}

theorem semtech_blocks (hsf : 6 ≤ sf) :
    max (⌈(8 * len - 4 * sf + 28 + 16 : ℚ) / (4 * (sf - 2 * if 11 ≤ sf ∧ bw ≤ 125 then 1 else 0))⌉ * (cr : ℚ)) 0 =
      (airtimeBlocks sf bw len * cr : Nat) := by
  obtain ⟨hd, hpos⟩ := airtimeDenominator_eq bw hsf
  have hden : (4 * (sf - 2 * if 11 ≤ sf ∧ bw ≤ 125 then 1 else 0) : ℚ) =
    (4 * (sf - 2 * airtimeLowRate sf bw) : Nat) := by
    have hcast := congrArg (Int.cast : ℤ → ℚ) hd
    rw [Int.cast_natCast] at hcast
    rw [← hcast, airtimeDenominator, airtimeLowRate]
    split_ifs <;> push_cast <;> ring
  have hnum : (8 * len - 4 * sf + 28 + 16 : ℚ) = (airtimeNumerator sf len : Int) := by
    unfold airtimeNumerator
    push_cast
    ring
  rw [hden, hnum, airtimeBlocks]
  generalize 4 * (sf - 2 * airtimeLowRate sf bw) = d at *
  have hd0 : (0 : ℚ) < d := by exact_mod_cast (by omega : 0 < d)
  by_cases hn : airtimeNumerator sf len ≤ 0
  · have hzero : 8 * len + 44 - 4 * sf = 0 := by
      unfold airtimeNumerator at hn
      omega
    have hceil : ⌈((airtimeNumerator sf len : Int) : ℚ) / d⌉ ≤ 0 :=
      Int.ceil_le.mpr (by simpa using div_nonpos_of_nonpos_of_nonneg (by exact_mod_cast hn) hd0.le)
    rw [hzero, Nat.zero_add, Nat.div_eq_of_lt (by omega), max_eq_right]
    · simp
    · exact mul_nonpos_of_nonpos_of_nonneg (by exact_mod_cast hceil) (by positivity)
  · have hvalue : airtimeNumerator sf len = (8 * len + 44 - 4 * sf : Nat) := by
      unfold airtimeNumerator at hn ⊢
      omega
    have hle := le_roundUp (n := 8 * len + 44 - 4 * sf) (by omega : 0 < d)
    have hge : d * ((8 * len + 44 - 4 * sf + (d - 1)) / d) ≤ 8 * len + 44 - 4 * sf + (d - 1) := Nat.mul_div_le _ _
    have hceil : ⌈((airtimeNumerator sf len : Int) : ℚ) / d⌉ = ((8 * len + 44 - 4 * sf + (d - 1)) / d : Nat) := by
      rw [Int.ceil_eq_iff, hvalue, lt_div_iff₀ hd0, div_le_iff₀ hd0]
      generalize (8 * len + 44 - 4 * sf + (d - 1)) / d = q at *
      generalize 8 * len + 44 - 4 * sf = n at *
      have hge' : d * q < n + d := by omega
      have hleq : (n : ℚ) ≤ d * q := by exact_mod_cast hle
      have hgeq : (d * q : ℚ) < n + d := by exact_mod_cast hge'
      push_cast
      constructor <;> linarith
    rw [hceil, max_eq_left (by positivity)]
    push_cast
    rfl

theorem semtechTimeOnAir_eq (hsf : 6 ≤ sf) : semtechTimeOnAir sf bw cr len =
    (49 + 4 * (8 + airtimeBlocks sf bw len * cr) : Nat) * (2 ^ sf * 1000 : Nat) / (4 * bw : Nat) := by
  unfold semtechTimeOnAir
  dsimp only
  rw [semtech_blocks hsf]
  push_cast
  ring

theorem semtech_le_iff (h : AirtimeRange sf bw cr len) :
    semtechTimeOnAir sf bw cr len ≤ airtimeUs sf bw cr len ↔ 4 * bw ∣ 1000 * 2 ^ sf := by
  obtain ⟨hslow, -, hband, -, -⟩ := h
  have hbw : (0 : ℚ) < (4 * bw : Nat) := by exact_mod_cast (by omega : 0 < 4 * bw)
  rw [semtechTimeOnAir_eq hslow, airtimeUs_eq hslow, div_le_iff₀ hbw, airtimeSymbolUs, Nat.mul_comm 1000]
  norm_cast
  generalize 8 + airtimeBlocks sf bw len * cr = n
  generalize 2 ^ sf * 1000 = a
  constructor
  · intro hle
    have hs : bw * (a / bw) ≤ a := Nat.mul_div_le a bw
    have hp : 4 * (a / bw * 49 / 4) ≤ a / bw * 49 := Nat.mul_div_le _ _
    generalize a / bw = s at *
    generalize s * 49 / 4 = p at *
    have hexact : bw * s = a := by
      refine le_antisymm hs (Nat.le_of_mul_le_mul_left ?_ (by omega : 0 < 49 + 4 * n))
      nlinarith [Nat.mul_le_mul_left bw hp]
    have hpreamble : s * 49 ≤ 4 * p := by
      refine Nat.le_of_mul_le_mul_left ?_ hband
      rw [← hexact] at hle
      nlinarith
    obtain ⟨k, rfl⟩ : 4 ∣ s := by omega
    exact ⟨k, by rw [← hexact]; ring⟩
  · rintro ⟨k, rfl⟩
    have hsymbol : 4 * bw * k / bw = 4 * k := by
      rw [Nat.mul_assoc, Nat.mul_left_comm, Nat.mul_div_cancel_left _ hband]
    have hpreamble : 4 * k * 49 / 4 = 49 * k := by omega
    rw [hsymbol, hpreamble]
    exact le_of_eq (by ring)

end

/-- **The estimate against the formula**: the conversion to 32 bits loses nothing, and the estimate is at least the
formula exactly where the symbol time is a multiple of four microseconds. -/
theorem airtime_estimate_conservative {sf cr : UInt8} {bw : UInt16} {len : Nat}
    (h : AirtimeRange sf.toNat bw.toNat cr.toNat len) :
    ∃ us, radioAirtimeEstimate sf bw cr len = .ok us ∧ us.toNat = airtimeUs sf.toNat bw.toNat cr.toNat len ∧
      (semtechTimeOnAir sf.toNat bw.toNat cr.toNat len ≤ us.toNat ↔ 4 * bw.toNat ∣ 1000 * 2 ^ sf.toNat) := by
  have hus : (UInt32.ofNat (airtimeUs sf.toNat bw.toNat cr.toNat len)).toNat =
    airtimeUs sf.toNat bw.toNat cr.toNat len := by
    rw [UInt32.toNat_ofNat', Nat.mod_eq_of_lt (airtimeUs_lt h)]
  refine ⟨_, radioAirtimeEstimate_eq h, hus, ?_⟩
  rw [hus]
  exact semtech_le_iff h

theorem airtime_estimate_conservative_run :
    ∃ us, radioAirtimeEstimate 7 125 5 200 = .ok us ∧ us.toNat = airtimeUs 7 125 5 200 ∧
    (semtechTimeOnAir 7 125 5 200 ≤ us.toNat ↔ 4 * 125 ∣ 1000 * 2 ^ 7) :=
  @airtime_estimate_conservative 7 5 125 200 ⟨by decide, by decide, by decide, by decide, by decide⟩

/-- The estimate is below the formula of the data sheet. -/
theorem airtime_estimate_short :
    ¬∀ (sf cr : UInt8) (bw : UInt16) (len : Nat), AirtimeRange sf.toNat bw.toNat cr.toNat len →
    ∃ us, radioAirtimeEstimate sf bw cr len = .ok us ∧ semtechTimeOnAir sf.toNat bw.toNat cr.toNat len ≤ us.toNat := by
  intro hall
  have hrange : AirtimeRange (UInt8.toNat 7) (UInt16.toNat 300) (UInt8.toNat 5) 20 :=
    ⟨by decide, by decide, by decide, by decide, by decide⟩
  obtain ⟨us, hus, hle⟩ := hall 7 5 300 20 hrange
  rw [radioAirtimeEstimate_eq hrange] at hus
  obtain rfl := Except.ok.inj hus
  rw [UInt32.toNat_ofNat', Nat.mod_eq_of_lt (airtimeUs_lt hrange)] at hle
  exact absurd ((semtech_le_iff hrange).mp hle) (by decide)

end Melodi
