import Melodi.Core.Identity
import Melodi.Proto.NodeText

/-!
# The two checks of a NodeId (`main.c`, `nodeid.c`)

A NodeId is checked by the kernel (`nodeIdValid`) and by the programs that read or print one (`nodeidValidate`). Both
are meant to accept the Ed25519 keys that are the canonical encoding of a point of prime order.

* `nodeIdValid_agrees_iff` : the kernel and the programs agree on a NodeId exactly when its key is not below the prime
or passes the check of the point.
-/

namespace Melodi
variable {n : Nat} {node : NodeId} {P : Platform}

/-! ## The number a key stands for -/

def leNat (octets : Octets) : Nat → Nat
  | 0 => 0
  | n + 1 => leNat octets n + (octets.getD n 0).toNat * 256 ^ n

theorem leNat_lt (octets : Octets) (n : Nat) : leNat octets n < 256 ^ n := by
  induction n with
  | zero => exact Nat.one_pos
  | succ n ih =>
    have hoctet : (octets.getD n 0).toNat ≤ 255 := Nat.le_of_lt_succ (octets.getD n 0).toNat_lt
    have hmul := Nat.mul_le_mul_right (256 ^ n) hoctet
    rw [leNat, pow_succ]
    omega

theorem leNat_lt_of_octet {a b : Octets} (h : a.getD n 0 < b.getD n 0) : leNat a (n + 1) < leNat b (n + 1) := by
  have hoctet : (a.getD n 0).toNat + 1 ≤ (b.getD n 0).toNat := h
  have hmul := Nat.mul_le_mul_right (256 ^ n) hoctet
  have ha := leNat_lt a n
  rw [leNat, leNat]
  rw [Nat.add_mul, Nat.one_mul] at hmul
  omega

theorem keyBelowPrime_eq (encoded : Octets) (n : Nat) :
    keyBelowPrime encoded n =
      if leNat encoded n < leNat NODE_KEY_PRIME n then some true
      else if leNat NODE_KEY_PRIME n < leNat encoded n then some false
      else none := by
  induction n with
  | zero => rfl
  | succ n ih =>
    rw [keyBelowPrime]
    by_cases hlt : encoded.getD n 0 < NODE_KEY_PRIME.getD n 0
    · rw [if_pos hlt, if_pos (leNat_lt_of_octet hlt)]
    by_cases hgt : NODE_KEY_PRIME.getD n 0 < encoded.getD n 0
    · have := leNat_lt_of_octet hgt
      rw [if_neg hlt, if_pos hgt, if_neg (by omega), if_pos this]
    have heq : encoded.getD n 0 = NODE_KEY_PRIME.getD n 0 :=
      UInt8.le_antisymm (UInt8.not_lt.mp hgt) (UInt8.not_lt.mp hlt)
    rw [if_neg hlt, if_neg hgt, ih, leNat, leNat, heq]
    simp only [Nat.add_lt_add_iff_right]

theorem leNat_prime : leNat NODE_KEY_PRIME NODE_KEY_SIZE = 2 ^ 255 - 19 := by decide +kernel

def nodeKey (node : NodeId) : Octets := (node.drop 1).take NODE_KEY_SIZE

def keyCoordinate (key : Octets) : Nat := leNat (key.set 31 (key.getD 31 0 &&& 0x7f)) NODE_KEY_SIZE

/-! ## The check outside the kernel -/

/-- `libsodium` as the programs use it: whether `sodium_init` succeeds, and `crypto_core_ed25519_is_valid_point`. -/
structure Sodium where
  initialized : Bool
  isValidPoint : Octets → Bool

def Sodium.keyValid (sodium : Sodium) (key : Octets) : Bool := sodium.initialized && sodium.isValidPoint key

/-- The two libraries decide one predicate on keys, that of the canonical encodings of points of prime order: a
canonical coordinate is below the field prime, the key `0` encodes a point of order four and the key `1` the
identity. -/
structure PointCheck (P : Platform) (sodium : Sodium) : Prop where
  ready : sodium.initialized = true
  same : ∀ key, key.length = NODE_KEY_SIZE → sodium.isValidPoint key = P.publicKeyCheck key
  canonical : ∀ key, P.publicKeyCheck key = true → keyCoordinate key < 2 ^ 255 - 19
  zero : P.publicKeyCheck (List.replicate NODE_KEY_SIZE 0) = false
  identity : P.publicKeyCheck (1 :: List.replicate 31 0) = false

/-! ## Where they agree -/

/-- The kernel accepts only keys that pass the check, and exactly the NodeIds the programs accept. -/
def KernelAgrees (P : Platform) (sodium : Sodium) (node : NodeId) : Prop :=
  (nodeIdValid P node = true →
    node.getD 0 0 = NODE_ID_SCHEME_ED25519 ∧ P.publicKeyCheck (nodeKey node) = true) ∧
  (nodeIdValid P node = true ↔ nodeidValidate sodium.keyValid node = .ok ())

/-- A platform that knows one key of prime order. What it accepts `crypto_eddsa_public_key_check` accepts, and both
refuse the identity, the key `0` and the key of 32 octets `7`, which is no point of the curve. -/
def Platform.points : Platform := { Platform.plain with publicKeyCheck := fun key => key = ED25519_BASE }

def Sodium.points : Sodium := ⟨true, Platform.points.publicKeyCheck⟩

theorem pointCheck_points : PointCheck Platform.points Sodium.points where
  ready := rfl
  same := fun _ _ => rfl
  canonical := by
    intro key hkey
    rw [of_decide_eq_true hkey]
    decide +kernel
  zero := by decide +kernel
  identity := by decide +kernel

theorem all_eq_iff {octets : Octets} (value : UInt8) (h : octets.length = n) :
    octets.all (· = value) = true ↔ octets = List.replicate n value := by
  rw [List.eq_replicate_iff]
  simp [h]

theorem length_nodeKey (h : node.length = 33) : (nodeKey node).length = NODE_KEY_SIZE := by
  simp [nodeKey, h, NODE_KEY_SIZE]

theorem nodeIdValid_iff (h : node.length = 33) :
    nodeIdValid P node = true ↔ node.getD 0 0 = NODE_ID_SCHEME_ED25519 ∧
      nodeKey node ≠ List.replicate NODE_KEY_SIZE 0 ∧ nodeKey node ≠ List.replicate NODE_KEY_SIZE 0xff ∧
      (keyCoordinate (nodeKey node) < 2 ^ 255 - 19 ∨
        keyCoordinate (nodeKey node) = 2 ^ 255 - 19 ∧ P.publicKeyCheck (nodeKey node) = true) := by
  have hlen := length_nodeKey h
  have hzero := all_eq_iff 0 hlen
  have hones := all_eq_iff 0xff hlen
  unfold nodeIdValid
  rw [show (node.drop 1).take NODE_KEY_SIZE = nodeKey node from rfl]
  simp only [keyBelowPrime_eq, leNat_prime, ← keyCoordinate.eq_def]
  by_cases hscheme : node.getD 0 0 = NODE_ID_SCHEME_ED25519
  · rw [if_neg (by simpa using hscheme)]
    simp only [Bool.or_eq_true, hzero, hones]
    split_ifs with huniform hlt hgt
    · exact iff_of_false (by simp) fun hk => huniform.elim hk.2.1 hk.2.2.1
    · push Not at huniform
      exact iff_of_true rfl ⟨hscheme, huniform.1, huniform.2, .inl hlt⟩
    · refine iff_of_false Bool.false_ne_true fun hk => ?_
      rcases hk.2.2.2 with hbelow | ⟨heq, -⟩
      · exact hlt hbelow
      · exact absurd hgt (by omega)
    · push Not at huniform
      have heq : keyCoordinate (nodeKey node) = 2 ^ 255 - 19 := by omega
      exact ⟨fun hpoint => ⟨hscheme, huniform.1, huniform.2, .inr ⟨heq, hpoint⟩⟩,
        fun hk => (hk.2.2.2.resolve_left hlt).2⟩
  · rw [if_pos (by simpa using hscheme)]
    exact iff_of_false Bool.false_ne_true fun hk => hscheme hk.1

theorem nodeidValidate_ok_iff {sodium : Sodium} (hc : PointCheck P sodium) (h : node.length = 33) :
    nodeidValidate sodium.keyValid node = .ok () ↔
      node.getD 0 0 = NODE_ID_SCHEME_ED25519 ∧ P.publicKeyCheck (nodeKey node) = true := by
  have hkey : node.drop 1 = nodeKey node := (List.take_of_length_le (by simp [h, NODE_KEY_SIZE])).symm
  unfold nodeidValidate Sodium.keyValid
  rw [hkey, hc.ready, hc.same _ (length_nodeKey h), Bool.true_and]
  -- a uniform NodeId has another scheme
  have huniform : (node.all (· = 0) ∨ node.all (· = 0xff)) → node.getD 0 0 ≠ NODE_ID_SCHEME_ED25519 := by
    rw [all_eq_iff _ h, all_eq_iff _ h]
    rintro (rfl | rfl) <;> decide
  split_ifs with hu hs hk
  · exact iff_of_false nofun fun hok => huniform hu hok.1
  · exact iff_of_false nofun fun hok => hs hok.1
  · exact iff_of_false nofun fun hok => by simp [hok.2] at hk
  · exact iff_of_true rfl ⟨not_not.mp hs, Bool.not_eq_false _ ▸ hk⟩

/-- The kernel and the programs agree on a NodeId exactly when its key is not below the prime or passes the check of
the point. -/
theorem nodeIdValid_agrees_iff {P : Platform} {sodium : Sodium} (hc : PointCheck P sodium) {node : NodeId}
    (h : node.length = 33) :
    KernelAgrees P sodium node ↔
      (node.getD 0 0 = NODE_ID_SCHEME_ED25519 → nodeKey node ≠ List.replicate NODE_KEY_SIZE 0 →
        keyCoordinate (nodeKey node) < 2 ^ 255 - 19 → P.publicKeyCheck (nodeKey node) = true) := by
  have hones : keyCoordinate (List.replicate NODE_KEY_SIZE 0xff) = 2 ^ 255 - 1 := by decide +kernel
  unfold KernelAgrees
  rw [nodeIdValid_iff h, nodeidValidate_ok_iff hc h]
  constructor
  · rintro ⟨honly, -⟩ hscheme hzero hbelow
    refine (honly ⟨hscheme, hzero, fun heq => ?_, .inl hbelow⟩).2
    rw [heq, hones] at hbelow
    omega
  · intro hchecked
    have honly : node.getD 0 0 = NODE_ID_SCHEME_ED25519 ∧ nodeKey node ≠ List.replicate NODE_KEY_SIZE 0 ∧
        nodeKey node ≠ List.replicate NODE_KEY_SIZE 0xff ∧ (keyCoordinate (nodeKey node) < 2 ^ 255 - 19 ∨
          keyCoordinate (nodeKey node) = 2 ^ 255 - 19 ∧ P.publicKeyCheck (nodeKey node) = true) →
        node.getD 0 0 = NODE_ID_SCHEME_ED25519 ∧ P.publicKeyCheck (nodeKey node) = true := by
      rintro ⟨hscheme, hzero, -, hbelow | ⟨-, hpoint⟩⟩
      · exact ⟨hscheme, hchecked hscheme hzero hbelow⟩
      · exact ⟨hscheme, hpoint⟩
    refine ⟨honly, honly, fun ⟨hscheme, hpoint⟩ => ?_⟩
    have hbelow := hc.canonical _ hpoint
    refine ⟨hscheme, fun heq => ?_, fun heq => ?_, .inl hbelow⟩
    · rw [heq, hc.zero] at hpoint
      cases hpoint
    · rw [heq, hones] at hbelow
      omega

theorem nodeIdValid_agrees_base :
    KernelAgrees Platform.points Sodium.points (1 :: ED25519_BASE) ∧
    nodeIdValid Platform.points (1 :: ED25519_BASE) = true ∧
    ¬KernelAgrees Platform.points Sodium.points (1 :: List.replicate 32 7) := by
  refine ⟨(nodeIdValid_agrees_iff pointCheck_points rfl).mpr fun _ _ _ => by decide +kernel, by decide +kernel, ?_⟩
  rw [nodeIdValid_agrees_iff pointCheck_points rfl]
  decide +kernel

/-- The kernel accepts the encoding of the identity, which the programs refuse. -/
theorem nodeIdValid_accepts_identity :
    PointCheck Platform.points Sodium.points ∧
    nodeIdValid Platform.points (1 :: 1 :: List.replicate 31 0) = true ∧
    Platform.points.publicKeyCheck (nodeKey (1 :: 1 :: List.replicate 31 0)) = false ∧
    nodeidValidate Sodium.points.keyValid (1 :: 1 :: List.replicate 31 0) = .error .KEY ∧
    ¬KernelAgrees Platform.points Sodium.points (1 :: 1 :: List.replicate 31 0) := by
  have hvalid : nodeIdValid Platform.points (1 :: 1 :: List.replicate 31 0) = true := by decide +kernel
  have hpoint : Platform.points.publicKeyCheck (nodeKey (1 :: 1 :: List.replicate 31 0)) = false := by decide +kernel
  refine ⟨pointCheck_points, hvalid, hpoint, by decide +kernel, fun hagrees => ?_⟩
  have := (hagrees.1 hvalid).2
  rw [hpoint] at this
  cases this

end Melodi
