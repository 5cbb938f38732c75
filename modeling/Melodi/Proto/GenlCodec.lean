import Melodi.Proto.Genl

/-!
# What is written to netlink is what is read

The octets of a message are its two headers and then its attributes one after another, whoever wrote them. The parser
reads such octets as a fold over the list of attributes (`genlParse_stream`), and takes each of them that has the right
width, the right flags and a value it accepts.

* `genlBuild`, `genlParse_genlBuild` : so it does with what the builder wrote, for every order of the calls.
-/

namespace Melodi
open Lib
variable {a : Attribute} {o : ByteOrder} {m : GenlMessage} {puts : List (Attribute × Octets)}

/-! ## One attribute -/

def Attribute.wireType (a : Attribute) : UInt16 := if a.nested then a.type ||| NLA_F_NESTED else a.type

theorem Attribute.ofNumber_wireType (a : Attribute) :
    Attribute.ofNumber (a.wireType &&& NLA_TYPE_MASK).toNat = some a := by
  cases a <;> rfl

theorem Attribute.flags_wireType (a : Attribute) :
    a.wireType &&& ~~~NLA_TYPE_MASK = if a.nested then NLA_F_NESTED else 0 := by
  cases a <;> rfl

/-- The parser takes a value for an attribute: it has the right width, its length fits the header, and the attributes
inside a nested one are complete. -/
structure Attribute.Takes (o : ByteOrder) (a : Attribute) (value : Octets) : Prop where
  width : attributeWidth a value.length = true
  fits : 4 + value.length < 2 ^ 16
  inside : a.nested = true → validateNested o a value = .ok ()

theorem Attribute.takes_of_plain {value : Octets} (hplain : a.nested = false)
    (hwidth : attributeWidth a value.length = true) : a.Takes o value where
  width := hwidth
  fits := attributeWidth_fits hwidth hplain
  inside := fun hnested => absurd hnested (by rw [hplain]; decide)

theorem any_replicate_zero (n : Nat) : (List.replicate n (0 : UInt8)).any (· != 0) = false := by
  induction n with
  | zero => rfl
  | succ n ih => rw [List.replicate_succ, List.any_cons, ih]; rfl

theorem parseAttribute_takes {value : Octets} (htakes : a.Takes o value) (hnew : m.attributes a = none) (n : Nat) :
    parseAttribute o m ⟨a.wireType, value, List.replicate n 0⟩ =
      .ok { m with attributes := Function.update m.attributes a (some value) } := by
  have hhas : m.has a = false := by rw [GenlMessage.has, hnew]; rfl
  have hinside : (a.nested && !(validateNested o a value).toBool) = false := by
    cases hnested : a.nested with
    | false => rfl
    | true => rw [htakes.inside hnested]; rfl
  simp only [parseAttribute, Attribute.ofNumber_wireType, Attribute.flags_wireType, hhas, htakes.width, hinside,
    any_replicate_zero, bne_self_eq_false, Bool.not_true, Bool.or_self, Bool.false_eq_true, if_false]

/-! ## A stream -/

def putAttributes (o : ByteOrder) (puts : List (Attribute × Octets)) : Octets :=
  attributeStream o (puts.map fun p => (p.1.wireType, p.2))

structure GenlMessage.Lists (m : GenlMessage) (puts : List (Attribute × Octets)) : Prop where
  distinct : (puts.map Prod.fst).Nodup
  mem : ∀ a value, m.attributes a = some value ↔ (a, value) ∈ puts

theorem GenlMessage.lists_of_lookup (h : m.attributes = (puts.lookup ·)) (hdistinct : (puts.map Prod.fst).Nodup) :
    m.Lists puts where
  distinct := hdistinct
  mem := by
    intro a value
    rw [h]
    dsimp only
    clear h
    induction puts with
    | nil => simp
    | cons p puts ih =>
      obtain ⟨b, w⟩ := p
      rw [List.map_cons, List.nodup_cons] at hdistinct
      rw [List.lookup_cons, List.mem_cons, Prod.mk.injEq, ← ih hdistinct.2]
      by_cases hab : a = b
      · subst hab
        have hnone : puts.lookup a = none := List.lookup_eq_none_iff.mpr fun q hq => bne_iff_ne.mpr fun hqa =>
          hdistinct.1 (List.mem_map.mpr ⟨q, hq, hqa.symm⟩)
        simp only [beq_self_eq_true, Option.some.injEq, true_and, hnone, reduceCtorEq, or_false]
        exact eq_comm
      · simp only [beq_eq_false_iff_ne.mpr hab, hab, false_and, false_or]

def presentMask (as : List Attribute) : BitVec 64 :=
  Attribute.all.foldl (fun present a => if as.contains a then present ||| a.bit else present) 0

theorem GenlMessage.Lists.has (h : m.Lists puts) (a : Attribute) :
    m.has a = (puts.map Prod.fst).contains a := by
  rw [Bool.eq_iff_iff, GenlMessage.has, Option.isSome_iff_exists, List.contains_iff_mem, List.mem_map]
  constructor
  · rintro ⟨value, hvalue⟩
    exact ⟨(a, value), (h.mem a value).mp hvalue, rfl⟩
  · rintro ⟨⟨b, value⟩, hb, rfl⟩
    exact ⟨value, (h.mem b value).mpr hb⟩

theorem GenlMessage.Lists.present (h : m.Lists puts) :
    m.present = presentMask (puts.map Prod.fst) := by
  unfold GenlMessage.present presentMask
  simp only [h.has]

theorem GenlMessage.Lists.value (h : m.Lists puts) {value : Octets} (hput : (a, value) ∈ puts) : m.value a = value := by
  rw [GenlMessage.value, (h.mem a value).mpr hput]
  rfl

def GenlMessage.bare (m : GenlMessage) : GenlMessage := { m with attributes := fun _ => none }

theorem GenlMessage.ext_of_bare {m' : GenlMessage} (hbare : m.bare = m'.bare)
    (h : ∀ a, m.attributes a = m'.attributes a) : m = m' := by
  cases m
  cases m'
  simp only [GenlMessage.bare, GenlMessage.mk.injEq, and_true] at hbare
  obtain ⟨rfl, rfl, rfl, rfl, rfl⟩ := hbare
  rw [GenlMessage.mk.injEq]
  exact ⟨rfl, rfl, rfl, rfl, rfl, funext h⟩

theorem foldlM_parseAttribute (htakes : ∀ p ∈ puts, p.1.Takes o p.2) (hdistinct : (puts.map Prod.fst).Nodup)
    (m : GenlMessage) (hnew : ∀ p ∈ puts, m.attributes p.1 = none) :
    ∃ m', (puts.map fun p => (p.1.wireType, p.2)).foldlM (fun m a =>
        parseAttribute o m ⟨a.1, a.2, List.replicate (aligned (4 + a.2.length) - (4 + a.2.length)) 0⟩) m = .ok m' ∧
      m'.bare = m.bare ∧ ∀ a value, m'.attributes a = some value ↔ m.attributes a = some value ∨ (a, value) ∈ puts := by
  induction puts generalizing m with
  | nil => exact ⟨m, rfl, rfl, by simp⟩
  | cons p puts ih =>
    obtain ⟨a, value⟩ := p
    rw [List.map_cons, List.nodup_cons] at hdistinct
    have hpass := parseAttribute_takes (htakes _ List.mem_cons_self) (hnew _ List.mem_cons_self)
      (aligned (4 + value.length) - (4 + value.length))
    obtain ⟨m', hfold, hbare, hattributes⟩ := ih (fun q hq => htakes q (List.mem_cons_of_mem _ hq)) hdistinct.2
      { m with attributes := Function.update m.attributes a (some value) } (fun q hq => by
        have hne : q.1 ≠ a := fun h => hdistinct.1 (List.mem_map.mpr ⟨q, hq, h⟩)
        exact (Function.update_of_ne hne _ _).trans (hnew q (List.mem_cons_of_mem _ hq)))
    refine ⟨m', ?_, hbare, fun b w => ?_⟩
    · rw [List.map_cons, List.foldlM_cons, hpass]
      exact hfold
    rw [hattributes, List.mem_cons, Prod.mk.injEq]
    by_cases hb : b = a
    · subst hb
      have hold := hnew _ List.mem_cons_self
      simp only [Function.update_self, Option.some.injEq, hold, reduceCtorEq, false_or, true_and]
      exact or_congr eq_comm Iff.rfl
    · simp only [Function.update_of_ne hb, hb, false_and, false_or]

def GenlMessage.octets (o : ByteOrder) (m : GenlMessage) (stream : Octets) : Octets :=
  genlHeader o (UInt32.ofNat (GENL_HEADER + stream.length)) m.family m.flags m.sequence m.portid m.command.code ++
    stream

theorem genlParse_stream (o : ByteOrder) (m : GenlMessage) {items : List (UInt16 × Octets)}
    (hfits : ∀ a ∈ items, 4 + a.2.length < 2 ^ 16)
    (hlength : GENL_HEADER + (attributeStream o items).length ≤ U32_MAX) :
    genlParse o (m.octets o (attributeStream o items)) = (do
      let m' ← items.foldlM (fun m a =>
        parseAttribute o m ⟨a.1, a.2, List.replicate (aligned (4 + a.2.length) - (4 + a.2.length)) 0⟩) m.bare
      validateSchema o m'
      return m') := by
  rw [← foldAttributes_stream o .EPROTO (parseAttribute o) hfits]
  generalize attributeStream o items = stream at hlength ⊢
  have hheader := length_genlHeader o (UInt32.ofNat (GENL_HEADER + stream.length)) m.family m.flags m.sequence m.portid
    m.command.code
  have hlen : (m.octets o stream).length = GENL_HEADER + stream.length := by
    rw [GenlMessage.octets, List.length_append, hheader]
  have hword : (o.get32 (m.octets o stream)).toNat = GENL_HEADER + stream.length := by
    simp only [GenlMessage.octets, genlHeader, List.append_assoc, ByteOrder.get32_put32, UInt32.toNat_ofNat']
    exact Nat.mod_eq_of_lt (by simp only [U32_MAX] at hlength; omega)
  -- every field stands behind fields of fixed length
  have hfields : o.get16 ((m.octets o stream).drop 4) = m.family ∧ o.get16 ((m.octets o stream).drop 6) = m.flags ∧
      o.get32 ((m.octets o stream).drop 8) = m.sequence ∧ o.get32 ((m.octets o stream).drop 12) = m.portid ∧
      (m.octets o stream).drop 16 = [m.command.code, GENL_VERSION] ++ (o.put16 0 ++ stream) := by
    simp only [GenlMessage.octets, genlHeader, List.append_assoc]
    refine ⟨?_, ?_, ?_, ?_, ?_⟩
    · rw [List.drop_left' (ByteOrder.length_put32 o _), ByteOrder.get16_put16]
    · rw [← List.append_assoc, List.drop_left' (by simp), ByteOrder.get16_put16]
    · rw [← List.append_assoc, ← List.append_assoc, List.drop_left' (by simp), ByteOrder.get32_put32]
    · rw [← List.append_assoc, ← List.append_assoc, ← List.append_assoc,
        List.drop_left' (by simp), ByteOrder.get32_put32]
    · rw [← List.append_assoc, ← List.append_assoc, ← List.append_assoc, ← List.append_assoc, List.drop_left' (by simp)]
  obtain ⟨hfamily, hflags, hsequence, hportid, hrest⟩ := hfields
  have hcommand : (m.octets o stream).getD 16 0 = m.command.code := by
    rw [List.getD_eq_getElem?_getD, show 16 = 16 + 0 from rfl, ← List.getElem?_drop, hrest]
    rfl
  have hversion : (m.octets o stream).getD 17 0 = GENL_VERSION := by
    rw [List.getD_eq_getElem?_getD, show 17 = 16 + 1 from rfl, ← List.getElem?_drop, hrest]
    rfl
  have hreserved : o.get16 ((m.octets o stream).drop 18) = 0 := by
    rw [show 18 = 16 + 2 from rfl, ← List.drop_drop, hrest]
    exact ByteOrder.get16_put16 o 0 stream
  have hstart : (m.octets o stream).drop GENL_HEADER = stream := List.drop_left' hheader
  unfold genlParse
  rw [if_neg (by omega), if_neg (by rw [hword, hlen]; exact fun h => h rfl), hcommand, Command.ofCode_code]
  dsimp only
  rw [if_neg (by rw [hversion, hreserved]; simp), hstart, hfamily, hflags, hsequence, hportid]
  rfl

theorem length_le_of_nodup {as : List Attribute} (h : as.Nodup) : as.length ≤ 41 := by
  have hsub : as ⊆ Attribute.all := fun a _ => by cases a <;> decide
  exact (List.Nodup.subperm h hsub).length_le

theorem attributeStream_le {items : List (UInt16 × Octets)} (hfits : ∀ a ∈ items, 4 + a.2.length < 2 ^ 16)
    (hcount : items.length ≤ 2 ^ 15) : GENL_HEADER + (attributeStream o items).length ≤ U32_MAX := by
  have haligned : ∀ a ∈ items, aligned (4 + a.2.length) ≤ 2 ^ 16 := by
    intro a ha
    have hfit := hfits a ha
    unfold aligned
    omega
  have hlength := length_attributeStream_le o haligned
  simp only [GENL_HEADER, U32_MAX]
  omega

theorem putAttributes_le (htakes : ∀ p ∈ puts, p.1.Takes o p.2) (hdistinct : (puts.map Prod.fst).Nodup) :
    GENL_HEADER + (putAttributes o puts).length ≤ U32_MAX := by
  have hcount := length_le_of_nodup hdistinct
  rw [List.length_map] at hcount
  refine attributeStream_le (fun a ha => ?_) (by rw [List.length_map]; omega)
  obtain ⟨p, hp, rfl⟩ := List.mem_map.mp ha
  exact (htakes p hp).fits

theorem genlParse_lists (hputs : m.Lists puts) (htakes : ∀ p ∈ puts, p.1.Takes o p.2) :
    genlParse o (m.octets o (putAttributes o puts)) = (validateSchema o m).map fun _ => m := by
  obtain ⟨m', hfold, hbare, hattributes⟩ := foldlM_parseAttribute htakes hputs.distinct m.bare fun _ _ => rfl
  obtain rfl : m' = m := GenlMessage.ext_of_bare hbare fun a => Option.ext fun value => by
    rw [hattributes, hputs.mem]
    simp [GenlMessage.bare]
  rw [putAttributes, genlParse_stream o m' (fun a ha => by
    obtain ⟨p, hp, rfl⟩ := List.mem_map.mp ha
    exact (htakes p hp).fits) (putAttributes_le htakes hputs.distinct), hfold]
  change (validateSchema o m' >>= fun _ => pure m') = _
  cases validateSchema o m' <;> rfl

/-! ## The builder -/

theorem GenlBuilder.length_octets (b : GenlBuilder) : b.octets.length = b.length := by
  rw [GenlBuilder.octets, List.length_take]
  exact Nat.min_eq_left b.room

theorem genlBegin_ok (o : ByteOrder) {buffer : Octets} (family flags : UInt16) (sequence portid : UInt32)
    (command : Command) (h : GENL_HEADER ≤ buffer.length) :
    ∃ b, genlBegin o buffer family flags sequence portid command.code = .ok b ∧ b.data.length = buffer.length ∧
      b.octets = genlHeader o (UInt32.ofNat GENL_HEADER) family flags sequence portid command.code := by
  have hvalid : commandValid command.code = true := by rw [commandValid, Command.ofCode_code]; rfl
  have hheader := length_genlHeader o (UInt32.ofNat GENL_HEADER) family flags sequence portid command.code
  refine ⟨_, dif_neg (by rw [hvalid]; simp only [Bool.true_eq_false, or_false]; omega), ?_, ?_⟩
  · dsimp only
    rw [length_splice (by rw [hheader, List.length_replicate]; omega), List.length_replicate]
  dsimp only [GenlBuilder.octets]
  generalize genlHeader o _ family flags sequence portid command.code = header at hheader ⊢
  rw [← hheader, ← Nat.zero_add header.length, take_splice (Nat.zero_le _), List.take_zero, List.nil_append]

theorem genlPut_ok (o : ByteOrder) {b : GenlBuilder} {value : Octets} (hwidth : attributeWidth a value.length = true)
    (hroom : b.length + aligned (4 + value.length) ≤ b.data.length) :
    ∃ b', genlPut o b a.type value = .ok b' ∧ b'.data.length = b.data.length ∧
      b'.octets = b.octets ++ putAttribute o a.type value := by
  have hlength := length_putAttribute o a.type value
  unfold genlPut
  rw [Attribute.ofNumber_type]
  refine ⟨_, dif_neg (by rw [hwidth]; simp only [Bool.true_eq_false, false_or]; omega), ?_, ?_⟩
  · exact length_splice (by omega)
  · dsimp only [GenlBuilder.octets]
    rw [← hlength, take_splice b.room]

theorem genlPut_foldlM (o : ByteOrder) (hplain : ∀ p ∈ puts, p.1.nested = false)
    (hwidth : ∀ p ∈ puts, attributeWidth p.1 p.2.length = true) (b : GenlBuilder)
    (hroom : b.length + (puts.map fun p => aligned (4 + p.2.length)).sum ≤ b.data.length) :
    ∃ b', puts.foldlM (fun b p => genlPut o b p.1.type p.2) b = .ok b' ∧ b'.octets = b.octets ++
    putAttributes o puts := by
  induction puts generalizing b with
  | nil => exact ⟨b, rfl, (List.append_nil _).symm⟩
  | cons p puts ih =>
    rw [List.map_cons, List.sum_cons] at hroom
    obtain ⟨b₁, hput, hdata, hoctets⟩ := genlPut_ok o (hwidth p List.mem_cons_self) (b := b) (by omega)
    have hlength : b₁.length = b.length + aligned (4 + p.2.length) := by
      rw [← b₁.length_octets, hoctets, List.length_append, b.length_octets, length_putAttribute]
    obtain ⟨b', hfold, hrest⟩ := ih (fun q hq => hplain q (List.mem_cons_of_mem _ hq))
      (fun q hq => hwidth q (List.mem_cons_of_mem _ hq)) b₁ (by omega)
    have htype : p.1.wireType = p.1.type := by rw [Attribute.wireType, hplain p List.mem_cons_self]; rfl
    refine ⟨b', ?_, ?_⟩
    · rw [List.foldlM_cons, hput]
      exact hfold
    · rw [hrest, hoctets, List.append_assoc, ← htype]
      rfl

theorem genlEnd_ok (o : ByteOrder) {b : GenlBuilder} (h : b.length ≤ U32_MAX) :
    ∃ b', genlEnd o b = .ok b' ∧ b'.octets = o.put32 (UInt32.ofNat b.length) ++ b.octets.drop 4 := by
  refine ⟨_, if_neg (by omega), ?_⟩
  have hheader : 20 ≤ b.length := b.header
  have hroom := b.room
  simp only [GenlBuilder.octets, splice, List.take_zero, List.nil_append, ByteOrder.length_put32, Nat.zero_add]
  rw [List.take_append, ByteOrder.length_put32, List.take_of_length_le (by rw [ByteOrder.length_put32]; omega),
    List.drop_take]

def genlBuild (o : ByteOrder) (buffer : Octets) (family flags : UInt16) (sequence portid : UInt32) (command : UInt8)
    (puts : List (Attribute × Octets)) : Except Errno Octets := do
  let b ← genlBegin o buffer family flags sequence portid command
  let b ← puts.foldlM (fun b p => genlPut o b p.1.type p.2) b
  let b ← genlEnd o b
  return b.octets

theorem genlBuild_ok (o : ByteOrder) {buffer : Octets} (m : GenlMessage) (hplain : ∀ p ∈ puts, p.1.nested = false)
    (hwidth : ∀ p ∈ puts, attributeWidth p.1 p.2.length = true) (hdistinct : (puts.map Prod.fst).Nodup)
    (hcapacity : GENL_HEADER + (puts.map fun p => aligned (4 + p.2.length)).sum ≤ buffer.length) :
    genlBuild o buffer m.family m.flags m.sequence m.portid m.command.code puts =
    .ok (m.octets o (putAttributes o puts)) := by
  obtain ⟨b₁, hbegin, hdata, hheader⟩ := genlBegin_ok o m.family m.flags m.sequence m.portid m.command
    (Nat.le_trans (Nat.le_add_right _ _) hcapacity)
  have hlength₁ : b₁.length = GENL_HEADER := by rw [← b₁.length_octets, hheader, length_genlHeader]
  obtain ⟨b₂, hputs, hoctets⟩ := genlPut_foldlM o hplain hwidth b₁ (by omega)
  have hlength₂ : b₂.length = GENL_HEADER + (putAttributes o puts).length := by
    rw [← b₂.length_octets, hoctets, List.length_append, b₁.length_octets, hlength₁]
  obtain ⟨b₃, hend, hlast⟩ := genlEnd_ok o (b := b₂) (by
    rw [hlength₂]
    exact putAttributes_le (fun p hp => Attribute.takes_of_plain (hplain p hp) (hwidth p hp)) hdistinct)
  have hbuild : genlBuild o buffer m.family m.flags m.sequence m.portid m.command.code puts = .ok b₃.octets := by
    simp only [genlBuild, hbegin, hputs, hend, bind, Except.bind, pure, Except.pure]
  rw [hbuild, hlast, hoctets, hheader, hlength₂, GenlMessage.octets]
  -- the header of `melodi_genl_begin` differs in the length field only
  simp only [genlHeader, List.append_assoc]
  rw [List.drop_left' (ByteOrder.length_put32 o _)]

/-- What the builder writes, in whatever order of the attributes, the parser accepts as the same command with the same
values. -/
theorem genlParse_genlBuild (o : ByteOrder) (buffer : Octets) (m : GenlMessage) (puts : List (Attribute × Octets))
    (hputs : m.Lists puts) (hplain : ∀ p ∈ puts, p.1.nested = false)
    (hwidth : ∀ p ∈ puts, attributeWidth p.1 p.2.length = true) (hschema : validateSchema o m = .ok ())
    (hcapacity : GENL_HEADER + (puts.map fun p => aligned (4 + p.2.length)).sum ≤ buffer.length) :
    ∃ bytes, genlBuild o buffer m.family m.flags m.sequence m.portid m.command.code puts = .ok bytes ∧
      genlParse o bytes = .ok m := by
  refine ⟨_, genlBuild_ok o m hplain hwidth hputs.distinct hcapacity, ?_⟩
  rw [genlParse_lists hputs fun p hp => Attribute.takes_of_plain (hplain p hp) (hwidth p hp), hschema]
  rfl

def sendPuts : List (Attribute × Octets) :=
  [(.PAYLOAD, [7, 8, 9]), (.DEST_SERVICE, [1, 2]), (.TTL_MS, [100, 0, 0, 0]), (.DEST_NODE, List.replicate 33 5)]

def sendRequest : GenlMessage :=
  { family := 21, flags := 5, sequence := 3, portid := 4711, command := .SEND, attributes := (sendPuts.lookup ·) }

theorem genlParse_genlBuild_send :
    ∃ bytes, genlBuild .little (List.replicate 128 255) 21 5 3 4711 3 sendPuts = .ok bytes ∧
      genlParse .little bytes = .ok sendRequest :=
  genlParse_genlBuild .little (List.replicate 128 255) sendRequest sendPuts
    (GenlMessage.lists_of_lookup rfl (by decide)) (by decide) (by decide) (by decide +kernel) (by decide +kernel)

end Melodi
