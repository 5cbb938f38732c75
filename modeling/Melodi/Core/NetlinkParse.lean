import Melodi.Core.Netlink
import Melodi.Proto.GenlCodec

/-!
# The messages of the kernel parse

The octets of a message are its headers and a stream of the attributes its calls wrote, a nested one holding a stream
of its own (`genlMessage_octets`). The parser passes over a padding attribute inside a nested one, but not between the
attributes of the message.

* `kernelMessages_parse` : a message is read as it was written unless it is an entry of the peer dump with padding.
-/

namespace Melodi
open Lib
variable {a outer : Attribute} {o : ByteOrder} {command : Command} {info : GenlInfo} {calls : List GenlCall}
  {cs : List NlaCall} {v : NetlinkView} {skb skb' : Skb} {ifindex : UInt32} {w : Written}
variable {c : NlaCall} {service : UInt16} {p : Peer} {seen : PeerObservation} {text : Octets}

/-! ## What the calls write -/

theorem Except.ok_of_bind {ε α β : Type} {x : Except ε α} {f : α → Except ε β} {b : β} (h : x >>= f = .ok b) :
    ∃ a, x = .ok a ∧ f a = .ok b := by
  cases x with
  | error e => exact nomatch h
  | ok a => exact ⟨a, rfl, h⟩

section
variable (h : NlaHost)

def placedInside : Nat → List NlaCall → List (Nat × NlaCall)
  | _, [] => []
  | n, c :: cs => (n, c) :: placedInside (n + (attributeStream h.order (c.items h n)).length) cs

def insideItems (n : Nat) (cs : List NlaCall) : List (UInt16 × Octets) :=
  (placedInside h n cs).flatMap fun p => p.2.items h p.1

def GenlCall.attr : GenlCall → Attribute
  | put a _ | putU64 a _ _ | nest a _ => a

def GenlCall.value (n : Nat) : GenlCall → Octets
  | put _ value => value
  | putU64 _ value _ => h.order.put64 value
  | nest _ inside => attributeStream h.order (insideItems h (n + 4) inside)

def GenlCall.padding (n : Nat) : GenlCall → List (UInt16 × Octets)
  | putU64 _ _ padding => if h.pads n then [(padding, [])] else []
  | _ => []

def GenlCall.Kind : GenlCall → Prop
  | put a _ | putU64 a _ _ => a.nested = false
  | nest a _ => a.nested = true

def GenlCall.items (n : Nat) (c : GenlCall) : List (UInt16 × Octets) :=
  c.padding h n ++ [(c.attr.wireType, c.value h n)]

def placed : Nat → List GenlCall → List (Nat × GenlCall)
  | _, [] => []
  | n, c :: cs => (n, c) :: placed (n + (attributeStream h.order (c.items h n)).length) cs

def genlItems (n : Nat) (cs : List GenlCall) : List (UInt16 × Octets) :=
  (placed h n cs).flatMap fun p => p.2.items h p.1

theorem placed_map (n : Nat) (cs : List GenlCall) : (placed h n cs).map Prod.snd = cs := by
  induction cs generalizing n with
  | nil => rfl
  | cons c cs ih => rw [placed, List.map_cons, ih]

variable {h}

theorem Skb.put_ok {bytes : Octets} (hput : skb.put bytes = .ok skb') : skb'.octets = skb.octets ++ bytes := by
  unfold Skb.put at hput
  split_ifs at hput
  rw [← Except.ok.inj hput]

theorem nlaCall_ok (hcall : nlaCall h skb c = .ok skb') :
    skb'.octets = skb.octets ++ attributeStream h.order (c.items h skb.octets.length) := Skb.put_ok hcall

theorem foldlM_nlaCall_ok (hcalls : cs.foldlM (nlaCall h) skb = .ok skb') :
    skb'.octets = skb.octets ++ attributeStream h.order (insideItems h skb.octets.length cs) := by
  induction cs generalizing skb with
  | nil =>
    obtain rfl : skb = skb' := Except.ok.inj hcalls
    exact (List.append_nil _).symm
  | cons c cs ih =>
    rw [List.foldlM_cons] at hcalls
    obtain ⟨skb₁, hcall, hcalls⟩ := Except.ok_of_bind hcalls
    have hone := nlaCall_ok hcall
    rw [ih hcalls, hone, List.length_append, insideItems, insideItems, placedInside, List.flatMap_cons,
      attributeStream_append, List.append_assoc]

theorem genlCall_ok {c : GenlCall} (hkind : c.Kind) (hcall : genlCall h skb c = .ok skb') :
    skb'.octets = skb.octets ++ attributeStream h.order (c.items h skb.octets.length) := by
  cases c with
  | put a value | putU64 a value padding =>
    have htype : a.wireType = a.type := by rw [Attribute.wireType, show a.nested = false from hkind]; rfl
    rw [nlaCall_ok hcall, ← htype]
    rfl
  | nest a inside =>
    have htype :
      a.wireType = a.type ||| NLA_F_NESTED := by rw [Attribute.wireType, show a.nested = true from hkind]; rfl
    rw [genlCall] at hcall
    obtain ⟨skb₁, hstart, hcall⟩ := Except.ok_of_bind hcall
    obtain ⟨skb₂, hinside, hcall⟩ := Except.ok_of_bind hcall
    have hfirst : skb₁.octets = skb.octets ++ (h.order.put16 4 ++ h.order.put16 (a.type ||| NLA_F_NESTED)) := by
      rw [nlaCall_ok hstart]
      simp [NlaCall.items, attributeStream, putAttribute, aligned]
    have hlength₁ : skb₁.octets.length = skb.octets.length + 4 := by
      rw [hfirst]
      simp
    have hall := foldlM_nlaCall_ok hinside
    rw [hlength₁] at hall
    generalize hstream : attributeStream h.order (insideItems h (skb.octets.length + 4) inside) = stream at hall
    have hmod : stream.length % 4 = 0 := hstream ▸ length_attributeStream_mod _ _
    have hlength₂ : skb₂.octets.length - skb.octets.length = 4 + stream.length := by
      rw [hall, List.length_append, hlength₁]
      omega
    have hpad : aligned (4 + stream.length) - (4 + stream.length) = 0 := by
      unfold aligned
      omega
    rw [← Except.ok.inj hcall]
    dsimp only
    rw [hlength₂, hall, hfirst, List.append_assoc, List.append_assoc, splice_append _ _ (by simp)]
    change _ = skb.octets ++ attributeStream h.order
      [(a.wireType, attributeStream h.order (insideItems h (skb.octets.length + 4) inside))]
    rw [hstream, htype, attributeStream, List.flatMap_singleton, putAttribute, hpad, List.replicate_zero,
      List.append_nil, List.append_assoc]

theorem foldlM_genlCall_ok {cs : List GenlCall} (hkinds : ∀ c ∈ cs, c.Kind)
    (hcalls : cs.foldlM (genlCall h) skb = .ok skb') :
    skb'.octets = skb.octets ++ attributeStream h.order (genlItems h skb.octets.length cs) := by
  induction cs generalizing skb with
  | nil =>
    obtain rfl : skb = skb' := Except.ok.inj hcalls
    exact (List.append_nil _).symm
  | cons c cs ih =>
    rw [List.foldlM_cons] at hcalls
    obtain ⟨skb₁, hcall, hcalls⟩ := Except.ok_of_bind hcalls
    have hone := genlCall_ok (hkinds c List.mem_cons_self) hcall
    rw [ih (fun d hd => hkinds d (List.mem_cons_of_mem _ hd)) hcalls, hone, List.length_append, genlItems, genlItems,
      placed, List.flatMap_cons, attributeStream_append, List.append_assoc]

end

/-! ## One message -/

def Written.puts (h : NlaHost) (w : Written) : List (Attribute × Octets) :=
  (placed h (w.start + GENL_HEADER) w.calls).map fun p => (p.2.attr, p.2.value h p.1)

def Written.message (h : NlaHost) (w : Written) : GenlMessage :=
  { family := w.info.family, flags := w.info.flags, sequence := w.info.sequence, portid := w.info.portid,
    command := w.command, attributes := ((w.puts h).lookup ·) }

theorem genlMessage_steps {h : NlaHost} (hmessage : genlMessage h skb info command calls = .ok (skb', w)) :
    ∃ skb₁ skb₂, skb.put (genlHeader h.order (UInt32.ofNat GENL_HEADER) info.family info.flags info.sequence info.portid
        command.code) = .ok skb₁ ∧ calls.foldlM (genlCall h) skb₁ = .ok skb₂ ∧
      w = ⟨info, command, (splice skb₂.octets skb.octets.length (h.order.put32
        (UInt32.ofNat (skb₂.octets.length - skb.octets.length)))).drop skb.octets.length, skb.octets.length,
        calls⟩ := by
  rw [genlMessage] at hmessage
  obtain ⟨skb₁, hheader, hmessage⟩ := Except.ok_of_bind hmessage
  obtain ⟨skb₂, hcalls, hmessage⟩ := Except.ok_of_bind hmessage
  exact ⟨skb₁, skb₂, hheader, hcalls, (Prod.mk.inj (Except.ok.inj hmessage)).2.symm⟩

theorem genlMessage_octets {h : NlaHost} (hkinds : ∀ c ∈ calls, c.Kind)
    (hmessage : genlMessage h skb info command calls = .ok (skb', w)) :
    w.octets = (w.message h).octets h.order
    (attributeStream h.order (genlItems h (w.start + GENL_HEADER) w.calls)) := by
  obtain ⟨skb₁, skb₂, hheader, hcalls, rfl⟩ := genlMessage_steps hmessage
  have hfirst := Skb.put_ok hheader
  have hlength₁ : skb₁.octets.length = skb.octets.length + GENL_HEADER := by
    rw [hfirst, List.length_append, length_genlHeader]
  have hall := foldlM_genlCall_ok hkinds hcalls
  rw [hlength₁] at hall
  dsimp only [Written.message]
  generalize attributeStream h.order (genlItems h (skb.octets.length + GENL_HEADER) calls) = stream at hall
  have hlength₂ : skb₂.octets.length - skb.octets.length = GENL_HEADER + stream.length := by
    rw [hall, List.length_append, hlength₁]
    omega
  rw [hlength₂, hall, hfirst, List.append_assoc]
  simp only [genlHeader, GenlMessage.octets, List.append_assoc]
  rw [splice_append _ _ (by simp), List.drop_left' rfl]

def Written.padded (h : NlaHost) (w : Written) : Bool :=
  (placed h (w.start + GENL_HEADER) w.calls).any fun p => !(p.2.padding h p.1).isEmpty

structure GenlCall.Good (h : NlaHost) (c : GenlCall) : Prop where
  kind : c.Kind
  takes : ∀ n, c.attr.Takes h.order (c.value h n)
  padding : ∀ n, ∀ a ∈ c.padding h n, a = (0, [])

/-- The parser can take the message: the calls are good, no attribute is put twice, and the schema allows it. -/
structure Written.Sound (h : NlaHost) (w : Written) : Prop where
  good : ∀ c ∈ w.calls, c.Good h
  distinct : (w.calls.map GenlCall.attr).Nodup
  schema : validateSchema h.order (w.message h) = .ok ()

theorem Written.attrs_puts (h : NlaHost) (w : Written) : (w.puts h).map Prod.fst = w.calls.map GenlCall.attr := by
  rw [← placed_map h (w.start + GENL_HEADER) w.calls, Written.puts, List.map_map, List.map_map]
  rfl

theorem Written.lists {h : NlaHost} (hdistinct : (w.calls.map GenlCall.attr).Nodup) :
    (w.message h).Lists (w.puts h) := GenlMessage.lists_of_lookup rfl (by rw [w.attrs_puts]; exact hdistinct)

theorem Written.mem_calls {h : NlaHost} {p : Nat × GenlCall} (hp : p ∈ placed h (w.start + GENL_HEADER) w.calls) :
    p.2 ∈ w.calls := by
  rw [← placed_map h (w.start + GENL_HEADER) w.calls]
  exact List.mem_map_of_mem hp

theorem foldlM_parseAttribute_known {items : List (UInt16 × Octets)} {m m' : GenlMessage}
    (hfold : items.foldlM (fun m a =>
      parseAttribute o m ⟨a.1, a.2, List.replicate (aligned (4 + a.2.length) - (4 + a.2.length)) 0⟩) m = .ok m') :
    ∀ a ∈ items, Attribute.ofNumber (a.1 &&& NLA_TYPE_MASK).toNat ≠ none := by
  induction items generalizing m with
  | nil => exact fun _ ha => absurd ha List.not_mem_nil
  | cons b items ih =>
    rw [List.foldlM_cons] at hfold
    obtain ⟨m₁, hpass, hfold⟩ := Except.ok_of_bind hfold
    intro a ha
    rcases List.mem_cons.mp ha with rfl | ha
    · intro hnone
      simp only [parseAttribute, hnone, reduceCtorEq] at hpass
    · exact ih hfold a ha

theorem length_genlItems_le (h : NlaHost) (n : Nat) (cs : List GenlCall) :
    (genlItems h n cs).length ≤ 2 * cs.length := by
  induction cs generalizing n with
  | nil => exact Nat.le_refl 0
  | cons c cs ih =>
    have hone : (c.items h n).length ≤ 2 := by
      cases c with
      | put | nest => simp [GenlCall.items, GenlCall.padding]
      | putU64 a value padding =>
        rw [GenlCall.items, GenlCall.padding]
        split_ifs <;> simp
    have hrest := ih (n + (attributeStream h.order (c.items h n)).length)
    rw [genlItems] at hrest
    rw [genlItems, placed, List.flatMap_cons, List.length_append, List.length_cons]
    dsimp only
    omega

theorem Written.parse_iff {h : NlaHost} (hsound : w.Sound h) (hoctets : w.octets =
      (w.message h).octets h.order (attributeStream h.order (genlItems h (w.start + GENL_HEADER) w.calls))) :
    genlParse h.order w.octets = .ok (w.message h) ↔ w.padded h = false := by
  have htakes : ∀ p ∈ w.puts h, p.1.Takes h.order p.2 := by
    intro p hp
    obtain ⟨q, hq, rfl⟩ := List.mem_map.mp hp
    exact (hsound.good q.2 (w.mem_calls hq)).takes q.1
  have hlists := w.lists (h := h) hsound.distinct
  have hfits : ∀ a ∈ genlItems h (w.start + GENL_HEADER) w.calls, 4 + a.2.length < 2 ^ 16 := by
    intro a ha
    obtain ⟨p, hp, hitem⟩ := List.mem_flatMap.mp ha
    have hgood := hsound.good p.2 (w.mem_calls hp)
    rcases List.mem_append.mp hitem with hpadding | hvalue
    · rw [hgood.padding p.1 a hpadding]
      decide
    · rw [List.mem_singleton.mp hvalue]
      exact (hgood.takes p.1).fits
  have hcount : (genlItems h (w.start + GENL_HEADER) w.calls).length ≤ 2 ^ 15 := by
    have hcalls := length_le_of_nodup hsound.distinct
    have hitems := length_genlItems_le h (w.start + GENL_HEADER) w.calls
    rw [List.length_map] at hcalls
    omega
  constructor
  · intro hparse
    rw [hoctets, genlParse_stream h.order (w.message h) hfits (attributeStream_le hfits hcount)] at hparse
    obtain ⟨m', hfold, -⟩ := Except.ok_of_bind hparse
    rw [← Bool.not_eq_true, Written.padded, List.any_eq_true]
    rintro ⟨p, hp, hpadding⟩
    -- the padding has type 0, which is no attribute
    obtain ⟨a, ha⟩ := List.exists_mem_of_ne_nil (p.2.padding h p.1) (by simpa using hpadding)
    have hzero := (hsound.good p.2 (w.mem_calls hp)).padding p.1 a ha
    refine foldlM_parseAttribute_known hfold a (List.mem_flatMap.mpr ⟨p, hp, List.mem_append_left _ ha⟩) ?_
    rw [hzero]
    rfl
  · intro hnone
    have hitems : genlItems h (w.start + GENL_HEADER) w.calls = (w.puts h).map fun p => (p.1.wireType, p.2) := by
      rw [genlItems, Written.puts, List.map_map, List.map_eq_flatMap]
      refine List.flatMap_congr fun p hp => ?_
      rw [Written.padded, List.any_eq_false] at hnone
      rw [GenlCall.items, show p.2.padding h p.1 = [] by simpa using hnone p hp]
      rfl
    rw [hoctets, hitems]
    change genlParse h.order ((w.message h).octets h.order (putAttributes h.order (w.puts h))) = _
    rw [genlParse_lists hlists htakes, hsound.schema]
    rfl

/-! ## Nested attributes are complete -/

def nestedPass (outer : Attribute) (seen : BitVec 64) (a : UInt16 × Octets) : Except Errno (BitVec 64) :=
  nestedAttribute outer seen ⟨a.1, a.2, List.replicate (aligned (4 + a.2.length) - (4 + a.2.length)) 0⟩

theorem nestedPass_padding (outer : Attribute) (seen : BitVec 64) : nestedPass outer seen (0, []) = .ok seen := rfl

theorem nestedPass_put {seen : BitVec 64} {type : UInt16} {value : Octets} (hpos : 0 < type.toNat)
    (hmax : type.toNat ≤ nestedMax outer) (hseen : seen.getLsbD type.toNat = false)
    (hwidth : nestedWidth outer type.toNat value = true) :
    nestedPass outer seen (type, value) = .ok (seen ||| 1#64 <<< type.toNat) := by
  have hmax64 : nestedMax outer < 64 := by cases outer <;> decide
  have hcheck : ¬(nestedMax outer < type.toNat ∨ type.toNat = 0 ∨ 64 ≤ type.toNat ∨ seen.getLsbD type.toNat = true ∨
      nestedWidth outer type.toNat value = false) := by
    rw [hseen, hwidth]
    simp only [Bool.false_eq_true, Bool.true_eq_false, or_false]
    omega
  simp only [nestedPass, nestedAttribute]
  rw [if_neg (by omega), if_neg hcheck, any_replicate_zero]
  rfl

def NlaCall.type : NlaCall → UInt16
  | put type _ | putU64 type _ _ => type

def NlaCall.value (o : ByteOrder) : NlaCall → Octets
  | put _ value => value
  | putU64 _ value _ => o.put64 value

/-- A call inside a nested attribute that the parser takes; its padding has type 0. -/
structure NlaCall.Good (o : ByteOrder) (outer : Attribute) (c : NlaCall) : Prop where
  pos : 0 < c.type.toNat
  max : c.type.toNat ≤ nestedMax outer
  width : nestedWidth outer c.type.toNat (c.value o) = true
  short : (c.value o).length ≤ 128
  padding : ∀ type value padding, c = putU64 type value padding → padding = 0

theorem NlaCall.Good.items {h : NlaHost} (hgood : c.Good h.order outer) (n : Nat) :
    c.items h n = [(c.type, c.value h.order)] ∨ c.items h n = [(0, []), (c.type, c.value h.order)] := by
  cases c with
  | put type value => exact .inl rfl
  | putU64 type value padding =>
    rw [hgood.padding type value padding rfl, NlaCall.items]
    split_ifs
    · exact .inr rfl
    · exact .inl rfl

theorem foldlM_nestedPass {h : NlaHost} (hgood : ∀ c ∈ cs, c.Good h.order outer)
    (hdistinct : (cs.map NlaCall.type).Nodup)
    (n : Nat) (seen : BitVec 64) (hseen : ∀ c ∈ cs, seen.getLsbD c.type.toNat = false) :
    (insideItems h n cs).foldlM (nestedPass outer) seen =
      .ok ((cs.map NlaCall.type).foldl (fun seen type => seen ||| 1#64 <<< type.toNat) seen) := by
  induction cs generalizing n seen with
  | nil => rfl
  | cons c cs ih =>
    have hc := hgood c List.mem_cons_self
    have hput := nestedPass_put hc.pos hc.max (hseen c List.mem_cons_self) hc.width
    have hbound : c.type.toNat < 64 := Nat.lt_of_le_of_lt hc.max (by cases outer <;> decide)
    rw [List.map_cons, List.nodup_cons] at hdistinct
    have hrest := ih (fun d hd => hgood d (List.mem_cons_of_mem _ hd)) hdistinct.2
      (n + (attributeStream h.order (c.items h n)).length) (seen ||| 1#64 <<< c.type.toNat) fun d hd => by
        have hne : d.type.toNat ≠ c.type.toNat := fun heq =>
          hdistinct.1 (List.mem_map.mpr ⟨d, hd, UInt16.toNat_inj.mp heq⟩)
        rw [BitVec.getLsbD_or, hseen d (List.mem_cons_of_mem _ hd), getLsbD_oneBit hbound, Bool.false_or]
        exact decide_eq_false hne
    rw [insideItems] at hrest
    rw [insideItems, placedInside, List.flatMap_cons, List.foldlM_append]
    dsimp only
    rcases hc.items n with hitems | hitems
    · rw [hitems, List.foldlM_cons, hput]
      rw [hitems] at hrest
      exact hrest
    rw [hitems, List.foldlM_cons, nestedPass_padding]
    rw [hitems] at hrest
    change (nestedPass outer seen (c.type, c.value h.order) >>= pure) >>= _ = _
    rw [hput]
    exact hrest

theorem insideItems_bound {h : NlaHost} (hgood : ∀ c ∈ cs, c.Good h.order outer) (n : Nat) :
    cs.length ≤ (insideItems h n cs).length ∧ (insideItems h n cs).length ≤ 2 * cs.length ∧
      ∀ a ∈ insideItems h n cs, a.2.length ≤ 128 := by
  induction cs generalizing n with
  | nil => exact ⟨Nat.le_refl 0, Nat.le_refl 0, fun _ ha => absurd ha List.not_mem_nil⟩
  | cons c cs ih =>
    obtain ⟨hmin, hmax, hshort⟩ := ih (fun d hd => hgood d (List.mem_cons_of_mem _ hd))
      (n + (attributeStream h.order (c.items h n)).length)
    have hc := hgood c List.mem_cons_self
    have hcons : insideItems h n (c :: cs) =
        c.items h n ++ insideItems h (n + (attributeStream h.order (c.items h n)).length) cs := rfl
    rw [hcons]
    rcases hc.items n with hitems | hitems <;> rw [hitems] at hmin hmax hshort ⊢ <;>
      simp only [List.cons_append, List.nil_append, List.length_cons, List.forall_mem_cons] <;>
      exact ⟨by omega, by omega, by grind [hc.short]⟩

theorem GenlCall.good_nest {h : NlaHost} (hnested : outer.nested = true) (hgood : ∀ c ∈ cs, c.Good h.order outer)
    (hdistinct : (cs.map NlaCall.type).Nodup) (hpos : 0 < cs.length) (hlength : cs.length ≤ 64)
    (hcomplete : nestedComplete outer ((cs.map NlaCall.type).foldl (fun seen type => seen ||| 1#64 <<< type.toNat) 0) =
    true) : (GenlCall.nest outer cs).Good h where
  kind := hnested
  padding := fun _ _ ha => absurd ha List.not_mem_nil
  takes := by
    intro n
    obtain ⟨hmin, hmax, hshort⟩ := insideItems_bound hgood (n + 4)
    have hfits : ∀ a ∈ insideItems h (n + 4) cs, 4 + a.2.length < 2 ^ 16 := fun a ha => by
      have := hshort a ha
      omega
    have haligned : ∀ a ∈ insideItems h (n + 4) cs, aligned (4 + a.2.length) ≤ 132 := fun a ha => by
      have := hshort a ha
      unfold aligned
      omega
    have hupper := length_attributeStream_le h.order haligned
    have hlower : 4 ≤ (attributeStream h.order (insideItems h (n + 4) cs)).length := by
      obtain ⟨a, items, hcons⟩ := List.exists_cons_of_length_pos (Nat.lt_of_lt_of_le hpos hmin)
      rw [hcons, length_attributeStream, List.map_cons, List.sum_cons]
      have := le_aligned (4 + a.2.length)
      omega
    refine ⟨?_, ?_, fun _ => ?_⟩
    · change attributeWidth outer (attributeStream h.order (insideItems h (n + 4) cs)).length = true
      cases outer <;> first
        | exact absurd hnested (by decide)
        | exact decide_eq_true hlower
    · change 4 + (attributeStream h.order (insideItems h (n + 4) cs)).length < 2 ^ 16
      omega
    · change validateNested h.order outer (attributeStream h.order (insideItems h (n + 4) cs)) = .ok ()
      have hfold := foldlM_nestedPass hgood hdistinct (n + 4) 0 fun c _ => BitVec.getLsbD_zero
      rw [validateNested, foldAttributes_stream h.order .EPROTO (nestedAttribute outer) hfits]
      change ((insideItems h (n + 4) cs).foldlM (nestedPass outer) 0 >>= fun seen => accept
        (nestedComplete outer seen)) = _
      rw [hfold]
      change accept (nestedComplete outer _) = _
      rw [hcomplete]
      rfl

theorem GenlCall.good_put {h : NlaHost} {value : Octets} (hplain : a.nested = false)
    (hwidth : attributeWidth a value.length = true) : (GenlCall.put a value).Good h where
  kind := hplain
  takes := fun _ => Attribute.takes_of_plain hplain hwidth
  padding := fun _ _ ha => absurd ha List.not_mem_nil

theorem GenlCall.good_putU64 {h : NlaHost} {value : UInt64} (hplain : a.nested = false)
    (hwidth : attributeWidth a 8 = true) : (GenlCall.putU64 a value 0).Good h where
  kind := hplain
  takes := fun _ => Attribute.takes_of_plain hplain (by rw [GenlCall.value, ByteOrder.length_put64]; exact hwidth)
  padding := by
    intro n a ha
    rw [GenlCall.padding] at ha
    split_ifs at ha
    · exact List.mem_singleton.mp ha
    · exact absurd ha List.not_mem_nil

/-! ## The producers -/

section
variable {h : NlaHost}

@[simp] theorem length_putS16 (o : ByteOrder) (v : Int) : (putS16 o v).length = 2 := ByteOrder.length_put16 o _

@[simp] theorem length_putS32 (o : ByteOrder) (v : Int) : (putS32 o v).length = 4 := ByteOrder.length_put32 o _

theorem NlaCall.good_put {type : UInt16} {value : Octets} (hrange : 0 < type.toNat ∧ type.toNat ≤ nestedMax outer)
    (hshort : value.length ≤ 128) (hwidth : nestedWidth outer type.toNat value = true) :
    (NlaCall.put type value).Good o outer where
  pos := hrange.1
  max := hrange.2
  width := hwidth
  short := hshort
  padding := nofun

theorem NlaCall.good_putU64 {type : UInt16} {value : UInt64} (hrange : 0 < type.toNat ∧ type.toNat ≤ nestedMax outer)
    (hwidth : nestedWidth outer type.toNat (o.put64 value) = true) : (NlaCall.putU64 type value 0).Good o outer where
  pos := hrange.1
  max := hrange.2
  width := hwidth
  short := by rw [NlaCall.value, ByteOrder.length_put64]; decide
  padding := by
    rintro _ _ _ ⟨⟩
    rfl

theorem rxMeta_good (h : NlaHost) (m : RxMeta) (now : UInt64) :
    (GenlCall.nest .RX_META (rxMetaCalls h.order m now)).Good h := by
  have htypes : (rxMetaCalls h.order m now).map NlaCall.type = [1, 2, 3, 4, 5, 6, 7] := rfl
  refine GenlCall.good_nest rfl ?_ (by rw [htypes]; decide) (by simp [rxMetaCalls]) (by simp [rxMetaCalls])
    (by rw [htypes]; decide)
  simp only [rxMetaCalls, List.forall_mem_cons, List.not_mem_nil, false_implies, implies_true, and_true]
  refine ⟨?_, ?_, ?_, ?_, ?_, ?_, ?_⟩
  · exact NlaCall.good_put (by decide) (by simp) (by cases m.authenticated <;> rfl)
  · exact NlaCall.good_put (by decide) (by simp) (by simp [nestedWidth])
  · exact NlaCall.good_put (by decide) (by simp) (by simp [nestedWidth])
  · exact NlaCall.good_put (by decide) (by simp) (by simp [nestedWidth])
  · exact NlaCall.good_put (by decide) (by simp) (by simp [nestedWidth])
  · exact NlaCall.good_putU64 (by decide) (by simp [nestedWidth])
  · exact NlaCall.good_put (by decide) (by simp) (by simp [nestedWidth])

theorem error_good (h : NlaHost) (code : Int) : (GenlCall.nest .ERROR [.put 1 (putS32 h.order code)]).Good h := by
  have htypes : [NlaCall.put 1 (putS32 h.order code)].map NlaCall.type = [1] := rfl
  refine GenlCall.good_nest rfl ?_ (by simp) (by simp) (by simp) (by rw [htypes]; decide)
  simp only [List.forall_mem_cons, List.not_mem_nil, false_implies, implies_true, and_true]
  exact NlaCall.good_put (by decide) (by simp) (by simp [nestedWidth])

theorem stats_good (h : NlaHost) (stats : Nat → UInt64) : (GenlCall.nest .STATS (statCalls stats)).Good h := by
  have htypes : (statCalls stats).map NlaCall.type = (List.range STAT_A_MAX).map fun k => UInt16.ofNat (k + 1) := by
    rw [statCalls, List.map_map]
    rfl
  refine GenlCall.good_nest rfl ?_
    (by rw [htypes]; decide) (by simp [statCalls, STAT_A_MAX]) (by simp [statCalls, STAT_A_MAX])
    (by rw [htypes]; decide)
  intro c hc
  obtain ⟨k, hk, rfl⟩ := List.mem_map.mp hc
  have hk' : k < 24 := List.mem_range.mp hk
  have htype : (UInt16.ofNat (k + 1)).toNat = k + 1 := by
    rw [UInt16.toNat_ofNat']
    exact Nat.mod_eq_of_lt (by omega)
  refine NlaCall.good_putU64 ?_ ?_
  · rw [htype, show nestedMax .STATS = 24 from rfl]
    omega
  rw [htype]
  simp [nestedWidth, STAT_A_MAX]
  omega

theorem Written.present (hdistinct : (w.calls.map GenlCall.attr).Nodup) :
    (w.message h).present = presentMask (w.calls.map GenlCall.attr) := by
  rw [(w.lists hdistinct).present, w.attrs_puts]

theorem Written.value_of_put (hdistinct : (w.calls.map GenlCall.attr).Nodup) {value : Octets}
    (hput : GenlCall.put a value ∈ w.calls) : (w.message h).value a = value := by
  refine (w.lists hdistinct).value ?_
  rw [← placed_map h (w.start + GENL_HEADER) w.calls] at hput
  obtain ⟨p, hp, hcall⟩ := List.mem_map.mp hput
  exact List.mem_map.mpr ⟨p, hp, by rw [hcall]; rfl⟩

def Written.Made (h : NlaHost) (w : Written) (command : Command) (calls : List GenlCall) : Prop :=
  ∃ skb skb' info, genlMessage h skb info command calls = .ok (skb', w)

theorem Written.Made.fields (hmade : w.Made h command calls) : w.command = command ∧ w.calls = calls := by
  obtain ⟨skb, skb', info, hmessage⟩ := hmade
  obtain ⟨skb₁, skb₂, -, -, rfl⟩ := genlMessage_steps hmessage
  exact ⟨rfl, rfl⟩

theorem Written.Made.parse_iff (hmade : w.Made h command calls) (hsound : w.Sound h) :
    genlParse h.order w.octets = .ok (w.message h) ↔ w.padded h = false := by
  obtain ⟨-, hcalls⟩ := hmade.fields
  obtain ⟨skb, skb', info, hmessage⟩ := hmade
  subst hcalls
  exact Written.parse_iff hsound (genlMessage_octets (fun c hc => (hsound.good c hc).kind) hmessage)

theorem Written.Made.sound (hmade : w.Made h command calls) (attrs : List Attribute)
    (hattrs : calls.map GenlCall.attr = attrs) (hdistinct : attrs.Nodup) (hgood : ∀ c ∈ calls, c.Good h)
    (hschema : ∀ m : GenlMessage, m.command = command → m.present = presentMask attrs →
      (∀ a value, GenlCall.put a value ∈ calls → m.value a = value) → (∀ a, m.has a = attrs.contains a) →
      validateSchema h.order m = .ok ()) : w.Sound h := by
  obtain ⟨hcommand, rfl⟩ := hmade.fields
  subst hattrs
  refine ⟨hgood, hdistinct, hschema _ hcommand (Written.present hdistinct) (fun _ _ => Written.value_of_put hdistinct)
    ?_⟩
  intro a
  rw [(w.lists hdistinct).has, w.attrs_puts]

theorem genlNew_made {alloc : Option Nat} (hnew : genlNew h alloc info command calls = .ok w) :
    w.Made h command calls := by
  cases alloc with
  | none => exact nomatch hnew
  | some size =>
    cases hmessage : genlMessage h { size := size } info command calls with
    | error e => simp [genlNew, hmessage, Except.map] at hnew
    | ok r =>
      simp only [genlNew, hmessage, Except.map, Except.ok.injEq] at hnew
      subst hnew
      exact ⟨_, r.1, info, hmessage⟩

theorem Written.padded_eq_false (hcalls : ∀ c ∈ w.calls, ∀ n, c.padding h n = []) :
    w.padded h = false := by
  rw [Written.padded, List.any_eq_false]
  intro p hp
  rw [hcalls p.2 (w.mem_calls hp) p.1]
  decide

theorem recv_sound {m : Complete} {now : UInt64} (hmade : w.Made h .RECV
      [.put .SOURCE_NODE m.source, .put .SOURCE_SERVICE (h.order.put16 m.sourceService),
        .put .LOCAL_SERVICE (h.order.put16 m.destinationService), .put .PAYLOAD m.payload,
        .nest .RX_META (rxMetaCalls h.order m.metadata now)]) (hsource : m.source.length = NODE_ID_SIZE)
    (hpayload : m.payload.length ≤ MESSAGE_MTU) : w.Sound h := by
  refine hmade.sound [.SOURCE_NODE, .SOURCE_SERVICE, .LOCAL_SERVICE, .PAYLOAD, .RX_META] rfl (by decide) ?_
    fun m hcommand hpresent _ _ => ?_
  · simp only [List.forall_mem_cons, List.not_mem_nil, false_implies, implies_true, and_true]
    exact ⟨GenlCall.good_put rfl (by simp [attributeWidth, hsource]), GenlCall.good_put rfl (by simp [attributeWidth]),
      GenlCall.good_put rfl (by simp [attributeWidth]), GenlCall.good_put rfl (by simp [attributeWidth, hpayload]),
      rxMeta_good h _ _⟩
  · simp only [validateSchema, hcommand, hpresent]
    decide

theorem ifindex_good (h : NlaHost) (ifindex : UInt32) : (GenlCall.put .IFINDEX (h.order.put32 ifindex)).Good h :=
  GenlCall.good_put rfl (by simp [attributeWidth])

theorem service_good (h : NlaHost) (service : UInt16) : (GenlCall.put .LOCAL_SERVICE (h.order.put16 service)).Good h :=
  GenlCall.good_put rfl (by simp [attributeWidth])

theorem errorEvent_sound {code : Int} {cookie : Option UInt64}
    (hmade : w.Made h .ERROR ([.put .IFINDEX (h.order.put32 ifindex), .put .LOCAL_SERVICE (h.order.put16 service)] ++
      (match cookie with | some cookie => [.put .COOKIE (h.order.put64 cookie)] | none => []) ++
      [.nest .ERROR [.put 1 (putS32 h.order code)]])) :
    w.Sound h := by
  cases cookie with
  | none =>
    refine hmade.sound [.IFINDEX, .LOCAL_SERVICE, .ERROR] rfl (by decide) ?_ fun m hcommand hpresent _ _ => ?_
    · simpa using ⟨ifindex_good h ifindex, service_good h service, error_good h code⟩
    · simp only [validateSchema, hcommand, hpresent]
      decide
  | some cookie =>
    have hcookie : (GenlCall.put .COOKIE (h.order.put64 cookie)).Good h :=
      GenlCall.good_put rfl (by simp [attributeWidth])
    refine hmade.sound [.IFINDEX, .LOCAL_SERVICE, .COOKIE, .ERROR] rfl (by decide) ?_ fun m hcommand hpresent _ _ => ?_
    · simpa using ⟨ifindex_good h ifindex, service_good h service, hcookie, error_good h code⟩
    · simp only [validateSchema, hcommand, hpresent]
      decide

theorem monitor_sound {direction : UInt8} {frame : Octets} {inside : List GenlCall} (hmade : w.Made h .MONITOR_FRAME
      ([.put .IFINDEX (h.order.put32 ifindex), .put .MONITOR_DIRECTION [direction], .put .FRAME frame] ++ inside))
    (hinside : (direction = MONITOR_RX ∧ ∃ m now, inside = [.nest .RX_META (rxMetaCalls h.order m now)]) ∨
      (direction = MONITOR_TX ∧ inside = []))
      (hlength : FRAME_HEADER_MIN ≤ frame.length ∧ frame.length ≤ FRAME_MTU_MAX) :
    w.Sound h := by
  have hdirection : (GenlCall.put .MONITOR_DIRECTION [direction]).Good h := GenlCall.good_put rfl rfl
  have hframe : (GenlCall.put .FRAME frame).Good h := GenlCall.good_put rfl (by simp [attributeWidth, hlength])
  rcases hinside with ⟨rfl, m, now, rfl⟩ | ⟨rfl, rfl⟩
  · refine hmade.sound [.IFINDEX, .MONITOR_DIRECTION, .FRAME, .RX_META] rfl (by decide) ?_
      fun m hcommand hpresent hvalue hhas => ?_
    · simpa using ⟨ifindex_good h ifindex, hdirection, hframe, rxMeta_good h m now⟩
    · simp only [validateSchema, hcommand, hpresent, GenlMessage.octet, hvalue .MONITOR_DIRECTION [MONITOR_RX]
        (by simp), hhas]
      decide
  · refine hmade.sound [.IFINDEX, .MONITOR_DIRECTION, .FRAME] rfl
      (by decide) ?_ fun m hcommand hpresent hvalue hhas => ?_
    · simpa using ⟨ifindex_good h ifindex, hdirection, hframe⟩
    · simp only [validateSchema, hcommand, hpresent, GenlMessage.octet, hvalue .MONITOR_DIRECTION [MONITOR_TX]
        (by simp), hhas]
      decide

theorem policyPeerState_le (s : PeerState) : UInt8.ofNat s.ctorIdx ≤ PEER_CHALLENGED := by cases s <;> decide

theorem policyPeerPolicy_le (s : PeerPolicy) : UInt8.ofNat s.ctorIdx ≤ PEER_POLICY_BLOCKED := by cases s <;> decide

theorem peer_sound (hmade : w.Made h .PEER_DUMP (peerCalls h.order v p seen)) (hnode : p.nodeId.length = NODE_ID_SIZE) :
    w.Sound h := by
  have hlastSeen : (GenlCall.putU64 .PEER_LAST_SEEN_NS seen.lastSeenNs 0).Good h := GenlCall.good_putU64 rfl rfl
  refine hmade.sound [.IFINDEX, .NODE_ID, .PEER_NATIVE_LOCATOR, .COLLISION_ROUND, .GENERATION, .PEER_STATE,
    .PEER_EXPIRY_MS,
    .PEER_CAPABILITIES, .PEER_RSSI, .PEER_SNR, .PEER_HOPS, .PEER_LAST_SEEN_NS, .PEER_POLICY] rfl (by decide) ?_
    fun m hcommand hpresent hvalue _ => ?_
  · simp only [peerCalls, List.forall_mem_cons, List.not_mem_nil, false_implies, implies_true, and_true]
    refine ⟨?_, ?_, ?_, ?_, ?_, ?_, ?_, ?_, ?_, ?_, ?_, hlastSeen, ?_⟩ <;>
      exact GenlCall.good_put rfl (by simp [attributeWidth, hnode])
  · simp only [validateSchema, hcommand, hpresent, GenlMessage.octet,
      hvalue .PEER_STATE [UInt8.ofNat (policyPeerStateLocked v.device p).ctorIdx] (by simp [peerCalls]),
      hvalue .PEER_POLICY [UInt8.ofNat (policyPeerPolicyLocked v.device p).ctorIdx] (by simp [peerCalls]),
      List.getD_cons_zero, policyPeerState_le, policyPeerPolicy_le]
    decide

theorem peer_padded (hcalls : w.calls = peerCalls h.order v p seen) (hnode : p.nodeId.length = NODE_ID_SIZE) :
    w.padded h = h.pads (w.start + 140) := by
  rw [Written.padded, hcalls]
  simp [peerCalls, placed, GenlCall.items, GenlCall.padding, GenlCall.attr, GenlCall.value, length_attributeStream,
    aligned, hnode, NODE_ID_SIZE, GENL_HEADER, Nat.add_assoc]
  cases h.pads (w.start + 140) <;> rfl

theorem binding_sound
    (hmade : w.Made h .GET_BINDING
    [.put .IFINDEX (h.order.put32 ifindex), .put .LOCAL_SERVICE (h.order.put16 service)]) : w.Sound h := by
  refine hmade.sound [.IFINDEX, .LOCAL_SERVICE] rfl (by decide) ?_ fun m hcommand hpresent _ _ => ?_
  · simpa using ⟨ifindex_good h ifindex, service_good h service⟩
  · simp only [validateSchema, hcommand, hpresent]
    decide

theorem identity_sound {node : NodeId} {generation : UInt32} (hmade : w.Made h .IDENTITY_GET_PUBLIC
      [.put .NODE_ID node, .put .GENERATION (h.order.put32 generation)]) (hnode : node.length = NODE_ID_SIZE) :
    w.Sound h := by
  refine hmade.sound [.NODE_ID, .GENERATION] rfl (by decide) ?_ fun m hcommand hpresent _ _ => ?_
  · simp only [List.forall_mem_cons, List.not_mem_nil, false_implies, implies_true, and_true]
    exact ⟨GenlCall.good_put rfl (by simp [attributeWidth, hnode]), GenlCall.good_put rfl (by simp [attributeWidth])⟩
  · simp only [validateSchema, hcommand, hpresent]
    decide

theorem policy_sound {mode : UInt8} (hmade : w.Made h .POLICY_GET [.put .POLICY_MODE [mode]]) : w.Sound h := by
  refine hmade.sound [.POLICY_MODE] rfl (by decide) ?_ fun m hcommand hpresent _ _ => ?_
  · exact List.forall_mem_singleton.mpr (GenlCall.good_put rfl rfl)
  · simp only [validateSchema, hcommand, hpresent]
    decide

theorem stats_sound {stats : Nat → UInt64} (hmade : w.Made h .STATS_GET [.nest .STATS (statCalls stats)]) :
    w.Sound h := by
  refine hmade.sound [.STATS] rfl (by decide) ?_ fun m hcommand hpresent _ _ => ?_
  · exact List.forall_mem_singleton.mpr (stats_good h stats)
  · simp only [validateSchema, hcommand, hpresent]
    decide

/-! ### The link -/

theorem length_strscpy_lt {size : Nat} (hsize : 0 < size) (s : Octets) : (strscpy size s).length < size := by
  rw [strscpy, List.length_take]
  omega

theorem putText_good (hplain : a.nested = false) (hwidth : text ≠ [] → attributeWidth a (text.length + 1) = true) :
    ∀ c ∈ putText a text, c.Good h := by
  intro c hc
  rw [putText] at hc
  split_ifs at hc with htext
  · exact absurd hc List.not_mem_nil
  · rw [List.mem_singleton.mp hc]
    exact GenlCall.good_put hplain (by rw [List.length_append]; exact hwidth htext)

theorem putText_attrs (a : Attribute) (text : Octets) :
    (putText a text).map GenlCall.attr = if text = [] then [] else [a] := by
  rw [putText]
  split_ifs <;> rfl

theorem validText_append {good : UInt8 → Bool} (h : ∀ c ∈ text, good c = true) :
    validText good (text ++ [0]) = true := by
  simp only [validText, List.getLast?_concat, List.dropLast_concat, beq_self_eq_true, Bool.true_and, List.all_eq_true]
  exact h

theorem link_sound {state : UInt8} {failure : UInt16} {error : Int} {serial bus : Octets} {pace : UInt32}
    (hmade : w.Made h .LINK_GET
      ([.put .LINK_STATE [state], .put .LINK_FAILURE (h.order.put16 failure), .put .LINK_ERROR (putS32 h.order error)]
      ++ putText .RADIO_SERIAL serial ++ putText .BUS_INFO bus ++
        (if pace = 0 then [] else [.put .FRAME_PACE_US (h.order.put32 pace)])))
        (hserial : serial.length ≤ RADIO_SERIAL_MAX)
    (hbus : bus.length ≤ BUS_INFO_MAX) (hprintable : ∀ c ∈ bus, 0x21 ≤ c ∧ c ≤ 0x7e) : w.Sound h := by
  refine hmade.sound ([.LINK_STATE, .LINK_FAILURE, .LINK_ERROR] ++ (if serial = [] then [] else [.RADIO_SERIAL]) ++
    (if bus = [] then [] else [.BUS_INFO]) ++ (if pace = 0 then [] else [.FRAME_PACE_US])) ?_
    (by split_ifs <;> decide) ?_
    fun m hcommand hpresent hvalue hhas => ?_
  · rw [List.map_append, List.map_append, List.map_append, putText_attrs, putText_attrs]
    congr 1
    split_ifs <;> rfl
  · have hpace : ∀ c ∈ (if pace = 0 then [] else [GenlCall.put .FRAME_PACE_US (h.order.put32 pace)]), c.Good h := by
      intro c hc
      split_ifs at hc
      · exact absurd hc List.not_mem_nil
      · rw [List.mem_singleton.mp hc]
        exact GenlCall.good_put rfl (by simp [attributeWidth])
    have hserialGood : ∀ c ∈ putText .RADIO_SERIAL serial, c.Good h := putText_good rfl fun hne => by
      have := List.length_pos_iff.mpr hne
      simp only [attributeWidth, Bool.and_eq_true, decide_eq_true_eq]
      omega
    have hbusGood : ∀ c ∈ putText .BUS_INFO bus, c.Good h := putText_good rfl fun hne => by
      have := List.length_pos_iff.mpr hne
      simp only [attributeWidth, Bool.and_eq_true, decide_eq_true_eq]
      omega
    intro c hc
    simp only [List.mem_append] at hc
    obtain ((hc | hc) | hc) | hc := hc
    · simp only [List.mem_cons, List.not_mem_nil, or_false] at hc
      rcases hc with rfl | rfl | rfl <;> exact GenlCall.good_put rfl (by simp [attributeWidth])
    · exact hserialGood c hc
    · exact hbusGood c hc
    · exact hpace c hc
  · have hvalid : (if m.has .BUS_INFO = true then validateBusInfo m else .ok ()) = .ok () := by
      split_ifs with hthere
      · have hbusText : bus ≠ [] := by
          rintro rfl
          rw [hhas, if_pos rfl] at hthere
          split_ifs at hthere <;> exact absurd hthere (by decide)
        rw [validateBusInfo, hthere, hvalue .BUS_INFO (bus ++ [0])
          (by simp [putText, hbusText]), validText_append fun c hc => by simpa using hprintable c hc]
        rfl
      · rfl
    simp only [validateSchema, hcommand, hpresent]
    rw [hvalid]
    split_ifs <;> first | rfl | exact absurd ‹_› (by decide)

/-! ## All messages -/

/-- What the types of the source say about the sizes of the fields, and what the transports say about their names. -/
structure NetlinkView.Sized (v : NetlinkView) (call : KernelCall) : Prop where
  identity : v.device.identityReady = true → v.device.nodeId.length = NODE_ID_SIZE
  peers : ∀ i p, v.device.peers i = some p → p.nodeId.length = NODE_ID_SIZE
  source : ∀ family m now alloc, call = .receive family m now alloc → m.source.length = NODE_ID_SIZE
  printable : ∀ link, v.link = some link → ∀ c ∈ link.busInfo.takeWhile (· != 0), 0x21 ≤ c ∧ c ≤ 0x7e

theorem eq_ok_of_mem {r : Except Errno Written} (hw : w ∈ r.toOption.toList) : r = .ok w := by
  cases r with
  | error e => exact absurd hw List.not_mem_nil
  | ok x => rw [List.mem_singleton.mp hw]

theorem peerDumpLoop_made {slots : List (Fin PEER_LIMIT)} (hw : w ∈ peerDumpLoop h v info slots skb) :
    ∃ i p, v.device.peers i = some p ∧ w.Made h .PEER_DUMP (peerCalls h.order v p (v.observed i)) := by
  induction slots generalizing skb with
  | nil => exact absurd hw List.not_mem_nil
  | cons i slots ih =>
    rw [peerDumpLoop] at hw
    cases hpeer : v.device.peers i with
    | none =>
      rw [hpeer] at hw
      exact ih hw
    | some p =>
      rw [hpeer] at hw
      dsimp only at hw
      cases hmessage : genlMessage h skb info .PEER_DUMP (peerCalls h.order v p (v.observed i)) with
      | error e =>
        rw [hmessage] at hw
        exact absurd hw List.not_mem_nil
      | ok r =>
        rw [hmessage] at hw
        rcases List.mem_cons.mp hw with rfl | hw
        · exact ⟨i, p, hpeer, skb, r.1, info, hmessage⟩
        · exact ih hw

theorem Written.Made.plain (hmade : w.Made h command calls) (hsound : w.Sound h) (hne : command ≠ .PEER_DUMP)
    (hpadding : ∀ c ∈ calls, ∀ n, c.padding h n = []) :
    (∃ command calls, w.Made h command calls) ∧ w.Sound h ∧
      (w.padded h = true ↔ w.command = .PEER_DUMP ∧ h.pads (w.start + 140) = true) := by
  obtain ⟨hcommand, hcalls⟩ := hmade.fields
  refine ⟨⟨_, _, hmade⟩, hsound, ?_⟩
  rw [Written.padded_eq_false (hcalls ▸ hpadding), hcommand]
  simp [hne]

theorem kernelMessages_sound {call : KernelCall} (hv : v.Sized call) (hw : w ∈ kernelMessages h v call) :
    (∃ command calls, w.Made h command calls) ∧ w.Sound h ∧
      (w.padded h = true ↔ w.command = .PEER_DUMP ∧ h.pads (w.start + 140) = true) := by
  cases call with
  | receive family m now alloc =>
    have hreceive := eq_ok_of_mem hw
    rw [netlinkReceiveMessage] at hreceive
    by_cases hlength : MESSAGE_MTU < m.payload.length
    · rw [if_pos hlength] at hreceive
      exact nomatch hreceive
    rw [if_neg hlength] at hreceive
    split_ifs at hreceive
    have hmade := genlNew_made hreceive
    exact hmade.plain (recv_sound hmade (hv.source _ _ _ _ rfl) (by omega)) (by decide) (by simp [GenlCall.padding])
  | error family b code cookie alloc =>
    have hmade := genlNew_made (eq_ok_of_mem hw)
    refine hmade.plain (errorEvent_sound hmade) (by decide) ?_
    cases cookie <;> simp [GenlCall.padding]
  | monitor family direction frame metadata now alloc =>
    unfold kernelMessages netlinkMonitorFrame at hw
    dsimp only at hw
    by_cases hcheck : frame.length < FRAME_HEADER_MIN ∨ FRAME_MTU_MAX < frame.length ∨ MONITOR_TX < direction ∨
        (direction = MONITOR_RX ∧ metadata = none)
    · rw [if_pos hcheck] at hw
      exact absurd hw List.not_mem_nil
    rw [if_neg hcheck] at hw
    simp only [not_or, not_and, not_lt] at hcheck
    obtain ⟨hmin, hmax, htx, hmeta⟩ := hcheck
    obtain ⟨portid, -, hnew⟩ := List.mem_filterMap.mp hw
    have hmade := genlNew_made (eq_ok_of_mem (Option.mem_toList.mpr hnew))
    by_cases hdirection : direction = MONITOR_RX
    · cases metadata with
      | none => exact absurd rfl (hmeta hdirection)
      | some m =>
        rw [monitorMetaCalls, if_pos hdirection] at hmade
        exact hmade.plain (monitor_sound hmade (.inl ⟨hdirection, m, now, rfl⟩) ⟨hmin, hmax⟩) (by decide)
          (by simp [GenlCall.padding])
    · have htx' : direction = MONITOR_TX := by
        have hle : direction.toNat ≤ 1 := Nat.le_of_not_lt htx
        have hne : direction.toNat ≠ 0 := fun h => hdirection (UInt8.toNat_inj.mp h)
        exact UInt8.toNat_inj.mp (show direction.toNat = 1 by omega)
      have hinside : monitorMetaCalls h.order direction metadata now = [] := by
        cases metadata with
        | none => rfl
        | some m => exact if_neg hdirection
      rw [hinside] at hmade
      exact hmade.plain (monitor_sound hmade (.inr ⟨htx', rfl⟩) ⟨hmin, hmax⟩) (by decide) (by simp [GenlCall.padding])
  | peerDump info first skb =>
    obtain ⟨i, p, hpeer, hmade⟩ := peerDumpLoop_made hw
    obtain ⟨hcommand, hcalls⟩ := hmade.fields
    have hnode := hv.peers i p hpeer
    refine ⟨⟨_, _, hmade⟩, peer_sound hmade hnode, ?_⟩
    rw [peer_padded hcalls hnode, hcommand]
    simp
  | linkGet info alloc =>
    have hmade := genlNew_made (eq_ok_of_mem hw)
    have hserial : (strscpy (RADIO_SERIAL_MAX + 1) v.radioSerial).length < RADIO_SERIAL_MAX + 1 :=
      length_strscpy_lt (by decide) _
    refine hmade.plain (link_sound hmade (by omega) ?_ ?_) (by decide) ?_
    · cases v.link with
      | none => exact Nat.zero_le _
      | some link => exact Nat.le_of_lt_succ (length_strscpy_lt (by decide) _)
    · cases hlink : v.link with
      | none => exact fun c hc => absurd hc List.not_mem_nil
      | some link => exact fun c hc => hv.printable link hlink c (List.mem_of_mem_take hc)
    intro c hc n
    cases c with
    | put | nest => rfl
    | putU64 a value padding =>
      simp only [putText] at hc
      split_ifs at hc <;> simp at hc
  | policyGet info alloc =>
    have hmade := genlNew_made (eq_ok_of_mem hw)
    exact hmade.plain (policy_sound hmade) (by decide) (by simp [GenlCall.padding])
  | statsGet info alloc =>
    have hmade := genlNew_made (eq_ok_of_mem hw)
    exact hmade.plain (stats_sound hmade) (by decide) (by simp [GenlCall.padding])
  | identityGet info alloc =>
    have hget := eq_ok_of_mem hw
    rw [identityGet] at hget
    split_ifs at hget with hready
    have hmade := genlNew_made hget
    exact hmade.plain
      (identity_sound hmade (hv.identity (by simpa using hready))) (by decide) (by simp [GenlCall.padding])
  | getBinding info alloc =>
    have hget := eq_ok_of_mem hw
    rw [getBinding] at hget
    cases hfind : v.bindings.find? fun b => b.portid = info.portid with
    | none =>
      rw [hfind] at hget
      cases hnew : genlNew h alloc info .GET_BINDING [] <;> rw [hnew] at hget <;> exact nomatch hget
    | some b =>
      rw [hfind] at hget
      have hmade := genlNew_made hget
      exact hmade.plain (binding_sound hmade) (by decide) (by simp [GenlCall.padding])

end

/-- Every message that the kernel completes parses, except an entry of the peer dump that needs padding. -/
theorem kernelMessages_parse (h : NlaHost) (v : NetlinkView) (call : KernelCall) (hv : v.Sized call) (w : Written)
    (hw : w ∈ kernelMessages h v call) :
    genlParse h.order w.octets = .ok (w.message h) ↔ ¬(w.command = .PEER_DUMP ∧ h.pads (w.start + 140) = true) := by
  obtain ⟨⟨command, calls, hmade⟩, hsound, hpadded⟩ := kernelMessages_sound hv hw
  rw [hmade.parse_iff hsound, ← hpadded, Bool.not_eq_true]

def dumpView : NetlinkView :=
  { device :=
      { peers := fun i => if i.val = 0 then some
          { nodeId := List.replicate 33 7, nativeLocator := 5, linkLocator := 5, collisionRound := 0, generation := 1,
            controlCounter := 1, session := 1, residence := 1 } else none }
    ifindex := 3
    observed := fun _ => { rssi := -80, snr := 9, hops := 2, lastSeenNs := 1000 } }

theorem dumpView_sized (info : GenlInfo) (skb : Skb) : dumpView.Sized (.peerDump info 0 skb) where
  identity := nofun
  peers := by
    intro i p hp
    dsimp only [dumpView] at hp
    split_ifs at hp
    rw [← Option.some.inj hp]
    rfl
  source := nofun
  printable := nofun

theorem kernelMessages_parse_peer :
    ∃ w ∈ kernelMessages ⟨.little, fun _ => false⟩ dumpView (.peerDump { family := 21 } 0 { size := 4096 }),
      genlParse .little w.octets = .ok (w.message ⟨.little, fun _ => false⟩) := by
  have hone : 0 < (kernelMessages ⟨.little, fun _ => false⟩ dumpView
      (.peerDump { family := 21 } 0 { size := 4096 })).length := by decide +kernel
  obtain ⟨w, hw⟩ := List.exists_mem_of_length_pos hone
  refine ⟨w, hw, (kernelMessages_parse _ _ _ (dumpView_sized _ _) w hw).mpr ?_⟩
  rintro ⟨-, hpads⟩
  exact nomatch hpads

/-- On a machine that aligns 64-bit attributes, an entry of the peer dump does not parse. -/
theorem peerDump_padded :
    ∃ w ∈ kernelMessages ⟨.little, fun n => n % 8 = 4⟩ dumpView (.peerDump { family := 21 } 0 { size := 4096 }),
      w.command = .PEER_DUMP ∧ (genlParse .little w.octets).toBool = false := by
  decide +kernel

end Melodi
