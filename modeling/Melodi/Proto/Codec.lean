import Melodi.Lib.Layout
import Melodi.Proto.Signed

/-!
# The codecs are exact

Each of the seven frames is a header laid out by a `Layout`, and for two of them a payload. What an encoder accepts
decodes to the same fields, with those filled in that the encoder fills in, and what a decoder accepts is the encoding
of what it returns, so that no two byte strings are one frame.
-/

namespace Melodi
open Lib
variable {capacity n size : Nat} {bs payload : Octets} {frameClass : UInt8} {c : WireCommon} {h : WireData}

/-! ## The common header -/

def commonLayout : Layout WireCommon :=
  ((Layout.u8.seq <| .seq .u8 <| .seq .u16 <| .seq .u16 <| .seq .u16 <| .seq .u32 <| .seq .u32 <| .seq .u32 <|
      .seq .u64 .u64).map
    (fun (version, frameClass, flags, headerLength, payloadLength, source, destination, generation, messageId, counter)
      => ⟨version, frameClass, flags, headerLength, payloadLength, source, destination, generation, messageId, counter⟩)
    (fun h => (h.version, h.frameClass, h.flags, h.headerLength, h.payloadLength, h.sourceNativeLocator,
      h.destinationNativeLocator, h.identityGeneration, h.messageId, h.counter))
    (fun _ => rfl) (fun _ => rfl)).pad 4

@[simp] theorem commonLayout_put (h : WireCommon) : commonLayout.put h = wireEncodeCommon h := by
  simp [commonLayout, wireEncodeCommon]

@[simp] theorem commonLayout_get (bs : Octets) : commonLayout.get bs = wireReadCommon bs := by
  simp [commonLayout, wireReadCommon, -List.drop_one]

@[simp] theorem commonLayout_fits (h : WireCommon) : commonLayout.Fits h := by
  simp [commonLayout]

@[simp] theorem commonLayout_size : commonLayout.size = 40 := rfl

theorem commonLayout_clean (bs : Octets) :
    commonLayout.Clean bs ↔ bs.getD 36 0 = 0 ∧ bs.getD 37 0 = 0 ∧ bs.getD 38 0 = 0 ∧ bs.getD 39 0 = 0 := by
  simp [commonLayout, Nat.forall_lt_succ_right, Nat.le_one_iff_eq_zero_or_eq_one, and_assoc]

structure WireCommon.Framed (h : WireCommon) (length : Nat) : Prop where
  version : h.version = WIRE_VERSION
  classValid : wireClassValid h.frameClass = true
  flags : h.flags &&& ~~~WIRE_F_ALL = 0
  header_ge : WIRE_COMMON_SIZE ≤ h.headerLength.toNat
  header_le : h.headerLength.toNat ≤ length
  payload : h.payloadLength.toNat = length - h.headerLength.toNat

theorem wireDecodeCommon_ok {h : WireCommon} (hdecode : wireDecodeCommon bs = .ok h) :
    h = wireReadCommon bs ∧ h.Framed bs.length ∧ commonLayout.Clean bs := by
  unfold wireDecodeCommon at hdecode
  dsimp only at hdecode
  split_ifs at hdecode with hshort hbad
  obtain rfl := Except.ok.inj hdecode
  simp only [not_or, not_not, Bool.not_eq_false, Nat.not_lt] at hbad
  obtain ⟨h1, h2, h3, h4, h5, h6, h7, h8, h9, h10⟩ := hbad
  exact ⟨rfl, ⟨h1, h2, h3, h4, h5, h6⟩, (commonLayout_clean bs).mpr ⟨h7, h8, h9, h10⟩⟩

/-! ## The other headers -/

def dataLayout : Layout WireData :=
  (commonLayout.seq <| .seq .u16 <| .seq .u16 <| .seq .u16 <| .seq .u16 <| .seq .u32 <| .seq .u8 <| .seq (.pad .u8 2) <|
      .seq .u32 (.pad (.bytes WIRE_TAG_SIZE) 4)).map
    (fun (common, destinationService, sourceService, fragmentIndex, fragmentCount, logicalLength, deliveryMode,
      priority, orderingMarker, tag) =>
      ⟨common, destinationService, sourceService, fragmentIndex, fragmentCount, logicalLength, deliveryMode, priority,
        orderingMarker, tag⟩)
    (fun h => (h.common, h.destinationService, h.sourceService, h.fragmentIndex, h.fragmentCount, h.logicalLength,
      h.deliveryMode, h.priority, h.orderingMarker, h.tag))
    (fun _ => rfl) (fun _ => rfl)

def ackLayout : Layout WireAck :=
  (commonLayout.seq <| .seq .u32 <| .seq .u16 <| .seq (.pad .u8 1) <| .seq .u64 (.bytes WIRE_TAG_SIZE)).map
    (fun (common, acknowledgedGeneration, fragmentCount, status, bitmap, tag) =>
      ⟨common, acknowledgedGeneration, fragmentCount, status, bitmap.toBitVec, tag⟩)
    (fun h => (h.common, h.acknowledgedGeneration, h.fragmentCount, h.status, UInt64.ofBitVec h.bitmap, h.tag))
    (fun _ => rfl) (fun _ => rfl)

def helloLayout : Layout WireHello :=
  (commonLayout.seq <| .seq (.bytes NODE_ID_SIZE) <| .seq (.bytes MESH_DOMAIN_SIZE) <| .seq .u32 <| .seq .u32 <|
      .seq .u32 <| .seq (.bytes WIRE_CHALLENGE_SIZE) (.bytes WIRE_SIGNATURE_SIZE)).map
    (fun (common, nodeId, meshDomain, collisionRound, capabilities, expirySeconds, challenge, signature) =>
      ⟨common, nodeId, meshDomain, collisionRound, capabilities, expirySeconds, challenge, signature⟩)
    (fun h => (h.common, h.nodeId, h.meshDomain, h.collisionRound, h.capabilities, h.expirySeconds, h.challenge,
      h.signature))
    (fun _ => rfl) (fun _ => rfl)

def authLayout : Layout WireAuth :=
  (commonLayout.seq <| .seq (.bytes NODE_ID_SIZE) <| .seq (.bytes NODE_ID_SIZE) <| .seq (.bytes 32) <|
      .seq (.bytes WIRE_CHALLENGE_SIZE) <| .seq (.bytes WIRE_CHALLENGE_SIZE) <| .seq (.bytes MESH_DOMAIN_SIZE) <|
      .seq .u32 (.bytes WIRE_SIGNATURE_SIZE)).map
    (fun (common, sourceNodeId, destinationNodeId, ephemeralKey, challenge, replyTo, meshDomain, collisionRound,
      signature) =>
      ⟨common, sourceNodeId, destinationNodeId, ephemeralKey, challenge, replyTo, meshDomain, collisionRound,
        signature⟩)
    (fun h => (h.common, h.sourceNodeId, h.destinationNodeId, h.ephemeralKey, h.challenge, h.replyTo, h.meshDomain,
      h.collisionRound, h.signature))
    (fun _ => rfl) (fun _ => rfl)

def controlLayout : Layout WireControl :=
  (commonLayout.seq <| .seq (.bytes NODE_ID_SIZE) <| .seq (.bytes MESH_DOMAIN_SIZE) <| .seq .u32 <|
    .seq (.pad .u16 2) <| .seq (.bytes WIRE_CONTROL_DATA_SIZE) (.bytes WIRE_SIGNATURE_SIZE)).map
    (fun (common, nodeId, meshDomain, collisionRound, opcode, data, signature) =>
      ⟨common, nodeId, meshDomain, collisionRound, opcode, data, signature⟩)
    (fun h => (h.common, h.nodeId, h.meshDomain, h.collisionRound, h.opcode, h.data, h.signature))
    (fun _ => rfl) (fun _ => rfl)

theorem dataLayout_put (h : WireData) (n : Nat) :
    dataLayout.put { h with common := h.common.asData n } = wireDataAuth h n ++ h.tag ++ [0, 0, 0, 0] := by
  simp [dataLayout, wireDataAuth]

theorem dataLayout_get (bs : Octets) : dataLayout.get bs = wireReadData (wireReadCommon bs) bs := by
  simp [dataLayout, wireReadData]

theorem dataLayout_fits (h : WireData) : dataLayout.Fits h ↔ h.tag.length = WIRE_TAG_SIZE := by
  simp [dataLayout]

theorem dataLayout_clean (bs : Octets) :
    dataLayout.Clean bs ↔ commonLayout.Clean bs ∧ bs.getD 54 0 = 0 ∧ bs.getD 55 0 = 0 ∧ bs.getD 76 0 = 0 ∧
      bs.getD 77 0 = 0 ∧ bs.getD 78 0 = 0 ∧ bs.getD 79 0 = 0 := by
  simp [dataLayout, Nat.forall_lt_succ_right, Nat.le_one_iff_eq_zero_or_eq_one, and_assoc, WIRE_TAG_SIZE]

def WireCommon.asHeader (c : WireCommon) (frameClass : UInt8) (size : Nat) : WireCommon :=
  { c with version := WIRE_VERSION, frameClass := frameClass, headerLength := UInt16.ofNat size, payloadLength := 0 }

theorem ackLayout_put (h : WireAck) :
    ackLayout.put { h with common := h.common.asHeader WIRE_ACK WIRE_ACK_SIZE } =
      wireEncodeCommon (h.common.asHeader WIRE_ACK WIRE_ACK_SIZE) ++ put32 h.acknowledgedGeneration ++
        put16 h.fragmentCount ++ [h.status, 0] ++ put64 (UInt64.ofBitVec h.bitmap) ++ h.tag := by
  simp [ackLayout]

def wireReadAck (common : WireCommon) (input : Octets) : WireAck :=
  { common := common, acknowledgedGeneration := get32 (input.drop 40), fragmentCount := get16 (input.drop 44),
    status := input.getD 46 0, bitmap := (get64 (input.drop 48)).toBitVec,
    tag := (input.drop WIRE_ACK_AUTH_SIZE).take WIRE_TAG_SIZE }

theorem ackLayout_get (bs : Octets) : ackLayout.get bs = wireReadAck (wireReadCommon bs) bs := by
  simp [ackLayout, wireReadAck, WIRE_ACK_AUTH_SIZE]

theorem ackLayout_fits (h : WireAck) : ackLayout.Fits h ↔ h.tag.length = WIRE_TAG_SIZE := by
  simp [ackLayout]

theorem ackLayout_clean (bs : Octets) : ackLayout.Clean bs ↔ commonLayout.Clean bs ∧ bs.getD 47 0 = 0 := by
  simp [ackLayout]

theorem helloLayout_put (h : WireHello) (frameClass : UInt8) :
    helloLayout.put { h with common := h.common.asHeader frameClass WIRE_HELLO_SIZE } =
      wireEncodeCommon (h.common.asHeader frameClass WIRE_HELLO_SIZE) ++ h.nodeId ++ h.meshDomain ++
        put32 h.collisionRound ++ put32 h.capabilities ++ put32 h.expirySeconds ++ h.challenge ++ h.signature := by
  simp [helloLayout]

theorem helloLayout_get (bs : Octets) : helloLayout.get bs = wireReadHello (wireReadCommon bs) bs := by
  simp [helloLayout, wireReadHello, NODE_ID_SIZE, MESH_DOMAIN_SIZE, WIRE_CHALLENGE_SIZE, WIRE_HELLO_SIGNED_SIZE]

theorem helloLayout_fits (h : WireHello) :
    helloLayout.Fits h ↔ h.nodeId.length = NODE_ID_SIZE ∧ h.meshDomain.length = MESH_DOMAIN_SIZE ∧
      h.challenge.length = WIRE_CHALLENGE_SIZE ∧ h.signature.length = WIRE_SIGNATURE_SIZE := by
  simp [helloLayout]

theorem helloLayout_clean (bs : Octets) : helloLayout.Clean bs ↔ commonLayout.Clean bs := by
  simp [helloLayout]

theorem authLayout_put (h : WireAuth) :
    authLayout.put { h with common := h.common.asHeader h.common.frameClass WIRE_AUTH_SIZE } =
      wireEncodeCommon (h.common.asHeader h.common.frameClass WIRE_AUTH_SIZE) ++ h.sourceNodeId ++
      h.destinationNodeId ++
        h.ephemeralKey ++ h.challenge ++ h.replyTo ++ h.meshDomain ++ put32 h.collisionRound ++ h.signature := by
  simp [authLayout]

theorem authLayout_get (bs : Octets) : authLayout.get bs = wireReadAuth (wireReadCommon bs) bs := by
  simp [authLayout, wireReadAuth, NODE_ID_SIZE, MESH_DOMAIN_SIZE, WIRE_CHALLENGE_SIZE, WIRE_AUTH_SIGNED_SIZE]

theorem authLayout_fits (h : WireAuth) :
    authLayout.Fits h ↔ h.sourceNodeId.length = NODE_ID_SIZE ∧ h.destinationNodeId.length = NODE_ID_SIZE ∧
      h.ephemeralKey.length = 32 ∧ h.challenge.length = WIRE_CHALLENGE_SIZE ∧ h.replyTo.length = WIRE_CHALLENGE_SIZE ∧
      h.meshDomain.length = MESH_DOMAIN_SIZE ∧ h.signature.length = WIRE_SIGNATURE_SIZE := by
  simp [authLayout]

theorem authLayout_clean (bs : Octets) : authLayout.Clean bs ↔ commonLayout.Clean bs := by
  simp [authLayout]

theorem controlLayout_put (h : WireControl) :
    controlLayout.put { h with common := h.common.asHeader WIRE_CONTROL WIRE_CONTROL_SIZE } =
      wireEncodeCommon (h.common.asHeader WIRE_CONTROL WIRE_CONTROL_SIZE) ++ h.nodeId ++ h.meshDomain ++
        put32 h.collisionRound ++ put16 h.opcode ++ [0, 0] ++ h.data ++ h.signature := by
  simp [controlLayout]

theorem controlLayout_get (bs : Octets) : controlLayout.get bs = wireReadControl (wireReadCommon bs) bs := by
  simp [controlLayout, wireReadControl, NODE_ID_SIZE, MESH_DOMAIN_SIZE, WIRE_CONTROL_DATA_SIZE,
    WIRE_CONTROL_SIGNED_SIZE]

theorem controlLayout_fits (h : WireControl) :
    controlLayout.Fits h ↔ h.nodeId.length = NODE_ID_SIZE ∧ h.meshDomain.length = MESH_DOMAIN_SIZE ∧
      h.data.length = WIRE_CONTROL_DATA_SIZE ∧ h.signature.length = WIRE_SIGNATURE_SIZE := by
  simp [controlLayout]

theorem controlLayout_clean (bs : Octets) :
    controlLayout.Clean bs ↔ commonLayout.Clean bs ∧ bs.getD 111 0 = 0 ∧ bs.getD 112 0 = 0 := by
  simp [controlLayout, Nat.le_one_iff_eq_zero_or_eq_one, NODE_ID_SIZE, MESH_DOMAIN_SIZE]

/-! ## Headers that begin with the common one -/

/-- The layout begins with the common header; `read` makes the record of it and of the octets. -/
structure Headed {α : Type} (f : Layout α) (common : α → WireCommon) (read : WireCommon → Octets → α) : Prop where
  get : ∀ bs, f.get bs = read (wireReadCommon bs) bs
  common_read : ∀ c bs, common (read c bs) = c
  clean : ∀ {bs}, f.Clean bs → commonLayout.Clean bs
  size : WIRE_COMMON_SIZE ≤ f.size ∧ f.size < 2 ^ 16

namespace Headed
variable {α : Type} {f : Layout α} {common : α → WireCommon} {read : WireCommon → Octets → α} {a : α}

theorem written (hf : Headed f common read) (hfits : f.Fits a) (rest : Octets)
    (hok : (common a).Framed (f.size + rest.length)) :
    wireDecodeCommon (f.put a ++ rest) = .ok (common a) ∧ read (common a) (f.put a ++ rest) = a ∧
      f.Clean (f.put a ++ rest) := by
  have hlength : (f.put a ++ rest).length = f.size + rest.length := by
    rw [List.length_append, f.length_put a hfits]
  have hclean := f.clean_put a rest hfits
  have hget : read (wireReadCommon (f.put a ++ rest)) (f.put a ++ rest) = a :=
    (hf.get _).symm.trans (f.get_put a rest hfits)
  have hcommon : wireReadCommon (f.put a ++ rest) = common a := by
    rw [← hf.common_read (wireReadCommon (f.put a ++ rest)) (f.put a ++ rest), hget]
  rw [hcommon] at hget
  refine ⟨?_, hget, hclean⟩
  obtain ⟨h36, h37, h38, h39⟩ := (commonLayout_clean _).mp (hf.clean hclean)
  have hlow := hf.size.1
  unfold wireDecodeCommon
  rw [if_neg (by omega)]
  simp only [hcommon]
  rw [if_neg]
  simp only [not_or, not_not, Bool.not_eq_false, Nat.not_lt, hlength]
  exact ⟨hok.version, hok.classValid, hok.flags, hok.header_ge, hok.header_le, hok.payload, h36, h37, h38, h39⟩

theorem bare (hf : Headed f common read) (hput : f.put a = bs) (hfits : f.Fits a)
    (hcommon : common a = c.asHeader frameClass f.size) (hclass : wireClassValid frameClass)
    (hflags : c.flags &&& ~~~WIRE_F_ALL = 0) :
    wireDecodeCommon bs = .ok (common a) ∧ read (common a) bs = a ∧ f.Clean bs := by
  have hsize : (c.asHeader frameClass f.size).headerLength.toNat = f.size := UInt16.toNat_ofNat_of_lt hf.size.2
  have hok : (common a).Framed (f.size + ([] : Octets).length) := by
    rw [hcommon]
    exact ⟨rfl, hclass, hflags, hf.size.1.trans hsize.ge, hsize.le, by rw [hsize]; exact (Nat.sub_self _).symm⟩
  have h := hf.written hfits [] hok
  rwa [List.append_nil, hput] at h

theorem exact (hf : Headed f common read) (hdecode : wireDecodeCommon bs = .ok c)
    (hheader : c.headerLength = UInt16.ofNat f.size) (hpayload : c.payloadLength = 0)
    (hclean : commonLayout.Clean bs → f.Clean bs) :
    f.Fits (read c bs) ∧ f.put (read c bs) = bs ∧ c.asHeader c.frameClass f.size = c := by
  obtain ⟨rfl, hframed, hclean₀⟩ := wireDecodeCommon_ok hdecode
  have hsize : (wireReadCommon bs).headerLength.toNat = f.size := by
    rw [hheader]
    exact UInt16.toNat_ofNat_of_lt hf.size.2
  have hle := hframed.header_le
  have hrest := hframed.payload
  rw [hpayload] at hrest
  have hzero : (0 : UInt16).toNat = 0 := rfl
  have hlength : bs.length = f.size := by omega
  rw [← hf.get]
  refine ⟨f.fits_get bs hlength.ge, f.exact hlength (hclean hclean₀), ?_⟩
  rw [WireCommon.asHeader, ← hframed.version, ← hheader, ← hpayload]

end Headed

theorem dataLayout_headed : Headed dataLayout WireData.common wireReadData :=
  ⟨dataLayout_get, fun _ _ => rfl, fun h => ((dataLayout_clean _).mp h).1, by decide⟩

theorem ackLayout_headed : Headed ackLayout WireAck.common wireReadAck :=
  ⟨ackLayout_get, fun _ _ => rfl, fun h => ((ackLayout_clean _).mp h).1, by decide⟩

theorem helloLayout_headed : Headed helloLayout WireHello.common wireReadHello :=
  ⟨helloLayout_get, fun _ _ => rfl, (helloLayout_clean _).mp, by decide⟩

theorem authLayout_headed : Headed authLayout WireAuth.common wireReadAuth :=
  ⟨authLayout_get, fun _ _ => rfl, (authLayout_clean _).mp, by decide⟩

theorem controlLayout_headed : Headed controlLayout WireControl.common wireReadControl :=
  ⟨controlLayout_get, fun _ _ => rfl, fun h => ((controlLayout_clean _).mp h).1, by decide⟩

/-! ## Frames without payload -/

theorem and_of_outside {x y : UInt16} (h : x &&& ~~~y = 0) : x &&& y = x := by
  apply UInt16.toBitVec_inj.mp
  refine BitVec.eq_of_getLsbD_eq fun i hi => ?_
  have hbit := congrArg (fun z => z.toBitVec.getLsbD i) h
  simp only [UInt16.toBitVec_and, UInt16.toBitVec_not, BitVec.getLsbD_and, BitVec.getLsbD_not, hi, decide_true]
    at hbit ⊢
  cases hx : x.toBitVec.getLsbD i <;> simp_all

theorem flags_eq_broadcast {flags : UInt16} (hextra : flags &&& ~~~WIRE_F_BROADCAST = 0)
    (hbroadcast : flags &&& WIRE_F_BROADCAST ≠ 0) : flags = WIRE_F_BROADCAST := by
  have hsame := and_of_outside hextra
  have hnat : flags.toNat &&& 1 = flags.toNat := congrArg UInt16.toNat hsame
  rw [Nat.and_one_is_mod] at hnat
  rw [hsame] at hbroadcast
  have hpos : flags.toNat ≠ 0 := fun h => hbroadcast (UInt16.toNat_inj.mp h)
  apply UInt16.toNat_inj.mp
  show _ = 1
  omega

theorem wireDecodeClaim_encode {h : WireHello} (hclass : wireClassValid frameClass) (hfits : helloLayout.Fits h)
    (hencode : wireEncodeClaim h frameClass = .ok bs) :
    wireDecodeClaim bs frameClass = .ok { h with common := h.common.asHeader frameClass WIRE_HELLO_SIZE } := by
  unfold wireEncodeClaim at hencode
  split_ifs at hencode with hbad
  simp only [not_or, not_not] at hbad
  obtain ⟨hextra, hbroadcast, hdestination, hscheme⟩ := hbad
  have hflags := flags_eq_broadcast hextra hbroadcast
  have hput := (helloLayout_put h frameClass).trans (Except.ok.inj hencode)
  rw [helloLayout_fits] at hfits
  obtain ⟨hcommon, hread, -⟩ :=
    helloLayout_headed.bare hput ((helloLayout_fits _).mpr hfits) rfl hclass (by rw [hflags]; decide)
  unfold wireDecodeClaim
  rw [hcommon]
  dsimp only at hread ⊢
  rw [hread, if_neg, if_pos hscheme]
  simp [WireCommon.asHeader, hflags, hdestination]

theorem wireEncodeClaim_decode {h : WireHello} (hdecode : wireDecodeClaim bs frameClass = .ok h) :
    helloLayout.Fits h ∧ wireEncodeClaim h frameClass = .ok bs := by
  unfold wireDecodeClaim at hdecode
  split at hdecode
  · exact nomatch hdecode
  rename_i common hcommon
  dsimp only at hdecode
  split_ifs at hdecode with hbad hscheme
  simp only [not_or, not_not] at hbad
  obtain ⟨rfl, hheader, hpayload, hflags, hdestination⟩ := hbad
  obtain rfl := Except.ok.inj hdecode
  obtain ⟨hfits, hput, hself⟩ := helloLayout_headed.exact hcommon hheader hpayload (helloLayout_clean bs).mpr
  refine ⟨hfits, ?_⟩
  have hclaimed : (wireReadHello common bs).common.flags = WIRE_F_BROADCAST := hflags
  rw [wireEncodeClaim, hclaimed, if_neg]
  · refine congrArg Except.ok ((helloLayout_put _ common.frameClass).symm.trans (Eq.trans ?_ hput))
    exact congrArg (fun c => helloLayout.put { wireReadHello common bs with common := c }) hself
  · simp only [not_or, not_not]
    exact ⟨by decide, by decide, hdestination, hscheme⟩

theorem wireDecodeAuth_encode {h : WireAuth} (hfits : authLayout.Fits h) (hencode : wireEncodeAuth h = .ok bs) :
    wireDecodeAuth bs = .ok { h with common := h.common.asHeader h.common.frameClass WIRE_AUTH_SIZE } := by
  unfold wireEncodeAuth at hencode
  split_ifs at hencode with hbad
  simp only [not_or, not_not] at hbad
  obtain ⟨hkind, hflags, hsource₀, hsource₁, hdestination₀, hdestination₁, hscheme, hscheme'⟩ := hbad
  have hput := (authLayout_put h).trans (Except.ok.inj hencode)
  rw [authLayout_fits] at hfits
  have hclass : wireClassValid h.common.frameClass := by
    rcases not_and_or.mp hkind with hk | hk <;> rw [not_not.mp hk] <;> decide
  obtain ⟨hcommon, hread, -⟩ :=
    authLayout_headed.bare hput ((authLayout_fits _).mpr hfits) rfl hclass (by rw [hflags]; decide)
  unfold wireDecodeAuth
  rw [hcommon]
  dsimp only at hread ⊢
  rw [hread, if_neg, if_neg]
  · simp only [not_or, not_not]
    exact ⟨hscheme, hscheme'⟩
  · simp only [not_or, not_not]
    exact ⟨hkind, hflags, rfl, rfl, hsource₀, hsource₁, hdestination₀, hdestination₁⟩

theorem wireEncodeAuth_decode {h : WireAuth} (hdecode : wireDecodeAuth bs = .ok h) :
    authLayout.Fits h ∧ wireEncodeAuth h = .ok bs := by
  unfold wireDecodeAuth at hdecode
  split at hdecode
  · exact nomatch hdecode
  rename_i common hcommon
  dsimp only at hdecode
  split_ifs at hdecode with hbad hscheme
  simp only [not_or, not_not] at hbad hscheme
  obtain ⟨hkind, hflags, hheader, hpayload, hsource₀, hsource₁, hdestination₀, hdestination₁⟩ := hbad
  obtain rfl := Except.ok.inj hdecode
  obtain ⟨hfits, hput, hself⟩ := authLayout_headed.exact hcommon hheader hpayload (authLayout_clean bs).mpr
  refine ⟨hfits, ?_⟩
  rw [wireEncodeAuth, if_neg]
  · refine congrArg Except.ok ((authLayout_put _).symm.trans (Eq.trans ?_ hput))
    exact congrArg (fun c => authLayout.put { wireReadAuth common bs with common := c }) hself
  · simp only [not_or, not_not]
    exact ⟨hkind, hflags, hsource₀, hsource₁, hdestination₀, hdestination₁, hscheme⟩

theorem wireDecodeControl_encode {h : WireControl} (hfits : controlLayout.Fits h)
    (hencode : wireEncodeControl h = .ok bs) :
    wireDecodeControl bs = .ok { h with common := h.common.asHeader WIRE_CONTROL WIRE_CONTROL_SIZE } := by
  unfold wireEncodeControl at hencode
  split_ifs at hencode with hbad
  simp only [not_or, not_not] at hbad
  obtain ⟨hflags, hsource₀, hsource₁, hdestination, hscheme, hopcode⟩ := hbad
  have hput := (controlLayout_put h).trans (Except.ok.inj hencode)
  rw [controlLayout_fits] at hfits
  obtain ⟨hcommon, hread, hclean⟩ :=
    controlLayout_headed.bare hput ((controlLayout_fits _).mpr hfits) rfl rfl (by rw [hflags]; decide)
  unfold wireDecodeControl
  rw [hcommon]
  dsimp only at hread ⊢
  rw [hread, if_neg, if_neg]
  · simp only [not_or, not_not]
    exact ⟨hscheme, hopcode⟩
  · simp only [not_or, not_not]
    exact ⟨rfl, hflags, rfl, rfl, hsource₀, hsource₁, hdestination, ((controlLayout_clean _).mp hclean).2⟩

theorem wireEncodeControl_decode {h : WireControl} (hdecode : wireDecodeControl bs = .ok h) :
    controlLayout.Fits h ∧ wireEncodeControl h = .ok bs := by
  unfold wireDecodeControl at hdecode
  split at hdecode
  · exact nomatch hdecode
  rename_i common hcommon
  dsimp only at hdecode
  split_ifs at hdecode with hbad hlast
  simp only [not_or, not_not] at hbad hlast
  obtain ⟨hclass, hflags, hheader, hpayload, hsource₀, hsource₁, hdestination, hzero⟩ := hbad
  obtain rfl := Except.ok.inj hdecode
  obtain ⟨hfits, hput, hself⟩ :=
    controlLayout_headed.exact hcommon hheader hpayload fun h => (controlLayout_clean bs).mpr ⟨h, hzero⟩
  rw [hclass] at hself
  refine ⟨hfits, ?_⟩
  rw [wireEncodeControl, if_neg]
  · refine congrArg Except.ok ((controlLayout_put _).symm.trans (Eq.trans ?_ hput))
    exact congrArg (fun c => controlLayout.put { wireReadControl common bs with common := c }) hself
  · simp only [not_or, not_not]
    exact ⟨hflags, hsource₀, hsource₁, hdestination, hlast⟩

theorem wireDecodeAck_encode {h : WireAck} (hfits : ackLayout.Fits h) (hencode : wireEncodeAck h = .ok bs) :
    wireDecodeAck bs = .ok { h with common := h.common.asHeader WIRE_ACK WIRE_ACK_SIZE } := by
  unfold wireEncodeAck at hencode
  dsimp only at hencode
  split_ifs at hencode with hbad hmask
  simp only [not_or, not_not] at hbad
  obtain ⟨hflags, hsource₀, hsource₁, hdestination₀, hdestination₁, hgeneration, hmessage, hcounter, hfields⟩ := hbad
  have hput := (ackLayout_put h).trans (Except.ok.inj hencode)
  rw [ackLayout_fits] at hfits
  obtain ⟨hcommon, hread, hclean⟩ :=
    ackLayout_headed.bare hput ((ackLayout_fits _).mpr hfits) rfl rfl (by rw [hflags]; decide)
  obtain ⟨-, hacknowledged, hcount, hstatus, hbitmap, htag⟩ := WireAck.mk.inj hread
  unfold wireDecodeAck
  rw [hcommon]
  simp only [hacknowledged, hcount, hstatus, hbitmap, htag]
  rw [if_neg, if_neg, if_neg]
  · exact hmask
  · simp only [not_or]
    exact hfields
  simp only [not_or, not_not]
  exact ⟨rfl, hflags, rfl, rfl, hsource₀, hsource₁, hdestination₀, hdestination₁, hgeneration, hmessage, hcounter,
    ((ackLayout_clean _).mp hclean).2⟩

theorem wireEncodeAck_decode {h : WireAck} (hdecode : wireDecodeAck bs = .ok h) :
    ackLayout.Fits h ∧ wireEncodeAck h = .ok bs := by
  unfold wireDecodeAck at hdecode
  split at hdecode
  · exact nomatch hdecode
  rename_i common hcommon
  dsimp only at hdecode
  split_ifs at hdecode with hbad hfields hmask
  simp only [not_or, not_not] at hbad hfields
  obtain ⟨hclass, hflags, hheader, hpayload, hsource₀, hsource₁, hdestination₀, hdestination₁, hgeneration, hmessage,
    hcounter, h47⟩ := hbad
  obtain rfl := Except.ok.inj hdecode
  obtain ⟨hfits, hput, hself⟩ :=
    ackLayout_headed.exact hcommon hheader hpayload fun h => (ackLayout_clean bs).mpr ⟨h, h47⟩
  rw [hclass] at hself
  refine ⟨hfits, ?_⟩
  unfold wireEncodeAck
  dsimp only
  rw [if_neg, if_neg hmask]
  · refine congrArg Except.ok ((ackLayout_put (wireReadAck common bs)).symm.trans (Eq.trans ?_ hput))
    exact congrArg (fun c => ackLayout.put { wireReadAck common bs with common := c }) hself
  · simp only [not_or, not_not]
    exact ⟨hflags, hsource₀, hsource₁, hdestination₀, hdestination₁, hgeneration, hmessage, hcounter, hfields⟩

/-! ## Data frames -/

structure WireData.Checked (h : WireData) : Prop where
  count : h.fragmentCount ≠ 0
  index : h.fragmentIndex < h.fragmentCount
  mode : h.deliveryMode ≤ DELIVERY_RELIABLE_ORDERED
  priority : h.priority.toNat ≤ PRIORITY_MAX
  flags : h.common.flags &&& ~~~WIRE_F_ALL = 0

theorem wireEncodeDataHeader_ok {header : Octets} (hencode : wireEncodeDataHeader capacity h n = .ok header) :
    n ≤ 0xffff ∧ h.Checked ∧ header = dataLayout.put { h with common := h.common.asData n } := by
  unfold wireEncodeDataHeader at hencode
  split_ifs at hencode with hbad
  simp only [not_or, not_not, Nat.not_lt, UInt16.not_le, UInt8.not_lt] at hbad
  obtain ⟨hlength, -, hcount, hindex, hmode, hpriority, hflags⟩ := hbad
  exact ⟨hlength, ⟨hcount, hindex, hmode, hpriority, hflags⟩, (Except.ok.inj hencode).symm.trans
    (dataLayout_put h n).symm⟩

theorem wireEncodeDataHeader_of (hlength : n ≤ 0xffff) (hcapacity : WIRE_DATA_SIZE + n ≤ capacity) (h' : h.Checked) :
    wireEncodeDataHeader capacity h n = .ok (dataLayout.put { h with common := h.common.asData n }) := by
  rw [dataLayout_put, wireEncodeDataHeader, if_neg]
  simp only [not_or, not_not, Nat.not_lt, UInt16.not_le, UInt8.not_lt]
  exact ⟨hlength, hcapacity, h'.count, h'.index, h'.mode, h'.priority, h'.flags⟩

theorem WireCommon.asData_framed (hflags : c.flags &&& ~~~WIRE_F_ALL = 0) (hlength : n ≤ 0xffff) :
    (c.asData n).Framed (WIRE_DATA_SIZE + n) := by
  have hheader : (c.asData n).headerLength.toNat = WIRE_DATA_SIZE := rfl
  have hpayload : (c.asData n).payloadLength.toNat = n :=
    UInt16.toNat_ofNat_of_lt (Nat.lt_of_le_of_lt hlength (by decide))
  refine ⟨rfl, rfl, hflags, ?_, ?_, ?_⟩
  · rw [hheader]
    decide
  · rw [hheader]
    exact Nat.le_add_right _ _
  · rw [hheader, hpayload, Nat.add_sub_cancel_left]

theorem wireDecodeData_put (hchecked : h.Checked) (hlength : payload.length ≤ 0xffff)
    (htag : h.tag.length = WIRE_TAG_SIZE)
    (hfits : wireLengthBad { h with common := h.common.asData payload.length } = false) :
    wireDecodeData (dataLayout.put { h with common := h.common.asData payload.length } ++ payload) =
      .ok ({ h with common := h.common.asData payload.length }, payload) := by
  set h' : WireData := { h with common := h.common.asData payload.length } with hh'
  have hlayout : dataLayout.Fits h' := (dataLayout_fits h').mpr htag
  obtain ⟨hcommon, hread, hclean⟩ :=
    dataLayout_headed.written hlayout payload (WireCommon.asData_framed hchecked.flags hlength)
  have hdrop : (dataLayout.put h' ++ payload).drop WIRE_DATA_SIZE = payload :=
    List.drop_left' (dataLayout.length_put h' hlayout)
  unfold wireDecodeData
  rw [hcommon]
  dsimp only
  rw [hread, hdrop, if_neg, if_neg]
  · simp only [not_or, not_not, UInt16.not_le, UInt8.not_lt, Nat.not_lt, Bool.not_eq_true]
    exact ⟨hchecked.count, hchecked.index, hfits, hchecked.mode, hchecked.priority, ((dataLayout_clean _).mp hclean).2⟩
  · simp only [not_or, not_not]
    exact ⟨rfl, rfl⟩

theorem wireDecodeData_ok (hdecode : wireDecodeData bs = .ok (h, payload)) :
    h.Checked ∧ dataLayout.Fits h ∧ h.common.asData payload.length = h.common ∧ payload.length ≤ 0xffff ∧
      h.common.payloadLength.toNat = payload.length ∧ wireLengthBad h = false ∧ bs = dataLayout.put h ++ payload := by
  unfold wireDecodeData at hdecode
  split at hdecode
  · exact nomatch hdecode
  rename_i common hcommon
  dsimp only at hdecode
  obtain ⟨rfl, hframed, hclean⟩ := wireDecodeCommon_ok hcommon
  split_ifs at hdecode with hkind hbad
  simp only [not_or, not_not] at hkind
  obtain ⟨hh, rfl⟩ := Prod.mk.inj (Except.ok.inj hdecode)
  rw [hh] at hbad
  have hread : wireReadCommon bs = h.common := congrArg WireData.common hh
  rw [hread] at hframed hkind
  obtain rfl := (dataLayout_get bs).trans hh
  simp only [not_or, not_not, UInt16.not_le, UInt8.not_lt, Nat.not_lt, Bool.not_eq_true] at hbad
  obtain ⟨hcount, hindex, hlength, hmode, hpriority, h54, h55, h76, h77, h78, h79⟩ := hbad
  have hheader : (dataLayout.get bs).common.headerLength.toNat = WIRE_DATA_SIZE := by rw [hkind.2]; rfl
  have hsize : WIRE_DATA_SIZE ≤ bs.length := hheader ▸ hframed.header_le
  have hpayload := hframed.payload
  rw [hheader, ← List.length_drop] at hpayload
  have hput := dataLayout.put_get bs hsize ((dataLayout_clean bs).mpr ⟨hclean, h54, h55, h76, h77, h78, h79⟩)
  have hlt := (dataLayout.get bs).common.payloadLength.toNat_lt
  refine ⟨⟨hcount, hindex, hmode, hpriority, hframed.flags⟩, dataLayout.fits_get bs hsize, ?_, by omega, hpayload,
    hlength, ?_⟩
  · rw [WireCommon.asData, ← hframed.version, ← hkind.1, ← hkind.2, ← hpayload, UInt16.ofNat_toNat]
  · rw [hput]
    exact (List.take_append_drop WIRE_DATA_SIZE bs).symm

theorem wireDecodeData_encode (htag : h.tag.length = WIRE_TAG_SIZE) (hunicast : h.common.flags &&& WIRE_F_BROADCAST = 0)
    (hencode : wireEncodeData capacity h payload = .ok bs) :
    wireDecodeData bs = .ok ({ h with common := h.common.asData payload.length }, payload) := by
  unfold wireEncodeData at hencode
  split_ifs at hencode with hlogical
  cases hheader : wireEncodeDataHeader capacity h payload.length with
  | error e => rw [hheader] at hencode; exact nomatch hencode
  | ok header =>
    rw [hheader] at hencode
    obtain ⟨hlength, hchecked, rfl⟩ := wireEncodeDataHeader_ok hheader
    obtain rfl := Except.ok.inj hencode
    refine wireDecodeData_put hchecked hlength htag ?_
    have hpayload : (UInt16.ofNat payload.length).toNat = payload.length :=
      UInt16.toNat_ofNat_of_lt (Nat.lt_of_le_of_lt hlength (by decide))
    simp only [wireLengthBad, WireCommon.asData, hunicast, hpayload]
    simpa using hlogical

theorem wireEncodeData_decode (hdecode : wireDecodeData bs = .ok (h, payload))
    (hunicast : h.common.flags &&& WIRE_F_BROADCAST = 0) :
    h.tag.length = WIRE_TAG_SIZE ∧ ∀ capacity, bs.length ≤ capacity → wireEncodeData capacity h payload = .ok bs := by
  obtain ⟨hchecked, hfits, hself, hlength, hpayload, hbad, rfl⟩ := wireDecodeData_ok hdecode
  refine ⟨(dataLayout_fits h).mp hfits, fun capacity hcapacity => ?_⟩
  rw [List.length_append, dataLayout.length_put h hfits] at hcapacity
  have hlogical : ¬ h.logicalLength.toNat < payload.length := by
    simpa [wireLengthBad, hunicast, hpayload] using hbad
  rw [wireEncodeData, if_neg hlogical, wireEncodeDataHeader_of hlength hcapacity hchecked, hself]

theorem broadcast_of_flags {flags : UInt16} (h : flags &&& ~~~WIRE_F_FINAL = WIRE_F_BROADCAST) :
    flags &&& WIRE_F_BROADCAST ≠ 0 := by
  intro hzero
  have hboth : flags &&& ~~~WIRE_F_FINAL &&& WIRE_F_BROADCAST = 0 := by
    rw [UInt16.and_assoc, UInt16.and_comm (~~~WIRE_F_FINAL), ← UInt16.and_assoc, hzero, UInt16.zero_and]
  rw [h] at hboth
  exact absurd hboth (by decide)

theorem wireDecodeBroadcastData_encode {signature : Octets} (hsignature : signature.length = WIRE_SIGNATURE_SIZE)
    (hencode : wireEncodeBroadcastData capacity h signature payload = .ok bs) :
    wireDecodeBroadcastData bs =
      .ok ({ h with common := h.common.asData (WIRE_BROADCAST_OVERHEAD + payload.length),
                    tag := signature.take WIRE_TAG_SIZE }, signature, payload) := by
  unfold wireEncodeBroadcastData at hencode
  split_ifs at hencode with hbad
  simp only [not_or, not_not, Nat.not_lt] at hbad
  obtain ⟨hlogical, hdestination, hflags, hmode, hmarker⟩ := hbad
  set signed : WireData := { h with tag := signature.take WIRE_TAG_SIZE } with hsigned
  cases hheader : wireEncodeDataHeader capacity signed (WIRE_BROADCAST_OVERHEAD + payload.length) with
  | error e => rw [hheader] at hencode; exact nomatch hencode
  | ok header =>
    rw [hheader] at hencode
    obtain ⟨hlength, hchecked, rfl⟩ := wireEncodeDataHeader_ok hheader
    have hrest : (signature.drop WIRE_TAG_SIZE).length = WIRE_BROADCAST_OVERHEAD := by
      rw [List.length_drop, hsignature]
      rfl
    have htake : (signature.drop WIRE_TAG_SIZE).take WIRE_BROADCAST_OVERHEAD = signature.drop WIRE_TAG_SIZE :=
      List.take_of_length_le hrest.le
    have hphysical : (signature.drop WIRE_TAG_SIZE ++ payload).length = WIRE_BROADCAST_OVERHEAD + payload.length := by
      rw [List.length_append, hrest]
    obtain rfl := Except.ok.inj hencode
    rw [htake, List.append_assoc]
    rw [← hphysical] at hlength ⊢
    have htag : signed.tag.length = WIRE_TAG_SIZE := by
      rw [hsigned, List.length_take, hsignature]
      rfl
    have hpayload : (UInt16.ofNat (signature.drop WIRE_TAG_SIZE ++ payload).length).toNat =
        WIRE_BROADCAST_OVERHEAD + payload.length :=
      (UInt16.toNat_ofNat_of_lt (Nat.lt_of_le_of_lt hlength (by decide))).trans hphysical
    have hbroadcast := broadcast_of_flags hflags
    have hdata := wireDecodeData_put hchecked hlength htag (by
      simp only [wireLengthBad, WireCommon.asData, hsigned, if_pos hbroadcast, hpayload]
      simpa using hlogical)
    unfold wireDecodeBroadcastData
    rw [hdata]
    dsimp only
    rw [if_neg, List.take_left' hrest, List.drop_left' hrest]
    · rw [hsigned, List.take_append_drop]
    rintro (h1 | h1 | h1 | h1 | h1)
    · exact h1 hdestination
    · exact h1 hflags
    · exact h1 hmode
    · exact h1 hmarker
    · have hlong : ¬ (UInt16.ofNat (signature.drop WIRE_TAG_SIZE ++ payload).length).toNat <
        WIRE_BROADCAST_OVERHEAD := by
        rw [hpayload]
        omega
      exact hlong h1

theorem wireEncodeBroadcastData_decode {signature : Octets}
    (hdecode : wireDecodeBroadcastData bs = .ok (h, signature, payload)) :
    signature.length = WIRE_SIGNATURE_SIZE ∧
    ∀ capacity, bs.length ≤ capacity → wireEncodeBroadcastData capacity h signature payload = .ok bs := by
  unfold wireDecodeBroadcastData at hdecode
  cases hdata : wireDecodeData bs with
  | error e => rw [hdata] at hdecode; exact nomatch hdecode
  | ok r =>
    obtain ⟨h', physical⟩ := r
    rw [hdata] at hdecode
    dsimp only at hdecode
    split_ifs at hdecode with hbad
    simp only [not_or, not_not, Nat.not_lt] at hbad
    obtain ⟨hdestination, hflags, hmode, hmarker, hlong⟩ := hbad
    obtain ⟨rfl, hrest⟩ := Prod.mk.inj (Except.ok.inj hdecode)
    obtain ⟨rfl, rfl⟩ := Prod.mk.inj hrest
    obtain ⟨hchecked, hfits, hself, hlength, hpayload, hlogical, rfl⟩ := wireDecodeData_ok hdata
    have htag := (dataLayout_fits h').mp hfits
    rw [hpayload] at hlong
    have htake : (physical.take WIRE_BROADCAST_OVERHEAD).length = WIRE_BROADCAST_OVERHEAD := by
      rw [List.length_take]
      omega
    refine ⟨by rw [List.length_append, htag, htake]; rfl, fun capacity hcapacity => ?_⟩
    rw [List.length_append, dataLayout.length_put h' hfits] at hcapacity
    have hphysical : WIRE_BROADCAST_OVERHEAD + (physical.drop WIRE_BROADCAST_OVERHEAD).length = physical.length := by
      rw [List.length_drop]
      omega
    have hbroadcast := broadcast_of_flags hflags
    rw [wireEncodeBroadcastData, if_neg, List.take_left' htag, List.drop_left' htag, hphysical,
      wireEncodeDataHeader_of hlength hcapacity hchecked, hself]
    · dsimp only
      rw [List.take_take, Nat.min_self, List.append_assoc, List.take_append_drop]
    · rintro (h1 | h1 | h1 | h1 | h1)
      · simp only [wireLengthBad, if_pos hbroadcast, hpayload, Bool.or_eq_false_iff, decide_eq_false_iff_not]
          at hlogical
        rw [List.length_drop] at h1
        omega
      · exact h1 hdestination
      · exact h1 hflags
      · exact h1 hmode
      · exact h1 hmarker

/-! ## All frames -/

/-- The frames of the protocol; CHALLENGE and RESPONSE have one encoder and one decoder. -/
inductive WireKind where
  | hello
  | conflict
  | auth
  | control
  | ack
  | data
  | broadcast
  deriving DecidableEq, Repr

namespace WireKind

/-- What a frame is made of: its record, and for data the payload, with the signature before it in a broadcast. -/
abbrev Value : WireKind → Type
  | hello | conflict => WireHello
  | auth => WireAuth
  | control => WireControl
  | ack => WireAck
  | data => WireData × Octets
  | broadcast => WireData × Octets × Octets

def encode : (kind : WireKind) → (capacity : Nat) → kind.Value → Except Errno Octets
  | hello, _, h => wireEncodeHello h
  | conflict, _, h => wireEncodeConflict h
  | auth, _, h => wireEncodeAuth h
  | control, _, h => wireEncodeControl h
  | ack, _, h => wireEncodeAck h
  | data, capacity, (h, payload) => wireEncodeData capacity h payload
  | broadcast, capacity, (h, signature, payload) => wireEncodeBroadcastData capacity h signature payload

def decode : (kind : WireKind) → Octets → Except Errno kind.Value
  | hello, bs => wireDecodeHello bs
  | conflict, bs => wireDecodeConflict bs
  | auth, bs => wireDecodeAuth bs
  | control, bs => wireDecodeControl bs
  | ack, bs => wireDecodeAck bs
  | data, bs => wireDecodeData bs
  | broadcast, bs => wireDecodeBroadcastData bs

def Sized : (kind : WireKind) → kind.Value → Prop
  | hello, h | conflict, h => h.nodeId.length = NODE_ID_SIZE ∧ h.meshDomain.length = MESH_DOMAIN_SIZE ∧
      h.challenge.length = WIRE_CHALLENGE_SIZE ∧ h.signature.length = WIRE_SIGNATURE_SIZE
  | auth, h => h.sourceNodeId.length = NODE_ID_SIZE ∧ h.destinationNodeId.length = NODE_ID_SIZE ∧
      h.ephemeralKey.length = 32 ∧ h.challenge.length = WIRE_CHALLENGE_SIZE ∧ h.replyTo.length = WIRE_CHALLENGE_SIZE ∧
      h.meshDomain.length = MESH_DOMAIN_SIZE ∧ h.signature.length = WIRE_SIGNATURE_SIZE
  | control, h => h.nodeId.length = NODE_ID_SIZE ∧ h.meshDomain.length = MESH_DOMAIN_SIZE ∧
      h.data.length = WIRE_CONTROL_DATA_SIZE ∧ h.signature.length = WIRE_SIGNATURE_SIZE
  | ack, h => h.tag.length = WIRE_TAG_SIZE
  | data, (h, _) => h.tag.length = WIRE_TAG_SIZE
  | broadcast, (_, signature, _) => signature.length = WIRE_SIGNATURE_SIZE

def Addressed : (kind : WireKind) → kind.Value → Prop
  | data, (h, _) => h.common.flags &&& WIRE_F_BROADCAST = 0
  | _, _ => True

def filled : (kind : WireKind) → kind.Value → kind.Value
  | hello, h => { h with common := h.common.asHeader WIRE_HELLO WIRE_HELLO_SIZE }
  | conflict, h => { h with common := h.common.asHeader WIRE_CONFLICT WIRE_HELLO_SIZE }
  | auth, h => { h with common := h.common.asHeader h.common.frameClass WIRE_AUTH_SIZE }
  | control, h => { h with common := h.common.asHeader WIRE_CONTROL WIRE_CONTROL_SIZE }
  | ack, h => { h with common := h.common.asHeader WIRE_ACK WIRE_ACK_SIZE }
  | data, (h, payload) => ({ h with common := h.common.asData payload.length }, payload)
  | broadcast, (h, signature, payload) =>
    ({ h with
      common := h.common.asData (WIRE_BROADCAST_OVERHEAD + payload.length), tag := signature.take WIRE_TAG_SIZE },
      signature, payload)

theorem decode_encode (kind : WireKind) {v : kind.Value} (hsized : kind.Sized v) (haddressed : kind.Addressed v)
    (hencode : kind.encode capacity v = .ok bs) : kind.decode bs = .ok (kind.filled v) := by
  cases kind with
  | hello | conflict => exact wireDecodeClaim_encode rfl ((helloLayout_fits v).mpr hsized) hencode
  | auth => exact wireDecodeAuth_encode ((authLayout_fits v).mpr hsized) hencode
  | control => exact wireDecodeControl_encode ((controlLayout_fits v).mpr hsized) hencode
  | ack => exact wireDecodeAck_encode ((ackLayout_fits v).mpr hsized) hencode
  | data => exact wireDecodeData_encode hsized haddressed hencode
  | broadcast => exact wireDecodeBroadcastData_encode hsized hencode

theorem encode_decode (kind : WireKind) {v : kind.Value} (hdecode : kind.decode bs = .ok v)
    (haddressed : kind.Addressed v) :
    kind.Sized v ∧ ∀ capacity, bs.length ≤ capacity → kind.encode capacity v = .ok bs := by
  cases kind with
  | hello | conflict =>
    obtain ⟨hfits, hencode⟩ := wireEncodeClaim_decode hdecode
    exact ⟨(helloLayout_fits v).mp hfits, fun _ _ => hencode⟩
  | auth =>
    obtain ⟨hfits, hencode⟩ := wireEncodeAuth_decode hdecode
    exact ⟨(authLayout_fits v).mp hfits, fun _ _ => hencode⟩
  | control =>
    obtain ⟨hfits, hencode⟩ := wireEncodeControl_decode hdecode
    exact ⟨(controlLayout_fits v).mp hfits, fun _ _ => hencode⟩
  | ack =>
    obtain ⟨hfits, hencode⟩ := wireEncodeAck_decode hdecode
    exact ⟨(ackLayout_fits v).mp hfits, fun _ _ => hencode⟩
  | data => exact wireEncodeData_decode hdecode haddressed
  | broadcast => exact wireEncodeBroadcastData_decode hdecode

end WireKind

/-- **The codecs are exact**: what an encoder accepts decodes to the same fields, with those filled in that the encoder
fills in; what a decoder accepts is what the encoder makes of the result; and so two byte strings that decode to one
frame are the same. -/
theorem frames_exact (kind : WireKind) :
    (∀ capacity (v : kind.Value) bs, kind.Sized v → kind.Addressed v → kind.encode capacity v = .ok bs →
      kind.decode bs = .ok (kind.filled v)) ∧
    (∀ bs (v : kind.Value), kind.decode bs = .ok v → kind.Addressed v →
      kind.Sized v ∧ ∀ capacity, bs.length ≤ capacity → kind.encode capacity v = .ok bs) ∧
    ∀ bs bs' (v : kind.Value), kind.decode bs = .ok v → kind.decode bs' = .ok v → kind.Addressed v → bs = bs' := by
  refine ⟨fun _ _ _ => kind.decode_encode, fun _ _ => kind.encode_decode, fun bs bs' v hbs hbs' haddressed => ?_⟩
  have h := (kind.encode_decode hbs haddressed).2 (max bs.length bs'.length) (Nat.le_max_left _ _)
  have h' := (kind.encode_decode hbs' haddressed).2 (max bs.length bs'.length) (Nat.le_max_right _ _)
  exact Except.ok.inj (h.symm.trans h')

def sampleBroadcast : WireData where
  common := { flags := WIRE_F_BROADCAST, destinationNativeLocator := NATIVE_LOCATOR_BROADCAST }
  fragmentCount := 1
  logicalLength := 1
  tag := List.replicate WIRE_TAG_SIZE 1

/-- The tag of a broadcast comes back as the first octets of the signature. -/
theorem broadcast_tag_replaced :
    ((wireEncodeBroadcastData 200 sampleBroadcast (List.replicate WIRE_SIGNATURE_SIZE 2) [7]).toOption.bind
      fun bs => (wireDecodeBroadcastData bs).toOption).map (fun v => v.1.tag) = some (List.replicate WIRE_TAG_SIZE 2) ∧
    sampleBroadcast.tag ≠ List.replicate WIRE_TAG_SIZE 2 := by
  decide +kernel

theorem sampleBroadcast_exact :
    ∃ bs, WireKind.broadcast.encode 200 (sampleBroadcast, List.replicate WIRE_SIGNATURE_SIZE 2, [7]) = .ok bs ∧
      WireKind.broadcast.decode bs =
        .ok (WireKind.broadcast.filled (sampleBroadcast, List.replicate WIRE_SIGNATURE_SIZE 2, [7])) :=
  ⟨_, rfl, (frames_exact .broadcast).1 200 _ _ rfl trivial rfl⟩

end Melodi
