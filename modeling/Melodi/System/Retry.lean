import Melodi.System.Accept

/-!
# A fragment that could not be stored is sent again

The sender of a reliable message repeats a frame until it is acknowledged. `melodi_data_receive` marks the counter of
the frame before it looks for room, so that a frame that finds none is taken for a repeated one the next time.
-/

namespace Melodi
open Lib Scenario
variable {d : Device} {frame : Octets} {o : Opened} {p : Peer} {P : Platform} {r : Resources} {h : WireData}
variable {i : Fin PEER_LIMIT} {bindings : List Binding} {bitmap : BitVec 64} {t : Token}

/-! ## The two arrivals -/

/-- The frame opens as `o`: authentic, reliable, and new to the window of its peer. -/
structure NewFragment (P : Platform) (d : Device) (frame : Octets) (link : RxMeta) (o : Opened) : Prop where
  opens : rxDataOpen P d frame link true true true = .ok (.unicast o)
  reliable : o.header.isReliable = true
  fresh : o.duplicate = false

/-- One of the allocations that the call makes before it marks the counter fails. -/
def FailsEarly (o : Opened) (r : Resources) : Prop :=
  (o.header.isOrdered = true ∧ r.allocBatch = false) ∨ r.allocBuffers = false

/-- The call cannot store the fragment: an early allocation fails, the table or the byte budget of the reassembly is
full, or the complete message cannot be allocated. -/
def Starved (P : Platform) (d : Device) (o : Opened) (r : Resources) : Prop :=
  FailsEarly o r ∨ (dataCommit P d o r.ambient).2 = .error .ENOSPC ∨ (dataCommit P d o r.ambient).2 = .error .ENOMEM

def Device.seen (d : Device) (h : WireData) : Bool :=
  (lookupPeer d h.common.sourceNativeLocator).any fun ip => replaySeen ip.2.receiveReplay h.common.counter.toNat

/-- Nothing is missing now: the allocations succeed, there is room for the fragment and for an ordered message that it
completes, and the acknowledgement has an identity, a counter and a place in the queue. -/
structure Recovered (P : Platform) (d : Device) (o : Opened) (r : Resources) : Prop where
  allocBatch : r.allocBatch = true
  allocBuffers : r.allocBuffers = true
  allocComplete : r.ambient.allocComplete = true
  queued : r.queued = .ok ()
  identity : d.identityGeneration ≠ 0
  counter : d.transmitCounter < U64_MAX
  room : o.header.fragmentCount ≠ 1 →
    RoomFor (reassemblyExpire d.rx r.ambient.jiffies) o.source o.header o.sessionEpoch
  ordered : o.header.isOrdered = true → ∀ m bitmap e,
    (dataCommit P d o r.ambient).2 ≠ .ok (.ordered m bitmap (.error e))

/-- The ordered buffer did not refuse the message. -/
def Outcome.taken : Outcome → Bool
  | .ordered _ _ batch => batch.isOk
  | _ => true

def Outcome.Holds (o : Opened) (t : Token) (rx : RxState) : Outcome → Prop
  | .again .. => False
  | .incomplete bitmap => ∃ i e, rx.reassemblies i = some e ∧
      e.isFor o.source o.header.common.identityGeneration o.sessionEpoch o.header.common.messageId = true ∧
      e.received = bitmap ∧ e.fragments (fragmentSlot o.header) = some o.plaintext
  | .ordered m _ _ => m.origin.messageId = o.header.common.messageId ∧ t ∈ m.origin.tokens
  | .whole m _ => m.origin.messageId = o.header.common.messageId ∧ t ∈ m.origin.tokens

/-- The call processes the frame as a new fragment: it marks the counter, stores the fragment, and sends an
acknowledgement that names it. -/
def Retried (P : Platform) (bindings : List Binding) (d : Device) (frame : Octets) (link : RxMeta) (o : Opened)
    (r : Resources) : Prop :=
  ∃ d₁ t outcome es k, dataCommit P d o r.ambient = (d₁, .ok outcome) ∧ d₁.log = .accept t :: d.log ∧
    t.counter = o.header.common.counter.toNat ∧ outcome.Holds o t d₁.rx ∧ outcome.taken = true ∧
    (dataReceive P bindings d frame link r).1.log = .ack k :: es ++ d₁.log ∧ k.peer = o.source ∧
    k.messageId = o.header.common.messageId ∧ k.bitmap.getLsbD o.header.fragmentIndex.toNat = true

/-! ## A full table -/

namespace Scenario

end Scenario

/-! ## The window after the first arrival -/

theorem Opened.Authentic.seen (ha : o.Authentic d i p) : d.seen o.header = o.duplicate := by
  simp [Device.seen, ha.lookup, ha.duplicate]

theorem Starved.first (bindings : List Binding) {link : RxMeta} (hnew : NewFragment P d frame link o)
    (hs : Starved P d o r) : (FailsEarly o r ∧ (dataReceive P bindings d frame link r).1 = d) ∨
      (¬FailsEarly o r ∧ (dataReceive P bindings d frame link r).1 = (dataCommit P d o r.ambient).1) := by
  obtain ⟨-, -, -, ⟨i, p, hauth⟩, halloc⟩ := rxDataOpen_unicast hnew.opens
  have hopen := halloc r.allocBatch r.allocBuffers r.allocSigning
  unfold dataReceive
  by_cases hearly : FailsEarly o r
  · replace hopen := hopen.trans (if_pos hearly)
    exact .inl ⟨hearly, by rw [hopen]⟩
  replace hopen := hopen.trans (if_neg hearly)
  refine .inr ⟨hearly, ?_⟩
  obtain ⟨e, he⟩ : ∃ e, (dataCommit P d o r.ambient).2 = .error e := by
    rcases hs with hs | hs | hs
    · exact absurd hs hearly
    · exact ⟨_, hs⟩
    · exact ⟨_, hs⟩
  obtain ⟨d₁, heq⟩ : ∃ d₁, dataCommit P d o r.ambient = (d₁, .error e) := ⟨_, Prod.ext rfl he⟩
  simp only [hopen, dataAccept, heq]

/-! ## A repeated frame is not processed as a new one -/

theorem Names.mono (hn : Names h bitmap .COMPLETE) (status : AckStatus) :
    Names h bitmap status := ⟨hn.fragment, hn.within, fun _ => hn.complete rfl⟩

/-- The bitmap an outcome is acknowledged with, and whether that is as a complete message. -/
def Outcome.Answers (h : WireData) : Outcome → Prop
  | .again .. => False
  | .incomplete bitmap => Names h bitmap .PARTIAL
  | .ordered _ bitmap _ => Names h bitmap .COMPLETE
  | .whole m bitmap => Names h bitmap .COMPLETE ∧ m.destinationService = h.destinationService

theorem dataComplete_holds {m : Complete} {nowMs : Nat} (hm : m.IsOf o.header o.source t.session)
    (ht : t ∈ m.origin.tokens) (hn : Names o.header bitmap .COMPLETE) :
    ∃ rx' outcome, dataComplete d o.header o.sessionEpoch m bitmap nowMs = ({ d with rx := rx' }, .ok outcome) ∧
      outcome.Holds o t rx' ∧ outcome.Answers o.header := by
  unfold dataComplete
  split
  · exact ⟨_, _, rfl, ⟨hm.messageId, ht⟩, hn⟩
  · exact ⟨d.rx, _, rfl, ⟨hm.messageId, ht⟩, hn, hm.destinationService⟩

theorem names_one (hb : h.Bounded) (hone : h.fragmentCount = 1) : Names h 1#64 .COMPLETE := by
  have hi : h.fragmentIndex.toNat = 0 := by
    have := hb.index_lt
    rw [hone] at this
    simpa using this
  refine ⟨by rw [hi]; decide, ?_, fun _ => ?_⟩ <;> rw [hone] <;> decide

theorem names_stored (hwithin : bitmap &&& ~~~fragmentMask h.fragmentCount.toNat = 0) (hb : h.Bounded) :
    Names h (bitmap ||| (1#64 <<< h.fragmentIndex.toNat)) .PARTIAL where
  fragment := by simp [getLsbD_oneBit hb.index_lt_64]
  within := by
    refine (within_fragmentMask_iff hb.count_le _).mpr fun j hj => ?_
    rw [BitVec.getLsbD_or, getLsbD_oneBit hb.index_lt_64, Bool.or_eq_true, decide_eq_true_eq] at hj
    rcases hj with hj | rfl
    · exact (within_fragmentMask_iff hb.count_le _).mp hwithin j hj
    · exact hb.index_lt
  complete := by simp

theorem dataAdmit_holds {a : Ambient} (hb : o.header.Bounded) (halloc : a.allocComplete = true)
    (hroom : o.header.fragmentCount ≠ 1 → RoomFor (reassemblyExpire d.rx a.jiffies) o.source o.header o.sessionEpoch) :
    ∃ rx' outcome, dataAdmit P d o.header o.source o.sessionEpoch o.metadata o.plaintext t a =
      ({ d with rx := rx' }, .ok outcome) ∧ outcome.Holds o t rx' ∧ outcome.Answers o.header := by
  unfold dataAdmit
  split_ifs with hone
  · exact dataComplete_holds ⟨rfl, rfl, rfl, rfl, rfl, rfl, rfl⟩ (List.mem_singleton.mpr rfl) (names_one hb hone)
  obtain ⟨i, hfind, hentry⟩ := (hroom hone).slot
  have hawaits := RoomFor.awaits (P := P) hentry hb hone a.jiffies o.source o.sessionEpoch o.metadata
  have hadds := reassemblyAdd_adds P d.rx a.jiffies o.source o.header o.sessionEpoch o.metadata o.plaintext true t
  rw [halloc]
  rw [reassemblyAdd_room hfind hentry, reassemblyPut_awaits hawaits (hroom hone).octets] at hadds ⊢
  have hnames := names_stored hawaits.received hb
  generalize hentryFor : (reassemblyExpire d.rx a.jiffies).entryFor P i a.jiffies o.source o.header o.sessionEpoch
    o.metadata = e at hawaits hadds hnames ⊢
  by_cases hfull : (reassemblyStore e o.header o.plaintext t).received = fragmentMask o.header.fragmentCount.toNat
  · simp only [if_pos hfull] at hadds ⊢
    refine dataComplete_holds (hadds.complete _ rfl) ?_ ⟨hnames.fragment, hnames.within, fun _ => hfull⟩
    simp [reassemblyStore, Reassembly.complete]
  simp only [if_neg hfull]
  refine ⟨_, _, rfl, ⟨i, _, Table.set_self _ _ _, ?_, rfl, Table.set_self _ _ _⟩, hnames⟩
  rw [← hentryFor]
  unfold RxState.entryFor
  cases he : (reassemblyExpire d.rx a.jiffies).reassemblies i with
  | none => simp [reassemblyStore, Reassembly.isFor, reassemblyOpen]
  | some e' =>
    -- an entry that is found and not free is the one of the message
    unfold reassemblyFind at hfind
    rw [Option.or_eq_some_iff] at hfind
    rcases hfind with hf | ⟨-, hf⟩
    · obtain ⟨e'', he'', hp⟩ := Table.find?_some hf
      rw [he, Option.some.injEq] at he''
      exact he'' ▸ hp
    · rw [Table.free?_some hf] at he
      cases he

/-! ## And acknowledged -/

theorem orderDeliver_eq (bindings : List Binding) (results : Nat → Except Errno Unit) (n : Nat)
    (batch : List OrderMessage) (d : Device) :
    ∃ es, orderDeliver bindings results n batch d = { d with log := es ++ d.log } := by
  induction batch generalizing n d with
  | nil => exact ⟨[], rfl⟩
  | cons m batch ih =>
    obtain ⟨es, heq⟩ := ih (n + 1) (handOver bindings d m.message (results n))
    refine ⟨es ++ [.handOver m.message (netlinkReceive bindings m.message (results n))], ?_⟩
    rw [orderDeliver, heq]
    simp [handOver, Device.note]

structure Answering (o : Opened) (d : Device) (p : Peer) : Prop where
  lookup : ∃ i, lookupPeer d o.header.common.sourceNativeLocator = some (i, p)
  ready : p.sessionReady = true
  generation : o.header.common.identityGeneration = p.generation
  source : p.nodeId = o.source
  locator : d.localNativeLocator = o.header.common.destinationNativeLocator
  identity : d.identityGeneration ≠ 0
  counter : d.transmitCounter < U64_MAX

theorem dataAcknowledge_sends {plan : AckPlan} (ha : Answering o d p) (hans : o.header.Answerable)
    (hb : o.header.Bounded)
    (error : Except Errno Unit) (hplan : plan.header = o.header) (hn : Names o.header plan.bitmap plan.status)
    (hq : r.queued = .ok ()) :
    ∃ k e, (dataAcknowledge P d plan r error).1.log = .ack k :: e :: d.log ∧ k.peer = o.source ∧
      k.messageId = o.header.common.messageId ∧ k.bitmap = plan.bitmap := by
  obtain ⟨rx, heq⟩ : ∃ rx, (if plan.receipt then receiptSection P d plan r.storeJiffies else (d, .ok ())).1 =
      { d with rx := rx } := by
    split
    · obtain ⟨receipts, heq⟩ := receiptSection_eq P d plan r.storeJiffies
      exact ⟨_, heq⟩
    · exact ⟨d.rx, rfl⟩
  obtain ⟨i, hl⟩ := ha.lookup
  have hl' : lookupPeer { d with rx := rx } o.header.common.sourceNativeLocator = some (i, p) := hl
  obtain ⟨e, hlog⟩ := dataSendAck_acks (d := { d with rx := rx }) hl' ha.ready ha.generation hans hb hn ha.locator
    ha.identity ha.counter
  unfold dataAcknowledge
  dsimp only
  rw [heq, hplan, hq, hlog]
  exact ⟨_, e, rfl, ha.source, rfl, rfl⟩

theorem dataFinish_sends (bindings : List Binding) {outcome : Outcome} (ha : Answering o d p)
    (hans : o.header.Answerable)
    (hb : o.header.Bounded) (hrel : o.header.isReliable = true) (hout : outcome.Answers o.header)
    (hq : r.queued = .ok ()) :
    ∃ k es, (dataFinish P bindings d o.header o.source o.sessionEpoch r outcome).1.log = .ack k :: es ++ d.log ∧
      k.peer = o.source ∧ k.messageId = o.header.common.messageId ∧
      k.bitmap.getLsbD o.header.fragmentIndex.toNat = true := by
  have hlogged : ∀ (es : List Event) {d' : Device} {plan : AckPlan} {error : Except Errno Unit},
      d' = { d with log := es ++ d.log } → plan.header = o.header → Names o.header plan.bitmap plan.status →
      ∃ k es, (dataAcknowledge P d' plan r error).1.log = .ack k :: es ++ d.log ∧ k.peer = o.source ∧
        k.messageId = o.header.common.messageId ∧ k.bitmap.getLsbD o.header.fragmentIndex.toNat = true := by
    rintro es d' plan error rfl hplan hn
    have ha' : Answering o { d with log := es ++ d.log } p :=
      ⟨ha.lookup, ha.ready, ha.generation, ha.source, ha.locator, ha.identity, ha.counter⟩
    obtain ⟨k, e, hlog, hpeer, hid, hbit⟩ := dataAcknowledge_sends (P := P) ha' hans hb error hplan hn hq
    refine ⟨k, e :: es, ?_, hpeer, hid, hbit ▸ hn.fragment⟩
    rw [hlog]
    simp
  cases outcome with
  | again bitmap status => exact hout.elim
  | incomplete bitmap =>
    simp only [dataFinish, hrel, if_true]
    exact hlogged [] rfl rfl hout
  | ordered m bitmap batch =>
    cases batch with
    | error e => exact hlogged [] rfl rfl (hout.mono _)
    | ok batch =>
      obtain ⟨es, heq⟩ := orderDeliver_eq bindings r.results 0 batch d
      exact hlogged es heq rfl hout
  | whole m bitmap =>
    have hecho : m.destinationService ≠ SERVICE_ECHO := hout.2 ▸ hans.echo hrel
    simp only [dataFinish, if_neg hecho, hrel, if_true]
    exact hlogged [_] rfl rfl (hout.1.mono _)

theorem dataCommit_ordered {a : Ambient} {d' : Device} {m : Complete} {batch : Except Errno (List OrderMessage)}
    (h : dataCommit P d o a = (d', .ok (.ordered m bitmap batch))) : o.header.isOrdered = true := by
  rcases dataCommit_cases h with ⟨-, e, he⟩ | ⟨-, -, -, bitmap, status, -, he⟩ | ⟨k, p, d₁, t, rx', -, -, -, ht, -⟩
  · cases he
  · cases he
  · cases ht with
    | ordered hord => exact hord

theorem NewFragment.retried {link : RxMeta} (hnew : NewFragment P d frame link o) (hrec : Recovered P d o r)
    (bindings : List Binding) : Retried P bindings d frame link o r := by
  obtain ⟨⟨ciphertext, hdec, -⟩, hvalid, hcast, ⟨i, p, hauth⟩, halloc⟩ := rxDataOpen_unicast hnew.opens
  have hb := wireDecodeData_bounded hdec hvalid
  obtain ⟨d₁, t, hm, hcommit⟩ := dataCommit_new (P := P) hauth hnew.fresh r.ambient
  obtain ⟨w, hl, -⟩ := lookupPeer_mark hauth.lookup hm
  obtain ⟨ht, w', -, hd₁⟩ := markAccepted_ok hm
  have hrx : d₁.rx = d.rx := by rw [hd₁]
  obtain ⟨rx', outcome, hadmitted, hholds, hout⟩ := dataAdmit_holds (P := P) (d := d₁) (t := t) hb hrec.allocComplete
    (hrx ▸ hrec.room)
  rw [hadmitted] at hcommit
  have hans : Answering o { d₁ with rx := rx' } { p with receiveReplay := w } := by
    refine ⟨⟨i, hl⟩, hauth.ready, hauth.generation, hauth.source.symm, ?_, ?_, ?_⟩ <;> rw [hd₁]
    · exact hauth.destination.symm
    · exact hrec.identity
    · exact hrec.counter
  obtain ⟨k, es, hlog, hpeer, hid, hbit⟩ := dataFinish_sends (P := P) bindings hans
    (dataHeaderValid_answerable hvalid hcast) hb hnew.reliable hout hrec.queued
  have hopen := halloc r.allocBatch r.allocBuffers r.allocSigning
  rw [hrec.allocBatch, hrec.allocBuffers] at hopen
  simp only [Bool.true_eq_false, and_false, or_self, if_false] at hopen
  have htaken : outcome.taken = true := by
    cases outcome with
    | ordered m bitmap batch =>
      cases batch with
      | error e => exact absurd (by rw [hcommit]) (hrec.ordered (dataCommit_ordered hcommit) m bitmap e)
      | ok batch => rfl
    | _ => rfl
  refine ⟨{ d₁ with rx := rx' }, t, outcome, es, k, hcommit, by rw [hd₁], by rw [ht], hholds, htaken, ?_, hpeer, hid,
    hbit⟩
  unfold dataReceive
  simp only [hrec.allocBatch, hrec.allocBuffers, hopen, dataAccept, hcommit]
  exact hlog

namespace Scenario

end Scenario

end Melodi
