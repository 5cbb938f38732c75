import Melodi.Core.Send

/-!
# What the receive sections can do

One statement for each function of the receive side that says all it can do to the tables, whatever it is called with.
The invariants of the device are derived from these statements and never look inside the functions again.
-/

namespace Melodi
open Lib
variable {d d' : Device} {res : Except Errno Sealing} {source : NodeId} {p : Peer} {P : Platform} {rx : RxState}
  {a : SendAmbient} {h : WireData}
variable {cursor overhead frameMtu length : Nat} {sessionEpoch : UInt64} {t : Token} {o : BroadcastOpened} {s : Sealing}

/-! ## Fragments -/

/-- The message comes from the frame with header `h`, and perhaps from others of the same message, in the session
given. -/
structure Complete.IsOf (m : Complete) (h : WireData) (source : NodeId) (session : Nat) : Prop where
  source : m.source = source
  sourceService : m.sourceService = h.sourceService
  destinationService : m.destinationService = h.destinationService
  session : m.origin.session = session
  generation : m.origin.generation = h.common.identityGeneration
  messageId : m.origin.messageId = h.common.messageId
  marker : m.origin.marker = h.orderingMarker.toNat

def addedMessage : Except Errno (Option Complete × BitVec 64) → Option Complete
  | .ok (m, _) => m
  | .error _ => none

def Complete.count (q : Token → Bool) (m : Complete) : Nat := m.origin.tokens.countP q

def RxState.fragmentCount (q : Token → Bool) (rx : RxState) : Nat := rx.reassemblies.sum fun e => e.tokens.countP q

/-- All that adding a fragment can do: the tables it leaves, and the message that is complete, if one is. -/
structure Adds (h : WireData) (source : NodeId) (token : Token) (rx rx' : RxState) (out : Option Complete) : Prop where
  orderRx : rx'.orderRx = rx.orderRx
  orderMessages : rx'.orderMessages = rx.orderMessages
  receipt : ∀ j r, rx'.receipts j = some r → rx.receipts j = some r
  tokens : ∀ q, rx'.fragmentCount q + (out.map (Complete.count q)).getD 0 ≤ rx.fragmentCount q + [token].countP q
  complete : ∀ m, out = some m → m.IsOf h source token.session

theorem fragmentCount_clear_le (q : Token → Bool) (rx : RxState) (i : Fin REASSEMBLY_LIMIT) :
    (reassemblyClear rx i).fragmentCount q ≤ rx.fragmentCount q := by
  unfold reassemblyClear
  split
  · exact Nat.le_refl _
  have := Table.sum_clear rx.reassemblies i fun e => e.tokens.countP q
  simp only [RxState.fragmentCount]
  omega

theorem fragmentCount_clear (q : Token → Bool) (rx : RxState) {i : Fin REASSEMBLY_LIMIT} {e : Reassembly}
    (he : rx.reassemblies i = some e) :
    (reassemblyClear rx i).fragmentCount q + e.tokens.countP q = rx.fragmentCount q := by
  have := Table.sum_clear rx.reassemblies i fun e => e.tokens.countP q
  simp only [reassemblyClear, he, RxState.fragmentCount, Table.weight_some] at this ⊢
  omega

theorem fragmentCount_set (q : Token → Bool) (rx : RxState) (i : Fin REASSEMBLY_LIMIT) (e : Reassembly) :
    RxState.fragmentCount q { rx with reassemblies := rx.reassemblies.set i e } +
      Table.weight (fun e => e.tokens.countP q) (rx.reassemblies i) = rx.fragmentCount q + e.tokens.countP q :=
  Table.sum_set rx.reassemblies i e _

theorem fragmentCount_expire_le (q : Token → Bool) (rx : RxState) (jiffies : UInt64) :
    (reassemblyExpire rx jiffies).fragmentCount q ≤ rx.fragmentCount q := Table.sum_drop_le _ _ _

theorem reassemblyExpire_orderRx (rx : RxState) (jiffies : UInt64) :
    (reassemblyExpire rx jiffies).orderRx = rx.orderRx := by simp only [reassemblyExpire, reassemblyClearWhere]

theorem reassemblyExpire_orderMessages (rx : RxState) (jiffies : UInt64) :
    (reassemblyExpire rx jiffies).orderMessages = rx.orderMessages := by
  simp only [reassemblyExpire, reassemblyClearWhere]

theorem reassemblyExpire_receipt {jiffies : UInt64} {j : Fin RECEIPT_LIMIT} {r : Receipt}
    (h : (reassemblyExpire rx jiffies).receipts j = some r) : rx.receipts j = some r := by
  simp only [reassemblyExpire, Table.drop_eq_some] at h
  exact h.1

/-- The entry is one of the message that the frame with header `h` belongs to. -/
structure Reassembly.Matches (e : Reassembly) (h : WireData) (source : NodeId) : Prop where
  source : e.source = source
  sourceService : e.sourceService = h.sourceService
  destinationService : e.destinationService = h.destinationService
  generation : e.generation = h.common.identityGeneration
  messageId : e.messageId = h.common.messageId
  marker : e.orderingMarker = h.orderingMarker

theorem reassemblyOpen_matches (P : Platform) (jiffies : UInt64) (source : NodeId) (h : WireData)
    (sessionEpoch : UInt64)
    (metadata : RxMeta) : (reassemblyOpen P jiffies source h sessionEpoch metadata).Matches h source :=
  ⟨rfl, rfl, rfl, rfl, rfl, rfl⟩

theorem Reassembly.Matches.store {e : Reassembly} (he : e.Matches h source) (fragment : Octets) (token : Token) :
    (reassemblyStore e h fragment token).complete token.session |>.IsOf h source
      token.session :=
  ⟨he.source, he.sourceService, he.destinationService, rfl, he.generation, he.messageId,
    congrArg UInt32.toNat he.marker⟩

theorem reassemblyClear_orderRx (rx : RxState) (i : Fin REASSEMBLY_LIMIT) :
    (reassemblyClear rx i).orderRx = rx.orderRx := by
  unfold reassemblyClear
  split <;> rfl

theorem reassemblyClear_orderMessages (rx : RxState) (i : Fin REASSEMBLY_LIMIT) :
    (reassemblyClear rx i).orderMessages = rx.orderMessages := by
  unfold reassemblyClear
  split <;> rfl

theorem reassemblyClear_receipts (rx : RxState) (i : Fin REASSEMBLY_LIMIT) :
    (reassemblyClear rx i).receipts = rx.receipts := by
  unfold reassemblyClear
  split <;> rfl

theorem reassemblyPut_adds {i : Fin REASSEMBLY_LIMIT} {e : Reassembly} (he : e.Matches h source)
    (hslot : ∀ q, Table.weight (fun e => e.tokens.countP q) (rx.reassemblies i) = e.tokens.countP q) (fragment : Octets)
    (alloc : Bool) (token : Token) :
    Adds h source token rx (reassemblyPut rx i e h fragment alloc token).1
      (addedMessage (reassemblyPut rx i e h fragment alloc token).2) := by
  have hopen : ∀ q, RxState.fragmentCount q { rx with reassemblies := rx.reassemblies.set i e } =
    rx.fragmentCount q := by
    intro q
    have := fragmentCount_set q rx i e
    rw [hslot] at this
    omega
  have hstored : ∀ q, RxState.fragmentCount q { rx with
      reassemblies := (rx.reassemblies.set i e).set i (reassemblyStore e h fragment token)
      reassemblyBytes := rx.reassemblyBytes + h.common.payloadLength.toNat } =
      rx.fragmentCount q + [token].countP q := by
    intro q
    have := fragmentCount_set q { rx with reassemblies := rx.reassemblies.set i e } i
      (reassemblyStore e h fragment token)
    simp only [Table.set_self, Table.weight_some, reassemblyStore, List.countP_append, hopen q] at this
    simp only [RxState.fragmentCount, reassemblyStore] at this ⊢
    omega
  have hcleared : Adds h source token rx (reassemblyClear { rx with
      reassemblies := (rx.reassemblies.set i e).set i (reassemblyStore e h fragment token)
      reassemblyBytes := rx.reassemblyBytes + h.common.payloadLength.toNat } i) none := by
    refine ⟨reassemblyClear_orderRx _ _, reassemblyClear_orderMessages _ _,
      fun j r hr => by rwa [reassemblyClear_receipts] at hr, fun q => ?_, nofun⟩
    have hle := fragmentCount_clear_le q { rx with
      reassemblies := (rx.reassemblies.set i e).set i (reassemblyStore e h fragment token)
      reassemblyBytes := rx.reassemblyBytes + h.common.payloadLength.toNat } i
    rwa [hstored q] at hle
  unfold reassemblyPut
  dsimp only
  split_ifs with hdup hfull hmask hlen halloc
  · exact ⟨rfl, rfl, fun _ _ hr => hr, fun q => by simp [addedMessage, hopen], by simp [addedMessage]⟩
  · exact ⟨rfl, rfl, fun _ _ hr => hr, fun q => by simp [addedMessage, hopen], by simp [addedMessage]⟩
  · exact ⟨rfl, rfl, fun _ _ hr => hr, fun q => by simp [addedMessage, hstored], by simp [addedMessage]⟩
  · exact hcleared
  · exact hcleared
  refine ⟨hcleared.orderRx, hcleared.orderMessages, hcleared.receipt, fun q => ?_, fun m hm => ?_⟩
  · have := fragmentCount_clear q { rx with
      reassemblies := (rx.reassemblies.set i e).set i (reassemblyStore e h fragment token)
      reassemblyBytes := rx.reassemblyBytes + h.common.payloadLength.toNat } (Table.set_self _ i _)
    rw [hstored q] at this
    simp only [addedMessage, Option.map_some, Option.getD_some, Complete.count, Reassembly.complete]
    omega
  · simp only [addedMessage, Option.some.injEq] at hm
    exact hm ▸ he.store fragment token

theorem reassemblyAdd_adds (P : Platform) (rx : RxState) (jiffies : UInt64) (source : NodeId) (h : WireData)
    (sessionEpoch : UInt64) (metadata : RxMeta) (fragment : Octets) (alloc : Bool) (token : Token) :
    Adds h source token rx (reassemblyAdd P rx jiffies source h sessionEpoch metadata fragment alloc token).1
      (addedMessage (reassemblyAdd P rx jiffies source h sessionEpoch metadata fragment alloc token).2) := by
  have hexp : ∀ rx' out, Adds h source token (reassemblyExpire rx jiffies) rx' out →
    Adds h source token rx rx' out := by
    intro rx' out ha
    refine ⟨ha.orderRx.trans (reassemblyExpire_orderRx _ _), ha.orderMessages.trans
      (reassemblyExpire_orderMessages _ _),
      fun j r hr => reassemblyExpire_receipt (ha.receipt j r hr), fun q => ?_, ha.complete⟩
    · exact Nat.le_trans (ha.tokens q) (Nat.add_le_add_right (fragmentCount_expire_le q rx jiffies) _)
  unfold reassemblyAdd
  dsimp only
  generalize reassemblyExpire rx jiffies = rx₁ at hexp ⊢
  apply hexp
  cases hfind : reassemblyFind rx₁ source h.common.identityGeneration sessionEpoch h.common.messageId with
  | none => exact ⟨rfl, rfl, fun _ _ hr => hr, fun q => by simp [addedMessage], by simp [addedMessage]⟩
  | some i =>
    dsimp only
    cases hslot : rx₁.reassemblies i with
    | none => exact reassemblyPut_adds (reassemblyOpen_matches ..) (fun q => by simp [hslot, reassemblyOpen]) _ _ _
    | some e =>
      dsimp only
      split_ifs with hcons
      · refine ⟨reassemblyClear_orderRx _ _, reassemblyClear_orderMessages _ _,
          fun j r hr => by rwa [reassemblyClear_receipts] at hr, fun q => ?_, by simp [addedMessage]⟩
        have := fragmentCount_clear_le q rx₁ i
        simp only [addedMessage, Option.map_none, Option.getD_none]
        omega
      · refine reassemblyPut_adds ?_ (fun q => by simp [hslot]) _ _ _
        have hkey : e.isFor source h.common.identityGeneration sessionEpoch h.common.messageId = true := by
          unfold reassemblyFind at hfind
          rw [Option.or_eq_some_iff] at hfind
          rcases hfind with hf | ⟨-, hf⟩
          · obtain ⟨e', he', hp⟩ := Table.find?_some hf
            rw [hslot, Option.some.injEq] at he'
            exact he' ▸ hp
          · rw [Table.free?_some hf] at hslot
            cases hslot
        simp only [Reassembly.isFor, reassemblyConsistent, Bool.and_eq_true, decide_eq_true_eq,
          Bool.not_eq_false] at hkey hcons
        exact ⟨hkey.2, hcons.1.1.1.1.1.1.2, hcons.1.1.1.1.1.2, hkey.1.1.1, hkey.1.2, hcons.2⟩

/-! ## The buffer of a flow -/

structure Detaches (i : Fin ORDER_FLOW_LIMIT) (rx rx' : RxState) (batch : List OrderMessage) : Prop where
  orderRx : rx'.orderRx = rx.orderRx
  reassemblies : rx'.reassemblies = rx.reassemblies
  receipts : rx'.receipts = rx.receipts
  left : ∀ j m, rx'.orderMessages j = some m → rx.orderMessages j = some m
  taken : ∀ j m, rx.orderMessages j = some m → rx'.orderMessages j = some m ∨ m ∈ batch
  buffered : ∀ m ∈ batch, m.flowIndex = i ∧ ∃ j, rx.orderMessages j = some m
  sum : ∀ f, rx'.orderMessages.sum f + (batch.map f).sum = rx.orderMessages.sum f

theorem Detaches.refl (i : Fin ORDER_FLOW_LIMIT) (rx : RxState) : Detaches i rx rx [] where
  orderRx := rfl
  reassemblies := rfl
  receipts := rfl
  left := fun _ _ h => h
  taken := fun _ _ h => .inl h
  buffered := by simp
  sum := by simp

theorem Detaches.trans {i : Fin ORDER_FLOW_LIMIT} {rx' rx'' : RxState} {b b' : List OrderMessage}
    (h₁ : Detaches i rx rx' b) (h₂ : Detaches i rx' rx'' b') : Detaches i rx rx'' (b ++ b') where
  orderRx := h₂.orderRx.trans h₁.orderRx
  reassemblies := h₂.reassemblies.trans h₁.reassemblies
  receipts := h₂.receipts.trans h₁.receipts
  left := fun j m h => h₁.left j m (h₂.left j m h)
  taken := by
    intro j m h
    rcases h₁.taken j m h with h | h
    · rcases h₂.taken j m h with h | h
      · exact .inl h
      · exact .inr (List.mem_append_right _ h)
    · exact .inr (List.mem_append_left _ h)
  buffered := by
    intro m hm
    rcases List.mem_append.mp hm with hm | hm
    · exact h₁.buffered m hm
    · obtain ⟨hi, j, hj⟩ := h₂.buffered m hm
      exact ⟨hi, j, h₁.left j m hj⟩
  sum := by
    intro f
    have e₁ := h₁.sum f
    have e₂ := h₂.sum f
    rw [List.map_append, List.sum_append]
    omega

theorem orderMessageFind_some {i : Fin ORDER_FLOW_LIMIT} {j : Fin ORDER_BUFFER_LIMIT}
    (h : orderMessageFind rx i cursor = some j) :
    ∃ m, rx.orderMessages j = some m ∧ m.flowIndex = i ∧ m.marker = cursor := by
  obtain ⟨m, hm, hp⟩ := Table.find?_some h
  simp only [Bool.and_eq_true, decide_eq_true_eq] at hp
  exact ⟨m, hm, hp.1, hp.2⟩

theorem orderMessageFind_isSome {i : Fin ORDER_FLOW_LIMIT} :
    (orderMessageFind rx i cursor).isSome = true ↔
      ∃ j m, rx.orderMessages j = some m ∧ m.flowIndex = i ∧ m.marker = cursor := by
  constructor
  · intro h
    obtain ⟨j, hj⟩ := Option.isSome_iff_exists.mp h
    obtain ⟨m, hm⟩ := orderMessageFind_some hj
    exact ⟨j, m, hm⟩
  · rintro ⟨j, m, hm, hi, hc⟩
    rw [Option.isSome_iff_ne_none]
    intro hnone
    have := Table.find?_none hnone hm
    simp [hi, hc] at this

theorem orderDetachOne_cases (i : Fin ORDER_FLOW_LIMIT) (rx : RxState) (acc : List OrderMessage) (cursor : Nat) :
    (orderMessageFind rx i cursor = none ∧ orderDetachOne i (rx, acc) cursor = (rx, acc)) ∨
    ∃ m rx', m.flowIndex = i ∧ m.marker = cursor ∧ orderDetachOne i (rx, acc) cursor = (rx', acc ++ [m]) ∧
      Detaches i rx rx' [m] := by
  unfold orderDetachOne
  cases hf : orderMessageFind rx i cursor with
  | none => exact .inl ⟨rfl, rfl⟩
  | some j =>
    obtain ⟨m, hm, hi, hc⟩ := orderMessageFind_some hf
    simp only [Option.bind_some, hm, Option.map_some]
    refine .inr ⟨m, _, hi, hc, rfl, ?_⟩
    refine ⟨rfl, rfl, rfl, fun k n hk => (Table.clear_eq_some.mp hk).2, fun k n hk => ?_, ?_, fun f => ?_⟩
    · by_cases hkj : k = j
      · rw [hkj, hm, Option.some.injEq] at hk
        exact .inr (by simp [hk])
      · exact .inl (Table.clear_eq_some.mpr ⟨hkj, hk⟩)
    · simpa using ⟨hi, j, hm⟩
    · have := Table.sum_clear rx.orderMessages j f
      simpa [hm] using this

theorem orderDetach_foldl (i : Fin ORDER_FLOW_LIMIT) (cursors : List Nat) (rx : RxState) (acc : List OrderMessage) :
    ∃ batch rx', cursors.foldl (orderDetachOne i) (rx, acc) = (rx', acc ++ batch) ∧ Detaches i rx rx' batch ∧
      (cursors.Nodup → (∀ c ∈ cursors, (orderMessageFind rx i c).isSome = true) →
        batch.map (·.marker) = cursors) := by
  induction cursors generalizing rx acc with
  | nil => exact ⟨[], rx, by simp, Detaches.refl i rx, by simp⟩
  | cons c cs ih =>
    rcases orderDetachOne_cases i rx acc c with ⟨hnone, heq⟩ | ⟨m, rx₁, -, hc, heq, hd⟩
    · obtain ⟨batch, rx', hfold, hdet, -⟩ := ih rx acc
      refine ⟨batch, rx', by rw [List.foldl_cons, heq, hfold], hdet, fun _ hall => ?_⟩
      have := hall c List.mem_cons_self
      simp [hnone] at this
    · obtain ⟨batch, rx', hfold, hdet, hmark⟩ := ih rx₁ (acc ++ [m])
      refine ⟨m :: batch, rx', by rw [List.foldl_cons, heq, hfold]; simp, hd.trans hdet, fun hnd hall => ?_⟩
      rw [List.map_cons, hc, hmark (List.nodup_cons.mp hnd).2]
      intro x hx
      -- the message just taken has another marker, so that the one with `x` is still there
      obtain ⟨j, n, hn, hi, hm⟩ := orderMessageFind_isSome.mp (hall x (List.mem_cons_of_mem _ hx))
      refine orderMessageFind_isSome.mpr ⟨j, n, ?_, hi, hm⟩
      rcases hd.taken j n hn with h | h
      · exact h
      rw [List.mem_singleton] at h
      rw [h, hc] at hm
      exact absurd (hm ▸ hx) (List.nodup_cons.mp hnd).1

theorem orderDetachLocked_ok {rx' : RxState} {i : Fin ORDER_FLOW_LIMIT} {marker count : Nat} {batch : List OrderMessage}
    (h : orderDetachLocked rx i marker count = (rx', .ok batch)) :
    Detaches i rx rx' batch ∧ count ≤ ORDER_WINDOW + 1 ∧
      ((orderMarkers marker count).Nodup → batch.map (·.marker) = orderMarkers marker count) := by
  unfold orderDetachLocked at h
  split_ifs at h with hcount hany
  · cases h
  · cases h
  obtain ⟨batch', rx'', hfold, hdet, hmark⟩ := orderDetach_foldl i (orderMarkers marker count) rx []
  rw [hfold] at h
  simp only [List.nil_append, Prod.mk.injEq, Except.ok.injEq] at h
  obtain ⟨rfl, rfl⟩ := h
  refine ⟨hdet, Nat.le_of_not_lt hcount, fun hnd => hmark hnd fun c hc => ?_⟩
  simp only [List.any_eq_true, not_exists, not_and, Bool.not_eq_true, Option.isNone_eq_false_iff] at hany
  exact hany c hc

theorem orderDetachLocked_error {rx' : RxState} {i : Fin ORDER_FLOW_LIMIT} {marker count : Nat} {e : Errno}
    (h : orderDetachLocked rx i marker count = (rx', .error e)) :
    rx' = rx ∧ (ORDER_WINDOW + 1 < count ∨ ∃ c ∈ orderMarkers marker count, orderMessageFind rx i c = none) := by
  unfold orderDetachLocked at h
  split_ifs at h with hcount hany
  · exact ⟨(Prod.mk.inj h).1.symm, .inl hcount⟩
  · refine ⟨(Prod.mk.inj h).1.symm, .inr ?_⟩
    simpa [List.any_eq_true] using hany
  · cases h

/-! ## Messages into flows -/

theorem orderRxFlowLocked_cases {sourceService destinationService : UInt16} {generation : UInt32}
    {i : Fin ORDER_FLOW_LIMIT} {created : Bool}
    (h : orderRxFlowLocked rx source sourceService destinationService generation sessionEpoch = .ok (i, created)) :
    (created = false ∧ ∃ f, rx.orderRx i = some f ∧
      f.isFor source sourceService destinationService generation sessionEpoch = true) ∨
    (created = true ∧ rx.orderRx i = none ∧ ∀ k f, rx.orderRx k = some f →
      f.isFor source sourceService destinationService generation sessionEpoch = false) := by
  unfold orderRxFlowLocked at h
  cases hf : rx.orderRx.find? (OrderRxFlow.isFor source sourceService destinationService generation sessionEpoch) with
  | some k =>
    simp only [hf, Except.ok.injEq, Prod.mk.injEq] at h
    obtain ⟨rfl, rfl⟩ := h
    obtain ⟨f, hfk, hp⟩ := Table.find?_some hf
    exact .inl ⟨rfl, f, hfk, hp⟩
  | none =>
    cases hfree : rx.orderRx.free? with
    | none => simp [hf, hfree] at h
    | some k =>
      simp only [hf, hfree, Except.ok.injEq, Prod.mk.injEq] at h
      obtain ⟨rfl, rfl⟩ := h
      exact .inr ⟨rfl, Table.free?_some hfree, fun k f hk => Table.find?_none hf hk⟩

/-- All that `melodi_order_admit_locked` can do with the message `m` of the frame with header `h`. -/
inductive Admits (h : WireData) (sessionEpoch : UInt64) (m : Complete) (nowMs : Nat) (rx : RxState) :
    RxState → Except Errno (List OrderMessage) → Prop where
  | refused {e} : Admits h sessionEpoch m nowMs rx rx (.error e)
  | duplicate {i created state}
      (hflow : orderRxFlowLocked rx m.source h.sourceService h.destinationService h.common.identityGeneration
        sessionEpoch = .ok (i, created))
      (hstate : orderAdmit (orderRxState rx i created) h.orderingMarker.toNat nowMs = .ok (.duplicate, state)) :
      Admits h sessionEpoch m nowMs rx rx (.ok [])
  | held {i created state j}
      (hflow : orderRxFlowLocked rx m.source h.sourceService h.destinationService h.common.identityGeneration
        sessionEpoch = .ok (i, created))
      (hstate : orderAdmit (orderRxState rx i created) h.orderingMarker.toNat nowMs = .ok (.held, state))
      (hfree : rx.orderMessages j = none) :
      Admits h sessionEpoch m nowMs rx
        (orderInsert rx h m i (orderRxWrite rx h sessionEpoch m i created state) j) (.ok [])
  | released {i created state j marker count rx' batch}
      (hflow : orderRxFlowLocked rx m.source h.sourceService h.destinationService h.common.identityGeneration
        sessionEpoch = .ok (i, created))
      (hstate : orderAdmit (orderRxState rx i created) h.orderingMarker.toNat nowMs =
        .ok (.released marker count, state))
      (hfree : rx.orderMessages j = none)
      (hdetach : orderDetachLocked (orderInsert rx h m i (orderRxWrite rx h sessionEpoch m i created state) j) i marker
        count = (rx', .ok batch)) :
      Admits h sessionEpoch m nowMs rx rx' (.ok batch)
  | broken {i created state j marker count rx' e}
      (hflow : orderRxFlowLocked rx m.source h.sourceService h.destinationService h.common.identityGeneration
        sessionEpoch = .ok (i, created))
      (hstate : orderAdmit (orderRxState rx i created) h.orderingMarker.toNat nowMs =
        .ok (.released marker count, state))
      (hfree : rx.orderMessages j = none)
      (hdetach : orderDetachLocked (orderInsert rx h m i (orderRxWrite rx h sessionEpoch m i created state) j) i marker
        count = (rx', .error e)) :
      Admits h sessionEpoch m nowMs rx (orderFlowClear rx' i) (.error e)

theorem orderAdmitLocked_admits (rx : RxState) (h : WireData) (sessionEpoch : UInt64) (m : Complete) (nowMs : Nat) :
    Admits h sessionEpoch m nowMs rx (orderAdmitLocked rx h sessionEpoch m nowMs).1
      (orderAdmitLocked rx h sessionEpoch m nowMs).2 := by
  unfold orderAdmitLocked
  cases hflow : orderRxFlowLocked rx m.source h.sourceService h.destinationService h.common.identityGeneration
      sessionEpoch with
  | error e => exact .refused
  | ok r =>
    obtain ⟨i, created⟩ := r
    dsimp only
    cases hstate : orderAdmit (orderRxState rx i created) h.orderingMarker.toNat nowMs with
    | error e => exact .refused
    | ok r =>
      obtain ⟨result, state⟩ := r
      cases result with
      | duplicate => exact .duplicate hflow hstate
      | held =>
        dsimp only
        split_ifs
        · exact .refused
        · cases hfree : rx.orderMessages.free? with
          | none => exact .refused
          | some j => exact .held hflow hstate (Table.free?_some hfree)
      | released marker count =>
        dsimp only
        split_ifs
        · exact .refused
        cases hfree : rx.orderMessages.free? with
        | none => exact .refused
        | some j =>
          dsimp only
          split
          · exact .broken hflow hstate (Table.free?_some hfree) ‹_›
          · exact .released hflow hstate (Table.free?_some hfree) ‹_›

inductive Polls (nowMs : Nat) (rx : RxState) : RxState → Except Errno (List OrderMessage) → Prop where
  | idle : Polls nowMs rx rx (.ok [])
  | released {i flow state marker count rx' batch} (hflow : rx.orderRx i = some flow)
      (hpoll : orderPoll flow.state nowMs = (state, .ok (.released marker count)))
      (hdetach : orderDetachLocked { rx with orderRx := rx.orderRx.set i { flow with state := state } } i marker count =
        (rx', .ok batch)) :
      Polls nowMs rx rx' (.ok batch)
  | broken {i flow state marker count rx' e} (hflow : rx.orderRx i = some flow)
      (hpoll : orderPoll flow.state nowMs = (state, .ok (.released marker count)))
      (hdetach : orderDetachLocked { rx with orderRx := rx.orderRx.set i { flow with state := state } } i marker count =
        (rx', .error e)) :
      Polls nowMs rx (orderFlowClear rx' i) (.error e)
  | failed {i flow state e} (hflow : rx.orderRx i = some flow)
      (hpoll : orderPoll flow.state nowMs = (state, .error e)) :
      Polls nowMs rx (orderFlowClear { rx with orderRx := rx.orderRx.set i { flow with state := state } } i) (.error e)

theorem orderPollFrom_polls (nowMs : Nat) (rx : RxState) (is : List (Fin ORDER_FLOW_LIMIT)) :
    Polls nowMs rx (orderPollFrom nowMs rx is).1 (orderPollFrom nowMs rx is).2 := by
  induction is with
  | nil => exact .idle
  | cons i is ih =>
    unfold orderPollFrom
    cases hflow : rx.orderRx i with
    | none => exact ih
    | some flow =>
      dsimp only
      split
      · exact .failed hflow ‹_›
      · split
        · exact .broken hflow ‹_› ‹_›
        · exact .released hflow ‹_› ‹_›
      · exact ih

theorem orderPollLocked_polls (nowMs : Nat) (rx : RxState) :
    Polls nowMs rx (orderPollLocked rx nowMs).1 (orderPollLocked rx nowMs).2 := orderPollFrom_polls nowMs rx _

/-! ## Accepted fragments -/

/-- All that `dataAdmit` can do with the accepted fragment of the frame with header `h`. -/
inductive Takes (h : WireData) (source : NodeId) (sessionEpoch : UInt64) (token : Token) (nowMs : Nat) (rx : RxState) :
    RxState → Except Errno Outcome → Prop where
  | failed {rx' e} (hadd : Adds h source token rx rx' none) : Takes h source sessionEpoch token nowMs rx rx' (.error e)
  | incomplete {rx' bitmap} (hadd : Adds h source token rx rx' none) :
      Takes h source sessionEpoch token nowMs rx rx' (.ok (.incomplete bitmap))
  | whole {rx' m bitmap} (hord : h.isOrdered = false) (hadd : Adds h source token rx rx' (some m)) :
      Takes h source sessionEpoch token nowMs rx rx' (.ok (.whole m bitmap))
  | ordered {rx₁ m bitmap rx' r} (hord : h.isOrdered = true) (hadd : Adds h source token rx rx₁ (some m))
      (hstate : Admits h sessionEpoch m nowMs rx₁ rx' r) :
      Takes h source sessionEpoch token nowMs rx rx' (.ok (.ordered m bitmap r))

theorem singleComplete_adds (h : WireData) (source : NodeId) (metadata : RxMeta) (plaintext : Octets) (token : Token)
    (rx : RxState) : Adds h source token rx rx (some (singleComplete source h metadata plaintext token)) where
  orderRx := rfl
  orderMessages := rfl
  receipt := fun _ _ hr => hr
  tokens := fun _ => Nat.le_refl _
  complete := by
    rintro m hm
    rw [← Option.some.inj hm]
    exact ⟨rfl, rfl, rfl, rfl, rfl, rfl, rfl⟩

theorem dataComplete_takes {d₁ : Device} {m : Complete} {bitmap : BitVec 64} {nowMs : Nat} {token : Token}
    (hadd : Adds h source token d.rx d₁.rx (some m)) :
    ∃ rx', (dataComplete d₁ h sessionEpoch m bitmap nowMs).1 = { d₁ with rx := rx' } ∧
      Takes h source sessionEpoch token nowMs d.rx rx' (dataComplete d₁ h sessionEpoch m bitmap nowMs).2 := by
  unfold dataComplete
  split_ifs with hord
  · exact ⟨_, rfl, .ordered hord hadd (orderAdmitLocked_admits _ _ _ _ _)⟩
  · exact ⟨d₁.rx, rfl, .whole (by simpa using hord) hadd⟩

theorem dataAdmit_takes (P : Platform) (d : Device) (h : WireData) (source : NodeId) (sessionEpoch : UInt64)
    (metadata : RxMeta) (plaintext : Octets) (token : Token) (a : Ambient) :
    ∃ rx', (dataAdmit P d h source sessionEpoch metadata plaintext token a).1 = { d with rx := rx' } ∧
      Takes h source sessionEpoch token a.nowMs d.rx rx'
        (dataAdmit P d h source sessionEpoch metadata plaintext token a).2 := by
  unfold dataAdmit
  split_ifs
  · exact dataComplete_takes (singleComplete_adds h source metadata plaintext token d.rx)
  have hadd := reassemblyAdd_adds P d.rx a.jiffies source h sessionEpoch metadata plaintext a.allocComplete token
  split <;> rename_i hr <;> rw [hr] at hadd
  · exact ⟨_, rfl, .failed hadd⟩
  · exact ⟨_, rfl, .incomplete hadd⟩
  · exact dataComplete_takes (d := d) hadd

/-! ## The window -/

theorem markAccepted_ok {i : Fin PEER_LIMIT} {counter : Nat} {kind : FrameKind}
    (h : markAccepted d i p counter kind = .ok (d', t)) :
    t = ⟨p.session, p.residence, p.nodeId, p.generation, counter, kind⟩ ∧
      ∃ w, replayMark p.receiveReplay counter = .ok w ∧
        d' = { d with peers := d.peers.set i { p with receiveReplay := w }, log := .accept t :: d.log } := by
  unfold markAccepted at h
  cases hm : replayMark p.receiveReplay counter with
  | error e => simp [hm] at h
  | ok w =>
    simp only [hm, Except.ok.injEq, Prod.mk.injEq] at h
    obtain ⟨rfl, rfl⟩ := h
    exact ⟨rfl, w, rfl, rfl⟩

theorem lookupPeer_some {nativeLocator : UInt32} {i : Fin PEER_LIMIT} (h : lookupPeer d nativeLocator = some (i, p)) :
    d.peers i = some p := by
  simp only [lookupPeer, Option.bind_eq_some_iff, Option.map_eq_some_iff, Prod.mk.injEq] at h
  obtain ⟨j, -, q, hq, rfl, rfl⟩ := h
  exact hq

/-- The peer at slot `i` is in the session the frame was opened in, as far as the program can tell. -/
structure Opened.Current (o : Opened) (d : Device) (i : Fin PEER_LIMIT) (p : Peer) : Prop where
  lookup : lookupPeer d o.header.common.sourceNativeLocator = some (i, p)
  slot : d.peers i = some p
  nodeId : p.nodeId = o.source
  generation : p.generation = o.header.common.identityGeneration
  sessionEpoch : p.sessionEpoch = o.sessionEpoch
  ready : p.sessionReady = true
  allows : policyAllows d o.source o.header.destinationService = true

theorem dataCommit_cases {o : Opened} {a : Ambient} {r : Except Errno Outcome} (h : dataCommit P d o a = (d', r)) :
    (d' = d ∧ ∃ e, r = .error e) ∨
    (d' = d ∧ (∃ i p, o.Current d i p) ∧ o.header.isReliable = true ∧ ∃ bitmap status,
      dataDuplicateAckLocked d.rx o.source o.header o.sessionEpoch = .ok (bitmap, status) ∧
        r = .ok (.again bitmap status)) ∨
    ∃ i p d₁ t rx', o.Current d i p ∧ markAccepted d i p o.header.common.counter.toNat .unicast = .ok (d₁, t) ∧
      d' = { d₁ with rx := rx' } ∧ Takes o.header o.source o.sessionEpoch t a.nowMs d.rx rx' r ∧
      dataAdmit P d₁ o.header o.source o.sessionEpoch o.metadata o.plaintext t a = (d', r) := by
  unfold dataCommit at h
  dsimp only at h
  cases hl : lookupPeer d o.header.common.sourceNativeLocator with
  | none =>
    simp only [hl] at h
    obtain ⟨rfl, rfl⟩ := Prod.mk.inj h
    exact .inl ⟨rfl, _, rfl⟩
  | some ip =>
    obtain ⟨i, p⟩ := ip
    simp only [hl] at h
    by_cases hbad : p.sessionReady = false ∨ o.header.common.identityGeneration ≠ p.generation ∨
      p.sessionEpoch ≠ o.sessionEpoch ∨ o.metadata.sourceLocator ≠ p.linkLocator ∨
      o.metadata.destinationLocator ≠ d.localLinkLocator ∨ o.source ≠ p.nodeId ∨
      policyAllows d p.nodeId o.header.destinationService = false
    · rw [if_pos hbad] at h
      obtain ⟨rfl, rfl⟩ := Prod.mk.inj h
      exact .inl ⟨rfl, _, rfl⟩
    · rw [if_neg hbad] at h
      simp only [not_or, Bool.not_eq_false, not_not] at hbad
      have hcur : o.Current d i p :=
        ⟨hl, lookupPeer_some hl, hbad.2.2.2.2.2.1.symm, hbad.2.1.symm, hbad.2.2.1, hbad.1,
          hbad.2.2.2.2.2.1 ▸ hbad.2.2.2.2.2.2⟩
      have hagain : o.header.isReliable = true → (d', r) = (d, dataAgain d o) →
          (d' = d ∧ ∃ e, r = .error e) ∨
          (d' = d ∧ (∃ i p, o.Current d i p) ∧ o.header.isReliable = true ∧ ∃ bitmap status,
            dataDuplicateAckLocked d.rx o.source o.header o.sessionEpoch = .ok (bitmap, status) ∧
              r = .ok (.again bitmap status)) := by
        intro hrel heq
        obtain ⟨rfl, rfl⟩ := Prod.mk.inj heq
        unfold dataAgain
        cases hdup : dataDuplicateAckLocked d'.rx o.source o.header o.sessionEpoch with
        | error e => exact .inl ⟨rfl, e, rfl⟩
        | ok r => exact .inr ⟨rfl, ⟨i, p, hcur⟩, hrel, r.1, r.2, rfl, rfl⟩
      split_ifs at h with hdup hrel
      · rcases hagain hrel h.symm with h | h
        · exact .inl h
        · exact .inr (.inl h)
      · obtain ⟨rfl, rfl⟩ := Prod.mk.inj h
        exact .inl ⟨rfl, _, rfl⟩
      cases hm : markAccepted d i p o.header.common.counter.toNat .unicast with
      | error e =>
        simp only [hm] at h
        split_ifs at h with hrel
        · rcases hagain hrel.2 h.symm with h | h
          · exact .inl h
          · exact .inr (.inl h)
        · obtain ⟨rfl, rfl⟩ := Prod.mk.inj h
          exact .inl ⟨rfl, _, rfl⟩
      | ok dt =>
        obtain ⟨d₁, t⟩ := dt
        simp only [hm] at h
        obtain ⟨rx', hd, ht⟩ := dataAdmit_takes P d₁ o.header o.source o.sessionEpoch o.metadata o.plaintext t a
        rw [h] at hd ht
        obtain ⟨-, w, -, hd₁⟩ := markAccepted_ok hm
        have hrx : d₁.rx = d.rx := by rw [hd₁]
        exact .inr (.inr ⟨i, p, d₁, t, rx', hcur, hm, hd, hrx ▸ ht, h⟩)

/-! ## Broadcasts and acknowledgements -/

theorem broadcastPeerLocked_ok {expected : Option NodeId} {link : RxMeta} {i : Fin PEER_LIMIT}
    (hp : broadcastPeerLocked d h expected link = .ok (i, p)) :
    d.peers i = some p ∧ p.sessionReady = true ∧ p.generation = h.common.identityGeneration ∧
      ∀ source, expected = some source → (policyCheckLocked d source).isOk = true := by
  unfold broadcastPeerLocked at hp
  cases hl : lookupPeer d h.common.sourceNativeLocator with
  | none => simp [hl] at hp
  | some jq =>
    obtain ⟨j, q⟩ := jq
    simp only [hl] at hp
    split_ifs at hp with hbad
    simp only [Except.ok.injEq, Prod.mk.injEq] at hp
    obtain ⟨rfl, rfl⟩ := hp
    simp only [not_or, Bool.not_eq_false, not_not] at hbad
    refine ⟨lookupPeer_some hl, hbad.1, hbad.2.1.symm, ?_⟩
    rintro source rfl
    have hsource : source = q.nodeId := by simpa using hbad.2.2.2.2.1
    exact hsource ▸ hbad.2.2.2.2.2

theorem policyCheckServiceLocked_unicast {service : UInt16}
    (h : (policyCheckServiceLocked d service true).isOk = true) :
    (policyCheckServiceLocked d service false).isOk = true := by
  unfold policyCheckServiceLocked at h ⊢
  rw [if_neg (by simp)]
  split_ifs at h
  · cases h
  · exact h

theorem broadcastMark_cases {alloc : Bool} {r : Except Errno Token} (h : broadcastMark d o alloc = (d', r)) :
    (d' = d ∧ ∃ e, r = .error e) ∨
    ∃ i p t, broadcastPeerLocked d o.header (some o.source) o.metadata = .ok (i, p) ∧
      markAccepted d i p o.header.common.counter.toNat .broadcast = .ok (d', t) ∧ ∀ t', r = .ok t' → t' = t := by
  unfold broadcastMark at h
  cases hp : broadcastPeerLocked d o.header (some o.source) o.metadata with
  | error e =>
    simp only [hp] at h
    obtain ⟨rfl, rfl⟩ := Prod.mk.inj h
    exact .inl ⟨rfl, e, rfl⟩
  | ok ip =>
    obtain ⟨i, p⟩ := ip
    simp only [hp] at h
    cases hm : markAccepted d i p o.header.common.counter.toNat .broadcast with
    | error e =>
      simp only [hm] at h
      obtain ⟨rfl, rfl⟩ := Prod.mk.inj h
      exact .inl ⟨rfl, e, rfl⟩
    | ok dt =>
      obtain ⟨d₁, t⟩ := dt
      simp only [hm] at h
      refine .inr ⟨i, p, t, rfl, ?_⟩
      cases alloc with
      | true =>
        obtain ⟨rfl, rfl⟩ := Prod.mk.inj h
        exact ⟨hm, fun t' ht => (Except.ok.inj ht).symm⟩
      | false =>
        obtain ⟨rfl, rfl⟩ := Prod.mk.inj h
        exact ⟨hm, by simp⟩

def BroadcastOpened.admitHeader (o : BroadcastOpened) : WireData :=
  { o.header with common := { o.header.common with payloadLength := UInt16.ofNat o.payload.length } }

theorem broadcastAdmit_cases {a : Ambient} {r : Except Errno Outcome} (h : broadcastAdmit P d o t a = (d', r)) :
    (d' = d ∧ ∃ e, r = .error e) ∨
    ∃ rx', d' = { d with rx := rx' } ∧ Takes o.admitHeader o.source 0 t a.nowMs d.rx rx' r ∧
      policyAllows d o.source o.header.destinationService = true ∧
      dataAdmit P d o.admitHeader o.source 0 { o.metadata with authenticated := true } o.payload t a = (d', r) := by
  unfold broadcastAdmit at h
  cases hp : broadcastPeerLocked d o.header (some o.source) o.metadata with
  | error e =>
    simp only [hp] at h
    obtain ⟨rfl, rfl⟩ := Prod.mk.inj h
    exact .inl ⟨rfl, e, rfl⟩
  | ok ip =>
    simp only [hp] at h
    cases hs : policyCheckServiceLocked d o.header.destinationService true with
    | error e =>
      simp only [hs] at h
      obtain ⟨rfl, rfl⟩ := Prod.mk.inj h
      exact .inl ⟨rfl, e, rfl⟩
    | ok u =>
      simp only [hs] at h
      obtain ⟨rx', hd, ht⟩ := dataAdmit_takes P d o.admitHeader o.source 0
        { o.metadata with authenticated := true } o.payload t a
      have hpeer := (broadcastPeerLocked_ok hp).2.2.2 o.source rfl
      have hservice := policyCheckServiceLocked_unicast (by rw [hs]; rfl)
      rw [BroadcastOpened.admitHeader, h] at hd ht
      exact .inr ⟨rx', hd, ht, by rw [policyAllows, hpeer, hservice]; rfl, h⟩

theorem ackCommit_cases (d : Device) (o : AckOpened) :
    (ackCommit d o).1 = d ∨ ∃ i p t, d.peers i = some p ∧
      markAccepted d i p o.ack.common.counter.toNat .ack = .ok ((ackCommit d o).1, t) := by
  unfold ackCommit
  cases hl : lookupPeer d o.ack.common.sourceNativeLocator with
  | none => exact .inl rfl
  | some ip =>
    obtain ⟨i, p⟩ := ip
    dsimp only
    split_ifs
    · exact .inl rfl
    cases hm : markAccepted d i p o.ack.common.counter.toNat .ack with
    | error e => exact .inl rfl
    | ok dt => exact .inr ⟨i, p, dt.2, lookupPeer_some hl, hm⟩

/-! ## The rest of the sections -/

theorem receiptSection_eq (P : Platform) (d : Device) (plan : AckPlan) (jiffies : UInt64) :
    ∃ receipts, (receiptSection P d plan jiffies).1 = { d with rx := { d.rx with receipts := receipts } } := by
  unfold receiptSection receiptStore
  dsimp only
  split
  · exact ⟨d.rx.receipts, rfl⟩
  · exact ⟨_, rfl⟩

/-- A send takes `n` counters, and a message that is sealed gets all of them. -/
structure Reserves (d d' : Device) (res : Except Errno Sealing) (n : Nat) : Prop where
  device : ∃ orderTx, d' = { d with transmitCounter := d.transmitCounter + n, orderTx := orderTx }
  le : n = 0 ∨ d.transmitCounter + n ≤ U64_MAX
  sealing : ∀ s, res = .ok s → ∃ i p r a marker, d.peers i = some p ∧ p.sessionReady = true ∧
    s = sealingFor d p r a n marker

theorem Reserves.failed {e : Errno} (h : (d, .error e) = (d', res)) :
    Reserves d d' res 0 := by
  obtain ⟨rfl, rfl⟩ := Prod.mk.inj h
  exact ⟨⟨d.orderTx, rfl⟩, .inl rfl, by simp⟩

theorem sendSection_reserves {r : SendRequest} {destination : NodeId} {count : Nat} (hcount : count ≤ FRAGMENT_LIMIT)
    (h : sendSection d r destination count a = (d', res)) : ∃ n, Reserves d d' res n := by
  unfold sendSection at h
  split at h
  · exact ⟨0, .failed h⟩
  rename_i p hp
  split at h
  · exact ⟨0, .failed h⟩
  rename_i hready
  split at h
  · exact ⟨0, .failed h⟩
  split at h
  · exact ⟨0, .failed h⟩
  have hle : d.transmitCounter + count ≤ U64_MAX := by
    unfold FRAGMENT_LIMIT at hcount
    unfold U64_MAX at *
    omega
  dsimp only at h
  obtain ⟨i, -, hi⟩ := Option.bind_eq_some_iff.mp hp
  split at h
  · obtain ⟨rfl, rfl⟩ := Prod.mk.inj h
    exact ⟨count, ⟨d.orderTx, rfl⟩, .inr hle, by simp⟩
  rename_i marker orderTx _
  obtain ⟨rfl, rfl⟩ := Prod.mk.inj h
  refine ⟨count, ⟨orderTx, rfl⟩, .inr hle, fun s hs => ?_⟩
  simp only [not_or, Bool.not_eq_false] at hready
  exact ⟨i, p, r, a, marker, hi, hready.1, (Except.ok.inj hs).symm⟩

theorem sendCheck_ok {r : SendRequest} {node : NodeId} (h : sendCheck P r = .ok node) :
    r.malformed = false ∧ r.destination = some node ∧ r.isBroadcast = false ∧ nodeIdValid P node = true ∧
      ¬(r.destinationService = SERVICE_ECHO ∧ r.isReliable = true) := by
  unfold sendCheck at h
  split at h
  · cases h
  rename_i hform
  split at h
  · rename_i destination hdestination hbroadcast
    split_ifs at h with hvalid hecho
    obtain rfl := Except.ok.inj h
    exact ⟨by simpa using hform, hdestination, hbroadcast, by simpa using hvalid, hecho⟩
  · cases h

theorem sendOpen_ok {r : SendRequest} (h : sendOpen P d r a = (d', .ok s)) :
    ∃ destination count i p marker orderTx, sendCheck P r = .ok destination ∧
      fragmentCountFor a.frameMtu r.payload.length = .ok count ∧ peerByNode d destination = some i ∧
      d.peers i = some p ∧ p.sessionReady = true ∧ p.conflicted = false ∧
      policyCheckMessageLocked d destination r.destinationService false = .ok () ∧
      d.transmitCounter ≤ U64_MAX - count ∧ sendMarker d p r destination = .ok (marker, orderTx) ∧
      s = sealingFor d p r a count marker := by
  unfold sendOpen at h
  split at h
  · cases h
  rename_i destination hcheck
  split at h
  · cases h
  rename_i count hcount
  split at h
  · cases h
  unfold sendSection at h
  split at h
  · cases h
  rename_i p hp
  split at h
  · cases h
  rename_i hready
  split at h
  · cases h
  rename_i hpol
  split at h
  · cases h
  rename_i hmax
  dsimp only at h
  split at h
  · cases h
  rename_i marker orderTx hmark
  obtain ⟨i, hi, hpi⟩ := Option.bind_eq_some_iff.mp hp
  simp only [not_or, Bool.not_eq_false, Bool.not_eq_true] at hready
  refine ⟨destination, count, i, p, marker, orderTx, hcheck, hcount, ?_, hpi, hready.1, hready.2, hpol,
    Nat.le_of_not_lt hmax, hmark, (Except.ok.inj (Prod.mk.inj h).2).symm⟩
  split_ifs at hi
  exact hi

theorem fragmentCountWith_ok {count : Nat} (h : fragmentCountWith overhead frameMtu length = .ok count) :
    overhead ≤ frameMtu ∧ 0 < count ∧ count ≤ FRAGMENT_LIMIT ∧ length ≤ count * (frameMtu - overhead) := by
  unfold fragmentCountWith at h
  dsimp only at h
  split_ifs at h with hsmall hempty hmany hmany <;> obtain rfl := Except.ok.inj h
  · exact ⟨by omega, by decide, by decide, by omega⟩
  have hmtu : 0 < frameMtu - overhead := by omega
  refine ⟨by omega, Nat.div_pos (by omega) hmtu, by omega, ?_⟩
  have hround := Nat.div_add_mod (length + (frameMtu - overhead) - 1) (frameMtu - overhead)
  have hrest := Nat.mod_lt (length + (frameMtu - overhead) - 1) hmtu
  rw [Nat.mul_comm]
  omega

theorem fragmentCountWith_le {count : Nat} (h : fragmentCountWith overhead frameMtu length = .ok count) :
    count ≤ FRAGMENT_LIMIT := (fragmentCountWith_ok h).2.2.1

theorem sendOpen_reserves {r : SendRequest} (h : sendOpen P d r a = (d', res)) : ∃ n, Reserves d d' res n := by
  unfold sendOpen at h
  split at h
  · exact ⟨0, .failed h⟩
  split at h
  · exact ⟨0, .failed h⟩
  rename_i hcount
  split at h
  · exact ⟨0, .failed h⟩
  · exact sendSection_reserves (fragmentCountWith_le hcount) h

theorem broadcastSend_cases (d : Device) (r : SendRequest) (a : SendAmbient) :
    ∃ n, (broadcastSend d r a).1 = { d with transmitCounter := d.transmitCounter + n } ∧
      (n = 0 ∨ d.transmitCounter + n ≤ U64_MAX) := by
  unfold broadcastSend
  split
  · exact ⟨0, rfl, .inl rfl⟩
  rename_i count hcheck
  have hcount : count ≤ FRAGMENT_LIMIT := by
    unfold broadcastCheck at hcheck
    split_ifs at hcheck
    exact fragmentCountWith_le hcheck
  split_ifs with _ _ _ hmax
  · exact ⟨0, rfl, .inl rfl⟩
  · exact ⟨0, rfl, .inl rfl⟩
  · exact ⟨0, rfl, .inl rfl⟩
  · exact ⟨0, rfl, .inl rfl⟩
  split
  · exact ⟨0, rfl, .inl rfl⟩
  refine ⟨count, rfl, .inr ?_⟩
  have : FRAGMENT_LIMIT ≤ U64_MAX := by decide
  omega

theorem sealFrames_cases (P : Platform) (s : Sealing) (fails : Nat → Bool) (n index : Nat) (d : Device) :
    ∃ k ≤ n, (sealFrames P s fails index n d).1 =
      { d with log := ((List.range' index k).map fun j => .encrypt s.key (s.nonce j)).reverse ++ d.log } := by
  induction n generalizing index d with
  | zero => exact ⟨0, Nat.le_refl _, rfl⟩
  | succ n ih =>
    unfold sealFrames
    split_ifs
    · exact ⟨0, Nat.zero_le _, rfl⟩
    split
    · exact ⟨0, Nat.zero_le _, rfl⟩
    obtain ⟨k, hk, heq⟩ := ih (index + 1) (d.note (.encrypt s.key (s.nonce index)))
    have hlog : (sealFrames P s fails (index + 1) n (d.note (.encrypt s.key (s.nonce index)))).1 =
        { d with log := ((List.range' index (k + 1)).map fun j => .encrypt s.key (s.nonce j)).reverse ++ d.log } := by
      rw [heq, List.range'_succ, List.map_cons, List.reverse_cons, List.append_assoc]
      rfl
    refine ⟨k + 1, by omega, ?_⟩
    split <;> rename_i hr <;> rw [hr] at hlog <;> exact hlog

theorem sealFrames_frames {fails : Nat → Bool} {n index : Nat} {frames : List Octets}
    (h : sealFrames P s fails index n d = (d', .ok frames)) :
    frames.map .ok = (List.range' index n).map (sealFrame P s) := by
  induction n generalizing index d d' frames with
  | zero =>
    obtain rfl := Except.ok.inj (Prod.mk.inj h).2
    rfl
  | succ n ih =>
    unfold sealFrames at h
    split_ifs at h
    · exact nomatch (Prod.mk.inj h).2
    split at h
    · exact nomatch (Prod.mk.inj h).2
    rename_i frame hframe
    split at h
    · exact nomatch (Prod.mk.inj h).2
    rename_i rest hrest
    obtain rfl := Except.ok.inj (Prod.mk.inj h).2
    rw [List.map_cons, ih hrest, List.range'_succ, List.map_cons, hframe]

theorem dataSendAck_cases (d : Device) (h : WireData) (bitmap : BitVec 64) (status : AckStatus)
    (queued : Except Errno Unit) :
    (dataSendAck d h bitmap status queued).1 = d ∨
    ∃ i p nonce es, lookupPeer d h.common.sourceNativeLocator = some (i, p) ∧ p.sessionReady = true ∧
      p.generation = h.common.identityGeneration ∧ d.transmitCounter ≠ U64_MAX ∧
      (∃ locator generation messageId,
        nonce = dataNonce locator generation (UInt64.ofNat (d.transmitCounter + 1)) messageId) ∧
      (dataSendAck d h bitmap status queued).1 =
        { d with transmitCounter := d.transmitCounter + 1, log := es ++ d.log } ∧
      (es = [] ∨ es = [.encrypt p.transmitKey nonce] ∨
        es = [.ack ⟨p.nodeId, p.session, h.common.identityGeneration, h.common.messageId, h.fragmentCount.toNat, bitmap,
          status⟩, .encrypt p.transmitKey nonce]) := by
  unfold dataSendAck
  cases hl : lookupPeer d h.common.sourceNativeLocator with
  | none => exact .inl rfl
  | some ip =>
    obtain ⟨i, p⟩ := ip
    dsimp only
    split_ifs with hbad
    · exact .inl rfl
    simp only [not_or, Bool.not_eq_false, not_not] at hbad
    cases hn : counterNextLocked d with
    | error e => exact .inl rfl
    | ok r =>
      obtain ⟨counter, d₁⟩ := r
      unfold counterNextLocked at hn
      split_ifs at hn with hmax
      obtain ⟨rfl, rfl⟩ := Prod.mk.inj (Except.ok.inj hn)
      refine .inr ⟨i, p, dataNonce d.localNativeLocator d.identityGeneration
        (UInt64.ofNat (d.transmitCounter + 1)) h.common.messageId, ?_⟩
      dsimp only
      split
      · exact ⟨[], rfl, hbad.1, hbad.2.symm, hmax, ⟨_, _, _, rfl⟩, rfl, .inl rfl⟩
      split
      · exact ⟨_, rfl, hbad.1, hbad.2.symm, hmax, ⟨_, _, _, rfl⟩, rfl, .inr (.inl rfl)⟩
      · exact ⟨_, rfl, hbad.1, hbad.2.symm, hmax, ⟨_, _, _, rfl⟩, rfl, .inr (.inr rfl)⟩

end Melodi
