import Melodi.Core.Effects

/-!
# The buffer of a flow and its window

A flow keeps a mask of the markers that arrived early; the messages themselves are in a buffer that all flows share.
Nothing in the source ties the two together, and a release that does not find its messages drops the flow. Here the two
agree in every state, so this never happens.
-/

namespace Melodi
open Lib
variable {m : Complete} {j : Fin ORDER_BUFFER_LIMIT} {i : Fin ORDER_FLOW_LIMIT} {batch : List OrderMessage}
  {count e marker nowMs o offset : Nat} {st st' : OrderState} {rx rx' : RxState} {O : Set Nat} {sessionEpoch : UInt64}
  {h : WireData}
variable {f : OrderRxFlow} {created : Bool} {r : Except Errno (List OrderMessage)}

def OrderState.offsets (st : OrderState) : Set Nat := { o | 0 < o ∧ st.pending.getLsbD (o - 1) = true }

/-- The messages of the flow at slot `i` wait exactly at the offsets `O` from the marker `e`. -/
structure Waits (rx : RxState) (i : Fin ORDER_FLOW_LIMIT) (e : Nat) (O : Set Nat) : Prop where
  offset : ∀ j m, rx.orderMessages j = some m → m.flowIndex = i → ∃ o ∈ O, m.marker = orderAdvance e o
  message : ∀ o ∈ O, ∃ j m, rx.orderMessages j = some m ∧ m.flowIndex = i ∧ m.marker = orderAdvance e o

/-- Each message of the buffer is there once, under its own marker, and its flow exists. -/
structure Buffered (rx : RxState) : Prop where
  unique : ∀ j j' m m', rx.orderMessages j = some m → rx.orderMessages j' = some m' → m.flowIndex = m'.flowIndex →
    m.marker = m'.marker → j = j'
  marker : ∀ j m, rx.orderMessages j = some m → m.message.origin.marker = m.marker
  flow : ∀ j m, rx.orderMessages j = some m → ∃ f, rx.orderRx m.flowIndex = some f

def Agrees (rx : RxState) (i : Fin ORDER_FLOW_LIMIT) : Prop :=
  ∀ f, rx.orderRx i = some f → IsMarker f.state.expected ∧ Waits rx i f.state.expected f.state.offsets

/-- The pending markers of every flow are those of its messages in the buffer. -/
structure Windowed (rx : RxState) : Prop where
  buffered : Buffered rx
  agrees : ∀ i, Agrees rx i

theorem windowed_empty : Windowed {} where
  buffered := ⟨by simp, by simp, by simp⟩
  agrees := by simp [Agrees]

/-! ## Offsets -/

theorem OrderState.offsets_le (h : o ∈ st.offsets) : o ≤ ORDER_WINDOW := by
  by_contra hgt
  have := BitVec.getLsbD_of_ge st.pending (o - 1) (by unfold ORDER_WINDOW at hgt; omega)
  rw [h.2] at this
  cases this

theorem OrderState.offsets_lt (h : o ∈ st.offsets) : o < ORDER_MODULUS :=
  Nat.lt_of_le_of_lt (offsets_le h) (by decide)

theorem offsets_orderReset : orderReset.offsets = ∅ := by
  ext o
  simp [OrderState.offsets, orderReset]

theorem offsets_held (hpos : 0 < o) (hle : o ≤ ORDER_WINDOW) (h : st'.pending = st.pending ||| (1#32 <<< (o - 1))) :
    st'.offsets = insert o st.offsets := by
  ext k
  simp only [OrderState.offsets, h, BitVec.getLsbD_or, BitVec.getLsbD_shiftLeft, BitVec.getLsbD_one, Bool.or_eq_true,
    Bool.and_eq_true, decide_eq_true_eq, Set.mem_insert_iff, Set.mem_ofPred_eq, ORDER_WINDOW] at *
  constructor
  · rintro ⟨hk, hbit | hbit⟩
    · exact .inr ⟨hk, hbit⟩
    · simp at hbit
      left
      omega
  · rintro (rfl | ⟨hk, hbit⟩)
    · exact ⟨hpos, .inr (by simp; omega)⟩
    · exact ⟨hk, .inl hbit⟩

theorem offsets_release (h : Releases st st' offset count marker) (o : Nat) :
    o ∈ st'.offsets ↔ 0 < o ∧ offset + count + o ∈ st.offsets := by
  have hpos := h.count_pos
  simp only [OrderState.offsets, Set.mem_ofPred_eq, h.pending_eq]
  constructor
  · rintro ⟨ho, hbit⟩
    exact ⟨ho, by omega, by rwa [show offset + count + o - 1 = offset + count + (o - 1) by omega]⟩
  · rintro ⟨ho, -, hbit⟩
    exact ⟨ho, by rwa [show offset + count + (o - 1) = offset + count + o - 1 by omega]⟩

theorem orderMarkers_eq (e offset count : Nat) :
    orderMarkers (orderAdvance e offset) count = (List.range' offset count).map (orderAdvance e) := by
  induction count generalizing offset with
  | zero => rfl
  | succ count ih => rw [orderMarkers, ← orderAdvance_succ, ih, List.range'_succ, List.map_cons]

theorem orderMarkers_nodup (he : IsMarker e) (h : offset + count ≤ ORDER_MODULUS) :
    ((List.range' offset count).map (orderAdvance e)).Nodup := by
  refine List.Nodup.map_on (fun j hj k hk heq => ?_) List.nodup_range'
  rw [List.mem_range'_1] at hj hk
  exact orderAdvance_inj he (by omega) (by omega) heq

theorem Releases.le (h : Releases st st' offset count marker) (hoffset : offset ≤ ORDER_WINDOW) :
    offset + count ≤ ORDER_WINDOW + 1 := by
  by_contra hgt
  have hpos := h.count_pos
  have hbit := h.pending_of_lt (offset + count - 1) (by omega) (by omega)
  have hmem : offset + count - 1 ∈ st.offsets := ⟨by omega, hbit⟩
  have := OrderState.offsets_le hmem
  omega

/-! ## The buffer -/

theorem Waits.congr (hw : Waits rx i e O) (h : rx'.orderMessages = rx.orderMessages) : Waits rx' i e O := by
  obtain ⟨hoff, hmsg⟩ := hw
  rw [← h] at hoff hmsg
  exact ⟨hoff, hmsg⟩

theorem Windowed.congr (hw : Windowed rx) (hflow : rx'.orderRx = rx.orderRx)
    (hmsg : rx'.orderMessages = rx.orderMessages) : Windowed rx' := by
  refine ⟨⟨?_, ?_, ?_⟩, fun i f hf => ?_⟩
  · rw [hmsg]
    exact hw.buffered.unique
  · rw [hmsg]
    exact hw.buffered.marker
  · rw [hmsg, hflow]
    exact hw.buffered.flow
  rw [hflow] at hf
  obtain ⟨hm, hwaits⟩ := hw.agrees i f hf
  exact ⟨hm, hwaits.congr hmsg⟩

theorem Buffered.waits_empty (hb : Buffered rx) (hfree : rx.orderRx i = none) (e : Nat) : Waits rx i e ∅ where
  offset := by
    intro j m hm hi
    obtain ⟨f, hf⟩ := hb.flow j m hm
    rw [hi, hfree] at hf
    cases hf
  message := by simp

theorem Waits.insert {m : OrderMessage} (hw : Waits rx i e O) (hfree : rx.orderMessages j = none)
    (hset : rx'.orderMessages = rx.orderMessages.set j m) (hi : m.flowIndex = i) (hm : m.marker = orderAdvance e o) :
    Waits rx' i e (insert o O) where
  offset := by
    intro k n hn hni
    rw [hset, Table.set_apply] at hn
    split_ifs at hn with hk
    · rw [← Option.some.inj hn]
      exact ⟨o, Set.mem_insert _ _, hm⟩
    · obtain ⟨o', ho', heq⟩ := hw.offset k n hn hni
      exact ⟨o', Set.mem_insert_of_mem _ ho', heq⟩
  message := by
    intro o' ho'
    rw [hset]
    rcases Set.mem_insert_iff.mp ho' with rfl | ho'
    · exact ⟨j, m, Table.set_self _ _ _, hi, hm⟩
    obtain ⟨k, n, hn, hni, heq⟩ := hw.message o' ho'
    have hk : k ≠ j := by
      rintro rfl
      rw [hfree] at hn
      cases hn
    exact ⟨k, n, (Table.set_of_ne _ _ hk).trans hn, hni, heq⟩

theorem Waits.other {k : Fin ORDER_FLOW_LIMIT} (hw : Waits rx k e O)
    (hto : ∀ j m, rx.orderMessages j = some m → m.flowIndex = k → rx'.orderMessages j = some m)
    (hof : ∀ j m, rx'.orderMessages j = some m → m.flowIndex = k → rx.orderMessages j = some m) : Waits rx' k e O where
  offset := fun j m hm hk => hw.offset j m (hof j m hm hk) hk
  message := by
    intro o ho
    obtain ⟨j, m, hm, hk, heq⟩ := hw.message o ho
    exact ⟨j, m, hto j m hm hk, hk, heq⟩

theorem Detaches.gone {m n : OrderMessage} (hd : Detaches i rx rx' batch) (hb : Buffered rx) (hm : m ∈ batch)
    (hn : rx'.orderMessages j = some n) (hi : n.flowIndex = m.flowIndex) : n.marker ≠ m.marker := by
  intro hmark
  -- one message with this marker was in the buffer, and the batch has one
  let f : OrderMessage → Nat := fun k => if k.flowIndex = m.flowIndex ∧ k.marker = m.marker then 1 else 0
  have hrest : (rx.orderMessages.clear j).sum f = 0 := by
    refine Table.sum_eq_zero fun k l hl => ?_
    obtain ⟨hk, hl⟩ := Table.clear_eq_some.mp hl
    refine if_neg fun heq => hk ?_
    exact hb.unique k j l n hl (hd.left j n hn) (heq.1.trans hi.symm) (heq.2.trans hmark.symm)
  have hsum := Table.sum_clear rx.orderMessages j f
  rw [hrest, hd.left j n hn, Table.weight_some] at hsum
  have hbatch : 1 ≤ (batch.map f).sum := by
    have := List.le_sum_of_mem (List.mem_map_of_mem (f := f) hm)
    simpa [f] using this
  have hleft : 1 ≤ rx'.orderMessages.sum f := by
    have := Table.le_sum hn f
    simpa [f, hi, hmark] using this
  have hfn : f n ≤ 1 := by
    simp only [f]
    split_ifs <;> omega
  have := hd.sum f
  omega

theorem Buffered.detach (hb : Buffered rx) (hd : Detaches i rx rx' batch) : Buffered rx' where
  unique := fun j j' m m' hm hm' => hb.unique j j' m m' (hd.left j m hm) (hd.left j' m' hm')
  marker := fun j m hm => hb.marker j m (hd.left j m hm)
  flow := fun j m hm => hd.orderRx ▸ hb.flow j m (hd.left j m hm)

theorem Detaches.members (hd : Detaches i rx rx' batch) (hb : Buffered rx) :
    ∀ m ∈ batch, m.flowIndex = i ∧ m.message.origin.marker = m.marker := by
  intro m hm
  obtain ⟨hi, j, hj⟩ := hd.buffered m hm
  exact ⟨hi, hb.marker j m hj⟩

theorem Waits.detach {s n : Nat} (hw : Waits rx i e O) (hb : Buffered rx) (he : IsMarker e)
    (hO : ∀ o ∈ O, o < ORDER_MODULUS) (hd : Detaches i rx rx' batch) (hsn : s + n ≤ ORDER_MODULUS)
    (hbatch : batch.map (·.marker) = (List.range' s n).map (orderAdvance e)) :
    Waits rx' i e { o ∈ O | ¬(s ≤ o ∧ o < s + n) } where
  offset := by
    intro j m hm hi
    obtain ⟨o, ho, heq⟩ := hw.offset j m (hd.left j m hm) hi
    refine ⟨o, ⟨ho, fun hr => ?_⟩, heq⟩
    have hmem : orderAdvance e o ∈ batch.map (·.marker) := by
      rw [hbatch]
      exact List.mem_map_of_mem (List.mem_range'_1.mpr hr)
    obtain ⟨m', hm', hmark⟩ := List.mem_map.mp hmem
    exact hd.gone hb hm' hm (hi.trans (hd.buffered m' hm').1.symm) (heq.trans hmark.symm)
  message := by
    rintro o ⟨ho, hr⟩
    obtain ⟨j, m, hm, hi, heq⟩ := hw.message o ho
    refine ⟨j, m, ?_, hi, heq⟩
    rcases hd.taken j m hm with h | h
    · exact h
    have hmem : m.marker ∈ batch.map (·.marker) := List.mem_map_of_mem h
    rw [hbatch, List.mem_map] at hmem
    obtain ⟨o', ho', heq'⟩ := hmem
    rw [List.mem_range'_1] at ho'
    have : o' = o := orderAdvance_inj he (by omega) (hO o ho) (heq'.trans heq)
    omega

/-! ## Release -/

theorem detach_release (hb : Buffered rx) (hother : ∀ k, k ≠ i → Agrees rx k) (hf : rx.orderRx i = some f)
    (he : IsMarker st.expected) (hw : Waits rx i st.expected O) (hr : Releases st f.state offset count marker)
    (hoffset : offset ≤ ORDER_WINDOW)
    (hO : ∀ o, o ∈ O ↔ (offset ≤ o ∧ o < offset + count) ∨ (offset + count ≤ o ∧ o ∈ st.offsets)) :
    ∃ rx' batch, orderDetachLocked rx i marker count = (rx', .ok batch) ∧ Windowed rx' ∧ Detaches i rx rx' batch ∧
      batch.map (·.marker) = (List.range' offset count).map (orderAdvance st.expected) := by
  have hle := hr.le hoffset
  have hmod : ORDER_WINDOW + 1 < ORDER_MODULUS := by decide
  have hlt : ∀ o ∈ O, o < ORDER_MODULUS := by
    intro o ho
    rcases (hO o).mp ho with h | h
    · omega
    · exact OrderState.offsets_lt h.2
  have hmarkers : orderMarkers marker count = (List.range' offset count).map (orderAdvance st.expected) := by
    rw [hr.marker_eq, orderMarkers_eq]
  obtain ⟨rx', res, hdet⟩ : ∃ rx' res, orderDetachLocked rx i marker count = (rx', res) := ⟨_, _, rfl⟩
  cases res with
  | error e =>
    obtain ⟨-, hcount | ⟨c, hc, hnone⟩⟩ := orderDetachLocked_error hdet
    · omega
    rw [hmarkers, List.mem_map] at hc
    obtain ⟨o, ho, rfl⟩ := hc
    rw [List.mem_range'_1] at ho
    have := orderMessageFind_isSome.mpr (hw.message o ((hO o).mpr (.inl ho)))
    rw [hnone] at this
    cases this
  | ok batch =>
    obtain ⟨hd, -, hbatch⟩ := orderDetachLocked_ok hdet
    rw [hmarkers] at hbatch
    have hbatch := hbatch (orderMarkers_nodup he (by omega))
    refine ⟨rx', batch, hdet, ⟨hb.detach hd, fun k g hg => ?_⟩, hd, hbatch⟩
    by_cases hk : k = i
    · subst hk
      rw [hd.orderRx, hf, Option.some.injEq] at hg
      subst hg
      have hrest := hw.detach hb he hlt hd (by omega) hbatch
      rw [hr.expected_eq]
      refine ⟨isMarker_advance he _, fun j m hm hk => ?_, fun o ho => ?_⟩
      · obtain ⟨o, ⟨ho, hout⟩, heq⟩ := hrest.offset j m hm hk
        rcases (hO o).mp ho with h | ⟨hge, hmem⟩
        · exact absurd h hout
        -- the marker right after the release is not pending
        have hne : o ≠ offset + count := by
          rintro rfl
          have := hmem.2
          rw [hr.pending_stop] at this
          cases this
        refine ⟨o - (offset + count), (offsets_release hr _).mpr ⟨by omega, ?_⟩, ?_⟩
        · rwa [show offset + count + (o - (offset + count)) = o by omega]
        · rw [heq, ← orderAdvance_add, show offset + count + (o - (offset + count)) = o by omega]
      · obtain ⟨hpos, hmem⟩ := (offsets_release hr o).mp ho
        rw [← orderAdvance_add]
        exact hrest.message _ ⟨(hO _).mpr (.inr ⟨by omega, hmem⟩), by omega⟩
    · rw [hd.orderRx] at hg
      obtain ⟨hmark, hwk⟩ := hother k hk g hg
      refine ⟨hmark, hwk.other (fun j m hm hmk => ?_) fun j m hm _ => hd.left j m hm⟩
      rcases hd.taken j m hm with h | h
      · exact h
      · exact absurd (hmk.symm.trans (hd.buffered m h).1) hk

/-! ## Admission -/

theorem Windowed.state (hw : Windowed rx) {source : NodeId} {sourceService destinationService : UInt16}
    {generation : UInt32}
    (h : orderRxFlowLocked rx source sourceService destinationService generation sessionEpoch = .ok (i, created)) :
    IsMarker (orderRxState rx i created).expected ∧
      Waits rx i (orderRxState rx i created).expected (orderRxState rx i created).offsets := by
  rcases orderRxFlowLocked_cases h with ⟨rfl, f, hf, -⟩ | ⟨rfl, hfree, -⟩
  · have hst : orderRxState rx i false = f.state := by simp [orderRxState, hf]
    rw [hst]
    exact hw.agrees i f hf
  have hst : orderRxState rx i true = orderReset := rfl
  rw [hst, offsets_orderReset]
  exact ⟨isMarker_one, hw.buffered.waits_empty hfree 1⟩

theorem Windowed.insert (hw : Windowed rx) (he : IsMarker st.expected) (hwaits : Waits rx i st.expected st.offsets)
    (hfree : rx.orderMessages j = none) (hmark : m.origin.marker = h.orderingMarker.toNat)
    (ho : orderAdvance st.expected o = h.orderingMarker.toNat) (hlt : o < ORDER_MODULUS) (hnew : o ∉ st.offsets) :
    Buffered (orderInsert rx h m i f j) ∧ (∀ k, k ≠ i → Agrees (orderInsert rx h m i f j) k) ∧
      Waits (orderInsert rx h m i f j) i st.expected (insert o st.offsets) := by
  -- no other message of the flow has this marker
  have hother : ∀ k n, rx.orderMessages k = some n → n.flowIndex = i → n.marker ≠ h.orderingMarker.toNat := by
    intro k n hn hi heq
    obtain ⟨o', ho', heq'⟩ := hwaits.offset k n hn hi
    have : o' = o := orderAdvance_inj he (OrderState.offsets_lt ho') hlt (by rw [← heq', heq, ho])
    exact hnew (this ▸ ho')
  refine ⟨⟨?_, ?_, ?_⟩, ?_, ?_⟩
  · intro k k' n n' hn hn' hi hm
    simp only [orderInsert, Table.set_apply] at hn hn'
    split_ifs at hn hn' with hk hk'
    · rw [hk, hk']
    · rw [← Option.some.inj hn] at hi hm
      exact absurd hm.symm (hother k' n' hn' hi.symm)
    · rw [← Option.some.inj hn'] at hi hm
      exact absurd hm (hother k n hn hi)
    · exact hw.buffered.unique k k' n n' hn hn' hi hm
  · intro k n hn
    simp only [orderInsert, Table.set_apply] at hn
    split_ifs at hn with hk
    · rw [← Option.some.inj hn]
      exact hmark
    · exact hw.buffered.marker k n hn
  · intro k n hn
    simp only [orderInsert, Table.set_apply] at hn ⊢
    split_ifs at hn with hk
    · rw [← Option.some.inj hn, if_pos rfl]
      exact ⟨f, rfl⟩
    · split_ifs
      · exact ⟨f, rfl⟩
      · exact hw.buffered.flow k n hn
  · intro k hk g hg
    simp only [orderInsert, Table.set_of_ne _ _ hk] at hg
    obtain ⟨hmark, hwk⟩ := hw.agrees k g hg
    refine ⟨hmark, hwk.other (fun l n hn hnk => ?_) fun l n hn hnk => ?_⟩
    · have hl : l ≠ j := by
        rintro rfl
        rw [hfree] at hn
        cases hn
      exact (Table.set_of_ne _ _ hl).trans hn
    · simp only [orderInsert, Table.set_apply] at hn
      split_ifs at hn with hl
      · rw [← Option.some.inj hn] at hnk
        exact absurd hnk.symm hk
      · exact hn
  · exact hwaits.insert hfree rfl rfl ho.symm

/-- The flow at slot `i`, whose window was `st`, moves on past the messages of the batch, which start `offset` steps
after the marker it expected. -/
structure Progress (rx rx' : RxState) (i : Fin ORDER_FLOW_LIMIT) (st : OrderState) (f : OrderRxFlow) (offset : Nat)
    (batch : List OrderMessage) : Prop where
  isMarker : IsMarker st.expected
  flow : rx'.orderRx = rx.orderRx.set i f
  expected : f.state.expected = orderAdvance st.expected (offset + batch.length)
  markers : batch.map (·.marker) = (List.range' offset batch.length).map (orderAdvance st.expected)
  offset_le : offset ≤ ORDER_WINDOW
  start : batch = [] → offset = 0
  members : ∀ m ∈ batch, m.flowIndex = i ∧ m.message.origin.marker = m.marker

theorem orderRxWrite_state (rx : RxState) (h : WireData) (sessionEpoch : UInt64) (m : Complete)
    (i : Fin ORDER_FLOW_LIMIT) (created : Bool) (state : OrderState) :
    (orderRxWrite rx h sessionEpoch m i created state).state = state := by
  unfold orderRxWrite
  split <;> rfl

theorem orderingMarker_le (h : WireData) : h.orderingMarker.toNat ≤ U32_MAX := by
  have := h.orderingMarker.toNat_lt
  unfold U32_MAX
  omega

theorem Windowed.admit_release {state : OrderState} (hw : Windowed rx)
    (hmark : m.origin.marker = h.orderingMarker.toNat)
    (hflow : orderRxFlowLocked rx m.source h.sourceService h.destinationService h.common.identityGeneration
      sessionEpoch = .ok (i, created))
    (hstate : orderAdmit (orderRxState rx i created) h.orderingMarker.toNat nowMs = .ok (.released marker count, state))
    (hfree : rx.orderMessages j = none) :
    ∃ rx' batch, orderDetachLocked (orderInsert rx h m i (orderRxWrite rx h sessionEpoch m i created state) j) i marker
        count = (rx', .ok batch) ∧ Windowed rx' ∧
      Progress rx rx' i (orderRxState rx i created) (orderRxWrite rx h sessionEpoch m i created state) 0 batch := by
  obtain ⟨he, hwaits⟩ := hw.state hflow
  obtain ⟨o, hlt, hadv, hcases⟩ := orderAdmit_cases he (orderingMarker_le h) hstate
  obtain ⟨rfl, hr⟩ : o = 0 ∧ Releases (orderRxState rx i created) state 0 count marker := by
    rcases hcases with ⟨h0, n, hres, hr⟩ | ⟨-, -, -, hres, -⟩ | ⟨-, -, -, hres, -⟩ | ⟨-, -, hres, -⟩
    · obtain ⟨rfl, rfl⟩ := OrderResult.released.inj hres
      exact ⟨h0, hr⟩
    · cases hres
    · cases hres
    · cases hres
  obtain ⟨hb, hother, hwi⟩ := hw.insert (f := orderRxWrite rx h sessionEpoch m i created state) (j := j) he hwaits hfree
    hmark hadv hlt fun hmem => absurd hmem.1 (Nat.lt_irrefl 0)
  obtain ⟨rx', batch, hdet, hw', hd, hbatch⟩ := detach_release hb hother (Table.set_self _ _ _) he hwi
    ((orderRxWrite_state rx h sessionEpoch m i created state).symm ▸ hr) (Nat.zero_le _) fun o => by
      have hpos := hr.count_pos
      simp only [Set.mem_insert_iff, Nat.zero_add]
      constructor
      · rintro (rfl | ho)
        · exact .inl ⟨Nat.zero_le _, hpos⟩
        · by_cases hlt : o < count
          · exact .inl ⟨Nat.zero_le _, hlt⟩
          · exact .inr ⟨Nat.le_of_not_lt hlt, ho⟩
      · rintro (⟨-, hlt⟩ | ⟨-, ho⟩)
        · by_cases h0 : o = 0
          · exact .inl h0
          · exact .inr ⟨by omega, hr.pending_of_lt o (by omega) (by omega)⟩
        · exact .inr ho
  have hlen : batch.length = count := by
    have := congrArg List.length hbatch
    simpa using this
  refine ⟨rx', batch, hdet, hw', he, hd.orderRx, ?_, ?_, Nat.zero_le _, fun _ => rfl, hd.members hb⟩
  · rw [orderRxWrite_state, hlen, hr.expected_eq]
  · rw [hlen, hbatch]

theorem Windowed.admits (hw : Windowed rx) (hmark : m.origin.marker = h.orderingMarker.toNat)
    (ha : Admits h sessionEpoch m nowMs rx rx' r) :
    Windowed rx' ∧ (rx' = rx ∧ (r = .ok [] ∨ ∃ e, r = .error e) ∨
      ∃ i created state batch, orderRxFlowLocked rx m.source h.sourceService h.destinationService
          h.common.identityGeneration sessionEpoch = .ok (i, created) ∧ r = .ok batch ∧
        Progress rx rx' i (orderRxState rx i created) (orderRxWrite rx h sessionEpoch m i created state) 0 batch) := by
  cases ha with
  | refused => exact ⟨hw, .inl ⟨rfl, .inr ⟨_, rfl⟩⟩⟩
  | duplicate hflow hstate => exact ⟨hw, .inl ⟨rfl, .inl rfl⟩⟩
  | @held i created state j hflow hstate hfree =>
    obtain ⟨he, hwaits⟩ := hw.state hflow
    obtain ⟨o, hlt, hadv, hcases⟩ := orderAdmit_cases he (orderingMarker_le h) hstate
    obtain ⟨hpos, hle, hbit, hexp, hpend⟩ : 0 < o ∧ o ≤ ORDER_WINDOW ∧
        (orderRxState rx i created).pending.getLsbD (o - 1) = false ∧
        state.expected = (orderRxState rx i created).expected ∧
        state.pending = (orderRxState rx i created).pending ||| (1#32 <<< (o - 1)) := by
      rcases hcases with ⟨-, n, hres, -⟩ | ⟨-, -, -, hres, -⟩ | ⟨h1, h2, h3, -, h5, h6⟩ | ⟨-, -, hres, -⟩
      · cases hres
      · cases hres
      · exact ⟨h1, h2, h3, h5, h6⟩
      · cases hres
    have hnew : o ∉ (orderRxState rx i created).offsets := fun hmem => by
      rw [hmem.2] at hbit
      cases hbit
    obtain ⟨hb, hother, hwi⟩ := hw.insert (f := orderRxWrite rx h sessionEpoch m i created state) (j := j) he hwaits
      hfree hmark hadv hlt hnew
    refine ⟨⟨hb, fun k => ?_⟩,
      .inr ⟨i, created, state, [], hflow, rfl, he, rfl, ?_, rfl, Nat.zero_le _, fun _ => rfl, by simp⟩⟩
    · by_cases hk : k = i
      · subst hk
        intro g hg
        simp only [orderInsert, Table.set_self, Option.some.injEq] at hg
        rw [← hg, orderRxWrite_state, hexp, offsets_held hpos hle hpend]
        exact ⟨he, hwi⟩
      · exact hother k hk
    · rw [orderRxWrite_state, hexp]
      rfl
  | @released i created state j marker count rx' batch hflow hstate hfree hdetach =>
    obtain ⟨rx₁, batch₁, hdet, hw', hprog⟩ := hw.admit_release hmark hflow hstate hfree
    rw [hdetach, Prod.mk.injEq, Except.ok.injEq] at hdet
    obtain ⟨rfl, rfl⟩ := hdet
    exact ⟨hw', .inr ⟨i, created, state, batch, hflow, rfl, hprog⟩⟩
  | broken hflow hstate hfree hdetach =>
    obtain ⟨rx₁, batch₁, hdet, -⟩ := hw.admit_release hmark hflow hstate hfree
    rw [hdetach, Prod.mk.injEq] at hdet
    cases hdet.2

/-! ## Poll -/

theorem orderDeadline_reliabilityNow (bootNs : UInt64) : ∃ t, orderDeadline (reliabilityNow bootNs) = .ok t := by
  unfold orderDeadline
  rw [if_neg]
  · exact ⟨_, rfl⟩
  have := bootNs.toNat_lt
  unfold reliabilityNow U64_MAX ORDER_GAP_MS
  omega

theorem poll_offsets {s : Nat} (hrel : Releases st st' (s + 1) count marker)
    (hzero : ∀ j < s, st.pending.getLsbD j = false) (hone : st.pending.getLsbD s = true) (o : Nat) :
    o ∈ st.offsets ↔ (s + 1 ≤ o ∧ o < s + 1 + count) ∨ (s + 1 + count ≤ o ∧ o ∈ st.offsets) := by
  constructor
  · intro ho
    have hge : s + 1 ≤ o := by
      by_contra hlt
      have hpos := ho.1
      have := hzero (o - 1) (by omega)
      rw [ho.2] at this
      cases this
    by_cases hlt : o < s + 1 + count
    · exact .inl ⟨hge, hlt⟩
    · exact .inr ⟨Nat.le_of_not_lt hlt, ho⟩
  · rintro (⟨hge, hlt⟩ | ⟨-, ho⟩)
    · by_cases heq : o = s + 1
      · exact ⟨by omega, by rwa [heq]⟩
      · exact ⟨by omega, hrel.pending_of_lt o (by omega) hlt⟩
    · exact ho

theorem Windowed.poll_release {flow : OrderRxFlow} {state : OrderState} {r : Except Errno OrderResult}
    (hw : Windowed rx) (hnow : ∃ t, orderDeadline nowMs = .ok t) (hflow : rx.orderRx i = some flow)
    (hpoll : orderPoll flow.state nowMs = (state, r)) (hr : r ≠ .ok .held) :
    ∃ marker count rx' offset batch, r = .ok (.released marker count) ∧
      orderDetachLocked { rx with orderRx := rx.orderRx.set i { flow with state := state } } i marker count =
        (rx', .ok batch) ∧ Windowed rx' ∧ Progress rx rx' i flow.state { flow with state := state } offset batch := by
  obtain ⟨he, hwaits⟩ := hw.agrees i flow hflow
  obtain ⟨t, hnow⟩ := hnow
  rcases orderPoll_cases he hpoll with ⟨rfl, -⟩ | ⟨-, s, marker, count, hzero, hone, hrel, hres⟩
  · exact absurd rfl hr
  obtain rfl : r = .ok (.released marker count) := by
    rcases hres with h | ⟨-, h⟩
    · exact h
    · rw [hnow] at h
      cases h
  have hs : s + 1 ∈ flow.state.offsets := ⟨by omega, hone⟩
  have hb : Buffered { rx with orderRx := rx.orderRx.set i { flow with state := state } } := by
    refine ⟨hw.buffered.unique, hw.buffered.marker, fun j m hm => ?_⟩
    dsimp only
    by_cases hk : m.flowIndex = i
    · rw [hk]
      exact ⟨_, Table.set_self _ _ _⟩
    · rw [Table.set_of_ne _ _ hk]
      exact hw.buffered.flow j m hm
  have hother : ∀ k, k ≠ i → Agrees { rx with orderRx := rx.orderRx.set i { flow with state := state } } k := by
    intro k hk g hg
    dsimp only at hg
    rw [Table.set_of_ne _ _ hk] at hg
    obtain ⟨hm, hwk⟩ := hw.agrees k g hg
    exact ⟨hm, hwk.congr rfl⟩
  obtain ⟨rx', batch, hdet, hw', hd, hbatch⟩ := detach_release hb hother (Table.set_self _ _ _) he (hwaits.congr rfl)
    hrel (OrderState.offsets_le hs) (poll_offsets hrel hzero hone)
  have hlen : batch.length = count := by
    have := congrArg List.length hbatch
    simpa using this
  refine ⟨marker, count, rx', s + 1, batch, rfl, hdet, hw', he, hd.orderRx, ?_, ?_, OrderState.offsets_le hs,
    fun hnil => ?_, hd.members hb⟩
  · rw [hlen]
    exact hrel.expected_eq
  · rw [hlen, hbatch]
  · have hpos := hrel.count_pos
    rw [hnil, List.length_nil] at hlen
    omega

theorem Windowed.polls (hw : Windowed rx) (hnow : ∃ t, orderDeadline nowMs = .ok t) (hp : Polls nowMs rx rx' r) :
    Windowed rx' ∧ (rx' = rx ∧ r = .ok [] ∨
      ∃ i flow state offset batch, rx.orderRx i = some flow ∧ r = .ok batch ∧
        Progress rx rx' i flow.state { flow with state := state } offset batch) := by
  cases hp with
  | idle => exact ⟨hw, .inl ⟨rfl, rfl⟩⟩
  | @released i flow state marker count rx' batch hflow hpoll hdetach =>
    obtain ⟨marker₁, count₁, rx₁, offset, batch₁, hres, hdet, hw', hprog⟩ :=
      hw.poll_release hnow hflow hpoll (by simp)
    obtain ⟨rfl, rfl⟩ := OrderResult.released.inj (Except.ok.inj hres)
    rw [hdetach, Prod.mk.injEq, Except.ok.injEq] at hdet
    obtain ⟨rfl, rfl⟩ := hdet
    exact ⟨hw', .inr ⟨i, flow, state, offset, batch, hflow, rfl, hprog⟩⟩
  | broken hflow hpoll hdetach =>
    obtain ⟨marker₁, count₁, rx₁, offset, batch₁, hres, hdet, -⟩ := hw.poll_release hnow hflow hpoll (by simp)
    obtain ⟨rfl, rfl⟩ := OrderResult.released.inj (Except.ok.inj hres)
    rw [hdetach, Prod.mk.injEq] at hdet
    cases hdet.2
  | failed hflow hpoll =>
    obtain ⟨marker₁, count₁, rx₁, offset, batch₁, hres, -⟩ := hw.poll_release hnow hflow hpoll (by simp)
    cases hres

end Melodi
