import Melodi.Core.Flows
import Melodi.System.Node

/-!
# An ordered flow from end to end

The sender draws the markers of a flow one after the other, whether or not the message is queued or arrives. The window
of the receiver moves when the marker it expects arrives, or when a gap times out while something waits behind it. So
it can follow the sender only as long as at most `32` markers are drawn after the last one it has seen.

* `next_marker_admitted` : then the next marker is admitted once the polls that are due have run.

`flow_wedged` is the run in which `33` messages are lost.
-/

namespace Melodi
open Lib Scenario
variable {m : Complete} {r : Except Errno (List OrderMessage)} {i : Fin ORDER_FLOW_LIMIT}
  {count drawn marker now nowMs t : Nat} {res : OrderResult} {f : OrderRxFlow} {st st' : OrderState}
  {tx tx' : Table ORDER_FLOW_LIMIT OrderTxFlow} {sessionEpoch : UInt64} {h : WireData}

/-! ## The two ends of a flow -/

/-- A flow of ordered messages between two devices, as each of them keys it. -/
structure OrderedFlow where
  source : NodeId
  destination : NodeId
  sourceService : UInt16
  destinationService : UInt16
  txGeneration : UInt32
  txEpoch : UInt64
  rxGeneration : UInt32
  rxEpoch : UInt64
  deriving DecidableEq, Repr

/-- A message of the flow that was queued: how many markers were drawn before its own, and its marker. -/
structure Flight where
  position : Nat
  marker : Nat
  deriving DecidableEq, Repr

/-- The flows of the sender, the receive state of the receiver, and as a history what was drawn and queued on the
flow. -/
structure FlowLink where
  tx : Table ORDER_FLOW_LIMIT OrderTxFlow := Table.empty
  rx : RxState := {}
  drawn : Nat := 0
  sent : List Flight := []

inductive FlowLabel where
  | send (queued : Bool)
  | sendOther (other : OrderedFlow)
  /-- A message of the flow is complete at the receiver. It may be any that was queued, at any time and more than
  once. -/
  | arrive (k : Nat) (m : Complete) (bootNs : UInt64)
  | arriveOther (h : WireData) (sessionEpoch : UInt64) (m : Complete) (bootNs : UInt64)
  | poll (bootNs : UInt64)

namespace OrderedFlow

def drawMarker (fl : OrderedFlow) (tx : Table ORDER_FLOW_LIMIT OrderTxFlow) :
    Except Errno (Nat × Table ORDER_FLOW_LIMIT OrderTxFlow) :=
  orderTxMarkerLocked tx fl.destination fl.sourceService fl.destinationService fl.txGeneration fl.txEpoch

def header (fl : OrderedFlow) (marker : Nat) : WireData where
  common := { identityGeneration := fl.rxGeneration }
  sourceService := fl.sourceService
  destinationService := fl.destinationService
  orderingMarker := UInt32.ofNat marker

def message (fl : OrderedFlow) (marker : Nat) (m : Complete) : Complete :=
  { m with source := fl.source, origin := { m.origin with marker := marker } }

def takes (fl : OrderedFlow) (h : WireData) (sessionEpoch : UInt64) (m : Complete) : Bool :=
  m.source = fl.source && h.sourceService = fl.sourceService && h.destinationService = fl.destinationService &&
    h.common.identityGeneration = fl.rxGeneration && sessionEpoch = fl.rxEpoch

end OrderedFlow

def flowStep (fl : OrderedFlow) (s : FlowLink) : FlowLabel → FlowLink
  | .send queued =>
    match fl.drawMarker s.tx with
    | .error _ => s
    | .ok (marker, tx) =>
      { s with tx := tx, drawn := s.drawn + 1, sent := if queued then s.sent ++ [⟨s.drawn, marker⟩] else s.sent }
  | .sendOther other =>
    if other.destination = fl.destination ∧ other.sourceService = fl.sourceService ∧
        other.destinationService = fl.destinationService then s
    else
      match other.drawMarker s.tx with
      | .error _ => s
      | .ok (_, tx) => { s with tx := tx }
  | .arrive k m bootNs =>
    match s.sent[k]? with
    | none => s
    | some f =>
      { s with rx := (orderAdmitLocked s.rx (fl.header f.marker) fl.rxEpoch (fl.message f.marker m)
        (reliabilityNow bootNs)).1 }
  | .arriveOther h sessionEpoch m bootNs =>
    if fl.takes h sessionEpoch m ∨ m.origin.marker ≠ h.orderingMarker.toNat then s
    else { s with rx := (orderAdmitLocked s.rx h sessionEpoch m (reliabilityNow bootNs)).1 }
  | .poll bootNs => { s with rx := (orderPollLocked s.rx (reliabilityNow bootNs)).1 }

/-! ## How far a window has seen -/

def OrderState.reach (st : OrderState) : Nat :=
  ((Finset.range ORDER_WINDOW).filter fun j => st.pending.getLsbD j).sup (· + 2)

theorem OrderState.lt_reach {o : Nat} (h : o ∈ st.offsets) : o < st.reach := by
  have hle := OrderState.offsets_le h
  have hpos := h.1
  have hmem : o - 1 ∈ (Finset.range ORDER_WINDOW).filter fun j => st.pending.getLsbD j :=
    Finset.mem_filter.mpr ⟨Finset.mem_range.mpr (by omega), h.2⟩
  have hsup : o - 1 + 2 ≤ st.reach := Finset.le_sup (f := (· + 2)) hmem
  omega

theorem OrderState.reach_mem (h : st.reach ≠ 0) : st.reach - 1 ∈ st.offsets := by
  have hne : ((Finset.range ORDER_WINDOW).filter fun j => st.pending.getLsbD j).Nonempty := by
    by_contra hempty
    exact h (by rw [OrderState.reach, Finset.not_nonempty_iff_eq_empty.mp hempty]; rfl)
  obtain ⟨j, hj, hsup⟩ := Finset.exists_mem_eq_sup _ hne (· + 2)
  have hreach : st.reach = j + 2 := hsup
  rw [hreach]
  exact ⟨by omega, (Finset.mem_filter.mp hj).2⟩

theorem OrderState.reach_eq_zero (h : st.pending = 0) : st.reach = 0 := by
  by_contra hne
  have hbit := (OrderState.reach_mem hne).2
  rw [h] at hbit
  simp at hbit

theorem Releases.reach {offset : Nat} (h : Releases st st' offset count marker) :
    (st'.reach ≠ 0 → offset + count + st'.reach ≤ st.reach) ∧ st.reach ≤ offset + count + st'.reach := by
  constructor
  · intro hne
    have hmem := ((offsets_release h _).mp (OrderState.reach_mem hne)).2
    have hlt := OrderState.lt_reach hmem
    omega
  · by_contra hgt
    have hlast := OrderState.reach_mem (show st.reach ≠ 0 by omega)
    -- the marker after the run that is released does not wait, so the last one that waits is after it
    have hstop : st.reach - 1 ≠ offset + count := by
      intro heq
      rw [heq] at hlast
      exact Bool.false_ne_true (h.pending_stop.symm.trans hlast.2)
    have hmem : st.reach - 1 - (offset + count) ∈ st'.offsets :=
      (offsets_release h _).mpr
        ⟨by omega, by rwa [show offset + count + (st.reach - 1 - (offset + count)) = st.reach - 1 by omega]⟩
    have hlt := OrderState.lt_reach hmem
    omega

/-- Where the window is when `drawn` markers were drawn: it expects one of them or the next, has seen none that was not
drawn, and at most `32` were drawn after the last one it has seen. -/
def Within (st : OrderState) (drawn : Nat) : Prop :=
  ∃ e, st.expected = orderAdvance 1 e ∧ e + st.reach ≤ drawn ∧ drawn ≤ e + st.reach + ORDER_WINDOW

theorem within_orderReset : Within orderReset 0 :=
  ⟨0, rfl, by rw [OrderState.reach_eq_zero rfl], by omega⟩

theorem OrderState.reach_le (st : OrderState) : st.reach ≤ ORDER_WINDOW + 1 := by
  by_cases h : st.reach = 0
  · omega
  · have := OrderState.offsets_le (OrderState.reach_mem h)
    omega

def OrderState.top (st : OrderState) : Nat := orderAdvance st.expected st.reach

def OrderState.lag (st : OrderState) (marker : Nat) : Nat :=
  match orderDistance st.top marker with
  | .error _ => 0
  | .ok forward => forward

theorem lag_advance {e : Nat} (he : st.expected = orderAdvance 1 e) (hseen : e + st.reach ≤ drawn)
    (hlag : drawn ≤ e + st.reach + ORDER_WINDOW) :
    st.lag (orderAdvance 1 drawn) = drawn - (e + st.reach) := by
  have hnext : orderAdvance 1 drawn = orderAdvance st.top (drawn - (e + st.reach)) := by
    rw [OrderState.top, he, ← orderAdvance_add, ← orderAdvance_add]
    congr 1
    omega
  have htop : IsMarker st.top := by
    rw [OrderState.top, he]
    exact isMarker_advance (isMarker_advance isMarker_one _) _
  rw [OrderState.lag, hnext, orderDistance_advance htop]
  unfold ORDER_WINDOW at hlag
  unfold ORDER_MODULUS
  omega

theorem Within.draw (h : Within st drawn) (hlag : st.lag (orderAdvance 1 drawn) < ORDER_WINDOW) :
    Within st (drawn + 1) := by
  obtain ⟨e, he, hseen, hle⟩ := h
  rw [lag_advance he hseen hle] at hlag
  exact ⟨e, he, by omega, by omega⟩

theorem Within.releases {e offset : Nat} (h : Releases st st' offset count marker) (he : st.expected = orderAdvance 1 e)
    (hseen : e + st.reach ≤ drawn) (hlag : drawn ≤ e + st.reach + ORDER_WINDOW) (hlast : e + offset + count ≤ drawn) :
    Within st' drawn := by
  obtain ⟨hshows, hhides⟩ := h.reach
  refine ⟨e + (offset + count), ?_, ?_, by omega⟩
  · rw [h.expected_eq, he, orderAdvance_add 1 e]
  by_cases hzero : st'.reach = 0
  · omega
  · have := hshows hzero
    omega

theorem Within.admitted {k : Nat} (h : Within st drawn) (hk : k < drawn)
    (hold : drawn + ORDER_WINDOW < k + ORDER_MODULUS)
    (hadm : orderAdmit st (orderAdvance 1 k) now = .ok (res, st')) : Within st' drawn := by
  obtain ⟨e, he, hseen, hlag⟩ := id h
  have hmarker : IsMarker st.expected := he ▸ isMarker_advance isMarker_one e
  obtain ⟨f, hf, hadv, hcases⟩ := orderAdmit_cases hmarker (isMarker_advance isMarker_one k).2 hadm
  have hreach := st.reach_le
  -- the marker is as far from the expected one as the two were drawn apart
  have hpast : e ≤ k → f = k - e := by
    intro hle
    refine orderAdvance_inj hmarker hf ?_ ?_
    · unfold ORDER_MODULUS ORDER_WINDOW at *
      omega
    · rw [hadv, he, ← orderAdvance_add]
      congr 1
      omega
  have hback : k < e → f + (e - k) = ORDER_MODULUS := by
    intro hlt
    have hcycle : orderAdvance (orderAdvance 1 k) ORDER_MODULUS = orderAdvance 1 k := by
      rw [orderAdvance_eq (isMarker_advance isMarker_one k), Nat.add_mod_right]
      have hk := isMarker_advance isMarker_one k
      unfold IsMarker U32_MAX at hk
      unfold ORDER_MODULUS
      omega
    have hexp : orderAdvance st.expected (ORDER_MODULUS - (e - k)) = orderAdvance 1 k := by
      rw [he, show e = k + (e - k) by omega, orderAdvance_add, ← orderAdvance_add (orderAdvance 1 k),
        show e - k + (ORDER_MODULUS - (k + (e - k) - k)) =
        ORDER_MODULUS by unfold ORDER_MODULUS ORDER_WINDOW at *; omega, hcycle]
    have hfe : f = ORDER_MODULUS - (e - k) :=
      orderAdvance_inj hmarker hf (by unfold ORDER_MODULUS at *; omega) (hadv.trans hexp.symm)
    unfold ORDER_MODULUS ORDER_WINDOW at *
    omega
  have hnew : f ≤ ORDER_WINDOW → e ≤ k := by
    intro hle
    by_contra hlt
    have := hback (by omega)
    omega
  rcases hcases with ⟨rfl, n, -, hrel⟩ | ⟨-, -, -, -, rfl⟩ | ⟨hpos, hle, -, -, hexp, hpend⟩ | ⟨-, -, -, rfl⟩
  · have hek := hnew (Nat.zero_le _)
    have hzero := hpast hek
    refine Within.releases hrel he hseen hlag ?_
    -- the last marker that is released waited, or is the one that arrived
    by_cases hone : n = 1
    · omega
    · have hcount := hrel.count_pos
      have hmem : n - 1 ∈ st.offsets := ⟨by omega, hrel.pending_of_lt (n - 1) (by omega) (by omega)⟩
      have := OrderState.lt_reach hmem
      omega
  · exact h
  · have hek := hnew hle
    have hfe := hpast hek
    have hoffsets := offsets_held hpos hle hpend
    have hwider : st.reach ≤ st'.reach := by
      by_cases hzero : st.reach = 0
      · omega
      have hmem : st.reach - 1 ∈ st'.offsets := by
        rw [hoffsets]
        exact .inr (OrderState.reach_mem hzero)
      have := OrderState.lt_reach hmem
      omega
    have hwithin : e + st'.reach ≤ drawn := by
      by_cases hzero : st'.reach = 0
      · omega
      have hmem := OrderState.reach_mem hzero
      rw [hoffsets] at hmem
      rcases hmem with heq | hmem
      · omega
      · have := OrderState.lt_reach hmem
        omega
    exact ⟨e, hexp.trans he, hwithin, by omega⟩
  · exact h

theorem Within.poll (h : Within st drawn) (hpoll : orderPoll st now = (st', .ok (.released marker count))) :
    Within st' drawn := by
  obtain ⟨e, he, hseen, hlag⟩ := h
  have hmarker : IsMarker st.expected := he ▸ isMarker_advance isMarker_one e
  rcases orderPoll_cases hmarker hpoll with ⟨hheld, -⟩ | ⟨-, skipped, m, n, -, hone, hrel, -⟩
  · exact nomatch hheld
  refine Within.releases hrel he hseen hlag ?_
  -- the last marker that is released waited
  have hcount := hrel.count_pos
  have hmem : skipped + 1 + n - 1 ∈ st.offsets := by
    by_cases hfirst : n = 1
    · rw [hfirst]
      exact ⟨by omega, hone⟩
    · exact ⟨by omega, hrel.pending_of_lt _ (by omega) (by omega)⟩
  have := OrderState.lt_reach hmem
  omega

theorem Within.accepts (h : Within st drawn) (hidle : st.pending = 0) (hnow : ∃ t, orderDeadline now = .ok t) :
    ∃ r, orderAdmit st (orderAdvance 1 drawn) now = .ok r := by
  obtain ⟨e, he, hseen, hlag⟩ := h
  obtain ⟨t, ht⟩ := hnow
  have hmarker : IsMarker st.expected := he ▸ isMarker_advance isMarker_one e
  rw [OrderState.reach_eq_zero hidle] at hseen hlag
  have hforward : orderDistance st.expected (orderAdvance 1 drawn) = .ok (drawn - e) := by
    have hadv : orderAdvance 1 drawn = orderAdvance st.expected (drawn - e) := by
      rw [he, ← orderAdvance_add]
      congr 1
      omega
    rw [hadv, orderDistance_advance hmarker]
    unfold ORDER_WINDOW at hlag
    unfold ORDER_MODULUS
    omega
  unfold orderAdmit
  rw [if_neg (by unfold IsMarker at hmarker; omega), hforward]
  dsimp only
  split_ifs
  · exact ⟨_, rfl⟩
  · exact ⟨_, rfl⟩
  · rw [ht]
    exact ⟨_, rfl⟩
  · exact ⟨_, rfl⟩
  · exact ⟨_, rfl⟩
  · omega

/-! ## The window of the flow at the receiver -/

theorem Windowed.admits_rule {Q : RxState → Prop} {rx rx' : RxState} (hw : Windowed rx)
    (hmark : m.origin.marker = h.orderingMarker.toNat) (hadmits : Admits h sessionEpoch m nowMs rx rx' r) (hsame : Q rx)
    (hwrites : ∀ {rx₁ i created state res}, orderRxFlowLocked rx m.source h.sourceService h.destinationService
      h.common.identityGeneration sessionEpoch = .ok (i, created) →
      orderAdmit (orderRxState rx i created) h.orderingMarker.toNat nowMs = .ok (res, state) →
      rx₁.orderRx = rx.orderRx.set i (orderRxWrite rx h sessionEpoch m i created state) → Q rx₁) : Q rx' := by
  cases hadmits with
  | refused | duplicate => exact hsame
  | held hflow hstate hfree => exact hwrites hflow hstate rfl
  | released hflow hstate hfree hdetach => exact hwrites hflow hstate (orderDetachLocked_ok hdetach).1.orderRx
  | broken hflow hstate hfree hdetach =>
    obtain ⟨rx₁, batch₁, hdet, -⟩ := hw.admit_release hmark hflow hstate hfree
    rw [hdetach] at hdet
    exact nomatch (Prod.mk.inj hdet).2

theorem Windowed.polls_rule {Q : RxState → Prop} {rx rx' : RxState} (hw : Windowed rx)
    (hnow : ∃ t, orderDeadline nowMs = .ok t) (hpolls : Polls nowMs rx rx' r) (hsame : Q rx)
    (hwrites : ∀ {rx₁ i flow state marker count}, rx.orderRx i = some flow →
      orderPoll flow.state nowMs = (state, .ok (.released marker count)) →
      rx₁.orderRx = rx.orderRx.set i { flow with state := state } → Q rx₁) : Q rx' := by
  cases hpolls with
  | idle => exact hsame
  | released hflow hpoll hdetach => exact hwrites hflow hpoll (orderDetachLocked_ok hdetach).1.orderRx
  | broken hflow hpoll hdetach =>
    obtain ⟨marker₁, count₁, rx₁, offset, batch₁, hres, hdet, -⟩ := hw.poll_release hnow hflow hpoll (by simp)
    obtain ⟨rfl, rfl⟩ := OrderResult.released.inj (Except.ok.inj hres)
    rw [hdetach] at hdet
    exact nomatch (Prod.mk.inj hdet).2
  | failed hflow hpoll =>
    obtain ⟨marker₁, count₁, rx₁, offset, batch₁, hres, -⟩ := hw.poll_release hnow hflow hpoll (by simp)
    exact nomatch hres

namespace OrderedFlow
variable {fl : OrderedFlow} {rx rx' : RxState}

def isRx (fl : OrderedFlow) : OrderRxFlow → Bool :=
  OrderRxFlow.isFor fl.source fl.sourceService fl.destinationService fl.rxGeneration fl.rxEpoch

def window (fl : OrderedFlow) (rx : RxState) : OrderState :=
  (((rx.orderRx.find? fl.isRx).bind rx.orderRx).map (·.state)).getD orderReset

def Unique (fl : OrderedFlow) (rx : RxState) : Prop :=
  ∀ i j f g, rx.orderRx i = some f → rx.orderRx j = some g → fl.isRx f = true → fl.isRx g = true → i = j

theorem window_none (h : ∀ i f, rx.orderRx i = some f → fl.isRx f = false) : fl.window rx = orderReset := by
  rw [window, Table.find?_eq_none_iff.mpr h]
  rfl

theorem window_some (hf : rx.orderRx i = some f) (hflow : fl.isRx f = true)
    (hunique : ∀ j g, rx.orderRx j = some g → fl.isRx g = true → j = i) : fl.window rx = f.state := by
  rw [window, Table.find?_eq_some_of_unique hf hflow hunique, Option.bind_some, hf]
  rfl

theorem window_written (hset : rx'.orderRx = rx.orderRx.set i f) (hflow : fl.isRx f = true)
    (hunique : ∀ j g, rx.orderRx j = some g → fl.isRx g = true → j = i) :
    fl.window rx' = f.state ∧ fl.Unique rx' := by
  have honly : ∀ j g, rx'.orderRx j = some g → fl.isRx g = true → j = i := by
    intro j g hg hgflow
    rw [hset] at hg
    rcases Table.set_eq_some.mp hg with ⟨rfl, -⟩ | ⟨-, hg⟩
    · rfl
    · exact hunique j g hg hgflow
  refine ⟨window_some (by rw [hset, Table.set_self]) hflow honly, fun j k g h hg hh hgflow hhflow => ?_⟩
  rw [honly j g hg hgflow, honly k h hh hhflow]

theorem window_other (hset : rx'.orderRx = rx.orderRx.set i f) (hflow : fl.isRx f = false)
    (hold : ∀ g, rx.orderRx i = some g → fl.isRx g = false) (hunique : fl.Unique rx) :
    fl.window rx' = fl.window rx ∧ fl.Unique rx' := by
  constructor
  · rw [window, window, hset, Table.find?_bind_set_of_false hflow hold]
  have hkept : ∀ j g, fl.isRx g = true → rx'.orderRx j = some g → rx.orderRx j = some g := by
    intro j g hg h
    rw [hset] at h
    rcases Table.set_eq_some.mp h with ⟨-, rfl⟩ | ⟨-, h⟩
    · rw [hflow] at hg
      exact nomatch hg
    · exact h
  intro j k g h hg hh hgflow hhflow
  exact hunique j k g h (hkept j g hgflow hg) (hkept k h hhflow hh) hgflow hhflow

theorem isRx_eq_takes
    (hf : f.isFor m.source h.sourceService h.destinationService h.common.identityGeneration sessionEpoch = true) :
    fl.isRx f = fl.takes h sessionEpoch m := by
  simp only [OrderRxFlow.isFor, Bool.and_eq_true, decide_eq_true_eq] at hf
  obtain ⟨⟨⟨⟨hgeneration, hepoch⟩, hsource⟩, hdestination⟩, hnode⟩ := hf
  simp only [isRx, OrderRxFlow.isFor, takes, hgeneration, hepoch, hsource, hdestination, hnode]
  ac_rfl

theorem orderRxWrite_isFor {created : Bool}
    (hflow : orderRxFlowLocked rx m.source h.sourceService h.destinationService h.common.identityGeneration
      sessionEpoch = .ok (i, created)) (state : OrderState) :
    (orderRxWrite rx h sessionEpoch m i created state).isFor m.source h.sourceService h.destinationService
      h.common.identityGeneration sessionEpoch = true := by
  rcases orderRxFlowLocked_cases hflow with ⟨rfl, f, hf, hfor⟩ | ⟨rfl, hfree, -⟩
  · simp only [orderRxWrite, hf]
    exact hfor
  · simp [orderRxWrite, OrderRxFlow.isFor]

theorem admit_window (hw : Windowed rx) (hmark : m.origin.marker = h.orderingMarker.toNat) (hunique : fl.Unique rx)
    (hadmits : Admits h sessionEpoch m nowMs rx rx' r) :
    fl.Unique rx' ∧ (fl.window rx' = fl.window rx ∨ fl.takes h sessionEpoch m = true ∧
      ∃ res, orderAdmit (fl.window rx) h.orderingMarker.toNat nowMs = .ok (res, fl.window rx')) := by
  -- what the record that is written does to the window
  apply hw.admits_rule hmark hadmits
  · exact ⟨hunique, .inl rfl⟩
  intro rx₁ i created state res hflow hstate hset
  have hwritten : fl.isRx _ = fl.takes h sessionEpoch m := isRx_eq_takes (orderRxWrite_isFor hflow state)
  by_cases htakes : fl.takes h sessionEpoch m = true
  · rw [htakes] at hwritten
    -- the record found is that of the flow, and without one nothing is found
    obtain ⟨honly, hwindow⟩ : (∀ j g, rx.orderRx j = some g → fl.isRx g = true → j = i) ∧
        fl.window rx = orderRxState rx i created := by
      rcases orderRxFlowLocked_cases hflow with ⟨rfl, f, hf, hfor⟩ | ⟨rfl, -, hnone⟩
      · have hfl : fl.isRx f = true := (isRx_eq_takes hfor).trans htakes
        have honly : ∀ j g, rx.orderRx j = some g → fl.isRx g = true → j = i :=
          fun j g hg hgflow => hunique j i g f hg hf hgflow hfl
        refine ⟨honly, ?_⟩
        rw [window_some hf hfl honly, orderRxState, hf]
        rfl
      · have hnone : ∀ j g, rx.orderRx j = some g → fl.isRx g = false := by
          intro j g hg
          simp only [takes, Bool.and_eq_true, decide_eq_true_eq] at htakes
          obtain ⟨⟨⟨⟨hnode, hsource⟩, hdestination⟩, hgeneration⟩, hepoch⟩ := htakes
          rw [isRx, ← hnode, ← hsource, ← hdestination, ← hgeneration, ← hepoch]
          exact hnone j g hg
        refine ⟨fun j g hg hgflow => ?_, window_none hnone⟩
        rw [hnone j g hg] at hgflow
        cases hgflow
    obtain ⟨hnext, hunique'⟩ := window_written hset hwritten honly
    rw [orderRxWrite_state] at hnext
    rw [hwindow, hnext]
    exact ⟨hunique', .inr ⟨htakes, res, hstate⟩⟩
  · have htakes := Bool.eq_false_iff.mpr htakes
    rw [htakes] at hwritten
    have hold : ∀ g, rx.orderRx i = some g → fl.isRx g = false := by
      intro g hg
      rcases orderRxFlowLocked_cases hflow with ⟨-, f, hf, hfor⟩ | ⟨-, hfree, -⟩
      · rw [hf] at hg
        rw [← Option.some.inj hg, isRx_eq_takes hfor, htakes]
      · rw [hfree] at hg
        cases hg
    obtain ⟨hsame, hunique'⟩ := window_other hset hwritten hold hunique
    exact ⟨hunique', .inl hsame⟩

theorem poll_window (hw : Windowed rx) (hnow : ∃ t, orderDeadline nowMs = .ok t) (hunique : fl.Unique rx)
    (hpolls : Polls nowMs rx rx' r) :
    fl.Unique rx' ∧ (fl.window rx' = fl.window rx ∨
      ∃ marker count, orderPoll (fl.window rx) nowMs = (fl.window rx', .ok (.released marker count))) := by
  apply hw.polls_rule hnow hpolls
  · exact ⟨hunique, .inl rfl⟩
  intro rx' i flow state marker count hflow hpoll hset
  have hsame : fl.isRx { flow with state := state } = fl.isRx flow := rfl
  by_cases hours : fl.isRx flow = true
  · have honly : ∀ j g, rx.orderRx j = some g → fl.isRx g = true → j = i :=
      fun j g hg hgflow => hunique j i g flow hg hflow hgflow hours
    obtain ⟨hnext, hunique'⟩ := window_written hset (hsame.trans hours) honly
    rw [window_some hflow hours honly, hnext]
    exact ⟨hunique', .inr ⟨marker, count, hpoll⟩⟩
  · have hours := Bool.eq_false_iff.mpr hours
    obtain ⟨hkept, hunique'⟩ := window_other hset (hsame.trans hours) (fun g hg => by
      rw [hflow] at hg
      rw [← Option.some.inj hg, hours]) hunique
    exact ⟨hunique', .inl hkept⟩

/-! ## The markers of the sender -/

def isTx (fl : OrderedFlow) (f : OrderTxFlow) : Bool :=
  f.destination = fl.destination && f.sourceService = fl.sourceService && f.destinationService = fl.destinationService

def next (fl : OrderedFlow) (tx : Table ORDER_FLOW_LIMIT OrderTxFlow) : Nat :=
  match (tx.find? fl.isTx).bind tx with
  | none => 1
  | some f => if f.generation ≠ fl.txGeneration ∨ f.sessionEpoch ≠ fl.txEpoch then 1 else f.nextMarker

theorem orderTxMarkerLocked_ok (h : fl.drawMarker tx = .ok (marker, tx')) :
    ∃ i f, tx' = tx.set i { f with nextMarker := orderNext f.nextMarker } ∧ marker = f.nextMarker ∧ fl.isTx f = true ∧
      f.generation = fl.txGeneration ∧ f.sessionEpoch = fl.txEpoch ∧ fl.next tx = f.nextMarker ∧
      ((∃ g, tx i = some g ∧ fl.isTx g = true ∧ tx.find? fl.isTx = some i) ∨ tx i = none ∧ tx.find? fl.isTx =
        none) := by
  have hfresh : fl.isTx ⟨fl.destination, fl.txEpoch, fl.txGeneration, 1, fl.sourceService, fl.destinationService⟩ =
    true := by
    simp [isTx]
  unfold drawMarker orderTxMarkerLocked at h
  dsimp only at h
  rw [show (fun f : OrderTxFlow => decide (f.destination = fl.destination) && decide
    (f.sourceService = fl.sourceService) &&
    decide (f.destinationService = fl.destinationService)) = fl.isTx from rfl] at h
  unfold next
  cases hfind : tx.find? fl.isTx with
  | some i =>
    obtain ⟨g, hg, hkey⟩ := Table.find?_some hfind
    simp only [hfind, hg, Except.ok.injEq, Prod.mk.injEq] at h
    obtain ⟨rfl, rfl⟩ := h
    simp only [Option.bind_some, hg]
    by_cases hstale : g.generation ≠ fl.txGeneration ∨ g.sessionEpoch ≠ fl.txEpoch
    · simp only [if_pos hstale]
      exact ⟨i, _, rfl, rfl, hfresh, rfl, rfl, rfl, .inl ⟨g, hg, hkey, rfl⟩⟩
    · simp only [if_neg hstale]
      push Not at hstale
      exact ⟨i, g, rfl, rfl, hkey, hstale.1, hstale.2, rfl, .inl ⟨g, hg, hkey, rfl⟩⟩
  | none =>
    rw [hfind] at h
    cases hfree : tx.free? with
    | none =>
      rw [hfree] at h
      exact nomatch h
    | some i =>
      simp only [hfree, Option.map_some, Except.ok.injEq, Prod.mk.injEq] at h
      obtain ⟨rfl, rfl⟩ := h
      exact ⟨i, _, rfl, rfl, hfresh, rfl, rfl, rfl, .inr ⟨Table.free?_some hfree, rfl⟩⟩

theorem drawMarker_ok (h : fl.drawMarker tx = .ok (marker, tx')) :
    marker = fl.next tx ∧ fl.next tx' = orderNext marker := by
  obtain ⟨i, f, rfl, rfl, hkey, hgeneration, hepoch, hnext, hslot⟩ := orderTxMarkerLocked_ok h
  refine ⟨hnext.symm, ?_⟩
  have hfound : (tx.set i { f with nextMarker := orderNext f.nextMarker }).find? fl.isTx = some i := by
    rcases hslot with ⟨g, hg, hgkey, hfind⟩ | ⟨-, hnone⟩
    · rw [Table.find?_set hg
        (show fl.isTx { f with nextMarker := orderNext f.nextMarker } = fl.isTx g from hkey.trans hgkey.symm), hfind]
    refine Table.find?_eq_some_of_unique (Table.set_self _ _ _) hkey fun j b hb hbkey => ?_
    rcases Table.set_eq_some.mp hb with ⟨rfl, -⟩ | ⟨-, hb⟩
    · rfl
    · rw [Table.find?_none hnone hb] at hbkey
      exact nomatch hbkey
  rw [next, hfound, Option.bind_some, Table.set_self]
  exact if_neg (by simp [hgeneration, hepoch])

theorem next_other {other : OrderedFlow}
    (hother : ¬(other.destination = fl.destination ∧ other.sourceService = fl.sourceService ∧
      other.destinationService = fl.destinationService)) (h : other.drawMarker tx = .ok (marker, tx')) :
    fl.next tx' = fl.next tx := by
  obtain ⟨i, f, rfl, -, hkey, -, -, -, hslot⟩ := orderTxMarkerLocked_ok h
  have hfails : ∀ g, other.isTx g = true → fl.isTx g = false := by
    intro g hg
    simp only [isTx, Bool.and_eq_true, decide_eq_true_eq] at hg
    obtain ⟨⟨hd, hs⟩, ht⟩ := hg
    rw [← hd, ← hs, ← ht] at hother
    rw [Bool.eq_false_iff]
    intro hours
    simp only [isTx, Bool.and_eq_true, decide_eq_true_eq] at hours
    exact hother ⟨hours.1.1, hours.1.2, hours.2⟩
  have hwritten : fl.isTx { f with nextMarker := orderNext f.nextMarker } = false := hfails f hkey
  rw [next, next, Table.find?_bind_set_of_false hwritten]
  intro g hg
  rcases hslot with ⟨g', hg', hgkey, -⟩ | ⟨hfree, -⟩
  · rw [hg'] at hg
    exact hfails g (Option.some.inj hg ▸ hgkey)
  · rw [hfree] at hg
    exact nomatch hg

end OrderedFlow

/-! ## The polls that are due -/

def pollAll (rx : RxState) (times : List Nat) : RxState := times.foldl (fun rx nowMs => (orderPollLocked rx nowMs).1) rx

def Dated (rx : RxState) (t : Nat) : Prop := ∀ i f, rx.orderRx i = some f → f.state.deadlineMs ≤ t

theorem orderDeadline_eq (h : orderDeadline now = .ok t) : t = now + ORDER_GAP_MS := by
  unfold orderDeadline at h
  split_ifs at h
  exact (Except.ok.inj h).symm

theorem orderRelease_deadline (st : OrderState) (marker : Nat) (bits : BitVec 32) :
    (orderRelease st marker bits).1.deadlineMs ≤ st.deadlineMs := by
  obtain ⟨t, -, -, -, -, -, hdeadline⟩ := orderRelease_spec st marker bits
  rw [hdeadline]
  split_ifs <;> omega

theorem orderAdmit_deadline (h : orderAdmit st marker now = .ok (res, st')) :
    st'.deadlineMs ≤ max st.deadlineMs (now + ORDER_GAP_MS) := by
  unfold orderAdmit at h
  by_cases hzero : st.expected = 0
  · rw [if_pos hzero] at h
    exact nomatch h
  rw [if_neg hzero] at h
  cases hdistance : orderDistance st.expected marker with
  | error e =>
    rw [hdistance] at h
    exact nomatch h
  | ok forward =>
    rw [hdistance] at h
    dsimp only at h
    split at h
    · obtain ⟨-, rfl⟩ := Prod.mk.inj (Except.ok.inj h)
      exact (orderRelease_deadline _ _ _).trans (le_max_left _ _)
    split at h
    · split at h
      · obtain ⟨-, rfl⟩ := Prod.mk.inj (Except.ok.inj h)
        exact le_max_left _ _
      · split at h
        · split at h
          · exact nomatch h
          · rename_i deadline hdeadline
            obtain ⟨-, rfl⟩ := Prod.mk.inj (Except.ok.inj h)
            exact (orderDeadline_eq hdeadline).le.trans (le_max_right _ _)
        · obtain ⟨-, rfl⟩ := Prod.mk.inj (Except.ok.inj h)
          exact le_max_left _ _
    · split at h
      · obtain ⟨-, rfl⟩ := Prod.mk.inj (Except.ok.inj h)
        exact le_max_left _ _
      · exact nomatch h

theorem orderPoll_deadline (h : orderPoll st now = (st', .ok res)) :
    st'.deadlineMs ≤ max st.deadlineMs (now + ORDER_GAP_MS) := by
  unfold orderPoll at h
  dsimp only at h
  split_ifs at h
  · exact nomatch (Prod.mk.inj h).2
  · obtain ⟨rfl, -⟩ := Prod.mk.inj h
    exact le_max_left _ _
  · obtain ⟨rfl, -⟩ := Prod.mk.inj h
    exact (orderRelease_deadline _ _ _).trans (le_max_left _ _)
  split at h
  · exact nomatch (Prod.mk.inj h).2
  rename_i deadline hdeadline
  obtain ⟨rfl, -⟩ := Prod.mk.inj h
  exact (orderDeadline_eq hdeadline).le.trans (le_max_right _ _)

theorem orderPoll_not_held (hpending : st.pending ≠ 0) (hdue : st.deadlineMs ≤ now) :
    orderPoll st now ≠ (st', .ok .held) := by
  intro h
  unfold orderPoll at h
  dsimp only at h
  rw [if_neg (not_or.mpr ⟨hpending, Nat.not_lt.mpr hdue⟩)] at h
  split_ifs at h
  · exact nomatch (Prod.mk.inj h).2
  · exact nomatch (Prod.mk.inj h).2
  · split at h <;> exact nomatch (Prod.mk.inj h).2

theorem orderPollFrom_due {rx : RxState} (hw : Windowed rx) (hnow : ∃ t, orderDeadline nowMs = .ok t)
    (hf : rx.orderRx i = some f) (hpending : f.state.pending ≠ 0) (hdue : f.state.deadlineMs ≤ nowMs)
    {is : List (Fin ORDER_FLOW_LIMIT)} (hi : i ∈ is) :
    ∃ j flow state marker count batch, rx.orderRx j = some flow ∧
      orderPoll flow.state nowMs = (state, .ok (.released marker count)) ∧
      orderDetachLocked { rx with orderRx := rx.orderRx.set j { flow with state := state } } j marker count =
        ((orderPollFrom nowMs rx is).1, .ok batch) := by
  induction is with
  | nil => cases hi
  | cons j is ih =>
    unfold orderPollFrom
    cases hj : rx.orderRx j with
    | none =>
      refine ih ((List.mem_cons.mp hi).resolve_left ?_)
      rintro rfl
      rw [hf] at hj
      cases hj
    | some flow =>
      cases hpoll : orderPoll flow.state nowMs with
      | mk state r =>
        by_cases hheld : r = .ok .held
        · subst hheld
          dsimp only
          rw [hpoll]
          refine ih ((List.mem_cons.mp hi).resolve_left ?_)
          rintro rfl
          rw [hf] at hj
          obtain rfl := Option.some.inj hj
          exact orderPoll_not_held hpending hdue hpoll
        · obtain ⟨marker, count, rx', offset, batch, rfl, hdetach, -⟩ := hw.poll_release hnow hj hpoll hheld
          dsimp only
          rw [hpoll]
          dsimp only
          rw [hdetach]
          exact ⟨j, flow, state, marker, count, batch, hj, hpoll, hdetach⟩

theorem orderPollLocked_fewer {rx : RxState} (hw : Windowed rx) (hnow : ∃ t, orderDeadline nowMs = .ok t)
    (hf : rx.orderRx i = some f) (hpending : f.state.pending ≠ 0) (hdue : f.state.deadlineMs ≤ nowMs) :
    (orderPollLocked rx nowMs).1.orderMessages.sum (fun _ => 1) < rx.orderMessages.sum (fun _ => 1) := by
  obtain ⟨j, flow, state, marker, count, batch, hj, hpoll, hdetach⟩ :=
    orderPollFrom_due hw hnow hf hpending hdue (List.mem_finRange i)
  obtain ⟨hmarker, -⟩ := hw.agrees j flow hj
  obtain ⟨hd, -, hmarkers⟩ := orderDetachLocked_ok hdetach
  have hcount : 0 < batch.length := by
    rcases orderPoll_cases hmarker hpoll with ⟨hheld, -⟩ | ⟨-, s, m, n, -, hone, hrel, hres⟩
    · exact nomatch hheld
    have hreleased : marker = m ∧ count = n := by
      rcases hres with h | ⟨h, -⟩
      · exact OrderResult.released.inj (Except.ok.inj h)
      · exact nomatch h
    obtain ⟨rfl, rfl⟩ := hreleased
    have hle := hrel.le (OrderState.offsets_le (show s + 1 ∈ flow.state.offsets from ⟨by omega, hone⟩))
    have hnodup : (orderMarkers marker count).Nodup := by
      rw [hrel.marker_eq, orderMarkers_eq]
      exact orderMarkers_nodup hmarker (hle.trans (by decide))
    have hlength : batch.length = count := by
      have := congrArg List.length (hmarkers hnodup)
      rw [List.length_map, hrel.marker_eq, orderMarkers_eq, List.length_map, List.length_range'] at this
      exact this
    rw [hlength]
    exact hrel.count_pos
  have hsum := hd.sum fun _ => 1
  rw [List.map_const', List.sum_replicate, smul_eq_mul, mul_one] at hsum
  show (orderPollFrom nowMs rx (List.finRange ORDER_FLOW_LIMIT)).1.orderMessages.sum (fun _ => 1) < _
  dsimp only at hsum
  omega

theorem Dated.poll {rx rx' : RxState} (h : Dated rx t) (hw : Windowed rx) (hnow : ∃ t, orderDeadline nowMs = .ok t)
    (hpolls : Polls nowMs rx rx' r) : Dated rx' (max t (nowMs + ORDER_GAP_MS)) := by
  apply hw.polls_rule hnow hpolls
  · exact fun i f hf => (h i f hf).trans (le_max_left _ _)
  intro rx₁ i flow state marker count hflow hpoll hset j f hf
  rw [hset] at hf
  rcases Table.set_eq_some.mp hf with ⟨-, rfl⟩ | ⟨-, hf⟩
  · exact (orderPoll_deadline hpoll).trans (max_le_max_right _ (h _ _ hflow))
  · exact (h j f hf).trans (le_max_left _ _)

theorem exists_pollAll (n : Nat) {rx : RxState} (hw : Windowed rx) (hdated : Dated rx t)
    (hn : rx.orderMessages.sum (fun _ => 1) ≤ n) (ht : t + ORDER_GAP_MS * (n + 1) ≤ U64_MAX) :
    ∃ times, (∀ nowMs ∈ times, ∃ t, orderDeadline nowMs = .ok t) ∧
      ∀ i f, (pollAll rx times).orderRx i = some f → f.state.pending = 0 := by
  induction n generalizing rx t with
  | zero =>
    refine ⟨[], fun _ h => (List.not_mem_nil h).elim, fun i f hf => ?_⟩
    -- no message is in the buffer, so no window holds a marker
    by_contra hpending
    obtain ⟨k, -, hbit⟩ := exists_bit_of_ne_zero hpending
    obtain ⟨j, m, hm, -, -⟩ := (hw.agrees i f hf).2.message (k + 1) ⟨by omega, hbit⟩
    have := Table.le_sum hm fun _ => 1
    omega
  | succ n ih =>
    by_cases hidle : ∀ i f, rx.orderRx i = some f → f.state.pending = 0
    · exact ⟨[], fun _ h => (List.not_mem_nil h).elim, hidle⟩
    push Not at hidle
    obtain ⟨i, f, hf, hpending⟩ := hidle
    have hnow : ∃ d, orderDeadline t = .ok d := by
      unfold orderDeadline
      rw [if_neg (by unfold ORDER_GAP_MS at *; omega)]
      exact ⟨_, rfl⟩
    have hpolls := orderPollLocked_polls t rx
    have hfewer := orderPollLocked_fewer hw hnow hf hpending (hdated i f hf)
    have hdated' := hdated.poll hw hnow hpolls
    rw [max_eq_right (Nat.le_add_right t ORDER_GAP_MS)] at hdated'
    obtain ⟨times, htimes, hdone⟩ := ih (hw.polls hnow hpolls).1 hdated' (by omega) (by
      rw [Nat.mul_add] at ht
      omega)
    refine ⟨t :: times, ?_, hdone⟩
    intro nowMs hmem
    rcases List.mem_cons.mp hmem with rfl | hmem
    · exact hnow
    · exact htimes nowMs hmem

/-! ## Runs -/

def lastMs : Nat := reliabilityNow (UInt64.ofNat U64_MAX)

theorem reliabilityNow_le (bootNs : UInt64) : reliabilityNow bootNs ≤ lastMs := by
  have hlt := bootNs.toNat_lt
  unfold lastMs reliabilityNow
  refine Nat.div_le_div_right ?_
  rw [show (UInt64.ofNat U64_MAX).toNat = U64_MAX from rfl, U64_MAX]
  omega

theorem Dated.admitted {rx rx' : RxState} (hdated : Dated rx t) (hw : Windowed rx)
    (hmark : m.origin.marker = h.orderingMarker.toNat) (hadmits : Admits h sessionEpoch m nowMs rx rx' r) :
    Dated rx' (max t (nowMs + ORDER_GAP_MS)) := by
  have hsame : Dated rx (max t (nowMs + ORDER_GAP_MS)) := fun i f hf => (hdated i f hf).trans (le_max_left _ _)
  apply hw.admits_rule hmark hadmits hsame
  intro rx₁ i created state res hflow hstate hset j f hf
  rw [hset] at hf
  rcases Table.set_eq_some.mp hf with ⟨-, rfl⟩ | ⟨-, hf⟩
  · rw [orderRxWrite_state]
    refine (orderAdmit_deadline hstate).trans (max_le_max_right _ ?_)
    rcases orderRxFlowLocked_cases hflow with ⟨rfl, g, hg, -⟩ | ⟨rfl, -, -⟩
    · rw [orderRxState, hg]
      exact hdated i g hg
    · exact Nat.zero_le _
  · exact hsame j f hf

namespace OrderedFlow

/-- The step leaves at most `32` markers drawn after the last one that the receiver has seen, and no message arrives
whose marker has come up again since. -/
def Keeps (fl : OrderedFlow) (s : FlowLink) : FlowLabel → Prop
  | .send _ => (fl.window s.rx).lag (fl.next s.tx) < ORDER_WINDOW
  | .arrive k _ _ => ∀ f ∈ s.sent[k]?, s.drawn + ORDER_WINDOW < f.position + ORDER_MODULUS
  | _ => True

instance (fl : OrderedFlow) (s : FlowLink) (a : FlowLabel) : Decidable (fl.Keeps s a) := by
  cases a <;> unfold Keeps <;> infer_instance

/-- The window of the receiver follows the markers drawn by the sender. -/
structure Follows (fl : OrderedFlow) (s : FlowLink) : Prop where
  windowed : Windowed s.rx
  unique : fl.Unique s.rx
  dated : Dated s.rx (lastMs + ORDER_GAP_MS)
  next : fl.next s.tx = orderAdvance 1 s.drawn
  sent : ∀ f ∈ s.sent, f.position < s.drawn ∧ f.marker = orderAdvance 1 f.position
  within : Within (fl.window s.rx) s.drawn

theorem follows_initial (fl : OrderedFlow) : fl.Follows {} where
  windowed := windowed_empty
  unique := fun _ _ _ _ hf _ _ _ => nomatch hf
  dated := fun _ _ hf => nomatch hf
  next := rfl
  sent := fun _ hf => (List.not_mem_nil hf).elim
  within := by
    have hnone : fl.window {} = orderReset := window_none fun _ _ hf => nomatch hf
    rw [hnone]
    exact within_orderReset

variable {fl : OrderedFlow} {s : FlowLink}

theorem Follows.receives (h : fl.Follows s) {rx : RxState} (hwindowed : Windowed rx) (hunique : fl.Unique rx)
    {bootNs : UInt64} (hdated : Dated rx (max (lastMs + ORDER_GAP_MS) (reliabilityNow bootNs + ORDER_GAP_MS)))
    (hwithin : Within (fl.window rx) s.drawn) : fl.Follows { s with rx := rx } where
  windowed := hwindowed
  unique := hunique
  dated := by
    rwa [max_eq_left (Nat.add_le_add_right (reliabilityNow_le bootNs) _)] at hdated
  next := h.next
  sent := h.sent
  within := hwithin

theorem flowStep_follows (h : fl.Follows s) {a : FlowLabel} (hkeeps : fl.Keeps s a) : fl.Follows (flowStep fl s a) := by
  cases a with
  | send queued =>
    unfold flowStep
    dsimp only
    split
    · exact h
    rename_i marker tx hdraw
    obtain ⟨hmarker, hnext⟩ := drawMarker_ok hdraw
    rw [Keeps, h.next] at hkeeps
    refine ⟨h.windowed, h.unique, h.dated, ?_, ?_, h.within.draw hkeeps⟩
    · rw [hnext, hmarker, h.next, ← orderAdvance_succ]
    have hold : ∀ f ∈ s.sent, f.position < s.drawn + 1 ∧ f.marker = orderAdvance 1 f.position :=
      fun f hf => ⟨Nat.lt_succ_of_lt (h.sent f hf).1, (h.sent f hf).2⟩
    intro f hf
    dsimp only at hf
    split_ifs at hf
    · rcases List.mem_append.mp hf with hf | hf
      · exact hold f hf
      · rw [List.mem_singleton.mp hf]
        exact ⟨Nat.lt_succ_self _, hmarker.trans h.next⟩
    · exact hold f hf
  | sendOther other =>
    unfold flowStep
    dsimp only
    split_ifs with hours
    · exact h
    · split
      · exact h
      · rename_i marker tx hdraw
        exact ⟨h.windowed, h.unique, h.dated, (next_other hours hdraw).trans h.next, h.sent, h.within⟩
  | arrive k m bootNs =>
    unfold flowStep
    dsimp only
    cases hk : s.sent[k]? with
    | none => exact h
    | some f =>
      obtain ⟨hposition, hmarker⟩ := h.sent f (List.mem_of_getElem? hk)
      have hwire : (fl.header f.marker).orderingMarker.toNat = f.marker := by
        have hle := (isMarker_advance isMarker_one f.position).2
        rw [← hmarker] at hle
        exact UInt32.toNat_ofNat_of_lt (Nat.lt_of_le_of_lt hle (by decide))
      have hadmits := orderAdmitLocked_admits s.rx (fl.header f.marker) fl.rxEpoch (fl.message f.marker m)
        (reliabilityNow bootNs)
      obtain ⟨hunique, hwindow⟩ := admit_window h.windowed hwire.symm h.unique hadmits
      refine h.receives (h.windowed.admits hwire.symm hadmits).1 hunique
        (h.dated.admitted h.windowed hwire.symm hadmits) ?_
      rcases hwindow with hsame | ⟨-, res, hadm⟩
      · rw [hsame]
        exact h.within
      · rw [hwire.trans hmarker] at hadm
        exact h.within.admitted hposition (hkeeps f hk) hadm
  | arriveOther header sessionEpoch m bootNs =>
    unfold flowStep
    dsimp only
    split_ifs with hours
    · exact h
    push Not at hours
    have hadmits := orderAdmitLocked_admits s.rx header sessionEpoch m (reliabilityNow bootNs)
    obtain ⟨hunique, hwindow⟩ := admit_window h.windowed hours.2 h.unique hadmits
    refine h.receives (h.windowed.admits hours.2 hadmits).1 hunique (h.dated.admitted h.windowed hours.2 hadmits) ?_
    rcases hwindow with hsame | ⟨htakes, -⟩
    · rw [hsame]
      exact h.within
    · exact absurd htakes hours.1
  | poll bootNs =>
    have hnow := orderDeadline_reliabilityNow bootNs
    have hpolls := orderPollLocked_polls (reliabilityNow bootNs) s.rx
    obtain ⟨hunique, hwindow⟩ := poll_window h.windowed hnow h.unique hpolls
    refine h.receives (h.windowed.polls hnow hpolls).1 hunique (h.dated.poll h.windowed hnow hpolls) ?_
    rcases hwindow with hsame | ⟨marker, count, hpoll⟩
    · rw [hsame]
      exact h.within
    · exact h.within.poll hpoll

theorem pollAll_within {rx : RxState} {times : List Nat} (hw : Windowed rx) (hunique : fl.Unique rx)
    (hwithin : Within (fl.window rx) drawn) (htimes : ∀ nowMs ∈ times, ∃ t, orderDeadline nowMs = .ok t) :
    Within (fl.window (pollAll rx times)) drawn := by
  induction times generalizing rx with
  | nil => exact hwithin
  | cons nowMs times ih =>
    have hnow := htimes nowMs List.mem_cons_self
    have hpolls := orderPollLocked_polls nowMs rx
    obtain ⟨hunique', hwindow⟩ := poll_window hw hnow hunique hpolls
    refine ih (hw.polls hnow hpolls).1 hunique' ?_ fun t ht => htimes t (List.mem_cons_of_mem _ ht)
    rcases hwindow with hsame | ⟨marker, count, hpoll⟩
    · rw [hsame]
      exact hwithin
    · exact hwithin.poll hpoll

/-- If the sender stays within reach of the window, the next message of the flow that arrives is released or held,
whatever was lost before. -/
theorem next_marker_admitted (fl : OrderedFlow) (as : List FlowLabel) (h : Along (flowStep fl) fl.Keeps {} as) :
    let s := run (flowStep fl) {} as
    (∃ times, (∀ nowMs ∈ times, ∃ t, orderDeadline nowMs = .ok t) ∧ (fl.window (pollAll s.rx times)).pending = 0) ∧
      ∀ times, (∀ nowMs ∈ times, ∃ t, orderDeadline nowMs = .ok t) → (fl.window (pollAll s.rx times)).pending = 0 →
        ∀ marker tx, fl.drawMarker s.tx = .ok (marker, tx) → ∀ bootNs,
          ∃ r, orderAdmit (fl.window (pollAll s.rx times)) marker (reliabilityNow bootNs) = .ok r := by
  intro s
  have hfollows : fl.Follows s :=
    run_induction (flowStep fl) fl.Follows (fun _ _ hkeeps hs => flowStep_follows hs hkeeps) (follows_initial fl) h
  constructor
  · have hcount : s.rx.orderMessages.sum (fun _ => 1) ≤ ORDER_BUFFER_LIMIT := by
      have := Table.length_free_add_sum s.rx.orderMessages
      omega
    obtain ⟨times, htimes, hidle⟩ :=
      exists_pollAll ORDER_BUFFER_LIMIT hfollows.windowed hfollows.dated hcount (by decide)
    refine ⟨times, htimes, ?_⟩
    unfold window
    cases hfind : (pollAll s.rx times).orderRx.find? fl.isRx with
    | none => rfl
    | some i =>
      obtain ⟨f, hf, -⟩ := Table.find?_some hfind
      rw [Option.bind_some, hf]
      exact hidle i f hf
  · intro times htimes hidle marker tx hdraw bootNs
    rw [(drawMarker_ok hdraw).1, hfollows.next]
    exact (pollAll_within hfollows.windowed hfollows.unique hfollows.within htimes).accepts hidle
      (orderDeadline_reliabilityNow bootNs)

end OrderedFlow

namespace Scenario

def ordered : OrderedFlow := ⟨there, here, 5, 6, 1, 1, 1, 1⟩

def orderedMessage : Complete := ⟨there, 5, 6, [1], link, ⟨1, 1, 9, 0, []⟩⟩

end Scenario

theorem next_marker_admitted_gap :
    let s := run (flowStep ordered) {} [.send true, .send true, .arrive 1 orderedMessage 0]
    ∃ times, (ordered.window (pollAll s.rx times)).pending = 0 ∧
      ∀ marker tx, ordered.drawMarker s.tx = .ok (marker, tx) →
        ∃ r, orderAdmit (ordered.window (pollAll s.rx times)) marker 0 = .ok r := by
  obtain ⟨⟨times, htimes, hidle⟩, hadmitted⟩ := OrderedFlow.next_marker_admitted ordered
    [.send true, .send true, .arrive 1 orderedMessage 0] (by decide +kernel)
  exact ⟨times, hidle, fun marker tx hdraw => hadmitted times htimes hidle marker tx hdraw 0⟩

/-- After 33 markers that never arrive no later message of the flow is accepted, however often the receiver polls. -/
theorem flow_wedged :
    let s := run (flowStep ordered) {} (List.replicate 33 (.send true))
    ∃ marker tx, ordered.drawMarker s.tx = .ok (marker, tx) ∧
      ∀ times now, orderAdmit (ordered.window (pollAll s.rx times)) marker now = .error .ERANGE := by
  have hsends : ∀ k s, (run (flowStep ordered) s (List.replicate k (.send true))).rx = s.rx := by
    intro k
    induction k with
    | zero => exact fun _ => rfl
    | succ k ih =>
      intro s
      refine (ih _).trans ?_
      unfold flowStep
      dsimp only
      split <;> rfl
  have hpolls : ∀ times, pollAll {} times = {} := by
    intro times
    induction times with
    | nil => rfl
    | cons nowMs times ih => exact ih
  have hdraw : ∃ tx, ordered.drawMarker
      (run (flowStep ordered) {} (List.replicate 33 (.send true))).tx = .ok (34, tx) := by
    have hmarker : (ordered.drawMarker
        (run (flowStep ordered) {} (List.replicate 33 (.send true))).tx).toOption.map Prod.fst = some 34 := by
      decide +kernel
    generalize ordered.drawMarker _ = r at hmarker
    cases r with
    | error e => exact nomatch hmarker
    | ok drawn =>
      refine ⟨drawn.2, ?_⟩
      rw [← show drawn.1 = 34 from Option.some.inj hmarker]
  obtain ⟨tx, htx⟩ := hdraw
  refine ⟨34, tx, htx, fun times now => ?_⟩
  rw [hsends, hpolls]
  rfl

end Melodi
