import Melodi.Lib.Run
import Melodi.Proto.Ordering
import Melodi.Proto.Replay

/-!
# The two windows against their histories

A window keeps the last few numbers in a mask. Here the calls made so far are kept in full, and the windows are
compared with the sets they stand for.
-/

namespace Melodi
open Lib
variable {f offset count marker : Nat} {w : OrderState}

/-! ## The replay window -/

structure ReplayRun where
  window : ReplayWindow := replayReset
  marked : List Nat := []

def replayCall (s : ReplayRun) (counter : Nat) : ReplayRun :=
  match replayMark s.window counter with
  | .ok window => ⟨window, counter :: s.marked⟩
  | .error _ => s

def ReplayRun.highest (s : ReplayRun) : Nat := s.marked.foldr max 0

structure ReplayRun.Faithful (s : ReplayRun) : Prop where
  represents : Represents s.window { c | c ∈ s.marked }
  highest : s.window.highest = s.highest
  once : s.marked.Nodup

theorem replayRun_faithful_initial : ({} : ReplayRun).Faithful where
  represents := by simpa using represents_reset
  highest := rfl
  once := .nil

theorem replayCall_faithful {s : ReplayRun} (h : s.Faithful) (counter : Nat) : (replayCall s counter).Faithful := by
  unfold replayCall
  cases hm : replayMark s.window counter with
  | error e => exact h
  | ok w =>
    have hspec := replayMark_spec h.represents hm
    have hfresh := (replaySeen_eq_false_iff h.represents counter).mp ((replayMark_isOk_iff _ _).mp ⟨w, hm⟩)
    refine ⟨?_, ?_, List.nodup_cons.mpr ⟨fun hmem => ?_, h.once⟩⟩
    · have hset : { c | c ∈ counter :: s.marked } = insert counter { c | c ∈ s.marked } := by
        ext c
        simp
      rw [hset]
      exact hspec
    · rw [replayMark_highest hm, h.highest, Nat.max_comm]
      rfl
    · -- a counter that was marked is at most the highest, and then freshness says it was not
      rcases hfresh.2 with hlt | ⟨-, hnot⟩
      · exact absurd (h.represents.le_highest counter hmem) (Nat.not_le_of_lt hlt)
      · exact hnot hmem

/-- **The replay window refines the set of all counters marked**: after any calls, a mark succeeds exactly for a
counter that is new to the set and not too old, `melodi_replay_seen` says so beforehand, a mark that fails changes
nothing, and no counter was accepted twice. -/
theorem replay_refines (calls : List Nat) (counter : Nat) :
    ((∃ window, replayMark (run replayCall {} calls).window counter = .ok window) ↔
        counter ≠ 0 ∧ ((run replayCall {} calls).highest < counter ∨
          (run replayCall {} calls).highest - counter < 64 ∧ counter ∉ (run replayCall {} calls).marked)) ∧
      (replaySeen (run replayCall {} calls).window counter = false ↔
        ∃ window, replayMark (run replayCall {} calls).window counter = .ok window) ∧
      ((∃ window, replayMark (run replayCall {} calls).window counter = .ok window) ∨
        replayCall (run replayCall {} calls) counter = run replayCall {} calls) ∧
      (run replayCall {} calls).marked.Nodup := by
  have h : (run replayCall {} calls).Faithful := run_invariant replayCall ReplayRun.Faithful
    (fun _ c hs => replayCall_faithful hs c) replayRun_faithful_initial calls
  generalize run replayCall {} calls = s at h ⊢
  have hok := replayMark_isOk_iff s.window counter
  refine ⟨?_, hok.symm, ?_, h.once⟩
  · rw [hok, replaySeen_eq_false_iff h.represents, Accepts, h.highest]
    rfl
  · unfold replayCall
    cases hm : replayMark s.window counter with
    | error e => exact .inr rfl
    | ok w => exact .inl ⟨w, rfl⟩

/-! ## The ordering window -/

inductive OrderCall where
  | offer (marker : UInt32) (nowMs : UInt64)
  | poll (nowMs : UInt64)
  deriving DecidableEq, Repr

def OrderCall.nowMs : OrderCall → Nat
  | .offer _ nowMs | .poll nowMs => nowMs.toNat

/-- An ordering window with its history: the position of the marker it expects, and the positions it reported as held
and as released, the latest first. -/
structure OrderRun where
  window : OrderState := orderReset
  position : Nat := 0
  held : List Nat := []
  released : List Nat := []
  deriving DecidableEq, Repr

def OrderRun.result (s : OrderRun) : OrderCall → Except Errno OrderResult
  | .offer marker nowMs => (orderAdmit s.window marker.toNat nowMs.toNat).map Prod.fst
  | .poll nowMs => (orderPoll s.window nowMs.toNat).2

def OrderRun.after (s : OrderRun) : OrderCall → OrderState
  | .offer marker nowMs =>
    match orderAdmit s.window marker.toNat nowMs.toNat with
    | .ok (_, window) => window
    | .error _ => s.window
  | .poll nowMs => (orderPoll s.window nowMs.toNat).1

/-- The position of a marker, seen forwards from the marker expected: one that lies behind is almost a cycle away. -/
def OrderRun.place (s : OrderRun) (marker : Nat) : Nat :=
  s.position + ((orderDistance s.window.expected marker).toOption.getD 0)

def orderCall (s : OrderRun) (call : OrderCall) : OrderRun :=
  let s' := { s with window := s.after call }
  match s.result call, call with
  | .ok .held, .offer marker _ => { s' with held := s.place marker.toNat :: s.held }
  | .ok (.released marker count), _ =>
    { s' with position := s.place marker + count, released := (List.range' (s.place marker) count).reverse ++
      s.released }
  | _, _ => s'

def OrderRun.Waits (s : OrderRun) (p : Nat) : Prop :=
  s.position < p ∧ s.window.pending.getLsbD (p - s.position - 1) = true

/-- What a call does: what it admits is released from the position expected on, a poll goes on at most a window ahead
of it; what is released was held and not released before, and a poll skips only what was neither. -/
structure Orders (s : OrderRun) (call : OrderCall) (s' : OrderRun) : Prop where
  expected : s'.window.expected = orderAdvance 1 s'.position
  range : ∀ marker count, s.result call = .ok (.released marker count) →
    s.position ≤ s.place marker ∧ s.place marker ≤ s.position + ORDER_WINDOW ∧
      (∀ admitted nowMs, call = .offer admitted nowMs → s.place marker = s.position) ∧
      marker = orderAdvance 1 (s.place marker) ∧ 0 < count ∧ s'.position = s.place marker + count
  earlier : ∀ marker count, s.result call = .ok (.released marker count) →
    ∀ p, s.place marker ≤ p → p < s.place marker + count →
      (p = s.place marker ∧ ∃ admitted nowMs, call = .offer admitted nowMs ∧ admitted.toNat = marker) ∨
        p ∈ s.held ∧ p ∉ s.released
  skipped : ∀ marker count, s.result call = .ok (.released marker count) →
    ∀ p, s.position ≤ p → p < s.place marker → p ∉ s.held ∧ p ∉ s.released
  held : ∀ p ∈ s'.held, (s'.Waits p ∧ p ∉ s'.released) ∨ (¬ s'.Waits p ∧ s'.released.count p = 1)

structure OrderRun.Faithful (s : OrderRun) : Prop where
  expected : s.window.expected = orderAdvance 1 s.position
  pending : ∀ k, s.window.pending.getLsbD k = true → s.position + 1 + k ∈ s.held
  held : ∀ p ∈ s.held, s.Waits p ∨ p ∈ s.released
  past : ∀ p ∈ s.released, p < s.position
  once : s.released.Nodup

theorem orderRun_faithful_initial : ({} : OrderRun).Faithful where
  expected := rfl
  pending := fun k h => by simp [orderReset] at h
  held := fun _ h => nomatch h
  past := fun _ h => nomatch h
  once := .nil

namespace OrderRun.Faithful
variable {s s' : OrderRun} {call : OrderCall}

theorem isMarker (h : s.Faithful) : IsMarker s.window.expected := by
  rw [h.expected]
  exact isMarker_advance isMarker_one _

theorem place_advance (h : s.Faithful) (hf : f < ORDER_MODULUS) :
    s.place (orderAdvance s.window.expected f) = s.position + f := by
  rw [OrderRun.place, orderDistance_advance h.isMarker hf]
  rfl

theorem held_once (h : s.Faithful) :
    ∀ p ∈ s.held, (s.Waits p ∧ p ∉ s.released) ∨ (¬ s.Waits p ∧ s.released.count p = 1) := by
  intro p hp
  rcases h.held p hp with hwaits | hreleased
  · exact .inl ⟨hwaits, fun hmem => Nat.lt_asymm hwaits.1 (h.past p hmem)⟩
  · exact .inr ⟨fun hwaits => Nat.lt_asymm hwaits.1 (h.past p hreleased),
      List.count_eq_one_of_mem h.once hreleased⟩

theorem quiet (hnone : ∀ marker count, s.result call ≠ .ok (.released marker count))
    (hs' : s'.Faithful) : Orders s call s' where
  expected := hs'.expected
  range := fun marker count hr => absurd hr (hnone marker count)
  earlier := fun marker count hr => absurd hr (hnone marker count)
  skipped := fun marker count hr => absurd hr (hnone marker count)
  held := hs'.held_once

theorem holds (h : s.Faithful) (hpos : 0 < f) (hwin : f ≤ ORDER_WINDOW) (hexpected : w.expected = s.window.expected)
    (hpending : w.pending = s.window.pending ||| (1#32 <<< (f - 1))) :
    { s with window := w, held := (s.position + f) :: s.held }.Faithful := by
  have hbit : ∀ k, w.pending.getLsbD k = true ↔ s.window.pending.getLsbD k = true ∨ k = f - 1 := by
    intro k
    unfold ORDER_WINDOW at hwin
    rw [hpending, BitVec.getLsbD_or, Bool.or_eq_true, BitVec.getLsbD_shiftLeft, BitVec.getLsbD_one]
    refine or_congr_right ?_
    simp
    omega
  refine ⟨hexpected.trans h.expected, fun k hk => ?_, fun p hp => ?_, h.past, h.once⟩
  · rcases (hbit k).mp hk with hold | rfl
    · exact List.mem_cons_of_mem _ (h.pending k hold)
    · have hplace : s.position + 1 + (f - 1) = s.position + f := by omega
      rw [hplace]
      exact List.mem_cons_self
  · rcases List.mem_cons.mp hp with rfl | hp
    · refine .inl ⟨by dsimp only; omega, (hbit _).mpr (.inr ?_)⟩
      dsimp only
      omega
    · rcases h.held p hp with hwaits | hreleased
      · exact .inl ⟨hwaits.1, (hbit _).mpr (.inl hwaits.2)⟩
      · exact .inr hreleased

theorem releases (h : s.Faithful) (hrel : Releases s.window w offset count marker)
    (hskip : ∀ j, j + 1 < offset → s.window.pending.getLsbD j = false) :
    { s with
      window := w, position := s.position + offset + count
      released := (List.range' (s.position + offset) count).reverse ++ s.released }.Faithful := by
  refine ⟨?_, fun k hk => ?_, fun p hp => ?_, fun p hp => ?_, ?_⟩
  · rw [hrel.expected_eq, h.expected, ← orderAdvance_add, Nat.add_assoc]
  · rw [hrel.pending_eq k] at hk
    have hmem := h.pending _ hk
    have hplace : s.position + 1 + (offset + count + k) = s.position + offset + count + 1 + k := by omega
    rwa [hplace] at hmem
  · dsimp only at hp ⊢
    rcases h.held p hp with ⟨hlt, hbit⟩ | hreleased
    · -- a position that waited lies in the range, or behind the first one that does not wait
      by_cases hrange : p < s.position + offset + count
      · refine .inr (List.mem_append_left _ (List.mem_reverse.mpr (List.mem_range'_1.mpr ⟨?_, hrange⟩)))
        by_contra hbefore
        rw [hskip _ (by omega)] at hbit
        cases hbit
      · refine .inl ⟨?_, ?_⟩
        · by_contra hstop
          have hlast : p - s.position - 1 = offset + count - 1 := by dsimp only at hstop; omega
          rw [hlast, hrel.pending_stop] at hbit
          cases hbit
        · have hshift : offset + count + (p - (s.position + offset + count) - 1) = p - s.position - 1 ∨
              p = s.position + offset + count := by omega
          rcases hshift with hshift | rfl
          · rw [hrel.pending_eq, hshift]
            exact hbit
          · have hlast : s.position + offset + count - s.position - 1 = offset + count - 1 := by omega
            rw [hlast, hrel.pending_stop] at hbit
            cases hbit
    · exact .inr (List.mem_append_right _ hreleased)
  · rcases List.mem_append.mp hp with hnew | hold
    · exact (List.mem_range'_1.mp (List.mem_reverse.mp hnew)).2
    · have hlt := h.past p hold
      dsimp only
      omega
  · refine List.Nodup.append (List.nodup_reverse.mpr List.nodup_range') h.once fun p hnew hold => ?_
    have hle := (List.mem_range'_1.mp (List.mem_reverse.mp hnew)).1
    have hlt := h.past p hold
    omega

theorem ordered (h : s.Faithful) (hrel : Releases s.window w offset count marker)
    (hskip : ∀ j, j + 1 < offset → s.window.pending.getLsbD j = false) (hnear : offset ≤ ORDER_WINDOW)
    (hresult : s.result call = .ok (.released marker count))
    (hstart : (∃ nowMs, call = .poll nowMs) ∧ s.position + offset ∈ s.held ∨
      offset = 0 ∧ ∃ admitted nowMs, call = .offer admitted nowMs ∧ admitted.toNat = marker) :
    Orders s call { s with
      window := w, position := s.place marker + count
      released := (List.range' (s.place marker) count).reverse ++ s.released } := by
  have hplace : s.place marker = s.position + offset := by
    rw [hrel.marker_eq, h.place_advance (Nat.lt_of_le_of_lt hnear (by decide))]
  have hsame : ∀ marker' count', s.result call = .ok (.released marker' count') → marker' = marker ∧
    count' = count := by
    intro marker' count' hr
    rw [hresult] at hr
    cases hr
    exact ⟨rfl, rfl⟩
  have hfree : ∀ p, s.position ≤ p → p ∉ s.released := fun p hle hmem => Nat.not_lt_of_le hle (h.past p hmem)
  have hfaithful := h.releases hrel hskip
  rw [hplace]
  refine ⟨hfaithful.expected, ?_, ?_, ?_, hfaithful.held_once⟩
  · intro marker' count' hr
    obtain ⟨rfl, rfl⟩ := hsame marker' count' hr
    refine ⟨by omega, by omega, fun admitted nowMs hcall => ?_, ?_, hrel.count_pos, by rw [hplace]⟩
    · rcases hstart with ⟨⟨t, hpoll⟩, -⟩ | ⟨hzero, -⟩
      · cases hcall.symm.trans hpoll
      · rw [hplace, hzero, Nat.add_zero]
    · rw [hplace, orderAdvance_add, ← h.expected]
      exact hrel.marker_eq
  · intro marker' count' hr p hle hlt
    obtain ⟨rfl, rfl⟩ := hsame marker' count' hr
    rw [hplace] at hle hlt ⊢
    by_cases hp : p = s.position + offset
    · subst hp
      rcases hstart with ⟨-, hheld⟩ | ⟨-, hadm⟩
      · exact .inr ⟨hheld, hfree _ (Nat.le_add_right _ _)⟩
      · exact .inl ⟨rfl, hadm⟩
    · have hbit := hrel.pending_of_lt (p - s.position) (by omega) (by omega)
      have hmem := h.pending _ hbit
      have heq : s.position + 1 + (p - s.position - 1) = p := by omega
      rw [heq] at hmem
      exact .inr ⟨hmem, hfree _ (by omega)⟩
  · intro marker' count' hr p hle hlt
    obtain ⟨rfl, rfl⟩ := hsame marker' count' hr
    rw [hplace] at hlt
    refine ⟨fun hmem => ?_, hfree _ hle⟩
    rcases h.held p hmem with ⟨hbehind, hbit⟩ | hreleased
    · rw [hskip _ (by omega)] at hbit
      cases hbit
    · exact hfree _ hle hreleased

end OrderRun.Faithful

def OrderCall.Timely (call : OrderCall) : Prop := call.nowMs + ORDER_GAP_MS < 2 ^ 64

theorem OrderCall.Timely.deadline {call : OrderCall} (h : call.Timely) :
    orderDeadline call.nowMs = .ok (call.nowMs + ORDER_GAP_MS) := by
  unfold OrderCall.Timely at h
  rw [orderDeadline, if_neg (by unfold U64_MAX; omega)]

theorem orderCall_orders {s : OrderRun} (h : s.Faithful) {call : OrderCall} (htimely : call.Timely) :
    (orderCall s call).Faithful ∧ Orders s call (orderCall s call) := by
  -- a call that notes nothing leaves the window as it was
  have hsame : (∀ marker count, s.result call ≠ .ok (.released marker count)) → orderCall s call = s →
      (orderCall s call).Faithful ∧ Orders s call (orderCall s call) := by
    intro hnone heq
    rw [heq]
    exact ⟨h, h.quiet hnone⟩
  cases call with
  | offer marker nowMs =>
    cases hadm : orderAdmit s.window marker.toNat nowMs.toNat with
    | error e =>
      have hresult : s.result (.offer marker nowMs) = .error e := by rw [OrderRun.result, hadm]; rfl
      refine hsame (by rw [hresult]; nofun) ?_
      simp only [orderCall, hresult, OrderRun.after, hadm]
    | ok r =>
      obtain ⟨res, w⟩ := r
      have hresult : s.result (.offer marker nowMs) = .ok res := by rw [OrderRun.result, hadm]; rfl
      have hafter : s.after (.offer marker nowMs) = w := by rw [OrderRun.after, hadm]
      have hmarker : marker.toNat ≤ U32_MAX := Nat.le_of_lt_succ marker.toNat_lt
      obtain ⟨f, hf, hadvance, hcases⟩ := orderAdmit_cases h.isMarker hmarker hadm
      have hplace : s.place marker.toNat = s.position + f := by rw [← hadvance, h.place_advance hf]
      rcases hcases with ⟨rfl, n, rfl, hrel⟩ | ⟨-, -, -, rfl, rfl⟩ | ⟨hpos, hwin, -, rfl, hexp, hpend⟩ |
        ⟨-, -, rfl, rfl⟩
      · have hcall : orderCall s (.offer marker nowMs) = { s with
            window := w, position := s.place marker.toNat + n
            released := (List.range' (s.place marker.toNat) n).reverse ++ s.released } := by
          simp only [orderCall, hresult, hafter]
        have hfaithful := h.releases hrel (fun j hj => absurd hj (Nat.not_lt_zero _))
        rw [hcall]
        refine ⟨by rw [hplace]; exact hfaithful, ?_⟩
        exact h.ordered hrel (fun j hj => absurd hj (Nat.not_lt_zero _)) (Nat.zero_le _) hresult
          (.inr ⟨rfl, marker, nowMs, rfl, rfl⟩)
      · exact hsame (by rw [hresult]; nofun) (by simp only [orderCall, hresult, hafter])
      · have hcall : orderCall s (.offer marker nowMs) =
            { s with window := w, held := (s.position + f) :: s.held } := by
          simp only [orderCall, hresult, hafter, hplace]
        have hfaithful := h.holds hpos hwin hexp hpend
        rw [hcall]
        exact ⟨hfaithful, hfaithful.quiet (by rw [hresult]; nofun)⟩
      · exact hsame (by rw [hresult]; nofun) (by simp only [orderCall, hresult, hafter])
  | poll nowMs =>
    cases hpoll : orderPoll s.window nowMs.toNat with
    | mk w r =>
      have hresult : s.result (.poll nowMs) = r := by rw [OrderRun.result, hpoll]
      have hafter : s.after (.poll nowMs) = w := by rw [OrderRun.after, hpoll]
      rcases orderPoll_cases h.isMarker hpoll with
        ⟨rfl, rfl⟩ | ⟨-, j, marker, n, hzero, hone, hrel, rfl | ⟨-, hoverflow⟩⟩
      · exact hsame (by rw [hresult]; nofun) (by simp only [orderCall, hresult, hafter])
      · have hcall : orderCall s (.poll nowMs) = { s with
            window := w, position := s.place marker + n
            released := (List.range' (s.place marker) n).reverse ++ s.released } := by
          simp only [orderCall, hresult, hafter]
        have hwindow : j < 32 := by
          by_contra hge
          rw [BitVec.getLsbD_of_ge _ _ (by omega)] at hone
          cases hone
        have hnear : j + 1 ≤ ORDER_WINDOW := hwindow
        have hplace : s.place marker = s.position + (j + 1) := by
          rw [hrel.marker_eq, h.place_advance (Nat.lt_of_le_of_lt hnear (by decide))]
        have hskip : ∀ k, k + 1 < j + 1 → s.window.pending.getLsbD k = false := fun k hk => hzero k (by omega)
        have hfaithful := h.releases hrel hskip
        have hmem := h.pending j hone
        rw [hcall]
        refine ⟨by rw [hplace]; exact hfaithful, h.ordered hrel hskip hnear hresult (.inl ⟨⟨nowMs, rfl⟩, ?_⟩)⟩
        have heq : s.position + 1 + j = s.position + (j + 1) := by omega
        rwa [heq] at hmem
      · rw [show nowMs.toNat = (OrderCall.poll nowMs).nowMs from rfl, htimely.deadline] at hoverflow
        cases hoverflow

/-- **The ordering window refines the sets of positions held and released**: in every run from a reset whose calls come
more than five seconds before the end of time, every call releases, keeps and skips what it should. -/
theorem ordering_refines (calls : List OrderCall) (htimely : ∀ call ∈ calls, call.Timely) :
    Along orderCall (fun s call => Orders s call (orderCall s call)) {} calls := by
  refine along_of_invariant orderCall (P := fun _ call => call.Timely) OrderRun.Faithful
    (fun s call ht hs => (orderCall_orders hs ht).1) (fun s call ht hs => (orderCall_orders hs ht).2)
    orderRun_faithful_initial ?_
  generalize ({} : OrderRun) = s
  induction calls generalizing s with
  | nil => trivial
  | cons call calls ih =>
    exact ⟨htimely call List.mem_cons_self, ih (fun c hc => htimely c (List.mem_cons_of_mem _ hc)) _⟩

theorem ordering_refines_gap :
    Along orderCall (fun s call => Orders s call (orderCall s call)) {}
      [.offer 3 0, .offer 2 1, .offer 1 2, .offer 6 3, .poll 5003] :=
  ordering_refines _ (by unfold OrderCall.Timely OrderCall.nowMs ORDER_GAP_MS; decide)

/-- Five seconds before the end of time a poll moves on and reports no range, so that what it released is lost. -/
theorem ordering_overflow :
    ¬ Along orderCall (fun s call => Orders s call (orderCall s call)) {}
      [.offer 2 0, .offer 4 1, .poll (UInt64.ofNat (2 ^ 64 - 5000))] := by
  intro halong
  have hsplit : Along orderCall (fun s call => Orders s call (orderCall s call)) {}
      ([.offer 2 0, .offer 4 1] ++ .poll (UInt64.ofNat (2 ^ 64 - 5000)) :: []) := halong
  have hstep := along_split _ hsplit
  have hexpected := hstep.expected
  revert hexpected
  decide +kernel

end Melodi
