import Melodi.Lib.Run
import Melodi.Proto.Reliability

/-!
# The life of a reliable message

The calls made on the record of one message, from `melodi_reliability_start` on.
-/

namespace Melodi
open Lib
variable {mask : BitVec 64} {nowMs fragmentCount paceMs ttlMs : Nat} {queued : Bool} {messageId : UInt64}
  {generation : UInt32}

/-! ## What the calls can do -/

inductive Acks (s : ReliabilityState) (bitmap : BitVec 64) : ReliabilityState → Except Errno Bool → Prop where
  | unknown : Acks s bitmap s (.error .ENOENT)
  | malformed (hactive : s.active = true) : Acks s bitmap s (.error .EPROTO)
  | rejected (hactive : s.active = true) :
      Acks s bitmap { s with acknowledged := s.acknowledged ||| bitmap, active := false } (.error .ECONNREFUSED)
  | completed (hactive : s.active = true) (hvalid : bitmap &&& ~~~fragmentMask s.fragmentCount = 0)
      (hall : s.acknowledged ||| bitmap = fragmentMask s.fragmentCount) :
      Acks s bitmap { s with acknowledged := s.acknowledged ||| bitmap, active := false } (.ok true)
  | counted (hactive : s.active = true) (hvalid : bitmap &&& ~~~fragmentMask s.fragmentCount = 0)
      (hmore : s.acknowledged ||| bitmap ≠ fragmentMask s.fragmentCount) :
      Acks s bitmap { s with acknowledged := s.acknowledged ||| bitmap } (.ok false)

theorem reliabilityAck_acks (s : ReliabilityState) (messageId : UInt64) (generation : UInt32) (fragmentCount : Nat)
    (bitmap : BitVec 64) (rejected : Bool) :
    Acks s bitmap (reliabilityAck s messageId generation fragmentCount bitmap rejected).1
      (reliabilityAck s messageId generation fragmentCount bitmap rejected).2 := by
  unfold reliabilityAck
  split_ifs with hother hbad hreject
  · exact .unknown
  · push Not at hother
    exact .malformed (Bool.eq_true_of_not_eq_false hother.1)
  · push Not at hother
    exact .rejected (Bool.eq_true_of_not_eq_false hother.1)
  push Not at hother hbad
  obtain ⟨hactive, -, -, rfl⟩ := hother
  dsimp only
  split_ifs with hall
  · exact .completed (Bool.eq_true_of_not_eq_false hactive) hbad.2 hall
  · exact .counted (Bool.eq_true_of_not_eq_false hactive) hbad.2 hall

inductive Retries (s : ReliabilityState) (nowMs : Nat) :
    Bool → ReliabilityState → Except Errno (Option (BitVec 64)) → Prop where
  | closed {queued : Bool} (hclosed : s.active = false) : Retries s nowMs queued s (.error .ENOENT)
  | expired {queued : Bool} (hactive : s.active = true) (hlate : s.deadlineMs ≤ nowMs) :
      Retries s nowMs queued { s with active := false } (.error .ETIMEDOUT)
  | deferred (hactive : s.active = true) (hearly : nowMs < s.deadlineMs) :
      Retries s nowMs true { s with nextRetryMs := nowMs + reliabilityDelay s } (.ok none)
  | stuck (hactive : s.active = true) (hearly : nowMs < s.deadlineMs) : Retries s nowMs true s (.error .EOVERFLOW)
  | early (hactive : s.active = true) (hearly : nowMs < s.deadlineMs) : Retries s nowMs false s (.ok none)
  | exhausted (hactive : s.active = true) (hearly : nowMs < s.deadlineMs) (hdue : s.nextRetryMs ≤ nowMs)
      (hlimit : RELIABLE_RETRY_LIMIT ≤ s.retries) :
      Retries s nowMs false { s with active := false } (.error .ETIMEDOUT)
  | last (hactive : s.active = true) (hearly : nowMs < s.deadlineMs) (hdue : s.nextRetryMs ≤ nowMs)
      (hlimit : s.retries + 1 = RELIABLE_RETRY_LIMIT) :
      Retries s nowMs false { s with retries := s.retries + 1, nextRetryMs := s.deadlineMs }
        (.ok (some (fragmentMask s.fragmentCount &&& ~~~s.acknowledged)))
  | overflowed (hactive : s.active = true) :
      Retries s nowMs false { s with retries := s.retries + 1, active := false } (.error .EOVERFLOW)
  | again (hactive : s.active = true) (hearly : nowMs < s.deadlineMs) (hdue : s.nextRetryMs ≤ nowMs)
      (hlimit : s.retries + 1 < RELIABLE_RETRY_LIMIT) :
      Retries s nowMs false
        { s with
          retries := s.retries + 1
          nextRetryMs := nowMs + reliabilityDelay { s with retries := s.retries + 1 } }
        (.ok (some (fragmentMask s.fragmentCount &&& ~~~s.acknowledged)))

theorem reliabilityAdd_cases (value amount : Nat) :
    reliabilityAdd value amount = .error .EOVERFLOW ∨ reliabilityAdd value amount = .ok (value + amount) := by
  unfold reliabilityAdd
  split_ifs
  · exact .inl rfl
  · exact .inr rfl

theorem reliabilityPoll_polls (s : ReliabilityState) (nowMs : Nat) (queued : Bool) :
    Retries s nowMs queued (reliabilityPoll s nowMs queued).1 (reliabilityPoll s nowMs queued).2 := by
  unfold reliabilityPoll
  split_ifs with hclosed hlate hqueued hdue hlimit
  · exact .closed hclosed
  · exact .expired (Bool.eq_true_of_not_eq_false hclosed) hlate
  · subst hqueued
    have hactive : s.active = true := Bool.eq_true_of_not_eq_false hclosed
    rcases reliabilityAdd_cases nowMs (reliabilityDelay s) with herr | hok
    · rw [herr]
      exact .stuck hactive (by omega)
    · rw [hok]
      exact .deferred hactive (by omega)
  · rw [Bool.eq_false_of_not_eq_true hqueued]
    exact .early (Bool.eq_true_of_not_eq_false hclosed) (by omega)
  · rw [Bool.eq_false_of_not_eq_true hqueued]
    exact .exhausted (Bool.eq_true_of_not_eq_false hclosed) (by omega) (by omega) hlimit
  · rw [Bool.eq_false_of_not_eq_true hqueued]
    have hactive : s.active = true := Bool.eq_true_of_not_eq_false hclosed
    dsimp only
    split_ifs with hlast
    · exact .last hactive (by omega) (by omega) hlast
    rcases reliabilityAdd_cases nowMs (reliabilityDelay { s with retries := s.retries + 1 }) with herr | hok
    · rw [herr]
      exact .overflowed hactive
    · rw [hok]
      exact .again hactive (by omega) (by omega) (by omega)

/-! ## Runs -/

inductive ReliabilityCall where
  | ack (messageId : UInt64) (generation : UInt32) (fragmentCount : Nat) (bitmap : BitVec 64) (rejected : Bool)
  | poll (nowMs : Nat) (queued : Bool)

inductive ReliabilityAnswer where
  | ack (result : Except Errno Bool)
  | poll (result : Except Errno (Option (BitVec 64)))

def ReliabilityAnswer.ends : ReliabilityAnswer → Bool
  | .ack (.ok true) | .ack (.error .ECONNREFUSED) | .poll (.error .ETIMEDOUT) => true
  | _ => false

def ReliabilityAnswer.accepts : ReliabilityAnswer → Bool
  | .ack (.ok _) => true
  | _ => false

def ReliabilityAnswer.resends : ReliabilityAnswer → Bool
  | .poll (.ok (some _)) => true
  | _ => false

def ReliabilityAnswer.absent : ReliabilityAnswer → Prop
  | .ack result => result = .error .ENOENT
  | .poll result => result = .error .ENOENT

/-- A record with its history: the union of the bitmaps accepted, the times of the retransmissions, the latest first,
whether a call said that the message is over, and the time of the last call. -/
structure ReliabilityRun where
  state : ReliabilityState
  accepted : BitVec 64 := 0
  resent : List Nat := []
  ended : Bool := false
  nowMs : Nat

def ReliabilityRun.apply (s : ReliabilityRun) : ReliabilityCall → ReliabilityState × ReliabilityAnswer
  | .ack messageId generation fragmentCount bitmap rejected =>
    let r := reliabilityAck s.state messageId generation fragmentCount bitmap rejected
    (r.1, .ack r.2)
  | .poll nowMs queued =>
    let r := reliabilityPoll s.state nowMs queued
    (r.1, .poll r.2)

def ReliabilityRun.answer (s : ReliabilityRun) (call : ReliabilityCall) : ReliabilityAnswer := (s.apply call).2

def ReliabilityCall.bitmap : ReliabilityCall → BitVec 64
  | .ack _ _ _ bitmap _ => bitmap
  | .poll _ _ => 0

def ReliabilityCall.timeAfter (beforeMs : Nat) : ReliabilityCall → Nat
  | .ack .. => beforeMs
  | .poll nowMs _ => nowMs

def reliabilityCall (s : ReliabilityRun) (call : ReliabilityCall) : ReliabilityRun where
  state := (s.apply call).1
  accepted := if (s.answer call).accepts then s.accepted ||| call.bitmap else s.accepted
  resent := if (s.answer call).resends then call.timeAfter s.nowMs :: s.resent else s.resent
  ended := s.ended || (s.answer call).ends
  nowMs := call.timeAfter s.nowMs

def Forward (s : ReliabilityRun) : ReliabilityCall → Prop
  | .poll nowMs _ => s.nowMs ≤ nowMs
  | .ack .. => True

instance (s : ReliabilityRun) : ∀ call, Decidable (Forward s call)
  | .poll nowMs _ => inferInstanceAs (Decidable (s.nowMs ≤ nowMs))
  | .ack .. => inferInstanceAs (Decidable True)

def ReliabilityRun.of (state : ReliabilityState) (nowMs : Nat) : ReliabilityRun := { state := state, nowMs := nowMs }

/-- What a call may return: completion, a retransmission, and, once the message is over, that there is none. -/
structure Serves (start : ReliabilityState) (s : ReliabilityRun) (call : ReliabilityCall) (s' : ReliabilityRun) :
    Prop where
  complete : s.answer call = .ack (.ok true) ↔
    s'.accepted = fragmentMask start.fragmentCount ∧ s.accepted ≠ fragmentMask start.fragmentCount
  limit : s'.resent.length ≤ RELIABLE_RETRY_LIMIT
  resend : ∀ nowMs queued missing, call = .poll nowMs queued → s.answer call = .poll (.ok (some missing)) →
    nowMs < start.deadlineMs ∧ missing = fragmentMask start.fragmentCount &&& ~~~s.accepted ∧ missing ≠ 0 ∧
      ∀ beforeMs ∈ s.resent.head?,
        beforeMs + reliabilityScale start.paceMs (retryDelays.getD s.resent.length 0) ≤ nowMs
  ended : s.ended = true → (s.answer call).absent ∧ s'.state = s.state

structure ReliabilityRun.Faithful (start : ReliabilityState) (s : ReliabilityRun) : Prop where
  deadline : s.state.deadlineMs = start.deadlineMs
  pace : s.state.paceMs = start.paceMs
  count : s.state.fragmentCount = start.fragmentCount
  retries : s.state.active = true → s.state.retries = s.resent.length
  limit : s.resent.length ≤ RELIABLE_RETRY_LIMIT
  acknowledged : s.state.active = true → s.state.acknowledged = s.accepted
  within : s.accepted &&& ~~~fragmentMask start.fragmentCount = 0
  missing : s.state.active = true → s.accepted ≠ fragmentMask start.fragmentCount
  ended : s.ended = true → s.state.active = false
  gap : s.state.active = true → s.resent.length < RELIABLE_RETRY_LIMIT → ∀ beforeMs ∈ s.resent.head?,
    beforeMs + reliabilityScale start.paceMs (retryDelays.getD s.resent.length 0) ≤ s.state.nextRetryMs
  past : ∀ beforeMs ∈ s.resent.head?, beforeMs ≤ s.nowMs

theorem missing_ne_zero {acknowledged : BitVec 64} (hwithin : acknowledged &&& ~~~mask = 0)
    (hne : acknowledged ≠ mask) : mask &&& ~~~acknowledged ≠ 0 := by
  intro hzero
  apply hne
  apply BitVec.eq_of_getLsbD_eq
  intro i hi
  have hin := congrArg (fun b => b.getLsbD i) hwithin
  have hmiss := congrArg (fun b => b.getLsbD i) hzero
  simp only [BitVec.getLsbD_and, BitVec.getLsbD_not, hi, decide_true, Bool.true_and] at hin hmiss
  revert hin hmiss
  cases acknowledged.getLsbD i <;> cases mask.getLsbD i <;> simp

theorem within_or {a b : BitVec 64} (ha : a &&& ~~~mask = 0) (hb : b &&& ~~~mask = 0) : (a ||| b) &&& ~~~mask = 0 := by
  apply BitVec.eq_of_getLsbD_eq
  intro i hi
  have ha' := congrArg (fun b => b.getLsbD i) ha
  have hb' := congrArg (fun b => b.getLsbD i) hb
  simp only [BitVec.getLsbD_and, BitVec.getLsbD_or, BitVec.getLsbD_not] at ha' hb' ⊢
  rw [Bool.and_or_distrib_right, ha', hb', Bool.or_self]

section
variable {start : ReliabilityState} {s : ReliabilityRun}

theorem ReliabilityRun.Faithful.idle (h : s.Faithful start) {call : ReliabilityCall} {s' : ReliabilityRun}
    (hcomplete : s.answer call ≠ .ack (.ok true)) (hresend : ∀ missing, s.answer call ≠ .poll (.ok (some missing)))
    (hended : s.ended = true → (s.answer call).absent ∧ s'.state = s.state)
    (haccepted : s'.accepted = s.accepted) (hresent : s'.resent = s.resent) : Serves start s call s' where
  complete := iff_of_false hcomplete fun hall => hall.2 (haccepted ▸ hall.1)
  limit := hresent ▸ h.limit
  resend := fun _ _ missing _ heq => absurd heq (hresend missing)
  ended := hended

theorem ReliabilityRun.Faithful.not_ended (h : s.Faithful start) (hactive : s.state.active = true) : s.ended ≠ true :=
  fun hended => Bool.false_ne_true ((h.ended hended).symm.trans hactive)

theorem ack_serves (h : s.Faithful start) (messageId : UInt64) (generation : UInt32) (fragmentCount : Nat)
    (bitmap : BitVec 64) (rejected : Bool) :
    (reliabilityCall s (.ack messageId generation fragmentCount bitmap rejected)).Faithful start ∧
      Serves start s (.ack messageId generation fragmentCount bitmap rejected)
        (reliabilityCall s (.ack messageId generation fragmentCount bitmap rejected)) := by
  have hacks := reliabilityAck_acks s.state messageId generation fragmentCount bitmap rejected
  cases hr : reliabilityAck s.state messageId generation fragmentCount bitmap rejected with
  | mk st result =>
    rw [hr] at hacks
    generalize hcall : ReliabilityCall.ack messageId generation fragmentCount bitmap rejected = call
    have happly : s.apply call = (st, .ack result) := by rw [← hcall, ReliabilityRun.apply, hr]
    have hanswer : s.answer call = .ack result := congrArg Prod.snd happly
    have hafter : reliabilityCall s call =
        { s with
          state := st
          accepted := if (ReliabilityAnswer.ack result).accepts then s.accepted ||| bitmap else s.accepted
          ended := s.ended || (ReliabilityAnswer.ack result).ends } := by
      subst hcall
      simp only [reliabilityCall, hanswer, happly]
      rfl
    rw [hafter]
    cases hacks with
    | unknown =>
      refine ⟨⟨h.deadline, h.pace, h.count, h.retries, h.limit, h.acknowledged, h.within, h.missing, ?_, h.gap,
        h.past⟩, h.idle (by rw [hanswer]; nofun) (by rw [hanswer]; nofun) (fun _ => ⟨?_, rfl⟩) rfl rfl⟩
      · intro hended
        exact h.ended (by simpa [ReliabilityAnswer.ends] using hended)
      · rw [hanswer]
        rfl
    | malformed hactive =>
      refine ⟨⟨h.deadline, h.pace, h.count, h.retries, h.limit, h.acknowledged, h.within, h.missing, ?_, h.gap,
        h.past⟩, h.idle (by rw [hanswer]; nofun) (by rw [hanswer]; nofun)
          (fun hended => absurd hended (h.not_ended hactive)) rfl rfl⟩
      intro hended
      exact h.ended (by simpa [ReliabilityAnswer.ends] using hended)
    | rejected hactive =>
      exact ⟨⟨h.deadline, h.pace, h.count, nofun, h.limit, nofun, h.within, nofun, fun _ => rfl, nofun, h.past⟩,
        h.idle (by rw [hanswer]; nofun) (by rw [hanswer]; nofun)
          (fun hended => absurd hended (h.not_ended hactive)) rfl rfl⟩
    | completed hactive hvalid hall =>
      rw [h.count] at hvalid hall
      rw [h.acknowledged hactive] at hall
      refine ⟨⟨h.deadline, h.pace, h.count, nofun, h.limit, nofun, within_or h.within hvalid, nofun, fun _ => rfl,
        nofun, h.past⟩, ⟨?_, h.limit, ?_, fun hended => absurd hended (h.not_ended hactive)⟩⟩
      · rw [hanswer]
        exact iff_of_true rfl ⟨hall, h.missing hactive⟩
      · rintro nowMs queued missing - heq
        rw [hanswer] at heq
        cases heq
    | counted hactive hvalid hmore =>
      rw [h.count] at hvalid hmore
      rw [h.acknowledged hactive] at hmore
      refine ⟨⟨h.deadline, h.pace, h.count, h.retries, h.limit, fun _ => ?_, within_or h.within hvalid, fun _ => hmore,
        ?_, h.gap, h.past⟩, ⟨?_, h.limit, ?_, fun hended => absurd hended (h.not_ended hactive)⟩⟩
      · dsimp only
        rw [h.acknowledged hactive]
        rfl
      · intro hended
        exact h.ended (by simpa [ReliabilityAnswer.ends] using hended)
      · rw [hanswer]
        exact iff_of_false nofun fun hall => hmore hall.1
      · rintro nowMs queued missing - heq
        rw [hanswer] at heq
        cases heq

theorem ReliabilityRun.Faithful.resends (h : s.Faithful start) {nextMs : Nat} (hactive : s.state.active = true)
    (hearly : nowMs < s.state.deadlineMs) (hdue : s.state.nextRetryMs ≤ nowMs)
    (hlimit : s.resent.length < RELIABLE_RETRY_LIMIT)
    (hnext : s.resent.length + 1 < RELIABLE_RETRY_LIMIT →
      nowMs + reliabilityScale start.paceMs (retryDelays.getD (s.resent.length + 1) 0) ≤ nextMs)
    (hanswer : s.answer (.poll nowMs queued) =
      .poll (.ok (some (fragmentMask s.state.fragmentCount &&& ~~~s.state.acknowledged)))) :
    let s' : ReliabilityRun :=
      { s with
        state := { s.state with retries := s.state.retries + 1, nextRetryMs := nextMs }
        resent := nowMs :: s.resent
        ended := s.ended || false
        nowMs := nowMs }
    s'.Faithful start ∧ Serves start s (.poll nowMs queued) s' := by
  intro s'
  have hretries := h.retries hactive
  refine ⟨⟨h.deadline, h.pace, h.count, fun _ => ?_, hlimit, h.acknowledged, h.within, h.missing, fun hended => ?_,
    fun _ hmore beforeMs hmem => ?_, fun beforeMs hmem => ?_⟩, ⟨?_, hlimit, ?_, ?_⟩⟩
  · show s.state.retries + 1 = (nowMs :: s.resent).length
    rw [hretries, List.length_cons]
  · exact h.ended ((Bool.or_false _).symm.trans hended)
  · obtain rfl : nowMs = beforeMs := Option.some.inj hmem
    exact hnext hmore
  · obtain rfl : nowMs = beforeMs := Option.some.inj hmem
    exact Nat.le_refl _
  · rw [hanswer]
    exact iff_of_false nofun fun hall => hall.2 hall.1
  · intro nowMs' queued' missing hcall heq
    obtain ⟨rfl, rfl⟩ := ReliabilityCall.poll.inj hcall
    rw [hanswer] at heq
    obtain rfl : fragmentMask s.state.fragmentCount &&& ~~~s.state.acknowledged = missing := by
      cases heq
      rfl
    rw [h.count, h.acknowledged hactive]
    refine ⟨h.deadline ▸ hearly, rfl, missing_ne_zero h.within (h.missing hactive), fun beforeMs hmem => ?_⟩
    exact Nat.le_trans (h.gap hactive hlimit beforeMs hmem) hdue
  · exact fun hended => absurd hended (h.not_ended hactive)

theorem reliabilityCall_poll {st : ReliabilityState} {result : Except Errno (Option (BitVec 64))}
    (hr : reliabilityPoll s.state nowMs queued = (st, result)) :
    s.answer (.poll nowMs queued) = .poll result ∧ reliabilityCall s (.poll nowMs queued) =
      { s with
        state := st
        resent := if (ReliabilityAnswer.poll result).resends then nowMs :: s.resent else s.resent
        ended := s.ended || (ReliabilityAnswer.poll result).ends
        nowMs := nowMs } := by
  have happly : s.apply (.poll nowMs queued) = (st, .poll result) := by rw [ReliabilityRun.apply, hr]
  have hanswer : s.answer (.poll nowMs queued) = .poll result := congrArg Prod.snd happly
  refine ⟨hanswer, ?_⟩
  simp only [reliabilityCall, hanswer, happly]
  rfl

theorem poll_serves (h : s.Faithful start) (hle : s.nowMs ≤ nowMs) (queued : Bool) :
    (reliabilityCall s (.poll nowMs queued)).Faithful start ∧
      Serves start s (.poll nowMs queued) (reliabilityCall s (.poll nowMs queued)) := by
  have hpolls := reliabilityPoll_polls s.state nowMs queued
  have hpast : ∀ beforeMs ∈ s.resent.head?, beforeMs ≤ nowMs := fun _ hmem => Nat.le_trans (h.past _ hmem) hle
  cases hr : reliabilityPoll s.state nowMs queued with
  | mk st result =>
    rw [hr] at hpolls
    obtain ⟨hanswer, hafter⟩ := reliabilityCall_poll hr
    have hnot : s.answer (.poll nowMs queued) ≠ .ack (.ok true) := by rw [hanswer]; nofun
    rw [hafter]
    cases hpolls with
    | closed hclosed =>
      refine ⟨⟨h.deadline, h.pace, h.count, h.retries, h.limit, h.acknowledged, h.within, h.missing, fun _ => hclosed,
        h.gap, hpast⟩, h.idle hnot (by rw [hanswer]; nofun) (fun _ => ⟨?_, rfl⟩) rfl rfl⟩
      rw [hanswer]
      rfl
    | expired hactive hlate | exhausted hactive hearly hdue hlimit | overflowed hactive =>
      exact ⟨⟨h.deadline, h.pace, h.count, nofun, h.limit, nofun, h.within, nofun, fun _ => rfl, nofun, hpast⟩,
        h.idle hnot (by rw [hanswer]; nofun) (fun hended => absurd hended (h.not_ended hactive)) rfl rfl⟩
    | deferred hactive hearly =>
      refine ⟨⟨h.deadline, h.pace, h.count, h.retries, h.limit, h.acknowledged, h.within, h.missing, ?_, ?_, hpast⟩,
        h.idle hnot (by rw [hanswer]; nofun) (fun hended => absurd hended (h.not_ended hactive)) rfl rfl⟩
      · intro hended
        exact h.ended (by simpa [ReliabilityAnswer.ends] using hended)
      · -- the delay now counts from this poll, which is no earlier than the last retransmission
        intro _ hlimit beforeMs hmem
        have hdelay : reliabilityDelay s.state = reliabilityScale start.paceMs
          (retryDelays.getD s.resent.length 0) := by
          have hlimit : s.resent.length < RELIABLE_RETRY_LIMIT := hlimit
          rw [reliabilityDelay, h.pace, h.retries hactive, Nat.min_eq_left (Nat.le_sub_one_of_lt hlimit)]
        have hbefore := hpast beforeMs hmem
        dsimp only [ReliabilityAnswer.resends]
        rw [hdelay]
        exact Nat.add_le_add_right hbefore _
    | stuck hactive hearly | early hactive hearly =>
      refine ⟨⟨h.deadline, h.pace, h.count, h.retries, h.limit, h.acknowledged, h.within, h.missing, ?_, h.gap, hpast⟩,
        h.idle hnot (by rw [hanswer]; nofun) (fun hended => absurd hended (h.not_ended hactive)) rfl rfl⟩
      intro hended
      exact h.ended (by simpa [ReliabilityAnswer.ends] using hended)
    | last hactive hearly hdue hlimit =>
      rw [h.retries hactive] at hlimit
      exact h.resends hactive hearly hdue (by omega) (fun hmore => absurd hmore (by omega)) hanswer
    | again hactive hearly hdue hlimit =>
      rw [h.retries hactive] at hlimit
      refine h.resends hactive hearly hdue (by omega) (fun hmore => ?_) hanswer
      have hindex : min (s.state.retries + 1) (RELIABLE_RETRY_LIMIT - 1) = s.resent.length + 1 := by
        rw [h.retries hactive]
        omega
      dsimp only [reliabilityDelay]
      rw [h.pace, hindex]

theorem reliabilityStart_ok (h : reliabilityStart messageId generation fragmentCount nowMs paceMs ttlMs = .ok start) :
    0 < fragmentCount ∧ fragmentCount ≤ 64 ∧
      start = { messageId := messageId, generation := generation, fragmentCount := fragmentCount, paceMs := paceMs,
                deadlineMs := nowMs + reliabilityLifetime paceMs ttlMs,
                nextRetryMs := nowMs + reliabilityScale paceMs (retryDelays.getD 0 0), active := true } := by
  unfold reliabilityStart at h
  split_ifs at h with hargs
  rcases reliabilityAdd_cases nowMs (reliabilityLifetime paceMs ttlMs) with herr | hok
  · rw [herr] at h
    cases h
  rw [hok] at h
  rcases reliabilityAdd_cases nowMs (reliabilityScale paceMs (retryDelays.getD 0 0)) with herr' | hok'
  · rw [herr'] at h
    cases h
  · rw [hok'] at h
    exact ⟨by omega, by omega, (Except.ok.inj h).symm⟩

theorem reliabilityRun_faithful_start
    (h : reliabilityStart messageId generation fragmentCount nowMs paceMs ttlMs = .ok start) :
    (ReliabilityRun.of start nowMs).Faithful start := by
  obtain ⟨hpos, hle, rfl⟩ := reliabilityStart_ok h
  refine ⟨rfl, rfl, rfl, fun _ => rfl, Nat.zero_le _, fun _ => rfl, ?_, fun _ hall => ?_, nofun, nofun, nofun⟩
  · show (0 : BitVec 64) &&& _ = 0
    exact BitVec.zero_and
  have hbit := congrArg (fun b : BitVec 64 => b.getLsbD 0) hall
  dsimp only at hbit
  rw [getLsbD_fragmentMask hle] at hbit
  simp [ReliabilityRun.of, hpos] at hbit

end

/-- **A reliable message keeps to its schedule**: in every run from a successful start, with polls whose times do not
go back, every call returns what it may. -/
theorem reliability_serves {messageId : UInt64} {generation : UInt32} {fragmentCount nowMs paceMs ttlMs : Nat}
    {start : ReliabilityState}
    (hstart : reliabilityStart messageId generation fragmentCount nowMs paceMs ttlMs = .ok start)
    (calls : List ReliabilityCall) (hforward : Along reliabilityCall Forward (ReliabilityRun.of start nowMs) calls) :
    Along reliabilityCall (fun s call => Serves start s call (reliabilityCall s call)) (ReliabilityRun.of start nowMs)
      calls := by
  have hstep : ∀ s call, Forward s call → s.Faithful start →
      (reliabilityCall s call).Faithful start ∧ Serves start s call (reliabilityCall s call) := by
    intro s call hle hs
    cases call with
    | ack messageId generation fragmentCount bitmap rejected => exact ack_serves hs _ _ _ _ _
    | poll nowMs queued => exact poll_serves hs hle queued
  exact along_of_invariant reliabilityCall (ReliabilityRun.Faithful start)
    (fun s call hle hs => (hstep s call hle hs).1)
    (fun s call hle hs => (hstep s call hle hs).2) (reliabilityRun_faithful_start hstart) hforward

/-- A message of two fragments: one is acknowledged, the other is sent again and then acknowledged. -/
theorem reliability_serves_resent :
    Along reliabilityCall
      (fun s call => Serves ⟨7, 0, 6000, 1200, 2, 0, 2, 0, true⟩ s call (reliabilityCall s call))
      (ReliabilityRun.of ⟨7, 0, 6000, 1200, 2, 0, 2, 0, true⟩ 1000)
      [.ack 7 2 2 1 false, .poll 1200 false, .ack 7 2 2 2 false, .poll 1700 false] := by
  have hstart : reliabilityStart 7 2 2 1000 0 0 = .ok ⟨7, 0, 6000, 1200, 2, 0, 2, 0, true⟩ := rfl
  exact reliability_serves hstart _ (by decide)

/-! ## The deadline -/

def retrySchedule (k : Nat) : Nat := (retryDelays.take k).sum

section
variable {start : ReliabilityState} {s : ReliabilityRun} {startMs : Nat}

theorem reliabilityScale_schedule (paceMs : Nat) {k : Nat} (hk : k < RELIABLE_RETRY_LIMIT) :
    reliabilityScale paceMs (retrySchedule (k + 1)) =
      reliabilityScale paceMs (retrySchedule k) + reliabilityScale paceMs (retryDelays.getD k 0) := by
  unfold reliabilityScale RELIABLE_PACE_BASE_MS RELIABLE_RETRY_LIMIT at *
  generalize min (max paceMs 100) RELIABLE_PACE_LIMIT_MS = pace
  interval_cases k <;> simp only [retrySchedule, retryDelays, List.take, List.sum_cons, List.sum_nil,
    List.getD_cons_zero, List.getD_cons_succ] <;> omega

theorem reliabilityLifetime_le (paceMs ttlMs : Nat) :
    reliabilityLifetime paceMs ttlMs ≤ reliabilityScale paceMs (retrySchedule RELIABLE_RETRY_LIMIT) +
      reliabilityScale paceMs (retryDelays.getD (RELIABLE_RETRY_LIMIT - 1) 0) := by
  have hdeadline : reliabilityScale paceMs RELIABLE_DEADLINE_MS ≤
      reliabilityScale paceMs 3700 + reliabilityScale paceMs 2000 := by
    unfold reliabilityScale RELIABLE_PACE_BASE_MS RELIABLE_DEADLINE_MS
    omega
  unfold reliabilityLifetime
  dsimp only
  split_ifs with httl
  · exact Nat.le_trans (Nat.le_of_lt httl.2) hdeadline
  · exact hdeadline

/-- The delays before every retransmission have passed, those before the next one will, and after the last one the
record waits for the deadline. -/
structure ReliabilityRun.Scheduled (start : ReliabilityState) (startMs : Nat) (s : ReliabilityRun) : Prop where
  elapsed : s.state.active = true →
    startMs + reliabilityScale start.paceMs (retrySchedule s.resent.length) ≤ s.nowMs
  next : s.state.active = true → s.resent.length < RELIABLE_RETRY_LIMIT →
    startMs + reliabilityScale start.paceMs (retrySchedule (s.resent.length + 1)) ≤ s.state.nextRetryMs
  last : s.state.active = true → s.resent.length = RELIABLE_RETRY_LIMIT → start.deadlineMs ≤ s.state.nextRetryMs

def Patient (start : ReliabilityState) (s : ReliabilityRun) (call : ReliabilityCall) : Prop :=
  ∀ nowMs queued, call = .poll nowMs queued → s.answer call = .poll (.error .ETIMEDOUT) → start.deadlineMs ≤ nowMs

theorem ack_scheduled (h : s.Scheduled start startMs) (messageId : UInt64) (generation : UInt32) (fragmentCount : Nat)
    (bitmap : BitVec 64) (rejected : Bool) :
    (reliabilityCall s (.ack messageId generation fragmentCount bitmap rejected)).Scheduled start startMs := by
  have hstate : (reliabilityCall s (.ack messageId generation fragmentCount bitmap rejected)).state =
      (reliabilityAck s.state messageId generation fragmentCount bitmap rejected).1 := rfl
  have hresent : (reliabilityCall s (.ack messageId generation fragmentCount bitmap rejected)).resent = s.resent := rfl
  have hnow : (reliabilityCall s (.ack messageId generation fragmentCount bitmap rejected)).nowMs = s.nowMs := rfl
  have hopen : (reliabilityAck s.state messageId generation fragmentCount bitmap rejected).1.active = true →
      s.state.active = true ∧
        (reliabilityAck s.state messageId generation fragmentCount bitmap rejected).1.nextRetryMs =
        s.state.nextRetryMs := by
    have hacks := reliabilityAck_acks s.state messageId generation fragmentCount bitmap rejected
    generalize reliabilityAck s.state messageId generation fragmentCount bitmap rejected = r at hacks
    obtain ⟨st, result⟩ := r
    cases hacks with
    | unknown => exact fun hactive => ⟨hactive, rfl⟩
    | malformed hactive => exact fun _ => ⟨hactive, rfl⟩
    | rejected hactive => exact nofun
    | completed hactive _ _ => exact nofun
    | counted hactive _ _ => exact fun _ => ⟨hactive, rfl⟩
  constructor <;> rw [hstate, hresent]
  · rw [hnow]
    exact fun hactive => h.elapsed (hopen hactive).1
  · exact fun hactive => (hopen hactive).2 ▸ h.next (hopen hactive).1
  · exact fun hactive => (hopen hactive).2 ▸ h.last (hopen hactive).1

theorem poll_scheduled (hf : s.Faithful start) (h : s.Scheduled start startMs) (hle : s.nowMs ≤ nowMs)
    (hdeadline : start.deadlineMs = startMs + reliabilityLifetime start.paceMs ttlMs) (queued : Bool) :
    (reliabilityCall s (.poll nowMs queued)).Scheduled start startMs ∧ Patient start s (.poll nowMs queued) := by
  have hpolls := reliabilityPoll_polls s.state nowMs queued
  cases hr : reliabilityPoll s.state nowMs queued with
  | mk st result =>
    rw [hr] at hpolls
    obtain ⟨hanswer, hafter⟩ := reliabilityCall_poll hr
    have hpatient : (result = .error .ETIMEDOUT → start.deadlineMs ≤ nowMs) → Patient start s (.poll nowMs queued) := by
      intro himp nowMs' queued' hcall heq
      obtain ⟨rfl, rfl⟩ := ReliabilityCall.poll.inj hcall
      rw [hanswer] at heq
      exact himp (ReliabilityAnswer.poll.inj heq)
    have helapsed : s.state.active = true →
        startMs + reliabilityScale start.paceMs (retrySchedule s.resent.length) ≤ nowMs :=
      fun hactive => Nat.le_trans (h.elapsed hactive) hle
    rw [hafter]
    cases hpolls with
    | closed hclosed =>
      have hnot : ∀ {p : Prop}, s.state.active = true → p := fun hactive => by rw [hclosed] at hactive; cases hactive
      exact ⟨⟨fun hactive => hnot hactive, fun hactive => hnot hactive, fun hactive => hnot hactive⟩, hpatient nofun⟩
    | expired hactive hlate => exact ⟨⟨nofun, nofun, nofun⟩, hpatient fun _ => hf.deadline ▸ hlate⟩
    | deferred hactive hearly =>
      have hdelay : reliabilityDelay s.state = reliabilityScale start.paceMs
          (retryDelays.getD (min s.resent.length (RELIABLE_RETRY_LIMIT - 1)) 0) := by
        rw [reliabilityDelay, hf.pace, hf.retries hactive]
      have hnow := helapsed hactive
      refine ⟨⟨fun _ => hnow, fun _ hlimit => ?_, fun _ hlimit => ?_⟩, hpatient nofun⟩
      · have hlimit : s.resent.length < RELIABLE_RETRY_LIMIT := hlimit
        have hsum := reliabilityScale_schedule start.paceMs hlimit
        rw [Nat.min_eq_left (Nat.le_sub_one_of_lt hlimit)] at hdelay
        show startMs + reliabilityScale start.paceMs (retrySchedule (s.resent.length + 1)) ≤
          nowMs + reliabilityDelay s.state
        omega
      · -- after the last retransmission the schedule has used up so much that one more delay passes the deadline
        have hlimit : s.resent.length = RELIABLE_RETRY_LIMIT := hlimit
        have hlife := reliabilityLifetime_le start.paceMs ttlMs
        rw [hlimit] at hnow hdelay
        rw [Nat.min_eq_right (Nat.sub_le _ _)] at hdelay
        show start.deadlineMs ≤ nowMs + reliabilityDelay s.state
        omega
    | stuck hactive hearly | early hactive hearly => exact ⟨⟨helapsed, h.next, h.last⟩, hpatient nofun⟩
    | exhausted hactive hearly hdue hlimit =>
      -- all retransmissions are done, and the record waits for the deadline
      rw [hf.retries hactive] at hlimit
      have hlast := h.last hactive (Nat.le_antisymm hf.limit hlimit)
      exact ⟨⟨nofun, nofun, nofun⟩, hpatient fun _ => Nat.le_trans hlast hdue⟩
    | overflowed hactive => exact ⟨⟨nofun, nofun, nofun⟩, hpatient nofun⟩
    | last hactive hearly hdue hlimit =>
      rw [hf.retries hactive] at hlimit
      have hnext := h.next hactive (by omega)
      refine ⟨⟨fun _ => Nat.le_trans hnext hdue, fun _ hmore => ?_, fun _ _ => ?_⟩, hpatient nofun⟩
      · have hmore : s.resent.length + 1 < RELIABLE_RETRY_LIMIT := hmore
        omega
      · exact Nat.le_of_eq hf.deadline.symm
    | again hactive hearly hdue hlimit =>
      rw [hf.retries hactive] at hlimit
      have hnext := h.next hactive (by omega)
      have hsum := reliabilityScale_schedule start.paceMs hlimit
      refine ⟨⟨fun _ => Nat.le_trans hnext hdue, fun _ _ => ?_, fun _ hend => ?_⟩, hpatient nofun⟩
      · have hdelay : reliabilityDelay { s.state with retries := s.state.retries + 1 } =
            reliabilityScale start.paceMs (retryDelays.getD (s.resent.length + 1) 0) := by
          dsimp only [reliabilityDelay]
          rw [hf.pace, hf.retries hactive, Nat.min_eq_left (Nat.le_sub_one_of_lt hlimit)]
        show startMs + reliabilityScale start.paceMs (retrySchedule (s.resent.length + 1 + 1)) ≤
          nowMs + reliabilityDelay { s.state with retries := s.state.retries + 1 }
        omega
      · have hend : s.resent.length + 1 = RELIABLE_RETRY_LIMIT := hend
        omega

end

/-- **No early timeout**: in every run from a successful start, with polls whose times do not go back and any of them
made while fragments are queued, a poll says that time is out only at the deadline or after it. -/
theorem reliability_patient {messageId : UInt64} {generation : UInt32} {fragmentCount nowMs paceMs ttlMs : Nat}
    {start : ReliabilityState}
    (hstart : reliabilityStart messageId generation fragmentCount nowMs paceMs ttlMs = .ok start)
    (calls : List ReliabilityCall) (hforward : Along reliabilityCall Forward (ReliabilityRun.of start nowMs) calls) :
    Along reliabilityCall (Patient start) (ReliabilityRun.of start nowMs) calls := by
  have hinitial : (ReliabilityRun.of start nowMs).Scheduled start nowMs := by
    obtain ⟨-, -, rfl⟩ := reliabilityStart_ok hstart
    refine ⟨fun _ => ?_, fun _ _ => ?_, fun _ hlimit => ?_⟩
    · show nowMs + 0 * _ / _ ≤ nowMs
      simp
    · exact Nat.le_refl _
    · cases hlimit
  have hdeadline : start.deadlineMs = nowMs + reliabilityLifetime start.paceMs ttlMs := by
    obtain ⟨-, -, rfl⟩ := reliabilityStart_ok hstart
    rfl
  have hstep : ∀ s call, Forward s call → s.Faithful start ∧ s.Scheduled start nowMs →
      ((reliabilityCall s call).Faithful start ∧ (reliabilityCall s call).Scheduled start nowMs) ∧
        Patient start s call := by
    intro s call hle hs
    cases call with
    | ack messageId generation fragmentCount bitmap rejected =>
      exact ⟨⟨(ack_serves hs.1 _ _ _ _ _).1, ack_scheduled hs.2 _ _ _ _ _⟩, nofun⟩
    | poll nowMs queued =>
      have hsched := poll_scheduled hs.1 hs.2 hle hdeadline queued
      exact ⟨⟨(poll_serves hs.1 hle queued).1, hsched.1⟩, hsched.2⟩
  exact along_of_invariant reliabilityCall (fun s => s.Faithful start ∧ s.Scheduled start nowMs)
    (fun s call hle hs => (hstep s call hle hs).1) (fun s call hle hs => (hstep s call hle hs).2)
    ⟨reliabilityRun_faithful_start hstart, hinitial⟩ hforward

/-- All retransmissions are made as soon as they may be, and fragments stay queued after the last one. -/
theorem reliability_patient_queued :
    Along reliabilityCall (Patient ⟨10, 0, 5000, 200, 5, 0, 1, 0, true⟩)
      (ReliabilityRun.of ⟨10, 0, 5000, 200, 5, 0, 1, 0, true⟩ 0)
      [.poll 200 false, .poll 700 false, .poll 1700 false, .poll 3700 false, .poll 3700 true, .poll 4999 false,
        .poll 5000 false] := by
  have hstart : reliabilityStart 10 5 1 0 0 0 = .ok ⟨10, 0, 5000, 200, 5, 0, 1, 0, true⟩ := rfl
  exact reliability_patient hstart _ (by decide)

end Melodi
