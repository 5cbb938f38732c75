import Melodi.System.OffAir
import Melodi.System.Waiting

/-!
# Where the objects of the send path come from

What is on its way through a device is in a call, in a pending record, in the hands of the retransmission or in an
entry of the queue. Every object a section leaves is one that was there, or was made from one that was there.
-/

namespace Melodi
open Lib
variable {m : Sealing} {paceMs : Nat}

/-! ## Calls -/

def SendStage.bare : SendStage → Bool
  | .sealing _ _ | .signing _ | .registering _ _ _ | .queueing _ => false
  | _ => true

inductive SendCall.Proceeds (P : Platform) (d : Device) (c : SendCall) : SendStage → Prop where
  | opens {reservedInvalid : Bool} {a : SendAmbient} {d' : Device} {m : Sealing} {paceMs : Nat}
      (hstage : c.stage = .opening reservedInvalid) (hcast : c.job.request.isBroadcast = false)
      (hopen : sendOpen P d c.job.request a = (d', .ok m)) : Proceeds P d c (.sealing m paceMs)
  | begins {reservedInvalid : Bool} {a : SendAmbient} {d' : Device} {g : Signing}
      (hstage : c.stage = .opening reservedInvalid) (hcast : c.job.request.isBroadcast = true)
      (hopen : broadcastSend d c.job.request a = (d', .ok g)) : Proceeds P d c (.signing g)
  | seals {m : Sealing} {paceMs : Nat} {fails : Nat → Bool} {d' : Device} {frames : List Octets}
      (hstage : c.stage = .sealing m paceMs) (hframes : sealFrames P m fails 0 m.count d = (d', .ok frames))
      (hreliable : c.job.request.isReliable = true) : Proceeds P d c (.registering m frames paceMs)
  | passes {m : Sealing} {paceMs : Nat} {fails : Nat → Bool} {d' : Device} {frames : List Octets}
      (hstage : c.stage = .sealing m paceMs) (hframes : sealFrames P m fails 0 m.count d = (d', .ok frames))
      (hreliable : c.job.request.isReliable = false) : Proceeds P d c (.queueing (c.job.sealedBatch m frames))
  | registers {m : Sealing} {frames : List Octets} {paceMs : Nat} {p : Peer}
      (hstage : c.stage = .registering m frames paceMs)
      (hp : stillReaches d c.job.destination m = some p) : Proceeds P d c (.queueing (c.job.sealedBatch m frames))
  | signs {g : Signing} {fails : Nat → Bool} {sign : Nat → Except Errno Octets} {frames : List Octets}
      (hstage : c.stage = .signing g) (hframes : signFrames g fails sign 0 g.count = .ok frames) :
      Proceeds P d c (.queueing (c.job.signedBatch g frames))
  | bare {stage : SendStage} (h : stage.bare = true) : Proceeds P d c stage

section
variable {P : Platform} {d : Device} {c : SendCall}

theorem SendJob.conclude_bare (j : SendJob) (nowMs : Nat) (result : Except Errno Unit) :
    (j.conclude nowMs result).bare = true := by
  unfold SendJob.conclude
  split
  · split_ifs <;> rfl
  · rfl

theorem sendLocate_bare (P : Platform) (q : TxQueue) (j : SendJob) : (sendLocate P q j).bare = true := by
  unfold sendLocate
  repeat' split
  all_goals rfl

theorem sendBegin_proceeds {reservedInvalid : Bool} (hstage : c.stage = .opening reservedInvalid) (a : SendAmbient)
    (paceMs nowMs : Nat) : c.Proceeds P d (sendBegin P d c.job reservedInvalid a paceMs nowMs).2 := by
  unfold sendBegin
  split_ifs with hcast
  · cases hsend : broadcastSend d c.job.request a with
    | mk d' r =>
      cases r with
      | error e => exact .bare rfl
      | ok g => exact .begins hstage hcast hsend
  · cases hsend : sendOpen P d c.job.request { a with reservedInvalid := reservedInvalid } with
    | mk d' r =>
      cases r with
      | error e => exact .bare (SendJob.conclude_bare _ _ _)
      | ok m => exact .opens hstage (Bool.eq_false_iff.mpr hcast) hsend

theorem sendSeal_proceeds (hstage : c.stage = .sealing m paceMs) (fails : Nat → Bool) (cloned : Bool) (nowMs : Nat) :
    c.Proceeds P d (sendSeal P d c.job m paceMs fails cloned nowMs).2 := by
  unfold sendSeal
  cases hframes : sealFrames P m fails 0 m.count d with
  | mk d' r =>
    cases r with
    | error e => exact .bare (SendJob.conclude_bare _ _ _)
    | ok frames =>
      dsimp only
      split_ifs with hreliable hcloned
      · exact .passes hstage hframes hreliable
      · exact .seals hstage hframes (Bool.eq_true_of_not_eq_false hreliable)
      · exact .bare (SendJob.conclude_bare c.job nowMs (.error .ENOMEM))

theorem sendSign_proceeds {g : Signing} (hstage : c.stage = .signing g) (fails : Nat → Bool)
    (sign : Nat → Except Errno Octets) : c.Proceeds P d (sendSign c.job g fails sign) := by
  unfold sendSign
  cases hframes : signFrames g fails sign 0 g.count with
  | error e => exact .bare rfl
  | ok frames => exact .signs hstage hframes

theorem sendRegister_proceeds {frames : List Octets} (hstage : c.stage = .registering m frames paceMs) (t : Transmit)
    (nowMs : Nat) : c.Proceeds P d (sendRegister d t c.job m frames paceMs nowMs).2 := by
  unfold sendRegister
  cases hp : stillReaches d c.job.destination m with
  | none => exact .bare (SendJob.conclude_bare c.job nowMs (.error .EHOSTUNREACH))
  | some p =>
    dsimp only
    split
    · exact .bare (SendJob.conclude_bare _ _ _)
    · exact .registers hstage hp

theorem SendJob.queued_bare (j : SendJob) (b : Batch) (nowMs : Nat) (result : Except Errno Unit) :
    (j.queued b nowMs result).bare = true := by
  unfold SendJob.queued
  split
  · rfl
  split_ifs
  · rfl
  · rfl
  · exact SendJob.conclude_bare _ _ _

theorem sendDiscover_bare (d : Device) (q : DiscoveryQueue) (j : SendJob) (startMs : Nat) (alloc : Bool) :
    (sendDiscover d q j startMs alloc).2.bare = true := by
  rcases sendDiscover_cases d q j startMs alloc with ⟨e, h⟩ | ⟨q', slot, p, stage, h, -, -, -, -, rfl | rfl⟩
  · rw [h]; rfl
  · rw [h]; rfl
  · rw [h]; rfl

theorem sendProbe_bare (d : Device) (slot : Fin DISCOVERY_PENDING_LIMIT) (messageId : UInt64) :
    (sendProbe d slot messageId).2.bare = true := by
  unfold sendProbe
  split <;> rfl

theorem sendProbed_bare (slot : Fin DISCOVERY_PENDING_LIMIT) (result : Except Errno Unit) :
    (sendProbed slot result).bare = true := by
  unfold sendProbed
  split <;> rfl

end

section
variable {n : Nat} {P : Platform} {siphash : Fin n → Octets → UInt64} {i : Fin n}

theorem sendStep_calls (s : Sender n) (k : Nat) (c : SendCall) (a : SendLabel) :
    (sendStep P siphash i s k c a c.stage).calls = s.calls ∨ (sendStep P siphash i s k c a c.stage).calls =
    s.calls.eraseIdx k ∨ ∃ stage, c.Proceeds P s.node.dev stage ∧
        (sendStep P siphash i s k c a c.stage).calls = s.calls.set k { c with stage := stage } := by
  unfold sendStep
  split
  case h_1 => exact .inr (.inr ⟨_, .bare (sendLocate_bare _ _ _), rfl⟩)
  case h_2 hstage => exact .inr (.inr ⟨_, sendBegin_proceeds hstage _ _ _, rfl⟩)
  case h_3 hstage => exact .inr (.inr ⟨_, sendSeal_proceeds hstage _ _ _, rfl⟩)
  case h_4 hstage => exact .inr (.inr ⟨_, sendSign_proceeds hstage _ _, rfl⟩)
  case h_5 hstage =>
    dsimp only
    split_ifs
    · exact .inr (.inr ⟨_, sendRegister_proceeds hstage _ _, rfl⟩)
    · exact .inr (.inr ⟨_, sendRegister_proceeds hstage _ _, rfl⟩)
  case h_6 => exact .inr (.inr ⟨_, .bare (SendJob.queued_bare _ _ _ _), rfl⟩)
  case h_7 => exact .inr (.inr ⟨_, .bare (SendJob.conclude_bare _ _ _), rfl⟩)
  case h_8 => exact .inr (.inr ⟨_, .bare (sendDiscover_bare _ _ _ _ _), rfl⟩)
  case h_9 => exact .inr (.inr ⟨_, .bare (sendProbe_bare _ _ _), rfl⟩)
  case h_10 =>
    split
    · exact .inr (.inr ⟨_, .bare rfl, rfl⟩)
    · exact .inr (.inr ⟨_, .bare (sendProbed_bare _ _), rfl⟩)
  case h_11 => exact .inr (.inr ⟨_, .bare rfl, rfl⟩)
  case h_12 =>
    split
    · exact .inr (.inl rfl)
    · exact .inr (.inl rfl)
    · exact .inr (.inl rfl)
    · exact .inr (.inl rfl)
  case h_13 => exact .inl rfl

theorem senderStep_calls (s : Sender n) (a : SenderLabel n) {c' : SendCall}
    (hc' : c' ∈ (senderStep P siphash i s a).calls) :
    c' ∈ s.calls ∨ c'.stage = .locating ∨ ∃ k label c stage, a = .call k label ∧ s.calls[k]? = some c ∧
      c.Proceeds P s.node.dev stage ∧ c' = { c with stage := stage } := by
  have hdo : ∀ label, (s.queueDo siphash i label).calls = s.calls := fun _ => rfl
  have hreport : ∀ (t : Sender n) notice, (t.report notice).calls = t.calls := fun _ _ => rfl
  have hnew : ∀ {c : SendCall}, c.stage = .locating → c' ∈ s.calls ++ [c] → c' ∈ s.calls ∨ c'.stage = .locating := by
    intro c hstage hmem
    rcases List.mem_append.mp hmem with hold | hnew
    · exact .inl hold
    · rw [List.mem_singleton.mp hnew]
      exact .inr hstage
  cases a with
  | call k label =>
    unfold senderStep at hc'
    dsimp only at hc'
    cases hc : s.calls[k]? with
    | none =>
      rw [hc] at hc'
      exact .inl hc'
    | some c =>
      rw [hc] at hc'
      dsimp only at hc'
      have hstep : (sendStep P siphash i s k c label c.stage).calls = s.calls ∨ _ := sendStep_calls s k c label
      rcases hstep with h | h | ⟨stage, hproceeds, h⟩
      · exact .inl (h ▸ hc')
      · exact .inl (List.mem_of_mem_eraseIdx (h ▸ hc'))
      · rw [h] at hc'
        rcases List.mem_or_eq_of_mem_set hc' with hold | rfl
        · exact .inl hold
        · exact .inr (.inr ⟨k, label, c, stage, rfl, hc, hproceeds, rfl⟩)
  | claim =>
    refine Or.imp id .inl ?_
    unfold senderStep at hc'
    dsimp only at hc'
    split_ifs at hc' with hcalling
    · exact .inl hc'
    split at hc'
    · exact .inl hc'
    · split at hc'
      · exact .inl hc'
      · exact hnew (by rfl) hc'
  | echo k =>
    refine Or.imp id .inl ?_
    unfold senderStep at hc'
    dsimp only at hc'
    split at hc'
    · exact hnew (by rfl) hc'
    · exact .inl hc'
  | discoveryWork =>
    refine Or.imp id .inl ?_
    unfold senderStep at hc'
    dsimp only at hc'
    split_ifs at hc' with hcalling
    · exact .inl hc'
    · split at hc'
      · exact .inl hc'
      · exact .inl hc'
      · exact hnew (by rfl) hc'
  | _ =>
    -- the other sections leave the calls alone
    refine .inl ?_
    unfold senderStep at hc'
    dsimp only at hc'
    repeat' split at hc'
    all_goals try simp only [hdo, hreport] at hc'
    all_goals exact hc'

/-! ## Pending records and what is sent again -/

def Sender.Registers (s : Sender n) (i : Fin n) (a : SenderLabel n) (p : PendingMessage) : Prop :=
  ∃ k c m frames paceMs peer reliability, a = .call k .register ∧ s.calls[k]? = some c ∧
    c.stage = .registering m frames paceMs ∧ stillReaches s.node.dev c.job.destination m = some peer ∧
      p = pendingFor (c.job.pendingArgs peer m frames paceMs) reliability (s.nowMs i)

theorem senderStep_records (s : Sender n) (a : SenderLabel n) :
    PendingMoved (s.Registers i a) s.pending (senderStep P siphash i s a).pending := by
  by_cases ha : ∀ k, a ≠ .call k .register
  · exact (senderStep_pending s a ha).moved
  push Not at ha
  obtain ⟨k, rfl⟩ := ha
  cases hc : s.calls[k]? with
  | none =>
    simp only [senderStep, hc]
    exact (PendingKept.refl _).moved
  | some c =>
    simp only [senderStep, hc]
    unfold sendStep
    split
    case h_5 m frames paceMs _ hstage =>
      dsimp only
      have hmoved : PendingMoved (s.Registers i (.call k .register)) s.pending
          (sendRegister s.node.dev (s.transmit i) c.job m frames paceMs (s.nowMs i)).1.pending := by
        rcases sendRegister_cases s.node.dev (s.transmit i) c.job m frames paceMs (s.nowMs i) with
          hsame | ⟨peer, slot, reliability, hpeer, hfree, -, hset, -⟩
        · rw [hsame]
          exact (PendingKept.refl _).moved
        · rw [hset]
          exact .write (Table.free?_some hfree)
            ⟨k, c, m, frames, paceMs, peer, reliability, rfl, hc, hstage, hpeer, rfl⟩
      split_ifs
      · exact hmoved
      · exact hmoved
    all_goals first | exact (PendingKept.refl _).moved | contradiction

theorem reliabilityScan_resend {d : Device} {q : TxQueue} {nowMs : Nat} {busy : Bool} {is : List (Fin PENDING_LIMIT)}
    {t t' : Table PENDING_LIMIT PendingMessage} {p' : PendingMessage} {missing : BitVec 64}
    (h : reliabilityScan d q nowMs busy is t = (t', .resend p' missing)) :
    ∃ j p, t j = some p ∧ p' = { p with reliability := p'.reliability } := by
  induction is generalizing t with
  | nil => exact nomatch (Prod.mk.inj h).2
  | cons k is ih =>
    unfold reliabilityScan at h
    cases hk : t k with
    | none =>
      rw [hk] at h
      exact ih h
    | some p =>
      rw [hk] at h
      dsimp only at h
      -- a record that stays behind keeps all but its reliability state
      have hnext : ∀ r, reliabilityScan d q nowMs busy is (t.set k { p with reliability := r }) =
        (t', .resend p' missing) → ∃ j p, t j = some p ∧ p' = { p with reliability := p'.reliability } := by
        intro r hr
        obtain ⟨j, p₁, hp₁, heq⟩ := ih hr
        rcases Table.set_eq_some.mp hp₁ with ⟨rfl, rfl⟩ | ⟨-, hp₁⟩
        · exact ⟨j, p, hk, heq⟩
        · exact ⟨j, p₁, hp₁, heq⟩
      split at h
      · exact nomatch (Prod.mk.inj h).2
      split at h
      · exact hnext _ h
      · exact nomatch (Prod.mk.inj h).2
      · exact hnext _ h
      · obtain ⟨rfl, -⟩ := ReliabilityOutcome.resend.inj (Prod.mk.inj h).2
        exact ⟨k, p, hk, rfl⟩

theorem senderStep_resending (s : Sender n) (a : SenderLabel n) {r : Resend}
    (hr : (senderStep P siphash i s a).resending = some r) :
    s.resending = some r ∨ ∃ j p reliability missing fails, s.pending j = some p ∧
      r = ⟨resendMeta p, resendRequest { p with reliability := reliability } (s.nowMs i),
        resendFrames { p with reliability := reliability } missing fails⟩ := by
  have hdo : ∀ label, (s.queueDo siphash i label).resending = s.resending := fun _ => rfl
  have hreport : ∀ (t : Sender n) notice, (t.report notice).resending = t.resending := fun _ _ => rfl
  cases a with
  | reliability busy fails =>
    unfold senderStep at hr
    dsimp only at hr
    split_ifs at hr
    · exact .inl hr
    split at hr
    · exact .inl hr
    · exact .inl hr
    case h_3 pending p' missing hscan =>
      obtain ⟨j, p, hp, heq⟩ := reliabilityScan_resend hscan
      refine .inr ⟨j, p, p'.reliability, missing, fails, hp, ?_⟩
      rw [← Option.some.inj hr, heq]
      rfl
  | resend up net alloc =>
    unfold senderStep at hr
    dsimp only at hr
    split at hr
    · exact .inl hr
    · exact nomatch hr
  | call k label =>
    refine .inl ?_
    unfold senderStep at hr
    dsimp only at hr
    split at hr
    · exact hr
    · unfold sendStep at hr
      repeat' split at hr
      all_goals exact hr
  | _ =>
    refine .inl ?_
    unfold senderStep at hr
    dsimp only at hr
    repeat' split at hr
    all_goals try simp only [hdo, hreport] at hr
    all_goals exact hr

/-! ## Entries -/

theorem senderStep_entries {s : Sender n} (a : SenderLabel n) (h : Sequenced (s.queue i).queue) :
    Sequenced ((senderStep P siphash i s a).queue i).queue ∧
      Moved (fun e => ∃ label : QueueLabel, s.Issues P i label ∧ label.Writes e) (s.queue i).queue
        ((senderStep P siphash i s a).queue i).queue := by
  have hruns : s.Runs P siphash i (senderStep P siphash i s a) := senderStep_runs s a
  unfold Sender.queue at *
  cases hruns with
  | idle hhost _ =>
    rw [hhost]
    exact Tends.of_entries rfl rfl h
  | elsewhere j label hj hhost _ =>
    obtain ⟨ns, hat⟩ := hostStep_at_other siphash s.host hj label
    rw [hhost, hat]
    exact Tends.of_entries rfl rfl h
  | here label hissues hhost _ =>
    rw [hhost, hostStep_at_self]
    obtain ⟨hseq, hmoved⟩ := queueStep_tends (siphash i) (s.host.at i) label h
    refine ⟨hseq, hmoved.sequence, fun j e' he' => ?_⟩
    rcases hmoved.slot j e' he' with hold | ⟨hlt, e, hw, ht⟩
    · exact .inl hold
    · exact .inr ⟨hlt, e, ⟨label, hissues, hw⟩, ht⟩

end
end Melodi
