import Melodi.Core.Effects
import Melodi.System.Origins

/-!
# The key an entry was sealed under

`melodi_data_queue_valid_locked` lets an entry pass when the session of its destination has the epoch the entry was
sealed under. The epoch starts again when the record of the peer is forgotten, so it can come back while something
sealed under it is on its way.

* `valid_in_key` : an entry that passes the check is sealed under the key of its destination.

`valid_stale` is a run in which a record is forgotten, learned again and shaken hands with while a message is on its
way.
-/

namespace Melodi
open Lib Scenario
variable {d d' : Device} {node : NodeId} {frame : Octets} {good : Octets → Prop} {m : Sealing} {e : TxEntry}
variable {fails : Nat → Bool} {index : Nat} {c : SendCall}

/-! ## Frames and keys -/

def SealedUnder (P : Platform) (key frame : Octets) : Prop :=
  ∃ (m : Sealing) (index : Nat), m.key = key ∧ sealFrame P m index = .ok frame

theorem sealFrames_sealed {P : Platform} {k : Nat} {frames : List Octets}
    (h : sealFrames P m fails index k d = (d', .ok frames)) : ∀ f ∈ frames, SealedUnder P m.key f := by
  intro f hf
  have hmem : (.ok f : Except Errno Octets) ∈ frames.map .ok := List.mem_map_of_mem hf
  rw [sealFrames_frames h] at hmem
  obtain ⟨i, -, hframe⟩ := List.mem_map.mp hmem
  exact ⟨m, i, rfl, hframe⟩

def peerOf (d : Device) (node : NodeId) : Option Peer := (peerByNode d node).bind d.peers

theorem peerOf_congr (h : d'.peers = d.peers) (node : NodeId) : peerOf d' node = peerOf d node := by
  rw [peerOf, peerOf, peerByNode, peerByNode, h]

theorem peerOf_some {p : Peer} (h : peerOf d node = some p) :
    p.nodeId = node ∧ ∃ j, d.peers j = some p := by
  obtain ⟨j, hj, hp⟩ := Option.bind_eq_some_iff.mp h
  obtain ⟨q, hq, hnode⟩ := Table.find?_some hj
  rw [hp] at hq
  obtain rfl := Option.some.inj hq
  exact ⟨of_decide_eq_true hnode, j, hp⟩

def Fits (d : Device) (node : NodeId) (epoch : UInt64) (good : Octets → Prop) : Prop :=
  ∀ p, peerOf d node = some p → p.sessionReady = true → p.sessionEpoch = epoch → good p.transmitKey

theorem entryValidLocked_session (hcast : e.broadcast = false) (h : entryValidLocked d e = .ok ()) :
    ∃ p, peerOf d e.destination = some p ∧ p.sessionReady = true ∧ p.sessionEpoch = e.sessionEpoch := by
  unfold entryValidLocked queueValidLocked at h
  simp only [hcast, Bool.false_eq_true, if_false] at h
  split_ifs at h with hstate
  split at h
  · exact nomatch h
  split at h
  · exact nomatch h
  rename_i p hp
  split_ifs at h with hreach hepoch
  refine ⟨p, hp, ?_, hepoch⟩
  exact Bool.eq_true_of_not_eq_false fun hready => hreach (.inl hready)

/-! ## What is on its way -/

def SendCall.epoch (c : SendCall) : Option (NodeId × UInt64) :=
  match c.stage with
  | .sealing m _ => some (c.job.destination, m.sessionEpoch)
  | .registering m _ _ => some (c.job.destination, m.sessionEpoch)
  | .queueing b => some (c.job.destination, b.sessionEpoch)
  | _ => none

section
variable {n : Nat}

/-- What is sealed and on its way: for which node, under which epoch, and the test that the key it is sealed under
passes. -/
inductive Sender.Carries (P : Platform) (i : Fin n) (s : Sender n) : NodeId → UInt64 → (Octets → Prop) → Prop where
  | sealing {c : SendCall} {m : Sealing} {paceMs : Nat} (hc : c ∈ s.calls) (hstage : c.stage = .sealing m paceMs) :
      Carries P i s c.job.destination m.sessionEpoch (m.key = ·)
  | registering {c : SendCall} {m : Sealing} {frames : List Octets} {paceMs : Nat} (hc : c ∈ s.calls)
      (hstage : c.stage = .registering m frames paceMs) :
      Carries P i s c.job.destination m.sessionEpoch (fun key => ∀ f ∈ frames, SealedUnder P key f)
  | queueing {c : SendCall} {b : Batch} (hc : c ∈ s.calls) (hstage : c.stage = .queueing b)
      (hcast : c.job.request.isBroadcast = false) :
      Carries P i s c.job.destination b.sessionEpoch (fun key => ∀ f ∈ b.frames, SealedUnder P key f)
  | pending {j : Fin PENDING_LIMIT} {p : PendingMessage} (hp : s.pending j = some p) :
      Carries P i s p.destination p.sessionEpoch (fun key => ∀ f ∈ p.fragments, SealedUnder P key f)
  | resending {r : Resend} (hr : s.resending = some r) :
      Carries P i s r.request.destination r.request.sessionEpoch (fun key => ∀ f ∈ r.frames, SealedUnder P key f)
  | entry {j : Fin TX_QUEUE_LIMIT} {e : TxEntry} (he : (s.queue i).queue.entries j = some e) (hdata : e.control = false)
      (hcast : e.broadcast = false) : Carries P i s e.destination e.sessionEpoch (SealedUnder P · e.frame)

def Sender.awaits (s : Sender n) (i : Fin n) (node : NodeId) (epoch : UInt64) : Bool :=
  s.calls.any (fun c => c.epoch = some (node, epoch)) ||
    (s.pending.find? fun p => p.destination = node && p.sessionEpoch = epoch).isSome ||
    s.resending.any (fun r => r.request.destination = node && r.request.sessionEpoch = epoch) ||
    ((s.queue i).queue.entries.find? fun e => e.destination = node && e.sessionEpoch = epoch).isSome

theorem Sender.Carries.awaits {P : Platform} {i : Fin n} {s : Sender n} {epoch : UInt64}
    (h : s.Carries P i node epoch good) : s.awaits i node epoch = true := by
  unfold Sender.awaits
  have hfound : ∀ {k : Nat} {α : Type} {t : Table k α} {q : α → Bool} {j : Fin k} {a : α}, t j = some a → q a = true →
      (t.find? q).isSome = true := by
    intro k α t q j a ha hq
    cases hfind : t.find? q with
    | some _ => rfl
    | none => exact absurd hq (by simpa using Table.find?_none hfind ha)
  have hcall : ∀ {c : SendCall}, c ∈ s.calls → c.epoch = some (node, epoch) →
      s.calls.any (fun c => c.epoch = some (node, epoch)) = true :=
    fun hc hepoch => List.any_eq_true.mpr ⟨_, hc, decide_eq_true hepoch⟩
  cases h with
  | sealing hc hstage | registering hc hstage | queueing hc hstage hcast =>
      rw [hcall hc (by rw [SendCall.epoch, hstage])]; rfl
  | pending hp => rw [hfound hp (by simp), Bool.or_true]; rfl
  | resending hr => simp [hr]
  | entry he hdata hcast => rw [hfound he (by simp), Bool.or_true]

/-! ## The sections that let no epoch come back -/

def keptSession (d : Device) (p' : Peer) : Bool :=
  (peerOf d p'.nodeId).any fun p => p.sessionReady && p.sessionEpoch = p'.sessionEpoch && p.transmitKey = p'.transmitKey

def Sender.registersSame (s : Sender n) : SenderLabel n → Bool
  | .call k .register =>
    (s.calls[k]?).all fun c =>
      match c.stage with
      | .registering m _ _ => (stillReaches s.node.dev c.job.destination m).all fun p => p.sessionEpoch = m.sessionEpoch
      | _ => true
  | _ => true

/-- A session becomes ready only under an epoch under which nothing is on its way to the node, and a message is
registered for the session it was sealed for. -/
def Sender.RenewsCleanly (P : Platform) (siphash : Fin n → Octets → UInt64) (i : Fin n) (s : Sender n)
    (a : SenderLabel n) : Prop :=
  (∀ j, ∀ p' ∈ (senderStep P siphash i s a).node.dev.peers j, p'.sessionReady = true →
    keptSession s.node.dev p' = true ∨ s.awaits i p'.nodeId p'.sessionEpoch = false) ∧ s.registersSame a = true

instance (P : Platform) (siphash : Fin n → Octets → UInt64) (i : Fin n) (s : Sender n) (a : SenderLabel n) :
    Decidable (s.RenewsCleanly P siphash i a) := by
  unfold Sender.RenewsCleanly
  infer_instance

theorem Fits.renewed {P : Platform} {siphash : Fin n → Octets → UInt64} {i : Fin n} {s : Sender n} {a : SenderLabel n}
    (hclean : s.RenewsCleanly P siphash i a) {epoch : UInt64} (hawaits : s.awaits i node epoch = true)
    (h : Fits s.node.dev node epoch good) :
    Fits (senderStep P siphash i s a).node.dev node epoch good := by
  intro p' hp' hready hepoch
  obtain ⟨hnode, j, hj⟩ := peerOf_some hp'
  rcases hclean.1 j p' hj hready with hkept | hnone
  · unfold keptSession at hkept
    rw [hnode] at hkept
    cases hp : peerOf s.node.dev node with
    | none =>
      rw [hp] at hkept
      exact nomatch hkept
    | some p =>
      rw [hp] at hkept
      simp only [Option.any_some, Bool.and_eq_true, decide_eq_true_eq] at hkept
      obtain ⟨⟨hpready, hpepoch⟩, hkey⟩ := hkept
      rw [← hkey]
      exact h p hp hpready (hpepoch.trans hepoch)
  · rw [hnode, hepoch, hawaits] at hnone
    exact nomatch hnone

/-! ## The invariant -/

/-- Whatever session has the epoch of what is on its way, its key is the one it is sealed under. -/
structure Sender.InKey (P : Platform) (i : Fin n) (s : Sender n) : Prop where
  sequenced : Sequenced (s.queue i).queue
  signing : ∀ c ∈ s.calls, ∀ g, c.stage = .signing g → c.job.request.isBroadcast = true
  fits : ∀ node epoch good, s.Carries P i node epoch good → Fits s.node.dev node epoch good

variable {P : Platform} {siphash : Fin n → Octets → UInt64} {i : Fin n} {s : Sender n} {a : SenderLabel n}

theorem inKey_initial (P : Platform) (i : Fin n) : (Sender.initial n).InKey P i where
  sequenced := (initial_tidy n i).sequenced
  signing _ h := nomatch h
  fits node epoch good h := by
    cases h with
    | sealing hc _ => exact nomatch hc
    | registering hc _ => exact nomatch hc
    | queueing hc _ _ => exact nomatch hc
    | pending hp => exact nomatch hp
    | resending hr => exact nomatch hr
    | entry he _ _ => exact nomatch he

/-- What the next state carries comes from what the state carries, or is a message just sealed for a session of the
node. -/
def Sender.Comes (P : Platform) (i : Fin n) (s : Sender n) (node : NodeId) (epoch : UInt64) (good : Octets → Prop) :
    Prop :=
  ∃ good', s.Carries P i node epoch good' ∧ ∀ key, good' key → good key

theorem sendOpen_fits {amb : SendAmbient} (h : sendOpen P d c.job.request amb = (d', .ok m)) :
    Fits d c.job.destination m.sessionEpoch (m.key = ·) := by
  obtain ⟨destination, count, j, p, marker, orderTx, hcheck, -, hj, hp, -, -, -, -, -, rfl⟩ := sendOpen_ok h
  have hdestination : c.job.destination = destination := by rw [SendJob.destination, (sendCheck_ok hcheck).2.1]; rfl
  intro q hq _ _
  rw [hdestination, peerOf, hj, Option.bind_some, hp] at hq
  obtain rfl := Option.some.inj hq
  rfl

theorem SendCall.Proceeds.comes (hc : c ∈ s.calls) {stage : SendStage} (h : c.Proceeds P s.node.dev stage)
    (hsigning : ∀ g, c.stage = .signing g → c.job.request.isBroadcast = true) :
    (∀ m paceMs, stage = .sealing m paceMs → Fits s.node.dev c.job.destination m.sessionEpoch (m.key = ·)) ∧
    (∀ m frames paceMs, stage = .registering m frames paceMs →
      s.Comes P i c.job.destination m.sessionEpoch (fun key => ∀ f ∈ frames, SealedUnder P key f)) ∧
    (∀ b, stage = .queueing b → c.job.request.isBroadcast = false →
      s.Comes P i c.job.destination b.sessionEpoch (fun key => ∀ f ∈ b.frames, SealedUnder P key f)) := by
  have hsealed : ∀ {m : Sealing} {paceMs : Nat} {fails : Nat → Bool} {d' : Device} {frames : List Octets},
      c.stage = .sealing m paceMs → sealFrames P m fails 0 m.count s.node.dev = (d', .ok frames) →
      s.Comes P i c.job.destination m.sessionEpoch (fun key => ∀ f ∈ frames, SealedUnder P key f) :=
    fun hstage hframes => ⟨_, .sealing hc hstage, fun key hkey => hkey ▸ sealFrames_sealed hframes⟩
  cases h with
  | opens hstage hcast hopen =>
    refine ⟨fun m paceMs heq => ?_, nofun, nofun⟩
    obtain ⟨rfl, -⟩ := SendStage.sealing.inj heq
    exact sendOpen_fits hopen
  | begins => exact ⟨nofun, nofun, nofun⟩
  | seals hstage hframes hreliable =>
    refine ⟨nofun, fun m frames paceMs heq => ?_, nofun⟩
    obtain ⟨rfl, rfl, -⟩ := SendStage.registering.inj heq
    exact hsealed hstage hframes
  | passes hstage hframes hreliable =>
    refine ⟨nofun, nofun, fun b heq _ => ?_⟩
    obtain rfl := SendStage.queueing.inj heq
    exact hsealed hstage hframes
  | registers hstage hp =>
    refine ⟨nofun, nofun, fun b heq _ => ?_⟩
    obtain rfl := SendStage.queueing.inj heq
    exact ⟨_, .registering hc hstage, fun _ hkey => hkey⟩
  | signs hstage hframes =>
    refine ⟨nofun, nofun, fun b heq hcast => ?_⟩
    rw [hsigning _ hstage] at hcast
    exact nomatch hcast
  | bare hbare =>
    refine ⟨fun m paceMs heq => ?_, fun m frames paceMs heq => ?_, fun b heq _ => ?_⟩ <;>
      (subst heq; exact nomatch hbare)

theorem sendBegin_peers (d : Device) (j : SendJob) (reservedInvalid : Bool) (amb : SendAmbient) (paceMs nowMs : Nat) :
    (sendBegin P d j reservedInvalid amb paceMs nowMs).1.peers = d.peers := by
  unfold sendBegin
  split_ifs
  · have hpeers : (broadcastSend d j.request amb).1.peers = d.peers := by
      unfold broadcastSend
      repeat' split
      all_goals rfl
    split
    · rename_i heq
      rw [heq] at hpeers
      exact hpeers
    · rename_i heq
      rw [heq] at hpeers
      exact hpeers
  · have hpeers : ∀ {d' : Device} {res : Except Errno Sealing},
        sendOpen P d j.request { amb with reservedInvalid := reservedInvalid } = (d', res) → d'.peers = d.peers := by
      intro d' res h
      obtain ⟨count, hreserves⟩ := sendOpen_reserves h
      obtain ⟨orderTx, rfl⟩ := hreserves.device
      rfl
    split
    · exact hpeers ‹_›
    · exact hpeers ‹_›

theorem sendSeal_peers (d : Device) (j : SendJob) (m : Sealing) (paceMs : Nat) (fails : Nat → Bool) (cloned : Bool)
    (nowMs : Nat) : (sendSeal P d j m paceMs fails cloned nowMs).1.peers = d.peers := by
  have hpeers : (sealFrames P m fails 0 m.count d).1.peers = d.peers := by
    obtain ⟨k, -, heq⟩ := sealFrames_cases P m fails m.count 0 d
    rw [heq]
  unfold sendSeal
  split
  · rename_i heq
    rw [heq] at hpeers
    exact hpeers
  rename_i heq
  rw [heq] at hpeers
  split_ifs <;> exact hpeers

theorem sendProbe_peers (d : Device) (slot : Fin DISCOVERY_PENDING_LIMIT) (messageId : UInt64) :
    (sendProbe d slot messageId).1.peers = d.peers := by
  have hprobe : (discoveryProbe d messageId).1.peers = d.peers := by
    unfold discoveryProbe
    split_ifs
    · rfl
    cases hnext : counterNextLocked d with
    | error e => rfl
    | ok r =>
      obtain ⟨counter, d'⟩ := r
      unfold counterNextLocked at hnext
      split_ifs at hnext
      obtain ⟨-, rfl⟩ := Prod.mk.inj (Except.ok.inj hnext)
      rfl
  unfold sendProbe
  split
  · rename_i heq
    rw [heq] at hprobe
    exact hprobe
  rename_i heq
  rw [heq] at hprobe
  exact hprobe

theorem sendStep_peers (s : Sender n) (k : Nat) (c : SendCall) (label : SendLabel) (stage : SendStage) :
    (sendStep P siphash i s k c label stage).node.dev.peers = s.node.dev.peers := by
  unfold sendStep
  split
  case h_2 => exact sendBegin_peers _ _ _ _ _ _
  case h_3 => exact sendSeal_peers _ _ _ _ _ _ _
  case h_5 =>
    dsimp only
    split_ifs <;> rfl
  case h_9 => exact sendProbe_peers _ _ _
  case h_10 => split <;> rfl
  case h_12 =>
    split <;> rfl
  all_goals rfl

theorem resendFrames_subset {p : PendingMessage} {r : ReliabilityState} {missing : BitVec 64} :
    ∀ f ∈ resendFrames { p with reliability := r } missing fails, f ∈ p.fragments := by
  intro f hf
  obtain ⟨k, -, hk⟩ := List.mem_filterMap.mp hf
  split_ifs at hk
  exact List.mem_of_getElem? hk

theorem Sender.Issues.comes {label : QueueLabel} (hissues : s.Issues P i label) (hwrites : label.Writes e)
    (hdata : e.control = false) (hcast : e.broadcast = false) :
    s.Comes P i e.destination e.sessionEpoch (SealedUnder P · e.frame) := by
  obtain ⟨frames, metadata, r, hbatch, frame, hframe, net, sequence, groupId, expiresMs, peerIndex, flowIndex, rfl⟩ :=
    hwrites
  have hoffers : ∀ {id : Nat} {valid : Except Errno Unit}, s.Offers id frames metadata r valid →
      s.Comes P i r.destination r.sessionEpoch (SealedUnder P · frame) := by
    rintro id valid ⟨c, hc, b, hstage, -, rfl, rfl, rfl, -⟩
    exact ⟨_, .queueing hc hstage hcast, fun key hkey => hkey frame hframe⟩
  cases label with
  | send up net' frames' metadata' r' alloc valid =>
    obtain ⟨rfl, rfl, rfl⟩ : frames' = frames ∧ metadata' = metadata ∧ r' = r := by
      simpa [QueueLabel.batch] using hbatch
    rcases hissues with ⟨rfl, -⟩ | hoffer | ⟨x, hx, rfl, rfl, rfl, -⟩
    · exact nomatch hdata
    · exact hoffers hoffer
    · exact ⟨_, .resending hx, fun key hkey => hkey frame hframe⟩
  | sendReserved up frames' metadata' r' id valid =>
    obtain ⟨rfl, rfl, rfl⟩ : frames' = frames ∧ metadata' = metadata ∧ r' = r := by
      simpa [QueueLabel.batch] using hbatch
    exact hoffers hissues
  | _ => exact nomatch hbatch

theorem senderStep_comes (h : s.InKey P i) (hsame : s.registersSame a = true) {epoch : UInt64}
    (hcarries : (senderStep P siphash i s a).Carries P i node epoch good) :
    s.Comes P i node epoch good ∨
      (senderStep P siphash i s a).node.dev.peers = s.node.dev.peers ∧ Fits s.node.dev node epoch good := by
  cases hcarries with
  | sealing hc' hstage =>
    rcases senderStep_calls s a hc' with hold | hnew | ⟨k, label, c, stage, rfl, hk, hproceeds, rfl⟩
    · exact .inl ⟨_, .sealing hold hstage, fun _ hkey => hkey⟩
    · rw [hnew] at hstage
      cases hstage
    · have hc := List.mem_of_getElem? hk
      refine .inr ⟨?_, (hproceeds.comes (i := i) hc (h.signing c hc)).1 _ _ hstage⟩
      simp only [senderStep, hk]
      exact sendStep_peers s k c label c.stage
  | registering hc' hstage =>
    rcases senderStep_calls s a hc' with hold | hnew | ⟨k, label, c, stage, rfl, hk, hproceeds, rfl⟩
    · exact .inl ⟨_, .registering hold hstage, fun _ hkey => hkey⟩
    · rw [hnew] at hstage
      cases hstage
    · have hc := List.mem_of_getElem? hk
      exact .inl ((hproceeds.comes hc (h.signing c hc)).2.1 _ _ _ hstage)
  | queueing hc' hstage hcast =>
    rcases senderStep_calls s a hc' with hold | hnew | ⟨k, label, c, stage, rfl, hk, hproceeds, rfl⟩
    · exact .inl ⟨_, .queueing hold hstage hcast, fun _ hkey => hkey⟩
    · rw [hnew] at hstage
      cases hstage
    · have hc := List.mem_of_getElem? hk
      exact .inl ((hproceeds.comes hc (h.signing c hc)).2.2 _ hstage hcast)
  | @pending j p' hp =>
    rcases senderStep_records s a j p' hp with ⟨p, hold, heq⟩ | ⟨-, p, hregisters, heq⟩
    · obtain ⟨r, rfl⟩ : ∃ r, p' = { p with reliability := r } := ⟨_, heq⟩
      have hcarried : s.Carries P i p.destination p.sessionEpoch _ := .pending hold
      exact .inl ⟨_, hcarried, fun _ hkey => hkey⟩
    obtain ⟨k, c, m, frames, paceMs, peer, reliability, rfl, hk, hstage, hpeer, rfl⟩ := hregisters
    -- the record is written under the epoch of the session the message was sealed for
    have hepoch : peer.sessionEpoch = m.sessionEpoch := by
      simpa [Sender.registersSame, hk, hstage, hpeer] using hsame
    obtain ⟨r, rfl⟩ : ∃ r, p' = { pendingFor (c.job.pendingArgs peer m frames paceMs) reliability (s.nowMs i) with
      reliability := r } := ⟨_, heq⟩
    refine .inl ⟨fun key => ∀ f ∈ frames, SealedUnder P key f, ?_, fun _ hkey => hkey⟩
    change s.Carries P i c.job.destination peer.sessionEpoch _
    rw [hepoch]
    exact .registering (List.mem_of_getElem? hk) hstage
  | resending hr =>
    rcases senderStep_resending s a hr with hold | ⟨j, p, reliability, missing, fails, hp, rfl⟩
    · exact .inl ⟨_, .resending hold, fun _ hkey => hkey⟩
    · have hcarried : s.Carries P i p.destination p.sessionEpoch _ := .pending hp
      exact .inl ⟨_, hcarried, fun key hkey f hf => hkey f (resendFrames_subset f hf)⟩
  | entry he hdata hcast =>
    rcases (senderStep_entries a h.sequenced).2.slot _ _ he with ⟨e, hold, htended⟩ |
      ⟨-, e, ⟨label, hissues, hwrites⟩, htended⟩
    · rw [htended.same] at hdata hcast ⊢
      have hcarried : s.Carries P i e.destination e.sessionEpoch _ := .entry hold hdata hcast
      exact .inl ⟨_, hcarried, fun _ hkey => hkey⟩
    rw [htended.same] at hdata hcast ⊢
    have hcomes : s.Comes P i e.destination e.sessionEpoch (SealedUnder P · e.frame) :=
      hissues.comes hwrites hdata hcast
    exact .inl hcomes

theorem senderStep_inKey (h : s.InKey P i) (hclean : s.RenewsCleanly P siphash i a) :
    (senderStep P siphash i s a).InKey P i where
  sequenced := (senderStep_entries a h.sequenced).1
  signing c' hc' g hg := by
    rcases senderStep_calls s a hc' with hold | hnew | ⟨k, label, c, stage, -, hc, hproceeds, rfl⟩
    · exact h.signing c' hold g hg
    · rw [hnew] at hg
      exact nomatch hg
    cases hproceeds with
    | begins hstage hcast _ => exact hcast
    | bare hbare =>
      rw [show stage = .signing g from hg] at hbare
      exact nomatch hbare
    | opens | seals | passes | registers | signs => exact nomatch hg
  fits node epoch good hcarries := by
    rcases senderStep_comes h hclean.2 hcarries with ⟨good', hold, himp⟩ | ⟨hpeers, hfits⟩
    · have hfits := (h.fits node epoch good' hold).renewed hclean hold.awaits
      exact fun p hp hready hepoch => himp _ (hfits p hp hready hepoch)
    intro p hp
    rw [peerOf_congr hpeers] at hp
    exact hfits p hp

/-- If a session becomes ready only under an epoch under which nothing is on its way, an entry that passes the last
check was sealed under the key of the present session. -/
theorem valid_in_key (as : List (SenderLabel n))
    (h : Along (senderStep P siphash i) (Sender.RenewsCleanly P siphash i) (Sender.initial n) as) :
    let s := run (senderStep P siphash i) (Sender.initial n) as
    ∀ j e, (s.queue i).queue.entries j = some e → e.control = false → e.broadcast = false →
      entryValidLocked s.node.dev e = .ok () →
        ∃ p, peerOf s.node.dev e.destination = some p ∧ SealedUnder P p.transmitKey e.frame := by
  intro s j e he hdata hcast hvalid
  have hkey : s.InKey P i :=
    run_induction (senderStep P siphash i) (Sender.InKey P i) (fun _ _ hclean hs => senderStep_inKey hs hclean)
      (inKey_initial P i) h
  obtain ⟨p, hp, hready, hepoch⟩ := entryValidLocked_session hcast hvalid
  exact ⟨p, hp, hkey.fits _ _ _ (.entry he hdata hcast) p hp hready hepoch⟩

end

/-! ## Runs -/

def Platform.marked : Platform where
  __ := Platform.plain
  encrypt := fun key _ _ plain => plain ++ key.takeD WIRE_TAG_SIZE 0
  decrypt := fun key _ _ octets =>
    if octets.drop (octets.length - WIRE_TAG_SIZE) = key.takeD WIRE_TAG_SIZE 0 then
      some (octets.take (octets.length - WIRE_TAG_SIZE)) else none
  encrypt_length := by simp
  decrypt_length := by
    intro key nonce aad octets plain h
    split_ifs at h with htag
    have hlen := congrArg List.length htag
    rw [List.length_drop, List.takeD_length] at hlen
    rw [← Option.some.inj h, List.length_take]
    omega

theorem wireEncodeData_auth {capacity : Nat} {h : WireData} {payload : Octets}
    (hencode : wireEncodeData capacity h payload = .ok frame) :
    ∃ rest, frame = wireDataAuth h payload.length ++ rest := by
  unfold wireEncodeData wireEncodeDataHeader at hencode
  split_ifs at hencode
  rw [← Except.ok.inj hencode, List.append_assoc, List.append_assoc]
  exact ⟨_, rfl⟩

theorem sealFrame_ok {P : Platform} (h : sealFrame P m index = .ok frame) :
    ∃ aad rest, frame = wireDataAuth (m.header index) (m.chunk index).length ++
      ((P.encrypt m.key (m.nonce index) aad (m.chunk index)).drop (m.chunk index).length ++ rest) := by
  unfold sealFrame at h
  dsimp only at h
  cases hencode : wireEncodeData (WIRE_DATA_SIZE + (m.chunk index).length) (m.header index) (m.chunk index) with
  | error e =>
    rw [hencode] at h
    exact nomatch h
  | ok encoded =>
    rw [hencode] at h
    obtain ⟨rest, hrest⟩ := wireEncodeData_auth hencode
    have hauth : encoded.take WIRE_AUTH_DATA_SIZE = wireDataAuth (m.header index) (m.chunk index).length := by
      rw [hrest, List.take_left' (wireDataAuth_length _ _)]
    dsimp only at h
    rw [hauth] at h
    exact ⟨_, _, (Except.ok.inj h).symm⟩

theorem SealedUnder.tag {key : Octets} (h : SealedUnder Platform.marked key frame) :
    (frame.drop WIRE_AUTH_DATA_SIZE).take WIRE_TAG_SIZE = key.takeD WIRE_TAG_SIZE 0 := by
  obtain ⟨m, index, rfl, hframe⟩ := h
  obtain ⟨aad, rest, hparts⟩ := sealFrame_ok hframe
  have htag : (Platform.marked.encrypt m.key (m.nonce index) aad (m.chunk index)).drop (m.chunk index).length =
    m.key.takeD WIRE_TAG_SIZE 0 := List.drop_left' rfl
  rw [hparts, List.drop_left' (wireDataAuth_length _ _), htag, List.take_left' (List.takeD_length ..)]

def Scenario.sealed : List (SenderLabel 1) :=
  online ++ handIn (submission F_AUTH_REQUIRED) ++ sends.take 3

def Scenario.relearned : List (SenderLabel 1) :=
  sealed ++ [.node (.control (.expiry 300000)), .node (.control (.hello (hello 3) link true 300000)),
      .node (.control (.announce [5] 2)), .node (.control (.challenge (challenge 4) link true [9])),
      .call 0 (.enqueue true 0 true), .queue (.select false 0)]

def Sender.selectedValid (s : Sender 1) : Option TxEntry :=
  match (s.queue (.last 0)).work with
  | some (.selected j) => ((s.queue (.last 0)).queue.entries j).filter fun e =>
    !e.control && !e.broadcast && (errorOf (entryValidLocked s.node.dev e)).isNone
  | _ => none

theorem Sender.selectedValid_some {s : Sender 1} (h : s.selectedValid = some e) :
    ∃ j, (s.queue 0).work = some (.selected j) ∧ (s.queue 0).queue.entries j = some e ∧ e.control = false ∧
      e.broadcast = false ∧ entryValidLocked s.node.dev e = .ok () := by
  unfold Sender.selectedValid at h
  split at h
  · rename_i j hwork
    obtain ⟨he, htest⟩ := Option.filter_eq_some_iff.mp h
    simp only [Bool.and_eq_true, Bool.not_eq_true', Option.isNone_iff_eq_none] at htest
    refine ⟨j, hwork, he, htest.1.1, htest.1.2, ?_⟩
    cases hvalid : entryValidLocked s.node.dev e with
    | ok _ => rfl
    | error error =>
      rw [hvalid] at htest
      exact nomatch htest.2
  · exact nomatch h

/-- Without that, the message that the worker selects is sealed under the key of the session. -/
theorem valid_in_key_sent :
    let s := run (senderStep Platform.marked digest 0) (Sender.initial 1)
      (sealed ++ [.call 0 (.enqueue true 0 true), .queue (.select false 0)])
    ∃ e, s.selectedValid = some e ∧
      ∃ p, peerOf s.node.dev e.destination = some p ∧ SealedUnder Platform.marked p.transmitKey e.frame := by
  have hclean : Along (senderStep Platform.marked digest 0) (Sender.RenewsCleanly Platform.marked digest 0)
      (Sender.initial 1) (sealed ++ [.call 0 (.enqueue true 0 true), .queue (.select false 0)]) := by
      decide +kernel
  have hsome : (run (senderStep Platform.marked digest 0) (Sender.initial 1)
      (sealed ++ [.call 0 (.enqueue true 0 true), .queue (.select false 0)])).selectedValid.isSome = true := by
    decide +kernel
  have hkey := valid_in_key _ hclean
  generalize run _ _ _ = s at hsome hkey
  obtain ⟨e, he⟩ := Option.isSome_iff_exists.mp hsome
  obtain ⟨j, -, hentry, hdata, hcast, hvalid⟩ := Sender.selectedValid_some he
  exact ⟨e, he, hkey j e hentry hdata hcast hvalid⟩

/-- The worker selects a message whose check passes though it is sealed under the key of the session before. -/
theorem valid_stale :
    let s := run (senderStep Platform.marked digest 0) (Sender.initial 1) relearned
    ∃ j e, (s.queue 0).work = some (.selected j) ∧ (s.queue 0).queue.entries j = some e ∧ e.control = false ∧
      e.broadcast = false ∧ entryValidLocked s.node.dev e = .ok () ∧
        ∀ p, peerOf s.node.dev e.destination = some p → ¬SealedUnder Platform.marked p.transmitKey e.frame := by
  have hkeys : ∀ s, s = run (senderStep Platform.marked digest 0) (Sender.initial 1) relearned →
      s.selectedValid.isSome = true ∧ ∀ e ∈ s.selectedValid, ∀ p ∈ peerOf s.node.dev e.destination,
        (e.frame.drop WIRE_AUTH_DATA_SIZE).take WIRE_TAG_SIZE ≠ p.transmitKey.takeD WIRE_TAG_SIZE 0 := by
    rintro s rfl
    decide +kernel
  generalize run _ _ _ = s at hkeys
  obtain ⟨hsome, hother⟩ := hkeys s rfl
  obtain ⟨e, he⟩ := Option.isSome_iff_exists.mp hsome
  obtain ⟨j, hwork, hentry, hdata, hcast, hvalid⟩ := Sender.selectedValid_some he
  exact ⟨j, e, hwork, hentry, hdata, hcast, hvalid, fun p hp hsealed => hother e he p hp hsealed.tag⟩

end Melodi
