import Melodi.Core.PendingEffects
import Melodi.Core.Submit
import Melodi.System.Accounting
import Melodi.System.Node

/-!
# A device that sends, at lock granularity

One device of a host: the machine of `System.Node`, its transmit queue (one of the queues of the host), the messages
that wait for an acknowledgement or for a session, and the calls that are between two critical sections.

* `senderStep_runs` : every change of a queue is a section of `System.QueueRun`.
-/

namespace Melodi
open Lib

/-! ## Calls -/

inductive Caller where
  | logical
  | discovery (slot : Fin DISCOVERY_PENDING_LIMIT)
  | echo
  deriving DecidableEq, Repr

structure SendCall where
  job : SendJob
  stage : SendStage := .locating
  caller : Caller

structure NetlinkCall where
  submission : Submission
  reservation : Nat
  sealed : Bool := false
  deriving DecidableEq, Repr

structure Resend where
  metadata : TxMeta
  request : QueueRequest
  frames : List Octets
  deriving DecidableEq, Repr

/-- A device that sends: its node, the queues of the host, the tables of waiting messages, and the calls under way. -/
structure Sender (n : Nat) where
  host : Host n
  node : Node := Node.initial
  pending : Table PENDING_LIMIT PendingMessage := Table.empty
  discovery : DiscoveryQueue := {}
  netlink : List NetlinkCall := []
  logical : List LogicalSkb := []
  calls : List SendCall := []
  resending : Option Resend := none
  /-- History: the messages admitted so far; the errors reported, and the sections of the queue with what they
  returned, the latest first. -/
  messages : Nat := 0
  notices : List Notice := []
  trail : List (QueueLabel × QueueOut) := []

def Sender.initial (n : Nat) : Sender n := { host := Host.initial n }

/-- The sections of a call of `melodi_data_send_internal`, with what the outside decides of each. -/
inductive SendLabel where
  | locate
  | enter (a : SendAmbient) (paceMs : Nat)
  | seal (fails : Nat → Bool) (cloned : Bool)
  | sign (fails : Nat → Bool) (sign : Nat → Except Errno Octets)
  | register
  | enqueue (up : Bool) (net : Nat) (alloc : Bool)
  | forget
  | discover (alloc : Bool)
  | probe (messageId : UInt64)
  | announce (frame : Except Errno (Octets × TxMeta)) (up : Bool) (net : Nat) (alloc : Bool)
  | unprobe
  | finish

inductive SenderLabel (n : Nat) where
  | node (a : Label)
  | elsewhere (j : Fin n) (a : QueueLabel)
  | queue (a : QueueLabel)
  | check
  | control (frame : Octets) (metadata : TxMeta) (up : Bool) (net : Nat) (alloc : Bool)
  /-- The netlink command: admission, the seal, the hand-over to the stack, and the cancellation when one of them
  fails. -/
  | accept (m : Submission) (a : AdmitAmbient)
  | sealSkb (k : Nat)
  | xmit (k : Nat) (queued : Bool)
  | giveUp (k : Nat) (error : Errno)
  | inject (b : LogicalSkb)
  | claim
  | logicalStop (error : Errno)
  | call (k : Nat) (a : SendLabel)
  | echo (k : Nat)
  | ack (k : Nat)
  | reliability (busy : Bool) (fails : Nat → Bool)
  | resend (up : Bool) (net : Nat) (alloc : Bool)
  | discoveryWork
  | queueStateChanged
  | dataStateChanged
  | failPending (error : Errno)
  | failDiscovery (error : Errno)

/-! ## The machine -/

def Label.ofSendPath : Label → Bool
  | .send _ _ | .echo _ _ | .sealMessage _ _ | .ackCommit _ | .control (.sendBroadcast _ _) => true
  | _ => false

def Label.resetsData : Label → Bool
  | .control (.identity _ _) | .control .detach | .control .namespaceReset => true
  | _ => false

def QueueLabel.ofQueue : QueueLabel → Bool
  | .tick _ | .expireReservation | .select _ _ | .airtime _ | .finish _ | .stop | .drainReservation _ | .drainEntries
  | .start => true
  | _ => false

def checkCancels (d : Device) (s : QueueState) : Option Cancelled :=
  match s.work with
  | some (.selected k) =>
    (s.queue.entries k).bind fun e => if e.control then none else queueWorkCheck s.queue k e (entryValidLocked d e)
  | _ => none

def checkResult (d : Device) (s : QueueState) : Except Errno Unit :=
  match s.work with
  | some (.selected k) => (s.queue.entries k).elim (.ok ()) (entryValidLocked d)
  | _ => .ok ()

section
variable {n : Nat}

def Sender.queue (s : Sender n) (i : Fin n) : QueueState := s.host.at i

def Sender.transmit (s : Sender n) (i : Fin n) : Transmit := ⟨(s.queue i).queue, s.pending, s.discovery⟩

def Sender.nowMs (s : Sender n) (i : Fin n) : Nat := (s.queue i).nowMs

def Sender.report (s : Sender n) (notice : Option Notice) : Sender n := { s with notices := notice.toList ++ s.notices }

def Sender.goOn (s : Sender n) (k : Nat) (c : SendCall) (stage : SendStage) : Sender n :=
  { s with calls := s.calls.set k { c with stage := stage } }

def Sender.endCall (s : Sender n) (k : Nat) : Sender n := { s with calls := s.calls.eraseIdx k }

def Sender.withDevice (s : Sender n) (d : Device) : Sender n := { s with node := { s.node with dev := d } }

def Sender.calling (s : Sender n) (test : Caller → Bool) : Bool := s.calls.any fun c => test c.caller

variable (P : Platform) (siphash : Fin n → Octets → UInt64) (i : Fin n)

def Sender.queueOut (s : Sender n) (a : QueueLabel) : QueueOut := (queueStep (siphash i) (s.queue i) a).2

def Sender.queueDo (s : Sender n) (a : QueueLabel) : Sender n :=
  { (s.report (s.queueOut siphash i a).notice) with
    host := hostStep siphash s.host (i, a)
    trail := (a, s.queueOut siphash i a) :: s.trail }

def QueueOut.status (out : QueueOut) : Except Errno Unit := out.result.map fun _ => ()

def sendStep (s : Sender n) (k : Nat) (c : SendCall) : SendLabel → SendStage → Sender n
  | .locate, .locating => s.goOn k c (sendLocate P (s.queue i).queue c.job)
  | .enter a paceMs, .opening reservedInvalid =>
    match sendBegin P s.node.dev c.job reservedInvalid a paceMs (s.nowMs i) with
    | (d, stage) => (s.withDevice d).goOn k c stage
  | .seal fails cloned, .sealing m paceMs =>
    match sendSeal P s.node.dev c.job m paceMs fails cloned (s.nowMs i) with
    | (d, stage) => (s.withDevice d).goOn k c stage
  | .sign fails sign, .signing g => s.goOn k c (sendSign c.job g fails sign)
  | .register, .registering m frames paceMs =>
    match sendRegister s.node.dev (s.transmit i) c.job m frames paceMs (s.nowMs i) with
    | (t, stage) =>
      -- the queue is asked for the reserved slot only when a slot is free
      if (stillReaches s.node.dev c.job.destination m).isSome ∧ s.pending.free?.isSome ∧ c.job.reservation ≠ 0 then
        { (s.queueDo siphash i (.takePending c.job.reservation)) with pending := t.pending }.goOn k c stage
      else { s with pending := t.pending }.goOn k c stage
  | .enqueue up net alloc, .queueing b =>
    let r := c.job.queueRequest b
    let valid := requestValidLocked s.node.dev b.metadata r
    let a := if c.job.reservation ≠ 0 then QueueLabel.sendReserved up b.frames b.metadata r c.job.reservation valid
      else .send up net b.frames b.metadata r alloc valid
    (s.queueDo siphash i a).goOn k c (c.job.queued b (s.nowMs i) (s.queueOut siphash i a).status)
  | .forget, .forgetting messageId generation error =>
    { s with pending := pendingForget s.pending messageId generation }.goOn k c
      (c.job.conclude (s.nowMs i) (.error error))
  | .discover alloc, .discovering startMs =>
    match sendDiscover s.node.dev s.discovery c.job startMs alloc with
    | (q, stage) => { s with discovery := q }.goOn k c stage
  | .probe messageId, .probing slot =>
    match sendProbe s.node.dev slot messageId with
    | (d, stage) => (s.withDevice d).goOn k c stage
  | .announce frame up net alloc, .announcing slot _ =>
    match frame with
    | .error e => s.goOn k c (.unprobing slot e)
    | .ok (octets, metadata) =>
      let a := QueueLabel.send up net [octets] metadata controlRequest alloc (.ok ())
      (s.queueDo siphash i a).goOn k c (sendProbed slot (s.queueOut siphash i a).status)
  | .unprobe, .unprobing slot error =>
    { s with discovery := discoveryPendingClear s.discovery slot }.goOn k c (.done (.error error))
  | .finish, .done result =>
    match c.caller, result with
    | .logical, .ok () => (s.endCall k).queueDo siphash i (.cancel c.job.reservation .EINVAL false)
    | .logical, .error e => (s.endCall k).queueDo siphash i (.cancel c.job.reservation e true)
    | .discovery slot, _ =>
      match discoveryWorkFinish s.discovery slot (s.nowMs i) result with
      | (q, notice) => ({ s with discovery := q }.endCall k).report notice
    | .echo, _ => s.endCall k
  | _, _ => s

def senderStep (s : Sender n) : SenderLabel n → Sender n
  | .node a =>
    if a.ofSendPath then s
    else if a.resetsData then { s with node := step P s.node a, pending := Table.empty, discovery := {} }
    else { s with node := step P s.node a }
  | .elsewhere j a => if j = i then s else { s with host := hostStep siphash s.host (j, a) }
  | .queue a => if a.ofQueue then s.queueDo siphash i a else s
  | .check =>
    { (s.queueDo siphash i (.check (checkResult s.node.dev (s.queue i)))) with
      pending := ((checkCancels s.node.dev (s.queue i)).bind (·.pending)).elim s.pending
        fun m => dataCancelPendingLocked s.pending m.1 m.2 0 }
  | .control frame metadata up net alloc =>
    s.queueDo siphash i (.send up net [frame] metadata controlRequest alloc (.ok ()))
  | .accept m a =>
    match Submit.reserveArgs P s.node.dev s.pending m (s.messages + 1) a with
    | .error _ => s
    | .ok (args, r) =>
      match (s.queueOut siphash i (.reserve args r a.alloc)).result with
      | .error _ => s.queueDo siphash i (.reserve args r a.alloc)
      | .ok id =>
        { (s.queueDo siphash i (.reserve args r a.alloc)) with
          messages := s.messages + 1
          netlink := s.netlink ++ [⟨m, id, false⟩] }
  | .sealSkb k =>
    match s.netlink[k]? with
    | none => s
    | some c =>
      let a := QueueLabel.sealReservation c.reservation (c.submission.skb c.reservation).data
      match (s.queueOut siphash i a).result with
      | .error _ => s.queueDo siphash i a
      | .ok _ => { (s.queueDo siphash i a) with netlink := s.netlink.set k { c with sealed := true } }
  | .xmit k queued =>
    match s.netlink[k]? with
    | none => s
    | some c =>
      if c.sealed = false then s
      else
        let b := c.submission.skb c.reservation
        { s with netlink := s.netlink.eraseIdx k, logical := if queued ∧ b.valid then s.logical ++ [b] else s.logical }
  | .giveUp k error =>
    match s.netlink[k]? with
    | none => s
    | some c => { (s.queueDo siphash i (.cancel c.reservation error false)) with netlink := s.netlink.eraseIdx k }
  | .inject b => if b.valid then { s with logical := s.logical ++ [b] } else s
  | .claim =>
    if s.calling (· = .logical) then s
    else
      match s.logical with
      | [] => s
      | b :: rest =>
        let id := b.reservationId.toNat
        match (s.queueOut siphash i (.claim id b.data)).result with
        | .error _ => { (s.queueDo siphash i (.claim id b.data)) with logical := rest }
        | .ok _ =>
          let message :=
            ((reservationFindLocked (s.queue i).queue id).bind (s.queue i).queue.reservations).elim 0 (·.message)
          { (s.queueDo siphash i (.claim id b.data)) with
            logical := rest
            calls := s.calls ++
              [{ job := { submission := b.submission, reservation := id, queueDiscovery := true, message := message }
                 caller := .logical }] }
  | .logicalStop error =>
    if s.calling (· = .logical) then s
    else
      match s.logical with
      | [] => s
      | b :: rest => { (s.queueDo siphash i (.cancel b.reservationId.toNat error true)) with logical := rest }
  | .call k a =>
    match s.calls[k]? with
    | none => s
    | some c => sendStep P siphash i s k c a c.stage
  | .echo k =>
    match s.node.calls[k]? with
    | some (.echoing m) =>
      { s with
        node := { s.node with calls := s.node.calls.eraseIdx k }
        calls := s.calls ++
          [{ job := { submission := { request := echoRequest m }, queueDiscovery := false }, caller := .echo }] }
    | _ => s
  | .ack k =>
    match s.node.calls[k]? with
    | some (.ackFrame o) =>
      match ackCommit s.node.dev o, lookupPeer s.node.dev o.ack.common.sourceNativeLocator with
      | (_, .ok ()), some (_, p) =>
        match pendingAckLocked s.pending o.ack o.source o.sessionEpoch p (s.nowMs i) with
        | (pending, notice) => { s with node := step P s.node (.ackCommit k), pending := pending }.report notice
      | _, _ => { s with node := step P s.node (.ackCommit k) }
    | _ => s
  | .reliability busy fails =>
    if s.resending.isSome then s
    else
      match reliabilityScan s.node.dev (s.queue i).queue (s.nowMs i) busy (List.finRange PENDING_LIMIT) s.pending with
      | (pending, .idle) => { s with pending := pending }
      | (pending, .terminal notice) => { s with pending := pending }.report (some notice)
      | (pending, .resend p missing) =>
        { s with
          pending := pending
          resending := some ⟨resendMeta p, resendRequest p (s.nowMs i), resendFrames p missing fails⟩ }
  | .resend up net alloc =>
    match s.resending with
    | none => s
    | some r =>
      { (s.queueDo siphash i (.send up net r.frames r.metadata r.request alloc
          (requestValidLocked s.node.dev r.metadata r.request))) with resending := none }
  | .discoveryWork =>
    if s.calling (fun c => c ≠ .logical ∧ c ≠ .echo) then s
    else
      match discoveryWorkSection s.node.dev s.discovery (s.nowMs i) with
      | (q, .idle) => { s with discovery := q }
      | (q, .terminal notice) => { s with discovery := q }.report (some notice)
      | (q, .send slot p ttlMs) =>
        { s with discovery := q, calls := s.calls ++ [{ job := p.job ttlMs, caller := .discovery slot }] }
  | .queueStateChanged =>
    { (s.queueDo siphash i (.stateChanged s.node.dev)) with
      pending := (queueStatePass s.node.dev (s.transmit i)).elim s.pending (·.1.pending) }
  | .dataStateChanged =>
    match dataStatePass s.node.dev (s.nowMs i) (s.transmit i) with
    | none => s
    | some (t, notice) => { s with pending := t.pending, discovery := t.discovery }.report (some notice)
  | .failPending error =>
    match failPendingPass s.pending error with
    | none => s
    | some (pending, notice) => { s with pending := pending }.report (some notice)
  | .failDiscovery error =>
    match failDiscoveryPass s.discovery error with
    | none => s
    | some (q, notice) => { s with discovery := q }.report (some notice)

/-! ## The queues -/

/-- The batch is the one a call of the send path has ready, and `valid` what `melodi_data_queue_valid_locked` says of
it. -/
def Sender.Offers (s : Sender n) (id : Nat) (frames : List Octets) (metadata : TxMeta) (r : QueueRequest)
    (valid : Except Errno Unit) : Prop :=
  ∃ c ∈ s.calls, ∃ b, c.stage = .queueing b ∧ c.job.reservation = id ∧ frames = b.frames ∧ metadata = b.metadata ∧
    r = c.job.queueRequest b ∧ valid = requestValidLocked s.node.dev metadata r

/-- The sections of its queue that the device may run now, with the arguments it may pass. -/
def Sender.Issues (s : Sender n) : QueueLabel → Prop
  | .reserve args r _ => ∃ m a, Submit.reserveArgs P s.node.dev s.pending m (s.messages + 1) a = .ok (args, r)
  | .send _ _ frames metadata r _ valid =>
    (r = controlRequest ∧ frames.length = 1) ∨ s.Offers 0 frames metadata r valid ∨
      ∃ x, s.resending = some x ∧ frames = x.frames ∧ metadata = x.metadata ∧ r = x.request ∧
        valid = requestValidLocked s.node.dev metadata r
  | .sendReserved _ frames metadata r id valid => s.Offers id frames metadata r valid
  | .stateChanged d => d = s.node.dev
  | .check valid => valid = checkResult s.node.dev (s.queue i)
  | _ => True

/-- What a section does to the queues of the host: nothing, a section of another device, or one of this device, which
the history records. -/
inductive Sender.Runs (s s' : Sender n) : Prop where
  | idle (hhost : s'.host = s.host) (htrail : s'.trail = s.trail)
  | elsewhere (j : Fin n) (a : QueueLabel) (hj : j ≠ i) (hhost : s'.host = hostStep siphash s.host (j, a))
      (htrail : s'.trail = s.trail)
  | here (a : QueueLabel) (hissues : s.Issues P i a) (hhost : s'.host = hostStep siphash s.host (i, a))
      (htrail : s'.trail = (a, s.queueOut siphash i a) :: s.trail)

variable {P siphash i}

theorem Sender.issues_ofQueue {s : Sender n} {a : QueueLabel} (h : a.ofQueue = true) : s.Issues P i a := by
  cases a with
  | reserve | send | sendReserved | stateChanged | check => cases h
  | _ => trivial

theorem sendStep_runs (s : Sender n) (k : Nat) (c : SendCall) (hc : c ∈ s.calls) (a : SendLabel) :
    s.Runs P siphash i (sendStep P siphash i s k c a c.stage) := by
  unfold sendStep
  split
  · exact .idle rfl rfl
  · exact .idle rfl rfl
  · exact .idle rfl rfl
  · exact .idle rfl rfl
  · dsimp only
    split_ifs
    · exact .here (.takePending _) trivial rfl rfl
    · exact .idle rfl rfl
  · rename_i up net alloc b hstage
    dsimp only
    split_ifs with hr
    · exact .here (.sendReserved ..) ⟨c, hc, b, hstage, rfl, rfl, rfl, rfl, rfl⟩ rfl rfl
    · exact .here (.send ..) (.inr (.inl ⟨c, hc, b, hstage, not_not.mp hr, rfl, rfl, rfl, rfl⟩)) rfl rfl
  · exact .idle rfl rfl
  · exact .idle rfl rfl
  · exact .idle rfl rfl
  · split
    · exact .idle rfl rfl
    · exact .here (.send ..) (.inl ⟨rfl, rfl⟩) rfl rfl
  · exact .idle rfl rfl
  · split
    · exact .here (.cancel _ _ _) trivial rfl rfl
    · exact .here (.cancel _ _ _) trivial rfl rfl
    · exact .idle rfl rfl
    · exact .idle rfl rfl
  · exact .idle rfl rfl

theorem senderStep_runs (s : Sender n) (a : SenderLabel n) : s.Runs P siphash i (senderStep P siphash i s a) := by
  unfold senderStep
  split
  · split_ifs
    · exact .idle rfl rfl
    · exact .idle rfl rfl
    · exact .idle rfl rfl
  · split_ifs with hj
    · exact .idle rfl rfl
    · exact .elsewhere _ _ hj rfl rfl
  · split_ifs with ha
    · exact .here _ (Sender.issues_ofQueue ha) rfl rfl
    · exact .idle rfl rfl
  · exact .here (.check _) rfl rfl rfl
  · exact .here (.send ..) (.inl ⟨rfl, rfl⟩) rfl rfl
  · split
    · exact .idle rfl rfl
    · rename_i m a _ args r hargs
      split
      · exact .here (.reserve args r a.alloc) ⟨m, a, hargs⟩ rfl rfl
      · exact .here (.reserve args r a.alloc) ⟨m, a, hargs⟩ rfl rfl
  · split
    · exact .idle rfl rfl
    · dsimp only
      split
      · exact .here (.sealReservation _ _) trivial rfl rfl
      · exact .here (.sealReservation _ _) trivial rfl rfl
  · split
    · exact .idle rfl rfl
    · split_ifs
      · exact .idle rfl rfl
      · exact .idle rfl rfl
  · split
    · exact .idle rfl rfl
    · exact .here (.cancel _ _ _) trivial rfl rfl
  · split_ifs
    · exact .idle rfl rfl
    · exact .idle rfl rfl
  · split_ifs
    · exact .idle rfl rfl
    · split
      · exact .idle rfl rfl
      · dsimp only
        split
        · exact .here (.claim _ _) trivial rfl rfl
        · exact .here (.claim _ _) trivial rfl rfl
  · split_ifs
    · exact .idle rfl rfl
    · split
      · exact .idle rfl rfl
      · exact .here (.cancel _ _ _) trivial rfl rfl
  · split
    · exact .idle rfl rfl
    · rename_i c hc
      exact sendStep_runs _ _ c (List.mem_of_getElem? hc) _
  · split
    · exact .idle rfl rfl
    · exact .idle rfl rfl
  · split
    · split
      · exact .idle rfl rfl
      · exact .idle rfl rfl
    · exact .idle rfl rfl
  · split_ifs
    · exact .idle rfl rfl
    · split
      · exact .idle rfl rfl
      · exact .idle rfl rfl
      · exact .idle rfl rfl
  · split
    · exact .idle rfl rfl
    · rename_i x hx
      exact .here (.send ..) (.inr (.inr ⟨x, hx, rfl, rfl, rfl, rfl⟩)) rfl rfl
  · split_ifs
    · exact .idle rfl rfl
    · split
      · exact .idle rfl rfl
      · exact .idle rfl rfl
      · exact .idle rfl rfl
  · exact .here (.stateChanged _) rfl rfl rfl
  · split
    · exact .idle rfl rfl
    · exact .idle rfl rfl
  · split
    · exact .idle rfl rfl
    · exact .idle rfl rfl
  · split
    · exact .idle rfl rfl
    · exact .idle rfl rfl

theorem senderStep_good {s : Sender n} (h : HostGood s.host) (a : SenderLabel n) :
    HostGood (senderStep P siphash i s a).host := by
  have hruns : s.Runs P siphash i (senderStep P siphash i s a) := senderStep_runs s a
  cases hruns with
  | idle hhost _ => exact hhost ▸ h
  | elsewhere j a _ hhost _ => exact hhost ▸ (hostStep_good siphash h (j, a)).1
  | here a _ hhost _ => exact hhost ▸ (hostStep_good siphash h (i, a)).1

/-! ## The pending messages -/

theorem sendRegister_cases (d : Device) (t : Transmit) (j : SendJob) (m : Sealing) (frames : List Octets)
    (paceMs nowMs : Nat) : (sendRegister d t j m frames paceMs nowMs).1.pending = t.pending ∨
    ∃ p slot reliability, stillReaches d j.destination m = some p ∧ t.pending.free? = some slot ∧
      (j.reservation ≠ 0 → (reservationPending t.queue j.reservation).2 = .ok ()) ∧
      (sendRegister d t j m frames paceMs nowMs).1.pending =
        t.pending.set slot (pendingFor (j.pendingArgs p m frames paceMs) reliability nowMs) ∧
      (sendRegister d t j m frames paceMs nowMs).2 = .queueing (j.sealedBatch m frames) := by
  unfold sendRegister
  cases hp : stillReaches d j.destination m with
  | none => exact .inl rfl
  | some p =>
    dsimp only
    rcases pendingAdmitLocked_cases t (j.pendingArgs p m frames paceMs) nowMs with
      ⟨e, he, -, hsame⟩ | ⟨slot, reliability, hfree, htake, -, hok, hset⟩
    · generalize pendingAdmitLocked t (j.pendingArgs p m frames paceMs) nowMs = r at he hsame
      obtain ⟨t', result⟩ := r
      dsimp only at he hsame
      subst he
      exact .inl hsame
    · generalize pendingAdmitLocked t (j.pendingArgs p m frames paceMs) nowMs = r at hok hset
      obtain ⟨t', result⟩ := r
      dsimp only at hok hset
      subst hok
      exact .inr ⟨p, slot, reliability, rfl, hfree, htake, hset, rfl⟩

theorem sendStep_pending (s : Sender n) (k : Nat) (c : SendCall) (a : SendLabel) (ha : a ≠ .register)
    (stage : SendStage) : PendingKept s.pending (sendStep P siphash i s k c a stage).pending := by
  unfold sendStep
  split
  case h_5 => exact absurd rfl ha
  case h_7 => exact pendingForget_kept _ _ _
  case h_10 =>
    split
    · exact .refl _
    · exact .refl _
  case h_12 =>
    split
    · exact .refl _
    · exact .refl _
    · exact .refl _
    · exact .refl _
  all_goals exact .refl _

theorem senderStep_pending (s : Sender n) (a : SenderLabel n) (ha : ∀ k, a ≠ .call k .register) :
    PendingKept s.pending (senderStep P siphash i s a).pending := by
  have hdo : ∀ label, (s.queueDo siphash i label).pending = s.pending := fun _ => rfl
  have hreport : ∀ (t : Sender n) notice, (t.report notice).pending = t.pending := fun _ _ => rfl
  cases a with
  | node a =>
    unfold senderStep
    dsimp only
    split_ifs
    · exact .refl _
    · exact .empty _
    · exact .refl _
  | check =>
    unfold senderStep
    dsimp only
    cases (checkCancels s.node.dev (s.queue i)).bind (·.pending) with
    | none => exact .refl _
    | some m => exact dataCancelPendingLocked_kept _ _ _ _
  | call k label =>
    unfold senderStep
    dsimp only
    split
    · exact .refl _
    · exact sendStep_pending _ _ _ _ (fun h => ha k (h ▸ rfl)) _
  | ack k =>
    unfold senderStep
    dsimp only
    split
    · split
      · exact pendingAckLocked_kept _ _ _ _ _ _
      · exact .refl _
    · exact .refl _
  | reliability busy fails =>
    unfold senderStep
    dsimp only
    split_ifs
    · exact .refl _
    · have hscan :=
        reliabilityScan_kept s.node.dev (s.queue i).queue (s.nowMs i) busy (List.finRange PENDING_LIMIT) s.pending
      split <;> (rename_i heq; rw [heq] at hscan; exact hscan)
  | queueStateChanged =>
    unfold senderStep
    dsimp only
    cases hpass : queueStatePass s.node.dev (s.transmit i) with
    | none => exact .refl _
    | some t => exact queueStatePass_kept (s := s.transmit i) hpass
  | dataStateChanged =>
    unfold senderStep
    dsimp only
    split
    · exact .refl _
    · rename_i t notice hpass
      exact dataStatePass_kept (s := s.transmit i) hpass
  | failPending error =>
    unfold senderStep
    dsimp only
    split
    · exact .refl _
    · rename_i hpass
      exact failPendingPass_kept hpass
  | _ =>
    -- the other sections leave the table alone
    unfold senderStep
    dsimp only
    repeat' split
    all_goals try simp only [hdo, hreport]
    all_goals exact .refl s.pending

end

/-! ## One message -/

namespace Scenario

def online : List (SenderLabel 1) := established.map .node ++ [.queue .start]

def submission (flags : UInt32) : Submission := ⟨{ request with flags := flags }, 3, 1, 1⟩

def handIn (m : Submission) : List (SenderLabel 1) :=
  [.accept m ⟨true, 0, 200, true⟩, .sealSkb 0, .xmit 0 true, .claim]

def sends : List (SenderLabel 1) :=
  [.call 0 .locate, .call 0 (.enter ambient 0), .call 0 (.seal (fun _ => false) true), .call 0 .register,
    .call 0 (.enqueue true 0 true)]

def waiting : List (SenderLabel 1) :=
  (established.take 3).map .node ++ [.queue .start] ++ handIn (submission (F_RELIABLE ||| F_AUTH_REQUIRED)) ++
    [.call 0 .locate, .call 0 (.enter ambient 0), .call 0 (.discover true), .call 0 (.probe 1),
      .call 0 (.announce (.ok ([1], {})) true 0 true), .call 0 .finish]

def found : List (SenderLabel 1) := (established.drop 3).map .node

def digest : Fin 1 → Octets → UInt64 := fun _ data => data.foldl (fun h octet => 31 * h + octet.toUInt64) 17

end Scenario
end Melodi
