import Melodi.Lib.Run
import Melodi.Core.Send
import Melodi.Core.Control

/-!
# One device at lock granularity

The state is the record of the device, the bindings of the applications, the calls that are between two critical
sections, and the batch the reassembly work is handing over. A label is one critical section of one call, with
everything the program does not decide: the frame that arrives, the clocks, the results of allocations and of the
layers below, the random numbers. A label that names no call in the right stage changes nothing.
-/

namespace Melodi
open Lib

/-! ## Control operations -/

/-- The operations on identity, link, policy and peers. -/
inductive Control where
  | hello (h : WireHello) (link : RxMeta) (verified : Bool) (jiffies : UInt64)
  | control (c : WireControl) (link : RxMeta) (verified : Bool) (jiffies : UInt64)
  | sendChallenge (h : WireHello) (draw : ChallengeDraw)
  | challenge (auth : WireAuth) (link : RxMeta) (verified : Bool) (secret : Octets)
  | response (auth : WireAuth) (link : RxMeta) (verified : Bool)
  | announce (challenge : Octets) (messageId : UInt64)
  | announceSent (round : UInt32)
  | probe (messageId : UInt64)
  | expiry (jiffies : UInt64)
  | identity (o : IdentityOpened) (configure : Bool)
  | link (ready : Bool) (locator : UInt32)
  | linkFailed
  | configure (transport : Bool)
  | detach
  | namespaceReset
  | policyPeer (node : NodeId) (state : PolicyPeerState)
  | policyClear (node : NodeId)
  | policyService (service : UInt16) (action : PolicyAction)
  | policyBroadcast (allowed : Bool)
  | policyMode (mode : PolicyMode)
  | policyReset
  | reverify (node : NodeId)
  | sendBroadcast (r : SendRequest) (a : SendAmbient)

def controlStep (P : Platform) (d : Device) : Control → Device
  | .hello h link verified jiffies => (receiveHello P d h link verified jiffies).1
  | .control c link verified jiffies => (receiveControl P d c link verified jiffies).1
  | .sendChallenge h draw => (Melodi.sendChallenge P d h draw).1
  | .challenge auth link verified secret => (receiveChallenge P d auth link verified secret).1
  | .response auth link verified => (receiveResponse P d auth link verified).1
  | .announce challenge messageId => (discoveryAnnounce d challenge messageId).1
  | .announceSent round => Melodi.announceSent d round
  | .probe messageId => (discoveryProbe d messageId).1
  | .expiry jiffies => peerExpiryWork d jiffies
  | .identity o configure => identityCommit d o configure
  | .link ready locator => linkReady d ready locator
  | .linkFailed => Melodi.linkFailed d
  | .configure transport => (transportConfigure d transport).1
  | .detach => detachReset d
  | .namespaceReset => Melodi.namespaceReset d
  | .policyPeer node state => (policySetPeer P d node state).1
  | .policyClear node => (policyClearPeer P d node).1
  | .policyService service action => (policySetService d service action).1
  | .policyBroadcast allowed => policySetBroadcast d allowed
  | .policyMode mode => policySetMode d mode
  | .policyReset => Melodi.policyReset d
  | .reverify node => (policyReverifyPeer P d node).1
  | .sendBroadcast r a => (broadcastSend d r a).1

/-! ## Calls -/

/-- Where a call is that has released the lock. -/
inductive Call where
  | unicast (o : Opened)
  | broadcast (o : BroadcastOpened)
  | broadcastMarked (o : BroadcastOpened) (t : Token)
  | delivering (batch : List OrderMessage) (plan : AckPlan)
  | handing (m : Complete) (h : WireData) (sessionEpoch : UInt64) (bitmap : BitVec 64)
  | echoing (m : Complete)
  | receipt (plan : AckPlan)
  | acking (plan : AckPlan)
  | ackFrame (o : AckOpened)
  | sealing (s : Sealing)

def afterOutcome (h : WireData) (source : NodeId) (sessionEpoch : UInt64) : Outcome → List Call
  | .again bitmap status => [.acking ⟨h, source, sessionEpoch, bitmap, status, false⟩]
  | .incomplete bitmap =>
    if h.isReliable then [.acking ⟨h, source, sessionEpoch, bitmap, .PARTIAL, false⟩] else []
  | .ordered m bitmap (.ok batch) => [.delivering batch ⟨h, m.source, sessionEpoch, bitmap, .COMPLETE, true⟩]
  | .ordered m bitmap (.error _) => [.receipt ⟨h, m.source, sessionEpoch, bitmap, .REJECTED, true⟩]
  | .whole m bitmap =>
    if m.destinationService = SERVICE_ECHO then [.echoing m] else [.handing m h sessionEpoch bitmap]

def afterHandOver (m : Complete) (h : WireData) (sessionEpoch : UInt64) (bitmap : BitVec 64)
    (result : Except Errno Unit) : List Call :=
  if h.isReliable then
    [.receipt ⟨h, m.source, sessionEpoch, bitmap, if result.isOk then .COMPLETE else .REJECTED, true⟩]
  else []

def echoRequest (m : Complete) : SendRequest where
  destination := some m.source
  sourceService := SERVICE_ECHO
  destinationService := m.sourceService
  payload := m.payload
  flags := F_AUTH_REQUIRED
  ttlMs := TTL_DEFAULT_MS
  priority := 1

/-! ## The machine -/

/-- A device, its bindings, the calls between two critical sections, and the batch of the reassembly work. -/
structure Node where
  dev : Device
  bindings : List Binding := []
  calls : List Call := []
  worker : Option (List OrderMessage) := none

def Node.initial : Node := { dev := {} }

/-- A critical section and everything it does not choose itself: frames, answers of allocations, times. -/
inductive Label where
  | control (c : Control)
  | bind (bindings : List Binding)
  | rxData (frame : Octets) (link : RxMeta) (allocBatch allocBuffers allocSigning : Bool)
  | commit (i : Nat) (a : Ambient)
  | mark (i : Nat) (allocPlaintext : Bool)
  | admitBroadcast (i : Nat) (a : Ambient)
  | deliver (i : Nat) (result : Except Errno Unit)
  | echo (i : Nat) (a : SendAmbient)
  | store (i : Nat) (jiffies : UInt64)
  | sendAck (i : Nat) (queued : Except Errno Unit)
  | rxAck (frame : Octets) (link : RxMeta)
  | ackCommit (i : Nat)
  | work (alloc : Bool) (jiffies bootNs : UInt64)
  | workDeliver (result : Except Errno Unit)
  | send (r : SendRequest) (a : SendAmbient)
  | sealMessage (i : Nat) (fails : Nat → Bool)

def rxDataOpen (P : Platform) (d : Device) (frame : Octets) (link : RxMeta)
    (allocBatch allocBuffers allocSigning : Bool) : Except Errno Call :=
  match wireDecodeData frame with
  | .error e => .error e
  | .ok (h, ciphertext) =>
    match dataHeaderValid h with
    | .error e => .error e
    | .ok () =>
      if h.isOrdered ∧ allocBatch = false then .error .ENOMEM
      else if h.isBroadcast then (broadcastOpen P d frame link allocSigning).map .broadcast
      else if allocBuffers = false then .error .ENOMEM
      else (dataOpen P d frame h ciphertext link).map .unicast

def reassemblyWork (d : Device) (jiffies : UInt64) (nowMs : Nat) : Device × List OrderMessage :=
  let r := orderPollLocked (reassemblyExpire d.rx jiffies) nowMs
  ({ d with rx := r.1 }, match r.2 with | .ok batch => batch | .error _ => [])

def callStep (P : Platform) (bindings : List Binding) (d : Device) : Label → Call → Option (Device × List Call)
  | .commit _ a, .unicast o =>
    match dataCommit P d o a with
    | (d, .error _) => some (d, [])
    | (d, .ok r) => some (d, afterOutcome o.header o.source o.sessionEpoch r)
  | .mark _ alloc, .broadcast o =>
    match broadcastMark d o alloc with
    | (d, .error _) => some (d, [])
    | (d, .ok t) => some (d, [.broadcastMarked o t])
  | .admitBroadcast _ a, .broadcastMarked o t =>
    match broadcastAdmit P d o t a with
    | (d, .error _) => some (d, [])
    | (d, .ok r) => some (d, afterOutcome o.header o.source 0 r)
  | .deliver _ result, .delivering (m :: batch) plan =>
    some (handOver bindings d m.message result, [.delivering batch plan])
  | .deliver _ _, .delivering [] plan => some (d, [.receipt plan])
  | .deliver _ result, .handing m h sessionEpoch bitmap =>
    some (handOver bindings d m result, afterHandOver m h sessionEpoch bitmap (netlinkReceive bindings m result))
  | .echo _ a, .echoing m =>
    match sendOpen P d (echoRequest m) a with
    | (d, .error _) => some (d, [])
    | (d, .ok s) => some (d, [.sealing s])
  | .store _ jiffies, .receipt plan => some ((receiptSection P d plan jiffies).1, [.acking plan])
  | .sendAck _ queued, .acking plan => some ((dataSendAck d plan.header plan.bitmap plan.status queued).1, [])
  | .ackCommit _, .ackFrame o => some ((Melodi.ackCommit d o).1, [])
  | .sealMessage _ fails, .sealing s => some ((sealFrames P s fails 0 s.count d).1, [])
  | _, _ => none

def Label.index : Label → Option Nat
  | .commit i _ => some i
  | .mark i _ => some i
  | .admitBroadcast i _ => some i
  | .deliver i _ => some i
  | .echo i _ => some i
  | .store i _ => some i
  | .sendAck i _ => some i
  | .ackCommit i => some i
  | .sealMessage i _ => some i
  | _ => none

def stageStep (P : Platform) (s : Node) (a : Label) : Node :=
  match a.index.bind fun i => (s.calls[i]?).map (i, ·) with
  | none => s
  | some (i, c) =>
    match callStep P s.bindings s.dev a c with
    | none => s
    | some (d, next) => { s with dev := d, calls := s.calls.eraseIdx i ++ next }

def step (P : Platform) (s : Node) : Label → Node
  | .control c => { s with dev := controlStep P s.dev c }
  | .bind bindings => { s with bindings := bindings }
  | .rxData frame link allocBatch allocBuffers allocSigning =>
    match rxDataOpen P s.dev frame link allocBatch allocBuffers allocSigning with
    | .error _ => s
    | .ok c => { s with calls := s.calls ++ [c] }
  | .rxAck frame link =>
    match ackOpen P s.dev frame link with
    | .error _ => s
    | .ok o => { s with calls := s.calls ++ [.ackFrame o] }
  | .work alloc jiffies bootNs =>
    if alloc = false ∨ s.worker.isSome then s
    else
      let r := reassemblyWork s.dev jiffies (reliabilityNow bootNs)
      { s with dev := r.1, worker := some r.2 }
  | .workDeliver result =>
    match s.worker with
    | none => s
    | some [] => { s with worker := none }
    | some (m :: batch) => { s with dev := handOver s.bindings s.dev m.message result, worker := some batch }
  | .send r a =>
    match sendOpen P s.dev r a with
    | (d, .error _) => { s with dev := d }
    | (d, .ok sealing) => { s with dev := d, calls := s.calls ++ [.sealing sealing] }
  | a => stageStep P s a

/-! ## What one step does -/

/-- What a section of a call does, and what the call does next. -/
inductive Stage (P : Platform) (bindings : List Binding) (d : Device) : Label → Call → Device → List Call → Prop where
  | commitFailed {i a o d' e} (h : dataCommit P d o a = (d', .error e)) :
      Stage P bindings d (.commit i a) (.unicast o) d' []
  | commit {i a o d' r} (h : dataCommit P d o a = (d', .ok r)) :
      Stage P bindings d (.commit i a) (.unicast o) d' (afterOutcome o.header o.source o.sessionEpoch r)
  | markFailed {i alloc o d' e} (h : broadcastMark d o alloc = (d', .error e)) :
      Stage P bindings d (.mark i alloc) (.broadcast o) d' []
  | mark {i alloc o d' t} (h : broadcastMark d o alloc = (d', .ok t)) :
      Stage P bindings d (.mark i alloc) (.broadcast o) d' [.broadcastMarked o t]
  | admitFailed {i a o t d' e} (h : broadcastAdmit P d o t a = (d', .error e)) :
      Stage P bindings d (.admitBroadcast i a) (.broadcastMarked o t) d' []
  | admitBroadcast {i a o t d' r} (h : broadcastAdmit P d o t a = (d', .ok r)) :
      Stage P bindings d (.admitBroadcast i a) (.broadcastMarked o t) d' (afterOutcome o.header o.source 0 r)
  | deliver {i result m batch plan} :
      Stage P bindings d (.deliver i result) (.delivering (m :: batch) plan) (handOver bindings d m.message result)
        [.delivering batch plan]
  | delivered {i result plan} : Stage P bindings d (.deliver i result) (.delivering [] plan) d [.receipt plan]
  | hand {i result m h sessionEpoch bitmap} :
      Stage P bindings d (.deliver i result) (.handing m h sessionEpoch bitmap) (handOver bindings d m result)
        (afterHandOver m h sessionEpoch bitmap (netlinkReceive bindings m result))
  | echoFailed {i a m d' e} (h : sendOpen P d (echoRequest m) a = (d', .error e)) :
      Stage P bindings d (.echo i a) (.echoing m) d' []
  | echo {i a m d' s} (h : sendOpen P d (echoRequest m) a = (d', .ok s)) :
      Stage P bindings d (.echo i a) (.echoing m) d' [.sealing s]
  | store {i jiffies plan} :
      Stage P bindings d (.store i jiffies) (.receipt plan) (receiptSection P d plan jiffies).1 [.acking plan]
  | sendAck {i queued plan} :
      Stage P bindings d (.sendAck i queued) (.acking plan)
        (dataSendAck d plan.header plan.bitmap plan.status queued).1 []
  | ackCommit {i o} : Stage P bindings d (.ackCommit i) (.ackFrame o) (Melodi.ackCommit d o).1 []
  | sealed {i fails s} : Stage P bindings d (.sealMessage i fails) (.sealing s) (sealFrames P s fails 0 s.count d).1 []

theorem callStep_stage {P : Platform} {bindings : List Binding} {d d' : Device} {a : Label} {c : Call}
    {next : List Call} (h : callStep P bindings d a c = some (d', next)) : Stage P bindings d a c d' next := by
  unfold callStep at h
  split at h
  · split at h <;> (rename_i hr; obtain ⟨rfl, rfl⟩ := Prod.mk.inj (Option.some.inj h))
    · exact .commitFailed hr
    · exact .commit hr
  · split at h <;> (rename_i hr; obtain ⟨rfl, rfl⟩ := Prod.mk.inj (Option.some.inj h))
    · exact .markFailed hr
    · exact .mark hr
  · split at h <;> (rename_i hr; obtain ⟨rfl, rfl⟩ := Prod.mk.inj (Option.some.inj h))
    · exact .admitFailed hr
    · exact .admitBroadcast hr
  · obtain ⟨rfl, rfl⟩ := Prod.mk.inj (Option.some.inj h)
    exact .deliver
  · obtain ⟨rfl, rfl⟩ := Prod.mk.inj (Option.some.inj h)
    exact .delivered
  · obtain ⟨rfl, rfl⟩ := Prod.mk.inj (Option.some.inj h)
    exact .hand
  · split at h <;> (rename_i hr; obtain ⟨rfl, rfl⟩ := Prod.mk.inj (Option.some.inj h))
    · exact .echoFailed hr
    · exact .echo hr
  · obtain ⟨rfl, rfl⟩ := Prod.mk.inj (Option.some.inj h)
    exact .store
  · obtain ⟨rfl, rfl⟩ := Prod.mk.inj (Option.some.inj h)
    exact .sendAck
  · obtain ⟨rfl, rfl⟩ := Prod.mk.inj (Option.some.inj h)
    exact .ackCommit
  · obtain ⟨rfl, rfl⟩ := Prod.mk.inj (Option.some.inj h)
    exact .sealed
  · cases h

theorem rxDataOpen_cases {P : Platform} {d : Device} {frame : Octets} {link : RxMeta}
    {allocBatch allocBuffers allocSigning : Bool} {c : Call}
    (h : rxDataOpen P d frame link allocBatch allocBuffers allocSigning = .ok c) :
    (∃ o, c = .broadcast o ∧ broadcastOpen P d frame link allocSigning = .ok o) ∨
    ∃ o hdr ciphertext, c = .unicast o ∧ wireDecodeData frame = .ok (hdr, ciphertext) ∧
      dataHeaderValid hdr = .ok () ∧ dataOpen P d frame hdr ciphertext link = .ok o := by
  unfold rxDataOpen at h
  repeat' split at h
  all_goals try cases h
  · cases hb : broadcastOpen P d frame link allocSigning with
    | error e => simp [hb, Except.map] at h
    | ok o =>
      simp only [hb, Except.map, Except.ok.injEq] at h
      exact .inl ⟨o, h.symm, rfl⟩
  · rename_i hdr ciphertext hdec _ hvalid _ _ _
    cases hb : dataOpen P d frame hdr ciphertext link with
    | error e => simp [hb, Except.map] at h
    | ok o =>
      simp only [hb, Except.map, Except.ok.injEq] at h
      exact .inr ⟨o, hdr, ciphertext, h.symm, hdec, hvalid, hb⟩

/-- What a section can do to the node. -/
inductive Moves (P : Platform) (s : Node) : Label → Node → Prop where
  | stay {a} : Moves P s a s
  | control {c} : Moves P s (.control c) { s with dev := controlStep P s.dev c }
  | bind {bindings} : Moves P s (.bind bindings) { s with bindings := bindings }
  | rxData {frame link allocBatch allocBuffers allocSigning c}
      (h : rxDataOpen P s.dev frame link allocBatch allocBuffers allocSigning = .ok c) :
      Moves P s (.rxData frame link allocBatch allocBuffers allocSigning) { s with calls := s.calls ++ [c] }
  | rxAck {frame link o} (h : ackOpen P s.dev frame link = .ok o) :
      Moves P s (.rxAck frame link) { s with calls := s.calls ++ [.ackFrame o] }
  | stage {a i c d next} (hi : a.index = some i) (hc : s.calls[i]? = some c)
      (h : Stage P s.bindings s.dev a c d next) :
      Moves P s a { s with dev := d, calls := s.calls.eraseIdx i ++ next }
  | work {jiffies bootNs} (hidle : s.worker = none) :
      Moves P s (.work true jiffies bootNs)
        { s with
          dev := (reassemblyWork s.dev jiffies (reliabilityNow bootNs)).1
          worker := some (reassemblyWork s.dev jiffies (reliabilityNow bootNs)).2 }
  | workDone {result} (h : s.worker = some []) : Moves P s (.workDeliver result) { s with worker := none }
  | workDeliver {result m batch} (h : s.worker = some (m :: batch)) :
      Moves P s (.workDeliver result)
        { s with dev := handOver s.bindings s.dev m.message result, worker := some batch }
  | sendFailed {r a d e} (h : sendOpen P s.dev r a = (d, .error e)) : Moves P s (.send r a) { s with dev := d }
  | send {r a d sealing} (h : sendOpen P s.dev r a = (d, .ok sealing)) :
      Moves P s (.send r a) { s with dev := d, calls := s.calls ++ [.sealing sealing] }

theorem stageStep_moves (P : Platform) (s : Node) (a : Label) : Moves P s a (stageStep P s a) := by
  unfold stageStep
  cases hf : a.index.bind fun i => (s.calls[i]?).map (i, ·) with
  | none => exact .stay
  | some ic =>
    obtain ⟨i, c⟩ := ic
    simp only [Option.bind_eq_some_iff, Option.map_eq_some_iff, Prod.mk.injEq] at hf
    obtain ⟨j, hi, c', hc, rfl, rfl⟩ := hf
    dsimp only
    split
    · exact .stay
    · exact .stage hi hc (callStep_stage ‹_›)

theorem step_moves (P : Platform) (s : Node) (a : Label) : Moves P s a (step P s a) := by
  cases a with
  | control c => exact .control
  | bind bindings => exact .bind
  | rxData frame link allocBatch allocBuffers allocSigning =>
    unfold step
    dsimp only
    split
    · exact .stay
    · exact .rxData ‹_›
  | rxAck frame link =>
    unfold step
    dsimp only
    split
    · exact .stay
    · exact .rxAck ‹_›
  | work alloc jiffies bootNs =>
    unfold step
    dsimp only
    split_ifs with h
    · exact .stay
    · simp only [not_or, Bool.not_eq_false, Bool.not_eq_true, Option.isSome_eq_false_iff, Option.isNone_iff_eq_none]
        at h
      obtain ⟨rfl, hidle⟩ := h
      exact .work hidle
  | workDeliver result =>
    unfold step
    dsimp only
    split
    · exact .stay
    · exact .workDone ‹_›
    · exact .workDeliver ‹_›
  | send r a =>
    unfold step
    dsimp only
    split
    · exact .sendFailed ‹_›
    · exact .send ‹_›
  | commit i a => exact stageStep_moves P s _
  | mark i alloc => exact stageStep_moves P s _
  | admitBroadcast i a => exact stageStep_moves P s _
  | deliver i result => exact stageStep_moves P s _
  | echo i a => exact stageStep_moves P s _
  | store i jiffies => exact stageStep_moves P s _
  | sendAck i queued => exact stageStep_moves P s _
  | ackCommit i => exact stageStep_moves P s _
  | sealMessage i fails => exact stageStep_moves P s _

/-! ## A device with one peer -/

def sentFrames (P : Platform) (d : Device) (r : SendRequest) (a : SendAmbient) : List Octets :=
  match sendOpen P d r a with
  | (_, .error _) => []
  | (d', .ok s) =>
    match (sealFrames P s (fun _ => false) 0 s.count d').2 with
    | .error _ => []
    | .ok frames => frames

namespace Scenario

def here : NodeId := 1 :: List.replicate 32 7

def there : NodeId := 1 :: List.replicate 32 9

def link : RxMeta := { sourceLocator := 2, destinationLocator := 1 }

def hello (counter : UInt64) : WireHello where
  common := { sourceNativeLocator := 9, identityGeneration := 1, counter := counter }
  nodeId := there
  meshDomain := zero32
  collisionRound := 0
  expirySeconds := 300
  challenge := [3]

def challenge (counter : UInt64) : WireAuth where
  common :=
    { frameClass := WIRE_CHALLENGE, sourceNativeLocator := 9, destinationNativeLocator := 7, identityGeneration := 1,
      counter := counter }
  sourceNodeId := there
  destinationNodeId := here
  ephemeralKey := [4]
  challenge := [6]
  replyTo := [5]
  meshDomain := zero32
  collisionRound := 0

def established : List Label :=
  [.bind [⟨6, 1, 1⟩], .control (.identity ⟨here, 1, 7, 0, false, false⟩ false), .control (.link true 1),
    .control (.hello (hello 1) link true 0), .control (.announce [5] 1),
    .control (.challenge (challenge 2) link true [8])]

def request : SendRequest := ⟨some there, 5, 6, [1, 2, 3], F_AUTH_REQUIRED, 1000, 1⟩

def ambient : SendAmbient := ⟨200, true, false, ⟨77, by decide⟩⟩

def linkBack : RxMeta := { sourceLocator := 1, destinationLocator := 2 }

def helloBack : WireHello where
  common := { sourceNativeLocator := 7, identityGeneration := 1, counter := 1 }
  nodeId := here
  meshDomain := zero32
  collisionRound := 0
  expirySeconds := 300
  challenge := [5]

def responseBack : WireAuth where
  common :=
    { frameClass := WIRE_RESPONSE, sourceNativeLocator := 7, destinationNativeLocator := 9, identityGeneration := 1,
      counter := 2 }
  sourceNodeId := here
  destinationNodeId := there
  ephemeralKey := [8]
  challenge := [5]
  replyTo := [6]
  meshDomain := zero32
  collisionRound := 0

def partner : List Label :=
  [.control (.identity ⟨there, 1, 9, 0, false, false⟩ false), .control (.link true 2),
    .control (.hello helloBack linkBack true 0), .control (.sendChallenge helloBack ⟨[4], [6], 2⟩),
    .control (.response responseBack linkBack true)]

def reliably (payload : Octets) : SendRequest := ⟨some here, 5, 6, payload, F_AUTH_REQUIRED ||| F_RELIABLE, 1000, 1⟩

def sameId : SendAmbient := { ambient with frameMtu := 84 }

-- The partner after a first message, and the message of three fragments it sends next.
def sending : Device := (run (step Platform.plain) Node.initial (partner ++ [.send (reliably [1]) sameId])).dev

def longRequest : SendRequest := reliably [1, 2, 3, 4, 5, 6, 7, 8, 9]

def longFrames : List Octets := sentFrames Platform.plain sending longRequest sameId

def arrives (frame : Octets) : List Label := [.rxData frame link true true true, .commit 0 ⟨0, 0, true⟩]

end Scenario

end Melodi
