import Melodi.System.Node

/-!
# Whole calls

`melodi_data_receive` and `melodi_reassembly_work` from entry to return, as the sections of `Node` run one after the
other with nothing in between.
-/

namespace Melodi
open Lib

structure Resources where
  allocBatch : Bool := true
  allocBuffers : Bool := true
  allocSigning : Bool := true
  allocPlaintext : Bool := true
  ambient : Ambient
  results : Nat → Except Errno Unit := fun _ => .ok ()
  echo : SendAmbient
  sealFails : Nat → Bool := fun _ => false
  echoQueued : Except Errno Unit := .ok ()
  storeJiffies : UInt64
  queued : Except Errno Unit := .ok ()

def firstError (first second : Except Errno Unit) : Except Errno Unit :=
  match first with
  | .error e => .error e
  | .ok () => second

def orderDeliver (bindings : List Binding) (results : Nat → Except Errno Unit) :
    Nat → List OrderMessage → Device → Device
  | _, [], d => d
  | n, m :: batch, d => orderDeliver bindings results (n + 1) batch (handOver bindings d m.message (results n))

def dataAcknowledge (P : Platform) (d : Device) (plan : AckPlan) (r : Resources) (error : Except Errno Unit) :
    Device × Except Errno Unit :=
  let stored := if plan.receipt then receiptSection P d plan r.storeJiffies else (d, .ok ())
  let sent := dataSendAck stored.1 plan.header plan.bitmap plan.status r.queued
  (sent.1, firstError (firstError error stored.2) sent.2)

def dataEcho (P : Platform) (d : Device) (m : Complete) (r : Resources) : Device × Except Errno Unit :=
  match sendOpen P d (echoRequest m) r.echo with
  | (d, .error e) => (d, .error e)
  | (d, .ok s) =>
    match sealFrames P s r.sealFails 0 s.count d with
    | (d, .error e) => (d, .error e)
    | (d, .ok _) => (d, r.echoQueued)

def dataFinish (P : Platform) (bindings : List Binding) (d : Device) (h : WireData) (source : NodeId)
    (sessionEpoch : UInt64) (r : Resources) : Outcome → Device × Except Errno Unit
  | .again bitmap status => dataSendAck d h bitmap status r.queued
  | .incomplete bitmap =>
    if h.isReliable then dataAcknowledge P d ⟨h, source, sessionEpoch, bitmap, .PARTIAL, false⟩ r (.ok ())
    else (d, .ok ())
  | .ordered m bitmap (.ok batch) =>
    dataAcknowledge P (orderDeliver bindings r.results 0 batch d) ⟨h, m.source, sessionEpoch, bitmap, .COMPLETE, true⟩ r
      (.ok ())
  | .ordered m bitmap (.error e) =>
    dataAcknowledge P d ⟨h, m.source, sessionEpoch, bitmap, .REJECTED, true⟩ r (.error e)
  | .whole m bitmap =>
    if m.destinationService = SERVICE_ECHO then dataEcho P d m r
    else
      let result := netlinkReceive bindings m (r.results 0)
      let d := handOver bindings d m (r.results 0)
      if h.isReliable then
        dataAcknowledge P d ⟨h, m.source, sessionEpoch, bitmap, if result.isOk then .COMPLETE else .REJECTED, true⟩ r
          result
      else (d, result)

/-- `melodi_data_receive` for the frame of an opened call, up to the unlock: its header, source and epoch, and the
outcome. -/
def dataAccept (P : Platform) (d : Device) (r : Resources) : Call →
    Device × Except Errno (WireData × NodeId × UInt64 × Outcome)
  | .unicast o =>
    match dataCommit P d o r.ambient with
    | (d, .error e) => (d, .error e)
    | (d, .ok outcome) => (d, .ok (o.header, o.source, o.sessionEpoch, outcome))
  | .broadcast o =>
    match broadcastMark d o r.allocPlaintext with
    | (d, .error e) => (d, .error e)
    | (d, .ok t) =>
      match broadcastAdmit P d o t r.ambient with
      | (d, .error e) => (d, .error e)
      | (d, .ok outcome) => (d, .ok (o.header, o.source, 0, outcome))
  | _ => (d, .error .EPROTO)

def dataReceive (P : Platform) (bindings : List Binding) (d : Device) (frame : Octets) (link : RxMeta) (r : Resources) :
    Device × Except Errno Unit :=
  match rxDataOpen P d frame link r.allocBatch r.allocBuffers r.allocSigning with
  | .error e => (d, .error e)
  | .ok c =>
    match dataAccept P d r c with
    | (d, .error e) => (d, .error e)
    | (d, .ok (h, source, sessionEpoch, outcome)) => dataFinish P bindings d h source sessionEpoch r outcome

/-! ## A call is a run of the machine -/

/-- The calls `cs` can run to their end with nothing in between, and leave the device `d'`. -/
def Completes (P : Platform) (bindings : List Binding) (w : Option (List OrderMessage)) (d : Device) (cs : List Call)
    (d' : Device) : Prop :=
  ∃ as, run (step P) ⟨d, bindings, cs, w⟩ as = ⟨d', bindings, [], w⟩

section
variable {P : Platform} {bindings : List Binding} {w : Option (List OrderMessage)} {d d' d'' : Device}

theorem step_index {s : Node} {a : Label} {i : Nat} (h : a.index = some i) : step P s a = stageStep P s a := by
  cases a <;> first | rfl | cases h

theorem Completes.nil : Completes P bindings w d [] d := ⟨[], rfl⟩

theorem Completes.stage {a : Label} {c : Call} {next : List Call} (hi : a.index = some 0)
    (hstage : callStep P bindings d a c = some (d', next)) (h : Completes P bindings w d' next d'') :
    Completes P bindings w d [c] d'' := by
  obtain ⟨as, has⟩ := h
  refine ⟨a :: as, ?_⟩
  rw [run_cons, step_index hi, stageStep]
  simpa [hi, hstage] using has

theorem Completes.acking (plan : AckPlan) (queued : Except Errno Unit) :
    Completes P bindings w d [.acking plan] (dataSendAck d plan.header plan.bitmap plan.status queued).1 :=
  .stage (a := .sendAck 0 queued) rfl rfl .nil

theorem Completes.receipt (plan : AckPlan) (jiffies : UInt64) (queued : Except Errno Unit) :
    Completes P bindings w d [.receipt plan]
      (dataSendAck (receiptSection P d plan jiffies).1 plan.header plan.bitmap plan.status queued).1 :=
  .stage (a := .store 0 jiffies) rfl rfl (.acking plan queued)

theorem Completes.delivering (plan : AckPlan) (results : Nat → Except Errno Unit) (n : Nat) (batch : List OrderMessage)
    (h : Completes P bindings w (orderDeliver bindings results n batch d) [.receipt plan] d') :
    Completes P bindings w d [.delivering batch plan] d' := by
  induction batch generalizing d n with
  | nil => exact .stage (a := .deliver 0 (.ok ())) rfl rfl h
  | cons m batch ih => exact .stage (a := .deliver 0 (results n)) rfl rfl (ih (n + 1) h)

theorem dataEcho_completes (m : Complete) (r : Resources) :
    Completes P bindings w d [.echoing m] (dataEcho P d m r).1 := by
  unfold dataEcho
  cases hs : sendOpen P d (echoRequest m) r.echo with
  | mk d₁ res =>
    cases res with
    | error e => exact .stage (a := .echo 0 r.echo) rfl (by simp only [callStep, hs]) .nil
    | ok s =>
      have hopen : callStep P bindings d (.echo 0 r.echo) (.echoing m) = some (d₁, [.sealing s]) := by
        simp only [callStep, hs]
      refine .stage (a := .echo 0 r.echo) rfl hopen (.stage (a := .sealMessage 0 r.sealFails) rfl rfl ?_)
      dsimp only
      split <;> rename_i hf <;> rw [hf] <;> exact .nil

theorem dataFinish_completes (h : WireData) (source : NodeId) (sessionEpoch : UInt64) (r : Resources)
    (outcome : Outcome) :
    Completes P bindings w d (afterOutcome h source sessionEpoch outcome)
      (dataFinish P bindings d h source sessionEpoch r outcome).1 := by
  cases outcome with
  | again bitmap status => exact .acking _ _
  | incomplete bitmap =>
    simp only [afterOutcome, dataFinish]
    split
    · exact .acking _ _
    · exact .nil
  | ordered m bitmap batch =>
    cases batch with
    | error e => exact .receipt _ _ _
    | ok batch => exact .delivering _ r.results 0 batch (.receipt _ _ _)
  | whole m bitmap =>
    simp only [afterOutcome, dataFinish]
    split
    · exact dataEcho_completes m r
    refine .stage (a := .deliver 0 (r.results 0)) rfl rfl ?_
    unfold afterHandOver
    split
    · exact .receipt _ _ _
    · exact .nil

/-- What a call goes on with once its frame is accepted. -/
def afterAccept : Except Errno (WireData × NodeId × UInt64 × Outcome) → List Call
  | .error _ => []
  | .ok (h, source, sessionEpoch, outcome) => afterOutcome h source sessionEpoch outcome

theorem dataAccept_completes (r : Resources) {c : Call} (hc : (∃ o, c = .broadcast o) ∨ ∃ o, c = .unicast o)
    (h : Completes P bindings w (dataAccept P d r c).1 (afterAccept (dataAccept P d r c).2) d') :
    Completes P bindings w d [c] d' := by
  rcases hc with ⟨o, rfl⟩ | ⟨o, rfl⟩
  · rcases hmark : broadcastMark d o r.allocPlaintext with ⟨d₁, e | t⟩
    · simp only [dataAccept, hmark, afterAccept] at h
      exact .stage (a := .mark 0 r.allocPlaintext) rfl (by simp only [callStep, hmark]) h
    · have hnext : Completes P bindings w d₁ [.broadcastMarked o t] d' := by
        rcases hadm : broadcastAdmit P d₁ o t r.ambient with ⟨d₂, e | outcome⟩ <;>
          simp only [dataAccept, hmark, hadm, afterAccept] at h <;>
          exact .stage (a := .admitBroadcast 0 r.ambient) rfl (by simp only [callStep, hadm]) h
      exact .stage (a := .mark 0 r.allocPlaintext) rfl (by simp only [callStep, hmark]) hnext
  · rcases hcommit : dataCommit P d o r.ambient with ⟨d₁, e | outcome⟩ <;>
      simp only [dataAccept, hcommit, afterAccept] at h <;>
      exact .stage (a := .commit 0 r.ambient) rfl (by simp only [callStep, hcommit]) h

theorem dataReceive_completes (frame : Octets) (link : RxMeta) (r : Resources) :
    Completes P bindings w d [] (dataReceive P bindings d frame link r).1 := by
  unfold dataReceive
  cases hopen : rxDataOpen P d frame link r.allocBatch r.allocBuffers r.allocSigning with
  | error e => exact .nil
  | ok c =>
    have hc : (∃ o, c = .broadcast o) ∨ ∃ o, c = .unicast o := by
      rcases rxDataOpen_cases hopen with ⟨o, rfl, -⟩ | ⟨o, hdr, ciphertext, rfl, -⟩
      · exact .inl ⟨o, rfl⟩
      · exact .inr ⟨o, rfl⟩
    have hcall : ∀ d', Completes P bindings w d [c] d' → Completes P bindings w d [] d' := by
      rintro d' ⟨as, has⟩
      refine ⟨.rxData frame link r.allocBatch r.allocBuffers r.allocSigning :: as, ?_⟩
      rw [run_cons, step]
      simpa [hopen] using has
    refine hcall _ (dataAccept_completes r hc ?_)
    dsimp only
    rcases dataAccept P d r c with ⟨d₁, e | ⟨h, source, sessionEpoch, outcome⟩⟩
    · exact .nil
    · exact dataFinish_completes h source sessionEpoch r outcome

/-! ## Whole calls one after another -/

/-- `melodi_data_receive` and `melodi_reassembly_work` from entry to return. -/
inductive WholeCall where
  | receive (frame : Octets) (link : RxMeta) (r : Resources)
  | work (alloc : Bool) (jiffies bootNs : UInt64) (results : Nat → Except Errno Unit)

def wholeCall (P : Platform) (bindings : List Binding) (d : Device) : WholeCall → Device
  | .receive frame link r => (dataReceive P bindings d frame link r).1
  | .work alloc jiffies bootNs results =>
    if alloc = false then d
    else
      let polled := reassemblyWork d jiffies (reliabilityNow bootNs)
      orderDeliver bindings results 0 polled.2 polled.1

theorem workDeliver_run (P : Platform) (bindings : List Binding) (results : Nat → Except Errno Unit) (n : Nat)
    (batch : List OrderMessage) (d : Device) :
    ∃ as, run (step P) ⟨d, bindings, [], some batch⟩ as =
    ⟨orderDeliver bindings results n batch d, bindings, [], none⟩ := by
  induction batch generalizing n d with
  | nil => exact ⟨[.workDeliver (.ok ())], rfl⟩
  | cons m batch ih =>
    obtain ⟨as, has⟩ := ih (n + 1) (handOver bindings d m.message (results n))
    exact ⟨.workDeliver (results n) :: as, has⟩

/-- Whole calls that run one after another, without anything in between, are a run of the machine. -/
theorem whole_calls_run (P : Platform) (bindings : List Binding) (d : Device) (calls : List WholeCall) :
    ∃ as, run (step P) ⟨d, bindings, [], none⟩ as = ⟨run (wholeCall P bindings) d calls, bindings, [], none⟩ := by
  refine run_refines (wholeCall P bindings) (fun d => (⟨d, bindings, [], none⟩ : Node)) ?_ d calls
  intro d call
  cases call with
  | receive frame link r => exact dataReceive_completes frame link r
  | work alloc jiffies bootNs results =>
    cases alloc with
    | false => exact ⟨[], rfl⟩
    | true =>
      obtain ⟨as, has⟩ := workDeliver_run P bindings results 0 (reassemblyWork d jiffies (reliabilityNow bootNs)).2
        (reassemblyWork d jiffies (reliabilityNow bootNs)).1
      exact ⟨.work true jiffies bootNs :: as, has⟩

end

end Melodi
