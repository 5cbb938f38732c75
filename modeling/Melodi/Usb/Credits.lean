import Melodi.Usb.Owners

/-!
# The credits of the radio queue

Every credit of the queue is free, reserved by a call, held by an active route, or about to be given back by a route
that was taken out; these add up to the depth of the queue as long as the clamp of `melodi_usb_handle_status` takes
nothing away. It takes nothing away when the radio counts no more packets than there are active routes.

* `usbTxStep_credits` : a driver with nothing under way has all its credits.

A route that expires, is reset or is removed while the radio still counts its packet gives its credit back too early,
and a STATUS that is read before the RESULT takes it away (`usbTx_clamped`); the steps that spare this are
`UsbHost.CoversStatus`.
-/

namespace Melodi
open Lib
variable {stream : List UsbReport} {depth n : Nat}
variable {free k : Nat} {error : Option Errno}

/-! ## Packet numbers -/

theorem length_usbNextIds (n : Nat) (c : UInt32) : (usbNextIds n c).1.length = n := by
  induction n generalizing c with
  | zero => rfl
  | succ n ih => exact congrArg (· + 1) (ih _)

/-! ## The radio -/

def resultsOf (stream : List UsbReport) : List UInt32 := stream.filterMap UsbReport.resultOf

/-- Every status on its way leaves out no more places than there are packets whose result comes after it: `count` of
them are still with the radio. -/
def Reported (depth count : Nat) : List UsbReport → Prop
  | [] => True
  | .result _ _ :: stream => Reported depth count stream
  | .status free :: stream => depth ≤ free + count + (resultsOf stream).length ∧ Reported depth count stream

theorem Reported.mono {m : Nat} (h : Reported depth n stream) (hle : n ≤ m) :
    Reported depth m stream := by
  induction stream with
  | nil => trivial
  | cons report stream ih =>
    cases report with
    | result id code => exact ih h
    | status free => exact ⟨by have := h.1; omega, ih h.2⟩

theorem resultsOf_append (stream stream' : List UsbReport) :
    resultsOf (stream ++ stream') = resultsOf stream ++ resultsOf stream' :=
  List.filterMap_append

theorem resultsOf_result (id : UInt32) (code : UInt8) : resultsOf [.result id code] = [id] := rfl

theorem resultsOf_status (free : Nat) : resultsOf [.status free] = [] := rfl

theorem Reported.result (h : Reported depth (n + 1) stream) (id : UInt32) (code : UInt8) :
    Reported depth n (stream ++ [.result id code]) := by
  induction stream with
  | nil => trivial
  | cons report stream ih =>
    cases report with
    | result id code => exact ih h
    | status free =>
      refine ⟨?_, ih h.2⟩
      have := h.1
      change depth ≤ free + n + (resultsOf (stream ++ [_])).length
      rw [resultsOf_append, List.length_append, resultsOf_result, List.length_singleton]
      omega

theorem Reported.status (h : Reported depth n stream) (hfree : depth ≤ free + n) :
    Reported depth n (stream ++ [.status free]) := by
  induction stream with
  | nil => exact ⟨hfree, trivial⟩
  | cons report stream ih =>
    cases report with
    | result id code => exact ih h
    | status free' =>
      refine ⟨?_, ih h.2⟩
      change depth ≤ free' + n + (resultsOf (stream ++ [_])).length
      rw [resultsOf_append, resultsOf_status, List.append_nil]
      exact h.1

def UsbRadio.Honest (r : UsbRadio) : Prop := Reported r.depth (r.queue.length + r.owed.length) r.stream

theorem radioStep_honest {r : UsbRadio} (h : r.Honest) (a : RadioAct) : (radioStep r a).Honest := by
  unfold UsbRadio.Honest at *
  cases a with
  | accept | refuse =>
    unfold radioStep
    cases r.wire with
    | nil => exact h
    | cons p wire => exact h.mono (by simp)
  | lose => exact h
  | finish p =>
    unfold radioStep
    dsimp only
    split_ifs with hp
    · have := List.length_pos_of_mem hp
      exact h.mono (by simp only [List.length_erase_of_mem hp, List.length_append, List.length_singleton]; omega)
    · exact h
  | result p code =>
    unfold radioStep
    dsimp only
    split_ifs with hp
    · have := List.length_pos_of_mem hp
      refine Reported.result ?_ p code
      exact h.mono (by simp only [List.length_erase_of_mem hp]; omega)
    · exact h
  | status => exact h.status (by omega)

/-! ## The driver -/

def XmitStage.credits : XmitStage → Nat
  | .reserved _ count => count
  | .prepared _ ids => ids.length
  | .failed _ false count _ | .revoked _ false count _ => count
  | .removed _ k _ => k
  | .unreserving count _ => count
  | .sending _ _ | .written _ | .failed _ true _ _ | .revoked _ true _ _ | .putting _ _ _ | .returned _ => 0

namespace UsbHost

def held (s : UsbHost) : Nat := (s.calls.map XmitStage.credits).sum

def unreleased (s : UsbHost) : Nat := (s.detached.map fun d => if d.released then 0 else 1).sum

/-- A STATUS is read only while the radio has, or has reported behind it, no more packets than there are active routes:
none of them lost its route before its RESULT is read. -/
def CoversStatus (s : UsbHost) : UsbTxLabel → Prop
  | .report =>
    s.radio.stream.head?.any (·.resultOf.isNone) = true →
      s.radio.queue.length + s.radio.owed.length + (resultsOf s.radio.stream).length ≤ s.routes.sum fun _ => 1
  | _ => True

instance (s : UsbHost) (l : UsbTxLabel) : Decidable (s.CoversStatus l) := by
  unfold CoversStatus
  split <;> infer_instance

/-- The credits add up, and the statuses on their way are true. -/
structure Credited (s : UsbHost) : Prop where
  maximum : s.queueMaximum = s.radio.depth
  total : s.queueFree + s.held + s.routes.sum (fun _ => 1) + s.unreleased = s.radio.depth
  honest : s.radio.Honest

variable {s s' : UsbHost} {t i : Nat} {stage stage' : XmitStage}

theorem credited_start (depth : Nat) (link : UsbLink) : (start depth link).Credited where
  maximum := rfl
  total := by simp [start, held, unreleased]
  honest := trivial

theorem Credited.setCall (h : s.Credited) (hi : s.calls[i]? = some stage) (hcalls : s'.calls = s.calls.set i stage')
    (hroutes : s'.routes = s.routes) (hdetached : s'.detached = s.detached)
    (hmaximum : s'.queueMaximum = s.queueMaximum)
    (hcredits : s'.queueFree + stage'.credits = s.queueFree + stage.credits) {w : List UInt32}
    (hradio : s'.radio = { s.radio with wire := w }) : s'.Credited := by
  have hheld : s'.held + stage.credits = s.held + stage'.credits := by
    unfold held
    rw [hcalls]
    exact sum_map_set XmitStage.credits hi stage'
  have hdepth : s'.radio.depth = s.radio.depth := by rw [hradio]
  have htotal := h.total
  refine ⟨by rw [hmaximum, hdepth, h.maximum], ?_, ?_⟩
  · rw [hroutes, hdepth, unreleased, hdetached]
    unfold unreleased at htotal
    omega
  · rw [hradio]
    exact h.honest

theorem Credited.release_eq (h : s.Credited) (hn : s.queueFree + n ≤ s.radio.depth) :
    s.release n = { s with queueFree := s.queueFree + n } := by
  have hmaximum := h.maximum
  unfold release
  split_ifs with hzero
  · obtain rfl : n = 0 := by omega
    rfl
  · rw [Nat.min_eq_right (by omega)]

theorem Credited.releaseCall (h : s.Credited) (hi : s.calls[i]? = some stage)
    (hn : stage.credits = n + stage'.credits) : ((s.release n).setCall i stage').Credited := by
  have hle : stage.credits ≤ s.held := le_sum_map XmitStage.credits hi
  have htotal := h.total
  rw [h.release_eq (by omega)]
  refine h.setCall hi rfl rfl rfl rfl ?_ (w := s.radio.wire) rfl
  change s.queueFree + n + stage'.credits = s.queueFree + stage.credits
  omega

theorem Credited.putCall (h : s.Credited) (hi : s.calls[i]? = some stage) (hcredits : stage'.credits = stage.credits) :
    ((s.txPut t).setCall i stage').Credited := by
  obtain ⟨transmits, completed, hput⟩ := s.txPut_writes t
  rw [hput]
  exact h.setCall hi rfl rfl rfl rfl (congrArg (s.queueFree + ·) hcredits) (w := s.radio.wire) rfl

theorem Credited.admit (h : s.Credited) {ids : List UInt32} {expires : UInt64}
    {routes : Table USB_ROUTING_LIMIT UsbRoute}
    (hi : s.calls[i]? = some (.prepared t ids)) (hadm : routeAdmit s.routes t expires ids = .ok routes)
    (hroutes : s'.routes = routes) (hcalls : s'.calls = s.calls.set i (.sending t ids))
    (hdetached : s'.detached = s.detached)
    (hmaximum : s'.queueMaximum = s.queueMaximum) (hfree : s'.queueFree = s.queueFree) (hradio : s'.radio = s.radio) :
    s'.Credited := by
  obtain ⟨rfl, hroom⟩ := routeAdmit_ok hadm
  have hsum :=
    @routeFill_sum _ ids s.routes t expires (fun _ => 1) 1 (fun _ => rfl) (List.nodup_finRange USB_ROUTING_LIMIT) hroom
  have hheld : s'.held + ids.length = s.held + 0 := by
    unfold held
    rw [hcalls]
    exact sum_map_set XmitStage.credits hi (.sending t ids)
  have htotal := h.total
  refine ⟨by rw [hmaximum, hradio, h.maximum], ?_, hradio ▸ h.honest⟩
  rw [hroutes, hsum, hradio, hfree, unreleased, hdetached]
  unfold unreleased at htotal
  omega

theorem Credited.remove (h : s.Credited) {count : Nat} {e : Errno} (hi : s.calls[i]? = some (.revoked t true count e)) :
    (({ s with routes := s.routes.drop fun r => r.transmit = t } : UsbHost).setCall i
      (.removed t (routeCount s.routes t) e)).Credited := by
  have hheld : ((s.calls.set i (.removed t (routeCount s.routes t) e)).map XmitStage.credits).sum + 0 =
      s.held + routeCount s.routes t :=
    sum_map_set XmitStage.credits hi (.removed t (routeCount s.routes t) e)
  have hdrop := s.routes.sum_drop (fun r => r.transmit = t) fun _ => 1
  simp only [decide_eq_true_eq, ← routeCount_eq] at hdrop
  have htotal := h.total
  refine ⟨h.maximum, ?_, h.honest⟩
  change s.queueFree + ((s.calls.set i _).map XmitStage.credits).sum + (s.routes.drop _).sum _ + s.unreleased =
    s.radio.depth
  omega

theorem xmitStep_credited (hz : UInt64) (h : s.Credited) {input : XmitInput} (hi : s.calls[i]? = some stage) :
    (xmitStep hz s i stage input).Credited := by
  have hstay : ∀ {st : XmitStage}, st.credits = stage.credits → (s.setCall i st).Credited := fun hcredits =>
    h.setCall hi rfl rfl rfl rfl (congrArg (s.queueFree + ·) hcredits) (w := s.radio.wire) rfl
  fun_cases xmitStep hz s i stage input with
  | case1 cookie count batch => exact hstay rfl
  | case2 cookie count => exact h.setCall hi rfl rfl rfl rfl rfl (w := s.radio.wire) rfl
  | case3 cookie count ids =>
    refine h.setCall hi rfl rfl rfl rfl ?_ (w := s.radio.wire) rfl
    exact congrArg (s.queueFree + ·) (length_usbNextIds count s.packetId)
  | case4 t ids jiffies e hadm => exact hstay rfl
  | case5 t ids jiffies routes hadm => exact h.admit hi hadm rfl rfl rfl rfl rfl rfl
  | case6 t => exact hstay rfl
  | case7 t id ids => exact h.setCall hi rfl rfl rfl rfl rfl (w := s.radio.wire ++ [id]) rfl
  | case8 t id ids e => exact hstay rfl
  | case9 t id ids e delivered =>
    cases delivered with
    | false => exact hstay rfl
    | true => exact h.setCall hi rfl rfl rfl rfl rfl (w := s.radio.wire ++ [id]) rfl
  | case10 t => exact h.putCall hi rfl
  | case11 t admitted count e => cases admitted <;> exact h.setCall hi rfl rfl rfl rfl rfl (w := s.radio.wire) rfl
  | case12 t count e => exact h.remove hi
  | case13 t count e => exact h.putCall hi rfl
  | case14 t k e => exact h.releaseCall hi rfl
  | case15 t k e => exact h.putCall hi rfl
  | case16 t e => exact h.putCall hi rfl
  | case17 count e => exact h.releaseCall hi rfl
  | case18 => exact h

/-! ## The other steps -/

theorem Credited.append (h : s.Credited) (hcalls : s'.calls = s.calls ++ [stage]) (hroutes : s'.routes = s.routes)
    (hdetached : s'.detached = s.detached) (hmaximum : s'.queueMaximum = s.queueMaximum) (hradio : s'.radio = s.radio)
    (hcredits : s'.queueFree + stage.credits = s.queueFree) : s'.Credited := by
  have hheld : s'.held = s.held + stage.credits := by
    unfold held
    rw [hcalls]
    simp
  have htotal := h.total
  refine ⟨by rw [hmaximum, hradio, h.maximum], ?_, hradio ▸ h.honest⟩
  rw [hroutes, hradio, unreleased, hdetached]
  unfold unreleased at htotal
  omega

theorem xmitBegin_credited (h : s.Credited) (length : Nat) (source : UInt32) (cookie : UInt64) :
    (xmitBegin s length source cookie).Credited := by
  unfold xmitBegin
  dsimp only
  split_ifs with hlength hlink hcount hfree
  · exact h.append rfl rfl rfl rfl rfl rfl
  · exact h.append rfl rfl rfl rfl rfl rfl
  · exact h.append rfl rfl rfl rfl rfl rfl
  · exact h.append rfl rfl rfl rfl rfl rfl
  · exact h.append rfl rfl rfl rfl rfl (Nat.sub_add_cancel (Nat.le_of_not_lt hfree))

theorem Credited.of_routes (h : s.Credited) (hcalls : s'.calls = s.calls) (hmaximum : s'.queueMaximum = s.queueMaximum)
    (hfree : s'.queueFree + s'.routes.sum (fun _ => 1) + s'.unreleased =
      s.queueFree + s.routes.sum (fun _ => 1) + s.unreleased)
    (hdepth : s'.radio.depth = s.radio.depth) (hhonest : s'.radio.Honest) : s'.Credited := by
  have hheld : s'.held = s.held := by rw [held, hcalls]; rfl
  have htotal := h.total
  refine ⟨by rw [hmaximum, hdepth, h.maximum], ?_, hhonest⟩
  rw [hdepth]
  omega

theorem Credited.detach (h : s.Credited) {p : UsbRoute → Bool} (error : Option Errno) :
    (s.detach p error).Credited := by
  unfold UsbHost.detach
  cases hfind : s.routes.find? p with
  | none => exact h
  | some i =>
    obtain ⟨r, hr, -⟩ := Table.find?_some hfind
    simp only [hr]
    have hclear := s.routes.sum_clear i fun _ => 1
    rw [hr, Table.weight_some] at hclear
    refine h.of_routes rfl rfl ?_ rfl h.honest
    unfold unreleased
    simp only [List.map_append, List.map_cons, List.map_nil, List.sum_append, List.sum_cons, List.sum_nil]
    simp only [Bool.false_eq_true, if_false]
    omega

theorem Credited.read (h : s.Credited) {report : UsbReport} (hs : s.radio.stream = report :: stream) :
    ({ s with radio := { s.radio with stream := stream } } : UsbHost).Credited := by
  refine h.of_routes rfl rfl rfl rfl ?_
  have hhonest := h.honest
  unfold UsbRadio.Honest at hhonest ⊢
  rw [hs] at hhonest
  cases report with
  | result id code => exact hhonest
  | status free => exact hhonest.2

theorem Credited.queueFree_le (h : s.Credited) (hs : s.radio.stream = .status free :: stream)
    (hcovers : s.CoversStatus .report) : s.queueFree ≤ free := by
  have hhonest := h.honest
  unfold UsbRadio.Honest at hhonest
  rw [hs] at hhonest
  have hstatus := hhonest.1
  have hroutes := hcovers (by rw [hs]; rfl)
  rw [hs, show resultsOf (.status free :: stream) = resultsOf stream from rfl] at hroutes
  have htotal := h.total
  omega

theorem handleReport_credited (h : s.Credited) (hcovers : s.CoversStatus .report) : s.handleReport.Credited := by
  unfold handleReport
  split
  · exact h
  case h_2 report stream hs =>
    dsimp only
    split
    case h_1 id code => exact (h.read hs).detach _
    case h_2 free =>
      unfold handleStatus
      dsimp only
      split_ifs
      · exact h.read hs
      refine (h.read hs).of_routes rfl h.maximum.symm ?_ rfl (h.read hs).honest
      dsimp only
      rw [Nat.min_eq_left (h.queueFree_le hs hcovers)]
      rfl

theorem Credited.releaseRoute (h : s.Credited) (hk : s.detached[k]? = some ⟨t, error, false⟩) :
    ({ s.release 1 with detached := s.detached.set k ⟨t, error, true⟩ } : UsbHost).Credited := by
  have hset : ((s.detached.set k ⟨t, error, true⟩).map fun d => if d.released then 0 else 1).sum + 1 = s.unreleased +
    0 :=
    sum_map_set (fun d : DetachedRoute => if d.released then 0 else 1) hk ⟨t, error, true⟩
  have htotal := h.total
  rw [h.release_eq (by omega)]
  refine h.of_routes rfl rfl ?_ rfl h.honest
  change s.queueFree + 1 + s.routes.sum _ +
    ((s.detached.set k ⟨t, error, true⟩).map fun d => if d.released then 0 else 1).sum = _
  omega

theorem Credited.putRoute (h : s.Credited) (hk : s.detached[k]? = some ⟨t, error, true⟩) :
    ({ (s.txError t error).txPut t with detached := s.detached.eraseIdx k } : UsbHost).Credited := by
  have herase : ((s.detached.eraseIdx k).map fun d => if d.released then 0 else 1).sum + 0 = s.unreleased :=
    sum_map_eraseIdx (fun d : DetachedRoute => if d.released then 0 else 1) hk
  obtain ⟨transmits, completed, hput⟩ := (s.txError t error).txPut_writes t
  rw [hput]
  refine h.of_routes rfl rfl ?_ rfl h.honest
  exact congrArg (s.queueFree + s.routes.sum (fun _ => 1) + ·) herase

theorem usbTxStep_credited (hz : UInt64) {l : UsbTxLabel} (hl : s.CoversStatus l) (h : s.Credited) :
    (usbTxStep hz s l).Credited := by
  cases l with
  | link link => exact h.of_routes rfl rfl rfl rfl h.honest
  | xmit length source cookie => exact xmitBegin_credited h length source cookie
  | call i input =>
    cases hi : s.calls[i]? with
    | none =>
      simp only [usbTxStep, hi]
      exact h
    | some stage =>
      simp only [usbTxStep, hi]
      exact xmitStep_credited hz h hi
  | report => exact handleReport_credited h hl
  | expire jiffies => exact h.detach _
  | reset error => exact h.detach _
  | release k =>
    unfold usbTxStep
    dsimp only
    split
    case h_1 t error hk => exact h.releaseRoute hk
    case h_2 => exact h
  | put k =>
    unfold usbTxStep
    dsimp only
    split
    case h_1 t error hk => exact h.putRoute hk
    case h_2 => exact h
  | radio act =>
    have hdepth : (radioStep s.radio act).depth = s.radio.depth := by
      cases act <;> unfold radioStep <;> first | rfl | (dsimp only; split <;> rfl)
    exact h.of_routes rfl rfl rfl hdepth (radioStep_honest h.honest act)

/-- Nothing is under way: no route is active, the calls have returned and the handlers have ended, and the radio has no
packet and no report that was not read. -/
structure Quiescent (s : UsbHost) : Prop where
  routes : ∀ j, s.routes j = none
  calls : ∀ stage ∈ s.calls, ∃ result, stage = .returned result
  detached : s.detached = []
  wire : s.radio.wire = []
  queue : s.radio.queue = []
  owed : s.radio.owed = []
  stream : s.radio.stream = []

theorem Credited.queueFree_eq (h : s.Credited) (hq : s.Quiescent) : s.queueFree = s.queueMaximum := by
  have hheld : s.held = 0 := by
    refine List.sum_eq_zero fun n hn => ?_
    obtain ⟨stage, hstage, rfl⟩ := List.mem_map.mp hn
    obtain ⟨result, rfl⟩ := hq.calls stage hstage
    rfl
  have hroutes : s.routes.sum (fun _ => 1) = 0 := Table.sum_eq_zero fun j r hr => by
    rw [hq.routes j] at hr
    exact nomatch hr
  have hunreleased : s.unreleased = 0 := by rw [unreleased, hq.detached]; rfl
  have htotal := h.total
  rw [h.maximum]
  omega

end UsbHost

/-- A driver with nothing under way has all its credits, if no STATUS was read while the radio had a packet without a
route. -/
theorem usbTxStep_credits (hz : UInt64) (depth : Nat) (link : UsbLink) (ls : List UsbTxLabel)
    (hls : Along (usbTxStep hz) UsbHost.CoversStatus (.start depth link) ls)
    (hq : (run (usbTxStep hz) (.start depth link) ls).Quiescent) :
    (run (usbTxStep hz) (.start depth link) ls).queueFree = (run (usbTxStep hz) (.start depth link) ls).queueMaximum :=
  (run_induction (usbTxStep hz) UsbHost.Credited (fun _ _ hl h => UsbHost.usbTxStep_credited hz hl h)
    (UsbHost.credited_start depth link) hls).queueFree_eq hq

theorem UsbHost.Quiescent.of_returned {s : UsbHost} (hroutes : ∀ j, s.routes j = none)
    (results : List (Except Errno Unit)) (hcalls : s.calls = results.map .returned) (hdetached : s.detached = [])
    (hradio : s.radio = { depth := s.radio.depth }) : s.Quiescent where
  routes := hroutes
  calls stage hstage := by
    rw [hcalls] at hstage
    obtain ⟨result, -, rfl⟩ := List.mem_map.mp hstage
    exact ⟨result, rfl⟩
  detached := hdetached
  wire := by rw [hradio]
  queue := by rw [hradio]
  owed := by rw [hradio]
  stream := by rw [hradio]

theorem usbTxStep_credits_threeFrames : Along (usbTxStep 1000) UsbHost.CoversStatus (.start 4 .plain) threeFrames ∧
    (run (usbTxStep 1000) (.start 4 .plain) threeFrames).Quiescent ∧
      (run (usbTxStep 1000) (.start 4 .plain) threeFrames).queueFree =
        (run (usbTxStep 1000) (.start 4 .plain) threeFrames).queueMaximum := by
  have hls : Along (usbTxStep 1000) UsbHost.CoversStatus (.start 4 .plain) threeFrames := by decide +kernel
  have hq : (run (usbTxStep 1000) (.start 4 .plain) threeFrames).Quiescent :=
    .of_returned (by decide +kernel) [.ok (), .error Errno.EIO, .error .EINVAL] (by decide +kernel) (by decide +kernel)
      (by decide +kernel)
  exact ⟨hls, hq, usbTxStep_credits 1000 4 .plain threeFrames hls hq⟩

def lateResult : List UsbTxLabel :=
  sendFrame ++ [.expire 30000, .release 0, .put 0, .radio .status, .report, .radio (.finish 1), .radio (.result 1 0),
    .report]

/-- **A credit is lost.** The credit of the expired route is given back while the radio still counts the packet; the
status takes it away again, and the result finds no route that would bring it back. -/
theorem usbTx_clamped : (run (usbTxStep 1000) (.start 4 .plain) lateResult).Quiescent ∧
    (run (usbTxStep 1000) (.start 4 .plain) lateResult).queueFree = 3 ∧
      (run (usbTxStep 1000) (.start 4 .plain) lateResult).queueMaximum = 4 := by
  exact ⟨.of_returned (by decide +kernel) [.ok ()] (by decide +kernel) (by decide +kernel) (by decide +kernel),
    by decide +kernel, by decide +kernel⟩

end Melodi
