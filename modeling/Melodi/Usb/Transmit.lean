import Melodi.Usb.Segments

/-!
# Sending over the USB radio (`melodi_usb_xmit`)

A frame goes to the radio as packets. Each packet takes a credit of the queue of the radio, and a route that waits for
the report of the radio; the routes of a frame and the call that sends it share one transmit object, which is freed
with its last reference. Calls, reports, expiry and reset run at the same time: the steps are the atomic operations and
the critical sections of the source. The radio accepts packets, counts those it has queued, and reports over a stream
that keeps its order.
-/

namespace Melodi
open Lib

def USB_ROUTING_LIMIT : Nat := 64

def USB_ROUTING_TIMEOUT_S : Nat := 30

/-! ## The radio -/

inductive UsbReport where
  | result (packetId : UInt32) (code : UInt8)
  | status (queueFree : Nat)
  deriving DecidableEq, Repr

def UsbReport.resultOf : UsbReport → Option UInt32
  | result packetId _ => some packetId
  | status _ => none

/-- The radio: what was written to it and has not arrived, what is queued, what has left the queue without its result,
and the reports the host has not read, the oldest first. -/
structure UsbRadio where
  depth : Nat
  wire : List UInt32 := []
  queue : List UInt32 := []
  owed : List UInt32 := []
  stream : List UsbReport := []
  deriving DecidableEq, Repr

inductive RadioAct where
  | accept
  | refuse
  | lose
  | finish (packetId : UInt32)
  | result (packetId : UInt32) (code : UInt8)
  | status
  deriving DecidableEq, Repr

def radioStep (r : UsbRadio) : RadioAct → UsbRadio
  | .accept =>
    match r.wire with
    | [] => r
    | p :: wire => { r with wire := wire, queue := r.queue ++ [p] }
  | .refuse =>
    match r.wire with
    | [] => r
    | p :: wire => { r with wire := wire, owed := r.owed ++ [p] }
  | .lose => { r with wire := r.wire.tail }
  | .finish p => if p ∈ r.queue then { r with queue := r.queue.erase p, owed := r.owed ++ [p] } else r
  | .result p code => if p ∈ r.owed then { r with owed := r.owed.erase p, stream := r.stream ++ [.result p code] }
      else r
  | .status => { r with stream := r.stream ++ [.status (r.depth - r.queue.length)] }

/-! ## The driver -/

structure UsbTx where
  frame : Option Nat := none
  cookie : UInt64 := 0
  error : Option Errno := none
  references : Nat := 0
  /-- History: the call that allocated it, how often it was freed, and how often its reference count was decremented
  from zero. -/
  owner : Nat
  freed : Nat := 0
  underflows : Nat := 0
  deriving DecidableEq, Repr

structure UsbRoute where
  transmit : Nat
  expires : UInt64
  packetId : UInt32
  deriving DecidableEq, Repr

/-- A route taken out of the table by a report, by expiry or by a reset: first its credit is given back, then its
reference is dropped. -/
structure DetachedRoute where
  transmit : Nat
  error : Option Errno
  released : Bool := false
  deriving DecidableEq, Repr

/-- Where a call of `melodi_usb_xmit` is. -/
inductive XmitStage where
  | reserved (cookie : UInt64) (count : Nat)
  | prepared (transmit : Nat) (packetIds : List UInt32)
  | sending (transmit : Nat) (packetIds : List UInt32)
  | written (transmit : Nat)
  | failed (transmit : Nat) (admitted : Bool) (count : Nat) (error : Errno)
  | revoked (transmit : Nat) (admitted : Bool) (count : Nat) (error : Errno)
  | removed (transmit : Nat) (routes : Nat) (error : Errno)
  | putting (transmit : Nat) (routes : Nat) (error : Errno)
  | unreserving (count : Nat) (error : Errno)
  | returned (result : Except Errno Unit)
  deriving DecidableEq

structure UsbLink where
  ready : Bool := false
  disconnected : Bool := false
  suspended : Bool := false
  packetMtu : Nat := 0
  localLocator : UInt32 := 0
  deriving DecidableEq, Repr

/-- The transmit side of `struct melodi_usb_device`, the calls and routes under way, and the radio. -/
structure UsbHost where
  link : UsbLink := {}
  queueFree : Nat := 0
  queueMaximum : Nat := 0
  packetId : UInt32 := 0
  routes : Table USB_ROUTING_LIMIT UsbRoute := Table.empty
  transmits : List UsbTx := []
  calls : List XmitStage := []
  detached : List DetachedRoute := []
  radio : UsbRadio
  completed : List (Nat × UInt64 × Option Errno) := []

def usbNextId (counter : UInt32) : UInt32 := if counter + 1 = 0 then 1 else counter + 1

def usbNextIds : Nat → UInt32 → List UInt32 × UInt32
  | 0, counter => ([], counter)
  | n + 1, counter =>
    let r := usbNextIds n (usbNextId counter)
    (usbNextId counter :: r.1, r.2)

def UsbHost.release (s : UsbHost) (count : Nat) : UsbHost :=
  if s.queueMaximum = 0 then s else { s with queueFree := min s.queueMaximum (s.queueFree + count) }

def UsbHost.addTransmit (s : UsbHost) (x : UsbTx) : UsbHost := { s with transmits := s.transmits ++ [x] }

def UsbHost.modifyTransmit (s : UsbHost) (t : Nat) (f : UsbTx → UsbTx) : UsbHost :=
  { s with transmits := s.transmits.modify t f }

def UsbHost.txPut (s : UsbHost) (t : Nat) : UsbHost :=
  match s.transmits[t]? with
  | none => s
  | some x =>
    if x.references = 0 then { s with transmits := s.transmits.set t { x with underflows := x.underflows + 1 } }
    else if x.references = 1 then
      { s with
        transmits := s.transmits.set t { x with references := 0, freed := x.freed + 1 }
        completed := match x.frame with
          | some frame => (frame, x.cookie, x.error) :: s.completed
          | none => s.completed }
    else { s with transmits := s.transmits.set t { x with references := x.references - 1 } }

def UsbHost.txError (s : UsbHost) (t : Nat) (error : Option Errno) : UsbHost :=
  s.modifyTransmit t fun x => { x with error := x.error.or error }

def routeFill (transmit : Nat) (expires : UInt64) : List (Fin USB_ROUTING_LIMIT) → List UInt32 →
    Table USB_ROUTING_LIMIT UsbRoute → Table USB_ROUTING_LIMIT UsbRoute
  | [], _, t => t
  | _, [], t => t
  | i :: slots, id :: ids, t =>
    if (t i).isNone then routeFill transmit expires slots ids (t.set i ⟨transmit, expires, id⟩)
    else routeFill transmit expires slots (id :: ids) t

def routeAdmit (t : Table USB_ROUTING_LIMIT UsbRoute) (transmit : Nat) (expires : UInt64) (ids : List UInt32) :
    Except Errno (Table USB_ROUTING_LIMIT UsbRoute) :=
  if (t.find? fun r => ids.contains r.packetId).isSome then .error .EEXIST
  else if ((List.finRange USB_ROUTING_LIMIT).filter fun i => (t i).isNone).length < ids.length then .error .ENOSPC
  else .ok (routeFill transmit expires (List.finRange USB_ROUTING_LIMIT) ids t)

def routeCount (t : Table USB_ROUTING_LIMIT UsbRoute) (transmit : Nat) : Nat :=
  ((List.finRange USB_ROUTING_LIMIT).filter fun i => (t i).any fun r => r.transmit = transmit).length

/-- The critical section that `melodi_usb_route_complete`, `melodi_usb_route_reset` and `melodi_usb_route_expire` share:
the first route that passes the test leaves the table. -/
def UsbHost.detach (s : UsbHost) (p : UsbRoute → Bool) (error : Option Errno) : UsbHost :=
  match s.routes.find? p with
  | none => s
  | some i =>
    match s.routes i with
    | none => s
    | some r => { s with routes := s.routes.clear i, detached := s.detached ++ [⟨r.transmit, error, false⟩] }

def usbResultError (code : UInt8) : Option Errno :=
  if code = 0 then none
  else if code = 1 then some .EAGAIN
  else if code = 2 then some .EMSGSIZE
  else if code = 3 then some .ENETDOWN
  else if code = 5 then some .EBUSY
  else some Errno.EIO

/-- What a step of a call is given: how the allocations end, the time, how the encoding and the writing of a packet
end. A write that fails may have brought the packet to the radio all the same. -/
inductive XmitInput where
  | go
  | alloc (transmit batch : Bool)
  | admitAt (jiffies : UInt64)
  | write
  | encodeFails (error : Errno)
  | writeFails (error : Errno) (delivered : Bool)

def UsbHost.setCall (s : UsbHost) (i : Nat) (stage : XmitStage) : UsbHost := { s with calls := s.calls.set i stage }

def UsbHost.send (s : UsbHost) (packetId : UInt32) : UsbHost :=
  { s with radio := { s.radio with wire := s.radio.wire ++ [packetId] } }

def xmitStep (hz : UInt64) (s : UsbHost) (i : Nat) (stage : XmitStage) (input : XmitInput) : UsbHost :=
  match stage, input with
  | .reserved _ count, .alloc false _ => s.setCall i (.unreserving count .ENOMEM)
  -- the object is still zeroed, and so is its reference count
  | .reserved _ count, .alloc true false =>
    (s.addTransmit { owner := i }).setCall i (.failed s.transmits.length false count .ENOMEM)
  | .reserved cookie count, .alloc true true =>
    let ids := usbNextIds count s.packetId
    ({ s with packetId := ids.2 }.addTransmit
      { frame := some i, cookie := cookie, references := 1, owner := i }).setCall i
      (.prepared s.transmits.length ids.1)
  | .prepared t ids, .admitAt jiffies =>
    match routeAdmit s.routes t (jiffies + hz * UInt64.ofNat USB_ROUTING_TIMEOUT_S) ids with
    | .error e => s.setCall i (.failed t false ids.length e)
    | .ok routes =>
      ({ s with routes := routes }.modifyTransmit t fun x => { x with references := x.references + ids.length }).setCall
        i (.sending t ids)
  | .sending t [], .go => s.setCall i (.written t)
  | .sending t (id :: ids), .write => (s.send id).setCall i (.sending t ids)
  | .sending t (_ :: _), .encodeFails e => s.setCall i (.failed t true 0 e)
  | .sending t (id :: _), .writeFails e delivered =>
    (if delivered then s.send id else s).setCall i (.failed t true 0 e)
  | .written t, .go => (s.txPut t).setCall i (.returned (.ok ()))
  | .failed t admitted count e, .go =>
    (s.modifyTransmit t fun x => { x with frame := none }).setCall i (.revoked t admitted count e)
  | .revoked t true _ e, .go =>
    ({ s with routes := s.routes.drop fun r => r.transmit = t } : UsbHost).setCall i
      (.removed t (routeCount s.routes t) e)
  | .revoked t false count e, .go => (s.txPut t).setCall i (.unreserving count e)
  | .removed t k e, .go => (s.release k).setCall i (.putting t k e)
  | .putting t (k + 1) e, .go => (s.txPut t).setCall i (.putting t k e)
  | .putting t 0 e, .go => (s.txPut t).setCall i (.returned (.error e))
  | .unreserving count e, .go => (s.release count).setCall i (.returned (.error e))
  | _, _ => s

def xmitBegin (s : UsbHost) (length : Nat) (source : UInt32) (cookie : UInt64) : UsbHost :=
  let mtu := usbPayloadMtu s.link.packetMtu
  let count := (length + mtu - 1) / mtu
  if length = 0 ∨ RADIO_FRAME_MAX < length then { s with calls := s.calls ++ [.returned (.error .EINVAL)] }
  else if s.link.ready = false ∨ s.link.disconnected ∨ s.link.suspended ∨ mtu = 0 ∨ source ≠ s.link.localLocator then
    { s with calls := s.calls ++ [.returned (.error .ENETDOWN)] }
  else if count = 0 ∨ RADIO_SEGMENT_LIMIT < count then { s with calls := s.calls ++ [.returned (.error .EMSGSIZE)] }
  else if s.queueFree < count then { s with calls := s.calls ++ [.returned (.error .ENOBUFS)] }
  else { s with queueFree := s.queueFree - count, calls := s.calls ++ [.reserved cookie count] }

def UsbHost.handleStatus (s : UsbHost) (queueDepth queueFree : Nat) : UsbHost :=
  if queueDepth = 0 then s else { s with queueMaximum := queueDepth, queueFree := min s.queueFree queueFree }

def UsbHost.handleReport (s : UsbHost) : UsbHost :=
  match s.radio.stream with
  | [] => s
  | report :: stream =>
    let s := { s with radio := { s.radio with stream := stream } }
    match report with
    | .result id code => s.detach (fun r => r.packetId = id) (usbResultError code)
    | .status free => s.handleStatus s.radio.depth free

/-- A step of the driver or of the radio. -/
inductive UsbTxLabel where
  | link (link : UsbLink)
  | xmit (length : Nat) (source : UInt32) (cookie : UInt64)
  | call (i : Nat) (input : XmitInput)
  | report
  | expire (jiffies : UInt64)
  | reset (error : Errno)
  | release (k : Nat)
  | put (k : Nat)
  | radio (act : RadioAct)

def usbTxStep (hz : UInt64) (s : UsbHost) : UsbTxLabel → UsbHost
  | .link link => { s with link := link }
  | .xmit length source cookie => xmitBegin s length source cookie
  | .call i input =>
    match s.calls[i]? with
    | none => s
    | some stage => xmitStep hz s i stage input
  | .report => s.handleReport
  | .expire jiffies => s.detach (fun r => timeAfterEq jiffies r.expires) (some .ETIMEDOUT)
  | .reset error => s.detach (fun _ => true) (some error)
  | .release k =>
    match s.detached[k]? with
    | some ⟨t, error, false⟩ => { s.release 1 with detached := s.detached.set k ⟨t, error, true⟩ }
    | _ => s
  | .put k =>
    match s.detached[k]? with
    | some ⟨t, error, true⟩ => { (s.txError t error).txPut t with detached := s.detached.eraseIdx k }
    | _ => s
  | .radio act => { s with radio := radioStep s.radio act }

/-! ## Admitting routes -/

variable {slots : List (Fin USB_ROUTING_LIMIT)} {ids : List UInt32} {t : Table USB_ROUTING_LIMIT UsbRoute}

section
variable {transmit : Nat} {expires : UInt64}

def freeSlots (t : Table USB_ROUTING_LIMIT UsbRoute) (slots : List (Fin USB_ROUTING_LIMIT)) : Nat :=
  (slots.filter fun i => (t i).isNone).length

theorem freeSlots_set {i : Fin USB_ROUTING_LIMIT} (hi : i ∉ slots) (r : UsbRoute) :
    freeSlots (t.set i r) slots = freeSlots t slots := by
  unfold freeSlots
  congr 1
  refine List.filter_congr fun j hj => ?_
  have hne : j ≠ i := fun h => hi (h ▸ hj)
  rw [Table.set_of_ne _ _ hne]

theorem routeFill_sum {f : UsbRoute → Nat} {c : Nat} (hf : ∀ id, f ⟨transmit, expires, id⟩ = c) (hslots : slots.Nodup)
    (hfree : ids.length ≤ freeSlots t slots) :
    (routeFill transmit expires slots ids t).sum f = t.sum f + ids.length * c := by
  induction slots generalizing ids t with
  | nil =>
    obtain rfl : ids = [] := List.length_eq_zero_iff.mp (by simpa [freeSlots] using hfree)
    simp [routeFill]
  | cons i slots ih =>
    cases ids with
    | nil => simp [routeFill]
    | cons id ids =>
      obtain ⟨hi, hslots⟩ := List.nodup_cons.mp hslots
      rw [routeFill]
      by_cases hnone : (t i).isNone = true
      · rw [if_pos hnone]
        have hcount : ids.length ≤ freeSlots (t.set i ⟨transmit, expires, id⟩) slots := by
          rw [freeSlots_set hi]
          rw [freeSlots, List.filter_cons, if_pos hnone, List.length_cons, List.length_cons] at hfree
          exact Nat.le_of_succ_le_succ hfree
        have hset := t.sum_set i ⟨transmit, expires, id⟩ f
        rw [Option.isNone_iff_eq_none.mp hnone, Table.weight_none, hf] at hset
        rw [ih hslots hcount, List.length_cons, Nat.add_mul]
        omega
      · rw [if_neg hnone]
        rw [freeSlots, List.filter_cons, if_neg hnone] at hfree
        exact ih hslots hfree

theorem routeAdmit_ok {t' : Table USB_ROUTING_LIMIT UsbRoute} (h : routeAdmit t transmit expires ids = .ok t') :
    t' = routeFill transmit expires (List.finRange USB_ROUTING_LIMIT) ids t ∧
      ids.length ≤ freeSlots t (List.finRange USB_ROUTING_LIMIT) := by
  unfold routeAdmit at h
  split_ifs at h with hexists hroom
  exact ⟨(Except.ok.inj h).symm, Nat.le_of_not_lt hroom⟩

end

theorem routeCount_eq (t : Table USB_ROUTING_LIMIT UsbRoute) (transmit : Nat) :
    routeCount t transmit = t.sum fun r => if r.transmit = transmit then 1 else 0 := by
  have hlist : ∀ is : List (Fin USB_ROUTING_LIMIT),
      (is.filter fun i => (t i).any fun r => r.transmit = transmit).length =
      (is.map fun i => Table.weight (fun r => if r.transmit = transmit then 1 else 0) (t i)).sum := by
    intro is
    induction is with
    | nil => rfl
    | cons i is ih =>
      cases hi : t i with
      | none => simp [hi, ih]
      | some r => by_cases hr : r.transmit = transmit <;> simp [hi, hr, ih]; omega
  rw [routeCount, hlist, Table.sum, Fin.sum_univ_def]

/-! ## What an operation writes -/

theorem UsbHost.release_writes (s : UsbHost) (count : Nat) : ∃ n, s.release count = { s with queueFree := n } := by
  unfold UsbHost.release
  split_ifs
  · exact ⟨s.queueFree, rfl⟩
  · exact ⟨_, rfl⟩

theorem UsbHost.txPut_writes (s : UsbHost) (t : Nat) :
    ∃ transmits completed, s.txPut t = { s with transmits := transmits, completed := completed } := by
  unfold UsbHost.txPut
  split
  · exact ⟨s.transmits, s.completed, rfl⟩
  · split_ifs <;> exact ⟨_, _, rfl⟩

def UsbHost.start (depth : Nat) (link : UsbLink) : UsbHost :=
  { link := link, queueFree := depth, queueMaximum := depth, radio := { depth := depth } }

def UsbLink.plain : UsbLink := { ready := true, packetMtu := 100, localLocator := 7 }

def sendFrame : List UsbTxLabel :=
  [.xmit 50 7 9, .call 0 (.alloc true true), .call 0 (.admitAt 0), .call 0 .write, .call 0 .go, .call 0 .go,
    .radio .accept]

/-- A frame of two packets, with a STATUS between them, the second of which the radio reports as failed; a frame whose
write fails; and one that cannot be encoded, whose route expires before the call takes it back. -/
def threeFrames : List UsbTxLabel :=
  [.xmit 150 7 9, .call 0 (.alloc true true), .call 0 (.admitAt 0), .call 0 .write, .call 0 .write, .call 0 .go,
    .call 0 .go, .radio .accept, .radio .accept, .radio .status, .report, .radio (.finish 1), .radio (.result 1 0),
    .report, .release 0, .put 0, .radio (.finish 2), .radio (.result 2 3), .report, .release 0, .put 0,
    .xmit 50 7 10, .call 1 (.alloc true true), .call 1 (.admitAt 0), .call 1 (.writeFails Errno.EIO false)] ++
  List.replicate 5 (.call 1 .go) ++
  [.xmit 50 7 11, .call 2 (.alloc true true), .call 2 (.admitAt 0), .call 2 (.encodeFails .EINVAL), .expire 30000,
    .release 0, .put 0] ++ List.replicate 4 (.call 2 .go)

end Melodi
