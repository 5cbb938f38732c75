import Melodi.Core.Effects
import Melodi.Core.QueueEffects
import Melodi.Core.Submit

/-!
# The size of a message, reserved and sent

`melodi_data_admit` computes the number of frames and their octets from the length of a message; the loops of
`melodi_data_send_internal` and `melodi_data_send_broadcast` build the frames one by one.

* `admission_agrees` : admission and the send path accept the same messages, and the frames are what was reserved.
-/

namespace Melodi
open Lib
variable {n : Nat} {frames : List Octets} {x : Nat × Nat}

/-! ## Frames -/

section
variable {P : Platform} {s : Sealing} {g : Signing} {index : Nat} {frame : Octets}

theorem sealFrame_length (htag : s.template.tag.length = WIRE_TAG_SIZE) (h : sealFrame P s index = .ok frame) :
    frame.length = WIRE_DATA_SIZE + (s.chunk index).length := by
  have htag' : (s.header index).tag.length = WIRE_TAG_SIZE := htag
  simp only [sealFrame, wireEncodeData, wireEncodeDataHeader] at h
  split_ifs at h
  obtain rfl := Except.ok.inj h
  have hauth := wireDataAuth_length (s.header index) (s.chunk index).length
  simp [P.encrypt_length, hauth, htag', WIRE_AUTH_DATA_SIZE, WIRE_DATA_SIZE, WIRE_TAG_SIZE]
  omega

theorem signFrame_length {signature : Octets} (hsignature : signature.length = WIRE_SIGNATURE_SIZE)
    (h : signFrame g index (.ok signature) = .ok frame) :
    frame.length = WIRE_DATA_SIZE + WIRE_BROADCAST_OVERHEAD + (g.chunk index).length := by
  simp only [signFrame, wireEncodeBroadcastData, wireEncodeDataHeader] at h
  split_ifs at h
  obtain rfl := Except.ok.inj h
  simp only [List.length_append, List.length_take, List.length_drop, List.length_replicate, List.length_cons,
    List.length_nil,
    wireDataAuth_length, hsignature, WIRE_AUTH_DATA_SIZE, WIRE_DATA_SIZE, WIRE_TAG_SIZE, WIRE_BROADCAST_OVERHEAD,
    WIRE_SIGNATURE_SIZE]
  omega

theorem signFrames_frames {fails : Nat → Bool} {sign : Nat → Except Errno Octets}
    (h : signFrames g fails sign index n = .ok frames) :
    frames.map .ok = (List.range' index n).map fun i => signFrame g i (sign i) := by
  induction n generalizing index frames with
  | zero =>
    obtain rfl := Except.ok.inj h
    rfl
  | succ n ih =>
    unfold signFrames at h
    split_ifs at h
    split at h
    · cases h
    rename_i frame hframe
    cases hrest : signFrames g fails sign (index + 1) n with
    | error e =>
      rw [hrest] at h
      cases h
    | ok rest =>
      rw [hrest] at h
      obtain rfl := Except.ok.inj h
      rw [List.map_cons, ih hrest, List.range'_succ, List.map_cons, hframe]

theorem sum_chunks (payload : Octets) (k n index : Nat) (h : payload.length ≤ (index + n) * k) :
    ((List.range' index n).map fun i => ((payload.drop (i * k)).take k).length).sum = payload.length - index * k := by
  induction n generalizing index with
  | zero =>
    rw [Nat.add_zero] at h
    simp [Nat.sub_eq_zero_of_le h]
  | succ n ih =>
    rw [List.range'_succ, List.map_cons, List.sum_cons, ih (index + 1) (by rwa [Nat.add_right_comm])]
    rw [List.length_take, List.length_drop, Nat.add_mul, Nat.one_mul]
    omega

theorem frames_size {f : Nat → Except Errno Octets} {payload : Octets} {overhead k : Nat}
    (hframes : frames.map .ok = (List.range' 0 n).map f) (hfits : payload.length ≤ n * k)
    (hlength : ∀ i frame, f i = .ok frame → frame.length = overhead + ((payload.drop (i * k)).take k).length) :
    frames.length = n ∧ (frames.map List.length).sum = overhead * n + payload.length ∧
      ∀ frame ∈ frames, overhead ≤ frame.length := by
  have hlengths : ∀ (frames : List Octets) (is : List Nat), frames.map .ok = is.map f →
      frames.map List.length = is.map fun i => overhead + ((payload.drop (i * k)).take k).length := by
    intro frames is
    induction is generalizing frames with
    | nil => simp
    | cons i is ih =>
      cases frames with
      | nil => simp
      | cons frame frames =>
        intro h
        obtain ⟨hi, his⟩ := List.cons.inj h
        rw [List.map_cons, List.map_cons, hlength i frame hi.symm, ih frames his]
  refine ⟨by simpa using congrArg List.length hframes, ?_, fun frame hmem => ?_⟩
  · rw [hlengths frames _ hframes, List.sum_map_add, sum_chunks payload k n 0 (by rwa [Nat.zero_add])]
    simp [Nat.mul_comm]
  have hok : (.ok frame : Except Errno Octets) ∈ frames.map .ok := List.mem_map_of_mem hmem
  rw [hframes] at hok
  obtain ⟨i, -, hi⟩ := List.mem_map.mp hok
  rw [hlength i frame hi]
  exact Nat.le_add_right _ _

theorem batchBytes_of {start : Nat} (hpos : ∀ frame ∈ frames, 0 < frame.length)
    (hfits : start + (frames.map List.length).sum ≤ TX_BYTE_LIMIT) :
    batchBytes frames start = .ok (start + (frames.map List.length).sum) := by
  induction frames generalizing start with
  | nil => rfl
  | cons frame frames ih =>
    rw [List.map_cons, List.sum_cons] at hfits ⊢
    have hframe := hpos frame List.mem_cons_self
    rw [batchBytes, if_neg (by omega), if_neg (by omega),
      ih (fun f hf => hpos f (List.mem_cons_of_mem _ hf)) (by omega), Nat.add_assoc]

end

/-! ## Admission and the send path -/

def sendSize (P : Platform) (r : SendRequest) (a : SendAmbient) : Except Errno Nat :=
  if r.isBroadcast then broadcastCheck r a
  else
    match sendCheck P r with
    | .error e => .error e
    | .ok _ => fragmentCountFor a.frameMtu r.payload.length

/-- The send path may build these frames for the message, from whatever the device is by then. -/
inductive Builds (P : Platform) (r : SendRequest) (a : SendAmbient) : List Octets → Prop where
  | unicast {d d' e e' : Device} {s : Sealing} {fails : Nat → Bool} {frames : List Octets}
      (hopen : sendOpen P d r a = (d', .ok s)) (hseal : sealFrames P s fails 0 s.count e = (e', .ok frames)) :
        Builds P r a frames
  | broadcast {d d' : Device} {g : Signing} {fails : Nat → Bool} {sign : Nat → Except Errno Octets}
      {frames : List Octets}
      (hsend : broadcastSend d r a = (d', .ok g))
        (hsize : ∀ i octets, sign i = .ok octets → octets.length = WIRE_SIGNATURE_SIZE)
      (hsign : signFrames g fails sign 0 g.count = .ok frames) : Builds P r a frames

section
variable {P : Platform} {r : SendRequest} {a : AdmitAmbient} {sa : SendAmbient}

def frameOverhead (r : SendRequest) : Nat := WIRE_DATA_SIZE + if r.isBroadcast then WIRE_BROADCAST_OVERHEAD else 0

theorem admitCheck_eq (hup : a.up = true) (hmtu : sa.frameMtu = a.frameMtu) :
    Submit.admitCheck P r a = .ok x ↔ ∃ n, x = (n, frameOverhead r) ∧ sendSize P r sa = .ok n := by
  have hmap : ∀ (c : Except Errno Nat), c.map (·, frameOverhead r) = .ok x ↔ ∃ n, x = (n, frameOverhead r) ∧
    c = .ok n := by
    intro c
    cases c with
    | error e => simp [Except.map]
    | ok n => simp [Except.map, eq_comm]
  unfold Submit.admitCheck
  cases hform : r.malformed with
  | true => simp [sendSize, sendCheck, broadcastCheck, hform]
  | false =>
    cases hcast : r.isBroadcast with
    | false =>
      cases hdest : r.destination with
      | none => simp [sendSize, sendCheck, hform, hcast, hdest]
      | some node =>
        cases hvalid : nodeIdValid P node with
        | false => simp [sendSize, sendCheck, hform, hcast, hdest, hvalid]
        | true =>
          by_cases hecho : r.destinationService = SERVICE_ECHO ∧ r.isReliable = true
          · simp [sendSize, sendCheck, hform, hcast, hdest, hvalid, hecho]
          · have h := hmap (fragmentCountFor sa.frameMtu r.payload.length)
            rw [if_neg (by simp), if_neg (by simp [hvalid]), if_neg (by simp), if_neg (by simp [hecho])]
            simpa [sendSize, sendCheck, hform, hcast, hdest, hvalid, hecho, hup, frameOverhead, fragmentCountFor, hmtu]
              using h
    | true =>
      cases hdest : r.destination with
      | some node => simp [sendSize, broadcastCheck, hform, hcast, hdest]
      | none =>
        by_cases hbad : r.isReliable = true ∨ BROADCAST_MTU < r.payload.length ∨ r.sourceService = SERVICE_ECHO ∨
            r.destinationService = SERVICE_ECHO
        · have hno : ∀ n, broadcastCheck r sa ≠ .ok n := by
            intro n h
            unfold broadcastCheck at h
            split_ifs at h with h1 h2 h3 h4
            exact absurd hbad (by simp only [not_or] at h2; simp [h2, h3, h4])
          simp [sendSize, hcast, hbad, hno]
        · have h := hmap (broadcastCheck r sa)
          rw [if_neg (by simp), if_neg (by simp), if_neg (by simp [hbad]), if_neg (by simp)]
          simp only [not_or] at hbad
          simpa [sendSize, broadcastCheck, hform, hcast, hdest, hbad, hup, frameOverhead, hmtu] using h

theorem broadcastSend_ok {d d' : Device} {g : Signing} (h : broadcastSend d r sa = (d', .ok g)) :
    ∃ n, broadcastCheck r sa = .ok n ∧ g.count = n ∧ g.payload = r.payload ∧
      g.payloadMtu = sa.frameMtu - (WIRE_DATA_SIZE + WIRE_BROADCAST_OVERHEAD) := by
  unfold broadcastSend at h
  split at h
  · exact nomatch (Prod.mk.inj h).2
  rename_i n hcheck
  split_ifs at h
  iterate 4 exact nomatch (Prod.mk.inj h).2
  split at h
  · exact nomatch (Prod.mk.inj h).2
  · obtain rfl := Except.ok.inj (Prod.mk.inj h).2
    exact ⟨n, hcheck, rfl, rfl, rfl⟩

theorem broadcastCheck_ok (h : broadcastCheck r sa = .ok n) :
    r.isBroadcast = true ∧ r.payload.length ≤ BROADCAST_MTU ∧
      fragmentCountWith (WIRE_DATA_SIZE + WIRE_BROADCAST_OVERHEAD) sa.frameMtu r.payload.length = .ok n := by
  unfold broadcastCheck at h
  split_ifs at h with hform _ _ hlong
  simp only [not_or, Bool.not_eq_false] at hform
  exact ⟨hform.2.1, Nat.le_of_not_lt hlong, h⟩

theorem admitCheck_up (h : Submit.admitCheck P r a = .ok x) : a.up = true := by
  by_contra hdown
  rw [Bool.not_eq_true] at hdown
  simp only [Submit.admitCheck, hdown, if_true] at h
  split_ifs at h

theorem sendSize_bytes (h : sendSize P r sa = .ok n) : frameOverhead r * n + r.payload.length ≤ TX_BYTE_LIMIT := by
  unfold sendSize at h
  split_ifs at h with hcast
  · obtain ⟨-, hlength, hcount⟩ := broadcastCheck_ok h
    have hfragments := fragmentCountWith_le hcount
    simp only [frameOverhead, hcast, if_true, WIRE_DATA_SIZE, WIRE_BROADCAST_OVERHEAD, BROADCAST_MTU, FRAGMENT_LIMIT,
      TX_BYTE_LIMIT, MESSAGE_MTU] at *
    omega
  · split at h
    · cases h
    · rename_i hcheck
      have hfragments := fragmentCountWith_le h
      have hlength : r.payload.length ≤ MESSAGE_MTU := by
        have hform := (sendCheck_ok hcheck).1
        simp only [SendRequest.malformed, Bool.or_eq_false_iff, decide_eq_false_iff_not, Nat.not_lt] at hform
        exact hform.1.1.1.1.1.1
      simp only [frameOverhead, hcast, WIRE_DATA_SIZE, FRAGMENT_LIMIT, TX_BYTE_LIMIT, MESSAGE_MTU] at *
      simp only [Bool.false_eq_true, if_false]
      omega

theorem Builds.size (h : Builds P r sa frames) :
    ∃ n, sendSize P r sa = .ok n ∧ frames.length = n ∧
      (frames.map List.length).sum = frameOverhead r * n + r.payload.length ∧
      ∀ frame ∈ frames, frameOverhead r ≤ frame.length := by
  cases h with
  | @unicast d d' e e' s fails frames hopen hseal =>
    obtain ⟨destination, n, i, p, marker, orderTx, hcheck, hcount, -, -, -, -, -, -, -, rfl⟩ := sendOpen_ok hopen
    have hcast := (sendCheck_ok hcheck).2.2.1
    have hoverhead : frameOverhead r = WIRE_DATA_SIZE := by simp [frameOverhead, hcast]
    rw [hoverhead]
    exact ⟨n, by simp [sendSize, hcast, hcheck, hcount],
      frames_size (sealFrames_frames hseal) (fragmentCountWith_ok hcount).2.2.2 fun i frame => sealFrame_length rfl⟩
  | @broadcast d d' g fails sign frames hsend hsize hsign =>
    obtain ⟨n, hcheck, rfl, hpayload, hmtu⟩ := broadcastSend_ok hsend
    obtain ⟨hcast, -, hcount⟩ := broadcastCheck_ok hcheck
    have hoverhead : frameOverhead r = WIRE_DATA_SIZE + WIRE_BROADCAST_OVERHEAD := by simp [frameOverhead, hcast]
    have hfits := (fragmentCountWith_ok hcount).2.2.2
    rw [← hpayload, ← hmtu] at hfits
    rw [hoverhead, ← hpayload]
    refine ⟨g.count,
      by simp [sendSize, hcast, hcheck], frames_size (signFrames_frames hsign) hfits fun i frame hframe => ?_⟩
    cases hoctets : sign i with
    | error e =>
      rw [hoctets] at hframe
      simp only [signFrame] at hframe
      split at hframe <;> cases hframe
    | ok octets =>
      rw [hoctets] at hframe
      exact signFrame_length (hsize i octets hoctets) hframe

end

/-- The frames that are built are as many, and have as many octets, as the admission reserved. -/
theorem admission_agrees (P : Platform) (m : Submission) (a : AdmitAmbient) (sa : SendAmbient)
    (hmtu : sa.frameMtu = a.frameMtu) :
    (a.up = true → ((∃ x, Submit.admitCheck P m.request a = .ok x) ↔ ∃ n, sendSize P m.request sa = .ok n)) ∧
    ∀ d t message nowMs q id, Submit.dataAdmit P d t m message a nowMs = (q, .ok id) →
      ∃ j v, q.reservations j = some v ∧ v.id = id ∧ ∀ frames, Builds P m.request sa frames →
        frames.length = v.count ∧ (frames.map List.length).sum = v.bytes ∧ batchBytes frames 0 = .ok v.bytes := by
  refine ⟨fun hup => ?_, fun d t message nowMs q id h => ?_⟩
  · simp only [admitCheck_eq hup hmtu]
    exact ⟨fun ⟨_, n, _, hn⟩ => ⟨n, hn⟩, fun ⟨n, hn⟩ => ⟨_, n, rfl, hn⟩⟩
  · unfold Submit.dataAdmit at h
    split at h
    · exact nomatch (Prod.mk.inj h).2
    · rename_i args r hargs
      obtain ⟨x, _, _, hcheck, hcount, hbytes, -⟩ := Submit.reserveArgs_ok hargs
      rcases queueReserve_cases t.queue args r nowMs a.alloc with ⟨ns, e, heq⟩ |
        ⟨ns, peers, flows, j, p, f, -, -, -, -, heq⟩
      · rw [heq] at h
        exact nomatch (Prod.mk.inj h).2
      · rw [heq] at h
        obtain ⟨rfl, hid⟩ := Prod.mk.inj h
        refine ⟨j, _, Table.set_self _ _ _, Except.ok.inj hid, fun frames hbuilds => ?_⟩
        obtain ⟨n, hsize, hlength, hsum, hpos⟩ := hbuilds.size
        obtain ⟨n', rfl, hsize'⟩ := (admitCheck_eq (admitCheck_up hcheck) hmtu).mp hcheck
        obtain rfl := Except.ok.inj (hsize.symm.trans hsize')
        have htotal : (frames.map List.length).sum = args.bytes := hsum.trans hbytes.symm
        refine ⟨hlength.trans hcount.symm, htotal, ?_⟩
        have hfits := sendSize_bytes hsize
        have hframe : ∀ frame ∈ frames, 0 < frame.length := fun frame hmem =>
          Nat.lt_of_lt_of_le (Nat.lt_of_lt_of_le (by decide) (Nat.le_add_right WIRE_DATA_SIZE _)) (hpos frame hmem)
        rw [batchBytes_of hframe (by omega), Nat.zero_add, htotal]
        rfl

namespace Scenario

def herald : Submission := { request := ⟨none, 256, 257, [1, 2, 3], F_BROADCAST, 1000, 0⟩ }

def heraldAmbient : SendAmbient := ⟨130, true, false, ⟨1, by decide⟩⟩

def heraldDevice : Device := { identityReady := true, transportReady := true }

def heraldAdmitted : TxQueue × Except Errno Nat :=
  Submit.dataAdmit .plain heraldDevice { queue := { stopping := false } } herald 0 ⟨true, 0, 130, true⟩ 0

def heraldSigning : Signing where
  template := broadcastTemplate heraldDevice herald.request heraldAmbient 2
  baseCounter := 1
  count := 2
  payloadMtu := 2
  payload := [1, 2, 3]
  metadata := { destinationLocator := LINK_LOCATOR_BROADCAST }

def heraldSign (_ : Nat) : Except Errno Octets := .ok (List.replicate WIRE_SIGNATURE_SIZE 7)

def heraldFrames : List Octets := (signFrames heraldSigning (fun _ => false) heraldSign 0 2).toOption.getD []

end Scenario

open Scenario

theorem admission_agrees_broadcast : ∃ j v, heraldAdmitted.1.reservations j = some v ∧
    heraldFrames.length = v.count ∧ (heraldFrames.map List.length).sum = v.bytes := by
  have hadm : heraldAdmitted = (heraldAdmitted.1, .ok 1) := Prod.ext rfl (by decide +kernel)
  obtain ⟨j, v, hv, -, hframes⟩ :=
    (admission_agrees .plain herald ⟨true, 0, 130, true⟩ heraldAmbient rfl).2
    _ _ _ _ _ _ hadm
  have hsign : signFrames heraldSigning (fun _ => false) heraldSign 0 2 = .ok heraldFrames := by
    decide +kernel
  have hsize : ∀ i octets, heraldSign i = .ok octets → octets.length = WIRE_SIGNATURE_SIZE := by
    rintro i _ ⟨⟩
    rfl
  obtain ⟨hcount, hbytes, -⟩ :=
    hframes _ (.broadcast (d := heraldDevice) (g := heraldSigning) rfl hsize hsign)
  exact ⟨j, v, hv, hcount, hbytes⟩

end Melodi
