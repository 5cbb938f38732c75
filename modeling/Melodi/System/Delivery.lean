import Melodi.System.Custody

/-!
# At-most-once delivery inside a session

* `message_handed_at_most_once` : a message is handed over at most once in a session.
-/

namespace Melodi
open Lib Scenario
variable {d d' : Device} {P : Platform} {s : Node}

/-! ## What a step does to the windows -/

/-- What a step that is no control operation can do to the peers and the accepted frames. -/
inductive Marking (d d' : Device) : Prop where
  | marks {i p counter kind d₁ t} (hp : d.peers i = some p)
      (hm : markAccepted d i p counter kind = .ok (d₁, t)) (hpeers : d'.peers = d₁.peers)
      (hserial : d'.serial = d₁.serial) (haccepts : d'.accepts = d₁.accepts)
  | same (hpeers : d'.peers = d.peers) (hserial : d'.serial = d.serial) (haccepts : d'.accepts = d.accepts)

theorem Sends.marking (h : Sends d d') : Marking d d' := by
  obtain ⟨es, hlog, hes⟩ := h.log
  exact .same h.peers h.serial (hes.accepts hlog)

theorem Stage.marking {bindings : List Binding} {a : Label} {c : Call} {next : List Call}
    (h : Stage P bindings d a c d' next) : Marking d d' := by
  have hcommit : ∀ {o : Opened} {a : Ambient} {r}, dataCommit P d o a = (d', r) → Marking d d' := by
    intro o a r h
    rcases dataCommit_cases h with ⟨rfl, -⟩ | ⟨rfl, -⟩ | ⟨i, p, d₁, t, rx', hcur, hm, rfl, -⟩
    · exact .same rfl rfl rfl
    · exact .same rfl rfl rfl
    · exact .marks hcur.slot hm rfl rfl rfl
  have hmark : ∀ {o : BroadcastOpened} {alloc : Bool} {r}, broadcastMark d o alloc = (d', r) → Marking d d' := by
    intro o alloc r h
    rcases broadcastMark_cases h with ⟨rfl, -⟩ | ⟨i, p, t, hp, hm, -⟩
    · exact .same rfl rfl rfl
    · exact .marks (broadcastPeerLocked_ok hp).1 hm rfl rfl rfl
  have hadm : ∀ {o : BroadcastOpened} {t : Token} {a : Ambient} {r}, broadcastAdmit P d o t a = (d', r) →
      Marking d d' := by
    intro o t a r h
    rcases broadcastAdmit_cases h with ⟨rfl, -⟩ | ⟨rx', rfl, -⟩
    · exact .same rfl rfl rfl
    · exact .same rfl rfl rfl
  cases h with
  | commitFailed h => exact hcommit h
  | commit h => exact hcommit h
  | markFailed h => exact hmark h
  | mark h => exact hmark h
  | admitFailed h => exact hadm h
  | admitBroadcast h => exact hadm h
  | deliver => exact .same rfl rfl rfl
  | delivered => exact .same rfl rfl rfl
  | hand => exact .same rfl rfl rfl
  | echoFailed h | echo h =>
    obtain ⟨n, hr⟩ := sendOpen_reserves h
    exact hr.sends.marking
  | @store i jiffies plan =>
    obtain ⟨receipts, heq⟩ := receiptSection_eq P d plan jiffies
    rw [heq]
    exact .same rfl rfl rfl
  | sendAck => exact (dataSendAck_sends ..).marking
  | @ackCommit i o =>
    rcases ackCommit_cases d o with heq | ⟨i, p, t, hp, hm⟩
    · rw [heq]
      exact .same rfl rfl rfl
    · exact .marks hp hm rfl rfl rfl
  | sealed => exact (sealFrames_sends ..).marking

theorem step_marking (P : Platform) (s : Node) (a : Label) :
    (∃ c, a = .control c ∧ (step P s a).dev = controlStep P s.dev c) ∨ Marking s.dev (step P s a).dev := by
  have hmove := step_moves P s a
  generalize step P s a = s' at hmove ⊢
  cases hmove with
  | stay => exact .inr (.same rfl rfl rfl)
  | @control c => exact .inl ⟨c, rfl, rfl⟩
  | bind => exact .inr (.same rfl rfl rfl)
  | rxData h => exact .inr (.same rfl rfl rfl)
  | rxAck h => exact .inr (.same rfl rfl rfl)
  | stage hi hc h => exact .inr h.marking
  | @work jiffies bootNs hidle =>
    obtain ⟨rx', r, heq, -⟩ := reassemblyWork_polls s.dev jiffies (reliabilityNow bootNs)
    rw [heq]
    exact .inr (.same rfl rfl rfl)
  | workDone h => exact .inr (.same rfl rfl rfl)
  | workDeliver h => exact .inr (.same rfl rfl rfl)
  | sendFailed h | send h =>
    obtain ⟨n, hr⟩ := sendOpen_reserves h
    exact .inr hr.sends.marking

/-! ## Windows and acceptances -/

def Device.counters (d : Device) (session : Nat) : Set Nat :=
  { c | ∃ t ∈ d.accepts, t.session = session ∧ t.counter = c }

/-- Every window stands for the counters accepted in its session, and no counter was accepted twice in one. -/
structure Windows (d : Device) : Prop where
  session_lt : ∀ t ∈ d.accepts, t.session < d.serial
  window : ∀ i p, d.peers i = some p → Represents p.receiveReplay (d.counters p.session)
  unique : (d.accepts.map fun t => (t.session, t.counter)).Nodup

theorem windows_initial : Windows Node.initial.dev where
  session_lt := by simp [Node.initial, Device.accepts]
  window := by simp [Node.initial]
  unique := by simp [Node.initial, Device.accepts]

theorem Windows.congr (hw : Windows d) (hpeers : d'.peers = d.peers) (hserial : d'.serial = d.serial)
    (haccepts : d'.accepts = d.accepts) : Windows d' where
  session_lt := by
    rw [haccepts, hserial]
    exact hw.session_lt
  window := by
    intro i p hp
    rw [Device.counters, haccepts]
    exact hw.window i p (hpeers ▸ hp)
  unique := by
    rw [haccepts]
    exact hw.unique

theorem Windows.sheds (hw : Windows d) (hs : Sheds d d') : Windows d' := by
  obtain ⟨es, hlog, hes⟩ := hs.silent
  have haccepts := hes.accepts hlog
  refine ⟨fun t ht => ?_, fun i p hp => ?_, haccepts ▸ hw.unique⟩
  · exact Nat.lt_of_lt_of_le (hw.session_lt t (haccepts ▸ ht)) hs.serial_le
  rw [Device.counters, haccepts]
  rcases hs.peer i p hp with ⟨p₀, hp₀, hk⟩ | hr
  · rw [hk.receiveReplay, hk.session]
    exact hw.window i p₀ hp₀
  -- a new session has accepted nothing
  have hempty : { c | ∃ t ∈ d.accepts, t.session = p.session ∧ t.counter = c } = ∅ := by
    ext c
    simp only [Set.mem_ofPred_eq, Set.mem_empty_iff_false, iff_false, not_exists, not_and]
    intro t ht hses
    have := hw.session_lt t ht
    have := hr.session_ge
    omega
  rw [hempty, hr.receiveReplay]
  exact represents_reset

theorem Windows.fresh {i : Fin PEER_LIMIT} {p : Peer} {counter : Nat} {kind : FrameKind} {t : Token} (hw : Windows d)
    (hp : d.peers i = some p) (hm : markAccepted d i p counter kind = .ok (d', t)) :
    counter ∉ d.counters p.session := by
  obtain ⟨-, w, hmark, -⟩ := markAccepted_ok hm
  have hrep := hw.window i p hp
  have hseen := (replayMark_isOk_iff p.receiveReplay counter).mp ⟨w, hmark⟩
  rw [replaySeen_eq_false_iff hrep] at hseen
  rcases hseen.2 with hlt | ⟨-, hnot⟩
  · intro hmem
    exact absurd (hrep.le_highest counter hmem) (Nat.not_le.mpr hlt)
  · exact hnot

theorem Windows.marks {i : Fin PEER_LIMIT} {p : Peer} {counter : Nat} {kind : FrameKind} {t : Token} (hw : Windows d)
    (ho : Owned d) (hp : d.peers i = some p) (hm : markAccepted d i p counter kind = .ok (d', t)) : Windows d' := by
  have hfresh := hw.fresh hp hm
  have haccepts := markAccepted_accepts hm
  obtain ⟨rfl, w, hmark, rfl⟩ := markAccepted_ok hm
  refine ⟨fun t ht => ?_, fun j q hq => ?_, ?_⟩
  · rw [haccepts] at ht
    rcases List.mem_cons.mp ht with rfl | ht
    · exact ho.session_lt i p hp
    · exact hw.session_lt t ht
  · rw [Device.counters, haccepts]
    dsimp only at hq
    rw [Table.set_apply] at hq
    split_ifs at hq with hj
    · rw [← Option.some.inj hq]
      have hset :
        { c | ∃ t ∈ (⟨p.session, p.residence, p.nodeId, p.generation, counter, kind⟩ :: d.accepts : List Token),
          t.session = p.session ∧ t.counter = c } = insert counter (d.counters p.session) := by
        ext c
        simp [Device.counters, eq_comm]
      rw [hset]
      exact replayMark_spec (hw.window i p hp) hmark
    · have hset :
        { c | ∃ t ∈ (⟨p.session, p.residence, p.nodeId, p.generation, counter, kind⟩ :: d.accepts : List Token),
          t.session = q.session ∧ t.counter = c } = d.counters q.session := by
        have hne : p.session ≠ q.session := fun heq => hj (ho.session_inj j i q p hq hp heq.symm)
        ext c
        simp [Device.counters, hne]
      rw [hset]
      exact hw.window j q hq
  · rw [haccepts, List.map_cons, List.nodup_cons]
    refine ⟨fun hmem => hfresh ?_, hw.unique⟩
    obtain ⟨t, ht, heq⟩ := List.mem_map.mp hmem
    obtain ⟨hses, hcnt⟩ := Prod.mk.inj heq
    exact ⟨t, ht, hses, hcnt⟩

theorem Windows.marking (hw : Windows d) (ho : Owned d) (h : Marking d d') : Windows d' := by
  cases h with
  | marks hp hm hpeers hserial haccepts => exact (hw.marks ho hp hm).congr hpeers hserial haccepts
  | same hpeers hserial haccepts => exact hw.congr hpeers hserial haccepts

theorem step_windows (P : Platform) (s : Node) (a : Label) (ho : NodeOwned s) (hw : Windows s.dev) :
    Windows (step P s a).dev := by
  rcases step_marking P s a with ⟨c, -, heq⟩ | hm
  · rw [heq]
    exact hw.sheds (controlStep_evolves P s.dev c ho.dev).2
  · exact hw.marking ho.dev hm

/-! ## All invariants of the receive side -/

/-- Every accepted frame is in one place, and the windows remember it. -/
structure Guarded (s : Node) : Prop where
  owned : NodeOwned s
  custody : Custody s
  windows : Windows s.dev

theorem guarded_initial : Guarded Node.initial := ⟨nodeOwned_initial, custody_initial, windows_initial⟩

theorem step_guarded (P : Platform) (s : Node) (a : Label) (hg : Guarded s) : Guarded (step P s a) where
  owned := step_owned P s a hg.owned
  custody := step_custody P s a hg.owned hg.custody
  windows := step_windows P s a hg.owned hg.windows

theorem run_guarded (P : Platform) (as : List Label) : Guarded (run (step P) Node.initial as) :=
  run_invariant (step P) Guarded (step_guarded P) guarded_initial as

/-! ## Hand-overs -/

def Complete.hasFrame (m : Complete) (session counter : Nat) : Bool :=
  m.origin.tokens.any fun t => t.session = session && t.counter = counter

def Complete.carries (m : Complete) (session : Nat) (s : Sealing) : Bool :=
  (List.range s.count).all fun index => m.hasFrame session (s.baseCounter + index)

theorem countP_le_one_of_nodup_map {α κ : Type} [DecidableEq κ] {l : List α} {key : α → κ} (h : (l.map key).Nodup)
    {q : α → Bool} {k : κ} (hq : ∀ a, q a = true → key a = k) : l.countP q ≤ 1 := by
  have hcount : (l.map key).count k ≤ 1 := List.nodup_iff_count_le_one.mp h k
  rw [List.count, List.countP_map] at hcount
  refine Nat.le_trans (List.countP_mono_left fun a _ ha => ?_) hcount
  simpa using hq a ha

theorem filter_length_le_delivered (d : Device) (q : Token → Bool) (p : Complete → Bool)
    (hp : ∀ m, p m = true → 0 < m.count q) : (d.handed.filter p).length ≤ d.delivered q := by
  unfold Device.delivered
  induction d.handed with
  | nil => simp
  | cons m ms ih =>
    rw [List.map_cons, List.sum_cons]
    by_cases hm : p m = true
    · have := hp m hm
      rw [List.filter_cons_of_pos hm, List.length_cons]
      omega
    · rw [List.filter_cons_of_neg hm]
      omega

theorem Guarded.handed_once (hg : Guarded s) {q : Token → Bool} (hq : s.dev.accepts.countP q ≤ 1) {p : Complete → Bool}
    (hp : ∀ m, p m = true → 0 < m.count q) : (s.dev.handed.filter p).length ≤ 1 := by
  have hfilter := filter_length_le_delivered s.dev q p hp
  have hcustody := hg.custody q
  unfold Node.count at hcustody
  omega

theorem frame_handed_once (hg : Guarded s) (session counter : Nat) :
    (s.dev.handed.filter (·.hasFrame session counter)).length ≤ 1 := by
  refine hg.handed_once (q := fun t => t.session = session && t.counter = counter) ?_ ?_
  · refine countP_le_one_of_nodup_map hg.windows.unique (k := (session, counter)) fun t ht => ?_
    simpa using ht
  · intro m hm
    exact List.countP_pos_iff.mpr (List.any_eq_true.mp hm)

/-- Every accepted frame is in one place at most: stored, buffered, held by a call or by the work, or handed over. -/
theorem frame_in_one_place (P : Platform) (as : List Label) (session counter : Nat) :
    (run (step P) Node.initial as).count (fun t => t.session = session && t.counter = counter) ≤ 1 := by
  have hg := run_guarded P as
  refine Nat.le_trans (hg.custody _)
    (countP_le_one_of_nodup_map hg.windows.unique (k := (session, counter)) fun t ht => ?_)
  simpa using ht

/-- A window stands for the counters accepted in the session of its peer, and each of them was accepted once. -/
structure WindowsExact (d : Device) : Prop where
  once : (d.accepts.map fun t => (t.session, t.counter)).Nodup
  highest : ∀ i p, d.peers i = some p → IsLUB (d.counters p.session) p.receiveReplay.highest
  fresh : ∀ i p, d.peers i = some p → ∀ c, replaySeen p.receiveReplay c = false ↔
    c ≠ 0 ∧ c ∉ d.counters p.session ∧ p.receiveReplay.highest < c + REPLAY_WINDOW_BITS

/-- In every reachable state the window of a peer lets exactly those counters pass that are new in the present session
and not too old. -/
theorem windows_exact (P : Platform) (as : List Label) : WindowsExact (run (step P) Node.initial as).dev where
  once := (run_guarded P as).windows.unique
  highest i p hp := by
    have hw := (run_guarded P as).windows.window i p hp
    refine ⟨hw.le_highest, fun b hb => ?_⟩
    by_cases hzero : p.receiveReplay.highest = 0
    · omega
    · exact hb (hw.highest_mem hzero)
  fresh i p hp c := by
    have hw := (run_guarded P as).windows.window i p hp
    rw [replaySeen_eq_false_iff hw, Accepts, REPLAY_WINDOW_BITS]
    constructor
    · rintro ⟨hc, h | ⟨h, hnot⟩⟩
      · exact ⟨hc, fun hin => Nat.not_lt.mpr (hw.le_highest c hin) h, by omega⟩
      · exact ⟨hc, hnot, by omega⟩
    · rintro ⟨hc, hnot, h⟩
      exact ⟨hc, (Nat.lt_or_ge p.receiveReplay.highest c).imp_right fun _ => ⟨by omega, hnot⟩⟩

/-- What is kept of a flow is of a session that goes on, that of the one record its peer has. -/
structure SessionBound (d : Device) : Prop where
  flow : ∀ i f, d.rx.orderRx i = some f → ∃! j, ∃ p, d.peers j = some p ∧ f.OwnedBy p
  buffered : ∀ i m, d.rx.orderMessages i = some m →
    ∃! j, ∃ p, d.peers j = some p ∧ p.nodeId = m.message.source ∧ p.session = m.message.origin.session

/-- In every reachable state each receive flow and each buffered message belongs to the present session of exactly one
peer. -/
theorem flows_session_bound (P : Platform) (as : List Label) : SessionBound (run (step P) Node.initial as).dev := by
  have ho := (run_guarded P as).owned.dev
  refine ⟨fun i f hf => ?_, fun i m hm => ?_⟩
  · obtain ⟨j, p, hp, hown⟩ := ho.flow_owner i f hf
    refine ⟨j, ⟨p, hp, hown⟩, ?_⟩
    rintro k ⟨q, hq, hown'⟩
    exact ho.session_inj k j q p hq hp (hown'.session.trans hown.session.symm)
  · obtain ⟨f, hf, hfits⟩ := ho.message_flow i m hm
    obtain ⟨j, p, hp, hown⟩ := ho.flow_owner _ f hf
    have hsession := hown.session.trans hfits.session
    refine ⟨j, ⟨p, hp, hown.nodeId.trans hfits.source, hsession⟩, ?_⟩
    rintro k ⟨q, hq, -, hq'⟩
    exact ho.session_inj k j q p hq hp (hq'.trans hsession.symm)

theorem sendOpen_count_pos {r : SendRequest} {a : SendAmbient} {s : Sealing} (h : sendOpen P d r a = (d', .ok s)) :
    0 < s.count := by
  obtain ⟨destination, count, i, p, marker, orderTx, -, hcount, -, -, -, -, -, -, -, rfl⟩ := sendOpen_ok h
  exact (fragmentCountWith_ok hcount).2.1

/-- Whatever arrives, in whatever order and however often, a message sealed under one session key is handed over at
most once in that session. -/
theorem message_handed_at_most_once (P : Platform) (sender sender' : Device) (r : SendRequest) (a : SendAmbient)
    (s : Sealing) (hsend : sendOpen P sender r a = (sender', .ok s)) (as : List Label) (session : Nat) :
    ((run (step P) Node.initial as).dev.handed.filter (·.carries session s)).length ≤ 1 := by
  have hframe := frame_handed_once (run_guarded P as) session s.baseCounter
  refine Nat.le_trans (List.Sublist.length_le ?_) hframe
  refine List.monotone_filter_right _ fun m hm => ?_
  have := List.all_eq_true.mp hm 0 (List.mem_range.mpr (sendOpen_count_pos hsend))
  simpa using this

/-- Every fragment of one message arrives, is acknowledged, and arrives again. -/
def Scenario.arrivesTwice : List Label :=
  established ++ longFrames.flatMap fun frame =>
    arrives frame ++ [.deliver 0 (.ok ()), .store 0 0, .sendAck 0 (.ok ())] ++ arrives frame ++ [.sendAck 0 (.ok ())]

theorem message_handed_at_most_once_again : ∃ sender' s,
    sendOpen Platform.plain sending longRequest sameId = (sender', .ok s) ∧ s.count = 3 ∧
      ((run (step Platform.plain) Node.initial arrivesTwice).dev.handed.filter (·.carries 1 s)).length = 1 := by
  have hhanded :
    ((sendOpen Platform.plain sending longRequest sameId).2.toOption.any fun s =>
      s.count = 3 && 0 < ((run (step Platform.plain) Node.initial arrivesTwice).dev.handed.filter
        (·.carries 1 s)).length) = true := by decide +kernel
  cases hs : sendOpen Platform.plain sending longRequest sameId with
  | mk sender' r =>
    cases r with
    | error e => simp [hs, Except.toOption] at hhanded
    | ok s =>
      simp only [hs, Except.toOption, Option.any_some, Bool.and_eq_true, decide_eq_true_eq] at hhanded
      exact ⟨sender', s, rfl, hhanded.1, Nat.le_antisymm (message_handed_at_most_once _ _ _ _ _ _ hs _ _) hhanded.2⟩

end Melodi
