import Melodi.System.Delivery

/-!
# Signed broadcasts across sessions

A broadcast is signed by the long-lived identity, but its counter is marked in the window of the session. A new session
forgets the marks, and the same broadcast is accepted again.
-/

namespace Melodi
open Lib Scenario
variable {c : Claim} {d d' : Device} {i j : Fin PEER_LIMIT} {p : Peer} {P : Platform} {jiffies : UInt64}
variable {node : NodeId} {resolveLocal : Bool} {op : Control}

def Complete.hasBroadcast (m : Complete) (residence counter : Nat) : Bool :=
  m.origin.tokens.any fun t => t.kind = .broadcast && t.residence = residence && t.counter = counter

/-! ## The replay -/

namespace Scenario

def broadcastHeader : WireData where
  common :=
    { flags := WIRE_F_BROADCAST ||| WIRE_F_FINAL, sourceNativeLocator := 9,
      destinationNativeLocator := NATIVE_LOCATOR_BROADCAST, identityGeneration := 1, messageId := 42, counter := 3 }
  destinationService := 6
  sourceService := 5
  fragmentIndex := 0
  fragmentCount := 1
  logicalLength := 2
  priority := 1
  deliveryMode := DELIVERY_UNRELIABLE
  orderingMarker := 0

def broadcastArrives : List Label :=
  match wireEncodeBroadcastData 300 broadcastHeader (List.replicate 64 0) [1, 2] with
  | .error _ => []
  | .ok frame =>
    [.rxData frame { sourceLocator := 2, destinationLocator := LINK_LOCATOR_BROADCAST } true true true,
      .mark 0 true, .admitBroadcast 0 ⟨0, 0, true⟩, .deliver 0 (.ok ())]

def broadcastTwice : List Label :=
  established ++ broadcastArrives ++
    [.control (.hello (hello 3) link true 0), .control (.challenge (challenge 4) link true [8])] ++ broadcastArrives

end Scenario

/-- The peer is in the table with one residence and one generation throughout, and its broadcast is handed over
twice. -/
theorem broadcast_replayed :
    let s := run (step Platform.plain) Node.initial broadcastTwice
    (s.dev.handed.filter (·.hasBroadcast 0 3)).length = 2 ∧
      (s.dev.peers ⟨0, by decide⟩).map (fun p => (p.residence, p.generation)) = some (0, 1) ∧
      s.dev.accepts.map (fun t => (t.residence, t.generation)) = [(0, 1), (0, 1)] := by
  decide +kernel

/-! ## Operations that leave a peer alone -/

/-- If there is a peer at slot `i`, its record is `p` in everything that only a new session changes. -/
def Stays (i : Fin PEER_LIMIT) (p : Peer) (d : Device) : Prop := ∀ p', d.peers i = some p' → Kept p p'

theorem Stays.refl (hp : d.peers i = some p) : Stays i p d := by
  intro p' hp'
  rw [hp, Option.some.injEq] at hp'
  exact hp' ▸ Kept.refl p

theorem Stays.frame (hs : Stays i p d) (h : Frame d d') :
    Stays i p d' := by
  intro p' hp'
  obtain ⟨q, hq, hk⟩ := h.peer_of hp'
  exact (hs q hq).trans hk

theorem Stays.congr (hs : Stays i p d) (h : d'.peers i = d.peers i) :
    Stays i p d' := fun p' hp' => hs p' (h ▸ hp')

theorem Stays.of_none (h : d.peers i = none) : Stays i p d := by
  intro p' hp'
  rw [h] at hp'
  cases hp'

theorem peerSessionReset_other (h : j ≠ i) :
    (peerSessionResetLocked d i).peers j = d.peers j := by
  cases hp : d.peers i with
  | none => rw [peerSessionResetLocked_none hp]
  | some p => exact (peerSessionResetLocked_renews hp).others j h

/-- The frame claims the native locator of the device for a smaller NodeId: the device has to take another one, and ends
all its sessions. -/
def claimsLocal (d : Device) (c : Claim) : Bool := c.nativeLocator = d.localNativeLocator && c.nodeId < d.nodeId

/-- The operation ends the session of the peer without removing it: a frame whose claim passes the checks (its counter
is new) and that starts a session, moves the peer or takes the local locator, or a reset. -/
def Control.disturbs (P : Platform) (d : Device) (p : Peer) (op : Control) : Bool :=
  match op.claim P d with
  | some (c, resolveLocal) => (claimCheck P d c).isOk &&
    ((c.nodeId = p.nodeId && (op.startsAnew || !c.matchesPeer p)) || (resolveLocal && claimsLocal d c))
  | none => op.resets = some p.nodeId

theorem claimWrite_nodeId (d : Device) (c : Claim) (i : Fin PEER_LIMIT) :
    (claimWrite d c i).nodeId = d.nodeId ∧ (claimWrite d c i).localNativeLocator = d.localNativeLocator := by
  obtain ⟨_, _, _, _, _, heq⟩ := claimWrite_inside d c i
  rw [heq]
  exact ⟨rfl, rfl⟩

theorem claimWrite_other (h : j ≠ i) :
    (claimWrite d c i).peers j = d.peers j := by
  cases hp : d.peers i with
  | none => simp only [claimWrite, hp, Table.set_of_ne _ _ h]
  | some p =>
    cases hm : c.matchesPeer p with
    | true =>
      rw [claimWrite_matches hp hm]
      exact Table.set_of_ne _ _ h
    | false =>
      rw [claimWrite_differs hp hm]
      exact Table.set_of_ne _ _ h

theorem peerSlot_ne (hs : peerSlot d node = some j) (hp : d.peers i = some p) (hn : node ≠ p.nodeId) : i ≠ j := by
  rintro rfl
  rcases peerSlot_cases hs with ⟨hfree, -⟩ | ⟨q, hq, hqn⟩
  · rw [hfree] at hp
    cases hp
  · rw [hp, Option.some.injEq] at hq
    exact hn (by rw [← hqn, hq])

theorem claimWrite_stays (hp : d.peers i = some p) (hslot : peerSlot d c.nodeId = some j)
    (hc : c.nodeId = p.nodeId → c.matchesPeer p = true) :
    Stays i p (claimWrite d c j) := by
  by_cases hn : c.nodeId = p.nodeId
  · by_cases hij : i = j
    · rw [← hij, claimWrite_matches hp (hc hn)]
      intro p' hp'
      simp only [Table.set_self, Option.some.injEq] at hp'
      exact hp' ▸ Claim.update_kept hn.symm (hc hn)
    · exact (Stays.refl hp).congr (claimWrite_other hij)
  · exact (Stays.refl hp).congr (claimWrite_other (peerSlot_ne hslot hp hn))

theorem claimLocked_stays (hp : d.peers i = some p) (hc : (claimCheck P d c).isOk = true →
      (c.nodeId = p.nodeId → c.matchesPeer p = true) ∧ (resolveLocal = true → claimsLocal d c = false)) :
    Stays i p (claimLocked P d c resolveLocal).1 := by
  unfold claimLocked
  cases hcheck : claimCheck P d c with
  | error e => exact Stays.refl hp
  | ok j =>
    obtain ⟨hc, hl⟩ := hc (by rw [hcheck]; rfl)
    have hw := claimWrite_stays hp (claimCheck_slot hcheck) hc
    obtain ⟨hnode, hloc⟩ := claimWrite_nodeId d c j
    dsimp only
    split_ifs with hres
    · -- the claim does not win the local locator
      obtain ⟨hcol, hlt, rfl⟩ := hres
      rw [hnode] at hlt
      rw [decide_eq_true_eq, hloc] at hcol
      have := hl rfl
      simp [claimsLocal, hcol, hlt] at this
    · exact hw.frame (conflictsRecompute_frame _)
    · exact hw.frame (conflictsRecompute_frame _)

theorem claimLocked_checked {r : Claimed} (h : claimLocked P d c resolveLocal = (d', .ok r)) :
    (claimCheck P d c).isOk = true := by
  unfold claimLocked at h
  cases hcheck : claimCheck P d c with
  | error e => simp [hcheck] at h
  | ok j => rfl

theorem claimLocked_slot {r : Claimed} (h : claimLocked P d c resolveLocal = (d', .ok r)) :
    peerSlot d c.nodeId = some r.slot := by
  unfold claimLocked at h
  cases hcheck : claimCheck P d c with
  | error e => simp [hcheck] at h
  | ok j =>
    have hslot := claimCheck_slot hcheck
    simp only [hcheck] at h
    repeat' split at h
    all_goals first
      | (obtain ⟨-, hr⟩ := Prod.mk.inj h; cases hr; exact hslot)
      | cases h

theorem Stays.expire (hs : Stays i p d) (jiffies : UInt64) (j : Fin PEER_LIMIT) :
    Stays i p (peerExpire jiffies d j) := by
  unfold peerExpire
  split
  · exact hs
  split_ifs
  · exact hs
  by_cases hij : i = j
  · exact Stays.of_none (hij ▸ Table.clear_self _ _)
  · exact hs.congr ((Table.clear_of_ne _ hij).trans (peerSessionReset_other hij))

theorem peerExpiryWork_stays (hp : d.peers i = some p) : Stays i p (peerExpiryWork d jiffies) :=
  (List.foldlRecOn _ _ (Stays.refl hp) fun _ hs j _ => hs.expire jiffies j).frame (conflictsRecompute_frame _)

theorem identityCommit_peers (d : Device) (o : IdentityOpened) (configure : Bool) (i : Fin PEER_LIMIT) :
    (identityCommit d o configure).peers i = none := by
  unfold identityCommit
  rcases (identityRestart_frame (discoveryResetLocked (dataResetLocked _)) o configure).peers i with ⟨h, -⟩ |
    ⟨p, -, h, -⟩
  · exact h
  · cases h

theorem Settles.stays (h : Settles op d j d') (hs : Stays i p d) (hop : op.startsAnew = true → i ≠ j) :
    Stays i p d' := by
  cases h with
  | nothing => exact hs
  | notes hq hn => exact hs.frame (Frame.of_set hq hn.kept)
  | restarts hnew hq hn => exact (hs.frame (Frame.of_set hq hn.kept)).congr (peerSessionReset_other (hop hnew))
  | installs hnew hq hn h =>
    refine Stays.frame ?_ h.frame
    exact hs.congr (Table.set_of_ne _ _ (hop hnew))

theorem disturbs_claim (hclaim : op.claim P d = some (c, resolveLocal)) (hd : op.disturbs P d p = false)
    (hok : (claimCheck P d c).isOk = true) :
    (c.nodeId = p.nodeId → op.startsAnew = false ∧ c.matchesPeer p = true) ∧
      (resolveLocal = true → claimsLocal d c = false) := by
  simpa [Control.disturbs, hclaim, hok] using hd

theorem Operates.stays (h : Operates P d op d') (hp : d.peers i = some p) (hd : op.disturbs P d p = false) :
    Stays i p d' := by
  have hs := Stays.refl hp
  cases h with
  | passes _ h => exact hs.frame h.frame
  | refused hclaim h =>
    have hc := claimLocked_stays hp fun hok => (disturbs_claim hclaim hd hok).imp_left fun hm hn => (hm hn).2
    rwa [h] at hc
  | claims hclaim h hset =>
    have hc := claimLocked_stays hp fun hok => (disturbs_claim hclaim hd hok).imp_left fun hm hn => (hm hn).2
    rw [h] at hc
    refine hset.stays hc fun hnew => peerSlot_ne (claimLocked_slot h) hp fun hn => ?_
    rw [((disturbs_claim hclaim hd (claimLocked_checked h)).1 hn).1] at hnew
    cases hnew
  | challenges _ hq hn h => exact (hs.frame (Frame.of_set hq hn.kept)).frame h.frame
  | @resets _ j _ hclaim hop hj h =>
    obtain ⟨q, hq, rfl⟩ := peerByNode_some hj
    have hij : i ≠ j := by
      rintro rfl
      rw [hq, Option.some.injEq] at hp
      simp [Control.disturbs, hclaim, hop, hp] at hd
    exact (hs.frame h.frame).congr (peerSessionReset_other hij)
  | expires _ => exact peerExpiryWork_stays hp
  | identity _ => exact Stays.of_none (identityCommit_peers d _ _ i)
  | detaches _ h => exact Stays.of_none (congrFun h.peers i)

theorem controlStep_stays {c : Control} (hp : d.peers i = some p) (hd : c.disturbs P d p = false) :
    Stays i p (controlStep P d c) := (controlStep_operates P d c).stays hp hd

/-! ## One session for all broadcasts of a stay -/

/-- No control operation disturbs a peer one of whose broadcasts was accepted since it is in the table. -/
def Undisturbed (P : Platform) (s : Node) : Label → Prop
  | .control c => ∀ i, ∀ p ∈ s.dev.peers i,
    (∃ t ∈ s.dev.accepts, t.kind = .broadcast ∧ t.residence = p.residence) → c.disturbs P s.dev p = false
  | _ => True

instance decidableUndisturbed (P : Platform) (s : Node) (a : Label) : Decidable (Undisturbed P s a) :=
  match a with
  | .control c => inferInstanceAs (Decidable (∀ i, ∀ p ∈ s.dev.peers i,
      (∃ t ∈ s.dev.accepts, t.kind = .broadcast ∧ t.residence = p.residence) → c.disturbs P s.dev p = false))
  | .bind _ | .rxData .. | .commit .. | .mark .. | .admitBroadcast .. | .deliver .. | .echo .. | .store .. | .sendAck ..
  | .rxAck .. | .ackCommit _ | .work .. | .workDeliver _ | .send .. | .sealMessage .. => inferInstanceAs
      (Decidable True)

/-- All broadcasts accepted during one stay of a peer were accepted in one session, which is the present one if the peer
is still there. -/
structure Steady (d : Device) : Prop where
  residence_lt : ∀ t ∈ d.accepts, t.residence < d.serial
  current : ∀ t ∈ d.accepts, t.kind = .broadcast → ∀ i p, d.peers i = some p → p.residence = t.residence →
    p.session = t.session
  same : ∀ t ∈ d.accepts, ∀ t' ∈ d.accepts, t.kind = .broadcast → t'.kind = .broadcast → t.residence = t'.residence →
    t.session = t'.session

theorem steady_initial : Steady Node.initial.dev := by
  refine ⟨?_, ?_, ?_⟩ <;> simp [Node.initial, Device.accepts]

theorem Steady.marks {counter : Nat} {kind : FrameKind} {t : Token} (hs : Steady d) (ho : Owned d)
    (hp : d.peers i = some p) (hm : markAccepted d i p counter kind = .ok (d', t)) : Steady d' := by
  have haccepts := markAccepted_accepts hm
  obtain ⟨rfl, w, -, rfl⟩ := markAccepted_ok hm
  -- a mark changes no session and no residence
  have hat : ∀ j q, d.peers.set i { p with receiveReplay := w } j = some q →
      ∃ q₀, d.peers j = some q₀ ∧ q₀.session = q.session ∧ q₀.residence = q.residence := by
    intro j q hq
    rw [Table.set_apply] at hq
    split_ifs at hq with hj
    · rw [hj, ← Option.some.inj hq]
      exact ⟨p, hp, rfl, rfl⟩
    · exact ⟨q, hq, rfl, rfl⟩
  refine ⟨fun t ht => ?_, fun t ht hk j q hq hres => ?_, fun t ht t' ht' hk hk' hres => ?_⟩
  · rw [haccepts] at ht
    rcases List.mem_cons.mp ht with rfl | ht
    · exact ho.residence_lt i p hp
    · exact hs.residence_lt t ht
  · obtain ⟨q₀, hq₀, hses, hres₀⟩ := hat j q hq
    rw [haccepts] at ht
    rcases List.mem_cons.mp ht with rfl | ht
    · have hji : j = i := ho.residence_inj j i q₀ p hq₀ hp (hres₀.trans hres)
      rw [hji, hp, Option.some.injEq] at hq₀
      rw [← hses, ← hq₀]
    · exact hses ▸ hs.current t ht hk j q₀ hq₀ (hres₀.trans hres)
  · rw [haccepts] at ht ht'
    rcases List.mem_cons.mp ht with rfl | ht <;> rcases List.mem_cons.mp ht' with rfl | ht'
    · rfl
    · exact hs.current t' ht' hk' i p hp hres
    · exact (hs.current t ht hk i p hp hres.symm).symm
    · exact hs.same t ht t' ht' hk hk' hres

theorem Steady.congr (hs : Steady d) (hpeers : d'.peers = d.peers) (hserial : d'.serial = d.serial)
    (haccepts : d'.accepts = d.accepts) : Steady d' := by
  obtain ⟨h1, h2, h3⟩ := hs
  rw [← haccepts] at h1 h2 h3
  rw [← hserial] at h1
  rw [← hpeers] at h2
  exact ⟨h1, h2, h3⟩

theorem step_steady (P : Platform) (s : Node) (a : Label) (ho : NodeOwned s) (hu : Undisturbed P s a)
    (hs : Steady s.dev) : Steady (step P s a).dev := by
  rcases step_marking P s a with ⟨c, rfl, heq⟩ | hm
  · rw [heq]
    have hsheds := (controlStep_evolves P s.dev c ho.dev).2
    obtain ⟨es, hlog, hes⟩ := hsheds.silent
    have haccepts := hes.accepts hlog
    refine ⟨fun t ht => ?_, fun t ht hk i p' hp' hres => ?_, ?_⟩
    · exact Nat.lt_of_lt_of_le (hs.residence_lt t (haccepts ▸ ht)) hsheds.serial_le
    · rw [haccepts] at ht
      rcases hsheds.stay i p' hp' with ⟨p, hp, hres₀, -⟩ | hge
      · have hund := hu i p hp ⟨t, ht, hk, hres.symm.trans hres₀⟩
        rw [(controlStep_stays hp hund p' hp').session]
        exact hs.current t ht hk i p hp (hres₀.symm.trans hres)
      · -- a stay that began just now has accepted nothing
        have := hs.residence_lt t ht
        omega
    · rw [haccepts]
      exact hs.same
  · cases hm with
    | marks hp hm hpeers hserial haccepts => exact (hs.marks ho.dev hp hm).congr hpeers hserial haccepts
    | same hpeers hserial haccepts => exact hs.congr hpeers hserial haccepts

/-- **Without a disturbance every broadcast is handed over at most once.** -/
theorem broadcast_handed_once_undisturbed (P : Platform) (as : List Label)
    (hund : Along (step P) (Undisturbed P) Node.initial as) (residence counter : Nat) :
    ((run (step P) Node.initial as).dev.handed.filter (·.hasBroadcast residence counter)).length ≤ 1 := by
  have hinv : Guarded (run (step P) Node.initial as) ∧ Steady (run (step P) Node.initial as).dev :=
    run_induction (step P) (fun s => Guarded s ∧ Steady s.dev)
      (fun s a hu hi => ⟨step_guarded P s a hi.1, step_steady P s a hi.1.owned hu hi.2⟩)
      ⟨guarded_initial, steady_initial⟩ hund
  obtain ⟨hg, hs⟩ := hinv
  generalize run (step P) Node.initial as = s at hg hs
  refine hg.handed_once (q := fun t => t.kind = .broadcast && t.residence = residence && t.counter = counter) ?_ ?_
  · -- all such acceptances are in the session of the first one
    by_cases hex : ∃ t₀ ∈ s.dev.accepts, t₀.kind = .broadcast ∧ t₀.residence = residence
    · obtain ⟨t₀, ht₀, hk₀, hr₀⟩ := hex
      refine Nat.le_trans (Nat.le_of_eq (List.countP_congr fun t ht => ?_)) (countP_le_one_of_nodup_map
        hg.windows.unique (k := (t₀.session, counter))
        (q := fun t => t.kind = .broadcast && t.residence = residence && t.counter = counter && t.session = t₀.session)
        fun t ht => ?_)
      · simp only [Bool.and_eq_true, decide_eq_true_eq]
        refine ⟨fun h => ⟨h, ?_⟩, fun h => h.1⟩
        exact hs.same t ht t₀ ht₀ h.1.1 hk₀ (h.1.2.trans hr₀.symm)
      · simp only [Bool.and_eq_true, decide_eq_true_eq] at ht
        exact Prod.ext ht.2 ht.1.2
    · rw [List.countP_eq_zero.mpr]
      · exact Nat.zero_le _
      · intro t ht hq
        simp only [Bool.and_eq_true, decide_eq_true_eq] at hq
        exact hex ⟨t, ht, hq.1.1, hq.1.2⟩
  · intro m hm
    exact List.countP_pos_iff.mpr (List.any_eq_true.mp hm)

/-- The recorded broadcast is injected again in the same session. -/
def Scenario.broadcastAgain : List Label := established ++ broadcastArrives ++ broadcastArrives

theorem broadcast_handed_once_undisturbed_again :
    Along (step Platform.plain) (Undisturbed Platform.plain) Node.initial broadcastAgain ∧
      ((run (step Platform.plain) Node.initial broadcastAgain).dev.handed.filter (·.hasBroadcast 0 3)).length = 1 := by
  have hund : Along (step Platform.plain) (Undisturbed Platform.plain) Node.initial broadcastAgain := by
    decide +kernel
  have hhanded : 0 < ((run (step Platform.plain) Node.initial broadcastAgain).dev.handed.filter
      (·.hasBroadcast 0 3)).length := by decide +kernel
  exact ⟨hund, Nat.le_antisymm (broadcast_handed_once_undisturbed Platform.plain _ hund 0 3) hhanded⟩

end Melodi
