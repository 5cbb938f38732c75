import Melodi.System.Ownership

/-!
# No nonce is used twice under one key

The nonce of a frame holds its counter, and all frames take their counters from one number of the device, which goes
back to zero when a new identity is loaded. A message takes its counters some time before it is encrypted, so the
invariant is about the counters used and promised, key by key.

* `nonces_unique` : two encryptions under one key have different nonces.
-/

namespace Melodi
open Lib
variable {key : Octets} {base n : Nat} {d d' : Device} {held held' : List (Octets × UInt64)} {s : Node}

/-! ## Encryptions and keys -/

def Event.encrypted : Event → List (Octets × Octets)
  | .encrypt key nonce => [(key, nonce)]
  | _ => []

def Event.installed : Event → List Octets
  | .install _ transmitKey _ => [transmitKey]
  | _ => []

def Device.encryptions (d : Device) : List (Octets × Octets) := d.log.flatMap Event.encrypted

def Device.transmitKeys (d : Device) : List Octets := d.log.flatMap Event.installed

def nonceCounter (nonce : Octets) : UInt64 := get64 (nonce.drop 8)

@[simp] theorem nonceCounter_dataNonce (locator generation : UInt32) (counter messageId : UInt64) :
    nonceCounter (dataNonce locator generation counter messageId) = counter := by
  have hdrop : (dataNonce locator generation counter messageId).drop 8 = put64 counter ++ put64 messageId := by
    rw [dataNonce, List.append_assoc, List.drop_left' (by simp)]
  rw [nonceCounter, hdrop, get64_put64]

def keyed (key : Octets) (base n : Nat) : List (Octets × UInt64) :=
  (List.range' base n).map fun c => (key, UInt64.ofNat c)

theorem mem_keyed {u : Octets × UInt64} :
    u ∈ keyed key base n ↔ u.1 = key ∧ ∃ c, base ≤ c ∧ c < base + n ∧ u.2 = UInt64.ofNat c := by
  simp only [keyed, List.mem_map, List.mem_range'_1]
  constructor
  · rintro ⟨c, ⟨hle, hlt⟩, rfl⟩
    exact ⟨rfl, c, hle, hlt, rfl⟩
  · rintro ⟨rfl, c, hle, hlt, hc⟩
    exact ⟨c, ⟨hle, hlt⟩, by rw [← hc]⟩

theorem keyed_nodup (h : base + n ≤ U64_MAX + 1) : (keyed key base n).Nodup := by
  refine List.Nodup.map_on ?_ List.nodup_range'
  intro a ha b hb hab
  rw [List.mem_range'_1] at ha hb
  have heq := congrArg UInt64.toNat (Prod.mk.inj hab).2
  simp only [UInt64.toNat_ofNat', U64_MAX] at heq h
  omega

def Device.uses (d : Device) : List (Octets × UInt64) := d.encryptions.map fun e => (e.1, nonceCounter e.2)

def Sealing.uses (s : Sealing) : List (Octets × UInt64) := keyed s.key s.baseCounter s.count

def Call.uses : Call → List (Octets × UInt64)
  | .sealing s => s.uses
  | _ => []

def Node.uses (s : Node) : List (Octets × UInt64) := s.calls.flatMap Call.uses ++ s.dev.uses

/-! ## What a step draws -/

/-- From `d` to `d'` a call that held the counters `held` takes the next `n` counters, promises or uses the first `m` of
them under the key of a ready peer, and then holds `held'`. It installs no key and leaves those of the peers alone. -/
structure Draws (d : Device) (held : List (Octets × UInt64)) (d' : Device) (held' : List (Octets × UInt64)) : Prop where
  keys : d'.transmitKeys = d.transmitKeys
  peers : ∀ i p', d'.peers i = some p' →
    ∃ p, d.peers i = some p ∧ p'.transmitKey = p.transmitKey ∧ p'.sessionReady = p.sessionReady
  draw : ∃ key n m, d'.transmitCounter = d.transmitCounter + n ∧ m ≤ n ∧
    (d.transmitCounter ≤ U64_MAX → d.transmitCounter + n ≤ U64_MAX) ∧
    (m = 0 ∨ ∃ i p, d.peers i = some p ∧ p.sessionReady = true ∧ p.transmitKey = key) ∧
    (held' ++ d'.uses).Subperm (keyed key (d.transmitCounter + 1) m ++ (held ++ d.uses))

theorem Draws.quiet (hkeys : d'.transmitKeys = d.transmitKeys) (henc : d'.encryptions = d.encryptions)
    (hcounter : d'.transmitCounter = d.transmitCounter) (hpeers : d'.peers = d.peers) (hheld : held'.Sublist held) :
    Draws d held d' held' where
  keys := hkeys
  peers := fun i p' hp' => ⟨p', hpeers ▸ hp', rfl, rfl⟩
  draw := by
    refine ⟨[], 0, 0, hcounter, Nat.le_refl _, id, .inl rfl, ?_⟩
    rw [Device.uses, henc]
    exact (hheld.append (List.Sublist.refl _)).subperm

theorem Draws.mark {d₁ : Device} {i : Fin PEER_LIMIT} {p : Peer} {counter : Nat} {kind : FrameKind} {t : Token}
    (hp : d.peers i = some p) (hm : markAccepted d i p counter kind = .ok (d₁, t)) (hlog : d'.log = d₁.log)
    (hcounter : d'.transmitCounter = d₁.transmitCounter) (hpeers : d'.peers = d₁.peers) : Draws d held d' [] := by
  obtain ⟨-, w, -, rfl⟩ := markAccepted_ok hm
  dsimp only at hlog hcounter hpeers
  refine ⟨?_, fun j p' hp' => ?_, [], 0, 0, hcounter, Nat.le_refl _, id, .inl rfl, ?_⟩
  · rw [Device.transmitKeys, hlog]
    rfl
  · rw [hpeers, Table.set_apply] at hp'
    split_ifs at hp' with hj
    · rw [hj, ← Option.some.inj hp']
      exact ⟨p, hp, rfl, rfl⟩
    · exact ⟨p', hp', rfl, rfl⟩
  · rw [Device.uses, Device.encryptions, hlog]
    exact (List.sublist_append_right held _).subperm

theorem Reserves.draws {res : Except Errno Sealing} (h : Reserves d d' res n) (held : List (Octets × UInt64)) :
    Draws d held d' [] := by
  obtain ⟨⟨orderTx, rfl⟩, hle, -⟩ := h
  refine ⟨rfl, fun i p' hp' => ⟨p', hp', rfl, rfl⟩, [], n, 0, rfl, Nat.zero_le _, ?_, .inl rfl, ?_⟩
  · rcases hle with rfl | hle
    · exact id
    · exact fun _ => hle
  · exact (List.sublist_append_right held _).subperm

theorem Reserves.draws_sealing {s : Sealing} (h : Reserves d d' (.ok s) n) (held : List (Octets × UInt64)) :
    Draws d held d' s.uses := by
  obtain ⟨⟨orderTx, rfl⟩, hle, hsealing⟩ := h
  obtain ⟨i, p, r, a, marker, hp, hready, rfl⟩ := hsealing s rfl
  refine ⟨rfl, fun i p' hp' => ⟨p', hp', rfl, rfl⟩, p.transmitKey, n, n, rfl, Nat.le_refl _, ?_,
    .inr ⟨i, p, hp, hready, rfl⟩, ?_⟩
  · rcases hle with rfl | hle
    · exact id
    · exact fun _ => hle
  · exact ((List.Sublist.refl _).append (List.sublist_append_right held _)).subperm

theorem dataSendAck_draws (d : Device) (h : WireData) (bitmap : BitVec 64) (status : AckStatus)
    (queued : Except Errno Unit) : Draws d held (dataSendAck d h bitmap status queued).1 [] := by
  rcases dataSendAck_cases d h bitmap status queued with heq | ⟨i, p, nonce, es, hl, hready, -, hmax, hnonce, heq, hes⟩
  · rw [heq]
    exact .quiet rfl rfl rfl rfl (List.nil_sublist _)
  obtain ⟨locator, generation, messageId, rfl⟩ := hnonce
  rw [heq]
  -- the encryption uses the counter taken; if the frame could not be encoded, nothing does
  have hlog : es.flatMap Event.installed = [] ∧ (es.flatMap Event.encrypted).Sublist
      [(p.transmitKey, dataNonce locator generation (UInt64.ofNat (d.transmitCounter + 1)) messageId)] := by
    rcases hes with rfl | rfl | rfl
    · exact ⟨rfl, List.nil_sublist _⟩
    · exact ⟨rfl, List.Sublist.refl _⟩
    · exact ⟨rfl, List.Sublist.refl _⟩
  refine ⟨?_, fun i p' hp' => ⟨p', hp', rfl, rfl⟩, p.transmitKey, 1, 1, rfl, Nat.le_refl _, fun hle => ?_,
    .inr ⟨i, p, lookupPeer_some hl, hready, rfl⟩, ?_⟩
  · simp [Device.transmitKeys, hlog.1]
  · omega
  · have huse := hlog.2.map fun e : Octets × Octets => (e.1, nonceCounter e.2)
    rw [List.map_singleton, nonceCounter_dataNonce] at huse
    have happ := huse.append (List.sublist_append_right held d.uses)
    simp only [Device.uses, Device.encryptions, List.flatMap_append, List.map_append, List.nil_append] at happ ⊢
    exact happ.subperm

theorem Sealing.encrypted_uses (s : Sealing) (js : List Nat) :
    ((js.map fun j => Event.encrypt s.key (s.nonce j)).flatMap Event.encrypted).map
      (fun e => (e.1, nonceCounter e.2)) = js.map fun j => (s.key, UInt64.ofNat (s.baseCounter + j)) := by
  induction js with
  | nil => rfl
  | cons j js ih =>
    rw [List.map_cons, List.flatMap_cons, List.map_append, ih, List.map_cons]
    simp [Event.encrypted, Sealing.nonce, Sealing.header]

theorem sealFrames_draws (P : Platform) (s : Sealing) (fails : Nat → Bool) (d : Device) :
    Draws d s.uses (sealFrames P s fails 0 s.count d).1 [] := by
  obtain ⟨k, hk, heq⟩ := sealFrames_cases P s fails s.count 0 d
  rw [heq, ← List.map_reverse]
  refine ⟨?_, fun i p' hp' => ⟨p', hp', rfl, rfl⟩, [], 0, 0, rfl, Nat.le_refl _, id, .inl rfl, ?_⟩
  · simp [Device.transmitKeys, Event.installed]
  -- the counters used are the first of those promised
  have huse : ((List.range' 0 k).map fun j => (s.key, UInt64.ofNat (s.baseCounter + j))).Sublist s.uses := by
    have hmap : ((List.range' 0 k).map fun j => (s.key, UInt64.ofNat (s.baseCounter + j))) =
        keyed s.key s.baseCounter k := by
      rw [keyed, List.range'_eq_map_range, List.range'_eq_map_range, List.map_map, List.map_map]
      simp [Function.comp_def]
    rw [hmap]
    exact (List.range'_sublist_right.mpr hk).map _
  have hperm : ((List.range' 0 k).reverse.map fun j => (s.key, UInt64.ofNat (s.baseCounter + j))).Subperm s.uses :=
    ((List.reverse_perm _).map _).subperm.trans huse.subperm
  simp only [Device.uses, Device.encryptions, List.flatMap_append, List.map_append, List.nil_append,
    s.encrypted_uses]
  exact hperm.append (List.Subperm.refl _)

theorem afterOutcome_uses (h : WireData) (source : NodeId) (sessionEpoch : UInt64) (r : Outcome) :
    (afterOutcome h source sessionEpoch r).flatMap Call.uses = [] := by
  cases r with
  | again bitmap status => rfl
  | incomplete bitmap =>
    unfold afterOutcome
    split_ifs <;> rfl
  | ordered m bitmap r => cases r <;> rfl
  | whole m bitmap =>
    dsimp only [afterOutcome]
    split_ifs <;> rfl

theorem Stage.draws {P : Platform} {bindings : List Binding} {a : Label} {c : Call} {next : List Call}
    (h : Stage P bindings d a c d' next) : Draws d c.uses d' (next.flatMap Call.uses) := by
  have hcommit : ∀ {o : Opened} {a : Ambient} {r}, dataCommit P d o a = (d', r) → Draws d [] d' [] := by
    intro o a r h
    rcases dataCommit_cases h with ⟨rfl, -⟩ | ⟨rfl, -⟩ | ⟨i, p, d₁, t, rx', hcur, hm, rfl, -⟩
    · exact .quiet rfl rfl rfl rfl (List.Sublist.refl _)
    · exact .quiet rfl rfl rfl rfl (List.Sublist.refl _)
    · exact .mark hcur.slot hm rfl rfl rfl
  have hmark : ∀ {o : BroadcastOpened} {alloc : Bool} {r}, broadcastMark d o alloc = (d', r) → Draws d [] d' [] := by
    intro o alloc r h
    rcases broadcastMark_cases h with ⟨rfl, -⟩ | ⟨i, p, t, hp, hm, -⟩
    · exact .quiet rfl rfl rfl rfl (List.Sublist.refl _)
    · exact .mark (broadcastPeerLocked_ok hp).1 hm rfl rfl rfl
  have hadm : ∀ {o : BroadcastOpened} {t : Token} {a : Ambient} {r}, broadcastAdmit P d o t a = (d', r) →
      Draws d [] d' [] := by
    intro o t a r h
    rcases broadcastAdmit_cases h with ⟨rfl, -⟩ | ⟨rx', rfl, -⟩
    · exact .quiet rfl rfl rfl rfl (List.Sublist.refl _)
    · exact .quiet rfl rfl rfl rfl (List.Sublist.refl _)
  cases h with
  | commitFailed h => exact hcommit h
  | commit h =>
    rw [afterOutcome_uses]
    exact hcommit h
  | markFailed h => exact hmark h
  | mark h => exact hmark h
  | admitFailed h => exact hadm h
  | admitBroadcast h =>
    rw [afterOutcome_uses]
    exact hadm h
  | deliver | delivered => exact .quiet rfl rfl rfl rfl (List.Sublist.refl _)
  | hand =>
    refine .quiet rfl rfl rfl rfl ?_
    unfold afterHandOver
    split_ifs <;> exact List.Sublist.refl _
  | echoFailed h =>
    obtain ⟨n, hr⟩ := sendOpen_reserves h
    exact hr.draws _
  | @echo i a m d' s h =>
    obtain ⟨n, hr⟩ := sendOpen_reserves h
    show Draws d _ d' (s.uses ++ [])
    rw [List.append_nil]
    exact hr.draws_sealing _
  | @store i jiffies plan =>
    obtain ⟨receipts, heq⟩ := receiptSection_eq P d plan jiffies
    rw [heq]
    exact .quiet rfl rfl rfl rfl (List.Sublist.refl _)
  | sendAck => exact dataSendAck_draws ..
  | @ackCommit i o =>
    rcases ackCommit_cases d o with heq | ⟨i, p, t, hp, hm⟩
    · rw [heq]
      exact .quiet rfl rfl rfl rfl (List.Sublist.refl _)
    · exact .mark hp hm rfl rfl rfl
  | sealed => exact sealFrames_draws ..

theorem Draws.others (h : Draws d held d' held') {all all' : List (Octets × UInt64)} (rest : List (Octets × UInt64))
    (hall : (held ++ rest).Perm all) (hall' : all'.Perm (held' ++ rest)) : Draws d all d' all' := by
  obtain ⟨hkeys, hpeers, key, n, m, hn, hm, hle, hkey, hsub⟩ := h
  refine ⟨hkeys, hpeers, key, n, m, hn, hm, hle, hkey, ?_⟩
  have hleft : (all' ++ d'.uses).Perm (rest ++ (held' ++ d'.uses)) := by
    refine (hall'.append_right _).trans ?_
    rw [List.append_assoc, ← List.append_assoc rest]
    exact (List.perm_append_comm_assoc _ _ _).trans (by rw [List.append_assoc])
  have hright : (rest ++ (keyed key (d.transmitCounter + 1) m ++ (held ++ d.uses))).Perm
      (keyed key (d.transmitCounter + 1) m ++ (all ++ d.uses)) := by
    refine (List.perm_append_comm_assoc _ _ _).trans (List.Perm.append_left _ ?_)
    rw [← List.append_assoc]
    exact (List.perm_append_comm.trans hall).append_right _
  exact (hleft.subperm.trans ((List.Subperm.refl rest).append hsub)).trans hright.subperm

theorem step_draws (P : Platform) (s : Node) (a : Label) :
    (∃ c, a = .control c ∧ (step P s a).dev = controlStep P s.dev c ∧ (step P s a).calls = s.calls) ∨
      Draws s.dev (s.calls.flatMap Call.uses) (step P s a).dev ((step P s a).calls.flatMap Call.uses) := by
  have hmove := step_moves P s a
  generalize step P s a = s' at hmove ⊢
  have hsame : Draws s.dev (s.calls.flatMap Call.uses) s.dev (s.calls.flatMap Call.uses) :=
    .quiet rfl rfl rfl rfl (List.Sublist.refl _)
  cases hmove with
  | stay => exact .inr hsame
  | @control c => exact .inl ⟨c, rfl, rfl, rfl⟩
  | bind => exact .inr hsame
  | @rxData frame link _ _ _ c h =>
    have hnone : c.uses = [] := by
      rcases rxDataOpen_cases h with ⟨o, rfl, -⟩ | ⟨o, hdr, ciphertext, rfl, -⟩ <;> rfl
    right
    simpa [List.flatMap_append, hnone] using hsame
  | rxAck h =>
    right
    simpa [List.flatMap_append, Call.uses] using hsame
  | @stage a i c d next hi hc h =>
    obtain ⟨hlt, rfl⟩ := List.getElem?_eq_some_iff.mp hc
    refine .inr (h.draws.others ((s.calls.eraseIdx i).flatMap Call.uses) ?_ ?_)
    · rw [← List.flatMap_cons]
      exact (List.getElem_cons_eraseIdx_perm hlt).flatMap_right _
    · rw [List.flatMap_append]
      exact List.perm_append_comm
  | @work jiffies bootNs hidle =>
    obtain ⟨rx', r, heq, -⟩ := reassemblyWork_polls s.dev jiffies (reliabilityNow bootNs)
    rw [heq]
    exact .inr (.quiet rfl rfl rfl rfl (List.Sublist.refl _))
  | workDone h => exact .inr hsame
  | workDeliver h => exact .inr (.quiet rfl rfl rfl rfl (List.Sublist.refl _))
  | sendFailed h =>
    obtain ⟨n, hr⟩ := sendOpen_reserves h
    exact .inr ((hr.draws []).others (s.calls.flatMap Call.uses) (List.Perm.refl _) (List.Perm.refl _))
  | @send r a d sealing h =>
    obtain ⟨n, hr⟩ := sendOpen_reserves h
    refine .inr ((hr.draws_sealing []).others (s.calls.flatMap Call.uses) (List.Perm.refl _) ?_)
    rw [List.flatMap_append]
    show (s.calls.flatMap Call.uses ++ (sealing.uses ++ [])).Perm _
    rw [List.append_nil]
    exact List.perm_append_comm

/-! ## The invariant -/

/-- No counter is used or promised twice under one key, every key in use was installed, and under the key of a ready
peer no counter above the last one taken is in use. -/
structure Fresh (s : Node) : Prop where
  unique : s.uses.Nodup
  installed : ∀ u ∈ s.uses, u.1 ∈ s.dev.transmitKeys
  ready : ∀ i p, s.dev.peers i = some p → p.sessionReady = true → p.transmitKey ∈ s.dev.transmitKeys
  below : ∀ i p, s.dev.peers i = some p → p.sessionReady = true → ∀ u ∈ s.uses, u.1 = p.transmitKey →
    u.2.toNat ≤ s.dev.transmitCounter
  counter_le : s.dev.transmitCounter ≤ U64_MAX

theorem fresh_initial : Fresh Node.initial where
  unique := by simp [Node.initial, Node.uses, Device.uses, Device.encryptions]
  installed := by simp [Node.initial, Node.uses, Device.uses, Device.encryptions]
  ready := by simp [Node.initial]
  below := by simp [Node.initial]
  counter_le := Nat.zero_le _

theorem Fresh.draws {s' : Node} (hf : Fresh s)
    (h : Draws s.dev (s.calls.flatMap Call.uses) s'.dev (s'.calls.flatMap Call.uses)) : Fresh s' := by
  obtain ⟨hkeys, hpeers, key, n, m, hn, hm, hle, hkey, hsub⟩ := h
  change s'.uses.Subperm (keyed key (s.dev.transmitCounter + 1) m ++ s.uses) at hsub
  have hmax := hle hf.counter_le
  -- a new use has a counter that was taken just now, under the key of a ready peer
  have hnew : ∀ u ∈ keyed key (s.dev.transmitCounter + 1) m, u.1 = key ∧ s.dev.transmitCounter < u.2.toNat ∧
      u.2.toNat ≤ s.dev.transmitCounter + n ∧
      ∃ i p, s.dev.peers i = some p ∧ p.sessionReady = true ∧ p.transmitKey = key := by
    intro u hu
    obtain ⟨hu1, c, hge, hlt, hc⟩ := mem_keyed.mp hu
    have hc' : u.2.toNat = c := by
      simp only [hc, UInt64.toNat_ofNat', U64_MAX] at hmax ⊢
      omega
    refine ⟨hu1, by omega, by omega, ?_⟩
    rcases hkey with rfl | hp
    · omega
    · exact hp
  refine ⟨?_, fun u hu => ?_, fun i p' hp' hready => ?_, fun i p' hp' hready u hu hukey => ?_, hn ▸ hmax⟩
  · obtain ⟨l, hperm, hsublist⟩ := hsub
    refine hperm.nodup_iff.mp (List.Nodup.sublist hsublist
      (List.nodup_append'.mpr ⟨keyed_nodup (by omega), hf.unique, fun u hu hold => ?_⟩))
    obtain ⟨hu1, hlt, -, i, p, hp, hready, hpkey⟩ := hnew u hu
    have := hf.below i p hp hready u hold (hu1.trans hpkey.symm)
    omega
  · rw [hkeys]
    rcases List.mem_append.mp (hsub.subset hu) with hu | hu
    · obtain ⟨hu1, -, -, i, p, hp, hready, hpkey⟩ := hnew u hu
      rw [hu1, ← hpkey]
      exact hf.ready i p hp hready
    · exact hf.installed u hu
  · obtain ⟨p, hp, hk, hr⟩ := hpeers i p' hp'
    rw [hkeys, hk]
    exact hf.ready i p hp (hr ▸ hready)
  · obtain ⟨p, hp, hk, hr⟩ := hpeers i p' hp'
    rcases List.mem_append.mp (hsub.subset hu) with hu | hu
    · obtain ⟨-, -, hub, -⟩ := hnew u hu
      exact hn ▸ hub
    · have := hf.below i p hp (hr ▸ hready) u hu (hukey.trans hk)
      omega

theorem Fresh.sheds (hf : Fresh s) (ho : Owned s.dev) (hs : Sheds s.dev d') (hkeys : d'.transmitKeys.Nodup) :
    Fresh { s with dev := d' } := by
  obtain ⟨es, hlog, hes, hinstall⟩ := hs.log
  have htrans : d'.transmitKeys = es.flatMap Event.installed ++ s.dev.transmitKeys := by
    rw [Device.transmitKeys, hlog, List.flatMap_append, Device.transmitKeys]
  have henc : d'.encryptions = s.dev.encryptions := by
    have hnil : es.flatMap Event.encrypted = [] := by
      refine List.flatMap_eq_nil_iff.mpr fun e he => ?_
      have := hes e he
      cases e with
      | install peer tk rk => rfl
      | _ => cases this
    rw [Device.encryptions, hlog, List.flatMap_append, hnil, List.nil_append, Device.encryptions]
  have huses : Node.uses { s with dev := d' } = s.uses := by
    simp only [Node.uses, Device.uses, henc]
  rw [htrans] at hkeys
  -- a key installed just now is in no use yet
  have hnew : ∀ i p', d'.peers i = some p' → s.dev.serial ≤ p'.session → p'.sessionReady = true →
      p'.transmitKey ∈ es.flatMap Event.installed ∧ p'.transmitKey ∉ s.dev.transmitKeys := by
    intro i p' hp' hge hready
    obtain ⟨rk, hin⟩ := hinstall i p' hp' hge hready
    have hmem : p'.transmitKey ∈ es.flatMap Event.installed :=
      List.mem_flatMap.mpr ⟨_, hin, List.mem_singleton.mpr rfl⟩
    exact ⟨hmem, fun hold => (List.nodup_append'.mp hkeys).2.2 hmem hold⟩
  refine ⟨huses ▸ hf.unique, fun u hu => ?_, fun i p' hp' hready => ?_, fun i p' hp' hready u hu hukey => ?_,
    hs.counter_le hf.counter_le⟩
  · rw [huses] at hu
    rw [htrans]
    exact List.mem_append_right _ (hf.installed u hu)
  · rw [htrans]
    rcases hs.peer i p' hp' with ⟨p, hp, hk⟩ | hren
    · rw [hk.transmitKey]
      exact List.mem_append_right _ (hf.ready i p hp (hk.sessionReady ▸ hready))
    · exact List.mem_append_left _ (hnew i p' hp' hren.session_ge hready).1
  · rw [huses] at hu
    rcases hs.peer i p' hp' with ⟨p, hp, hk⟩ | hren
    · have hlt : p'.session < s.dev.serial := hk.session ▸ ho.session_lt i p hp
      have := hf.below i p hp (hk.sessionReady ▸ hready) u hu (hukey.trans hk.transmitKey)
      exact Nat.le_trans this (hs.counter i p' hp' hlt)
    · exact absurd (hukey ▸ hf.installed u hu) (hnew i p' hp' hren.session_ge hready).2

theorem step_fresh (P : Platform) (s : Node) (a : Label) (ho : NodeOwned s)
    (hf : s.dev.transmitKeys.Nodup → Fresh s) (hkeys : (step P s a).dev.transmitKeys.Nodup) : Fresh (step P s a) := by
  rcases step_draws P s a with ⟨c, rfl, hdev, hcalls⟩ | h
  · have hs := (controlStep_evolves P s.dev c ho.dev).2
    obtain ⟨es, hlog, -⟩ := hs.log
    have hold : s.dev.transmitKeys.Nodup := by
      rw [hdev, Device.transmitKeys, hlog, List.flatMap_append] at hkeys
      exact (List.nodup_append'.mp hkeys).2.1
    exact (hf hold).sheds ho.dev hs hkeys
  · exact (hf (h.keys ▸ hkeys)).draws h

/-- No two encryptions of a run share key and nonce, through failed sends, new sessions, identity loads and locator
changes. -/
theorem nonces_unique (P : Platform) (as : List Label)
    (hkeys : (run (step P) Node.initial as).dev.transmitKeys.Nodup) :
    (run (step P) Node.initial as).dev.encryptions.Pairwise fun e e' => e.1 = e'.1 → e.2 ≠ e'.2 := by
  have hinv := run_invariant (step P) (fun s => NodeOwned s ∧ (s.dev.transmitKeys.Nodup → Fresh s))
    (fun s a hi => ⟨step_owned P s a hi.1, step_fresh P s a hi.1 hi.2⟩) ⟨nodeOwned_initial, fun _ => fresh_initial⟩ as
  have hnodup := (List.nodup_append'.mp (hinv.2 hkeys).unique).2.1
  refine (List.pairwise_map.mp hnodup).imp fun hne hkey hnonce => hne ?_
  rw [hkey, hnonce]

theorem nonces_unique_message :
    let s := run (step Platform.plain) Node.initial
      (Scenario.established ++ [.send Scenario.request { Scenario.ambient with frameMtu := WIRE_DATA_SIZE + 1 },
        .sealMessage 0 fun _ => false])
    s.dev.encryptions.length = 3 ∧ s.dev.encryptions.Pairwise fun e e' => e.1 = e'.1 → e.2 ≠ e'.2 :=
  ⟨by decide +kernel, nonces_unique Platform.plain _ (by decide +kernel)⟩

end Melodi
