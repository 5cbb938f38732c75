import Melodi.System.Sender

/-!
# The messages in the discovery queue

`melodi_discovery_pending_admit` writes a message into a slot, sends a probe without the lock, and clears the slot when
the probe fails. In between, the worker may take the message up, and a change of state may give it up.

* `waiting_accounted` : in a run that spares the probes every message that leaves is accounted for.
-/

namespace Melodi
open Lib Scenario
variable {p : DiscoveryPending} {slot : Fin DISCOVERY_PENDING_LIMIT} {k : Nat} {c : SendCall}
variable {c' : SendCall} {calls : List SendCall} {e : Errno}

def SendStage.probes : SendStage → Option (Fin DISCOVERY_PENDING_LIMIT)
  | .probing slot | .announcing slot _ | .unprobing slot _ => some slot
  | _ => none

section
variable {n : Nat}

/-- The ways in which the message `p` may leave slot `j`. -/
inductive Leaves (s s' : Sender n) (j : Fin DISCOVERY_PENDING_LIMIT) (p : DiscoveryPending) : SenderLabel n → Prop where
  | handed {k : Nat} {c : SendCall} {ttlMs : Nat} (hc : s.calls[k]? = some c) (hcaller : c.caller = .discovery j)
      (hjob : c.job = p.job ttlMs) (hdone : c.stage = .done (.ok ())) : Leaves s s' j p (.call k .finish)
  | refused {k : Nat} {c : SendCall} {ttlMs : Nat} {e : Errno} (hc : s.calls[k]? = some c)
      (hcaller : c.caller = .discovery j) (hjob : c.job = p.job ttlMs) (hdone : c.stage = .done (.error e))
      (hnotice : s'.notices = p.notice e :: s.notices) : Leaves s s' j p (.call k .finish)
  | notified {a : SenderLabel n} {e : Errno} (hidle : p.inFlight = false)
      (hnotice : s'.notices = p.notice e :: s.notices) : Leaves s s' j p a
  | withdrawn {k : Nat} {c : SendCall} {e : Errno} (hc : s.calls[k]? = some c) (hstage : c.stage = .unprobing j e)
      (hown : c.job.message = p.message) (hidle : p.inFlight = false)
      (hfails : s'.calls[k]? = some { c with stage := .done (.error e) }) : Leaves s s' j p (.call k .unprobe)

/-- Every message in the queue before a section is there after it, or left in one of the ways above. -/
def Accounted (s : Sender n) (a : SenderLabel n) (s' : Sender n) : Prop :=
  ∀ j p, s.discovery.pending j = some p →
    (∃ inFlight, s'.discovery.pending j = some { p with inFlight := inFlight }) ∨ Leaves s s' j p a

def Sender.probed (s : Sender n) (j : Fin DISCOVERY_PENDING_LIMIT) : Bool :=
  s.calls.any fun c => c.stage.probes = some j

/-- The section leaves the messages alone whose probe is under way. -/
def SparesProbes (i : Fin n) (s : Sender n) : SenderLabel n → Prop
  | .node a => a.resetsData = true → ∀ j, s.discovery.pending j = none
  | .discoveryWork =>
    ∀ j, ∀ p ∈ s.discovery.pending j, s.probed j = true →
      s.nowMs i < p.expiresMs ∧ sessionWith s.node.dev p.destination = false
  | .dataStateChanged => ∀ j, ∀ p ∈ s.discovery.pending j, s.probed j = true → discoveryStateCheck s.node.dev p = .ok ()
  | .failDiscovery _ =>
    ∀ j ∈ s.discovery.pending.find? fun _ => true, ∀ p ∈ s.discovery.pending j, p.inFlight = false ∧ s.probed j = false
  | _ => True

instance (i : Fin n) (s : Sender n) : ∀ a, Decidable (SparesProbes i s a)
  | .node a => inferInstanceAs (Decidable (a.resetsData = true → ∀ j, s.discovery.pending j = none))
  | .discoveryWork =>
    inferInstanceAs (Decidable (∀ j, ∀ p ∈ s.discovery.pending j, s.probed j = true →
      s.nowMs i < p.expiresMs ∧ sessionWith s.node.dev p.destination = false))
  | .dataStateChanged =>
    inferInstanceAs (Decidable (∀ j, ∀ p ∈ s.discovery.pending j, s.probed j = true →
      discoveryStateCheck s.node.dev p = .ok ()))
  | .failDiscovery _ =>
    inferInstanceAs (Decidable (∀ j ∈ s.discovery.pending.find? fun _ => true, ∀ p ∈ s.discovery.pending j,
      p.inFlight = false ∧ s.probed j = false))
  | .elsewhere _ _ | .queue _ | .check | .control _ _ _ _ _ | .accept _ _ | .sealSkb _ | .xmit _ _ | .giveUp _ _
  | .inject _ | .claim | .logicalStop _ | .call _ _ | .echo _ | .ack _ | .reliability _ _ | .resend _ _ _
  | .queueStateChanged | .failPending _ => inferInstanceAs (Decidable True)

end

/-! ## A probe that fails while the worker sends the message -/

namespace Scenario

/-- The peer of a message is found while its probe is under way, and then the probe cannot be signed. -/
def crossing : List (SenderLabel 1) :=
  (established.take 3).map .node ++ [.queue .start] ++
    handIn { request := { request with destination := some (1 :: List.replicate 32 8) } } ++ waiting.drop 8 ++
    handIn (submission F_AUTH_REQUIRED) ++ (waiting.drop 8).take 3 ++ found ++
    [.discoveryWork, .call 0 (.probe 2), .call 0 (.announce (.error .ENOMEM) true 0 true)]

end Scenario

/-- The sender that failed to probe takes back a message that the worker is sending. -/
theorem inFlight_withdrawn :
    ¬ Along (senderStep Platform.plain digest 0)
      (fun s a => Accounted s a (senderStep Platform.plain digest 0 s a)) (Sender.initial 1)
      (crossing ++ [.call 0 .unprobe]) := by
  intro halong
  have hstep := along_split _ halong
  generalize hs : run (senderStep Platform.plain digest 0) (Sender.initial 1) crossing = s at hstep
  have hflight : (s.discovery.pending ⟨1, by decide⟩).any (·.inFlight) = true := by
    subst hs
    decide +kernel
  have hgone : ((senderStep Platform.plain digest 0 s (.call 0 .unprobe)).discovery.pending
      ⟨1, by decide⟩).isNone = true := by
    subst hs
    decide +kernel
  cases hp : s.discovery.pending ⟨1, by decide⟩ with
  | none =>
    rw [hp] at hflight
    cases hflight
  | some p =>
    rw [hp] at hflight
    have hinFlight : p.inFlight = true := hflight
    rcases hstep _ p hp with ⟨inFlight, hkept⟩ | hleaves
    · rw [hkept] at hgone
      cases hgone
    · cases hleaves with
      | notified hidle _ | withdrawn _ _ _ hidle _ => exact Bool.false_ne_true (hidle.symm.trans hinFlight)

/-! ## Where a call goes on -/

/-- The stage a call goes on to has no probe of its own, and the message goes to the discovery queue only if it may. -/
def SendJob.Follows (j : SendJob) (stage stage' : SendStage) : Prop :=
  (stage'.probes = none ∨ stage'.probes = stage.probes) ∧ ∀ startMs, stage' = .discovering startMs → j.queueDiscovery =
    true

section
variable {j : SendJob} {stage : SendStage}

theorem SendJob.conclude_follows (nowMs : Nat) (result : Except Errno Unit) :
    j.Follows stage (j.conclude nowMs result) := by
  unfold SendJob.conclude
  split
  · split_ifs with hqueue
    · exact ⟨.inl rfl, fun _ _ => hqueue⟩
    · exact ⟨.inl rfl, nofun⟩
  · exact ⟨.inl rfl, nofun⟩

theorem sendLocate_follows (P : Platform) (q : TxQueue) : j.Follows stage (sendLocate P q j) := by
  unfold sendLocate
  repeat' split
  all_goals exact ⟨.inl rfl, nofun⟩

theorem sendBegin_follows (P : Platform) (d : Device) (reservedInvalid : Bool) (a : SendAmbient) (paceMs nowMs : Nat) :
    j.Follows stage (sendBegin P d j reservedInvalid a paceMs nowMs).2 := by
  unfold sendBegin
  split_ifs
  · split
    · exact ⟨.inl rfl, nofun⟩
    · exact ⟨.inl rfl, nofun⟩
  split
  · exact SendJob.conclude_follows _ _
  · exact ⟨.inl rfl, nofun⟩

theorem sendSeal_follows (P : Platform) (d : Device) (m : Sealing) (paceMs : Nat) (fails : Nat → Bool) (cloned : Bool)
    (nowMs : Nat) : j.Follows stage (sendSeal P d j m paceMs fails cloned nowMs).2 := by
  unfold sendSeal
  split
  · exact SendJob.conclude_follows _ _
  split_ifs
  · exact ⟨.inl rfl, nofun⟩
  · exact ⟨.inl rfl, nofun⟩
  · exact SendJob.conclude_follows nowMs (.error .ENOMEM)

theorem sendSign_follows (g : Signing) (fails : Nat → Bool) (sign : Nat → Except Errno Octets) :
    j.Follows stage (sendSign j g fails sign) := by
  unfold sendSign
  split
  · exact ⟨.inl rfl, nofun⟩
  · exact ⟨.inl rfl, nofun⟩

theorem sendRegister_follows (d : Device) (t : Transmit) (m : Sealing) (frames : List Octets) (paceMs nowMs : Nat) :
    j.Follows stage (sendRegister d t j m frames paceMs nowMs).2 := by
  unfold sendRegister
  split
  · exact SendJob.conclude_follows nowMs (.error .EHOSTUNREACH)
  split
  · exact SendJob.conclude_follows _ _
  · exact ⟨.inl rfl, nofun⟩

theorem SendJob.queued_follows (b : Batch) (nowMs : Nat) (result : Except Errno Unit) :
    j.Follows stage (j.queued b nowMs result) := by
  unfold SendJob.queued
  split
  · exact ⟨.inl rfl, nofun⟩
  split_ifs
  · exact ⟨.inl rfl, nofun⟩
  · exact ⟨.inl rfl, nofun⟩
  · exact SendJob.conclude_follows _ _

theorem sendProbe_follows (d : Device) (messageId : UInt64) (hslot : stage.probes = some slot) :
    j.Follows stage (sendProbe d slot messageId).2 := by
  unfold sendProbe
  split
  · exact ⟨.inr hslot.symm, nofun⟩
  · exact ⟨.inr hslot.symm, nofun⟩

theorem sendProbed_follows (result : Except Errno Unit) (hslot : stage.probes = some slot) :
    j.Follows stage (sendProbed slot result) := by
  unfold sendProbed
  split
  · exact ⟨.inl rfl, nofun⟩
  · exact ⟨.inr hslot.symm, nofun⟩

theorem sendDiscover_cases (d : Device) (q : DiscoveryQueue) (j : SendJob) (startMs : Nat) (alloc : Bool) :
    (∃ e, sendDiscover d q j startMs alloc = (q, .done (.error e))) ∨
    ∃ q' slot p stage, sendDiscover d q j startMs alloc = (q', stage) ∧ q.pending slot = none ∧
      q'.pending = q.pending.set slot p ∧ p.inFlight = false ∧ p.message = j.message ∧
      (stage = .done (.ok ()) ∨ stage = .probing slot) := by
  unfold sendDiscover
  split_ifs
  · exact .inl ⟨_, rfl⟩
  · exact .inl ⟨_, rfl⟩
  split
  · rename_i q' e hadm
    rcases discoveryAdmitLocked_cases hadm with ⟨_, -, rfl⟩ | ⟨_, _, _, hok, -⟩
    · exact .inl ⟨e, rfl⟩
    · cases hok
  · rename_i q' slot hadm
    rcases discoveryAdmitLocked_cases hadm with ⟨_, he, -⟩ | ⟨_, _, p, hok, hfree, hset, hidle, hm⟩
    · cases he
    · cases hok
      exact .inr ⟨q', slot, p, _, rfl, hfree, hset, hidle, hm, .inl rfl⟩
  · rename_i q' slot hadm
    rcases discoveryAdmitLocked_cases hadm with ⟨_, he, -⟩ | ⟨_, _, p, hok, hfree, hset, hidle, hm⟩
    · cases he
    · cases hok
      exact .inr ⟨q', slot, p, _, rfl, hfree, hset, hidle, hm, .inr rfl⟩

end

/-! ## The calls and the queue -/

def Caller.Apart (c c' : Caller) : Prop := c ≠ .echo → (c = .logical ↔ c' = .logical) → c' = .echo

section
variable {n : Nat}

/-- Every probe is one for a message that waits, sent by the call that wrote it; the worker has the message of its call
in flight; and there is one call of each kind but the echoes. -/
structure Attended (s : Sender n) : Prop where
  single : (s.calls.map (·.caller)).Pairwise Caller.Apart
  direct : ∀ c ∈ s.calls, c.caller ≠ .logical →
    c.job.queueDiscovery = false ∧ c.stage.probes = none ∧ ∀ startMs, c.stage ≠ .discovering startMs
  probes : ∀ c ∈ s.calls, ∀ j, c.stage.probes = some j →
    ∃ p, s.discovery.pending j = some p ∧ p.inFlight = false ∧ p.message = c.job.message
  worker : ∀ c ∈ s.calls, ∀ j, c.caller = .discovery j →
    ∃ p ttlMs, s.discovery.pending j = some p ∧ p.inFlight = true ∧ c.job = p.job ttlMs

theorem attended_initial : Attended (Sender.initial n) where
  single := .nil
  direct := fun _ h => nomatch h
  probes := fun _ h => nomatch h
  worker := fun _ h => nomatch h

variable {s s' : Sender n} {a : SenderLabel n}

theorem Attended.unique (h : Attended s) {k' : Nat} (hc : s.calls[k]? = some c) (hc' : s.calls[k']? = some c')
    (hne : c.caller ≠ .echo) (hne' : c'.caller ≠ .echo) (hkind : c.caller = .logical ↔ c'.caller = .logical) :
    k = k' := by
  have hpair := List.pairwise_iff_getElem.mp (List.pairwise_map.mp h.single)
  obtain ⟨hk, rfl⟩ := List.getElem?_eq_some_iff.mp hc
  obtain ⟨hk', rfl⟩ := List.getElem?_eq_some_iff.mp hc'
  rcases Nat.lt_trichotomy k k' with hlt | heq | hlt
  · exact absurd (hpair k k' hk hk' hlt hne hkind) hne'
  · exact heq
  · exact absurd (hpair k' k hk' hk hlt hne' hkind.symm) hne

theorem Attended.logical (h : Attended s) (hc : c ∈ s.calls) {j : Fin DISCOVERY_PENDING_LIMIT}
    (hj : c.stage.probes = some j) : c.caller = .logical := by
  by_contra hne
  have hnone := (h.direct c hc hne).2.1
  rw [hj] at hnone
  cases hnone

theorem Attended.quiet (h : Attended s) (hcalls : s'.calls = s.calls)
    (hpending : s'.discovery.pending = s.discovery.pending) : Attended s' ∧ Accounted s a s' := by
  refine ⟨⟨?_, ?_, ?_, ?_⟩, fun j p hp => .inl ⟨p.inFlight, ?_⟩⟩
  · rw [hcalls]
    exact h.single
  · rw [hcalls]
    exact h.direct
  · rw [hcalls, hpending]
    exact h.probes
  · rw [hcalls, hpending]
    exact h.worker
  · rw [hpending]
    exact hp

theorem callers_set (hc : calls[k]? = some c) (stage : SendStage) :
    (calls.set k { c with stage := stage }).map (·.caller) = calls.map (·.caller) := by
  obtain ⟨hk, rfl⟩ := List.getElem?_eq_some_iff.mp hc
  have hk' : k < (calls.map (·.caller)).length := by simpa using hk
  have hcaller : calls[k].caller = (calls.map (·.caller))[k] := (List.getElem_map _).symm
  rw [List.map_set]
  dsimp only
  rw [hcaller, List.set_getElem_self]

theorem mem_set_cases (h : c' ∈ calls.set k c) : c' = c ∨ ∃ m, m ≠ k ∧ calls[m]? = some c' := by
  obtain ⟨m, hm⟩ := List.mem_iff_getElem?.mp h
  rw [List.getElem?_set] at hm
  split_ifs at hm with heq hlt
  · exact .inl (Option.some.inj hm).symm
  · exact .inr ⟨m, fun he => heq he.symm, hm⟩

theorem Attended.goes (h : Attended s) {stage : SendStage} (hc : s.calls[k]? = some c)
    (hfollows : c.job.Follows c.stage stage) (hcalls : s'.calls = s.calls.set k { c with stage := stage })
    (hpending : s'.discovery.pending = s.discovery.pending) : Attended s' ∧ Accounted s a s' := by
  have hmem : c ∈ s.calls := List.mem_of_getElem? hc
  refine ⟨⟨?_, ?_, ?_, ?_⟩, fun j p hp => .inl ⟨p.inFlight, ?_⟩⟩
  · rw [hcalls, callers_set hc]
    exact h.single
  · intro c' hc' hne
    rw [hcalls] at hc'
    rcases mem_set_cases hc' with rfl | ⟨m, -, hm⟩
    · obtain ⟨hqueue, hprobes, -⟩ := h.direct c hmem hne
      refine ⟨hqueue, ?_, fun startMs hstage => ?_⟩
      · rcases hfollows.1 with hnone | hsame
        · exact hnone
        · exact hsame.trans hprobes
      · rw [hfollows.2 startMs hstage] at hqueue
        cases hqueue
    · exact h.direct c' (List.mem_of_getElem? hm) hne
  · intro c' hc' j hj
    rw [hcalls] at hc'
    rw [hpending]
    rcases mem_set_cases hc' with rfl | ⟨m, -, hm⟩
    · rcases hfollows.1 with hnone | hsame
      · exact absurd (hj.symm.trans hnone) nofun
      · exact h.probes c hmem j (hsame.symm.trans hj)
    · exact h.probes c' (List.mem_of_getElem? hm) j hj
  · intro c' hc' j hj
    rw [hcalls] at hc'
    rw [hpending]
    rcases mem_set_cases hc' with rfl | ⟨m, -, hm⟩
    · exact h.worker c hmem j hj
    · exact h.worker c' (List.mem_of_getElem? hm) j hj
  · rw [hpending]
    exact hp

theorem Attended.begins (h : Attended s) (hstage : c.stage = .locating)
    (hkind : c.caller = .echo ∧ c.job.queueDiscovery = false ∨ c.caller = .logical ∧ s.calling (· = .logical) = false)
    (hcalls : s'.calls = s.calls ++ [c]) (hpending : s'.discovery.pending = s.discovery.pending) :
    Attended s' ∧ Accounted s a s' := by
  have hmem : ∀ c' ∈ s'.calls, c' ∈ s.calls ∨ c' = c := by
    intro c' hc'
    rw [hcalls] at hc'
    rcases List.mem_append.mp hc' with hold | hnew
    · exact .inl hold
    · exact .inr (List.mem_singleton.mp hnew)
  have hlocating : c.stage.probes = none := by rw [hstage]; rfl
  refine ⟨⟨?_, ?_, ?_, ?_⟩, fun j p hp => .inl ⟨p.inFlight, ?_⟩⟩
  · rw [hcalls, List.map_append]
    refine List.pairwise_append.mpr ⟨h.single, List.pairwise_singleton _ _, ?_⟩
    intro caller hcaller caller' hcaller' hne hiff
    obtain ⟨c', hc', rfl⟩ := List.mem_map.mp hcaller
    obtain rfl := List.mem_singleton.mp hcaller'
    rcases hkind with ⟨hecho, -⟩ | ⟨hlogical, hnone⟩
    · exact hecho
    · have hall := List.any_eq_false.mp hnone c' hc'
      simp only [decide_eq_true_eq] at hall
      exact absurd (hiff.mpr hlogical) hall
  · intro c' hc' hne
    rcases hmem c' hc' with hold | rfl
    · exact h.direct c' hold hne
    rcases hkind with ⟨-, hqueue⟩ | ⟨hlogical, -⟩
    · refine ⟨hqueue, hlocating, fun startMs hd => ?_⟩
      rw [hstage] at hd
      cases hd
    · exact absurd hlogical hne
  · intro c' hc' j hj
    rw [hpending]
    rcases hmem c' hc' with hold | rfl
    · exact h.probes c' hold j hj
    · exact absurd (hj.symm.trans hlocating) nofun
  · intro c' hc' j hj
    rw [hpending]
    rcases hmem c' hc' with hold | rfl
    · exact h.worker c' hold j hj
    · rcases hkind with ⟨hecho, -⟩ | ⟨hlogical, -⟩
      · exact absurd (hj.symm.trans hecho) nofun
      · exact absurd (hj.symm.trans hlogical) nofun
  · rw [hpending]
    exact hp

theorem Attended.drops (h : Attended s) {j : Fin DISCOVERY_PENDING_LIMIT} (hp : s.discovery.pending j = some p)
    (hidle : p.inFlight = false) (hprobed : s.probed j = false) (hcalls : s'.calls = s.calls)
    (hpending : s'.discovery.pending = s.discovery.pending.clear j) (hnotice : s'.notices = p.notice e :: s.notices) :
    Attended s' ∧ Accounted s a s' := by
  refine ⟨⟨?_, ?_, ?_, ?_⟩, fun j' p' hp' => ?_⟩
  · rw [hcalls]
    exact h.single
  · rw [hcalls]
    exact h.direct
  · intro c hc j' hj'
    rw [hcalls] at hc
    obtain ⟨p', hp', hrest⟩ := h.probes c hc j' hj'
    refine ⟨p', ?_, hrest⟩
    rw [hpending]
    refine Table.clear_eq_some.mpr ⟨fun heq => ?_, hp'⟩
    have hnot := List.any_eq_false.mp hprobed c hc
    simp only [decide_eq_true_eq] at hnot
    exact hnot (heq ▸ hj')
  · intro c hc j' hj'
    rw [hcalls] at hc
    obtain ⟨p', ttlMs, hp', hflight, hjob⟩ := h.worker c hc j' hj'
    refine ⟨p', ttlMs, ?_, hflight, hjob⟩
    rw [hpending]
    refine Table.clear_eq_some.mpr ⟨fun heq => ?_, hp'⟩
    subst heq
    rw [Option.some.inj (hp.symm.trans hp')] at hidle
    exact Bool.false_ne_true (hidle.symm.trans hflight)
  · by_cases heq : j' = j
    · subst heq
      obtain rfl := Option.some.inj (hp.symm.trans hp')
      exact .inr (.notified hidle hnotice)
    · exact .inl ⟨p'.inFlight, by rw [hpending, Table.clear_of_ne _ heq]; exact hp'⟩

theorem Attended.enters (h : Attended s) {stage : SendStage} {startMs : Nat} (hc : s.calls[k]? = some c)
    (hstage : c.stage = .discovering startMs) (hfree : s.discovery.pending slot = none) (hidle : p.inFlight = false)
    (hmessage : p.message = c.job.message) (hnext : stage = .done (.ok ()) ∨ stage = .probing slot)
    (hcalls : s'.calls = s.calls.set k { c with stage := stage })
    (hpending : s'.discovery.pending = s.discovery.pending.set slot p) : Attended s' ∧ Accounted s a s' := by
  have hmem : c ∈ s.calls := List.mem_of_getElem? hc
  have hkept : ∀ j p', s.discovery.pending j = some p' → s'.discovery.pending j = some p' := by
    intro j p' hp'
    rw [hpending, Table.set_of_ne _ _ fun heq => by rw [heq, hfree] at hp'; cases hp']
    exact hp'
  have hlogical : c.caller = .logical := by
    by_contra hne
    exact (h.direct c hmem hne).2.2 startMs hstage
  refine ⟨⟨?_, ?_, ?_, ?_⟩, fun j p' hp' => .inl ⟨p'.inFlight, hkept j p' hp'⟩⟩
  · rw [hcalls, callers_set hc]
    exact h.single
  · intro c' hc' hne
    rw [hcalls] at hc'
    rcases mem_set_cases hc' with rfl | ⟨m, -, hm⟩
    · exact absurd hlogical hne
    · exact h.direct c' (List.mem_of_getElem? hm) hne
  · intro c' hc' j hj
    rw [hcalls] at hc'
    rcases mem_set_cases hc' with rfl | ⟨m, -, hm⟩
    · rcases hnext with rfl | rfl
      · cases hj
      · obtain rfl := Option.some.inj hj
        exact ⟨p, by rw [hpending, Table.set_self], hidle, hmessage⟩
    · obtain ⟨p', hp', hrest⟩ := h.probes c' (List.mem_of_getElem? hm) j hj
      exact ⟨p', hkept j p' hp', hrest⟩
  · intro c' hc' j hj
    rw [hcalls] at hc'
    have hold : ∃ c₀ ∈ s.calls, c₀.caller = c'.caller ∧ c₀.job = c'.job := by
      rcases mem_set_cases hc' with rfl | ⟨m, -, hm⟩
      · exact ⟨c, hmem, rfl, rfl⟩
      · exact ⟨c', List.mem_of_getElem? hm, rfl, rfl⟩
    obtain ⟨c₀, hc₀, hcaller, hjob⟩ := hold
    obtain ⟨p', ttlMs, hp', hflight, hjob'⟩ := h.worker c₀ hc₀ j (hcaller.trans hj)
    exact ⟨p', ttlMs, hkept j p' hp', hflight, hjob ▸ hjob'⟩

theorem Attended.withdraws (h : Attended s) (hc : s.calls[k]? = some c) (hstage : c.stage = .unprobing slot e)
    (hcalls : s'.calls = s.calls.set k { c with stage := .done (.error e) })
    (hpending : s'.discovery.pending = s.discovery.pending.clear slot) :
    Attended s' ∧ Accounted s (.call k .unprobe) s' := by
  have hmem : c ∈ s.calls := List.mem_of_getElem? hc
  have hprobes : c.stage.probes = some slot := by rw [hstage]; rfl
  have hlogical : c.caller = .logical := h.logical hmem hprobes
  obtain ⟨p, hp, hidle, hmessage⟩ := h.probes c hmem slot hprobes
  refine ⟨⟨?_, ?_, ?_, ?_⟩, fun j p' hp' => ?_⟩
  · rw [hcalls, callers_set hc]
    exact h.single
  · intro c' hc' hne
    rw [hcalls] at hc'
    rcases mem_set_cases hc' with rfl | ⟨m, -, hm⟩
    · exact absurd hlogical hne
    · exact h.direct c' (List.mem_of_getElem? hm) hne
  · intro c' hc' j hj
    rw [hcalls] at hc'
    rcases mem_set_cases hc' with rfl | ⟨m, hne, hm⟩
    · cases hj
    · -- no other probe is under way
      have hlogical' : c'.caller = .logical := h.logical (List.mem_of_getElem? hm) hj
      exact absurd
        (h.unique hm hc (by rw [hlogical']; nofun) (by rw [hlogical]; nofun) (by simp [hlogical, hlogical'])) hne
  · intro c' hc' j hj
    rw [hcalls] at hc'
    rcases mem_set_cases hc' with rfl | ⟨m, -, hm⟩
    · exact absurd (hj.symm.trans hlogical) nofun
    obtain ⟨p', ttlMs, hp', hflight, hjob⟩ := h.worker c' (List.mem_of_getElem? hm) j hj
    refine ⟨p', ttlMs, ?_, hflight, hjob⟩
    rw [hpending]
    refine Table.clear_eq_some.mpr ⟨fun heq => ?_, hp'⟩
    subst heq
    rw [Option.some.inj (hp.symm.trans hp')] at hidle
    exact Bool.false_ne_true (hidle.symm.trans hflight)
  · by_cases heq : j = slot
    · subst heq
      obtain rfl := Option.some.inj (hp.symm.trans hp')
      refine .inr (.withdrawn hc hstage hmessage.symm hidle ?_)
      rw [hcalls]
      exact List.getElem?_set_self (List.getElem?_eq_some_iff.mp hc).1
    · exact .inl ⟨p'.inFlight, by rw [hpending, Table.clear_of_ne _ heq]; exact hp'⟩

theorem Attended.ends (h : Attended s) (hcalls : s'.calls = s.calls.eraseIdx k)
    (hprobes : ∀ m c j, m ≠ k → s.calls[m]? = some c → c.stage.probes = some j →
      s'.discovery.pending j = s.discovery.pending j)
    (hworker : ∀ m c j, m ≠ k → s.calls[m]? = some c → c.caller = .discovery j →
      s'.discovery.pending j = s.discovery.pending j) : Attended s' := by
  have hmem : ∀ c ∈ s'.calls, ∃ m, m ≠ k ∧ s.calls[m]? = some c := by
    intro c hc
    rw [hcalls] at hc
    exact List.mem_eraseIdx_iff_getElem?.mp hc
  refine ⟨?_, ?_, ?_, ?_⟩
  · rw [hcalls]
    exact h.single.sublist ((List.eraseIdx_sublist _ _).map _)
  · intro c hc hne
    obtain ⟨m, -, hm⟩ := hmem c hc
    exact h.direct c (List.mem_of_getElem? hm) hne
  · intro c hc j hj
    obtain ⟨m, hne, hm⟩ := hmem c hc
    rw [hprobes m c j hne hm hj]
    exact h.probes c (List.mem_of_getElem? hm) j hj
  · intro c hc j hj
    obtain ⟨m, hne, hm⟩ := hmem c hc
    rw [hworker m c j hne hm hj]
    exact h.worker c (List.mem_of_getElem? hm) j hj

theorem Attended.finishes (h : Attended s) {result : Except Errno Unit} {nowMs : Nat} (hc : s.calls[k]? = some c)
    (hcaller : c.caller = .discovery slot) (hstage : c.stage = .done result) (hcalls : s'.calls = s.calls.eraseIdx k)
    (hqueue : s'.discovery = (discoveryWorkFinish s.discovery slot nowMs result).1)
    (hnotices : s'.notices = (discoveryWorkFinish s.discovery slot nowMs result).2.toList ++ s.notices) :
    Attended s' ∧ Accounted s (.call k .finish) s' := by
  obtain ⟨p, ttlMs, hp, hflight, hjob⟩ := h.worker c (List.mem_of_getElem? hc) slot hcaller
  -- the other slots stay as they are
  have hother : ∀ j, j ≠ slot → s'.discovery.pending j = s.discovery.pending j := by
    intro j hj
    rw [hqueue]
    rcases discoveryWorkFinish_cases hp nowMs result with ⟨-, heq⟩ | heq | ⟨e, -, heq⟩
    · rw [heq, discoveryPendingClear_pending, Table.clear_of_ne _ hj]
    · rw [heq]
      exact Table.set_of_ne _ _ hj
    · rw [heq, discoveryPendingClear_pending, Table.clear_of_ne _ hj]
  constructor
  · refine h.ends hcalls ?_ ?_
    · intro m c' j hne hm hj
      refine hother j fun heq => ?_
      subst heq
      obtain ⟨p', hp', hidle, -⟩ := h.probes c' (List.mem_of_getElem? hm) j hj
      rw [Option.some.inj (hp.symm.trans hp')] at hflight
      exact Bool.false_ne_true (hidle.symm.trans hflight)
    · intro m c' j hne hm hj
      exact absurd (h.unique hm hc (by rw [hj]; nofun) (by rw [hcaller]; nofun) (by simp [hj, hcaller])) hne
  · intro j p' hp'
    by_cases hj : j = slot
    · subst hj
      obtain rfl := Option.some.inj (hp.symm.trans hp')
      rcases discoveryWorkFinish_cases hp nowMs result with ⟨hok, -⟩ | heq | ⟨e, he, heq⟩
      · exact .inr (.handed hc hcaller hjob (hok ▸ hstage))
      · refine .inl ⟨false, ?_⟩
        rw [hqueue, heq]
        exact Table.set_self _ _ _
      · refine .inr (.refused hc hcaller hjob (he ▸ hstage) ?_)
        rw [hnotices, heq]
        rfl
    · exact .inl ⟨p'.inFlight, (hother j hj).trans hp'⟩

theorem Attended.takes (h : Attended s) {ttlMs : Nat} (hp : s.discovery.pending slot = some p)
    (hprobed : s.probed slot = false) (hfree : s.calling (fun c => c ≠ .logical ∧ c ≠ .echo) = false)
    (hcalls : s'.calls = s.calls ++ [{ job := p.job ttlMs, caller := .discovery slot }])
    (hpending : s'.discovery.pending = s.discovery.pending.set slot { p with inFlight := true }) :
    Attended s' ∧ Accounted s a s' := by
  have hmem : ∀ c ∈ s'.calls, c ∈ s.calls ∨ c = { job := p.job ttlMs, caller := .discovery slot } := by
    intro c hc
    rw [hcalls] at hc
    rcases List.mem_append.mp hc with hold | hnew
    · exact .inl hold
    · exact .inr (List.mem_singleton.mp hnew)
  have hkind : ∀ c ∈ s.calls, c.caller ≠ .logical → c.caller = .echo := by
    intro c hc hne
    have hnot := List.any_eq_false.mp hfree c hc
    simp only [decide_eq_true_eq, not_and, not_not] at hnot
    exact hnot hne
  refine ⟨⟨?_, ?_, ?_, ?_⟩, fun j p' hp' => .inl ?_⟩
  · rw [hcalls, List.map_append]
    refine List.pairwise_append.mpr ⟨h.single, List.pairwise_singleton _ _, ?_⟩
    intro caller hcaller caller' hcaller' hne hiff
    obtain ⟨c, hc, rfl⟩ := List.mem_map.mp hcaller
    obtain rfl := List.mem_singleton.mp hcaller'
    by_cases hlogical : c.caller = .logical
    · cases hiff.mp hlogical
    · exact absurd (hkind c hc hlogical) hne
  · intro c hc hne
    rcases hmem c hc with hold | rfl
    · exact h.direct c hold hne
    · exact ⟨rfl, rfl, nofun⟩
  · intro c hc j hj
    rcases hmem c hc with hold | rfl
    · obtain ⟨p', hp', hrest⟩ := h.probes c hold j hj
      refine ⟨p', ?_, hrest⟩
      rw [hpending, Table.set_of_ne _ _ fun heq => ?_]
      · exact hp'
      · have hnot := List.any_eq_false.mp hprobed c hold
        simp only [decide_eq_true_eq] at hnot
        exact hnot (heq ▸ hj)
    · cases hj
  · intro c hc j hj
    rcases hmem c hc with hold | rfl
    · have hecho := hkind c hold (by rw [hj]; nofun)
      rw [hj] at hecho
      cases hecho
    · cases hj
      exact ⟨{ p with inFlight := true }, ttlMs, by rw [hpending, Table.set_self], rfl, rfl⟩
  · by_cases heq : j = slot
    · subst heq
      obtain rfl := Option.some.inj (hp.symm.trans hp')
      exact ⟨true, by rw [hpending, Table.set_self]⟩
    · exact ⟨p'.inFlight, by rw [hpending, Table.set_of_ne _ _ heq]; exact hp'⟩

/-! ## Every run -/

variable {P : Platform} {siphash : Fin n → Octets → UInt64} {i : Fin n}

theorem sendStep_attended (h : Attended s) (hc : s.calls[k]? = some c) (label : SendLabel) :
    Attended (sendStep P siphash i s k c label c.stage) ∧
      Accounted s (.call k label) (sendStep P siphash i s k c label c.stage) := by
  unfold sendStep
  split
  case h_1 => exact h.goes hc (sendLocate_follows P _) rfl rfl
  case h_2 => exact h.goes hc (sendBegin_follows P _ _ _ _ _) rfl rfl
  case h_3 => exact h.goes hc (sendSeal_follows P _ _ _ _ _ _) rfl rfl
  case h_4 => exact h.goes hc (sendSign_follows _ _ _) rfl rfl
  case h_5 =>
    dsimp only
    split_ifs
    · exact h.goes hc (sendRegister_follows _ _ _ _ _ _) rfl rfl
    · exact h.goes hc (sendRegister_follows _ _ _ _ _ _) rfl rfl
  case h_6 => exact h.goes hc (SendJob.queued_follows _ _ _) rfl rfl
  case h_7 => exact h.goes hc (SendJob.conclude_follows _ _) rfl rfl
  case h_8 alloc startMs hstage =>
    rcases sendDiscover_cases s.node.dev s.discovery c.job startMs alloc with
      ⟨e, heq⟩ | ⟨q, slot, p, stage, heq, hfree, hset, hidle, hmessage, hnext⟩
    · have hfollows : c.job.Follows c.stage (.done (.error e)) := ⟨.inl rfl, nofun⟩
      rw [heq]
      exact h.goes hc hfollows rfl rfl
    · rw [heq]
      exact h.enters hc hstage hfree hidle hmessage hnext rfl hset
  case h_9 slot hstage => exact h.goes hc (sendProbe_follows _ _ (by rw [hstage]; rfl)) rfl rfl
  case h_10 slot _ hstage =>
    have hslot : c.stage.probes = some slot := by rw [hstage]; rfl
    split
    · rename_i e
      have hfollows : c.job.Follows c.stage (.unprobing slot e) := ⟨.inr hslot.symm, nofun⟩
      exact h.goes hc hfollows rfl rfl
    · exact h.goes hc (sendProbed_follows _ hslot) rfl rfl
  case h_11 slot error hstage => exact h.withdraws hc hstage rfl (discoveryPendingClear_pending _ _)
  case h_12 result hstage =>
    have hkept : ∀ s' : Sender n, s'.calls = s.calls.eraseIdx k → s'.discovery = s.discovery →
        Attended s' ∧ Accounted s (.call k .finish) s' := fun s' hcalls hqueue =>
      ⟨h.ends hcalls (fun _ _ _ _ _ _ => by rw [hqueue]) (fun _ _ _ _ _ _ => by rw [hqueue]),
        fun j p hp => .inl ⟨p.inFlight, by rw [hqueue]; exact hp⟩⟩
    split
    · exact hkept _ rfl rfl
    · exact hkept _ rfl rfl
    · rename_i slot _ hcaller
      exact h.finishes hc hcaller hstage rfl rfl rfl
    · exact hkept _ rfl rfl
  case h_13 => exact h.quiet rfl rfl

theorem senderStep_attended (h : Attended s) (hspares : SparesProbes i s a) :
    Attended (senderStep P siphash i s a) ∧ Accounted s a (senderStep P siphash i s a) := by
  have hdo : ∀ label, (s.queueDo siphash i label).calls = s.calls ∧ (s.queueDo siphash i label).discovery =
    s.discovery :=
    fun _ => ⟨rfl, rfl⟩
  have hreport : ∀ (t : Sender n) notice, (t.report notice).calls = t.calls ∧ (t.report notice).discovery =
    t.discovery :=
    fun _ _ => ⟨rfl, rfl⟩
  cases a with
  | node a =>
    unfold senderStep
    dsimp only
    split_ifs with hpath hreset
    · exact h.quiet rfl rfl
    · -- nothing waits, so that nothing is lost
      have hempty : s.discovery.pending = Table.empty := funext (hspares hreset)
      exact h.quiet rfl hempty.symm
    · exact h.quiet rfl rfl
  | claim =>
    unfold senderStep
    dsimp only
    split_ifs with hcalling
    · exact h.quiet rfl rfl
    split
    · exact h.quiet rfl rfl
    · split
      · exact h.quiet rfl rfl
      · exact h.begins rfl (.inr ⟨rfl, Bool.eq_false_iff.mpr hcalling⟩) rfl rfl
  | call k label =>
    unfold senderStep
    dsimp only
    split
    · exact h.quiet rfl rfl
    · rename_i c hc
      exact sendStep_attended h hc label
  | echo k =>
    unfold senderStep
    dsimp only
    split
    · exact h.begins rfl (.inl ⟨rfl, rfl⟩) rfl rfl
    · exact h.quiet rfl rfl
  | discoveryWork =>
    unfold senderStep
    dsimp only
    split_ifs with hcalling
    · exact h.quiet rfl rfl
    rcases discoveryWorkSection_cases s.node.dev s.discovery (s.nowMs i) with
      heq | ⟨j, p, hp, hidle, ⟨hexpired, heq⟩ | ⟨hsession, heq⟩⟩
    · rw [heq]
      exact h.quiet rfl rfl
    · have hprobed : s.probed j = false := by
        by_contra hprobed
        have hlater := (hspares j p hp (Bool.eq_true_of_not_eq_false hprobed)).1
        omega
      rw [heq]
      exact h.drops hp hidle hprobed rfl (discoveryPendingClear_pending _ _) rfl
    · have hprobed : s.probed j = false := by
        by_contra hprobed
        have hnone := (hspares j p hp (Bool.eq_true_of_not_eq_false hprobed)).2
        exact Bool.false_ne_true (hnone.symm.trans hsession)
      rw [heq]
      exact h.takes hp hprobed (Bool.eq_false_iff.mpr hcalling) rfl rfl
  | dataStateChanged =>
    unfold senderStep
    dsimp only
    split
    · exact h.quiet rfl rfl
    rename_i t notice hpass
    rcases dataStatePass_discovery hpass with hsame | ⟨j, p, e, hp, hcheck, hidle, hclear, rfl⟩
    · exact h.quiet rfl (congrArg DiscoveryQueue.pending hsame)
    have hprobed : s.probed j = false := by
      by_contra hprobed
      have hok := hspares j p hp (Bool.eq_true_of_not_eq_false hprobed)
      rw [hcheck] at hok
      cases hok
    refine h.drops hp hidle hprobed rfl ?_ rfl
    exact (congrArg DiscoveryQueue.pending hclear).trans (discoveryPendingClear_pending _ _)
  | failDiscovery error =>
    unfold senderStep
    dsimp only
    split
    · exact h.quiet rfl rfl
    · rename_i q notice hpass
      obtain ⟨j, p, hp, rfl, rfl, hfirst⟩ := failDiscoveryPass_cases hpass
      obtain ⟨hidle, hprobed⟩ := hspares j hfirst p hp
      exact h.drops hp hidle hprobed rfl (discoveryPendingClear_pending _ _) rfl
  | _ =>
    -- the other sections touch neither the calls nor the queue
    unfold senderStep
    dsimp only
    repeat' split
    all_goals exact h.quiet (by simp only [hdo, hreport]) (by simp only [hdo, hreport])

/-- If the sections spare the messages whose probe is under way, a message leaves the discovery queue only when it is
sent or reported. -/
theorem waiting_accounted (as : List (SenderLabel n))
    (h : Along (senderStep P siphash i) (SparesProbes i) (Sender.initial n) as) :
    Along (senderStep P siphash i) (fun s a => Accounted s a (senderStep P siphash i s a)) (Sender.initial n) as :=
  along_of_invariant _ Attended (fun _ _ hspares hs => (senderStep_attended hs hspares).1)
    (fun _ _ hspares hs => (senderStep_attended hs hspares).2) attended_initial h

end

theorem waiting_accounted_sent :
    Along (senderStep Platform.plain digest 0)
      (fun s a => Accounted s a (senderStep Platform.plain digest 0 s a)) (Sender.initial 1)
      (waiting ++ found ++ [.discoveryWork] ++ sends ++ [.call 0 .finish]) :=
  waiting_accounted _ (by decide +kernel)

end Melodi
