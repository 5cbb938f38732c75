import Melodi.System.Accounting

/-!
# The duty cycle over whole runs

A device of a host, and the log of the frames its worker handed to the transport, each with the slot of the hand-over.

* `duty_cycle_kept` : no 360 consecutive slots spend more than a budget. `drained_duty_cycle_exceeded` : with a drain
  they do, since `melodi_queue_drain` forgets both windows.
-/

namespace Melodi
open Lib
variable {q : TxQueue} {a : QueueLabel} {w : AirtimeWindow} {slot durationUs : Nat} {h : Charges} {s' : QueueState}
  {c : AirtimeCharge} {k : Fin TX_QUEUE_LIMIT} {e : TxEntry}

/-! ## Who leaves the meters alone -/

def TxQueue.windows (q : TxQueue) :=
  (q.airtime, q.broadcastAirtime, q.airtimeAfter, q.broadcastAfter, q.airtimeBudgetUs, q.broadcastBudgetUs)

def TxQueue.meters (q : TxQueue) := (q.windows, q.controlBurst)

theorem queueRemoveLocked_meters (q : TxQueue) (i : Fin TX_QUEUE_LIMIT) :
    (queueRemoveLocked q i).meters = q.meters := by
  obtain ⟨_, _, _, _, _, _, h⟩ := queueRemoveLocked_rest q i
  rw [h]
  rfl

theorem Edits.meters {K : EditKind → Prop} {q' : TxQueue} (h : Edits K q q') :
    (¬K .windows → q'.windows = q.windows) ∧ (¬K .burst → q'.controlBurst = q.controlBurst) := by
  induction h with
  | @remove q i =>
    have h := queueRemoveLocked_meters q i
    exact ⟨fun _ => congrArg Prod.fst h, fun _ => congrArg Prod.snd h⟩
  | @drop q _ j =>
    obtain ⟨_, _, _, _, _, _, _, h⟩ := reservationRemoveLocked_rest q j
    rw [h]
    exact ⟨fun _ => rfl, fun _ => rfl⟩
  | turn _ h =>
    obtain ⟨_, _, _, _, rfl⟩ := h
    exact ⟨fun _ => rfl, fun _ => rfl⟩
  | window _ h => exact ⟨fun hk => absurd h hk, fun _ => rfl⟩
  | burst _ h => exact ⟨fun _ => rfl, fun hk => absurd h hk⟩
  | trans h₁ h₂ ih₁ ih₂ => exact ⟨fun hk => (ih₂.1 hk).trans (ih₁.1 hk), fun hk => (ih₂.2 hk).trans (ih₁.2 hk)⟩
  | _ => exact ⟨fun _ => rfl, fun _ => rfl⟩

theorem entriesWrite_meters (charge : Bool) (net : Nat) (metadata : TxMeta) (r : QueueRequest) (groupId expiresMs : Nat)
    (peerIndex flowIndex : Fin TX_FLOW_LIMIT) (q : TxQueue) (batch : List (Fin TX_QUEUE_LIMIT × Octets)) :
    (entriesWrite charge net metadata r groupId expiresMs peerIndex flowIndex q batch).meters = q.meters := by
  obtain ⟨_, _, h⟩ := entriesWrite_eq charge net metadata r groupId expiresMs peerIndex flowIndex q batch
  rw [h]
  rfl

theorem queueStep_meters (siphash : Octets → UInt64) (s : QueueState) (ha : a.ofWorker = false)
    (hdrain : a ≠ .drainEntries) : (queueStep siphash s a).1.queue.meters = s.queue.meters := by
  cases a with
  | drainEntries => exact absurd rfl hdrain
  | select | check | airtime | finish => cases ha
  | reserve a r alloc =>
    show (queueReserve s.queue a r s.nowMs alloc).1.meters = _
    rcases queueReserve_cases s.queue a r s.nowMs alloc with ⟨ns, e, h⟩ | ⟨ns, peers, flows, j, p, f, -, -, -, -, h⟩ <;>
    · rw [h]
      rfl
  | send up net frames metadata r alloc valid =>
    show (coreSendBatch s.queue up net frames metadata r s.nowMs alloc valid).1.meters = _
    rcases coreSendBatch_cases s.queue up net frames metadata r s.nowMs alloc valid with
      ⟨ns, e, h⟩ | ⟨ns, peers, flows, p, f, -, -, -, -, h⟩
    · rw [h]
      rfl
    · rw [h]
      exact entriesWrite_meters ..
  | sendReserved up frames metadata r id valid =>
    show (coreSendBatchReserved s.queue up frames metadata r id valid).1.meters = _
    rcases coreSendBatchReserved_cases s.queue up frames metadata r id valid with
      ⟨e, h⟩ | ⟨j, v, -, -, -, -, -, -, -, -, h⟩
    · rw [h]
    · rw [h]
      exact entriesWrite_meters ..
  | _ =>
    exact Prod.ext ((queueStep_edits siphash s rfl).meters.1 (by simp [QueueLabel.edits]))
      ((queueStep_edits siphash s rfl).meters.2 (by simp [QueueLabel.edits]))

/-! ## What a window covers -/

/-- The window holds the charges that still count in `slot`; the others are gone. -/
def AirtimeWindow.Covers (w : AirtimeWindow) (slot : Nat) (h : Charges) : Prop :=
  ∃ fresh old, h = fresh ++ old ∧ w.Holds fresh ∧ (w.initialized = true → w.epochSlot ≤ slot) ∧
    Charges.Gone AIRTIME_BUCKETS slot old

theorem AirtimeWindow.Covers.mono {slot' : Nat} (hw : w.Covers slot h) (hle : slot ≤ slot') : w.Covers slot' h := by
  obtain ⟨fresh, old, heq, hholds, hepoch, hgone⟩ := hw
  exact ⟨fresh, old, heq, hholds, fun hi => Nat.le_trans (hepoch hi) hle, hgone.mono hle⟩

theorem airtimeReset_covers (hgone : h.Gone AIRTIME_BUCKETS slot) : airtimeReset.Covers slot h :=
  ⟨[], h, rfl, airtimeReset_holds, nofun, hgone⟩

/-- The window after the charge covers it, and it fits the budget. -/
structure Pays (budgetUs : Nat) (after : AirtimeWindow) (h : Charges) (slot cost : Nat) : Prop where
  covers : after.Covers slot ((slot, cost) :: h)
  fits : h.recent AIRTIME_BUCKETS slot + cost ≤ budgetUs
  past : h.Until slot

theorem AirtimeWindow.Covers.pays {w' : AirtimeWindow} {nowMs budgetUs costUs waitMs : Nat}
    (hw : w.Covers (nowMs / AIRTIME_SLOT_MS) h) (hok : airtimeAdmit w nowMs budgetUs costUs = (w', .ok (), waitMs)) :
    Pays budgetUs w' h (nowMs / AIRTIME_SLOT_MS) costUs := by
  obtain ⟨fresh, old, rfl, hholds, hepoch, hgone⟩ := hw
  obtain ⟨hfits, hpast, hafter, hslot⟩ := airtimeAdmit_ok hholds hepoch hok
  refine ⟨⟨_, old, rfl, hafter, fun _ => Nat.le_of_eq hslot, hgone⟩, ?_, ?_⟩
  · rw [Charges.recent_append_gone hgone]
    exact hfits
  intro e he
  rcases List.mem_append.mp he with he | he
  · exact hpast e he
  · exact hgone.until e he

theorem airtimeVerdict_ok {total broadcast : Except Errno Unit × Nat}
    (h : (airtimeVerdict total broadcast).1 = .ok ()) : total.1 = .ok () ∧ broadcast.1 = .ok () := by
  unfold airtimeVerdict at h
  split at h <;> first | exact ⟨‹_›, ‹_›⟩ | cases h

/-! ## The log -/

/-- A frame handed to the transport: the slot, its airtime, and whether it was a broadcast data frame. -/
structure Handed where
  slot : Nat
  durationUs : Nat
  broadcast : Bool
  deriving DecidableEq, Repr

def slotOf (ms : Nat) : Nat := ms / AIRTIME_SLOT_MS

def metered (s : QueueState) (out : QueueOut) (log : List Handed) : List Handed :=
  match out.sent with
  | none => log
  | some (e, durationUs) => ⟨slotOf s.nowMs, durationUs, e.isBroadcastData⟩ :: log

def charges (log : List Handed) : Charges := log.map fun x => (x.slot, x.durationUs)

def paid (log : List Handed) : Charges := (charges log).filter fun e => e.2 ≠ 0

def broadcasts (log : List Handed) : List Handed := log.filter (·.broadcast)

theorem paid_free (slot : Nat) (broadcast : Bool) (log : List Handed) :
    paid (⟨slot, 0, broadcast⟩ :: log) = paid log := by
  simp [paid, charges]

theorem paid_cons (hcost : durationUs ≠ 0) (broadcast : Bool) (log : List Handed) :
    paid (⟨slot, durationUs, broadcast⟩ :: log) = (slot, durationUs) :: paid log := by
  simp [paid, charges, hcost]

theorem broadcasts_cons (x : Handed) (log : List Handed) :
    broadcasts (x :: log) = if x.broadcast then x :: broadcasts log else broadcasts log := by
  rw [broadcasts, List.filter_cons]
  rfl

theorem paid_broadcasts_sub {log : List Handed} {e : Nat × Nat} (h : e ∈ paid (broadcasts log)) : e ∈ paid log := by
  simp only [paid, charges, broadcasts, List.mem_filter, List.mem_map] at h ⊢
  obtain ⟨⟨x, ⟨hx, -⟩, hxe⟩, hcost⟩ := h
  exact ⟨⟨x, hx, hxe⟩, hcost⟩

/-! ## The runs -/

/-- The transport keeps its budgets, a frame is handed over in the slot of its admission, and the queue is drained only
when nothing was sent in the last `AIRTIME_BUCKETS` slots. -/
def QueueLabel.governed (budgetUs broadcastBudgetUs : Nat) (s : QueueState) (log : List Handed) : QueueLabel → Bool
  | .airtime answer =>
    match coreAirtime answer with
    | .ok c => c.durationUs = 0 || (c.budgetUs = budgetUs && c.broadcastBudgetUs = broadcastBudgetUs)
    | .error _ => true
  | .finish (.ok ()) =>
    match s.work with
    | some (.transmitting _ _ admittedMs) => slotOf s.nowMs = slotOf admittedMs
    | _ => true
  | .drainEntries => (paid log).all fun e => e.1 + AIRTIME_BUCKETS ≤ slotOf s.nowMs
  | _ => true

section
variable {n : Nat}

/-- A section of the host, with what device `i` has handed to its transport. -/
def meterStep (siphash : Fin n → Octets → UInt64) (i : Fin n) (m : Host n × List Handed) (a : Fin n × QueueLabel) :
    Host n × List Handed :=
  (hostStep siphash m.1 a, if a.1 = i then metered (m.1.at i) (queueStep (siphash i) (m.1.at i) a.2).2 m.2 else m.2)

def Governed (i : Fin n) (budgetUs broadcastBudgetUs : Nat) (m : Host n × List Handed) (a : Fin n × QueueLabel) :
    Prop :=
  a.1 = i → a.2.governed budgetUs broadcastBudgetUs (m.1.at i) m.2 = true

end

/-! ## What the windows hold -/

/-- The windows of the queue cover all that was handed to the transport, and it is within the budgets. -/
structure Meter (budgetUs broadcastBudgetUs : Nat) (s : QueueState) (log : List Handed) : Prop where
  total : s.queue.airtime.Covers (slotOf s.nowMs) (paid log)
  broadcast : s.queue.broadcastAirtime.Covers (slotOf s.nowMs) (paid (broadcasts log))
  budgets : (s.queue.airtimeBudgetUs = budgetUs ∧ s.queue.broadcastBudgetUs = broadcastBudgetUs) ∨
    (paid log).Gone AIRTIME_BUCKETS (slotOf s.nowMs)
  within : (paid log).Within AIRTIME_BUCKETS budgetUs
  broadcastWithin : (paid (broadcasts log)).Within AIRTIME_BUCKETS broadcastBudgetUs
  sending : ∀ k durationUs admittedMs, s.work = some (.transmitting k durationUs admittedMs) → durationUs ≠ 0 →
    Pays budgetUs s.queue.airtimeAfter (paid log) (slotOf admittedMs) durationUs ∧
      (s.queue.airtimeBudgetUs = budgetUs ∧ s.queue.broadcastBudgetUs = broadcastBudgetUs) ∧
      ∃ e, s.queue.entries k = some e ∧
        if e.isBroadcastData then
          Pays broadcastBudgetUs s.queue.broadcastAfter (paid (broadcasts log)) (slotOf admittedMs) durationUs
        else s.queue.broadcastAfter = s.queue.broadcastAirtime

section
variable {budgetUs broadcastBudgetUs : Nat} {s : QueueState} {log : List Handed}

theorem slotOf_mono {a b : Nat} (h : a ≤ b) : slotOf a ≤ slotOf b := Nat.div_le_div_right h

theorem Meter.of_windows (h : Meter budgetUs broadcastBudgetUs s log) (hwin : s'.queue.windows = s.queue.windows)
    (hnow : s.nowMs ≤ s'.nowMs)
    (hwork : ∀ k durationUs admittedMs, s'.work = some (.transmitting k durationUs admittedMs) →
      s.work = some (.transmitting k durationUs admittedMs) ∧ ∀ e, s.queue.entries k = some e →
        ∃ e', s'.queue.entries k = some e' ∧ e'.isBroadcastData = e.isBroadcastData) :
    Meter budgetUs broadcastBudgetUs s' log := by
  simp only [TxQueue.windows, Prod.mk.injEq] at hwin
  obtain ⟨h₁, h₂, h₃, h₄, h₅, h₆⟩ := hwin
  have hslot := slotOf_mono hnow
  refine ⟨?_, ?_, ?_, h.within, h.broadcastWithin, fun k durationUs admittedMs hw hcost => ?_⟩
  · rw [h₁]
    exact h.total.mono hslot
  · rw [h₂]
    exact h.broadcast.mono hslot
  · rw [h₅, h₆]
    exact h.budgets.imp_right fun hgone => hgone.mono hslot
  obtain ⟨hw, hentry⟩ := hwork k durationUs admittedMs hw
  obtain ⟨hpays, hbudgets, e, he, hb⟩ := h.sending k durationUs admittedMs hw hcost
  obtain ⟨e', he', hsame⟩ := hentry e he
  rw [h₂, h₃, h₄, h₅, h₆]
  refine ⟨hpays, hbudgets, e', he', ?_⟩
  rw [hsame]
  exact hb

theorem Meter.letGo (h : Meter budgetUs broadcastBudgetUs s log) (hq : q.windows = s.queue.windows)
    {work : Option WorkStage} (hwork : ∀ k durationUs admittedMs, work ≠ some (.transmitting k durationUs admittedMs)) :
    Meter budgetUs broadcastBudgetUs { s with queue := q, work := work } log :=
  h.of_windows hq (Nat.le_refl _) fun k durationUs admittedMs hw => absurd hw (hwork k durationUs admittedMs)

theorem Meter.drained (h : Meter budgetUs broadcastBudgetUs s log) (hwork : s.work = none)
    (hgone : (paid log).Gone AIRTIME_BUCKETS (slotOf s.nowMs)) :
    Meter budgetUs broadcastBudgetUs { s with queue := drainEntries s.queue } log := by
  refine ⟨airtimeReset_covers hgone, airtimeReset_covers fun e he => hgone e (paid_broadcasts_sub he), .inr hgone,
    h.within, h.broadcastWithin, fun k durationUs admittedMs hw => ?_⟩
  rw [hwork] at hw
  cases hw

theorem Meter.budgeted (h : Meter budgetUs broadcastBudgetUs s log) (hb : c.budgetUs = budgetUs)
    (hbb : c.broadcastBudgetUs = broadcastBudgetUs) :
    (airtimeBudgets s.queue c).airtime.Covers (slotOf s.nowMs) (paid log) ∧
      (airtimeBudgets s.queue c).broadcastAirtime.Covers (slotOf s.nowMs) (paid (broadcasts log)) ∧
      (airtimeBudgets s.queue c).airtimeBudgetUs = budgetUs ∧
      (airtimeBudgets s.queue c).broadcastBudgetUs = broadcastBudgetUs := by
  unfold airtimeBudgets
  by_cases hnew : s.queue.airtimeBudgetUs ≠ c.budgetUs ∨ s.queue.broadcastBudgetUs ≠ c.broadcastBudgetUs
  · rw [if_pos hnew]
    rcases h.budgets with hsame | hgone
    · omega
    · exact ⟨airtimeReset_covers hgone, airtimeReset_covers fun e he => hgone e (paid_broadcasts_sub he), hb, hbb⟩
  · rw [if_neg hnew]
    exact ⟨h.total, h.broadcast, by omega, by omega⟩

theorem Meter.asked (h : Meter budgetUs broadcastBudgetUs s log) (broadcast : Bool)
    (hgov : c.durationUs = 0 ∨ c.budgetUs = budgetUs ∧ c.broadcastBudgetUs = broadcastBudgetUs) :
    Meter budgetUs broadcastBudgetUs
      { s with queue := (queueAirtimeLocked s.queue c broadcast s.nowMs).1, work := none } log := by
  unfold queueAirtimeLocked
  by_cases hfree : c.durationUs = 0
  · rw [if_pos hfree]
    exact ⟨h.total, h.broadcast, h.budgets, h.within, h.broadcastWithin, nofun⟩
  rw [if_neg hfree]
  obtain ⟨hb, hbb⟩ := hgov.resolve_left hfree
  obtain ⟨htotal, hbroadcast, hbudget, hbroadcastBudget⟩ := h.budgeted hb hbb
  exact ⟨htotal, hbroadcast, .inl ⟨hbudget, hbroadcastBudget⟩, h.within, h.broadcastWithin, nofun⟩

theorem Meter.transmit (h : Meter budgetUs broadcastBudgetUs s log) (he : s.queue.entries k = some e)
    (hgov : c.durationUs = 0 ∨ c.budgetUs = budgetUs ∧ c.broadcastBudgetUs = broadcastBudgetUs)
    (hok : (queueAirtimeLocked s.queue c e.isBroadcastData s.nowMs).2.1 = .ok ()) :
    Meter budgetUs broadcastBudgetUs
      { s with
        queue := (queueAirtimeLocked s.queue c e.isBroadcastData s.nowMs).1
        work := some (.transmitting k c.durationUs s.nowMs) } log := by
  have hbase := h.asked e.isBroadcastData hgov
  refine ⟨hbase.total, hbase.broadcast, hbase.budgets, h.within, h.broadcastWithin, ?_⟩
  rintro k' durationUs admittedMs hw hcost
  obtain ⟨rfl, rfl, rfl⟩ : k = k' ∧ c.durationUs = durationUs ∧ s.nowMs = admittedMs := by simpa using hw
  obtain ⟨hb, hbb⟩ := hgov.resolve_left hcost
  obtain ⟨htotal, hbroadcast, hbudget, hbroadcastBudget⟩ := h.budgeted hb hbb
  have hentries : (airtimeBudgets s.queue c).entries = s.queue.entries := by
    unfold airtimeBudgets
    split_ifs <;> rfl
  unfold queueAirtimeLocked at hok ⊢
  rw [if_neg hcost] at hok ⊢
  dsimp only at hok ⊢
  generalize airtimeBudgets s.queue c = q at *
  obtain ⟨htotalOk, hbroadcastOk⟩ := airtimeVerdict_ok hok
  have hpays : Pays budgetUs (airtimeAdmit q.airtime s.nowMs c.budgetUs c.durationUs).1 (paid log) (slotOf s.nowMs)
      c.durationUs := by
    rw [hb]
    rw [hb] at htotalOk
    exact htotal.pays (Prod.ext rfl (Prod.ext htotalOk rfl))
  refine ⟨hpays, ⟨hbudget, hbroadcastBudget⟩, e, (congrFun hentries k).trans he, ?_⟩
  split_ifs at hbroadcastOk ⊢
  · rw [hbb]
    rw [hbb] at hbroadcastOk
    exact hbroadcast.pays (Prod.ext rfl (Prod.ext hbroadcastOk rfl))
  · rfl

theorem Meter.finish (h : Meter budgetUs broadcastBudgetUs s log) {admittedMs : Nat}
    (hwork : s.work = some (.transmitting k durationUs admittedMs)) (he : s.queue.entries k = some e)
    (hslot : slotOf s.nowMs = slotOf admittedMs) :
    Meter budgetUs broadcastBudgetUs
      { s with queue := queueCommit (queueRemoveLocked s.queue k) e.control (durationUs ≠ 0), work := none }
      (⟨slotOf s.nowMs, durationUs, e.isBroadcastData⟩ :: log) := by
  have hwin : (queueRemoveLocked s.queue k).windows = s.queue.windows :=
    congrArg Prod.fst (queueRemoveLocked_meters s.queue k)
  simp only [TxQueue.windows, Prod.mk.injEq] at hwin
  obtain ⟨h₁, h₂, h₃, h₄, h₅, h₆⟩ := hwin
  generalize queueRemoveLocked s.queue k = q at h₁ h₂ h₃ h₄ h₅ h₆
  unfold queueCommit
  by_cases hcost : durationUs = 0
  · -- a frame that costs nothing leaves no trace in the windows
    subst hcost
    have hfree : paid (broadcasts (⟨slotOf s.nowMs, 0, e.isBroadcastData⟩ :: log)) = paid (broadcasts log) := by
      rw [broadcasts_cons]
      split_ifs
      · exact paid_free _ _ _
      · rfl
    refine ⟨?_, ?_, ?_, ?_, ?_, nofun⟩
    · rw [paid_free]
      exact h₁ ▸ h.total
    · rw [hfree]
      exact h₂ ▸ h.broadcast
    · rw [paid_free]
      exact h₅ ▸ h₆ ▸ h.budgets
    · rw [paid_free]
      exact h.within
    · rw [hfree]
      exact h.broadcastWithin
  · obtain ⟨hpays, hbudgets, e', he', hbroadcast⟩ := h.sending k durationUs admittedMs hwork hcost
    obtain rfl : e' = e := Option.some.inj (he'.symm.trans he)
    rw [← hslot] at hpays hbroadcast
    simp only [hcost, ne_eq, not_false_eq_true, decide_true, if_true]
    refine ⟨?_, ?_, .inl ?_, ?_, ?_, nofun⟩
    · rw [paid_cons hcost]
      exact h₃ ▸ hpays.covers
    · rw [broadcasts_cons]
      dsimp only
      rw [h₄]
      split_ifs at hbroadcast ⊢
      · rw [paid_cons hcost]
        exact hbroadcast.covers
      · rw [hbroadcast]
        exact h.broadcast
    · exact h₅ ▸ h₆ ▸ hbudgets
    · rw [paid_cons hcost]
      exact h.within.charge hpays.past hpays.fits
    · rw [broadcasts_cons]
      dsimp only
      split_ifs at hbroadcast ⊢
      · rw [paid_cons hcost]
        exact h.broadcastWithin.charge hbroadcast.past hbroadcast.fits
      · exact h.broadcastWithin

/-! ## Every section -/

theorem Works.meter {out : QueueOut} (hworks : Works s a s' out) (h : Meter budgetUs broadcastBudgetUs s log)
    (hgov : a.governed budgetUs broadcastBudgetUs s log = true) :
    Meter budgetUs broadcastBudgetUs s' (metered s out log) := by
  have hasked : ∀ {answer}, (QueueLabel.airtime answer).governed budgetUs broadcastBudgetUs s log = true →
      ∀ c, coreAirtime answer = .ok c →
        c.durationUs = 0 ∨ c.budgetUs = budgetUs ∧ c.broadcastBudgetUs = broadcastBudgetUs :=
    fun hgov c hc => by simpa [QueueLabel.governed, hc] using hgov
  have hremove : ∀ q i, (queueRemoveLocked q i).windows = q.windows :=
    fun q i => congrArg Prod.fst (queueRemoveLocked_meters q i)
  have hwindows := hworks.edits.meters.1
  cases hworks with
  | idle => exact h
  | @selects _ _ _ _ i => exact h.letGo (hwindows nofun) fun _ _ _ => by cases i <;> nofun
  | passes => exact h.letGo rfl nofun
  | refuses => exact h.letGo (hwindows nofun) nofun
  | drops _ _ hq =>
    rcases hq with rfl | ⟨c, hc, rfl⟩
    · exact h.letGo (hremove _ _) nofun
    · exact (h.asked _ (hasked hgov c hc)).letGo (hremove _ _) nofun
  | @defers _ _ _ c _ _ _ hc => exact (h.asked _ (hasked hgov c hc)).letGo (by rfl) nofun
  | @transmits _ _ _ c _ he hc _ _ hok => exact h.transmit he (hasked hgov c hc) hok
  | @sends k durationUs admittedMs e hwork he =>
    have hslot : slotOf s.nowMs = slotOf admittedMs := by simpa [QueueLabel.governed, hwork] using hgov
    exact h.finish hwork he hslot
  | retries => exact h.letGo (by rfl) nofun
  | fails => exact h.letGo (hremove _ _) nofun

theorem queueStep_meter (siphash : Octets → UInt64) (hheld : Held s) (h : Meter budgetUs broadcastBudgetUs s log)
    (hgov : a.governed budgetUs broadcastBudgetUs s log = true) :
    Meter budgetUs broadcastBudgetUs (queueStep siphash s a).1 (metered s (queueStep siphash s a).2 log) := by
  cases ha : a.ofWorker with
  | true =>
    cases a with
    | select | check | airtime | finish => exact (workStep_works s _).meter h hgov
    | _ => cases ha
  | false =>
    obtain ⟨hkept, hwork, hsent⟩ := queueStep_kept siphash hheld ha
    have hlog : metered s (queueStep siphash s a).2 log = log := by
      rw [metered, hsent]
    rw [hlog]
    by_cases hdrain : a = .drainEntries
    · subst hdrain
      unfold queueStep
      dsimp only
      split_ifs with hstop
      · refine h.drained hstop.2.1 fun e he => ?_
        simpa using List.all_eq_true.mp hgov e he
      · exact h
    · refine h.of_windows (congrArg Prod.fst (queueStep_meters siphash s ha hdrain)) (queueStep_nowMs siphash s ha)
        fun k durationUs admittedMs hw => ?_
      rw [hwork] at hw
      refine ⟨hw, fun e he => ?_⟩
      obtain ⟨e₀, he₀, hfly⟩ := hheld.entry hw
      obtain rfl : e₀ = e := Option.some.inj (he₀.symm.trans he)
      obtain ⟨cancelled, notified, he'⟩ := hkept k e₀ he hfly
      exact ⟨_, he', rfl⟩

end

/-! ## Every run -/

section
variable {n : Nat} (siphash : Fin n → Octets → UInt64) (i : Fin n) {budgetUs broadcastBudgetUs : Nat}

def Metered (budgetUs broadcastBudgetUs : Nat) (m : Host n × List Handed) : Prop :=
  (∀ j, Held (m.1.devices j)) ∧ Meter budgetUs broadcastBudgetUs (m.1.at i) m.2

theorem meterStep_metered {m : Host n × List Handed} {a : Fin n × QueueLabel}
    (hgov : Governed i budgetUs broadcastBudgetUs m a) (h : Metered i budgetUs broadcastBudgetUs m) :
    Metered i budgetUs broadcastBudgetUs (meterStep siphash i m a) := by
  obtain ⟨host, log⟩ := m
  obtain ⟨j, a⟩ := a
  obtain ⟨hheld, hmeter⟩ := h
  have hheldStep := queueStep_held (siphash j) (s := host.at j) (hheld j) a
  refine ⟨fun k => ?_, ?_⟩
  · show Held (Function.update host.devices j _ k)
    by_cases hk : k = j
    · subst hk
      rw [Function.update_self]
      exact hheldStep
    · rw [Function.update_of_ne hk]
      exact hheld k
  · by_cases hj : j = i
    · subst hj
      have hnew := queueStep_meter (siphash j) (s := host.at j) (hheld j) hmeter (hgov rfl)
      unfold meterStep hostStep Host.at
      dsimp only
      rw [Function.update_self, if_pos rfl]
      exact hnew
    · unfold meterStep hostStep
      dsimp only
      rw [if_neg hj]
      refine hmeter.of_windows ?_ ?_ fun k durationUs admittedMs hw => ?_
      · unfold Host.at
        dsimp only
        rw [Function.update_of_ne (Ne.symm hj)]
        rfl
      · unfold Host.at
        dsimp only
        rw [Function.update_of_ne (Ne.symm hj)]
      · unfold Host.at at hw ⊢
        dsimp only at hw ⊢
        rw [Function.update_of_ne (Ne.symm hj)] at hw ⊢
        exact ⟨hw, fun e he => ⟨e, he, rfl⟩⟩

theorem initial_metered : Metered i budgetUs broadcastBudgetUs (Host.initial n, []) := by
  refine ⟨fun j k => rfl, airtimeReset_covers nofun, airtimeReset_covers nofun, .inr nofun, Charges.within_nil _ _,
    Charges.within_nil _ _, nofun⟩

/-- If the queue is drained only when nothing was sent in the last 360 slots, the frames sent in every window of 360
slots cost no more than the budget. -/
theorem duty_cycle_kept {as : List (Fin n × QueueLabel)}
    (has : Along (meterStep siphash i) (Governed i budgetUs broadcastBudgetUs) (Host.initial n, []) as) :
    (charges (run (meterStep siphash i) (Host.initial n, []) as).2).Within AIRTIME_BUCKETS budgetUs ∧
      (charges (broadcasts (run (meterStep siphash i) (Host.initial n, []) as).2)).Within AIRTIME_BUCKETS
        broadcastBudgetUs := by
  have hmetered := run_induction (meterStep siphash i) (Metered i budgetUs broadcastBudgetUs)
    (fun m a hgov h => meterStep_metered siphash i hgov h) (initial_metered i) has
  exact ⟨Charges.within_filter hmetered.2.within, Charges.within_filter hmetered.2.broadcastWithin⟩

end

namespace Scenario

def meteredCharge : AirtimeCharge := ⟨6, 10, 10⟩

def oneFrame : List (Fin 1 × QueueLabel) :=
  [.send true 0 [[0]] {} controlRequest true (.ok ()), .select false 0, .check (.ok ()),
    .airtime (some (.ok meteredCharge)), .finish (.ok ())].map (0, ·)

def linkBounce : List (Fin 1 × QueueLabel) := [.stop, .drainEntries, .start].map (0, ·)

def bouncedRun : List (Fin 1 × QueueLabel) := (0, .start) :: oneFrame ++ linkBounce ++ oneFrame

def patientRun : List (Fin 1 × QueueLabel) := (0, .start) :: oneFrame ++ (0, .tick 3600000) :: linkBounce ++ oneFrame

end Scenario

open Scenario

theorem patient_duty_cycle :
    (charges (run (meterStep (fun _ _ => 0) 0) (Host.initial 1, []) patientRun).2).Within AIRTIME_BUCKETS 10 ∧
      (charges (broadcasts (run (meterStep (fun _ _ => 0) 0) (Host.initial 1, []) patientRun).2)).Within
        AIRTIME_BUCKETS 10 := by
  refine duty_cycle_kept (fun _ _ => 0) 0 ?_
  unfold Governed
  decide +kernel

/-- **A drain forgets what was sent**: the transport keeps a budget of 10 µs, every frame takes 6 µs, and a link bounce
between two frames of one slot lets both through. -/
theorem drained_duty_cycle_exceeded :
    (∀ a ∈ bouncedRun, ∀ answer, a.2 = .airtime answer → coreAirtime answer = .ok ⟨6, 10, 10⟩) ∧
    charges (run (meterStep (fun _ _ => 0) 0) (Host.initial 1, []) bouncedRun).2 = [(0, 6), (0, 6)] ∧
    ¬(charges (run (meterStep (fun _ _ => 0) 0) (Host.initial 1, []) bouncedRun).2).Within AIRTIME_BUCKETS 10 := by
  have hlog : charges (run (meterStep (fun _ _ => 0) 0) (Host.initial 1, []) bouncedRun).2 = [(0, 6), (0, 6)] := by
    decide +kernel
  refine ⟨?_, hlog, fun hwithin => ?_⟩
  · intro a ha answer hanswer
    obtain ⟨i, a⟩ := a
    dsimp only at hanswer
    subst hanswer
    simp [bouncedRun, oneFrame, linkBounce] at ha
    rw [ha.2]
    rfl
  · rw [hlog] at hwithin
    exact absurd (hwithin 0) (by decide)

end Melodi
