import Melodi.Core.QueueEffects
import Melodi.Lib.Choice

/-!
# What the worker expires and selects

`melodi_queue_work` first drops the entries whose time is over, and reports them through one notice. Control frames come
first, unless enough of them went out in a row; then the priority comes from a cycle of fifteen slots, and the peer and
the flow are those that had their turn longest ago.

* `expiry_reports_one_message` : every message is reported exactly when they are all that one;
* `prioritySelections`, `priority_served` : the share of each priority in fifteen selections.
-/

namespace Melodi
open Lib
variable {i : Fin TX_QUEUE_LIMIT} {nowMs : Nat} {e : TxEntry}

/-! ## Expiry -/

def TxEntry.lost (e : TxEntry) (nowMs : Nat) : Bool :=
  (!e.inFlight && decide (e.expiresMs ≤ nowMs)) && !e.terminalNotified

def TxQueue.firstLost (q : TxQueue) (nowMs : Nat) : Option TxEntry := (q.entries.find? (·.lost nowMs)).bind q.entries

theorem expireSlot_notice (nowMs : Nat) (s : TxQueue × Option Notice) (i : Fin TX_QUEUE_LIMIT) :
    (expireSlot nowMs s i).2 = s.2.or (((s.1.entries i).filter (·.lost nowMs)).map (·.notice .ETIMEDOUT)) := by
  unfold expireSlot
  cases he : s.1.entries i with
  | none => simp
  | some e =>
    dsimp only
    by_cases hexpired : (!e.inFlight && decide (e.expiresMs ≤ nowMs)) = true
    · rw [if_pos hexpired, queueNoticeEntry, Option.filter_some, TxEntry.lost, hexpired]
      cases s.2 <;> cases e.terminalNotified <;> rfl
    rw [Bool.not_eq_true] at hexpired
    rw [hexpired, Option.filter_some, TxEntry.lost, hexpired]
    exact (Option.or_none ..).symm

theorem queueExpireLocked_notice (q : TxQueue) (nowMs : Nat) :
    (queueExpireLocked q nowMs).2 = (q.firstLost nowMs).map (·.notice .ETIMEDOUT) := by
  -- the slots still to come hold what they held
  have hloop : ∀ (is : List (Fin TX_QUEUE_LIMIT)) (s : TxQueue × Option Notice), is.Nodup →
      (∀ j ∈ is, s.1.entries j = q.entries j) → (is.foldl (expireSlot nowMs) s).2 =
        s.2.or (((is.find? fun i => (q.entries i).any (·.lost nowMs)).bind q.entries).map (·.notice .ETIMEDOUT)) := by
    intro is
    induction is with
    | nil => intro s _ _; simp
    | cons i is ih =>
      intro s hnodup hsame
      obtain ⟨hi, hnodup⟩ := List.nodup_cons.mp hnodup
      rw [List.foldl_cons, ih _ hnodup fun j hj => ?_, expireSlot_notice, hsame i List.mem_cons_self, Option.or_assoc,
        List.find?_cons]
      · cases he : q.entries i with
        | none => simp
        | some e =>
          rw [Option.filter_some, Option.any_some]
          cases hlost : e.lost nowMs with
          | true => rw [if_pos rfl, Option.map_some, Option.some_or, Option.bind_some, he, Option.map_some]
          | false => rfl
      · rw [expireSlot_entries, if_neg (ne_of_mem_of_not_mem hj hi)]
        exact hsame j (List.mem_cons_of_mem _ hj)
  exact hloop _ (q, none) (List.nodup_finRange _) fun _ _ => rfl

theorem firstLost_eq_some {q : TxQueue} {f : TxEntry} (h : q.firstLost nowMs = some f) :
    ∃ k, q.entries k = some f ∧ f.lost nowMs = true ∧ ∀ j g, q.entries j = some g → g.lost nowMs = true → k ≤ j := by
  obtain ⟨k, hfind, hk⟩ := Option.bind_eq_some_iff.mp h
  obtain ⟨-, n, hn, hat, hbefore⟩ := List.find?_eq_some_iff_getElem.mp hfind
  obtain ⟨f', hf', hlost⟩ := Table.find?_some hfind
  obtain rfl := Option.some.inj (hk.symm.trans hf')
  refine ⟨k, hk, hlost, fun j g hg hgone => not_lt.mp fun hlt => ?_⟩
  rw [List.getElem_finRange] at hat
  have hj := hbefore j (by have := congrArg Fin.val hat; simp at this; omega)
  simp [hg, hgone] at hj

/-- Every message of an application that loses an entry in the pass, of which it was not told, is reported. -/
def TxQueue.Reported (q : TxQueue) (nowMs : Nat) : Prop :=
  ∀ i e, q.entries i = some e → e.lost nowMs = true → e.message ≠ 0 →
    (queueExpireLocked q nowMs).2 = some (e.notice .ETIMEDOUT)

/-- The entries of one message report the same. -/
def TxQueue.OneNotice (q : TxQueue) : Prop :=
  ∀ i e j f, q.entries i = some e → q.entries j = some f → e.message ≠ 0 → f.message = e.message →
    f.notice .ETIMEDOUT = e.notice .ETIMEDOUT

/-- One message loses entries, and a frame of no application that is lost with them stands behind one of them. -/
def TxQueue.LosesOne (q : TxQueue) (nowMs : Nat) : Prop :=
  ∀ i e j f, q.entries i = some e → e.lost nowMs = true → e.message ≠ 0 → q.entries j = some f → f.lost nowMs = true →
    f.message = e.message ∨
      f.message = 0 ∧ ∃ k < j, ∃ g, q.entries k = some g ∧ g.lost nowMs = true ∧ g.message = e.message

/-- One pass has one notice, that of the first entry it drops. In a queue whose entries of one message report the same,
it is enough exactly when one message loses entries and no control frame is lost before them. -/
theorem expiry_reports_one_message (q : TxQueue) (nowMs : Nat) :
    (q.Reported nowMs ↔
      ∀ i e f, q.entries i = some e → e.lost nowMs = true → e.message ≠ 0 → q.firstLost nowMs = some f →
        f.notice .ETIMEDOUT = e.notice .ETIMEDOUT) ∧
    (q.OneNotice → (q.Reported nowMs ↔ q.LosesOne nowMs)) := by
  have hfirst : ∀ i e, q.entries i = some e → e.lost nowMs = true → ∃ f, q.firstLost nowMs = some f := by
    intro i e he hlost
    cases hfind : q.entries.find? (·.lost nowMs) with
    | none => rw [Table.find?_none hfind he] at hlost; cases hlost
    | some j =>
      obtain ⟨f, hf, -⟩ := Table.find?_some hfind
      exact ⟨f, by rw [TxQueue.firstLost, hfind, Option.bind_some, hf]⟩
  have hreported : q.Reported nowMs ↔
      ∀ i e f, q.entries i = some e → e.lost nowMs = true → e.message ≠ 0 → q.firstLost nowMs = some f →
        f.notice .ETIMEDOUT = e.notice .ETIMEDOUT := by
    rw [TxQueue.Reported, queueExpireLocked_notice]
    constructor
    · intro h i e f he hlost hmessage hf
      have := h i e he hlost hmessage
      rw [hf, Option.map_some, Option.some.injEq] at this
      exact this
    · intro h i e he hlost hmessage
      obtain ⟨f, hf⟩ := hfirst i e he hlost
      rw [hf, Option.map_some, h i e f he hlost hmessage hf]
  refine ⟨hreported, fun hone => hreported.trans ⟨fun h => ?_, fun h => ?_⟩⟩
  · intro i e j f he hlost hmessage hf hgone
    obtain ⟨g, hg⟩ := hfirst i e he hlost
    obtain ⟨k, hk, hkgone, hleast⟩ := firstLost_eq_some hg
    have hmine : g.message = e.message := congrArg Notice.message (h i e g he hlost hmessage hg)
    by_cases hcontrol : f.message = 0
    · refine .inr ⟨hcontrol, k, lt_of_le_of_ne (hleast j f hf hgone) ?_, g, hk, hkgone, hmine⟩
      rintro rfl
      obtain rfl := Option.some.inj (hk.symm.trans hf)
      exact hmessage (hmine ▸ hcontrol)
    · exact .inl ((congrArg Notice.message (h j f g hf hgone hcontrol hg)).symm.trans hmine)
  · intro i e g he hlost hmessage hg
    obtain ⟨k, hk, hkgone, hleast⟩ := firstLost_eq_some hg
    rcases h i e k g he hlost hmessage hk hkgone with hmine | ⟨-, j, hlt, f, hf, hgone, -⟩
    · exact hone i e k g he hk hmessage hmine
    · exact absurd (hleast j f hf hgone) (not_le.mpr hlt)

namespace Scenario

def queuedAt (priorities : List Nat) : TxQueue :=
  priorities.foldl (fun q priority =>
    (coreSendBatch q true 0 [[1]] { destinationLocator := 2 }
      { ttlMs := 5, service := 5, bindingPortid := 1, bindingGeneration := 1, priority := priority } 0 true (.ok ())).1)
    { stopping := false }

def queuedFor (messages : List Nat) : TxQueue :=
  messages.foldl (fun q message =>
    (coreSendBatch q true 0 [[1]] { destinationLocator := 2, cookie := UInt64.ofNat message }
      { ttlMs := 5, service := 5, bindingPortid := 1, bindingGeneration := 1, message := message } 0 true (.ok ())).1)
    { stopping := false }

end Scenario

open Scenario

theorem expiry_reports_one_message_twice :
    ∃ e, (queuedFor [1, 1]).entries ⟨1, by decide⟩ = some e ∧ e.message = 1 ∧
      (queueExpireLocked (queuedFor [1, 1]) 5).2 = some (e.notice .ETIMEDOUT) := by
  have hsecond : ((queuedFor [1, 1]).entries ⟨1, by decide⟩).any
      (fun e => e.lost 5 && e.message = 1) = true := by decide +kernel
  obtain ⟨e, he, hlost⟩ := (Option.any_eq_true ..).mp hsecond
  rw [Bool.and_eq_true, decide_eq_true_eq] at hlost
  have hall : ((List.finRange TX_QUEUE_LIMIT).all fun i => ((queuedFor [1, 1]).entries i).all fun e =>
      e.notice .ETIMEDOUT = ⟨1, 1, 1, 5, .ETIMEDOUT, 1⟩) = true := by decide +kernel
  have hsame : ∀ i e, (queuedFor [1, 1]).entries i = some e → e.notice .ETIMEDOUT = ⟨1, 1, 1, 5, .ETIMEDOUT, 1⟩ := by
    intro i e he
    simpa [he] using List.all_eq_true.mp hall i (List.mem_finRange i)
  refine ⟨e, he, hlost.2, ((expiry_reports_one_message _ 5).2 fun i e j f he hf _ _ => ?_).mpr
    (fun i e j f he _ _ hf _ => .inl ?_) _ e he hlost.1 (by omega)⟩
  · rw [hsame i e he, hsame j f hf]
  · exact congrArg Notice.message ((hsame j f hf).trans (hsame i e he).symm)

/-- Two messages expire in one pass, and the second is removed without a report. -/
theorem expiry_second_message_unreported :
    ((queuedFor [1, 2]).entries ⟨1, by decide⟩).any (fun e => e.lost 5 && e.message = 2) = true ∧
      ((queueExpireLocked (queuedFor [1, 2]) 5).1.entries ⟨1, by decide⟩).isNone = true ∧
      (queueExpireLocked (queuedFor [1, 2]) 5).2 = some ⟨1, 1, 1, 5, .ETIMEDOUT, 1⟩ := by
  decide +kernel

/-! ## Priorities -/

def TxEntry.dataAt (nowMs priority : Nat) (e : TxEntry) : Bool :=
  e.eligible nowMs && !e.control && e.priority = priority

def TxQueue.waitsAt (q : TxQueue) (nowMs priority : Nat) : Bool := (q.entries.find? (·.dataAt nowMs priority)).isSome

def cyclePriority (slot : Nat) : Nat := priorityCycle.getD slot 0

theorem queuePriority_eq (q : TxQueue) (nowMs : Nat) :
    queuePriority q nowMs = choose priorityCycle.length cyclePriority (q.waitsAt nowMs) q.prioritySlot := rfl

theorem cyclePriority_le (slot : Nat) : cyclePriority slot ≤ PRIORITY_MAX := by
  unfold cyclePriority
  by_cases hslot : slot < priorityCycle.length
  · exact (by decide : ∀ s < priorityCycle.length, priorityCycle.getD s 0 ≤ PRIORITY_MAX) slot hslot
  · rw [List.getD_eq_default _ _ (Nat.le_of_not_lt hslot)]
    exact Nat.zero_le _

/-- The priorities that calls of `melodi_queue_priority` select one after the other. Each call finds a queue and a time
of its own; only the slot of the cycle passes from one to the next. -/
def prioritySelections : Nat → List (TxQueue × Nat) → List Nat
  | _, [] => []
  | slot, (q, nowMs) :: rest =>
    match queuePriority { q with prioritySlot := slot } nowMs with
    | none => prioritySelections slot rest
    | some (priority, next) => priority :: prioritySelections next rest

theorem prioritySelections_eq (slot : Nat) (calls : List (TxQueue × Nat)) :
    prioritySelections slot calls =
      choices priorityCycle.length cyclePriority slot (calls.map fun c => c.1.waitsAt c.2) := by
  induction calls generalizing slot with
  | nil => rfl
  | cons c rest ih =>
    have hchoose : queuePriority { c.1 with prioritySlot := slot } c.2 =
        choose priorityCycle.length cyclePriority (c.1.waitsAt c.2) slot := rfl
    rw [prioritySelections, hchoose, List.map_cons, choices]
    cases choose priorityCycle.length cyclePriority (c.1.waitsAt c.2) slot with
    | none => exact ih slot
    | some choice => exact congrArg _ (ih choice.2)

/-- In fifteen selections a priority that always waits is selected as often as it stands in the cycle, whatever the
others do. -/
theorem priority_served (calls : List (TxQueue × Nat)) (slot : Nat) {p : Nat} (hp : p ≤ PRIORITY_MAX)
    (hwaits : ∀ c ∈ calls, (∃ other ≤ PRIORITY_MAX, c.1.waitsAt c.2 other = true) → c.1.waitsAt c.2 p = true)
    (hfifteen : (prioritySelections slot calls).length = 15) :
    [8, 4, 2, 1].getD p 0 ≤ (prioritySelections slot calls).count p := by
  have hweight : Nat.count (fun j => cyclePriority j = p) priorityCycle.length = [8, 4, 2, 1].getD p 0 :=
    (by decide : ∀ p ≤ PRIORITY_MAX,
      Nat.count (fun j => cyclePriority j = p) priorityCycle.length = [8, 4, 2, 1].getD p 0) p hp
  rw [prioritySelections_eq] at hfifteen ⊢
  rw [← hweight]
  refine weight_le_count (fun ready hready => ?_) hfifteen.ge
  obtain ⟨c, hc, rfl⟩ := List.mem_map.mp hready
  rintro ⟨j, hj⟩
  exact hwaits c hc ⟨_, cyclePriority_le j, hj⟩

/-- Entries of all four priorities wait, and the least of them gets its one turn. -/
theorem priority_served_contended :
    (∀ p ≤ PRIORITY_MAX, (queuedAt [0, 1, 2, 3]).waitsAt 0 p = true) ∧
      1 ≤ (prioritySelections 9 (List.replicate 15 (queuedAt [0, 1, 2, 3], 0))).count 3 := by
  have hwaits : ∀ p ≤ PRIORITY_MAX, (queuedAt [0, 1, 2, 3]).waitsAt 0 p = true := by decide +kernel
  have hfifteen : (prioritySelections 9 (List.replicate 15 (queuedAt [0, 1, 2, 3], 0))).length = 15 := by
    decide +kernel
  refine ⟨hwaits, priority_served (p := 3) _ 9 (by decide) (fun c hc _ => ?_) hfifteen⟩
  rw [List.eq_of_mem_replicate hc]
  exact hwaits 3 (by decide)

/-! ## Peers and flows -/

def entryKeys {K β : Type} (q : TxQueue) (test : TxEntry → Bool) (key : Fin TX_QUEUE_LIMIT → TxEntry → K × β)
    (i : Fin TX_QUEUE_LIMIT) : Option (K × β) :=
  (q.entries i).bind fun e => if test e then some (key i e) else none

theorem entryKeys_eq_some {K β : Type} {q : TxQueue} {test : TxEntry → Bool}
    {key : Fin TX_QUEUE_LIMIT → TxEntry → K × β} {x : K × β} :
    entryKeys q test key i = some x ↔ ∃ e, q.entries i = some e ∧ test e = true ∧ key i e = x := by
  simp only [entryKeys, Option.bind_eq_some_iff, ite_eq_iff, Option.some.injEq, reduceCtorEq, and_false, or_false]

theorem leastTurn_eq (q : TxQueue) (test : TxEntry → Bool) (record : TxEntry → Fin TX_FLOW_LIMIT)
    (turn : Fin TX_FLOW_LIMIT → Nat) :
    leastTurn q test record turn =
      (search (entryKeys q test fun _ e => (toLex (turn (record e), e.sequence), record e)) (toLex (U64_MAX, U64_MAX))
        (List.finRange TX_QUEUE_LIMIT)).2 := by
  unfold leastTurn search
  congr 2
  funext best i
  unfold searchStep entryKeys
  cases q.entries i with
  | none => rfl
  | some e =>
    cases htest : test e with
    | false => simp [htest]
    | true =>
      simp only [htest, Bool.true_and, Bool.or_eq_true, Bool.and_eq_true, decide_eq_true_eq, Option.bind_some, if_true,
        Prod.Lex.lt_iff, ofLex_toLex]
      rfl

theorem oldestEntry_eq (q : TxQueue) (test : TxEntry → Bool) :
    oldestEntry q test =
      (search (entryKeys q test fun i e => (e.sequence, i)) U64_MAX (List.finRange TX_QUEUE_LIMIT)).2 := by
  unfold oldestEntry search
  congr 2
  funext best i
  unfold searchStep entryKeys
  cases q.entries i with
  | none => rfl
  | some e => cases htest : test e <;> simp [htest]

section Searches

variable {q : TxQueue} {test : TxEntry → Bool} {record : TxEntry → Fin TX_FLOW_LIMIT} {turn : Fin TX_FLOW_LIMIT → Nat}

theorem leastTurn_some {x : Fin TX_FLOW_LIMIT} (h : leastTurn q test record turn = some x) :
    ∃ i e, q.entries i = some e ∧ test e = true ∧ record e = x ∧
      ∀ j f, q.entries j = some f → test f = true → turn x ≤ turn (record f) := by
  rw [leastTurn_eq] at h
  obtain ⟨i, -, k, hk, hleast⟩ := search_some h
  obtain ⟨e, he, htest, heq⟩ := entryKeys_eq_some.mp hk
  obtain ⟨rfl, rfl⟩ := Prod.mk.inj heq
  refine ⟨i, e, he, htest, rfl, fun j f hf htestf => ?_⟩
  have hle := hleast j (List.mem_finRange j) _ _ (entryKeys_eq_some.mpr ⟨f, hf, htestf, rfl⟩)
  rcases Prod.Lex.le_iff.mp hle with hlt | heq
  · exact hlt.le
  · exact heq.1.le

theorem leastTurn_isSome (he : q.entries i = some e) (htest : test e = true) (hturn : turn (record e) ≤ U64_MAX)
    (hsequence : e.sequence < U64_MAX) :
    (leastTurn q test record turn).isSome = true := by
  rw [leastTurn_eq]
  refine search_isSome (List.mem_finRange i) (entryKeys_eq_some.mpr ⟨e, he, htest, rfl⟩) (Prod.Lex.lt_iff.mpr ?_)
  exact (Nat.lt_or_eq_of_le hturn).imp_right fun h => ⟨h, hsequence⟩

theorem oldestEntry_some (h : oldestEntry q test = some i) :
    ∃ e, q.entries i = some e ∧ test e = true ∧
      ∀ j f, q.entries j = some f → test f = true → e.sequence ≤ f.sequence := by
  rw [oldestEntry_eq] at h
  obtain ⟨j, -, k, hk, hleast⟩ := search_some h
  obtain ⟨e, he, htest, heq⟩ := entryKeys_eq_some.mp hk
  obtain ⟨rfl, rfl⟩ := Prod.mk.inj heq
  exact ⟨e, he, htest, fun j f hf htestf =>
    hleast j (List.mem_finRange j) _ _ (entryKeys_eq_some.mpr ⟨f, hf, htestf, rfl⟩)⟩

theorem oldestEntry_isSome (he : q.entries i = some e) (htest : test e = true) (hsequence : e.sequence < U64_MAX) :
    (oldestEntry q test).isSome = true := by
  rw [oldestEntry_eq]
  exact search_isSome (List.mem_finRange i) (entryKeys_eq_some.mpr ⟨e, he, htest, rfl⟩) hsequence

end Searches

theorem TxEntry.dataAt_control {priority : Nat} (h : e.dataAt nowMs priority = true) :
    e.control = false := by
  simp only [TxEntry.dataAt, Bool.and_eq_true, Bool.not_eq_true'] at h
  exact h.1.2

/-- An entry is due at a priority: it may be taken, its peer had its turn longest ago among those with such entries,
then its flow among those of the peer, and it is the oldest of the flow. -/
structure Due (q : TxQueue) (nowMs priority : Nat) (e : TxEntry) : Prop where
  data : e.dataAt nowMs priority = true
  peer : ∀ j f, q.entries j = some f → f.dataAt nowMs priority = true → q.peerTurn e.peerIndex ≤ q.peerTurn f.peerIndex
  flow : ∀ j f, q.entries j = some f → f.dataAt nowMs priority = true → f.peerIndex = e.peerIndex →
    q.flowTurn e.flowIndex ≤ q.flowTurn f.flowIndex
  oldest : ∀ j f, q.entries j = some f → f.dataAt nowMs priority = true → f.peerIndex = e.peerIndex →
    f.flowIndex = e.flowIndex → e.sequence ≤ f.sequence

theorem queueData_eq (q : TxQueue) (nowMs : Nat) :
    queueData q nowMs =
      match queuePriority q nowMs with
      | none => (q, none)
      | some (priority, slot) =>
        match leastTurn q (·.dataAt nowMs priority) (·.peerIndex) q.peerTurn with
        | none => ({ q with prioritySlot := slot }, none)
        | some peer =>
          match leastTurn q (fun e => e.dataAt nowMs priority && e.peerIndex = peer) (·.flowIndex) q.flowTurn with
          | none => ({ q with prioritySlot := slot }, none)
          | some flow =>
            match oldestEntry q fun e => (e.dataAt nowMs priority && e.peerIndex = peer) && e.flowIndex = flow with
            | none => ({ q with prioritySlot := slot }, none)
            | some i => (queueTurnTake (queueTurnReset { q with prioritySlot := slot }) peer flow, some i) := rfl

theorem queueData_some {q : TxQueue} (h : (queueData q nowMs).2 = some i) :
    ∃ e priority slot, q.entries i = some e ∧ queuePriority q nowMs = some (priority, slot) ∧ Due q nowMs priority e ∧
      (queueData q nowMs).1 = queueTurnTake (queueTurnReset { q with prioritySlot := slot }) e.peerIndex
      e.flowIndex := by
  rw [queueData_eq] at h ⊢
  cases hpriority : queuePriority q nowMs with
  | none =>
    rw [hpriority] at h
    cases h
  | some choice =>
    obtain ⟨priority, slot⟩ := choice
    simp only [hpriority] at h ⊢
    split at h
    · cases h
    rename_i peer hpeer
    split at h
    · cases h
    rename_i flow hflow
    split at h
    · cases h
    rename_i k hentry
    obtain rfl := Option.some.inj h
    obtain ⟨-, -, -, -, -, hpeerLeast⟩ := leastTurn_some hpeer
    obtain ⟨-, -, -, -, -, hflowLeast⟩ := leastTurn_some hflow
    obtain ⟨e, he, htest, holdest⟩ := oldestEntry_some hentry
    simp only [Bool.and_eq_true, decide_eq_true_eq] at htest holdest hflowLeast
    obtain ⟨⟨hdata, rfl⟩, rfl⟩ := htest
    exact ⟨e, priority, slot, he, rfl, ⟨hdata, hpeerLeast, fun j f hf hd hp => hflowLeast j f hf ⟨hd, hp⟩,
      fun j f hf hd hp hfl => holdest j f hf ⟨⟨hd, hp⟩, hfl⟩⟩, rfl⟩

theorem queueData_none {q : TxQueue} (h : (queueData q nowMs).2 = none) :
    ∃ slot, (queueData q nowMs).1 = { q with prioritySlot := slot } := by
  rw [queueData_eq] at h ⊢
  split at h
  · exact ⟨q.prioritySlot, rfl⟩
  rename_i priority slot _
  refine ⟨slot, ?_⟩
  split at h
  · rfl
  split at h
  · rfl
  split at h
  · rfl
  · cases h

theorem queueData_isSome {q : TxQueue} (he : q.entries i = some e) (heligible : e.eligible nowMs = true)
    (hdata : e.control = false) (hpriority : e.priority ≤ PRIORITY_MAX)
    (hsequence : ∀ j f, q.entries j = some f → f.sequence < U64_MAX) (hpeers : ∀ k, q.peerTurn k ≤ U64_MAX)
    (hflows : ∀ k, q.flowTurn k ≤ U64_MAX) : (queueData q nowMs).2.isSome = true := by
  have hcycle : ∃ j < priorityCycle.length, cyclePriority j = e.priority :=
    (by decide : ∀ p ≤ PRIORITY_MAX, ∃ j < priorityCycle.length, cyclePriority j = p) _ hpriority
  obtain ⟨slot₀, hslot₀, hslotPriority⟩ := hcycle
  have hwaits : q.waitsAt nowMs (cyclePriority slot₀) = true := by
    rw [TxQueue.waitsAt, Option.isSome_iff_ne_none]
    intro hnone
    have := Table.find?_none hnone he
    simp [TxEntry.dataAt, heligible, hdata, hslotPriority] at this
  have hsome : (queuePriority q nowMs).isSome = true := by
    rw [queuePriority_eq]
    exact choose_isSome hslot₀ hwaits _
  obtain ⟨⟨priority, slot⟩, hchosen⟩ := Option.isSome_iff_exists.mp hsome
  -- the class chosen has an entry, which each of the three searches finds or betters
  obtain ⟨-, -, hready, -, -⟩ := choose_some (queuePriority_eq q nowMs ▸ hchosen)
  obtain ⟨j, hj⟩ := Option.isSome_iff_exists.mp hready
  obtain ⟨f, hf, hfdata⟩ := Table.find?_some hj
  have hpeer : (leastTurn q (·.dataAt nowMs priority) (·.peerIndex) q.peerTurn).isSome = true :=
    leastTurn_isSome hf hfdata (hpeers _) (hsequence j f hf)
  obtain ⟨peer, hpeer⟩ := Option.isSome_iff_exists.mp hpeer
  obtain ⟨j₁, f₁, hf₁, hdata₁, hpeer₁, -⟩ := leastTurn_some hpeer
  have hflow : (leastTurn q (fun e => e.dataAt nowMs priority && e.peerIndex = peer) (·.flowIndex) q.flowTurn).isSome =
    true :=
    leastTurn_isSome hf₁ (by simp [hdata₁, hpeer₁]) (hflows _) (hsequence j₁ f₁ hf₁)
  obtain ⟨flow, hflow⟩ := Option.isSome_iff_exists.mp hflow
  obtain ⟨j₂, f₂, hf₂, hdata₂, hflow₂, -⟩ := leastTurn_some hflow
  have holdest : (oldestEntry q fun e => (e.dataAt nowMs priority && e.peerIndex = peer) && e.flowIndex = flow).isSome =
    true :=
    oldestEntry_isSome hf₂ (by simpa [hflow₂] using hdata₂) (hsequence j₂ f₂ hf₂)
  obtain ⟨k, holdest⟩ := Option.isSome_iff_exists.mp holdest
  simp only [queueData_eq, hchosen, hpeer, hflow, holdest, Option.isSome_some]

/-! ## What is selected -/

theorem queueOldestControl_some {q : TxQueue} (h : queueOldestControl q nowMs = some i) :
    ∃ e, q.entries i = some e ∧ e.control = true := by
  have heq : queueOldestControl q nowMs = oldestEntry q fun e => e.eligible nowMs && e.control := rfl
  rw [heq] at h
  obtain ⟨e, he, htest, -⟩ := oldestEntry_some h
  exact ⟨e, he, (Bool.and_eq_true _ _ ▸ htest).2⟩

theorem queueSelect_turns (q : TxQueue) (nowMs : Nat) :
    ((queueSelect q nowMs).1.peers = q.peers ∧ (∀ k e, (queueSelect q nowMs).2 = some k →
        (queueSelect q nowMs).1.entries k = some e → e.control = true)) ∨
      ∃ k e priority, (queueSelect q nowMs).2 = some k ∧ q.entries k = some e ∧ Due q nowMs priority e ∧
        (queueSelect q nowMs).1.entries k = some { e with inFlight := true } ∧
        (queueSelect q nowMs).1.peers = (queueTurnTake (queueTurnReset q) e.peerIndex e.flowIndex).peers := by
  -- a control entry is marked in a queue with the entries and peers it had
  have hcontrol : ∀ q₁ : TxQueue, q₁.entries = q.entries → q₁.peers = q.peers →
      (queueMark q₁ (queueOldestControl q nowMs)).1.peers = q.peers ∧ ∀ k e,
        (queueMark q₁ (queueOldestControl q nowMs)).2 = some k →
        (queueMark q₁ (queueOldestControl q nowMs)).1.entries k = some e → e.control = true := by
    intro q₁ hentries hpeers
    cases hfound : queueOldestControl q nowMs with
    | none => exact ⟨hpeers, nofun⟩
    | some i =>
      obtain ⟨e, he, hc⟩ := queueOldestControl_some hfound
      have hmark : queueMark q₁ (some i) = (entryUpdate q₁ i { e with inFlight := true }, some i) := by
        rw [queueMark, hentries, he]
      rw [hmark]
      refine ⟨hpeers, fun k e' hk he' => ?_⟩
      obtain rfl := Option.some.inj hk
      rw [entryUpdate_entries, Table.set_self] at he'
      obtain rfl := Option.some.inj he'
      exact hc
  unfold queueSelect
  dsimp only
  split
  · exact .inl (hcontrol q rfl rfl)
  cases hdata : (queueData q nowMs).2 with
  | none =>
    obtain ⟨slot, hq⟩ := queueData_none hdata
    rw [hq, Option.none_or]
    exact .inl (hcontrol _ rfl rfl)
  | some k =>
    obtain ⟨e, priority, slot, he, -, hdue, hq⟩ := queueData_some hdata
    obtain ⟨_, _, _, _, hsame⟩ := queueData_same q nowMs
    have hentry : (queueData q nowMs).1.entries k = some e := by
      rw [hsame]
      exact he
    have hmark : queueMark (queueData q nowMs).1 (some k) =
        (entryUpdate (queueData q nowMs).1 k { e with inFlight := true }, some k) := by
      rw [queueMark, hentry]
    rw [Option.some_or, hmark]
    refine .inr ⟨k, e, priority, rfl, he, hdue, ?_, ?_⟩
    · rw [entryUpdate_entries, Table.set_self]
    have hpeers : (queueData q nowMs).1.peers = (queueTurnTake (queueTurnReset q) e.peerIndex e.flowIndex).peers := by
      rw [hq]
      unfold queueTurnTake queueTurnReset
      dsimp only
      split_ifs <;> rfl
    exact hpeers

end Melodi
