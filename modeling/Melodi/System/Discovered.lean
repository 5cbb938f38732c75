import Melodi.Core.PendingEffects
import Melodi.Lib.Run

/-!
# The discovery queue (`data.c`)

Messages and targets are linked by the destination alone, and whoever clears a message looks whether it was the last
one.

* `discovery_queue` : the counters, the limits and the targets after any critical sections, whatever the device is in
each.
-/

namespace Melodi
open Lib
variable {q : DiscoveryQueue} {i : Fin DISCOVERY_PENDING_LIMIT} {p p' : DiscoveryPending}

/-- The critical sections that touch the queue; `withdraw` is that of an admission whose probe failed. -/
inductive DiscoverySection where
  | admitLocked (d : Device) (a : DiscoveryArgs) (nowMs : Nat)
  | withdraw (i : Fin DISCOVERY_PENDING_LIMIT)
  | work (d : Device) (nowMs : Nat)
  | finish (i : Fin DISCOVERY_PENDING_LIMIT) (nowMs : Nat) (result : Except Errno Unit)
  | stateChanged (d : Device) (nowMs : Nat) (t : Transmit)
  | fail (error : Errno)
  | reset

def discoverySection (q : DiscoveryQueue) : DiscoverySection → DiscoveryQueue
  | .admitLocked d a nowMs => (discoveryAdmitLocked d q a nowMs).1
  | .withdraw i => discoveryPendingClear q i
  | .work d nowMs => (discoveryWorkSection d q nowMs).1
  | .finish i nowMs result => (discoveryWorkFinish q i nowMs result).1
  | .stateChanged d nowMs t => (dataStatePass d nowMs { t with discovery := q }).elim q fun r => r.1.discovery
  | .fail error => (failDiscoveryPass q error).elim q Prod.fst
  | .reset => {}

/-- The counters are the sums they stand for, within the limits, and there is one target for each destination. -/
structure Discovered (q : DiscoveryQueue) : Prop where
  count : q.count = q.pending.sum fun _ => 1
  count_le : q.count ≤ DISCOVERY_PENDING_LIMIT
  bytes : q.bytes = q.pending.sum fun p => p.payload.length
  bytes_le : q.bytes ≤ DISCOVERY_BYTE_LIMIT
  node_le : ∀ node, q.pending.sum (fun p => if p.destination = node then 1 else 0) ≤ DISCOVERY_PER_NODE_LIMIT
  keyed : q.targets.Keyed DiscoveryTarget.destination
  linked : ∀ node, q.targets.Any (·.destination = node) ↔ q.pending.Any (·.destination = node)

theorem Discovered.empty : Discovered {} :=
  ⟨(Table.sum_empty _).symm, Nat.zero_le _, (Table.sum_empty _).symm, Nat.zero_le _,
    fun _ => by simp, Table.keyed_empty _, fun _ => ⟨nofun, nofun⟩⟩

theorem Discovered.clear (hq : Discovered q) (i : Fin DISCOVERY_PENDING_LIMIT) :
    Discovered (discoveryPendingClear q i) := by
  unfold discoveryPendingClear
  cases hp : q.pending i with
  | none => exact hq
  | some p =>
    have hsum : ∀ f, (q.pending.clear i).sum f + f p = q.pending.sum f := fun f => by
      simpa [hp] using q.pending.sum_clear i f
    -- whatever is done to the targets
    have hrest : ∀ targets : Table DISCOVERY_TARGET_LIMIT DiscoveryTarget, targets.Keyed DiscoveryTarget.destination →
        (∀ node, targets.Any (·.destination = node) ↔ (q.pending.clear i).Any (·.destination = node)) →
        Discovered ⟨q.pending.clear i, targets, q.bytes - p.payload.length, q.count - 1⟩ := by
      refine fun targets hkeyed hlinked =>
        ⟨?_, (Nat.sub_le ..).trans hq.count_le, ?_, (Nat.sub_le ..).trans hq.bytes_le, fun node => ?_, hkeyed, hlinked⟩
      · exact Nat.sub_eq_of_eq_add (hq.count.trans (hsum _).symm)
      · exact Nat.sub_eq_of_eq_add (hq.bytes.trans (hsum _).symm)
      · exact (Nat.le_add_right ..).trans ((hsum _).le.trans (hq.node_le node))
    unfold discoveryTargetRelease
    dsimp only
    split_ifs with hmore
    · obtain ⟨j, p', hj, hsame⟩ := Table.find?_isSome_iff.mp hmore
      refine hrest q.targets hq.keyed fun node => (hq.linked node).trans ⟨?_, ?_⟩
      · rintro ⟨j', p₁, hj', rfl⟩
        by_cases heq : j' = i
        · subst heq
          rw [Option.some.inj (hj'.symm.trans hp)]
          exact ⟨j, p', hj, of_decide_eq_true hsame⟩
        · exact ⟨j', p₁, Table.clear_eq_some.mpr ⟨heq, hj'⟩, rfl⟩
      · exact fun ⟨j', p₁, hj', hnode⟩ => ⟨j', p₁, (Table.clear_eq_some.mp hj').2, hnode⟩
    · have hlast : ∀ j p', q.pending.clear i j = some p' → p'.destination ≠ p.destination := fun j p' hj heq =>
        hmore (Table.find?_isSome_iff.mpr ⟨j, p', hj, decide_eq_true heq⟩)
      obtain ⟨k₀, t₀, hk₀, ht₀⟩ := (hq.linked p.destination).mpr ⟨i, p, hp, rfl⟩
      split
      · rename_i hnone
        exact absurd (Table.find?_none hnone hk₀) (by simp [ht₀])
      rename_i k hfind
      obtain ⟨t, hk, ht⟩ := Table.find?_some hfind
      have ht := of_decide_eq_true ht
      refine hrest (q.targets.clear k) (hq.keyed.clear k) fun node => ⟨?_, ?_⟩
      · rintro ⟨k', t', hk', rfl⟩
        obtain ⟨hne, hk'⟩ := Table.clear_eq_some.mp hk'
        obtain ⟨j, p', hj, hnode⟩ := (hq.linked t'.destination).mp ⟨k', t', hk', rfl⟩
        refine ⟨j, p', Table.clear_eq_some.mpr ⟨fun heq => hne ?_, hj⟩, hnode⟩
        rw [heq] at hj
        rw [Option.some.inj (hj.symm.trans hp)] at hnode
        exact hq.keyed k' k t' t hk' hk (hnode.symm.trans ht.symm)
      · rintro ⟨j, p', hj, rfl⟩
        obtain ⟨k', t', hk', hnode⟩ := (hq.linked p'.destination).mpr ⟨j, p', (Table.clear_eq_some.mp hj).2, rfl⟩
        refine ⟨k', t', Table.clear_eq_some.mpr ⟨fun heq => hlast j p' hj ?_, hk'⟩, hnode⟩
        rw [heq] at hk'
        rw [← hnode, Option.some.inj (hk'.symm.trans hk), ht]

theorem Discovered.set (hq : Discovered q) (hp : q.pending i = some p) (hnode : p'.destination = p.destination)
    (hpayload : p'.payload = p.payload) : Discovered { q with pending := q.pending.set i p' } := by
  have hsum : ∀ f : DiscoveryPending → Nat, f p' = f p → (q.pending.set i p').sum f = q.pending.sum f := fun f hf => by
    have := q.pending.sum_set i p' f
    rw [hp, Table.weight_some, hf] at this
    omega
  refine ⟨hq.count.trans (hsum _ rfl).symm, hq.count_le, hq.bytes.trans (hsum _ (by rw [hpayload])).symm, hq.bytes_le,
    fun node =>
    (hsum _ (by rw [hnode])).le.trans (hq.node_le node), hq.keyed, fun node => (hq.linked node).trans ⟨?_, ?_⟩⟩
  · rintro ⟨j, p₁, hj, rfl⟩
    by_cases heq : j = i
    · subst heq
      rw [Option.some.inj (hj.symm.trans hp), ← hnode]
      exact ⟨j, p', Table.set_self .., rfl⟩
    · exact ⟨j, p₁, Table.set_eq_some.mpr (.inr ⟨heq, hj⟩), rfl⟩
  · rintro ⟨j, p₁, hj, rfl⟩
    rcases Table.set_eq_some.mp hj with ⟨rfl, rfl⟩ | ⟨-, hj⟩
    · exact ⟨j, p, hp, hnode.symm⟩
    · exact ⟨j, p₁, hj, rfl⟩

theorem any_set {n : Nat} {α : Type} {t : Table n α} {i : Fin n} (hfree : t i = none) (a : α) (P : α → Prop) :
    (t.set i a).Any P ↔ P a ∨ t.Any P := by
  constructor
  · rintro ⟨j, b, hj, hb⟩
    rcases Table.set_eq_some.mp hj with ⟨-, rfl⟩ | ⟨-, hj⟩
    · exact .inl hb
    · exact .inr ⟨j, b, hj, hb⟩
  · rintro (ha | ⟨j, b, hj, hb⟩)
    · exact ⟨i, a, Table.set_self .., ha⟩
    · refine ⟨j, b, (Table.set_of_ne _ _ ?_).trans hj, hb⟩
      rintro rfl
      exact nomatch hfree.symm.trans hj

theorem Discovered.write (hq : Discovered q) (hfree : q.pending i = none) (hcount : q.count < DISCOVERY_PENDING_LIMIT)
    (hnode : q.pending.sum (fun p' => if p'.destination = p.destination then 1 else 0) < DISCOVERY_PER_NODE_LIMIT)
    (hroom : p.payload.length ≤ DISCOVERY_BYTE_LIMIT - q.bytes) {targets : Table DISCOVERY_TARGET_LIMIT DiscoveryTarget}
    (hkeyed : targets.Keyed DiscoveryTarget.destination)
    (htargets : ∀ node, targets.Any (·.destination = node) ↔ p.destination = node ∨
    q.targets.Any (·.destination = node)) :
    Discovered ⟨q.pending.set i p, targets, q.bytes + p.payload.length, q.count + 1⟩ := by
  have hsum : ∀ f, (q.pending.set i p).sum f = q.pending.sum f + f p := fun f => by
    simpa [hfree] using q.pending.sum_set i p f
  have hlimit := hq.bytes_le
  refine ⟨(congrArg (· + 1) hq.count).trans (hsum _).symm, hcount, (congrArg (· + _) hq.bytes).trans (hsum _).symm, ?_,
    fun node => ?_, hkeyed, fun node =>
      (htargets node).trans ((or_congr_right (hq.linked node)).trans (any_set hfree p (·.destination = node)).symm)⟩
  · dsimp only
    omega
  · rw [hsum]
    split_ifs with heq
    · exact heq ▸ hnode
    · exact hq.node_le node

theorem Discovered.admit (hq : Discovered q) (d : Device) (a : DiscoveryArgs) (nowMs : Nat) :
    Discovered (discoveryAdmitLocked d q a nowMs).1 := by
  unfold discoveryAdmitLocked
  dsimp only
  split_ifs with hidentity htransport hlate hfull
  · exact hq
  · exact hq
  · exact hq
  · split <;> exact hq
  simp only [not_or, Nat.not_le, Nat.not_lt] at hfull
  obtain ⟨hcount, hnode, hroom⟩ := hfull
  split
  · exact hq
  rename_i i hfree
  have hfree := Table.free?_some hfree
  split
  · rename_i t htarget
    obtain ⟨k, hk, hsame⟩ := hq.keyed.find?_bind.mp htarget
    refine hq.write hfree hcount hnode hroom hq.keyed fun node => ⟨.inr, ?_⟩
    rintro (rfl | hold)
    · exact ⟨k, t, hk, hsame⟩
    · exact hold
  · rename_i htarget
    have hnew : ∀ k t, q.targets k = some t → t.destination ≠ a.destination := fun k t hk heq =>
      nomatch htarget.symm.trans (hq.keyed.find?_bind.mpr ⟨k, hk, heq⟩)
    split
    · exact hq
    rename_i k hspare
    exact hq.write hfree hcount hnode hroom (hq.keyed.set_of fun j t hj heq => absurd heq (hnew j t hj)) fun node =>
      any_set (Table.free?_some hspare) _ _

theorem discoverySection_discovered (q : DiscoveryQueue) (s : DiscoverySection) (hq : Discovered q) :
    Discovered (discoverySection q s) := by
  cases s with
  | admitLocked d a nowMs => exact hq.admit d a nowMs
  | withdraw i => exact hq.clear i
  | work d nowMs =>
    show Discovered (discoveryWorkSection d q nowMs).1
    rcases discoveryWorkSection_cases d q nowMs with heq | ⟨i, p, hp, -, ⟨-, heq⟩ | ⟨-, heq⟩⟩ <;> rw [heq]
    · exact hq
    · exact hq.clear i
    · exact hq.set hp rfl rfl
  | finish i nowMs result =>
    show Discovered (discoveryWorkFinish q i nowMs result).1
    unfold discoveryWorkFinish
    split
    · exact hq.clear i
    · exact hq
    · rename_i p hp
      split_ifs
      · exact hq.set hp rfl rfl
      · exact hq.clear i
  | stateChanged d nowMs t =>
    dsimp only [discoverySection, dataStatePass]
    split
    · exact hq
    · split
      · exact hq.clear _
      · exact hq
  | fail error =>
    show Discovered ((failDiscoveryPass q error).elim q Prod.fst)
    cases hpass : failDiscoveryPass q error with
    | none => exact hq
    | some r =>
      obtain ⟨j, p, hp, heq, -⟩ := failDiscoveryPass_cases hpass
      show Discovered r.1
      rw [heq]
      exact hq.clear j
  | reset => exact .empty

/-- An admission that is refused leaves the queue and the targets as they were. -/
def RefusesCleanly (q : DiscoveryQueue) : Prop :=
  ∀ d a nowMs e, (discoveryAdmitLocked d q a nowMs).2 = .error e → (discoveryAdmitLocked d q a nowMs).1 = q

theorem refusesCleanly (q : DiscoveryQueue) : RefusesCleanly q := by
  intro d a nowMs e he
  rcases discoveryAdmitLocked_cases (Prod.mk.eta ..).symm with ⟨-, -, hsame⟩ | ⟨_, _, _, hok, -⟩
  · exact hsame
  · exact nomatch he.symm.trans hok

/-- After any sections the counts of the discovery queue are those of its messages and stay within their limits. -/
theorem discovery_queue (sections : List DiscoverySection) :
    Discovered (run discoverySection {} sections) ∧ RefusesCleanly (run discoverySection {} sections) :=
  ⟨run_invariant discoverySection Discovered discoverySection_discovered .empty sections, refusesCleanly _⟩

end Melodi
