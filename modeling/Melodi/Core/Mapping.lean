import Melodi.Core.Identity

/-!
# Collision sets (`mapping.c`)

`resolveCollisionSet` sorts some NodeIds by insertion and gives each, in ascending order, the locator of its first round
that no smaller NodeId has.

* `collision_set_resolved` : the result, whatever the order of the NodeIds.
-/

namespace Melodi

def MAPPING_SET_LIMIT : Nat := 64

structure MappingEntry where
  nodeId : NodeId
  nativeLocator : UInt32
  collisionRound : Nat
  deriving DecidableEq, Repr

/-- One turn of the sorting loop of `melodi_resolve_collision_set`: entries that are greater move up, and the one before
the gap and the one behind it are compared with the newcomer. -/
def insertNode (entries : List NodeId) (node : NodeId) : Except Errno (List NodeId) :=
  let kept := entries.rdropWhile (node < ·)
  let moved := entries.rtakeWhile (node < ·)
  if kept.getLast? = some node ∨ moved.head? = some node then .error .EEXIST else .ok (kept ++ node :: moved)

def assignLocators (P : Platform) (domain : Octets) : List MappingEntry → List NodeId → Except Errno (List MappingEntry)
  | entries, [] => .ok entries
  | entries, node :: nodes =>
    match mapNativeLocatorAvailable P domain node 0 (entries.map (·.nativeLocator)) with
    | .error e => .error e
    | .ok (nativeLocator, round) => assignLocators P domain (entries ++ [⟨node, nativeLocator, round⟩]) nodes

def resolveCollisionSet (P : Platform) (domain : Octets) (nodes : List NodeId) : Except Errno (List MappingEntry) :=
  if nodes.length = 0 ∨ MAPPING_SET_LIMIT < nodes.length then .error .EINVAL
  else
    match nodes.foldlM insertNode [] with
    | .error e => .error e
    | .ok sorted => assignLocators P domain [] sorted

/-! ## The search for a round -/

variable {first round : Nat} {l : UInt32} {nodes : List NodeId} {e : MappingEntry}

section
variable {P : Platform} {domain : Octets} {node : NodeId} {occupied : List UInt32}

/-- The locator of the first round from `first` on that is valid and not occupied. -/
structure FirstRound (P : Platform) (domain : Octets) (node : NodeId) (occupied : List UInt32) (first : Nat)
    (locator : UInt32) (round : Nat) : Prop where
  from_first : first ≤ round
  derived : roundLocator P domain node round = some locator
  free : locator ∉ occupied
  least : ∀ k, first ≤ k → k < round → ∀ l, roundLocator P domain node k = some l → l ∈ occupied

theorem FirstRound.unique {round' : Nat} {l' : UInt32} (h : FirstRound P domain node occupied first l round)
    (h' : FirstRound P domain node occupied first l' round') : l = l' ∧ round = round' := by
  obtain rfl : round = round' := by
    rcases Nat.lt_trichotomy round round' with hlt | heq | hlt
    · exact absurd (h'.least _ h.from_first hlt _ h.derived) h.free
    · exact heq
    · exact absurd (h.least _ h'.from_first hlt _ h'.derived) h'.free
  exact ⟨Option.some.inj (h.derived.symm.trans h'.derived), rfl⟩

theorem FirstRound.skip {first' : Nat} (hle : first ≤ first')
    (hskip : ∀ k, first ≤ k → k < first' → ∀ l, roundLocator P domain node k = some l → l ∈ occupied)
    (h : FirstRound P domain node occupied first' l round) : FirstRound P domain node occupied first l round where
  from_first := hle.trans h.from_first
  derived := h.derived
  free := h.free
  least k hk hlt l hl := by
    by_cases hbefore : k < first'
    · exact hskip k hk hbefore l hl
    · exact h.least k (by omega) hlt l hl

theorem roundLocator_valid (h : roundLocator P domain node round = some l) :
    l ≠ NATIVE_LOCATOR_INVALID ∧ l ≠ NATIVE_LOCATOR_BROADCAST := by
  simp only [roundLocator, Option.ite_none_right_eq_some, Option.some.injEq] at h
  exact h.2 ▸ h.1

theorem mapLocatorFrom_spec (P : Platform) (domain : Octets) (node : NodeId) (fuel round : Nat) :
    (∃ l r, mapLocatorFrom P domain node fuel round = .ok (l, r) ∧ r ≤ round + fuel ∧ FirstRound P domain node
    [] round l r) ∨ mapLocatorFrom P domain node fuel round = .error .EOVERFLOW ∧
      ∀ k, round ≤ k → k ≤ round + fuel → roundLocator P domain node k = none := by
  induction fuel generalizing round with
  | zero =>
    cases hl : roundLocator P domain node round with
    | some l => exact .inl ⟨l, round, by simp [mapLocatorFrom, hl], le_rfl, le_rfl, hl, by simp, fun k _ _ => by omega⟩
    | none =>
      refine .inr ⟨by simp [mapLocatorFrom, hl], fun k hk hk' => ?_⟩
      obtain rfl : k = round := by omega
      exact hl
  | succ fuel ih =>
    cases hl : roundLocator P domain node round with
    | some l =>
      exact .inl ⟨l, round, by simp [mapLocatorFrom, hl], by omega, le_rfl, hl, by simp, fun k _ _ => by omega⟩
    | none =>
      have hskip : ∀ k, round ≤ k → k < round + 1 → roundLocator P domain node k = none := by
        intro k hk hk'
        obtain rfl : k = round := by omega
        exact hl
      have heq : mapLocatorFrom P domain node (fuel + 1) round = mapLocatorFrom P domain node fuel (round + 1) := by
        simp [mapLocatorFrom, hl]
      rw [heq]
      rcases ih (round + 1) with ⟨l, r, hok, hr, hfirst⟩ | ⟨hno, hnone⟩
      · refine .inl ⟨l, r, hok, by omega, hfirst.skip (Nat.le_succ _) fun k hk hk' l hl => ?_⟩
        rw [hskip k hk hk'] at hl
        cases hl
      refine .inr ⟨hno, fun k hk hk' => ?_⟩
      by_cases hlt : k < round + 1
      · exact hskip k hk hlt
      · exact hnone k (by omega) (by omega)

theorem mapNativeLocator_spec (P : Platform) (domain : Octets) (hvalid : mappingNodeValid node = true)
    (hround : round ≤ U32_MAX) :
    (∃ l r, mapNativeLocator P domain node round = .ok (l, r) ∧ r ≤ U32_MAX ∧ FirstRound P domain node [] round l r) ∨
    mapNativeLocator P domain node round = .error .EOVERFLOW ∧
      ∀ k, round ≤ k → k ≤ U32_MAX → roundLocator P domain node k = none := by
  have h := mapLocatorFrom_spec P domain node (U32_MAX - round) round
  rw [Nat.add_sub_cancel' hround] at h
  rwa [mapNativeLocator, if_neg (by simp [hvalid])]

theorem FirstRound.again (h : FirstRound P domain node occupied first l round) (hvalid : mappingNodeValid node = true)
    (hround : round ≤ U32_MAX) : mapNativeLocator P domain node round = .ok (l, round) := by
  rcases mapNativeLocator_spec P domain hvalid hround with ⟨l', r', hok, -, hfirst⟩ | ⟨-, hnone⟩
  · obtain ⟨rfl, rfl⟩ := hfirst.unique ⟨le_rfl, h.derived, List.not_mem_nil, fun k _ _ => by omega⟩
    exact hok
  have hderived := h.derived
  rw [hnone round le_rfl hround] at hderived
  cases hderived

theorem FirstRound.congr {occupied' : List UInt32} (h : FirstRound P domain node occupied first l round)
    (heq : ∀ l, l ∈ occupied ↔ l ∈ occupied') : FirstRound P domain node occupied' first l round :=
  ⟨h.from_first, h.derived, fun hmem => h.free ((heq l).mpr hmem), fun k hk hlt l hl => (heq l).mp
    (h.least k hk hlt l hl)⟩

theorem mapAvailableFrom_spec (hvalid : mappingNodeValid node = true) {fuel : Nat} (hround : round ≤ U32_MAX)
    (hfuel : U32_MAX ≤ round + fuel) :
    (∃ l r, mapAvailableFrom P domain node occupied fuel round = .ok (l, r) ∧ r ≤ U32_MAX ∧
      FirstRound P domain node occupied round l r) ∨
    mapAvailableFrom P domain node occupied fuel round = .error .EOVERFLOW ∧
      ∀ k, round ≤ k → k ≤ U32_MAX → ∀ l, roundLocator P domain node k = some l → l ∈ occupied := by
  induction fuel generalizing round with
  | zero =>
    obtain rfl : round = U32_MAX := by omega
    rcases mapNativeLocator_spec P domain hvalid le_rfl with ⟨l, r, hok, hr, hfirst⟩ | ⟨hno, hnone⟩
    · obtain rfl : r = U32_MAX := le_antisymm hr hfirst.from_first
      by_cases hfree : l ∈ occupied
      · refine .inr ⟨by simp [mapAvailableFrom, hok, hfree], fun k hk hk' l' hl' => ?_⟩
        obtain rfl : k = U32_MAX := le_antisymm hk' hk
        obtain rfl := Option.some.inj (hfirst.derived.symm.trans hl')
        exact hfree
      · exact .inl ⟨l, _, by simp [mapAvailableFrom, hok, hfree], hr, hr, hfirst.derived, hfree, fun k _ _ => by omega⟩
    · refine .inr ⟨by simp [mapAvailableFrom, hno], fun k hk hk' l hl => ?_⟩
      rw [hnone k hk hk'] at hl
      cases hl
  | succ fuel ih =>
    rcases mapNativeLocator_spec P domain hvalid hround with ⟨l, r, hok, hr, hfirst⟩ | ⟨hno, hnone⟩
    · -- what comes before round `r` has no locator at all
      have hskip : ∀ k, round ≤ k → k < r → ∀ l, roundLocator P domain node k = some l → l ∈ occupied :=
        fun k hk hlt l hl =>
        absurd (hfirst.least k hk hlt l hl) (by simp)
      by_cases hfree : l ∈ occupied
      · have hskip' : ∀ k, round ≤ k → k < r + 1 → ∀ l, roundLocator P domain node k = some l → l ∈ occupied := by
          intro k hk hlt l' hl'
          by_cases hkr : k = r
          · subst hkr
            obtain rfl := Option.some.inj (hfirst.derived.symm.trans hl')
            exact hfree
          · exact hskip k hk (by omega) l' hl'
        by_cases hlast : r = U32_MAX
        · refine .inr ⟨by simp [mapAvailableFrom, hok, hfree, hlast], fun k hk hk' => hskip' k hk (by omega)⟩
        have hle := hfirst.from_first
        have heq : mapAvailableFrom P domain node occupied (fuel + 1) round =
            mapAvailableFrom P domain node occupied fuel (r + 1) := by
          simp [mapAvailableFrom, hok, hfree, hlast]
        rw [heq]
        rcases ih (by omega : r + 1 ≤ U32_MAX) (by omega) with ⟨l', r', hok', hr', hfirst'⟩ | ⟨hno, hall⟩
        · exact .inl ⟨l', r', hok', hr', hfirst'.skip (by omega) hskip'⟩
        · refine .inr ⟨hno, fun k hk hk' => ?_⟩
          by_cases hlt : k < r + 1
          · exact hskip' k hk hlt
          · exact hall k (by omega) hk'
      · exact .inl ⟨l, r, by simp [mapAvailableFrom, hok, hfree], hr, hfirst.from_first, hfirst.derived, hfree, hskip⟩
    · refine .inr ⟨by simp [mapAvailableFrom, hno], fun k hk hk' l hl => ?_⟩
      rw [hnone k hk hk'] at hl
      cases hl

theorem mapNativeLocatorAvailable_spec (P : Platform) (domain : Octets) (occupied : List UInt32)
    (hvalid : mappingNodeValid node = true) (hround : round ≤ U32_MAX) :
    (∃ l r, mapNativeLocatorAvailable P domain node round occupied = .ok (l, r) ∧ r ≤ U32_MAX ∧
      FirstRound P domain node occupied round l r) ∨
    mapNativeLocatorAvailable P domain node round occupied = .error .EOVERFLOW ∧
      ∀ k, round ≤ k → k ≤ U32_MAX → ∀ l, roundLocator P domain node k = some l → l ∈ occupied :=
  mapAvailableFrom_spec hvalid hround (by omega)

theorem FirstRound.found (h : FirstRound P domain node occupied first l round) (hvalid : mappingNodeValid node = true)
    (hround : round ≤ U32_MAX) : mapNativeLocatorAvailable P domain node first occupied = .ok (l, round) := by
  rcases mapNativeLocatorAvailable_spec P domain occupied hvalid (h.from_first.trans hround) with
    ⟨l', r', hok, -, hfirst⟩ | ⟨-, hnone⟩
  · obtain ⟨rfl, rfl⟩ := h.unique hfirst
    exact hok
  · exact absurd (hnone round h.from_first hround l h.derived) h.free

end

/-! ## Sorting -/

theorem insertNode_spec {entries : List NodeId} (hsorted : entries.Pairwise (· < ·)) (node : NodeId) :
    (∃ entries', insertNode entries node = .ok entries' ∧ entries'.Pairwise (· < ·) ∧ entries'.Perm (node :: entries) ∧
      node ∉ entries) ∨ insertNode entries node = .error .EEXIST ∧ node ∈ entries := by
  have hsplit := List.rdropWhile_append_rtakeWhile (p := (node < ·)) (l := entries)
  have hmoved : ∀ x ∈ entries.rtakeWhile (node < ·), node < x := fun x hx => by simpa using List.mem_rtakeWhile_imp hx
  have hlast : ∀ kept x, entries.rdropWhile (node < ·) = kept ++ [x] → ¬node < x := by
    intro kept x hx
    simpa [hx] using List.rdropWhile_last_not (fun y => decide (node < y)) entries (by simp [hx])
  unfold insertNode
  dsimp only
  generalize entries.rdropWhile (node < ·) = kept at *
  generalize entries.rtakeWhile (node < ·) = moved at *
  subst hsplit
  have hhead : moved.head? ≠ some node := fun h => List.lt_irrefl node (hmoved node (List.mem_of_head? h))
  by_cases heq : kept.getLast? = some node
  · exact .inr ⟨by simp [heq], List.mem_append_left _ (List.mem_of_getLast? heq)⟩
  obtain ⟨hkeptSorted, hmovedSorted, hacross⟩ := List.pairwise_append.mp hsorted
  -- the last entry that stays is smaller, and so are those before it
  have hkept : ∀ x ∈ kept, x < node := by
    rcases kept.eq_nil_or_concat' with rfl | ⟨kept', y, rfl⟩
    · simp
    have hy : y < node := by
      refine List.not_le.mp fun hle => ?_
      exact heq (by simpa using List.le_antisymm (List.not_lt.mp (hlast kept' y rfl)) hle)
    intro x hx
    rcases List.mem_append.mp hx with hx | hx
    · exact List.lt_trans ((List.pairwise_append.mp hkeptSorted).2.2 x hx y (by simp)) hy
    · rwa [List.mem_singleton.mp hx]
  refine .inl ⟨kept ++ node :: moved, by simp [heq, hhead], ?_, List.perm_middle, ?_⟩
  · refine List.pairwise_append.mpr ⟨hkeptSorted, List.pairwise_cons.mpr ⟨hmoved, hmovedSorted⟩, fun x hx y hy => ?_⟩
    rcases List.mem_cons.mp hy with rfl | hy
    · exact hkept x hx
    · exact hacross x hx y hy
  · intro hmem
    rcases List.mem_append.mp hmem with hmem | hmem
    · exact List.lt_irrefl node (hkept node hmem)
    · exact List.lt_irrefl node (hmoved node hmem)

theorem sortNodes_spec (nodes : List NodeId) {entries : List NodeId} (hsorted : entries.Pairwise (· < ·)) :
    (∃ sorted, nodes.foldlM insertNode entries = .ok sorted ∧ sorted.Pairwise (· < ·) ∧
      sorted.Perm (nodes ++ entries)) ∨ nodes.foldlM insertNode entries = .error .EEXIST ∧
      ¬(nodes ++ entries).Nodup := by
  induction nodes generalizing entries with
  | nil => exact .inl ⟨entries, rfl, hsorted, .refl _⟩
  | cons node nodes ih =>
    rcases insertNode_spec hsorted node with ⟨entries', hok, hsorted', hperm, -⟩ | ⟨hno, hmem⟩
    · have hall : (nodes ++ entries').Perm (node :: nodes ++ entries) :=
        (hperm.append_left nodes).trans List.perm_middle
      rw [List.foldlM_cons, hok]
      rcases ih hsorted' with ⟨sorted, hok', hs, hp⟩ | ⟨hno, hdup⟩
      · exact .inl ⟨sorted, hok', hs, hp.trans hall⟩
      · exact .inr ⟨hno, fun hnodup => hdup (hall.nodup_iff.mpr hnodup)⟩
    · refine .inr ⟨by rw [List.foldlM_cons, hno]; rfl, fun hnodup => ?_⟩
      exact (List.nodup_cons.mp hnodup).1 (List.mem_append_right _ hmem)

theorem ascending_nodup (h : nodes.Pairwise (· < ·)) : nodes.Nodup := by
  refine h.imp fun hlt => ?_
  rintro rfl
  exact List.lt_irrefl _ hlt

theorem ascending_unique {nodes' : List NodeId} (h : nodes.Pairwise (· < ·)) (h' : nodes'.Pairwise (· < ·))
    (hperm : nodes.Perm nodes') : nodes = nodes' :=
  hperm.eq_of_pairwise (fun _ _ _ _ hab hba => absurd (List.lt_trans hab hba) (List.lt_irrefl _)) h h'

/-! ## Locators -/

def Assigned (P : Platform) (domain : Octets) (entries : List MappingEntry) : Prop :=
  ∀ before e after, entries = before ++ e :: after → e.collisionRound ≤ U32_MAX ∧
    FirstRound P domain e.nodeId (before.map (·.nativeLocator)) 0 e.nativeLocator e.collisionRound

section
variable {P : Platform} {domain : Octets} {entries : List MappingEntry}

theorem Assigned.snoc (h : Assigned P domain entries) (hround : e.collisionRound ≤ U32_MAX)
    (hfirst : FirstRound P domain e.nodeId (entries.map (·.nativeLocator)) 0 e.nativeLocator e.collisionRound) :
    Assigned P domain (entries ++ [e]) := by
  intro before e' after heq
  rcases after.eq_nil_or_concat' with rfl | ⟨after', last, rfl⟩
  · obtain ⟨rfl, hlast⟩ := List.append_inj' heq rfl
    obtain rfl := List.singleton_inj.mp hlast
    exact ⟨hround, hfirst⟩
  · obtain ⟨rfl, -⟩ := List.append_inj' (heq.trans (List.append_assoc before (e' :: after') [last]).symm) rfl
    exact h before e' after' rfl

theorem Assigned.nodup (h : Assigned P domain entries) : (entries.map (·.nativeLocator)).Nodup := by
  induction entries using List.reverseRecOn with
  | nil => exact List.nodup_nil
  | append_singleton entries e ih =>
    have hbefore : Assigned P domain entries := fun before e' after heq =>
      h before e' (after ++ [e]) (by rw [heq, List.append_assoc, List.cons_append])
    have hfree := (h entries e [] rfl).2.free
    rw [List.map_append, List.nodup_append]
    refine ⟨ih hbefore, List.nodup_singleton _, ?_⟩
    rintro l hl _ hl' rfl
    obtain rfl := List.mem_singleton.mp hl'
    exact hfree hl

theorem Assigned.mem (h : Assigned P domain entries) (hsorted : (entries.map (·.nodeId)).Pairwise (· < ·))
    (he : e ∈ entries) : e.collisionRound ≤ U32_MAX ∧
      FirstRound P domain e.nodeId ((entries.filter (·.nodeId < e.nodeId)).map (·.nativeLocator)) 0 e.nativeLocator
        e.collisionRound := by
  obtain ⟨before, after, rfl⟩ := List.append_of_mem he
  rw [List.map_append, List.map_cons, List.pairwise_append, List.pairwise_cons] at hsorted
  obtain ⟨-, ⟨hafter, -⟩, hbefore⟩ := hsorted
  -- the smaller NodeIds are the ones before it
  have hsmaller : (before ++ e :: after).filter (·.nodeId < e.nodeId) = before := by
    rw [List.filter_append, List.filter_cons_of_neg (by simp), List.filter_eq_self.mpr,
      List.filter_eq_nil_iff.mpr, List.append_nil]
    · intro x hx hlt
      exact List.lt_irrefl _ (List.lt_trans (hafter _ (List.mem_map_of_mem hx)) (by simpa using hlt))
    · intro x hx
      simpa using hbefore _ (List.mem_map_of_mem hx) _ List.mem_cons_self
  rw [hsmaller]
  exact h before e after rfl

theorem assignLocators_spec (h : Assigned P domain entries) (hvalid : ∀ node ∈ nodes, mappingNodeValid node = true) :
    (∃ entries', assignLocators P domain entries nodes = .ok entries' ∧ Assigned P domain entries' ∧
      entries'.map (·.nodeId) = entries.map (·.nodeId) ++ nodes) ∨
    assignLocators P domain entries nodes = .error .EOVERFLOW := by
  induction nodes generalizing entries with
  | nil => exact .inl ⟨entries, rfl, h, (List.append_nil _).symm⟩
  | cons node nodes ih =>
    rcases mapNativeLocatorAvailable_spec P domain (entries.map (·.nativeLocator)) (hvalid node List.mem_cons_self)
      (Nat.zero_le _) with ⟨l, r, hok, hr, hfirst⟩ | ⟨hno, -⟩
    · simp only [assignLocators, hok]
      rcases ih (h.snoc (e := ⟨node, l, r⟩) hr hfirst) (fun n hn => hvalid n (List.mem_cons_of_mem _ hn))
        with ⟨entries', hok', h', hids⟩ | hno
      · exact .inl ⟨entries', hok', h', by simp [hids]⟩
      · exact .inr hno
    · exact .inr (by simp only [assignLocators, hno])

end

/-! ## The result -/

theorem resolveCollisionSet_eq (P : Platform) (domain : Octets) (hcount : 0 < nodes.length)
    (hlimit : nodes.length ≤ MAPPING_SET_LIMIT) :
    ¬nodes.Nodup ∧ resolveCollisionSet P domain nodes = .error .EEXIST ∨
    ∃ sorted : List NodeId, sorted.Pairwise (· < ·) ∧ sorted.Perm nodes ∧
      resolveCollisionSet P domain nodes = assignLocators P domain [] sorted := by
  have hin : ¬(nodes.length = 0 ∨ MAPPING_SET_LIMIT < nodes.length) := by omega
  rw [resolveCollisionSet, if_neg hin]
  rcases sortNodes_spec nodes List.Pairwise.nil with ⟨sorted, hok, hs, hp⟩ | ⟨hno, hdup⟩
  · exact .inr ⟨sorted, hs, by simpa using hp, by rw [hok]⟩
  · exact .inl ⟨by simpa using hdup, by rw [hno]⟩

/-- The resolver refuses duplicates only; otherwise it gives every NodeId, in ascending order, the first locator that
is free, whatever the order of its input. -/
theorem collision_set_resolved (P : Platform) (domain : Octets) (nodes : List NodeId) (hcount : 0 < nodes.length)
    (hlimit : nodes.length ≤ MAPPING_SET_LIMIT) (hvalid : ∀ node ∈ nodes, mappingNodeValid node = true) :
    (resolveCollisionSet P domain nodes = .error .EEXIST ↔ ¬nodes.Nodup) ∧
    (∀ entries, resolveCollisionSet P domain nodes = .ok entries →
      (entries.map (·.nodeId)).Pairwise (· < ·) ∧ (entries.map (·.nodeId)).Perm nodes ∧
      (entries.map (·.nativeLocator)).Nodup ∧
      ∀ e ∈ entries, e.nativeLocator ≠ NATIVE_LOCATOR_INVALID ∧ e.nativeLocator ≠ NATIVE_LOCATOR_BROADCAST ∧
        e.collisionRound ≤ U32_MAX ∧
        FirstRound P domain e.nodeId ((entries.filter (·.nodeId < e.nodeId)).map (·.nativeLocator)) 0 e.nativeLocator
          e.collisionRound) ∧
    ∀ nodes' : List NodeId, nodes'.Perm nodes →
      resolveCollisionSet P domain nodes' = resolveCollisionSet P domain nodes := by
  have hnil : Assigned P domain [] := fun before e after heq => by simp at heq
  rcases resolveCollisionSet_eq P domain hcount hlimit with ⟨hdup, hno⟩ | ⟨sorted, hs, hp, heq⟩
  · refine ⟨by simp [hno, hdup], fun entries hok => by simp [hno] at hok, fun nodes' hperm => ?_⟩
    have hlen := hperm.length_eq
    rcases resolveCollisionSet_eq P domain (hlen ▸ hcount) (hlen ▸ hlimit) with ⟨-, hno'⟩ | ⟨sorted, hs, hp, -⟩
    · rw [hno, hno']
    · exact absurd ((hp.trans hperm).nodup_iff.mp (ascending_nodup hs)) hdup
  · have hnodup := hp.nodup_iff.mp (ascending_nodup hs)
    have hspec := assignLocators_spec hnil fun node hnode => hvalid node (hp.mem_iff.mp hnode)
    rw [← heq] at hspec
    refine ⟨?_, fun entries hok => ?_, fun nodes' hperm => ?_⟩
    · have hne : resolveCollisionSet P domain nodes ≠ .error .EEXIST := by
        rcases hspec with ⟨entries, hok, -⟩ | hno
        · simp [hok]
        · simp [hno]
      exact iff_of_false hne (not_not_intro hnodup)
    · rcases hspec with ⟨entries', hok', hassigned, hids⟩ | hno
      · obtain rfl := Except.ok.inj (hok.symm.trans hok')
        rw [List.map_nil, List.nil_append] at hids
        rw [hids]
        refine ⟨hs, hp, hassigned.nodup, fun e he => ?_⟩
        obtain ⟨hround, hfirst⟩ := hassigned.mem (hids ▸ hs) he
        obtain ⟨hinvalid, hbroadcast⟩ := roundLocator_valid hfirst.derived
        exact ⟨hinvalid, hbroadcast, hround, hfirst⟩
      · simp [hno] at hok
    · have hlen := hperm.length_eq
      rcases resolveCollisionSet_eq P domain (hlen ▸ hcount) (hlen ▸ hlimit) with ⟨hdup, -⟩ | ⟨sorted', hs', hp', heq'⟩
      · exact absurd (hperm.nodup_iff.mpr hnodup) hdup
      · rw [heq, heq', ascending_unique hs' hs ((hp'.trans hperm).trans hp.symm)]

/-- A NodeId whose first locator is 5, whatever its last octet. -/
def Scenario.five (last : UInt8) : NodeId := [1, 5] ++ List.replicate 30 0 ++ [last]

/-- Two NodeIds with the same first locator: the greater one takes the next round, from either place in the list. -/
theorem collision_set_resolved_pair : (Scenario.five 3).length = NODE_ID_SIZE ∧
    resolveCollisionSet .plain [] [Scenario.five 9, Scenario.five 3] =
      .ok [⟨Scenario.five 3, 5, 0⟩, ⟨Scenario.five 9, 6, 1⟩] ∧
    resolveCollisionSet .plain [] [Scenario.five 3, Scenario.five 9] =
      resolveCollisionSet .plain [] [Scenario.five 9, Scenario.five 3] :=
  ⟨rfl, by decide +kernel, (collision_set_resolved .plain [] [Scenario.five 9, Scenario.five 3] (by decide) (by decide)
    (by decide)).2.2 _ (.swap _ _ _)⟩

end Melodi
