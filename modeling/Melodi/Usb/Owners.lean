import Melodi.Usb.Transmit
import Melodi.Lib.Totals

/-!
# Who owns a transmit object

An object is reachable from the call that made it, from the active routes of its packets, and from the routes that were
taken out of the table and whose reference is still to be dropped. The invariant counts these against the reference
count: every step moves a reference from one place to another, or drops it.

* `usbTxStep_accounts` : what it says of the count, of the frees, and of the completions.

The call that fails with its object allocated but not set up drops a reference that was never counted
(`usbTx_underflow`); the steps that spare this are `UsbHost.AllocatesBoth`.
-/

namespace Melodi
open Lib
variable {count k : Nat} {ids : List UInt32} {e : Errno} {error : Option Errno}

/-! ## Where the references are -/

def XmitStage.object : XmitStage → Option Nat
  | .prepared t _ | .sending t _ | .written t | .failed t _ _ _ | .revoked t _ _ _ | .removed t _ _ | .putting t _ _ =>
  some t
  | .reserved _ _ | .unreserving _ _ | .returned _ => none

def XmitStage.submits (stage : XmitStage) : Nat := if stage.object.isSome then 1 else 0

def XmitStage.removes : XmitStage → Nat
  | .removed _ k _ | .putting _ k _ => k
  | _ => 0

def XmitStage.begun : XmitStage → Bool
  | .reserved _ _ => false
  | _ => true

def XmitStage.carries : XmitStage → Bool
  | .prepared _ _ | .sending _ _ | .written _ | .failed _ _ _ _ | .returned (.ok _) => true
  | _ => false

namespace UsbHost

def activeRoutes (s : UsbHost) (t : Nat) : Nat := s.routes.sum fun r => if r.transmit = t then 1 else 0

def leavingRoutes (s : UsbHost) (t : Nat) : Nat := (s.detached.map fun d => if d.transmit = t then 1 else 0).sum

def outside (s : UsbHost) (t : Nat) : Nat := s.activeRoutes t + s.leavingRoutes t

def completions (s : UsbHost) (i : Nat) : Nat := (s.completed.filter fun c => c.1 = i).length

end UsbHost

/-! ## The invariant -/

structure XmitStage.Shares (stage : XmitStage) (t : Nat) (x : UsbTx) (outside : Nat) : Prop where
  object : ∀ u, stage.object = some u → u = t
  begun : stage.begun = true
  references : x.references = stage.submits + stage.removes + outside
  frame : x.frame = if stage.carries then some x.owner else none

structure XmitStage.Like (stage stage' : XmitStage) : Prop where
  object : stage'.object = stage.object
  removes : stage'.removes = stage.removes
  carries : stage'.carries = stage.carries
  begun : stage.begun = true → stage'.begun = true

theorem XmitStage.Like.refl (stage : XmitStage) : stage.Like stage := ⟨rfl, rfl, rfl, id⟩

theorem XmitStage.Like.shares {stage stage' : XmitStage} (h : stage.Like stage') {t : Nat} {x : UsbTx} {outside : Nat}
    (hshares : stage.Shares t x outside) : stage'.Shares t x outside where
  object := h.object ▸ hshares.object
  begun := h.begun hshares.begun
  references := by
    rw [XmitStage.submits, h.object, h.removes]
    exact hshares.references
  frame := h.carries ▸ hshares.frame

structure UsbTx.Settled (x : UsbTx) (completions : Nat) : Prop where
  underflows : x.underflows = 0
  freed : x.freed = if x.references = 0 then 1 else 0
  completions : completions = if x.frame = none then 0 else x.freed

/-- Every reference count is that of its holders. -/
structure UsbHost.Shared (s : UsbHost) : Prop where
  shares : ∀ (t : Nat) (x : UsbTx), s.transmits[t]? = some x →
    ∃ stage : XmitStage, s.calls[x.owner]? = some stage ∧ stage.Shares t x (s.outside t)
  settled : ∀ (t : Nat) (x : UsbTx), s.transmits[t]? = some x → x.Settled (s.completions x.owner)
  objects : ∀ (i : Nat) (stage : XmitStage) (t : Nat), s.calls[i]? = some stage → stage.object = some t →
    ∃ x : UsbTx, s.transmits[t]? = some x ∧ x.owner = i
  distinct : ∀ (t u : Nat) (x y : UsbTx), s.transmits[t]? = some x → s.transmits[u]? = some y → x.owner = y.owner →
    t = u
  known : ∀ t : Nat, s.transmits[t]? = none → s.outside t = 0
  bare : ∀ i : Nat, (∀ (t : Nat) (x : UsbTx), s.transmits[t]? = some x → x.owner ≠ i) →
    s.completions i = 0 ∧ ∀ stage : XmitStage, s.calls[i]? = some stage → stage.carries = false

namespace UsbHost
variable {s s' : UsbHost} {t i : Nat} {x x' : UsbTx} {stage stage' : XmitStage}

theorem modify_eq_set {l : List UsbTx} (hx : l[t]? = some x) (f : UsbTx → UsbTx) : l.modify t f = l.set t (f x) := by
  refine List.ext_getElem? fun u => ?_
  rw [List.getElem?_modify, List.getElem?_set]
  split_ifs with htu hlt
  · rw [← htu, hx]
    rfl
  · exact absurd (List.getElem?_eq_some_iff.mp hx).1 hlt
  · exact congrFun Option.map_id _

theorem shared_start (depth : Nat) (link : UsbLink) : (start depth link).Shared where
  shares _ _ h := nomatch h
  settled _ _ h := nomatch h
  objects _ _ _ h := nomatch h
  distinct _ _ _ _ h := nomatch h
  known _ _ := by simp [outside, activeRoutes, leavingRoutes, start]
  bare _ _ := ⟨rfl, fun _ h => nomatch h⟩

theorem Shared.calls (h : s.Shared) (htransmits : s'.transmits = s.transmits) (hout : ∀ t, s'.outside t = s.outside t)
    (hcompleted : s'.completed = s.completed)
    (hkept : ∀ (i : Nat) (stage : XmitStage), s.calls[i]? = some stage →
      ∃ stage' : XmitStage, s'.calls[i]? = some stage' ∧ stage.Like stage')
    (hnew : ∀ (i : Nat) (stage' : XmitStage), s.calls[i]? = none → s'.calls[i]? = some stage' →
      stage'.object = none ∧ stage'.carries = false) : s'.Shared := by
  have hcompletions : ∀ i, s'.completions i = s.completions i := fun i => by rw [completions, hcompleted]; rfl
  -- a call of `s'` is like one of `s`, or new
  have hold : ∀ {i : Nat} {stage' : XmitStage}, s'.calls[i]? = some stage' →
      (∃ stage : XmitStage, s.calls[i]? = some stage ∧ stage.Like stage') ∨
        stage'.object = none ∧ stage'.carries = false := by
    intro i stage' hi
    cases hcall : s.calls[i]? with
    | none => exact .inr (hnew i stage' hcall hi)
    | some stage =>
      obtain ⟨st, hst, hlike⟩ := hkept i stage hcall
      rw [hi] at hst
      obtain rfl := Option.some.inj hst
      exact .inl ⟨stage, rfl, hlike⟩
  exact {
    shares := fun t x hx => by
      obtain ⟨stage, hstage, hshares⟩ := h.shares t x (htransmits ▸ hx)
      obtain ⟨stage', hstage', hlike⟩ := hkept _ _ hstage
      exact ⟨stage', hstage', hout t ▸ hlike.shares hshares⟩
    settled := fun t x hx => by
      rw [hcompletions]
      exact h.settled t x (htransmits ▸ hx)
    objects := fun i stage' t hi ht => by
      rw [htransmits]
      rcases hold hi with ⟨stage, hstage, hlike⟩ | ⟨hnone, -⟩
      · exact h.objects i stage t hstage (hlike.object ▸ ht)
      · rw [hnone] at ht
        exact nomatch ht
    distinct := by
      rw [htransmits]
      exact h.distinct
    known := fun t ht => by
      rw [hout]
      exact h.known t (htransmits ▸ ht)
    bare := fun i hi => by
      obtain ⟨hzero, hcarries⟩ := h.bare i (htransmits ▸ hi)
      refine ⟨(hcompletions i).trans hzero, fun stage' hstage' => ?_⟩
      rcases hold hstage' with ⟨stage, hstage, hlike⟩ | ⟨-, hnone⟩
      · exact hlike.carries.trans (hcarries stage hstage)
      · exact hnone }

theorem Shared.congr (h : s.Shared) (htransmits : s'.transmits = s.transmits) (hcalls : s'.calls = s.calls)
    (hout : ∀ t, s'.outside t = s.outside t) (hcompleted : s'.completed = s.completed) : s'.Shared := by
  refine h.calls htransmits hout hcompleted (fun i stage hi => ⟨stage, hcalls ▸ hi, .refl stage⟩)
    fun i stage hnone hsome => ?_
  rw [hcalls, hnone] at hsome
  exact nomatch hsome

theorem Shared.append (h : s.Shared) (hobject : stage.object = none) (hcarries : stage.carries = false)
    (htransmits : s'.transmits = s.transmits) (hcalls : s'.calls = s.calls ++ [stage])
    (hout : ∀ t, s'.outside t = s.outside t) (hcompleted : s'.completed = s.completed) : s'.Shared := by
  refine h.calls htransmits hout hcompleted (fun i st hi => ⟨st, ?_, .refl st⟩) fun i st hnone hsome => ?_
  · rw [hcalls, List.getElem?_append_left (List.getElem?_eq_some_iff.mp hi).1]
    exact hi
  rw [hcalls, List.getElem?_append_right (List.getElem?_eq_none_iff.mp hnone), List.getElem?_singleton] at hsome
  split_ifs at hsome
  obtain rfl := Option.some.inj hsome
  exact ⟨hobject, hcarries⟩

theorem Shared.setStage (h : s.Shared) (hi : s.calls[i]? = some stage) (hlike : stage.Like stage')
    (htransmits : s'.transmits = s.transmits) (hcalls : s'.calls = s.calls.set i stage')
    (hout : ∀ t, s'.outside t = s.outside t) (hcompleted : s'.completed = s.completed) : s'.Shared := by
  refine h.calls htransmits hout hcompleted (fun j st hj => ?_) fun j st hnone hsome => ?_
  · by_cases hji : j = i
    · subst hji
      rw [hi] at hj
      obtain rfl := Option.some.inj hj
      exact ⟨stage', by rw [hcalls, List.getElem?_set_self (List.getElem?_eq_some_iff.mp hi).1], hlike⟩
    · exact ⟨st, by rw [hcalls, List.getElem?_set_ne (Ne.symm hji), hj], .refl st⟩
  · rw [hcalls, List.getElem?_set] at hsome
    split_ifs at hsome with hij hlt
    · subst hij
      rw [hi] at hnone
      exact nomatch hnone
    · rw [hnone] at hsome
      exact nomatch hsome

theorem Shared.object (h : s.Shared) (hi : s.calls[i]? = some stage) (ht : stage.object = some t) :
    ∃ x, s.transmits[t]? = some x ∧ x.owner = i ∧ stage.Shares t x (s.outside t) := by
  obtain ⟨x, hx, rfl⟩ := h.objects i stage t hi ht
  obtain ⟨stage', hstage, hshares⟩ := h.shares t x hx
  rw [hi] at hstage
  obtain rfl := Option.some.inj hstage
  exact ⟨x, hx, rfl, hshares⟩

theorem Shared.update (h : s.Shared) (hx : s.transmits[t]? = some x) (howner : x'.owner = x.owner)
    (htransmits : s'.transmits = s.transmits.set t x') (hcalls : s'.calls = s.calls.set x.owner stage')
    (hout : ∀ u, u ≠ t → s'.outside u = s.outside u)
    (hcompletions : ∀ j, j ≠ x.owner → s'.completions j = s.completions j)
    (hshares : stage'.Shares t x' (s'.outside t)) (hsettled : x'.Settled (s'.completions x.owner)) : s'.Shared := by
  obtain ⟨stage, hstage, -⟩ := h.shares t x hx
  have hlt : t < s.transmits.length := (List.getElem?_eq_some_iff.mp hx).1
  have hcall : x.owner < s.calls.length := (List.getElem?_eq_some_iff.mp hstage).1
  have hself : s'.calls[x.owner]? = some stage' := by rw [hcalls, List.getElem?_set_self hcall]
  have hne : ∀ {j : Nat}, j ≠ x.owner → s'.calls[j]? = s.calls[j]? := fun hj => by
    rw [hcalls, List.getElem?_set_ne hj.symm]
  have hself' : s'.transmits[t]? = some x' := by rw [htransmits, List.getElem?_set_self hlt]
  have hne' : ∀ {u : Nat}, u ≠ t → s'.transmits[u]? = s.transmits[u]? := fun hu => by
    rw [htransmits, List.getElem?_set_ne hu.symm]
  -- every object is the changed one, or an old one with another owner
  have hcases : ∀ {u : Nat} {y : UsbTx}, s'.transmits[u]? = some y →
      u = t ∧ y = x' ∨ u ≠ t ∧ s.transmits[u]? = some y ∧ y.owner ≠ x.owner := by
    intro u y hy
    by_cases hu : u = t
    · subst hu
      rw [hself'] at hy
      exact .inl ⟨rfl, (Option.some.inj hy).symm⟩
    · rw [hne' hu] at hy
      exact .inr ⟨hu, hy, fun heq => hu (h.distinct u t y x hy hx heq)⟩
  exact {
    shares := fun u y hy => by
      rcases hcases hy with ⟨rfl, rfl⟩ | ⟨hu, hy, hyowner⟩
      · exact ⟨stage', howner ▸ hself, hshares⟩
      · rw [hout u hu, hne hyowner]
        exact h.shares u y hy
    settled := fun u y hy => by
      rcases hcases hy with ⟨rfl, rfl⟩ | ⟨hu, hy, hyowner⟩
      · exact howner ▸ hsettled
      · rw [hcompletions _ hyowner]
        exact h.settled u y hy
    objects := fun j st u hj hu => by
      by_cases hji : j = x.owner
      · subst hji
        rw [hself] at hj
        obtain rfl := Option.some.inj hj
        obtain rfl := hshares.object u hu
        exact ⟨x', hself', howner⟩
      · obtain ⟨y, hy, rfl⟩ := h.objects j st u ((hne hji).symm.trans hj) hu
        have hut : u ≠ t := by
          rintro rfl
          rw [hx] at hy
          exact hji (congrArg UsbTx.owner (Option.some.inj hy)).symm
        exact ⟨y, (hne' hut).trans hy, rfl⟩
    distinct := fun u v y z hy hz heq => by
      rcases hcases hy with ⟨rfl, rfl⟩ | ⟨-, hy, hyowner⟩ <;> rcases hcases hz with ⟨rfl, rfl⟩ | ⟨-, hz, hzowner⟩
      · rfl
      · exact absurd (heq.symm.trans howner) hzowner
      · exact absurd (heq.trans howner) hyowner
      · exact h.distinct u v y z hy hz heq
    known := fun u hu => by
      have hut : u ≠ t := by
        rintro rfl
        rw [hself'] at hu
        exact nomatch hu
      rw [hout u hut]
      exact h.known u ((hne' hut).symm.trans hu)
    bare := fun j hj => by
      have hji : j ≠ x.owner := fun heq => hj t x' hself' (howner.trans heq.symm)
      rw [hcompletions j hji, hne hji]
      refine h.bare j fun u y hy heq => ?_
      by_cases hut : u = t
      · subst hut
        rw [hx] at hy
        exact hji (heq.symm.trans (congrArg UsbTx.owner (Option.some.inj hy)).symm)
      · exact hj u y ((hne' hut).trans hy) heq }

end UsbHost

/-! ## Dropping a reference -/

def UsbTx.put (x : UsbTx) : UsbTx :=
  { x with references := x.references - 1, freed := if x.references = 1 then x.freed + 1 else x.freed }

def UsbTx.completes (x : UsbTx) : List (Nat × UInt64 × Option Errno) :=
  if x.references = 1 then (x.frame.map fun frame => (frame, x.cookie, x.error)).toList else []

def UsbTx.OwnFrame (x : UsbTx) : Prop := x.frame = none ∨ x.frame = some x.owner

theorem XmitStage.Shares.ownFrame {stage : XmitStage} {t outside : Nat} {x : UsbTx} (h : stage.Shares t x outside) :
    x.OwnFrame := by
  unfold UsbTx.OwnFrame
  rw [h.frame]
  cases stage.carries <;> simp

theorem UsbTx.Settled.put {x : UsbTx} {n : Nat} (h : x.Settled n) (hpos : 0 < x.references) :
    x.put.Settled (n + if x.references = 1 ∧ x.frame ≠ none then 1 else 0) := by
  obtain ⟨hunder, hfreed, hn⟩ := h
  rw [if_neg (by omega)] at hfreed
  rw [hfreed, ite_self] at hn
  subst hn
  refine ⟨hunder, ?_, ?_⟩
  · simp only [UsbTx.put, hfreed]
    by_cases hone : x.references = 1
    · simp [hone]
    · rw [if_neg hone, if_neg (by omega)]
  · simp only [UsbTx.put, hfreed]
    by_cases hone : x.references = 1 <;> by_cases hnone : x.frame = none <;> simp [hone, hnone]

namespace UsbHost
variable {s s' : UsbHost} {t i : Nat} {x : UsbTx} {stage stage' : XmitStage}

theorem txPut_eq (hx : s.transmits[t]? = some x) (hpos : 0 < x.references) :
    s.txPut t = { s with transmits := s.transmits.set t x.put, completed := x.completes ++ s.completed } := by
  unfold txPut
  rw [hx]
  dsimp only
  rw [if_neg (by omega)]
  unfold UsbTx.put UsbTx.completes
  by_cases hone : x.references = 1
  · rw [if_pos hone, if_pos hone, if_pos hone, hone]
    cases x.frame <;> rfl
  · rw [if_neg hone, if_neg hone, if_neg hone]
    rfl

theorem completions_put (hown : x.OwnFrame) (hcompleted : s'.completed = x.completes ++ s.completed) (j : Nat) :
    s'.completions j =
      s.completions j + if j = x.owner then (if x.references = 1 ∧ x.frame ≠ none then 1 else 0) else 0 := by
  unfold completions UsbTx.completes at *
  rw [hcompleted, List.filter_append, List.length_append, Nat.add_comm]
  by_cases hone : x.references = 1
  · rcases hown with hframe | hframe
    · simp [hframe]
    · by_cases hj : j = x.owner
      · simp [hone, hframe, hj]
      · simp [hone, hframe, hj, Ne.symm hj]
  · simp [hone]

theorem Shared.put (h : s.Shared) (hx : s.transmits[t]? = some x) (hstage : s.calls[x.owner]? = some stage)
    (hpos : 0 < x.references) (htransmits : s'.transmits = (s.txPut t).transmits)
    (hcompleted : s'.completed = (s.txPut t).completed) (hcalls : s'.calls = s.calls.set x.owner stage')
    (hout : ∀ u, u ≠ t → s'.outside u = s.outside u) (hobject : stage'.object = none ∨ stage'.object = some t)
    (hbegun : stage'.begun = true) (hcarries : stage'.carries = stage.carries)
    (hcount : stage'.submits + stage'.removes + s'.outside t + 1 = stage.submits + stage.removes + s.outside t) :
    s'.Shared := by
  obtain ⟨stage₀, hstage₀, hshares⟩ := h.shares t x hx
  rw [hstage] at hstage₀
  obtain rfl := Option.some.inj hstage₀
  rw [txPut_eq hx hpos] at htransmits hcompleted
  have hcompletions := completions_put (s := s) hshares.ownFrame hcompleted
  refine h.update hx (show x.put.owner = x.owner from rfl) htransmits hcalls hout (fun j hj => ?_) ?_ ?_
  · rw [hcompletions, if_neg hj, Nat.add_zero]
  · refine ⟨fun u hu => ?_, hbegun, ?_, ?_⟩
    · rcases hobject with hnone | hsome
      · rw [hnone] at hu
        exact nomatch hu
      · rw [hsome] at hu
        exact (Option.some.inj hu).symm
    · have := hshares.references
      simp only [UsbTx.put]
      omega
    · rw [hcarries]
      exact hshares.frame
  · rw [hcompletions, if_pos rfl]
    exact (h.settled t x hx).put hpos

theorem Shared.callPut (h : s.Shared) (hi : s.calls[i]? = some stage) (ht : stage.object = some t)
    (hobject : stage'.object = none ∨ stage'.object = some t) (hbegun : stage'.begun = true)
    (hcarries : stage'.carries = stage.carries)
    (hcount : stage'.submits + stage'.removes + 1 = stage.submits + stage.removes) :
    ((s.txPut t).setCall i stage').Shared := by
  obtain ⟨x, hx, rfl, hshares⟩ := h.object hi ht
  have hpos : 0 < x.references := by
    rw [hshares.references]
    omega
  have hout : ∀ u, ((s.txPut t).setCall x.owner stage').outside u = s.outside u := fun u => by
    rw [txPut_eq hx hpos]
    rfl
  refine h.put hx hi hpos rfl rfl ?_ (fun u _ => hout u) hobject hbegun hcarries ?_
  · rw [txPut_eq hx hpos]
    rfl
  · rw [hout]
    omega

/-! ## The steps of a call -/

theorem Shared.modify (h : s.Shared) (hi : s.calls[i]? = some stage) (ht : stage.object = some t) {f : UsbTx → UsbTx}
    (htransmits : s'.transmits = s.transmits.modify t f) (hcalls : s'.calls = s.calls.set i stage')
    (hout : ∀ u, u ≠ t → s'.outside u = s.outside u) (hcompleted : s'.completed = s.completed)
    (hnext : ∀ x, x.owner = i → stage.Shares t x (s.outside t) → x.Settled (s.completions i) →
      (f x).owner = i ∧ stage'.Shares t (f x) (s'.outside t) ∧ (f x).Settled (s.completions i)) : s'.Shared := by
  obtain ⟨x, hx, rfl, hshares⟩ := h.object hi ht
  obtain ⟨howner, hshares', hsettled⟩ := hnext x rfl hshares (h.settled t x hx)
  have hcompletions : ∀ j, s'.completions j = s.completions j := fun j => by rw [completions, hcompleted]; rfl
  refine h.update hx howner (htransmits.trans (modify_eq_set hx f)) hcalls hout (fun j _ => hcompletions j) hshares' ?_
  rw [hcompletions]
  exact hsettled

theorem Shared.allocate (h : s.Shared) {cookie : UInt64} (hi : s.calls[i]? = some (.reserved cookie count))
    (hx : x = { frame := some i, cookie := cookie, references := 1, owner := i })
    (htransmits : s'.transmits = s.transmits ++ [x])
      (hcalls : s'.calls = s.calls.set i (.prepared s.transmits.length ids))
    (hout : ∀ t, s'.outside t = s.outside t) (hcompleted : s'.completed = s.completed) : s'.Shared := by
  have hcompletions : ∀ i, s'.completions i = s.completions i := fun i => by rw [completions, hcompleted]; rfl
  have hself : s'.calls[i]? = some (.prepared s.transmits.length ids) := by
    rw [hcalls, List.getElem?_set_self (List.getElem?_eq_some_iff.mp hi).1]
  have hne : ∀ {j : Nat}, j ≠ i → s'.calls[j]? = s.calls[j]? := fun hj => by rw [hcalls, List.getElem?_set_ne hj.symm]
  have hlast : s'.transmits[s.transmits.length]? = some x := by rw [htransmits, List.getElem?_concat_length]
  -- the call had no object, since the call of an object is past its allocations
  have hfree : ∀ (u : Nat) (y : UsbTx), s.transmits[u]? = some y → y.owner ≠ i := by
    rintro u y hy rfl
    obtain ⟨stage, hstage, hshares⟩ := h.shares u y hy
    rw [hi] at hstage
    obtain rfl := Option.some.inj hstage
    exact nomatch hshares.begun
  have hkept : ∀ {u : Nat} {y : UsbTx}, s.transmits[u]? = some y → s'.transmits[u]? = some y := fun hy => by
    rw [htransmits, List.getElem?_append_left (List.getElem?_eq_some_iff.mp hy).1, hy]
  have hcases : ∀ {u : Nat} {y : UsbTx}, s'.transmits[u]? = some y →
      u = s.transmits.length ∧ y = x ∨ s.transmits[u]? = some y := by
    intro u y hy
    rw [htransmits] at hy
    rcases Nat.lt_trichotomy u s.transmits.length with hlt | rfl | hgt
    · rw [List.getElem?_append_left hlt] at hy
      exact .inr hy
    · rw [List.getElem?_concat_length] at hy
      exact .inl ⟨rfl, (Option.some.inj hy).symm⟩
    · rw [List.getElem?_eq_none (by rw [List.length_append, List.length_singleton]; omega)] at hy
      exact nomatch hy
  have howner : x.owner = i := by rw [hx]
  exact {
    shares := fun u y hy => by
      rw [hout]
      rcases hcases hy with ⟨rfl, rfl⟩ | hy
      · refine ⟨.prepared s.transmits.length ids, howner ▸ hself, fun v hv => (Option.some.inj hv).symm, rfl, ?_, ?_⟩
        · rw [h.known _ (List.getElem?_eq_none (Nat.le_refl _)), hx]
          rfl
        · rw [hx]
          rfl
      · rw [hne (hfree u y hy)]
        exact h.shares u y hy
    settled := fun u y hy => by
      rw [hcompletions]
      rcases hcases hy with ⟨rfl, rfl⟩ | hy
      · rw [howner, (h.bare i hfree).1, hx]
        exact ⟨rfl, rfl, rfl⟩
      · exact h.settled u y hy
    objects := fun j st u hj hu => by
      by_cases hji : j = i
      · subst hji
        rw [hself] at hj
        obtain rfl := Option.some.inj hj
        obtain rfl : s.transmits.length = u := Option.some.inj hu
        exact ⟨x, hlast, howner⟩
      · obtain ⟨y, hy, hyowner⟩ := h.objects j st u ((hne hji).symm.trans hj) hu
        exact ⟨y, hkept hy, hyowner⟩
    distinct := fun u v y z hy hz heq => by
      rcases hcases hy with ⟨rfl, rfl⟩ | hy <;> rcases hcases hz with ⟨rfl, rfl⟩ | hz
      · rfl
      · exact absurd (heq.symm.trans howner) (hfree v z hz)
      · exact absurd (heq.trans howner) (hfree u y hy)
      · exact h.distinct u v y z hy hz heq
    known := fun u hu => by
      rw [hout]
      refine h.known u ?_
      cases hu' : s.transmits[u]? with
      | none => rfl
      | some y =>
        rw [hkept hu'] at hu
        exact nomatch hu
    bare := fun j hj => by
      have hji : j ≠ i := fun heq => hj _ x hlast (howner.trans heq.symm)
      rw [hcompletions, hne hji]
      exact h.bare j fun u y hy => hj u y (hkept hy) }

theorem Shared.admit (h : s.Shared) {expires : UInt64} {routes : Table USB_ROUTING_LIMIT UsbRoute}
    (hi : s.calls[i]? = some (.prepared t ids)) (hadm : routeAdmit s.routes t expires ids = .ok routes)
    (hroutes : s'.routes = routes) (hdetached : s'.detached = s.detached)
    (htransmits : s'.transmits = s.transmits.modify t fun x => { x with references := x.references + ids.length })
    (hcalls : s'.calls = s.calls.set i (.sending t ids)) (hcompleted : s'.completed = s.completed) : s'.Shared := by
  obtain ⟨rfl, hroom⟩ := routeAdmit_ok hadm
  have hout : ∀ u, s'.outside u = s.outside u + ids.length * if t = u then 1 else 0 := by
    intro u
    unfold outside activeRoutes leavingRoutes
    rw [hroutes, hdetached, routeFill_sum (f := fun r => if r.transmit = u then 1 else 0) (c := if t = u then 1 else 0)
      (fun _ => rfl) (List.nodup_finRange _) hroom]
    omega
  refine h.modify hi rfl htransmits hcalls (fun u hu => ?_) hcompleted fun x hx hshares hsettled => ⟨hx, ?_, ?_⟩
  · rw [hout, if_neg (Ne.symm hu), Nat.mul_zero, Nat.add_zero]
  · refine ⟨hshares.object, rfl, ?_, hshares.frame⟩
    have hreferences : x.references = 1 + 0 + s.outside t := hshares.references
    change x.references + ids.length = 1 + 0 + s'.outside t
    rw [hout, if_pos rfl, hreferences]
    omega
  · have hreferences : x.references = 1 + 0 + s.outside t := hshares.references
    have hfreed := hsettled.freed
    rw [if_neg (by omega)] at hfreed
    refine ⟨hsettled.underflows, ?_, hsettled.completions⟩
    change x.freed = if x.references + ids.length = 0 then 1 else 0
    rw [hfreed, if_neg (by omega)]

theorem Shared.revoke (h : s.Shared) {admitted : Bool} (hi : s.calls[i]? = some (.failed t admitted count e)) :
    ((s.modifyTransmit t fun x => { x with frame := none }).setCall i (.revoked t admitted count e)).Shared := by
  refine h.modify hi rfl rfl rfl (fun _ _ => rfl) rfl fun x hx hshares hsettled => ⟨hx, ?_, ?_⟩
  · exact ⟨hshares.object, rfl, hshares.references, rfl⟩
  have hreferences : x.references = 1 + 0 + s.outside t := hshares.references
  have hfreed := hsettled.freed
  have hcompletions := hsettled.completions
  rw [if_neg (by omega)] at hfreed
  rw [hfreed, ite_self] at hcompletions
  exact ⟨hsettled.underflows, hsettled.freed, hcompletions⟩

theorem Shared.remove (h : s.Shared) (hi : s.calls[i]? = some (.revoked t true count e)) :
    (({ s with routes := s.routes.drop fun r => r.transmit = t } : UsbHost).setCall i
      (.removed t (routeCount s.routes t) e)).Shared := by
  have hdrop : ∀ u, (s.routes.drop fun r => r.transmit = t).sum (fun r => if r.transmit = u then 1 else 0) +
      (if u = t then routeCount s.routes t else 0) = s.activeRoutes u := by
    intro u
    have hsum := s.routes.sum_drop (fun r => r.transmit = t) (fun r => if r.transmit = u then 1 else 0)
    rw [activeRoutes, ← hsum, routeCount_eq]
    congr 1
    by_cases hu : u = t
    · subst hu
      rw [if_pos rfl]
      congr 1
      funext r
      by_cases hr : r.transmit = u <;> simp [hr]
    · rw [if_neg hu, Table.sum_eq_zero]
      intro j r _
      by_cases hr : r.transmit = t
      · rw [hr, if_neg (Ne.symm hu), ite_self]
      · simp [hr]
  refine h.modify (f := id) hi rfl (List.modify_id _ _).symm rfl (fun u hu => ?_) rfl
    fun x hx hshares hsettled => ⟨hx, ⟨hshares.object, rfl, ?_, hshares.frame⟩, hsettled⟩
  · have := hdrop u
    rw [if_neg hu, Nat.add_zero] at this
    exact congrArg (· + s.leavingRoutes u) this
  · have hreferences : x.references = 1 + 0 + (s.activeRoutes t + s.leavingRoutes t) := hshares.references
    have := hdrop t
    rw [if_pos rfl] at this
    change x.references = 1 + routeCount s.routes t +
      ((s.routes.drop fun r => r.transmit = t).sum (fun r => if r.transmit = t then 1 else 0) + s.leavingRoutes t)
    omega

/-- The allocations of a call end alike: both succeed, or that of the object fails. -/
def AllocatesBoth (s : UsbHost) : UsbTxLabel → Prop
  | .call i (.alloc true false) => (s.calls[i]?).all XmitStage.begun = true
  | _ => True

instance (s : UsbHost) (l : UsbTxLabel) : Decidable (s.AllocatesBoth l) := by
  unfold AllocatesBoth
  split <;> infer_instance

theorem xmitStep_shared (hz : UInt64) (h : s.Shared) {input : XmitInput} (hi : s.calls[i]? = some stage)
    (hboth : s.AllocatesBoth (.call i input)) : (xmitStep hz s i stage input).Shared := by
  have hrelease : ∀ (n : Nat) (st : XmitStage), stage.Like st → ((s.release n).setCall i st).Shared := by
    intro n st hlike
    obtain ⟨free, hfree⟩ := s.release_writes n
    rw [hfree]
    exact h.setStage hi hlike rfl rfl (fun _ => rfl) rfl
  have hstay : ∀ st : XmitStage, stage.Like st → (s.setCall i st).Shared := fun st hlike =>
    h.setStage hi hlike rfl rfl (fun _ => rfl) rfl
  fun_cases xmitStep hz s i stage input with
  | case1 cookie count batch => exact hstay _ ⟨rfl, rfl, rfl, fun _ => rfl⟩
  | case2 cookie count =>
    have : (s.calls[i]?).all XmitStage.begun = true := hboth
    rw [hi] at this
    exact nomatch this
  | case3 cookie count ids => exact h.allocate hi rfl rfl rfl (fun _ => rfl) rfl
  | case4 t ids jiffies e hadm => exact hstay _ ⟨rfl, rfl, rfl, fun _ => rfl⟩
  | case5 t ids jiffies routes hadm => exact h.admit hi hadm rfl rfl rfl rfl rfl
  | case6 t => exact hstay _ ⟨rfl, rfl, rfl, fun _ => rfl⟩
  | case7 t id ids =>
    have hlike : (XmitStage.sending t (id :: ids)).Like (.sending t ids) := ⟨rfl, rfl, rfl, fun _ => rfl⟩
    exact h.setStage hi hlike rfl rfl (fun _ => rfl) rfl
  | case8 t id ids e => exact hstay _ ⟨rfl, rfl, rfl, fun _ => rfl⟩
  | case9 t id ids e delivered =>
    have hlike : (XmitStage.sending t (id :: ids)).Like (.failed t true 0 e) := ⟨rfl, rfl, rfl, fun _ => rfl⟩
    cases delivered <;> exact h.setStage hi hlike rfl rfl (fun _ => rfl) rfl
  | case10 t => exact h.callPut hi rfl (.inl rfl) rfl rfl rfl
  | case11 t admitted count e => exact h.revoke hi
  | case12 t count e => exact h.remove hi
  | case13 t count e => exact h.callPut hi rfl (.inl rfl) rfl rfl rfl
  | case14 t k e => exact hrelease k _ ⟨rfl, rfl, rfl, fun _ => rfl⟩
  | case15 t k e => exact h.callPut hi rfl (.inr rfl) rfl rfl rfl
  | case16 t e => exact h.callPut hi rfl (.inl rfl) rfl rfl rfl
  | case17 count e => exact hrelease count _ ⟨rfl, rfl, rfl, fun _ => rfl⟩
  | case18 => exact h

/-! ## The other steps -/

theorem xmitBegin_shared (h : s.Shared) (length : Nat) (source : UInt32) (cookie : UInt64) :
    (xmitBegin s length source cookie).Shared := by
  unfold xmitBegin
  dsimp only
  split_ifs <;> exact h.append rfl rfl rfl rfl (fun _ => rfl) rfl

theorem detach_outside (s : UsbHost) (p : UsbRoute → Bool) (error : Option Errno) (t : Nat) :
    (s.detach p error).outside t = s.outside t := by
  unfold detach
  cases hfind : s.routes.find? p with
  | none => rfl
  | some i =>
    dsimp only
    obtain ⟨r, hr, -⟩ := Table.find?_some hfind
    rw [hr]
    have hclear := s.routes.sum_clear i fun r => if r.transmit = t then 1 else 0
    rw [hr, Table.weight_some] at hclear
    unfold outside activeRoutes leavingRoutes
    simp only [List.map_append, List.map_cons, List.map_nil, List.sum_append, List.sum_cons, List.sum_nil]
    omega

theorem detach_shared (h : s.Shared) (p : UsbRoute → Bool) (error : Option Errno) : (s.detach p error).Shared := by
  have hfields : (s.detach p error).transmits = s.transmits ∧ (s.detach p error).calls = s.calls ∧
      (s.detach p error).completed = s.completed := by
    unfold detach
    split
    · exact ⟨rfl, rfl, rfl⟩
    · split <;> exact ⟨rfl, rfl, rfl⟩
  exact h.congr hfields.1 hfields.2.1 (s.detach_outside p error) hfields.2.2

theorem handleReport_shared (h : s.Shared) : s.handleReport.Shared := by
  unfold handleReport
  split
  · exact h
  dsimp only
  split
  · refine detach_shared ?_ _ _
    exact h.congr rfl rfl (fun _ => rfl) rfl
  · unfold handleStatus
    split_ifs <;> exact h.congr rfl rfl (fun _ => rfl) rfl

theorem Shared.releaseRoute (h : s.Shared) (hk : s.detached[k]? = some ⟨t, error, false⟩) :
    ({ s.release 1 with detached := s.detached.set k ⟨t, error, true⟩ } : UsbHost).Shared := by
  obtain ⟨free, hfree⟩ := s.release_writes 1
  rw [hfree]
  refine h.congr rfl rfl (fun u => ?_) rfl
  have hset := sum_map_set (fun d : DetachedRoute => if d.transmit = u then 1 else 0) hk ⟨t, error, true⟩
  unfold outside activeRoutes leavingRoutes
  dsimp only at hset ⊢
  omega

theorem Shared.putRoute (h : s.Shared) (hk : s.detached[k]? = some ⟨t, error, true⟩) :
    ({ (s.txError t error).txPut t with detached := s.detached.eraseIdx k } : UsbHost).Shared := by
  have herase : ∀ u, ((s.detached.eraseIdx k).map fun d => if d.transmit = u then 1 else 0).sum +
      (if t = u then 1 else 0) = s.leavingRoutes u := fun u =>
    sum_map_eraseIdx (fun d : DetachedRoute => if d.transmit = u then 1 else 0) hk
  -- the route still refers to the object, so that the object is there and referred to
  have hone := herase t
  rw [if_pos rfl] at hone
  obtain ⟨x, hx⟩ : ∃ x, s.transmits[t]? = some x := by
    cases hx : s.transmits[t]? with
    | some x => exact ⟨x, rfl⟩
    | none =>
      have hzero : s.activeRoutes t + s.leavingRoutes t = 0 := h.known t hx
      omega
  obtain ⟨stage, hstage, hshares⟩ := h.shares t x hx
  have hcalls : s.calls.set x.owner stage = s.calls := by
    obtain ⟨hlt, rfl⟩ := List.getElem?_eq_some_iff.mp hstage
    exact List.set_getElem_self hlt
  have hreferences := hshares.references
  have houtside : s.outside t = s.activeRoutes t + s.leavingRoutes t := rfl
  have hsettled := h.settled t x hx
  have herror : (s.txError t error).Shared :=
    h.update hx (show ({ x with error := x.error.or error } : UsbTx).owner = x.owner from rfl)
      (modify_eq_set hx _) hcalls.symm
      (fun _ _ => rfl) (fun _ _ => rfl) ⟨hshares.object, hshares.begun, hreferences, hshares.frame⟩
      ⟨hsettled.underflows, hsettled.freed, hsettled.completions⟩
  have hx' : (s.txError t error).transmits[t]? = some { x with error := x.error.or error } := by
    change (s.transmits.modify t _)[t]? = _
    rw [modify_eq_set hx, List.getElem?_set_self (List.getElem?_eq_some_iff.mp hx).1]
  have hpos : 0 < ({ x with error := x.error.or error } : UsbTx).references := by
    change 0 < x.references
    omega
  have hroutes : ((s.txError t error).txPut t).routes = s.routes := by
    rw [txPut_eq hx' hpos]
    rfl
  have hout : ∀ u, ({ (s.txError t error).txPut t with detached := s.detached.eraseIdx k } : UsbHost).outside u +
      (if t = u then 1 else 0) = s.outside u := by
    intro u
    have := herase u
    unfold outside activeRoutes leavingRoutes at *
    rw [hroutes]
    dsimp only
    omega
  refine herror.put hx' hstage hpos rfl rfl ?_ (fun u hu => ?_) ?_ hshares.begun rfl ?_
  · rw [txPut_eq hx' hpos]
    exact hcalls.symm
  · have := hout u
    rw [if_neg (Ne.symm hu), Nat.add_zero] at this
    exact this
  · cases hobject : stage.object with
    | none => exact .inl rfl
    | some u => exact .inr (congrArg some (hshares.object u hobject))
  have := hout t
  rw [if_pos rfl] at this
  change _ = stage.submits + stage.removes + s.outside t
  omega

theorem usbTxStep_shared (hz : UInt64) {l : UsbTxLabel} (hl : s.AllocatesBoth l) (h : s.Shared) :
    (usbTxStep hz s l).Shared := by
  cases l with
  | link link => exact h.congr rfl rfl (fun _ => rfl) rfl
  | xmit length source cookie => exact xmitBegin_shared h length source cookie
  | call i input =>
    cases hi : s.calls[i]? with
    | none =>
      simp only [usbTxStep, hi]
      exact h
    | some stage =>
      simp only [usbTxStep, hi]
      exact xmitStep_shared hz h hi hl
  | report => exact handleReport_shared h
  | expire jiffies => exact detach_shared h _ _
  | reset error => exact detach_shared h _ _
  | release k =>
    unfold usbTxStep
    dsimp only
    split
    case h_1 t error hk => exact h.releaseRoute hk
    case h_2 => exact h
  | put k =>
    unfold usbTxStep
    dsimp only
    split
    case h_1 t error hk => exact h.putRoute hk
    case h_2 => exact h
  | radio act => exact h.congr rfl rfl (fun _ => rfl) rfl

/-- The references of every object are counted; it is freed once, and its frame completed with it unless the call
failed. -/
structure Accounts (s : UsbHost) : Prop where
  references : ∀ (t : Nat) (x : UsbTx), s.transmits[t]? = some x → ∃ stage : XmitStage, s.calls[x.owner]? = some stage ∧
    x.references = stage.submits + s.activeRoutes t + (stage.removes + s.leavingRoutes t)
  underflows : ∀ (t : Nat) (x : UsbTx), s.transmits[t]? = some x → x.underflows = 0
  freed : ∀ (t : Nat) (x : UsbTx), s.transmits[t]? = some x → x.freed = if x.references = 0 then 1 else 0
  accepted : ∀ i : Nat, s.calls[i]? = some (.returned (.ok ())) →
    ∃ (t : Nat) (x : UsbTx), s.transmits[t]? = some x ∧ x.owner = i ∧ s.completions i = x.freed
  refused : ∀ (i : Nat) (stage : XmitStage), s.calls[i]? = some stage → stage ≠ .returned (.ok ()) → s.completions i = 0

theorem Shared.completions_eq_zero (h : s.Shared) (hi : s.calls[i]? = some stage) (hne : stage ≠ .returned (.ok ())) :
    s.completions i = 0 := by
  by_cases hfree : ∀ (t : Nat) (x : UsbTx), s.transmits[t]? = some x → x.owner ≠ i
  · exact (h.bare i hfree).1
  push Not at hfree
  obtain ⟨t, x, hx, rfl⟩ := hfree
  obtain ⟨stage', hstage, hshares⟩ := h.shares t x hx
  rw [hi] at hstage
  obtain rfl := Option.some.inj hstage
  have hsettled := h.settled t x hx
  rw [hsettled.completions]
  by_cases hcarries : stage.carries = true
  · -- the frame is with the driver and the call has not returned, so that the submitter holds its reference
    have hsubmits : stage.submits = 1 := by
      cases stage with
      | returned r =>
        cases r with
        | ok u => exact absurd rfl hne
        | error e => exact nomatch hcarries
      | prepared | sending | written | failed => rfl
      | reserved | revoked | removed | putting | unreserving => exact nomatch hcarries
    have hreferences := hshares.references
    rw [hsettled.freed, if_neg (show ¬ x.references = 0 by omega), ite_self]
  · rw [hshares.frame, if_neg hcarries, if_pos rfl]

theorem Shared.accounts (h : s.Shared) : s.Accounts where
  references t x hx := by
    obtain ⟨stage, hstage, hshares⟩ := h.shares t x hx
    refine ⟨stage, hstage, ?_⟩
    rw [hshares.references, outside]
    omega
  underflows t x hx := (h.settled t x hx).underflows
  freed t x hx := (h.settled t x hx).freed
  accepted i hi := by
    by_cases hfree : ∀ (t : Nat) (x : UsbTx), s.transmits[t]? = some x → x.owner ≠ i
    · exact nomatch (h.bare i hfree).2 _ hi
    push Not at hfree
    obtain ⟨t, x, hx, rfl⟩ := hfree
    obtain ⟨stage, hstage, hshares⟩ := h.shares t x hx
    rw [hi] at hstage
    obtain rfl := Option.some.inj hstage
    have hframe : x.frame = some x.owner := hshares.frame
    refine ⟨t, x, hx, rfl, ?_⟩
    rw [(h.settled t x hx).completions, hframe, if_neg (Option.some_ne_none _)]
  refused i stage hi hne := h.completions_eq_zero hi hne

end UsbHost

/-- If no call gets a transmit object without its batch, every reference count is that of the holders, every object is
freed once, and every accepted frame is completed once. -/
theorem usbTxStep_accounts (hz : UInt64) (depth : Nat) (link : UsbLink) (ls : List UsbTxLabel)
    (hls : Along (usbTxStep hz) UsbHost.AllocatesBoth (.start depth link) ls) :
    (run (usbTxStep hz) (.start depth link) ls).Accounts :=
  (run_induction (usbTxStep hz) UsbHost.Shared (fun _ _ hl h => UsbHost.usbTxStep_shared hz hl h)
    (UsbHost.shared_start depth link) hls).accounts

theorem usbTxStep_accounts_threeFrames : Along (usbTxStep 1000) UsbHost.AllocatesBoth (.start 4 .plain) threeFrames ∧
    (run (usbTxStep 1000) (.start 4 .plain) threeFrames).completed = [(0, 9, some .ENETDOWN)] ∧
      (run (usbTxStep 1000) (.start 4 .plain) threeFrames).Accounts := by
  have hls : Along (usbTxStep 1000) UsbHost.AllocatesBoth (.start 4 .plain) threeFrames := by decide +kernel
  exact ⟨hls, by decide +kernel, usbTxStep_accounts 1000 4 .plain threeFrames hls⟩

def noBatch : List UsbTxLabel := [.xmit 50 7 9, .call 0 (.alloc true false), .call 0 .go, .call 0 .go, .call 0 .go]

/-- **A reference count decremented from zero.** The object of the call is still zeroed when `free` drops the reference
of the submitter: the count is decremented from zero, and the object is never freed. -/
theorem usbTx_underflow : (run (usbTxStep 1000) (.start 4 .plain) noBatch).calls = [.returned (.error .ENOMEM)] ∧
    (run (usbTxStep 1000) (.start 4 .plain) noBatch).transmits = [{ owner := 0, underflows := 1 }] ∧
      ¬ (run (usbTxStep 1000) (.start 4 .plain) noBatch).Accounts := by
  have htransmits : (run (usbTxStep 1000) (.start 4 .plain) noBatch).transmits = [{ owner := 0, underflows := 1 }] := by
    decide +kernel
  refine ⟨by decide +kernel, htransmits, fun h => ?_⟩
  have hunder := h.underflows 0 { owner := 0, underflows := 1 } (by rw [htransmits]; rfl)
  exact nomatch hunder

end Melodi
