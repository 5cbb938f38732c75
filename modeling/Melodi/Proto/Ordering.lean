import Melodi.Proto.Basic

/-!
# The ordering window (`ordering.c`)

Markers run over the cycle `1, ..., 2^32 - 1`. A receive flow keeps the next expected marker and a mask of the `32`
markers after it that were admitted early.
-/

namespace Melodi
variable {bits : BitVec 32} {e k m now : Nat} {res : OrderResult} {st st' : OrderState}

def ORDER_WINDOW : Nat := 32
def ORDER_GAP_MS : Nat := 5000
def ORDER_MODULUS : Nat := 0xffffffff

/-- `struct melodi_order_state`. Bit `k` of `pending` stands for the marker `k + 1` steps after `expected`. -/
structure OrderState where
  deadlineMs : Nat
  expected : Nat
  pending : BitVec 32
  deriving DecidableEq, Repr

/-- `enum melodi_order_result`, with the released range the source returns through pointers. -/
inductive OrderResult where
  | held
  | released (marker count : Nat)
  | duplicate
  deriving DecidableEq, Repr

def orderDeadline (nowMs : Nat) : Except Errno Nat :=
  if U64_MAX - ORDER_GAP_MS < nowMs then .error .EOVERFLOW else .ok (nowMs + ORDER_GAP_MS)

def orderNext (marker : Nat) : Nat := if marker = U32_MAX then 1 else marker + 1

def orderAdvance (marker : Nat) : Nat → Nat
  | 0 => marker
  | count + 1 => orderAdvance (orderNext marker) count

def orderDistance (expected marker : Nat) : Except Errno Nat :=
  if expected = 0 ∨ marker = 0 then .error .EINVAL
  else
    let expectedIndex := expected - 1
    let markerIndex := marker - 1
    .ok (if expectedIndex ≤ markerIndex then markerIndex - expectedIndex
      else ORDER_MODULUS - (expectedIndex - markerIndex))

def orderReleaseLoop : Nat → BitVec 32 → Nat → Nat → BitVec 32 × Nat × Nat
  | 0, bits, expected, count => (bits, expected, count)
  | fuel + 1, bits, expected, count =>
    if bits.getLsbD 0 then orderReleaseLoop fuel (bits >>> 1) (orderNext expected) (count + 1)
    else (bits, expected, count)

def orderRelease (state : OrderState) (marker : Nat) (bits : BitVec 32) : OrderState × Nat × Nat :=
  let r := orderReleaseLoop ORDER_WINDOW bits (orderNext marker) 1
  let pending := r.1 >>> 1
  ({ deadlineMs := if pending = 0 then 0 else state.deadlineMs, expected := r.2.1, pending := pending },
    marker, r.2.2)

def orderReset : OrderState := ⟨0, 1, 0⟩

def orderAdmit (state : OrderState) (marker nowMs : Nat) : Except Errno (OrderResult × OrderState) :=
  if state.expected = 0 then .error .EINVAL
  else
    match orderDistance state.expected marker with
    | .error e => .error e
    | .ok forward =>
      if forward = 0 then
        let r := orderRelease state marker state.pending
        .ok (.released r.2.1 r.2.2, r.1)
      else if forward ≤ ORDER_WINDOW then
        if state.pending.getLsbD (forward - 1) then .ok (.duplicate, state)
        else
          let pending := state.pending ||| (1#32 <<< (forward - 1))
          if state.deadlineMs = 0 then
            match orderDeadline nowMs with
            | .error e => .error e
            | .ok deadline => .ok (.held, { state with deadlineMs := deadline, pending := pending })
          else .ok (.held, { state with pending := pending })
      else if ORDER_MODULUS - forward ≤ ORDER_WINDOW then .ok (.duplicate, state)
      else .error .ERANGE

def orderSkipLoop : Nat → BitVec 32 → Nat → BitVec 32 × Nat
  | 0, bits, skipped => (bits, skipped)
  | fuel + 1, bits, skipped =>
    if bits.getLsbD 0 then (bits, skipped) else orderSkipLoop fuel (bits >>> 1) (skipped + 1)

def orderPoll (state : OrderState) (nowMs : Nat) : OrderState × Except Errno OrderResult :=
  if state.expected = 0 then (state, .error .EINVAL)
  else if state.pending = 0 ∨ nowMs < state.deadlineMs then (state, .ok .held)
  else
    let s := orderSkipLoop ORDER_WINDOW state.pending 0
    let marker := orderAdvance state.expected (s.2 + 1)
    let r := orderRelease state marker (s.1 >>> 1)
    if r.1.pending = 0 then (r.1, .ok (.released r.2.1 r.2.2))
    else
      match orderDeadline nowMs with
      | .error e => (r.1, .error e)
      | .ok deadline => ({ r.1 with deadlineMs := deadline }, .ok (.released r.2.1 r.2.2))

/-! ## Markers on the cycle -/

def IsMarker (m : Nat) : Prop := 0 < m ∧ m ≤ U32_MAX

theorem isMarker_one : IsMarker 1 := ⟨by decide, by decide⟩

theorem isMarker_next (h : IsMarker m) : IsMarker (orderNext m) := by
  unfold orderNext IsMarker U32_MAX at *
  split_ifs <;> omega

theorem isMarker_advance (h : IsMarker m) (k : Nat) : IsMarker (orderAdvance m k) := by
  induction k generalizing m with
  | zero => exact h
  | succ k ih => exact ih (isMarker_next h)

theorem orderAdvance_add (m j k : Nat) : orderAdvance m (j + k) = orderAdvance (orderAdvance m j) k := by
  induction j generalizing m with
  | zero => simp [orderAdvance]
  | succ j ih => rw [Nat.add_right_comm, orderAdvance, orderAdvance, ih]

theorem orderAdvance_succ (m k : Nat) : orderAdvance m (k + 1) = orderNext (orderAdvance m k) :=
  orderAdvance_add m k 1

theorem orderAdvance_eq (h : IsMarker m) (k : Nat) : orderAdvance m k = (m - 1 + k) % ORDER_MODULUS + 1 := by
  induction k with
  | zero =>
    unfold IsMarker U32_MAX at h
    simp only [orderAdvance, ORDER_MODULUS, Nat.add_zero]
    omega
  | succ k ih =>
    rw [orderAdvance_succ, ih]
    unfold orderNext U32_MAX ORDER_MODULUS
    split_ifs <;> omega

theorem orderDistance_ok (he : IsMarker e) (hm : IsMarker m) :
    ∃ f, orderDistance e m = .ok f ∧ f < ORDER_MODULUS ∧ orderAdvance e f = m := by
  have he' := he
  unfold IsMarker U32_MAX at he' hm
  refine ⟨_, by rw [orderDistance, if_neg (by omega)], ?_, ?_⟩
  · unfold ORDER_MODULUS
    split_ifs <;> omega
  rw [orderAdvance_eq he]
  unfold ORDER_MODULUS
  split_ifs <;> omega

theorem orderAdvance_inj {j : Nat} (h : IsMarker m) (hj : j < ORDER_MODULUS) (hk : k < ORDER_MODULUS)
    (heq : orderAdvance m j = orderAdvance m k) : j = k := by
  rw [orderAdvance_eq h, orderAdvance_eq h] at heq
  unfold ORDER_MODULUS at *
  omega

theorem orderDistance_advance (he : IsMarker e) (hk : k < ORDER_MODULUS) :
    orderDistance e (orderAdvance e k) = .ok k := by
  obtain ⟨f, hf, hlt, hadv⟩ := orderDistance_ok he (isMarker_advance he k)
  rw [hf, orderAdvance_inj he hlt hk hadv]

/-! ## The two loops -/

theorem orderReleaseLoop_spec (fuel : Nat) (bits : BitVec 32) (e c : Nat)
    (hfuel : ∀ j, fuel ≤ j → bits.getLsbD j = false) :
    ∃ t, (∀ j < t, bits.getLsbD j = true) ∧ bits.getLsbD t = false ∧
      orderReleaseLoop fuel bits e c = (bits >>> t, orderAdvance e t, c + t) := by
  induction fuel generalizing bits e c with
  | zero => exact ⟨0, by simp, hfuel 0 (Nat.le_refl 0), by simp [orderReleaseLoop, orderAdvance]⟩
  | succ fuel ih =>
    unfold orderReleaseLoop
    by_cases hb : bits.getLsbD 0 = true
    · obtain ⟨t, hset, hclear, heq⟩ := ih (bits >>> 1) (orderNext e) (c + 1) (by
        intro j hj
        rw [BitVec.getLsbD_ushiftRight]
        exact hfuel (1 + j) (by omega))
      refine ⟨t + 1, ?_, ?_, ?_⟩
      · intro j hj
        cases j with
        | zero => exact hb
        | succ j =>
          have := hset j (by omega)
          rwa [BitVec.getLsbD_ushiftRight, Nat.add_comm] at this
      · rwa [BitVec.getLsbD_ushiftRight, Nat.add_comm] at hclear
      · rw [if_pos hb, heq, ← BitVec.shiftRight_add, Nat.add_comm 1 t, orderAdvance]
        congr 2
        omega
    · rw [if_neg hb]
      exact ⟨0, by simp, by simpa using hb, by simp [orderAdvance]⟩

theorem orderRelease_spec (state : OrderState) (marker : Nat) (bits : BitVec 32) :
    ∃ t, (∀ j < t, bits.getLsbD j = true) ∧ bits.getLsbD t = false ∧
      (orderRelease state marker bits).2 = (marker, t + 1) ∧
      (orderRelease state marker bits).1.expected = orderAdvance marker (t + 1) ∧
      (orderRelease state marker bits).1.pending = bits >>> (t + 1) ∧
      (orderRelease state marker bits).1.deadlineMs =
        (if bits >>> (t + 1) = 0 then 0 else state.deadlineMs) := by
  obtain ⟨t, hset, hclear, heq⟩ := orderReleaseLoop_spec ORDER_WINDOW bits (orderNext marker) 1 (fun j hj =>
    BitVec.getLsbD_of_ge bits j hj)
  refine ⟨t, hset, hclear, ?_, ?_, ?_, ?_⟩ <;>
    simp only [orderRelease, heq, ← BitVec.shiftRight_add, orderAdvance, Nat.add_comm]

theorem orderSkipLoop_spec (fuel : Nat) (bits : BitVec 32) (s : Nat) (hfuel : ∃ j < fuel, bits.getLsbD j = true) :
    ∃ t, (∀ j < t, bits.getLsbD j = false) ∧ bits.getLsbD t = true ∧
      orderSkipLoop fuel bits s = (bits >>> t, s + t) := by
  induction fuel generalizing bits s with
  | zero => obtain ⟨j, hj, -⟩ := hfuel; omega
  | succ fuel ih =>
    unfold orderSkipLoop
    by_cases hb : bits.getLsbD 0 = true
    · rw [if_pos hb]
      exact ⟨0, by simp, hb, by simp⟩
    obtain ⟨j, hj, hbit⟩ := hfuel
    have hj0 : j ≠ 0 := by rintro rfl; exact hb hbit
    obtain ⟨t, hzero, hone, heq⟩ := ih (bits >>> 1) (s + 1) ⟨j - 1, by omega, by
      rwa [BitVec.getLsbD_ushiftRight, show 1 + (j - 1) = j by omega]⟩
    refine ⟨t + 1, ?_, ?_, ?_⟩
    · intro i hi
      cases i with
      | zero => simpa using hb
      | succ i =>
        have := hzero i (by omega)
        rwa [BitVec.getLsbD_ushiftRight, Nat.add_comm] at this
    · rwa [BitVec.getLsbD_ushiftRight, Nat.add_comm] at hone
    · rw [if_neg hb, heq, ← BitVec.shiftRight_add, Nat.add_comm 1 t]
      congr 1
      omega

theorem exists_bit_of_ne_zero (h : bits ≠ 0) : ∃ j < 32, bits.getLsbD j = true := by
  by_contra hne
  push Not at hne
  apply h
  apply BitVec.eq_of_getLsbD_eq
  intro i hi
  simpa using hne i hi

/-! ## What the two operations can do -/

theorem getLsbD_release (bits : BitVec 32) (n k : Nat) : (bits >>> n).getLsbD k = bits.getLsbD (n + k) :=
  BitVec.getLsbD_ushiftRight bits n k

/-- A release of `count` markers that starts `offset` steps after the expected marker of `state`, where the marker
at the start itself need not have been pending, and ends before the first one that is not. -/
structure Releases (state state' : OrderState) (offset count marker : Nat) : Prop where
  marker_eq : marker = orderAdvance state.expected offset
  count_pos : 0 < count
  pending_of_lt : ∀ j, offset < j → j < offset + count → state.pending.getLsbD (j - 1) = true
  pending_stop : state.pending.getLsbD (offset + count - 1) = false
  expected_eq : state'.expected = orderAdvance state.expected (offset + count)
  pending_eq : ∀ k, state'.pending.getLsbD k = state.pending.getLsbD (offset + count + k)

theorem orderDistance_spec {f : Nat} (he : IsMarker e) (hm : m ≤ U32_MAX) (h : orderDistance e m = .ok f) :
    IsMarker m ∧ f < ORDER_MODULUS ∧ orderAdvance e f = m := by
  have hm0 : m ≠ 0 := by
    rintro rfl
    simp [orderDistance] at h
  have hmarker : IsMarker m := ⟨by omega, hm⟩
  obtain ⟨f', hf', hlt, hadv⟩ := orderDistance_ok he hmarker
  rw [hf', Except.ok.injEq] at h
  subst h
  exact ⟨hmarker, hlt, hadv⟩

theorem orderAdmit_cases (he : IsMarker st.expected) (hm : m ≤ U32_MAX) (h : orderAdmit st m now = .ok (res, st')) :
    ∃ f < ORDER_MODULUS, orderAdvance st.expected f = m ∧
      ((f = 0 ∧ ∃ n, res = .released m n ∧ Releases st st' 0 n m) ∨
       (0 < f ∧ f ≤ ORDER_WINDOW ∧ st.pending.getLsbD (f - 1) = true ∧ res = .duplicate ∧ st' = st) ∨
       (0 < f ∧ f ≤ ORDER_WINDOW ∧ st.pending.getLsbD (f - 1) = false ∧ res = .held ∧
          st'.expected = st.expected ∧ st'.pending = st.pending ||| (1#32 <<< (f - 1))) ∨
       (ORDER_WINDOW < f ∧ ORDER_MODULUS - f ≤ ORDER_WINDOW ∧ res = .duplicate ∧ st' = st)) := by
  unfold orderAdmit at h
  rw [if_neg (by unfold IsMarker at he; omega)] at h
  cases hd : orderDistance st.expected m with
  | error e => simp [hd] at h
  | ok f =>
    obtain ⟨-, hlt, hadv⟩ := orderDistance_spec he hm hd
    refine ⟨f, hlt, hadv, ?_⟩
    simp only [hd] at h
    by_cases h0 : f = 0
    · obtain ⟨t, hset, hstop, hr, hexp, hpend, -⟩ := orderRelease_spec st m st.pending
      simp only [h0, if_true, Except.ok.injEq, Prod.mk.injEq] at h
      obtain ⟨rfl, rfl⟩ := h
      subst h0
      have hm : m = orderAdvance st.expected 0 := hadv.symm
      refine .inl ⟨rfl, t + 1, by rw [hr], hm, by omega, fun j hj hlt => hset (j - 1) (by omega), ?_, ?_, fun k => ?_⟩
      · rwa [show 0 + (t + 1) - 1 = t by omega]
      · rw [hexp, hm, Nat.zero_add]
        rfl
      · rw [hpend, getLsbD_release, Nat.zero_add]
    · rw [if_neg h0] at h
      by_cases hw : f ≤ ORDER_WINDOW
      · rw [if_pos hw] at h
        by_cases hbit : st.pending.getLsbD (f - 1) = true
        · simp only [hbit, if_true, Except.ok.injEq, Prod.mk.injEq] at h
          exact .inr (.inl ⟨by omega, hw, hbit, h.1.symm, h.2.symm⟩)
        rw [if_neg hbit] at h
        refine .inr (.inr (.inl ⟨by omega, hw, by simpa using hbit, ?_⟩))
        by_cases hdl : st.deadlineMs = 0
        · cases hdd : orderDeadline now with
          | error e => simp [hdl, hdd] at h
          | ok deadline =>
            simp only [hdl, if_true, hdd, Except.ok.injEq, Prod.mk.injEq] at h
            obtain ⟨rfl, rfl⟩ := h
            exact ⟨rfl, rfl, rfl⟩
        · simp only [hdl, if_false, Except.ok.injEq, Prod.mk.injEq] at h
          obtain ⟨rfl, rfl⟩ := h
          exact ⟨rfl, rfl, rfl⟩
      · rw [if_neg hw] at h
        by_cases hback : ORDER_MODULUS - f ≤ ORDER_WINDOW
        · simp only [hback, if_true, Except.ok.injEq, Prod.mk.injEq] at h
          exact .inr (.inr (.inr ⟨by omega, hback, h.1.symm, h.2.symm⟩))
        · simp [hback] at h

theorem orderPoll_cases {r : Except Errno OrderResult} (he : IsMarker st.expected) (h : orderPoll st now = (st', r)) :
    (r = .ok .held ∧ st' = st) ∨
    (st.pending ≠ 0 ∧ ∃ s m n, (∀ j < s, st.pending.getLsbD j = false) ∧ st.pending.getLsbD s = true ∧
      Releases st st' (s + 1) n m ∧
      (r = .ok (.released m n) ∨ r = .error .EOVERFLOW ∧ orderDeadline now = .error .EOVERFLOW)) := by
  unfold orderPoll at h
  rw [if_neg (by unfold IsMarker at he; omega)] at h
  by_cases hp : st.pending = 0 ∨ now < st.deadlineMs
  · rw [if_pos hp, Prod.mk.injEq] at h
    exact .inl ⟨h.2.symm, h.1.symm⟩
  rw [if_neg hp] at h
  push Not at hp
  obtain ⟨s, hzero, hone, hskip⟩ :=
    orderSkipLoop_spec ORDER_WINDOW st.pending 0 (exists_bit_of_ne_zero hp.1)
  simp only [hskip, Nat.zero_add, ← BitVec.shiftRight_add] at h
  obtain ⟨t, hset, hstop, hr, hexp, hpend, -⟩ :=
    orderRelease_spec st (orderAdvance st.expected (s + 1)) (st.pending >>> (s + 1))
  generalize orderRelease st (orderAdvance st.expected (s + 1)) (st.pending >>> (s + 1)) = q at h hr hexp hpend
  have hrel : ∀ q' : OrderState, q'.expected = q.1.expected → q'.pending = q.1.pending →
      Releases st q' (s + 1) (t + 1) (orderAdvance st.expected (s + 1)) := by
    intro q' hq hq'
    refine ⟨rfl, by omega, fun j hj hlt => ?_, ?_, ?_, fun k => ?_⟩
    · have := hset (j - 1 - (s + 1)) (by omega)
      rwa [getLsbD_release, show s + 1 + (j - 1 - (s + 1)) = j - 1 by omega] at this
    · rwa [getLsbD_release, show s + 1 + t = s + 1 + (t + 1) - 1 by omega] at hstop
    · rw [hq, hexp, orderAdvance_add st.expected (s + 1)]
    · rw [hq', hpend, getLsbD_release, getLsbD_release]
      congr 1
      omega
  refine .inr ⟨hp.1, s, orderAdvance st.expected (s + 1), t + 1, hzero, hone, ?_⟩
  rw [hr] at h
  by_cases hz : q.1.pending = 0
  · rw [if_pos hz, Prod.mk.injEq] at h
    obtain ⟨rfl, rfl⟩ := h
    exact ⟨hrel _ rfl rfl, .inl rfl⟩
  rw [if_neg hz] at h
  cases hdd : orderDeadline now with
  | error e =>
    simp only [hdd, Prod.mk.injEq] at h
    obtain ⟨rfl, rfl⟩ := h
    have : e = .EOVERFLOW := by
      unfold orderDeadline at hdd
      split_ifs at hdd
      exact (Except.error.inj hdd).symm
    subst this
    exact ⟨hrel _ rfl rfl, .inr ⟨rfl, rfl⟩⟩
  | ok deadline =>
    simp only [hdd, Prod.mk.injEq] at h
    obtain ⟨rfl, rfl⟩ := h
    exact ⟨hrel _ rfl rfl, .inl rfl⟩

/-! ## The deadline -/

def OrderState.Timed (st : OrderState) : Prop := st.deadlineMs ≠ 0 ↔ st.pending ≠ 0

theorem timed_orderReset : orderReset.Timed := by simp [OrderState.Timed, orderReset]

theorem ne_zero_of_getLsbD (h : bits.getLsbD k = true) : bits ≠ 0 := by
  rintro rfl
  simp at h

theorem orderDeadline_pos {deadline : Nat} (h : orderDeadline now = .ok deadline) : deadline ≠ 0 := by
  unfold orderDeadline ORDER_GAP_MS at h
  split_ifs at h
  rw [← Except.ok.inj h]
  omega

theorem OrderState.Timed.release (ht : st.Timed) (marker : Nat) {n : Nat} (hbits : bits = st.pending >>> n) :
    (orderRelease st marker bits).1.Timed := by
  obtain ⟨t, -, -, -, -, hpend, hdeadline⟩ := orderRelease_spec st marker bits
  unfold OrderState.Timed
  rw [hpend, hdeadline]
  by_cases hz : bits >>> (t + 1) = 0
  · simp [hz]
  rw [if_neg hz]
  refine iff_of_true (ht.mpr fun h0 => hz ?_) hz
  simp [hbits, h0]

theorem OrderState.Timed.admitted (ht : st.Timed) (h : orderAdmit st m now = .ok (res, st')) : st'.Timed := by
  unfold orderAdmit at h
  by_cases h0 : st.expected = 0
  · rw [if_pos h0] at h
    cases h
  rw [if_neg h0] at h
  cases hd : orderDistance st.expected m with
  | error e => simp [hd] at h
  | ok f =>
    have hbit : f ≤ ORDER_WINDOW → f ≠ 0 → (st.pending ||| 1#32 <<< (f - 1)) ≠ 0 := by
      intro hwin hf
      unfold ORDER_WINDOW at hwin
      refine ne_zero_of_getLsbD (k := f - 1) ?_
      simp
      omega
    simp only [hd] at h
    split at h
    · obtain ⟨-, rfl⟩ := Prod.mk.inj (Except.ok.inj h)
      exact ht.release _ (n := 0) (by simp)
    rename_i hf
    split at h
    · rename_i hwin
      split at h
      · obtain ⟨-, rfl⟩ := Prod.mk.inj (Except.ok.inj h)
        exact ht
      split at h
      · cases hdd : orderDeadline now with
        | error e => simp [hdd] at h
        | ok deadline =>
          simp only [hdd, Except.ok.injEq, Prod.mk.injEq] at h
          obtain ⟨-, rfl⟩ := h
          exact iff_of_true (orderDeadline_pos hdd) (hbit hwin hf)
      · rename_i hdl
        obtain ⟨-, rfl⟩ := Prod.mk.inj (Except.ok.inj h)
        exact iff_of_true hdl (hbit hwin hf)
    · split at h
      · obtain ⟨-, rfl⟩ := Prod.mk.inj (Except.ok.inj h)
        exact ht
      · cases h

theorem OrderState.Timed.poll (ht : st.Timed) (h : orderPoll st now = (st', .ok res)) : st'.Timed := by
  unfold orderPoll at h
  split_ifs at h with h0 hidle
  · cases h
  · obtain ⟨rfl, -⟩ := Prod.mk.inj h
    exact ht
  push Not at hidle
  obtain ⟨s, -, -, hskip⟩ := orderSkipLoop_spec ORDER_WINDOW st.pending 0 (exists_bit_of_ne_zero hidle.1)
  simp only [hskip, Nat.zero_add, ← BitVec.shiftRight_add] at h
  have hrel := ht.release (orderAdvance st.expected (s + 1)) (n := s + 1) rfl
  generalize orderRelease st (orderAdvance st.expected (s + 1)) (st.pending >>> (s + 1)) = q at h hrel
  split_ifs at h with hz
  · obtain ⟨rfl, -⟩ := Prod.mk.inj h
    exact hrel
  cases hdd : orderDeadline now with
  | error e => simp [hdd] at h
  | ok deadline =>
    simp only [hdd, Prod.mk.injEq] at h
    obtain ⟨rfl, -⟩ := h
    exact iff_of_true (orderDeadline_pos hdd) hz

end Melodi
