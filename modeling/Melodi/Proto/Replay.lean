import Melodi.Proto.Basic

/-!
# The replay window (`replay.c`)
-/

namespace Melodi

def REPLAY_WINDOW_BITS : Nat := 64

/-- `struct melodi_replay_window`. Bit `d` of the bitmap stands for the counter `highest - d`. -/
structure ReplayWindow where
  highest : Nat
  bitmap : BitVec 64
  deriving DecidableEq, Repr

def replayReset : ReplayWindow := ⟨0, 0⟩

def replaySeen (w : ReplayWindow) (counter : Nat) : Bool :=
  if counter = 0 then true
  else if w.highest < counter then false
  else decide (REPLAY_WINDOW_BITS ≤ w.highest - counter) || w.bitmap.getLsbD (w.highest - counter)

def replayMark (w : ReplayWindow) (counter : Nat) : Except Errno ReplayWindow :=
  if counter = 0 then .error .EINVAL
  else if w.highest < counter then
    let distance := counter - w.highest
    .ok ⟨counter, if REPLAY_WINDOW_BITS ≤ distance then 1#64 else (w.bitmap <<< distance) ||| 1#64⟩
  else if REPLAY_WINDOW_BITS ≤ w.highest - counter || w.bitmap.getLsbD (w.highest - counter) then .error .EALREADY
  else .ok { w with bitmap := w.bitmap ||| (1#64 <<< (w.highest - counter)) }

/-! ## The specification -/

/-- `c` is fresh when the counters `S` were marked and `h` is the highest of them. -/
def Accepts (S : Set Nat) (h c : Nat) : Prop := c ≠ 0 ∧ (h < c ∨ h - c < 64 ∧ c ∉ S)

structure Represents (w : ReplayWindow) (S : Set Nat) : Prop where
  pos : ∀ c ∈ S, c ≠ 0
  le_highest : ∀ c ∈ S, c ≤ w.highest
  highest_mem : w.highest ≠ 0 → w.highest ∈ S
  bit_iff : ∀ c, c ≠ 0 → c ≤ w.highest → w.highest - c < 64 → (w.bitmap.getLsbD (w.highest - c) = true ↔ c ∈ S)

variable {w w' : ReplayWindow} {S : Set Nat} {c : Nat}

theorem represents_reset : Represents replayReset ∅ where
  pos := by simp
  le_highest := by simp
  highest_mem := by simp [replayReset]
  bit_iff := by
    intro c hc hle
    simp only [replayReset] at hle
    omega

theorem replaySeen_eq_false_iff (h : Represents w S) (c : Nat) : replaySeen w c = false ↔ Accepts S w.highest c := by
  unfold replaySeen Accepts REPLAY_WINDOW_BITS
  split_ifs with hc hlt
  · simp [hc]
  · simp [hc, hlt]
  have hle : c ≤ w.highest := Nat.le_of_not_lt hlt
  simp only [Bool.or_eq_false_iff, decide_eq_false_iff_not, not_le, hc, hlt, ne_eq, not_false_eq_true, true_and,
    false_or, and_congr_right_iff]
  intro hd
  rw [← h.bit_iff c hc hle hd]
  simp

theorem replayMark_isOk_iff (w : ReplayWindow) (c : Nat) :
    (∃ w', replayMark w c = .ok w') ↔ replaySeen w c = false := by
  unfold replayMark replaySeen
  split_ifs with hc hlt hseen
  · simp
  · simp
  · rw [hseen]
    simp
  · simpa using hseen

theorem replayMark_highest (h : replayMark w c = .ok w') : w'.highest = max w.highest c := by
  unfold replayMark at h
  split_ifs at h with hc hlt hseen
  · cases h; exact (max_eq_right (Nat.le_of_lt hlt)).symm
  · cases h; exact (max_eq_left (Nat.le_of_not_lt hlt)).symm

theorem replayMark_spec (h : Represents w S) (hm : replayMark w c = .ok w') : Represents w' (insert c S) := by
  unfold replayMark REPLAY_WINDOW_BITS at hm
  split_ifs at hm with hc hlt hseen
  · cases hm
    refine ⟨?_, ?_, fun _ => Set.mem_insert _ _, ?_⟩
    · rintro x (rfl | hx)
      · exact hc
      · exact h.pos x hx
    · rintro x (rfl | hx)
      · exact Nat.le_refl _
      · exact Nat.le_trans (h.le_highest x hx) (Nat.le_of_lt hlt)
    intro x hx hxc hd
    simp only at hxc hd ⊢
    by_cases hxeq : x = c
    · subst hxeq
      split_ifs <;> simp
    have hone : (1#64).getLsbD (c - x) = false := by
      rw [BitVec.getLsbD_one]
      simp
      omega
    simp only [Set.mem_insert_iff, hxeq, false_or]
    split_ifs with hfar
    · -- everything marked before lies behind the window
      rw [hone]
      simp only [Bool.false_eq_true, false_iff]
      intro hxS
      have := h.le_highest x hxS
      omega
    · rw [BitVec.getLsbD_or, hone, Bool.or_false, BitVec.getLsbD_shiftLeft]
      by_cases hxh : x ≤ w.highest
      · rw [← h.bit_iff x hx hxh (by omega), show c - x - (c - w.highest) = w.highest - x by omega]
        simp
        omega
      · have hxS : x ∉ S := fun hxS => hxh (h.le_highest x hxS)
        simp only [hxS, iff_false, Bool.not_eq_true, Bool.and_eq_false_imp]
        simp
        omega
  · cases hm
    have hle : c ≤ w.highest := Nat.le_of_not_lt hlt
    simp only [Bool.or_eq_true, decide_eq_true_eq, not_or, not_le, Bool.not_eq_true] at hseen
    refine ⟨?_, ?_, fun hh => Set.mem_insert_of_mem _ (h.highest_mem hh), ?_⟩
    · rintro x (rfl | hx)
      · exact hc
      · exact h.pos x hx
    · rintro x (rfl | hx)
      · exact hle
      · exact h.le_highest x hx
    intro x hx hxc hd
    simp only at hxc hd ⊢
    rw [BitVec.getLsbD_or, Bool.or_eq_true, h.bit_iff x hx hxc hd, Set.mem_insert_iff, or_comm]
    refine or_congr_left ?_
    rw [BitVec.getLsbD_shiftLeft, BitVec.getLsbD_one]
    simp
    omega

/-! ## Facts that need no history -/

theorem replaySeen_iff (w : ReplayWindow) (c : Nat) : replaySeen w c = true ↔
    c = 0 ∨ c ≤ w.highest ∧ (64 ≤ w.highest - c ∨ w.bitmap.getLsbD (w.highest - c) = true) := by
  unfold replaySeen REPLAY_WINDOW_BITS
  split_ifs with hc hlt
  · simp [hc]
  · simp [hc, Nat.not_le_of_lt hlt]
  · simp [hc, Nat.le_of_not_lt hlt]

theorem replaySeen_of_mark_self (hm : replayMark w c = .ok w') : replaySeen w' c = true := by
  unfold replayMark REPLAY_WINDOW_BITS at hm
  rw [replaySeen_iff]
  split_ifs at hm with hc hlt hseen
  · cases hm
    refine Or.inr ⟨Nat.le_refl _, Or.inr ?_⟩
    simp only [Nat.sub_self]
    split_ifs <;> simp
  · cases hm
    simp only [Bool.or_eq_true, decide_eq_true_eq, not_or, not_le] at hseen
    refine Or.inr ⟨Nat.le_of_not_lt hlt, Or.inr ?_⟩
    simp [hseen.1]

end Melodi
