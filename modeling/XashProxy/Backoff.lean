import Mathlib.Algebra.Order.Ring.Nat

/-!
# Capped exponential delays

The delays `base`, `base * factor`, `base * factor ^ 2`, and so on, none of
them above `cap`. A program that keeps only the current delay computes the
next one by `delay_succ`; `delay_eq_iff` recovers the number of steps from the
delay as far as the cap lets it.
-/

namespace XashProxy

namespace Backoff

/-- The delay after `n` steps. -/
def delay (factor base cap n : Nat) : Nat := min (base * factor ^ n) cap

variable {factor base cap : Nat}

theorem delay_zero (hle : base ≤ cap) : delay factor base cap 0 = base := by
  rw [delay, Nat.pow_zero, Nat.mul_one, Nat.min_eq_left hle]

theorem delay_of_le {n : Nat} (h : cap ≤ base * factor ^ n) :
    delay factor base cap n = cap := Nat.min_eq_right h

/-- One more step: capped before or after, the delay is the same. -/
theorem delay_succ (n : Nat) :
    min (delay factor base cap n * factor) cap = delay factor base cap (n + 1) := by
  unfold delay
  rw [Nat.pow_succ, ← Nat.mul_assoc]
  by_cases hle : base * factor ^ n ≤ cap
  · rw [Nat.min_eq_left hle]
  · have hge : cap ≤ base * factor ^ n := Nat.le_of_not_le hle
    rw [Nat.min_eq_right hge]
    cases factor with
    | zero => simp
    | succ f =>
        have hcap : cap ≤ cap * (f + 1) := Nat.le_mul_of_pos_right cap (Nat.succ_pos f)
        have hnext : cap * (f + 1) ≤ base * (f + 1) ^ n * (f + 1) :=
          Nat.mul_le_mul_right (f + 1) hge
        rw [Nat.min_eq_right hcap, Nat.min_eq_right (Nat.le_trans hcap hnext)]

/-- Below the cap every step makes the delay longer. -/
theorem delay_lt_of_lt (hf : 1 < factor) (hb : 0 < base) {a b : Nat} (hab : a < b)
    (ha : base * factor ^ a < cap) : delay factor base cap a < delay factor base cap b := by
  have hpow : base * factor ^ a < base * factor ^ b :=
    Nat.mul_lt_mul_of_pos_left (Nat.pow_lt_pow_right hf hab) hb
  unfold delay
  omega

/-- Two steps with the same delay have both reached the cap. -/
theorem cap_le_of_delay_eq (hf : 1 < factor) (hb : 0 < base) {a b : Nat} (hab : a < b)
    (h : delay factor base cap a = delay factor base cap b) :
    cap ≤ base * factor ^ a ∧ cap ≤ base * factor ^ b := by
  have hpow : factor ^ a ≤ factor ^ b :=
    Nat.pow_le_pow_right (Nat.lt_of_succ_lt hf) (Nat.le_of_lt hab)
  have hmul : base * factor ^ a ≤ base * factor ^ b := Nat.mul_le_mul_left base hpow
  by_cases ha : cap ≤ base * factor ^ a
  · exact ⟨ha, Nat.le_trans ha hmul⟩
  · exact absurd h (Nat.ne_of_lt (delay_lt_of_lt hf hb hab (Nat.not_le.mp ha)))

theorem delay_eq_iff (hf : 1 < factor) (hb : 0 < base) {a b : Nat} :
    delay factor base cap a = delay factor base cap b ↔
      a = b ∨ (cap ≤ base * factor ^ a ∧ cap ≤ base * factor ^ b) := by
  constructor
  · intro h
    rcases Nat.lt_trichotomy a b with hab | hab | hab
    · exact Or.inr (cap_le_of_delay_eq hf hb hab h)
    · exact Or.inl hab
    · exact Or.inr (cap_le_of_delay_eq hf hb hab h.symm).symm
  · rintro (rfl | ⟨ha, hb'⟩)
    · rfl
    · rw [delay_of_le ha, delay_of_le hb']

end Backoff

end XashProxy
