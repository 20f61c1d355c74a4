import Mathlib.Order.Nat
import Mathlib.Tactic.Common

/-!
# Cooldowns

Something is done only when a clock that does not go back has reached a time, and this time
is then set `d` ahead of the clock.

* `Paced.fire`, `Paced.later`, `Paced.wait`: what keeps the count of a stretch in pace.
* `Paced.count`: it is done at most `T / d + 1` times in a stretch of length `T`.
-/

namespace Lib

variable {d a last now till n T : ℕ}

/-- It was done `n` times since `a`; the clock showed `last` then, and the next time is `till`. -/
structure Paced (d a last till n : ℕ) : Prop where
  start : a ≤ last
  last : a + d * n ≤ last + d
  till : n = 0 ∨ a + d * n ≤ till

theorem Paced.zero (a till : ℕ) : Paced d a a till 0 :=
  ⟨Nat.le_refl a, by simp, .inl rfl⟩

/-- Time passes. -/
theorem Paced.later (h : Paced d a last till n) (hnow : last ≤ now) : Paced d a now till n :=
  ⟨h.start.trans hnow, h.last.trans (Nat.add_le_add_right hnow d), h.till⟩

/-- The next time is put off. -/
theorem Paced.wait (h : Paced d a last till n) {till' : ℕ} (htill : till ≤ till') : Paced d a last till' n := by
  refine ⟨h.start, h.last, ?_⟩
  rcases h.till with hzero | hle
  · exact .inl hzero
  · exact .inr (hle.trans htill)

/-- It is done: the clock had reached `till`, and showed `set` when the next time was set. -/
theorem Paced.fire (h : Paced d a last till n) (hready : till ≤ now) (hnow : last ≤ now) {set : ℕ} (hset : now ≤ set) :
    Paced d a set (set + d) (n + 1) := by
  have hle : a + d * n ≤ set := by
    rcases h.till with hzero | hle
    · rw [hzero, Nat.mul_zero]
      exact h.start.trans (hnow.trans hset)
    · exact hle.trans (hready.trans hset)
  have hnext : a + d * (n + 1) ≤ set + d := by
    rw [Nat.mul_succ]
    omega
  exact ⟨h.start.trans (hnow.trans hset), hnext, .inr hnext⟩

/-- **The number of times** in a stretch of length `T`. -/
theorem Paced.count (h : Paced d a last till n) (hd : 0 < d) (hT : last ≤ a + T) : n ≤ T / d + 1 := by
  have hle : d * n ≤ T + d := by
    have := h.last
    omega
  rw [← Nat.add_div_right T hd, Nat.le_div_iff_mul_le hd, Nat.mul_comm]
  exact hle

end Lib
