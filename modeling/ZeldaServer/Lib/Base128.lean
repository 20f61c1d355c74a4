import Mathlib.Tactic.Ring

/-!
# Numbers in base 128

A number as bytes with seven digits each, the lowest first, where every byte but the last
has its highest bit set.

* `ofBase128_toBase128`: the number is the value of its bytes.
* `continued_toBase128`: where its bytes end is seen from them.
-/

namespace Lib

/-- The value of the digits. -/
def ofBase128 : List UInt8 → ℕ
  | [] => 0
  | b :: bs => b.toNat % 128 + 128 * ofBase128 bs

/-- The highest bit of a byte says whether another one follows. -/
inductive Continued : List UInt8 → Prop
  | last {b : UInt8} : b.toNat < 128 → Continued [b]
  | more {b : UInt8} {bs : List UInt8} : 128 ≤ b.toNat → Continued bs → Continued (b :: bs)

/-- The bytes of a number. -/
def toBase128 (n : ℕ) : List UInt8 :=
  if n < 128 then [UInt8.ofNat n] else UInt8.ofNat (n % 128 + 128) :: toBase128 (n / 128)

theorem toBase128_small {n : ℕ} (h : n < 128) : toBase128 n = [UInt8.ofNat n] := by
  rw [toBase128, if_pos h]

theorem toBase128_large {n : ℕ} (h : ¬ n < 128) :
    toBase128 n = UInt8.ofNat (n % 128 + 128) :: toBase128 (n / 128) := by
  rw [toBase128, if_neg h]

theorem continued_toBase128 (n : ℕ) : Continued (toBase128 n) := by
  induction n using toBase128.induct with
  | case1 n h =>
    rw [toBase128_small h]
    refine .last ?_
    rw [UInt8.toNat_ofNat']
    omega
  | case2 n h ih =>
    rw [toBase128_large h]
    refine .more ?_ ih
    rw [UInt8.toNat_ofNat']
    omega

theorem ofBase128_toBase128 (n : ℕ) : ofBase128 (toBase128 n) = n := by
  induction n using toBase128.induct with
  | case1 n h =>
    rw [toBase128_small h, ofBase128, ofBase128, UInt8.toNat_ofNat']
    omega
  | case2 n h ih =>
    rw [toBase128_large h, ofBase128, ih, UInt8.toNat_ofNat']
    omega

theorem Continued.ne_nil {bs : List UInt8} (h : Continued bs) : bs ≠ [] := by
  cases h with
  | last => exact List.cons_ne_nil _ _
  | more => exact List.cons_ne_nil _ _

theorem toBase128_ne_nil (n : ℕ) : toBase128 n ≠ [] := by
  rw [toBase128]
  split
  · exact List.cons_ne_nil _ _
  · exact List.cons_ne_nil _ _

/-- How many bytes a number has. -/
theorem toBase128_length {k : ℕ} : ∀ {n : ℕ}, n < 128 ^ (k + 1) → (toBase128 n).length ≤ k + 1 := by
  induction k with
  | zero =>
    intro n h
    rw [toBase128_small (by simpa using h)]
    exact Nat.le_refl _
  | succ k ih =>
    intro n h
    rw [toBase128]
    split
    · exact Nat.le_add_left _ _
    · have hdiv : n / 128 < 128 ^ (k + 1) := by
        rw [Nat.div_lt_iff_lt_mul (by decide), ← Nat.pow_succ]
        exact h
      rw [List.length_cons]
      exact Nat.succ_le_succ (ih hdiv)

/-- The value of a number of `k` bytes. -/
theorem ofBase128_lt : ∀ bs : List UInt8, ofBase128 bs < 128 ^ bs.length
  | [] => Nat.one_pos
  | b :: bs => by
    have := ofBase128_lt bs
    rw [ofBase128, List.length_cons, Nat.pow_succ]
    omega

/-- One digit is a lower bound. -/
theorem ofBase128_digit : ∀ (bs : List UInt8) (k : ℕ), (bs.getD k 0).toNat % 128 * 128 ^ k ≤ ofBase128 bs
  | [], k => by simp
  | b :: bs, 0 => by
    rw [List.getD_cons_zero, ofBase128, Nat.pow_zero, Nat.mul_one]
    exact Nat.le_add_right _ _
  | b :: bs, k + 1 => by
    have := ofBase128_digit bs k
    rw [List.getD_cons_succ, ofBase128, Nat.pow_succ, ← Nat.mul_assoc]
    omega

theorem Continued.last_lt {bs : List UInt8} (h : Continued bs) {k : ℕ} (hk : bs.length = k + 1) :
    (bs.getD k 0).toNat < 128 := by
  induction h generalizing k with
  | last hb =>
    obtain rfl : k = 0 := by simpa using hk.symm
    exact hb
  | @more b bs hb hbs ih =>
    cases k with
    | zero => exact absurd (List.length_eq_zero_iff.1 (Nat.succ.inj hk)) hbs.ne_nil
    | succ k => exact ih (Nat.succ.inj hk)

end Lib
