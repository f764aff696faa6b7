import Mathlib.Tactic

/-!
# Storage that doubles

A capacity that starts at `c` and is doubled until what is needed fits.

* `Doubled c n`: `n` is `c` doubled some number of times;
* `Doubled.two_mul_le`, `Doubled.lt_two_mul_iff`, `Doubled.le_mul_iff`: there is no such number
  between one and its double;
* `grow need fuel cap`: double `cap` until `need` fits, at most `fuel` times;
* `grow_le`: this never exceeds such a number into which `need` fits.
-/

namespace Doubling

/-- `n` is `c`, doubled some number of times. -/
def Doubled (c n : ℕ) : Prop := ∃ j, n = c * 2 ^ j

namespace Doubled

variable {c n r : ℕ}

theorem refl (c : ℕ) : Doubled c c := ⟨0, by rw [pow_zero, mul_one]⟩

theorem mul_two_pow (c j : ℕ) : Doubled c (2 ^ j * c) := ⟨j, mul_comm _ _⟩

theorem double (h : Doubled c n) : Doubled c (n * 2) := by
  obtain ⟨j, rfl⟩ := h
  exact ⟨j + 1, by rw [pow_succ, mul_assoc]⟩

/-- The next one is the double. -/
theorem two_mul_le (hn : Doubled c n) (hr : Doubled c r) (hlt : n < r) : n * 2 ≤ r := by
  obtain ⟨j, rfl⟩ := hn
  obtain ⟨k, rfl⟩ := hr
  have hexp : j < k := by
    by_contra hle
    have hpow : 2 ^ k ≤ 2 ^ j := Nat.pow_le_pow_right Nat.two_pos (Nat.le_of_not_lt hle)
    have hmul := Nat.mul_le_mul_left c hpow
    omega
  calc c * 2 ^ j * 2 = c * 2 ^ (j + 1) := by rw [pow_succ, mul_assoc]
    _ ≤ c * 2 ^ k := Nat.mul_le_mul_left c (Nat.pow_le_pow_right Nat.two_pos hexp)

/-- Below the double of `r` there is nothing beyond `r`. -/
theorem lt_two_mul_iff (hn : Doubled c n) (hr : Doubled c r) (hpos : 0 < r) :
    n < r * 2 ↔ n ≤ r := by
  constructor
  · intro hlt
    by_contra hgt
    have hdouble := hr.two_mul_le hn (Nat.lt_of_not_le hgt)
    omega
  · omega

/-- A bound by a multiple of `c` is one by the power of two below the factor. -/
theorem le_mul_iff (hn : Doubled c n) {K : ℕ} (hK : 0 < K) :
    n ≤ K * c ↔ n ≤ 2 ^ Nat.log 2 K * c := by
  have hle : 2 ^ Nat.log 2 K ≤ K := Nat.pow_log_le_self 2 hK.ne'
  have hlt : K < 2 ^ Nat.log 2 K * 2 := by
    have hpow := Nat.lt_pow_succ_log_self (Nat.lt_succ_self 1) K
    rwa [pow_succ] at hpow
  constructor
  · intro h
    rcases Nat.eq_zero_or_pos c with rfl | hc
    · exact h
    apply (hn.lt_two_mul_iff (mul_two_pow c (Nat.log 2 K)) (by positivity)).mp
    calc n ≤ K * c := h
      _ < 2 ^ Nat.log 2 K * 2 * c := Nat.mul_lt_mul_of_pos_right hlt hc
      _ = 2 ^ Nat.log 2 K * c * 2 := mul_right_comm _ _ _
  · intro h
    exact h.trans (Nat.mul_le_mul_right c hle)

end Doubled

/-- Double `cap` until `need` fits, at most `fuel` times. -/
def grow (need : ℕ) : ℕ → ℕ → ℕ
  | 0, cap => cap
  | fuel + 1, cap => if need > cap then grow need fuel (cap * 2) else cap

theorem doubled_grow {c cap : ℕ} (need fuel : ℕ) (h : Doubled c cap) :
    Doubled c (grow need fuel cap) := by
  induction fuel generalizing cap with
  | zero => exact h
  | succ fuel ih =>
    rw [grow]
    split
    · exact ih h.double
    · exact h

theorem le_grow (need fuel cap : ℕ) : cap ≤ grow need fuel cap := by
  induction fuel generalizing cap with
  | zero => exact le_rfl
  | succ fuel ih =>
    rw [grow]
    split
    · exact (Nat.le_mul_of_pos_right cap Nat.two_pos).trans (ih (cap * 2))
    · exact le_rfl

/-- Where `need` fits, there is no reason to double. -/
theorem grow_le {c cap r need : ℕ} (hcap : Doubled c cap) (hr : Doubled c r) (hle : cap ≤ r)
    (hneed : need ≤ r) (fuel : ℕ) : grow need fuel cap ≤ r := by
  induction fuel generalizing cap with
  | zero => exact hle
  | succ fuel ih =>
    rw [grow]
    split
    · rename_i hgt
      exact ih hcap.double (hcap.two_mul_le hr (hgt.trans_le hneed))
    · exact hle

end Doubling
