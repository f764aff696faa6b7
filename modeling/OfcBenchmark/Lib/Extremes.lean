import Mathlib.Algebra.Order.BigOperators.Group.List
import Mathlib.Algebra.Order.Field.Basic
import Mathlib.Order.Bounds.Basic
import Mathlib.Tactic

/-!
# Running extremes

A minimum and a maximum that are kept while values are seen, one after the other.

* `Bounds.Of.foldl`: they are those of all that was seen, and of what they began with;
* `isLeast_right_iff`, `isGreatest_right_iff`: when they are those of the last values alone;
* `le_mean`, `mean_le`: the mean lies between them.
-/

namespace Extremes

/-- The least and the greatest so far. -/
structure Bounds (α : Type*) where
  min : α
  max : α

section Bounds

variable {α : Type*} [LinearOrder α]

/-- One more value. -/
def Bounds.see (b : Bounds α) (v : α) : Bounds α := ⟨Min.min v b.min, Max.max v b.max⟩

/-- `lows` and `highs` differ in what the two began with. -/
structure Bounds.Of (lows highs : Set α) (b : Bounds α) : Prop where
  least : IsLeast lows b.min
  greatest : IsGreatest highs b.max

variable {lows highs : Set α} {b : Bounds α}

theorem Bounds.Of.see (h : b.Of lows highs) (v : α) :
    (b.see v).Of (insert v lows) (insert v highs) :=
  ⟨h.least.insert v, h.greatest.insert v⟩

theorem Bounds.Of.foldl (h : b.Of lows highs) (vs : List α) :
    (vs.foldl Bounds.see b).Of (lows ∪ {v | v ∈ vs}) (highs ∪ {v | v ∈ vs}) := by
  induction vs generalizing lows highs b with
  | nil => simpa using h
  | cons v vs ih =>
    have hunion (s : Set α) : s ∪ {u | u ∈ v :: vs} = insert v s ∪ {u | u ∈ vs} := by
      ext u
      simp only [Set.mem_union, Set.mem_insert_iff, Set.mem_ofPred_eq, List.mem_cons]
      tauto
    rw [List.foldl_cons, hunion, hunion]
    exact ih (h.see v)

end Bounds

/-! ## Without what was seen before -/

section Right

variable {α : Type*} [PartialOrder α] {before own : Set α} {m : α}

/-- The least of all is the least of its own exactly if some own value is not above any other. -/
theorem isLeast_right_iff (h : IsLeast (before ∪ own) m) :
    IsLeast own m ↔ ∃ v ∈ own, ∀ u ∈ before, v ≤ u := by
  constructor
  · intro hown
    exact ⟨m, hown.1, fun u hu => h.2 (.inl hu)⟩
  · intro hv
    obtain ⟨v, hv, hle⟩ := hv
    have hm : m ∈ own := by
      cases h.1 with
      | inl hbefore =>
        have heq : m = v := le_antisymm (h.2 (.inr hv)) (hle m hbefore)
        rw [heq]
        exact hv
      | inr hown => exact hown
    exact ⟨hm, fun u hu => h.2 (.inr hu)⟩

theorem isGreatest_right_iff (h : IsGreatest (before ∪ own) m) :
    IsGreatest own m ↔ ∃ v ∈ own, ∀ u ∈ before, u ≤ v :=
  isLeast_right_iff (α := αᵒᵈ) h

end Right

/-! ## The mean -/

section Mean

variable {K : Type*} [Field K] [LinearOrder K] [IsStrictOrderedRing K] {vs : List K} {m : K}

/-- The mean. -/
def mean (vs : List K) : K := vs.sum / vs.length

theorem le_mean (hvs : vs ≠ []) (h : ∀ v ∈ vs, m ≤ v) : m ≤ mean vs := by
  have hpos : (0 : K) < vs.length := by exact_mod_cast List.length_pos_of_ne_nil hvs
  have hsum := List.card_nsmul_le_sum vs m h
  rw [nsmul_eq_mul, mul_comm] at hsum
  exact (le_div_iff₀ hpos).mpr hsum

theorem mean_le (hvs : vs ≠ []) (h : ∀ v ∈ vs, v ≤ m) : mean vs ≤ m := by
  have hpos : (0 : K) < vs.length := by exact_mod_cast List.length_pos_of_ne_nil hvs
  have hsum := List.sum_le_card_nsmul vs m h
  rw [nsmul_eq_mul, mul_comm] at hsum
  exact (div_le_iff₀ hpos).mpr hsum

/-- A quotient by something else is the mean only of zeros. -/
theorem div_eq_mean_iff {n : K} (hvs : vs ≠ []) (hn : n ≠ 0) (h : ∀ v ∈ vs, 0 ≤ v) :
    vs.sum / n = mean vs ↔ n = vs.length ∨ ∀ v ∈ vs, v = 0 := by
  have hlength : (vs.length : K) ≠ 0 := by
    exact_mod_cast (List.length_pos_of_ne_nil hvs).ne'
  have hzero : vs.sum = 0 ↔ ∀ v ∈ vs, v = 0 := by
    constructor
    · intro hsum v hv
      exact List.all_zero_of_le_zero_le_of_sum_eq_zero h hsum hv
    · exact List.sum_eq_zero
  unfold mean
  rw [← hzero, div_eq_div_iff hn hlength, mul_eq_mul_left_iff, eq_comm]

end Mean

end Extremes
