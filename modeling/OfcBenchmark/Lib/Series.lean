import Mathlib.Tactic

/-!
# Series that are joined by position

Several series are filled from one sequence of events, each at the events it selects: the `k`-th
entry of a series comes from the `k`-th event that `p` selects, at `l.findIdxs p`. Joining two of
them row by row up to the end of the first joins what belongs together exactly if the positions of
the first are the beginning of those of the second.

* `findIdxs_isPrefix_iff_of_imp`: where the second selects more than the first, the events it has
  in addition must come last;
* `findIdxs_isPrefix_iff_of_imp'`: where it selects less, it must not miss any.
-/

namespace Series

variable {α : Type*} {p q : α → Bool} {l : List α}

/-- Two series agree up to the end of the first. -/
theorem isPrefix_iff_getElem? {β : Type*} {xs ys : List β} :
    xs <+: ys ↔ xs.length ≤ ys.length ∧ ∀ k < xs.length, ys[k]? = xs[k]? := by
  rw [List.prefix_iff_getElem?]
  constructor
  · intro h
    have hget : ∀ k < xs.length, ys[k]? = xs[k]? := by
      intro k hk
      rw [h k hk, List.getElem?_eq_getElem hk]
    refine ⟨?_, hget⟩
    by_contra hlt
    have hlast := hget ys.length (by omega)
    rw [List.getElem?_eq_none le_rfl, List.getElem?_eq_getElem (by omega)] at hlast
    exact absurd hlast nofun
  · intro ⟨_, hget⟩ k hk
    rw [hget k hk, List.getElem?_eq_getElem hk]

/-- A series that starts later begins with another only if it is empty. -/
theorem findIdxs_succ_isPrefix_cons {s : ℕ} {is : List ℕ} :
    l.findIdxs p (s + 1) <+: s :: is ↔ ∀ x ∈ l, p x = false := by
  rw [← List.findIdxs_eq_nil_iff]
  constructor
  · intro h
    by_contra hne
    obtain ⟨i, is', hcons⟩ := List.exists_cons_of_ne_nil hne
    have hle : s + 1 ≤ i := List.ge_of_mem_findIdxs i (hcons ▸ List.mem_cons_self)
    rw [hcons, List.cons_prefix_cons] at h
    omega
  · intro h
    rw [h]
    exact List.nil_prefix

/-- The second series has all that the first has: what it has in addition comes behind. -/
theorem findIdxs_isPrefix_iff_of_imp {s : ℕ} (h : ∀ x ∈ l, p x = true → q x = true) :
    l.findIdxs p s <+: l.findIdxs q s ↔
      l.Pairwise fun x y => q x = true → p y = true → p x = true := by
  induction l generalizing s with
  | nil => simp
  | cons x l ih =>
    obtain ⟨hx, hl⟩ := List.forall_mem_cons.mp h
    rw [List.findIdxs_cons, List.findIdxs_cons, List.pairwise_cons]
    by_cases hp : p x = true
    · rw [if_pos hp, if_pos (hx hp), List.cons_prefix_cons, ih hl]
      simp [hp]
    · rw [if_neg hp]
      by_cases hq : q x = true
      · rw [if_pos hq, findIdxs_succ_isPrefix_cons]
        constructor
        · intro hnone
          refine ⟨fun y hy _ hpy => absurd hpy (by simp [hnone y hy]), ?_⟩
          apply List.pairwise_of_forall_mem_list
          intro y _ z hz _ hpz
          exact absurd hpz (by simp [hnone z hz])
        · intro ⟨hfirst, _⟩ y hy
          by_contra hpy
          exact hp (hfirst y hy hq (Bool.not_eq_false _ ▸ hpy))
      · rw [if_neg hq, ih hl]
        simp [hq]

/-- The first series has all that the second has: then they must be the same. -/
theorem findIdxs_isPrefix_iff_of_imp' {s : ℕ} (h : ∀ x ∈ l, q x = true → p x = true) :
    l.findIdxs p s <+: l.findIdxs q s ↔ ∀ x ∈ l, p x = true → q x = true := by
  constructor
  · intro hprefix x hx hp
    obtain ⟨i, hi, rfl⟩ := List.getElem_of_mem hx
    have hmem : s + i ∈ l.findIdxs p s := by
      rw [List.mem_findIdxs_iff_getElem_sub_pos]
      simpa [hi] using hp
    have hsub := hprefix.subset hmem
    rw [List.mem_findIdxs_iff_getElem_sub_pos] at hsub
    simpa [hi] using hsub.2
  · intro hall
    apply (findIdxs_isPrefix_iff_of_imp hall).mpr
    apply List.pairwise_of_forall_mem_list
    intro x hx _ _ hq _
    exact h x hx hq

end Series
