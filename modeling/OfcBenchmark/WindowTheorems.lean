import OfcBenchmark.BenchmarkResults

/-!
# The loops that count

`warmup` and `cooldown` are taken off the loops of a test in three places: the first pass skips
loops, the second one begins and ends at their bounds, and `countedTests` is what is left. The
three say the same exactly if something is left (`windowAgrees_iff`).
-/

namespace OfcBenchmark

/-! ## Indices -/

theorem mem_indices {first limit j : BitVec 32} :
    j ∈ indices first limit ↔ first ≤ j ∧ j < limit := by
  unfold indices
  rw [List.mem_map, BitVec.le_def, BitVec.lt_def]
  constructor
  · intro h
    obtain ⟨k, hk, rfl⟩ := h
    have hlimit := limit.isLt
    rw [List.Ico.mem] at hk
    rw [BitVec.toNat_ofNat, Nat.mod_eq_of_lt (by omega)]
    exact hk
  · intro h
    refine ⟨j.toNat, List.Ico.mem.mpr h, ?_⟩
    rw [BitVec.ofNat_toNat, BitVec.setWidth_eq]

theorem length_indices (first limit : BitVec 32) :
    (indices first limit).length = limit.toNat - first.toNat := by
  unfold indices
  rw [List.length_map, List.Ico.length]

/-- Those of them between two other bounds. -/
theorem filter_indices (n first limit : BitVec 32) :
    (indices 0 n).filter (fun j => first ≤ j ∧ j < limit)
      = (List.Ico first.toNat (min n.toNat limit.toNat)).map (BitVec.ofNat 32) := by
  have hbounds : ∀ k ∈ List.Ico 0 n.toNat,
      (decide (first ≤ BitVec.ofNat 32 k ∧ BitVec.ofNat 32 k < limit))
        = (decide (first.toNat ≤ k) && decide (k < limit.toNat)) := by
    intro k hk
    have hlt : k % 2 ^ 32 = k :=
      Nat.mod_eq_of_lt ((List.Ico.mem.mp hk).2.trans n.isLt)
    simp only [BitVec.le_def, BitVec.lt_def, BitVec.toNat_ofNat, hlt, Bool.decide_and]
  unfold indices
  rw [List.filter_map]
  apply congrArg (List.map (BitVec.ofNat 32))
  calc (List.Ico 0 n.toNat).filter
        ((fun j : BitVec 32 => decide (first ≤ j ∧ j < limit)) ∘ BitVec.ofNat 32)
      = (List.Ico 0 n.toNat).filter fun k => decide (first.toNat ≤ k) && decide (k < limit.toNat) :=
        List.filter_congr hbounds
    _ = ((List.Ico 0 n.toNat).filter fun k => k < limit.toNat).filter fun k => first.toNat ≤ k :=
        (List.filter_filter ..).symm
    _ = List.Ico first.toNat (min n.toNat limit.toNat) := by
        rw [List.Ico.filter_lt, List.Ico.filter_le, Nat.max_eq_right (Nat.zero_le _)]

/-! ## The window -/

namespace BenchmarkParams

variable {p : BenchmarkParams}

theorem countedLoops_eq : p.countedLoops
    = (List.Ico p.warmup.toNat (min p.loopsPerTest.toNat
        (p.loopsPerTest - p.cooldown).toNat)).map (BitVec.ofNat 32) := by
  have hcounts (j : BitVec 32) : (!p.disregards j)
      = decide (p.warmup ≤ j ∧ j < p.loopsPerTest - p.cooldown) := by
    unfold disregards
    simp only [← decide_not, not_or, ge_iff_le, BitVec.not_lt, BitVec.not_le]
  unfold countedLoops loops
  simp only [hcounts]
  exact filter_indices _ _ _

theorem toNat_limit (h : p.cooldown ≤ p.loopsPerTest) :
    (p.loopsPerTest - p.cooldown).toNat = p.loopsPerTest.toNat - p.cooldown.toNat :=
  BitVec.toNat_sub_of_le h

/-- Where the end of the window wraps around, it lies behind the last loop. -/
theorem lt_toNat_limit (h : p.loopsPerTest < p.cooldown) :
    p.loopsPerTest.toNat < (p.loopsPerTest - p.cooldown).toNat := by
  have hcooldown := p.cooldown.isLt
  rw [BitVec.lt_def] at h
  rw [BitVec.toNat_sub]
  omega

/-- Both passes go over the same loops. -/
theorem countedLoops_eq_deviationLoops (h : p.cooldown ≤ p.loopsPerTest) :
    p.countedLoops = p.deviationLoops := by
  rw [countedLoops_eq, toNat_limit h, Nat.min_eq_right (Nat.sub_le _ _), ← toNat_limit h]
  rfl

/-- The second pass begins with a loop of the first one and does not end with the last. -/
theorem loopsPerTest_mem_deviationLoops (h : p.loopsPerTest < p.cooldown)
    (hcounted : p.countedLoops ≠ []) : p.loopsPerTest ∈ p.deviationLoops := by
  have hlimit := lt_toNat_limit h
  obtain ⟨j, hj⟩ := List.exists_mem_of_ne_nil _ hcounted
  rw [countedLoops_eq, List.mem_map] at hj
  obtain ⟨k, hk, -⟩ := hj
  rw [List.Ico.mem] at hk
  unfold deviationLoops
  rw [mem_indices, BitVec.le_def, BitVec.lt_def]
  omega

theorem length_countedLoops (h : p.cooldown ≤ p.loopsPerTest) :
    p.countedLoops.length = p.loopsPerTest.toNat - p.cooldown.toNat - p.warmup.toNat := by
  rw [countedLoops_eq_deviationLoops h, deviationLoops, length_indices, toNat_limit h]

/-- What is left, before it gets a sign. -/
theorem toNat_countedTests
    (h : p.warmup.toNat + p.cooldown.toNat ≤ p.loopsPerTest.toNat) :
    (p.loopsPerTest - p.warmup - p.cooldown).toNat
      = p.loopsPerTest.toNat - (p.warmup.toNat + p.cooldown.toNat) := by
  have hloops := p.loopsPerTest.isLt
  rw [BitVec.toNat_sub, BitVec.toNat_sub]
  omega

theorem countedTests_eq (h : p.warmup.toNat + p.cooldown.toNat ≤ p.loopsPerTest.toNat) :
    p.countedTests = if p.loopsPerTest.toNat - (p.warmup.toNat + p.cooldown.toNat) < 2 ^ 31
      then p.loopsPerTest.toNat - (p.warmup.toNat + p.cooldown.toNat : ℤ)
      else p.loopsPerTest.toNat - (p.warmup.toNat + p.cooldown.toNat : ℤ) - 2 ^ 32 := by
  have hloops := p.loopsPerTest.isLt
  unfold countedTests
  rw [BitVec.toInt_eq_toNat_cond, toNat_countedTests h]
  split <;> split <;> omega

end BenchmarkParams

/-- The two passes go over the same loops, `countedTests` is the number of them, it may be
divided by, and nothing is read behind the end of `results`. -/
structure WindowAgrees (p : BenchmarkParams) : Prop where
  same : p.countedLoops = p.deviationLoops
  count : (p.countedLoops.length : ℤ) = p.countedTests
  pos : 0 < p.countedTests
  bounded : ∀ j ∈ p.deviationLoops, j < p.loopsPerTest

/-- The three places agree exactly if `warmup` and `cooldown` leave a loop, and no more of them
than an `int` can count. -/
theorem windowAgrees_iff (p : BenchmarkParams) :
    WindowAgrees p ↔ p.warmup.toNat + p.cooldown.toNat < p.loopsPerTest.toNat ∧
      p.loopsPerTest.toNat - (p.warmup.toNat + p.cooldown.toNat) < 2 ^ 31 := by
  constructor
  · intro h
    have hcounted : p.countedLoops ≠ [] := by
      intro hnil
      have hcount := h.count
      have hpos := h.pos
      rw [hnil, List.length_nil] at hcount
      omega
    have hcooldown : p.cooldown ≤ p.loopsPerTest := by
      rw [← BitVec.not_lt]
      intro hlt
      exact absurd (h.bounded _ (p.loopsPerTest_mem_deviationLoops hlt hcounted))
        (BitVec.lt_irrefl _)
    have hlength := p.length_countedLoops hcooldown
    have hpos := List.length_pos_of_ne_nil hcounted
    have hleft : p.warmup.toNat + p.cooldown.toNat < p.loopsPerTest.toNat := by omega
    have heq := p.countedTests_eq hleft.le
    have hcount := h.count
    refine ⟨hleft, ?_⟩
    rw [heq] at hcount
    split at hcount <;> omega
  · intro h
    obtain ⟨hleft, hint⟩ := h
    have hcooldown : p.cooldown ≤ p.loopsPerTest := by
      rw [BitVec.le_def]
      omega
    have hcount := p.countedTests_eq hleft.le
    rw [if_pos hint] at hcount
    refine ⟨p.countedLoops_eq_deviationLoops hcooldown, ?_, ?_, ?_⟩
    · rw [p.length_countedLoops hcooldown, hcount]
      omega
    · omega
    · intro j hj
      have hlt := (mem_indices.mp hj).2
      rw [BitVec.lt_def, p.toNat_limit hcooldown] at hlt
      rw [BitVec.lt_def]
      omega

/-- One loop with the `warmup` that is used when none is given: no loop is left to divide by. -/
theorem not_windowAgrees_warmupOnly :
    ¬ WindowAgrees ⟨⟨1, 1, .latency, false⟩, 1, 0⟩ := by
  intro h
  exact absurd h.pos (by decide)

end OfcBenchmark
