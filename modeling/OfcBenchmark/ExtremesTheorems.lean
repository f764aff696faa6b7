import OfcBenchmark.Lib.Extremes
import OfcBenchmark.WindowTheorems

/-!
# The extremes of a test

`sum` begins anew with every test, `min` and `max` go on with what they were. So a row of
RESULTS has the extremes of all tests up to its own, and they are those of its own test only
for some orders of rates (`ownExtremes_iff`).
-/

namespace OfcBenchmark
open Extremes

/-! ## The first pass -/

namespace Accumulators

/-- The two that go on from test to test. -/
def bounds (s : Accumulators) : Bounds ℚ := ⟨s.min, s.max⟩

variable {s : Accumulators}

/-- That 0 is not taken for a maximum makes no difference: `max` begins with it. -/
theorem bounds_count (h : 0 ≤ s.max) (v : ℚ) : (s.count v).bounds = s.bounds.see v := by
  have hmin : (s.count v).min = Min.min v s.min := by
    unfold count
    dsimp only
    split
    · rename_i hlt
      exact (min_eq_left hlt.le).symm
    · rename_i hge
      exact (min_eq_right (not_lt.mp hge)).symm
  have hmax : (s.count v).max = Max.max v s.max := by
    unfold count
    dsimp only
    split
    · rename_i hgt
      exact (max_eq_left hgt.1.le).symm
    · rename_i hle
      apply (max_eq_right _).symm
      rw [← not_lt]
      intro hlt
      exact hle ⟨hlt, (h.trans_lt hlt).ne'⟩
  unfold bounds Bounds.see
  rw [hmin, hmax]

end Accumulators

section Loops

variable {p : BenchmarkParams} (runTest : BitVec 32 → ℚ) {s : Accumulators}

/-- The rates of those of the loops that count. -/
def ratesOf (p : BenchmarkParams) (runTest : BitVec 32 → ℚ) (js : List (BitVec 32)) : List ℚ :=
  (js.filter fun j => !p.disregards j).map fun j => 1000 * runTest j

theorem ratesOf_cons (j : BitVec 32) (js : List (BitVec 32)) :
    ratesOf p runTest (j :: js) = if p.disregards j then ratesOf p runTest js
      else 1000 * runTest j :: ratesOf p runTest js := by
  unfold ratesOf
  rw [List.filter_cons]
  cases p.disregards j <;> rfl

theorem sum_countLoop (j : BitVec 32) :
    (countLoop p runTest s j).sum = s.sum + (ratesOf p runTest [j]).sum := by
  rw [ratesOf_cons]
  unfold countLoop
  dsimp only
  split
  · exact (add_zero _).symm
  · exact congrArg (s.sum + ·) (List.sum_singleton ..).symm

theorem sum_foldl_countLoop (js : List (BitVec 32)) :
    (js.foldl (countLoop p runTest) s).sum = s.sum + (ratesOf p runTest js).sum := by
  induction js generalizing s with
  | nil => exact (add_zero _).symm
  | cons j js ih =>
    rw [List.foldl_cons, ih, sum_countLoop, ratesOf_cons, ratesOf_cons]
    split <;> simp [ratesOf, add_assoc]

theorem bounds_countLoop (h : 0 ≤ s.max) (j : BitVec 32) :
    (countLoop p runTest s j).bounds = (ratesOf p runTest [j]).foldl Bounds.see s.bounds := by
  rw [ratesOf_cons]
  unfold countLoop
  dsimp only
  split
  · rfl
  · exact Accumulators.bounds_count h _

theorem bounds_foldl_countLoop (h : 0 ≤ s.max) (js : List (BitVec 32)) :
    (js.foldl (countLoop p runTest) s).bounds
      = (ratesOf p runTest js).foldl Bounds.see s.bounds := by
  induction js generalizing s with
  | nil => rfl
  | cons j js ih =>
    have hbounds := bounds_countLoop (p := p) runTest h j
    have hsplit : ratesOf p runTest (j :: js) = ratesOf p runTest [j] ++ ratesOf p runTest js := by
      rw [ratesOf_cons, ratesOf_cons]
      split <;> rfl
    have hmax : 0 ≤ (countLoop p runTest s j).max := by
      have heq := congrArg Bounds.max hbounds
      rw [ratesOf_cons] at heq
      refine h.trans ?_
      split at heq
      · exact heq.ge
      · exact (le_max_right _ _).trans heq.ge
    rw [List.foldl_cons, ih hmax, hbounds, hsplit, List.foldl_append]

/-- The entry of a loop is its rate when the loop was run, or if it was before. -/
theorem results_countLoop {j k : BitVec 32} (hlt : j.toNat < s.results.length)
    (h : k = j ∨ s.results[j.toNat]? = some (some (1000 * runTest j))) :
    (countLoop p runTest s k).results[j.toNat]? = some (some (1000 * runTest j)) := by
  have hstore : (countLoop p runTest s k).results
      = s.results.set k.toNat (some (1000 * runTest k)) := by
    unfold countLoop
    dsimp only
    split <;> rfl
  rw [hstore]
  by_cases hk : k = j
  · rw [hk, List.getElem?_set_self hlt]
  · have hne : k.toNat ≠ j.toNat := fun heq => hk (BitVec.eq_of_toNat_eq heq)
    rw [List.getElem?_set_ne hne]
    exact h.resolve_left hk

theorem length_countLoop (j : BitVec 32) :
    (countLoop p runTest s j).results.length = s.results.length := by
  unfold countLoop
  dsimp only
  split <;> exact List.length_set

theorem length_foldl_countLoop (js : List (BitVec 32)) :
    (js.foldl (countLoop p runTest) s).results.length = s.results.length := by
  induction js generalizing s with
  | nil => rfl
  | cons j js ih => rw [List.foldl_cons, ih, length_countLoop]

theorem results_foldl_countLoop {j : BitVec 32} (js : List (BitVec 32))
    (hlt : j.toNat < s.results.length)
    (h : j ∈ js ∨ s.results[j.toNat]? = some (some (1000 * runTest j))) :
    (js.foldl (countLoop p runTest) s).results[j.toNat]? = some (some (1000 * runTest j)) := by
  induction js generalizing s with
  | nil => exact h.resolve_left List.not_mem_nil
  | cons k js ih =>
    rw [List.foldl_cons]
    apply ih (by rw [length_countLoop]; exact hlt)
    by_cases hmem : j ∈ js
    · exact .inl hmem
    · right
      apply results_countLoop runTest hlt
      rw [List.mem_cons, or_iff_left hmem] at h
      exact h.imp_left Eq.symm

end Loops

/-! ## The second pass -/

section Deviations

variable {p : BenchmarkParams} {results : List (Option ℚ)} {avg : ℚ}

/-- It adds the squares where all entries can be read. -/
theorem sumDeviations_eq {v : BitVec 32 → ℚ}
    (h : ∀ j ∈ p.deviationLoops, results[j.toNat]? = some (some (v j))) :
    sumDeviations p results avg
      = some (p.deviationLoops.map fun j => (v j - avg) ^ 2).sum := by
  have hfold (js : List (BitVec 32)) (hjs : ∀ j ∈ js, results[j.toNat]? = some (some (v j)))
      (sum : ℚ) : js.foldlM (addDeviation results avg) sum
        = some (sum + (js.map fun j => (v j - avg) ^ 2).sum) := by
    induction js generalizing sum with
    | nil => simp
    | cons j js ih =>
      obtain ⟨hj, hjs⟩ := List.forall_mem_cons.mp hjs
      have hadd : addDeviation results avg sum j = some (sum + (v j - avg) ^ 2) := by
        rw [addDeviation, hj]
        rfl
      rw [List.foldlM_cons, hadd, List.map_cons, List.sum_cons, ← add_assoc]
      exact ih hjs _
  rw [sumDeviations, hfold _ h, zero_add]

/-- Where it has a result, nothing was read behind the end. -/
theorem lt_length_of_sumDeviations {sum : ℚ} (h : sumDeviations p results avg = some sum)
    {j : BitVec 32} (hj : j ∈ p.deviationLoops) : j.toNat < results.length := by
  have hfold (js : List (BitVec 32)) (hmem : j ∈ js) (sum₀ : ℚ)
      (hsum : js.foldlM (addDeviation results avg) sum₀ = some sum) :
      j.toNat < results.length := by
    induction js generalizing sum₀ with
    | nil => exact absurd hmem List.not_mem_nil
    | cons k js ih =>
      rw [List.foldlM_cons] at hsum
      obtain ⟨sum₁, hread, hrest⟩ := Option.bind_eq_some_iff.mp hsum
      by_cases hk : j = k
      · obtain ⟨result, hresult, -⟩ := Option.bind_eq_some_iff.mp hread
        rw [hk]
        exact (List.getElem?_eq_some_iff.mp hresult).1
      · exact ih (List.mem_of_ne_of_mem hk hmem) sum₁ hrest
  exact hfold _ hj 0 h

end Deviations

/-! ## A test -/

section Tests

variable {sqrt : ℚ → ℚ} {p : BenchmarkParams} {s : Accumulators}

/-- The rates of the loops that count. -/
def countedRates (p : BenchmarkParams) (runTest : BitVec 32 → ℚ) : List ℚ :=
  p.countedLoops.map fun j => 1000 * runTest j

/-- The accumulators between two tests: `past` are the rates that were counted so far. -/
structure Accumulators.After (p : BenchmarkParams) (past : Set ℚ) (s : Accumulators) : Prop where
  bounds : s.bounds.Of (insert DBL_MAX past) (insert 0 past)
  length : s.results.length = p.loopsPerTest.toNat

theorem Accumulators.after_init (p : BenchmarkParams) : (init p).After p ∅ := by
  refine ⟨⟨?_, ?_⟩, List.length_replicate⟩
  · rw [insert_empty_eq]
    exact isLeast_singleton
  · rw [insert_empty_eq]
    exact isGreatest_singleton

/-- The row has the extremes of these rates and of those before, and divides the sum of its own
by `countedTests`. -/
structure ResultCall.MadeOf (p : BenchmarkParams) (past : Set ℚ) (rates : List ℚ)
    (call : ResultCall) : Prop where
  bounds : (⟨call.min, call.max⟩ : Bounds ℚ).Of (insert DBL_MAX past ∪ {v | v ∈ rates})
    (insert 0 past ∪ {v | v ∈ rates})
  avg : call.avg = rates.sum / p.countedTests

theorem countedTests_ne_zero (h : p.cooldown ≤ p.loopsPerTest) (hcounted : p.countedLoops ≠ []) :
    p.countedTests ≠ 0 := by
  have hlength := p.length_countedLoops h
  have hpos := List.length_pos_of_ne_nil hcounted
  have hloops := p.loopsPerTest.isLt
  rw [p.countedTests_eq (by omega)]
  split <;> omega

theorem quotient_of_ne_zero {x : ℚ} {n : ℤ} (h : n ≠ 0) : quotient x n = some (x / n) := if_neg h

/-- A test that reads inside `results`. -/
theorem exists_runLoops (sqrt : ℚ → ℚ) {past : Set ℚ} (runTest : BitVec 32 → ℚ)
    (h : p.cooldown ≤ p.loopsPerTest) (hcounted : p.countedLoops ≠ []) (hs : s.After p past)
    (i : ℕ) : ∃ call s', runLoops sqrt p i runTest { s with sum := 0 } = some (call, s') ∧
      call.i = i ∧ call.MadeOf p past (countedRates p runTest) ∧
      s'.After p (past ∪ {v | v ∈ countedRates p runTest}) := by
  have hmax : 0 ≤ s.max := hs.bounds.greatest.2 (Set.mem_insert _ _)
  have hzero := countedTests_ne_zero h hcounted
  have hsum := sum_foldl_countLoop (p := p) runTest (s := { s with sum := 0 }) p.loops
  have hbounds := bounds_foldl_countLoop (p := p) runTest (s := { s with sum := 0 }) hmax p.loops
  have hlength := length_foldl_countLoop (p := p) runTest (s := { s with sum := 0 }) p.loops
  have hresults : ∀ j ∈ p.deviationLoops,
      (p.loops.foldl (countLoop p runTest) { s with sum := 0 }).results[j.toNat]?
        = some (some (1000 * runTest j)) := by
    intro j hj
    rw [← p.countedLoops_eq_deviationLoops h] at hj
    have hloop : j ∈ p.loops := List.mem_of_mem_filter hj
    have hlt : j.toNat < p.loopsPerTest.toNat := (mem_indices.mp hloop).2
    exact results_foldl_countLoop runTest p.loops (hlt.trans_eq hs.length.symm) (.inl hloop)
  unfold runLoops countLoops
  generalize p.loops.foldl (countLoop p runTest) { s with sum := 0 } = s' at *
  have hof : s'.bounds.Of (insert DBL_MAX past ∪ {v | v ∈ countedRates p runTest})
      (insert 0 past ∪ {v | v ∈ countedRates p runTest}) := by
    rw [hbounds]
    exact hs.bounds.foldl _
  simp only [quotient_of_ne_zero hzero, sumDeviations_eq hresults, Option.bind_eq_bind,
    Option.bind_some]
  refine ⟨_, _, rfl, rfl, ⟨hof, ?_⟩, ?_, hlength.trans hs.length⟩
  · rw [hsum, zero_add]
    rfl
  · rw [Set.insert_union, Set.insert_union] at hof
    exact hof

/-- A test with a result has not read behind `results`. -/
theorem cooldown_le_of_runLoops {runTest : BitVec 32 → ℚ} {i : ℕ} {r : ResultCall × Accumulators}
    (hcounted : p.countedLoops ≠ []) (hs : s.results.length = p.loopsPerTest.toNat)
    (h : runLoops sqrt p i runTest s = some r) : p.cooldown ≤ p.loopsPerTest := by
  obtain ⟨avg, -, h⟩ := Option.bind_eq_some_iff.mp h
  obtain ⟨sum, hsum, -⟩ := Option.bind_eq_some_iff.mp h
  rw [← BitVec.not_lt]
  intro hlt
  have hread := lt_length_of_sumDeviations hsum (p.loopsPerTest_mem_deviationLoops hlt hcounted)
  rw [countLoops, length_foldl_countLoop, hs] at hread
  exact lt_irrefl _ hread

end Tests

/-! ## A run -/

/-- The rates that were counted in the tests before that of switch `i`. -/
def ratesBefore (p : BenchmarkParams) (runTest : ℕ → BitVec 32 → ℚ) (is : List ℕ) (i : ℕ) :
    Set ℚ :=
  {v | ∃ i' ∈ is, i' < i ∧ v ∈ countedRates p (runTest i')}

section Runs

variable {sqrt : ℚ → ℚ} {p : BenchmarkParams} {runTest : ℕ → BitVec 32 → ℚ}

/-- With a test in front, its rates come before those of the others. -/
theorem ratesBefore_cons {is : List ℕ} {i k : ℕ} (h : i < k) :
    ratesBefore p runTest (i :: is) k
      = {v | v ∈ countedRates p (runTest i)} ∪ ratesBefore p runTest is k := by
  ext v
  constructor
  · intro hv
    obtain ⟨i', hi', hlt, hv⟩ := hv
    cases List.mem_cons.mp hi' with
    | inl heq =>
      left
      rw [heq] at hv
      exact hv
    | inr hmem => exact .inr ⟨i', hmem, hlt, hv⟩
  · intro hv
    cases hv with
    | inl hown => exact ⟨i, List.mem_cons_self, h, hown⟩
    | inr hrest =>
      obtain ⟨i', hi', hlt, hv⟩ := hrest
      exact ⟨i', List.mem_cons_of_mem i hi', hlt, hv⟩

theorem ratesBefore_self {is : List ℕ} {i : ℕ} (h : ∀ k ∈ is, i < k) :
    ratesBefore p runTest (i :: is) i = ∅ := by
  rw [Set.eq_empty_iff_forall_notMem]
  intro v hv
  obtain ⟨i', hi', hlt, -⟩ := hv
  cases List.mem_cons.mp hi' with
  | inl heq => omega
  | inr hmem => exact lt_asymm hlt (h i' hmem)

/-- Each row has the extremes of its own rates and of all before. -/
theorem exists_runTests (sqrt : ℚ → ℚ) (runTest : ℕ → BitVec 32 → ℚ)
    (h : p.cooldown ≤ p.loopsPerTest) (hcounted : p.countedLoops ≠ [])
    {is : List ℕ} (his : is.Pairwise (· < ·)) {past : Set ℚ} {s : Accumulators}
    (hs : s.After p past) :
    ∃ calls, runTests sqrt p runTest is s = some calls ∧ calls.map ResultCall.i = is ∧
      ∀ call ∈ calls, call.MadeOf p (past ∪ ratesBefore p runTest is call.i)
        (countedRates p (runTest call.i)) := by
  induction is generalizing past s with
  | nil => exact ⟨[], rfl, rfl, fun _ hcall => absurd hcall List.not_mem_nil⟩
  | cons i is ih =>
    obtain ⟨hhead, htail⟩ := List.pairwise_cons.mp his
    obtain ⟨call, s', hrun, hi, hcall, hs'⟩ :=
      exists_runLoops sqrt (runTest i) h hcounted hs i
    obtain ⟨calls, hruns, his', hcalls⟩ := ih htail hs'
    refine ⟨call :: calls, ?_, ?_, ?_⟩
    · rw [runTests, hrun, Option.bind_eq_bind, Option.bind_some]
      dsimp only
      rw [hruns]
      rfl
    · rw [List.map_cons, hi, his']
    · rw [List.forall_mem_cons]
      constructor
      · rw [hi, ratesBefore_self hhead, Set.union_empty]
        exact hcall
      · intro call' hcall'
        have hlt : i < call'.i :=
          hhead _ (his' ▸ List.mem_map_of_mem hcall')
        rw [ratesBefore_cons hlt, ← Set.union_assoc]
        exact hcalls call' hcall'

theorem cooldown_le_of_runTests (hcounted : p.countedLoops ≠ []) {i : ℕ} {is : List ℕ}
    {s : Accumulators} (hs : s.results.length = p.loopsPerTest.toNat) {calls : List ResultCall}
    (h : runTests sqrt p runTest (i :: is) s = some calls) : p.cooldown ≤ p.loopsPerTest := by
  obtain ⟨r, hrun, -⟩ := Option.bind_eq_some_iff.mp h
  exact cooldown_le_of_runLoops (s := { s with sum := 0 }) hcounted hs hrun

theorem pairwise_testedSwitches (p : ReportParams) : (testedSwitches p).Pairwise (· < ·) :=
  List.pairwise_lt_range.filter _

end Runs

/-! ## Rows about their own tests -/

/-- The row has the minimum, the maximum and the mean of these rates. -/
structure ResultCall.IsOwn (rates : List ℚ) (call : ResultCall) : Prop where
  min : IsLeast {v | v ∈ rates} call.min
  max : IsGreatest {v | v ∈ rates} call.max
  avg : call.avg = mean rates
  ordered : call.min ≤ call.avg ∧ call.avg ≤ call.max

/-- There is a row for each test, and it is about the loops that count in this test. -/
def OwnExtremes (sqrt : ℚ → ℚ) (p : BenchmarkParams) (runTest : ℕ → BitVec 32 → ℚ) : Prop :=
  ∃ calls, resultCalls sqrt p runTest = some calls ∧
    calls.map ResultCall.i = testedSwitches p.toReportParams ∧
    ∀ call ∈ calls, call.IsOwn (countedRates p (runTest call.i))

/-- The tests before have left something to find for the test after switch `i`: one of its rates
is not above any of theirs, and one is not below. -/
structure NewExtremes (p : BenchmarkParams) (runTest : ℕ → BitVec 32 → ℚ) (i : ℕ) : Prop where
  min : ∃ v ∈ countedRates p (runTest i), v ≤ DBL_MAX ∧
    ∀ i' ∈ testedSwitches p.toReportParams, i' < i →
      ∀ u ∈ countedRates p (runTest i'), v ≤ u
  max : ∃ v ∈ countedRates p (runTest i),
    ∀ i' ∈ testedSwitches p.toReportParams, i' < i →
      ∀ u ∈ countedRates p (runTest i'), u ≤ v

theorem ResultCall.MadeOf.isOwn_iff {p : BenchmarkParams} {past : Set ℚ} {rates : List ℚ}
    {call : ResultCall} (h : call.MadeOf p past rates) (hrates : rates ≠ [])
    (hcounted : p.countedTests ≠ 0) (hnonneg : ∀ v ∈ rates, 0 ≤ v) :
    call.IsOwn rates ↔ (∃ v ∈ rates, v ≤ DBL_MAX ∧ ∀ u ∈ past, v ≤ u) ∧
      (∃ v ∈ rates, ∀ u ∈ past, u ≤ v) ∧
      (p.countedTests = rates.length ∨ ∀ v ∈ rates, v = 0) := by
  have hmin := isLeast_right_iff h.bounds.least
  have hmax := isGreatest_right_iff h.bounds.greatest
  have havg : call.avg = mean rates ↔ p.countedTests = rates.length ∨ ∀ v ∈ rates, v = 0 := by
    rw [h.avg, div_eq_mean_iff hrates (Int.cast_ne_zero.mpr hcounted) hnonneg]
    norm_cast
  simp only [Set.forall_mem_insert] at hmin hmax
  rw [← havg]
  constructor
  · intro hown
    obtain ⟨v, hv, -, hpast⟩ := hmax.mp hown.max
    exact ⟨hmin.mp hown.min, ⟨v, hv, hpast⟩, hown.avg⟩
  · intro hcond
    obtain ⟨hlow, ⟨v, hv, hpast⟩, heq⟩ := hcond
    have hleast := hmin.mpr hlow
    have hgreatest := hmax.mpr ⟨v, hv, hnonneg v hv, hpast⟩
    refine ⟨hleast, hgreatest, heq, ?_⟩
    rw [heq]
    exact ⟨le_mean hrates fun u hu => hleast.2 hu, mean_le hrates fun u hu => hgreatest.2 hu⟩

theorem mem_ratesBefore {p : BenchmarkParams} {runTest : ℕ → BitVec 32 → ℚ} {is : List ℕ} {i : ℕ}
    {P : ℚ → Prop} : (∀ u ∈ ratesBefore p runTest is i, P u) ↔
      ∀ i' ∈ is, i' < i → ∀ u ∈ countedRates p (runTest i'), P u := by
  constructor
  · intro h i' hi' hlt u hu
    exact h u ⟨i', hi', hlt, hu⟩
  · intro h u hu
    obtain ⟨i', hi', hlt, hu⟩ := hu
    exact h i' hi' hlt u hu

theorem countedTests_eq_length_iff {p : BenchmarkParams} (h : p.cooldown ≤ p.loopsPerTest)
    (hcounted : p.countedLoops ≠ []) (runTest : BitVec 32 → ℚ) :
    p.countedTests = (countedRates p runTest).length ↔
      p.loopsPerTest.toNat - (p.warmup.toNat + p.cooldown.toNat) < 2 ^ 31 := by
  have hlength := p.length_countedLoops h
  have hpos := List.length_pos_of_ne_nil hcounted
  rw [countedRates, List.length_map, hlength, p.countedTests_eq (by omega)]
  split <;> omega

section Rows

variable {sqrt : ℚ → ℚ} {p : BenchmarkParams} {runTest : ℕ → BitVec 32 → ℚ}

theorem countedRates_ne_nil (hcounted : p.countedLoops ≠ []) (runTest : BitVec 32 → ℚ) :
    countedRates p runTest ≠ [] := by
  intro hnil
  exact hcounted (List.map_eq_nil_iff.mp hnil)

theorem countedRates_nonneg {runTest : BitVec 32 → ℚ} (hrates : ∀ j, 0 ≤ runTest j) :
    ∀ v ∈ countedRates p runTest, 0 ≤ v := by
  intro v hv
  obtain ⟨j, -, rfl⟩ := List.mem_map.mp hv
  exact mul_nonneg (by norm_num) (hrates j)

/-- A row of a run is about its own test exactly if the tests before have left it something. -/
theorem ResultCall.MadeOf.isOwn_iff_newExtremes {call : ResultCall}
    (h : call.MadeOf p (ratesBefore p runTest (testedSwitches p.toReportParams) call.i)
      (countedRates p (runTest call.i)))
    (hcooldown : p.cooldown ≤ p.loopsPerTest) (hcounted : p.countedLoops ≠ [])
    (hrates : ∀ i j, 0 ≤ runTest i j) :
    call.IsOwn (countedRates p (runTest call.i)) ↔ NewExtremes p runTest call.i ∧
      (p.loopsPerTest.toNat - (p.warmup.toNat + p.cooldown.toNat) < 2 ^ 31 ∨
        ∀ v ∈ countedRates p (runTest call.i), v = 0) := by
  rw [h.isOwn_iff (countedRates_ne_nil hcounted _) (countedTests_ne_zero hcooldown hcounted)
    (countedRates_nonneg (hrates _)), countedTests_eq_length_iff hcooldown hcounted, ← and_assoc]
  simp only [mem_ratesBefore]
  exact and_congr_left' ⟨fun h => ⟨h.1, h.2⟩, fun h => ⟨h.min, h.max⟩⟩

/-- So is the whole run, where nothing is read behind the loops. -/
theorem ownExtremes_iff_of_cooldown_le (hcooldown : p.cooldown ≤ p.loopsPerTest)
    (hcounted : p.countedLoops ≠ []) (hrates : ∀ i j, 0 ≤ runTest i j) :
    OwnExtremes sqrt p runTest ↔ ∀ i ∈ testedSwitches p.toReportParams, NewExtremes p runTest i ∧
      (p.loopsPerTest.toNat - (p.warmup.toNat + p.cooldown.toNat) < 2 ^ 31 ∨
        ∀ v ∈ countedRates p (runTest i), v = 0) := by
  obtain ⟨calls, hcalls, hi, hmade⟩ := exists_runTests sqrt runTest
    hcooldown hcounted (pairwise_testedSwitches p.toReportParams) (Accumulators.after_init p)
  have hown : OwnExtremes sqrt p runTest ↔
      ∀ call ∈ calls, call.IsOwn (countedRates p (runTest call.i)) := by
    constructor
    · intro h
      obtain ⟨calls', hcalls', -, hown⟩ := h
      rw [Option.some.inj (hcalls.symm.trans hcalls')]
      exact hown
    · intro h
      exact ⟨calls, hcalls, hi, h⟩
  rw [hown, ← hi, List.forall_mem_map]
  apply forall₂_congr
  intro call hcall
  have hmade := hmade call hcall
  rw [Set.empty_union] at hmade
  exact hmade.isOwn_iff_newExtremes hcooldown hcounted hrates

theorem cooldown_le_of_ownExtremes (hcounted : p.countedLoops ≠ [])
    (h : OwnExtremes sqrt p runTest) {i : ℕ} (hi : i ∈ testedSwitches p.toReportParams) :
    p.cooldown ≤ p.loopsPerTest := by
  obtain ⟨calls, hcalls, -⟩ := h
  obtain ⟨i', is, his⟩ := List.exists_cons_of_ne_nil (List.ne_nil_of_mem hi)
  rw [resultCalls, his] at hcalls
  exact cooldown_le_of_runTests hcounted List.length_replicate hcalls

theorem ownExtremes_of_nil (h : testedSwitches p.toReportParams = []) :
    OwnExtremes sqrt p runTest := by
  refine ⟨[], ?_, h.symm, fun _ hcall => absurd hcall List.not_mem_nil⟩
  rw [resultCalls, h]
  rfl

end Rows

/-- The rows are about their own tests exactly if every test has a minimum and a maximum that no
test before it has passed, nothing is read behind the loops, and there are no more of them than
an `int` can count, or nothing but zeros to be divided. -/
theorem ownExtremes_iff (sqrt : ℚ → ℚ) (p : BenchmarkParams) (runTest : ℕ → BitVec 32 → ℚ)
    (hrates : ∀ i j, 0 ≤ runTest i j) (hcounted : p.countedLoops ≠ []) :
    OwnExtremes sqrt p runTest ↔ ∀ i ∈ testedSwitches p.toReportParams,
      p.cooldown ≤ p.loopsPerTest ∧ NewExtremes p runTest i ∧
      (p.loopsPerTest.toNat - (p.warmup.toNat + p.cooldown.toNat) < 2 ^ 31 ∨
        ∀ v ∈ countedRates p (runTest i), v = 0) := by
  by_cases hcooldown : p.cooldown ≤ p.loopsPerTest
  · rw [ownExtremes_iff_of_cooldown_le hcooldown hcounted hrates]
    simp only [hcooldown, true_and]
  · constructor
    · intro h i hi
      exact absurd (cooldown_le_of_ownExtremes hcounted h hi) hcooldown
    · intro h
      apply ownExtremes_of_nil
      rw [List.eq_nil_iff_forall_not_mem]
      intro i hi
      exact hcooldown (h i hi).1

/-- Two tests of two loops each. -/
def twoTests : BenchmarkParams := ⟨⟨2, 2, .latency, true⟩, 0, 0⟩

/-- Rates of 2 and 3 in the first test, and 1 and 4 in the second. -/
def widerSecond (i : ℕ) (j : BitVec 32) : ℚ :=
  if i = 0 then if j = 0 then 2 else 3 else if j = 0 then 1 else 4

theorem ownExtremes_iff_widerSecond : OwnExtremes id twoTests widerSecond := by
  have hnonneg (i : ℕ) (j : BitVec 32) : 0 ≤ widerSecond i j := by
    unfold widerSecond
    split_ifs <;> norm_num
  have hmax : (2000 : ℚ) ≤ DBL_MAX := by
    have hpow : (1 : ℚ) ≤ 2 ^ 971 := one_le_pow₀ one_le_two
    have hlow : (2000 : ℚ) ≤ 2 ^ 53 - 1 := by norm_num
    exact hlow.trans (le_mul_of_one_le_right (by norm_num) hpow)
  have htests : testedSwitches twoTests.toReportParams = [0, 1] := by decide
  have hfirst : countedRates twoTests (widerSecond 0) = [2000, 3000] := by decide +kernel
  have hsecond : countedRates twoTests (widerSecond 1) = [1000, 4000] := by decide +kernel
  rw [ownExtremes_iff id twoTests widerSecond hnonneg (by decide), htests]
  intro i hi
  refine ⟨by decide, ⟨?_, ?_⟩, .inl (by decide)⟩
  · fin_cases hi
    · exact ⟨2000, by simp [hfirst], hmax, by simp [htests]⟩
    · refine ⟨1000, by simp [hsecond], by linarith, ?_⟩
      simp [htests, hfirst]
      norm_num
  · fin_cases hi
    · exact ⟨3000, by simp [hfirst], by simp [htests]⟩
    · refine ⟨4000, by simp [hsecond], ?_⟩
      simp [htests, hfirst]
      norm_num

/-- The second test is faster than the first, and its row has the minimum of the first. -/
theorem not_ownExtremes_fasterSecond :
    ¬ OwnExtremes id twoTests fun i _ => if i = 0 then 1 else 2 := by
  intro h
  obtain ⟨calls, hcalls, -, hown⟩ := h
  have hrows : resultCalls id twoTests (fun i _ => if i = 0 then 1 else 2)
      = some [⟨0, 2, 1000, 1000, 1000, 0⟩, ⟨1, 2, 1000, 2000, 2000, 0⟩] := by decide +kernel
  have hrates : countedRates twoTests (fun _ => 2) = [2000, 2000] := by decide +kernel
  rw [hrows] at hcalls
  cases hcalls
  have hmin := (hown _ (List.mem_cons_of_mem _ List.mem_cons_self)).min.1
  simp [hrates] at hmin

end OfcBenchmark
