import Mathlib.Data.List.Intervals
import OfcBenchmark.BenchmarkReport

/-!
# The results of the tests

How `controllerBenchmarking` in `benchmark.c` makes a row of results out of the loops of each
test: the first pass with `sum`, `min` and `max`, and the second one for the deviation.

Rates are exact rationals; the root of the variance is left to a function `sqrt`. Where the code
reads outside `results`, or what it has not written there, there is no result.
-/

namespace OfcBenchmark
open Printf

/-! ## Which loops count -/

/-- The parameters of `controllerBenchmarking`, with the number of loops to be disregarded at
the start and at the end of a test. -/
structure BenchmarkParams extends ReportParams where
  warmup : BitVec 32
  cooldown : BitVec 32

/-- The values of `j` in `for (j = first; j < limit; j++)`. -/
def indices (first limit : BitVec 32) : List (BitVec 32) :=
  (List.Ico first.toNat limit.toNat).map (BitVec.ofNat 32)

namespace BenchmarkParams

variable (p : BenchmarkParams)

/-- The loops of a test. -/
def loops : List (BitVec 32) := indices 0 p.loopsPerTest

/-- The first pass goes on to the next loop. -/
def disregards (j : BitVec 32) : Bool := j < p.warmup ∨ j ≥ p.loopsPerTest - p.cooldown

/-- The loops that the first pass adds to `sum`. -/
def countedLoops : List (BitVec 32) := p.loops.filter fun j => !p.disregards j

/-- The loops of the second pass. -/
def deviationLoops : List (BitVec 32) := indices p.warmup (p.loopsPerTest - p.cooldown)

/-- `countedTests`, which has a sign. -/
def countedTests : ℤ := (p.loopsPerTest - p.warmup - p.cooldown).toInt

end BenchmarkParams

/-! ## A test -/

/-- `DBL_MAX`. -/
def DBL_MAX : ℚ := (2 ^ 53 - 1) * 2 ^ 971

/-- The variables that live across the tests. An entry of `results` is `none` until it is
written. -/
structure Accumulators where
  results : List (Option ℚ)
  sum : ℚ
  min : ℚ
  max : ℚ
deriving DecidableEq

namespace Accumulators

/-- Before the first switch. -/
def init (p : BenchmarkParams) : Accumulators :=
  ⟨List.replicate p.loopsPerTest.toNat none, 0, DBL_MAX, 0⟩

/-- `results[j] = v`. -/
def store (j : BitVec 32) (v : ℚ) (s : Accumulators) : Accumulators :=
  { s with results := s.results.set j.toNat (some v) }

/-- What a loop that counts adds. -/
def count (v : ℚ) (s : Accumulators) : Accumulators :=
  { s with
    sum := s.sum + v
    max := if v > s.max ∧ v ≠ 0 then v else s.max
    min := if v < s.min then v else s.min }

end Accumulators

/-- What `controllerBenchmarking` passes to `formatResult`. -/
structure ResultCall where
  i : ℕ
  countedTests : ℤ
  min : ℚ
  max : ℚ
  avg : ℚ
  std_dev : ℚ
deriving DecidableEq

/-- The four numbers of the row. -/
def ResultCall.results (call : ResultCall) : TestResults :=
  ⟨.ofRat call.min, .ofRat call.max, .ofRat call.avg, .ofRat call.std_dev⟩

/-- A quotient; by zero it is not a number. -/
def quotient (x : ℚ) (n : ℤ) : Option ℚ := if n = 0 then none else some (x / n)

section Tests

variable (sqrt : ℚ → ℚ) (p : BenchmarkParams)

/-- The body of the first pass, with what `runTest` returns for this loop. -/
def countLoop (runTest : BitVec 32 → ℚ) (s : Accumulators) (j : BitVec 32) : Accumulators :=
  let v := 1000 * runTest j
  let s := s.store j v
  if p.disregards j then s else s.count v

/-- The first pass. -/
def countLoops (runTest : BitVec 32 → ℚ) (s : Accumulators) : Accumulators :=
  p.loops.foldl (countLoop p runTest) s

/-- The body of the second pass. -/
def addDeviation (results : List (Option ℚ)) (avg sum : ℚ) (j : BitVec 32) : Option ℚ := do
  let result ← results[j.toNat]?
  let v ← result
  some (sum + (v - avg) ^ 2)

/-- The second pass. -/
def sumDeviations (results : List (Option ℚ)) (avg : ℚ) : Option ℚ :=
  p.deviationLoops.foldlM (addDeviation results avg) 0

/-- A test after switch `i`, from the first loop to the call of `formatResult`. -/
def runLoops (i : ℕ) (runTest : BitVec 32 → ℚ) (s : Accumulators) :
    Option (ResultCall × Accumulators) := do
  let s := countLoops p runTest s
  let avg ← quotient s.sum p.countedTests
  let sum ← sumDeviations p s.results avg
  let sum ← quotient sum p.countedTests
  some (⟨i, p.countedTests, s.min, s.max, avg, sqrt sum⟩, { s with sum := sum })

/-- The tests after these switches. -/
def runTests (runTest : ℕ → BitVec 32 → ℚ) : List ℕ → Accumulators → Option (List ResultCall)
  | [], _ => some []
  | i :: is, s => do
    let (call, s) ← runLoops sqrt p i (runTest i) { s with sum := 0 }
    let calls ← runTests runTest is s
    some (call :: calls)

/-- The calls of `formatResult` in a run of `controllerBenchmarking`. -/
def resultCalls (runTest : ℕ → BitVec 32 → ℚ) : Option (List ResultCall) :=
  runTests sqrt p runTest (testedSwitches p.toReportParams) (.init p)

end Tests

end OfcBenchmark
