import OfcBenchmark.Lib.Runs
import OfcBenchmark.Myswitch

/-!
# The benchmark

`benchmark.c`: `runTest` and the loop over tests of `controllerBenchmarking`. The clock,
`poll` and the system are arguments. Times and rates are exact rationals, where the source
has `double`.

The rows for the report are in `BenchmarkReport.lean`.
-/

namespace OfcBenchmark
open Runs

/-! ## Times -/

/-- A `struct timeval` in ms. -/
def Timeval.ms (t : Timeval) : ℚ := 1000 * t.tv_sec + t.tv_usec / 1000

/-- `timersub`. -/
def timersub (a b : Timeval) : Timeval :=
  let sec := a.tv_sec - b.tv_sec
  let usec := a.tv_usec - b.tv_usec
  if usec < 0 then ⟨sec - 1, usec + 1000000⟩ else ⟨sec, usec⟩

/-! ## One loop -/

/-- An iteration of the loop of `runTest`: the time it starts with, and what `poll` and the
system answer for each switch. -/
structure Pass where
  now : Timeval
  io : ℕ → IoEnv

/-- `ofp13SwitchHandleIo` for each of the tested switches. They share `switch_config`. -/
def handleSwitches : (ℕ → IoEnv) → OfpSwitchConfig → List Fakeswitch →
    Except Halt (OfpSwitchConfig × List Fakeswitch)
  | _, config, [] => .ok (config, [])
  | io, config, fs :: switches => do
    let r ← ofp13SwitchHandleIo (io 0) config fs
    let r' ← handleSwitches (fun i => io (i + 1)) r.1 switches
    .ok (r'.1, r.2.1 :: r'.2)

/-- The loop of `runTest`, begun at the time `start`. When the list is used up before the
clock gets past `total_wait`, the loop goes on forever. -/
def pollLoop (start : Timeval) (total_wait : ℤ) :
    List Pass → OfpSwitchConfig → List Fakeswitch →
    Except Halt (OfpSwitchConfig × List Fakeswitch)
  | [], _, _ => .error .hang
  | pass :: passes, config, switches =>
    if (timersub pass.now start).ms > total_wait then .ok (config, switches)
    else do
      -- `poll` blocks until something is ready; `pass.io` says what is
      let r ← handleSwitches pass.io config switches
      pollLoop start total_wait passes r.1 r.2

/-- `switchGetCount` for each of the tested switches: the counts and the switches. -/
def collectCounts : (ℕ → List Transfer) → List Fakeswitch →
    Except Halt (List ℤ × List Fakeswitch)
  | _, [] => .ok ([], [])
  | drains, fs :: switches => do
    let r ← switchGetCount (drains 0) fs
    let r' ← collectCounts (fun i => drains (i + 1)) switches
    .ok (r.1 :: r'.1, r.2.1 :: r'.2)

/-- What a call of `runTest` finds: the time `then` when it starts, the iterations of its
loop, the time when it samples, and what `switchGetCount` can still read. -/
structure TestEnv where
  start : Timeval
  passes : List Pass
  sample : Timeval
  drains : ℕ → List Transfer

/-- What `runTest` computes: the time since `tStart`, the counts, and the rate it returns. -/
structure LoopResult where
  diff : Timeval
  counts : List ℤ
  rate : ℚ

/-- `runTest` on the switches of the test. -/
def runTest (env : TestEnv) (mstestlen delay : ℤ) (tStart : Timeval) (config : OfpSwitchConfig)
    (switches : List Fakeswitch) :
    Except Halt (LoopResult × OfpSwitchConfig × List Fakeswitch) := do
  let total_wait := mstestlen + delay
  let r ← pollLoop env.start total_wait env.passes config switches
  let diff := timersub env.sample tStart  -- not `env.start`
  let c ← collectCounts env.drains r.2
  let passed := diff.ms - delay  -- don't count the time we intentionally delayed
  .ok (⟨diff, c.1, c.1.sum / passed⟩, r.1, c.2)

/-! ## The loops of a test -/

/-- The state of the loop over tests: `j`, `params->delay`, what the switches share and are,
and what `runTest` computed so far. The array `results` holds 1000 times the rates. -/
structure BenchState where
  j : ℕ
  delay : ℤ
  config : OfpSwitchConfig
  switches : List Fakeswitch
  results : List LoopResult

/-- The state before the first loop. -/
def testStart (delay : ℤ) (config : OfpSwitchConfig) (switches : List Fakeswitch) :
    BenchState where
  j := 0
  delay := delay
  config := config
  switches := switches
  results := []

/-- The delay passed to `runTest`: only delay on the first run. -/
def loopDelay (s : BenchState) : ℤ := if s.j > 0 then 0 else s.delay

/-- An iteration of the loop over tests of `controllerBenchmarking`. `tStart` was taken
before the first one. -/
def loopStep (msTestLen : ℤ) (tStart : Timeval) (env : TestEnv) (s : BenchState) :
    Except Halt BenchState := do
  let delay := loopDelay s
  let r ← runTest env msTestLen delay tStart s.config s.switches
  .ok { j := s.j + 1, delay := delay, config := r.2.1, switches := r.2.2,
        results := s.results ++ [r.1] }

/-- The loops of a test, as steps. -/
def LoopStep (msTestLen : ℤ) (tStart : Timeval) (s : BenchState) (env : TestEnv)
    (s' : BenchState) : Prop :=
  loopStep msTestLen tStart env s = .ok s'

end OfcBenchmark
