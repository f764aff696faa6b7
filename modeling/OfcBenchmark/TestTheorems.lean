import OfcBenchmark.BenchmarkTheorems
import OfcBenchmark.ProbeTheorems

/-!
# The switches of a test

The loops of a test serve the switches in turn, and all of them store their configuration in
`switch_config`. Seen from one switch a test is a run of its own (`loops_runsTo`), in which
the others do no more than change the configuration. What holds of every run of a switch
therefore holds of the counts a test collects from it (`loops_creditLaw`).
-/

namespace OfcBenchmark
open Runs

/-! ## One loop -/

section Loop

variable {config config' : OfpSwitchConfig} {switches switches' : List Fakeswitch} {i : ℕ}
  {fs : Fakeswitch}

/-- A switch sees the others before it and after it change the configuration. -/
theorem handleSwitches_runsTo {io : ℕ → IoEnv}
    (h : handleSwitches io config switches = .ok (config', switches'))
    (hi : switches[i]? = some fs) :
    ∃ fs' ms, switches'[i]? = some fs' ∧ RunsTo ⟨config, fs⟩ ⟨config', fs'⟩ ms 0 := by
  induction switches generalizing io config switches' i with
  | nil => cases hi
  | cons first switches ih =>
    obtain ⟨⟨config₁, first', handled⟩, hio, hrest⟩ := bind_eq_ok_iff.mp h
    obtain ⟨⟨config₂, switches₁⟩, hswitches, heq⟩ := bind_eq_ok_iff.mp hrest
    cases heq
    cases i with
    | zero =>
      cases hi
      exact ⟨first', _, rfl,
        (ofp13SwitchHandleIo_runsTo hio).trans (runsTo_configure config₁ config₂ first')⟩
    | succ i =>
      obtain ⟨fs', ms, hi', hruns⟩ := ih hswitches hi
      exact ⟨fs', _, hi', (runsTo_configure config config₁ fs).trans hruns⟩

theorem pollLoop_runsTo {start : Timeval} {total_wait : ℤ} {passes : List Pass}
    (h : pollLoop start total_wait passes config switches = .ok (config', switches'))
    (hi : switches[i]? = some fs) :
    ∃ fs' ms, switches'[i]? = some fs' ∧ RunsTo ⟨config, fs⟩ ⟨config', fs'⟩ ms 0 := by
  induction passes generalizing config switches fs with
  | nil => cases h
  | cons pass passes ih =>
    rw [pollLoop] at h
    split at h
    · cases h
      exact ⟨fs, [], hi, .refl _⟩
    · obtain ⟨⟨config₁, switches₁⟩, hpass, hrest⟩ := bind_eq_ok_iff.mp h
      obtain ⟨fs₁, ms₁, hi₁, hfirst⟩ := handleSwitches_runsTo hpass hi
      obtain ⟨fs', ms, hi', hlast⟩ := ih hrest hi₁
      exact ⟨fs', _, hi', hfirst.trans hlast⟩

/-- Collecting the count of a switch is a step of that switch. -/
theorem collectCounts_runsTo {drains : ℕ → List Transfer} {counts : List ℤ}
    (h : collectCounts drains switches = .ok (counts, switches')) (hi : switches[i]? = some fs)
    (config : OfpSwitchConfig) :
    ∃ fs', switches'[i]? = some fs' ∧ RunsTo ⟨config, fs⟩ ⟨config, fs'⟩ [] fs.count := by
  induction switches generalizing drains counts switches' i with
  | nil => cases hi
  | cons first switches ih =>
    obtain ⟨⟨count, first', pulled⟩, hget, hrest⟩ := bind_eq_ok_iff.mp h
    obtain ⟨⟨counts₁, switches₁⟩, hcollect, heq⟩ := bind_eq_ok_iff.mp hrest
    cases heq
    cases i with
    | zero =>
      cases hi
      exact ⟨first', rfl, switchGetCount_runsTo hget config⟩
    | succ i =>
      obtain ⟨fs', hi', hruns⟩ := ih hcollect hi
      exact ⟨fs', hi', hruns⟩

/-- A loop of a test is a run of each of its switches, in which the switch reports the count
that goes into the result. -/
theorem runTest_runsTo {env : TestEnv} {mstestlen delay : ℤ} {tStart : Timeval}
    {result : LoopResult}
    (h : runTest env mstestlen delay tStart config switches = .ok (result, config', switches'))
    (hi : switches[i]? = some fs) :
    ∃ fs' ms n, switches'[i]? = some fs' ∧ result.counts[i]? = some n ∧
      RunsTo ⟨config, fs⟩ ⟨config', fs'⟩ ms n := by
  obtain ⟨⟨config₁, switches₁⟩, hpoll, hrest⟩ := bind_eq_ok_iff.mp h
  obtain ⟨⟨counts, switches₂⟩, hcollect, heq⟩ := bind_eq_ok_iff.mp hrest
  cases heq
  obtain ⟨fs₁, ms, hi₁, hfirst⟩ := pollLoop_runsTo hpoll hi
  obtain ⟨fs', hi', hlast⟩ := collectCounts_runsTo hcollect hi₁ config₁
  have hcount : counts[i]? = some fs₁.count := by
    rw [collectCounts_eq hcollect, List.getElem?_map, hi₁]
    rfl
  have hruns := hfirst.trans hlast
  rw [zero_add] at hruns
  exact ⟨fs', _, fs₁.count, hi', hcount, hruns⟩

end Loop

/-! ## The loops of a test -/

/-- The counts collected from switch `i`, over all loops. -/
def countsOf (i : ℕ) (results : List LoopResult) : ℤ :=
  (results.map fun r => r.counts.getD i 0).sum

theorem countsOf_concat {i : ℕ} {r : LoopResult} {n : ℤ} (h : r.counts[i]? = some n)
    (results : List LoopResult) : countsOf i (results ++ [r]) = countsOf i results + n := by
  rw [countsOf, List.map_append, List.sum_append, List.map_singleton, List.sum_singleton,
    List.getD_eq_getElem?_getD, h]
  rfl

section Test

variable {msTestLen : ℤ} {tStart : Timeval} {s s' : BenchState} {i : ℕ} {fs : Fakeswitch}

theorem loopStep_runsTo {env : TestEnv} (h : LoopStep msTestLen tStart s env s')
    (hi : s.switches[i]? = some fs) :
    ∃ fs' ms n, s'.switches[i]? = some fs' ∧ RunsTo ⟨s.config, fs⟩ ⟨s'.config, fs'⟩ ms n ∧
      countsOf i s'.results = countsOf i s.results + n := by
  obtain ⟨⟨result, config', switches'⟩, hrun, heq⟩ := bind_eq_ok_iff.mp h
  cases heq
  obtain ⟨fs', ms, n, hi', hcount, hruns⟩ := runTest_runsTo hrun hi
  exact ⟨fs', ms, n, hi', hruns, countsOf_concat hcount s.results⟩

/-- The loops of a test are a run of each of its switches, in which the switch reports the
counts that go into the results. -/
theorem loops_runsTo {history : List (Transition BenchState TestEnv)}
    (hrun : Run (LoopStep msTestLen tStart) s history s') (hi : s.switches[i]? = some fs) :
    ∃ fs' ms n, s'.switches[i]? = some fs' ∧ RunsTo ⟨s.config, fs⟩ ⟨s'.config, fs'⟩ ms n ∧
      countsOf i s'.results = countsOf i s.results + n := by
  induction hrun generalizing fs with
  | nil s => exact ⟨fs, [], 0, hi, .refl _, (add_zero _).symm⟩
  | cons hfirst _ ih =>
    obtain ⟨fs₁, ms₁, n₁, hi₁, hruns₁, hcounts₁⟩ := loopStep_runsTo hfirst hi
    obtain ⟨fs', ms, n, hi', hruns, hcounts⟩ := ih hi₁
    refine ⟨fs', _, n₁ + n, hi', hruns₁.trans hruns, ?_⟩
    rw [hcounts, hcounts₁, add_assoc]

/-- Whatever the switches of a test and the controller do, a switch that starts with nothing
outstanding and nothing counted makes a run of its own. The counts collected from it are the
counts reported in that run, which obeys the law of credits and, in latency mode, flow
control. -/
theorem loops_creditLaw {history : List (Transition BenchState TestEnv)}
    (hrun : Run (LoopStep msTestLen tStart) s history s') (hi : s.switches[i]? = some fs)
    (hprobe : fs.probeState = 0) (hcount : fs.count = 0) :
    ∃ fs' own, s'.switches[i]? = some fs' ∧
      Run SwitchStep ⟨s.config, fs⟩ own ⟨s'.config, fs'⟩ ∧
      countsOf i s'.results = countsOf i s.results + total countReported own ∧
      CreditLaw own ∧ (fs.mode = .latency → FlowControl own) := by
  obtain ⟨fs', ms, n, hi', ⟨own, hown, -, hn⟩, hcounts⟩ := loops_runsTo hrun hi
  have hown := hown.mono fun _ _ _ => And.right
  refine ⟨fs', own, hi', hown, ?_, run_creditLaw hown hprobe hcount, ?_⟩
  · rw [hcounts, hn]
  · intro hmode
    exact run_flowControl hown ⟨hmode, hprobe.ge, hprobe.le.trans zero_le_one⟩ hprobe

end Test

end OfcBenchmark
