import OfcBenchmark.Benchmark
import OfcBenchmark.MyswitchTheorems

/-!
# The rate of a loop

`runTest` counts over one loop and divides by the time since the start of the test, so it
returns the rate of the loop (`OwnRate`) just when nothing was counted or no time passed
between the two starts (`loops_ownRate_iff`). With a clock that goes on, only nothing counted is
left from the second loop on (`later_loops_ownRate_iff`).
-/

namespace OfcBenchmark
open Runs

/-! ## Times -/

/-- `timersub` subtracts. -/
theorem ms_timersub (a b : Timeval) : (timersub a b).ms = a.ms - b.ms := by
  unfold timersub Timeval.ms
  dsimp only
  split <;>
    · push_cast
      ring

/-! ## One loop -/

/-- The responses counted when the loop of `runTest` ends, in all switches. -/
def responsesCounted (msTestLen delay : ℤ) (env : TestEnv) (s : BenchState) : ℤ :=
  match pollLoop env.start (msTestLen + delay) env.passes s.config s.switches with
  | .ok r => (r.2.map Fakeswitch.count).sum
  | .error _ => 0

/-- How long a loop takes from the start of its `runTest` to its sampling instant, without
the delay. -/
def TestEnv.duration (env : TestEnv) (delay : ℤ) : ℚ := env.sample.ms - env.start.ms - delay

/-- The rate computed in a loop is the number of responses counted in the loop over the time
the loop took. -/
def OwnRate (t : Transition BenchState TestEnv) : Prop :=
  ∃ r, t.post.results = t.pre.results ++ [r] ∧
    r.rate = r.counts.sum / t.event.duration (loopDelay t.pre)

/-- `switchGetCount` returns what was counted. -/
theorem collectCounts_eq {drains : ℕ → List Transfer} {switches switches' : List Fakeswitch}
    {counts : List ℤ} (h : collectCounts drains switches = .ok (counts, switches')) :
    counts = switches.map Fakeswitch.count := by
  induction switches generalizing drains counts switches' with
  | nil =>
    cases h
    rfl
  | cons fs switches ih =>
    obtain ⟨⟨count, fs', pulled⟩, hget, hrest⟩ := bind_eq_ok_iff.mp h
    obtain ⟨⟨counts₁, switches₁⟩, hcollect, heq⟩ := bind_eq_ok_iff.mp hrest
    obtain ⟨r, -, hr⟩ := map_eq_ok_iff.mp hget
    cases heq
    cases hr
    rw [List.map_cons, ih hcollect]

/-- What a loop adds to the results. -/
theorem loopStep_result {msTestLen : ℤ} {tStart : Timeval} {s s' : BenchState} {env : TestEnv}
    (h : LoopStep msTestLen tStart s env s') :
    ∃ r, s'.results = s.results ++ [r] ∧
      r.counts.sum = responsesCounted msTestLen (loopDelay s) env s ∧
      r.rate = r.counts.sum / (env.sample.ms - tStart.ms - loopDelay s) := by
  obtain ⟨r, hrun, heq⟩ := bind_eq_ok_iff.mp h
  obtain ⟨p, hpoll, hrest⟩ := bind_eq_ok_iff.mp hrun
  obtain ⟨c, hcollect, hr⟩ := bind_eq_ok_iff.mp hrest
  cases heq
  cases hr
  refine ⟨_, rfl, ?_, ?_⟩
  · rw [responsesCounted, hpoll]
    exact congrArg List.sum (collectCounts_eq hcollect)
  · rw [← ms_timersub]

/-- A loop gets its own rate exactly if it counted nothing or started with the test. -/
theorem loopStep_ownRate_iff {msTestLen : ℤ} {tStart : Timeval} {s s' : BenchState}
    {env : TestEnv} (h : LoopStep msTestLen tStart s env s') :
    OwnRate ⟨s, env, s'⟩ ↔
      responsesCounted msTestLen (loopDelay s) env s = 0 ∨ env.start.ms = tStart.ms := by
  obtain ⟨r, hresults, hcounts, hrate⟩ := loopStep_result h
  have hiff : OwnRate ⟨s, env, s'⟩ ↔ r.rate = r.counts.sum / env.duration (loopDelay s) := by
    constructor
    · rintro ⟨r', hresults', hrate'⟩
      rw [hresults] at hresults'
      obtain rfl := List.singleton_inj.mp (List.append_cancel_left hresults')
      exact hrate'
    · exact fun hrate' => ⟨r, hresults, hrate'⟩
  rw [hiff, hrate, ← hcounts, TestEnv.duration, div_eq_mul_inv, div_eq_mul_inv,
    mul_eq_mul_left_iff, inv_inj, or_comm, Int.cast_eq_zero]
  refine or_congr Iff.rfl ⟨?_, ?_⟩
  · intro heq
    linarith
  · intro heq
    rw [heq]

/-- The loop of `runTest` ends when the clock is past `total_wait`. -/
theorem exists_pass_of_pollLoop {start : Timeval} {total_wait : ℤ} {passes : List Pass}
    {config : OfpSwitchConfig} {switches : List Fakeswitch}
    {r : OfpSwitchConfig × List Fakeswitch}
    (h : pollLoop start total_wait passes config switches = .ok r) :
    ∃ pass ∈ passes, total_wait < pass.now.ms - start.ms := by
  induction passes generalizing config switches with
  | nil => cases h
  | cons pass passes ih =>
    rw [pollLoop] at h
    split at h
    · rename_i hgt
      rw [ms_timersub] at hgt
      exact ⟨pass, List.mem_cons_self, hgt⟩
    · obtain ⟨r₁, -, hrest⟩ := bind_eq_ok_iff.mp h
      obtain ⟨pass', hmem, hlt⟩ := ih hrest
      exact ⟨pass', List.mem_cons_of_mem pass hmem, hlt⟩

/-! ## The loops of a test -/

section Test

variable (msTestLen delay : ℤ) (tStart : Timeval) (config : OfpSwitchConfig)
  (switches : List Fakeswitch)

/-- In every test, whatever its switches and its loops do, a loop gets its own rate exactly
if it counted nothing or its `runTest` started at the time `tStart`. -/
theorem loops_ownRate_iff (history : List (Transition BenchState TestEnv)) (s' : BenchState)
    (hrun : Run (LoopStep msTestLen tStart) (testStart delay config switches) history s') :
    ∀ t ∈ history, OwnRate t ↔
      responsesCounted msTestLen (loopDelay t.pre) t.event t.pre = 0 ∨
        t.event.start.ms = tStart.ms :=
  fun _ ht => loopStep_ownRate_iff (hrun.step_of_mem ht)

end Test

/-- An iteration of the loop of `runTest` at `ms`, in which each switch reads at most `k`
bytes and writes nothing. -/
def passAt (ms : ℤ) (k : ℕ) : Pass where
  now := ⟨ms / 1000, ms % 1000 * 1000⟩
  io := fun _ => { pollin := 0 < k, pollout := true, read := readUpTo k, write := writeUpTo 0 }

/-- Two loops of 1101 ms, in each of which the switch sends a probe and gets a FLOW_MOD for
it. In the first one it is set up. -/
def equalLoops : List TestEnv :=
  [{ start := ⟨0, 0⟩, passes := [passAt 0 24, passAt 1 0, passAt 2 64, passAt 1001 0]
     sample := ⟨1, 101000⟩, drains := fun _ => [] },
   { start := ⟨1, 101000⟩, passes := [passAt 1101 0, passAt 1102 64, passAt 2102 0]
     sample := ⟨2, 202000⟩, drains := fun _ => [] }]

/-- The state before them. -/
def equalLoopsStart : BenchState :=
  testStart 0 switch_config
    [connectedSwitch .latency (featuresRequest ++ portDescRequest ++ addPortFlow ++ addPortFlow)]

theorem equalLoops_run :
    ∃ history s', Run (LoopStep 1000 ⟨0, 0⟩) equalLoopsStart history s' ∧
      history.map (fun t => t.event.duration (loopDelay t.pre)) = [1101, 1101] ∧
      s'.results.map LoopResult.counts = [[1], [1]] ∧
      s'.results.map LoopResult.rate = [1 / 1101, 1 / 2202] ∧
      history.map (fun t => (responsesCounted 1000 (loopDelay t.pre) t.event t.pre,
        t.event.start)) = [(1, ⟨0, 0⟩), (1, ⟨1, 101000⟩)] := by
  have hfollow : (follow (loopStep 1000 ⟨0, 0⟩) equalLoops equalLoopsStart).map (fun r =>
      (r.1.map (fun t => t.event.duration (loopDelay t.pre)), r.2.results.map LoopResult.counts,
        r.2.results.map LoopResult.rate,
        r.1.map (fun t => (responsesCounted 1000 (loopDelay t.pre) t.event t.pre,
          t.event.start))))
      = .ok ([1101, 1101], [[1], [1]], [1 / 1101, 1 / 2202],
          [(1, ⟨0, 0⟩), (1, ⟨1, 101000⟩)]) := by
    decide +kernel
  obtain ⟨r, hrun, heq⟩ := map_eq_ok_iff.mp hfollow
  simp only [Prod.mk.injEq] at heq
  exact ⟨r.1, r.2, Run.of_follow hrun, heq⟩

/-- The theorem on these two loops. -/
theorem loops_ownRate_iff_equalLoops :
    ∃ history s', Run (LoopStep 1000 ⟨0, 0⟩) equalLoopsStart history s' ∧ history.length = 2 ∧
      ∀ t ∈ history, OwnRate t ↔
        responsesCounted 1000 (loopDelay t.pre) t.event t.pre = 0 ∨
          t.event.start.ms = Timeval.ms ⟨0, 0⟩ := by
  obtain ⟨history, s', hrun, hduration, -⟩ := equalLoops_run
  refine ⟨history, s', hrun, ?_, loops_ownRate_iff _ _ _ _ _ _ _ hrun⟩
  have hlen := congrArg List.length hduration
  rwa [List.length_map] at hlen

/-- Two loops that take the same time and count the same get different rates. -/
theorem not_ownRate_equalLoops :
    ∃ history s', Run (LoopStep 1000 ⟨0, 0⟩) equalLoopsStart history s' ∧
      history.map (fun t => t.event.duration (loopDelay t.pre)) = [1101, 1101] ∧
      s'.results.map LoopResult.counts = [[1], [1]] ∧
      s'.results.map LoopResult.rate = [1 / 1101, 1 / 2202] ∧
      ¬ ∀ t ∈ history, OwnRate t := by
  obtain ⟨history, s', hrun, hduration, hcounts, hrate, hstarts⟩ := equalLoops_run
  refine ⟨history, s', hrun, hduration, hcounts, hrate, ?_⟩
  intro hall
  have hmem : ((1 : ℤ), (⟨1, 101000⟩ : Timeval)) ∈ history.map (fun t =>
      (responsesCounted 1000 (loopDelay t.pre) t.event t.pre, t.event.start)) := by
    rw [hstarts]
    decide
  obtain ⟨t, ht, heq⟩ := List.mem_map.mp hmem
  rw [Prod.mk.injEq] at heq
  obtain ⟨hone, hstart⟩ := heq
  rcases (loopStep_ownRate_iff (hrun.step_of_mem ht)).mp (hall t ht) with h0 | hms
  · rw [hone] at h0
    exact absurd h0 one_ne_zero
  · rw [hstart] at hms
    norm_num [Timeval.ms] at hms

/-! ## The later loops -/

/-- The clock does not go back: neither in a loop nor from one loop to the next. -/
structure ClockAdvances (tStart : Timeval) (envs : List TestEnv) : Prop where
  starts_after : ∀ env ∈ envs, tStart.ms ≤ env.start.ms
  samples_after : ∀ env ∈ envs, ∀ pass ∈ env.passes, pass.now.ms ≤ env.sample.ms
  in_order : envs.Pairwise fun env env' => env.sample.ms ≤ env'.start.ms

/-- With a clock that goes on, every loop but the first gets its own rate only if it counted
nothing. -/
theorem later_loops_ownRate_iff {msTestLen : ℤ} {tStart : Timeval} {s s' : BenchState}
    {first : Transition BenchState TestEnv} {history : List (Transition BenchState TestEnv)}
    (hrun : Run (LoopStep msTestLen tStart) s (first :: history) s')
    (hclock : ClockAdvances tStart ((first :: history).map Transition.event))
    (hwait : 0 ≤ msTestLen + loopDelay s) :
    ∀ t ∈ history, OwnRate t ↔
      responsesCounted msTestLen (loopDelay t.pre) t.event t.pre = 0 := by
  intro t ht
  rw [loopStep_ownRate_iff (hrun.step_of_mem (List.mem_cons_of_mem first ht)),
    or_iff_left_iff_imp]
  intro hstart
  -- the first loop has lasted past its waiting time before the loop of `t` starts
  obtain ⟨pass, hpass, hlt⟩ : ∃ pass ∈ first.event.passes,
      ((msTestLen + loopDelay s : ℤ) : ℚ) < pass.now.ms - first.event.start.ms := by
    cases hrun with
    | cons hfirst _ =>
      obtain ⟨r, hr, -⟩ := bind_eq_ok_iff.mp hfirst
      obtain ⟨p, hpoll, -⟩ := bind_eq_ok_iff.mp hr
      exact exists_pass_of_pollLoop hpoll
  have hmem : first.event ∈ (first :: history).map Transition.event :=
    List.mem_map_of_mem List.mem_cons_self
  have hafter := hclock.starts_after _ hmem
  have hsample := hclock.samples_after _ hmem pass hpass
  have hnext := (List.pairwise_cons.mp hclock.in_order).1 t.event (List.mem_map_of_mem ht)
  have hwait' : (0 : ℚ) ≤ ((msTestLen + loopDelay s : ℤ) : ℚ) := by exact_mod_cast hwait
  linarith

end OfcBenchmark
