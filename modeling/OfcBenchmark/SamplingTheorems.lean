import OfcBenchmark.StartTheorems

/-!
# How long the controller is sampled

Every worker sets `snmpStop` when it has left its message loop, and none looks at `reported`.
So the SNMP thread samples the controller until the end of the test in those runs in which no
worker leaves its loop before all slaves have reported (`sampling_covers_test`).
-/

namespace OfcBenchmark
open Runs

section Server

variable {n : ℕ}

/-- Every worker has counted a REPORT of its slave. -/
def Server.AllReported (s : Server n) : Prop := ∀ i, 0 < (s.workers i).reports

/-- A worker leaves its message loop only when all slaves have reported. -/
def LeavesAfterReports (t : ServerTransition n) : Prop :=
  ∀ i, t.event = .worker i → (t.pre.workers i).pc = .next →
    (t.pre.workers i).messageReceived = SERVER_MESSAGES → t.pre.AllReported

instance : DecidablePred (LeavesAfterReports (n := n)) := fun t =>
  inferInstanceAs (Decidable (∀ i, t.event = .worker i → (t.pre.workers i).pc = .next →
    (t.pre.workers i).messageReceived = SERVER_MESSAGES → ∀ i, 0 < (t.pre.workers i).reports))

/-- A worker sets `snmpStop`. -/
def SetsStop (t : ServerTransition n) : Prop :=
  ∃ i, t.event = .worker i ∧ (t.pre.workers i).pc = .stop

/-- The SNMP thread samples until the last slave has reported. -/
structure SamplingCoversTest (history : List (ServerTransition n)) (s : Server n) : Prop where
  /-- `snmpStop` is set when all slaves have reported -/
  stop_after : ∀ t ∈ history, SetsStop t → t.pre.AllReported ∧ n ≤ t.pre.reported
  /-- which is when `reported` is `quantity`, if each reports once -/
  reported_eq : ∀ t ∈ history, SetsStop t → (∀ i, (t.pre.workers i).reports ≤ 1) →
    t.pre.reported = n
  /-- and no SNMP thread ends before that -/
  ended_after : (0 < s.snmpEnded → s.AllReported) ∧
    ∀ t ∈ history, 0 < t.pre.snmpEnded → t.pre.AllReported

/-- The worker has left its message loop. -/
def WorkerPc.behindLoop : WorkerPc → Bool
  | .lockStop | .stop | .unlockStop | .joinSnmp | .exited => true
  | _ => false

theorem WorkerPc.hasSock_of_behindLoop {p : WorkerPc} (h : p.behindLoop = true) :
    p.hasSock = true := by
  cases p <;> first | rfl | cases h

/-- What has been reported when `snmpStop` is about to be set, or is. -/
structure SamplingInv (s : Server n) : Prop where
  reported_eq : s.reported = ∑ i, (s.workers i).reports
  behindLoop : ∀ i, (s.workers i).pc.behindLoop = true → s.AllReported
  stop : s.snmpStop = true → s.AllReported
  ended : 0 < s.snmpEnded → s.AllReported

variable {s s' : Server n} {i : Fin n}

theorem Worker.reports_woken (w : Worker) : w.woken.reports = w.reports := by
  unfold Worker.woken
  split <;> rfl

theorem Worker.behindLoop_woken (w : Worker) : w.woken.pc.behindLoop = w.pc.behindLoop := by
  unfold Worker.woken
  split
  case isTrue hpc =>
    rw [hpc]
    rfl
  case isFalse => rfl

theorem WorkerPc.Moves.behindLoop {p q : WorkerPc} (h : p.Moves q) (hq : q.behindLoop = true) :
    p.behindLoop = true := by
  cases h <;> first | rfl | cases hq

namespace NextWorker

variable {w w' : Worker}

theorem reports_le (h : NextWorker s w w') : w.reports ≤ w'.reports := by
  cases h with
  | report => exact Nat.le_succ _
  | _ => exact le_rfl

/-- A worker gets behind its loop by leaving it. -/
theorem behindLoop (h : NextWorker s w w') (hw' : w'.pc.behindLoop = true) :
    w.pc.behindLoop = true ∨ (w.pc = .next ∧ w.messageReceived = SERVER_MESSAGES) := by
  cases h with
  | leave hpc hreceived => exact .inr ⟨hpc, hreceived⟩
  | exit hpc _ => exact .inl (by rw [hpc]; rfl)
  | move hmoves _ => exact .inl (hmoves.behindLoop hw')
  | _ => cases hw'

end NextWorker

namespace Turn

variable {w : Worker}

theorem allReported (h : Turn s s' i w) (hnext : NextWorker s (s.workers i) w)
    (hall : s.AllReported) : s'.AllReported := by
  intro j
  rw [show (s'.workers j).reports = _ from congrFun (h.eq_update Worker.reports_woken) j]
  by_cases hj : j = i
  · rw [hj, Function.update_self]
    exact lt_of_lt_of_le (hall i) hnext.reports_le
  · rw [Function.update_of_ne hj]
    exact hall j

end Turn

/-- The main thread does not touch what has been reported. -/
theorem MainStep.workers {s s' : Server n} (h : MainStep s s') (j : Fin n) :
    (s'.workers j).reports = (s.workers j).reports ∧
      ((s'.workers j).pc.behindLoop = true → (s.workers j).pc.behindLoop = true) := by
  cases h with
  | create hlt _ =>
    show (Function.update s.workers ⟨s.index, hlt⟩ _ j).reports = _ ∧
      ((Function.update s.workers ⟨s.index, hlt⟩ _ j).pc.behindLoop = true → _)
    by_cases hj : j = ⟨s.index, hlt⟩
    · rw [hj, Function.update_self]
      exact ⟨rfl, nofun⟩
    · rw [Function.update_of_ne hj]
      exact ⟨rfl, id⟩
  | _ => exact ⟨rfl, id⟩

theorem MainStep.shared (h : MainStep s s') :
    s'.reported = s.reported ∧ s'.snmpStop = s.snmpStop ∧ s'.snmpEnded = s.snmpEnded := by
  cases h <;> exact ⟨rfl, rfl, rfl⟩

namespace SamplingInv

theorem turn (h : SamplingInv s) {w : Worker} (hturn : Turn s s' i w)
    (hnext : NextWorker s (s.workers i) w)
    (hleave : (s.workers i).pc = .next → (s.workers i).messageReceived = SERVER_MESSAGES →
      s.AllReported) : SamplingInv s' where
  reported_eq := by
    have hsum := hturn.sum_eq Worker.reports_woken
    have hreported := hturn.reported_eq
    have hinv := h.reported_eq
    omega
  behindLoop := fun j hj => by
    refine hturn.allReported hnext ?_
    by_cases hij : j = i
    · rw [hij, hturn.self] at hj
      rcases hnext.behindLoop hj with hbehind | ⟨hpc, hreceived⟩
      · exact h.behindLoop i hbehind
      · exact hleave hpc hreceived
    · refine h.behindLoop j ?_
      rcases hturn.others j hij with hsame | hwoken
      · rwa [hsame] at hj
      · rwa [hwoken, Worker.behindLoop_woken] at hj
  stop := fun hstop => by
    refine hturn.allReported hnext ?_
    rcases hturn.snmpStop hstop with hstop | hpc
    · exact h.stop hstop
    · exact h.behindLoop i (by rw [hpc]; rfl)
  ended := fun hended => by
    rw [hturn.snmpEnded_eq] at hended
    exact hturn.allReported hnext (h.ended hended)

theorem mainStep (h : SamplingInv s) (hstep : MainStep s s') : SamplingInv s' := by
  obtain ⟨hreported, hstop, hended⟩ := hstep.shared
  have hall (hall : s.AllReported) : s'.AllReported := fun j => by
    rw [(hstep.workers j).1]
    exact hall j
  refine ⟨?_, ?_, ?_, ?_⟩
  · rw [hreported, h.reported_eq]
    exact (Finset.sum_congr rfl fun j _ => (hstep.workers j).1).symm
  · intro j hj
    exact hall (h.behindLoop j ((hstep.workers j).2 hj))
  · intro hs
    rw [hstop] at hs
    exact hall (h.stop hs)
  · intro hs
    rw [hended] at hs
    exact hall (h.ended hs)

theorem snmp (h : SamplingInv s) {threads : List SnmpPc}
    (hended : s.snmpEnded < threads.count .ended → s.snmpStop = true) :
    SamplingInv { s with snmp := threads } where
  reported_eq := h.reported_eq
  behindLoop := h.behindLoop
  stop := h.stop
  ended := fun hpos => by
    by_cases hold : 0 < s.snmpEnded
    · exact h.ended hold
    · exact h.stop (hended (lt_of_le_of_lt (Nat.le_of_not_lt hold) hpos))

theorem step (h : SamplingInv s) {e : ServerEvent n} (hstep : ServerStep s e s')
    (hleaves : LeavesAfterReports ⟨s, e, s'⟩) : SamplingInv s' := by
  rcases serverStep_cases hstep with ⟨-, hmain⟩ | ⟨i, w, he, hturn, hnext⟩ | ⟨_, hended, rfl⟩
  · exact h.mainStep hmain
  · exact h.turn hturn hnext fun hpc hreceived => hleaves i (he hpc) hpc hreceived
  · exact h.snmp hended

end SamplingInv

theorem samplingInv_serverStart (param : ℕ) : SamplingInv (serverStart n param) where
  reported_eq := Finset.sum_const_zero.symm
  behindLoop := nofun
  stop := nofun
  ended := nofun

/-- When all have reported, so many reports have been counted; and just so many, if nobody has
reported twice. -/
theorem reported_of_allReported (h : SamplingInv s) (hall : s.AllReported) :
    n ≤ s.reported ∧ ((∀ i, (s.workers i).reports ≤ 1) → s.reported = n) := by
  have hcard : ∑ _i : Fin n, 1 = n := by simp
  rw [h.reported_eq]
  constructor
  · calc n = ∑ _i : Fin n, 1 := hcard.symm
      _ ≤ ∑ i, (s.workers i).reports := Finset.sum_le_sum fun i _ => hall i
  · intro honce
    calc ∑ i, (s.workers i).reports = ∑ _i : Fin n, 1 :=
          Finset.sum_congr rfl fun i _ => le_antisymm (honce i) (hall i)
      _ = n := hcard

/-- If no worker leaves its message loop before all slaves have reported, the controller is
sampled until then. -/
theorem sampling_covers_test {param : ℕ} {history : List (ServerTransition n)}
    (hrun : Run ServerStep (serverStart n param) history s)
    (hleaves : ∀ t ∈ history, LeavesAfterReports t) : SamplingCoversTest history s := by
  have hstep : ∀ (s : Server n) e s', SamplingInv s →
      (LeavesAfterReports ⟨s, e, s'⟩ ∧ ServerStep s e s') → SamplingInv s' :=
    fun s e s' hinv hstep => hinv.step hstep.2 hstep.1
  obtain ⟨hend, hall⟩ := (hrun.restrict hleaves).invariant hstep (samplingInv_serverStart param)
  have hstops (t) (ht : t ∈ history) (hsets : SetsStop t) : t.pre.AllReported := by
    obtain ⟨i, -, hpc⟩ := hsets
    exact (hall t ht).1.behindLoop i (by rw [hpc]; rfl)
  refine ⟨?_, ?_, hend.ended, fun t ht => (hall t ht).1.ended⟩
  · intro t ht hsets
    exact ⟨hstops t ht hsets, (reported_of_allReported (hall t ht).1 (hstops t ht hsets)).1⟩
  · intro t ht hsets
    exact (reported_of_allReported (hall t ht).1 (hstops t ht hsets)).2

end Server

/-- Worker `i` counts a REPORT. -/
def countReport (i : Fin 2) : List (ServerEvent 2) :=
  [.worker i, .receive i .report, .worker i, .worker i, .worker i]

/-- Worker `i` has read the report, sets `snmpStop` and exits. -/
def exitWorker (i : Fin 2) : List (ServerEvent 2) :=
  [.readReport i 100, .worker i, .worker i, .worker i, .worker i, .worker i]

/-- What is left of the counters when the SNMP thread has ended. -/
def sampled (s : Server 2) : ℕ × ℕ := (s.reported, s.snmpEnded)

theorem sampling_covers_test_together :
    ∃ history s, Run ServerStep (serverStart 2 0) history s ∧ sampled s = (2, 1) ∧
      SamplingCoversTest history s := by
  have hend : (runEvents (connectBoth ++ countReport 0 ++ countReport 1 ++ exitWorker 0
      ++ [.snmp 0])).map (fun r => (sampled r.2, r.1.all (LeavesAfterReports ·)))
        = some ((2, 1), true) := by
    decide
  obtain ⟨⟨history, s⟩, hfollow, hs⟩ := Option.map_eq_some_iff.mp hend
  obtain ⟨hsampled, hleaves⟩ := Prod.mk.inj hs
  have hrun : Run ServerStep (serverStart 2 0) history s := Run.of_followSome hfollow
  refine ⟨history, s, hrun, hsampled, sampling_covers_test hrun ?_⟩
  intro t ht
  exact of_decide_eq_true (List.all_eq_true.mp hleaves t ht)

/-- The first slave has reported and the second has not, and the SNMP thread has ended. -/
theorem not_sampling_covers_test_first :
    ∃ history s, Run ServerStep (serverStart 2 0) history s ∧ sampled s = (1, 1) ∧
      ¬ SamplingCoversTest history s := by
  have hend : (runEvents (connectBoth ++ countReport 0 ++ exitWorker 0 ++ [.snmp 0])).map
      (fun r => (sampled r.2, (r.2.workers 1).reports)) = some ((1, 1), 0) := by
    decide
  obtain ⟨⟨history, s⟩, hfollow, hs⟩ := Option.map_eq_some_iff.mp hend
  obtain ⟨hsampled, hreports⟩ := Prod.mk.inj hs
  have hended : s.snmpEnded = 1 := (Prod.mk.inj hsampled).2
  refine ⟨history, s, Run.of_followSome hfollow, hsampled, ?_⟩
  intro hcovers
  have hall := hcovers.ended_after.1 (hended ▸ Nat.one_pos) 1
  exact absurd hreports (Nat.ne_of_gt hall)

end OfcBenchmark
