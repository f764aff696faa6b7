import OfcBenchmark.DeliveryTheorems

/-!
# Regular runs

What holds at every moment of a run in which `param` is written in time and every slave recognises
START_MESSAGE (`Ready.of_run`). The mutex of `myplot.c` is with the worker that reads partials or
results, if there is one, and no slave ends before it has written its report.
-/

namespace OfcBenchmark
open Printf Runs

/-! ## The server -/

section Server

variable {n : ℕ} {s s' : Server n} {i : Fin n}

/-- How far the main thread is. -/
structure MainBound (s : Server n) : Prop where
  accepting : s.main ≠ .plot → (∀ left, s.main ≠ .join left) → s.index < n
  joining : ∀ left, s.main = .join left → s.index = n ∧ left ≤ n
  plotting : s.main = .plot → s.index = n

namespace MainBound

theorem keep (h : MainBound s) (hmain : s'.main = s.main) (hindex : s'.index = s.index) :
    MainBound s' := by
  refine ⟨?_, ?_, ?_⟩
  · rw [hmain, hindex]
    exact h.accepting
  · rw [hmain, hindex]
    exact h.joining
  · rw [hmain, hindex]
    exact h.plotting

theorem serverSide (h : MainBound s) (hstep : OfcBenchmark.serverSide s = some s') :
    MainBound s' := by
  unfold OfcBenchmark.serverSide at hstep
  cases hmain : s.main <;> rw [hmain] at hstep <;> dsimp only at hstep
  case accept => cases hstep
  case plot => cases hstep
  case storeSock | create =>
    split at hstep
    case isTrue hlt =>
      cases hstep
      exact ⟨fun _ _ => hlt, nofun, nofun⟩
    case isFalse => cases hstep
  case storeParam =>
    cases hstep
    exact ⟨fun _ _ => h.accepting (by rw [hmain]; nofun) (by rw [hmain]; nofun), nofun, nofun⟩
  case next =>
    have hlt := h.accepting (by rw [hmain]; nofun) (by rw [hmain]; nofun)
    cases hstep
    by_cases hnext : s.index + 1 < n
    · rw [if_pos hnext]
      exact ⟨fun _ _ => hnext, nofun, nofun⟩
    · rw [if_neg hnext]
      refine ⟨fun _ hjoin => absurd rfl (hjoin n), fun left hleft => ?_, nofun⟩
      cases hleft
      exact ⟨Nat.le_antisymm hlt (Nat.not_lt.mp hnext), le_rfl⟩
  case join left =>
    obtain ⟨hindex, hle⟩ := h.joining left hmain
    cases left with
    | zero =>
      cases hstep
      exact ⟨fun hplot => absurd rfl hplot, nofun, fun _ => hindex⟩
    | succ k =>
      dsimp only at hstep
      split at hstep
      · split at hstep
        · cases hstep
          refine ⟨fun _ hjoin => absurd rfl (hjoin k), fun left hleft => ?_, nofun⟩
          cases hleft
          exact ⟨hindex, Nat.le_of_succ_le hle⟩
        · cases hstep
      · cases hstep

theorem step (h : MainBound s) {e : ServerEvent n} (hstep : ServerStep s e s') : MainBound s' := by
  cases e with
  | accept fd =>
    change s.accept fd = some s' at hstep
    unfold Server.accept at hstep
    split at hstep
    case isTrue hguard =>
      cases hstep
      refine ⟨fun _ _ => h.accepting ?_ ?_, nofun, nofun⟩
      · rw [hguard.1]
        nofun
      · rw [hguard.1]
        nofun
    case isFalse => cases hstep
  | main => exact h.serverSide hstep
  | worker i =>
    obtain ⟨w, hturn, -⟩ := exists_turn_clientManagement hstep
    exact h.keep hturn.main_eq hturn.index_eq
  | receive i m =>
    obtain ⟨-, w, hturn, -⟩ := exists_turn_receive hstep
    exact h.keep hturn.main_eq hturn.index_eq
  | readReport i bytesRead =>
    obtain ⟨-, w, hturn, -⟩ := exists_turn_readReport hstep
    exact h.keep hturn.main_eq hturn.index_eq
  | wakeUp i =>
    obtain ⟨-, w, hturn, -⟩ := exists_turn_wakeUp hstep
    exact h.keep hturn.main_eq hturn.index_eq
  | snmp k =>
    obtain ⟨_, -, rfl⟩ := asynchronousSnmp_frame hstep
    exact h.keep rfl rfl

end MainBound

/-! ### The SNMP threads -/

namespace WorkerPc

/-- Where a worker has set `snmpStop`. -/
def stopped : WorkerPc → Bool
  | .unlockStop | .joinSnmp | .exited => true
  | _ => false

/-- Where it has started its SNMP thread, if it does, and has not yet written START_MESSAGE. -/
def starting : WorkerPc → Bool
  | .unlockConnect | .sendStart => true
  | _ => false

theorem hasSock_of_starting {p : WorkerPc} (h : p.starting = true) : p.hasSock = true := by
  cases p <;> first | rfl | cases h

namespace Moves

variable {p q : WorkerPc}

theorem stopped (h : p.Moves q) (hq : q.stopped = true) : p.stopped = true ∨ p = .stop := by
  cases h <;> first | exact .inl rfl | exact .inr rfl | cases hq

theorem starting (h : p.Moves q) (hp : p.starting = true) : q.starting = true := by
  cases h <;> first | rfl | cases hp

theorem ne_exited (h : p.Moves q) : q ≠ .exited := by
  rintro rfl
  cases h

end Moves

end WorkerPc

/-- A worker and its SNMP thread: it starts one for each START_MESSAGE at most, has the last one in
`snmp_thread`, and exits when that has ended. -/
structure Worker.Samples (n : ℕ) (threads : List SnmpPc) (w : Worker) : Prop where
  threads_le : w.snmpThreads ≤ w.starts + if w.pc.starting then 1 else 0
  thread : 0 < w.snmpThreads → ∃ k, w.snmpThread = some k ∧ k < threads.length
  joined : w.pc = .exited → (w.id : ℤ) = n - 1 → w.snmpThread.bind (threads[·]?) = some .ended

/-- Threads are created, and what has ended does not start again. -/
structure ThreadsGoOn (threads threads' : List SnmpPc) : Prop where
  length_le : threads.length ≤ threads'.length
  ended : ∀ k : ℕ, threads[k]? = some .ended → threads'[k]? = some .ended

namespace ThreadsGoOn

theorem refl (threads : List SnmpPc) : ThreadsGoOn threads threads := ⟨le_rfl, fun _ hk => hk⟩

theorem append (threads more : List SnmpPc) : ThreadsGoOn threads (threads ++ more) where
  length_le := by rw [List.length_append]; exact Nat.le_add_right _ _
  ended := fun k hk => by
    rw [List.getElem?_append_left (List.getElem?_eq_some_iff.mp hk).1, hk]

theorem set (threads : List SnmpPc) (k : ℕ) : ThreadsGoOn threads (threads.set k .ended) where
  length_le := by rw [List.length_set]
  ended := fun j hj => by
    rw [List.getElem?_set]
    split
    case isTrue hk => rw [if_pos (hk ▸ (List.getElem?_eq_some_iff.mp hj).1)]
    case isFalse => exact hj

theorem bind {threads threads' : List SnmpPc} (h : ThreadsGoOn threads threads') {thread : Option ℕ}
    (hthread : thread.bind (threads[·]?) = some .ended) :
    thread.bind (threads'[·]?) = some .ended := by
  obtain ⟨k, rfl, hk⟩ := Option.bind_eq_some_iff.mp hthread
  exact h.ended k hk

end ThreadsGoOn

namespace Worker.Samples

variable {threads threads' : List SnmpPc} {w : Worker}

theorem mono (h : w.Samples n threads) (hthreads : ThreadsGoOn threads threads') :
    w.Samples n threads' where
  threads_le := h.threads_le
  thread := fun hpos => by
    obtain ⟨k, hk, hlt⟩ := h.thread hpos
    exact ⟨k, hk, hlt.trans_le hthreads.length_le⟩
  joined := fun hpc hid => hthreads.bind (h.joined hpc hid)

theorem woken (h : w.Samples n threads) : w.woken.Samples n threads := by
  unfold Worker.woken
  split
  case isTrue hpc =>
    have hle := h.threads_le
    rw [hpc] at hle
    exact ⟨hle, h.thread, nofun⟩
  case isFalse => exact h

/-- What a worker does in a turn. -/
theorem next (h : w.Samples n s.snmp) {w' : Worker} (hnext : NextWorker s w w')
    (hsnmp : (threads = s.snmp ∧ w'.snmpThreads = w.snmpThreads) ∨
      (threads = s.snmp ++ [.sampling] ∧ w'.snmpThreads = w.snmpThreads + 1)) :
    w'.Samples n threads := by
  have hthreads : ThreadsGoOn s.snmp threads := by
    rcases hsnmp with ⟨rfl, -⟩ | ⟨rfl, -⟩
    · exact .refl _
    · exact .append _ _
  have hle := h.threads_le
  have hlater := h.mono hthreads
  cases hnext with
  | startSnmp hpc _ =>
    rw [hpc] at hle
    rcases hsnmp with ⟨-, hsame⟩ | ⟨rfl, -⟩
    · exact absurd hsame (Nat.succ_ne_self _)
    · refine ⟨Nat.succ_le_succ hle, fun _ => ⟨_, rfl, ?_⟩, nofun⟩
      rw [List.length_append]
      exact Nat.lt_succ_self _
  | sendStart hpc =>
    rw [hpc] at hle
    exact ⟨hle, hlater.thread, nofun⟩
  | exit hpc hended =>
    rw [hpc] at hle
    exact ⟨hle, hlater.thread, fun _ hid => hthreads.bind (hended hid)⟩
  | @move pc hmoves _ =>
    refine ⟨hle.trans (Nat.add_le_add_left ?_ _), hlater.thread,
      fun hexited => absurd hexited hmoves.ne_exited⟩
    dsimp only
    by_cases hstarting : w.pc.starting = true
    · rw [if_pos hstarting, if_pos (hmoves.starting hstarting)]
    · rw [if_neg hstarting]
      exact Nat.zero_le _
  | readId hpc | readSock _ hpc | connect hpc | report hpc | readReport _ hpc | leave hpc _ =>
    rw [hpc] at hle
    exact ⟨hle, hlater.thread, nofun⟩

end Worker.Samples

/-- The SNMP threads are those that the workers have started, and whoever is behind the lock at the
end of `clientManagement` has set `snmpStop`. -/
structure SnmpInv (s : Server n) : Prop where
  length_eq : s.snmp.length = ∑ i, (s.workers i).snmpThreads
  samples : ∀ i, (s.workers i).Samples n s.snmp
  stop : ∀ i, (s.workers i).pc.stopped = true → s.snmpStop = true

namespace SnmpInv

theorem turn (h : SnmpInv s) {w : Worker} (hturn : Turn s s' i w)
    (hnext : NextWorker s (s.workers i) w) (hstop : (s.workers i).pc = .stop → s'.snmpStop = true) :
    SnmpInv s' := by
  have hwoken (w : Worker) : w.woken.snmpThreads = w.snmpThreads := by
    unfold Worker.woken
    split <;> rfl
  have hsum := hturn.sum_eq hwoken
  have hlen := h.length_eq
  have hthreads : ThreadsGoOn s.snmp s'.snmp := by
    rcases hturn.snmp_eq with ⟨hsame, -⟩ | ⟨hstarted, -⟩
    · rw [hsame]
      exact .refl _
    · rw [hstarted]
      exact .append _ _
  refine ⟨?_, fun j => ?_, fun j hj => ?_⟩
  · rcases hturn.snmp_eq with ⟨hsnmp, hcount⟩ | ⟨hsnmp, hcount⟩
    · rw [hsnmp]
      omega
    · rw [hsnmp, List.length_append, List.length_singleton]
      omega
  · by_cases hij : j = i
    · rw [hij, hturn.self]
      exact (h.samples i).next hnext hturn.snmp_eq
    · have hsamples := (h.samples j).mono hthreads
      rcases hturn.others j hij with hsame | hwoken
      · rwa [hsame]
      · rw [hwoken]
        exact hsamples.woken
  · by_cases hij : j = i
    · rw [hij, hturn.self] at hj
      cases hnext with
      | move hmoves _ =>
        rcases hmoves.stopped hj with hstopped | hpc
        · exact hturn.snmpStop_mono (h.stop i hstopped)
        · exact hstop hpc
      | exit hpc _ => exact hturn.snmpStop_mono (h.stop i (by rw [hpc]; rfl))
      | _ => cases hj
    · refine hturn.snmpStop_mono (h.stop j ?_)
      rcases hturn.others j hij with hsame | hwoken
      · rwa [hsame] at hj
      · rw [hwoken, Worker.woken] at hj
        split at hj
        case isTrue => cases hj
        case isFalse => exact hj

theorem mainStep (h : SnmpInv s) (hinv : MainInv s) (hstep : MainStep s s') : SnmpInv s' := by
  cases hstep with
  | create hlt hmain =>
    have hnone : (s.workers ⟨s.index, hlt⟩).pc = .none := by
      rw [hinv.created, Server.created, hmain, if_neg (by decide)]
    let w : Worker := { s.workers ⟨s.index, hlt⟩ with pc := .readId }
    have hworkers (j : Fin n) : (Function.update s.workers ⟨s.index, hlt⟩ w j).snmpThreads
        = (s.workers j).snmpThreads := by
      by_cases hj : j = ⟨s.index, hlt⟩
      · rw [hj, Function.update_self]
      · rw [Function.update_of_ne hj]
    refine ⟨h.length_eq.trans (Finset.sum_congr rfl fun j _ => (hworkers j).symm),
      fun j => ?_, fun j hj => ?_⟩
    · show (Function.update s.workers ⟨s.index, hlt⟩ w j).Samples n s.snmp
      by_cases hj : j = ⟨s.index, hlt⟩
      · have hsamples := h.samples ⟨s.index, hlt⟩
        have hle := hsamples.threads_le
        rw [hnone] at hle
        rw [hj, Function.update_self]
        exact ⟨hle, hsamples.thread, fun hpc => by cases hpc⟩
      · rw [Function.update_of_ne hj]
        exact h.samples j
    · change (Function.update s.workers ⟨s.index, hlt⟩ w j).pc.stopped = true at hj
      by_cases hij : j = ⟨s.index, hlt⟩
      · rw [hij, Function.update_self] at hj
        cases hj
      · rw [Function.update_of_ne hij] at hj
        exact h.stop j hj
  | _ => exact ⟨h.length_eq, h.samples, h.stop⟩

theorem step (h : SnmpInv s) (hinv : MainInv s) {e : ServerEvent n} (hstep : ServerStep s e s') :
    SnmpInv s' := by
  cases e with
  | accept fd => exact h.mainStep hinv (mainStep_accept hstep)
  | main => exact h.mainStep hinv (mainStep_serverSide hstep)
  | worker i =>
    obtain ⟨w, hturn, hnext⟩ := exists_turn_clientManagement hstep
    refine h.turn hturn hnext fun hpc => ?_
    rw [ServerStep, runServer, clientManagement, hpc] at hstep
    cases hstep
    rfl
  | receive i m =>
    obtain ⟨hpc, w, hturn, hnext⟩ := exists_turn_receive hstep
    exact h.turn hturn hnext fun hstop => by cases hpc.symm.trans hstop
  | readReport i bytesRead =>
    obtain ⟨hpc, w, hturn, hnext⟩ := exists_turn_readReport hstep
    exact h.turn hturn hnext fun hstop => by cases hpc.symm.trans hstop
  | wakeUp i =>
    obtain ⟨hpc, w, hturn, hnext⟩ := exists_turn_wakeUp hstep
    exact h.turn hturn hnext fun hstop => by cases hpc.symm.trans hstop
  | snmp k =>
    rcases asynchronousSnmp_cases hstep with rfl | ⟨-, -, rfl⟩
    · exact h
    · refine ⟨?_, fun j => (h.samples j).mono (.set s.snmp k), h.stop⟩
      dsimp only
      rw [List.length_set, h.length_eq]

theorem start (param : ℕ) : SnmpInv (serverStart n param) where
  length_eq := Finset.sum_const_zero.symm
  samples := fun _ => ⟨Nat.zero_le _, nofun, nofun⟩
  stop := fun _ => nofun

end SnmpInv

namespace WorkerPc

/-- Where a worker has no step of its own, or has to wait for its SNMP thread. -/
def blocked : WorkerPc → Bool
  | .none | .receive | .wait | .readReport | .joinSnmp | .exited => true
  | _ => false

/-- Where its step needs the mutex. -/
def locks : WorkerPc → Bool
  | .lockConnect | .wake | .lockReport | .lockStop => true
  | _ => false

end WorkerPc

/-- Anywhere else it has one. -/
theorem isSome_clientManagement (hblocked : (s.workers i).pc.blocked = false)
    (hlock : (s.workers i).pc.locks = true → s.lock = none)
    (hid : (s.workers i).pc = .readSock → (s.workers i).id < n) :
    (clientManagement s i).isSome = true := by
  unfold clientManagement
  dsimp only
  cases hpc : (s.workers i).pc <;> rw [hpc] at hblocked hlock hid <;> dsimp only
  case none | receive | wait | readReport | joinSnmp | exited => cases hblocked
  case lockConnect | wake | lockReport | lockStop =>
    rw [Server.take, if_pos (hlock rfl)]
    rfl
  case readSock =>
    rw [dif_pos (hid rfl)]
    rfl
  case check | startSnmp => split <;> rfl
  all_goals rfl

end Server

/-! ## The slaves and the mutex of the plots -/

/-- A slave that writes has something to write. -/
def SlavePc.Writing (pc : SlavePc) : Prop :=
  ∀ left, pc = .sendRequest left ∨ pc = .sendReport left → left ≠ []

namespace SlavePc

theorem Writing.wrote {pc : SlavePc} (h : pc.Writing) (m : ℕ) : (pc.wrote m).Writing := by
  cases pc with
  | sendRequest left' =>
    rw [wrote_sendRequest]
    split
    case isTrue => exact fun _ heq => heq.elim nofun nofun
    case isFalse hne =>
      rintro left (heq | heq) <;> cases heq
      exact hne
  | sendReport left' =>
    rw [wrote_sendReport]
    split
    case isTrue => exact fun _ heq => heq.elim nofun nofun
    case isFalse hne =>
      rintro left (heq | heq) <;> cases heq
      exact hne
  | _ => exact h

theorem writing_gotStart (c behind : Char) : (gotStart c behind).Writing := by
  unfold gotStart
  split <;> exact fun _ heq => heq.elim nofun nofun

end SlavePc

namespace ReportPc

/-- Where a worker has the mutex of `myplot.c`. -/
def holds : ReportPc → Bool
  | .buildGraph call _ => call.type ≠ .values
  | .unlock _ => true
  | _ => false

/-- Only for partials and results it is locked. -/
def ForPlot (pc : ReportPc) : Prop := ∀ call calls, pc = .lock call calls → call.type ≠ .values

theorem holds_next (calls : List GraphCall) : (next calls).holds = false := by
  cases calls with
  | nil => rfl
  | cons call calls =>
    unfold next
    dsimp only
    split
    case isTrue hvalues => exact decide_eq_false (not_not.mpr hvalues)
    case isFalse => rfl

theorem forPlot_buildGraph (call : GraphCall) (calls : List GraphCall) :
    (buildGraph call calls).ForPlot := fun _ _ => nofun

theorem forPlot_environment (numbers : List ℤ) : (environment numbers).ForPlot := fun _ _ => nofun

theorem forPlot_next (calls : List GraphCall) : (next calls).ForPlot := by
  cases calls with
  | nil => exact fun _ _ => nofun
  | cons call calls =>
    unfold next
    dsimp only
    split
    case isTrue => exact fun _ _ => nofun
    case isFalse hne =>
      intro call' calls' heq
      cases heq
      exact hne

/-- Reading does not change who has it. -/
theorem holds_read (quantity : ℕ) (text : Text) (pc : ReportPc) :
    (pc.read quantity text).holds = pc.holds := by
  cases pc with
  | environment numbers =>
    show (learn quantity _).holds = false
    unfold learn
    split
    · exact holds_next _
    · rfl
  | buildGraph call calls =>
    show (if call.type = .values then next calls else .unlock calls).holds
      = decide (call.type ≠ .values)
    split
    case isTrue hvalues =>
      rw [holds_next, decide_eq_false (not_not.mpr hvalues)]
    case isFalse hne => exact (decide_eq_true hne).symm
  | _ => rfl

theorem forPlot_read (quantity : ℕ) (text : Text) {pc : ReportPc} (h : pc.ForPlot) :
    (pc.read quantity text).ForPlot := by
  cases pc with
  | environment numbers =>
    show (learn quantity _).ForPlot
    unfold learn
    split
    · exact forPlot_next _
    · exact fun _ _ => nofun
  | buildGraph call calls =>
    show (if call.type = .values then next calls else .unlock calls).ForPlot
    split
    · exact forPlot_next _
    · exact fun _ _ => nofun
  | _ => exact h

end ReportPc

section Network

variable {n : ℕ} {κ : Type} [DecidableEq κ] {report : κ → Queues}
  {s s' : Network n κ} {e : NetworkEvent n κ} {i : Fin n} {k : κ}

/-- `strcmp` finds a NUL behind the character that was read. -/
def NetworkEvent.zeroBehind : NetworkEvent n κ → Bool
  | .readStart _ behind => behind = '\x00'
  | _ => true

/-- A transition in which `param` is written in time and `strcmp` finds a NUL. -/
def Regularly (t : NetworkTransition n κ) : Prop :=
  NetworkInTime t ∧ t.event.zeroBehind = true

instance : DecidablePred (Regularly (n := n) (κ := κ)) := fun t =>
  inferInstanceAs (Decidable (NetworkInTime t ∧ t.event.zeroBehind = true))

/-- Who has the mutex of `myplot.c`. -/
structure PlotLocked (s : Network n κ) : Prop where
  holds_iff : ∀ i, (s.reading i).holds = true ↔ s.plotLock = some i
  forPlot : ∀ i, (s.reading i).ForPlot

namespace PlotLocked

omit [DecidableEq κ] in
/-- A worker moves on, with the mutex or without. -/
theorem move (h : PlotLocked s) {pc : ReportPc} {plotLock : Option (Fin n)}
    (hforPlot : pc.ForPlot)
    (hholds : ∀ j, (if j = i then pc.holds else (s.reading j).holds) = true ↔ plotLock = some j)
    (hreading : s'.reading = Function.update s.reading i pc) (hlock : s'.plotLock = plotLock) :
    PlotLocked s' := by
  refine ⟨fun j => ?_, fun j => ?_⟩
  · rw [hreading, hlock, ← hholds j]
    by_cases hj : j = i
    · rw [hj, Function.update_self, if_pos rfl]
    · rw [Function.update_of_ne hj, if_neg hj]
  · rw [hreading]
    by_cases hj : j = i
    · rw [hj, Function.update_self]
      exact hforPlot
    · rw [Function.update_of_ne hj]
      exact h.forPlot j

omit [DecidableEq κ] in
/-- It moves on without a change of who has it. -/
theorem keep (h : PlotLocked s) {pc : ReportPc} (hforPlot : pc.ForPlot)
    (hholds : pc.holds = (s.reading i).holds)
    (hreading : s'.reading = Function.update s.reading i pc) (hlock : s'.plotLock = s.plotLock) :
    PlotLocked s' := by
  refine h.move hforPlot (fun j => ?_) hreading hlock
  rw [← h.holds_iff j]
  split
  case isTrue hj => rw [hj, hholds]
  case isFalse => exact Iff.rfl

omit [DecidableEq κ] in
theorem lockPlot (h : PlotLocked s) {call : GraphCall} {calls : List GraphCall}
    (hreading : s.reading i = .lock call calls) (hfree : s.plotLock = none) :
    PlotLocked { s with plotLock := some i
                        reading := Function.update s.reading i (.buildGraph call calls) } := by
  refine h.move (ReportPc.forPlot_buildGraph call calls) (fun j => ?_) rfl rfl
  by_cases hj : j = i
  · rw [hj, if_pos rfl]
    exact ⟨fun _ => rfl, fun _ => decide_eq_true (h.forPlot i call calls hreading)⟩
  · rw [if_neg hj, h.holds_iff, hfree]
    exact ⟨nofun, fun heq => absurd (Option.some.inj heq).symm hj⟩

omit [DecidableEq κ] in
theorem unlockPlot (h : PlotLocked s) {calls : List GraphCall}
    (hreading : s.reading i = .unlock calls) :
    PlotLocked { s with plotLock := none
                        reading := Function.update s.reading i (.next calls) } := by
  have hlock : s.plotLock = some i := (h.holds_iff i).mp (by rw [hreading]; rfl)
  refine h.move (ReportPc.forPlot_next calls) (fun j => ?_) rfl rfl
  by_cases hj : j = i
  · rw [hj, if_pos rfl, ReportPc.holds_next]
    exact ⟨nofun, nofun⟩
  · rw [if_neg hj, h.holds_iff, hlock]
    exact ⟨fun heq => absurd (Option.some.inj heq).symm hj, nofun⟩

theorem step (h : PlotLocked s) (hmove : NetworkMove report s e s') : PlotLocked s' := by
  cases hmove with
  | readText i hslave hto hpc hsize hloop hread =>
    exact h.keep (ReportPc.forPlot_read n _ (h.forPlot i)) (ReportPc.holds_read n _ _) rfl rfl
  | lockPlot i hreading hpc hfree => exact h.lockPlot hreading hfree
  | unlockPlot i hreading hpc => exact h.unlockPlot hreading
  | plotNode i hreading hserver =>
    exact h.keep (ReportPc.forPlot_environment []) (by rw [hreading]; rfl) rfl rfl
  | _ => exact ⟨h.holds_iff, h.forPlot⟩

end PlotLocked

/-! ## What holds at every moment -/

/-- A slave reads nothing but START_MESSAGE. -/
theorem eq_of_toSlave (h : Sessions report s) {c : Char} {rest : Text}
    (hk : s.slaves k = .readStart) (hto : s.toSlave k = c :: rest) : c = '2' := by
  by_cases hserved : ∃ i, s.slaveOf i = some k
  · obtain ⟨i, hi⟩ := hserved
    cases h.stage i k hi with
    | request _ _ _ _ _ _ hnil => cases hnil.symm.trans hto
    | barrier _ _ _ _ _ _ _ hnil => cases hnil.symm.trans hto
    | answered _ _ _ _ _ hslave =>
      rcases hslave with ⟨-, hstart⟩ | hexited
      · cases hstart.symm.trans hto
        rfl
      · cases hk.symm.trans hexited
    | reporting _ _ _ _ _ _ hslave | counted _ _ _ _ _ hslave | reading _ _ _ _ _ hslave
    | done _ _ _ _ _ hslave =>
      change (s.slaves k).started = true at hslave
      rw [hk] at hslave
      cases hslave
  · cases (h.unserved k (not_exists.mp hserved)).toSlave_eq.symm.trans hto

/-- All that holds at every moment. -/
structure Ready (report : κ → Queues) (s : Network n κ) : Prop where
  sessions : Sessions report s
  joined : Joined s.server
  bound : MainBound s.server
  snmp : SnmpInv s.server
  plotLocked : PlotLocked s
  writing : ∀ k, (s.slaves k).Writing
  not_exited : ∀ k, s.slaves k ≠ .exited

namespace Ready

theorem slaves (h : Ready report s) (hmove : NetworkMove report s e s')
    (hzero : e.zeroBehind = true) (k : κ) : (s'.slaves k).Writing ∧ s'.slaves k ≠ .exited := by
  have hupdate {j : κ} {pc : SlavePc} (hpc : pc.Writing ∧ pc ≠ .exited) :
      (Function.update s.slaves j pc k).Writing ∧ Function.update s.slaves j pc k ≠ .exited := by
    by_cases hk : k = j
    · rw [hk, Function.update_self]
      exact hpc
    · rw [Function.update_of_ne hk]
      exact ⟨h.writing k, h.not_exited k⟩
  cases hmove with
  | connect j hj =>
    refine hupdate ⟨fun left heq => ?_, nofun⟩
    rcases heq with heq | heq <;> cases heq
    nofun
  | write j m hpos hle =>
    refine hupdate ⟨(h.writing j).wrote m, ?_⟩
    cases hj : s.slaves j with
    | sendRequest left =>
      rw [SlavePc.wrote_sendRequest]
      split <;> nofun
    | sendReport left =>
      rw [SlavePc.wrote_sendReport]
      split <;> nofun
    | exited => exact absurd hj (h.not_exited j)
    | _ => exact nofun
  | readStart j behind hj hto =>
    refine hupdate ⟨SlavePc.writing_gotStart _ _, ?_⟩
    rw [eq_of_toSlave h.sessions hj hto, show behind = '\x00' from of_decide_eq_true hzero]
    nofun
  | benchmark j hj =>
    refine hupdate ⟨fun left heq => ?_, nofun⟩
    rcases heq with heq | heq <;> cases heq
    nofun
  | _ => exact ⟨h.writing k, h.not_exited k⟩

theorem step (h : Ready report s) (hmove : NetworkMove report s e s')
    (hregularly : Regularly ⟨s, e, s'⟩) : Ready report s' where
  sessions := h.sessions.step hmove hregularly.1
  joined := server_invariant (fun _ _ _ hinv hstep => hinv.step hstep) hmove h.joined
  bound := server_invariant (fun _ _ _ hinv hstep => hinv.step hstep) hmove h.bound
  snmp := by
    rcases server_step hmove with hsame | ⟨e', hserver, -⟩
    · rw [hsame]
      exact h.snmp
    · exact h.snmp.step h.sessions.inOrder.server.regular.1 hserver
  plotLocked := h.plotLocked.step hmove
  writing := fun k => (h.slaves hmove hregularly.2 k).1
  not_exited := fun k => (h.slaves hmove hregularly.2 k).2

omit [DecidableEq κ] in
theorem start (hn : 0 < n) (report : κ → Queues) (param : ℕ) :
    Ready report (networkStart n κ param) where
  sessions := sessions_networkStart report param
  joined := joined_serverStart param
  bound := ⟨fun _ _ => hn, nofun, nofun⟩
  snmp := .start param
  plotLocked := ⟨fun _ => ⟨nofun, nofun⟩, fun _ _ _ => nofun⟩
  writing := fun _ _ heq => heq.elim nofun nofun
  not_exited := fun _ => nofun

theorem of_run (hn : 0 < n) {param : ℕ} {history : List (NetworkTransition n κ)}
    (hrun : Run (NetworkStep report) (networkStart n κ param) history s)
    (hregularly : ∀ t ∈ history, Regularly t) : Ready report s :=
  ((hrun.restrict hregularly).invariant
    (fun _ _ _ h hstep => h.step (networkMove_of_step hstep.2) hstep.1) (start hn report param)).1

omit [DecidableEq κ] in
/-- A worker starts one SNMP thread at most. -/
theorem snmpThreads_le (h : Ready report s) (i : Fin n) :
    (s.server.workers i).snmpThreads ≤ 1 := by
  have hle := (h.snmp.samples i).threads_le
  have hstarts := (delivered_of_sessions h.sessions h.joined).starts_le i
  split at hle
  case isTrue hstarting =>
    obtain ⟨k, hi⟩ := exists_slaveOf h.sessions.inOrder (WorkerPc.hasSock_of_starting hstarting)
    cases h.sessions.stage i k hi with
    | barrier _ _ hzero => exact hle.trans (Nat.succ_le_succ (le_of_eq hzero))
    | request hpc | answered hpc | reporting hpc | counted hpc | reading _ hpc | done _ hpc =>
      change WorkerPc.starting (s.session i k).worker.pc = true at hstarting
      generalize (s.session i k).worker.pc = pc at hpc hstarting
      revert hpc hstarting
      cases pc <;> exact nofun
  case isFalse => exact hle.trans hstarts

omit [DecidableEq κ] in
/-- Only the last worker starts one. -/
theorem length_snmp_le (h : Ready report s) : s.server.snmp.length ≤ 1 := by
  rw [h.snmp.length_eq]
  by_cases hzero : ∀ i, (s.server.workers i).snmpThreads = 0
  · rw [Finset.sum_eq_zero fun i _ => hzero i]
    exact Nat.zero_le 1
  · obtain ⟨i, hi⟩ := not_forall.mp hzero
    have hlast {j : Fin n} (hj : (s.server.workers j).snmpThreads ≠ 0) : (j : ℤ) = n - 1 :=
      (h.sessions.inOrder.server.ok j).snmp (Nat.pos_of_ne_zero hj)
    rw [Finset.sum_eq_single i]
    · exact h.snmpThreads_le i
    · intro j _ hij
      by_contra hj
      have hjlast := hlast hj
      have hilast := hlast hi
      exact hij (Fin.ext (by omega))
    · exact fun hmem => absurd (Finset.mem_univ i) hmem

omit [DecidableEq κ] in
/-- When all workers have exited, no SNMP thread is sampling. -/
theorem not_sampling (h : Ready report s) (hexited : ∀ i, (s.server.workers i).pc = .exited)
    (k : ℕ) : s.server.snmp[k]? ≠ some .sampling := by
  intro hk
  have hlt : k < s.server.snmp.length := (List.getElem?_eq_some_iff.mp hk).1
  have hpos : ∃ i, 0 < (s.server.workers i).snmpThreads := by
    by_contra hnone
    have hzero (i : Fin n) : (s.server.workers i).snmpThreads = 0 :=
      Nat.eq_zero_of_not_pos (not_exists.mp hnone i)
    rw [h.snmp.length_eq, Finset.sum_eq_zero fun i _ => hzero i] at hlt
    exact absurd hlt (Nat.not_lt_zero k)
  obtain ⟨i, hi⟩ := hpos
  have hok := h.sessions.inOrder.server.ok i
  have hid : ((s.server.workers i).id : ℤ) = n - 1 := by
    rw [hok.id_eq (by rw [hexited i]; rfl)]
    exact hok.snmp hi
  obtain ⟨j, hj, hended⟩ :=
    Option.bind_eq_some_iff.mp ((h.snmp.samples i).joined (hexited i) hid)
  have hjlt : j < s.server.snmp.length := (List.getElem?_eq_some_iff.mp hended).1
  have hle := h.length_snmp_le
  obtain rfl : j = k := by omega
  cases hk.symm.trans hended

end Ready

end Network

end OfcBenchmark
