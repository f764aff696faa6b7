import OfcBenchmark.Lib.Barrier
import OfcBenchmark.MyserverTheorems

/-!
# The start barrier

What the workers do with `connected`, `lock` and `sendStart` is a counting barrier
(`barrier_step`), whatever the slaves send. So START_MESSAGE is written only when every worker
has handled a CONNECT_REQUEST, and no worker is left waiting (`start_barrier`).
-/

namespace OfcBenchmark
open Runs

/-- Where a worker is, seen from the barrier. -/
def WorkerPc.phase : WorkerPc → Barrier.Phase
  | .none | .readId | .readSock | .receive | .lockConnect | .lockReport | .readReport | .next
  | .lockStop | .joinSnmp | .exited => .away
  | .connect => .arrive
  | .announce => .announce
  | .check => .check
  | .wait => .wait
  | .wake => .wake
  | .startSnmp | .unlockConnect => .pass
  | .sendStart => .leave
  | .report | .unlockReport | .stop | .unlockStop => .busy

section Server

variable {n : ℕ}

/-- The server, seen as a barrier. -/
def Server.barrier (s : Server n) : Barrier.State (Fin n) where
  count := s.connected
  lock := s.lock
  phase := fun i => (s.workers i).pc.phase
  arrivals := fun i => (s.workers i).connects

variable {s s' : Server n} {i : Fin n}

theorem phase_set (w : Worker) :
    (fun j => ((s.set i w).workers j).pc.phase)
      = Function.update (fun j => (s.workers j).pc.phase) i w.pc.phase := by
  funext j
  exact Function.apply_update (fun _ (w : Worker) => w.pc.phase) s.workers i w j

theorem arrivals_set (w : Worker) :
    (fun j => ((s.set i w).workers j).connects)
      = Function.update (fun j => (s.workers j).connects) i w.connects := by
  funext j
  exact Function.apply_update (fun _ (w : Worker) => w.connects) s.workers i w j

/-- A worker that moves without counting itself in. -/
theorem barrier_set {w : Worker} (h : w.connects = (s.workers i).connects) :
    (s.set i w).barrier = s.barrier.move i w.pc.phase := by
  have hphase := phase_set (s := s) (i := i) w
  have harrivals := arrivals_set (s := s) (i := i) w
  rw [h, Function.update_eq_self] at harrivals
  unfold Server.barrier Barrier.State.move
  rw [hphase, harrivals]
  rfl

/-- A worker that stays where it is, seen from the barrier. -/
theorem barrier_step_stay {w : Worker} (hphase : w.pc.phase = (s.workers i).pc.phase)
    (h : w.connects = (s.workers i).connects) : Barrier.Step s.barrier (s.set i w).barrier := by
  have hmove : s.barrier.move i w.pc.phase = s.barrier := by
    unfold Barrier.State.move
    rw [hphase, show (s.workers i).pc.phase = s.barrier.phase i from rfl, Function.update_eq_self]
  rw [barrier_set h, hmove]
  exact .stay

theorem barrier_step_set {w : Worker} (h : w.connects = (s.workers i).connects)
    (hstep : Barrier.Step s.barrier (s.barrier.move i w.pc.phase)) :
    Barrier.Step s.barrier (s.set i w).barrier := by
  rw [barrier_set h]
  exact hstep

theorem barrier_goto (pc : WorkerPc) : (s.goto i pc).barrier = s.barrier.move i pc.phase :=
  barrier_set rfl

theorem barrier_release (pc : WorkerPc) :
    (s.release i pc).barrier = { s.barrier.move i pc.phase with lock := none } :=
  barrier_goto (s := { s with lock := none }) pc

theorem barrier_take {pc : WorkerPc} (h : s.take i pc = some s') :
    s.lock = none ∧ s'.barrier = { s.barrier.move i pc.phase with lock := some i } := by
  unfold Server.take at h
  split at h
  case isTrue hfree =>
    cases h
    exact ⟨hfree, barrier_goto (s := { s with lock := some i }) pc⟩
  case isFalse => cases h

theorem barrier_broadcast :
    s.broadcast.barrier = { s.barrier with phase := fun j => (s.barrier.phase j).woken } := by
  have hphase (w : Worker) : w.woken.pc.phase = w.pc.phase.woken := by
    unfold Worker.woken
    split
    case isTrue hpc => rw [hpc]; rfl
    case isFalse hpc => cases h : w.pc <;> first | rfl | exact absurd h hpc
  have hconnects (w : Worker) : w.woken.connects = w.connects := by
    unfold Worker.woken
    split <;> rfl
  unfold Server.barrier Server.broadcast
  dsimp only
  congr 1
  · exact funext fun j => hphase (s.workers j)
  · exact funext fun j => hconnects (s.workers j)

theorem barrier_announce :
    ((if s.connected = n then s.broadcast else s).goto i .check).barrier
      = Barrier.State.move
          (if s.barrier.count = Fintype.card (Fin n) then
            { s.barrier with phase := fun j => (s.barrier.phase j).woken }
          else s.barrier) i .check := by
  rw [barrier_goto, Fintype.card_fin, show s.barrier.count = s.connected from rfl]
  split
  · rw [barrier_broadcast]
    rfl
  · rfl

theorem barrier_connect :
    ({ s with connected := s.connected + 1 }.set i { s.workers i with
        pc := .announce, connects := (s.workers i).connects + 1 }).barrier
      = { s.barrier.move i .announce with
          count := s.barrier.count + 1
          arrivals := Function.update s.barrier.arrivals i (s.barrier.arrivals i + 1) } := by
  let w : Worker :=
    { s.workers i with pc := .announce, connects := (s.workers i).connects + 1 }
  have hphase := phase_set (s := { s with connected := s.connected + 1 }) (i := i) w
  have harrivals := arrivals_set (s := { s with connected := s.connected + 1 }) (i := i) w
  unfold Server.barrier Barrier.State.move
  rw [hphase, harrivals]
  rfl

/-- A step of a worker is one of the barrier. -/
theorem barrier_step_clientManagement (h : clientManagement s i = some s') :
    Barrier.Step s.barrier s'.barrier := by
  unfold clientManagement at h
  dsimp only at h
  have hphase : s.barrier.phase i = (s.workers i).pc.phase := rfl
  cases hpc : (s.workers i).pc <;> rw [hpc] at h hphase <;> dsimp only at h
  case none | receive | wait | readReport | exited => cases h
  case readId =>
    cases h
    exact barrier_step_stay (by rw [hpc]; rfl) rfl
  case readSock =>
    split at h
    · cases h
      exact barrier_step_stay (by rw [hpc]; rfl) rfl
    · cases h
  case lockConnect =>
    obtain ⟨hfree, hbarrier⟩ := barrier_take h
    rw [hbarrier]
    exact .enter i hphase hfree
  case connect =>
    cases h
    rw [barrier_connect]
    exact .count i hphase
  case announce =>
    cases h
    rw [barrier_announce]
    exact .announce i hphase
  case check =>
    split at h
    case isTrue hlt =>
      cases h
      rw [barrier_release]
      exact .wait i hphase (by rwa [Fintype.card_fin])
    case isFalse hle =>
      cases h
      rw [barrier_goto]
      exact .pass i hphase (by rw [Fintype.card_fin]; exact Nat.not_lt.mp hle)
  case wake =>
    obtain ⟨hfree, hbarrier⟩ := barrier_take h
    rw [hbarrier]
    exact .relock i hphase hfree
  case startSnmp =>
    split at h
    · cases h
      exact barrier_step_stay (s := { s with snmp := s.snmp ++ [.sampling] })
        (by dsimp only; rw [hpc]; rfl) rfl
    · cases h
      exact barrier_step_stay (by rw [hpc]; rfl) rfl
  case unlockConnect =>
    cases h
    rw [barrier_release]
    exact .leave i hphase
  case sendStart =>
    cases h
    exact barrier_step_set rfl (.goOn i hphase)
  case lockReport =>
    obtain ⟨hfree, hbarrier⟩ := barrier_take h
    rw [hbarrier]
    exact .borrow i hphase hfree
  case report =>
    cases h
    exact barrier_step_stay (s := { s with reported := s.reported + 1 })
      (by dsimp only; rw [hpc]; rfl) rfl
  case unlockReport =>
    cases h
    rw [barrier_release]
    exact .giveBack i hphase
  case next =>
    cases h
    refine barrier_step_stay ?_ rfl
    dsimp only
    rw [hpc]
    split <;> rfl
  case lockStop =>
    obtain ⟨hfree, hbarrier⟩ := barrier_take h
    rw [hbarrier]
    exact .borrow i hphase hfree
  case stop =>
    cases h
    exact barrier_step_stay (s := { s with snmpStop := true }) (by dsimp only; rw [hpc]; rfl) rfl
  case unlockStop =>
    cases h
    rw [barrier_release]
    exact .giveBack i hphase
  case joinSnmp =>
    split at h
    · split at h
      · cases h
        exact barrier_step_stay (by rw [hpc]; rfl) rfl
      · cases h
    · cases h
      exact barrier_step_stay (by rw [hpc]; rfl) rfl

/-- The main thread has no part in the barrier. -/
theorem barrier_step_mainStep (hinv : MainInv s) (h : MainStep s s') :
    Barrier.Step s.barrier s'.barrier := by
  cases h with
  | create hlt hmain =>
    have hnone : (s.workers ⟨s.index, hlt⟩).pc = .none := by
      rw [hinv.created, Server.created, hmain, if_neg (by decide)]
    exact barrier_step_stay (s := { s with main := .next }) (by dsimp only; rw [hnone]; rfl) rfl
  | _ => exact .stay

/-- Every step of the server is a step of the barrier. -/
theorem barrier_step (hinv : MainInv s) {e : ServerEvent n} (h : ServerStep s e s') :
    Barrier.Step s.barrier s'.barrier := by
  cases e with
  | worker i => exact barrier_step_clientManagement h
  | receive i m =>
    change s.receive i m = some s' at h
    unfold Server.receive at h
    split at h
    case isTrue hpc =>
      cases m <;> cases h <;> exact barrier_step_stay (by rw [hpc]; rfl) rfl
    case isFalse => cases h
  | readReport i bytesRead =>
    change s.readReport i bytesRead = some s' at h
    unfold Server.readReport at h
    dsimp only at h
    split at h
    case isTrue hpc =>
      cases h
      exact barrier_step_stay (by rw [hpc]; rfl) rfl
    case isFalse => cases h
  | wakeUp i =>
    change s.wakeUp i = some s' at h
    unfold Server.wakeUp at h
    split at h
    case isTrue hpc =>
      cases h
      rw [barrier_goto]
      exact .wakeUp i (congrArg WorkerPc.phase hpc)
    case isFalse => cases h
  | accept fd => exact barrier_step_mainStep hinv (mainStep_accept h)
  | main => exact barrier_step_mainStep hinv (mainStep_serverSide h)
  | snmp k =>
    obtain ⟨_, -, rfl⟩ := asynchronousSnmp_frame h
    exact .stay

/-! ## The barrier holds -/

/-- Worker `i` writes START_MESSAGE. -/
def WritesStart (i : Fin n) (t : ServerTransition n) : Prop :=
  t.event = .worker i ∧ (t.pre.workers i).pc = .sendStart

/-- A worker is about to broadcast `sendStart`. -/
def Server.AboutToBroadcast (s : Server n) : Prop :=
  ∃ i, (s.workers i).pc = .announce ∧ s.connected = n

/-- When all workers have counted a CONNECT_REQUEST, none waits without a broadcast to come. -/
def Server.NoneLeftWaiting (s : Server n) : Prop :=
  (∀ i, 0 < (s.workers i).connects) → ∀ i, (s.workers i).pc = .wait → s.AboutToBroadcast

/-- The start barrier: START_MESSAGE is written only when all workers have counted a
CONNECT_REQUEST, and nobody is left waiting for it. -/
structure StartBarrier (history : List (ServerTransition n)) (s : Server n) : Prop where
  start_after : ∀ t ∈ history, ∀ i, WritesStart i t → ∀ j, 0 < (t.pre.workers j).connects
  noneLeftWaiting : s.NoneLeftWaiting ∧ ∀ t ∈ history, t.pre.NoneLeftWaiting

theorem noneLeftWaiting_of_inv (h : Barrier.Inv s.barrier) : s.NoneLeftWaiting := by
  intro hall i hi
  obtain ⟨j, hj, hcount⟩ := h.wakeup hall i (congrArg WorkerPc.phase hi)
  rw [Fintype.card_fin] at hcount
  refine ⟨j, ?_, hcount⟩
  change (s.workers j).pc.phase = .announce at hj
  cases hpc : (s.workers j).pc <;> rw [hpc] at hj <;> first | rfl | cases hj

/-- Whatever the slaves send and in whatever order the threads run. -/
theorem start_barrier {param : ℕ} {history : List (ServerTransition n)}
    (hrun : Run ServerStep (serverStart n param) history s) : StartBarrier history s := by
  have hstep : ∀ (s : Server n) e s', (MainInv s ∧ Barrier.Inv s.barrier) → ServerStep s e s' →
      MainInv s' ∧ Barrier.Inv s'.barrier := by
    rintro s e s' ⟨hmain, hinv⟩ hstep
    exact ⟨hmain.step hstep, hinv.step (barrier_step hmain hstep)⟩
  obtain ⟨⟨-, hend⟩, hall⟩ :=
    hrun.invariant hstep ⟨mainInv_serverStart param, Barrier.inv_start⟩
  refine ⟨?_, noneLeftWaiting_of_inv hend,
    fun t ht => noneLeftWaiting_of_inv (hall t ht).1.2⟩
  intro t ht i hwrites
  have hpast : (t.pre.barrier.phase i).past = true := by
    show ((t.pre.workers i).pc.phase).past = true
    rw [hwrites.2]
    rfl
  exact (hall t ht).1.2.all_arrived i hpast

end Server

theorem start_barrier_connectBoth :
    ∃ history s, Run ServerStep (serverStart 2 0) history s ∧ started s = (1, 1) ∧
      StartBarrier history s := by
  have hend : (runEvents connectBoth).map (fun r => started r.2) = some (1, 1) := by decide
  obtain ⟨⟨history, s⟩, hfollow, hstarted⟩ := Option.map_eq_some_iff.mp hend
  have hrun : Run ServerStep (serverStart 2 0) history s := Run.of_followSome hfollow
  exact ⟨history, s, hrun, hstarted, start_barrier hrun⟩

end OfcBenchmark
