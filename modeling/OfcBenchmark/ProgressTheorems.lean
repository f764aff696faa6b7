import OfcBenchmark.BoundTheorems
import OfcBenchmark.RegularTheorems

/-!
# Nobody waits for ever

The workers wait in the barrier for each other, in `pthread_mutex_lock` for the one that has a
mutex, and in `read` for their slaves, also while they have the mutex of `myplot.c`. Where as many
slaves as the master waits for have whole reports, this does not come to a standstill: as long as
the master has not got to the plots, there is a step to take (`stuck_iff_plotted`), and so the
run can go on to its end (`completes`). The last worker waits for its SNMP thread, which ends when
it sees `snmpStop`.
-/

namespace OfcBenchmark
open Printf Runs

section Network

variable {n : ℕ} {κ : Type} [DecidableEq κ] {report : κ → Queues}
  {s s' : Network n κ} {e : NetworkEvent n κ} {i : Fin n} {k : κ}

/-! ## Reads that can be made -/

omit [DecidableEq κ] in
/-- What a reader has returned from more characters, it returns from the first of them that are
enough. -/
theorem isSome_limiterRead {size : ℕ} {text more : Text}
    (h : (readSocketLimiter size (text ++ more)).isSome = true) :
    (limiterRead size text).isSome = true := by
  unfold limiterRead
  split
  case isTrue => rfl
  case isFalse hloop =>
    obtain ⟨⟨array, rest⟩, hsome⟩ := Option.ne_none_iff_exists'.mp hloop
    rw [Option.isSome_map]
    unfold readSocketLimiter at h ⊢
    rw [readLoop_append hsome] at h
    rw [hsome]
    dsimp only at h ⊢
    split at h
    case isTrue => cases h
    case isFalse hsize =>
      rw [if_neg hsize]
      split
      · rfl
      · split
        · rfl
        case isFalse hne hlong =>
          rw [if_neg hne, if_neg hlong] at h
          cases h

omit [DecidableEq κ] in
/-- What is still to be read of a report begins with what the worker is at. -/
theorem isSome_readSocketLimiter {quantity size : ℕ} {socket : Text} {pc : ReportPc}
    (hshort : pc.Short) (hsize : pc.size = some size)
    (h : (pc.receive quantity socket).isSome = true) :
    (readSocketLimiter size socket).isSome = true := by
  cases pc with
  | environment numbers =>
    cases hsize
    change (receiveBehind quantity numbers socket).isSome = true at h
    rw [ReportPc.receiveBehind_cons _ hshort] at h
    obtain ⟨r, hr⟩ := Option.isSome_iff_exists.mp (Option.isSome_of_isSome_bind h)
    rw [readInt] at hr
    obtain ⟨received, hreceived, -⟩ := Option.map_eq_some_iff.mp hr
    rw [hreceived]
    rfl
  | buildGraph call calls =>
    cases hsize
    change (readBlocks (call :: calls) socket).isSome = true at h
    rw [readBlocks] at h
    exact Option.isSome_of_isSome_bind h
  | _ => cases hsize

variable {c : Char} {rest : Text}

theorem isSome_recv_receive (hi : s.slaveOf i = some k) (hto : s.toMaster k = c :: rest)
    (hpc : (s.server.workers i).pc = .receive) : (s.recv i).isSome = true := by
  unfold Network.recv
  rw [hi, Option.bind_eq_bind, Option.bind_some, hto]
  dsimp only
  rw [hpc]
  dsimp only
  unfold Network.readMessage
  split
  · rfl
  · rw [Option.isSome_map]
    dsimp only
    unfold Server.receive
    rw [if_pos hpc]
    cases slaveMessage (s.buffer i ++ [c]) <;> rfl

theorem isSome_recv_readReport {size : ℕ} (hi : s.slaveOf i = some k)
    (hto : s.toMaster k = c :: rest) (hpc : (s.server.workers i).pc = .readReport)
    (hsize : (s.reading i).size = some size)
    (hread : (limiterRead size (s.buffer i ++ [c])).isSome = true) : (s.recv i).isSome = true := by
  obtain ⟨text, htext⟩ := Option.isSome_iff_exists.mp hread
  unfold Network.recv
  rw [hi, Option.bind_eq_bind, Option.bind_some, hto]
  dsimp only
  rw [hpc]
  dsimp only
  unfold Network.readReport
  dsimp only
  rw [hsize, Option.bind_eq_bind, Option.bind_some, htext]
  cases text <;> rfl

/-! ## Standstill -/

/-- Nothing can happen any more but wake-ups without a broadcast, and turns of an SNMP thread that
goes on sampling. -/
def Stuck (report : κ → Queues) (s : Network n κ) : Prop :=
  ∀ e s', NetworkStep report s e s' → Regularly ⟨s, e, s'⟩ →
    (∃ i, e = .wakeUp i) ∨ ∃ thread, e = .snmp thread ∧ s' = s

namespace Stuck

theorem eq_none (h : Stuck report s) (hregularly : ∀ s', Regularly ⟨s, e, s'⟩)
    (hproductive : e.productive = 1) : runNetwork report e s = none := by
  by_contra hne
  obtain ⟨s', hs'⟩ := Option.ne_none_iff_exists'.mp hne
  rcases h e s' hs' (hregularly s') with ⟨i, rfl⟩ | ⟨thread, rfl, -⟩ <;> cases hproductive

/-- A slave waits for START_MESSAGE or has done all it does. -/
theorem slave (h : Stuck report s) (hready : Ready report s) (k : κ) :
    (s.slaves k = .readStart ∧ s.toSlave k = []) ∨ s.slaves k = .spin := by
  have hwrite (hunsent : (s.slaves k).unsent ≠ []) : False := by
    have hnone := h.eq_none (e := .write k 1) (fun _ => ⟨nofun, rfl⟩) rfl
    change s.write k 1 = none at hnone
    unfold Network.write at hnone
    dsimp only at hnone
    rw [if_pos ⟨Nat.one_pos, List.length_pos_of_ne_nil hunsent⟩] at hnone
    cases hnone
  cases hk : s.slaves k with
  | connect =>
    have hnone := h.eq_none (e := .connect k) (fun _ => ⟨nofun, rfl⟩) rfl
    change s.connect k = none at hnone
    rw [Network.connect, if_pos hk] at hnone
    cases hnone
  | sendRequest left =>
    exact (hwrite (by rw [hk]; exact hready.writing k left (.inl hk))).elim
  | readStart =>
    refine .inl ⟨rfl, ?_⟩
    have hnone := h.eq_none (e := .readStart k '\x00') (fun _ => ⟨nofun, rfl⟩) rfl
    change s.readStart k '\x00' = none at hnone
    rw [Network.readStart, if_pos hk] at hnone
    cases hto : s.toSlave k with
    | nil => rfl
    | cons c rest =>
      rw [hto] at hnone
      cases hnone
  | benchmark =>
    have hnone := h.eq_none (e := .benchmark k) (fun _ => ⟨nofun, rfl⟩) rfl
    change s.benchmark report k = none at hnone
    rw [Network.benchmark, if_pos hk] at hnone
    cases hnone
  | sendReport left =>
    exact (hwrite (by rw [hk]; exact hready.writing k left (.inr hk))).elim
  | spin => exact .inr rfl
  | exited => exact absurd hk (hready.not_exited k)

/-- All that slave `k` had to say is on its way. -/
theorem owes_eq (h : Stuck report s) (hready : Ready report s) (k : κ) (text : Text) :
    (s.slaves k).owes text = [] := by
  rcases h.slave hready k with ⟨hk, -⟩ | hk <;> rw [hk] <;> rfl

theorem recv_eq_none (h : Stuck report s) (i : Fin n) : (s.recv i).isSome = false := by
  have hnone := h.eq_none (e := .recv i) (fun _ => ⟨nofun, rfl⟩) rfl
  change s.recv i = none at hnone
  rw [hnone]
  rfl

theorem clientManagement_eq_none (h : Stuck report s) (i : Fin n) :
    (clientManagement s.server i).isSome = false := by
  have hnone := h.eq_none (e := .worker i) (fun _ => ⟨nofun, rfl⟩) rfl
  change s.worker i = none at hnone
  rw [Network.worker, Option.map_eq_none_iff] at hnone
  rw [hnone]
  rfl

/-- Who has the mutex of the server could go on. -/
theorem lock_eq_none (h : Stuck report s) (hready : Ready report s) : s.server.lock = none := by
  by_contra hne
  obtain ⟨j, hj⟩ := Option.ne_none_iff_exists'.mp hne
  have hholds := (hready.sessions.inOrder.server.regular.2.lock_iff j).mpr hj
  change (s.server.workers j).pc.phase.holds = true at hholds
  have hsome : (clientManagement s.server j).isSome = true := by
    apply isSome_clientManagement
    · revert hholds
      cases (s.server.workers j).pc <;> first | exact fun _ => rfl | nofun
    · intro hlocks
      revert hholds hlocks
      cases (s.server.workers j).pc <;> nofun
    · intro hpc
      rw [hpc] at hholds
      cases hholds
  rw [h.clientManagement_eq_none j] at hsome
  cases hsome

/-- Every worker is where it has no step of its own. -/
theorem blocked (h : Stuck report s) (hready : Ready report s) (i : Fin n) :
    (s.server.workers i).pc.blocked = true := by
  by_contra hblocked
  have hsome := isSome_clientManagement (Bool.eq_false_of_not_eq_true hblocked)
    (fun _ => h.lock_eq_none hready) (fun hpc => by
      rw [(hready.sessions.inOrder.server.ok i).id_eq (by rw [hpc]; rfl)]
      exact i.isLt)
  rw [h.clientManagement_eq_none i] at hsome
  cases hsome

/-! ### No worker reads -/

theorem ne_receive (h : Stuck report s) (hready : Ready report s) (i : Fin n) :
    (s.server.workers i).pc ≠ .receive := by
  intro hpc
  obtain ⟨k, hi⟩ := exists_slaveOf hready.sessions.inOrder (by rw [hpc]; rfl)
  have howes := h.owes_eq hready k (clientSide (report k))
  have hshort {text : Text} (hlen : (s.buffer i).length < 2) (htext : 2 ≤ text.length)
      (hstream : (s.session i k).stream (clientSide (report k)) = text) : False := by
    change s.buffer i ++ (s.toMaster k ++ (s.slaves k).owes (clientSide (report k))) = text
      at hstream
    rw [howes, List.append_nil] at hstream
    cases hto : s.toMaster k with
    | nil =>
      rw [hto, List.append_nil] at hstream
      rw [hstream] at hlen
      omega
    | cons c rest =>
      have hsome := isSome_recv_receive hi hto hpc
      rw [h.recv_eq_none i] at hsome
      cases hsome
  cases hready.sessions.stage i k hi with
  | request _ _ _ hlen _ _ _ hstream => exact hshort hlen le_rfl hstream
  | answered _ _ _ _ _ hslave =>
    rcases hslave with ⟨hk, hstart⟩ | hexited
    · rcases h.slave hready k with ⟨-, hnil⟩ | hspin
      · cases hnil.symm.trans hstart
      · cases hspin.symm.trans hk
    · exact hready.not_exited k hexited
  | reporting _ _ _ _ hlen _ _ hstream =>
    exact hshort hlen (Nat.le_add_left _ _) hstream
  | barrier hpc' | counted hpc' | reading _ hpc' | done _ hpc' =>
    rw [show (s.session i k).worker.pc = .receive from hpc] at hpc'
    cases hpc'

/-- A worker reads its report where it can go on. -/
theorem size_eq_none (h : Stuck report s) (hready : Ready report s)
    (hcomplete : ∀ k, (receiveReport n (clientSide (report k))).isSome = true) (i : Fin n)
    (hpc : (s.server.workers i).pc = .readReport) : (s.reading i).size = none := by
  by_contra hne
  obtain ⟨size, hsize⟩ := Option.ne_none_iff_exists'.mp hne
  obtain ⟨k, hi⟩ := exists_slaveOf hready.sessions.inOrder (by rw [hpc]; rfl)
  cases hready.sessions.stage i k hi with
  | reading blocks _ _ _ _ _ hincomplete _ hstream =>
    have hall : ((s.reading i).receive n (s.buffer i ++ s.toMaster k)).isSome = true := by
      obtain ⟨⟨e, all, rest⟩, hreport⟩ := Option.isSome_iff_exists.mp (hcomplete k)
      rw [receive_of_receiveReport hreport] at hstream
      obtain ⟨b, hb, -⟩ := Option.map_eq_some_iff.mp hstream.symm
      change (s.reading i).receive n (s.buffer i ++ (s.toMaster k
        ++ (s.slaves k).owes (clientSide (report k)))) = some b at hb
      rw [h.owes_eq hready k, List.append_nil] at hb
      rw [hb]
      rfl
    have hread := isSome_readSocketLimiter hincomplete.short hsize hall
    cases hto : s.toMaster k with
    | nil =>
      rw [hto, List.append_nil] at hread
      obtain ⟨r, hr⟩ := Option.isSome_iff_exists.mp hread
      obtain ⟨array, hloop⟩ := socket_readSocketLimiter hr
      cases (hincomplete.readLoop_eq size hsize).symm.trans hloop
    | cons c rest =>
      rw [hto, List.append_cons] at hread
      have hsome := isSome_recv_readReport hi hto hpc hsize (isSome_limiterRead hread)
      rw [h.recv_eq_none i] at hsome
      cases hsome
  | request hpc' | barrier hpc' | answered hpc' | reporting hpc' | counted hpc' | done _ hpc' =>
    rw [show (s.session i k).worker.pc = .readReport from hpc] at hpc'
    cases hpc'

omit [DecidableEq κ] in
/-- Between two reports there is nothing to read. -/
theorem pc_eq_readReport (h : Sessions report s) (hne : s.reading i ≠ .environment []) :
    (s.server.workers i).pc = .readReport := by
  by_cases hsock : (s.server.workers i).pc.hasSock = true
  · obtain ⟨k, hi⟩ := exists_slaveOf h.inOrder hsock
    cases h.stage i k hi with
    | reading _ hpc => exact hpc
    | request _ _ _ _ _ _ _ _ hunread | barrier _ _ _ _ _ _ _ _ hunread
    | reporting _ _ _ _ _ _ _ _ hunread => exact absurd hunread.reading_eq hne
    | answered _ _ _ _ _ _ _ hunread | counted _ _ _ _ _ _ _ hunread =>
      exact absurd hunread.reading_eq hne
    | done _ _ _ _ _ _ hreading => exact absurd hreading hne
  · exact absurd (h.idle i (Bool.eq_false_of_not_eq_true hsock)).reading_eq hne

/-- Who has the mutex of the plots could go on. -/
theorem plotLock_eq_none (h : Stuck report s) (hready : Ready report s)
    (hcomplete : ∀ k, (receiveReport n (clientSide (report k))).isSome = true) :
    s.plotLock = none := by
  by_contra hne
  obtain ⟨j, hj⟩ := Option.ne_none_iff_exists'.mp hne
  have hholds := (hready.plotLocked.holds_iff j).mpr hj
  have hpc : (s.server.workers j).pc = .readReport := by
    refine pc_eq_readReport hready.sessions fun henvironment => ?_
    rw [henvironment] at hholds
    cases hholds
  have hsize := h.size_eq_none hready hcomplete j hpc
  cases hreading : s.reading j with
  | buildGraph call calls =>
    rw [hreading] at hsize
    cases hsize
  | unlock calls =>
    have hnone := h.eq_none (e := .unlockPlot j) (fun _ => ⟨nofun, rfl⟩) rfl
    change s.unlockPlot j = none at hnone
    rw [Network.unlockPlot, hreading] at hnone
    dsimp only at hnone
    rw [if_pos hpc] at hnone
    cases hnone
  | environment | lock | plotGraph =>
    rw [hreading] at hholds
    cases hholds

theorem ne_readReport (h : Stuck report s) (hready : Ready report s)
    (hcomplete : ∀ k, (receiveReport n (clientSide (report k))).isSome = true) (i : Fin n) :
    (s.server.workers i).pc ≠ .readReport := by
  intro hpc
  have hsize := h.size_eq_none hready hcomplete i hpc
  cases hreading : s.reading i with
  | environment | buildGraph =>
    rw [hreading] at hsize
    cases hsize
  | lock call calls =>
    have hnone := h.eq_none (e := .lockPlot i) (fun _ => ⟨nofun, rfl⟩) rfl
    change s.lockPlot i = none at hnone
    rw [Network.lockPlot, hreading] at hnone
    dsimp only at hnone
    rw [if_pos ⟨hpc, h.plotLock_eq_none hready hcomplete⟩] at hnone
    cases hnone
  | unlock calls =>
    have hholds : (s.reading i).holds = true := by
      rw [hreading]
      rfl
    have hlock := (hready.plotLocked.holds_iff i).mp hholds
    cases (h.plotLock_eq_none hready hcomplete).symm.trans hlock
  | plotGraph =>
    have hnone := h.eq_none (e := .plotNode i) (fun _ => ⟨nofun, rfl⟩) rfl
    change s.plotNode i = none at hnone
    rw [Network.plotNode, if_pos hreading, Server.readReport, if_pos hpc] at hnone
    cases hnone

/-! ### The main thread is not held up -/

/-- Not in `accept`: each slave has connected, and those that have been accepted are fewer than the
master waits for. -/
theorem ne_accept [Fintype κ] (h : Stuck report s) (hready : Ready report s)
    (hcard : Fintype.card κ = n) : s.server.main ≠ .accept := by
  intro hmain
  have hlinks := hready.sessions.inOrder.links
  have hconnected (k : κ) : s.slaves k ≠ .connect := by
    rcases h.slave hready k with ⟨hk, -⟩ | hk <;> simp [hk]
  cases hbacklog : s.backlog with
  | cons k backlog =>
    let used : Finset ℕ := Finset.univ.image fun i => (s.server.reports i).getD 0
    obtain ⟨fd, hfd⟩ := Infinite.exists_notMem_finset used
    have hfresh (i : Fin n) : s.server.reports i ≠ some fd := by
      intro hi
      refine hfd (Finset.mem_image.mpr ⟨i, Finset.mem_univ i, ?_⟩)
      rw [hi]
      rfl
    have hnone := h.eq_none (e := .accept fd) (fun _ => ⟨nofun, rfl⟩) rfl
    change s.accept fd = none at hnone
    rw [Network.accept, hbacklog] at hnone
    rw [Option.map_eq_none_iff, Server.accept, if_pos ⟨hmain, hfresh⟩] at hnone
    cases hnone
  | nil =>
    have haccepted (k : κ) : ∃ i : Fin n, ∃ fd, s.server.reports i = some fd ∧
        s.peer fd = some k := by
      rcases hlinks.reached k (hconnected k) with hmem | ⟨fd, hfd⟩
      · rw [hbacklog] at hmem
        cases hmem
      · rcases (hlinks.known fd).mp (by rw [hfd]; rfl) with ⟨i, hi⟩ | ⟨hstore, -⟩
        · exact ⟨i, fd, hi, hfd⟩
        · cases hmain.symm.trans hstore
    choose f hf using haccepted
    have hindex := hready.bound.accepting (by simp [hmain]) (by simp [hmain])
    have hlt (k : κ) : (f k : ℕ) < s.server.index := by
      obtain ⟨fd, hfd, -⟩ := hf k
      have hstored := (hready.sessions.inOrder.server.regular.1.stored (f k)).mp (by rw [hfd]; rfl)
      rwa [Server.stored, hmain] at hstored
    have hinj : Function.Injective fun k => (⟨f k, hlt k⟩ : Fin s.server.index) := by
      intro k k' heq
      obtain ⟨fd, hfd, hpeer⟩ := hf k
      obtain ⟨fd', hfd', hpeer'⟩ := hf k'
      rw [show f k = f k' from Fin.ext (Fin.mk.inj heq), hfd'] at hfd
      rw [← Option.some.inj hfd, hpeer'] at hpeer
      exact (Option.some.inj hpeer).symm
    have hle := Fintype.card_le_of_injective _ hinj
    rw [Fintype.card_fin, hcard] at hle
    exact absurd hindex (Nat.not_lt.mpr hle)

theorem serverSide_eq_none (h : Stuck report s) (hready : Ready report s) :
    OfcBenchmark.serverSide s.server = none := by
  have htime : NetworkInTime ⟨s, .main, s⟩ := by
    intro _ _ i hpc
    have hblocked := h.blocked hready i
    rw [show (s.server.workers i).pc = .readId from hpc] at hblocked
    cases hblocked
  have hnone := h.eq_none (e := .main) (fun _ => ⟨htime, rfl⟩) rfl
  change s.main = none at hnone
  rwa [Network.main, Option.map_eq_none_iff] at hnone

/-- It has created all workers. -/
theorem joining [Fintype κ] (h : Stuck report s) (hready : Ready report s)
    (hcard : Fintype.card κ = n) :
    (∃ k : Fin n, s.server.main = .join (k + 1) ∧ (s.server.workers k).pc ≠ .exited) ∨
      s.server.main = .plot := by
  have hnone := h.serverSide_eq_none hready
  unfold OfcBenchmark.serverSide at hnone
  cases hmain : s.server.main <;> rw [hmain] at hnone <;> dsimp only at hnone
  case accept => exact absurd hmain (h.ne_accept hready hcard)
  case storeSock | create =>
    rw [dif_pos (hready.bound.accepting (by rw [hmain]; nofun) (by rw [hmain]; nofun))] at hnone
    cases hnone
  case storeParam | next => cases hnone
  case plot => exact .inr rfl
  case join left =>
    cases left with
    | zero => cases hnone
    | succ k =>
      have hk : k < n := (hready.bound.joining (k + 1) hmain).2
      dsimp only at hnone
      rw [dif_pos hk] at hnone
      refine .inl ⟨⟨k, hk⟩, rfl, fun hexited => ?_⟩
      rw [if_pos hexited] at hnone
      cases hnone

theorem ne_none [Fintype κ] (h : Stuck report s) (hready : Ready report s)
    (hcard : Fintype.card κ = n) (i : Fin n) : (s.server.workers i).pc ≠ .none := by
  have hindex : s.server.created = n := by
    rcases h.joining hready hcard with ⟨k, hmain, -⟩ | hmain
    · rw [Server.created, hmain, if_neg (by simp)]
      exact (hready.bound.joining _ hmain).1
    · rw [Server.created, hmain, if_neg (by decide)]
      exact hready.bound.plotting hmain
  intro hnone
  have hle := (hready.sessions.inOrder.server.regular.1.created i).mp hnone
  rw [hindex] at hle
  exact absurd i.isLt (Nat.not_lt.mpr hle)

/-! ### No worker waits in the barrier -/

/-- No worker waits for its SNMP thread: `snmpStop` is set, and so the thread could end. -/
theorem ne_joinSnmp (h : Stuck report s) (hready : Ready report s) (i : Fin n) :
    (s.server.workers i).pc ≠ .joinSnmp := by
  intro hpc
  have hok := hready.sessions.inOrder.server.ok i
  have hwait : ((s.server.workers i).id : ℤ) = n - 1 ∧
      (s.server.workers i).snmpThread.bind (s.server.snmp[·]?) ≠ some .ended := by
    have hnone := h.clientManagement_eq_none i
    unfold clientManagement at hnone
    dsimp only at hnone
    rw [hpc] at hnone
    dsimp only at hnone
    split at hnone
    case isTrue hid =>
      split at hnone
      · cases hnone
      case isFalse hended => exact ⟨hid, hended⟩
    case isFalse => cases hnone
  obtain ⟨hid, hended⟩ := hwait
  rw [hok.id_eq (by rw [hpc]; rfl)] at hid
  have hstarts : 0 < (s.server.workers i).starts := by
    obtain ⟨k, hi⟩ := exists_slaveOf (i := i) hready.sessions.inOrder (by rw [hpc]; rfl)
    cases hready.sessions.stage i k hi with
    | done _ _ _ hstarts => exact lt_of_lt_of_eq Nat.one_pos hstarts.symm
    | request hpc' | barrier hpc' | answered hpc' | reporting hpc' | counted hpc'
    | reading _ hpc' =>
      rw [show (s.session i k).worker.pc = .joinSnmp from hpc] at hpc'
      cases hpc'
  obtain ⟨thread, hthread, hlt⟩ := (hready.snmp.samples i).thread (hok.started (.inl hstarts) hid)
  have hstop := hready.snmp.stop i (by rw [hpc]; rfl)
  -- there is one SNMP thread, and it is sampling
  obtain ⟨pc, hsnmp⟩ := List.length_eq_one_iff.mp
    (Nat.le_antisymm hready.length_snmp_le (Nat.succ_le_of_lt (Nat.zero_lt_of_lt hlt)))
  obtain rfl : thread = 0 := by
    rw [hsnmp] at hlt
    exact Nat.lt_one_iff.mp hlt
  rw [hthread, hsnmp] at hended
  obtain rfl : pc = .sampling := by
    cases pc with
    | sampling => rfl
    | ended => exact absurd rfl hended
  have hend : asynchronousSnmp s.server 0 = some { s.server with snmp := [.ended] } := by
    unfold asynchronousSnmp
    rw [hsnmp, if_pos ⟨rfl, by simp⟩, if_pos hstop]
    rfl
  have hstep : NetworkStep report s (.snmp 0)
      { s with server := { s.server with snmp := [.ended] } } := by
    show s.snmp 0 = _
    rw [Network.snmp, hend]
    rfl
  rcases h _ _ hstep ⟨nofun, rfl⟩ with ⟨i, heq⟩ | ⟨-, -, heq⟩
  · cases heq
  · have hsame : [SnmpPc.ended] = s.server.snmp := congrArg (fun s => s.server.snmp) heq
    rw [hsnmp] at hsame
    cases hsame

/-- The last one that counts its request in wakes up the others. -/
theorem exited [Fintype κ] (h : Stuck report s) (hready : Ready report s)
    (hcard : Fintype.card κ = n)
    (hcomplete : ∀ k, (receiveReport n (clientSide (report k))).isSome = true) (i : Fin n) :
    (s.server.workers i).pc = .exited := by
  have hcases (j : Fin n) :
      (s.server.workers j).pc = .wait ∨ (s.server.workers j).pc = .exited := by
    have hblocked := h.blocked hready j
    have hcreated := h.ne_none hready hcard j
    have hreceive := h.ne_receive hready j
    have hreport := h.ne_readReport hready hcomplete j
    have hjoin := h.ne_joinSnmp hready j
    revert hblocked hcreated hreceive hreport hjoin
    cases (s.server.workers j).pc <;> simp [WorkerPc.blocked]
  have hconnects (j : Fin n) : 0 < (s.server.workers j).connects := by
    obtain ⟨k, hj⟩ := exists_slaveOf (i := j) hready.sessions.inOrder (by
      rcases hcases j with hpc | hpc <;> rw [hpc] <;> rfl)
    cases hready.sessions.stage j k hj with
    | request hpc =>
      exact absurd hpc (h.ne_receive hready j)
    | barrier _ _ _ hconnects =>
      refine hconnects.resolve_left fun hrequest => ?_
      change (s.server.workers j).pc.hasRequest = true at hrequest
      rcases hcases j with hpc | hpc <;> rw [hpc] at hrequest <;> cases hrequest
    | answered _ _ _ hconnects | reporting _ _ _ hconnects | counted _ _ _ hconnects
    | reading _ _ _ _ hconnects | done _ _ _ _ hconnects => exact hconnects
  refine (hcases i).resolve_left fun hwait => ?_
  obtain ⟨j, hannounce, -⟩ :=
    noneLeftWaiting_of_inv hready.sessions.inOrder.server.regular.2 hconnects i hwait
  rcases hcases j with hpc | hpc <;> cases hannounce.symm.trans hpc

end Stuck

/-! ## The end of a run -/

/-- The master plots the reports, and the slaves have written theirs. -/
def Network.Plotted (s : Network n κ) : Prop := s.server.main = .plot ∧ ∀ k, s.slaves k = .spin

/-- Every slave has a worker that has exited. -/
theorem plotted_of_stuck [Fintype κ] (h : Stuck report s) (hready : Ready report s)
    (hcard : Fintype.card κ = n)
    (hcomplete : ∀ k, (receiveReport n (clientSide (report k))).isSome = true) : s.Plotted := by
  have hexited := h.exited hready hcard hcomplete
  have hserves (i : Fin n) : ∃ k, s.slaveOf i = some k :=
    exists_slaveOf hready.sessions.inOrder (by rw [hexited i]; rfl)
  choose f hf using hserves
  have hinj : Function.Injective f := fun i j heq =>
    slaveOf_inj hready.sessions.inOrder (hf i) (heq ▸ hf j)
  have hbijective : Function.Bijective f :=
    (Fintype.bijective_iff_injective_and_card f).mpr ⟨hinj, by rw [Fintype.card_fin, hcard]⟩
  refine ⟨?_, fun k => ?_⟩
  · rcases h.joining hready hcard with ⟨k, -, hne⟩ | hplot
    · exact absurd (hexited k) hne
    · exact hplot
  · obtain ⟨i, rfl⟩ := hbijective.surjective k
    cases hready.sessions.stage i (f i) (hf i) with
    | done _ _ _ _ _ hslave =>
      refine (h.slave hready (f i)).resolve_left fun hread => ?_
      rw [show (s.session i (f i)).slave = .readStart from hread.1] at hslave
      cases hslave
    | request hpc | barrier hpc | answered hpc | reporting hpc | counted hpc | reading _ hpc =>
      rw [show (s.session i (f i)).worker.pc = .exited from hexited i] at hpc
      cases hpc

theorem stuck_of_plotted (h : s.Plotted) (hready : Ready report s) : Stuck report s := by
  have hexited := hready.joined.plot h.1
  intro e s' hstep _
  have hmove := networkMove_of_step hstep
  have hslave {k : κ} {pc : SlavePc} (hk : s.slaves k = pc) : pc = .spin := hk.symm.trans (h.2 k)
  cases hmove with
  | connect k hk | readStart k _ hk | benchmark k hk => cases hslave hk
  | write k m hpos hle =>
    rw [h.2 k] at hle
    exact absurd (hpos.trans_le hle) (lt_irrefl 0)
  | accept fd _ hserver =>
    rw [Server.accept, h.1, if_neg (by simp)] at hserver
    cases hserver
  | main hserver =>
    rw [serverSide, h.1] at hserver
    cases hserver
  | worker i hserver _ | sendStart i hserver _ =>
    rw [clientManagement, hexited i] at hserver
    cases hserver
  | readChar i _ _ hpc | readMessage i _ _ hpc | readPart i _ _ hpc | readText i _ _ hpc
  | lockPlot i _ hpc | unlockPlot i _ hpc => cases (hexited i).symm.trans hpc
  | plotNode i _ hserver =>
    obtain ⟨hpc, -⟩ := exists_turn_readReport hserver
    cases (hexited i).symm.trans hpc
  | wakeUp i => exact .inl ⟨i, rfl⟩
  | snmp thread hserver =>
    rcases asynchronousSnmp_cases hserver with rfl | ⟨-, hsampling, -⟩
    · exact .inr ⟨thread, rfl, rfl⟩
    · exact absurd hsampling (hready.not_sampling hexited thread)

/-- In every run of a master and its slaves whose reports are whole: nothing can happen any more
only when the master plots. -/
theorem stuck_iff_plotted [Fintype κ] {param : ℕ} {history : List (NetworkTransition n κ)}
    (hn : 0 < n) (hcard : Fintype.card κ = n)
    (hcomplete : ∀ k, (receiveReport n (clientSide (report k))).isSome = true)
    (hrun : Run (NetworkStep report) (networkStart n κ param) history s)
    (hregularly : ∀ t ∈ history, Regularly t) : Stuck report s ↔ s.Plotted :=
  ⟨fun h => plotted_of_stuck h (Ready.of_run hn hrun hregularly) hcard hcomplete,
    fun h => stuck_of_plotted h (Ready.of_run hn hrun hregularly)⟩

/-- A thread that ends is one more that has ended. -/
theorem count_set_ended {threads : List SnmpPc} {thread : ℕ}
    (h : threads[thread]? = some .sampling) :
    (threads.set thread .ended).count .ended = threads.count .ended + 1 := by
  obtain ⟨hlt, hsampling⟩ := List.getElem?_eq_some_iff.mp h
  rw [List.count_set hlt, hsampling]
  rfl

/-- No SNMP thread starts again. -/
theorem snmpEnded_mono {s s' : Server n} {e : ServerEvent n} (h : ServerStep s e s') :
    s.snmpEnded ≤ s'.snmpEnded := by
  cases e with
  | accept fd => exact le_of_eq (mainStep_accept h).shared.2.2.symm
  | main => exact le_of_eq (mainStep_serverSide h).shared.2.2.symm
  | worker i =>
    obtain ⟨w, hturn, -⟩ := exists_turn_clientManagement h
    exact le_of_eq hturn.snmpEnded_eq.symm
  | receive i m =>
    obtain ⟨-, w, hturn, -⟩ := exists_turn_receive h
    exact le_of_eq hturn.snmpEnded_eq.symm
  | readReport i bytesRead =>
    obtain ⟨-, w, hturn, -⟩ := exists_turn_readReport h
    exact le_of_eq hturn.snmpEnded_eq.symm
  | wakeUp i =>
    obtain ⟨-, w, hturn, -⟩ := exists_turn_wakeUp h
    exact le_of_eq hturn.snmpEnded_eq.symm
  | snmp k =>
    rcases asynchronousSnmp_cases h with rfl | ⟨-, hsampling, rfl⟩
    · exact le_rfl
    · exact (Nat.le_succ _).trans (le_of_eq (count_set_ended hsampling).symm)

/-- What is still to be done, with the SNMP thread that has to end. -/
def Network.work [Fintype κ] (report : κ → Queues) (s : Network n κ) : ℕ :=
  s.rank report + (1 - s.server.snmpEnded)

/-- A step that is more than a wake-up or a sample takes some of it off. -/
theorem work_lt [Fintype κ] (hready : Ready report s) (hstep : NetworkStep report s e s')
    (hnot : ¬ ((∃ i, e = .wakeUp i) ∨ ∃ thread, e = .snmp thread ∧ s' = s)) :
    s'.work report < s.work report := by
  have hmove := networkMove_of_step hstep
  have hrank := rank_move hready.sessions.inOrder.server.regular.1 hmove
  have hended : s.server.snmpEnded ≤ s'.server.snmpEnded := by
    rcases server_step hmove with hsame | ⟨e', hserver, -⟩
    · rw [hsame]
    · exact snmpEnded_mono hserver
  unfold Network.work
  cases hmove with
  | wakeUp i _ => exact absurd (.inl ⟨i, rfl⟩) hnot
  | snmp thread hserver =>
    rcases asynchronousSnmp_cases hserver with rfl | ⟨-, hsampling, rfl⟩
    · exact absurd (.inr ⟨thread, rfl, rfl⟩) hnot
    · have hone := count_set_ended hsampling
      have hle : (s.server.snmp.set thread .ended).count .ended ≤ s.server.snmp.length :=
        List.count_le_length.trans (le_of_eq List.length_set)
      have hlength := hready.length_snmp_le
      show s.rank report + (1 - (s.server.snmp.set thread .ended).count .ended)
        < s.rank report + (1 - s.server.snmp.count .ended)
      rw [hone] at hle ⊢
      omega
  | _ =>
    dsimp only [NetworkEvent.productive, NetworkEvent.spurious] at hrank
    omega

/-- And from wherever it is, the run can go on until it does, and all reports have been
delivered. -/
theorem completes [Fintype κ] {param : ℕ} {history : List (NetworkTransition n κ)}
    (hn : 0 < n) (hcard : Fintype.card κ = n)
    (hcomplete : ∀ k, (receiveReport n (clientSide (report k))).isSome = true)
    (hrun : Run (NetworkStep report) (networkStart n κ param) history s)
    (hregularly : ∀ t ∈ history, Regularly t) :
    ∃ more s', Run (NetworkStep report) (networkStart n κ param) (history ++ more) s' ∧
      (∀ t ∈ more, Regularly t) ∧ s'.Plotted ∧ Delivered report s' := by
  have hprogress : ∀ s : Network n κ, Ready report s → ¬ s.Plotted → ∃ e s',
      (Regularly ⟨s, e, s'⟩ ∧ NetworkStep report s e s') ∧ Ready report s' ∧
        s'.work report < s.work report := by
    intro s hready hplotted
    have hstuck : ¬ Stuck report s := fun hstuck =>
      hplotted (plotted_of_stuck hstuck hready hcard hcomplete)
    simp only [Stuck, not_forall, exists_prop] at hstuck
    obtain ⟨e, s', hstep, hregular, hnot⟩ := hstuck
    exact ⟨e, s', ⟨hregular, hstep⟩, hready.step (networkMove_of_step hstep) hregular,
      work_lt hready hstep hnot⟩
  obtain ⟨more, s', hmore, hready, hplotted⟩ :=
    Run.exists_of_rank (Network.work report) hprogress (Ready.of_run hn hrun hregularly)
  refine ⟨more, s', hrun.append (hmore.mono fun _ _ _ hstep => hstep.2), fun t ht => ?_, hplotted,
    delivered_of_sessions hready.sessions hready.joined⟩
  exact (hmore.step_of_mem ht).1

end Network

theorem isSome_receiveReport_shortReport :
    (receiveReport 1 (clientSide shortReport)).isSome = true := by
  decide

theorem stuck_iff_plotted_deliverOne :
    ∃ history s, Run (NetworkStep fun _ => shortReport) (networkStart 1 (Fin 1) 0) history s ∧
      s.Plotted ∧ (Stuck (fun _ => shortReport) s ↔ s.Plotted) := by
  have hend : (followSome (runNetwork fun _ => shortReport) deliverOne
      (networkStart 1 (Fin 1) 0)).map (fun r => (r.2.server.main, r.2.slaves 0,
        r.1.all (Regularly ·))) = some (.plot, .spin, true) := by
    decide
  obtain ⟨⟨history, s⟩, hfollow, heq⟩ := Option.map_eq_some_iff.mp hend
  obtain ⟨hplot, hrest⟩ := Prod.mk.inj heq
  obtain ⟨hspin, hregularly⟩ := Prod.mk.inj hrest
  have hrun : Run (NetworkStep fun _ => shortReport) (networkStart 1 (Fin 1) 0) history s :=
    Run.of_followSome hfollow
  have hplotted : s.Plotted := ⟨hplot, fun k => Subsingleton.elim 0 k ▸ hspin⟩
  exact ⟨history, s, hrun, hplotted, stuck_iff_plotted Nat.one_pos (Fintype.card_fin 1)
    (fun _ => isSome_receiveReport_shortReport) hrun fun t ht =>
      of_decide_eq_true (List.all_eq_true.mp hregularly t ht)⟩

theorem completes_serveOne :
    ∃ history s, Run (NetworkStep fun _ => shortReport) (networkStart 1 (Fin 1) 0) history s ∧
      (s.server.workers 0).pc = .lockConnect ∧
      ∃ more s', Run (NetworkStep fun _ => shortReport) (networkStart 1 (Fin 1) 0)
          (history ++ more) s' ∧
        (∀ t ∈ more, Regularly t) ∧ s'.Plotted ∧ Delivered (fun _ => shortReport) s' := by
  have hend : (followSome (runNetwork fun _ => shortReport) serveOne
      (networkStart 1 (Fin 1) 0)).map (fun r => ((r.2.server.workers 0).pc,
        r.1.all (Regularly ·))) = some (.lockConnect, true) := by
    decide
  obtain ⟨⟨history, s⟩, hfollow, heq⟩ := Option.map_eq_some_iff.mp hend
  obtain ⟨hpc, hregularly⟩ := Prod.mk.inj heq
  have hrun : Run (NetworkStep fun _ => shortReport) (networkStart 1 (Fin 1) 0) history s :=
    Run.of_followSome hfollow
  exact ⟨history, s, hrun, hpc, completes Nat.one_pos (Fintype.card_fin 1)
    (fun _ => isSome_receiveReport_shortReport) hrun fun t ht =>
      of_decide_eq_true (List.all_eq_true.mp hregularly t ht)⟩

end OfcBenchmark
