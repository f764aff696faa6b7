import OfcBenchmark.NetworkTheorems

/-!
# How long it takes

A step of the network that is not a turn of an SNMP thread uses up something: a character that
is still to be written or read, or a place a thread has still to pass. Only a worker that wakes up
without a broadcast gets back what it needs to wait again. So the number of steps is bounded by
the length of the reports and the number of these wake-ups (`steps_bounded`).
-/

namespace OfcBenchmark
open Printf Runs

/-! ## Ranks -/

/-- How many places a worker has to pass until it reads again or has exited. `full` is whether the
barrier is complete; as long as it is not, a worker that looks at the count is going to wait. -/
def WorkerPc.rank (full : Bool) : WorkerPc → ℕ
  | .exited => 0
  | .joinSnmp => 1
  | .unlockStop => 2
  | .stop => 3
  | .lockStop | .receive => 4
  | .next | .readSock => 5
  | .readReport | .sendStart | .readId | .none => 6
  | .unlockReport | .unlockConnect => 7
  | .report | .startSnmp => 8
  | .lockReport => 9
  | .check => if full then 9 else 12
  | .wake => if full then 10 else 13
  | .wait => 11
  | .announce => 14
  | .connect => 15
  | .lockConnect => 16

/-- The same between two parts of a report. -/
def ReportPc.rank : ReportPc → ℕ
  | .unlock _ => 2
  | .lock _ _ => 1
  | _ => 0

/-- What a slave has still to do. A character that is to be written counts for the `write` and for
all that follows when it is read; `length` is that of the report. -/
def SlavePc.rank (length : ℕ) : SlavePc → ℕ
  | .connect => 14 * (4 + length) + 3
  | .sendRequest left => 14 * (left.length + (2 + length)) + 2
  | .readStart => 14 * (2 + length) + 2
  | .benchmark => 14 * (2 + length) + 1
  | .sendReport left => 14 * left.length
  | .spin | .exited => 0

section Server

variable {n : ℕ} {s s' : Server n} {i : Fin n}

/-- How many places the main thread has to pass. -/
def Server.mainRank (s : Server n) : ℕ :=
  match s.main with
  | .accept => 5 * (n - 1 - s.index) + n + 6
  | .storeSock => 5 * (n - 1 - s.index) + n + 5
  | .storeParam => 5 * (n - 1 - s.index) + n + 4
  | .create => 5 * (n - 1 - s.index) + n + 3
  | .next => 5 * (n - 1 - s.index) + n + 2
  | .join left => left + 1
  | .plot => 0

/-- Whether the barrier is complete. -/
def Server.full (s : Server n) : Bool := decide (n ≤ s.connected)

/-- How many places the workers have to pass. -/
def Server.rank (s : Server n) : ℕ := ∑ i, (s.workers i).pc.rank s.full

theorem WorkerPc.rank_mono {full full' : Bool} (h : full = true → full' = true) (pc : WorkerPc) :
    pc.rank full' ≤ pc.rank full := by
  cases pc <;> cases full <;> cases full' <;> first | exact le_rfl | decide | cases h rfl

theorem full_mono (h : s.connected ≤ s'.connected) : s.full = true → s'.full = true := fun hfull =>
  decide_eq_true ((of_decide_eq_true hfull).trans h)

/-- One worker moves, and the others stay where they are or are woken up by the broadcast. -/
theorem rank_le (paid extra : ℕ) (hconnected : s.connected ≤ s'.connected)
    (hothers : ∀ j, j ≠ i → s'.workers j = s.workers j ∨
      (s'.full = true ∧ s'.workers j = (s.workers j).woken))
    (hself : (s'.workers i).pc.rank s'.full + paid ≤ (s.workers i).pc.rank s.full + extra) :
    s'.rank + paid ≤ s.rank + extra := by
  have hrest : ∀ j ∈ Finset.univ.erase i,
      (s'.workers j).pc.rank s'.full ≤ (s.workers j).pc.rank s.full := by
    intro j hj
    have hmono := WorkerPc.rank_mono (full_mono hconnected) (s.workers j).pc
    rcases hothers j (Finset.ne_of_mem_erase hj) with hsame | ⟨hfull, hwoken⟩
    · rw [hsame]
      exact hmono
    · refine le_trans ?_ hmono
      rw [hwoken, Worker.woken]
      split
      case isTrue hwait =>
        rw [hwait, hfull]
        exact Nat.le_succ 10
      case isFalse => exact le_rfl
  unfold Server.rank
  rw [← Finset.add_sum_erase _ _ (Finset.mem_univ i),
    ← Finset.add_sum_erase Finset.univ (fun j => (s.workers j).pc.rank s.full) (Finset.mem_univ i)]
  have hsum := Finset.sum_le_sum hrest
  omega

theorem rank_set (paid extra : ℕ) (s₁ : Server n) {w : Worker}
    (hworkers : s₁.workers = s.workers) (hconnected : s.connected ≤ s₁.connected)
    (hself : w.pc.rank s₁.full + paid ≤ (s.workers i).pc.rank s.full + extra) :
    (s₁.set i w).rank + paid ≤ s.rank + extra := by
  refine rank_le (i := i) paid extra hconnected (fun j hj => ?_) ?_
  · exact .inl ((Function.update_of_ne hj _ _).trans (congrFun hworkers j))
  · rw [show (s₁.set i w).workers i = w from Function.update_self _ _ _]
    exact hself

theorem rank_take {pc : WorkerPc} (h : s.take i pc = some s')
    (hself : pc.rank s.full < (s.workers i).pc.rank s.full) : s'.rank + 1 ≤ s.rank := by
  unfold Server.take at h
  split at h
  · cases h
    have hlock : ({ s with lock := some i } : Server n).full = s.full := rfl
    refine rank_set 1 0 { s with lock := some i } rfl le_rfl ?_
    rw [hlock]
    exact hself
  · cases h

theorem rank_announce (hpc : (s.workers i).pc = .announce) :
    ((if s.connected = n then s.broadcast else s).goto i .check).rank + 1 ≤ s.rank := by
  have hself : ∀ full, WorkerPc.check.rank full + 1 ≤ (s.workers i).pc.rank s.full := by
    intro full
    rw [hpc]
    show _ ≤ 14
    cases full <;> decide
  split
  case isTrue hcount =>
    refine rank_le (i := i) 1 0 le_rfl (fun j hj => .inr ⟨?_, ?_⟩) ?_
    · exact decide_eq_true (le_of_eq hcount.symm)
    · exact Function.update_of_ne hj _ _
    · rw [show (s.broadcast.goto i .check).workers i
        = { s.broadcast.workers i with pc := .check } from Function.update_self _ _ _]
      exact hself _
  case isFalse => exact rank_set 1 0 s rfl le_rfl (hself _)

/-- A worker that does not read passes a place. -/
theorem rank_clientManagement (h : clientManagement s i = some s') : s'.rank + 1 ≤ s.rank := by
  have hset {w : Worker} (s₁ : Server n) (hworkers : s₁.workers = s.workers)
      (hconnected : s₁.connected = s.connected)
      (hself : w.pc.rank s.full + 1 ≤ (s.workers i).pc.rank s.full) :
      (s₁.set i w).rank + 1 ≤ s.rank := by
    refine rank_set 1 0 s₁ hworkers (le_of_eq hconnected.symm) ?_
    rw [Server.full, hconnected]
    exact hself
  unfold clientManagement at h
  dsimp only at h
  cases hpc : (s.workers i).pc <;> rw [hpc] at h <;> dsimp only at h
  case none | receive | wait | readReport | exited => cases h
  case lockConnect | lockReport | lockStop =>
    exact rank_take h (by rw [hpc]; exact Nat.lt_succ_self _)
  case readSock =>
    split at h
    · cases h
      exact hset s rfl rfl (by rw [hpc]; exact le_rfl)
    · cases h
  case announce =>
    cases h
    exact rank_announce hpc
  case check =>
    split at h
    case isTrue hlt =>
      cases h
      refine hset { s with lock := none } rfl rfl ?_
      rw [hpc, show s.full = false from decide_eq_false (Nat.not_le.mpr hlt)]
      exact le_rfl
    case isFalse hle =>
      cases h
      refine hset s rfl rfl ?_
      rw [hpc, show s.full = true from decide_eq_true (Nat.not_lt.mp hle)]
      exact le_rfl
  case wake =>
    refine rank_take h ?_
    rw [hpc]
    cases s.full <;> decide
  case startSnmp =>
    split at h
    · cases h
      exact hset { s with snmp := s.snmp ++ [.sampling] } rfl rfl (by rw [hpc]; exact le_rfl)
    · cases h
      exact hset s rfl rfl (by rw [hpc]; exact le_rfl)
  case connect =>
    cases h
    refine rank_set 1 0 { s with connected := s.connected + 1 } rfl (Nat.le_succ _) ?_
    rw [hpc]
    exact le_rfl
  case next =>
    cases h
    refine hset s rfl rfl ?_
    rw [hpc]
    dsimp only
    split <;> exact le_rfl
  case readId =>
    cases h
    exact hset s rfl rfl (by rw [hpc]; exact le_rfl)
  case sendStart =>
    cases h
    exact hset s rfl rfl (by rw [hpc]; exact le_rfl)
  case report =>
    cases h
    exact hset { s with reported := s.reported + 1 } rfl rfl (by rw [hpc]; exact le_rfl)
  case stop =>
    cases h
    exact hset { s with snmpStop := true } rfl rfl (by rw [hpc]; exact le_rfl)
  case unlockConnect | unlockReport | unlockStop =>
    cases h
    exact hset { s with lock := none } rfl rfl (by rw [hpc]; exact le_rfl)
  case joinSnmp =>
    have hexit : (s.goto i .exited).rank + 1 ≤ s.rank :=
      hset s rfl rfl (by rw [hpc]; exact le_rfl)
    split at h
    · split at h
      · cases h
        exact hexit
      · cases h
    · cases h
      exact hexit

/-- A message leads a worker to the lock again. -/
theorem rank_receive {m : SlaveMessage} (h : s.receive i m = some s') : s'.rank ≤ s.rank + 12 := by
  unfold Server.receive at h
  split at h
  case isTrue hpc =>
    have hself (pc : WorkerPc) (hle : pc.rank s.full ≤ 16) :
        (s.goto i pc).rank ≤ s.rank + 12 := by
      refine rank_set 0 12 s rfl le_rfl ?_
      rw [hpc]
      exact hle
    cases m <;> cases h <;> exact hself _ (by simp [WorkerPc.rank])
  case isFalse => cases h

theorem rank_readReport {bytesRead : ℤ} (h : s.readReport i bytesRead = some s') :
    s'.rank + 1 ≤ s.rank := by
  unfold Server.readReport at h
  dsimp only at h
  split at h
  case isTrue hpc =>
    cases h
    refine rank_set 1 0 s rfl le_rfl ?_
    rw [hpc]
    exact le_rfl
  case isFalse => cases h

/-- A worker that wakes up may have to wait once more. -/
theorem rank_wakeUp (h : s.wakeUp i = some s') : s'.rank ≤ s.rank + 2 := by
  unfold Server.wakeUp at h
  split at h
  case isTrue hpc =>
    cases h
    refine rank_set 0 2 s rfl le_rfl ?_
    rw [hpc]
    dsimp only
    cases s.full <;> decide
  case isFalse => cases h

theorem mainRank_accept {fd : ℕ} (h : s.accept fd = some s') :
    s'.mainRank + 1 ≤ s.mainRank ∧ s'.rank = s.rank := by
  unfold Server.accept at h
  split at h
  case isTrue hguard =>
    cases h
    refine ⟨?_, rfl⟩
    unfold Server.mainRank
    rw [hguard.1]
  case isFalse => cases h

/-- The main thread passes a place. -/
theorem mainRank_serverSide (hinv : MainInv s) (h : serverSide s = some s') :
    s'.mainRank + 1 ≤ s.mainRank ∧ s'.rank ≤ s.rank := by
  unfold serverSide at h
  unfold Server.mainRank
  cases hmain : s.main <;> rw [hmain] at h <;> dsimp only at h
  case accept => cases h
  case plot => cases h
  case storeSock =>
    split at h
    · cases h
      exact ⟨le_rfl, le_rfl⟩
    · cases h
  case storeParam =>
    cases h
    exact ⟨le_rfl, le_rfl⟩
  case create =>
    split at h
    case isTrue hlt =>
      cases h
      refine ⟨le_rfl, rank_set 0 0 { s with main := .next } rfl le_rfl ?_⟩
      have hnone : (s.workers ⟨s.index, hlt⟩).pc = .none := by
        rw [hinv.created, Server.created, hmain, if_neg (by decide)]
      rw [hnone]
      exact le_rfl
    case isFalse => cases h
  case next =>
    cases h
    refine ⟨?_, le_rfl⟩
    dsimp only
    by_cases hlt : s.index + 1 < n
    · rw [if_pos hlt]
      dsimp only
      omega
    · rw [if_neg hlt]
      dsimp only
      omega
  case join left =>
    cases left with
    | zero =>
      cases h
      exact ⟨le_rfl, le_rfl⟩
    | succ k =>
      dsimp only at h
      split at h
      · split at h
        · cases h
          exact ⟨le_rfl, le_rfl⟩
        · cases h
      · cases h

theorem Turn.mainRank_eq {w : Worker} (h : Turn s s' i w) : s'.mainRank = s.mainRank := by
  unfold Server.mainRank
  rw [h.main_eq, h.index_eq]

end Server

/-! ## The network -/

/-- The sum over a family of which one member changes. -/
theorem sum_update_add {ι α : Type*} [Fintype ι] [DecidableEq ι] (g : ι → α → ℕ) (f : ι → α)
    (i : ι) (x : α) :
    ∑ j, g j (Function.update f i x j) + g i (f i) = ∑ j, g j (f j) + g i x := by
  have hrest : ∀ j ∈ Finset.univ.erase i, g j (Function.update f i x j) = g j (f j) :=
    fun j hj => congrArg (g j) (Function.update_of_ne (Finset.ne_of_mem_erase hj) _ _)
  rw [← Finset.add_sum_erase _ _ (Finset.mem_univ i), Finset.sum_congr rfl hrest,
    ← Finset.add_sum_erase Finset.univ (fun j => g j (f j)) (Finset.mem_univ i),
    Function.update_self]
  omega

theorem rank_wrote (length : ℕ) {m : ℕ} {pc : SlavePc} (hle : m ≤ pc.unsent.length) :
    (pc.wrote m).rank length + 14 * m ≤ pc.rank length := by
  cases pc with
  | sendRequest left =>
    change m ≤ left.length at hle
    rw [SlavePc.wrote_sendRequest]
    split
    case isTrue =>
      show 14 * (2 + length) + 2 + 14 * m ≤ 14 * (left.length + (2 + length)) + 2
      omega
    case isFalse =>
      show 14 * ((left.drop m).length + (2 + length)) + 2 + 14 * m
        ≤ 14 * (left.length + (2 + length)) + 2
      rw [List.length_drop]
      omega
  | sendReport left =>
    change m ≤ left.length at hle
    rw [SlavePc.wrote_sendReport]
    split
    case isTrue =>
      show 0 + 14 * m ≤ 14 * left.length
      omega
    case isFalse =>
      show 14 * (left.drop m).length + 14 * m ≤ 14 * left.length
      rw [List.length_drop]
      omega
  | _ =>
    obtain rfl : m = 0 := Nat.le_zero.mp hle
    exact le_rfl

theorem rank_gotStart (length : ℕ) (c behind : Char) :
    (SlavePc.gotStart c behind).rank length + 1 ≤ SlavePc.readStart.rank length := by
  unfold SlavePc.gotStart
  split
  · exact le_rfl
  · exact Nat.succ_le_succ (Nat.zero_le _)

namespace ReportPc

theorem rank_next (calls : List GraphCall) : (next calls).rank ≤ 1 := by
  cases calls with
  | nil => exact Nat.zero_le 1
  | cons call calls =>
    unfold next
    dsimp only
    split
    · exact Nat.zero_le 1
    · exact le_rfl

theorem rank_read (quantity : ℕ) (text : Text) {pc : ReportPc} {size : ℕ}
    (hsize : pc.size = some size) : (pc.read quantity text).rank ≤ pc.rank + 2 := by
  cases pc with
  | environment numbers =>
    show (learn quantity (numbers ++ [atoi text])).rank ≤ 2
    unfold learn
    split
    · exact (rank_next _).trans (Nat.le_succ 1)
    · exact Nat.zero_le 2
  | buildGraph call calls =>
    show (if call.type = .values then next calls else .unlock calls).rank ≤ 2
    split
    · exact (rank_next _).trans (Nat.le_succ 1)
    · exact le_rfl
  | _ => cases hsize

end ReportPc

namespace NetworkEvent

variable {n : ℕ} {κ : Type}

/-- 1 for a step that uses something up, which all do but a turn of an SNMP thread and a wake-up
without a broadcast. -/
def productive : NetworkEvent n κ → ℕ
  | .snmp _ | .wakeUp _ => 0
  | _ => 1

/-- 1 for a worker that wakes up without a broadcast. -/
def spurious : NetworkEvent n κ → ℕ
  | .wakeUp _ => 1
  | _ => 0

end NetworkEvent

section Network

variable {n : ℕ} {κ : Type} [Fintype κ]

/-- What is still to be done. A character on its way counts for all that follows when it is read. -/
def Network.rank (report : κ → Queues) (s : Network n κ) : ℕ :=
  s.server.mainRank + s.server.rank + ∑ i, (s.reading i).rank +
    ∑ k, (s.slaves k).rank (clientSide (report k)).length + 13 * ∑ k, (s.toMaster k).length

variable [DecidableEq κ] {report : κ → Queues} {s s' : Network n κ} {e : NetworkEvent n κ}

/-- A step of a slave. -/
theorem rank_slave {k : κ} {pc : SlavePc} (text : Text)
    (hrank : pc.rank (clientSide (report k)).length + 13 * text.length + 1
      ≤ (s.slaves k).rank (clientSide (report k)).length + 13 * (s.toMaster k).length)
    {toSlave : κ → Text} {backlog : List κ} :
    Network.rank report { s with slaves := Function.update s.slaves k pc
                                 toMaster := Function.update s.toMaster k text
                                 toSlave := toSlave, backlog := backlog } + 1
      ≤ s.rank report := by
  have hslave :=
    sum_update_add (fun k pc => SlavePc.rank (clientSide (report k)).length pc) s.slaves k pc
  have hway := sum_update_add (fun _ => List.length) s.toMaster k text
  unfold Network.rank
  dsimp only
  omega

/-- A step of a slave that does not write. -/
theorem rank_slave' {k : κ} {pc : SlavePc}
    (hrank : pc.rank (clientSide (report k)).length + 1
      ≤ (s.slaves k).rank (clientSide (report k)).length)
    {toSlave : κ → Text} {backlog : List κ} :
    Network.rank report { s with slaves := Function.update s.slaves k pc
                                 toSlave := toSlave, backlog := backlog } + 1
      ≤ s.rank report := by
  have hslave :=
    sum_update_add (fun k pc => SlavePc.rank (clientSide (report k)).length pc) s.slaves k pc
  unfold Network.rank
  dsimp only
  omega

omit [DecidableEq κ] in
/-- A step of the server. -/
theorem rank_server (extra : ℕ) {server : Server n} {toSlave : κ → Text} {backlog : List κ}
    {peer : ℕ → Option κ}
    (hrank : server.mainRank + server.rank + 1 ≤ s.server.mainRank + s.server.rank + extra) :
    Network.rank report { s with server := server, toSlave := toSlave, backlog := backlog
                                 peer := peer } + 1 ≤ s.rank report + extra := by
  unfold Network.rank
  dsimp only
  omega

/-- A character is read. -/
theorem rank_read {k : κ} {c : Char} {rest : Text} (hto : s.toMaster k = c :: rest)
    {server : Server n} {buffer : Fin n → Text} {reading : Fin n → ReportPc}
    {generalReport : Fin n → List Block} {myreport : List (Fin n × Block)}
    (hserver : server.mainRank + server.rank + ∑ i, (reading i).rank
      ≤ s.server.mainRank + s.server.rank + ∑ i, (s.reading i).rank + 12) :
    Network.rank report { s with server := server
                                 toMaster := Function.update s.toMaster k rest
                                 buffer := buffer, reading := reading
                                 generalReport := generalReport, myreport := myreport } + 1
      ≤ s.rank report := by
  have hway := sum_update_add (fun _ => List.length) s.toMaster k rest
  rw [hto, List.length_cons] at hway
  unfold Network.rank
  dsimp only
  omega

omit [DecidableEq κ] in
/-- A worker goes on between two parts of its report. -/
theorem rank_report {i : Fin n} {pc : ReportPc} (hrank : pc.rank + 1 ≤ (s.reading i).rank)
    {plotLock : Option (Fin n)} :
    Network.rank report { s with plotLock := plotLock
                                 reading := Function.update s.reading i pc } + 1
      ≤ s.rank report := by
  have hreading := sum_update_add (fun _ => ReportPc.rank) s.reading i pc
  unfold Network.rank
  dsimp only
  omega

/-- Every step uses up what it should. -/
theorem rank_move (hinv : MainInv s.server) (hmove : NetworkMove report s e s') :
    s'.rank report + e.productive ≤ s.rank report + 2 * e.spurious := by
  cases hmove with
  | connect k hk =>
    refine rank_slave' ?_
    rw [hk]
    show 14 * (2 + (2 + _)) + 2 + 1 ≤ 14 * (4 + _) + 3
    omega
  | write k m hpos hle =>
    refine rank_slave _ ?_
    have hrank := rank_wrote (clientSide (report k)).length hle
    rw [List.length_append, List.length_take]
    omega
  | readStart k behind hk hto =>
    refine rank_slave' ?_
    rw [hk]
    exact rank_gotStart _ _ _
  | benchmark k hk =>
    refine rank_slave' ?_
    rw [hk]
    show 14 * (REPORT_MESSAGE ++ clientSide (report k)).length + 1 ≤ 14 * (2 + _) + 1
    rw [List.length_append]
    exact le_rfl
  | accept fd hbacklog hserver =>
    obtain ⟨hmain, hrank⟩ := mainRank_accept hserver
    exact rank_server 0 (by omega)
  | main hserver =>
    obtain ⟨hmain, hrank⟩ := mainRank_serverSide hinv hserver
    exact rank_server 0 (by omega)
  | worker i hserver hpc =>
    obtain ⟨w, hturn, -⟩ := exists_turn_clientManagement hserver
    have hrank := rank_clientManagement hserver
    exact rank_server 0 (by rw [hturn.mainRank_eq]; omega)
  | sendStart i hserver hpc =>
    obtain ⟨w, hturn, -⟩ := exists_turn_clientManagement hserver
    have hrank := rank_clientManagement hserver
    exact rank_server 0 (by rw [hturn.mainRank_eq]; omega)
  | readChar i hslave hto hpc hlen => exact rank_read hto (Nat.le_add_right _ _)
  | readMessage i hslave hto hpc hlen hserver =>
    obtain ⟨-, w, hturn, -⟩ := exists_turn_receive hserver
    have hrank := rank_receive hserver
    exact rank_read hto (by rw [hturn.mainRank_eq]; omega)
  | readPart i hslave hto hpc hsize hloop => exact rank_read hto (Nat.le_add_right _ _)
  | @readText i k c rest size r hslave hto hpc hsize hloop hread =>
    have hrank := ReportPc.rank_read n r.buffer hsize
    have hreading := sum_update_add (fun _ => ReportPc.rank) s.reading i
      ((s.reading i).read n r.buffer)
    refine rank_read hto ?_
    dsimp only [Network.enqueue]
    omega
  | lockPlot i hreading hpc hfree => exact rank_report (by rw [hreading]; exact le_rfl)
  | unlockPlot i hreading hpc =>
    refine rank_report ?_
    rw [hreading]
    exact Nat.succ_le_succ (ReportPc.rank_next _)
  | @plotNode i server hreading hserver =>
    obtain ⟨-, w, hturn, -⟩ := exists_turn_readReport hserver
    have hrank := rank_readReport hserver
    have hmain := hturn.mainRank_eq
    have hsum := sum_update_add (fun _ => ReportPc.rank) s.reading i (.environment [])
    have hidle : (ReportPc.environment []).rank = 0 := rfl
    unfold Network.rank
    dsimp only [NetworkEvent.productive, NetworkEvent.spurious]
    omega
  | @wakeUp i server hserver =>
    obtain ⟨-, w, hturn, -⟩ := exists_turn_wakeUp hserver
    have hrank := rank_wakeUp hserver
    have hmain := hturn.mainRank_eq
    unfold Network.rank
    dsimp only [NetworkEvent.productive, NetworkEvent.spurious]
    omega
  | snmp _ hserver =>
    obtain ⟨_, -, rfl⟩ := asynchronousSnmp_frame hserver
    exact le_rfl

/-! ## The bound -/

omit [DecidableEq κ] in
theorem rank_networkStart (report : κ → Queues) (param : ℕ) :
    (networkStart n κ param).rank report
      ≤ 12 * n + 6 + ∑ k, (14 * (clientSide (report k)).length + 59) := by
  have hworkers : (serverStart n param).rank = 6 * n := by
    show ∑ _i : Fin n, 6 = 6 * n
    rw [Finset.sum_const, Finset.card_fin, smul_eq_mul, Nat.mul_comm]
  have hmain : (serverStart n param).mainRank = 5 * (n - 1) + n + 6 := rfl
  have hslaves : ∑ k, SlavePc.connect.rank (clientSide (report k)).length
      = ∑ k, (14 * (clientSide (report k)).length + 59) :=
    Finset.sum_congr rfl fun k _ => by
      show 14 * (4 + _) + 3 = _
      omega
  have hreading : ∑ _i : Fin n, (ReportPc.environment []).rank = 0 := Finset.sum_const_zero
  have hway : ∑ _k : κ, ([] : Text).length = 0 := Finset.sum_const_zero
  show (serverStart n param).mainRank + (serverStart n param).rank
    + ∑ _i : Fin n, (ReportPc.environment []).rank
    + ∑ k, SlavePc.connect.rank (clientSide (report k)).length
    + 13 * ∑ _k : κ, ([] : Text).length ≤ _
  rw [hworkers, hmain, hslaves, hreading, hway]
  omega

/-- In every order of steps: apart from turns of the SNMP threads, master and slaves take no more
steps than their number and the length of the reports allow, and two for each time a worker wakes
up without a broadcast. -/
theorem steps_bounded {param : ℕ} {history : List (NetworkTransition n κ)}
    (hrun : Run (NetworkStep report) (networkStart n κ param) history s) :
    total (fun t => t.event.productive) history
      ≤ 12 * n + 6 + ∑ k, (14 * (clientSide (report k)).length + 59)
        + total (fun t => 2 * t.event.spurious) history := by
  have hinv : ∀ (s : Network n κ) e s', MainInv s.server → NetworkStep report s e s' →
      MainInv s'.server := fun _ _ _ hinv hstep =>
    server_invariant (fun _ _ _ hinv hstep => hinv.step hstep) (networkMove_of_step hstep) hinv
  have hbalance := Run.balance (Network.rank report) (fun t => t.event.productive)
    (fun t => 2 * t.event.spurious) hinv
    (fun _ _ _ hinv hstep => rank_move hinv (networkMove_of_step hstep)) hrun
    (mainInv_serverStart param)
  have hstart := rank_networkStart (n := n) report param
  omega

end Network

theorem steps_bounded_startSecond :
    ∃ history s, Run (NetworkStep fun _ => emptyQueues) (networkStart 2 (Fin 2) 0) history s ∧
      total (fun t => t.event.productive) history = 35 ∧
      35 ≤ 12 * 2 + 6 + (59 + 59) + total (fun t => 2 * t.event.spurious) history := by
  have hend : (followSome (runNetwork fun _ => emptyQueues) (startSecond 0 1)
      (networkStart 2 (Fin 2) 0)).map (fun r => total (fun t => t.event.productive) r.1)
      = some 35 := by
    decide
  obtain ⟨⟨history, s⟩, hfollow, hsteps⟩ := Option.map_eq_some_iff.mp hend
  have hrun : Run (NetworkStep fun _ => emptyQueues) (networkStart 2 (Fin 2) 0) history s :=
    Run.of_followSome hfollow
  have hbound := steps_bounded hrun
  rw [hsteps, Fin.sum_univ_two] at hbound
  exact ⟨history, s, hrun, hsteps, hbound⟩

end OfcBenchmark
