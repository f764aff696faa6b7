import OfcBenchmark.EnvironmentTheorems

/-!
# The order of the blocks in a report

The slave sends its report queue by queue, the master reads it test by test. So the blocks are
taken for what they are if there is only one test (`report_inOrder_iff`).
-/

namespace OfcBenchmark
open Printf

/-! ## Which tests there are -/

theorem countBits_ne_zero {n : BitVec 32} (h : n ≠ 0) : countBits n ≠ 0 := by
  intro hcount
  refine h (BitVec.eq_of_getLsbD_eq ?_)
  intro i hi
  have hnil := List.length_eq_zero_iff.mp hcount
  have hbit := List.filter_eq_nil_iff.mp hnil i (List.mem_range.mpr hi)
  exact (Bool.eq_false_of_not_eq_true hbit).trans BitVec.getLsbD_zero.symm

/-- The comment in the source notwithstanding, there is a test for every number of switches. -/
theorem countBits_switch_ne_zero (p : ReportParams) {i : ℕ} (hi : i < p.nSwitches.toNat) :
    countBits (BitVec.ofNat 32 (i + 1)) ≠ 0 := by
  apply countBits_ne_zero
  intro hzero
  have htoNat := congrArg BitVec.toNat hzero
  have hlt := p.nSwitches.isLt
  rw [BitVec.toNat_ofNat, Nat.mod_eq_of_lt (by omega)] at htoNat
  exact Nat.succ_ne_zero i htoNat

theorem testedSwitches_range {p : ReportParams} (h : p.testRange = true) :
    testedSwitches p = List.range p.nSwitches.toNat :=
  List.filter_eq_self.mpr fun _ hi =>
    decide_eq_true ⟨countBits_switch_ne_zero p (List.mem_range.mp hi), .inl h⟩

theorem testedSwitches_single {p : ReportParams} (hn : 1 ≤ p.nSwitches.toNat)
    (h : p.testRange = false ∨ p.nSwitches.toNat = 1) :
    testedSwitches p = [p.nSwitches.toNat - 1] := by
  rcases Bool.eq_false_or_eq_true p.testRange with hrange | hrange
  · have hone : p.nSwitches.toNat = 1 :=
      h.resolve_left fun hfalse => by cases hfalse.symm.trans hrange
    rw [testedSwitches_range hrange, hone]
    rfl
  · obtain ⟨m, hm⟩ := Nat.exists_eq_add_of_le' hn
    have hlast : isTested p m = true :=
      decide_eq_true ⟨countBits_switch_ne_zero p (by omega), .inr hm.symm⟩
    have hbefore : (List.range m).filter (isTested p) = [] := by
      apply List.filter_eq_nil_iff.mpr
      intro i hi htest
      have hlt := List.mem_range.mp hi
      rcases (of_decide_eq_true htest).2 with htrue | heq
      · cases htrue.symm.trans hrange
      · omega
    rw [testedSwitches, hm, List.range_succ, List.filter_append, hbefore,
      List.filter_cons_of_pos hlast]
    rfl

/-! ## The blocks that are sent -/

/-- The block of a test in a queue, without the LIMITER at its end. -/
def TestRows.blockText (t : TestRows) (id : QueueId) : Text := (t.messages id).flatten.dropLast

/-- The blocks in a queue, test by test. -/
def queueBlocks (p : ReportParams) (rows : ℕ → TestRows) (id : QueueId) : List Block :=
  (testedSwitches p).zipIdx.map fun test => ⟨id, test.2, (rows test.1).blockText id⟩

/-- The blocks of a report, in the order in which they are sent. -/
def sentBlocks (p : ReportParams) (rows : ℕ → TestRows) : List Block :=
  queueBlocks p rows .values ++ queueBlocks p rows .avgs ++ queueBlocks p rows .results

/-- The queues that are sent. -/
def sentQueues : List QueueId := [.values, .avgs, .results]

/-- The messages of a test make a block in each queue: a LIMITER stands at its end, and only
there. -/
def TestRows.WellDelimited (t : TestRows) : Prop :=
  ∀ id ∈ sentQueues, IsBlock (t.blockText id) ∧
    (t.messages id).flatten = t.blockText id ++ [LIMITER]

instance : DecidablePred TestRows.WellDelimited := fun t =>
  inferInstanceAs (Decidable (∀ id ∈ sentQueues, IsBlock (t.blockText id) ∧
    (t.messages id).flatten = t.blockText id ++ [LIMITER]))

/-- Blocks on the wire. -/
def wire (blocks : List Block) : Text := blocks.flatMap fun block => block.text ++ [LIMITER]

theorem wire_append (blocks blocks' : List Block) :
    wire (blocks ++ blocks') = wire blocks ++ wire blocks' :=
  List.flatMap_append

variable {p : ReportParams} {rows : ℕ → TestRows}

theorem wire_queueBlocks (hrows : ∀ i ∈ testedSwitches p, (rows i).WellDelimited) {id : QueueId}
    (hid : id ∈ sentQueues) :
    wire (queueBlocks p rows id)
      = ((testedSwitches p).flatMap fun i => (rows i).messages id).flatten := by
  have hfrom (is : List ℕ) (k : ℕ) (his : ∀ i ∈ is, (rows i).WellDelimited) :
      wire ((is.zipIdx k).map fun test => ⟨id, test.2, (rows test.1).blockText id⟩)
        = (is.flatMap fun i => (rows i).messages id).flatten := by
    induction is generalizing k with
    | nil => rfl
    | cons i is ih =>
      obtain ⟨hi, hrest⟩ := List.forall_mem_cons.mp his
      rw [List.zipIdx_cons, List.map_cons, List.flatMap_cons, List.flatten_append,
        ← ih (k + 1) hrest, (hi id hid).2]
      rfl
  exact hfrom _ 0 hrows

/-- What `clientSide` sends is the environment and these blocks. -/
theorem clientSide_eq_wire (hrows : ∀ i ∈ testedSwitches p, (rows i).WellDelimited) :
    clientSide (controllerBenchmarking p rows) = environmentText p ++ wire (sentBlocks p rows) := by
  have htests (id : QueueId) : (testedSwitches p).foldl
      (fun queues i => enqueueTest (rows i) queues) emptyQueues id
        = (testedSwitches p).flatMap fun i => (rows i).messages id :=
    foldl_enqueueTest_apply rows (testedSwitches p) emptyQueues id
  rw [clientSide_controllerBenchmarking, reportRows, clientSide_eq, htests, htests, htests,
    sentBlocks, wire_append, wire_append, wire_queueBlocks hrows (by decide),
    wire_queueBlocks hrows (by decide), wire_queueBlocks hrows (by decide)]

/-! ## What is read -/

/-- Each block fits into the array of the call that reads it, so that it is read up to its
LIMITER. -/
def Intact (calls : List GraphCall) (blocks : List Block) : Prop :=
  ∀ pair ∈ calls.zip blocks, pair.2.text.length < pair.1.size

instance (calls : List GraphCall) (blocks : List Block) : Decidable (Intact calls blocks) :=
  inferInstanceAs (Decidable (∀ pair ∈ calls.zip blocks, pair.2.text.length < pair.1.size))

/-- For which queue and as which test something is read. -/
def GraphCall.tag (call : GraphCall) : QueueId × ℕ := (call.type, call.test)

/-- The same of a block. -/
def Block.tag (block : Block) : QueueId × ℕ := (block.type, block.test)

/-- Intact blocks are read one by one, whatever they are. -/
theorem readBlocks_wire {calls : List GraphCall} {blocks : List Block} (rest : Text)
    (hlength : calls.length = blocks.length) (hblocks : ∀ block ∈ blocks, IsBlock block.text)
    (hintact : Intact calls blocks) :
    readBlocks calls (wire blocks ++ rest) = some
      (List.zipWith (fun call block => ⟨call.type, call.test, block.text⟩) calls blocks, rest) := by
  induction calls generalizing blocks with
  | nil =>
    rw [List.length_eq_zero_iff.mp hlength.symm]
    rfl
  | cons call calls ih =>
    obtain ⟨block, blocks, rfl⟩ := List.exists_cons_of_length_eq_add_one hlength.symm
    obtain ⟨hblock, hrest⟩ := List.forall_mem_cons.mp hblocks
    obtain ⟨hfit, hfits⟩ := List.forall_mem_cons.mp hintact
    obtain ⟨bytesRead, -, hread⟩ : ∃ bytesRead, 0 < bytesRead ∧
        readSocketLimiter call.size (block.text ++ LIMITER :: (wire blocks ++ rest))
          = some ⟨block.text, bytesRead, wire blocks ++ rest⟩ :=
      readSocketLimiter_block hblock hfit
    have hwire : wire (block :: blocks) ++ rest
        = block.text ++ LIMITER :: (wire blocks ++ rest) := by
      rw [wire, List.flatMap_cons, List.append_assoc, List.append_assoc]
      rfl
    rw [hwire, readBlocks, hread, Option.bind_eq_bind, Option.bind_some,
      ih (Nat.succ.inj hlength) hrest hfits]
    rfl

/-- The reader decides what a block is taken for. -/
theorem tag_readBlocks {calls : List GraphCall} {socket rest : Text} {blocks : List Block}
    (h : readBlocks calls socket = some (blocks, rest)) :
    blocks.map Block.tag = calls.map GraphCall.tag := by
  induction calls generalizing socket blocks with
  | nil =>
    cases h
    rfl
  | cons call calls ih =>
    obtain ⟨r, -, h⟩ := Option.bind_eq_some_iff.mp h
    obtain ⟨⟨blocks', rest'⟩, hrest, h⟩ := Option.bind_eq_some_iff.mp h
    obtain ⟨rfl, rfl⟩ := Prod.mk.inj (Option.some.inj h)
    rw [List.map_cons, List.map_cons, ih hrest]
    rfl

theorem readSocketLimiter_of_buildGraph {hostnames : List Text} {queues : Queues} {socket : Text}
    {id flows : ℕ} {type : QueueId} {rows mode : ℤ} {r : Queues × Text}
    (h : buildGraph hostnames queues socket id type flows rows mode = some r) :
    ∃ received, readSocketLimiter (150 * rows).toNat socket = some received ∧
      received.socket = r.2 := by
  obtain ⟨received, hread, h⟩ := Option.bind_eq_some_iff.mp h
  obtain ⟨body, -, h⟩ := Option.bind_eq_some_iff.mp h
  obtain ⟨queues', -, h⟩ := Option.bind_eq_some_iff.mp h
  cases h
  exact ⟨received, hread, rfl⟩

theorem readSocketLimiter_of_plotNodeStep {hostnames : List Text} {id : ℕ} {e : Environment}
    {s s' : PlotState} {call : GraphCall} (h : plotNodeStep hostnames id e s call = some s') :
    ∃ received, readSocketLimiter call.size s.socket = some received ∧
      received.socket = s'.socket := by
  unfold plotNodeStep at h
  split at h
  case h_4 => cases h
  all_goals
    obtain ⟨r, hbuild, rfl⟩ := Option.map_eq_some_iff.mp h
    exact readSocketLimiter_of_buildGraph hbuild

/-- What `plotNode` reads is what its calls of `buildGraph` read. -/
theorem readBlocks_of_plotNode {hostnames : List Text} {id : ℕ} {e : Environment}
    {s s' : PlotState} (h : plotNode hostnames id e s = some s') :
    ∃ blocks,
      readBlocks (plotNodeCalls e hostnames.length) s.socket = some (blocks, s'.socket) := by
  have hcalls (calls : List GraphCall) (s : PlotState)
      (h : calls.foldlM (plotNodeStep hostnames id e) s = some s') :
      ∃ blocks, readBlocks calls s.socket = some (blocks, s'.socket) := by
    induction calls generalizing s with
    | nil =>
      cases h
      exact ⟨[], rfl⟩
    | cons call calls ih =>
      obtain ⟨s₁, hstep, hrest⟩ := Option.bind_eq_some_iff.mp h
      obtain ⟨received, hread, hsocket⟩ := readSocketLimiter_of_plotNodeStep hstep
      obtain ⟨blocks, hblocks⟩ := ih s₁ hrest
      refine ⟨⟨call.type, call.test, received.buffer⟩ :: blocks, ?_⟩
      rw [readBlocks, hread, Option.bind_eq_bind, Option.bind_some, hsocket, hblocks]
      rfl
  exact hcalls _ s h

/-! ## Whether it is in order -/

/-- There is one test at least. -/
theorem exists_plotNodeCalls (e : Environment) (quantity : ℕ) :
    ∃ calls, plotNodeCalls e quantity
      = ⟨.values, 0, e.nLines⟩ :: ⟨.avgs, 0, e.nLines⟩ :: ⟨.results, 0, quantity⟩ :: calls := by
  obtain ⟨k, hk⟩ : ∃ k, plotNodeTests e = k + 1 := by
    refine Nat.exists_eq_add_of_le' ?_
    unfold plotNodeTests
    split
    · exact le_rfl
    · exact le_max_left _ _
  rw [plotNodeCalls, hk, List.range_succ_eq_map, List.flatMap_cons]
  exact ⟨_, rfl⟩

/-- In a range of two tests and more, the second block sent is one of VALUES. -/
theorem exists_tag_sentBlocks (rows : ℕ → TestRows) (hrange : p.testRange = true)
    (hn : 2 ≤ p.nSwitches.toNat) :
    ∃ tags, (sentBlocks p rows).map Block.tag = (.values, 0) :: (.values, 1) :: tags := by
  obtain ⟨m, hm⟩ := Nat.exists_eq_add_of_le' hn
  rw [sentBlocks, queueBlocks, testedSwitches_range hrange, hm, List.range_succ_eq_map,
    List.range_succ_eq_map, List.map_cons, List.zipIdx_cons, List.zipIdx_cons]
  exact ⟨_, rfl⟩

/-- A report of one test: one block in each queue. -/
theorem sentBlocks_single (rows : ℕ → TestRows) {i : ℕ} (h : testedSwitches p = [i]) :
    sentBlocks p rows = sentQueues.map fun id => ⟨id, 0, (rows i).blockText id⟩ := by
  rw [sentBlocks, queueBlocks, queueBlocks, queueBlocks, h]
  rfl

theorem plotNodeTests_single (h : p.testRange = false ∨ p.nSwitches.toNat = 1) :
    plotNodeTests p.written = 1 := by
  rcases Bool.eq_false_or_eq_true p.testRange with hrange | hrange
  · have hone : p.nSwitches.toNat = 1 :=
      h.resolve_left fun hfalse => by cases hfalse.symm.trans hrange
    have hint : p.written.nSwitches = 1 := by
      rw [show p.written.nSwitches = p.nSwitches.toInt from rfl,
        BitVec.toInt_eq_toNat_of_lt (by omega), hone]
      rfl
    have hne : p.written.testRange ≠ 0 := by
      rw [show p.written.testRange = if p.testRange then 1 else 0 from rfl, hrange]
      decide
    rw [plotNodeTests, if_neg hne, hint]
    rfl
  · have hzero : p.written.testRange = 0 := by
      rw [show p.written.testRange = if p.testRange then 1 else 0 from rfl, hrange]
      rfl
    rw [plotNodeTests, if_pos hzero]

theorem receiveReport_of_intact (quantity : ℕ) (henv : EnvironmentIntact p)
    (hrows : ∀ i ∈ testedSwitches p, (rows i).WellDelimited) :
    (receiveReport quantity (clientSide (controllerBenchmarking p rows))).map Prod.snd
      = readBlocks (plotNodeCalls p.written quantity) (wire (sentBlocks p rows)) := by
  rw [clientSide_eq_wire hrows, receiveReport, readEnvironment_of_intact _ henv,
    Option.bind_eq_bind, Option.bind_some]
  dsimp only
  cases readBlocks (plotNodeCalls p.written quantity) (wire (sentBlocks p rows)) <;> rfl

/-- Where every block is read up to its LIMITER, the master takes each for what it is, and reads
all of them, exactly if there is only one test. The blocks are counted: the first that is read
is the first that was sent, and so on. -/
theorem report_inOrder_iff (quantity : ℕ) (hn : 1 ≤ p.nSwitches.toNat)
    (henv : EnvironmentIntact p) (hrows : ∀ i ∈ testedSwitches p, (rows i).WellDelimited)
    (hintact : Intact (plotNodeCalls p.written quantity) (sentBlocks p rows)) :
    (receiveReport quantity (clientSide (controllerBenchmarking p rows))).map Prod.snd
        = some (sentBlocks p rows, []) ↔
      p.testRange = false ∨ p.nSwitches.toNat = 1 := by
  rw [receiveReport_of_intact quantity henv hrows]
  constructor
  · intro h
    by_contra hnot
    obtain ⟨hrange, hne⟩ := not_or.mp hnot
    obtain ⟨calls, hcalls⟩ := exists_plotNodeCalls p.written quantity
    obtain ⟨tags, hsent⟩ :=
      exists_tag_sentBlocks rows (Bool.eq_true_of_not_eq_false hrange) (by omega)
    have htags := tag_readBlocks h
    rw [hcalls, hsent] at htags
    cases htags
  · intro h
    have hblocks := sentBlocks_single rows (testedSwitches_single hn h)
    have hcalls : plotNodeCalls p.written quantity = [⟨.values, 0, p.written.nLines⟩,
        ⟨.avgs, 0, p.written.nLines⟩, ⟨.results, 0, quantity⟩] := by
      rw [plotNodeCalls, plotNodeTests_single h]
      rfl
    have hwell := hrows _ (by rw [testedSwitches_single hn h]; exact List.mem_singleton_self _)
    have hread := readBlocks_wire [] (by rw [hcalls, hblocks]; rfl) (fun block hblock => by
      rw [hblocks] at hblock
      obtain ⟨id, hid, rfl⟩ := List.mem_map.mp hblock
      exact (hwell id hid).1) hintact
    rw [List.append_nil] at hread
    rw [hread, hcalls, hblocks]
    rfl

/-- Two switches, tested together. -/
def twoAtOnce : ReportParams := ⟨2, 1, .latency, false⟩

theorem report_inOrder_iff_twoAtOnce :
    (receiveReport 1 (clientSide (controllerBenchmarking twoAtOnce idleTest))).map Prod.snd
      = some (sentBlocks twoAtOnce idleTest, []) :=
  (report_inOrder_iff 1 (by decide) (by decide) (by decide) (by decide)).mpr (.inl rfl)

/-- Two switches, tested one after the other. -/
def twoInRange : ReportParams := ⟨2, 1, .latency, true⟩

/-- All blocks are read up to their LIMITER, but the values of the second test are read as the
averages of the first. -/
theorem not_report_inOrder_twoInRange :
    EnvironmentIntact twoInRange ∧
      (∀ i ∈ testedSwitches twoInRange, (idleTest i).WellDelimited) ∧
      Intact (plotNodeCalls twoInRange.written 1) (sentBlocks twoInRange idleTest) ∧
      (receiveReport 1 (clientSide (controllerBenchmarking twoInRange idleTest))).map
        (fun r => r.2.1[1]?) = some (some ⟨.avgs, 0, (idleTest 1).blockText .values⟩) ∧
      (receiveReport 1 (clientSide (controllerBenchmarking twoInRange idleTest))).map Prod.snd
        ≠ some (sentBlocks twoInRange idleTest, []) := by
  decide

end OfcBenchmark
