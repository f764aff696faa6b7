import OfcBenchmark.RowTheorems

/-!
# The reports of the slaves

A report is about one test, or about one for each number of switches. Its texts are sent queue by
queue behind the environment (`SlaveReport.clientSide_report`), and the master reads them with calls
for VALUES, AVGS and RESULTS, in turn. With one test each text is taken for what it is
(`SlaveReport.blocks_of_oneTest`); with more only the first one is sure to be
(`SlaveReport.exists_read_values`).
-/

namespace OfcBenchmark
open Printf

/-- A test: the number of its switches, its loops, and the results. -/
structure TestReport where
  nSwitches : ℕ
  loops : List LoopData
  results : TestResults
  loops_ne : loops ≠ []
  length_counts : ∀ d ∈ loops, d.counts.length = nSwitches

/-- A report: the address of the slave, the parameters, and the test after each switch for which
there is one. -/
structure SlaveReport where
  address : Address
  params : ReportParams
  tests : ℕ → TestReport
  one_le_nSwitches : 1 ≤ params.nSwitches.toNat
  nSwitches_tests : ∀ i ∈ testedSwitches params, (tests i).nSwitches = i + 1
  length_loops : ∀ i ∈ testedSwitches params,
    (tests i).loops.length = params.loopsPerTest.toNat

section Texts

variable (fl : ℚ → ℚ)

/-- What is to be sent about a test. -/
def TestReport.text (mode : TestMode) (t : TestReport) : QueueId → Text
  | .values => rowsBlock (valuesNumbers fl) t.loops
  | .avgs => rowsBlock (avgsNumbers fl) t.loops
  | .results => resultsRow fl mode t.results
  | .snmp | .time => []

/-- What is sent: of the results, up to 150 characters. -/
def TestReport.message (mode : TestMode) (t : TestReport) (id : QueueId) : Text :=
  if id = .results then (t.text fl mode id ++ [LIMITER]).take 150
  else t.text fl mode id ++ [LIMITER]

namespace SlaveReport

variable (quantity : ℕ) (s : SlaveReport)

/-- The messages in the order in which they are sent. -/
def rowsText : Text :=
  sentQueues.flatMap fun id =>
    (testedSwitches s.params).flatMap fun i => (s.tests i).message fl s.params.mode id

/-- All that is sent. -/
def stream : Text := environmentText s.params ++ s.rowsText fl

/-- What is read of it. -/
def blocks : Option (List Block) := (receiveReport quantity (s.stream fl)).map fun r => r.2.1

/-- What there is still to be read when `plotNode` comes to AVGS for the `j`-th time. -/
def avgsSocket (j : ℕ) : Option Text := do
  let (e, socket) ← readEnvironment (s.stream fl)
  (readBlocks ((plotNodeCalls e quantity).take (3 * j + 1)) socket).map Prod.snd

/-- The texts that are read for a queue. -/
def read (id : QueueId) : List Text :=
  (((s.blocks fl quantity).getD []).filter fun block => block.type = id).map Block.text

/-- The bodies of its results, where the host name is put in front. -/
def bodies : List (Option Text) :=
  (s.read fl quantity .results).map (graphBody [hostname s.address] 0 .results quantity)

/-- The rows of its loops fit into the buffers they are built in. -/
structure Built : Prop where
  values : ∀ i ∈ testedSwitches s.params,
    ∀ row ∈ completeRows (valuesNumbers fl) (s.tests i).loops, row.length ≤ 149
  avgs : ∀ i ∈ testedSwitches s.params,
    ∀ row ∈ completeRows (avgsNumbers fl) (s.tests i).loops, row.length ≤ 149

/-- All of it is sent as a whole. -/
structure Complete : Prop where
  loopsPerTest_le : s.params.loopsPerTest.toNat ≤ 9999
  rowsFit : ∀ i ∈ testedSwitches s.params,
    RowsFit fl s.params.mode (s.tests i).loops (s.tests i).results

instance : Decidable (s.Complete fl) :=
  decidable_of_iff (s.params.loopsPerTest.toNat ≤ 9999 ∧ ∀ i ∈ testedSwitches s.params,
      RowsFit fl s.params.mode (s.tests i).loops (s.tests i).results)
    ⟨fun h => ⟨h.1, h.2⟩, fun h => ⟨h.loopsPerTest_le, h.rowsFit⟩⟩

/-- There is one test only. -/
def OneTest : Prop := s.params.testRange = false ∨ s.params.nSwitches.toNat = 1

/-- The test with all switches. -/
def lastTest : TestReport := s.tests (s.params.nSwitches.toNat - 1)

end SlaveReport

end Texts

namespace SlaveReport

variable {fl : ℚ → ℚ} {quantity : ℕ} {s : SlaveReport}

theorem Complete.built (h : s.Complete fl) : s.Built fl :=
  ⟨fun i hi => (h.rowsFit i hi).values, fun i hi => (h.rowsFit i hi).avgs⟩

/-! ## How many there are -/

theorem oneTest_iff : s.OneTest ↔ (testedSwitches s.params).length = 1 := by
  constructor
  · intro h
    rw [testedSwitches_single s.one_le_nSwitches h]
    rfl
  · intro h
    by_contra hnot
    obtain ⟨hrange, hne⟩ := not_or.mp hnot
    rw [testedSwitches_range (Bool.eq_true_of_not_eq_false hrange), List.length_range] at h
    exact hne h

/-- In a range of tests there are two at least. -/
theorem testedSwitches_of_not_oneTest (h : ¬ s.OneTest) :
    s.params.testRange = true ∧ ∃ m, testedSwitches s.params = List.range (m + 2) := by
  obtain ⟨hrange, hne⟩ := not_or.mp h
  have htrue := Bool.eq_true_of_not_eq_false hrange
  have hpos := s.one_le_nSwitches
  obtain ⟨m, hm⟩ : ∃ m, s.params.nSwitches.toNat = m + 2 :=
    ⟨s.params.nSwitches.toNat - 2, by omega⟩
  exact ⟨htrue, m, by rw [testedSwitches_range htrue, hm]⟩

theorem exists_testedSwitches (s : SlaveReport) :
    ∃ i rest, testedSwitches s.params = i :: rest := by
  by_cases h : s.OneTest
  · exact ⟨_, _, testedSwitches_single s.one_le_nSwitches h⟩
  · obtain ⟨-, m, hm⟩ := testedSwitches_of_not_oneTest h
    exact ⟨_, _, hm.trans List.range_succ_eq_map⟩

theorem last_mem_testedSwitches (s : SlaveReport) :
    s.params.nSwitches.toNat - 1 ∈ testedSwitches s.params := by
  by_cases h : s.OneTest
  · rw [testedSwitches_single s.one_le_nSwitches h]
    exact List.mem_singleton_self _
  · have hpos := s.one_le_nSwitches
    rw [testedSwitches_range (Bool.eq_true_of_not_eq_false (not_or.mp h).1), List.mem_range]
    omega

theorem nSwitches_lastTest (s : SlaveReport) :
    s.lastTest.nSwitches = s.params.nSwitches.toNat := by
  have hpos := s.one_le_nSwitches
  rw [lastTest, s.nSwitches_tests _ s.last_mem_testedSwitches]
  omega

theorem lt_of_mem_testedSwitches (s : SlaveReport) {i : ℕ} (h : i ∈ testedSwitches s.params) :
    i < s.params.nSwitches.toNat :=
  List.mem_range.mp (List.mem_filter.mp h).1

/-- A row has two characters at least for each switch, so there are not many. -/
theorem Built.nSwitches_le (h : s.Built fl) : s.params.nSwitches.toNat ≤ 74 := by
  have hpos := s.one_le_nSwitches
  have hlast := s.last_mem_testedSwitches
  obtain ⟨d, loops, hloops⟩ := List.exists_cons_of_ne_nil (s.tests _).loops_ne
  have hrow := h.values _ hlast (valuesNumbers fl d ++ rowEnd loops.isEmpty) (by
    rw [hloops]
    exact List.mem_cons_self)
  have hcounts : d.counts.length = s.params.nSwitches.toNat := by
    rw [(s.tests _).length_counts d (by rw [hloops]; exact List.mem_cons_self),
      s.nSwitches_tests _ hlast]
    omega
  have hnumbers : 2 * d.counts.length
      ≤ (d.counts.flatMap fun count => ',' :: formatInt count).length := by
    have hsum := List.card_nsmul_le_sum
      (d.counts.map fun count => (',' :: formatInt count).length) 2 fun k hk => by
        obtain ⟨count, -, rfl⟩ := List.mem_map.mp hk
        have hdigits := List.length_pos_iff.mpr (isBlock_formatInt count).ne_nil
        rw [List.length_cons]
        omega
    rw [List.length_map, smul_eq_mul] at hsum
    rw [List.length_flatMap]
    omega
  rw [List.length_append, valuesNumbers, List.length_append] at hrow
  omega

/-! ## What is read -/

theorem Built.readEnvironment_of_le (h : s.Built fl) (hl : s.params.loopsPerTest.toNat ≤ 9999) :
    readEnvironment (s.stream fl) = some (s.params.written, s.rowsText fl) :=
  readEnvironment_of_intact _ (environmentIntact_of_le (h.nSwitches_le.trans (by decide)) hl)

/-- When something has been read there were not too many loops: otherwise the number is cut, and
its LIMITER comes first in the next one, or it is negative. -/
theorem Built.loopsPerTest_le (h : s.Built fl) {e : Environment} {socket : Text}
    {calls : List GraphCall} {r : List Block × Text}
    (henv : readEnvironment (s.stream fl) = some (e, socket))
    (hread : readBlocks (⟨.values, 0, e.nLines⟩ :: calls) socket = some r) :
    s.params.loopsPerTest.toNat ≤ 9999 := by
  have hn : s.params.nSwitches.toNat ≤ 9999 := h.nSwitches_le.trans (by decide)
  by_contra hmany
  have hshort : (formatInt s.params.loopsPerTest.toInt).length ≤ 4 := by
    by_contra hlong
    rw [stream, readEnvironment_long hn (Nat.lt_of_not_le hlong)] at henv
    cases henv
  have hneg : s.params.loopsPerTest.toInt < 0 := by
    have hlt := ((length_formatInt_le_iff s.params.loopsPerTest.toInt (k := 3) (by decide)).mp
      hshort).2
    rw [BitVec.toInt_eq_toNat_cond] at hlt ⊢
    split at hlt <;> split <;> omega
  have hintact := environmentIntact_of_length (length_formatInt_of_le hn) hshort
  rw [stream, readEnvironment_of_intact _ hintact] at henv
  cases henv
  have hsize : (150 * s.params.written.nLines).toNat = 0 := by
    rw [show s.params.written.nLines = s.params.loopsPerTest.toInt from rfl]
    omega
  rw [readBlocks, GraphCall.size, hsize] at hread
  cases hread

theorem blocks_of_le (h : s.Built fl) (hl : s.params.loopsPerTest.toNat ≤ 9999) :
    s.blocks fl quantity
      = (readBlocks (plotNodeCalls s.params.written quantity) (s.rowsText fl)).map Prod.fst := by
  rw [blocks, receiveReport, h.readEnvironment_of_le hl, Option.bind_eq_bind, Option.bind_some]
  dsimp only
  cases readBlocks (plotNodeCalls s.params.written quantity) (s.rowsText fl) <;> rfl

theorem loopsPerTest_le_of_blocks (hbuilt : s.Built fl)
    (h : (s.blocks fl quantity).isSome = true) : s.params.loopsPerTest.toNat ≤ 9999 := by
  obtain ⟨l, hl⟩ := Option.isSome_iff_exists.mp h
  obtain ⟨report, hreport, -⟩ := Option.map_eq_some_iff.mp hl
  obtain ⟨⟨e, socket⟩, henv, hreport⟩ := Option.bind_eq_some_iff.mp hreport
  obtain ⟨r, hread, -⟩ := Option.bind_eq_some_iff.mp hreport
  obtain ⟨calls, hcalls⟩ := exists_plotNodeCalls e quantity
  rw [hcalls] at hread
  exact hbuilt.loopsPerTest_le henv hread

theorem loopsPerTest_le_of_avgsSocket (hbuilt : s.Built fl) {j : ℕ}
    (h : (s.avgsSocket fl quantity j).isSome = true) : s.params.loopsPerTest.toNat ≤ 9999 := by
  obtain ⟨rest, hrest⟩ := Option.isSome_iff_exists.mp h
  obtain ⟨⟨e, socket⟩, henv, hsocket⟩ := Option.bind_eq_some_iff.mp hrest
  obtain ⟨r, hread, -⟩ := Option.map_eq_some_iff.mp hsocket
  obtain ⟨calls, hcalls⟩ := exists_plotNodeCalls e quantity
  rw [hcalls, List.take_succ_cons] at hread
  exact hbuilt.loopsPerTest_le henv hread

/-- The master reads as many tests as there are. -/
theorem plotNodeTests_eq (hbuilt : s.Built fl) :
    plotNodeTests s.params.written = (testedSwitches s.params).length := by
  by_cases h : s.OneTest
  · rw [plotNodeTests_single h, oneTest_iff.mp h]
  · obtain ⟨hrange, -⟩ := not_or.mp h
    have htrue := Bool.eq_true_of_not_eq_false hrange
    have hle := hbuilt.nSwitches_le
    have hpos := s.one_le_nSwitches
    have hint : s.params.written.nSwitches = s.params.nSwitches.toNat :=
      BitVec.toInt_eq_toNat_of_lt (by omega)
    have hne : s.params.written.testRange ≠ 0 := by
      rw [show s.params.written.testRange = if s.params.testRange then 1 else 0 from rfl, htrue]
      decide
    rw [plotNodeTests, if_neg hne, hint, Int.toNat_natCast, testedSwitches_range htrue,
      List.length_range]
    omega

/-- Each queue gets a text for each test. -/
theorem length_read (hbuilt : s.Built fl) (h : (s.blocks fl quantity).isSome = true)
    {id : QueueId} (hid : id ∈ sentQueues) :
    (s.read fl quantity id).length = (testedSwitches s.params).length := by
  obtain ⟨l, hl⟩ := Option.isSome_iff_exists.mp h
  have hblocks := hl
  rw [blocks_of_le hbuilt (loopsPerTest_le_of_blocks hbuilt h)] at hblocks
  obtain ⟨r, hread, rfl⟩ := Option.map_eq_some_iff.mp hblocks
  have htags := congrArg (List.map Prod.fst) (tag_readBlocks hread)
  rw [List.map_map, List.map_map] at htags
  have htypes : r.1.map Block.type
      = (List.range (testedSwitches s.params).length).flatMap fun _ => sentQueues := by
    refine htags.trans ?_
    rw [plotNodeCalls, plotNodeTests_eq hbuilt, List.map_flatMap]
    rfl
  have hone : sentQueues.countP (fun type => type = id) = 1 := by
    revert id
    decide
  rw [read, hl, Option.getD_some, List.length_map, ← List.countP_eq_length_filter]
  calc r.1.countP (fun block => block.type = id)
      = (r.1.map Block.type).countP (fun type => type = id) := by
        rw [List.countP_map]
        rfl
    _ = (testedSwitches s.params).length := by
        rw [htypes, List.countP_flatMap]
        simp [Function.comp_def, hone]

/-! ### The rows of a test -/

section Rows

variable {i : ℕ} (hl : s.params.loopsPerTest.toNat ≤ 9999)
  (hi : i ∈ testedSwitches s.params)
include hl hi

/-- The space that is reserved for them. -/
theorem size_nLines :
    (150 * s.params.written.nLines).toNat = 150 * (s.tests i).loops.length := by
  have hint : s.params.written.nLines = s.params.loopsPerTest.toNat :=
    BitVec.toInt_eq_toNat_of_lt (by omega)
  rw [hint, s.length_loops i hi]
  omega

/-- They are read up to their LIMITER. -/
theorem Built.exists_readSocketLimiter (hbuilt : s.Built fl) {id : QueueId}
    (hid : id = .values ∨ id = .avgs) (mode : TestMode) (rest : Text) :
    ∃ bytesRead, readSocketLimiter (150 * s.params.written.nLines).toNat
        ((s.tests i).text fl mode id ++ LIMITER :: rest)
      = some ⟨(s.tests i).text fl mode id, bytesRead, rest⟩ := by
  have hloops := (s.tests i).loops_ne
  have hblock : IsBlock ((s.tests i).text fl mode id) := by
    rcases hid with rfl | rfl
    · exact isBlock_values
    · exact isBlock_avgs
  have hfit : ((s.tests i).text fl mode id).length < (150 * s.params.written.nLines).toNat := by
    rw [size_nLines hl hi]
    rcases hid with rfl | rfl
    · exact length_rowsBlock_lt hloops (hbuilt.values i hi)
    · exact length_rowsBlock_lt hloops (hbuilt.avgs i hi)
  exact (readSocketLimiter_block hblock hfit).imp fun _ hread => hread.2

end Rows

theorem Built.exists_readSocketLimiter_lastTest (hbuilt : s.Built fl)
    (hl : s.params.loopsPerTest.toNat ≤ 9999) {id : QueueId} (hid : id = .values ∨ id = .avgs)
    (mode : TestMode) (rest : Text) :
    ∃ bytesRead, readSocketLimiter (150 * s.params.written.nLines).toNat
        (s.lastTest.text fl mode id ++ LIMITER :: rest)
      = some ⟨s.lastTest.text fl mode id, bytesRead, rest⟩ :=
  hbuilt.exists_readSocketLimiter hl s.last_mem_testedSwitches hid mode rest

theorem message_of_ne {t : TestReport} {mode : TestMode} {id : QueueId} (h : id ≠ .results) :
    t.message fl mode id = t.text fl mode id ++ [LIMITER] :=
  if_neg h

/-- The first text is the values of the first test, and taken for that. -/
theorem exists_read_values (hbuilt : s.Built fl) (h : (s.blocks fl quantity).isSome = true)
    {i : ℕ} {rest : List ℕ} (htests : testedSwitches s.params = i :: rest) :
    ∃ others, s.read fl quantity .values
      = (s.tests i).text fl s.params.mode .values :: others := by
  have hi : i ∈ testedSwitches s.params := htests ▸ List.mem_cons_self
  have hl := loopsPerTest_le_of_blocks hbuilt h
  obtain ⟨calls, hcalls⟩ := exists_plotNodeCalls s.params.written quantity
  obtain ⟨more, hrows⟩ : ∃ more, s.rowsText fl
      = (s.tests i).text fl s.params.mode .values ++ LIMITER :: more := by
    rw [rowsText, sentQueues, List.flatMap_cons, htests, List.flatMap_cons,
      message_of_ne (by decide : QueueId.values ≠ .results), List.append_assoc, List.append_assoc]
    exact ⟨_, rfl⟩
  obtain ⟨bytesRead, hread⟩ := hbuilt.exists_readSocketLimiter hl hi (.inl rfl) s.params.mode more
  obtain ⟨l, hblocks⟩ := Option.isSome_iff_exists.mp h
  obtain ⟨l', rfl⟩ : ∃ l', l = ⟨.values, 0, (s.tests i).text fl s.params.mode .values⟩ :: l' := by
    rw [blocks_of_le hbuilt hl, hcalls, readBlocks, GraphCall.size, hrows, hread,
      Option.bind_eq_bind, Option.bind_some] at hblocks
    obtain ⟨r, hread, rfl⟩ := Option.map_eq_some_iff.mp hblocks
    obtain ⟨r', -, hr⟩ := Option.bind_eq_some_iff.mp hread
    cases hr
    exact ⟨_, rfl⟩
  rw [read, hblocks]
  exact ⟨_, rfl⟩

/-! ### One test -/

/-- Short results are read as they are. -/
theorem exists_readSocketLimiter_results (t : TestReport) (mode : TestMode)
    (hquantity : 1 ≤ quantity) (hshort : (t.text fl mode .results).length ≤ 149) :
    ∃ bytesRead, readSocketLimiter (150 * quantity) (t.message fl mode .results)
      = some ⟨t.text fl mode .results, bytesRead, []⟩ := by
  have hsize : (t.text fl mode .results).length < 150 * quantity :=
    (Nat.lt_succ_of_le hshort).trans_le (Nat.le_mul_of_pos_right 150 hquantity)
  rw [TestReport.message, if_pos rfl, List.take_of_length_le (by
    rw [List.length_append, List.length_singleton]
    omega)]
  exact (readSocketLimiter_block isBlock_results hsize).imp fun _ hread => hread.2

section OneTest

variable (hone : s.OneTest)
include hone

theorem testedSwitches_of_oneTest : testedSwitches s.params = [s.params.nSwitches.toNat - 1] :=
  testedSwitches_single s.one_le_nSwitches hone

theorem rowsText_of_oneTest (fl : ℚ → ℚ) :
    s.rowsText fl = s.lastTest.text fl s.params.mode .values ++ LIMITER ::
      (s.lastTest.text fl s.params.mode .avgs ++ LIMITER ::
        s.lastTest.message fl s.params.mode .results) := by
  rw [rowsText, testedSwitches_of_oneTest hone]
  simp only [sentQueues, List.flatMap_cons, List.flatMap_nil, List.append_nil,
    message_of_ne (by decide : QueueId.values ≠ .results),
    message_of_ne (by decide : QueueId.avgs ≠ .results), List.append_assoc, List.cons_append,
    List.nil_append, lastTest]

theorem plotNodeCalls_of_oneTest (quantity : ℕ) :
    plotNodeCalls s.params.written quantity = [⟨.values, 0, s.params.written.nLines⟩,
      ⟨.avgs, 0, s.params.written.nLines⟩, ⟨.results, 0, quantity⟩] := by
  rw [plotNodeCalls, plotNodeTests_single hone]
  rfl

section Built

variable (hbuilt : s.Built fl) (hl : s.params.loopsPerTest.toNat ≤ 9999)
include hbuilt hl

/-- The values have been read when it comes to the averages. -/
theorem avgsSocket_of_oneTest (quantity : ℕ) :
    s.avgsSocket fl quantity 0 = some (s.lastTest.text fl s.params.mode .avgs ++ LIMITER ::
      s.lastTest.message fl s.params.mode .results) := by
  obtain ⟨bytesRead, hread⟩ := hbuilt.exists_readSocketLimiter_lastTest hl (.inl rfl)
    s.params.mode (s.lastTest.text fl s.params.mode .avgs ++ LIMITER ::
      s.lastTest.message fl s.params.mode .results)
  have hcalls : (plotNodeCalls s.params.written quantity).take (3 * 0 + 1)
      = [⟨.values, 0, s.params.written.nLines⟩] := by
    rw [plotNodeCalls_of_oneTest hone]
    rfl
  rw [avgsSocket, hbuilt.readEnvironment_of_le hl, Option.bind_eq_bind, Option.bind_some]
  dsimp only
  rw [hcalls, rowsText_of_oneTest hone]
  simp only [readBlocks, GraphCall.size, hread, Option.bind_eq_bind, Option.bind_some]
  rfl

/-- The values and the averages are read, and what comes then is taken for the results. -/
theorem blocks_of_oneTest (quantity : ℕ) :
    s.blocks fl quantity = (readSocketLimiter (150 * quantity)
      (s.lastTest.message fl s.params.mode .results)).map fun r =>
        [⟨.values, 0, s.lastTest.text fl s.params.mode .values⟩,
          ⟨.avgs, 0, s.lastTest.text fl s.params.mode .avgs⟩, ⟨.results, 0, r.buffer⟩] := by
  obtain ⟨_, hvalues⟩ := hbuilt.exists_readSocketLimiter_lastTest hl (.inl rfl) s.params.mode
    (s.lastTest.text fl s.params.mode .avgs ++ LIMITER ::
      s.lastTest.message fl s.params.mode .results)
  obtain ⟨_, havgs⟩ := hbuilt.exists_readSocketLimiter_lastTest hl (.inr rfl) s.params.mode
    (s.lastTest.message fl s.params.mode .results)
  have hsize : (150 * (quantity : ℤ)).toNat = 150 * quantity := by omega
  rw [blocks_of_le hbuilt hl, plotNodeCalls_of_oneTest hone, rowsText_of_oneTest hone]
  simp only [readBlocks, GraphCall.size, hsize, hvalues, havgs, Option.bind_eq_bind,
    Option.bind_some]
  cases readSocketLimiter (150 * quantity) _ <;> rfl

end Built

/-- So the texts of the rows are taken for what they are. -/
theorem read_of_blocks (hbuilt : s.Built fl) (h : (s.blocks fl quantity).isSome = true)
    {id : QueueId} (hid : id = .values ∨ id = .avgs) :
    s.read fl quantity id = [s.lastTest.text fl s.params.mode id] := by
  have hblocks := blocks_of_oneTest hone hbuilt (loopsPerTest_le_of_blocks hbuilt h) quantity
  rw [hblocks] at h
  obtain ⟨l, hl⟩ := Option.isSome_iff_exists.mp h
  obtain ⟨r, -, rfl⟩ := Option.map_eq_some_iff.mp hl
  rw [read, hblocks, hl]
  rcases hid with rfl | rfl <;> rfl

theorem read_results (hbuilt : s.Built fl) (hl : s.params.loopsPerTest.toNat ≤ 9999)
    {r : Received} (h : readSocketLimiter (150 * quantity)
      (s.lastTest.message fl s.params.mode .results) = some r) :
    s.read fl quantity .results = [r.buffer] := by
  rw [read, blocks_of_oneTest hone hbuilt hl, h]
  rfl

/-- Of results that are too long, the beginning is read. -/
theorem read_results_of_long (hbuilt : s.Built fl) (hl : s.params.loopsPerTest.toNat ≤ 9999)
    (hlong : 150 ≤ (s.lastTest.text fl s.params.mode .results).length) :
    s.read fl 1 .results = [(s.lastTest.text fl s.params.mode .results).take 149] := by
  have hblock : IsBlock (s.lastTest.text fl s.params.mode .results) := isBlock_results
  have hmessage : s.lastTest.message fl s.params.mode .results
      = (s.lastTest.text fl s.params.mode .results).take 150 := by
    rw [TestReport.message, if_pos rfl, List.take_append_of_le_length hlong]
  obtain ⟨bytesRead, hread⟩ := readSocketLimiter_long (hblock.take (by decide : 0 < 150))
    (by decide : 1 < 150 * 1) (by rw [List.length_take]; omega) []
  rw [List.append_nil, ← hmessage] at hread
  rw [read_results hone hbuilt hl hread, hmessage, List.take_take]
  rfl

/-- All that has been sent as a whole is read so. -/
theorem read_of_complete (hcomplete : s.Complete fl) (hquantity : 1 ≤ quantity) {id : QueueId}
    (hid : id ∈ sentQueues) :
    s.read fl quantity id = [s.lastTest.text fl s.params.mode id] := by
  have hl := hcomplete.loopsPerTest_le
  obtain ⟨bytesRead, hread⟩ := exists_readSocketLimiter_results s.lastTest s.params.mode
    hquantity (hcomplete.rowsFit _ s.last_mem_testedSwitches).results
  have hblocks : (s.blocks fl quantity).isSome = true := by
    rw [blocks_of_oneTest hone hcomplete.built hl, hread]
    rfl
  simp only [sentQueues, List.mem_cons, List.not_mem_nil, or_false] at hid
  rcases hid with rfl | rfl | rfl
  · exact read_of_blocks hone hcomplete.built hblocks (.inl rfl)
  · exact read_of_blocks hone hcomplete.built hblocks (.inr rfl)
  · exact read_results hone hcomplete.built hl hread

end OneTest

/-- Of slaves with one test each there is one text each. -/
theorem flatMap_read {slaves : List SlaveReport} (hone : ∀ s ∈ slaves, s.OneTest)
    (hcomplete : ∀ s ∈ slaves, s.Complete fl) (hquantity : 1 ≤ quantity) {id : QueueId}
    (hid : id ∈ sentQueues) :
    slaves.flatMap (fun s => s.read fl quantity id)
      = slaves.map fun s => s.lastTest.text fl s.params.mode id := by
  rw [List.map_eq_flatMap]
  exact List.flatMap_congr fun s hs =>
    read_of_complete (hone s hs) (hcomplete s hs) hquantity hid

/-! ## The same on the wire -/

/-- What a slave sends is this, where it has built the rows of its loops. -/
theorem clientSide_report {rows : ℕ → TestRows} (hbuilt : s.Built fl)
    (hrows : ∀ i ∈ testedSwitches s.params,
      testRows fl s.params.mode (s.tests i).loops (s.tests i).results = some (rows i)) :
    clientSide (controllerBenchmarking s.params rows) = s.stream fl := by
  have hmessage {i : ℕ} (hi : i ∈ testedSwitches s.params) {id : QueueId}
      (hid : id ∈ sentQueues) :
      ((rows i).messages id).flatten = (s.tests i).message fl s.params.mode id := by
    obtain ⟨hvalues, havgs, hresults⟩ :=
      messages_of_le (hrows i hi) (hbuilt.values i hi) (hbuilt.avgs i hi)
    have hloops := (s.tests i).loops_ne
    simp only [sentQueues, List.mem_cons, List.not_mem_nil, or_false] at hid
    rcases hid with rfl | rfl | rfl
    · rw [hvalues, flatten_completeRows _ hloops]
      rfl
    · rw [havgs, flatten_completeRows _ hloops]
      rfl
    · rw [hresults, List.flatten_singleton]
      rfl
  have hqueue {id : QueueId} (hid : id ∈ sentQueues) :
      ((testedSwitches s.params).foldl (fun queues i => enqueueTest (rows i) queues) emptyQueues
          id).flatten
        = (testedSwitches s.params).flatMap fun i =>
            (s.tests i).message fl s.params.mode id := by
    rw [foldl_enqueueTest_apply, emptyQueues, List.nil_append, List.flatMap_def,
      List.flatten_flatten, List.map_map, ← List.flatMap_def]
    exact List.flatMap_congr fun i hi => hmessage hi hid
  rw [clientSide_controllerBenchmarking, reportRows, clientSide_eq, hqueue (by decide),
    hqueue (by decide), hqueue (by decide), stream, rowsText]
  simp [sentQueues]

/-- And when `plotNode` has made all its graphs, it has read these blocks. -/
theorem isSome_blocks_of_plotNode {hostnames : List Text} {id : ℕ} {e : Environment}
    {st st' : PlotState} (henv : readEnvironment (s.stream fl) = some (e, st.socket))
    (h : plotNode hostnames id e st = some st') :
    (s.blocks fl hostnames.length).isSome = true := by
  obtain ⟨l, hread⟩ := readBlocks_of_plotNode h
  rw [blocks, receiveReport, henv, Option.bind_eq_bind, Option.bind_some]
  dsimp only
  rw [hread]
  rfl

end SlaveReport

end OfcBenchmark
