import OfcBenchmark.ReportTheorems

/-!
# The rows of a report

Rows are built in buffers of 150 bytes, whose end is never looked at. So they are complete if
they have at most 149 characters; in throughput mode, there is no row for RESULTS at all
(`rows_complete_iff`).
-/

namespace OfcBenchmark
open Printf

/-! ## Complete rows -/

/-- The end of a row: the last one of a test closes the block. -/
def rowEnd (LAST : Bool) : Text :=
  if LAST then [CSV_NEWLINE, CSV_NEWLINE, LIMITER] else [CSV_NEWLINE]

section Rows

variable (fl : ℚ → ℚ)

/-- `timestamp,count_1,...,count_n`. -/
def valuesNumbers (d : LoopData) : Text :=
  (d.ms fl).format 3 ++ d.counts.flatMap fun count => ',' :: formatInt count

/-- `timestamp,rate`. -/
def avgsNumbers (d : LoopData) : Text := (d.ms fl).format 3 ++ ',' :: (d.rate fl).format 2

/-- The four results, in ms for a response or in responses for a second. -/
def resultsRow (mode : TestMode) (r : TestResults) : Text :=
  match mode with
  | .latency =>
    resultText (msPerResponse fl r.min) (msPerResponse fl r.max) (msPerResponse fl r.avg)
      (msPerResponse fl r.std_dev)
  | .throughput => resultText r.min r.max r.avg r.std_dev

end Rows

/-- The rows of a test in a queue. -/
def completeRows (numbers : LoopData → Text) : List LoopData → List Text
  | [] => []
  | d :: loops => (numbers d ++ rowEnd loops.isEmpty) :: completeRows numbers loops

/-- The rows of a test are complete, and make blocks. -/
structure CompleteTest (fl : ℚ → ℚ) (mode : TestMode) (loops : List LoopData) (r : TestResults)
    (t : TestRows) : Prop where
  values : t.messages .values = completeRows (valuesNumbers fl) loops
  avgs : t.messages .avgs = completeRows (avgsNumbers fl) loops
  results : t.messages .results = [resultsRow fl mode r ++ [LIMITER]]
  delimited : ∀ id ∈ sentQueues, ∃ text, (t.messages id).flatten = text ++ [LIMITER] ∧
    LIMITER ∉ text

/-- No complete row is longer than 149 characters. -/
structure RowsFit (fl : ℚ → ℚ) (mode : TestMode) (loops : List LoopData) (r : TestResults) :
    Prop where
  values : ∀ row ∈ completeRows (valuesNumbers fl) loops, row.length ≤ 149
  avgs : ∀ row ∈ completeRows (avgsNumbers fl) loops, row.length ≤ 149
  results : (resultsRow fl mode r).length ≤ 149

instance (fl : ℚ → ℚ) (mode : TestMode) (loops : List LoopData) (r : TestResults) :
    Decidable (RowsFit fl mode loops r) :=
  decidable_of_iff ((∀ row ∈ completeRows (valuesNumbers fl) loops, row.length ≤ 149) ∧
      (∀ row ∈ completeRows (avgsNumbers fl) loops, row.length ≤ 149) ∧
      (resultsRow fl mode r).length ≤ 149)
    ⟨fun h => ⟨h.1, h.2.1, h.2.2⟩, fun h => ⟨h.values, h.avgs, h.results⟩⟩

variable {fl : ℚ → ℚ} {mode : TestMode} {loops : List LoopData} {r : TestResults}

/-! ## Building a row -/

theorem flatMap_valuesPieces (d : LoopData) (LAST : Bool) :
    (valuesPieces fl d LAST).flatMap Prod.snd = valuesNumbers fl d ++ rowEnd LAST := by
  have hcounts : (d.counts.map fun count => (ROW_SIZE, ',' :: formatInt count)).flatMap Prod.snd
      = d.counts.flatMap fun count => ',' :: formatInt count := by
    rw [List.flatMap_map]
  rw [valuesPieces, List.cons_append, List.flatMap_cons, List.flatMap_append, hcounts,
    valuesNumbers, List.append_assoc]
  cases LAST <;> rfl

theorem flatMap_avgsPieces (d : LoopData) (LAST : Bool) :
    (avgsPieces fl d LAST).flatMap Prod.snd = avgsNumbers fl d ++ rowEnd LAST := by
  rw [avgsPieces, avgsNumbers]
  cases LAST <;> simp [rowEnd]

/-- The pieces make the row exactly if it fits. -/
theorem buildRow_iff {pieces : List (ℕ × Text)}
    (hsize : ∀ piece ∈ pieces, piece.2.length < ROW_SIZE → piece.2.length < piece.1) :
    buildRow pieces = some (pieces.flatMap Prod.snd) ↔
      (pieces.flatMap Prod.snd).length < ROW_SIZE :=
  Cursor.write_eq_some_iff (by decide) hsize

theorem length_lt_of_buildRow {pieces : List (ℕ × Text)} {row : Text}
    (h : buildRow pieces = some row) : row.length < ROW_SIZE := by
  obtain ⟨b, hwrite, rfl⟩ := Option.map_eq_some_iff.mp h
  exact Cursor.length_lt_of_write hwrite (by decide)

theorem size_valuesPieces {d : LoopData} {LAST : Bool} :
    ∀ piece ∈ valuesPieces fl d LAST, piece.2.length < ROW_SIZE → piece.2.length < piece.1 := by
  intro piece hpiece hlt
  rcases List.mem_append.mp hpiece with hpiece | hpiece
  · rcases List.mem_cons.mp hpiece with rfl | hpiece
    · exact hlt
    · obtain ⟨count, -, rfl⟩ := List.mem_map.mp hpiece
      exact hlt
  · rcases List.mem_cons.mp hpiece with rfl | hpiece
    · decide
    · cases LAST
      · cases hpiece
      · rw [List.mem_singleton.mp hpiece]
        decide

theorem size_avgsPieces {d : LoopData} {LAST : Bool} :
    ∀ piece ∈ avgsPieces fl d LAST, piece.2.length < ROW_SIZE → piece.2.length < piece.1 := by
  intro piece hpiece hlt
  rcases List.mem_cons.mp hpiece with rfl | hpiece
  · exact hlt
  · rcases List.mem_cons.mp hpiece with rfl | hpiece
    · exact hlt
    · cases LAST
      · cases hpiece
      · rw [List.mem_singleton.mp hpiece]
        decide

theorem runTestRows_of_le {d : LoopData} {LAST : Bool}
    (hvalues : (valuesNumbers fl d ++ rowEnd LAST).length ≤ 149)
    (havgs : (avgsNumbers fl d ++ rowEnd LAST).length ≤ 149) :
    runTestRows fl d LAST
      = some (valuesNumbers fl d ++ rowEnd LAST, avgsNumbers fl d ++ rowEnd LAST) := by
  rw [← flatMap_valuesPieces] at hvalues ⊢
  rw [← flatMap_avgsPieces] at havgs ⊢
  rw [runTestRows, (buildRow_iff size_valuesPieces).mpr (Nat.lt_succ_of_le hvalues),
    (buildRow_iff size_avgsPieces).mpr (Nat.lt_succ_of_le havgs)]
  rfl

theorem length_lt_of_runTestRows {d : LoopData} {LAST : Bool} {rows : Text × Text}
    (h : runTestRows fl d LAST = some rows) :
    rows.1.length < ROW_SIZE ∧ rows.2.length < ROW_SIZE := by
  obtain ⟨values, hvalues, h⟩ := Option.bind_eq_some_iff.mp h
  obtain ⟨avgs, havgs, h⟩ := Option.bind_eq_some_iff.mp h
  cases h
  exact ⟨length_lt_of_buildRow hvalues, length_lt_of_buildRow havgs⟩

/-! ## The rows of a test -/

theorem length_completeRows (numbers : LoopData → Text) (loops : List LoopData) :
    (completeRows numbers loops).length = loops.length := by
  induction loops with
  | nil => rfl
  | cons d loops ih => rw [completeRows, List.length_cons, List.length_cons, ih]

/-- Rows that fit come out complete. -/
theorem loopRows_of_le
    (hvalues : ∀ row ∈ completeRows (valuesNumbers fl) loops, row.length ≤ 149)
    (havgs : ∀ row ∈ completeRows (avgsNumbers fl) loops, row.length ≤ 149) :
    loopRows fl loops = some
      ((completeRows (valuesNumbers fl) loops).zip (completeRows (avgsNumbers fl) loops)) := by
  induction loops with
  | nil => rfl
  | cons d loops ih =>
    obtain ⟨hvalue, hvalues⟩ := List.forall_mem_cons.mp hvalues
    obtain ⟨havg, havgs⟩ := List.forall_mem_cons.mp havgs
    rw [loopRows, runTestRows_of_le hvalue havg, Option.bind_eq_bind, Option.bind_some,
      ih hvalues havgs]
    rfl

/-- No row is longer than its buffer. -/
theorem length_lt_of_loopRows {rows : List (Text × Text)} (h : loopRows fl loops = some rows) :
    ∀ row ∈ rows, row.1.length < ROW_SIZE ∧ row.2.length < ROW_SIZE := by
  induction loops generalizing rows with
  | nil =>
    cases h
    exact nofun
  | cons d loops ih =>
    obtain ⟨row, hrow, h⟩ := Option.bind_eq_some_iff.mp h
    obtain ⟨rest, hrest, h⟩ := Option.bind_eq_some_iff.mp h
    cases h
    exact List.forall_mem_cons.mpr ⟨length_lt_of_runTestRows hrow, ih hrest⟩

theorem take_of_le {row : Text} (h : row.length ≤ 149) : row.take 150 = row :=
  List.take_of_length_le (h.trans (by decide))

theorem map_take_of_le {rows : List Text} (h : ∀ row ∈ rows, row.length ≤ 149) :
    rows.map (List.take 150) = rows :=
  (List.map_congr_left fun row hrow => take_of_le (h row hrow)).trans (List.map_id' rows)

/-! ## Blocks -/

/-- Characters that are neither in numbers nor between them. -/
theorem not_mem_valuesNumbers {c : Char} (hc : IsNumberChar c = false) (hcomma : c ≠ ',')
    (d : LoopData) : c ∉ valuesNumbers fl d := by
  intro hmem
  rcases List.mem_append.mp hmem with hmem | hmem
  · rw [isNumberChar_of_mem_format hmem] at hc
    cases hc
  · obtain ⟨count, -, hmem⟩ := List.mem_flatMap.mp hmem
    rcases List.mem_cons.mp hmem with rfl | hmem
    · exact hcomma rfl
    · exact not_mem_formatInt hc hmem

theorem not_mem_avgsNumbers {c : Char} (hc : IsNumberChar c = false) (hcomma : c ≠ ',')
    (d : LoopData) : c ∉ avgsNumbers fl d := by
  intro hmem
  rcases List.mem_append.mp hmem with hmem | hmem
  · rw [isNumberChar_of_mem_format hmem] at hc
    cases hc
  · rcases List.mem_cons.mp hmem with rfl | hmem
    · exact hcomma rfl
    · rw [isNumberChar_of_mem_format hmem] at hc
      cases hc

theorem not_mem_resultsRow {c : Char} (hc : IsNumberChar c = false) (hcomma : c ≠ ',')
    (hnewline : c ≠ CSV_NEWLINE) : c ∉ resultsRow fl mode r := by
  have hnumber (x : Double) : c ∉ x.format 2 := fun hmem => by
    rw [isNumberChar_of_mem_format hmem] at hc
    cases hc
  have htext (x y z w : Double) : c ∉ resultText x y z w := by
    unfold resultText
    simp only [List.mem_append, List.mem_cons, List.not_mem_nil, or_false, not_or]
    simp only [hnumber, hcomma, hnewline, not_false_eq_true, and_self]
  unfold resultsRow
  split <;> exact htext _ _ _ _

/-- The block that complete rows make, without the LIMITER. -/
def rowsBlock (numbers : LoopData → Text) (loops : List LoopData) : Text :=
  (loops.flatMap fun d => numbers d ++ [CSV_NEWLINE]) ++ [CSV_NEWLINE]

theorem flatten_completeRows (numbers : LoopData → Text) (hloops : loops ≠ []) :
    (completeRows numbers loops).flatten = rowsBlock numbers loops ++ [LIMITER] := by
  induction loops with
  | nil => exact absurd rfl hloops
  | cons d loops ih =>
    rw [completeRows, List.flatten_cons, rowsBlock, List.flatMap_cons]
    cases loops with
    | nil => simp [completeRows, rowEnd]
    | cons d' loops =>
      rw [ih (List.cons_ne_nil _ _), rowsBlock]
      simp [rowEnd]

/-- So the block is shorter than the space that the master reserves for its rows. -/
theorem length_rowsBlock_lt {numbers : LoopData → Text} (hloops : loops ≠ [])
    (h : ∀ row ∈ completeRows numbers loops, row.length ≤ 149) :
    (rowsBlock numbers loops).length < 150 * loops.length := by
  have hflatten := congrArg List.length (flatten_completeRows numbers hloops)
  have hsum := List.sum_le_card_nsmul ((completeRows numbers loops).map List.length) 149
    fun k hk => by
      obtain ⟨row, hrow, rfl⟩ := List.mem_map.mp hk
      exact h row hrow
  rw [List.length_map, length_completeRows, smul_eq_mul] at hsum
  rw [List.length_flatten, List.length_append, List.length_singleton] at hflatten
  omega

theorem not_mem_rowsBlock {numbers : LoopData → Text} {c : Char} (hnewline : c ≠ CSV_NEWLINE)
    (h : ∀ d, c ∉ numbers d) : c ∉ rowsBlock numbers loops := by
  have hrow (text : Text) (htext : c ∉ text) : c ∉ text ++ [CSV_NEWLINE] := fun hmem =>
    (List.mem_append.mp hmem).elim htext fun hmem => hnewline (List.mem_singleton.mp hmem)
  apply hrow
  intro hmem
  obtain ⟨d, -, hmem⟩ := List.mem_flatMap.mp hmem
  exact hrow _ (h d) hmem

theorem isBlock_rowsBlock {numbers : LoopData → Text} (hlimiter : ∀ d, LIMITER ∉ numbers d)
    (hnul : ∀ d, '\x00' ∉ numbers d) : IsBlock (rowsBlock numbers loops) where
  ne_nil := List.append_ne_nil_of_right_ne_nil _ (List.cons_ne_nil _ _)
  not_limiter := not_mem_rowsBlock (by decide) hlimiter
  not_nul := not_mem_rowsBlock (by decide) hnul

theorem isBlock_values : IsBlock (rowsBlock (valuesNumbers fl) loops) :=
  isBlock_rowsBlock (not_mem_valuesNumbers rfl (by decide)) (not_mem_valuesNumbers rfl (by decide))

theorem isBlock_avgs : IsBlock (rowsBlock (avgsNumbers fl) loops) :=
  isBlock_rowsBlock (not_mem_avgsNumbers rfl (by decide)) (not_mem_avgsNumbers rfl (by decide))

theorem isBlock_results : IsBlock (resultsRow fl mode r) where
  ne_nil := by
    unfold resultsRow
    split <;> exact List.append_ne_nil_of_right_ne_nil _ (List.cons_ne_nil _ _)
  not_limiter := not_mem_resultsRow rfl (by decide) (by decide)
  not_nul := not_mem_resultsRow rfl (by decide) (by decide)

/-- The messages of a test whose rows are complete make blocks. -/
theorem isBlock_of_complete {t : TestRows} (hloops : loops ≠ [])
    (hvalues : t.messages .values = completeRows (valuesNumbers fl) loops)
    (havgs : t.messages .avgs = completeRows (avgsNumbers fl) loops)
    (hresults : t.messages .results = [resultsRow fl mode r ++ [LIMITER]]) :
    ∀ id ∈ sentQueues, ∃ text, (t.messages id).flatten = text ++ [LIMITER] ∧ IsBlock text := by
  intro id hid
  simp only [sentQueues, List.mem_cons, List.not_mem_nil, or_false] at hid
  rcases hid with rfl | rfl | rfl
  · exact ⟨_, by rw [hvalues, flatten_completeRows _ hloops], isBlock_values⟩
  · exact ⟨_, by rw [havgs, flatten_completeRows _ hloops], isBlock_avgs⟩
  · exact ⟨_, by rw [hresults]; exact List.append_nil _, isBlock_results⟩

/-- Rows that fit are enqueued as they are, and up to 150 characters of the results. -/
theorem messages_of_le {t : TestRows} (hrows : testRows fl mode loops r = some t)
    (hvalues : ∀ row ∈ completeRows (valuesNumbers fl) loops, row.length ≤ 149)
    (havgs : ∀ row ∈ completeRows (avgsNumbers fl) loops, row.length ≤ 149) :
    t.messages .values = completeRows (valuesNumbers fl) loops ∧
      t.messages .avgs = completeRows (avgsNumbers fl) loops ∧
      t.messages .results = [(resultsRow fl mode r ++ [LIMITER]).take 150] := by
  let values := completeRows (valuesNumbers fl) loops
  let avgs := completeRows (avgsNumbers fl) loops
  have hlength : values.length = avgs.length :=
    (length_completeRows _ loops).trans (length_completeRows _ loops).symm
  cases mode with
  | throughput =>
    rw [testRows, loopRows_of_le hvalues havgs] at hrows
    cases hrows
  | latency =>
    rw [testRows, loopRows_of_le hvalues havgs] at hrows
    cases hrows
    refine ⟨?_, ?_, rfl⟩
    · calc (values.zip avgs).map (fun rows => rows.1.take 150)
          = ((values.zip avgs).map Prod.fst).map (List.take 150) := (List.map_map ..).symm
        _ = values.map (List.take 150) := by rw [List.map_fst_zip hlength.le]
        _ = values := map_take_of_le hvalues
    · calc (values.zip avgs).map (fun rows => rows.2.take 150)
          = ((values.zip avgs).map Prod.snd).map (List.take 150) := (List.map_map ..).symm
        _ = avgs.map (List.take 150) := by rw [List.map_snd_zip hlength.ge]
        _ = avgs := map_take_of_le havgs

theorem completeTest_of_fit (hloops : loops ≠ []) (hfit : RowsFit fl .latency loops r) :
    ∃ t, testRows fl .latency loops r = some t ∧ CompleteTest fl .latency loops r t := by
  let t : TestRows := ⟨(completeRows (valuesNumbers fl) loops).zip
    (completeRows (avgsNumbers fl) loops), resultsRow fl .latency r⟩
  have hrows : testRows fl .latency loops r = some t := by
    rw [testRows, loopRows_of_le hfit.values hfit.avgs]
    rfl
  obtain ⟨hvalues, havgs, hresults⟩ := messages_of_le hrows hfit.values hfit.avgs
  rw [List.take_of_length_le (by
    rw [List.length_append]
    exact Nat.succ_le_succ hfit.results)] at hresults
  refine ⟨t, hrows, hvalues, havgs, hresults, ?_⟩
  intro id hid
  obtain ⟨text, htext, hblock⟩ := isBlock_of_complete hloops hvalues havgs hresults id hid
  exact ⟨text, htext, hblock.not_limiter⟩

theorem fit_of_completeTest {t : TestRows} (hrows : testRows fl mode loops r = some t)
    (h : CompleteTest fl mode loops r t) : mode = .latency ∧ RowsFit fl mode loops r := by
  obtain ⟨rows, hloop, hrows⟩ := Option.bind_eq_some_iff.mp hrows
  obtain ⟨finalMessage, hformat, hrows⟩ := Option.bind_eq_some_iff.mp hrows
  cases hrows
  have hshort {row : Text} (hrow : row.length < ROW_SIZE) : (row.take 150).length ≤ 149 :=
    (List.length_take_le' _ _).trans (Nat.le_of_lt_succ hrow)
  refine ⟨?_, ?_, ?_, ?_⟩
  · cases mode
    · rfl
    · cases hformat
  · intro row hrow
    rw [← h.values] at hrow
    obtain ⟨pair, hpair, rfl⟩ := List.mem_map.mp hrow
    exact hshort (length_lt_of_loopRows hloop pair hpair).1
  · intro row hrow
    rw [← h.avgs] at hrow
    obtain ⟨pair, hpair, rfl⟩ := List.mem_map.mp hrow
    exact hshort (length_lt_of_loopRows hloop pair hpair).2
  · have hrow : (finalMessage ++ [LIMITER]).take 150 = resultsRow fl mode r ++ [LIMITER] :=
      (List.cons.inj h.results).1
    have hlength : (resultsRow fl mode r ++ [LIMITER]).length ≤ 150 := by
      rw [← hrow]
      exact List.length_take_le _ _
    rw [List.length_append] at hlength
    exact Nat.le_of_succ_le_succ hlength

/-- A test of at least one loop puts complete rows into the queues exactly if it is one of
latency and no row has more than 149 characters. -/
theorem rows_complete_iff (fl : ℚ → ℚ) (mode : TestMode) (r : TestResults) (hloops : loops ≠ []) :
    (∃ t, testRows fl mode loops r = some t ∧ CompleteTest fl mode loops r t) ↔
      mode = .latency ∧ RowsFit fl mode loops r := by
  constructor
  · rintro ⟨t, hrows, hcomplete⟩
    exact fit_of_completeTest hrows hcomplete
  · rintro ⟨rfl, hfit⟩
    exact completeTest_of_fit hloops hfit

/-- A loop with so many switches, each with this count, 1.1 s after the start. -/
def evenLoop (nSwitches : ℕ) (count : ℤ) : LoopData :=
  ⟨⟨1, 100000⟩, List.replicate nSwitches count, 0⟩

/-- The results of a test in which all loops are the same. -/
def evenResults (rate : ℚ) : TestResults := ⟨.ofRat rate, .ofRat rate, .ofRat rate, .ofRat 0⟩

theorem rows_complete_iff_twoLoops :
    ∃ t, testRows id .latency [evenLoop 16 100, evenLoop 16 120] (evenResults 2000) = some t ∧
      CompleteTest id .latency [evenLoop 16 100, evenLoop 16 120] (evenResults 2000) t :=
  (rows_complete_iff id .latency (evenResults 2000) (by decide)).mpr
    ⟨rfl, by decide +kernel, by decide +kernel, by decide +kernel⟩

/-- With 50 switches the row for VALUES does not fit into its buffer. -/
theorem not_rows_complete_fiftySwitches :
    ¬ ∃ t, testRows id .latency [evenLoop 50 100] (evenResults 4545) = some t ∧
      CompleteTest id .latency [evenLoop 50 100] (evenResults 4545) t := by
  rintro ⟨t, hrows, -⟩
  have hnone : testRows id .latency [evenLoop 50 100] (evenResults 4545) = none := by
    decide +kernel
  cases hnone.symm.trans hrows

end OfcBenchmark
