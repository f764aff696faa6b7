import OfcBenchmark.Lib.Decimal
import OfcBenchmark.PlotArraysTheorems

/-!
# The columns of RESULTS

`formatResult` on a slave writes the numbers of a row, `buildHeader` on the master says what they
are, and they come together by their position. In latency mode the numbers are times, the
smallest of which belongs to the greatest rate, so they are in the order that the names say,
but for a rate of zero, which is written as a time of zero (`columnsOrdered_iff`).
-/

namespace OfcBenchmark
open Printf

/-! ## The graph of a row -/

/-- The arrays of the source, but that each number of this row has space in `text`. -/
def rowArrays (row : Text) : PlotArrays := { plotArrays with text := row.length + 1 }

/-- The columns of a graph with the header that `buildHeader` makes and only this row, each under
the name of its flow; the name of a host stands in front of the row. -/
def plotRow (hostnames : List Text) (host : Text) (mode : TestMode) (row : Text) :
    Option (List (Text × List Double)) := do
  let header ← buildHeader hostnames .results 4 (if mode = .latency then 0 else 1) 0
  let g ← (rowArrays row).plotGraph atof .results [header, host ++ ',' :: row ++ [CSV_NEWLINE]]
  let r ← g.parsed.head?
  g.header.flows.tail.zipIdx.mapM fun flow => (r.column flow.2).map (flow.1, ·)

/-- The numbers of a row, by their position. -/
theorem plotRow_resultText (hostnames : List Text) {host : Text} (hhost : IsToken host)
    (hlength : host.length ≤ 15) (mode : TestMode) (a b c d : Double) :
    plotRow hostnames host mode (resultText a b c d)
      = some [("MAX".toList, [atof (a.format 2)]), ("MIN".toList, [atof (b.format 2)]),
          ("AVG".toList, [atof (c.format 2)]), ("STD DEV".toList, [atof (d.format 2)])] := by
  obtain ⟨header, hheader, hscan⟩ := exists_header_results hostnames mode
  let body : ResultsBody :=
    { host := host
      row := [a, b, c, d].map fun x => x.format 2
      isToken_host := hhost
      isToken_row := fun token htoken => by
        obtain ⟨x, -, rfl⟩ := List.mem_map.mp htoken
        exact isToken_format 2 x
      length_row := rfl }
  let arrays := rowArrays (resultText a b c d)
  have hrow : csvRow body.row = resultText a b c d := by simp [body, csvRow, resultText]
  have htext : host ++ ',' :: resultText a b c d ++ [CSV_NEWLINE]
      = [body].flatMap ResultsBody.text ++ [CSV_NEWLINE] := by
    rw [List.flatMap_singleton, ResultsBody.text, hrow]
  -- the numbers are not longer than the row, and there is one host
  have hroom : ∀ body' ∈ [body], ∀ token ∈ body'.row, token.length < arrays.text := by
    intro body' hbody token htoken
    rw [List.mem_singleton.mp hbody] at htoken
    obtain ⟨x, hx, rfl⟩ := List.mem_map.mp htoken
    have hle : (x.format 2).length ≤ (resultText a b c d).length := by
      rw [← hrow]
      exact length_le_csvRow htoken
    exact Nat.lt_succ_of_le hle
  obtain ⟨b, hwrite⟩ := PlotArrays.exists_write_host (a := arrays) rfl hlength
  have hxtic : arrays.setXtic ([body].flatMap ResultsBody.text ++ [CSV_NEWLINE])
      = some ⟨[(host, 1)], b, 1, [CSV_NEWLINE]⟩ := by
    rw [PlotArrays.setXtic_bodies (List.cons_ne_nil body [])
      (List.forall_mem_singleton.mpr (Nat.lt_of_le_of_lt hlength (by decide : 15 < 51)))]
    exact congrArg _ hwrite
  have hparse : arrays.parseResults atof 1 ([body].flatMap ResultsBody.text ++ [CSV_NEWLINE])
      = some ⟨Table.stores 0 [body.row.map atof], 1, [CSV_NEWLINE]⟩ :=
    (PlotArrays.parseResults_bodies atof (List.length_singleton (a := body))).mpr
      ⟨⟨hroom, (by decide : 1 * NPOINTS_GENERAL ≤ 10000)⟩, rfl⟩
  have hcolumn := PlotArrays.Parsed.column_stores [body.row.map atof] [CSV_NEWLINE]
  rw [List.length_singleton] at hcolumn
  have hflows : MAX_VALUES < 5 := by decide
  rw [plotRow, hheader, Option.bind_eq_bind, Option.bind_some, htext,
    PlotArrays.plotGraph_results hscan _ hflows, hxtic, Option.bind_some, hparse]
  show (["MAX".toList, "MIN".toList, "AVG".toList, "STD DEV".toList].zipIdx.mapM fun flow =>
    (PlotArrays.Parsed.column ⟨Table.stores 0 [body.row.map atof], 1, [CSV_NEWLINE]⟩ flow.2).map
      (flow.1, ·)) = _
  simp only [hcolumn]
  rfl

/-! ## The order of the columns -/

/-- A row is written to memory that was allocated, and what is read under the names MIN, AVG and
MAX is in this order. -/
def ColumnsOrdered (fl : ℚ → ℚ) (hostnames : List Text) (x : Address) (mode : TestMode)
    (r : TestResults) : Prop :=
  ∃ row columns min avg max, formatResult fl mode r = some row ∧
    plotRow hostnames (hostname x) mode row = some columns ∧
    columns.lookup "MIN".toList = some [min] ∧ columns.lookup "AVG".toList = some [avg] ∧
    columns.lookup "MAX".toList = some [max] ∧ min ≤ avg ∧ avg ≤ max

/-- What a rate is printed as, in ms. -/
def printedTime (fl : ℚ → ℚ) (rate : ℚ) : Magnitude :=
  (msPerResponse fl (.ofRat rate)).magnitude.round 2

section Times

variable {fl : ℚ → ℚ}

theorem atof_msPerResponse {rate : ℚ} (h : 0 ≤ rate) :
    atof ((msPerResponse fl (.ofRat rate)).format 2) = ⟨false, printedTime fl rate⟩ := by
  have hsign : (msPerResponse fl (.ofRat rate)).negative = false := by
    unfold msPerResponse Double.ofRat
    dsimp only
    split
    · rfl
    · exact decide_eq_false (not_lt.mpr h)
  rw [atof_format, hsign]
  rfl

theorem printedTime_zero : printedTime fl 0 = .finite 0 := by
  have htime : msPerResponse fl (.ofRat 0) = ⟨false, .finite 0⟩ := by
    unfold msPerResponse Double.ofRat
    exact if_pos rfl
  unfold printedTime
  rw [htime]
  decide +kernel

theorem printedTime_of_pos {rate : ℚ} (h : 0 < rate) :
    printedTime fl rate = (Magnitude.ofRat (fl (1000 / rate)).nnabs).round 2 := by
  have hcast : (rate.nnabs : ℚ) = rate := abs_of_pos h
  have hne : rate.nnabs ≠ 0 := by
    intro hzero
    rw [hzero] at hcast
    exact h.ne hcast
  unfold printedTime msPerResponse Double.ofRat
  dsimp only
  rw [if_neg hne, hcast]

/-- The rate is printed as a time of zero: it is zero, or its time is rounded down to zero. -/
def PrintsZero (fl : ℚ → ℚ) (rate : ℚ) : Prop := rate = 0 ∨ fl (1000 / rate) ≤ 1 / 200

section Rounding

variable (hmono : Monotone fl) (hzero : fl 0 = 0)
include hmono hzero

theorem nonneg_of_rounding {q : ℚ} (h : 0 ≤ q) : 0 ≤ fl q := hzero.ge.trans (hmono h)

/-- The greater rate has the smaller time. -/
theorem printedTime_anti {rate rate' : ℚ} (hpos : 0 < rate) (h : rate ≤ rate') :
    printedTime fl rate' ≤ printedTime fl rate := by
  have hpos' := hpos.trans_le h
  have htime : fl (1000 / rate') ≤ fl (1000 / rate) := by
    apply hmono
    gcongr
  have hnonneg : 0 ≤ fl (1000 / rate') := nonneg_of_rounding hmono hzero (by positivity)
  rw [printedTime_of_pos hpos, printedTime_of_pos hpos']
  apply Magnitude.round_mono
  apply Magnitude.ofRat_mono
  rw [← NNRat.coe_le_coe, Rat.coe_nnabs, Rat.coe_nnabs]
  exact abs_le_abs_of_nonneg hnonneg htime

theorem printedTime_le_zero_iff {rate : ℚ} (h : 0 ≤ rate) :
    printedTime fl rate ≤ .finite 0 ↔ PrintsZero fl rate := by
  unfold PrintsZero
  rcases h.eq_or_lt with rfl | hpos
  · rw [printedTime_zero]
    exact iff_of_true (Magnitude.le_zero_iff.mpr rfl) (.inl rfl)
  · have hnonneg : 0 ≤ fl (1000 / rate) := nonneg_of_rounding hmono hzero (by positivity)
    rw [printedTime_of_pos hpos, Magnitude.round_ofRat_le_zero_iff, or_iff_right hpos.ne',
      ← NNRat.coe_le_coe]
    push_cast
    rw [abs_of_nonneg hnonneg]
    constructor <;> intro hle <;> linarith

end Rounding

end Times

/-- What `plotRow` shows of a row in latency mode. -/
theorem columnsOrdered_latency {fl : ℚ → ℚ} (hostnames : List Text) (x : Address)
    {min avg max : ℚ} (std_dev : Double) (hmin : 0 ≤ min) (hle : min ≤ avg) (hle' : avg ≤ max) :
    ColumnsOrdered fl hostnames x .latency ⟨.ofRat min, .ofRat max, .ofRat avg, std_dev⟩ ↔
      printedTime fl max ≤ printedTime fl avg ∧ printedTime fl avg ≤ printedTime fl min := by
  have hplot := plotRow_resultText hostnames (isToken_hostname x) (length_hostname x) .latency
    (msPerResponse fl (.ofRat min)) (msPerResponse fl (.ofRat max)) (msPerResponse fl (.ofRat avg))
    (msPerResponse fl std_dev)
  rw [atof_msPerResponse hmin, atof_msPerResponse (hmin.trans hle),
    atof_msPerResponse ((hmin.trans hle).trans hle')] at hplot
  constructor
  · intro h
    obtain ⟨row, columns, low, mid, high, hrow, hcolumns, hlow, hmid, hhigh, hlm, hmh⟩ := h
    cases hrow
    rw [hplot] at hcolumns
    cases hcolumns
    cases hlow
    cases hmid
    cases hhigh
    exact ⟨hlm, hmh⟩
  · intro h
    exact ⟨_, _, _, _, _, rfl, hplot, rfl, rfl, rfl, h.1, h.2⟩

section Latency

variable {fl : ℚ → ℚ} (hmono : Monotone fl) (hzero : fl 0 = 0)
include hmono hzero

theorem columnsOrdered_of_pos (hostnames : List Text) (x : Address) {min avg max : ℚ}
    (std_dev : Double) (hpos : 0 < min) (hle : min ≤ avg) (hle' : avg ≤ max) :
    ColumnsOrdered fl hostnames x .latency
      ⟨.ofRat min, .ofRat max, .ofRat avg, std_dev⟩ := by
  rw [columnsOrdered_latency hostnames x std_dev hpos.le hle hle']
  exact ⟨printedTime_anti hmono hzero (hpos.trans_le hle) hle',
    printedTime_anti hmono hzero hpos hle⟩

end Latency

/-- The columns are in the order of their names exactly in latency mode, and if no rate is zero
or those that are greater have times that are printed as zero as well. -/
theorem columnsOrdered_iff (fl : ℚ → ℚ) (hmono : Monotone fl) (hzero : fl 0 = 0)
    (hostnames : List Text) (x : Address) (mode : TestMode) (min avg max : ℚ) (std_dev : Double)
    (hmin : 0 ≤ min) (hle : min ≤ avg) (hle' : avg ≤ max) :
    ColumnsOrdered fl hostnames x mode ⟨.ofRat min, .ofRat max, .ofRat avg, std_dev⟩ ↔
      mode = .latency ∧ (min ≠ 0 ∨ PrintsZero fl avg ∧ PrintsZero fl max) := by
  cases mode with
  | throughput =>
    constructor
    · intro h
      obtain ⟨row, _, _, _, _, hrow, -⟩ := h
      cases hrow
    · intro h
      cases h.1
  | latency =>
    rcases hmin.eq_or_lt with rfl | hpos
    · rw [columnsOrdered_latency hostnames x std_dev hmin hle hle', printedTime_zero,
        ← printedTime_le_zero_iff hmono hzero hle,
        ← printedTime_le_zero_iff hmono hzero (hle.trans hle')]
      simp only [Magnitude.le_zero_iff, ne_eq, not_true_eq_false, false_or, true_and]
      constructor
      · intro h
        have hmax := h.1
        rw [h.2, Magnitude.le_zero_iff] at hmax
        exact ⟨h.2, hmax⟩
      · intro h
        rw [h.1, h.2]
        exact ⟨Magnitude.le_zero_iff.mpr rfl, rfl⟩
    · exact iff_of_true (columnsOrdered_of_pos hmono hzero hostnames x std_dev hpos hle hle')
        ⟨rfl, .inl hpos.ne'⟩

/-- Rates of 100, 200 and 250, which are 10, 5 and 4 ms. -/
theorem columnsOrdered_iff_exact :
    ColumnsOrdered id [] ⟨10, 0, 0, 1⟩ .latency
      ⟨.ofRat 100, .ofRat 250, .ofRat 200, .ofRat 10⟩ :=
  (columnsOrdered_iff id monotone_id rfl [] ⟨10, 0, 0, 1⟩ .latency 100 200 250 (.ofRat 10)
    (by norm_num) (by norm_num) (by norm_num)).mpr ⟨rfl, .inl (by norm_num)⟩

/-- Nothing was counted in one loop, and the maximum is printed as zero; in throughput mode
nothing is printed. -/
theorem not_columnsOrdered_zeroRate :
    ¬ ColumnsOrdered id [] ⟨10, 0, 0, 1⟩ .latency
        ⟨.ofRat 0, .ofRat 200, .ofRat 100, .ofRat 100⟩ ∧
      ¬ ColumnsOrdered id [] ⟨10, 0, 0, 1⟩ .throughput
        ⟨.ofRat 100, .ofRat 250, .ofRat 200, .ofRat 10⟩ := by
  constructor
  · intro h
    have hle := ((columnsOrdered_latency [] ⟨10, 0, 0, 1⟩ (.ofRat 100) le_rfl (by norm_num)
      (by norm_num)).mp h).2
    rw [printedTime_zero, Magnitude.le_zero_iff] at hle
    exact absurd hle (by decide +kernel)
  · intro h
    obtain ⟨row, _, _, _, _, hrow, -⟩ := h
    cases hrow

end OfcBenchmark
