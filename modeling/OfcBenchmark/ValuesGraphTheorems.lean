import OfcBenchmark.PlotArraysTheorems

/-!
# The graph of the values

`buildHeader` writes as many names as there are switches, `plotGraph` finds a flow for each of
them and one for the time, and `parseLines` goes through these flows once for each row. So each
count is plotted for its switch (`values_roundTrip`).
-/

namespace OfcBenchmark
open Printf Table

/-! ## The header -/

/-- `Virtual Switch 0` up to the last one. -/
def switchNames (n : ℕ) : List Text :=
  (List.range n).map fun index : ℕ => "Virtual Switch ".toList ++ formatInt index

theorem length_switchNames (n : ℕ) : (switchNames n).length = n := by
  rw [switchNames, List.length_map, List.length_range]

/-- The names have space in the header up to a number of four digits. -/
theorem isFlowName_of_mem_switchNames {n : ℕ} (hn : n ≤ 10000) :
    ∀ name ∈ switchNames n, IsFlowName name := by
  intro name hname
  obtain ⟨index, hindex, rfl⟩ := List.mem_map.mp hname
  have hlt := List.mem_range.mp hindex
  have hdigits : (formatInt index).length ≤ 4 :=
    (length_formatInt_le_iff index (by decide : 0 < 3)).mpr ⟨by omega, by omega⟩
  have hstart : ("Virtual Switch ".toList).length = 15 := by decide
  have hnot (c : Char) (hc : IsNumberChar c = false) (hmem : c ∉ "Virtual Switch ".toList) :
      c ∉ "Virtual Switch ".toList ++ formatInt index := by
    intro h
    rcases List.mem_append.mp h with h | h
    · exact hmem h
    · rw [isNumberChar_of_mem_formatInt h] at hc
      cases hc
  refine ⟨List.append_ne_nil_of_left_ne_nil (by decide) _, ?_, hnot _ rfl (by decide),
    hnot _ rfl (by decide)⟩
  rw [List.length_append, hstart]
  omega

theorem buildHeader_values (hostnames : List Text) {n : ℕ} (hn : 1 ≤ n) (hn' : n ≤ 10000)
    (mode : ℤ) (subMode : ℕ) :
    buildHeader hostnames .values n mode subMode = some (avgsHeader (switchNames n)) := by
  have hpieces : headerPieces hostnames .values n mode subMode
      = some (30 * ((switchNames n).length + 2) + 1,
        (40, headerLabels) :: (switchNames n).map fun name => (21, ',' :: name)) := by
    have hpiece : ((fun name : Text => ((21, ',' :: name) : ℕ × Text)) ∘ fun index : ℕ =>
        "Virtual Switch ".toList ++ formatInt index)
          = fun index : ℕ => (21, ",Virtual Switch ".toList ++ formatInt index) := rfl
    -- the indices are integers there
    have hindices : (List.range n >>= fun index => pure (index : ℤ)) = (List.range n).map (↑) :=
      List.flatMap_pure_eq_map _ _
    rw [length_switchNames, switchNames, List.map_map, hpiece]
    unfold headerPieces
    dsimp only
    rw [max_eq_right hn, hindices, List.map_map]
    rfl
  have hwrite := write_header (isFlowName_of_mem_switchNames hn') (by decide : 30 < 40)
  rw [Option.map_eq_bind] at hwrite
  rw [buildHeader, hpieces, Option.bind_eq_bind, Option.bind_some]
  exact hwrite

/-! ## The round trip -/

/-- Rows as `runTest` writes them: a time stamp and a count for each switch. -/
structure ValuesRows (n : ℕ) where
  rows : List (List Text)
  isToken : ∀ row ∈ rows, ∀ token ∈ row, IsToken token
  length_row : ∀ row ∈ rows, row.length = n + 1

/-- The body of the graph: the rows, closed by another newline. -/
def ValuesRows.body {n : ℕ} (v : ValuesRows n) : Text := v.rows.flatMap csvRow ++ [CSV_NEWLINE]

section Loops

variable (fl : ℚ → ℚ)

/-- The tokens of a row of `runTest`. -/
def valuesTokens (d : LoopData) : List Text := (d.ms fl).format 3 :: d.counts.map formatInt

theorem isToken_valuesTokens (d : LoopData) : ∀ token ∈ valuesTokens fl d, IsToken token := by
  intro token htoken
  rcases List.mem_cons.mp htoken with rfl | htoken
  · exact isToken_format 3 _
  · obtain ⟨count, -, rfl⟩ := List.mem_map.mp htoken
    exact isToken_formatInt count

theorem csvRow_valuesTokens (d : LoopData) :
    csvRow (valuesTokens fl d) = valuesNumbers fl d ++ [CSV_NEWLINE] := by
  rw [valuesTokens, csvRow, List.flatMap_map]
  rfl

/-- A block whose rows have these tokens. -/
theorem rowsBlock_eq {numbers : LoopData → Text} {tokens : LoopData → List Text}
    (h : ∀ d, csvRow (tokens d) = numbers d ++ [CSV_NEWLINE]) (loops : List LoopData) :
    rowsBlock numbers loops = (loops.map tokens).flatMap csvRow ++ [CSV_NEWLINE] := by
  rw [rowsBlock, List.flatMap_map]
  simp only [h]

/-- The rows of a test with `n` switches. -/
def ValuesRows.ofLoops {n : ℕ} (loops : List LoopData)
    (h : ∀ d ∈ loops, d.counts.length = n) : ValuesRows n where
  rows := loops.map (valuesTokens fl)
  isToken := fun row hrow => by
    obtain ⟨d, -, rfl⟩ := List.mem_map.mp hrow
    exact isToken_valuesTokens fl d
  length_row := fun row hrow => by
    obtain ⟨d, hd, rfl⟩ := List.mem_map.mp hrow
    rw [valuesTokens, List.length_cons, List.length_map, h d hd]

/-- Their body is the block that the slave sends. -/
theorem ValuesRows.body_ofLoops {n : ℕ} {loops : List LoopData}
    (h : ∀ d ∈ loops, d.counts.length = n) :
    (ValuesRows.ofLoops fl loops h).body = rowsBlock (valuesNumbers fl) loops := by
  rw [rowsBlock_eq (csvRow_valuesTokens fl)]
  rfl

end Loops

/-- For any number of switches that the master can have read and for any rows for which there is
space in `x` and in `numberText`, the flows are the time and the switches, the last of them with a
NULL pointer behind it, and the `r`-th row's `c`-th token is at `x[r]` of the `c`-th flow. Nothing
is stored elsewhere, and `parseLines` stops at the newline that closes the body with the number of
rows. -/
theorem values_roundTrip {α : Type} (atof : Text → α) (hostnames : List Text) (mode : ℤ)
    (subMode : ℕ) (n : ℕ) (hn : 1 ≤ n) (hn' : n ≤ 9999) (v : ValuesRows n) (a : PlotArrays)
    (hx : v.rows.length ≤ a.x)
    (hnumber : ∀ row ∈ v.rows, ∀ token ∈ row, token.length < a.numberText) :
    ∃ header h, buildHeader hostnames .values n mode subMode = some header ∧
      plotGraphHeader header = some h ∧
      h.xlabel = "timestamp (sec)".toList ∧ h.ylabel = "flows/sec".toList ∧
      h.flows = "time".toList :: switchNames n ∧ h.flows.length = n + 1 ∧
      h.nullTerminated = true ∧
      ∃ r, a.parseLines atof h.flows.length v.body = some r ∧
        r.i = v.rows.length ∧ r.rest = [CSV_NEWLINE] ∧
        (∀ x row c, perform x r.stores row c
          = ((v.rows[row]?).bind fun tokens => (tokens[c]?).map atof).getD (x row c)) ∧
        ∀ s ∈ r.stores, s.row < v.rows.length ∧ s.column < n + 1 := by
  have hnames := isFlowName_of_mem_switchNames (n := n) (by omega)
  have hne : switchNames n ≠ [] := List.ne_nil_of_length_pos (by rw [length_switchNames]; exact hn)
  have hlength : ("time".toList :: switchNames n).length = n + 1 := by
    rw [List.length_cons, length_switchNames]
  have hrows : ∀ row ∈ v.rows, row ≠ [] ∧ ∀ token ∈ row, IsToken token := fun row hrow =>
    ⟨List.ne_nil_of_length_pos (by rw [v.length_row row hrow]; exact Nat.succ_pos n),
      v.isToken row hrow⟩
  have hfit : ∀ row ∈ v.rows, row.length ≤ ("time".toList :: switchNames n).length ∧
      ∀ token ∈ row, token.length < a.numberText := fun row hrow =>
    ⟨by rw [hlength, v.length_row row hrow], hnumber row hrow⟩
  have hparse := (PlotArrays.parseLinesFrom_rows atof hrows (Nat.zero_le a.x)).mpr
    ⟨⟨hfit, by rwa [Nat.zero_add]⟩, rfl⟩
  refine ⟨_, _, buildHeader_values hostnames hn (by omega) mode subMode,
    plotGraphHeader_avgsHeader hnames hne, rfl, rfl, rfl, hlength, rfl, _, hparse,
    Nat.zero_add _, rfl, ?_, ?_⟩
  · intro x row c
    rw [perform_stores, if_pos (Nat.zero_le row), Nat.sub_zero, List.getElem?_map]
    cases v.rows[row]? with
    | none => rfl
    | some tokens => exact congrArg (Option.getD · _) (List.getElem?_map)
  · intro s hs
    obtain ⟨hrow, values, hvalues, hcolumn⟩ := mem_stores hs
    obtain ⟨tokens, htokens, rfl⟩ := List.mem_map.mp hvalues
    rw [Nat.zero_add, List.length_map] at hrow
    rw [List.length_map, v.length_row tokens htokens] at hcolumn
    exact ⟨hrow, hcolumn⟩

/-- Two loops with two switches. -/
def twoLoops : ValuesRows 2 :=
  ValuesRows.ofLoops id [evenLoop 2 4, evenLoop 2 7] (by decide)

/-- They have space in the arrays of the source. -/
theorem values_roundTrip_twoLoops :
    ∃ header h r, buildHeader [] .values 2 0 0 = some header ∧ plotGraphHeader header = some h ∧
      h.flows = ["time".toList, "Virtual Switch 0".toList, "Virtual Switch 1".toList] ∧
      plotArrays.parseLines id h.flows.length
        (rowsBlock (valuesNumbers id) [evenLoop 2 4, evenLoop 2 7]) = some r ∧
      r.i = 2 ∧ perform (fun _ _ => []) r.stores 1 2 = "7".toList := by
  obtain ⟨header, h, hheader, hscan, -, -, hflows, -, -, r, hr, hi, -, hx, -⟩ :=
    values_roundTrip id [] 0 0 2 (by decide) (by decide) twoLoops plotArrays (by decide)
      (by decide +kernel)
  rw [twoLoops, ValuesRows.body_ofLoops] at hr
  refine ⟨header, h, r, hheader, hscan, ?_, hr, hi, ?_⟩
  · rw [hflows]
    decide
  · rw [hx]
    decide

end OfcBenchmark
