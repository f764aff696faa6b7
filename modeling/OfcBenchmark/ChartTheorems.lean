import OfcBenchmark.FigureTheorems
import OfcBenchmark.PlotLimitsTheorems

/-!
# The charts

What the slaves report and what is sampled, as it is in the files of the graphs in the end, when
all of it has space and each report is about one test: a line for each switch (`values_chart`), a
line for each slave (`averages_chart`), bars and marks for each slave (`results_chart`), and two
lines for the samples (`snmp_chart`). The first number in the results of a slave is the least one,
and its bars have the title MAX.
-/

namespace OfcBenchmark
open Printf Table Plotter Gnuplot

variable {α : Type} {atof : Text → α}

/-! ## Lines -/

/-- A loop in which every turn has a result. -/
theorem mapM_eq_some {β γ : Type} {f : β → Option γ} {g : β → γ} {items : List β}
    (h : ∀ b ∈ items, f b = some (g b)) : items.mapM f = some (items.map g) := by
  induction items with
  | nil => rfl
  | cons b items ih =>
    obtain ⟨hb, hitems⟩ := List.forall_mem_cons.mp h
    rw [List.mapM_cons, hb, ih hitems]
    rfl

/-- The lines of these rows: what is read back is what was stored. -/
theorem linesOf_stores (flows : List Text) (rows : List (List α)) (rest : Text) :
    linesOf flows ⟨stores 0 rows, rows.length, rest⟩ = flows.zipIdx.tail.mapM fun flow =>
      (rows.mapM fun row => do
        let x ← row[0]?
        let y ← row[flow.2]?
        some (x, y)).map (flow.1, ·) := by
  unfold linesOf
  simp only [cell_stores]
  refine congrArg (List.mapM · _) (funext fun flow => ?_)
  rw [Option.map_eq_bind, ← mapM_range_rows rows]
  refine congrArg (Option.bind · _) (congrArg (List.mapM · _) (funext fun row => ?_))
  cases rows[row]? <;> rfl

/-- What is plotted under these names, where `y k` is what the items have for the `k`-th of them. -/
def linesBy {β : Type} (names : List Text) (items : List β) (x : β → α) (y : ℕ → β → α) :
    List (Text × List (α × α)) :=
  names.zipIdx.map fun name => (name.1, items.map fun d => (x d, y name.2 d))

section Lines

variable {β : Type} {items : List β} (x : β → Text) (ys : β → List Text) (y : ℕ → β → Text)

/-- Each flow behind the first one is plotted against the first one. -/
theorem linesOf_rows (first : Text) {names : List Text}
    (hys : ∀ d ∈ items, ∀ k < names.length, (ys d)[k]? = some (y k d))
    (rest : Text) :
    linesOf (first :: names)
        ⟨stores 0 (items.map fun d => (x d :: ys d).map atof),
          (items.map fun d => (x d :: ys d).map atof).length, rest⟩
      = some (linesBy names items (fun d => atof (x d)) fun k d => atof (y k d)) := by
  rw [linesOf_stores, List.zipIdx_cons, List.tail_cons, List.zipIdx_succ, List.mapM_map]
  refine mapM_eq_some fun name hname => ?_
  have hk : name.2 < names.length := by
    have hlt := List.snd_lt_add_of_mem_zipIdx hname
    omega
  have hpoints : ((items.map fun d => (x d :: ys d).map atof).mapM fun row => do
      let x ← row[0]?
      let y ← row[name.2 + 1]?
      some (x, y)) = some (items.map fun d => (atof (x d), atof (y name.2 d))) := by
    rw [List.mapM_map]
    refine mapM_eq_some fun d hd => ?_
    have hy : ((x d :: ys d).map atof)[name.2 + 1]? = some (atof (y name.2 d)) := by
      rw [List.getElem?_map, List.getElem?_cons_succ, hys d hd name.2 hk, Option.map_some]
    exact Option.bind_eq_some_iff.mpr ⟨_, hy, rfl⟩
  exact Option.map_eq_some_iff.mpr ⟨_, hpoints, rfl⟩

/-- The lines of a text with these rows, whatever the names. -/
theorem exists_parseLines_rows {n : ℕ} (hlength : ∀ d ∈ items, (ys d).length = n)
    (htoken : ∀ d ∈ items, ∀ token ∈ x d :: ys d, IsToken token)
    (hys : ∀ d ∈ items, ∀ k < n, (ys d)[k]? = some (y k d))
    (hspace : RowsHaveSpace (items.map fun d => x d :: ys d)) :
    ∃ r, plotArrays.parseLines atof (n + 1)
        ((items.map fun d => x d :: ys d).flatMap csvRow ++ [CSV_NEWLINE]) = some r ∧
      ∀ first names, names.length = n → linesOf (first :: names) r
        = some (linesBy names items (fun d => atof (x d)) fun k d => atof (y k d)) := by
  have hrows : ∀ row ∈ items.map fun d => x d :: ys d, row ≠ [] ∧ ∀ token ∈ row, IsToken token := by
    intro row hrow
    obtain ⟨d, hd, rfl⟩ := List.mem_map.mp hrow
    exact ⟨List.cons_ne_nil _ _, htoken d hd⟩
  have hflows : ∀ row ∈ items.map fun d => x d :: ys d, row.length ≤ n + 1 := by
    intro row hrow
    obtain ⟨d, hd, rfl⟩ := List.mem_map.mp hrow
    rw [List.length_cons, hlength d hd]
  refine ⟨_, parseLines_rows atof hrows hflows hspace, fun first names hnames => ?_⟩
  subst hnames
  rw [List.map_map]
  exact linesOf_rows x ys y first hys _

end Lines

/-! ## What is drawn -/

variable (e18 : α → Text)

/-- Whatever the other sessions and the plotters do, a session with these calls leaves these
pictures in its file. -/
def Draws (name : Text) (calls : List (PlotCall α)) (pictures : List Picture) : Prop :=
  ∀ (ι : Type) [DecidableEq ι] (i : ι) (d : Desk ι)
    (history : List (Runs.Transition (Desk ι) (DeskEvent ι α))) (d' : Desk ι),
    PlotsIn e18 name calls i d history d' → d'.images (chart name) = pictures

/-- The settings of a graph with these labels. -/
def labelled (xlabel ylabel : Text) : List Text := startSettings ⟨xlabel, ylabel, [], true⟩

variable {fl : ℚ → ℚ} {ofRat : ℚ → α} {name header body : Text} {g : GraphHeader}
  {lines : List (Text × List (α × α))}

theorem draws_lines (g : GraphHeader) {extra : List Text}
    (hextra : ∀ text ∈ extra, readCommand text = .setting text) (hname : IsChartName name)
    (hlines : ∀ line ∈ lines, IsLine line) (hne : lines ≠ []) :
    Draws e18 name (lineCalls g extra name lines) (figure (labelled g.xlabel g.ylabel ++ extra)
      (lines.map fun line => curveOf e18 line.2 line.1 "lines".toList)) :=
  fun _ _ _ _ _ _ h => figure_of_lines hextra hname hlines hne h

/-- The calls for one body of lines. -/
theorem plotGraphCalls_lines {type : QueueId} {extra : List Text}
    (htype : type = .values ∧ extra = [] ∨ type = .snmp ∧ extra = ["set yrange [0:]".toList])
    (hscan : plotGraphHeader header = some g) (hnull : g.nullTerminated = true)
    {r : PlotArrays.Parsed α} (hparse : plotArrays.parseLines atof g.flows.length body = some r)
    (hlines : linesOf g.flows r = some lines) :
    plotGraphCalls atof fl ofRat type name [header, body]
      = some (lineCalls g extra name lines) := by
  have hgraph : plotArrays.plotGraph atof type [header, body]
      = (plotArrays.parseLines atof g.flows.length body).map fun r => ⟨g, none, [r]⟩ :=
    PlotArrays.plotGraph_lines hscan (htype.imp And.left And.left) body [] hnull
  have hflatten : [lines].flatten = lines := List.append_nil lines
  rw [plotGraphCalls, hgraph, hparse, Option.map_some, Option.bind_eq_bind, Option.bind_some]
  rcases htype with ⟨rfl, rfl⟩ | ⟨rfl, rfl⟩ <;>
    (rw [graphCalls]
     dsimp only
     rw [List.mapM_cons, hlines, List.mapM_nil]
     conv_rhs => rw [← hflatten]
     rfl)

/-! ## A line for each switch -/

theorem not_quote_of_mem_switchNames {n : ℕ} : ∀ name ∈ switchNames n, '\x22' ∉ name := by
  intro name hname hmem
  obtain ⟨index, -, rfl⟩ := List.mem_map.mp hname
  rcases List.mem_append.mp hmem with hmem | hmem
  · exact absurd hmem (by decide)
  · cases isNumberChar_of_mem_formatInt hmem

theorem linesBy_switchNames {β : Type} (n : ℕ) (items : List β) (x : β → α) (y : ℕ → β → α) :
    linesBy (switchNames n) items x y = (List.range n).map fun k : ℕ =>
      ("Virtual Switch ".toList ++ formatInt k, items.map fun d => (x d, y k d)) := by
  refine List.ext_getElem ?_ fun k hk hk' => ?_
  · rw [linesBy, List.length_map, List.length_zipIdx, length_switchNames, List.length_map,
      List.length_range]
  · simp [linesBy, switchNames]

/-- The points for a switch: the time stamp of each loop, and its count. -/
def TestReport.valuesPoints (fl : ℚ → ℚ) (atof : Text → α) (t : TestReport) (k : ℕ) :
    List (α × α) :=
  t.loops.map fun d => (atof ((d.ms fl).format 3), atof (formatInt (d.counts.getD k 0)))

theorem TestReport.exists_parseLines_values (mode : TestMode) (t : TestReport)
    (hspace : RowsHaveSpace (t.loops.map (valuesTokens fl))) :
    ∃ r, plotArrays.parseLines atof (t.nSwitches + 1) (t.text fl mode .values) = some r ∧
      linesOf ("time".toList :: switchNames t.nSwitches) r
        = some ((List.range t.nSwitches).map fun k : ℕ =>
            ("Virtual Switch ".toList ++ formatInt k, t.valuesPoints fl atof k)) := by
  have hcount : ∀ d ∈ t.loops, ∀ k < t.nSwitches,
      (d.counts.map formatInt)[k]? = some (formatInt (d.counts.getD k 0)) := by
    intro d hd k hk
    rw [← t.length_counts d hd] at hk
    rw [List.getElem?_map, List.getD_eq_getElem?_getD, List.getElem?_eq_getElem hk]
    rfl
  obtain ⟨r, hparse, hlines⟩ := exists_parseLines_rows (fun d : LoopData => (d.ms fl).format 3)
    (fun d => d.counts.map formatInt) (fun k d => formatInt (d.counts.getD k 0))
    (fun d hd => (List.length_map _).trans (t.length_counts d hd))
    (fun d _ => isToken_valuesTokens fl d) hcount hspace
  refine ⟨r, ?_, (hlines _ _ (length_switchNames _)).trans
    (congrArg some (linesBy_switchNames _ _ _ _))⟩
  rw [TestReport.text, rowsBlock_eq (csvRow_valuesTokens fl)]
  exact hparse

/-- The counts in a report about one test are plotted for its switches, the rows against their time
stamps; but with 64 switches or more nothing is. -/
theorem values_chart (e18 : α → Text) (atof : Text → α) (fl : ℚ → ℚ) (ofRat : ℚ → α)
    {name : Text} (hname : IsChartName name) (hostnames : List Text) (mode : ℤ) {quantity : ℕ}
    (hquantity : 1 ≤ quantity) (s : SlaveReport) (hone : s.OneTest) (hcomplete : s.Complete fl)
    (hspace : RowsHaveSpace (s.lastTest.loops.map (valuesTokens fl))) :
    ∃ header calls,
      buildHeader hostnames .values s.params.nSwitches.toNat mode 0 = some header ∧
      plotGraphCalls atof fl ofRat .values name (header :: s.read fl quantity .values)
        = some calls ∧
      Draws e18 name calls (figure (labelled "timestamp (sec)".toList "flows/sec".toList)
        ((List.range s.params.nSwitches.toNat).map fun k : ℕ =>
          curveOf e18 (s.lastTest.valuesPoints fl atof k)
            ("Virtual Switch ".toList ++ formatInt k) "lines".toList)) := by
  have hpos := s.one_le_nSwitches
  have hle := hcomplete.built.nSwitches_le
  have hread : s.read fl quantity .values = [s.lastTest.text fl s.params.mode .values] :=
    SlaveReport.read_of_complete hone hcomplete hquantity (by decide)
  have hbuild := buildHeader_values hostnames hpos (by omega) mode 0
  have hscan := plotGraphHeader_avgsHeader
    (isFlowName_of_mem_switchNames (n := s.params.nSwitches.toNat) (by omega))
    (List.ne_nil_of_length_pos (by rw [length_switchNames]; exact hpos))
  rw [hread]
  rw [← s.nSwitches_lastTest] at hpos hbuild hscan ⊢
  obtain ⟨r, hparse, hcurves⟩ := s.lastTest.exists_parseLines_values s.params.mode hspace
  have hlines : ∀ line ∈ (List.range s.lastTest.nSwitches).map fun k : ℕ =>
      ("Virtual Switch ".toList ++ formatInt k, s.lastTest.valuesPoints fl atof k),
      IsLine line := by
    intro line hline
    obtain ⟨k, hk, rfl⟩ := List.mem_map.mp hline
    exact ⟨fun hnil => s.lastTest.loops_ne (List.map_eq_nil_iff.mp hnil),
      not_quote_of_mem_switchNames _ (List.mem_map_of_mem hk)⟩
  have hsome : (List.range s.lastTest.nSwitches).map (fun k : ℕ =>
      ("Virtual Switch ".toList ++ formatInt k, s.lastTest.valuesPoints fl atof k)) ≠ [] :=
    List.ne_nil_of_length_pos (by
      rw [List.length_map, List.length_range]
      exact hpos)
  have hflows : ("time".toList :: switchNames s.lastTest.nSwitches).length
      = s.lastTest.nSwitches + 1 := by
    rw [List.length_cons, length_switchNames]
  rw [← hflows] at hparse
  refine ⟨_, _, hbuild, plotGraphCalls_lines (.inl ⟨rfl, rfl⟩) hscan rfl hparse hcurves, ?_⟩
  have hdraws := draws_lines e18 ⟨"timestamp (sec)".toList, "flows/sec".toList,
    "time".toList :: switchNames s.lastTest.nSwitches, true⟩
    (fun _ htext => absurd htext List.not_mem_nil) hname hlines hsome
  rw [List.append_nil, List.map_map] at hdraws
  exact hdraws

/-- A slave with one switch. -/
theorem values_chart_idleSlave : ∃ calls, ∃ (d : Desk Unit) (history : _) (d' : Desk Unit),
    PlotsIn id "slave".toList calls () d history d' ∧
      d'.images (chart "slave".toList)
        = [⟨labelled "timestamp (sec)".toList "flows/sec".toList,
            [⟨some "1.010 0\n".toList, "Virtual Switch 0".toList, "lines".toList⟩]⟩] := by
  let s : SlaveReport := idleSlave ⟨10, 0, 0, 1⟩ ⟨1, 1, .latency, false⟩ (by decide) (by decide)
  have hname : IsChartName "slave".toList := ⟨by decide, by decide⟩
  have hspace : RowsHaveSpace (s.lastTest.loops.map (valuesTokens id)) :=
    ⟨by decide, by decide +kernel⟩
  have hcomplete : s.Complete id := by
    decide +kernel
  obtain ⟨header, calls, -, -, hdraws⟩ := values_chart id id id (fun _ => []) hname [] 0 le_rfl s
    (.inl rfl) hcomplete hspace
  obtain ⟨d, history, d', hplots⟩ := exists_chart id "slave".toList calls
  refine ⟨calls, d, history, d', hplots, (hdraws Unit () d history d' hplots).trans ?_⟩
  decide +kernel

/-! ## A line for each slave -/

theorem not_quote_hostname (x : Address) : '\x22' ∉ hostname x := by
  intro hmem
  cases isNumberChar_of_mem_hostname hmem

/-- The points for a slave: the time stamp of each loop, and its rate. -/
def TestReport.avgsPoints (fl : ℚ → ℚ) (atof : Text → α) (t : TestReport) : List (α × α) :=
  t.loops.map fun d => (atof ((d.ms fl).format 3), atof ((d.rate fl).format 2))

theorem TestReport.exists_parseLines_avgs (t : TestReport)
    (hspace : RowsHaveSpace (t.loops.map (avgsTokens fl))) :
    ∃ r, plotArrays.parseLines atof 2 (rowsBlock (avgsNumbers fl) t.loops) = some r ∧
      ∀ first title, linesOf [first, title] r = some [(title, t.avgsPoints fl atof)] := by
  obtain ⟨r, hparse, hlines⟩ := exists_parseLines_rows (fun d : LoopData => (d.ms fl).format 3)
    (fun d => [(d.rate fl).format 2]) (fun _ d => (d.rate fl).format 2)
    (fun _ _ => rfl) (fun d _ => isToken_avgsTokens fl d)
    (fun d _ k hk => by rw [Nat.lt_one_iff.mp hk]; rfl) hspace
  refine ⟨r, ?_, fun first title => hlines first [title] rfl⟩
  rw [rowsBlock_eq (csvRow_avgsTokens fl)]
  exact hparse

/-- The calls for several tests, each of them with a flow of its own. -/
theorem plotGraphCalls_avgs (atof : Text → α) (ofRat : ℚ → α) (name : Text) {first : Text}
    {names : List Text} {tests : List TestReport} (hne : tests ≠ [])
    (hscan : plotGraphHeader header = some g) (hflows : g.flows = first :: names)
    (hlength : tests.length ≤ names.length)
    (hspace : ∀ t ∈ tests, RowsHaveSpace (t.loops.map (avgsTokens fl))) :
    plotGraphCalls atof fl ofRat .avgs name
        (header :: tests.map fun t => rowsBlock (avgsNumbers fl) t.loops)
      = some (lineCalls g [] name
          ((names.zip tests).map fun c => (c.1, c.2.avgsPoints fl atof))) := by
  have hbodies : tests.map (fun t => rowsBlock (avgsNumbers fl) t.loops) ≠ [] := fun hnil =>
    hne (List.map_eq_nil_iff.mp hnil)
  have hgraph : plotArrays.plotGraph atof .avgs
      (header :: tests.map fun t => rowsBlock (avgsNumbers fl) t.loops) = _ :=
    PlotArrays.plotGraph_avgs hscan hbodies
  have hlt : (tests.map fun t => rowsBlock (avgsNumbers fl) t.loops).length < g.flows.length := by
    rw [hflows, List.length_map, List.length_cons]
    omega
  -- what is read of each test
  let read (t : TestReport) : PlotArrays.Parsed α :=
    ((plotArrays.parseLines atof 2 (rowsBlock (avgsNumbers fl) t.loops)).getD ⟨[], 0, []⟩)
  have hread : ∀ t ∈ tests,
      plotArrays.parseLines atof 2 (rowsBlock (avgsNumbers fl) t.loops) = some (read t) ∧
        ∀ title, linesOf [first, title] (read t) = some [(title, t.avgsPoints fl atof)] := by
    intro t ht
    obtain ⟨r, hparse, hlines⟩ := t.exists_parseLines_avgs (hspace t ht)
    have hr : read t = r := by
      show ((plotArrays.parseLines atof 2 _).getD _) = r
      rw [hparse, Option.getD_some]
    exact ⟨hr ▸ hparse, hr ▸ hlines first⟩
  have hparsed : (tests.map fun t => rowsBlock (avgsNumbers fl) t.loops).mapM
      (plotArrays.parseLines atof 2) = some (tests.map read) := by
    rw [List.mapM_map]
    exact mapM_eq_some fun t ht => (hread t ht).1
  have hlines : ((g.flows.tail.zip (tests.map read)).mapM fun b =>
      linesOf (g.flows.take 1 ++ [b.1]) b.2)
        = some ((names.zip tests).map fun c => [(c.1, c.2.avgsPoints fl atof)]) := by
    rw [hflows, List.tail_cons, List.zip_map_right, List.mapM_map]
    exact mapM_eq_some fun c hc => (hread c.2 (List.of_mem_zip hc).2).2 c.1
  have hcalls : graphCalls fl ofRat .avgs name ⟨g, none, tests.map read⟩
      = some (.setstyle "lines".toList :: plotLines name
          ((names.zip tests).map fun c => (c.1, c.2.avgsPoints fl atof))) := by
    rw [graphCalls]
    dsimp only
    rw [hlines, Option.bind_eq_bind, Option.bind_some, ← List.flatMap_def, ← List.map_eq_flatMap]
  rw [plotGraphCalls, hgraph, if_pos hlt, hparsed, Option.map_some, Option.bind_eq_bind,
    Option.bind_some, hcalls]
  rfl

/-- The test that comes `k`-th is plotted under the name of the slave that connected `k`-th, up to
63 of them. -/
theorem draws_averages (e18 : α → Text) (atof : Text → α) (fl : ℚ → ℚ) (ofRat : ℚ → α)
    {name : Text} (hname : IsChartName name) {connected : List Address} {tests : List TestReport}
    (hlength : connected.length = tests.length) (hne : tests ≠ []) (mode : ℤ)
    (hspace : ∀ t ∈ tests, RowsHaveSpace (t.loops.map (avgsTokens fl))) :
    ∃ header calls,
      buildHeader (connected.map hostname) .avgs connected.length mode 0 = some header ∧
      plotGraphCalls atof fl ofRat .avgs name
        (header :: tests.map fun t => rowsBlock (avgsNumbers fl) t.loops) = some calls ∧
      Draws e18 name calls (figure (labelled "timestamp (sec)".toList "flows/sec".toList)
        ((connected.zip tests).map fun c =>
          curveOf e18 (c.2.avgsPoints fl atof) (hostname c.1) "lines".toList)) := by
  have hnames : ∀ name ∈ connected.map hostname, IsName name := fun name hname => by
    obtain ⟨x, -, rfl⟩ := List.mem_map.mp hname
    exact isName_hostname x
  have hconnected : connected ≠ [] := List.ne_nil_of_length_pos
    (hlength.symm ▸ List.length_pos_iff.mpr hne)
  have hsome : connected.map hostname ≠ [] := fun hnil => hconnected (List.map_eq_nil_iff.mp hnil)
  have hbuild := buildHeader_avgs hnames hsome mode 0
  rw [List.length_map] at hbuild
  have hscan := plotGraphHeader_avgsHeader (fun name hname => (hnames name hname).isFlowName) hsome
  have hcalls := plotGraphCalls_avgs atof ofRat name hne hscan rfl
    (by rw [List.length_map, hlength]) hspace
  have hzip : ((connected.map hostname).zip tests).map
      (fun c => (c.1, c.2.avgsPoints fl atof))
        = (connected.zip tests).map fun c => (hostname c.1, c.2.avgsPoints fl atof) := by
    rw [List.zip_map_left, List.map_map]
    rfl
  rw [hzip] at hcalls
  have hlines : ∀ line ∈ (connected.zip tests).map fun c =>
      (hostname c.1, c.2.avgsPoints fl atof), IsLine line := by
    intro line hmem
    obtain ⟨c, hc, rfl⟩ := List.mem_map.mp hmem
    exact ⟨fun hnil => c.2.loops_ne (List.map_eq_nil_iff.mp hnil), not_quote_hostname c.1⟩
  have hcurves : (connected.zip tests).map (fun c =>
      (hostname c.1, c.2.avgsPoints fl atof)) ≠ [] := by
    refine List.ne_nil_of_length_pos ?_
    rw [List.length_map, List.length_zip, hlength, min_self]
    exact List.length_pos_iff.mpr hne
  refine ⟨_, _, hbuild, hcalls, ?_⟩
  have hdraws := draws_lines e18
    ⟨"timestamp (sec)".toList, "flows/sec".toList, "time".toList :: connected.map hostname, true⟩
    (fun _ htext => absurd htext List.not_mem_nil) hname hlines hcurves
  rw [List.append_nil, List.map_map] at hdraws
  exact hdraws

/-- Of slaves whose reports are about one test, the one whose averages came `k`-th is plotted under
the name of the one that connected `k`-th, up to 63 of them. -/
theorem averages_chart (e18 : α → Text) (atof : Text → α) (fl : ℚ → ℚ) (ofRat : ℚ → α)
    {name : Text} (hname : IsChartName name) (connected : List Address) (slaves : List SlaveReport)
    (hlength : connected.length = slaves.length) (hne : slaves ≠ []) (mode : ℤ)
    (hone : ∀ s ∈ slaves, s.OneTest) (hcomplete : ∀ s ∈ slaves, s.Complete fl)
    (hspace : ∀ s ∈ slaves, RowsHaveSpace (s.lastTest.loops.map (avgsTokens fl))) :
    ∃ header calls,
      buildHeader (connected.map hostname) .avgs connected.length mode 0 = some header ∧
      plotGraphCalls atof fl ofRat .avgs name
        (header :: slaves.flatMap fun s => s.read fl connected.length .avgs) = some calls ∧
      Draws e18 name calls (figure (labelled "timestamp (sec)".toList "flows/sec".toList)
        ((connected.zip slaves).map fun c =>
          curveOf e18 (c.2.lastTest.avgsPoints fl atof) (hostname c.1) "lines".toList)) := by
  have hspace' : ∀ t ∈ slaves.map SlaveReport.lastTest,
      RowsHaveSpace (t.loops.map (avgsTokens fl)) := by
    intro t ht
    obtain ⟨s, hs, rfl⟩ := List.mem_map.mp ht
    exact hspace s hs
  have hdraws := draws_averages e18 atof fl ofRat hname
    (hlength.trans (List.length_map SlaveReport.lastTest).symm)
    (fun hnil => hne (List.map_eq_nil_iff.mp hnil)) mode hspace'
  rw [List.map_map, List.zip_map_right, List.map_map] at hdraws
  have hquantity : 1 ≤ connected.length := hlength ▸ List.length_pos_iff.mpr hne
  rw [SlaveReport.flatMap_read hone hcomplete hquantity (by decide)]
  exact hdraws

/-- A slave with one switch, which counted as many responses in its loop, and whose rates were
between 1 and 3. -/
def countingSlave (x : Address) (count : ℕ) : SlaveReport where
  address := x
  params := ⟨1, 1, .throughput, false⟩
  tests := fun i => ⟨i + 1, [evenLoop (i + 1) count], ⟨.ofRat 1, .ofRat 3, .ofRat 2, .ofRat 1⟩,
    List.cons_ne_nil _ _, List.forall_mem_singleton.mpr List.length_replicate⟩
  one_le_nSwitches := by decide
  nSwitches_tests := fun _ _ => rfl
  length_loops := fun _ _ => rfl

/-- Two of them, the second one first. -/
def swappedSlaves : List SlaveReport :=
  [countingSlave ⟨10, 0, 0, 2⟩ 7700, countingSlave ⟨10, 0, 0, 1⟩ 4400]

theorem oneTest_swappedSlaves : ∀ s ∈ swappedSlaves, s.OneTest := by
  simp only [swappedSlaves, List.forall_mem_cons]
  exact ⟨.inl rfl, .inl rfl, fun _ h => absurd h List.not_mem_nil⟩

theorem complete_swappedSlaves : ∀ s ∈ swappedSlaves, s.Complete id := by
  decide +kernel

/-- They are plotted under the name of each other. -/
theorem averages_chart_swappedReports : ∃ calls, ∃ (d : Desk Unit) (history : _) (d' : Desk Unit),
    PlotsIn id "partials".toList calls () d history d' ∧
      d'.images (chart "partials".toList)
        = [⟨labelled "timestamp (sec)".toList "flows/sec".toList,
            [⟨some "1.010 7.00\n".toList, "10.0.0.1".toList, "lines".toList⟩,
              ⟨some "1.010 4.00\n".toList, "10.0.0.2".toList, "lines".toList⟩]⟩] := by
  have hname : IsChartName "partials".toList := ⟨by decide, by decide⟩
  have hspace : ∀ s ∈ swappedSlaves, RowsHaveSpace (s.lastTest.loops.map (avgsTokens id)) := by
    simp only [swappedSlaves, List.forall_mem_cons]
    exact ⟨⟨by decide, by decide +kernel⟩, ⟨by decide, by decide +kernel⟩,
      fun _ h => absurd h List.not_mem_nil⟩
  obtain ⟨header, calls, -, -, hdraws⟩ := averages_chart id id id (fun _ => []) hname
    [⟨10, 0, 0, 1⟩, ⟨10, 0, 0, 2⟩] swappedSlaves rfl (List.cons_ne_nil _ _) 1
    oneTest_swappedSlaves complete_swappedSlaves hspace
  obtain ⟨d, history, d', hplots⟩ := exists_chart id "partials".toList calls
  refine ⟨calls, d, history, d', hplots, (hdraws Unit () d history d' hplots).trans ?_⟩
  decide +kernel

/-! ## Bars and marks for each slave -/

/-- A number of a row of RESULTS. -/
def shownResult (fl : ℚ → ℚ) (mode : TestMode) (x : Double) : Text :=
  match mode with
  | .latency => (msPerResponse fl x).format 2
  | .throughput => x.format 2

/-- The height for the bars or marks of each slave. -/
def heights (fl : ℚ → ℚ) (atof : Text → α) (slaves : List SlaveReport)
    (number : TestResults → Double) : List α :=
  slaves.map fun s => atof (shownResult fl s.params.mode (number s.lastTest.results))

section Bodies

variable {slaves : List SlaveReport}

end Bodies

/-- The points for a variable: the time stamp of each sample, and the value. -/
def samplePoints (atof : Text → α) (samples : List SnmpSample) (value : SnmpSample → BitVec 32) :
    List (α × α) :=
  samples.map fun s => (atof ((s.time.format 3).take 19), atof (formatInt (value s).toInt))

theorem exists_parseLines_snmp {first second : SnmpSample → BitVec 32} {samples : List SnmpSample}
    (hspace : RowsHaveSpace (samples.map (snmpTokens first second))) :
    ∃ r, plotArrays.parseLines atof 3
        ((samples.map fun s => csvRow (snmpTokens first second s)).flatten ++ [CSV_NEWLINE])
          = some r ∧
      ∀ time title title', linesOf [time, title, title'] r
        = some [(title, samplePoints atof samples first),
            (title', samplePoints atof samples second)] := by
  have hbody : (samples.map fun s => csvRow (snmpTokens first second s)).flatten
      = (samples.map (snmpTokens first second)).flatMap csvRow := by
    rw [List.flatMap_map]
    rfl
  have hvalue : ∀ s ∈ samples, ∀ k < 2, [formatInt (first s).toInt, formatInt (second s).toInt][k]?
      = some (formatInt ((if k = 0 then first else second) s).toInt) := by
    intro s _ k hk
    rcases Nat.lt_or_ge k 1 with hlt | hge
    · rw [Nat.lt_one_iff.mp hlt]
      rfl
    · rw [Nat.le_antisymm (Nat.le_of_lt_succ hk) hge]
      rfl
  obtain ⟨r, hparse, hlines⟩ := exists_parseLines_rows
    (fun s : SnmpSample => (s.time.format 3).take 19)
    (fun s => [formatInt (first s).toInt, formatInt (second s).toInt])
    (fun k s => formatInt ((if k = 0 then first else second) s).toInt)
    (fun _ _ => rfl) (fun s _ => isToken_snmpTokens s) hvalue hspace
  exact ⟨r, hbody ▸ hparse, fun time title title' => hlines time [title, title'] rfl⟩

/-- The samples of a cycle are two lines over the time, from zero on. -/
theorem snmp_chart (e18 : α → Text) (atof : Text → α) (fl : ℚ → ℚ) (ofRat : ℚ → α)
    {name : Text} (hname : IsChartName name) (subMode : ℕ) (first second : SnmpSample → BitVec 32)
    (samples : List SnmpSample) (hsamples : samples ≠ [])
    (hspace : RowsHaveSpace (samples.map (snmpTokens first second))) :
    ∃ header rows calls, buildHeader [] .snmp 0 (-1) subMode = some header ∧
      joinQueues samples.length (samples.map fun s => (s.time.format 3).take 19)
          (samples.map fun s => formatInt (first s).toInt)
          (samples.map fun s => formatInt (second s).toInt) = some rows ∧
      plotGraphCalls atof fl ofRat .snmp name [header, rows.flatten ++ [CSV_NEWLINE]]
        = some calls ∧
      Draws e18 name calls [⟨labelled "timestamp (sec)".toList (snmpLabel subMode)
          ++ ["set yrange [0:]".toList],
        [curveOf e18 (samplePoints atof samples first) (snmpFirst subMode) "lines".toList,
          curveOf e18 (samplePoints atof samples second) (snmpSecond subMode)
            "lines".toList]⟩] := by
  obtain ⟨header, hbuild, hscan⟩ := exists_header_snmp subMode
  obtain ⟨r, hparse, hcurves⟩ := exists_parseLines_snmp hspace
  have hpoints (value : SnmpSample → BitVec 32) : samplePoints atof samples value ≠ [] :=
    fun hnil => hsamples (List.map_eq_nil_iff.mp hnil)
  have htitles : '\x22' ∉ snmpFirst subMode ∧ '\x22' ∉ snmpSecond subMode := by
    rw [snmpFirst, snmpSecond]
    split <;> decide
  refine ⟨header, _, _, hbuild, joinQueues_samples,
    plotGraphCalls_lines (.inr ⟨rfl, rfl⟩) hscan rfl hparse (hcurves _ _ _), ?_⟩
  refine draws_lines e18 ⟨"timestamp (sec)".toList, snmpLabel subMode, _, _⟩ (fun text htext => ?_)
    hname ?_ (List.cons_ne_nil _ _)
  · rw [List.mem_singleton.mp htext]
    rfl
  · simp only [List.forall_mem_cons]
    exact ⟨⟨hpoints first, htitles.1⟩, ⟨hpoints second, htitles.2⟩,
      fun _ h => absurd h List.not_mem_nil⟩

/-- One sample. -/
theorem snmp_chart_swappedReports : ∃ calls, ∃ (d : Desk Unit) (history : _) (d' : Desk Unit),
    PlotsIn id "memAndCpu".toList calls () d history d' ∧
      d'.images (chart "memAndCpu".toList)
        = [⟨labelled "timestamp (sec)".toList "%".toList ++ ["set yrange [0:]".toList],
            [⟨some "1.000 50\n".toList, "Memory".toList, "lines".toList⟩,
              ⟨some "1.000 51\n".toList, "CPU".toList, "lines".toList⟩]⟩] := by
  have hname : IsChartName "memAndCpu".toList := ⟨by decide, by decide⟩
  let samples : List SnmpSample := [⟨.ofRat 1, 50, 51, 1, 2⟩]
  have hspace : RowsHaveSpace (samples.map (snmpTokens SnmpSample.memory SnmpSample.cpu)) :=
    ⟨by decide, by decide +kernel⟩
  obtain ⟨header, rows, calls, -, -, -, hdraws⟩ := snmp_chart id id id (fun _ => []) hname 0
    SnmpSample.memory SnmpSample.cpu samples (List.cons_ne_nil _ _) hspace
  obtain ⟨d, history, d', hplots⟩ := exists_chart id "memAndCpu".toList calls
  refine ⟨calls, d, history, d', hplots, (hdraws Unit () d history d' hplots).trans ?_⟩
  decide +kernel

end OfcBenchmark
