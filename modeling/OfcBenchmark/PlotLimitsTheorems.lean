import OfcBenchmark.Mysnmp
import OfcBenchmark.ResultsGraphTheorems
import OfcBenchmark.SlaveReports
import OfcBenchmark.ValuesGraphTheorems

/-!
# What has space in the plots

The arrays of `myplot.c` have fixed lengths, and what is put into them depends on the number of
slaves, of tests, of loops and of digits. A graph is plotted without leaving them exactly if the
texts are about what they are taken for, no test has more than 100 loops, no number of a row has
more than 9 characters and no result more than 29; and the results are plotted for one slave only
(`plots_inside_iff`). The labels of three slaves would be too many.
-/

namespace OfcBenchmark
open Printf Table

namespace PlotArrays

/-! ## The labels -/

theorem length_formatInt_pos (z : ℤ) : 0 < (formatInt z).length :=
  List.length_pos_iff.mpr (isToken_formatInt z).ne_nil

/-- What is printed before the last host. -/
theorem ticPieces_concat {a : PlotArrays} {hosts : List Text} (hhosts : ∀ host ∈ hosts, host ≠ [])
    (last : Text) (length : ℕ) :
    ∃ pre post, ticPieces a length (hosts ++ [last]) = pre ++ (a.nameSize, quoted last) :: post ∧
      7 * hosts.length ≤ (pre.flatMap Prod.snd).length := by
  induction hosts generalizing length with
  | nil => exact ⟨[], [_], rfl, Nat.zero_le _⟩
  | cons host hosts ih =>
    obtain ⟨hhost, hhosts⟩ := List.forall_mem_cons.mp hhosts
    obtain ⟨pre, post, hpieces, hle⟩ := ih hhosts (length + 1)
    refine ⟨(a.nameSize, quoted host) :: (a.numberSize, tic (length + 1) false) :: pre, post,
      ?_, ?_⟩
    · have hmore : (hosts ++ [last]).isEmpty = false := by cases hosts <;> rfl
      rw [List.cons_append, ticPieces, hpieces, hmore]
      rfl
    · have hpos := List.length_pos_iff.mpr hhost
      have hdigits := length_formatInt_pos (length + 1 : ℕ)
      rw [List.flatMap_cons, List.flatMap_cons, List.length_append, List.length_append,
        length_quoted, List.length_cons, tic, List.length_append, List.length_cons,
        if_neg Bool.false_ne_true, List.length_cons, List.length_singleton]
      omega

/-- The labels have space in `xtics` exactly if the command is short enough. -/
theorem write_xticPieces_iff {hosts : List Text} (hne : hosts ≠ [])
    (hhosts : ∀ host ∈ hosts, host ≠ [] ∧ host.length ≤ 15) :
    (∃ b, Cursor.empty.write plotArrays.xtics (xticPieces plotArrays hosts) = some b) ↔
      (xticsText (hosts.zipIdx 1)).length < plotArrays.xtics := by
  have hflat := flatMap_xticPieces (a := plotArrays) hne
  constructor
  · rintro ⟨b, hwrite⟩
    obtain ⟨init, last, rfl⟩ : ∃ init last, hosts = init ++ [last] :=
      ⟨_, _, (List.dropLast_append_getLast hne).symm⟩
    have hinit : ∀ host ∈ init, host ≠ [] := fun host h =>
      (hhosts host (List.mem_append_left _ h)).1
    obtain ⟨pre, post, hpieces, hle⟩ := ticPieces_concat (a := plotArrays) hinit last 0
    have hfew : init.length < 50 := by
      rw [xticPieces, hpieces, ← List.cons_append] at hwrite
      have hlt := Cursor.lt_of_write hwrite
      rw [List.flatMap_cons, List.length_append] at hlt
      have hxtics : plotArrays.xtics = 50 := rfl
      omega
    have htold : plotArrays.ToldSo (init ++ [last]) :=
      toldSo_of_lt rfl rfl (fun host h => ((hhosts host h).2).trans (by decide))
        (by rw [List.length_append, List.length_singleton]; omega)
    have hprinted := Cursor.text_of_write (t := []) (fun piece hmem => .inl (htold piece hmem))
      hwrite
    have htext : b.text = xticsText ((init ++ [last]).zipIdx 1) := hprinted.trans hflat
    rw [← htext]
    exact Cursor.length_lt_of_write hwrite (by decide)
  · intro hlt
    exact Cursor.exists_write (by rw [hflat, Cursor.empty, Nat.zero_add]; exact hlt)

/-! ## The text of the results -/

theorem length_csvRow_le {k : ℕ} {tokens : List Text} (hne : tokens ≠ [])
    (h : ∀ token ∈ tokens, token.length ≤ k) :
    (csvRow tokens).length ≤ (k + 1) * tokens.length := by
  have hrest (tokens : List Text) (h : ∀ token ∈ tokens, token.length ≤ k) :
      (tokens.flatMap (',' :: ·)).length ≤ (k + 1) * tokens.length := by
    induction tokens with
    | nil => exact le_rfl
    | cons token tokens ih =>
      obtain ⟨htoken, htokens⟩ := List.forall_mem_cons.mp h
      have hle := ih htokens
      rw [List.flatMap_cons, List.length_append, List.length_cons, List.length_cons, Nat.mul_succ]
      omega
  obtain ⟨token, tokens, rfl⟩ := List.exists_cons_of_ne_nil hne
  obtain ⟨htoken, htokens⟩ := List.forall_mem_cons.mp h
  have hle := hrest tokens htokens
  rw [csvRow, List.length_append, List.length_append, List.length_singleton, List.length_cons,
    Nat.mul_succ]
  omega

/-- A body whose numbers are that short is not long. -/
theorem length_text_le (body : ResultsBody) (hhost : body.host.length ≤ 15)
    (h : ∀ token ∈ body.row, token.length ≤ 29) : body.text.length ≤ 150 := by
  have hrow : body.row.length = 4 := body.length_row
  have hne : body.row ≠ [] := List.ne_nil_of_length_pos (by omega)
  have hle := length_csvRow_le hne h
  rw [hrow] at hle
  rw [ResultsBody.text, List.length_append, List.length_cons]
  omega

/-- Each label takes five characters at least, so there are few of them. -/
theorem length_labels_lt {labels : List (Text × ℕ)} (hne : labels ≠ [])
    (h : (xticsText labels).length < 50) : labels.length < 8 := by
  have hsum := List.card_nsmul_le_sum
    (labels.map fun label => label.1.length + (formatInt label.2).length + 5) 5 fun k hk => by
      obtain ⟨label, -, rfl⟩ := List.mem_map.mp hk
      exact Nat.le_add_left _ _
  rw [length_xticsText hne] at h
  rw [List.length_map, smul_eq_mul] at hsum
  omega

end PlotArrays

/-- The graph of the results, where the header and these bodies have been enqueued in an empty
report. -/
def resultsGraph {α : Type} (atof : Text → α) (header : Text) (bodies : List Text) :
    Option (Graph α) := do
  let r ← enqueueMessages (resultsCalls (header :: bodies)) (emptyReport 0)
  let text ← r.joinResults bodies.length
  plotArrays.plotGraph atof .results [header, text]

theorem resultsGraph_eq_some_iff {α : Type} (atof : Text → α) {header : Text} {bodies : List Text}
    {g : Graph α} :
    resultsGraph atof header bodies = some g ↔ ∃ body joined, bodies = [body] ∧
      strncat (Report.resultsCapacity (toInt 2)) body [CSV_NEWLINE] 2 = some joined ∧
      plotArrays.plotGraph atof .results [header, joined] = some g := by
  have htexts := textsOf_resultsCalls (header :: bodies)
  have hstart : ∀ id, ((emptyReport 0).queues id).first = none ∧
      ((emptyReport 0).queues id).last = none := fun _ => ⟨rfl, rfl⟩
  obtain ⟨r, l, hrun, hqueue, hlength⟩ := exists_isQueue_results hstart
    (freshBlocks_resultsCalls _) (htexts ▸ List.cons_ne_nil header bodies)
  rw [htexts] at hqueue hlength
  rw [resultsGraph, hrun, Option.bind_eq_bind, Option.bind_some, Option.bind_eq_bind,
    Option.bind_eq_some_iff]
  simp only [joinResults_eq_some_iff hqueue]
  constructor
  · rintro ⟨joined, ⟨body, rfl, hjoin⟩, hplot⟩
    rw [hlength] at hjoin
    exact ⟨body, joined, rfl, hjoin, hplot⟩
  · rintro ⟨body, joined, rfl, hjoin, hplot⟩
    exact ⟨joined, ⟨body, rfl, by rw [hlength]; exact hjoin⟩, hplot⟩

section Results

variable {α : Type} (atof : Text → α) {header : Text} {h : GraphHeader}
  (hscan : plotGraphHeader header = some h) (hflows : MAX_VALUES < h.flows.length)
include hscan hflows

/-- A text of bodies is plotted exactly if the labels and the numbers have space. -/
theorem plotGraph_bodies_iff {bodies : List ResultsBody} (hne : bodies ≠ [])
    (hhosts : ∀ body ∈ bodies, body.host.length ≤ 15) :
    (∃ g, plotArrays.plotGraph atof .results
        [header, bodies.flatMap ResultsBody.text ++ [CSV_NEWLINE]] = some g) ↔
      (xticsText ((bodies.map ResultsBody.host).zipIdx 1)).length < 50 ∧
        ∀ body ∈ bodies, ∀ token ∈ body.row, token.length ≤ 29 := by
  have hnames : bodies.map ResultsBody.host ≠ [] := fun hnil => hne (List.map_eq_nil_iff.mp hnil)
  have hshort : ∀ host ∈ bodies.map ResultsBody.host, host ≠ [] ∧ host.length ≤ 15 := by
    intro host hhost
    obtain ⟨body, hbody, rfl⟩ := List.mem_map.mp hhost
    exact ⟨body.isToken_host.ne_nil, hhosts body hbody⟩
  have hname : ∀ body ∈ bodies, body.host.length < plotArrays.nameYaxis := fun body hbody =>
    (hhosts body hbody).trans_lt (by decide)
  have hlabels := PlotArrays.write_xticPieces_iff hnames hshort
  have hxtic := PlotArrays.setXtic_bodies hne hname
  rw [PlotArrays.plotGraph_results hscan _ hflows, hxtic]
  constructor
  · rintro ⟨g, hg⟩
    obtain ⟨x, hx, hg⟩ := Option.bind_eq_some_iff.mp hg
    obtain ⟨b, hwrite, rfl⟩ := Option.map_eq_some_iff.mp hx
    obtain ⟨r, hr, -⟩ := Option.map_eq_some_iff.mp hg
    obtain ⟨⟨hroom, -⟩, -⟩ := (PlotArrays.parseResults_bodies atof rfl).mp hr
    exact ⟨hlabels.mp ⟨b, hwrite⟩, fun body hbody token htoken =>
      Nat.le_of_lt_succ (hroom body hbody token htoken)⟩
  · rintro ⟨hlt, hrow⟩
    obtain ⟨b, hwrite⟩ := hlabels.mpr hlt
    have hfew : bodies.length * NPOINTS_GENERAL ≤ plotArrays.plot := by
      have hlt := PlotArrays.length_labels_lt
        (fun hnil => hnames (List.zipIdx_eq_nil_iff.mp hnil)) hlt
      rw [List.length_zipIdx, List.length_map] at hlt
      rw [show NPOINTS_GENERAL = 100 from rfl, show plotArrays.plot = 10000 from rfl]
      omega
    have hparse := (PlotArrays.parseResults_bodies (a := plotArrays) atof rfl).mpr
      ⟨⟨fun body hbody token htoken => Nat.lt_succ_of_le (hrow body hbody token htoken), hfew⟩,
        rfl⟩
    rw [hwrite, Option.map_some, Option.bind_some, hparse]
    exact ⟨_, rfl⟩

/-- One body is plotted exactly if its numbers have space. -/
theorem resultsGraph_iff (body : ResultsBody) (hhost : body.host.length ≤ 15) :
    (∃ g, resultsGraph atof header [body.text] = some g) ↔
      ∀ token ∈ body.row, token.length ≤ 29 := by
  have hone := plotGraph_bodies_iff atof hscan hflows (List.cons_ne_nil body [])
    (List.forall_mem_singleton.mpr hhost)
  rw [List.flatMap_singleton, List.forall_mem_singleton] at hone
  have hlabel : (xticsText (([body].map ResultsBody.host).zipIdx 1)).length < 50 := by
    have hone : ([body].map ResultsBody.host).zipIdx 1 = [(body.host, 1)] := rfl
    rw [hone, length_xticsText (List.cons_ne_nil _ _)]
    rw [List.map_singleton, List.sum_singleton]
    have hdigit : (formatInt (1 : ℕ)).length = 1 := by decide
    dsimp only
    omega
  constructor
  · rintro ⟨g, hg⟩
    obtain ⟨text, joined, htext, hjoin, hplot⟩ := (resultsGraph_eq_some_iff atof).mp hg
    obtain ⟨rfl, -⟩ := List.cons.inj htext
    rw [eq_of_strncat (by decide) hjoin] at hplot
    exact (hone.mp ⟨g, hplot⟩).2
  · intro hrow
    obtain ⟨g, hplot⟩ := hone.mpr ⟨hlabel, hrow⟩
    have hshort : body.Short :=
      ⟨hhost.trans (by decide), hrow, PlotArrays.length_text_le body hhost hrow⟩
    exact ⟨g, (resultsGraph_eq_some_iff atof).mpr ⟨_, _, rfl, hshort.strncat, hplot⟩⟩

end Results

/-! ## Lines -/

section Lines

variable {α : Type} (atof : Text → α)

/-- Rows have space in `x` and in `numberText`. -/
structure RowsHaveSpace (rows : List (List Text)) : Prop where
  length_le : rows.length ≤ MAX_LENG
  token_le : ∀ row ∈ rows, ∀ token ∈ row, token.length ≤ 9

/-- Rows with a number for each flow, as they are read. -/
theorem parseLines_rows {flows : ℕ} {rows : List (List Text)}
    (hrows : ∀ row ∈ rows, row ≠ [] ∧ ∀ token ∈ row, IsToken token)
    (hflows : ∀ row ∈ rows, row.length ≤ flows) (hspace : RowsHaveSpace rows) :
    plotArrays.parseLines atof flows (rows.flatMap csvRow ++ [CSV_NEWLINE])
      = some ⟨stores 0 (rows.map (List.map atof)), (rows.map (List.map atof)).length,
          [CSV_NEWLINE]⟩ := by
  have hfit : ∀ row ∈ rows, row.length ≤ flows ∧ ∀ token ∈ row,
      token.length < plotArrays.numberText := fun row hrow =>
    ⟨hflows row hrow, fun token htoken =>
      Nat.lt_succ_of_le (hspace.token_le row hrow token htoken)⟩
  refine (PlotArrays.parseLinesFrom_rows atof hrows (Nat.zero_le plotArrays.x)).mpr
    ⟨⟨hfit, (Nat.zero_add _).trans_le hspace.length_le⟩, ?_⟩
  rw [List.length_map, Nat.zero_add]

/-- They are parsed exactly if they have space. -/
theorem parseLines_iff {flows : ℕ} {rows : List (List Text)}
    (hrows : ∀ row ∈ rows, row ≠ [] ∧ ∀ token ∈ row, IsToken token)
    (hflows : ∀ row ∈ rows, row.length ≤ flows) :
    (∃ r, plotArrays.parseLines atof flows (rows.flatMap csvRow ++ [CSV_NEWLINE]) = some r) ↔
      RowsHaveSpace rows := by
  constructor
  · rintro ⟨r, hr⟩
    obtain ⟨⟨hfit, hle⟩, -⟩ :=
      (PlotArrays.parseLinesFrom_rows atof hrows (Nat.zero_le plotArrays.x)).mp hr
    rw [Nat.zero_add] at hle
    exact ⟨hle, fun row hrow token htoken => Nat.le_of_lt_succ ((hfit row hrow).2 token htoken)⟩
  · exact fun hspace => ⟨_, parseLines_rows atof hrows hflows hspace⟩

/-- A loop that has a result has one for each of its items. -/
theorem exists_mapM_iff {β : Type} {f : Text → Option β} {texts : List Text} :
    (∃ r, texts.mapM f = some r) ↔ ∀ text ∈ texts, ∃ r, f text = some r := by
  induction texts with
  | nil => exact iff_of_true ⟨[], rfl⟩ fun _ h => absurd h List.not_mem_nil
  | cons text texts ih =>
    rw [List.forall_mem_cons, ← ih]
    simp only [List.mapM_cons, Option.bind_eq_bind, Option.bind_eq_some_iff]
    constructor
    · rintro ⟨_, r, hr, rs, hrs, -⟩
      exact ⟨⟨r, hr⟩, rs, hrs⟩
    · rintro ⟨⟨r, hr⟩, rs, hrs⟩
      exact ⟨_, r, hr, rs, hrs, rfl⟩

variable {header : Text} {h : GraphHeader} (hscan : plotGraphHeader header = some h)
include hscan

theorem plotGraph_lines_iff {type : QueueId} (htype : type = .values ∨ type = .snmp)
    (body : Text) (others : List Text) (hnull : h.nullTerminated = true) :
    (∃ g, plotArrays.plotGraph atof type (header :: body :: others) = some g) ↔
      ∃ r, plotArrays.parseLines atof h.flows.length body = some r := by
  simp only [PlotArrays.plotGraph_lines hscan htype body others hnull, Option.map_eq_some_iff]
  exact ⟨fun ⟨_, r, hr, _⟩ => ⟨r, hr⟩, fun ⟨r, hr⟩ => ⟨_, r, hr, rfl⟩⟩

theorem plotGraph_avgs_iff {bodies : List Text} (hne : bodies ≠ []) :
    (∃ g, plotArrays.plotGraph atof .avgs (header :: bodies) = some g) ↔
      bodies.length < h.flows.length ∧
        ∀ body ∈ bodies, ∃ r, plotArrays.parseLines atof 2 body = some r := by
  rw [PlotArrays.plotGraph_avgs hscan hne, ← exists_mapM_iff]
  split
  case isTrue hlt =>
    simp only [Option.map_eq_some_iff, hlt, true_and]
    exact ⟨fun ⟨_, rs, hrs, _⟩ => ⟨rs, hrs⟩, fun ⟨rs, hrs⟩ => ⟨_, rs, hrs, rfl⟩⟩
  case isFalse hge => exact iff_of_false nofun fun hlt => hge hlt.1

end Lines

/-! ## Reports -/

/-- The samples of one polling cycle. -/
structure SnmpSample where
  time : Double
  memory : BitVec 32
  cpu : BitVec 32
  bytesIn : BitVec 32
  bytesOut : BitVec 32

section Reports

variable (fl : ℚ → ℚ)

/-- What the master plots: the addresses of the slaves in the order in which they have connected,
their reports, the bodies of AVGS and of RESULTS in the order in which they came, and the samples.
The mode is that of the report that came first. -/
structure Reports where
  mode : TestMode
  connected : List Address
  slaves : List SlaveReport
  avgs : List Text
  results : List Text
  samples : List SnmpSample
  slaves_ne : slaves ≠ []
  samples_ne : samples ≠ []
  length_connected : connected.length = slaves.length
  built : ∀ s ∈ slaves, s.Built fl
  avgs_perm : avgs.Perm (slaves.flatMap fun s => s.read fl connected.length .avgs)
  results_perm : results.Perm (slaves.flatMap fun s =>
    (s.bodies fl connected.length).map fun body => body.getD [])

/-- The tokens of a row of AVGS. -/
def avgsTokens (d : LoopData) : List Text := [(d.ms fl).format 3, (d.rate fl).format 2]

/-- The tokens of a row of RESULTS. -/
def resultsTokens (mode : TestMode) (r : TestResults) : List Text :=
  match mode with
  | .latency => [r.min, r.max, r.avg, r.std_dev].map fun x => (msPerResponse fl x).format 2
  | .throughput => [r.min, r.max, r.avg, r.std_dev].map (Double.format 2)

/-- The tokens of a row of an SNMP graph; the time stamp has space for 19 characters. -/
def snmpTokens (first second : SnmpSample → BitVec 32) (s : SnmpSample) : List Text :=
  [(s.time.format 3).take 19, formatInt (first s).toInt, formatInt (second s).toInt]

/-- An SNMP graph of `plotDistributed`. -/
def snmpGraph {α : Type} (atof : Text → α) (subMode : ℕ) (first second : SnmpSample → BitVec 32)
    (samples : List SnmpSample) : Option (Graph α) := do
  let header ← buildHeader [] .snmp 0 (-1) subMode
  let rows ← joinQueues samples.length (samples.map fun s => (s.time.format 3).take 19)
    (samples.map fun s => formatInt (first s).toInt)
    (samples.map fun s => formatInt (second s).toInt)
  plotArrays.plotGraph atof .snmp [header, rows.flatten ++ [CSV_NEWLINE]]

variable {fl}

/-- The host names in the order of the connections. -/
def Reports.hostnames (p : Reports fl) : List Text := p.connected.map hostname

/-- All of this can be read, and no index of a parser leaves its array when it is plotted. -/
structure Reports.Inside {α : Type} (atof : Text → α) (p : Reports fl) : Prop where
  read : ∀ s ∈ p.slaves, (s.blocks fl p.connected.length).isSome = true
  bodies : ∀ s ∈ p.slaves, ∀ body ∈ s.bodies fl p.connected.length, body.isSome = true
  values : ∀ s ∈ p.slaves, ∃ header g,
    buildHeader p.hostnames .values s.params.nSwitches.toNat
      (if s.params.mode = .latency then 0 else 1) 0 = some header ∧
    plotArrays.plotGraph atof .values (header :: s.read fl p.connected.length .values) = some g
  avgs : ∃ header g,
    buildHeader p.hostnames .avgs p.connected.length (if p.mode = .latency then 0 else 1) 0
      = some header ∧
    plotArrays.plotGraph atof .avgs (header :: p.avgs) = some g
  results : ∃ header g,
    buildHeader p.hostnames .results 4 (if p.mode = .latency then 0 else 1) 0 = some header ∧
    resultsGraph atof header p.results = some g
  memAndCpu : ∃ g, snmpGraph atof 0 SnmpSample.memory SnmpSample.cpu p.samples = some g
  bandwith : ∃ g, snmpGraph atof 1 SnmpSample.bytesIn SnmpSample.bytesOut p.samples = some g

/-- There are not too many rows and no numbers that are too long; the averages are of reports
about one test, and the results are those of one slave. -/
structure Reports.HaveSpace (p : Reports fl) : Prop where
  values : ∀ s ∈ p.slaves, ∀ i ∈ (testedSwitches s.params).head?,
    RowsHaveSpace ((s.tests i).loops.map (valuesTokens fl))
  avgs : ∀ s ∈ p.slaves, s.OneTest ∧
    ∀ i ∈ testedSwitches s.params, RowsHaveSpace ((s.tests i).loops.map (avgsTokens fl))
  results : ∃ s, p.slaves = [s] ∧ s.OneTest ∧ ∀ i ∈ testedSwitches s.params,
    ∀ token ∈ resultsTokens fl s.params.mode (s.tests i).results, token.length ≤ 29
  memAndCpu : RowsHaveSpace (p.samples.map (snmpTokens SnmpSample.memory SnmpSample.cpu))
  bandwith : RowsHaveSpace (p.samples.map (snmpTokens SnmpSample.bytesIn SnmpSample.bytesOut))

/-! ## What is plotted -/

theorem csvRow_avgsTokens (fl : ℚ → ℚ) (d : LoopData) :
    csvRow (avgsTokens fl d) = avgsNumbers fl d ++ [CSV_NEWLINE] := by
  simp [avgsTokens, csvRow, avgsNumbers]

/-- The body of the results of a test. -/
def TestReport.resultsBody (fl : ℚ → ℚ) (mode : TestMode) (x : Address) (t : TestReport) :
    ResultsBody where
  host := hostname x
  row := resultsTokens fl mode t.results
  isToken_host := isToken_hostname x
  isToken_row := fun token htoken => by
    unfold resultsTokens at htoken
    split at htoken <;> obtain ⟨x, -, rfl⟩ := List.mem_map.mp htoken <;> exact isToken_format 2 _
  length_row := by cases mode <;> rfl

theorem TestReport.text_resultsBody (mode : TestMode) (x : Address) (t : TestReport) :
    (t.resultsBody fl mode x).text = hostname x ++ ',' :: t.text fl mode .results := by
  cases mode <;>
    simp [ResultsBody.text, TestReport.resultsBody, resultsTokens, csvRow, TestReport.text,
      resultsRow, resultText]

/-- `buildGraph` writes a body into 150 bytes for each slave. -/
theorem graphBody_results (x : Address) (quantity : ℕ) (text : Text) :
    graphBody [hostname x] 0 .results quantity text
      = if (hostname x).length + text.length < 150 * quantity then
          some (hostname x ++ ',' :: text) else none := by
  have hhost := length_hostname x
  have hlength : (hostname x ++ ',' :: text).length = (hostname x).length + text.length + 1 := by
    rw [List.length_append, List.length_cons]
    omega
  have htold : (hostname x ++ ',' :: text).take (text.length + 20 + 1 - 1)
      = hostname x ++ ',' :: text := List.take_of_length_le (by omega)
  have hcapacity : (150 * (quantity : ℤ)).toNat + 1 = 150 * quantity + 1 := by omega
  rw [graphBody, List.getElem?_cons_zero, Option.bind_eq_bind, Option.bind_some,
    Option.bind_eq_bind, hcapacity, Cursor.snprintf, htold, hlength]
  simp only [Cursor.empty, Nat.zero_add, Nat.add_lt_add_iff_right]
  split <;> rfl

/-- Results with short numbers are short. -/
theorem TestReport.length_text_results (mode : TestMode) (t : TestReport)
    (h : ∀ token ∈ resultsTokens fl mode t.results, token.length ≤ 29) :
    (t.text fl mode .results).length ≤ 120 := by
  have hrow : t.text fl mode .results = csvRow (resultsTokens fl mode t.results) := by
    cases mode <;> simp [resultsTokens, csvRow, TestReport.text, resultsRow, resultText]
  have hlength : (resultsTokens fl mode t.results).length = 4 := by cases mode <;> rfl
  have hle := PlotArrays.length_csvRow_le (List.ne_nil_of_length_pos (by omega)) h
  rw [hlength] at hle
  exact hrow ▸ hle

namespace SlaveReport

variable {s : SlaveReport} (hone : s.OneTest) (hbuilt : s.Built fl)
include hone hbuilt

/-- The body of a slave with one test, if there was space for it. -/
theorem bodies_of_isSome (hread : (s.blocks fl 1).isSome = true)
    (h : ∀ body ∈ s.bodies fl 1, body.isSome = true) :
    s.bodies fl 1 = [some (s.lastTest.resultsBody fl s.params.mode s.address).text] := by
  have hl := loopsPerTest_le_of_blocks hbuilt hread
  by_cases hlong : 150 ≤ (s.lastTest.text fl s.params.mode .results).length
  · -- 149 characters are read, too many with a host name
    have hhost := List.length_pos_iff.mpr (isToken_hostname s.address).ne_nil
    rw [bodies, read_results_of_long hone hbuilt hl hlong, List.map_singleton,
      List.forall_mem_singleton, graphBody_results, List.length_take, if_neg (by omega)] at h
    cases h
  · obtain ⟨bytesRead, hresults⟩ := exists_readSocketLimiter_results s.lastTest s.params.mode
      le_rfl (Nat.le_of_lt_succ (Nat.lt_of_not_le hlong))
    rw [bodies, read_results hone hbuilt hl hresults, List.map_singleton,
      List.forall_mem_singleton, graphBody_results] at h
    rw [bodies, read_results hone hbuilt hl hresults, List.map_singleton, graphBody_results,
      TestReport.text_resultsBody]
    split at h
    case isTrue hlt => rw [if_pos hlt]
    case isFalse => cases h

/-- There is space for short results. -/
theorem bodies_of_short (hl : s.params.loopsPerTest.toNat ≤ 9999) {quantity : ℕ}
    (hquantity : 1 ≤ quantity)
    (hshort : ∀ token ∈ resultsTokens fl s.params.mode s.lastTest.results, token.length ≤ 29) :
    (s.blocks fl quantity).isSome = true ∧
      s.bodies fl quantity
        = [some (s.lastTest.resultsBody fl s.params.mode s.address).text] := by
  have hlength := s.lastTest.length_text_results s.params.mode hshort
  have hhost := length_hostname s.address
  obtain ⟨bytesRead, hresults⟩ := exists_readSocketLimiter_results s.lastTest s.params.mode
    hquantity (hlength.trans (by decide))
  refine ⟨by rw [blocks_of_oneTest hone hbuilt hl, hresults]; rfl, ?_⟩
  rw [bodies, read_results hone hbuilt hl hresults, List.map_singleton, graphBody_results,
    if_pos (by dsimp only; omega), TestReport.text_resultsBody]

end SlaveReport

/-- Rows that have space are not too many to be announced. -/
theorem SlaveReport.loopsPerTest_le_of_space {s : SlaveReport} {tokens : LoopData → List Text}
    (h : RowsHaveSpace (s.lastTest.loops.map tokens)) : s.params.loopsPerTest.toNat ≤ 9999 := by
  have hle := h.length_le
  have hlength := s.length_loops _ s.last_mem_testedSwitches
  rw [List.length_map] at hle
  calc s.params.loopsPerTest.toNat = s.lastTest.loops.length := hlength.symm
    _ ≤ MAX_LENG := hle
    _ ≤ 9999 := by decide

section Samples

variable {first second : SnmpSample → BitVec 32} {samples : List SnmpSample}

theorem isToken_snmpTokens (s : SnmpSample) :
    ∀ token ∈ snmpTokens first second s, IsToken token := by
  simp only [snmpTokens, List.forall_mem_cons]
  exact ⟨(isToken_format 3 _).take (by decide), isToken_formatInt _,
    isToken_formatInt _, fun _ h => absurd h List.not_mem_nil⟩

/-- An `int` has at most 11 characters. -/
theorem length_formatInt_toInt (x : BitVec 32) : (formatInt x.toInt).length ≤ 11 := by
  have hlow := x.le_toInt
  have hhigh := x.toInt_lt
  exact (length_formatInt_le_iff x.toInt (by decide : 0 < 10)).mpr ⟨by omega, by omega⟩

/-- No row is cut. -/
theorem joinQueues_samples :
    joinQueues samples.length (samples.map fun s => (s.time.format 3).take 19)
        (samples.map fun s => formatInt (first s).toInt)
        (samples.map fun s => formatInt (second s).toInt)
      = some (samples.map fun s => csvRow (snmpTokens first second s)) := by
  induction samples with
  | nil => rfl
  | cons s samples ih =>
    have hrow : ((s.time.format 3).take 19 ++ ',' :: formatInt (first s).toInt
        ++ ',' :: formatInt (second s).toInt ++ [CSV_NEWLINE]).take 149
          = csvRow (snmpTokens first second s) := by
      have htime : ((s.time.format 3).take 19).length ≤ 19 := List.length_take_le _ _
      have hfirst := length_formatInt_toInt (first s)
      have hsecond := length_formatInt_toInt (second s)
      rw [List.take_of_length_le]
      · simp [snmpTokens, csvRow]
      · simp only [List.length_append, List.length_cons, List.length_nil]
        omega
    simp only [List.length_cons, List.map_cons, joinQueues, ih, hrow, Option.map_some]

theorem snmpGraph_iff {α : Type} {atof : Text → α} {subMode : ℕ} :
    (∃ g, snmpGraph atof subMode first second samples = some g) ↔
      RowsHaveSpace (samples.map (snmpTokens first second)) := by
  obtain ⟨header, hbuild, hscan⟩ := exists_header_snmp subMode
  have hrows : ∀ row ∈ samples.map (snmpTokens first second),
      row ≠ [] ∧ ∀ token ∈ row, IsToken token := by
    intro row hrow
    obtain ⟨s, -, rfl⟩ := List.mem_map.mp hrow
    exact ⟨List.cons_ne_nil _ _, isToken_snmpTokens s⟩
  have hflows : ∀ row ∈ samples.map (snmpTokens first second), row.length ≤ 3 := by
    intro row hrow
    obtain ⟨s, -, rfl⟩ := List.mem_map.mp hrow
    exact le_rfl
  have hbody : (samples.map fun s => csvRow (snmpTokens first second s)).flatten
      = (samples.map (snmpTokens first second)).flatMap csvRow := by
    rw [List.flatMap_map]
    rfl
  rw [snmpGraph, hbuild, Option.bind_eq_bind, Option.bind_some, joinQueues_samples,
    Option.bind_eq_bind, Option.bind_some, hbody,
    plotGraph_lines_iff atof hscan (.inr rfl) _ [] rfl]
  exact parseLines_iff atof hrows hflows

end Samples

variable {α : Type} {atof : Text → α}

theorem isToken_avgsTokens (fl : ℚ → ℚ) (d : LoopData) :
    ∀ token ∈ avgsTokens fl d, IsToken token := by
  simp only [avgsTokens, List.forall_mem_cons]
  exact ⟨isToken_format 3 _, isToken_format 2 _, fun _ h => absurd h List.not_mem_nil⟩

/-- A block is parsed exactly if its rows have space. -/
theorem parseLines_block_iff (atof : Text → α) {numbers : LoopData → Text}
    {tokens : LoopData → List Text} (loops : List LoopData) (flows : ℕ)
    (hrow : ∀ d, csvRow (tokens d) = numbers d ++ [CSV_NEWLINE])
    (htoken : ∀ d, ∀ token ∈ tokens d, IsToken token) (hpos : 0 < flows)
    (hlength : ∀ d ∈ loops, (tokens d).length = flows) :
    (∃ r, plotArrays.parseLines atof flows (rowsBlock numbers loops) = some r) ↔
      RowsHaveSpace (loops.map tokens) := by
  rw [rowsBlock_eq hrow]
  refine parseLines_iff atof (fun row hmem => ?_) fun row hmem => ?_
  · obtain ⟨d, hd, rfl⟩ := List.mem_map.mp hmem
    exact ⟨List.ne_nil_of_length_pos ((hlength d hd).symm ▸ hpos), htoken d⟩
  · obtain ⟨d, hd, rfl⟩ := List.mem_map.mp hmem
    exact (hlength d hd).le

/-- The graph of the values of a slave is that of its first test. -/
theorem SlaveReport.values_iff {s : SlaveReport} (hbuilt : s.Built fl) {quantity : ℕ}
    (h : (s.blocks fl quantity).isSome = true) (hostnames : List Text) (mode : ℤ) :
    (∃ header g, buildHeader hostnames .values s.params.nSwitches.toNat mode 0 = some header ∧
        plotArrays.plotGraph atof .values (header :: s.read fl quantity .values) = some g) ↔
      ∀ i ∈ (testedSwitches s.params).head?,
        RowsHaveSpace ((s.tests i).loops.map (valuesTokens fl)) := by
  have hle := hbuilt.nSwitches_le
  have hbuild := buildHeader_values hostnames s.one_le_nSwitches (by omega) mode 0
  have hscan := plotGraphHeader_avgsHeader
    (isFlowName_of_mem_switchNames (n := s.params.nSwitches.toNat) (by omega))
    (List.ne_nil_of_length_pos (by rw [length_switchNames]; exact s.one_le_nSwitches))
  obtain ⟨i, rest, htests⟩ := s.exists_testedSwitches
  obtain ⟨others, hread⟩ := SlaveReport.exists_read_values hbuilt h htests
  have hi : i ∈ testedSwitches s.params := htests ▸ List.mem_cons_self
  -- there are not more counts in a row than switches
  have hflows : ∀ row ∈ (s.tests i).loops.map (valuesTokens fl),
      row.length ≤ ("time".toList :: switchNames s.params.nSwitches.toNat).length := by
    intro row hrow
    obtain ⟨d, hd, rfl⟩ := List.mem_map.mp hrow
    have hlt := s.lt_of_mem_testedSwitches hi
    rw [valuesTokens, List.length_cons, List.length_map, (s.tests i).length_counts d hd,
      s.nSwitches_tests i hi, List.length_cons, length_switchNames]
    omega
  have hrows : ∀ row ∈ (s.tests i).loops.map (valuesTokens fl),
      row ≠ [] ∧ ∀ token ∈ row, IsToken token := by
    intro row hrow
    obtain ⟨d, -, rfl⟩ := List.mem_map.mp hrow
    exact ⟨List.cons_ne_nil _ _, isToken_valuesTokens fl d⟩
  have hlines := parseLines_iff atof hrows hflows
  have htext : (s.tests i).text fl s.params.mode .values = _ :=
    rowsBlock_eq (csvRow_valuesTokens fl) (s.tests i).loops
  rw [htext] at hread
  have hgraph := plotGraph_lines_iff atof hscan (.inl rfl)
    (((s.tests i).loops.map (valuesTokens fl)).flatMap csvRow ++ [CSV_NEWLINE]) others rfl
  rw [hlines] at hgraph
  rw [htests, List.head?_cons, hread]
  simp only [Option.mem_some_iff, forall_eq', ← hgraph]
  constructor
  · rintro ⟨header, g, hheader, hg⟩
    rw [hbuild] at hheader
    cases hheader
    exact ⟨g, hg⟩
  · rintro ⟨g, hg⟩
    exact ⟨_, g, hbuild, hg⟩

/-- With as many tests as slaves, each slave has one. -/
theorem SlaveReport.oneTest_of_sum_le {slaves : List SlaveReport}
    (h : (slaves.map fun s => (testedSwitches s.params).length).sum ≤ slaves.length) :
    ∀ s ∈ slaves, s.OneTest := by
  have hpos (s : SlaveReport) : 1 ≤ (testedSwitches s.params).length := by
    obtain ⟨i, rest, htests⟩ := s.exists_testedSwitches
    rw [htests, List.length_cons]
    omega
  induction slaves with
  | nil => exact fun _ hs => absurd hs List.not_mem_nil
  | cons s slaves ih =>
    have hmore := List.length_le_sum_of_one_le
      (slaves.map fun s => (testedSwitches s.params).length) fun k hk => by
        obtain ⟨s', -, rfl⟩ := List.mem_map.mp hk
        exact hpos s'
    have hs := hpos s
    rw [List.length_map] at hmore
    rw [List.map_cons, List.sum_cons, List.length_cons] at h
    exact List.forall_mem_cons.mpr
      ⟨SlaveReport.oneTest_iff.mpr (by omega), ih (by omega)⟩

namespace Reports

variable {p : Reports fl} (hread : ∀ s ∈ p.slaves, (s.blocks fl p.connected.length).isSome = true)

theorem one_le_connected (p : Reports fl) : 1 ≤ p.connected.length :=
  p.length_connected ▸ List.length_pos_iff.mpr p.slaves_ne

include hread in
/-- For each test of each slave there is a text. -/
theorem length_flatMap_read {id : QueueId} (hid : id ∈ sentQueues) :
    (p.slaves.flatMap fun s => s.read fl p.connected.length id).length
      = (p.slaves.map fun s => (testedSwitches s.params).length).sum := by
  rw [List.length_flatMap]
  exact congrArg List.sum (List.map_congr_left fun s hs =>
    SlaveReport.length_read (p.built s hs) (hread s hs) hid)

include hread in
theorem read_avgs {s : SlaveReport} (hs : s ∈ p.slaves) (hone : s.OneTest) :
    s.read fl p.connected.length .avgs = [s.lastTest.text fl s.params.mode .avgs] :=
  SlaveReport.read_of_blocks hone (p.built s hs) (hread s hs) (.inr rfl)

include hread in
/-- The graph of the averages of all slaves. -/
theorem avgs_iff (mode : ℤ) :
    (∃ header g, buildHeader p.hostnames .avgs p.connected.length mode 0 = some header ∧
        plotArrays.plotGraph atof .avgs (header :: p.avgs) = some g) ↔
      ∀ s ∈ p.slaves, s.OneTest ∧
        ∀ i ∈ testedSwitches s.params, RowsHaveSpace ((s.tests i).loops.map (avgsTokens fl)) := by
  have hnames : ∀ name ∈ p.hostnames, IsName name := fun name hname => by
    obtain ⟨x, -, rfl⟩ := List.mem_map.mp hname
    exact isName_hostname x
  have hlength : p.hostnames.length = p.slaves.length := by
    rw [Reports.hostnames, List.length_map, p.length_connected]
  have hne : p.hostnames ≠ [] := List.ne_nil_of_length_pos
    (hlength.symm ▸ List.length_pos_iff.mpr p.slaves_ne)
  have hbuild := buildHeader_avgs hnames hne mode 0
  rw [hlength, ← p.length_connected] at hbuild
  have hscan := plotGraphHeader_avgsHeader (fun name hname => (hnames name hname).isFlowName) hne
  have hcount : p.avgs.length = (p.slaves.map fun s => (testedSwitches s.params).length).sum := by
    rw [p.avgs_perm.length_eq, length_flatMap_read hread (by decide)]
  have hlines (t : TestReport) := parseLines_block_iff atof t.loops 2
    (csvRow_avgsTokens fl) (isToken_avgsTokens fl) Nat.two_pos fun _ _ => rfl
  have hmem (text : Text) : text ∈ p.avgs ↔
      ∃ s ∈ p.slaves, text ∈ s.read fl p.connected.length .avgs := by
    rw [p.avgs_perm.mem_iff, List.mem_flatMap]
  have hsome : p.avgs ≠ [] := by
    have hpos := List.length_pos_iff.mpr p.slaves_ne
    have hle := List.length_le_sum_of_one_le
      (p.slaves.map fun s => (testedSwitches s.params).length) fun k hk => by
        obtain ⟨s, -, rfl⟩ := List.mem_map.mp hk
        obtain ⟨i, rest, htests⟩ := s.exists_testedSwitches
        rw [htests, List.length_cons]
        omega
    rw [List.length_map] at hle
    exact List.ne_nil_of_length_pos (by omega)
  have hgraph := plotGraph_avgs_iff atof hscan hsome
  constructor
  · rintro ⟨header, g, hheader, hg⟩
    rw [hbuild] at hheader
    cases hheader
    obtain ⟨hfew, hparse⟩ := hgraph.mp ⟨g, hg⟩
    rw [hcount, List.length_cons, hlength] at hfew
    intro s hs
    have hone := SlaveReport.oneTest_of_sum_le (Nat.le_of_lt_succ hfew) s hs
    have htext : s.lastTest.text fl s.params.mode .avgs ∈ s.read fl p.connected.length .avgs := by
      rw [read_avgs hread hs hone]
      exact List.mem_singleton_self _
    refine ⟨hone, ?_⟩
    rw [SlaveReport.testedSwitches_of_oneTest hone, List.forall_mem_singleton]
    exact (hlines s.lastTest).mp (hparse _ ((hmem _).mpr ⟨s, hs, htext⟩))
  · intro h
    have hfew : p.avgs.length = p.slaves.length := by
      rw [hcount, List.map_congr_left fun s hs => SlaveReport.oneTest_iff.mp (h s hs).1]
      simp
    obtain ⟨g, hg⟩ := hgraph.mpr ⟨by rw [hfew, List.length_cons, hlength]; omega, by
      intro text htext
      obtain ⟨s, hs, htext⟩ := (hmem text).mp htext
      obtain ⟨hone, hspace⟩ := h s hs
      rw [read_avgs hread hs hone, List.mem_singleton] at htext
      rw [htext]
      exact (hlines s.lastTest).mpr (hspace _ s.last_mem_testedSwitches)⟩
    exact ⟨_, g, hbuild, hg⟩

include hread in
/-- The graph of the results of all slaves. -/
theorem results_iff
    (hbodies : ∀ s ∈ p.slaves, ∀ body ∈ s.bodies fl p.connected.length, body.isSome = true) :
    (∃ header g, buildHeader p.hostnames .results 4 (if p.mode = .latency then 0 else 1) 0
          = some header ∧ resultsGraph atof header p.results = some g) ↔
      ∃ s, p.slaves = [s] ∧ s.OneTest ∧ ∀ i ∈ testedSwitches s.params,
        ∀ token ∈ resultsTokens fl s.params.mode (s.tests i).results, token.length ≤ 29 := by
  obtain ⟨header, hbuild, hscan⟩ := exists_header_results p.hostnames p.mode
  have hflows : MAX_VALUES < 5 := by decide
  -- the body of one slave with one test
  have hbody {s : SlaveReport} (hslaves : p.slaves = [s]) (hone : s.OneTest) :
      p.results = [(s.lastTest.resultsBody fl s.params.mode s.address).text] := by
    have hs : s ∈ p.slaves := hslaves ▸ List.mem_singleton_self s
    have hquantity : p.connected.length = 1 := by
      rw [p.length_connected, hslaves]
      rfl
    have hread' := hread s hs
    have hbodies' := hbodies s hs
    have hperm := p.results_perm
    rw [hquantity] at hread' hbodies'
    rw [hslaves, hquantity, List.flatMap_singleton,
      SlaveReport.bodies_of_isSome hone (p.built s hs) hread' hbodies', List.map_singleton,
      List.perm_singleton] at hperm
    exact hperm
  have hplot (s : SlaveReport) := resultsGraph_iff atof hscan hflows
    (s.lastTest.resultsBody fl s.params.mode s.address) (length_hostname s.address)
  constructor
  · rintro ⟨header', g, hheader, hg⟩
    rw [hbuild] at hheader
    cases hheader
    obtain ⟨text, -, hresults, -, -⟩ := (resultsGraph_eq_some_iff atof).mp hg
    -- there is a body for each test of each slave
    have hcount := p.results_perm.length_eq
    rw [hresults, List.length_singleton, List.length_flatMap] at hcount
    simp only [List.length_map, SlaveReport.bodies] at hcount
    rw [← List.length_flatMap, length_flatMap_read hread (by decide)] at hcount
    have hpos := List.length_pos_iff.mpr p.slaves_ne
    have hone := SlaveReport.oneTest_of_sum_le (hcount.symm.trans_le hpos)
    rw [List.map_congr_left fun s hs => SlaveReport.oneTest_iff.mp (hone s hs)] at hcount
    obtain ⟨s, hslaves⟩ : ∃ s, p.slaves = [s] :=
      List.length_eq_one_iff.mp (by simpa using hcount.symm)
    have hs : s.OneTest := hone s (hslaves ▸ List.mem_singleton_self s)
    rw [hbody hslaves hs] at hg
    refine ⟨s, hslaves, hs, ?_⟩
    rw [SlaveReport.testedSwitches_of_oneTest hs, List.forall_mem_singleton]
    exact (hplot s).mp ⟨g, hg⟩
  · rintro ⟨s, hslaves, hone, hshort⟩
    obtain ⟨g, hg⟩ := (hplot s).mpr (hshort _ s.last_mem_testedSwitches)
    exact ⟨header, g, hbuild, hbody hslaves hone ▸ hg⟩

/-- The graphs of the values of all slaves. -/
theorem values_iff (hread : ∀ s ∈ p.slaves, (s.blocks fl p.connected.length).isSome = true) :
    (∀ s ∈ p.slaves, ∃ header g,
      buildHeader p.hostnames .values s.params.nSwitches.toNat
        (if s.params.mode = .latency then 0 else 1) 0 = some header ∧
      plotArrays.plotGraph atof .values (header :: s.read fl p.connected.length .values)
        = some g) ↔
      ∀ s ∈ p.slaves, ∀ i ∈ (testedSwitches s.params).head?,
        RowsHaveSpace ((s.tests i).loops.map (valuesTokens fl)) := by
  exact forall₂_congr fun s hs =>
    SlaveReport.values_iff (p.built s hs) (hread s hs) p.hostnames _

end Reports

end Reports

/-- Whatever the slaves report, in whatever order it comes, and whatever the samples are: no index
leaves its array exactly if all of it has space. -/
theorem plots_inside_iff {α : Type} (atof : Text → α) {fl : ℚ → ℚ} (p : Reports fl) :
    p.Inside atof ↔ p.HaveSpace := by
  constructor
  · intro h
    exact ⟨(Reports.values_iff h.read).mp h.values, (Reports.avgs_iff h.read _).mp h.avgs,
      (Reports.results_iff h.read h.bodies).mp h.results, snmpGraph_iff.mp h.memAndCpu,
      snmpGraph_iff.mp h.bandwith⟩
  · intro h
    have hslave : ∀ s ∈ p.slaves, (s.blocks fl p.connected.length).isSome = true ∧
        ∀ body ∈ s.bodies fl p.connected.length, body.isSome = true := by
      obtain ⟨s, hslaves, hone, hshort⟩ := h.results
      rw [hslaves, List.forall_mem_singleton]
      have hs : s ∈ p.slaves := hslaves ▸ List.mem_singleton_self s
      have hlast := s.last_mem_testedSwitches
      have hl := SlaveReport.loopsPerTest_le_of_space ((h.avgs s hs).2 _ hlast)
      obtain ⟨hread, hbodies⟩ := SlaveReport.bodies_of_short hone (p.built s hs) hl
        p.one_le_connected (hshort _ hlast)
      exact ⟨hread, hbodies ▸ List.forall_mem_singleton.mpr rfl⟩
    have hread := fun s hs => (hslave s hs).1
    have hbodies := fun s hs => (hslave s hs).2
    exact ⟨hread, hbodies, (Reports.values_iff hread).mpr h.values,
      (Reports.avgs_iff hread _).mpr h.avgs, (Reports.results_iff hread hbodies).mpr h.results,
      snmpGraph_iff.mpr h.memAndCpu, snmpGraph_iff.mpr h.bandwith⟩

/-- A test of so many loops in which nothing was counted. -/
def idleReport (nSwitches loops : ℕ) (h : 1 ≤ loops) : TestReport where
  nSwitches := nSwitches
  loops := List.replicate loops (evenLoop nSwitches 0)
  results := evenResults 0
  loops_ne := List.ne_nil_of_length_pos (by rw [List.length_replicate]; exact h)
  length_counts := fun d hd => by
    rw [List.eq_of_mem_replicate hd]
    exact List.length_replicate

/-- A slave with such tests. -/
def idleSlave (x : Address) (p : ReportParams) (hn : 1 ≤ p.nSwitches.toNat)
    (hl : 1 ≤ p.loopsPerTest.toNat) : SlaveReport where
  address := x
  params := p
  tests := fun i => idleReport (i + 1) p.loopsPerTest.toNat hl
  one_le_nSwitches := hn
  nSwitches_tests := fun _ _ => rfl
  length_loops := fun _ _ => List.length_replicate

/-- One slave that reports, and one sample. -/
def Reports.ofSlave (s : SlaveReport) (h : s.Built id) : Reports id where
  mode := s.params.mode
  connected := [s.address]
  slaves := [s]
  avgs := s.read id 1 .avgs
  results := (s.bodies id 1).map fun body => body.getD []
  samples := [⟨.ofRat 1, 50, 50, 1, 1⟩]
  slaves_ne := List.cons_ne_nil _ _
  samples_ne := List.cons_ne_nil _ _
  length_connected := rfl
  built := List.forall_mem_singleton.mpr h
  avgs_perm := by rw [List.flatMap_singleton]; exact .refl _
  results_perm := by rw [List.flatMap_singleton]; exact .refl _

/-- A test of 101 loops. -/
def longSlave : SlaveReport :=
  idleSlave ⟨10, 0, 0, 1⟩ ⟨1, 101, .latency, false⟩ (by decide) (by decide)

theorem complete_longSlave : longSlave.Complete id := by
  decide +kernel

/-- Two tests, of one switch and of two. -/
def rangeSlave : SlaveReport :=
  idleSlave ⟨10, 0, 0, 1⟩ ⟨2, 1, .latency, true⟩ (by decide) (by decide)

theorem complete_rangeSlave : rangeSlave.Complete id := by
  decide +kernel

theorem not_oneTest_rangeSlave : ¬ rangeSlave.OneTest := by
  rintro (hrange | hnumber)
  · cases hrange
  · exact absurd hnumber (by decide)

/-- There are only 100 rows in `x`, the values of the second test are parsed for two flows, and the
labels of three slaves are longer than `xtics`. -/
theorem not_plots_inside_longSlave :
    ¬ (Reports.ofSlave longSlave complete_longSlave.built).Inside (id : Text → Text) ∧
      ¬ (Reports.ofSlave rangeSlave complete_rangeSlave.built).Inside (id : Text → Text) ∧
      plotArrays.setXtic ((([1, 2, 3].map fun d => countingBody ⟨10, 0, 0, d⟩).flatMap
        ResultsBody.text) ++ [CSV_NEWLINE]) = none := by
  refine ⟨fun h => ?_, fun h => ?_, by decide⟩
  · have hspace := (Reports.values_iff h.read).mp h.values longSlave (List.mem_singleton_self _)
    have hfirst : (0 : ℕ) ∈ (testedSwitches longSlave.params).head? := by decide
    have hle := (hspace 0 hfirst).length_le
    rw [List.length_map] at hle
    exact absurd hle (by decide)
  · exact not_oneTest_rangeSlave
      ((Reports.avgs_iff h.read _).mp h.avgs rangeSlave (List.mem_singleton_self _)).1

end OfcBenchmark
