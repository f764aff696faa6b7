import OfcBenchmark.ChartTheorems

/-!
# Whose averages are plotted under whose name

The header of AVGS lists the hosts as they have connected, the bodies are queued as they arrive,
and `plotGraph` goes through both lists together. So everybody is plotted under its own name if
the averages come in the order of the connections, or as if they did; and if they can be plotted
at all (`attribution_iff`).
-/

namespace OfcBenchmark
open Printf Plotter Gnuplot

/-! ## The bodies -/

/-- The averages a worker has come with. -/
def Arrival.body (a : Arrival) : Option Text :=
  (readSocketLimiter (150 * a.nLines).toNat a.socket).map Received.buffer

section Bodies

variable {names : List Text} {arrivals : List Arrival}

/-- `buildGraph` puts the body behind what is in the queue, and a header in front of the first
one. -/
theorem buildGraph_avgs (hnames : ∀ name ∈ names, IsName name) (hne : names ≠ [])
    (queues : Queues) (a : Arrival) :
    (a.buildGraph names queues).map (· .avgs) = a.body.map fun body =>
      (if queues .avgs = [] then [avgsHeader names] else queues .avgs) ++ [body] := by
  unfold Arrival.buildGraph buildGraph Arrival.body
  cases readSocketLimiter (150 * a.nLines).toNat a.socket with
  | none => rfl
  | some r =>
    have hbody : graphBody names a.id .avgs a.nLines r.buffer = some r.buffer := rfl
    rw [Option.bind_eq_bind, Option.bind_some, hbody, Option.bind_eq_bind, Option.bind_some]
    unfold addHeader
    split
    case isTrue hnil =>
      rw [buildHeader_avgs hnames hne]
      simp [hnil]
    case isFalse => simp

/-- The bodies are queued in the order in which they come, if they can be read. -/
theorem exists_arrive (hnames : ∀ name ∈ names, IsName name) (hne : names ≠ []) (queues : Queues)
    (hnil : arrivals ≠ []) {body : Arrival → Text}
    (hbody : ∀ a ∈ arrivals, a.body = some (body a)) :
    ∃ queues', arrive names arrivals queues = some queues' ∧ queues' .avgs
      = (if queues .avgs = [] then [avgsHeader names] else queues .avgs) ++ arrivals.map body := by
  induction arrivals generalizing queues with
  | nil => exact absurd rfl hnil
  | cons a arrivals ih =>
    obtain ⟨ha, hrest⟩ := List.forall_mem_cons.mp hbody
    have hstep := buildGraph_avgs hnames hne queues a
    rw [ha, Option.map_some] at hstep
    obtain ⟨queues₁, hfirst, hqueue₁⟩ := Option.map_eq_some_iff.mp hstep
    rcases eq_or_ne arrivals [] with rfl | hmore
    · exact ⟨queues₁, by rw [arrive, List.foldlM_cons, hfirst]; rfl, hqueue₁⟩
    · have hne₁ : queues₁ .avgs ≠ [] := by
        rw [hqueue₁]
        exact List.append_ne_nil_of_right_ne_nil _ (List.cons_ne_nil _ _)
      obtain ⟨queues', harrive, hqueue'⟩ := ih queues₁ hmore hrest
      rw [if_neg hne₁, hqueue₁, List.append_assoc] at hqueue'
      exact ⟨queues', by rw [arrive, List.foldlM_cons, hfirst]; exact harrive, hqueue'⟩

theorem body_of_arrive (hnames : ∀ name ∈ names, IsName name) (hne : names ≠ [])
    {queues queues' : Queues} (h : arrive names arrivals queues = some queues') :
    ∀ a ∈ arrivals, a.body = some (a.body.getD []) := by
  induction arrivals generalizing queues with
  | nil => exact fun _ ha => absurd ha List.not_mem_nil
  | cons a arrivals ih =>
    obtain ⟨queues₁, hfirst, hrest⟩ := Option.bind_eq_some_iff.mp h
    have hstep := buildGraph_avgs hnames hne queues a
    rw [hfirst, Option.map_some] at hstep
    obtain ⟨body, hbody, -⟩ := Option.map_eq_some_iff.mp hstep.symm
    exact List.forall_mem_cons.mpr ⟨by rw [hbody]; rfl, ih hrest⟩

end Bodies

/-! ## The order in which they come -/

/-- The averages of `n + 1` slaves: their reports, in the order of the connections, and the order
in which their workers call `buildGraph` for AVGS, each of them once for a test. -/
structure AvgsRun (fl : ℚ → ℚ) (n : ℕ) where
  slave : Fin (n + 1) → SlaveReport
  built : ∀ i, (slave i).Built fl
  order : List (Fin (n + 1) × ℕ)
  order_perm : order.Perm ((List.finRange (n + 1)).flatMap fun i =>
    (List.range (testedSwitches (slave i).params).length).map fun j => (i, j))

namespace AvgsRun

variable {fl : ℚ → ℚ} {n : ℕ}

section Curves

variable (run : AvgsRun fl n)

/-- What there is still to be read at a call, if the worker comes to it. -/
def socket (c : Fin (n + 1) × ℕ) : Option Text := (run.slave c.1).avgsSocket fl (n + 1) c.2

/-- The call. -/
def call (c : Fin (n + 1) × ℕ) : Arrival :=
  ⟨c.1, (run.slave c.1).params.written.nLines, (run.slave c.1).params.written.mode,
    (run.socket c).getD []⟩

/-- The addresses in the order of the connections. -/
def addresses : List Address := List.ofFn fun i => (run.slave i).address

/-- The test that belongs to a call. -/
def test (c : Fin (n + 1) × ℕ) : TestReport :=
  (run.slave c.1).tests ((testedSwitches (run.slave c.1).params).getD c.2 0)

/-- The name of the slave that belongs to a call. -/
def hostname (c : Fin (n + 1) × ℕ) : Text := OfcBenchmark.hostname (run.slave c.1).address

variable {α : Type} (e18 : α → Text) (atof : Text → α) (ofRat : ℚ → α)

/-- The averages of the test under the name of its slave. -/
def ownCurve (c : Fin (n + 1) × ℕ) : Curve :=
  curveOf e18 ((run.test c).avgsPoints fl atof) (run.hostname c) "lines".toList

/-- All averages are drawn, each of them where its call came and under the name of its slave; so
which curves there are does not depend on the order. -/
structure PlotsOwn (pictures : List Picture) : Prop where
  inOrder : pictures.flatMap Picture.curves = run.order.map (run.ownCurve e18 atof)
  curves : ∀ curve, curve ∈ pictures.flatMap Picture.curves ↔
    ∃ i, ∃ j < (testedSwitches (run.slave i).params).length, curve = run.ownCurve e18 atof (i, j)

/-- The graph of the averages is plotted, and shows all slaves under their own names. -/
def Attributed : Prop :=
  (∀ c ∈ run.order, (run.socket c).isSome = true) ∧
  ∃ queues calls pictures,
    arrive (run.addresses.map OfcBenchmark.hostname) (run.order.map run.call) emptyQueues
        = some queues ∧
      plotGraphCalls atof fl ofRat .avgs "partials".toList (queues .avgs) = some calls ∧
      Draws e18 "partials".toList calls pictures ∧ run.PlotsOwn e18 atof pictures

/-- The averages can be plotted, and come as if in the order of the connections. -/
structure InOrder : Prop where
  oneTest : ∀ i, (run.slave i).OneTest
  space : ∀ i, RowsHaveSpace ((run.slave i).lastTest.loops.map (avgsTokens fl))
  few : n + 1 < GP_MAX_TMP_FILES
  hostnames : run.order.map run.hostname = run.addresses.map OfcBenchmark.hostname

end Curves

variable {run : AvgsRun fl n}

/-! ### The calls there are -/

theorem mem_order {c : Fin (n + 1) × ℕ} :
    c ∈ run.order ↔ c.2 < (testedSwitches (run.slave c.1).params).length := by
  obtain ⟨i, j⟩ := c
  rw [run.order_perm.mem_iff, List.mem_flatMap]
  simp

theorem length_order :
    run.order.length = ∑ i, (testedSwitches (run.slave i).params).length := by
  rw [run.order_perm.length_eq, List.length_flatMap, Fin.sum_univ_def]
  simp

theorem length_addresses : run.addresses.length = n + 1 := List.length_ofFn

/-- Each slave has a test, so if there are not more calls than slaves it has no other. -/
theorem length_order_le_iff : run.order.length ≤ n + 1 ↔ ∀ i, (run.slave i).OneTest := by
  have hpos : ∀ i ∈ Finset.univ, 1 ≤ (testedSwitches (run.slave i).params).length := by
    intro i _
    obtain ⟨j, rest, htests⟩ := (run.slave i).exists_testedSwitches
    rw [htests, List.length_cons]
    omega
  have hsum : ∑ _i : Fin (n + 1), 1 = n + 1 := by simp
  have hle := Finset.sum_le_sum hpos
  have hone := Finset.sum_eq_sum_iff_of_le hpos
  rw [← length_order, hsum] at hle hone
  simp only [SlaveReport.oneTest_iff]
  constructor
  · exact fun h i => (hone.mp (le_antisymm hle h) i (Finset.mem_univ i)).symm
  · exact fun h => (hone.mpr fun i _ => (h i).symm).symm.le

theorem order_ne : run.order ≠ [] := by
  intro hnil
  obtain ⟨j, rest, htests⟩ := (run.slave 0).exists_testedSwitches
  have hmem : ((0, 0) : Fin (n + 1) × ℕ) ∈ run.order :=
    mem_order.mpr (by rw [htests]; exact Nat.succ_pos _)
  rw [hnil] at hmem
  cases hmem

section OneTest

variable (hone : ∀ i, (run.slave i).OneTest)
include hone

theorem length_order_of_oneTest : run.order.length = n + 1 := by
  rw [length_order]
  simp [fun i => SlaveReport.oneTest_iff.mp (hone i)]

theorem snd_eq_zero {c : Fin (n + 1) × ℕ} (hc : c ∈ run.order) : c.2 = 0 := by
  have hlt := mem_order.mp hc
  rw [SlaveReport.oneTest_iff.mp (hone c.1)] at hlt
  omega

theorem test_eq {c : Fin (n + 1) × ℕ} (hc : c ∈ run.order) :
    run.test c = (run.slave c.1).lastTest := by
  rw [test, snd_eq_zero hone hc,
    testedSwitches_single (run.slave c.1).one_le_nSwitches (hone c.1)]
  rfl

section Sockets

variable (hl : ∀ i, (run.slave i).params.loopsPerTest.toNat ≤ 9999)
  {c : Fin (n + 1) × ℕ} (hc : c ∈ run.order)
include hl hc

/-- The values have been read, and so the averages come next. -/
theorem socket_eq : run.socket c
    = some ((run.test c).text fl (run.slave c.1).params.mode .avgs ++ LIMITER ::
      (run.test c).message fl (run.slave c.1).params.mode .results) := by
  rw [socket, snd_eq_zero hone hc, test_eq hone hc]
  exact SlaveReport.avgsSocket_of_oneTest (hone c.1) (run.built c.1) (hl c.1) (n + 1)

theorem body_call : (run.call c).body = some (rowsBlock (avgsNumbers fl) (run.test c).loops) := by
  obtain ⟨bytesRead, hread⟩ := (run.built c.1).exists_readSocketLimiter_lastTest (hl c.1)
    (.inr rfl) (run.slave c.1).params.mode
    ((run.slave c.1).lastTest.message fl (run.slave c.1).params.mode .results)
  rw [Arrival.body, call, socket_eq hone hl hc, Option.getD_some, test_eq hone hc, hread]
  rfl

end Sockets

end OneTest

/-! ### What is drawn -/

theorem isName_of_mem_hostnames (run : AvgsRun fl n) :
    ∀ name ∈ run.addresses.map OfcBenchmark.hostname, IsName name := by
  intro name hname
  obtain ⟨x, -, rfl⟩ := List.mem_map.mp hname
  exact isName_hostname x

theorem hostnames_ne : run.addresses.map OfcBenchmark.hostname ≠ [] :=
  List.ne_nil_of_length_pos (by rw [List.length_map, length_addresses]; exact Nat.succ_pos n)

theorem calls_ne : (run.order.map run.call) ≠ [] := fun hnil =>
  order_ne (List.map_eq_nil_iff.mp hnil)

/-- What is in the queue in the end. -/
theorem exists_arrive_order (run : AvgsRun fl n)
    (hbody : ∀ c ∈ run.order,
      (run.call c).body = some ((run.call c).body.getD [])) :
    ∃ queues, arrive (run.addresses.map OfcBenchmark.hostname)
        (run.order.map run.call) emptyQueues = some queues ∧
      queues .avgs = avgsHeader (run.addresses.map OfcBenchmark.hostname)
        :: run.order.map fun c => (run.call c).body.getD [] := by
  have hcalls : ∀ a ∈ run.order.map run.call, a.body = some (a.body.getD []) := by
    intro a ha
    obtain ⟨c, hc, rfl⟩ := List.mem_map.mp ha
    exact hbody c hc
  have hempty : emptyQueues .avgs = [] := rfl
  obtain ⟨queues, harrive, hqueue⟩ :=
    exists_arrive (isName_of_mem_hostnames run) hostnames_ne emptyQueues calls_ne hcalls
  rw [if_pos hempty, List.singleton_append, List.map_map] at hqueue
  exact ⟨queues, harrive, hqueue⟩

variable {α : Type} {e18 : α → Text} {atof : Text → α} {ofRat : ℚ → α}

/-- Where the graph is plotted, each slave had one test, and its averages have space. -/
theorem space_of_plotted {queues : Queues} {calls : List (PlotCall α)}
    (hsocket : ∀ c ∈ run.order, (run.socket c).isSome = true)
    (harrive : arrive (run.addresses.map OfcBenchmark.hostname)
      (run.order.map run.call) emptyQueues = some queues)
    (hcalls : plotGraphCalls atof fl ofRat .avgs "partials".toList (queues .avgs) = some calls) :
    (∀ i, (run.slave i).OneTest) ∧
      ∀ i, RowsHaveSpace ((run.slave i).lastTest.loops.map (avgsTokens fl)) := by
  have hbody : ∀ c ∈ run.order,
      (run.call c).body = some ((run.call c).body.getD []) := fun c hc =>
    body_of_arrive (isName_of_mem_hostnames run) hostnames_ne harrive _ (List.mem_map_of_mem hc)
  obtain ⟨queues', harrive', hqueue⟩ := exists_arrive_order run hbody
  rw [harrive] at harrive'
  cases harrive'
  have hscan := plotGraphHeader_avgsHeader
    (fun name hname => (isName_of_mem_hostnames run name hname).isFlowName) hostnames_ne
  obtain ⟨g, hgraph, -⟩ := Option.bind_eq_some_iff.mp hcalls
  rw [hqueue] at hgraph
  obtain ⟨hlength, hparse⟩ := (plotGraph_avgs_iff atof hscan
    (fun hnil => order_ne (List.map_eq_nil_iff.mp hnil))).mp ⟨g, hgraph⟩
  simp only [List.length_map, List.length_cons, length_addresses] at hlength
  have hone := length_order_le_iff.mp (Nat.le_of_lt_succ hlength)
  have hmem (i : Fin (n + 1)) : (i, 0) ∈ run.order :=
    mem_order.mpr (by rw [SlaveReport.oneTest_iff.mp (hone i)]; exact Nat.one_pos)
  have hl (i : Fin (n + 1)) : (run.slave i).params.loopsPerTest.toNat ≤ 9999 :=
    SlaveReport.loopsPerTest_le_of_avgsSocket (run.built i) (hsocket (i, 0) (hmem i))
  refine ⟨hone, fun i => ?_⟩
  obtain ⟨r, hr⟩ := hparse _ (List.mem_map_of_mem (hmem i))
  rw [body_call hone hl (hmem i), Option.getD_some, test_eq hone (hmem i)] at hr
  exact (parseLines_block_iff atof _ 2 (csvRow_avgsTokens fl) (isToken_avgsTokens fl) Nat.two_pos
    fun _ _ => rfl).mp ⟨r, hr⟩

/-- Then they are drawn: those that came `k`-th under the name of the slave that connected
`k`-th, up to 63 of them. -/
theorem exists_draws (hone : ∀ i, (run.slave i).OneTest) (e18 : α → Text) (atof : Text → α)
    (ofRat : ℚ → α)
    (hspace : ∀ i, RowsHaveSpace ((run.slave i).lastTest.loops.map (avgsTokens fl))) :
    ∃ queues calls,
      arrive (run.addresses.map OfcBenchmark.hostname) (run.order.map run.call)
          emptyQueues = some queues ∧
        plotGraphCalls atof fl ofRat .avgs "partials".toList (queues .avgs) = some calls ∧
        Draws e18 "partials".toList calls
          (figure (labelled "timestamp (sec)".toList "flows/sec".toList)
            ((run.addresses.zip (run.order.map run.test)).map fun c =>
              curveOf e18 (c.2.avgsPoints fl atof) (OfcBenchmark.hostname c.1)
                "lines".toList)) := by
  have hl (i : Fin (n + 1)) := SlaveReport.loopsPerTest_le_of_space (hspace i)
  obtain ⟨queues, harrive, hqueue⟩ := exists_arrive_order run fun c hc => by
    rw [body_call hone hl hc]
    rfl
  have hbodies : (run.order.map fun c => (run.call c).body.getD [])
      = (run.order.map run.test).map fun t => rowsBlock (avgsNumbers fl) t.loops := by
    rw [List.map_map]
    exact List.map_congr_left fun c hc => by
      rw [body_call hone hl hc]
      rfl
  rw [hbodies] at hqueue
  have hlength : run.addresses.length = (run.order.map run.test).length := by
    rw [length_addresses, List.length_map, length_order_of_oneTest hone]
  have hspace' : ∀ t ∈ run.order.map run.test, RowsHaveSpace (t.loops.map (avgsTokens fl)) := by
    intro t ht
    obtain ⟨c, hc, rfl⟩ := List.mem_map.mp ht
    rw [test_eq hone hc]
    exact hspace c.1
  obtain ⟨header, calls, hheader, hcalls, hdraws⟩ := draws_averages e18 atof fl ofRat
    (⟨by decide, by decide⟩ : IsChartName "partials".toList) hlength
    (fun hnil => order_ne (List.map_eq_nil_iff.mp hnil)) 0 hspace'
  have hbuild := buildHeader_avgs (isName_of_mem_hostnames run) hostnames_ne 0 0
  rw [List.length_map, hheader] at hbuild
  cases hbuild
  exact ⟨queues, calls, harrive, hqueue ▸ hcalls, hdraws⟩

theorem length_zip_order (hone : ∀ i, (run.slave i).OneTest) :
    run.addresses.length = (run.order.map run.test).length := by
  rw [length_addresses, List.length_map, length_order_of_oneTest hone]

/-- When everybody is shown under its own name, they came in the order of the connections. -/
theorem inOrder_of_attributed (h : run.Attributed e18 atof ofRat) : run.InOrder := by
  obtain ⟨hsocket, queues, calls, pictures, harrive, hcalls, hdraws, hown⟩ := h
  obtain ⟨hone, hspace⟩ := space_of_plotted hsocket harrive hcalls
  obtain ⟨queues', calls', harrive', hcalls', hdraws'⟩ :=
    exists_draws hone e18 atof ofRat hspace
  rw [harrive] at harrive'
  cases harrive'
  rw [hcalls] at hcalls'
  cases hcalls'
  -- there is a run with these calls, and one picture in it
  obtain ⟨d, history, d', hplots⟩ := exists_chart e18 "partials".toList calls
  have hpictures := (hdraws Unit () d history d' hplots).symm.trans
    (hdraws' Unit () d history d' hplots)
  have hcurves := hown.inOrder
  have hlength : ((run.addresses.zip (run.order.map run.test)).map fun c =>
      curveOf e18 (c.2.avgsPoints fl atof) (OfcBenchmark.hostname c.1)
        "lines".toList).length = n + 1 := by
    rw [List.length_map, List.length_zip, ← length_zip_order hone, length_addresses, min_self]
  rw [hpictures, figure, hlength] at hcurves
  by_cases hfew : n + 1 < GP_MAX_TMP_FILES
  case neg =>
    rw [if_neg hfew] at hcurves
    exact absurd (List.map_eq_nil_iff.mp hcurves.symm) order_ne
  rw [if_pos hfew, List.flatMap_singleton] at hcurves
  refine ⟨hone, hspace, hfew, ?_⟩
  have htitles := congrArg (List.map Curve.title) hcurves
  rw [List.map_map, List.map_map] at htitles
  calc run.order.map run.hostname
      = (run.addresses.zip (run.order.map run.test)).map
          (OfcBenchmark.hostname ∘ Prod.fst) := htitles.symm
    _ = run.addresses.map OfcBenchmark.hostname := by
        rw [← List.map_map, List.map_fst_zip (length_zip_order hone).le]

theorem attributed_of_inOrder (e18 : α → Text) (atof : Text → α) (ofRat : ℚ → α)
    (h : run.InOrder) : run.Attributed e18 atof ofRat := by
  obtain ⟨queues, calls, harrive, hcalls, hdraws⟩ :=
    exists_draws h.oneTest e18 atof ofRat h.space
  have hcurves : ((run.addresses.zip (run.order.map run.test)).map fun c =>
      curveOf e18 (c.2.avgsPoints fl atof) (OfcBenchmark.hostname c.1) "lines".toList)
        = run.order.map (run.ownCurve e18 atof) := by
    calc ((run.addresses.zip (run.order.map run.test)).map fun c =>
          curveOf e18 (c.2.avgsPoints fl atof) (OfcBenchmark.hostname c.1) "lines".toList)
        = ((run.addresses.map OfcBenchmark.hostname).zip (run.order.map run.test)).map
            fun c => curveOf e18 (c.2.avgsPoints fl atof) c.1 "lines".toList := by
          rw [List.zip_map_left, List.map_map]
          rfl
      _ = run.order.map (run.ownCurve e18 atof) := by
          rw [← h.hostnames, List.zip_map', List.map_map]
          rfl
  have hlength : (run.order.map (run.ownCurve e18 atof)).length < GP_MAX_TMP_FILES := by
    rw [List.length_map, length_order_of_oneTest h.oneTest]
    exact h.few
  rw [hcurves, figure, if_pos hlength] at hdraws
  have hsocket : ∀ c ∈ run.order, (run.socket c).isSome = true := fun c hc => by
    rw [socket_eq h.oneTest (fun i => SlaveReport.loopsPerTest_le_of_space (h.space i)) hc]
    rfl
  refine ⟨hsocket, queues, calls, _, harrive, hcalls, hdraws, List.flatMap_singleton _ _,
    fun curve => ?_⟩
  rw [List.flatMap_singleton, List.mem_map]
  constructor
  · rintro ⟨c, hc, rfl⟩
    exact ⟨c.1, c.2, mem_order.mp hc, rfl⟩
  · rintro ⟨i, j, hj, rfl⟩
    exact ⟨(i, j), mem_order.mpr hj, rfl⟩

end AvgsRun

/-- Whatever the slaves report, and in whatever order their averages come: each slave is shown
under its own name exactly if all reports are about one test, the averages have space, there are
fewer than 64 slaves, and the slave whose averages came `k`-th has the name of the one that
connected `k`-th. -/
theorem attribution_iff {α : Type} (e18 : α → Text) (atof : Text → α) (ofRat : ℚ → α) {fl : ℚ → ℚ}
    {n : ℕ} (run : AvgsRun fl n) : run.Attributed e18 atof ofRat ↔ run.InOrder :=
  ⟨AvgsRun.inOrder_of_attributed, AvgsRun.attributed_of_inOrder e18 atof ofRat⟩

/-- Two slaves with one test each, in some order. -/
def twoSlaves : Fin 2 → SlaveReport :=
  ![countingSlave ⟨10, 0, 0, 1⟩ 4400, countingSlave ⟨10, 0, 0, 2⟩ 7700]

theorem complete_twoSlaves : ∀ i, (twoSlaves i).Complete id := by
  decide +kernel

theorem perm_twoSlaves : [((1 : Fin 2), 0), (0, 0)].Perm ((List.finRange 2).flatMap fun i =>
    (List.range (testedSwitches (twoSlaves i).params).length).map fun j => (i, j)) := by
  decide

/-- The second one of them has reported first. -/
def swappedRun : AvgsRun id 1 where
  slave := twoSlaves
  built := fun i => (complete_twoSlaves i).built
  order := [(⟨1, Nat.one_lt_two⟩, 0), (⟨0, Nat.two_pos⟩, 0)]
  order_perm := perm_twoSlaves

theorem perm_rangeSlave : [((0 : Fin 1), 0), (0, 1)].Perm ((List.finRange 1).flatMap fun i =>
    (List.range (testedSwitches rangeSlave.params).length).map fun j => (i, j)) := by
  decide

/-- A slave that has reported two tests. -/
def rangeRun : AvgsRun id 0 where
  slave := fun _ => rangeSlave
  built := fun _ => complete_rangeSlave.built
  order := [(⟨0, Nat.one_pos⟩, 0), (⟨0, Nat.one_pos⟩, 1)]
  order_perm := perm_rangeSlave

/-- When the averages of the second slave come first, they are plotted under the name of the first
one; and the averages of a second test have no name. -/
theorem not_attribution_swapped :
    ¬ swappedRun.Attributed (id : Text → Text) (id : Text → Text) (fun _ => []) ∧
      ¬ rangeRun.Attributed (id : Text → Text) (id : Text → Text) (fun _ => []) := by
  refine ⟨fun h => ?_, fun h => ?_⟩
  · exact absurd (AvgsRun.inOrder_of_attributed h).hostnames (by decide)
  · exact not_oneTest_rangeSlave ((AvgsRun.inOrder_of_attributed h).oneTest 0)

end OfcBenchmark
