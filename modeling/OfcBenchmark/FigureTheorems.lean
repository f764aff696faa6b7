import OfcBenchmark.PictureTheorems
import OfcBenchmark.PlotGraph

/-!
# The figures

`plotGraph` plots one line after the other, each with `set output` in front: the picture is drawn
anew with each line. A session has space for 63 temporary files. Beyond that nothing is drawn, but
the file of the picture has been opened again, and is empty.
-/

namespace OfcBenchmark
open Printf Plotter Runs Gnuplot

namespace Gnuplot

variable {α : Type} (e18 : α → Text)

/-! ## Single calls -/

/-- What a session has drawn so far: these curves, under these settings. -/
structure Drawing (output : Option Text) (settings : List Text) (style : Text) (curves : List Curve)
    (a : Alone) : Prop where
  ok : a.session.ctrl.Ok
  ntmp_eq : a.session.ctrl.ntmp = curves.length
  nplots_eq : a.session.ctrl.nplots = curves.length
  pstyle_eq : a.session.ctrl.pstyle = style
  pipe_nil : a.session.pipe = []
  output_eq : a.session.plotter.output = output
  there : ∀ line ∈ a.session.plotter.lines, (a.files line.file).isSome = true
  picture_eq : a.session.plotter.picture a.files = ⟨settings, curves⟩

/-- The curve of these points. -/
def curveOf (points : List (α × α)) (title style : Text) : Curve :=
  ⟨some (pointsData e18 points), title, style⟩

variable {e18} {output : Option Text} {settings : List Text} {style : Text} {curves : List Curve}
  {a a' : Alone} {tmp : Option TmpName}

/-- A text that is sent in a call. -/
theorem call_cmd (h : Drawing output settings style curves a) {call : PlotCall α} {text : Text}
    (hrun : call.run e18 tmp a.files a.session = some (a.files, gnuplot_cmd a.session text)) :
    a.call e18 (call, tmp) = some
      { a with
        images := (a.session.plotter.after text).draw a.files (readCommand text) a.images
        session := { a.session with plotter := a.session.plotter.after text } } := by
  have hpipe : a.session.pipe ++ [text] = [text] := by rw [h.pipe_nil, List.nil_append]
  rw [Alone.call, hrun, Option.map_some, gnuplot_cmd]
  dsimp only
  rw [hpipe]
  obtain ⟨files, images, ⟨ctrl, pipe, plotter⟩⟩ := a
  obtain rfl : pipe = [] := h.pipe_nil
  rfl

theorem Drawing.setting (h : Drawing output settings style curves a) {call : PlotCall α}
    {text : Text} (hread : readCommand text = .setting text)
    (hrun : call.run e18 tmp a.files a.session = some (a.files, gnuplot_cmd a.session text))
    (hcall : a.call e18 (call, tmp) = some a') :
    Drawing output (settings ++ [text]) style curves a' ∧ a'.images = a.images := by
  rw [call_cmd h hrun] at hcall
  cases hcall
  have hplotter : a.session.plotter.after text
      = { a.session.plotter with settings := a.session.plotter.settings ++ [text] } := by
    rw [State.after, hread]
    rfl
  rw [hplotter, hread]
  refine ⟨⟨h.ok, h.ntmp_eq, h.nplots_eq, h.pstyle_eq, h.pipe_nil, h.output_eq, h.there, ?_⟩, rfl⟩
  obtain ⟨hsettings, hcurves⟩ := Picture.mk.inj h.picture_eq
  exact congrArg₂ Picture.mk (congrArg (· ++ [text]) hsettings) hcurves

theorem Drawing.setOutput (h : Drawing output settings style curves a) {text image : Text}
    (hread : readCommand text = .setOutput image)
    (hcall : a.call e18 (.cmd text, tmp) = some a') :
    Drawing (some image) settings style curves a' ∧
      a'.images = Function.update a.images image [] := by
  rw [call_cmd h rfl] at hcall
  cases hcall
  have hplotter : a.session.plotter.after text
      = { a.session.plotter with output := some image } := by
    rw [State.after, hread]
    rfl
  rw [hplotter, hread]
  exact ⟨⟨h.ok, h.ntmp_eq, h.nplots_eq, h.pstyle_eq, h.pipe_nil, rfl, h.there, h.picture_eq⟩, rfl⟩

/-- A call that sends nothing. -/
theorem call_silent (h : Drawing output settings style curves a) {call : PlotCall α}
    {ctrl : GnuplotCtrl} (hrun : call.run e18 tmp a.files a.session
      = some (a.files, { a.session with ctrl := ctrl })) :
    a.call e18 (call, tmp) = some { a with session := { a.session with ctrl := ctrl } } := by
  obtain ⟨files, images, ⟨ctrl', pipe, plotter⟩⟩ := a
  obtain rfl : pipe = [] := h.pipe_nil
  rw [Alone.call, hrun]
  rfl

theorem Drawing.setstyle (h : Drawing output settings style curves a) {plot_style : Text}
    (hstyle : plot_style ∈ styles) (hcall : a.call e18 (.setstyle plot_style, tmp) = some a') :
    Drawing output settings plot_style curves a' ∧ a'.images = a.images := by
  rw [call_silent h rfl] at hcall
  cases hcall
  exact ⟨⟨h.ok.of_same rfl rfl, h.ntmp_eq, h.nplots_eq, if_pos hstyle, h.pipe_nil, h.output_eq,
    h.there, h.picture_eq⟩, rfl⟩

/-- Before anything is plotted nothing is reset. -/
theorem Drawing.resetplot (h : Drawing output settings style [] a)
    (hcall : a.call e18 (.resetplot, tmp) = some a') :
    Drawing output settings style [] a' ∧ a'.images = a.images := by
  have hzero : a.session.ctrl.ntmp = 0 := h.ntmp_eq
  have hrun : (PlotCall.resetplot : PlotCall α).run e18 tmp a.files a.session
      = some (a.files, { a.session with
          ctrl := { cleared a.session.ctrl 0 with ntmp := 0, nplots := 0 } }) := by
    rw [PlotCall.run, gnuplot_resetplot, removeAll_eq a.files h.ok, hzero, without_zero]
    rfl
  rw [call_silent h hrun] at hcall
  cases hcall
  have hok : ({ cleared a.session.ctrl 0 with ntmp := 0, nplots := 0 } : GnuplotCtrl).Ok :=
    GnuplotCtrl.ok_of_none (fun k => hzero ▸ cleared_ntmp_tbl h.ok k) rfl
  exact ⟨⟨hok, rfl, rfl, h.pstyle_eq, h.pipe_nil, h.output_eq, h.there, h.picture_eq⟩, rfl⟩

/-- There is no space for another file. -/
theorem Drawing.plot_xy_full (h : Drawing output settings style curves a)
    (hfull : curves.length = GP_MAX_TMP_FILES - 1) {points : List (α × α)} {title : Option Text}
    (hcall : a.call e18 (.plot_xy points title, tmp) = some a') :
    Drawing output settings style curves a' ∧ a'.images = a.images := by
  rw [call_silent h (run_plot_xy_skip e18 h.ok (.inr (.inl (h.ntmp_eq.trans hfull))) title _ _ _)]
    at hcall
  cases hcall
  exact ⟨⟨h.ok, h.ntmp_eq, h.nplots_eq, h.pstyle_eq, h.pipe_nil, h.output_eq, h.there,
    h.picture_eq⟩, rfl⟩

/-- A line is drawn with those before it, whichever of the two commands it takes. -/
theorem after_plotText {ctrl : GnuplotCtrl} {plotter : Plotter.State}
    (hlines : ctrl.nplots = plotter.lines.length) (name : TmpName) {title : Text}
    (htitle : '\x22' ∉ title) :
    plotter.after (plotText ctrl name (some title))
        = { plotter with lines := plotter.lines ++ [⟨name.text, title, ctrl.pstyle⟩] } ∧
      ∀ (p : Plotter.State) (files : Files) (images : Images),
        p.draw files (readCommand (plotText ctrl name (some title))) images
          = match p.output with
            | some file => Function.update images file (images file ++ [p.picture files])
            | none => images := by
  have hline : (⟨name.text, title, ctrl.pstyle⟩ : Line).Quotable := ⟨name.not_quote, htitle⟩
  rw [State.after, plotText]
  split
  case isTrue =>
    rw [Option.getD_some, readCommand_replot hline]
    exact ⟨rfl, fun _ _ _ => rfl⟩
  case isFalse hzero =>
    have hnil : plotter.lines = [] := List.length_eq_zero_iff.mp (by omega)
    rw [Option.getD_some, readCommand_plot hline, hnil]
    exact ⟨rfl, fun _ _ _ => rfl⟩

theorem call_plot_xy {ctrl : GnuplotCtrl} (hok : ctrl.Ok) (hne : ctrl.ntmp ≠ GP_MAX_TMP_FILES - 1)
    {points : List (α × α)} (hpoints : points ≠ []) (name : TmpName) (title : Option Text)
    (files : Files) (images : Images) (plotter : Plotter.State) :
    Alone.call e18 ⟨files, images, ⟨ctrl, [], plotter⟩⟩ (.plot_xy points title, some name)
      = if files name.text = none then
          let files := Function.update files name.text (some (pointsData e18 points))
          let text := plotText ctrl name title
          some ⟨files, (plotter.after text).draw files (readCommand text) images,
            ⟨ctrl.added hok.ntmp_lt name, [], plotter.after text⟩⟩
        else none := by
  rw [Alone.call, run_plot_xy e18 hok hne hpoints]
  split <;> rfl

/-- Another curve is drawn, with all those before it. -/
theorem Drawing.plot_xy {image : Text} (h : Drawing (some image) settings style curves a)
    (hspace : curves.length < GP_MAX_TMP_FILES - 1) {points : List (α × α)} (hpoints : points ≠ [])
    {title : Text} (htitle : '\x22' ∉ title) {name : TmpName}
    (hcall : a.call e18 (.plot_xy points (some title), some name) = some a') :
    Drawing (some image) settings style (curves ++ [curveOf e18 points title style]) a' ∧
      a'.images = Function.update a.images image
        (a.images image ++ [⟨settings, curves ++ [curveOf e18 points title style]⟩]) := by
  obtain ⟨files, images, ⟨ctrl, pipe, plotter⟩⟩ := a
  obtain rfl : pipe = [] := h.pipe_nil
  have hne : ctrl.ntmp ≠ GP_MAX_TMP_FILES - 1 := fun heq => by
    have hlength : ctrl.ntmp = curves.length := h.ntmp_eq
    omega
  rw [call_plot_xy h.ok hne hpoints] at hcall
  split at hcall
  case isFalse => cases hcall
  case isTrue hfresh =>
  obtain ⟨hsettings, hcurves⟩ := Picture.mk.inj h.picture_eq
  have hlines : ctrl.nplots = plotter.lines.length := by
    have hlength := congrArg List.length hcurves
    rw [List.length_map] at hlength
    exact h.nplots_eq.trans hlength.symm
  obtain ⟨hafter, hdraw⟩ := after_plotText hlines name htitle
  have hkeep : ∀ line ∈ plotter.lines, line.file ≠ name.text := fun line hline heq => by
    have hthere : (files line.file).isSome = true := h.there line hline
    rw [heq, hfresh] at hthere
    cases hthere
  have hpicture : (plotter.after (plotText ctrl name (some title))).picture
      (Function.update files name.text (some (pointsData e18 points)))
        = ⟨settings, curves ++ [curveOf e18 points title style]⟩ := by
    rw [hafter]
    refine congrArg₂ Picture.mk hsettings ?_
    have hold : (plotter.lines.map fun line => (⟨Function.update files name.text
        (some (pointsData e18 points)) line.file, line.title, line.style⟩ : Curve)) = curves := by
      rw [← hcurves]
      exact List.map_congr_left fun line hline => by rw [Function.update_of_ne (hkeep line hline)]
    have hstyle : ctrl.pstyle = style := h.pstyle_eq
    rw [List.map_append, hold, List.map_singleton, Function.update_self, hstyle]
    rfl
  have houtput : (plotter.after (plotText ctrl name (some title))).output = some image := by
    rw [hafter]
    exact h.output_eq
  have hlength : (curves ++ [curveOf e18 points title style]).length = curves.length + 1 :=
    List.length_append
  have hlt : ctrl.ntmp + 1 < GP_MAX_TMP_FILES := by
    have hntmp : ctrl.ntmp = curves.length := h.ntmp_eq
    omega
  cases hcall
  refine ⟨⟨h.ok.of_update hlt rfl rfl, ?_, ?_, h.pstyle_eq, rfl, houtput, ?_, hpicture⟩, ?_⟩
  · exact (congrArg (· + 1) h.ntmp_eq).trans hlength.symm
  · exact (congrArg (· + 1) h.nplots_eq).trans hlength.symm
  · intro line hline
    show (Function.update files name.text _ line.file).isSome = true
    rw [Function.update_apply]
    split
    case isTrue => rfl
    case isFalse hfile =>
      rw [show (plotter.after _).lines = _ from congrArg State.lines hafter] at hline
      rcases List.mem_append.mp hline with hline | hline
      · exact h.there line hline
      · exact absurd (congrArg Line.file (List.mem_singleton.mp hline)) hfile
  · show (plotter.after _).draw _ (readCommand _) images = _
    rw [hdraw, houtput, hpicture]

/-! ## Programs -/

variable (e18) in
/-- The session on its own can go from `a` to `a'` with these calls. Whenever something is plotted,
`mkstemp` finds a name. -/
inductive Makes : List (PlotCall α) → Alone → Alone → Prop
  | nil (a : Alone) : Makes [] a a
  | cons {call : PlotCall α} {calls : List (PlotCall α)} {tmp : Option TmpName} {a a₁ a' : Alone} :
      (∀ points title, call = .plot_xy points title → tmp.isSome = true) →
      a.call e18 (call, tmp) = some a₁ → Makes calls a₁ a' → Makes (call :: calls) a a'

theorem makes_of_foldlM {calls : List (PlotCall α × Option TmpName)}
    (htmp : ∀ c ∈ calls, ∀ points title, c.1 = .plot_xy points title → c.2.isSome = true)
    (h : calls.foldlM (Alone.call e18) a = some a') : Makes e18 (calls.map Prod.fst) a a' := by
  induction calls generalizing a with
  | nil =>
    cases h
    exact .nil _
  | cons c calls ih =>
    obtain ⟨hc, htmp⟩ := List.forall_mem_cons.mp htmp
    obtain ⟨a₁, hfirst, hrest⟩ := Option.bind_eq_some_iff.mp h
    exact .cons hc hfirst (ih htmp hrest)

theorem Makes.of_append {calls calls' : List (PlotCall α)} (h : Makes e18 (calls ++ calls') a a') :
    ∃ a₁, Makes e18 calls a a₁ ∧ Makes e18 calls' a₁ a' := by
  induction calls generalizing a with
  | nil => exact ⟨a, .nil a, h⟩
  | cons call calls ih =>
    cases h with
    | cons htmp hfirst hrest =>
      obtain ⟨a₂, hmakes, hmakes'⟩ := ih hrest
      exact ⟨a₂, .cons htmp hfirst hmakes, hmakes'⟩

/-- The texts that `plotGraph` sends first. -/
def startSettings (h : GraphHeader) : List Text :=
  ["set ylabel \x22".toList ++ h.ylabel ++ "\x22".toList,
    "set xlabel \x22".toList ++ h.xlabel ++ "\x22".toList,
    "set grid xtics lc rgb \x22#bbbbbb\x22 lw 1 lt 0".toList,
    "set grid ytics lc rgb \x22#bbbbbb\x22 lw 1 lt 0".toList,
    "set key rmargin".toList, "set terminal pngcairo size 1024, 768".toList]

/-- These texts are settings. -/
theorem Makes.cmds (texts : List Text) (htexts : ∀ text ∈ texts, readCommand text = .setting text)
    (h : Drawing output settings style curves a)
    (hmakes : Makes e18 (texts.map PlotCall.cmd) a a') :
    Drawing output (settings ++ texts) style curves a' ∧ a'.images = a.images := by
  induction texts generalizing settings a with
  | nil =>
    cases hmakes
    rw [List.append_nil]
    exact ⟨h, rfl⟩
  | cons text texts ih =>
    obtain ⟨htext, htexts⟩ := List.forall_mem_cons.mp htexts
    cases hmakes with
    | cons _ hcall hrest =>
      obtain ⟨h₁, himages₁⟩ := h.setting htext rfl hcall
      obtain ⟨h', himages⟩ := ih htexts h₁ hrest
      rw [List.append_assoc] at h'
      exact ⟨h', himages.trans himages₁⟩

theorem drawing_init (images : Images) :
    Drawing none [] "points".toList [] ⟨fun _ => none, images, gnuplot_init⟩ where
  ok := GnuplotCtrl.ok_of_none (fun _ => rfl) rfl
  ntmp_eq := rfl
  nplots_eq := rfl
  pstyle_eq := rfl
  pipe_nil := rfl
  output_eq := rfl
  there := fun _ hline => absurd hline List.not_mem_nil
  picture_eq := rfl

theorem Makes.start {h : GraphHeader} {images : Images}
    (hmakes : Makes e18 (startCalls h) ⟨fun _ => none, images, gnuplot_init⟩ a) :
    Drawing none (startSettings h) "points".toList [] a ∧ a.images = images := by
  cases hmakes with
  | cons _ hylabel hmakes =>
  cases hmakes with
  | cons _ hxlabel hmakes =>
  cases hmakes with
  | cons _ hreset hmakes =>
  obtain ⟨h₁, himages₁⟩ := (drawing_init images).setting (readCommand_ylabel h.ylabel) rfl hylabel
  obtain ⟨h₂, himages₂⟩ := h₁.setting (readCommand_xlabel h.xlabel) rfl hxlabel
  obtain ⟨h₃, himages₃⟩ := h₂.resetplot hreset
  obtain ⟨h', himages⟩ := Makes.cmds
    ["set grid xtics lc rgb \x22#bbbbbb\x22 lw 1 lt 0".toList,
      "set grid ytics lc rgb \x22#bbbbbb\x22 lw 1 lt 0".toList, "set key rmargin".toList,
      "set terminal pngcairo size 1024, 768".toList] (by decide) h₃ hmakes
  exact ⟨h', himages.trans (himages₃.trans (himages₂.trans himages₁))⟩

/-! ## Lines -/

/-- The name of a graph, as `plotNode` and `plotDistributed` make it. -/
structure IsChartName (name : Text) : Prop where
  length_le : name.length ≤ 50
  not_quote : '\x22' ∉ name

theorem readCommand_outputCommand {name : Text} (h : IsChartName name) :
    readCommand (outputCommand name) = .setOutput (chart name) := by
  have hlength (start dir png close : Text) (hstart : start.length = 12) (hdir : dir.length = 18)
      (hpng : png.length = 4) (hclose : close.length = 1) :
      (start ++ (dir ++ name ++ png) ++ close).length ≤ 149 := by
    have hle := h.length_le
    simp only [List.length_append]
    omega
  have hquote : '\x22' ∉ chart name := by
    intro hmem
    rcases List.mem_append.mp hmem with hmem | hmem
    · rcases List.mem_append.mp hmem with hmem | hmem
      · exact absurd hmem (by decide)
      · exact h.not_quote hmem
    · exact absurd hmem (by decide)
  have hend : "\x22".toList = ['\x22'] := rfl
  have hfit : ("set output \x22".toList ++ chart name ++ "\x22".toList).length ≤ 149 :=
    hlength _ _ _ _ (by decide) (by decide) (by decide) (by decide)
  rw [outputCommand, List.take_of_length_le hfit, hend]
  exact readCommand_setOutput hquote []

/-- What there is of a picture in the end: as long as the table has space for all its curves, the
picture, and an empty file otherwise. -/
def figure (settings : List Text) (curves : List Curve) : List Picture :=
  if curves.length < GP_MAX_TMP_FILES then [⟨settings, curves⟩] else []

/-- These curves have been plotted, as far as there was space for them. -/
structure Drawn (image : Text) (settings : List Text) (style : Text) (curves : List Curve)
    (a : Alone) : Prop where
  drawing : ∃ output, Drawing output settings style (curves.take (GP_MAX_TMP_FILES - 1)) a
  images_eq : curves ≠ [] → a.images image = figure settings curves

/-- Another line, with its `set output` in front. -/
theorem Drawn.line {name : Text} (hname : IsChartName name)
    (h : Drawn (chart name) settings style curves a) {points : List (α × α)} (hpoints : points ≠ [])
    {title : Text} (htitle : '\x22' ∉ title)
    (hmakes : Makes e18 [.cmd (outputCommand name), .plot_xy points (some title)] a a') :
    Drawn (chart name) settings style (curves ++ [curveOf e18 points title style]) a' := by
  cases hmakes with
  | cons _ hset hmakes =>
  cases hmakes with
  | cons htmp hplot hmakes =>
  cases hmakes
  obtain ⟨output, hdrawing⟩ := h.drawing
  obtain ⟨h₁, himages₁⟩ := hdrawing.setOutput (readCommand_outputCommand hname) hset
  obtain ⟨name', rfl⟩ := Option.isSome_iff_exists.mp (htmp points (some title) rfl)
  have hlength : (curves ++ [curveOf e18 points title style]).length = curves.length + 1 :=
    List.length_append
  by_cases hspace : curves.length < GP_MAX_TMP_FILES - 1
  · have hall : curves.take (GP_MAX_TMP_FILES - 1) = curves := List.take_of_length_le hspace.le
    have hall' : (curves ++ [curveOf e18 points title style]).take (GP_MAX_TMP_FILES - 1)
        = curves ++ [curveOf e18 points title style] := List.take_of_length_le (by omega)
    rw [hall] at h₁
    obtain ⟨h₂, himages₂⟩ := h₁.plot_xy hspace hpoints htitle hplot
    refine ⟨⟨_, by rw [hall']; exact h₂⟩, fun _ => ?_⟩
    rw [himages₂, himages₁, Function.update_self, Function.update_self, figure,
      if_pos (by omega), List.nil_append]
  · have hall : (curves ++ [curveOf e18 points title style]).take (GP_MAX_TMP_FILES - 1)
        = curves.take (GP_MAX_TMP_FILES - 1) :=
      List.take_append_of_le_length (Nat.le_of_not_lt hspace)
    have hfull : (curves.take (GP_MAX_TMP_FILES - 1)).length = GP_MAX_TMP_FILES - 1 := by
      rw [List.length_take, min_eq_left (Nat.le_of_not_lt hspace)]
    obtain ⟨h₂, himages₂⟩ := h₁.plot_xy_full hfull hplot
    refine ⟨⟨_, by rw [hall]; exact h₂⟩, fun _ => ?_⟩
    rw [himages₂, himages₁, Function.update_self, figure, if_neg (by omega)]

/-- A line that can be plotted. -/
def IsLine (line : Text × List (α × α)) : Prop := line.2 ≠ [] ∧ '\x22' ∉ line.1

theorem Drawn.plotLines {name : Text} (hname : IsChartName name)
    {lines : List (Text × List (α × α))} (hlines : ∀ line ∈ lines, IsLine line)
    (h : Drawn (chart name) settings style curves a)
    (hmakes : Makes e18 (plotLines name lines) a a') :
    Drawn (chart name) settings style
      (curves ++ lines.map fun line => curveOf e18 line.2 line.1 style) a' := by
  induction lines generalizing curves a with
  | nil =>
    cases hmakes
    rw [List.map_nil, List.append_nil]
    exact h
  | cons line lines ih =>
    obtain ⟨⟨hpoints, htitle⟩, hlines⟩ := List.forall_mem_cons.mp hlines
    have hsplit : Makes e18 ([.cmd (outputCommand name), .plot_xy line.2 (some line.1)]
        ++ OfcBenchmark.plotLines name lines) a a' := hmakes
    obtain ⟨a₁, hfirst, hrest⟩ := hsplit.of_append
    have h' := ih hlines (h.line hname hpoints htitle hfirst) hrest
    rwa [List.append_assoc] at h'

/-! ## Results -/

/-- What `parseResults` plots: two series of bars and two of marks, with their titles. -/
structure ResultsSeries (α : Type) where
  max : Text × List (α × α)
  min : Text × List (α × α)
  avg : Text × List (α × α)
  stdDev : Text × List (α × α)

/-- Its calls. -/
def ResultsSeries.calls (name : Text) (r : ResultsSeries α) : List (PlotCall α) :=
  [.setstyle "impulses".toList, .cmd (outputCommand name), .plot_xy r.max.2 (some r.max.1),
    .plot_xy r.min.2 (some r.min.1), .setstyle "points".toList, .cmd "set pointsize 2".toList,
    .cmd (outputCommand name), .plot_xy r.avg.2 (some r.avg.1), .setstyle "points".toList,
    .cmd (outputCommand name), .plot_xy r.stdDev.2 (some r.stdDev.1)]

/-- All of them can be plotted. -/
def ResultsSeries.AreLines (r : ResultsSeries α) : Prop :=
  IsLine r.max ∧ IsLine r.min ∧ IsLine r.avg ∧ IsLine r.stdDev

variable (e18) in
/-- The picture with all four. -/
def ResultsSeries.picture (settings : List Text) (r : ResultsSeries α) : Picture :=
  ⟨settings ++ ["set pointsize 2".toList],
    [curveOf e18 r.max.2 r.max.1 "impulses".toList, curveOf e18 r.min.2 r.min.1 "impulses".toList,
      curveOf e18 r.avg.2 r.avg.1 "points".toList,
      curveOf e18 r.stdDev.2 r.stdDev.1 "points".toList]⟩

/-- The pictures that were drawn before the last `set output` are gone. -/
theorem Drawing.results {name : Text} {r : ResultsSeries α} (hname : IsChartName name)
    (hlines : r.AreLines) (h : Drawing output settings style [] a)
    (hmakes : Makes e18 (r.calls name) a a') :
    a'.images (chart name) = [r.picture e18 settings] := by
  have hread := readCommand_outputCommand hname
  obtain ⟨⟨hmax, hmax'⟩, ⟨hmin, hmin'⟩, ⟨havg, havg'⟩, hstd, hstd'⟩ := hlines
  cases hmakes with
  | cons _ hcall₁ hmakes =>
  cases hmakes with
  | cons _ hcall₂ hmakes =>
  cases hmakes with
  | cons htmp₃ hcall₃ hmakes =>
  cases hmakes with
  | cons htmp₄ hcall₄ hmakes =>
  cases hmakes with
  | cons _ hcall₅ hmakes =>
  cases hmakes with
  | cons _ hcall₆ hmakes =>
  cases hmakes with
  | cons _ hcall₇ hmakes =>
  cases hmakes with
  | cons htmp₈ hcall₈ hmakes =>
  cases hmakes with
  | cons _ hcall₉ hmakes =>
  cases hmakes with
  | cons _ hcall₁₀ hmakes =>
  cases hmakes with
  | cons htmp₁₁ hcall₁₁ hmakes =>
  cases hmakes
  obtain ⟨name₃, rfl⟩ := Option.isSome_iff_exists.mp (htmp₃ _ _ rfl)
  obtain ⟨name₄, rfl⟩ := Option.isSome_iff_exists.mp (htmp₄ _ _ rfl)
  obtain ⟨name₈, rfl⟩ := Option.isSome_iff_exists.mp (htmp₈ _ _ rfl)
  obtain ⟨name₁₁, rfl⟩ := Option.isSome_iff_exists.mp (htmp₁₁ _ _ rfl)
  have hdrawing := (h.setstyle (by decide) hcall₁).1
  have hdrawing := (hdrawing.setOutput hread hcall₂).1
  have hdrawing := (hdrawing.plot_xy (by decide) hmax hmax' hcall₃).1
  have hdrawing := (hdrawing.plot_xy (by simp; decide) hmin hmin' hcall₄).1
  have hdrawing := (hdrawing.setstyle (by decide) hcall₅).1
  have hdrawing := (hdrawing.setting rfl rfl hcall₆).1
  have hdrawing := (hdrawing.setOutput hread hcall₇).1
  have hdrawing := (hdrawing.plot_xy (by simp; decide) havg havg' hcall₈).1
  have hdrawing := (hdrawing.setstyle (by decide) hcall₉).1
  obtain ⟨hdrawing, himages⟩ := hdrawing.setOutput hread hcall₁₀
  rw [(hdrawing.plot_xy (by simp; decide) hstd hstd' hcall₁₁).2, himages, Function.update_self,
    Function.update_self]
  rfl

/-! ## In a run with other sessions -/

section Runs

variable {ι : Type} [DecidableEq ι]

variable (e18) in
/-- A run from the beginning of all sessions on, in which session `i` makes these calls and is
closed. Whenever it plots something, `mkstemp` finds a name. No other session has the same
picture. -/
structure PlotsIn (name : Text) (calls : List (PlotCall α)) (i : ι) (d : Desk ι)
    (history : List (Transition (Desk ι) (DeskEvent ι α))) (d' : Desk ι) : Prop where
  start : d.Fresh
  run : Run (DeskStep e18) d history d'
  closed : d'.sessions i = .closed
  calls_eq : (callsOf i history).map Prod.fst = calls
  answered : ∀ c ∈ callsOf i history, ∀ points title, c.1 = .plot_xy points title →
    c.2.isSome = true
  others : ∀ t ∈ history, NotOthers i (chart name) t

variable {name : Text} {calls : List (PlotCall α)} {i : ι} {d d' : Desk ι}
  {history : List (Transition (Desk ι) (DeskEvent ι α))}

theorem PlotsIn.makes (h : PlotsIn e18 name calls i d history d') (hplain : ∀ c ∈ calls, c.Plain)
    (hreset : ResetsFirst calls) : ∃ a, Makes e18 calls ⟨fun _ => none, d.images, gnuplot_init⟩ a ∧
      d'.images (chart name) = a.images (chart name) := by
  have hcalls := h.calls_eq
  obtain ⟨a, halone, himages⟩ := pictures_as_alone h.start h.run i (chart name)
    (fun c hc => hplain c.1 (hcalls ▸ List.mem_map_of_mem hc)) (hcalls ▸ hreset) h.others h.closed
  exact ⟨a, hcalls ▸ makes_of_foldlM h.answered halone, himages⟩

theorem resetsFirst_start (g : GraphHeader) (hcalls : PlotCall.resetplot ∉ calls) :
    ResetsFirst (startCalls g ++ calls) := by
  intro before after heq
  have hsplit : startCalls g ++ calls = [.set_ylabel g.ylabel, .set_xlabel g.xlabel]
      ++ .resetplot :: ((startCalls g).drop 3 ++ calls) := rfl
  have hrest : PlotCall.resetplot ∉ (startCalls g : List (PlotCall α)).drop 3 ++ calls := by
    intro hmem
    rcases List.mem_append.mp hmem with hmem | hmem
    · simp [startCalls] at hmem
    · exact hcalls hmem
  have hbefore := ((List.append_cons_inj_of_notMem (by simp) hrest).mp (hsplit.symm.trans heq)).1
  rw [← hbefore]
  simp

theorem plain_start (g : GraphHeader) : ∀ c ∈ (startCalls g : List (PlotCall α)), c.Plain := by
  simp only [startCalls, List.forall_mem_cons]
  exact ⟨trivial, trivial, trivial, rfl, rfl, rfl, rfl, fun _ hc => absurd hc List.not_mem_nil⟩

theorem plain_outputCommand (hname : IsChartName name) :
    (PlotCall.cmd (outputCommand name) : PlotCall α).Plain := by
  show (readCommand (outputCommand name)).line = none
  rw [readCommand_outputCommand hname]
  rfl

theorem plain_settings {texts : List Text} (h : ∀ text ∈ texts, readCommand text = .setting text) :
    ∀ c ∈ texts.map (PlotCall.cmd (α := α)), c.Plain := by
  intro c hc
  obtain ⟨text, htext, rfl⟩ := List.mem_map.mp hc
  show (readCommand text).line = none
  rw [h text htext]
  rfl

/-- The settings in front of the calls of a plot. -/
theorem plain_settingsFirst {texts : List Text}
    (h : ∀ text ∈ texts, readCommand text = .setting text) (g : GraphHeader)
    (hcalls : ∀ c ∈ calls, c.Plain) :
    ∀ c ∈ startCalls g ++ (texts.map PlotCall.cmd ++ calls), c.Plain := by
  intro c hc
  rcases List.mem_append.mp hc with hc | hc
  · exact plain_start g c hc
  rcases List.mem_append.mp hc with hc | hc
  · exact plain_settings h c hc
  · exact hcalls c hc

theorem resetsFirst_settingsFirst (g : GraphHeader) (texts : List Text)
    (hcalls : PlotCall.resetplot ∉ calls) :
    ResetsFirst (startCalls g ++ (texts.map PlotCall.cmd ++ calls)) := by
  refine resetsFirst_start g fun hmem => ?_
  rcases List.mem_append.mp hmem with hmem | hmem
  · obtain ⟨text, -, htext⟩ := List.mem_map.mp hmem
    cases htext
  · exact hcalls hmem

theorem mem_plotLines {lines : List (Text × List (α × α))} {c : PlotCall α}
    (h : c ∈ plotLines name lines) :
    c = .cmd (outputCommand name) ∨ ∃ points title, c = .plot_xy points title := by
  obtain ⟨line, -, hc⟩ := List.mem_flatMap.mp h
  rcases List.mem_cons.mp hc with hc | hc
  · exact .inl hc
  · exact .inr ⟨_, _, List.mem_singleton.mp hc⟩

/-- The calls of `plotGraph` for lines. -/
def lineCalls (g : GraphHeader) (extra : List Text) (name : Text)
    (lines : List (Text × List (α × α))) : List (PlotCall α) :=
  startCalls g ++ (extra.map PlotCall.cmd ++ .setstyle "lines".toList :: plotLines name lines)

/-- The picture has all lines, up to 63 of them. With more lines it is empty. -/
theorem figure_of_lines {g : GraphHeader} {extra : List Text}
    (hextra : ∀ text ∈ extra, readCommand text = .setting text) (hname : IsChartName name)
    {lines : List (Text × List (α × α))} (hlines : ∀ line ∈ lines, IsLine line) (hne : lines ≠ [])
    (h : PlotsIn e18 name (lineCalls g extra name lines) i d history d') :
    d'.images (chart name) = figure (startSettings g ++ extra)
      (lines.map fun line => curveOf e18 line.2 line.1 "lines".toList) := by
  have hplain : ∀ c ∈ lineCalls g extra name lines, c.Plain := by
    refine plain_settingsFirst hextra g fun c hc => ?_
    rcases List.mem_cons.mp hc with rfl | hc
    · trivial
    rcases mem_plotLines hc with rfl | ⟨points, title, rfl⟩
    · exact plain_outputCommand hname
    · trivial
  have hreset : ResetsFirst (lineCalls g extra name lines) := by
    refine resetsFirst_settingsFirst g extra fun hmem => ?_
    rcases List.mem_cons.mp hmem with hmem | hmem
    · cases hmem
    rcases mem_plotLines hmem with hmem | ⟨points, title, hmem⟩ <;> cases hmem
  obtain ⟨a, hmakes, himages⟩ := h.makes hplain hreset
  obtain ⟨a₁, hfirst, hmakes⟩ := hmakes.of_append
  obtain ⟨a₂, hsettings, hmakes⟩ := hmakes.of_append
  obtain ⟨hdrawing₁, -⟩ := hfirst.start
  obtain ⟨hdrawing₂, -⟩ := Makes.cmds extra hextra hdrawing₁ hsettings
  cases hmakes with
  | cons _ hstyle hplot =>
    obtain ⟨hdrawing₃, -⟩ := hdrawing₂.setstyle (by decide) hstyle
    have hempty : Drawn (chart name) (startSettings g ++ extra) "lines".toList [] _ :=
      ⟨⟨_, hdrawing₃⟩, fun hnil => absurd rfl hnil⟩
    have hdrawn := hempty.plotLines hname hlines hplot
    rw [himages, hdrawn.images_eq fun hnil => hne (List.map_eq_nil_iff.mp hnil), List.nil_append]

end Runs

/-! ## Programs have runs -/

/-- One session, in the middle of its calls. -/
def Alone.desk (a : Alone) : Desk Unit := ⟨a.files, a.images, fun _ => .running a.session⟩

theorem Alone.set_desk (a : Alone) (files : Files) (images : Images) (stage : Stage) :
    ({ a.desk with files := files, images := images } : Desk Unit).set () stage
      = ⟨files, images, fun _ => stage⟩ :=
  congrArg (Desk.mk files images) (funext fun _ => Function.update_self ..)

variable (e18) in
/-- The plotter reads all there is. -/
theorem exists_reads (files : Files) (images : Images) (ctrl : GnuplotCtrl) (pipe : List Text)
    (plotter : Plotter.State) : ∃ history : List (Transition (Desk Unit) (DeskEvent Unit α)),
      Run (DeskStep e18) (Alone.desk ⟨files, images, ⟨ctrl, pipe, plotter⟩⟩) history
        (Alone.desk ⟨files, drain files pipe plotter images, ⟨ctrl, [], plotter.afterAll pipe⟩⟩) ∧
      callsOf () history = [] := by
  induction pipe generalizing images plotter with
  | nil => exact ⟨[], .nil _, rfl⟩
  | cons text pipe ih =>
    obtain ⟨history, hrun, hcalls⟩ :=
      ih ((plotter.after text).draw files (readCommand text) images) (plotter.after text)
    refine ⟨⟨_, .read (), _⟩ :: history, .cons ?_ hrun, hcalls⟩
    exact congrArg some (Alone.set_desk _ _ _ _)

/-- What a session can do on its own it can do on a desk. -/
theorem exists_calls {calls : List (PlotCall α × Option TmpName)} {a a' : Alone}
    (h : calls.foldlM (Alone.call e18) a = some a') :
    ∃ history, Run (DeskStep e18) a.desk history a'.desk ∧ callsOf () history = calls := by
  induction calls generalizing a with
  | nil =>
    cases h
    exact ⟨[], .nil _, rfl⟩
  | cons c calls ih =>
    obtain ⟨a₁, hfirst, hrest⟩ := Option.bind_eq_some_iff.mp h
    obtain ⟨history, hrun, hcalls⟩ := ih hrest
    obtain ⟨⟨files, s⟩, hcall, rfl⟩ := Option.map_eq_some_iff.mp hfirst
    obtain ⟨reads, hreads, hnone⟩ :=
      exists_reads e18 files a.images s.ctrl s.pipe s.plotter
    have hstep : DeskStep e18 a.desk (.call () c.1 c.2) (Alone.desk ⟨files, a.images, s⟩) := by
      show (c.1.run e18 c.2 a.files a.session).map _ = _
      rw [hcall]
      exact congrArg some (Alone.set_desk a _ _ _)
    refine ⟨⟨_, .call () c.1 c.2, _⟩ :: (reads ++ history), .cons hstep (hreads.append hrun), ?_⟩
    show c :: callsOf () (reads ++ history) = c :: calls
    rw [callsOf_append, hnone, hcalls, List.nil_append]

/-- Its plotter has read everything. -/
theorem pipe_of_calls {calls : List (PlotCall α × Option TmpName)} {a a' : Alone}
    (h : calls.foldlM (Alone.call e18) a = some a') (hpipe : a.session.pipe = []) :
    a'.session.pipe = [] := by
  induction calls generalizing a with
  | nil =>
    cases h
    exact hpipe
  | cons c calls ih =>
    obtain ⟨a₁, hfirst, hrest⟩ := Option.bind_eq_some_iff.mp h
    obtain ⟨r, -, rfl⟩ := Option.map_eq_some_iff.mp hfirst
    exact ih hrest rfl

/-- There is a run with these calls whenever a session can make them on its own. -/
theorem exists_plotsIn {name : Text} {calls : List (PlotCall α × Option TmpName)} {images : Images}
    {a : Alone} (h : alone e18 calls images = some a)
    (hanswered : ∀ c ∈ calls, ∀ points title, c.1 = .plot_xy points title → c.2.isSome = true) :
    ∃ history d', PlotsIn e18 name (calls.map Prod.fst) ()
      ⟨fun _ => none, images, fun _ => .notYet⟩ history d' := by
  obtain ⟨history, hrun, hcalls⟩ := exists_calls h
  let d : Desk Unit := ⟨fun _ => none, images, fun _ => .notYet⟩
  have hinit : DeskStep e18 d (.init ()) (Alone.desk ⟨fun _ => none, images, gnuplot_init⟩) :=
    congrArg some (congrArg (Desk.mk _ _) (funext fun _ => Function.update_self ..))
  have hfresh : d.Fresh := fun _ => rfl
  have hok := (deskOk_run hfresh (.cons hinit hrun)).ok () a.session rfl
  have hclose : DeskStep e18 a.desk (.close () true)
      ⟨without a.files a.session.ctrl a.session.ctrl.ntmp, a.images, fun _ => .closed⟩ := by
    show (gnuplot_close a.files a.session).map _ = _
    rw [gnuplot_close, if_pos (pipe_of_calls h rfl), removeAll_eq a.files hok]
    exact congrArg some (Alone.set_desk a _ _ _)
  refine ⟨⟨_, .init (), _⟩ :: (history ++ [⟨_, .close () true, _⟩]), _, hfresh,
    .cons hinit (hrun.append (.single hclose)), rfl, ?_, ?_, fun _ _ _ _ _ hne => absurd rfl hne⟩
  · show (callsOf () (history ++ [_])).map Prod.fst = _
    rw [callsOf_append, hcalls]
    exact congrArg _ (List.append_nil calls)
  · show ∀ c ∈ callsOf () (history ++ [_]), _
    rw [callsOf_append, hcalls]
    exact fun c hc => hanswered c ((List.append_nil calls) ▸ hc)

/-! ## Names for all calls -/

/-- A name with the bits of `k`. -/
def bitsName (k : ℕ) : TmpName where
  suffix := (List.range 6).map fun j => if k.testBit j then 'b' else 'a'
  length_suffix := by rw [List.length_map, List.length_range]
  isAlphanum := by
    intro c hc
    obtain ⟨j, -, rfl⟩ := List.mem_map.mp hc
    split <;> rfl

theorem bitsName_inj {k l : ℕ} (hk : k < GP_MAX_TMP_FILES) (hl : l < GP_MAX_TMP_FILES)
    (h : bitsName k = bitsName l) : k = l := by
  have hbits : (List.range 6).map (fun j => if k.testBit j then 'b' else 'a')
      = (List.range 6).map fun j => if l.testBit j then 'b' else 'a' := congrArg TmpName.suffix h
  refine Nat.eq_of_testBit_eq fun j => ?_
  rcases Nat.lt_or_ge j 6 with hlt | hge
  · have hchar := List.map_inj_left.mp hbits j (List.mem_range.mpr hlt)
    revert hchar
    cases k.testBit j <;> cases l.testBit j <;> decide
  · have hle : 2 ^ 6 ≤ 2 ^ j := Nat.pow_le_pow_right (by decide) hge
    rw [Nat.testBit_lt_two_pow (lt_of_lt_of_le hk hle),
      Nat.testBit_lt_two_pow (lt_of_lt_of_le hl hle)]

/-- The file at each place of the table has the name with this number, and the other names are
free. -/
structure Alone.Numbered (a : Alone) : Prop where
  ntmp_lt : a.session.ctrl.ntmp < GP_MAX_TMP_FILES
  tbl_eq : ∀ k : Fin GP_MAX_TMP_FILES,
    a.session.ctrl.tmp_filename_tbl k = if k < a.session.ctrl.ntmp then some (bitsName k) else none
  free : ∀ k < GP_MAX_TMP_FILES, a.session.ctrl.ntmp ≤ k → a.files (bitsName k).text = none

theorem Alone.Numbered.ok (h : a.Numbered) : a.session.ctrl.Ok where
  ntmp_lt := h.ntmp_lt
  isSome_iff := fun k => by
    rw [h.tbl_eq]
    split <;> simp [*]

variable (e18) in
/-- The next name is free, whatever the call. -/
theorem Alone.Numbered.exists_call (h : a.Numbered) (call : PlotCall α) :
    ∃ a', a.call e18 (call, some (bitsName a.session.ctrl.ntmp)) = some a' ∧ a'.Numbered := by
  obtain ⟨files, images, ⟨ctrl, pipe, plotter⟩⟩ := a
  have hok := h.ok
  obtain ⟨hlt, htbl, hfree⟩ := h
  dsimp only at hok hlt htbl hfree ⊢
  cases callSpec e18 call (some (bitsName ctrl.ntmp)) hok with
  | keep h' texts run_eq tbl_eq ntmp_eq _ =>
    refine ⟨_, by rw [Alone.call, run_eq, Option.map_some], ?_, fun k => ?_, ?_⟩
    · exact ntmp_eq ▸ hlt
    · dsimp only
      rw [tbl_eq, ntmp_eq]
      exact htbl k
    · exact ntmp_eq ▸ hfree
  | reset _ h' run_eq tbl_eq ntmp_eq =>
    refine ⟨_, by rw [Alone.call, run_eq, Option.map_some], ?_, fun k => ?_, fun k hk _ => ?_⟩
    · exact ntmp_eq ▸ Nat.succ_pos 63
    · dsimp only
      rw [tbl_eq, ntmp_eq, if_neg (Nat.not_lt_zero _)]
    · dsimp only
      rw [without]
      split
      case isTrue => rfl
      case isFalse hout =>
        -- a name of the table would have been removed
        refine hfree k hk (Nat.le_of_not_lt fun hin => hout ⟨⟨k, hk⟩, hin, ?_⟩)
        rw [htbl, if_pos hin]
        rfl
  | add name data title h' tmp_eq lt run_eq tbl_eq ntmp_eq =>
    cases tmp_eq
    have hnext : files (bitsName ctrl.ntmp).text = none := hfree ctrl.ntmp hlt le_rfl
    refine ⟨_, by rw [Alone.call, run_eq, if_pos hnext, Option.map_some], ?_, fun k => ?_,
      fun k hk hle => ?_⟩
    · exact ntmp_eq ▸ lt
    · dsimp only
      rw [tbl_eq, ntmp_eq, Function.update_apply, htbl]
      by_cases hk : k = ⟨ctrl.ntmp, hlt⟩
      · rw [if_pos hk, hk, if_pos (Nat.lt_succ_self _)]
      · have hne : (k : ℕ) ≠ ctrl.ntmp := fun heq => hk (Fin.ext heq)
        have hiff : (k : ℕ) < ctrl.ntmp ↔ (k : ℕ) < ctrl.ntmp + 1 := by omega
        rw [if_neg hk]
        simp only [hiff]
    · dsimp only at hle ⊢
      rw [ntmp_eq] at hle
      have hne : (bitsName k).text ≠ (bitsName ctrl.ntmp).text := fun heq =>
        absurd (bitsName_inj hk hlt (TmpName.text_injective heq)) (by omega)
      rw [Function.update_of_ne hne]
      exact hfree k hk (by omega)

variable (e18) in
theorem exists_answers (calls : List (PlotCall α)) (h : a.Numbered) :
    ∃ (answered : List (PlotCall α × Option TmpName)) (a' : Alone),
      answered.map Prod.fst = calls ∧ (∀ c ∈ answered, c.2.isSome = true) ∧
        answered.foldlM (Alone.call e18) a = some a' := by
  induction calls generalizing a with
  | nil => exact ⟨[], a, rfl, fun _ hc => absurd hc List.not_mem_nil, rfl⟩
  | cons call calls ih =>
    obtain ⟨a₁, hcall, h₁⟩ := h.exists_call e18 call
    obtain ⟨answered, a', rfl, hsome, hrest⟩ := ih h₁
    refine ⟨(call, some (bitsName a.session.ctrl.ntmp)) :: answered, a', rfl,
      List.forall_mem_cons.mpr ⟨rfl, hsome⟩, ?_⟩
    rw [List.foldlM_cons, hcall]
    exact hrest

variable (e18) in
/-- A session can make any calls. -/
theorem exists_chart (name : Text) (calls : List (PlotCall α)) :
    ∃ (d : Desk Unit) (history : _) (d' : Desk Unit), PlotsIn e18 name calls () d history d' := by
  have hinit : Alone.Numbered ⟨fun _ => none, fun _ => [], gnuplot_init⟩ :=
    ⟨Nat.succ_pos 63, fun _ => (if_neg (Nat.not_lt_zero _)).symm, fun _ _ _ => rfl⟩
  obtain ⟨answered, a, rfl, hsome, ha⟩ := exists_answers e18 calls hinit
  obtain ⟨history, d', hplots⟩ := exists_plotsIn ha fun c hc _ _ _ => hsome c hc
  exact ⟨_, history, d', hplots⟩

end Gnuplot

end OfcBenchmark
