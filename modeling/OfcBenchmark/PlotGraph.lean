import OfcBenchmark.Gnuplot
import OfcBenchmark.PlotArrays

/-!
# What is plotted

The calls that `plotGraph` makes in its session, with those of `parseLines`, `setXtic` and
`parseResults`, between `gnuplot_init` and `gnuplot_close`. Where one of them reads or writes
outside an array, or plots what nobody has stored, there are no calls.
-/

namespace OfcBenchmark
open Printf Gnuplot Table PlotArrays

/-- The file of a graph. -/
def chart (name : Text) : Text := "../reports/charts/".toList ++ name ++ ".png".toList

/-- The command for it, in 150 bytes. -/
def outputCommand (name : Text) : Text :=
  ("set output \x22".toList ++ chart name ++ "\x22".toList).take 149

section Calls

variable {α : Type}

/-! ## Lines -/

/-- The title and the points of each flow behind the first one, which has the x axis. -/
def linesOf (flows : List Text) (r : Parsed α) : Option (List (Text × List (α × α))) :=
  flows.zipIdx.tail.mapM fun flow => do
    let points ← (List.range r.i).mapM fun row => do
      let x ← cell r.stores row 0
      let y ← cell r.stores row flow.2
      some (x, y)
    some (flow.1, points)

/-- The loop at the end of `parseLines`. -/
def plotLines (name : Text) (lines : List (Text × List (α × α))) : List (PlotCall α) :=
  lines.flatMap fun line => [.cmd (outputCommand name), .plot_xy line.2 (some line.1)]

/-! ## Results -/

/-- The `j`-th of the points for the `z`-th row, which make a bar. -/
def impulse (fl : ℚ → ℚ) (ofRat : ℚ → α) (z j : ℕ) : α :=
  ofRat (fl (z + 1 + fl ((j - 50) * fl (5 / 10000))))

/-- The bars for these heights. -/
def bars (fl : ℚ → ℚ) (ofRat : ℚ → α) (heights : List α) : List (α × α) :=
  heights.zipIdx.flatMap fun y =>
    (List.range NPOINTS_GENERAL).map fun j => (impulse fl ofRat y.2 j, y.1)

/-- The marks for these heights. -/
def marks (ofRat : ℚ → α) (heights : List α) : List (α × α) :=
  heights.zipIdx.map fun y => (ofRat (y.2 + 1), y.1)

/-- `parseResults`: the calls for its rows, with impulses for two columns and points for two. -/
def plotResults (fl : ℚ → ℚ) (ofRat : ℚ → α) (name : Text) (flows : List Text) (r : Parsed α) :
    Option (List (PlotCall α)) := do
  let max ← flows[1]?
  let min ← flows[2]?
  let avg ← flows[3]?
  let stdDev ← flows[4]?
  some [.setstyle "impulses".toList, .cmd (outputCommand name),
    .plot_xy (bars fl ofRat (← r.column 0)) (some max),
    .plot_xy (bars fl ofRat (← r.column 1)) (some min),
    .setstyle "points".toList, .cmd "set pointsize 2".toList, .cmd (outputCommand name),
    .plot_xy (marks ofRat (← r.column 2)) (some avg),
    .setstyle "points".toList, .cmd (outputCommand name),
    .plot_xy (marks ofRat (← r.column 3)) (some stdDev)]

/-! ## The whole graph -/

/-- What `plotGraph` calls first. -/
def startCalls (h : GraphHeader) : List (PlotCall α) :=
  [.set_ylabel h.ylabel, .set_xlabel h.xlabel, .resetplot,
    .cmd "set grid xtics lc rgb \x22#bbbbbb\x22 lw 1 lt 0".toList,
    .cmd "set grid ytics lc rgb \x22#bbbbbb\x22 lw 1 lt 0".toList,
    .cmd "set key rmargin".toList, .cmd "set terminal pngcairo size 1024, 768".toList]

/-- The command for the x axis of the results, in 20 bytes. -/
def xrangeCommand (i : ℕ) : Text :=
  ("set xrange [0:".toList ++ formatInt (i + 1) ++ "]".toList).take 19

/-- The calls of `plotGraph` behind these, where this is what it has read. -/
def graphCalls (fl : ℚ → ℚ) (ofRat : ℚ → α) (type : QueueId) (name : Text) (g : Graph α) :
    Option (List (PlotCall α)) :=
  match type with
  | .values => do
    let lines ← g.parsed.mapM (linesOf g.header.flows)
    some (.setstyle "lines".toList :: plotLines name lines.flatten)
  | .snmp => do
    let lines ← g.parsed.mapM (linesOf g.header.flows)
    some (.cmd "set yrange [0:]".toList :: .setstyle "lines".toList
      :: plotLines name lines.flatten)
  | .avgs => do
    -- each body with the flow for the x axis and the next flow
    let lines ← (g.header.flows.tail.zip g.parsed).mapM fun b =>
      linesOf (g.header.flows.take 1 ++ [b.1]) b.2
    some (.setstyle "lines".toList :: plotLines name lines.flatten)
  | .results => do
    let x ← g.xtics
    let r ← g.parsed.head?
    let calls ← plotResults fl ofRat name g.header.flows r
    some (.cmd x.xtics.text :: .cmd (xrangeCommand x.length) :: calls)
  | .time => some []

/-- `plotGraph`, from the queue with the header and the bodies. -/
def plotGraphCalls (atof : Text → α) (fl : ℚ → ℚ) (ofRat : ℚ → α) (type : QueueId) (name : Text)
    (queue : List Text) : Option (List (PlotCall α)) := do
  let g ← plotArrays.plotGraph atof type queue
  let calls ← graphCalls fl ofRat type name g
  some (startCalls g.header ++ calls)

end Calls

end OfcBenchmark
