import OfcBenchmark.Lib.Table
import OfcBenchmark.Myplot

/-!
# The parsers of the plots

`plotGraph` in `myplot.c` with its scanner for headers, `setXtic`, `parseLines` and `parseResults`,
up to the calls of the plotter: with the place of each store and the end of each array. Where an
index leaves its array, a pointer is NULL, or the input ends before the scanner stops, there is no
result. The lengths of the arrays are parameters; `plotArrays` has those of the source. The numbers
are read with `atof`, of which nothing is assumed.
-/

namespace OfcBenchmark
open Printf Table

/-- `MAX_LENG`. -/
def MAX_LENG : ℕ := 100

/-- `MAX_VALUES`. -/
def MAX_VALUES : ℕ := 4

/-- `NPOINTS_GENERAL`. -/
def NPOINTS_GENERAL : ℕ := 100

/-- How long the arrays are, and the space `setXtic` tells `snprintf` there is for a name and for
a number. -/
structure PlotArrays where
  xtics : ℕ
  nameSize : ℕ
  numberSize : ℕ
  nameYaxis : ℕ
  numberText : ℕ
  x : ℕ
  text : ℕ
  plot : ℕ

/-- As they are in the source. -/
def plotArrays : PlotArrays where
  xtics := 50
  nameSize := 50
  numberSize := 10
  nameYaxis := 50 + 1
  numberText := 10
  x := MAX_LENG
  text := 30
  plot := 10000

namespace PlotArrays

/-! ## `setXtic` -/

/-- Where `setXtic` is in its input: in the name of a host, or behind it. -/
inductive XticPos
  | host (name : Text)
  | line (name : Text)

/-- What `setXtic` has made: the names it has printed, each with its number, the text in `xtics`,
the length it returns, and the input from where it has stopped. -/
structure Xtics where
  labels : List (Text × ℕ)
  xtics : Cursor
  length : ℕ
  rest : Text
deriving DecidableEq

/-- What `xtics` begins with. -/
def xticsStart : Text := "set xtics (".toList

/-- `"\"%s\""`. -/
def quoted (name : Text) : Text := '\x22' :: name ++ ['\x22']

/-- `" %d, "`, and `" %d)"` for the last one. -/
def tic (length : ℕ) (last : Bool) : Text :=
  ' ' :: formatInt length ++ if last then [')'] else [',', ' ']

section Xtic

variable (a : PlotArrays)

/-- `setXtic`, from a position in `buffer` on. -/
def setXticFrom : Cursor → ℕ → XticPos → Text → Option Xtics
  | _, _, _, [] => none
  | b, length, .host name, c :: rest =>
    if name.length < a.nameYaxis then
      if c = ',' then
        (b.snprintf a.xtics a.nameSize (quoted name)).bind fun b =>
          setXticFrom b length (.line name) rest
      else setXticFrom b length (.host (name ++ [c])) rest
    else none
  | b, length, .line name, c :: rest =>
    if c = CSV_NEWLINE then
      if rest.head? = some CSV_NEWLINE then
        (b.snprintf a.xtics a.numberSize (tic (length + 1) true)).map fun b =>
          ⟨[(name, length + 1)], b, length + 1, rest⟩
      else
        (b.snprintf a.xtics a.numberSize (tic (length + 1) false)).bind fun b =>
          (setXticFrom b (length + 1) (.host []) rest).map fun r =>
            { r with labels := (name, length + 1) :: r.labels }
    else setXticFrom b length (.line name) rest

/-- `setXtic`. -/
def setXtic (input : Text) : Option Xtics :=
  (Cursor.empty.snprintf a.xtics 20 xticsStart).bind fun b =>
    setXticFrom a b 0 (.host []) input

end Xtic

/-! ## `parseLines` -/

section Lines

variable {α : Type}

/-- What a parser has done: the stores, in this order, how many rows there were, and the input
from where it has stopped. In `parseLines` a store is to `x[row]` of the flow `column`, in
`parseResults` to `results[row][column]`. -/
structure Parsed (α : Type) where
  stores : List (Store α)
  i : ℕ
  rest : Text
deriving DecidableEq

/-- The same after a store. -/
def Parsed.after (s : Store α) (r : Parsed α) : Parsed α := { r with stores := s :: r.stores }

variable (a : PlotArrays) (atof : Text → α)

/-- `parseLines`, from a position in `input` on: there are `flows` of them, the next number is for
the flow `flow` and the row `i`, and `number` is what of it has been read, if it has begun. -/
def parseLinesFrom (flows : ℕ) : ℕ → ℕ → Option Text → Text → Option (Parsed α)
  | _, _, _, [] => none
  | flow, i, number, c :: rest =>
    if number = none ∧ c = CSV_NEWLINE then some ⟨[], i, c :: rest⟩
    else if (number.getD []).length < a.numberText then
      if c = ',' ∨ c = CSV_NEWLINE then
        if flow < flows ∧ i < a.x then
          (if c = ',' then parseLinesFrom flows (flow + 1) i none rest
            else parseLinesFrom flows 0 (i + 1) none rest).map
              (Parsed.after ⟨i, flow, atof (number.getD [])⟩)
        else none
      else parseLinesFrom flows flow i (some (number.getD [] ++ [c])) rest
    else none

/-- `parseLines`, up to the plots: each of them is of the first `i` entries of `x`. -/
def parseLines (flows : ℕ) (input : Text) : Option (Parsed α) :=
  parseLinesFrom a atof flows 0 0 none input

/-! ## `parseResults` -/

/-- Where `parseResults` is in its input: at the beginning of a line, in the name of a host, or
before the number for the column `j`, of which `text` has been read, if it has begun. -/
inductive LinePos
  | line
  | host
  | numbers (j : ℕ) (text : Option Text)

/-- `parseResults`, from a position in `input` on; `results` has `n` rows. -/
def parseResultsFrom (n : ℕ) : ℕ → LinePos → Text → Option (Parsed α)
  | _, _, [] => none
  | i, .line, c :: rest =>
    if c = CSV_NEWLINE then some ⟨[], i, c :: rest⟩
    else parseResultsFrom n i (if c = ',' then .numbers 0 none else .host) rest
  | i, .host, c :: rest =>
    parseResultsFrom n i (if c = ',' then .numbers 0 none else .host) rest
  | i, .numbers j text, c :: rest =>
    if text = none ∧ c = CSV_NEWLINE then parseResultsFrom n (i + 1) .line rest
    else if (text.getD []).length < a.text then
      if c = ',' ∨ c = CSV_NEWLINE then
        if i < n ∧ j < MAX_VALUES then
          (if c = ',' then parseResultsFrom n i (.numbers (j + 1) none) rest
            else parseResultsFrom n (i + 1) .line rest).map
              (Parsed.after ⟨i, j, atof (text.getD [])⟩)
        else none
      else parseResultsFrom n i (.numbers j (some (text.getD [] ++ [c]))) rest
    else none

/-- The `w`-th number of each row of `results`. -/
def Parsed.column (r : Parsed α) (w : ℕ) : Option (List α) :=
  (List.range r.i).mapM fun z => cell r.stores z w

/-- The indices into `x` and `y` where `i` rows are plotted, `NPOINTS_GENERAL` points each. -/
def PlotFits (i : ℕ) : Prop :=
  ∀ z < i, ∀ j < NPOINTS_GENERAL, j + z * NPOINTS_GENERAL < a.plot

instance (i : ℕ) : Decidable (a.PlotFits i) := by
  unfold PlotFits
  infer_instance

/-- `parseResults`. -/
def parseResults (n : ℕ) (input : Text) : Option (Parsed α) :=
  (parseResultsFrom a atof n 0 .line input).bind fun r => if a.PlotFits r.i then some r else none

end Lines

end PlotArrays

/-! ## The header of a graph -/

/-- What `plotGraph` makes of a header: the labels of the axes, the names of the flows, and whether
the last flow has a NULL pointer in `next`. -/
structure GraphHeader where
  xlabel : Text
  ylabel : Text
  flows : List Text
  nullTerminated : Bool
deriving DecidableEq

/-- A label, up to its comma, and what is behind it. An array for a label has 51 bytes. -/
def readLabel : Text → Text → Option (Text × Text)
  | _, [] => none
  | label, c :: rest =>
    if label.length < 50 + 1 then
      if c = ',' then some (label, rest) else readLabel (label ++ [c]) rest
    else none

/-- The names of the flows in a header, from a position in it on: `name` is the beginning of the
current one. A name has space for 29 characters. -/
def flowNames (name : Text) : Text → Option (List Text)
  | [] => none
  | c :: rest =>
    if c = ',' then
      if rest.head? = some CSV_NEWLINE then some [name, []]
      else (flowNames [] rest).map (name :: ·)
    else if 29 ≤ name.length then none
    else
      if rest.head? = some CSV_NEWLINE then some [name ++ [c]]
      else flowNames (name ++ [c]) rest

/-- The two loops of `plotGraph` over a header. A flow that is allocated at a comma has a NULL
pointer in `next`; in the first one there is what was in its memory. -/
def plotGraphHeader (header : Text) : Option GraphHeader := do
  let (xlabel, rest) ← readLabel [] header
  let (ylabel, rest) ← readLabel [] rest
  let flows ← flowNames [] rest
  some ⟨xlabel, ylabel, flows, decide (1 < flows.length)⟩

/-! ## The whole graph -/

/-- What `plotGraph` has read when it calls the plotter: the header, what `setXtic` has made, and
what the parsers have stored, body by body. -/
structure Graph (α : Type) where
  header : GraphHeader
  xtics : Option PlotArrays.Xtics
  parsed : List (PlotArrays.Parsed α)

/-- `plotGraph`, from the queue with the header and the bodies: what it reads. For AVGS each body is
parsed with the flow for the x axis and the next flow, for RESULTS four flows are plotted behind
the first one. -/
def PlotArrays.plotGraph {α : Type} (a : PlotArrays) (atof : Text → α) (type : QueueId) :
    List Text → Option (Graph α)
  | header :: body :: bodies => do
    let h ← plotGraphHeader header
    match type with
    | .values | .snmp =>
      if h.nullTerminated then
        (a.parseLines atof h.flows.length body).map fun r => ⟨h, none, [r]⟩
      else none
    | .avgs =>
      if (body :: bodies).length < h.flows.length then
        ((body :: bodies).mapM (a.parseLines atof 2)).map fun rs => ⟨h, none, rs⟩
      else none
    | .results =>
      let x ← a.setXtic body
      if MAX_VALUES < h.flows.length then
        (a.parseResults atof x.length body).map fun r => ⟨h, some x, [r]⟩
      else none
    | .time => some ⟨h, none, []⟩
  | _ => none

end OfcBenchmark
