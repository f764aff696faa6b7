import OfcBenchmark.Lib.Plotter
import OfcBenchmark.Lib.Runs

/-!
# Sessions with the plotter

`gnuplot_i.c`, as far as the program uses it. A session writes its commands to a pipe and the
points to temporary files; the plotter at the other end of the pipe reads both when it gets to
it. Several threads have a session at a time, each with a plotter of its own. They share the
files.

`fprintf` with `%.18e` is a parameter. What the system answers is an argument of the event: the
name that `mkstemp` has found, and whether `pclose` succeeds. `malloc` and `popen` do not fail.
-/

namespace OfcBenchmark
open Printf Plotter Runs

namespace Gnuplot

/-! ## A session -/

/-- `GP_MAX_TMP_FILES`. -/
def GP_MAX_TMP_FILES : ℕ := 64

/-- `tmp_filename_template`, without the characters that `mkstemp` replaces. -/
def tmp_filename_template : Text := "../tmp/gnuplot_tmpdatafile_".toList

/-- A name that `mkstemp` can make of the template. -/
structure TmpName where
  suffix : Text
  length_suffix : suffix.length = 6
  isAlphanum : ∀ c ∈ suffix, c.isAlphanum = true
deriving DecidableEq

/-- The whole name. -/
def TmpName.text (name : TmpName) : Text := tmp_filename_template ++ name.suffix

/-- `gnuplot_ctrl`, but for the pipe. -/
structure GnuplotCtrl where
  nplots : ℕ
  pstyle : Text
  tmp_filename_tbl : Fin GP_MAX_TMP_FILES → Option TmpName
  ntmp : ℕ

/-- A session: its handle, what is in the pipe, and the plotter. -/
structure Session where
  ctrl : GnuplotCtrl
  pipe : List Text
  plotter : Plotter.State

/-- The styles that `gnuplot_setstyle` knows. -/
def styles : List Text :=
  ["lines".toList, "points".toList, "linespoints".toList, "impulses".toList, "dots".toList,
    "steps".toList, "errorbars".toList, "boxes".toList, "boxerrorbars".toList]

/-- `gnuplot_setstyle`. -/
def gnuplot_setstyle (h : GnuplotCtrl) (plot_style : Text) : GnuplotCtrl :=
  { h with pstyle := if plot_style ∈ styles then plot_style else "points".toList }

/-- `gnuplot_init`. -/
def gnuplot_init : Session where
  ctrl := gnuplot_setstyle ⟨0, [], fun _ => none, 0⟩ "points".toList
  pipe := []
  plotter := .start

/-- `gnuplot_cmd`, with the text that is printed. -/
def gnuplot_cmd (s : Session) (text : Text) : Session := { s with pipe := s.pipe ++ [text] }

/-- `gnuplot_set_xlabel`. -/
def gnuplot_set_xlabel (s : Session) (label : Text) : Session :=
  gnuplot_cmd s ("set xlabel \x22".toList ++ label ++ "\x22".toList)

/-- `gnuplot_set_ylabel`. -/
def gnuplot_set_ylabel (s : Session) (label : Text) : Session :=
  gnuplot_cmd s ("set ylabel \x22".toList ++ label ++ "\x22".toList)

/-! ## Temporary files -/

/-- A turn of the loop in `gnuplot_resetplot` and `gnuplot_close` over the temporary files. -/
def removeTmp (r : Files × GnuplotCtrl) (i : ℕ) : Option (Files × GnuplotCtrl) :=
  if hi : i < GP_MAX_TMP_FILES then
    (r.2.tmp_filename_tbl ⟨i, hi⟩).map fun name =>
      (Function.update r.1 name.text none,
        { r.2 with tmp_filename_tbl := Function.update r.2.tmp_filename_tbl ⟨i, hi⟩ none })
  else none

/-- The loop. -/
def removeAll (files : Files) (h : GnuplotCtrl) : Option (Files × GnuplotCtrl) :=
  (List.range h.ntmp).foldlM removeTmp (files, h)

/-- `gnuplot_resetplot`. -/
def gnuplot_resetplot (files : Files) (s : Session) : Option (Files × Session) :=
  (removeAll files s.ctrl).map fun r =>
    (r.1, { s with ctrl := { r.2 with ntmp := 0, nplots := 0 } })

/-- `gnuplot_close`, where `pclose` succeeds. It returns when the plotter has read all there is. -/
def gnuplot_close (files : Files) (s : Session) : Option Files :=
  if s.pipe = [] then (removeAll files s.ctrl).map Prod.fst else none

/-- `gnuplot_tmpfile`. The name it returns is that of an empty file, which was not there before.
`tmp` is what `mkstemp` answers, if it comes to that. -/
def gnuplot_tmpfile (tmp : Option TmpName) (files : Files) (h : GnuplotCtrl) :
    Option (Option TmpName × Files × GnuplotCtrl) :=
  if hi : h.ntmp < GP_MAX_TMP_FILES then
    -- the assertion
    if h.tmp_filename_tbl ⟨h.ntmp, hi⟩ = none then
      if h.ntmp = GP_MAX_TMP_FILES - 1 then some (none, files, h)
      else
        match tmp with
        | none => some (none, files, h)
        | some name =>
          if files name.text = none then
            some (some name, Function.update files name.text (some []),
              { h with tmp_filename_tbl :=
                         Function.update h.tmp_filename_tbl ⟨h.ntmp, hi⟩ (some name)
                       ntmp := h.ntmp + 1 })
          else none
    else none
  else none

/-- `gnuplot_plot_atmpfile`. -/
def gnuplot_plot_atmpfile (s : Session) (tmp_filename : Text) (title : Option Text) : Session :=
  let cmd := if s.ctrl.nplots > 0 then "replot ".toList else "plot ".toList
  let line : Line := ⟨tmp_filename, title.getD "(none)".toList, s.ctrl.pstyle⟩
  let s := gnuplot_cmd s (cmd ++ line.text)
  { s with ctrl := { s.ctrl with nplots := s.ctrl.nplots + 1 } }

section Points

variable {α : Type} (e18 : α → Text)

/-- What `gnuplot_plot_xy` writes to a file. -/
def pointsData (points : List (α × α)) : Text :=
  points.flatMap fun p => e18 p.1 ++ ' ' :: e18 p.2 ++ ['\n']

/-- `gnuplot_plot_xy`, with the points of which `x` and `y` are the coordinates. `fopen` with a
null pointer fails; the other files have just been made. -/
def gnuplot_plot_xy (tmp : Option TmpName) (files : Files) (s : Session) (points : List (α × α))
    (title : Option Text) : Option (Files × Session) :=
  if points.length < 1 then some (files, s)
  else
    (gnuplot_tmpfile tmp files s.ctrl).map fun r =>
      match r with
      | (none, files, h) => (files, { s with ctrl := h })
      | (some name, files, h) =>
        (Function.update files name.text (some (pointsData e18 points)),
          gnuplot_plot_atmpfile { s with ctrl := h } name.text title)

/-! ## Calls -/

/-- What the program calls between `gnuplot_init` and `gnuplot_close`. -/
inductive PlotCall (α : Type)
  | setstyle (plot_style : Text)
  | cmd (text : Text)
  | set_xlabel (label : Text)
  | set_ylabel (label : Text)
  | resetplot
  | plot_xy (points : List (α × α)) (title : Option Text)

/-- The files and the session after a call. -/
def PlotCall.run (call : PlotCall α) (tmp : Option TmpName) (files : Files) (s : Session) :
    Option (Files × Session) :=
  match call with
  | .setstyle plot_style => some (files, { s with ctrl := gnuplot_setstyle s.ctrl plot_style })
  | .cmd text => some (files, gnuplot_cmd s text)
  | .set_xlabel label => some (files, gnuplot_set_xlabel s label)
  | .set_ylabel label => some (files, gnuplot_set_ylabel s label)
  | .resetplot => gnuplot_resetplot files s
  | .plot_xy points title => gnuplot_plot_xy e18 tmp files s points title

/-! ## All sessions -/

/-- Whether there is a session yet, or still. Where `pclose` has failed it is abandoned: nobody
calls it any more, but its plotter can read on. -/
inductive Stage
  | notYet
  | running (s : Session)
  | abandoned (s : Session)
  | closed

/-- The session there is. -/
def Stage.session : Stage → Option Session
  | .running s | .abandoned s => some s
  | _ => none

/-- The same stage with another session. -/
def Stage.withSession : Stage → Session → Stage
  | .running _, s => .running s
  | .abandoned _, s => .abandoned s
  | stage, _ => stage

/-- What the sessions share, and the sessions. -/
structure Desk (ι : Type) where
  files : Files
  images : Images
  sessions : ι → Stage

/-- What can happen next: a session begins, there is a call in it, its plotter reads a command,
or `gnuplot_close` is called, where `ok` tells if `pclose` succeeds. -/
inductive DeskEvent (ι α : Type)
  | init (i : ι)
  | call (i : ι) (call : PlotCall α) (tmp : Option TmpName)
  | read (i : ι)
  | close (i : ι) (ok : Bool)

variable {ι : Type} [DecidableEq ι]

/-- Replace one session. -/
def Desk.set (d : Desk ι) (i : ι) (stage : Stage) : Desk ι :=
  { d with sessions := Function.update d.sessions i stage }

/-- The desk after an event, if it can happen. -/
def runDesk (e : DeskEvent ι α) (d : Desk ι) : Option (Desk ι) :=
  match e with
  | .init i =>
    match d.sessions i with
    | .notYet => some (d.set i (.running gnuplot_init))
    | _ => none
  | .call i call tmp =>
    match d.sessions i with
    | .running s =>
      (call.run e18 tmp d.files s).map fun r => { d with files := r.1 }.set i (.running r.2)
    | _ => none
  | .read i =>
    match (d.sessions i).session with
    | some ⟨ctrl, text :: pipe, plotter⟩ =>
      let plotter := plotter.after text
      some ({ d with images := plotter.draw d.files (readCommand text) d.images }.set i
        ((d.sessions i).withSession ⟨ctrl, pipe, plotter⟩))
    | _ => none
  | .close i ok =>
    match d.sessions i with
    | .running s =>
      if ok then (gnuplot_close d.files s).map fun files => { d with files := files }.set i .closed
      else some (d.set i (.abandoned s))
    | _ => none

/-- One event. -/
def DeskStep (d : Desk ι) (e : DeskEvent ι α) (d' : Desk ι) : Prop := runDesk e18 e d = some d'

end Points

end Gnuplot

end OfcBenchmark
