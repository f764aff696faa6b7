import OfcBenchmark.GnuplotTheorems

/-!
# The pictures of a session

When a plotter reads its pipe makes no difference, nor what other sessions do meanwhile: in the
end the picture is the one that the session makes on its own with a plotter that reads every
command at once (`pictures_as_alone`).
-/

namespace OfcBenchmark
open Printf Plotter Runs

namespace Gnuplot

section Sessions

variable {ι α : Type} [DecidableEq ι] (e18 : α → Text)

/-! ## A session on its own -/

/-- A session, and the files and pictures that it has made. -/
structure Alone where
  files : Files
  images : Images
  session : Session

/-- It calls, and the plotter reads what there is to read. -/
def Alone.call (a : Alone) (c : PlotCall α × Option TmpName) : Option Alone :=
  (c.1.run e18 c.2 a.files a.session).map fun r =>
    { files := r.1
      images := drain r.1 r.2.pipe r.2.plotter a.images
      session := { r.2 with pipe := [], plotter := r.2.plotter.afterAll r.2.pipe } }

/-- All its calls. -/
def alone (calls : List (PlotCall α × Option TmpName)) (images : Images) : Option Alone :=
  calls.foldlM (Alone.call e18) ⟨fun _ => none, images, gnuplot_init⟩

/-- The calls of session `i` in a run, with the answers of `mkstemp`. -/
def callsOf (i : ι) (history : List (Transition (Desk ι) (DeskEvent ι α))) :
    List (PlotCall α × Option TmpName) :=
  history.filterMap fun t =>
    match t.event with
    | .call j call tmp => if j = i then some (call, tmp) else none
    | _ => none

/-- A command of the program itself is not one for a line. -/
def PlotCall.Plain : PlotCall α → Prop
  | .cmd text => (readCommand text).line = none
  | _ => True

/-- The plot is reset before anything is plotted: what there is to remove later the plotter can
still be about to read. -/
def ResetsFirst (calls : List (PlotCall α)) : Prop :=
  ∀ before after, calls = before ++ .resetplot :: after →
    ∀ call ∈ before, ∀ points title, call ≠ .plot_xy points title

theorem ResetsFirst.of_append {calls calls' : List (PlotCall α)}
    (h : ResetsFirst (calls ++ calls')) : ResetsFirst calls := by
  rintro before after rfl
  exact h before (after ++ calls') (by simp)

/-- No other session than `i` sets this picture as its output. -/
def NotOthers (i : ι) (image : Text) (t : Transition (Desk ι) (DeskEvent ι α)) : Prop :=
  ∀ j text tmp, j ≠ i → t.event = .call j (.cmd text) tmp → readCommand text ≠ .setOutput image

/-! ## What is still in the pipe -/

/-- A session does with what is in the pipe what the session on its own has done. -/
structure Follows (image : Text) (files : Files) (images : Images) (s : Session) (a : Alone) :
    Prop where
  ctrl_eq : a.session.ctrl = s.ctrl
  pipe_nil : a.session.pipe = []
  plotter_eq : s.plotter.afterAll s.pipe = a.session.plotter
  files_eq : ∀ file, s.ctrl.HasBelow s.ctrl.ntmp file → a.files file = files file
  files_none : ∀ file, ¬ s.ctrl.HasBelow s.ctrl.ntmp file → a.files file = none
  names : ∀ file, Names s.plotter s.pipe file → s.ctrl.HasBelow s.ctrl.ntmp file
  images_eq : drain files s.pipe s.plotter images image = a.images image

namespace Follows

variable {image : Text} {files files' : Files} {images images' : Images} {s : Session} {a : Alone}

/-- Nobody else has touched the files of the session, or the picture. -/
theorem frame (h : Follows image files images s a)
    (hfiles : ∀ file, s.ctrl.HasBelow s.ctrl.ntmp file → files' file = files file)
    (himages : images' image = images image) : Follows image files' images' s a where
  ctrl_eq := h.ctrl_eq
  pipe_nil := h.pipe_nil
  plotter_eq := h.plotter_eq
  files_eq := fun file hfile => (h.files_eq file hfile).trans (hfiles file hfile).symm
  files_none := h.files_none
  names := h.names
  images_eq := by
    rw [drain_congr fun file hfile => hfiles file (h.names file hfile),
      drain_images_congr files s.pipe s.plotter himages, h.images_eq]

/-- The plotter reads a command. -/
theorem read {ctrl : GnuplotCtrl} {text : Text} {pipe : List Text} {plotter : Plotter.State}
    (h : Follows image files images ⟨ctrl, text :: pipe, plotter⟩ a) :
    Follows image files ((plotter.after text).draw files (readCommand text) images)
      ⟨ctrl, pipe, plotter.after text⟩ a where
  ctrl_eq := h.ctrl_eq
  pipe_nil := h.pipe_nil
  plotter_eq := h.plotter_eq
  files_eq := h.files_eq
  files_none := h.files_none
  names := fun file hfile => h.names file (names_next hfile)
  images_eq := h.images_eq

variable (files') in
/-- The session sends some texts, and its files may have changed. -/
theorem extend (h : Follows image files images s a) (ctrl : GnuplotCtrl) (texts : List Text)
    (files₁ : Files) (hold : ∀ file, s.ctrl.HasBelow s.ctrl.ntmp file → files' file = files file)
    (hfiles : ∀ file, ctrl.HasBelow ctrl.ntmp file → files₁ file = files' file)
    (hnone : ∀ file, ¬ ctrl.HasBelow ctrl.ntmp file → files₁ file = none)
    (hgrow : ∀ file, s.ctrl.HasBelow s.ctrl.ntmp file → ctrl.HasBelow ctrl.ntmp file)
    (htexts : ∀ text ∈ texts, ∀ line, (readCommand text).line = some line →
      ctrl.HasBelow ctrl.ntmp line.file) :
    Follows image files' images ⟨ctrl, s.pipe ++ texts, s.plotter⟩
      ⟨files₁, drain files₁ texts a.session.plotter a.images,
        ⟨ctrl, [], a.session.plotter.afterAll texts⟩⟩ := by
  have hnames : ∀ file, Names s.plotter (s.pipe ++ texts) file → ctrl.HasBelow ctrl.ntmp file := by
    intro file hfile
    rcases names_append hfile with hfile | ⟨text, htext, line, hline, rfl⟩
    · exact hgrow file (h.names file hfile)
    · exact htexts text htext line hline
  refine ⟨rfl, rfl, ?_, hfiles, hnone, hnames, ?_⟩
  · rw [State.afterAll_append, h.plotter_eq]
  · have hrest : ∀ file, Names (s.plotter.afterAll s.pipe) texts file → files' file = files₁ file :=
      fun file hfile => (hfiles file (hnames file (names_afterAll hfile))).symm
    calc drain files' (s.pipe ++ texts) s.plotter images image
        = drain files' texts (s.plotter.afterAll s.pipe)
            (drain files' s.pipe s.plotter images) image := by rw [drain_append]
      _ = drain files' texts (s.plotter.afterAll s.pipe) a.images image := by
          refine drain_images_congr files' texts _ ?_
          rw [drain_congr fun file hfile => hold file (h.names file hfile), h.images_eq]
      _ = drain files₁ texts a.session.plotter a.images image := by
          rw [drain_congr hrest, h.plotter_eq]

end Follows

theorem readCommand_plotText (h : GnuplotCtrl) (name : TmpName) (title : Option Text) :
    (∀ line, (readCommand (plotText h name title)).line = some line → line.file = name.text) ∧
      ∀ file, readCommand (plotText h name title) ≠ .setOutput file := by
  unfold plotText
  split
  · rw [readCommand_replot_text]
    split
    case h_1 line hline =>
      exact ⟨fun line' hline' => Option.some.inj hline' ▸ file_of_readLine name.not_quote hline,
        nofun⟩
    case h_2 => exact ⟨nofun, nofun⟩
  · rw [readCommand_plot_text]
    split
    case h_1 line hline =>
      exact ⟨fun line' hline' => Option.some.inj hline' ▸ file_of_readLine name.not_quote hline,
        nofun⟩
    case h_2 => exact ⟨nofun, nofun⟩

variable {e18} in
/-- Whenever the session calls, so can the session on its own. -/
theorem Follows.call {image : Text} {files files' : Files} {images : Images} {s s' : Session}
    {a : Alone} {call : PlotCall α} {tmp : Option TmpName} (h : Follows image files images s a)
    (hok : s.ctrl.Ok)
    (hthere : ∀ file, s.ctrl.HasBelow s.ctrl.ntmp file → (files file).isSome = true)
    (hplain : call.Plain) (hreset : call = .resetplot → s.ctrl.ntmp = 0)
    (hrun : call.run e18 tmp files s = some (files', s')) :
    ∃ a', a.call e18 (call, tmp) = some a' ∧ Follows image files' images s' a' := by
  obtain ⟨files₀, images₀, ⟨ctrl₀, pipe₀, plotter₀⟩⟩ := a
  obtain rfl : ctrl₀ = s.ctrl := h.ctrl_eq
  obtain rfl : pipe₀ = [] := h.pipe_nil
  cases callSpec e18 call tmp hok with
  | keep ctrl texts run_eq tbl_eq ntmp_eq texts_eq =>
    cases (run_eq files s.pipe s.plotter).symm.trans hrun
    have hiff (file : Text) : ctrl.HasBelow ctrl.ntmp file ↔ s.ctrl.HasBelow s.ctrl.ntmp file := by
      rw [ntmp_eq]
      exact GnuplotCtrl.hasBelow_congr (fun k _ => congrFun tbl_eq k) file
    refine ⟨_, by rw [Alone.call, run_eq]; rfl, h.extend _ _ _ _ (fun _ _ => rfl)
      (fun file hfile => h.files_eq file ((hiff file).mp hfile))
      (fun file hfile => h.files_none file (mt (hiff file).mpr hfile))
      (fun file hfile => (hiff file).mpr hfile) fun text htext line hline => ?_⟩
    rcases texts_eq text htext with rfl | hsetting
    · cases hplain.symm.trans hline
    · rw [hsetting] at hline
      cases hline
  | reset call_eq ctrl run_eq tbl_eq ntmp_eq =>
    have hzero := hreset call_eq
    have hrun' := (run_eq files s.pipe s.plotter).symm.trans hrun
    rw [hzero, without_zero] at hrun'
    cases hrun'
    have hnot (file : Text) : ¬ s.ctrl.HasBelow s.ctrl.ntmp file := by
      rw [hzero]
      exact s.ctrl.not_hasBelow_zero file
    have hnot' (file : Text) : ¬ ctrl.HasBelow ctrl.ntmp file := by
      rw [ntmp_eq]
      exact ctrl.not_hasBelow_zero file
    have hextend := h.extend files ctrl [] files₀ (fun _ _ => rfl)
      (fun file hfile => absurd hfile (hnot' file)) (fun file _ => h.files_none file (hnot file))
      (fun file hfile => absurd hfile (hnot file)) fun _ htext => absurd htext List.not_mem_nil
    rw [List.append_nil] at hextend
    refine ⟨_, ?_, hextend⟩
    rw [Alone.call, run_eq, hzero, without_zero]
    rfl
  | add name data title ctrl tmp_eq lt run_eq tbl_eq ntmp_eq =>
    have hadd := (run_eq files s.pipe s.plotter).symm.trans hrun
    split at hadd
    case isFalse => cases hadd
    case isTrue hfresh =>
    cases hadd
    have hentry : ctrl.tmp_filename_tbl ⟨s.ctrl.ntmp, hok.ntmp_lt⟩ = some name := by
      rw [tbl_eq, Function.update_self]
    have hiff (file : Text) : ctrl.HasBelow ctrl.ntmp file ↔
        s.ctrl.HasBelow s.ctrl.ntmp file ∨ name.text = file := by
      rw [ntmp_eq, ctrl.hasBelow_succ hok.ntmp_lt hentry, GnuplotCtrl.hasBelow_congr]
      intro k hk
      rw [tbl_eq, Function.update_of_ne fun heq => absurd (congrArg Fin.val heq) (Nat.ne_of_lt hk)]
    have hne (file : Text) (hfile : s.ctrl.HasBelow s.ctrl.ntmp file) : file ≠ name.text := by
      rintro rfl
      have hsome := hthere _ hfile
      rw [hfresh] at hsome
      cases hsome
    have hfresh₀ : files₀ name.text = none :=
      h.files_none _ fun hfile => hne _ hfile rfl
    have hextend := h.extend (Function.update files name.text (some data)) ctrl
      [plotText s.ctrl name title] (Function.update files₀ name.text (some data))
      (fun file hfile => Function.update_of_ne (hne file hfile) _ _)
      (fun file hfile => ?_) (fun file hfile => ?_) (fun file hfile => (hiff file).mpr (.inl hfile))
      fun text htext line hline => ?_
    · refine ⟨_, ?_, hextend⟩
      rw [Alone.call, run_eq, if_pos hfresh₀]
      rfl
    · rw [Function.update_apply, Function.update_apply]
      split
      case isTrue => rfl
      case isFalse hfile' =>
        exact h.files_eq file (((hiff file).mp hfile).resolve_right fun heq => hfile' heq.symm)
    · obtain ⟨hbelow, hname⟩ := not_or.mp (mt (hiff file).mpr hfile)
      rw [Function.update_of_ne (Ne.symm hname)]
      exact h.files_none file hbelow
    · rw [List.mem_singleton.mp htext] at hline
      exact (hiff _).mpr (.inr ((readCommand_plotText s.ctrl name title).1 line hline).symm)

/-! ## Runs -/

variable {e18} in
/-- A call leaves a file alone that is there and that is not in the table. -/
theorem files_of_call {files files' : Files} {s s' : Session} {call : PlotCall α}
    {tmp : Option TmpName} (hok : s.ctrl.Ok) (hrun : call.run e18 tmp files s = some (files', s'))
    {file : Text} (hthere : (files file).isSome = true)
    (hnot : ¬ s.ctrl.HasBelow s.ctrl.ntmp file) : files' file = files file := by
  cases callSpec e18 call tmp hok with
  | keep ctrl texts run_eq _ _ _ =>
    cases (run_eq files s.pipe s.plotter).symm.trans hrun
    rfl
  | reset _ ctrl run_eq _ _ =>
    cases (run_eq files s.pipe s.plotter).symm.trans hrun
    exact if_neg hnot
  | add name data title ctrl _ _ run_eq _ _ =>
    have hadd := (run_eq files s.pipe s.plotter).symm.trans hrun
    split at hadd
    case isFalse => cases hadd
    case isTrue hfresh =>
      cases hadd
      refine Function.update_of_ne ?_ _ _
      rintro rfl
      rw [hfresh] at hthere
      cases hthere

variable {e18} in
/-- A call that does not set this output does not lead to it. -/
theorem outputs_of_call {files files' : Files} {s s' : Session} {call : PlotCall α}
    {tmp : Option TmpName} (hok : s.ctrl.Ok) (hrun : call.run e18 tmp files s = some (files', s'))
    {image : Text} (hcmd : ∀ text, call = .cmd text → readCommand text ≠ .setOutput image)
    (hnot : ¬ Outputs s.plotter s.pipe image) : ¬ Outputs s'.plotter s'.pipe image := by
  have hextend {texts : List Text} (htexts : ∀ text ∈ texts, readCommand text ≠ .setOutput image) :
      ¬ Outputs s.plotter (s.pipe ++ texts) image := by
    rintro (houtput | ⟨text, htext, hset⟩)
    · exact hnot (.inl houtput)
    · rcases List.mem_append.mp htext with htext | htext
      · exact hnot (.inr ⟨text, htext, hset⟩)
      · exact htexts text htext hset
  cases callSpec e18 call tmp hok with
  | keep ctrl texts run_eq _ _ texts_eq =>
    cases (run_eq files s.pipe s.plotter).symm.trans hrun
    refine hextend fun text htext => ?_
    rcases texts_eq text htext with hcall | hsetting
    · exact hcmd text hcall
    · rw [hsetting]
      exact nofun
  | reset _ ctrl run_eq _ _ =>
    cases (run_eq files s.pipe s.plotter).symm.trans hrun
    exact hnot
  | add name data title ctrl _ _ run_eq _ _ =>
    have hadd := (run_eq files s.pipe s.plotter).symm.trans hrun
    split at hadd
    case isFalse => cases hadd
    case isTrue =>
      cases hadd
      refine hextend fun text htext => ?_
      rw [List.mem_singleton.mp htext]
      exact (readCommand_plotText s.ctrl name title).2 image

/-- What session `i` has done so far with the picture, where the pictures were these at the
start. -/
inductive OwnPicture (image : Text) (calls : List (PlotCall α × Option TmpName)) (images₀ : Images)
    (files : Files) (images : Images) : Stage → Prop
  | notYet (calls_eq : calls = []) (images_eq : images image = images₀ image) :
      OwnPicture image calls images₀ files images .notYet
  | running {s : Session} {a : Alone} (alone_eq : alone e18 calls images₀ = some a)
      (follows : Follows image files images s a) :
      OwnPicture image calls images₀ files images (.running s)
  | abandoned {s : Session} {a : Alone} (alone_eq : alone e18 calls images₀ = some a)
      (follows : Follows image files images s a) :
      OwnPicture image calls images₀ files images (.abandoned s)
  | closed {a : Alone} (alone_eq : alone e18 calls images₀ = some a)
      (images_eq : images image = a.images image) :
      OwnPicture image calls images₀ files images .closed

variable {e18} in
theorem ntmp_of_call {files files' : Files} {s s' : Session} {call : PlotCall α}
    {tmp : Option TmpName} (hcall : ∀ points title, call ≠ .plot_xy points title)
    (hrun : call.run e18 tmp files s = some (files', s')) (hzero : s.ctrl.ntmp = 0) :
    s'.ctrl.ntmp = 0 := by
  cases call with
  | setstyle _ | cmd _ | set_xlabel _ | set_ylabel _ =>
    cases hrun
    exact hzero
  | resetplot =>
    obtain ⟨r, -, hr⟩ := Option.map_eq_some_iff.mp hrun
    cases hr
    rfl
  | plot_xy points title => exact absurd rfl (hcall points title)

variable {e18} in
theorem ntmp_of_alone {calls : List (PlotCall α × Option TmpName)} {images : Images} {a : Alone}
    (hcalls : ∀ c ∈ calls, ∀ points title, c.1 ≠ .plot_xy points title)
    (halone : alone e18 calls images = some a) : a.session.ctrl.ntmp = 0 := by
  suffices h : ∀ a₀ : Alone, a₀.session.ctrl.ntmp = 0 → calls.foldlM (Alone.call e18) a₀ = some a →
      a.session.ctrl.ntmp = 0 from h _ rfl halone
  clear halone
  induction calls with
  | nil =>
    intro a₀ hzero h
    cases h
    exact hzero
  | cons c calls ih =>
    intro a₀ hzero h
    obtain ⟨hc, hcalls⟩ := List.forall_mem_cons.mp hcalls
    obtain ⟨a₁, hfirst, hrest⟩ := Option.bind_eq_some_iff.mp h
    obtain ⟨r, hrun, rfl⟩ := Option.map_eq_some_iff.mp hfirst
    have hnext := ntmp_of_call hc hrun hzero
    exact ih hcalls _ hnext hrest

namespace OwnPicture

variable {e18} {image : Text} {calls : List (PlotCall α × Option TmpName)} {images₀ images images' :
  Images} {files files' : Files} {stage : Stage}

theorem frame (h : OwnPicture e18 image calls images₀ files images stage)
    (hfiles : ∀ s, stage.session = some s → ∀ file, s.ctrl.HasBelow s.ctrl.ntmp file →
      files' file = files file) (himages : images' image = images image) :
    OwnPicture e18 image calls images₀ files' images' stage := by
  cases h with
  | notYet calls_eq images_eq => exact .notYet calls_eq (himages.trans images_eq)
  | @running s a alone_eq follows => exact .running alone_eq (follows.frame (hfiles s rfl) himages)
  | @abandoned s a alone_eq follows =>
    exact .abandoned alone_eq (follows.frame (hfiles s rfl) himages)
  | closed alone_eq images_eq => exact .closed alone_eq (himages.trans images_eq)

theorem init (h : OwnPicture e18 image calls images₀ files images .notYet) :
    OwnPicture e18 image calls images₀ files images (.running gnuplot_init) := by
  cases h with
  | notYet calls_eq images_eq =>
    subst calls_eq
    refine .running (a := ⟨fun _ => none, images₀, gnuplot_init⟩) rfl
      ⟨rfl, rfl, rfl, fun file hfile => ?_, fun _ _ => rfl, fun file hfile => ?_, images_eq⟩
    · exact absurd hfile (GnuplotCtrl.not_hasBelow_zero _ file)
    · rcases hfile with ⟨line, hline, -⟩ | ⟨text, htext, -⟩
      · exact absurd hline List.not_mem_nil
      · exact absurd htext List.not_mem_nil

theorem read {ctrl : GnuplotCtrl} {text : Text} {pipe : List Text} {plotter : Plotter.State}
    (h : OwnPicture e18 image calls images₀ files images stage)
    (hsession : stage.session = some ⟨ctrl, text :: pipe, plotter⟩) :
    OwnPicture e18 image calls images₀ files
      ((plotter.after text).draw files (readCommand text) images)
      (stage.withSession ⟨ctrl, pipe, plotter.after text⟩) := by
  cases h with
  | notYet _ _ | closed _ _ => cases hsession
  | running alone_eq follows =>
    cases hsession
    exact .running alone_eq follows.read
  | abandoned alone_eq follows =>
    cases hsession
    exact .abandoned alone_eq follows.read

theorem close {s : Session} (h : OwnPicture e18 image calls images₀ files images (.running s))
    (hpipe : s.pipe = []) : OwnPicture e18 image calls images₀ files' images .closed := by
  cases h with
  | running alone_eq follows =>
    refine .closed alone_eq ?_
    rw [← follows.images_eq, hpipe]
    rfl

theorem abandon {s : Session} (h : OwnPicture e18 image calls images₀ files images (.running s)) :
    OwnPicture e18 image calls images₀ files images (.abandoned s) := by
  cases h with
  | running alone_eq follows => exact .abandoned alone_eq follows

theorem call {s s' : Session} {call : PlotCall α} {tmp : Option TmpName}
    (h : OwnPicture e18 image calls images₀ files images (.running s)) (hok : s.ctrl.Ok)
    (hthere : ∀ file, s.ctrl.HasBelow s.ctrl.ntmp file → (files file).isSome = true)
    (hplain : call.Plain)
    (hreset : call = .resetplot → ∀ c ∈ calls, ∀ points title, c.1 ≠ .plot_xy points title)
    (hrun : call.run e18 tmp files s = some (files', s')) :
    OwnPicture e18 image (calls ++ [(call, tmp)]) images₀ files' images (.running s') := by
  cases h with
  | running alone_eq follows =>
    obtain ⟨a', hcall, follows'⟩ := follows.call hok hthere hplain
      (fun heq => follows.ctrl_eq ▸ ntmp_of_alone (hreset heq) alone_eq) hrun
    refine .running ?_ follows'
    rw [alone, List.foldlM_append]
    show (alone e18 calls images₀ >>= _) = _
    rw [alone_eq, Option.bind_eq_bind, Option.bind_some, List.foldlM_cons, hcall]
    rfl

end OwnPicture

section Callsof

variable {i : ι} {past : List (Transition (Desk ι) (DeskEvent ι α))}
  {t : Transition (Desk ι) (DeskEvent ι α)}

theorem callsOf_append (i : ι) (past past' : List (Transition (Desk ι) (DeskEvent ι α))) :
    callsOf i (past ++ past') = callsOf i past ++ callsOf i past' := List.filterMap_append

theorem callsOf_concat {call : PlotCall α} {tmp : Option TmpName} (h : t.event = .call i call tmp) :
    callsOf i (past ++ [t]) = callsOf i past ++ [(call, tmp)] := by
  simp [callsOf, List.filterMap_append, h]

theorem callsOf_concat_of_ne (h : ∀ call tmp, t.event ≠ .call i call tmp) :
    callsOf i (past ++ [t]) = callsOf i past := by
  have hnone : callsOf i [t] = [] := by
    rw [callsOf, List.filterMap_cons]
    cases ht : t.event with
    | call j call tmp =>
      have hj : ¬ j = i := fun hj => h call tmp (hj ▸ ht)
      simp [hj]
    | init _ | read _ | close _ _ => rfl
  rw [callsOf_append, hnone, List.append_nil]

end Callsof

/-- Session `i` and all others, after some events. -/
structure Beside (i : ι) (image : Text) (images₀ : Images) (start : Files)
    (past : List (Transition (Desk ι) (DeskEvent ι α))) (d : Desk ι) : Prop where
  ok : DeskOk start d
  others : ∀ j s, j ≠ i → (d.sessions j).session = some s → ¬ Outputs s.plotter s.pipe image
  own : OwnPicture e18 image (callsOf i past) images₀ d.files d.images (d.sessions i)

namespace Beside

variable {e18} {i j : ι} {image : Text} {images₀ : Images} {start : Files}
  {past : List (Transition (Desk ι) (DeskEvent ι α))} {d d' : Desk ι} {e : DeskEvent ι α}

/-- After an event of session `i`. -/
theorem own_event (h : Beside e18 i image images₀ start past d) (hok : DeskOk start d')
    (hsame : ∀ j, j ≠ i → d'.sessions j = d.sessions j)
    (hown : OwnPicture e18 image (callsOf i (past ++ [⟨d, e, d'⟩])) images₀ d'.files d'.images
      (d'.sessions i)) : Beside e18 i image images₀ start (past ++ [⟨d, e, d'⟩]) d' where
  ok := hok
  others := fun j s hj hs => h.others j s hj (by rw [← hsame j hj]; exact hs)
  own := hown

/-- After an event of session `i` that is no call. -/
theorem own_event_of_ne (h : Beside e18 i image images₀ start past d) (hok : DeskOk start d')
    (hcalls : ∀ call tmp, e ≠ .call i call tmp)
    (hsame : ∀ j, j ≠ i → d'.sessions j = d.sessions j)
    (hown : OwnPicture e18 image (callsOf i past) images₀ d'.files d'.images (d'.sessions i)) :
    Beside e18 i image images₀ start (past ++ [⟨d, e, d'⟩]) d' :=
  h.own_event hok hsame (by rwa [callsOf_concat_of_ne hcalls])

/-- After an event of another session. -/
theorem other_event (h : Beside e18 i image images₀ start past d) (hok : DeskOk start d')
    (hne : j ≠ i) (hcalls : ∀ call tmp, e ≠ .call i call tmp)
    (hsame : ∀ l, l ≠ j → d'.sessions l = d.sessions l)
    (houtputs : ∀ s, (d'.sessions j).session = some s → ¬ Outputs s.plotter s.pipe image)
    (hfiles : ∀ s, (d.sessions i).session = some s → ∀ file, s.ctrl.HasBelow s.ctrl.ntmp file →
      d'.files file = d.files file) (himages : d'.images image = d.images image) :
    Beside e18 i image images₀ start (past ++ [⟨d, e, d'⟩]) d' where
  ok := hok
  others := fun l s hl hs => by
    by_cases hlj : l = j
    · exact houtputs s (hlj ▸ hs)
    · rw [hsame l hlj] at hs
      exact h.others l s hl hs
  own := by
    rw [callsOf_concat_of_ne hcalls, hsame i hne.symm]
    exact h.own.frame hfiles himages

theorem step (h : Beside e18 i image images₀ start past d)
    (hplain : ∀ call tmp, e = .call i call tmp → call.Plain)
    (hreset : ∀ tmp, e = .call i .resetplot tmp →
      ∀ c ∈ callsOf i past, ∀ points title, c.1 ≠ .plot_xy points title)
    (hothers : NotOthers i image ⟨d, e, d'⟩) (hstep : DeskStep e18 d e d') :
    Beside e18 i image images₀ start (past ++ [⟨d, e, d'⟩]) d' := by
  have hok' := deskOk_step h.ok hstep
  have hown := h.own
  cases deskNext_of_step hstep with
  | @init j hstage =>
    by_cases hj : j = i
    · subst hj
      rw [hstage] at hown
      refine h.own_event_of_ne hok' nofun (fun l hl => set_sessions_of_ne d hl _) ?_
      rw [set_sessions_self]
      exact hown.init
    · refine h.other_event hok' hj nofun (fun l hl => set_sessions_of_ne d hl _) (fun s hs => ?_)
        (fun _ _ _ _ => rfl) rfl
      rw [set_sessions_self] at hs
      cases hs
      rintro (houtput | ⟨text, htext, -⟩)
      · cases houtput
      · exact absurd htext List.not_mem_nil
  | @call j call tmp s s' files hstage hrun =>
    have hsession : (d.sessions j).session = some s := congrArg Stage.session hstage
    by_cases hj : j = i
    · subst hj
      rw [hstage] at hown
      refine h.own_event hok' (fun l hl => set_sessions_of_ne _ hl _) ?_
      rw [callsOf_concat rfl, set_sessions_self]
      exact hown.call (h.ok.ok j s hsession)
        (fun file hfile => h.ok.there_of_hasBelow hsession hfile) (hplain call tmp rfl)
        (fun hcall => hreset tmp (congrArg (DeskEvent.call j · tmp) hcall)) hrun
    · refine h.other_event hok' hj (fun _ _ heq => hj (DeskEvent.call.inj heq).1)
        (fun l hl => set_sessions_of_ne _ hl _) (fun s₁ hs₁ => ?_) (fun t ht file hfile => ?_) rfl
      · rw [set_sessions_self] at hs₁
        cases hs₁
        exact outputs_of_call (h.ok.ok j s hsession) hrun
          (fun text hcall => hothers j text tmp hj (congrArg (DeskEvent.call j · tmp) hcall))
          (h.others j s hj hsession)
      · exact files_of_call (h.ok.ok j s hsession) hrun (h.ok.there_of_hasBelow ht hfile)
          (h.ok.not_hasBelow_of_ne ht hsession hj hfile)
  | @read j ctrl text pipe plotter hsession =>
    by_cases hj : j = i
    · subst hj
      refine h.own_event_of_ne hok' nofun (fun l hl => set_sessions_of_ne _ hl _) ?_
      rw [set_sessions_self]
      exact hown.read hsession
    · have hnot := h.others j _ hj hsession
      refine h.other_event hok' hj nofun (fun l hl => set_sessions_of_ne _ hl _) (fun s hs => ?_)
        (fun _ _ _ _ => rfl)
        (draw_of_output_ne (fun houtput => hnot (outputs_next (.inl houtput))) _)
      rw [set_sessions_self, session_withSession hsession] at hs
      cases hs
      exact mt outputs_next hnot
  | @close j s files hstage hclose =>
    have hsession : (d.sessions j).session = some s := congrArg Stage.session hstage
    obtain ⟨hpipe, hfiles⟩ := gnuplot_close_eq_some (h.ok.ok j s hsession) hclose
    by_cases hj : j = i
    · subst hj
      rw [hstage] at hown
      refine h.own_event_of_ne hok' nofun (fun l hl => set_sessions_of_ne _ hl _) ?_
      rw [set_sessions_self]
      exact hown.close hpipe
    · refine h.other_event hok' hj nofun (fun l hl => set_sessions_of_ne _ hl _) (fun s hs => ?_)
        (fun t ht file hfile => ?_) rfl
      · rw [set_sessions_self] at hs
        cases hs
      · rw [hfiles]
        exact if_neg (h.ok.not_hasBelow_of_ne ht hsession hj hfile)
  | @abandon j s hstage =>
    have hsession : (d.sessions j).session = some s := congrArg Stage.session hstage
    by_cases hj : j = i
    · subst hj
      rw [hstage] at hown
      refine h.own_event_of_ne hok' nofun (fun l hl => set_sessions_of_ne d hl _) ?_
      rw [set_sessions_self]
      exact hown.abandon
    · refine h.other_event hok' hj nofun (fun l hl => set_sessions_of_ne d hl _) (fun s₁ hs₁ => ?_)
        (fun _ _ _ _ => rfl) rfl
      rw [set_sessions_self] at hs₁
      cases hs₁
      exact h.others j s hj hsession

end Beside

variable {e18} in
/-- In every run with any number of other sessions, whatever the order of the calls and of what the
plotters read: if session `i` resets the plot only before it plots, and no other session sets its
picture as the output, then, when it has been closed, the picture is the one it makes with these
calls on its own. -/
theorem pictures_as_alone {d d' : Desk ι} {history : List (Transition (Desk ι) (DeskEvent ι α))}
    (hstart : d.Fresh) (hrun : Run (DeskStep e18) d history d') (i : ι) (image : Text)
    (hplain : ∀ c ∈ callsOf i history, c.1.Plain)
    (hreset : ResetsFirst ((callsOf i history).map Prod.fst))
    (hothers : ∀ t ∈ history, NotOthers i image t) (hclosed : d'.sessions i = .closed) :
    ∃ a, alone e18 (callsOf i history) d.images = some a ∧ d'.images image = a.images image := by
  have hnone (j : ι) : (d.sessions j).session = none := by rw [hstart j]; rfl
  have hbeside : Beside e18 i image d.images d.files [] d := by
    refine ⟨deskOk_start hstart, fun j s _ hs => ?_, ?_⟩
    · cases (hnone j).symm.trans hs
    · rw [hstart i]
      exact .notYet rfl rfl
  let Inv (past : List (Transition (Desk ι) (DeskEvent ι α))) (d' : Desk ι) : Prop :=
    (∀ c ∈ callsOf i past, c.1.Plain) → ResetsFirst ((callsOf i past).map Prod.fst) →
      Beside e18 i image d.images d.files past d'
  have hstep (past : List (Transition (Desk ι) (DeskEvent ι α))) (s : Desk ι) (e : DeskEvent ι α)
      (s' : Desk ι) (h : Inv past s) (hstep : NotOthers i image ⟨s, e, s'⟩ ∧ DeskStep e18 s e s') :
      Inv (past ++ [⟨s, e, s'⟩]) s' := by
    intro hplain hreset
    have hpast := h
      (fun c hc => hplain c (by rw [callsOf_append]; exact List.mem_append_left _ hc))
      (by rw [callsOf_append, List.map_append] at hreset; exact hreset.of_append)
    refine hpast.step (fun call tmp he => ?_) (fun tmp he c hc => ?_) hstep.1 hstep.2
    · refine hplain (call, tmp) ?_
      rw [callsOf_concat he]
      exact List.mem_append_right _ (List.mem_singleton_self _)
    · rw [callsOf_concat he, List.map_append] at hreset
      exact hreset _ [] rfl c.1 (List.mem_map_of_mem hc)
  have hend := ((hrun.restrict hothers).invariant_history hstep fun _ _ => hbeside).1
    (by rwa [List.nil_append]) (by rwa [List.nil_append])
  have hown := hend.own
  rw [List.nil_append, hclosed] at hown
  cases hown with
  | closed alone_eq images_eq => exact ⟨_, alone_eq, images_eq⟩

end Sessions

end Gnuplot

end OfcBenchmark
