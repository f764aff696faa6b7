import OfcBenchmark.Gnuplot

/-!
# Temporary files and pictures

Any number of sessions run at a time, and each plotter reads its pipe when it gets to it. No call
in a session fails its assertion or removes a file that is not there, no session has a temporary
file of another one, and when a session is closed its files are gone (`tmpfiles_tidy`).
-/

namespace OfcBenchmark
open Printf Plotter Runs

namespace Gnuplot

/-! ## The table of a session -/

theorem TmpName.text_injective : Function.Injective TmpName.text := by
  rintro ⟨suffix, _, _⟩ ⟨suffix', _, _⟩ h
  cases List.append_cancel_left h
  rfl

theorem TmpName.not_quote (name : TmpName) : '\x22' ∉ name.text := by
  intro h
  rcases List.mem_append.mp h with h | h
  · exact absurd h (by decide)
  · exact absurd (name.isAlphanum _ h) (by decide)

/-- The table is filled up to `ntmp`, and not full. -/
structure GnuplotCtrl.Ok (h : GnuplotCtrl) : Prop where
  ntmp_lt : h.ntmp < GP_MAX_TMP_FILES
  isSome_iff : ∀ k, (h.tmp_filename_tbl k).isSome = true ↔ k < h.ntmp

/-- The file is one of the first `m` in the table. -/
def GnuplotCtrl.HasBelow (h : GnuplotCtrl) (m : ℕ) (file : Text) : Prop :=
  ∃ k : Fin GP_MAX_TMP_FILES, k < m ∧ (h.tmp_filename_tbl k).map TmpName.text = some file

instance (h : GnuplotCtrl) (m : ℕ) (file : Text) : Decidable (h.HasBelow m file) :=
  inferInstanceAs (Decidable (∃ _ : Fin GP_MAX_TMP_FILES, _ ∧ _))

theorem GnuplotCtrl.hasBelow_succ (h : GnuplotCtrl) {m : ℕ} (hm : m < GP_MAX_TMP_FILES)
    {name : TmpName} (hname : h.tmp_filename_tbl ⟨m, hm⟩ = some name) (file : Text) :
    h.HasBelow (m + 1) file ↔ h.HasBelow m file ∨ name.text = file := by
  constructor
  · rintro ⟨k, hk, hfile⟩
    rcases Nat.lt_succ_iff_lt_or_eq.mp hk with hk | hk
    · exact .inl ⟨k, hk, hfile⟩
    · have hkm : k = ⟨m, hm⟩ := Fin.ext hk
      rw [hkm, hname] at hfile
      exact .inr (Option.some.inj hfile)
  · rintro (⟨k, hk, hfile⟩ | hfile)
    · exact ⟨k, Nat.lt_succ_of_lt hk, hfile⟩
    · exact ⟨⟨m, hm⟩, Nat.lt_succ_self m, by rw [hname, Option.map_some, hfile]⟩

theorem GnuplotCtrl.hasBelow_congr {h h' : GnuplotCtrl} {m : ℕ}
    (htbl : ∀ k : Fin GP_MAX_TMP_FILES, k < m → h'.tmp_filename_tbl k = h.tmp_filename_tbl k)
    (file : Text) : h'.HasBelow m file ↔ h.HasBelow m file :=
  exists_congr fun k => and_congr_right fun hk => by rw [htbl k hk]

theorem GnuplotCtrl.not_hasBelow_zero (h : GnuplotCtrl) (file : Text) : ¬ h.HasBelow 0 file :=
  fun ⟨_, hk, _⟩ => Nat.not_lt_zero _ hk

/-- The files without the first `m` in the table. -/
def without (files : Files) (h : GnuplotCtrl) (m : ℕ) : Files := fun file =>
  if h.HasBelow m file then none else files file

theorem without_zero (files : Files) (h : GnuplotCtrl) : without files h 0 = files :=
  funext fun file => if_neg (h.not_hasBelow_zero file)

/-- The table without its first `m` entries. -/
def cleared (h : GnuplotCtrl) (m : ℕ) : GnuplotCtrl :=
  { h with tmp_filename_tbl := fun k => if k < m then none else h.tmp_filename_tbl k }

theorem update_without (files : Files) (h : GnuplotCtrl) {m : ℕ} (hm : m < GP_MAX_TMP_FILES)
    {name : TmpName} (hname : h.tmp_filename_tbl ⟨m, hm⟩ = some name) :
    Function.update (without files h m) name.text none = without files h (m + 1) := by
  funext file
  simp only [Function.update_apply, without, h.hasBelow_succ hm hname]
  by_cases hfile : file = name.text
  · rw [if_pos hfile, if_pos (.inr hfile.symm)]
  · rw [if_neg hfile]
    simp only [Ne.symm hfile, or_false]

theorem update_cleared (h : GnuplotCtrl) {m : ℕ} (hm : m < GP_MAX_TMP_FILES) :
    Function.update (cleared h m).tmp_filename_tbl ⟨m, hm⟩ none
      = (cleared h (m + 1)).tmp_filename_tbl := by
  funext k
  rw [Function.update_apply]
  by_cases hk : k = ⟨m, hm⟩
  · rw [if_pos hk, hk]
    exact (if_pos (Nat.lt_succ_self m)).symm
  · have hne : (k : ℕ) ≠ m := fun heq => hk (Fin.ext heq)
    have hiff : (k : ℕ) < m ↔ (k : ℕ) < m + 1 := by omega
    rw [if_neg hk]
    simp only [cleared, hiff]

/-- `gnuplot_close` and `gnuplot_resetplot` remove what is in the table, and it is all there. -/
theorem removeAll_eq (files : Files) {h : GnuplotCtrl} (hok : h.Ok) :
    removeAll files h = some (without files h h.ntmp, cleared h h.ntmp) := by
  have hprefix (m : ℕ) (hm : m ≤ h.ntmp) :
      (List.range m).foldlM removeTmp (files, h) = some (without files h m, cleared h m) := by
    induction m with
    | zero =>
      rw [without_zero]
      rfl
    | succ m ih =>
      have hlt : m < GP_MAX_TMP_FILES := lt_of_lt_of_le hm hok.ntmp_lt.le
      obtain ⟨name, hname⟩ := Option.isSome_iff_exists.mp ((hok.isSome_iff ⟨m, hlt⟩).mpr hm)
      have hentry : (cleared h m).tmp_filename_tbl ⟨m, hlt⟩ = some name :=
        (if_neg (lt_irrefl m)).trans hname
      rw [List.range_succ, List.foldlM_append, ih (Nat.le_of_succ_le hm), Option.bind_eq_bind,
        Option.bind_some, List.foldlM_cons, removeTmp, dif_pos hlt, hentry, Option.map_some,
        update_without files h hlt hname, update_cleared h hlt]
      rfl
  exact hprefix h.ntmp le_rfl

theorem cleared_ntmp_tbl {h : GnuplotCtrl} (hok : h.Ok) (k : Fin GP_MAX_TMP_FILES) :
    (cleared h h.ntmp).tmp_filename_tbl k = none := by
  show (if k < h.ntmp then none else h.tmp_filename_tbl k) = none
  split
  case isTrue => rfl
  case isFalse hk => exact Option.not_isSome_iff_eq_none.mp (mt (hok.isSome_iff k).mp hk)

theorem GnuplotCtrl.Ok.of_same {h h' : GnuplotCtrl} (hok : h.Ok)
    (htbl : h'.tmp_filename_tbl = h.tmp_filename_tbl) (hntmp : h'.ntmp = h.ntmp) : h'.Ok :=
  ⟨hntmp ▸ hok.ntmp_lt, by rw [htbl, hntmp]; exact hok.isSome_iff⟩

theorem GnuplotCtrl.ok_of_none {h : GnuplotCtrl} (htbl : ∀ k, h.tmp_filename_tbl k = none)
    (hntmp : h.ntmp = 0) : h.Ok where
  ntmp_lt := hntmp ▸ Nat.succ_pos 63
  isSome_iff := fun k => by
    rw [htbl k, hntmp]
    exact iff_of_false (by simp) (Nat.not_lt_zero _)

theorem GnuplotCtrl.Ok.of_update {h h' : GnuplotCtrl} (hok : h.Ok)
    (hlt : h.ntmp + 1 < GP_MAX_TMP_FILES) {name : TmpName}
    (htbl : h'.tmp_filename_tbl =
      Function.update h.tmp_filename_tbl ⟨h.ntmp, hok.ntmp_lt⟩ (some name))
    (hntmp : h'.ntmp = h.ntmp + 1) : h'.Ok where
  ntmp_lt := hntmp ▸ hlt
  isSome_iff := fun k => by
    rw [htbl, hntmp, Function.update_apply]
    split
    case isTrue hk => exact iff_of_true rfl (by rw [hk]; exact Nat.lt_succ_self _)
    case isFalse hk =>
      have hne : (k : ℕ) ≠ h.ntmp := fun heq => hk (Fin.ext heq)
      rw [hok.isSome_iff]
      omega

/-! ## What a call does -/

section Calls

variable {α : Type} (e18 : α → Text)

/-- What `gnuplot_plot_atmpfile` prints. -/
def plotText (h : GnuplotCtrl) (name : TmpName) (title : Option Text) : Text :=
  (if h.nplots > 0 then "replot ".toList else "plot ".toList)
    ++ (⟨name.text, title.getD "(none)".toList, h.pstyle⟩ : Line).text

/-- What a call does in a session with this handle, whatever the files are: it leaves the temporary
files alone, or removes all of them, or makes another one. -/
inductive CallSpec (call : PlotCall α) (tmp : Option TmpName) (h : GnuplotCtrl) (hok : h.Ok) : Prop
  | keep (h' : GnuplotCtrl) (texts : List Text)
      (run_eq : ∀ files pipe plotter, call.run e18 tmp files ⟨h, pipe, plotter⟩
        = some (files, ⟨h', pipe ++ texts, plotter⟩))
      (tbl_eq : h'.tmp_filename_tbl = h.tmp_filename_tbl) (ntmp_eq : h'.ntmp = h.ntmp)
      (texts_eq : ∀ text ∈ texts, call = .cmd text ∨ readCommand text = .setting text)
  | reset (call_eq : call = .resetplot) (h' : GnuplotCtrl)
      (run_eq : ∀ files pipe plotter, call.run e18 tmp files ⟨h, pipe, plotter⟩
        = some (without files h h.ntmp, ⟨h', pipe, plotter⟩))
      (tbl_eq : ∀ k, h'.tmp_filename_tbl k = none) (ntmp_eq : h'.ntmp = 0)
  | add (name : TmpName) (data : Text) (title : Option Text) (h' : GnuplotCtrl)
      (tmp_eq : tmp = some name) (lt : h.ntmp + 1 < GP_MAX_TMP_FILES)
      (run_eq : ∀ files pipe plotter, call.run e18 tmp files ⟨h, pipe, plotter⟩
        = if files name.text = none then
            some (Function.update files name.text (some data),
              ⟨h', pipe ++ [plotText h name title], plotter⟩)
          else none)
      (tbl_eq : h'.tmp_filename_tbl =
        Function.update h.tmp_filename_tbl ⟨h.ntmp, hok.ntmp_lt⟩ (some name))
      (ntmp_eq : h'.ntmp = h.ntmp + 1)

/-- The assertion of `gnuplot_tmpfile` holds. The last place of the table is left free. -/
theorem gnuplot_tmpfile_none {tmp : Option TmpName} {h : GnuplotCtrl} (hok : h.Ok)
    (hnone : h.ntmp = GP_MAX_TMP_FILES - 1 ∨ tmp = none) (files : Files) :
    gnuplot_tmpfile tmp files h = some (none, files, h) := by
  have hnull : h.tmp_filename_tbl ⟨h.ntmp, hok.ntmp_lt⟩ = none :=
    Option.not_isSome_iff_eq_none.mp (mt (hok.isSome_iff _).mp (lt_irrefl _))
  rw [gnuplot_tmpfile, dif_pos hok.ntmp_lt, if_pos hnull]
  rcases hnone with hfull | rfl
  · rw [if_pos hfull]
  · exact ite_self _

theorem gnuplot_tmpfile_some {h : GnuplotCtrl} (hok : h.Ok) (hne : h.ntmp ≠ GP_MAX_TMP_FILES - 1)
    (name : TmpName) (files : Files) :
    gnuplot_tmpfile (some name) files h
      = if files name.text = none then
          some (some name, Function.update files name.text (some []),
            { h with tmp_filename_tbl :=
                       Function.update h.tmp_filename_tbl ⟨h.ntmp, hok.ntmp_lt⟩ (some name)
                     ntmp := h.ntmp + 1 })
        else none := by
  have hnull : h.tmp_filename_tbl ⟨h.ntmp, hok.ntmp_lt⟩ = none :=
    Option.not_isSome_iff_eq_none.mp (mt (hok.isSome_iff _).mp (lt_irrefl _))
  rw [gnuplot_tmpfile, dif_pos hok.ntmp_lt, if_pos hnull, if_neg hne]

/-- The handle when another file has been plotted. -/
def GnuplotCtrl.added (h : GnuplotCtrl) (hlt : h.ntmp < GP_MAX_TMP_FILES) (name : TmpName) :
    GnuplotCtrl :=
  { h with nplots := h.nplots + 1
           tmp_filename_tbl := Function.update h.tmp_filename_tbl ⟨h.ntmp, hlt⟩ (some name)
           ntmp := h.ntmp + 1 }

/-- Nothing is plotted where there is no point, no place in the table or no name. -/
theorem run_plot_xy_skip {h : GnuplotCtrl} (hok : h.Ok) {points : List (α × α)}
    {tmp : Option TmpName}
    (hskip : points = [] ∨ h.ntmp = GP_MAX_TMP_FILES - 1 ∨ tmp = none) (title : Option Text)
    (files : Files) (pipe : List Text) (plotter : Plotter.State) :
    (PlotCall.plot_xy points title).run e18 tmp files ⟨h, pipe, plotter⟩
      = some (files, ⟨h, pipe, plotter⟩) := by
  rcases hskip with rfl | hnone
  · rfl
  · rw [PlotCall.run, gnuplot_plot_xy, gnuplot_tmpfile_none hok hnone]
    exact ite_self _

theorem run_plot_xy {h : GnuplotCtrl} (hok : h.Ok) (hne : h.ntmp ≠ GP_MAX_TMP_FILES - 1)
    {points : List (α × α)} (hpoints : points ≠ []) (name : TmpName) (title : Option Text)
    (files : Files) (pipe : List Text) (plotter : Plotter.State) :
    (PlotCall.plot_xy points title).run e18 (some name) files ⟨h, pipe, plotter⟩
      = if files name.text = none then
          some (Function.update files name.text (some (pointsData e18 points)),
            ⟨h.added hok.ntmp_lt name, pipe ++ [plotText h name title], plotter⟩)
        else none := by
  have hlength : ¬ points.length < 1 := Nat.not_lt.mpr (List.length_pos_iff.mpr hpoints)
  rw [PlotCall.run, gnuplot_plot_xy, if_neg hlength, gnuplot_tmpfile_some hok hne]
  split
  case isTrue =>
    rw [Option.map_some]
    dsimp only
    rw [Function.update_idem]
    rfl
  case isFalse => rfl

theorem readCommand_xlabel (label : Text) :
    readCommand ("set xlabel \x22".toList ++ label ++ "\x22".toList)
      = .setting ("set xlabel \x22".toList ++ label ++ "\x22".toList) := rfl

theorem readCommand_ylabel (label : Text) :
    readCommand ("set ylabel \x22".toList ++ label ++ "\x22".toList)
      = .setting ("set ylabel \x22".toList ++ label ++ "\x22".toList) := rfl

theorem callSpec (call : PlotCall α) (tmp : Option TmpName) {h : GnuplotCtrl} (hok : h.Ok) :
    CallSpec e18 call tmp h hok := by
  cases call with
  | setstyle plot_style =>
    exact .keep (gnuplot_setstyle h plot_style) []
      (fun files pipe plotter => by rw [List.append_nil]; rfl) rfl rfl
      fun _ htext => absurd htext List.not_mem_nil
  | cmd text =>
    exact .keep h [text] (fun _ _ _ => rfl) rfl rfl fun text' htext' =>
      .inl (congrArg _ (List.mem_singleton.mp htext').symm)
  | set_xlabel label =>
    exact .keep h _ (fun _ _ _ => rfl) rfl rfl fun text htext =>
      .inr (List.mem_singleton.mp htext ▸ readCommand_xlabel label)
  | set_ylabel label =>
    exact .keep h _ (fun _ _ _ => rfl) rfl rfl fun text htext =>
      .inr (List.mem_singleton.mp htext ▸ readCommand_ylabel label)
  | resetplot =>
    refine .reset rfl { cleared h h.ntmp with ntmp := 0, nplots := 0 }
      (fun files pipe plotter => ?_) (cleared_ntmp_tbl hok) rfl
    rw [PlotCall.run, gnuplot_resetplot, removeAll_eq files hok]
    rfl
  | plot_xy points title =>
    by_cases hskip : points = [] ∨ h.ntmp = GP_MAX_TMP_FILES - 1 ∨ tmp = none
    · exact .keep h []
        (fun files pipe plotter => by
          rw [List.append_nil, run_plot_xy_skip e18 hok hskip])
        rfl rfl fun _ htext => absurd htext List.not_mem_nil
    obtain ⟨hpoints, hrest⟩ := not_or.mp hskip
    obtain ⟨hne, htmp⟩ := not_or.mp hrest
    obtain ⟨name, rfl⟩ := Option.ne_none_iff_exists'.mp htmp
    have hlt : h.ntmp + 1 < GP_MAX_TMP_FILES := by
      have := hok.ntmp_lt
      omega
    exact .add name (pointsData e18 points) title (h.added hok.ntmp_lt name) rfl hlt
      (run_plot_xy e18 hok hne hpoints name title) rfl rfl

end Calls

/-! ## Who has which file -/

/-- Where each of several owners has some names, and nothing else has happened to the files since
they were as at the start. -/
structure Tidy {ι : Type} (start files : Files)
    (owns : ι → Fin GP_MAX_TMP_FILES → TmpName → Prop) : Prop where
  there : ∀ i k name, owns i k name → (files name.text).isSome = true
  distinct : ∀ i j k l name, owns i k name → owns j l name → i = j ∧ k = l
  others : ∀ file, (∀ i k name, owns i k name → name.text ≠ file) → files file = start file
  absent : ∀ i k name, owns i k name → start name.text = none

namespace Tidy

variable {ι : Type} {start files : Files} {owns owns' : ι → Fin GP_MAX_TMP_FILES → TmpName → Prop}

theorem congr (h : Tidy start files owns) (hiff : ∀ i k name, owns' i k name ↔ owns i k name) :
    Tidy start files owns' := by
  have heq : owns' = owns := funext fun i => funext fun k => funext fun name =>
    propext (hiff i k name)
  rwa [heq]

/-- One owner gets a file that was not there. -/
theorem add (h : Tidy start files owns) {i : ι} {k : Fin GP_MAX_TMP_FILES} {name : TmpName}
    (data : Text) (hfresh : files name.text = none)
    (howns : ∀ j l name', owns' j l name' ↔ owns j l name' ∨ (j = i ∧ l = k ∧ name' = name)) :
    Tidy start (Function.update files name.text (some data)) owns' := by
  have hnew (j : ι) (l : Fin GP_MAX_TMP_FILES) : ¬ owns j l name := fun howned => by
    have := h.there j l name howned
    rw [hfresh] at this
    cases this
  refine ⟨?_, ?_, ?_, ?_⟩
  · intro j l name' hname'
    rw [Function.update_apply]
    split
    case isTrue => rfl
    case isFalse hne =>
      rcases (howns j l name').mp hname' with hold | ⟨-, -, rfl⟩
      · exact h.there j l name' hold
      · exact absurd rfl hne
  · intro j j' l l' name' hname hname'
    rcases (howns j l name').mp hname with hold | ⟨rfl, rfl, rfl⟩
    · rcases (howns j' l' name').mp hname' with hold' | ⟨-, -, rfl⟩
      · exact h.distinct j j' l l' name' hold hold'
      · exact absurd hold (hnew j l)
    · rcases (howns j' l' name').mp hname' with hold' | ⟨rfl, rfl, -⟩
      · exact absurd hold' (hnew j' l')
      · exact ⟨rfl, rfl⟩
  · intro file hfile
    have hne : name.text ≠ file := hfile i k name ((howns i k name).mpr (.inr ⟨rfl, rfl, rfl⟩))
    rw [Function.update_of_ne (Ne.symm hne)]
    exact h.others file fun j l name' hold => hfile j l name' ((howns j l name').mpr (.inl hold))
  · intro j l name' hname'
    rcases (howns j l name').mp hname' with hold | ⟨-, -, rfl⟩
    · exact h.absent j l name' hold
    · rw [← h.others name'.text fun j l name'' hold heq => ?_]
      · exact hfresh
      · exact hnew j l (TmpName.text_injective heq ▸ hold)

/-- One owner has removed all its files. -/
theorem removeAll (h : Tidy start files owns) {i : ι} {files' : Files}
    (hremoved : ∀ k name, owns i k name → files' name.text = none)
    (hkept : ∀ file, (∀ k name, owns i k name → name.text ≠ file) → files' file = files file)
    (howns : ∀ j l name, owns' j l name ↔ owns j l name ∧ j ≠ i) : Tidy start files' owns' := by
  have hkeep (j : ι) (l : Fin GP_MAX_TMP_FILES) (name : TmpName) (hname : owns j l name)
      (hne : j ≠ i) : files' name.text = files name.text :=
    hkept name.text fun k name' hname' heq =>
      hne (h.distinct j i l k name hname (TmpName.text_injective heq ▸ hname')).1
  refine ⟨?_, ?_, ?_, ?_⟩
  · intro j l name hname
    obtain ⟨hold, hne⟩ := (howns j l name).mp hname
    rw [hkeep j l name hold hne]
    exact h.there j l name hold
  · intro j j' l l' name hname hname'
    exact h.distinct j j' l l' name ((howns j l name).mp hname).1 ((howns j' l' name).mp hname').1
  · intro file hfile
    by_cases hi : ∃ k name, owns i k name ∧ name.text = file
    · obtain ⟨k, name, hname, rfl⟩ := hi
      rw [hremoved k name hname, h.absent i k name hname]
    · have hnot : ∀ k name, owns i k name → name.text ≠ file := fun k name hname heq =>
        hi ⟨k, name, hname, heq⟩
      rw [hkept file hnot]
      refine h.others file fun j l name hname => ?_
      by_cases hj : j = i
      · exact hnot l name (hj ▸ hname)
      · exact hfile j l name ((howns j l name).mpr ⟨hname, hj⟩)
  · intro j l name hname
    exact h.absent j l name ((howns j l name).mp hname).1

end Tidy

/-! ## Events -/

section Events

variable {ι α : Type} [DecidableEq ι] {e18 : α → Text}

@[simp] theorem set_sessions_self (d : Desk ι) (i : ι) (stage : Stage) :
    (d.set i stage).sessions i = stage := Function.update_self _ _ _

@[simp] theorem set_sessions_of_ne (d : Desk ι) {i j : ι} (h : j ≠ i) (stage : Stage) :
    (d.set i stage).sessions j = d.sessions j := Function.update_of_ne h _ _

theorem session_withSession {stage : Stage} {s s' : Session} (h : stage.session = some s) :
    (stage.withSession s').session = some s' := by
  cases stage with
  | running _ | abandoned _ => rfl
  | notYet | closed => cases h

variable (e18) in
/-- What can happen. -/
inductive DeskNext (d : Desk ι) : DeskEvent ι α → Desk ι → Prop
  | init {i : ι} (hstage : d.sessions i = .notYet) :
      DeskNext d (.init i) (d.set i (.running gnuplot_init))
  | call {i : ι} {call : PlotCall α} {tmp : Option TmpName} {s s' : Session} {files : Files}
      (hstage : d.sessions i = .running s)
      (hrun : call.run e18 tmp d.files s = some (files, s')) :
      DeskNext d (.call i call tmp) ({ d with files := files }.set i (.running s'))
  | read {i : ι} {ctrl : GnuplotCtrl} {text : Text} {pipe : List Text} {plotter : Plotter.State}
      (hsession : (d.sessions i).session = some ⟨ctrl, text :: pipe, plotter⟩) :
      DeskNext d (.read i)
        ({ d with
            images := (plotter.after text).draw d.files (readCommand text) d.images }.set i
          ((d.sessions i).withSession ⟨ctrl, pipe, plotter.after text⟩))
  | close {i : ι} {s : Session} {files : Files} (hstage : d.sessions i = .running s)
      (hclose : gnuplot_close d.files s = some files) :
      DeskNext d (.close i true) ({ d with files := files }.set i .closed)
  | abandon {i : ι} {s : Session} (hstage : d.sessions i = .running s) :
      DeskNext d (.close i false) (d.set i (.abandoned s))

theorem deskNext_of_step {d d' : Desk ι} {e : DeskEvent ι α} (h : DeskStep e18 d e d') :
    DeskNext e18 d e d' := by
  unfold DeskStep runDesk at h
  cases e with
  | init i =>
    dsimp only at h
    split at h
    · cases h
      exact .init ‹_›
    · cases h
  | call i call tmp =>
    dsimp only at h
    split at h
    · rename_i s hstage
      obtain ⟨⟨files, s'⟩, hrun, rfl⟩ := Option.map_eq_some_iff.mp h
      exact .call hstage hrun
    · cases h
  | read i =>
    dsimp only at h
    split at h
    · cases h
      exact .read ‹_›
    · cases h
  | close i ok =>
    dsimp only at h
    split at h
    · rename_i s hstage
      split at h
      · rename_i hok
        obtain ⟨files, hclose, rfl⟩ := Option.map_eq_some_iff.mp h
        rw [hok]
        exact .close hstage hclose
      · rename_i hok
        cases h
        rw [Bool.eq_false_iff.mpr hok]
        exact .abandon hstage
    · cases h

/-- The `k`-th file in the table has this name. -/
def Stage.Has (stage : Stage) (k : Fin GP_MAX_TMP_FILES) (name : TmpName) : Prop :=
  ∃ s, stage.session = some s ∧ s.ctrl.tmp_filename_tbl k = some name

omit [DecidableEq ι] in
theorem Stage.has_iff {stage : Stage} {s : Session} (h : stage.session = some s)
    (k : Fin GP_MAX_TMP_FILES) (name : TmpName) :
    stage.Has k name ↔ s.ctrl.tmp_filename_tbl k = some name := by
  constructor
  · rintro ⟨s', hs', hname⟩
    cases h.symm.trans hs'
    exact hname
  · exact fun hname => ⟨s, h, hname⟩

theorem Stage.not_has {stage : Stage} (h : stage.session = none) (k : Fin GP_MAX_TMP_FILES)
    (name : TmpName) : ¬ stage.Has k name := by
  rintro ⟨s, hs, -⟩
  cases h.symm.trans hs

/-- The `k`-th file of session `i` has this name. -/
def Desk.Owns (d : Desk ι) (i : ι) : Fin GP_MAX_TMP_FILES → TmpName → Prop := (d.sessions i).Has

/-- The tables are in order, and so are the files. -/
structure DeskOk (start : Files) (d : Desk ι) : Prop where
  ok : ∀ i s, (d.sessions i).session = some s → s.ctrl.Ok
  tidy : Tidy start d.files d.Owns

theorem owns_set_self (d : Desk ι) (i : ι) (stage : Stage) :
    (d.set i stage).Owns i = stage.Has := by
  rw [Desk.Owns, set_sessions_self]

theorem owns_set_of_ne (d : Desk ι) {i j : ι} (h : j ≠ i) (stage : Stage) :
    (d.set i stage).Owns j = d.Owns j := by
  rw [Desk.Owns, set_sessions_of_ne d h]
  rfl

/-- One session changes, and its table with it. -/
theorem DeskOk.of_set {start : Files} {d : Desk ι} (h : DeskOk start d) (files : Files)
    (images : Images) {i : ι} {stage : Stage} (hok : ∀ s, stage.session = some s → s.ctrl.Ok)
    (htidy : Tidy start files (d.set i stage).Owns) :
    DeskOk start ({ d with files := files, images := images }.set i stage) where
  ok := fun j s hs => by
    by_cases hj : j = i
    · subst hj
      rw [set_sessions_self] at hs
      exact hok s hs
    · rw [set_sessions_of_ne _ hj] at hs
      exact h.ok j s hs
  tidy := htidy

/-- The table of one session stays as it is. -/
theorem DeskOk.of_same {start : Files} {d : Desk ι} (h : DeskOk start d) (images : Images) {i : ι}
    {stage : Stage} (hok : ∀ s, stage.session = some s → s.ctrl.Ok)
    (hhas : ∀ k name, stage.Has k name ↔ d.Owns i k name) :
    DeskOk start ({ d with images := images }.set i stage) := by
  refine h.of_set d.files images hok (h.tidy.congr fun j k name => ?_)
  by_cases hj : j = i
  · subst hj
    rw [owns_set_self]
    exact hhas k name
  · rw [owns_set_of_ne d hj]

omit [DecidableEq ι] in
theorem DeskOk.hasBelow_iff {start : Files} {d : Desk ι} (h : DeskOk start d) {i : ι} {s : Session}
    (hsession : (d.sessions i).session = some s) (file : Text) :
    s.ctrl.HasBelow s.ctrl.ntmp file ↔ ∃ k name, d.Owns i k name ∧ name.text = file := by
  constructor
  · rintro ⟨k, -, hfile⟩
    obtain ⟨name, hname, hfile⟩ := Option.map_eq_some_iff.mp hfile
    exact ⟨k, name, (Stage.has_iff hsession k name).mpr hname, hfile⟩
  · rintro ⟨k, name, hname, hfile⟩
    have hentry := (Stage.has_iff hsession k name).mp hname
    exact ⟨k, ((h.ok i s hsession).isSome_iff k).mp (by rw [hentry]; rfl),
      by rw [hentry, Option.map_some, hfile]⟩

omit [DecidableEq ι] in
theorem DeskOk.there_of_hasBelow {start : Files} {d : Desk ι} (h : DeskOk start d) {i : ι}
    {s : Session} (hsession : (d.sessions i).session = some s) {file : Text}
    (hfile : s.ctrl.HasBelow s.ctrl.ntmp file) : (d.files file).isSome = true := by
  obtain ⟨k, name, hname, rfl⟩ := (h.hasBelow_iff hsession file).mp hfile
  exact h.tidy.there i k name hname

omit [DecidableEq ι] in
theorem DeskOk.not_hasBelow_of_ne {start : Files} {d : Desk ι} (h : DeskOk start d) {i j : ι}
    {s t : Session} (hs : (d.sessions i).session = some s) (ht : (d.sessions j).session = some t)
    (hne : j ≠ i) {file : Text} (hfile : s.ctrl.HasBelow s.ctrl.ntmp file) :
    ¬ t.ctrl.HasBelow t.ctrl.ntmp file := by
  intro hfile'
  obtain ⟨k, name, hname, rfl⟩ := (h.hasBelow_iff hs file).mp hfile
  obtain ⟨l, name', hname', heq⟩ := (h.hasBelow_iff ht name.text).mp hfile'
  rw [TmpName.text_injective heq] at hname'
  exact hne (h.tidy.distinct j i l k name hname' hname).1

theorem gnuplot_close_eq_some {files files' : Files} {s : Session} (hok : s.ctrl.Ok)
    (hclose : gnuplot_close files s = some files') :
    s.pipe = [] ∧ files' = without files s.ctrl s.ctrl.ntmp := by
  unfold gnuplot_close at hclose
  rw [removeAll_eq files hok, Option.map_some] at hclose
  dsimp only at hclose
  split at hclose
  case isTrue hpipe => exact ⟨hpipe, (Option.some.inj hclose).symm⟩
  case isFalse => cases hclose

/-- One session has removed its files. -/
theorem DeskOk.of_removed {start : Files} {d : Desk ι} (h : DeskOk start d) {i : ι} {s : Session}
    (hsession : (d.sessions i).session = some s) {stage : Stage}
    (hok : ∀ s, stage.session = some s → s.ctrl.Ok) (hnone : ∀ k name, ¬ stage.Has k name) :
    DeskOk start ({ d with files := without d.files s.ctrl s.ctrl.ntmp }.set i stage) := by
  have hiff := h.hasBelow_iff hsession
  refine h.of_set _ d.images hok (h.tidy.removeAll (i := i) (fun k name hname => ?_)
    (fun file hfile => ?_) fun j k name => ?_)
  · exact if_pos ((hiff _).mpr ⟨k, name, hname, rfl⟩)
  · refine if_neg fun hbelow => ?_
    obtain ⟨k, name, hname, heq⟩ := (hiff file).mp hbelow
    exact hfile k name hname heq
  · by_cases hj : j = i
    · subst hj
      rw [owns_set_self]
      exact iff_of_false (hnone k name) fun h => h.2 rfl
    · rw [owns_set_of_ne d hj]
      exact (and_iff_left hj).symm

theorem deskOk_step {start : Files} {d d' : Desk ι} {e : DeskEvent ι α} (h : DeskOk start d)
    (hstep : DeskStep e18 d e d') : DeskOk start d' := by
  cases deskNext_of_step hstep with
  | @init i hstage =>
    have hok : gnuplot_init.ctrl.Ok := GnuplotCtrl.ok_of_none (fun _ => rfl) rfl
    refine h.of_same d.images (fun s hs => Option.some.inj hs ▸ hok) fun k name => ?_
    exact iff_of_false (fun hhas => by cases (Stage.has_iff rfl k name).mp hhas)
      (Stage.not_has (by rw [hstage]; rfl) k name)
  | @call i call tmp s s' files hstage hrun =>
    have hsession : (d.sessions i).session = some s := congrArg Stage.session hstage
    have hsok := h.ok i s hsession
    cases callSpec e18 call tmp hsok with
    | keep h' texts run_eq tbl_eq ntmp_eq _ =>
      cases (run_eq d.files s.pipe s.plotter).symm.trans hrun
      have hok := hsok.of_same tbl_eq ntmp_eq
      refine h.of_same d.images (fun s hs => Option.some.inj hs ▸ hok) fun k name => ?_
      rw [Stage.has_iff rfl, tbl_eq]
      exact (Stage.has_iff hsession k name).symm
    | reset _ h' run_eq tbl_eq ntmp_eq =>
      cases (run_eq d.files s.pipe s.plotter).symm.trans hrun
      have hok := GnuplotCtrl.ok_of_none tbl_eq ntmp_eq
      refine h.of_removed hsession (fun s hs => Option.some.inj hs ▸ hok) fun k name hhas => ?_
      have hname := (Stage.has_iff rfl k name).mp hhas
      rw [tbl_eq] at hname
      cases hname
    | add name data title h' tmp_eq lt run_eq tbl_eq ntmp_eq =>
      have hadd := (run_eq d.files s.pipe s.plotter).symm.trans hrun
      split at hadd
      case isFalse => cases hadd
      case isTrue hfresh =>
        cases hadd
        have hok := hsok.of_update lt tbl_eq ntmp_eq
        refine h.of_set _ d.images (fun s hs => Option.some.inj hs ▸ hok)
          (h.tidy.add (i := i) (k := ⟨s.ctrl.ntmp, hsok.ntmp_lt⟩) data hfresh fun j k name' => ?_)
        by_cases hj : j = i
        case neg =>
          rw [owns_set_of_ne d hj]
          exact (or_iff_left fun h => hj h.1).symm
        subst hj
        rw [owns_set_self, Stage.has_iff rfl, tbl_eq, Function.update_apply]
        have hown : d.Owns j k name' ↔ s.ctrl.tmp_filename_tbl k = some name' :=
          Stage.has_iff hsession k name'
        rw [hown]
        split
        case isTrue hk =>
          have hnull : s.ctrl.tmp_filename_tbl k = none := by
            rw [hk]
            exact Option.not_isSome_iff_eq_none.mp (mt (hsok.isSome_iff _).mp (lt_irrefl _))
          rw [hnull, Option.some_inj]
          exact ⟨fun heq => .inr ⟨rfl, hk, heq.symm⟩,
            fun h => h.elim nofun fun h => h.2.2.symm⟩
        case isFalse hk => exact (or_iff_left fun h => hk h.2.1).symm
  | @read i ctrl text pipe plotter hsession =>
    refine h.of_same _ (fun s hs => ?_) fun k name => ?_
    · rw [session_withSession hsession] at hs
      cases hs
      exact (h.ok i _ hsession).of_same rfl rfl
    · rw [Stage.has_iff (session_withSession hsession)]
      exact (Stage.has_iff hsession k name).symm
  | @close i s files hstage hclose =>
    have hsession : (d.sessions i).session = some s := congrArg Stage.session hstage
    obtain ⟨-, rfl⟩ := gnuplot_close_eq_some (h.ok i s hsession) hclose
    exact h.of_removed hsession nofun (Stage.not_has rfl)
  | @abandon i s hstage =>
    have hsession : (d.sessions i).session = some s := congrArg Stage.session hstage
    refine h.of_same d.images (fun s' hs' => Option.some.inj hs' ▸ h.ok i s hsession)
      fun k name => ?_
    rw [Stage.has_iff rfl]
    exact (Stage.has_iff hsession k name).symm

/-- No session has run yet. -/
def Desk.Fresh (d : Desk ι) : Prop := ∀ i, d.sessions i = .notYet

omit [DecidableEq ι] in
theorem deskOk_start {d : Desk ι} (h : d.Fresh) : DeskOk d.files d := by
  have hnone (i : ι) : (d.sessions i).session = none := by rw [h i]; rfl
  have howns (i : ι) (k : Fin GP_MAX_TMP_FILES) (name : TmpName) : ¬ d.Owns i k name :=
    Stage.not_has (hnone i) k name
  exact {
    ok := fun i s hs => by cases (hnone i).symm.trans hs
    tidy := {
      there := fun i k name hname => absurd hname (howns i k name)
      distinct := fun i _ k _ name hname => absurd hname (howns i k name)
      others := fun _ _ => rfl
      absent := fun i k name hname => absurd hname (howns i k name) } }

theorem deskOk_run {d d' : Desk ι} {history : List (Transition (Desk ι) (DeskEvent ι α))}
    (hstart : d.Fresh) (hrun : Run (DeskStep e18) d history d') : DeskOk d.files d' :=
  (hrun.invariant (fun _ _ _ h hstep => deskOk_step h hstep) (deskOk_start hstart)).1

variable (e18) in
/-- What holds of the temporary files, where these were there at the start. -/
structure TmpFiles (start : Files) (d : Desk ι) : Prop where
  /-- a session never has more than one less than there is space for -/
  ntmp_lt : ∀ i s, (d.sessions i).session = some s → s.ctrl.ntmp < GP_MAX_TMP_FILES
  /-- every call is possible, as `mkstemp` finds a name that is not taken, if it finds one -/
  callable : ∀ i s (call : PlotCall α) tmp, d.sessions i = .running s →
    (∀ name, tmp = some name → d.files name.text = none) →
    (runDesk e18 (.call i call tmp) d).isSome = true
  /-- a session can be closed when its plotter has read everything -/
  closable : ∀ i s, d.sessions i = .running s → s.pipe = [] →
    (runDesk e18 (.close i true) d).isSome = true
  /-- a file in a table is there -/
  there : ∀ i k name, d.Owns i k name → (d.files name.text).isSome = true
  /-- and is in no other place or table -/
  distinct : ∀ i j k l name, d.Owns i k name → d.Owns j l name → i = j ∧ k = l
  /-- all other files are as they were -/
  others : ∀ file, (∀ i k name, d.Owns i k name → name.text ≠ file) → d.files file = start file
  /-- and all of them when all sessions have been closed -/
  removed : (∀ i, d.sessions i = .closed) → d.files = start

/-- In every state of every run, whatever the order of the calls and of what the plotters read. The
files of a closed session are gone, as it has no table any more; those of an abandoned one
stay. -/
theorem tmpfiles_tidy {d d' : Desk ι} {history : List (Transition (Desk ι) (DeskEvent ι α))}
    (hstart : d.Fresh) (hrun : Run (DeskStep e18) d history d') : TmpFiles e18 d.files d' := by
  have hok := deskOk_run hstart hrun
  refine ⟨fun i s hs => (hok.ok i s hs).ntmp_lt, fun i s call tmp hstage hfresh => ?_,
    fun i s hstage hpipe => ?_, hok.tidy.there, hok.tidy.distinct, hok.tidy.others,
    fun hclosed => funext fun file => hok.tidy.others file fun i k name hname => ?_⟩
  · have hsession : (d'.sessions i).session = some s := congrArg Stage.session hstage
    have hrun : (call.run e18 tmp d'.files s).isSome = true := by
      cases callSpec e18 call tmp (hok.ok i s hsession) with
      | keep h' texts run_eq _ _ _ => exact (congrArg Option.isSome (run_eq _ s.pipe s.plotter))
      | reset _ h' run_eq _ _ => exact (congrArg Option.isSome (run_eq _ s.pipe s.plotter))
      | add name data title h' tmp_eq _ run_eq _ _ =>
        have hadd := run_eq d'.files s.pipe s.plotter
        rw [if_pos (hfresh name tmp_eq)] at hadd
        exact congrArg Option.isSome hadd
    unfold runDesk
    dsimp only
    rw [hstage]
    dsimp only
    rw [Option.isSome_map, hrun]
  · have hsession : (d'.sessions i).session = some s := congrArg Stage.session hstage
    unfold runDesk
    dsimp only
    rw [hstage]
    dsimp only
    rw [if_pos rfl, Option.isSome_map, gnuplot_close, if_pos hpipe,
      removeAll_eq d'.files (hok.ok i s hsession)]
    rfl
  · exact absurd hname (Stage.not_has (by rw [hclosed i]; rfl) k name)

end Events

/-- No files, no pictures, and two sessions that have not begun. -/
def emptyDesk : Desk Bool := ⟨fun _ => none, fun _ => [], fun _ => .notYet⟩

/-- Two sessions with a picture of one line each. The plotter of the first one reads its commands
when the other one has sent all of its own; the first one is closed. -/
def twoSessions : List (DeskEvent Bool ℕ) :=
  [.init true, .init false,
    .call true (.cmd "set output \x22a.png\x22".toList) none,
    .call false (.cmd "set output \x22b.png\x22".toList) none,
    .call true (.plot_xy [(1, 2)] (some "a".toList))
      (some ⟨"aaaaaa".toList, rfl, List.all_eq_true.mp rfl⟩),
    .call false (.plot_xy [(3, 4)] (some "b".toList))
      (some ⟨"bbbbbb".toList, rfl, List.all_eq_true.mp rfl⟩),
    .read false, .read true, .read true, .close true true]

/-- The session is over. -/
def Stage.isClosed : Stage → Bool
  | .closed => true
  | _ => false

theorem Stage.eq_closed {stage : Stage} (h : stage.isClosed = true) : stage = .closed := by
  cases stage <;> first | rfl | cases h

theorem exists_twoSessions : ∃ history d, Run (DeskStep (Nat.toDigits 10)) emptyDesk history d ∧
    history.map Transition.event = twoSessions ∧ d.sessions true = .closed := by
  have hend : (followSome (runDesk (Nat.toDigits 10)) twoSessions emptyDesk).map
      (fun r => (r.2.sessions true).isClosed) = some true := by
    decide
  obtain ⟨⟨history, d⟩, hfollow, hclosed⟩ := Option.map_eq_some_iff.mp hend
  exact ⟨history, d, Run.of_followSome hfollow, Run.events_of_followSome hfollow,
    Stage.eq_closed hclosed⟩

/-- Each of them has had a file, and one has been closed. -/
theorem tmpfiles_tidy_twoSessions : ∃ history d,
    Run (DeskStep (Nat.toDigits 10)) emptyDesk history d ∧
      history.map Transition.event = twoSessions ∧ d.sessions true = .closed ∧
      TmpFiles (Nat.toDigits 10) emptyDesk.files d := by
  obtain ⟨history, d, hrun, hevents, hclosed⟩ := exists_twoSessions
  exact ⟨history, d, hrun, hevents, hclosed, tmpfiles_tidy (fun _ => rfl) hrun⟩

end Gnuplot

end OfcBenchmark
