import OfcBenchmark.Lib.Printf

/-!
# A plotter behind a pipe

A plotter reads commands from a pipe, whenever it gets to them, and the points of its lines from
files. What it draws goes to the file that was set as its output.

* `readCommand`: what a text means to it; a command that was printed is read as it was meant
  (`readCommand_setOutput`, `readCommand_plot`, `readCommand_replot`);
* `drain`: the pictures there are when it has read some commands;
* `drain_congr`: of the files only those count that are named in a line;
* `drain_images_congr`, `draw_of_output_ne`: a picture depends on the commands that set it as the
  output, and on no other picture.
-/

namespace Plotter
open Printf (Text)

/-! ## Commands -/

/-- A line of a picture: the file with its points, its title and its style. -/
structure Line where
  file : Text
  title : Text
  style : Text
deriving DecidableEq

/-- What a command can be: `set output`, a picture with this line alone, one with this line and
those of the last picture, or a setting. -/
inductive Command
  | setOutput (file : Text)
  | plot (line : Line)
  | replot (line : Line)
  | setting (text : Text)
deriving DecidableEq

/-- A text up to a quotation mark, and what is behind it. -/
def upToQuote : Text → Option (Text × Text)
  | [] => none
  | c :: rest =>
    if c = '\x22' then some ([], rest) else (upToQuote rest).map fun r => (c :: r.1, r.2)

/-- What is behind a keyword. -/
def behind (keyword text : Text) : Option Text :=
  if keyword.isPrefixOf text then some (text.drop keyword.length) else none

/-- `"<file>" title "<title>" with <style>`, behind the first quotation mark. -/
def readLine (text : Text) : Option Line := do
  let (file, rest) ← upToQuote text
  let rest ← behind " title \x22".toList rest
  let (title, rest) ← upToQuote rest
  let style ← behind " with ".toList rest
  some ⟨file, title, style⟩

/-- What a text means. -/
def readCommand (text : Text) : Command :=
  match (behind "set output \x22".toList text).bind upToQuote with
  | some (file, _) => .setOutput file
  | none =>
    match (behind "plot \x22".toList text).bind readLine with
    | some line => .plot line
    | none =>
      match (behind "replot \x22".toList text).bind readLine with
      | some line => .replot line
      | none => .setting text

/-- How a line is printed, from the first quotation mark on. -/
def Line.text (line : Line) : Text :=
  '\x22' :: line.file ++ "\x22 title \x22".toList ++ line.title ++ "\x22 with ".toList ++ line.style

/-- A line that can be read back: its style is at the end. -/
structure Line.Quotable (line : Line) : Prop where
  file : '\x22' ∉ line.file
  title : '\x22' ∉ line.title

theorem upToQuote_append {text : Text} (h : '\x22' ∉ text) (rest : Text) :
    upToQuote (text ++ '\x22' :: rest) = some (text, rest) := by
  induction text with
  | nil => rfl
  | cons c text ih =>
    obtain ⟨hc, htext⟩ := not_or.mp (mt List.mem_cons.mpr h)
    rw [List.cons_append, upToQuote, if_neg (Ne.symm hc), ih htext]
    rfl

theorem behind_append (keyword rest : Text) : behind keyword (keyword ++ rest) = some rest := by
  have hprefix : keyword.isPrefixOf (keyword ++ rest) = true :=
    List.isPrefixOf_iff_prefix.mpr (List.prefix_append keyword rest)
  rw [behind, if_pos hprefix, List.drop_left]

theorem tail_text (line : Line) :
    line.text.tail = line.file ++ '\x22' :: (" title \x22".toList ++
      (line.title ++ '\x22' :: (" with ".toList ++ line.style))) := by
  simp [Line.text]

theorem readLine_text {line : Line} (h : line.Quotable) : readLine line.text.tail = some line := by
  rw [tail_text, readLine, upToQuote_append h.file, Option.bind_eq_bind, Option.bind_some]
  dsimp only
  rw [behind_append, Option.bind_eq_bind, Option.bind_some, upToQuote_append h.title,
    Option.bind_some]
  dsimp only
  rw [behind_append]
  rfl

/-- Whatever the title, the file is the one that was printed. -/
theorem file_of_readLine {line line' : Line} (h : '\x22' ∉ line.file)
    (hread : readLine line.text.tail = some line') : line'.file = line.file := by
  rw [tail_text, readLine, upToQuote_append h, Option.bind_eq_bind, Option.bind_some] at hread
  obtain ⟨rest, -, hread⟩ := Option.bind_eq_some_iff.mp hread
  obtain ⟨⟨title, rest'⟩, -, hread⟩ := Option.bind_eq_some_iff.mp hread
  obtain ⟨style, -, hread⟩ := Option.bind_eq_some_iff.mp hread
  cases hread
  rfl

theorem readCommand_setOutput {file : Text} (h : '\x22' ∉ file) (rest : Text) :
    readCommand ("set output \x22".toList ++ file ++ '\x22' :: rest) = .setOutput file := by
  rw [readCommand, List.append_assoc, behind_append, Option.bind_some, upToQuote_append h]

theorem readCommand_plot_text (line : Line) :
    readCommand ("plot ".toList ++ line.text)
      = match readLine line.text.tail with
        | some line => .plot line
        | none => .setting ("plot ".toList ++ line.text) := by
  have htext : "plot ".toList ++ line.text = "plot \x22".toList ++ line.text.tail := rfl
  have houtput : behind "set output \x22".toList ("plot \x22".toList ++ line.text.tail) = none :=
    rfl
  have hreplot : behind "replot \x22".toList ("plot \x22".toList ++ line.text.tail) = none := rfl
  rw [htext, readCommand, houtput, Option.bind_none]
  dsimp only
  rw [behind_append, Option.bind_some]
  cases readLine line.text.tail with
  | some line => rfl
  | none => rw [hreplot]; rfl

theorem readCommand_replot_text (line : Line) :
    readCommand ("replot ".toList ++ line.text)
      = match readLine line.text.tail with
        | some line => .replot line
        | none => .setting ("replot ".toList ++ line.text) := by
  have htext : "replot ".toList ++ line.text = "replot \x22".toList ++ line.text.tail := rfl
  have houtput : behind "set output \x22".toList ("replot \x22".toList ++ line.text.tail) = none :=
    rfl
  have hplot : behind "plot \x22".toList ("replot \x22".toList ++ line.text.tail) = none := rfl
  rw [htext, readCommand, houtput, Option.bind_none]
  dsimp only
  rw [hplot, Option.bind_none]
  dsimp only
  rw [behind_append, Option.bind_some]

theorem readCommand_plot {line : Line} (h : line.Quotable) :
    readCommand ("plot ".toList ++ line.text) = .plot line := by
  rw [readCommand_plot_text, readLine_text h]

theorem readCommand_replot {line : Line} (h : line.Quotable) :
    readCommand ("replot ".toList ++ line.text) = .replot line := by
  rw [readCommand_replot_text, readLine_text h]

/-! ## Pictures -/

/-- The points of a line as they were drawn, `none` where there was no file to read. -/
structure Curve where
  data : Option Text
  title : Text
  style : Text
deriving DecidableEq

/-- A picture, with the settings under which it was drawn. -/
structure Picture where
  settings : List Text
  curves : List Curve
deriving DecidableEq

/-- What the plotter has been told. -/
structure State where
  settings : List Text
  output : Option Text
  lines : List Line

/-- The plotter as it is started. -/
def State.start : State := ⟨[], none, []⟩

/-- The files with the points. -/
abbrev Files := Text → Option Text

/-- The pictures in each output file, since it was opened. -/
abbrev Images := Text → List Picture

/-- What it has been told after a command. -/
def State.next (p : State) : Command → State
  | .setOutput file => { p with output := some file }
  | .plot line => { p with lines := [line] }
  | .replot line => { p with lines := p.lines ++ [line] }
  | .setting text => { p with settings := p.settings ++ [text] }

/-- The picture that is drawn now. -/
def State.picture (files : Files) (p : State) : Picture :=
  ⟨p.settings, p.lines.map fun line => ⟨files line.file, line.title, line.style⟩⟩

/-- The output files after a command, which has led to this state. A file that is set as the
output is opened, and empty then. -/
def State.draw (files : Files) (p : State) (c : Command) (images : Images) : Images :=
  match c with
  | .setOutput file => Function.update images file []
  | .plot _ | .replot _ =>
    match p.output with
    | some file => Function.update images file (images file ++ [p.picture files])
    | none => images
  | .setting _ => images

/-- After a text has been read. -/
def State.after (p : State) (text : Text) : State := p.next (readCommand text)

/-- After these texts. -/
def State.afterAll (p : State) (texts : List Text) : State := texts.foldl State.after p

/-- The output files when these texts have been read, with the files as they are. -/
def drain (files : Files) : List Text → State → Images → Images
  | [], _, images => images
  | text :: texts, p, images =>
    drain files texts (p.after text) ((p.after text).draw files (readCommand text) images)

theorem State.afterAll_append (p : State) (texts texts' : List Text) :
    p.afterAll (texts ++ texts') = (p.afterAll texts).afterAll texts' := List.foldl_append

theorem drain_append (files : Files) (texts texts' : List Text) (p : State) (images : Images) :
    drain files (texts ++ texts') p images
      = drain files texts' (p.afterAll texts) (drain files texts p images) := by
  induction texts generalizing p images with
  | nil => rfl
  | cons text texts ih => exact ih _ _

/-! ## What a picture depends on -/

/-- The line that a command is about. -/
def Command.line : Command → Option Line
  | .plot line | .replot line => some line
  | _ => none

/-- The files that are named in these lines and texts. -/
def Names (p : State) (texts : List Text) (file : Text) : Prop :=
  (∃ line ∈ p.lines, line.file = file) ∨
    ∃ text ∈ texts, ∃ line, (readCommand text).line = some line ∧ line.file = file

theorem names_next {p : State} {text : Text} {texts : List Text} {file : Text}
    (h : Names (p.after text) texts file) : Names p (text :: texts) file := by
  rcases h with ⟨line, hline, hfile⟩ | ⟨text', htext', h⟩
  · unfold State.after at hline
    cases hc : readCommand text with
    | setOutput _ | setting _ =>
      rw [hc] at hline
      exact .inl ⟨line, hline, hfile⟩
    | plot line' =>
      rw [hc] at hline
      exact .inr ⟨text, List.mem_cons_self, line', by rw [hc]; rfl,
        List.mem_singleton.mp hline ▸ hfile⟩
    | replot line' =>
      rw [hc] at hline
      rcases List.mem_append.mp hline with hline | hline
      · exact .inl ⟨line, hline, hfile⟩
      · exact .inr ⟨text, List.mem_cons_self, line', by rw [hc]; rfl,
          List.mem_singleton.mp hline ▸ hfile⟩
  · exact .inr ⟨text', List.mem_cons_of_mem _ htext', h⟩

theorem names_afterAll {p : State} {texts texts' : List Text} {file : Text}
    (h : Names (p.afterAll texts) texts' file) : Names p (texts ++ texts') file := by
  induction texts generalizing p with
  | nil => exact h
  | cons text texts ih => exact names_next (ih h)

theorem names_append {p : State} {texts texts' : List Text} {file : Text}
    (h : Names p (texts ++ texts') file) : Names p texts file ∨
      ∃ text ∈ texts', ∃ line, (readCommand text).line = some line ∧ line.file = file := by
  rcases h with h | ⟨text, htext, h⟩
  · exact .inl (.inl h)
  · rcases List.mem_append.mp htext with htext | htext
    · exact .inl (.inr ⟨text, htext, h⟩)
    · exact .inr ⟨text, htext, h⟩

theorem picture_congr {files files' : Files} {p : State}
    (h : ∀ line ∈ p.lines, files line.file = files' line.file) :
    p.picture files = p.picture files' := by
  have hcurves : (p.lines.map fun line => (⟨files line.file, line.title, line.style⟩ : Curve))
      = p.lines.map fun line => ⟨files' line.file, line.title, line.style⟩ :=
    List.map_congr_left fun line hline => by rw [h line hline]
  rw [State.picture, State.picture, hcurves]

theorem drain_congr {files files' : Files} {texts : List Text} {p : State}
    (h : ∀ file, Names p texts file → files file = files' file) (images : Images) :
    drain files texts p images = drain files' texts p images := by
  induction texts generalizing p images with
  | nil => rfl
  | cons text texts ih =>
    have hrest : ∀ file, Names (p.after text) texts file → files file = files' file :=
      fun file hfile => h file (names_next hfile)
    have hpicture : (p.after text).picture files = (p.after text).picture files' :=
      picture_congr fun line hline => hrest line.file (.inl ⟨line, hline, rfl⟩)
    have hdraw : (p.after text).draw files (readCommand text) images
        = (p.after text).draw files' (readCommand text) images := by
      unfold State.draw
      rw [hpicture]
    rw [drain, drain, hdraw]
    exact ih hrest _

/-- The files that these texts can write to. -/
def Outputs (p : State) (texts : List Text) (file : Text) : Prop :=
  p.output = some file ∨ ∃ text ∈ texts, readCommand text = .setOutput file

theorem outputs_next {p : State} {text : Text} {texts : List Text} {file : Text}
    (h : Outputs (p.after text) texts file) : Outputs p (text :: texts) file := by
  rcases h with houtput | ⟨text', htext', h⟩
  · unfold State.after at houtput
    cases hc : readCommand text with
    | setOutput file' =>
      rw [hc] at houtput
      exact .inr ⟨text, List.mem_cons_self, hc.trans (congrArg _ (Option.some.inj houtput))⟩
    | plot _ | replot _ | setting _ =>
      rw [hc] at houtput
      exact .inl houtput
  · exact .inr ⟨text', List.mem_cons_of_mem _ htext', h⟩

theorem draw_images_congr (files : Files) (p : State) (c : Command) {images images' : Images}
    {file : Text} (h : images file = images' file) :
    p.draw files c images file = p.draw files c images' file := by
  have hupdate (file' : Text) {pages pages' : List Picture}
      (hpages : file = file' → pages = pages') :
      Function.update images file' pages file = Function.update images' file' pages' file := by
    rw [Function.update_apply, Function.update_apply]
    split
    case isTrue heq => exact hpages heq
    case isFalse => exact h
  unfold State.draw
  cases c with
  | setOutput file' => exact hupdate file' fun _ => rfl
  | plot _ | replot _ =>
    cases p.output with
    | none => exact h
    | some file' => exact hupdate file' fun heq => by rw [← heq, h]
  | setting _ => exact h

theorem drain_images_congr (files : Files) (texts : List Text) (p : State) {images images' : Images}
    {file : Text} (h : images file = images' file) :
    drain files texts p images file = drain files texts p images' file := by
  induction texts generalizing p images images' with
  | nil => exact h
  | cons text texts ih => exact ih _ (draw_images_congr files _ _ h)

theorem draw_of_output_ne {files : Files} {p : State} {c : Command} {file : Text}
    (h : (p.next c).output ≠ some file) (images : Images) :
    (p.next c).draw files c images file = images file := by
  cases c with
  | setOutput file' =>
    exact Function.update_of_ne (fun heq => h (congrArg some heq.symm)) _ _
  | plot _ | replot _ =>
    unfold State.draw
    cases houtput : (p.next _).output with
    | none => rfl
    | some file' =>
      exact Function.update_of_ne (fun heq => h (houtput.trans (congrArg some heq.symm))) _ _
  | setting _ => rfl

end Plotter
