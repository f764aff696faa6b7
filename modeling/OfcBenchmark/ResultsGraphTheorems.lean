import OfcBenchmark.PlotArraysTheorems
import OfcBenchmark.ReportQueuesTheorems

/-!
# The graph of the results

`setXtic` and `parseResults` find the same bodies in a text in which they stand one after the
other: the hosts are numbered as they stand there, and the numbers of each are in the row of its
host (`roundTrip_text`). But `plotDistributed` makes this text of one body only: with two bodies
and more it follows the link of a message it has freed (`results_roundTrip_iff`).
-/

namespace OfcBenchmark
open Printf Table

/-! ## Joining -/

theorem strncat_of_lt {capacity count : ℕ} {buffer text : Text} (htext : text.length ≤ count)
    (hfit : (buffer ++ text).length < capacity) :
    strncat capacity buffer text count = some (buffer ++ text) := by
  unfold strncat
  rw [List.take_of_length_le htext]
  exact if_pos hfit

theorem eq_of_strncat {capacity count : ℕ} {buffer text joined : Text}
    (htext : text.length ≤ count) (h : strncat capacity buffer text count = some joined) :
    joined = buffer ++ text := by
  unfold strncat at h
  rw [List.take_of_length_le htext] at h
  dsimp only at h
  split at h
  case isTrue => exact (Option.some.inj h).symm
  case isFalse => cases h

theorem Report.concatenate_none (capacity n : ℕ) (heap : Pointer → Option Message)
    (buffer : Text) : Report.concatenate capacity n heap buffer none = some buffer := by
  cases n <;> rfl

/-- Where there is a message behind the first body, the loop does not get past it. -/
theorem Report.concatenate_some (capacity n : ℕ) (heap : Pointer → Option Message) (buffer : Text)
    (resultsIterator : Pointer) :
    Report.concatenate capacity n heap buffer (some resultsIterator) = none := by
  cases n with
  | zero => rfl
  | succ n =>
    rw [Report.concatenate]
    refine Option.bind_eq_none_iff.mpr fun message _ => ?_
    refine Option.bind_eq_none_iff.mpr fun buffer _ => ?_
    dsimp only
    rw [Function.update_self]
    rfl

/-- In memory with this queue a text is made of the bodies exactly if there is one, and it is this
body with another newline. -/
theorem joinResults_eq_some_iff {r : Report} {header joined : Text} {texts : List Text}
    {l : List Pointer} (h : IsQueue r .results (header :: texts) l) (n : ℕ) :
    r.joinResults n = some joined ↔ ∃ text, texts = [text] ∧
      strncat (Report.resultsCapacity (r.queues .results).length) text [CSV_NEWLINE] 2
        = some joined := by
  obtain ⟨first, l, rfl⟩ : ∃ first l', l = first :: l' := by
    cases l with
    | nil => cases h.texts_eq
    | cons first l => exact ⟨first, l, rfl⟩
  obtain ⟨hfirst, hback⟩ := h.back
  have htexts : l.map r.text = texts.map some := (List.cons.inj h.texts_eq).2
  rw [Report.joinResults, hfirst, Option.bind_eq_bind, Option.bind_some]
  cases l with
  | nil =>
    have hnone : r.back first = none := hback
    rw [hnone]
    refine iff_of_false (fun hjoin => by cases hjoin) ?_
    rintro ⟨text, rfl, -⟩
    cases htexts
  | cons a l =>
    obtain ⟨ha, hrest⟩ := hback
    obtain ⟨text, texts, rfl⟩ : ∃ text texts', texts = text :: texts' := by
      cases texts with
      | nil => cases htexts
      | cons text texts => exact ⟨text, texts, rfl⟩
    obtain ⟨htext, hothers⟩ := List.cons.inj htexts
    obtain ⟨message, hmessage, rfl⟩ := Option.map_eq_some_iff.mp htext
    rw [Report.back, hmessage, Option.bind_some] at hrest
    rw [ha, Option.bind_eq_bind, Option.bind_some, hmessage, Option.bind_eq_bind, Option.bind_some]
    cases l with
    | nil =>
      have hnone : message.back = none := hrest
      obtain rfl : texts = [] := List.map_eq_nil_iff.mp hothers.symm
      rw [hnone]
      dsimp only
      rw [Report.concatenate_none, Option.bind_some]
      constructor
      · exact fun hjoin => ⟨_, rfl, hjoin⟩
      · rintro ⟨text, htext, hjoin⟩
        obtain ⟨rfl, -⟩ := List.cons.inj htext
        exact hjoin
    | cons b l =>
      -- a second body is freed, and its link read
      rw [hrest.1]
      dsimp only
      rw [Report.concatenate_some]
      refine iff_of_false (fun hjoin => by cases hjoin) ?_
      rintro ⟨text, htext, -⟩
      obtain ⟨-, rfl⟩ := List.cons.inj htext
      cases hothers

/-- The calls that enqueue texts for RESULTS, where `malloc` returns the addresses from 0 on. -/
def resultsCalls (texts : List Text) : List EnqueueCall :=
  texts.zipIdx.map fun text => ⟨text.1, .results, false, text.1.length, text.2⟩

theorem freshBlocks_resultsCalls (texts : List Text) :
    FreshBlocks (emptyReport 0) (resultsCalls texts) := by
  refine ⟨?_, fun _ _ => rfl⟩
  have htemps : (resultsCalls texts).map EnqueueCall.temp = List.range texts.length := by
    rw [resultsCalls, List.map_map]
    exact (List.zipIdx_map_snd 0 texts).trans List.range_eq_range'.symm
  rw [htemps]
  exact List.nodup_range

theorem textsOf_resultsCalls (texts : List Text) :
    textsOf .results (resultsCalls texts) = texts := by
  have hfilter : (resultsCalls texts).filter (fun c => c.id = .results) = resultsCalls texts := by
    refine List.filter_eq_self.mpr fun c hc => ?_
    obtain ⟨text, -, rfl⟩ := List.mem_map.mp hc
    rfl
  have hstored (text : Text × ℕ) : (EnqueueCall.stored
      ⟨text.1, .results, false, text.1.length, text.2⟩) = text.1 :=
    List.take_of_length_le le_rfl
  rw [textsOf, hfilter, resultsCalls, List.map_map]
  refine (List.map_congr_left fun text _ => hstored text).trans ?_
  exact List.zipIdx_map_fst 0 texts

/-- Wherever `malloc` puts the messages, the queue is in memory afterwards. -/
theorem exists_isQueue_results {start : Report} {calls : List EnqueueCall}
    (hstart : ∀ id, (start.queues id).first = none ∧ (start.queues id).last = none)
    (hfresh : FreshBlocks start calls) (hne : textsOf .results calls ≠ []) :
    ∃ r l, enqueueMessages calls start = some r ∧ IsQueue r .results (textsOf .results calls) l ∧
      (r.queues .results).length = toInt (textsOf .results calls).length := by
  obtain ⟨r, ls, hrun, hq, -⟩ := exists_enqueueMessages (queued_start hstart) hfresh
  refine ⟨r, ls .results, hrun, hq.isQueue .results, ?_⟩
  exact (hq.length_eq .results).trans (if_neg hne)

/-! ## The labels -/

/-- The command for the labels of the x axis. -/
def xticsText (labels : List (Text × ℕ)) : Text :=
  PlotArrays.xticsStart
    ++ [',', ' '].intercalate
      (labels.map fun label => PlotArrays.quoted label.1 ++ ' ' :: formatInt label.2)
    ++ [')']

/-- How long the command is. -/
theorem length_xticsText {labels : List (Text × ℕ)} (hne : labels ≠ []) :
    (xticsText labels).length
      = 10 + (labels.map fun label => label.1.length + (formatInt label.2).length + 5).sum := by
  have hstart : PlotArrays.xticsStart.length = 11 := by decide
  suffices h : ([',', ' '].intercalate
      (labels.map fun label => PlotArrays.quoted label.1 ++ ' ' :: formatInt label.2)).length + 2
        = (labels.map fun label => label.1.length + (formatInt label.2).length + 5).sum by
    rw [xticsText, List.length_append, List.length_append, hstart, List.length_singleton]
    omega
  induction labels with
  | nil => exact absurd rfl hne
  | cons label labels ih =>
    have hlabel : (PlotArrays.quoted label.1 ++ ' ' :: formatInt label.2).length
        = label.1.length + (formatInt label.2).length + 3 := by
      rw [List.length_append, PlotArrays.length_quoted, List.length_cons]
      omega
    cases labels with
    | nil =>
      rw [List.map_singleton, List.intercalate_singleton, hlabel, List.map_singleton,
        List.sum_singleton]
    | cons next labels =>
      have hrest := ih (List.cons_ne_nil _ _)
      rw [List.map_cons] at hrest
      rw [List.map_cons, List.map_cons, List.intercalate_cons_cons, List.length_append,
        List.length_append, hlabel, List.map_cons (a := label), List.sum_cons, ← hrest]
      show _ + 2 + _ + 2 = _
      omega

namespace PlotArrays

variable {a : PlotArrays}

/-- What is printed comes out as this command. -/
theorem flatMap_xticPieces {hosts : List Text} (hne : hosts ≠ []) :
    (xticPieces a hosts).flatMap Prod.snd = xticsText (hosts.zipIdx 1) := by
  suffices h : ∀ length, (ticPieces a length hosts).flatMap Prod.snd
      = [',', ' '].intercalate ((hosts.zipIdx (length + 1)).map fun label =>
          quoted label.1 ++ ' ' :: formatInt label.2) ++ [')'] by
    rw [xticPieces, List.flatMap_cons, h, xticsText, List.append_assoc]
  induction hosts with
  | nil => exact absurd rfl hne
  | cons host hosts ih =>
    intro length
    cases hosts with
    | nil => simp [ticPieces, tic, List.intercalate]
    | cons next hosts =>
      rw [ticPieces, List.flatMap_cons, List.flatMap_cons, ih (List.cons_ne_nil _ _)]
      simp [tic, List.intercalate]

/-- There is space for these hosts and as many rows. -/
structure LargeEnough (a : PlotArrays) (hosts : List Text) : Prop where
  xtics : (xticsText (hosts.zipIdx 1)).length < a.xtics
  nameYaxis : 30 ≤ a.nameYaxis
  text : 30 ≤ a.text
  plot : hosts.length * NPOINTS_GENERAL ≤ a.plot

/-- `snprintf` is told that there is. -/
def ToldSo (a : PlotArrays) (hosts : List Text) : Prop :=
  ∀ piece ∈ xticPieces a hosts, piece.2.length < piece.1

/-- With the sizes of the source this is so for fewer than a million hosts. -/
theorem toldSo_of_lt {hosts : List Text} (hname : a.nameSize = 50) (hnumber : a.numberSize = 10)
    (hhosts : ∀ host ∈ hosts, host.length ≤ 29) (hlength : hosts.length < 10 ^ 6) :
    a.ToldSo hosts := by
  suffices h : ∀ length, length + hosts.length < 10 ^ 6 →
      ∀ piece ∈ ticPieces a length hosts, piece.2.length < piece.1 by
    intro piece hpiece
    rcases List.mem_cons.mp hpiece with rfl | hpiece
    · decide
    · exact h 0 (by omega) piece hpiece
  clear hlength
  induction hosts with
  | nil => exact fun _ _ _ hpiece => absurd hpiece List.not_mem_nil
  | cons host hosts ih =>
    obtain ⟨hhost, hhosts⟩ := List.forall_mem_cons.mp hhosts
    intro length hlength
    rw [List.length_cons] at hlength
    rw [ticPieces, List.forall_mem_cons, List.forall_mem_cons]
    refine ⟨?_, ?_, ih hhosts (length + 1) (by omega)⟩
    · show (quoted host).length < a.nameSize
      rw [length_quoted, hname]
      omega
    · show (tic (length + 1) hosts.isEmpty).length < a.numberSize
      rw [hnumber]
      exact length_tic_lt (by omega) _

end PlotArrays

/-! ## The round trip -/

/-- No token is longer than 29 characters, and the body not longer than 150. -/
structure ResultsBody.Short (body : ResultsBody) : Prop where
  host_le : body.host.length ≤ 29
  row_le : ∀ token ∈ body.row, token.length ≤ 29
  text_le : body.text.length ≤ 150

section RoundTrip

variable {α : Type} (atof : Text → α)

/-- What `setXtic` makes of the text. -/
theorem setXtic_roundTrip {bodies : List ResultsBody} (hne : bodies ≠ [])
    (hshort : ∀ body ∈ bodies, body.Short) {a : PlotArrays}
    (ha : a.LargeEnough (bodies.map ResultsBody.host)) :
    ∃ x, a.setXtic (bodies.flatMap ResultsBody.text ++ [CSV_NEWLINE]) = some x ∧
      x.labels = (bodies.map ResultsBody.host).zipIdx 1 ∧ x.length = bodies.length ∧
      x.rest = [CSV_NEWLINE] ∧
      (a.ToldSo (bodies.map ResultsBody.host) → x.xtics.text = xticsText x.labels) := by
  have hhosts : bodies.map ResultsBody.host ≠ [] := fun h => hne (List.map_eq_nil_iff.mp h)
  have htext := PlotArrays.flatMap_xticPieces (a := a) hhosts
  have hname : ∀ body ∈ bodies, body.host.length < a.nameYaxis := fun body hbody =>
    ((hshort body hbody).host_le.trans_lt (by decide)).trans_le ha.nameYaxis
  have hfit : ((PlotArrays.xticPieces a (bodies.map ResultsBody.host)).flatMap Prod.snd).length
      < a.xtics := htext ▸ ha.xtics
  obtain ⟨b, hwrite⟩ := Cursor.exists_write (b := Cursor.empty)
    (by rw [Cursor.empty, Nat.zero_add]; exact hfit)
  refine ⟨_, by rw [PlotArrays.setXtic_bodies hne hname, hwrite, Option.map_some], rfl, rfl, rfl,
    fun htold => ?_⟩
  have hput := Cursor.write_of_lt (t := []) htold hfit
  rw [List.nil_append, htext] at hput
  have hb : b = _ := Option.some.inj (hwrite.symm.trans hput)
  rw [hb]

/-- What `setXtic` and `parseResults` are to make of a text of these bodies: the hosts with the
numbers from 1 on and their number, and the four numbers of each in a row of `results`. Nothing is
stored outside these rows, and both stop at the newline that closes the text. -/
structure RoundTrip (a : PlotArrays) (bodies : List ResultsBody) (text : Text) : Prop where
  hosts : ∃ x, a.setXtic text = some x ∧ x.labels = (bodies.map ResultsBody.host).zipIdx 1 ∧
    x.length = bodies.length ∧ x.rest = [CSV_NEWLINE] ∧
    (a.ToldSo (bodies.map ResultsBody.host) → x.xtics.text = xticsText x.labels)
  rows : ∃ r, a.parseResults atof bodies.length text = some r ∧ r.i = bodies.length ∧
    r.rest = [CSV_NEWLINE] ∧
    (∀ results k j, perform results r.stores k j
      = ((bodies[k]?).bind fun body => (body.row[j]?).map atof).getD (results k j)) ∧
    ∀ s ∈ r.stores, s.row < bodies.length ∧ s.column < MAX_VALUES

/-- Bodies that stand one after the other are read as they were written, in arrays that are large
enough. -/
theorem roundTrip_text {bodies : List ResultsBody} (hne : bodies ≠ [])
    (hshort : ∀ body ∈ bodies, body.Short) {a : PlotArrays}
    (ha : a.LargeEnough (bodies.map ResultsBody.host)) :
    RoundTrip atof a bodies (bodies.flatMap ResultsBody.text ++ [CSV_NEWLINE]) := by
  have hroom : ∀ body ∈ bodies, ∀ token ∈ body.row, token.length < a.text :=
    fun body hbody token htoken =>
      (((hshort body hbody).row_le token htoken).trans_lt (by decide)).trans_le ha.text
  have hplot : bodies.length * NPOINTS_GENERAL ≤ a.plot := by
    have hle := ha.plot
    rwa [List.length_map] at hle
  refine ⟨setXtic_roundTrip hne hshort ha, _,
    (PlotArrays.parseResults_bodies atof rfl).mpr ⟨⟨hroom, hplot⟩, rfl⟩, rfl, rfl, ?_, ?_⟩
  · intro results k j
    rw [perform_stores, if_pos (Nat.zero_le k), Nat.sub_zero, List.getElem?_map]
    cases bodies[k]? with
    | none => rfl
    | some body => exact congrArg (Option.getD · _) (List.getElem?_map)
  · intro s hs
    obtain ⟨hrow, values, hvalues, hcolumn⟩ := mem_stores hs
    obtain ⟨body, -, rfl⟩ := List.mem_map.mp hvalues
    rw [Nat.zero_add, List.length_map] at hrow
    rw [List.length_map, body.length_row] at hcolumn
    exact ⟨hrow, hcolumn⟩

/-- The text of a body that is not longer than 150 has space. -/
theorem ResultsBody.Short.strncat {body : ResultsBody} (h : body.Short) :
    OfcBenchmark.strncat (Report.resultsCapacity (toInt 2)) body.text [CSV_NEWLINE] 2
      = some (body.text ++ [CSV_NEWLINE]) := by
  have hcapacity : Report.resultsCapacity (toInt 2) = 302 := by decide
  have hle := h.text_le
  refine strncat_of_lt (by decide) ?_
  rw [hcapacity, List.length_append, List.length_singleton]
  omega

/-- The text that `plotDistributed` makes of the bodies, if there is one: that of one body. -/
theorem joinResults_bodies {header : Text} {bodies : List ResultsBody}
    (hshort : ∀ body ∈ bodies, body.Short) {start : Report} {calls : List EnqueueCall}
    (hstart : ∀ id, (start.queues id).first = none ∧ (start.queues id).last = none)
    (hfresh : FreshBlocks start calls)
    (htexts : textsOf .results calls = header :: bodies.map ResultsBody.text) :
    ∃ r, enqueueMessages calls start = some r ∧ ∀ n text,
      (r.joinResults n = some text ↔
        bodies.length = 1 ∧ text = bodies.flatMap ResultsBody.text ++ [CSV_NEWLINE]) := by
  obtain ⟨r, l, hrun, hqueue, hlength⟩ :=
    exists_isQueue_results hstart hfresh (htexts ▸ List.cons_ne_nil _ _)
  rw [htexts] at hqueue hlength
  refine ⟨r, hrun, fun n text => ?_⟩
  rw [joinResults_eq_some_iff hqueue n, hlength]
  constructor
  · rintro ⟨body, hone, hjoin⟩
    obtain ⟨body', rfl⟩ := List.length_eq_one_iff.mp
      (by rw [← List.length_map (f := ResultsBody.text), hone, List.length_singleton])
    obtain rfl := (List.cons.inj hone).1
    rw [List.flatMap_singleton]
    exact ⟨rfl, eq_of_strncat (by decide) hjoin⟩
  · rintro ⟨hone, rfl⟩
    obtain ⟨body, rfl⟩ := List.length_eq_one_iff.mp hone
    rw [List.flatMap_singleton]
    exact ⟨_, rfl, (hshort body List.mem_cons_self).strncat⟩

/-- Whatever the header, and wherever `malloc` has put the messages: what `plotDistributed` makes
of the bodies is read as they were written exactly if there is one body; but a text in which they
stand one after the other always would be. -/
theorem results_roundTrip_iff (header : Text) (bodies : List ResultsBody) (hne : bodies ≠ [])
    (hshort : ∀ body ∈ bodies, body.Short) (a : PlotArrays)
    (ha : a.LargeEnough (bodies.map ResultsBody.host)) (start : Report) (calls : List EnqueueCall)
    (hstart : ∀ id, (start.queues id).first = none ∧ (start.queues id).last = none)
    (hfresh : FreshBlocks start calls)
    (htexts : textsOf .results calls = header :: bodies.map ResultsBody.text) :
    RoundTrip atof a bodies (bodies.flatMap ResultsBody.text ++ [CSV_NEWLINE]) ∧
      ∃ r, enqueueMessages calls start = some r ∧ ∀ n,
        ((∃ text, r.joinResults n = some text ∧ RoundTrip atof a bodies text) ↔
          bodies.length = 1) := by
  have htext := roundTrip_text atof hne hshort ha
  obtain ⟨r, hrun, hjoin⟩ := joinResults_bodies hshort hstart hfresh htexts
  refine ⟨htext, r, hrun, fun n => ?_⟩
  constructor
  · rintro ⟨text, hsome, -⟩
    exact ((hjoin n text).mp hsome).1
  · exact fun hone => ⟨_, (hjoin n _).mpr ⟨hone, rfl⟩, htext⟩

end RoundTrip

/-- The body of a slave with this address, for rates of 1, 2, 3 and 4. -/
def countingBody (x : Address) : ResultsBody where
  host := hostname x
  row := ["1.00".toList, "2.00".toList, "3.00".toList, "4.00".toList]
  isToken_host := isToken_hostname x
  isToken_row := by
    simp only [List.forall_mem_cons]
    exact ⟨⟨by decide, by decide, by decide⟩, ⟨by decide, by decide, by decide⟩,
      ⟨by decide, by decide, by decide⟩, ⟨by decide, by decide, by decide⟩, by simp⟩
  length_row := rfl

/-- One slave, in the arrays of the source. -/
theorem results_roundTrip_iff_oneSlave : ∃ r text,
    enqueueMessages (resultsCalls ["nodes;".toList, (countingBody ⟨10, 0, 0, 1⟩).text])
        (emptyReport 0) = some r ∧
      r.joinResults 0 = some text ∧ RoundTrip id plotArrays [countingBody ⟨10, 0, 0, 1⟩] text := by
  have hshort : (countingBody ⟨10, 0, 0, 1⟩).Short := ⟨by decide, by decide, by decide⟩
  obtain ⟨-, r, hrun, hiff⟩ := results_roundTrip_iff id "nodes;".toList
    [countingBody ⟨10, 0, 0, 1⟩] (List.cons_ne_nil _ _) (List.forall_mem_singleton.mpr hshort)
    plotArrays ⟨by decide, by decide, by decide, by decide⟩ (emptyReport 0)
    (resultsCalls ["nodes;".toList, (countingBody ⟨10, 0, 0, 1⟩).text]) (fun _ => ⟨rfl, rfl⟩)
    (freshBlocks_resultsCalls _) (textsOf_resultsCalls _)
  obtain ⟨text, hjoin, htext⟩ := (hiff 0).mpr rfl
  exact ⟨r, text, hrun, hjoin, htext⟩

/-- With two slaves `plotDistributed` reads the link of a message it has freed. -/
theorem not_results_roundTrip_twoSlaves : ¬ ∃ r text,
    enqueueMessages (resultsCalls ["nodes;".toList, (countingBody ⟨10, 0, 0, 1⟩).text,
        (countingBody ⟨10, 0, 0, 2⟩).text]) (emptyReport 0) = some r ∧
      r.joinResults 2 = some text ∧
      RoundTrip id plotArrays [countingBody ⟨10, 0, 0, 1⟩, countingBody ⟨10, 0, 0, 2⟩] text := by
  rintro ⟨r, text, hrun, hjoin, -⟩
  have hnone : (enqueueMessages (resultsCalls ["nodes;".toList,
      (countingBody ⟨10, 0, 0, 1⟩).text, (countingBody ⟨10, 0, 0, 2⟩).text])
      (emptyReport 0)).bind (Report.joinResults 2) = none := by
    decide
  rw [hrun, Option.bind_some, hjoin] at hnone
  cases hnone

end OfcBenchmark
