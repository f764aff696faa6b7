import OfcBenchmark.PlotArrays
import OfcBenchmark.RowTheorems

/-!
# Headers and tokens

What `buildHeader` writes for a graph, `plotGraph` reads: the labels of the axes, and the names of
the flows in their order. The names and the numbers that are written have neither commas nor
newlines in them.
-/

namespace OfcBenchmark
open Printf

/-! ## Host names -/

theorem length_toDigits_byte (x : BitVec 8) : (Nat.toDigits 10 x.toNat).length ≤ 3 :=
  (Nat.length_toDigits_le_iff (by decide) (by decide)).mpr (x.isLt.trans (by decide))

theorem length_inet_ntoa (x : Address) : (inet_ntoa x).length ≤ 15 := by
  have ha := length_toDigits_byte x.a
  have hb := length_toDigits_byte x.b
  have hc := length_toDigits_byte x.c
  have hd := length_toDigits_byte x.d
  unfold inet_ntoa
  simp only [List.length_append, List.length_cons]
  omega

theorem hostname_eq (x : Address) : hostname x = inet_ntoa x :=
  List.take_of_length_le ((length_inet_ntoa x).trans (by decide))

theorem length_hostname (x : Address) : (hostname x).length ≤ 15 := by
  rw [hostname_eq]
  exact length_inet_ntoa x

theorem isNumberChar_of_mem_hostname {x : Address} {c : Char} (h : c ∈ hostname x) :
    IsNumberChar c = true := by
  rw [hostname_eq] at h
  unfold inet_ntoa at h
  simp only [List.mem_append, List.mem_cons] at h
  rcases h with ((h | rfl | h) | rfl | h) | rfl | h <;>
    first | rfl | exact isNumberChar_of_mem_toDigits h

/-- A name that can stand in a header. -/
structure IsName (name : Text) : Prop where
  ne_nil : name ≠ []
  length_le : name.length ≤ 15
  not_comma : ',' ∉ name
  not_newline : CSV_NEWLINE ∉ name

theorem isName_hostname (x : Address) : IsName (hostname x) where
  ne_nil := by
    rw [hostname_eq]
    exact List.append_ne_nil_of_right_ne_nil _ (List.cons_ne_nil _ _)
  length_le := length_hostname x
  not_comma := fun h => by cases isNumberChar_of_mem_hostname h
  not_newline := fun h => by cases isNumberChar_of_mem_hostname h

/-! ## Tokens -/

/-- What has neither commas nor newlines in it does not stop a scanner. -/
theorem not_separator_of {text : Text} (hcomma : ',' ∉ text) (hnewline : CSV_NEWLINE ∉ text) :
    ∀ c ∈ text, ¬ (c = ',' ∨ c = CSV_NEWLINE) := by
  rintro c hc (rfl | rfl)
  · exact hcomma hc
  · exact hnewline hc

theorem not_mem_format {c : Char} (h : IsNumberChar c = false) (d : ℕ) (x : Double) :
    c ∉ x.format d := by
  intro hc
  rw [isNumberChar_of_mem_format hc] at h
  cases h

theorem format_ne_nil (d : ℕ) (x : Double) : x.format d ≠ [] := by
  unfold Double.format
  refine List.append_ne_nil_of_right_ne_nil _ ?_
  split
  · exact List.append_ne_nil_of_left_ne_nil Nat.toDigits_ne_nil _
  · exact List.cons_ne_nil _ _
  · exact List.cons_ne_nil _ _

/-- A name or a number that can stand in a line. -/
structure IsToken (text : Text) : Prop where
  ne_nil : text ≠ []
  not_comma : ',' ∉ text
  not_newline : CSV_NEWLINE ∉ text

theorem IsToken.not_separator {text : Text} (h : IsToken text) :
    ∀ c ∈ text, ¬ (c = ',' ∨ c = CSV_NEWLINE) :=
  not_separator_of h.not_comma h.not_newline

/-- The beginning of a token is one. -/
theorem IsToken.take {text : Text} (h : IsToken text) {k : ℕ} (hk : 0 < k) :
    IsToken (text.take k) where
  ne_nil := fun hnil => (List.take_eq_nil_iff.mp hnil).elim hk.ne' h.ne_nil
  not_comma := fun hmem => h.not_comma (List.mem_of_mem_take hmem)
  not_newline := fun hmem => h.not_newline (List.mem_of_mem_take hmem)

theorem isToken_hostname (x : Address) : IsToken (hostname x) :=
  ⟨(isName_hostname x).ne_nil, (isName_hostname x).not_comma, (isName_hostname x).not_newline⟩

theorem isToken_format (d : ℕ) (x : Double) : IsToken (x.format d) :=
  ⟨format_ne_nil d x, not_mem_format rfl d x, not_mem_format rfl d x⟩

theorem isToken_formatInt (z : ℤ) : IsToken (formatInt z) where
  ne_nil := by
    unfold formatInt
    split
    · exact List.cons_ne_nil _ _
    · exact Nat.toDigits_ne_nil
  not_comma := fun h => by cases isNumberChar_of_mem_formatInt h
  not_newline := fun h => by cases isNumberChar_of_mem_formatInt h

/-! ## The header -/

/-- A name for which a header has space. -/
structure IsFlowName (name : Text) : Prop where
  ne_nil : name ≠ []
  length_le : name.length ≤ 19
  not_comma : ',' ∉ name
  not_newline : CSV_NEWLINE ∉ name

theorem IsName.isFlowName {name : Text} (h : IsName name) : IsFlowName name :=
  ⟨h.ne_nil, h.length_le.trans (by decide), h.not_comma, h.not_newline⟩

/-- The header of VALUES or AVGS with these names. -/
def avgsHeader (names : List Text) : Text :=
  headerLabels ++ names.flatMap (',' :: ·) ++ [CSV_NEWLINE]

theorem length_flatMap_names {names : List Text} (h : ∀ name ∈ names, IsFlowName name) :
    (names.flatMap (',' :: ·)).length ≤ 20 * names.length := by
  induction names with
  | nil => exact le_rfl
  | cons name names ih =>
    obtain ⟨hname, hnames⟩ := List.forall_mem_cons.mp h
    have hle := hname.length_le
    have hrest := ih hnames
    rw [List.flatMap_cons, List.length_append, List.length_cons, List.length_cons]
    omega

theorem length_headerLabels : headerLabels.length = 30 := by decide

/-- The pieces of a header are written one after the other, with `size` for the labels. -/
theorem write_header {names : List Text} (h : ∀ name ∈ names, IsFlowName name) {size : ℕ}
    (hsize : 30 < size) :
    (Cursor.empty.write (30 * (names.length + 2) + 1)
        ((size, headerLabels) :: (names.map fun name => (21, ',' :: name))
          ++ [(2, [CSV_NEWLINE])])).map Cursor.text = some (avgsHeader names) := by
  have hlength := length_flatMap_names h
  let hosts : List (ℕ × Text) := names.map fun name => (21, ',' :: name)
  let pieces : List (ℕ × Text) := (size, headerLabels) :: hosts ++ [(2, [CSV_NEWLINE])]
  have hflat : pieces.flatMap Prod.snd = avgsHeader names := by
    have hhosts : hosts.flatMap Prod.snd = names.flatMap (',' :: ·) := List.flatMap_map _ _ _
    calc pieces.flatMap Prod.snd = headerLabels ++ hosts.flatMap Prod.snd ++ [CSV_NEWLINE] :=
          List.flatMap_append
      _ = avgsHeader names := by rw [hhosts, avgsHeader]
  have hpieces : ∀ piece ∈ pieces, piece.2.length < piece.1 := by
    intro piece hpiece
    rcases List.mem_append.mp hpiece with hpiece | hpiece
    · rcases List.mem_cons.mp hpiece with rfl | hpiece
      · exact length_headerLabels.trans_lt hsize
      · obtain ⟨name, hname, rfl⟩ := List.mem_map.mp hpiece
        have hle := (h name hname).length_le
        show (',' :: name).length < 21
        rw [List.length_cons]
        omega
    · rw [List.mem_singleton.mp hpiece]
      decide
  have hfit : ([] ++ pieces.flatMap Prod.snd).length < 30 * (names.length + 2) + 1 := by
    rw [List.nil_append, hflat, avgsHeader, List.length_append, List.length_append,
      length_headerLabels, List.length_singleton]
    omega
  have hwrite := Cursor.write_of_lt hpieces hfit
  rw [List.nil_append, hflat] at hwrite
  exact Option.map_eq_some_iff.mpr ⟨_, hwrite, rfl⟩

theorem buildHeader_avgs {names : List Text} (h : ∀ name ∈ names, IsName name) (hne : names ≠ [])
    (mode : ℤ) (subMode : ℕ) :
    buildHeader names .avgs names.length mode subMode = some (avgsHeader names) := by
  have hpos : max 1 names.length = names.length := max_eq_right (List.length_pos_iff.mpr hne)
  have hpieces : headerPieces names .avgs names.length mode subMode
      = some (30 * (names.length + 2) + 1,
        (41, headerLabels) :: names.map fun name => (21, ',' :: name)) := by
    unfold headerPieces
    dsimp only
    rw [hpos, if_neg (lt_irrefl _), List.take_length]
  have hwrite := write_header (fun name hname => (h name hname).isFlowName) (by decide : 30 < 41)
  rw [Option.map_eq_bind] at hwrite
  rw [buildHeader, hpieces, Option.bind_eq_bind, Option.bind_some]
  exact hwrite

/-- The beginning of a name, up to what comes behind it. -/
theorem flowNames_append {name t rest : Text} (ht : t ≠ []) (hlength : (name ++ t).length ≤ 29)
    (hcomma : ',' ∉ t) (hnewline : CSV_NEWLINE ∉ t) :
    flowNames name (t ++ rest) =
      if rest.head? = some CSV_NEWLINE then some [name ++ t] else flowNames (name ++ t) rest := by
  induction t generalizing name with
  | nil => exact absurd rfl ht
  | cons c t ih =>
    obtain ⟨hc, hcomma⟩ := not_or.mp (mt List.mem_cons.mpr hcomma)
    obtain ⟨-, hnewline⟩ := not_or.mp (mt List.mem_cons.mpr hnewline)
    have hsplit : name ++ c :: t = name ++ [c] ++ t := List.append_cons name c t
    rw [hsplit] at hlength ⊢
    have hle : name.length + 1 + t.length ≤ 29 := by
      rwa [List.length_append, List.length_append, List.length_singleton] at hlength
    rw [List.cons_append, flowNames, if_neg (Ne.symm hc), if_neg (by omega)]
    cases t with
    | nil =>
      rw [List.nil_append, List.append_nil]
    | cons c' t =>
      have hc' : CSV_NEWLINE ≠ c' := (not_or.mp (mt List.mem_cons.mpr hnewline)).1
      have hhead : ¬ (c' :: t ++ rest).head? = some CSV_NEWLINE :=
        fun h => hc' (Option.some.inj h).symm
      rw [if_neg hhead, ih (List.cons_ne_nil _ _) hlength hcomma hnewline]

/-- A name in a header, and those behind it. -/
theorem flowNames_names {names : List Text} (h : ∀ name ∈ names, IsFlowName name) {name : Text}
    (hname : IsFlowName name) :
    flowNames [] (name ++ (names.flatMap (',' :: ·) ++ [CSV_NEWLINE])) = some (name :: names) := by
  induction names generalizing name with
  | nil =>
    rw [flowNames_append hname.ne_nil (hname.length_le.trans (by decide)) hname.not_comma
      hname.not_newline]
    rfl
  | cons next names ih =>
    obtain ⟨hnext, hnames⟩ := List.forall_mem_cons.mp h
    obtain ⟨c, t, hct⟩ := List.exists_cons_of_ne_nil hnext.ne_nil
    have hc : c ≠ CSV_NEWLINE := fun hc =>
      hnext.not_newline (by rw [hct, hc]; exact List.mem_cons_self)
    have hhead :
        ¬ (next ++ (names.flatMap (',' :: ·) ++ [CSV_NEWLINE])).head? = some CSV_NEWLINE := by
      rw [hct]
      exact fun h => hc (Option.some.inj h)
    have hcomma (rest : Text) : ¬ (',' :: rest).head? = some CSV_NEWLINE :=
      fun h => absurd (Option.some.inj h) (by decide)
    rw [flowNames_append hname.ne_nil (hname.length_le.trans (by decide)) hname.not_comma
      hname.not_newline, List.flatMap_cons, List.cons_append, List.cons_append,
      if_neg (hcomma _), flowNames, if_pos rfl, List.append_assoc, if_neg hhead, ih hnames hnext]
    rfl

/-- A header with these names is read as it was written. -/
theorem plotGraphHeader_avgsHeader {names : List Text} (h : ∀ name ∈ names, IsFlowName name)
    (hne : names ≠ []) :
    plotGraphHeader (avgsHeader names)
      = some ⟨"timestamp (sec)".toList, "flows/sec".toList, "time".toList :: names, true⟩ := by
  have htime : IsFlowName "time".toList := ⟨by decide, by decide, by decide, by decide⟩
  have hxlabel (rest : Text) : readLabel [] (headerLabels ++ rest)
      = some ("timestamp (sec)".toList, "flows/sec,time".toList ++ rest) := rfl
  have hylabel (rest : Text) : readLabel [] ("flows/sec,time".toList ++ rest)
      = some ("flows/sec".toList, "time".toList ++ rest) := rfl
  have hpos := List.length_pos_iff.mpr hne
  rw [plotGraphHeader, avgsHeader, List.append_assoc, hxlabel, Option.bind_eq_bind,
    Option.bind_some]
  dsimp only
  rw [hylabel, Option.bind_eq_bind, Option.bind_some]
  dsimp only
  rw [flowNames_names h htime, Option.bind_some, List.length_cons,
    decide_eq_true (Nat.succ_lt_succ hpos)]

/-! ## The headers of the results and of the samples -/

/-- The label of the y axis of RESULTS. -/
def resultsLabel (mode : TestMode) : Text :=
  if mode = .latency then "ms/response".toList else "response/sec".toList

theorem exists_header_results (hostnames : List Text) (mode : TestMode) :
    ∃ header,
      buildHeader hostnames .results 4 (if mode = .latency then 0 else 1) 0 = some header ∧
        plotGraphHeader header = some ⟨"nodes".toList, resultsLabel mode, ["node".toList,
          "MAX".toList, "MIN".toList, "AVG".toList, "STD DEV".toList], true⟩ := by
  have hscan : (buildHeader [] .results 4 (if mode = .latency then 0 else 1) 0).bind plotGraphHeader
      = some ⟨"nodes".toList, resultsLabel mode, ["node".toList, "MAX".toList, "MIN".toList,
          "AVG".toList, "STD DEV".toList], true⟩ := by
    cases mode <;> decide
  exact Option.bind_eq_some_iff.mp hscan

/-- The label of the y axis of SNMP. -/
def snmpLabel (subMode : ℕ) : Text := if subMode = 0 then "%".toList else "KB".toList

/-- The name of its first line. -/
def snmpFirst (subMode : ℕ) : Text := if subMode = 0 then "Memory".toList else "Received".toList

/-- The name of its second line. -/
def snmpSecond (subMode : ℕ) : Text := if subMode = 0 then "CPU".toList else "Emmitted".toList

theorem exists_header_snmp (subMode : ℕ) :
    ∃ header, buildHeader [] .snmp 0 (-1) subMode = some header ∧
      plotGraphHeader header = some ⟨"timestamp (sec)".toList, snmpLabel subMode,
        ["time".toList, snmpFirst subMode, snmpSecond subMode], true⟩ := by
  refine Option.bind_eq_some_iff.mp ?_
  by_cases hmode : subMode = 0
  · subst hmode
    decide
  · have hone : buildHeader [] .snmp 0 (-1) subMode = buildHeader [] .snmp 0 (-1) 1 := by
      simp only [buildHeader, headerPieces, if_neg hmode, if_neg Nat.one_ne_zero]
    rw [hone, snmpLabel, snmpFirst, snmpSecond, if_neg hmode, if_neg hmode, if_neg hmode]
    decide

end OfcBenchmark
