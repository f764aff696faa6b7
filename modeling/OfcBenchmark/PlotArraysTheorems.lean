import OfcBenchmark.HeaderTheorems
import OfcBenchmark.Lib.Scanning

/-!
# What the plots read

Where rows of tokens are written one after the other and closed by another newline, `parseLines`
and `parseResults` store each token at its row and column, and `setXtic` prints each host with its
number. They do so exactly if the tokens and rows fit the arrays (`parseLinesFrom_rows`,
`parseResultsFrom_bodies`, `setXtic_bodies`).
-/

namespace OfcBenchmark
open Printf Scanning Table

/-! ## How rows are written -/

/-- A row: its tokens with a comma in between, and a newline. -/
def csvRow : List Text → Text
  | [] => [CSV_NEWLINE]
  | token :: tokens => token ++ tokens.flatMap (',' :: ·) ++ [CSV_NEWLINE]

theorem csvRow_singleton_append (text rest : Text) :
    csvRow [text] ++ rest = text ++ CSV_NEWLINE :: rest := by
  simp [csvRow]

theorem csvRow_cons_append (text next : Text) (tokens : List Text) (rest : Text) :
    csvRow (text :: next :: tokens) ++ rest
      = text ++ ',' :: (csvRow (next :: tokens) ++ rest) := by
  simp [csvRow]

/-- A body of RESULTS: the name of a host, and four numbers. -/
structure ResultsBody where
  host : Text
  row : List Text
  isToken_host : IsToken host
  isToken_row : ∀ token ∈ row, IsToken token
  length_row : row.length = MAX_VALUES

/-- How it is written. -/
def ResultsBody.text (body : ResultsBody) : Text := body.host ++ ',' :: csvRow body.row

/-- There is one newline in a row, at its end. -/
theorem exists_csvRow {row : List Text} (h : ∀ token ∈ row, IsToken token) :
    ∃ line, csvRow row = line ++ [CSV_NEWLINE] ∧ CSV_NEWLINE ∉ line := by
  cases row with
  | nil => exact ⟨[], rfl, List.not_mem_nil⟩
  | cons token tokens =>
    refine ⟨_, rfl, fun hmem => ?_⟩
    rcases List.mem_append.mp hmem with hmem | hmem
    · exact (h token List.mem_cons_self).not_newline hmem
    · obtain ⟨token', htoken', hmem⟩ := List.mem_flatMap.mp hmem
      rcases List.mem_cons.mp hmem with heq | hmem
      · exact absurd heq (by decide)
      · exact (h token' (List.mem_cons_of_mem _ htoken')).not_newline hmem

/-- Each of them is in the row. -/
theorem length_le_csvRow {row : List Text} {token : Text} (h : token ∈ row) :
    token.length ≤ (csvRow row).length := by
  cases row with
  | nil => exact absurd h List.not_mem_nil
  | cons first tokens =>
    rw [csvRow, List.length_append, List.length_append]
    rcases List.mem_cons.mp h with rfl | h
    · omega
    · obtain ⟨before, after, rfl⟩ := List.append_of_mem h
      rw [List.flatMap_append, List.flatMap_cons, List.length_append, List.length_append,
        List.length_cons]
      omega

/-- No body begins with a newline. -/
theorem ResultsBody.head_text_ne (body : ResultsBody) (bodies : List ResultsBody) :
    ((body :: bodies).flatMap ResultsBody.text ++ [CSV_NEWLINE]).head? ≠ some CSV_NEWLINE := by
  obtain ⟨c, name, hname⟩ := List.exists_cons_of_ne_nil body.isToken_host.ne_nil
  have hc : c ≠ CSV_NEWLINE := fun h =>
    body.isToken_host.not_newline (by rw [hname, h]; exact List.mem_cons_self)
  rw [List.flatMap_cons, ResultsBody.text, hname]
  exact fun h => hc (Option.some.inj h)

namespace PlotArrays

variable {a : PlotArrays} {α : Type} {atof : Text → α}

/-! ## Lines -/

section Lines

variable {flows flow i : ℕ} {text rest : Text} {r : Parsed α}

/-- The characters of a number are stored, as long as there is space. -/
theorem parseLinesFrom_text (htext : IsToken text) :
    parseLinesFrom a atof flows flow i none (text ++ rest)
      = if text.length ≤ a.numberText then
          parseLinesFrom a atof flows flow i (some text) rest
        else none :=
  collect_within (parseLinesFrom a atof flows flow i) (fun number c rest hc => by
    rw [parseLinesFrom, if_neg fun h => hc (.inr h.2), if_neg hc]) htext.ne_nil
    htext.not_separator none rest

theorem ite_map_eq_some_iff {β γ : Type*} {p : Prop} [Decidable p] {o : Option β} {f : β → γ}
    {r : γ} : (if p then o.map f else none) = some r ↔ p ∧ ∃ r', o = some r' ∧ f r' = r := by
  by_cases hp : p
  · rw [if_pos hp, Option.map_eq_some_iff, and_iff_right hp]
  · rw [if_neg hp]
    exact iff_of_false nofun fun h => hp h.1

/-- A number with a comma or a newline behind it. -/
theorem parseLinesFrom_token {c : Char} (htext : IsToken text) (hc : c = ',' ∨ c = CSV_NEWLINE) :
    parseLinesFrom a atof flows flow i none (text ++ c :: rest) = some r ↔
      (text.length < a.numberText ∧ flow < flows ∧ i < a.x) ∧ ∃ r',
        (if c = ',' then parseLinesFrom a atof flows (flow + 1) i none rest
          else parseLinesFrom a atof flows 0 (i + 1) none rest) = some r' ∧
        r'.after ⟨i, flow, atof text⟩ = r := by
  have hsep : parseLinesFrom a atof flows flow i (some text) (c :: rest)
      = if text.length < a.numberText then
          if flow < flows ∧ i < a.x then
            (if c = ',' then parseLinesFrom a atof flows (flow + 1) i none rest
              else parseLinesFrom a atof flows 0 (i + 1) none rest).map
                (Parsed.after ⟨i, flow, atof text⟩)
          else none
        else none := by
    rw [parseLinesFrom, if_neg (fun h => by cases h.1), Option.getD_some, if_pos hc]
  rw [parseLinesFrom_text htext, hsep]
  by_cases hroom : text.length < a.numberText
  case neg =>
    rw [if_neg hroom, ite_self]
    exact iff_of_false nofun fun h => hroom h.1.1
  rw [if_pos hroom.le, if_pos hroom, ite_map_eq_some_iff]
  exact ⟨fun h => ⟨⟨hroom, h.1⟩, h.2⟩, fun h => ⟨h.1.2, h.2⟩⟩

/-- The same stores in front. -/
def Parsed.afterAll (stores : List (Store α)) (r : Parsed α) : Parsed α :=
  { r with stores := stores ++ r.stores }

/-- A row of tokens, or the rest of one. -/
theorem parseLinesFrom_row {tokens : List Text} (htext : IsToken text)
    (htokens : ∀ token ∈ tokens, IsToken token) :
    parseLinesFrom a atof flows flow i none (csvRow (text :: tokens) ++ rest) = some r ↔
      ((∀ token ∈ text :: tokens, token.length < a.numberText) ∧
        flow + (text :: tokens).length ≤ flows ∧ i < a.x) ∧ ∃ r',
        parseLinesFrom a atof flows 0 (i + 1) none rest = some r' ∧
        r'.afterAll (rowStores i flow ((text :: tokens).map atof)) = r := by
  have hnewline : ¬ CSV_NEWLINE = ',' := by decide
  -- the first token is stored and the next one is in the following column
  induction tokens generalizing text flow r with
  | nil =>
    rw [csvRow_singleton_append, parseLinesFrom_token htext (.inr rfl), if_neg hnewline,
      List.forall_mem_singleton, List.length_singleton]
    rfl
  | cons next tokens ih =>
    obtain ⟨hnext, htokens⟩ := List.forall_mem_cons.mp htokens
    have hlength : flow + (text :: next :: tokens).length
        = flow + 1 + (next :: tokens).length := by
      simp only [List.length_cons]
      omega
    rw [csvRow_cons_append, parseLinesFrom_token htext (.inl rfl), if_pos rfl,
      List.forall_mem_cons, hlength]
    constructor
    · rintro ⟨⟨hroom, -, -⟩, r₁, hr₁, rfl⟩
      obtain ⟨⟨hrest, hflows, hi⟩, r', hr', rfl⟩ := (ih hnext htokens).mp hr₁
      exact ⟨⟨⟨hroom, hrest⟩, hflows, hi⟩, r', hr', rfl⟩
    · rintro ⟨⟨⟨hroom, hrest⟩, hflows, hi⟩, r', hr', rfl⟩
      have hflow : flow < flows := by omega
      exact ⟨⟨hroom, hflow, hi⟩, _, (ih hnext htokens).mpr ⟨⟨hrest, hflows, hi⟩, r', hr', rfl⟩,
        rfl⟩

/-- Rows of tokens, closed by another newline. -/
theorem parseLinesFrom_rows (atof : Text → α) {rows : List (List Text)}
    (hrows : ∀ row ∈ rows, row ≠ [] ∧ ∀ token ∈ row, IsToken token) (hi : i ≤ a.x) :
    parseLinesFrom a atof flows 0 i none (rows.flatMap csvRow ++ [CSV_NEWLINE]) = some r ↔
      ((∀ row ∈ rows, row.length ≤ flows ∧ ∀ token ∈ row, token.length < a.numberText) ∧
        i + rows.length ≤ a.x) ∧
      r = ⟨stores i (rows.map (List.map atof)), i + rows.length, [CSV_NEWLINE]⟩ := by
  -- by induction on the rows: with each the index into `x` goes on
  induction rows generalizing i r with
  | nil =>
    have hstop : parseLinesFrom a atof flows 0 i none [CSV_NEWLINE]
        = some ⟨[], i, [CSV_NEWLINE]⟩ := rfl
    rw [List.flatMap_nil, List.nil_append, hstop, Option.some_inj]
    constructor
    · rintro rfl
      exact ⟨⟨fun _ hrow => absurd hrow List.not_mem_nil, hi⟩, rfl⟩
    · rintro ⟨-, rfl⟩
      rfl
  | cons row rows ih =>
    obtain ⟨⟨hne, htokens⟩, hother⟩ := List.forall_mem_cons.mp hrows
    obtain ⟨text, tokens, rfl⟩ := List.exists_cons_of_ne_nil hne
    obtain ⟨htext, htokens⟩ := List.forall_mem_cons.mp htokens
    have hlength : i + ((text :: tokens) :: rows).length = i + 1 + rows.length := by
      rw [List.length_cons]
      omega
    rw [List.flatMap_cons, List.append_assoc, parseLinesFrom_row htext htokens, hlength,
      Nat.zero_add]
    constructor
    · rintro ⟨⟨hroom, hflows, hlt⟩, r', hr', rfl⟩
      obtain ⟨⟨hrest, hle⟩, rfl⟩ := (ih hother hlt).mp hr'
      exact ⟨⟨List.forall_mem_cons.mpr ⟨⟨hflows, hroom⟩, hrest⟩, hle⟩, rfl⟩
    · rintro ⟨⟨hfit, hle⟩, rfl⟩
      obtain ⟨⟨hflows, hroom⟩, hrest⟩ := List.forall_mem_cons.mp hfit
      have hlt : i < a.x := by omega
      exact ⟨⟨hroom, hflows, hlt⟩, _, (ih hother hlt).mpr ⟨⟨hrest, hle⟩, rfl⟩, rfl⟩

end Lines

/-! ## Results -/

section Results

variable {n i j : ℕ} {host text rest : Text} {r : Parsed α}

/-- The name of a host is passed over. -/
theorem parseResultsFrom_host (hhost : IsToken host) :
    parseResultsFrom a atof n i .line (host ++ ',' :: rest)
      = parseResultsFrom a atof n i (.numbers 0 none) rest := by
  have hpass (name : Text) (hcomma : ',' ∉ name) :
      parseResultsFrom a atof n i .host (name ++ ',' :: rest)
        = parseResultsFrom a atof n i (.numbers 0 none) rest := by
    -- in the name nothing is stored, whatever its length
    have hname : ∀ c ∈ name, ¬ c = ',' := fun c hc heq => hcomma (heq ▸ hc)
    exact skip (parseResultsFrom a atof n i .host)
      (fun c rest hc => by rw [parseResultsFrom, if_neg hc]) hname (',' :: rest)
  obtain ⟨c, name, rfl⟩ := List.exists_cons_of_ne_nil hhost.ne_nil
  obtain ⟨hc, hcomma⟩ := not_or.mp (mt List.mem_cons.mpr hhost.not_comma)
  have hnewline : ¬ c = CSV_NEWLINE := fun h => hhost.not_newline (h ▸ List.mem_cons_self)
  rw [List.cons_append, parseResultsFrom, if_neg hnewline, if_neg (Ne.symm hc)]
  exact hpass name hcomma

/-- The characters of a number are stored, as long as there is space. -/
theorem parseResultsFrom_text (htext : IsToken text) :
    parseResultsFrom a atof n i (.numbers j none) (text ++ rest)
      = if text.length ≤ a.text then parseResultsFrom a atof n i (.numbers j (some text)) rest
        else none :=
  collect_within (fun number rest => parseResultsFrom a atof n i (.numbers j number) rest)
    (fun number c rest hc => by
      rw [parseResultsFrom, if_neg fun h => hc (.inr h.2), if_neg hc]) htext.ne_nil
    htext.not_separator none rest

/-- A number that leaves no space for its NUL. -/
theorem parseResultsFrom_long (htext : IsToken text) (hlong : a.text ≤ text.length) :
    parseResultsFrom a atof n i (.numbers j none) (text ++ rest) = none := by
  rw [parseResultsFrom_text htext]
  split
  case isTrue =>
    cases rest with
    | nil => rfl
    | cons c rest =>
      rw [parseResultsFrom, if_neg (fun h => by cases h.1), Option.getD_some,
        if_neg (not_lt.mpr hlong)]
  case isFalse => rfl

/-- A number with a comma or a newline behind it. -/
theorem parseResultsFrom_token {c : Char} (htext : IsToken text)
    (hc : c = ',' ∨ c = CSV_NEWLINE) :
    parseResultsFrom a atof n i (.numbers j none) (text ++ c :: rest) = some r ↔
      (text.length < a.text ∧ i < n ∧ j < MAX_VALUES) ∧ ∃ r',
        (if c = ',' then parseResultsFrom a atof n i (.numbers (j + 1) none) rest
          else parseResultsFrom a atof n (i + 1) .line rest) = some r' ∧
        r'.after ⟨i, j, atof text⟩ = r := by
  by_cases hroom : text.length < a.text
  case neg =>
    rw [parseResultsFrom_long htext (Nat.le_of_not_lt hroom)]
    exact iff_of_false nofun fun h => hroom h.1.1
  rw [parseResultsFrom_text htext, if_pos hroom.le, parseResultsFrom,
    if_neg (fun h => by cases h.1), Option.getD_some, if_pos hroom, if_pos hc,
    ite_map_eq_some_iff]
  exact ⟨fun h => ⟨⟨hroom, h.1⟩, h.2⟩, fun h => ⟨h.1.2, h.2⟩⟩

/-- A row of tokens, or the rest of one. -/
theorem parseResultsFrom_row {tokens : List Text} (htext : IsToken text)
    (htokens : ∀ token ∈ tokens, IsToken token) :
    parseResultsFrom a atof n i (.numbers j none) (csvRow (text :: tokens) ++ rest) = some r ↔
      ((∀ token ∈ text :: tokens, token.length < a.text) ∧
        j + (text :: tokens).length ≤ MAX_VALUES ∧ i < n) ∧ ∃ r',
        parseResultsFrom a atof n (i + 1) .line rest = some r' ∧
        r'.afterAll (rowStores i j ((text :: tokens).map atof)) = r := by
  have hnewline : ¬ CSV_NEWLINE = ',' := by decide
  induction tokens generalizing text j r with
  | nil =>
    rw [csvRow_singleton_append, parseResultsFrom_token htext (.inr rfl), if_neg hnewline,
      List.forall_mem_singleton, List.length_singleton, and_comm (a := i < n)]
    rfl
  | cons next tokens ih =>
    obtain ⟨hnext, htokens⟩ := List.forall_mem_cons.mp htokens
    have hlength : j + (text :: next :: tokens).length = j + 1 + (next :: tokens).length := by
      simp only [List.length_cons]
      omega
    rw [csvRow_cons_append, parseResultsFrom_token htext (.inl rfl), if_pos rfl,
      List.forall_mem_cons, hlength]
    constructor
    · rintro ⟨⟨hroom, -, -⟩, r₁, hr₁, rfl⟩
      obtain ⟨⟨hrest, hle, hi⟩, r', hr', rfl⟩ := (ih hnext htokens).mp hr₁
      exact ⟨⟨⟨hroom, hrest⟩, hle, hi⟩, r', hr', rfl⟩
    · rintro ⟨⟨⟨hroom, hrest⟩, hle, hi⟩, r', hr', rfl⟩
      have hj : j < MAX_VALUES := by omega
      exact ⟨⟨hroom, hi, hj⟩, _, (ih hnext htokens).mpr ⟨⟨hrest, hle, hi⟩, r', hr', rfl⟩, rfl⟩

variable {bodies : List ResultsBody}

theorem parseResultsFrom_body (body : ResultsBody) :
    parseResultsFrom a atof n i .line (body.text ++ rest) = some r ↔
      ((∀ token ∈ body.row, token.length < a.text) ∧ i < n) ∧ ∃ r',
        parseResultsFrom a atof n (i + 1) .line rest = some r' ∧
        r'.afterAll (rowStores i 0 (body.row.map atof)) = r := by
  obtain ⟨text, tokens, hrow⟩ := List.exists_cons_of_ne_nil
    (List.ne_nil_of_length_pos (body.length_row ▸ Nat.succ_pos 3 : 0 < body.row.length))
  have htokens := body.isToken_row
  have hlength := body.length_row
  rw [hrow] at htokens hlength ⊢
  obtain ⟨htext, htokens⟩ := List.forall_mem_cons.mp htokens
  rw [ResultsBody.text, hrow, List.append_assoc, List.cons_append,
    parseResultsFrom_host body.isToken_host, parseResultsFrom_row htext htokens, hlength,
    Nat.zero_add]
  simp only [le_refl, true_and]

/-- Bodies one after the other, closed by another newline. -/
theorem parseResultsFrom_bodies (hi : i ≤ n) :
    parseResultsFrom a atof n i .line (bodies.flatMap ResultsBody.text ++ [CSV_NEWLINE]) = some r ↔
      ((∀ body ∈ bodies, ∀ token ∈ body.row, token.length < a.text) ∧ i + bodies.length ≤ n) ∧
      r = ⟨stores i (bodies.map fun body => body.row.map atof), i + bodies.length,
        [CSV_NEWLINE]⟩ := by
  induction bodies generalizing i r with
  | nil =>
    have hstop : parseResultsFrom a atof n i .line [CSV_NEWLINE] = some ⟨[], i, [CSV_NEWLINE]⟩ :=
      rfl
    rw [List.flatMap_nil, List.nil_append, hstop, Option.some_inj]
    constructor
    · rintro rfl
      exact ⟨⟨fun _ hbody => absurd hbody List.not_mem_nil, hi⟩, rfl⟩
    · rintro ⟨-, rfl⟩
      rfl
  | cons body bodies ih =>
    have hlength : i + (body :: bodies).length = i + 1 + bodies.length := by
      rw [List.length_cons]
      omega
    rw [List.flatMap_cons, List.append_assoc, parseResultsFrom_body, hlength]
    constructor
    · rintro ⟨⟨hroom, hlt⟩, r', hr', rfl⟩
      obtain ⟨⟨hrest, hle⟩, rfl⟩ := (ih hlt).mp hr'
      exact ⟨⟨List.forall_mem_cons.mpr ⟨hroom, hrest⟩, hle⟩, rfl⟩
    · rintro ⟨⟨hfit, hle⟩, rfl⟩
      obtain ⟨hroom, hrest⟩ := List.forall_mem_cons.mp hfit
      have hlt : i < n := by omega
      exact ⟨⟨hroom, hlt⟩, _, (ih hlt).mpr ⟨⟨hrest, hle⟩, rfl⟩, rfl⟩

theorem plotFits_iff : a.PlotFits i ↔ i * NPOINTS_GENERAL ≤ a.plot := by
  have hpoints : NPOINTS_GENERAL = 100 := rfl
  unfold PlotFits
  rw [hpoints]
  constructor
  · intro h
    rcases Nat.eq_zero_or_pos i with rfl | hpos
    · exact (Nat.zero_mul _).trans_le (Nat.zero_le _)
    · have hlast := h (i - 1) (by omega) 99 (by decide)
      omega
  · intro h z hz j hj
    omega

/-- What is read of a column of these rows. -/
theorem Parsed.column_stores (rows : List (List α)) (rest : Text) (w : ℕ) :
    (⟨Table.stores 0 rows, rows.length, rest⟩ : Parsed α).column w = rows.mapM (·[w]?) := by
  unfold Parsed.column
  simp only [cell_stores]
  exact mapM_range_rows rows (·[w]?)

/-- `parseResults` stores the numbers of each body in a row of its own. -/
theorem parseResults_bodies (atof : Text → α) (hn : bodies.length = n) :
    parseResults a atof n (bodies.flatMap ResultsBody.text ++ [CSV_NEWLINE]) = some r ↔
      ((∀ body ∈ bodies, ∀ token ∈ body.row, token.length < a.text) ∧
        bodies.length * NPOINTS_GENERAL ≤ a.plot) ∧
      r = ⟨stores 0 (bodies.map fun body => body.row.map atof), bodies.length,
        [CSV_NEWLINE]⟩ := by
  rw [parseResults, Option.bind_eq_some_iff]
  constructor
  · rintro ⟨r', hr', hplot⟩
    obtain ⟨⟨hroom, -⟩, rfl⟩ := (parseResultsFrom_bodies (Nat.zero_le n)).mp hr'
    rw [Nat.zero_add] at hplot
    split at hplot
    case isTrue hfits =>
      cases hplot
      exact ⟨⟨hroom, plotFits_iff.mp hfits⟩, rfl⟩
    case isFalse => cases hplot
  · rintro ⟨⟨hroom, hplot⟩, rfl⟩
    refine ⟨_, (parseResultsFrom_bodies (Nat.zero_le n)).mpr ⟨⟨hroom, by omega⟩, rfl⟩, ?_⟩
    rw [Nat.zero_add, if_pos (plotFits_iff.mpr hplot)]

end Results

/-! ## Hosts -/

/-- What is printed for hosts, the first of which has the number `length + 1`: a name and its
number for each, with the space `snprintf` is told there is. -/
def ticPieces (a : PlotArrays) : ℕ → List Text → List (ℕ × Text)
  | _, [] => []
  | length, host :: hosts =>
    (a.nameSize, quoted host) :: (a.numberSize, tic (length + 1) hosts.isEmpty) ::
      ticPieces a (length + 1) hosts

section Hosts

variable {b : Cursor} {length : ℕ} {host line rest : Text} {bodies : List ResultsBody}

/-- A name is printed when it has been read, if it fits. -/
theorem setXticFrom_host (hhost : IsToken host) (hfit : host.length < a.nameYaxis) :
    setXticFrom a b length (.host []) (host ++ ',' :: rest)
      = (b.snprintf a.xtics a.nameSize (quoted host)).bind fun b =>
          setXticFrom a b length (.line host) rest := by
  suffices h : ∀ name : Text, (name ++ host).length < a.nameYaxis → ',' ∉ host →
      setXticFrom a b length (.host name) (host ++ ',' :: rest)
        = (b.snprintf a.xtics a.nameSize (quoted (name ++ host))).bind fun b =>
            setXticFrom a b length (.line (name ++ host)) rest from
    h [] hfit hhost.not_comma
  clear hfit hhost
  induction host with
  | nil =>
    intro name hfit _
    rw [List.append_nil] at hfit ⊢
    rw [List.nil_append, setXticFrom, if_pos hfit, if_pos rfl]
  | cons c host ih =>
    intro name hfit hcomma
    obtain ⟨hc, hcomma⟩ := not_or.mp (mt List.mem_cons.mpr hcomma)
    have hsplit : name ++ c :: host = name ++ [c] ++ host := List.append_cons name c host
    have hlt : name.length < a.nameYaxis := by
      rw [List.length_append] at hfit
      omega
    rw [List.cons_append, setXticFrom, if_pos hlt, if_neg (Ne.symm hc), hsplit]
    exact ih _ (hsplit ▸ hfit) hcomma

/-- The rest of a line is passed over. -/
theorem setXticFrom_line (hnewline : CSV_NEWLINE ∉ line) :
    setXticFrom a b length (.line host) (line ++ rest)
      = setXticFrom a b length (.line host) rest := by
  have hline : ∀ c ∈ line, ¬ c = CSV_NEWLINE := fun c hc heq => hnewline (heq ▸ hc)
  exact skip (setXticFrom a b length (.line host))
    (fun c rest hc => by rw [setXticFrom, if_neg hc]) hline rest

theorem setXticFrom_body (body : ResultsBody) (hfit : body.host.length < a.nameYaxis) :
    setXticFrom a b length (.host []) (body.text ++ rest)
      = (b.snprintf a.xtics a.nameSize (quoted body.host)).bind fun b =>
          setXticFrom a b length (.line body.host) (CSV_NEWLINE :: rest) := by
  obtain ⟨line, hline, hnewline⟩ := exists_csvRow body.isToken_row
  have htext : body.text ++ rest = body.host ++ ',' :: (line ++ CSV_NEWLINE :: rest) := by
    simp [ResultsBody.text, hline]
  rw [htext, setXticFrom_host body.isToken_host hfit]
  exact congrArg _ (funext fun b => setXticFrom_line hnewline)

/-- The names are printed one after the other, each with its number. -/
theorem setXticFrom_bodies (hne : bodies ≠ [])
    (hfit : ∀ body ∈ bodies, body.host.length < a.nameYaxis) :
    setXticFrom a b length (.host []) (bodies.flatMap ResultsBody.text ++ [CSV_NEWLINE])
      = (b.write a.xtics (ticPieces a length (bodies.map ResultsBody.host))).map fun b =>
          ⟨(bodies.map ResultsBody.host).zipIdx (length + 1), b, length + bodies.length,
            [CSV_NEWLINE]⟩ := by
  induction bodies generalizing b length with
  | nil => exact absurd rfl hne
  | cons body bodies ih =>
    obtain ⟨hbody, hfit⟩ := List.forall_mem_cons.mp hfit
    rw [List.flatMap_cons, List.append_assoc, setXticFrom_body body hbody]
    rw [List.map_cons, ticPieces, Cursor.write_cons, Option.map_bind]
    refine congrArg _ (funext fun b₁ => ?_)
    rw [setXticFrom, if_pos rfl, Function.comp_apply, Cursor.write_cons, Option.map_bind]
    cases bodies with
    | nil =>
      rw [List.flatMap_nil, List.nil_append, List.head?_cons, if_pos rfl, Option.map_eq_bind]
      rfl
    | cons next bodies =>
      have hhead : ¬ ((next :: bodies).flatMap ResultsBody.text ++ [CSV_NEWLINE]).head?
          = some CSV_NEWLINE := next.head_text_ne _
      rw [if_neg hhead]
      refine congrArg _ (funext fun b₂ => ?_)
      have hlength : length + (body :: next :: bodies).length
          = length + 1 + (next :: bodies).length := by
        rw [List.length_cons]
        omega
      rw [ih (List.cons_ne_nil _ _) hfit, Option.map_map, Function.comp_apply, hlength]
      rfl

theorem length_quoted (name : Text) : (quoted name).length = name.length + 2 := by
  rw [quoted, List.length_append, List.length_cons, List.length_singleton]

/-- A number below a million has space in the 10 bytes that `snprintf` is told. -/
theorem length_tic_lt {length : ℕ} (h : length < 10 ^ 6) (last : Bool) :
    (tic length last).length < 10 := by
  have hdigits : (formatInt length).length ≤ 6 :=
    (length_formatInt_le_iff length (by decide : 0 < 5)).mpr ⟨by omega, by exact_mod_cast h⟩
  have hend : (if last then [')'] else [',', ' '] : Text).length ≤ 2 := by
    cases last <;> decide
  rw [tic, List.length_append, List.length_cons]
  omega

/-- All that `setXtic` prints. -/
def xticPieces (a : PlotArrays) (hosts : List Text) : List (ℕ × Text) :=
  (20, xticsStart) :: ticPieces a 0 hosts

/-- `setXtic` prints the hosts with the numbers from 1 on, and stops at the last newline but
one. -/
theorem setXtic_bodies (hne : bodies ≠ [])
    (hfit : ∀ body ∈ bodies, body.host.length < a.nameYaxis) :
    setXtic a (bodies.flatMap ResultsBody.text ++ [CSV_NEWLINE])
      = (Cursor.empty.write a.xtics (xticPieces a (bodies.map ResultsBody.host))).map fun b =>
          ⟨(bodies.map ResultsBody.host).zipIdx 1, b, bodies.length, [CSV_NEWLINE]⟩ := by
  rw [setXtic, xticPieces, Cursor.write_cons, Option.map_bind]
  refine congrArg _ (funext fun b => ?_)
  rw [setXticFrom_bodies hne hfit, Nat.zero_add, Nat.zero_add]
  rfl

/-- One host has space in `xtics`. -/
theorem exists_write_host {host : Text} (hxtics : a.xtics = 50) (h : host.length ≤ 15) :
    ∃ b, Cursor.empty.write a.xtics (xticPieces a [host]) = some b := by
  have hlength : ((xticPieces a [host]).flatMap Prod.snd).length = host.length + 16 := by
    have hstart : xticsStart.length = 11 := by decide
    have htic : (tic (0 + 1) true).length = 3 := by decide
    rw [xticPieces, ticPieces, ticPieces, List.isEmpty_nil]
    simp only [List.flatMap_cons, List.flatMap_nil, List.append_nil, List.length_append, hstart,
      htic, length_quoted]
    omega
  refine Cursor.exists_write ?_
  rw [hlength, hxtics]
  exact (Nat.zero_add _).trans_lt (by omega)

end Hosts

/-! ## Graphs -/

section Graphs

variable {header : Text} {h : GraphHeader} (hscan : plotGraphHeader header = some h)
include hscan

/-- A graph of lines is of the first body. -/
theorem plotGraph_lines {type : QueueId} (htype : type = .values ∨ type = .snmp) (body : Text)
    (others : List Text) (hnull : h.nullTerminated = true) :
    a.plotGraph atof type (header :: body :: others)
      = (a.parseLines atof h.flows.length body).map fun r => ⟨h, none, [r]⟩ := by
  rw [plotGraph, hscan, Option.bind_eq_bind, Option.bind_some]
  rcases htype with rfl | rfl <;> exact if_pos hnull

/-- The graph of the averages: not more bodies than names. -/
theorem plotGraph_avgs {bodies : List Text} (hne : bodies ≠ []) :
    a.plotGraph atof .avgs (header :: bodies)
      = if bodies.length < h.flows.length then
          (bodies.mapM (a.parseLines atof 2)).map fun rs => ⟨h, none, rs⟩
        else none := by
  obtain ⟨body, bodies, rfl⟩ := List.exists_cons_of_ne_nil hne
  rw [plotGraph, hscan, Option.bind_eq_bind, Option.bind_some]

/-- The graph of the results. -/
theorem plotGraph_results (text : Text) (hflows : MAX_VALUES < h.flows.length) :
    a.plotGraph atof .results [header, text] = (a.setXtic text).bind fun x =>
      (a.parseResults atof x.length text).map fun r => ⟨h, some x, [r]⟩ := by
  rw [plotGraph, hscan, Option.bind_eq_bind, Option.bind_some]
  simp only [if_pos hflows]
  rfl

end Graphs

end PlotArrays

end OfcBenchmark
