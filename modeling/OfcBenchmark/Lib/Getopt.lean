import OfcBenchmark.Lib.Printf

/-!
# Options of a command line

`getopt_long`, as the C library has it where POSIXLY_CORRECT is not set. It works on the words of
the command line that are not used up. Words that are no options are skipped, as if they had been
moved to the end.

* `shortOptions`: the options that a text lists, with what the colons say of their arguments;
* `findLong`: a long option by its name, or by the beginning of it;
* `getopt_long`: the next option and its argument. Every call uses something up
  (`size_getopt_long`), so that there is an end to them (`getoptAll`), and finds only what its
  arguments have (`returns_of_mem_getoptAll`);
* `entry`: options written one after the other are listed again (`listed_flatMap_entry`).
-/

namespace Getopt
open Printf

/-! ## Options -/

/-- Whether an option has an argument. -/
inductive HasArg
  | no_argument
  | required_argument
  | optional_argument
deriving DecidableEq, Repr

/-- `struct option`, with `flag` NULL. -/
structure LongOption where
  name : Text
  has_arg : HasArg
  val : Char
deriving DecidableEq

/-- What is done with words that are no options. -/
inductive WordOrder
  | requireOrder
  | permute
  | returnInOrder
deriving DecidableEq, Repr

/-- A text of short options says it with its first character. -/
def wordOrder : Text → WordOrder × Text
  | '-' :: s => (.returnInOrder, s)
  | '+' :: s => (.requireOrder, s)
  | s => (.permute, s)

/-- What the text behind an option says of its argument: two colons, one or none. -/
def arity (s : Text) : HasArg :=
  if s.take 2 = [':', ':'] then .optional_argument
  else if s.head? = some ':' then .required_argument
  else .no_argument

/-- The options in a text. Colons and semicolons are none, and `W;` stands for long options. -/
def listed : Text → List (Char × HasArg)
  | [] => []
  | c :: s =>
    if c = ':' ∨ c = ';' ∨ c = 'W' ∧ s.head? = some ';' then listed s
    else (c, arity s) :: listed s

/-- The options that `optstring` lists. -/
def shortOptions (optstring : Text) : List (Char × HasArg) := listed (wordOrder optstring).2

/-- What is returned where an argument is missing. -/
def missing (optstring : Text) : Char :=
  if (wordOrder optstring).2.head? = some ':' then ':' else '?'

/-- Whether `-W name` is `--name`. -/
def wIsLong (optstring : Text) : Bool :=
  ((wordOrder optstring).2.dropWhile (· ≠ 'W')).take 2 = ['W', ';']

/-- The long option with this name, or the only one that it abbreviates. -/
def findLong (longopts : List LongOption) (name : Text) : Option LongOption :=
  match longopts.find? fun p => p.name = name with
  | some p => some p
  | none =>
    match longopts.filter fun p => name.isPrefixOf p.name with
    | [] => none
    | p :: ps => if ps.all fun q => q.has_arg = p.has_arg ∧ q.val = p.val then some p else none

/-! ## Scanning -/

/-- Where the scan is: the rest of a word with short options, and the words behind it. -/
structure Scan where
  nextchar : Text
  words : List Text

/-- What is left. -/
def Scan.size (s : Scan) : ℕ := s.nextchar.length + (s.words.map fun word => word.length + 1).sum

/-- The value returned, `none` for -1, and `optarg`. -/
structure Found where
  c : Option Char
  optarg : Option Text
deriving DecidableEq

/-- A word that is an option. -/
def isOption : Text → Bool
  | '-' :: _ :: _ => true
  | _ => false

section Getopt

variable (optstring : Text) (longopts : List LongOption)

/-- An option that requires an argument: the rest of the word, or the next word. -/
def requiredArgument (c : Char) (nextchar : Text) (words : List Text) : Found × Scan :=
  if nextchar ≠ [] then (⟨some c, some nextchar⟩, ⟨[], words⟩)
  else
    match words with
    | [] => (⟨some (missing optstring), none⟩, ⟨[], []⟩)
    | word :: words => (⟨some c, some word⟩, ⟨[], words⟩)

/-- A long option, `name` or `name=value`. -/
def process_long_option (text : Text) (words : List Text) : Found × Scan :=
  match findLong longopts (text.takeWhile (· ≠ '=')) with
  | none => (⟨some '?', none⟩, ⟨[], words⟩)
  | some p =>
    match text.dropWhile (· ≠ '=') with
    | _ :: optarg =>
      if p.has_arg = .no_argument then (⟨some '?', none⟩, ⟨[], words⟩)
      else (⟨some p.val, some optarg⟩, ⟨[], words⟩)
    | [] =>
      if p.has_arg = .required_argument then requiredArgument optstring p.val [] words
      else (⟨some p.val, none⟩, ⟨[], words⟩)

/-- A short option, with the rest of its word. -/
def process_short_option (c : Char) (nextchar : Text) (words : List Text) : Found × Scan :=
  if c = 'W' ∧ wIsLong optstring then
    if nextchar ≠ [] then process_long_option optstring longopts nextchar words
    else
      match words with
      | [] => (⟨some (missing optstring), none⟩, ⟨[], []⟩)
      | word :: words => process_long_option optstring longopts word words
  else
    match (shortOptions optstring).lookup c with
    | none => (⟨some '?', none⟩, ⟨nextchar, words⟩)
    | some .no_argument => (⟨some c, none⟩, ⟨nextchar, words⟩)
    | some .optional_argument =>
      (⟨some c, if nextchar = [] then none else some nextchar⟩, ⟨[], words⟩)
    | some .required_argument => requiredArgument optstring c nextchar words

/-- A word at which the scan has arrived. -/
def process_word (word : Text) (words : List Text) : Found × Scan :=
  if word = ['-', '-'] then (⟨none, none⟩, ⟨[], words⟩)
  else
    match word with
    | '-' :: c :: nextchar =>
      if c = '-' then process_long_option optstring longopts nextchar words
      else process_short_option optstring longopts c nextchar words
    | word =>
      if (wordOrder optstring).1 = .returnInOrder then (⟨some '\x01', some word⟩, ⟨[], words⟩)
      else (⟨none, none⟩, ⟨[], word :: words⟩)

/-- `getopt_long`. -/
def getopt_long (s : Scan) : Found × Scan :=
  match s.nextchar with
  | c :: nextchar => process_short_option optstring longopts c nextchar s.words
  | [] =>
    -- words that are no options are passed over
    match (if (wordOrder optstring).1 = .permute then s.words.dropWhile (¬ isOption ·)
      else s.words) with
    | [] => (⟨none, none⟩, ⟨[], []⟩)
    | word :: words => process_word optstring longopts word words

/-! ## Words -/

theorem exists_of_isOption {word : Text} (h : isOption word = true) :
    ∃ c nextchar, word = '-' :: c :: nextchar := by
  unfold isOption at h
  split at h
  · exact ⟨_, _, rfl⟩
  · cases h

/-- `--name`. -/
theorem process_word_long {text : Text} (hne : text ≠ []) (words : List Text) :
    process_word optstring longopts ('-' :: '-' :: text) words
      = process_long_option optstring longopts text words := by
  rw [process_word, if_neg (by simpa using hne)]
  exact if_pos rfl

/-- `-x`. -/
theorem process_word_short {c : Char} (hc : c ≠ '-') (nextchar : Text) (words : List Text) :
    process_word optstring longopts ('-' :: c :: nextchar) words
      = process_short_option optstring longopts c nextchar words := by
  rw [process_word, if_neg (by simp [hc])]
  exact if_neg hc

/-- A word that is no option. -/
theorem process_word_other {word : Text} (h : isOption word = false) (words : List Text) :
    process_word optstring longopts word words
      = if (wordOrder optstring).1 = .returnInOrder then (⟨some '\x01', some word⟩, ⟨[], words⟩)
        else (⟨none, none⟩, ⟨[], word :: words⟩) := by
  unfold process_word
  split
  case isTrue hend =>
    subst hend
    cases h
  case isFalse =>
    split
    · cases h
    · rfl

/-- At an option the scan goes on with its word. -/
theorem getopt_long_word {word : Text} (h : isOption word = true) (words : List Text) :
    getopt_long optstring longopts ⟨[], word :: words⟩
      = process_word optstring longopts word words := by
  have hwords : (if (wordOrder optstring).1 = .permute then
      (word :: words).dropWhile (¬ isOption ·) else word :: words) = word :: words := by
    rw [List.dropWhile_cons_of_neg (by simp [h]), ite_self]
  unfold getopt_long
  dsimp only
  rw [hwords]

/-! ## The scan comes to an end -/

theorem size_eq (nextchar : Text) (words : List Text) :
    (Scan.mk nextchar words).size = nextchar.length + (Scan.mk [] words).size := by
  simp only [Scan.size, List.length_nil, Nat.zero_add]

theorem size_cons (word : Text) (words : List Text) :
    (Scan.mk [] (word :: words)).size = word.length + 1 + (Scan.mk [] words).size := by
  simp only [Scan.size, List.map_cons, List.sum_cons, List.length_nil]
  omega

theorem size_requiredArgument (c : Char) (nextchar : Text) (words : List Text) :
    (requiredArgument optstring c nextchar words).2.size ≤ (Scan.mk [] words).size := by
  unfold requiredArgument
  split
  · exact le_rfl
  · cases words with
    | nil => exact le_rfl
    | cons word words =>
      rw [size_cons]
      exact Nat.le_add_left _ _

theorem size_process_long_option (text : Text) (words : List Text) :
    (process_long_option optstring longopts text words).2.size ≤ (Scan.mk [] words).size := by
  unfold process_long_option
  split
  · exact le_rfl
  · split
    · split <;> exact le_rfl
    · split
      · exact size_requiredArgument optstring _ [] words
      · exact le_rfl

theorem size_process_short_option (c : Char) (nextchar : Text) (words : List Text) :
    (process_short_option optstring longopts c nextchar words).2.size
      ≤ (Scan.mk nextchar words).size := by
  have hword : (Scan.mk [] words).size ≤ (Scan.mk nextchar words).size := by
    rw [size_eq nextchar]
    exact Nat.le_add_left _ _
  unfold process_short_option
  split
  · split
    · exact (size_process_long_option optstring longopts nextchar words).trans hword
    · cases words with
      | nil => exact hword
      | cons word words =>
        have hle := size_process_long_option optstring longopts word words
        rw [size_cons] at hword
        dsimp only
        omega
  · split
    · exact le_rfl
    · exact le_rfl
    · exact hword
    · exact (size_requiredArgument optstring c nextchar words).trans hword

theorem size_process_word (word : Text) (words : List Text)
    (h : (process_word optstring longopts word words).1.c ≠ none) :
    (process_word optstring longopts word words).2.size < (Scan.mk [] (word :: words)).size := by
  rw [size_cons]
  cases hoption : isOption word with
  | true =>
    obtain ⟨c, nextchar, rfl⟩ := exists_of_isOption hoption
    rw [List.length_cons, List.length_cons]
    rcases eq_or_ne c '-' with rfl | hc
    · rcases eq_or_ne nextchar [] with rfl | hne
      · exact absurd rfl h
      · rw [process_word_long optstring longopts hne]
        have hle := size_process_long_option optstring longopts nextchar words
        omega
    · rw [process_word_short optstring longopts hc]
      have hle := size_process_short_option optstring longopts c nextchar words
      rw [size_eq nextchar] at hle
      omega
  | false =>
    rw [process_word_other optstring longopts hoption] at h ⊢
    split at h
    case isTrue hreturn =>
      rw [if_pos hreturn]
      dsimp only
      omega
    case isFalse => exact absurd rfl h

/-- A call that finds something uses it up. -/
theorem size_getopt_long (s : Scan) (h : (getopt_long optstring longopts s).1.c ≠ none) :
    (getopt_long optstring longopts s).2.size < s.size := by
  obtain ⟨nextchar, words⟩ := s
  cases nextchar with
  | cons c nextchar =>
    have hle := size_process_short_option optstring longopts c nextchar words
    show (process_short_option optstring longopts c nextchar words).2.size < _
    rw [size_eq nextchar] at hle
    rw [size_eq (c :: nextchar), List.length_cons]
    omega
  | nil =>
    have hdrop : (Scan.mk [] (words.dropWhile (¬ isOption ·))).size ≤ (Scan.mk [] words).size := by
      have hsum := ((List.dropWhile_sublist (fun word => ¬ isOption word) (l := words)).map
        fun word => word.length + 1).sum_le_sum fun _ _ => Nat.zero_le _
      simpa [Scan.size] using hsum
    unfold getopt_long at h ⊢
    dsimp only at h ⊢
    split at h
    case h_1 => exact absurd rfl h
    case h_2 word words' heq =>
      have hlt := size_process_word optstring longopts word words' h
      rw [← heq] at hlt
      refine hlt.trans_le ?_
      split
      · exact hdrop
      · exact le_rfl

/-- All calls up to the one that returns -1. -/
def getoptAll (s : Scan) : List Found :=
  if _ : (getopt_long optstring longopts s).1.c = none then []
  else (getopt_long optstring longopts s).1 :: getoptAll (getopt_long optstring longopts s).2
termination_by s.size
decreasing_by exact size_getopt_long optstring longopts s ‹_›

theorem head?_getoptAll {s : Scan} (h : (getopt_long optstring longopts s).1.c ≠ none) :
    (getoptAll optstring longopts s).head? = some (getopt_long optstring longopts s).1 := by
  rw [getoptAll, dif_neg h, List.head?_cons]

/-! ## What is found -/

/-- Whether an option can come with this argument. -/
def HasArg.Admits : HasArg → Option Text → Prop
  | .no_argument, optarg => optarg = none
  | .required_argument, optarg => optarg ≠ none
  | .optional_argument, _ => True

/-- What a call can find: something for itself, or an option of its arguments with what it admits
as an argument. -/
inductive Returns : Found → Prop
  | special {c : Char} (hc : c ∈ [missing optstring, '?', '\x01']) (optarg : Option Text) :
    Returns ⟨some c, optarg⟩
  | short {c : Char} {a : HasArg} {optarg : Option Text} (hc : (c, a) ∈ shortOptions optstring)
    (hoptarg : a.Admits optarg) : Returns ⟨some c, optarg⟩
  | long {p : LongOption} {optarg : Option Text} (hp : p ∈ longopts)
    (hoptarg : p.has_arg.Admits optarg) : Returns ⟨some p.val, optarg⟩

variable {optstring longopts}

theorem mem_of_findLong {name : Text} {p : LongOption} (h : findLong longopts name = some p) :
    p ∈ longopts := by
  unfold findLong at h
  split at h
  case h_1 p' hfind =>
    cases h
    exact List.mem_of_find?_eq_some hfind
  case h_2 =>
    split at h
    case h_1 => cases h
    case h_2 p' ps hfilter =>
      split at h
      case isTrue =>
        cases h
        exact List.mem_of_mem_filter (hfilter ▸ List.mem_cons_self)
      case isFalse => cases h

/-- The argument is there, or the option is not returned. -/
theorem returns_requiredArgument {c : Char} (nextchar : Text) (words : List Text)
    (hc : ∀ optarg, HasArg.required_argument.Admits optarg →
      Returns optstring longopts ⟨some c, optarg⟩) :
    Returns optstring longopts (requiredArgument optstring c nextchar words).1 := by
  unfold requiredArgument
  split
  · exact hc _ (Option.some_ne_none _)
  · split
    · exact .special List.mem_cons_self none
    · exact hc _ (Option.some_ne_none _)

theorem returns_process_long_option (text : Text) (words : List Text) :
    Returns optstring longopts (process_long_option optstring longopts text words).1 := by
  have hunknown : Returns optstring longopts ⟨some '?', none⟩ := .special (by simp) none
  unfold process_long_option
  split
  case h_1 => exact hunknown
  case h_2 p hfind =>
    have hp := mem_of_findLong hfind
    split
    case h_1 optarg _ =>
      split
      case isTrue => exact hunknown
      case isFalse hno =>
        -- a value behind `=` is refused by an option without arguments only
        refine .long hp ?_
        cases ha : p.has_arg with
        | no_argument => exact absurd ha hno
        | required_argument => exact Option.some_ne_none _
        | optional_argument => trivial
    case h_2 =>
      split
      case isTrue hrequired =>
        exact returns_requiredArgument [] words fun optarg hoptarg =>
          .long hp (hrequired ▸ hoptarg)
      case isFalse hno =>
        refine .long hp ?_
        cases ha : p.has_arg with
        | no_argument => rfl
        | required_argument => exact absurd ha hno
        | optional_argument => trivial

theorem mem_of_lookup {l : List (Char × HasArg)} {c : Char} {a : HasArg}
    (h : l.lookup c = some a) : (c, a) ∈ l := by
  obtain ⟨before, after, rfl, -⟩ := List.lookup_eq_some_iff.mp h
  exact List.mem_append_right _ List.mem_cons_self

theorem returns_process_short_option (c : Char) (nextchar : Text) (words : List Text) :
    Returns optstring longopts (process_short_option optstring longopts c nextchar words).1 := by
  unfold process_short_option
  split
  · split
    · exact returns_process_long_option nextchar words
    · split
      · exact .special List.mem_cons_self none
      · exact returns_process_long_option _ _
  · split
    case h_1 => exact .special (by simp) none
    case h_2 ha => exact .short (mem_of_lookup ha) rfl
    case h_3 ha => exact .short (mem_of_lookup ha) trivial
    case h_4 ha =>
      exact returns_requiredArgument nextchar words fun optarg hoptarg =>
        .short (mem_of_lookup ha) hoptarg

theorem returns_getopt_long {s : Scan} (h : (getopt_long optstring longopts s).1.c ≠ none) :
    Returns optstring longopts (getopt_long optstring longopts s).1 := by
  unfold getopt_long at h ⊢
  split at h
  case h_1 => exact returns_process_short_option _ _ _
  case h_2 =>
    split at h
    case h_1 => exact absurd rfl h
    case h_2 word words _ =>
      cases hoption : isOption word with
      | true =>
        obtain ⟨c, nextchar, rfl⟩ := exists_of_isOption hoption
        rcases eq_or_ne c '-' with rfl | hc
        · rcases eq_or_ne nextchar [] with rfl | hne
          · exact absurd rfl h
          · rw [process_word_long _ _ hne]
            exact returns_process_long_option nextchar words
        · rw [process_word_short _ _ hc]
          exact returns_process_short_option c nextchar words
      | false =>
        rw [process_word_other _ _ hoption] at h ⊢
        split at h
        case isTrue hreturn =>
          rw [if_pos hreturn]
          exact .special (by simp) (some word)
        case isFalse => exact absurd rfl h

/-- No call finds anything else. -/
theorem returns_of_mem_getoptAll {s : Scan} {found : Found}
    (h : found ∈ getoptAll optstring longopts s) : Returns optstring longopts found := by
  induction s using getoptAll.induct optstring longopts with
  | case1 s hend =>
    rw [getoptAll, dif_pos hend] at h
    cases h
  | case2 s hfound ih =>
    rw [getoptAll, dif_neg hfound] at h
    rcases List.mem_cons.mp h with rfl | h
    · exact returns_getopt_long hfound
    · exact ih h

end Getopt

/-! ## Options written one after the other -/

/-- The colons behind an option. -/
def HasArg.colons : HasArg → Text
  | .no_argument => []
  | .required_argument => [':']
  | .optional_argument => [':', ':']

/-- An option as a text has it. -/
def entry (o : Char × HasArg) : Text := o.1 :: o.2.colons

theorem wordOrder_eq {s : Text} (h : ∀ c ∈ s.head?, c ≠ '-' ∧ c ≠ '+') :
    wordOrder s = (.permute, s) := by
  unfold wordOrder
  split
  case h_1 => exact absurd rfl (h _ rfl).1
  case h_2 => exact absurd rfl (h _ rfl).2
  case h_3 => rfl

theorem head?_flatMap_entry (options : List (Char × HasArg)) :
    (options.flatMap entry).head? = options.head?.map Prod.fst := by
  cases options with
  | nil => rfl
  | cons o options => rfl

/-- What is in a text: the options, and colons. -/
theorem eq_or_mem_of_mem_flatMap_entry {options : List (Char × HasArg)} {c : Char}
    (h : c ∈ options.flatMap entry) : c = ':' ∨ c ∈ options.map Prod.fst := by
  obtain ⟨o, ho, hc⟩ := List.mem_flatMap.mp h
  rcases List.mem_cons.mp hc with rfl | hc
  · exact .inr (List.mem_map_of_mem ho)
  · left
    cases ha : o.2 <;> simp_all [HasArg.colons]

theorem arity_colons_append (a : HasArg) {s : Text} (hs : s.head? ≠ some ':') :
    arity (a.colons ++ s) = a := by
  have hs' {t : Text} : s ≠ ':' :: t := fun h => hs (h ▸ rfl)
  cases a <;> cases s <;> simp_all [arity, HasArg.colons]

theorem listed_colons_append (a : HasArg) (s : Text) : listed (a.colons ++ s) = listed s := by
  cases a <;> simp [HasArg.colons, listed]

/-- Only what is no option itself can be read as something else. -/
theorem listed_flatMap_entry {options : List (Char × HasArg)}
    (h : ∀ o ∈ options, o.1 ≠ ':' ∧ o.1 ≠ ';') : listed (options.flatMap entry) = options := by
  induction options with
  | nil => rfl
  | cons o options ih =>
    obtain ⟨⟨hcolon, hsemicolon⟩, hoptions⟩ := List.forall_mem_cons.mp h
    -- what stands behind an entry begins with an option, which neither adds a colon nor makes `W;`
    have hhead {c : Char} (hc : ∀ o ∈ options, o.1 ≠ c) :
        (options.flatMap entry).head? ≠ some c := by
      rw [head?_flatMap_entry]
      intro heq
      obtain ⟨o', ho', rfl⟩ := Option.map_eq_some_iff.mp heq
      exact hc o' (List.mem_of_head? ho') rfl
    have hnext : (o.2.colons ++ options.flatMap entry).head? ≠ some ';' := by
      cases o.2 with
      | no_argument => exact hhead fun o ho => (hoptions o ho).2
      | required_argument => exact fun heq => absurd (Option.some.inj heq) (by decide)
      | optional_argument => exact fun heq => absurd (Option.some.inj heq) (by decide)
    show listed (o.1 :: (o.2.colons ++ options.flatMap entry)) = o :: options
    rw [listed, if_neg (not_or.mpr ⟨hcolon, not_or.mpr ⟨hsemicolon, fun hw => hnext hw.2⟩⟩),
      arity_colons_append o.2 (hhead fun o ho => (hoptions o ho).1),
      listed_colons_append, ih hoptions]

/-- What is listed is in the text, and no separator. -/
theorem mem_of_mem_listed {s : Text} {c : Char} {a : HasArg} (h : (c, a) ∈ listed s) :
    c ∈ s ∧ c ≠ ':' ∧ c ≠ ';' := by
  induction s with
  | nil => cases h
  | cons d s ih =>
    rw [listed] at h
    split at h
    case isTrue => exact (ih h).imp_left (List.mem_cons_of_mem d)
    case isFalse hd =>
      rcases List.mem_cons.mp h with heq | h
      · cases heq
        exact ⟨List.mem_cons_self, fun hc => hd (.inl hc), fun hc => hd (.inr (.inl hc))⟩
      · exact (ih h).imp_left (List.mem_cons_of_mem d)

theorem wIsLong_eq_false {optstring : Text} (h : ';' ∉ optstring) : wIsLong optstring = false := by
  have hsub : (wordOrder optstring).2 ⊆ optstring := by
    unfold wordOrder
    split
    · exact List.subset_cons_self _ _
    · exact List.subset_cons_self _ _
    · exact List.Subset.refl _
  refine decide_eq_false fun heq => h (hsub ?_)
  have hmem : ';' ∈ ((wordOrder optstring).2.dropWhile (· ≠ 'W')).take 2 := heq ▸ by decide
  exact (List.dropWhile_sublist _).subset (List.mem_of_mem_take hmem)

/-! ## One use of an option -/

section Use

variable (optstring : Text) {longopts : List LongOption}

theorem lookup_of_mem {l : List (Char × HasArg)} (hnodup : (l.map Prod.fst).Nodup) {c : Char}
    {a : HasArg} (h : (c, a) ∈ l) : l.lookup c = some a := by
  induction l with
  | nil => cases h
  | cons o l ih =>
    obtain ⟨hnot, hnodup⟩ := List.nodup_cons.mp hnodup
    rcases List.mem_cons.mp h with rfl | h
    · exact List.lookup_cons_self
    · have hne : c ≠ o.1 := fun heq => hnot (heq ▸ List.mem_map_of_mem h)
      rw [List.lookup_cons, beq_false_of_ne hne]
      exact ih hnodup h

/-- A name is found where it stands, whichever other ones it abbreviates. -/
theorem findLong_of_mem (hnodup : (longopts.map LongOption.name).Nodup) {p : LongOption}
    (h : p ∈ longopts) : findLong longopts p.name = some p := by
  have hfind : longopts.find? (fun q => q.name = p.name) = some p := by
    induction longopts with
    | nil => cases h
    | cons q longopts ih =>
      obtain ⟨hnot, hnodup⟩ := List.nodup_cons.mp hnodup
      rcases List.mem_cons.mp h with rfl | h
      · exact List.find?_cons_of_pos (by simp)
      · have hne : q.name ≠ p.name := fun heq => hnot (heq ▸ List.mem_map_of_mem h)
        rw [List.find?_cons_of_neg (by simpa using hne)]
        exact ih hnodup h
  rw [findLong, hfind]

/-- What `-c` finds, or `-cvalue`. -/
def shortUse (a : HasArg) (c : Char) (value : Text) (words : List Text) : Found :=
  match a with
  | .no_argument => ⟨some c, none⟩
  | .required_argument => (requiredArgument optstring c value words).1
  | .optional_argument => ⟨some c, if value = [] then none else some value⟩

/-- What `--name` finds. -/
def longUse (a : HasArg) (c : Char) (words : List Text) : Found :=
  match a with
  | .required_argument => (requiredArgument optstring c [] words).1
  | _ => ⟨some c, none⟩

/-- What `--name=value` finds. -/
def longUseValue (a : HasArg) (c : Char) (value : Text) : Found :=
  match a with
  | .no_argument => ⟨some '?', none⟩
  | _ => ⟨some c, some value⟩

theorem c_requiredArgument_ne_none (c : Char) (nextchar : Text) (words : List Text) :
    (requiredArgument optstring c nextchar words).1.c ≠ none := by
  unfold requiredArgument
  split
  · exact Option.some_ne_none _
  · split <;> exact Option.some_ne_none _

theorem c_shortUse_ne_none (a : HasArg) (c : Char) (value : Text) (words : List Text) :
    (shortUse optstring a c value words).c ≠ none := by
  cases a with
  | no_argument => exact Option.some_ne_none _
  | required_argument => exact c_requiredArgument_ne_none optstring c value words
  | optional_argument => exact Option.some_ne_none _

theorem c_longUse_ne_none (a : HasArg) (c : Char) (words : List Text) :
    (longUse optstring a c words).c ≠ none := by
  cases a with
  | no_argument => exact Option.some_ne_none _
  | required_argument => exact c_requiredArgument_ne_none optstring c [] words
  | optional_argument => exact Option.some_ne_none _

theorem c_longUseValue_ne_none (a : HasArg) (c : Char) (value : Text) :
    (longUseValue a c value).c ≠ none := by
  cases a <;> exact Option.some_ne_none _

theorem found_short (longopts : List LongOption) {c : Char} {a : HasArg}
    (hlong : wIsLong optstring = false) (ha : (shortOptions optstring).lookup c = some a)
    (value : Text) (words : List Text) :
    (process_short_option optstring longopts c value words).1
      = shortUse optstring a c value words := by
  unfold process_short_option
  rw [if_neg (by simp [hlong]), ha]
  cases a <;> rfl

variable (hnodup : (longopts.map LongOption.name).Nodup) {p : LongOption} (hp : p ∈ longopts)
  (hname : '=' ∉ p.name)
include hnodup hp hname

theorem found_long (words : List Text) :
    (process_long_option optstring longopts p.name words).1
      = longUse optstring p.has_arg p.val words := by
  have hall : ∀ c ∈ p.name, decide (c ≠ '=') = true := fun c hc =>
    decide_eq_true fun heq => hname (heq ▸ hc)
  have htake : p.name.takeWhile (· ≠ '=') = p.name := List.takeWhile_eq_self_iff.mpr hall
  have hdrop : p.name.dropWhile (· ≠ '=') = [] := List.dropWhile_eq_nil_iff.mpr hall
  rw [process_long_option, htake, findLong_of_mem hnodup hp, hdrop]
  cases ha : p.has_arg <;> simp [ha, longUse]

theorem found_long_value (value : Text) (words : List Text) :
    (process_long_option optstring longopts (p.name ++ '=' :: value) words).1
      = longUseValue p.has_arg p.val value := by
  have hall : ∀ c ∈ p.name, decide (c ≠ '=') = true := fun c hc =>
    decide_eq_true fun heq => hname (heq ▸ hc)
  have htake : (p.name ++ '=' :: value).takeWhile (· ≠ '=') = p.name := by
    rw [List.takeWhile_append_of_pos hall, List.takeWhile_cons_of_neg (by simp), List.append_nil]
  have hdrop : (p.name ++ '=' :: value).dropWhile (· ≠ '=') = '=' :: value := by
    rw [List.dropWhile_append_of_pos hall, List.dropWhile_cons_of_neg (by simp)]
  rw [process_long_option, htake, findLong_of_mem hnodup hp, hdrop]
  cases ha : p.has_arg <;> simp [ha, longUseValue]

end Use

end Getopt
