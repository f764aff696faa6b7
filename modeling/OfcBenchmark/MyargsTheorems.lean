import OfcBenchmark.Myargs

/-!
# Tables of options in two encodings

`argsToLong` gives a flag an optional argument, and `argsToShort` gives it none: for it they do not
agree, and neither do they where an id means something else in the text (`optionsAgree_iff`).

What `getopt_long` finds in a word, `-x` or `--name`, with or without a value in it, is said by the
type of the option (`head?_short`, `head?_long`, `head?_longValue`).
-/

namespace OfcBenchmark
open Printf Getopt

/-! ## The text of short options -/

/-- What the text says of the argument of an option. -/
def shortArity (type : ArgsType) : HasArg :=
  if type ≠ .none ∧ type ≠ .flag then .required_argument else .no_argument

/-- The options as the text has them. -/
def shortTable (table : List Args) : List (Char × HasArg) :=
  table.map fun o => (o.id, shortArity o.type)

/-- The text of short options. -/
def shortText (table : List Args) : Text := (shortTable table).flatMap entry

/-- One turn of the loop appends an option. There have to be two bytes for it, and one for the
NUL. -/
theorem appendShort_eq {max : ℕ} {t : Text} (o : Args) (h : t.length + 2 < max) :
    appendShort max ⟨t, t.length⟩ o = some ⟨t ++ entry (o.id, shortArity o.type),
      (t ++ entry (o.id, shortArity o.type)).length⟩ := by
  -- what is left of the buffer is more than the one byte of a piece, so that none is cut
  have hid : Cursor.snprintf max (max - t.length) [o.id] ⟨t, t.length⟩
      = some ⟨t ++ [o.id], (t ++ [o.id]).length⟩ :=
    Cursor.snprintf_of_lt (by simp only [List.length_singleton]; omega)
      (by simp only [List.length_append, List.length_singleton]; omega)
  have hcolon : Cursor.snprintf max (max - (t ++ [o.id]).length) [':']
      ⟨t ++ [o.id], (t ++ [o.id]).length⟩
      = some ⟨t ++ [o.id] ++ [':'], (t ++ [o.id] ++ [':']).length⟩ :=
    Cursor.snprintf_of_lt (by simp only [List.length_append, List.length_singleton]; omega)
      (by simp only [List.length_append, List.length_singleton]; omega)
  unfold appendShort
  dsimp only
  rw [hid]
  by_cases htype : o.type ≠ .none ∧ o.type ≠ .flag
  · rw [shortArity, if_pos htype]
    show (if o.type ≠ .none ∧ o.type ≠ .flag then _ else _) = _
    rw [if_pos htype, hcolon]
    simp [entry, HasArg.colons]
  · rw [shortArity, if_neg htype]
    show (if o.type ≠ .none ∧ o.type ≠ .flag then _ else _) = _
    rw [if_neg htype]
    rfl

theorem length_entry_le (o : Args) : (entry (o.id, shortArity o.type)).length ≤ 2 := by
  unfold shortArity
  split <;> simp [entry, HasArg.colons]

theorem foldlM_appendShort {max : ℕ} (table : List Args) {t : Text}
    (h : t.length + 2 * table.length < max) :
    table.foldlM (appendShort max) ⟨t, t.length⟩
      = some ⟨t ++ shortText table, (t ++ shortText table).length⟩ := by
  induction table generalizing t with
  | nil => simp [shortText, shortTable]
  | cons o table ih =>
    rw [List.length_cons] at h
    have hentry := length_entry_le o
    rw [List.foldlM_cons, appendShort_eq o (by omega)]
    have hrest := @ih (t ++ entry (o.id, shortArity o.type))
      (by rw [List.length_append]; omega)
    rw [List.append_assoc] at hrest
    exact hrest

theorem length_shortText_le (table : List Args) :
    (shortText table).length ≤ 2 * table.length := by
  induction table with
  | nil => exact Nat.le_refl 0
  | cons o table ih =>
    have hentry := length_entry_le o
    have happend : (shortText (o :: table)).length
        = (entry (o.id, shortArity o.type)).length + (shortText table).length :=
      List.length_append
    rw [List.length_cons]
    omega

/-- The loop never leaves the buffer. -/
theorem argsToShort_eq (table : List Args) :
    argsToShort table = some ((shortText table).takeWhile (· ≠ '\x00')) := by
  have hlength := length_shortText_le table
  have hloop := @foldlM_appendShort (table.length * 2 + 1) table []
    (by rw [List.length_nil]; omega)
  unfold argsToShort countOptions
  dsimp only
  rw [show Cursor.empty = ⟨[], ([] : Text).length⟩ from rfl, hloop, Option.bind_some,
    List.nil_append]
  exact if_pos (by dsimp only; omega)

theorem map_fst_shortTable (table : List Args) :
    (shortTable table).map Prod.fst = table.map Args.id := by
  rw [shortTable, List.map_map]
  rfl

theorem head?_shortText (table : List Args) :
    (shortText table).head? = table.head?.map Args.id := by
  rw [shortText, head?_flatMap_entry, shortTable, List.head?_map, Option.map_map]
  rfl

/-- The text of a table is the entries one after the other. -/
theorem argsToShort_of_ne_nul {table : List Args} (hnul : ∀ o ∈ table, o.id ≠ '\x00') :
    argsToShort table = some (shortText table) := by
  have hall : ∀ c ∈ shortText table, decide (c ≠ '\x00') = true := by
    intro c hc
    refine decide_eq_true ?_
    rcases eq_or_mem_of_mem_flatMap_entry hc with rfl | hc
    · decide
    · rw [map_fst_shortTable] at hc
      obtain ⟨o, ho, rfl⟩ := List.mem_map.mp hc
      exact hnul o ho
  rw [argsToShort_eq, List.takeWhile_eq_self_iff.mpr hall]

/-! ## Tables -/

/-- Both encodings fit and agree: the same options in the same order, with the same arguments. -/
def OptionsAgree (table : List Args) : Prop :=
  ∃ s, argsToShort table = some s ∧ s.length < 2 * table.length + 1 ∧
    shortOptions s = (argsToLong table).map fun p => (p.val, p.has_arg)

/-- No option is read as something else. -/
def Readable (table : List Args) : Prop :=
  (∀ o ∈ table.head?, o.id ≠ '-' ∧ o.id ≠ '+') ∧ ∀ o ∈ table, o.id ≠ ';'

theorem map_argsToLong (table : List Args) :
    ((argsToLong table).map fun p => (p.val, p.has_arg))
      = table.map fun o => (o.id, longArity o.type) := by
  rw [argsToLong, List.map_map]
  rfl

section Table

variable {table : List Args}

theorem wordOrder_of_readable (h : Readable table) :
    wordOrder (shortText table) = (.permute, shortText table) := by
  refine wordOrder_eq fun c hc => ?_
  rw [head?_shortText] at hc
  obtain ⟨o, ho, rfl⟩ := Option.map_eq_some_iff.mp hc
  exact h.1 o ho

theorem shortOptions_of_readable (hcolon : ∀ o ∈ table, o.id ≠ ':') (h : Readable table) :
    shortOptions (shortText table) = shortTable table := by
  rw [shortOptions, wordOrder_of_readable h]
  refine listed_flatMap_entry fun o ho => ?_
  obtain ⟨arg, harg, rfl⟩ := List.mem_map.mp ho
  exact ⟨hcolon arg harg, h.2 arg harg⟩

/-- A missing argument is told like an unknown option. -/
theorem missing_of_readable (hcolon : ∀ o ∈ table, o.id ≠ ':') (h : Readable table) :
    missing (shortText table) = '?' := by
  rw [missing, wordOrder_of_readable h]
  refine if_neg fun hhead => ?_
  rw [head?_shortText] at hhead
  obtain ⟨o, ho, hid⟩ := Option.map_eq_some_iff.mp hhead
  exact hcolon o (List.mem_of_head? ho) hid

/-- The ids are listed only if each of them can be read: what begins the text and says how words
are treated would have to come once more. -/
theorem readable_of_ids (hnodup : (table.map Args.id).Nodup)
    (h : (shortOptions (shortText table)).map Prod.fst = table.map Args.id) :
    Readable table := by
  have hlisted {o : Args} (ho : o ∈ table) :
      ∃ a, (o.id, a) ∈ shortOptions (shortText table) := by
    obtain ⟨⟨c, a⟩, hmem, hc⟩ := List.mem_map.mp (h ▸ List.mem_map_of_mem ho)
    exact ⟨a, hc ▸ hmem⟩
  constructor
  · intro o hhead
    rw [← not_or]
    intro hid
    obtain ⟨a, ha⟩ := hlisted (List.mem_of_head? hhead)
    obtain ⟨rest, rfl⟩ : ∃ rest, table = o :: rest := List.head?_eq_some_iff.mp hhead
    -- `getopt_long` takes the first id off the text, and lists what is behind it
    have hrest : shortOptions (shortText (o :: rest)) = listed (shortText rest) := by
      have htail (t : Text) : (wordOrder (o.id :: t)).2 = t := by
        rcases hid with hid | hid <;> rw [hid] <;> rfl
      show listed (wordOrder (o.id :: ((shortArity o.type).colons ++ _))).2 = _
      rw [htail]
      exact listed_colons_append _ _
    rw [hrest] at ha
    obtain ⟨hmem, hne, -⟩ := mem_of_mem_listed ha
    rcases eq_or_mem_of_mem_flatMap_entry hmem with heq | hmem
    · exact hne heq
    · rw [map_fst_shortTable] at hmem
      exact (List.nodup_cons.mp hnodup).1 hmem
  · intro o ho
    obtain ⟨a, ha⟩ := hlisted ho
    exact (mem_of_mem_listed ha).2.2

/-- An option has the same argument in both encodings unless it is a flag. -/
theorem shortArity_eq_iff (type : ArgsType) : shortArity type = longArity type ↔ type ≠ .flag := by
  cases type <;> decide

theorem optionsAgree_iff (hnodup : (table.map Args.id).Nodup)
    (hids : ∀ o ∈ table, o.id ≠ ':' ∧ o.id ≠ '\x00') :
    OptionsAgree table ↔ Readable table ∧ ∀ o ∈ table, o.type ≠ .flag := by
  have hshort := argsToShort_of_ne_nul fun o ho => (hids o ho).2
  have hcolon : ∀ o ∈ table, o.id ≠ ':' := fun o ho => (hids o ho).1
  have hfst : ((argsToLong table).map fun p => (p.val, p.has_arg)).map Prod.fst
      = table.map Args.id := by
    rw [map_argsToLong, List.map_map]
    rfl
  have hflag : shortTable table = table.map (fun o => (o.id, longArity o.type)) ↔
      ∀ o ∈ table, o.type ≠ .flag := by
    rw [shortTable, List.map_inj_left]
    exact forall₂_congr fun o _ => by rw [Prod.mk.injEq, shortArity_eq_iff, and_iff_right rfl]
  constructor
  · rintro ⟨s, hs, -, hagree⟩
    cases hshort.symm.trans hs
    have hreadable : Readable table := readable_of_ids hnodup (by rw [hagree, hfst])
    rw [shortOptions_of_readable hcolon hreadable, map_argsToLong] at hagree
    exact ⟨hreadable, hflag.mp hagree⟩
  · rintro ⟨hreadable, htypes⟩
    refine ⟨_, hshort, Nat.lt_succ_of_le (length_shortText_le table), ?_⟩
    rw [shortOptions_of_readable hcolon hreadable, map_argsToLong]
    exact hflag.mpr htypes

end Table

/-! ## Uses of an option -/

/-- What the calls of `getopt_long` find in the words of a command line. -/
def optionsFound (table : List Args) (words : List Text) : List Found :=
  (argsToShort table).elim [] fun short => getoptAll short (argsToLong table) ⟨[], words⟩

/-- No name is written another way. -/
structure Named (table : List Args) : Prop where
  distinct : (table.map Args.name).Nodup
  writable : ∀ o ∈ table, o.name ≠ [] ∧ '=' ∉ o.name

theorem Named.nodup {table : List Args} (h : Named table) :
    ((argsToLong table).map LongOption.name).Nodup := by
  rw [argsToLong, List.map_map]
  exact h.distinct

theorem mem_argsToLong {table : List Args} {o : Args} (ho : o ∈ table) :
    ⟨o.name, longArity o.type, o.id⟩ ∈ argsToLong table :=
  List.mem_map_of_mem ho

section Uses

variable {table : List Args} (hids : ∀ o ∈ table, o.id ≠ ':' ∧ o.id ≠ '\x00') {o : Args}
  (ho : o ∈ table)
include hids

theorem optionsFound_eq (words : List Text) : optionsFound table words
    = getoptAll (shortText table) (argsToLong table) ⟨[], words⟩ := by
  rw [optionsFound, argsToShort_of_ne_nul fun o ho => (hids o ho).2]
  rfl

/-- The first option that is found in a word. -/
theorem head?_optionsFound {word : Text} {rest : List Text} {found : Found}
    (hword : isOption word = true) (hfound : (process_word (shortText table) (argsToLong table)
      word rest).1 = found) (hc : found.c ≠ none) :
    (optionsFound table (word :: rest)).head? = some found := by
  have hcall : (getopt_long (shortText table) (argsToLong table) ⟨[], word :: rest⟩).1 = found := by
    rw [getopt_long_word _ _ hword, hfound]
  rw [optionsFound_eq hids, head?_getoptAll _ _ (hcall ▸ hc), hcall]

include ho

theorem head?_short (hnodup : (table.map Args.id).Nodup) (hreadable : Readable table)
    (hdash : o.id ≠ '-') (value : Text) (rest : List Text) :
    (optionsFound table (('-' :: o.id :: value) :: rest)).head?
      = some (shortUse (shortText table) (shortArity o.type) o.id value rest) := by
  have hsemicolon : ';' ∉ shortText table := by
    intro hmem
    rcases eq_or_mem_of_mem_flatMap_entry hmem with heq | hmem
    · cases heq
    · rw [map_fst_shortTable] at hmem
      obtain ⟨arg, harg, heq⟩ := List.mem_map.mp hmem
      exact hreadable.2 arg harg heq
  have hlookup : (shortOptions (shortText table)).lookup o.id = some (shortArity o.type) := by
    rw [shortOptions_of_readable (fun o ho => (hids o ho).1) hreadable]
    exact lookup_of_mem (map_fst_shortTable table ▸ hnodup) (List.mem_map_of_mem ho)
  refine head?_optionsFound hids rfl ?_ (c_shortUse_ne_none _ _ _ _ _)
  rw [process_word_short _ _ hdash]
  exact found_short _ _ (wIsLong_eq_false hsemicolon) hlookup value rest

variable (hnamed : Named table)
include hnamed

theorem head?_long (rest : List Text) :
    (optionsFound table (('-' :: '-' :: o.name) :: rest)).head?
      = some (longUse (shortText table) (longArity o.type) o.id rest) := by
  obtain ⟨hne, hname⟩ := hnamed.writable o ho
  refine head?_optionsFound hids rfl ?_ (c_longUse_ne_none _ _ _ _)
  rw [process_word_long _ _ hne]
  exact found_long _ hnamed.nodup (mem_argsToLong ho) hname rest

theorem head?_longValue (value : Text) (rest : List Text) :
    (optionsFound table (('-' :: '-' :: (o.name ++ '=' :: value)) :: rest)).head?
      = some (longUseValue (longArity o.type) o.id value) := by
  obtain ⟨-, hname⟩ := hnamed.writable o ho
  refine head?_optionsFound hids rfl ?_ (c_longUseValue_ne_none _ _ _)
  rw [process_word_long _ _ (List.append_ne_nil_of_right_ne_nil _ (List.cons_ne_nil _ _))]
  exact found_long_value _ hnamed.nodup (mem_argsToLong ho) hname value rest

end Uses

end OfcBenchmark
