import OfcBenchmark.BenchmarkOptions
import OfcBenchmark.MyargsTheorems
import OfcBenchmark.ReportQueuesTheorems

/-!
# The options of the benchmark on a command line

A value in the word of an option, `-xv` or `--name=v`, does not come to the case of the option if
this is a flag (`useAgrees_attached_iff`), and the case of `debug` reads a value that need not be
there (`initializeBenchmarking_null_iff`).
-/

namespace OfcBenchmark
open Printf Getopt

/-! ## The letters of the cases -/

/-- The cases that read the text `optarg` points to, whether there is one or not. -/
def dereferencing : List Char :=
  ['c', 'C', 'd', 'D', 'i', 'I', 'l', 'm', 'M', 'n', 'N', 'O', 'p', 'P', 's', 'S', 'w', 'x']

/-- The cases that set something without. -/
def setting : List Char := ['f', 'L', 'r', 'o', 't']

/-! ## The table -/

theorem nodup_ids : (options.map Args.id).Nodup := by decide

theorem ids_ne : ∀ o ∈ options, o.id ≠ ':' ∧ o.id ≠ '\x00' := by decide

theorem ids_ne_dash : ∀ o ∈ options, o.id ≠ '-' := by decide

theorem type_of_debug : ∀ o ∈ options, o.id = 'x' → o.type = .flag := by decide

theorem readable_options : Readable options :=
  ⟨by rintro o ⟨⟩; decide, by decide⟩

theorem named_options : Named options := ⟨by decide, by decide⟩

/-- Which case an option has. -/
theorem options_cases : ∀ o ∈ options, o.id = 'x' ∧ o.type = .flag ∨ o.id = 'h' ∨ o.id = 'R' ∨
    o.id ∉ ['x', 'h', 'R'] ∧
      (o.id ∈ setting ∨ o.id ∈ dereferencing ∧ o.type ≠ .none ∧ o.type ≠ .flag) := by
  decide

/-- What `getopt_long` says where something is wrong is no option, and has no case. -/
theorem special_cases {c : Char} (hc : c ∈ [missing (shortText options), '?', '\x01']) :
    c ∉ dereferencing ∧ c ∉ setting ∧ ∀ o ∈ options, o.id ≠ c := by
  have hids : ∀ o ∈ options, o.id ≠ '?' ∧ o.id ≠ '\x01' := by decide
  rw [missing_of_readable (fun o ho => (ids_ne o ho).1) readable_options] at hc
  have hcases : c = '?' ∨ c = '\x01' := by simpa using hc
  rcases hcases with rfl | rfl
  · exact ⟨by decide, by decide, fun o ho => (hids o ho).1⟩
  · exact ⟨by decide, by decide, fun o ho => (hids o ho).2⟩

/-! ## The cases -/

section Cases

variable (s : Initialized) {c : Char} (optarg : Option Text)

theorem switchOption_dereferencing (h : c ∈ dereferencing) :
    ∃ set : Text → Initialized, s.switchOption c optarg = (dereference optarg).map set := by
  revert c
  simp only [dereferencing, List.forall_mem_cons, List.not_mem_nil, false_imp_iff, forall_const,
    and_true]
  refine ⟨?_, ?_, ?_, ?_, ?_, ?_, ?_, ?_, ?_, ?_, ?_, ?_, ?_, ?_, ?_, ?_, ?_, ?_⟩ <;>
    exact ⟨_, rfl⟩

theorem switchOption_setting (h : c ∈ setting) : ∃ s', s.switchOption c optarg = .ok s' := by
  revert c
  simp only [setting, List.forall_mem_cons, List.not_mem_nil, false_imp_iff, forall_const,
    and_true]
  refine ⟨?_, ?_, ?_, ?_, ?_⟩ <;> exact ⟨_, rfl⟩

/-- The manual is printed for `h` and for what has no case. -/
theorem switchOption_other (h : c ∉ dereferencing) (h' : c ∉ setting) :
    s.switchOption c optarg = .error (.exited 1) := by
  unfold Initialized.switchOption
  split
  case h_6 => rfl -- `h`
  case h_25 => rfl -- the default
  all_goals first | exact absurd (by decide) h | exact absurd (by decide) h'

end Cases

/-! ## The loop over the options -/

/-- The loop goes on behind an option of the table, but for `debug` without a value. It does not
behind `help`, and not behind `random`, which has no case. -/
def GoesOn (found : Found) : Prop :=
  found ≠ ⟨some 'x', none⟩ ∧ ∃ o ∈ options, found.c = some o.id ∧ o.id ≠ 'h' ∧ o.id ≠ 'R'

/-- `debug` without a value comes, and the loop goes on behind what comes before. -/
def ReachesDebug (founds : List Found) : Prop :=
  ∃ before after, founds = before ++ ⟨some 'x', none⟩ :: after ∧ ∀ found ∈ before, GoesOn found

/-- What the loop does with an option: this is decided by the option, and not by what there is. -/
inductive Handles (garbage : Report) (s : Initialized) (found : Found) : Prop
  | goesOn (h : GoesOn found) (s' : Initialized) (hs' : handleOption garbage s found = .ok s')
  | dereferences (h : found = ⟨some 'x', none⟩)
    (hnull : handleOption garbage s found = .error .nullDereference)
  | exits (hne : found ≠ ⟨some 'x', none⟩) (hstops : ¬ GoesOn found)
    (hexit : handleOption garbage s found = .error (.exited 1))

section Benchmark

variable {found : Found} (garbage : Report) (s : Initialized)

/-- The manual ends the program. -/
theorem handleOption_other {c : Char} (optarg : Option Text) (h : c ∉ dereferencing)
    (h' : c ∉ setting) :
    handleOption garbage s ⟨some c, optarg⟩ = .error (.exited 1) := by
  unfold handleOption
  dsimp only
  rw [switchOption_other s optarg h h']
  rfl

theorem handleOption_dereferencing {c : Char} (optarg : Option Text) (h : c ∈ dereferencing) :
    ∃ set : Text → Initialized,
      handleOption garbage s ⟨some c, optarg⟩ = (dereference optarg).map set := by
  obtain ⟨set, hset⟩ := switchOption_dereferencing s optarg h
  refine ⟨fun t => { set t with myreport := some (newReport garbage) }, ?_⟩
  unfold handleOption
  dsimp only
  rw [hset]
  cases optarg <;> rfl

theorem handleOption_setting {c : Char} (optarg : Option Text) (h : c ∈ setting) :
    ∃ s', handleOption garbage s ⟨some c, optarg⟩ = .ok s' := by
  obtain ⟨s', hs'⟩ := switchOption_setting s optarg h
  refine ⟨{ s' with myreport := some (newReport garbage) }, ?_⟩
  unfold handleOption
  dsimp only
  rw [hs']
  rfl

theorem handles_of_mem {o : Args} (ho : o ∈ options) {optarg : Option Text}
    (hoptarg : o.type ≠ .none → o.type ≠ .flag → optarg ≠ none) :
    Handles garbage s ⟨some o.id, optarg⟩ := by
  have hstops (hid : o.id = 'h' ∨ o.id = 'R') : ¬ GoesOn ⟨some o.id, optarg⟩ := by
    rintro ⟨-, o', -, heq, hh, hR⟩
    rw [← Option.some.inj heq] at hh hR
    exact hid.elim hh hR
  have hne (hid : o.id ≠ 'x') : Found.mk (some o.id) optarg ≠ ⟨some 'x', none⟩ := fun heq =>
    hid (Option.some.inj (Found.mk.inj heq).1)
  rcases options_cases o ho with ⟨hx, -⟩ | hh | hR | ⟨hid, hcase⟩
  · have hmem : o.id ∈ dereferencing := by rw [hx]; decide
    obtain ⟨set, hset⟩ := handleOption_dereferencing garbage s optarg hmem
    cases optarg with
    | none => exact .dereferences (by rw [hx]) hset
    | some t => exact .goesOn ⟨by simp, o, ho, rfl, by rw [hx]; decide⟩ _ hset
  · refine .exits (hne (by rw [hh]; decide)) (hstops (.inl hh)) ?_
    rw [hh]
    exact handleOption_other garbage s optarg (by decide) (by decide)
  · refine .exits (hne (by rw [hR]; decide)) (hstops (.inr hR)) ?_
    rw [hR]
    exact handleOption_other garbage s optarg (by decide) (by decide)
  · simp only [List.mem_cons, List.not_mem_nil, or_false, not_or] at hid
    have hgoes : GoesOn ⟨some o.id, optarg⟩ := ⟨hne hid.1, o, ho, rfl, hid.2⟩
    rcases hcase with hset | ⟨hmem, hnone, hflag⟩
    · obtain ⟨s', hs'⟩ := handleOption_setting garbage s optarg hset
      exact .goesOn hgoes s' hs'
    · obtain ⟨set, hset⟩ := handleOption_dereferencing garbage s optarg hmem
      obtain ⟨t, rfl⟩ := Option.ne_none_iff_exists'.mp (hoptarg hnone hflag)
      exact .goesOn hgoes _ hset

/-- Neither encoding lets an option come without an argument, unless it is a flag or none. -/
theorem handles_of_returns (h : Returns (shortText options) (argsToLong options) found) :
    Handles garbage s found := by
  cases h with
  | @special c hc optarg =>
    obtain ⟨hdereferencing, hsetting, hoptions⟩ := special_cases hc
    refine .exits ?_ ?_ (handleOption_other garbage s optarg hdereferencing hsetting)
    · rintro ⟨⟩
      exact hdereferencing (by decide)
    · rintro ⟨-, o, ho, heq, -⟩
      exact hoptions o ho (Option.some.inj heq).symm
  | @short c a optarg hc hoptarg =>
    rw [shortOptions_of_readable (fun o ho => (ids_ne o ho).1) readable_options] at hc
    obtain ⟨o, ho, heq⟩ := List.mem_map.mp hc
    cases heq
    refine handles_of_mem garbage s ho fun hnone hflag => ?_
    rw [shortArity, if_pos ⟨hnone, hflag⟩] at hoptarg
    exact hoptarg
  | @long p optarg hp hoptarg =>
    obtain ⟨o, ho, rfl⟩ := List.mem_map.mp hp
    refine handles_of_mem garbage s ho fun hnone hflag => ?_
    rw [longArity, if_neg hnone, if_neg hflag] at hoptarg
    exact hoptarg

theorem handles_of_mem_optionsFound {words : List Text} (h : found ∈ optionsFound options words) :
    Handles garbage s found := by
  rw [optionsFound_eq ids_ne] at h
  exact handles_of_returns garbage s (returns_of_mem_getoptAll h)

/-- Only `debug` without a value makes the loop read what is not there. -/
theorem handleOption_null_iff {words : List Text} (h : found ∈ optionsFound options words) :
    handleOption garbage s found = .error .nullDereference ↔ found = ⟨some 'x', none⟩ := by
  cases handles_of_mem_optionsFound garbage s h with
  | goesOn hgoes s' hs' => exact iff_of_false (by rw [hs']; simp) hgoes.1
  | dereferences hfound hnull => exact iff_of_true hnull hfound
  | exits hne hstops hexit => exact iff_of_false (by rw [hexit]; simp) hne

/-! ## Command lines -/

theorem not_reachesDebug_nil : ¬ ReachesDebug [] := by
  rintro ⟨before, after, heq, -⟩
  exact absurd heq.symm (List.append_ne_nil_of_right_ne_nil _ (List.cons_ne_nil _ _))

theorem reachesDebug_cons (h : GoesOn found) {founds : List Found} :
    ReachesDebug (found :: founds) ↔ ReachesDebug founds := by
  constructor
  · rintro ⟨before, after, heq, hbefore⟩
    cases before with
    | nil => exact absurd (List.cons.inj heq).1 h.1
    | cons first before =>
      exact ⟨before, after, (List.cons.inj heq).2, (List.forall_mem_cons.mp hbefore).2⟩
  · rintro ⟨before, after, rfl, hbefore⟩
    exact ⟨found :: before, after, rfl, List.forall_mem_cons.mpr ⟨h, hbefore⟩⟩

theorem not_reachesDebug_cons (hne : found ≠ ⟨some 'x', none⟩) (h : ¬ GoesOn found)
    (founds : List Found) : ¬ ReachesDebug (found :: founds) := by
  rintro ⟨before, after, heq, hbefore⟩
  cases before with
  | nil => exact hne (List.cons.inj heq).1
  | cons first before =>
    rw [(List.cons.inj heq).1] at h
    exact h (hbefore first List.mem_cons_self)

/-- The loop ends where it reads what is not there exactly if it comes to it. -/
theorem foldlM_handleOption_null_iff {founds : List Found}
    (h : ∀ found ∈ founds, ∀ s, Handles garbage s found) (s : Initialized) :
    founds.foldlM (handleOption garbage) s = .error .nullDereference ↔ ReachesDebug founds := by
  induction founds generalizing s with
  | nil => exact iff_of_false (fun heq => by cases heq) not_reachesDebug_nil
  | cons found founds ih =>
    obtain ⟨hfound, hfounds⟩ := List.forall_mem_cons.mp h
    rw [List.foldlM_cons]
    cases hfound s with
    | goesOn hgoes s' hs' =>
      rw [hs', reachesDebug_cons hgoes]
      exact ih hfounds s'
    | dereferences hx hnull =>
      rw [hnull]
      exact iff_of_true rfl ⟨[], founds, by rw [hx, List.nil_append], by simp⟩
    | exits hne hstops hexit =>
      rw [hexit]
      exact iff_of_false (fun heq => by cases heq) (not_reachesDebug_cons hne hstops founds)

/-- The table has every default, with the type it is asked for. -/
theorem exists_tableParams : ∃ params, tableParams = some params ∧ params.random = 0 :=
  Option.map_eq_some_iff.mp (by decide : tableParams.map InputValues.random = some 0)

theorem initializeBenchmarking_eq (rand : ℤ) (argv : List Text) : ∃ params,
    params.random = 0 ∧ initializeBenchmarking rand garbage argv
      = (optionsFound options argv).foldlM (handleOption garbage) ⟨params, none, none⟩ := by
  obtain ⟨table, htable, hrandom⟩ := exists_tableParams
  have hshort := argsToShort_of_ne_nul fun o ho => (ids_ne o ho).2
  unfold initializeBenchmarking defaultParams
  rw [htable, hshort, optionsFound_eq ids_ne]
  refine ⟨_, ?_, rfl⟩
  dsimp only
  split <;> exact hrandom

theorem initializeBenchmarking_null_iff (rand : ℤ) (argv : List Text) :
    initializeBenchmarking rand garbage argv = .error .nullDereference ↔
      ReachesDebug (optionsFound options argv) := by
  obtain ⟨params, -, hrun⟩ := initializeBenchmarking_eq garbage rand argv
  rw [hrun]
  exact foldlM_handleOption_null_iff garbage
    (fun found hfound s => handles_of_mem_optionsFound garbage s hfound) _

end Benchmark

/-! ## What a command line sets -/

theorem random_switchOption {s s' : Initialized} {c : Char} {optarg : Option Text} (hc : c ≠ 'o')
    (h : s.switchOption c optarg = .ok s') : s'.params.random = s.params.random := by
  unfold Initialized.switchOption at h
  split at h
  case h_6 => cases h
  case h_19 => exact absurd rfl hc -- `o`, which alone sets it
  case h_25 => cases h
  all_goals
    cases optarg with
    | none => cases h <;> rfl
    | some t =>
      cases h
      rfl

section Set

variable {garbage : Report} {s s' : Initialized} {words : List Text}

/-- An option behind which the loop goes on has set what its case sets, and a report is made. -/
theorem handleOption_ok {found : Found} (hfound : found ∈ optionsFound options words)
    (h : handleOption garbage s found = .ok s') : ∃ o ∈ options, ∃ s₁,
      s.switchOption o.id found.optarg = .ok s₁ ∧
        s' = { s₁ with myreport := some (newReport garbage) } := by
  have hgoes : GoesOn found := by
    cases handles_of_mem_optionsFound garbage s hfound with
    | goesOn hgoes s₁ hs₁ => exact hgoes
    | dereferences hx hnull => cases h.symm.trans hnull
    | exits hne hstops hexit => cases h.symm.trans hexit
  obtain ⟨-, o, ho, hc, -⟩ := hgoes
  unfold handleOption at h
  rw [hc] at h
  dsimp only at h
  cases hswitch : s.switchOption o.id found.optarg with
  | error halt =>
    rw [hswitch] at h
    cases h
  | ok s₁ =>
    rw [hswitch] at h
    cases h
    exact ⟨o, ho, s₁, hswitch, rfl⟩

/-- `random` has the id `R`, and its case the letter `o`: so no option has this case. -/
theorem random_handleOption {found : Found} (hfound : found ∈ optionsFound options words)
    (h : handleOption garbage s found = .ok s') : s'.params.random = s.params.random := by
  obtain ⟨o, ho, s₁, hswitch, rfl⟩ := handleOption_ok hfound h
  have hne : o.id ≠ 'o' := (by decide : ∀ o ∈ options, o.id ≠ 'o') o ho
  have hrandom := random_switchOption hne hswitch
  exact hrandom

/-- A loop that comes to its end. -/
theorem foldlM_handleOption {founds : List Found}
    (hfounds : ∀ found ∈ founds, found ∈ optionsFound options words)
    (h : founds.foldlM (handleOption garbage) s = .ok s') :
    s'.params.random = s.params.random ∧
      s'.myreport = if founds = [] then s.myreport else some (newReport garbage) := by
  induction founds generalizing s with
  | nil =>
    cases h
    exact ⟨rfl, rfl⟩
  | cons found founds ih =>
    obtain ⟨hfound, hfounds⟩ := List.forall_mem_cons.mp hfounds
    rw [List.foldlM_cons] at h
    cases hfirst : handleOption garbage s found with
    | error halt =>
      rw [hfirst] at h
      cases h
    | ok s₁ =>
      rw [hfirst] at h
      obtain ⟨hrandom, hreport⟩ := ih hfounds h
      obtain ⟨o, ho, s₂, hswitch, hs₁⟩ := handleOption_ok hfound hfirst
      refine ⟨hrandom.trans (random_handleOption hfound hfirst), ?_⟩
      rw [hreport, hs₁, ite_self, if_neg (List.cons_ne_nil _ _)]

/-- No command line makes the order of sending random. And there is a report, with empty queues,
only if there is an option. -/
theorem set_initializeBenchmarking {rand : ℤ} {argv : List Text}
    (h : initializeBenchmarking rand garbage argv = .ok s) :
    s.params.random = 0 ∧
      s.myreport = if optionsFound options argv = [] then none else some (newReport garbage) := by
  obtain ⟨params, hparams, hrun⟩ := initializeBenchmarking_eq garbage rand argv
  rw [hrun] at h
  obtain ⟨hrandom, hreport⟩ := foldlM_handleOption (fun _ => id) h
  exact ⟨hrandom.trans hparams, hreport⟩

end Set

/-! ## Two ways to use an option -/

/-- Where the first option of both command lines has the case of `o`, it gets the same argument,
and no case reads an argument that is not there. -/
structure UseAgrees (o : Args) (short long : List Text) : Prop where
  same : ∀ found ∈ (optionsFound options short).head?,
    ∀ found' ∈ (optionsFound options long).head?,
      found.c = some o.id → found'.c = some o.id → found.optarg = found'.optarg
  safe : ∀ found, found ∈ (optionsFound options short).head? ∨
    found ∈ (optionsFound options long).head? →
      ∀ garbage s, handleOption garbage s found ≠ .error .nullDereference

section Use

variable {o : Args} {short long : List Text} {found found' : Found}

theorem useAgrees_iff (hshort : (optionsFound options short).head? = some found)
    (hlong : (optionsFound options long).head? = some found') :
    UseAgrees o short long ↔
      (found.c = some o.id → found'.c = some o.id → found.optarg = found'.optarg) ∧
        found ≠ ⟨some 'x', none⟩ ∧ found' ≠ ⟨some 'x', none⟩ := by
  have hnull := fun garbage s => handleOption_null_iff garbage s (List.mem_of_head? hshort)
  have hnull' := fun garbage s => handleOption_null_iff garbage s (List.mem_of_head? hlong)
  constructor
  · rintro ⟨hsame, hsafe⟩
    -- any parameters and any report will do
    obtain ⟨params, -⟩ := exists_tableParams
    have hsafe (found₀ : Found) (hfound₀ : found₀ ∈ (optionsFound options short).head? ∨
        found₀ ∈ (optionsFound options long).head?) :=
      hsafe found₀ hfound₀ ⟨fun _ => none, fun _ => ⟨0, none, none⟩⟩ ⟨params, none, none⟩
    exact ⟨hsame found hshort found' hlong,
      fun hx => hsafe found (.inl hshort) ((hnull _ _).mpr hx),
      fun hx => hsafe found' (.inr hlong) ((hnull' _ _).mpr hx)⟩
  · rintro ⟨hsame, hne, hne'⟩
    constructor
    · intro found₁ h₁ found₂ h₂
      cases hshort.symm.trans h₁
      cases hlong.symm.trans h₂
      exact hsame
    · rintro found₀ (h₀ | h₀) garbage s
      · cases hshort.symm.trans h₀
        exact (hnull garbage s).not.mpr hne
      · cases hlong.symm.trans h₀
        exact (hnull' garbage s).not.mpr hne'

theorem requiredArgument_ne (c : Char) (nextchar : Text) (words : List Text) :
    (requiredArgument (shortText options) c nextchar words).1 ≠ ⟨some 'x', none⟩ := by
  unfold requiredArgument
  split
  · exact fun heq => Option.some_ne_none _ (Found.mk.inj heq).2
  · split
    · rw [missing_of_readable (fun o ho => (ids_ne o ho).1) readable_options]
      exact fun heq => absurd (Option.some.inj (Found.mk.inj heq).1) (by decide)
    · exact fun heq => Option.some_ne_none _ (Found.mk.inj heq).2

theorem arities_of_ne {type : ArgsType} (hnone : type ≠ .none) (hflag : type ≠ .flag) :
    shortArity type = .required_argument ∧ longArity type = .required_argument := by
  rw [shortArity, if_pos ⟨hnone, hflag⟩, longArity, if_neg hnone, if_neg hflag]
  exact ⟨rfl, rfl⟩

/-- The word behind belongs to an option exactly if it requires an argument, in both encodings. -/
theorem useAgrees_separate_iff (ho : o ∈ options) (rest : List Text) :
    UseAgrees o (['-', o.id] :: rest) (('-' :: '-' :: o.name) :: rest) ↔ o.id ≠ 'x' := by
  have hshort := head?_short ids_ne ho nodup_ids readable_options (ids_ne_dash o ho) [] rest
  have hlong := head?_long ids_ne ho named_options rest
  by_cases htype : o.type = .none ∨ o.type = .flag
  · have hs : shortUse (shortText options) (shortArity o.type) o.id [] rest
        = ⟨some o.id, none⟩ := by
      rcases htype with htype | htype <;> rw [htype] <;> rfl
    have hl : longUse (shortText options) (longArity o.type) o.id rest = ⟨some o.id, none⟩ := by
      rcases htype with htype | htype <;> rw [htype] <;> rfl
    rw [hs] at hshort
    rw [hl] at hlong
    rw [useAgrees_iff hshort hlong]
    simp
  · obtain ⟨hnone, hflag⟩ := not_or.mp htype
    obtain ⟨hs, hl⟩ := arities_of_ne hnone hflag
    rw [hs] at hshort
    rw [hl] at hlong
    rw [useAgrees_iff hshort hlong]
    exact iff_of_true ⟨fun _ _ => rfl, requiredArgument_ne _ _ _, requiredArgument_ne _ _ _⟩
      fun hx => hflag (type_of_debug o ho hx)

/-- A value in the word itself does not reach a flag as a short option. -/
theorem useAgrees_attached_iff (ho : o ∈ options) {value : Text} (hvalue : value ≠ [])
    (rest : List Text) :
    UseAgrees o (('-' :: o.id :: value) :: rest)
      (('-' :: '-' :: (o.name ++ '=' :: value)) :: rest) ↔ o.type ≠ .flag := by
  have hshort := head?_short ids_ne ho nodup_ids readable_options (ids_ne_dash o ho) value rest
  have hlong := head?_longValue ids_ne ho named_options value rest
  rw [useAgrees_iff hshort hlong]
  by_cases hflag : o.type = .flag
  · rw [hflag]
    exact iff_of_false (fun h => Option.some_ne_none _ (h.1 rfl rfl).symm) (fun h => h rfl)
  · have hx : o.id ≠ 'x' := fun hx => hflag (type_of_debug o ho hx)
    refine iff_of_true ?_ hflag
    by_cases hnone : o.type = .none
    · rw [hnone]
      refine ⟨fun _ hc => ?_, ?_, ?_⟩
      · exact absurd (Option.some.inj hc).symm ((special_cases (by simp)).2.2 o ho)
      · exact fun heq => hx (Option.some.inj (Found.mk.inj heq).1)
      · exact fun heq => absurd (Option.some.inj (Found.mk.inj heq).1) (by decide)
    · obtain ⟨hs, hl⟩ := arities_of_ne hnone hflag
      have hrequired : shortUse (shortText options) .required_argument o.id value rest
          = ⟨some o.id, some value⟩ := by
        show (requiredArgument _ _ _ _).1 = _
        unfold requiredArgument
        rw [if_pos hvalue]
      rw [hs, hl, hrequired]
      refine ⟨fun _ _ => rfl, ?_, ?_⟩
      · exact fun heq => Option.some_ne_none _ (Found.mk.inj heq).2
      · exact fun heq => Option.some_ne_none _ (Found.mk.inj heq).2

end Use

/-! ## When they agree -/

/-- The encodings agree for a table without flags that can be read. In the benchmark an option is
used the same way in both, but for `debug`, where there is no value with it, and for flags, where
there is one in the same word. And the program reads an argument that is not there if it comes to
`debug` without a value. -/
theorem options_agree_iff {table : List Args} (hnodup : (table.map Args.id).Nodup)
    (hids : ∀ o ∈ table, o.id ≠ ':' ∧ o.id ≠ '\x00') {o : Args} (ho : o ∈ options)
    {value : Text} (hvalue : value ≠ []) (rest : List Text) (rand : ℤ) (garbage : Report)
    (argv : List Text) :
    (OptionsAgree table ↔ Readable table ∧ ∀ o ∈ table, o.type ≠ .flag) ∧
    (UseAgrees o (['-', o.id] :: rest) (('-' :: '-' :: o.name) :: rest) ↔ o.id ≠ 'x') ∧
    (UseAgrees o (('-' :: o.id :: value) :: rest)
      (('-' :: '-' :: (o.name ++ '=' :: value)) :: rest) ↔ o.type ≠ .flag) ∧
    (initializeBenchmarking rand garbage argv = .error .nullDereference ↔
      ReachesDebug (optionsFound options argv)) :=
  ⟨optionsAgree_iff hnodup hids, useAgrees_separate_iff ho rest,
    useAgrees_attached_iff ho hvalue rest, initializeBenchmarking_null_iff garbage rand argv⟩

/-- The table of the benchmark without its flags, and the option `cooldown` in both styles. -/
theorem options_agree_iff_cooldown :
    OptionsAgree (options.filter fun o => o.type ≠ .flag) ∧
    UseAgrees (.integer "cooldown" 'c' 0) [['-', 'c'], ['5']]
      [('-' :: '-' :: "cooldown".toList), ['5']] ∧
    UseAgrees (.integer "cooldown" 'c' 0) [['-', 'c', '5'], ['5']]
      [('-' :: '-' :: ("cooldown".toList ++ ['=', '5'])), ['5']] := by
  have hcooldown : Args.integer "cooldown" 'c' 0 ∈ options := List.mem_cons_self
  have hcases := @options_agree_iff (options.filter fun o => o.type ≠ .flag)
    (by decide) (by decide) _ hcooldown ['5'] (by decide) [['5']] 0
    ⟨fun _ => none, fun _ => ⟨0, none, none⟩⟩ []
  obtain ⟨htable, hseparate, hattached, -⟩ := hcases
  exact ⟨htable.mpr ⟨⟨by rintro o ⟨⟩; decide, by decide⟩, by decide⟩,
    hseparate.mpr (by decide), hattached.mpr (by decide)⟩

/-- The table of the benchmark has flags. `-L0` sets `learnDstMacs` to 1, and goes on with an
option `0`, where `--learn-dst-macs=0` sets it to 0. With `-x` the program reads what is not
there. -/
theorem flags_disagree :
    ((options.map Args.id).Nodup ∧ ∀ o ∈ options, o.id ≠ ':' ∧ o.id ≠ '\x00') ∧
    ¬ OptionsAgree options ∧
    ¬ UseAgrees (.flag "learn-dst-macs" 'L' 1) [['-', 'L', '0']]
      [('-' :: '-' :: ("learn-dst-macs".toList ++ ['=', '0']))] ∧
    initializeBenchmarking 0 ⟨fun _ => none, fun _ => ⟨0, none, none⟩⟩ [['-', 'x']]
      = .error .nullDereference := by
  have hL : Args.flag "learn-dst-macs" 'L' 1 ∈ options := by
    simp only [options, List.mem_cons, true_or, or_true]
  have hx : Args.flag "debug" 'x' 0 ∈ options := by
    simp only [options, List.mem_cons, true_or, or_true]
  refine ⟨⟨nodup_ids, ids_ne⟩, fun h => ?_, fun h => ?_, ?_⟩
  · exact ((optionsAgree_iff nodup_ids ids_ne).mp h).2 _ hx rfl
  · exact (useAgrees_attached_iff hL (List.cons_ne_nil _ _) []).mp h rfl
  · have hfirst := head?_short ids_ne hx nodup_ids readable_options (by decide) [] []
    obtain ⟨after, hfounds⟩ := List.head?_eq_some_iff.mp hfirst
    exact (initializeBenchmarking_null_iff _ 0 _).mpr ⟨[], after, hfounds, by simp⟩

end OfcBenchmark
