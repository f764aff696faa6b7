import OfcBenchmark.Myplot

/-!
# The environment of a report

The four numbers a report begins with are written with at most five characters, and read with at
most four. So they arrive exactly if the number of switches and that of loops have four digits at
most (`environment_roundTrip_iff`).
-/

namespace OfcBenchmark
open Printf

/-- A number without separators. -/
theorem not_mem_formatInt {v : ℤ} {c : Char} (h : IsNumberChar c = false) : c ∉ formatInt v := by
  intro hc
  rw [isNumberChar_of_mem_formatInt hc] at h
  cases h

theorem isBlock_formatInt (v : ℤ) : IsBlock (formatInt v) where
  ne_nil := by
    unfold formatInt
    split
    · exact List.cons_ne_nil _ _
    · exact Nat.toDigits_ne_nil
  not_limiter := not_mem_formatInt rfl
  not_nul := not_mem_formatInt rfl

/-- A number that is short enough is read as it was written. -/
theorem readInt_message {v : ℤ} (h : (formatInt v).length ≤ 4) (rest : Text) :
    readInt ((environmentMessage v ++ [LIMITER]).take 6 ++ rest) = some (v, rest) := by
  have hitem : environmentMessage v = formatInt v :=
    List.take_of_length_le (h.trans (Nat.le_succ 4))
  have hlength : (formatInt v ++ [LIMITER]).length ≤ 6 := by
    rw [List.length_append, List.length_singleton]
    omega
  have hmessage : (formatInt v ++ [LIMITER]).take 6 = formatInt v ++ [LIMITER] :=
    List.take_of_length_le hlength
  obtain ⟨bytesRead, -, hread⟩ : ∃ bytesRead, 0 < bytesRead ∧
      readSocketLimiter 5 (formatInt v ++ LIMITER :: rest) = some ⟨formatInt v, bytesRead, rest⟩ :=
    readSocketLimiter_block (isBlock_formatInt v) (Nat.lt_succ_of_le h)
  rw [hitem, hmessage, List.append_assoc, readInt, List.singleton_append, hread]
  exact congrArg (fun v => some (v, rest)) (atoi_formatInt v)

/-- The LIMITER of a number that is longer is left. -/
theorem readInt_long {v v' : ℤ} {rest rest' : Text} (h : 4 < (formatInt v).length)
    (hread : readInt ((environmentMessage v ++ [LIMITER]).take 6 ++ rest) = some (v', rest')) :
    rest' = LIMITER :: rest := by
  have hlength : (environmentMessage v).length = 5 := by
    rw [environmentMessage, List.length_take]
    omega
  have hmessage : IsBlock (environmentMessage v) := (isBlock_formatInt v).take (by decide)
  obtain ⟨bytesRead, hlong⟩ := readSocketLimiter_long hmessage (by decide : 1 < 5) hlength.ge
    (LIMITER :: rest)
  rw [List.take_of_length_le (by rw [List.length_append, hlength]; exact le_rfl), List.append_assoc,
    readInt, List.singleton_append, hlong, Option.map_some] at hread
  obtain ⟨-, rfl⟩ := Prod.mk.inj (Option.some.inj hread)
  rw [List.drop_of_length_le hlength.le, List.nil_append]

/-- Whatever is read has four characters at most. -/
theorem readInt_lt {socket rest : Text} {v : ℤ} (h : readInt socket = some (v, rest)) :
    v < 10 ^ 4 := by
  obtain ⟨r, hread, heq⟩ := Option.map_eq_some_iff.mp h
  rw [← (Prod.mk.inj heq).1]
  exact (atoi_bounds (Nat.le_of_lt_succ (length_readSocketLimiter hread))).2

/-- The environment as the master should see it. -/
def ReportParams.received (p : ReportParams) : Environment where
  nSwitches := p.nSwitches.toNat
  nLines := p.loopsPerTest.toNat
  mode := if p.mode = .latency then 0 else 1
  testRange := if p.testRange then 1 else 0

/-- The report without its environment: it begins with the first row of VALUES. -/
def reportRows (p : ReportParams) (rows : ℕ → TestRows) : Text :=
  clientSide ((testedSwitches p).foldl (fun queues i => enqueueTest (rows i) queues) emptyQueues)

/-- The messages that come before it. -/
def environmentText (p : ReportParams) : Text :=
  p.environment.flatMap fun v => (environmentMessage v ++ [LIMITER]).take 6

theorem clientSide_controllerBenchmarking (p : ReportParams) (rows : ℕ → TestRows) :
    clientSide (controllerBenchmarking p rows) = environmentText p ++ reportRows p rows := by
  have htests (id : QueueId) : (testedSwitches p).foldl
      (fun queues i => enqueueTest (rows i) queues) emptyQueues id
        = (testedSwitches p).flatMap fun i => (rows i).messages id :=
    foldl_enqueueTest_apply rows (testedSwitches p) emptyQueues id
  have henvironment : environmentText p
      = (p.environment.map fun v => (environmentMessage v ++ [LIMITER]).take 6).flatten :=
    List.flatMap_def
  rw [reportRows, clientSide_eq, clientSide_eq, htests, htests, htests,
    controllerBenchmarking_apply, controllerBenchmarking_apply, controllerBenchmarking_apply,
    if_pos rfl, if_neg nofun, if_neg nofun, List.nil_append, List.nil_append, List.flatten_append,
    ← henvironment]
  simp only [List.append_assoc]

/-- The environment as it is written. -/
def ReportParams.written (p : ReportParams) : Environment where
  nSwitches := p.nSwitches.toInt
  nLines := p.loopsPerTest.toInt
  mode := if p.mode = .latency then 0 else 1
  testRange := if p.testRange then 1 else 0

/-- The messages of the environment are short enough. -/
def EnvironmentIntact (p : ReportParams) : Prop := ∀ v ∈ p.environment, (formatInt v).length ≤ 4

instance : DecidablePred EnvironmentIntact := fun p =>
  inferInstanceAs (Decidable (∀ v ∈ p.environment, (formatInt v).length ≤ 4))

theorem length_formatInt_of_le {v : BitVec 32} (hv : v.toNat ≤ 9999) :
    (formatInt v.toInt).length ≤ 4 := by
  rw [length_formatInt_le_iff v.toInt (k := 3) (by decide),
    BitVec.toInt_eq_toNat_of_lt (by omega)]
  omega

/-- The mode and the range have one digit. -/
theorem environmentIntact_of_length {p : ReportParams}
    (hn : (formatInt p.nSwitches.toInt).length ≤ 4)
    (hl : (formatInt p.loopsPerTest.toInt).length ≤ 4) : EnvironmentIntact p := by
  simp only [EnvironmentIntact, ReportParams.environment, List.forall_mem_cons]
  refine ⟨hn, hl, ?_, ?_, nofun⟩
  · split <;> decide
  · split <;> decide

theorem environmentIntact_of_le {p : ReportParams} (hn : p.nSwitches.toNat ≤ 9999)
    (hl : p.loopsPerTest.toNat ≤ 9999) : EnvironmentIntact p :=
  environmentIntact_of_length (length_formatInt_of_le hn) (length_formatInt_of_le hl)

/-- Four messages that are short enough arrive. -/
theorem readEnvironment_of_intact {p : ReportParams} (rest : Text) (h : EnvironmentIntact p) :
    readEnvironment (environmentText p ++ rest) = some (p.written, rest) := by
  simp only [EnvironmentIntact] at h
  simp only [ReportParams.environment, List.forall_mem_cons] at h
  obtain ⟨h₁, h₂, h₃, h₄, -⟩ := h
  simp only [environmentText, ReportParams.environment, List.flatMap_cons, List.flatMap_nil,
    List.append_nil, List.append_assoc]
  unfold readEnvironment
  simp only [readInt_message h₁, readInt_message h₂, readInt_message h₃, readInt_message h₄,
    Option.bind_eq_bind, Option.bind_some]
  rfl

/-- With a number of loops that is longer nothing is read. -/
theorem readEnvironment_long {p : ReportParams} (hn : p.nSwitches.toNat ≤ 9999)
    (hl : 4 < (formatInt p.loopsPerTest.toInt).length) (rest : Text) :
    readEnvironment (environmentText p ++ rest) = none := by
  by_contra hsome
  obtain ⟨r, h⟩ := Option.ne_none_iff_exists'.mp hsome
  simp only [environmentText, ReportParams.environment, List.flatMap_cons, List.flatMap_nil,
    List.append_nil, List.append_assoc] at h
  rw [readEnvironment, readInt_message (length_formatInt_of_le hn), Option.bind_eq_bind,
    Option.bind_some] at h
  obtain ⟨⟨nLines, socket₂⟩, hlines, h⟩ := Option.bind_eq_some_iff.mp h
  obtain ⟨⟨mode, socket₃⟩, hmode, -⟩ := Option.bind_eq_some_iff.mp h
  rw [readInt_long hl hlines, readInt, readSocketLimiter_limiter] at hmode
  cases hmode

/-- The master decodes the environment, and comes to the first row of VALUES, exactly if the
number of switches and that of loops have four digits at most. -/
theorem environment_roundTrip_iff (p : ReportParams) (rows : ℕ → TestRows) :
    readEnvironment (clientSide (controllerBenchmarking p rows))
        = some (p.received, reportRows p rows) ↔
      p.nSwitches.toNat ≤ 9999 ∧ p.loopsPerTest.toNat ≤ 9999 := by
  rw [clientSide_controllerBenchmarking]
  constructor
  · intro h
    obtain ⟨⟨nSwitches, socket₁⟩, hswitches, h⟩ := Option.bind_eq_some_iff.mp h
    obtain ⟨⟨nLines, socket₂⟩, hlines, h⟩ := Option.bind_eq_some_iff.mp h
    obtain ⟨⟨mode, socket₃⟩, -, h⟩ := Option.bind_eq_some_iff.mp h
    obtain ⟨⟨testRange, socket₄⟩, -, h⟩ := Option.bind_eq_some_iff.mp h
    obtain ⟨hreceived, -⟩ := Prod.mk.inj (Option.some.inj h)
    have hn : nSwitches = p.nSwitches.toNat := congrArg Environment.nSwitches hreceived
    have hl : nLines = p.loopsPerTest.toNat := congrArg Environment.nLines hreceived
    have hnlt := readInt_lt hswitches
    have hllt := readInt_lt hlines
    omega
  · rintro ⟨hn, hl⟩
    have hint {v : BitVec 32} (hv : v.toNat ≤ 9999) : v.toInt = v.toNat :=
      BitVec.toInt_eq_toNat_of_lt (by omega)
    have hwritten : p.written = p.received := by
      rw [ReportParams.written, ReportParams.received, hint hn, hint hl]
    rw [readEnvironment_of_intact _ (environmentIntact_of_le hn hl), hwritten]

/-- 10000 switches, and one loop. -/
def tenThousand : ReportParams := ⟨10000, 1, .latency, false⟩

/-- The rows of a test of `i + 1` switches, with one loop in which nothing arrived. -/
def idleTest (i : ℕ) : TestRows where
  loops := [("0.100".toList ++ (List.replicate (i + 1) [',', '0']).flatten ++ ";;*".toList,
    "0.100,0.00;;*".toList)]
  results := "0.00,0.00,0.00,0.00;".toList

/-- The master reads 1000, and then the LIMITER by itself. -/
theorem not_environment_roundTrip_tenThousand :
    (readInt (clientSide (controllerBenchmarking tenThousand idleTest))).map Prod.fst
        = some 1000 ∧
      readEnvironment (clientSide (controllerBenchmarking tenThousand idleTest))
        ≠ some (tenThousand.received, reportRows tenThousand idleTest) := by
  rw [clientSide_controllerBenchmarking,
    show environmentText tenThousand = "10000*1*0*0*".toList by decide]
  generalize reportRows tenThousand idleTest = rest
  exact ⟨rfl, nofun⟩

end OfcBenchmark
