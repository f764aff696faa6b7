import OfcBenchmark.HeaderTheorems
import OfcBenchmark.Lib.Decimal
import OfcBenchmark.DelayTheorems
import OfcBenchmark.Mysnmp

/-!
# Time stamps

A time stamp is `(tv_usec / 1000 + tv_sec * 10e3) / 10000`, and `10e3` is 10000: the seconds are
right, but the milliseconds are divided by ten. So two time stamps are as far apart as the samples
only if the parts of the times below a second are close to each other (`timestamps_true_iff`).
-/

namespace OfcBenchmark
open Printf

/-! ## What is written -/

/-- The first number of a row. -/
def firstNumber (row : Text) : Text := row.takeWhile fun c => c ≠ ',' ∧ c ≠ CSV_NEWLINE

/-- The time stamp of a sample taken at `now`: the first number of the rows of `runTest`, or what
`printResult` puts into TIME. -/
inductive TimestampWritten (tStart now : Timeval) : QueueId → Text → Prop
  | values {d : LoopData} {LAST : Bool} {rows : Text × Text} (hdiff : d.diff = timersub now tStart)
      (hrows : runTestRows id d LAST = some rows) :
      TimestampWritten tStart now .values (firstNumber rows.1)
  | avgs {d : LoopData} {LAST : Bool} {rows : Text × Text} (hdiff : d.diff = timersub now tStart)
      (hrows : runTestRows id d LAST = some rows) :
      TimestampWritten tStart now .avgs (firstNumber rows.2)
  | time {token text : Text} {s s' : SnmpState}
      (hstore : storeVariable id tStart now .cpuIdle token s = some s')
      (hqueue : s'.queues TIME = s.queues TIME ++ [text]) :
      TimestampWritten tStart now TIME text

/-- A time that has passed. -/
structure Timeval.IsElapsed (e : Timeval) : Prop extends e.IsWallClock where
  sec_nonneg : 0 ≤ e.tv_sec
  sec_lt : e.tv_sec < 2 ^ 63

/-- Two time stamps are in order, and as far apart as the samples up to a millisecond. -/
def AxisTrue (e₁ e₂ : Timeval) (text₁ text₂ : Text) : Prop :=
  ∃ t₁ t₂ : ℚ≥0, atof text₁ = ⟨false, .finite t₁⟩ ∧ atof text₂ = ⟨false, .finite t₂⟩ ∧ t₁ ≤ t₂ ∧
    |((t₂ : ℚ) - t₁) - (e₂.usecs - e₁.usecs) / 1000000| ≤ 1 / 1000

/-! ## The rows -/

variable {fl : ℚ → ℚ}

theorem firstNumber_append {text rest : Text} {c : Char} (htext : IsToken text)
    (hc : c = ',' ∨ c = CSV_NEWLINE) : firstNumber (text ++ c :: rest) = text := by
  have hall : ∀ c' ∈ text, decide (c' ≠ ',' ∧ c' ≠ CSV_NEWLINE) = true := by
    intro c' hmem
    rw [decide_eq_true_iff]
    exact ⟨fun h => htext.not_comma (h ▸ hmem), fun h => htext.not_newline (h ▸ hmem)⟩
  have hend : ¬ decide (c ≠ ',' ∧ c ≠ CSV_NEWLINE) = true := by
    rw [decide_eq_true_iff]
    rintro ⟨hcomma, hnewline⟩
    exact hc.elim hcomma hnewline
  rw [firstNumber, List.takeWhile_append_of_pos hall, List.takeWhile_cons, if_neg hend,
    List.append_nil]

/-- A row that comes out is its pieces, one after the other. -/
theorem buildRow_eq {first second : Text} {size : ℕ} {pieces : List (ℕ × Text)} {row : Text}
    (hne : first ≠ []) (hsize : ∀ piece ∈ (size, second) :: pieces,
      piece.2.length < piece.1 ∨ ROW_SIZE ≤ piece.1)
    (h : buildRow ((ROW_SIZE, first) :: (size, second) :: pieces) = some row) :
    row = first ++ (second ++ pieces.flatMap Prod.snd) := by
  obtain ⟨b, hwrite, rfl⟩ := Option.map_eq_some_iff.mp h
  have hfirst : first.length < ROW_SIZE := by
    have hsplit : Cursor.empty.write ROW_SIZE ([(ROW_SIZE, first)] ++ (size, second) :: pieces)
        = some b := hwrite
    have hlt := Cursor.lt_of_write hsplit
    simpa [Cursor.empty] using hlt
  obtain ⟨b₁, hput, hrest⟩ := Option.bind_eq_some_iff.mp (Cursor.write_cons _ _ ▸ hwrite)
  have hb₁ : b₁ = ⟨first, first.length⟩ := by
    have hput' : Cursor.empty.snprintf ROW_SIZE ROW_SIZE first = some ⟨first, first.length⟩ :=
      Cursor.snprintf_of_lt (t := []) hfirst hfirst
    exact Option.some.inj (hput.symm.trans hput')
  rw [hb₁] at hrest
  exact Cursor.text_of_write (fun piece hmem => (hsize piece hmem).imp_right (⟨hne, ·⟩)) hrest

theorem firstNumber_rows {d : LoopData} {LAST : Bool} {rows : Text × Text}
    (h : runTestRows fl d LAST = some rows) :
    firstNumber rows.1 = (d.ms fl).format 3 ∧ firstNumber rows.2 = (d.ms fl).format 3 := by
  have htoken : IsToken ((d.ms fl).format 3) := isToken_format 3 _
  have hlast : ∀ piece ∈ (if LAST then [(4, [CSV_NEWLINE, LIMITER])] else [] : List (ℕ × Text)),
      piece.2.length < piece.1 := by
    cases LAST <;> decide
  obtain ⟨values, hvalues, h⟩ := Option.bind_eq_some_iff.mp h
  obtain ⟨avgs, havgs, h⟩ := Option.bind_eq_some_iff.mp h
  cases h
  constructor
  · have hend : ∀ piece ∈
        (2, [CSV_NEWLINE]) :: (if LAST then [(4, [CSV_NEWLINE, LIMITER])] else []),
        piece.2.length < piece.1 ∨ ROW_SIZE ≤ piece.1 :=
      List.forall_mem_cons.mpr ⟨.inl (by decide), fun piece hmem => .inl (hlast piece hmem)⟩
    unfold valuesPieces at hvalues
    -- a comma follows, or without a switch the newline
    cases hcounts : d.counts with
    | nil =>
      rw [hcounts] at hvalues
      rw [buildRow_eq htoken.ne_nil hend hvalues]
      exact firstNumber_append htoken (.inr rfl)
    | cons count counts =>
      rw [hcounts] at hvalues
      have hsize : ∀ piece ∈ (ROW_SIZE, ',' :: formatInt count) ::
          (counts.map (fun count => (ROW_SIZE, ',' :: formatInt count)) ++
            (2, [CSV_NEWLINE]) :: (if LAST then [(4, [CSV_NEWLINE, LIMITER])] else [])),
          piece.2.length < piece.1 ∨ ROW_SIZE ≤ piece.1 := by
        intro piece hmem
        rcases List.mem_cons.mp hmem with rfl | hmem
        · exact .inr le_rfl
        · rcases List.mem_append.mp hmem with hmem | hmem
          · obtain ⟨count', -, rfl⟩ := List.mem_map.mp hmem
            exact .inr le_rfl
          · exact hend piece hmem
      rw [buildRow_eq htoken.ne_nil hsize hvalues]
      exact firstNumber_append htoken (.inl rfl)
  · have hsize : ∀ piece ∈ (ROW_SIZE, ',' :: (d.rate fl).format 2 ++ [CSV_NEWLINE]) ::
        (if LAST then [(4, [CSV_NEWLINE, LIMITER])] else []),
        piece.2.length < piece.1 ∨ ROW_SIZE ≤ piece.1 :=
      List.forall_mem_cons.mpr ⟨.inr le_rfl, fun piece hmem => .inl (hlast piece hmem)⟩
    rw [buildRow_eq htoken.ne_nil hsize havgs]
    exact firstNumber_append htoken (.inl rfl)

/-! ## What time stamps show -/

/-- The milliseconds of a time, without the seconds. -/
def Timeval.milliseconds (e : Timeval) : ℕ := (e.tv_usec / 1000).toNat

/-- What its time stamp has behind the point, in ms. -/
def Timeval.shown (e : Timeval) : ℕ := tenths e.milliseconds

/-- The digits behind the point for which there is no space: a message of TIME has at most 19
characters. -/
def lostDigits (ID : QueueId) (e : Timeval) : ℕ :=
  if ID = TIME then 3 - (18 - (Nat.toDigits 10 e.tv_sec.toNat).length) else 0

/-- What is left of `shown`. -/
def shownIn (ID : QueueId) (e : Timeval) : ℕ :=
  e.shown / 10 ^ lostDigits ID e * 10 ^ lostDigits ID e

theorem Timeval.IsElapsed.milliseconds {e : Timeval} (he : e.IsElapsed) :
    1000 * (e.milliseconds : ℤ) ≤ e.tv_usec ∧ e.tv_usec < 1000 * e.milliseconds + 1000 := by
  have hnonneg := he.usec_nonneg
  unfold Timeval.milliseconds
  omega

theorem Timeval.IsElapsed.shown_le {e : Timeval} (he : e.IsElapsed) : e.shown ≤ 100 := by
  have hms := he.milliseconds
  have hlt := he.usec_lt
  have hbounds := (tenths_bounds e.milliseconds).2
  unfold Timeval.shown
  omega

theorem lostDigits_le (ID : QueueId) (e : Timeval) : lostDigits ID e ≤ 3 := by
  unfold lostDigits
  split
  · exact Nat.sub_le _ _
  · exact Nat.zero_le _

/-- The number that is printed, and what it is rounded to. -/
theorem ofRat_timestamp {e : Timeval} (he : e.IsElapsed) :
    ∃ q : ℚ≥0, Double.ofRat (((e.tv_usec.tdiv 1000 : ℤ) + e.tv_sec * 10000) / 10000)
        = ⟨false, .finite q⟩ ∧
      roundHalfEven (q * 10 ^ 3) = 1000 * e.tv_sec.toNat + e.shown := by
  let hundredths : ℕ := e.milliseconds + 20 * (500 * e.tv_sec.toNat)
  have husec : e.tv_usec.tdiv 1000 = e.milliseconds := by
    rw [Int.tdiv_eq_ediv_of_nonneg he.usec_nonneg]
    exact (Int.toNat_of_nonneg (Int.ediv_nonneg he.usec_nonneg (by decide))).symm
  have hsec : e.tv_sec = (e.tv_sec.toNat : ℤ) := (Int.toNat_of_nonneg he.sec_nonneg).symm
  have hnumber : (((e.tv_usec.tdiv 1000 : ℤ) + e.tv_sec * 10000) / 10000 : ℚ)
      = ((hundredths / 10000 : ℚ≥0) : ℚ) := by
    rw [husec, hsec]
    push_cast [hundredths]
    ring
  refine ⟨hundredths / 10000, ?_, ?_⟩
  · rw [hnumber, Double.ofRat, decide_eq_false (not_lt.mpr (NNRat.coe_nonneg _))]
    congr 2
    exact NNRat.coe_injective (abs_of_nonneg (NNRat.coe_nonneg _))
  -- the thousandths that are printed are tenths of the number's own
  · have hscaled : (hundredths / 10000 * 10 ^ 3 : ℚ≥0) = hundredths / 10 := by
      rw [div_mul_eq_mul_div, div_eq_div_iff (by norm_num) (by norm_num)]
      ring
    rw [hscaled, roundHalfEven_tenths, tenths_add]
    unfold Timeval.shown
    omega

/-- A message of TIME is the number with what there is space for. -/
theorem text_of_store {tStart now : Timeval} {token text : Text} {s s' : SnmpState}
    (hstore : storeVariable fl tStart now .cpuIdle token s = some s')
    (hqueue : s'.queues TIME = s.queues TIME ++ [text]) :
    text = ((snmpTimestamp fl tStart now).format 3).take 19 := by
  cases hstore
  have hne : TIME ≠ CPU := by decide
  have htake : (((snmpTimestamp fl tStart now).format 3).take 19).take 20
      = ((snmpTimestamp fl tStart now).format 3).take 19 :=
    List.take_of_length_le ((List.length_take_le _ _).trans (by decide))
  have hmessage := hqueue
  simp only [SnmpState.enqueue, enqueueMessage_of_ne _ _ _ _ hne, enqueueMessage_self,
    Bool.false_eq_true, if_false, List.append_cancel_left_eq, List.cons.injEq, and_true] at hmessage
  exact hmessage.symm.trans htake

/-- A time stamp is read as the seconds, and what it shows behind the point. -/
theorem atof_timestamp {tStart now : Timeval} {ID : QueueId} {text : Text}
    (h : TimestampWritten tStart now ID text) (he : (timersub now tStart).IsElapsed) :
    atof text = ⟨false, .finite ((1000 * (timersub now tStart).tv_sec.toNat
      + shownIn ID (timersub now tStart) : ℕ) / 1000)⟩ := by
  obtain ⟨q, hq, hround⟩ := ofRat_timestamp he
  have hshown := he.shown_le
  have hnumber {d : LoopData} (hd : d.diff = timersub now tStart) :
      d.ms id = ⟨false, .finite q⟩ := by
    rw [← hq, ← hd]
    rfl
  have hwhole : atof ((⟨false, .finite q⟩ : Double).format 3) = ⟨false, .finite
      ((1000 * (timersub now tStart).tv_sec.toNat + (timersub now tStart).shown : ℕ) / 1000)⟩ := by
    rw [atof_format, Magnitude.round, hround]
    norm_num
  cases h with
  | values hdiff hrows =>
    have hkept : shownIn .values (timersub now tStart) = (timersub now tStart).shown := by
      simp [shownIn, lostDigits]
    rw [(firstNumber_rows hrows).1, hnumber hdiff, hwhole, hkept]
  | avgs hdiff hrows =>
    have hkept : shownIn .avgs (timersub now tStart) = (timersub now tStart).shown := by
      simp [shownIn, lostDigits]
    rw [(firstNumber_rows hrows).2, hnumber hdiff, hwhole, hkept]
  | time hstore hqueue =>
    have hsec : (1000 * (timersub now tStart).tv_sec.toNat + (timersub now tStart).shown) / 10 ^ 3
        = (timersub now tStart).tv_sec.toNat := by omega
    have hrest : (1000 * (timersub now tStart).tv_sec.toNat + (timersub now tStart).shown) % 10 ^ 3
        = (timersub now tStart).shown := by omega
    have hlength : (Nat.toDigits 10 (timersub now tStart).tv_sec.toNat).length ≤ 19 := by
      have hlt := he.sec_lt
      rw [Nat.length_toDigits_le_iff (by decide) (by decide)]
      omega
    -- the message is cut off behind 19 characters, which takes digits behind the point
    have hlost : lostDigits TIME (timersub now tStart)
        = 3 - (19 - 1 - (Nat.toDigits 10 (roundHalfEven (q * 10 ^ 3) / 10 ^ 3)).length) := by
      rw [hround, hsec]
      rfl
    have hread := atof_take_format (by decide) q (by rw [hround, hsec]; exact hlength) hlost
    rw [hround, div_mul_pow_eq (lostDigits_le _ _), hsec, hrest] at hread
    rw [text_of_store hstore hqueue, show snmpTimestamp id tStart now = _ from hq, hread]
    norm_num [shownIn]

/-! ## When they are true -/

/-- The last digit that is shown goes from `k` to `k + 1` before this time. -/
def RoundsUp (k : ℕ) (e : Timeval) : Prop :=
  10 * k + 5 < e.milliseconds ∨ 10 * k + 5 = e.milliseconds ∧ k % 2 = 1

/-- The parts below a second are at most a millisecond apart, or two of them if the last digit
that is shown is not the same. -/
def CloseBelowSecond (e₁ e₂ : Timeval) : Prop :=
  |e₂.tv_usec - e₁.tv_usec| ≤ 1000 ∨
    |e₂.tv_usec - e₁.tv_usec| ≤ 2000 ∧ ∃ k, ¬ (RoundsUp k e₁ ↔ RoundsUp k e₂)

/-- Every digit of a time stamp has space. -/
def IsWhole (ID : QueueId) (e : Timeval) : Prop := ID = TIME → e.tv_sec < 10 ^ 15

instance (ID : QueueId) (e : Timeval) : Decidable (IsWhole ID e) :=
  inferInstanceAs (Decidable (ID = TIME → e.tv_sec < 10 ^ 15))

/-- When time stamps are true. Where digits are lost, what is left must be as far apart as the
times are. -/
def TimestampsClose (ID₁ ID₂ : QueueId) (e₁ e₂ : Timeval) : Prop :=
  if IsWhole ID₁ e₁ ∧ IsWhole ID₂ e₂ then CloseBelowSecond e₁ e₂
  else 1000 * e₁.tv_sec + shownIn ID₁ e₁ ≤ 1000 * e₂.tv_sec + shownIn ID₂ e₂ ∧
    |1000 * ((shownIn ID₂ e₂ : ℤ) - shownIn ID₁ e₁) - (e₂.tv_usec - e₁.tv_usec)| ≤ 1000

theorem shownIn_of_isWhole {ID : QueueId} {e : Timeval} (he : e.IsElapsed) (h : IsWhole ID e) :
    shownIn ID e = e.shown := by
  have hlost : lostDigits ID e = 0 := by
    unfold lostDigits
    split
    case isTrue hID =>
      have hlt := h hID
      have hnonneg := he.sec_nonneg
      have hlength : (Nat.toDigits 10 e.tv_sec.toNat).length ≤ 15 := by
        rw [Nat.length_toDigits_le_iff (by decide) (by decide)]
        omega
      omega
    case isFalse => rfl
  rw [shownIn, hlost, pow_zero, Nat.div_one, Nat.mul_one]

theorem axisTrue_iff {e₁ e₂ : Timeval} {text₁ text₂ : Text} {n₁ n₂ : ℕ}
    (h₁ : atof text₁ = ⟨false, .finite ((n₁ : ℕ) / 1000)⟩)
    (h₂ : atof text₂ = ⟨false, .finite ((n₂ : ℕ) / 1000)⟩) :
    AxisTrue e₁ e₂ text₁ text₂ ↔
      n₁ ≤ n₂ ∧ |1000 * ((n₂ : ℤ) - n₁) - (e₂.usecs - e₁.usecs)| ≤ 1000 := by
  have hle : (n₁ / 1000 : ℚ≥0) ≤ n₂ / 1000 ↔ n₁ ≤ n₂ := by
    rw [div_le_div_iff_of_pos_right (by norm_num), Nat.cast_le]
  have hdistance : |(((n₂ / 1000 : ℚ≥0) : ℚ) - (n₁ / 1000 : ℚ≥0)) - (e₂.usecs - e₁.usecs) / 1000000|
      ≤ 1 / 1000 ↔ |1000 * ((n₂ : ℤ) - n₁) - (e₂.usecs - e₁.usecs)| ≤ 1000 := by
    have hscale : ((n₂ / 1000 : ℚ≥0) : ℚ) - (n₁ / 1000 : ℚ≥0) - (e₂.usecs - e₁.usecs) / 1000000
        = ((1000 * ((n₂ : ℤ) - n₁) - (e₂.usecs - e₁.usecs) : ℤ) : ℚ) / 1000000 := by
      push_cast
      ring
    rw [hscale, abs_div, abs_of_pos (by norm_num : (0 : ℚ) < 1000000),
      div_le_div_iff₀ (by norm_num) (by norm_num), ← Int.cast_abs]
    constructor
    · intro h
      have h' : ((|1000 * ((n₂ : ℤ) - n₁) - (e₂.usecs - e₁.usecs)| : ℤ) : ℚ) ≤ 1000 := by linarith
      exact_mod_cast h'
    · intro h
      have h' : ((|1000 * ((n₂ : ℤ) - n₁) - (e₂.usecs - e₁.usecs)| : ℤ) : ℚ) ≤ 1000 := by
        exact_mod_cast h
      linarith
  rw [← hle, ← hdistance]
  constructor
  · rintro ⟨t₁, t₂, ht₁, ht₂, h⟩
    rw [h₁] at ht₁
    rw [h₂] at ht₂
    cases ht₁
    cases ht₂
    exact h
  · intro h
    exact ⟨_, _, h₁, h₂, h⟩

/-- Another digit is shown if one of the times is past the change. -/
theorem exists_roundsUp_iff (e₁ e₂ : Timeval) :
    (∃ k, ¬ (RoundsUp k e₁ ↔ RoundsUp k e₂)) ↔ e₁.shown ≠ e₂.shown := by
  have hiff (k : ℕ) (e : Timeval) : RoundsUp k e ↔ k < e.shown := lt_tenths_iff.symm
  simp only [hiff]
  rw [← not_forall, not_iff_not]
  constructor
  · intro h
    exact le_antisymm (not_lt.mp fun hlt => lt_irrefl _ ((h _).mp hlt))
      (not_lt.mp fun hlt => lt_irrefl _ ((h _).mpr hlt))
  · intro h k
    rw [h]

/-- No more than a digit can change within two milliseconds. -/
theorem closeBelowSecond_iff {e₁ e₂ : Timeval} (he₁ : e₁.IsElapsed) (he₂ : e₂.IsElapsed) :
    |1000 * ((e₂.shown : ℤ) - e₁.shown) - (e₂.tv_usec - e₁.tv_usec)| ≤ 1000 ↔
      CloseBelowSecond e₁ e₂ := by
  have hms₁ := he₁.milliseconds
  have hms₂ := he₂.milliseconds
  have hshown₁ := tenths_bounds e₁.milliseconds
  have hshown₂ := tenths_bounds e₂.milliseconds
  have hmono₁ : e₁.milliseconds ≤ e₂.milliseconds → e₁.shown ≤ e₂.shown := tenths_mono
  have hmono₂ : e₂.milliseconds ≤ e₁.milliseconds → e₂.shown ≤ e₁.shown := tenths_mono
  rw [CloseBelowSecond, exists_roundsUp_iff]
  unfold Timeval.shown at hmono₁ hmono₂ ⊢
  simp only [abs_le]
  omega

/-- What is shown whole is in order. -/
theorem shown_ordered {e₁ e₂ : Timeval} (he₁ : e₁.IsElapsed) (he₂ : e₂.IsElapsed)
    (hle : e₁.usecs ≤ e₂.usecs) :
    1000 * e₁.tv_sec.toNat + e₁.shown ≤ 1000 * e₂.tv_sec.toNat + e₂.shown := by
  have hsec₁ := he₁.sec_nonneg
  have husec₁ := he₁.usec_nonneg
  have husec₂ := he₂.usec_lt
  have hsec : e₁.tv_sec ≤ e₂.tv_sec := by
    unfold Timeval.usecs at hle
    omega
  rcases hsec.lt_or_eq with hlt | heq
  · -- a second is more than what is shown behind the point
    have hshown₁ := he₁.shown_le
    omega
  · have hms : e₁.milliseconds ≤ e₂.milliseconds := by
      unfold Timeval.usecs at hle
      unfold Timeval.milliseconds
      omega
    have hshown : e₁.shown ≤ e₂.shown := tenths_mono hms
    omega

/-- Of two samples, the time stamps are in order and as far apart as the samples up to a
millisecond exactly if the parts of the times below a second are this close to each other. -/
theorem timestamps_true_iff {tStart now₁ now₂ : Timeval} {ID₁ ID₂ : QueueId} {text₁ text₂ : Text}
    (h₁ : TimestampWritten tStart now₁ ID₁ text₁) (h₂ : TimestampWritten tStart now₂ ID₂ text₂)
    (he₁ : (timersub now₁ tStart).IsElapsed) (he₂ : (timersub now₂ tStart).IsElapsed)
    (hle : (timersub now₁ tStart).usecs ≤ (timersub now₂ tStart).usecs) :
    AxisTrue (timersub now₁ tStart) (timersub now₂ tStart) text₁ text₂ ↔
      TimestampsClose ID₁ ID₂ (timersub now₁ tStart) (timersub now₂ tStart) := by
  rw [axisTrue_iff (atof_timestamp h₁ he₁) (atof_timestamp h₂ he₂)]
  generalize timersub now₁ tStart = e₁ at he₁ hle ⊢
  generalize timersub now₂ tStart = e₂ at he₂ hle ⊢
  have hsec₁ := Int.toNat_of_nonneg he₁.sec_nonneg
  have hsec₂ := Int.toNat_of_nonneg he₂.sec_nonneg
  have hdistance : 1000 * (((1000 * e₂.tv_sec.toNat + shownIn ID₂ e₂ : ℕ) : ℤ)
        - (1000 * e₁.tv_sec.toNat + shownIn ID₁ e₁ : ℕ)) - (e₂.usecs - e₁.usecs)
      = 1000 * ((shownIn ID₂ e₂ : ℤ) - shownIn ID₁ e₁) - (e₂.tv_usec - e₁.tv_usec) := by
    unfold Timeval.usecs
    push_cast
    rw [hsec₁, hsec₂]
    ring
  rw [hdistance, TimestampsClose]
  split
  case isTrue hwhole =>
    rw [shownIn_of_isWhole he₁ hwhole.1, shownIn_of_isWhole he₂ hwhole.2,
      closeBelowSecond_iff he₁ he₂]
    exact and_iff_right (shown_ordered he₁ he₂ hle)
  case isFalse =>
    have horder : 1000 * e₁.tv_sec.toNat + shownIn ID₁ e₁
          ≤ 1000 * e₂.tv_sec.toNat + shownIn ID₂ e₂ ↔
        1000 * e₁.tv_sec + shownIn ID₁ e₁ ≤ 1000 * e₂.tv_sec + shownIn ID₂ e₂ := by omega
    rw [horder]

/-- A loop with one switch, at this time. -/
def loopAt (e : Timeval) : LoopData := ⟨e, [100], 0⟩

theorem written_loopAt {e : Timeval} {rows : Text × Text} (he : timersub e ⟨0, 0⟩ = e)
    (h : runTestRows id (loopAt e) false = some rows) :
    TimestampWritten ⟨0, 0⟩ e .values (firstNumber rows.1) :=
  .values he.symm h

theorem written_oneSecond : TimestampWritten ⟨0, 0⟩ ⟨1, 0⟩ .values "1.000".toList :=
  @written_loopAt _ ("1.000,100;".toList, "1.000,0.10;".toList) rfl (by decide +kernel)

theorem timestamps_true_iff_fullSeconds :
    AxisTrue ⟨1, 0⟩ ⟨2, 0⟩ "1.000".toList "2.000".toList := by
  have htwo : TimestampWritten ⟨0, 0⟩ ⟨2, 0⟩ .values "2.000".toList :=
    @written_loopAt _ ("2.000,100;".toList, "2.000,0.05;".toList) rfl (by decide +kernel)
  refine (timestamps_true_iff written_oneSecond htwo ⟨⟨?_, ?_⟩, ?_, ?_⟩ ⟨⟨?_, ?_⟩, ?_, ?_⟩
    ?_).mpr ?_
  case refine_10 =>
    rw [TimestampsClose, if_pos (by decide)]
    exact .inl (by decide)
  all_goals decide

/-- One second and one and a half are shown as 1.000 and 1.050. -/
theorem not_timestamps_true_halfSecond :
    TimestampWritten ⟨0, 0⟩ ⟨1, 0⟩ .values "1.000".toList ∧
      TimestampWritten ⟨0, 0⟩ ⟨1, 500000⟩ .values "1.050".toList ∧
      ¬ AxisTrue ⟨1, 0⟩ ⟨1, 500000⟩ "1.000".toList "1.050".toList := by
  have hone : atof "1.000".toList = ⟨false, .finite ((1000 : ℕ) / 1000)⟩ := by decide +kernel
  have hhalf : atof "1.050".toList = ⟨false, .finite ((1050 : ℕ) / 1000)⟩ := by decide +kernel
  refine ⟨written_oneSecond, ?_, ?_⟩
  · exact @written_loopAt _ ("1.050,100;".toList, "1.050,0.07;".toList) rfl (by decide +kernel)
  · rw [axisTrue_iff hone hhalf]
    decide

end OfcBenchmark
