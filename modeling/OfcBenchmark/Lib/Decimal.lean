import Mathlib.Algebra.Order.Floor.Semifield
import OfcBenchmark.Lib.Printf

/-!
# Reading numbers

`atof`, and the order of floating-point numbers.

* `atof_format`: what `%.<d>lf` wrote is read as the number rounded to `d` digits;
* `atof_take_format`: where the text was cut, the last digits are read as zeros;
* `roundHalfEven_tenths`: how a multiple of a tenth is rounded;
* `Magnitude.round_mono`: rounding keeps the order, so that numbers can be compared by what is
  printed of them;
* `Magnitude.round_ofRat_le_zero_iff`: what is printed as zero.
-/

namespace Printf

/-! ## Order -/

/-- Not-a-number is in no order. -/
def Magnitude.le : Magnitude → Magnitude → Prop
  | .finite a, .finite b => a ≤ b
  | .finite _, .inf => True
  | .inf, .inf => True
  | _, _ => False

instance : LE Magnitude := ⟨Magnitude.le⟩

/-- `<=`. The two zeros are equal. -/
def Double.le (x y : Double) : Prop :=
  match x.negative, y.negative with
  | false, false => x.magnitude ≤ y.magnitude
  | true, true => y.magnitude ≤ x.magnitude
  | true, false => x.magnitude ≤ x.magnitude ∧ y.magnitude ≤ y.magnitude
  | false, true => x.magnitude ≤ .finite 0 ∧ y.magnitude ≤ .finite 0

instance : LE Double := ⟨Double.le⟩

theorem Magnitude.le_zero_iff {m : Magnitude} : m ≤ .finite 0 ↔ m = .finite 0 := by
  cases m with
  | finite a =>
    rw [Magnitude.finite.injEq]
    show a ≤ 0 ↔ a = 0
    exact nonpos_iff_eq_zero
  | inf => exact ⟨False.elim, fun h => by cases h⟩
  | nan => exact ⟨False.elim, fun h => by cases h⟩

theorem Magnitude.ofRat_mono {q q' : ℚ≥0} (h : q ≤ q') : ofRat q ≤ ofRat q' := by
  unfold ofRat
  split
  case isTrue =>
    split
    · exact h
    · trivial
  case isFalse hge =>
    rw [if_neg fun hlt => hge (h.trans_lt hlt)]
    trivial

/-! ## Rounding -/

theorem roundHalfEven_mono {q q' : ℚ≥0} (h : q ≤ q') : roundHalfEven q ≤ roundHalfEven q' := by
  have hfloor : ⌊q⌋₊ ≤ ⌊q'⌋₊ := Nat.floor_mono h
  unfold roundHalfEven
  dsimp only
  rcases hfloor.lt_or_eq with hlt | heq
  · split_ifs <;> omega
  · rw [← heq]
    by_cases hdown : q' < ⌊q⌋₊ + 1 / 2 ∨ q' = ⌊q⌋₊ + 1 / 2 ∧ ⌊q⌋₊ % 2 = 0
    · have hdown' : q < ⌊q⌋₊ + 1 / 2 ∨ q = ⌊q⌋₊ + 1 / 2 ∧ ⌊q⌋₊ % 2 = 0 := by
        rcases hdown with hlt | ⟨heq', heven⟩
        · exact .inl (h.trans_lt hlt)
        · exact (h.trans_eq heq').lt_or_eq.imp_right (⟨·, heven⟩)
      rw [if_pos hdown, if_pos hdown']
    · rw [if_neg hdown]
      split_ifs <;> omega

theorem roundHalfEven_eq_zero_iff {q : ℚ≥0} : roundHalfEven q = 0 ↔ q ≤ 1 / 2 := by
  unfold roundHalfEven
  dsimp only
  constructor
  · intro h
    split at h
    case isTrue hdown =>
      rw [h, Nat.cast_zero, zero_add] at hdown
      exact hdown.elim le_of_lt fun heq => heq.1.le
    case isFalse => cases h
  · intro h
    have hone : q < 1 := h.trans_lt (by norm_num)
    rw [Nat.floor_eq_zero.mpr hone, Nat.cast_zero, zero_add,
      if_pos (h.lt_or_eq.imp_right (⟨·, rfl⟩))]

/-- The nearest number to so many tenths, the even one where there are two. -/
def tenths (m : ℕ) : ℕ := if m % 10 < 5 ∨ m % 10 = 5 ∧ m / 10 % 2 = 0 then m / 10 else m / 10 + 1

theorem tenths_mono {m m' : ℕ} (h : m ≤ m') : tenths m ≤ tenths m' := by
  unfold tenths
  split <;> split <;> omega

theorem tenths_bounds (m : ℕ) : m ≤ 10 * tenths m + 5 ∧ 10 * tenths m ≤ m + 5 := by
  unfold tenths
  split <;> omega

theorem tenths_add (m n : ℕ) : tenths (m + 20 * n) = tenths m + 2 * n := by
  unfold tenths
  split <;> split <;> omega

theorem lt_tenths_iff {k m : ℕ} :
    k < tenths m ↔ 10 * k + 5 < m ∨ 10 * k + 5 = m ∧ k % 2 = 1 := by
  unfold tenths
  split <;> omega

theorem roundHalfEven_tenths (m : ℕ) : roundHalfEven ((m : ℚ≥0) / 10) = tenths m := by
  have hfloor : ⌊(m : ℚ≥0) / 10⌋₊ = m / 10 := by
    rw [show (10 : ℚ≥0) = (10 : ℕ) by norm_num]
    exact Nat.floor_div_eq_div m 10
  have hsplit : (m : ℚ≥0) / 10 = (m / 10 : ℕ) + (m % 10 : ℕ) / 10 := by
    have h := Nat.div_add_mod m 10
    rw [div_eq_iff (by norm_num), add_mul, div_mul_cancel₀ _ (by norm_num), mul_comm]
    exact_mod_cast h.symm
  have hlt : ((m % 10 : ℕ) : ℚ≥0) / 10 < 1 / 2 ↔ m % 10 < 5 := by
    rw [div_lt_div_iff₀ (by norm_num) (by norm_num)]
    norm_cast
    omega
  have heq : ((m % 10 : ℕ) : ℚ≥0) / 10 = 1 / 2 ↔ m % 10 = 5 := by
    rw [div_eq_div_iff (by norm_num) (by norm_num)]
    norm_cast
    omega
  unfold roundHalfEven tenths
  dsimp only
  rw [hfloor, hsplit]
  simp only [add_lt_add_iff_left, add_right_inj, hlt, heq]

theorem Magnitude.round_mono (d : ℕ) {m m' : Magnitude} (h : m ≤ m') :
    m.round d ≤ m'.round d := by
  cases m with
  | finite a =>
    cases m' with
    | finite b =>
      have hle : a ≤ b := h
      have hscaled : a * 10 ^ d ≤ b * 10 ^ d := by gcongr
      show (roundHalfEven (a * 10 ^ d) / 10 ^ d : ℚ≥0) ≤ roundHalfEven (b * 10 ^ d) / 10 ^ d
      gcongr
      exact roundHalfEven_mono hscaled
    | inf => trivial
    | nan => exact h.elim
  | inf =>
    cases m' with
    | finite b => exact h.elim
    | inf => trivial
    | nan => exact h.elim
  | nan => exact h.elim

theorem Magnitude.round_finite_le_zero_iff {d : ℕ} {q : ℚ≥0} :
    (Magnitude.finite q).round d ≤ .finite 0 ↔ q * 10 ^ d ≤ 1 / 2 := by
  show (roundHalfEven (q * 10 ^ d) / 10 ^ d : ℚ≥0) ≤ 0 ↔ _
  rw [nonpos_iff_eq_zero, div_eq_zero_iff, or_iff_left (by positivity), Nat.cast_eq_zero,
    roundHalfEven_eq_zero_iff]

/-- No number that is too large is printed as zero. -/
theorem Magnitude.round_ofRat_le_zero_iff {d : ℕ} {q : ℚ≥0} :
    (ofRat q).round d ≤ .finite 0 ↔ q * 10 ^ d ≤ 1 / 2 := by
  unfold ofRat
  split
  case isTrue => exact round_finite_le_zero_iff
  case isFalse hge =>
    have hone : (1 : ℚ≥0) ≤ q := (one_le_pow₀ one_le_two).trans (not_lt.mp hge)
    have hpow : (1 : ℚ≥0) ≤ 10 ^ d := one_le_pow₀ (by norm_num)
    have hlarge : (1 : ℚ≥0) ≤ q * 10 ^ d := one_le_mul hone hpow
    constructor
    · exact False.elim
    · intro h
      exact absurd (hlarge.trans h) (by norm_num)

/-! ## `atof` -/

theorem leadingNat_append {ds t : Text} (hds : ∀ c ∈ ds, c.isDigit = true)
    (ht : t.takeWhile Char.isDigit = []) : leadingNat (ds ++ t) = leadingNat ds := by
  unfold leadingNat
  rw [List.takeWhile_append_of_pos hds, ht, List.append_nil, List.takeWhile_eq_self_iff.mpr hds]

theorem leadingNat_replicate_append (n : ℕ) (t : Text) :
    leadingNat (List.replicate n '0' ++ t) = leadingNat t := by
  have hzeros : ∀ c ∈ List.replicate n '0', c.isDigit = true := by
    intro c hc
    rw [List.eq_of_mem_replicate hc]
    rfl
  unfold leadingNat
  rw [List.takeWhile_append_of_pos hzeros, Nat.ofDigitChars_append,
    Nat.ofDigitChars_replicate_zero, Nat.mul_zero]

theorem leadingNat_of_isDigit {t : Text} (h : ∀ c ∈ t, c.isDigit = true) :
    leadingNat t = Nat.ofDigitChars 10 t 0 := by
  rw [leadingNat, List.takeWhile_eq_self_iff.mpr h]

/-- Digits of which only the first are left. -/
theorem leadingNat_take {t : Text} (h : ∀ c ∈ t, c.isDigit = true) (k : ℕ) :
    leadingNat (t.take k) = leadingNat t / 10 ^ (t.length - k) := by
  have htake : ∀ c ∈ t.take k, c.isDigit = true := fun c hc => h c (List.mem_of_mem_take hc)
  have hdrop : ∀ c ∈ t.drop k, c.isDigit = true := fun c hc => h c (List.mem_of_mem_drop hc)
  have hlt : Nat.ofDigitChars 10 (t.drop k) 0 < 10 ^ (t.length - k) := by
    rw [← List.length_drop]
    exact ofDigitChars_lt hdrop
  have hsplit : Nat.ofDigitChars 10 t 0 = 10 ^ (t.length - k) * Nat.ofDigitChars 10 (t.take k) 0
      + Nat.ofDigitChars 10 (t.drop k) 0 := by
    rw [← List.length_drop, ← Nat.ofDigitChars_eq_ofDigitChars_zero, ← Nat.ofDigitChars_append,
      List.take_append_drop]
  rw [leadingNat_of_isDigit h, leadingNat_of_isDigit htake, hsplit,
    Nat.mul_add_div (by positivity), Nat.div_eq_of_lt hlt, Nat.add_zero]

theorem isDigit_of_mem_padded {k m : ℕ} {c : Char}
    (h : c ∈ List.replicate k '0' ++ Nat.toDigits 10 m) : c.isDigit = true := by
  rcases List.mem_append.mp h with hzero | hdigit
  · rw [List.eq_of_mem_replicate hzero]
    rfl
  · exact isDigit_of_mem_toDigits hdigit

/-- The digits behind the point, with their number. -/
theorem fraction_formatFixed {d m : ℕ} (hd : 0 < d) (hm : m < 10 ^ d) :
    leadingNat (List.replicate (d - (Nat.toDigits 10 m).length) '0' ++ Nat.toDigits 10 m) = m ∧
      (List.replicate (d - (Nat.toDigits 10 m).length) '0' ++ Nat.toDigits 10 m).length = d := by
  have hlength := (Nat.length_toDigits_le_iff (b := 10) (by decide) hd).mpr hm
  constructor
  · rw [leadingNat_replicate_append, leadingNat_toDigits]
  · rw [List.length_append, List.length_replicate]
    omega

/-- What a text that begins with a digit is read as. -/
theorem readMagnitude_of_isDigit {c : Char} {t : Text} (h : c.isDigit = true) :
    readMagnitude (c :: t) = .finite (leadingNat (c :: t)
      + match (c :: t).dropWhile Char.isDigit with
        | '.' :: fraction => leadingNat fraction / 10 ^ (fraction.takeWhile Char.isDigit).length
        | _ => 0) := by
  have hne (c' : Char) (t' : Text) (h' : c'.isDigit = false) :
      (c' :: t').isPrefixOf (c :: t) = false := by
    rw [List.isPrefixOf_cons_cons]
    have hc : (c' == c) = false := by
      rw [beq_eq_false_iff_ne]
      intro heq
      rw [heq, h] at h'
      cases h'
    rw [hc, Bool.false_and]
  unfold readMagnitude
  rw [hne _ _ rfl, hne _ _ rfl]
  rfl

/-- Digits, and what stands behind them. -/
theorem readMagnitude_toDigits_append (m : ℕ) {rest : Text}
    (hrest : rest.takeWhile Char.isDigit = []) :
    readMagnitude (Nat.toDigits 10 m ++ rest) = .finite (m + match rest.dropWhile Char.isDigit with
      | '.' :: fraction => leadingNat fraction / 10 ^ (fraction.takeWhile Char.isDigit).length
      | _ => 0) := by
  have hdigits : ∀ c ∈ Nat.toDigits 10 m, c.isDigit = true := fun _ => isDigit_of_mem_toDigits
  obtain ⟨c, t, ht⟩ := List.exists_cons_of_ne_nil (Nat.toDigits_ne_nil : Nat.toDigits 10 m ≠ [])
  have hnat := leadingNat_append hdigits hrest
  have hdrop : (Nat.toDigits 10 m ++ rest).dropWhile Char.isDigit = rest.dropWhile Char.isDigit :=
    List.dropWhile_append_of_pos hdigits
  rw [leadingNat_toDigits] at hnat
  rw [ht, List.cons_append] at hnat hdrop ⊢
  rw [readMagnitude_of_isDigit (hdigits c (ht ▸ List.mem_cons_self)), hnat, hdrop]

theorem readMagnitude_toDigits (m : ℕ) : readMagnitude (Nat.toDigits 10 m) = .finite m := by
  have h := readMagnitude_toDigits_append m (List.takeWhile_nil : [].takeWhile Char.isDigit = [])
  rw [List.append_nil] at h
  exact h.trans (congrArg Magnitude.finite (add_zero _))

/-- Digits behind a point. -/
theorem readMagnitude_point (m : ℕ) {fraction : Text} (h : ∀ c ∈ fraction, c.isDigit = true) :
    readMagnitude (Nat.toDigits 10 m ++ '.' :: fraction)
      = .finite (m + leadingNat fraction / 10 ^ fraction.length) := by
  rw [readMagnitude_toDigits_append m rfl]
  show Magnitude.finite
    (m + leadingNat fraction / 10 ^ (fraction.takeWhile Char.isDigit).length) = _
  rw [List.takeWhile_eq_self_iff.mpr h]

/-- The digits of a number are read as the number they stand for. -/
theorem readMagnitude_formatFixed (d : ℕ) (q : ℚ≥0) :
    readMagnitude (formatFixed d q) = (Magnitude.finite q).round d := by
  unfold formatFixed Magnitude.round
  dsimp only
  generalize roundHalfEven (q * 10 ^ d) = scaled
  by_cases hd : d = 0
  · rw [if_pos hd, List.append_nil, readMagnitude_toDigits, hd]
    simp
  · obtain ⟨hfraction, hlength⟩ := fraction_formatFixed (Nat.pos_of_ne_zero hd)
      (Nat.mod_lt scaled (by positivity : 0 < 10 ^ d))
    have hpow : (10 ^ d : ℚ≥0) ≠ 0 := by positivity
    have hsplit : (scaled : ℚ≥0) = 10 ^ d * (scaled / 10 ^ d : ℕ) + (scaled % 10 ^ d : ℕ) := by
      exact_mod_cast (Nat.div_add_mod scaled (10 ^ d)).symm
    rw [if_neg hd, readMagnitude_point _ fun _ => isDigit_of_mem_padded, hfraction, hlength]
    apply congrArg Magnitude.finite
    rw [eq_div_iff hpow, add_mul, div_mul_cancel₀ _ hpow, mul_comm]
    exact hsplit.symm

/-- The last digits of a number are among those behind the point. -/
theorem div_mul_pow_eq {d lost : ℕ} (h : lost ≤ d) (scaled : ℕ) :
    scaled / 10 ^ lost * 10 ^ lost
      = 10 ^ d * (scaled / 10 ^ d) + scaled % 10 ^ d / 10 ^ lost * 10 ^ lost := by
  have hpow : 10 ^ d = 10 ^ lost * 10 ^ (d - lost) := by rw [← pow_add, Nat.add_sub_cancel' h]
  calc scaled / 10 ^ lost * 10 ^ lost
      = (10 ^ d * (scaled / 10 ^ d) + scaled % 10 ^ d) / 10 ^ lost * 10 ^ lost := by
        rw [Nat.div_add_mod]
    _ = (10 ^ (d - lost) * (scaled / 10 ^ d) + scaled % 10 ^ d / 10 ^ lost) * 10 ^ lost := by
        rw [hpow, mul_assoc, Nat.mul_add_div (by positivity)]
    _ = 10 ^ d * (scaled / 10 ^ d) + scaled % 10 ^ d / 10 ^ lost * 10 ^ lost := by
        rw [hpow]
        ring

/-- Without its last digits, a number is read as if they were zeros. -/
theorem readMagnitude_take_formatFixed {d n : ℕ} (hd : 0 < d) (q : ℚ≥0) {lost : ℕ}
    (hn : (Nat.toDigits 10 (roundHalfEven (q * 10 ^ d) / 10 ^ d)).length ≤ n)
    (hlost : lost = d - (n - 1 - (Nat.toDigits 10 (roundHalfEven (q * 10 ^ d) / 10 ^ d)).length)) :
    readMagnitude ((formatFixed d q).take n)
      = .finite ((roundHalfEven (q * 10 ^ d) / 10 ^ lost * 10 ^ lost : ℕ) / 10 ^ d) := by
  unfold formatFixed
  dsimp only
  generalize roundHalfEven (q * 10 ^ d) = scaled at hn hlost ⊢
  obtain ⟨hfraction, hlength⟩ := fraction_formatFixed hd
    (Nat.mod_lt scaled (by positivity : 0 < 10 ^ d))
  have hdigits : ∀ c ∈ List.replicate (d - (Nat.toDigits 10 (scaled % 10 ^ d)).length) '0'
      ++ Nat.toDigits 10 (scaled % 10 ^ d), c.isDigit = true := fun c => isDigit_of_mem_padded
  revert hfraction hlength hdigits
  generalize List.replicate (d - (Nat.toDigits 10 (scaled % 10 ^ d)).length) '0'
    ++ Nat.toDigits 10 (scaled % 10 ^ d) = fraction
  intro hfraction hlength hdigits
  have hpow : (10 ^ d : ℚ≥0) ≠ 0 := by positivity
  have hle : lost ≤ d := hlost ▸ Nat.sub_le _ _
  rw [if_neg hd.ne', List.take_append, List.take_of_length_le hn, div_mul_pow_eq hle]
  obtain hn | ⟨k, hk⟩ : n - (Nat.toDigits 10 (scaled / 10 ^ d)).length = 0 ∨
      ∃ k, n - (Nat.toDigits 10 (scaled / 10 ^ d)).length = k + 1 :=
    (Nat.eq_zero_or_eq_succ_pred _).imp_right fun h => ⟨_, h⟩
  · -- no point
    have hall : lost = d := by omega
    rw [hn, List.take_zero, List.append_nil, readMagnitude_toDigits, hall,
      Nat.div_eq_of_lt (Nat.mod_lt _ (by positivity)), Nat.zero_mul, Nat.add_zero]
    apply congrArg Magnitude.finite
    rw [eq_div_iff hpow, Nat.cast_mul]
    push_cast
    ring
  · have hlost : lost = d - k := by omega
    have htake : ∀ c ∈ fraction.take k, c.isDigit = true :=
      fun c hc => hdigits c (List.mem_of_mem_take hc)
    have hkept : 10 ^ d = 10 ^ (d - k) * (10 ^ min k d : ℚ≥0) := by
      rw [← pow_add]
      congr 1
      omega
    rw [hk, List.take_succ_cons, readMagnitude_point _ htake, List.length_take,
      leadingNat_take hdigits, hfraction, hlength, hlost]
    apply congrArg Magnitude.finite
    rw [eq_div_iff hpow]
    push_cast
    rw [add_mul, hkept, mul_comm (10 ^ (d - k) : ℚ≥0), ← mul_assoc (_ / _),
      div_mul_cancel₀ _ (by positivity)]
    ring

/-- A text that begins with neither white space nor a sign. -/
theorem atof_cons {c : Char} {t : Text} (hspace : ¬ isspace c = true) (hminus : c ≠ '-')
    (hplus : c ≠ '+') : atof (c :: t) = ⟨false, readMagnitude (c :: t)⟩ := by
  have hdrop : (c :: t).dropWhile isspace = c :: t := List.dropWhile_cons_of_neg hspace
  unfold atof
  rw [hdrop]
  split
  · rename_i heq
    exact absurd (List.cons.inj heq).1 hminus
  · rename_i heq
    exact absurd (List.cons.inj heq).1 hplus
  · rfl

theorem atof_of_isDigit {c : Char} {t : Text} (h : c.isDigit = true) :
    atof (c :: t) = ⟨false, readMagnitude (c :: t)⟩ := by
  have hsign (c' : Char) (h' : c'.isDigit = false) : c ≠ c' := by
    intro heq
    rw [← heq, h] at h'
    cases h'
  exact atof_cons (not_isspace_of_isDigit h) (hsign _ rfl) (hsign _ rfl)

/-- `atof` reads what `%.<d>lf` wrote. -/
theorem atof_format (d : ℕ) (x : Double) :
    atof (x.format d) = ⟨x.negative, x.magnitude.round d⟩ := by
  obtain ⟨negative, magnitude⟩ := x
  cases negative with
  | true =>
    cases magnitude with
    | finite q => exact congrArg (Double.mk true) (readMagnitude_formatFixed d q)
    | inf => rfl
    | nan => rfl
  | false =>
    cases magnitude with
    | finite q =>
      obtain ⟨c, t, ht⟩ := List.exists_cons_of_ne_nil
        (Nat.toDigits_ne_nil : Nat.toDigits 10 (roundHalfEven (q * 10 ^ d) / 10 ^ d) ≠ [])
      have hc : c.isDigit = true := isDigit_of_mem_toDigits (ht ▸ List.mem_cons_self)
      have hread := readMagnitude_formatFixed d q
      unfold formatFixed at hread
      unfold Double.format formatFixed
      dsimp only at hread ⊢
      rw [ht, List.cons_append] at hread
      rw [ht, if_neg Bool.false_ne_true, List.nil_append, List.cons_append, atof_of_isDigit hc,
        hread]
    | inf => rfl
    | nan => rfl

/-- The same of a number without a sign whose last digits are cut off. -/
theorem atof_take_format {d n : ℕ} (hd : 0 < d) (q : ℚ≥0) {lost : ℕ}
    (hn : (Nat.toDigits 10 (roundHalfEven (q * 10 ^ d) / 10 ^ d)).length ≤ n)
    (hlost : lost = d - (n - 1 - (Nat.toDigits 10 (roundHalfEven (q * 10 ^ d) / 10 ^ d)).length)) :
    atof (((⟨false, .finite q⟩ : Double).format d).take n)
      = ⟨false, .finite ((roundHalfEven (q * 10 ^ d) / 10 ^ lost * 10 ^ lost : ℕ) / 10 ^ d)⟩ := by
  have hread := readMagnitude_take_formatFixed hd q hn hlost
  obtain ⟨c, t, ht⟩ := List.exists_cons_of_ne_nil
    (Nat.toDigits_ne_nil : Nat.toDigits 10 (roundHalfEven (q * 10 ^ d) / 10 ^ d) ≠ [])
  have hc : c.isDigit = true := isDigit_of_mem_toDigits (ht ▸ List.mem_cons_self)
  obtain ⟨n, rfl⟩ := Nat.exists_eq_add_one_of_ne_zero
    (Nat.ne_of_gt ((ht ▸ Nat.succ_pos _ : 0 < _).trans_le hn))
  show atof ((formatFixed d q).take (n + 1)) = _
  unfold formatFixed at hread ⊢
  dsimp only at hread ⊢
  rw [ht, List.cons_append, List.take_succ_cons] at hread ⊢
  rw [atof_of_isDigit hc, hread]

end Printf
