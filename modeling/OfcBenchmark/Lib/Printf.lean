import Mathlib.Data.List.TakeWhile
import Mathlib.Data.NNRat.Floor
import Mathlib.Tactic

/-!
# Formatted numbers and bounded buffers

Texts as C programs make them: the conversions of `printf` for numbers, `atoi` and `atof`, and
`snprintf` at a pointer that moves through a buffer.

* `formatInt`, `Double.format`: `%d` and `%.<d>lf`;
* `atoi`, the inverse of the first (`atoi_formatInt`), and its range (`atoi_bounds`);
* `IsNumberChar`: a number is printed without separators;
* `Cursor.snprintf`: what comes out is the pieces one after the other exactly if they fit
  (`Cursor.write_eq_some_iff`).
-/

namespace Printf

/-- A text without its terminating NUL. -/
abbrev Text := List Char

/-! ## Integers -/

/-- `%d`. -/
def formatInt (z : ℤ) : Text :=
  if z < 0 then '-' :: Nat.toDigits 10 z.natAbs else Nat.toDigits 10 z.natAbs

/-- The digits a text begins with, as a number. -/
def leadingNat (t : Text) : ℕ := Nat.ofDigitChars 10 (t.takeWhile Char.isDigit) 0

/-- `isspace`. -/
def isspace (c : Char) : Bool := c = ' ' || (9 ≤ c.toNat && c.toNat ≤ 13)

/-- `atoi`. -/
def atoi (t : Text) : ℤ :=
  match t.dropWhile isspace with
  | '-' :: t => -(leadingNat t : ℤ)
  | '+' :: t => leadingNat t
  | t => leadingNat t

theorem isDigit_of_mem_toDigits {m : ℕ} {c : Char} (h : c ∈ Nat.toDigits 10 m) :
    c.isDigit = true :=
  Nat.isDigit_of_mem_toDigits (by decide) (by decide) h

theorem leadingNat_toDigits (m : ℕ) : leadingNat (Nat.toDigits 10 m) = m := by
  have hall : (Nat.toDigits 10 m).takeWhile Char.isDigit = Nat.toDigits 10 m :=
    List.takeWhile_eq_self_iff.mpr fun _ hc => isDigit_of_mem_toDigits hc
  rw [leadingNat, hall, Nat.ofDigitChars_ten_toDigits]

theorem not_isspace_of_isDigit {c : Char} (h : c.isDigit = true) : ¬ isspace c = true := by
  intro hc
  rcases (Bool.or_eq_true _ _).mp hc with hblank | hcontrol
  · rw [of_decide_eq_true hblank] at h
    cases h
  · have hlow := (Char.isDigit_iff_toNat.mp h).1
    have hhigh := of_decide_eq_true ((Bool.and_eq_true _ _).mp hcontrol).2
    exact absurd (hlow.trans hhigh) (by decide)

/-- A text that begins with a digit has neither white space nor a sign in front. -/
theorem atoi_of_isDigit {c : Char} {t : Text} (h : c.isDigit = true) :
    atoi (c :: t) = leadingNat (c :: t) := by
  have hdrop : (c :: t).dropWhile isspace = c :: t :=
    List.dropWhile_cons_of_neg (not_isspace_of_isDigit h)
  unfold atoi
  rw [hdrop]
  split
  · rename_i heq
    rw [(List.cons.inj heq).1] at h
    cases h
  · rename_i heq
    rw [(List.cons.inj heq).1] at h
    cases h
  · rfl

/-- `atoi` reads back what `%d` wrote. -/
theorem atoi_formatInt (z : ℤ) : atoi (formatInt z) = z := by
  unfold formatInt
  split
  case isTrue hneg =>
    show -(leadingNat (Nat.toDigits 10 z.natAbs) : ℤ) = z
    rw [leadingNat_toDigits]
    omega
  case isFalse hneg =>
    obtain ⟨c, t, ht⟩ := List.exists_cons_of_ne_nil
      (Nat.toDigits_ne_nil : Nat.toDigits 10 z.natAbs ≠ [])
    have hdigit : c.isDigit = true :=
      isDigit_of_mem_toDigits (by rw [ht]; exact List.mem_cons_self)
    rw [ht, atoi_of_isDigit hdigit, ← ht, leadingNat_toDigits]
    omega

/-- How long a number is. -/
theorem length_formatInt_le_iff (z : ℤ) {k : ℕ} (hk : 0 < k) :
    (formatInt z).length ≤ k + 1 ↔ -10 ^ k < z ∧ z < 10 ^ (k + 1) := by
  have hpos : (0 : ℤ) < 10 ^ k := by positivity
  unfold formatInt
  split
  case isTrue hneg =>
    rw [List.length_cons, Nat.succ_le_succ_iff, Nat.length_toDigits_le_iff (by decide) hk]
    have habs : (z.natAbs : ℤ) = -z := by omega
    have hcast : (z.natAbs : ℤ) < ((10 ^ k : ℕ) : ℤ) ↔ z.natAbs < 10 ^ k := Int.ofNat_lt
    rw [← hcast, habs]
    push_cast
    have hlt : (0 : ℤ) < 10 ^ (k + 1) := by positivity
    constructor
    · intro h
      exact ⟨by linarith, by linarith⟩
    · rintro ⟨h, -⟩
      linarith
  case isFalse hneg =>
    rw [Nat.length_toDigits_le_iff (by decide) (Nat.succ_pos k)]
    have habs : (z.natAbs : ℤ) = z := by omega
    have hcast : (z.natAbs : ℤ) < ((10 ^ (k + 1) : ℕ) : ℤ) ↔ z.natAbs < 10 ^ (k + 1) := Int.ofNat_lt
    rw [← hcast, habs]
    push_cast
    constructor
    · intro h
      exact ⟨by linarith, h⟩
    · exact And.right

theorem ofDigitChars_lt {l : List Char} (h : ∀ c ∈ l, c.isDigit = true) :
    Nat.ofDigitChars 10 l 0 < 10 ^ l.length := by
  induction l with
  | nil => exact Nat.one_pos
  | cons c l ih =>
    obtain ⟨hc, hl⟩ := List.forall_mem_cons.mp h
    have hdigit : c.toNat - '0'.toNat ≤ 9 :=
      Nat.sub_le_sub_right (Char.isDigit_iff_toNat.mp hc).2 '0'.toNat
    have hlow := ih hl
    calc Nat.ofDigitChars 10 (c :: l) 0
        = 10 ^ l.length * (c.toNat - '0'.toNat) + Nat.ofDigitChars 10 l 0 := by
          rw [Nat.ofDigitChars_cons, Nat.mul_zero, Nat.zero_add,
            Nat.ofDigitChars_eq_ofDigitChars_zero]
      _ < 10 ^ l.length * 9 + 10 ^ l.length :=
          add_lt_add_of_le_of_lt (Nat.mul_le_mul_left _ hdigit) hlow
      _ = 10 ^ (c :: l).length := by
          rw [List.length_cons, pow_succ]
          ring

theorem leadingNat_lt (t : Text) : leadingNat t < 10 ^ t.length :=
  calc leadingNat t < 10 ^ (t.takeWhile Char.isDigit).length :=
        ofDigitChars_lt fun _ hc => List.mem_takeWhile_imp hc
    _ ≤ 10 ^ t.length := Nat.pow_le_pow_right (by decide) (List.takeWhile_sublist _).length_le

/-- What a text of at most `k + 1` characters can stand for. -/
theorem atoi_bounds {t : Text} {k : ℕ} (h : t.length ≤ k + 1) :
    -10 ^ k < atoi t ∧ atoi t < 10 ^ (k + 1) := by
  have hlen : (t.dropWhile isspace).length ≤ k + 1 := (List.length_dropWhile_le _ _).trans h
  have hlt {t' : Text} {j : ℕ} (ht' : t'.length ≤ j) : (leadingNat t' : ℤ) < 10 ^ j := by
    have hpow : leadingNat t' < 10 ^ j :=
      (leadingNat_lt t').trans_le (Nat.pow_le_pow_right (by decide) ht')
    exact_mod_cast hpow
  have hpos (j : ℕ) : (0 : ℤ) < 10 ^ j := by positivity
  have hmono : (10 : ℤ) ^ k ≤ 10 ^ (k + 1) := pow_le_pow_right₀ (by decide) (Nat.le_succ k)
  unfold atoi
  split
  case h_1 t' heq =>
    rw [heq] at hlen
    have hk := hlt (Nat.le_of_succ_le_succ hlen)
    have hsucc := hpos (k + 1)
    omega
  case h_2 t' heq =>
    rw [heq] at hlen
    have hk := hlt (Nat.le_of_succ_le_succ hlen)
    have hpos' := hpos k
    omega
  case h_3 =>
    have hk := hlt hlen
    have hpos' := hpos k
    omega

/-! ## Floating-point numbers -/

/-- The absolute value of a floating-point number. -/
inductive Magnitude
  | finite (q : ℚ≥0)
  | inf
  | nan
deriving DecidableEq

/-- A number that may be too large for a `double`. -/
def Magnitude.ofRat (q : ℚ≥0) : Magnitude := if q < 2 ^ 1024 then .finite q else .inf

/-- A floating-point number, with the sign it is printed with. -/
structure Double where
  negative : Bool
  magnitude : Magnitude
deriving DecidableEq

namespace Double

/-- A rational number. -/
def ofRat (q : ℚ) : Double := ⟨decide (q < 0), .finite q.nnabs⟩

/-- Division; `fl` rounds the quotient. `0.0 / 0.0` is negative, as on most machines. -/
def divide (fl : ℚ → ℚ) (x y : ℚ) : Double :=
  if y = 0 then
    if x = 0 then ⟨true, .nan⟩ else ⟨decide (x < 0), .inf⟩
  else ⟨decide (x < 0) != decide (y < 0), .ofRat (fl (x / y)).nnabs⟩

end Double

/-- The nearest integer, the even one where there are two. -/
def roundHalfEven (q : ℚ≥0) : ℕ :=
  let below := ⌊q⌋₊
  if q < below + 1 / 2 ∨ (q = below + 1 / 2 ∧ below % 2 = 0) then below else below + 1

/-- A number with `d` digits behind the point. -/
def formatFixed (d : ℕ) (q : ℚ≥0) : Text :=
  let scaled := roundHalfEven (q * 10 ^ d)
  let fraction := Nat.toDigits 10 (scaled % 10 ^ d)
  Nat.toDigits 10 (scaled / 10 ^ d) ++
    (if d = 0 then [] else '.' :: (List.replicate (d - fraction.length) '0' ++ fraction))

/-- `%.<d>lf`. -/
def Double.format (d : ℕ) (x : Double) : Text :=
  (if x.negative then ['-'] else []) ++
    match x.magnitude with
    | .finite q => formatFixed d q
    | .inf => ['i', 'n', 'f']
    | .nan => ['n', 'a', 'n']

example : (Double.ofRat (-5 / 4)).format 2 = ['-', '1', '.', '2', '5'] := by decide +kernel

/-- The number that is printed with `d` digits behind the point. -/
def Magnitude.round (d : ℕ) : Magnitude → Magnitude
  | .finite q => .finite (roundHalfEven (q * 10 ^ d) / 10 ^ d)
  | .inf => .inf
  | .nan => .nan

/-- A number without a sign. There is no exponent in it, infinity and not-a-number are in lower
case, and the value is not rounded. -/
def readMagnitude (t : Text) : Magnitude :=
  if ['i', 'n', 'f'].isPrefixOf t then .inf
  else if ['n', 'a', 'n'].isPrefixOf t then .nan
  else .finite (leadingNat t + match t.dropWhile Char.isDigit with
    | '.' :: fraction => leadingNat fraction / 10 ^ (fraction.takeWhile Char.isDigit).length
    | _ => 0)

/-- `atof`. -/
def atof (t : Text) : Double :=
  match t.dropWhile isspace with
  | '-' :: t => ⟨true, readMagnitude t⟩
  | '+' :: t => ⟨false, readMagnitude t⟩
  | t => ⟨false, readMagnitude t⟩

/-! ## No separators in numbers -/

/-- A character that numbers are printed with. -/
def IsNumberChar (c : Char) : Bool :=
  c.isDigit || c == '-' || c == '.' || c == 'i' || c == 'n' || c == 'f' || c == 'a'

theorem isNumberChar_of_isDigit {c : Char} (h : c.isDigit = true) : IsNumberChar c = true := by
  unfold IsNumberChar
  rw [h]
  rfl

theorem isNumberChar_of_mem_toDigits {m : ℕ} {c : Char} (h : c ∈ Nat.toDigits 10 m) :
    IsNumberChar c = true :=
  isNumberChar_of_isDigit (isDigit_of_mem_toDigits h)

theorem isNumberChar_of_mem_formatInt {z : ℤ} {c : Char} (h : c ∈ formatInt z) :
    IsNumberChar c = true := by
  unfold formatInt at h
  split at h
  · rcases List.mem_cons.mp h with rfl | h
    · rfl
    · exact isNumberChar_of_mem_toDigits h
  · exact isNumberChar_of_mem_toDigits h

theorem isNumberChar_of_mem_formatFixed {d : ℕ} {q : ℚ≥0} {c : Char} (h : c ∈ formatFixed d q) :
    IsNumberChar c = true := by
  unfold formatFixed at h
  rcases List.mem_append.mp h with h | h
  · exact isNumberChar_of_mem_toDigits h
  · split at h
    · cases h
    · rcases List.mem_cons.mp h with rfl | h
      · rfl
      · rcases List.mem_append.mp h with h | h
        · rw [List.eq_of_mem_replicate h]
          rfl
        · exact isNumberChar_of_mem_toDigits h

theorem isNumberChar_of_mem_format {d : ℕ} {x : Double} {c : Char} (h : c ∈ x.format d) :
    IsNumberChar c = true := by
  unfold Double.format at h
  rcases List.mem_append.mp h with h | h
  · split at h
    · rw [List.mem_singleton.mp h]
      rfl
    · cases h
  · split at h
    · exact isNumberChar_of_mem_formatFixed h
    · fin_cases h <;> rfl
    · fin_cases h <;> rfl

/-! ## Writing into a buffer -/

/-- A buffer that is written from its start on: the text that stands in it, and where the next
piece goes. -/
structure Cursor where
  text : Text
  pos : ℕ
deriving DecidableEq

namespace Cursor

/-- An empty buffer. -/
def empty : Cursor := ⟨[], 0⟩

/-- `pos += snprintf(buffer + pos, size, ..)` where the buffer has `capacity` bytes. It returns
the length of the whole piece, of which it writes `size - 1` characters and a NUL at most; what
is written behind the end of the text cannot be seen. Writing outside the buffer has no
result. -/
def snprintf (capacity size : ℕ) (piece : Text) (b : Cursor) : Option Cursor :=
  let put := piece.take (size - 1)
  if b.pos + put.length < capacity then
    some { text := if b.pos = b.text.length then b.text ++ put else b.text
           pos := b.pos + piece.length }
  else none

/-- Pieces one after the other, each with its `size`. -/
def write (capacity : ℕ) (pieces : List (ℕ × Text)) (b : Cursor) : Option Cursor :=
  pieces.foldlM (fun b piece => b.snprintf capacity piece.1 piece.2) b

variable {capacity : ℕ} {b b' : Cursor}

theorem write_cons (piece : ℕ × Text) (pieces : List (ℕ × Text)) :
    b.write capacity (piece :: pieces)
      = (b.snprintf capacity piece.1 piece.2).bind (write capacity pieces) := rfl

/-- What is in a buffer fits into it. -/
theorem length_lt_of_snprintf {size : ℕ} {piece : Text}
    (h : b.snprintf capacity size piece = some b') (hb : b.text.length < capacity) :
    b'.text.length < capacity := by
  unfold snprintf at h
  dsimp only at h
  split at h
  case isTrue hlt =>
    cases h
    dsimp only
    split
    case isTrue hpos =>
      rw [List.length_append, ← hpos]
      exact hlt
    case isFalse => exact hb
  case isFalse => cases h

theorem length_lt_of_write {pieces : List (ℕ × Text)} (h : b.write capacity pieces = some b')
    (hb : b.text.length < capacity) : b'.text.length < capacity := by
  induction pieces generalizing b with
  | nil =>
    cases h
    exact hb
  | cons piece pieces ih =>
    obtain ⟨b₁, hfirst, hrest⟩ := Option.bind_eq_some_iff.mp h
    exact ih hrest (length_lt_of_snprintf hfirst hb)

/-- A piece that is not cut and fits is appended. -/
theorem snprintf_of_lt {size : ℕ} {piece : Text} {t : Text} (hsize : piece.length < size)
    (hlt : (t ++ piece).length < capacity) :
    snprintf capacity size piece ⟨t, t.length⟩ = some ⟨t ++ piece, (t ++ piece).length⟩ := by
  have htake : piece.take (size - 1) = piece := List.take_of_length_le (Nat.le_pred_of_lt hsize)
  unfold snprintf
  dsimp only
  rw [htake, ← List.length_append, if_pos hlt, if_pos rfl]

theorem write_of_lt {pieces : List (ℕ × Text)} {t : Text}
    (hsize : ∀ piece ∈ pieces, piece.2.length < piece.1)
    (hlt : (t ++ pieces.flatMap Prod.snd).length < capacity) :
    write capacity pieces ⟨t, t.length⟩
      = some ⟨t ++ pieces.flatMap Prod.snd, (t ++ pieces.flatMap Prod.snd).length⟩ := by
  induction pieces generalizing t with
  | nil =>
    rw [List.flatMap_nil, List.append_nil]
    rfl
  | cons piece pieces ih =>
    obtain ⟨hfirst, hrest⟩ := List.forall_mem_cons.mp hsize
    rw [List.flatMap_cons, ← List.append_assoc] at hlt ⊢
    have hlt₁ : (t ++ piece.2).length < capacity := by
      have happend : (t ++ piece.2 ++ pieces.flatMap Prod.snd).length
          = (t ++ piece.2).length + (pieces.flatMap Prod.snd).length := List.length_append
      omega
    rw [write, List.foldlM_cons, snprintf_of_lt hfirst hlt₁]
    exact ih hrest hlt

/-- A piece begins inside the buffer. -/
theorem lt_of_write {pre post : List (ℕ × Text)} {piece : ℕ × Text}
    (h : b.write capacity (pre ++ piece :: post) = some b') :
    b.pos + (pre.flatMap Prod.snd).length < capacity := by
  induction pre generalizing b with
  | nil =>
    obtain ⟨b₁, hfirst, -⟩ := Option.bind_eq_some_iff.mp h
    unfold snprintf at hfirst
    dsimp only at hfirst
    split at hfirst
    case isTrue hlt => exact (Nat.le_add_right _ _).trans_lt hlt
    case isFalse => cases hfirst
  | cons first pre ih =>
    obtain ⟨b₁, hfirst, hrest⟩ := Option.bind_eq_some_iff.mp h
    have hpos : b₁.pos = b.pos + first.2.length := by
      unfold snprintf at hfirst
      dsimp only at hfirst
      split at hfirst
      case isTrue => exact (Option.some.inj hfirst) ▸ rfl
      case isFalse => cases hfirst
    have hlt := ih hrest
    rw [hpos] at hlt
    rw [List.flatMap_cons, List.length_append]
    omega

/-- Pieces that would fit uncut stay inside the buffer. -/
theorem exists_write {pieces : List (ℕ × Text)} {b : Cursor}
    (h : b.pos + (pieces.flatMap Prod.snd).length < capacity) :
    ∃ b', b.write capacity pieces = some b' := by
  induction pieces generalizing b with
  | nil => exact ⟨b, rfl⟩
  | cons piece pieces ih =>
    rw [List.flatMap_cons, List.length_append] at h
    have hput : (piece.2.take (piece.1 - 1)).length ≤ piece.2.length :=
      (List.take_sublist _ _).length_le
    rw [write_cons, snprintf, if_pos (by omega), Option.bind_some]
    exact ih (by dsimp only; omega)

/-- Pieces come out one after the other if they stay inside the buffer: none of them is cut, since
one that was would have filled the buffer up. -/
theorem text_of_write {pieces : List (ℕ × Text)} {t : Text}
    (hsize : ∀ piece ∈ pieces, piece.2.length < piece.1 ∨ t ≠ [] ∧ capacity ≤ piece.1)
    (h : write capacity pieces ⟨t, t.length⟩ = some b') :
    b'.text = t ++ pieces.flatMap Prod.snd := by
  induction pieces generalizing t with
  | nil =>
    cases h
    exact (List.append_nil t).symm
  | cons piece pieces ih =>
    obtain ⟨hfirst, hrest⟩ := List.forall_mem_cons.mp hsize
    obtain ⟨b₁, hput, hwrite⟩ := Option.bind_eq_some_iff.mp h
    unfold snprintf at hput
    dsimp only at hput
    rw [if_pos rfl] at hput
    split at hput
    case isTrue hlt =>
      have htake : piece.2.take (piece.1 - 1) = piece.2 := by
        apply List.take_of_length_le
        rcases hfirst with hfirst | ⟨ht, hcapacity⟩
        · exact Nat.le_pred_of_lt hfirst
        · rw [List.length_take] at hlt
          have hpos : 0 < t.length := List.length_pos_iff.mpr ht
          omega
      have hb₁ : b₁ = ⟨t ++ piece.2, (t ++ piece.2).length⟩ := by
        cases hput
        rw [htake, List.length_append]
      have hsize' : ∀ piece' ∈ pieces,
          piece'.2.length < piece'.1 ∨ t ++ piece.2 ≠ [] ∧ capacity ≤ piece'.1 := fun piece' hmem =>
        (hrest piece' hmem).imp_right (And.imp_left (List.append_ne_nil_of_left_ne_nil · _))
      rw [List.flatMap_cons, ← List.append_assoc]
      exact ih hsize' (hb₁ ▸ hwrite)
    case isFalse => cases hput

/-- The pieces come out one after the other exactly if they fit, where none is cut. -/
theorem write_eq_some_iff {pieces : List (ℕ × Text)} (hcapacity : 0 < capacity)
    (hsize : ∀ piece ∈ pieces, piece.2.length < capacity → piece.2.length < piece.1) :
    (empty.write capacity pieces).map Cursor.text = some (pieces.flatMap Prod.snd) ↔
      (pieces.flatMap Prod.snd).length < capacity := by
  constructor
  · intro h
    obtain ⟨b, hwrite, hb⟩ := Option.map_eq_some_iff.mp h
    rw [← hb]
    exact length_lt_of_write hwrite hcapacity
  · intro h
    have hle {piece : ℕ × Text} (hmem : piece ∈ pieces) :
        piece.2.length ≤ (pieces.flatMap Prod.snd).length := by
      rw [List.length_flatMap]
      exact List.le_sum_of_mem (List.mem_map_of_mem hmem)
    have hwrite := write_of_lt (t := []) (fun piece hmem =>
      hsize piece hmem ((hle hmem).trans_lt h)) h
    exact Option.map_eq_some_iff.mpr ⟨_, hwrite, rfl⟩

end Cursor

end Printf
