import Mathlib.Tactic

/-!
# Byte memory of a little-endian machine

Memory is seen from a pointer: `m i` is the byte `i` places after it. Every address has
a byte, so a load outside an object returns whatever happens to be stored there; nothing
is assumed about it.

* `read` / `write`: blocks of bytes, with their same-place and frame lemmas;
* `load16`, `load32`: integers as a little-endian host loads them, `le16`, `le32`, `le64`
  the bytes it stores;
* `bswap16`, `bswap32`, `bswap64`: the byte swaps between host and network order, with
  `be16`, the big-endian reading they amount to.
-/

namespace ByteMemory

/-- Memory seen from a pointer. -/
abbrev Mem := ℕ → UInt8

namespace Mem

/-- Pointer arithmetic: the memory seen `p` bytes further on. -/
def shift (m : Mem) (p : ℕ) : Mem := fun i => m (p + i)

/-- Copy the bytes `bs` to address `p`. -/
def write (m : Mem) (p : ℕ) (bs : List UInt8) : Mem := fun i =>
  if i < p then m i else (bs[i - p]?).getD (m i)

/-- The `n` bytes from address `p` on. -/
def read (m : Mem) (p : ℕ) : ℕ → List UInt8
  | 0 => []
  | n + 1 => m p :: read m (p + 1) n

/-- The memory that holds `bs`, and zeros after it. -/
def ofList (bs : List UInt8) : Mem := fun i => bs.getD i 0

/-! ## Blocks -/

@[simp] theorem shift_apply (m : Mem) (p i : ℕ) : m.shift p i = m (p + i) := rfl

@[simp] theorem shift_zero (m : Mem) : m.shift 0 = m := by
  funext i
  rw [shift_apply, Nat.zero_add]

@[simp] theorem length_read (m : Mem) (p n : ℕ) : (m.read p n).length = n := by
  induction n generalizing p with
  | zero => rfl
  | succ n ih => rw [read, List.length_cons, ih]

theorem getElem?_read (m : Mem) (p n i : ℕ) :
    (m.read p n)[i]? = if i < n then some (m (p + i)) else none := by
  induction n generalizing p i with
  | zero => simp [read]
  | succ n ih =>
    cases i with
    | zero => simp [read]
    | succ i =>
      rw [read, List.getElem?_cons_succ, ih]
      simp only [Nat.succ_lt_succ_iff, show p + 1 + i = p + (i + 1) by omega]

/-- Two blocks with the same bytes are equal. -/
theorem read_congr {m m' : Mem} {p q n : ℕ} (h : ∀ i < n, m (p + i) = m' (q + i)) :
    m.read p n = m'.read q n := by
  apply List.ext_getElem?
  intro i
  rw [getElem?_read, getElem?_read]
  by_cases hi : i < n
  · rw [if_pos hi, if_pos hi, h i hi]
  · rw [if_neg hi, if_neg hi]

@[simp] theorem read_shift (m : Mem) (p q n : ℕ) : (m.shift p).read q n = m.read (p + q) n :=
  read_congr fun i _ => by rw [shift_apply, Nat.add_assoc]

/-- A block is the block of its first part followed by the rest. -/
theorem read_add (m : Mem) (p a b : ℕ) :
    m.read p (a + b) = m.read p a ++ m.read (p + a) b := by
  induction a generalizing p with
  | zero => simp [read]
  | succ a ih =>
    rw [show a + 1 + b = (a + b) + 1 by omega, read, ih, read, List.cons_append,
      show p + 1 + a = p + (a + 1) by omega]

theorem take_read (m : Mem) (p : ℕ) {k n : ℕ} (h : k ≤ n) :
    (m.read p n).take k = m.read p k := by
  obtain ⟨d, rfl⟩ := Nat.exists_eq_add_of_le h
  rw [read_add, List.take_left' (length_read m p k)]

theorem drop_read (m : Mem) (p : ℕ) {k n : ℕ} (h : k ≤ n) :
    (m.read p n).drop k = m.read (p + k) (n - k) := by
  obtain ⟨d, rfl⟩ := Nat.exists_eq_add_of_le h
  rw [read_add, List.drop_left' (length_read m p k), Nat.add_sub_cancel_left]

/-- What was there before stays below the address written to. -/
theorem write_apply_of_lt (m : Mem) (bs : List UInt8) {p i : ℕ} (h : i < p) :
    m.write p bs i = m i := if_pos h

/-- What was there before stays past the bytes written. -/
theorem write_apply_of_ge (m : Mem) {bs : List UInt8} {p i : ℕ} (h : p + bs.length ≤ i) :
    m.write p bs i = m i := by
  rw [write, if_neg (by omega), List.getElem?_eq_none (by omega), Option.getD_none]

/-- The bytes written are the ones found there. -/
theorem write_apply (m : Mem) (bs : List UInt8) (p : ℕ) {i : ℕ} (h : i < bs.length) :
    m.write p bs (p + i) = bs[i] := by
  rw [write, if_neg (by omega), Nat.add_sub_cancel_left, List.getElem?_eq_getElem h,
    Option.getD_some]

/-- Reading back a block just written. -/
theorem read_write_self (m : Mem) (p : ℕ) (bs : List UInt8) :
    (m.write p bs).read p bs.length = bs := by
  apply List.ext_getElem?
  intro i
  rw [getElem?_read]
  by_cases hi : i < bs.length
  · rw [if_pos hi, write_apply m bs p hi, List.getElem?_eq_getElem hi]
  · rw [if_neg hi, List.getElem?_eq_none (by omega)]

/-- A write above a block leaves it unchanged. -/
theorem read_write_of_le (m : Mem) (bs : List UInt8) {p q n : ℕ} (h : q + n ≤ p) :
    (m.write p bs).read q n = m.read q n :=
  read_congr fun i hi => write_apply_of_lt m bs (by omega)

/-- A write below a block leaves it unchanged. -/
theorem read_write_of_ge (m : Mem) {bs : List UInt8} {p q n : ℕ} (h : p + bs.length ≤ q) :
    (m.write p bs).read q n = m.read q n :=
  read_congr fun i _ => write_apply_of_ge m (by omega)

theorem ofList_apply {bs : List UInt8} {i : ℕ} (h : i < bs.length) : ofList bs i = bs[i] := by
  rw [ofList, List.getD_eq_getElem?_getD, List.getElem?_eq_getElem h, Option.getD_some]

theorem ofList_append_left {xs : List UInt8} (ys : List UInt8) {i : ℕ} (h : i < xs.length) :
    ofList (xs ++ ys) i = ofList xs i := by
  simp only [ofList, List.getD_eq_getElem?_getD, List.getElem?_append_left h]

theorem ofList_append_right (xs ys : List UInt8) (i : ℕ) :
    ofList (xs ++ ys) (xs.length + i) = ofList ys i := by
  simp only [ofList, List.getD_eq_getElem?_getD, List.getElem?_append_right (Nat.le_add_right _ _),
    Nat.add_sub_cancel_left]

theorem ofList_read (m : Mem) (p : ℕ) {n i : ℕ} (h : i < n) :
    ofList (m.read p n) i = m (p + i) := by
  rw [ofList, List.getD_eq_getElem?_getD, getElem?_read, if_pos h, Option.getD_some]

/-! ## Memories that start with a block -/

/-- A memory that starts with `bs` holds these bytes. -/
theorem apply_of_read_eq {m : Mem} {bs : List UInt8} (h : m.read 0 bs.length = bs) {i : ℕ}
    (hi : i < bs.length) : m i = ofList bs i := by
  conv_rhs => rw [← h, ofList_read m 0 hi, Nat.zero_add]

/-- The memory that holds `bs` and zeros starts with `bs`. -/
theorem read_ofList (bs : List UInt8) : (ofList bs).read 0 bs.length = bs := by
  apply List.ext_getElem?
  intro i
  rw [getElem?_read, Nat.zero_add]
  by_cases hi : i < bs.length
  · rw [if_pos hi, ofList_apply hi, List.getElem?_eq_getElem hi]
  · rw [if_neg hi, List.getElem?_eq_none (by omega)]

theorem ofList_apply_of_ge {bs : List UInt8} {i : ℕ} (h : bs.length ≤ i) : ofList bs i = 0 := by
  rw [ofList, List.getD_eq_getElem?_getD, List.getElem?_eq_none h, Option.getD_none]

/-- The bytes `bs`, zeros after them, and the bytes `later` at address `p` as far as that is
behind `bs`. -/
def ofListWith (bs : List UInt8) (p : ℕ) (later : List UInt8) : Mem :=
  (write (fun _ => 0) p later).write 0 bs

theorem read_ofListWith (bs : List UInt8) (p : ℕ) (later : List UInt8) :
    (ofListWith bs p later).read 0 bs.length = bs := read_write_self _ 0 bs

/-- Behind `bs` the bytes are those of `later`. -/
theorem ofListWith_apply (bs : List UInt8) {p : ℕ} {later : List UInt8} {i : ℕ}
    (hi : i < later.length) (hp : bs.length ≤ p + i) :
    ofListWith bs p later (p + i) = later[i] := by
  rw [ofListWith, write_apply_of_ge _ (by omega), write_apply _ later p hi]

/-- Elsewhere the memory is that of `bs` and zeros. -/
theorem ofListWith_apply_of_ne (bs : List UInt8) {p : ℕ} {later : List UInt8} {i : ℕ}
    (hi : i < bs.length ∨ i < p ∨ p + later.length ≤ i) :
    ofListWith bs p later i = ofList bs i := by
  by_cases hlt : i < bs.length
  · exact apply_of_read_eq (read_ofListWith bs p later) hlt
  · rw [ofListWith, write_apply_of_ge _ (by omega), ofList_apply_of_ge (by omega)]
    rcases hi with hi | hi | hi
    · exact absurd hi hlt
    · exact write_apply_of_lt _ later hi
    · exact write_apply_of_ge _ hi

/-- `f` takes one value on all memories that start with `bs`. -/
def ConstOn {β : Type*} (bs : List UInt8) (f : Mem → β) : Prop :=
  ∀ m m' : Mem, m.read 0 bs.length = bs → m'.read 0 bs.length = bs → f m = f m'

/-- That value is the one with zeros after `bs`. -/
theorem ConstOn.eq_ofList {β : Type*} {bs : List UInt8} {f : Mem → β} (h : ConstOn bs f) (p : ℕ)
    (later : List UInt8) : f (ofListWith bs p later) = f (ofList bs) :=
  h _ _ (read_ofListWith bs p later) (read_ofList bs)

/-! ## Integers in memory -/

/-- The 16-bit integer a little-endian host loads from address `p`. -/
def load16 (m : Mem) (p : ℕ) : ℕ := (m p).toNat + 256 * (m (p + 1)).toNat

/-- The 32-bit integer a little-endian host loads from address `p`. -/
def load32 (m : Mem) (p : ℕ) : ℕ := load16 m p + 65536 * load16 m (p + 2)

/-- The 16-bit integer in network order at address `p`. -/
def be16 (m : Mem) (p : ℕ) : ℕ := 256 * (m p).toNat + (m (p + 1)).toNat

end Mem

/-- The two bytes a little-endian host stores for a 16-bit integer. -/
def le16 (n : ℕ) : List UInt8 := [UInt8.ofNat n, UInt8.ofNat (n / 256)]

/-- The four bytes a little-endian host stores for a 32-bit integer. -/
def le32 (n : ℕ) : List UInt8 := le16 n ++ le16 (n / 65536)

/-- The eight bytes a little-endian host stores for a 64-bit integer. -/
def le64 (n : ℕ) : List UInt8 := le32 n ++ le32 (n / 4294967296)

/-- Swap the bytes of a 16-bit integer. -/
def bswap16 (n : ℕ) : ℕ := 256 * (n % 256) + n / 256 % 256

/-- Swap the bytes of a 32-bit integer. -/
def bswap32 (n : ℕ) : ℕ := 65536 * bswap16 (n % 65536) + bswap16 (n / 65536 % 65536)

/-- Swap the bytes of a 64-bit integer. -/
def bswap64 (n : ℕ) : ℕ :=
  4294967296 * bswap32 (n % 4294967296) + bswap32 (n / 4294967296 % 4294967296)

namespace Mem

theorem load16_lt (m : Mem) (p : ℕ) : load16 m p < 65536 := by
  have h0 := (m p).toNat_lt
  have h1 := (m (p + 1)).toNat_lt
  rw [load16]
  omega

/-- A loaded 16-bit field swapped to host order is its network-order value. -/
theorem bswap16_load16 (m : Mem) (p : ℕ) : bswap16 (load16 m p) = be16 m p := by
  have h0 := (m p).toNat_lt
  have h1 := (m (p + 1)).toNat_lt
  rw [bswap16, load16, be16]
  omega

theorem be16_congr {m m' : Mem} {p q : ℕ} (h0 : m p = m' q) (h1 : m (p + 1) = m' (q + 1)) :
    be16 m p = be16 m' q := by
  rw [be16, be16, h0, h1]

/-- Below the bytes added behind a block, fields are those of the block and zeros. -/
theorem be16_ofListWith_of_le (bs : List UInt8) {p q : ℕ} (later : List UInt8) (h : q + 2 ≤ p) :
    (ofListWith bs p later).be16 q = (ofList bs).be16 q :=
  be16_congr (ofListWith_apply_of_ne bs (by omega)) (ofListWith_apply_of_ne bs (by omega))

/-- A field behind the block. -/
theorem be16_ofListWith_two {bs : List UInt8} {p : ℕ} (x y : UInt8) (h : bs.length ≤ p) :
    (ofListWith bs p [x, y]).be16 p = 256 * x.toNat + y.toNat := by
  have h0 : ofListWith bs p [x, y] (p + 0) = x := ofListWith_apply bs (by simp) (by omega)
  have h1 : ofListWith bs p [x, y] (p + 1) = y := ofListWith_apply bs (by simp) (by omega)
  rw [Nat.add_zero] at h0
  rw [be16, h0, h1]

/-- A field that begins with the last byte of the block. -/
theorem be16_ofListWith_one {bs : List UInt8} {p : ℕ} (y : UInt8) (h : bs.length = p + 1) :
    (ofListWith bs (p + 1) [y]).be16 p = 256 * (ofList bs p).toNat + y.toNat := by
  have h0 : ofListWith bs (p + 1) [y] p = ofList bs p :=
    ofListWith_apply_of_ne bs (by omega)
  have h1 : ofListWith bs (p + 1) [y] (p + 1 + 0) = y :=
    ofListWith_apply bs (by simp) (by omega)
  rw [Nat.add_zero] at h1
  rw [be16, h0, h1]

/-- Storing a loaded 16-bit field copies its two bytes. -/
theorem le16_load16 (m : Mem) (p : ℕ) : le16 (load16 m p) = m.read p 2 := by
  have h0 := (m p).toNat_lt
  have hlo : UInt8.ofNat (load16 m p) = m p := by
    apply UInt8.toNat_inj.mp
    rw [UInt8.toNat_ofNat', load16]
    omega
  have hhi : load16 m p / 256 = (m (p + 1)).toNat := by
    rw [load16]
    omega
  rw [le16, hlo, hhi, UInt8.ofNat_toNat]
  rfl

/-- Storing a loaded 32-bit field copies its four bytes. -/
theorem le32_load32 (m : Mem) (p : ℕ) : le32 (load32 m p) = m.read p 4 := by
  have hlt := load16_lt m p
  have hlo : le16 (load32 m p) = le16 (load16 m p) := by
    have hmod : ∀ a b : ℕ, a < 65536 → le16 (a + 65536 * b) = le16 a := by
      intro a b ha
      have h1 : UInt8.ofNat (a + 65536 * b) = UInt8.ofNat a := by
        apply UInt8.toNat_inj.mp
        rw [UInt8.toNat_ofNat', UInt8.toNat_ofNat']
        omega
      have h2 : UInt8.ofNat ((a + 65536 * b) / 256) = UInt8.ofNat (a / 256) := by
        apply UInt8.toNat_inj.mp
        rw [UInt8.toNat_ofNat', UInt8.toNat_ofNat']
        omega
      rw [le16, le16, h1, h2]
    rw [load32, hmod _ _ hlt]
  have hhi : load32 m p / 65536 = load16 m (p + 2) := by
    rw [load32]
    omega
  rw [le32, hlo, hhi, le16_load16, le16_load16, show (4 : ℕ) = 2 + 2 from rfl, read_add]

/-- The four bytes of a number that is given by them. -/
theorem le32_of_bytes (a b c d : UInt8) :
    le32 (a.toNat + 256 * b.toNat + 65536 * c.toNat + 16777216 * d.toNat) = [a, b, c, d] := by
  have ha := a.toNat_lt
  have hb := b.toNat_lt
  have hc := c.toNat_lt
  have hd := d.toNat_lt
  have hbyte (x : UInt8) {n : ℕ} (h : n % 256 = x.toNat) : UInt8.ofNat n = x := by
    apply UInt8.toNat_inj.mp
    rw [UInt8.toNat_ofNat', h]
  rw [le32, le16, le16, hbyte a (by omega), hbyte b (by omega), hbyte c (by omega),
    hbyte d (by omega)]
  rfl

/-- Storing a loaded 32-bit field with its bytes swapped copies its four bytes backwards. -/
theorem le32_bswap32_load32 (m : Mem) (p : ℕ) :
    le32 (bswap32 (load32 m p)) = [m (p + 3), m (p + 2), m (p + 1), m p] := by
  have h0 := (m p).toNat_lt
  have h1 := (m (p + 1)).toNat_lt
  have h2 := (m (p + 2)).toNat_lt
  have h3 := (m (p + 3)).toNat_lt
  have hlow : load32 m p % 65536 = load16 m p := by
    rw [load32]
    have hlt := load16_lt m p
    omega
  have hhigh : load32 m p / 65536 % 65536 = load16 m (p + 2) := by
    rw [load32]
    have hlt := load16_lt m p
    have hlt' := load16_lt m (p + 2)
    omega
  have hswap : bswap32 (load32 m p) = (m (p + 3)).toNat + 256 * (m (p + 2)).toNat
      + 65536 * (m (p + 1)).toNat + 16777216 * (m p).toNat := by
    rw [bswap32, hlow, hhigh, bswap16_load16, bswap16_load16, be16, be16]
    ring
  rw [hswap, le32_of_bytes]

/-- The 32-bit integer in network order at address `p`. -/
def be32 (m : Mem) (p : ℕ) : ℕ := 65536 * be16 m p + be16 m (p + 2)

/-- Swapping twice gives a 16-bit value back. -/
theorem bswap16_bswap16 {n : ℕ} (h : n < 65536) : bswap16 (bswap16 n) = n := by
  have hhi : bswap16 n / 256 = n % 256 := by
    rw [bswap16]
    omega
  have hlo : bswap16 n % 256 = n / 256 := by
    rw [bswap16]
    omega
  rw [bswap16, hhi, hlo]
  omega

theorem bswap16_lt (n : ℕ) : bswap16 n < 65536 := by
  rw [bswap16]
  omega

/-- A 16-bit field, from the bytes that were stored. -/
theorem be16_of_read {m : Mem} {p n : ℕ} (h : m.read p 2 = le16 n) : m.be16 p = bswap16 n := by
  have hbytes : [m p, m (p + 1)] = le16 n := h
  rw [le16, List.cons.injEq, List.cons.injEq] at hbytes
  rw [be16, hbytes.1, hbytes.2.1, UInt8.toNat_ofNat', UInt8.toNat_ofNat', bswap16]

/-- A 32-bit field that was stored in network order. -/
theorem be32_of_read {m : Mem} {p n : ℕ} (h : m.read p 4 = le32 (bswap32 n)) :
    m.be32 p = n % 4294967296 := by
  have hhi := bswap16_lt (n / 65536 % 65536)
  rw [show (4 : ℕ) = 2 + 2 from rfl, read_add, le32] at h
  obtain ⟨hfirst, hsecond⟩ := List.append_inj h (by rw [length_read]; rfl)
  have hmod : bswap16 (bswap32 n) = bswap16 (bswap16 (n / 65536 % 65536)) := by
    rw [bswap16, bswap16, bswap32]
    omega
  have hdiv : bswap32 n / 65536 = bswap16 (n % 65536) := by
    rw [bswap32]
    omega
  rw [be32, be16_of_read hfirst, be16_of_read hsecond, hmod, hdiv,
    bswap16_bswap16 (Nat.mod_lt _ (by decide)), bswap16_bswap16 (Nat.mod_lt _ (by decide))]
  omega

/-- Four bytes hold a number modulo 2³². -/
theorem le32_mod (n : ℕ) : le32 (n % 4294967296) = le32 n := by
  have hbyte {a b : ℕ} (h : a % 256 = b % 256) : UInt8.ofNat a = UInt8.ofNat b := by
    apply UInt8.toNat_inj.mp
    rw [UInt8.toNat_ofNat', UInt8.toNat_ofNat']
    exact h
  unfold le32 le16
  rw [hbyte (show n % 4294967296 % 256 = n % 256 by omega),
    hbyte (show n % 4294967296 / 256 % 256 = n / 256 % 256 by omega),
    hbyte (show n % 4294967296 / 65536 % 256 = n / 65536 % 256 by omega),
    hbyte (show n % 4294967296 / 65536 / 256 % 256 = n / 65536 / 256 % 256 by omega)]

/-- The four bytes of a 32-bit integer tell which one it is. -/
theorem le32_inj {a b : ℕ} (h : le32 a = le32 b) : a % 4294967296 = b % 4294967296 := by
  rw [le32, le16, le16, le32, le16, le16] at h
  simp only [List.cons_append, List.nil_append, List.cons.injEq, and_true] at h
  obtain ⟨h0, h1, h2, h3⟩ := h
  have e0 := congrArg UInt8.toNat h0
  have e1 := congrArg UInt8.toNat h1
  have e2 := congrArg UInt8.toNat h2
  have e3 := congrArg UInt8.toNat h3
  simp only [UInt8.toNat_ofNat'] at e0 e1 e2 e3
  omega

/-! ## Agreement -/

/-- The memories agree on their first `n` bytes. -/
def AgreeBelow (n : ℕ) (m m' : Mem) : Prop := ∀ i < n, m i = m' i

namespace AgreeBelow

variable {n : ℕ} {m m' : Mem}

/-- The same bytes written to both are no reason to differ. -/
theorem write (h : AgreeBelow n m m') (p : ℕ) (bs : List UInt8) :
    AgreeBelow n (m.write p bs) (m'.write p bs) := by
  intro i hi
  unfold Mem.write
  rw [h i hi]

theorem load16_eq (h : AgreeBelow n m m') {p : ℕ} (hp : p + 2 ≤ n) : m.load16 p = m'.load16 p := by
  unfold load16
  rw [h p (by omega), h (p + 1) (by omega)]

theorem load32_eq (h : AgreeBelow n m m') {p : ℕ} (hp : p + 4 ≤ n) : m.load32 p = m'.load32 p := by
  unfold load32
  rw [h.load16_eq (by omega), h.load16_eq (by omega)]

theorem read_eq (h : AgreeBelow n m m') {p k : ℕ} (hp : p + k ≤ n) : m.read p k = m'.read p k :=
  read_congr fun i hi => h (p + i) (by omega)

end AgreeBelow

end Mem

end ByteMemory
