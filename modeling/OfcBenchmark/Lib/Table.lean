import Mathlib.Logic.Function.Basic
import Mathlib.Tactic

/-!
# Tables that are filled cell by cell

A loop that fills a table stores one value after the other. What stands in the table when the
rows have been stored from left to right and from the first to the last is `perform_stores`, what
can be read back of it is `cell_stores`, and where they are stored is `mem_stores`.
-/

namespace Table

variable {α : Type}

/-- A value that is stored in a cell. -/
structure Store (α : Type) where
  row : ℕ
  column : ℕ
  value : α
deriving DecidableEq

/-- What is in the cells after it. -/
def Store.perform (cells : ℕ → ℕ → α) (s : Store α) : ℕ → ℕ → α :=
  Function.update cells s.row (Function.update (cells s.row) s.column s.value)

/-- What is in the cells after all of these, in this order. -/
def perform (cells : ℕ → ℕ → α) (stores : List (Store α)) : ℕ → ℕ → α :=
  stores.foldl Store.perform cells

theorem perform_append (cells : ℕ → ℕ → α) (stores stores' : List (Store α)) :
    perform cells (stores ++ stores') = perform (perform cells stores) stores' :=
  List.foldl_append

/-- The stores of a row, from a column on. -/
def rowStores (row : ℕ) : ℕ → List α → List (Store α)
  | _, [] => []
  | column, value :: values => ⟨row, column, value⟩ :: rowStores row (column + 1) values

/-- The stores of a table, from a row on. -/
def stores : ℕ → List (List α) → List (Store α)
  | _, [] => []
  | row, values :: rows => rowStores row 0 values ++ stores (row + 1) rows

theorem perform_rowStores (cells : ℕ → ℕ → α) (row column : ℕ) (values : List α) (r c : ℕ) :
    perform cells (rowStores row column values) r c
      = if r = row ∧ column ≤ c then (values[c - column]?).getD (cells r c) else cells r c := by
  induction values generalizing cells column with
  | nil =>
    rw [List.getElem?_nil, Option.getD_none, ite_self]
    rfl
  | cons value values ih =>
    have hcells : Store.perform cells ⟨row, column, value⟩ r c
        = if r = row ∧ c = column then value else cells r c := by
      by_cases hr : r = row
      · subst hr
        rw [Store.perform, Function.update_self, Function.update_apply]
        simp only [true_and]
      · rw [Store.perform, Function.update_of_ne hr, if_neg fun h => hr h.1]
    rw [rowStores, perform, List.foldl_cons]
    refine (ih _ _).trans ?_
    rw [hcells]
    by_cases hr : r = row
    case neg =>
      rw [if_neg fun h => hr h.1, if_neg fun h => hr h.1, if_neg fun h => hr h.1]
    rcases lt_trichotomy c column with hlt | rfl | hgt
    · rw [if_neg fun h => absurd h.2 (by omega), if_neg fun h => absurd h.2 (by omega),
        if_neg fun h => absurd h.2 (by omega)]
    · rw [if_neg fun h => absurd h.2 (by omega), if_pos ⟨hr, rfl⟩, if_pos ⟨hr, le_rfl⟩,
        Nat.sub_self]
      rfl
    · rw [if_pos ⟨hr, hgt⟩, if_neg fun h => absurd h.2 (by omega), if_pos ⟨hr, hgt.le⟩,
        show c - column = c - (column + 1) + 1 by omega, List.getElem?_cons_succ]

/-- The table has the values of the rows, and what was there elsewhere. -/
theorem perform_stores (cells : ℕ → ℕ → α) (row : ℕ) (rows : List (List α)) (r c : ℕ) :
    perform cells (stores row rows) r c
      = if row ≤ r then ((rows[r - row]?).bind (·[c]?)).getD (cells r c) else cells r c := by
  induction rows generalizing cells row with
  | nil =>
    rw [List.getElem?_nil, Option.bind_none, Option.getD_none, ite_self]
    rfl
  | cons values rows ih =>
    rw [stores, perform_append, ih, perform_rowStores]
    rcases lt_trichotomy r row with hlt | rfl | hgt
    · rw [if_neg (by omega), if_neg fun h => absurd h.1 (by omega), if_neg (by omega)]
    · rw [if_neg (by omega), if_pos ⟨rfl, Nat.zero_le c⟩, if_pos le_rfl, Nat.sub_self,
        List.getElem?_cons_zero]
      rfl
    · rw [if_pos (Nat.succ_le_of_lt hgt), if_neg fun h => absurd h.1 (by omega), if_pos hgt.le,
        show r - row = r - (row + 1) + 1 by omega, List.getElem?_cons_succ]

/-! ## Reading -/

/-- The same with another value. -/
def Store.map {β : Type} (f : α → β) (s : Store α) : Store β := ⟨s.row, s.column, f s.value⟩

/-- The value in a cell, if one has been stored there. -/
def cell (stores : List (Store α)) (row column : ℕ) : Option α :=
  perform (fun _ _ => none) (stores.map (Store.map some)) row column

theorem map_rowStores {β : Type} (f : α → β) (row column : ℕ) (values : List α) :
    (rowStores row column values).map (Store.map f) = rowStores row column (values.map f) := by
  induction values generalizing column with
  | nil => rfl
  | cons value values ih =>
    rw [List.map_cons, rowStores, rowStores, List.map_cons, ih]
    rfl

theorem map_stores {β : Type} (f : α → β) (row : ℕ) (rows : List (List α)) :
    (stores row rows).map (Store.map f) = stores row (rows.map (List.map f)) := by
  induction rows generalizing row with
  | nil => rfl
  | cons values rows ih =>
    rw [List.map_cons, stores, stores, List.map_append, map_rowStores, ih]

/-- What is read back are the values of the rows. -/
theorem cell_stores (rows : List (List α)) (r c : ℕ) :
    cell (stores 0 rows) r c = (rows[r]?).bind (·[c]?) := by
  rw [cell, map_stores, perform_stores, if_pos (Nat.zero_le r), Nat.sub_zero, List.getElem?_map]
  cases rows[r]? with
  | none => rfl
  | some values =>
    rw [Option.map_some, Option.bind_some, Option.bind_some, List.getElem?_map]
    cases values[c]? <;> rfl

/-- Going through the rows by their numbers. -/
theorem mapM_range_rows {β γ : Type} (rows : List γ) (f : γ → Option β) :
    ((List.range rows.length).mapM fun r => (rows[r]?).bind f) = rows.mapM f := by
  have hrange : (List.range rows.length).map (rows[·]?) = rows.map some := by
    refine List.ext_getElem? fun r => ?_
    rw [List.getElem?_map, List.getElem?_map]
    rcases Nat.lt_or_ge r rows.length with hlt | hge
    · rw [List.getElem?_range hlt, List.getElem?_eq_getElem hlt, Option.map_some, Option.map_some,
        List.getElem?_eq_getElem hlt]
    · rw [List.getElem?_eq_none (by rwa [List.length_range]), List.getElem?_eq_none hge]
      rfl
  calc ((List.range rows.length).mapM fun r => (rows[r]?).bind f)
      = ((List.range rows.length).map (rows[·]?)).mapM (Option.bind · f) := by
        rw [List.mapM_map]
        rfl
    _ = (rows.map some).mapM (Option.bind · f) := by rw [hrange]
    _ = rows.mapM f := by
        rw [List.mapM_map]
        rfl

/-! ## Where it is stored -/

theorem mem_rowStores {row column : ℕ} {values : List α} {s : Store α}
    (h : s ∈ rowStores row column values) :
    s.row = row ∧ s.column < column + values.length := by
  induction values generalizing column with
  | nil => exact absurd h List.not_mem_nil
  | cons value values ih =>
    rw [List.length_cons]
    rcases List.mem_cons.mp h with rfl | h
    · exact ⟨rfl, by simp⟩
    · obtain ⟨hrow, hlt⟩ := ih h
      exact ⟨hrow, by omega⟩

/-- Nothing is stored outside the rows. -/
theorem mem_stores {row : ℕ} {rows : List (List α)} {s : Store α} (h : s ∈ stores row rows) :
    s.row < row + rows.length ∧ ∃ values ∈ rows, s.column < values.length := by
  induction rows generalizing row with
  | nil => exact absurd h List.not_mem_nil
  | cons values rows ih =>
    rw [List.length_cons]
    rcases List.mem_append.mp h with h | h
    · obtain ⟨hrow, hlt⟩ := mem_rowStores h
      exact ⟨by omega, values, List.mem_cons_self, by omega⟩
    · obtain ⟨hlt, values', hmem, hcolumn⟩ := ih h
      exact ⟨by omega, values', List.mem_cons_of_mem _ hmem, hcolumn⟩

end Table
