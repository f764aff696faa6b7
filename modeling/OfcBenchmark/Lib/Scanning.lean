import Mathlib.Tactic

/-!
# Scanners of texts

What a scanner does with a text in which nothing stops it, from what it does with one character:

* `skip`: it goes on behind the text;
* `collect_within`: it has the text, as long as there is space for it.
-/

namespace Scanning

variable {α β : Type*} {stops : α → Prop} {text : List α}

theorem skip (scan : List α → β) (hscan : ∀ c rest, ¬ stops c → scan (c :: rest) = scan rest)
    (htext : ∀ c ∈ text, ¬ stops c) (rest : List α) : scan (text ++ rest) = scan rest := by
  induction text with
  | nil => rfl
  | cons c text ih =>
    obtain ⟨hc, htext⟩ := List.forall_mem_cons.mp htext
    rw [List.cons_append, hscan c _ hc]
    exact ih htext

/-- With space for `size` characters, more of them are not read. -/
theorem collect_within {size : ℕ} (scan : Option (List α) → List α → Option β)
    (hscan : ∀ read c rest, ¬ stops c → scan read (c :: rest)
      = if (read.getD []).length < size then scan (some (read.getD [] ++ [c])) rest else none)
    (hne : text ≠ []) (htext : ∀ c ∈ text, ¬ stops c) (read : Option (List α)) (rest : List α) :
    scan read (text ++ rest)
      = if (read.getD [] ++ text).length ≤ size then scan (some (read.getD [] ++ text)) rest
        else none := by
  induction text generalizing read with
  | nil => exact absurd rfl hne
  | cons c text ih =>
    obtain ⟨hc, htext⟩ := List.forall_mem_cons.mp htext
    have hlength : (read.getD [] ++ c :: text).length
        = (read.getD []).length + (text.length + 1) := List.length_append
    rw [List.cons_append, hscan read c _ hc, hlength]
    by_cases hroom : (read.getD []).length < size
    case neg => rw [if_neg hroom, if_neg (by omega)]
    rw [if_pos hroom]
    cases text with
    | nil =>
      rw [if_pos (by simpa using hroom)]
      rfl
    | cons c' text =>
      rw [ih (List.cons_ne_nil _ _) htext, Option.getD_some, List.append_assoc,
        List.singleton_append, hlength]

end Scanning
