import Mathlib.Order.Nat

/-!
# Held values

A sequence of values, some of which are not taken.  In their place the value before them is
held.
-/

namespace AutowareUniverse.Library.HeldValues

variable {α : Type} (taken : ℕ → Bool)

/-- The values from an index on, behind a value that is held. -/
def holdFrom (held : α) (i : ℕ) : List α → List α
  | [] => []
  | value :: values =>
    let next := if taken i then value else held
    next :: holdFrom next (i + 1) values

/-- The first value is taken in any case. -/
def hold : List α → List α
  | [] => []
  | first :: rest => first :: holdFrom taken first 1 rest

variable {taken}

theorem length_holdFrom (held : α) (i : ℕ) (values : List α) :
    (holdFrom taken held i values).length = values.length := by
  induction values generalizing held i with
  | nil => rfl
  | cons value values ih => rw [holdFrom, List.length_cons, ih, List.length_cons]

theorem length_hold (values : List α) : (hold taken values).length = values.length := by
  cases values with
  | nil => rfl
  | cons first rest => rw [hold, List.length_cons, length_holdFrom, List.length_cons]

theorem holdFrom_zero (held : α) (i : ℕ) (value : α) (values : List α) :
    (holdFrom taken held i (value :: values))[0]? = some (if taken i then value else held) :=
  rfl

variable {values : List α}

theorem holdFrom_succ (held : α) (i : ℕ) {n : ℕ} (hlt : n + 1 < values.length) :
    (holdFrom taken held i values)[n + 1]? =
      if taken (i + n + 1) then values[n + 1]? else (holdFrom taken held i values)[n]? := by
  induction values generalizing held i n with
  | nil => exact absurd hlt (Nat.not_lt_zero _)
  | cons value values ih =>
    rw [holdFrom, List.getElem?_cons_succ, List.getElem?_cons_succ]
    cases n with
    | zero =>
      cases values with
      | nil => exact absurd hlt (lt_irrefl _)
      | cons second values =>
        rw [holdFrom_zero, List.getElem?_cons_zero, List.getElem?_cons_zero]
        exact apply_ite some _ _ _
    | succ n =>
      rw [ih _ _ (Nat.lt_of_succ_lt_succ hlt), List.getElem?_cons_succ,
        show i + 1 + n + 1 = i + (n + 1) + 1 by omega]

/-- A value is taken, or the one before it is held. -/
theorem hold_succ {i : ℕ} (hlt : i + 1 < values.length) : (hold taken values)[i + 1]? =
      if taken (i + 1) then values[i + 1]? else (hold taken values)[i]? := by
  cases values with
  | nil => exact absurd hlt (Nat.not_lt_zero _)
  | cons first rest =>
    rw [hold, List.getElem?_cons_succ, List.getElem?_cons_succ]
    cases i with
    | zero =>
      cases rest with
      | nil => exact absurd hlt (lt_irrefl _)
      | cons second rest =>
        rw [holdFrom_zero, List.getElem?_cons_zero, List.getElem?_cons_zero]
        exact apply_ite some _ _ _
    | succ i =>
      rw [holdFrom_succ _ _ (Nat.lt_of_succ_lt_succ hlt), List.getElem?_cons_succ,
        show 1 + i + 1 = i + 1 + 1 by omega]

theorem hold_of_taken {i : ℕ} (htaken : taken i) :
    (hold taken values)[i]? = values[i]? := by
  rcases lt_or_ge i values.length with hlt | hge
  · cases i with
    | zero =>
      cases values with
      | nil => rfl
      | cons first rest => rfl
    | succ i => rw [hold_succ hlt, if_pos htaken]
  · rw [List.getElem?_eq_none hge, List.getElem?_eq_none (by rw [length_hold]; exact hge)]

theorem hold_of_not_taken {i j : ℕ} (hle : i ≤ j) (hlt : j < values.length)
    (htaken : ∀ k, i < k → k ≤ j → taken k = false) :
    (hold taken values)[j]? = (hold taken values)[i]? := by
  induction j, hle using Nat.le_induction with
  | base => rfl
  | succ j hle ih =>
    rw [hold_succ hlt, htaken (j + 1) (Nat.lt_succ_of_le hle) le_rfl, if_neg Bool.false_ne_true]
    exact ih (by omega) fun k hlower hupper => htaken k hlower (by omega)

/-- As long as the values are the same, it does not matter which of them are taken. -/
theorem hold_of_constant {value : α} {i : ℕ} (hlt : i < values.length)
    (hsame : ∀ j ≤ i, values[j]? = some value) : (hold taken values)[i]? = some value := by
  induction i with
  | zero =>
    cases values with
    | nil => exact absurd hlt (Nat.not_lt_zero _)
    | cons first rest => exact hsame 0 le_rfl
  | succ i ih =>
    rw [hold_succ hlt]
    split_ifs
    · exact hsame (i + 1) le_rfl
    · exact ih (by omega) fun j hle => hsame j (by omega)

end AutowareUniverse.Library.HeldValues
