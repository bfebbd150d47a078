import AutowareUniverse.Library.Numerals
import Mathlib.Algebra.Order.Floor.Ring
import Mathlib.Algebra.Order.Group.MinMax
import Mathlib.Data.List.Nodup
import Mathlib.Tactic.Ring

/-!
# Grids of cells

A coordinate falls into the cell that its floor numbers.  Two coordinates that are
close fall into cells that are close, and cells that are far apart hold coordinates
that are far apart.  The cells of a grid have one number each, composed as in a
number with several radices, and an odometer visits a box of cells one by one.
-/

namespace AutowareUniverse.Library.CellGrid

/-! ## Cells -/

section

variable {K : Type*} [LinearOrder K]

/-- The nearest coordinate of an interval. -/
def clamp (lower upper a : K) : K := min (max a lower) upper

theorem le_clamp {lower upper : K} (hinterval : lower ≤ upper) (a : K) :
    lower ≤ clamp lower upper a :=
  le_min (le_max_right a lower) hinterval

theorem clamp_le (lower upper a : K) : clamp lower upper a ≤ upper :=
  min_le_right _ _

variable [Field K] [IsStrictOrderedRing K]

theorem abs_clamp_sub_clamp_le (lower upper a b : K) :
    |clamp lower upper a - clamp lower upper b| ≤ |a - b| := by
  have hmin := abs_min_sub_min_le_max (max a lower) upper (max b lower) upper
  rw [sub_self, abs_zero, max_eq_left (abs_nonneg (max a lower - max b lower))] at hmin
  exact hmin.trans (abs_max_sub_max_le_abs a b lower)

variable [FloorRing K]

/-- The cells of close coordinates are close. -/
theorem floor_sub_floor_le {a b distance : K} (hclose : a - b ≤ distance) :
    ⌊a⌋ - ⌊b⌋ ≤ ⌈distance⌉ := by
  have hlt : ((⌊a⌋ - ⌊b⌋ : ℤ) : K) < (⌈distance⌉ + 1 : ℤ) := by
    push_cast
    calc (⌊a⌋ : K) - ⌊b⌋ ≤ a - ⌊b⌋ := sub_le_sub_right (Int.floor_le a) _
      _ < a - (b - 1) := sub_lt_sub_left (Int.sub_one_lt_floor b) a
      _ = a - b + 1 := by ring
      _ ≤ ⌈distance⌉ + 1 := by
        exact add_le_add_left (hclose.trans (Int.le_ceil distance)) 1
  exact Int.lt_add_one_iff.mp (Int.cast_lt.mp hlt)

/-- Coordinates are at least as far apart as the cells between theirs. -/
theorem floor_sub_floor_sub_one_le (a b : K) : ((⌊a⌋ - ⌊b⌋ : ℤ) : K) - 1 ≤ a - b := by
  push_cast
  calc (⌊a⌋ : K) - ⌊b⌋ - 1 = ⌊a⌋ - (⌊b⌋ + 1) := by ring
    _ ≤ a - b := sub_le_sub (Int.floor_le a) (Int.lt_floor_add_one b).le

end

section

variable {K : Type*} [Field K] [LinearOrder K] [FloorRing K]

/-- The conversion of a fractional number to an integer rounds towards zero. -/
def truncate (value : K) : ℤ := if 0 ≤ value then ⌊value⌋ else ⌈value⌉

theorem truncate_of_nonneg {value : K} (hvalue : 0 ≤ value) : truncate value = ⌊value⌋ :=
  if_pos hvalue

variable [IsStrictOrderedRing K] in
/-- Below zero the rounding makes no difference to a clamped number. -/
theorem max_truncate (value : K) : max 0 (truncate value) = max 0 ⌊value⌋ := by
  rw [truncate]
  split
  · rfl
  · next hneg =>
      have hle := (not_le.mp hneg).le
      have hceil : ⌈value⌉ ≤ 0 := Int.ceil_le.mpr (hle.trans_eq Int.cast_zero.symm)
      rw [max_eq_left hceil, max_eq_left ((Int.floor_le_ceil value).trans hceil)]

end

section

variable {m n p x y z x' y' z' : ℕ}

theorem mixedRadix_lt (hx : x < m) (hy : y < n) (hz : z < p) :
    x + y * m + z * (m * n) < m * n * p := by
  have hrow : x + y * m < m * n := by
    calc x + y * m < m + y * m := Nat.add_lt_add_right hx _
      _ = (y + 1) * m := by ring
      _ ≤ n * m := Nat.mul_le_mul_right m hy
      _ = m * n := Nat.mul_comm n m
  calc x + y * m + z * (m * n) < m * n + z * (m * n) := Nat.add_lt_add_right hrow _
    _ = (z + 1) * (m * n) := by ring
    _ ≤ p * (m * n) := Nat.mul_le_mul_right _ hz
    _ = m * n * p := Nat.mul_comm p _

theorem radix_inj (hx : x < m) (hx' : x' < m) (hsame : x + y * m = x' + y' * m) :
    x = x' ∧ y = y' := by
  have hmod : x = x' := by
    have hrest := congrArg (· % m) hsame
    simpa [Nat.add_mul_mod_self_right, Nat.mod_eq_of_lt hx, Nat.mod_eq_of_lt hx'] using hrest
  rw [hmod] at hsame
  exact ⟨hmod, Nat.eq_of_mul_eq_mul_right (Nat.zero_lt_of_lt hx) (Nat.add_left_cancel hsame)⟩

theorem mixedRadix_inj (hx : x < m) (hx' : x' < m) (hy : y < n) (hy' : y' < n)
    (hsame : x + y * m + z * (m * n) = x' + y' * m + z' * (m * n)) :
    x = x' ∧ y = y' ∧ z = z' := by
  have hfactor : ∀ a b c, a + b * m + c * (m * n) = a + (b + c * n) * m := by
    intro a b c
    ring
  rw [hfactor, hfactor] at hsame
  obtain ⟨hxs, hrest⟩ := radix_inj hx hx' hsame
  exact ⟨hxs, radix_inj hy hy' hrest⟩

end

variable {α : Type*} {next : α → Option α}

/-- The elements that are visited one after the other, from the first to the last. -/
inductive Path (next : α → Option α) : α → List α → α → Prop where
  | single (a : α) : Path next a [a] a
  | cons {a b last : α} {rest : List α} :
      next a = some b → Path next b rest last → Path next a (a :: rest) last

theorem Path.append {a b c last : α} {before after : List α} (hbefore : Path next a before b)
    (hnext : next b = some c) (hafter : Path next c after last) :
    Path next a (before ++ after) last := by
  induction hbefore with
  | single a => exact .cons hnext hafter
  | cons hstep _ ih => exact .cons hstep (ih hnext)

/-- One wheel of an odometer: while it turns, everything below it is visited. -/
theorem Path.flatMap (first last : ℕ → α) (visit : ℕ → List α) (start turns : ℕ)
    (hvisit : ∀ i, start ≤ i → i ≤ start + turns → Path next (first i) (visit i) (last i))
    (hnext : ∀ i, start ≤ i → i < start + turns → next (last i) = some (first (i + 1))) :
    Path next (first start) ((List.range' start (turns + 1)).flatMap visit)
      (last (start + turns)) := by
  induction turns generalizing start with
  | zero =>
    rw [List.range'_one, List.flatMap_singleton]
    exact hvisit start le_rfl le_rfl
  | succ turns ih =>
    rw [List.range'_succ, List.flatMap_cons]
    have hfirst := hvisit start le_rfl (Nat.le_add_right _ _)
    refine hfirst.append (hnext start le_rfl (by omega)) ?_
    have hrest := ih (start + 1)
      (fun i hle hlt => hvisit i (by omega) (by omega))
      (fun i hle hlt => hnext i (by omega) (by omega))
    rwa [show start + 1 + turns = start + (turns + 1) by omega] at hrest

/-- A bin that can be told from its elements is visited without repetitions. -/
theorem nodup_flatMap {β : Type*} {values : List α} {visit : α → List β}
    (hvalues : values.Nodup) (hvisit : ∀ a ∈ values, (visit a).Nodup)
    (hapart : ∀ a ∈ values, ∀ b ∈ values, ∀ e ∈ visit a, e ∈ visit b → a = b) :
    (values.flatMap visit).Nodup := by
  refine List.nodup_flatMap.mpr ⟨hvisit, hvalues.imp_of_mem fun ha hb hne => ?_⟩
  exact fun e hea heb => hne (hapart _ ha _ hb e hea heb)

end AutowareUniverse.Library.CellGrid
