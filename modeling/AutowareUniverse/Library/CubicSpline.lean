import AutowareUniverse.Library.Numerals
import Mathlib.Algebra.Order.Field.Basic
import Mathlib.Algebra.Order.AbsoluteValue.Basic
import Mathlib.Tactic.FieldSimp
import Mathlib.Tactic.LinearCombination
import Mathlib.Algebra.Polynomial.Derivative
import Mathlib.Tactic.ComputeDegree

/-!
# Tridiagonal systems

The forward elimination of a tridiagonal system writes each unknown in terms of the next one.
It does not divide by zero if the diagonal dominates, and then the system has one solution.
-/

namespace AutowareUniverse.Library

/-- The entries of row `i + 1` are `sub i`, `diag (i + 1)` and `super (i + 1)`; row `0` has
no entry before the diagonal. -/
structure Tridiagonal (K : Type) where
  sub : ℕ → K
  diag : ℕ → K
  super : ℕ → K
  rhs : ℕ → K

namespace Tridiagonal

variable {K : Type} [Field K] (T : Tridiagonal K)

def RowHolds (x : ℕ → K) : ℕ → Prop
  | 0 => T.diag 0 * x 0 + T.super 0 * x 1 = T.rhs 0
  | i + 1 => T.sub i * x i + T.diag (i + 1) * x (i + 1) + T.super (i + 1) * x (i + 2) =
      T.rhs (i + 1)

/-- A solution of the first `numRow` rows, in the unknowns of these rows. -/
structure Solves (numRow : ℕ) (x : ℕ → K) : Prop where
  row : ∀ i, i < numRow → T.RowHolds x i
  last : x numRow = 0

/-- Each unknown is the first number times the next unknown plus the second number. -/
def eliminated : ℕ → K × K
  | 0 => (-T.super 0 / T.diag 0, T.rhs 0 / T.diag 0)
  | i + 1 =>
    let (factor, rest) := eliminated i
    let pivot := T.diag (i + 1) + T.sub i * factor
    (-T.super (i + 1) / pivot, (T.rhs (i + 1) - T.sub i * rest) / pivot)

/-- The number that the elimination divides row `i` by. -/
def pivot : ℕ → K
  | 0 => T.diag 0
  | i + 1 => T.diag (i + 1) + T.sub i * (T.eliminated i).1

variable {T}

theorem eliminated_fst (i : ℕ) : (T.eliminated i).1 = -T.super i / T.pivot i := by
  cases i <;> rfl

theorem eliminated_snd_succ (i : ℕ) : (T.eliminated (i + 1)).2 =
      (T.rhs (i + 1) - T.sub i * (T.eliminated i).2) / T.pivot (i + 1) := rfl

/-- What the elimination states about unknown `i`. -/
def Eliminated (T : Tridiagonal K) (x : ℕ → K) (i : ℕ) : Prop :=
  x i = (T.eliminated i).1 * x (i + 1) + (T.eliminated i).2

variable {x : ℕ → K}

theorem rowHolds_zero_iff (hpivot : T.pivot 0 ≠ 0) :
    T.RowHolds x 0 ↔ T.Eliminated x 0 := by
  change T.diag 0 ≠ 0 at hpivot
  change T.diag 0 * x 0 + T.super 0 * x 1 = T.rhs 0 ↔
    x 0 = -T.super 0 / T.diag 0 * x 1 + T.rhs 0 / T.diag 0
  rw [← mul_right_inj' hpivot (b := x 0)]
  have hright : T.diag 0 * (-T.super 0 / T.diag 0 * x 1 + T.rhs 0 / T.diag 0) =
      T.rhs 0 - T.super 0 * x 1 := by
    field_simp
    ring
  rw [hright]
  exact eq_sub_iff_add_eq.symm

theorem rowHolds_succ_iff {i : ℕ} (hprevious : T.Eliminated x i)
    (hpivot : T.pivot (i + 1) ≠ 0) : T.RowHolds x (i + 1) ↔ T.Eliminated x (i + 1) := by
  unfold Eliminated at hprevious
  have hrow : T.RowHolds x (i + 1) ↔ T.pivot (i + 1) * x (i + 1) =
      T.rhs (i + 1) - T.sub i * (T.eliminated i).2 - T.super (i + 1) * x (i + 2) := by
    rw [RowHolds, pivot, hprevious]
    constructor
    · intro hrow
      linear_combination hrow
    · intro hrow
      linear_combination hrow
  have hright : T.rhs (i + 1) - T.sub i * (T.eliminated i).2 - T.super (i + 1) * x (i + 2) =
      T.pivot (i + 1) * ((T.eliminated (i + 1)).1 * x (i + 2) + (T.eliminated (i + 1)).2) := by
    rw [eliminated_fst, eliminated_snd_succ]
    field_simp
    ring
  rw [hrow, hright, mul_right_inj' hpivot]
  rfl

variable {numRow : ℕ}

theorem rowsHold_iff (hpivot : ∀ i, i < numRow → T.pivot i ≠ 0) :
    (∀ i, i < numRow → T.RowHolds x i) ↔ ∀ i, i < numRow → T.Eliminated x i := by
  induction numRow with
  | zero => exact ⟨fun _ i hi => absurd hi i.not_lt_zero, fun _ i hi => absurd hi i.not_lt_zero⟩
  | succ numRow ih =>
    have ih := ih fun i hi => hpivot i (Nat.lt_succ_of_lt hi)
    rw [Nat.forall_lt_succ_right, Nat.forall_lt_succ_right, ih]
    refine and_congr_right fun hrows => ?_
    cases numRow with
    | zero => exact rowHolds_zero_iff (hpivot 0 Nat.zero_lt_one)
    | succ i => exact rowHolds_succ_iff (hrows i i.lt_succ_self) (hpivot _ (Nat.lt_succ_self _))

theorem solves_iff (hpivot : ∀ i, i < numRow → T.pivot i ≠ 0) :
    T.Solves numRow x ↔ (∀ i, i < numRow → T.Eliminated x i) ∧ x numRow = 0 :=
  ⟨fun ⟨hrow, hlast⟩ => ⟨(rowsHold_iff hpivot).mp hrow, hlast⟩,
    fun ⟨hrow, hlast⟩ => ⟨(rowsHold_iff hpivot).mpr hrow, hlast⟩⟩

/-- The back substitution determines the unknowns. -/
theorem Solves.unique {x y : ℕ → K} (hpivot : ∀ i, i < numRow → T.pivot i ≠ 0)
    (hx : T.Solves numRow x) (hy : T.Solves numRow y) {i : ℕ} (hi : i ≤ numRow) : x i = y i := by
  obtain ⟨hx, hxlast⟩ := (solves_iff hpivot).mp hx
  obtain ⟨hy, hylast⟩ := (solves_iff hpivot).mp hy
  induction hi using Nat.decreasingInduction with
  | of_succ i hi ih => rw [hx i hi, hy i hi, ih]
  | self => rw [hxlast, hylast]

variable [LinearOrder K] [IsStrictOrderedRing K]

/-- The diagonal is larger than the other entries of its row together. -/
structure Dominant (T : Tridiagonal K) (numRow : ℕ) : Prop where
  zero : 0 < numRow → |T.super 0| < |T.diag 0|
  succ : ∀ i, i + 1 < numRow → |T.sub i| + |T.super (i + 1)| < |T.diag (i + 1)|

theorem Dominant.step {numRow i : ℕ} (hdominant : Dominant T numRow) (hi : i + 1 < numRow)
    (hfactor : |(T.eliminated i).1| < 1) : |T.super (i + 1)| < |T.pivot (i + 1)| := by
  have hsub : |T.sub i * (T.eliminated i).1| ≤ |T.sub i| := by
    rw [abs_mul]
    exact mul_le_of_le_one_right (abs_nonneg _) hfactor.le
  have hpivot : |T.diag (i + 1)| - |T.sub i * (T.eliminated i).1| ≤ |T.pivot (i + 1)| := by
    rw [pivot, ← sub_neg_eq_add]
    exact (abs_neg (T.sub i * (T.eliminated i).1)) ▸ abs_sub_abs_le_abs_sub _ _
  have hrow := hdominant.succ i hi
  linarith

theorem Dominant.super_lt_pivot (hdominant : Dominant T numRow) {i : ℕ}
    (hi : i < numRow) : |T.super i| < |T.pivot i| := by
  induction i with
  | zero => exact hdominant.zero hi
  | succ i ih =>
    have hlt := ih (Nat.lt_of_succ_lt hi)
    refine hdominant.step hi ?_
    rw [eliminated_fst, abs_div, abs_neg]
    exact (div_lt_one ((abs_nonneg _).trans_lt hlt)).mpr hlt

theorem Dominant.pivot_ne_zero (hdominant : Dominant T numRow) {i : ℕ}
    (hi : i < numRow) : T.pivot i ≠ 0 :=
  abs_pos.mp ((abs_nonneg _).trans_lt (hdominant.super_lt_pivot hi))

end Tridiagonal

end AutowareUniverse.Library

/-!
## Natural cubic splines

A cubic spline is given by its second derivatives at the keys.  Its values and its second
derivatives always fit together; its first derivatives do if and only if the second
derivatives solve a tridiagonal system.
-/

namespace AutowareUniverse.Library.CubicSpline

open Polynomial

variable {K : Type} [Field K]

noncomputable def cubic (key a b c d : K) : Polynomial K :=
  C d + C c * (X - C key) + C b * (X - C key) ^ 2 + C a * (X - C key) ^ 3

section

variable (key a b c d x : K)

theorem natDegree_cubic : (cubic key a b c d).natDegree ≤ 3 := by
  unfold cubic
  compute_degree

theorem eval_cubic : (cubic key a b c d).eval x =
    d + (c + (b + a * (x - key)) * (x - key)) * (x - key) := by
  simp only [cubic, eval_add, eval_mul, eval_C, eval_sub, eval_X, eval_pow]
  ring

theorem eval_derivative_cubic : (cubic key a b c d).derivative.eval x =
    c + (2 * b + 3 * a * (x - key)) * (x - key) := by
  simp [cubic, derivative_pow]
  ring

theorem eval_derivative_derivative_cubic :
    (cubic key a b c d).derivative.derivative.eval x = 2 * b + 6 * a * (x - key) := by
  simp [cubic, derivative_pow]
  ring

end

/-- The cubics pass through the points `0, …, last`, are twice continuously differentiable,
and are not bent at the ends. -/
structure IsNatural (key value : ℕ → K) (last : ℕ) (segment : ℕ → Polynomial K) : Prop where
  degree : ∀ j, j < last → (segment j).natDegree ≤ 3
  left : ∀ j, j < last → (segment j).eval (key j) = value j
  right : ∀ j, j < last → (segment j).eval (key (j + 1)) = value (j + 1)
  slope : ∀ j, j + 1 < last → (segment j).derivative.eval (key (j + 1)) =
    (segment (j + 1)).derivative.eval (key (j + 1))
  bend : ∀ j, j + 1 < last → (segment j).derivative.derivative.eval (key (j + 1)) =
    (segment (j + 1)).derivative.derivative.eval (key (j + 1))
  front : (segment 0).derivative.derivative.eval (key 0) = 0
  back : (segment (last - 1)).derivative.derivative.eval (key last) = 0

theorem IsNatural.congr {key value : ℕ → K} {last : ℕ} {segment other : ℕ → Polynomial K}
    (hnatural : IsNatural key value last segment) (hlast : 0 < last)
    (hsame : ∀ j, j < last → other j = segment j) : IsNatural key value last other where
  degree j hj := hsame j hj ▸ hnatural.degree j hj
  left j hj := hsame j hj ▸ hnatural.left j hj
  right j hj := hsame j hj ▸ hnatural.right j hj
  slope j hj := by
    rw [hsame j (Nat.lt_of_succ_lt hj), hsame (j + 1) hj]
    exact hnatural.slope j hj
  bend j hj := by
    rw [hsame j (Nat.lt_of_succ_lt hj), hsame (j + 1) hj]
    exact hnatural.bend j hj
  front := hsame 0 hlast ▸ hnatural.front
  back := hsame (last - 1) (Nat.sub_one_lt_of_lt hlast) ▸ hnatural.back

section

variable (key value moment : ℕ → K)

def spacing (j : ℕ) : K := key (j + 1) - key j

def slope (j : ℕ) : K := (value (j + 1) - value j) / spacing key j

/-- The cubic of a segment with the given second derivatives at the keys. -/
noncomputable def ofMoments (j : ℕ) : Polynomial K :=
  cubic (key j) ((moment (j + 1) - moment j) / 6 / spacing key j) (moment j / 2)
    (slope key value j - spacing key j * (2 * moment j + moment (j + 1)) / 6) (value j)

/-- The condition for the first derivative at key `j + 1`. -/
def MomentRow (j : ℕ) : Prop :=
  spacing key j * moment j + 2 * (spacing key j + spacing key (j + 1)) * moment (j + 1) +
    spacing key (j + 1) * moment (j + 2) = 6 * (slope key value (j + 1) - slope key value j)

end

variable [CharZero K] {key value moment : ℕ → K} {j last : ℕ}

theorem eval_left : (ofMoments key value moment j).eval (key j) = value j := by
  rw [ofMoments, eval_cubic]
  ring

theorem eval_right (hspacing : spacing key j ≠ 0) :
    (ofMoments key value moment j).eval (key (j + 1)) = value (j + 1) := by
  rw [ofMoments, eval_cubic, slope]
  change spacing key j ≠ 0 at hspacing
  have hkey : key (j + 1) - key j = spacing key j := rfl
  rw [hkey]
  field_simp
  ring

theorem bend_left :
    (ofMoments key value moment j).derivative.derivative.eval (key j) = moment j := by
  rw [ofMoments, eval_derivative_derivative_cubic]
  ring

theorem bend_right (hspacing : spacing key j ≠ 0) :
    (ofMoments key value moment j).derivative.derivative.eval (key (j + 1)) = moment (j + 1) := by
  have hkey : key (j + 1) - key j = spacing key j := rfl
  rw [ofMoments, eval_derivative_derivative_cubic, hkey]
  field_simp
  ring

theorem slope_left : (ofMoments key value moment j).derivative.eval (key j) =
    slope key value j - spacing key j * (2 * moment j + moment (j + 1)) / 6 := by
  rw [ofMoments, eval_derivative_cubic]
  ring

theorem slope_right (hspacing : spacing key j ≠ 0) :
    (ofMoments key value moment j).derivative.eval (key (j + 1)) =
      slope key value j + spacing key j * (moment j + 2 * moment (j + 1)) / 6 := by
  have hkey : key (j + 1) - key j = spacing key j := rfl
  rw [ofMoments, eval_derivative_cubic, hkey]
  field_simp
  ring

theorem slope_iff (hspacing : spacing key j ≠ 0) :
    (ofMoments key value moment j).derivative.eval (key (j + 1)) =
        (ofMoments key value moment (j + 1)).derivative.eval (key (j + 1)) ↔
      MomentRow key value moment j := by
  rw [slope_right hspacing, slope_left, MomentRow]
  constructor
  · intro hslope
    linear_combination 6 * hslope
  · intro hrow
    linear_combination hrow / 6

theorem isNatural_ofMoments_iff (hspacing : ∀ j, j < last → spacing key j ≠ 0) (hlast : 0 < last) :
    IsNatural key value last (ofMoments key value moment) ↔
      moment 0 = 0 ∧ moment last = 0 ∧ ∀ j, j + 1 < last → MomentRow key value moment j := by
  obtain ⟨last, rfl⟩ := Nat.exists_eq_succ_of_ne_zero hlast.ne'
  constructor
  · intro hnatural
    refine ⟨bend_left.symm.trans hnatural.front, ?_, fun j hj => ?_⟩
    · exact (bend_right (hspacing last last.lt_succ_self)).symm.trans hnatural.back
    · exact (slope_iff (hspacing j (Nat.lt_of_succ_lt hj))).mp (hnatural.slope j hj)
  · rintro ⟨hfront, hback, hrow⟩
    exact {
      degree := fun j _ => natDegree_cubic ..
      left := fun j _ => eval_left
      right := fun j hj => eval_right (hspacing j hj)
      slope := fun j hj => (slope_iff (hspacing j (Nat.lt_of_succ_lt hj))).mpr (hrow j hj)
      bend := fun j hj => (bend_right (hspacing j (Nat.lt_of_succ_lt hj))).trans bend_left.symm
      front := bend_left.trans hfront
      back := (bend_right (hspacing last last.lt_succ_self)).trans hback }

end AutowareUniverse.Library.CubicSpline
