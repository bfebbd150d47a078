import Mathlib.Algebra.Order.Field.Basic

/-!
# Floating point numbers

Numbers with exact values, and the special values that a division by zero gives.
-/

namespace AutowareUniverse.Library.FloatingNumber

inductive Number (K : Type)
  | finite (value : K)
  | nan
  | infinity (negative : Bool)
  deriving DecidableEq

namespace Number

variable {K : Type}

/-- `std::isfinite`. -/
def isFinite : Number K → Bool
  | .finite _ => true
  | _ => false

/-- The operator `<`. -/
def less [LinearOrder K] : Number K → Number K → Bool
  | .finite first, .finite second => decide (first < second)
  | .finite _, .infinity negative => !negative
  | .infinity negative, .finite _ => negative
  | .infinity first, .infinity second => first && !second
  | _, _ => false

def value [Zero K] : Number K → K
  | .finite value => value
  | _ => 0

theorem less_eq [LinearOrder K] [Zero K] {first second : Number K}
    (hfirst : first.isFinite = true) (hsecond : second.isFinite = true) :
    first.less second = decide (first.value < second.value) := by
  cases first with
  | finite first =>
    cases second with
    | finite second => rfl
    | nan => cases hsecond
    | infinity negative => cases hsecond
  | nan => cases hfirst
  | infinity negative => cases hfirst


theorem eq_of_value [Zero K] {first second : Number K} (hfirst : first.isFinite = true)
    (hsecond : second.isFinite = true) (hvalue : first.value = second.value) : first = second := by
  cases first with
  | finite first =>
    cases second with
    | finite second => exact congrArg Number.finite hvalue
    | nan => cases hsecond
    | infinity negative => cases hsecond
  | nan => cases hfirst
  | infinity negative => cases hfirst

/-- The quotient of two finite numbers; a divisor of zero has the positive sign. -/
def divide [Field K] [LinearOrder K] (numerator denominator : K) : Number K :=
  if denominator ≠ 0 then .finite (numerator / denominator)
  else if numerator = 0 then .nan
  else .infinity (numerator < 0)

def quotient [Field K] [LinearOrder K] (numerator : K) : Number K → Number K
  | .finite denominator => divide numerator denominator
  | .nan => .nan
  | .infinity _ => .finite 0

/-- `std::max`. -/
def max [LinearOrder K] (first second : Number K) : Number K :=
  if first.less second then second else first

/-- `std::min`. -/
def min [LinearOrder K] (first second : Number K) : Number K :=
  if second.less first then second else first

variable [LinearOrder K]

theorem max_finite (first second : K) :
    max (.finite first) (.finite second) = .finite (Max.max first second) := by
  unfold max less
  rcases lt_or_ge first second with hlt | hge
  · rw [if_pos (decide_eq_true hlt), max_eq_right hlt.le]
  · rw [if_neg (by simpa using hge), max_eq_left hge]

theorem min_finite (first second : K) :
    min (.finite first) (.finite second) = .finite (Min.min first second) := by
  unfold min less
  rcases lt_or_ge second first with hlt | hge
  · rw [if_pos (decide_eq_true hlt), min_eq_right hlt.le]
  · rw [if_neg (by simpa using hge), min_eq_left hge]

theorem max_divide_zero [Field K] (first : K) {numerator : K} (hnumerator : numerator ≤ 0) :
    max (.finite first) (divide numerator 0) = .finite first := by
  unfold divide
  rw [if_neg (not_not.mpr rfl)]
  split
  · rfl
  · rename_i hne
    rw [decide_eq_true (lt_of_le_of_ne hnumerator hne)]
    rfl

theorem min_divide_zero [Field K] (first : K) {numerator : K} (hnumerator : 0 ≤ numerator) :
    min (.finite first) (divide numerator 0) = .finite first := by
  unfold divide
  rw [if_neg (not_not.mpr rfl)]
  split
  · rfl
  · rw [decide_eq_false (not_lt.mpr hnumerator)]
    rfl

end Number

end AutowareUniverse.Library.FloatingNumber
