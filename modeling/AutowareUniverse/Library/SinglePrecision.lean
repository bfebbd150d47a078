import AutowareUniverse.Library.Numerals
import Mathlib.Algebra.Order.Floor.Ring
import Mathlib.Data.Int.Log
import Mathlib.Tactic.Ring
import Mathlib.Algebra.Order.BigOperators.Group.List

/-!
# Single precision

Rounding to the nearest number with 24 significant bits, and to the nearest integer, as
`std::roundf` does, and the values whose result fits a 32-bit integer.  The range of the exponent
is not bounded.
-/

namespace AutowareUniverse.Library.SinglePrecision

variable {K : Type} [Field K] [LinearOrder K] [FloorRing K]

/-- The nearest integer, and the even one of two that are as near. -/
def roundHalfEven (x : K) : ℤ :=
  if x - ⌊x⌋ < 1 / 2 then ⌊x⌋
  else if 1 / 2 < x - ⌊x⌋ then ⌊x⌋ + 1
  else if Even ⌊x⌋ then ⌊x⌋ else ⌊x⌋ + 1

def lastBit (x : K) : K :=
  2 ^ (Int.log 2 |x| - 23)

/-- The conversion to `float`. -/
def toFloat (x : K) : K :=
  roundHalfEven (x / lastBit x) * lastBit x

/-- The nearest integer, and the one farther from zero of two that are as near. -/
def roundAway (x : K) : ℤ :=
  if 0 ≤ x then ⌊x + 1 / 2⌋ else -⌊-x + 1 / 2⌋

/-- The argument of `std::roundf` is a `float`. -/
def roundf (x : K) : ℤ :=
  roundAway (toFloat x)

def IsInt32 (value : ℤ) : Prop :=
  -2 ^ 31 ≤ value ∧ value < 2 ^ 31

instance (value : ℤ) : Decidable (IsInt32 value) :=
  inferInstanceAs (Decidable (_ ∧ _))

variable [IsStrictOrderedRing K] {x : K}

theorem roundHalfEven_le {n : ℤ} (hlt : x < n + 1 / 2) : roundHalfEven x ≤ n := by
  have hfloor : ⌊x⌋ ≤ n := by
    have hbelow : x < (n + 1 : ℤ) := by
      push_cast
      linarith
    exact Int.lt_add_one_iff.mp (Int.floor_lt.mpr hbelow)
  have hnext (hhalf : ¬ x - ⌊x⌋ < 1 / 2) : ⌊x⌋ + 1 ≤ n := by
    have hcast : ((⌊x⌋ : ℤ) : K) < n := by linarith [not_lt.mp hhalf]
    exact Int.cast_lt.mp hcast
  unfold roundHalfEven
  split
  · exact hfloor
  · rename_i hhalf
    split
    · exact hnext hhalf
    · split
      · exact hfloor
      · exact hnext hhalf

omit [IsStrictOrderedRing K] in
theorem floor_le_roundHalfEven (x : K) : ⌊x⌋ ≤ roundHalfEven x := by
  unfold roundHalfEven
  split
  · exact le_rfl
  · split
    · exact Int.le_add_one le_rfl
    · split
      · exact le_rfl
      · exact Int.le_add_one le_rfl

theorem roundHalfEven_intCast (value : ℤ) : roundHalfEven (value : K) = value := by
  have hle : roundHalfEven (value : K) ≤ value := roundHalfEven_le (by linarith)
  have hfloor := floor_le_roundHalfEven (value : K)
  rw [Int.floor_intCast] at hfloor
  exact le_antisymm hle hfloor

/-- A tie above an odd integer goes up. -/
theorem lt_roundHalfEven {n : ℤ} (hodd : ¬ Even n) (hle : n + 1 / 2 ≤ x) :
    n < roundHalfEven x := by
  have hfloor : n ≤ ⌊x⌋ := Int.le_floor.mpr (by linarith)
  rcases hfloor.lt_or_eq with hlt | heq
  · exact hlt.trans_le (floor_le_roundHalfEven x)
  · rw [roundHalfEven, ← heq, if_neg (by linarith)]
    split
    · exact Int.lt_add_one_iff.mpr le_rfl
    · exact Int.lt_add_one_iff.mpr le_rfl

/-! ## Rounding to single precision -/

omit [FloorRing K] in
theorem two_pow_mul_zpow (n : ℕ) (e : ℤ) :
    ((2 ^ n : ℤ) : K) * 2 ^ (e - 23) = 2 ^ (e + (n - 23)) := by
  rw [Int.cast_pow, Int.cast_ofNat, ← zpow_natCast, ← zpow_add₀ two_ne_zero]
  congr 1
  ring

theorem lastBit_pos (x : K) : 0 < lastBit x :=
  zpow_pos two_pos _

theorem toFloat_nonneg (hnonneg : 0 ≤ x) : 0 ≤ toFloat x := by
  refine mul_nonneg (Int.cast_nonneg ?_) (lastBit_pos x).le
  exact (Int.floor_nonneg.mpr (div_nonneg hnonneg (lastBit_pos x).le)).trans
    (floor_le_roundHalfEven _)

/-- The exponent of a number between two powers of two. -/
theorem lastBit_of_mem {e : ℤ} (hle : 2 ^ e ≤ x) (hlt : x < 2 ^ (e + 1)) :
    lastBit x = 2 ^ (e - 23) := by
  have hpos : 0 < x := (zpow_pos two_pos e).trans_le hle
  have hlow : e ≤ Int.log 2 x := (Int.zpow_le_iff_le_log (by decide) hpos).mp (by exact_mod_cast hle)
  have hhigh : Int.log 2 x < e + 1 :=
    (Int.lt_zpow_iff_log_lt (by decide) hpos).mp (by exact_mod_cast hlt)
  rw [lastBit, abs_of_pos hpos, show Int.log 2 x = e by omega]

/-- A power of two is not passed. -/
theorem toFloat_le_zpow {e : ℤ} (hnonneg : 0 ≤ x) (hlt : x < 2 ^ e) :
    toFloat x ≤ 2 ^ e := by
  rcases hnonneg.eq_or_lt with rfl | hpos
  · have hzero : toFloat (0 : K) = 0 := by simp [toFloat, roundHalfEven]
    rw [hzero]
    exact (zpow_pos two_pos e).le
  · have hlog : Int.log 2 x < e := (Int.lt_zpow_iff_log_lt (by decide) hpos).mp (by exact_mod_cast hlt)
    have hself : x < 2 ^ (Int.log 2 x + 1) := by
      have hself := Int.lt_zpow_succ_log_self (b := 2) (by decide) x
      exact_mod_cast hself
    have hbit : lastBit x = 2 ^ (Int.log 2 x - 23) := by rw [lastBit, abs_of_pos hpos]
    have hround : roundHalfEven (x / lastBit x) ≤ 2 ^ 24 := by
      refine roundHalfEven_le ?_
      have hscaled : x / lastBit x < (2 ^ 24 : ℤ) := by
        rw [div_lt_iff₀ (lastBit_pos x), hbit, two_pow_mul_zpow]
        exact hself
      linarith
    calc toFloat x ≤ (2 ^ 24 : ℤ) * lastBit x :=
          mul_le_mul_of_nonneg_right (Int.cast_le.mpr hround) (lastBit_pos x).le
      _ = 2 ^ (Int.log 2 x + 1) := by
          rw [hbit, two_pow_mul_zpow]
          rfl
      _ ≤ 2 ^ e := zpow_le_zpow_right₀ one_le_two (by omega)

/-- Below the middle between the last number of single precision before `2 ^ 31` and `2 ^ 31`. -/
theorem toFloat_le (hnonneg : 0 ≤ x) (hlt : x < 2 ^ 31 - 64) :
    toFloat x ≤ 2 ^ 31 - 128 := by
  rcases lt_or_ge x (2 ^ (30 : ℤ)) with hsmall | hlarge
  · refine (toFloat_le_zpow hnonneg hsmall).trans ?_
    norm_num
  · have hbit : lastBit x = 128 := by
      rw [lastBit_of_mem hlarge (by norm_num at hlt ⊢; linarith)]
      norm_num
    have hround : roundHalfEven (x / lastBit x) ≤ 2 ^ 24 - 1 := by
      refine roundHalfEven_le ?_
      rw [hbit, div_lt_iff₀ (by norm_num)]
      push_cast
      norm_num at hlt ⊢
      linarith
    have hcast : ((roundHalfEven (x / lastBit x) : ℤ) : K) ≤ 2 ^ 24 - 1 := by exact_mod_cast hround
    rw [toFloat, hbit] at *
    norm_num at hcast ⊢
    linarith

theorem le_toFloat (hle : 2 ^ 31 - 64 ≤ x) : 2 ^ 31 ≤ toFloat x := by
  rcases lt_or_ge x (2 ^ (31 : ℤ)) with hsmall | hlarge
  · have hbit : lastBit x = 128 := by
      rw [lastBit_of_mem (e := 30) (by norm_num at hle ⊢; linarith) hsmall]
      norm_num
    have hround : 2 ^ 24 - 1 < roundHalfEven (x / lastBit x) := by
      refine lt_roundHalfEven (by decide) ?_
      rw [hbit, le_div_iff₀ (by norm_num)]
      push_cast
      norm_num at hle ⊢
      linarith
    have hcast : (2 : K) ^ 24 ≤ ((roundHalfEven (x / lastBit x) : ℤ) : K) := by
      exact_mod_cast Int.le_of_sub_one_lt hround
    rw [toFloat, hbit] at *
    norm_num at hcast ⊢
    linarith
  · have hpos : 0 < x := (zpow_pos two_pos _).trans_le hlarge
    have hlog : 31 ≤ Int.log 2 x :=
      (Int.zpow_le_iff_le_log (by decide) hpos).mp (by exact_mod_cast hlarge)
    have hself : 2 ^ Int.log 2 x ≤ x := by
      have hself := Int.zpow_log_le_self (b := 2) (by decide) hpos
      exact_mod_cast hself
    have hbit : lastBit x = 2 ^ (Int.log 2 x - 23) := by rw [lastBit, abs_of_pos hpos]
    have hscaled : ((2 ^ 23 : ℤ) : K) ≤ x / lastBit x := by
      rw [le_div_iff₀ (lastBit_pos x), hbit, two_pow_mul_zpow]
      convert hself using 2
      norm_num
    have hround : (2 ^ 23 : ℤ) ≤ roundHalfEven (x / lastBit x) :=
      (Int.le_floor.mpr hscaled).trans (floor_le_roundHalfEven _)
    calc (2 : K) ^ 31 ≤ 2 ^ Int.log 2 x := by
          rw [← zpow_natCast]
          exact zpow_le_zpow_right₀ one_le_two (by exact_mod_cast hlog)
      _ = (2 ^ 23 : ℤ) * lastBit x := by
          rw [hbit, two_pow_mul_zpow]
          congr 1
          norm_num
      _ ≤ toFloat x := mul_le_mul_of_nonneg_right (Int.cast_le.mpr hround) (lastBit_pos x).le

theorem isInt32_roundf_iff (hnonneg : 0 ≤ x) :
    IsInt32 (roundf x) ↔ x < 2 ^ 31 - 64 := by
  have hfloat := toFloat_nonneg hnonneg
  rw [roundf, roundAway, if_pos hfloat]
  constructor
  · rintro ⟨_, hlt⟩
    by_contra hlarge
    have hle : (2 ^ 31 : ℤ) ≤ ⌊toFloat x + 1 / 2⌋ := by
      refine Int.le_floor.mpr ?_
      push_cast
      linarith [le_toFloat (not_lt.mp hlarge)]
    exact absurd hlt (not_lt.mpr hle)
  · intro hlt
    have hle := toFloat_le hnonneg hlt
    constructor
    · refine le_trans (by norm_num) (Int.floor_nonneg.mpr (?_ : 0 ≤ toFloat x + 1 / 2))
      linarith
    · refine Int.floor_lt.mpr ?_
      push_cast
      linarith

theorem roundf_nonneg (hnonneg : 0 ≤ x) : 0 ≤ roundf x := by
  have hfloat := toFloat_nonneg hnonneg
  rw [roundf, roundAway, if_pos hfloat]
  exact Int.floor_nonneg.mpr (by linarith)

end AutowareUniverse.Library.SinglePrecision

namespace AutowareUniverse.Library.TruncatingSum

/-! ## Sums kept in an integer -/

open Library.SinglePrecision

variable {K : Type} [Field K] [LinearOrder K] [FloorRing K]

/-- Rounding toward zero. -/
def truncate (x : K) : ℤ :=
  if 0 ≤ x then ⌊x⌋ else ⌈x⌉

/-- The conversion to `int`, undefined outside the range of `int`. -/
def toInt (x : K) : Option ℤ :=
  if IsInt32 (truncate x) then some (truncate x) else none

/-- `std::accumulate` with a total of type `int` over fractions. -/
def accumulate : ℤ → List K → Option ℤ
  | total, [] => some total
  | total, value :: rest => (toInt (total + value)).bind fun next => accumulate next rest

variable [IsStrictOrderedRing K] {side : ℤ} (hside : side = 1 ∨ side = -1)

include hside

theorem truncate_mul_side {x : K} (hx : 0 ≤ x) :
    truncate (side * x) = side * ⌊x⌋ := by
  rcases hside with rfl | rfl
  · simp [truncate, hx]
  · rcases hx.eq_or_lt with rfl | hpos
    · simp [truncate]
    · have hneg : ¬ 0 ≤ -x := by linarith
      simp [truncate, hneg, Int.ceil_neg]

theorem isInt32_mul_side_of_le {smaller : ℤ} {larger : K}
    (hnonneg : 0 ≤ smaller) (hle : (smaller : K) ≤ larger)
    (hlower : -2 ^ 31 ≤ side * larger) (hupper : side * larger < 2 ^ 31) :
    IsInt32 (side * smaller) := by
  rcases hside with rfl | rfl
  · have hlt : (smaller : K) < (2 ^ 31 : ℤ) := by
      push_cast at hupper ⊢
      linarith
    have hlt' := Int.cast_lt.mp hlt
    constructor <;> omega
  · have hlt : ((-2 ^ 31 : ℤ) : K) ≤ (-smaller : ℤ) := by
      push_cast at hlower ⊢
      linarith
    have hlt' := Int.cast_le.mp hlt
    constructor <;> omega

theorem toInt_mul_side {x : K} (hx : 0 ≤ x) :
    toInt (side * x) = if IsInt32 (side * ⌊x⌋) then some (side * ⌊x⌋) else none := by
  rw [toInt, truncate_mul_side hside hx]

/-- The step of a run from a total and a value on the same side. -/
theorem accumulate_cons {total : ℤ} (htotal : 0 ≤ total)
    {value : K} (hvalue : 0 ≤ value) (rest : List K) :
    accumulate (side * total) (side * value :: rest) =
      if IsInt32 (side * (total + ⌊value⌋)) then
        accumulate (side * (total + ⌊value⌋)) rest
      else none := by
  have hsum : ((side * total : ℤ) : K) + side * value = side * (total + value) := by
    push_cast
    ring
  have hnonneg : (0 : K) ≤ total + value := by
    have hcast : (0 : K) ≤ total := by exact_mod_cast htotal
    linarith
  rw [accumulate, hsum, toInt_mul_side hside hnonneg, Int.floor_intCast_add]
  split
  · rfl
  · rfl

/-- The kept total never lies farther from zero than the exact one. -/
theorem le_of_accumulate_eq_some {values : List K}
    {total result : ℤ} (htotal : 0 ≤ total) (hvalues : ∀ value ∈ values, 0 ≤ value)
    (hresult : accumulate (side * total) (values.map fun value => (side : K) * value) = some result) :
    (side * result : K) ≤ total + values.sum := by
  induction values generalizing total with
  | nil =>
    rw [List.map_nil, accumulate, Option.some.injEq] at hresult
    rw [← hresult]
    rcases hside with rfl | rfl <;> simp
  | cons value rest ih =>
    have hvalue := hvalues value (List.mem_cons_self ..)
    rw [List.map_cons, accumulate_cons hside htotal hvalue] at hresult
    split at hresult
    · have hfloor : 0 ≤ ⌊value⌋ := Int.floor_nonneg.mpr hvalue
      have hle := ih (by omega)
        (fun other hother => hvalues other (List.mem_cons_of_mem _ hother)) hresult
      have hbelow := Int.floor_le value
      rw [List.sum_cons]
      push_cast at hle
      linarith
    · cases hresult

/--
From an `int` on one side of zero, adding values of that side keeps the exact
total when they are whole and it is an `int`, and not otherwise.
-/
theorem accumulate_eq_iff {values : List K} {total : ℤ}
    (htotal : 0 ≤ total) (hint : IsInt32 (side * total)) (hvalues : ∀ value ∈ values, 0 ≤ value) :
    (accumulate (side * total) (values.map fun value => (side : K) * value)).map (Int.cast : ℤ → K) =
        some (side * (total + values.sum)) ↔
      (∀ value ∈ values, ∃ whole : ℕ, value = whole) ∧ -2 ^ 31 ≤ side * (total + values.sum) ∧
        side * (total + values.sum) < 2 ^ 31 := by
  induction values generalizing total with
  | nil =>
    obtain ⟨hlower, hupper⟩ := hint
    have hlower' : ((-2 ^ 31 : ℤ) : K) ≤ (side * total : ℤ) := Int.cast_le.mpr hlower
    have hupper' : ((side * total : ℤ) : K) < (2 ^ 31 : ℤ) := Int.cast_lt.mpr hupper
    push_cast at hlower' hupper'
    have hbounds : (-2 ^ 31 : K) ≤ side * total ∧ (side * total : K) < 2 ^ 31 := by
      constructor <;> linarith
    simp [accumulate, hbounds]
  | cons value rest ih =>
    have hvalue := hvalues value (List.mem_cons_self ..)
    have hrest : ∀ other ∈ rest, 0 ≤ other :=
      fun other hother => hvalues other (List.mem_cons_of_mem _ hother)
    have hfloor : 0 ≤ ⌊value⌋ := Int.floor_nonneg.mpr hvalue
    have hsum : 0 ≤ rest.sum := List.sum_nonneg hrest
    rw [List.map_cons, accumulate_cons hside htotal hvalue]
    by_cases hwhole : ∃ whole : ℕ, value = whole
    · obtain ⟨whole, rfl⟩ := hwhole
      have hexact : (total : K) + (whole + rest.sum) =
          ((total + whole : ℤ) : K) + rest.sum := by
        push_cast
        ring
      rw [Int.floor_natCast, List.sum_cons, hexact]
      by_cases hnext : IsInt32 (side * (total + whole))
      · rw [if_pos hnext, ih (by omega) hnext hrest]
        simp
      · rw [if_neg hnext]
        constructor
        · intro hnone
          cases hnone
        · rintro ⟨-, hlower, hupper⟩
          exact absurd (isInt32_mul_side_of_le hside (by omega)
            (le_add_of_nonneg_right hsum) hlower hupper) hnext
    · constructor
      · intro hresult
        exfalso
        split at hresult
        · obtain ⟨result, hrun, hcast⟩ := Option.map_eq_some_iff.mp hresult
          have hle := le_of_accumulate_eq_some hside (by omega) hrest hrun
          rw [hcast, List.sum_cons] at hle
          -- The fraction of this value is gone for good.
          have hlt : (⌊value⌋ : K) < value := by
            refine lt_of_le_of_ne (Int.floor_le value) fun heq => hwhole ⟨⌊value⌋.toNat, ?_⟩
            rw [← Int.cast_natCast, Int.toNat_of_nonneg hfloor]
            exact heq.symm
          have hsquare : (side : K) * side = 1 := by
            rcases hside with rfl | rfl <;> simp
          push_cast at hle
          rw [← mul_assoc, hsquare] at hle
          linarith
        · cases hresult
      · rintro ⟨hall, -⟩
        exact absurd (hall value (List.mem_cons_self ..)) hwhole

end AutowareUniverse.Library.TruncatingSum
