import AutowareUniverse.Common.Interpolation
import AutowareUniverse.Library.CubicSpline
import Mathlib.Data.List.GetD

/-!
# The natural cubic spline

The tridiagonal elimination takes the entry above the diagonal from the row before, so the
second derivatives solve a neighbouring system.  They are those of the natural cubic spline
if and only if the spline has no second derivative where the spacing of the keys changes.
-/

namespace AutowareUniverse.Common.Interpolation

open Library Library.Fallible Library.CubicSpline

variable {K : Type} [Field K]

def TDMACoef.system (coef : TDMACoef K) : Tridiagonal K where
  sub := coef.a
  diag := coef.b
  super i := coef.c (i - 1)
  rhs := coef.d

theorem sweep_eq (coef : TDMACoef K) (i : ℕ) : sweep coef i = coef.system.eliminated i := by
  induction i with
  | zero => rfl
  | succ i ih =>
    rw [sweep, Tridiagonal.eliminated, ih]
    rfl

def Substituted (coef : TDMACoef K) (row : ℕ) (solved : List K) : Prop :=
  ∀ k, k < solved.length → solved.getD k 0 =
    (sweep coef (row + k)).1 * solved.getD (k + 1) 0 + (sweep coef (row + k)).2

variable {coef : TDMACoef K} {numRow : ℕ}

theorem Substituted.cons {row : ℕ} {solved : List K} {value : K}
    (hsolved : Substituted coef (row + 1) solved)
    (hvalue : value = (sweep coef row).1 * solved.getD 0 0 + (sweep coef row).2) :
    Substituted coef row (value :: solved) := by
  intro k hk
  cases k with
  | zero => exact hvalue
  | succ k =>
    have hrow := hsolved k (Nat.lt_of_succ_lt_succ hk)
    rw [Nat.add_right_comm, Nat.add_assoc] at hrow
    exact hrow

theorem substitute_spec {row : ℕ} (solved : List K) (hlength : row + solved.length = numRow)
    (hsolved : Substituted coef row solved) :
    (substitute coef numRow row solved).length = numRow ∧
      Substituted coef 0 (substitute coef numRow row solved) := by
  induction row generalizing solved with
  | zero => exact ⟨by rw [← hlength, Nat.zero_add]; rfl, hsolved⟩
  | succ row ih =>
    cases solved with
    | nil =>
      have hrow : numRow - 1 = row := by
        rw [List.length_nil] at hlength
        omega
      refine ih [_] ?_ (hsolved.cons ?_)
      · rw [List.length_singleton, ← hlength, List.length_nil]
      · rw [hrow, List.getD_nil, mul_zero, zero_add]
    | cons next later =>
      refine ih (_ :: next :: later) ?_ (hsolved.cons rfl)
      simp only [List.length_cons] at hlength ⊢
      omega

variable (coef numRow) in
theorem solveTridiagonalMatrixAlgorithm_spec :
    (solveTridiagonalMatrixAlgorithm coef numRow).length = numRow ∧
      Substituted coef 0 (solveTridiagonalMatrixAlgorithm coef numRow) := by
  rw [solveTridiagonalMatrixAlgorithm]
  split
  · exact substitute_spec [] (Nat.add_zero _) fun k hk => absurd hk k.not_lt_zero
  · rename_i hone
    refine ⟨(not_ne_iff.mp hone).symm, fun k hk => ?_⟩
    cases Nat.lt_one_iff.mp hk
    exact (zero_add _).symm.trans (congrArg (· + _) (mul_zero _).symm)

theorem solveTridiagonalMatrixAlgorithm_solves (hpivot : ∀ i, i < numRow → coef.system.pivot i ≠ 0) :
    coef.system.Solves numRow
      fun i => (solveTridiagonalMatrixAlgorithm coef numRow).getD i 0 := by
  obtain ⟨hlength, hsolved⟩ := solveTridiagonalMatrixAlgorithm_spec coef numRow
  refine (Tridiagonal.solves_iff hpivot).mpr ⟨fun i hi => ?_, ?_⟩
  · have hvalue := hsolved i (hi.trans_eq hlength.symm)
    rw [Nat.zero_add, sweep_eq] at hvalue
    exact hvalue
  · exact List.getD_eq_default _ _ hlength.le

theorem tdmaCoef_a {diffKeys diffValues : ℕ → K} {last i : ℕ} (hi : i + 2 < last) :
    (tdmaCoef (last + 1) diffKeys diffValues).a i = diffKeys (i + 1) :=
  if_pos (by omega)

theorem tdmaCoef_c {diffKeys diffValues : ℕ → K} {last i : ℕ} (hi : i + 2 < last) :
    (tdmaCoef (last + 1) diffKeys diffValues).c i = diffKeys (i + 1) :=
  if_pos (by omega)

section

variable {key value moment : ℕ → K} {diffKeys diffValues : ℕ → K} {last : ℕ}
variable (hkeys : ∀ j, j < last → diffKeys j = spacing key j)
variable (hvalues : ∀ j, j < last → diffValues j = value (j + 1) - value j)

include hkeys hvalues

theorem rhs_eq {i : ℕ} (hi : i + 1 < last) : (tdmaCoef (last + 1) diffKeys diffValues).d i =
      6 * (slope key value (i + 1) - slope key value i) := by
  have hi' := Nat.lt_of_succ_lt hi
  simp only [tdmaCoef, hkeys _ hi, hkeys _ hi', hvalues _ hi, hvalues _ hi']
  rfl

theorem rowHolds_zero_iff (hlast : 1 < last) (hfront : moment 0 = 0) (hback : moment last = 0) :
    (tdmaCoef (last + 1) diffKeys diffValues).system.RowHolds (fun i => moment (i + 1)) 0 ↔
      MomentRow key value moment 0 := by
  have hnext : (tdmaCoef (last + 1) diffKeys diffValues).c 0 * moment 2 =
      spacing key 1 * moment 2 := by
    by_cases htwo : last = 2
    · rw [← htwo, hback, mul_zero, mul_zero]
    · rw [tdmaCoef_c (by omega), hkeys 1 hlast]
  have hd := rhs_eq hkeys hvalues (i := 0) hlast
  change _ * _ + _ * _ = _ ↔ _ + _ + _ = _
  rw [hfront, mul_zero, zero_add]
  change (2 * (diffKeys 0 + diffKeys 1)) * moment 1 +
    (tdmaCoef (last + 1) diffKeys diffValues).c 0 * moment 2 =
      (tdmaCoef (last + 1) diffKeys diffValues).d 0 ↔ _
  rw [hnext, hd, hkeys 1 hlast, hkeys 0 (by omega)]

theorem rowHolds_succ_iff {i : ℕ} (hi : i + 2 < last) :
    (tdmaCoef (last + 1) diffKeys diffValues).system.RowHolds (fun i => moment (i + 1)) (i + 1) ↔
      spacing key (i + 1) * moment (i + 1) +
          2 * (spacing key (i + 1) + spacing key (i + 2)) * moment (i + 2) +
          spacing key (i + 1) * moment (i + 3) =
        6 * (slope key value (i + 2) - slope key value (i + 1)) := by
  have hd := rhs_eq hkeys hvalues (i := i + 1) hi
  change (tdmaCoef (last + 1) diffKeys diffValues).a i * moment (i + 1) +
      2 * (diffKeys (i + 1) + diffKeys (i + 2)) * moment (i + 2) +
      (tdmaCoef (last + 1) diffKeys diffValues).c i * moment (i + 3) =
    (tdmaCoef (last + 1) diffKeys diffValues).d (i + 1) ↔ _
  rw [tdmaCoef_a hi, tdmaCoef_c hi, hd, hkeys (i + 1) (by omega), hkeys (i + 2) hi]

theorem rowHolds_iff_of_same (hfront : moment 0 = 0) (hback : moment last = 0)
    (hsame : ∀ i, i + 3 < last → spacing key (i + 1) = spacing key (i + 2) ∨ moment (i + 3) = 0)
    {i : ℕ} (hi : i + 1 < last) :
    (tdmaCoef (last + 1) diffKeys diffValues).system.RowHolds (fun i => moment (i + 1)) i ↔
      MomentRow key value moment i := by
  cases i with
  | zero => exact rowHolds_zero_iff hkeys hvalues hi hfront hback
  | succ i =>
    have hnext : spacing key (i + 1) * moment (i + 3) = spacing key (i + 2) * moment (i + 3) := by
      by_cases hlast : i + 3 = last
      · rw [hlast, hback, mul_zero, mul_zero]
      · rcases hsame i (by omega) with hspacing | hmoment
        · rw [hspacing]
        · rw [hmoment, mul_zero, mul_zero]
    rw [rowHolds_succ_iff hkeys hvalues hi, hnext]
    rfl

theorem same_of_rowHolds {i : ℕ} (hi : i + 2 < last)
    (hsystem : (tdmaCoef (last + 1) diffKeys diffValues).system.RowHolds
      (fun i => moment (i + 1)) (i + 1))
    (hmoment : MomentRow key value moment (i + 1)) :
    spacing key (i + 1) = spacing key (i + 2) ∨ moment (i + 3) = 0 := by
  rw [rowHolds_succ_iff hkeys hvalues hi] at hsystem
  rw [MomentRow] at hmoment
  have hzero : (spacing key (i + 1) - spacing key (i + 2)) * moment (i + 3) = 0 := by
    linear_combination hsystem - hmoment
  exact (mul_eq_zero.mp hzero).imp_left sub_eq_zero.mp

end

section

variable [LinearOrder K] [IsStrictOrderedRing K]
variable {diffKeys diffValues : ℕ → K} {last : ℕ}

theorem dominant_tdmaCoef (hpositive : ∀ j, j < last → 0 < diffKeys j) :
    Tridiagonal.Dominant (tdmaCoef (last + 1) diffKeys diffValues).system (last - 1) := by
  have hentry : ∀ i, i + 1 < last →
      |(tdmaCoef (last + 1) diffKeys diffValues).c i| ≤ diffKeys (i + 1) := by
    intro i hi
    have hnext := hpositive (i + 1) hi
    by_cases hrow : i + 2 < last
    · rw [tdmaCoef_c hrow, abs_of_pos hnext]
    · have hzero : (tdmaCoef (last + 1) diffKeys diffValues).c i = 0 := if_neg (by omega)
      rw [hzero, abs_zero]
      exact hnext.le
  have hdiag : ∀ i, i + 1 < last → |(tdmaCoef (last + 1) diffKeys diffValues).b i| =
      2 * (diffKeys i + diffKeys (i + 1)) := by
    intro i hi
    have hhere := hpositive i (by omega)
    have hnext := hpositive (i + 1) hi
    exact abs_of_pos (mul_pos two_pos (add_pos hhere hnext))
  constructor
  · intro hrow
    change |(tdmaCoef (last + 1) diffKeys diffValues).c 0| <
      |(tdmaCoef (last + 1) diffKeys diffValues).b 0|
    have hentry := hentry 0 (by omega)
    have hdiag := hdiag 0 (by omega)
    have hfirst := hpositive 0 (by omega)
    have hnext := hpositive 1 (by omega)
    rw [hdiag]
    linarith
  · intro i hi
    change |(tdmaCoef (last + 1) diffKeys diffValues).a i| +
      |(tdmaCoef (last + 1) diffKeys diffValues).c i| <
        |(tdmaCoef (last + 1) diffKeys diffValues).b (i + 1)|
    have hentry := hentry i (by omega)
    have hdiag := hdiag (i + 1) (by omega)
    have hhere := hpositive (i + 1) (by omega)
    have hnext := hpositive (i + 2) (by omega)
    rw [hdiag, tdmaCoef_a (by omega), abs_of_pos hhere]
    linarith

omit [LinearOrder K] [IsStrictOrderedRing K] in
theorem getD_append_zero (values : List K) (i : ℕ) :
    (values ++ [0]).getD i 0 = values.getD i 0 := by
  rcases lt_or_ge i values.length with hi | hi
  · exact List.getD_append _ _ _ _ hi
  · rw [List.getD_append_right _ _ _ _ hi, List.getD_eq_default _ _ hi]
    cases i - values.length <;> rfl

theorem secondDerivatives_spec (hpositive : ∀ j, j < last → 0 < diffKeys j) (hlast : 0 < last) :
    (secondDerivatives (last + 1) diffKeys diffValues).getD last 0 = 0 ∧
      (tdmaCoef (last + 1) diffKeys diffValues).system.Solves (last - 1)
        fun i => (secondDerivatives (last + 1) diffKeys diffValues).getD (i + 1) 0 := by
  have hinner : ∀ i, (secondDerivatives (last + 1) diffKeys diffValues).getD (i + 1) 0 =
      (if 2 < last + 1 then
        solveTridiagonalMatrixAlgorithm (tdmaCoef (last + 1) diffKeys diffValues) (last - 1)
      else []).getD i 0 := by
    intro i
    exact getD_append_zero _ i
  have hsolves : (tdmaCoef (last + 1) diffKeys diffValues).system.Solves (last - 1)
      fun i => (secondDerivatives (last + 1) diffKeys diffValues).getD (i + 1) 0 := by
    simp only [hinner]
    split
    · exact solveTridiagonalMatrixAlgorithm_solves fun i hi =>
        (dominant_tdmaCoef hpositive).pivot_ne_zero hi
    · exact ⟨fun i hi => by omega, List.getD_nil⟩
  refine ⟨?_, hsolves⟩
  have hback := hsolves.last
  rw [Nat.sub_add_cancel hlast] at hback
  exact hback

end

/-! ## The spline -/

namespace SplineInterpolation

noncomputable def segment (self : SplineInterpolation K) (j : ℕ) : Polynomial K :=
  cubic (self.baseKeys.getD j 0) (self.multiSplineCoef.a.getD j 0)
    (self.multiSplineCoef.b.getD j 0) (self.multiSplineCoef.c.getD j 0)
    (self.multiSplineCoef.d.getD j 0)

variable {self : SplineInterpolation K} {j : ℕ} {queryKey value : K}

theorem getD_of_atIndex {values : List K} (hvalue : atIndex values j = .ok value) :
    values.getD j 0 = value := by
  rw [List.getD_eq_getElem?_getD, atIndex_eq_ok.mp hvalue, Option.getD_some]

theorem valueAt_eq (hvalue : self.valueAt j queryKey = .ok value) :
    value = (self.segment j).eval queryKey := by
  obtain ⟨key, hkey, hvalue⟩ := bind_eq_ok.mp hvalue
  obtain ⟨d, hd, hvalue⟩ := bind_eq_ok.mp hvalue
  obtain ⟨c, hc, hvalue⟩ := bind_eq_ok.mp hvalue
  obtain ⟨b, hb, hvalue⟩ := bind_eq_ok.mp hvalue
  obtain ⟨a, ha, hvalue⟩ := bind_eq_ok.mp hvalue
  cases hvalue
  rw [segment, eval_cubic, getD_of_atIndex hkey, getD_of_atIndex ha, getD_of_atIndex hb,
    getD_of_atIndex hc, getD_of_atIndex hd]

theorem diffValueAt_eq (hvalue : self.diffValueAt j queryKey = .ok value) :
    value = (self.segment j).derivative.eval queryKey := by
  obtain ⟨key, hkey, hvalue⟩ := bind_eq_ok.mp hvalue
  obtain ⟨c, hc, hvalue⟩ := bind_eq_ok.mp hvalue
  obtain ⟨b, hb, hvalue⟩ := bind_eq_ok.mp hvalue
  obtain ⟨a, ha, hvalue⟩ := bind_eq_ok.mp hvalue
  cases hvalue
  rw [segment, eval_derivative_cubic, getD_of_atIndex hkey, getD_of_atIndex ha,
    getD_of_atIndex hb, getD_of_atIndex hc]

theorem quadDiffValueAt_eq (hvalue : self.quadDiffValueAt j queryKey = .ok value) :
    value = (self.segment j).derivative.derivative.eval queryKey := by
  obtain ⟨key, hkey, hvalue⟩ := bind_eq_ok.mp hvalue
  obtain ⟨b, hb, hvalue⟩ := bind_eq_ok.mp hvalue
  obtain ⟨a, ha, hvalue⟩ := bind_eq_ok.mp hvalue
  cases hvalue
  rw [segment, eval_derivative_derivative_cubic, getD_of_atIndex hkey, getD_of_atIndex ha,
    getD_of_atIndex hb]

end SplineInterpolation

variable {baseKeys baseValues : List K} {j : ℕ}

theorem differences_getD (values : List K) (hj : j + 1 < values.length) :
    (differences values).getD j 0 = values.getD (j + 1) 0 - values.getD j 0 := by
  have hj' := Nat.lt_of_succ_lt hj
  have hentry : (differences values)[j]? = some (values[j + 1] - values[j]) := by
    rw [differences, List.getElem?_zipWith, List.getElem?_tail, List.getElem?_eq_getElem hj,
      List.getElem?_eq_getElem hj']
  rw [List.getD_eq_getElem?_getD, hentry, List.getD_eq_getElem _ _ hj, List.getD_eq_getElem _ _ hj']
  rfl

theorem getD_map_range {change : ℕ → K} {count j : ℕ} (hj : j < count) :
    ((List.range count).map change).getD j 0 = change j := by
  rw [List.getD_eq_getElem?_getD, List.getElem?_map, List.getElem?_range hj]
  rfl

def calculatedMoment (baseKeys baseValues : List K) (i : ℕ) : K :=
  (secondDerivatives baseKeys.length (fun i => (differences baseKeys).getD i 0)
    fun i => (differences baseValues).getD i 0).getD i 0

theorem calcSplineCoefficients_segment
    (hvalues : validateKeysAndValues baseKeys baseValues = .ok ()) :
    ∃ self, calcSplineCoefficients baseKeys baseValues = .ok self ∧
      ∀ j, j < baseKeys.length - 1 → self.segment j =
        ofMoments (baseKeys.getD · 0) (baseValues.getD · 0)
          (calculatedMoment baseKeys baseValues) j := by
  have hlength := validateKeysAndValues_eq_ok hvalues
  refine ⟨_, bind_eq_ok.mpr ⟨(), hvalues, rfl⟩, fun j hj => ?_⟩
  have hkey := differences_getD baseKeys (show j + 1 < _ by omega)
  have hvalue := differences_getD baseValues (show j + 1 < _ by omega)
  simp only [SplineInterpolation.segment, getD_map_range hj, hkey, hvalue]
  rfl

def CalculatesNaturalSpline (baseKeys baseValues : List K) : Prop :=
  ∃ self, calcSplineCoefficients baseKeys baseValues = .ok self ∧
    IsNatural (baseKeys.getD · 0) (baseValues.getD · 0) (baseKeys.length - 1) self.segment

/-- From the fourth key on, the second derivative at an inner key is zero or the two segments
before the key have the same length. -/
def FlatWhereSpacingChanges (baseKeys : List K) (moment : ℕ → K) : Prop :=
  ∀ i, i + 3 < baseKeys.length - 1 →
    spacing (baseKeys.getD · 0) (i + 1) = spacing (baseKeys.getD · 0) (i + 2) ∨ moment (i + 3) = 0

variable [LinearOrder K] [IsStrictOrderedRing K]

theorem spacing_pos (hkeys : baseKeys.Pairwise (· < ·)) (hj : j < baseKeys.length - 1) :
    0 < spacing (baseKeys.getD · 0) j := by
  have hnext : j + 1 < baseKeys.length := by omega
  rw [spacing, List.getD_eq_getElem _ _ hnext, List.getD_eq_getElem _ _ (Nat.lt_of_succ_lt hnext),
    sub_pos]
  exact List.pairwise_iff_getElem.mp hkeys _ _ _ _ j.lt_succ_self

/-- What relates the input to the system that is solved. -/
structure Splined (baseKeys baseValues : List K) (last : ℕ) : Prop where
  length_eq : baseKeys.length = last + 1
  valid : validateKeysAndValues baseKeys baseValues = .ok ()
  increasing : baseKeys.Pairwise (· < ·)
  last_pos : 0 < last

namespace Splined

variable {last : ℕ} (hsplined : Splined baseKeys baseValues last)

include hsplined

section
omit [IsStrictOrderedRing K]

theorem diffKeys_eq (hj : j < last) :
    (differences baseKeys).getD j 0 = spacing (baseKeys.getD · 0) j :=
  differences_getD _ (by rw [hsplined.length_eq]; exact Nat.succ_lt_succ hj)

theorem diffValues_eq (hj : j < last) :
    (differences baseValues).getD j 0 = baseValues.getD (j + 1) 0 - baseValues.getD j 0 := by
  refine differences_getD _ ?_
  rw [← validateKeysAndValues_eq_ok hsplined.valid, hsplined.length_eq]
  exact Nat.succ_lt_succ hj

end

theorem spacing_pos (hj : j < last) : 0 < spacing (baseKeys.getD · 0) j :=
  Interpolation.spacing_pos hsplined.increasing (by rw [hsplined.length_eq]; exact hj)

theorem positive (hj : j < last) : 0 < (differences baseKeys).getD j 0 :=
  hsplined.diffKeys_eq hj ▸ hsplined.spacing_pos hj

/-- The system for the second derivatives of the input. -/
theorem solves : calculatedMoment baseKeys baseValues last = 0 ∧
    (tdmaCoef (last + 1) (fun i => (differences baseKeys).getD i 0)
      fun i => (differences baseValues).getD i 0).system.Solves (last - 1)
      fun i => calculatedMoment baseKeys baseValues (i + 1) := by
  unfold calculatedMoment
  rw [hsplined.length_eq]
  exact secondDerivatives_spec (fun j hj => hsplined.positive hj) hsplined.last_pos

variable {moment : ℕ → K}

omit [IsStrictOrderedRing K] in
theorem row_iff (hfront : moment 0 = 0) (hback : moment last = 0)
    (hflat : FlatWhereSpacingChanges baseKeys moment) {i : ℕ} (hi : i + 1 < last) :
    (tdmaCoef (last + 1) (fun i => (differences baseKeys).getD i 0)
        fun i => (differences baseValues).getD i 0).system.RowHolds (fun i => moment (i + 1)) i ↔
      MomentRow (baseKeys.getD · 0) (baseValues.getD · 0) moment i := by
  rw [FlatWhereSpacingChanges, hsplined.length_eq] at hflat
  exact rowHolds_iff_of_same (fun j hj => hsplined.diffKeys_eq hj)
    (fun j hj => hsplined.diffValues_eq hj) hfront hback hflat hi

theorem isNatural_iff : IsNatural (baseKeys.getD · 0) (baseValues.getD · 0) last
        (ofMoments (baseKeys.getD · 0) (baseValues.getD · 0) moment) ↔
      moment 0 = 0 ∧ moment last = 0 ∧ ∀ j, j + 1 < last →
        MomentRow (baseKeys.getD · 0) (baseValues.getD · 0) moment j :=
  isNatural_ofMoments_iff (fun _ hj => (hsplined.spacing_pos hj).ne') hsplined.last_pos

omit [IsStrictOrderedRing K] in
theorem calculates_iff_isNatural : CalculatesNaturalSpline baseKeys baseValues ↔
    IsNatural (baseKeys.getD · 0) (baseValues.getD · 0) last
      (ofMoments (baseKeys.getD · 0) (baseValues.getD · 0)
        (calculatedMoment baseKeys baseValues)) := by
  obtain ⟨self, hself, hsegment⟩ := calcSplineCoefficients_segment hsplined.valid
  rw [CalculatesNaturalSpline, hsplined.length_eq, Nat.add_sub_cancel]
  rw [hsplined.length_eq, Nat.add_sub_cancel] at hsegment
  constructor
  · rintro ⟨_, hother, hnatural⟩
    cases hself.symm.trans hother
    exact hnatural.congr hsplined.last_pos fun j hj => (hsegment j hj).symm
  · exact fun hnatural => ⟨self, hself, hnatural.congr hsplined.last_pos hsegment⟩

theorem calculates_iff_flat : CalculatesNaturalSpline baseKeys baseValues ↔
    FlatWhereSpacingChanges baseKeys (calculatedMoment baseKeys baseValues) := by
  obtain ⟨hback, hsolves⟩ := hsplined.solves
  rw [hsplined.calculates_iff_isNatural, hsplined.isNatural_iff]
  constructor
  · rintro ⟨_, _, hrows⟩ i hi
    rw [hsplined.length_eq] at hi
    exact same_of_rowHolds (fun _ hj => hsplined.diffKeys_eq hj)
      (fun _ hj => hsplined.diffValues_eq hj) (by omega) (hsolves.row (i + 1) (by omega))
      (hrows (i + 1) (by omega))
  · exact fun hflat => ⟨rfl, hback, fun j hj =>
      (hsplined.row_iff rfl hback hflat hj).mp (hsolves.row j (by omega))⟩

/-- A natural spline that is flat where the spacing changes solves the system of the code. -/
theorem calculatedMoment_eq (hnatural : IsNatural (baseKeys.getD · 0) (baseValues.getD · 0) last
      (ofMoments (baseKeys.getD · 0) (baseValues.getD · 0) moment))
    (hflat : FlatWhereSpacingChanges baseKeys moment) {i : ℕ} (hi : i < last) :
    calculatedMoment baseKeys baseValues (i + 1) = moment (i + 1) := by
  obtain ⟨hfront, hback, hrows⟩ := hsplined.isNatural_iff.mp hnatural
  have hmoment : (tdmaCoef (last + 1) (fun i => (differences baseKeys).getD i 0)
      fun i => (differences baseValues).getD i 0).system.Solves (last - 1)
      fun i => moment (i + 1) := by
    refine ⟨fun i hi => ?_, ?_⟩
    · have hi : i + 1 < last := by omega
      exact (hsplined.row_iff hfront hback hflat hi).mpr (hrows i hi)
    · rw [Nat.sub_add_cancel hsplined.last_pos]
      exact hback
  exact hsplined.solves.2.unique
    (fun i hi => (dominant_tdmaCoef fun _ hj => hsplined.positive hj).pivot_ne_zero hi)
    hmoment (by omega)

end Splined

omit [Field K] [IsStrictOrderedRing K] in
theorem splined_of_length (hkeys : baseKeys.Pairwise (· < ·)) (htwo : 2 ≤ baseKeys.length)
    (hlength : baseKeys.length = baseValues.length) :
    Splined baseKeys baseValues (baseKeys.length - 1) :=
  ⟨by omega, validateKeysAndValues_ok htwo hlength, hkeys, by omega⟩

def NaturalSplineFlat (baseKeys baseValues : List K) : Prop :=
  ∃ moment, IsNatural (baseKeys.getD · 0) (baseValues.getD · 0) (baseKeys.length - 1)
      (ofMoments (baseKeys.getD · 0) (baseValues.getD · 0) moment) ∧
    FlatWhereSpacingChanges baseKeys moment

/-- The natural cubic spline is calculated if and only if it has no second derivative at each
inner key, from the fourth key on, with segments of different length before it. -/
theorem calculatesNaturalSpline_iff (hkeys : baseKeys.Pairwise (· < ·))
    (htwo : 2 ≤ baseKeys.length) (hlength : baseKeys.length = baseValues.length) :
    CalculatesNaturalSpline baseKeys baseValues ↔ NaturalSplineFlat baseKeys baseValues := by
  have hsplined := splined_of_length hkeys htwo hlength
  constructor
  · intro hcalculates
    exact ⟨_, hsplined.calculates_iff_isNatural.mp hcalculates,
      hsplined.calculates_iff_flat.mp hcalculates⟩
  · rintro ⟨moment, hnatural, hflat⟩
    refine hsplined.calculates_iff_flat.mpr fun i hi => (hflat i hi).imp_right fun hzero => ?_
    rw [hsplined.calculatedMoment_eq hnatural hflat (Nat.lt_of_succ_lt hi), hzero]

theorem calculatesNaturalSpline_fourKeys : CalculatesNaturalSpline [0, 1, 2, (4 : ℚ)] [0, 0, 0, 1] ↔
      NaturalSplineFlat [0, 1, 2, (4 : ℚ)] [0, 0, 0, 1] :=
  calculatesNaturalSpline_iff (by decide +kernel) (by decide) rfl

/-- The third of four segments is longer than the second one, and the spline is bent at the
key between the third and the last. -/
theorem calculatesNaturalSpline_not : ([0, 1, 2, 4, 5] : List ℚ).Pairwise (· < ·) ∧
      ¬ CalculatesNaturalSpline [0, 1, 2, 4, (5 : ℚ)] [0, 0, 0, 0, 1] := by
  have hkeys : ([0, 1, 2, 4, 5] : List ℚ).Pairwise (· < ·) := by decide +kernel
  refine ⟨hkeys, fun hcalculates => ?_⟩
  have hsplined : Splined [0, 1, 2, 4, (5 : ℚ)] [0, 0, 0, 0, 1] 4 :=
    splined_of_length hkeys (by decide) rfl
  rcases hsplined.calculates_iff_flat.mp hcalculates 0 (by decide) with hspacing | hmoment
  · exact absurd hspacing (by decide +kernel)
  · exact absurd hmoment (by decide +kernel)

end AutowareUniverse.Common.Interpolation
