import AutowareUniverse.Library.Covariance
import AutowareUniverse.Library.Runs
import Mathlib.Data.Rat.Star

/-!
# The Kalman filter

The entries of the matrices are taken from a field, so that the arithmetic is
exact.  A matrix that is passed to the filter has its size at run time.  Inside
the filter a size that the filter has fixed is part of the type, and a check or
an assertion of a size is made where an argument is given its type.
-/

namespace AutowareUniverse.Common

open Matrix

/-- `Eigen::MatrixXd`. -/
structure MatrixXd (K : Type*) where
  rows : ℕ
  cols : ℕ
  coeff : Matrix (Fin rows) (Fin cols) K

namespace MatrixXd

variable {K : Type*}

def of {rows cols : ℕ} (coeff : Matrix (Fin rows) (Fin cols) K) : MatrixXd K :=
  ⟨rows, cols, coeff⟩

def sized? (self : MatrixXd K) (rows cols : ℕ) : Option (Matrix (Fin rows) (Fin cols) K) :=
  if hsize : rows = self.rows ∧ cols = self.cols then
    some (self.coeff.submatrix (Fin.cast hsize.1) (Fin.cast hsize.2))
  else none

@[simp]
theorem sized?_of {rows cols : ℕ} (coeff : Matrix (Fin rows) (Fin cols) K) :
    (of coeff).sized? rows cols = some coeff :=
  dif_pos ⟨rfl, rfl⟩

theorem sized?_rows {self : MatrixXd K} {rows cols : ℕ} {coeff : Matrix (Fin rows) (Fin cols) K}
    (hsized : self.sized? rows cols = some coeff) : rows = self.rows := by
  unfold sized? at hsized
  split at hsized
  next hsize => exact hsize.1
  next => cases hsized

end MatrixXd

/-- A failed assertion of Eigen on the sizes of matrices or the bounds of a block. -/
inductive KalmanFilter.Failure where
  | assertionFailed
  | uninitialized
  deriving DecidableEq

/-! ## Blocks -/

section

variable {K : Type*} {rows cols : ℕ}

def block (matrix : Matrix (Fin rows) (Fin cols) K) (startRow startCol r c : ℕ)
    (hrows : startRow + r ≤ rows) (hcols : startCol + c ≤ cols) : Matrix (Fin r) (Fin c) K :=
  fun i j => matrix ⟨startRow + i, by omega⟩ ⟨startCol + j, by omega⟩

def setBlock {r c : ℕ} (matrix : Matrix (Fin rows) (Fin cols) K) (startRow startCol : ℕ)
    (value : Matrix (Fin r) (Fin c) K) (_ : startRow + r ≤ rows) (_ : startCol + c ≤ cols) :
    Matrix (Fin rows) (Fin cols) K :=
  fun i j =>
    if hinside : (startRow ≤ i ∧ i < startRow + r) ∧ startCol ≤ j ∧ j < startCol + c then
      value ⟨i - startRow, by omega⟩ ⟨j - startCol, by omega⟩
    else matrix i j

theorem block_apply {matrix : Matrix (Fin rows) (Fin cols) K} {startRow startCol r c : ℕ}
    (hrows : startRow + r ≤ rows) (hcols : startCol + c ≤ cols) (i : Fin r) (j : Fin c) :
    block matrix startRow startCol r c hrows hcols i j =
      matrix ⟨startRow + i, by omega⟩ ⟨startCol + j, by omega⟩ :=
  rfl

theorem block_zero {matrix : Matrix (Fin rows) (Fin cols) K} {r c : ℕ} (hrows : 0 + r ≤ rows)
    (hcols : 0 + c ≤ cols) :
    block matrix 0 0 r c hrows hcols =
      matrix.submatrix (Fin.castLE (by omega)) (Fin.castLE (by omega)) := by
  ext i j
  unfold block
  congr 2
  · exact Nat.zero_add _
  · exact Nat.zero_add _

variable {r c : ℕ} {matrix : Matrix (Fin rows) (Fin cols) K} {startRow startCol : ℕ}
  {value : Matrix (Fin r) (Fin c) K} {hrows : startRow + r ≤ rows} {hcols : startCol + c ≤ cols}
  {i : Fin rows} {j : Fin cols}

theorem setBlock_inside
    (hinside : (startRow ≤ i ∧ i < startRow + r) ∧ startCol ≤ j ∧ j < startCol + c) :
    setBlock matrix startRow startCol value hrows hcols i j =
      value ⟨i - startRow, by omega⟩ ⟨j - startCol, by omega⟩ :=
  dif_pos hinside

theorem setBlock_outside
    (houtside : ¬((startRow ≤ i ∧ i < startRow + r) ∧ startCol ≤ j ∧ j < startCol + c)) :
    setBlock matrix startRow startCol value hrows hcols i j = matrix i j :=
  dif_neg houtside

end

/-- The state and its covariance. -/
structure KalmanFilter (K : Type*) (n : ℕ) where
  x : Matrix (Fin n) (Fin 1) K
  P : Matrix (Fin n) (Fin n) K

namespace KalmanFilter

variable {K : Type*} [Field K] {n : ℕ}

def inverse? [DecidableEq K] {m : ℕ} (matrix : Matrix (Fin m) (Fin m) K) :
    Option (Matrix (Fin m) (Fin m) K) :=
  if matrix.det = 0 then none else some (matrix.det⁻¹ • matrix.adjugate)

/-- `update(y, y_pred, C, R)`. -/
def updateWithPrediction [DecidableEq K] (self : KalmanFilter K n) (y yPred C R : MatrixXd K) :
    Except Failure (KalmanFilter K n × Bool) :=
  match C.sized? C.rows n, R.sized? C.rows C.rows with
  | some measurement, some noise =>
    if y.rows = yPred.rows ∧ y.rows = C.rows then
      let PCT := self.P * measurementᵀ
      match inverse? (noise + measurement * PCT) with
      | some inverse =>
        let gain := PCT * inverse
        match y.sized? C.rows 1, yPred.sized? C.rows 1 with
        | some y, some yPred =>
          return (⟨self.x + gain * (y - yPred), self.P - gain * (measurement * self.P)⟩, true)
        | _, _ => throw .assertionFailed
      | none => return (self, false)
    else return (self, false)
  | _, _ => return (self, false)

/-- `update(y, C, R)`. -/
def update [DecidableEq K] (self : KalmanFilter K n) (y C R : MatrixXd K) :
    Except Failure (KalmanFilter K n × Bool) :=
  match C.sized? C.rows n with
  | some measurement => self.updateWithPrediction y (.of (measurement * self.x)) C R
  | none => return (self, false)

/-! ## The covariance -/

theorem mul_inverse? [DecidableEq K] {m : ℕ} {matrix inverse : Matrix (Fin m) (Fin m) K}
    (hinverse : inverse? matrix = some inverse) : inverse * matrix = 1 := by
  unfold inverse? at hinverse
  split at hinverse
  next => cases hinverse
  next hdet =>
      cases hinverse
      rw [Matrix.smul_mul, adjugate_mul, smul_smul, inv_mul_cancel₀ hdet, one_smul]

theorem updateWithPrediction_eq [DecidableEq K] {self : KalmanFilter K n} {y yPred C R : MatrixXd K}
    {measurement : Matrix (Fin C.rows) (Fin n) K}
    {noise inverse : Matrix (Fin C.rows) (Fin C.rows) K}
    {value predicted : Matrix (Fin C.rows) (Fin 1) K}
    (hmeasurement : C.sized? C.rows n = some measurement)
    (hnoise : R.sized? C.rows C.rows = some noise) (hrows : y.rows = yPred.rows)
    (hmeasured : y.rows = C.rows)
    (hinverse : inverse? (noise + measurement * (self.P * measurementᵀ)) = some inverse)
    (hvalue : y.sized? C.rows 1 = some value) (hpredicted : yPred.sized? C.rows 1 = some predicted) :
    let gain := self.P * measurementᵀ * inverse
    self.updateWithPrediction y yPred C R =
      .ok (⟨self.x + gain * (value - predicted), self.P - gain * (measurement * self.P)⟩,
        true) := by
  unfold updateWithPrediction
  rw [hmeasurement, hnoise]
  dsimp only
  rw [if_pos ⟨hrows, hmeasured⟩, hinverse]
  dsimp only
  rw [hvalue, hpredicted]
  rfl

variable [LinearOrder K] [IsStrictOrderedRing K] [StarRing K] [TrivialStar K]

theorem posSemidef_updateWithPrediction {self after : KalmanFilter K n}
    {y yPred C R : MatrixXd K} {updated : Bool} (hP : self.P.PosSemidef)
    (hR : ∀ noise, R.sized? C.rows C.rows = some noise → noise.PosSemidef)
    (hupdate : self.updateWithPrediction y yPred C R = .ok (after, updated)) :
    after.P.PosSemidef := by
  unfold updateWithPrediction at hupdate
  split at hupdate
  next measurement noise hmeasurement hnoise =>
      split at hupdate
      · dsimp only at hupdate
        split at hupdate
        next inverse hinverse =>
            split at hupdate
            · cases hupdate
              apply Library.Covariance.posSemidef_sub_gain_mul hP (hR noise hnoise)
              rw [Matrix.mul_assoc, mul_inverse? hinverse, Matrix.mul_one]
            · cases hupdate
        next =>
            cases hupdate
            exact hP
      · cases hupdate
        exact hP
  next =>
      cases hupdate
      exact hP

theorem posSemidef_update {self after : KalmanFilter K n} {y C R : MatrixXd K} {updated : Bool}
    (hP : self.P.PosSemidef) (hR : ∀ noise, R.sized? C.rows C.rows = some noise → noise.PosSemidef)
    (hupdate : self.update y C R = .ok (after, updated)) : after.P.PosSemidef := by
  unfold update at hupdate
  split at hupdate
  · exact posSemidef_updateWithPrediction hP hR hupdate
  · cases hupdate
    exact hP

theorem update_of_posDef {self : KalmanFilter K n} {m : ℕ} (y : Matrix (Fin m) (Fin 1) K)
    (C : Matrix (Fin m) (Fin n) K) {R : Matrix (Fin m) (Fin m) K} (hP : self.P.PosSemidef)
    (hR : R.PosDef) :
    ∃ after, self.update (.of y) (.of C) (.of R) = .ok (after, true) := by
  have hmeasurement : (MatrixXd.of C).sized? (MatrixXd.of C).rows n = some C := MatrixXd.sized?_of C
  have hinnovation : (R + C * (self.P * Cᵀ)).det ≠ 0 :=
    ((isUnit_iff_isUnit_det _).mp (Library.Covariance.posDef_innovation hP hR).isUnit).ne_zero
  unfold update
  rw [hmeasurement]
  exact ⟨_, updateWithPrediction_eq hmeasurement (MatrixXd.sized?_of R) rfl rfl
    (if_neg hinnovation) (MatrixXd.sized?_of y) (MatrixXd.sized?_of (C * self.x))⟩

end KalmanFilter

open Library.Fallible Library.Runs

/-- The members of the filter after `init`. -/
structure TimeDelayKalmanFilter (K : Type*) where
  maxDelayStep : ℕ
  dimX : ℕ
  filter : KalmanFilter K (dimX * maxDelayStep)
  one_le : 1 ≤ maxDelayStep

namespace TimeDelayKalmanFilter

open KalmanFilter (Failure)

variable {K : Type}

abbrev dimXEx (self : TimeDelayKalmanFilter K) : ℕ := self.dimX * self.maxDelayStep

theorem dimX_le (self : TimeDelayKalmanFilter K) : self.dimX ≤ self.dimXEx :=
  Nat.le_mul_of_pos_right _ self.one_le

theorem block_le {dimX maxDelayStep step : ℕ} (hstep : step < maxDelayStep) :
    dimX * step + dimX ≤ dimX * maxDelayStep := by
  rw [← Nat.mul_succ]
  exact Nat.mul_le_mul_left dimX hstep

/-! ## Operations -/

section

variable [Field K]

/-- The state after some iterations of the loop of `init`. -/
def initX {dimX maxDelayStep : ℕ} (x : Matrix (Fin dimX) (Fin 1) K) :
    (steps : ℕ) → steps ≤ maxDelayStep → Matrix (Fin (dimX * maxDelayStep)) (Fin 1) K
  | 0, _ => 0
  | i + 1, hi => setBlock (initX x i (by omega)) (dimX * i) 0 x (block_le hi) (by omega)

/-- The covariance after some iterations of the loop of `init`. -/
def initP {dimX maxDelayStep : ℕ} (P0 : Matrix (Fin dimX) (Fin dimX) K) :
    (steps : ℕ) → steps ≤ maxDelayStep →
      Matrix (Fin (dimX * maxDelayStep)) (Fin (dimX * maxDelayStep)) K
  | 0, _ => 0
  | i + 1, hi =>
    setBlock (initP P0 i (by omega)) (dimX * i) (dimX * i) P0 (block_le hi) (block_le hi)

def init (x P0 : MatrixXd K) (maxDelayStep : ℕ) (one_le : 1 ≤ maxDelayStep) :
    Except Failure (TimeDelayKalmanFilter K) :=
  match x.sized? x.rows 1, P0.sized? x.rows x.rows with
  | some x', some P0' =>
    return {
      maxDelayStep := maxDelayStep
      dimX := x.rows
      filter := ⟨initX x' maxDelayStep le_rfl, initP P0' maxDelayStep le_rfl⟩
      one_le := one_le }
  | _, _ => throw .assertionFailed

variable (self : TimeDelayKalmanFilter K)

/-- The slid state: the predicted one, and then all but the oldest. -/
def slideX (xNext : Matrix (Fin self.dimX) (Fin 1) K) : Matrix (Fin self.dimXEx) (Fin 1) K :=
  have hdim := self.dimX_le
  let dDimX := self.dimXEx - self.dimX
  let xTmp : Matrix (Fin self.dimXEx) (Fin 1) K := 0
  let xTmp := setBlock xTmp 0 0 xNext (by omega) (by omega)
  setBlock xTmp self.dimX 0 (block self.filter.x 0 0 dDimX 1
    (show 0 + dDimX ≤ self.dimXEx by omega) (by omega)) (by omega) (by omega)

/-- The slid covariance, written in four blocks. -/
def slideP (A Q : Matrix (Fin self.dimX) (Fin self.dimX) K) :
    Matrix (Fin self.dimXEx) (Fin self.dimXEx) K :=
  have hdim := self.dimX_le
  let dDimX := self.dimXEx - self.dimX
  let P : Matrix (Fin self.dimXEx) (Fin self.dimXEx) K := self.filter.P
  let PTmp : Matrix (Fin self.dimXEx) (Fin self.dimXEx) K := 0
  let PTmp := setBlock PTmp 0 0
    (A * block P 0 0 self.dimX self.dimX (by omega) (by omega) * Aᵀ + Q) (by omega) (by omega)
  let PTmp := setBlock PTmp 0 self.dimX
    (A * block P 0 0 self.dimX dDimX (by omega) (by omega)) (by omega) (by omega)
  let PTmp := setBlock PTmp self.dimX 0
    (block P 0 0 dDimX self.dimX (by omega) (by omega) * Aᵀ) (by omega) (by omega)
  setBlock PTmp self.dimX self.dimX
    (block P 0 0 dDimX dDimX (by omega) (by omega)) (by omega) (by omega)

def predictWithDelay (xNext A Q : MatrixXd K) : Except Failure (TimeDelayKalmanFilter K × Bool) :=
  match xNext.sized? self.dimX 1, A.sized? self.dimX self.dimX,
      Q.sized? self.dimX self.dimX with
  | some xNext, some A, some Q =>
    return ({ self with filter := ⟨self.slideX xNext, self.slideP A Q⟩ }, true)
  | _, _, _ => throw .assertionFailed

def updateWithDelay [DecidableEq K] (self : TimeDelayKalmanFilter K) (y C R : MatrixXd K) :
    (delayStep : ℤ) → Except Failure (TimeDelayKalmanFilter K × Bool)
  | .ofNat delayStep =>
    if hdelay : delayStep < self.maxDelayStep then
      match C.sized? y.rows self.dimX with
      | some C =>
        let CEx : Matrix (Fin y.rows) (Fin (self.dimX * self.maxDelayStep)) K :=
          setBlock 0 0 (self.dimX * delayStep) C (by omega) (block_le hdelay)
        (self.filter.update y (.of CEx) R).map fun result =>
          ({ self with filter := result.1 }, result.2)
      | none => throw .assertionFailed
    else return (self, false)
  | .negSucc _ => throw .assertionFailed

inductive Operation (K : Type*) where
  | init (x P0 : MatrixXd K) (maxDelayStep : ℕ) (one_le : 1 ≤ maxDelayStep)
  | predictWithDelay (xNext A Q : MatrixXd K)
  | updateWithDelay (y C R : MatrixXd K) (delayStep : ℤ)

/-- An operation, with the result that it returns.  Without `init` the members have
no values. -/
def perform [DecidableEq K] (state : Option (TimeDelayKalmanFilter K)) :
    Operation K → Except Failure (Option (TimeDelayKalmanFilter K) × List Bool)
  | .init x P0 maxDelayStep one_le =>
    (init x P0 maxDelayStep one_le).map fun self => (some self, [])
  | .predictWithDelay xNext A Q =>
    match state with
    | some self =>
      (self.predictWithDelay xNext A Q).map fun result => (some result.1, [result.2])
    | none => throw .uninitialized
  | .updateWithDelay y C R delayStep =>
    match state with
    | some self =>
      (self.updateWithDelay y C R delayStep).map fun result => (some result.1, [result.2])
    | none => throw .uninitialized

def Step [DecidableEq K] : Option (TimeDelayKalmanFilter K) → Operation K × List Bool →
    Option (TimeDelayKalmanFilter K) → Prop :=
  OfPartial perform

end

section

variable [Field K] {d : ℕ} (N : ℕ)

/-- The matrix `A` of the time delay model. -/
def extendedA (A : Matrix (Fin d) (Fin d) K) : Matrix (Fin N) (Fin N) K :=
  fun i j =>
    if hi : (i : ℕ) < d then
      if hj : (j : ℕ) < d then A ⟨i, hi⟩ ⟨j, hj⟩ else 0
    else if (i : ℕ) = j + d then 1 else 0

/-- The matrix `Q` of the time delay model. -/
def extendedQ (Q : Matrix (Fin d) (Fin d) K) : Matrix (Fin N) (Fin N) K :=
  fun i j => if hinside : (i : ℕ) < d ∧ (j : ℕ) < d then Q ⟨i, hinside.1⟩ ⟨j, hinside.2⟩ else 0

variable {N}

theorem extendedA_mul {c : ℕ} (hd : d ≤ N) (A : Matrix (Fin d) (Fin d) K)
    (M : Matrix (Fin N) (Fin c) K) (i : Fin N) (j : Fin c) :
    (extendedA N A * M) i j =
      if hi : (i : ℕ) < d then (A * M.submatrix (Fin.castLE hd) id) ⟨i, hi⟩ j
      else M ⟨i - d, by omega⟩ j := by
  obtain ⟨e, rfl⟩ := Nat.exists_eq_add_of_le hd
  rw [Matrix.mul_apply]
  split
  next hi =>
      rw [Fin.sum_univ_add, Matrix.mul_apply]
      have hlate : ∀ k : Fin e, extendedA _ A i (Fin.natAdd d k) * M (Fin.natAdd d k) j = 0 := by
        intro k
        simp [extendedA, hi]
      rw [Finset.sum_eq_zero fun k _ => hlate k, add_zero]
      apply Finset.sum_congr rfl
      intro k _
      simp only [extendedA, dif_pos hi, Fin.val_castAdd, Fin.is_lt, dif_pos]
      rfl
  next hi =>
      rw [Finset.sum_eq_single (⟨i - d, by omega⟩ : Fin (d + e))]
      · simp only [extendedA, dif_neg hi]
        rw [if_pos (by omega), one_mul]
      · intro k _ hk
        simp only [extendedA, dif_neg hi]
        rw [if_neg, zero_mul]
        intro heq
        exact hk (Fin.ext (by dsimp only; omega))
      · exact fun habsent => (habsent (Finset.mem_univ _)).elim

theorem mul_extendedA_transpose {r : ℕ} (hd : d ≤ N) (A : Matrix (Fin d) (Fin d) K)
    (M : Matrix (Fin r) (Fin N) K) (i : Fin r) (j : Fin N) :
    (M * (extendedA N A)ᵀ) i j =
      if hj : (j : ℕ) < d then (M.submatrix id (Fin.castLE hd) * Aᵀ) i ⟨j, hj⟩
      else M i ⟨j - d, by omega⟩ := by
  have hslide := extendedA_mul hd A Mᵀ j i
  rw [← Matrix.transpose_apply (extendedA N A * Mᵀ), Matrix.transpose_mul,
    Matrix.transpose_transpose] at hslide
  rw [hslide]
  split
  · rw [← Matrix.transpose_apply (M.submatrix id (Fin.castLE hd) * Aᵀ), Matrix.transpose_mul,
      Matrix.transpose_transpose]
    rfl
  · rfl

end

section

variable [Field K] (self : TimeDelayKalmanFilter K)

/-- The hand-written blocks are those of the product with the extended matrices. -/
theorem slideP_eq (A Q : Matrix (Fin self.dimX) (Fin self.dimX) K) :
    self.slideP A Q = extendedA _ A * self.filter.P * (extendedA _ A)ᵀ + extendedQ _ Q := by
  have hd := self.dimX_le
  ext i j
  have hi := i.isLt
  have hj := j.isLt
  rw [Matrix.add_apply, mul_extendedA_transpose hd]
  unfold slideP extendedQ
  by_cases hrow : (i : ℕ) < self.dimX
  · by_cases hcol : (j : ℕ) < self.dimX
    · rw [setBlock_outside (by omega), setBlock_outside (by omega), setBlock_outside (by omega),
        setBlock_inside (by omega), dif_pos hcol, dif_pos ⟨hrow, hcol⟩, Matrix.add_apply]
      congr 1
      rw [Matrix.mul_apply, Matrix.mul_apply]
      apply Finset.sum_congr rfl
      intro k _
      rw [Matrix.submatrix_apply, extendedA_mul hd]
      rw [id_eq, dif_pos hrow, block_zero]
      rfl
    · rw [setBlock_outside (by omega), setBlock_outside (by omega), setBlock_inside (by omega),
        dif_neg hcol, dif_neg (by omega), add_zero, extendedA_mul hd, dif_pos hrow]
      rw [block_zero]
      rfl
  · by_cases hcol : (j : ℕ) < self.dimX
    · rw [setBlock_outside (by omega), setBlock_inside (by omega), dif_pos hcol,
        dif_neg (by omega), add_zero]
      rw [Matrix.mul_apply, Matrix.mul_apply]
      apply Finset.sum_congr rfl
      intro k _
      rw [Matrix.submatrix_apply, extendedA_mul hd]
      rw [id_eq, dif_neg hrow, block_zero]
      rfl
    · rw [setBlock_inside (by omega), dif_neg hcol, dif_neg (by omega), add_zero,
        extendedA_mul hd, dif_neg hrow, block_zero]
      rfl

variable (xNext : Matrix (Fin self.dimX) (Fin 1) K)

theorem slideX_apply (i : Fin self.dimXEx) (j : Fin 1) : self.slideX xNext i j =
      if hi : (i : ℕ) < self.dimX then xNext ⟨i, hi⟩ j
      else self.filter.x (⟨i - self.dimX, by omega⟩ : Fin self.dimXEx) j := by
  have hd := self.dimX_le
  unfold slideX
  split
  next hi =>
      rw [setBlock_outside (by omega), setBlock_inside (by omega)]
      rfl
  next hi =>
      rw [setBlock_inside (by omega), block_zero]
      rfl

def stateAt (x : Matrix (Fin self.dimXEx) (Fin 1) K) (step : ℕ) (hstep : step < self.maxDelayStep) :
    Matrix (Fin self.dimX) (Fin 1) K :=
  block x (self.dimX * step) 0 self.dimX 1 (block_le hstep) (by omega)

theorem stateAt_zero_slideX :
    self.stateAt (self.slideX xNext) 0 self.one_le = xNext := by
  ext i j
  have hi : self.dimX * 0 + i < self.dimX := by omega
  rw [stateAt, block_apply, slideX_apply, dif_pos hi]
  congr 1
  · apply Fin.ext
    dsimp only
    omega
  · apply Fin.ext
    dsimp only
    omega

theorem stateAt_succ_slideX {step : ℕ} (hstep : step + 1 < self.maxDelayStep) :
    self.stateAt (self.slideX xNext) (step + 1) hstep =
      self.stateAt self.filter.x step (by omega) := by
  ext i j
  have hsucc := Nat.mul_add_one self.dimX step
  have hi : ¬self.dimX * (step + 1) + i < self.dimX := by omega
  rw [stateAt, stateAt, block_apply, block_apply, slideX_apply, dif_neg hi]
  congr 1
  apply Fin.ext
  dsimp only
  omega

end

section

variable [Field K] {d N : ℕ} {start : ℕ}

def embedding (K : Type*) [Field K] (N d start : ℕ) : Matrix (Fin N) (Fin d) K :=
  fun i a => if (i : ℕ) = start + a then 1 else 0

theorem embedding_mul {c : ℕ} (B : Matrix (Fin d) (Fin c) K) (i : Fin N) (j : Fin c) :
    (embedding K N d start * B) i j =
      if hinside : start ≤ i ∧ (i : ℕ) < start + d then B ⟨i - start, by omega⟩ j else 0 := by
  rw [Matrix.mul_apply]
  split
  next hinside =>
      rw [Finset.sum_eq_single (⟨i - start, by omega⟩ : Fin d)]
      · rw [embedding, if_pos (by dsimp only; omega), one_mul]
      · intro a _ ha
        rw [embedding, if_neg, zero_mul]
        intro heq
        exact ha (Fin.ext (by dsimp only; omega))
      · exact fun habsent => (habsent (Finset.mem_univ _)).elim
  next houtside =>
      apply Finset.sum_eq_zero
      intro a _
      rw [embedding, if_neg, zero_mul]
      intro heq
      have ha := a.isLt
      exact houtside (by omega)

theorem setBlock_eq_add {matrix : Matrix (Fin N) (Fin N) K} {B : Matrix (Fin d) (Fin d) K}
    {hrows hcols : start + d ≤ N} (hzero : ∀ i j : Fin N, start ≤ i → start ≤ j → matrix i j = 0) :
    setBlock matrix start start B hrows hcols =
      matrix + embedding K N d start * B * (embedding K N d start)ᵀ := by
  ext i j
  have hcolumns : (embedding K N d start * B * (embedding K N d start)ᵀ) i j =
      (embedding K N d start * (embedding K N d start * B)ᵀ) j i := by
    rw [← Matrix.transpose_apply (embedding K N d start * (embedding K N d start * B)ᵀ),
      Matrix.transpose_mul, Matrix.transpose_transpose]
  rw [Matrix.add_apply, hcolumns, embedding_mul]
  split
  next hcol =>
      rw [Matrix.transpose_apply, embedding_mul]
      split
      next hrow =>
          rw [setBlock_inside ⟨hrow, hcol⟩, hzero i j hrow.1 hcol.1, zero_add]
      next hrow =>
          rw [setBlock_outside fun hinside => hrow hinside.1, add_zero]
  next hcol =>
      rw [setBlock_outside fun hinside => hcol hinside.2, add_zero]

theorem initP_eq_zero {dimX maxDelayStep : ℕ} {P0 : Matrix (Fin dimX) (Fin dimX) K} {steps : ℕ}
    {hsteps : steps ≤ maxDelayStep} {i j : Fin (dimX * maxDelayStep)}
    (hi : dimX * steps ≤ i) : initP P0 steps hsteps i j = 0 := by
  induction steps with
  | zero => rfl
  | succ steps ih =>
    have hsucc := Nat.mul_add_one dimX steps
    unfold initP
    rw [setBlock_outside (by omega)]
    exact ih (by omega)

variable [LinearOrder K] [IsStrictOrderedRing K] [StarRing K] [TrivialStar K]

theorem posSemidef_initP {dimX maxDelayStep : ℕ} {P0 : Matrix (Fin dimX) (Fin dimX) K}
    (hP0 : P0.PosSemidef) {steps : ℕ} (hsteps : steps ≤ maxDelayStep) :
    (initP P0 steps hsteps).PosSemidef := by
  induction steps with
  | zero => exact .zero
  | succ steps ih =>
    unfold initP
    rw [setBlock_eq_add fun i j hi _ => initP_eq_zero hi]
    exact (ih (by omega)).add (Library.Covariance.posSemidef_congruence hP0)

omit [IsStrictOrderedRing K] in
theorem posSemidef_extendedQ (hd : d ≤ N) {Q : Matrix (Fin d) (Fin d) K} (hQ : Q.PosSemidef) :
    (extendedQ N Q).PosSemidef := by
  have hblock : extendedQ N Q = setBlock 0 0 0 Q (by omega) (by omega) := by
    ext i j
    unfold extendedQ
    split
    · rw [setBlock_inside (by omega)]
      rfl
    · rw [setBlock_outside (by omega)]
      rfl
  have hzero : ∀ i j : Fin N, 0 ≤ (i : ℕ) → 0 ≤ (j : ℕ) → (0 : Matrix (Fin N) (Fin N) K) i j = 0 :=
    fun _ _ _ _ => rfl
  rw [hblock, setBlock_eq_add hzero, zero_add]
  exact Library.Covariance.posSemidef_congruence hQ

theorem posSemidef_slideP {self : TimeDelayKalmanFilter K} (hP : self.filter.P.PosSemidef)
    (A : Matrix (Fin self.dimX) (Fin self.dimX) K) {Q : Matrix (Fin self.dimX) (Fin self.dimX) K}
    (hQ : Q.PosSemidef) : (self.slideP A Q).PosSemidef := by
  rw [slideP_eq]
  exact (Library.Covariance.posSemidef_congruence hP).add (posSemidef_extendedQ self.dimX_le hQ)

end

/-! ## Runs -/

section

variable [Field K] [LinearOrder K] [IsStrictOrderedRing K] [StarRing K] [TrivialStar K]

/-- The matrices that are given as covariances are ones. -/
def Covariances (_ : Option (TimeDelayKalmanFilter K)) (label : Operation K × List Bool)
    (_ : Option (TimeDelayKalmanFilter K)) : Prop :=
  match label.1 with
  | .init _ P0 _ _ => ∃ n coeff, P0.sized? n n = some coeff ∧ coeff.PosSemidef
  | .predictWithDelay _ _ Q => ∃ n coeff, Q.sized? n n = some coeff ∧ coeff.PosSemidef
  | .updateWithDelay _ _ R _ => ∃ n coeff, R.sized? n n = some coeff ∧ coeff.PosDef

omit [Field K] [LinearOrder K] [IsStrictOrderedRing K] [StarRing K] [TrivialStar K] in
theorem of_sized? {matrix : MatrixXd K} {property : ∀ {n}, Matrix (Fin n) (Fin n) K → Prop}
    (hproperty : ∃ n coeff, matrix.sized? n n = some coeff ∧ property coeff) {n : ℕ}
    {coeff : Matrix (Fin n) (Fin n) K} (hsized : matrix.sized? n n = some coeff) :
    property coeff := by
  obtain ⟨m, other, hother, hmatrix⟩ := hproperty
  obtain rfl : m = n := (MatrixXd.sized?_rows hother).trans (MatrixXd.sized?_rows hsized).symm
  rw [hother] at hsized
  cases hsized
  exact hmatrix

def PositiveSemidefinite (state : Option (TimeDelayKalmanFilter K)) : Prop :=
  ∀ self ∈ state, self.filter.P.PosSemidef

theorem positiveSemidefinite_init {x P0 : MatrixXd K} {maxDelayStep : ℕ}
    {one_le : 1 ≤ maxDelayStep} {self : TimeDelayKalmanFilter K}
    (hP0 : ∃ n coeff, P0.sized? n n = some coeff ∧ coeff.PosSemidef)
    (hinit : init x P0 maxDelayStep one_le = .ok self) : self.filter.P.PosSemidef := by
  unfold init at hinit
  split at hinit
  next initial covariance _ hcovariance =>
      cases hinit
      exact posSemidef_initP (of_sized? hP0 hcovariance) le_rfl
  next => cases hinit

theorem positiveSemidefinite_predictWithDelay {self after : TimeDelayKalmanFilter K}
    {xNext A Q : MatrixXd K} {predicted : Bool} (hP : self.filter.P.PosSemidef)
    (hQ : ∃ n coeff, Q.sized? n n = some coeff ∧ coeff.PosSemidef)
    (hpredict : self.predictWithDelay xNext A Q = .ok (after, predicted)) :
    after.filter.P.PosSemidef := by
  unfold predictWithDelay at hpredict
  split at hpredict
  next noise _ _ hnoise =>
      cases hpredict
      exact posSemidef_slideP hP _ (of_sized? hQ hnoise)
  next => cases hpredict

theorem positiveSemidefinite_updateWithDelay {self after : TimeDelayKalmanFilter K}
    {y C R : MatrixXd K} {delayStep : ℤ} {updated : Bool} (hP : self.filter.P.PosSemidef)
    (hR : ∃ n coeff, R.sized? n n = some coeff ∧ coeff.PosDef)
    (hupdate : self.updateWithDelay y C R delayStep = .ok (after, updated)) :
    after.filter.P.PosSemidef := by
  cases delayStep with
  | ofNat delayStep =>
    change (if hdelay : delayStep < self.maxDelayStep then _ else _) = _ at hupdate
    split at hupdate
    · split at hupdate
      · obtain ⟨result, hresult, hafter⟩ := map_eq_ok.mp hupdate
        cases hafter
        exact KalmanFilter.posSemidef_update hP
          (fun noise hnoise => (of_sized? hR hnoise).posSemidef) hresult
      · cases hupdate
    · cases hupdate
      exact hP
  | negSucc _ => cases hupdate

theorem positiveSemidefinite_step {before after : Option (TimeDelayKalmanFilter K)}
    {label : Operation K × List Bool} (hbefore : PositiveSemidefinite before)
    (hstep : Step before label after) (hcovariances : Covariances before label after) :
    PositiveSemidefinite after := by
  obtain ⟨operation, results⟩ := label
  cases operation with
  | init x P0 maxDelayStep one_le =>
    obtain ⟨self, hinit, hafter⟩ := map_eq_ok.mp hstep
    cases hafter
    rintro _ ⟨⟩
    exact positiveSemidefinite_init hcovariances hinit
  | predictWithDelay xNext A Q =>
    cases before with
    | none => cases hstep
    | some self =>
      obtain ⟨result, hpredict, hafter⟩ := map_eq_ok.mp hstep
      cases hafter
      rintro _ ⟨⟩
      exact positiveSemidefinite_predictWithDelay (hbefore self rfl) hcovariances hpredict
  | updateWithDelay y C R delayStep =>
    cases before with
    | none => cases hstep
    | some self =>
      obtain ⟨result, hupdate, hafter⟩ := map_eq_ok.mp hstep
      cases hafter
      rintro _ ⟨⟩
      exact positiveSemidefinite_updateWithDelay (hbefore self rfl) hcovariances hupdate

section
omit [LinearOrder K] [IsStrictOrderedRing K] [StarRing K] [TrivialStar K]

theorem init_of {dimX maxDelayStep : ℕ} (x : Matrix (Fin dimX) (Fin 1) K)
    (P0 : Matrix (Fin dimX) (Fin dimX) K) (one_le : 1 ≤ maxDelayStep) :
    init (.of x) (.of P0) maxDelayStep one_le =
      .ok ⟨maxDelayStep, dimX, ⟨initX x maxDelayStep le_rfl, initP P0 maxDelayStep le_rfl⟩,
        one_le⟩ := by
  have hx : (MatrixXd.of x).sized? (MatrixXd.of x).rows 1 = some x := MatrixXd.sized?_of x
  have hP0 : (MatrixXd.of P0).sized? (MatrixXd.of x).rows (MatrixXd.of x).rows = some P0 :=
    MatrixXd.sized?_of P0
  unfold init
  rw [hx, hP0]
  rfl

theorem predictWithDelay_of (self : TimeDelayKalmanFilter K)
    (xNext : Matrix (Fin self.dimX) (Fin 1) K) (A Q : Matrix (Fin self.dimX) (Fin self.dimX) K) :
    self.predictWithDelay (.of xNext) (.of A) (.of Q) =
      .ok ({ self with filter := ⟨self.slideX xNext, self.slideP A Q⟩ }, true) := by
  unfold predictWithDelay
  rw [MatrixXd.sized?_of, MatrixXd.sized?_of, MatrixXd.sized?_of]
  rfl

end

theorem updateWithDelay_of_posDef {self : TimeDelayKalmanFilter K} {m : ℕ}
    (y : Matrix (Fin m) (Fin 1) K) (C : Matrix (Fin m) (Fin self.dimX) K)
    {R : Matrix (Fin m) (Fin m) K} (hP : self.filter.P.PosSemidef) (hR : R.PosDef)
    {delayStep : ℕ} (hdelay : delayStep < self.maxDelayStep) :
    ∃ next : KalmanFilter K self.dimXEx, self.updateWithDelay (.of y) (.of C) (.of R) delayStep =
        .ok ({ self with filter := next }, true) := by
  let CEx : Matrix (Fin m) (Fin (self.dimX * self.maxDelayStep)) K :=
    setBlock 0 0 (self.dimX * delayStep) C (by omega) (block_le hdelay)
  obtain ⟨next, hupdate⟩ := KalmanFilter.update_of_posDef y CEx hP hR
  have hmeasurement : (MatrixXd.of C).sized? (MatrixXd.of y).rows self.dimX = some C :=
    MatrixXd.sized?_of C
  refine ⟨next, ?_⟩
  change (if hdelay : delayStep < self.maxDelayStep then _ else _) = _
  rw [dif_pos hdelay, hmeasurement]
  dsimp only
  exact map_eq_ok.mpr ⟨_, hupdate, rfl⟩

/-- In every state that is reached the covariance is symmetric and positive
semidefinite, and the next prediction is that of the time delay model. -/
theorem covariance_of_run {labels : List (Operation K × List Bool)} {last : TimeDelayKalmanFilter K}
    (hrun : Run (Guarded Step Covariances) none labels (some last)) :
    last.filter.P.IsSymm ∧ last.filter.P.PosSemidef ∧ ∀ (xNext : Matrix (Fin last.dimX) (Fin 1) K)
        (A Q : Matrix (Fin last.dimX) (Fin last.dimX) K),
        ∃ next : KalmanFilter K last.dimXEx, last.predictWithDelay (.of xNext) (.of A) (.of Q) =
              .ok ({ last with filter := next }, true) ∧
            last.stateAt next.x 0 last.one_le = xNext ∧
            (∀ (step : ℕ) (hstep : step + 1 < last.maxDelayStep),
              last.stateAt next.x (step + 1) hstep =
                last.stateAt last.filter.x step (by omega)) ∧
            next.P = extendedA _ A * last.filter.P * (extendedA _ A)ᵀ + extendedQ _ Q := by
  have hpositive : PositiveSemidefinite (some last) := by
    refine hrun.preserves PositiveSemidefinite ?_ (fun _ hself => by cases hself)
    intro before label after hbefore hstep
    exact positiveSemidefinite_step hbefore hstep.1 hstep.2
  have hP := hpositive last rfl
  refine ⟨?_, hP, ?_⟩
  · have hsymmetric := hP.isHermitian
    rwa [Matrix.IsHermitian, conjTranspose_eq_transpose_of_trivial] at hsymmetric
  · intro xNext A Q
    exact ⟨⟨last.slideX xNext, last.slideP A Q⟩, last.predictWithDelay_of xNext A Q,
      last.stateAt_zero_slideX xNext, fun _ hstep => last.stateAt_succ_slideX xNext hstep,
      last.slideP_eq A Q⟩

end

/-- A filter of one coordinate and two steps, after a prediction and a measurement
of the state before it. -/
theorem covariance_of_delayed_measurement :
    ∃ (labels : List (Operation ℚ × List Bool)) (last : TimeDelayKalmanFilter ℚ),
      Run (Guarded Step Covariances) none labels (some last) ∧ labels.length = 3 ∧
        last.filter.P.PosSemidef := by
  let first : TimeDelayKalmanFilter ℚ :=
    ⟨2, 1, ⟨initX 0 2 le_rfl, initP 1 2 le_rfl⟩, by decide⟩
  let second : TimeDelayKalmanFilter ℚ :=
    { first with filter := ⟨first.slideX 0, first.slideP 1 1⟩ }
  have hunit : ∃ n coeff, (MatrixXd.of (1 : Matrix (Fin 1) (Fin 1) ℚ)).sized? n n = some coeff ∧
      coeff.PosSemidef :=
    ⟨1, 1, MatrixXd.sized?_of _, .one⟩
  have hinit : Step none
      (.init (.of (0 : Matrix (Fin 1) (Fin 1) ℚ)) (.of (1 : Matrix (Fin 1) (Fin 1) ℚ)) 2
        (by decide), []) (some first) := by
    unfold Step OfPartial perform
    dsimp only
    rw [init_of]
    rfl
  have hpredict : Step (some first) (.predictWithDelay (.of (0 : Matrix (Fin 1) (Fin 1) ℚ))
        (.of (1 : Matrix (Fin 1) (Fin 1) ℚ)) (.of (1 : Matrix (Fin 1) (Fin 1) ℚ)), [true])
      (some second) := by
    unfold Step OfPartial perform
    dsimp only
    rw [show first.predictWithDelay (.of 0) (.of 1) (.of 1) = _ from
      first.predictWithDelay_of 0 1 1]
    rfl
  have hsecond : Run (Guarded Step Covariances) none _ (some second) :=
    .cons ⟨hinit, hunit⟩ (.single ⟨hpredict, hunit⟩)
  obtain ⟨next, hupdate⟩ := updateWithDelay_of_posDef (0 : Matrix (Fin 1) (Fin 1) ℚ)
    (1 : Matrix (Fin 1) (Fin second.dimX) ℚ) (covariance_of_run hsecond).2.1
    (.one : (1 : Matrix (Fin 1) (Fin 1) ℚ).PosDef) (show 1 < second.maxDelayStep by decide)
  have hstep : Step (some second) (.updateWithDelay (.of (0 : Matrix (Fin 1) (Fin 1) ℚ))
        (.of (1 : Matrix (Fin 1) (Fin second.dimX) ℚ))
        (.of (1 : Matrix (Fin 1) (Fin 1) ℚ)) 1, [true])
      (some { second with filter := next }) := by
    unfold Step OfPartial perform
    dsimp only
    rw [show second.updateWithDelay (.of 0) (.of 1) (.of 1) 1 = _ from hupdate]
    rfl
  have hlast := hsecond.append (.single ⟨hstep, 1, 1, MatrixXd.sized?_of _, .one⟩)
  exact ⟨_, _, hlast, rfl, (covariance_of_run hlast).2.1⟩

end TimeDelayKalmanFilter

end AutowareUniverse.Common
