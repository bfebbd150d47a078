import AutowareUniverse.Library.CompressedLists
import AutowareUniverse.Library.Fallible
import AutowareUniverse.Library.KeyedList
import AutowareUniverse.Library.Numerals
import Mathlib.Algebra.Order.Field.Rat

/-!
# Matrices for the quadratic program solver

A dense matrix is converted column by column into compressed sparse columns,
leaving out the entries below a threshold.  The trapezoidal conversion keeps
the rows up to the diagonal.
-/

namespace AutowareUniverse.Common.CscMatrixConv

open Library.CompressedLists Library.Fallible Library.KeyedList

/-- `Eigen::MatrixXd`. -/
structure MatrixXd (K : Type) where
  rows : ℕ
  cols : ℕ
  entry : Fin rows → Fin cols → K

inductive Error where
  | invalidArgument (message : String)
  | indexOutOfRange
  deriving DecidableEq

/-- `CSC_Matrix`. -/
structure CSCMatrix (K : Type) where
  vals : List K
  rowIdxs : List ℕ
  colIdxs : List ℕ
  deriving DecidableEq

/-- The arrays under construction, and the number of elements in them. -/
structure Arrays (K : Type) where
  vals : List K
  rowIdxs : List ℕ
  colIdxs : List ℕ
  elemCount : ℕ
  deriving DecidableEq

variable {K : Type}

def MatrixXd.coeff (mat : MatrixXd K) (i j : ℕ) : Except Error K :=
  if hi : i < mat.rows then
    if hj : j < mat.cols then .ok (mat.entry ⟨i, hi⟩ ⟨j, hj⟩) else .error .indexOutOfRange
  else .error .indexOutOfRange

def Arrays.start : Arrays K := ⟨[], [], [0], 0⟩

def Arrays.matrix (arrays : Arrays K) : CSCMatrix K :=
  ⟨arrays.vals, arrays.rowIdxs, arrays.colIdxs⟩

variable [Field K] [LinearOrder K] (mat : MatrixXd K)

def pushRow (j : ℕ) (arrays : Arrays K) (i : ℕ) :
    Except Error (Arrays K) := do
  let val ← mat.coeff i j
  if |val| < 1 / 10 ^ 9 then
    pure arrays
  else
    pure { arrays with
      elemCount := arrays.elemCount + 1
      vals := arrays.vals ++ [val]
      rowIdxs := arrays.rowIdxs ++ [i] }

def pushColumn (rows : ℕ) (arrays : Arrays K) (j : ℕ) :
    Except Error (Arrays K) := do
  let filled ← (List.range rows).foldlM (pushRow mat j) arrays
  pure { filled with colIdxs := filled.colIdxs ++ [filled.elemCount] }

def calCSCMatrix : Except Error (CSCMatrix K) := do
  let arrays ← (List.range mat.cols).foldlM (pushColumn mat mat.rows) Arrays.start
  pure arrays.matrix

def pushTrapezoidalColumn (state : Arrays K × ℕ) (j : ℕ) :
    Except Error (Arrays K × ℕ) := do
  let arrays ← pushColumn mat (state.2 + 1) state.1 j
  pure (arrays, state.2 + 1)

def calCSCMatrixTrapezoidal : Except Error (CSCMatrix K) := do
  if mat.rows ≠ mat.cols then
    throw (.invalidArgument "Matrix must be square (n, n)")
  let state ← (List.range mat.cols).foldlM (pushTrapezoidalColumn mat) (Arrays.start, 0)
  pure state.1.matrix

namespace CSCMatrix

def column (csc : CSCMatrix K) (j : ℕ) : List (ℕ × K) :=
  (stored csc.colIdxs csc.rowIdxs j).zip (stored csc.colIdxs csc.vals j)

/-- The entry that the arrays stand for. -/
def decode (csc : CSCMatrix K) (i j : ℕ) : K :=
  ((findKey Prod.fst i (csc.column j)).map Prod.snd).getD 0

/-- The arrays are an encoding of a matrix of the given size. -/
structure WellFormed (csc : CSCMatrix K) (rows cols : ℕ) : Prop where
  length_colIdxs : csc.colIdxs.length = cols + 1
  head_colIdxs : csc.colIdxs.head? = some 0
  monotone_colIdxs : csc.colIdxs.Pairwise (· ≤ ·)
  last_colIdxs : csc.colIdxs.getLast? = some csc.vals.length
  length_rowIdxs : csc.rowIdxs.length = csc.vals.length
  rows_lt : ∀ j < cols, ∀ i ∈ stored csc.colIdxs csc.rowIdxs j, i < rows
  rows_increasing : ∀ j < cols, (stored csc.colIdxs csc.rowIdxs j).Pairwise (· < ·)

end CSCMatrix

/-! ## The loops -/

namespace Arrays

omit [Field K] [LinearOrder K]

def holding (columns : List (List (ℕ × K))) : Arrays K where
  vals := (columns.map (List.map Prod.snd)).flatten
  rowIdxs := (columns.map (List.map Prod.fst)).flatten
  colIdxs := offsets (columns.map List.length)
  elemCount := (columns.map List.length).sum

def push (arrays : Arrays K) (column : List (ℕ × K)) : Arrays K where
  vals := arrays.vals ++ column.map Prod.snd
  rowIdxs := arrays.rowIdxs ++ column.map Prod.fst
  colIdxs := arrays.colIdxs
  elemCount := arrays.elemCount + column.length

@[simp] theorem push_nil (arrays : Arrays K) : arrays.push [] = arrays := by
  simp [push]

theorem push_push (arrays : Arrays K) (column more : List (ℕ × K)) :
    (arrays.push column).push more = arrays.push (column ++ more) := by
  simp [push, Nat.add_assoc]

theorem holding_concat (columns : List (List (ℕ × K))) (column : List (ℕ × K)) :
    holding (columns ++ [column]) =
      { (holding columns).push column with
        colIdxs := (holding columns).colIdxs ++ [(holding columns).elemCount + column.length] } := by
  simp [holding, push, offsets_concat]

end Arrays

/-- An entry that is stored. -/
def Kept (val : K) : Prop := ¬ |val| < 1 / 10 ^ 9

instance (val : K) : Decidable (Kept val) := inferInstanceAs (Decidable (¬ _))

omit [LinearOrder K] in
def MatrixXd.value (mat : MatrixXd K) (i j : ℕ) : K :=
  if hi : i < mat.rows then if hj : j < mat.cols then mat.entry ⟨i, hi⟩ ⟨j, hj⟩ else 0 else 0

variable {mat : MatrixXd K}

omit [LinearOrder K] in
theorem MatrixXd.coeff_eq {i j : ℕ} (hi : i < mat.rows)
    (hj : j < mat.cols) : mat.coeff i j = .ok (mat.value i j) := by
  rw [coeff, value, dif_pos hi, dif_pos hj, dif_pos hi, dif_pos hj]

def keptEntries (mat : MatrixXd K) (rows j : ℕ) : List (ℕ × K) :=
  ((List.range rows).map fun i => (i, mat.value i j)).filter fun entry => Kept entry.2

@[simp] theorem keptEntries_zero (mat : MatrixXd K) (j : ℕ) : keptEntries mat 0 j = [] := rfl

theorem keptEntries_succ (mat : MatrixXd K) (rows j : ℕ) :
    keptEntries mat (rows + 1) j = keptEntries mat rows j ++
      if Kept (mat.value rows j) then [(rows, mat.value rows j)] else [] := by
  rw [keptEntries, List.range_succ, List.map_append, List.filter_append]
  congr 1
  simp [List.filter_cons]

theorem pushRow_eq {i j : ℕ} (hi : i < mat.rows) (hj : j < mat.cols) (arrays : Arrays K) :
    pushRow mat j arrays i = .ok (arrays.push
      (if Kept (mat.value i j) then [(i, mat.value i j)] else [])) := by
  rw [pushRow, MatrixXd.coeff_eq hi hj]
  change (if |mat.value i j| < 1 / 10 ^ 9 then _ else _) = _
  by_cases hsmall : |mat.value i j| < 1 / 10 ^ 9
  · have hkept : ¬ Kept (mat.value i j) := not_not.mpr hsmall
    rw [if_pos hsmall, if_neg hkept, Arrays.push_nil]
    rfl
  · have hkept : Kept (mat.value i j) := hsmall
    rw [if_neg hsmall, if_pos hkept]
    rfl

/-- The inner loop stores the kept entries of the column. -/
theorem foldlM_pushRow {rows j : ℕ} (hrows : rows ≤ mat.rows)
    (hj : j < mat.cols) (arrays : Arrays K) :
    (List.range rows).foldlM (pushRow mat j) arrays =
      .ok (arrays.push (keptEntries mat rows j)) := by
  have hround : ∀ i < rows, pushRow mat j (arrays.push (keptEntries mat i j)) i =
      .ok (arrays.push (keptEntries mat (i + 1) j)) := fun i hi => by
    rw [pushRow_eq (hi.trans_le hrows) hj, Arrays.push_push, ← keptEntries_succ]
  have hloop := foldlM_range (fun i => arrays.push (keptEntries mat i j)) hround
  rwa [keptEntries_zero, Arrays.push_nil] at hloop

theorem pushColumn_holding {rows j : ℕ} (hrows : rows ≤ mat.rows)
    (hj : j < mat.cols) (columns : List (List (ℕ × K))) :
    pushColumn mat rows (Arrays.holding columns) j =
      .ok (Arrays.holding (columns ++ [keptEntries mat rows j])) := by
  rw [pushColumn, foldlM_pushRow hrows hj, Arrays.holding_concat]
  rfl

theorem foldlM_pushColumn (mat : MatrixXd K) :
    (List.range mat.cols).foldlM (pushColumn mat mat.rows) Arrays.start =
      .ok (Arrays.holding ((List.range mat.cols).map (keptEntries mat mat.rows))) := by
  apply foldlM_range fun cols => Arrays.holding ((List.range cols).map (keptEntries mat mat.rows))
  intro j hj
  rw [pushColumn_holding le_rfl hj, List.range_succ, List.map_append, List.map_singleton]

/-- The last row that is read is the one on the diagonal. -/
theorem foldlM_pushTrapezoidalColumn (hsquare : mat.rows = mat.cols) :
    (List.range mat.cols).foldlM (pushTrapezoidalColumn mat) (Arrays.start, 0) =
      .ok (Arrays.holding ((List.range mat.cols).map fun j => keptEntries mat (j + 1) j),
        mat.cols) := by
  apply foldlM_range fun cols =>
    (Arrays.holding ((List.range cols).map fun j => keptEntries mat (j + 1) j), cols)
  intro j hj
  have hrows : j + 1 ≤ mat.rows := hsquare ▸ hj
  rw [pushTrapezoidalColumn, pushColumn_holding hrows hj, List.range_succ, List.map_append,
    List.map_singleton]
  rfl

theorem calCSCMatrix_eq (mat : MatrixXd K) : calCSCMatrix mat =
      .ok (Arrays.holding ((List.range mat.cols).map (keptEntries mat mat.rows))).matrix := by
  rw [calCSCMatrix, foldlM_pushColumn]
  rfl

theorem calCSCMatrixTrapezoidal_eq (hsquare : mat.rows = mat.cols) :
    calCSCMatrixTrapezoidal mat = .ok (Arrays.holding
        ((List.range mat.cols).map fun j => keptEntries mat (j + 1) j)).matrix := by
  rw [calCSCMatrixTrapezoidal, foldlM_pushTrapezoidalColumn hsquare, if_neg (not_not.mpr hsquare)]
  rfl

/-! ## The encodings -/

omit [Field K] [LinearOrder K] in
theorem map_fst_map_range (value : ℕ → K) (rows : ℕ) :
    ((List.range rows).map fun i => (i, value i)).map Prod.fst = List.range rows := by
  rw [List.map_map]
  exact List.map_id _

theorem rows_keptEntries (mat : MatrixXd K) (rows j : ℕ) :
    ((keptEntries mat rows j).map Prod.fst).Sublist (List.range rows) := by
  have hsublist := (List.filter_sublist (p := fun entry : ℕ × K => decide (Kept entry.2))
    (l := (List.range rows).map fun i => (i, mat.value i j))).map Prod.fst
  rwa [map_fst_map_range fun i => mat.value i j] at hsublist

omit [Field K] [LinearOrder K] in
theorem findKey_map_range (value : ℕ → K) (rows i : ℕ) :
    findKey Prod.fst i ((List.range rows).map fun i => (i, value i)) =
      if i < rows then some (i, value i) else none := by
  induction rows with
  | zero => rfl
  | succ rows ih =>
    rw [List.range_succ, List.map_append, findKey_append, ih, List.map_singleton, findKey_cons,
      findKey_nil]
    rcases lt_trichotomy i rows with hlt | rfl | hgt
    · rw [if_pos hlt, if_pos (Nat.lt_succ_of_lt hlt)]
      rfl
    · simp
    · rw [if_neg hgt.not_gt, if_neg hgt.ne, if_neg (by omega)]
      rfl

/-- What is found for a row of a column. -/
theorem findKey_keptEntries (mat : MatrixXd K) (rows j i : ℕ) :
    findKey Prod.fst i (keptEntries mat rows j) =
      if i < rows ∧ Kept (mat.value i j) then some (i, mat.value i j) else none := by
  have hnodup : (((List.range rows).map fun i => (i, mat.value i j)).map Prod.fst).Nodup := by
    rw [map_fst_map_range]
    exact List.nodup_range
  rw [keptEntries, findKey_filter Prod.fst _ hnodup, findKey_map_range fun i => mat.value i j]
  by_cases hlt : i < rows
  · by_cases hkept : Kept (mat.value i j)
    · simp [hlt, hkept, Option.filter]
    · simp [hlt, hkept, Option.filter]
  · simp [hlt]

section

variable {mat : MatrixXd K} {rows : ℕ → ℕ}

/-- The arrays that hold the kept entries of each column, up to a row of its own. -/
def heldBy (mat : MatrixXd K) (rows : ℕ → ℕ) : CSCMatrix K :=
  (Arrays.holding ((List.range mat.cols).map fun j => keptEntries mat (rows j) j)).matrix

theorem column_heldBy {j : ℕ} (hj : j < mat.cols) :
    stored (heldBy mat rows).colIdxs (heldBy mat rows).rowIdxs j =
        (keptEntries mat (rows j) j).map Prod.fst ∧
      stored (heldBy mat rows).colIdxs (heldBy mat rows).vals j =
        (keptEntries mat (rows j) j).map Prod.snd := by
  have hcolumn : ((List.range mat.cols).map fun j => keptEntries mat (rows j) j)[j]? =
      some (keptEntries mat (rows j) j) := by
    rw [List.getElem?_map, List.getElem?_range hj]
    rfl
  exact ⟨stored_flatten_map hcolumn Prod.fst, stored_flatten_map hcolumn Prod.snd⟩

theorem decode_heldBy {i j : ℕ} (hj : j < mat.cols) : (heldBy mat rows).decode i j =
      if i < rows j ∧ Kept (mat.value i j) then mat.value i j else 0 := by
  have hcolumn := @column_heldBy K _ _ mat rows j hj
  rw [CSCMatrix.decode, CSCMatrix.column, hcolumn.1, hcolumn.2, ← List.zip_of_prod rfl rfl,
    findKey_keptEntries]
  split <;> rfl

omit [Field K] [LinearOrder K] in
theorem length_component {β : Type} (component : ℕ × K → β) (columns : List (List (ℕ × K))) :
    (columns.map (List.map component)).flatten.length = (columns.map List.length).sum := by
  rw [List.length_flatten, List.map_map]
  exact congrArg List.sum (List.map_congr_left fun _ _ => List.length_map _)

theorem wellFormed_heldBy (hrows : ∀ j < mat.cols, rows j ≤ mat.rows) :
    (heldBy mat rows).WellFormed mat.rows mat.cols := by
  refine ⟨?_, head?_offsets _, pairwise_offsets _, ?_, ?_, fun j hj => ?_, fun j hj => ?_⟩
  · simp [heldBy, Arrays.holding, Arrays.matrix]
  · exact (getLast?_offsets _).trans (congrArg some (length_component Prod.snd _).symm)
  · exact (length_component Prod.fst _).trans (length_component Prod.snd _).symm
  · rw [(column_heldBy hj).1]
    intro i hmem
    exact (List.mem_range.mp ((rows_keptEntries mat (rows j) j).subset hmem)).trans_le (hrows j hj)
  · rw [(column_heldBy hj).1]
    exact List.pairwise_lt_range.sublist (rows_keptEntries mat (rows j) j)

end

/-- The conversions keep the entries that the threshold does not hide. -/
def Separated (mat : MatrixXd K) : Prop :=
  ∀ i j, mat.entry i j ≠ 0 → 1 / 10 ^ 9 ≤ |mat.entry i j|

instance (mat : MatrixXd K) : Decidable (Separated mat) :=
  inferInstanceAs (Decidable (∀ _ _, _))

theorem Separated.kept_value (hseparated : Separated mat) (i : Fin mat.rows) (j : Fin mat.cols) :
    mat.value i j = mat.entry i j ∧ (mat.entry i j ≠ 0 → Kept (mat.value i j)) := by
  have hvalue : mat.value i j = mat.entry i j := by
    rw [MatrixXd.value, dif_pos i.isLt, dif_pos j.isLt]
  refine ⟨hvalue, fun hne => ?_⟩
  rw [Kept, hvalue, not_lt]
  exact hseparated i j hne

theorem decode_heldBy_entry (hseparated : Separated mat) (rows : ℕ → ℕ)
    (i : Fin mat.rows) (j : Fin mat.cols) :
    (heldBy mat rows).decode i j = if (i : ℕ) < rows j then mat.entry i j else 0 := by
  obtain ⟨hvalue, hkept⟩ := hseparated.kept_value i j
  rw [decode_heldBy j.isLt]
  by_cases hzero : mat.entry i j = 0
  · rw [hvalue, hzero]
    simp
  · have hkept := hkept hzero
    rw [hvalue] at hkept ⊢
    simp only [hkept, and_true]

/-- Both conversions encode the matrix: the one as it is, the other up to the diagonal. -/
theorem calCSCMatrix_decodes {mat : MatrixXd K} (hseparated : Separated mat) :
    (∃ csc, calCSCMatrix mat = .ok csc ∧ csc.WellFormed mat.rows mat.cols ∧
      ∀ i j, csc.decode (i : Fin mat.rows) (j : Fin mat.cols) = mat.entry i j) ∧
    (mat.rows = mat.cols → ∃ csc, calCSCMatrixTrapezoidal mat = .ok csc ∧
      csc.WellFormed mat.rows mat.cols ∧
      ∀ i j, csc.decode (i : Fin mat.rows) (j : Fin mat.cols) =
        if (i : ℕ) ≤ j then mat.entry i j else 0) := by
  refine ⟨⟨heldBy mat fun _ => mat.rows, calCSCMatrix_eq mat,
    wellFormed_heldBy fun _ _ => le_rfl, fun i j => ?_⟩, fun hsquare =>
    ⟨heldBy mat fun j => j + 1, calCSCMatrixTrapezoidal_eq hsquare,
      wellFormed_heldBy fun j hj => hsquare ▸ hj, fun i j => ?_⟩⟩
  · rw [decode_heldBy_entry hseparated, if_pos i.isLt]
  · rw [decode_heldBy_entry hseparated]
    exact if_congr Nat.lt_succ_iff rfl rfl

/-- A matrix with two rows, one of which starts with a zero. -/
theorem calCSCMatrix_decodes_two :
    let mat : MatrixXd ℚ := ⟨2, 2, fun i j => if (j : ℕ) < i then 0 else i + 2 * j + 1⟩
    Separated mat ∧ ∃ csc, calCSCMatrixTrapezoidal mat = .ok csc ∧
      csc = ⟨[1, 3, 4], [0, 0, 1], [0, 1, 3]⟩ ∧
      ∀ i j, csc.decode (i : Fin mat.rows) (j : Fin mat.cols) =
        if (i : ℕ) ≤ j then mat.entry i j else 0 := by
  intro mat
  have hseparated : Separated mat := by decide +kernel
  refine ⟨hseparated, ?_⟩
  obtain ⟨csc, hcsc, -, hdecode⟩ := (calCSCMatrix_decodes hseparated).2 rfl
  refine ⟨csc, hcsc, ?_, hdecode⟩
  have hvalue : calCSCMatrixTrapezoidal mat = .ok ⟨[1, 3, 4], [0, 0, 1], [0, 1, 3]⟩ := by
    decide +kernel
  exact Except.ok.inj (hcsc.symm.trans hvalue)

/-- The matrix of a size that the arrays stand for. -/
def CSCMatrix.toMatrix (csc : CSCMatrix K) (rows cols : ℕ) : MatrixXd K :=
  ⟨rows, cols, fun i j => csc.decode i j⟩

variable [IsStrictOrderedRing K]

theorem keptEntries_toMatrix (rows : ℕ → ℕ) {j count : ℕ} (hj : j < mat.cols)
    (hcount : count ≤ mat.rows) :
    keptEntries ((heldBy mat rows).toMatrix mat.rows mat.cols) count j =
      keptEntries mat (min count (rows j)) j := by
  have hzero : ¬ Kept (0 : K) := by simp [Kept]
  induction count with
  | zero => rw [Nat.zero_min, keptEntries_zero, keptEntries_zero]
  | succ i ih =>
    have hvalue : ((heldBy mat rows).toMatrix mat.rows mat.cols).value i j =
        if i < rows j ∧ Kept (mat.value i j) then mat.value i j else 0 :=
      ((dif_pos hcount).trans (dif_pos hj)).trans (decode_heldBy hj)
    rw [keptEntries_succ, ih (Nat.le_of_succ_le hcount), hvalue]
    rcases lt_or_ge i (rows j) with hlt | hge
    · rw [min_eq_left hlt.le, min_eq_left hlt, keptEntries_succ]
      by_cases hkept : Kept (mat.value i j)
      · simp [hlt, hkept]
      · simp [hkept, hzero]
    · simp [hge.not_gt, hzero, min_eq_right hge, min_eq_right (hge.trans i.le_succ)]

theorem calCSCMatrix_heldBy (rows : ℕ → ℕ) (hrows : ∀ j < mat.cols, rows j ≤ mat.rows) :
    calCSCMatrix ((heldBy mat rows).toMatrix mat.rows mat.cols) = .ok (heldBy mat rows) := by
  have hcolumns : (List.range mat.cols).map
      (keptEntries ((heldBy mat rows).toMatrix mat.rows mat.cols) mat.rows) =
        (List.range mat.cols).map fun j => keptEntries mat (rows j) j := by
    refine List.map_congr_left fun j hmem => ?_
    have hj := List.mem_range.mp hmem
    rw [keptEntries_toMatrix rows hj le_rfl, min_eq_right (hrows j hj)]
  rw [calCSCMatrix_eq]
  change Except.ok (Arrays.holding ((List.range mat.cols).map (keptEntries _ mat.rows))).matrix = _
  rw [hcolumns, heldBy]

/-- What the arrays stand for is converted to these arrays. -/
theorem calCSCMatrix_reconverts (mat : MatrixXd K) :
    (calCSCMatrix mat >>= fun csc => calCSCMatrix (csc.toMatrix mat.rows mat.cols)) =
        calCSCMatrix mat ∧
      (calCSCMatrixTrapezoidal mat >>= fun csc => calCSCMatrix (csc.toMatrix mat.rows mat.cols)) =
        calCSCMatrixTrapezoidal mat := by
  constructor
  · rw [calCSCMatrix_eq mat]
    exact calCSCMatrix_heldBy (fun _ => mat.rows) fun _ _ => le_rfl
  · by_cases hsquare : mat.rows = mat.cols
    · rw [calCSCMatrixTrapezoidal_eq hsquare]
      exact calCSCMatrix_heldBy (fun j => j + 1) fun j hj => hsquare ▸ hj
    · rw [calCSCMatrixTrapezoidal, if_pos hsquare]
      rfl

theorem calCSCMatrixTrapezoidal_reconverts :
    let mat : MatrixXd ℚ := ⟨2, 2, fun i _ => i⟩
    (calCSCMatrixTrapezoidal mat >>= fun csc => calCSCMatrix (csc.toMatrix 2 2)) =
      calCSCMatrixTrapezoidal mat :=
  (calCSCMatrix_reconverts _).2

end AutowareUniverse.Common.CscMatrixConv
