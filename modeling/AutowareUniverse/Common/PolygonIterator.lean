import AutowareUniverse.Library.CellGrid
import AutowareUniverse.Library.Fallible
import AutowareUniverse.Library.ScanLine
import Mathlib.Data.List.Sort
import Mathlib.Data.List.TakeWhile
import Mathlib.Data.Rat.Floor

/-!
# Polygon iterator

The iterator visits the cells of a grid map whose centres are inside a polygon.  For every
row of cells it sorts the intersections of the row with the edges of the polygon, and visits
the columns between the first and the second of them, between the third and the fourth, and
so on.
-/

namespace AutowareUniverse.Common.GridMapUtils

open Library.ScanLine

section

section

open Library.CellGrid (truncate)

structure Position (K : Type) where
  x : K
  y : K
  deriving DecidableEq

structure Edge (K : Type) where
  first : Position K
  second : Position K

/-- What the iterator reads of a grid map, in which a row has one x coordinate. -/
structure GridMap (K : Type) [Zero K] [LT K] where
  resolution : K
  size : ℤ × ℤ
  startIndex : ℤ × ℤ
  /-- The position of the cell at the start index. -/
  origin : Position K
  resolution_pos : 0 < resolution
  size_pos : 0 < size.1 ∧ 0 < size.2

inductive Failure where
  /-- A past-the-end intersection is dereferenced or incremented. -/
  | pastTheEnd
  | outOfFuel
  deriving DecidableEq

variable {K : Type} [Field K] [LinearOrder K]

/-- `operator<` of edges. -/
def Edge.before (edge other : Edge K) : Prop :=
  other.first.x < edge.first.x ∨ edge.first.x = other.first.x ∧ other.second.x < edge.second.x

instance (edge other : Edge K) : Decidable (edge.before other) :=
  inferInstanceAs (Decidable (_ ∨ _))

/-- The edges that are not horizontal, each from its higher to its lower x coordinate. -/
def edgesOf : List (Position K) → List (Edge K)
  | vertex :: next :: vertices =>
    if next.x < vertex.x then ⟨vertex, next⟩ :: edgesOf (next :: vertices)
    else if vertex.x < next.x then ⟨next, vertex⟩ :: edgesOf (next :: vertices)
    else edgesOf (next :: vertices)
  | _ => []

def calculateSortedEdges (vertices : List (Position K)) : List (Edge K) :=
  (edgesOf vertices).insertionSort fun edge other => ¬other.before edge

/-! ## Intersections -/

def lineIntersections (lineX : K) : List (Edge K) → List K
  | [] => []
  | edge :: edges =>
    if edge.second.x = lineX then edge.second.y :: lineIntersections lineX edges
    else if lineX ≤ edge.first.x ∧ edge.second.x < lineX then
      (edge.second.y + (lineX - edge.second.x) * (edge.first.y - edge.second.y) /
        (edge.first.x - edge.second.x)) :: lineIntersections lineX edges
    else if edge.first.x < lineX then []
    else lineIntersections lineX edges

/-- The first pairs of intersections are erased if both are beside the map. -/
def eraseAbove (originY : K) : List K → List K
  | y :: next :: ys =>
    if originY ≤ y ∧ originY ≤ next then eraseAbove originY ys else y :: next :: ys
  | ys => ys

def erasePairs : List K → List K
  | _ :: _ :: ys => erasePairs ys
  | ys => ys

/-- Pairs are erased from the first intersection on that `lower_bound` finds. -/
def eraseBelow (lowerY : K) (ys : List K) : List K :=
  ys.takeWhile (fun y => decide (lowerY < y)) ++
    erasePairs (ys.dropWhile fun y => decide (lowerY < y))

namespace GridMap

variable (gridMap : GridMap K)

/-- The x coordinate of a row that is counted from the start index. -/
def lineX (row : ℤ) : K := gridMap.origin.x - gridMap.resolution * row

/-- The y coordinate of the last column. -/
def lowerY : K := gridMap.origin.y - (gridMap.size.2 - 1) * gridMap.resolution

end GridMap

def calculateIntersections (edges : List (Edge K)) (gridMap : GridMap K) (row : ℤ) : List K :=
  eraseBelow gridMap.lowerY (eraseAbove gridMap.origin.y
    ((lineIntersections (gridMap.lineX row) edges).insertionSort (· ≥ ·)))

def calculateIntersectionsPerLine (edges : List (Edge K)) (fromToRow : ℤ × ℤ)
    (gridMap : GridMap K) : List (List K) :=
  (List.range (fromToRow.2 - fromToRow.1 + 1).toNat).map fun line : ℕ =>
    calculateIntersections edges gridMap (fromToRow.1 + line)

section

variable [FloorRing K]

def clampIndex (size : ℤ) (value : K) : ℤ := max 0 (min (truncate value) (size - 1))

def calculateRowRange (front : Edge K) (edges : List (Edge K)) (gridMap : GridMap K) : ℤ × ℤ :=
  let minVertexX := (edges.map (·.second.x)).foldl min front.second.x
  let maxVertexX := front.first.x
  let distMinToOrigin := gridMap.origin.x - minVertexX + gridMap.resolution
  let distMaxToOrigin := gridMap.origin.x - maxVertexX + gridMap.resolution
  (clampIndex gridMap.size.1 (distMaxToOrigin / gridMap.resolution),
    clampIndex gridMap.size.1 (distMinToOrigin / gridMap.resolution))

end

/-! ## The iterator -/

structure PolygonIterator (K : Type) where
  rowOfFirstLine : ℤ
  mapStartIdx : ℤ × ℤ
  mapSize : ℤ × ℤ
  mapResolution : K
  mapOriginY : K
  intersectionsPerLine : List (List K)
  /-- The intersections from the iterator on. -/
  intersectionIter : List K
  currentIndex : ℤ × ℤ
  currentLine : ℕ
  currentCol : ℤ
  currentToCol : ℤ

def wrapIndexToRange (index bufferSize : ℤ) : ℤ := index % bufferSize

def dereference : List K → Except Failure K
  | [] => .error .pastTheEnd
  | y :: _ => .ok y

/-- Incrementing an iterator. -/
def advance : List K → Except Failure (List K)
  | [] => .error .pastTheEnd
  | _ :: ys => .ok ys

/-- The first line from a given one on that has a pair of intersections. -/
def skipLines (line : ℕ) : List (List K) → ℕ
  | [] => line
  | ys :: lines => if ys.length < 2 then skipLines (line + 1) lines else line

namespace PolygonIterator

variable (iterator : PolygonIterator K)

def isPastEnd : Bool :=
  iterator.intersectionsPerLine.length ≤ iterator.currentLine

/-- `goToNextLine` after the line before the given one. -/
def goToLine (line : ℕ) : PolygonIterator K :=
  let currentLine := skipLines line (iterator.intersectionsPerLine.drop line)
  { iterator with
    currentLine := currentLine
    intersectionIter :=
      iterator.intersectionsPerLine[currentLine]?.getD iterator.intersectionIter }

def goToNextLine : PolygonIterator K :=
  iterator.goToLine (iterator.currentLine + 1)

def calculateIndex : PolygonIterator K :=
  { iterator with
    currentIndex :=
      (wrapIndexToRange (iterator.mapStartIdx.1 + iterator.rowOfFirstLine + iterator.currentLine)
          iterator.mapSize.1,
        wrapIndexToRange (iterator.mapStartIdx.2 + iterator.currentCol) iterator.mapSize.2) }

/-- `operator++`, with the calculation of the columns of the next pair. -/
def increment (calculateColumnIndexes : PolygonIterator K → Except Failure (PolygonIterator K))
    (iterator : PolygonIterator K) : Except Failure (PolygonIterator K) := do
  let iterator := { iterator with currentCol := iterator.currentCol + 1 }
  let iterator ←
    if iterator.currentToCol < iterator.currentCol then do
      let ys ← advance iterator.intersectionIter
      let iterator := { iterator with intersectionIter := ys }
      let iterator := if ys.isEmpty || ys.tail.isEmpty then iterator.goToNextLine else iterator
      if iterator.isPastEnd then .ok iterator else calculateColumnIndexes iterator
    else .ok iterator
  if iterator.isPastEnd then .ok iterator else .ok iterator.calculateIndex

variable [FloorRing K]

def calculateColumnIndexes : ℕ → PolygonIterator K → Except Failure (PolygonIterator K)
  | 0, _ => .error .outOfFuel
  | fuel + 1, iterator => do
    let y ← dereference iterator.intersectionIter
    let distFromOrigin := iterator.mapOriginY - y + iterator.mapResolution
    let currentCol := clampIndex iterator.mapSize.2 (distFromOrigin / iterator.mapResolution)
    let ys ← advance iterator.intersectionIter
    let next ← dereference ys
    let distToOrigin := iterator.mapOriginY - next
    let currentToCol := clampIndex iterator.mapSize.2 (distToOrigin / iterator.mapResolution)
    let iterator := { iterator with
      intersectionIter := ys, currentCol := currentCol, currentToCol := currentToCol }
    -- the intersections do not encompass the centre of a cell
    if currentToCol < currentCol then increment (calculateColumnIndexes fuel) iterator
    else .ok iterator

def withoutLines (gridMap : GridMap K) : PolygonIterator K :=
  { rowOfFirstLine := 0, mapStartIdx := gridMap.startIndex, mapSize := gridMap.size
    mapResolution := gridMap.resolution, mapOriginY := gridMap.origin.y
    intersectionsPerLine := [], intersectionIter := [], currentIndex := (0, 0)
    currentLine := 0, currentCol := 0, currentToCol := -1 }

end PolygonIterator

/-- The vertices with the first one repeated at the end. -/
def closePolygon : List (Position K) → List (Position K)
  | [] => []
  | vertex :: vertices =>
    if (vertex :: vertices).getLast? ≠ some vertex then vertex :: vertices ++ [vertex]
    else vertex :: vertices

namespace PolygonIterator

variable [FloorRing K]

def construct (fuel : ℕ) (gridMap : GridMap K) (polygon : List (Position K)) :
    Except Failure (PolygonIterator K) :=
  if polygon.length < 3 then .ok (withoutLines gridMap)
  else
    match calculateSortedEdges (closePolygon polygon) with
    | [] => .ok (withoutLines gridMap)
    | front :: edges => do
      let fromToRow := calculateRowRange front (front :: edges) gridMap
      let iterator : PolygonIterator K :=
        { withoutLines gridMap with
          rowOfFirstLine := fromToRow.1
          intersectionsPerLine :=
            calculateIntersectionsPerLine (front :: edges) fromToRow gridMap }
      if iterator.intersectionsPerLine.isEmpty then return iterator
      let iterator := iterator.goToLine 0
      if iterator.isPastEnd then return iterator
      return (← calculateColumnIndexes fuel iterator).calculateIndex

def indexes (fuel : ℕ) : ℕ → PolygonIterator K → Except Failure (List (ℤ × ℤ))
  | 0, _ => .error .outOfFuel
  | steps + 1, iterator =>
    if iterator.isPastEnd then .ok []
    else do
      let next ← increment (calculateColumnIndexes fuel) iterator
      return iterator.currentIndex :: (← indexes fuel steps next)

def iterate (fuel : ℕ) (gridMap : GridMap K) (polygon : List (Position K)) :
    Except Failure (List (ℤ × ℤ)) := do
  indexes fuel fuel (← construct fuel gridMap polygon)

end PolygonIterator

end

variable {K : Type} [Field K] [LinearOrder K]

def interval (fromCol toCol : ℤ) : List ℤ :=
  (List.range (toCol + 1 - fromCol).toNat).map fun i : ℕ => fromCol + i

theorem interval_eq_nil {fromCol toCol : ℤ} (hempty : toCol < fromCol) :
    interval fromCol toCol = [] := by
  have hzero : (toCol + 1 - fromCol).toNat = 0 := by omega
  rw [interval, hzero]
  rfl

theorem interval_eq_cons {fromCol toCol : ℤ} (hle : fromCol ≤ toCol) :
    interval fromCol toCol = fromCol :: interval (fromCol + 1) toCol := by
  have hsucc : (toCol + 1 - fromCol).toNat = (toCol + 1 - (fromCol + 1)).toNat + 1 := by omega
  rw [interval, interval, hsucc, List.range_succ_eq_map, List.map_cons, List.map_map]
  refine congrArg₂ List.cons (by simp) (List.map_congr_left fun i _ => ?_)
  rw [Function.comp_apply]
  push_cast
  ring

theorem mem_interval {fromCol toCol col : ℤ} :
    col ∈ interval fromCol toCol ↔ fromCol ≤ col ∧ col ≤ toCol := by
  rw [interval, List.mem_map]
  constructor
  · rintro ⟨i, hi, rfl⟩
    rw [List.mem_range] at hi
    omega
  · rintro ⟨hfrom, hto⟩
    refine ⟨(col - fromCol).toNat, ?_, by omega⟩
    rw [List.mem_range]
    omega

theorem pairwise_interval (fromCol toCol : ℤ) : (interval fromCol toCol).Pairwise (· < ·) := by
  apply List.Pairwise.map _ _ List.pairwise_lt_range
  intro i j hlt
  omega

/-! ## Cells of lines -/

section

variable [FloorRing K]

namespace GridMap

variable (gridMap : GridMap K)

def fromColumn (y : K) : ℤ :=
  clampIndex gridMap.size.2 ((gridMap.origin.y - y + gridMap.resolution) / gridMap.resolution)

def toColumn (y : K) : ℤ :=
  clampIndex gridMap.size.2 ((gridMap.origin.y - y) / gridMap.resolution)

def pairColumns : List K → List ℤ
  | y :: next :: ys => interval (gridMap.fromColumn y) (gridMap.toColumn next) ++ pairColumns ys
  | _ => []

def lineCells (line : ℕ) (ys : List K) : List (ℕ × ℤ) :=
  (gridMap.pairColumns ys).map (line, ·)

def linesCells (line : ℕ) : List (List K) → List (ℕ × ℤ)
  | [] => []
  | ys :: lines => gridMap.lineCells line ys ++ linesCells (line + 1) lines

/-- The index in the circular buffer of a line and a column. -/
def cellIndex (fromRow : ℤ) (cell : ℕ × ℤ) : ℤ × ℤ :=
  (wrapIndexToRange (gridMap.startIndex.1 + fromRow + cell.1) gridMap.size.1,
    wrapIndexToRange (gridMap.startIndex.2 + cell.2) gridMap.size.2)

variable {gridMap}

theorem lineCells_of_length_lt {line : ℕ} {ys : List K} (hshort : ys.length < 2) :
    gridMap.lineCells line ys = [] := by
  match ys with
  | [] => rfl
  | [_] => rfl
  | _ :: _ :: ys =>
    rw [List.length_cons, List.length_cons] at hshort
    omega

theorem skipLines_cases (gridMap : GridMap K) (line : ℕ) (lines : List (List K)) :
    (∃ i ys tail, skipLines line lines = line + i ∧ lines.drop i = ys :: tail ∧ 2 ≤ ys.length ∧
        ys.length + tail.flatten.length ≤ lines.flatten.length ∧
        gridMap.linesCells line lines =
          gridMap.lineCells (line + i) ys ++ gridMap.linesCells (line + i + 1) tail) ∨
      (skipLines line lines = line + lines.length ∧ gridMap.linesCells line lines = []) := by
  induction lines generalizing line with
  | nil => exact .inr ⟨rfl, rfl⟩
  | cons ys lines ih =>
    rw [skipLines]
    split
    case isTrue hshort =>
        rw [linesCells, lineCells_of_length_lt hshort, List.nil_append, List.length_cons]
        rcases ih (line + 1) with ⟨i, found, tail, hskip, hdrop, hlong, hlength, hcells⟩ |
          ⟨hskip, hcells⟩
        · refine .inl ⟨i + 1, found, tail, ?_, hdrop, hlong, ?_, ?_⟩
          · rw [hskip]
            ring
          · rw [List.flatten_cons, List.length_append]
            exact hlength.trans (Nat.le_add_left _ _)
          · rw [hcells, add_assoc line 1 i, add_comm 1 i]
        · refine .inr ⟨?_, hcells⟩
          rw [hskip]
          ring
    case isFalse hlong =>
        refine .inl ⟨0, ys, lines, rfl, rfl, not_lt.mp hlong, ?_, rfl⟩
        rw [List.flatten_cons, List.length_append]

end GridMap

end

namespace PolygonIterator

variable [FloorRing K] {gridMap : GridMap K} {fromRow : ℤ} {lines : List (List K)}

/-- The fields that the constructor sets. -/
structure Scans (gridMap : GridMap K) (fromRow : ℤ) (lines : List (List K))
    (iterator : PolygonIterator K) : Prop where
  rowOfFirstLine : iterator.rowOfFirstLine = fromRow
  mapStartIdx : iterator.mapStartIdx = gridMap.startIndex
  mapSize : iterator.mapSize = gridMap.size
  mapResolution : iterator.mapResolution = gridMap.resolution
  mapOriginY : iterator.mapOriginY = gridMap.origin.y
  intersectionsPerLine : iterator.intersectionsPerLine = lines

def left (iterator : PolygonIterator K) : ℕ :=
  iterator.intersectionIter.length +
    (iterator.intersectionsPerLine.drop (iterator.currentLine + 1)).flatten.length

/-- The cells after the current pair. -/
def later (gridMap : GridMap K) (iterator : PolygonIterator K) (ys : List K) : List (ℕ × ℤ) :=
  gridMap.lineCells iterator.currentLine ys ++ gridMap.linesCells (iterator.currentLine + 1)
      (iterator.intersectionsPerLine.drop (iterator.currentLine + 1))

/-- An iterator that has the given cells to visit. -/
inductive Stands (gridMap : GridMap K) (iterator : PolygonIterator K) : List (ℕ × ℤ) → Prop where
  | pastEnd (hend : iterator.isPastEnd = true) : Stands gridMap iterator []
  | inside {y : K} {ys : List K} (hend : iterator.isPastEnd = false)
      (hiter : iterator.intersectionIter = y :: ys)
      (hcol : iterator.currentCol ≤ iterator.currentToCol) :
      Stands gridMap iterator
        ((interval iterator.currentCol iterator.currentToCol).map (iterator.currentLine, ·) ++
          later gridMap iterator ys)

def HasIndex (gridMap : GridMap K) (fromRow : ℤ) (iterator : PolygonIterator K) : Prop :=
  iterator.currentIndex = gridMap.cellIndex fromRow (iterator.currentLine, iterator.currentCol)

variable {iterator : PolygonIterator K}

section
omit [FloorRing K]

theorem Scans.calculateIndex (hscans : Scans gridMap fromRow lines iterator) :
    Scans gridMap fromRow lines iterator.calculateIndex :=
  ⟨hscans.1, hscans.2, hscans.3, hscans.4, hscans.5, hscans.6⟩

theorem Scans.hasIndex_calculateIndex (hscans : Scans gridMap fromRow lines iterator) :
    HasIndex gridMap fromRow iterator.calculateIndex := by
  rw [HasIndex]
  rw [PolygonIterator.calculateIndex, GridMap.cellIndex, hscans.mapStartIdx, hscans.mapSize,
    hscans.rowOfFirstLine]

end

theorem Stands.calculateIndex {cells : List (ℕ × ℤ)} (hstands : Stands gridMap iterator cells) :
    Stands gridMap iterator.calculateIndex cells := by
  cases hstands with
  | pastEnd hend => exact .pastEnd hend
  | inside hend hiter hcol => exact Stands.inside hend hiter hcol

/-! ## Increments -/

omit [FloorRing K] in
theorem Scans.goToLine (hscans : Scans gridMap fromRow lines iterator) (line : ℕ) :
    Scans gridMap fromRow lines (iterator.goToLine line) :=
  ⟨hscans.1, hscans.2, hscans.3, hscans.4, hscans.5, hscans.6⟩

theorem goToLine_cases (gridMap : GridMap K) (iterator : PolygonIterator K) (line : ℕ) :
    ((iterator.goToLine line).isPastEnd = false ∧
        2 ≤ (iterator.goToLine line).intersectionIter.length ∧
        (iterator.goToLine line).left ≤ (iterator.intersectionsPerLine.drop line).flatten.length ∧
        gridMap.linesCells line (iterator.intersectionsPerLine.drop line) =
          later gridMap (iterator.goToLine line) (iterator.goToLine line).intersectionIter) ∨
      ((iterator.goToLine line).isPastEnd = true ∧
        gridMap.linesCells line (iterator.intersectionsPerLine.drop line) = []) := by
  rcases GridMap.skipLines_cases gridMap line
      (iterator.intersectionsPerLine.drop line) with
    ⟨i, ys, tail, hskip, hdrop, hlong, hlength, hcells⟩ | ⟨hskip, hcells⟩
  · rw [List.drop_drop] at hdrop
    have hget : iterator.intersectionsPerLine[line + i]? = some ys := by
      rw [← List.head?_drop, hdrop]
      rfl
    have hlater : iterator.intersectionsPerLine.drop (line + i + 1) = tail := by
      rw [← List.tail_drop, hdrop]
      rfl
    have hgo : iterator.goToLine line =
        { iterator with currentLine := line + i, intersectionIter := ys } := by
      rw [goToLine, hskip, hget]
      rfl
    have hlt : line + i < iterator.intersectionsPerLine.length :=
      (List.getElem?_eq_some_iff.mp hget).1
    refine .inl ⟨?_, ?_, ?_, ?_⟩
    · rw [hgo, isPastEnd]
      exact decide_eq_false (not_le.mpr hlt)
    · rw [hgo]
      exact hlong
    · rw [hgo, left]
      change ys.length + (iterator.intersectionsPerLine.drop (line + i + 1)).flatten.length ≤ _
      rw [hlater]
      exact hlength
    · rw [hgo, later]
      change _ = gridMap.lineCells (line + i) ys ++ gridMap.linesCells (line + i + 1)
        (iterator.intersectionsPerLine.drop (line + i + 1))
      rw [hlater, hcells]
  · refine .inr ⟨?_, hcells⟩
    rw [isPastEnd, goToLine]
    apply decide_eq_true
    change iterator.intersectionsPerLine.length ≤
      skipLines line (iterator.intersectionsPerLine.drop line)
    rw [hskip, List.length_drop]
    omega

/-- What calculating the columns of a pair leads to, while fuel is left. -/
def Calculates (gridMap : GridMap K) (fromRow : ℤ) (lines : List (List K)) (fuel : ℕ)
    (calculate : PolygonIterator K → Except Failure (PolygonIterator K)) : Prop :=
  ∀ iterator, Scans gridMap fromRow lines iterator → iterator.isPastEnd = false →
    2 ≤ iterator.intersectionIter.length → iterator.left < fuel →
    ∃ next, calculate iterator = .ok next ∧ Scans gridMap fromRow lines next ∧
      (next.isPastEnd = false → next.left ≤ iterator.left) ∧
      Stands gridMap next (later gridMap iterator iterator.intersectionIter)

theorem nextPair_cases {y : K} {ys : List K} (hscans : Scans gridMap fromRow lines iterator)
    (hend : iterator.isPastEnd = false) (hiter : iterator.intersectionIter = y :: ys) :
    ∃ next : PolygonIterator K,
      (if ys.isEmpty || ys.tail.isEmpty then
          ({ iterator with intersectionIter := ys } : PolygonIterator K).goToNextLine
        else { iterator with intersectionIter := ys }) = next ∧
      Scans gridMap fromRow lines next ∧
      ((next.isPastEnd = false ∧ 2 ≤ next.intersectionIter.length ∧ next.left < iterator.left ∧
          later gridMap iterator ys = later gridMap next next.intersectionIter) ∨
        (next.isPastEnd = true ∧ later gridMap iterator ys = [])) := by
  have hleft : iterator.left = ys.length + 1 +
      (iterator.intersectionsPerLine.drop (iterator.currentLine + 1)).flatten.length := by
    rw [left, hiter, List.length_cons]
  have hscans' : Scans gridMap fromRow lines { iterator with intersectionIter := ys } :=
    ⟨hscans.1, hscans.2, hscans.3, hscans.4, hscans.5, hscans.6⟩
  refine ⟨_, rfl, ?_⟩
  split
  case isTrue hshort =>
      have hlength : ys.length < 2 := by
        match ys, hshort with
        | [], _ => exact Nat.zero_lt_two
        | [_], _ => exact Nat.one_lt_two
        | _ :: _ :: _, hshort => cases hshort
      have hlater : later gridMap iterator ys = gridMap.linesCells (iterator.currentLine + 1)
          (iterator.intersectionsPerLine.drop (iterator.currentLine + 1)) := by
        rw [later, GridMap.lineCells_of_length_lt hlength, List.nil_append]
      refine ⟨hscans'.goToLine _, ?_⟩
      rw [hlater]
      rcases goToLine_cases gridMap { iterator with intersectionIter := ys }
          (iterator.currentLine + 1) with ⟨hinside, hpair, hle, hcells⟩ | ⟨hpast, hcells⟩
      · refine .inl ⟨hinside, hpair, ?_, hcells⟩
        rw [hleft]
        exact hle.trans_lt (by dsimp only; omega)
      · exact .inr ⟨hpast, hcells⟩
  case isFalse hlong =>
      have hlength : 2 ≤ ys.length := by
        match ys, hlong with
        | [], hlong => exact absurd rfl hlong
        | [_], hlong => exact absurd rfl hlong
        | _ :: _ :: _, _ => exact Nat.le_add_left 2 _
      refine ⟨hscans', .inl ⟨hend, hlength, ?_, rfl⟩⟩
      rw [hleft, left]
      dsimp only
      omega

variable {fuel : ℕ}

theorem increment_eq_ok {calculate : PolygonIterator K → Except Failure (PolygonIterator K)}
    (hcalculate : Calculates gridMap fromRow lines fuel calculate)
    (hscans : Scans gridMap fromRow lines iterator) (hend : iterator.isPastEnd = false) {y : K}
    {ys : List K} (hiter : iterator.intersectionIter = y :: ys) (hfuel : iterator.left ≤ fuel) :
    ∃ next, increment calculate iterator = .ok next ∧ Scans gridMap fromRow lines next ∧
      (next.isPastEnd = false → next.left ≤ iterator.left ∧ HasIndex gridMap fromRow next) ∧
      Stands gridMap next ((interval (iterator.currentCol + 1) iterator.currentToCol).map
          (iterator.currentLine, ·) ++ later gridMap iterator ys) := by
  have hscans' : Scans gridMap fromRow lines
      { iterator with currentCol := iterator.currentCol + 1 } :=
    ⟨hscans.1, hscans.2, hscans.3, hscans.4, hscans.5, hscans.6⟩
  rw [increment]
  by_cases hbeyond : iterator.currentToCol < iterator.currentCol + 1
  · rw [interval_eq_nil hbeyond, List.map_nil, List.nil_append]
    obtain ⟨pair, hpair, hscansPair, hcases⟩ := nextPair_cases hscans' hend hiter
    dsimp only at hpair ⊢
    rw [if_pos hbeyond, hiter, advance]
    simp only [bind, Except.bind, hpair]
    rcases hcases with ⟨hinside, hlong, hlt, hcells⟩ | ⟨hpast, hcells⟩
    · obtain ⟨next, hnext, hscansNext, hle, hstands⟩ :=
        hcalculate pair hscansPair hinside hlong (hlt.trans_le hfuel)
      rw [← hcells] at hstands
      rw [hinside, if_neg Bool.false_ne_true, hnext]
      dsimp only
      cases hnextEnd : next.isPastEnd with
      | true =>
        rw [if_pos rfl]
        refine ⟨next, rfl, hscansNext, fun hfalse => ?_, hstands⟩
        cases hnextEnd.symm.trans hfalse
      | false =>
        rw [if_neg Bool.false_ne_true]
        exact ⟨next.calculateIndex, rfl, hscansNext.calculateIndex,
          fun _ => ⟨(hle hnextEnd).trans hlt.le, hscansNext.hasIndex_calculateIndex⟩,
          hstands.calculateIndex⟩
    · rw [hpast, if_pos rfl, if_pos rfl]
      refine ⟨pair, rfl, hscansPair, fun hfalse => ?_, ?_⟩
      · cases hpast.symm.trans hfalse
      · rw [show later gridMap iterator ys = [] from hcells]
        exact .pastEnd hpast
  · have hle := not_lt.mp hbeyond
    dsimp only
    rw [if_neg hbeyond]
    refine ⟨PolygonIterator.calculateIndex { iterator with currentCol := iterator.currentCol + 1 },
      ?_, hscans'.calculateIndex, fun _ => ⟨le_refl _, hscans'.hasIndex_calculateIndex⟩, ?_⟩
    · change (if _ then _ else _) = _
      rw [if_neg]
      exact Bool.eq_false_iff.mp hend
    · apply Stands.calculateIndex
      exact Stands.inside hend hiter hle

def atPair (gridMap : GridMap K) (iterator : PolygonIterator K) (y next : K) (ys : List K) :
    PolygonIterator K :=
  { iterator with
    intersectionIter := next :: ys
    currentCol := gridMap.fromColumn y
    currentToCol := gridMap.toColumn next }

theorem Scans.atPair (hscans : Scans gridMap fromRow lines iterator) (y next : K) (ys : List K) :
    Scans gridMap fromRow lines (iterator.atPair gridMap y next ys) :=
  ⟨hscans.1, hscans.2, hscans.3, hscans.4, hscans.5, hscans.6⟩

theorem calculateColumnIndexes_succ (hscans : Scans gridMap fromRow lines iterator)
    {y next : K} {ys : List K} (hiter : iterator.intersectionIter = y :: next :: ys) :
    calculateColumnIndexes (fuel + 1) iterator =
      if gridMap.toColumn next < gridMap.fromColumn y then
        increment (calculateColumnIndexes fuel) (iterator.atPair gridMap y next ys)
      else .ok (iterator.atPair gridMap y next ys) := by
  rw [calculateColumnIndexes, hiter, atPair, GridMap.toColumn, GridMap.fromColumn,
    ← hscans.mapSize, ← hscans.mapResolution, ← hscans.mapOriginY]
  rfl

theorem later_cons_cons (iterator : PolygonIterator K) (y next : K) (ys : List K) :
    later gridMap iterator (y :: next :: ys) =
      (interval (gridMap.fromColumn y) (gridMap.toColumn next)).map (iterator.currentLine, ·) ++
        later gridMap iterator ys := by
  rw [later, GridMap.lineCells, GridMap.pairColumns, List.map_append, List.append_assoc]
  rfl

theorem calculates_calculateColumnIndexes (gridMap : GridMap K) (fromRow : ℤ)
    (lines : List (List K)) (fuel : ℕ) :
    Calculates gridMap fromRow lines fuel (calculateColumnIndexes fuel) := by
  induction fuel with
  | zero =>
    intro iterator _ _ _ hfuel
    exact absurd hfuel (Nat.not_lt_zero _)
  | succ fuel ih =>
    intro iterator hscans hend hlong hfuel
    match hiter : iterator.intersectionIter with
    | [] =>
      rw [hiter] at hlong
      cases hlong
    | [_] =>
      rw [hiter] at hlong
      cases Nat.le_of_succ_le_succ hlong
    | y :: next :: ys =>
      have hleft : (iterator.atPair gridMap y next ys).left + 1 = iterator.left := by
        rw [left, left, hiter, atPair]
        simp only [List.length_cons]
        omega
      rw [calculateColumnIndexes_succ hscans hiter, later_cons_cons]
      by_cases hempty : gridMap.toColumn next < gridMap.fromColumn y
      · obtain ⟨found, hfound, hscansFound, hleftFound, hstands⟩ :=
          increment_eq_ok ih (hscans.atPair y next ys) hend rfl (by omega)
        rw [if_pos hempty, interval_eq_nil hempty]
        refine ⟨found, hfound, hscansFound, fun hinside => ?_, ?_⟩
        · exact (hleftFound hinside).1.trans (hleft ▸ Nat.le_succ _)
        · rw [interval_eq_nil] at hstands
          · exact hstands
          · exact hempty.trans (Int.lt_succ _)
      · rw [if_neg hempty]
        refine ⟨_, rfl, hscans.atPair y next ys, fun _ => hleft ▸ Nat.le_succ _, ?_⟩
        exact Stands.inside hend rfl (not_lt.mp hempty)

theorem indexes_eq_ok {cells : List (ℕ × ℤ)} {fuel steps : ℕ}
    (hscans : Scans gridMap fromRow lines iterator) (hstands : Stands gridMap iterator cells)
    (hleft : iterator.isPastEnd = false → iterator.left ≤ fuel ∧ HasIndex gridMap fromRow iterator)
    (hsteps : cells.length < steps) :
    indexes fuel steps iterator = .ok (cells.map (gridMap.cellIndex fromRow)) := by
  induction steps generalizing iterator cells with
  | zero => exact absurd hsteps (Nat.not_lt_zero _)
  | succ steps ih =>
    rw [indexes]
    cases hstands with
    | pastEnd hend =>
      rw [hend]
      rfl
    | inside hend hiter hcol =>
      obtain ⟨hfuel, hindex⟩ := hleft hend
      obtain ⟨next, hnext, hscansNext, hleftNext, hstandsNext⟩ := increment_eq_ok
        (calculates_calculateColumnIndexes gridMap fromRow lines fuel) hscans hend hiter hfuel
      rw [interval_eq_cons hcol, List.map_cons, List.cons_append, List.length_cons] at hsteps
      have hrest := ih hscansNext hstandsNext
        (fun hinside => ⟨(hleftNext hinside).1.trans hfuel, (hleftNext hinside).2⟩)
        (Nat.lt_of_succ_lt_succ hsteps)
      rw [hend, if_neg Bool.false_ne_true, hnext, interval_eq_cons hcol]
      dsimp only [bind, Except.bind]
      rw [hrest, hindex]
      rfl

def scannedLines (gridMap : GridMap K) (polygon : List (Position K)) : ℤ × List (List K) :=
  match calculateSortedEdges (closePolygon polygon) with
  | [] => (0, [])
  | front :: edges =>
    let fromToRow := calculateRowRange front (front :: edges) gridMap
    (fromToRow.1, calculateIntersectionsPerLine (front :: edges) fromToRow gridMap)

theorem goToLine_zero (hscans : Scans gridMap fromRow lines iterator)
    (hfuel : lines.flatten.length < fuel) :
    ∃ first, (if (iterator.goToLine 0).isPastEnd then .ok (iterator.goToLine 0)
        else do return (← calculateColumnIndexes fuel (iterator.goToLine 0)).calculateIndex) =
          Except.ok first ∧
      Scans gridMap fromRow lines first ∧ Stands gridMap first (gridMap.linesCells 0 lines) ∧
      (first.isPastEnd = false → first.left ≤ fuel ∧ HasIndex gridMap fromRow first) := by
  have hcases := goToLine_cases gridMap iterator 0
  rw [List.drop_zero, hscans.intersectionsPerLine] at hcases
  rcases hcases with ⟨hinside, hlong, hleft, hcells⟩ | ⟨hpast, hcells⟩
  · obtain ⟨first, hfirst, hscansFirst, hleftFirst, hstands⟩ :=
      calculates_calculateColumnIndexes gridMap fromRow lines fuel _ (hscans.goToLine 0) hinside
        hlong (hleft.trans_lt hfuel)
    rw [hinside, if_neg Bool.false_ne_true, hfirst, hcells]
    refine ⟨first.calculateIndex, rfl, hscansFirst.calculateIndex, hstands.calculateIndex, ?_⟩
    intro hfirstEnd
    exact ⟨(hleftFirst hfirstEnd).trans (hleft.trans hfuel.le), hscansFirst.hasIndex_calculateIndex⟩
  · rw [hpast, if_pos rfl, hcells]
    refine ⟨_, rfl, hscans.goToLine 0, .pastEnd hpast, fun hfalse => ?_⟩
    cases hpast.symm.trans hfalse

theorem construct_eq_ok {polygon : List (Position K)} (hpolygon : 3 ≤ polygon.length)
    (hfuel : (scannedLines gridMap polygon).2.flatten.length < fuel) :
    ∃ iterator, construct fuel gridMap polygon = .ok iterator ∧
      Scans gridMap (scannedLines gridMap polygon).1 (scannedLines gridMap polygon).2 iterator ∧
      Stands gridMap iterator (gridMap.linesCells 0 (scannedLines gridMap polygon).2) ∧
      (iterator.isPastEnd = false → iterator.left ≤ fuel ∧
        HasIndex gridMap (scannedLines gridMap polygon).1 iterator) := by
  rw [construct, if_neg (not_lt.mpr hpolygon)]
  rw [scannedLines] at hfuel ⊢
  cases hedges : calculateSortedEdges (closePolygon polygon) with
  | nil =>
    refine ⟨_, rfl, ⟨rfl, rfl, rfl, rfl, rfl, rfl⟩, .pastEnd rfl, fun hfalse => ?_⟩
    cases hfalse
  | cons front edges =>
    rw [hedges] at hfuel
    dsimp only at hfuel ⊢
    cases hlines : calculateIntersectionsPerLine (front :: edges)
        (calculateRowRange front (front :: edges) gridMap) gridMap with
    | nil =>
      refine ⟨_, rfl, ⟨rfl, rfl, rfl, rfl, rfl, rfl⟩, .pastEnd rfl, fun hfalse => ?_⟩
      cases hfalse
    | cons ys lines =>
      rw [hlines] at hfuel
      exact goToLine_zero ⟨rfl, rfl, rfl, rfl, rfl, rfl⟩ hfuel

theorem iterate_eq_ok {polygon : List (Position K)} (hpolygon : 3 ≤ polygon.length)
    (hlines : (scannedLines gridMap polygon).2.flatten.length < fuel)
    (hcells : (gridMap.linesCells 0 (scannedLines gridMap polygon).2).length < fuel) :
    iterate fuel gridMap polygon = .ok ((gridMap.linesCells 0 (scannedLines gridMap polygon).2).map
        (gridMap.cellIndex (scannedLines gridMap polygon).1)) := by
  obtain ⟨iterator, hconstruct, hscans, hstands, hleft⟩ := construct_eq_ok hpolygon hlines
  rw [iterate, hconstruct]
  exact indexes_eq_ok hscans hstands hleft hcells

end PolygonIterator

end

/-!
## Rows of the polygon iterator

The columns of a line are those whose centres are between the intersections of a pair.  To
erase pairs beside the map changes nothing for its columns as long as every intersection
keeps its partner.
-/

section

section

open Library.CellGrid (truncate max_truncate)

variable {K : Type} [Field K] [LinearOrder K] [IsStrictOrderedRing K]

omit [IsStrictOrderedRing K] in
theorem clampIndex_lt [FloorRing K] {size : ℤ} (hsize : 0 < size) (value : K) :
    clampIndex size value < size := by
  rw [clampIndex]
  omega

namespace GridMap

variable (gridMap : GridMap K)

def columnY (col : ℤ) : K := gridMap.origin.y - gridMap.resolution * col

def OnMap (upper lower : K) : Prop := gridMap.lowerY < upper ∧ lower < gridMap.origin.y

variable {gridMap}

theorem columnY_lt_columnY {col other : ℤ} :
    gridMap.columnY col < gridMap.columnY other ↔ other < col := by
  rw [columnY, columnY, sub_lt_sub_iff_left, mul_lt_mul_iff_right₀ gridMap.resolution_pos,
    Int.cast_lt]

variable {col : ℤ}

theorem columnY_le_origin (hcol : 0 ≤ col) : gridMap.columnY col ≤ gridMap.origin.y :=
  sub_le_self _ (mul_nonneg gridMap.resolution_pos.le (Int.cast_nonneg hcol))

omit [IsStrictOrderedRing K] in
theorem columnY_last : gridMap.columnY (gridMap.size.2 - 1) = gridMap.lowerY := by
  rw [columnY, lowerY, mul_comm]
  push_cast
  ring

theorem lowerY_le_columnY (hcol : col < gridMap.size.2) :
    gridMap.lowerY ≤ gridMap.columnY col := by
  rw [← columnY_last]
  apply not_lt.mp
  rw [columnY_lt_columnY]
  omega

variable [FloorRing K]

theorem clampIndex_le_iff {size i : ℤ} {value : K} (hi : 0 ≤ i) (hsize : i < size) :
    clampIndex size value ≤ i ↔ value < i + 1 ∨ i = size - 1 := by
  have hfloor : truncate value ≤ i ↔ value < i + 1 := by
    have hmax : ∀ n : ℤ, n ≤ i ↔ max 0 n ≤ i := fun n => by
      rw [max_le_iff]
      exact ⟨fun hle => ⟨hi, hle⟩, And.right⟩
    rw [hmax, max_truncate, ← hmax, ← Int.lt_add_one_iff, Int.floor_lt]
    push_cast
    rfl
  rw [clampIndex, max_le_iff, min_le_iff, hfloor, and_iff_right hi]
  constructor <;> rintro (hlt | hlast)
  · exact .inl hlt
  · exact .inr (by omega)
  · exact .inl hlt
  · exact .inr hlast.ge

theorem le_clampIndex_iff {size i : ℤ} {value : K} (hi : 0 ≤ i) (hsize : i < size) :
    i ≤ clampIndex size value ↔ i ≤ value ∨ i = 0 := by
  rw [clampIndex, le_max_iff, le_min_iff]
  constructor
  · rintro (hzero | ⟨hle, _⟩)
    · exact .inr (le_antisymm hzero hi)
    · rcases hi.eq_or_lt with hzero | hpos
      · exact .inr hzero.symm
      · have hfloor : max 0 (truncate value) = max 0 ⌊value⌋ := max_truncate value
        exact .inl (Int.le_floor.mp (by omega))
  · rintro (hle | hzero)
    · have hvalue : 0 ≤ value := (Int.cast_nonneg hi).trans hle
      rw [Library.CellGrid.truncate_of_nonneg hvalue]
      exact .inr ⟨Int.le_floor.mpr hle, by omega⟩
    · exact .inl hzero.le

theorem fromColumn_le_iff {y : K} (hy : gridMap.lowerY < y) (hcol : 0 ≤ col)
    (hlt : col < gridMap.size.2) :
    gridMap.fromColumn y ≤ col ↔ gridMap.columnY col < y := by
  rw [fromColumn, clampIndex_le_iff hcol hlt, div_lt_iff₀ gridMap.resolution_pos]
  constructor
  · rintro (hbefore | rfl)
    · rw [columnY]
      linarith
    · rw [columnY_last]
      exact hy
  · intro hbefore
    rw [columnY] at hbefore
    exact .inl (by linarith)

theorem le_toColumn_iff {y : K} (hy : y < gridMap.origin.y) (hcol : 0 ≤ col)
    (hlt : col < gridMap.size.2) :
    col ≤ gridMap.toColumn y ↔ y ≤ gridMap.columnY col := by
  rw [toColumn, le_clampIndex_iff hcol hlt, le_div_iff₀ gridMap.resolution_pos, columnY]
  constructor
  · rintro (hle | rfl)
    · linarith
    · rw [Int.cast_zero, mul_zero, sub_zero]
      exact hy.le
  · intro hle
    exact .inl (by linarith)

section
omit [IsStrictOrderedRing K]

theorem fromColumn_nonneg (y : K) : 0 ≤ gridMap.fromColumn y := le_max_left 0 _

theorem toColumn_lt (y : K) : gridMap.toColumn y < gridMap.size.2 :=
  clampIndex_lt gridMap.size_pos.2 _

end

theorem mem_interval_iff {upper lower : K} (hmap : gridMap.OnMap upper lower) :
    col ∈ interval (gridMap.fromColumn upper) (gridMap.toColumn lower) ↔
      (0 ≤ col ∧ col < gridMap.size.2) ∧
        lower ≤ gridMap.columnY col ∧ gridMap.columnY col < upper := by
  rw [mem_interval]
  constructor
  · rintro ⟨hfrom, hto⟩
    have hcol := (fromColumn_nonneg upper).trans hfrom
    have hlt := hto.trans_lt (toColumn_lt lower)
    exact ⟨⟨hcol, hlt⟩, (le_toColumn_iff hmap.2 hcol hlt).mp hto,
      (fromColumn_le_iff hmap.1 hcol hlt).mp hfrom⟩
  · rintro ⟨⟨hcol, hlt⟩, hlower, hupper⟩
    exact ⟨(fromColumn_le_iff hmap.1 hcol hlt).mpr hupper,
      (le_toColumn_iff hmap.2 hcol hlt).mpr hlower⟩

theorem mem_pairColumns {ys : List K} (hmap : AllPairs gridMap.OnMap ys) :
    col ∈ gridMap.pairColumns ys ↔
      (0 ≤ col ∧ col < gridMap.size.2) ∧ Covers ys (gridMap.columnY col) := by
  induction ys using pairColumns.induct with
  | case1 upper lower ys ih =>
    rw [pairColumns, List.mem_append, mem_interval_iff hmap.1, ih hmap.2, Covers]
    tauto
  | case2 ys hshort =>
    rw [pairColumns, Covers]
    · simp
    · exact hshort
    · exact hshort

theorem pairwise_pairColumns {ys : List K} (hsorted : ys.Pairwise (· ≥ ·))
    (hmap : AllPairs gridMap.OnMap ys) : (gridMap.pairColumns ys).Pairwise (· < ·) := by
  induction ys using pairColumns.induct with
  | case1 upper lower ys ih =>
    obtain ⟨_, hrest⟩ := List.pairwise_cons.mp hsorted
    obtain ⟨hlower, hsorted⟩ := List.pairwise_cons.mp hrest
    rw [pairColumns, List.pairwise_append]
    refine ⟨pairwise_interval _ _, ih hsorted hmap.2, ?_⟩
    intro col hcol other hother
    obtain ⟨_, hle, _⟩ := (mem_interval_iff hmap.1).mp hcol
    obtain ⟨cut, hcut, hlt⟩ := exists_mem_of_covers ((mem_pairColumns hmap.2).mp hother).2
    exact columnY_lt_columnY.mp ((hlt.trans_le (hlower cut hcut)).trans_le hle)
  | case2 ys hshort =>
    rw [pairColumns]
    · exact .nil
    · exact hshort

/-- Row-major order. -/
def Precedes (cell other : ℕ × ℤ) : Prop :=
  cell.1 < other.1 ∨ cell.1 = other.1 ∧ cell.2 < other.2

omit [IsStrictOrderedRing K]

theorem mem_linesCells {start line : ℕ} {lines : List (List K)} :
    (line, col) ∈ gridMap.linesCells start lines ↔
      ∃ i ys, line = start + i ∧ lines[i]? = some ys ∧ col ∈ gridMap.pairColumns ys := by
  induction lines generalizing start with
  | nil => simp [linesCells]
  | cons ys lines ih =>
    rw [linesCells, List.mem_append, ih, lineCells, List.mem_map]
    constructor
    · rintro (⟨other, hmem, heq⟩ | ⟨i, found, rfl, hfound, hmem⟩)
      · cases heq
        exact ⟨0, ys, rfl, rfl, hmem⟩
      · exact ⟨i + 1, found, by ring, hfound, hmem⟩
    · rintro ⟨i, found, rfl, hfound, hmem⟩
      cases i with
      | zero =>
        cases hfound
        exact .inl ⟨col, hmem, rfl⟩
      | succ i => exact .inr ⟨i, found, by ring, hfound, hmem⟩

theorem pairwise_linesCells {start : ℕ} {lines : List (List K)}
    (hlines : ∀ ys ∈ lines, (gridMap.pairColumns ys).Pairwise (· < ·)) :
    (gridMap.linesCells start lines).Pairwise Precedes := by
  induction lines generalizing start with
  | nil => exact .nil
  | cons ys lines ih =>
    obtain ⟨hline, hlater⟩ := List.forall_mem_cons.mp hlines
    rw [linesCells, List.pairwise_append]
    refine ⟨?_, ih hlater, ?_⟩
    · exact List.Pairwise.map _ (fun _ _ hlt => .inr ⟨rfl, hlt⟩) hline
    · intro cell hcell other hother
      obtain ⟨col, _, rfl⟩ := List.mem_map.mp hcell
      obtain ⟨i, _, hlater, _⟩ := mem_linesCells.mp hother
      exact .inl (by dsimp only; omega)

end GridMap

/-! ## Erased pairs -/

omit [Field K] [IsStrictOrderedRing K]

theorem exists_eraseAbove (originY : K) (ys : List K) :
    ∃ erased, ys = erased ++ eraseAbove originY ys ∧ Even erased.length ∧
      ∀ y ∈ erased, originY ≤ y := by
  induction ys using eraseAbove.induct originY with
  | case1 y next ys hboth ih =>
    obtain ⟨erased, heq, heven, habove⟩ := ih
    refine ⟨y :: next :: erased, ?_, ?_, ?_⟩
    · rw [eraseAbove, if_pos hboth, List.cons_append, List.cons_append, ← heq]
    · rw [List.length_cons, List.length_cons, add_assoc]
      exact heven.add (by decide)
    · exact List.forall_mem_cons.mpr ⟨hboth.1, List.forall_mem_cons.mpr ⟨hboth.2, habove⟩⟩
  | case2 y next ys hboth =>
    refine ⟨[], ?_, Even.zero, fun _ hmem => absurd hmem List.not_mem_nil⟩
    rw [eraseAbove, if_neg hboth, List.nil_append]
  | case3 ys hshort =>
    refine ⟨[], ?_, Even.zero, fun _ hmem => absurd hmem List.not_mem_nil⟩
    rw [eraseAbove]
    · rfl
    · exact hshort

variable {ys : List K}

theorem tail_eraseAbove (originY : K) (hsorted : ys.Pairwise (· ≥ ·)) :
    ∀ y ∈ (eraseAbove originY ys).tail, y < originY := by
  induction ys using eraseAbove.induct originY with
  | case1 y next ys hboth ih =>
    rw [eraseAbove, if_pos hboth]
    exact ih hsorted.tail.tail
  | case2 y next ys hboth =>
    obtain ⟨hy, hrest⟩ := List.pairwise_cons.mp hsorted
    have hnext : next < originY := by
      by_contra hge
      exact hboth ⟨(not_lt.mp hge).trans (hy next List.mem_cons_self), not_lt.mp hge⟩
    rw [eraseAbove, if_neg hboth, List.tail_cons]
    intro other hother
    rcases List.mem_cons.mp hother with rfl | hlater
    · exact hnext
    · exact ((List.pairwise_cons.mp hrest).1 other hlater).trans_lt hnext
  | case3 ys hshort =>
    match ys, hshort with
    | [], _ => exact fun _ hmem => absurd hmem List.not_mem_nil
    | [_], _ => exact fun _ hmem => absurd hmem List.not_mem_nil
    | y :: next :: ys, hshort => exact absurd rfl (hshort y next ys)

omit [LinearOrder K] in
/-- At most one intersection is left over. -/
theorem erasePairs_cases (ys : List K) : (Even ys.length ∧ erasePairs ys = []) ∨
      (Odd ys.length ∧ ∃ y ∈ ys, erasePairs ys = [y]) := by
  induction ys using erasePairs.induct with
  | case1 y next ys ih =>
    rw [erasePairs, List.length_cons, List.length_cons, add_assoc, Nat.even_add, Nat.odd_add]
    rcases ih with ⟨heven, hnil⟩ | ⟨hodd, last, hmem, hlast⟩
    · exact .inl ⟨iff_of_true heven (by decide), hnil⟩
    · exact .inr ⟨iff_of_true hodd (by decide), last,
        List.mem_cons_of_mem _ (List.mem_cons_of_mem _ hmem), hlast⟩
  | case2 ys hshort =>
    match ys, hshort with
    | [], _ => exact .inl ⟨Even.zero, rfl⟩
    | [y], _ => exact .inr ⟨odd_one, y, List.mem_cons_self, rfl⟩
    | y :: next :: ys, hshort => exact absurd rfl (hshort y next ys)

theorem dropWhile_le (lowerY : K) (hsorted : ys.Pairwise (· ≥ ·)) :
    ∀ y ∈ ys.dropWhile (fun y => decide (lowerY < y)), y ≤ lowerY := by
  induction ys with
  | nil => exact fun _ hmem => absurd hmem List.not_mem_nil
  | cons first ys ih =>
    obtain ⟨hfirst, hrest⟩ := List.pairwise_cons.mp hsorted
    by_cases hlt : lowerY < first
    · rw [List.dropWhile_cons, if_pos (decide_eq_true hlt)]
      exact ih hrest
    · rw [List.dropWhile_cons, if_neg (by simpa using hlt)]
      intro y hy
      rcases List.mem_cons.mp hy with rfl | hlater
      · exact not_lt.mp hlt
      · exact (hfirst y hlater).trans (not_lt.mp hlt)

theorem countAbove_eq_length_takeWhile (lowerY : K) (hsorted : ys.Pairwise (· ≥ ·)) :
    countAbove lowerY ys = (ys.takeWhile fun y => decide (lowerY < y)).length := by
  conv_lhs => rw [← List.takeWhile_append_dropWhile (p := fun y => decide (lowerY < y)) (l := ys)]
  rw [countAbove_append, countAbove_eq_zero (dropWhile_le lowerY hsorted), add_zero]
  apply countAbove_eq_length
  intro y hy
  exact of_decide_eq_true (List.mem_takeWhile_imp (p := fun y => decide (lowerY < y)) hy)

theorem eraseBelow_sublist (lowerY : K) (ys : List K) : (eraseBelow lowerY ys).Sublist ys := by
  have hpairs : ∀ zs : List K, (erasePairs zs).Sublist zs := fun zs => by
    rcases erasePairs_cases zs with ⟨_, hnil⟩ | ⟨_, y, hmem, hlast⟩
    · rw [hnil]
      exact List.nil_sublist zs
    · rw [hlast]
      exact List.singleton_sublist.mpr hmem
  conv_rhs => rw [← List.takeWhile_append_dropWhile (p := fun y => decide (lowerY < y)) (l := ys)]
  exact (hpairs _).append_left _

theorem covers_eraseBelow {lowerY y : K} (hsorted : ys.Pairwise (· ≥ ·))
    (hy : y ∉ ys) (hlower : lowerY ≤ y) :
    Covers (eraseBelow lowerY ys) y ↔ Odd (countAbove y ys) ∧
      (countAbove y ys < countAbove lowerY ys ∨ Even ys.length) := by
  have hbelow := dropWhile_le lowerY hsorted
  have hlength := congrArg List.length
    (List.takeWhile_append_dropWhile (p := fun y => decide (lowerY < y)) (l := ys))
  have hcount : countAbove y ys =
      countAbove y (ys.takeWhile fun y => decide (lowerY < y)) := by
    conv_lhs => rw [← List.takeWhile_append_dropWhile (p := fun y => decide (lowerY < y)) (l := ys)]
    rw [countAbove_append, countAbove_eq_zero fun cut hcut => (hbelow cut hcut).trans hlower,
      add_zero]
  have hle := countAbove_le_length y (ys.takeWhile fun y => decide (lowerY < y))
  have hkept := eraseBelow_sublist lowerY ys
  rw [covers_iff (hsorted.sublist hkept) fun hmem => hy (hkept.subset hmem),
    countAbove_eq_length_takeWhile lowerY hsorted, hcount]
  rw [List.length_append] at hlength
  rw [eraseBelow, countAbove_append, List.length_append]
  rcases erasePairs_cases (ys.dropWhile fun y => decide (lowerY < y)) with
    ⟨heven, hnil⟩ | ⟨hodd, last, hmem, hlast⟩
  · rw [hnil, countAbove_nil, List.length_nil, ← hlength]
    grind
  · rw [hlast, countAbove_cons_of_le ((hbelow last hmem).trans hlower), countAbove_nil,
      List.length_singleton, ← hlength]
    grind

theorem allPairs_eraseBelow {lowerY originY : K} (hsorted : ys.Pairwise (· ≥ ·))
    (htail : ∀ y ∈ ys.tail, y < originY) :
    AllPairs (fun upper lower => lowerY < upper ∧ lower < originY) (eraseBelow lowerY ys) := by
  have hsingle : ∀ zs : List K,
      AllPairs (fun upper lower => lowerY < upper ∧ lower < originY) (erasePairs zs) := fun zs => by
    rcases erasePairs_cases zs with ⟨_, hnil⟩ | ⟨_, y, _, hlast⟩
    · rw [hnil]
      trivial
    · rw [hlast]
      trivial
  induction ys using erasePairs.induct with
  | case1 upper lower ys ih =>
    rw [List.tail_cons] at htail
    obtain ⟨_, hrest⟩ := List.pairwise_cons.mp hsorted
    rw [eraseBelow, List.takeWhile_cons, List.dropWhile_cons]
    by_cases hupper : lowerY < upper
    · rw [if_pos (decide_eq_true hupper), if_pos (decide_eq_true hupper),
        List.takeWhile_cons, List.dropWhile_cons]
      by_cases hlower : lowerY < lower
      · rw [if_pos (decide_eq_true hlower), if_pos (decide_eq_true hlower)]
        exact ⟨⟨hupper, htail lower List.mem_cons_self⟩,
          ih hrest.tail fun y hy => htail y (List.mem_cons_of_mem _ (List.mem_of_mem_tail hy))⟩
      · -- the lower intersection is left over, or a later one in its place
        rw [if_neg (by simpa using hlower), if_neg (by simpa using hlower)]
        rcases erasePairs_cases (lower :: ys) with ⟨_, hnil⟩ | ⟨_, last, hmem, hlast⟩
        · rw [hnil]
          trivial
        · rw [hlast]
          exact ⟨⟨hupper, htail last hmem⟩, trivial⟩
    · rw [if_neg (by simpa using hupper), if_neg (by simpa using hupper)]
      exact hsingle _
  | case2 ys hshort =>
    match ys, hshort with
    | [], _ => trivial
    | [y], _ =>
      rw [eraseBelow, List.takeWhile_cons, List.dropWhile_cons]
      split <;> trivial
    | upper :: lower :: ys, hshort => exact absurd rfl (hshort upper lower ys)

theorem covers_erase {lowerY originY y : K} (hsorted : ys.Pairwise (· ≥ ·))
    (hy : y ∉ ys) (hlower : lowerY ≤ y) (hupper : y ≤ originY) :
    Covers (eraseBelow lowerY (eraseAbove originY ys)) y ↔ Odd (countAbove y ys) ∧
      (Even ys.length ∨ ∃ cut ∈ ys, lowerY < cut ∧ cut < y) := by
  obtain ⟨erased, heq, heven, habove⟩ := exists_eraseAbove originY ys
  have hkept : (eraseAbove originY ys).Sublist ys := by
    conv_rhs => rw [heq]
    exact List.sublist_append_right erased _
  have hcount : ∀ z, z ≤ y →
      countAbove z ys = erased.length + countAbove z (eraseAbove originY ys) := by
    intro z hz
    conv_lhs => rw [heq]
    rw [countAbove_append, countAbove_eq_length]
    intro cut hcut
    have hmem : cut ∈ ys := by
      rw [heq]
      exact List.mem_append_left _ hcut
    have hne : y ≠ cut := fun hsame => hy (hsame ▸ hmem)
    exact hz.trans_lt (lt_of_le_of_ne (hupper.trans (habove cut hcut)) hne)
  have hlength : ys.length = erased.length + (eraseAbove originY ys).length := by
    conv_lhs => rw [heq]
    exact List.length_append
  have hbetween : (∃ cut ∈ ys, lowerY < cut ∧ cut < y) ↔
      countAbove y (eraseAbove originY ys) < countAbove lowerY (eraseAbove originY ys) := by
    have hshift := countAbove_lt_iff hlower ys
    rw [hcount y le_rfl, hcount lowerY hlower, Nat.add_lt_add_iff_left] at hshift
    rw [hshift]
    refine exists_congr fun cut => and_congr_right fun hcut => and_congr_right fun _ => ?_
    exact ⟨le_of_lt, fun hle => lt_of_le_of_ne hle fun hsame => hy (hsame ▸ hcut)⟩
  rw [covers_eraseBelow (hsorted.sublist hkept) (fun hmem => hy (hkept.subset hmem)) hlower,
    hcount y le_rfl, hlength, hbetween, Nat.even_add, iff_true_left heven, Nat.odd_add',
    iff_true_right heven, or_comm]

end

variable {K : Type} [Field K] [LinearOrder K]

def OnSide (point a b : Position K) : Prop :=
  ∃ t : K, (0 ≤ t ∧ t ≤ 1) ∧ point.x = a.x + t * (b.x - a.x) ∧ point.y = a.y + t * (b.y - a.y)

def OnBoundary (polygon : List (Position K)) (point : Position K) : Prop :=
  ∃ side ∈ sides (closePolygon polygon), OnSide point side.1 side.2

def Passes (point a b : Position K) : Prop :=
  ¬(point.x < a.x ↔ point.x < b.x) ∧ point.y < a.y + (point.x - a.x) * (b.y - a.y) / (b.x - a.x)

instance (point a b : Position K) : Decidable (Passes point a b) :=
  inferInstanceAs (Decidable (_ ∧ _))

/-- The even-odd rule. -/
def Inside (polygon : List (Position K)) (point : Position K) : Prop :=
  Odd ((sides (closePolygon polygon)).countP fun side => decide (Passes point side.1 side.2))

instance (polygon : List (Position K)) (point : Position K) : Decidable (Inside polygon point) :=
  inferInstanceAs (Decidable (Odd _))

/-! ## Edges -/

namespace Edge

variable (edge : Edge K) (lineX : K)

/-- The line meets the edge, of which both ends count. -/
def Meets : Prop := edge.second.x ≤ lineX ∧ lineX ≤ edge.first.x

def MeetsBelow : Prop := edge.second.x ≤ lineX ∧ lineX < edge.first.x

/-- The y coordinate of an edge on a line. -/
def yAt : K :=
  edge.second.y + (lineX - edge.second.x) * (edge.first.y - edge.second.y) /
    (edge.first.x - edge.second.x)

instance : Decidable (edge.Meets lineX) := inferInstanceAs (Decidable (_ ∧ _))

instance : Decidable (edge.MeetsBelow lineX) := inferInstanceAs (Decidable (_ ∧ _))

end Edge

section
omit [Field K]

theorem exists_side_of_mem_edgesOf {path : List (Position K)} {edge : Edge K}
    (hedge : edge ∈ edgesOf path) :
    edge.second.x < edge.first.x ∧ ((edge.first, edge.second) ∈ sides path ∨
      (edge.second, edge.first) ∈ sides path) := by
  induction path using edgesOf.induct with
  | case1 vertex next vertices hdown ih =>
    rw [edgesOf, if_pos hdown, List.mem_cons] at hedge
    rw [sides_cons_cons, List.mem_cons, List.mem_cons]
    rcases hedge with rfl | hlater
    · exact ⟨hdown, .inl (.inl rfl)⟩
    · exact (ih hlater).imp_right (Or.imp .inr .inr)
  | case2 vertex next vertices hdown hup ih =>
    rw [edgesOf, if_neg hdown, if_pos hup, List.mem_cons] at hedge
    rw [sides_cons_cons, List.mem_cons, List.mem_cons]
    rcases hedge with rfl | hlater
    · exact ⟨hup, .inr (.inl rfl)⟩
    · exact (ih hlater).imp_right (Or.imp .inr .inr)
  | case3 vertex next vertices hdown hup ih =>
    rw [edgesOf, if_neg hdown, if_neg hup] at hedge
    rw [sides_cons_cons, List.mem_cons, List.mem_cons]
    exact (ih hedge).imp_right (Or.imp .inr .inr)
  | case4 path hshort =>
    rw [edgesOf] at hedge
    · cases hedge
    · exact hshort

theorem countP_edgesOf (counts : Edge K → Bool) (countsSide : Position K × Position K → Bool)
    {path : List (Position K)}
    (hdown : ∀ a b : Position K, ⟨a, b⟩ ∈ edgesOf path → b.x < a.x →
      countsSide (a, b) = counts ⟨a, b⟩)
    (hup : ∀ a b : Position K, ⟨b, a⟩ ∈ edgesOf path → a.x < b.x →
      countsSide (a, b) = counts ⟨b, a⟩)
    (hlevel : ∀ side ∈ sides path, side.1.x = side.2.x → countsSide side = false) :
    (edgesOf path).countP counts = (sides path).countP countsSide := by
  induction path using edgesOf.induct with
  | case1 vertex next vertices hlt ih =>
    rw [edgesOf, if_pos hlt] at hdown hup ⊢
    rw [sides_cons_cons] at hlevel ⊢
    rw [List.countP_cons, List.countP_cons, hdown vertex next List.mem_cons_self hlt,
      ih (fun a b hmem => hdown a b (List.mem_cons_of_mem _ hmem))
        (fun a b hmem => hup a b (List.mem_cons_of_mem _ hmem))
        (List.forall_mem_cons.mp hlevel).2]
  | case2 vertex next vertices hge hlt ih =>
    rw [edgesOf, if_neg hge, if_pos hlt] at hdown hup ⊢
    rw [sides_cons_cons] at hlevel ⊢
    rw [List.countP_cons, List.countP_cons, hup vertex next List.mem_cons_self hlt,
      ih (fun a b hmem => hdown a b (List.mem_cons_of_mem _ hmem))
        (fun a b hmem => hup a b (List.mem_cons_of_mem _ hmem))
        (List.forall_mem_cons.mp hlevel).2]
  | case3 vertex next vertices hge hle ih =>
    rw [edgesOf, if_neg hge, if_neg hle] at hdown hup ⊢
    rw [sides_cons_cons] at hlevel ⊢
    have hsame := le_antisymm (not_lt.mp hge) (not_lt.mp hle)
    obtain ⟨hfirst, hrest⟩ := List.forall_mem_cons.mp hlevel
    rw [List.countP_cons_of_neg, ih hdown hup hrest]
    rw [hfirst hsame]
    exact Bool.false_ne_true
  | case4 path hshort =>
    match path, hshort with
    | [], _ => rfl
    | [_], _ => rfl
    | vertex :: next :: vertices, hshort => exact absurd rfl (hshort vertex next vertices)

theorem exists_closePolygon {polygon : List (Position K)} (hpolygon : polygon ≠ []) :
    ∃ vertex path, closePolygon polygon = vertex :: path ∧
      (vertex :: path).getLast (List.cons_ne_nil vertex path) = vertex := by
  cases polygon with
  | nil => exact absurd rfl hpolygon
  | cons vertex vertices =>
    rw [closePolygon]
    split
    case isTrue => exact ⟨vertex, vertices ++ [vertex], rfl, by simp⟩
    case isFalse hclosed =>
        refine ⟨vertex, vertices, rfl, ?_⟩
        rw [List.getLast?_eq_some_getLast (List.cons_ne_nil vertex vertices)] at hclosed
        exact Option.some.inj (not_not.mp hclosed)

theorem even_countP_closePolygon {s : Position K → Prop}
    {changes : Position K × Position K → Bool} (polygon : List (Position K))
    (hchanges : ∀ side ∈ sides (closePolygon polygon),
      changes side = true ↔ ¬(s side.1 ↔ s side.2)) :
    Even ((sides (closePolygon polygon)).countP changes) := by
  rcases eq_or_ne polygon [] with rfl | hpolygon
  · exact Even.zero
  · obtain ⟨vertex, path, heq, hclosed⟩ := exists_closePolygon hpolygon
    rw [heq] at hchanges ⊢
    exact even_countP_sides hclosed hchanges

end

/-! ## Intersections of a line -/

def upperEnds (polygon : List (Position K)) (lineX : K) : List K :=
  ((edgesOf (closePolygon polygon)).filter fun edge => decide (edge.first.x = lineX)).map
    (·.first.y)

def cuts (polygon : List (Position K)) (lineX : K) : List K :=
  ((edgesOf (closePolygon polygon)).filter fun edge => decide (edge.Meets lineX)).map (·.yAt lineX)

section
omit [LinearOrder K]

/-- The y coordinate of a side on a line does not depend on its direction. -/
theorem yAt_eq {a b : Position K} (hne : a.x ≠ b.x) (lineX : K) :
    (⟨a, b⟩ : Edge K).yAt lineX = (⟨b, a⟩ : Edge K).yAt lineX := by
  have hab := sub_ne_zero.mpr hne
  have hba := sub_ne_zero.mpr hne.symm
  rw [Edge.yAt, Edge.yAt]
  field_simp
  ring

theorem yAt_first {edge : Edge K} (hne : edge.first.x ≠ edge.second.x) :
    edge.yAt edge.first.x = edge.first.y := by
  rw [Edge.yAt, mul_div_cancel_left₀ _ (sub_ne_zero.mpr hne), add_sub_cancel]

end

variable {a b : Position K}

omit [Field K] in
theorem meetsBelow_iff (hlt : b.x < a.x) (lineX : K) :
    (⟨a, b⟩ : Edge K).MeetsBelow lineX ↔ ¬(lineX < a.x ↔ lineX < b.x) := by
  rw [Edge.MeetsBelow]
  dsimp only
  constructor
  · rintro ⟨hb, ha⟩ hsame
    exact absurd (hsame.mp ha) (not_lt.mpr hb)
  · intro hchange
    rcases lt_or_ge lineX b.x with hb | hb
    · exact absurd (iff_of_true (hb.trans hlt) hb) hchange
    · refine ⟨hb, ?_⟩
      by_contra ha
      exact hchange (iff_of_false ha (not_lt.mpr hb))

theorem inside_iff {polygon : List (Position K)} {point : Position K} :
    Inside polygon point ↔ Odd ((edgesOf (closePolygon polygon)).countP
      fun edge => decide (edge.MeetsBelow point.x ∧ point.y < edge.yAt point.x)) := by
  rw [countP_edgesOf _ fun side => decide (Passes point side.1 side.2)]
  · rfl
  · intro a b _ hlt
    rw [decide_eq_decide, meetsBelow_iff hlt, yAt_eq hlt.ne']
    rfl
  · intro a b _ hlt
    rw [decide_eq_decide, meetsBelow_iff hlt, iff_comm (a := point.x < b.x)]
    rfl
  · intro side _ hlevel
    apply decide_eq_false
    rintro ⟨hchange, _⟩
    rw [hlevel] at hchange
    exact hchange Iff.rfl

section
omit [Field K]

theorem even_countP_meetsBelow (polygon : List (Position K)) (lineX : K) :
    Even ((edgesOf (closePolygon polygon)).countP fun edge => decide (edge.MeetsBelow lineX)) := by
  rw [countP_edgesOf _ fun side => decide (¬(lineX < side.1.x ↔ lineX < side.2.x))]
  · apply even_countP_closePolygon (s := fun vertex => lineX < vertex.x)
    intro side _
    exact decide_eq_true_iff
  · intro a b _ hlt
    rw [decide_eq_decide, meetsBelow_iff hlt]
  · intro a b _ hlt
    rw [decide_eq_decide, meetsBelow_iff hlt, iff_comm (a := lineX < b.x)]
  · intro side _ hlevel
    apply decide_eq_false
    rw [hlevel]
    exact not_not_intro Iff.rfl

theorem countP_meets {edges : List (Edge K)} (lineX : K) (counts : Edge K → Prop)
    [DecidablePred counts] (hdown : ∀ edge ∈ edges, edge.second.x < edge.first.x) :
    edges.countP (fun edge => decide (edge.Meets lineX ∧ counts edge)) =
      edges.countP (fun edge => decide (edge.MeetsBelow lineX ∧ counts edge)) +
        edges.countP (fun edge => decide (edge.first.x = lineX ∧ counts edge)) := by
  induction edges with
  | nil => rfl
  | cons edge edges ih =>
    obtain ⟨hedge, hrest⟩ := List.forall_mem_cons.mp hdown
    rw [List.countP_cons, List.countP_cons, List.countP_cons, ih hrest]
    simp only [decide_eq_true_eq, Edge.Meets, Edge.MeetsBelow]
    rcases lt_trichotomy lineX edge.first.x with hlt | rfl | hgt
    · simp only [hlt, hlt.le, hlt.ne', and_true, false_and, if_false]
      ring
    · simp only [hedge.le, le_refl, lt_irrefl, true_and, and_false, false_and, decide_eq_true_eq,
        if_false]
      ring
    · simp only [hgt.not_ge, hgt.not_gt, hgt.ne, and_false, false_and, if_false]
      ring

theorem lt_of_mem_edgesOf (path : List (Position K)) :
    ∀ edge ∈ edgesOf path, edge.second.x < edge.first.x :=
  fun _ hedge => (exists_side_of_mem_edgesOf hedge).1

end

variable (polygon : List (Position K))

theorem countAbove_upperEnds (lineX y : K) :
    countAbove y (upperEnds polygon lineX) = (edgesOf (closePolygon polygon)).countP
      fun edge => decide (edge.first.x = lineX ∧ y < edge.yAt lineX) := by
  rw [countAbove, upperEnds, List.countP_map, List.countP_filter]
  apply List.countP_congr
  intro edge hedge
  have hlt := lt_of_mem_edgesOf _ edge hedge
  rw [Function.comp_apply, Bool.and_eq_true, decide_eq_true_iff, decide_eq_true_iff,
    decide_eq_true_iff, and_comm]
  refine and_congr_right fun hfirst => ?_
  rw [← hfirst, yAt_first hlt.ne']

omit [Field K] in
theorem length_upperEnds (lineX : K) :
    (upperEnds polygon lineX).length = (edgesOf (closePolygon polygon)).countP
      fun edge => decide (edge.first.x = lineX) := by
  rw [upperEnds, List.length_map, List.countP_eq_length_filter]

theorem countAbove_cuts (lineX y : K) :
    countAbove y (cuts polygon lineX) = (edgesOf (closePolygon polygon)).countP
        (fun edge => decide (edge.MeetsBelow lineX ∧ y < edge.yAt lineX)) +
      countAbove y (upperEnds polygon lineX) := by
  have hmeets := countP_meets lineX (fun edge => y < edge.yAt lineX)
    (lt_of_mem_edgesOf (closePolygon polygon))
  rw [countAbove_upperEnds, ← hmeets, countAbove, cuts, List.countP_map, List.countP_filter]
  apply List.countP_congr
  intro edge _
  rw [Function.comp_apply, Bool.and_eq_true, decide_eq_true_iff, decide_eq_true_iff,
    decide_eq_true_iff, and_comm]

theorem even_length_cuts_iff (lineX : K) :
    Even (cuts polygon lineX).length ↔ Even (upperEnds polygon lineX).length := by
  have hmeets := countP_meets lineX (fun _ => True) (lt_of_mem_edgesOf (closePolygon polygon))
  simp only [and_true] at hmeets
  rw [cuts, List.length_map, ← List.countP_eq_length_filter, hmeets, length_upperEnds,
    Nat.even_add, iff_true_left (even_countP_meetsBelow polygon lineX)]

variable [IsStrictOrderedRing K] {polygon : List (Position K)} {point : Position K}

theorem OnSide.swap (hside : OnSide point a b) : OnSide point b a := by
  obtain ⟨t, ⟨hnonneg, hle⟩, hx, hy⟩ := hside
  refine ⟨1 - t, ⟨sub_nonneg.mpr hle, sub_le_self 1 hnonneg⟩, ?_, ?_⟩
  · rw [hx]
    ring
  · rw [hy]
    ring

/-- The point of an edge on a line that meets it. -/
theorem onSide_yAt {edge : Edge K} (hlt : edge.second.x < edge.first.x) {lineX : K}
    (hmeets : edge.Meets lineX) : OnSide ⟨lineX, edge.yAt lineX⟩ edge.second edge.first := by
  have hpos := sub_pos.mpr hlt
  refine ⟨(lineX - edge.second.x) / (edge.first.x - edge.second.x), ⟨?_, ?_⟩, ?_, ?_⟩
  · exact div_nonneg (sub_nonneg.mpr hmeets.1) hpos.le
  · rw [div_le_one hpos]
    exact sub_le_sub_right hmeets.2 _
  · rw [div_mul_cancel₀ _ hpos.ne', add_sub_cancel]
  · rw [Edge.yAt]
    ring

theorem onBoundary_of_mem_cuts {lineX y : K} (hy : y ∈ cuts polygon lineX) :
    OnBoundary polygon ⟨lineX, y⟩ := by
  obtain ⟨edge, hedge, rfl⟩ := List.mem_map.mp hy
  obtain ⟨hmem, hmeets⟩ := List.mem_filter.mp hedge
  obtain ⟨hlt, hside | hside⟩ := exists_side_of_mem_edgesOf hmem
  · exact ⟨_, hside, (onSide_yAt hlt (of_decide_eq_true hmeets)).swap⟩
  · exact ⟨_, hside, onSide_yAt hlt (of_decide_eq_true hmeets)⟩

theorem onSide_of_le_of_le (ha : a.x = point.x) (hb : b.x = point.x)
    (hle : a.y ≤ point.y) (hlt : point.y < b.y) : OnSide point a b := by
  have hpos : 0 < b.y - a.y := sub_pos.mpr (hle.trans_lt hlt)
  refine ⟨(point.y - a.y) / (b.y - a.y), ⟨?_, ?_⟩, ?_, ?_⟩
  · exact div_nonneg (sub_nonneg.mpr hle) hpos.le
  · rw [div_le_one hpos]
    exact sub_le_sub_right hlt.le _
  · rw [ha, hb, sub_self, mul_zero, add_zero]
  · rw [div_mul_cancel₀ _ hpos.ne', add_sub_cancel]

theorem even_countAbove_cuts
    (htop : ∀ edge ∈ edgesOf (closePolygon polygon), edge.first.x ≤ point.x)
    (hboundary : ¬OnBoundary polygon point) : Even (countAbove point.y (cuts polygon point.x)) := by
  have hnone : (edgesOf (closePolygon polygon)).countP
      (fun edge => decide (edge.MeetsBelow point.x ∧ point.y < edge.yAt point.x)) = 0 := by
    apply List.countP_eq_zero.mpr
    intro edge hedge hmeets
    exact absurd (of_decide_eq_true hmeets).1.2 (not_lt.mpr (htop edge hedge))
  have hend : ∀ {a b : Position K}, ⟨a, b⟩ ∈ edgesOf (closePolygon polygon) → b.x < a.x →
      (a.x = point.x ∧ point.y < (⟨a, b⟩ : Edge K).yAt point.x ↔
        ¬((a.x = point.x ∧ point.y < a.y) ↔ (b.x = point.x ∧ point.y < b.y))) := by
    intro a b hmem hlt
    have hbelow : ¬(b.x = point.x ∧ point.y < b.y) :=
      fun hb => absurd (htop _ hmem) (not_le.mpr (hb.1 ▸ hlt))
    rw [iff_false_right hbelow, not_not]
    refine and_congr_right fun ha => ?_
    have hfirst : (⟨a, b⟩ : Edge K).yAt a.x = a.y := yAt_first hlt.ne'
    rw [← ha, hfirst]
  rw [countAbove_cuts, hnone, zero_add, countAbove_upperEnds,
    countP_edgesOf _ fun side => decide (¬((side.1.x = point.x ∧ point.y < side.1.y) ↔
      (side.2.x = point.x ∧ point.y < side.2.y)))]
  · apply even_countP_closePolygon
      (s := fun vertex => vertex.x = point.x ∧ point.y < vertex.y)
    intro side _
    exact decide_eq_true_iff
  · intro a b hmem hlt
    rw [decide_eq_decide, hend hmem hlt]
  · intro a b hmem hlt
    rw [decide_eq_decide, hend hmem hlt, iff_comm (a := b.x = point.x ∧ _)]
  · intro side hside hlevel
    apply decide_eq_false
    rw [not_not, hlevel]
    refine and_congr_right fun hx => ?_
    constructor
    · intro hfirst
      by_contra hsecond
      exact hboundary ⟨side, hside,
        (onSide_of_le_of_le hx (hlevel.trans hx) (not_lt.mp hsecond) hfirst).swap⟩
    · intro hsecond
      by_contra hfirst
      exact hboundary ⟨side, hside,
        onSide_of_le_of_le (hlevel.trans hx) hx (not_lt.mp hfirst) hsecond⟩

end

/-! ## Cells of the polygon iterator -/

variable {K : Type} [Field K] [LinearOrder K]

/-! ## Sorted edges -/

section

omit [Field K]

theorem before_total (edge other : Edge K) : ¬other.before edge ∨ ¬edge.before other := by
  rw [Edge.before, Edge.before]
  grind

theorem before_trans {first second third : Edge K} (hfirst : ¬second.before first)
    (hsecond : ¬third.before second) : ¬third.before first := by
  rw [Edge.before] at *
  grind

theorem pairwise_calculateSortedEdges (vertices : List (Position K)) :
    (calculateSortedEdges vertices).Pairwise fun edge other => other.first.x ≤ edge.first.x := by
  let r : Edge K → Edge K → Prop := fun edge other => ¬other.before edge
  have htotal : Std.Total r := ⟨before_total⟩
  have htrans : IsTrans (Edge K) r := ⟨fun _ _ _ => before_trans⟩
  refine (List.pairwise_insertionSort r (edgesOf vertices)).imp ?_
  intro edge other hle
  exact not_lt.mp fun hlt => hle (.inl hlt)

theorem perm_calculateSortedEdges (vertices : List (Position K)) :
    (calculateSortedEdges vertices).Perm (edgesOf vertices) :=
  List.perm_insertionSort _ _

end

variable {edges : List (Edge K)}

theorem lineIntersections_eq {lineX : K}
    (hsorted : edges.Pairwise fun edge other => other.first.x ≤ edge.first.x)
    (hdown : ∀ edge ∈ edges, edge.second.x < edge.first.x) :
    lineIntersections lineX edges =
      (edges.filter fun edge => decide (edge.Meets lineX)).map (·.yAt lineX) := by
  induction edges with
  | nil => rfl
  | cons edge edges ih =>
    obtain ⟨hfirst, hrest⟩ := List.pairwise_cons.mp hsorted
    obtain ⟨hedge, hlater⟩ := List.forall_mem_cons.mp hdown
    rw [lineIntersections]
    split
    case isTrue hend =>
        have hmeets : edge.Meets lineX := ⟨hend.le, hend ▸ hedge.le⟩
        have hy : edge.yAt lineX = edge.second.y := by
          rw [Edge.yAt, hend, sub_self, zero_mul, zero_div, add_zero]
        rw [List.filter_cons_of_pos (by simpa using hmeets), List.map_cons, hy, ih hrest hlater]
    case isFalse hend =>
        split
        case isTrue hcross =>
            have hmeets : edge.Meets lineX := ⟨hcross.2.le, hcross.1⟩
            rw [List.filter_cons_of_pos (by simpa using hmeets), List.map_cons, ih hrest hlater]
            rfl
        case isFalse hcross =>
            split
            case isTrue hbelow =>
                -- the edges after an edge below the line are below it as well
                rw [List.filter_eq_nil_iff.mpr, List.map_nil]
                intro other hother hmeets
                have hle := (of_decide_eq_true hmeets).2
                rcases List.mem_cons.mp hother with rfl | hmem
                · exact absurd hbelow (not_lt.mpr hle)
                · exact absurd ((hfirst other hmem).trans_lt hbelow) (not_lt.mpr hle)
            case isFalse hbelow =>
                have hmeets : ¬edge.Meets lineX := fun hmeets =>
                  hcross ⟨hmeets.2, lt_of_le_of_ne hmeets.1 hend⟩
                rw [List.filter_cons_of_neg (by simpa using hmeets), ih hrest hlater]

theorem lineIntersections_perm (polygon : List (Position K)) (lineX : K) :
    (lineIntersections lineX (calculateSortedEdges (closePolygon polygon))).Perm
      (cuts polygon lineX) := by
  have hperm := perm_calculateSortedEdges (closePolygon polygon)
  rw [lineIntersections_eq (pairwise_calculateSortedEdges _) fun edge hedge =>
    lt_of_mem_edgesOf _ edge (hperm.mem_iff.mp hedge)]
  exact (hperm.filter _).map _

section

variable {gridMap : GridMap K} {polygon : List (Position K)}

theorem pairwise_calculateIntersections (edges : List (Edge K)) (row : ℤ) :
    (calculateIntersections edges gridMap row).Pairwise (· ≥ ·) := by
  have hsorted := List.pairwise_insertionSort (· ≥ ·) (lineIntersections (gridMap.lineX row) edges)
  obtain ⟨erased, heq, _⟩ := exists_eraseAbove gridMap.origin.y
    ((lineIntersections (gridMap.lineX row) edges).insertionSort (· ≥ ·))
  rw [heq] at hsorted
  exact (List.pairwise_append.mp hsorted).2.1.sublist (eraseBelow_sublist _ _)

theorem allPairs_calculateIntersections (edges : List (Edge K)) (row : ℤ) :
    AllPairs gridMap.OnMap (calculateIntersections edges gridMap row) := by
  have hsorted := List.pairwise_insertionSort (· ≥ ·) (lineIntersections (gridMap.lineX row) edges)
  have htail := tail_eraseAbove gridMap.origin.y hsorted
  obtain ⟨erased, heq, _⟩ := exists_eraseAbove gridMap.origin.y
    ((lineIntersections (gridMap.lineX row) edges).insertionSort (· ≥ ·))
  rw [heq] at hsorted
  exact allPairs_eraseBelow (List.pairwise_append.mp hsorted).2.1 htail

variable [IsStrictOrderedRing K]

theorem covers_calculateIntersections {row : ℤ} {y : K}
    (hboundary : ¬OnBoundary polygon ⟨gridMap.lineX row, y⟩) (hlower : gridMap.lowerY ≤ y)
    (hupper : y ≤ gridMap.origin.y) :
    Covers (calculateIntersections (calculateSortedEdges (closePolygon polygon)) gridMap row) y ↔
      Odd (countAbove y (cuts polygon (gridMap.lineX row))) ∧
        (Even (cuts polygon (gridMap.lineX row)).length ∨
          ∃ cut ∈ cuts polygon (gridMap.lineX row), gridMap.lowerY < cut ∧ cut < y) := by
  have hperm := (List.perm_insertionSort (· ≥ ·) _).trans
    (lineIntersections_perm polygon (gridMap.lineX row))
  have hy : y ∉ (lineIntersections (gridMap.lineX row)
      (calculateSortedEdges (closePolygon polygon))).insertionSort (· ≥ ·) :=
    fun hmem => hboundary (onBoundary_of_mem_cuts (hperm.mem_iff.mp hmem))
  have hcovers := covers_erase (List.pairwise_insertionSort _ _) hy hlower hupper
  have hcount : countAbove y (cuts polygon (gridMap.lineX row)) =
      countAbove y ((lineIntersections (gridMap.lineX row)
        (calculateSortedEdges (closePolygon polygon))).insertionSort (· ≥ ·)) :=
    hperm.symm.countP_eq _
  rw [calculateIntersections, hcovers, hcount, hperm.length_eq]
  simp only [hperm.mem_iff]

end

/-! ## Scanned rows -/

section

variable [FloorRing K] {gridMap : GridMap K} {polygon : List (Position K)}

namespace GridMap

def InMap (gridMap : GridMap K) (cell : ℤ × ℤ) : Prop :=
  (0 ≤ cell.1 ∧ cell.1 < gridMap.size.1) ∧ 0 ≤ cell.2 ∧ cell.2 < gridMap.size.2

def center (gridMap : GridMap K) (cell : ℤ × ℤ) : Position K :=
  ⟨gridMap.lineX cell.1, gridMap.columnY cell.2⟩

/-- The index in the circular buffer of a cell counted from the start index. -/
def wrapCell (gridMap : GridMap K) (cell : ℤ × ℤ) : ℤ × ℤ :=
  (wrapIndexToRange (gridMap.startIndex.1 + cell.1) gridMap.size.1,
    wrapIndexToRange (gridMap.startIndex.2 + cell.2) gridMap.size.2)

omit [FloorRing K] in
theorem wrapCell_injOn {cell other : ℤ × ℤ} (hcell : gridMap.InMap cell)
    (hother : gridMap.InMap other) (heq : gridMap.wrapCell cell = gridMap.wrapCell other) :
    cell = other := by
  have hwrap : ∀ {start size i j : ℤ}, 0 ≤ i → i < size → 0 ≤ j → j < size →
      (start + i) % size = (start + j) % size → i = j := by
    intro start size i j hi hisize hj hjsize hsame
    have hmod : i % size = j % size := Int.emod_add_cancel_left.mp hsame
    rwa [Int.emod_eq_of_lt hi hisize, Int.emod_eq_of_lt hj hjsize] at hmod
  obtain ⟨hrow, hcol⟩ := Prod.ext_iff.mp heq
  exact Prod.ext (hwrap hcell.1.1 hcell.1.2 hother.1.1 hother.1.2 hrow)
    (hwrap hcell.2.1 hcell.2.2 hother.2.1 hother.2.2 hcol)

end GridMap

/-- The cells that an iteration visits, counted from the start index. -/
def scannedCells (gridMap : GridMap K) (polygon : List (Position K)) : List (ℤ × ℤ) :=
  (gridMap.linesCells 0 (PolygonIterator.scannedLines gridMap polygon).2).map
    fun cell => ((PolygonIterator.scannedLines gridMap polygon).1 + cell.1, cell.2)

variable {cell : ℤ × ℤ}

/-- A line stands for the row that is as far from the first one. -/
theorem mem_scannedCells {front : Edge K}
    (hedges : calculateSortedEdges (closePolygon polygon) = front :: edges) :
    cell ∈ scannedCells gridMap polygon ↔
      ((calculateRowRange front (front :: edges) gridMap).1 ≤ cell.1 ∧
        cell.1 ≤ (calculateRowRange front (front :: edges) gridMap).2) ∧
      cell.2 ∈ gridMap.pairColumns (calculateIntersections (front :: edges) gridMap cell.1) := by
  rw [scannedCells, PolygonIterator.scannedLines, hedges, List.mem_map]
  dsimp only
  constructor
  · rintro ⟨⟨line, col⟩, hmem, rfl⟩
    obtain ⟨i, ys, rfl, hys, hcol⟩ := GridMap.mem_linesCells.mp hmem
    rw [calculateIntersectionsPerLine, List.getElem?_map, Option.map_eq_some_iff] at hys
    obtain ⟨line, hline, rfl⟩ := hys
    obtain ⟨hlt, rfl⟩ := List.getElem?_eq_some_iff.mp hline
    rw [List.getElem_range] at hcol
    rw [List.length_range] at hlt
    rw [Nat.zero_add]
    exact ⟨by dsimp only; omega, hcol⟩
  · rintro ⟨⟨hfrom, hto⟩, hcol⟩
    have hrow : (calculateRowRange front (front :: edges) gridMap).1 +
        ((cell.1 - (calculateRowRange front (front :: edges) gridMap).1).toNat : ℤ) = cell.1 := by
      omega
    refine ⟨((cell.1 - (calculateRowRange front (front :: edges) gridMap).1).toNat, cell.2), ?_,
      Prod.ext hrow rfl⟩
    apply GridMap.mem_linesCells.mpr
    refine ⟨_, _, (Nat.zero_add _).symm, ?_, hcol⟩
    rw [calculateIntersectionsPerLine, List.getElem?_map, List.getElem?_range (by omega),
      Option.map_some, hrow]

omit [Field K] [FloorRing K] in
theorem foldl_min_le (ys : List K) (y : K) :
    ys.foldl min y ≤ y ∧ ∀ other ∈ ys, ys.foldl min y ≤ other := by
  induction ys generalizing y with
  | nil => exact ⟨le_refl y, fun _ hmem => absurd hmem List.not_mem_nil⟩
  | cons first ys ih =>
    obtain ⟨hmin, hlater⟩ := ih (min y first)
    rw [List.foldl_cons]
    exact ⟨hmin.trans (min_le_left y first),
      List.forall_mem_cons.mpr ⟨hmin.trans (min_le_right y first), hlater⟩⟩

variable [IsStrictOrderedRing K]

theorem mem_calculateRowRange {front edge : Edge K} {row : ℤ}
    (hrow : 0 ≤ row) (hlt : row < gridMap.size.1) (htop : gridMap.lineX row < front.first.x)
    (hedge : edge ∈ edges) (hmeets : edge.second.x ≤ gridMap.lineX row) :
    (calculateRowRange front edges gridMap).1 ≤ row ∧
      row ≤ (calculateRowRange front edges gridMap).2 := by
  have hmin := (foldl_min_le (edges.map (·.second.x)) front.second.x).2 _
    (List.mem_map_of_mem hedge)
  rw [GridMap.lineX] at htop hmeets
  constructor
  · rw [calculateRowRange, GridMap.clampIndex_le_iff hrow hlt, div_lt_iff₀ gridMap.resolution_pos]
    exact .inl (by linarith)
  · have hresolution := gridMap.resolution_pos
    rw [calculateRowRange, GridMap.le_clampIndex_iff hrow hlt, le_div_iff₀ gridMap.resolution_pos]
    exact .inl (by linarith)

theorem mem_scannedCells_iff (hmap : gridMap.InMap cell)
    (hboundary : ¬OnBoundary polygon (gridMap.center cell)) :
    cell ∈ scannedCells gridMap polygon ↔
      Odd (countAbove (gridMap.center cell).y (cuts polygon (gridMap.center cell).x)) ∧
        (Even (cuts polygon (gridMap.center cell).x).length ∨
          ∃ cut ∈ cuts polygon (gridMap.center cell).x,
            gridMap.lowerY < cut ∧ cut < (gridMap.center cell).y) := by
  have hperm := perm_calculateSortedEdges (closePolygon polygon)
  have hcovers := covers_calculateIntersections hboundary
    (GridMap.lowerY_le_columnY hmap.2.2) (GridMap.columnY_le_origin hmap.2.1)
  cases hedges : calculateSortedEdges (closePolygon polygon) with
  | nil =>
    have hnone : cuts polygon (gridMap.center cell).x = [] := by
      rw [hedges] at hperm
      rw [cuts, ← hperm.nil_eq]
      rfl
    rw [scannedCells, PolygonIterator.scannedLines, hedges, hnone]
    simp [GridMap.linesCells]
  | cons front edges =>
    rw [mem_scannedCells hedges,
      GridMap.mem_pairColumns (allPairs_calculateIntersections (front :: edges) cell.1),
      ← hedges, hcovers, and_iff_right hmap.2]
    refine and_iff_right_iff_imp.mpr ?_
    rintro ⟨hodd, _⟩
    -- some edge meets the line below the highest vertex
    have hmem : ∀ edge, edge ∈ front :: edges ↔ edge ∈ edgesOf (closePolygon polygon) :=
      fun edge => (hedges ▸ hperm).mem_iff
    have htop : gridMap.lineX cell.1 < front.first.x := by
      by_contra hge
      refine Nat.not_even_iff_odd.mpr hodd (even_countAbove_cuts ?_ hboundary)
      intro edge hedge
      have hsorted := pairwise_calculateSortedEdges (closePolygon polygon)
      rw [hedges, List.pairwise_cons] at hsorted
      rcases List.mem_cons.mp ((hmem edge).mpr hedge) with rfl | hlater
      · exact not_lt.mp hge
      · exact (hsorted.1 edge hlater).trans (not_lt.mp hge)
    obtain ⟨y, hy, _⟩ := List.countP_pos_iff.mp hodd.pos
    obtain ⟨edge, hedge, _⟩ := List.mem_map.mp hy
    obtain ⟨hedge, hmeets⟩ := List.mem_filter.mp hedge
    rw [hedges]
    exact mem_calculateRowRange hmap.1.1 hmap.1.2 htop ((hmem edge).mpr hedge)
      (of_decide_eq_true hmeets).1

theorem inMap_of_mem_scannedCells (hcell : cell ∈ scannedCells gridMap polygon) :
    gridMap.InMap cell := by
  cases hedges : calculateSortedEdges (closePolygon polygon) with
  | nil =>
    rw [scannedCells, PolygonIterator.scannedLines, hedges] at hcell
    cases hcell
  | cons front edges =>
    obtain ⟨⟨hfrom, hto⟩, hcol⟩ := (mem_scannedCells hedges).mp hcell
    have hnonneg : 0 ≤ (calculateRowRange front (front :: edges) gridMap).1 := le_max_left 0 _
    have hlt : (calculateRowRange front (front :: edges) gridMap).2 < gridMap.size.1 :=
      clampIndex_lt gridMap.size_pos.1 _
    exact ⟨⟨hnonneg.trans hfrom, hto.trans_lt hlt⟩,
      ((GridMap.mem_pairColumns (allPairs_calculateIntersections _ _)).mp hcol).1⟩

theorem pairwise_scannedCells (gridMap : GridMap K) (polygon : List (Position K)) :
    (scannedCells gridMap polygon).Pairwise fun cell other =>
      cell.1 < other.1 ∨ cell.1 = other.1 ∧ cell.2 < other.2 := by
  have hlines : ∀ ys ∈ (PolygonIterator.scannedLines gridMap polygon).2,
      (gridMap.pairColumns ys).Pairwise (· < ·) := by
    intro ys hys
    rw [PolygonIterator.scannedLines] at hys
    split at hys
    · cases hys
    · obtain ⟨line, _, rfl⟩ := List.mem_map.mp hys
      exact GridMap.pairwise_pairColumns (pairwise_calculateIntersections _ _)
        (allPairs_calculateIntersections _ _)
  refine List.Pairwise.map _ ?_ (GridMap.pairwise_linesCells hlines)
  rintro cell other (hline | ⟨hline, hcol⟩)
  · exact .inl (by dsimp only; omega)
  · exact .inr ⟨by dsimp only; omega, hcol⟩

/-! ## Coverage -/

/-- The intersections at or right of a cell leave none without a partner. -/
def Partnered (gridMap : GridMap K) (polygon : List (Position K)) (cell : ℤ × ℤ) : Prop :=
  Even (upperEnds polygon (gridMap.center cell).x).length ∨
    ∃ cut ∈ cuts polygon (gridMap.center cell).x,
      gridMap.lowerY < cut ∧ cut < (gridMap.center cell).y

/--
The higher ends of edges on the row of a cell do no harm: an even number of them is left of
the cell, and the row is complete if the cell is inside; or the errors cancel out.
-/
def KeepsPairs (gridMap : GridMap K) (polygon : List (Position K)) (cell : ℤ × ℤ) : Prop :=
  (Even (countAbove (gridMap.center cell).y (upperEnds polygon (gridMap.center cell).x)) →
      Inside polygon (gridMap.center cell) → Partnered gridMap polygon cell) ∧
    (Odd (countAbove (gridMap.center cell).y (upperEnds polygon (gridMap.center cell).x)) →
      ¬Inside polygon (gridMap.center cell) ∧ ¬Partnered gridMap polygon cell)

theorem mem_scannedCells_iff_inside (hmap : gridMap.InMap cell)
    (hboundary : ¬OnBoundary polygon (gridMap.center cell)) :
    (cell ∈ scannedCells gridMap polygon ↔ Inside polygon (gridMap.center cell)) ↔
      KeepsPairs gridMap polygon cell := by
  rw [mem_scannedCells_iff hmap hboundary, even_length_cuts_iff, countAbove_cuts, Nat.odd_add,
    ← inside_iff, KeepsPairs, ← Partnered, ← Nat.not_even_iff_odd]
  by_cases heven :
    Even (countAbove (gridMap.center cell).y (upperEnds polygon (gridMap.center cell).x))
  · simp only [heven, iff_true, not_true, false_imp_iff, and_true, true_imp_iff]
    exact and_iff_left_iff_imp
  · simp only [heven, iff_false, not_false_iff, true_imp_iff, false_imp_iff, true_and]
    by_cases hinside : Inside polygon (gridMap.center cell)
    · simp [hinside]
    · simp [hinside]

end

/-- A map of five by five cells around the origin. -/
def squareMap : GridMap ℚ where
  resolution := 1
  size := (5, 5)
  startIndex := (0, 0)
  origin := ⟨2, 2⟩
  resolution_pos := zero_lt_one
  size_pos := by decide

def diamond : List (Position ℚ) := [⟨2, 0⟩, ⟨0, 2⟩, ⟨-2, 0⟩, ⟨0, -2⟩]

end AutowareUniverse.Common.GridMapUtils
