import AutowareUniverse.Common.ConvexHull
import AutowareUniverse.Library.KeepBest
import AutowareUniverse.Library.EnclosingRectangles
import AutowareUniverse.Library.Fallible
import Mathlib.Data.List.GetD
import Mathlib.Analysis.SpecialFunctions.Complex.Arg
import Mathlib.Tactic.IntervalCases

/-!
# Rotating calipers

Four lines at right angles turn around a convex hull.  Each iteration turns them until one lies
along the edge behind its support point, measures the box between them and moves that support
point to the end of the edge.
-/

namespace AutowareUniverse.Common.RotatingCalipers

open ConvexHull (FEPS)

open Library.SupportingLines Library.PlaneVectors Library.PlaneTurns Library.EnclosingRectangles

open ConvexHull (FEPS convexHull)

open Common.Geometry

section

section

section

section

open Library.KeepBest

variable {K : Type} [Field K] [LinearOrder K]

/-- Why there is no box: an exception with its text, or a read through an iterator that is past the
end or was never assigned. -/
inductive Failure where
  | domainError (text : String)
  | runtimeError (text : String)
  | undefined
  deriving DecidableEq

structure MathFunctions (K : Type) where
  sqrt : K → K
  atan2 : K → K → K
  cos : K → K
  sin : K → K

/-- The largest number of single precision. -/
def floatMax : K :=
  340282346638528859811704183484516925440

abbrev Point4 (α : Type) :=
  Fin 4 → α

/-! ## Vectors -/

def dot2d (pt q : Point K) : K :=
  pt.x * q.x + pt.y * q.y

def negated2d (p : Point K) : Point K :=
  ⟨-p.x, -p.y⟩

def plus2d (p q : Point K) : Point K :=
  ⟨p.x + q.x, p.y + q.y⟩

def times2d (p : Point K) (a : K) : Point K :=
  ⟨p.x * a, p.y * a⟩

def getNormal (pt : Point K) : Point K :=
  ⟨-pt.y, pt.x⟩

def rotate2d (pt : Point K) (cosTh sinTh : K) : Point K :=
  ⟨cosTh * pt.x - sinTh * pt.y, sinTh * pt.x + cosTh * pt.y⟩

def norm2d (functions : MathFunctions K) (pt : Point K) : K :=
  functions.sqrt (dot2d pt pt)

/-- Where two lines meet. -/
def intersection2d (pt u q v : Point K) : Except Failure (Point K) :=
  let num := cross2d (minus2d pt q) u
  let den := cross2d v u
  if |den| < FEPS then
    if |num| < FEPS then .ok (plus2d q (times2d v (num / 1)))
    else .error (.runtimeError
      "intersection_2d: no unique solution (either collinear or parallel)")
  else .ok (plus2d q (times2d v (num / den)))

structure BoundingBox (K : Type) where
  corners : Point4 (Point K)
  size : Point K
  value : K
  orientationW : K
  orientationZ : K
  centroid : Point K

/-- A box that is measured. -/
structure Candidate (K : Type) where
  corners : Point4 (Point K)
  size : Point K
  value : K

def size2d (functions : MathFunctions K) (corners : Point4 (Point K)) : Point K where
  x := max (norm2d functions (minus2d (corners 1) (corners 0))) FEPS
  y := max (norm2d functions (minus2d (corners 2) (corners 1))) FEPS

def finalizeBox (functions : MathFunctions K) (best : Candidate K) : BoundingBox K :=
  let corners := best.corners
  let yawRad2 := functions.atan2 ((corners 2).y - (corners 1).y) ((corners 2).x - (corners 1).x) *
    (1 / 2)
  { corners := corners
    size := best.size
    value := best.value
    orientationW := functions.cos yawRad2
    orientationZ := functions.sin yawRad2
    centroid := times2d (plus2d (corners 0) (corners 2)) (1 / 2) }

structure Angle (K : Type) where
  cosTh : K
  edgeDirMag : K
  idx : Fin 4

def angle (functions : MathFunctions K) (edges directions : Point4 (Point K)) (idx : Fin 4) :
    Angle K :=
  let edgeDirMag := max (norm2d functions (edges idx) * norm2d functions (directions idx)) FEPS
  ⟨dot2d (edges idx) (directions idx) / edgeDirMag, edgeDirMag, idx⟩

def updateAngles (functions : MathFunctions K) (edges directions : Point4 (Point K)) :
    Point4 (Point K) × Fin 4 :=
  let best := ((List.finRange 4).map (angle functions edges directions)).foldl
    (keepBest Angle.cosTh) ⟨-floatMax, 0, 0⟩
  let sinTh := cross2d (directions best.idx) (edges best.idx) / best.edgeDirMag
  (fun idx => rotate2d (directions idx) best.cosTh sinTh, best.idx)

section

variable (points : List (Point K))

/-- The next point of the hull, which is the first one behind the last one. -/
def following (it : Fin points.length) : Fin points.length :=
  if hnext : it + 1 < points.length then ⟨it + 1, hnext⟩ else ⟨0, it.pos⟩

def edgeFrom (it : Fin points.length) : Point K :=
  minus2d (points.get (following points it)) (points.get it)

structure Scan (K : Type) (size : ℕ) where
  ahead : K × Option (Fin size)
  left : K × Option (Fin size)
  behind : K × Option (Fin size)

def scanPoint (u : Point K) (scan : Scan K points.length) (it : Fin points.length) :
    Scan K points.length :=
  let up := dot2d u (points.get it)
  let uxp := cross2d u (points.get it)
  { ahead := if scan.ahead.1 < up then (up, some it) else scan.ahead
    left := if scan.left.1 < uxp then (uxp, some it) else scan.left
    behind := if up < scan.behind.1 then (up, some it) else scan.behind }

def initBbox (first : Fin points.length) (u : Point K) :
    Except Failure (Point4 (Fin points.length)) :=
  let scan := (List.finRange points.length).foldl (scanPoint points u)
    ⟨(-floatMax, none), (-floatMax, none), (floatMax, none)⟩
  match scan.ahead.2, scan.left.2, scan.behind.2 with
  | some ahead, some left, some behind => .ok ![first, ahead, left, behind]
  | _, _, _ => .error .undefined

def computeCorners (support : Point4 (Fin points.length)) (directions : Point4 (Point K)) :
    Except Failure (Point4 (Point K)) := do
  let corner (idx : Fin 4) : Except Failure (Point K) :=
    intersection2d (points.get (support idx)) (directions idx) (points.get (support (idx + 1)))
      (directions (idx + 1))
  return ![← corner 0, ← corner 1, ← corner 2, ← corner 3]

end

/-! ## The calipers -/

def initDirections (u : Point K) : Point4 (Point K) :=
  ![u, getNormal u, negated2d u, negated2d (getNormal u)]

structure Calipers (points : List (Point K)) where
  support : Point4 (Fin points.length)
  directions : Point4 (Point K)
  edges : Point4 (Point K)
  best : Candidate K

section

variable (functions : MathFunctions K) (metricFn : Point K → K) (points : List (Point K))

def measure (support : Point4 (Fin points.length)) (directions : Point4 (Point K)) :
    Except Failure (Candidate K) := do
  let corners ← computeCorners points support directions
  let size := size2d functions corners
  return ⟨corners, size, metricFn size⟩

/-- One iteration. -/
def advance (self : Calipers points) : Except Failure (Calipers points) := do
  let (directions, advanceIdx) := updateAngles functions self.edges self.directions
  let candidate ← measure functions metricFn points self.support directions
  let runIt := following points (self.support advanceIdx)
  return {
    support := Function.update self.support advanceIdx runIt
    directions := directions
    edges := Function.update self.edges advanceIdx (edgeFrom points runIt)
    best := if candidate.value < self.best.value then candidate else self.best }

def advanceAll : ℕ → Calipers points → Except Failure (Calipers points)
  | 0, self => .ok self
  | iters + 1, self => do
    let next ← advance functions metricFn points self
    advanceAll iters next

def initCalipers (hpoints : 1 < points.length) : Except Failure (Calipers points) := do
  let first : Fin points.length := ⟨0, by omega⟩
  let u := minus2d (points.get ⟨1, hpoints⟩) (points.get first)
  let support ← initBbox points first u
  let best ← measure functions metricFn points support (initDirections u)
  return ⟨support, initDirections u, fun idx => edgeFrom points (support idx), best⟩

def rotatingCalipersImpl : Except Failure (BoundingBox K) :=
  if hpoints : 1 < points.length then do
    let calipers ← initCalipers functions metricFn points hpoints
    let calipers ← advanceAll functions metricFn points points.length calipers
    return finalizeBox functions calipers.best
  else if points.length = 0 then .error (.domainError "Malformed list, size = 0")
  else .error .undefined

end

def areaMetric (pt : Point K) : K :=
  pt.x * pt.y

def minimumAreaBoundingBox (functions : MathFunctions K) (list : List (Point K)) :
    Except Failure (List (Point K) × BoundingBox K) := do
  let (list, last) := convexHull list
  let box ← rotatingCalipersImpl functions areaMetric (list.take last)
  return (list, box)

end

open Library.KeepBest Library.PlaneTurns Library.PlaneVectors Library.SupportingLines

variable {K : Type} [Field K]

section

variable (p q : Point K)

@[simp]
theorem position_minus2d : position (minus2d p q) = position p - position q := rfl

@[simp]
theorem position_rotate2d (cosTh sinTh : K) :
    position (rotate2d p cosTh sinTh) = rotated cosTh sinTh (position p) := rfl

theorem cross2d_eq : cross2d p q = cross (position p) (position q) := rfl

theorem dot2d_eq : dot2d p q = dot (position p) (position q) := rfl

theorem norm2d_eq (functions : MathFunctions K) :
    norm2d functions p = functions.sqrt (dot (position p) (position p)) := rfl

end

theorem position_initDirections (u : Point K) (k : Fin 4) :
    position (initDirections u k) = side k (position u) := by
  fin_cases k <;> rfl

/-! ## Iterators -/

variable {points : List (Point K)}

def vertex (points : List (Point K)) (i : ℕ) : K × K :=
  position (points.getD (i % points.length) ⟨0, 0⟩)

theorem vertex_eq (it : Fin points.length) {i : ℕ} (hit : i % points.length = it) :
    vertex points i = position (points.get it) := by
  rw [vertex, hit, List.getD_eq_getElem _ _ it.isLt, List.get_eq_getElem]

theorem vertex_mod (hpos : 0 < points.length) (i : ℕ) :
    vertex points i = position (points.get ⟨i % points.length, Nat.mod_lt _ hpos⟩) :=
  vertex_eq _ rfl

omit [Field K] in
theorem following_val {it : Fin points.length} {i : ℕ} (hit : i % points.length = it) :
    (i + 1) % points.length = following points it := by
  have hlt := it.isLt
  rw [← Nat.mod_add_mod, hit, following]
  split_ifs with hnext
  · exact Nat.mod_eq_of_lt hnext
  · rw [show it.val + 1 = points.length by omega, Nat.mod_self]

theorem position_edgeFrom {it : Fin points.length} {i : ℕ} (hit : i % points.length = it) :
    position (edgeFrom points it) = edge (vertex points) i := by
  rw [edgeFrom, position_minus2d, edge, vertex_eq it hit, vertex_eq _ (following_val hit)]

/-- The calipers have the directions and the vertices of four lines. -/
structure InStep (points : List (Point K)) (calipers : Calipers points) (d : K × K)
    (heads : Fin 4 → ℕ) : Prop where
  directions : ∀ k, position (calipers.directions k) = side k d
  support : ∀ k, heads k % points.length = calipers.support k
  edges : ∀ k, calipers.edges k = edgeFrom points (calipers.support k)

variable [LinearOrder K]

/-- The square root is one. -/
def MathFunctions.HasSqrt (functions : MathFunctions K) : Prop :=
  ∀ value, 0 ≤ value → 0 ≤ functions.sqrt value ∧
    functions.sqrt value * functions.sqrt value = value

/-- No product of the lengths of an edge and of a direction is below the epsilon. -/
def LongEdges (functions : MathFunctions K) (points : List (Point K)) (norm : K) : Prop :=
  ∀ i, FEPS ≤ functions.sqrt (dot (edge (vertex points) i) (edge (vertex points) i)) * norm

variable [IsStrictOrderedRing K] {functions : MathFunctions K} {metricFn : Point K → K}

theorem feps_pos : (0 : K) < FEPS := by
  unfold FEPS
  positivity

omit [IsStrictOrderedRing K] in
theorem MathFunctions.HasSqrt.pos (hsqrt : functions.HasSqrt) {value : K} (hvalue : 0 < value) :
    0 < functions.sqrt value := by
  obtain ⟨hnonneg, hsquare⟩ := hsqrt value hvalue.le
  refine lt_of_le_of_ne hnonneg fun hzero => ?_
  rw [← hzero, mul_zero] at hsquare
  exact hvalue.ne hsquare

theorem feps_le_one : (FEPS : K) ≤ 1 := by
  unfold FEPS
  norm_num

theorem one_lt_floatMax : (1 : K) < floatMax := by
  unfold floatMax
  norm_num

theorem MathFunctions.HasSqrt.feps_le (hsqrt : functions.HasSqrt) {value : K}
    (hvalue : FEPS ≤ value) : FEPS ≤ functions.sqrt value := by
  obtain ⟨hnonneg, hsquare⟩ := hsqrt value (feps_pos.le.trans hvalue)
  refine le_of_not_gt fun hless => ?_
  have hsmall := mul_lt_mul'' hless hless hnonneg hnonneg
  rw [hsquare] at hsmall
  have hone : (FEPS : K) * FEPS ≤ FEPS := mul_le_of_le_one_left feps_pos.le feps_le_one
  exact absurd (hvalue.trans_lt hsmall) (not_lt.mpr hone)

variable {calipers : Calipers points} {d : K × K} {heads : Fin 4 → ℕ}

theorem updateAngles_turn (hsqrt : functions.HasSqrt) (hd : d ≠ 0)
    (hall : AllSupporting (vertex points) d heads)
    (hlong : LongEdges functions points (functions.sqrt (dot d d)))
    (hstep : InStep points calipers d heads) :
    ∃ moved cosTh sinTh, Turn (vertex points) d heads moved cosTh sinTh ∧
      updateAngles functions calipers.edges calipers.directions =
        (fun k => rotate2d (calipers.directions k) cosTh sinTh, moved) := by
  -- No magnitude is replaced by the epsilon.
  let mag (k : Fin 4) : K := functions.sqrt
    (dot (edge (vertex points) (heads k)) (edge (vertex points) (heads k))) *
      functions.sqrt (dot d d)
  have hedge (k : Fin 4) : position (calipers.edges k) = edge (vertex points) (heads k) := by
    rw [hstep.edges, position_edgeFrom (hstep.support k)]
  have hangle (k : Fin 4) : angle functions calipers.edges calipers.directions k =
      ⟨dot (side k d) (edge (vertex points) (heads k)) / mag k, mag k, k⟩ := by
    have hmax : max (norm2d functions (calipers.edges k) * norm2d functions (calipers.directions k)) FEPS =
        mag k := by
      rw [norm2d_eq, norm2d_eq, hedge k, hstep.directions, dot_side, max_eq_left (hlong (heads k))]
    have hdot : dot2d (calipers.edges k) (calipers.directions k) =
        dot (side k d) (edge (vertex points) (heads k)) := by
      rw [dot2d_eq, hedge k, hstep.directions, dot_comm]
    rw [angle, hmax, hdot]
  have hmag (k : Fin 4) : 0 < mag k ∧ mag k * mag k =
      dot (edge (vertex points) (heads k)) (edge (vertex points) (heads k)) * dot d d := by
    refine ⟨feps_pos.trans_le (hlong (heads k)), ?_⟩
    rw [mul_mul_mul_comm, (hsqrt _ (dot_self_nonneg _)).2, (hsqrt _ (dot_self_nonneg _)).2]
  let angles := (List.finRange 4).map (angle functions calipers.edges calipers.directions)
  have hbest := foldl_keepBest Angle.cosTh ⟨-floatMax, 0, 0⟩ angles
  obtain ⟨moved, hmoved⟩ : ∃ moved, angles.foldl (keepBest Angle.cosTh) ⟨-floatMax, 0, 0⟩ =
        angle functions calipers.edges calipers.directions moved := by
    rcases hbest.mem with hstart | ⟨hmem, _⟩
    · -- No cosine is below the initial one.
      have hle := hbest.le _ (List.mem_map_of_mem (List.mem_finRange 0))
      rw [hstart, hangle] at hle
      have hunit := cos_sin_unit (u := side 0 d) (e := edge (vertex points) (heads 0)) (hmag 0).1
        (by rw [dot_side, (hmag 0).2])
      have hcos := (abs_le.mp (abs_le_one_iff_mul_self_le_one.mpr
        (le_of_add_le_of_nonneg_left hunit.le (mul_self_nonneg _)))).1
      have hmax : (1 : K) < floatMax := one_lt_floatMax
      exact absurd (hcos.trans hle) (not_le.mpr (neg_lt_neg hmax))
    · obtain ⟨moved, _, hmoved⟩ := List.mem_map.mp hmem
      exact ⟨moved, hmoved.symm⟩
  have hlargest (k : Fin 4) : dot (side k d) (edge (vertex points) (heads k)) / mag k ≤
      dot (side moved d) (edge (vertex points) (heads moved)) / mag moved := by
    have hle := hbest.le _ (List.mem_map_of_mem (List.mem_finRange k))
    rwa [hmoved, hangle, hangle] at hle
  refine ⟨moved, _, _, turn_of_largest_cos hd hmag hall hlargest, ?_⟩
  have hsin : cross2d (calipers.directions moved) (calipers.edges moved) =
      cross (side moved d) (edge (vertex points) (heads moved)) := by
    rw [cross2d_eq, hedge, hstep.directions]
  rw [updateAngles, hmoved, hangle, ← hsin]

/-! ## All turns of the calipers -/

def turnOnce (functions : MathFunctions K) (points : List (Point K)) (calipers : Calipers points) :
    Calipers points :=
  let (directions, advanceIdx) := updateAngles functions calipers.edges calipers.directions
  let runIt := following points (calipers.support advanceIdx)
  { support := Function.update calipers.support advanceIdx runIt
    directions := directions
    edges := Function.update calipers.edges advanceIdx (edgeFrom points runIt)
    best := calipers.best }

def turned (functions : MathFunctions K) (start : Calipers points) (m : ℕ) : Calipers points :=
  (turnOnce functions points)^[m] start

def directionAt (functions : MathFunctions K) (start : Calipers points) (m : ℕ) : K × K :=
  position ((turned functions start m).directions 0)

/-- The support points counted on beyond the last point of the hull. -/
def headsAt (functions : MathFunctions K) (start : Calipers points) : ℕ → Fin 4 → ℕ
  | 0 => fun k => start.support k
  | m + 1 =>
    let calipers := turned functions start m
    let moved := (updateAngles functions calipers.edges calipers.directions).2
    Function.update (headsAt functions start m) moved (headsAt functions start m moved + 1)

omit [IsStrictOrderedRing K] in
theorem turned_succ (start : Calipers points) (m : ℕ) :
    turned functions start (m + 1) = turnOnce functions points (turned functions start m) :=
  Function.iterate_succ_apply' ..

/-- The calipers are four lines that support the hull, with directions as long as the first. -/
structure OnLines (functions : MathFunctions K) (start : Calipers points) (m : ℕ) : Prop where
  inStep : InStep points (turned functions start m) (directionAt functions start m)
    (headsAt functions start m)
  norm : dot (directionAt functions start m) (directionAt functions start m) =
    dot (directionAt functions start 0) (directionAt functions start 0)
  ne : directionAt functions start m ≠ 0
  supporting : AllSupporting (vertex points) (directionAt functions start m)
    (headsAt functions start m)

section

variable {start : Calipers points} {m : ℕ} (hsqrt : functions.HasSqrt)
  (hlong : LongEdges functions points (functions.sqrt
    (dot (directionAt functions start 0) (directionAt functions start 0))))

include hsqrt hlong

theorem OnLines.turn (hlines : OnLines functions start m) : ∃ moved cosTh sinTh,
      Turn (vertex points) (directionAt functions start m) (headsAt functions start m) moved cosTh
        sinTh ∧
      directionAt functions start (m + 1) = rotated cosTh sinTh (directionAt functions start m) ∧
      headsAt functions start (m + 1) = Function.update (headsAt functions start m) moved
        (headsAt functions start m moved + 1) ∧
      InStep points (turned functions start (m + 1)) (directionAt functions start (m + 1))
        (headsAt functions start (m + 1)) := by
  obtain ⟨hstep, hnorm, hne, hall⟩ := hlines
  rw [← hnorm] at hlong
  obtain ⟨moved, cosTh, sinTh, hturn, hupdate⟩ := updateAngles_turn hsqrt hne hall hlong hstep
  have hd : directionAt functions start (m + 1) =
      rotated cosTh sinTh (directionAt functions start m) := by
    rw [directionAt, turned_succ, turnOnce, hupdate]
    exact position_rotate2d ..
  have hheads : headsAt functions start (m + 1) = Function.update (headsAt functions start m)
      moved (headsAt functions start m moved + 1) := by
    rw [headsAt, hupdate]
  refine ⟨moved, cosTh, sinTh, hturn, hd, hheads, fun k => ?_, fun k => ?_, fun k => ?_⟩
  · rw [turned_succ, turnOnce, hupdate]
    dsimp only
    rw [position_rotate2d, hstep.directions, hd, side_rotated]
  · rw [turned_succ, turnOnce, hupdate, hheads]
    dsimp only
    by_cases hk : k = moved
    · rw [hk, Function.update_self, Function.update_self, following_val (hstep.support moved)]
    · rw [Function.update_of_ne hk, Function.update_of_ne hk, hstep.support]
  · rw [turned_succ, turnOnce, hupdate]
    dsimp only
    by_cases hk : k = moved
    · rw [hk, Function.update_self, Function.update_self]
    · rw [Function.update_of_ne hk, Function.update_of_ne hk, hstep.edges]

variable (hpolygon : ConvexPolygon points.length (vertex points))

include hpolygon

theorem OnLines.run (hstart : OnLines functions start 0) (m : ℕ) : OnLines functions start m := by
  induction m with
  | zero => exact hstart
  | succ m ih =>
    obtain ⟨moved, cosTh, sinTh, hturn, hd, hheads, hstep⟩ := ih.turn hsqrt hlong
    refine ⟨hstep, ?_, ?_, ?_⟩
    · rw [hd, dot_rotated_rotated hturn.unit, ih.norm]
    · rw [hd]
      exact rotated_ne_zero hturn.unit ih.ne
    · rw [hd, hheads]
      exact hpolygon.allSupporting_advanced
        (hpolygon.allSupporting_turned ih.ne ih.supporting hturn) hturn

theorem OnLines.turning (hstart : OnLines functions start 0) (n : ℕ) :
    Turning (vertex points) n (directionAt functions start) (headsAt functions start) where
  start_ne := hstart.ne
  start := hstart.supporting
  turn := by
    intro m _
    obtain ⟨moved, cosTh, sinTh, hturn, hd, hheads, _⟩ :=
      (hstart.run hsqrt hlong hpolygon m).turn hsqrt hlong
    exact ⟨moved, cosTh, sinTh, hturn, hd, hheads⟩

theorem OnLines.turned_supporting (hlines : OnLines functions start m) :
    AllSupporting (vertex points) (directionAt functions start (m + 1))
        (headsAt functions start m) ∧
      ∃ i, Along (directionAt functions start (m + 1)) (edge (vertex points) i) := by
  obtain ⟨moved, cosTh, sinTh, hturn, hd, _, _⟩ := hlines.turn hsqrt hlong
  rw [hd]
  obtain ⟨ratio, hratio, halong⟩ := hturn.along
  exact ⟨hpolygon.allSupporting_turned hlines.ne hlines.supporting hturn,
    headsAt functions start m moved, moved, ratio, hratio, halong⟩

end

omit [Field K] [IsStrictOrderedRing K] in
theorem exists_largest {size : ℕ} (metric : Fin size → K) {low : K} (hlow : ∃ it, low < metric it) :
    ∃ best, ((List.finRange size).map fun it => (metric it, some it)).foldl (keepBest Prod.fst)
        (low, none) = (metric best, some best) ∧ ∀ it, metric it ≤ metric best := by
  obtain ⟨above, habove⟩ := hlow
  have hbest := foldl_keepBest Prod.fst (low, none)
    ((List.finRange size).map fun it => (metric it, some it))
  have hle (it : Fin size) := hbest.le _ (List.mem_map_of_mem (List.mem_finRange it))
  rcases hbest.mem with hstart | ⟨hmem, _⟩
  · have hlast := hle above
    rw [hstart] at hlast
    exact absurd habove (not_lt.mpr hlast)
  · obtain ⟨best, _, hvalue⟩ := List.mem_map.mp hmem
    refine ⟨best, hvalue.symm, fun it => ?_⟩
    have hlast := hle it
    rwa [← hvalue] at hlast

section

variable (points) (u : Point K) (its : List (Fin points.length)) (scan : Scan K points.length)

section
omit [IsStrictOrderedRing K]

theorem foldl_scanPoint_ahead : (its.foldl (scanPoint points u) scan).ahead =
    (its.map fun it => (dot2d u (points.get it), some it)).foldl (keepBest Prod.fst)
      scan.ahead := by
  induction its generalizing scan with
  | nil => rfl
  | cons it its ih => exact ih _

theorem foldl_scanPoint_left : (its.foldl (scanPoint points u) scan).left =
    (its.map fun it => (cross2d u (points.get it), some it)).foldl (keepBest Prod.fst)
      scan.left := by
  induction its generalizing scan with
  | nil => rfl
  | cons it its ih => exact ih _

end

/-- The least metric is the opposite of the largest opposite. -/
theorem foldl_scanPoint_behind :
    (its.map fun it => (-dot2d u (points.get it), some it)).foldl (keepBest Prod.fst)
        (-scan.behind.1, scan.behind.2) =
      (-(its.foldl (scanPoint points u) scan).behind.1,
        (its.foldl (scanPoint points u) scan).behind.2) := by
  induction its generalizing scan with
  | nil => rfl
  | cons it its ih =>
    rw [List.map_cons, List.foldl_cons, List.foldl_cons, ← ih, keepBest]
    dsimp only [scanPoint]
    by_cases hless : dot2d u (points.get it) < scan.behind.1
    · rw [if_pos (neg_lt_neg hless), if_pos hless]
    · rw [if_neg (fun hneg => hless (neg_lt_neg_iff.mp hneg)), if_neg hless]

end

/-- The support points of the first box are those that are furthest along, across and against the
first edge. -/
theorem initBbox_eq (points : List (Point K)) (first : Fin points.length) {u : Point K}
    (hahead : ∃ it, -floatMax < dot2d u (points.get it))
    (hleft : ∃ it, -floatMax < cross2d u (points.get it))
    (hbehind : ∃ it, dot2d u (points.get it) < floatMax) :
    ∃ ahead left behind, initBbox points first u = .ok ![first, ahead, left, behind] ∧
      (∀ it, dot2d u (points.get it) ≤ dot2d u (points.get ahead)) ∧
      (∀ it, cross2d u (points.get it) ≤ cross2d u (points.get left)) ∧
      ∀ it, dot2d u (points.get behind) ≤ dot2d u (points.get it) := by
  obtain ⟨ahead, hfold, hlargest⟩ := exists_largest _ hahead
  obtain ⟨left, hfold', hlargest'⟩ := exists_largest _ hleft
  obtain ⟨behind, hfold'', hleast⟩ := exists_largest (fun it => -dot2d u (points.get it))
    (hbehind.imp fun it hless => neg_lt_neg hless)
  refine ⟨ahead, left, behind, ?_, hlargest, hlargest', fun it => neg_le_neg_iff.mp (hleast it)⟩
  have hscan := foldl_scanPoint_behind points u (List.finRange points.length)
    ⟨(-floatMax, none), (-floatMax, none), (floatMax, none)⟩
  rw [hfold''] at hscan
  rw [initBbox, foldl_scanPoint_ahead, foldl_scanPoint_left, hfold, hfold', ← congrArg Prod.snd hscan]

end

/-!
## The smallest box

Each box that is measured lies between four lines that support the hull, one of them along an
edge, and after all iterations each edge has had its box.  So the smallest of them is the smallest
rectangle along an edge that encloses the points.
-/

open Library.Fallible

variable {K : Type} [Field K] [LinearOrder K] [IsStrictOrderedRing K]
  {functions : MathFunctions K} {metricFn : Point K → K} {points : List (Point K)}

/-! ## One box -/

def heldPoints (points : List (Point K)) (support : Point4 (Fin points.length)) (k : Fin 4) :
    K × K :=
  position (points.get (support k))

section

variable {d : K × K} (support : Point4 (Fin points.length)) {directions : Point4 (Point K)}

/-- Neighbouring lines meet in one point. -/
theorem intersection2d_eq (hlong : FEPS ≤ dot d d) (hdirections : ∀ k, position (directions k) = side k d)
    (k : Fin 4) :
    ∃ corner, intersection2d (points.get (support k)) (directions k)
        (points.get (support (k + 1))) (directions (k + 1)) = .ok corner ∧
      position corner = cornerOf (heldPoints points support) d k := by
  have hpos : 0 < dot d d := feps_pos.trans_le hlong
  have hden : cross2d (directions (k + 1)) (directions k) = -dot d d := by
    rw [cross2d_eq, hdirections, hdirections, side_succ, cross_normal, dot_side]
  have hbranch : ¬ |cross2d (directions (k + 1)) (directions k)| < FEPS := by
    rw [hden, abs_neg, abs_of_pos hpos]
    exact not_lt.mpr hlong
  refine ⟨_, if_neg hbranch, ?_⟩
  have hnum : cross2d (minus2d (points.get (support k)) (points.get (support (k + 1))))
      (directions k) = cross (side k d)
        (heldPoints points support (k + 1) - heldPoints points support k) := by
    rw [cross2d_eq, position_minus2d, hdirections, heldPoints, heldPoints]
    simp only [cross, Prod.fst_sub, Prod.snd_sub]
    ring
  rw [hden, hnum, cornerOf, ← hdirections (k + 1), div_neg]
  ext
  · simp only [position, plus2d, times2d, heldPoints, Prod.fst_sub, Prod.smul_fst, smul_eq_mul]
    ring
  · simp only [position, plus2d, times2d, heldPoints, Prod.snd_sub, Prod.smul_snd, smul_eq_mul]
    ring

theorem computeCorners_eq (hlong : FEPS ≤ dot d d)
    (hdirections : ∀ k, position (directions k) = side k d) :
    ∃ corners, computeCorners points support directions = .ok corners ∧
      ∀ k, position (corners k) = cornerOf (heldPoints points support) d k := by
  choose corner hcorner hposition using intersection2d_eq support hlong hdirections
  refine ⟨![corner 0, corner 1, corner 2, corner 3], ?_, fun k => ?_⟩
  · rw [computeCorners]
    dsimp only
    rw [hcorner 0, hcorner 1, hcorner 2, hcorner 3]
    rfl
  · fin_cases k
    · exact hposition 0
    · exact hposition 1
    · exact hposition 2
    · exact hposition 3

/-- The length of a multiple of a vector. -/
theorem sqrt_smul (hsqrt : functions.HasSqrt) {ratio : K} (hratio : 0 ≤ ratio) (u : K × K) :
    functions.sqrt (dot (ratio • u) (ratio • u)) = ratio * functions.sqrt (dot u u) := by
  obtain ⟨hnonneg, hsquare⟩ := hsqrt _ (dot_self_nonneg (ratio • u))
  obtain ⟨hnonneg', hsquare'⟩ := hsqrt _ (dot_self_nonneg u)
  refine (mul_self_inj_of_nonneg hnonneg (mul_nonneg hratio hnonneg')).mp ?_
  rw [hsquare, dot_smul_left, dot_smul_right, mul_mul_mul_comm, hsquare', mul_assoc]

/-- A box between four lines that support the hull. -/
structure Tight (points : List (Point K)) (d : K × K) (v : Fin 4 → K × K)
    (candidate : Candidate K) : Prop where
  ne : d ≠ 0
  mem : ∀ k, v k ∈ Set.range (vertex points)
  supporting : ∀ k, Supporting (vertex points) (v k) (side k d)
  corners : ∀ k, position (candidate.corners k) = cornerOf v d k
  value : candidate.value = (between v d).area

theorem size_eq (hsqrt : functions.HasSqrt) (hlong : FEPS ≤ dot d d) {u : K × K}
    (hu : dot u u = dot d d) {width : K} (hwidth : FEPS * functions.sqrt (dot d d) ≤ width) :
    max (functions.sqrt (dot ((width / dot d d) • u) ((width / dot d d) • u))) FEPS =
      width / functions.sqrt (dot d d) := by
  have hpos : 0 < dot d d := feps_pos.trans_le hlong
  obtain ⟨hnonneg, hsquare⟩ := hsqrt _ hpos.le
  have hroot := hsqrt.pos hpos
  have hwidth' : 0 ≤ width := (mul_nonneg feps_pos.le hnonneg).trans hwidth
  have hsize : width / dot d d * functions.sqrt (dot d d) = width / functions.sqrt (dot d d) := by
    have hne := hroot.ne'
    have hratio : functions.sqrt (dot d d) / dot d d = 1 / functions.sqrt (dot d d) := by
      rw [div_eq_div_iff hpos.ne' hne, hsquare, one_mul]
    rw [div_mul_eq_mul_div, mul_div_assoc, hratio, mul_one_div]
  rw [sqrt_smul hsqrt (div_nonneg hwidth' hpos.le), hu, hsize]
  exact max_eq_left ((le_div_iff₀ hroot).mpr hwidth)

/-- A box that is as wide as the epsilon everywhere has its area for value. -/
theorem measure_tight (hsqrt : functions.HasSqrt) (hlong : FEPS ≤ dot d d)
    (hdirections : ∀ k, position (directions k) = side k d)
    (hsupporting : ∀ k, Supporting (vertex points) (heldPoints points support k) (side k d))
    (hmem : ∀ k, heldPoints points support k ∈ Set.range (vertex points))
    (hwide : ∀ k, FEPS * functions.sqrt (dot d d) ≤ extent (heldPoints points support) d k) :
    ∃ candidate, measure functions areaMetric points support directions = .ok candidate ∧
      Tight points d (heldPoints points support) candidate := by
  have hpos : 0 < dot d d := feps_pos.trans_le hlong
  have hne : d ≠ 0 := by
    rintro rfl
    exact hpos.ne' (by simp [dot])
  have hleft : ∀ k l, 0 ≤ cross (side k d)
      (heldPoints points support l - heldPoints points support k) := by
    intro k l
    obtain ⟨i, hi⟩ := hmem l
    rw [← hi]
    exact hsupporting k i
  obtain ⟨corners, hcorners, hpositions⟩ := computeCorners_eq support hlong hdirections
  refine ⟨⟨corners, size2d functions corners, areaMetric (size2d functions corners)⟩, ?_, hne, hmem,
    hsupporting, hpositions, ?_⟩
  · rw [measure, hcorners]
    rfl
  · have hbetween := corners_between (v := heldPoints points support) hne
    have hlength : position (minus2d (corners 1) (corners 0)) =
        (extent (heldPoints points support) d 0 / dot d d) • normal d := by
      rw [position_minus2d, hpositions, hpositions, ← hbetween 0, ← hbetween 1]
      exact add_sub_cancel_left ..
    have hwidth : position (minus2d (corners 2) (corners 1)) =
        (extent (heldPoints points support) d 1 / dot d d) • (-d) := by
      rw [position_minus2d, hpositions, hpositions, ← hbetween 1, ← hbetween 2]
      exact add_sub_cancel_left ..
    have hroot := (hsqrt _ hpos.le).2
    have hx : (size2d functions corners).x =
        extent (heldPoints points support) d 0 / functions.sqrt (dot d d) := by
      rw [size2d]
      dsimp only
      rw [norm2d_eq, hlength]
      exact size_eq hsqrt hlong (dot_normal_normal d d) (hwide 0)
    have hy : (size2d functions corners).y =
        extent (heldPoints points support) d 1 / functions.sqrt (dot d d) := by
      rw [size2d]
      dsimp only
      rw [norm2d_eq, hwidth]
      exact size_eq hsqrt hlong (by simp [dot]) (hwide 1)
    dsimp only
    rw [areaMetric, hx, hy, div_mul_div_comm, hroot, ← area_between hne hleft]
    exact mul_div_cancel_right₀ _ hpos.ne'

end

/-- The points are at least as far apart as the epsilon, across a vector and along it. -/
structure Wide (functions : MathFunctions K) (A : Set (K × K)) (e : K × K) : Prop where
  across : ∃ p ∈ A, ∃ q ∈ A, FEPS * functions.sqrt (dot e e) ≤ cross e (p - q)
  along : ∃ p ∈ A, ∃ q ∈ A, FEPS * functions.sqrt (dot e e) ≤ dot e (p - q)

variable {A : Set (K × K)} {d e : K × K} {v : Fin 4 → K × K}

theorem Wide.extent_ge (hwide : Wide functions A e) (hsqrt : functions.HasSqrt)
    (halong : Along d e) (hleft : ∀ q ∈ A, ∀ k, 0 ≤ cross (side k d) (q - v k)) (k : Fin 4) :
    FEPS * functions.sqrt (dot d d) ≤ extent v d k := by
  obtain ⟨first, ratio, hratio, rfl⟩ := halong
  obtain ⟨⟨p, hp, q, hq, hacross⟩, p', hp', q', hq', halong⟩ := hwide
  rw [sqrt_smul hsqrt hratio.le, dot_side, mul_left_comm] at hacross halong
  have hfirst : FEPS * functions.sqrt (dot d d) ≤ extent v d first := by
    rw [cross_smul_left] at hacross
    exact (le_of_mul_le_mul_left hacross hratio).trans
      (sub_le_extent (hleft p hp) (hleft q hq) first)
  have hsecond : FEPS * functions.sqrt (dot d d) ≤ extent v d (first + 1) := by
    have hturned : dot (side first d) (p' - q') = cross (side (first + 1) d) (q' - p') := by
      rw [side_succ, cross_normal]
      simp only [dot, Prod.fst_sub, Prod.snd_sub]
      ring
    rw [dot_smul_left, hturned] at halong
    exact (le_of_mul_le_mul_left halong hratio).trans
      (sub_le_extent (hleft q' hq') (hleft p' hp') (first + 1))
  obtain ⟨steps, rfl⟩ : ∃ steps, k = first + steps := ⟨k - first, (add_sub_cancel first k).symm⟩
  fin_cases steps
  · exact hfirst.trans_eq (congrArg (extent v d) (add_zero first).symm)
  · exact hsecond
  · exact hfirst.trans_eq (extent_add_two first).symm
  · have hthree : first + 3 = first + 1 + 2 := by
      rw [add_assoc]
      rfl
    exact hsecond.trans_eq ((congrArg (extent v d) hthree).trans (extent_add_two _)).symm

/-- The best of the boxes of the first turns. -/
structure BestOf (functions : MathFunctions K) (start : Calipers points) (m : ℕ)
    (best : Candidate K) : Prop where
  found : ∃ d v, Tight points d v best
  least : ∀ l ≤ m, ∃ v candidate, Tight points (directionAt functions start l) v candidate ∧
    best.value ≤ candidate.value

section

variable {start : Calipers points} {m : ℕ}

omit [IsStrictOrderedRing K] in
/-- One iteration, when its box is measured. -/
theorem advance_eq (best : Candidate K) {candidate : Candidate K}
    (hmeasure : measure functions metricFn points (turned functions start m).support
      (turned functions start (m + 1)).directions = .ok candidate) :
    advance functions metricFn points { turned functions start m with best := best } =
      .ok { turned functions start (m + 1) with
        best := if candidate.value < best.value then candidate else best } := by
  rw [turned_succ, turnOnce] at hmeasure ⊢
  rw [advance]
  dsimp only at hmeasure ⊢
  rw [hmeasure]
  rfl

structure Roomy (functions : MathFunctions K) (A : Set (K × K)) (points : List (Point K)) : Prop where
  long : LongEdges functions points (functions.sqrt
    (dot (edge (vertex points) 0) (edge (vertex points) 0)))
  wide : ∀ i, Wide functions A (edge (vertex points) i)
  ahead : ∃ p ∈ A, -floatMax < dot (edge (vertex points) 0) p
  left : ∃ p ∈ A, -floatMax < cross (edge (vertex points) 0) p
  behind : ∃ p ∈ A, dot (edge (vertex points) 0) p < floatMax

variable (hsqrt : functions.HasSqrt) (hhull : IsHull A points.length (vertex points))
  (hroomy : Roomy functions A points)

include hsqrt hhull hroomy

/-- The box between lines that support the hull, one of them along an edge. -/
theorem exists_tight {support : Point4 (Fin points.length)} {directions : Point4 (Point K)}
    {heads : Fin 4 → ℕ} {i : ℕ} (hdirections : ∀ k, position (directions k) = side k d)
    (hsupport : ∀ k, heads k % points.length = support k)
    (hnorm : dot d d = dot (edge (vertex points) 0) (edge (vertex points) 0))
    (hall : AllSupporting (vertex points) d heads) (halong : Along d (edge (vertex points) i)) :
    ∃ v candidate, measure functions areaMetric points support directions = .ok candidate ∧
      Tight points d v candidate := by
  have hheld (k : Fin 4) : heldPoints points support k = vertex points (heads k) :=
    (vertex_eq _ (hsupport k)).symm
  have hsupporting : ∀ k, Supporting (vertex points) (heldPoints points support k) (side k d) := by
    intro k
    rw [hheld]
    exact hall k
  have hlong : FEPS ≤ dot d d := by
    have hle := hroomy.long 0
    rwa [(hsqrt _ (dot_self_nonneg _)).2, ← hnorm] at hle
  obtain ⟨candidate, hmeasure, htight⟩ := measure_tight support hsqrt hlong hdirections hsupporting
    (fun k => ⟨heads k, (hheld k).symm⟩)
    ((hroomy.wide i).extent_ge hsqrt halong fun q hq k =>
      hhull.left_of_supporting (hsupporting k) hq)
  exact ⟨_, candidate, hmeasure, htight⟩

theorem advanceAll_best (hfirst : directionAt functions start 0 = edge (vertex points) 0)
    (hstart : OnLines functions start 0) (iters : ℕ) {best : Candidate K}
    (hbest : BestOf functions start m best) :
    ∃ last, advanceAll functions areaMetric points iters
        { turned functions start m with best := best } =
          .ok { turned functions start (m + iters) with best := last } ∧
      BestOf functions start (m + iters) last := by
  induction iters generalizing m best with
  | zero => exact ⟨best, rfl, hbest⟩
  | succ iters ih =>
    have hlong := hroomy.long
    rw [← hfirst] at hlong
    have hlines := hstart.run hsqrt hlong hhull.polygon m
    have hnext := hstart.run hsqrt hlong hhull.polygon (m + 1)
    obtain ⟨hall, i, halong⟩ := hlines.turned_supporting hsqrt hlong hhull.polygon
    have hnorm := hnext.norm
    rw [hfirst] at hnorm
    obtain ⟨v, candidate, hmeasure, htight⟩ := exists_tight hsqrt hhull hroomy
      hnext.inStep.directions hlines.inStep.support hnorm hall halong
    have hadvance := advance_eq best hmeasure
    have hbest' : BestOf functions start (m + 1)
        (if candidate.value < best.value then candidate else best) := by
      split_ifs with hless
      · refine ⟨⟨_, v, htight⟩, fun l hl => ?_⟩
        rcases Nat.le_succ_iff.mp hl with hle | rfl
        · obtain ⟨w, other, htight', hother⟩ := hbest.least l hle
          exact ⟨w, other, htight', hless.le.trans hother⟩
        · exact ⟨v, candidate, htight, le_rfl⟩
      · refine ⟨hbest.found, fun l hl => ?_⟩
        rcases Nat.le_succ_iff.mp hl with hle | rfl
        · exact hbest.least l hle
        · exact ⟨v, candidate, htight, not_lt.mp hless⟩
    obtain ⟨last, hrest, hlast⟩ := ih hbest'
    rw [show m + 1 + iters = m + (iters + 1) by omega] at hrest hlast
    refine ⟨last, ?_, hlast⟩
    rw [advanceAll, hadvance]
    exact hrest

end

/-! ## The first box -/

/-- A vertex reaches what a point reaches. -/
theorem exists_lt_dot (hhull : IsHull A points.length (vertex points)) {u : K × K} {low : K}
    (hreached : ∃ p ∈ A, low < dot u p) :
    ∃ it : Fin points.length, low < dot u (position (points.get it)) := by
  obtain ⟨p, hp, hlow⟩ := hreached
  by_contra hnone
  rw [not_exists] at hnone
  refine absurd hlow (not_lt.mpr (hhull.dot_le (fun i => ?_) hp))
  rw [vertex_mod hhull.polygon.pos]
  exact not_lt.mp (hnone _)

theorem allSupporting_first (hpolygon : ConvexPolygon points.length (vertex points))
    {ahead left behind : Fin points.length}
    (hahead : ∀ i, dot (edge (vertex points) 0) (vertex points i) ≤
      dot (edge (vertex points) 0) (vertex points ahead))
    (hleft : ∀ i, cross (edge (vertex points) 0) (vertex points i) ≤
      cross (edge (vertex points) 0) (vertex points left))
    (hbehind : ∀ i, dot (edge (vertex points) 0) (vertex points behind) ≤
      dot (edge (vertex points) 0) (vertex points i)) :
    AllSupporting (vertex points) (edge (vertex points) 0) ![0, ahead, left, behind] := by
  have hdot (p q : K × K) : dot (edge (vertex points) 0) (p - q) =
      dot (edge (vertex points) 0) p - dot (edge (vertex points) 0) q := by
    simp only [dot, Prod.fst_sub, Prod.snd_sub]
    ring
  have hcross (p q : K × K) : cross (edge (vertex points) 0) (p - q) =
      cross (edge (vertex points) 0) p - cross (edge (vertex points) 0) q := by
    simp only [cross, Prod.fst_sub, Prod.snd_sub]
    ring
  intro k i
  fin_cases k
  · exact hpolygon.supporting_edge 0 i
  · change 0 ≤ cross (normal (edge (vertex points) 0)) (vertex points i - vertex points ahead)
    rw [cross_normal, hdot, neg_sub, sub_nonneg]
    exact hahead i
  · change 0 ≤ cross (-edge (vertex points) 0) (vertex points i - vertex points left)
    rw [cross_neg_left, hcross, neg_sub, sub_nonneg]
    exact hleft i
  · change 0 ≤ cross (-normal (edge (vertex points) 0)) (vertex points i - vertex points behind)
    rw [cross_neg_left, cross_normal, neg_neg, hdot, sub_nonneg]
    exact hbehind i

theorem initCalipers_eq (hsqrt : functions.HasSqrt) (hhull : IsHull A points.length (vertex points))
    (hroomy : Roomy functions A points) (hpoints : 1 < points.length) :
    ∃ start, initCalipers functions areaMetric points hpoints = .ok start ∧
      directionAt functions start 0 = edge (vertex points) 0 ∧ OnLines functions start 0 ∧
      BestOf functions start 0 start.best := by
  have hpolygon := hhull.polygon
  let first : Fin points.length := ⟨0, by omega⟩
  let u := minus2d (points.get ⟨1, hpoints⟩) (points.get first)
  have hu : position u = edge (vertex points) 0 := by
    rw [position_minus2d, edge, vertex_eq first (Nat.zero_mod _),
      vertex_eq ⟨1, hpoints⟩ (Nat.mod_eq_of_lt hpoints)]
  have hvertex (it : Fin points.length) : vertex points it = position (points.get it) :=
    vertex_eq it (Nat.mod_eq_of_lt it.isLt)
  have heverywhere (holds : K × K → Prop) (hholds : ∀ it : Fin points.length,
      holds (position (points.get it))) (i : ℕ) : holds (vertex points i) := by
    rw [vertex_mod hpolygon.pos]
    exact hholds _
  -- The scan meets points beyond its initial metrics.
  obtain ⟨ahead, left, behind, hinit, hahead, hleft, hbehind⟩ := initBbox_eq points first (u := u)
    (by
      obtain ⟨it, hit⟩ := exists_lt_dot hhull hroomy.ahead
      exact ⟨it, by rwa [dot2d_eq, hu]⟩)
    (by
      obtain ⟨p, hp, hlow⟩ := hroomy.left
      rw [← dot_normal] at hlow
      obtain ⟨it, hit⟩ := exists_lt_dot hhull ⟨p, hp, hlow⟩
      exact ⟨it, by rwa [cross2d_eq, hu, ← dot_normal]⟩)
    (by
      obtain ⟨p, hp, hhigh⟩ := hroomy.behind
      rw [← neg_lt_neg_iff, ← dot_neg_left] at hhigh
      obtain ⟨it, hit⟩ := exists_lt_dot hhull ⟨p, hp, hhigh⟩
      exact ⟨it, by rwa [dot2d_eq, hu, ← neg_lt_neg_iff, ← dot_neg_left]⟩)
  simp only [dot2d_eq, cross2d_eq, hu] at hahead hleft hbehind
  let support : Point4 (Fin points.length) := ![first, ahead, left, behind]
  have hdirections : ∀ k, position (initDirections u k) = side k (edge (vertex points) 0) := by
    intro k
    rw [← hu, position_initDirections]
  have hheads : (fun k => (support k : ℕ)) = ![0, (ahead : ℕ), left, behind] := by
    funext k
    fin_cases k <;> rfl
  have hsupporting : AllSupporting (vertex points) (edge (vertex points) 0)
      fun k => (support k : ℕ) := by
    rw [hheads]
    refine allSupporting_first hpolygon
      (heverywhere (fun q => dot _ q ≤ _) fun it => ?_)
      (heverywhere (fun q => cross _ q ≤ _) fun it => ?_)
      (heverywhere (fun q => _ ≤ dot _ q) fun it => ?_)
    · rw [hvertex]
      exact hahead it
    · rw [hvertex]
      exact hleft it
    · rw [hvertex]
      exact hbehind it
  have hindex (k : Fin 4) : (support k : ℕ) % points.length = support k :=
    Nat.mod_eq_of_lt (support k).isLt
  obtain ⟨v, best, hmeasure, htight⟩ := exists_tight hsqrt hhull hroomy hdirections hindex rfl
    hsupporting ⟨0, 1, one_pos, (one_smul K _).symm⟩
  let start : Calipers points :=
    ⟨support, initDirections u, fun idx => edgeFrom points (support idx), best⟩
  have hstart : directionAt functions start 0 = edge (vertex points) 0 := hu
  refine ⟨start, ?_, hstart, ⟨⟨?_, hindex, fun _ => rfl⟩, rfl, ?_, ?_⟩, ⟨_, v, htight⟩, ?_⟩
  · have hsame : initBbox points ⟨0, by omega⟩
        (minus2d (points.get ⟨1, hpoints⟩) (points.get ⟨0, by omega⟩)) = .ok support := hinit
    refine bind_eq_ok.mpr ⟨support, hsame, bind_eq_ok.mpr ⟨best, hmeasure, rfl⟩⟩
  · rw [hstart]
    exact hdirections
  · rw [hstart]
    exact hpolygon.edge_ne_zero 0
  · rw [hstart]
    exact hsupporting
  · intro l hl
    rw [Nat.le_zero.mp hl, hstart]
    exact ⟨v, best, htight, le_rfl⟩

/-- A box is a rectangle that encloses the points, its value is its area, and no rectangle along an
edge of the hull that encloses them is smaller. -/
def SmallestBox (A : Set (K × K)) (box : BoundingBox K) : Prop :=
  ∃ R : Rectangle K, (∀ k, position (box.corners k) = R.corners k) ∧ box.value = R.area ∧
    A ⊆ R.region ∧ ∀ other : Rectangle K, A ⊆ other.region →
      ∀ a b, HullEdge A a b → other.HasSide (b - a) → R.area ≤ other.area

theorem rotatingCalipersImpl_smallest (hsqrt : functions.HasSqrt)
    (hhull : IsHull A points.length (vertex points)) (hroomy : Roomy functions A points) :
    ∃ box, rotatingCalipersImpl functions areaMetric points = .ok box ∧ SmallestBox A box := by
  have hpolygon := hhull.polygon
  have hpoints : 1 < points.length := lt_of_lt_of_le (by decide) hpolygon.three
  obtain ⟨start, hinit, hfirst, hlines, hbest⟩ := initCalipers_eq hsqrt hhull hroomy hpoints
  obtain ⟨last, hrun, ⟨d, v, htight⟩, hleast⟩ :=
    advanceAll_best hsqrt hhull hroomy hfirst hlines points.length hbest
  refine ⟨finalizeBox functions last, ?_, between v d, fun k => ?_, htight.value, ?_, ?_⟩
  · rw [rotatingCalipersImpl, dif_pos hpoints]
    exact bind_eq_ok.mpr ⟨start, hinit, bind_eq_ok.mpr ⟨_, hrun, rfl⟩⟩
  · rw [corners_between htight.ne]
    exact htight.corners k
  · exact fun q hq => mem_region_between htight.ne fun k =>
      hhull.left_of_supporting (htight.supporting k) hq
  · intro other hother a b hedge hside
    obtain ⟨i, hi⟩ := hhull.exists_edge hedge
    rw [← hi] at hside
    have hlong := hroomy.long
    rw [← hfirst] at hlong
    obtain ⟨m, hm, halong⟩ :=
      (hlines.turning hsqrt hlong hpolygon points.length).exists_along hpolygon i
    obtain ⟨w, candidate, htight', hle⟩ := hleast m (by omega)
    rw [htight.value, htight'.value] at hle
    have hmem (k : Fin 4) : w k ∈ A := by
      obtain ⟨j, hj⟩ := htight'.mem k
      rw [← hj]
      exact hhull.mem j
    exact hle.trans (area_between_le htight'.ne
      (fun k l => hhull.left_of_supporting (htight'.supporting k) (hmem l))
      (fun k => hother (hmem k)) halong hside)

end

variable {K : Type} [Field K] [LinearOrder K]

def FirstEdge (list : List (Point K)) (f g : K × K) : Prop :=
  if list.length ≤ 3 then ∃ a b rest, list = a :: b :: rest ∧ f = position a ∧ g = position b
  else HullEdge (positions list) f g ∧ ∀ p ∈ list, f.1 < p.x ∨ f.1 = p.x ∧ f.2 ≤ p.y

/-- No comparison with the epsilon or with the initial metrics changes what is computed. -/
structure Spaced (functions : MathFunctions K) (list : List (Point K)) : Prop where
  apart : 3 < list.length → AbscissasApart list
  wide : ∀ a b, HullEdge (positions list) a b → Wide functions (positions list) (b - a)
  long : ∀ f g a b, FirstEdge list f g → HullEdge (positions list) a b →
    FEPS ≤ functions.sqrt (dot (b - a) (b - a)) * functions.sqrt (dot (g - f) (g - f))
  ahead : ∀ f g, FirstEdge list f g → ∃ p ∈ positions list, -floatMax < dot (g - f) p
  left : ∀ f g, FirstEdge list f g → ∃ p ∈ positions list, -floatMax < cross (g - f) p
  behind : ∀ f g, FirstEdge list f g → ∃ p ∈ positions list, dot (g - f) p < floatMax

/-- More than three points, or three that turn left. -/
def Ordered (list : List (Point K)) : Prop :=
  3 < list.length ∨ ∃ a b c, list = [a, b, c] ∧ 0 < pointTurn a b c

def ReturnsSmallest (functions : MathFunctions K) (list : List (Point K)) : Prop :=
  ∃ hulled box, minimumAreaBoundingBox functions list = .ok (hulled, box) ∧
    SmallestBox (positions list) box

variable [IsStrictOrderedRing K] {functions : MathFunctions K} {list points : List (Point K)}

section
omit [LinearOrder K] [IsStrictOrderedRing K]

theorem vertex_getElem {i : ℕ} (hi : i < points.length) : vertex points i = position points[i] :=
  vertex_eq ⟨i, hi⟩ (Nat.mod_eq_of_lt hi)

theorem range_vertex (hpos : 0 < points.length) : Set.range (vertex points) = positions points := by
  ext q
  constructor
  · rintro ⟨i, rfl⟩
    rw [vertex_mod hpos]
    exact List.mem_map_of_mem (List.get_mem ..)
  · intro hq
    obtain ⟨p, hp, rfl⟩ := List.mem_map.mp hq
    obtain ⟨i, hi, rfl⟩ := List.getElem_of_mem hp
    exact ⟨i, vertex_getElem hi⟩

end

omit [IsStrictOrderedRing K] in
theorem isHull_of_turns (points : List (Point K)) (hthree : 3 ≤ points.length)
    (hturns : points.Triplewise fun a b c => 0 < pointTurn a b c) (hmem : points ⊆ list)
    (hinside : ∀ p ∈ list, position p ∈ convexHull K (positions points)) :
    IsHull (positions list) points.length (vertex points) := by
  have hpos : 0 < points.length := by omega
  refine ⟨⟨hthree, fun i => ?_, fun i j k hij hjk hk => ?_⟩, fun i => ?_, fun q hq => ?_⟩
  · rw [vertex, vertex, Nat.mod_mod]
  · rw [vertex_getElem (by omega), vertex_getElem (by omega), vertex_getElem hk]
    exact List.triplewise_iff_getElem.mp hturns i j k hij hjk hk
  · have hi : vertex points i ∈ positions points := by
      rw [← range_vertex hpos]
      exact ⟨i, rfl⟩
    obtain ⟨p, hp, heq⟩ := List.mem_map.mp hi
    exact heq ▸ List.mem_map_of_mem (hmem hp)
  · obtain ⟨p, hp, rfl⟩ := List.mem_map.mp hq
    rw [range_vertex hpos]
    exact hinside p hp

theorem Spaced.roomy (hspaced : Spaced functions list)
    (hhull : IsHull (positions list) points.length (vertex points))
    (hfirst : FirstEdge list (vertex points 0) (vertex points 1)) :
    Roomy functions (positions list) points where
  long := fun i => hspaced.long _ _ _ _ hfirst (hhull.hullEdge i)
  wide := fun i => hspaced.wide _ _ (hhull.hullEdge i)
  ahead := hspaced.ahead _ _ hfirst
  left := hspaced.left _ _ hfirst
  behind := hspaced.behind _ _ hfirst

theorem Ordered.isHull (hordered : Ordered list) (hspaced : Spaced functions list)
    (hturn : ∃ a ∈ list, ∃ b ∈ list, ∃ c ∈ list, pointTurn a b c ≠ 0) :
    let hulled := ConvexHull.convexHull list
    IsHull (positions list) (hulled.1.take hulled.2).length (vertex (hulled.1.take hulled.2)) ∧
      FirstEdge list (vertex (hulled.1.take hulled.2) 0) (vertex (hulled.1.take hulled.2) 1) := by
  intro hulled
  rcases hordered with hlength | ⟨a, b, c, rfl, habc⟩
  · have hfront := convexHull_hullInFront hlength (hspaced.apart hlength)
    have hthree := (hfront.distinct hturn).1
    have hhull : IsHull (positions list) (hulled.1.take hulled.2).length
        (vertex (hulled.1.take hulled.2)) := by
      refine isHull_of_turns _ hthree hfront.turns
        (fun p hp => hfront.perm.mem_iff.mp (List.mem_of_mem_take hp)) fun p hp => ?_
      rw [← hfront.perm.mem_iff, ← List.take_append_drop hulled.2 hulled.1, List.mem_append] at hp
      rcases hp with htake | hdrop
      · exact subset_convexHull K _ (List.mem_map_of_mem htake)
      · exact hfront.inside p hdrop
    refine ⟨hhull, ?_⟩
    rw [FirstEdge, if_neg (by omega)]
    refine ⟨hhull.hullEdge 0, ?_⟩
    obtain ⟨first, hhead, hcount, hsmallest⟩ := hfront.smallest
    have hvertex : vertex (hulled.1.take hulled.2) 0 = position first := by
      rw [vertex_getElem (lt_of_lt_of_le (by decide) hthree), List.getElem_take]
      obtain ⟨rest, hcons⟩ := List.head?_eq_some_iff.mp hhead
      simp only [hcons, List.getElem_cons_zero]
    rw [hvertex]
    exact hsmallest
  · have hhulled : hulled = ([a, b, c], 3) := rfl
    rw [hhulled]
    refine ⟨isHull_of_turns _ le_rfl ?_ (List.Subset.refl _) fun p hp =>
      subset_convexHull K _ (List.mem_map_of_mem hp), ?_⟩
    · simpa [List.triplewise_cons] using habc
    · rw [FirstEdge, if_pos (by simp)]
      exact ⟨a, b, [c], rfl, rfl, rfl⟩

theorem Ordered.returnsSmallest (hordered : Ordered list) (hsqrt : functions.HasSqrt)
    (hspaced : Spaced functions list)
    (hturn : ∃ a ∈ list, ∃ b ∈ list, ∃ c ∈ list, pointTurn a b c ≠ 0) :
    ReturnsSmallest functions list := by
  obtain ⟨hhull, hfirst⟩ := hordered.isHull hspaced hturn
  obtain ⟨box, hbox, hsmallest⟩ :=
    rotatingCalipersImpl_smallest hsqrt hhull (hspaced.roomy hhull hfirst)
  refine ⟨(ConvexHull.convexHull list).1, box, ?_, hsmallest⟩
  rw [minimumAreaBoundingBox]
  dsimp only
  rw [hbox]
  rfl

end

/-! ## The smallest box around three points -/

open Library.Fallible Library.PlaneTurns Library.PlaneVectors Library.SupportingLines

variable {K : Type} [Field K] [LinearOrder K] [IsStrictOrderedRing K]
  {functions : MathFunctions K} {points : List (Point K)}

/-! ## Three points that turn right -/

section

variable {metricFn : Point K → K} {calipers next : Calipers points}

omit [IsStrictOrderedRing K]

theorem advance_keeps (hadvance : advance functions metricFn points calipers = .ok next) :
    next.best = calipers.best ∨ next.best.value < calipers.best.value := by
  rw [advance] at hadvance
  dsimp only at hadvance
  obtain ⟨candidate, _, hresult⟩ := bind_eq_ok.mp hadvance
  cases hresult
  dsimp only
  split_ifs with hless
  · exact .inr hless
  · exact .inl rfl

theorem advanceAll_keeps {iters : ℕ}
    (hadvance : advanceAll functions metricFn points iters calipers = .ok next) :
    next.best = calipers.best ∨ next.best.value < calipers.best.value := by
  induction iters generalizing calipers with
  | zero =>
    cases hadvance
    exact .inl rfl
  | succ iters ih =>
    obtain ⟨between, hfirst, hrest⟩ := bind_eq_ok.mp hadvance
    rcases ih hrest with hsame | hless
    · rw [hsame]
      exact advance_keeps hfirst
    · rcases advance_keeps hfirst with hsame' | hless'
      · rw [← hsame']
        exact .inr hless
      · exact .inr (hless.trans hless')

end

section

variable {a b c : Point K}

/-- A triangle that turns right has the edges of its reversal. -/
theorem isHull_clockwise (hturn : pointTurn a b c < 0) :
    IsHull (positions [a, b, c]) 3 (vertex [a, c, b]) := by
  have hpos : 0 < pointTurn a c b := by
    rw [pointTurn, turn_swap]
    exact neg_pos.mpr hturn
  refine isHull_of_turns [a, c, b] le_rfl ?_ (fun p hp => ?_) fun p hp =>
    subset_convexHull K _ (List.mem_map_of_mem ?_)
  · simpa [List.triplewise_cons] using hpos
  · simp only [List.mem_cons, List.not_mem_nil, or_false] at hp ⊢
    tauto
  · simp only [List.mem_cons, List.not_mem_nil, or_false] at hp ⊢
    tauto

omit [LinearOrder K] [IsStrictOrderedRing K] in
theorem edges_triangle : edge (vertex [a, c, b]) 0 = position c - position a ∧
    edge (vertex [a, c, b]) 1 = position b - position c ∧
    edge (vertex [a, c, b]) 2 = position a - position b := by
  simp [edge, vertex]

omit [Field K] [LinearOrder K] [IsStrictOrderedRing K] in
theorem mem_positions_triangle {q : K × K} :
    q ∈ positions [a, b, c] ↔ q = position a ∨ q = position b ∨ q = position c := by
  simp [positions]

variable {p q : K × K}

theorem cross_edge_le (hturn : pointTurn a b c < 0) (hp : p ∈ positions [a, b, c])
    (hq : q ∈ positions [a, b, c]) {i : ℕ} (hi : i < 3) :
    cross (edge (vertex [a, c, b]) i) (p - q) ≤ -pointTurn a b c := by
  have hleft := (isHull_clockwise hturn).left_of_supporting
    ((isHull_clockwise hturn).polygon.supporting_edge i) hq
  obtain ⟨hfirst, hsecond, hthird⟩ := @edges_triangle K _ a b c
  have hfar : cross (edge (vertex [a, c, b]) i) (p - vertex [a, c, b] i) ≤ -pointTurn a b c := by
    have hpos := hturn.le
    rw [mem_positions_triangle] at hp
    rw [pointTurn, turn] at hpos ⊢
    interval_cases i
    · rw [hfirst, show vertex [a, c, b] 0 = position a from rfl]
      rcases hp with rfl | rfl | rfl <;>
      · simp only [cross, Prod.fst_sub, Prod.snd_sub] at hpos ⊢
        linarith
    · rw [hsecond, show vertex [a, c, b] 1 = position c from rfl]
      rcases hp with rfl | rfl | rfl <;>
      · simp only [cross, Prod.fst_sub, Prod.snd_sub] at hpos ⊢
        linarith
    · rw [hthird, show vertex [a, c, b] 2 = position b from rfl]
      rcases hp with rfl | rfl | rfl <;>
      · simp only [cross, Prod.fst_sub, Prod.snd_sub] at hpos ⊢
        linarith
  have hsum : cross (edge (vertex [a, c, b]) i) (p - q) =
      cross (edge (vertex [a, c, b]) i) (p - vertex [a, c, b] i) -
        cross (edge (vertex [a, c, b]) i) (q - vertex [a, c, b] i) := by
    simp only [cross, Prod.fst_sub, Prod.snd_sub]
    ring
  linarith

omit [LinearOrder K] [IsStrictOrderedRing K] in
theorem exists_edge_norm (hp : p ∈ positions [a, b, c]) (hq : q ∈ positions [a, b, c]) (hne : p ≠ q) :
    ∃ i < 3, dot (edge (vertex [a, c, b]) i) (edge (vertex [a, c, b]) i) = dot (p - q) (p - q) := by
  rw [mem_positions_triangle] at hp hq
  have hswap (u w : K × K) : dot (u - w) (u - w) = dot (w - u) (w - u) := by
    simp only [dot, Prod.fst_sub, Prod.snd_sub]
    ring
  obtain ⟨hfirst, hsecond, hthird⟩ := @edges_triangle K _ a b c
  rcases hp with rfl | rfl | rfl
  · rcases hq with rfl | rfl | rfl
    · exact absurd rfl hne
    · exact ⟨2, by decide, by rw [hthird]⟩
    · exact ⟨0, by decide, by rw [hfirst, hswap]⟩
  · rcases hq with rfl | rfl | rfl
    · exact ⟨2, by decide, by rw [hthird, hswap]⟩
    · exact absurd rfl hne
    · exact ⟨1, by decide, by rw [hsecond]⟩
  · rcases hq with rfl | rfl | rfl
    · exact ⟨0, by decide, by rw [hfirst]⟩
    · exact ⟨1, by decide, by rw [hsecond, hswap]⟩
    · exact absurd rfl hne

theorem feps_mul_le_turn (hturn : pointTurn a b c < 0) (hspaced : Spaced functions [a, b, c])
    (hp : p ∈ positions [a, b, c]) (hq : q ∈ positions [a, b, c]) (hne : p ≠ q) :
    FEPS * functions.sqrt (dot (p - q) (p - q)) ≤ -pointTurn a b c := by
  obtain ⟨i, hi, hnorm⟩ := exists_edge_norm hp hq hne
  obtain ⟨u, hu, w, hw, hacross⟩ := (hspaced.wide _ _ ((isHull_clockwise hturn).hullEdge i)).across
  rw [← hnorm]
  exact hacross.trans (cross_edge_le hturn hu hw hi)

/-- The length of a vector is its largest product with vectors of length one. -/
theorem dot_le_mul_sqrt (hsqrt : functions.HasSqrt) (u w : K × K) :
    dot u w ≤ functions.sqrt (dot u u) * functions.sqrt (dot w w) := by
  obtain ⟨hu, husquare⟩ := hsqrt _ (dot_self_nonneg u)
  obtain ⟨hw, hwsquare⟩ := hsqrt _ (dot_self_nonneg w)
  have hsum := dot_mul_add_cross_mul u u w
  have hsquares : dot u w * dot u w ≤ functions.sqrt (dot u u) * functions.sqrt (dot w w) *
      (functions.sqrt (dot u u) * functions.sqrt (dot w w)) := by
    rw [mul_mul_mul_comm, husquare, hwsquare, mul_comm (dot u u), ← hsum]
    exact le_add_of_nonneg_right (mul_self_nonneg _)
  exact le_of_not_gt fun hless =>
    absurd (mul_self_lt_mul_self (mul_nonneg hu hw) hless) (not_lt.mpr hsquares)

omit [Field K] [LinearOrder K] [IsStrictOrderedRing K] in
theorem exists_get_of_mem {p : K × K} (hp : p ∈ positions points) :
    ∃ it : Fin points.length, position (points.get it) = p := by
  obtain ⟨q, hq, rfl⟩ := List.mem_map.mp hp
  obtain ⟨it, rfl⟩ := List.get_of_mem hq
  exact ⟨it, rfl⟩

/-- The measure of a box without width. -/
theorem size_flat (hsqrt : functions.HasSqrt) {d : K × K} {v : Fin 4 → K × K}
    {corners : Point4 (Point K)} (hcorners : ∀ k, position (corners k) = cornerOf v d k)
    (hlong : FEPS ≤ dot d d) (hflat : extent v d 0 = 0)
    (hwide : FEPS * functions.sqrt (dot d d) ≤ extent v d 1) :
    position (corners 1) = position (corners 0) ∧ areaMetric (size2d functions corners) =
        FEPS * (extent v d 1 / functions.sqrt (dot d d)) := by
  have hpos : 0 < dot d d := feps_pos.trans_le hlong
  have hne : d ≠ 0 := by
    rintro rfl
    exact hpos.ne' (by simp [dot])
  have hbetween := corners_between (v := v) hne
  have hsame : position (corners 1) = position (corners 0) := by
    rw [hcorners, hcorners, ← hbetween 0, ← hbetween 1]
    change (between v d).corner + (extent v d 0 / dot d d) • normal d = (between v d).corner
    rw [hflat, zero_div, zero_smul, add_zero]
  have hx : (size2d functions corners).x = FEPS := by
    have hzero := (hsqrt 0 le_rfl).2
    rw [mul_self_eq_zero] at hzero
    rw [size2d]
    dsimp only
    rw [norm2d_eq, position_minus2d, hsame, sub_self, show dot (0 : K × K) 0 = 0 by simp [dot], hzero]
    exact max_eq_right feps_pos.le
  have hwidth : position (minus2d (corners 2) (corners 1)) = (extent v d 1 / dot d d) • (-d) := by
    rw [position_minus2d, hcorners, hcorners, ← hbetween 1, ← hbetween 2]
    exact add_sub_cancel_left ..
  have hy : (size2d functions corners).y = extent v d 1 / functions.sqrt (dot d d) := by
    rw [size2d]
    dsimp only
    rw [norm2d_eq, hwidth]
    exact size_eq hsqrt hlong (by simp [dot]) hwide
  exact ⟨hsame, by rw [areaMetric, hx, hy]⟩

section
omit [IsStrictOrderedRing K]

theorem cross_first_le (hturn : pointTurn a b c < 0) {q : K × K} (hq : q ∈ positions [a, b, c]) :
    cross (position b - position a) (q - position a) ≤ 0 := by
  rw [mem_positions_triangle] at hq
  rcases hq with rfl | rfl | rfl
  · rw [sub_self, cross_zero_right]
  · rw [cross_same]
  · exact hturn.le

/-- The first box is measured between the support points along the first edge. -/
theorem best_of_initCalipers {first second : Point K} {rest : List (Point K)}
    {support : Point4 (Fin (first :: second :: rest).length)} {metricFn : Point K → K}
    {hpoints : 1 < (first :: second :: rest).length} {start : Calipers (first :: second :: rest)}
    (hinit : initCalipers functions metricFn _ hpoints = .ok start)
    (hbbox : initBbox _ ⟨0, by omega⟩ (minus2d second first) = .ok support) :
    ∃ corners, computeCorners _ support (initDirections (minus2d second first)) = .ok corners ∧
      start.best = ⟨corners, size2d functions corners, metricFn (size2d functions corners)⟩ := by
  rw [initCalipers] at hinit
  obtain ⟨support', hsupport, hmeasured⟩ := bind_eq_ok.mp hinit
  obtain rfl : support = support' := Except.ok.inj (hbbox.symm.trans hsupport)
  obtain ⟨best, hmeasure, hstart⟩ := bind_eq_ok.mp hmeasured
  cases hstart
  obtain ⟨corners, hcorners, hbest⟩ := bind_eq_ok.mp hmeasure
  cases hbest
  exact ⟨corners, hcorners, rfl⟩

end

/-- The first box lies on the first edge and is not as large as the triangle. -/
theorem initCalipers_flat (hsqrt : functions.HasSqrt) (hturn : pointTurn a b c < 0)
    (hspaced : Spaced functions [a, b, c]) (hpoints : 1 < [a, b, c].length)
    {start : Calipers [a, b, c]}
    (hinit : initCalipers functions areaMetric [a, b, c] hpoints = .ok start) :
    position (start.best.corners 1) = position (start.best.corners 0) ∧ 0 < start.best.value ∧
      start.best.value ≤ -pointTurn a b c := by
  have hfirst : FirstEdge [a, b, c] (position a) (position b) := by
    rw [FirstEdge, if_pos (by simp)]
    exact ⟨a, b, [c], rfl, rfl, rfl⟩
  obtain ⟨d, hd⟩ : ∃ d, d = position b - position a := ⟨_, rfl⟩
  have hu : position (minus2d b a) = d := hd.symm
  have hlong : FEPS ≤ dot d d := by
    have hle := hspaced.long _ _ _ _ hfirst ((isHull_clockwise hturn).hullEdge 2)
    rw [← edge, edges_triangle.2.2, ← neg_sub, ← hd] at hle
    have hneg : dot (-d) (-d) = dot d d := by
      simp [dot]
    rwa [hneg, (hsqrt _ (dot_self_nonneg _)).2] at hle
  have hpos : 0 < dot d d := feps_pos.trans_le hlong
  -- The support points.
  obtain ⟨p, hp, hahead⟩ := hspaced.ahead _ _ hfirst
  obtain ⟨itAhead, rfl⟩ := exists_get_of_mem hp
  obtain ⟨p, hp, hleft⟩ := hspaced.left _ _ hfirst
  obtain ⟨itLeft, rfl⟩ := exists_get_of_mem hp
  obtain ⟨p, hp, hbehind⟩ := hspaced.behind _ _ hfirst
  obtain ⟨itBehind, rfl⟩ := exists_get_of_mem hp
  obtain ⟨ahead, left, behind, hbbox, hahead, hleft, hbehind⟩ :=
    initBbox_eq [a, b, c] ⟨0, by omega⟩ (u := minus2d b a)
      ⟨itAhead, hahead⟩ ⟨itLeft, hleft⟩ ⟨itBehind, hbehind⟩
  simp only [dot2d_eq, cross2d_eq, hu] at hahead hleft hbehind
  -- The box between them.
  obtain ⟨corners, hcorners, hbest⟩ := best_of_initCalipers hinit hbbox
  have hdirections (k : Fin 4) : position (initDirections (minus2d b a) k) = side k d := by
    rw [position_initDirections, hu]
  let support : Point4 (Fin [a, b, c].length) := ![⟨0, by omega⟩, ahead, left, behind]
  obtain ⟨corners', hcorners', hpositions⟩ := computeCorners_eq support hlong hdirections
  obtain rfl : corners' = corners := Except.ok.inj (hcorners'.symm.trans hcorners)
  rw [hbest]
  generalize hv : heldPoints [a, b, c] support = v at hpositions
  have hv₀ : v 0 = position a := by
    rw [← hv]
    rfl
  have hv₁ : v 1 = position ([a, b, c].get ahead) := by
    rw [← hv]
    rfl
  have hv₂ : v 2 = position ([a, b, c].get left) := by
    rw [← hv]
    rfl
  have hv₃ : v 3 = position ([a, b, c].get behind) := by
    rw [← hv]
    rfl
  have hflat : extent v d 0 = 0 := by
    have hle := hleft ⟨0, by simp⟩
    have hright : cross d (position ([a, b, c].get left) - position a) ≤ 0 := by
      rw [hd]
      exact cross_first_le hturn (List.mem_map_of_mem (List.get_mem ..))
    rw [extent, side_zero, zero_add, hv₀, hv₂]
    refine le_antisymm hright ?_
    rw [cross_sub_right, sub_nonneg]
    exact hle
  have hextent : extent v d 1 = dot d (v 1 - v 3) := by
    rw [extent, side_one, cross_normal, ← dot_neg_right, neg_sub]
    rfl
  have hfar : dot d d ≤ extent v d 1 := by
    have hle₁ := hahead ⟨1, hpoints⟩
    have hle₃ := hbehind ⟨0, by simp⟩
    rw [hextent, hv₁, hv₃, dot_sub_right]
    have hself : dot d d = dot d (position b) - dot d (position a) := by
      rw [← dot_sub_right, ← hd]
    rw [hself]
    exact sub_le_sub hle₁ hle₃
  obtain ⟨hroot, hsquare⟩ := hsqrt _ hpos.le
  have hroot' := hsqrt.pos hpos
  have hwide : FEPS * functions.sqrt (dot d d) ≤ extent v d 1 :=
    ((mul_le_mul_of_nonneg_right (hsqrt.feps_le hlong) hroot).trans_eq hsquare).trans hfar
  obtain ⟨hsame, hvalue⟩ := size_flat hsqrt hpositions hlong hflat hwide
  refine ⟨hsame, ?_, ?_⟩
  · change 0 < areaMetric (size2d functions corners')
    rw [hvalue]
    exact mul_pos feps_pos (div_pos (hpos.trans_le hfar) hroot')
  · change areaMetric (size2d functions corners') ≤ _
    have hne : v 1 ≠ v 3 := by
      intro heq
      rw [hextent, heq, sub_self] at hfar
      exact absurd hpos (not_lt.mpr (hfar.trans_eq (by simp [dot])))
    rw [hvalue]
    calc FEPS * (extent v d 1 / functions.sqrt (dot d d))
        ≤ FEPS * functions.sqrt (dot (v 1 - v 3) (v 1 - v 3)) := by
          refine mul_le_mul_of_nonneg_left ?_ feps_pos.le
          rw [div_le_iff₀ hroot', hextent, mul_comm]
          exact dot_le_mul_sqrt hsqrt d (v 1 - v 3)
      _ ≤ -pointTurn a b c := by
          rw [hv₁, hv₃] at hne ⊢
          exact feps_mul_le_turn hturn hspaced (List.mem_map_of_mem (List.get_mem ..))
            (List.mem_map_of_mem (List.get_mem ..)) hne

theorem not_returnsSmallest (hsqrt : functions.HasSqrt) (hturn : pointTurn a b c < 0)
    (hspaced : Spaced functions [a, b, c]) : ¬ ReturnsSmallest functions [a, b, c] := by
  rintro ⟨hulled, box, hreturned, R, hcorners, hvalue, hencloses, -⟩
  obtain ⟨box', hbox, hresult⟩ := bind_eq_ok.mp hreturned
  cases hresult
  have hpoints : 1 < [a, b, c].length := by simp
  have hbox' : rotatingCalipersImpl functions areaMetric [a, b, c] = .ok box := hbox
  rw [rotatingCalipersImpl, dif_pos hpoints] at hbox'
  obtain ⟨start, hinit, hrest⟩ := bind_eq_ok.mp hbox'
  obtain ⟨last, hlast, hfinal⟩ := bind_eq_ok.mp hrest
  cases hfinal
  obtain ⟨hsame, hpositive, hle⟩ := initCalipers_flat hsqrt hturn hspaced hpoints hinit
  have harea : -pointTurn a b c ≤ R.area := by
    rw [pointTurn, ← turn_swap]
    exact Rectangle.turn_le_area (hencloses (mem_positions_triangle.mpr (.inl rfl)))
      (hencloses (mem_positions_triangle.mpr (.inr (.inr rfl))))
      (hencloses (mem_positions_triangle.mpr (.inr (.inl rfl))))
  have hvalue' : last.best.value = R.area := hvalue
  rcases advanceAll_keeps hlast with hkept | hless
  · -- The first box has no width.
    have hlength : R.length = 0 := by
      have hfirst : position (last.best.corners 0) = R.corner := hcorners 0
      have hsecond : position (last.best.corners 1) = R.corner + R.length := hcorners 1
      rw [hkept] at hfirst hsecond
      rw [hsame, hfirst] at hsecond
      exact left_eq_add.mp hsecond
    rw [hkept, Rectangle.area, hlength, cross_zero_left, abs_zero] at hvalue'
    exact hpositive.ne' hvalue'
  · rw [hvalue'] at hless
    exact absurd (hless.trans_le hle) (not_lt.mpr harea)

end

/-- The functions of the standard library in exact arithmetic. -/
noncomputable def realFunctions : MathFunctions ℝ where
  sqrt := Real.sqrt
  atan2 := fun y x => Complex.arg ⟨x, y⟩
  cos := Real.cos
  sin := Real.sin

theorem hasSqrt_realFunctions : realFunctions.HasSqrt := fun value hvalue =>
  ⟨Real.sqrt_nonneg value, Real.mul_self_sqrt hvalue⟩

theorem not_turning_of_line {a b c : Point ℝ} (hline : pointTurn a b c = 0) :
    ¬ ∃ p ∈ [a, b, c], ∃ q ∈ [a, b, c], ∃ r ∈ [a, b, c], pointTurn p q r ≠ 0 := by
  rintro ⟨p, hp, q, hq, r, hr, hne⟩
  refine hne ?_
  simp only [List.mem_cons, List.not_mem_nil, or_false] at hp hq hr
  rcases hp with rfl | rfl | rfl <;> rcases hq with rfl | rfl | rfl <;>
    rcases hr with rfl | rfl | rfl <;>
    simp only [pointTurn, turn, cross, Prod.fst_sub, Prod.snd_sub] at hline ⊢ <;> linarith

/-- The corners of a triangle with sides of three, four and five. -/
def triangle : Set (ℝ × ℝ) :=
  {q | q = (0, 0) ∨ q = (4, 0) ∨ q = (0, 3)}

theorem triangle_distance {p q : ℝ × ℝ} (hp : p ∈ triangle) (hq : q ∈ triangle) (hne : p ≠ q) :
    1 ≤ realFunctions.sqrt (dot (q - p) (q - p)) ∧
      realFunctions.sqrt (dot (q - p) (q - p)) ≤ 5 := by
  have hdot : 1 ≤ dot (q - p) (q - p) ∧ dot (q - p) (q - p) ≤ 25 := by
    rcases hp with rfl | rfl | rfl <;> rcases hq with rfl | rfl | rfl <;> first
        | exact absurd rfl hne
        | norm_num [dot]
  refine ⟨Real.one_le_sqrt.mpr hdot.1, ?_⟩
  exact (Real.sqrt_le_sqrt hdot.2).trans_eq (by rw [show (25 : ℝ) = 5 ^ 2 by norm_num]; simp)

theorem triangle_across {p q : ℝ × ℝ} (hp : p ∈ triangle) (hq : q ∈ triangle) (hne : p ≠ q) :
    ∃ u ∈ triangle, ∃ w ∈ triangle, 12 ≤ cross (q - p) (u - w) := by
  have hzero : ((0, 0) : ℝ × ℝ) ∈ triangle := .inl rfl
  have hright : ((4, 0) : ℝ × ℝ) ∈ triangle := .inr (.inl rfl)
  have habove : ((0, 3) : ℝ × ℝ) ∈ triangle := .inr (.inr rfl)
  rcases hp with rfl | rfl | rfl
  · rcases hq with rfl | rfl | rfl
    · exact absurd rfl hne
    · exact ⟨_, habove, _, hzero, by norm_num [cross]⟩
    · exact ⟨_, hzero, _, hright, by norm_num [cross]⟩
  · rcases hq with rfl | rfl | rfl
    · exact ⟨_, hzero, _, habove, by norm_num [cross]⟩
    · exact absurd rfl hne
    · exact ⟨_, hzero, _, hright, by norm_num [cross]⟩
  · rcases hq with rfl | rfl | rfl
    · exact ⟨_, hright, _, hzero, by norm_num [cross]⟩
    · exact ⟨_, hright, _, hzero, by norm_num [cross]⟩
    · exact absurd rfl hne

theorem spaced_triangle {a b c : Point ℝ} (hpositions : positions [a, b, c] = triangle)
    (hne : position a ≠ position b) : Spaced realFunctions [a, b, c] := by
  have hedge {p q : ℝ × ℝ} (hedge : HullEdge (positions [a, b, c]) p q) :
      p ∈ triangle ∧ q ∈ triangle ∧ p ≠ q := by
    rw [← hpositions]
    exact ⟨extremePoints_convexHull_subset hedge.first,
      extremePoints_convexHull_subset hedge.second, hedge.ne⟩
  have hfirst {f g : ℝ × ℝ} (hfirst : FirstEdge [a, b, c] f g) :
      f ∈ triangle ∧ g ∈ triangle ∧ f ≠ g := by
    rw [FirstEdge, if_pos (by simp)] at hfirst
    obtain ⟨x, y, rest, hlist, rfl, rfl⟩ := hfirst
    rw [List.cons.injEq, List.cons.injEq] at hlist
    obtain ⟨rfl, rfl, _⟩ := hlist
    rw [← hpositions]
    exact ⟨List.mem_map_of_mem (by simp), List.mem_map_of_mem (by simp), hne⟩
  have hzero : ((0, 0) : ℝ × ℝ) ∈ positions [a, b, c] := hpositions ▸ .inl rfl
  have hfeps : (FEPS : ℝ) * 5 ≤ 1 := by
    norm_num [FEPS]
  have hmax : (0 : ℝ) < floatMax := one_pos.trans one_lt_floatMax
  refine ⟨fun hmore => absurd hmore (by simp), fun p q hpq => ?_, fun f g p q hfg hpq => ?_,
    fun f g _ => ⟨_, hzero, ?_⟩, fun f g _ => ⟨_, hzero, ?_⟩, fun f g _ => ⟨_, hzero, ?_⟩⟩
  · obtain ⟨hp, hq, hne⟩ := hedge hpq
    obtain ⟨hone, hfive⟩ := triangle_distance hp hq hne
    have hle := (mul_le_mul_of_nonneg_left hfive feps_pos.le).trans hfeps
    obtain ⟨u, hu, w, hw, hacross⟩ := triangle_across hp hq hne
    refine ⟨⟨u, hpositions ▸ hu, w, hpositions ▸ hw, ?_⟩,
      q, hpositions ▸ hq, p, hpositions ▸ hp, ?_⟩
    · linarith
    · have hsquare := (hasSqrt_realFunctions _ (dot_self_nonneg (q - p))).2
      have hone' := mul_le_mul hone hone zero_le_one (zero_le_one.trans hone)
      rw [hsquare, mul_one] at hone'
      exact hle.trans hone'
  · obtain ⟨hf, hg, hne⟩ := hfirst hfg
    obtain ⟨hp, hq, hne'⟩ := hedge hpq
    have hone := mul_le_mul (triangle_distance hp hq hne').1 (triangle_distance hf hg hne).1
      zero_le_one (zero_le_one.trans (triangle_distance hp hq hne').1)
    rw [mul_one] at hone
    exact feps_le_one.trans hone
  · simpa [dot] using hmax
  · simpa [cross] using hmax
  · simpa [dot] using hmax

/-- More than three points have the same box in every order. -/
theorem minimumAreaBoundingBox_perm {list other : List (Point K)} (hlength : 3 < list.length)
    (hapart : AbscissasApart list) (hperm : list.Perm other) :
    minimumAreaBoundingBox functions list = minimumAreaBoundingBox functions other := by
  have hmany : ¬other.length ≤ 3 := hperm.length_eq ▸ hlength.not_ge
  rw [minimumAreaBoundingBox, minimumAreaBoundingBox, ConvexHull.convexHull, ConvexHull.convexHull,
    if_neg hlength.not_ge, if_neg hmany, ConvexHull.convexHullImpl, ConvexHull.convexHullImpl,
    sort_perm hapart hperm]

theorem minimumAreaBoundingBox_reverse :
    let list : List (Point ℝ) := [⟨0, 0⟩, ⟨4, 0⟩, ⟨4, 3⟩, ⟨0, 3⟩]
    minimumAreaBoundingBox realFunctions list = minimumAreaBoundingBox realFunctions list.reverse :=
  minimumAreaBoundingBox_perm (by simp) (by norm_num [AbscissasApart, ConvexHull.FEPS])
    (List.reverse_perm _).symm

end AutowareUniverse.Common.RotatingCalipers
