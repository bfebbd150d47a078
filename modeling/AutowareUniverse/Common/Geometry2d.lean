import AutowareUniverse.Library.ScanLine
import AutowareUniverse.Library.Numerals
import Mathlib.Algebra.Order.Field.Basic
import Mathlib.Tactic.FieldSimp
import Mathlib.Tactic.Linarith
import Mathlib.Tactic.LinearCombination
import Mathlib.Tactic.Ring

/-!
# Geometry in the plane

Points, cross products and comparisons up to a tolerance, and the winding number with which a
point is searched for in a polygon.
-/

namespace AutowareUniverse.Common.Geometry

open Library.CyclicEdges

section

structure Point (K : Type) where
  x : K
  y : K
  deriving DecidableEq

variable {K : Type} [Field K] [LinearOrder K]

def minus2d (p q : Point K) : Point K :=
  ⟨p.x - q.x, p.y - q.y⟩

def cross2d (pt q : Point K) : K :=
  pt.x * q.y - pt.y * q.x

def checkPointPositionToLine2d (p1 p2 q : Point K) : K :=
  cross2d (minus2d p2 p1) (minus2d q p1)

def absEq (a b eps : K) : Bool :=
  |a - b| ≤ eps

def absLt (a b eps : K) : Bool :=
  !absEq a b eps && decide (a < b)

def absLte (a b eps : K) : Bool :=
  absEq a b eps || decide (a < b)

def absGt (a b eps : K) : Bool :=
  !absLte a b eps

def absEqZero (a eps : K) : Bool :=
  absEq a 0 eps

def crossTolerance : K := 1 / 1000

/-- The loop over the edges with the winding number so far. -/
def windingLoop (p : Point K) : List (Point K × Point K) → ℤ → Bool
  | [], windingNum => windingNum ≠ 0
  | (it, nextIt) :: edges, windingNum =>
    let position := checkPointPositionToLine2d it nextIt p
    if it.y ≤ p.y then
      -- an edge that crosses upwards
      if p.y ≤ nextIt.y then
        if absGt position 0 crossTolerance then windingLoop p edges (windingNum + 1)
        else if absEqZero position crossTolerance then true
        else windingLoop p edges windingNum
      else windingLoop p edges windingNum
    else
      -- an edge that crosses downwards
      if nextIt.y ≤ p.y then
        if absLt position 0 crossTolerance then windingLoop p edges (windingNum - 1)
        else if absEqZero position crossTolerance then true
        else windingLoop p edges windingNum
      else windingLoop p edges windingNum

def isPointInsidePolygon2d (polygon : List (Point K)) (p : Point K) : Bool :=
  windingLoop p (cyclicEdges polygon) 0

end

/-! ## Points in convex polygons -/

variable {K : Type} [Field K] [LinearOrder K] (p : Point K)

def rises (edge : Point K × Point K) : Bool :=
  decide (edge.1.y ≤ p.y) && decide (p.y ≤ edge.2.y)

def falls (edge : Point K × Point K) : Bool :=
  !decide (edge.1.y ≤ p.y) && decide (edge.2.y ≤ p.y)

def positionTo (edge : Point K × Point K) (p : Point K) : K :=
  checkPointPositionToLine2d edge.1 edge.2 p

def passesNear (edge : Point K × Point K) : Bool :=
  (rises p edge || falls p edge) && decide (|positionTo edge p| ≤ crossTolerance)

def countsUp (edge : Point K × Point K) : Bool :=
  rises p edge && decide (crossTolerance < positionTo edge p)

def countsDown (edge : Point K × Point K) : Bool :=
  falls p edge && decide (positionTo edge p < -crossTolerance)

/-- A polygon with its vertices left of or on each edge, and not all on one line. -/
structure ConvexPolygon (polygon : List (Point K)) : Prop where
  three : 3 ≤ polygon.length
  left : ∀ edge ∈ cyclicEdges polygon, ∀ vertex ∈ polygon, 0 ≤ positionTo edge vertex
  wide : ∃ edge ∈ cyclicEdges polygon, ∃ vertex ∈ polygon, 0 < positionTo edge vertex

structure DecidesInside (polygon : List (Point K)) (p : Point K) : Prop where
  inside : (∀ edge ∈ cyclicEdges polygon, 0 ≤ positionTo edge p) →
    isPointInsidePolygon2d polygon p = true
  outside : (∃ edge ∈ cyclicEdges polygon, positionTo edge p < -crossTolerance) →
    isPointInsidePolygon2d polygon p = false

/-- No edge that crosses the height of the point passes near it, and no edge ends at the height
with the point left of it. -/
structure CrossedClearly (polygon : List (Point K)) (p : Point K) : Prop where
  clear : ∀ edge ∈ cyclicEdges polygon, passesNear p edge = false
  level : ∀ edge ∈ cyclicEdges polygon, edge.1.y ≤ p.y → edge.2.y = p.y →
    positionTo edge p ≤ crossTolerance

variable [IsStrictOrderedRing K]

theorem crossTolerance_pos : 0 < (crossTolerance : K) := by
  unfold crossTolerance
  norm_num

theorem absGt_eq (value : K) :
    absGt value 0 crossTolerance = decide (crossTolerance < value) := by
  have hpos := crossTolerance_pos (K := K)
  rw [absGt, absLte, absEq, sub_zero, ← Bool.decide_or, ← decide_not, decide_eq_decide, not_or,
    not_le, not_lt]
  constructor
  · rintro ⟨hfar, hnonneg⟩
    rwa [abs_of_nonneg hnonneg] at hfar
  · intro hlt
    have hnonneg := (hpos.trans hlt).le
    exact ⟨by rwa [abs_of_nonneg hnonneg], hnonneg⟩

theorem absLt_eq (value : K) :
    absLt value 0 crossTolerance = decide (value < -crossTolerance) := by
  have hpos := crossTolerance_pos (K := K)
  rw [absLt, absEq, sub_zero, ← decide_not, ← Bool.decide_and, decide_eq_decide, not_le]
  constructor
  · rintro ⟨hfar, hneg⟩
    rw [abs_of_neg hneg] at hfar
    linarith
  · intro hlt
    have hneg : value < 0 := by linarith
    exact ⟨by rw [abs_of_neg hneg]; linarith, hneg⟩

omit [IsStrictOrderedRing K] in
theorem absEqZero_eq (value : K) :
    absEqZero value crossTolerance = decide (|value| ≤ crossTolerance) := by
  rw [absEqZero, absEq, sub_zero]

theorem windingLoop_eq (p : Point K) (edges : List (Point K × Point K)) (windingNum : ℤ) :
    windingLoop p edges windingNum = (edges.any (passesNear p) ||
        decide (windingNum + edges.countP (countsUp p) - edges.countP (countsDown p) ≠ 0)) := by
  induction edges generalizing windingNum with
  | nil => simp [windingLoop]
  | cons edge edges ih =>
    obtain ⟨it, nextIt⟩ := edge
    have hpos := crossTolerance_pos (K := K)
    unfold windingLoop
    dsimp only
    rw [absGt_eq, absLt_eq, absEqZero_eq, List.any_cons, List.countP_cons, List.countP_cons]
    simp only [passesNear, countsUp, countsDown, rises, falls, positionTo, decide_eq_true_eq]
    obtain ⟨position, hposition⟩ : ∃ position, checkPointPositionToLine2d it nextIt p = position :=
      ⟨_, rfl⟩
    simp only [hposition]
    have hup (hlt : crossTolerance < position) : ¬ |position| ≤ crossTolerance := fun hnear =>
      absurd ((le_abs_self position).trans hnear) (not_le.mpr hlt)
    have hdown (hlt : position < -crossTolerance) : ¬ |position| ≤ crossTolerance := fun hnear =>
      absurd (neg_le_of_abs_le hnear) (not_le.mpr hlt)
    by_cases hlow : it.y ≤ p.y
    · by_cases hhigh : p.y ≤ nextIt.y
      · by_cases hlt : crossTolerance < position
        · have hnum : windingNum + 1 + (edges.countP (countsUp p) : ℤ) =
              windingNum + (edges.countP (countsUp p) + 1) := by
            ring
          simp [hlow, hhigh, hlt, hup hlt, ih, hnum]
        · by_cases hnear : |position| ≤ crossTolerance
          · simp [hlow, hhigh, hlt, hnear]
          · simp [hlow, hhigh, hlt, hnear, ih]
      · simp [hlow, hhigh, ih]
    · by_cases hhigh : nextIt.y ≤ p.y
      · by_cases hlt : position < -crossTolerance
        · have hnum : windingNum - 1 + (edges.countP (countsUp p) : ℤ) -
              edges.countP (countsDown p) =
              windingNum + edges.countP (countsUp p) - (edges.countP (countsDown p) + 1) := by
            ring
          simp [hlow, hhigh, hlt, hdown hlt, ih, hnum]
        · by_cases hnear : |position| ≤ crossTolerance
          · simp [hlow, hhigh, hlt, hnear]
          · simp [hlow, hhigh, hlt, hnear, ih]
      · simp [hlow, hhigh, ih]

variable {polygon : List (Point K)} {p : Point K}

omit [LinearOrder K] [IsStrictOrderedRing K] in
theorem positionTo_eq (edge : Point K × Point K) (p : Point K) :
    positionTo edge p = (edge.1.x - p.x) * (edge.2.y - p.y) - (edge.1.y - p.y) * (edge.2.x - p.x) := by
  unfold positionTo checkPointPositionToLine2d cross2d minus2d
  ring

/-- A point that is not right of any edge is not above or below all vertices. -/
theorem ConvexPolygon.exists_rises (hconvex : ConvexPolygon polygon)
    (hinside : ∀ edge ∈ cyclicEdges polygon, 0 ≤ positionTo edge p) :
    ∃ edge ∈ cyclicEdges polygon, rises p edge = true := by
  by_contra hnone
  have hlow : ∀ edge ∈ cyclicEdges polygon, edge.1.y ≤ p.y → edge.2.y < p.y := by
    intro edge hmem hle
    by_contra hge
    refine hnone ⟨edge, hmem, ?_⟩
    rw [rises, Bool.and_eq_true, decide_eq_true_eq, decide_eq_true_eq]
    exact ⟨hle, not_lt.mp hge⟩
  -- All vertices are below the point, or all are above it.
  have hside : ∀ edge ∈ cyclicEdges polygon, 0 < (edge.1.y - p.y) * (edge.2.y - p.y) := by
    intro edge hmem
    by_cases hbelow : ∃ vertex ∈ polygon, vertex.y ≤ p.y
    · obtain ⟨start, hstart, hle⟩ := hbelow
      have hall : ∀ vertex ∈ polygon, vertex.y ≤ p.y :=
        forall_of_edges (fun edge hedge hle => (hlow edge hedge hle).le) hstart hle
      have hfirst := fst_mem_of_mem_cyclicEdges hmem
      obtain ⟨before, hbefore⟩ := exists_edge_to hfirst
      have hlt := hlow _ hbefore (hall _ (fst_mem_of_mem_cyclicEdges hbefore))
      exact mul_pos_of_neg_of_neg (sub_neg.mpr hlt) (sub_neg.mpr (hlow edge hmem (hall _ hfirst)))
    · have habove (vertex : Point K) (hvertex : vertex ∈ polygon) : p.y < vertex.y :=
        not_le.mp fun hle => hbelow ⟨vertex, hvertex, hle⟩
      exact mul_pos (sub_pos.mpr (habove _ (fst_mem_of_mem_cyclicEdges hmem)))
        (sub_pos.mpr (habove _ (snd_mem_of_mem_cyclicEdges hmem)))
  -- Seen from the point the vertices turn one way only, so they are all in one direction.
  have hdirection : ∀ edge ∈ cyclicEdges polygon,
      (edge.2.x - p.x) / (edge.2.y - p.y) ≤ (edge.1.x - p.x) / (edge.1.y - p.y) := by
    intro edge hmem
    have hpos := hside edge hmem
    have hfirst : edge.1.y - p.y ≠ 0 := left_ne_zero_of_mul hpos.ne'
    have hsecond : edge.2.y - p.y ≠ 0 := right_ne_zero_of_mul hpos.ne'
    have hdiff : (edge.1.x - p.x) / (edge.1.y - p.y) - (edge.2.x - p.x) / (edge.2.y - p.y) =
        positionTo edge p / ((edge.1.y - p.y) * (edge.2.y - p.y)) := by
      rw [positionTo_eq, div_sub_div _ _ hfirst hsecond]
    exact sub_nonneg.mp (hdiff ▸ div_nonneg (hinside edge hmem) hpos.le)
  obtain ⟨edge, hedge, vertex, hvertex, hleft⟩ := hconvex.wide
  obtain ⟨ratio, hratio⟩ : ∃ ratio, ∀ other ∈ polygon, other.x - p.x = ratio * (other.y - p.y) := by
    refine ⟨(vertex.x - p.x) / (vertex.y - p.y), fun other hother => ?_⟩
    obtain ⟨before, hbefore⟩ := exists_edge_to hother
    have hne : other.y - p.y ≠ 0 := right_ne_zero_of_mul (hside _ hbefore).ne'
    have hsame := @eq_of_edges_le _ polygon K _ (fun v => (v.x - p.x) / (v.y - p.y)) hdirection
      vertex other hvertex hother
    rw [hsame, div_mul_cancel₀ _ hne]
  have hfirst := hratio _ (fst_mem_of_mem_cyclicEdges hedge)
  have hsecond := hratio _ (snd_mem_of_mem_cyclicEdges hedge)
  have hthird := hratio vertex hvertex
  refine hleft.ne' ?_
  rw [positionTo_eq]
  linear_combination (edge.2.y - vertex.y) * hfirst - (edge.1.y - vertex.y) * hsecond +
    (edge.1.y - edge.2.y) * hthird

theorem ConvexPolygon.finds_inside (hconvex : ConvexPolygon polygon)
    (hinside : ∀ edge ∈ cyclicEdges polygon, 0 ≤ positionTo edge p) :
    isPointInsidePolygon2d polygon p = true := by
  rw [isPointInsidePolygon2d, windingLoop_eq, Bool.or_eq_true]
  by_cases hnear : (cyclicEdges polygon).any (passesNear p) = true
  · exact .inl hnear
  refine .inr (decide_eq_true ?_)
  obtain ⟨edge, hedge, hrises⟩ := hconvex.exists_rises hinside
  have hfar : ¬ passesNear p edge = true := fun hpasses =>
    hnear (List.any_eq_true.mpr ⟨edge, hedge, hpasses⟩)
  rw [passesNear, hrises, Bool.true_or, Bool.true_and, decide_eq_true_eq,
    abs_of_nonneg (hinside edge hedge), not_le] at hfar
  have hup : 0 < (cyclicEdges polygon).countP (countsUp p) := by
    refine List.countP_pos_iff.mpr ⟨edge, hedge, ?_⟩
    rw [countsUp, hrises, Bool.true_and, decide_eq_true hfar]
  have hdown : (cyclicEdges polygon).countP (countsDown p) = 0 := by
    refine List.countP_eq_zero.mpr fun other hother hcounts => ?_
    rw [countsDown, Bool.and_eq_true, decide_eq_true_eq] at hcounts
    have hpos := crossTolerance_pos (K := K)
    exact absurd (hinside other hother) (not_le.mpr (by linarith [hcounts.2]))
  rw [hdown]
  omega

/-! ## Points outside -/

def crossesUp (p : Point K) (edge : Point K × Point K) : Bool :=
  !decide (p.y < edge.1.y) && decide (p.y < edge.2.y)

def endsLevel (p : Point K) (edge : Point K × Point K) : Bool :=
  decide (edge.1.y ≤ p.y) && decide (edge.2.y = p.y)

section
omit [Field K] [IsStrictOrderedRing K]

theorem crossesUp_iff {edge : Point K × Point K} :
    crossesUp p edge = true ↔ edge.1.y ≤ p.y ∧ p.y < edge.2.y := by
  simp [crossesUp]

theorem falls_iff {edge : Point K × Point K} :
    falls p edge = true ↔ p.y < edge.1.y ∧ edge.2.y ≤ p.y := by
  simp [falls]

theorem falls_eq (p : Point K) (edge : Point K × Point K) :
    falls p edge = (decide (p.y < edge.1.y) && !decide (p.y < edge.2.y)) := by
  simp only [falls, ← decide_not, not_le, not_lt]

theorem countP_falls (polygon : List (Point K)) (p : Point K) :
    (cyclicEdges polygon).countP (falls p) = (cyclicEdges polygon).countP (crossesUp p) := by
  rw [funext (falls_eq p)]
  exact (countP_into_eq_countP_out polygon fun vertex => decide (p.y < vertex.y)).symm

end

theorem ConvexPolygon.exists_crossing (hconvex : ConvexPolygon polygon) {edge : Point K × Point K}
    (hedge : edge ∈ cyclicEdges polygon) (hcrosses : crossesUp p edge = true ∨ falls p edge = true) :
    ∃ crossing : K, (∀ other ∈ cyclicEdges polygon, 0 ≤ positionTo other ⟨crossing, p.y⟩) ∧
      ∀ x, positionTo edge ⟨x, p.y⟩ = (edge.2.y - edge.1.y) * (crossing - x) := by
  obtain ⟨first, second⟩ := edge
  obtain ⟨ratio, hratio, hbounds⟩ : ∃ ratio, ratio * (second.y - first.y) = p.y - first.y ∧
      0 ≤ ratio ∧ ratio ≤ 1 := by
    refine ⟨(p.y - first.y) / (second.y - first.y), ?_⟩
    rcases hcrosses with hup | hdown
    · obtain ⟨hlow, hhigh⟩ := crossesUp_iff.mp hup
      have hpos : 0 < second.y - first.y := sub_pos.mpr (hlow.trans_lt hhigh)
      exact ⟨div_mul_cancel₀ _ hpos.ne', div_nonneg (sub_nonneg.mpr hlow) hpos.le,
        (div_le_one hpos).mpr (sub_le_sub_right hhigh.le _)⟩
    · obtain ⟨hhigh, hlow⟩ := falls_iff.mp hdown
      have hneg : second.y - first.y < 0 := sub_neg.mpr (hlow.trans_lt hhigh)
      exact ⟨div_mul_cancel₀ _ hneg.ne, div_nonneg_of_nonpos (sub_nonpos.mpr hhigh.le) hneg.le,
        (div_le_one_of_neg hneg).mpr (sub_le_sub_right hlow _)⟩
  refine ⟨first.x + ratio * (second.x - first.x), fun other hother => ?_, fun x => ?_⟩
  · have hfirst := hconvex.left other hother first (fst_mem_of_mem_cyclicEdges hedge)
    have hsecond := hconvex.left other hother second (snd_mem_of_mem_cyclicEdges hedge)
    have hmix : positionTo other ⟨first.x + ratio * (second.x - first.x), p.y⟩ =
        (1 - ratio) * positionTo other first + ratio * positionTo other second := by
      rw [positionTo_eq, positionTo_eq, positionTo_eq]
      dsimp only
      linear_combination (other.1.x - other.2.x) * hratio
    rw [hmix]
    exact add_nonneg (mul_nonneg (sub_nonneg.mpr hbounds.2) hfirst) (mul_nonneg hbounds.1 hsecond)
  · rw [positionTo_eq]
    dsimp only
    linear_combination (first.x - second.x) * hratio

theorem ConvexPolygon.exists_span (hconvex : ConvexPolygon polygon) (p : Point K) :
    ∃ left right : K, left ≤ right ∧ (∀ edge ∈ cyclicEdges polygon, crossesUp p edge = true →
        (0 < positionTo edge p ↔ p.x < right)) ∧
      (∀ edge ∈ cyclicEdges polygon, falls p edge = true → (positionTo edge p < 0 ↔ p.x < left)) ∧
      (left ≤ p.x → p.x < right → ∀ edge ∈ cyclicEdges polygon, 0 ≤ positionTo edge p) := by
  by_cases hany : ∃ edge ∈ cyclicEdges polygon, crossesUp p edge = true
  · obtain ⟨up, hup, hrises⟩ := hany
    obtain ⟨down, hdown, hfalls⟩ : ∃ edge ∈ cyclicEdges polygon, falls p edge = true := by
      rw [← List.countP_pos_iff, countP_falls]
      exact List.countP_pos_iff.mpr ⟨up, hup, hrises⟩
    obtain ⟨right, hright, hpositionUp⟩ := hconvex.exists_crossing hup (.inl hrises)
    obtain ⟨left, hleft, hpositionDown⟩ := hconvex.exists_crossing hdown (.inr hfalls)
    have hupward {edge : Point K × Point K} (hcrosses : crossesUp p edge = true) :
        0 < edge.2.y - edge.1.y := by
      obtain ⟨hlow, hhigh⟩ := crossesUp_iff.mp hcrosses
      exact sub_pos.mpr (hlow.trans_lt hhigh)
    have hdownward {edge : Point K × Point K} (hcrosses : falls p edge = true) :
        edge.2.y - edge.1.y < 0 := by
      obtain ⟨hhigh, hlow⟩ := falls_iff.mp hcrosses
      exact sub_neg.mpr (hlow.trans_lt hhigh)
    have horder : left ≤ right := by
      have hside := hleft up hup
      rw [hpositionUp] at hside
      exact sub_nonneg.mp (nonneg_of_mul_nonneg_right hside (hupward hrises))
    refine ⟨left, right, horder, fun edge hedge hcrosses => ?_, fun edge hedge hcrosses => ?_,
      fun hlow hhigh edge hedge => ?_⟩
    · -- Both crossings are in the polygon, so none is left of the other.
      obtain ⟨crossing, hinside, hposition⟩ := hconvex.exists_crossing hedge (.inl hcrosses)
      have hsame : crossing = right := by
        have hfirst := hright edge hedge
        have hsecond := hinside up hup
        rw [hposition] at hfirst
        rw [hpositionUp] at hsecond
        exact le_antisymm (sub_nonneg.mp (nonneg_of_mul_nonneg_right hsecond (hupward hrises)))
          (sub_nonneg.mp (nonneg_of_mul_nonneg_right hfirst (hupward hcrosses)))
      rw [show p = ⟨p.x, p.y⟩ from rfl, hposition, hsame,
        mul_pos_iff_of_pos_left (hupward hcrosses), sub_pos]
    · obtain ⟨crossing, hinside, hposition⟩ := hconvex.exists_crossing hedge (.inr hcrosses)
      have hsame : crossing = left := by
        have hfirst := hleft edge hedge
        have hsecond := hinside down hdown
        rw [hposition] at hfirst
        rw [hpositionDown] at hsecond
        exact le_antisymm (sub_nonpos.mp (nonpos_of_mul_nonneg_right hfirst (hdownward hcrosses)))
          (sub_nonpos.mp (nonpos_of_mul_nonneg_right hsecond (hdownward hfalls)))
      rw [show p = ⟨p.x, p.y⟩ from rfl, hposition, hsame,
        ← neg_pos, ← neg_mul, mul_pos_iff_of_pos_left (neg_pos.mpr (hdownward hcrosses)), sub_pos]
    · -- The point is between two points of the polygon.
      have hwidth : 0 < right - left := sub_pos.mpr (hlow.trans_lt hhigh)
      have hmix : (right - left) * positionTo edge p = (right - p.x) * positionTo edge ⟨left, p.y⟩ +
            (p.x - left) * positionTo edge ⟨right, p.y⟩ := by
        rw [positionTo_eq, positionTo_eq, positionTo_eq]
        ring
      refine nonneg_of_mul_nonneg_right (hmix ▸ ?_) hwidth
      exact add_nonneg (mul_nonneg (sub_nonneg.mpr hhigh.le) (hleft edge hedge))
        (mul_nonneg (sub_nonneg.mpr hlow) (hright edge hedge))
  · -- No edge crosses the height.
    have hnone : ∀ edge ∈ cyclicEdges polygon, ¬ falls p edge = true := by
      rw [← List.countP_eq_zero, countP_falls]
      exact List.countP_eq_zero.mpr fun edge hedge hcrosses => hany ⟨edge, hedge, hcrosses⟩
    refine ⟨p.x, p.x, le_rfl, fun edge hedge hcrosses => absurd ⟨edge, hedge, hcrosses⟩ hany,
      fun edge hedge hfalls => absurd hfalls (hnone edge hedge), fun _ hlt => absurd hlt (lt_irrefl _)⟩

theorem ConvexPolygon.countP_crossesUp (hconvex : ConvexPolygon polygon)
    (houtside : ∃ edge ∈ cyclicEdges polygon, positionTo edge p < -crossTolerance)
    (hclear : ∀ edge ∈ cyclicEdges polygon, passesNear p edge = false) :
    (cyclicEdges polygon).countP (fun edge => crossesUp p edge && countsUp p edge) =
      (cyclicEdges polygon).countP (countsDown p) := by
  have htolerance := crossTolerance_pos (K := K)
  obtain ⟨left, right, horder, hup, hdown, hbetween⟩ := hconvex.exists_span p
  have hcountsUp : ∀ edge ∈ cyclicEdges polygon, ((crossesUp p edge && countsUp p edge) = true ↔
      (crossesUp p edge && decide (p.x < right)) = true) := by
    intro edge hedge
    rw [Bool.and_eq_true, Bool.and_eq_true, decide_eq_true_eq]
    refine and_congr_right fun hcrosses => ?_
    obtain ⟨hlow, hhigh⟩ := crossesUp_iff.mp hcrosses
    have hrises : rises p edge = true := by
      rw [rises, decide_eq_true hlow, decide_eq_true hhigh.le, Bool.true_and]
    have hfar := hclear edge hedge
    rw [passesNear, hrises, Bool.true_or, Bool.true_and, decide_eq_false_iff_not, not_le] at hfar
    rw [← hup edge hedge hcrosses, countsUp, hrises, Bool.true_and, decide_eq_true_eq]
    exact ⟨htolerance.trans, fun hpos => by rwa [abs_of_pos hpos] at hfar⟩
  have hcountsDown : ∀ edge ∈ cyclicEdges polygon, (countsDown p edge = true ↔
      (falls p edge && decide (p.x < left)) = true) := by
    intro edge hedge
    rw [countsDown, Bool.and_eq_true, Bool.and_eq_true, decide_eq_true_eq, decide_eq_true_eq]
    refine and_congr_right fun hfalls => ?_
    have hfar := hclear edge hedge
    rw [passesNear, hfalls, Bool.or_true, Bool.true_and, decide_eq_false_iff_not, not_le] at hfar
    rw [← hdown edge hedge hfalls]
    refine ⟨fun hlt => by linarith, fun hneg => ?_⟩
    rw [abs_of_neg hneg] at hfar
    linarith
  rw [List.countP_congr hcountsUp, List.countP_congr hcountsDown]
  by_cases hbefore : p.x < right
  · have hleft : p.x < left := by
      by_contra hge
      obtain ⟨edge, hedge, hlt⟩ := houtside
      exact absurd (hbetween (not_lt.mp hge) hbefore edge hedge) (not_le.mpr (by linarith))
    simp only [decide_eq_true hbefore, decide_eq_true hleft, Bool.and_true]
    exact (countP_falls polygon p).symm
  · have hleft : ¬ p.x < left := fun hlt => hbefore (hlt.trans_le horder)
    simp only [decide_eq_false hbefore, decide_eq_false hleft, Bool.and_false]

omit [IsStrictOrderedRing K] in
theorem countP_countsUp (edges : List (Point K × Point K)) (p : Point K) :
    edges.countP (countsUp p) =
      edges.countP (fun edge => crossesUp p edge && countsUp p edge) +
        edges.countP (fun edge => endsLevel p edge && countsUp p edge) := by
  rw [List.countP_eq_countP_filter_add edges (countsUp p) (crossesUp p), List.countP_filter,
    List.countP_filter]
  refine congrArg₂ _ (List.countP_congr fun edge _ => ?_) (List.countP_congr fun edge _ => ?_)
  · rw [Bool.and_comm]
  · rw [Bool.and_eq_true, Bool.and_eq_true, and_comm]
    refine and_congr_left fun hcounts => ?_
    rw [countsUp, rises, Bool.and_eq_true, Bool.and_eq_true, decide_eq_true_eq,
      decide_eq_true_eq] at hcounts
    obtain ⟨⟨hlow, hhigh⟩, -⟩ := hcounts
    simp only [Bool.not_eq_true', crossesUp, endsLevel, hlow, not_lt.mpr hlow,
      decide_false, decide_true, Bool.not_false, Bool.true_and, decide_eq_true_eq,
      decide_eq_false_iff_not, not_lt]
    exact ⟨fun hle => le_antisymm hle hhigh, fun heq => heq.le⟩

theorem ConvexPolygon.misses_outside_iff (hconvex : ConvexPolygon polygon)
    (houtside : ∃ edge ∈ cyclicEdges polygon, positionTo edge p < -crossTolerance) :
    isPointInsidePolygon2d polygon p = false ↔ CrossedClearly polygon p := by
  rw [isPointInsidePolygon2d, windingLoop_eq, Bool.or_eq_false_iff, List.any_eq_false,
    decide_eq_false_iff_not, not_not]
  have hclearIff : (∀ edge ∈ cyclicEdges polygon, ¬ passesNear p edge = true) ↔
      ∀ edge ∈ cyclicEdges polygon, passesNear p edge = false := by
    simp only [Bool.not_eq_true]
  have hlevelIff : (∀ edge ∈ cyclicEdges polygon, edge.1.y ≤ p.y → edge.2.y = p.y →
      positionTo edge p ≤ crossTolerance) ↔
      (cyclicEdges polygon).countP (fun edge => endsLevel p edge && countsUp p edge) = 0 := by
    rw [List.countP_eq_zero]
    refine forall₂_congr fun edge _ => ?_
    simp only [endsLevel, countsUp, rises, Bool.and_eq_true, decide_eq_true_eq, not_and, not_lt]
    exact ⟨fun hlevel hends hrises => hlevel hends.1 hends.2,
      fun hlevel hlow heq => hlevel ⟨hlow, heq⟩ ⟨hlow, heq.ge⟩⟩
  rw [hclearIff, countP_countsUp]
  constructor
  · rintro ⟨hclear, hwinding⟩
    have hcount := hconvex.countP_crossesUp houtside hclear
    exact ⟨hclear, hlevelIff.mpr (by omega)⟩
  · intro hcrossed
    have hcount := hconvex.countP_crossesUp houtside hcrossed.clear
    have hlevel := hlevelIff.mp hcrossed.level
    exact ⟨hcrossed.clear, by omega⟩

/-- Points are decided if and only if each point outside is crossed clearly. -/
theorem decidesInside_iff (hconvex : ConvexPolygon polygon) (p : Point K) :
    DecidesInside polygon p ↔ ((∃ edge ∈ cyclicEdges polygon, positionTo edge p < -crossTolerance) →
        CrossedClearly polygon p) := by
  constructor
  · intro hdecides houtside
    exact (hconvex.misses_outside_iff houtside).mp (hdecides.outside houtside)
  · intro hcrossed
    exact ⟨hconvex.finds_inside, fun houtside =>
      (hconvex.misses_outside_iff houtside).mpr (hcrossed houtside)⟩

/-- A square and a point to the right of it. -/
theorem decidesInside_square : ConvexPolygon [(⟨0, 0⟩ : Point ℚ), ⟨2, 0⟩, ⟨2, 2⟩, ⟨0, 2⟩] ∧
      DecidesInside [(⟨0, 0⟩ : Point ℚ), ⟨2, 0⟩, ⟨2, 2⟩, ⟨0, 2⟩] ⟨3, 1⟩ := by
  have hconvex : ConvexPolygon [(⟨0, 0⟩ : Point ℚ), ⟨2, 0⟩, ⟨2, 2⟩, ⟨0, 2⟩] :=
    ⟨by decide, by decide +kernel, by decide +kernel⟩
  exact ⟨hconvex, (decidesInside_iff hconvex _).mpr fun _ =>
    ⟨by decide +kernel, by decide +kernel⟩⟩

/-- The rightmost vertex of a diamond is level with a point left of it. -/
theorem decidesInside_level : ¬ ∀ (polygon : List (Point ℚ)) (p : Point ℚ), ConvexPolygon polygon →
      DecidesInside polygon p := by
  intro hdecides
  have hconvex : ConvexPolygon [(⟨0, -1⟩ : Point ℚ), ⟨1, 0⟩, ⟨0, 1⟩, ⟨-1, 0⟩] :=
    ⟨by decide, by decide +kernel, by decide +kernel⟩
  exact absurd ((hdecides _ ⟨-5, 0⟩ hconvex).outside (by decide +kernel)) (by decide +kernel)

end AutowareUniverse.Common.Geometry
