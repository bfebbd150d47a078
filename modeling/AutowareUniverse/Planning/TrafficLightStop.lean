import AutowareUniverse.Library.KeepBest
import AutowareUniverse.Planning.ArcLaneUtil
import Mathlib.Tactic.Module

/-!
# The stop point before a traffic light

The path is walked back from its crossing with the stop line, or ahead of it for a
negative offset, and the stop point is put at the remaining length from where the
walk ends.  The crossings of two lines are a parameter.
-/

namespace AutowareUniverse.Planning.TrafficLight

open Common.MotionUtils ArcLaneUtil Library.PrefixSums Library.KeepBest

variable {K O : Type} [Field K] [LinearOrder K]

def point2d (point : PathPointWithLaneId K O) : K × K :=
  (point.pose.position.x, point.pose.position.y)

section

variable (geometry : Geometry K O)

def norm (v : K × K) : K := geometry.sqrt (v.1 * v.1 + v.2 * v.2)

/-- `Eigen::Vector2d::normalized`, which keeps the zero vector. -/
def normalized (v : K × K) : K × K :=
  if 0 < v.1 * v.1 + v.2 * v.2 then (norm geometry v)⁻¹ • v else v

def getBackwardPointFromBasePoint (linePoint1 linePoint2 basePoint : K × K)
    (backwardLength : K) : K × K :=
  basePoint + backwardLength • normalized geometry (linePoint2 - linePoint1)

def findNearestCollisionPoint (intersection : LineString2d K → LineString2d K → List (K × K))
    (line1 line2 : LineString2d K) (origin : K × K) : Option (K × K) :=
  match intersection line1 line2 with
  | [] => none
  | first :: rest => some (rest.foldl (keepBest fun point => -norm geometry (point - origin)) first)

/-- The variables of the loops that search for the target. -/
structure Walk (K : Type) where
  targetPointIdx : ℕ
  lengthSum : K
  point1 : K × K
  point2 : K × K

/-- The loop back to the first point, from the point of an index. -/
def walkBackward (path : PathWithLaneId K O) (offset : K) : ℕ → Walk K → Except Failure (Walk K)
  | 0, walk => return walk
  | j + 1, walk =>
    if offset < walk.lengthSum then return { walk with targetPointIdx := j + 2 }
    else do
      let back ← atIndex path (j + 1)
      let front ← atIndex path j
      walkBackward path offset j
        { walk with
          point1 := point2d back
          point2 := point2d front
          lengthSum := walk.lengthSum + norm geometry (point2d front - point2d back) }

/-- The loop ahead to the last point, with the number of points that remain. -/
def walkForward (path : PathWithLaneId K O) (offset : K) : ℕ → ℕ → Walk K → Except Failure (Walk K)
  | 0, _, walk => return walk
  | remaining + 1, j, walk =>
    if walk.lengthSum < offset then return { walk with targetPointIdx := j }
    else do
      let front ← atIndex path j
      let back ← atIndex path (j + 1)
      walkForward path offset remaining (j + 1)
        { walk with
          point1 := point2d front
          point2 := point2d back
          lengthSum := walk.lengthSum - norm geometry (point2d back - point2d front) }

def searchTarget (path : PathWithLaneId K O) (offset : K) (i : ℕ)
    (pathLineBegin pathLineEnd crossing : K × K) : Except Failure (Walk K) :=
  if 0 ≤ offset then
    walkBackward geometry path offset i
      ⟨0, norm geometry (pathLineBegin - crossing), crossing, pathLineBegin⟩
  else
    walkForward geometry path offset (path.length - 1 - (i + 1)) (i + 1)
      ⟨0, -norm geometry (pathLineEnd - crossing), crossing, pathLineEnd⟩

variable (intersection : LineString2d K → LineString2d K → List (K × K))

/-- The loop over the segments of the path. -/
def createTargetPointFrom (path : PathWithLaneId K O) (stopLine : LineString2d K) (offset : K) :
    ℕ → PathWithLaneId K O → Except Failure (Option (ℕ × (K × K)))
  | i, front :: back :: rest =>
    match findNearestCollisionPoint geometry intersection [point2d front, point2d back] stopLine
        (point2d front) with
    | none => createTargetPointFrom path stopLine offset (i + 1) (back :: rest)
    | some crossing => do
      let walk ← searchTarget geometry path offset i (point2d front) (point2d back) crossing
      return some (walk.targetPointIdx,
        getBackwardPointFromBasePoint geometry walk.point2 walk.point1 walk.point2
          |walk.lengthSum - offset|)
  | _, _ => return none

def createTargetPoint (path : PathWithLaneId K O) (stopLine : LineString2d K) (offset : K) :
    Except Failure (Option (ℕ × (K × K))) :=
  if path.length < 2 then return none
  else createTargetPointFrom geometry intersection path stopLine offset 0 path

end

def IsOnPath (path : PathWithLaneId K O) (i : ℕ) (ratio : K) (point : K × K) : Prop :=
  ∃ front back, path[i]? = some front ∧ path[i + 1]? = some back ∧ 0 ≤ ratio ∧ ratio ≤ 1 ∧
    point = point2d front + ratio • (point2d back - point2d front)

def segmentLength (geometry : Geometry K O) (path : PathWithLaneId K O) (i : ℕ) : K :=
  positionAt geometry path (i + 1) - positionAt geometry path i

def placeAt (geometry : Geometry K O) (path : PathWithLaneId K O) (i : ℕ) (ratio : K) : K :=
  positionAt geometry path i + ratio * segmentLength geometry path i

def FindsCrossings (intersection : LineString2d K → LineString2d K → List (K × K))
    (path : PathWithLaneId K O) (stopLine : LineString2d K) : Prop :=
  ∀ i front back, path[i]? = some front → path[i + 1]? = some back →
    ∀ point ∈ intersection [point2d front, point2d back] stopLine,
      ∃ ratio, IsOnPath path i ratio point

structure IsFirstCrossing (intersection : LineString2d K → LineString2d K → List (K × K))
    (path : PathWithLaneId K O) (stopLine : LineString2d K) (i : ℕ) (ratio : K)
    (crossing : K × K) : Prop where
  on_path : IsOnPath path i ratio crossing
  found : ∀ front back, path[i]? = some front → path[i + 1]? = some back →
    crossing ∈ intersection [point2d front, point2d back] stopLine
  first : ∀ k front back, path[k]? = some front → path[k + 1]? = some back →
    ∀ point ∈ intersection [point2d front, point2d back] stopLine, ∀ other,
      IsOnPath path k other point → i < k ∨ i = k ∧ ratio ≤ other

def IsOrdered (geometry : Geometry K O) (path : PathWithLaneId K O) (position : K) (idx : ℕ) :
    Prop :=
  idx ≤ path.length ∧ (∀ k < idx, positionAt geometry path k ≤ position) ∧
    ∀ k < path.length, idx ≤ k → position ≤ positionAt geometry path k

structure TargetCreated (geometry : Geometry K O) (path : PathWithLaneId K O)
    (crossingPosition offset : K) (target : ℕ × (K × K)) : Prop where
  placed : 0 ≤ crossingPosition - offset → (∃ i ratio, IsOnPath path i ratio target.2 ∧
      placeAt geometry path i ratio = crossingPosition - offset) ∧
    IsOrdered geometry path (crossingPosition - offset) target.1
  not_beyond : crossingPosition - offset < 0 → ∀ first, path[0]? = some first →
    norm geometry (target.2 - point2d first) ≤ crossingPosition

section

variable [IsStrictOrderedRing K] {geometry : Geometry K O} {path : PathWithLaneId K O}
  {front back : PathPointWithLaneId K O} {idx : ℕ}

omit [LinearOrder K] [IsStrictOrderedRing K] in
theorem segmentLength_eq (hfront : path[idx]? = some front) (hback : path[idx + 1]? = some back) :
    segmentLength geometry path idx =
      calcDistance2d geometry.toTrigonometry front.pose.position back.pose.position := by
  have hsucc : positionAt geometry path (idx + 1) = positionAt geometry path idx +
      calcDistance2d geometry.toTrigonometry front.pose.position back.pose.position :=
    prefixSum_succ (getElem?_lengthsOfPath hfront hback)
  rw [segmentLength, hsucc, add_sub_cancel_left]

omit [IsStrictOrderedRing K] in
theorem normalized_neg (v : K × K) : normalized geometry (-v) = -normalized geometry v := by
  simp only [normalized, norm, Prod.fst_neg, Prod.snd_neg, neg_mul_neg]
  split <;> simp

variable (hexact : ExactLengths geometry path)

include hexact

theorem segmentLength_nonneg (idx : ℕ) : 0 ≤ segmentLength geometry path idx :=
  sub_nonneg.mpr (positionAt_mono hexact.nonneg (Nat.le_succ idx))

variable (hfront : path[idx]? = some front) (hback : path[idx + 1]? = some back)

include hfront hback

/-- Vectors along a segment are measured by its length. -/
theorem norm_smul (ratio : K) : norm geometry (ratio • (point2d back - point2d front)) =
      |ratio| * segmentLength geometry path idx := by
  rw [segmentLength_eq hfront hback, calcDistance2d,
    ← hexact.scales idx front back hfront hback |ratio| (abs_nonneg ratio), norm, abs_mul_abs_self]
  congr 1
  simp only [point2d, calcSquaredDistance2d, Prod.smul_fst, Prod.smul_snd, Prod.fst_sub,
    Prod.snd_sub, smul_eq_mul]
  ring

omit [IsStrictOrderedRing K] in
theorem squaredNorm_smul (ratio : K) :
    (ratio • (point2d back - point2d front)).1 * (ratio • (point2d back - point2d front)).1 +
        (ratio • (point2d back - point2d front)).2 * (ratio • (point2d back - point2d front)).2 =
      ratio * segmentLength geometry path idx * (ratio * segmentLength geometry path idx) := by
  rw [segmentLength_eq hfront hback, mul_mul_mul_comm ratio,
    hexact.mul_self idx front back hfront hback]
  simp only [point2d, calcSquaredDistance2d, Prod.smul_fst, Prod.smul_snd, Prod.fst_sub,
    Prod.snd_sub, smul_eq_mul]
  ring

theorem normalized_smul {ratio : K} (hratio : 0 < ratio)
    (hlength : 0 < segmentLength geometry path idx) :
    normalized geometry (ratio • (point2d back - point2d front)) =
      (segmentLength geometry path idx)⁻¹ • (point2d back - point2d front) := by
  rw [normalized, squaredNorm_smul hexact hfront hback,
    if_pos (mul_self_pos.mpr (mul_pos hratio hlength).ne'), norm_smul hexact hfront hback,
    abs_of_pos hratio, smul_smul]
  congr 1
  field_simp

end

/-! ## Where the walks end -/

section

variable {geometry : Geometry K O} {path : PathWithLaneId K O} {crossingPosition offset : K}

structure BackAt (geometry : Geometry K O) (path : PathWithLaneId K O)
    (crossingPosition offset : K) (k : ℕ) (ratio : K) (walk : Walk K)
    (front back : PathPointWithLaneId K O) : Prop where
  front_at : path[k]? = some front
  back_at : path[k + 1]? = some back
  ratio_nonneg : 0 ≤ ratio
  ratio_le : ratio ≤ 1
  point1_eq : walk.point1 = point2d front + ratio • (point2d back - point2d front)
  point2_eq : walk.point2 = point2d front
  lengthSum_eq : walk.lengthSum = crossingPosition - positionAt geometry path k
  target_le : crossingPosition - offset ≤ placeAt geometry path k ratio
  reached : placeAt geometry path k ratio = crossingPosition ∨
    ratio = 1 ∧ placeAt geometry path k ratio ≤ crossingPosition

structure AheadAt (geometry : Geometry K O) (path : PathWithLaneId K O)
    (crossingPosition offset : K) (k : ℕ) (ratio : K) (walk : Walk K)
    (front back : PathPointWithLaneId K O) : Prop where
  front_at : path[k]? = some front
  back_at : path[k + 1]? = some back
  ratio_nonneg : 0 ≤ ratio
  ratio_le : ratio ≤ 1
  point1_eq : walk.point1 = point2d front + ratio • (point2d back - point2d front)
  point2_eq : walk.point2 = point2d back
  lengthSum_eq : walk.lengthSum = crossingPosition - positionAt geometry path (k + 1)
  le_target : placeAt geometry path k ratio ≤ crossingPosition - offset

variable [IsStrictOrderedRing K]

omit [LinearOrder K] [IsStrictOrderedRing K] in
theorem placeAt_one (k : ℕ) : placeAt geometry path k 1 = positionAt geometry path (k + 1) := by
  rw [placeAt, segmentLength]
  ring

variable {walk : Walk K} {ratio : K}

theorem BackAt.step (hexact : ExactLengths geometry path) {j : ℕ}
    {before front back : PathPointWithLaneId K O}
    (hat : BackAt geometry path crossingPosition offset (j + 1) ratio walk front back)
    (hbefore : path[j]? = some before) (hnot : ¬ offset < walk.lengthSum) :
    BackAt geometry path crossingPosition offset j 1
      { walk with
        point1 := point2d front
        point2 := point2d before
        lengthSum := walk.lengthSum + norm geometry (point2d before - point2d front) }
      before front where
  front_at := hbefore
  back_at := hat.front_at
  ratio_nonneg := zero_le_one
  ratio_le := le_rfl
  point1_eq := by
    dsimp only
    module
  point2_eq := rfl
  lengthSum_eq := by
    have hnorm : norm geometry (point2d before - point2d front) =
        segmentLength geometry path j := by
      have hlength := norm_smul hexact hbefore hat.front_at (-1)
      rw [abs_neg, abs_one, one_mul] at hlength
      rw [← hlength]
      congr 1
      module
    dsimp only
    rw [hnorm, hat.lengthSum_eq, segmentLength]
    ring
  target_le := by
    rw [hat.lengthSum_eq] at hnot
    rw [placeAt_one]
    linarith
  reached := by
    refine .inr ⟨rfl, ?_⟩
    rw [placeAt_one]
    refine le_trans ?_ (hat.reached.elim Eq.le And.right)
    exact le_add_of_nonneg_right (mul_nonneg hat.ratio_nonneg (segmentLength_nonneg hexact _))

variable {front back : PathPointWithLaneId K O}

theorem walkBackward_spec (hexact : ExactLengths geometry path) {j : ℕ}
    (hat : BackAt geometry path crossingPosition offset j ratio walk front back) :
    ∃ result k ratio front back, walkBackward geometry path offset j walk = .ok result ∧
      BackAt geometry path crossingPosition offset k ratio result front back ∧
      (0 < k ∧ result.targetPointIdx = k + 1 ∧
          positionAt geometry path k < crossingPosition - offset ∨
        k = 0 ∧ result.targetPointIdx = walk.targetPointIdx) := by
  induction j generalizing walk ratio front back with
  | zero => exact ⟨walk, 0, ratio, front, back, rfl, hat, .inr ⟨rfl, rfl⟩⟩
  | succ j ih =>
    rw [walkBackward]
    by_cases hreached : offset < walk.lengthSum
    · rw [if_pos hreached]
      rw [hat.lengthSum_eq] at hreached
      refine ⟨_, j + 1, ratio, front, back, rfl, { hat with }, .inl ⟨j.succ_pos, rfl, ?_⟩⟩
      linarith
    · rw [if_neg hreached]
      have hlt : j < path.length :=
        (Nat.lt_succ_self j).trans (List.getElem?_eq_some_iff.mp hat.front_at).1
      have hbefore : path[j]? = some path[j] := List.getElem?_eq_getElem hlt
      simp only [atIndex, hat.front_at, hbefore, pure_bind]
      exact ih (hat.step hexact hbefore hreached)

theorem AheadAt.step (hexact : ExactLengths geometry path) {k : ℕ}
    {front back behind : PathPointWithLaneId K O}
    (hat : AheadAt geometry path crossingPosition offset k ratio walk front back)
    (hbehind : path[k + 2]? = some behind) (hnot : ¬ walk.lengthSum < offset) :
    AheadAt geometry path crossingPosition offset (k + 1) 0
      { walk with
        point1 := point2d back
        point2 := point2d behind
        lengthSum := walk.lengthSum - norm geometry (point2d behind - point2d back) }
      back behind where
  front_at := hat.back_at
  back_at := hbehind
  ratio_nonneg := le_rfl
  ratio_le := zero_le_one
  point1_eq := by
    dsimp only
    module
  point2_eq := rfl
  lengthSum_eq := by
    have hnorm := norm_smul hexact hat.back_at hbehind 1
    rw [abs_one, one_mul, one_smul] at hnorm
    dsimp only
    rw [hnorm, hat.lengthSum_eq, segmentLength]
    ring
  le_target := by
    rw [hat.lengthSum_eq] at hnot
    rw [placeAt, zero_mul, add_zero]
    linarith

theorem walkForward_spec (hexact : ExactLengths geometry path) {remaining k : ℕ}
    (hend : k + 1 + remaining + 1 = path.length)
    (hat : AheadAt geometry path crossingPosition offset k ratio walk front back) :
    ∃ result last ratio front back,
      walkForward geometry path offset remaining (k + 1) walk = .ok result ∧
      AheadAt geometry path crossingPosition offset last ratio result front back ∧
      (last + 2 < path.length ∧ result.targetPointIdx = last + 1 ∧
          crossingPosition - offset < positionAt geometry path (last + 1) ∨
        last + 2 = path.length ∧ result.targetPointIdx = walk.targetPointIdx) := by
  induction remaining generalizing k walk ratio front back with
  | zero => exact ⟨walk, k, ratio, front, back, rfl, hat, .inr ⟨hend, rfl⟩⟩
  | succ remaining ih =>
    rw [walkForward]
    by_cases hreached : walk.lengthSum < offset
    · rw [if_pos hreached]
      rw [hat.lengthSum_eq] at hreached
      refine ⟨_, k, ratio, front, back, rfl, { hat with }, .inl ⟨by omega, rfl, ?_⟩⟩
      linarith
    · rw [if_neg hreached]
      have hbehind : path[k + 2]? = some path[k + 2] := List.getElem?_eq_getElem (by omega)
      simp only [atIndex, hat.back_at, hbehind, pure_bind]
      exact ih (by omega) (hat.step hexact hbehind hreached)

def Walk.target (geometry : Geometry K O) (offset : K) (walk : Walk K) : K × K :=
  getBackwardPointFromBasePoint geometry walk.point2 walk.point1 walk.point2
    |walk.lengthSum - offset|

omit [IsStrictOrderedRing K] in
theorem BackAt.target_eq {k : ℕ}
    (hat : BackAt geometry path crossingPosition offset k ratio walk front back) :
    walk.target geometry offset = point2d front +
      |crossingPosition - offset - positionAt geometry path k| •
        normalized geometry (ratio • (point2d back - point2d front)) := by
  rw [Walk.target, getBackwardPointFromBasePoint, hat.point1_eq, hat.point2_eq, hat.lengthSum_eq,
    add_sub_cancel_left, sub_right_comm]

variable (hexact : ExactLengths geometry path) {k : ℕ} {ratio : K} {walk : Walk K}
  {front back : PathPointWithLaneId K O}

include hexact

theorem BackAt.target (hat : BackAt geometry path crossingPosition offset k ratio walk front back)
    (hle : positionAt geometry path k ≤ crossingPosition - offset) :
    ∃ other, IsOnPath path k other (walk.target geometry offset) ∧
      placeAt geometry path k other = crossingPosition - offset := by
  rw [hat.target_eq, abs_of_nonneg (sub_nonneg.mpr hle)]
  rcases eq_or_lt_of_le hle with hsame | hlt
  · refine ⟨0, ⟨front, back, hat.front_at, hat.back_at, le_rfl, zero_le_one, ?_⟩, ?_⟩
    · rw [hsame, sub_self, zero_smul, zero_smul]
    · rw [placeAt, zero_mul, add_zero, hsame]
  · have htarget := hat.target_le
    rw [placeAt] at htarget
    have hlong : 0 < ratio * segmentLength geometry path k := by linarith
    have hlength := pos_of_mul_pos_right hlong hat.ratio_nonneg
    have hpart := mul_le_of_le_one_left hlength.le hat.ratio_le
    rw [normalized_smul hexact hat.front_at hat.back_at (pos_of_mul_pos_left hlong hlength.le)
      hlength, smul_smul, ← div_eq_mul_inv]
    refine ⟨_, ⟨front, back, hat.front_at, hat.back_at, ?_, ?_, rfl⟩, ?_⟩
    · exact div_nonneg (sub_nonneg.mpr hle) hlength.le
    · rw [div_le_one hlength]
      linarith
    · rw [placeAt, div_mul_cancel₀ _ hlength.ne', add_sub_cancel]

theorem AheadAt.target (hat : AheadAt geometry path crossingPosition offset k ratio walk front back)
    (hlt : crossingPosition - offset < positionAt geometry path (k + 1)) :
    ∃ other, IsOnPath path k other (walk.target geometry offset) ∧
      placeAt geometry path k other = crossingPosition - offset := by
  have hdirection : walk.point1 - walk.point2 = -((1 - ratio) • (point2d back - point2d front)) := by
    rw [hat.point1_eq, hat.point2_eq]
    module
  have htarget := hat.le_target
  have hsucc : positionAt geometry path (k + 1) =
      positionAt geometry path k + segmentLength geometry path k :=
    (add_sub_cancel _ _).symm
  rw [placeAt] at htarget
  have hlong : 0 < (1 - ratio) * segmentLength geometry path k := by linarith
  have hlength := pos_of_mul_pos_right hlong (sub_nonneg.mpr hat.ratio_le)
  have hpart := mul_nonneg hat.ratio_nonneg hlength.le
  rw [Walk.target, getBackwardPointFromBasePoint, hdirection, normalized_neg,
    normalized_smul hexact hat.front_at hat.back_at (pos_of_mul_pos_left hlong hlength.le) hlength,
    hat.lengthSum_eq, sub_right_comm, abs_of_neg (sub_neg.mpr hlt), neg_sub, hat.point2_eq]
  refine ⟨1 - (positionAt geometry path (k + 1) - (crossingPosition - offset)) /
    segmentLength geometry path k, ⟨front, back, hat.front_at, hat.back_at, ?_, ?_, ?_⟩, ?_⟩
  · rw [sub_nonneg, div_le_one hlength]
    linarith
  · exact sub_le_self 1 (div_nonneg (sub_nonneg.mpr hlt.le) hlength.le)
  · rw [div_eq_mul_inv]
    module
  · rw [placeAt, sub_mul, div_mul_cancel₀ _ hlength.ne']
    linarith

/-- From the first point the target is put ahead, as far as it lies in front of the path. -/
theorem BackAt.not_beyond_iff
    (hat : BackAt geometry path crossingPosition offset 0 ratio walk front back)
    (hneg : crossingPosition - offset < 0) :
    norm geometry (walk.target geometry offset - point2d front) ≤ crossingPosition ↔
      offset ≤ 2 * crossingPosition ∨ positionAt geometry path 1 = 0 ∨ crossingPosition = 0 := by
  have hzero : positionAt geometry path 0 = 0 := rfl
  have hfirst : segmentLength geometry path 0 = positionAt geometry path 1 := sub_zero _
  have hreached := hat.reached
  rw [placeAt, hzero, zero_add] at hreached
  have hle := hreached.elim Eq.le And.right
  have hpart := mul_nonneg hat.ratio_nonneg (segmentLength_nonneg hexact 0)
  rw [hat.target_eq, hzero, sub_zero, abs_of_neg hneg, neg_sub, add_sub_cancel_left]
  rcases hpart.eq_or_lt with hshort | hlong
  · -- the direction has no length, and the target is the first point
    have hsame : normalized geometry (ratio • (point2d back - point2d front)) =
        ratio • (point2d back - point2d front) := by
      rw [normalized, squaredNorm_smul hexact hat.front_at hat.back_at, ← hshort, mul_zero,
        if_neg (lt_irrefl _)]
    rw [hsame, smul_smul, norm_smul hexact hat.front_at hat.back_at, abs_mul,
      abs_of_nonneg hat.ratio_nonneg, mul_assoc, ← hshort, mul_zero]
    refine ⟨fun _ => .inr ?_, fun _ => hpart.trans hle⟩
    rcases hreached with hsame | ⟨hone, -⟩
    · exact .inr (hsame.symm.trans hshort.symm)
    · rw [hone, one_mul, hfirst] at hshort
      exact .inl hshort.symm
  · have hlength := pos_of_mul_pos_right hlong hat.ratio_nonneg
    have hbehind : 0 ≤ offset - crossingPosition := by linarith
    rw [normalized_smul hexact hat.front_at hat.back_at (pos_of_mul_pos_left hlong hlength.le)
      hlength, smul_smul, norm_smul hexact hat.front_at hat.back_at,
      abs_of_nonneg (mul_nonneg hbehind (inv_nonneg.mpr hlength.le)),
      inv_mul_cancel_right₀ hlength.ne', ← hfirst, or_iff_left]
    · rw [sub_le_iff_le_add, two_mul]
    · rintro (hnone | hnone)
      · exact hlength.ne' hnone
      · linarith

end

/-! ## The first crossing -/

section

variable {geometry : Geometry K O} {path : PathWithLaneId K O} {stopLine : LineString2d K}
  {intersection : LineString2d K → LineString2d K → List (K × K)} {i : ℕ} {ratio offset : K}
  {crossing : K × K}

variable (geometry) in
theorem IsFirstCrossing.none_before (hcrossings : FindsCrossings intersection path stopLine)
    (hfirst : IsFirstCrossing intersection path stopLine i ratio crossing) {k : ℕ} (hk : k < i)
    {front back : PathPointWithLaneId K O} (hfront : path[k]? = some front)
    (hback : path[k + 1]? = some back) :
    findNearestCollisionPoint geometry intersection [point2d front, point2d back] stopLine
      (point2d front) = none := by
  have hempty : intersection [point2d front, point2d back] stopLine = [] := by
    refine List.eq_nil_iff_forall_not_mem.mpr fun point hpoint => ?_
    obtain ⟨other, hpath⟩ := hcrossings k front back hfront hback point hpoint
    have hlater := hfirst.first k front back hfront hback point hpoint other hpath
    omega
  rw [findNearestCollisionPoint, hempty]

theorem createTargetPointFrom_skip (hcrossings : FindsCrossings intersection path stopLine)
    {count k : ℕ} (hfirst : IsFirstCrossing intersection path stopLine (k + count) ratio crossing) :
    createTargetPointFrom geometry intersection path stopLine offset k (path.drop k) =
      createTargetPointFrom geometry intersection path stopLine offset (k + count)
        (path.drop (k + count)) := by
  induction count generalizing k with
  | zero => rfl
  | succ count ih =>
    obtain ⟨_, _, _, hback, -⟩ := hfirst.on_path
    have hlt := (List.getElem?_eq_some_iff.mp hback).1
    have hfront : path[k]? = some path[k] := List.getElem?_eq_getElem (by omega)
    have hnext : path[k + 1]? = some path[k + 1] := List.getElem?_eq_getElem (by omega)
    have hnone := hfirst.none_before geometry hcrossings (by omega) hfront hnext
    have hindex : k + 1 + count = k + (count + 1) := by omega
    rw [← hindex] at hfirst ⊢
    rw [← ih hfirst, List.drop_eq_getElem_cons (by omega : k < path.length),
      List.drop_eq_getElem_cons (by omega : k + 1 < path.length), createTargetPointFrom, hnone]

theorem eq_of_isOnPath {other : K} {point : K × K} {front back : PathPointWithLaneId K O}
    (hfront : path[i]? = some front) (hback : path[i + 1]? = some back)
    (hpath : IsOnPath path i other point) :
    0 ≤ other ∧ point = point2d front + other • (point2d back - point2d front) := by
  obtain ⟨first, second, hfirst, hsecond, hnonneg, -, hpoint⟩ := hpath
  obtain rfl := Option.some.inj (hfront.symm.trans hfirst)
  obtain rfl := Option.some.inj (hback.symm.trans hsecond)
  exact ⟨hnonneg, hpoint⟩

variable [IsStrictOrderedRing K] (hexact : ExactLengths geometry path)
  {front back : PathPointWithLaneId K O} (hfront : path[i]? = some front)
  (hback : path[i + 1]? = some back)

include hexact hfront hback

theorem point_eq_of_length {other : K}
    (hsame : ratio * segmentLength geometry path i = other * segmentLength geometry path i) :
    point2d front + ratio • (point2d back - point2d front) =
      point2d front + other • (point2d back - point2d front) := by
  have hzero := squaredNorm_smul hexact hfront hback (ratio - other)
  rw [sub_mul, hsame, sub_self, mul_zero, mul_self_add_mul_self_eq_zero] at hzero
  have hvector : (ratio - other) • (point2d back - point2d front) = 0 := Prod.ext hzero.1 hzero.2
  rw [sub_smul, sub_eq_zero] at hvector
  rw [hvector]

variable (hfirst : IsFirstCrossing intersection path stopLine i ratio crossing)

include hfirst

theorem IsFirstCrossing.backAt (hoffset : 0 ≤ offset) :
    BackAt geometry path (placeAt geometry path i ratio) offset i ratio
      ⟨0, norm geometry (point2d front - crossing), crossing, point2d front⟩ front back := by
  obtain ⟨hnonneg, hcrossing⟩ := eq_of_isOnPath hfront hback hfirst.on_path
  obtain ⟨_, _, _, _, -, hle, -⟩ := hfirst.on_path
  refine ⟨hfront, hback, hnonneg, hle, hcrossing, rfl, ?_, sub_le_self _ hoffset, .inl rfl⟩
  have hvector : point2d front - crossing = -ratio • (point2d back - point2d front) := by
    rw [hcrossing]
    module
  dsimp only
  rw [hvector, norm_smul hexact hfront hback, abs_neg, abs_of_nonneg hnonneg, placeAt,
    add_sub_cancel_left]

theorem IsFirstCrossing.aheadAt (hoffset : offset ≤ 0) :
    AheadAt geometry path (placeAt geometry path i ratio) offset i ratio
      ⟨0, -norm geometry (point2d back - crossing), crossing, point2d back⟩ front back := by
  obtain ⟨hnonneg, hcrossing⟩ := eq_of_isOnPath hfront hback hfirst.on_path
  obtain ⟨_, _, _, _, -, hle, -⟩ := hfirst.on_path
  refine ⟨hfront, hback, hnonneg, hle, hcrossing, rfl, ?_, by linarith⟩
  have hvector : point2d back - crossing = (1 - ratio) • (point2d back - point2d front) := by
    rw [hcrossing]
    module
  dsimp only
  rw [hvector, norm_smul hexact hfront hback, abs_of_nonneg (sub_nonneg.mpr hle), placeAt,
    segmentLength]
  ring

variable (hcrossings : FindsCrossings intersection path stopLine)

include hcrossings

theorem IsFirstCrossing.findNearest :
    findNearestCollisionPoint geometry intersection [point2d front, point2d back] stopLine
      (point2d front) = some crossing := by
  have hbehind : ∀ point ∈ intersection [point2d front, point2d back] stopLine,
      ∃ other, ratio ≤ other ∧ IsOnPath path i other point := by
    intro point hpoint
    obtain ⟨other, hpath⟩ := hcrossings i front back hfront hback point hpoint
    have hle := hfirst.first i front back hfront hback point hpoint other hpath
    exact ⟨other, (hle.resolve_left (lt_irrefl i)).2, hpath⟩
  have hdistance : ∀ {other : K} {point : K × K}, IsOnPath path i other point →
      norm geometry (point - point2d front) = other * segmentLength geometry path i := by
    intro other point hpath
    obtain ⟨hnonneg, rfl⟩ := eq_of_isOnPath hfront hback hpath
    rw [add_sub_cancel_left, norm_smul hexact hfront hback, abs_of_nonneg hnonneg]
  have hfound := hfirst.found front back hfront hback
  rw [findNearestCollisionPoint]
  cases hpoints : intersection [point2d front, point2d back] stopLine with
  | nil => rw [hpoints] at hfound; cases hfound
  | cons start rest =>
    dsimp only
    have hbest := foldl_keepBest (fun point => -norm geometry (point - point2d front)) start rest
    generalize rest.foldl (keepBest fun point => -norm geometry (point - point2d front)) start =
      nearest at hbest
    rw [hpoints] at hfound hbehind
    have hmem : nearest ∈ start :: rest := by
      rcases hbest.mem with rfl | ⟨hrest, -⟩
      · exact List.mem_cons_self ..
      · exact List.mem_cons_of_mem _ hrest
    have hnearest : norm geometry (nearest - point2d front) ≤
        norm geometry (crossing - point2d front) := by
      rcases List.mem_cons.mp hfound with rfl | hrest
      · exact neg_le_neg_iff.mp hbest.start_le
      · exact neg_le_neg_iff.mp (hbest.le crossing hrest)
    obtain ⟨place, hplace, hnearestPath⟩ := hbehind nearest hmem
    rw [hdistance hnearestPath, hdistance hfirst.on_path] at hnearest
    have hlength : 0 ≤ segmentLength geometry path i := segmentLength_nonneg hexact i
    have hsame := (mul_le_mul_of_nonneg_right hplace hlength).antisymm hnearest
    rw [(eq_of_isOnPath hfront hback hnearestPath).2,
      (eq_of_isOnPath hfront hback hfirst.on_path).2]
    exact congrArg some (point_eq_of_length hexact hfront hback hsame).symm

theorem IsFirstCrossing.createTargetPoint_eq {walk : Walk K}
    (hwalk : searchTarget geometry path offset i (point2d front) (point2d back) crossing =
      .ok walk) :
    createTargetPoint geometry intersection path stopLine offset =
      .ok (some (walk.targetPointIdx, walk.target geometry offset)) := by
  have hlt := (List.getElem?_eq_some_iff.mp hback).1
  have hskip : createTargetPointFrom geometry intersection path stopLine offset 0 (path.drop 0) =
      createTargetPointFrom geometry intersection path stopLine offset (0 + i)
        (path.drop (0 + i)) :=
    createTargetPointFrom_skip hcrossings (by rwa [Nat.zero_add])
  obtain ⟨hfrontLt, rfl⟩ := List.getElem?_eq_some_iff.mp hfront
  obtain ⟨_, rfl⟩ := List.getElem?_eq_some_iff.mp hback
  rw [List.drop_zero, Nat.zero_add] at hskip
  rw [createTargetPoint, if_neg (by omega), hskip, List.drop_eq_getElem_cons hfrontLt,
    List.drop_eq_getElem_cons hlt, createTargetPointFrom,
    hfirst.findNearest hexact hfront hback hcrossings]
  simp only [hwalk]
  rfl

theorem IsFirstCrossing.exists_target_iff {P : ℕ × (K × K) → Prop} {walk : Walk K}
    (hwalk : searchTarget geometry path offset i (point2d front) (point2d back) crossing =
      .ok walk) :
    (∃ target, createTargetPoint geometry intersection path stopLine offset = .ok (some target) ∧
      P target) ↔ P (walk.targetPointIdx, walk.target geometry offset) := by
  rw [hfirst.createTargetPoint_eq hexact hfront hback hcrossings hwalk]
  constructor
  · rintro ⟨target, htarget, hproperty⟩
    rwa [← Option.some.inj (Except.ok.inj htarget)] at hproperty
  · intro hproperty
    exact ⟨_, rfl, hproperty⟩

end

/-! ## The target -/

section

variable [IsStrictOrderedRing K] {geometry : Geometry K O} {path : PathWithLaneId K O}
  {stopLine : LineString2d K} {intersection : LineString2d K → LineString2d K → List (K × K)}
  {i : ℕ} {ratio offset : K} {crossing : K × K}

section

variable (hexact : ExactLengths geometry path)

include hexact

theorem placeAt_le {k : ℕ} (hle : ratio ≤ 1) :
    placeAt geometry path k ratio ≤ positionAt geometry path (k + 1) := by
  rw [← placeAt_one]
  exact add_le_add_right (mul_le_mul_of_nonneg_right hle (segmentLength_nonneg hexact k)) _

theorem isOrdered_zero_iff (hpath : 0 < path.length)
    {position : K} : IsOrdered geometry path position 0 ↔ position ≤ 0 := by
  constructor
  · rintro ⟨-, -, hbehind⟩
    exact hbehind 0 hpath le_rfl
  · intro hle
    refine ⟨hpath.le, nofun, fun k _ _ => hle.trans ?_⟩
    exact positionAt_mono hexact.nonneg (Nat.zero_le k)

theorem isOrdered_succ {k : ℕ} {position : K}
    (hk : k < path.length) (hfront : positionAt geometry path k ≤ position)
    (hback : position ≤ positionAt geometry path (k + 1)) :
    IsOrdered geometry path position (k + 1) := by
  refine ⟨hk, fun j hj => ?_, fun j _ hj => ?_⟩
  · exact (positionAt_mono hexact.nonneg (Nat.le_of_lt_succ hj)).trans hfront
  · exact hback.trans (positionAt_mono hexact.nonneg hj)

theorem targetCreated_backward_iff (hcrossings : FindsCrossings intersection path stopLine)
    (hfirst : IsFirstCrossing intersection path stopLine i ratio crossing) (hoffset : 0 ≤ offset) :
    (∃ target, createTargetPoint geometry intersection path stopLine offset = .ok (some target) ∧
      TargetCreated geometry path (placeAt geometry path i ratio) offset target) ↔
      positionAt geometry path 1 < placeAt geometry path i ratio - offset ∨
        placeAt geometry path i ratio = offset ∨
        placeAt geometry path i ratio < offset ∧
          (offset ≤ 2 * placeAt geometry path i ratio ∨ positionAt geometry path 1 = 0 ∨
            placeAt geometry path i ratio = 0) := by
  obtain ⟨front, back, hfront, hback, -⟩ := id hfirst.on_path
  have hstart := hfirst.backAt hexact hfront hback hoffset
  obtain ⟨walk, k, other, first, second, hwalk, hat, hend⟩ := walkBackward_spec hexact hstart
  have hsearch : searchTarget geometry path offset i (point2d front) (point2d back) crossing =
      .ok walk := by
    rw [searchTarget, if_pos hoffset, hwalk]
  rw [hfirst.exists_target_iff hexact hfront hback hcrossings hsearch]
  have hlt := (List.getElem?_eq_some_iff.mp hat.back_at).1
  have hle := hat.target_le.trans (placeAt_le hexact hat.ratio_le)
  generalize placeAt geometry path i ratio = crossingPosition at *
  rcases hend with ⟨hk, hidx, hbehind⟩ | ⟨rfl, hidx⟩
  · -- the walk has ended before the target, on a segment behind the first one
    have hone : positionAt geometry path 1 ≤ positionAt geometry path k :=
      positionAt_mono hexact.nonneg hk
    have hnonneg : 0 ≤ positionAt geometry path k := positionAt_mono hexact.nonneg (Nat.zero_le k)
    refine ⟨fun _ => .inl (hone.trans_lt hbehind), fun _ => ⟨fun _ => ⟨?_, ?_⟩, fun hneg => ?_⟩⟩
    · obtain ⟨place, hplace⟩ := hat.target hexact hbehind.le
      exact ⟨k, place, hplace⟩
    · rw [hidx]
      exact isOrdered_succ hexact (by omega) hbehind.le hle
    · exact absurd (hnonneg.trans_lt hbehind) hneg.not_gt
  · have hzero : positionAt geometry path 0 = 0 := rfl
    constructor
    · intro hcreated
      rcases lt_or_ge (crossingPosition - offset) 0 with hneg | hnonneg
      · refine .inr (.inr ⟨sub_neg.mp hneg, ?_⟩)
        exact (hat.not_beyond_iff hexact hneg).mp (hcreated.not_beyond hneg first hat.front_at)
      · have hordered := (hcreated.placed hnonneg).2
        rw [hidx, isOrdered_zero_iff hexact (by omega)] at hordered
        exact .inr (.inl (sub_eq_zero.mp (hordered.antisymm hnonneg)))
    · rintro (hgt | hsame | ⟨hneg, hbeyond⟩)
      · exact absurd hle (not_le.mpr hgt)
      · refine ⟨fun hnonneg => ⟨?_, ?_⟩, fun hneg => absurd hneg (by rw [hsame]; simp)⟩
        · obtain ⟨place, hplace⟩ := hat.target hexact (hzero.le.trans hnonneg)
          exact ⟨0, place, hplace⟩
        · rw [hidx, isOrdered_zero_iff hexact (by omega), hsame, sub_self]
      · rw [← sub_neg] at hneg
        refine ⟨fun hnonneg => absurd hneg hnonneg.not_gt, fun _ point hpoint => ?_⟩
        obtain rfl := Option.some.inj (hat.front_at.symm.trans hpoint)
        exact (hat.not_beyond_iff hexact hneg).mpr hbeyond

theorem targetCreated_forward_iff (hcrossings : FindsCrossings intersection path stopLine)
    (hfirst : IsFirstCrossing intersection path stopLine i ratio crossing) (hoffset : offset < 0) :
    (∃ target, createTargetPoint geometry intersection path stopLine offset = .ok (some target) ∧
      TargetCreated geometry path (placeAt geometry path i ratio) offset target) ↔
      placeAt geometry path i ratio - offset < positionAt geometry path (path.length - 2) := by
  obtain ⟨front, back, hfront, hback, hratio, -⟩ := id hfirst.on_path
  have hstart := hfirst.aheadAt hexact hfront hback hoffset.le
  have hi := (List.getElem?_eq_some_iff.mp hback).1
  obtain ⟨walk, k, other, first, second, hwalk, hat, hend⟩ :=
    walkForward_spec hexact (by omega : i + 1 + (path.length - 1 - (i + 1)) + 1 = path.length) hstart
  have hsearch : searchTarget geometry path offset i (point2d front) (point2d back) crossing =
      .ok walk := by
    rw [searchTarget, if_neg (not_le.mpr hoffset), hwalk]
  rw [hfirst.exists_target_iff hexact hfront hback hcrossings hsearch]
  have hcrossing : 0 ≤ placeAt geometry path i ratio :=
    add_nonneg (positionAt_mono hexact.nonneg (Nat.zero_le i))
      (mul_nonneg hratio (segmentLength_nonneg hexact i))
  have hle : positionAt geometry path k ≤ placeAt geometry path i ratio - offset :=
    (le_add_of_nonneg_right (mul_nonneg hat.ratio_nonneg (segmentLength_nonneg hexact k))).trans
      hat.le_target
  have hpositive : 0 < placeAt geometry path i ratio - offset := by linarith
  generalize placeAt geometry path i ratio = crossingPosition at *
  rcases hend with ⟨hk, hidx, hbehind⟩ | ⟨hlast, hidx⟩
  · have hlate : positionAt geometry path (k + 1) ≤ positionAt geometry path (path.length - 2) :=
      positionAt_mono hexact.nonneg (by omega)
    refine ⟨fun _ => hbehind.trans_le hlate, fun _ => ⟨fun _ => ⟨?_, ?_⟩, fun hneg => ?_⟩⟩
    · obtain ⟨place, hplace⟩ := hat.target hexact hbehind
      exact ⟨k, place, hplace⟩
    · rw [hidx]
      exact isOrdered_succ hexact (by omega) hle hbehind.le
    · exact absurd hpositive hneg.not_gt
  · -- the index of a walk to the last segment is that of the first point
    have hsegment : path.length - 2 = k := by omega
    rw [hsegment]
    refine ⟨fun hcreated => ?_, fun hlt => absurd hle (not_le.mpr hlt)⟩
    have hordered := (hcreated.placed hpositive.le).2
    rw [hidx, isOrdered_zero_iff hexact (by omega)] at hordered
    exact absurd hpositive hordered.not_gt

end

/-- The target is created for a positive offset exactly if it lies behind the second point,
or is the first point, or is not put beyond the crossing; and for a negative one exactly if
it lies in front of the last segment. -/
theorem targetCreated_iff (hexact : ExactLengths geometry path)
    (hcrossings : FindsCrossings intersection path stopLine)
    (hfirst : IsFirstCrossing intersection path stopLine i ratio crossing) :
    (∃ target, createTargetPoint geometry intersection path stopLine offset = .ok (some target) ∧
      TargetCreated geometry path (placeAt geometry path i ratio) offset target) ↔
      0 ≤ offset ∧ (positionAt geometry path 1 < placeAt geometry path i ratio - offset ∨
            placeAt geometry path i ratio = offset ∨
            placeAt geometry path i ratio < offset ∧
              (offset ≤ 2 * placeAt geometry path i ratio ∨ positionAt geometry path 1 = 0 ∨
                placeAt geometry path i ratio = 0)) ∨
        offset < 0 ∧
          placeAt geometry path i ratio - offset < positionAt geometry path (path.length - 2) := by
  rcases le_or_gt 0 offset with hoffset | hoffset
  · rw [targetCreated_backward_iff hexact hcrossings hfirst hoffset]
    simp only [hoffset, hoffset.not_gt, true_and, false_and, or_false]
  · rw [targetCreated_forward_iff hexact hcrossings hfirst hoffset]
    simp only [hoffset, hoffset.not_ge, true_and, false_and, false_or]

end

/-! ## A stop line across the road -/

def axisCrossings : LineString2d ℚ → LineString2d ℚ → List (ℚ × ℚ)
  | [front, back], across :: _ =>
    if front.1 ≤ across.1 ∧ across.1 ≤ back.1 then [(across.1, 0)] else []
  | _, _ => []

def road : PathWithLaneId ℚ Unit := alongAxis [0, 10, 20]

def stopLineAcross : LineString2d ℚ := [(18, -5), (18, 5)]

theorem isOnPath_road : IsOnPath road 1 (4 / 5) (18, 0) :=
  ⟨_, _, rfl, rfl, by decide +kernel, by decide +kernel, by decide +kernel⟩

theorem crossings_road {k : ℕ} {front back : PathPointWithLaneId ℚ Unit}
    (hfront : road[k]? = some front) (hback : road[k + 1]? = some back) {point : ℚ × ℚ}
    (hpoint : point ∈ axisCrossings [point2d front, point2d back] stopLineAcross) :
    k = 1 ∧ point = (18, 0) := by
  match k, hfront, hback with
  | 0, hfront, hback =>
    obtain rfl := Option.some.inj hfront
    obtain rfl := Option.some.inj hback
    exact absurd hpoint List.not_mem_nil
  | 1, hfront, hback =>
    obtain rfl := Option.some.inj hfront
    obtain rfl := Option.some.inj hback
    exact ⟨rfl, List.mem_singleton.mp hpoint⟩

theorem findsCrossings_road : FindsCrossings axisCrossings road stopLineAcross := by
  intro i front back hfront hback point hpoint
  obtain ⟨rfl, rfl⟩ := crossings_road hfront hback hpoint
  exact ⟨_, isOnPath_road⟩

theorem isFirstCrossing_road :
    IsFirstCrossing axisCrossings road stopLineAcross 1 (4 / 5) (18, 0) where
  on_path := isOnPath_road
  found := by
    intro front back hfront hback
    obtain rfl := Option.some.inj hfront
    obtain rfl := Option.some.inj hback
    decide +kernel
  first := by
    intro k front back hfront hback point hpoint other hpath
    obtain ⟨rfl, rfl⟩ := crossings_road hfront hback hpoint
    obtain ⟨first, second, hfirst, hsecond, -, -, hsame⟩ := hpath
    obtain rfl := Option.some.inj hfirst
    obtain rfl := Option.some.inj hsecond
    have hx : (18 : ℚ) = 10 + other * (20 - 10) := congrArg Prod.fst hsame
    exact .inr ⟨rfl, by linarith⟩

/-- Three meters before the stop line. -/
theorem targetCreated_second :
    ∃ target, createTargetPoint rationalGeometry axisCrossings road stopLineAcross 3 =
        .ok (some target) ∧
      TargetCreated rationalGeometry road (placeAt rationalGeometry road 1 (4 / 5)) 3 target :=
  (targetCreated_iff (alongAxis_exactLengths [0, 10, 20]) findsCrossings_road
    isFirstCrossing_road).mpr (.inl ⟨by decide +kernel, .inl (by decide +kernel)⟩)

/-- Twelve meters before the stop line the target is put in front of the first point. -/
theorem targetCreated_unordered : ¬ ∀ (path : PathWithLaneId ℚ Unit) (stopLine : LineString2d ℚ)
      (intersection : LineString2d ℚ → LineString2d ℚ → List (ℚ × ℚ)) (i : ℕ) (ratio offset : ℚ)
      (crossing : ℚ × ℚ), ExactLengths rationalGeometry path →
      FindsCrossings intersection path stopLine →
      IsFirstCrossing intersection path stopLine i ratio crossing →
      ∃ target, createTargetPoint rationalGeometry intersection path stopLine offset =
          .ok (some target) ∧
        TargetCreated rationalGeometry path (placeAt rationalGeometry path i ratio) offset
          target := by
  intro hall
  obtain ⟨target, htarget, hcreated⟩ := hall road stopLineAcross axisCrossings 1 (4 / 5) 12 (18, 0)
    (alongAxis_exactLengths [0, 10, 20]) findsCrossings_road isFirstCrossing_road
  have hfound : createTargetPoint rationalGeometry axisCrossings road stopLineAcross 12 =
      .ok (some (0, (6, 0))) := by
    decide +kernel
  obtain rfl := Option.some.inj (Except.ok.inj (hfound.symm.trans htarget))
  have hordered := (hcreated.placed (by decide +kernel)).2.2.2 0 (by decide) le_rfl
  revert hordered
  decide +kernel

end AutowareUniverse.Planning.TrafficLight
