import AutowareUniverse.Library.PrefixSums
import AutowareUniverse.Library.Numerals
import AutowareUniverse.Library.Fallible
import Mathlib.Analysis.Real.Sqrt
import Mathlib.Data.Rat.Sqrt
import Mathlib.Tactic.LinearCombination

/-!
# Points on a trajectory

Searching the point of a trajectory nearest to a position, arc lengths along a trajectory
and interpolation between its points.  Lengths that the source computes as no number,
beside trajectories that have no segment, are `none`.  The square root and the angles of
orientations are parameters.
-/

namespace AutowareUniverse.Common.MotionUtils

open Library.PrefixSums

section

section

inductive Failure where
  | invalidArgument
  | outOfRange
  | notANumber
  deriving DecidableEq

/-- `std::vector::at`. -/
def atIndex {α : Type} (values : List α) (idx : ℕ) : Except Failure α :=
  match values[idx]? with
  | some value => return value
  | none => throw .outOfRange

theorem atIndex_eq_ok {α : Type} {values : List α} {idx : ℕ} {value : α} :
    atIndex values idx = .ok value ↔ values[idx]? = some value := by
  rw [atIndex]
  cases values[idx]? with
  | none =>
    constructor
    · intro hthrow
      cases hthrow
    · intro hnone
      cases hnone
  | some other =>
    constructor
    · intro hok
      exact congrArg some (Except.ok.inj hok)
    · intro hsome
      exact congrArg Except.ok (Option.some.inj hsome)

structure Point (K : Type) where
  x : K
  y : K
  z : K
  deriving DecidableEq

structure Pose (K O : Type) where
  position : Point K
  orientation : O
  deriving DecidableEq

/-- The functions on real numbers and orientations that the geometry uses. -/
structure Trigonometry (K O : Type) where
  sqrt : K → K
  /-- `cos(pi / 4)`. -/
  cosQuarterPi : K
  /-- The elevation and azimuth of the direction from one point to another. -/
  orientationTo : Point K → Point K → O
  calcYawDeviation : Pose K O → Pose K O → K
  isDrivingForward : Pose K O → Pose K O → Bool

variable {K O : Type} [Field K] [LinearOrder K] (geometry : Trigonometry K O)

def calcSquaredDistance2d (p1 p2 : Point K) : K :=
  let dx := p1.x - p2.x
  let dy := p1.y - p2.y
  dx * dx + dy * dy

def calcDistance2d (p1 p2 : Point K) : K :=
  geometry.sqrt (calcSquaredDistance2d p1 p2)

def calcDistance3d (p1 p2 : Point K) : K :=
  geometry.sqrt (calcSquaredDistance2d p1 p2 + (p1.z - p2.z) * (p1.z - p2.z))

def clamp (value low high : K) : K :=
  if value < low then low else if high < value then high else value

def calcInterpolatedPoint (src dst : Point K) (ratio : K) : Point K :=
  let ratio := clamp ratio 0 1
  ⟨src.x + (dst.x - src.x) * ratio, src.y + (dst.y - src.y) * ratio,
    src.z + (dst.z - src.z) * ratio⟩

/-- Whether `validateNonSharpAngle` throws; it does not where two points are equal. -/
def isSharpAngle (p1 p2 p3 : Point K) : Bool :=
  let product :=
    (p2.x - p1.x) * (p2.x - p3.x) + (p2.y - p1.y) * (p2.y - p3.y) + (p2.z - p1.z) * (p2.z - p3.z)
  let dist1to2 := calcDistance3d geometry p1 p2
  let dist3to2 := calcDistance3d geometry p3 p2
  dist1to2 ≠ 0 ∧ dist3to2 ≠ 0 ∧ geometry.cosQuarterPi < product / dist1to2 / dist3to2 + 1 / 1000

/-- `isDrivingForward(points)`. -/
def isDrivingForward : List (Pose K O) → Option Bool
  | first :: second :: _ => some (geometry.isDrivingForward first second)
  | _ => none

/-! ## Nearest points -/

/-- The first index of least distance in the first stretch of points that are not outside. -/
def searchNearest (outside : Pose K O → Bool) (point : Point K) :
    ℕ → Option (K × ℕ) → List (Pose K O) → Option ℕ
  | _, found, [] => found.map Prod.snd
  | i, found, pose :: poses =>
    let squaredDist := calcSquaredDistance2d pose.position point
    match found with
    | none =>
      if outside pose then searchNearest outside point (i + 1) none poses
      else searchNearest outside point (i + 1) (some (squaredDist, i)) poses
    | some (minSquaredDist, minIdx) =>
      if outside pose then some minIdx
      else if minSquaredDist ≤ squaredDist then
        searchNearest outside point (i + 1) (some (minSquaredDist, minIdx)) poses
      else searchNearest outside point (i + 1) (some (squaredDist, i)) poses

variable (poses : List (Pose K O))

def findNearestIndex (point : Point K) : Except Failure ℕ :=
  match searchNearest (fun _ => false) point 0 none poses with
  | some idx => return idx
  | none => throw .invalidArgument

def findFirstNearestIndexWithSoftConstraints (pose : Pose K O)
    (distThreshold yawThreshold : K) : Except Failure ℕ :=
  let isFar (candidate : Pose K O) : Bool :=
    distThreshold * distThreshold < calcSquaredDistance2d candidate.position pose.position
  let isTurned (candidate : Pose K O) : Bool :=
    yawThreshold < |geometry.calcYawDeviation candidate pose|
  match searchNearest (fun candidate => isFar candidate || isTurned candidate)
    pose.position 0 none poses with
  | some idx => return idx
  | none =>
    match searchNearest isFar pose.position 0 none poses with
    | some idx => return idx
    | none => findNearestIndex poses pose.position

/-- With the default yaw threshold, the largest number, no pose is turned too far. -/
def findFirstNearestIndexWithDistThreshold (pose : Pose K O)
    (distThreshold : K) : Except Failure ℕ :=
  let isFar (candidate : Pose K O) : Bool :=
    distThreshold * distThreshold < calcSquaredDistance2d candidate.position pose.position
  match searchNearest isFar pose.position 0 none poses with
  | some idx => return idx
  | none => findNearestIndex poses pose.position

/-- The points after the first ones that repeat the last kept point are dropped. -/
def removeRepeated (last : Pose K O) : List (Pose K O) → List (Pose K O)
  | [] => []
  | pose :: poses =>
    if calcDistance2d geometry last.position pose.position < 1 / 100000000 then
      removeRepeated last poses
    else pose :: removeRepeated pose poses

def removeOverlapPoints (startIdx : ℕ) : List (Pose K O) :=
  match poses[startIdx]? with
  | none => poses
  | some last =>
    poses.take (startIdx + 1) ++ removeRepeated geometry last (poses.drop (startIdx + 1))

def calcLongitudinalOffsetToSegment (segIdx : ℕ)
    (target : Point K) : Option K :=
  let removed := removeOverlapPoints geometry poses segIdx
  match removed[segIdx]?, removed[segIdx + 1]? with
  | some front, some back =>
    let segmentX := back.position.x - front.position.x
    let segmentY := back.position.y - front.position.y
    let dot :=
      segmentX * (target.x - front.position.x) + segmentY * (target.y - front.position.y)
    some (dot / geometry.sqrt (segmentX * segmentX + segmentY * segmentY))
  | _, _ => none

def segmentOfNearest (point : Point K) (nearestIdx : ℕ) : ℕ :=
  if nearestIdx = 0 then 0
  else if nearestIdx = poses.length - 1 then poses.length - 2
  else
    match calcLongitudinalOffsetToSegment geometry poses nearestIdx point with
    | some signedLength => if signedLength ≤ 0 then nearestIdx - 1 else nearestIdx
    | none => nearestIdx

def findNearestSegmentIndex (point : Point K) : Except Failure ℕ := do
  let nearestIdx ← findNearestIndex poses point
  return segmentOfNearest geometry poses point nearestIdx

def findFirstNearestSegmentIndexWithSoftConstraints (pose : Pose K O)
    (distThreshold yawThreshold : K) : Except Failure ℕ := do
  let nearestIdx ←
    findFirstNearestIndexWithSoftConstraints geometry poses pose distThreshold yawThreshold
  return segmentOfNearest geometry poses pose.position nearestIdx

def findFirstNearestSegmentIndexWithDistThreshold (pose : Pose K O)
    (distThreshold : K) : Except Failure ℕ := do
  let nearestIdx ← findFirstNearestIndexWithDistThreshold poses pose distThreshold
  return segmentOfNearest geometry poses pose.position nearestIdx

/-! ## Arc lengths -/

/-- `calcSignedArcLength(points, src_idx, dst_idx)`, from an index to a later one. -/
def calcSignedArcLength (srcIdx dstIdx : ℕ) : K :=
  let points := poses.map Pose.position
  let dists := points.zipWith (calcDistance2d geometry) points.tail
  ((dists.drop srcIdx).take (dstIdx - srcIdx)).sum

/-- `calcSignedArcLength(points, 0, dst_point, dst_seg_idx)`. -/
def calcSignedArcLengthOnSegment (dstPoint : Point K)
    (dstSegIdx : ℕ) : Option K := do
  let offset ← calcLongitudinalOffsetToSegment geometry poses dstSegIdx dstPoint
  return calcSignedArcLength geometry poses 0 dstSegIdx + offset

/-- `calcSignedArcLength(points, 0, dst_point)`. -/
def calcSignedArcLengthToPoint (dstPoint : Point K) : Option K :=
  match findNearestSegmentIndex geometry poses dstPoint with
  | .error _ => some 0
  | .ok dstSegIdx => calcSignedArcLengthOnSegment geometry poses dstPoint dstSegIdx

/-- `calcSignedArcLength(points, src_idx, dst_idx)`, from any index to any other. -/
def calcSignedArcLengthOfIndices (srcIdx dstIdx : ℕ) : K :=
  if dstIdx < srcIdx then -calcSignedArcLength geometry poses dstIdx srcIdx
  else calcSignedArcLength geometry poses srcIdx dstIdx

/-- `calcSignedArcLength(points, src_point, src_seg_idx, dst_point, dst_seg_idx)`. -/
def calcSignedArcLengthOfSegments (srcPoint : Point K) (srcSegIdx : ℕ)
    (dstPoint : Point K) (dstSegIdx : ℕ) : Except Failure (Option K) :=
  if poses.isEmpty then throw .invalidArgument
  else
    return do
      let srcOffset ← calcLongitudinalOffsetToSegment geometry poses srcSegIdx srcPoint
      let dstOffset ← calcLongitudinalOffsetToSegment geometry poses dstSegIdx dstPoint
      return calcSignedArcLengthOfIndices geometry poses srcSegIdx dstSegIdx - srcOffset + dstOffset

/-- `calcSignedArcLength(points, src_point, dst_point)`. -/
def calcSignedArcLengthOfPoints (srcPoint dstPoint : Point K) :
    Option K :=
  match findNearestSegmentIndex geometry poses srcPoint,
    findNearestSegmentIndex geometry poses dstPoint with
  | .ok srcSegIdx, .ok dstSegIdx => do
    let srcOffset ← calcLongitudinalOffsetToSegment geometry poses srcSegIdx srcPoint
    let dstOffset ← calcLongitudinalOffsetToSegment geometry poses dstSegIdx dstPoint
    return calcSignedArcLengthOfIndices geometry poses srcSegIdx dstSegIdx - srcOffset + dstOffset
  | _, _ => some 0

def segmentLengths : List K :=
  lengthsOf (calcDistance2d geometry) (poses.map Pose.position)

/-- The loop of `calcLongitudinalOffsetPoint`, for lengths that are not negative. -/
def offsetPointBehind (srcIdx : ℕ) (offset : K) :
    Except Failure (Option (Point K)) :=
  let lengths := segmentLengths geometry poses
  match findForward lengths offset (lengths.length - srcIdx) srcIdx 0 with
  | none => return none
  | some (idx, distRes) => do
    let front ← atIndex poses idx
    let back ← atIndex poses (idx + 1)
    let distSegment := calcDistance2d geometry front.position back.position
    if distSegment = 0 then throw .notANumber
    else return calcInterpolatedPoint back.position front.position |distRes / distSegment|

/-- `calcLongitudinalOffsetPoint(points, src_idx, offset)`. -/
def calcLongitudinalOffsetPoint (srcIdx : ℕ) (offset : K) :
    Except Failure (Option (Point K)) :=
  if poses.length ≤ 1 ∨ poses.length - 1 < srcIdx then return none
  else if srcIdx + 1 = poses.length ∧ offset = 0 then
    return (← atIndex poses srcIdx).position
  else if offset < 0 then
    offsetPointBehind geometry poses.reverse (poses.length - srcIdx - 1) (-offset)
  else offsetPointBehind geometry poses srcIdx offset

/-- `calcLongitudinalOffsetPoint(points, src_point, offset)`, for lengths that are not
negative. -/
def calcLongitudinalOffsetPointOfPoint (srcPoint : Point K)
    (offset : K) : Except Failure (Option (Point K)) :=
  match findNearestSegmentIndex geometry poses srcPoint with
  | .error _ => return none
  | .ok srcSegIdx =>
    match calcLongitudinalOffsetToSegment geometry poses srcSegIdx srcPoint with
    | none => return none
    | some srcOffset => calcLongitudinalOffsetPoint geometry poses srcSegIdx (offset + srcOffset)

end

/-! ## Distances between points -/

variable {K O : Type} [Field K] [LinearOrder K]

/-- The square root is that of real numbers. -/
structure ExactSqrt (geometry : Trigonometry K O) : Prop where
  nonneg : ∀ value, 0 ≤ value → 0 ≤ geometry.sqrt value
  mul_self : ∀ value, 0 ≤ value → geometry.sqrt value * geometry.sqrt value = value

/-- Points with real coordinates and without orientations. -/
noncomputable def realTrigonometry : Trigonometry ℝ Unit where
  sqrt := Real.sqrt
  cosQuarterPi := Real.sqrt 2 / 2
  orientationTo := fun _ _ => ()
  calcYawDeviation := fun _ _ => 0
  isDrivingForward := fun _ _ => true

theorem realTrigonometry_exactSqrt : ExactSqrt realTrigonometry where
  nonneg := fun value _ => Real.sqrt_nonneg value
  mul_self := fun _ hvalue => Real.mul_self_sqrt hvalue

/-- Rational coordinates, where the square root is exact on squares only. -/
def rationalTrigonometry : Trigonometry ℚ Unit where
  sqrt := Rat.sqrt
  cosQuarterPi := 7071 / 10000
  orientationTo := fun _ _ => ()
  calcYawDeviation := fun _ _ => 0
  isDrivingForward := fun _ _ => true

def poseAt (x y : K) : Pose K Unit :=
  ⟨⟨x, y, 0⟩, ()⟩

def pointOn (first second : Point K) (ratio : K) : Point K :=
  ⟨first.x + (second.x - first.x) * ratio, first.y + (second.y - first.y) * ratio,
    first.z + (second.z - first.z) * ratio⟩

variable [IsStrictOrderedRing K]

section
omit [LinearOrder K] [IsStrictOrderedRing K]

/-- From the other end of the segment the ratio is the rest. -/
theorem pointOn_swap (first second : Point K) (ratio : K) :
    pointOn second first ratio = pointOn first second (1 - ratio) := by
  unfold pointOn
  congr 1 <;> ring

theorem calcDistance2d_comm (geometry : Trigonometry K O) (p1 p2 : Point K) :
    calcDistance2d geometry p1 p2 = calcDistance2d geometry p2 p1 := by
  unfold calcDistance2d calcSquaredDistance2d
  refine congrArg geometry.sqrt ?_
  ring

end

theorem calcSquaredDistance2d_nonneg (p1 p2 : Point K) : 0 ≤ calcSquaredDistance2d p1 p2 :=
  add_nonneg (mul_self_nonneg _) (mul_self_nonneg _)

section

omit [LinearOrder K] [IsStrictOrderedRing K]

variable {poses : List (Pose K O)}

theorem getElem?_segmentLengths (geometry : Trigonometry K O) {idx : ℕ} {front back : Pose K O}
    (hfront : poses[idx]? = some front) (hback : poses[idx + 1]? = some back) :
    (segmentLengths geometry poses)[idx]? =
      some (calcDistance2d geometry front.position back.position) := by
  refine getElem?_lengthsOf ?_ ?_
  · rw [List.getElem?_map, hfront]
    rfl
  · rw [List.getElem?_map, hback]
    rfl

theorem length_segmentLengths (geometry : Trigonometry K O) (poses : List (Pose K O)) :
    (segmentLengths geometry poses).length = poses.length - 1 := by
  rw [segmentLengths, length_lengthsOf, List.length_map]

theorem calcSignedArcLength_eq {geometry : Trigonometry K O} {srcIdx dstIdx : ℕ} (hle : srcIdx ≤ dstIdx) :
    calcSignedArcLength geometry poses srcIdx dstIdx =
      prefixSum (segmentLengths geometry poses) dstIdx -
        prefixSum (segmentLengths geometry poses) srcIdx := by
  obtain ⟨count, rfl⟩ := Nat.exists_eq_add_of_le hle
  have hsplit : (segmentLengths geometry poses).take (srcIdx + count) =
      (segmentLengths geometry poses).take srcIdx ++
        ((segmentLengths geometry poses).drop srcIdx).take count :=
    List.take_add
  unfold prefixSum
  rw [hsplit, List.sum_append, add_sub_cancel_left, calcSignedArcLength, Nat.add_sub_cancel_left]
  rfl

theorem calcSignedArcLength_succ {geometry : Trigonometry K O} {srcIdx idx : ℕ} {front back : Pose K O} (hle : srcIdx ≤ idx)
    (hfront : poses[idx]? = some front) (hback : poses[idx + 1]? = some back) :
    calcSignedArcLength geometry poses srcIdx (idx + 1) =
      calcSignedArcLength geometry poses srcIdx idx +
        calcDistance2d geometry front.position back.position := by
  rw [calcSignedArcLength_eq (hle.trans (Nat.le_succ idx)), calcSignedArcLength_eq hle,
    prefixSum_succ (getElem?_segmentLengths geometry hfront hback)]
  ring

end

omit [IsStrictOrderedRing K] in
theorem segmentLengths_nonneg {geometry : Trigonometry K O}
    (hdist : ∀ p1 p2, 0 ≤ calcDistance2d geometry p1 p2) (poses : List (Pose K O)) :
    ∀ length ∈ segmentLengths geometry poses, 0 ≤ length := by
  intro length hmem
  obtain ⟨i, hi⟩ := List.getElem?_of_mem hmem
  rw [segmentLengths, lengthsOf, List.getElem?_zipWith_eq_some] at hi
  obtain ⟨p1, p2, _, _, rfl⟩ := hi
  exact hdist p1 p2

variable {geometry : Trigonometry K O} (hexact : ExactSqrt geometry)

include hexact

namespace ExactSqrt

theorem eq_of_mul_self {value root : K} (hroot : 0 ≤ root) (hsquare : root * root = value) :
    geometry.sqrt value = root := by
  have hvalue : 0 ≤ value := hsquare ▸ mul_self_nonneg root
  refine (mul_self_inj (hexact.nonneg value hvalue) hroot).mp ?_
  rw [hexact.mul_self value hvalue, hsquare]

theorem calcDistance2d_nonneg (p1 p2 : Point K) : 0 ≤ calcDistance2d geometry p1 p2 :=
  hexact.nonneg _ (calcSquaredDistance2d_nonneg p1 p2)

theorem calcDistance2d_mul_self (p1 p2 : Point K) :
    calcDistance2d geometry p1 p2 * calcDistance2d geometry p1 p2 = calcSquaredDistance2d p1 p2 :=
  hexact.mul_self _ (calcSquaredDistance2d_nonneg p1 p2)

theorem calcDistance2d_pointOn (first second : Point K) {ratio : K} (hratio : 0 ≤ ratio) :
    calcDistance2d geometry first (pointOn first second ratio) =
      ratio * calcDistance2d geometry first second := by
  refine hexact.eq_of_mul_self (mul_nonneg hratio (hexact.calcDistance2d_nonneg _ _)) ?_
  rw [mul_mul_mul_comm, hexact.calcDistance2d_mul_self]
  unfold calcSquaredDistance2d pointOn
  ring

theorem calcDistance2d_pointOn_end (first second : Point K) {ratio : K} (hratio : ratio ≤ 1) :
    calcDistance2d geometry (pointOn first second ratio) second =
      (1 - ratio) * calcDistance2d geometry first second := by
  rw [pointOn_swap second first, calcDistance2d_comm, hexact.calcDistance2d_pointOn second first
    (sub_nonneg.mpr hratio), calcDistance2d_comm geometry second]

end ExactSqrt

end

/-! ## Cropping points -/

open Library.Fallible Library.PrefixSums

variable {K O : Type} [Field K] [LinearOrder K] (geometry : Trigonometry K O)

/-- `forward_length < sum_length`, which may be no number. -/
def exceeds (limit : K) : Option K → Bool
  | some value => limit < value
  | none => false

/-- `sum_length < -backward_length`. -/
def fallsBelow (limit : K) : Option K → Bool
  | some value => value < limit
  | none => false

/-- The loop of `cropForwardPoints`: the index of the first point that is too far ahead. -/
def findForwardEnd (poses : List (Pose K O)) (forwardLength : K) :
    ℕ → ℕ → Option K → Except Failure (Option ℕ)
  | 0, _, _ => return none
  | remaining + 1, i, sumLength => do
    let curr ← atIndex poses i
    let prev ← atIndex poses (i - 1)
    let sumLength := sumLength.map (· + calcDistance2d geometry curr.position prev.position)
    if exceeds forwardLength sumLength then return some i
    else findForwardEnd poses forwardLength remaining (i + 1) sumLength

def cropForwardPoints (poses : List (Pose K O)) (targetPos : Point K) (targetSegIdx : ℕ)
    (forwardLength : K) : Except Failure (List (Pose K O)) :=
  if poses.isEmpty then return []
  else do
    let offset := calcLongitudinalOffsetToSegment geometry poses targetSegIdx targetPos
    let endIdx ← findForwardEnd geometry poses forwardLength (poses.length - (targetSegIdx + 1))
      (targetSegIdx + 1) (offset.map (-·))
    match endIdx with
    | some endIdx => return poses.take endIdx
    | none => return poses

/-- The loop of `cropBackwardPoints`: the index behind the first point that is too far behind. -/
def findBackwardBegin (poses : List (Pose K O)) (backwardLength : K) :
    ℕ → Option K → Except Failure (Option ℕ)
  | 0, _ => return none
  | i + 1, sumLength => do
    let curr ← atIndex poses (i + 1)
    let prev ← atIndex poses i
    let sumLength := sumLength.map (· - calcDistance2d geometry curr.position prev.position)
    if fallsBelow (-backwardLength) sumLength then return some (i + 1)
    else findBackwardBegin poses backwardLength i sumLength

def cropBackwardPoints (poses : List (Pose K O)) (targetPos : Point K) (targetSegIdx : ℕ)
    (backwardLength : K) : Except Failure (List (Pose K O)) :=
  if poses.isEmpty then return []
  else do
    let offset := calcLongitudinalOffsetToSegment geometry poses targetSegIdx targetPos
    let beginIdx ← findBackwardBegin geometry poses backwardLength targetSegIdx (offset.map (-·))
    match beginIdx with
    | some beginIdx => return poses.drop beginIdx
    | none => return poses

/-- `size() - 2` of unsigned numbers with 64 bits. -/
def sizeMinusTwo (size : ℕ) : ℕ :=
  if size < 2 then 2 ^ 64 + size - 2 else size - 2

def cropPoints (poses : List (Pose K O)) (targetPos : Point K) (targetSegIdx : ℕ)
    (forwardLength backwardLength : K) : Except Failure (List (Pose K O)) :=
  if poses.isEmpty then return []
  else do
    let croppedForwardPoints ←
      cropForwardPoints geometry poses targetPos targetSegIdx forwardLength
    let modifiedTargetSegIdx := min targetSegIdx (sizeMinusTwo croppedForwardPoints.length)
    let croppedPoints ←
      cropBackwardPoints geometry croppedForwardPoints targetPos modifiedTargetSegIdx backwardLength
    if croppedPoints.length < 2 then return poses else return croppedPoints

def FarAhead (poses : List (Pose K O)) (targetPos : Point K) (segIdx : ℕ) (length : K)
    (idx : ℕ) : Prop :=
  ∃ offset, calcLongitudinalOffsetToSegment geometry poses segIdx targetPos = some offset ∧
    length < calcSignedArcLength geometry poses segIdx idx - offset

def FarBehind (poses : List (Pose K O)) (targetPos : Point K) (segIdx : ℕ) (length : K)
    (idx : ℕ) : Prop :=
  ∃ offset, calcLongitudinalOffsetToSegment geometry poses segIdx targetPos = some offset ∧
    length < offset + calcSignedArcLength geometry poses idx segIdx

structure LeavesNear (geometry : Trigonometry K O) (poses : List (Pose K O)) (targetPos : Point K)
    (targetSegIdx behindSegIdx : ℕ) (forwardLength backwardLength : K) (first last : ℕ) :
    Prop where
  two : first + 2 ≤ last
  within : last ≤ poses.length
  ahead : ∀ i, last ≤ i → i < poses.length → ∃ j, targetSegIdx < j ∧ j ≤ i ∧
    FarAhead geometry poses targetPos targetSegIdx forwardLength j
  behind : ∀ i, i < first → ∃ j, i ≤ j ∧ j < behindSegIdx ∧
    FarBehind geometry poses targetPos behindSegIdx backwardLength j

variable {geometry} {poses : List (Pose K O)} {targetPos : Point K} {targetSegIdx : ℕ}
variable {forwardLength backwardLength : K}

variable (geometry forwardLength) in
theorem findForwardEnd_cases (offset : Option K)
    {remaining idx : ℕ} (hidx : targetSegIdx ≤ idx) (hremaining : idx + 1 + remaining = poses.length) :
    (findForwardEnd geometry poses forwardLength remaining (idx + 1)
        (offset.map (calcSignedArcLength geometry poses targetSegIdx idx - ·)) = .ok none) ∨
      ∃ endIdx value, findForwardEnd geometry poses forwardLength remaining (idx + 1)
          (offset.map (calcSignedArcLength geometry poses targetSegIdx idx - ·)) =
          .ok (some endIdx) ∧
        targetSegIdx < endIdx ∧ endIdx < poses.length ∧ offset = some value ∧
          forwardLength < calcSignedArcLength geometry poses targetSegIdx endIdx - value := by
  induction remaining generalizing idx with
  | zero => exact .inl rfl
  | succ remaining ih =>
    have hfront := List.getElem?_eq_getElem (show idx < poses.length by omega)
    have hback := List.getElem?_eq_getElem (show idx + 1 < poses.length by omega)
    have hsum : (offset.map (calcSignedArcLength geometry poses targetSegIdx idx - ·)).map
        (· + calcDistance2d geometry poses[idx + 1].position poses[idx].position) =
        offset.map (calcSignedArcLength geometry poses targetSegIdx (idx + 1) - ·) := by
      rw [Option.map_map]
      refine congrFun (congrArg Option.map (funext fun value => ?_)) offset
      rw [calcSignedArcLength_succ hidx hfront hback,
        calcDistance2d_comm geometry poses[idx].position]
      exact sub_add_eq_add_sub _ _ _
    have hstep : findForwardEnd geometry poses forwardLength (remaining + 1) (idx + 1)
        (offset.map (calcSignedArcLength geometry poses targetSegIdx idx - ·)) =
        if exceeds forwardLength
          (offset.map (calcSignedArcLength geometry poses targetSegIdx (idx + 1) - ·)) then
          .ok (some (idx + 1))
        else findForwardEnd geometry poses forwardLength remaining (idx + 1 + 1)
          (offset.map (calcSignedArcLength geometry poses targetSegIdx (idx + 1) - ·)) := by
      rw [findForwardEnd, Nat.add_sub_cancel, atIndex_eq_ok.mpr hback, atIndex_eq_ok.mpr hfront,
        ← hsum]
      rfl
    rw [hstep]
    split_ifs with hfar
    · cases offset with
      | none => cases hfar
      | some value =>
        exact .inr ⟨idx + 1, value, rfl, by omega, by omega, rfl, of_decide_eq_true hfar⟩
    · exact ih (by omega) (by omega)

omit [LinearOrder K] in
theorem calcSignedArcLength_front {idx dstIdx : ℕ} {front back : Pose K O} (hlt : idx < dstIdx)
    (hfront : poses[idx]? = some front) (hback : poses[idx + 1]? = some back) :
    calcSignedArcLength geometry poses idx dstIdx =
      calcDistance2d geometry front.position back.position +
        calcSignedArcLength geometry poses (idx + 1) dstIdx := by
  rw [calcSignedArcLength_eq hlt.le, calcSignedArcLength_eq hlt,
    prefixSum_succ (getElem?_segmentLengths geometry hfront hback)]
  ring

variable [IsStrictOrderedRing K]

variable (geometry backwardLength) in
/-- Behind the target the search ends behind a point that is too far, or not at all. -/
theorem findBackwardBegin_cases (offset : Option K) {idx segIdx : ℕ} (hidx : idx ≤ segIdx)
    (hsegment : segIdx < poses.length) :
    (findBackwardBegin geometry poses backwardLength idx
        (offset.map (-· - calcSignedArcLength geometry poses idx segIdx)) = .ok none) ∨
      ∃ farIdx value, findBackwardBegin geometry poses backwardLength idx
          (offset.map (-· - calcSignedArcLength geometry poses idx segIdx)) =
          .ok (some (farIdx + 1)) ∧
        farIdx < idx ∧ offset = some value ∧
          backwardLength < value + calcSignedArcLength geometry poses farIdx segIdx := by
  induction idx with
  | zero => exact .inl rfl
  | succ idx ih =>
    have hfront := List.getElem?_eq_getElem (show idx < poses.length by omega)
    have hback := List.getElem?_eq_getElem (show idx + 1 < poses.length by omega)
    have hsum : (offset.map (-· - calcSignedArcLength geometry poses (idx + 1) segIdx)).map
        (· - calcDistance2d geometry poses[idx + 1].position poses[idx].position) =
        offset.map (-· - calcSignedArcLength geometry poses idx segIdx) := by
      rw [Option.map_map]
      refine congrFun (congrArg Option.map (funext fun value => ?_)) offset
      rw [calcSignedArcLength_front hidx hfront hback,
        calcDistance2d_comm geometry poses[idx].position, Function.comp_apply, sub_sub, add_comm]
    have hstep : findBackwardBegin geometry poses backwardLength (idx + 1)
        (offset.map (-· - calcSignedArcLength geometry poses (idx + 1) segIdx)) =
        if fallsBelow (-backwardLength)
          (offset.map (-· - calcSignedArcLength geometry poses idx segIdx)) then
          .ok (some (idx + 1))
        else findBackwardBegin geometry poses backwardLength idx
          (offset.map (-· - calcSignedArcLength geometry poses idx segIdx)) := by
      rw [findBackwardBegin, atIndex_eq_ok.mpr hback, atIndex_eq_ok.mpr hfront, ← hsum]
      rfl
    rw [hstep]
    split_ifs with hfar
    · cases offset with
      | none => cases hfar
      | some value =>
        refine .inr ⟨idx, value, rfl, Nat.lt_succ_self idx, rfl, ?_⟩
        have hbelow : -value - calcSignedArcLength geometry poses idx segIdx < -backwardLength :=
          of_decide_eq_true hfar
        linarith
    · rcases ih (by omega) with hnone | ⟨farIdx, value, hfound, hlt, hvalue, hfarther⟩
      · exact .inl hnone
      · exact .inr ⟨farIdx, value, hfound, by omega, hvalue, hfarther⟩

section
omit [IsStrictOrderedRing K]

theorem removeRepeated_take_isPrefix (last : Pose K O) (poses : List (Pose K O)) (count : ℕ) :
    removeRepeated geometry last (poses.take count) <+: removeRepeated geometry last poses := by
  induction poses generalizing last count with
  | nil => rw [List.take_nil]
  | cons first rest ih =>
    cases count with
    | zero => exact List.nil_prefix
    | succ count =>
      rw [List.take_succ_cons, removeRepeated, removeRepeated]
      split_ifs with hnear
      · exact ih last count
      · exact List.prefix_cons_inj first |>.mpr (ih first count)

theorem calcLongitudinalOffsetToSegment_take {count segIdx : ℕ} {offset : K}
    (hsize : segIdx < count) (hcount : count ≤ poses.length)
    (hoffset : calcLongitudinalOffsetToSegment geometry (poses.take count) segIdx targetPos =
      some offset) :
    calcLongitudinalOffsetToSegment geometry poses segIdx targetPos = some offset := by
  have hlast := List.getElem?_eq_getElem (show segIdx < poses.length by omega)
  have hlastTake : (poses.take count)[segIdx]? = some poses[segIdx] := by
    rw [List.getElem?_take, if_pos hsize, hlast]
  have hprefix : removeOverlapPoints geometry (poses.take count) segIdx <+:
      removeOverlapPoints geometry poses segIdx := by
    rw [removeOverlapPoints, hlastTake, removeOverlapPoints, hlast]
    dsimp only
    rw [List.take_take, Nat.min_eq_left (show segIdx + 1 ≤ count by omega), List.drop_take]
    exact List.prefix_append_right_inj _ |>.mpr (removeRepeated_take_isPrefix _ _ _)
  unfold calcLongitudinalOffsetToSegment at hoffset ⊢
  dsimp only at hoffset ⊢
  split at hoffset
  · next front back hfront hback =>
      obtain ⟨rest, hrest⟩ := hprefix
      rw [← hrest, List.getElem?_append_left (List.getElem?_eq_some_iff.mp hfront).1,
        List.getElem?_append_left (List.getElem?_eq_some_iff.mp hback).1, hfront, hback]
      exact hoffset
  · cases hoffset

end

omit [LinearOrder K] [IsStrictOrderedRing K] in
theorem calcSignedArcLength_take {count srcIdx dstIdx : ℕ} (hle : srcIdx ≤ dstIdx)
    (hdst : dstIdx < count) :
    calcSignedArcLength geometry (poses.take count) srcIdx dstIdx =
      calcSignedArcLength geometry poses srcIdx dstIdx := by
  have hposition {idx : ℕ} (hidx : idx < count) :
      prefixSum (segmentLengths geometry (poses.take count)) idx =
        prefixSum (segmentLengths geometry poses) idx := by
    unfold prefixSum segmentLengths lengthsOf
    rw [List.map_take, ← List.drop_one, ← List.drop_one, List.drop_take, List.take_zipWith, List.take_zipWith, List.take_take,
      List.take_take, Nat.min_eq_left hidx.le, Nat.min_eq_left (Nat.le_sub_one_of_lt hidx)]
  rw [calcSignedArcLength_eq hle, calcSignedArcLength_eq hle, hposition hdst,
    hposition (hle.trans_lt hdst)]

/-! ## Cropping -/

omit [IsStrictOrderedRing K] in
variable (geometry targetPos forwardLength) in
theorem cropForwardPoints_take (hsize : targetSegIdx + 1 < poses.length) :
    ∃ last, cropForwardPoints geometry poses targetPos targetSegIdx forwardLength =
        .ok (poses.take last) ∧ targetSegIdx < last ∧ last ≤ poses.length ∧
      (last < poses.length → FarAhead geometry poses targetPos targetSegIdx forwardLength last) := by
  have hnonempty : poses.isEmpty = false :=
    List.isEmpty_eq_false_iff.mpr (List.ne_nil_of_length_pos (by omega))
  have hstart : (calcLongitudinalOffsetToSegment geometry poses targetSegIdx targetPos).map (-·) =
      (calcLongitudinalOffsetToSegment geometry poses targetSegIdx targetPos).map
        (calcSignedArcLength geometry poses targetSegIdx targetSegIdx - ·) := by
    rw [calcSignedArcLength_eq le_rfl, sub_self]
    refine congrFun (congrArg Option.map (funext fun value => ?_)) _
    exact (zero_sub value).symm
  unfold cropForwardPoints
  dsimp only
  rw [hnonempty, if_neg Bool.false_ne_true, hstart]
  rcases findForwardEnd_cases geometry forwardLength
      (calcLongitudinalOffsetToSegment geometry poses targetSegIdx targetPos) le_rfl (show
        targetSegIdx + 1 + (poses.length - (targetSegIdx + 1)) = poses.length by omega)
    with hnone | ⟨endIdx, value, hfound, hlt, hend, hvalue, hfar⟩
  · refine ⟨poses.length, ?_, by omega, le_rfl, fun hlt => absurd hlt (lt_irrefl _)⟩
    rw [hnone, List.take_length]
    rfl
  · refine ⟨endIdx, ?_, hlt, hend.le, fun _ => ⟨value, hvalue, hfar⟩⟩
    rw [hfound]
    rfl

variable (geometry targetPos backwardLength) in
theorem cropBackwardPoints_drop {segIdx : ℕ} (hsize : segIdx < poses.length) :
    ∃ first, cropBackwardPoints geometry poses targetPos segIdx backwardLength =
        .ok (poses.drop first) ∧ first ≤ segIdx ∧
      (0 < first → FarBehind geometry poses targetPos segIdx backwardLength (first - 1)) := by
  have hnonempty : poses.isEmpty = false :=
    List.isEmpty_eq_false_iff.mpr (List.ne_nil_of_length_pos (by omega))
  have hstart : (calcLongitudinalOffsetToSegment geometry poses segIdx targetPos).map (-·) =
      (calcLongitudinalOffsetToSegment geometry poses segIdx targetPos).map
        (-· - calcSignedArcLength geometry poses segIdx segIdx) := by
    rw [calcSignedArcLength_eq le_rfl, sub_self]
    refine congrFun (congrArg Option.map (funext fun value => ?_)) _
    exact (sub_zero (-value)).symm
  unfold cropBackwardPoints
  dsimp only
  rw [hnonempty, if_neg Bool.false_ne_true, hstart]
  rcases findBackwardBegin_cases geometry backwardLength
      (calcLongitudinalOffsetToSegment geometry poses segIdx targetPos) le_rfl hsize
    with hnone | ⟨farIdx, value, hfound, hlt, hvalue, hfar⟩
  · refine ⟨0, ?_, Nat.zero_le _, fun hlt => absurd hlt (lt_irrefl _)⟩
    rw [hnone]
    rfl
  · refine ⟨farIdx + 1, ?_, hlt, fun _ => ⟨value, hvalue, hfar⟩⟩
    rw [hfound]
    rfl

inductive OffsetFailure where
  | invalidArgument (what : String)
  | runtimeError (what : String)
  | outOfRange
  deriving DecidableEq

variable {K O : Type} [Field K] [LinearOrder K] (geometry : Trigonometry K O)

/-- An error that is thrown on request; otherwise the result is not a number. -/
def raise (throwException : Bool) (e : OffsetFailure) : Except OffsetFailure (Option K) :=
  if throwException then throw e else return none

/-- `std::vector::at` of the points that remain. -/
def pointAt (poses : List (Pose K O)) (idx : ℕ) : Except OffsetFailure (Point K) :=
  match poses[idx]? with
  | some pose => return pose.position
  | none => throw .outOfRange

def offsetFromLine (front back target : Point K) : K :=
  let segmentX := back.x - front.x
  let segmentY := back.y - front.y
  let cross := segmentX * (target.y - front.y) - segmentY * (target.x - front.x)
  cross / geometry.sqrt (segmentX * segmentX + segmentY * segmentY)

def calcLateralOffset (poses : List (Pose K O)) (target : Point K) (segIdx : ℕ)
    (throwException : Bool) : Except OffsetFailure (Option K) :=
  let overlapRemovedPoints := removeOverlapPoints geometry poses 0
  if overlapRemovedPoints.isEmpty then
    raise throwException (.invalidArgument "Points is empty.")
  else if overlapRemovedPoints.length = 1 then
    raise throwException (.runtimeError "Same points are given.")
  else do
    let front ← pointAt overlapRemovedPoints segIdx
    let back ← pointAt overlapRemovedPoints (segIdx + 1)
    return some (offsetFromLine geometry front back target)

/-! ## Points that remain -/

/-- The remaining points, by number and index: the first point, and after each remaining point
the first one that is not too close to it. -/
inductive Remains (poses : List (Pose K O)) : ℕ → ℕ → Prop where
  | first : Remains poses 0 0
  | next {number i j : ℕ} {last pose : Pose K O} (remains : Remains poses number i) (behind : i < j)
      (last_eq : poses[i]? = some last) (pose_eq : poses[j]? = some pose)
      (far : 1 / 100000000 ≤ calcDistance2d geometry last.position pose.position)
      (close : ∀ k other, i < k → k < j → poses[k]? = some other →
        calcDistance2d geometry last.position other.position < 1 / 100000000) :
      Remains poses (number + 1) j

variable {geometry} {poses : List (Pose K O)} {last : Pose K O}

theorem removeRepeated_of_close {j : ℕ} (hfar : ∀ pose : Pose K O, poses[j]? = some pose →
      1 / 100000000 ≤ calcDistance2d geometry last.position pose.position)
    (hclose : ∀ (k : ℕ) (other : Pose K O), k < j → poses[k]? = some other →
      calcDistance2d geometry last.position other.position < 1 / 100000000) :
    removeRepeated geometry last poses =
      match poses[j]? with
      | some pose => pose :: removeRepeated geometry pose (poses.drop (j + 1))
      | none => [] := by
  induction poses generalizing j with
  | nil => rfl
  | cons first rest ih =>
    cases j with
    | zero =>
      rw [removeRepeated, if_neg (not_lt.mpr (hfar first rfl))]
      rfl
    | succ j =>
      rw [removeRepeated, if_pos (hclose 0 first (Nat.succ_pos j) rfl)]
      exact ih hfar fun k other hk hother => hclose (k + 1) other (Nat.succ_lt_succ hk) hother

theorem exists_first_far (last : Pose K O) (poses : List (Pose K O)) :
    ∃ j : ℕ, (∀ pose : Pose K O, poses[j]? = some pose →
        1 / 100000000 ≤ calcDistance2d geometry last.position pose.position) ∧
      ∀ (k : ℕ) (other : Pose K O), k < j → poses[k]? = some other →
        calcDistance2d geometry last.position other.position < 1 / 100000000 := by
  induction poses with
  | nil => exact ⟨0, fun _ hmem => (nomatch hmem), fun k _ hk => absurd hk (Nat.not_lt_zero k)⟩
  | cons first rest ih =>
    by_cases hfirst : calcDistance2d geometry last.position first.position < 1 / 100000000
    · obtain ⟨j, hfar, hclose⟩ := ih
      refine ⟨j + 1, hfar, fun k other hk hother => ?_⟩
      cases k with
      | zero =>
        cases hother
        exact hfirst
      | succ k => exact hclose k other (Nat.lt_of_succ_lt_succ hk) hother
    · refine ⟨0, fun pose hmem => ?_, fun k _ hk => absurd hk (Nat.not_lt_zero k)⟩
      cases hmem
      exact not_lt.mp hfirst

theorem Remains.removeOverlapPoints_drop {number i : ℕ} (hremains : Remains geometry poses number i)
    (hlast : poses[i]? = some last) :
    (removeOverlapPoints geometry poses 0).drop number =
      last :: removeRepeated geometry last (poses.drop (i + 1)) := by
  induction hremains generalizing last with
  | first =>
    cases poses with
    | nil => cases hlast
    | cons first rest =>
      cases hlast
      rfl
  | @next number i j prev pose remains behind prev_eq pose_eq far close ih =>
    rw [pose_eq] at hlast
    cases hlast
    have hpose : (poses.drop (i + 1))[j - (i + 1)]? = some pose := by
      rw [List.getElem?_drop, Nat.add_sub_cancel' behind, pose_eq]
    rw [← List.drop_drop, ih prev_eq, List.drop_one, List.tail_cons,
      @removeRepeated_of_close K O _ _ geometry (poses.drop (i + 1)) prev (j - (i + 1)), hpose]
    · dsimp only
      rw [List.drop_drop, ← Nat.add_assoc, Nat.add_sub_cancel' behind]
    · intro other hother
      rw [hpose] at hother
      cases hother
      exact far
    · intro k other hk hother
      rw [List.getElem?_drop] at hother
      exact close _ other (by omega) (by omega) hother

theorem removeOverlapPoints_getElem?_iff {number : ℕ} {pose : Pose K O} :
    (removeOverlapPoints geometry poses 0)[number]? = some pose ↔
      ∃ i, Remains geometry poses number i ∧ poses[i]? = some pose := by
  constructor
  · intro hpose
    induction number generalizing pose with
    | zero =>
      refine ⟨0, .first, ?_⟩
      cases poses with
      | nil => cases hpose
      | cons first rest => exact hpose
    | succ number ih =>
      have hlength := (List.getElem?_eq_some_iff.mp hpose).1
      obtain ⟨i, hremains, hlast⟩ := ih (List.getElem?_eq_getElem (Nat.lt_of_succ_lt hlength))
      have hdrop := hremains.removeOverlapPoints_drop hlast
      obtain ⟨j, hfar, hclose⟩ := @exists_first_far K O _ _ geometry
        (removeOverlapPoints geometry poses 0)[number] (poses.drop (i + 1))
      rw [removeRepeated_of_close hfar hclose] at hdrop
      have hnext : (poses.drop (i + 1))[j]? = some pose := by
        have hsecond := congrArg (fun rest : List (Pose K O) => rest[1]?) hdrop
        rw [List.getElem?_drop, hpose] at hsecond
        cases hj : (poses.drop (i + 1))[j]? with
        | none =>
          rw [hj] at hsecond
          cases hsecond
        | some other =>
          rw [hj] at hsecond
          exact hsecond.symm
      have hpose' := hnext
      rw [List.getElem?_drop] at hpose'
      refine ⟨i + 1 + j, .next hremains (by omega) hlast hpose' (hfar pose hnext) ?_, hpose'⟩
      intro k other hik hkj hother
      refine hclose (k - (i + 1)) other (by omega) ?_
      rw [List.getElem?_drop, Nat.add_sub_cancel' hik, hother]
  · rintro ⟨i, hremains, hpose⟩
    have hfirst := congrArg (fun rest : List (Pose K O) => rest[0]?)
      (hremains.removeOverlapPoints_drop hpose)
    rwa [List.getElem?_drop] at hfirst

theorem removeOverlapPoints_apart {number : ℕ} {first second : Pose K O}
    (hfirst : (removeOverlapPoints geometry poses 0)[number]? = some first)
    (hsecond : (removeOverlapPoints geometry poses 0)[number + 1]? = some second) :
    1 / 100000000 ≤ calcDistance2d geometry first.position second.position := by
  obtain ⟨j, hremains, hj⟩ := removeOverlapPoints_getElem?_iff.mp hsecond
  cases hremains with
  | next remains behind last_eq pose_eq far close =>
    have hlast := removeOverlapPoints_getElem?_iff.mpr ⟨_, remains, last_eq⟩
    rw [hfirst] at hlast
    rw [hj] at pose_eq
    cases hlast
    cases pose_eq
    exact far

/-! ## The offset from the segment -/

structure OnDirectedLine (front back first second : Point K) : Prop where
  on : (back.x - front.x) * (first.y - front.y) = (back.y - front.y) * (first.x - front.x)
  parallel : (back.x - front.x) * (second.y - first.y) = (back.y - front.y) * (second.x - first.x)
  forward : 0 < (back.x - front.x) * (second.x - first.x) + (back.y - front.y) * (second.y - first.y)

def SameLineRemains (geometry : Trigonometry K O) (poses : List (Pose K O)) (segIdx : ℕ)
    (front back : Pose K O) : Prop :=
  ∃ (i j : ℕ) (first second : Pose K O), Remains geometry poses segIdx i ∧
    Remains geometry poses (segIdx + 1) j ∧ poses[i]? = some first ∧ poses[j]? = some second ∧
      OnDirectedLine front.position back.position first.position second.position

omit [Field K] [LinearOrder K] in
theorem pointAt_eq_ok {idx : ℕ} {point : Point K} :
    pointAt poses idx = .ok point ↔ ∃ pose, poses[idx]? = some pose ∧ pose.position = point := by
  unfold pointAt
  cases poses[idx]? with
  | none =>
    constructor
    · intro hthrow
      cases hthrow
    · rintro ⟨_, hnone, _⟩
      cases hnone
  | some pose =>
    constructor
    · intro hok
      exact ⟨pose, rfl, Except.ok.inj hok⟩
    · rintro ⟨_, hsome, rfl⟩
      cases hsome
      rfl

/-- A number is returned if and only if two points remain for the index. -/
theorem calcLateralOffset_eq_some {target : Point K} {segIdx : ℕ} {throwException : Bool}
    {offset : K} :
    calcLateralOffset geometry poses target segIdx throwException = .ok (some offset) ↔
      ∃ first second : Pose K O, (removeOverlapPoints geometry poses 0)[segIdx]? = some first ∧
        (removeOverlapPoints geometry poses 0)[segIdx + 1]? = some second ∧
          offsetFromLine geometry first.position second.position target = offset := by
  have hraise (e : OffsetFailure) :
      raise throwException e ≠ (.ok (some offset) : Except OffsetFailure (Option K)) := by
    cases throwException <;> exact nofun
  rw [calcLateralOffset]
  constructor
  · intro hoffset
    split_ifs at hoffset
    · exact absurd hoffset (hraise _)
    · exact absurd hoffset (hraise _)
    obtain ⟨_, hfront, hoffset⟩ := bind_eq_ok.mp hoffset
    obtain ⟨_, hback, hoffset⟩ := bind_eq_ok.mp hoffset
    obtain ⟨first, hfirst, rfl⟩ := pointAt_eq_ok.mp hfront
    obtain ⟨second, hsecond, rfl⟩ := pointAt_eq_ok.mp hback
    exact ⟨first, second, hfirst, hsecond, Option.some.inj (Except.ok.inj hoffset)⟩
  · rintro ⟨first, second, hfirst, hsecond, rfl⟩
    have hlength := (List.getElem?_eq_some_iff.mp hsecond).1
    have hnonempty : (removeOverlapPoints geometry poses 0).isEmpty = false := by
      rw [List.isEmpty_eq_false_iff]
      exact List.ne_nil_of_length_pos (by omega)
    rw [hnonempty, if_neg Bool.false_ne_true, if_neg (by omega)]
    exact bind_eq_ok.mpr ⟨first.position, pointAt_eq_ok.mpr ⟨first, hfirst, rfl⟩,
      bind_eq_ok.mpr ⟨second.position, pointAt_eq_ok.mpr ⟨second, hsecond, rfl⟩, rfl⟩⟩

variable [IsStrictOrderedRing K]

theorem offsetFromLine_eq_iff (hexact : ExactSqrt geometry) {front back first second : Point K}
    (hsegment : 0 < calcDistance2d geometry front back)
    (hother : 0 < calcDistance2d geometry first second) :
    (∀ target, offsetFromLine geometry first second target =
        offsetFromLine geometry front back target) ↔ OnDirectedLine front back first second := by
  have hlength : calcDistance2d geometry front back * calcDistance2d geometry front back =
      (back.x - front.x) * (back.x - front.x) + (back.y - front.y) * (back.y - front.y) := by
    rw [hexact.calcDistance2d_mul_self, calcSquaredDistance2d]
    ring
  have hlengthOther : calcDistance2d geometry first second * calcDistance2d geometry first second =
      (second.x - first.x) * (second.x - first.x) +
        (second.y - first.y) * (second.y - first.y) := by
    rw [hexact.calcDistance2d_mul_self, calcSquaredDistance2d]
    ring
  have hsqrt := hexact.eq_of_mul_self hsegment.le hlength
  have hsqrtOther := hexact.eq_of_mul_self hother.le hlengthOther
  unfold offsetFromLine
  simp only [hsqrt, hsqrtOther]
  generalize calcDistance2d geometry front back = length at *
  generalize calcDistance2d geometry first second = lengthOther at *
  have hpos : 0 < length * lengthOther := mul_pos hsegment hother
  constructor
  · intro hsame
    have hcross (target : Point K) :
        ((second.x - first.x) * (target.y - first.y) - (second.y - first.y) * (target.x - first.x)) *
            length =
          ((back.x - front.x) * (target.y - front.y) - (back.y - front.y) * (target.x - front.x)) *
            lengthOther :=
      (div_eq_div_iff hother.ne' hsegment.ne').mp (hsame target)
    -- The first point, and the points beside it along the segment and across it.
    have hon := hcross first
    have halong := hcross ⟨first.x + (back.x - front.x), first.y + (back.y - front.y), 0⟩
    have hacross := hcross ⟨first.x - (back.y - front.y), first.y + (back.x - front.x), 0⟩
    have hon' : (back.x - front.x) * (first.y - front.y) =
        (back.y - front.y) * (first.x - front.x) := by
      refine mul_right_cancel₀ hother.ne' ?_
      linear_combination -hon
    refine ⟨hon', ?_, ?_⟩
    · refine mul_right_cancel₀ hsegment.ne' ?_
      dsimp only at halong
      linear_combination -halong - lengthOther * hon'
    · dsimp only at hacross
      have hproduct : ((back.x - front.x) * (second.x - first.x) +
          (back.y - front.y) * (second.y - first.y)) * length = length * length * lengthOther := by
        rw [hlength]
        linear_combination hacross + lengthOther * hon'
      refine (mul_pos_iff_of_pos_right hsegment).mp (lt_of_lt_of_eq ?_ hproduct.symm)
      exact mul_pos (mul_pos hsegment hsegment) hother
  · rintro ⟨hon, hparallel, hforward⟩ target
    -- The product of the directions is the product of the lengths.
    have hproduct : (back.x - front.x) * (second.x - first.x) +
        (back.y - front.y) * (second.y - first.y) = length * lengthOther := by
      refine (mul_self_inj hforward.le hpos.le).mp ?_
      rw [mul_mul_mul_comm, hlength, hlengthOther]
      linear_combination -((back.x - front.x) * (second.y - first.y) -
        (back.y - front.y) * (second.x - first.x)) * hparallel
    refine (div_eq_div_iff hother.ne' hsegment.ne').mpr (mul_right_cancel₀ hsegment.ne' ?_)
    linear_combination ((second.x - first.x) * (target.y - first.y) -
        (second.y - first.y) * (target.x - first.x)) * hlength +
      ((back.x - front.x) * (target.y - first.y) -
        (back.y - front.y) * (target.x - first.x)) * hproduct -
      ((back.x - front.x) * (target.x - first.x) +
        (back.y - front.y) * (target.y - first.y)) * hparallel - lengthOther * length * hon

/-- The offset from the segment asked for is returned if and only if the segment with its index
among the remaining points is on the same line, in the same direction. -/
theorem calcLateralOffset_iff (hexact : ExactSqrt geometry) {segIdx : ℕ}
    (hsize : segIdx + 1 < poses.length) (hapart : 1 / 100000000 ≤
      calcDistance2d geometry poses[segIdx].position poses[segIdx + 1].position)
    (throwException : Bool) :
    (∀ target, calcLateralOffset geometry poses target segIdx throwException =
        .ok (some (offsetFromLine geometry poses[segIdx].position poses[segIdx + 1].position
          target))) ↔
      SameLineRemains geometry poses segIdx poses[segIdx] poses[segIdx + 1] := by
  have hpos {length : K} (hlength : 1 / 100000000 ≤ length) : 0 < length :=
    lt_of_lt_of_le (by norm_num) hlength
  constructor
  · intro hoffset
    obtain ⟨first, second, hfirst, hsecond, _⟩ :=
      calcLateralOffset_eq_some.mp (hoffset poses[segIdx].position)
    obtain ⟨i, hi, hfirstAt⟩ := removeOverlapPoints_getElem?_iff.mp hfirst
    obtain ⟨j, hj, hsecondAt⟩ := removeOverlapPoints_getElem?_iff.mp hsecond
    refine ⟨i, j, first, second, hi, hj, hfirstAt, hsecondAt, ?_⟩
    refine (offsetFromLine_eq_iff hexact (hpos hapart)
      (hpos (removeOverlapPoints_apart hfirst hsecond))).mp fun target => ?_
    obtain ⟨other, others, hother, hothers, heq⟩ := calcLateralOffset_eq_some.mp (hoffset target)
    rw [hfirst] at hother
    rw [hsecond] at hothers
    cases hother
    cases hothers
    exact heq
  · rintro ⟨i, j, first, second, hi, hj, hfirstAt, hsecondAt, hline⟩ target
    have hfirst := removeOverlapPoints_getElem?_iff.mpr ⟨i, hi, hfirstAt⟩
    have hsecond := removeOverlapPoints_getElem?_iff.mpr ⟨j, hj, hsecondAt⟩
    refine calcLateralOffset_eq_some.mpr ⟨first, second, hfirst, hsecond, ?_⟩
    exact (offsetFromLine_eq_iff hexact (hpos hapart)
      (hpos (removeOverlapPoints_apart hfirst hsecond))).mpr hline target

theorem calcLateralOffset_segment :
    (∀ target, calcLateralOffset realTrigonometry [poseAt 0 0, poseAt 10 0] target 0 false =
        .ok (some (offsetFromLine realTrigonometry ⟨0, 0, 0⟩ ⟨10, 0, 0⟩ target))) ↔
      SameLineRemains realTrigonometry [poseAt 0 0, poseAt 10 0] 0 (poseAt 0 0) (poseAt 10 0) := by
  refine @calcLateralOffset_iff ℝ Unit _ _ realTrigonometry [poseAt 0 0, poseAt 10 0] _
    realTrigonometry_exactSqrt 0 (by decide) ?_ false
  have hten : calcDistance2d realTrigonometry (⟨0, 0, 0⟩ : Point ℝ) ⟨10, 0, 0⟩ = 10 :=
    realTrigonometry_exactSqrt.eq_of_mul_self (by norm_num) (by norm_num [calcSquaredDistance2d])
  exact le_of_le_of_eq (by norm_num) hten.symm

/-- A repeated point before the segment: the offset is that from the next segment, and for the
last segment the index is out of range. -/
theorem calcLateralOffset_repeated :
    offsetFromLine rationalTrigonometry ⟨0, 0, 0⟩ ⟨10, 0, 0⟩ ⟨5, 1, 0⟩ = 1 ∧
      calcLateralOffset rationalTrigonometry
        [poseAt 0 0, poseAt 0 0, poseAt 10 0, poseAt 10 10] ⟨5, 1, 0⟩ 1 false = .ok (some 5) ∧
      calcLateralOffset rationalTrigonometry
        [poseAt 0 0, poseAt 0 0, poseAt 10 0, poseAt 10 10] ⟨5, 1, 0⟩ 2 false =
          .error .outOfRange := by
  decide +kernel

end AutowareUniverse.Common.MotionUtils
