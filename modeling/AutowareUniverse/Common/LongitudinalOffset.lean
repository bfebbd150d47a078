import AutowareUniverse.Library.KeyedList
import AutowareUniverse.Planning.SlowDownTrajectory

/-!
# Longitudinal offsets

The point and the pose at a length along a trajectory, from one of its points.  The pose is
searched for by two loops with opposite ratios, the point by one loop on the reversed list;
both positions are the point that is reached by walking along the trajectory.  Only at a
length of zero the search divides by the length of a segment that may be zero.
-/

namespace AutowareUniverse.Common.MotionUtils

section

open Library.Fallible Library.PrefixSums

structure PoseGeometry (K O : Type) extends Trigonometry K O where
  slerp : O → O → K → O

variable {K O : Type} [Field K] [LinearOrder K] (geometry : PoseGeometry K O)

def calcInterpolatedPose (src dst : Pose K O) (ratio : K)
    (setOrientationFromPositionDirection : Bool) : Pose K O :=
  let clampedRatio := clamp ratio 0 1
  let position := calcInterpolatedPoint src.position dst.position clampedRatio
  if setOrientationFromPositionDirection then
    let inputPosesDist := calcDistance2d geometry.toTrigonometry src.position dst.position
    let isDrivingForward := geometry.isDrivingForward src dst
    if (isDrivingForward ∧ 1 - 1 / 1000000 < clampedRatio) ∨ inputPosesDist < 1 / 1000 then
      ⟨position, dst.orientation⟩
    else if ¬ isDrivingForward ∧ clampedRatio < 1 / 1000000 then ⟨position, src.orientation⟩
    else
      let basePose := if isDrivingForward then dst else src
      ⟨position, geometry.orientationTo position basePose.position⟩
  else ⟨position, geometry.slerp src.orientation dst.orientation clampedRatio⟩

variable (poses : List (Pose K O))

/-- A loop over the segments behind an index, with the pose on the segment that is found. -/
def offsetPoseBehind (srcIdx : ℕ) (offset : K)
    (poseOn : Pose K O → Pose K O → K → Pose K O) : Except Failure (Option (Pose K O)) :=
  let lengths := segmentLengths geometry.toTrigonometry poses
  match findForward lengths offset (lengths.length - srcIdx) srcIdx 0 with
  | none => return none
  | some (idx, distRes) => do
    let front ← atIndex poses idx
    let back ← atIndex poses (idx + 1)
    let distSegment := calcDistance2d geometry.toTrigonometry front.position back.position
    if distSegment = 0 then throw .notANumber
    else return poseOn front back |distRes / distSegment|

/-- `calcLongitudinalOffsetPose(points, src_idx, offset)`. -/
def calcLongitudinalOffsetPose (srcIdx : ℕ) (offset : K)
    (setOrientationFromPositionDirection : Bool) : Except Failure (Option (Pose K O)) :=
  if poses.length ≤ 1 ∨ poses.length - 1 < srcIdx then return none
  else if srcIdx + 1 = poses.length ∧ offset = 0 then return ← atIndex poses srcIdx
  else if offset < 0 then
    offsetPoseBehind geometry poses.reverse (poses.length - srcIdx - 1) (-offset)
      fun front back ratio =>
        calcInterpolatedPose geometry back front ratio setOrientationFromPositionDirection
  else
    offsetPoseBehind geometry poses srcIdx offset fun front back ratio =>
      calcInterpolatedPose geometry front back (1 - ratio) setOrientationFromPositionDirection

def walk (geometry : Trigonometry K O) : List (Pose K O) → K → Option (Point K)
  | [], _ => none
  | [last], distance => if distance = 0 then some last.position else none
  | first :: second :: rest, distance =>
    let length := calcDistance2d geometry first.position second.position
    if distance = 0 then some first.position
    else if distance ≤ length then
      some (pointOn first.position second.position (distance / length))
    else walk geometry (second :: rest) (distance - length)

/-- The points from an index on, forwards or backwards. -/
def sideFrom (srcIdx : ℕ) (offset : K) : List (Pose K O) :=
  if offset < 0 then (poses.take (srcIdx + 1)).reverse else poses.drop srcIdx

structure OffsetsAgree (geometry : PoseGeometry K O) (poses : List (Pose K O)) (srcIdx : ℕ)
    (offset : K) (setOrientationFromPositionDirection : Bool) : Prop where
  point : calcLongitudinalOffsetPoint geometry.toTrigonometry poses srcIdx offset =
    .ok (walk geometry.toTrigonometry (sideFrom poses srcIdx offset) |offset|)
  pose : ∃ pose, calcLongitudinalOffsetPose geometry poses srcIdx offset
      setOrientationFromPositionDirection = .ok pose ∧
    pose.map Pose.position = walk geometry.toTrigonometry (sideFrom poses srcIdx offset) |offset|
  reached : (walk geometry.toTrigonometry (sideFrom poses srcIdx offset) |offset|).isSome ↔
    |offset| ≤ (segmentLengths geometry.toTrigonometry (sideFrom poses srcIdx offset)).sum

variable {geometry} {poses : List (Pose K O)} {srcIdx : ℕ} {offset : K}

section

variable {plane : Trigonometry K O}

theorem walk_zero {first : Pose K O} {rest : List (Pose K O)} :
    walk plane (first :: rest) 0 = some first.position := by
  cases rest with
  | nil => exact if_pos rfl
  | cons second rest => exact if_pos rfl

variable [IsStrictOrderedRing K]

theorem walk_isSome_iff (hdist : ∀ p1 p2, 0 ≤ calcDistance2d plane p1 p2) {first : Pose K O}
    {rest : List (Pose K O)} {distance : K} (hdistance : 0 ≤ distance) :
    (walk plane (first :: rest) distance).isSome ↔
      distance ≤ (segmentLengths plane (first :: rest)).sum := by
  induction rest generalizing first distance with
  | nil =>
    have hsum : (segmentLengths plane [first]).sum = 0 := rfl
    rw [hsum, walk]
    split_ifs with hzero
    · exact iff_of_true rfl hzero.le
    · exact iff_of_false Bool.false_ne_true fun hle => hzero (le_antisymm hle hdistance)
  | cons second rest ih =>
    have hsum : (segmentLengths plane (first :: second :: rest)).sum =
        calcDistance2d plane first.position second.position +
          (segmentLengths plane (second :: rest)).sum := List.sum_cons
    have hrest : 0 ≤ (segmentLengths plane (second :: rest)).sum :=
      List.sum_nonneg (segmentLengths_nonneg hdist _)
    rw [hsum, walk]
    split_ifs with hzero hle
    · refine iff_of_true rfl (hzero.le.trans (add_nonneg (hdist _ _) hrest))
    · exact iff_of_true rfl (hle.trans (le_add_of_nonneg_right hrest))
    · rw [ih (sub_nonneg.mpr (not_le.mp hle).le), sub_le_iff_le_add']

end

/-! ## The search -/

theorem calcInterpolatedPose_position {src dst : Pose K O} {ratio : K}
    {setOrientationFromPositionDirection : Bool} :
    (calcInterpolatedPose geometry src dst ratio setOrientationFromPositionDirection).position =
      calcInterpolatedPoint src.position dst.position (clamp ratio 0 1) := by
  unfold calcInterpolatedPose
  dsimp only
  split_ifs <;> rfl

theorem clamp_of_mem {value : K} (hlow : 0 ≤ value) (hhigh : value ≤ 1) :
    clamp value 0 1 = value := by
  rw [clamp, if_neg hlow.not_gt, if_neg hhigh.not_gt]

variable [IsStrictOrderedRing K]

omit [IsStrictOrderedRing K] in
theorem calcInterpolatedPoint_eq {src dst : Point K} {ratio : K} (hlow : 0 ≤ ratio)
    (hhigh : ratio ≤ 1) : calcInterpolatedPoint src dst ratio = pointOn src dst ratio := by
  rw [calcInterpolatedPoint, clamp_of_mem hlow hhigh]
  rfl

/-- The segment on which a walk ends, and the part of it that is left. -/
structure EndsOn (plane : Trigonometry K O) (poses : List (Pose K O)) (idx : ℕ) (rest : K)
    (front back : Pose K O) : Prop where
  front_eq : poses[idx]? = some front
  back_eq : poses[idx + 1]? = some back
  length_pos : 0 < calcDistance2d plane front.position back.position
  rest_nonneg : 0 ≤ rest
  rest_le : rest ≤ calcDistance2d plane front.position back.position

def SearchWalks (plane : Trigonometry K O) (poses : List (Pose K O)) (idx : ℕ) (distance : K)
    (search : Option (ℕ × K)) : Prop :=
  (search = none ∧ walk plane (poses.drop idx) distance = none) ∨
    ∃ found rest front back, search = some (found, rest) ∧
      EndsOn plane poses found rest front back ∧
      walk plane (poses.drop idx) distance = some (pointOn front.position back.position
        (1 - rest / calcDistance2d plane front.position back.position))

variable {plane : Trigonometry K O}

/-- The search from an index on, for a length that is not reached before. -/
theorem findForward_walks {remaining idx : ℕ} {sum : K}
    (hremaining : idx + remaining + 1 = poses.length) (hsum : sum < offset) :
    SearchWalks plane poses idx (offset - sum)
      (findForward (segmentLengths plane poses) offset remaining idx sum) := by
  induction remaining generalizing idx sum with
  | zero =>
    have hne : offset - sum ≠ 0 := (sub_pos.mpr hsum).ne'
    have hdrop : poses.drop idx = [poses[idx]] := by
      rw [List.drop_eq_getElem_cons (by omega), List.drop_eq_nil_of_le (by omega)]
    refine .inl ⟨rfl, ?_⟩
    rw [hdrop, walk, if_neg hne]
  | succ remaining ih =>
    have hne : offset - sum ≠ 0 := (sub_pos.mpr hsum).ne'
    have hfront := List.getElem?_eq_getElem (show idx < poses.length by omega)
    have hback := List.getElem?_eq_getElem (show idx + 1 < poses.length by omega)
    have hlength := getElem?_segmentLengths plane hfront hback
    have hdrop : poses.drop idx = poses[idx] :: poses[idx + 1] :: poses.drop (idx + 2) := by
      rw [List.drop_eq_getElem_cons (by omega), List.drop_eq_getElem_cons (by omega)]
    have hdropNext : poses.drop (idx + 1) = poses[idx + 1] :: poses.drop (idx + 2) :=
      List.drop_eq_getElem_cons (by omega)
    rw [findForward, hlength]
    dsimp only
    split_ifs with hreached
    · have hpos : 0 < calcDistance2d plane poses[idx].position poses[idx + 1].position := by
        linarith
      refine .inr ⟨idx, _, _, _, rfl, ⟨hfront, hback, hpos, sub_nonneg.mpr hreached, ?_⟩, ?_⟩
      · linarith
      · rw [hdrop, walk, if_neg hne, if_pos (sub_le_iff_le_add'.mpr hreached)]
        refine congrArg (fun ratio => some (pointOn _ _ ratio)) ?_
        field_simp
        ring
    · have hwalk : walk plane (poses.drop idx) (offset - sum) =
          walk plane (poses.drop (idx + 1)) (offset -
            (sum + calcDistance2d plane poses[idx].position poses[idx + 1].position)) := by
        rw [hdrop, hdropNext, walk, if_neg hne,
          if_neg fun hle => hreached (sub_le_iff_le_add'.mp hle), sub_sub]
      unfold SearchWalks
      rw [hwalk]
      exact ih (by omega) (not_le.mp hreached)

theorem search_walks (hdist : ∀ p1 p2, 0 ≤ calcDistance2d plane p1 p2)
    (hsrc : srcIdx < poses.length) (hoffset : 0 ≤ offset)
    (hzero : offset = 0 → ∃ first second, poses[srcIdx]? = some first ∧
      poses[srcIdx + 1]? = some second ∧ calcDistance2d plane first.position second.position ≠ 0) :
    SearchWalks plane poses srcIdx offset (findForward (segmentLengths plane poses) offset
        ((segmentLengths plane poses).length - srcIdx) srcIdx 0) := by
  have hlength := length_segmentLengths plane poses
  rcases hoffset.eq_or_lt with rfl | hpos
  · obtain ⟨first, second, hfirst, hsecond, hne⟩ := hzero rfl
    have hsize := (List.getElem?_eq_some_iff.mp hsecond).1
    have hsegment := getElem?_segmentLengths plane hfirst hsecond
    have hnonneg := hdist first.position second.position
    have hdrop : poses.drop srcIdx = first :: poses.drop (srcIdx + 1) := by
      rw [List.drop_eq_getElem_cons hsrc]
      congr 1
      rw [List.getElem?_eq_getElem hsrc] at hfirst
      exact Option.some.inj hfirst
    refine .inr ⟨srcIdx, _, first, second, findForward_of_le (by omega) hsegment (by linarith),
      ⟨hfirst, hsecond, hnonneg.lt_of_ne' hne, by linarith, by linarith⟩, ?_⟩
    rw [hdrop, walk_zero, zero_add, sub_zero, div_self hne, sub_self, pointOn]
    simp
  · have hwalks := @findForward_walks K O _ _ poses offset _ plane
      ((segmentLengths plane poses).length - srcIdx) srcIdx 0 (by omega) hpos
    rwa [sub_zero] at hwalks

namespace EndsOn

variable {found : ℕ} {rest : K} {front back : Pose K O} (hends : EndsOn plane poses found rest front back)

include hends

theorem ratio_mem : |rest / calcDistance2d plane front.position back.position| =
      rest / calcDistance2d plane front.position back.position ∧
    0 ≤ rest / calcDistance2d plane front.position back.position ∧
    rest / calcDistance2d plane front.position back.position ≤ 1 := by
  have hnonneg := div_nonneg hends.rest_nonneg hends.length_pos.le
  exact ⟨abs_of_nonneg hnonneg, hnonneg, (div_le_one hends.length_pos).mpr hends.rest_le⟩

end EndsOn

theorem offsetPointBehind_eq (hdist : ∀ p1 p2, 0 ≤ calcDistance2d plane p1 p2)
    (hsrc : srcIdx < poses.length) (hoffset : 0 ≤ offset)
    (hzero : offset = 0 → ∃ first second, poses[srcIdx]? = some first ∧
      poses[srcIdx + 1]? = some second ∧ calcDistance2d plane first.position second.position ≠ 0) :
    offsetPointBehind plane poses srcIdx offset = .ok (walk plane (poses.drop srcIdx) offset) := by
  unfold offsetPointBehind
  dsimp only
  rcases search_walks hdist hsrc hoffset hzero with
    ⟨hsearch, hwalk⟩ | ⟨found, rest, front, back, hsearch, hends, hwalk⟩
  · rw [hsearch, hwalk]
    rfl
  · obtain ⟨habs, hlow, hhigh⟩ := hends.ratio_mem
    rw [hsearch, hwalk]
    refine bind_eq_ok.mpr ⟨front, atIndex_eq_ok.mpr hends.front_eq,
      bind_eq_ok.mpr ⟨back, atIndex_eq_ok.mpr hends.back_eq, ?_⟩⟩
    rw [if_neg hends.length_pos.ne', habs, calcInterpolatedPoint_eq hlow hhigh, pointOn_swap]
    rfl

theorem offsetPoseBehind_eq (hdist : ∀ p1 p2, 0 ≤ calcDistance2d geometry.toTrigonometry p1 p2)
    (hsrc : srcIdx < poses.length) (hoffset : 0 ≤ offset)
    (hzero : offset = 0 → ∃ first second, poses[srcIdx]? = some first ∧
      poses[srcIdx + 1]? = some second ∧
        calcDistance2d geometry.toTrigonometry first.position second.position ≠ 0)
    {poseOn : Pose K O → Pose K O → K → Pose K O}
    (hpose : ∀ front back ratio, 0 ≤ ratio → ratio ≤ 1 →
      (poseOn front back ratio).position = pointOn front.position back.position (1 - ratio)) :
    ∃ pose, offsetPoseBehind geometry poses srcIdx offset poseOn = .ok pose ∧
      pose.map Pose.position = walk geometry.toTrigonometry (poses.drop srcIdx) offset := by
  unfold offsetPoseBehind
  dsimp only
  rcases search_walks hdist hsrc hoffset hzero with
    ⟨hsearch, hwalk⟩ | ⟨found, rest, front, back, hsearch, hends, hwalk⟩
  · rw [hsearch, hwalk]
    exact ⟨none, rfl, rfl⟩
  · obtain ⟨habs, hlow, hhigh⟩ := hends.ratio_mem
    rw [hsearch, hwalk]
    refine ⟨some (poseOn front back _), bind_eq_ok.mpr ⟨front, atIndex_eq_ok.mpr hends.front_eq,
      bind_eq_ok.mpr ⟨back, atIndex_eq_ok.mpr hends.back_eq, if_neg hends.length_pos.ne'⟩⟩, ?_⟩
    rw [habs]
    exact congrArg some (hpose front back _ hlow hhigh)

section
omit [IsStrictOrderedRing K]

theorem calcInterpolatedPose_eq {src dst : Pose K O} {ratio : K}
    {setOrientationFromPositionDirection : Bool} (hlow : 0 ≤ ratio) (hhigh : ratio ≤ 1) :
    (calcInterpolatedPose geometry src dst ratio setOrientationFromPositionDirection).position =
      pointOn src.position dst.position ratio := by
  rw [calcInterpolatedPose_position, clamp_of_mem hlow hhigh, calcInterpolatedPoint_eq hlow hhigh]

/-- A length of zero is searched for on the first segment, also where it has no length. -/
theorem offsetPointBehind_of_repeated {first second : Pose K O} (hfirst : poses[srcIdx]? = some first)
    (hsecond : poses[srcIdx + 1]? = some second)
    (hzero : calcDistance2d plane first.position second.position = 0) :
    offsetPointBehind plane poses srcIdx 0 = .error .notANumber := by
  have hsize := (List.getElem?_eq_some_iff.mp hsecond).1
  have hlength := length_segmentLengths plane poses
  have hfound : findForward (segmentLengths plane poses) 0
      ((segmentLengths plane poses).length - srcIdx) srcIdx 0 = some (srcIdx, 0) := by
    rw [findForward_of_le (by omega) (getElem?_segmentLengths plane hfirst hsecond), hzero]
    · rw [add_zero, sub_zero]
    · rw [hzero, add_zero]
  unfold offsetPointBehind
  dsimp only
  rw [hfound]
  dsimp only
  rw [atIndex_eq_ok.mpr hfirst, atIndex_eq_ok.mpr hsecond]
  exact if_pos hzero

end

/-! ## Forwards and backwards -/

/-- At a length of zero the next point is not at the same place. -/
def LeavesSource (geometry : Trigonometry K O) (poses : List (Pose K O)) (srcIdx : ℕ)
    (offset : K) : Prop :=
  offset = 0 → ∀ first second, poses[srcIdx]? = some first → poses[srcIdx + 1]? = some second →
    calcDistance2d geometry first.position second.position ≠ 0

omit [IsStrictOrderedRing K] in
theorem drop_reverse_eq_sideFrom (hsrc : srcIdx < poses.length) (hbackward : offset < 0) :
    poses.reverse.drop (poses.length - srcIdx - 1) = sideFrom poses srcIdx offset := by
  rw [sideFrom, if_pos hbackward, List.drop_reverse,
    show poses.length - (poses.length - srcIdx - 1) = srcIdx + 1 by omega]

theorem offsetsAgree_last (htwo : 2 ≤ poses.length) (hlast : srcIdx + 1 = poses.length)
    (setOrientationFromPositionDirection : Bool) :
    OffsetsAgree geometry poses srcIdx 0 setOrientationFromPositionDirection := by
  have hside : sideFrom poses srcIdx (0 : K) = [poses[srcIdx]] := by
    rw [sideFrom, if_neg (lt_irrefl _), List.drop_eq_getElem_cons (by omega),
      List.drop_eq_nil_of_le (by omega)]
  have hget : atIndex poses srcIdx = .ok poses[srcIdx] :=
    atIndex_eq_ok.mpr (List.getElem?_eq_getElem (by omega))
  have hvalid : ¬ (poses.length ≤ 1 ∨ poses.length - 1 < srcIdx) := by omega
  refine ⟨?_, ⟨some poses[srcIdx], ?_, ?_⟩, ?_⟩
  · rw [calcLongitudinalOffsetPoint, if_neg hvalid, if_pos ⟨hlast, rfl⟩, hget, hside, abs_zero,
      walk_zero]
    rfl
  · rw [calcLongitudinalOffsetPose, if_neg hvalid, if_pos ⟨hlast, rfl⟩, hget]
    rfl
  · rw [hside, abs_zero, walk_zero]
    rfl
  · rw [hside, abs_zero, walk_zero]
    exact iff_of_true rfl le_rfl

/-- The point and the pose agree with the walk if and only if a length of zero leaves the source
point. -/
theorem offsetsAgree_iff (hdist : ∀ p1 p2, 0 ≤ calcDistance2d geometry.toTrigonometry p1 p2)
    (htwo : 2 ≤ poses.length) (hsrc : srcIdx < poses.length)
    (setOrientationFromPositionDirection : Bool) :
    OffsetsAgree geometry poses srcIdx offset setOrientationFromPositionDirection ↔
      LeavesSource geometry.toTrigonometry poses srcIdx offset := by
  have hvalid : ¬ (poses.length ≤ 1 ∨ poses.length - 1 < srcIdx) := by omega
  constructor
  · rintro ⟨hpoint, _, _⟩ rfl first second hfirst hsecond hzero
    have hnext := (List.getElem?_eq_some_iff.mp hsecond).1
    rw [calcLongitudinalOffsetPoint, if_neg hvalid, if_neg fun hlast => hnext.ne hlast.1,
      if_neg (lt_irrefl _), offsetPointBehind_of_repeated hfirst hsecond hzero] at hpoint
    cases hpoint
  · intro hleaves
    by_cases hlast : srcIdx + 1 = poses.length ∧ offset = 0
    · obtain ⟨hlast, rfl⟩ := hlast
      exact offsetsAgree_last htwo hlast _
    have hreached {side : List (Pose K O)} (hside : side ≠ []) :
        (walk geometry.toTrigonometry side |offset|).isSome ↔
          |offset| ≤ (segmentLengths geometry.toTrigonometry side).sum := by
      cases side with
      | nil => exact absurd rfl hside
      | cons first rest => exact walk_isSome_iff hdist (abs_nonneg offset)
    rcases lt_or_ge offset 0 with hbackward | hforward
    · have hside := drop_reverse_eq_sideFrom hsrc hbackward
      have hpos : 0 < -offset := neg_pos.mpr hbackward
      have hsrc' : poses.length - srcIdx - 1 < poses.reverse.length := by
        rw [List.length_reverse]
        omega
      refine ⟨?_, ?_, hreached ?_⟩
      · rw [calcLongitudinalOffsetPoint, if_neg hvalid, if_neg hlast, if_pos hbackward,
          offsetPointBehind_eq hdist hsrc' hpos.le (fun hzero => absurd hzero hpos.ne'), hside,
          abs_of_neg hbackward]
      · rw [calcLongitudinalOffsetPose, if_neg hvalid, if_neg hlast, if_pos hbackward, ← hside,
          abs_of_neg hbackward]
        refine offsetPoseBehind_eq hdist hsrc' hpos.le (fun hzero => absurd hzero hpos.ne') ?_
        intro front back ratio hlow hhigh
        rw [calcInterpolatedPose_eq hlow hhigh, pointOn_swap]
      · rw [← hside]
        exact List.ne_nil_of_length_pos (by rw [List.length_drop]; omega)
    · have hside : sideFrom poses srcIdx offset = poses.drop srcIdx := if_neg hforward.not_gt
      have hzero (hoffset : offset = 0) : ∃ first second, poses[srcIdx]? = some first ∧
          poses[srcIdx + 1]? = some second ∧
            calcDistance2d geometry.toTrigonometry first.position second.position ≠ 0 := by
        have hnext : srcIdx + 1 < poses.length := by
          have hne : srcIdx + 1 ≠ poses.length := fun heq => hlast ⟨heq, hoffset⟩
          omega
        exact ⟨_, _, List.getElem?_eq_getElem hsrc, List.getElem?_eq_getElem hnext,
          hleaves hoffset _ _ (List.getElem?_eq_getElem hsrc) (List.getElem?_eq_getElem hnext)⟩
      refine ⟨?_, ?_, hreached ?_⟩
      · rw [calcLongitudinalOffsetPoint, if_neg hvalid, if_neg hlast, if_neg hforward.not_gt,
          offsetPointBehind_eq hdist hsrc hforward hzero, hside, abs_of_nonneg hforward]
      · rw [calcLongitudinalOffsetPose, if_neg hvalid, if_neg hlast, if_neg hforward.not_gt, hside,
          abs_of_nonneg hforward]
        refine offsetPoseBehind_eq hdist hsrc hforward hzero fun front back ratio hlow hhigh => ?_
        exact calcInterpolatedPose_eq (sub_nonneg.mpr hhigh) (sub_le_self 1 hlow)
      · rw [hside]
        exact List.ne_nil_of_length_pos (by rw [List.length_drop]; omega)

theorem offsetsAgree_segment :
    OffsetsAgree ⟨rationalTrigonometry, fun src _ _ => src⟩ [poseAt 0 0, poseAt 10 0] 0 4 true ↔
      LeavesSource rationalTrigonometry [poseAt 0 0, poseAt 10 0] 0 4 :=
  @offsetsAgree_iff ℚ Unit _ _ ⟨rationalTrigonometry, fun src _ _ => src⟩
    [poseAt 0 0, poseAt 10 0] 0 4 _ (fun _ _ => Rat.sqrt_nonneg _) (by decide) (by decide) true

/-- From a point that the next one repeats, at a length of zero, both divide zero by zero. -/
theorem offsets_repeated : calcLongitudinalOffsetPoint rationalTrigonometry
        [poseAt 0 0, poseAt 0 0, poseAt 10 0] 0 0 = .error .notANumber ∧
      calcLongitudinalOffsetPose ⟨rationalTrigonometry, fun src _ _ => src⟩
        [poseAt 0 0, poseAt 0 0, poseAt 10 0] 0 0 true = .error .notANumber ∧
      ¬ OffsetsAgree ⟨rationalTrigonometry, fun src _ _ => src⟩
        [poseAt 0 0, poseAt 0 0, poseAt 10 0] 0 0 true := by
  have hpoint : calcLongitudinalOffsetPoint rationalTrigonometry
      [poseAt 0 0, poseAt 0 0, poseAt 10 0] 0 0 = .error .notANumber := by
    decide +kernel
  refine ⟨hpoint, by decide +kernel, fun hagree => ?_⟩
  cases hpoint.symm.trans hagree.point

end

/-!
## Inserting a stop point

A stop is asked for at a length behind a point of the trajectory.  It goes on a point that is
nearer than the overlap threshold, or on a new point between two others, and all points from
there on get velocity zero.
-/

open Library.Fallible Library.KeyedList Library.PrefixSums

open Planning.SlowDownTrajectory (TrajectoryPoint posesOf setPose segmentAtLength targetOnSegment
  plain assignVelocity posesOf_assignVelocity)

variable {K O : Type} [Field K] [LinearOrder K] (geometry : Trigonometry K O)

/-- `insertTargetPoint(seg_idx, p_target, points, overlap_threshold)`. -/
def insertTargetPointOn (segIdx : ℕ) (pTarget : Point K) (points : List (TrajectoryPoint K O K))
    (overlapThreshold : K) : Option ℕ × List (TrajectoryPoint K O K) :=
  match points[segIdx]?, points[segIdx + 1]?, isDrivingForward geometry (posesOf points) with
  | some front, some back, some isDrivingForward =>
    let pFront := front.pose.position
    let pBack := back.pose.position
    if isSharpAngle geometry pFront pTarget pBack then (none, points)
    else
      let overlapWithFront := calcDistance2d geometry pTarget pFront < overlapThreshold
      let overlapWithBack := calcDistance2d geometry pTarget pBack < overlapThreshold
      let pInsert : TrajectoryPoint K O K :=
        ⟨⟨pTarget, geometry.orientationTo pTarget (if isDrivingForward then pBack else pFront)⟩,
          front.longitudinalVelocityMps⟩
      let pBase := if isDrivingForward then pFront else pBack
      let basePose : Pose K O := ⟨pBase, geometry.orientationTo pBase pTarget⟩
      if ¬overlapWithFront ∧ ¬overlapWithBack then
        let oriented :=
          setPose points (if isDrivingForward then segIdx else segIdx + 1) basePose
        (some (segIdx + 1), oriented.insertIdx (segIdx + 1) pInsert)
      else if overlapWithBack then (some (segIdx + 1), points)
      else (some segIdx, points)
  | _, _, _ => (none, points)

/-- `insertTargetPoint(src_segment_idx, insert_point_length, points, overlap_threshold)`. -/
def insertTargetPointAt (srcSegmentIdx : ℕ) (insertPointLength : K)
    (points : List (TrajectoryPoint K O K)) (overlapThreshold : K) :
    Except Failure (Option ℕ × List (TrajectoryPoint K O K)) :=
  let poses := posesOf points
  if poses.isEmpty then throw .invalidArgument
  else
    match segmentAtLength geometry poses srcSegmentIdx insertPointLength with
    | none => return (none, points)
    | some segmentIdx => do
      let pTarget ← targetOnSegment geometry poses srcSegmentIdx segmentIdx insertPointLength
      return insertTargetPointOn geometry segmentIdx pTarget points overlapThreshold

/-- `insertStopPoint(src_segment_idx, distance_to_stop_point, points, overlap_threshold)`. -/
def insertStopPoint (srcSegmentIdx : ℕ) (distanceToStopPoint : K)
    (points : List (TrajectoryPoint K O K)) (overlapThreshold : K) :
    Except Failure (Option ℕ × List (TrajectoryPoint K O K)) :=
  if points.isEmpty then throw .invalidArgument
  else if distanceToStopPoint < 0 ∨ points.length - 1 ≤ srcSegmentIdx then return (none, points)
  else do
    let (stopIdx, points) ←
      insertTargetPointAt geometry srcSegmentIdx distanceToStopPoint points overlapThreshold
    match stopIdx with
    | none => return (none, points)
    | some stopIdx =>
      return (some stopIdx, assignVelocity (plain K) stopIdx (points.length - 1) 0 points)

def positionsOf (points : List (TrajectoryPoint K O K)) : List (Point K) :=
  points.map fun point => point.pose.position

def velocitiesOf (points : List (TrajectoryPoint K O K)) : List K :=
  points.map TrajectoryPoint.longitudinalVelocityMps

/-- The points stop at an index that is about as far behind the source as it should, with at
most one point more, at the index. -/
structure StopsAt (geometry : Trigonometry K O) (points : List (TrajectoryPoint K O K))
    (srcIdx : ℕ) (distance threshold : K) (k : ℕ) (result : List (TrajectoryPoint K O K)) :
    Prop where
  lt_length : k < result.length
  near : |calcSignedArcLengthOfIndices geometry (posesOf result) srcIdx k - distance| < threshold
  stopped : ∀ point ∈ result.drop k, point.longitudinalVelocityMps = 0
  moving : velocitiesOf (result.take k) = velocitiesOf (points.take k)
  positions : positionsOf result = positionsOf points ∨
    ∃ inserted, positionsOf result = (positionsOf points).insertIdx k inserted

def ReturnsStop (geometry : Trigonometry K O) (points : List (TrajectoryPoint K O K))
    (srcIdx : ℕ) (distance threshold : K) : Option ℕ × List (TrajectoryPoint K O K) → Prop
  | (some k, result) => StopsAt geometry points srcIdx distance threshold k result
  | (none, result) => result = points

variable {geometry} {points : List (TrajectoryPoint K O K)} {poses : List (Pose K O)}
  {srcIdx segIdx : ℕ}

theorem segmentAtLength_some {length : K}
    (hfound : segmentAtLength geometry poses srcIdx length = some segIdx) :
    0 ≤ length ∧ srcIdx ≤ segIdx ∧ segIdx + 1 < poses.length ∧
      length ≤ calcSignedArcLength geometry poses srcIdx (segIdx + 1) ∧
      calcSignedArcLength geometry poses srcIdx segIdx ≤ length := by
  unfold segmentAtLength at hfound
  split_ifs at hfound with hinvalid
  obtain ⟨i, hfind, rfl⟩ := Option.map_eq_some_iff.mp hfound
  rw [not_or, not_lt, not_le] at hinvalid
  obtain ⟨hreached, hmem, hpassed⟩ := List.find?_range'_eq_some.mp hfind
  rw [decide_eq_true_eq] at hreached
  rw [List.mem_range'_1] at hmem
  have hi : i - 1 + 1 = i := by omega
  refine ⟨hinvalid.1, by omega, by omega, by rwa [hi], ?_⟩
  rcases Nat.eq_or_lt_of_le hmem.1 with hfirst | hlater
  · have hzero : calcSignedArcLength geometry poses srcIdx (i - 1) = 0 := by
      rw [calcSignedArcLength_eq (by omega), show i - 1 = srcIdx by omega, sub_self]
    exact hzero.trans_le hinvalid.1
  · have hbefore := hpassed (i - 1) (by omega) (by omega)
    rw [Bool.not_eq_true', decide_eq_false_iff_not, not_le] at hbefore
    exact hbefore.le

variable [IsStrictOrderedRing K]

theorem targetOnSegment_eq {length : K} {front back : Pose K O}
    (hfront : poses[segIdx]? = some front) (hback : poses[segIdx + 1]? = some back)
    (hpos : 0 < calcDistance2d geometry front.position back.position)
    (hlow : calcSignedArcLength geometry poses srcIdx segIdx ≤ length)
    (hhigh : length ≤ calcSignedArcLength geometry poses srcIdx segIdx +
      calcDistance2d geometry front.position back.position) :
    targetOnSegment geometry poses srcIdx segIdx length = .ok (pointOn front.position back.position
        ((length - calcSignedArcLength geometry poses srcIdx segIdx) /
          calcDistance2d geometry front.position back.position)) := by
  have hsegment : calcSignedArcLength geometry poses segIdx (segIdx + 1) =
      calcDistance2d geometry front.position back.position := by
    rw [calcSignedArcLength_succ le_rfl hfront hback, calcSignedArcLength_eq le_rfl, sub_self,
      zero_add]
  have hrest := sub_nonneg.mpr hlow
  have hratio := div_nonneg hrest hpos.le
  have hratioLe : (length - calcSignedArcLength geometry poses srcIdx segIdx) /
      calcDistance2d geometry front.position back.position ≤ 1 :=
    (div_le_one hpos).mpr (sub_le_iff_le_add'.mpr hhigh)
  unfold targetOnSegment
  dsimp only
  rw [hsegment, if_neg hpos.ne', max_eq_right hrest, clamp_of_mem hratio hratioLe, hfront, hback]
  exact congrArg Except.ok (calcInterpolatedPoint_eq hratio hratioLe)

section
omit [Field K] [LinearOrder K] [IsStrictOrderedRing K]

theorem positionsOf_setPose {idx : ℕ} {pose : Pose K O}
    (hkept : ∀ point, points[idx]? = some point → pose.position = point.pose.position) :
    positionsOf (setPose points idx pose) = positionsOf points :=
  map_modify_eq hkept

theorem velocitiesOf_setPose (idx : ℕ) (pose : Pose K O) :
    velocitiesOf (setPose points idx pose) = velocitiesOf points :=
  map_modify_eq fun _ _ => rfl

end

inductive Inserted (geometry : Trigonometry K O) (points : List (TrajectoryPoint K O K))
    (segIdx : ℕ) (front back : TrajectoryPoint K O K) (pTarget : Point K) (threshold : K) :
    Option ℕ × List (TrajectoryPoint K O K) → Prop where
  | refused : Inserted geometry points segIdx front back pTarget threshold (none, points)
  | between {result : List (TrajectoryPoint K O K)}
      (positions : positionsOf result = (positionsOf points).insertIdx (segIdx + 1) pTarget)
      (velocities : velocitiesOf (result.take (segIdx + 1)) =
        velocitiesOf (points.take (segIdx + 1))) :
      Inserted geometry points segIdx front back pTarget threshold (some (segIdx + 1), result)
  | atBack (near : calcDistance2d geometry pTarget back.pose.position < threshold) :
      Inserted geometry points segIdx front back pTarget threshold (some (segIdx + 1), points)
  | atFront (near : calcDistance2d geometry pTarget front.pose.position < threshold) :
      Inserted geometry points segIdx front back pTarget threshold (some segIdx, points)

omit [IsStrictOrderedRing K] in
theorem insertTargetPointOn_inserted {segIdx : ℕ} {front back : TrajectoryPoint K O K}
    (hfront : points[segIdx]? = some front) (hback : points[segIdx + 1]? = some back)
    (pTarget : Point K) (threshold : K) :
    Inserted geometry points segIdx front back pTarget threshold
      (insertTargetPointOn geometry segIdx pTarget points threshold) := by
  unfold insertTargetPointOn
  rw [hfront, hback]
  cases isDrivingForward geometry (posesOf points) with
  | none => exact .refused
  | some forward =>
    dsimp only
    by_cases hsharp : isSharpAngle geometry front.pose.position pTarget back.pose.position
    · rw [if_pos hsharp]
      exact .refused
    rw [if_neg hsharp]
    by_cases hapart : ¬calcDistance2d geometry pTarget front.pose.position < threshold ∧
        ¬calcDistance2d geometry pTarget back.pose.position < threshold
    · rw [if_pos hapart]
      refine .between ?_ ?_
      · rw [positionsOf, List.map_insertIdx]
        refine congrArg (List.insertIdx · (segIdx + 1) pTarget) (positionsOf_setPose ?_)
        intro point hpoint
        cases forward with
        | true =>
          cases hfront.symm.trans hpoint
          rfl
        | false =>
          cases hback.symm.trans hpoint
          rfl
      · rw [List.take_insertIdx_eq_take_of_le _ _ _ _ le_rfl, velocitiesOf, List.map_take,
          velocitiesOf, List.map_take]
        exact congrArg (List.take (segIdx + 1)) (velocitiesOf_setPose _ _)
    rw [if_neg hapart]
    by_cases hnear : calcDistance2d geometry pTarget back.pose.position < threshold
    · rw [if_pos hnear]
      exact .atBack hnear
    · rw [if_neg hnear]
      refine .atFront ?_
      by_contra hfar
      exact hapart ⟨hfar, hnear⟩

/-! ## The stop -/

section

omit [LinearOrder K] [IsStrictOrderedRing K]

theorem positionsOf_stop (k last : ℕ) :
    positionsOf (assignVelocity (plain K) k last 0 points) = positionsOf points := by
  have hposes := congrArg (List.map Pose.position)
    (posesOf_assignVelocity (plain K) k last 0 points)
  rwa [posesOf, posesOf, List.map_map, List.map_map] at hposes

theorem stopped_of_stop {k : ℕ} {point : TrajectoryPoint K O K}
    (hmem : point ∈ (assignVelocity (plain K) k (points.length - 1) 0 points).drop k) :
    point.longitudinalVelocityMps = 0 := by
  obtain ⟨i, hi⟩ := List.getElem?_of_mem hmem
  rw [List.getElem?_drop, assignVelocity, List.getElem?_mapIdx, Option.map_eq_some_iff] at hi
  obtain ⟨original, horiginal, rfl⟩ := hi
  have hlength := (List.getElem?_eq_some_iff.mp horiginal).1
  rw [if_pos ⟨Nat.le_add_right k i, by omega⟩]
  rfl

theorem velocitiesOf_take_stop (k last : ℕ) :
    velocitiesOf ((assignVelocity (plain K) k last 0 points).take k) =
      velocitiesOf (points.take k) := by
  refine List.ext_getElem? fun i => ?_
  rw [velocitiesOf, velocitiesOf, List.getElem?_map, List.getElem?_map, List.getElem?_take,
    List.getElem?_take]
  split_ifs with hi
  · rw [assignVelocity, List.getElem?_mapIdx, Option.map_map]
    refine congrFun (congrArg Option.map (funext fun point => ?_)) points[i]?
    exact congrArg _ (if_neg fun hbehind => absurd hi (Nat.not_lt.mpr hbehind.1))
  · rfl

end

omit [LinearOrder K] [IsStrictOrderedRing K] in
theorem calcSignedArcLength_inserted {result : List (TrajectoryPoint K O K)}
    {front : TrajectoryPoint K O K} {pTarget : Point K} (hle : srcIdx ≤ segIdx)
    (hfront : points[segIdx]? = some front)
    (hresult : positionsOf result = (positionsOf points).insertIdx (segIdx + 1) pTarget) :
    calcSignedArcLength geometry (posesOf result) srcIdx (segIdx + 1) =
      calcSignedArcLength geometry (posesOf points) srcIdx segIdx +
        calcDistance2d geometry front.pose.position pTarget := by
  have hlengths (others : List (TrajectoryPoint K O K)) : segmentLengths geometry (posesOf others) =
        lengthsOf (calcDistance2d geometry) (positionsOf others) := by
    rw [segmentLengths, posesOf, List.map_map]
    rfl
  have hlength := (List.getElem?_eq_some_iff.mp hfront).1
  have hposition : (positionsOf points)[segIdx]? = some front.pose.position := by
    rw [positionsOf, List.getElem?_map, hfront]
    rfl
  have hsize : segIdx < (positionsOf points).length := (List.getElem?_eq_some_iff.mp hposition).1
  rw [calcSignedArcLength_eq (hle.trans (Nat.le_succ segIdx)), calcSignedArcLength_eq hle,
    hlengths, hlengths, hresult, prefixSum_insertIdx_self hposition,
    prefixSum_insertIdx_of_le hle hsize]
  ring

section

variable {srcIdx segIdx : ℕ} {distance threshold : K} {front back : TrajectoryPoint K O K}

omit [IsStrictOrderedRing K] in
theorem stopsAt_point {k : ℕ} (hk : k < points.length) (hle : srcIdx ≤ k)
    (hnear : |calcSignedArcLength geometry (posesOf points) srcIdx k - distance| < threshold) :
    StopsAt geometry points srcIdx distance threshold k
      (assignVelocity (plain K) k (points.length - 1) 0 points) := by
  refine ⟨?_, ?_, fun point hmem => stopped_of_stop hmem, velocitiesOf_take_stop k _,
    .inl (positionsOf_stop k _)⟩
  · rw [assignVelocity, List.length_mapIdx]
    exact hk
  · rwa [posesOf_assignVelocity, calcSignedArcLengthOfIndices, if_neg (Nat.not_lt.mpr hle)]

/-- The target on the segment, at the rest of the distance. -/
theorem inserted_stopsAt (hexact : ExactSqrt geometry) (hthreshold : 0 < threshold)
    (hle : srcIdx ≤ segIdx) (hfront : points[segIdx]? = some front)
    (hback : points[segIdx + 1]? = some back)
    (hpos : 0 < calcDistance2d geometry front.pose.position back.pose.position)
    (hlow : calcSignedArcLength geometry (posesOf points) srcIdx segIdx ≤ distance)
    (hhigh : distance ≤ calcSignedArcLength geometry (posesOf points) srcIdx segIdx +
      calcDistance2d geometry front.pose.position back.pose.position)
    {k : ℕ} {result : List (TrajectoryPoint K O K)}
    (hinserted : Inserted geometry points segIdx front back
      (pointOn front.pose.position back.pose.position
        ((distance - calcSignedArcLength geometry (posesOf points) srcIdx segIdx) /
          calcDistance2d geometry front.pose.position back.pose.position)) threshold
      (some k, result)) :
    StopsAt geometry points srcIdx distance threshold k
      (assignVelocity (plain K) k (result.length - 1) 0 result) := by
  have hlength := (List.getElem?_eq_some_iff.mp hback).1
  have hratio := div_nonneg (sub_nonneg.mpr hlow) hpos.le
  have hratioLe : (distance - calcSignedArcLength geometry (posesOf points) srcIdx segIdx) /
      calcDistance2d geometry front.pose.position back.pose.position ≤ 1 :=
    (div_le_one hpos).mpr (sub_le_iff_le_add'.mpr hhigh)
  have htoFront := hexact.calcDistance2d_pointOn front.pose.position back.pose.position hratio
  have htoBack := hexact.calcDistance2d_pointOn_end front.pose.position back.pose.position hratioLe
  rw [div_mul_cancel₀ _ hpos.ne'] at htoFront
  rw [sub_mul, one_mul, div_mul_cancel₀ _ hpos.ne'] at htoBack
  have hsucc : calcSignedArcLength geometry (posesOf points) srcIdx (segIdx + 1) =
      calcSignedArcLength geometry (posesOf points) srcIdx segIdx +
        calcDistance2d geometry front.pose.position back.pose.position :=
    calcSignedArcLength_succ hle (by rw [posesOf, List.getElem?_map, hfront]; rfl)
      (by rw [posesOf, List.getElem?_map, hback]; rfl)
  cases hinserted with
  | between positions velocities =>
    have hsize : segIdx + 1 < result.length := by
      have hsame := congrArg List.length positions
      rw [positionsOf, List.length_map, positionsOf, List.length_insertIdx_of_le_length
        (by rw [List.length_map]; omega), List.length_map] at hsame
      omega
    refine ⟨?_, ?_, fun point hmem => stopped_of_stop hmem, ?_,
      .inr ⟨_, (positionsOf_stop _ _).trans positions⟩⟩
    · rwa [assignVelocity, List.length_mapIdx]
    · rw [posesOf_assignVelocity, calcSignedArcLengthOfIndices, if_neg (by omega),
        calcSignedArcLength_inserted hle hfront positions, htoFront, add_sub_cancel, sub_self,
        abs_zero]
      exact hthreshold
    · rw [velocitiesOf_take_stop, velocities]
  | atBack near =>
    refine stopsAt_point hlength (hle.trans (Nat.le_succ segIdx)) ?_
    rw [htoBack] at near
    rw [hsucc, abs_of_nonneg (sub_nonneg.mpr hhigh)]
    linarith
  | atFront near =>
    refine stopsAt_point (Nat.lt_of_succ_lt hlength) hle ?_
    rw [calcDistance2d_comm, htoFront] at near
    rwa [abs_sub_comm, abs_of_nonneg (sub_nonneg.mpr hlow)]

end

/-- A stop that is inserted is as far behind the source as it should be, up to the threshold;
without a stop the points are as they were. -/
theorem insertStopPoint_returnsStop (hexact : ExactSqrt geometry) (htwo : 2 ≤ points.length)
    {threshold : K} (hthreshold : 0 < threshold)
    (hspaced : ∀ i front back, points[i]? = some front → points[i + 1]? = some back →
      threshold < calcDistance2d geometry front.pose.position back.pose.position)
    (srcIdx : ℕ) (distance : K) :
    ∃ result, insertStopPoint geometry srcIdx distance points threshold = .ok result ∧
      ReturnsStop geometry points srcIdx distance threshold result := by
  have hne : points.isEmpty = false :=
    List.isEmpty_eq_false_iff.mpr (List.ne_nil_of_length_pos (by omega))
  have hneposes : (posesOf points).isEmpty = false := by
    rw [posesOf, List.isEmpty_eq_false_iff]
    exact List.ne_nil_of_length_pos (by rw [List.length_map]; omega)
  unfold insertStopPoint
  rw [hne, if_neg Bool.false_ne_true]
  by_cases hinvalid : distance < 0 ∨ points.length - 1 ≤ srcIdx
  · exact ⟨(none, points), if_pos hinvalid, rfl⟩
  rw [if_neg hinvalid]
  unfold insertTargetPointAt
  dsimp only
  rw [hneposes, if_neg Bool.false_ne_true]
  cases hsegment : segmentAtLength geometry (posesOf points) srcIdx distance with
  | none => exact ⟨(none, points), rfl, rfl⟩
  | some segIdx =>
    obtain ⟨_, hle, hsize, hhigh, hlow⟩ := segmentAtLength_some hsegment
    rw [posesOf, List.length_map] at hsize
    have hfront := List.getElem?_eq_getElem (Nat.lt_of_succ_lt hsize)
    have hback := List.getElem?_eq_getElem hsize
    have hfrontPose : (posesOf points)[segIdx]? = some points[segIdx].pose := by
      rw [posesOf, List.getElem?_map, hfront]
      rfl
    have hbackPose : (posesOf points)[segIdx + 1]? = some points[segIdx + 1].pose := by
      rw [posesOf, List.getElem?_map, hback]
      rfl
    have hpos := hthreshold.trans (hspaced segIdx _ _ hfront hback)
    rw [calcSignedArcLength_succ hle hfrontPose hbackPose] at hhigh
    have htarget := targetOnSegment_eq hfrontPose hbackPose hpos hlow hhigh
    have hinserted := @insertTargetPointOn_inserted K O _ _ geometry points segIdx _ _ hfront hback
      (pointOn points[segIdx].pose.position points[segIdx + 1].pose.position
        ((distance - calcSignedArcLength geometry (posesOf points) srcIdx segIdx) /
          calcDistance2d geometry points[segIdx].pose.position
            points[segIdx + 1].pose.position)) threshold
    dsimp only
    rw [htarget]
    dsimp only [bind, Except.bind, pure, Except.pure]
    generalize insertTargetPointOn geometry segIdx _ points threshold = found at hinserted ⊢
    obtain ⟨stopIdx, result⟩ := found
    cases stopIdx with
    | none =>
      refine ⟨(none, result), rfl, ?_⟩
      cases hinserted
      rfl
    | some k =>
      exact ⟨_, rfl, inserted_stopsAt hexact hthreshold hle hfront hback hpos hlow hhigh hinserted⟩

theorem insertStopPoint_segment :
    ∃ result, insertStopPoint realTrigonometry 0 4 [⟨poseAt 0 0, 5⟩, ⟨poseAt 10 0, 5⟩] (1 / 1000) =
        .ok result ∧
      ReturnsStop realTrigonometry [⟨poseAt 0 0, 5⟩, ⟨poseAt 10 0, 5⟩] 0 4 (1 / 1000) result := by
  refine insertStopPoint_returnsStop realTrigonometry_exactSqrt (by simp) (by norm_num) ?_ 0 4
  intro i front back hfront hback
  cases i with
  | zero =>
    cases hfront
    cases hback
    have hten : calcDistance2d realTrigonometry (⟨0, 0, 0⟩ : Point ℝ) ⟨10, 0, 0⟩ = 10 :=
      realTrigonometry_exactSqrt.eq_of_mul_self (by norm_num)
        (by norm_num [calcSquaredDistance2d])
    exact lt_of_lt_of_eq (by norm_num) hten.symm
  | succ i => cases hback

end AutowareUniverse.Common.MotionUtils
