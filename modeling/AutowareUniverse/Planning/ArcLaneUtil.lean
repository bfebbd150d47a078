import AutowareUniverse.Common.MotionUtils

/-!
# Stops on a path with lane ids

The crossings of a path with a line, the segment of a path at an offset from one of its
points, and the insertion of a velocity at a pose.  Positions along the path are sums of the
distances between its points.
-/

namespace AutowareUniverse.Planning.ArcLaneUtil

open Common.MotionUtils Library.PrefixSums

section

section

section

structure PathPointWithLaneId (K O : Type) where
  pose : Pose K O
  longitudinalVelocityMps : K
  laneIds : List ℤ
  deriving DecidableEq

/-- The points of a path; the borders of the drivable area are not used here. -/
abbrev PathWithLaneId (K O : Type) :=
  List (PathPointWithLaneId K O)

/-- The functions on real numbers and orientations that stops on a path use. -/
structure Geometry (K O : Type) extends Trigonometry K O where
  /-- `createQuaternionFromYaw(calcAzimuthAngle(p_from, p_to))`. -/
  azimuthTo : Point K → Point K → O
  /-- The orientation of a pose that nothing was written to. -/
  unset : O

variable {K O : Type}

def posesOf (path : PathWithLaneId K O) : List (Pose K O) :=
  path.map PathPointWithLaneId.pose

variable [Field K] [LinearOrder K] (geometry : Geometry K O)

def checkCollision (p1 p2 p3 p4 : Point K) : Option (Point K) :=
  let det := (p2.x - p1.x) * (p4.y - p3.y) - (p2.y - p1.y) * (p4.x - p3.x)
  if det = 0 then none
  else
    let t1 := ((p4.y - p3.y) * (p4.x - p1.x) - (p4.x - p3.x) * (p4.y - p1.y)) / det
    let t2 := ((p2.x - p1.x) * (p4.y - p1.y) - (p2.y - p1.y) * (p4.x - p1.x)) / det
    if t1 < 0 ∨ 1 < t1 ∨ t2 < 0 ∨ 1 < t2 then none
    else
      some ⟨p1.x * (1 - t1) + p2.x * t1, p1.y * (1 - t1) + p2.y * t1, p1.z * (1 - t1) + p2.z * t1⟩

def findCollisionSegmentFrom (stopLineP1 stopLineP2 : Point K) (targetLaneId : ℤ) :
    ℕ → PathWithLaneId K O → Option (ℕ × Point K)
  | i, prev :: next :: rest =>
    if targetLaneId ∉ prev.laneIds ∧ targetLaneId ∉ next.laneIds then
      findCollisionSegmentFrom stopLineP1 stopLineP2 targetLaneId (i + 1) (next :: rest)
    else
      match checkCollision prev.pose.position next.pose.position stopLineP1 stopLineP2 with
      | some collisionPoint => some (i, collisionPoint)
      | none => findCollisionSegmentFrom stopLineP1 stopLineP2 targetLaneId (i + 1) (next :: rest)
  | _, _ => none

def findCollisionSegment (path : PathWithLaneId K O) (stopLineP1 stopLineP2 : Point K)
    (targetLaneId : ℤ) : Except Failure (Option (ℕ × Point K)) :=
  if path.isEmpty then throw .outOfRange
  else return findCollisionSegmentFrom stopLineP1 stopLineP2 targetLaneId 0 path

def calcSegmentIndexFromPointIndex (poses : List (Pose K O)) (point : Point K) (idx : ℕ) : ℕ :=
  if idx = 0 then 0
  else if idx = poses.length - 1 then idx - 1
  else if poses.length < 3 then 0
  else
    match calcLongitudinalOffsetToSegment geometry.toTrigonometry poses idx point with
    | some offsetToSeg => if 0 < offsetToSeg then idx else idx - 1
    | none => idx - 1

variable (path : PathWithLaneId K O)

def lengthsOfPath : List K :=
  segmentLengths geometry.toTrigonometry (posesOf path)

def findForwardOffsetSegment (baseIdx : ℕ) (offsetLength : K) : Except Failure (Option (ℕ × K)) :=
  let lengths := lengthsOfPath geometry path
  if path.isEmpty then throw .outOfRange
  else return findForward lengths offsetLength (lengths.length - baseIdx) baseIdx 0

def findBackwardOffsetSegment (baseIdx : ℕ) (offsetLength : K) : Except Failure (Option (ℕ × K)) :=
  if 0 < baseIdx ∧ path.length ≤ baseIdx then throw .outOfRange
  else return findBackward (lengthsOfPath geometry path) offsetLength baseIdx 0

/-- An offset that is not a number is never reached. -/
def findOffsetSegment (index : ℕ) : Option K → Except Failure (Option (ℕ × K))
  | none => if 0 < index ∧ path.length ≤ index then throw .outOfRange else return none
  | some offset =>
    if 0 ≤ offset then findForwardOffsetSegment geometry path index offset
    else findBackwardOffsetSegment geometry path index (-offset)

def calcTargetPose (offsetSegment : ℕ × K) :
    Except Failure (Pose K O) := do
  let front ← atIndex path offsetSegment.1
  let back ← atIndex path (offsetSegment.1 + 1)
  let pFront := front.pose.position
  let pBack := back.pose.position
  let dx := pBack.x - pFront.x
  let dy := pBack.y - pFront.y
  let norm := geometry.sqrt (dx * dx + dy * dy)
  if norm = 0 then throw .notANumber
  else
    let interpolateRatio := offsetSegment.2 / norm
    return {
      position := ⟨pFront.x + interpolateRatio * dx, pFront.y + interpolateRatio * dy,
        pFront.z + interpolateRatio * (pBack.z - pFront.z)⟩
      orientation := geometry.azimuthTo pFront pBack }

def setVelocity (velocity : K) (point : PathPointWithLaneId K O) : PathPointWithLaneId K O :=
  { point with longitudinalVelocityMps := velocity }

def setVelocityFromIndex (beginIdx : ℕ) (vel : K) (path : PathWithLaneId K O) :
    PathWithLaneId K O :=
  path.mapIdx fun i point =>
    if beginIdx ≤ i then setVelocity (min vel point.longitudinalVelocityMps) point else point

def insertStopVelocityFromStart : PathWithLaneId K O :=
  path.map (setVelocity 0)

def minDistance : K := 1 / 1000

def findNearPoint (position : Point K) (insertIndex : ℕ) : Option ℕ :=
  let minIdx := insertIndex - 1
  let maxIdx := min (insertIndex + 1) (path.length - 1)
  (List.range' minIdx (maxIdx + 1 - minIdx)).find? fun i =>
    (path[i]?).any fun point =>
      calcDistance2d geometry.toTrigonometry point.pose.position position < minDistance

/-- `insertVelocity(path, path_point, v, insert_index)`: the path and the index. -/
def insertVelocity (pathPoint : PathPointWithLaneId K O) (v : K)
    (insertIndex : ℕ) : PathWithLaneId K O × ℕ :=
  match findNearPoint geometry path pathPoint.pose.position insertIndex with
  | some i => (setVelocityFromIndex i v (path.modify i (setVelocity v)), i)
  | none => (setVelocityFromIndex insertIndex v (path.insertIdx insertIndex pathPoint), insertIndex)

end

variable {K O : Type} [Field K] [LinearOrder K] (geometry : Geometry K O)
  (path : PathWithLaneId K O)

def positionAt (idx : ℕ) : K :=
  prefixSum (lengthsOfPath geometry path) idx

/-- From a point at or before a position on, all points have velocity zero. -/
def StopsBy (position : K) : Prop :=
  ∃ idx < path.length, positionAt geometry path idx ≤ position ∧
    ∀ point ∈ path.drop idx, point.longitudinalVelocityMps = 0

instance (path : PathWithLaneId K O) (position : K) : Decidable (StopsBy geometry path position) :=
  inferInstanceAs (Decidable (∃ idx < path.length, _))

/-- The square root is exact on the segments of a path. -/
structure MeasuresLengths (path : PathWithLaneId K O) : Prop where
  nonneg : ∀ value, 0 ≤ value → 0 ≤ geometry.sqrt value
  scales : ∀ idx front back, path[idx]? = some front → path[idx + 1]? = some back →
    ∀ ratio, 0 ≤ ratio →
      geometry.sqrt (ratio * ratio * calcSquaredDistance2d front.pose.position back.pose.position) =
        ratio * geometry.sqrt (calcSquaredDistance2d front.pose.position back.pose.position)

/-- Where the stop goes that is asked for behind the point of an index. -/
def placedPosition (idx : ℕ) (rest : K) (target : Point K) : K :=
  match findNearPoint geometry path target (idx + 1) with
  | some near => positionAt geometry path near
  | none => positionAt geometry path idx + rest

variable {geometry} {path : PathWithLaneId K O}

section
omit [LinearOrder K]

theorem positionAt_eq (idx : ℕ) : positionAt geometry path idx =
      prefixSum (lengthsOf (calcDistance2d geometry.toTrigonometry)
        (path.map fun point => point.pose.position)) idx := by
  rw [positionAt, lengthsOfPath, segmentLengths, posesOf, List.map_map]
  rfl

theorem positionAt_congr {other : PathWithLaneId K O} (hposes : posesOf other = posesOf path)
    (idx : ℕ) : positionAt geometry other idx = positionAt geometry path idx := by
  rw [positionAt, positionAt, lengthsOfPath, lengthsOfPath, hposes]

end

theorem stopsBy_iff {position : K} : StopsBy geometry path position ↔
      ∃ idx < path.length, positionAt geometry path idx ≤ position ∧
        ∀ i point, idx ≤ i → path[i]? = some point → point.longitudinalVelocityMps = 0 := by
  refine exists_congr fun idx => and_congr_right fun _ => and_congr_right fun _ => ?_
  constructor
  · intro hrest i point hle hpoint
    refine hrest point (List.mem_iff_getElem?.mpr ⟨i - idx, ?_⟩)
    rw [List.getElem?_drop, Nat.add_sub_cancel' hle]
    exact hpoint
  · intro hrest point hmem
    obtain ⟨i, hpoint⟩ := List.mem_iff_getElem?.mp hmem
    rw [List.getElem?_drop] at hpoint
    exact hrest (idx + i) point (Nat.le_add_right ..) hpoint

/-! ## Lengths -/

section

section
omit [LinearOrder K]

theorem calcSquaredDistance2d_comm (p q : Point K) :
    calcSquaredDistance2d p q = calcSquaredDistance2d q p := by
  simp only [calcSquaredDistance2d]
  ring

theorem getElem?_lengthsOfPath {idx : ℕ} {front back : PathPointWithLaneId K O}
    (hfront : path[idx]? = some front) (hback : path[idx + 1]? = some back) :
    (lengthsOfPath geometry path)[idx]? =
      some (calcDistance2d geometry.toTrigonometry front.pose.position back.pose.position) := by
  refine getElem?_lengthsOf ?_ ?_
  · rw [posesOf, List.map_map, List.getElem?_map, hfront]
    rfl
  · rw [posesOf, List.map_map, List.getElem?_map, hback]
    rfl

theorem length_lengthsOfPath : (lengthsOfPath geometry path).length = path.length - 1 := by
  rw [lengthsOfPath, segmentLengths, length_lengthsOf, posesOf, List.length_map, List.length_map]

theorem points_of_getElem?_lengthsOfPath {idx : ℕ} {length : K}
    (hlength : (lengthsOfPath geometry path)[idx]? = some length) :
    ∃ front back, path[idx]? = some front ∧ path[idx + 1]? = some back ∧
      length = calcDistance2d geometry.toTrigonometry front.pose.position back.pose.position := by
  have hidx := (List.getElem?_eq_some_iff.mp hlength).1
  rw [length_lengthsOfPath] at hidx
  have hfront : path[idx]? = some path[idx] := List.getElem?_eq_getElem (by omega)
  have hback : path[idx + 1]? = some path[idx + 1] := List.getElem?_eq_getElem (by omega)
  rw [getElem?_lengthsOfPath hfront hback] at hlength
  exact ⟨_, _, hfront, hback, (Option.some.inj hlength).symm⟩

end

variable [IsStrictOrderedRing K]

section

variable (hsqrt : ∀ value, 0 ≤ value → 0 ≤ geometry.sqrt value)

include hsqrt

theorem calcDistance2d_nonneg (p q : Point K) : 0 ≤ calcDistance2d geometry.toTrigonometry p q :=
  hsqrt _ (add_nonneg (mul_self_nonneg _) (mul_self_nonneg _))

theorem lengthsOfPath_nonneg :
    ∀ length ∈ lengthsOfPath geometry path, 0 ≤ length := by
  intro length hmem
  obtain ⟨idx, hlength⟩ := List.mem_iff_getElem?.mp hmem
  obtain ⟨front, back, _, _, rfl⟩ := points_of_getElem?_lengthsOfPath hlength
  exact calcDistance2d_nonneg hsqrt _ _

theorem positionAt_mono :
    Monotone (positionAt geometry path) :=
  prefixSum_mono (lengthsOfPath_nonneg hsqrt)

end

omit [IsStrictOrderedRing K] in
theorem MeasuresLengths.distance_front (hmeasures : MeasuresLengths geometry path) {idx : ℕ}
    {front back : PathPointWithLaneId K O} (hfront : path[idx]? = some front)
    (hback : path[idx + 1]? = some back) {ratio : K} (hratio : 0 ≤ ratio) {point : Point K}
    (hx : point.x = front.pose.position.x + ratio * (back.pose.position.x - front.pose.position.x))
    (hy : point.y = front.pose.position.y +
      ratio * (back.pose.position.y - front.pose.position.y)) :
    calcDistance2d geometry.toTrigonometry front.pose.position point =
      ratio * calcDistance2d geometry.toTrigonometry front.pose.position back.pose.position := by
  rw [calcDistance2d, calcDistance2d, ← hmeasures.scales idx front back hfront hback ratio hratio]
  congr 1
  simp only [calcSquaredDistance2d, hx, hy]
  ring

theorem MeasuresLengths.distance_back (hmeasures : MeasuresLengths geometry path) {idx : ℕ}
    {front back : PathPointWithLaneId K O} (hfront : path[idx]? = some front)
    (hback : path[idx + 1]? = some back) {ratio : K} (hratio : ratio ≤ 1) {point : Point K}
    (hx : point.x = front.pose.position.x + ratio * (back.pose.position.x - front.pose.position.x))
    (hy : point.y = front.pose.position.y +
      ratio * (back.pose.position.y - front.pose.position.y)) :
    calcDistance2d geometry.toTrigonometry point back.pose.position =
      (1 - ratio) *
        calcDistance2d geometry.toTrigonometry front.pose.position back.pose.position := by
  rw [calcDistance2d, calcDistance2d,
    ← hmeasures.scales idx front back hfront hback (1 - ratio) (sub_nonneg.mpr hratio)]
  congr 1
  simp only [calcSquaredDistance2d, hx, hy]
  ring

/-- A crossing divides the first of the two lines. -/
theorem checkCollision_between {p1 p2 p3 p4 point : Point K}
    (hcollision : checkCollision p1 p2 p3 p4 = some point) :
    ∃ ratio, 0 ≤ ratio ∧ ratio ≤ 1 ∧ point.x = p2.x + ratio * (p1.x - p2.x) ∧
      point.y = p2.y + ratio * (p1.y - p2.y) := by
  rw [checkCollision] at hcollision
  dsimp only at hcollision
  split_ifs at hcollision with hdet hout
  obtain ⟨hnonneg, hle, _, _⟩ := not_or.mp hout |>.imp not_lt.mp fun hrest =>
    (not_or.mp hrest).imp not_lt.mp fun hrest => not_or.mp hrest
  refine ⟨1 - ((p4.y - p3.y) * (p4.x - p1.x) - (p4.x - p3.x) * (p4.y - p1.y)) /
    ((p2.x - p1.x) * (p4.y - p3.y) - (p2.y - p1.y) * (p4.x - p3.x)), sub_nonneg.mpr hle,
    sub_le_self 1 hnonneg, ?_, ?_⟩
  · rw [← Option.some.inj hcollision]
    ring
  · rw [← Option.some.inj hcollision]
    ring

end

/-! ## A path with a stop -/

def DrivesUpTo (geometry : Geometry K O) (path : PathWithLaneId K O) (position : K) : Prop :=
  ∀ i point, path[i]? = some point → positionAt geometry path i ≤ position →
    0 < point.longitudinalVelocityMps

/-- No point from an index on has a negative velocity. -/
def ForwardFrom (path : PathWithLaneId K O) (idx : ℕ) : Prop :=
  ∀ i point, idx ≤ i → path[i]? = some point → 0 ≤ point.longitudinalVelocityMps

theorem DrivesUpTo.not_stopsBy {position : K} (hdrives : DrivesUpTo geometry path position) :
    ¬ StopsBy geometry path position := by
  intro hstops
  obtain ⟨first, hfirst, hposition, hrest⟩ := stopsBy_iff.mp hstops
  have hpoint : path[first]? = some path[first] := List.getElem?_eq_getElem hfirst
  exact (hdrives first _ hpoint hposition).ne' (hrest first _ le_rfl hpoint)

structure StopInserted (geometry : Geometry K O) (path stopped : PathWithLaneId K O)
    (idx stop : ℕ) (embed : ℕ → ℕ) : Prop where
  strictMono : StrictMono embed
  embed_lt : ∀ i < path.length, embed i < stopped.length
  stop_lt : stop < stopped.length
  covers : ∀ j < stopped.length, j = stop ∨ ∃ i < path.length, embed i = j
  positions : ∀ i < path.length, positionAt geometry stopped (embed i) = positionAt geometry path i
  before : ∀ i point, embed i < stop → path[i]? = some point → stopped[embed i]? = some point
  behind : ∀ i point, stop < embed i → path[i]? = some point →
    stopped[embed i]? = some (setVelocity (min 0 point.longitudinalVelocityMps) point)
  idx_lt : ∀ i, stop < embed i → idx < i
  halts : ∀ bound, ForwardFrom path bound → embed bound ≤ stop ∨ bound ≤ idx + 1 →
    ∀ point, stopped[stop]? = some point → point.longitudinalVelocityMps = 0

namespace StopInserted

variable {stopped : PathWithLaneId K O} {idx stop : ℕ} {embed : ℕ → ℕ} {position : K}

theorem stopsBy (hinserted : StopInserted geometry path stopped idx stop embed)
    (hplaced : positionAt geometry stopped stop ≤ position)
    (hforward : ForwardFrom path (idx + 1)) : StopsBy geometry stopped position := by
  refine stopsBy_iff.mpr ⟨stop, hinserted.stop_lt, hplaced, fun j point hle hpoint => ?_⟩
  rcases hle.eq_or_lt with rfl | hlt
  · exact hinserted.halts (idx + 1) hforward (.inr le_rfl) point hpoint
  · obtain ⟨i, hi, rfl⟩ := (hinserted.covers j (List.getElem?_eq_some_iff.mp hpoint).1).resolve_left
      hlt.ne'
    have horiginal : path[i]? = some path[i] := List.getElem?_eq_getElem hi
    rw [hinserted.behind i _ hlt horiginal] at hpoint
    rw [← Option.some.inj hpoint]
    exact min_eq_left (hforward i _ (hinserted.idx_lt i hlt) horiginal)

theorem stopsBy_of_stopsBy (hinserted : StopInserted geometry path stopped idx stop embed)
    (hstops : StopsBy geometry path position) : StopsBy geometry stopped position := by
  obtain ⟨first, hfirst, hposition, hrest⟩ := stopsBy_iff.mp hstops
  refine stopsBy_iff.mpr ⟨embed first, hinserted.embed_lt first hfirst,
    (hinserted.positions first hfirst).trans_le hposition, fun j point hle hpoint => ?_⟩
  rcases hinserted.covers j (List.getElem?_eq_some_iff.mp hpoint).1 with rfl | ⟨i, hi, rfl⟩
  · exact hinserted.halts first (fun i base hbase hat => (hrest i base hbase hat).ge) (.inl hle)
      point hpoint
  · have horiginal : path[i]? = some path[i] := List.getElem?_eq_getElem hi
    have hzero := hrest i _ (hinserted.strictMono.le_iff_le.mp hle) horiginal
    rcases lt_trichotomy (embed i) stop with hlt | heq | hlt
    · rw [hinserted.before i _ hlt horiginal] at hpoint
      rw [← Option.some.inj hpoint]
      exact hzero
    · rw [heq] at hpoint hle
      exact hinserted.halts first (fun i base hbase hat => (hrest i base hbase hat).ge) (.inl hle)
        point hpoint
    · rw [hinserted.behind i _ hlt horiginal] at hpoint
      rw [← Option.some.inj hpoint]
      exact (congrArg (min 0) hzero).trans (min_self 0)

theorem placed_of_stopsBy [IsStrictOrderedRing K]
    (hinserted : StopInserted geometry path stopped idx stop embed)
    (hsqrt : ∀ value, 0 ≤ value → 0 ≤ geometry.sqrt value)
    (hdrives : DrivesUpTo geometry path position) (hstops : StopsBy geometry stopped position) :
    positionAt geometry stopped stop ≤ position ∧ ForwardFrom path 0 := by
  obtain ⟨first, hfirst, hposition, hrest⟩ := stopsBy_iff.mp hstops
  have hmono : Monotone (positionAt geometry stopped) := positionAt_mono hsqrt
  have hstop : stop ≤ first := by
    by_contra hlt
    obtain ⟨i, hi, rfl⟩ := (hinserted.covers first hfirst).resolve_left (not_le.mp hlt).ne
    have horiginal : path[i]? = some path[i] := List.getElem?_eq_getElem hi
    have hpositive := hdrives i _ horiginal ((hinserted.positions i hi).symm.trans_le hposition)
    have hzero := hrest (embed i) _ le_rfl (hinserted.before i _ (not_le.mp hlt) horiginal)
    exact hpositive.ne' hzero
  refine ⟨(hmono hstop).trans hposition, fun i point _ hpoint => ?_⟩
  have hi := (List.getElem?_eq_some_iff.mp hpoint).1
  rcases le_or_gt (positionAt geometry path i) position with hle | hgt
  · exact (hdrives i point hpoint hle).le
  · have hlt : first < embed i := by
      refine hmono.reflect_lt ?_
      rw [hinserted.positions i hi]
      exact hposition.trans_lt hgt
    have hzero := hrest (embed i) _ hlt.le (hinserted.behind i point (hstop.trans_lt hlt) hpoint)
    exact min_eq_left_iff.mp hzero

end StopInserted

/-! ## Inserting a stop -/

section

omit [Field K] [LinearOrder K] in
@[simp] theorem posesOf_modify_setVelocity (idx : ℕ) (velocity : K) :
    posesOf (path.modify idx (setVelocity velocity)) = posesOf path := by
  refine List.ext_getElem? fun i => ?_
  rw [posesOf, posesOf, List.getElem?_map, List.getElem?_map, List.getElem?_modify]
  cases path[i]? with
  | none => rfl
  | some point =>
    by_cases hidx : idx = i
    · simp [hidx, setVelocity]
    · simp [hidx]

section
omit [Field K]

theorem getElem?_setVelocityFromIndex (beginIdx : ℕ) (velocity : K) (i : ℕ) :
    (setVelocityFromIndex beginIdx velocity path)[i]? =
      path[i]?.map fun point =>
        if beginIdx ≤ i then setVelocity (min velocity point.longitudinalVelocityMps) point
        else point := by
  rw [setVelocityFromIndex, List.getElem?_mapIdx]

@[simp] theorem length_setVelocityFromIndex (beginIdx : ℕ) (velocity : K) :
    (setVelocityFromIndex beginIdx velocity path).length = path.length := by
  rw [setVelocityFromIndex, List.length_mapIdx]

@[simp] theorem posesOf_setVelocityFromIndex (beginIdx : ℕ) (velocity : K) :
    posesOf (setVelocityFromIndex beginIdx velocity path) = posesOf path := by
  refine List.ext_getElem? fun i => ?_
  rw [posesOf, posesOf, List.getElem?_map, List.getElem?_map, getElem?_setVelocityFromIndex]
  cases path[i]? with
  | none => rfl
  | some point =>
    by_cases hidx : beginIdx ≤ i
    · simp [hidx, setVelocity]
    · simp [hidx]

end

theorem findNearPoint_bounds {target : Point K} {idx near : ℕ}
    (hnear : findNearPoint geometry path target (idx + 1) = some near) :
    idx ≤ near ∧ near < path.length := by
  have hmem := List.mem_of_find?_eq_some hnear
  have hany := List.find?_some hnear
  refine ⟨?_, ?_⟩
  · rw [List.mem_range'_1] at hmem
    exact hmem.1
  · by_contra hge
    rw [List.getElem?_eq_none (not_lt.mp hge)] at hany
    cases hany

theorem stopInserted_modify {idx near : ℕ} (hidx : idx ≤ near) (hnear : near < path.length) :
    StopInserted geometry path (setVelocityFromIndex near 0 (path.modify near (setVelocity 0)))
      idx near id where
  strictMono := strictMono_id
  embed_lt := fun i hi => by simpa using hi
  stop_lt := by simpa using hnear
  covers := fun j hj => .inr ⟨j, by simpa using hj, rfl⟩
  positions := fun i _ => positionAt_congr (by simp) i
  before := fun i point hlt hpoint => by
    have hne : near ≠ i := (show i < near from hlt).ne'
    rw [id, getElem?_setVelocityFromIndex, List.getElem?_modify, hpoint]
    simp [hne, not_le.mpr (show i < near from hlt)]
  behind := fun i point hlt hpoint => by
    have hne : near ≠ i := (show near < i from hlt).ne
    rw [id, getElem?_setVelocityFromIndex, List.getElem?_modify, hpoint]
    simp [hne, (show near < i from hlt).le]
  idx_lt := fun i hlt => hidx.trans_lt hlt
  halts := fun _ _ _ point hpoint => by
    rw [getElem?_setVelocityFromIndex, List.getElem?_modify, List.getElem?_eq_getElem hnear] at hpoint
    simp only [if_pos, le_refl] at hpoint
    rw [← Option.some.inj hpoint]
    exact min_self 0

structure IsTarget (geometry : Geometry K O) (path : PathWithLaneId K O) (idx : ℕ) (rest : K)
    (pose : Pose K O) (front back : PathPointWithLaneId K O) : Prop where
  front_at : path[idx]? = some front
  back_at : path[idx + 1]? = some back
  rest_nonneg : 0 ≤ rest
  distance_front : calcDistance2d geometry.toTrigonometry front.pose.position pose.position = rest
  distance_back : calcDistance2d geometry.toTrigonometry front.pose.position pose.position +
        calcDistance2d geometry.toTrigonometry pose.position back.pose.position =
      calcDistance2d geometry.toTrigonometry front.pose.position back.pose.position

/-- The index of a point behind the insertion of another one. -/
def shiftBehind (idx i : ℕ) : ℕ :=
  if i ≤ idx then i else i + 1

theorem shiftBehind_strictMono (idx : ℕ) : StrictMono (shiftBehind idx) := by
  intro i j hij
  rw [shiftBehind, shiftBehind]
  split_ifs <;> omega

variable {idx : ℕ} {rest : K} {pose : Pose K O} {front back : PathPointWithLaneId K O}

omit [Field K] [LinearOrder K] in
theorem positions_insertIdx (point : PathPointWithLaneId K O) :
    ((path.insertIdx (idx + 1) point).map fun other => other.pose.position) =
      (path.map fun other => other.pose.position).insertIdx (idx + 1) point.pose.position :=
  List.map_insertIdx ..

theorem stopInserted_insertIdx (htarget : IsTarget geometry path idx rest pose front back) :
    StopInserted geometry path
        (setVelocityFromIndex (idx + 1) 0 (path.insertIdx (idx + 1) { back with pose := pose }))
        idx (idx + 1) (shiftBehind idx) ∧
      positionAt geometry
          (setVelocityFromIndex (idx + 1) 0 (path.insertIdx (idx + 1) { back with pose := pose }))
          (idx + 1) = positionAt geometry path idx + rest := by
  have hlt : idx + 1 < path.length := (List.getElem?_eq_some_iff.mp htarget.back_at).1
  have hlength : (path.insertIdx (idx + 1) { back with pose := pose }).length = path.length + 1 :=
    List.length_insertIdx_of_le_length hlt.le _
  have hposition : ∀ i, positionAt geometry (setVelocityFromIndex (idx + 1) 0
      (path.insertIdx (idx + 1) { back with pose := pose })) i =
      prefixSum (lengthsOf (calcDistance2d geometry.toTrigonometry)
        ((path.map fun other => other.pose.position).insertIdx (idx + 1) pose.position)) i :=
    fun i => by
      rw [positionAt_congr (posesOf_setVelocityFromIndex ..), positionAt_eq, positions_insertIdx]
  have hfront : (path.map fun other => other.pose.position)[idx]? = some front.pose.position := by
    rw [List.getElem?_map, htarget.front_at]
    rfl
  have hback : (path.map fun other => other.pose.position)[idx + 1]? =
      some back.pose.position := by
    rw [List.getElem?_map, htarget.back_at]
    rfl
  refine ⟨?_, ?_⟩
  · refine
      { strictMono := shiftBehind_strictMono idx
        embed_lt := fun i hi => ?_
        stop_lt := by rw [length_setVelocityFromIndex, hlength]; omega
        covers := fun j hj => ?_
        positions := fun i hi => ?_
        before := fun i point hbefore hpoint => ?_
        behind := fun i point hbehind hpoint => ?_
        idx_lt := fun i hbehind => ?_
        halts := fun bound hforward hbound point hpoint => ?_ }
    · rw [length_setVelocityFromIndex, hlength, shiftBehind]
      split_ifs <;> omega
    · rw [length_setVelocityFromIndex, hlength] at hj
      rcases lt_trichotomy j (idx + 1) with hbefore | heq | hbehind
      · exact .inr ⟨j, by omega, if_pos (by omega)⟩
      · exact .inl heq
      · refine .inr ⟨j - 1, by omega, ?_⟩
        rw [shiftBehind, if_neg (by omega)]
        omega
    · rw [hposition, positionAt_eq, shiftBehind]
      split_ifs with hle
      · exact prefixSum_insertIdx_of_le hle (by simpa using Nat.lt_of_succ_lt hlt)
      · exact prefixSum_insertIdx_of_lt hfront hback htarget.distance_back (not_le.mp hle)
    · have hle : i ≤ idx := by
        by_contra hgt
        rw [shiftBehind, if_neg hgt] at hbefore
        omega
      rw [shiftBehind, if_pos hle, getElem?_setVelocityFromIndex,
        List.getElem?_insertIdx_of_lt (by omega), hpoint, Option.map_some,
        if_neg (by omega)]
    · have hgt : ¬ i ≤ idx := by
        intro hle
        rw [shiftBehind, if_pos hle] at hbehind
        omega
      rw [shiftBehind, if_neg hgt, getElem?_setVelocityFromIndex,
        List.getElem?_insertIdx_of_gt (by omega), Nat.add_sub_cancel, hpoint, Option.map_some,
        if_pos (by omega)]
    · by_contra hle
      rw [shiftBehind, if_pos (not_lt.mp hle)] at hbehind
      omega
    · rw [getElem?_setVelocityFromIndex, List.getElem?_insertIdx_self, if_pos (by omega),
        Option.map_some, if_pos le_rfl] at hpoint
      have hbound : bound ≤ idx + 1 := by
        rcases hbound with hembed | hle
        · rw [shiftBehind] at hembed
          split_ifs at hembed <;> omega
        · exact hle
      rw [← Option.some.inj hpoint]
      exact min_eq_left (hforward (idx + 1) back hbound htarget.back_at)
  · rw [hposition, prefixSum_insertIdx_self hfront, htarget.distance_front, positionAt_eq]

theorem insertVelocity_stopInserted (htarget : IsTarget geometry path idx rest pose front back) :
    ∃ embed, StopInserted geometry path
        (insertVelocity geometry path { back with pose := pose } 0 (idx + 1)).1 idx
        (insertVelocity geometry path { back with pose := pose } 0 (idx + 1)).2 embed ∧
      positionAt geometry
          (insertVelocity geometry path { back with pose := pose } 0 (idx + 1)).1
          (insertVelocity geometry path { back with pose := pose } 0 (idx + 1)).2 =
        placedPosition geometry path idx rest pose.position := by
  rw [insertVelocity, placedPosition]
  cases hnear : findNearPoint geometry path pose.position (idx + 1) with
  | none =>
    obtain ⟨hinserted, hposition⟩ := stopInserted_insertIdx htarget
    exact ⟨shiftBehind idx, hinserted, hposition⟩
  | some near =>
    obtain ⟨hidx, hlt⟩ := findNearPoint_bounds hnear
    exact ⟨id, stopInserted_modify hidx hlt, positionAt_congr (by simp) near⟩

/-- The stop is not before the front of its segment. -/
theorem positionAt_le_placedPosition [IsStrictOrderedRing K]
    (hsqrt : ∀ value, 0 ≤ value → 0 ≤ geometry.sqrt value)
    (htarget : IsTarget geometry path idx rest pose front back) :
    positionAt geometry path idx ≤ placedPosition geometry path idx rest pose.position := by
  rw [placedPosition]
  cases hnear : findNearPoint geometry path pose.position (idx + 1) with
  | none => exact le_add_of_nonneg_right htarget.rest_nonneg
  | some near => exact positionAt_mono hsqrt (findNearPoint_bounds hnear).1

theorem calcTargetPose_isTarget [IsStrictOrderedRing K] (hmeasures : MeasuresLengths geometry path)
    (hfront : path[idx]? = some front) (hback : path[idx + 1]? = some back) (hrest : 0 ≤ rest)
    (hpart : rest ≤ calcDistance2d geometry.toTrigonometry front.pose.position back.pose.position)
    (hlength : calcDistance2d geometry.toTrigonometry front.pose.position back.pose.position ≠ 0) :
    ∃ pose, calcTargetPose geometry path (idx, rest) = .ok pose ∧
      IsTarget geometry path idx rest pose front back := by
  have hnorm : geometry.sqrt ((back.pose.position.x - front.pose.position.x) *
          (back.pose.position.x - front.pose.position.x) +
        (back.pose.position.y - front.pose.position.y) *
          (back.pose.position.y - front.pose.position.y)) =
      calcDistance2d geometry.toTrigonometry front.pose.position back.pose.position := by
    rw [calcDistance2d, calcSquaredDistance2d_comm]
    rfl
  have hpositive := lt_of_le_of_ne (calcDistance2d_nonneg hmeasures.nonneg _ _) hlength.symm
  obtain ⟨pose, hpose, hx, hy⟩ : ∃ pose, calcTargetPose geometry path (idx, rest) = .ok pose ∧
      pose.position.x = front.pose.position.x +
        rest / calcDistance2d geometry.toTrigonometry front.pose.position back.pose.position *
          (back.pose.position.x - front.pose.position.x) ∧
      pose.position.y = front.pose.position.y +
        rest / calcDistance2d geometry.toTrigonometry front.pose.position back.pose.position *
          (back.pose.position.y - front.pose.position.y) := by
    simp only [calcTargetPose, atIndex, hfront, hback, pure_bind, hnorm, if_neg hlength]
    exact ⟨_, rfl, rfl, rfl⟩
  have hnear := hmeasures.distance_front hfront hback (div_nonneg hrest hpositive.le) hx hy
  have hfar := hmeasures.distance_back hfront hback ((div_le_one hpositive).mpr hpart) hx hy
  refine ⟨pose, hpose, hfront, hback, hrest, ?_, ?_⟩
  · rw [hnear, div_mul_cancel₀ rest hlength]
  · rw [hnear, hfar]
    ring

theorem calcTargetPose_error (hfront : path[idx]? = some front) (hback : path[idx + 1]? = some back)
    (hlength : calcDistance2d geometry.toTrigonometry front.pose.position back.pose.position = 0) :
    calcTargetPose geometry path (idx, rest) = .error .notANumber := by
  rw [calcDistance2d, calcSquaredDistance2d_comm] at hlength
  simp only [calcTargetPose, atIndex, hfront, hback]
  exact if_pos hlength

end

/-! ## The segment of a stop -/

section

variable [IsStrictOrderedRing K] {index : ℕ} {offset : K}

theorem findOffsetSegment_backward (geometry : Geometry K O) (hindex : index < path.length)
    (hoffset : offset < 0) :
    (∃ idx, findOffsetSegment geometry path index (some offset) =
        .ok (some (idx, positionAt geometry path index + offset - positionAt geometry path idx)) ∧
      idx < index ∧ positionAt geometry path idx ≤ positionAt geometry path index + offset ∧
      positionAt geometry path index + offset < positionAt geometry path (idx + 1)) ∨
    (findOffsetSegment geometry path index (some offset) = .ok none ∧
      positionAt geometry path index + offset < 0) := by
  have hlength : index ≤ (lengthsOfPath geometry path).length := by
    rw [length_lengthsOfPath]
    omega
  have hfound : findOffsetSegment geometry path index (some offset) =
      .ok (findBackward (lengthsOfPath geometry path) (-offset) index 0) := by
    rw [findOffsetSegment, if_neg (not_le.mpr hoffset), findBackwardOffsetSegment,
      if_neg fun hout => absurd hout.2 (not_le.mpr hindex)]
    rfl
  have hplace : prefixSum (lengthsOfPath geometry path) index + 0 - -offset =
      positionAt geometry path index + offset := by
    rw [positionAt]
    ring
  have hcases := findBackward_cases hlength (neg_pos.mpr hoffset)
  rw [hplace] at hcases
  rcases hcases with ⟨idx, hidx, hlt, hle, hbehind⟩ | ⟨hnone, hstart⟩
  · exact .inl ⟨idx, by rw [hfound, hidx]; rfl, hlt, hle, hbehind⟩
  · exact .inr ⟨by rw [hfound, hnone], hstart⟩

omit [IsStrictOrderedRing K] in
theorem exists_findOffsetSegment (hindex : index < path.length) :
    ∃ found, findOffsetSegment geometry path index (some offset) = .ok found := by
  have hnonempty : path.isEmpty ≠ true := by
    rw [ne_eq, List.isEmpty_iff]
    rintro rfl
    cases hindex
  rw [findOffsetSegment]
  split_ifs
  · rw [findForwardOffsetSegment, if_neg hnonempty]
    exact ⟨_, rfl⟩
  · rw [findBackwardOffsetSegment, if_neg fun hout => absurd hout.2 (not_le.mpr hindex)]
    exact ⟨_, rfl⟩

variable {segment : ℕ × K}

theorem findOffsetSegment_forward (hsqrt : ∀ value, 0 ≤ value → 0 ≤ geometry.sqrt value)
    (hindex : index < path.length) (hoffset : 0 ≤ offset)
    (hfound : findOffsetSegment geometry path index (some offset) = .ok (some segment)) :
    index ≤ segment.1 ∧ 0 ≤ segment.2 ∧
      ∃ length, (lengthsOfPath geometry path)[segment.1]? = some length ∧ segment.2 ≤ length ∧
        (length = 0 → (lengthsOfPath geometry path)[index]? = some 0) := by
  have hnonempty : path.isEmpty ≠ true := by
    rw [ne_eq, List.isEmpty_iff]
    rintro rfl
    cases hindex
  rw [findOffsetSegment, if_pos hoffset, findForwardOffsetSegment, if_neg hnonempty] at hfound
  have hsegment := Except.ok.inj hfound
  obtain ⟨hle, hrest, length, hlength, hpart, hstrict⟩ := findForward_some hoffset hsegment
  refine ⟨hle, hrest, length, hlength, hpart, fun hzero => ?_⟩
  -- Without a length behind it only the first segment is reached.
  have hoffset0 : offset = 0 := by
    by_contra hne
    have hlt := hstrict (lt_of_le_of_ne hoffset (Ne.symm hne))
    exact absurd hrest (not_le.mpr (hlt.trans_eq hzero))
  have hwithin : segment.1 < (lengthsOfPath geometry path).length :=
    (List.getElem?_eq_some_iff.mp hlength).1
  have hfirst : (lengthsOfPath geometry path)[index]? =
      some (lengthsOfPath geometry path)[index] := List.getElem?_eq_getElem (hle.trans_lt hwithin)
  have hnonneg := lengthsOfPath_nonneg hsqrt _ (List.mem_of_getElem? hfirst)
  rw [findForward_of_le (by omega) hfirst (by rw [hoffset0, zero_add]; exact hnonneg)] at hsegment
  rw [← Option.some.inj hsegment] at hlength
  rw [hlength, hzero]

theorem length_of_findOffsetSegment (hsqrt : ∀ value, 0 ≤ value → 0 ≤ geometry.sqrt value)
    (hindex : index < path.length)
    (hfound : findOffsetSegment geometry path index (some offset) = .ok (some segment)) :
    0 ≤ segment.2 ∧ ∃ length, (lengthsOfPath geometry path)[segment.1]? = some length ∧
      segment.2 ≤ length ∧ (length = 0 → (lengthsOfPath geometry path)[index]? = some 0) := by
  rcases le_or_gt 0 offset with hforward | hbackward
  · exact (findOffsetSegment_forward hsqrt hindex hforward hfound).2
  · rcases findOffsetSegment_backward geometry hindex hbackward with
      ⟨idx, hidx, hlt, hle, hbehind⟩ | ⟨hnone, _⟩
    · obtain rfl := Option.some.inj (Except.ok.inj (hidx.symm.trans hfound))
      have hwithin : idx < (lengthsOfPath geometry path).length := by
        rw [length_lengthsOfPath]
        omega
      have hlength : (lengthsOfPath geometry path)[idx]? =
          some (lengthsOfPath geometry path)[idx] := List.getElem?_eq_getElem hwithin
      have hsucc : positionAt geometry path (idx + 1) =
          positionAt geometry path idx + (lengthsOfPath geometry path)[idx] :=
        prefixSum_succ hlength
      rw [hsucc] at hbehind
      refine ⟨sub_nonneg.mpr hle, _, hlength, (sub_lt_iff_lt_add'.mpr hbehind).le, fun hzero => ?_⟩
      rw [hzero, add_zero] at hbehind
      exact absurd hle (not_le.mpr hbehind)
    · cases hnone.symm.trans hfound

theorem calcTargetPose_cases (hmeasures : MeasuresLengths geometry path)
    (hindex : index < path.length)
    (hfound : findOffsetSegment geometry path index (some offset) = .ok (some segment)) :
    (∃ pose front back, calcTargetPose geometry path segment = .ok pose ∧
        IsTarget geometry path segment.1 segment.2 pose front back) ∨
      (calcTargetPose geometry path segment = .error .notANumber ∧
        (lengthsOfPath geometry path)[index]? = some 0) := by
  obtain ⟨hrest, length, hlength, hpart, hzero⟩ :=
    length_of_findOffsetSegment hmeasures.nonneg hindex hfound
  obtain ⟨front, back, hfront, hback, rfl⟩ := points_of_getElem?_lengthsOfPath hlength
  by_cases hequal :
      calcDistance2d geometry.toTrigonometry front.pose.position back.pose.position = 0
  · exact .inr ⟨calcTargetPose_error hfront hback hequal, hzero hequal⟩
  · obtain ⟨pose, hpose, htarget⟩ :=
      calcTargetPose_isTarget hmeasures hfront hback hrest hpart hequal
    exact .inl ⟨pose, front, back, hpose, htarget⟩

end

def rationalGeometry : Geometry ℚ Unit :=
  { rationalTrigonometry with
    azimuthTo := fun _ _ => ()
    unset := () }

def alongAxis (xs : List ℚ) : PathWithLaneId ℚ Unit :=
  xs.map fun x => ⟨poseAt x 0, 10, [1]⟩

theorem calcDistance2d_alongAxis {xs : List ℚ} {i j : ℕ} {front back : PathPointWithLaneId ℚ Unit}
    (hfront : (alongAxis xs)[i]? = some front) (hback : (alongAxis xs)[j]? = some back) :
    calcSquaredDistance2d front.pose.position back.pose.position =
      (front.pose.position.x - back.pose.position.x) *
        (front.pose.position.x - back.pose.position.x) := by
  rw [alongAxis, List.getElem?_map, Option.map_eq_some_iff] at hfront hback
  obtain ⟨_, _, rfl⟩ := hfront
  obtain ⟨_, _, rfl⟩ := hback
  simp [calcSquaredDistance2d, poseAt]

end

/-! ## Insertion of a velocity on a path -/

variable {K O : Type} [Field K] [LinearOrder K] {geometry : Geometry K O}

def findPointWithin (geometry : Geometry K O) (path : PathWithLaneId K O) (position : Point K)
    (insertIndex : ℕ) (minDist : K) : Option ℕ :=
  let minIdx := insertIndex - 1
  let maxIdx := min (insertIndex + 1) (path.length - 1)
  (List.range' minIdx (maxIdx + 1 - minIdx)).find? fun i =>
    (path[i]?).any fun point =>
      calcDistance2d geometry.toTrigonometry point.pose.position position < minDist

/-- `insertVelocity` with a `min_distance` of the caller: the path and the index. -/
def insertVelocityWithin (geometry : Geometry K O) (path : PathWithLaneId K O)
    (pathPoint : PathPointWithLaneId K O) (v : K) (insertIndex : ℕ) (minDist : K) :
    PathWithLaneId K O × ℕ :=
  match findPointWithin geometry path pathPoint.pose.position insertIndex minDist with
  | some i => (setVelocityFromIndex i v (path.modify i (setVelocity v)), i)
  | none => (setVelocityFromIndex insertIndex v (path.insertIdx insertIndex pathPoint), insertIndex)

variable {path : PathWithLaneId K O} {pathPoint : PathPointWithLaneId K O} {v : K}
  {insertIndex : ℕ} {minDist : K}

def IsClose (geometry : Geometry K O) (path : PathWithLaneId K O) (position : Point K)
    (minDist : K) (i : ℕ) : Prop :=
  ∃ point, path[i]? = some point ∧
    calcDistance2d geometry.toTrigonometry point.pose.position position < minDist

def IsFirstClose (geometry : Geometry K O) (path : PathWithLaneId K O) (position : Point K)
    (insertIndex : ℕ) (minDist : K) (i : ℕ) : Prop :=
  insertIndex ≤ i + 1 ∧ i ≤ insertIndex + 1 ∧ IsClose geometry path position minDist i ∧
    ∀ k, insertIndex ≤ k + 1 → k < i → ¬ IsClose geometry path position minDist k

variable {position : Point K} {i : ℕ}

theorem any_close_iff :
    ((path[i]?).any fun point => decide
      (calcDistance2d geometry.toTrigonometry point.pose.position position < minDist)) = true ↔
      IsClose geometry path position minDist i := by
  rw [Option.any_eq_true]
  simp only [IsClose, decide_eq_true_eq]

theorem IsClose.lt_length
    (hclose : IsClose geometry path position minDist i) : i < path.length := by
  obtain ⟨point, hpoint, -⟩ := hclose
  exact (List.getElem?_eq_some_iff.mp hpoint).1

theorem findPointWithin_eq_some :
    findPointWithin geometry path position insertIndex minDist = some i ↔
      IsFirstClose geometry path position insertIndex minDist i := by
  rw [findPointWithin, List.find?_range'_eq_some]
  simp only [any_close_iff, Bool.not_eq_true', ← Bool.not_eq_true, List.mem_range'_1]
  constructor
  · rintro ⟨hclose, ⟨hle, hlt⟩, hfirst⟩
    refine ⟨by omega, by omega, hclose, fun k hk hlt => ?_⟩
    exact hfirst k (by omega) hlt
  · rintro ⟨hle, hle', hclose, hfirst⟩
    have hlength := hclose.lt_length
    exact ⟨hclose, ⟨by omega, by omega⟩, fun k hk hlt => hfirst k (by omega) hlt⟩

/-! ## Lowered velocities -/

/-- The points of a path, none of them faster than before. -/
def Lowered (path after : PathWithLaneId K O) : Prop :=
  after.length = path.length ∧ ∀ (i : ℕ) (point : PathPointWithLaneId K O), path[i]? = some point →
      ∃ velocity ≤ point.longitudinalVelocityMps, after[i]? = some (setVelocity velocity point)

structure VelocityInserted (path : PathWithLaneId K O) (v : K)
    (inserted : PathWithLaneId K O × ℕ) : Prop where
  lowered : Lowered path inserted.1 ∨
    inserted.1.length = path.length + 1 ∧ Lowered path (inserted.1.eraseIdx inserted.2)
  slow : ∀ i point, inserted.2 ≤ i → inserted.1[i]? = some point → point.longitudinalVelocityMps ≤ v

section
omit [Field K]

theorem slow_setVelocityFromIndex {beginIdx i : ℕ} {point : PathPointWithLaneId K O}
    (hle : beginIdx ≤ i) (hpoint : (setVelocityFromIndex beginIdx v path)[i]? = some point) :
    point.longitudinalVelocityMps ≤ v := by
  rw [getElem?_setVelocityFromIndex] at hpoint
  obtain ⟨before, -, rfl⟩ := Option.map_eq_some_iff.mp hpoint
  rw [if_pos hle]
  exact min_le_left _ _

theorem setVelocityFromIndex_lowers (beginIdx i : ℕ) (point : PathPointWithLaneId K O) :
    ∃ velocity ≤ point.longitudinalVelocityMps,
      (if beginIdx ≤ i then setVelocity (min v point.longitudinalVelocityMps) point else point) =
        setVelocity velocity point := by
  by_cases hle : beginIdx ≤ i
  · exact ⟨_, min_le_right _ _, if_pos hle⟩
  · exact ⟨_, le_rfl, if_neg hle⟩

/-- A new point at the index leaves the points of the path where they were. -/
theorem lowered_insertIdx (hindex : insertIndex ≤ path.length) :
    Lowered path ((setVelocityFromIndex insertIndex v
      (path.insertIdx insertIndex pathPoint)).eraseIdx insertIndex) := by
  have hlength := List.length_insertIdx_of_le_length hindex pathPoint
  refine ⟨?_, fun i point hpoint => ?_⟩
  · rw [List.length_eraseIdx_of_lt]
    · rw [length_setVelocityFromIndex, hlength, Nat.add_sub_cancel]
    · rw [length_setVelocityFromIndex, hlength]
      omega
  · rw [List.getElem?_eraseIdx]
    by_cases hlt : i < insertIndex
    · obtain ⟨velocity, hle, heq⟩ := setVelocityFromIndex_lowers (v := v) insertIndex i point
      refine ⟨velocity, hle, ?_⟩
      rw [if_pos hlt, getElem?_setVelocityFromIndex, List.getElem?_insertIdx_of_lt hlt, hpoint,
        Option.map_some, heq]
    · obtain ⟨velocity, hle, heq⟩ := setVelocityFromIndex_lowers (v := v) insertIndex (i + 1) point
      refine ⟨velocity, hle, ?_⟩
      rw [if_neg hlt, getElem?_setVelocityFromIndex,
        List.getElem?_insertIdx_of_gt (Nat.lt_succ_of_le (not_lt.mp hlt)), Nat.succ_sub_one,
        hpoint, Option.map_some, heq]

end

theorem insertVelocityWithin_some
    (hclose : IsFirstClose geometry path pathPoint.pose.position insertIndex minDist i) :
    insertVelocityWithin geometry path pathPoint v insertIndex minDist =
      (setVelocityFromIndex i v (path.modify i (setVelocity v)), i) := by
  rw [insertVelocityWithin, findPointWithin_eq_some.mpr hclose]

omit [Field K] in
/-- Using a close point that is not slower raises nothing. -/
theorem lowered_modify (hslower : ∀ point, path[i]? = some point →
      v ≤ point.longitudinalVelocityMps) :
    Lowered path (setVelocityFromIndex i v (path.modify i (setVelocity v))) := by
  refine ⟨by rw [length_setVelocityFromIndex, List.length_modify], fun k point hpoint => ?_⟩
  rw [getElem?_setVelocityFromIndex, List.getElem?_modify, hpoint]
  by_cases hsame : i = k
  · subst hsame
    refine ⟨v, hslower point hpoint, ?_⟩
    simp [setVelocity]
  · obtain ⟨velocity, hle, heq⟩ := setVelocityFromIndex_lowers (v := v) i k point
    refine ⟨velocity, hle, ?_⟩
    simp only [if_neg hsame, Option.map_eq_map, Option.map_some, heq]

theorem velocityInserted_of_not_slower (hindex : insertIndex ≤ path.length) (hslower : ∀ i point,
      IsFirstClose geometry path pathPoint.pose.position insertIndex minDist i →
      path[i]? = some point → v ≤ point.longitudinalVelocityMps) :
    VelocityInserted path v
      (insertVelocityWithin geometry path pathPoint v insertIndex minDist) := by
  rw [insertVelocityWithin]
  cases hfound : findPointWithin geometry path pathPoint.pose.position insertIndex minDist with
  | some i =>
    have hfirst := findPointWithin_eq_some.mp hfound
    exact ⟨.inl (lowered_modify fun point => hslower i point hfirst),
      fun k point => slow_setVelocityFromIndex⟩
  | none =>
    refine ⟨.inr ⟨?_, lowered_insertIdx hindex⟩, fun k point => slow_setVelocityFromIndex⟩
    rw [length_setVelocityFromIndex, List.length_insertIdx_of_le_length hindex]

/-- A velocity is inserted exactly if the close point that is used, if there is
one, is not slower than the velocity. -/
theorem velocityInserted_iff (hindex : insertIndex ≤ path.length) : VelocityInserted path v
        (insertVelocityWithin geometry path pathPoint v insertIndex minDist) ↔
      ∀ i point, IsFirstClose geometry path pathPoint.pose.position insertIndex minDist i →
        path[i]? = some point → v ≤ point.longitudinalVelocityMps := by
  refine ⟨fun hinserted i point hfirst hpoint => ?_, velocityInserted_of_not_slower hindex⟩
  have hlowered := hinserted.lowered
  rw [insertVelocityWithin_some hfirst] at hlowered
  rcases hlowered with hlowered | ⟨hlength, -⟩
  · obtain ⟨velocity, hle, heq⟩ := hlowered.2 i point hpoint
    rw [getElem?_setVelocityFromIndex, List.getElem?_modify, hpoint] at heq
    have hvelocity : v = velocity := by simpa [setVelocity] using heq
    rw [hvelocity]
    exact hle
  · rw [length_setVelocityFromIndex, List.length_modify] at hlength
    omega

def threePoints (middle : ℚ) : PathWithLaneId ℚ Unit :=
  [⟨poseAt 0 0, 10, []⟩, ⟨poseAt 1 0, middle, []⟩, ⟨poseAt 2 0, 10, []⟩]

/-- A slow point is inserted beside a fast one. -/
theorem velocityInserted_threePoints :
    let pathPoint : PathPointWithLaneId ℚ Unit := ⟨poseAt 1 0, 10, []⟩
    (insertVelocityWithin rationalGeometry (threePoints 10) pathPoint 3 1 (1 / 1000)).2 = 1 ∧
      VelocityInserted (threePoints 10) 3
        (insertVelocityWithin rationalGeometry (threePoints 10) pathPoint 3 1 (1 / 1000)) := by
  intro pathPoint
  refine ⟨by decide +kernel, (velocityInserted_iff (by decide)).mpr fun i point _ hpoint => ?_⟩
  have hall : ∀ point ∈ threePoints 10, 3 ≤ point.longitudinalVelocityMps := by decide +kernel
  exact hall point (List.mem_of_getElem? hpoint)

/-- The stop of another module is replaced by a slow velocity. -/
theorem velocityInserted_raises_stop :
    ¬ ∀ (path : PathWithLaneId ℚ Unit) (pathPoint : PathPointWithLaneId ℚ Unit) (v : ℚ)
      (insertIndex : ℕ) (minDist : ℚ), 0 ≤ v → insertIndex ≤ path.length →
      VelocityInserted path v
        (insertVelocityWithin rationalGeometry path pathPoint v insertIndex minDist) := by
  intro hall
  have hinserted := hall (threePoints 0) ⟨poseAt 1 0, 10, []⟩ 3 1 (1 / 1000) (by decide +kernel)
    (by decide)
  rcases hinserted.lowered with hlowered | ⟨hlength, -⟩
  · obtain ⟨velocity, hle, heq⟩ := hlowered.2 1 ⟨poseAt 1 0, 0, []⟩ rfl
    have hthree : (insertVelocityWithin rationalGeometry (threePoints 0) ⟨poseAt 1 0, 10, []⟩ 3 1
        (1 / 1000)).1[1]? = some ⟨poseAt 1 0, 3, []⟩ := by
      decide +kernel
    have hvelocity : (3 : ℚ) = velocity := by
      simpa [setVelocity] using hthree.symm.trans heq
    rw [← hvelocity] at hle
    exact absurd hle (by decide +kernel)
  · exact absurd hlength (by decide +kernel)

end

/-!
## The target point before a stop line

The target lies at an offset from the point where the path crosses the stop line.
The segment around it is searched for from the crossed segment, backward or
forward, and comes with a rest that is measured from its front.
-/

variable {K O : Type} [Field K] [LinearOrder K]

/-- The points of a `LineString2d`. -/
abbrev LineString2d (K : Type) := List (K × K)

omit [LinearOrder K] in
def convertToGeomPoint (point : K × K) : Point K := ⟨point.1, point.2, 0⟩

variable (geometry : Geometry K O) (path : PathWithLaneId K O)

/-- `findOffsetSegment` from the crossing with a line. -/
def findOffsetSegmentFrom (collisionSegment : ℕ × Point K) (offsetLength : K) :
    Except Failure (Option (ℕ × K)) :=
  let collisionIdx := collisionSegment.1
  let collisionPoint := collisionSegment.2
  if 0 ≤ offsetLength then do
    let front ← atIndex path collisionIdx
    findForwardOffsetSegment geometry path collisionIdx (offsetLength +
      calcDistance2d geometry.toTrigonometry front.pose.position collisionPoint)
  else do
    let back ← atIndex path (collisionIdx + 1)
    findBackwardOffsetSegment geometry path (collisionIdx + 1) (-offsetLength +
      calcDistance2d geometry.toTrigonometry back.pose.position collisionPoint)

/-- `findOffsetSegment` followed by `calcTargetPose`. -/
def targetAtOffset (collisionSegment : ℕ × Point K) (offsetLength : K) :
    Except Failure (Option (ℕ × Pose K O)) := do
  match ← findOffsetSegmentFrom geometry path collisionSegment offsetLength with
  | none => return none
  | some offsetSegment =>
    let targetPose ← calcTargetPose geometry path offsetSegment
    return some (offsetSegment.1, targetPose)

def createTargetPoint (stopLine : LineString2d K) (laneId : ℤ) (margin vehicleOffset : K) :
    Except Failure (Option (ℕ × Pose K O)) := do
  let stopLineP1 ← atIndex stopLine 0
  let stopLineP2 ← atIndex stopLine 1
  match ← findCollisionSegment path (convertToGeomPoint stopLineP1)
      (convertToGeomPoint stopLineP2) laneId with
  | none => return none
  | some collisionSegment =>
    targetAtOffset geometry path collisionSegment (-(margin + vehicleOffset))

def IsPointAt (position : K) (idx : ℕ) (point : Point K) : Prop :=
  ∃ front back ratio, path[idx]? = some front ∧ path[idx + 1]? = some back ∧
    0 ≤ ratio ∧ ratio ≤ 1 ∧ point = pointOn front.pose.position back.pose.position ratio ∧
    position = positionAt geometry path idx +
      ratio * calcDistance2d geometry.toTrigonometry front.pose.position back.pose.position

def collisionPosition (collisionSegment : ℕ × Point K) : K :=
  positionAt geometry path collisionSegment.1 +
    path[collisionSegment.1]?.elim 0 fun front =>
      calcDistance2d geometry.toTrigonometry front.pose.position collisionSegment.2

structure TargetPlaced (geometry : Geometry K O) (path : PathWithLaneId K O) (position : K)
    (target : Except Failure (Option (ℕ × Pose K O))) : Prop where
  none_iff : target = .ok none ↔
    position < 0 ∨ positionAt geometry path (path.length - 1) < position
  succeeds : ∀ failure, target ≠ .error failure
  placed : ∀ idx pose, target = .ok (some (idx, pose)) →
    IsPointAt geometry path position idx pose.position

structure ExactLengths (geometry : Geometry K O) (path : PathWithLaneId K O) : Prop
    extends MeasuresLengths geometry path where
  mul_self : ∀ idx front back, path[idx]? = some front → path[idx + 1]? = some back →
    calcDistance2d geometry.toTrigonometry front.pose.position back.pose.position *
        calcDistance2d geometry.toTrigonometry front.pose.position back.pose.position =
      calcSquaredDistance2d front.pose.position back.pose.position

theorem exactLengths_of_exactSqrt [IsStrictOrderedRing K] {geometry : Geometry K O}
    (hexact : ExactSqrt geometry.toTrigonometry) (path : PathWithLaneId K O) :
    ExactLengths geometry path where
  nonneg := hexact.nonneg
  scales := fun _ front back _ _ ratio hratio => by
    refine hexact.eq_of_mul_self (mul_nonneg hratio (hexact.calcDistance2d_nonneg _ _)) ?_
    rw [mul_mul_mul_comm]
    exact congrArg _ (hexact.calcDistance2d_mul_self _ _)
  mul_self := fun _ _ _ _ _ => hexact.calcDistance2d_mul_self _ _

variable {geometry : Geometry K O} {path : PathWithLaneId K O} {collisionSegment : ℕ × Point K}
  {offset : K}

/-- The crossing lies on a segment that has a length. -/
structure IsOnSegment (geometry : Geometry K O) (path : PathWithLaneId K O)
    (collisionSegment : ℕ × Point K) (front back : PathPointWithLaneId K O) : Prop where
  front_at : path[collisionSegment.1]? = some front
  back_at : path[collisionSegment.1 + 1]? = some back
  front_nonneg : 0 ≤ calcDistance2d geometry.toTrigonometry front.pose.position collisionSegment.2
  back_nonneg : 0 ≤ calcDistance2d geometry.toTrigonometry back.pose.position collisionSegment.2
  parts : calcDistance2d geometry.toTrigonometry front.pose.position collisionSegment.2 +
      calcDistance2d geometry.toTrigonometry back.pose.position collisionSegment.2 =
    calcDistance2d geometry.toTrigonometry front.pose.position back.pose.position
  distinct : calcDistance2d geometry.toTrigonometry front.pose.position back.pose.position ≠ 0

variable {laneId : ℤ}

theorem findCollisionSegmentFrom_some {stopLineP1 stopLineP2 : Point K} {i : ℕ}
    (hfound : findCollisionSegmentFrom stopLineP1 stopLineP2 laneId i path = some collisionSegment) :
    ∃ k front back, collisionSegment.1 = i + k ∧ path[k]? = some front ∧ path[k + 1]? = some back ∧
      checkCollision front.pose.position back.pose.position stopLineP1 stopLineP2 =
        some collisionSegment.2 := by
  fun_induction findCollisionSegmentFrom stopLineP1 stopLineP2 laneId i path with
  | case1 i prev next rest hlane ih =>
    obtain ⟨k, front, back, hk, hfront, hback, hcross⟩ := ih hfound
    exact ⟨k + 1, front, back, by omega, hfront, hback, hcross⟩
  | case2 i prev next rest hlane point hcross =>
    rw [← Option.some.inj hfound]
    exact ⟨0, prev, next, rfl, rfl, rfl, hcross⟩
  | case3 i prev next rest hlane hcross ih =>
    obtain ⟨k, front, back, hk, hfront, hback, hcross⟩ := ih hfound
    exact ⟨k + 1, front, back, by omega, hfront, hback, hcross⟩
  | case4 => cases hfound

theorem checkCollision_distinct {p1 p2 p3 p4 point : Point K}
    (hcollision : checkCollision p1 p2 p3 p4 = some point) : p1.x ≠ p2.x ∨ p1.y ≠ p2.y := by
  by_contra hsame
  rw [not_or, not_not, not_not] at hsame
  rw [checkCollision, hsame.1, hsame.2] at hcollision
  simp at hcollision

variable [IsStrictOrderedRing K]

theorem isOnSegment_of_findCollisionSegment (hexact : ExactLengths geometry path)
    {stopLineP1 stopLineP2 : Point K}
    (hfound : findCollisionSegment path stopLineP1 stopLineP2 laneId =
      .ok (some collisionSegment)) :
    ∃ front back, IsOnSegment geometry path collisionSegment front back := by
  rw [findCollisionSegment] at hfound
  split at hfound
  · cases hfound
  · obtain ⟨k, front, back, hk, hfront, hback, hcross⟩ :=
      findCollisionSegmentFrom_some (Except.ok.inj hfound)
    rw [Nat.zero_add] at hk
    obtain ⟨ratio, hnonneg, hle, hx, hy⟩ := checkCollision_between hcross
    have hx' : collisionSegment.2.x = front.pose.position.x +
        (1 - ratio) * (back.pose.position.x - front.pose.position.x) := by
      rw [hx]
      ring
    have hy' : collisionSegment.2.y = front.pose.position.y +
        (1 - ratio) * (back.pose.position.y - front.pose.position.y) := by
      rw [hy]
      ring
    have hnear := hexact.distance_front hfront hback (sub_nonneg.mpr hle) hx' hy'
    have hfar := hexact.distance_back hfront hback (sub_le_self 1 hnonneg) hx' hy'
    have hcomm : calcDistance2d geometry.toTrigonometry back.pose.position collisionSegment.2 =
        calcDistance2d geometry.toTrigonometry collisionSegment.2 back.pose.position :=
      Common.MotionUtils.calcDistance2d_comm _ _ _
    refine ⟨front, back, hk ▸ hfront, hk ▸ hback, calcDistance2d_nonneg hexact.nonneg _ _,
      calcDistance2d_nonneg hexact.nonneg _ _, ?_, fun hzero => ?_⟩
    · rw [hcomm, hnear, hfar]
      ring
    · have hsquare := hexact.mul_self k front back hfront hback
      rw [hzero, mul_zero, calcSquaredDistance2d, eq_comm, mul_self_add_mul_self_eq_zero,
        sub_eq_zero, sub_eq_zero] at hsquare
      exact (checkCollision_distinct hcross).elim (fun hne => hne hsquare.1)
        fun hne => hne hsquare.2

/-! ## The target -/

omit [IsStrictOrderedRing K] in
theorem calcTargetPose_eq {idx : ℕ} (rest : K) {front back : PathPointWithLaneId K O}
    (hfront : path[idx]? = some front) (hback : path[idx + 1]? = some back)
    (hlength : calcDistance2d geometry.toTrigonometry front.pose.position back.pose.position ≠ 0) :
    ∃ pose, calcTargetPose geometry path (idx, rest) = .ok pose ∧
      pose.position = pointOn front.pose.position back.pose.position
        (rest / calcDistance2d geometry.toTrigonometry front.pose.position back.pose.position) := by
  have hnorm : geometry.sqrt ((back.pose.position.x - front.pose.position.x) *
          (back.pose.position.x - front.pose.position.x) +
        (back.pose.position.y - front.pose.position.y) *
          (back.pose.position.y - front.pose.position.y)) =
      calcDistance2d geometry.toTrigonometry front.pose.position back.pose.position := by
    rw [calcDistance2d, calcSquaredDistance2d_comm]
    rfl
  simp only [calcTargetPose, atIndex, hfront, hback, pure_bind, hnorm, if_neg hlength]
  refine ⟨_, rfl, ?_⟩
  simp only [pointOn, mul_comm]

theorem pointOn_injective {first second : Point K} {ratio other : K}
    (hdistinct : calcSquaredDistance2d first second ≠ 0)
    (hsame : pointOn first second ratio = pointOn first second other) : ratio = other := by
  have hx : (second.x - first.x) * ratio = (second.x - first.x) * other :=
    add_left_cancel (congrArg Point.x hsame)
  have hy : (second.y - first.y) * ratio = (second.y - first.y) * other :=
    add_left_cancel (congrArg Point.y hsame)
  by_contra hne
  have hdx := (mul_eq_mul_left_iff.mp hx).resolve_left hne
  have hdy := (mul_eq_mul_left_iff.mp hy).resolve_left hne
  refine hdistinct ?_
  rw [calcSquaredDistance2d_comm, calcSquaredDistance2d, hdx, hdy, mul_zero, add_zero]

theorem targetPlaced_some_iff (hexact : ExactLengths geometry path) {idx : ℕ} {rest position : K}
    (hidx : idx + 1 < path.length) (hfront : positionAt geometry path idx ≤ position)
    (hback : position ≤ positionAt geometry path (idx + 1))
    (hlength : positionAt geometry path idx < positionAt geometry path (idx + 1))
    (hsegment : findOffsetSegmentFrom geometry path collisionSegment offset =
      .ok (some (idx, rest))) :
    TargetPlaced geometry path position (targetAtOffset geometry path collisionSegment offset) ↔
      rest = position - positionAt geometry path idx := by
  have hfrontAt : path[idx]? = some path[idx] := List.getElem?_eq_getElem (by omega)
  have hbackAt : path[idx + 1]? = some path[idx + 1] := List.getElem?_eq_getElem hidx
  have hsucc : positionAt geometry path (idx + 1) = positionAt geometry path idx +
      calcDistance2d geometry.toTrigonometry path[idx].pose.position path[idx + 1].pose.position :=
    prefixSum_succ (getElem?_lengthsOfPath hfrontAt hbackAt)
  rw [hsucc] at hback hlength
  have hpositive := pos_of_lt_add_right hlength
  obtain ⟨pose, hpose, hplace⟩ := calcTargetPose_eq rest hfrontAt hbackAt hpositive.ne'
  have htarget : targetAtOffset geometry path collisionSegment offset = .ok (some (idx, pose)) := by
    rw [targetAtOffset, hsegment]
    change (calcTargetPose geometry path (idx, rest) >>= _) = _
    rw [hpose]
    rfl
  rw [htarget]
  constructor
  · rintro ⟨-, -, hplaced⟩
    obtain ⟨front, back, ratio, hfront', hback', -, -, hpoint, hposition⟩ := hplaced idx pose rfl
    obtain rfl := Option.some.inj (hfrontAt.symm.trans hfront')
    obtain rfl := Option.some.inj (hbackAt.symm.trans hback')
    have hsquare := hexact.mul_self idx _ _ hfrontAt hbackAt
    have hratio := pointOn_injective (hsquare ▸ mul_ne_zero hpositive.ne' hpositive.ne')
      (hplace.symm.trans hpoint)
    rw [hposition, add_sub_cancel_left, ← hratio, div_mul_cancel₀ _ hpositive.ne']
  · intro hrest
    have hnonneg : 0 ≤ rest := hrest ▸ sub_nonneg.mpr hfront
    refine ⟨⟨nofun, fun hout => ?_⟩, nofun, fun idx' pose' hsame => ?_⟩
    · have hfirst : 0 ≤ positionAt geometry path idx :=
        positionAt_mono hexact.nonneg (Nat.zero_le idx)
      have hlast : positionAt geometry path (idx + 1) ≤ positionAt geometry path (path.length - 1) :=
        positionAt_mono hexact.nonneg (by omega)
      rcases hout with hout | hout
      · exact absurd (hfirst.trans hfront) (not_le.mpr hout)
      · rw [hsucc] at hlast
        exact absurd (hback.trans hlast) (not_le.mpr hout)
    · obtain ⟨rfl, rfl⟩ := Prod.mk.inj (Option.some.inj (Except.ok.inj hsame))
      refine ⟨_, _, _, hfrontAt, hbackAt, div_nonneg hnonneg hpositive.le, ?_, hplace, ?_⟩
      · rw [div_le_one hpositive, hrest]
        linarith
      · rw [div_mul_cancel₀ _ hpositive.ne', hrest]
        ring

omit [IsStrictOrderedRing K] in
theorem targetPlaced_none {position : K}
    (hout : position < 0 ∨ positionAt geometry path (path.length - 1) < position)
    (hsegment : findOffsetSegmentFrom geometry path collisionSegment offset = .ok none) :
    TargetPlaced geometry path position (targetAtOffset geometry path collisionSegment offset) := by
  have htarget : targetAtOffset geometry path collisionSegment offset = .ok none := by
    rw [targetAtOffset, hsegment]
    rfl
  rw [htarget]
  exact ⟨⟨fun _ => hout, fun _ => rfl⟩, nofun, nofun⟩

variable {front back : PathPointWithLaneId K O}

namespace IsOnSegment

theorem collisionPosition_eq (hcrossing : IsOnSegment geometry path collisionSegment front back) :
    collisionPosition geometry path collisionSegment = positionAt geometry path collisionSegment.1 +
          calcDistance2d geometry.toTrigonometry front.pose.position collisionSegment.2 ∧
      collisionPosition geometry path collisionSegment =
        positionAt geometry path (collisionSegment.1 + 1) -
          calcDistance2d geometry.toTrigonometry back.pose.position collisionSegment.2 ∧
      positionAt geometry path collisionSegment.1 <
        positionAt geometry path (collisionSegment.1 + 1) := by
  have hsucc : positionAt geometry path (collisionSegment.1 + 1) =
      positionAt geometry path collisionSegment.1 +
        calcDistance2d geometry.toTrigonometry front.pose.position back.pose.position :=
    prefixSum_succ (getElem?_lengthsOfPath hcrossing.front_at hcrossing.back_at)
  have hposition : collisionPosition geometry path collisionSegment =
      positionAt geometry path collisionSegment.1 +
        calcDistance2d geometry.toTrigonometry front.pose.position collisionSegment.2 := by
    rw [collisionPosition, hcrossing.front_at, Option.elim_some]
  have hpositive : 0 < calcDistance2d geometry.toTrigonometry front.pose.position
      back.pose.position := by
    refine lt_of_le_of_ne ?_ hcrossing.distinct.symm
    rw [← hcrossing.parts]
    exact add_nonneg hcrossing.front_nonneg hcrossing.back_nonneg
  refine ⟨hposition, ?_, ?_⟩
  · rw [hposition, hsucc, ← hcrossing.parts]
    ring
  · rw [hsucc]
    exact lt_add_of_pos_right _ hpositive

omit [IsStrictOrderedRing K]

variable (hcrossing : IsOnSegment geometry path collisionSegment front back)

include hcrossing

theorem lt_length :
    collisionSegment.1 + 1 < path.length :=
  (List.getElem?_eq_some_iff.mp hcrossing.back_at).1

theorem findOffsetSegmentFrom_forward (hoffset : 0 ≤ offset) :
    findOffsetSegmentFrom geometry path collisionSegment offset =
      .ok (findForward (lengthsOfPath geometry path)
        (offset + calcDistance2d geometry.toTrigonometry front.pose.position collisionSegment.2)
        ((lengthsOfPath geometry path).length - collisionSegment.1) collisionSegment.1 0) := by
  have hnonempty : path.isEmpty ≠ true := by
    rw [ne_eq, List.isEmpty_iff]
    rintro rfl
    exact absurd hcrossing.lt_length (Nat.not_lt_zero _)
  simp only [findOffsetSegmentFrom, if_pos hoffset, atIndex, hcrossing.front_at, pure_bind,
    findForwardOffsetSegment, if_neg hnonempty]
  rfl

theorem findOffsetSegmentFrom_backward (hoffset : offset < 0) :
    findOffsetSegmentFrom geometry path collisionSegment offset =
      .ok (findBackward (lengthsOfPath geometry path)
        (-offset + calcDistance2d geometry.toTrigonometry back.pose.position collisionSegment.2)
        (collisionSegment.1 + 1) 0) := by
  have hinside : ¬ (0 < collisionSegment.1 + 1 ∧ path.length ≤ collisionSegment.1 + 1) :=
    fun hout => absurd hout.2 (not_le.mpr hcrossing.lt_length)
  simp only [findOffsetSegmentFrom, if_neg (not_le.mpr hoffset), atIndex, hcrossing.back_at,
    pure_bind, findBackwardOffsetSegment, if_neg hinside]
  rfl

end IsOnSegment

/-- Behind the crossing, the rest is measured from the front of the segment. -/
theorem targetPlaced_backward (hexact : ExactLengths geometry path)
    (hcrossing : IsOnSegment geometry path collisionSegment front back) (hoffset : offset < 0) :
    TargetPlaced geometry path (collisionPosition geometry path collisionSegment + offset)
      (targetAtOffset geometry path collisionSegment offset) := by
  obtain ⟨-, hposition, -⟩ := hcrossing.collisionPosition_eq
  have hsegment := hcrossing.findOffsetSegmentFrom_backward hoffset
  have hindex : collisionSegment.1 + 1 ≤ (lengthsOfPath geometry path).length := by
    have hlt := hcrossing.lt_length
    rw [length_lengthsOfPath]
    omega
  have hcases := findBackward_cases hindex
    (add_pos_of_pos_of_nonneg (neg_pos.mpr hoffset) hcrossing.back_nonneg)
  have htarget : prefixSum (lengthsOfPath geometry path) (collisionSegment.1 + 1) + 0 -
      (-offset + calcDistance2d geometry.toTrigonometry back.pose.position collisionSegment.2) =
      collisionPosition geometry path collisionSegment + offset := by
    rw [hposition, positionAt]
    ring
  rw [htarget] at hcases
  rcases hcases with ⟨idx, hfound, hlt, hle, hbehind⟩ | ⟨hnone, hstart⟩
  · have hbound := hcrossing.lt_length
    exact (targetPlaced_some_iff hexact (by omega) hle hbehind.le (hle.trans_lt hbehind)
      (hsegment.trans (congrArg _ hfound))).mpr rfl
  · exact targetPlaced_none (.inl hstart) (hsegment.trans (congrArg _ hnone))

def IsMiddle (geometry : Geometry K O) (path : PathWithLaneId K O) (position : K) : Prop :=
  ∃ idx, positionAt geometry path idx < positionAt geometry path (idx + 1) ∧
    positionAt geometry path idx + positionAt geometry path (idx + 1) = 2 * position

theorem isMiddle_iff (hnonneg : ∀ value, 0 ≤ value → 0 ≤ geometry.sqrt value) {idx : ℕ}
    {position : K} (hfront : positionAt geometry path idx ≤ position)
    (hback : position ≤ positionAt geometry path (idx + 1))
    (hlength : positionAt geometry path idx < positionAt geometry path (idx + 1)) :
    IsMiddle geometry path position ↔
      positionAt geometry path idx + positionAt geometry path (idx + 1) = 2 * position := by
  refine ⟨fun ⟨other, hother, hmiddle⟩ => ?_, fun hmiddle => ⟨idx, hlength, hmiddle⟩⟩
  have hmono : Monotone (positionAt geometry path) := positionAt_mono hnonneg
  have hle : other < idx + 1 := hmono.reflect_lt (by linarith)
  have hge : idx < other + 1 := hmono.reflect_lt (by linarith)
  obtain rfl : other = idx := by omega
  exact hmiddle

/-- Ahead of the crossing, the rest is measured from the back of the segment. -/
theorem targetPlaced_forward_iff (hexact : ExactLengths geometry path)
    (hcrossing : IsOnSegment geometry path collisionSegment front back) (hoffset : 0 ≤ offset) :
    TargetPlaced geometry path (collisionPosition geometry path collisionSegment + offset)
        (targetAtOffset geometry path collisionSegment offset) ↔
      positionAt geometry path (path.length - 1) <
          collisionPosition geometry path collisionSegment + offset ∨
        IsMiddle geometry path (collisionPosition geometry path collisionSegment + offset) := by
  obtain ⟨hposition, -, hlength⟩ := hcrossing.collisionPosition_eq
  have hsegment := hcrossing.findOffsetSegmentFrom_forward hoffset
  have hcount : (lengthsOfPath geometry path).length = path.length - 1 := length_lengthsOfPath
  have hbound := hcrossing.lt_length
  have hcases := @findForward_cases K _ _ _ (lengthsOfPath geometry path) (offset +
    calcDistance2d geometry.toTrigonometry front.pose.position collisionSegment.2) _
    collisionSegment.1 0 (Nat.add_sub_cancel' (by omega)) (by omega)
  have htarget : prefixSum (lengthsOfPath geometry path) collisionSegment.1 + (offset +
      calcDistance2d geometry.toTrigonometry front.pose.position collisionSegment.2) - 0 =
      collisionPosition geometry path collisionSegment + offset := by
    rw [hposition, positionAt]
    ring
  rw [htarget, hcount] at hcases
  rcases hcases with ⟨idx, hfound, hle, hlt, hreach, hfirst⟩ | ⟨hnone, hend⟩
  · have hfront : positionAt geometry path idx ≤
        collisionPosition geometry path collisionSegment + offset := by
      rcases hfirst with rfl | hfirst
      · rw [hposition, add_assoc]
        exact le_add_of_nonneg_right (add_nonneg hcrossing.front_nonneg hoffset)
      · exact hfirst.le
    have hdistinct : positionAt geometry path idx < positionAt geometry path (idx + 1) := by
      rcases hfirst with rfl | hfirst
      · exact hlength
      · exact hfirst.trans_le hreach
    have hinside : ¬ positionAt geometry path (path.length - 1) <
        collisionPosition geometry path collisionSegment + offset := by
      have hlast : positionAt geometry path (idx + 1) ≤ positionAt geometry path (path.length - 1) :=
        positionAt_mono hexact.nonneg (by omega)
      exact not_lt.mpr (hreach.trans hlast)
    rw [targetPlaced_some_iff hexact (by omega) hfront hreach hdistinct
        (hsegment.trans (congrArg _ (hcount ▸ hfound))),
      isMiddle_iff hexact.nonneg hfront hreach hdistinct, or_iff_right hinside]
    change positionAt geometry path (idx + 1) - _ = _ ↔ _
    constructor
    · intro hsame
      linarith
    · intro hmiddle
      linarith
  · exact ⟨fun _ => .inl hend, fun _ => targetPlaced_none (.inr hend)
      (hsegment.trans (congrArg _ (hcount ▸ hnone)))⟩

omit [IsStrictOrderedRing K] in
theorem createTargetPoint_eq {stopLine : LineString2d K} {stopLineP1 stopLineP2 : K × K}
    (hfirst : stopLine[0]? = some stopLineP1) (hsecond : stopLine[1]? = some stopLineP2)
    (hfound : findCollisionSegment path (convertToGeomPoint stopLineP1)
      (convertToGeomPoint stopLineP2) laneId = .ok (some collisionSegment))
    (margin vehicleOffset : K) :
    createTargetPoint geometry path stopLine laneId margin vehicleOffset =
      targetAtOffset geometry path collisionSegment (-(margin + vehicleOffset)) := by
  simp only [createTargetPoint, atIndex, hfirst, hsecond, pure_bind, hfound]
  rfl

theorem targetPlaced_iff (hexact : ExactLengths geometry path)
    (hcrossing : IsOnSegment geometry path collisionSegment front back) :
    TargetPlaced geometry path (collisionPosition geometry path collisionSegment + offset)
        (targetAtOffset geometry path collisionSegment offset) ↔
      offset < 0 ∨ positionAt geometry path (path.length - 1) <
          collisionPosition geometry path collisionSegment + offset ∨
        IsMiddle geometry path (collisionPosition geometry path collisionSegment + offset) := by
  rcases lt_or_ge offset 0 with hoffset | hoffset
  · exact ⟨fun _ => .inl hoffset, fun _ => targetPlaced_backward hexact hcrossing hoffset⟩
  · rw [targetPlaced_forward_iff hexact hcrossing hoffset, or_iff_right (not_lt.mpr hoffset)]

/-- Both for an offset from a stop line and for a target before it. -/
theorem createTargetPoint_placed_iff (hexact : ExactLengths geometry path)
    {stopLine : LineString2d K} {stopLineP1 stopLineP2 : K × K}
    (hfirst : stopLine[0]? = some stopLineP1) (hsecond : stopLine[1]? = some stopLineP2)
    {laneId : ℤ} (hfound : findCollisionSegment path (convertToGeomPoint stopLineP1)
      (convertToGeomPoint stopLineP2) laneId = .ok (some collisionSegment)) :
    let position := collisionPosition geometry path collisionSegment
    let pathEnd := positionAt geometry path (path.length - 1)
    (∀ offset, TargetPlaced geometry path (position + offset)
          (targetAtOffset geometry path collisionSegment offset) ↔
        offset < 0 ∨ pathEnd < position + offset ∨ IsMiddle geometry path (position + offset)) ∧
    ∀ margin vehicleOffset, TargetPlaced geometry path (position - (margin + vehicleOffset))
          (createTargetPoint geometry path stopLine laneId margin vehicleOffset) ↔
        0 < margin + vehicleOffset ∨ pathEnd < position - (margin + vehicleOffset) ∨
          IsMiddle geometry path (position - (margin + vehicleOffset)) := by
  obtain ⟨front, back, hcrossing⟩ := isOnSegment_of_findCollisionSegment hexact hfound
  refine ⟨fun offset => targetPlaced_iff hexact hcrossing, fun margin vehicleOffset => ?_⟩
  rw [createTargetPoint_eq hfirst hsecond hfound, sub_eq_add_neg,
    targetPlaced_iff hexact hcrossing, neg_neg_iff_pos]

theorem alongAxis_exactLengths (xs : List ℚ) : ExactLengths rationalGeometry (alongAxis xs) where
  nonneg := fun value _ => Rat.sqrt_nonneg value
  scales := fun _ _ _ hfront hback ratio hratio => by
    change Rat.sqrt _ = ratio * Rat.sqrt _
    rw [calcDistance2d_alongAxis hfront hback, Rat.sqrt_eq, mul_mul_mul_comm, Rat.sqrt_eq, abs_mul,
      abs_of_nonneg hratio]
  mul_self := fun _ _ _ hfront hback => by
    change Rat.sqrt _ * Rat.sqrt _ = _
    rw [calcDistance2d_alongAxis hfront hback, Rat.sqrt_eq, abs_mul_abs_self]

/-- Four meters before a stop line at the twelfth. -/
theorem createTargetPoint_placed_backward :
    createTargetPoint rationalGeometry (alongAxis [0, 10, 20]) [(12, -5), (12, 5)] 1 3 1 =
        .ok (some (0, poseAt 8 0)) ∧
      TargetPlaced rationalGeometry (alongAxis [0, 10, 20]) 8
        (createTargetPoint rationalGeometry (alongAxis [0, 10, 20]) [(12, -5), (12, 5)] 1 3 1) := by
  refine ⟨by decide +kernel, ?_⟩
  have hfound : findCollisionSegment (alongAxis [0, 10, 20]) (convertToGeomPoint (12, -5))
      (convertToGeomPoint (12, 5)) 1 = .ok (some (1, ⟨12, 0, 0⟩)) := by
    decide +kernel
  have hfirst : ([(12, -5), (12, 5)] : LineString2d ℚ)[0]? = some ((12, -5) : ℚ × ℚ) :=
    rfl
  have hsecond : ([(12, -5), (12, 5)] : LineString2d ℚ)[1]? = some ((12, 5) : ℚ × ℚ) :=
    rfl
  have hplaced := ((createTargetPoint_placed_iff (alongAxis_exactLengths [0, 10, 20]) hfirst hsecond
    hfound).2 3 1).mpr (.inl (by decide +kernel))
  have hposition : collisionPosition rationalGeometry (alongAxis [0, 10, 20]) (1, ⟨12, 0, 0⟩) -
      (3 + 1) = 8 := by
    decide +kernel
  rwa [hposition] at hplaced

/-- On the stop line itself, the target is put on the other side of the segment. -/
theorem createTargetPoint_mirrored :
    ¬ ∀ (path : PathWithLaneId ℚ Unit) (stopLine : LineString2d ℚ) (stopLineP1 stopLineP2 : ℚ × ℚ)
      (laneId : ℤ) (collisionSegment : ℕ × Point ℚ) (margin vehicleOffset : ℚ),
      ExactLengths rationalGeometry path → stopLine[0]? = some stopLineP1 →
      stopLine[1]? = some stopLineP2 → findCollisionSegment path (convertToGeomPoint stopLineP1)
        (convertToGeomPoint stopLineP2) laneId = .ok (some collisionSegment) →
      TargetPlaced rationalGeometry path
        (collisionPosition rationalGeometry path collisionSegment - (margin + vehicleOffset))
        (createTargetPoint rationalGeometry path stopLine laneId margin vehicleOffset) := by
  intro hall
  have hplaced := hall (alongAxis [0, 10]) [(2, -5), (2, 5)] (2, -5) (2, 5) 1 (0, ⟨2, 0, 0⟩) 0 0
    (alongAxis_exactLengths [0, 10]) rfl rfl (by decide +kernel)
  obtain ⟨front, back, ratio, hfront, hback, -, -, hpoint, hposition⟩ :=
    hplaced.placed 0 (poseAt 8 0) (by decide +kernel)
  obtain rfl := Option.some.inj hfront
  obtain rfl := Option.some.inj hback
  have hcoordinate : (8 : ℚ) = 0 + (10 - 0) * ratio := congrArg Point.x hpoint
  have hsides : collisionPosition rationalGeometry (alongAxis [0, 10]) (0, ⟨2, 0, 0⟩) -
        (0 + 0) = 2 ∧ positionAt rationalGeometry (alongAxis [0, 10]) 0 = 0 ∧
      calcDistance2d rationalGeometry.toTrigonometry (poseAt (0 : ℚ) 0).position
        (poseAt 10 0).position = 10 := by
    decide +kernel
  change _ = _ + ratio * calcDistance2d rationalGeometry.toTrigonometry
    (poseAt (0 : ℚ) 0).position (poseAt 10 0).position at hposition
  rw [hsides.1, hsides.2.1, hsides.2.2] at hposition
  linarith

end AutowareUniverse.Planning.ArcLaneUtil
