import AutowareUniverse.Planning.ArcLaneUtil

/-!
# Virtual traffic light module

While the vehicle is between the start line and an end line the module requests the right
of way, and stops the path at the stop line as long as it is not given.  Debug output and
the logger are left out, and the fields of the module that only they read.
-/

namespace AutowareUniverse.Planning.VirtualTrafficLight

section

open Common.MotionUtils ArcLaneUtil

inductive State where
  | none
  | requesting
  | passing
  | finalizing
  | finalized
  deriving DecidableEq

abbrev LineString (K : Type) := List (Point K)

structure MapData (K : Type) where
  instrumentType : String
  instrumentId : String
  customTags : List (String × String)
  instrumentCenter : Point K
  stopLine : Option (LineString K)
  startLine : LineString K
  endLines : List (LineString K)

structure PlannerParam (K : Type) where
  maxDelaySec : K
  nearLineDistance : K
  deadLineMargin : K
  holdStopMarginDistance : K
  checkTimeoutAfterStopLine : Bool

structure VirtualTrafficLightModule (K : Type) where
  laneId : ℤ
  mapData : MapData K
  plannerParam : PlannerParam K

structure VirtualTrafficLightState (K : Type) where
  stamp : K
  id : String
  approval : Bool
  isFinalized : Bool
  deriving DecidableEq

structure PlannerData (K O : Type) where
  currentOdometry : Pose K O
  maxLongitudinalOffsetM : K
  egoNearestDistThreshold : K
  isVehicleStopped : Bool
  virtualTrafficLightStates : Option (List (VirtualTrafficLightState K))

/-- The two times at which one call reads the clock. -/
structure Clock (K : Type) where
  nowOfTimeout : K
  nowOfCommand : K

structure InfrastructureCommand (K : Type) where
  stamp : K
  type : String
  id : String
  state : State
  customTags : List (String × String)
  deriving DecidableEq

structure StopFactor (K O : Type) where
  stopPose : Pose K O
  stopFactorPoints : List (Point K)
  deriving DecidableEq

structure VelocityFactor (K O : Type) where
  pose : Pose K O
  distance : Option K
  detail : String
  deriving DecidableEq

/-- What a call leaves to the next one. -/
structure Memory (K O : Type) where
  state : State
  infrastructureCommand : Option (InfrastructureCommand K)
  velocityFactor : Option (VelocityFactor K O)

/-- A path with the stop reason, whose text is that of virtual traffic lights. -/
structure Planned (K O : Type) where
  path : PathWithLaneId K O
  stopFactors : List (StopFactor K O)
  velocityFactor : Option (VelocityFactor K O)

structure SegmentIndexWithPoint (K : Type) where
  index : ℕ
  point : Point K
  deriving DecidableEq

variable {K O : Type} [Field K] [LinearOrder K] (geometry : Geometry K O)

/-! ## Lines and the path -/

def lastCollisionFrom (points : PathWithLaneId K O) (targetLineP1 targetLineP2 : Point K) :
    ℕ → Except Failure (Option (SegmentIndexWithPoint K))
  | 0 => return none
  | i + 1 => do
    let p1 ← atIndex points (i + 1)
    let p2 ← atIndex points i
    match checkCollision p1.pose.position p2.pose.position targetLineP1 targetLineP2 with
    | some collisionPoint => return some ⟨i + 1, collisionPoint⟩
    | none => lastCollisionFrom points targetLineP1 targetLineP2 i

def findLastCollisionBeforeEndLine (points : PathWithLaneId K O) (targetLine : LineString K)
    (endLineIdx : ℕ) : Except Failure (Option (SegmentIndexWithPoint K)) := do
  let targetLineP1 ← atIndex targetLine 0
  let targetLineP2 ← atIndex targetLine 1
  lastCollisionFrom points targetLineP1 targetLineP2 endLineIdx

def findLastCollisionOfLines (points : PathWithLaneId K O) (endLineIdx : ℕ) :
    List (LineString K) → Except Failure (Option (SegmentIndexWithPoint K))
  | [] => return none
  | line :: lines => do
    match ← findLastCollisionBeforeEndLine points line endLineIdx with
    | some collision => return some collision
    | none => findLastCollisionOfLines points endLineIdx lines

def insertStopVelocityAtCollision (collision : SegmentIndexWithPoint K) (offset : K)
    (path : PathWithLaneId K O) : Except Failure (Option ℕ × PathWithLaneId K O) := do
  let collisionOffset :=
    calcLongitudinalOffsetToSegment geometry.toTrigonometry (posesOf path) collision.index
      collision.point
  match ← findOffsetSegment geometry path collision.index (collisionOffset.map (offset + ·)) with
  | none => return (none, path)
  | some offsetSegment =>
    let interpolatedPose ← calcTargetPose geometry path offsetSegment
    if offsetSegment.2 < 0 then return (some 0, insertStopVelocityFromStart path)
    else
      let base ← atIndex path (offsetSegment.1 + 1)
      let insertPoint := { base with pose := interpolatedPose }
      let (stopped, insertIndex) :=
        insertVelocity geometry path insertPoint 0 (offsetSegment.1 + 1)
      return (some insertIndex, stopped)

variable (self : VirtualTrafficLightModule K) (plannerData : PlannerData K O) (clock : Clock K)

/-- The smallest index so far is one behind its segment when the next one is compared. -/
def minEndLineIdx (path : PathWithLaneId K O) :
    Option ℕ → List (LineString K) → Except Failure (Option ℕ)
  | minSegIdx, [] => return minSegIdx
  | minSegIdx, endLine :: endLines => do
    match endLine.head?, endLine.getLast? with
    | some endLineP1, some endLineP2 =>
      match ← findCollisionSegment path endLineP1 endLineP2 self.laneId with
      | none => minEndLineIdx path minSegIdx endLines
      | some (collisionSegIdx, _) =>
        if minSegIdx.all (collisionSegIdx < ·) then
          minEndLineIdx path (some (collisionSegIdx + 1)) endLines
        else minEndLineIdx path minSegIdx endLines
    | _, _ => throw .outOfRange

section

variable (path : PathWithLaneId K O)

def getPathIndexOfFirstEndLine : Except Failure (Option ℕ) :=
  minEndLineIdx self path none self.mapData.endLines

def findEgoSegmentIndex : Except Failure ℕ :=
  findFirstNearestSegmentIndexWithDistThreshold geometry.toTrigonometry (posesOf path)
    plannerData.currentOdometry plannerData.egoNearestDistThreshold

/-- How far the front of the vehicle has to go to a collision. -/
def signedArcLengthTo (collision : SegmentIndexWithPoint K) :
    Except Failure (Option K) := do
  let collisionSegIdx :=
    calcSegmentIndexFromPointIndex geometry (posesOf path) collision.point collision.index
  let egoSegIdx ← findEgoSegmentIndex geometry plannerData path
  let arcLength ← calcSignedArcLengthOfSegments geometry.toTrigonometry (posesOf path)
    plannerData.currentOdometry.position egoSegIdx collision.point collisionSegIdx
  return arcLength.map (· - plannerData.maxLongitudinalOffsetM)

def isBeforeStartLine (endLineIdx : ℕ) : Except Failure Bool := do
  match ← findLastCollisionBeforeEndLine path self.mapData.startLine endLineIdx with
  | none => return false
  | some collision =>
    let signedArcLength ← signedArcLengthTo geometry plannerData path collision
    return signedArcLength.any (0 < ·)

def isBeforeStopLine (endLineIdx : ℕ) : Except Failure Bool := do
  match self.mapData.stopLine with
  | none => throw .invalidArgument
  | some stopLine =>
    match ← findLastCollisionBeforeEndLine path stopLine endLineIdx with
    | none => return false
    | some collision =>
      let signedArcLength ← signedArcLengthTo geometry plannerData path collision
      return signedArcLength.any (-self.plannerParam.deadLineMargin < ·)

def isAfterAnyEndLine (endLineIdx : ℕ) : Except Failure Bool := do
  if ← isBeforeStopLine geometry self plannerData path endLineIdx then return false
  else
    match ← findLastCollisionOfLines path endLineIdx self.mapData.endLines with
    | none => return false
    | some collision =>
      let signedArcLength ← signedArcLengthTo geometry plannerData path collision
      return signedArcLength.any (· < -self.plannerParam.deadLineMargin)

def isNearAnyEndLine (endLineIdx : ℕ) : Except Failure Bool := do
  match ← findLastCollisionOfLines path endLineIdx self.mapData.endLines with
  | none => return false
  | some collision =>
    let signedArcLength ← signedArcLengthTo geometry plannerData path collision
    return signedArcLength.any fun length => |length| < self.plannerParam.nearLineDistance

end

def findCorrespondingState : Option (VirtualTrafficLightState K) :=
  plannerData.virtualTrafficLightStates.bind
    (·.find? fun state => state.id = self.mapData.instrumentId)

def isStateTimeout (state : VirtualTrafficLightState K) : Bool :=
  self.plannerParam.maxDelaySec < clock.nowOfTimeout - state.stamp

def hasRightOfWay (state : VirtualTrafficLightState K) : Bool :=
  state.approval

/-- The command of the module is published with its present state. -/
def updateInfrastructureCommand (memory : Memory K O) : Memory K O :=
  { memory with
    infrastructureCommand := some
      { stamp := clock.nowOfCommand
        type := self.mapData.instrumentType
        id := self.mapData.instrumentId
        state := memory.state
        customTags := self.mapData.customTags } }

def unsetPose : Pose K O := ⟨⟨0, 0, 0⟩, geometry.unset⟩

section

variable (path : PathWithLaneId K O)

def stopPoseAt : Option ℕ → Except Failure (Pose K O)
  | none => return unsetPose geometry
  | some insertIndex => do
    return (← atIndex path insertIndex).pose

/-- `setStopReason` and `velocity_factor_.set`. -/
def reportStop (stopPose : Pose K O) (detail : String) :
    Planned K O where
  path := path
  stopFactors := [⟨stopPose, [self.mapData.instrumentCenter]⟩]
  velocityFactor := some
    { pose := stopPose
      distance := calcSignedArcLengthOfPoints geometry.toTrigonometry (posesOf path)
        plannerData.currentOdometry.position stopPose.position
      detail := detail }

/-- Whether the stopped vehicle is so close to the stop line that it stays where it is. -/
def isStopHeld (collision : SegmentIndexWithPoint K) :
    Except Failure Bool := do
  let stopDistance ← signedArcLengthTo geometry plannerData path collision
  return stopDistance.any (· < self.plannerParam.holdStopMarginDistance) &&
    plannerData.isVehicleStopped

def insertStopVelocityAtEgo :
    Except Failure (PathWithLaneId K O) := do
  let egoSegIdx ← findEgoSegmentIndex geometry plannerData path
  match ← calcLongitudinalOffsetPointOfPoint geometry.toTrigonometry (posesOf path)
    plannerData.currentOdometry.position 0 with
  | none => return path
  | some egoPosOnPath =>
    let (_, stopped) ← insertStopVelocityAtCollision geometry ⟨egoSegIdx, egoPosOnPath⟩ 0 path
    return stopped

end

/-- In the held stop `path_tmp` points to the path itself. -/
def insertStopVelocityAtStopLine (stopLine : LineString K) (path : PathWithLaneId K O)
    (endLineIdx : ℕ) : Except Failure (Planned K O) := do
  let offset := -plannerData.maxLongitudinalOffsetM
  match ← findLastCollisionBeforeEndLine path stopLine endLineIdx with
  | none =>
    return reportStop geometry self plannerData (insertStopVelocityFromStart path)
      plannerData.currentOdometry self.mapData.instrumentType
  | some collision =>
    let held ← isStopHeld geometry self plannerData path collision
    let before ← if held then insertStopVelocityAtEgo geometry plannerData path else pure path
    let (insertIndex, stopped) ← insertStopVelocityAtCollision geometry collision offset before
    let stopPose ← stopPoseAt geometry stopped insertIndex
    return reportStop geometry self plannerData stopped stopPose self.mapData.instrumentType

def insertStopVelocityAtEndLine (path : PathWithLaneId K O) (endLineIdx : ℕ)
    (velocityFactor : Option (VelocityFactor K O)) : Except Failure (Planned K O) := do
  match ← findLastCollisionOfLines path endLineIdx self.mapData.endLines with
  | none =>
    if ← isBeforeStopLine geometry self plannerData path endLineIdx then
      return ⟨path, [], velocityFactor⟩
    else
      return reportStop geometry self plannerData (insertStopVelocityFromStart path)
        plannerData.currentOdometry ""
  | some collision =>
    let offset := -plannerData.maxLongitudinalOffsetM
    let (insertIndex, stopped) ← insertStopVelocityAtCollision geometry collision offset path
    let stopPose ← stopPoseAt geometry stopped insertIndex
    return reportStop geometry self plannerData stopped stopPose ""

/-- The call ends: the command is published and the path handed back. -/
def finish (state : State) (planned : Planned K O) : Planned K O × Memory K O :=
  (planned, updateInfrastructureCommand self clock ⟨state, none, planned.velocityFactor⟩)

def stopAtStopLine (state : State) (stopLine : LineString K) (path : PathWithLaneId K O)
    (endLineIdx : ℕ) : Except Failure (Planned K O × Memory K O) := do
  let planned ← insertStopVelocityAtStopLine geometry self plannerData stopLine path endLineIdx
  return finish self clock state planned

/-- `modifyPathVelocity` from the search of the message on. -/
def followState (memory : Memory K O) (stopLine : LineString K) (path : PathWithLaneId K O)
    (endLineIdx : ℕ) : Except Failure (Planned K O × Memory K O) := do
  let unchanged : Planned K O := ⟨path, [], memory.velocityFactor⟩
  match findCorrespondingState self plannerData with
  | none => stopAtStopLine geometry self plannerData clock .requesting stopLine path endLineIdx
  | some state =>
    if ¬hasRightOfWay state then
      stopAtStopLine geometry self plannerData clock .requesting stopLine path endLineIdx
    else if ← isBeforeStopLine geometry self plannerData path endLineIdx then
      if isStateTimeout self clock state then
        stopAtStopLine geometry self plannerData clock .requesting stopLine path endLineIdx
      else return finish self clock .requesting unchanged
    else if self.plannerParam.checkTimeoutAfterStopLine ∧ isStateTimeout self clock state then
      stopAtStopLine geometry self plannerData clock .passing stopLine path endLineIdx
    else if ¬state.isFinalized then
      let planned ← insertStopVelocityAtEndLine geometry self plannerData path endLineIdx
        memory.velocityFactor
      let isNear ← isNearAnyEndLine geometry self plannerData path endLineIdx
      return finish self clock
        (if isNear ∧ plannerData.isVehicleStopped then .finalizing else .passing) planned
    else return finish self clock .passing unchanged

def modifyPathVelocity (memory : Memory K O) (path : PathWithLaneId K O) :
    Except Failure (Planned K O × Memory K O) := do
  let unchanged : Planned K O := ⟨path, [], memory.velocityFactor⟩
  match ← getPathIndexOfFirstEndLine self path with
  | none => return (unchanged, { memory with infrastructureCommand := none })
  | some endLineIdx =>
    if ← isBeforeStartLine geometry self plannerData path endLineIdx then
      return finish self clock .none unchanged
    else
      let isAfter ← isAfterAnyEndLine geometry self plannerData path endLineIdx
      if isAfter ∨ memory.state = .finalized then
        return finish self clock .finalized unchanged
      else
        match self.mapData.stopLine with
        | none => return finish self clock .requesting unchanged
        | some stopLine =>
          followState geometry self plannerData clock memory stopLine path endLineIdx

end

/-!
## Stops before the stop line

Without the right of way the path is stopped where the front of the vehicle reaches the
stop line, or not at all.  The crossing with the stop line lies before the point whose index
it has, and its offset is taken on the segment behind that point.
-/

open Common.MotionUtils ArcLaneUtil Library.Fallible

variable {K O : Type} [Field K] [LinearOrder K] {geometry : Geometry K O}
  {path : PathWithLaneId K O} {collision : SegmentIndexWithPoint K} {offset position : K}

/-! ## Inserting a stop at a collision -/

def IsPlacedBy (geometry : Geometry K O) (path : PathWithLaneId K O)
    (collision : SegmentIndexWithPoint K) (offset position : K) : Prop :=
  ∃ collisionOffset segment pose,
    calcLongitudinalOffsetToSegment geometry.toTrigonometry (posesOf path) collision.index
      collision.point = some collisionOffset ∧
    findOffsetSegment geometry path collision.index (some (offset + collisionOffset)) =
      .ok (some segment) ∧
    calcTargetPose geometry path segment = .ok pose ∧
    placedPosition geometry path segment.1 segment.2 pose.position ≤ position ∧
    ForwardFrom path (segment.1 + 1)

section

variable [IsStrictOrderedRing K]

omit [IsStrictOrderedRing K] in
theorem insertStopVelocityAtCollision_eq {collisionOffset : K} {segment : ℕ × K} {pose : Pose K O}
    {front back : PathPointWithLaneId K O}
    (hoffset : calcLongitudinalOffsetToSegment geometry.toTrigonometry (posesOf path)
      collision.index collision.point = some collisionOffset)
    (hfound : findOffsetSegment geometry path collision.index (some (offset + collisionOffset)) =
      .ok (some segment))
    (hpose : calcTargetPose geometry path segment = .ok pose)
    (htarget : IsTarget geometry path segment.1 segment.2 pose front back) :
    insertStopVelocityAtCollision geometry collision offset path =
      .ok (some (insertVelocity geometry path { back with pose := pose } 0 (segment.1 + 1)).2,
        (insertVelocity geometry path { back with pose := pose } 0 (segment.1 + 1)).1) := by
  rw [insertStopVelocityAtCollision, hoffset, Option.map_some, hfound]
  change (calcTargetPose geometry path segment >>= _) = _
  rw [hpose]
  change (if segment.2 < 0 then _ else _) = _
  rw [if_neg (not_lt.mpr htarget.rest_nonneg), atIndex, htarget.back_at]
  rfl

theorem insertStopVelocityAtCollision_cases (hmeasures : MeasuresLengths geometry path)
    (hindex : collision.index < path.length) :
    insertStopVelocityAtCollision geometry collision offset path = .ok (none, path) ∨
    (insertStopVelocityAtCollision geometry collision offset path = .error .notANumber ∧
      (lengthsOfPath geometry path)[collision.index]? = some 0) ∨
    ∃ collisionOffset segment pose front back,
      calcLongitudinalOffsetToSegment geometry.toTrigonometry (posesOf path) collision.index
        collision.point = some collisionOffset ∧
      findOffsetSegment geometry path collision.index (some (offset + collisionOffset)) =
        .ok (some segment) ∧
      calcTargetPose geometry path segment = .ok pose ∧
      IsTarget geometry path segment.1 segment.2 pose front back ∧
      insertStopVelocityAtCollision geometry collision offset path =
        .ok (some (insertVelocity geometry path { back with pose := pose } 0 (segment.1 + 1)).2,
          (insertVelocity geometry path { back with pose := pose } 0 (segment.1 + 1)).1) := by
  cases hoffset : calcLongitudinalOffsetToSegment geometry.toTrigonometry (posesOf path)
      collision.index collision.point with
  | none =>
    refine .inl ?_
    rw [insertStopVelocityAtCollision, hoffset, Option.map_none, findOffsetSegment,
      if_neg fun hout => absurd hout.2 (not_le.mpr hindex)]
    rfl
  | some collisionOffset =>
    obtain ⟨found, hfound⟩ : ∃ found, findOffsetSegment geometry path collision.index
        (some (offset + collisionOffset)) = .ok found := exists_findOffsetSegment hindex
    cases found with
    | none =>
      refine .inl ?_
      rw [insertStopVelocityAtCollision, hoffset, Option.map_some, hfound]
      rfl
    | some segment =>
      rcases calcTargetPose_cases hmeasures hindex hfound with
        ⟨pose, front, back, hpose, htarget⟩ | ⟨hpose, hlength⟩
      · exact .inr (.inr ⟨collisionOffset, segment, pose, front, back, rfl, hfound, hpose,
          htarget, insertStopVelocityAtCollision_eq hoffset hfound hpose htarget⟩)
      · refine .inr (.inl ⟨?_, hlength⟩)
        rw [insertStopVelocityAtCollision, hoffset, Option.map_some, hfound]
        change (calcTargetPose geometry path segment >>= _) = _
        rw [hpose]
        rfl

variable {result : Option ℕ × PathWithLaneId K O} (hmeasures : MeasuresLengths geometry path)

include hmeasures

theorem stopsBy_insertStop (hindex : collision.index < path.length)
    (hresult : insertStopVelocityAtCollision geometry collision offset path = .ok result)
    (hstops : StopsBy geometry path position) : StopsBy geometry result.2 position := by
  rcases insertStopVelocityAtCollision_cases hmeasures hindex with
    hunchanged | ⟨herror, _⟩ | ⟨_, _, _, _, _, _, _, _, htarget, hinserted⟩
  · obtain rfl := Except.ok.inj (hunchanged.symm.trans hresult)
    exact hstops
  · cases herror.symm.trans hresult
  · obtain rfl := Except.ok.inj (hinserted.symm.trans hresult)
    obtain ⟨embed, hstop, _⟩ := insertVelocity_stopInserted htarget
    exact hstop.stopsBy_of_stopsBy hstops

theorem insertStopVelocityAtCollision_index (hindex : collision.index < path.length)
    (hresult : insertStopVelocityAtCollision geometry collision offset path = .ok result) :
    ∃ stopPose, stopPoseAt geometry result.2 result.1 = .ok stopPose := by
  rcases insertStopVelocityAtCollision_cases hmeasures hindex with
    hunchanged | ⟨herror, _⟩ | ⟨_, _, _, _, _, _, _, _, htarget, hinserted⟩
  · obtain rfl := Except.ok.inj (hunchanged.symm.trans hresult)
    exact ⟨_, rfl⟩
  · cases herror.symm.trans hresult
  · obtain rfl := Except.ok.inj (hinserted.symm.trans hresult)
    obtain ⟨embed, hstop, _⟩ := insertVelocity_stopInserted htarget
    have hat := atIndex_eq_ok.mpr (List.getElem?_eq_getElem hstop.stop_lt)
    dsimp only
    rw [stopPoseAt, hat]
    exact ⟨_, rfl⟩

theorem IsPlacedBy.succeeds (hindex : collision.index < path.length)
    (hplaced : IsPlacedBy geometry path collision offset position) :
    Succeeds (insertStopVelocityAtCollision geometry collision offset path) fun result =>
      StopsBy geometry result.2 position := by
  obtain ⟨collisionOffset, segment, pose, hoffset, hfound, hpose, hposition, hforward⟩ := hplaced
  rcases calcTargetPose_cases hmeasures hindex hfound with
    ⟨other, front, back, hother, htarget⟩ | ⟨herror, _⟩
  · obtain rfl := Except.ok.inj (hother.symm.trans hpose)
    obtain ⟨embed, hstop, hat⟩ := insertVelocity_stopInserted htarget
    exact ⟨_, insertStopVelocityAtCollision_eq hoffset hfound hpose htarget,
      hstop.stopsBy (hat.trans_le hposition) hforward⟩
  · cases herror.symm.trans hpose

theorem isPlacedBy_of_stopsBy
    (hindex : collision.index < path.length) (hdrives : DrivesUpTo geometry path position)
    (hresult : insertStopVelocityAtCollision geometry collision offset path = .ok result)
    (hstops : StopsBy geometry result.2 position) :
    IsPlacedBy geometry path collision offset position := by
  rcases insertStopVelocityAtCollision_cases hmeasures hindex with
    hunchanged | ⟨herror, _⟩ | ⟨collisionOffset, segment, pose, front, back, hoffset, hfound,
      hpose, htarget, hinserted⟩
  · obtain rfl := Except.ok.inj (hunchanged.symm.trans hresult)
    exact absurd hstops hdrives.not_stopsBy
  · cases herror.symm.trans hresult
  · obtain rfl := Except.ok.inj (hinserted.symm.trans hresult)
    obtain ⟨embed, hstop, hat⟩ := insertVelocity_stopInserted htarget
    obtain ⟨hposition, hforward⟩ := hstop.placed_of_stopsBy hmeasures.nonneg hdrives hstops
    exact ⟨collisionOffset, segment, pose, hoffset, hfound, hpose, hat.symm.trans_le hposition,
      fun i point _ hpoint => hforward i point (Nat.zero_le i) hpoint⟩

end

/-! ## The crossing with the stop line -/

def stopLinePosition (geometry : Geometry K O) (path : PathWithLaneId K O)
    (collision : SegmentIndexWithPoint K) : K :=
  positionAt geometry path (collision.index - 1) +
    (path[collision.index - 1]?.elim 0 fun front =>
      calcDistance2d geometry.toTrigonometry front.pose.position collision.point)

structure IsCrossing (path : PathWithLaneId K O) (collision : SegmentIndexWithPoint K)
    (front back : PathPointWithLaneId K O) (ratio : K) : Prop where
  index_pos : 0 < collision.index
  front_at : path[collision.index - 1]? = some front
  back_at : path[collision.index - 1 + 1]? = some back
  ratio_nonneg : 0 ≤ ratio
  ratio_le : ratio ≤ 1
  x_eq : collision.point.x =
    front.pose.position.x + ratio * (back.pose.position.x - front.pose.position.x)
  y_eq : collision.point.y =
    front.pose.position.y + ratio * (back.pose.position.y - front.pose.position.y)

section

variable [IsStrictOrderedRing K]

theorem isCrossing_of_lastCollisionFrom {targetLineP1 targetLineP2 : Point K} {i : ℕ}
    (hcollision : lastCollisionFrom path targetLineP1 targetLineP2 i = .ok (some collision)) :
    ∃ front back ratio, IsCrossing path collision front back ratio := by
  induction i with
  | zero => cases hcollision
  | succ i ih =>
    rw [lastCollisionFrom] at hcollision
    obtain ⟨back, hback, hcollision⟩ := bind_eq_ok.mp hcollision
    obtain ⟨front, hfront, hcollision⟩ := bind_eq_ok.mp hcollision
    cases hpoint : checkCollision back.pose.position front.pose.position targetLineP1
        targetLineP2 with
    | none =>
      rw [hpoint] at hcollision
      exact ih hcollision
    | some point =>
      rw [hpoint] at hcollision
      obtain rfl := Option.some.inj (Except.ok.inj hcollision)
      obtain ⟨ratio, hnonneg, hle, hx, hy⟩ := checkCollision_between hpoint
      exact ⟨front, back, ratio, i.succ_pos, atIndex_eq_ok.mp hfront, atIndex_eq_ok.mp hback,
        hnonneg, hle, hx, hy⟩

omit [IsStrictOrderedRing K] in
theorem IsCrossing.index_lt {front back : PathPointWithLaneId K O} {ratio : K}
    (hcrossing : IsCrossing path collision front back ratio) : collision.index < path.length := by
  have hlt := (List.getElem?_eq_some_iff.mp hcrossing.back_at).1
  have hpos := hcrossing.index_pos
  omega

theorem IsCrossing.stopLinePosition_le {front back : PathPointWithLaneId K O} {ratio : K}
    (hmeasures : MeasuresLengths geometry path)
    (hcrossing : IsCrossing path collision front back ratio) :
    stopLinePosition geometry path collision ≤ positionAt geometry path collision.index := by
  have hdistance := hmeasures.distance_front hcrossing.front_at hcrossing.back_at
    hcrossing.ratio_nonneg hcrossing.x_eq hcrossing.y_eq
  have hsucc : positionAt geometry path (collision.index - 1 + 1) =
      positionAt geometry path (collision.index - 1) +
        calcDistance2d geometry.toTrigonometry front.pose.position back.pose.position :=
    Library.PrefixSums.prefixSum_succ (getElem?_lengthsOfPath hcrossing.front_at hcrossing.back_at)
  rw [Nat.sub_add_cancel hcrossing.index_pos] at hsucc
  rw [stopLinePosition, hcrossing.front_at, hsucc]
  refine add_le_add_right ?_ _
  change calcDistance2d geometry.toTrigonometry front.pose.position collision.point ≤ _
  rw [hdistance]
  exact mul_le_of_le_one_left (calcDistance2d_nonneg hmeasures.nonneg _ _) hcrossing.ratio_le

end

def StopFits (geometry : Geometry K O) (path : PathWithLaneId K O)
    (collision : SegmentIndexWithPoint K) (front : K) : Prop :=
  ∃ collisionOffset idx pose,
    calcLongitudinalOffsetToSegment geometry.toTrigonometry (posesOf path) collision.index
      collision.point = some collisionOffset ∧
    collisionOffset < front ∧ idx < collision.index ∧
    positionAt geometry path idx ≤
      positionAt geometry path collision.index + (-front + collisionOffset) ∧
    positionAt geometry path collision.index + (-front + collisionOffset) <
      positionAt geometry path (idx + 1) ∧
    calcTargetPose geometry path (idx, positionAt geometry path collision.index +
      (-front + collisionOffset) - positionAt geometry path idx) = .ok pose ∧
    placedPosition geometry path idx (positionAt geometry path collision.index +
        (-front + collisionOffset) - positionAt geometry path idx) pose.position ≤
      stopLinePosition geometry path collision - front ∧
    ForwardFrom path (idx + 1)

section

variable [IsStrictOrderedRing K] {front : K}

theorem StopFits.isPlacedBy (hmeasures : MeasuresLengths geometry path)
    (hindex : collision.index < path.length) (hfits : StopFits geometry path collision front) :
    IsPlacedBy geometry path collision (-front)
      (stopLinePosition geometry path collision - front) := by
  obtain ⟨collisionOffset, idx, pose, hoffset, hfront, hidx, hle, hbehind, hpose, hposition,
    hforward⟩ := hfits
  have hmono : Monotone (positionAt geometry path) := positionAt_mono hmeasures.nonneg
  have hbackward : -front + collisionOffset < 0 := by linarith
  rcases findOffsetSegment_backward geometry hindex hbackward with
    ⟨found, hfound, _, hfoundle, hfoundbehind⟩ | ⟨_, hstart⟩
  · have hlt : idx < found + 1 := hmono.reflect_lt (hle.trans_lt hfoundbehind)
    have hgt : found < idx + 1 := hmono.reflect_lt (hfoundle.trans_lt hbehind)
    obtain rfl : found = idx := by omega
    exact ⟨collisionOffset, _, pose, hoffset, hfound, hpose, hposition, hforward⟩
  · have hzero : positionAt geometry path 0 = 0 := Library.PrefixSums.prefixSum_zero _
    have hnonneg := hmono (Nat.zero_le idx)
    linarith

theorem stopFits_of_isPlacedBy {frontPoint back : PathPointWithLaneId K O} {ratio : K}
    (hmeasures : MeasuresLengths geometry path)
    (hcrossing : IsCrossing path collision frontPoint back ratio) (hfront : 0 < front)
    (hplaced : IsPlacedBy geometry path collision (-front)
      (stopLinePosition geometry path collision - front)) :
    StopFits geometry path collision front := by
  obtain ⟨collisionOffset, segment, pose, hoffset, hfound, hpose, hposition, hforward⟩ := hplaced
  have hmono : Monotone (positionAt geometry path) := positionAt_mono hmeasures.nonneg
  rcases le_or_gt 0 (-front + collisionOffset) with hahead | hbackward
  · obtain ⟨hidx, _⟩ :=
      findOffsetSegment_forward hmeasures.nonneg hcrossing.index_lt hahead hfound
    rcases calcTargetPose_cases hmeasures hcrossing.index_lt hfound with
      ⟨other, _, _, hother, htarget⟩ | ⟨herror, _⟩
    · obtain rfl := Except.ok.inj (hother.symm.trans hpose)
      have hplace := positionAt_le_placedPosition hmeasures.nonneg htarget
      have hline := hcrossing.stopLinePosition_le hmeasures
      have hat := hmono hidx
      linarith
    · cases herror.symm.trans hpose
  · rcases findOffsetSegment_backward geometry hcrossing.index_lt hbackward with
      ⟨idx, hidx, hlt, hle, hbehind⟩ | ⟨hnone, _⟩
    · obtain rfl := Option.some.inj (Except.ok.inj (hidx.symm.trans hfound))
      exact ⟨collisionOffset, idx, pose, hoffset, by linarith, hlt, hle, hbehind, hpose, hposition,
        hforward⟩
    · cases hnone.symm.trans hfound

end

/-! ## One call before the stop line -/

section

variable {self : VirtualTrafficLightModule K} {plannerData : PlannerData K O} {clock : Clock K}
variable {memory : Memory K O} {endLineIdx : ℕ}

/-- The message is missing, not approved or too old. -/
def LacksRightOfWay (self : VirtualTrafficLightModule K) (plannerData : PlannerData K O)
    (clock : Clock K) : Prop :=
  ∀ state, findCorrespondingState self plannerData = some state →
    hasRightOfWay state = false ∨ isStateTimeout self clock state = true

variable {stopLine : LineString K}

theorem followState_eq
    (hstop : isBeforeStopLine geometry self plannerData path endLineIdx = .ok true)
    (hlacks : LacksRightOfWay self plannerData clock) :
    followState geometry self plannerData clock memory stopLine path endLineIdx =
      stopAtStopLine geometry self plannerData clock .requesting stopLine path endLineIdx := by
  rw [followState.eq_def]
  cases hstate : findCorrespondingState self plannerData with
  | none => rfl
  | some state =>
    dsimp only
    rcases hlacks state hstate with hright | htimeout
    · rw [if_pos (by rw [hright]; exact Bool.false_ne_true)]
    · by_cases hright : hasRightOfWay state = true
      · rw [if_neg (not_not.mpr hright), hstop]
        exact if_pos htimeout
      · rw [if_pos hright]

theorem modifyPathVelocity_eq (hend : getPathIndexOfFirstEndLine self path = .ok (some endLineIdx))
    (hstart : isBeforeStartLine geometry self plannerData path endLineIdx = .ok false)
    (hstop : isBeforeStopLine geometry self plannerData path endLineIdx = .ok true)
    (hlacks : LacksRightOfWay self plannerData clock)
    (hline : self.mapData.stopLine = some stopLine) :
    modifyPathVelocity geometry self plannerData clock memory path =
      if memory.state = .finalized then
        .ok (finish self clock .finalized ⟨path, [], memory.velocityFactor⟩)
      else
        stopAtStopLine geometry self plannerData clock .requesting stopLine path endLineIdx := by
  have hafter : isAfterAnyEndLine geometry self plannerData path endLineIdx = .ok false := by
    rw [isAfterAnyEndLine, hstop]
    rfl
  rw [modifyPathVelocity, hend]
  change (isBeforeStartLine geometry self plannerData path endLineIdx >>= _) = _
  rw [hstart]
  change (isAfterAnyEndLine geometry self plannerData path endLineIdx >>= _) = _
  rw [hafter]
  change (if false = true ∨ memory.state = .finalized then _ else _) = _
  by_cases hstate : memory.state = .finalized
  · rw [if_pos (.inr hstate), if_pos hstate]
    rfl
  · rw [if_neg (not_or.mpr ⟨Bool.false_ne_true, hstate⟩), if_neg hstate, hline]
    exact followState_eq hstop hlacks

theorem exists_collision_of_isBeforeStopLine
    (hstop : isBeforeStopLine geometry self plannerData path endLineIdx = .ok true) :
    ∃ stopLine collision held, self.mapData.stopLine = some stopLine ∧
      findLastCollisionBeforeEndLine path stopLine endLineIdx = .ok (some collision) ∧
      isStopHeld geometry self plannerData path collision = .ok held := by
  rw [isBeforeStopLine.eq_def] at hstop
  cases hline : self.mapData.stopLine with
  | none =>
    rw [hline] at hstop
    cases hstop
  | some stopLine =>
    rw [hline] at hstop
    obtain ⟨found, hfound, hstop⟩ := bind_eq_ok.mp hstop
    cases found with
    | none => cases hstop
    | some collision =>
      obtain ⟨signedArcLength, hlength, -⟩ := bind_eq_ok.mp hstop
      have hheld : ∃ held, isStopHeld geometry self plannerData path collision = .ok held := by
        rw [isStopHeld, hlength]
        exact ⟨_, rfl⟩
      obtain ⟨held, hheld⟩ := hheld
      exact ⟨stopLine, collision, held, rfl, hfound, hheld⟩

theorem insertStopVelocityAtStopLine_eq
    (hcollision : findLastCollisionBeforeEndLine path stopLine endLineIdx = .ok (some collision))
    (hheld : isStopHeld geometry self plannerData path collision = .ok false) :
    insertStopVelocityAtStopLine geometry self plannerData stopLine path endLineIdx =
      insertStopVelocityAtCollision geometry collision (-plannerData.maxLongitudinalOffsetM) path
        >>= fun result => stopPoseAt geometry result.2 result.1 >>= fun stopPose =>
          .ok (reportStop geometry self plannerData result.2 stopPose
            self.mapData.instrumentType) := by
  rw [insertStopVelocityAtStopLine, hcollision]
  change (isStopHeld geometry self plannerData path collision >>= _) = _
  rw [hheld]
  rfl

theorem stopAtStopLine_succeeds_iff [IsStrictOrderedRing K] {state : State}
    (hmeasures : MeasuresLengths geometry path) (hindex : collision.index < path.length)
    (hcollision : findLastCollisionBeforeEndLine path stopLine endLineIdx = .ok (some collision))
    (hheld : isStopHeld geometry self plannerData path collision = .ok false) :
    (Succeeds (stopAtStopLine geometry self plannerData clock state stopLine path endLineIdx)
        fun result => StopsBy geometry result.1.path position) ↔
      Succeeds (insertStopVelocityAtCollision geometry collision
        (-plannerData.maxLongitudinalOffsetM) path)
        fun result => StopsBy geometry result.2 position := by
  rw [stopAtStopLine, insertStopVelocityAtStopLine_eq hcollision hheld]
  constructor
  · rintro ⟨result, hresult, hstops⟩
    obtain ⟨planned, hplanned, hresult⟩ := bind_eq_ok.mp hresult
    obtain ⟨inserted, hinserted, hplanned⟩ := bind_eq_ok.mp hplanned
    obtain ⟨stopPose, _, hplanned⟩ := bind_eq_ok.mp hplanned
    obtain rfl := Except.ok.inj hplanned
    obtain rfl := Except.ok.inj hresult
    exact ⟨inserted, hinserted, hstops⟩
  · rintro ⟨inserted, hinserted, hstops⟩
    obtain ⟨stopPose, hpose⟩ := insertStopVelocityAtCollision_index hmeasures hindex hinserted
    exact .bind_eq (bind_eq_ok.mpr ⟨inserted, hinserted, bind_eq_ok.mpr ⟨stopPose, hpose, rfl⟩⟩)
      ⟨_, rfl, hstops⟩

/-- Without the right of way the path is stopped in time if the stop fits in before the stop
line, or if it stops in time by itself.  No other path that drives up to the place of the stop is
stopped in time, as long as the vehicle is not held where it is. -/
theorem modifyPathVelocity_stopsBy [IsStrictOrderedRing K] (hmeasures : MeasuresLengths geometry path)
    (hend : getPathIndexOfFirstEndLine self path = .ok (some endLineIdx))
    (hstart : isBeforeStartLine geometry self plannerData path endLineIdx = .ok false)
    (hstop : isBeforeStopLine geometry self plannerData path endLineIdx = .ok true)
    (hlacks : LacksRightOfWay self plannerData clock) :
    ∃ stopLine collision held, self.mapData.stopLine = some stopLine ∧
      findLastCollisionBeforeEndLine path stopLine endLineIdx = .ok (some collision) ∧
      isStopHeld geometry self plannerData path collision = .ok held ∧
      ((memory.state ≠ .finalized ∧ held = false ∧
            StopFits geometry path collision plannerData.maxLongitudinalOffsetM ∨
          (memory.state = .finalized ∨
              held = false ∧ (lengthsOfPath geometry path)[collision.index]? ≠ some 0) ∧
            StopsBy geometry path (stopLinePosition geometry path collision -
              plannerData.maxLongitudinalOffsetM)) →
        Succeeds (modifyPathVelocity geometry self plannerData clock memory path) fun result =>
          StopsBy geometry result.1.path (stopLinePosition geometry path collision -
            plannerData.maxLongitudinalOffsetM)) ∧
      (0 < plannerData.maxLongitudinalOffsetM → held = false →
        DrivesUpTo geometry path (stopLinePosition geometry path collision -
          plannerData.maxLongitudinalOffsetM) →
        (Succeeds (modifyPathVelocity geometry self plannerData clock memory path) fun result =>
          StopsBy geometry result.1.path (stopLinePosition geometry path collision -
            plannerData.maxLongitudinalOffsetM)) →
        memory.state ≠ .finalized ∧
          StopFits geometry path collision plannerData.maxLongitudinalOffsetM) := by
  obtain ⟨stopLine, collision, held, hline, hcollision, hheld⟩ :=
    exists_collision_of_isBeforeStopLine hstop
  refine ⟨stopLine, collision, held, hline, hcollision, hheld, ?_⟩
  obtain ⟨front, back, ratio, hcrossing⟩ : ∃ front back ratio,
      IsCrossing path collision front back ratio := by
    obtain ⟨p1, _, hrest⟩ := bind_eq_ok.mp hcollision
    obtain ⟨p2, _, hfrom⟩ := bind_eq_ok.mp hrest
    exact isCrossing_of_lastCollisionFrom hfrom
  have hindex := hcrossing.index_lt
  rw [modifyPathVelocity_eq hend hstart hstop hlacks hline]
  by_cases hstate : memory.state = .finalized
  · rw [if_pos hstate]
    constructor
    · rintro (⟨hother, _⟩ | ⟨_, hstops⟩)
      · exact absurd hstate hother
      · exact .ok hstops
    · rintro _ _ hdrives ⟨result, hresult, hstops⟩
      obtain rfl := Except.ok.inj hresult
      exact absurd hstops hdrives.not_stopsBy
  · rw [if_neg hstate]
    constructor
    · rintro (⟨_, rfl, hfits⟩ | ⟨hkept | ⟨rfl, hlength⟩, hstops⟩)
      · rw [stopAtStopLine_succeeds_iff hmeasures hindex hcollision hheld]
        exact (hfits.isPlacedBy hmeasures hindex).succeeds hmeasures hindex
      · exact absurd hkept hstate
      · rw [stopAtStopLine_succeeds_iff hmeasures hindex hcollision hheld]
        rcases insertStopVelocityAtCollision_cases hmeasures hindex with
          hunchanged | ⟨_, hzero⟩ | ⟨_, _, _, _, _, _, _, _, _, hinserted⟩
        · exact ⟨_, hunchanged, stopsBy_insertStop hmeasures hindex hunchanged hstops⟩
        · exact absurd hzero hlength
        · exact ⟨_, hinserted, stopsBy_insertStop hmeasures hindex hinserted hstops⟩
    · rintro hfront rfl hdrives hsucceeds
      rw [stopAtStopLine_succeeds_iff hmeasures hindex hcollision hheld] at hsucceeds
      obtain ⟨result, hresult, hstops⟩ := hsucceeds
      exact ⟨hstate, stopFits_of_isPlacedBy hmeasures hcrossing hfront
        (isPlacedBy_of_stopsBy hmeasures hindex hdrives hresult hstops)⟩

end

/-! ## A straight road -/

def exampleGeometry : Geometry ℚ Unit where
  sqrt := Rat.sqrt
  cosQuarterPi := 0
  orientationTo := fun _ _ => ()
  calcYawDeviation := fun _ _ => 0
  isDrivingForward := fun _ _ => true
  azimuthTo := fun _ _ => ()
  unset := ()

def lineAt (x : ℚ) : LineString ℚ :=
  [⟨x, -5, 0⟩, ⟨x, 5, 0⟩]

def exampleModule (endLine : ℚ) : VirtualTrafficLightModule ℚ where
  laneId := 1
  mapData :=
    { instrumentType := "intersection"
      instrumentId := "1"
      customTags := []
      instrumentCenter := ⟨0, 5, 5⟩
      stopLine := some (lineAt 15)
      startLine := lineAt (-5)
      endLines := [lineAt endLine] }
  plannerParam :=
    { maxDelaySec := 3
      nearLineDistance := 1
      deadLineMargin := 1
      holdStopMarginDistance := 0
      checkTimeoutAfterStopLine := true }

def examplePlannerData : PlannerData ℚ Unit where
  currentOdometry := ⟨⟨2, 0, 0⟩, ()⟩
  maxLongitudinalOffsetM := 4
  egoNearestDistThreshold := 3
  isVehicleStopped := false
  virtualTrafficLightStates := none

def exampleClock : Clock ℚ := ⟨0, 0⟩

def exampleMemory : Memory ℚ Unit := ⟨.none, none, none⟩

/-- Points every ten meters. -/
def straightPath (count : ℕ) : PathWithLaneId ℚ Unit :=
  (List.range count).map fun i => ⟨⟨⟨10 * i, 0, 0⟩, ()⟩, 5, [1]⟩

theorem straightPath_measuresLengths (count : ℕ) :
    MeasuresLengths exampleGeometry (straightPath count) where
  nonneg := fun value _ => Rat.sqrt_nonneg value
  scales := fun idx front back hfront hback ratio hratio => by
    rw [straightPath, List.getElem?_map, Option.map_eq_some_iff] at hfront hback
    obtain ⟨i, _, rfl⟩ := hfront
    obtain ⟨j, _, rfl⟩ := hback
    have hsquare : calcSquaredDistance2d (⟨10 * (i : ℚ), 0, 0⟩ : Point ℚ) ⟨10 * (j : ℚ), 0, 0⟩ =
        (10 * i - 10 * j) * (10 * i - 10 * j) := by
      simp [calcSquaredDistance2d]
    dsimp only [exampleGeometry]
    rw [hsquare, Rat.sqrt_eq, mul_mul_mul_comm, Rat.sqrt_eq, abs_mul, abs_of_nonneg hratio]

/-- Where the path ends on the segment of the stop line no stop is inserted. -/
theorem lastSegment_not_stopped :
    getPathIndexOfFirstEndLine (exampleModule 18) (straightPath 3) = .ok (some 2) ∧
      isBeforeStartLine exampleGeometry (exampleModule 18) examplePlannerData (straightPath 3) 2 =
        .ok false ∧
      isBeforeStopLine exampleGeometry (exampleModule 18) examplePlannerData (straightPath 3) 2 =
        .ok true ∧
      findCorrespondingState (exampleModule 18) examplePlannerData = none ∧
      findLastCollisionBeforeEndLine (straightPath 3) (lineAt 15) 2 = .ok (some ⟨2, ⟨15, 0, 0⟩⟩) ∧
      ¬ Succeeds (modifyPathVelocity exampleGeometry (exampleModule 18) examplePlannerData
          exampleClock exampleMemory (straightPath 3)) fun result =>
        StopsBy exampleGeometry result.1.path
          (stopLinePosition exampleGeometry (straightPath 3) ⟨2, ⟨15, 0, 0⟩⟩ - 4) := by
  refine ⟨by decide +kernel, by decide +kernel, by decide +kernel, rfl, by decide +kernel, ?_⟩
  have hpath : (modifyPathVelocity exampleGeometry (exampleModule 18) examplePlannerData
      exampleClock exampleMemory (straightPath 3)).map (·.1.path) = .ok (straightPath 3) := by
    decide +kernel
  have hgoes : ¬ StopsBy exampleGeometry (straightPath 3)
      (stopLinePosition exampleGeometry (straightPath 3) ⟨2, ⟨15, 0, 0⟩⟩ - 4) := by
    decide +kernel
  rintro ⟨result, hresult, hstops⟩
  rw [hresult] at hpath
  have hunchanged : result.1.path = straightPath 3 := Except.ok.inj hpath
  rw [hunchanged] at hstops
  exact hgoes hstops

/-- With a segment behind that of the stop line the stop is inserted. -/
theorem straightPath_stopsBy :
    ∃ stopLine collision held, (exampleModule 25).mapData.stopLine = some stopLine ∧
      findLastCollisionBeforeEndLine (straightPath 4) stopLine 3 = .ok (some collision) ∧
      isStopHeld exampleGeometry (exampleModule 25) examplePlannerData (straightPath 4) collision =
        .ok held ∧
      Succeeds (modifyPathVelocity exampleGeometry (exampleModule 25) examplePlannerData
        exampleClock exampleMemory (straightPath 4)) fun result =>
          StopsBy exampleGeometry result.1.path
            (stopLinePosition exampleGeometry (straightPath 4) collision - 4) := by
  obtain ⟨stopLine, collision, held, hline, hcollision, hheld, hstops, _⟩ :=
    @modifyPathVelocity_stopsBy ℚ Unit _ _ exampleGeometry (straightPath 4) (exampleModule 25)
      examplePlannerData exampleClock exampleMemory 3 _ (straightPath_measuresLengths 4)
      (by decide +kernel) (by decide +kernel) (by decide +kernel)
      (fun state hstate => by cases hstate)
  obtain rfl : lineAt 15 = stopLine := Option.some.inj hline
  have hcrossing : findLastCollisionBeforeEndLine (straightPath 4) (lineAt 15) 3 =
      .ok (some ⟨2, ⟨15, 0, 0⟩⟩) := by
    decide +kernel
  obtain rfl := Option.some.inj (Except.ok.inj (hcrossing.symm.trans hcollision))
  have hnotHeld : isStopHeld exampleGeometry (exampleModule 25) examplePlannerData
      (straightPath 4) ⟨2, ⟨15, 0, 0⟩⟩ = .ok false := by
    decide +kernel
  obtain rfl := Except.ok.inj (hnotHeld.symm.trans hheld)
  refine ⟨_, _, _, hline, hcollision, hheld, hstops (.inl ⟨by decide, rfl, ?_⟩)⟩
  refine ⟨-5, 1, ⟨⟨11, 0, 0⟩, ()⟩, by decide +kernel, by decide +kernel, by decide,
    by decide +kernel, by decide +kernel, by decide +kernel, by decide +kernel,
    fun i point _ hpoint => ?_⟩
  rw [straightPath, List.getElem?_map, Option.map_eq_some_iff] at hpoint
  obtain ⟨_, _, rfl⟩ := hpoint
  norm_num

end AutowareUniverse.Planning.VirtualTrafficLight
