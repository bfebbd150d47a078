import AutowareUniverse.Common.MotionUtils

/-!
# Slow down planning of the obstacle cruise planner

For every obstacle in turn, up to two points are inserted into the trajectory and the
slow down velocity is written to all points of the section between them.  Velocities are
of a type of their own, so that the same planning can be done with velocities that
remember who wrote them; in the source a write replaces the velocity.  The fields of a
point that planning only copies and the debug output are left out.
-/

namespace AutowareUniverse.Planning.SlowDownTrajectory

open Common.MotionUtils Library.Fallible

section

section

structure TrajectoryPoint (K O V : Type) where
  pose : Pose K O
  longitudinalVelocityMps : V
  deriving DecidableEq

structure EgoNearestParam (K : Type) where
  distThreshold : K
  yawThreshold : K

structure PlannerData (K O : Type) where
  egoPose : Pose K O
  egoVel : K
  isDrivingForward : Bool

structure SlowDownObstacle (K : Type) where
  preciseLatDist : K
  frontCollisionPoint : Point K
  backCollisionPoint : Point K

structure SlowDownParam (K : Type) where
  maxLatMargin : K
  minLatMargin : K
  maxEgoVelocity : K
  minEgoVelocity : K
  maxDeceleration : K

structure VehicleInfo (K : Type) where
  maxLongitudinalOffset : K
  minLongitudinalOffset : K

structure PlannerInterface (K O : Type) where
  geometry : Trigonometry K O
  egoNearestParam : EgoNearestParam K
  slowDownParam : SlowDownParam K
  vehicleInfo : VehicleInfo K

/-- How a velocity is written to a point, and what the copy of a point has. -/
structure Writer (K V : Type) where
  assign : K → V → V
  copy : V → V

/-- The velocities of the source. -/
def plain (K : Type) : Writer K K where
  assign := fun velocity _ => velocity
  copy := id

variable {K O V : Type}

def posesOf (points : List (TrajectoryPoint K O V)) : List (Pose K O) :=
  points.map TrajectoryPoint.pose

def setPose (points : List (TrajectoryPoint K O V)) (idx : ℕ) (pose : Pose K O) :
    List (TrajectoryPoint K O V) :=
  points.modify idx fun point => { point with pose := pose }

def assignVelocity (writer : Writer K V) (first last : ℕ) (velocity : K)
    (points : List (TrajectoryPoint K O V)) : List (TrajectoryPoint K O V) :=
  points.mapIdx fun i point =>
    if first ≤ i ∧ i ≤ last then
      { point with longitudinalVelocityMps := writer.assign velocity point.longitudinalVelocityMps }
    else point

variable [Field K] [LinearOrder K] (geometry : Trigonometry K O) (writer : Writer K V)

def overlapThreshold : K := 1 / 1000

/-- `insertTargetPoint(seg_idx, p_target, points)`: the index, and the points after it. -/
def insertTargetPointOnSegment (segIdx : ℕ) (pTarget : Point K)
    (points : List (TrajectoryPoint K O V)) : Option ℕ × List (TrajectoryPoint K O V) :=
  match points[segIdx]?, points[segIdx + 1]?, isDrivingForward geometry (posesOf points) with
  | some front, some back, some isDrivingForward =>
    let pFront := front.pose.position
    let pBack := back.pose.position
    if isSharpAngle geometry pFront pTarget pBack then (none, points)
    else
      let overlapWithFront := calcDistance2d geometry pTarget pFront < overlapThreshold
      let overlapWithBack := calcDistance2d geometry pTarget pBack < overlapThreshold
      let pInsert : TrajectoryPoint K O V :=
        ⟨⟨pTarget, geometry.orientationTo pTarget (if isDrivingForward then pBack else pFront)⟩,
          writer.copy front.longitudinalVelocityMps⟩
      let pBase := if isDrivingForward then pFront else pBack
      let basePose : Pose K O := ⟨pBase, geometry.orientationTo pBase pTarget⟩
      if ¬overlapWithFront ∧ ¬overlapWithBack then
        let oriented :=
          setPose points (if isDrivingForward then segIdx else segIdx + 1) basePose
        (some (segIdx + 1), oriented.insertIdx (segIdx + 1) pInsert)
      else if overlapWithBack then (some (segIdx + 1), points)
      else (some segIdx, points)
  | _, _, _ => (none, points)

def segmentAtLength (poses : List (Pose K O)) (srcSegmentIdx : ℕ) (insertPointLength : K) :
    Option ℕ :=
  if insertPointLength < 0 ∨ poses.length - 1 ≤ srcSegmentIdx then none
  else
    let candidates := List.range' (srcSegmentIdx + 1) (poses.length - (srcSegmentIdx + 1))
    (candidates.find? fun i =>
      insertPointLength ≤ calcSignedArcLength geometry poses srcSegmentIdx i).map (· - 1)

def targetOnSegment (poses : List (Pose K O)) (srcSegmentIdx segmentIdx : ℕ)
    (insertPointLength : K) : Except Failure (Point K) :=
  let segmentLength := calcSignedArcLength geometry poses segmentIdx (segmentIdx + 1)
  let targetLength :=
    max 0 (insertPointLength - calcSignedArcLength geometry poses srcSegmentIdx segmentIdx)
  if segmentLength = 0 then throw .notANumber
  else
    let ratio := clamp (targetLength / segmentLength) 0 1
    match poses[segmentIdx]?, poses[segmentIdx + 1]? with
    | some front, some back => return calcInterpolatedPoint front.position back.position ratio
    | _, _ => throw .outOfRange

/-- `insertTargetPoint(src_segment_idx, insert_point_length, points)`. -/
def insertTargetPoint (srcSegmentIdx : ℕ) (insertPointLength : K)
    (points : List (TrajectoryPoint K O V)) :
    Except Failure (Option ℕ × List (TrajectoryPoint K O V)) :=
  let poses := posesOf points
  if poses.isEmpty then throw .invalidArgument
  else
    match segmentAtLength geometry poses srcSegmentIdx insertPointLength with
    | none => return (none, points)
    | some segmentIdx => do
      let pTarget ← targetOnSegment geometry poses srcSegmentIdx segmentIdx insertPointLength
      return insertTargetPointOnSegment geometry writer segmentIdx pTarget points

/-! ## Planning -/

def absEgoOffset (vehicleInfo : VehicleInfo K) (plannerData : PlannerData K O) : K :=
  if plannerData.isDrivingForward then |vehicleInfo.maxLongitudinalOffset|
  else |vehicleInfo.minLongitudinalOffset|

/-- The ratio of `calculateSlowDownVelocity`; an infinite quotient is clamped. -/
def slowDownRatio (margin width : K) : Except Failure K :=
  if width = 0 then
    if margin < 0 then .ok 0
    else if 0 < margin then .ok 1
    else .error .notANumber
  else .ok (clamp (margin / width) 0 1)

def calculateSlowDownVelocity (p : SlowDownParam K) (obstacle : SlowDownObstacle K) :
    Except Failure K := do
  let ratio ← slowDownRatio (|obstacle.preciseLatDist| - p.minLatMargin)
    (p.maxLatMargin - p.minLatMargin)
  return p.minEgoVelocity + ratio * (p.maxEgoVelocity - p.minEgoVelocity)

/-- No distance stands for what is no finite number, at which no point is inserted. -/
def calculateDistanceToSlowDownWithAccConstraint (p : SlowDownParam K) (offset : K)
    (plannerData : PlannerData K O) (poses : List (Pose K O)) (obstacle : SlowDownObstacle K)
    (distToEgo : Option K) (slowDownVel : K) : Option K := do
  let length ← calcSignedArcLengthToPoint geometry poses obstacle.frontCollisionPoint
  let distToSlowDown := length - offset
  if |plannerData.egoVel| < |slowDownVel| then return distToSlowDown
  else
    let distToEgo ← distToEgo
    let distToSlowDownFromEgo := distToSlowDown - distToEgo
    let energy := -(plannerData.egoVel ^ 2 - slowDownVel ^ 2) / 2
    let limitedSlowDownAcc :=
      if distToSlowDownFromEgo ≤ 0 then p.maxDeceleration
      else max (energy / distToSlowDownFromEgo) p.maxDeceleration
    if limitedSlowDownAcc = 0 then none
    else return energy / limitedSlowDownAcc + distToEgo

/-- `insert_slow_down_to_trajectory`. -/
def insertSlowDownToTrajectory (lonDist slowDownVel : K) (points : List (TrajectoryPoint K O V)) :
    Except Failure (Option ℕ × List (TrajectoryPoint K O V)) := do
  let (insertedIdx, points) ← insertTargetPoint geometry writer 0 lonDist points
  match insertedIdx with
  | some idx => return (some idx, assignVelocity writer idx idx slowDownVel points)
  | none => return (none, points)

/-- `slow_down_end_idx`, where the section has an end after its start. -/
def insertSlowDownEnd (offset slowDownVel distToSlowDownStart : K)
    (obstacle : SlowDownObstacle K) (points : List (TrajectoryPoint K O V)) :
    Except Failure (Option ℕ × List (TrajectoryPoint K O V)) :=
  match calcSignedArcLengthToPoint geometry (posesOf points) obstacle.backCollisionPoint with
  | some length =>
    if distToSlowDownStart < length - offset then
      insertSlowDownToTrajectory geometry writer (length - offset) slowDownVel points
    else return (none, points)
  | none => return (none, points)

def writeSection (offset slowDownVel distToSlowDownStart : K) (obstacle : SlowDownObstacle K)
    (slowDownStartIdx : Option ℕ) (points : List (TrajectoryPoint K O V)) :
    Except Failure (Option ℕ × List (TrajectoryPoint K O V)) :=
  match slowDownStartIdx with
  | none => return (none, points)
  | some slowDownStartIdx => do
    let (slowDownEndIdx, points) ←
      insertSlowDownEnd geometry writer offset slowDownVel distToSlowDownStart obstacle points
    match slowDownEndIdx with
    | some slowDownEndIdx =>
      return (some slowDownEndIdx,
        assignVelocity writer slowDownStartIdx slowDownEndIdx slowDownVel points)
    | none => return (none, points)

variable (planner : PlannerInterface K O) (plannerData : PlannerData K O)

/-- One iteration of the loop over the obstacles: the index of the end of the section. -/
def slowDownFor (distToEgo : Option K) (obstacle : SlowDownObstacle K)
    (points : List (TrajectoryPoint K O V)) :
    Except Failure (Option ℕ × List (TrajectoryPoint K O V)) := do
  let geometry := planner.geometry
  let offset := absEgoOffset planner.vehicleInfo plannerData
  let slowDownVel ← calculateSlowDownVelocity planner.slowDownParam obstacle
  match calculateDistanceToSlowDownWithAccConstraint geometry planner.slowDownParam offset
    plannerData (posesOf points) obstacle distToEgo slowDownVel with
  | some distToSlowDownStart => do
    let (slowDownStartIdx, points) ←
      insertSlowDownToTrajectory geometry writer distToSlowDownStart slowDownVel points
    writeSection geometry writer offset slowDownVel distToSlowDownStart obstacle
      slowDownStartIdx points
  | none => return (none, points)

def slowDownForAll (distToEgo : Option K) (obstacles : List (SlowDownObstacle K))
    (points : List (TrajectoryPoint K O V)) : Except Failure (List (TrajectoryPoint K O V)) :=
  obstacles.foldlM (fun points obstacle =>
    (slowDownFor writer planner plannerData distToEgo obstacle points).map Prod.snd) points

def generateSlowDownTrajectory (cruiseTrajPoints : List (TrajectoryPoint K O V))
    (obstacles : List (SlowDownObstacle K)) :
    Except Failure (List (TrajectoryPoint K O V)) := do
  let poses := posesOf cruiseTrajPoints
  let egoSegIdx ← findFirstNearestSegmentIndexWithSoftConstraints planner.geometry poses
    plannerData.egoPose planner.egoNearestParam.distThreshold planner.egoNearestParam.yawThreshold
  let distToEgo :=
    calcSignedArcLengthOnSegment planner.geometry poses plannerData.egoPose.position egoSegIdx
  slowDownForAll writer planner plannerData distToEgo obstacles cruiseTrajPoints

end

/-! ## Slow down planning as a list of edits -/

variable {K O V : Type}

/-- One change of a trajectory. -/
inductive Edit (K O : Type) where
  | setPose (idx : ℕ) (pose : Pose K O)
  /-- A copy of the point at an index is inserted behind it, with another pose. -/
  | insertCopy (idx : ℕ) (pose : Pose K O)
  | assign (first last : ℕ) (velocity : K)

namespace Edit

def run (writer : Writer K V) :
    Edit K O → List (TrajectoryPoint K O V) → List (TrajectoryPoint K O V)
  | .setPose idx pose, points => SlowDownTrajectory.setPose points idx pose
  | .insertCopy idx pose, points =>
    match points[idx]? with
    | some front =>
      points.insertIdx (idx + 1) ⟨pose, writer.copy front.longitudinalVelocityMps⟩
    | none => points
  | .assign first last velocity, points => assignVelocity writer first last velocity points

def runPoses : Edit K O → List (Pose K O) → List (Pose K O)
  | .setPose idx pose, poses => poses.modify idx fun _ => pose
  | .insertCopy idx pose, poses =>
    if idx < poses.length then poses.insertIdx (idx + 1) pose else poses
  | .assign _ _ _, poses => poses

end Edit

variable (writer : Writer K V)

def runEdits (edits : List (Edit K O))
    (points : List (TrajectoryPoint K O V)) : List (TrajectoryPoint K O V) :=
  edits.foldl (fun points edit => edit.run writer points) points

def runEditsPoses (edits : List (Edit K O)) (poses : List (Pose K O)) : List (Pose K O) :=
  edits.foldl (fun poses edit => edit.runPoses poses) poses

theorem runEdits_cons (edit : Edit K O) (edits : List (Edit K O))
    (points : List (TrajectoryPoint K O V)) :
    runEdits writer (edit :: edits) points = runEdits writer edits (edit.run writer points) :=
  rfl

theorem runEdits_append (first second : List (Edit K O)) (points : List (TrajectoryPoint K O V)) :
    runEdits writer (first ++ second) points =
      runEdits writer second (runEdits writer first points) :=
  List.foldl_append

theorem posesOf_assignVelocity (first last : ℕ) (velocity : K)
    (points : List (TrajectoryPoint K O V)) :
    posesOf (assignVelocity writer first last velocity points) = posesOf points := by
  apply List.ext_getElem?
  intro i
  rw [posesOf, posesOf, assignVelocity, List.getElem?_map, List.getElem?_map, List.getElem?_mapIdx]
  cases points[i]? with
  | none => rfl
  | some point =>
    simp only [Option.map_some]
    split <;> rfl

theorem posesOf_setPose (points : List (TrajectoryPoint K O V)) (idx : ℕ) (pose : Pose K O) :
    posesOf (setPose points idx pose) = (posesOf points).modify idx fun _ => pose := by
  apply List.ext_getElem?
  intro i
  rw [posesOf, posesOf, setPose, List.getElem?_map, List.getElem?_modify,
    List.getElem?_modify, List.getElem?_map]
  cases points[i]? with
  | none => rfl
  | some point =>
    simp only [Option.map_some, Option.map_eq_map]
    split <;> rfl

theorem Edit.posesOf_run (edit : Edit K O) (points : List (TrajectoryPoint K O V)) :
    posesOf (edit.run writer points) = edit.runPoses (posesOf points) := by
  cases edit with
  | setPose idx pose => exact posesOf_setPose points idx pose
  | assign first last velocity => exact posesOf_assignVelocity writer first last velocity points
  | insertCopy idx pose =>
    rw [Edit.run, Edit.runPoses]
    rcases lt_or_ge idx points.length with hlt | hge
    · rw [List.getElem?_eq_getElem hlt, if_pos (by simpa [posesOf] using hlt)]
      exact List.map_insertIdx ..
    · rw [List.getElem?_eq_none hge, if_neg (by simpa [posesOf] using hge)]

theorem posesOf_runEdits (edits : List (Edit K O)) (points : List (TrajectoryPoint K O V)) :
    posesOf (runEdits writer edits points) = runEditsPoses edits (posesOf points) := by
  induction edits generalizing points with
  | nil => rfl
  | cons edit edits ih =>
    rw [runEdits_cons, ih, edit.posesOf_run]
    rfl

/-! ## Plans -/

/-- A planning function, for every way to write velocities. -/
abbrev Plan (K O α : Type) :=
  ∀ V : Type, Writer K V → List (TrajectoryPoint K O V) →
    Except Failure (α × List (TrajectoryPoint K O V))

def Scripted {α : Type} (plan : Plan K O α) (poses : List (Pose K O)) : Prop :=
  ∃ outcome : Except Failure (α × List (Edit K O)),
    ∀ (V : Type) (writer : Writer K V) (points : List (TrajectoryPoint K O V)),
      posesOf points = poses → plan V writer points =
          outcome.map fun result => (result.1, runEdits writer result.2 points)

namespace Scripted

variable {α β : Type} {poses : List (Pose K O)}

theorem throw (failure : Failure) :
    Scripted (fun _ _ _ => (.error failure : Except Failure (α × _))) poses :=
  ⟨.error failure, fun _ _ _ _ => rfl⟩

theorem edits (value : α) (edits : List (Edit K O)) :
    Scripted (fun _ writer points => .ok (value, runEdits writer edits points)) poses :=
  ⟨.ok (value, edits), fun _ _ _ _ => rfl⟩

theorem pure (value : α) : Scripted (fun _ _ points => .ok (value, points)) poses :=
  edits value []

theorem congr {plan other : Plan K O α} (hplan : Scripted plan poses)
    (heq : ∀ (V : Type) (writer : Writer K V) (points : List (TrajectoryPoint K O V)),
      posesOf points = poses → other V writer points = plan V writer points) :
    Scripted other poses := by
  obtain ⟨outcome, houtcome⟩ := hplan
  refine ⟨outcome, fun V writer points hposes => ?_⟩
  rw [heq V writer points hposes, houtcome V writer points hposes]

theorem bind {plan : Plan K O α} {next : α → Plan K O β} (hplan : Scripted plan poses)
    (hnext : ∀ value poses, Scripted (next value) poses) :
    Scripted (fun V writer points =>
      plan V writer points >>= fun result => next result.1 V writer result.2) poses := by
  obtain ⟨outcome, houtcome⟩ := hplan
  cases outcome with
  | error failure =>
    refine ⟨.error failure, fun V writer points hposes => ?_⟩
    change plan V writer points >>= _ = _
    rw [houtcome V writer points hposes]
    rfl
  | ok result =>
    obtain ⟨value, first⟩ := result
    obtain ⟨after, hafter⟩ := hnext value (runEditsPoses first poses)
    refine ⟨after.map fun r => (r.1, first ++ r.2), fun V writer points hposes => ?_⟩
    have hrun : posesOf (runEdits writer first points) = runEditsPoses first poses := by
      rw [posesOf_runEdits, hposes]
    change plan V writer points >>= _ = _
    rw [houtcome V writer points hposes]
    change next value V writer (runEdits writer first points) = _
    rw [hafter V writer _ hrun]
    cases after with
    | error failure => rfl
    | ok r =>
      change Except.ok (r.1, runEdits writer r.2 (runEdits writer first points)) =
        Except.ok (r.1, runEdits writer (first ++ r.2) points)
      rw [runEdits_append]

theorem ite {plan other : Plan K O α} (cond : Prop) [Decidable cond]
    (hplan : Scripted plan poses) (hother : Scripted other poses) :
    Scripted (fun V writer points =>
      if cond then plan V writer points else other V writer points) poses := by
  by_cases hcond : cond
  · exact hplan.congr fun _ _ _ _ => if_pos hcond
  · exact hother.congr fun _ _ _ _ => if_neg hcond

theorem assign (value : α) (first last : ℕ) (velocity : K) (poses : List (Pose K O)) :
    Scripted (fun _ writer points =>
      .ok (value, assignVelocity writer first last velocity points)) poses :=
  edits value [.assign first last velocity]

end Scripted

theorem runEdits_turn_insert (writer : Writer K V) {points : List (TrajectoryPoint K O V)}
    {front : TrajectoryPoint K O V} {segIdx : ℕ} (hfront : points[segIdx]? = some front)
    (turned : ℕ) (basePose targetPose : Pose K O) :
    runEdits writer [.setPose turned basePose, .insertCopy segIdx targetPose] points =
      (setPose points turned basePose).insertIdx (segIdx + 1)
        ⟨targetPose, writer.copy front.longitudinalVelocityMps⟩ := by
  have hturned : ∃ pose, (setPose points turned basePose)[segIdx]? =
      some ⟨pose, front.longitudinalVelocityMps⟩ := by
    rw [setPose, List.getElem?_modify, hfront]
    split
    · exact ⟨basePose, rfl⟩
    · exact ⟨front.pose, rfl⟩
  obtain ⟨pose, hpose⟩ := hturned
  change Edit.run writer (.insertCopy segIdx targetPose) (setPose points turned basePose) = _
  rw [Edit.run, hpose]

theorem getElem?_posesOf {points : List (TrajectoryPoint K O V)} {i : ℕ} {pose : Pose K O} :
    (posesOf points)[i]? = some pose ↔ ∃ velocity, points[i]? = some ⟨pose, velocity⟩ := by
  rw [posesOf, List.getElem?_map, Option.map_eq_some_iff]
  constructor
  · rintro ⟨⟨other, velocity⟩, hpoint, hpose⟩
    cases hpose
    exact ⟨velocity, hpoint⟩
  · rintro ⟨velocity, hpoint⟩
    exact ⟨⟨pose, velocity⟩, hpoint, rfl⟩

variable [Field K] [LinearOrder K] (geometry : Trigonometry K O)

theorem scripted_insertTargetPointOnSegment (segIdx : ℕ) (pTarget : Point K)
    (poses : List (Pose K O)) :
    Scripted (fun _ writer points =>
      .ok (insertTargetPointOnSegment geometry writer segIdx pTarget points)) poses := by
  by_cases hsegment : ∃ front back forward, poses[segIdx]? = some front ∧
      poses[segIdx + 1]? = some back ∧ isDrivingForward geometry poses = some forward
  · obtain ⟨front, back, forward, hfront, hback, hforward⟩ := hsegment
    let target : Pose K O :=
      ⟨pTarget, geometry.orientationTo pTarget (if forward then back.position else front.position)⟩
    let base := if forward then front.position else back.position
    let turned := if forward then segIdx else segIdx + 1
    have hplan : Scripted _ poses := .ite (isSharpAngle geometry front.position pTarget back.position)
      (.pure (none : Option ℕ))
      (.ite (¬calcDistance2d geometry pTarget front.position < overlapThreshold ∧
          ¬calcDistance2d geometry pTarget back.position < overlapThreshold)
        (.edits (some (segIdx + 1))
          [.setPose turned ⟨base, geometry.orientationTo base pTarget⟩, .insertCopy segIdx target])
        (.ite (calcDistance2d geometry pTarget back.position < overlapThreshold)
          (.pure (some (segIdx + 1))) (.pure (some segIdx))))
    apply hplan.congr
    intro V writer points hposes
    subst hposes
    obtain ⟨frontVelocity, hfront⟩ := getElem?_posesOf.mp hfront
    obtain ⟨backVelocity, hback⟩ := getElem?_posesOf.mp hback
    simp only [runEdits_turn_insert writer hfront, insertTargetPointOnSegment, hfront, hback,
      hforward]
    rw [apply_ite Except.ok, apply_ite Except.ok, apply_ite Except.ok]
  · apply (Scripted.pure none).congr
    intro V writer points hposes
    subst hposes
    rw [insertTargetPointOnSegment]
    split
    · next front back forward hfront hback hforward =>
        exact absurd ⟨_, _, _, getElem?_posesOf.mpr ⟨_, hfront⟩,
          getElem?_posesOf.mpr ⟨_, hback⟩, hforward⟩ hsegment
    · rfl

theorem scripted_insertTargetPoint (srcSegmentIdx : ℕ) (insertPointLength : K)
    (poses : List (Pose K O)) :
    Scripted (fun _ writer points =>
      insertTargetPoint geometry writer srcSegmentIdx insertPointLength points) poses := by
  by_cases hempty : poses.isEmpty
  · apply (Scripted.throw .invalidArgument).congr
    intro V writer points hposes
    rw [insertTargetPoint, hposes, if_pos hempty]
    rfl
  cases hsegment : segmentAtLength geometry poses srcSegmentIdx insertPointLength with
  | none =>
    apply (Scripted.pure none).congr
    intro V writer points hposes
    rw [insertTargetPoint, hposes, if_neg hempty, hsegment]
    rfl
  | some segmentIdx =>
    cases htarget : targetOnSegment geometry poses srcSegmentIdx segmentIdx
        insertPointLength with
    | error failure =>
      apply (Scripted.throw failure).congr
      intro V writer points hposes
      rw [insertTargetPoint, hposes, if_neg hempty, hsegment]
      dsimp only
      rw [htarget]
      rfl
    | ok pTarget =>
      apply (scripted_insertTargetPointOnSegment geometry segmentIdx pTarget poses).congr
      intro V writer points hposes
      rw [insertTargetPoint, hposes, if_neg hempty, hsegment]
      dsimp only
      rw [htarget]
      rfl

/-! ## The edits of a whole planning -/

theorem scripted_insertSlowDownToTrajectory (lonDist slowDownVel : K) (poses : List (Pose K O)) :
    Scripted (fun _ writer points =>
      insertSlowDownToTrajectory geometry writer lonDist slowDownVel points) poses := by
  let next (insertedIdx : Option ℕ) : Plan K O (Option ℕ) := fun _ writer points =>
    match insertedIdx with
    | some idx => .ok (some idx, assignVelocity writer idx idx slowDownVel points)
    | none => .ok (none, points)
  have hnext : ∀ insertedIdx poses, Scripted (next insertedIdx) poses := by
    intro insertedIdx poses
    cases insertedIdx with
    | some idx => exact Scripted.assign (some idx) idx idx slowDownVel poses
    | none => exact Scripted.pure none
  exact (scripted_insertTargetPoint geometry 0 lonDist poses).bind hnext

theorem scripted_insertSlowDownEnd (offset slowDownVel distToSlowDownStart : K)
    (obstacle : SlowDownObstacle K) (poses : List (Pose K O)) :
    Scripted (fun _ writer points =>
      insertSlowDownEnd geometry writer offset slowDownVel distToSlowDownStart obstacle points)
      poses := by
  cases hlength : calcSignedArcLengthToPoint geometry poses obstacle.backCollisionPoint with
  | none =>
    apply (Scripted.pure none).congr
    intro V writer points hposes
    rw [insertSlowDownEnd, hposes, hlength]
    rfl
  | some length =>
    have hplan : Scripted _ poses := .ite (distToSlowDownStart < length - offset)
      (scripted_insertSlowDownToTrajectory geometry (length - offset) slowDownVel poses)
      (.pure none)
    apply hplan.congr
    intro V writer points hposes
    rw [insertSlowDownEnd, hposes, hlength]
    rfl

theorem scripted_writeSection (offset slowDownVel distToSlowDownStart : K)
    (obstacle : SlowDownObstacle K) (slowDownStartIdx : Option ℕ) (poses : List (Pose K O)) :
    Scripted (fun _ writer points =>
      writeSection geometry writer offset slowDownVel distToSlowDownStart obstacle
        slowDownStartIdx points) poses := by
  cases slowDownStartIdx with
  | none => exact Scripted.pure none
  | some slowDownStartIdx =>
    let next (slowDownEndIdx : Option ℕ) : Plan K O (Option ℕ) := fun _ writer points =>
      match slowDownEndIdx with
      | some slowDownEndIdx => .ok (some slowDownEndIdx,
          assignVelocity writer slowDownStartIdx slowDownEndIdx slowDownVel points)
      | none => .ok (none, points)
    have hnext : ∀ slowDownEndIdx poses, Scripted (next slowDownEndIdx) poses := by
      intro slowDownEndIdx poses
      cases slowDownEndIdx with
      | some slowDownEndIdx => exact Scripted.assign _ slowDownStartIdx _ slowDownVel poses
      | none => exact Scripted.pure none
    exact (scripted_insertSlowDownEnd geometry offset slowDownVel distToSlowDownStart
      obstacle poses).bind hnext

variable (planner : PlannerInterface K O) (plannerData : PlannerData K O)

/-- One iteration, with its velocity. -/
theorem slowDownFor_eq (writer : Writer K V) (distToEgo : Option K) {slowDownVel : K}
    {obstacle : SlowDownObstacle K} (points : List (TrajectoryPoint K O V))
    (hvel : calculateSlowDownVelocity planner.slowDownParam obstacle = .ok slowDownVel) :
    slowDownFor writer planner plannerData distToEgo obstacle points =
      match calculateDistanceToSlowDownWithAccConstraint planner.geometry
        planner.slowDownParam (absEgoOffset planner.vehicleInfo plannerData) plannerData
        (posesOf points) obstacle distToEgo slowDownVel with
      | some distToSlowDownStart =>
        insertSlowDownToTrajectory planner.geometry writer distToSlowDownStart slowDownVel
            points >>= fun result =>
          writeSection planner.geometry writer (absEgoOffset planner.vehicleInfo plannerData)
            slowDownVel distToSlowDownStart obstacle result.1 result.2
      | none => .ok (none, points) := by
  rw [slowDownFor, hvel]
  rfl

theorem scripted_slowDownFor (distToEgo : Option K) (obstacle : SlowDownObstacle K)
    (poses : List (Pose K O)) :
    Scripted (fun _ writer points =>
      slowDownFor writer planner plannerData distToEgo obstacle points) poses := by
  cases hvel : calculateSlowDownVelocity planner.slowDownParam obstacle with
  | error failure =>
    apply (Scripted.throw failure).congr
    intro V writer points hposes
    rw [slowDownFor, hvel]
    rfl
  | ok slowDownVel =>
    cases hdist : calculateDistanceToSlowDownWithAccConstraint planner.geometry
        planner.slowDownParam (absEgoOffset planner.vehicleInfo plannerData) plannerData poses
        obstacle distToEgo slowDownVel with
    | none =>
      apply (Scripted.pure none).congr
      intro V writer points hposes
      rw [slowDownFor_eq planner plannerData writer distToEgo points hvel, hposes, hdist]
    | some distToSlowDownStart =>
      have hplan := (scripted_insertSlowDownToTrajectory planner.geometry distToSlowDownStart
        slowDownVel poses).bind fun slowDownStartIdx poses =>
          scripted_writeSection planner.geometry
            (absEgoOffset planner.vehicleInfo plannerData) slowDownVel distToSlowDownStart
            obstacle slowDownStartIdx poses
      apply hplan.congr
      intro V writer points hposes
      rw [slowDownFor_eq planner plannerData writer distToEgo points hvel, hposes, hdist]

/-- The whole planning performs edits that the poses determine. -/
theorem scripted_slowDownForAll (distToEgo : Option K) (obstacles : List (SlowDownObstacle K))
    (poses : List (Pose K O)) :
    Scripted (fun _ writer points =>
      (slowDownForAll writer planner plannerData distToEgo obstacles points).map
        fun points => ((), points)) poses := by
  induction obstacles generalizing poses with
  | nil => exact Scripted.pure ()
  | cons obstacle obstacles ih =>
    have hplan := (scripted_slowDownFor planner plannerData distToEgo obstacle poses).bind
      fun _ poses => ih poses
    apply hplan.congr
    intro V writer points _
    rw [slowDownForAll, List.foldlM_cons]
    cases slowDownFor writer planner plannerData distToEgo obstacle points with
    | error failure => rfl
    | ok result => rfl

theorem generateSlowDownTrajectory_edits {writer : Writer K V}
    {cruiseTrajPoints slowDownTrajPoints : List (TrajectoryPoint K O V)}
    {obstacles : List (SlowDownObstacle K)}
    (hgenerate : generateSlowDownTrajectory writer planner plannerData cruiseTrajPoints
      obstacles = .ok slowDownTrajPoints) :
    ∃ edits : List (Edit K O), slowDownTrajPoints = runEdits writer edits cruiseTrajPoints ∧
      ∀ (V' : Type) (writer' : Writer K V') (points : List (TrajectoryPoint K O V')),
        posesOf points = posesOf cruiseTrajPoints →
          generateSlowDownTrajectory writer' planner plannerData points obstacles =
            .ok (runEdits writer' edits points) := by
  obtain ⟨egoSegIdx, hego, hall⟩ := bind_eq_ok.mp hgenerate
  obtain ⟨outcome, houtcome⟩ := scripted_slowDownForAll planner plannerData
    (calcSignedArcLengthOnSegment planner.geometry (posesOf cruiseTrajPoints)
      plannerData.egoPose.position egoSegIdx) obstacles (posesOf cruiseTrajPoints)
  have hall' := houtcome V writer cruiseTrajPoints rfl
  dsimp only at hall hall'
  rw [hall] at hall'
  cases outcome with
  | error failure => cases hall'
  | ok result =>
    obtain ⟨_, edits⟩ := result
    have hrun : slowDownTrajPoints = runEdits writer edits cruiseTrajPoints :=
      congrArg Prod.snd (Except.ok.inj hall')
    refine ⟨edits, hrun, fun V' writer' points hposes => ?_⟩
    apply bind_eq_ok.mpr
    refine ⟨egoSegIdx, by rw [hposes]; exact hego, ?_⟩
    have hpoints := houtcome V' writer' points hposes
    obtain ⟨result, hresult, heq⟩ := map_eq_ok.mp hpoints
    rw [hposes]
    exact hresult.trans (congrArg Except.ok (congrArg Prod.snd heq))

end

/-!
## Slow down sections over a point

The planning is repeated with points that remember the velocity they came in with and the
slow down velocities of the sections that were written over them, in this order.
-/

variable {K O V V' : Type}

structure History (K : Type) where
  velocity : K
  /-- An inserted point has no incoming velocity. -/
  incoming : Option K
  sections : List K

namespace History

/-- A point of the incoming trajectory. -/
def start (velocity : K) : History K := ⟨velocity, some velocity, []⟩

/-- The velocity was not raised, and no section over the point has a lower one. -/
def IsLowest [LE K] (history : History K) : Prop :=
  (∀ velocity ∈ history.incoming, history.velocity ≤ velocity) ∧
    ∀ velocity ∈ history.sections, history.velocity ≤ velocity

/-- The last section over the point has the lowest velocity, not above the incoming one. -/
def LastIsLowest [LE K] (history : History K) : Prop :=
  ∀ last ∈ history.sections.getLast?, (∀ velocity ∈ history.incoming, last ≤ velocity) ∧
      ∀ velocity ∈ history.sections, last ≤ velocity

instance [LE K] [DecidableLE K] (history : History K) : Decidable history.IsLowest :=
  inferInstanceAs (Decidable ((∀ velocity ∈ history.incoming, history.velocity ≤ velocity) ∧ _))

/-- What a point remembers agrees with its velocity. -/
structure Recorded (history : History K) : Prop where
  untouched : history.sections = [] → ∀ velocity ∈ history.incoming, history.velocity = velocity
  last : ∀ velocity ∈ history.sections.getLast?, history.velocity = velocity

theorem Recorded.isLowest_iff [Preorder K] {history : History K} (hrecorded : history.Recorded) :
    history.IsLowest ↔ history.LastIsLowest := by
  constructor
  · rintro ⟨hincoming, hsections⟩ last hlast
    rw [← hrecorded.last last hlast]
    exact ⟨hincoming, hsections⟩
  · intro hlowest
    cases hlast : history.sections.getLast? with
    | none =>
      have hnil : history.sections = [] := List.getLast?_eq_none_iff.mp hlast
      refine ⟨fun velocity hvelocity => ?_, fun velocity hvelocity => ?_⟩
      · exact (hrecorded.untouched hnil velocity hvelocity).le
      · rw [hnil] at hvelocity
        cases hvelocity
    | some last =>
      have heq := hrecorded.last last hlast
      rw [IsLowest, heq]
      exact hlowest last hlast

end History

/-- Velocities that remember the sections over their point. -/
def history (K : Type) : Writer K (History K) where
  assign := fun velocity history => ⟨velocity, history.incoming, history.sections ++ [velocity]⟩
  copy := fun history => ⟨history.velocity, none, []⟩

def TrajectoryPoint.mapVelocity (change : V → V') (point : TrajectoryPoint K O V) :
    TrajectoryPoint K O V' :=
  ⟨point.pose, change point.longitudinalVelocityMps⟩

theorem posesOf_mapVelocity (change : V → V') (points : List (TrajectoryPoint K O V)) :
    posesOf (points.map (·.mapVelocity change)) = posesOf points := by
  rw [posesOf, posesOf, List.map_map]
  rfl

/-- Writers that agree on a part of the velocity. -/
structure Writer.Projects (writer : Writer K V) (other : Writer K V') (change : V → V') : Prop where
  assign : ∀ velocity old, change (writer.assign velocity old) = other.assign velocity (change old)
  copy : ∀ old, change (writer.copy old) = other.copy (change old)

theorem projects_velocity : (history K).Projects (plain K) History.velocity :=
  ⟨fun _ _ => rfl, fun _ => rfl⟩

variable {writer : Writer K V}

theorem Edit.map_run {other : Writer K V'} {change : V → V'}
    (hprojects : writer.Projects other change) (edit : Edit K O)
    (points : List (TrajectoryPoint K O V)) :
    (edit.run writer points).map (·.mapVelocity change) =
      edit.run other (points.map (·.mapVelocity change)) := by
  cases edit with
  | setPose idx pose =>
    apply List.ext_getElem?
    intro i
    rw [Edit.run, Edit.run, SlowDownTrajectory.setPose, SlowDownTrajectory.setPose,
      List.getElem?_map, List.getElem?_modify, List.getElem?_modify, List.getElem?_map]
    cases points[i]? with
    | none => rfl
    | some point =>
      simp only [Option.map_some, Option.map_eq_map]
      split <;> rfl
  | insertCopy idx pose =>
    rw [Edit.run, Edit.run, List.getElem?_map]
    cases points[idx]? with
    | none => rfl
    | some front =>
      simp only [Option.map_some, List.map_insertIdx, TrajectoryPoint.mapVelocity, hprojects.copy]
  | assign first last velocity =>
    apply List.ext_getElem?
    intro i
    rw [Edit.run, Edit.run, assignVelocity, assignVelocity, List.getElem?_map,
      List.getElem?_mapIdx, List.getElem?_mapIdx, List.getElem?_map]
    cases points[i]? with
    | none => rfl
    | some point =>
      simp only [Option.map_some]
      split <;> simp only [TrajectoryPoint.mapVelocity, hprojects.assign]

theorem map_runEdits {other : Writer K V'} {change : V → V'}
    (hprojects : writer.Projects other change) (edits : List (Edit K O))
    (points : List (TrajectoryPoint K O V)) :
    (runEdits writer edits points).map (·.mapVelocity change) =
      runEdits other edits (points.map (·.mapVelocity change)) := by
  induction edits generalizing points with
  | nil => rfl
  | cons edit edits ih =>
    rw [runEdits_cons, runEdits_cons, ih, edit.map_run hprojects]

theorem Edit.forall_run {property : V → Prop}
    (hassign : ∀ velocity old, property old → property (writer.assign velocity old))
    (hcopy : ∀ old, property old → property (writer.copy old)) (edit : Edit K O)
    {points : List (TrajectoryPoint K O V)}
    (hpoints : ∀ point ∈ points, property point.longitudinalVelocityMps) :
    ∀ point ∈ edit.run writer points, property point.longitudinalVelocityMps := by
  cases edit with
  | setPose idx pose =>
    intro point hpoint
    obtain ⟨i, hi⟩ := List.mem_iff_getElem?.mp hpoint
    rw [Edit.run, SlowDownTrajectory.setPose, List.getElem?_modify] at hi
    cases hget : points[i]? with
    | none => simp [hget] at hi
    | some old =>
      have hold := hpoints old (List.mem_of_getElem? hget)
      rw [hget] at hi
      split at hi
      · cases hi
        exact hold
      · cases hi
        exact hold
  | insertCopy idx pose =>
    intro point hpoint
    rw [Edit.run] at hpoint
    cases hget : points[idx]? with
    | none =>
      rw [hget] at hpoint
      exact hpoints point hpoint
    | some front =>
      rw [hget] at hpoint
      have hlength : idx + 1 ≤ points.length := (List.getElem?_eq_some_iff.mp hget).1
      rcases (List.mem_insertIdx hlength).mp hpoint with rfl | hmem
      · exact hcopy _ (hpoints front (List.mem_of_getElem? hget))
      · exact hpoints point hmem
  | assign first last velocity =>
    intro point hpoint
    rw [Edit.run, assignVelocity, List.mem_mapIdx] at hpoint
    obtain ⟨i, hi, rfl⟩ := hpoint
    have hold := hpoints points[i] (List.getElem_mem hi)
    split
    · exact hassign velocity _ hold
    · exact hold

theorem forall_runEdits {property : V → Prop}
    (hassign : ∀ velocity old, property old → property (writer.assign velocity old))
    (hcopy : ∀ old, property old → property (writer.copy old)) (edits : List (Edit K O))
    {points : List (TrajectoryPoint K O V)}
    (hpoints : ∀ point ∈ points, property point.longitudinalVelocityMps) :
    ∀ point ∈ runEdits writer edits points, property point.longitudinalVelocityMps := by
  induction edits generalizing points with
  | nil => exact hpoints
  | cons edit edits ih =>
    rw [runEdits_cons]
    exact ih (edit.forall_run hassign hcopy hpoints)

/-! ## The incoming points -/

theorem filterMap_insertIdx {α β : Type} {part : α → Option β} {value : α}
    (hvalue : part value = none) (values : List α) (idx : ℕ) :
    (values.insertIdx idx value).filterMap part = values.filterMap part := by
  induction values generalizing idx with
  | nil =>
    cases idx with
    | zero => simp [hvalue]
    | succ idx => rfl
  | cons first rest ih =>
    cases idx with
    | zero => rw [List.insertIdx_zero, List.filterMap_cons_none hvalue]
    | succ idx =>
      rw [List.insertIdx_succ_cons, List.filterMap_cons, List.filterMap_cons, ih]

def incomingVelocities (points : List (TrajectoryPoint K O (History K))) : List K :=
  points.filterMap fun point => point.longitudinalVelocityMps.incoming

theorem incomingVelocities_start (points : List (TrajectoryPoint K O K)) :
    incomingVelocities (points.map (·.mapVelocity History.start)) =
      points.map (·.longitudinalVelocityMps) := by
  induction points with
  | nil => rfl
  | cons point points ih =>
    rw [List.map_cons, List.map_cons, ← ih]
    rfl

theorem incomingVelocities_eq (points : List (TrajectoryPoint K O (History K))) :
    incomingVelocities points =
      (points.map fun point => point.longitudinalVelocityMps.incoming).filterMap id := by
  rw [List.filterMap_map]
  rfl

theorem Edit.incomingVelocities_run (edit : Edit K O)
    (points : List (TrajectoryPoint K O (History K))) :
    incomingVelocities (edit.run (history K) points) = incomingVelocities points := by
  cases edit with
  | setPose idx pose =>
    rw [incomingVelocities_eq, incomingVelocities_eq]
    congr 1
    apply List.ext_getElem?
    intro i
    rw [Edit.run, SlowDownTrajectory.setPose, List.getElem?_map, List.getElem?_modify,
      List.getElem?_map]
    cases points[i]? with
    | none => rfl
    | some point =>
      simp only [Option.map_some, Option.map_eq_map]
      split <;> rfl
  | insertCopy idx pose =>
    rw [Edit.run]
    cases points[idx]? with
    | none => rfl
    | some front => exact filterMap_insertIdx rfl points (idx + 1)
  | assign first last velocity =>
    rw [incomingVelocities_eq, incomingVelocities_eq]
    congr 1
    apply List.ext_getElem?
    intro i
    rw [Edit.run, assignVelocity, List.getElem?_map, List.getElem?_mapIdx, List.getElem?_map]
    cases points[i]? with
    | none => rfl
    | some point =>
      simp only [Option.map_some]
      split <;> rfl

theorem incomingVelocities_runEdits (edits : List (Edit K O))
    (points : List (TrajectoryPoint K O (History K))) :
    incomingVelocities (runEdits (history K) edits points) = incomingVelocities points := by
  induction edits generalizing points with
  | nil => rfl
  | cons edit edits ih => rw [runEdits_cons, ih, edit.incomingVelocities_run]

theorem recorded_runEdits (edits : List (Edit K O)) (points : List (TrajectoryPoint K O K)) :
    ∀ point ∈ runEdits (history K) edits (points.map (·.mapVelocity History.start)),
      point.longitudinalVelocityMps.Recorded := by
  apply forall_runEdits
  · intro velocity old _
    refine ⟨fun hnil => ?_, fun last hlast => ?_⟩
    · exact absurd hnil (by simp [history])
    · simpa [history] using hlast
  · intro old _
    exact ⟨fun _ _ hvelocity => (by cases hvelocity), fun _ hlast => (by cases hlast)⟩
  · intro point hpoint
    obtain ⟨old, _, rfl⟩ := List.mem_map.mp hpoint
    exact ⟨fun _ velocity hvelocity => Option.some.inj hvelocity, fun _ hlast => (by cases hlast)⟩

variable [Field K] [LinearOrder K]

/-- Driving along the x axis, with distances that are whole numbers. -/
def alongAxis : Trigonometry ℚ Unit where
  sqrt := fun square => ((List.range 50).find? fun root => square ≤ root * root).getD 0
  cosQuarterPi := 7071 / 10000
  orientationTo := fun _ _ => ()
  calcYawDeviation := fun _ _ => 0
  isDrivingForward := fun src dst => src.position.x ≤ dst.position.x

def axisPlanner : PlannerInterface ℚ Unit where
  geometry := alongAxis
  egoNearestParam := ⟨3, 1⟩
  slowDownParam := ⟨2, 0, 8, 2, -1⟩
  vehicleInfo := ⟨5, -1⟩

def axisData : PlannerData ℚ Unit := ⟨⟨⟨0, 0, 0⟩, ()⟩, 3, true⟩

def axisPoint (x velocity : ℚ) : TrajectoryPoint ℚ Unit ℚ := ⟨⟨⟨x, 0, 0⟩, ()⟩, velocity⟩

def stopTrajectory : List (TrajectoryPoint ℚ Unit ℚ) :=
  [axisPoint 0 10, axisPoint 10 10, axisPoint 20 0, axisPoint 30 0]

def axisObstacle : SlowDownObstacle ℚ := ⟨1, ⟨20, 1, 0⟩, ⟨30, 1, 0⟩⟩

end AutowareUniverse.Planning.SlowDownTrajectory
