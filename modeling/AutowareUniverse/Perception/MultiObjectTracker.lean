import AutowareUniverse.Messages.Common
import AutowareUniverse.Library.KeyedList
import AutowareUniverse.Library.Numerals
import Mathlib.Algebra.Field.Rat
import Mathlib.Algebra.Order.Ring.Rat
import Mathlib.Data.List.Count

/-!
# Trackers

The base class of the trackers with its counters, and the object messages.  What a
derived class computes (its filter, its construction, the object it reports) is a
parameter, as are poses and shapes.
-/

namespace AutowareUniverse.Perception

section

open Messages

/-- `ObjectClassification`. -/
structure ObjectClassification (K : Type) where
  label : Nat
  probability : K
  deriving DecidableEq

namespace ObjectClassification

def unknown : Nat := 0
def car : Nat := 1
def truck : Nat := 2
def bus : Nat := 3
def trailer : Nat := 4
def motorcycle : Nat := 5
def bicycle : Nat := 6
def pedestrian : Nat := 7

end ObjectClassification

section

variable {K : Type} [Zero K] [LinearOrder K]

/-- `perception_utils::getHighestProbClassification`: the first of the most probable ones. -/
def getHighestProbClassification : List (ObjectClassification K) → ObjectClassification K
  | [] => ⟨ObjectClassification.unknown, 0⟩
  | first :: rest =>
    rest.foldl (fun largest other =>
      if largest.probability < other.probability then other else largest) first

/-- `perception_utils::getHighestProbLabel`. -/
def getHighestProbLabel (classification : List (ObjectClassification K)) : Nat :=
  (getHighestProbClassification classification).label

end

/-- `DetectedObject` and `TrackedObject`: the fields that the tracker node reads. -/
structure PerceivedObject (K Pose Shape : Type) where
  classification : List (ObjectClassification K)
  pose : Pose
  shape : Shape
  deriving DecidableEq

/-- `DetectedObjects`. -/
structure DetectedObjects (K Pose Shape : Type) where
  frameId : String
  stamp : Time
  objects : List (PerceivedObject K Pose Shape)

/-- The values of the tracker parameters: one for each derived class. -/
inductive TrackerKind where
  | bicycle
  | bigVehicle
  | multipleVehicle
  | normalVehicle
  | passThrough
  | pedestrianAndBicycle
  | pedestrian
  | unknown
  deriving DecidableEq

/-- The members of `Tracker`; `motion` is the state of the derived class. -/
structure Tracker (K Motion : Type) where
  classification : List (ObjectClassification K)
  noMeasurementCount : Nat
  totalNoMeasurementCount : Nat
  totalMeasurementCount : Nat
  lastUpdateWithMeasurementTime : Time
  motion : Motion
  deriving DecidableEq

/-- The constructors and the virtual functions of the derived classes. -/
structure TrackerModels (K Pose Shape Transform Motion : Type) where
  construct : TrackerKind → Time → PerceivedObject K Pose Shape → Transform →
    List (ObjectClassification K) × Motion
  predict : Time → Motion → Motion
  measure : PerceivedObject K Pose Shape → Time → Transform →
    List (ObjectClassification K) × Motion → List (ObjectClassification K) × Motion
  getTrackedObject : Time → List (ObjectClassification K) × Motion → PerceivedObject K Pose Shape

namespace Tracker

variable {K Pose Shape Transform Motion : Type}
variable (models : TrackerModels K Pose Shape Transform Motion)

/-- `Tracker::Tracker`, with the constructor of the derived class. -/
def make (kind : TrackerKind) (time : Time) (object : PerceivedObject K Pose Shape)
    (selfTransform : Transform) : Tracker K Motion :=
  let made := models.construct kind time object selfTransform
  { classification := made.1
    noMeasurementCount := 0
    totalNoMeasurementCount := 0
    totalMeasurementCount := 1
    lastUpdateWithMeasurementTime := time
    motion := made.2 }

def predict (time : Time) (tracker : Tracker K Motion) : Tracker K Motion :=
  { tracker with motion := models.predict time tracker.motion }

/-- `Tracker::updateWithMeasurement`. -/
def updateWithMeasurement (object : PerceivedObject K Pose Shape) (measurementTime : Time)
    (selfTransform : Transform) (tracker : Tracker K Motion) : Tracker K Motion :=
  let measured :=
    models.measure object measurementTime selfTransform (tracker.classification, tracker.motion)
  { tracker with
    classification := measured.1
    noMeasurementCount := 0
    totalMeasurementCount := tracker.totalMeasurementCount + 1
    lastUpdateWithMeasurementTime := measurementTime
    motion := measured.2 }

/-- `Tracker::updateWithoutMeasurement`. -/
def updateWithoutMeasurement (tracker : Tracker K Motion) : Tracker K Motion :=
  { tracker with
    noMeasurementCount := tracker.noMeasurementCount + 1
    totalNoMeasurementCount := tracker.totalNoMeasurementCount + 1 }

def getTrackedObject (time : Time) (tracker : Tracker K Motion) : PerceivedObject K Pose Shape :=
  models.getTrackedObject time (tracker.classification, tracker.motion)

variable [Field K] [LinearOrder K]

def getHighestProbLabel (tracker : Tracker K Motion) : Nat :=
  Perception.getHighestProbLabel tracker.classification

/-- `Tracker::getElapsedTimeFromLastUpdate`, in seconds. -/
def getElapsedTimeFromLastUpdate (currentTime : Time) (tracker : Tracker K Motion) : K :=
  ((currentTime - tracker.lastUpdateWithMeasurementTime : Int) : K) / 1000000000

end Tracker

end

/-!
# Data association

The score matrix of the trackers against the detections and its assignment.  The
solver is a parameter: whatever pair of mutually inverse partial matchings within the
matrix it returns.
-/

open Library.KeyedList Messages

/-! ## The assignment maps -/

/-- `std::unordered_map<int, int>`, without its order. -/
structure IndexMap where
  entries : List (Nat × Nat)
  nodup : (entries.map Prod.fst).Nodup

namespace IndexMap

def empty : IndexMap := ⟨[], List.nodup_nil⟩

def find (map : IndexMap) (index : Nat) : Option Nat :=
  (findKey Prod.fst index map.entries).map Prod.snd

@[simp]
theorem find_empty (index : Nat) : empty.find index = none := rfl

/-- The loop of `DataAssociation::assign` that erases entries. -/
def eraseIf (erase : Nat → Nat → Bool) (map : IndexMap) : IndexMap :=
  ⟨map.entries.filter fun entry => !erase entry.1 entry.2,
    map.nodup.sublist (List.filter_sublist.map Prod.fst)⟩

theorem find_eraseIf {erase : Nat → Nat → Bool} {map : IndexMap} {index target : Nat} :
    (map.eraseIf erase).find index = some target ↔
      map.find index = some target ∧ erase index target = false := by
  unfold find eraseIf
  rw [findKey_filter Prod.fst _ map.nodup]
  cases hfound : findKey Prod.fst index map.entries with
  | none => simp
  | some entry =>
    have hkey : entry.1 = index := key_of_findKey Prod.fst hfound
    cases herase : erase entry.1 entry.2 with
    | true =>
      simp only [Option.filter, herase, Bool.not_true, Option.map_some, Option.some.injEq]
      constructor
      · intro hnone
        cases hnone
      · rintro ⟨rfl, hkeep⟩
        rw [← hkey, herase] at hkeep
        cases hkeep
    | false =>
      simp only [Option.filter, herase, Bool.not_false, if_true, Option.map_some, Option.some.injEq]
      constructor
      · rintro rfl
        exact ⟨rfl, hkey ▸ herase⟩
      · exact And.left

end IndexMap

/-- `direct_assignment` and `reverse_assignment`. -/
structure Assignment where
  direct : IndexMap
  reverse : IndexMap

namespace Assignment

def empty : Assignment := ⟨IndexMap.empty, IndexMap.empty⟩

/-- A tracker has a detection exactly if the detection has the tracker. -/
def MutuallyInverse (assignment : Assignment) : Prop :=
  ∀ trackerIdx measurementIdx, assignment.direct.find trackerIdx = some measurementIdx ↔
      assignment.reverse.find measurementIdx = some trackerIdx

theorem empty_inverse : empty.MutuallyInverse := by
  intro trackerIdx measurementIdx
  simp [empty]

end Assignment

def coeff? {K : Type} (score : List (List K)) (row col : Nat) : Option K :=
  score[row]?.bind fun scores => scores[col]?

/-- `gnn_solver::MuSSP`: the solver behind it, on a matrix that is not empty. -/
structure GnnSolver (K : Type) where
  solveMuSSP : List (List K) → Assignment
  mutuallyInverse : ∀ score, (solveMuSSP score).MutuallyInverse
  withinMatrix : ∀ score {row col},
    (solveMuSSP score).direct.find row = some col → (coeff? score row col).isSome

namespace GnnSolver

variable {K : Type} (solver : GnnSolver K)

/-- `MuSSP::maximizeLinearAssignment`, on empty maps. -/
def maximizeLinearAssignment (cost : List (List K)) : Assignment :=
  match cost with
  | [] => .empty
  | [] :: _ => .empty
  | (_ :: _) :: _ => solver.solveMuSSP cost

theorem maximizeLinearAssignment_inverse (cost : List (List K)) :
    (solver.maximizeLinearAssignment cost).MutuallyInverse := by
  unfold maximizeLinearAssignment
  split
  · exact Assignment.empty_inverse
  · exact Assignment.empty_inverse
  · exact solver.mutuallyInverse _

theorem maximizeLinearAssignment_within {cost : List (List K)} {row col : Nat}
    (hfound : (solver.maximizeLinearAssignment cost).direct.find row = some col) :
    (coeff? cost row col).isSome := by
  unfold maximizeLinearAssignment at hfound
  split at hfound
  · cases hfound
  · cases hfound
  · exact solver.withinMatrix _ hfound

end GnnSolver

/-! ## The association -/

structure Geometry (K Pose Shape : Type) where
  pi : K
  calcDistance2d : Pose → Pose → K
  getArea : Shape → K
  getFormedYawAngle : Pose → Pose → Bool → K
  getMahalanobisDistance : Pose → Pose → K
  get2dIoU : Pose × Shape → Pose × Shape → K → K

/-- The members of `DataAssociation`. -/
structure DataAssociation (K : Type) where
  canAssignMatrix : Nat → Nat → Bool
  maxDistMatrix : Nat → Nat → K
  maxAreaMatrix : Nat → Nat → K
  minAreaMatrix : Nat → Nat → K
  maxRadMatrix : Nat → Nat → K
  minIouMatrix : Nat → Nat → K
  gnnSolver : GnnSolver K

namespace DataAssociation

variable {K Pose Shape Transform Motion : Type} [Field K] [LinearOrder K]

/-- `score_threshold_`. -/
def scoreThreshold : K := 1 / 100

section

variable (association : DataAssociation K) (geometry : Geometry K Pose Shape)

/-- `passed_gate`: the five gates in their order. -/
def passedGate (trackerLabel measurementLabel : Nat)
    (measurementObject trackedObject : PerceivedObject K Pose Shape) : Bool :=
  let maxDist := association.maxDistMatrix trackerLabel measurementLabel
  let dist := geometry.calcDistance2d measurementObject.pose trackedObject.pose
  let maxArea := association.maxAreaMatrix trackerLabel measurementLabel
  let minArea := association.minAreaMatrix trackerLabel measurementLabel
  let area := geometry.getArea measurementObject.shape
  let maxRad := association.maxRadMatrix trackerLabel measurementLabel
  let angle := geometry.getFormedYawAngle measurementObject.pose trackedObject.pose false
  let mahalanobisDist :=
    geometry.getMahalanobisDistance measurementObject.pose trackedObject.pose
  let minIou := association.minIouMatrix trackerLabel measurementLabel
  let iou := geometry.get2dIoU (measurementObject.pose, measurementObject.shape)
    (trackedObject.pose, trackedObject.shape) (1 / 100)
  !decide (maxDist < dist) && !(decide (area < minArea) || decide (maxArea < area)) &&
    !(decide (|maxRad| < geometry.pi) && decide (|maxRad| < |angle|)) &&
    !decide (2448 / 1000 ≤ mahalanobisDist) &&
    !decide (iou < minIou)

/-- The score of a tracker and a detection: one iteration of `calcScoreMatrix`. -/
def score (models : TrackerModels K Pose Shape Transform Motion) (stamp : Time)
    (tracker : Tracker K Motion) (measurementObject : PerceivedObject K Pose Shape) : K :=
  let trackerLabel := tracker.getHighestProbLabel
  let measurementLabel := getHighestProbLabel measurementObject.classification
  if association.canAssignMatrix trackerLabel measurementLabel then
    let trackedObject := tracker.getTrackedObject models stamp
    let maxDist := association.maxDistMatrix trackerLabel measurementLabel
    let dist := geometry.calcDistance2d measurementObject.pose trackedObject.pose
    if association.passedGate geometry trackerLabel measurementLabel measurementObject
        trackedObject then
      let score := (maxDist - min dist maxDist) / maxDist
      if score < scoreThreshold then 0 else score
    else 0
  else 0

/-- `DataAssociation::calcScoreMatrix`: a row for each tracker. -/
def calcScoreMatrix (models : TrackerModels K Pose Shape Transform Motion)
    (measurements : DetectedObjects K Pose Shape) (trackers : List (Tracker K Motion)) :
    List (List K) :=
  trackers.map fun tracker =>
    measurements.objects.map fun object =>
      association.score geometry models measurements.stamp tracker object

theorem coeff?_calcScoreMatrix {models : TrackerModels K Pose Shape Transform Motion}
    {measurements : DetectedObjects K Pose Shape} {trackers : List (Tracker K Motion)}
    {row col : Nat} {value : K}
    (hentry : coeff? (association.calcScoreMatrix geometry models measurements trackers) row col =
      some value) :
    ∃ tracker object, trackers[row]? = some tracker ∧ measurements.objects[col]? = some object ∧
      value = association.score geometry models measurements.stamp tracker object := by
  unfold coeff? calcScoreMatrix at hentry
  rw [List.getElem?_map, Option.bind_map, Option.bind_eq_some_iff] at hentry
  obtain ⟨tracker, htracker, hscores⟩ := hentry
  rw [Function.comp_apply, List.getElem?_map, Option.map_eq_some_iff] at hscores
  obtain ⟨object, hobject, hvalue⟩ := hscores
  exact ⟨tracker, object, htracker, hobject, hvalue.symm⟩

end

/-- `src(row, col) < score_threshold_`. -/
def belowThreshold (src : List (List K)) (row col : Nat) : Bool :=
  match coeff? src row col with
  | none => false
  | some value => decide (value < scoreThreshold)

/-- `DataAssociation::assign`: the two maps are filtered one after the other. -/
def assign (association : DataAssociation K) (src : List (List K)) : Assignment :=
  let solved := association.gnnSolver.maximizeLinearAssignment src
  { direct := solved.direct.eraseIf (belowThreshold src)
    reverse := solved.reverse.eraseIf fun col row => belowThreshold src row col }

variable (association : DataAssociation K)

/-- The two filters keep the same pairs. -/
theorem assign_inverse (src : List (List K)) : (association.assign src).MutuallyInverse := by
  intro row col
  unfold assign
  rw [IndexMap.find_eraseIf, IndexMap.find_eraseIf,
    association.gnnSolver.maximizeLinearAssignment_inverse src row col]

theorem assign_score {src : List (List K)} {row col : Nat}
    (hfound : (association.assign src).direct.find row = some col) :
    ∃ value, coeff? src row col = some value ∧ scoreThreshold ≤ value := by
  obtain ⟨hsolved, hkept⟩ := IndexMap.find_eraseIf.mp hfound
  have hsome := association.gnnSolver.maximizeLinearAssignment_within hsolved
  obtain ⟨value, hvalue⟩ := Option.isSome_iff_exists.mp hsome
  unfold belowThreshold at hkept
  rw [hvalue] at hkept
  exact ⟨value, hvalue, not_lt.mp (of_decide_eq_false hkept)⟩

end DataAssociation

/-! ## The multi object tracker -/

inductive TrackerCall where
  | updateWithMeasurement (trackerIdx measurementIdx : Nat)
  | updateWithoutMeasurement (trackerIdx : Nat)
  | createNewTracker (measurementIdx : Nat)
  deriving DecidableEq

namespace TrackerCall

def usesMeasurement (measurementIdx : Nat) : TrackerCall → Bool
  | updateWithMeasurement _ used => used == measurementIdx
  | updateWithoutMeasurement _ => false
  | createNewTracker used => used == measurementIdx

def updatesTracker (trackerIdx : Nat) : TrackerCall → Bool
  | updateWithMeasurement updated _ => updated == trackerIdx
  | updateWithoutMeasurement updated => updated == trackerIdx
  | createNewTracker _ => false

end TrackerCall

/-- The trackers after a call sequence and the calls in their order. -/
structure Recorded (K Motion : Type) where
  trackers : List (Tracker K Motion)
  calls : List TrackerCall

/-- A list from which elements were erased in a loop, and whether the loop decremented
an iterator to the first element. -/
structure Swept (K Motion : Type) where
  trackers : List (Tracker K Motion)
  decrementsBegin : Bool

structure TransformBuffer (Pose Transform : Type) where
  getTransformAnonymous : String → String → Time → Option Transform
  getTransform : String → String → Time → Option Transform
  apply : Transform → Pose → Pose

/-- The members of the node that a measurement reads, and what it depends on. -/
structure MultiObjectTracker (K Pose Shape Transform Motion : Type) where
  worldFrameId : String
  trackerMap : Nat → Option String
  dataAssociation : DataAssociation K
  publishTimer : Bool
  subscriberCount : Nat
  geometry : Geometry K Pose Shape
  models : TrackerModels K Pose Shape Transform Motion
  tfBuffer : TransformBuffer Pose Transform

/-- What one measurement leaves. -/
structure Cycle (K Pose Shape Motion : Type) where
  trackers : List (Tracker K Motion)
  calls : List TrackerCall
  published : Option (List (PerceivedObject K Pose Shape))

def trackerKind : String → TrackerKind
  | "bicycle_tracker" => .bicycle
  | "big_vehicle_tracker" => .bigVehicle
  | "multi_vehicle_tracker" => .multipleVehicle
  | "normal_vehicle_tracker" => .normalVehicle
  | "pass_through_tracker" => .passThrough
  | "pedestrian_and_bicycle_tracker" => .pedestrianAndBicycle
  | "pedestrian_tracker" => .pedestrian
  | _ => .unknown

/-- `should_delete_tracker1` and `should_delete_tracker2`. -/
inductive Deletion where
  | neither
  | tracker1
  | tracker2
  deriving DecidableEq

namespace MultiObjectTracker

variable {K Pose Shape Transform Motion : Type} [Field K] [LinearOrder K]
variable (node : MultiObjectTracker K Pose Shape Transform Motion)

/-- `perception_utils::transformObjects`. -/
def transformObjects (input : DetectedObjects K Pose Shape) :
    Option (DetectedObjects K Pose Shape) :=
  if input.frameId = node.worldFrameId then some input
  else
    match node.tfBuffer.getTransform input.frameId node.worldFrameId input.stamp with
    | none => none
    | some transform =>
      some
        { input with
          frameId := node.worldFrameId
          objects := input.objects.map fun object =>
            { object with pose := node.tfBuffer.apply transform object.pose } }

/-- `MultiObjectTracker::createNewTracker`. -/
def createNewTracker (object : PerceivedObject K Pose Shape) (time : Time)
    (selfTransform : Transform) : Tracker K Motion :=
  match node.trackerMap (getHighestProbLabel object.classification) with
  | none => Tracker.make node.models .unknown time object selfTransform
  | some tracker => Tracker.make node.models (trackerKind tracker) time object selfTransform

/-! ## The loops -/

/-- The loop of the measurement update.  `at` throws if the position is out of range. -/
def updateTrackers (objects : List (PerceivedObject K Pose Shape)) (direct : IndexMap)
    (measurementTime : Time) (selfTransform : Transform) :
    Nat → List (Tracker K Motion) → Except String (Recorded K Motion)
  | _, [] => .ok ⟨[], []⟩
  | trackerIdx, tracker :: rest =>
    match direct.find trackerIdx with
    | some measurementIdx =>
      match objects[measurementIdx]? with
      | none => .error "vector::_M_range_check"
      | some object =>
        (updateTrackers objects direct measurementTime selfTransform (trackerIdx + 1)
          rest).map fun recorded =>
            ⟨tracker.updateWithMeasurement node.models object measurementTime selfTransform ::
                recorded.trackers,
              .updateWithMeasurement trackerIdx measurementIdx :: recorded.calls⟩
    | none =>
      (updateTrackers objects direct measurementTime selfTransform (trackerIdx + 1)
        rest).map fun recorded =>
          ⟨tracker.updateWithoutMeasurement :: recorded.trackers,
            .updateWithoutMeasurement trackerIdx :: recorded.calls⟩

/-- The loop of `checkTrackerLifeCycle`; `atBegin` says that the iterator is the first. -/
def checkFrom (time : Time) : Bool → List (Tracker K Motion) → Swept K Motion
  | _, [] => ⟨[], false⟩
  | atBegin, tracker :: rest =>
    if 1 < tracker.getElapsedTimeFromLastUpdate (K := K) time then
      let swept := checkFrom time atBegin rest
      ⟨swept.trackers, atBegin || swept.decrementsBegin⟩
    else
      let swept := checkFrom time false rest
      ⟨tracker :: swept.trackers, swept.decrementsBegin⟩

/-- `MultiObjectTracker::checkTrackerLifeCycle`. -/
def checkTrackerLifeCycle (time : Time) (trackers : List (Tracker K Motion)) : Swept K Motion :=
  checkFrom time true trackers

/-- The decision of `sanitizeTracker` about two trackers. -/
def shouldDelete (time : Time) (tracker1 tracker2 : Tracker K Motion) : Deletion :=
  let object1 := tracker1.getTrackedObject node.models time
  let object2 := tracker2.getTrackedObject node.models time
  let iou := node.geometry.get2dIoU (object1.pose, object1.shape) (object2.pose, object2.shape)
    (1 / 100)
  let label1 := tracker1.getHighestProbLabel
  let label2 := tracker2.getHighestProbLabel
  if 5 < node.geometry.calcDistance2d object1.pose object2.pose then .neither
  else if label1 = ObjectClassification.unknown ∨ label2 = ObjectClassification.unknown then
    if 1 / 1000 < iou then
      if label1 = ObjectClassification.unknown ∧ label2 = ObjectClassification.unknown then
        if tracker1.totalMeasurementCount < tracker2.totalMeasurementCount then .tracker1
        else .tracker2
      else if label1 = ObjectClassification.unknown then .tracker1
      else .tracker2
    else .neither
  else if 1 / 10 < iou then
    if tracker1.totalMeasurementCount < tracker2.totalMeasurementCount then .tracker1
    else .tracker2
  else .neither

/-- The inner loop of `sanitizeTracker`: whether the outer tracker is deleted, and the
trackers behind it that are left. -/
def sanitizeAgainst (time : Time) (tracker1 : Tracker K Motion) :
    List (Tracker K Motion) → Bool × List (Tracker K Motion)
  | [] => (false, [])
  | tracker2 :: rest =>
    match node.shouldDelete time tracker1 tracker2 with
    | .tracker1 => (true, tracker2 :: rest)
    | .tracker2 => sanitizeAgainst time tracker1 rest
    | .neither =>
      let left := sanitizeAgainst time tracker1 rest
      (left.1, tracker2 :: left.2)

theorem sanitizeAgainst_sublist (time : Time) (tracker1 : Tracker K Motion)
    (trackers : List (Tracker K Motion)) :
    (node.sanitizeAgainst time tracker1 trackers).2.Sublist trackers := by
  induction trackers with
  | nil => exact List.Sublist.slnil
  | cons tracker2 rest ih =>
    unfold sanitizeAgainst
    split
    · exact List.Sublist.refl _
    · exact ih.cons _
    · exact ih.cons_cons _

/-- The outer loop of `sanitizeTracker`; `atBegin` says that the iterator is the first. -/
def sanitizeFrom (time : Time) (atBegin : Bool) : List (Tracker K Motion) → Swept K Motion
  | [] => ⟨[], false⟩
  | tracker1 :: rest =>
    let left := node.sanitizeAgainst time tracker1 rest
    if left.1 then
      let swept := sanitizeFrom time atBegin left.2
      ⟨swept.trackers, atBegin || swept.decrementsBegin⟩
    else
      let swept := sanitizeFrom time false left.2
      ⟨tracker1 :: swept.trackers, swept.decrementsBegin⟩
  termination_by trackers => trackers.length
  decreasing_by all_goals
      exact Nat.lt_succ_of_le (node.sanitizeAgainst_sublist time tracker1 rest).length_le

/-- `MultiObjectTracker::sanitizeTracker`. -/
def sanitizeTracker (time : Time) (trackers : List (Tracker K Motion)) : Swept K Motion :=
  node.sanitizeFrom time true trackers

/-- The loop of the new trackers, from a position on. -/
def createTrackers (reverse : IndexMap) (time : Time) (selfTransform : Transform) :
    Nat → List (PerceivedObject K Pose Shape) → Recorded K Motion
  | _, [] => ⟨[], []⟩
  | measurementIdx, object :: rest =>
    let recorded := createTrackers reverse time selfTransform (measurementIdx + 1) rest
    match reverse.find measurementIdx with
    | some _ => recorded
    | none =>
      ⟨node.createNewTracker object time selfTransform :: recorded.trackers,
        .createNewTracker measurementIdx :: recorded.calls⟩

/-- `MultiObjectTracker::shouldTrackerPublish`. -/
def shouldTrackerPublish (tracker : Tracker K Motion) : Bool :=
  !decide (tracker.totalMeasurementCount < 3)

/-- `MultiObjectTracker::publish`. -/
def publish (time : Time) (trackers : List (Tracker K Motion)) :
    Option (List (PerceivedObject K Pose Shape)) :=
  if node.subscriberCount < 1 then none
  else
    some ((trackers.filter shouldTrackerPublish).map fun tracker =>
      tracker.getTrackedObject node.models time)

def predicted (measurementTime : Time) (listTracker : List (Tracker K Motion)) :
    List (Tracker K Motion) :=
  listTracker.map (Tracker.predict node.models measurementTime)

def associate (objects : DetectedObjects K Pose Shape) (predicted : List (Tracker K Motion)) :
    Assignment :=
  node.dataAssociation.assign
    (node.dataAssociation.calcScoreMatrix node.geometry node.models objects predicted)

/-- `onMeasurement` once both transforms are known. -/
def track (selfTransform : Transform) (transformed : DetectedObjects K Pose Shape)
    (listTracker : List (Tracker K Motion)) : Except String (Cycle K Pose Shape Motion) :=
  let measurementTime := transformed.stamp
  let predicted := node.predicted measurementTime listTracker
  let assignment := node.associate transformed predicted
  (node.updateTrackers transformed.objects assignment.direct measurementTime selfTransform 0
    predicted).map fun updated =>
      let checked := checkTrackerLifeCycle measurementTime updated.trackers
      let sanitized := node.sanitizeTracker measurementTime checked.trackers
      let created := node.createTrackers assignment.reverse measurementTime selfTransform 0
        transformed.objects
      let trackers := sanitized.trackers ++ created.trackers
      { trackers := trackers
        calls := updated.calls ++ created.calls
        published := if node.publishTimer then none else node.publish measurementTime trackers }

/-- `MultiObjectTracker::onMeasurement`. -/
def onMeasurement (input : DetectedObjects K Pose Shape) (listTracker : List (Tracker K Motion)) :
    Except String (Cycle K Pose Shape Motion) :=
  match node.tfBuffer.getTransformAnonymous "base_link" node.worldFrameId input.stamp with
  | none => .ok ⟨listTracker, [], none⟩
  | some selfTransform =>
    match node.transformObjects input with
    | none => .ok ⟨listTracker, [], none⟩
    | some transformed => node.track selfTransform transformed listTracker

end MultiObjectTracker

/-!
## Detections and trackers in one cycle

The positions of the trackers are those at the association.  The update loop walks them
before any tracker is deleted, and the loop of the new trackers walks the detections, so
that the calls of a cycle are determined by the two maps of the assignment.
-/

/-! ## Calls on positions -/

def updateCall (direct : IndexMap) (trackerIdx : Nat) : TrackerCall :=
  match direct.find trackerIdx with
  | some measurementIdx => .updateWithMeasurement trackerIdx measurementIdx
  | none => .updateWithoutMeasurement trackerIdx

/-- The detections for which a tracker is created. -/
def unassigned (reverse : IndexMap) (count : Nat) : List Nat :=
  (List.range' 0 count).filter fun measurementIdx => (reverse.find measurementIdx).isNone

theorem updatesTracker_updateCall (direct : IndexMap) (trackerIdx position : Nat) :
    (updateCall direct position).updatesTracker trackerIdx = (position == trackerIdx) := by
  unfold updateCall
  split <;> rfl

variable {assignment : Assignment}

theorem usesMeasurement_updateCall
    (hinverse : assignment.MutuallyInverse) (measurementIdx position : Nat) :
    (updateCall assignment.direct position).usesMeasurement measurementIdx =
      decide (assignment.reverse.find measurementIdx = some position) := by
  have hfind := hinverse position measurementIdx
  unfold updateCall
  split
  case h_1 used hused =>
    rw [hused, Option.some.injEq] at hfind
    exact decide_eq_decide.mpr hfind
  case h_2 hnone =>
    rw [hnone] at hfind
    exact (decide_eq_false fun hfound => Option.some_ne_none _ (hfind.mpr hfound).symm).symm

/-- A position of the list is met once. -/
theorem countP_range'_eq {start count position : Nat}
    (hposition : start ≤ position ∧ position < start + count) :
    (List.range' start count).countP (fun other => other == position) = 1 :=
  List.count_eq_one_of_mem List.nodup_range' (List.mem_range'_1.mpr hposition)

theorem countP_updatesTracker (direct : IndexMap) {trackerIdx count : Nat}
    (htracker : trackerIdx < count) :
    ((List.range' 0 count).map (updateCall direct)).countP
      (TrackerCall.updatesTracker trackerIdx) = 1 := by
  rw [List.countP_map]
  have hcalls : TrackerCall.updatesTracker trackerIdx ∘ updateCall direct =
      fun position => position == trackerIdx :=
    funext fun position => updatesTracker_updateCall direct trackerIdx position
  rw [hcalls]
  exact countP_range'_eq ⟨Nat.zero_le _, by omega⟩

theorem countP_usesMeasurement_assigned
    (hinverse : assignment.MutuallyInverse) {measurementIdx trackerIdx count : Nat}
    (hassigned : assignment.reverse.find measurementIdx = some trackerIdx)
    (htracker : trackerIdx < count) :
    ((List.range' 0 count).map (updateCall assignment.direct)).countP
      (TrackerCall.usesMeasurement measurementIdx) = 1 := by
  rw [List.countP_map]
  have hcalls : TrackerCall.usesMeasurement measurementIdx ∘ updateCall assignment.direct =
      fun position => position == trackerIdx := by
    funext position
    rw [Function.comp_apply, usesMeasurement_updateCall hinverse, hassigned, Bool.eq_iff_iff]
    simpa using eq_comm
  rw [hcalls]
  exact countP_range'_eq ⟨Nat.zero_le _, by omega⟩

/-- The calls of the update loop with a detection that is not assigned. -/
theorem countP_usesMeasurement_unassigned
    (hinverse : assignment.MutuallyInverse) {measurementIdx : Nat} (count : Nat)
    (hunassigned : assignment.reverse.find measurementIdx = none) :
    ((List.range' 0 count).map (updateCall assignment.direct)).countP
      (TrackerCall.usesMeasurement measurementIdx) = 0 := by
  rw [List.countP_eq_zero]
  intro call hcall
  obtain ⟨position, -, rfl⟩ := List.mem_map.mp hcall
  rw [usesMeasurement_updateCall hinverse, hunassigned]
  simp

theorem countP_createNewTracker (reverse : IndexMap) {measurementIdx count : Nat}
    (hmeasurement : measurementIdx < count) :
    ((unassigned reverse count).map TrackerCall.createNewTracker).countP
        (TrackerCall.usesMeasurement measurementIdx) =
      if (reverse.find measurementIdx).isNone then 1 else 0 := by
  rw [List.countP_map, unassigned, List.countP_filter]
  split
  case isTrue hnone =>
    have hrange : 0 ≤ measurementIdx ∧ measurementIdx < 0 + count := by omega
    refine (List.countP_congr fun position _ => ?_).trans (countP_range'_eq hrange)
    simp only [Function.comp_apply, TrackerCall.usesMeasurement, Bool.and_eq_true, beq_iff_eq]
    constructor
    · exact And.left
    · rintro rfl
      exact ⟨rfl, hnone⟩
  case isFalse hsome =>
    rw [List.countP_eq_zero]
    intro position _ hposition
    simp only [Function.comp_apply, TrackerCall.usesMeasurement, Bool.and_eq_true,
      beq_iff_eq] at hposition
    exact hsome (hposition.1 ▸ hposition.2)

theorem countP_updatesTracker_createNewTracker (trackerIdx : Nat) (measurements : List Nat) :
    (measurements.map TrackerCall.createNewTracker).countP
      (TrackerCall.updatesTracker trackerIdx) = 0 := by
  rw [List.countP_eq_zero]
  intro call hcall
  obtain ⟨position, -, rfl⟩ := List.mem_map.mp hcall
  exact Bool.false_ne_true

/-- Only the update loop updates with a detection, and with the one that is assigned. -/
theorem find_of_mem_calls {direct : IndexMap} {positions measurements : List Nat}
    {trackerIdx measurementIdx : Nat} (hcall : .updateWithMeasurement trackerIdx measurementIdx ∈
      positions.map (updateCall direct) ++ measurements.map TrackerCall.createNewTracker) :
    direct.find trackerIdx = some measurementIdx := by
  rcases List.mem_append.mp hcall with hupdated | hcreated
  · obtain ⟨position, -, hposition⟩ := List.mem_map.mp hupdated
    unfold updateCall at hposition
    split at hposition
    case h_1 used hused =>
      cases hposition
      exact hused
    case h_2 => cases hposition
  · obtain ⟨position, -, hposition⟩ := List.mem_map.mp hcreated
    cases hposition

namespace MultiObjectTracker

variable {K Pose Shape Transform Motion : Type}
variable (node : MultiObjectTracker K Pose Shape Transform Motion)

def updated (objects : List (PerceivedObject K Pose Shape)) (direct : IndexMap)
    (measurementTime : Time) (selfTransform : Transform)
    (indexed : Tracker K Motion × Nat) : Tracker K Motion :=
  match (direct.find indexed.2).bind fun measurementIdx => objects[measurementIdx]? with
  | some object =>
    indexed.1.updateWithMeasurement node.models object measurementTime selfTransform
  | none => indexed.1.updateWithoutMeasurement

theorem updateTrackers_eq {objects : List (PerceivedObject K Pose Shape)} {direct : IndexMap}
    (measurementTime : Time) (selfTransform : Transform) (hwithin : ∀ {trackerIdx measurementIdx},
      direct.find trackerIdx = some measurementIdx → measurementIdx < objects.length)
    (start : Nat) (trackers : List (Tracker K Motion)) :
    node.updateTrackers objects direct measurementTime selfTransform start trackers =
      .ok ⟨(trackers.zipIdx start).map (node.updated objects direct measurementTime selfTransform),
          (List.range' start trackers.length).map (updateCall direct)⟩ := by
  induction trackers generalizing start with
  | nil => rfl
  | cons tracker rest ih =>
    unfold updateTrackers
    rw [ih (start + 1), List.zipIdx_cons, List.length_cons, List.range'_succ]
    cases hfound : direct.find start with
    | none => simp [Except.map, updated, updateCall, hfound]
    | some measurementIdx =>
      have hobject := List.getElem?_eq_getElem (hwithin hfound)
      simp [Except.map, updated, updateCall, hfound, hobject]

theorem length_of_transformObjects {node : MultiObjectTracker K Pose Shape Transform Motion}
    {input transformed : DetectedObjects K Pose Shape}
    (htransformed : node.transformObjects input = some transformed) :
    transformed.objects.length = input.objects.length := by
  unfold transformObjects at htransformed
  split at htransformed
  case isTrue =>
    cases htransformed
    rfl
  case isFalse =>
    split at htransformed
    case h_1 => cases htransformed
    case h_2 transform =>
      cases htransformed
      exact List.length_map _

section

variable [Field K] [LinearOrder K]

theorem createTrackers_eq (reverse : IndexMap) (time : Time) (selfTransform : Transform)
    (start : Nat) (objects : List (PerceivedObject K Pose Shape)) :
    node.createTrackers reverse time selfTransform start objects =
      ⟨((objects.zipIdx start).filter fun indexed => (reverse.find indexed.2).isNone).map
          fun indexed => node.createNewTracker indexed.1 time selfTransform,
        ((List.range' start objects.length).filter fun measurementIdx =>
          (reverse.find measurementIdx).isNone).map TrackerCall.createNewTracker⟩ := by
  induction objects generalizing start with
  | nil => rfl
  | cons object rest ih =>
    unfold createTrackers
    rw [ih (start + 1), List.zipIdx_cons, List.length_cons, List.range'_succ]
    cases hfound : reverse.find start with
    | none => simp [hfound]
    | some trackerIdx => simp [hfound]

theorem checkFrom_sublist (time : Time) (atBegin : Bool) (trackers : List (Tracker K Motion)) :
    (checkFrom time atBegin trackers).trackers.Sublist trackers := by
  induction trackers generalizing atBegin with
  | nil => exact List.Sublist.slnil
  | cons tracker rest ih =>
    unfold checkFrom
    split
    · exact (ih atBegin).cons _
    · exact (ih false).cons_cons _

theorem sanitizeFrom_sublist (time : Time) (atBegin : Bool) (trackers : List (Tracker K Motion)) :
    (node.sanitizeFrom time atBegin trackers).trackers.Sublist trackers := by
  fun_induction node.sanitizeFrom time atBegin trackers with
  | case1 atBegin => exact List.Sublist.slnil
  | case2 atBegin tracker1 rest left hdeleted swept ih =>
    exact (ih.trans (node.sanitizeAgainst_sublist time tracker1 rest)).cons _
  | case3 atBegin tracker1 rest left hkept swept ih =>
    exact (ih.trans (node.sanitizeAgainst_sublist time tracker1 rest)).cons_cons _

/-! ## The cycle -/

structure Accounts (selfTransform : Transform) (detections : DetectedObjects K Pose Shape)
    (listTracker : List (Tracker K Motion)) (cycle : Cycle K Pose Shape Motion) : Prop where
  inverse : (node.associate detections
    (node.predicted detections.stamp listTracker)).MutuallyInverse
  detection : ∀ measurementIdx < detections.objects.length,
    cycle.calls.countP (TrackerCall.usesMeasurement measurementIdx) = 1
  tracker : ∀ trackerIdx < listTracker.length,
    cycle.calls.countP (TrackerCall.updatesTracker trackerIdx) = 1
  assigned : ∀ trackerIdx measurementIdx,
    .updateWithMeasurement trackerIdx measurementIdx ∈ cycle.calls →
      (node.associate detections (node.predicted detections.stamp listTracker)).direct.find
          trackerIdx = some measurementIdx ∧
        ∃ tracker object,
          (node.predicted detections.stamp listTracker)[trackerIdx]? = some tracker ∧
            detections.objects[measurementIdx]? = some object ∧
            DataAssociation.scoreThreshold ≤
              node.dataAssociation.score node.geometry node.models detections.stamp tracker object
  trackers : ∃ survivors,
    survivors.Sublist (((node.predicted detections.stamp listTracker).zipIdx).map
      (node.updated detections.objects (node.associate detections
        (node.predicted detections.stamp listTracker)).direct detections.stamp selfTransform)) ∧
    cycle.trackers = survivors ++
      ((detections.objects.zipIdx.filter fun indexed =>
        ((node.associate detections (node.predicted detections.stamp listTracker)).reverse.find
          indexed.2).isNone).map fun indexed =>
            node.createNewTracker indexed.1 detections.stamp selfTransform)

variable {node}

theorem associate_within {detections : DetectedObjects K Pose Shape}
    {trackers : List (Tracker K Motion)} {trackerIdx measurementIdx : Nat}
    (hfound : (node.associate detections trackers).direct.find trackerIdx = some measurementIdx) :
    ∃ tracker object, trackers[trackerIdx]? = some tracker ∧
      detections.objects[measurementIdx]? = some object ∧
      DataAssociation.scoreThreshold ≤
        node.dataAssociation.score node.geometry node.models detections.stamp tracker object := by
  obtain ⟨value, hvalue, hthreshold⟩ := DataAssociation.assign_score _ hfound
  obtain ⟨tracker, object, htracker, hobject, rfl⟩ :=
    DataAssociation.coeff?_calcScoreMatrix _ _ hvalue
  exact ⟨tracker, object, htracker, hobject, hthreshold⟩

theorem countP_usesMeasurement
    (hinverse : assignment.MutuallyInverse) {trackerCount measurementCount : Nat}
    (hwithin : ∀ {trackerIdx measurementIdx},
      assignment.direct.find trackerIdx = some measurementIdx → trackerIdx < trackerCount)
    {measurementIdx : Nat} (hmeasurement : measurementIdx < measurementCount) :
    ((List.range' 0 trackerCount).map (updateCall assignment.direct) ++
      (unassigned assignment.reverse measurementCount).map
        TrackerCall.createNewTracker).countP (TrackerCall.usesMeasurement measurementIdx) = 1 := by
  rw [List.countP_append, countP_createNewTracker _ hmeasurement]
  cases hfound : assignment.reverse.find measurementIdx with
  | none => rw [countP_usesMeasurement_unassigned hinverse _ hfound]; rfl
  | some trackerIdx =>
    have htracker := hwithin ((hinverse trackerIdx measurementIdx).mpr hfound)
    rw [countP_usesMeasurement_assigned hinverse hfound htracker]
    rfl

theorem track_accounts (selfTransform : Transform) (detections : DetectedObjects K Pose Shape)
    (listTracker : List (Tracker K Motion)) :
    ∃ cycle, node.track selfTransform detections listTracker = .ok cycle ∧
      node.Accounts selfTransform detections listTracker cycle := by
  have hinverse := node.dataAssociation.assign_inverse (node.dataAssociation.calcScoreMatrix
    node.geometry node.models detections (node.predicted detections.stamp listTracker))
  have hlength : (node.predicted detections.stamp listTracker).length = listTracker.length :=
    List.length_map _
  have hobjects : ∀ {trackerIdx measurementIdx},
      (node.associate detections (node.predicted detections.stamp listTracker)).direct.find
        trackerIdx = some measurementIdx → measurementIdx < detections.objects.length := by
    intro trackerIdx measurementIdx hfound
    obtain ⟨-, object, -, hobject, -⟩ := associate_within hfound
    exact (List.getElem?_eq_some_iff.mp hobject).1
  have htrackers : ∀ {trackerIdx measurementIdx},
      (node.associate detections (node.predicted detections.stamp listTracker)).direct.find
        trackerIdx = some measurementIdx → trackerIdx < listTracker.length := by
    intro trackerIdx measurementIdx hfound
    obtain ⟨tracker, -, htracker, -, -⟩ := associate_within hfound
    exact hlength ▸ (List.getElem?_eq_some_iff.mp htracker).1
  have hupdated := updateTrackers_eq node detections.stamp selfTransform hobjects 0
    (node.predicted detections.stamp listTracker)
  simp only [track, hupdated, createTrackers_eq, hlength]
  refine ⟨_, rfl, ?_⟩
  refine ⟨hinverse, fun measurementIdx hmeasurement => ?_, fun trackerIdx htracker => ?_,
    fun trackerIdx measurementIdx hcall => ?_, ?_⟩
  · exact countP_usesMeasurement hinverse htrackers hmeasurement
  · rw [List.countP_append, countP_updatesTracker _ htracker,
      countP_updatesTracker_createNewTracker]
  · have hfound := find_of_mem_calls hcall
    exact ⟨hfound, associate_within hfound⟩
  · exact ⟨_, (node.sanitizeFrom_sublist _ _ _).trans (checkFrom_sublist _ _ _), rfl⟩

/-- With both transforms every detection is used once and every tracker updated once;
without one of them the message changes nothing. -/
theorem onMeasurement_accounts (input : DetectedObjects K Pose Shape)
    (listTracker : List (Tracker K Motion)) :
    match node.tfBuffer.getTransformAnonymous "base_link" node.worldFrameId input.stamp,
      node.transformObjects input with
    | some selfTransform, some transformed =>
      transformed.objects.length = input.objects.length ∧
        ∃ cycle, node.onMeasurement input listTracker = .ok cycle ∧
          node.Accounts selfTransform transformed listTracker cycle
    | _, _ => node.onMeasurement input listTracker = .ok ⟨listTracker, [], none⟩ := by
  unfold onMeasurement
  cases hself : node.tfBuffer.getTransformAnonymous "base_link" node.worldFrameId input.stamp with
  | none => rfl
  | some selfTransform =>
    cases htransformed : node.transformObjects input with
    | none => rfl
    | some transformed =>
      exact ⟨length_of_transformObjects htransformed,
        track_accounts selfTransform transformed listTracker⟩

end

def firstSolver : GnnSolver ℚ where
  solveMuSSP score :=
    if (coeff? score 0 0).isSome then
      ⟨⟨[(0, 0)], List.nodup_singleton 0⟩, ⟨[(0, 0)], List.nodup_singleton 0⟩⟩
    else .empty
  mutuallyInverse score := by
    split
    · intro row col
      cases row <;> cases col <;> simp [IndexMap.find, Library.KeyedList.findKey]
    · exact Assignment.empty_inverse
  withinMatrix score row col hfound := by
    split at hfound
    case isTrue hsome =>
      cases row with
      | zero =>
        cases hfound
        exact hsome
      | succ row => cases hfound
    case isFalse => cases hfound

def lineNode (transform : Option Unit) : MultiObjectTracker ℚ ℚ Unit Unit ℚ where
  worldFrameId := "map"
  trackerMap _ := none
  dataAssociation :=
    { canAssignMatrix := fun _ _ => true
      maxDistMatrix := fun _ _ => 4
      maxAreaMatrix := fun _ _ => 100
      minAreaMatrix := fun _ _ => 0
      maxRadMatrix := fun _ _ => 4
      minIouMatrix := fun _ _ => 1 / 10000
      gnnSolver := firstSolver }
  publishTimer := false
  subscriberCount := 1
  geometry :=
    { pi := 22 / 7
      calcDistance2d := fun first second => |first - second|
      getArea := fun _ => 1
      getFormedYawAngle := fun _ _ _ => 0
      getMahalanobisDistance := fun first second => |first - second|
      get2dIoU := fun first second _ => max 0 (1 - |first.1 - second.1|) }
  models :=
    { construct := fun _ _ object _ => (object.classification, object.pose)
      predict := fun _ motion => motion
      measure := fun object _ _ _ => (object.classification, object.pose)
      getTrackedObject := fun _ tracked => ⟨tracked.1, tracked.2, ()⟩ }
  tfBuffer :=
    { getTransformAnonymous := fun _ _ _ => transform
      getTransform := fun _ _ _ => transform
      apply := fun _ pose => pose }

def lineMessage : DetectedObjects ℚ ℚ Unit := ⟨"map", 100000000, [⟨[], 1 / 2, ()⟩, ⟨[], 8, ()⟩]⟩

def lineTracker : Tracker ℚ ℚ := ⟨[], 0, 0, 1, 0, 0⟩

example :
    ((lineNode (some ())).onMeasurement lineMessage [lineTracker]).map Cycle.calls =
      .ok [.updateWithMeasurement 0 0, .createNewTracker 1] := by
  decide +kernel

/-- Without the pose of the vehicle the message is dropped. -/
theorem onMeasurement_drops :
    ∃ cycle, (lineNode none).onMeasurement lineMessage [lineTracker] = .ok cycle ∧
      ¬ (∀ measurementIdx < lineMessage.objects.length,
        cycle.calls.countP (TrackerCall.usesMeasurement measurementIdx) = 1) ∧
      ¬ ∀ trackerIdx < [lineTracker].length,
        cycle.calls.countP (TrackerCall.updatesTracker trackerIdx) = 1 := by
  refine ⟨⟨[lineTracker], [], none⟩, rfl, fun hused => ?_, fun hupdated => ?_⟩
  · exact absurd (hused 0 (by decide)) (by decide)
  · exact absurd (hupdated 0 (by decide)) (by decide)

end MultiObjectTracker

/-!
## Erasing trackers in a loop

Both loops erase trackers from the list that they walk.  What they erase is described by the
pairs for which an element may go, the other one being present.
-/

/-- Elements are erased one by one, each because of one that is present. -/
inductive ErasedBy {α : Type} (beaten : α → α → Prop) : List α → List α → Prop
  | done (left : List α) : ErasedBy beaten left left
  | erase (before : List α) {after left : List α} {loser winner : α} (hwinner : winner ∈ before ++ after)
      (hbeaten : beaten loser winner) (hrest : ErasedBy beaten (before ++ after) left) :
      ErasedBy beaten (before ++ loser :: after) left

namespace ErasedBy

variable {α : Type} {beaten : α → α → Prop} {all middle left : List α}

theorem trans (hfirst : ErasedBy beaten all middle) (hlast : ErasedBy beaten middle left) :
    ErasedBy beaten all left := by
  induction hfirst with
  | done => exact hlast
  | erase before hwinner hbeaten _ ih => exact .erase before hwinner hbeaten (ih hlast)

theorem mono {outdone : α → α → Prop} (himp : ∀ a b, beaten a b → outdone a b)
    (herased : ErasedBy beaten all left) : ErasedBy outdone all left := by
  induction herased with
  | done => exact .done _
  | erase before hwinner hbeaten _ ih => exact .erase before hwinner (himp _ _ hbeaten) ih

theorem cons (a : α) (herased : ErasedBy beaten all left) :
    ErasedBy beaten (a :: all) (a :: left) := by
  induction herased with
  | done => exact .done _
  | erase before hwinner hbeaten _ ih =>
    exact .erase (a :: before) (List.mem_cons_of_mem a hwinner) hbeaten ih

theorem sublist (herased : ErasedBy beaten all left) : left.Sublist all := by
  induction herased with
  | done => exact .refl _
  | erase _ _ _ _ ih => exact ih.trans ((List.sublist_cons_self ..).append_left _)

/-- The last element stays, as no other is present. -/
theorem ne_nil (herased : ErasedBy beaten all left) (hall : all ≠ []) : left ≠ [] := by
  induction herased with
  | done => exact hall
  | erase _ hwinner _ _ ih => exact ih (List.ne_nil_of_mem hwinner)

end ErasedBy

namespace MultiObjectTracker

variable {K Pose Shape Transform Motion : Type} [Field K] [LinearOrder K]

section

variable (node : MultiObjectTracker K Pose Shape Transform Motion) (time : Time)

/-- The decision about the two trackers deletes the first one. -/
def Marked (loser winner : Tracker K Motion) : Prop :=
  node.shouldDelete time loser winner = .tracker1 ∨ node.shouldDelete time winner loser = .tracker2

/-- The two loops delete no other trackers and do not step back from the first one. -/
structure ErasesSafely (trackers : List (Tracker K Motion)) : Prop where
  old : (checkTrackerLifeCycle time trackers).trackers = trackers.filter fun tracker =>
    !(1 < tracker.getElapsedTimeFromLastUpdate (K := K) time)
  marked : ErasedBy (node.Marked time) trackers (node.sanitizeTracker time trackers).trackers
  checkKeepsBegin : (checkTrackerLifeCycle time trackers).decrementsBegin = false
  sanitizeKeepsBegin : (node.sanitizeTracker time trackers).decrementsBegin = false

end

theorem trackers_checkFrom (time : Time) (atBegin : Bool) (trackers : List (Tracker K Motion)) :
    (checkFrom time atBegin trackers).trackers = trackers.filter fun tracker =>
      !(1 < tracker.getElapsedTimeFromLastUpdate (K := K) time) := by
  induction trackers generalizing atBegin with
  | nil => rfl
  | cons tracker rest ih =>
    unfold checkFrom
    by_cases hold : 1 < tracker.getElapsedTimeFromLastUpdate (K := K) time <;> simp [hold, ih]

/-- Past the first tracker the loop steps back to a tracker that was kept. -/
theorem decrementsBegin_checkFrom_false (time : Time) (trackers : List (Tracker K Motion)) :
    (checkFrom time false trackers).decrementsBegin = false := by
  induction trackers with
  | nil => rfl
  | cons tracker rest ih =>
    unfold checkFrom
    split <;> simp [ih]

theorem decrementsBegin_checkTrackerLifeCycle (time : Time) (trackers : List (Tracker K Motion)) :
    (checkTrackerLifeCycle time trackers).decrementsBegin = false ↔
      ∀ tracker ∈ trackers.head?, ¬1 < tracker.getElapsedTimeFromLastUpdate (K := K) time := by
  cases trackers with
  | nil => simp [checkTrackerLifeCycle, checkFrom]
  | cons tracker rest =>
    unfold checkTrackerLifeCycle checkFrom
    split
    · next hold => simpa using hold
    · next hnew => simpa [decrementsBegin_checkFrom_false] using hnew

variable (node : MultiObjectTracker K Pose Shape Transform Motion) (time : Time)

theorem sanitizeAgainst_fst_iff (tracker1 : Tracker K Motion) (trackers : List (Tracker K Motion)) :
    (node.sanitizeAgainst time tracker1 trackers).1 = true ↔
      ∃ other ∈ trackers, node.shouldDelete time tracker1 other = .tracker1 := by
  induction trackers with
  | nil => simp [sanitizeAgainst]
  | cons tracker2 rest ih =>
    rw [List.exists_mem_cons_iff]
    cases hdelete : node.shouldDelete time tracker1 tracker2 <;> simp [sanitizeAgainst, hdelete, ih]

/-- The outer tracker beats those that the inner loop erases. -/
theorem erasedBy_sanitizeAgainst (tracker1 : Tracker K Motion)
    (kept trackers : List (Tracker K Motion)) :
    ErasedBy (node.Marked time) (tracker1 :: kept ++ trackers)
      (tracker1 :: kept ++ (node.sanitizeAgainst time tracker1 trackers).2) := by
  induction trackers generalizing kept with
  | nil => exact .done _
  | cons tracker2 rest ih =>
    cases hdelete : node.shouldDelete time tracker1 tracker2 <;>
      simp only [sanitizeAgainst, hdelete]
    case tracker1 => exact .done _
    case tracker2 => exact .erase (tracker1 :: kept) List.mem_cons_self (.inr hdelete) (ih kept)
    case neither => simpa using ih (kept ++ [tracker2])

/-- One that deletes the outer tracker is left. -/
theorem exists_mem_sanitizeAgainst {tracker1 : Tracker K Motion}
    {trackers : List (Tracker K Motion)}
    (hdeleted : (node.sanitizeAgainst time tracker1 trackers).1 = true) :
    ∃ other ∈ (node.sanitizeAgainst time tracker1 trackers).2,
      node.shouldDelete time tracker1 other = .tracker1 := by
  induction trackers with
  | nil => simp [sanitizeAgainst] at hdeleted
  | cons tracker2 rest ih =>
    cases hdelete : node.shouldDelete time tracker1 tracker2 <;>
      simp only [sanitizeAgainst, hdelete] at hdeleted ⊢
    case tracker1 => exact ⟨tracker2, List.mem_cons_self, hdelete⟩
    case tracker2 => exact ih hdeleted
    case neither =>
      obtain ⟨other, hother, hmark⟩ := ih hdeleted
      exact ⟨other, List.mem_cons_of_mem tracker2 hother, hmark⟩

theorem erasedBy_sanitizeFrom (atBegin : Bool) (trackers : List (Tracker K Motion)) :
    ErasedBy (node.Marked time) trackers (node.sanitizeFrom time atBegin trackers).trackers := by
  fun_induction sanitizeFrom node time atBegin trackers with
  | case1 => exact .done _
  | case2 atBegin tracker1 rest left hdeleted swept ih =>
    obtain ⟨other, hother, hmark⟩ := node.exists_mem_sanitizeAgainst time hdeleted
    have herase : ErasedBy (node.Marked time) (tracker1 :: left.2) left.2 :=
      .erase [] hother (.inl hmark) (.done _)
    exact ((node.erasedBy_sanitizeAgainst time tracker1 [] rest).trans herase).trans ih
  | case3 atBegin tracker1 rest left hkept swept ih =>
    exact (node.erasedBy_sanitizeAgainst time tracker1 [] rest).trans (ih.cons tracker1)

theorem decrementsBegin_sanitizeFrom {atBegin : Bool} (hlater : atBegin = false)
    (trackers : List (Tracker K Motion)) :
    (node.sanitizeFrom time atBegin trackers).decrementsBegin = false := by
  fun_induction sanitizeFrom node time atBegin trackers with
  | case1 => rfl
  | case2 atBegin tracker1 rest left hdeleted swept ih =>
    rw [hlater, Bool.false_or]
    exact ih hlater
  | case3 atBegin tracker1 rest left hkept swept ih => exact ih rfl

theorem decrementsBegin_sanitizeTracker (trackers : List (Tracker K Motion)) :
    (node.sanitizeTracker time trackers).decrementsBegin = false ↔
      ∀ first ∈ trackers.head?, ∀ other ∈ trackers.tail,
        node.shouldDelete time first other ≠ .tracker1 := by
  cases trackers with
  | nil => simp [sanitizeTracker, sanitizeFrom]
  | cons first rest =>
    have hdeleted := node.sanitizeAgainst_fst_iff time first rest
    by_cases hfirst : (node.sanitizeAgainst time first rest).1 = true
    · rw [sanitizeTracker, sanitizeFrom, if_pos hfirst]
      simpa using hdeleted.mp hfirst
    · rw [sanitizeTracker, sanitizeFrom, if_neg hfirst]
      rw [hdeleted] at hfirst
      simpa [node.decrementsBegin_sanitizeFrom time rfl] using hfirst

/-- The first element is stepped back from exactly if it is deleted while it is the first. -/
theorem erasesSafely_iff (trackers : List (Tracker K Motion)) :
    node.ErasesSafely time trackers ↔ ∀ first ∈ trackers.head?,
      ¬1 < first.getElapsedTimeFromLastUpdate (K := K) time ∧
        ∀ other ∈ trackers.tail, node.shouldDelete time first other ≠ .tracker1 := by
  have hcheck := decrementsBegin_checkTrackerLifeCycle (K := K) time trackers
  have hsanitize := node.decrementsBegin_sanitizeTracker time trackers
  constructor
  · intro hsafe first hfirst
    exact ⟨hcheck.mp hsafe.checkKeepsBegin first hfirst,
      hsanitize.mp hsafe.sanitizeKeepsBegin first hfirst⟩
  · intro hkept
    exact
      { old := trackers_checkFrom time true trackers
        marked := node.erasedBy_sanitizeFrom time true trackers
        checkKeepsBegin := hcheck.mpr fun first hfirst => (hkept first hfirst).1
        sanitizeKeepsBegin := hsanitize.mpr fun first hfirst => (hkept first hfirst).2 }

theorem not_erasesSafely_lineTracker :
    (checkTrackerLifeCycle 2000000000 [lineTracker]).decrementsBegin = true ∧
      ¬(lineNode (some ())).ErasesSafely 2000000000 [lineTracker] := by
  have hbegin : (checkTrackerLifeCycle 2000000000 [lineTracker]).decrementsBegin = true := by
    decide +kernel
  exact ⟨hbegin, fun hsafe => Bool.false_ne_true (hsafe.checkKeepsBegin.symm.trans hbegin)⟩

/-! ## Overlaps -/

def Overlaps (tracker1 tracker2 : Tracker K Motion) : Prop :=
  let object1 := tracker1.getTrackedObject node.models time
  let object2 := tracker2.getTrackedObject node.models time
  ¬5 < node.geometry.calcDistance2d object1.pose object2.pose ∧
    (if tracker1.getHighestProbLabel = ObjectClassification.unknown ∨
        tracker2.getHighestProbLabel = ObjectClassification.unknown then 1 / 1000 else 1 / 10) <
      node.geometry.get2dIoU (object1.pose, object1.shape) (object2.pose, object2.shape) (1 / 100)

structure Outdone (loser winner : Tracker K Motion) : Prop where
  overlaps : node.Overlaps time loser winner ∨ node.Overlaps time winner loser
  better : loser.totalMeasurementCount ≤ winner.totalMeasurementCount ∨
    winner.getHighestProbLabel ≠ ObjectClassification.unknown
  known : loser.getHighestProbLabel ≠ ObjectClassification.unknown →
    winner.getHighestProbLabel ≠ ObjectClassification.unknown

variable {node time} {tracker1 tracker2 : Tracker K Motion}

theorem shouldDelete_spec (node : MultiObjectTracker K Pose Shape Transform Motion) (time : Time)
    (tracker1 tracker2 : Tracker K Motion) :
    match node.shouldDelete time tracker1 tracker2 with
    | .tracker1 => node.Outdone time tracker1 tracker2
    | .tracker2 => node.Outdone time tracker2 tracker1
    | .neither => ¬node.Overlaps time tracker1 tracker2 := by
  unfold shouldDelete
  dsimp only
  split_ifs with hfar hunknown hiou hboth hcount hfirst hiou hcount
  · exact fun hoverlaps => hoverlaps.1 hfar
  · have hoverlaps : node.Overlaps time tracker1 tracker2 :=
      ⟨hfar, (if_pos hunknown).trans_lt hiou⟩
    exact ⟨.inl hoverlaps, .inl hcount.le, fun hknown => absurd hboth.1 hknown⟩
  · have hoverlaps : node.Overlaps time tracker1 tracker2 :=
      ⟨hfar, (if_pos hunknown).trans_lt hiou⟩
    exact ⟨.inr hoverlaps, .inl (not_lt.mp hcount), fun hknown => absurd hboth.2 hknown⟩
  · have hoverlaps : node.Overlaps time tracker1 tracker2 :=
      ⟨hfar, (if_pos hunknown).trans_lt hiou⟩
    have hsecond := not_and.mp hboth hfirst
    exact ⟨.inl hoverlaps, .inr hsecond, fun _ => hsecond⟩
  · have hoverlaps : node.Overlaps time tracker1 tracker2 :=
      ⟨hfar, (if_pos hunknown).trans_lt hiou⟩
    exact ⟨.inr hoverlaps, .inr hfirst, fun _ => hfirst⟩
  · exact fun hoverlaps => hiou ((if_pos hunknown).symm.trans_lt hoverlaps.2)
  · have hoverlaps : node.Overlaps time tracker1 tracker2 :=
      ⟨hfar, (if_neg hunknown).trans_lt hiou⟩
    exact ⟨.inl hoverlaps, .inl hcount.le, fun _ => (not_or.mp hunknown).2⟩
  · have hoverlaps : node.Overlaps time tracker1 tracker2 :=
      ⟨hfar, (if_neg hunknown).trans_lt hiou⟩
    exact ⟨.inr hoverlaps, .inl (not_lt.mp hcount), fun _ => (not_or.mp hunknown).1⟩
  · exact fun hoverlaps => hiou ((if_neg hunknown).symm.trans_lt hoverlaps.2)

theorem Marked.outdone (hmarked : node.Marked time tracker1 tracker2) :
    node.Outdone time tracker1 tracker2 := by
  rcases hmarked with hfirst | hsecond
  · have hspec := shouldDelete_spec node time tracker1 tracker2
    rwa [hfirst] at hspec
  · have hspec := shouldDelete_spec node time tracker2 tracker1
    rwa [hsecond] at hspec

theorem not_overlaps_of_mem {trackers : List (Tracker K Motion)}
    (hkept : ¬(node.sanitizeAgainst time tracker1 trackers).1 = true) :
    ∀ other ∈ (node.sanitizeAgainst time tracker1 trackers).2,
      ¬node.Overlaps time tracker1 other := by
  induction trackers with
  | nil => simp [sanitizeAgainst]
  | cons tracker2 rest ih =>
    have hspec := shouldDelete_spec node time tracker1 tracker2
    cases hdelete : node.shouldDelete time tracker1 tracker2 <;>
      simp only [sanitizeAgainst, hdelete] at hkept hspec ⊢
    case tracker1 => exact absurd trivial hkept
    case tracker2 => exact ih hkept
    case neither => exact List.forall_mem_cons.mpr ⟨hspec, ih hkept⟩

theorem pairwise_sanitizeFrom (atBegin : Bool) (trackers : List (Tracker K Motion)) :
    (node.sanitizeFrom time atBegin trackers).trackers.Pairwise fun tracker1 tracker2 =>
      ¬node.Overlaps time tracker1 tracker2 := by
  fun_induction sanitizeFrom node time atBegin trackers with
  | case1 => exact .nil
  | case2 atBegin tracker1 rest left hdeleted swept ih => exact ih
  | case3 atBegin tracker1 rest left hkept swept ih =>
    refine List.pairwise_cons.mpr ⟨fun other hother => ?_, ih⟩
    exact not_overlaps_of_mem hkept other
      ((node.erasedBy_sanitizeFrom time false left.2).sublist.subset hother)

end MultiObjectTracker

end AutowareUniverse.Perception
