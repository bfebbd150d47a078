import AutowareUniverse.Library.Runs
import AutowareUniverse.Common.MotionUtils
import Mathlib.Analysis.SpecialFunctions.Trigonometric.Arctan

/-!
# Planning validator

Every arriving trajectory is checked and then published, dropped or replaced by the last
published one.  The verdict of the checks is kept in the status of the node.  Headers,
diagnostics and debug markers are left out; angles and the finiteness of numbers are
parameters.
-/

namespace AutowareUniverse.Planning.Validator

open Common.MotionUtils

section

section

structure TrajectoryPoint (K O : Type) where
  pose : Pose K O
  longitudinalVelocityMps : K
  headingRateRps : K
  accelerationMps2 : K
  deriving DecidableEq

abbrev Trajectory (K O : Type) := List (TrajectoryPoint K O)

structure Odometry (K O : Type) where
  pose : Pose K O
  twistLinearX : K
  deriving DecidableEq

structure ValidationParams (K : Type) where
  intervalThreshold : K
  relativeAngleThreshold : K
  curvatureThreshold : K
  lateralAccThreshold : K
  longitudinalMaxAccThreshold : K
  longitudinalMinAccThreshold : K
  steeringThreshold : K
  steeringRateThreshold : K
  velocityDeviationThreshold : K
  distanceDeviationThreshold : K

inductive InvalidTrajectoryHandlingType where
  | publishAsItIs
  | stopPublishing
  | usePreviousResult
  deriving DecidableEq

structure PlanningValidatorStatus (K : Type) where
  isValidFiniteValue : Bool
  isValidInterval : Bool
  isValidRelativeAngle : Bool
  isValidCurvature : Bool
  isValidLateralAcc : Bool
  isValidLongitudinalMaxAcc : Bool
  isValidLongitudinalMinAcc : Bool
  isValidSteering : Bool
  isValidSteeringRate : Bool
  isValidVelocityDeviation : Bool
  isValidDistanceDeviation : Bool
  maxIntervalDistance : K
  maxRelativeAngle : K
  maxCurvature : K
  maxLateralAcc : K
  maxLongitudinalAcc : K
  minLongitudinalAcc : K
  maxSteering : K
  maxSteeringRate : K
  velocityDeviation : K
  distanceDeviation : K
  invalidCount : ℕ
  deriving DecidableEq

/-- Angles, and which numbers are finite. -/
structure Numerics (K O : Type) where
  calcAzimuthAngle : Point K → Point K → K
  normalizeRadian : K → K
  atan : K → K
  isfinite : K → Bool
  isfiniteOrientation : O → Bool

/-- The parameters of the node. -/
structure Config (K O : Type) where
  geometry : Trigonometry K O
  numerics : Numerics K O
  validationParams : ValidationParams K
  wheelBase : K
  invalidTrajectoryHandlingType : InvalidTrajectoryHandlingType

variable {K O : Type} [Field K] [LinearOrder K]

/-! ## Metrics -/

section

variable (config : Config K O) (trajectory : Trajectory K O)

/-- `takeBigger` over all values; the indices are only used for markers. -/
def biggest (values : List K) : K :=
  values.foldl (fun max value => if max < value then value else max) 0

/-- `takeSmaller` over all values. -/
def smallest (values : List K) : K :=
  values.foldl (fun min value => if min > value then value else min) 0

def distance (p q : TrajectoryPoint K O) : K :=
  calcDistance2d config.geometry p.pose.position q.pose.position

def resampleFrom (minInterval : K) (prev : TrajectoryPoint K O) : Trajectory K O → Trajectory K O
  | [] => []
  | curr :: rest =>
    if minInterval < distance config prev curr then curr :: resampleFrom minInterval curr rest
    else resampleFrom minInterval prev rest

def resampleTrajectory (minInterval : K) : Trajectory K O → Trajectory K O
  | [] => []
  | first :: rest => first :: resampleFrom config minInterval first rest

/-- `tier4_autoware_utils::calcCurvature`, if it does not throw. -/
def calcCurvatureOf (p1 p2 p3 : TrajectoryPoint K O) : Option K :=
  let a := p1.pose.position
  let b := p2.pose.position
  let c := p3.pose.position
  let denominator := distance config p1 p2 * distance config p2 p3 * distance config p3 p1
  if |denominator| < 1 / 10000000000 then none
  else some (2 * ((b.x - a.x) * (c.y - a.y) - (b.y - a.y) * (c.x - a.x)) / denominator)

def ofTriples {α : Type} (value : TrajectoryPoint K O → TrajectoryPoint K O →
    TrajectoryPoint K O → α) : Trajectory K O → List α
  | p1 :: p2 :: p3 :: rest => value p1 p2 p3 :: ofTriples value (p2 :: p3 :: rest)
  | _ => []

def calcCurvature : List K :=
  if trajectory.length < 3 then trajectory.map fun _ => 0
  else [0] ++ ofTriples (fun p1 p2 p3 => (calcCurvatureOf config p1 p2 p3).getD 0) trajectory ++ [0]

def calcMaxCurvature : K :=
  biggest ((ofTriples (calcCurvatureOf config) trajectory).filterMap fun curvature =>
    curvature.map fun k => |k|)

def calcMaxIntervalDistance : K :=
  biggest (trajectory.tail.zipWith (fun curr prev => |distance config curr prev|) trajectory)

def calcMaxLateralAcceleration : K :=
  biggest (trajectory.zipWith (fun point curvature =>
    |point.longitudinalVelocityMps * point.longitudinalVelocityMps * curvature|)
    (calcCurvature config trajectory))

def getMaxLongitudinalAcc : K := biggest (trajectory.map (·.accelerationMps2))

def getMinLongitudinalAcc : K := smallest (trajectory.map (·.accelerationMps2))

def calcMaxRelativeAngles : K :=
  let azimuth (p q : TrajectoryPoint K O) : K :=
    config.numerics.calcAzimuthAngle p.pose.position q.pose.position
  biggest (ofTriples (fun p1 p2 p3 =>
    |config.numerics.normalizeRadian (azimuth p2 p3 - azimuth p1 p2)|) trajectory)

def calcSteeringAngles : List K :=
  (calcCurvature config trajectory).map fun k => config.numerics.atan (k * config.wheelBase)

/-- `getAbsMaxValAndIdx` of the steering angles. -/
def calcMaxSteeringAngles : K :=
  biggest ((calcSteeringAngles config trajectory).map fun steering => |steering|)

def steeringRate (prev next : TrajectoryPoint K O × K) : K :=
  let deltaS := distance config prev.1 next.1
  let v := 1 / 2 * (next.1.longitudinalVelocityMps + prev.1.longitudinalVelocityMps)
  let dt := deltaS / max v (1 / 100000)
  (next.2 - prev.2) / dt

def calcMaxSteeringRates : K :=
  let steerings := trajectory.zip (calcSteeringAngles config trajectory)
  biggest (steerings.zipWith (steeringRate config) steerings.tail)

def checkFinite (point : TrajectoryPoint K O) : Bool :=
  let isfinite := config.numerics.isfinite
  let p := point.pose.position
  config.numerics.isfiniteOrientation point.pose.orientation &&
    (isfinite p.x && isfinite p.y && isfinite p.z) && isfinite point.longitudinalVelocityMps &&
    isfinite point.headingRateRps && isfinite point.accelerationMps2

variable (kinematics : Odometry K O)

def nearestPoint : Option (TrajectoryPoint K O) :=
  match findNearestIndex (trajectory.map (·.pose)) kinematics.pose.position with
  | .ok idx => trajectory[idx]?
  | .error _ => none

def velocityDeviation : K :=
  match nearestPoint trajectory kinematics with
  | some point => |point.longitudinalVelocityMps - kinematics.twistLinearX|
  | none => 0

def distanceDeviation : K :=
  match nearestPoint trajectory kinematics with
  | some point =>
    calcDistance2d config.geometry point.pose.position kinematics.pose.position
  | none => 0

end

/-! ## The node -/

namespace PlanningValidatorStatus

/-- A message without values. -/
def init : PlanningValidatorStatus K where
  isValidFiniteValue := false
  isValidInterval := false
  isValidRelativeAngle := false
  isValidCurvature := false
  isValidLateralAcc := false
  isValidLongitudinalMaxAcc := false
  isValidLongitudinalMinAcc := false
  isValidSteering := false
  isValidSteeringRate := false
  isValidVelocityDeviation := false
  isValidDistanceDeviation := false
  maxIntervalDistance := 0
  maxRelativeAngle := 0
  maxCurvature := 0
  maxLateralAcc := 0
  maxLongitudinalAcc := 0
  minLongitudinalAcc := 0
  maxSteering := 0
  maxSteeringRate := 0
  velocityDeviation := 0
  distanceDeviation := 0
  invalidCount := 0

def isAllValid (s : PlanningValidatorStatus K) : Bool :=
  s.isValidFiniteValue && s.isValidInterval && s.isValidRelativeAngle &&
    s.isValidCurvature && s.isValidLateralAcc && s.isValidLongitudinalMaxAcc &&
    s.isValidLongitudinalMinAcc && s.isValidSteering && s.isValidSteeringRate &&
    s.isValidVelocityDeviation && s.isValidDistanceDeviation

end PlanningValidatorStatus

structure PlanningValidator (K O : Type) where
  currentKinematics : Option (Odometry K O)
  currentTrajectory : Option (Trajectory K O)
  previousPublishedTrajectory : Option (Trajectory K O)
  validationStatus : PlanningValidatorStatus K
  deriving DecidableEq

inductive Event (K O : Type) where
  | kinematics (msg : Odometry K O)
  | onTrajectory (msg : Trajectory K O)

inductive Output (K O : Type) where
  | publishTrajectory (trajectory : Trajectory K O)
  | publishStatus (status : PlanningValidatorStatus K)

namespace PlanningValidator

def init : PlanningValidator K O := ⟨none, none, none, .init⟩

variable (config : Config K O)

def evaluate (kinematics : Odometry K O) (trajectory : Trajectory K O)
    (invalidCount : ℕ) : PlanningValidatorStatus K :=
  let p := config.validationParams
  let resampled := resampleTrajectory config 1 trajectory
  let s : PlanningValidatorStatus K := {
    maxIntervalDistance := calcMaxIntervalDistance config trajectory
    maxLateralAcc := calcMaxLateralAcceleration config trajectory
    maxLongitudinalAcc := getMaxLongitudinalAcc trajectory
    minLongitudinalAcc := getMinLongitudinalAcc trajectory
    velocityDeviation := velocityDeviation trajectory kinematics
    distanceDeviation := distanceDeviation config trajectory kinematics
    maxRelativeAngle := calcMaxRelativeAngles config resampled
    maxCurvature := calcMaxCurvature config resampled
    maxSteering := calcMaxSteeringAngles config resampled
    maxSteeringRate := calcMaxSteeringRates config resampled
    isValidFiniteValue := trajectory.all (checkFinite config)
    isValidInterval := !(p.intervalThreshold < calcMaxIntervalDistance config trajectory)
    isValidLateralAcc := !(p.lateralAccThreshold < calcMaxLateralAcceleration config trajectory)
    isValidLongitudinalMaxAcc :=
      !(p.longitudinalMaxAccThreshold < getMaxLongitudinalAcc trajectory)
    isValidLongitudinalMinAcc :=
      !(getMinLongitudinalAcc trajectory < p.longitudinalMinAccThreshold)
    isValidVelocityDeviation :=
      !(p.velocityDeviationThreshold < velocityDeviation trajectory kinematics)
    isValidDistanceDeviation :=
      !(p.distanceDeviationThreshold < distanceDeviation config trajectory kinematics)
    isValidRelativeAngle := !(p.relativeAngleThreshold < calcMaxRelativeAngles config resampled)
    isValidCurvature := !(p.curvatureThreshold < calcMaxCurvature config resampled)
    isValidSteering := !(p.steeringThreshold < calcMaxSteeringAngles config resampled)
    isValidSteeringRate := !(p.steeringRateThreshold < calcMaxSteeringRates config resampled)
    invalidCount := invalidCount }
  { s with invalidCount := if s.isAllValid then 0 else invalidCount + 1 }

def validate (kinematics : Odometry K O) (trajectory : Trajectory K O)
    (status : PlanningValidatorStatus K) : PlanningValidatorStatus K :=
  if trajectory.length < 2 then status
  else evaluate config kinematics trajectory status.invalidCount

def publishTrajectory (trajectory : Trajectory K O)
    (node : PlanningValidator K O) : PlanningValidator K O × List (Output K O) :=
  if node.validationStatus.isAllValid then
    ({ node with previousPublishedTrajectory := some trajectory }, [.publishTrajectory trajectory])
  else
    match config.invalidTrajectoryHandlingType with
    | .publishAsItIs => (node, [.publishTrajectory trajectory])
    | .stopPublishing => (node, [])
    | .usePreviousResult =>
      match node.previousPublishedTrajectory with
      | some previous => (node, [.publishTrajectory previous])
      | none => (node, [])

def onTrajectory (msg : Trajectory K O) (node : PlanningValidator K O) :
    PlanningValidator K O × List (Output K O) :=
  let node := { node with currentTrajectory := some msg }
  match node.currentKinematics with
  | none => (node, [])
  | some kinematics =>
    let status := validate config kinematics msg node.validationStatus
    let published := publishTrajectory config msg { node with validationStatus := status }
    (published.1, published.2 ++ [.publishStatus published.1.validationStatus])

def next (node : PlanningValidator K O) : Event K O → PlanningValidator K O × List (Output K O)
  | .kinematics msg => ({ node with currentKinematics := some msg }, [])
  | .onTrajectory msg => node.onTrajectory config msg

def step : PlanningValidator K O → Event K O × List (Output K O) → PlanningValidator K O → Prop :=
  Library.Runs.OfFunction (next config)

end PlanningValidator

end

open Common.MotionUtils Library.Runs

variable {K O : Type}

namespace PlanningValidator

section

variable {config : Config K O}

theorem mem_publishTrajectory (htype : config.invalidTrajectoryHandlingType ≠ .publishAsItIs)
    {trajectory published : Trajectory K O} {node : PlanningValidator K O}
    (hmem : .publishTrajectory published ∈ (publishTrajectory config trajectory node).2) :
    node.validationStatus.isAllValid = true ∧ published = trajectory ∨
      node.previousPublishedTrajectory = some published := by
  rw [publishTrajectory] at hmem
  split at hmem
  · next hvalid =>
      cases List.mem_singleton.mp hmem
      exact .inl ⟨hvalid, rfl⟩
  · split at hmem
    · next hasItIs => exact absurd hasItIs htype
    · cases hmem
    · split at hmem
      · next previous hprevious =>
          cases List.mem_singleton.mp hmem
          exact .inr hprevious
      · cases hmem

theorem previous_publishTrajectory (config : Config K O) (trajectory : Trajectory K O)
    (node : PlanningValidator K O) :
    (publishTrajectory config trajectory node).1.previousPublishedTrajectory =
        node.previousPublishedTrajectory ∨
      (publishTrajectory config trajectory node).1.previousPublishedTrajectory = some trajectory ∧
        .publishTrajectory trajectory ∈ (publishTrajectory config trajectory node).2 := by
  rw [publishTrajectory]
  split
  · exact .inr ⟨rfl, List.mem_singleton_self _⟩
  · refine .inl ?_
    split
    · rfl
    · rfl
    · split <;> rfl

end

variable [Field K] [LinearOrder K] (config : Config K O)

def Passes (kinematics : Odometry K O) (trajectory : Trajectory K O) : Prop :=
  2 ≤ trajectory.length ∧ (evaluate config kinematics trajectory 0).isAllValid = true

def WasChecked (labels : List (Event K O × List (Output K O))) (trajectory : Trajectory K O) :
    Prop :=
  ∃ early label late before kinematics, labels = early ++ label :: late ∧
    Run (step config) init early before ∧ label.1 = .onTrajectory trajectory ∧
    before.currentKinematics = some kinematics ∧ Passes config kinematics trajectory

/-- Every trajectory that was published had passed all checks. -/
def PublishesChecked (labels : List (Event K O × List (Output K O))) : Prop :=
  ∀ early label late, labels = early ++ label :: late →
    ∀ trajectory, .publishTrajectory trajectory ∈ label.2 →
      WasChecked config (early ++ [label]) trajectory

/-- A trajectory without a segment does not arrive while the last verdict is valid. -/
def NotStale (before : PlanningValidator K O) (label : Event K O × List (Output K O))
    (_ : PlanningValidator K O) : Prop :=
  ∀ trajectory, label.1 = .onTrajectory trajectory → trajectory.length < 2 →
    before.currentKinematics ≠ none → before.validationStatus.isAllValid = false

variable {config} {labels : List (Event K O × List (Output K O))} {trajectory : Trajectory K O}

theorem WasChecked.append (hchecked : WasChecked config labels trajectory)
    (more : List (Event K O × List (Output K O))) :
    WasChecked config (labels ++ more) trajectory := by
  obtain ⟨early, label, late, before, kinematics, rfl, hrun, hevent, hpasses⟩ := hchecked
  refine ⟨early, label, late ++ more, before, kinematics, ?_, hrun, hevent, hpasses⟩
  rw [List.append_assoc, List.cons_append]

/-- The verdict does not depend on the number of invalid trajectories before. -/
theorem isAllValid_evaluate (kinematics : Odometry K O) (trajectory : Trajectory K O)
    (invalidCount : ℕ) :
    (evaluate config kinematics trajectory invalidCount).isAllValid =
      (evaluate config kinematics trajectory 0).isAllValid :=
  rfl

theorem passes_of_validate {kinematics : Odometry K O}
    {status : PlanningValidatorStatus K} (hlong : ¬trajectory.length < 2)
    (hvalid : (validate config kinematics trajectory status).isAllValid = true) :
    Passes config kinematics trajectory := by
  rw [validate, if_neg hlong, isAllValid_evaluate] at hvalid
  exact ⟨Nat.le_of_not_lt hlong, hvalid⟩

variable {before after : PlanningValidator K O} {label : Event K O × List (Output K O)}

theorem published_cases (htype : config.invalidTrajectoryHandlingType ≠ .publishAsItIs)
    (hstep : step config before label after) {published : Trajectory K O}
    (hmem : .publishTrajectory published ∈ label.2) :
    before.previousPublishedTrajectory = some published ∨
      ∃ kinematics, before.currentKinematics = some kinematics ∧ label.1 = .onTrajectory published ∧
        (validate config kinematics published before.validationStatus).isAllValid = true := by
  obtain ⟨event, outputs⟩ := label
  obtain ⟨_, houtputs⟩ := Prod.mk.inj hstep
  dsimp only at hmem houtputs ⊢
  rw [← houtputs] at hmem
  cases event with
  | kinematics msg => cases hmem
  | onTrajectory msg =>
    cases hkinematics : before.currentKinematics with
    | none =>
      simp only [onTrajectory, hkinematics] at hmem
      cases hmem
    | some kinematics =>
      simp only [onTrajectory, hkinematics] at hmem
      rcases List.mem_append.mp hmem with hpublished | hstatus
      · rcases mem_publishTrajectory htype hpublished with ⟨hvalid, rfl⟩ | hprevious
        · exact .inr ⟨kinematics, rfl, rfl, hvalid⟩
        · exact .inl hprevious
      · cases List.mem_singleton.mp hstatus

theorem published_of_stale (hstep : step config before label after)
    (hevent : label.1 = .onTrajectory trajectory) (hshort : trajectory.length < 2)
    (hready : before.currentKinematics ≠ none) (hvalid : before.validationStatus.isAllValid = true) :
    .publishTrajectory trajectory ∈ label.2 := by
  obtain ⟨event, outputs⟩ := label
  obtain ⟨_, houtputs⟩ := Prod.mk.inj hstep
  dsimp only at hevent houtputs ⊢
  subst hevent
  rw [← houtputs]
  cases hkinematics : before.currentKinematics with
  | none => exact absurd hkinematics hready
  | some kinematics =>
    simp only [onTrajectory, hkinematics]
    apply List.mem_append_left
    rw [publishTrajectory, validate, if_pos hshort, if_pos hvalid]
    exact List.mem_singleton_self _

theorem previous_cases (hstep : step config before label after) :
    after.previousPublishedTrajectory = before.previousPublishedTrajectory ∨
      ∃ trajectory, after.previousPublishedTrajectory = some trajectory ∧
        .publishTrajectory trajectory ∈ label.2 := by
  obtain ⟨event, outputs⟩ := label
  obtain ⟨rfl, houtputs⟩ := Prod.mk.inj hstep
  dsimp only at houtputs ⊢
  rw [← houtputs]
  cases event with
  | kinematics msg => exact .inl rfl
  | onTrajectory msg =>
    cases hkinematics : before.currentKinematics with
    | none =>
      simp only [onTrajectory, hkinematics]
      exact .inl trivial
    | some kinematics =>
      simp only [onTrajectory, hkinematics]
      rcases previous_publishTrajectory config msg
        { before with
          currentKinematics := some kinematics
          currentTrajectory := some msg
          validationStatus := validate config kinematics msg before.validationStatus }
        with hsame | ⟨hsome, hmem⟩
      · exact .inl hsame
      · exact .inr ⟨msg, hsome, List.mem_append_left _ hmem⟩

/-! ## Runs -/

theorem previous_published
    {last : PlanningValidator K O} (hrun : Run (step config) init labels last) :
    ∀ trajectory, last.previousPublishedTrajectory = some trajectory →
      ∃ early label late, labels = early ++ label :: late ∧
        .publishTrajectory trajectory ∈ label.2 := by
  refine hrun.induction_last (motive := fun labels last =>
    ∀ trajectory, last.previousPublishedTrajectory = some trajectory →
      ∃ early label late, labels = early ++ label :: late ∧
        .publishTrajectory trajectory ∈ label.2) (fun _ hnone => (by cases hnone)) ?_
  intro labels before label after _ ih hstep trajectory htrajectory
  rcases previous_cases hstep with hsame | ⟨other, hsome, hmem⟩
  · obtain ⟨early, old, late, rfl, hmem⟩ := ih trajectory (hsame ▸ htrajectory)
    refine ⟨early, old, late ++ [label], ?_, hmem⟩
    rw [List.append_assoc, List.cons_append]
  · rw [hsome] at htrajectory
    cases htrajectory
    exact ⟨labels, label, [], rfl, hmem⟩

theorem publishesChecked_snoc {label : Event K O × List (Output K O)} :
    PublishesChecked config (labels ++ [label]) ↔ PublishesChecked config labels ∧
      ∀ trajectory, .publishTrajectory trajectory ∈ label.2 →
        WasChecked config (labels ++ [label]) trajectory := by
  constructor
  · intro hchecked
    refine ⟨fun early old late hsplit => ?_, hchecked labels label [] rfl⟩
    subst hsplit
    apply hchecked early old (late ++ [label])
    rw [List.append_assoc, List.cons_append]
  · rintro ⟨hearlier, hlast⟩ early old late hsplit
    rcases List.eq_nil_or_concat late with rfl | ⟨late, final, rfl⟩
    · obtain ⟨rfl, hlabel⟩ := List.append_inj' hsplit rfl
      cases hlabel
      exact hlast
    · rw [List.concat_eq_append, ← List.cons_append, ← List.append_assoc] at hsplit
      obtain ⟨rfl, _⟩ := List.append_inj' hsplit rfl
      exact hearlier early old late rfl

theorem publishesChecked_iff (htype : config.invalidTrajectoryHandlingType ≠ .publishAsItIs)
    {last : PlanningValidator K O} (hrun : Run (step config) init labels last) :
    PublishesChecked config labels ↔ Run (Guarded (step config) NotStale) init labels last := by
  have hdet : Deterministic (step config) := OfFunction.deterministic (next config)
  refine hrun.induction_last (motive := fun labels last =>
    PublishesChecked config labels ↔ Run (Guarded (step config) NotStale) init labels last) ?_ ?_
  · refine ⟨fun _ => .nil init, fun _ early label late hsplit => ?_⟩
    exact absurd hsplit (by simp)
  · intro labels before label after hbefore ih hstep
    rw [publishesChecked_snoc]
    constructor
    · rintro ⟨hearlier, hlast⟩
      apply (ih.mp hearlier).append
      refine .single ⟨hstep, fun trajectory hevent hshort hready => ?_⟩
      by_contra hvalid
      rw [Bool.not_eq_false] at hvalid
      obtain ⟨_, _, _, _, _, _, _, _, _, hlong, _⟩ :=
        hlast trajectory (published_of_stale hstep hevent hshort hready hvalid)
      exact absurd hlong (Nat.not_le_of_lt hshort)
    · intro hguarded
      have hcond := Run.guard_at hdet hguarded hbefore hstep
      obtain ⟨middle, hprefix, _⟩ := hguarded.split
      have hmiddle : middle = before := hprefix.unguarded.deterministic hdet hbefore
      subst hmiddle
      have hearlier := ih.mpr hprefix
      refine ⟨hearlier, fun trajectory hmem => ?_⟩
      rcases published_cases htype hstep hmem with hprevious | ⟨kinematics, hready, hevent, hvalid⟩
      · obtain ⟨early, old, late, rfl, hold⟩ := previous_published hbefore trajectory hprevious
        have hchecked := hearlier early old late rfl trajectory hold
        have happend := (hchecked.append late).append [label]
        rwa [List.append_assoc early, List.singleton_append] at happend
      · by_cases hshort : trajectory.length < 2
        · have hstale := hcond trajectory hevent hshort (by simp [hready])
          rw [validate, if_pos hshort, hstale] at hvalid
          cases hvalid
        · exact ⟨labels, label, [], middle, kinematics, rfl, hbefore, hevent, hready,
            passes_of_validate hshort hvalid⟩

/-- All published trajectories had passed the checks, and so had the previous one that is
kept, exactly if no trajectory without a segment arrived on a valid verdict. -/
theorem publishesChecked_iff_notStale (config : Config K O)
    (htype : config.invalidTrajectoryHandlingType ≠ .publishAsItIs)
    {labels : List (Event K O × List (Output K O))} {last : PlanningValidator K O}
    (hrun : Run (step config) init labels last) :
    (PublishesChecked config labels ∧ ∀ trajectory,
        last.previousPublishedTrajectory = some trajectory → WasChecked config labels trajectory) ↔
      Run (Guarded (step config) NotStale) init labels last := by
  rw [← publishesChecked_iff htype hrun]
  refine ⟨And.left, fun hchecked => ⟨hchecked, fun trajectory hprevious => ?_⟩⟩
  obtain ⟨early, label, late, rfl, hmem⟩ := previous_published hrun trajectory hprevious
  have happend := (hchecked early label late rfl trajectory hmem).append late
  rwa [List.append_assoc, List.singleton_append] at happend

/-- A validator for trajectories along the x axis, with the default thresholds. -/
def axisConfig : Config ℚ Unit where
  geometry := ⟨fun square => ((List.range 50).find? fun root => square ≤ root * root).getD 0,
    7071 / 10000, fun _ _ => (), fun _ _ => 0, fun _ _ => true⟩
  numerics := ⟨fun _ _ => 0, id, id, fun _ => true, fun _ => true⟩
  validationParams := ⟨100, 2, 1, 98 / 10, 98 / 10, -98 / 10, 1414 / 1000, 10, 100, 100⟩
  wheelBase := 4
  invalidTrajectoryHandlingType := .stopPublishing

def axisPose (x : ℚ) : Pose ℚ Unit := ⟨⟨x, 0, 0⟩, ()⟩

def axisTrajectory : Trajectory ℚ Unit :=
  [⟨axisPose 0, 3, 0, 0⟩, ⟨axisPose 2, 3, 0, 0⟩, ⟨axisPose 4, 3, 0, 0⟩]

/-- The empty trajectory is published on the verdict of the one before. -/
def emptyAfterValid : List (Event ℚ Unit) :=
  [.kinematics ⟨axisPose 0, 3⟩, .onTrajectory axisTrajectory, .onTrajectory []]

theorem publishesChecked_iff_notStale_axisTrajectory :
    let result := execute (next axisConfig) init
      [.kinematics ⟨axisPose 0, 3⟩, .onTrajectory axisTrajectory]
    (PublishesChecked axisConfig result.1 ∧ ∀ trajectory,
        result.2.previousPublishedTrajectory = some trajectory →
          WasChecked axisConfig result.1 trajectory) ↔
      Run (Guarded (step axisConfig) NotStale) init result.1 result.2 :=
  publishesChecked_iff_notStale axisConfig (by decide) (run_execute (next axisConfig) init _)

theorem empty_trajectory_published :
    let result := execute (next axisConfig) init emptyAfterValid
    Run (step axisConfig) init result.1 result.2 ∧ ¬PublishesChecked axisConfig result.1 := by
  refine ⟨run_execute (next axisConfig) init emptyAfterValid, fun hchecked => ?_⟩
  let first := execute (next axisConfig) init
    [.kinematics ⟨axisPose 0, 3⟩, .onTrajectory axisTrajectory]
  let valid := first.2
  have hvalid : valid.validationStatus.isAllValid = true := by decide +kernel
  have hready : valid.currentKinematics ≠ none := by decide +kernel
  have hstep : step axisConfig valid (.onTrajectory [], (next axisConfig valid (.onTrajectory [])).2)
      (next axisConfig valid (.onTrajectory [])).1 := rfl
  have hmem := published_of_stale hstep rfl (by decide) hready hvalid
  obtain ⟨_, _, _, _, _, _, _, _, _, hlong, _⟩ := hchecked first.1 _ [] rfl [] hmem
  exact absurd hlong (by decide)

end PlanningValidator

end

/-!
## Metrics in both turning directions

The metrics of the planning validator are compared with the largest magnitude of their
quantity, and the verdict with that on the mirror image.  Only the steering rates are folded
with their sign.
-/

open PlanningValidator (axisConfig axisPose axisTrajectory evaluate validate)

variable {K O : Type} [Field K] [LinearOrder K]

def MaxMagnitude (values : List K) (bound : K) : Prop :=
  IsGreatest {a | a = 0 ∨ ∃ value ∈ values, |value| = a} bound

section

variable (config : Config K O) (trajectory : Trajectory K O)

/-- Two points at one place have the same steering angle: the quotient 0 / 0 is not a number
in the source and here 0, which no maximum takes either. -/
def steeringRates : List K :=
  let steerings := trajectory.zip (calcSteeringAngles config trajectory)
  steerings.zipWith (steeringRate config) steerings.tail

def relativeAngle (p1 p2 p3 : TrajectoryPoint K O) : K :=
  let azimuth (p q : TrajectoryPoint K O) : K :=
    config.numerics.calcAzimuthAngle p.pose.position q.pose.position
  config.numerics.normalizeRadian (azimuth p2 p3 - azimuth p1 p2)

/-- Each metric is the largest magnitude of its quantity over all indices. -/
structure BoundsMagnitudes : Prop where
  intervals : MaxMagnitude (trajectory.tail.zipWith (distance config) trajectory)
    (calcMaxIntervalDistance config trajectory)
  curvatures : MaxMagnitude ((ofTriples (calcCurvatureOf config) trajectory).filterMap id)
    (calcMaxCurvature config trajectory)
  lateral : MaxMagnitude (trajectory.zipWith (fun point curvature =>
      point.longitudinalVelocityMps * point.longitudinalVelocityMps * curvature)
      (calcCurvature config trajectory)) (calcMaxLateralAcceleration config trajectory)
  angles : MaxMagnitude (ofTriples (relativeAngle config) trajectory)
    (calcMaxRelativeAngles config trajectory)
  steerings : MaxMagnitude (calcSteeringAngles config trajectory)
    (calcMaxSteeringAngles config trajectory)
  rates : MaxMagnitude (steeringRates config trajectory) (calcMaxSteeringRates config trajectory)

end

def mirror (p : Point K) : Point K := ⟨p.x, -p.y, p.z⟩

def mirrorPose (orientation : O → O) (pose : Pose K O) : Pose K O :=
  ⟨mirror pose.position, orientation pose.orientation⟩

def mirrorPoint (orientation : O → O) (point : TrajectoryPoint K O) : TrajectoryPoint K O where
  pose := mirrorPose orientation point.pose
  longitudinalVelocityMps := point.longitudinalVelocityMps
  headingRateRps := -point.headingRateRps
  accelerationMps2 := point.accelerationMps2

def mirrorOdometry (orientation : O → O) (kinematics : Odometry K O) : Odometry K O :=
  ⟨mirrorPose orientation kinematics.pose, kinematics.twistLinearX⟩

structure Mirrors (config : Config K O) (turn : K) (orientation : O → O) : Prop where
  isfinite_neg (value : K) : config.numerics.isfinite (-value) = config.numerics.isfinite value
  isfiniteOrientation (o : O) : config.numerics.isfiniteOrientation (orientation o) =
    config.numerics.isfiniteOrientation o
  atan_neg (k : K) : config.numerics.atan (-k) = -config.numerics.atan k
  azimuth (p q : Point K) : ∃ turns : ℤ, config.numerics.calcAzimuthAngle (mirror p) (mirror q) =
    turns * turn - config.numerics.calcAzimuthAngle p q
  normalizeRadian_turns (turns : ℤ) (rad : K) :
    config.numerics.normalizeRadian (turns * turn + rad) = config.numerics.normalizeRadian rad
  abs_normalizeRadian_neg (rad : K) :
    |config.numerics.normalizeRadian (-rad)| = |config.numerics.normalizeRadian rad|

theorem isGreatest_biggest (values : List K) :
    IsGreatest {a | a = 0 ∨ a ∈ values} (biggest values) := by
  have hfold (most : K) : IsGreatest {a | a = most ∨ a ∈ values} (values.foldl
      (fun max value => if max < value then value else max) most) := by
    induction values generalizing most with
    | nil => simp [IsGreatest, upperBounds]
    | cons value rest ih =>
      obtain ⟨hmem, hle⟩ := ih (if most < value then value else most)
      rw [List.foldl_cons]
      refine ⟨?_, ?_⟩
      · rcases hmem with hmost | hrest
        · rw [hmost]
          split
          · exact .inr List.mem_cons_self
          · exact .inl rfl
        · exact .inr (List.mem_cons_of_mem _ hrest)
      · have hmost := hle (.inl rfl)
        rintro a (rfl | ha)
        · refine le_trans ?_ hmost
          split
          · next hlt => exact hlt.le
          · exact le_rfl
        · rcases List.mem_cons.mp ha with rfl | ha
          · refine le_trans ?_ hmost
            split
            · exact le_rfl
            · next hge => exact not_lt.mp hge
          · exact hle (.inr ha)
  exact hfold 0

theorem lt_biggest_iff {values : List K} {bound : K} (hbound : 0 ≤ bound) :
    bound < biggest values ↔ ∃ value ∈ values, bound < value := by
  obtain ⟨hmem, hle⟩ := isGreatest_biggest values
  constructor
  · intro hlt
    rcases hmem with hzero | hvalue
    · exact absurd (hzero ▸ hlt) (not_lt.mpr hbound)
    · exact ⟨_, hvalue, hlt⟩
  · rintro ⟨value, hvalue, hlt⟩
    exact hlt.trans_le (hle (.inr hvalue))

omit [Field K] [LinearOrder K] in
theorem ofTriples_map {α : Type} (value : TrajectoryPoint K O → TrajectoryPoint K O →
    TrajectoryPoint K O → α) (image : TrajectoryPoint K O → TrajectoryPoint K O) :
    ∀ trajectory : Trajectory K O, ofTriples value (trajectory.map image) =
      ofTriples (fun p1 p2 p3 => value (image p1) (image p2) (image p3)) trajectory
  | p1 :: p2 :: p3 :: rest =>
    congrArg (value (image p1) (image p2) (image p3) :: ·)
      (ofTriples_map value image (p2 :: p3 :: rest))
  | [] | [_] | [_, _] => rfl

omit [Field K] [LinearOrder K] in
theorem map_ofTriples {α β : Type} (value : TrajectoryPoint K O → TrajectoryPoint K O →
    TrajectoryPoint K O → α) (image : α → β) :
    ∀ trajectory : Trajectory K O, (ofTriples value trajectory).map image =
      ofTriples (fun p1 p2 p3 => image (value p1 p2 p3)) trajectory
  | p1 :: p2 :: p3 :: rest =>
    congrArg (image (value p1 p2 p3) :: ·) (map_ofTriples value image (p2 :: p3 :: rest))
  | [] | [_] | [_, _] => rfl

theorem maxMagnitude_of_eq {values magnitudes : List K}
    (hvalues : values.map (fun value => |value|) = magnitudes) :
    MaxMagnitude values (biggest magnitudes) := by
  subst hvalues
  simpa only [MaxMagnitude, List.mem_map] using isGreatest_biggest (values.map fun value => |value|)

section

variable [IsStrictOrderedRing K]

/-- A fold with signs gives the largest magnitude if no negative value is larger in magnitude
than all positive ones. -/
theorem maxMagnitude_biggest_iff (values : List K) : MaxMagnitude values (biggest values) ↔
    ∀ value ∈ values, value < 0 → ∃ other ∈ values, -value ≤ other := by
  obtain ⟨hmem, hle⟩ := isGreatest_biggest values
  constructor
  · rintro ⟨-, hbound⟩ value hvalue hneg
    have hmagnitude := hbound (.inr ⟨value, hvalue, abs_of_neg hneg⟩)
    rcases hmem with hzero | hother
    · rw [hzero] at hmagnitude
      exact absurd hmagnitude (not_le.mpr (neg_pos.mpr hneg))
    · exact ⟨_, hother, hmagnitude⟩
  · refine fun hbalanced => ⟨?_, ?_⟩
    · exact hmem.imp_right fun hvalue => ⟨_, hvalue, abs_of_nonneg (hle (.inl rfl))⟩
    · rintro a (rfl | ⟨value, hvalue, rfl⟩)
      · exact hle (.inl rfl)
      · rcases lt_or_ge value 0 with hneg | hnonneg
        · obtain ⟨other, hother, hbound⟩ := hbalanced value hvalue hneg
          rw [abs_of_neg hneg]
          exact hbound.trans (hle (.inr hother))
        · rw [abs_of_nonneg hnonneg]
          exact hle (.inr hvalue)

theorem boundsMagnitudes_iff (config : Config K O) (trajectory : Trajectory K O) :
    BoundsMagnitudes config trajectory ↔ ∀ rate ∈ steeringRates config trajectory,
      rate < 0 → ∃ other ∈ steeringRates config trajectory, -rate ≤ other := by
  rw [← maxMagnitude_biggest_iff]
  refine ⟨BoundsMagnitudes.rates, fun hrates => ⟨?_, ?_, ?_, ?_, ?_, hrates⟩⟩
  · exact maxMagnitude_of_eq List.map_zipWith
  · exact maxMagnitude_of_eq List.map_filterMap
  · exact maxMagnitude_of_eq List.map_zipWith
  · exact maxMagnitude_of_eq (map_ofTriples ..)
  · exact maxMagnitude_of_eq rfl

end

/-! ## The mirror image -/

variable (config : Config K O) (orientation : O → O)

omit [LinearOrder K] in
theorem calcSquaredDistance2d_mirror (p q : Point K) :
    calcSquaredDistance2d (mirror p) (mirror q) = calcSquaredDistance2d p q := by
  simp only [calcSquaredDistance2d, mirror]
  ring

omit [LinearOrder K] in
theorem distance_mirrorPoint (p q : TrajectoryPoint K O) :
    distance config (mirrorPoint orientation p) (mirrorPoint orientation q) =
      distance config p q :=
  congrArg config.geometry.sqrt (calcSquaredDistance2d_mirror ..)

theorem resampleFrom_map (minInterval : K) (prev : TrajectoryPoint K O)
    (trajectory : Trajectory K O) :
    resampleFrom config minInterval (mirrorPoint orientation prev)
        (trajectory.map (mirrorPoint orientation)) =
      (resampleFrom config minInterval prev trajectory).map (mirrorPoint orientation) := by
  induction trajectory generalizing prev with
  | nil => rfl
  | cons curr rest ih =>
    rw [List.map_cons, resampleFrom, resampleFrom, distance_mirrorPoint, ih, ih]
    split <;> rfl

theorem resampleTrajectory_map (minInterval : K) (trajectory : Trajectory K O) :
    resampleTrajectory config minInterval (trajectory.map (mirrorPoint orientation)) =
      (resampleTrajectory config minInterval trajectory).map (mirrorPoint orientation) := by
  cases trajectory with
  | nil => rfl
  | cons first rest =>
    rw [List.map_cons, resampleTrajectory, resampleFrom_map, resampleTrajectory, List.map_cons]

theorem calcCurvatureOf_mirrorPoint (p1 p2 p3 : TrajectoryPoint K O) :
    calcCurvatureOf config (mirrorPoint orientation p1) (mirrorPoint orientation p2)
        (mirrorPoint orientation p3) =
      (calcCurvatureOf config p1 p2 p3).map fun curvature => -curvature := by
  simp only [calcCurvatureOf, distance_mirrorPoint]
  split
  · rfl
  · simp only [mirrorPoint, mirrorPose, mirror, Option.map_some, Option.some.injEq]
    rw [← neg_div]
    ring

section

variable (trajectory : Trajectory K O)

theorem calcCurvature_map : calcCurvature config (trajectory.map (mirrorPoint orientation)) =
      (calcCurvature config trajectory).map fun curvature => -curvature := by
  rw [calcCurvature, calcCurvature, List.length_map]
  split
  · rw [List.map_map, List.map_map]
    exact List.map_congr_left fun _ _ => neg_zero.symm
  · simp only [List.map_append, List.map_cons, List.map_nil, neg_zero, ofTriples_map,
      map_ofTriples, calcCurvatureOf_mirrorPoint]
    congr 3
    funext p1 p2 p3
    cases calcCurvatureOf config p1 p2 p3 <;> simp

theorem nearestPoint_map (kinematics : Odometry K O) :
    nearestPoint (trajectory.map (mirrorPoint orientation))
        (mirrorOdometry orientation kinematics) =
      (nearestPoint trajectory kinematics).map (mirrorPoint orientation) := by
  have hsearch (poses : List (Pose K O)) (point : Point K) (i : ℕ) (found : Option (K × ℕ)) :
      searchNearest (fun _ => false) (mirror point) i found (poses.map (mirrorPose orientation)) =
        searchNearest (fun _ => false) point i found poses := by
    induction poses generalizing i found with
    | nil => rfl
    | cons pose rest ih =>
      rw [List.map_cons, searchNearest.eq_def, searchNearest.eq_def _ _ _ _ (pose :: rest)]
      simp only [mirrorPose, calcSquaredDistance2d_mirror, ih]
  have hposes : (trajectory.map (mirrorPoint orientation)).map (·.pose) =
      (trajectory.map (·.pose)).map (mirrorPose orientation) := by
    rw [List.map_map, List.map_map]
    rfl
  have hposition : (mirrorOdometry orientation kinematics).pose.position =
      mirror kinematics.pose.position := rfl
  rw [nearestPoint, nearestPoint, findNearestIndex, findNearestIndex, hposes, hposition, hsearch]
  cases searchNearest (fun _ => false) kinematics.pose.position 0 none
    (trajectory.map (·.pose)) with
  | none => rfl
  | some idx => exact List.getElem?_map

theorem velocityDeviation_map (kinematics : Odometry K O) :
    velocityDeviation (trajectory.map (mirrorPoint orientation))
        (mirrorOdometry orientation kinematics) =
      velocityDeviation trajectory kinematics := by
  rw [velocityDeviation, velocityDeviation, nearestPoint_map]
  cases nearestPoint trajectory kinematics <;> rfl

theorem distanceDeviation_map (kinematics : Odometry K O) :
    distanceDeviation config (trajectory.map (mirrorPoint orientation))
        (mirrorOdometry orientation kinematics) =
      distanceDeviation config trajectory kinematics := by
  rw [distanceDeviation, distanceDeviation, nearestPoint_map]
  cases nearestPoint trajectory kinematics with
  | none => rfl
  | some point => exact congrArg config.geometry.sqrt (calcSquaredDistance2d_mirror ..)

theorem calcMaxIntervalDistance_map :
    calcMaxIntervalDistance config (trajectory.map (mirrorPoint orientation)) =
      calcMaxIntervalDistance config trajectory := by
  simp only [calcMaxIntervalDistance, ← List.map_tail, List.zipWith_map, distance_mirrorPoint]

theorem calcMaxLateralAcceleration_map :
    calcMaxLateralAcceleration config (trajectory.map (mirrorPoint orientation)) =
      calcMaxLateralAcceleration config trajectory := by
  simp only [calcMaxLateralAcceleration, calcCurvature_map, List.zipWith_map, mirrorPoint,
    mul_neg, abs_neg]

theorem calcMaxCurvature_map : calcMaxCurvature config (trajectory.map (mirrorPoint orientation)) =
      calcMaxCurvature config trajectory := by
  simp only [calcMaxCurvature, ofTriples_map, calcCurvatureOf_mirrorPoint]
  simp only [← map_ofTriples (calcCurvatureOf config) (Option.map fun curvature => -curvature),
    List.filterMap_map, Function.comp_def, Option.map_map, abs_neg]

theorem getMaxLongitudinalAcc_map :
    getMaxLongitudinalAcc (trajectory.map (mirrorPoint orientation)) =
      getMaxLongitudinalAcc trajectory :=
  congrArg biggest List.map_map

theorem getMinLongitudinalAcc_map :
    getMinLongitudinalAcc (trajectory.map (mirrorPoint orientation)) =
      getMinLongitudinalAcc trajectory :=
  congrArg smallest List.map_map

end

/-- In both directions a rate is above the threshold, or in none. -/
def BothOrNone (config : Config K O) (trajectory : Trajectory K O) : Prop :=
  let threshold := config.validationParams.steeringRateThreshold
  (∃ rate ∈ steeringRates config trajectory, threshold < rate) ↔
    ∃ rate ∈ steeringRates config trajectory, rate < -threshold

/-- The checks other than that of the steering rates. -/
def OthersValid (config : Config K O) (kinematics : Odometry K O)
    (trajectory : Trajectory K O) : Prop :=
  { evaluate config kinematics trajectory 0 with
    isValidSteeringRate := true }.isAllValid = true

theorem isAllValid_evaluate_iff (kinematics : Odometry K O) (trajectory : Trajectory K O)
    (invalidCount : ℕ) :
    (evaluate config kinematics trajectory invalidCount).isAllValid = true ↔
      OthersValid config kinematics trajectory ∧ ¬config.validationParams.steeringRateThreshold <
          calcMaxSteeringRates config (resampleTrajectory config 1 trajectory) := by
  have hsplit (s : PlanningValidatorStatus K) : s.isAllValid =
      ({ s with isValidSteeringRate := true }.isAllValid && s.isValidSteeringRate) := by
    cases hrate : s.isValidSteeringRate <;> simp [PlanningValidatorStatus.isAllValid, hrate]
  rw [hsplit, Bool.and_eq_true, OthersValid]
  simp only [evaluate, PlanningValidatorStatus.isAllValid,
    Bool.not_eq_true', decide_eq_false_iff_not]

section

variable {config orientation} {turn : K} (hmirror : Mirrors config turn orientation)

include hmirror

theorem checkFinite_mirrorPoint (point : TrajectoryPoint K O) :
    checkFinite config (mirrorPoint orientation point) = checkFinite config point := by
  simp only [checkFinite, mirrorPoint, mirrorPose, mirror, hmirror.isfinite_neg,
    hmirror.isfiniteOrientation]

section

variable (trajectory : Trajectory K O)

theorem calcMaxRelativeAngles_map :
    calcMaxRelativeAngles config (trajectory.map (mirrorPoint orientation)) =
      calcMaxRelativeAngles config trajectory := by
  rw [calcMaxRelativeAngles, calcMaxRelativeAngles, ofTriples_map]
  congr 2
  funext p1 p2 p3
  obtain ⟨later, hlater⟩ := hmirror.azimuth p2.pose.position p3.pose.position
  obtain ⟨earlier, hearlier⟩ := hmirror.azimuth p1.pose.position p2.pose.position
  simp only [mirrorPoint, mirrorPose, hlater, hearlier]
  rw [← hmirror.abs_normalizeRadian_neg, ← hmirror.normalizeRadian_turns (later - earlier)]
  congr 2
  push_cast
  ring

theorem calcSteeringAngles_map :
    calcSteeringAngles config (trajectory.map (mirrorPoint orientation)) =
      (calcSteeringAngles config trajectory).map fun steering => -steering := by
  simp only [calcSteeringAngles, calcCurvature_map, List.map_map, Function.comp_def, neg_mul,
    hmirror.atan_neg]

theorem calcMaxSteeringAngles_map :
    calcMaxSteeringAngles config (trajectory.map (mirrorPoint orientation)) =
      calcMaxSteeringAngles config trajectory := by
  simp only [calcMaxSteeringAngles, calcSteeringAngles_map hmirror, List.map_map,
    Function.comp_def, abs_neg]

theorem steeringRates_map : steeringRates config (trajectory.map (mirrorPoint orientation)) =
      (steeringRates config trajectory).map fun rate => -rate := by
  simp only [steeringRates, calcSteeringAngles_map hmirror, List.zip_map, ← List.map_tail,
    List.zipWith_map, List.map_zipWith]
  congr 1
  funext prev next
  simp only [steeringRate, Prod.map, distance_mirrorPoint]
  rw [← neg_div, neg_sub_neg, neg_sub]
  rfl

end

theorem othersValid_map (kinematics : Odometry K O) (trajectory : Trajectory K O) :
    OthersValid config (mirrorOdometry orientation kinematics)
        (trajectory.map (mirrorPoint orientation)) ↔ OthersValid config kinematics trajectory := by
  simp only [OthersValid, evaluate, PlanningValidatorStatus.isAllValid,
    resampleTrajectory_map, calcMaxIntervalDistance_map, calcMaxLateralAcceleration_map,
    calcMaxCurvature_map, getMaxLongitudinalAcc_map, getMinLongitudinalAcc_map,
    velocityDeviation_map, distanceDeviation_map, calcMaxRelativeAngles_map hmirror,
    calcMaxSteeringAngles_map hmirror, List.all_map, Function.comp_def,
    checkFinite_mirrorPoint hmirror]

theorem sameVerdict_iff [IsStrictOrderedRing K]
    (hthreshold : 0 ≤ config.validationParams.steeringRateThreshold)
    (kinematics : Odometry K O) (trajectory : Trajectory K O) (invalidCount : ℕ) :
    (evaluate config kinematics trajectory invalidCount).isAllValid =
        (evaluate config (mirrorOdometry orientation kinematics)
          (trajectory.map (mirrorPoint orientation)) invalidCount).isAllValid ↔
      (OthersValid config kinematics trajectory →
        BothOrNone config (resampleTrajectory config 1 trajectory)) := by
  have hmirrored : calcMaxSteeringRates config ((resampleTrajectory config 1 trajectory).map
      (mirrorPoint orientation)) = biggest ((steeringRates config
        (resampleTrajectory config 1 trajectory)).map fun rate => -rate) :=
    congrArg biggest (steeringRates_map hmirror _)
  rw [Bool.eq_iff_iff, isAllValid_evaluate_iff, isAllValid_evaluate_iff, othersValid_map hmirror,
    resampleTrajectory_map, hmirrored, and_congr_right_iff, not_iff_not, BothOrNone,
    calcMaxSteeringRates, lt_biggest_iff hthreshold, lt_biggest_iff hthreshold]
  simp only [List.mem_map, exists_exists_and_eq_and, lt_neg, steeringRates]

/-- The metrics bound the magnitudes and the verdict on the mirror image is the same exactly
if no steering rate to the right is larger than all to the left and, where the other checks
pass, the threshold is passed in both directions or in none. -/
theorem boundsMagnitudes_and_sameVerdict_iff [IsStrictOrderedRing K]
    (hthreshold : 0 ≤ config.validationParams.steeringRateThreshold)
    {trajectory : Trajectory K O} (hlong : 2 ≤ trajectory.length)
    (kinematics : Odometry K O) (status : PlanningValidatorStatus K) :
    (BoundsMagnitudes config trajectory ∧
      (validate config kinematics trajectory status).isAllValid =
        (validate config (mirrorOdometry orientation kinematics)
          (trajectory.map (mirrorPoint orientation)) status).isAllValid) ↔
    (∀ rate ∈ steeringRates config trajectory,
        rate < 0 → ∃ other ∈ steeringRates config trajectory, -rate ≤ other) ∧
      (OthersValid config kinematics trajectory →
        BothOrNone config (resampleTrajectory config 1 trajectory)) := by
  rw [boundsMagnitudes_iff, validate, validate,
    List.length_map, if_neg (Nat.not_lt.mpr hlong), if_neg (Nat.not_lt.mpr hlong),
    sameVerdict_iff hmirror hthreshold]

end

theorem mirrors_axisConfig : Mirrors axisConfig 0 id where
  isfinite_neg _ := rfl
  isfiniteOrientation _ := rfl
  atan_neg _ := rfl
  azimuth _ _ := ⟨0, by simp [axisConfig]⟩
  normalizeRadian_turns _ _ := by simp [axisConfig]
  abs_normalizeRadian_neg := abs_neg

theorem boundsMagnitudes_and_sameVerdict_iff_axis : BoundsMagnitudes axisConfig axisTrajectory ∧
      (validate axisConfig ⟨axisPose 0, 3⟩ axisTrajectory .init).isAllValid =
        (validate axisConfig (mirrorOdometry id ⟨axisPose 0, 3⟩)
          (axisTrajectory.map (mirrorPoint id)) .init).isAllValid := by
  have hrates : ∀ rate ∈ steeringRates axisConfig axisTrajectory, rate = 0 := by decide +kernel
  have hresampled : ∀ rate ∈ steeringRates axisConfig (resampleTrajectory axisConfig 1
      axisTrajectory), |rate| < 10 := by decide +kernel
  refine (boundsMagnitudes_and_sameVerdict_iff mirrors_axisConfig (by decide +kernel) (by decide)
    ⟨axisPose 0, 3⟩ .init).mpr ⟨fun rate hrate hneg => ?_, fun _ => ⟨?_, ?_⟩⟩
  · exact absurd (hrates rate hrate) hneg.ne
  · rintro ⟨rate, hrate, hlt⟩
    exact absurd hlt (not_lt.mpr (abs_lt.mp (hresampled rate hrate)).2.le)
  · rintro ⟨rate, hrate, hlt⟩
    exact absurd hlt (not_lt.mpr (abs_lt.mp (hresampled rate hrate)).1.le)

/-- A wheel base of 4 m. -/
noncomputable def realConfig : Config ℝ Unit where
  geometry := ⟨Real.sqrt, Real.cos (Real.pi / 4), fun _ _ => (), fun _ _ => 0, fun _ _ => true⟩
  numerics := ⟨fun p q => Complex.arg ⟨q.x - p.x, q.y - p.y⟩,
    fun rad => -((-rad : ℝ) : Real.Angle).toReal, Real.arctan, fun _ => true, fun _ => true⟩
  validationParams := ⟨100, 2, 1, 98 / 10, 98 / 10, -98 / 10, 1414 / 1000, 10, 100, 100⟩
  wheelBase := 4
  invalidTrajectoryHandlingType := .stopPublishing

def rightTurn : Trajectory ℝ Unit :=
  [⟨⟨⟨0, 0, 0⟩, ()⟩, 3, 0, 0⟩, ⟨⟨⟨3, 0, 0⟩, ()⟩, 3, 0, 0⟩, ⟨⟨⟨3, -4, 0⟩, ()⟩, 3, 0, 0⟩]

theorem sqrt_sides : √(9 : ℝ) = 3 ∧ √(16 : ℝ) = 4 ∧ √(25 : ℝ) = 5 := by
  refine ⟨?_, ?_, ?_⟩ <;> rw [Real.sqrt_eq_iff_mul_self_eq_of_pos] <;> norm_num

theorem calcSteeringAngles_rightTurn :
    calcSteeringAngles realConfig rightTurn = [0, -Real.arctan (8 / 5), 0] := by
  have hcurvature : calcCurvature realConfig rightTurn = [0, -(2 / 5), 0] := by
    norm_num [calcCurvature, rightTurn, ofTriples, calcCurvatureOf, distance, calcDistance2d,
      calcSquaredDistance2d, realConfig, sqrt_sides]
  rw [calcSteeringAngles, hcurvature]
  norm_num [realConfig, Real.arctan_neg]

theorem steeringRates_rightTurn : steeringRates realConfig rightTurn =
    [-Real.arctan (8 / 5), 3 / 4 * Real.arctan (8 / 5)] := by
  rw [steeringRates, calcSteeringAngles_rightTurn]
  norm_num [rightTurn, steeringRate, distance, calcDistance2d, calcSquaredDistance2d, realConfig,
    sqrt_sides]
  ring

/-- Steering into a turn to the right at a rate of about 1, and out of it more slowly. -/
theorem calcMaxSteeringRates_rightTurn :
    calcMaxSteeringRates realConfig rightTurn = 3 / 4 * Real.arctan (8 / 5) ∧
      -Real.arctan (8 / 5) ∈ steeringRates realConfig rightTurn ∧
      ¬BoundsMagnitudes realConfig rightTurn := by
  have hpos : 0 < Real.arctan (8 / 5) := Real.arctan_pos.mpr (by norm_num)
  have hmax : calcMaxSteeringRates realConfig rightTurn = biggest
      [-Real.arctan (8 / 5), 3 / 4 * Real.arctan (8 / 5)] :=
    congrArg biggest steeringRates_rightTurn
  have hvalue : calcMaxSteeringRates realConfig rightTurn = 3 / 4 * Real.arctan (8 / 5) := by
    have hneg : ¬0 < -Real.arctan (8 / 5) := by linarith
    have hback : 0 < 3 / 4 * Real.arctan (8 / 5) := by linarith
    simp only [hmax, biggest, List.foldl_cons, List.foldl_nil, if_neg hneg, if_pos hback]
  have hmem : -Real.arctan (8 / 5) ∈ steeringRates realConfig rightTurn := by
    rw [steeringRates_rightTurn]
    exact List.mem_cons_self
  refine ⟨hvalue, hmem, fun hbounds => ?_⟩
  have hle := hbounds.rates.2 (.inr ⟨_, hmem, rfl⟩)
  rw [hvalue, abs_neg, abs_of_pos hpos] at hle
  linarith

end AutowareUniverse.Planning.Validator
