import AutowareUniverse.Common.MotionUtils
import Mathlib.Data.List.SplitBy

/-!
# Velocity filters of the motion velocity smoother

The filters decrease the velocities of a trajectory before it is smoothed: for the lateral
acceleration of its curves, and for the rate at which the wheels would have to turn.  They
are modelled without resampling.  The functions on real numbers and the constants of the
number format are parameters.
-/

namespace AutowareUniverse.Planning.MotionVelocitySmoother

section

section

open Common.MotionUtils (Point calcSquaredDistance2d clamp)

structure TrajectoryPoint (K : Type) where
  position : Point K
  longitudinalVelocityMps : K
  frontWheelAngleRad : K
  deriving DecidableEq

structure RealFunctions (K : Type) where
  sqrt : K → K
  atan : K → K
  pi : K
  /-- The distance from 1 to the next number. -/
  epsilon : K

structure BaseParam (K : Type) where
  maxAccel : K
  minJerk : K
  maxLateralAccel : K
  minDecelForLateralAccLimFilter : K
  minCurveVelocity : K
  decelDistanceBeforeCurve : K
  decelDistanceAfterCurve : K
  maxSteeringAngleRate : K
  wheelBase : K
  curvatureThreshold : K
  curvatureCalculationDistance : K

structure LatAccParam (K : Type) where
  enableConstantVelocityWhileTurning : Bool
  constantVelocityDistThreshold : K

variable {K : Type} [Field K] [LinearOrder K] (real : RealFunctions K)

def calcDistance2d (p1 p2 : Point K) : K := real.sqrt (calcSquaredDistance2d p1 p2)

/-- The curvature of the circle through three points that are not too close. -/
def calcCurvature (p1 p2 p3 : Point K) : Option K :=
  let denominator :=
    calcDistance2d real p1 p2 * calcDistance2d real p2 p3 * calcDistance2d real p3 p1
  if |denominator| < 1 / 10000000000 then none
  else some (2 * ((p2.x - p1.x) * (p3.y - p1.y) - (p2.y - p1.y) * (p3.x - p1.x)) / denominator)

section

variable (positions : ℕ → Point K) (size idxDist : ℕ)

/-- `k_arr.at(i)` after the loop up to that index. -/
def curvatureAt : ℕ → K
  | 0 => 0
  | i + 1 =>
    let p0 := positions (i + 1 - min idxDist (i + 1))
    let p2 := positions (i + 1 + min idxDist (size - 1 - (i + 1)))
    match calcCurvature real p0 (positions (i + 1)) p2 with
    | some curvature => curvature
    | none => if 1 < i + 1 then curvatureAt i else 0

end

def calcTrajectoryCurvatureFrom3Points (trajectory : List (TrajectoryPoint K)) (idxDist : ℕ) :
    List K :=
  let size := trajectory.length
  if size < 3 then List.replicate size 0
  else
    let idxDist := max 1 (min idxDist ((size - 1) / 2))
    let positions := fun i => (trajectory[i]?.map (·.position)).getD ⟨0, 0, 0⟩
    (List.range size).map fun i =>
      -- the curvatures at the ends are copied from their neighbours
      curvatureAt real positions size idxDist (max 1 (min i (size - 2)))

/-! ## Lateral acceleration -/

/-- The greatest absolute curvature of some indices, unless one of them is out of range. -/
def maxCurvature (curvatures : List K) (start stop : ℕ) : Option K :=
  (List.range' start (stop - start)).foldlM
    (fun curvature j => (curvatures[j]?).map fun other => max curvature |other|) 0

def curveVelocity (param : BaseParam K) (curvature : K) : K :=
  max (real.sqrt (|param.maxLateralAccel| / max curvature (1 / 100000))) param.minCurveVelocity

def limitVelocity (limit : K) (point : TrajectoryPoint K) : TrajectoryPoint K :=
  if limit < point.longitudinalVelocityMps then { point with longitudinalVelocityMps := limit }
  else point

def integV (v0 a0 j0 t : K) : K := v0 + a0 * t + 1 / 2 * j0 * t * t

def integA (a0 j0 t : K) : K := a0 + j0 * t

def calcTrajectoryIntervalDistance : List (TrajectoryPoint K) → List K
  | point :: next :: points =>
    calcDistance2d real next.position point.position ::
      calcTrajectoryIntervalDistance (next :: points)
  | _ => []

def velocityProfile (jerk accMax accMin : K) : K → K → List K → List K
  | _, _, [] => []
  | currV, currA, interval :: intervals =>
    let t := interval / max currV (1 / 100000)
    let nextV := integV currV currA jerk t
    nextV :: velocityProfile jerk accMax accMin nextV (clamp (integA currA jerk t) accMin accMax)
      intervals

def calcVelocityProfileWithConstantJerkAndAccelerationLimit (trajectory : List (TrajectoryPoint K))
    (v0 a0 jerk accMax accMin : K) : List K :=
  if trajectory.isEmpty then []
  else v0 :: velocityProfile jerk accMax accMin v0 a0 (calcTrajectoryIntervalDistance real trajectory)

section

variable [FloorRing K] (param : BaseParam K) (pointsInterval : K)

def roundedIndex (distance : K) : ℕ := (round (distance / pointsInterval)).toNat

def idxDistOf (distance : K) : ℕ := (max ⌊distance / pointsInterval⌋ 1).toNat

namespace SmootherBase

def lateralLoop (size : ℕ) (curvatures : List K) (latAccMinVelArr : Option (List K)) :
    ℕ → List (TrajectoryPoint K) → List (TrajectoryPoint K)
  | _, [] => []
  | i, point :: points =>
    let before := roundedIndex pointsInterval param.decelDistanceBeforeCurve
    let after := roundedIndex pointsInterval param.decelDistanceAfterCurve
    let start := if after < i then i - after else 0
    let stop := min size (i + before + 1)
    match maxCurvature curvatures start stop with
    | none => point :: points
    | some curvature =>
      let vCurvatureMax := curveVelocity real param curvature
      match latAccMinVelArr with
      | none =>
        limitVelocity vCurvatureMax point ::
          lateralLoop size curvatures latAccMinVelArr (i + 1) points
      | some velocities =>
        match velocities[i]? with
        | none => point :: points
        | some velocity =>
          limitVelocity (max vCurvatureMax velocity) point ::
            lateralLoop size curvatures latAccMinVelArr (i + 1) points

def applyLateralAccelerationFilter (input : List (TrajectoryPoint K)) (v0 a0 : K)
    (enableSmoothLimit : Bool) : List (TrajectoryPoint K) :=
  if input.length < 3 then input
  else
    let curvatures := calcTrajectoryCurvatureFrom3Points real input (idxDistOf pointsInterval 5)
    let latAccMinVelArr :=
      if enableSmoothLimit then
        some (calcVelocityProfileWithConstantJerkAndAccelerationLimit real input v0 a0
          param.minJerk param.maxAccel param.minDecelForLateralAccLimFilter)
      else none
    lateralLoop real param pointsInterval input.length curvatures latAccMinVelArr 0 input

end SmootherBase

namespace AnalyticalJerkConstrainedSmoother

variable (latAcc : LatAccParam K)

/-- The velocity for the curvatures around an index, if all of them are there. -/
def curveLimit (curvatures : List K) (size i : ℕ) : Option K :=
  let before := roundedIndex pointsInterval param.decelDistanceBeforeCurve
  let after := roundedIndex pointsInterval param.decelDistanceAfterCurve
  let start := if before < i then i - before else 0
  let stop := min size (i + after)
  (maxCurvature curvatures start stop).map (curveVelocity real param)

/-- The ranges of filtered points that are close to one another, after the first point. -/
def rangesLoop (isClose : ℕ → ℕ → Bool) (velocity : ℕ → K) :
    ℕ × ℕ × K → List (ℕ × ℕ × K) → List ℕ → List (ℕ × ℕ × K)
  | range, ranges, [] => ranges ++ [range]
  | (startIndex, endIndex, minVelocity), ranges, index :: indices =>
    if isClose endIndex index then
      rangesLoop isClose velocity (startIndex, index, min (velocity index) minVelocity) ranges
        indices
    else
      rangesLoop isClose velocity (index, index, velocity index)
        (ranges ++ [(startIndex, endIndex, minVelocity)]) indices

/-- `latacc_filtered_ranges`. -/
def filteredRanges (isClose : ℕ → ℕ → Bool) (velocity : ℕ → K) : List ℕ → List (ℕ × ℕ × K)
  | [] => []
  | index :: indices => rangesLoop isClose velocity (index, index, velocity index) [] indices

def constantVelocity (ranges : List (ℕ × ℕ × K)) (i : ℕ) (point : TrajectoryPoint K) :
    TrajectoryPoint K :=
  match ranges.find? fun range => decide (range.1 ≤ i ∧ i ≤ range.2.1) with
  | some range =>
    if latAcc.enableConstantVelocityWhileTurning then
      { point with longitudinalVelocityMps := range.2.2 }
    else point
  | none => point

/-- `none` stands for an access out of range. -/
def applyLateralAccelerationFilter (input : List (TrajectoryPoint K)) :
    Option (List (TrajectoryPoint K)) := do
  if input.length < 3 then return input
  let curvatures := calcTrajectoryCurvatureFrom3Points real input (idxDistOf pointsInterval 5)
  let limits ← (List.range input.length).mapM
    (curveLimit real param pointsInterval curvatures input.length)
  let output := (limits.zip input).map fun limited => limitVelocity limited.1 limited.2
  let filteredPoints := (List.range input.length).filter fun i =>
    match limits[i]?, input[i]? with
    | some limit, some point => limit < point.longitudinalVelocityMps
    | _, _ => false
  let positions := fun i => (output[i]?.map (·.position)).getD ⟨0, 0, 0⟩
  let velocity := fun i => (output[i]?.map (·.longitudinalVelocityMps)).getD 0
  let isClose := fun i j =>
    decide (calcDistance2d real (positions i) (positions j) < latAcc.constantVelocityDistThreshold)
  let ranges := filteredRanges isClose velocity filteredPoints
  return output.mapIdx (constantVelocity latAcc ranges)

end AnalyticalJerkConstrainedSmoother

end

/-! ## Steering rate -/

/-- The quotient of a number that is not negative and one that may be zero. -/
inductive Quotient (K : Type) where
  | finite (value : K)
  | infinite
  | notANumber
  deriving DecidableEq

namespace Quotient

def divide (a b : K) : Quotient K :=
  if b = 0 then if 0 < a then .infinite else .notANumber else .finite (a / b)

/-- `std::max` with the quotient as its first argument. -/
def atLeast (lower : K) : Quotient K → Quotient K
  | finite value => .finite (max value lower)
  | infinite => .infinite
  | notANumber => .notANumber

/-- `>`. -/
def exceeds : Quotient K → Quotient K → Bool
  | finite value, finite other => decide (other < value)
  | infinite, finite _ => true
  | _, _ => false

def divideInto (a : K) : Quotient K → K
  | finite value => a / value
  | _ => 0

end Quotient

namespace SmootherBase

variable (param : BaseParam K) (pointsInterval : K)

def deg2rad (deg : K) : K := deg * real.pi / 180

/-- The time that the wheels need to turn from one angle to another. -/
def dtSteering (angle other : K) : Quotient K :=
  .divide |angle - other| (deg2rad real param.maxSteeringAngleRate)

/-- The inner loop, for one of the two points. -/
def rescaleVelocity (targetMeanVel meanVel : K) (point : TrajectoryPoint K) : TrajectoryPoint K :=
  let velocity := point.longitudinalVelocityMps
  let tempVel := velocity * (targetMeanVel / meanVel)
  let velocity :=
    if tempVel < velocity then tempVel
    else if targetMeanVel < velocity then targetMeanVel
    else velocity
  { point with
    longitudinalVelocityMps :=
      if velocity < param.minCurveVelocity then param.minCurveVelocity else velocity }

/-- One iteration of the outer loop. -/
def limitWindow (point : TrajectoryPoint K) (curvature : K) (next : TrajectoryPoint K)
    (nextCurvature : K) : TrajectoryPoint K × TrajectoryPoint K :=
  if param.curvatureThreshold < |curvature| then
    let point := { point with frontWheelAngleRad := real.atan (param.wheelBase * curvature) }
    let next := { next with frontWheelAngleRad := real.atan (param.wheelBase * nextCurvature) }
    let meanVel := (point.longitudinalVelocityMps + next.longitudinalVelocityMps) / 2
    let dt := (Quotient.divide pointsInterval meanVel).atLeast real.epsilon
    let dtSteering := dtSteering real param point.frontWheelAngleRad next.frontWheelAngleRad
    if dtSteering.exceeds dt then
      let targetMeanVel := dtSteering.divideInto pointsInterval
      (rescaleVelocity param targetMeanVel meanVel point,
        rescaleVelocity param targetMeanVel meanVel next)
    else (point, next)
  else (point, next)

def steeringLoop : TrajectoryPoint K × K → List (TrajectoryPoint K × K) → List (TrajectoryPoint K)
  | (point, _), [] => [point]
  | (point, curvature), (next, nextCurvature) :: points =>
    let window := limitWindow real param pointsInterval point curvature next nextCurvature
    window.1 :: steeringLoop (window.2, nextCurvature) points

def applySteeringRateLimit [FloorRing K] (input : List (TrajectoryPoint K)) :
    List (TrajectoryPoint K) :=
  if input.length < 3 then input
  else
    match input.zip (calcTrajectoryCurvatureFrom3Points real input
      (idxDistOf pointsInterval param.curvatureCalculationDistance)) with
    | [] => []
    | first :: points => steeringLoop real param pointsInterval first points

end SmootherBase

end

/-!
## The steering rate limit

A window that is limited scales both of its velocities by one factor below 1, and then lifts
them to the minimum velocity of curves.  A velocity is therefore raised exactly if it is
below that minimum in a limited window; later windows do not undo it.
-/

variable {K : Type} [Field K] [LinearOrder K] {real : RealFunctions K} {param : BaseParam K}
  {pointsInterval : K}

/-- The filtered velocity is not higher, and zero if the velocity is that of a stop point. -/
def Keeps (output input : K) : Prop :=
  output ≤ input ∧ (input = 0 → output = 0)

theorem keeps_iff {output input : K} (hnonneg : 0 ≤ output) :
    Keeps output input ↔ output ≤ input := by
  constructor
  · exact And.left
  · intro hle
    exact ⟨hle, fun hstop => le_antisymm (hle.trans_eq hstop) hnonneg⟩

/-- Trajectories that are not filtered are kept. -/
theorem forall₂_keeps_self (list : List K) : List.Forall₂ Keeps list list :=
  List.forall₂_same.mpr fun _ _ => ⟨le_rfl, id⟩

def velocities (trajectory : List (TrajectoryPoint K)) : List K :=
  trajectory.map (·.longitudinalVelocityMps)

namespace SmootherBase

/-- The wheels need more time for a window than the vehicle. -/
def WindowLimited (real : RealFunctions K) (param : BaseParam K) (pointsInterval : K)
    (point : TrajectoryPoint K) (curvature : K) (next : TrajectoryPoint K) (nextCurvature : K) :
    Prop :=
  param.curvatureThreshold < |curvature| ∧
    (dtSteering real param (real.atan (param.wheelBase * curvature))
      (real.atan (param.wheelBase * nextCurvature))).exceeds
      ((Quotient.divide pointsInterval
        ((point.longitudinalVelocityMps + next.longitudinalVelocityMps) / 2)).atLeast
        real.epsilon) = true

/-- No limited window has a velocity below the minimum velocity of curves. -/
def WindowsKeep (real : RealFunctions K) (param : BaseParam K) (pointsInterval : K) :
    TrajectoryPoint K × K → List (TrajectoryPoint K × K) → Prop
  | _, [] => True
  | (point, curvature), (next, nextCurvature) :: points =>
    (WindowLimited real param pointsInterval point curvature next nextCurvature →
      param.minCurveVelocity ≤ point.longitudinalVelocityMps ∧
        param.minCurveVelocity ≤ next.longitudinalVelocityMps) ∧
    WindowsKeep real param pointsInterval
      ((limitWindow real param pointsInterval point curvature next nextCurvature).2,
        nextCurvature) points

variable [IsStrictOrderedRing K]

/-- The mean velocity that is aimed at is a part of the mean velocity. -/
theorem divideInto_div_lt_one {meanVel : K} (hinterval : 0 < pointsInterval)
    (hepsilon : 0 < real.epsilon) (hmean : 0 ≤ meanVel) {time : Quotient K}
    (hexceeds : time.exceeds ((Quotient.divide pointsInterval meanVel).atLeast real.epsilon)) :
    0 ≤ time.divideInto pointsInterval ∧ 0 < meanVel ∧
      time.divideInto pointsInterval / meanVel < 1 := by
  rcases hmean.eq_or_lt with hzero | hpos
  · rw [← hzero, Quotient.divide, if_pos rfl, if_pos hinterval] at hexceeds
    cases time <;> simp [Quotient.atLeast, Quotient.exceeds] at hexceeds
  rw [Quotient.divide, if_neg hpos.ne'] at hexceeds
  cases time with
  | finite value =>
    have hlt : max (pointsInterval / meanVel) real.epsilon < value := of_decide_eq_true hexceeds
    have hvalue : 0 < value := hepsilon.trans ((le_max_right _ _).trans_lt hlt)
    have hless := (le_max_left _ _).trans_lt hlt
    refine ⟨div_nonneg hinterval.le hvalue.le, hpos, ?_⟩
    rw [Quotient.divideInto, div_div, div_lt_one (mul_pos hvalue hpos)]
    exact (div_lt_iff₀ hpos).mp hless
  | infinite =>
    refine ⟨le_refl 0, hpos, ?_⟩
    change 0 / meanVel < 1
    rw [zero_div]
    exact zero_lt_one
  | notANumber => cases hexceeds

variable {point : TrajectoryPoint K}

theorem rescaleVelocity_eq {targetMeanVel meanVel : K} (htarget : 0 ≤ targetMeanVel)
    (hratio : targetMeanVel / meanVel < 1) (hnonneg : 0 ≤ point.longitudinalVelocityMps) :
    (rescaleVelocity param targetMeanVel meanVel point).longitudinalVelocityMps =
      max (point.longitudinalVelocityMps * (targetMeanVel / meanVel)) param.minCurveVelocity := by
  have hscaled : (if point.longitudinalVelocityMps * (targetMeanVel / meanVel) <
        point.longitudinalVelocityMps then
      point.longitudinalVelocityMps * (targetMeanVel / meanVel)
      else if targetMeanVel < point.longitudinalVelocityMps then targetMeanVel
      else point.longitudinalVelocityMps) =
      point.longitudinalVelocityMps * (targetMeanVel / meanVel) := by
    rcases hnonneg.eq_or_lt with hzero | hpos
    · rw [← hzero, zero_mul, if_neg (lt_irrefl _), if_neg (not_lt.mpr htarget)]
    · rw [if_pos (mul_lt_of_lt_one_right hpos hratio)]
  rw [rescaleVelocity]
  dsimp only
  rw [hscaled, max_def_lt]

section

variable {point next : TrajectoryPoint K} {curvature nextCurvature : K}
  {window : TrajectoryPoint K × TrajectoryPoint K}
  (hwindow : limitWindow real param pointsInterval point curvature next nextCurvature = window)

include hwindow

omit [IsStrictOrderedRing K] in
theorem limitWindow_other
    (hother : ¬ WindowLimited real param pointsInterval point curvature next nextCurvature) :
    window.1.longitudinalVelocityMps = point.longitudinalVelocityMps ∧
      window.2.longitudinalVelocityMps = next.longitudinalVelocityMps := by
  subst hwindow
  rw [limitWindow]
  by_cases hcurve : param.curvatureThreshold < |curvature|
  · rw [if_pos hcurve]
    dsimp only
    split
    · next hexceeds => exact absurd ⟨hcurve, hexceeds⟩ hother
    · exact ⟨rfl, rfl⟩
  · rw [if_neg hcurve]
    exact ⟨rfl, rfl⟩

theorem limitWindow_limited (hinterval : 0 < pointsInterval) (hepsilon : 0 < real.epsilon)
    (hpoint : 0 ≤ point.longitudinalVelocityMps) (hnext : 0 ≤ next.longitudinalVelocityMps)
    (hlimited : WindowLimited real param pointsInterval point curvature next nextCurvature) :
    ∃ ratio, 0 ≤ ratio ∧ ratio < 1 ∧ window.1.longitudinalVelocityMps =
        max (point.longitudinalVelocityMps * ratio) param.minCurveVelocity ∧
      window.2.longitudinalVelocityMps =
        max (next.longitudinalVelocityMps * ratio) param.minCurveVelocity := by
  subst hwindow
  obtain ⟨hcurve, hexceeds⟩ := hlimited
  obtain ⟨htarget, hmean, hratio⟩ := divideInto_div_lt_one hinterval hepsilon
    (div_nonneg (add_nonneg hpoint hnext) zero_le_two) hexceeds
  refine ⟨_, div_nonneg htarget hmean.le, hratio, ?_⟩
  rw [limitWindow, if_pos hcurve]
  dsimp only
  rw [if_pos hexceeds]
  exact ⟨rescaleVelocity_eq htarget hratio hpoint, rescaleVelocity_eq htarget hratio hnext⟩

end

/-- A scaled velocity that is lifted is not higher if the lift is not. -/
theorem max_mul_le_iff {velocity ratio lift : K} (hvelocity : 0 ≤ velocity) (hratio : ratio < 1) :
    max (velocity * ratio) lift ≤ velocity ↔ lift ≤ velocity := by
  have hscaled : velocity * ratio ≤ velocity := mul_le_of_le_one_right hvelocity hratio.le
  rw [max_le_iff]
  exact ⟨And.right, fun hlift => ⟨hscaled, hlift⟩⟩

/-! ## Runs -/

theorem steeringLoop_head (hinterval : 0 < pointsInterval) (hepsilon : 0 < real.epsilon)
    {curvature : K} {points : List (TrajectoryPoint K × K)}
    (hpoint : 0 ≤ point.longitudinalVelocityMps)
    (hpoints : ∀ next ∈ points, 0 ≤ next.1.longitudinalVelocityMps)
    (hmin : param.minCurveVelocity ≤ point.longitudinalVelocityMps) :
    ∃ output outputs, steeringLoop real param pointsInterval (point, curvature) points =
      output :: outputs ∧ param.minCurveVelocity ≤ output.longitudinalVelocityMps := by
  cases points with
  | nil => exact ⟨point, [], rfl, hmin⟩
  | cons next points =>
    refine ⟨_, _, rfl, ?_⟩
    by_cases hlimited : WindowLimited real param pointsInterval point curvature next.1 next.2
    · obtain ⟨ratio, -, -, hfirst, -⟩ := limitWindow_limited rfl hinterval hepsilon hpoint
        (hpoints next List.mem_cons_self) hlimited
      exact (le_max_right _ _).trans_eq hfirst.symm
    · exact hmin.trans_eq (limitWindow_other rfl hlimited).1.symm

theorem steeringLoop_keeps_iff (hinterval : 0 < pointsInterval) (hepsilon : 0 < real.epsilon)
    {curvature velocity : K} {points : List (TrajectoryPoint K × K)}
    (hpoint : 0 ≤ point.longitudinalVelocityMps)
    (hpoints : ∀ next ∈ points, 0 ≤ next.1.longitudinalVelocityMps)
    (hreduced : point.longitudinalVelocityMps ≤ velocity)
    (hsame : point.longitudinalVelocityMps = velocity ∨
      param.minCurveVelocity ≤ point.longitudinalVelocityMps) :
    List.Forall₂ Keeps
        (velocities (steeringLoop real param pointsInterval (point, curvature) points))
        (velocity :: velocities (points.map Prod.fst)) ↔
      WindowsKeep real param pointsInterval (point, curvature) points := by
  induction points generalizing point curvature velocity with
  | nil =>
    refine iff_of_true (List.Forall₂.cons ?_ List.Forall₂.nil) trivial
    exact (keeps_iff hpoint).mpr hreduced
  | cons nextPoint points ih =>
    obtain ⟨next, nextCurvature⟩ := nextPoint
    have hnext : 0 ≤ next.longitudinalVelocityMps := hpoints _ List.mem_cons_self
    have htail : ∀ other ∈ points, 0 ≤ other.1.longitudinalVelocityMps :=
      fun other hother => hpoints other (List.mem_cons_of_mem _ hother)
    rw [WindowsKeep, steeringLoop, velocities, List.map_cons, List.map_cons, velocities,
      List.map_cons, List.forall₂_cons]
    generalize hwindow : limitWindow real param pointsInterval point curvature next
      nextCurvature = window
    by_cases hlimited : WindowLimited real param pointsInterval point curvature next nextCurvature
    · obtain ⟨ratio, hratio, hless, hfirst, hsecond⟩ :=
        limitWindow_limited hwindow hinterval hepsilon hpoint hnext hlimited
      have hfirstNonneg : 0 ≤ window.1.longitudinalVelocityMps :=
        (mul_nonneg hpoint hratio).trans ((le_max_left _ _).trans_eq hfirst.symm)
      have hsecondNonneg : 0 ≤ window.2.longitudinalVelocityMps :=
        (mul_nonneg hnext hratio).trans ((le_max_left _ _).trans_eq hsecond.symm)
      have hlifted : param.minCurveVelocity ≤ window.2.longitudinalVelocityMps :=
        (le_max_right _ _).trans_eq hsecond.symm
      by_cases hpointMin : param.minCurveVelocity ≤ point.longitudinalVelocityMps
      · by_cases hnextMin : param.minCurveVelocity ≤ next.longitudinalVelocityMps
        · have hkept : Keeps window.1.longitudinalVelocityMps velocity := by
            rw [keeps_iff hfirstNonneg, hfirst]
            exact ((max_mul_le_iff hpoint hless).mpr hpointMin).trans hreduced
          have hsecondLe : window.2.longitudinalVelocityMps ≤ next.longitudinalVelocityMps := by
            rw [hsecond]
            exact (max_mul_le_iff hnext hless).mpr hnextMin
          rw [and_iff_right hkept, and_iff_right fun _ => ⟨hpointMin, hnextMin⟩]
          exact ih hsecondNonneg htail hsecondLe (Or.inr hlifted)
        · -- the next point leaves the loop at the minimum or above it
          refine iff_of_false ?_ fun hkeeps => hnextMin (hkeeps.1 hlimited).2
          rintro ⟨-, htailKeeps⟩
          obtain ⟨output, outputs, houtputs, hhead⟩ := steeringLoop_head hinterval
            hepsilon hsecondNonneg htail hlifted
          rw [houtputs, List.map_cons, List.forall₂_cons] at htailKeeps
          exact hnextMin (hhead.trans htailKeeps.1.1)
      · refine iff_of_false ?_ fun hkeeps => hpointMin (hkeeps.1 hlimited).1
        rintro ⟨hkept, -⟩
        have hvelocity := hsame.resolve_right hpointMin
        have hle := hkept.1.trans_eq hvelocity.symm
        rw [hfirst, max_mul_le_iff hpoint hless] at hle
        exact hpointMin hle
    · obtain ⟨hfirst, hsecond⟩ := limitWindow_other hwindow hlimited
      have hkept : Keeps window.1.longitudinalVelocityMps velocity := by
        rw [hfirst, keeps_iff hpoint]
        exact hreduced
      rw [and_iff_right hkept, and_iff_right fun hlim => absurd hlim hlimited]
      exact ih (hnext.trans_eq hsecond.symm) htail hsecond.le (Or.inl hsecond)

variable [FloorRing K]

def curvedPoints (real : RealFunctions K) (param : BaseParam K) (pointsInterval : K)
    (input : List (TrajectoryPoint K)) : List (TrajectoryPoint K × K) :=
  input.zip (calcTrajectoryCurvatureFrom3Points real input
    (idxDistOf pointsInterval param.curvatureCalculationDistance))

def SteeringKeeps (real : RealFunctions K) (param : BaseParam K) (pointsInterval : K)
    (input : List (TrajectoryPoint K)) : Prop :=
  3 ≤ input.length → ∀ first points, curvedPoints real param pointsInterval input = first :: points →
    WindowsKeep real param pointsInterval first points

omit [IsStrictOrderedRing K] [FloorRing K] in
theorem length_calcTrajectoryCurvatureFrom3Points (trajectory : List (TrajectoryPoint K))
    (idxDist : ℕ) :
    (calcTrajectoryCurvatureFrom3Points real trajectory idxDist).length = trajectory.length := by
  rw [calcTrajectoryCurvatureFrom3Points]
  split
  · rw [List.length_replicate]
  · rw [List.length_map, List.length_range]

omit [IsStrictOrderedRing K] in
theorem map_fst_curvedPoints (input : List (TrajectoryPoint K)) :
    (curvedPoints real param pointsInterval input).map Prod.fst = input := by
  refine List.map_fst_zip ?_
  rw [length_calcTrajectoryCurvatureFrom3Points]

theorem applySteeringRateLimit_keeps_iff (hinterval : 0 < pointsInterval)
    (hepsilon : 0 < real.epsilon) {input : List (TrajectoryPoint K)}
    (hinput : ∀ point ∈ input, 0 ≤ point.longitudinalVelocityMps) :
    List.Forall₂ Keeps (velocities (applySteeringRateLimit real param pointsInterval input))
        (velocities input) ↔
      SteeringKeeps real param pointsInterval input := by
  rw [applySteeringRateLimit, SteeringKeeps]
  split
  · next hshort =>
      exact iff_of_true (forall₂_keeps_self _) fun hlong => absurd hlong hshort.not_ge
  · next hlong =>
      have hfst : (curvedPoints real param pointsInterval input).map Prod.fst = input :=
        map_fst_curvedPoints input
      rw [imp_iff_right (not_lt.mp hlong)]
      change List.Forall₂ Keeps (velocities (match curvedPoints real param pointsInterval input with
        | [] => []
        | first :: points => steeringLoop real param pointsInterval first points)) _ ↔ _
      cases hcurved : curvedPoints real param pointsInterval input with
      | nil =>
        rw [hcurved, List.map_nil] at hfst
        subst hfst
        exact iff_of_true List.Forall₂.nil fun _ _ hcons => absurd hcons.symm (List.cons_ne_nil _ _)
      | cons first points =>
        rw [hcurved, List.map_cons] at hfst
        subst hfst
        have hpoints : ∀ next ∈ points, 0 ≤ next.1.longitudinalVelocityMps :=
          fun next hnext => hinput _ (List.mem_cons_of_mem _ (List.mem_map_of_mem hnext))
        refine (steeringLoop_keeps_iff hinterval hepsilon (hinput _ List.mem_cons_self) hpoints
          le_rfl (Or.inl rfl)).trans ⟨?_, fun hall => hall _ _ rfl⟩
        rintro hwindows _ _ ⟨⟩
        exact hwindows

end SmootherBase

end

/-!
## The lateral acceleration limits

A limit for a curve is never negative, and a velocity above its limit is lowered to it.  The
analytical smoother then gives all points of a turn one velocity, the lowest limit of the
turn, and so raises each slower point between two filtered ones.
-/

variable {K : Type} [Field K] [LinearOrder K] {real : RealFunctions K} {param : BaseParam K}
  {pointsInterval : K} {input : List (TrajectoryPoint K)}

/-- Filters that change the points one by one. -/
theorem forall₂_keeps_mapIdx_iff {filter : ℕ → TrajectoryPoint K → TrajectoryPoint K} :
    List.Forall₂ Keeps (velocities (input.mapIdx filter)) (velocities input) ↔
      ∀ i point, input[i]? = some point →
        Keeps (filter i point).longitudinalVelocityMps point.longitudinalVelocityMps := by
  induction input generalizing filter with
  | nil => exact iff_of_true List.Forall₂.nil fun _ _ hpoint => by cases hpoint
  | cons first points ih =>
    rw [List.mapIdx_cons, velocities, velocities, List.map_cons, List.map_cons, List.forall₂_cons]
    refine (and_congr_right' ih).trans ?_
    constructor
    · rintro ⟨hfirst, hpoints⟩ i point hpoint
      cases i with
      | zero =>
        cases hpoint
        exact hfirst
      | succ i => exact hpoints i point hpoint
    · intro hall
      exact ⟨hall 0 first rfl, fun i point hpoint => hall (i + 1) point hpoint⟩

theorem limitVelocity_keeps {limit : K} (hlimit : 0 ≤ limit) (point : TrajectoryPoint K) :
    Keeps (limitVelocity limit point).longitudinalVelocityMps point.longitudinalVelocityMps := by
  rw [limitVelocity]
  split
  · next hover => exact (keeps_iff hlimit).mpr hover.le
  · exact ⟨le_rfl, id⟩

theorem curveVelocity_nonneg (hsqrt : ∀ value, 0 ≤ real.sqrt value) (curvature : K) :
    0 ≤ curveVelocity real param curvature :=
  (hsqrt _).trans (le_max_left _ _)

theorem maxCurvature_succeeds {curvatures : List K} {start stop : ℕ}
    (hstop : stop ≤ curvatures.length) :
    ∃ curvature, maxCurvature curvatures start stop = some curvature := by
  have hfold : ∀ (indices : List ℕ) (curvature : K), (∀ j ∈ indices, j < curvatures.length) →
      ∃ result, indices.foldlM
        (fun curvature j => (curvatures[j]?).map fun other => max curvature |other|) curvature =
          some result := by
    intro indices
    induction indices with
    | nil => exact fun curvature _ => ⟨curvature, rfl⟩
    | cons j indices ih =>
      intro curvature hindices
      rw [List.foldlM_cons, List.getElem?_eq_getElem (hindices j List.mem_cons_self)]
      exact ih _ fun k hk => hindices k (List.mem_cons_of_mem _ hk)
  refine hfold _ 0 fun j hj => ?_
  rw [List.mem_range'_1] at hj
  omega

namespace SmootherBase

variable [FloorRing K]

theorem lateralLoop_keeps (hsqrt : ∀ value, 0 ≤ real.sqrt value) (size : ℕ) (curvatures : List K)
    (latAccMinVelArr : Option (List K)) (i : ℕ) (points : List (TrajectoryPoint K)) :
    List.Forall₂ Keeps
      (velocities (lateralLoop real param pointsInterval size curvatures latAccMinVelArr i points))
      (velocities points) := by
  induction points generalizing i with
  | nil => exact List.Forall₂.nil
  | cons point points ih =>
    rw [lateralLoop]
    dsimp only
    split
    · exact forall₂_keeps_self _
    · next curvature _ =>
        have hlimit : 0 ≤ curveVelocity real param curvature := curveVelocity_nonneg hsqrt _
        split
        · exact List.Forall₂.cons (limitVelocity_keeps hlimit point) (ih (i + 1))
        · split
          · exact forall₂_keeps_self _
          · exact List.Forall₂.cons
              (limitVelocity_keeps (hlimit.trans (le_max_left _ _)) point) (ih (i + 1))

theorem applyLateralAccelerationFilter_keeps (hsqrt : ∀ value, 0 ≤ real.sqrt value)
    (input : List (TrajectoryPoint K)) (v0 a0 : K) (enableSmoothLimit : Bool) :
    List.Forall₂ Keeps
      (velocities (applyLateralAccelerationFilter real param pointsInterval input v0 a0
        enableSmoothLimit))
      (velocities input) := by
  rw [applyLateralAccelerationFilter]
  split
  · exact forall₂_keeps_self _
  · exact lateralLoop_keeps hsqrt _ _ _ _ _

end SmootherBase

/-! ## Ranges -/

namespace AnalyticalJerkConstrainedSmoother

section

variable {isClose : ℕ → ℕ → Bool} {velocity : ℕ → K}

/-- The first index, the last index and the least velocity of a turn. -/
def rangeOf (velocity : ℕ → K) : List ℕ → ℕ × ℕ × K
  | [] => (0, 0, 0)
  | index :: indices =>
    indices.foldl (fun range j => (range.1, j, min (velocity j) range.2.2))
      (index, index, velocity index)

variable {turn : List ℕ}

theorem rangeOf_append (hturn : turn ≠ []) (index : ℕ) :
    rangeOf velocity (turn ++ [index]) =
      ((rangeOf velocity turn).1, index, min (velocity index) (rangeOf velocity turn).2.2) := by
  cases turn with
  | nil => exact absurd rfl hturn
  | cons first turn => rw [List.cons_append, rangeOf, List.foldl_append]; rfl

theorem rangeOf_last (turn : List ℕ) (index : ℕ) :
    (rangeOf velocity (turn ++ [index])).2.1 = index := by
  cases turn with
  | nil => rfl
  | cons first turn => rw [rangeOf_append (List.cons_ne_nil _ _)]

theorem rangesLoop_eq (indices group : List ℕ) (previous : ℕ) (groups : List (List ℕ)) :
    rangesLoop isClose velocity (rangeOf velocity (group.reverse ++ [previous]))
        (groups.reverse.map (rangeOf velocity)) indices =
      (List.splitBy.loop isClose indices previous group groups).map (rangeOf velocity) := by
  induction indices generalizing group previous groups with
  | nil =>
    rw [List.splitBy.loop, rangesLoop, List.reverse_cons, List.reverse_cons, List.map_append,
      List.map_singleton]
  | cons index indices ih =>
    have hstep : ∀ range ranges, rangesLoop isClose velocity range ranges (index :: indices) =
        if isClose range.2.1 index then
          rangesLoop isClose velocity (range.1, index, min (velocity index) range.2.2) ranges
            indices
        else rangesLoop isClose velocity (index, index, velocity index) (ranges ++ [range])
          indices := fun _ _ => rfl
    rw [hstep, rangeOf_last, List.splitBy.loop]
    cases hclose : isClose previous index with
    | true =>
      have hgroup : group.reverse ++ [previous] ≠ [] := by simp
      rw [if_pos rfl, ← rangeOf_append hgroup, ← List.reverse_cons]
      exact ih (previous :: group) index groups
    | false =>
      have hih := ih [] index ((previous :: group).reverse :: groups)
      simp only [List.reverse_cons, List.map_append, List.map_singleton] at hih ⊢
      rw [if_neg Bool.false_ne_true]
      exact hih

theorem filteredRanges_eq (indices : List ℕ) : filteredRanges isClose velocity indices =
      (indices.splitBy isClose).map (rangeOf velocity) := by
  cases indices with
  | nil => rfl
  | cons index indices => exact rangesLoop_eq indices [] index []

theorem rangeOf_velocity_le_iff (hturn : turn ≠ []) {bound : K} :
    (rangeOf velocity turn).2.2 ≤ bound ↔ ∃ j ∈ turn, velocity j ≤ bound := by
  induction turn using List.reverseRecOn with
  | nil => exact absurd rfl hturn
  | append_singleton turn index ih =>
    by_cases hrest : turn = []
    · subst hrest
      simp [rangeOf]
    · rw [rangeOf_append hrest, min_le_iff, ih hrest]
      simp only [List.mem_append, List.mem_singleton, or_and_right, exists_or, exists_eq_left]
      exact or_comm

/-- An index is between two points of a turn. -/
def Spans (turn : List ℕ) (i : ℕ) : Prop :=
  (∃ first ∈ turn, first ≤ i) ∧ ∃ last ∈ turn, i ≤ last

theorem rangeOf_first_le_iff (hturn : turn ≠ []) (hsorted : turn.Pairwise (· < ·))
    {i : ℕ} : (rangeOf velocity turn).1 ≤ i ↔ ∃ first ∈ turn, first ≤ i := by
  have hfirst : ∀ (indices : List ℕ) (range : ℕ × ℕ × K),
      (indices.foldl (fun range j => (range.1, j, min (velocity j) range.2.2)) range).1 =
        range.1 := by
    intro indices
    induction indices with
    | nil => exact fun _ => rfl
    | cons j indices ih => exact fun range => ih _
  cases turn with
  | nil => exact absurd rfl hturn
  | cons index turn =>
    rw [rangeOf, hfirst]
    constructor
    · exact fun hle => ⟨index, List.mem_cons_self, hle⟩
    · rintro ⟨first, hmem, hle⟩
      rcases List.mem_cons.mp hmem with rfl | hlater
      · exact hle
      · exact ((List.rel_of_pairwise_cons hsorted hlater).le).trans hle

theorem le_rangeOf_last_iff (hturn : turn ≠ []) (hsorted : turn.Pairwise (· < ·))
    {i : ℕ} : i ≤ (rangeOf velocity turn).2.1 ↔ ∃ last ∈ turn, i ≤ last := by
  obtain ⟨rest, index, rfl⟩ : ∃ rest index, turn = rest ++ [index] :=
    ⟨_, _, (List.dropLast_concat_getLast hturn).symm⟩
  rw [rangeOf_last]
  constructor
  · exact fun hle => ⟨index, List.mem_append_right _ (List.mem_singleton_self _), hle⟩
  · rintro ⟨last, hmem, hle⟩
    rcases List.mem_append.mp hmem with hearlier | hlast
    · have hless := (List.pairwise_append.mp hsorted).2.2 last hearlier index
        (List.mem_singleton_self _)
      exact hle.trans hless.le
    · rw [List.mem_singleton] at hlast
      exact hle.trans_eq hlast

theorem spans_iff (hturn : turn ≠ []) (hsorted : turn.Pairwise (· < ·)) {i : ℕ} :
    (rangeOf velocity turn).1 ≤ i ∧ i ≤ (rangeOf velocity turn).2.1 ↔ Spans turn i :=
  and_congr (rangeOf_first_le_iff hturn hsorted) (le_rangeOf_last_iff hturn hsorted)

theorem spans_unique {turns : List (List ℕ)} (hsorted : turns.flatten.Pairwise (· < ·)) {i : ℕ}
    {turn other : List ℕ} (hturn : turn ∈ turns) (hother : other ∈ turns) (hspans : Spans turn i)
    (hspansOther : Spans other i) : turn = other := by
  have hapart : turns.Pairwise fun turn other => Spans turn i → Spans other i → turn = other := by
    refine (List.pairwise_flatten.mp hsorted).2.imp ?_
    rintro turn other hless ⟨-, last, hlast, hle⟩ ⟨⟨first, hfirst, hge⟩, -⟩
    have := hless last hlast first hfirst
    omega
  have hsymm : Std.Symm fun turn other => Spans turn i → Spans other i → turn = other :=
    ⟨fun _ _ heq hother hturn => (heq hturn hother).symm⟩
  exact hapart.forall_of_forall (fun _ _ _ _ => rfl) hturn hother hspans hspansOther

theorem constantVelocity_cases (latAcc : LatAccParam K) {indices : List ℕ}
    (hsorted : indices.Pairwise (· < ·)) (i : ℕ) (limited : TrajectoryPoint K) :
    (constantVelocity latAcc (filteredRanges isClose velocity indices) i limited = limited ∧
      (latAcc.enableConstantVelocityWhileTurning = true →
        ∀ turn ∈ indices.splitBy isClose, ¬ Spans turn i)) ∨
    ∃ turn ∈ indices.splitBy isClose, latAcc.enableConstantVelocityWhileTurning = true ∧
      Spans turn i ∧ (∀ other ∈ indices.splitBy isClose, Spans other i → other = turn) ∧
      (constantVelocity latAcc (filteredRanges isClose velocity indices) i
        limited).longitudinalVelocityMps = (rangeOf velocity turn).2.2 := by
  have hflatten : (indices.splitBy isClose).flatten.Pairwise (· < ·) := by
    rwa [List.flatten_splitBy]
  have hspans : ∀ turn ∈ indices.splitBy isClose,
      ((rangeOf velocity turn).1 ≤ i ∧ i ≤ (rangeOf velocity turn).2.1 ↔ Spans turn i) :=
    fun turn hturn => spans_iff (List.ne_nil_of_mem_splitBy hturn)
      ((List.pairwise_flatten.mp hflatten).1 turn hturn)
  rw [constantVelocity, filteredRanges_eq, List.find?_map]
  cases hfind : (indices.splitBy isClose).find?
      ((fun range => decide (range.1 ≤ i ∧ i ≤ range.2.1)) ∘ rangeOf velocity) with
  | none =>
    refine .inl ⟨rfl, fun _ turn hturn hspan => ?_⟩
    have hnone := List.find?_eq_none.mp hfind turn hturn
    exact absurd (decide_eq_true ((hspans turn hturn).mpr hspan)) hnone
  | some turn =>
    have hturn : turn ∈ indices.splitBy isClose := List.mem_of_find?_eq_some hfind
    have hhit := List.find?_some hfind
    have hspan : Spans turn i := (hspans turn hturn).mp (of_decide_eq_true hhit)
    simp only [Option.map_some]
    cases henable : latAcc.enableConstantVelocityWhileTurning with
    | false =>
      refine .inl ⟨if_neg Bool.false_ne_true, ?_⟩
      exact fun htrue => absurd htrue Bool.false_ne_true
    | true =>
      refine .inr ⟨turn, hturn, rfl, hspan, fun other hother hspanOther => ?_, ?_⟩
      · exact spans_unique hflatten hother hturn hspanOther hspan
      · rw [if_pos rfl]

theorem constantVelocity_keeps_iff {latAcc : LatAccParam K} {indices : List ℕ}
    (hsorted : indices.Pairwise (· < ·)) {i : ℕ} {input limited : TrajectoryPoint K}
    (hlimited : Keeps limited.longitudinalVelocityMps input.longitudinalVelocityMps)
    (hnonneg : ∀ j ∈ indices, 0 ≤ velocity j) :
    Keeps (constantVelocity latAcc (filteredRanges isClose velocity indices) i
        limited).longitudinalVelocityMps input.longitudinalVelocityMps ↔
      (latAcc.enableConstantVelocityWhileTurning = true →
        ∀ turn ∈ indices.splitBy isClose, Spans turn i →
          ∃ j ∈ turn, velocity j ≤ input.longitudinalVelocityMps) := by
  obtain ⟨hown, hnone⟩ | ⟨turn, hturn, henable, hspan, hunique, hvelocity⟩ :=
    constantVelocity_cases latAcc hsorted i limited
  · rw [hown]
    exact iff_of_true hlimited fun henable turn hturn hspan =>
      absurd hspan (hnone henable turn hturn)
  · have hne : turn ≠ [] := List.ne_nil_of_mem_splitBy hturn
    have hlowest : 0 ≤ (rangeOf velocity turn).2.2 := by
      obtain ⟨j, hj, hle⟩ := (rangeOf_velocity_le_iff hne).mp (le_refl (rangeOf velocity turn).2.2)
      have hmem : j ∈ indices := by
        rw [← List.flatten_splitBy isClose indices]
        exact List.mem_flatten.mpr ⟨turn, hturn, hj⟩
      exact (hnonneg j hmem).trans hle
    rw [hvelocity, keeps_iff hlowest, rangeOf_velocity_le_iff hne, imp_iff_right henable]
    constructor
    · intro hle other hother hspanOther
      rwa [hunique other hother hspanOther]
    · exact fun hall => hall turn hturn hspan

end

/-! ## The filter -/

variable [FloorRing K] {latAcc : LatAccParam K}

section

variable (real : RealFunctions K)

/-- The limit for the curvatures around an index. -/
def limitAt (param : BaseParam K) (pointsInterval : K)
    (input : List (TrajectoryPoint K)) (i : ℕ) : K :=
  (curveLimit real param pointsInterval
    (calcTrajectoryCurvatureFrom3Points real input (idxDistOf pointsInterval 5)) input.length
    i).getD 0

/-- The points above their limits. -/
def filteredPoints (param : BaseParam K) (pointsInterval : K)
    (input : List (TrajectoryPoint K)) : List ℕ :=
  (List.range input.length).filter fun i =>
    match input[i]? with
    | some point => limitAt real param pointsInterval input i < point.longitudinalVelocityMps
    | none => false

def isClose (latAcc : LatAccParam K) (input : List (TrajectoryPoint K))
    (i j : ℕ) : Bool :=
  let positions := fun i => (input[i]?.map (·.position)).getD ⟨0, 0, 0⟩
  decide (calcDistance2d real (positions i) (positions j) < latAcc.constantVelocityDistThreshold)

def turns (param : BaseParam K) (latAcc : LatAccParam K)
    (pointsInterval : K) (input : List (TrajectoryPoint K)) : List (List ℕ) :=
  (filteredPoints real param pointsInterval input).splitBy (isClose real latAcc input)

def TurnsKeep (param : BaseParam K) (latAcc : LatAccParam K)
    (pointsInterval : K) (input : List (TrajectoryPoint K)) : Prop :=
  3 ≤ input.length → latAcc.enableConstantVelocityWhileTurning = true →
    ∀ i point, input[i]? = some point →
      ∀ turn ∈ turns real param latAcc pointsInterval input, Spans turn i →
        ∃ j ∈ turn, limitAt real param pointsInterval input j ≤ point.longitudinalVelocityMps

def limitedPoints (param : BaseParam K) (pointsInterval : K)
    (input : List (TrajectoryPoint K)) : List (TrajectoryPoint K) :=
  input.mapIdx fun i point => limitVelocity (limitAt real param pointsInterval input i) point

end

/-- No index is out of range. -/
theorem curveLimit_eq (input : List (TrajectoryPoint K)) (i : ℕ) :
    curveLimit real param pointsInterval
        (calcTrajectoryCurvatureFrom3Points real input (idxDistOf pointsInterval 5)) input.length i =
      some (limitAt real param pointsInterval input i) := by
  rw [limitAt]
  have hlength : (calcTrajectoryCurvatureFrom3Points real input
      (idxDistOf pointsInterval 5)).length = input.length :=
    SmootherBase.length_calcTrajectoryCurvatureFrom3Points _ _
  rw [curveLimit]
  obtain ⟨curvature, hcurvature⟩ := maxCurvature_succeeds
    (((min_le_left input.length _).trans_eq hlength.symm))
  rw [hcurvature]
  rfl

theorem limitAt_nonneg (hsqrt : ∀ value, 0 ≤ real.sqrt value) (input : List (TrajectoryPoint K))
    (i : ℕ) : 0 ≤ limitAt real param pointsInterval input i := by
  obtain ⟨curvature, hcurvature, hlimit⟩ := Option.map_eq_some_iff.mp (curveLimit_eq input i)
  rw [← hlimit]
  exact curveVelocity_nonneg hsqrt curvature

theorem mapM_curveLimit (input : List (TrajectoryPoint K)) (indices : List ℕ) :
    indices.mapM (curveLimit real param pointsInterval
        (calcTrajectoryCurvatureFrom3Points real input (idxDistOf pointsInterval 5)) input.length) =
      some (indices.map (limitAt real param pointsInterval input)) := by
  induction indices with
  | nil => rfl
  | cons i indices ih =>
    rw [List.mapM_cons, curveLimit_eq, ih]
    rfl

omit [Field K] [FloorRing K] in
theorem limitVelocity_position (limit : K) (point : TrajectoryPoint K) :
    (limitVelocity limit point).position = point.position := by
  rw [limitVelocity]
  split
  · rfl
  · rfl

section

variable (input : List (TrajectoryPoint K))

theorem limitedPoints_position (i : ℕ) :
    (limitedPoints real param pointsInterval input)[i]?.map (·.position) =
      input[i]?.map (·.position) := by
  rw [limitedPoints, List.getElem?_mapIdx, Option.map_map]
  congr 1
  exact funext fun point => limitVelocity_position _ point

theorem zip_limits :
    (((List.range input.length).map (limitAt real param pointsInterval input)).zip input).map
        (fun limited => limitVelocity limited.1 limited.2) =
      limitedPoints real param pointsInterval input := by
  refine List.ext_getElem (by simp [limitedPoints]) fun i _ _ => ?_
  simp [limitedPoints]

theorem filter_limits :
    ((List.range input.length).filter fun i =>
        match ((List.range input.length).map (limitAt real param pointsInterval input))[i]?,
          input[i]? with
        | some limit, some point => decide (limit < point.longitudinalVelocityMps)
        | _, _ => false) =
      filteredPoints real param pointsInterval input := by
  refine List.filter_congr fun i hi => ?_
  have hrange : (List.range input.length)[i]? = some i := List.getElem?_range (List.mem_range.mp hi)
  rw [List.getElem?_map, hrange]
  cases input[i]? with
  | none => rfl
  | some point => rfl

end

def limitedVelocity (real : RealFunctions K) (param : BaseParam K) (pointsInterval : K)
    (input : List (TrajectoryPoint K)) (i : ℕ) : K :=
  ((limitedPoints real param pointsInterval input)[i]?.map (·.longitudinalVelocityMps)).getD 0

theorem applyLateralAccelerationFilter_eq (hlong : 3 ≤ input.length) :
    applyLateralAccelerationFilter real param pointsInterval latAcc input =
      some (input.mapIdx fun i point =>
        constantVelocity latAcc (filteredRanges (isClose real latAcc input)
            (limitedVelocity real param pointsInterval input)
            (filteredPoints real param pointsInterval input))
          i (limitVelocity (limitAt real param pointsInterval input i) point)) := by
  rw [applyLateralAccelerationFilter, if_neg (not_lt.mpr hlong)]
  simp only [mapM_curveLimit, Option.bind_eq_bind, Option.bind_some, Option.pure_def, zip_limits,
    limitedPoints_position]
  congr 1
  rw [limitedPoints, List.mapIdx_mapIdx, ← filter_limits]
  rfl

theorem limitedVelocity_eq {j : ℕ} (hfiltered : j ∈ filteredPoints real param pointsInterval input) :
    limitedVelocity real param pointsInterval input j =
      limitAt real param pointsInterval input j := by
  obtain ⟨-, hover⟩ := List.mem_filter.mp hfiltered
  rw [limitedVelocity, limitedPoints, List.getElem?_mapIdx]
  cases hpoint : input[j]? with
  | none =>
    rw [hpoint] at hover
    exact absurd hover Bool.false_ne_true
  | some point =>
    rw [hpoint] at hover
    rw [Option.map_some, Option.map_some, Option.getD_some, limitVelocity,
      if_pos (of_decide_eq_true hover)]

theorem limitedVelocity_of_mem_turns {turn : List ℕ}
    (hturn : turn ∈ turns real param latAcc pointsInterval input) {j : ℕ} (hj : j ∈ turn) :
    limitedVelocity real param pointsInterval input j =
      limitAt real param pointsInterval input j := by
  refine limitedVelocity_eq ?_
  rw [← List.flatten_splitBy (isClose real latAcc input)
    (filteredPoints real param pointsInterval input)]
  exact List.mem_flatten.mpr ⟨turn, hturn, hj⟩

theorem applyLateralAccelerationFilter_keeps_iff (hsqrt : ∀ value, 0 ≤ real.sqrt value)
    (input : List (TrajectoryPoint K)) :
    (∃ output, applyLateralAccelerationFilter real param pointsInterval latAcc input =
        some output ∧ List.Forall₂ Keeps (velocities output) (velocities input)) ↔
      TurnsKeep real param latAcc pointsInterval input := by
  rw [TurnsKeep]
  rcases lt_or_ge input.length 3 with hshort | hlong
  · refine iff_of_true ⟨input, ?_, forall₂_keeps_self _⟩ fun hlong => absurd hlong hshort.not_ge
    rw [applyLateralAccelerationFilter, if_pos hshort]
    rfl
  · have hsorted : (filteredPoints real param pointsInterval input).Pairwise (· < ·) :=
      List.pairwise_lt_range.filter _
    have hnonneg : ∀ j ∈ filteredPoints real param pointsInterval input,
        0 ≤ limitedVelocity real param pointsInterval input j := by
      intro j hj
      rw [limitedVelocity_eq hj]
      exact limitAt_nonneg hsqrt input j
    rw [applyLateralAccelerationFilter_eq hlong, imp_iff_right hlong]
    simp only [Option.some.injEq, exists_eq_left', forall₂_keeps_mapIdx_iff]
    have hpoint : ∀ i point, Keeps (constantVelocity latAcc (filteredRanges
          (isClose real latAcc input) (limitedVelocity real param pointsInterval input)
          (filteredPoints real param pointsInterval input)) i
          (limitVelocity (limitAt real param pointsInterval input i)
            point)).longitudinalVelocityMps point.longitudinalVelocityMps ↔
        (latAcc.enableConstantVelocityWhileTurning = true →
          ∀ turn ∈ turns real param latAcc pointsInterval input, Spans turn i → ∃ j ∈ turn,
              limitAt real param pointsInterval input j ≤ point.longitudinalVelocityMps) := by
      intro i point
      refine (constantVelocity_keeps_iff hsorted
        (limitVelocity_keeps (limitAt_nonneg hsqrt input i) point) hnonneg).trans ?_
      refine imp_congr_right fun _ => forall₂_congr fun turn hmem => imp_congr_right fun _ => ?_
      refine exists_congr fun j => and_congr_right fun hj => ?_
      rw [limitedVelocity_of_mem_turns hmem hj]
    simp only [hpoint]
    exact ⟨fun hall henable i point hi => hall i point hi henable,
      fun hall i point hi henable => hall henable i point hi⟩

end AnalyticalJerkConstrainedSmoother

/-- Turns and windows decide whether the filters keep the velocities. -/
theorem filters_keep_iff [IsStrictOrderedRing K] [FloorRing K] (latAcc : LatAccParam K)
    (hsqrt : ∀ value, 0 ≤ real.sqrt value) (hepsilon : 0 < real.epsilon)
    (hinterval : 0 < pointsInterval) (v0 a0 : K) (enableSmoothLimit : Bool)
    {input : List (TrajectoryPoint K)}
    (hinput : ∀ point ∈ input, 0 ≤ point.longitudinalVelocityMps) :
    (List.Forall₂ Keeps
        (velocities (SmootherBase.applyLateralAccelerationFilter real param pointsInterval input v0
          a0 enableSmoothLimit)) (velocities input) ∧
      (∃ output, AnalyticalJerkConstrainedSmoother.applyLateralAccelerationFilter real param
          pointsInterval latAcc input = some output ∧
        List.Forall₂ Keeps (velocities output) (velocities input)) ∧
      List.Forall₂ Keeps
        (velocities (SmootherBase.applySteeringRateLimit real param pointsInterval input))
        (velocities input)) ↔
    (AnalyticalJerkConstrainedSmoother.TurnsKeep real param latAcc pointsInterval input ∧
      SmootherBase.SteeringKeeps real param pointsInterval input) := by
  rw [and_iff_right (SmootherBase.applyLateralAccelerationFilter_keeps hsqrt input v0 a0
    enableSmoothLimit)]
  exact and_congr (AnalyticalJerkConstrainedSmoother.applyLateralAccelerationFilter_keeps_iff hsqrt
    input) (SmootherBase.applySteeringRateLimit_keeps_iff hinterval hepsilon hinput)

/-- The roots of the distances between the points below, and the angles of its curvatures. -/
def exampleFunctions : RealFunctions ℚ where
  sqrt := fun value =>
    if value = 9 then 3 else if value = 16 then 4 else if value = 25 then 5
    else if value = 64 then 8 else 0
  atan := fun value => if value = 1 then 11 / 14 else 0
  pi := 22 / 7
  epsilon := 1 / 4503599627370496

def exampleParam : BaseParam ℚ where
  maxAccel := 2
  minJerk := -1
  maxLateralAccel := 4 / 5
  minDecelForLateralAccLimFilter := -5 / 2
  minCurveVelocity := 137 / 50
  decelDistanceBeforeCurve := 7 / 2
  decelDistanceAfterCurve := 2
  maxSteeringAngleRate := 40
  wheelBase := 5 / 2
  curvatureThreshold := 1 / 50
  curvatureCalculationDistance := 1

def exampleLatAcc : LatAccParam ℚ := ⟨false, 2⟩

def exampleTrajectory : List (TrajectoryPoint ℚ) :=
  [⟨⟨0, 0, 0⟩, 10, 0⟩, ⟨⟨3, 0, 0⟩, 10, 0⟩, ⟨⟨3, 4, 0⟩, 0, 0⟩, ⟨⟨3, 8, 0⟩, 0, 0⟩]

/-- The stop point after the curve gets the minimum velocity of curves. -/
theorem stopPoint_raised : ¬ List.Forall₂ Keeps
      (velocities (SmootherBase.applySteeringRateLimit exampleFunctions exampleParam 4
        exampleTrajectory)) (velocities exampleTrajectory) := by
  have hvelocities : velocities (SmootherBase.applySteeringRateLimit exampleFunctions exampleParam 4
      exampleTrajectory) = [10, 64 / 9, 137 / 50, 0] := by decide +kernel
  have hinput : velocities exampleTrajectory = [10, 10, 0, 0] := rfl
  rw [hvelocities, hinput]
  intro hkeeps
  obtain ⟨-, hrest⟩ := List.forall₂_cons.mp hkeeps
  obtain ⟨-, hstop⟩ := List.forall₂_cons.mp hrest
  obtain ⟨⟨hle, -⟩, -⟩ := List.forall₂_cons.mp hstop
  norm_num at hle

theorem exampleTrajectory_keeps_iff : (List.Forall₂ Keeps
        (velocities (SmootherBase.applyLateralAccelerationFilter exampleFunctions exampleParam 4
          exampleTrajectory 10 0 true)) (velocities exampleTrajectory) ∧
      (∃ output, AnalyticalJerkConstrainedSmoother.applyLateralAccelerationFilter exampleFunctions
          exampleParam 4 exampleLatAcc exampleTrajectory = some output ∧
        List.Forall₂ Keeps (velocities output) (velocities exampleTrajectory)) ∧
      List.Forall₂ Keeps
        (velocities (SmootherBase.applySteeringRateLimit exampleFunctions exampleParam 4
          exampleTrajectory)) (velocities exampleTrajectory)) ↔
    (AnalyticalJerkConstrainedSmoother.TurnsKeep exampleFunctions exampleParam exampleLatAcc 4
        exampleTrajectory ∧
      SmootherBase.SteeringKeeps exampleFunctions exampleParam 4 exampleTrajectory) := by
  refine filters_keep_iff exampleLatAcc ?_ (by norm_num [exampleFunctions]) (by norm_num) 10 0 true
    (by decide +kernel)
  intro value
  simp only [exampleFunctions]
  split_ifs <;> norm_num

/-!
## Slowing down around curves

Before and after a curve the velocities should be limited by it.  The base
smoother looks as far ahead as the distance before curves says and as far back
as the distance after them.  The analytical one has the two exchanged and leaves
out the last index, and may raise points between the limited ones.
-/

section

variable [FloorRing K] (real : RealFunctions K) (param : BaseParam K) (pointsInterval : K)
  (input : List (TrajectoryPoint K))

def curvatures : List K :=
  calcTrajectoryCurvatureFrom3Points real input (idxDistOf pointsInterval 5)

/-- The index `j` lies at most the distance before curves ahead of `i`, or at most the distance
after curves behind it. -/
def Around (i j : ℕ) : Prop :=
  j ≤ i + roundedIndex pointsInterval param.decelDistanceBeforeCurve ∧
    i ≤ j + roundedIndex pointsInterval param.decelDistanceAfterCurve

instance (i j : ℕ) : Decidable (Around param pointsInterval i j) :=
  inferInstanceAs (Decidable (_ ∧ _))

def SlowsDown (output : List (TrajectoryPoint K)) : Prop :=
  ∀ i point, output[i]? = some point →
    ∀ j curvature, (curvatures real pointsInterval input)[j]? = some curvature →
      Around param pointsInterval i j →
        point.longitudinalVelocityMps ≤ curveVelocity real param |curvature|

end

section

variable [IsStrictOrderedRing K]

theorem curveVelocity_antitone
    (hsqrt : ∀ value other, 0 ≤ value → value ≤ other → real.sqrt value ≤ real.sqrt other) :
    Antitone (curveVelocity real param) := by
  intro curvature other hle
  have hpos : (0 : K) < max curvature (1 / 100000) :=
    lt_of_lt_of_le (by norm_num) (le_max_right _ _)
  have hmax : max curvature (1 / 100000) ≤ max other (1 / 100000) := max_le_max_right _ hle
  refine max_le_max_right _ (hsqrt _ _ ?_ ?_)
  · exact div_nonneg (abs_nonneg _) (hpos.trans_le hmax).le
  · exact div_le_div_of_nonneg_left (abs_nonneg _) hpos hmax

omit [IsStrictOrderedRing K]

theorem foldlM_curveVelocity_le_iff (hantitone : Antitone (curveVelocity real param))
    {curvatures : List K} {indices : List ℕ} {curvature result bound : K}
    (hresult : indices.foldlM
      (fun curvature j => (curvatures[j]?).map fun other => max curvature |other|) curvature =
        some result) :
    curveVelocity real param result ≤ bound ↔ curveVelocity real param curvature ≤ bound ∨
        ∃ j ∈ indices, ∃ other, curvatures[j]? = some other ∧
          curveVelocity real param |other| ≤ bound := by
  induction indices generalizing curvature with
  | nil =>
    cases hresult
    simp
  | cons j indices ih =>
    rw [List.foldlM_cons, Option.bind_eq_bind, Option.bind_eq_some_iff] at hresult
    obtain ⟨next, hnext, hresult⟩ := hresult
    obtain ⟨other, hother, rfl⟩ := Option.map_eq_some_iff.mp hnext
    rw [ih hresult, hantitone.map_max, min_le_iff, or_assoc]
    refine or_congr_right ?_
    simp [hother]

theorem maxCurvature_le_iff (hantitone : Antitone (curveVelocity real param)) {curvatures : List K}
    {start stop : ℕ} {result bound : K} (hresult : maxCurvature curvatures start stop = some result) :
    curveVelocity real param result ≤ bound ↔ curveVelocity real param 0 ≤ bound ∨
        ∃ j other, start ≤ j ∧ j < stop ∧ curvatures[j]? = some other ∧
          curveVelocity real param |other| ≤ bound := by
  rw [foldlM_curveVelocity_le_iff hantitone hresult]
  refine or_congr_right (exists_congr fun j => ?_)
  have hwindow : j ∈ List.range' start (stop - start) ↔ start ≤ j ∧ j < stop := by
    rw [List.mem_range'_1]
    omega
  rw [hwindow]
  constructor
  · rintro ⟨⟨hstart, hstop⟩, other, hother, hle⟩
    exact ⟨other, hstart, hstop, hother, hle⟩
  · rintro ⟨other, hstart, hstop, hother, hle⟩
    exact ⟨⟨hstart, hstop⟩, other, hother, hle⟩

end

omit [Field K] in
theorem limitVelocity_le_iff {limit bound : K} {point : TrajectoryPoint K} :
    (limitVelocity limit point).longitudinalVelocityMps ≤ bound ↔
      point.longitudinalVelocityMps ≤ bound ∨ limit ≤ bound := by
  rw [limitVelocity]
  split
  · next hover =>
      exact ⟨.inr, fun hor => hor.elim hover.le.trans id⟩
  · next hover =>
      exact ⟨.inl, fun hor => hor.elim id (not_lt.mp hover).trans⟩

theorem length_curvatures [FloorRing K] (real : RealFunctions K) (pointsInterval : K)
    (input : List (TrajectoryPoint K)) :
    (curvatures real pointsInterval input).length = input.length :=
  SmootherBase.length_calcTrajectoryCurvatureFrom3Points _ _

namespace SmootherBase

variable [FloorRing K]

/-- The window of an index is exactly what lies around it. -/
theorem lateralLoop_slowsDown (hantitone : Antitone (curveVelocity real param))
    {size : ℕ} {curvatures : List K} (hsize : curvatures.length = size) {first : ℕ}
    {points : List (TrajectoryPoint K)} {k : ℕ} {point : TrajectoryPoint K}
    (hpoint : (lateralLoop real param pointsInterval size curvatures none first points)[k]? =
      some point) {j : ℕ} {curvature : K} (hcurvature : curvatures[j]? = some curvature)
    (haround : Around param pointsInterval (first + k) j) :
    point.longitudinalVelocityMps ≤ curveVelocity real param |curvature| := by
  induction points generalizing first k with
  | nil => cases hpoint
  | cons head points ih =>
    obtain ⟨greatest, hgreatest⟩ : ∃ greatest, maxCurvature curvatures
        (if roundedIndex pointsInterval param.decelDistanceAfterCurve < first then
          first - roundedIndex pointsInterval param.decelDistanceAfterCurve else 0)
        (min size (first + roundedIndex pointsInterval param.decelDistanceBeforeCurve + 1)) =
          some greatest :=
      maxCurvature_succeeds ((min_le_left size _).trans_eq hsize.symm)
    rw [lateralLoop] at hpoint
    simp only [hgreatest] at hpoint
    cases k with
    | zero =>
      rw [List.getElem?_cons_zero, Option.some.injEq] at hpoint
      rw [← hpoint, limitVelocity_le_iff]
      refine .inr ((maxCurvature_le_iff hantitone hgreatest).mpr
        (.inr ⟨j, curvature, ?_, ?_, hcurvature, le_rfl⟩))
      · obtain ⟨-, hbehind⟩ := haround
        split <;> omega
      · obtain ⟨hahead, -⟩ := haround
        have hj := (List.getElem?_eq_some_iff.mp hcurvature).1
        rw [lt_min_iff]
        omega
    | succ k =>
      rw [List.getElem?_cons_succ] at hpoint
      exact ih hpoint (by rwa [Nat.add_assoc, Nat.add_comm 1 k])

theorem applyLateralAccelerationFilter_slowsDown (hantitone : Antitone (curveVelocity real param))
    {input : List (TrajectoryPoint K)} (hlong : 3 ≤ input.length) (v0 a0 : K) :
    SlowsDown real param pointsInterval input
      (applyLateralAccelerationFilter real param pointsInterval input v0 a0 false) := by
  intro i point hpoint j curvature hcurvature haround
  rw [applyLateralAccelerationFilter, if_neg (not_lt.mpr hlong)] at hpoint
  refine lateralLoop_slowsDown hantitone (length_curvatures real pointsInterval input) hpoint
    hcurvature ?_
  rwa [Nat.zero_add]

end SmootherBase

/-! ## The analytical smoother -/

namespace AnalyticalJerkConstrainedSmoother

theorem constantVelocity_le_iff {latAcc : LatAccParam K} {isClose : ℕ → ℕ → Bool}
    {velocity : ℕ → K} {indices : List ℕ} (hsorted : indices.Pairwise (· < ·)) {i : ℕ}
    {limited : TrajectoryPoint K} {bound : K} :
    (constantVelocity latAcc (filteredRanges isClose velocity indices) i
        limited).longitudinalVelocityMps ≤ bound ↔
      (latAcc.enableConstantVelocityWhileTurning = true →
        ∀ turn ∈ indices.splitBy isClose, Spans turn i → ∃ j ∈ turn, velocity j ≤ bound) ∧
      ((latAcc.enableConstantVelocityWhileTurning = true →
        ∀ turn ∈ indices.splitBy isClose, ¬ Spans turn i) →
          limited.longitudinalVelocityMps ≤ bound) := by
  obtain ⟨hown, hnone⟩ | ⟨turn, hturn, henable, hspan, hunique, hvelocity⟩ :=
    constantVelocity_cases latAcc hsorted i limited
  · rw [hown]
    constructor
    · intro hle
      exact ⟨fun henable turn hturn hspan => absurd hspan (hnone henable turn hturn), fun _ => hle⟩
    · rintro ⟨-, hle⟩
      exact hle hnone
  · rw [hvelocity, rangeOf_velocity_le_iff (List.ne_nil_of_mem_splitBy hturn)]
    constructor
    · intro hle
      refine ⟨fun _ other hother hspanOther => ?_, fun hnone =>
        absurd hspan (hnone henable turn hturn)⟩
      rwa [hunique other hother hspanOther]
    · rintro ⟨hall, -⟩
      exact hall henable turn hturn hspan

variable [FloorRing K] {latAcc : LatAccParam K}

section

variable (real : RealFunctions K) (param : BaseParam K) (latAcc : LatAccParam K)
  (pointsInterval : K) (input : List (TrajectoryPoint K))

/-- One of the curvatures that the filter looks at for an index demands a velocity, or none
is needed to demand it. -/
def OwnWindowDemands (i : ℕ) (bound : K) : Prop :=
  curveVelocity real param 0 ≤ bound ∨
    ∃ j curvature, i ≤ j + roundedIndex pointsInterval param.decelDistanceBeforeCurve ∧
      j < i + roundedIndex pointsInterval param.decelDistanceAfterCurve ∧
      (curvatures real pointsInterval input)[j]? = some curvature ∧
      curveVelocity real param |curvature| ≤ bound

/-- What a curvature around a point demands is demanded in the turn that spans the point, or
for the point itself where there is no such turn and the point is not slow enough. -/
def WindowsDemand : Prop :=
  ∀ i point, input[i]? = some point →
    ∀ j curvature, (curvatures real pointsInterval input)[j]? = some curvature →
      Around param pointsInterval i j → (latAcc.enableConstantVelocityWhileTurning = true →
          ∀ turn ∈ turns real param latAcc pointsInterval input, Spans turn i →
            ∃ k ∈ turn, OwnWindowDemands real param pointsInterval input k
              (curveVelocity real param |curvature|)) ∧
        ((latAcc.enableConstantVelocityWhileTurning = true →
          ∀ turn ∈ turns real param latAcc pointsInterval input, ¬ Spans turn i) →
            point.longitudinalVelocityMps ≤ curveVelocity real param |curvature| ∨
              OwnWindowDemands real param pointsInterval input i
                (curveVelocity real param |curvature|))

end

theorem limitAt_le_iff (hantitone : Antitone (curveVelocity real param))
    {input : List (TrajectoryPoint K)} {i : ℕ} {bound : K} :
    limitAt real param pointsInterval input i ≤ bound ↔
      OwnWindowDemands real param pointsInterval input i bound := by
  obtain ⟨greatest, hgreatest, hlimit⟩ := Option.map_eq_some_iff.mp (curveLimit_eq input i)
  rw [← hlimit, maxCurvature_le_iff hantitone hgreatest]
  refine or_congr_right (exists_congr fun j => exists_congr fun curvature => ?_)
  constructor
  · rintro ⟨hstart, hstop, hcurvature, hle⟩
    rw [lt_min_iff] at hstop
    refine ⟨?_, hstop.2, hcurvature, hle⟩
    split at hstart <;> omega
  · rintro ⟨hstart, hstop, hcurvature, hle⟩
    have hj := (List.getElem?_eq_some_iff.mp hcurvature).1
    rw [← length_curvatures real pointsInterval input]
    refine ⟨?_, lt_min hj hstop, hcurvature, hle⟩
    split <;> omega

theorem applyLateralAccelerationFilter_slowsDown_iff
    (hantitone : Antitone (curveVelocity real param)) {input : List (TrajectoryPoint K)}
    (hlong : 3 ≤ input.length) :
    (∃ output, applyLateralAccelerationFilter real param pointsInterval latAcc input =
        some output ∧ SlowsDown real param pointsInterval input output) ↔
      WindowsDemand real param latAcc pointsInterval input := by
  have hsorted : (filteredPoints real param pointsInterval input).Pairwise (· < ·) :=
    List.pairwise_lt_range.filter _
  rw [applyLateralAccelerationFilter_eq hlong]
  simp only [Option.some.injEq, exists_eq_left', SlowsDown, List.getElem?_mapIdx,
    Option.map_eq_some_iff, forall_exists_index, and_imp, forall_apply_eq_imp_iff₂]
  refine forall₃_congr fun i point hpoint => forall₄_congr fun j curvature hcurvature haround => ?_
  rw [constantVelocity_le_iff hsorted, limitVelocity_le_iff, limitAt_le_iff hantitone]
  refine and_congr_left' (imp_congr_right fun _ => forall₃_congr fun turn hturn _ => ?_)
  refine exists_congr fun k => and_congr_right fun hk => ?_
  rw [limitedVelocity_of_mem_turns hturn hk, limitAt_le_iff hantitone]

end AnalyticalJerkConstrainedSmoother

/--
The base smoother always slows down around a curve as the distances say, the
analytical one exactly where its own windows demand as much.
-/
theorem filters_slowDown_iff [FloorRing K] [IsStrictOrderedRing K] (latAcc : LatAccParam K)
    (hsqrt : ∀ value other, 0 ≤ value → value ≤ other → real.sqrt value ≤ real.sqrt other)
    {input : List (TrajectoryPoint K)} (hlong : 3 ≤ input.length) (v0 a0 : K) :
    (SlowsDown real param pointsInterval input
        (SmootherBase.applyLateralAccelerationFilter real param pointsInterval input v0 a0 false) ∧
      ∃ output, AnalyticalJerkConstrainedSmoother.applyLateralAccelerationFilter real param
          pointsInterval latAcc input = some output ∧
        SlowsDown real param pointsInterval input output) ↔
      AnalyticalJerkConstrainedSmoother.WindowsDemand real param latAcc pointsInterval input := by
  have hantitone : Antitone (curveVelocity real param) := curveVelocity_antitone hsqrt
  rw [and_iff_right (SmootherBase.applyLateralAccelerationFilter_slowsDown hantitone hlong v0 a0)]
  exact AnalyticalJerkConstrainedSmoother.applyLateralAccelerationFilter_slowsDown_iff hantitone
    hlong

/-- The roots of the numbers below, and of no others. -/
def stepSqrt (value : ℚ) : ℚ :=
  if value < 25 then 0 else if value < 625 then 5 else if value < 900 then 25
  else if value < 2500 then 30 else if value < 160000 then 50 else 400

def curveFunctions : RealFunctions ℚ where
  sqrt := stepSqrt
  atan := fun _ => 0
  pi := 22 / 7
  epsilon := 1 / 4503599627370496

def curveParam : BaseParam ℚ where
  maxAccel := 1
  minJerk := -1
  maxLateralAccel := 8 / 5
  minDecelForLateralAccLimFilter := -5 / 2
  minCurveVelocity := 137 / 50
  decelDistanceBeforeCurve := 50
  decelDistanceAfterCurve := 25
  maxSteeringAngleRate := 40
  wheelBase := 5 / 2
  curvatureThreshold := 1 / 50
  curvatureCalculationDistance := 1

/-- Points every 25 m along a straight line, round the curve at the fourth one, and on. -/
def curveTrajectory : List (TrajectoryPoint ℚ) :=
  [⟨⟨-45, -40, 0⟩, 20, 0⟩, ⟨⟨-30, -20, 0⟩, 20, 0⟩, ⟨⟨-15, 0, 0⟩, 20, 0⟩, ⟨⟨0, 20, 0⟩, 20, 0⟩,
    ⟨⟨15, 0, 0⟩, 20, 0⟩, ⟨⟨30, -20, 0⟩, 20, 0⟩]

theorem stepSqrt_mono (value other : ℚ) (hle : value ≤ other) :
    stepSqrt value ≤ stepSqrt other := by
  unfold stepSqrt
  split_ifs <;> linarith

theorem curveTrajectory_slowsDown_iff : (SlowsDown curveFunctions curveParam 25 curveTrajectory
        (SmootherBase.applyLateralAccelerationFilter curveFunctions curveParam 25
          curveTrajectory 20 0 false) ∧
      ∃ output, AnalyticalJerkConstrainedSmoother.applyLateralAccelerationFilter curveFunctions
          curveParam 25 exampleLatAcc curveTrajectory = some output ∧
        SlowsDown curveFunctions curveParam 25 curveTrajectory output) ↔
      AnalyticalJerkConstrainedSmoother.WindowsDemand curveFunctions curveParam exampleLatAcc 25
        curveTrajectory := by
  refine filters_slowDown_iff exampleLatAcc ?_ (by decide) 20 0
  intro value other _ hle
  exact stepSqrt_mono value other hle

/-- Two points before the curve the analytical smoother keeps 20 m/s, where 5 m/s is demanded. -/
theorem not_slowsDown_beforeCurve : ¬ (SlowsDown curveFunctions curveParam 25 curveTrajectory
        (SmootherBase.applyLateralAccelerationFilter curveFunctions curveParam 25
          curveTrajectory 20 0 false) ∧
      ∃ output, AnalyticalJerkConstrainedSmoother.applyLateralAccelerationFilter curveFunctions
          curveParam 25 exampleLatAcc curveTrajectory = some output ∧
        SlowsDown curveFunctions curveParam 25 curveTrajectory output) := by
  rintro ⟨-, output, houtput, hslow⟩
  have hvelocity : (AnalyticalJerkConstrainedSmoother.applyLateralAccelerationFilter
      curveFunctions curveParam 25 exampleLatAcc curveTrajectory).bind (·[1]?) =
        some ⟨⟨-30, -20, 0⟩, 20, 0⟩ := by
    decide +kernel
  have hcurvature : (curvatures curveFunctions 25 curveTrajectory)[(3 : ℕ)]? = some (-8 / 125) := by
    decide +kernel
  have haround : Around curveParam 25 1 3 := by
    decide +kernel
  rw [houtput] at hvelocity
  have hle := hslow 1 _ hvelocity 3 _ hcurvature haround
  revert hle
  decide +kernel

end AutowareUniverse.Planning.MotionVelocitySmoother
