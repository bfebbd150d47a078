import AutowareUniverse.Common.MotionUtils

/-!
# Resampling of a trajectory

The arc lengths at which a trajectory is resampled before it is smoothed: evenly
up to the vehicle, and from there in steps of time or of length, with the next
stop point between them.  The lists are built from their ends.
-/

namespace AutowareUniverse.Planning.MotionVelocitySmoother.Resampling

open Common.MotionUtils

variable {K O : Type} [Field K] [LinearOrder K]

structure ResampleParam (K : Type) where
  maxTrajectoryLength : K
  minTrajectoryLength : K
  resampleTime : K
  denseResampleDt : K
  denseMinIntervalDistance : K
  sparseResampleDt : K
  sparseMinIntervalDistance : K

structure PosedPoint (K O : Type) where
  pose : Pose K O
  longitudinalVelocityMps : K

structure Lengths (K : Type) where
  frontArclengthValue : K
  trajectoryLength : K
  distToClosestStopPoint : Option K
  deriving DecidableEq

section

variable (geometry : Trigonometry K O)

def posesOf (input : List (PosedPoint K O)) : List (Pose K O) :=
  input.map (·.pose)

def isNumber (value : Option K) : Except Failure K :=
  match value with
  | some value => .ok value
  | none => .error .notANumber

variable (input : List (PosedPoint K O))

def calcArcLength : K :=
  calcSignedArcLength geometry (posesOf input) 0 (input.length - 1)

def searchZeroVelocityIndex (srcIdx : ℕ) : Option ℕ :=
  ((input.drop srcIdx).findIdx? fun point => |point.longitudinalVelocityMps| < 1 / 1000).map
    (srcIdx + ·)

/-- The greater of 0 and no number is 0. -/
def calcDistanceToForwardStopPoint (pose : Pose K O) : Option K :=
  match findNearestSegmentIndex geometry (posesOf input) pose.position with
  | .error _ => none
  | .ok nearestSegmentIdx =>
    match searchZeroVelocityIndex input (nearestSegmentIdx + 1) with
    | none => none
    | some stopIdx =>
      match calcLongitudinalOffsetToSegment geometry (posesOf input) nearestSegmentIdx
        pose.position with
      | none => some 0
      | some offset =>
        some (max 0 (calcSignedArcLengthOfIndices geometry (posesOf input) nearestSegmentIdx
          stopIdx - offset))

def lengthsOf (currentPose : Pose K O)
    (nearestDistThreshold nearestYawThreshold : K) : Except Failure (Lengths K) := do
  let currentSegIdx ← findFirstNearestSegmentIndexWithSoftConstraints geometry (posesOf input)
    currentPose nearestDistThreshold nearestYawThreshold
  let front ← atIndex input 0
  let negativeFrontArclengthValue ← calcSignedArcLengthOfSegments geometry (posesOf input)
    currentPose.position currentSegIdx front.pose.position 0
  let negativeFrontArclengthValue ← isNumber negativeFrontArclengthValue
  return {
    frontArclengthValue := |negativeFrontArclengthValue|
    trajectoryLength := calcArcLength geometry input
    distToClosestStopPoint := calcDistanceToForwardStopPoint geometry input currentPose }

end

def mergeBack (value : K) : List K → List K
  | last :: outArclength =>
    if |last - value| < 1 / 1000 then value :: outArclength
    else value :: last :: outArclength
  | [] => [value]

/-- `Step1`, up to the vehicle. -/
def resampleFront [FloorRing K] (frontDs frontArclengthValue : K) : List K :=
  let steps := List.range (⌊frontArclengthValue / frontDs⌋₊ + 1)
  mergeBack frontArclengthValue (steps.map fun k : ℕ => (k : K) * frontDs).reverse

/-- Why the resampling ends: at the greatest length or time, at the end of the input, or at the
minimum length. -/
inductive Ending where
  | length
  | endpoint
  | minimum
  deriving DecidableEq

structure ResampleState (K : Type) where
  distI : K
  isZeroPointIncluded : Bool
  outArclength : List K

section

variable (param : ResampleParam K) (lengths : Lengths K)

/-- The first stop point that is passed gets an arc length. -/
def handleStopPoint (stopDist : Option K) (distI : K) (state : ResampleState K) :
    ResampleState K :=
  let front := lengths.frontArclengthValue
  match stopDist with
  | none => { state with distI := distI, outArclength := (distI + front) :: state.outArclength }
  | some stopDist =>
    if stopDist < distI ∧ !state.isZeroPointIncluded then
      if 1 / 1000 < |distI - stopDist| then
        { distI := distI
          isZeroPointIncluded := true
          outArclength := (distI + front) :: mergeBack (stopDist + front) state.outArclength }
      else
        { distI := stopDist
          isZeroPointIncluded := true
          outArclength := (stopDist + front) :: state.outArclength }
    else { state with distI := distI, outArclength := (distI + front) :: state.outArclength }

def resampleStep (stopDist : Option K) (checksMinimum : Bool) (ds : K) (state : ResampleState K) :
    Except Ending (ResampleState K) :=
  let distI := state.distI + ds
  if param.maxTrajectoryLength < distI then .error .length
  else if lengths.trajectoryLength ≤ distI + lengths.frontArclengthValue then .error .endpoint
  else if checksMinimum ∧ param.minTrajectoryLength ≤ distI then .error .minimum
  else .ok (handleStopPoint lengths stopDist distI state)

/-- The arc lengths of the steps, and why they end. -/
structure Resampled (K : Type) where
  stepArclength : List K
  ending : Ending
  deriving DecidableEq

/-- `out_arclength`: the minimum length is appended where the resampling ends at it. -/
def Resampled.outArclength (resampled : Resampled K) : List K :=
  match resampled.ending with
  | .minimum =>
    (mergeBack (param.minTrajectoryLength + lengths.frontArclengthValue)
      resampled.stepArclength).reverse
  | _ => resampled.stepArclength.reverse

/-! ## In steps of time -/

def denseCount : K :=
  param.resampleTime / max param.denseResampleDt (1 / 1000)

def dsNominal (vCurrent : K) : K :=
  max (vCurrent * param.denseResampleDt) param.denseMinIntervalDistance

def sparseDs (vCurrent : K) : K :=
  max param.sparseMinIntervalDistance (param.sparseResampleDt * vCurrent)

def stepCount (vCurrent : K) : K :=
  max (denseCount param) (param.minTrajectoryLength / max (dsNominal param vCurrent) (1 / 1000))

def timeLoop (vCurrent : K) : ℕ → ℕ → ResampleState K → Resampled K
  | 0, _, state => { stepArclength := state.outArclength, ending := .length }
  | remaining + 1, i, state =>
    let isSparse : Bool := denseCount param < i
    let ds := if isSparse then sparseDs param vCurrent else dsNominal param vCurrent
    match resampleStep param lengths lengths.distToClosestStopPoint isSparse ds state with
    | .error ending => { stepArclength := state.outArclength, ending := ending }
    | .ok state => timeLoop vCurrent remaining (i + 1) state

variable [FloorRing K]

def resampleByTime (vCurrent : K) : Resampled K :=
  timeLoop param lengths vCurrent ⌊stepCount param vCurrent⌋₊ 1
    { distI := 0
      isZeroPointIncluded := false
      outArclength := resampleFront (1 / 10) lengths.frontArclengthValue }

def stopArclengthValue : K :=
  let stopArclengthValue :=
    match lengths.distToClosestStopPoint with
    | some dist => min dist param.maxTrajectoryLength
    | none => param.maxTrajectoryLength
  if param.minTrajectoryLength < stopArclengthValue then param.minTrajectoryLength
  else stopArclengthValue

/-- Dense on the last 3 m before the stop point. -/
def lengthDs (nominalDs : K) (distI : K) : K :=
  let stop := stopArclengthValue param lengths
  if max (stop - 3) 0 ≤ distI ∧ distI ≤ stop then 1 / 100 else nominalDs

def lengthLoop (nominalDs : K) : ℕ → ResampleState K → Option (Resampled K)
  | 0, _ => none
  | fuel + 1, state =>
    match resampleStep param lengths (some (stopArclengthValue param lengths)) true
      (lengthDs param lengths nominalDs state.distI) state with
    | .error ending => some { stepArclength := state.outArclength, ending := ending }
    | .ok state => lengthLoop nominalDs fuel state

def resampleByLength (nominalDs : K) (fuel : ℕ) : Option (Resampled K) :=
  lengthLoop param lengths nominalDs fuel
    { distI := 0
      isZeroPointIncluded := false
      outArclength := resampleFront nominalDs lengths.frontArclengthValue }

end

/-! ## The arc lengths of a resampled trajectory -/

open Common.MotionUtils Library.Fallible

structure ResampleParam.Positive (param : ResampleParam K) : Prop where
  maxTrajectoryLength : 0 < param.maxTrajectoryLength
  minTrajectoryLength : 0 < param.minTrajectoryLength
  resampleTime : 0 < param.resampleTime
  denseResampleDt : 0 < param.denseResampleDt
  denseMinIntervalDistance : 0 < param.denseMinIntervalDistance
  sparseResampleDt : 0 < param.sparseResampleDt
  sparseMinIntervalDistance : 0 < param.sparseMinIntervalDistance

/-- Neither the stop point nor the minimum length is merged with the vehicle. -/
structure SpacedFromEgo (param : ResampleParam K) (lengths : Lengths K) : Prop where
  minTrajectoryLength : 1 / 1000 ≤ param.minTrajectoryLength
  distToClosestStopPoint : ∀ dist, lengths.distToClosestStopPoint = some dist →
    dist = 0 ∨ 1 / 1000 ≤ dist

structure KeepsArclengths (param : ResampleParam K) (lengths : Lengths K) (hasLongSteps : Prop)
    (resampled : Resampled K) : Prop where
  sorted : (resampled.outArclength param lengths).Pairwise (· ≤ ·)
  strictlySorted : hasLongSteps → (resampled.outArclength param lengths).Pairwise (· < ·)
  within : lengths.frontArclengthValue ≤ lengths.trajectoryLength →
    ∀ arclength ∈ resampled.outArclength param lengths, arclength ≤ lengths.trajectoryLength
  start : 1 / 1000 ≤ lengths.frontArclengthValue ∨
      lengths.frontArclengthValue = 0 ∧ SpacedFromEgo param lengths →
    (resampled.outArclength param lengths).head? = some 0
  ego : SpacedFromEgo param lengths →
    lengths.frontArclengthValue ∈ resampled.outArclength param lengths
  stop : ∀ dist, lengths.distToClosestStopPoint = some dist →
    ∀ arclength ∈ resampled.stepArclength, dist + lengths.frontArclengthValue < arclength →
      dist + lengths.frontArclengthValue ∈ resampled.outArclength param lengths

variable [IsStrictOrderedRing K]

/-! ## Merging -/

section

omit [IsStrictOrderedRing K]

theorem mergeBack_eq (value last : K) (out : List K) :
    (|last - value| < 1 / 1000 ∧ mergeBack value (last :: out) = value :: out) ∨
      (1 / 1000 ≤ |last - value| ∧ mergeBack value (last :: out) = value :: last :: out) := by
  by_cases hclose : |last - value| < 1 / 1000
  · exact .inl ⟨hclose, by simp only [mergeBack, if_pos hclose]⟩
  · exact .inr ⟨le_of_not_gt hclose, by simp only [mergeBack, if_neg hclose]⟩

theorem mem_mergeBack_self (value : K) (out : List K) : value ∈ mergeBack value out := by
  cases out with
  | nil => exact List.mem_singleton.mpr rfl
  | cons last out =>
    obtain ⟨-, heq⟩ | ⟨-, heq⟩ := mergeBack_eq value last out
    · rw [heq]
      exact List.mem_cons_self
    · rw [heq]
      exact List.mem_cons_self

theorem head_mergeBack (value : K) (out : List K) :
    ∃ rest, mergeBack value out = value :: rest := by
  cases out with
  | nil => exact ⟨[], rfl⟩
  | cons last out =>
    obtain ⟨-, heq⟩ | ⟨-, heq⟩ := mergeBack_eq value last out
    · exact ⟨out, heq⟩
    · exact ⟨last :: out, heq⟩

/-- Only the last value can get lost. -/
theorem mem_mergeBack {value last arclength : K} {out : List K} (hmem : arclength ∈ last :: out)
    (hlast : arclength = last → arclength = value ∨ 1 / 1000 ≤ |last - value|) :
    arclength ∈ mergeBack value (last :: out) := by
  obtain ⟨hclose, heq⟩ | ⟨-, heq⟩ := mergeBack_eq value last out
  · rw [heq]
    rcases List.mem_cons.mp hmem with hself | hrest
    · rcases hlast hself with hvalue | hfar
      · exact hvalue ▸ List.mem_cons_self
      · exact absurd hclose (not_lt.mpr hfar)
    · exact List.mem_cons_of_mem value hrest
  · rw [heq]
    exact List.mem_cons_of_mem value hmem

theorem mem_of_mem_mergeBack {value arclength : K} {out : List K}
    (hmem : arclength ∈ mergeBack value out) : arclength = value ∨ arclength ∈ out := by
  cases out with
  | nil => exact .inl (List.mem_singleton.mp hmem)
  | cons last out =>
    obtain ⟨-, heq⟩ | ⟨-, heq⟩ := mergeBack_eq value last out
    · rw [heq] at hmem
      exact (List.mem_cons.mp hmem).imp_right (List.mem_cons_of_mem last)
    · rw [heq] at hmem
      exact List.mem_cons.mp hmem

theorem pairwise_mergeBack {R : K → K → Prop} {value last : K} {out : List K}
    (hpairwise : (last :: out).Pairwise R)
    (htrans : ∀ arclength, R last arclength → R value arclength)
    (hlast : 1 / 1000 ≤ |last - value| → R value last) :
    (mergeBack value (last :: out)).Pairwise R := by
  obtain ⟨hhead, htail⟩ := List.pairwise_cons.mp hpairwise
  have hvalue : ∀ arclength ∈ out, R value arclength :=
    fun arclength hmem => htrans arclength (hhead arclength hmem)
  obtain ⟨-, heq⟩ | ⟨hfar, heq⟩ := mergeBack_eq value last out
  · rw [heq]
    exact List.pairwise_cons.mpr ⟨hvalue, htail⟩
  · rw [heq]
    refine List.pairwise_cons.mpr ⟨fun arclength hmem => ?_, hpairwise⟩
    rcases List.mem_cons.mp hmem with hself | hrest
    · exact hself ▸ hlast hfar
    · exact hvalue arclength hrest

end

variable {value last : K}

theorem lt_of_le_of_far (hle : last ≤ value) (hfar : 1 / 1000 ≤ |last - value|) :
    last < value := by
  refine lt_of_le_of_ne hle fun heq => ?_
  rw [heq, sub_self, abs_zero] at hfar
  norm_num at hfar

omit [IsStrictOrderedRing K] in
theorem descending_mergeBack {out : List K}
    (hdescending : (last :: out).Pairwise (· ≥ ·)) (hle : last ≤ value) :
    (mergeBack value (last :: out)).Pairwise (· ≥ ·) :=
  pairwise_mergeBack hdescending (fun _ hlast => le_trans hlast hle) fun _ => hle

theorem strictlyDescending_mergeBack {out : List K}
    (hdescending : (last :: out).Pairwise (· > ·)) (hle : last ≤ value) :
    (mergeBack value (last :: out)).Pairwise (· > ·) :=
  pairwise_mergeBack hdescending (fun _ hlast => lt_of_lt_of_le hlast hle) (lt_of_le_of_far hle)

/-! ## What a step keeps -/

section

variable {param : ResampleParam K} {lengths : Lengths K}

/-- What holds between two steps, for a stop point at `stopDist`. -/
structure ResampleInvariant (param : ResampleParam K) (lengths : Lengths K) (hasLongSteps : Prop)
    (stopDist : Option K) (state : ResampleState K) : Prop where
  front : 0 ≤ lengths.frontArclengthValue
  back : ∃ out, state.outArclength = (state.distI + lengths.frontArclengthValue) :: out
  nonneg : 0 ≤ state.distI
  withinMaximum : state.distI ≤ param.maxTrajectoryLength
  descending : state.outArclength.Pairwise (· ≥ ·)
  strictlyDescending : hasLongSteps → state.outArclength.Pairwise (· > ·)
  within : lengths.frontArclengthValue ≤ lengths.trajectoryLength →
    state.distI + lengths.frontArclengthValue ≤ lengths.trajectoryLength
  nonnegArclength : ∀ arclength ∈ state.outArclength, 0 ≤ arclength
  start : 1 / 1000 ≤ lengths.frontArclengthValue → 0 ∈ state.outArclength
  ego : SpacedFromEgo param lengths → lengths.frontArclengthValue ∈ state.outArclength
  ahead : state.isZeroPointIncluded = false → ∀ dist, stopDist = some dist → state.distI ≤ dist
  included : state.isZeroPointIncluded = true → ∀ dist, stopDist = some dist →
    dist ≤ state.distI ∧ dist + lengths.frontArclengthValue ∈ state.outArclength

variable (lengths) in
omit [IsStrictOrderedRing K] in
theorem handleStopPoint_cases (stopDist : Option K) (distI : K) (state : ResampleState K) :
    (handleStopPoint lengths stopDist distI state =
        { state with
          distI := distI
          outArclength := (distI + lengths.frontArclengthValue) :: state.outArclength } ∧
      ∀ dist, stopDist = some dist → dist < distI → state.isZeroPointIncluded = true) ∨
    ∃ dist, stopDist = some dist ∧ dist < distI ∧ state.isZeroPointIncluded = false ∧
      ((1 / 1000 < |distI - dist| ∧ handleStopPoint lengths stopDist distI state =
          { distI := distI
            isZeroPointIncluded := true
            outArclength := (distI + lengths.frontArclengthValue) ::
              mergeBack (dist + lengths.frontArclengthValue) state.outArclength }) ∨
        (|distI - dist| ≤ 1 / 1000 ∧ handleStopPoint lengths stopDist distI state =
          { distI := dist
            isZeroPointIncluded := true
            outArclength := (dist + lengths.frontArclengthValue) :: state.outArclength })) := by
  cases stopDist with
  | none => exact .inl ⟨rfl, fun _ hnone => nomatch hnone⟩
  | some dist =>
    by_cases hpassed : dist < distI ∧ !state.isZeroPointIncluded
    · refine .inr ⟨dist, rfl, hpassed.1, by simpa using hpassed.2, ?_⟩
      by_cases hfar : 1 / 1000 < |distI - dist|
      · exact .inl ⟨hfar, by simp only [handleStopPoint, if_pos hpassed, if_pos hfar]⟩
      · exact .inr ⟨not_lt.mp hfar, by simp only [handleStopPoint, if_pos hpassed, if_neg hfar]⟩
    · refine .inl ⟨by simp only [handleStopPoint, if_neg hpassed], ?_⟩
      rintro other ⟨⟩ hlt
      by_contra hexcluded
      exact hpassed ⟨hlt, by simpa using hexcluded⟩

variable {hasLongSteps : Prop} {stopDist : Option K} {state : ResampleState K}

section

variable (hinvariant : ResampleInvariant param lengths hasLongSteps stopDist state)

include hinvariant

omit [IsStrictOrderedRing K] in
theorem ResampleInvariant.le_last {arclength : K} (hmem : arclength ∈ state.outArclength) :
    arclength ≤ state.distI + lengths.frontArclengthValue := by
  obtain ⟨out, hout⟩ := hinvariant.back
  have hdescending := hinvariant.descending
  rw [hout] at hmem hdescending
  rcases List.mem_cons.mp hmem with hself | hrest
  · exact le_of_eq hself
  · exact (List.pairwise_cons.mp hdescending).1 arclength hrest

/-- A value behind all others. -/
theorem ResampleInvariant.push {distI : K} {isIncluded : Bool} (hle : state.distI ≤ distI)
    (hlong : hasLongSteps → state.distI < distI) (hmaximum : distI ≤ param.maxTrajectoryLength)
    (hwithin : distI + lengths.frontArclengthValue ≤ lengths.trajectoryLength)
    (hahead : isIncluded = false → ∀ dist, stopDist = some dist → distI ≤ dist)
    (hincluded : isIncluded = true → ∀ dist, stopDist = some dist → dist ≤ distI ∧
      (dist = distI ∨ dist + lengths.frontArclengthValue ∈ state.outArclength)) :
    ResampleInvariant param lengths hasLongSteps stopDist
      { distI := distI
        isZeroPointIncluded := isIncluded
        outArclength := (distI + lengths.frontArclengthValue) :: state.outArclength } := by
  have hnonneg : 0 ≤ distI := le_trans hinvariant.nonneg hle
  exact {
    front := hinvariant.front
    back := ⟨state.outArclength, rfl⟩
    nonneg := hnonneg
    withinMaximum := hmaximum
    descending := List.pairwise_cons.mpr
      ⟨fun arclength hmem => le_trans (hinvariant.le_last hmem) (add_le_add_left hle _),
        hinvariant.descending⟩
    strictlyDescending := fun hhasLong => List.pairwise_cons.mpr
      ⟨fun arclength hmem => lt_of_le_of_lt (hinvariant.le_last hmem)
        (add_lt_add_left (hlong hhasLong) _), hinvariant.strictlyDescending hhasLong⟩
    within := fun _ => hwithin
    nonnegArclength := by
      intro arclength hmem
      rcases List.mem_cons.mp hmem with hself | hrest
      · exact hself ▸ add_nonneg hnonneg hinvariant.front
      · exact hinvariant.nonnegArclength arclength hrest
    start := fun hfront => List.mem_cons_of_mem _ (hinvariant.start hfront)
    ego := fun hspaced => List.mem_cons_of_mem _ (hinvariant.ego hspaced)
    ahead := hahead
    included := by
      intro hisIncluded dist hdist
      obtain ⟨hpassed, hself | hmem⟩ := hincluded hisIncluded dist hdist
      · exact ⟨hpassed, hself ▸ List.mem_cons_self⟩
      · exact ⟨hpassed, List.mem_cons_of_mem _ hmem⟩ }

theorem ResampleInvariant.merge {dist : K} (hdist : ∀ other, stopDist = some other → other = dist)
    (hle : state.distI ≤ dist) (hmaximum : dist ≤ param.maxTrajectoryLength)
    (hwithin : dist + lengths.frontArclengthValue ≤ lengths.trajectoryLength)
    (hspacedDist : SpacedFromEgo param lengths → dist = 0 ∨ 1 / 1000 ≤ dist) :
    ResampleInvariant param lengths hasLongSteps stopDist
      { distI := dist
        isZeroPointIncluded := true
        outArclength := mergeBack (dist + lengths.frontArclengthValue) state.outArclength } := by
  obtain ⟨out, hout⟩ := hinvariant.back
  have hvalue : state.distI + lengths.frontArclengthValue ≤ dist + lengths.frontArclengthValue :=
    add_le_add_left hle _
  have hnonneg : 0 ≤ dist := le_trans hinvariant.nonneg hle
  exact {
    front := hinvariant.front
    back := head_mergeBack _ _
    nonneg := hnonneg
    withinMaximum := hmaximum
    descending := by
      have hdescending := hinvariant.descending
      rw [hout] at hdescending ⊢
      exact descending_mergeBack hdescending hvalue
    strictlyDescending := by
      intro hhasLong
      have hdescending := hinvariant.strictlyDescending hhasLong
      rw [hout] at hdescending ⊢
      exact strictlyDescending_mergeBack hdescending hvalue
    within := fun _ => hwithin
    nonnegArclength := by
      intro arclength hmem
      rcases mem_of_mem_mergeBack hmem with hself | hrest
      · exact hself ▸ add_nonneg hnonneg hinvariant.front
      · exact hinvariant.nonnegArclength arclength hrest
    start := by
      intro hfront
      have hmem := hinvariant.start hfront
      rw [hout] at hmem ⊢
      refine mem_mergeBack hmem fun hself => ?_
      -- the last value is at least that of the vehicle, which is past the start
      have hdistI := hinvariant.nonneg
      linarith
    ego := by
      intro hspaced
      have hmem := hinvariant.ego hspaced
      rw [hout] at hmem ⊢
      refine mem_mergeBack hmem fun hself => ?_
      have hdistI : state.distI = 0 := by linarith
      rcases hspacedDist hspaced with hzero | hfar
      · exact .inl (by rw [hzero, zero_add])
      · refine .inr ?_
        rw [hdistI, zero_add, sub_add_cancel_right, abs_neg]
        exact le_trans hfar (le_abs_self dist)
    ahead := fun hfalse => nomatch hfalse
    included := by
      intro _ other hother
      rw [hdist other hother]
      exact ⟨le_refl _, mem_mergeBack_self _ _⟩ }

end

variable (param lengths stopDist) in
theorem resampleStep_cases (checksMinimum : Bool) (ds : K) (state : ResampleState K) :
    (state.distI + ds ≤ param.maxTrajectoryLength ∧
      state.distI + ds + lengths.frontArclengthValue < lengths.trajectoryLength ∧
      (checksMinimum = true → state.distI + ds < param.minTrajectoryLength) ∧
      resampleStep param lengths stopDist checksMinimum ds state =
        .ok (handleStopPoint lengths stopDist (state.distI + ds) state)) ∨
    ∃ ending, resampleStep param lengths stopDist checksMinimum ds state = .error ending ∧
      (ending = .minimum → checksMinimum = true ∧
        param.minTrajectoryLength ≤ param.maxTrajectoryLength ∧
        param.minTrajectoryLength + lengths.frontArclengthValue < lengths.trajectoryLength) := by
  by_cases hmaximum : param.maxTrajectoryLength < state.distI + ds
  · exact .inr ⟨.length, by simp only [resampleStep, if_pos hmaximum], nofun⟩
  · by_cases hend : lengths.trajectoryLength ≤ state.distI + ds + lengths.frontArclengthValue
    · exact .inr ⟨.endpoint, by simp only [resampleStep, if_neg hmaximum, if_pos hend], nofun⟩
    · by_cases hminimum : checksMinimum ∧ param.minTrajectoryLength ≤ state.distI + ds
      · refine .inr ⟨.minimum, ?_, fun _ => ⟨hminimum.1, ?_, ?_⟩⟩
        · simp only [resampleStep, if_neg hmaximum, if_neg hend, if_pos hminimum]
        · exact le_trans hminimum.2 (not_lt.mp hmaximum)
        · exact lt_of_le_of_lt (add_le_add_left hminimum.2 _) (not_le.mp hend)
      · refine .inl ⟨not_lt.mp hmaximum, not_le.mp hend, fun hchecks => ?_, ?_⟩
        · exact not_le.mp fun hle => hminimum ⟨hchecks, hle⟩
        · simp only [resampleStep, if_neg hmaximum, if_neg hend, if_neg hminimum]

/-- How far a step got: a stop point that it passes by a millimetre at most holds it back once,
and counts as one more step. -/
def progress (step : K) (state : ResampleState K) : K :=
  state.distI + if state.isZeroPointIncluded then step else 0

theorem handleStopPoint_keeps {distI step : K}
    (hinvariant : ResampleInvariant param lengths hasLongSteps stopDist state) (hstep : 0 < step)
    (hdistI : state.distI + step ≤ distI) (hlong : hasLongSteps → state.distI + 1 / 1000 < distI)
    (hmaximum : distI ≤ param.maxTrajectoryLength)
    (hwithin : distI + lengths.frontArclengthValue < lengths.trajectoryLength)
    (hspacedDist : SpacedFromEgo param lengths → ∀ dist, stopDist = some dist → dist < distI →
      dist = 0 ∨ 1 / 1000 ≤ dist) :
    ResampleInvariant param lengths hasLongSteps stopDist
        (handleStopPoint lengths stopDist distI state) ∧
      (handleStopPoint lengths stopDist distI state).distI ≤ distI ∧
      progress step state + step ≤
        progress step (handleStopPoint lengths stopDist distI state) := by
  have hle : state.distI ≤ distI := by linarith
  have hlt : hasLongSteps → state.distI < distI := fun hhasLong => by linarith [hlong hhasLong]
  obtain ⟨heq, hnone⟩ | ⟨dist, hdist, hpassed, hexcluded, ⟨hfar, heq⟩ | ⟨hclose, heq⟩⟩ :=
    handleStopPoint_cases lengths stopDist distI state
  · rw [heq]
    refine ⟨hinvariant.push hle hlt hmaximum (le_of_lt hwithin) ?_ ?_, le_refl _, ?_⟩
    · intro hexcluded dist hdist
      by_contra hpassed
      rw [hnone dist hdist (not_le.mp hpassed)] at hexcluded
      cases hexcluded
    · intro hincluded dist hdist
      obtain ⟨hbefore, hmem⟩ := hinvariant.included hincluded dist hdist
      exact ⟨le_trans hbefore hle, .inr hmem⟩
    · simp only [progress]
      linarith
  · have hbefore := hinvariant.ahead hexcluded dist hdist
    have hmerged := hinvariant.merge (fun other hother => Option.some.inj (hother.symm.trans hdist))
      hbefore (le_trans (le_of_lt hpassed) hmaximum) (by linarith)
      fun hspaced => hspacedDist hspaced dist hdist hpassed
    rw [heq]
    refine ⟨hmerged.push (le_of_lt hpassed) (fun _ => hpassed) hmaximum (le_of_lt hwithin) nofun ?_,
      le_refl _, ?_⟩
    · intro _ other hother
      obtain rfl := Option.some.inj (hdist.symm.trans hother)
      exact ⟨le_of_lt hpassed, .inr (mem_mergeBack_self _ _)⟩
    · simp only [progress, hexcluded, Bool.false_eq_true, if_false, if_true]
      linarith
  · have hbefore := hinvariant.ahead hexcluded dist hdist
    have hrest := (abs_le.mp hclose).2
    rw [heq]
    refine ⟨hinvariant.push hbefore (fun hhasLong => by linarith [hlong hhasLong])
      (le_trans (le_of_lt hpassed) hmaximum) (by linarith) nofun ?_, le_of_lt hpassed, ?_⟩
    · intro _ other hother
      obtain rfl := Option.some.inj (hdist.symm.trans hother)
      exact ⟨le_refl _, .inl rfl⟩
    · simp only [progress, hexcluded, Bool.false_eq_true, if_false, if_true]
      linarith

end

variable [FloorRing K]

section

variable {frontDs front : K}

omit [FloorRing K] in
theorem descending_steps (hds : 0 < frontDs) (count : ℕ) :
    ((List.range count).map fun k : ℕ => (k : K) * frontDs).reverse.Pairwise (· > ·) := by
  rw [List.pairwise_reverse, List.pairwise_map]
  refine List.pairwise_lt_range.imp fun {first second} hlt => ?_
  exact mul_lt_mul_of_pos_right (Nat.cast_lt.mpr hlt) hds

/-- The steps up to the vehicle, and its own arc length. -/
theorem resampleFront_eq (hds : 0 < frontDs) (hfront : 0 ≤ front) :
    ∃ last out, resampleFront frontDs front = mergeBack front (last :: out) ∧
      (last :: out).Pairwise (· > ·) ∧ 0 ≤ last ∧ last ≤ front ∧
      (∀ arclength ∈ last :: out, 0 ≤ arclength) ∧ 0 ∈ last :: out := by
  have hdescending := descending_steps hds (⌊front / frontDs⌋₊ + 1)
  have hsteps : ((List.range (⌊front / frontDs⌋₊ + 1)).map fun k : ℕ => (k : K) * frontDs).reverse =
      (⌊front / frontDs⌋₊ : K) * frontDs ::
        ((List.range ⌊front / frontDs⌋₊).map fun k : ℕ => (k : K) * frontDs).reverse := by
    rw [List.range_succ, List.map_append, List.reverse_append]
    rfl
  refine ⟨_, _, congrArg (mergeBack front) hsteps, hsteps ▸ hdescending, ?_, ?_, ?_, ?_⟩
  · exact mul_nonneg (Nat.cast_nonneg _) (le_of_lt hds)
  · exact (le_div_iff₀ hds).mp (Nat.floor_le (div_nonneg hfront (le_of_lt hds)))
  · intro arclength hmem
    rw [← hsteps, List.mem_reverse] at hmem
    obtain ⟨k, -, rfl⟩ := List.mem_map.mp hmem
    exact mul_nonneg (Nat.cast_nonneg k) (le_of_lt hds)
  · rw [← hsteps, List.mem_reverse]
    exact List.mem_map.mpr ⟨0, List.mem_range.mpr (Nat.succ_pos _), by rw [Nat.cast_zero, zero_mul]⟩

variable {param : ResampleParam K} {lengths : Lengths K}

/-- Before the first step. -/
theorem resampleFront_invariant (hasLongSteps : Prop) {stopDist : Option K} (hds : 0 < frontDs)
    (hfront : 0 ≤ lengths.frontArclengthValue) (hmaximum : 0 < param.maxTrajectoryLength)
    (hstop : ∀ dist, stopDist = some dist → 0 ≤ dist) :
    ResampleInvariant param lengths hasLongSteps stopDist
      { distI := 0
        isZeroPointIncluded := false
        outArclength := resampleFront frontDs lengths.frontArclengthValue } := by
  obtain ⟨last, out, heq, hdescending, hlast, hle, hnonneg, hzero⟩ := resampleFront_eq hds hfront
  have hstrictly := strictlyDescending_mergeBack hdescending hle
  obtain ⟨rest, hrest⟩ := head_mergeBack lengths.frontArclengthValue (last :: out)
  exact {
    front := hfront
    back := ⟨rest, by rw [heq, hrest, zero_add]⟩
    nonneg := le_refl 0
    withinMaximum := le_of_lt hmaximum
    descending := heq ▸ hstrictly.imp le_of_lt
    strictlyDescending := fun _ => heq ▸ hstrictly
    within := fun hwithin => by rwa [zero_add]
    nonnegArclength := by
      intro arclength hmem
      change arclength ∈ resampleFront frontDs lengths.frontArclengthValue at hmem
      rw [heq] at hmem
      rcases mem_of_mem_mergeBack hmem with hself | hbefore
      · exact hself ▸ hfront
      · exact hnonneg arclength hbefore
    start := by
      intro hfar
      rw [heq]
      refine mem_mergeBack hzero fun hself => .inr ?_
      rw [← hself, zero_sub, abs_neg]
      exact le_trans hfar (le_abs_self _)
    ego := fun _ => mem_mergeBack_self lengths.frontArclengthValue _
    ahead := fun _ => hstop
    included := fun hfalse => nomatch hfalse }

end

section

variable {param : ResampleParam K} {lengths : Lengths K} {hasLongSteps : Prop}
variable {stopDist : Option K} {state : ResampleState K} {resampled : Resampled K}

structure EndsWith (param : ResampleParam K) (lengths : Lengths K) (hasLongSteps : Prop)
    (stopDist : Option K) (resampled : Resampled K) (state : ResampleState K) : Prop where
  invariant : ResampleInvariant param lengths hasLongSteps stopDist state
  stepArclength : resampled.stepArclength = state.outArclength
  minimum : resampled.ending = .minimum → state.distI < param.minTrajectoryLength ∧
    param.minTrajectoryLength ≤ param.maxTrajectoryLength ∧
    param.minTrajectoryLength + lengths.frontArclengthValue < lengths.trajectoryLength

omit [FloorRing K] [IsStrictOrderedRing K] in
theorem head?_of_sorted {out : List K} (hsorted : out.Pairwise (· ≤ ·))
    (hnonneg : ∀ arclength ∈ out, 0 ≤ arclength) (hzero : 0 ∈ out) : out.head? = some 0 := by
  cases out with
  | nil => cases hzero
  | cons first out =>
    rw [List.head?_cons]
    rcases List.mem_cons.mp hzero with hself | hrest
    · rw [hself]
    · have hle := (List.pairwise_cons.mp hsorted).1 0 hrest
      exact congrArg some (le_antisymm hle (hnonneg first List.mem_cons_self))

omit [FloorRing K]

/-- The minimum length, where it is appended, is one more value behind all others. -/
theorem EndsWith.outArclength (hends : EndsWith param lengths hasLongSteps stopDist resampled state) :
    ∃ last, ResampleInvariant param lengths hasLongSteps none last ∧
      resampled.outArclength param lengths = last.outArclength.reverse ∧
      ∀ arclength ∈ state.outArclength, arclength < state.distI + lengths.frontArclengthValue →
        arclength ∈ last.outArclength := by
  obtain ⟨hinvariant, hstepArclength, hminimum⟩ := hends
  have hforget : ResampleInvariant param lengths hasLongSteps none state :=
    { hinvariant with ahead := nofun, included := nofun }
  cases hending : resampled.ending with
  | length =>
    refine ⟨state, hforget, ?_, fun _ hmem _ => hmem⟩
    simp only [Resampled.outArclength, hending, hstepArclength]
  | endpoint =>
    refine ⟨state, hforget, ?_, fun _ hmem _ => hmem⟩
    simp only [Resampled.outArclength, hending, hstepArclength]
  | minimum =>
    obtain ⟨hbefore, hmaximum, hwithin⟩ := hminimum hending
    have hmerged := hforget.merge nofun (le_of_lt hbefore) hmaximum (le_of_lt hwithin)
      fun hspaced => .inr hspaced.minTrajectoryLength
    refine ⟨_, hmerged, ?_, ?_⟩
    · simp only [Resampled.outArclength, hending, hstepArclength]
    · intro arclength hmem hlt
      obtain ⟨out, hout⟩ := hinvariant.back
      rw [hout] at hmem
      show arclength ∈ mergeBack _ state.outArclength
      rw [hout]
      exact mem_mergeBack hmem fun hself => absurd hself (ne_of_lt hlt)

theorem EndsWith.keeps (hends : EndsWith param lengths hasLongSteps stopDist resampled state)
    (hstop : ∀ dist, lengths.distToClosestStopPoint = some dist → dist < state.distI →
      stopDist = some dist) :
    KeepsArclengths param lengths hasLongSteps resampled := by
  obtain ⟨last, hinvariant, hout, hkept⟩ := hends.outArclength
  have hmem : ∀ arclength, arclength ∈ resampled.outArclength param lengths ↔
      arclength ∈ last.outArclength := by
    intro arclength
    rw [hout, List.mem_reverse]
  have hsorted : (resampled.outArclength param lengths).Pairwise (· ≤ ·) := by
    rw [hout, List.pairwise_reverse]
    exact hinvariant.descending
  exact {
    sorted := hsorted
    strictlySorted := by
      intro hhasLong
      rw [hout, List.pairwise_reverse]
      exact hinvariant.strictlyDescending hhasLong
    within := by
      intro hwithin arclength harclength
      have hlast := hinvariant.le_last ((hmem arclength).mp harclength)
      exact le_trans hlast (hinvariant.within hwithin)
    start := by
      intro hstart
      refine head?_of_sorted hsorted (fun arclength harclength => ?_) ((hmem 0).mpr ?_)
      · exact hinvariant.nonnegArclength arclength ((hmem arclength).mp harclength)
      · rcases hstart with hfar | ⟨hzero, hspaced⟩
        · exact hinvariant.start hfar
        · exact hzero ▸ hinvariant.ego hspaced
    ego := fun hspaced => (hmem _).mpr (hinvariant.ego hspaced)
    stop := by
      intro dist hdist arclength harclength hlt
      rw [hends.stepArclength] at harclength
      have hstate := hends.invariant
      have hpassed : dist < state.distI := by linarith [hstate.le_last harclength]
      have hstopDist := hstop dist hdist hpassed
      refine (hmem _).mpr (hkept _ ?_ (add_lt_add_left hpassed _))
      cases hisIncluded : state.isZeroPointIncluded with
      | false =>
        exact absurd (hstate.ahead hisIncluded dist hstopDist) (not_le.mpr hpassed)
      | true => exact (hstate.included hisIncluded dist hstopDist).2 }

end

/-! ## The loops -/

section

variable {param : ResampleParam K} {lengths : Lengths K} {hasLongSteps : Prop}
variable {state : ResampleState K}

omit [IsStrictOrderedRing K] [FloorRing K] in
theorem dsNominal_pos (hpositive : param.Positive) (vCurrent : K) : 0 < dsNominal param vCurrent :=
  lt_of_lt_of_le hpositive.denseMinIntervalDistance (le_max_right _ _)

section
omit [FloorRing K]

theorem lt_minTrajectoryLength (hpositive : param.Positive) {vCurrent distI : K} {i : ℕ}
    (hi : (i : K) ≤ stepCount param vCurrent) (hisSparse : denseCount param < i)
    (hdense : distI + dsNominal param vCurrent ≤ i * dsNominal param vCurrent) :
    distI < param.minTrajectoryLength := by
  have hnominal := dsNominal_pos hpositive vCurrent
  have hquotient := (le_max_iff.mp hi).resolve_left (not_le.mpr hisSparse)
  have hfloor : 0 < max (dsNominal param vCurrent) (1 / 1000) :=
    lt_of_lt_of_le hnominal (le_max_left _ _)
  have hminimum := (le_div_iff₀ hfloor).mp hquotient
  have hmax : (i : K) * dsNominal param vCurrent ≤ i * max (dsNominal param vCurrent) (1 / 1000) :=
    mul_le_mul_of_nonneg_left (le_max_left _ _) (Nat.cast_nonneg i)
  linarith

theorem timeLoop_ends (hpositive : param.Positive) {vCurrent : K} (hlong : hasLongSteps →
      1 / 1000 < dsNominal param vCurrent ∧ 1 / 1000 < sparseDs param vCurrent) :
    ∀ (remaining i : ℕ) (state : ResampleState K),
      (i + remaining : K) ≤ stepCount param vCurrent + 1 →
      (state.distI + dsNominal param vCurrent ≤ i * dsNominal param vCurrent ∨
        denseCount param < i ∧ state.distI < param.minTrajectoryLength) →
      ResampleInvariant param lengths hasLongSteps lengths.distToClosestStopPoint state →
      ∃ last, EndsWith param lengths hasLongSteps lengths.distToClosestStopPoint
        (timeLoop param lengths vCurrent remaining i state) last := by
  have hnominal := dsNominal_pos hpositive vCurrent
  have hsparse : 0 < sparseDs param vCurrent :=
    lt_of_lt_of_le hpositive.sparseMinIntervalDistance (le_max_left _ _)
  intro remaining
  induction remaining with
  | zero => exact fun i state _ _ hinvariant => ⟨state, hinvariant, rfl, nofun⟩
  | succ remaining ih =>
    intro i state hcount hreached hinvariant
    have hi : (i : K) ≤ stepCount param vCurrent := by
      rw [Nat.cast_succ] at hcount
      linarith [(Nat.cast_nonneg remaining : (0 : K) ≤ remaining)]
    have hbefore : denseCount param < i → state.distI < param.minTrajectoryLength := by
      intro hisSparse
      rcases hreached with hdense | hsparse
      · exact lt_minTrajectoryLength hpositive hi hisSparse hdense
      · exact hsparse.2
    let isSparse : Bool := denseCount param < i
    let ds := if isSparse then sparseDs param vCurrent else dsNominal param vCurrent
    have hisSparse : isSparse = true ↔ denseCount param < i := decide_eq_true_iff
    have hds : 0 < ds := by
      by_cases hsparseStep : isSparse = true
      · simpa only [ds, if_pos hsparseStep] using hsparse
      · simpa only [ds, if_neg hsparseStep] using hnominal
    have hdsLong : hasLongSteps → 1 / 1000 < ds := by
      intro hhasLong
      by_cases hsparseStep : isSparse = true
      · simpa only [ds, if_pos hsparseStep] using (hlong hhasLong).2
      · simpa only [ds, if_neg hsparseStep] using (hlong hhasLong).1
    have hloop : timeLoop param lengths vCurrent (remaining + 1) i state =
        match resampleStep param lengths lengths.distToClosestStopPoint isSparse ds state with
        | .error ending => { stepArclength := state.outArclength, ending := ending }
        | .ok state => timeLoop param lengths vCurrent remaining (i + 1) state := rfl
    obtain ⟨hmaximum, hwithin, hminimum, hstep⟩ | ⟨ending, hstep, hending⟩ :=
      resampleStep_cases param lengths lengths.distToClosestStopPoint isSparse ds state
    · rw [hloop, hstep]
      obtain ⟨hkeeps, hle, -⟩ := handleStopPoint_keeps hinvariant hds (le_refl _)
        (fun hhasLong => by linarith [hdsLong hhasLong]) hmaximum hwithin
        fun hspaced dist hdist _ => hspaced.distToClosestStopPoint dist hdist
      refine ih (i + 1) _ ?_ ?_ hkeeps
      · push_cast at hcount ⊢
        linarith
      · by_cases hsparseStep : denseCount param < i
        · refine .inr ⟨lt_trans hsparseStep (Nat.cast_lt.mpr (Nat.lt_succ_self i)), ?_⟩
          exact lt_of_le_of_lt hle (hminimum (hisSparse.mpr hsparseStep))
        · have hdense := hreached.resolve_right fun hboth => hsparseStep hboth.1
          have hdsNominal : ds = dsNominal param vCurrent :=
            if_neg fun htrue => hsparseStep (hisSparse.mp htrue)
          refine .inl ?_
          push_cast
          linarith
    · rw [hloop, hstep]
      refine ⟨state, hinvariant, rfl, fun hminimum => ?_⟩
      obtain ⟨hsparseStep, hmaximum, hwithin⟩ := hending hminimum
      exact ⟨hbefore (hisSparse.mp hsparseStep), hmaximum, hwithin⟩

end

theorem resampleByTime_keeps (hpositive : param.Positive) (hfront : 0 ≤ lengths.frontArclengthValue)
    (hstop : ∀ dist, lengths.distToClosestStopPoint = some dist → 0 ≤ dist) (vCurrent : K) :
    KeepsArclengths param lengths
      (1 / 1000 < dsNominal param vCurrent ∧ 1 / 1000 < sparseDs param vCurrent)
      (resampleByTime param lengths vCurrent) := by
  have hcount : 0 ≤ stepCount param vCurrent := by
    refine le_trans (div_nonneg (le_of_lt hpositive.resampleTime) ?_) (le_max_left _ _)
    exact le_trans (le_of_lt hpositive.denseResampleDt) (le_max_left _ _)
  obtain ⟨last, hends⟩ := timeLoop_ends hpositive id ⌊stepCount param vCurrent⌋₊ 1 _
    (by rw [Nat.cast_one]; linarith [Nat.floor_le hcount])
    (.inl (by rw [Nat.cast_one, one_mul, zero_add]))
    (resampleFront_invariant _ (by norm_num : (0 : K) < 1 / 10) hfront
      hpositive.maxTrajectoryLength hstop)
  exact hends.keeps fun dist hdist _ => hdist

/-! In steps of length, which are dense before the nearest of the stop point and the greatest and
the minimum length. -/

section
omit [Field K] [IsStrictOrderedRing K] [FloorRing K]

theorem stopArclengthValue_none (hdist : lengths.distToClosestStopPoint = none) :
    stopArclengthValue param lengths =
      min param.maxTrajectoryLength param.minTrajectoryLength := by
  unfold stopArclengthValue
  rw [hdist, min_comm]
  exact (min_def_lt _ _).symm

theorem stopArclengthValue_some {dist : K} (hdist : lengths.distToClosestStopPoint = some dist) :
    stopArclengthValue param lengths =
      min (min dist param.maxTrajectoryLength) param.minTrajectoryLength := by
  unfold stopArclengthValue
  rw [hdist, min_comm]
  exact (min_def_lt _ _).symm

end

omit [IsStrictOrderedRing K] [FloorRing K] in
theorem stopArclengthValue_spaced (hspaced : SpacedFromEgo param lengths)
    (hmaximum : stopArclengthValue param lengths < param.maxTrajectoryLength)
    (hminimum : stopArclengthValue param lengths < param.minTrajectoryLength) :
    stopArclengthValue param lengths = 0 ∨ 1 / 1000 ≤ stopArclengthValue param lengths := by
  cases hdist : lengths.distToClosestStopPoint with
  | none =>
    rw [stopArclengthValue_none hdist] at hmaximum hminimum
    rcases min_choice param.maxTrajectoryLength param.minTrajectoryLength with heq | heq
    · exact absurd (heq ▸ hmaximum) (lt_irrefl _)
    · exact absurd (heq ▸ hminimum) (lt_irrefl _)
  | some dist =>
    rw [stopArclengthValue_some hdist] at hmaximum hminimum ⊢
    have hfirst := (min_lt_iff.mp hminimum).resolve_right (lt_irrefl _)
    rw [min_eq_left (le_of_lt hfirst)] at hmaximum ⊢
    have hsecond := (min_lt_iff.mp hmaximum).resolve_right (lt_irrefl _)
    rw [min_eq_left (le_of_lt hsecond)]
    exact hspaced.distToClosestStopPoint dist hdist

variable (param lengths) in
omit [IsStrictOrderedRing K] [FloorRing K] in
theorem lengthDs_eq (nominalDs distI : K) : lengthDs param lengths nominalDs distI = 1 / 100 ∨
      lengthDs param lengths nominalDs distI = nominalDs := by
  by_cases hdense : max (stopArclengthValue param lengths - 3) 0 ≤ distI ∧
      distI ≤ stopArclengthValue param lengths
  · exact .inl (if_pos hdense)
  · exact .inr (if_neg hdense)

omit [FloorRing K] in
theorem lengthLoop_ends {nominalDs step : K} (hstep : 0 < step)
    (hds : ∀ distI, step ≤ lengthDs param lengths nominalDs distI)
    (hlong : hasLongSteps → ∀ distI, 1 / 1000 < lengthDs param lengths nominalDs distI)
    (hspaced : SpacedFromEgo param lengths →
      stopArclengthValue param lengths < param.maxTrajectoryLength →
      stopArclengthValue param lengths < param.minTrajectoryLength →
      stopArclengthValue param lengths = 0 ∨ 1 / 1000 ≤ stopArclengthValue param lengths) :
    ∀ (fuel : ℕ) (state : ResampleState K), state.distI < param.minTrajectoryLength →
      param.maxTrajectoryLength + step < progress step state + fuel * step →
      ResampleInvariant param lengths hasLongSteps (some (stopArclengthValue param lengths)) state →
      ∃ resampled last, lengthLoop param lengths nominalDs fuel state = some resampled ∧
        last.distI < param.minTrajectoryLength ∧
        EndsWith param lengths hasLongSteps (some (stopArclengthValue param lengths))
          resampled last := by
  intro fuel
  induction fuel with
  | zero =>
    intro state _ hprogress hinvariant
    exfalso
    have hle : progress step state ≤ state.distI + step := by
      unfold progress
      split
      · exact le_refl _
      · linarith
    rw [Nat.cast_zero, zero_mul] at hprogress
    linarith [hinvariant.withinMaximum]
  | succ fuel ih =>
    intro state hbefore hprogress hinvariant
    unfold lengthLoop
    obtain ⟨hmaximum, hwithin, hminimum, hok⟩ | ⟨ending, herror, hending⟩ :=
      resampleStep_cases param lengths (some (stopArclengthValue param lengths)) true
        (lengthDs param lengths nominalDs state.distI) state
    · rw [hok]
      obtain ⟨hkeeps, hle, hmore⟩ := handleStopPoint_keeps hinvariant hstep
        (add_le_add_right (hds state.distI) _)
        (fun hhasLong => add_lt_add_right (hlong hhasLong state.distI) _) hmaximum hwithin
        (fun hspacedFromEgo dist hdist hpassed => by
          obtain rfl := Option.some.inj hdist
          exact hspaced hspacedFromEgo (lt_of_lt_of_le hpassed hmaximum)
            (lt_trans hpassed (hminimum rfl)))
      refine ih _ (lt_of_le_of_lt hle (hminimum rfl)) ?_ hkeeps
      push_cast at hprogress
      linarith
    · rw [herror]
      exact ⟨_, state, rfl, hbefore, hinvariant, rfl,
        fun hminimum => ⟨hbefore, (hending hminimum).2⟩⟩

theorem resampleByLength_keeps (hpositive : param.Positive)
    (hfront : 0 ≤ lengths.frontArclengthValue)
    (hstop : ∀ dist, lengths.distToClosestStopPoint = some dist → 0 ≤ dist) {nominalDs : K}
    (hnominal : 0 < nominalDs) :
    ∃ bound : ℕ, ∀ fuel, bound ≤ fuel → ∃ resampled,
      resampleByLength param lengths nominalDs fuel = some resampled ∧
        KeepsArclengths param lengths (1 / 1000 < nominalDs) resampled := by
  have hdense : (0 : K) < 1 / 100 := by norm_num
  have hstep : 0 < min nominalDs (1 / 100) := lt_min hnominal hdense
  have hstopArclength : 0 ≤ stopArclengthValue param lengths := by
    cases hdist : lengths.distToClosestStopPoint with
    | none =>
      rw [stopArclengthValue_none hdist]
      exact le_min (le_of_lt hpositive.maxTrajectoryLength) (le_of_lt hpositive.minTrajectoryLength)
    | some dist =>
      rw [stopArclengthValue_some hdist]
      exact le_min (le_min (hstop dist hdist) (le_of_lt hpositive.maxTrajectoryLength))
        (le_of_lt hpositive.minTrajectoryLength)
  obtain ⟨bound, hbound⟩ :=
    exists_nat_gt ((param.maxTrajectoryLength + min nominalDs (1 / 100)) / min nominalDs (1 / 100))
  refine ⟨bound, fun fuel hfuel => ?_⟩
  have hprogress : param.maxTrajectoryLength + min nominalDs (1 / 100) <
      fuel * min nominalDs (1 / 100) :=
    (div_lt_iff₀ hstep).mp (lt_of_lt_of_le hbound (Nat.cast_le.mpr hfuel))
  have hinvariant := resampleFront_invariant (1 / 1000 < nominalDs) hnominal hfront
    hpositive.maxTrajectoryLength fun dist hdist => Option.some.inj hdist ▸ hstopArclength
  have hds : ∀ distI, min nominalDs (1 / 100) ≤ lengthDs param lengths nominalDs distI := by
    intro distI
    rcases lengthDs_eq param lengths nominalDs distI with heq | heq
    · exact le_of_le_of_eq (min_le_right _ _) heq.symm
    · exact le_of_le_of_eq (min_le_left _ _) heq.symm
  have hlong : 1 / 1000 < nominalDs →
      ∀ distI, 1 / 1000 < lengthDs param lengths nominalDs distI := by
    intro hnominalLong distI
    rcases lengthDs_eq param lengths nominalDs distI with heq | heq
    · rw [heq]
      norm_num
    · exact lt_of_lt_of_eq hnominalLong heq.symm
  obtain ⟨resampled, last, hloop, hbefore, hends⟩ := lengthLoop_ends hstep hds hlong
    stopArclengthValue_spaced fuel _ hpositive.minTrajectoryLength
    (by simpa [progress] using hprogress) hinvariant
  refine ⟨resampled, hloop, hends.keeps fun dist hdist hpassed => ?_⟩
  have hmaximum := lt_of_lt_of_le hpassed hends.invariant.withinMaximum
  rw [stopArclengthValue_some hdist, min_eq_left (le_of_lt hmaximum),
    min_eq_left (le_of_lt (lt_trans hpassed hbefore))]

end

/-! ## The stop point -/

section

variable {geometry : Trigonometry K O} {input : List (PosedPoint K O)} {currentPose : Pose K O}
variable {nearestDistThreshold nearestYawThreshold : K} {lengths : Lengths K}

structure StopsAhead (geometry : Trigonometry K O) (input : List (PosedPoint K O))
    (currentPose : Pose K O) (nearestDistThreshold nearestYawThreshold : K) (segIdx : ℕ)
    (offset : K) (stopIdx : ℕ) : Prop where
  currentSegIdx : findFirstNearestSegmentIndexWithSoftConstraints geometry (posesOf input)
    currentPose nearestDistThreshold nearestYawThreshold = .ok segIdx
  nearestSegmentIdx :
    findNearestSegmentIndex geometry (posesOf input) currentPose.position = .ok segIdx
  stopVelocity : searchZeroVelocityIndex input (segIdx + 1) = some stopIdx
  onSegment : calcLongitudinalOffsetToSegment geometry (posesOf input) segIdx
    currentPose.position = some offset
  notBehindStart : 0 ≤ calcSignedArcLength geometry (posesOf input) 0 segIdx + offset
  ahead : offset ≤ calcSignedArcLength geometry (posesOf input) segIdx stopIdx

section
omit [IsStrictOrderedRing K] [FloorRing K]

theorem calcLongitudinalOffsetToSegment_start {poses : List (Pose K O)} {front : Pose K O}
    {offset : K} (hfront : poses[0]? = some front)
    (hoffset : calcLongitudinalOffsetToSegment geometry poses 0 front.position = some offset) :
    offset = 0 := by
  have hremoved : (removeOverlapPoints geometry poses 0)[0]? = some front := by
    cases poses with
    | nil => cases hfront
    | cons first poses => exact hfront
  unfold calcLongitudinalOffsetToSegment at hoffset
  dsimp only at hoffset
  rw [hremoved] at hoffset
  cases hback : (removeOverlapPoints geometry poses 0)[0 + 1]? with
  | none =>
    rw [hback] at hoffset
    cases hoffset
  | some back =>
    rw [hback] at hoffset
    rw [← Option.some.inj hoffset]
    ring

theorem calcDistanceToForwardStopPoint_nonneg {dist : K}
    (hdist : calcDistanceToForwardStopPoint geometry input currentPose = some dist) : 0 ≤ dist := by
  unfold calcDistanceToForwardStopPoint at hdist
  split at hdist
  · cases hdist
  · split at hdist
    · cases hdist
    · split at hdist
      · exact le_of_eq (Option.some.inj hdist)
      · exact Option.some.inj hdist ▸ le_max_left _ _

theorem lengthsOf_eq (hlengths : lengthsOf geometry input currentPose nearestDistThreshold
      nearestYawThreshold = .ok lengths) :
    ∃ segIdx offset,
      findFirstNearestSegmentIndexWithSoftConstraints geometry (posesOf input) currentPose
        nearestDistThreshold nearestYawThreshold = .ok segIdx ∧
      calcLongitudinalOffsetToSegment geometry (posesOf input) segIdx currentPose.position =
        some offset ∧
      lengths.frontArclengthValue =
        |calcSignedArcLengthOfIndices geometry (posesOf input) segIdx 0 - offset| ∧
      lengths.distToClosestStopPoint =
        calcDistanceToForwardStopPoint geometry input currentPose := by
  unfold lengthsOf at hlengths
  obtain ⟨segIdx, hsegIdx, hlengths⟩ := bind_eq_ok.mp hlengths
  obtain ⟨front, hfront, hlengths⟩ := bind_eq_ok.mp hlengths
  obtain ⟨signedLength, hsigned, hlengths⟩ := bind_eq_ok.mp hlengths
  obtain ⟨value, hvalue, hlengths⟩ := bind_eq_ok.mp hlengths
  obtain rfl := Except.ok.inj hlengths
  have hnonempty : (posesOf input).isEmpty = false := by
    cases input with
    | nil => cases atIndex_eq_ok.mp hfront
    | cons first rest => rfl
  have hposes : (posesOf input)[0]? = some front.pose := by
    unfold posesOf
    rw [List.getElem?_map, atIndex_eq_ok.mp hfront]
    rfl
  unfold calcSignedArcLengthOfSegments at hsigned
  rw [hnonempty, if_neg Bool.false_ne_true] at hsigned
  obtain rfl := Except.ok.inj hsigned
  cases hsrc : calcLongitudinalOffsetToSegment geometry (posesOf input) segIdx
      currentPose.position with
  | none =>
    rw [hsrc] at hvalue
    cases hvalue
  | some offset =>
    cases hdst : calcLongitudinalOffsetToSegment geometry (posesOf input) 0
        front.pose.position with
    | none =>
      rw [hsrc, hdst] at hvalue
      cases hvalue
    | some dstOffset =>
      rw [hsrc, hdst] at hvalue
      refine ⟨segIdx, offset, hsegIdx, hsrc, ?_, rfl⟩
      have hzero := calcLongitudinalOffsetToSegment_start hposes hdst
      have hvalueEq := Except.ok.inj hvalue
      rw [← hvalueEq, hzero, add_zero]

theorem le_searchZeroVelocityIndex {srcIdx idx : ℕ}
    (hsearch : searchZeroVelocityIndex input srcIdx = some idx) : srcIdx ≤ idx := by
  obtain ⟨steps, -, hidx⟩ := Option.map_eq_some_iff.mp hsearch
  exact hidx ▸ Nat.le_add_right srcIdx steps

end

omit [FloorRing K] in
theorem StopsAhead.arclength {segIdx stopIdx : ℕ} {offset : K}
    (hahead : StopsAhead geometry input currentPose nearestDistThreshold nearestYawThreshold segIdx
      offset stopIdx)
    (hlengths : lengthsOf geometry input currentPose nearestDistThreshold
      nearestYawThreshold = .ok lengths) :
    ∃ dist, lengths.distToClosestStopPoint = some dist ∧ dist + lengths.frontArclengthValue =
        calcSignedArcLength geometry (posesOf input) 0 stopIdx := by
  obtain ⟨otherSegIdx, otherOffset, hother, hotherOffset, hfront, hdist⟩ := lengthsOf_eq hlengths
  obtain rfl := Except.ok.inj (hother.symm.trans hahead.currentSegIdx)
  obtain rfl := Option.some.inj (hotherOffset.symm.trans hahead.onSegment)
  have hle : otherSegIdx ≤ stopIdx :=
    le_trans (Nat.le_succ otherSegIdx) (le_searchZeroVelocityIndex hahead.stopVelocity)
  have hfrontEq : lengths.frontArclengthValue =
      calcSignedArcLength geometry (posesOf input) 0 otherSegIdx + otherOffset := by
    have hsigned : calcSignedArcLengthOfIndices geometry (posesOf input) otherSegIdx 0 =
        -calcSignedArcLength geometry (posesOf input) 0 otherSegIdx := by
      unfold calcSignedArcLengthOfIndices
      rcases Nat.eq_zero_or_pos otherSegIdx with rfl | hpos
      · rw [if_neg (Nat.lt_irrefl 0), calcSignedArcLength_eq (le_refl 0), sub_self, neg_zero]
      · rw [if_pos hpos]
    rw [hfront, hsigned, ← neg_add', abs_neg, abs_of_nonneg hahead.notBehindStart]
  have hdistEq : calcDistanceToForwardStopPoint geometry input currentPose =
      some (calcSignedArcLength geometry (posesOf input) otherSegIdx stopIdx - otherOffset) := by
    unfold calcDistanceToForwardStopPoint
    simp only [hahead.nearestSegmentIdx, hahead.stopVelocity, hahead.onSegment]
    rw [calcSignedArcLengthOfIndices, if_neg (not_lt.mpr hle),
      max_eq_right (sub_nonneg.mpr hahead.ahead)]
  refine ⟨_, hdist.trans hdistEq, ?_⟩
  rw [hfrontEq, calcSignedArcLength_eq (Nat.zero_le otherSegIdx), calcSignedArcLength_eq hle,
    calcSignedArcLength_eq (Nat.zero_le stopIdx)]
  ring

end

/-- Both lists keep their order and their end, and what is a millimetre apart is kept in them; the
one in steps of length is complete after a number of them. -/
theorem resampleTrajectory_keeps_arclengths (geometry : Trigonometry K O) {param : ResampleParam K}
    (hpositive : param.Positive) {input : List (PosedPoint K O)} {currentPose : Pose K O}
    {nearestDistThreshold nearestYawThreshold : K} {lengths : Lengths K}
    (hlengths : lengthsOf geometry input currentPose nearestDistThreshold nearestYawThreshold =
      .ok lengths) (vCurrent : K) {nominalDs : K} (hnominal : 0 < nominalDs) :
    (∀ segIdx offset stopIdx,
      StopsAhead geometry input currentPose nearestDistThreshold nearestYawThreshold segIdx offset
          stopIdx →
        ∃ dist, lengths.distToClosestStopPoint = some dist ∧ dist + lengths.frontArclengthValue =
            calcSignedArcLength geometry (posesOf input) 0 stopIdx) ∧
    KeepsArclengths param lengths
      (1 / 1000 < dsNominal param vCurrent ∧ 1 / 1000 < sparseDs param vCurrent)
      (resampleByTime param lengths vCurrent) ∧
    ∃ bound : ℕ, ∀ fuel, bound ≤ fuel → ∃ resampled,
      resampleByLength param lengths nominalDs fuel = some resampled ∧
        KeepsArclengths param lengths (1 / 1000 < nominalDs) resampled := by
  obtain ⟨segIdx, offset, -, -, hfront, hdist⟩ := lengthsOf_eq hlengths
  have hfrontNonneg : 0 ≤ lengths.frontArclengthValue := hfront ▸ abs_nonneg _
  have hdistNonneg : ∀ dist, lengths.distToClosestStopPoint = some dist → 0 ≤ dist :=
    fun dist hsome => calcDistanceToForwardStopPoint_nonneg (hdist.symm.trans hsome)
  exact ⟨fun _ _ _ hahead => hahead.arclength hlengths,
    resampleByTime_keeps hpositive hfrontNonneg hdistNonneg vCurrent,
    resampleByLength_keeps hpositive hfrontNonneg hdistNonneg hnominal⟩

def shortParam : ResampleParam ℚ where
  maxTrajectoryLength := 4
  minTrajectoryLength := 2
  resampleTime := 1
  denseResampleDt := 1
  denseMinIntervalDistance := 1
  sparseResampleDt := 1
  sparseMinIntervalDistance := 1

theorem shortParam_positive : shortParam.Positive := by
  constructor <;> norm_num [shortParam]

def straightInput : List (PosedPoint ℚ Unit) :=
  [⟨poseAt 0 0, 1⟩, ⟨poseAt 3 0, 0⟩]

theorem straightInput_keeps_arclengths :
    KeepsArclengths shortParam ⟨1, 3, some 2⟩ (1 / 1000 < dsNominal shortParam (1 : ℚ) ∧
        1 / 1000 < sparseDs shortParam (1 : ℚ))
      (resampleByTime shortParam ⟨1, 3, some 2⟩ 1) :=
  (resampleTrajectory_keeps_arclengths rationalTrigonometry shortParam_positive
    (show lengthsOf rationalTrigonometry straightInput (poseAt 1 0) 10 10 = .ok ⟨1, 3, some 2⟩ by
      decide +kernel) 1 (show (0 : ℚ) < 1 by norm_num)).2.1

/-- Half a millimetre behind the start, the vehicle takes the place of the start in both lists. -/
theorem ego_replaces_start :
    shortParam.Positive ∧ lengthsOf rationalTrigonometry straightInput (poseAt (1 / 2000) 0) 10 10 =
        .ok ⟨1 / 2000, 3, some (5999 / 2000)⟩ ∧
      ((resampleByTime shortParam ⟨1 / 2000, 3, some (5999 / 2000)⟩ 1).outArclength shortParam
        ⟨1 / 2000, 3, some (5999 / 2000)⟩).head? = some (1 / 2000) ∧
      ((resampleByLength shortParam ⟨1 / 2000, 3, some (5999 / 2000)⟩ 1 300).map fun resampled =>
        (resampled.outArclength shortParam ⟨1 / 2000, 3, some (5999 / 2000)⟩).head?) =
          some (some (1 / 2000)) :=
  ⟨shortParam_positive, by decide +kernel⟩

end AutowareUniverse.Planning.MotionVelocitySmoother.Resampling
