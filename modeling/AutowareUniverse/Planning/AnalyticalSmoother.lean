import AutowareUniverse.Planning.StopVelocity

/-!
# The analytical smoother

The smoother looks for the points that a trajectory decelerates to.  To each of
them it follows the trajectory forwards and then plans a deceleration, with the
mildest jerk that is enough, from one of two earlier points.
-/

namespace AutowareUniverse.Planning.MotionVelocitySmoother.AnalyticalJerkConstrainedSmoother

open AnalyticalVelocityPlanningUtils

open Common.Interpolation (Failure atIndex)

open JerkFilteredSmoother (withState)

variable {K : Type} [Field K] [LinearOrder K]

structure ForwardParam (K : Type) where
  maxAcc : K
  minAcc : K
  maxJerk : K
  minJerk : K
  kp : K

structure BackwardParam (K : Type) where
  startJerk : K
  minJerkMildStop : K
  minJerk : K
  minAccMildStop : K
  minAcc : K
  spanJerk : K

structure Param (K : Type) where
  forward : ForwardParam K
  backward : BackwardParam K

/-- A call throws, or its loop is still running. -/
inductive Interruption where
  | thrown (failure : Failure)
  | running
  deriving DecidableEq

def throwing {α : Type} (program : Except Failure α) : Except Interruption α :=
  program.mapError .thrown

section

/-- `dv_before < ep`, and `ep < dv_after` before the last point. -/
def isDecelTarget (velocities : List K) (i : ℕ) : Except Failure Bool := do
  let ep : K := -1 / 100000
  let before ← atIndex velocities (i - 1)
  let current ← atIndex velocities i
  if i = velocities.length - 1 then return current - before < ep
  else
    let after ← atIndex velocities (i + 1)
    return current - before < ep ∧ ep < after - current

def searchTargets (velocities : List K) : List ℕ → Except Failure (List (ℕ × K))
  | [] => return []
  | i :: indices => do
    let found ← isDecelTarget velocities i
    let velocity ← atIndex velocities i
    let targets ← searchTargets velocities indices
    return if found then (i, velocity) :: targets else targets

def leaveOutClose : List (ℕ × K) → List (ℕ × K)
  | first :: second :: targets =>
    let indexErr := 10
    if second.1 - first.1 < indexErr ∧ second.2 < first.2 then
      leaveOutClose (second :: targets)
    else first :: leaveOutClose (second :: targets)
  | targets => targets

def searchDecelTargetIndices (trajectory : List (PlannedPoint K)) :
    Except Failure (List (ℕ × K)) := do
  let velocities := trajectory.map (·.longitudinalVelocityMps)
  let tmpIndices ← searchTargets velocities (List.range' 1 (trajectory.length - 1))
  return leaveOutClose tmpIndices

end

def assignStates (startIndex : ℕ) (states : List (K × K)) (trajectory : List (PlannedPoint K)) :
    List (PlannedPoint K) :=
  trajectory.mapIdx fun i point =>
    if i < startIndex then point
    else
      match states[i - startIndex]? with
      | some state => withState point state
      | none => point

section

variable (real : RealFunctions K)

/-- The velocities and accelerations behind a point. -/
def forwardLoop (param : ForwardParam K) :
    K × K → PlannedPoint K → List (PlannedPoint K) → List (K × K)
  | _, _, [] => []
  | (prevVel, prevAcc), previous, point :: points =>
    let ds := calcDistance2d real previous.position point.position
    let dt := ds / max prevVel 1
    let currVel := max (prevVel + prevAcc * dt) 0
    let errorVel := point.longitudinalVelocityMps - currVel
    let fbAcc := param.kp * errorVel
    let limitedAcc := max param.minAcc (min param.maxAcc fbAcc)
    let fbJerk := (limitedAcc - prevAcc) / dt
    let limitedJerk := max param.minJerk (min param.maxJerk fbJerk)
    let currAcc := prevAcc + limitedJerk * dt
    (currVel, currAcc) :: forwardLoop param (currVel, currAcc) point points

def applyForwardJerkFilter (baseTrajectory : List (PlannedPoint K)) (startIndex : ℕ)
    (initial : K × K) (param : ForwardParam K) (outputTrajectory : List (PlannedPoint K)) :
    Except Failure (List (PlannedPoint K)) :=
  if outputTrajectory.length ≤ startIndex then .error .outOfRange
  else
    match baseTrajectory.drop startIndex with
    | [] => .ok (assignStates startIndex [initial] outputTrajectory)
    | first :: points =>
      if outputTrajectory.length < baseTrajectory.length then .error .outOfRange
      else
        .ok (assignStates startIndex (initial :: forwardLoop real param initial first points)
          outputTrajectory)

/-- `applyMaxVelocity`: nothing happens where the range is not one of the trajectory. -/
def applyMaxVelocity (maxVelocity : K) (startIndex endIndex : ℕ)
    (trajectory : List (PlannedPoint K)) : Except Failure (List (PlannedPoint K)) :=
  if endIndex < startIndex ∨ trajectory.length < endIndex then .ok trajectory
  else if trajectory.length ≤ endIndex then .error .outOfRange
  else
    .ok (trajectory.mapIdx fun i point =>
      if startIndex ≤ i ∧ i ≤ endIndex then
        withState point (min point.longitudinalVelocityMps maxVelocity, 0)
      else point)

/-! ## Backward filter -/

def pathLength : List (PlannedPoint K) → K
  | first :: second :: points =>
    calcDistance2d real first.position second.position + pathLength (second :: points)
  | _ => 0

variable (trajectory : List (PlannedPoint K))

def distToTarget (startIndex targetIndex : ℕ) : List K :=
  (List.range trajectory.length).map fun i =>
    if startIndex ≤ i ∧ i < targetIndex then
      pathLength real ((trajectory.drop i).take (targetIndex - i + 1))
    else 0

def moveStart (targetVel : K) (targetIndex startIndex : ℕ) :
    ℕ :=
  let points := (trajectory.drop startIndex).take (targetIndex - startIndex)
  match points.findIdx? fun point => targetVel ≤ point.longitudinalVelocityMps with
  | some steps => startIndex + steps
  | none => startIndex

def calcMinAcc (param : BackwardParam K) (planningJerk : K) : K :=
  if planningJerk < param.minJerkMildStop then param.minAcc else param.minAccMildStop

structure DecelTimes (K : Type) where
  isEnoughDist : Bool
  type : ℕ
  times : List K

def calcEnoughDistForDecel (startIndex : ℕ)
    (decelTargetVel planningJerk : K) (param : BackwardParam K) (distToTarget : List K) :
    Except Failure (DecelTimes K) := do
  let start ← atIndex trajectory startIndex
  match calcStopDistWithJerkAndAccConstraints real.sqrt start.longitudinalVelocityMps
      start.accelerationMps2 |planningJerk| planningJerk (calcMinAcc param planningJerk)
      decelTargetVel with
  | none => return { isEnoughDist := false, type := 0, times := [] }
  | some (type, times, stopDist) =>
    let allowedDist ← atIndex distToTarget startIndex
    return {
      isEnoughDist := 0 ≤ stopDist ∧ stopDist ≤ allowedDist
      type := type
      times := times }

structure DecelPlan (K : Type) where
  planningJerk : K
  startIndex : ℕ
  distToTarget : List K
  type : ℕ
  times : List K

section

variable (param : BackwardParam K) (trajectory : List (PlannedPoint K)) (targetIndex : ℕ)
  (targetVel : K)

def jerkLoop (startIndex : ℕ) (distToTarget : List K) :
    ℕ → K → Except Interruption (Option (DecelPlan K))
  | 0, _ => .error .running
  | fuel + 1, planningJerk =>
    if param.minJerk - 1 / 1000 < planningJerk then do
      let found ← throwing (calcEnoughDistForDecel real trajectory startIndex targetVel
        planningJerk param distToTarget)
      if found.isEnoughDist then
        return some ⟨planningJerk, startIndex, distToTarget, found.type, found.times⟩
      else jerkLoop startIndex distToTarget fuel (planningJerk + param.spanJerk)
    else return none

def planFrom (fuel startIndex : ℕ) : Except Interruption (Option (DecelPlan K)) :=
  if trajectory.length ≤ targetIndex then .error (.thrown .outOfRange)
  else
    let startIndex := moveStart trajectory targetVel targetIndex startIndex
    jerkLoop real param trajectory targetVel startIndex
      (distToTarget real trajectory startIndex targetIndex) fuel param.startJerk

/-- The plan with the greatest jerk, and of these the last one. -/
def choosePlan (output : DecelPlan K) : Option (DecelPlan K) → DecelPlan K
  | some plan => if output.planningJerk ≤ plan.planningJerk then plan else output
  | none => output

def planStarts (fuel : ℕ) : DecelPlan K → List ℕ → Except Interruption (DecelPlan K)
  | output, [] => return output
  | output, startIndex :: startIndices => do
    let plan ← planFrom real param trajectory targetIndex targetVel fuel startIndex
    planStarts fuel (choosePlan output plan) startIndices

def searchDecelStart (output : DecelPlan K) : ℕ → DecelPlan K → Except Failure (DecelPlan K)
  | 0, last =>
    if 0 < output.startIndex then return last
    else do
      let found ← calcEnoughDistForDecel real trajectory 0 targetVel output.planningJerk param
        output.distToTarget
      if found.isEnoughDist then
        return { output with startIndex := 0, type := found.type, times := found.times }
      else .error .outOfRange
  | i + 1, last =>
    if i + 1 < output.startIndex then return last
    else do
      let found ← calcEnoughDistForDecel real trajectory (i + 1) targetVel output.planningJerk
        param output.distToTarget
      if found.isEnoughDist then
        return { output with startIndex := i + 1, type := found.type, times := found.times }
      else
        searchDecelStart output i { output with type := found.type, times := found.times }

def planDecel (fuel : ℕ) (startIndices : List ℕ) :
    Except Interruption (Option (DecelPlan K)) := do
  let output ← planStarts real param trajectory targetIndex targetVel fuel
    ⟨-100, 0, [], 0, []⟩ startIndices
  if output.planningJerk = -100 then return none
  else if output.planningJerk = param.startJerk then do
    if targetIndex = 0 then .error (.thrown .outOfRange)
    else
      let output ← throwing (searchDecelStart real param trajectory targetVel output
        (targetIndex - 1) output)
      return some output
  else return some output

variable [FloorRing K]

def applyDecelVelocityFilter (plan : DecelPlan K) :
    Except Failure (Option (List (PlannedPoint K))) := do
  let start ← atIndex trajectory plan.startIndex
  calcStopVelocityWithConstantJerkAccLimit real start.longitudinalVelocityMps
    start.accelerationMps2 |plan.planningJerk| plan.planningJerk
    (calcMinAcc param plan.planningJerk) targetVel plan.type plan.times plan.startIndex trajectory

end

/-! ## The smoother -/

/-- A call of `applyBackwardDecelFilter`. -/
structure BackwardCall (K : Type) where
  targetIndex : ℕ
  targetVel : K
  before : List (PlannedPoint K)
  plan : Option (DecelPlan K)
  after : Option (List (PlannedPoint K))

variable [FloorRing K]

def applyBackwardDecelFilter (fuel : ℕ) (startIndices : List ℕ) (targetIndex : ℕ)
    (targetVel : K) (param : BackwardParam K) (trajectory : List (PlannedPoint K)) :
    Except Interruption (BackwardCall K) := do
  let plan ← planDecel real param trajectory targetIndex targetVel fuel startIndices
  match plan with
  | none => return ⟨targetIndex, targetVel, trajectory, none, none⟩
  | some plan =>
    let after ← throwing (applyDecelVelocityFilter real param trajectory targetVel plan)
    return ⟨targetIndex, targetVel, trajectory, some plan, after⟩

/-- The velocity and the acceleration at an index. -/
def stateAt (trajectory : List (PlannedPoint K)) (i : ℕ) : Except Failure (K × K) := do
  let point ← atIndex trajectory i
  return (point.longitudinalVelocityMps, point.accelerationMps2)

/-- The last target, among those before, that is slower than the one behind it. -/
def backwardStart (targetVel : K) : List (ℕ × K) → Option ℕ
  | [] => none
  | previous :: earlier =>
    if previous.2 < targetVel then some previous.1 else backwardStart previous.2 earlier

/-- The trajectories between two targets, and the calls so far. -/
structure SmootherState (K : Type) where
  referenceTrajectory : List (PlannedPoint K)
  filteredTrajectory : List (PlannedPoint K)
  isFinished : Bool
  calls : List (BackwardCall K)

variable (param : Param K) (initial : K × K)

def startState (trajectory : List (PlannedPoint K)) : Option ℕ → Except Interruption (K × K)
  | none => .ok initial
  | some index => throwing (stateAt trajectory index)

/-- One target behind those before it, the nearest of them first. -/
def processTarget (fuel : ℕ) (previous : List (ℕ × K)) (target : ℕ × K)
    (state : SmootherState K) : Except Interruption (SmootherState K) := do
  let (targetIndex, targetVel) := target
  let fwdStartIndex := (previous.head?.map Prod.fst).getD 0
  let fwdStart ← startState initial state.filteredTrajectory (previous.head?.map Prod.fst)
  let filtered ← throwing (applyForwardJerkFilter real state.referenceTrajectory fwdStartIndex
    fwdStart param.forward state.filteredTrajectory)
  let bwdStartIndex := (backwardStart targetVel previous).getD 0
  let bwdStart ← startState initial filtered (backwardStart targetVel previous)
  let startIndices :=
    if bwdStartIndex ≠ fwdStartIndex then [bwdStartIndex, fwdStartIndex] else [bwdStartIndex]
  let call ← applyBackwardDecelFilter real fuel startIndices targetIndex targetVel param.backward
    filtered
  let calls := state.calls ++ [call]
  match call.after with
  | some filtered => return ⟨state.referenceTrajectory, filtered, false, calls⟩
  | none =>
    if |targetVel| < 1 / 1000 then do
      let filtered ← throwing (applyMaxVelocity 0 bwdStartIndex (filtered.length - 1) filtered)
      return ⟨state.referenceTrajectory, filtered, true, calls⟩
    else
      let reference ← throwing (applyMaxVelocity targetVel bwdStartIndex targetIndex
        state.referenceTrajectory)
      let filtered ← throwing (applyForwardJerkFilter real reference bwdStartIndex bwdStart
        param.forward filtered)
      return ⟨reference, filtered, false, calls⟩

/-- The loop over the targets, and the forward filter behind the last one. -/
def processTargets (fuel : ℕ) : List (ℕ × K) → List (ℕ × K) → SmootherState K →
    Except Interruption (SmootherState K)
  | previous, [], state => do
    let startIndex := (previous.head?.map Prod.fst).getD 0
    let start ← startState initial state.filteredTrajectory (previous.head?.map Prod.fst)
    let filtered ← throwing (applyForwardJerkFilter real state.referenceTrajectory startIndex
      start param.forward state.filteredTrajectory)
    return { state with filteredTrajectory := filtered }
  | previous, target :: targets, state => do
    let state ← processTarget real param initial fuel previous target state
    if state.isFinished then return state
    else processTargets fuel (target :: previous) targets state

/-- The output is the filtered trajectory; nothing is returned for an empty input. -/
def apply (fuel : ℕ) (input : List (PlannedPoint K)) :
    Except Interruption (Option (SmootherState K)) :=
  match input with
  | [] => return none
  | [point] => return some ⟨input, [withState point initial], true, []⟩
  | _ => do
    let targets ← throwing (searchDecelTargetIndices input)
    let state ← processTargets real param initial fuel [] targets ⟨input, input, false, []⟩
    return some state

end

open Common.Interpolation (Failure atIndex atIndex_eq_ok exists_atIndex Interpolates lerp_of_inside)

open Library.Fallible

theorem throwing_eq_ok {α : Type} {program : Except Failure α} {result : α} :
    throwing program = .ok result ↔ program = .ok result := by
  cases program with
  | error failure =>
    constructor
    · intro hthrow
      cases hthrow
    · intro herror
      cases herror
  | ok other =>
    constructor
    · intro hok
      exact congrArg Except.ok (Except.ok.inj hok)
    · intro hok
      exact congrArg Except.ok (Except.ok.inj hok)

section

variable {velocities : List K}

theorem isDecelTarget_ok {i : ℕ} (hi : i < velocities.length) :
    ∃ found, isDecelTarget velocities i = .ok found := by
  obtain ⟨before, hbefore⟩ := exists_atIndex (show i - 1 < velocities.length by omega)
  obtain ⟨current, hcurrent⟩ := exists_atIndex hi
  unfold isDecelTarget
  by_cases hlast : i = velocities.length - 1
  · exact ⟨_, bind_eq_ok.mpr ⟨before, hbefore, bind_eq_ok.mpr ⟨current, hcurrent, if_pos hlast⟩⟩⟩
  · obtain ⟨after, hafter⟩ := exists_atIndex (show i + 1 < velocities.length by omega)
    exact ⟨_, bind_eq_ok.mpr ⟨before, hbefore, bind_eq_ok.mpr ⟨current, hcurrent,
      (if_neg hlast).trans (bind_eq_ok.mpr ⟨after, hafter, rfl⟩)⟩⟩⟩

theorem searchTargets_ok {indices : List ℕ} (hindices : ∀ i ∈ indices, i < velocities.length) :
    ∃ targets, searchTargets velocities indices = .ok targets ∧
      (targets.map Prod.fst).Sublist indices := by
  induction indices with
  | nil => exact ⟨[], rfl, List.Sublist.refl []⟩
  | cons i indices ih =>
    obtain ⟨hi, hlater⟩ := List.forall_mem_cons.mp hindices
    obtain ⟨found, hfound⟩ := isDecelTarget_ok hi
    obtain ⟨velocity, hvelocity⟩ := exists_atIndex hi
    obtain ⟨targets, htargets, hsublist⟩ := ih hlater
    refine ⟨_, bind_eq_ok.mpr ⟨found, hfound, bind_eq_ok.mpr ⟨velocity, hvelocity,
      bind_eq_ok.mpr ⟨targets, htargets, rfl⟩⟩⟩, ?_⟩
    cases found with
    | false => exact hsublist.cons i
    | true => exact hsublist.cons_cons i

omit [Field K] in
theorem leaveOutClose_sublist (targets : List (ℕ × K)) :
    (leaveOutClose targets).Sublist targets := by
  fun_induction leaveOutClose targets with
  | case1 first second targets _ _ ih => exact ih.cons first
  | case2 first second targets _ _ ih => exact ih.cons_cons first
  | case3 targets _ => exact List.Sublist.refl targets

theorem searchDecelTargetIndices_ok {trajectory : List (PlannedPoint K)}
    (htwo : 2 ≤ trajectory.length) :
    ∃ targets, searchDecelTargetIndices trajectory = .ok targets ∧
      targets.Pairwise (fun first second => first.1 < second.1) ∧
      ∀ target ∈ targets, 0 < target.1 ∧ target.1 < trajectory.length := by
  have hindices : ∀ i ∈ List.range' 1 (trajectory.length - 1),
      i < (trajectory.map (·.longitudinalVelocityMps)).length := by
    intro i hi
    rw [List.mem_range'_1] at hi
    rw [List.length_map]
    omega
  obtain ⟨targets, htargets, hsublist⟩ := searchTargets_ok hindices
  have hclose := (leaveOutClose_sublist targets).map Prod.fst
  refine ⟨leaveOutClose targets, bind_eq_ok.mpr ⟨targets, htargets, rfl⟩, ?_, ?_⟩
  · have hsorted : (List.range' 1 (trajectory.length - 1)).Pairwise (· < ·) :=
      List.pairwise_lt_range'
    exact List.pairwise_map.mp (hsorted.sublist (hclose.trans hsublist))
  · intro target htarget
    have hmem := (hclose.trans hsublist).subset (List.mem_map_of_mem htarget)
    rw [List.mem_range'_1] at hmem
    omega

end

section

variable {real : RealFunctions K}

section
omit [Field K] [LinearOrder K]

@[simp] theorem length_assignStates (startIndex : ℕ) (states : List (K × K))
    (trajectory : List (PlannedPoint K)) :
    (assignStates startIndex states trajectory).length = trajectory.length :=
  List.length_mapIdx

theorem getElem?_assignStates_of_lt {startIndex i : ℕ} {states : List (K × K)}
    {trajectory : List (PlannedPoint K)} (hi : i < startIndex) :
    (assignStates startIndex states trajectory)[i]? = trajectory[i]? := by
  rw [assignStates, List.getElem?_mapIdx]
  simp only [if_pos hi, Option.map_id']

theorem getElem?_assignStates_start {startIndex : ℕ} {initial : K × K} {states : List (K × K)}
    {trajectory : List (PlannedPoint K)} :
    (assignStates startIndex (initial :: states) trajectory)[startIndex]? =
      trajectory[startIndex]?.map (withState · initial) := by
  rw [assignStates, List.getElem?_mapIdx]
  simp only [Nat.lt_irrefl, if_false, Nat.sub_self, List.getElem?_cons_zero]

end

variable {startIndex : ℕ}

variable (real) in
theorem applyForwardJerkFilter_ok (param : ForwardParam K) (initial : K × K)
    {base output : List (PlannedPoint K)} (hstart : startIndex < output.length)
    (hlength : base.length = output.length) :
    ∃ filtered, applyForwardJerkFilter real base startIndex initial param output = .ok filtered ∧
      filtered.length = output.length ∧
      (∀ i < startIndex, filtered[i]? = output[i]?) ∧
      filtered[startIndex]? = output[startIndex]?.map (withState · initial) := by
  unfold applyForwardJerkFilter
  rw [if_neg (not_le.mpr hstart)]
  cases base.drop startIndex with
  | nil =>
    exact ⟨_, rfl, length_assignStates _ _ _, fun i hi => getElem?_assignStates_of_lt hi,
      getElem?_assignStates_start⟩
  | cons first points =>
    refine ⟨_, if_neg (by omega), length_assignStates _ _ _,
      fun i hi => getElem?_assignStates_of_lt hi, getElem?_assignStates_start⟩

theorem applyMaxVelocity_ok (maxVelocity : K) (startIndex : ℕ) {endIndex : ℕ}
    {trajectory : List (PlannedPoint K)} (hend : endIndex < trajectory.length) :
    ∃ limited, applyMaxVelocity maxVelocity startIndex endIndex trajectory = .ok limited ∧
      limited.length = trajectory.length := by
  unfold applyMaxVelocity
  by_cases hrange : endIndex < startIndex ∨ trajectory.length < endIndex
  · exact ⟨trajectory, if_pos hrange, rfl⟩
  · exact ⟨_, (if_neg hrange).trans (if_neg (not_le.mpr hend)), List.length_mapIdx⟩

/-! ## Plans -/

variable {param : BackwardParam K} {trajectory : List (PlannedPoint K)} {targetIndex : ℕ}
  {targetVel : K}

/-- The distance from the start of a plan is enough for it. -/
structure IsPlan (real : RealFunctions K) (param : BackwardParam K)
    (trajectory : List (PlannedPoint K)) (targetIndex : ℕ) (targetVel : K) (plan : DecelPlan K) :
    Prop where
  beforeTarget : plan.startIndex < targetIndex
  length_distToTarget : plan.distToTarget.length = trajectory.length
  isEnoughDist : calcEnoughDistForDecel real trajectory plan.startIndex targetVel
    plan.planningJerk param plan.distToTarget = .ok ⟨true, plan.type, plan.times⟩

variable (real param targetVel) in
theorem calcEnoughDistForDecel_ok (planningJerk : K) {distToTarget : List K}
    (hstart : startIndex < trajectory.length) (hlength : distToTarget.length = trajectory.length) :
    ∃ found, calcEnoughDistForDecel real trajectory startIndex targetVel planningJerk param
      distToTarget = .ok found := by
  obtain ⟨start, hpoint⟩ := exists_atIndex hstart
  obtain ⟨allowedDist, hallowed⟩ := exists_atIndex (hlength ▸ hstart)
  unfold calcEnoughDistForDecel
  rw [hpoint]
  cases hfound : calcStopDistWithJerkAndAccConstraints real.sqrt start.longitudinalVelocityMps
      start.accelerationMps2 |planningJerk| planningJerk (calcMinAcc param planningJerk)
      targetVel with
  | none =>
    refine ⟨⟨false, 0, []⟩, ?_⟩
    simp only [bind, Except.bind, hfound]
    rfl
  | some found =>
    refine ⟨⟨0 ≤ found.2.2 ∧ found.2.2 ≤ allowedDist, found.1, found.2.1⟩, ?_⟩
    simp only [bind, Except.bind, hfound, hallowed]
    rfl

theorem found_of_isEnoughDist {startIndex type : ℕ} {planningJerk : K}
    {distToTarget times : List K} (henough : calcEnoughDistForDecel real trajectory startIndex
      targetVel planningJerk param distToTarget = .ok ⟨true, type, times⟩) :
    ∃ start stopDist, trajectory[startIndex]? = some start ∧
      calcStopDistWithJerkAndAccConstraints real.sqrt start.longitudinalVelocityMps
        start.accelerationMps2 |planningJerk| planningJerk (calcMinAcc param planningJerk)
        targetVel = some (type, times, stopDist) := by
  unfold calcEnoughDistForDecel at henough
  obtain ⟨start, hpoint, henough⟩ := bind_eq_ok.mp henough
  refine ⟨start, ?_⟩
  cases hfound : calcStopDistWithJerkAndAccConstraints real.sqrt start.longitudinalVelocityMps
      start.accelerationMps2 |planningJerk| planningJerk (calcMinAcc param planningJerk)
      targetVel with
  | none =>
    rw [hfound] at henough
    cases henough
  | some found =>
    obtain ⟨foundType, foundTimes, stopDist⟩ := found
    rw [hfound] at henough
    obtain ⟨allowedDist, -, henough⟩ := bind_eq_ok.mp henough
    have heq := Except.ok.inj henough
    rw [DecelTimes.mk.injEq] at heq
    obtain ⟨-, rfl, rfl⟩ := heq
    exact ⟨stopDist, atIndex_eq_ok.mp hpoint, rfl⟩

variable [IsStrictOrderedRing K]

theorem jerkLoop_ok {dists : List K} (htarget : startIndex < targetIndex)
    (hstart : startIndex < trajectory.length) (hlength : dists.length = trajectory.length)
    (fuel : ℕ) {planningJerk : K}
    (hfuel : planningJerk + fuel * param.spanJerk ≤ param.minJerk - 1 / 1000) :
    ∃ result, jerkLoop real param trajectory targetVel startIndex dists (fuel + 1) planningJerk =
        .ok result ∧
      ∀ plan, result = some plan → IsPlan real param trajectory targetIndex targetVel plan := by
  induction fuel generalizing planningJerk with
  | zero =>
    rw [Nat.cast_zero, zero_mul, add_zero] at hfuel
    exact ⟨none, if_neg (not_lt.mpr hfuel), nofun⟩
  | succ fuel ih =>
    unfold jerkLoop
    by_cases hjerk : param.minJerk - 1 / 1000 < planningJerk
    · obtain ⟨found, hfound⟩ := calcEnoughDistForDecel_ok real param targetVel planningJerk
        hstart hlength
      rw [if_pos hjerk, hfound]
      obtain ⟨isEnough, type, times⟩ := found
      cases isEnough with
      | true =>
        refine ⟨_, rfl, ?_⟩
        rintro plan ⟨⟩
        exact ⟨htarget, hlength, hfound⟩
      | false =>
        refine ih ?_
        push_cast at hfuel
        linarith
    · exact ⟨none, if_neg hjerk, nofun⟩

variable (trajectory targetVel) in
omit [Field K] [IsStrictOrderedRing K] in
theorem moveStart_lt (hstart : startIndex < targetIndex) :
    moveStart trajectory targetVel targetIndex startIndex < targetIndex := by
  unfold moveStart
  dsimp only
  cases hfind : ((trajectory.drop startIndex).take (targetIndex - startIndex)).findIdx?
      fun point => targetVel ≤ point.longitudinalVelocityMps with
  | none => exact hstart
  | some steps =>
    have hsteps := (List.findIdx?_eq_some_iff_getElem.mp hfind).1
    rw [List.length_take] at hsteps
    dsimp only
    omega

/-- Enough rounds for the loop over the jerks. -/
def IsEnoughFuel (param : BackwardParam K) (fuel : ℕ) : Prop :=
  param.startJerk + fuel * param.spanJerk ≤ param.minJerk - 1 / 1000

variable (real targetVel) in
theorem planFrom_ok {fuel startIndex : ℕ} (hfuel : IsEnoughFuel param fuel)
    (hstart : startIndex < targetIndex) (htarget : targetIndex < trajectory.length) :
    ∃ result, planFrom real param trajectory targetIndex targetVel (fuel + 1) startIndex =
        .ok result ∧
      ∀ plan, result = some plan → IsPlan real param trajectory targetIndex targetVel plan := by
  unfold planFrom
  rw [if_neg (not_le.mpr htarget)]
  have hmoved := moveStart_lt trajectory targetVel hstart
  exact jerkLoop_ok hmoved (lt_trans hmoved htarget) (by simp [distToTarget]) fuel hfuel

variable (real targetVel) in
theorem planStarts_ok {fuel : ℕ} (hfuel : IsEnoughFuel param fuel)
    (htarget : targetIndex < trajectory.length) {startIndices : List ℕ}
    (hstarts : ∀ startIndex ∈ startIndices, startIndex < targetIndex) (output : DecelPlan K)
    (houtput : output.planningJerk = -100 ∨
      IsPlan real param trajectory targetIndex targetVel output) :
    ∃ result, planStarts real param trajectory targetIndex targetVel (fuel + 1) output
        startIndices = .ok result ∧
      (result.planningJerk = -100 ∨
        IsPlan real param trajectory targetIndex targetVel result) := by
  induction startIndices generalizing output with
  | nil => exact ⟨output, rfl, houtput⟩
  | cons startIndex startIndices ih =>
    obtain ⟨hstart, hlater⟩ := List.forall_mem_cons.mp hstarts
    obtain ⟨plan, hplan, hisPlan⟩ := planFrom_ok real targetVel hfuel hstart htarget
    have hchosen : (choosePlan output plan).planningJerk = -100 ∨
        IsPlan real param trajectory targetIndex targetVel (choosePlan output plan) := by
      cases plan with
      | none => exact houtput
      | some plan =>
        unfold choosePlan
        dsimp only
        by_cases hgreater : output.planningJerk ≤ plan.planningJerk
        · rw [if_pos hgreater]
          exact .inr (hisPlan plan rfl)
        · rw [if_neg hgreater]
          exact houtput
    obtain ⟨result, hresult, hkeeps⟩ := ih hlater _ hchosen
    exact ⟨result, bind_eq_ok.mpr ⟨plan, hplan, hresult⟩, hkeeps⟩

omit [IsStrictOrderedRing K] in
theorem searchDecelStart_ok {output : DecelPlan K}
    (houtput : IsPlan real param trajectory targetIndex targetVel output) (i : ℕ)
    (hi : i < targetIndex) (htarget : targetIndex < trajectory.length)
    (hstart : output.startIndex ≤ i) (last : DecelPlan K) :
    ∃ result, searchDecelStart real param trajectory targetVel output i last = .ok result ∧
      IsPlan real param trajectory targetIndex targetVel result := by
  induction i generalizing last with
  | zero =>
    have hzero : output.startIndex = 0 := by omega
    have henough := houtput.isEnoughDist
    rw [hzero] at henough
    unfold searchDecelStart
    rw [if_neg (by omega), henough]
    exact ⟨_, rfl, hi, houtput.length_distToTarget, henough⟩
  | succ i ih =>
    obtain ⟨found, hfound⟩ := calcEnoughDistForDecel_ok real param targetVel output.planningJerk
      (lt_trans hi htarget) houtput.length_distToTarget
    unfold searchDecelStart
    rw [if_neg (by omega), hfound]
    obtain ⟨isEnough, type, times⟩ := found
    cases isEnough with
    | true => exact ⟨_, rfl, hi, houtput.length_distToTarget, hfound⟩
    | false =>
      refine ih (by omega) ?_ _
      refine Nat.le_of_lt_succ (lt_of_le_of_ne hstart fun heq => ?_)
      have henough := houtput.isEnoughDist
      rw [heq, hfound] at henough
      cases henough

variable (real targetVel) in
theorem planDecel_ok {fuel : ℕ} (hfuel : IsEnoughFuel param fuel)
    (htarget : targetIndex < trajectory.length) {startIndices : List ℕ}
    (hstarts : ∀ startIndex ∈ startIndices, startIndex < targetIndex) :
    ∃ result, planDecel real param trajectory targetIndex targetVel (fuel + 1) startIndices =
        .ok result ∧
      ∀ plan, result = some plan → IsPlan real param trajectory targetIndex targetVel plan := by
  obtain ⟨output, houtput, hisPlan⟩ := planStarts_ok real targetVel hfuel htarget hstarts
    ⟨-100, 0, [], 0, []⟩ (.inl rfl)
  unfold planDecel
  rw [houtput]
  change ∃ result, (if output.planningJerk = -100 then _ else _) = _ ∧ _
  by_cases hnone : output.planningJerk = -100
  · exact ⟨none, if_pos hnone, nofun⟩
  · have hplan := hisPlan.resolve_left hnone
    rw [if_neg hnone]
    by_cases hsearch : output.planningJerk = param.startJerk
    · have hbefore := hplan.beforeTarget
      obtain ⟨result, hresult, hkeeps⟩ := searchDecelStart_ok hplan (targetIndex - 1) (by omega)
        htarget (by omega) output
      rw [if_pos hsearch, if_neg (by omega)]
      refine ⟨some result, bind_eq_ok.mpr ⟨result, throwing_eq_ok.mpr hresult, rfl⟩, ?_⟩
      rintro plan ⟨⟩
      exact hkeeps
    · rw [if_neg hsearch]
      refine ⟨some output, rfl, ?_⟩
      rintro plan ⟨⟩
      exact hplan

end

/-!
## Targets of the analytical smoother

A deceleration leaves its target at no more than the target velocity, unless its
samples pass the target, and so it stays while later decelerations start behind it.
-/

open Common.Interpolation (Failure atIndex atIndex_eq_ok exists_atIndex Interpolates lerp_of_inside
  allAdjacent isIncreasing isNotDecreasing front_le le_back pairwise_of_isIncreasing)

open Library.ConstantJerk Library.Fallible

open TrajectoryUtils (State)

/-! ## Interpolated samples -/

section

variable {samples : List (State K)} {dists : List K} {targetVel : K} {startIndex : ℕ}
  {trajectory : List (PlannedPoint K)}

section
omit [Field K] [LinearOrder K]

variable {values : List K}

theorem head?_eq_headD (default : K) (hne : values ≠ []) :
    values.head? = some (values.headD default) := by
  cases values with
  | nil => exact absurd rfl hne
  | cons first values => rfl

theorem getLast?_eq_getLastD (default : K) (hne : values ≠ []) :
    values.getLast? = some (values.getLastD default) := by
  rw [List.getLastD_eq_getLast?, List.getLast?_eq_some_getLast hne]
  rfl

theorem allAdjacent_ok (holds : K → K → Bool) (hne : values ≠ []) :
    ∃ result, allAdjacent holds values = .ok result := by
  unfold allAdjacent
  rw [if_neg (by simpa using hne)]
  exact ⟨_, rfl⟩

end

theorem bothHold_ok {first second : Except Failure Bool} (hfirst : ∃ result, first = .ok result)
    (hsecond : ∃ result, second = .ok result) : ∃ result, bothHold first second = .ok result := by
  obtain ⟨holds, hfirst⟩ := hfirst
  obtain ⟨other, hsecond⟩ := hsecond
  rw [hfirst, hsecond]
  cases holds with
  | false => exact ⟨false, rfl⟩
  | true => exact ⟨other, rfl⟩

variable [IsStrictOrderedRing K]

variable (targetVel) in
theorem interpolateSamples_cases (hsamples : samples ≠ []) (hdists : dists ≠ [])
    (hlength : startIndex + dists.length ≤ trajectory.length) :
    interpolateSamples samples dists targetVel startIndex trajectory = .ok none ∨
    ∃ velAtWp accAtWp, velAtWp.length = accAtWp.length ∧ (samples.map (·.x)).Pairwise (· < ·) ∧
      List.Forall₂ (Interpolates (samples.map (·.x)) (samples.map (·.v))) dists velAtWp ∧
      interpolateSamples samples dists targetVel startIndex trajectory =
        .ok (some (assign startIndex velAtWp accAtWp targetVel trajectory)) := by
  have hxs : samples.map (·.x) ≠ [] := by simpa using hsamples
  obtain ⟨sorted, hsorted⟩ : ∃ sorted, areSorted (samples.map (·.x)) dists = .ok sorted :=
    bothHold_ok (allAdjacent_ok _ hxs) (bothHold_ok (allAdjacent_ok _ hdists)
      (bothHold_ok (allAdjacent_ok _ hxs) (allAdjacent_ok _ hdists)))
  have hunfold : interpolateSamples samples dists targetVel startIndex trajectory =
      (if !sorted then .ok none
      else if (samples.map (·.x)).length < 2 ∨ dists.isEmpty ∨
          dists.headD 0 < (samples.map (·.x)).headD 0 ∨
          (samples.map (·.x)).getLastD 0 < dists.getLastD 0 then .ok none
      else do
        let velAtWp ← Common.Interpolation.lerp (samples.map (·.x)) (samples.map (·.v)) dists
        let accAtWp ← Common.Interpolation.lerp (samples.map (·.x)) (samples.map (·.a)) dists
        if trajectory.length < startIndex + velAtWp.length then .error .outOfRange
        else return some (assign startIndex velAtWp accAtWp targetVel trajectory)) := by
    unfold interpolateSamples
    dsimp only
    rw [hsorted]
    rfl
  rw [hunfold]
  cases sorted with
  | false => exact .inl rfl
  | true =>
    rw [if_neg (by decide)]
    by_cases hchecks : (samples.map (·.x)).length < 2 ∨ dists.isEmpty ∨
        dists.headD 0 < (samples.map (·.x)).headD 0 ∨
        (samples.map (·.x)).getLastD 0 < dists.getLastD 0
    · exact .inl (if_pos hchecks)
    · rw [if_neg hchecks]
      simp only [not_or, not_lt] at hchecks
      obtain ⟨htwo, -, hfront, hback⟩ := hchecks
      obtain ⟨hxsSorted, hrest⟩ := bothHold_eq_ok.mp hsorted
      have hincreasing := pairwise_of_isIncreasing hxsSorted
      have hdistsIncreasing := pairwise_of_isIncreasing (bothHold_eq_ok.mp hrest).1
      have hxsHead := head?_eq_headD 0 hxs
      have hxsLast := getLast?_eq_getLastD 0 hxs
      have hdistsHead := head?_eq_headD 0 hdists
      have hdistsLast := getLast?_eq_getLastD 0 hdists
      have hinside : ∀ dist ∈ dists, (samples.map (·.x)).headD 0 ≤ dist ∧
          dist ≤ (samples.map (·.x)).getLastD 0 := by
        intro dist hmem
        rw [List.head?_eq_getElem?] at hdistsHead
        exact ⟨hfront.trans (front_le hdistsIncreasing hdistsHead hmem),
          (le_back hdistsIncreasing hdistsLast hmem).trans hback⟩
      have hnotDecreasing := hdistsIncreasing.imp le_of_lt
      obtain ⟨velAtWp, hvel, hvels⟩ := lerp_of_inside (samples.map (·.v)) (by simp)
        htwo hincreasing hxsHead hxsLast hdists hnotDecreasing hinside
      obtain ⟨accAtWp, hacc, haccs⟩ := lerp_of_inside (samples.map (·.a)) (by simp)
        htwo hincreasing hxsHead hxsLast hdists hnotDecreasing hinside
      refine .inr ⟨velAtWp, accAtWp, hvels.length_eq.symm.trans haccs.length_eq, hincreasing,
        hvels, bind_eq_ok.mpr ⟨velAtWp, hvel, bind_eq_ok.mpr ⟨accAtWp, hacc, if_neg ?_⟩⟩⟩
      rw [← hvels.length_eq]
      omega

omit [IsStrictOrderedRing K] in
theorem eq_of_interpolates_front {baseKeys baseValues : List K} {front value frontValue : K}
    (hincreasing : baseKeys.Pairwise (· < ·)) (hfront : baseKeys[0]? = some front)
    (hfrontValue : baseValues[0]? = some frontValue)
    (hvalue : Interpolates baseKeys baseValues front value) : value = frontValue := by
  obtain ⟨j, key, nextKey, srcVal, dstVal, hkey, -, hsrc, -, hle, -, rfl⟩ := hvalue
  cases j with
  | zero =>
    obtain rfl := Option.some.inj (hkey.symm.trans hfront)
    obtain rfl := Option.some.inj (hsrc.symm.trans hfrontValue)
    rw [sub_self, zero_div, mul_zero, add_zero]
  | succ j =>
    obtain ⟨hj, rfl⟩ := List.getElem?_eq_some_iff.mp hkey
    obtain ⟨hzero, rfl⟩ := List.getElem?_eq_some_iff.mp hfront
    have hlt := List.pairwise_iff_getElem.mp hincreasing 0 (j + 1) hzero hj (Nat.succ_pos j)
    exact absurd hle (not_le.mpr hlt)

theorem eq_of_interpolates_back {baseKeys baseValues : List K} {back value backValue : K}
    (hincreasing : baseKeys.Pairwise (· < ·)) (hback : baseKeys.getLast? = some back)
    (hbackValue : baseValues.getLast? = some backValue)
    (hlength : baseKeys.length = baseValues.length)
    (hvalue : Interpolates baseKeys baseValues back value) : value = backValue := by
  obtain ⟨j, key, nextKey, srcVal, dstVal, hkey, hnext, -, hdst, -, hle, rfl⟩ := hvalue
  obtain ⟨hj, rfl⟩ := List.getElem?_eq_some_iff.mp hkey
  obtain ⟨hnextIndex, rfl⟩ := List.getElem?_eq_some_iff.mp hnext
  have hkeys := List.pairwise_iff_getElem.mp hincreasing
  rw [List.getLast?_eq_getElem?] at hback hbackValue
  obtain ⟨hlast, heq⟩ := List.getElem?_eq_some_iff.mp hback
  have hnextLast : j + 1 = baseKeys.length - 1 := by
    by_contra hbefore
    have hlt := hkeys (j + 1) (baseKeys.length - 1) hnextIndex hlast (by omega)
    rw [heq] at hlt
    exact absurd hle (not_le.mpr hlt)
  have hbackEq : back = baseKeys[j + 1] := by
    rw [← heq]
    congr 1
    exact hnextLast.symm
  have hlt := hkeys j (j + 1) hj hnextIndex (Nat.lt_succ_self j)
  rw [← hlength, ← hnextLast, hdst] at hbackValue
  rw [hbackEq, div_self (sub_pos.mpr hlt).ne', mul_one, add_sub_cancel]
  exact Option.some.inj hbackValue

end

/-! ## Decelerations -/

section

variable {real : RealFunctions K}

theorem getElem?_distsLoop {xsBack : K} (points : List (PlannedPoint K)) {dist : K}
    {point : PlannedPoint K} {k : ℕ} {value : K}
    (hvalue : (distsLoop real xsBack dist point points)[k]? = some value) :
    value = dist + pathLength real ((point :: points).take (k + 2)) ∧ value ≤ xsBack := by
  induction points generalizing dist point k with
  | nil => cases hvalue
  | cons next points ih =>
    unfold distsLoop at hvalue
    by_cases hbehind : xsBack < dist + calcDistance2d real point.position next.position
    · rw [if_pos hbehind] at hvalue
      cases hvalue
    · rw [if_neg hbehind] at hvalue
      cases k with
      | zero =>
        obtain rfl := Option.some.inj hvalue
        exact ⟨by simp [pathLength], not_lt.mp hbehind⟩
      | succ k =>
        obtain ⟨heq, hle⟩ := ih hvalue
        refine ⟨?_, hle⟩
        rw [heq, List.take_succ_cons, List.take_succ_cons, List.take_succ_cons, pathLength,
          add_assoc]

variable (real) in
theorem length_distsLoop (xsBack dist : K) (point : PlannedPoint K) (points : List (PlannedPoint K)) :
    (distsLoop real xsBack dist point points).length ≤ points.length := by
  induction points generalizing dist point with
  | nil => exact le_refl 0
  | cons next points ih =>
    unfold distsLoop
    by_cases hbehind : xsBack < dist + calcDistance2d real point.position next.position
    · rw [if_pos hbehind]
      exact Nat.zero_le _
    · rw [if_neg hbehind]
      exact Nat.succ_le_succ (ih _ _)

variable {samples : List (State K)}

theorem interpolated_at_end [IsStrictOrderedRing K] {last : State K}
    {point : PlannedPoint K} {points : List (PlannedPoint K)} {velAtWp : List K} (hlast : samples.getLast? = some last)
    (hincreasing : (samples.map (·.x)).Pairwise (· < ·))
    (hvels : List.Forall₂ (Interpolates (samples.map (·.x)) (samples.map (·.v)))
      (0 :: distsLoop real last.x 0 point points) velAtWp) {steps : ℕ} {value : K}
    (hvalue : velAtWp[steps + 1]? = some value) :
    pathLength real ((point :: points).take (steps + 2)) ≤ last.x ∧
      (pathLength real ((point :: points).take (steps + 2)) = last.x → value = last.v) := by
  obtain ⟨hshort, rfl⟩ := List.getElem?_eq_some_iff.mp hvalue
  have hdist := hshort
  rw [← hvels.length_eq] at hdist
  have hinterpolates := (List.forall₂_iff_get.mp hvels).2 (steps + 1) hdist hshort
  obtain ⟨hpath, hle⟩ := getElem?_distsLoop points
    (List.getElem?_eq_getElem (Nat.lt_of_succ_lt_succ hdist))
  rw [zero_add] at hpath
  rw [List.get_cons_succ, List.get_eq_getElem, hpath] at hinterpolates
  rw [hpath] at hle
  refine ⟨hle, fun hend => ?_⟩
  rw [hend] at hinterpolates
  exact eq_of_interpolates_back hincreasing (by rw [List.getLast?_map, hlast]; rfl)
    (by rw [List.getLast?_map, hlast]; rfl) (by rw [List.length_map, List.length_map])
    hinterpolates

variable [IsStrictOrderedRing K] [FloorRing K] {v0 a0 jerkAcc jerkDec minAcc targetVel : K}
  {type : ℕ} {times : List K}

variable (v0 a0 minAcc) in
theorem sampleProfile_ok (hne : profilePhases jerkAcc jerkDec type times ≠ [])
    (htimes : ∀ phase ∈ profilePhases jerkAcc jerkDec type times, 0 ≤ phase.2) :
    ∃ final samples, sampleProfile (updateStopVelocityStatus v0 a0 jerkAcc jerkDec type times)
        minAcc times.sum = .ok (final, samples) ∧
      (0 < times.sum → 0 < v0 → ∃ first later, samples = first :: later ∧ first.x = 0 ∧
        first.v = v0) := by
  obtain ⟨stateAt, hstateAt⟩ := exists_states v0 a0 hne htimes (sum_eq_duration hne)
  obtain ⟨state, hloop⟩ := sampleLoop_eq minAcc
    (fun t ht => (hstateAt t (List.mem_append_left _ ht)).1) ⟨0, 0, 0, 0⟩
  have hend := (hstateAt times.sum (List.mem_append_right _ List.mem_cons_self)).1
  set samples := (((sampleTimes times.sum).map stateAt).filter fun state => 0 < state.v).map
    (limitAcc minAcc) with hsamples
  have hhead : 0 < times.sum → 0 < v0 → ∃ first later, samples = first :: later ∧ first.x = 0 ∧
      first.v = v0 := by
    intro hpos hforward
    obtain ⟨later, hlater⟩ := sampleTimes_of_pos hpos
    obtain ⟨-, hx, hv, -⟩ := hstateAt 0 (by rw [hlater]; exact List.mem_cons_self)
    rw [during_zero htimes] at hx hv
    rw [hsamples, hlater, List.map_cons, List.filter_cons_of_pos (by simpa [hv] using hforward),
      List.map_cons]
    exact ⟨_, _, rfl, hx, hv⟩
  unfold sampleProfile
  rw [hloop]
  cases hlast : samples.getLast? with
  | none =>
    refine ⟨stateAt times.sum, samples, ?_, hhead⟩
    refine bind_eq_ok.mpr ⟨(state, samples), rfl, bind_eq_ok.mpr ⟨_, hend state, ?_⟩⟩
    rw [hlast]
    rfl
  | some last =>
    by_cases hfurther : 0 < (stateAt times.sum).v ∧ last.x < (stateAt times.sum).x
    · refine ⟨limitAcc minAcc (stateAt times.sum),
        samples ++ [limitAcc minAcc (stateAt times.sum)], ?_, fun hpos hforward => ?_⟩
      · refine bind_eq_ok.mpr ⟨(state, samples), rfl, bind_eq_ok.mpr ⟨_, hend state, ?_⟩⟩
        rw [hlast]
        exact if_pos hfurther
      · obtain ⟨first, later, heq, hfirst⟩ := hhead hpos hforward
        exact ⟨first, _, by rw [heq, List.cons_append], hfirst⟩
    · refine ⟨stateAt times.sum, samples, ?_, hhead⟩
      refine bind_eq_ok.mpr ⟨(state, samples), rfl, bind_eq_ok.mpr ⟨_, hend state, ?_⟩⟩
      rw [hlast]
      exact if_neg hfurther

omit [IsStrictOrderedRing K] in
/-- The samples are interpolated from the starting point on. -/
theorem calcStopVelocityWithConstantJerkAccLimit_eq {startIndex : ℕ}
    {trajectory : List (PlannedPoint K)} {final : State K}
    (hsampled : sampleProfile (updateStopVelocityStatus v0 a0 jerkAcc jerkDec type times) minAcc
      times.sum = .ok (final, samples)) :
    calcStopVelocityWithConstantJerkAccLimit real v0 a0 jerkAcc jerkDec minAcc targetVel type times
      startIndex trajectory =
    (if !validCheckCalcStopDist final.v final.a targetVel 0 (3 / 10) (1 / 10) then .ok none
    else
      match samples.getLast? with
      | none => .ok (some (assign startIndex [] [] targetVel trajectory))
      | some last =>
        match trajectory.drop startIndex with
        | [] =>
          if trajectory.isEmpty then .error .outOfRange
          else interpolateSamples samples [0] targetVel startIndex trajectory
        | point :: points =>
          interpolateSamples samples (0 :: distsLoop real last.x 0 point points) targetVel
            startIndex trajectory) := by
  unfold calcStopVelocityWithConstantJerkAccLimit
  rw [hsampled]
  rfl

variable (real targetVel) in
theorem calcStopVelocityWithConstantJerkAccLimit_cases {startIndex : ℕ}
    {trajectory : List (PlannedPoint K)} {final : State K}
    (hsampled : sampleProfile (updateStopVelocityStatus v0 a0 jerkAcc jerkDec type times) minAcc
      times.sum = .ok (final, samples)) (hstart : startIndex < trajectory.length) :
    calcStopVelocityWithConstantJerkAccLimit real v0 a0 jerkAcc jerkDec minAcc targetVel type times
        startIndex trajectory = .ok none ∨
    ∃ velAtWp accAtWp, velAtWp.length = accAtWp.length ∧
      calcStopVelocityWithConstantJerkAccLimit real v0 a0 jerkAcc jerkDec minAcc targetVel type
        times startIndex trajectory =
          .ok (some (assign startIndex velAtWp accAtWp targetVel trajectory)) ∧
      (samples = [] ∧ velAtWp = [] ∨ ∃ last point points, samples.getLast? = some last ∧
          trajectory.drop startIndex = point :: points ∧
          (samples.map (·.x)).Pairwise (· < ·) ∧
          List.Forall₂ (Interpolates (samples.map (·.x)) (samples.map (·.v)))
            (0 :: distsLoop real last.x 0 point points) velAtWp) := by
  rw [calcStopVelocityWithConstantJerkAccLimit_eq hsampled]
  by_cases hvalid : !validCheckCalcStopDist final.v final.a targetVel 0 (3 / 10) (1 / 10)
  · exact .inl (if_pos hvalid)
  · rw [if_neg hvalid]
    cases hlast : samples.getLast? with
    | none => exact .inr ⟨[], [], rfl, rfl, .inl ⟨List.getLast?_eq_none_iff.mp hlast, rfl⟩⟩
    | some last =>
      cases hdrop : trajectory.drop startIndex with
      | nil => exact absurd (List.drop_eq_nil_iff.mp hdrop) (not_le.mpr hstart)
      | cons point points =>
        have hpoints : trajectory.length = startIndex + (points.length + 1) := by
          have hcount := congrArg List.length hdrop
          rw [List.length_drop, List.length_cons] at hcount
          omega
        have hinside : startIndex + (0 :: distsLoop real last.x 0 point points).length ≤
            trajectory.length := by
          have hdists := length_distsLoop real last.x 0 point points
          rw [List.length_cons]
          omega
        obtain hnone | ⟨velAtWp, accAtWp, hlength, hincreasing, hvels, hsome⟩ :=
          interpolateSamples_cases targetVel (List.ne_nil_of_mem (List.mem_of_getLast? hlast))
            (List.cons_ne_nil 0 (distsLoop real last.x 0 point points)) hinside
        · exact .inl hnone
        · exact .inr ⟨velAtWp, accAtWp, hlength, hsome,
            .inr ⟨last, point, points, rfl, rfl, hincreasing, hvels⟩⟩

end

/-! ## Calls -/

section

variable [FloorRing K] (real : RealFunctions K) (param : BackwardParam K)

def velocityAt (trajectory : List (PlannedPoint K)) (i : ℕ) : Option K :=
  trajectory[i]?.map (·.longitudinalVelocityMps)

def PassesTarget (call : BackwardCall K) : Prop :=
  ∃ plan start final samples last, call.plan = some plan ∧
    call.before[plan.startIndex]? = some start ∧
    sampleProfile (updateStopVelocityStatus start.longitudinalVelocityMps start.accelerationMps2
      |plan.planningJerk| plan.planningJerk plan.type plan.times)
      (calcMinAcc param plan.planningJerk) plan.times.sum =
        (.ok (final, samples) : Except Failure (State K × List (State K))) ∧
    samples.getLast? = some last ∧
    (pathLength real ((call.before.drop plan.startIndex).take
        (call.targetIndex - plan.startIndex + 1)) < last.x ∨
      pathLength real ((call.before.drop plan.startIndex).take
        (call.targetIndex - plan.startIndex + 1)) = last.x ∧ call.targetVel < last.v)

def StartsBehind (i : ℕ) (call : BackwardCall K) : Prop :=
  ∀ plan, call.plan = some plan → i < plan.startIndex ∨ i = plan.startIndex ∧ 0 < plan.times.sum ∧
      ∃ velocity, velocityAt call.before i = some velocity ∧ 0 < velocity

variable {real param} [IsStrictOrderedRing K] {trajectory : List (PlannedPoint K)}
  {targetIndex : ℕ} {targetVel : K}

variable (targetVel) in
omit [LinearOrder K] [FloorRing K] [IsStrictOrderedRing K] in
theorem velocityAt_assign {startIndex i : ℕ} {velAtWp accAtWp : List K}
    (hlength : velAtWp.length = accAtWp.length) (hi : startIndex + i < trajectory.length) :
    velocityAt (assign startIndex velAtWp accAtWp targetVel trajectory) (startIndex + i) =
      some ((velAtWp[i]?).getD targetVel) := by
  have hpoint := List.getElem?_eq_getElem
    (show startIndex + i < (assign startIndex velAtWp accAtWp targetVel trajectory).length by
      rwa [length_assign])
  rw [velocityAt, hpoint, Option.map_some, velocity_assign hlength hpoint]

variable (real targetVel) in
theorem applyBackwardDecelFilter_ok {fuel : ℕ} (hfuel : IsEnoughFuel param fuel)
    (htarget : targetIndex < trajectory.length) {startIndices : List ℕ}
    (hstarts : ∀ startIndex ∈ startIndices, startIndex < targetIndex) :
    ∃ call, applyBackwardDecelFilter real (fuel + 1) startIndices targetIndex targetVel param
        trajectory = .ok call ∧
      call.targetIndex = targetIndex ∧ call.targetVel = targetVel ∧
      ∀ after, call.after = some after → after.length = trajectory.length ∧
        (¬ PassesTarget real param call → ∃ velocity,
          velocityAt after targetIndex = some velocity ∧ velocity ≤ targetVel) ∧
        ∀ i, StartsBehind i call → velocityAt after i = velocityAt trajectory i := by
  obtain ⟨result, hresult, hisPlan⟩ := planDecel_ok real targetVel hfuel htarget hstarts
  cases result with
  | none =>
    refine ⟨⟨targetIndex, targetVel, trajectory, none, none⟩, ?_, rfl, rfl, nofun⟩
    exact bind_eq_ok.mpr ⟨none, hresult, rfl⟩
  | some plan =>
    obtain ⟨hbefore, -, henough⟩ := hisPlan plan rfl
    have hplanStart : plan.startIndex < trajectory.length := lt_trans hbefore htarget
    obtain ⟨start, stopDist, hstart, hfound⟩ := found_of_isEnoughDist henough
    obtain ⟨hne, htimes⟩ := profilePhases_of_found hfound
    obtain ⟨final, samples, hsampled, hhead⟩ := sampleProfile_ok start.longitudinalVelocityMps
      start.accelerationMps2 (calcMinAcc param plan.planningJerk) hne htimes
    have hcall : ∀ after, calcStopVelocityWithConstantJerkAccLimit real
        start.longitudinalVelocityMps start.accelerationMps2 |plan.planningJerk|
        plan.planningJerk (calcMinAcc param plan.planningJerk) targetVel plan.type plan.times
        plan.startIndex trajectory = .ok after →
        applyBackwardDecelFilter real (fuel + 1) startIndices targetIndex targetVel param
          trajectory = .ok ⟨targetIndex, targetVel, trajectory, some plan, after⟩ := by
      intro after hafter
      refine bind_eq_ok.mpr ⟨some plan, hresult, bind_eq_ok.mpr ⟨after, ?_, rfl⟩⟩
      exact throwing_eq_ok.mpr (bind_eq_ok.mpr ⟨start, atIndex_eq_ok.mpr hstart, hafter⟩)
    obtain hnone | ⟨velAtWp, accAtWp, hlength, hsome, hvels⟩ :=
      calcStopVelocityWithConstantJerkAccLimit_cases real targetVel hsampled hplanStart
    · exact ⟨_, hcall none hnone, rfl, rfl, nofun⟩
    · refine ⟨_, hcall _ hsome, rfl, rfl, ?_⟩
      rintro after ⟨⟩
      refine ⟨length_assign, fun hnotPasses => ?_, fun i hbehind => ?_⟩
      · obtain ⟨steps, hsteps⟩ := Nat.exists_eq_add_of_lt hbefore
        rw [add_assoc] at hsteps
        rw [hsteps, velocityAt_assign targetVel hlength (by omega)]
        refine ⟨_, rfl, ?_⟩
        rcases hvels with ⟨-, rfl⟩ | ⟨last, point, points, hlast, hdrop, hincreasing, hvels⟩
        · exact le_refl _
        · cases hvel : velAtWp[steps + 1]? with
          | none => exact le_refl _
          | some value =>
            obtain ⟨hle, hend⟩ := interpolated_at_end hlast hincreasing hvels hvel
            rw [← hdrop] at hle hend
            have hnot : ¬ (pathLength real ((trajectory.drop plan.startIndex).take
                (steps + 2)) < last.x ∨
                pathLength real ((trajectory.drop plan.startIndex).take (steps + 2)) =
                  last.x ∧ targetVel < last.v) := by
              refine fun hpasses => hnotPasses ⟨plan, start, final, samples, last, rfl, hstart,
                hsampled, hlast, ?_⟩
              rwa [hsteps, Nat.add_sub_cancel_left]
            rw [not_or, not_lt] at hnot
            have heq := le_antisymm hle hnot.1
            exact le_of_eq_of_le (hend heq) (not_lt.mp fun hlt => hnot.2 ⟨heq, hlt⟩)
      · rcases hbehind plan rfl with hlater | ⟨rfl, hlasts, velocity, hvelocity, hpositive⟩
        · rw [velocityAt, getElem?_assign_of_lt hlater]
          rfl
        · change velocityAt trajectory plan.startIndex = some velocity at hvelocity
          rw [hvelocity]
          rw [velocityAt, hstart] at hvelocity
          obtain rfl := Option.some.inj hvelocity
          obtain ⟨first, later, rfl, hx, hv⟩ := hhead hlasts hpositive
          rcases hvels with ⟨hempty, -⟩ | ⟨last, point, points, -, -, hincreasing, hvels⟩
          · cases hempty
          · obtain ⟨value, values, hvalue, -, rfl⟩ := List.forall₂_cons_left_iff.mp hvels
            have hfirst := eq_of_interpolates_front hincreasing
              (show ((first :: later).map (·.x))[0]? = some 0 from congrArg some hx) rfl hvalue
            have hat := velocityAt_assign targetVel hlength
              (show plan.startIndex + 0 < trajectory.length from hplanStart)
            rw [Nat.add_zero] at hat
            rw [hat]
            exact congrArg some (hfirst.trans hv)

end

/-! ## Runs -/

section

variable [FloorRing K] [IsStrictOrderedRing K] {real : RealFunctions K} {param : Param K}
  {initial : K × K}

structure HasLength (n : ℕ) (state : SmootherState K) : Prop where
  referenceTrajectory : state.referenceTrajectory.length = n
  filteredTrajectory : state.filteredTrajectory.length = n

variable (initial) in
omit [LinearOrder K] [FloorRing K] [IsStrictOrderedRing K] [Field K] in
theorem startState_ok {trajectory : List (PlannedPoint K)} {index : Option ℕ}
    (hindex : ∀ i, index = some i → i < trajectory.length) :
    ∃ start, startState initial trajectory index = .ok start ∧
      ∀ i, index = some i → velocityAt trajectory i = some start.1 := by
  cases index with
  | none => exact ⟨initial, rfl, nofun⟩
  | some i =>
    obtain ⟨point, hpoint⟩ := exists_atIndex (hindex i rfl)
    refine ⟨(point.longitudinalVelocityMps, point.accelerationMps2), ?_, ?_⟩
    · exact throwing_eq_ok.mpr (bind_eq_ok.mpr ⟨point, hpoint, rfl⟩)
    · rintro _ ⟨⟩
      rw [velocityAt, atIndex_eq_ok.mp hpoint]
      rfl

variable {previous : List (ℕ × K)} {state : SmootherState K}

variable (real param initial) in
omit [FloorRing K] [IsStrictOrderedRing K] in
theorem forward_ok {n : ℕ} (hlength : HasLength n state) (hn : 0 < n)
    (hprevious : previous.Pairwise fun later earlier => earlier.1 < later.1)
    (hwithin : ∀ target ∈ previous, target.1 < n) :
    ∃ start filtered,
      startState initial state.filteredTrajectory (previous.head?.map Prod.fst) = .ok start ∧
      applyForwardJerkFilter real state.referenceTrajectory
        ((previous.head?.map Prod.fst).getD 0) start param.forward state.filteredTrajectory =
          .ok filtered ∧
      filtered.length = n ∧
      ∀ target ∈ previous, velocityAt filtered target.1 =
        velocityAt state.filteredTrajectory target.1 := by
  have hindex : ∀ i, previous.head?.map Prod.fst = some i →
      i < state.filteredTrajectory.length := by
    intro i hi
    obtain ⟨target, htarget, rfl⟩ := Option.map_eq_some_iff.mp hi
    rw [hlength.filteredTrajectory]
    exact hwithin target (List.mem_of_head? htarget)
  obtain ⟨start, hstart, hvelocity⟩ := startState_ok initial hindex
  have hstartIndex : (previous.head?.map Prod.fst).getD 0 < state.filteredTrajectory.length := by
    cases hhead : previous.head?.map Prod.fst with
    | none => rwa [Option.getD_none, hlength.filteredTrajectory]
    | some i => exact hindex i hhead
  obtain ⟨filtered, hfiltered, hfilteredLength, hbefore, hat⟩ := applyForwardJerkFilter_ok
    real param.forward start hstartIndex
    (hlength.referenceTrajectory.trans hlength.filteredTrajectory.symm)
  refine ⟨start, filtered, hstart, hfiltered, hfilteredLength.trans hlength.filteredTrajectory, ?_⟩
  intro target htarget
  cases previous with
  | nil => cases htarget
  | cons last previous =>
    rcases List.mem_cons.mp htarget with rfl | hearlier
    · have hown := hvelocity target.1 rfl
      simp only [List.head?_cons, Option.map_some, Option.getD_some] at hat
      rw [hown, velocityAt, hat, Option.map_map]
      rw [velocityAt, Option.map_eq_some_iff] at hown
      obtain ⟨point, hpoint, -⟩ := hown
      rw [hpoint]
      rfl
    · have hlt := (List.pairwise_cons.mp hprevious).1 target hearlier
      rw [velocityAt, hbefore target.1 hlt]
      rfl

omit [Field K] [FloorRing K] [IsStrictOrderedRing K] in
theorem backwardStart_mem {targetVel : K} {index : ℕ}
    (hindex : backwardStart targetVel previous = some index) :
    ∃ target ∈ previous, target.1 = index := by
  induction previous generalizing targetVel with
  | nil => cases hindex
  | cons target previous ih =>
    unfold backwardStart at hindex
    by_cases hslower : target.2 < targetVel
    · rw [if_pos hslower] at hindex
      exact ⟨target, List.mem_cons_self, Option.some.inj hindex⟩
    · rw [if_neg hslower] at hindex
      obtain ⟨earlier, hearlier, heq⟩ := ih hindex
      exact ⟨earlier, List.mem_cons_of_mem _ hearlier, heq⟩

theorem forall_startIndices_lt {bwdStartIndex fwdStartIndex targetIndex : ℕ}
    (hbwd : bwdStartIndex < targetIndex) (hfwd : fwdStartIndex < targetIndex) :
    ∀ startIndex ∈
      (if bwdStartIndex ≠ fwdStartIndex then [bwdStartIndex, fwdStartIndex] else [bwdStartIndex]),
        startIndex < targetIndex := by
  intro startIndex hmem
  split at hmem
  · rcases List.mem_cons.mp hmem with rfl | hmem
    · exact hbwd
    · exact List.mem_singleton.mp hmem ▸ hfwd
  · exact List.mem_singleton.mp hmem ▸ hbwd

/-- What a call that succeeds leaves behind. -/
structure Decelerates (real : RealFunctions K) (param : Param K) (previous : List (ℕ × K))
    (target : ℕ × K) (before after : SmootherState K) (call : BackwardCall K) : Prop where
  goesOn : after.isFinished = false
  target : ¬ PassesTarget real param.backward call → ∃ velocity,
    velocityAt after.filteredTrajectory target.1 = some velocity ∧ velocity ≤ target.2
  previous : ∀ earlier ∈ previous, StartsBehind earlier.1 call →
    velocityAt after.filteredTrajectory earlier.1 = velocityAt before.filteredTrajectory earlier.1

variable (real initial) in
theorem processTarget_ok {fuel n : ℕ} (hfuel : IsEnoughFuel param.backward fuel) {target : ℕ × K}
    (hlength : HasLength n state) (hpos : 0 < target.1) (htarget : target.1 < n)
    (hprevious : previous.Pairwise fun later earlier => earlier.1 < later.1)
    (hbefore : ∀ earlier ∈ previous, earlier.1 < target.1) :
    ∃ after call, processTarget real param initial (fuel + 1) previous target state = .ok after ∧
      HasLength n after ∧ after.calls = state.calls ++ [call] ∧
      (call.targetIndex, call.targetVel) = target ∧
      (call.after ≠ none → Decelerates real param previous target state after call) := by
  obtain ⟨fwdStart, filtered, hfwdStart, hfiltered, hfilteredLength, hkept⟩ := forward_ok
    real param initial hlength (lt_trans hpos htarget) hprevious
    fun earlier hearlier => lt_trans (hbefore earlier hearlier) htarget
  have hbackward : ∀ index, backwardStart target.2 previous = some index → index < target.1 := by
    intro index hindex
    obtain ⟨earlier, hearlier, rfl⟩ := backwardStart_mem hindex
    exact hbefore earlier hearlier
  have hbackwardWithin : ∀ index, backwardStart target.2 previous = some index →
      index < filtered.length := by
    intro index hindex
    rw [hfilteredLength]
    exact lt_trans (hbackward index hindex) htarget
  obtain ⟨bwdStart, hbwdStart, -⟩ := startState_ok initial hbackwardWithin
  have hfwdIndex : (previous.head?.map Prod.fst).getD 0 < target.1 := by
    cases previous with
    | nil => exact hpos
    | cons last previous => exact hbefore last List.mem_cons_self
  have hbwdIndex : (backwardStart target.2 previous).getD 0 < target.1 := by
    cases hindex : backwardStart target.2 previous with
    | none => exact hpos
    | some index => exact hbackward index hindex
  have hstarts := forall_startIndices_lt hbwdIndex hfwdIndex
  obtain ⟨call, hcall, hcallIndex, hcallVel, hafter⟩ := applyBackwardDecelFilter_ok real
    target.2 hfuel (hfilteredLength.symm ▸ htarget) hstarts
  have hfound (after : List (PlannedPoint K)) (hcallAfter : call.after = some after) :
      processTarget real param initial (fuel + 1) previous target state =
        .ok ⟨state.referenceTrajectory, after, false, state.calls ++ [call]⟩ := by
    refine bind_eq_ok.mpr ⟨fwdStart, hfwdStart, bind_eq_ok.mpr ⟨filtered,
      throwing_eq_ok.mpr hfiltered, bind_eq_ok.mpr ⟨bwdStart, hbwdStart,
        bind_eq_ok.mpr ⟨call, hcall, ?_⟩⟩⟩⟩
    simp only [hcallAfter]
    rfl
  have hmissing (hcallAfter : call.after = none) (result : SmootherState K)
      (hresult : (if |target.2| < 1 / 1000 then do
          let filtered ← throwing (applyMaxVelocity 0 ((backwardStart target.2 previous).getD 0)
            (filtered.length - 1) filtered)
          return ⟨state.referenceTrajectory, filtered, true, state.calls ++ [call]⟩
        else do
          let reference ← throwing (applyMaxVelocity target.2
            ((backwardStart target.2 previous).getD 0) target.1 state.referenceTrajectory)
          let filtered ← throwing (applyForwardJerkFilter real reference
            ((backwardStart target.2 previous).getD 0) bwdStart param.forward filtered)
          return ⟨reference, filtered, false, state.calls ++ [call]⟩ :
        Except Interruption (SmootherState K)) = .ok result) :
      processTarget real param initial (fuel + 1) previous target state = .ok result := by
    refine bind_eq_ok.mpr ⟨fwdStart, hfwdStart, bind_eq_ok.mpr ⟨filtered,
      throwing_eq_ok.mpr hfiltered, bind_eq_ok.mpr ⟨bwdStart, hbwdStart,
        bind_eq_ok.mpr ⟨call, hcall, ?_⟩⟩⟩⟩
    simp only [hcallAfter]
    exact hresult
  have hcallTarget : (call.targetIndex, call.targetVel) = target := by
    rw [hcallIndex, hcallVel]
  cases hcallAfter : call.after with
  | some after =>
    obtain ⟨hafterLength, hreached, hkeptAfter⟩ := hafter after hcallAfter
    refine ⟨_, call, hfound after hcallAfter, ⟨hlength.referenceTrajectory,
      hafterLength.trans hfilteredLength⟩, rfl, hcallTarget, fun _ => ⟨rfl, hreached, ?_⟩⟩
    exact fun earlier hearlier hbehind =>
      (hkeptAfter earlier.1 hbehind).trans (hkept earlier hearlier)
  | none =>
    by_cases hstop : |target.2| < 1 / 1000
    · obtain ⟨limited, hlimited, hlimitedLength⟩ := applyMaxVelocity_ok (0 : K)
        ((backwardStart target.2 previous).getD 0)
        (show filtered.length - 1 < filtered.length by omega)
      refine ⟨_, call, hmissing hcallAfter _ ((if_pos hstop).trans (bind_eq_ok.mpr ⟨limited,
        throwing_eq_ok.mpr hlimited, rfl⟩)), ⟨hlength.referenceTrajectory,
        hlimitedLength.trans hfilteredLength⟩, rfl, hcallTarget, ?_⟩
      exact fun hne => absurd hcallAfter hne
    · obtain ⟨reference, hreference, hreferenceLength⟩ := applyMaxVelocity_ok
        target.2 ((backwardStart target.2 previous).getD 0)
        (hlength.referenceTrajectory.symm ▸ htarget)
      obtain ⟨again, hagain, hagainLength, -⟩ := applyForwardJerkFilter_ok real
        param.forward bwdStart
        (hfilteredLength.symm ▸ lt_trans hbwdIndex htarget)
        (hreferenceLength.trans (hlength.referenceTrajectory.trans hfilteredLength.symm))
      refine ⟨_, call, hmissing hcallAfter _ ((if_neg hstop).trans (bind_eq_ok.mpr ⟨reference,
        throwing_eq_ok.mpr hreference, bind_eq_ok.mpr ⟨again, throwing_eq_ok.mpr hagain,
          rfl⟩⟩)), ⟨hreferenceLength.trans hlength.referenceTrajectory,
        hagainLength.trans hfilteredLength⟩, rfl, hcallTarget, ?_⟩
      exact fun hne => absurd hcallAfter hne

/-- A target is not passed faster than its velocity if the profile of its call does not pass it
and all later calls start behind it. -/
def KeepsTargets (real : RealFunctions K) (param : BackwardParam K)
    (calls : List (BackwardCall K)) (trajectory : List (PlannedPoint K)) : Prop :=
  ∀ earlier call later, calls = earlier ++ call :: later → ¬ PassesTarget real param call →
    (∀ other ∈ later, StartsBehind call.targetIndex other) →
      ∃ velocity, velocityAt trajectory call.targetIndex = some velocity ∧ velocity ≤ call.targetVel

variable (real initial) in
theorem processTargets_ok {fuel n : ℕ} (hfuel : IsEnoughFuel param.backward fuel) (hn : 0 < n)
    {targets previous : List (ℕ × K)} (hlength : HasLength n state)
    (htargets : targets.Pairwise fun first second => first.1 < second.1)
    (hwithin : ∀ target ∈ targets, 0 < target.1 ∧ target.1 < n)
    (hprevious : previous.Pairwise fun later earlier => earlier.1 < later.1)
    (hprevWithin : ∀ earlier ∈ previous, earlier.1 < n)
    (hbefore : ∀ earlier ∈ previous, ∀ target ∈ targets, earlier.1 < target.1) :
    ∃ result calls, processTargets real param initial (fuel + 1) previous targets state =
        .ok result ∧
      HasLength n result ∧ result.calls = state.calls ++ calls ∧
      ((∀ call ∈ calls, call.after ≠ none) →
        calls.map (fun call => (call.targetIndex, call.targetVel)) = targets ∧
        (∀ earlier ∈ previous, (∀ call ∈ calls, StartsBehind earlier.1 call) →
          velocityAt result.filteredTrajectory earlier.1 =
            velocityAt state.filteredTrajectory earlier.1) ∧
        KeepsTargets real param.backward calls result.filteredTrajectory) := by
  induction targets generalizing previous state with
  | nil =>
    obtain ⟨start, filtered, hstart, hfiltered, hfilteredLength, hkept⟩ := forward_ok
      real param initial hlength hn hprevious hprevWithin
    refine ⟨{ state with filteredTrajectory := filtered }, [], ?_,
      ⟨hlength.referenceTrajectory, hfilteredLength⟩, (List.append_nil _).symm, fun _ =>
        ⟨rfl, ?_, ?_⟩⟩
    · exact bind_eq_ok.mpr ⟨start, hstart, bind_eq_ok.mpr ⟨filtered,
        throwing_eq_ok.mpr hfiltered, rfl⟩⟩
    · exact fun earlier hearlier _ => hkept earlier hearlier
    · intro earlier call later hcalls
      exact absurd hcalls.symm (by simp)
  | cons target targets ih =>
    obtain ⟨hfirst, hlater⟩ := List.forall_mem_cons.mp hwithin
    obtain ⟨hapart, hsorted⟩ := List.pairwise_cons.mp htargets
    obtain ⟨after, call, hafter, hafterLength, hcalls, hcallTarget, hdecelerates⟩ :=
      processTarget_ok real initial hfuel hlength hfirst.1 hfirst.2 hprevious
        fun earlier hearlier => hbefore earlier hearlier target List.mem_cons_self
    have hloop : processTargets real param initial (fuel + 1) previous (target :: targets) state =
        if after.isFinished then .ok after
        else processTargets real param initial (fuel + 1) (target :: previous) targets after := by
      rw [processTargets, hafter]
      rfl
    rw [hloop]
    by_cases hfinished : after.isFinished
    · rw [if_pos hfinished]
      refine ⟨after, [call], rfl, hafterLength, hcalls, fun happlied => ?_⟩
      have hgoesOn := (hdecelerates (happlied call List.mem_cons_self)).goesOn
      exact absurd (hgoesOn.symm.trans hfinished) Bool.false_ne_true
    · rw [if_neg hfinished]
      obtain ⟨result, calls, hresult, hresultLength, hresultCalls, hkeeps⟩ := ih hafterLength
        hsorted hlater
        (List.pairwise_cons.mpr ⟨fun earlier hearlier =>
          hbefore earlier hearlier target List.mem_cons_self, hprevious⟩)
        (List.forall_mem_cons.mpr ⟨hfirst.2, hprevWithin⟩)
        (List.forall_mem_cons.mpr ⟨hapart, fun earlier hearlier later hmem =>
          hbefore earlier hearlier later (List.mem_cons_of_mem _ hmem)⟩)
      refine ⟨result, call :: calls, hresult, hresultLength, ?_, fun happlied => ?_⟩
      · rw [hresultCalls, hcalls, List.append_assoc, List.singleton_append]
      · obtain ⟨hcallApplied, hcallsApplied⟩ := List.forall_mem_cons.mp happlied
        obtain ⟨-, hreached, hkeptPrevious⟩ := hdecelerates hcallApplied
        obtain ⟨hmap, hkept, hkeepsTargets⟩ := hkeeps hcallsApplied
        refine ⟨by rw [List.map_cons, hcallTarget, hmap], ?_, ?_⟩
        · intro earlier hearlier hbehind
          obtain ⟨hbehindCall, hbehindLater⟩ := List.forall_mem_cons.mp hbehind
          exact (hkept earlier (List.mem_cons_of_mem _ hearlier) hbehindLater).trans
            (hkeptPrevious earlier hearlier hbehindCall)
        · intro earlier other later hsplit hnotPasses hbehind
          cases earlier with
          | nil =>
            obtain ⟨rfl, rfl⟩ := List.cons.inj hsplit
            have hindex : call.targetIndex = target.1 := congrArg Prod.fst hcallTarget
            have hvel : call.targetVel = target.2 := congrArg Prod.snd hcallTarget
            rw [hindex] at hbehind ⊢
            rw [hvel, hkept target List.mem_cons_self hbehind]
            exact hreached hnotPasses
          | cons first earlier =>
            obtain ⟨-, hrest⟩ := List.cons.inj hsplit
            exact hkeepsTargets earlier other later hrest hnotPasses hbehind

end

def squareRoots : RealFunctions ℚ where
  sqrt := Rat.sqrt
  atan := id
  pi := 22 / 7
  epsilon := 1 / 4503599627370496

def pointAt (x velocity : ℚ) : PlannedPoint ℚ :=
  ⟨⟨⟨x, 0, 0⟩, velocity, 0⟩, 0⟩

/-- Jerks from `startJerk` on down to -4. -/
def jerkParam : Param ℚ :=
  ⟨⟨1, -1, 1, -1, 1⟩, ⟨-1, -4, -4, -1, -1, -3⟩⟩

/-- The profile from 2 to 199/200 m/s ends after 3 m. -/
def slowingPoints : List (PlannedPoint ℚ) :=
  [pointAt 0 2, pointAt 3 (199 / 200)]

def twiceSlowingPoints : List (PlannedPoint ℚ) :=
  pointAt 0 10 ::
    ((List.range 10).map fun k : ℕ => pointAt (4291 / 100 + (k : ℚ) / 4) 5) ++
      [pointAt (4541 / 100) (491 / 100)]

end AutowareUniverse.Planning.MotionVelocitySmoother.AnalyticalJerkConstrainedSmoother
