import AutowareUniverse.Planning.JerkFilter
import AutowareUniverse.Planning.StopDistance
import AutowareUniverse.Common.Interpolation
import Mathlib.Data.List.TakeWhile

/-!
# Velocities of a stop

Two filters write a planned deceleration into a trajectory.  They sample it in
time, check that it ends as planned, and interpolate the samples at the points.
-/

namespace AutowareUniverse.Planning.MotionVelocitySmoother

section

open Common.Interpolation (Failure atIndex isIncreasing isNotDecreasing lerp)

open JerkFilteredSmoother (withState)

open TrajectoryUtils

variable {K : Type} [Field K] [LinearOrder K]

section

variable {m : Type → Type} [Monad m] (update : K → State K → m (State K)) (minAcc : K)

/-- The loop over the times: the last state, and those that move forward. -/
def sampleLoop : State K → List K → m (State K × List (State K))
  | state, [] => return (state, [])
  | state, t :: ts => do
    let state ← update t state
    if 0 < state.v then do
      let state := { state with a := max state.a minAcc }
      let (last, samples) ← sampleLoop state ts
      return (last, state :: samples)
    else sampleLoop state ts

variable [FloorRing K]

def sampleTimes (tTotal : K) : List K :=
  (List.range ⌈tTotal * 10⌉₊).map fun k : ℕ => (k : K) / 10

/-- The samples before the end, and the end if it is in front of them. -/
def sampleProfile (tTotal : K) : m (State K × List (State K)) := do
  let (state, samples) ← sampleLoop update minAcc ⟨0, 0, 0, 0⟩ (sampleTimes tTotal)
  let state ← update tTotal state
  match samples.getLast? with
  | none => return (state, samples)
  | some last =>
    if 0 < state.v ∧ last.x < state.x then
      let state := { state with a := max state.a minAcc }
      return (state, samples ++ [state])
    else return (state, samples)

end

def assign (startIndex : ℕ) (velAtWp accAtWp : List K) (targetVel : K)
    (trajectory : List (PlannedPoint K)) : List (PlannedPoint K) :=
  trajectory.mapIdx fun i point =>
    if i < startIndex then point
    else
      match velAtWp[i - startIndex]?, accAtWp[i - startIndex]? with
      | some vel, some acc => withState point (vel, acc)
      | _, _ => withState point (targetVel, 0)

/-- `&&` of checks that may fail. -/
def bothHold (first second : Except Failure Bool) : Except Failure Bool := do
  if ← first then second else return false

def areSorted (xs dists : List K) : Except Failure Bool :=
  bothHold (isIncreasing xs) (bothHold (isIncreasing dists)
    (bothHold (isNotDecreasing xs) (isNotDecreasing dists)))

def interpolateSamples (samples : List (State K)) (dists : List K) (targetVel : K)
    (startIndex : ℕ) (trajectory : List (PlannedPoint K)) :
    Except Failure (Option (List (PlannedPoint K))) := do
  let xs := samples.map (·.x)
  if !(← areSorted xs dists) then return none
  else if xs.length < 2 ∨ dists.isEmpty ∨ dists.headD 0 < xs.headD 0 ∨
      xs.getLastD 0 < dists.getLastD 0 then return none
  else
    let velAtWp ← lerp xs (samples.map (·.v)) dists
    let accAtWp ← lerp xs (samples.map (·.a)) dists
    if trajectory.length < startIndex + velAtWp.length then .error .outOfRange
    else return some (assign startIndex velAtWp accAtWp targetVel trajectory)

section

variable [FloorRing K] (real : RealFunctions K)

namespace TrajectoryUtils

def arclengthLoop : K → PlannedPoint K → List (PlannedPoint K) → List K
  | _, _, [] => []
  | dist, previous, point :: points =>
    let dist := dist + calcDistance2d real point.position previous.position
    dist :: arclengthLoop dist point points

def calcArclengthArray : List (PlannedPoint K) → List K
  | [] => []
  | first :: points => 0 :: arclengthLoop real 0 first points

def applyDecelFilterWithJerkConstraint (input : List (PlannedPoint K)) (startIndex : ℕ)
    (v0 a0 minAcc decelTargetVel : K) (jerkProfile : List (K × K)) :
    Except Failure (Option (List (PlannedPoint K))) :=
  let tTotal := (jerkProfile.map (·.2)).sum
  -- the state is the one at the end, whatever the time
  match sampleProfile (fun _ _ => updateStateWithJerkConstraint v0 a0 jerkProfile tTotal)
      minAcc tTotal with
  | none => .ok none
  | some (state, samples) =>
    if !isValidStopDist state.v state.a decelTargetVel 0 (3 / 10) (1 / 10) then .ok none
    else
      match samples.getLast? with
      | none =>
        if input.length ≤ startIndex then .error .outOfRange
        else .ok (some (assign startIndex [] [] decelTargetVel input))
      | some last =>
        let distanceAll := calcArclengthArray real input
        let itEnd := distanceAll.findIdx fun x => last.x < x
        -- a range that ends before it begins
        if itEnd < startIndex then .error .outOfRange
        else
          interpolateSamples samples ((distanceAll.take itEnd).drop startIndex)
            decelTargetVel startIndex input

end TrajectoryUtils

/-! ## The filter of the analytical smoother -/

namespace AnalyticalVelocityPlanningUtils

def validCheckCalcStopDist (vEnd aEnd vTarget aTarget vMargin aMargin : K) : Bool :=
  isValidStopDist vEnd aEnd vTarget aTarget vMargin aMargin

def cutTime (t : K) : K :=
  if t < 1 / 100 then 0 else t

section

variable (sqrt : K → K) (v0 a0 jerkAcc jerkDec minAcc targetVel : K)

def calcStopDistWithJerkAndAccConstraints : Option (ℕ × List K × K) :=
  let tMin := (targetVel - v0 - 1 / 2 * (0 - a0) / jerkDec * a0 -
    1 / 2 * minAcc / jerkDec * minAcc - 1 / 2 * (0 - minAcc) / jerkAcc * minAcc) / minAcc
  if 0 < tMin then
    let t1 := cutTime ((minAcc - a0) / jerkDec)
    let a1 := a0 + jerkDec * t1
    let v1 := v0 + a0 * t1 + 1 / 2 * jerkDec * t1 * t1
    let x1 := v0 * t1 + 1 / 2 * a0 * t1 * t1 + 1 / 6 * jerkDec * t1 * t1 * t1
    let t2 := cutTime tMin
    let a2 := a1
    let v2 := v1 + a1 * t2
    let x2 := x1 + v1 * t2 + 1 / 2 * a1 * t2 * t2
    let t3 := cutTime ((0 - minAcc) / jerkAcc)
    let a3 := a2 + jerkAcc * t3
    let v3 := v2 + a2 * t3 + 1 / 2 * jerkAcc * t3 * t3
    let x3 := x2 + v2 * t3 + 1 / 2 * a2 * t3 * t3 + 1 / 6 * jerkAcc * t3 * t3 * t3
    if !validCheckCalcStopDist v3 a3 targetVel 0 (3 / 10) (1 / 10) then none
    else some (1, [t1, t2, t3], x3)
  else
    let isDecelNeeded := 1 / 2 * (0 - a0) / jerkAcc * a0 - (targetVel - v0)
    if 0 < isDecelNeeded ∨ 0 < a0 then
      let a1Square := (targetVel - v0 - 1 / 2 * (0 - a0) / jerkDec * a0) *
        (2 * jerkAcc * jerkDec / (jerkAcc - jerkDec))
      let a1 := -sqrt a1Square
      let t1 := cutTime ((a1 - a0) / jerkDec)
      let v1 := v0 + a0 * t1 + 1 / 2 * jerkDec * t1 * t1
      let x1 := v0 * t1 + 1 / 2 * a0 * t1 * t1 + 1 / 6 * jerkDec * t1 * t1 * t1
      let t2 := cutTime ((0 - a1) / jerkAcc)
      -- from the wanted deceleration, also where the time to it is cut
      let a2 := a1 + jerkAcc * t2
      let v2 := v1 + a1 * t2 + 1 / 2 * jerkAcc * t2 * t2
      let x2 := x1 + v1 * t2 + 1 / 2 * a1 * t2 * t2 + 1 / 6 * jerkAcc * t2 * t2 * t2
      if !validCheckCalcStopDist v2 a2 targetVel 0 (3 / 10) (1 / 10) then none
      else some (2, [t1, t2], x2)
    else
      let t1 := (0 - a0) / jerkAcc
      if t1 < 0 then none
      else
        let t1 := cutTime t1
        let a1 := a0 + jerkAcc * t1
        let v1 := v0 + a0 * t1 + 1 / 2 * jerkAcc * t1 * t1
        let x1 := v0 * t1 + 1 / 2 * a0 * t1 * t1 + 1 / 6 * jerkAcc * t1 * t1 * t1
        if !validCheckCalcStopDist v1 a1 targetVel 0 (3 / 10) (1 / 10) then none
        else some (3, [t1], x1)

end
def updateStopVelocityStatus (v0 a0 jerkAcc jerkDec : K) (type : ℕ) (times : List K) (t : K)
    (state : State K) : Except Failure (State K) :=
  match type with
  | 1 => do
    let t1 ← atIndex times 0
    let a1 := integA a0 jerkDec t1
    let v1 := integV v0 a0 jerkDec t1
    let x1 := integX 0 v0 a0 jerkDec t1
    if 0 ≤ t ∧ t < t1 then
      return ⟨integX 0 v0 a0 jerkDec t, integV v0 a0 jerkDec t, integA a0 jerkDec t, jerkDec⟩
    else
      let t2 ← atIndex times 1
      let a2 := integA a1 0 t2
      let v2 := integV v1 a1 0 t2
      let x2 := integX x1 v1 a1 0 t2
      if t1 ≤ t ∧ t < t1 + t2 then
        let dt := t - t1
        return ⟨integX x1 v1 a1 0 dt, integV v1 a1 0 dt, integA a1 0 dt, 0⟩
      else
        let t3 ← atIndex times 2
        if t1 + t2 ≤ t ∧ t ≤ t1 + t2 + t3 then
          let dt := t - (t1 + t2)
          return ⟨integX x2 v2 a2 jerkAcc dt, integV v2 a2 jerkAcc dt, integA a2 jerkAcc dt,
            jerkAcc⟩
        else return state
  | 2 => do
    let t1 ← atIndex times 0
    let a1 := integA a0 jerkDec t1
    let v1 := integV v0 a0 jerkDec t1
    let x1 := integX 0 v0 a0 jerkDec t1
    if 0 ≤ t ∧ t < t1 then
      return ⟨integX 0 v0 a0 jerkDec t, integV v0 a0 jerkDec t, integA a0 jerkDec t, jerkDec⟩
    else
      let t2 ← atIndex times 1
      if t1 ≤ t ∧ t ≤ t1 + t2 then
        let dt := t - t1
        return ⟨integX x1 v1 a1 jerkAcc dt, integV v1 a1 jerkAcc dt, integA a1 jerkAcc dt, jerkAcc⟩
      else return state
  | 3 => do
    let t1 ← atIndex times 0
    if 0 ≤ t ∧ t ≤ t1 then
      return ⟨integX 0 v0 a0 jerkAcc t, integV v0 a0 jerkAcc t, integA a0 jerkAcc t, jerkAcc⟩
    else return state
  | _ => return state

def distsLoop (xsBack : K) : K → PlannedPoint K → List (PlannedPoint K) → List K
  | _, _, [] => []
  | dist, point, next :: points =>
    let dist := dist + calcDistance2d real point.position next.position
    if xsBack < dist then [] else dist :: distsLoop xsBack dist next points

def calcStopVelocityWithConstantJerkAccLimit (v0 a0 jerkAcc jerkDec minAcc decelTargetVel : K)
    (type : ℕ) (times : List K) (startIndex : ℕ) (outputTrajectory : List (PlannedPoint K)) :
    Except Failure (Option (List (PlannedPoint K))) := do
  let (state, samples) ← sampleProfile
    (updateStopVelocityStatus v0 a0 jerkAcc jerkDec type times) minAcc times.sum
  if !validCheckCalcStopDist state.v state.a decelTargetVel 0 (3 / 10) (1 / 10) then return none
  else
    match samples.getLast? with
    | none => return some (assign startIndex [] [] decelTargetVel outputTrajectory)
    | some last =>
      match outputTrajectory.drop startIndex with
      | [] =>
        if outputTrajectory.isEmpty then .error .outOfRange
        else interpolateSamples samples [0] decelTargetVel startIndex outputTrajectory
      | point :: points =>
        interpolateSamples samples (0 :: distsLoop real last.x 0 point points)
          decelTargetVel startIndex outputTrajectory

end AnalyticalVelocityPlanningUtils

end

open Common.Interpolation

open Common.MotionUtils (Point calcSquaredDistance2d)

open Library.ConstantJerk Library.Fallible TrajectoryUtils

/-! ## Sampling -/

section

def limitAcc (minAcc : K) (state : State K) : State K :=
  { state with a := max state.a minAcc }

variable {m : Type → Type} [Monad m] [LawfulMonad m] {update : K → State K → m (State K)}
  {stateAt : K → State K} {minAcc : K}

variable (minAcc) in
theorem sampleLoop_eq {ts : List K} (hupdate : ∀ t ∈ ts, ∀ state, update t state = pure (stateAt t))
    (state : State K) : ∃ last, sampleLoop update minAcc state ts =
      pure (last, ((ts.map stateAt).filter fun state => 0 < state.v).map (limitAcc minAcc)) := by
  induction ts generalizing state with
  | nil => exact ⟨state, rfl⟩
  | cons t ts ih =>
    rw [List.forall_mem_cons] at hupdate
    rw [sampleLoop, hupdate.1, pure_bind, List.map_cons]
    by_cases hforward : 0 < (stateAt t).v
    · obtain ⟨last, hloop⟩ := ih hupdate.2 (limitAcc minAcc (stateAt t))
      refine ⟨last, ?_⟩
      rw [if_pos hforward, List.filter_cons_of_pos (by simpa using hforward), List.map_cons]
      dsimp only
      rw [show ({ stateAt t with a := max (stateAt t).a minAcc } : State K) =
        limitAcc minAcc (stateAt t) from rfl, hloop, pure_bind]
    · obtain ⟨last, hloop⟩ := ih hupdate.2 (stateAt t)
      refine ⟨last, ?_⟩
      rw [if_neg hforward, List.filter_cons_of_neg (by simpa using hforward), hloop]

variable [FloorRing K] {tTotal : K}

variable (update stateAt minAcc tTotal) in
theorem sampleProfile_of_still
    (hupdate : ∀ t ∈ sampleTimes tTotal, ∀ state, update t state = pure (stateAt t))
    (hend : ∀ state, update tTotal state = pure (stateAt tTotal))
    (hstill : ∀ t ∈ sampleTimes tTotal, (stateAt t).v ≤ 0) :
    sampleProfile update minAcc tTotal = pure (stateAt tTotal, []) := by
  obtain ⟨last, hloop⟩ := sampleLoop_eq minAcc hupdate ⟨0, 0, 0, 0⟩
  have hnone : ((sampleTimes tTotal).map stateAt).filter (fun state => 0 < state.v) = [] := by
    rw [List.filter_eq_nil_iff]
    intro state hstate
    obtain ⟨t, ht, rfl⟩ := List.mem_map.mp hstate
    simpa using hstill t ht
  rw [sampleProfile, hloop, hnone, List.map_nil, pure_bind]
  dsimp only
  rw [hend, pure_bind]
  rfl

variable (update stateAt minAcc tTotal) in
theorem sampleProfile_of_forward
    (hupdate : ∀ t ∈ sampleTimes tTotal, ∀ state, update t state = pure (stateAt t))
    (hend : ∀ state, update tTotal state = pure (stateAt tTotal))
    (hforward : ∀ t ∈ sampleTimes tTotal, 0 < (stateAt t).v) {last : K}
    (hlast : (sampleTimes tTotal).getLast? = some last) :
    sampleProfile update minAcc tTotal =
      pure (if 0 < (stateAt tTotal).v ∧ (stateAt last).x < (stateAt tTotal).x then
        (limitAcc minAcc (stateAt tTotal),
          (sampleTimes tTotal ++ [tTotal]).map fun t => limitAcc minAcc (stateAt t))
      else (stateAt tTotal, (sampleTimes tTotal).map fun t => limitAcc minAcc (stateAt t))) := by
  obtain ⟨_, hloop⟩ := sampleLoop_eq minAcc hupdate ⟨0, 0, 0, 0⟩
  have hall : ((sampleTimes tTotal).map stateAt).filter (fun state => 0 < state.v) =
      (sampleTimes tTotal).map stateAt := by
    rw [List.filter_eq_self]
    intro state hstate
    obtain ⟨t, ht, rfl⟩ := List.mem_map.mp hstate
    simpa using hforward t ht
  have hsampled : (((sampleTimes tTotal).map stateAt).map (limitAcc minAcc)).getLast? =
      some (limitAcc minAcc (stateAt last)) := by
    rw [List.getLast?_map, List.getLast?_map, hlast]
    rfl
  rw [sampleProfile, hloop, hall, pure_bind]
  dsimp only
  rw [hend, pure_bind, hsampled]
  dsimp only
  rw [List.map_map, show (limitAcc minAcc (stateAt last)).x = (stateAt last).x from rfl]
  split
  · rw [List.map_append]
    rfl
  · rfl

end

section

variable [IsStrictOrderedRing K] [FloorRing K] {tTotal : K}

theorem mem_sampleTimes {t : K} (ht : t ∈ sampleTimes tTotal) : 0 ≤ t ∧ t < tTotal := by
  obtain ⟨k, hk, rfl⟩ := List.mem_map.mp ht
  rw [List.mem_range, Nat.lt_ceil] at hk
  refine ⟨by positivity, ?_⟩
  rw [div_lt_iff₀ (by norm_num)]
  exact hk

theorem sampleTimes_of_nonpos (hnonpos : tTotal ≤ 0) : sampleTimes tTotal = [] := by
  rw [sampleTimes, Nat.ceil_eq_zero.mpr (by linarith), List.range_zero, List.map_nil]

theorem sampleTimes_of_pos (hpos : 0 < tTotal) : ∃ later, sampleTimes tTotal = 0 :: later := by
  obtain ⟨n, hn⟩ := Nat.exists_eq_succ_of_ne_zero
    (Nat.ceil_pos.mpr (show 0 < tTotal * 10 by linarith)).ne'
  rw [sampleTimes, hn, Nat.succ_eq_add_one, List.range_succ_eq_map, List.map_cons]
  exact ⟨_, by rw [Nat.cast_zero, zero_div]⟩

end

section

variable {startIndex : ℕ} {velAtWp accAtWp : List K} {targetVel : K}
  {trajectory : List (PlannedPoint K)}

omit [LinearOrder K]

@[simp] theorem length_assign :
    (assign startIndex velAtWp accAtWp targetVel trajectory).length = trajectory.length :=
  List.length_mapIdx

theorem getElem?_assign_of_lt {i : ℕ} (hi : i < startIndex) :
    (assign startIndex velAtWp accAtWp targetVel trajectory)[i]? = trajectory[i]? := by
  rw [assign, List.getElem?_mapIdx]
  simp only [if_pos hi, Option.map_id']

theorem velocity_assign (hlength : velAtWp.length = accAtWp.length) {i : ℕ} {point : PlannedPoint K}
    (hpoint : (assign startIndex velAtWp accAtWp targetVel trajectory)[startIndex + i]? =
      some point) :
    point.longitudinalVelocityMps = (velAtWp[i]?).getD targetVel := by
  rw [assign, List.getElem?_mapIdx, Option.map_eq_some_iff] at hpoint
  obtain ⟨before, -, rfl⟩ := hpoint
  rw [if_neg (by omega), Nat.add_sub_cancel_left]
  by_cases hi : i < velAtWp.length
  · rw [List.getElem?_eq_getElem hi, List.getElem?_eq_getElem (hlength ▸ hi)]
    rfl
  · rw [List.getElem?_eq_none (not_lt.mp hi)]
    rfl

end

/-! ## Distances -/

variable {real : RealFunctions K}

def ArclengthIncreases (real : RealFunctions K) (trajectory : List (PlannedPoint K)) : Prop :=
  trajectory.IsChain fun point next => 0 < calcDistance2d real next.position point.position

omit [LinearOrder K] in
theorem calcDistance2d_comm (p1 p2 : Point K) :
    calcDistance2d real p1 p2 = calcDistance2d real p2 p1 := by
  unfold calcDistance2d calcSquaredDistance2d
  congr 1
  ring

theorem distsLoop_eq (xsBack dist : K) (point : PlannedPoint K) (points : List (PlannedPoint K)) :
    AnalyticalVelocityPlanningUtils.distsLoop real xsBack dist point points =
      (arclengthLoop real dist point points).takeWhile fun s => !decide (xsBack < s) := by
  induction points generalizing dist point with
  | nil => rfl
  | cons next points ih =>
    rw [AnalyticalVelocityPlanningUtils.distsLoop, arclengthLoop,
      calcDistance2d_comm point.position]
    by_cases hbehind : xsBack < dist + calcDistance2d real next.position point.position
    · rw [if_pos hbehind, List.takeWhile_cons_of_neg (by simpa using hbehind)]
    · rw [if_neg hbehind, List.takeWhile_cons_of_pos (by simpa using hbehind), ih]

variable [IsStrictOrderedRing K]

theorem pairwise_arclengthLoop {dist : K} {previous : PlannedPoint K}
    {points : List (PlannedPoint K)} (hincreases : ArclengthIncreases real (previous :: points)) :
    (dist :: arclengthLoop real dist previous points).Pairwise (· < ·) := by
  rw [← List.isChain_iff_pairwise]
  induction points generalizing dist previous with
  | nil => exact .singleton _
  | cons point points ih =>
    obtain ⟨hstep, hrest⟩ := List.isChain_cons_cons.mp hincreases
    exact .cons_cons (by linarith) (ih hrest)

theorem calcArclengthArray_drop {trajectory : List (PlannedPoint K)} {startIndex : ℕ}
    (hstart : startIndex < trajectory.length) (hincreases : ArclengthIncreases real trajectory) :
    ∃ point points, trajectory.drop startIndex = point :: points ∧
      calcArclengthArray real (trajectory.drop startIndex) =
        0 :: arclengthLoop real 0 point points ∧
      (0 :: arclengthLoop real 0 point points).Pairwise (· < ·) := by
  obtain ⟨point, points, hdrop⟩ := List.exists_cons_of_ne_nil
    (mt List.drop_eq_nil_iff.mp (not_le.mpr hstart))
  refine ⟨point, points, hdrop, by rw [hdrop]; rfl, pairwise_arclengthLoop ?_⟩
  rw [← hdrop]
  exact hincreases.drop startIndex

omit [Field K] [IsStrictOrderedRing K] in
/-- In an increasing list, what is not behind a bound is in front of all that is. -/
theorem lt_length_takeWhile {back s : K} {arcs : List K} (hincreasing : arcs.Pairwise (· < ·))
    {i : ℕ} (hs : arcs[i]? = some s) (hle : s ≤ back) :
    i < (arcs.takeWhile fun s => !decide (back < s)).length := by
  induction arcs generalizing i with
  | nil => cases hs
  | cons first later ih =>
    obtain ⟨hfirst, hlater⟩ := List.pairwise_cons.mp hincreasing
    have hkept : first ≤ back := by
      cases i with
      | zero => exact (Option.some.inj hs).trans_le hle
      | succ i => exact (hfirst s (List.mem_of_getElem? hs)).le.trans hle
    rw [List.takeWhile_cons_of_pos (by simpa using hkept), List.length_cons]
    cases i with
    | zero => exact Nat.succ_pos _
    | succ i => exact Nat.succ_lt_succ (ih hlater hs)

end

/-!
# Profiles of a stop

What it means for a trajectory to follow a profile.  The profiles that are found
have times that are not negative, the states are those of their motions, and
increasing samples are interpolated up to the last of them.
-/

open Common.Interpolation Library.ConstantJerk Library.Fallible
open TrajectoryUtils AnalyticalVelocityPlanningUtils

variable {K : Type} [Field K] [LinearOrder K]

section

variable [FloorRing K]

def sampledMotions (phases : List (K × K)) (v0 a0 : K) : List (Motion K) :=
  (sampleTimes (duration phases) ++ [duration phases]).map fun t => during phases t ⟨0, v0, a0⟩

def ProfileVelocity (samples : List (Motion K)) (s velocity : K) : Prop :=
  Interpolates (samples.map (·.position)) (samples.map (·.velocity)) s velocity ∨
    ∃ only, samples = [only] ∧ s = only.position ∧ velocity = only.velocity

structure FollowsProfile (real : RealFunctions K) (phases : List (K × K)) (v0 a0 targetVel : K)
    (startIndex : ℕ) (input output : List (PlannedPoint K)) : Prop where
  length_eq : output.length = input.length
  before : ∀ i < startIndex, output[i]? = input[i]?
  along : ∀ (i : ℕ) (s : K) (point : PlannedPoint K),
    (calcArclengthArray real (input.drop startIndex))[i]? = some s →
    output[startIndex + i]? = some point →
    (s ≤ (run phases ⟨0, v0, a0⟩).position →
      ProfileVelocity (sampledMotions phases v0 a0) s point.longitudinalVelocityMps) ∧
    ((run phases ⟨0, v0, a0⟩).position < s → point.longitudinalVelocityMps = targetVel)

def profilePhases (jerkAcc jerkDec : K) : ℕ → List K → List (K × K)
  | 1, [t1, t2, t3] => [(jerkDec, t1), (0, t2), (jerkAcc, t3)]
  | 2, [t1, t2] => [(jerkDec, t1), (jerkAcc, t2)]
  | 3, [t1] => [(jerkAcc, t1)]
  | _, _ => []

end

def IsState (motion : Motion K) (state : State K) : Prop :=
  state.x = motion.position ∧ state.v = motion.velocity ∧ state.a = motion.acceleration

variable [IsStrictOrderedRing K] {v0 a0 jerkAcc jerkDec minAcc targetVel : K}

theorem updateStopVelocityStatus_eq {type : ℕ} {times : List K}
    (hne : profilePhases jerkAcc jerkDec type times ≠ [])
    (htimes : ∀ phase ∈ profilePhases jerkAcc jerkDec type times, 0 ≤ phase.2) {t : K}
    (ht : 0 ≤ t) (hend : t ≤ duration (profilePhases jerkAcc jerkDec type times)) :
    ∃ current : State K,
      (∀ state, updateStopVelocityStatus v0 a0 jerkAcc jerkDec type times t state = .ok current) ∧
      IsState (during (profilePhases jerkAcc jerkDec type times) t ⟨0, v0, a0⟩) current := by
  revert hne htimes hend
  unfold profilePhases
  split
  · rename_i t1 t2 t3
    intro _ htimes hend
    have hlater : ∀ phase ∈ [((0 : K), t2), (jerkAcc, t3)], 0 ≤ phase.2 :=
      (List.forall_mem_cons.mp htimes).2
    have hlast : ∀ phase ∈ [(jerkAcc, t3)], 0 ≤ phase.2 := (List.forall_mem_cons.mp hlater).2
    simp only [duration_cons, duration_nil, add_zero] at hend
    by_cases hfirst : t < t1
    · refine ⟨_, fun state => if_pos ⟨ht, hfirst⟩, ?_⟩
      rw [during_of_le _ _ hfirst.le]
      exact ⟨rfl, rfl, rfl⟩
    rw [during_of_ge hlater _ (not_lt.mp hfirst)]
    by_cases hsecond : t < t1 + t2
    · refine ⟨_, fun state => (if_neg fun h => hfirst h.2).trans
        (if_pos ⟨not_lt.mp hfirst, hsecond⟩), ?_⟩
      rw [during_of_le _ _ (by linarith)]
      exact ⟨rfl, rfl, rfl⟩
    · refine ⟨_, fun state => (if_neg fun h => hfirst h.2).trans
        ((if_neg fun h => hsecond h.2).trans (if_pos ⟨not_lt.mp hsecond, by linarith⟩)), ?_⟩
      rw [during_of_ge hlast _ (by linarith), during_of_le _ _ (by linarith), sub_sub]
      exact ⟨rfl, rfl, rfl⟩
  · rename_i t1 t2
    intro _ htimes hend
    have hlater : ∀ phase ∈ [(jerkAcc, t2)], 0 ≤ phase.2 := (List.forall_mem_cons.mp htimes).2
    simp only [duration_cons, duration_nil, add_zero] at hend
    by_cases hfirst : t < t1
    · refine ⟨_, fun state => if_pos ⟨ht, hfirst⟩, ?_⟩
      rw [during_of_le _ _ hfirst.le]
      exact ⟨rfl, rfl, rfl⟩
    · refine ⟨_, fun state => (if_neg fun h => hfirst h.2).trans
        (if_pos ⟨not_lt.mp hfirst, hend⟩), ?_⟩
      rw [during_of_ge hlater _ (not_lt.mp hfirst), during_of_le _ _ (by linarith)]
      exact ⟨rfl, rfl, rfl⟩
  · rename_i t1
    intro _ _ hend
    simp only [duration_cons, duration_nil, add_zero] at hend
    refine ⟨_, fun state => if_pos ⟨ht, hend⟩, ?_⟩
    rw [during_of_le _ _ hend]
    exact ⟨rfl, rfl, rfl⟩
  · exact fun hne => absurd rfl hne

/-! ## Profiles that are found -/

section

omit [IsStrictOrderedRing K] in
theorem cutTime_nonneg (t : K) (hnonneg : (0 : K) ≤ 1 / 100) : 0 ≤ cutTime t := by
  unfold cutTime
  split
  · exact le_rfl
  · rename_i hlong
    exact hnonneg.trans (not_lt.mp hlong)

/-- The times of a type are as many as it needs, and not negative. -/
theorem profilePhases_of_found {sqrt : K → K} {type : ℕ} {times : List K} {stopDist : K}
    (hfound : calcStopDistWithJerkAndAccConstraints sqrt v0 a0 jerkAcc jerkDec minAcc targetVel =
      some (type, times, stopDist)) :
    profilePhases jerkAcc jerkDec type times ≠ [] ∧
      ∀ phase ∈ profilePhases jerkAcc jerkDec type times, 0 ≤ phase.2 := by
  have hcut : ∀ t : K, 0 ≤ cutTime t := fun t => cutTime_nonneg t (by norm_num)
  revert hfound
  unfold calcStopDistWithJerkAndAccConstraints
  dsimp only
  split
  · split
    · exact fun hfound => absurd hfound (Option.some_ne_none _).symm
    · rintro ⟨⟩
      exact ⟨List.cons_ne_nil _ _, by simp [profilePhases, hcut]⟩
  split
  · split
    · exact fun hfound => absurd hfound (Option.some_ne_none _).symm
    · rintro ⟨⟩
      exact ⟨List.cons_ne_nil _ _, by simp [profilePhases, hcut]⟩
  split
  · exact fun hfound => absurd hfound (Option.some_ne_none _).symm
  split
  · exact fun hfound => absurd hfound (Option.some_ne_none _).symm
  · rintro ⟨⟩
    exact ⟨List.cons_ne_nil _ _, by simp [profilePhases, hcut]⟩

theorem truncateTime_nonneg (t : K) : 0 ≤ truncateTime t := by
  have hthreshold : (0 : K) ≤ tThreshold := by
    unfold tThreshold
    norm_num
  unfold truncateTime
  split
  · exact le_rfl
  · rename_i hlong
    exact hthreshold.trans (not_lt.mp hlong)

variable {jerkProfile : List (K × K)}

theorem insertPhase_times {phase : K × K} (htime : 0 ≤ phase.2)
    (htimes : ∀ other ∈ jerkProfile, 0 ≤ other.2) :
    (∀ other ∈ insertPhase phase jerkProfile, 0 ≤ other.2) ∧
      duration (insertPhase phase jerkProfile) ≤ phase.2 + duration jerkProfile := by
  induction jerkProfile with
  | nil => exact ⟨List.forall_mem_singleton.mpr htime, le_rfl⟩
  | cons other jerkProfile ih =>
    have hrest := List.forall_mem_cons.mp htimes
    obtain ⟨hinserted, hle⟩ := ih hrest.2
    unfold insertPhase
    split
    · exact ⟨List.forall_mem_cons.mpr ⟨htime, htimes⟩, le_rfl⟩
    split
    · refine ⟨List.forall_mem_cons.mpr ⟨hrest.1, hinserted⟩, ?_⟩
      rw [duration_cons, duration_cons]
      linarith
    · exact ⟨htimes, by linarith⟩

theorem foldl_insertPhase_times {phases jerkProfile : List (K × K)}
    (hphases : ∀ phase ∈ phases, 0 ≤ phase.2) (htimes : ∀ other ∈ jerkProfile, 0 ≤ other.2) :
    (∀ other ∈ phases.foldl (fun jerkProfile phase => insertPhase phase jerkProfile) jerkProfile,
        0 ≤ other.2) ∧
      duration (phases.foldl (fun jerkProfile phase => insertPhase phase jerkProfile)
        jerkProfile) ≤ duration phases + duration jerkProfile := by
  induction phases generalizing jerkProfile with
  | nil => exact ⟨htimes, by rw [duration_nil, zero_add, List.foldl_nil]⟩
  | cons phase phases ih =>
    rw [List.forall_mem_cons] at hphases
    obtain ⟨hinserted, hle⟩ := insertPhase_times hphases.1 htimes
    obtain ⟨hall, htotal⟩ := ih hphases.2 hinserted
    refine ⟨hall, htotal.trans ?_⟩
    rw [duration_cons]
    linarith

theorem le_of_updateStateLoop {t tSum x v a : K} {state : State K}
    (htimes : ∀ phase ∈ jerkProfile, 0 ≤ phase.2)
    (hstate : updateStateLoop t tSum x v a jerkProfile = some state) :
    jerkProfile ≠ [] ∧ t ≤ tSum + duration jerkProfile := by
  induction jerkProfile generalizing tSum x v a with
  | nil => cases hstate
  | cons phase jerkProfile ih =>
    obtain ⟨htime, hrest⟩ := List.forall_mem_cons.mp htimes
    refine ⟨List.cons_ne_nil _ _, ?_⟩
    rw [duration_cons]
    rw [updateStateLoop] at hstate
    split at hstate
    · linarith [(ih hrest hstate).2]
    · linarith [duration_nonneg hrest]

theorem jerkProfile_of_found {sqrt : K → K} {stopDist : Option K}
    (hfound : calcStopDistWithJerkConstraints sqrt v0 a0 jerkAcc jerkDec minAcc targetVel =
      { succeeded := true, jerkProfile := jerkProfile, stopDist := stopDist }) :
    jerkProfile ≠ [] ∧ (∀ phase ∈ jerkProfile, 0 ≤ phase.2) ∧
      isValidStopDist (run jerkProfile ⟨0, v0, a0⟩).velocity
        (run jerkProfile ⟨0, v0, a0⟩).acceleration targetVel 0 (3 / 10) (1 / 10) = true ∧
      stopDist = some (run jerkProfile ⟨0, v0, a0⟩).position := by
  revert hfound
  unfold calcStopDistWithJerkConstraints
  split
  · rintro ⟨⟩
  extract_lets phases jerkProfiles
  have hphases : ∀ phase ∈ phases, 0 ≤ phase.2 := by
    intro phase hphase
    obtain ⟨calculated, -, rfl⟩ := List.mem_map.mp hphase
    exact truncateTime_nonneg _
  obtain ⟨htimes, htotal⟩ := foldl_insertPhase_times hphases (List.forall_mem_nil _)
  rw [duration_nil, add_zero] at htotal
  split
  · rintro ⟨⟩
  rename_i state hstate
  intro hfound
  obtain ⟨hvalid, rfl, rfl⟩ := StopDist.mk.inj hfound
  obtain ⟨hne, hle⟩ := le_of_updateStateLoop htimes hstate
  have hend : (phases.map (·.2)).sum = duration (phases.foldl
      (fun jerkProfile phase => insertPhase phase jerkProfile) []) := by
    rw [zero_add] at hle
    exact le_antisymm hle htotal
  rw [hend] at hstate
  obtain ⟨j, hfinal⟩ := updateStateWithJerkConstraint_eq v0 a0 hne le_rfl
  rw [during_duration htimes] at hfinal
  cases hstate.symm.trans hfinal
  exact ⟨hne, htimes, hvalid, rfl⟩

end

section

variable {samples : List (State K)} {startIndex : ℕ} {trajectory output : List (PlannedPoint K)}

theorem bothHold_eq_ok {first second : Except Failure Bool} :
    bothHold first second = .ok true ↔ first = .ok true ∧ second = .ok true := by
  unfold bothHold
  constructor
  · intro hboth
    obtain ⟨holds, hfirst, hsecond⟩ := bind_eq_ok.mp hboth
    cases holds with
    | false => cases hsecond
    | true => exact ⟨hfirst, hsecond⟩
  · rintro ⟨rfl, hsecond⟩
    exact hsecond

omit [IsStrictOrderedRing K] in
theorem increasing_of_interpolateSamples {dists : List K}
    (houtput : interpolateSamples samples dists targetVel startIndex trajectory =
      .ok (some output)) :
    (samples.map (·.x)).Pairwise (· < ·) ∧ 2 ≤ samples.length := by
  unfold interpolateSamples at houtput
  obtain ⟨sorted, hsorted, houtput⟩ := bind_eq_ok.mp houtput
  cases sorted with
  | false => cases houtput
  | true =>
    rw [if_neg (by decide)] at houtput
    split at houtput
    · cases houtput
    · rename_i hchecks
      rw [not_or, List.length_map] at hchecks
      refine ⟨pairwise_of_isIncreasing (bothHold_eq_ok.mp hsorted).1, by omega⟩

variable (targetVel) in
theorem interpolateSamples_eq {arcs : List K} {back : K} (htwo : 2 ≤ samples.length)
    (hincreasing : (samples.map (·.x)).Pairwise (· < ·))
    (hfront : (samples.map (·.x)).head? = some 0) (hback : (samples.map (·.x)).getLast? = some back)
    (harcs : (0 :: arcs).Pairwise (· < ·))
    (hlength : trajectory.length = startIndex + (arcs.length + 1)) :
    ∃ velAtWp accAtWp : List K, velAtWp.length = accAtWp.length ∧
      List.Forall₂ (Interpolates (samples.map (·.x)) (samples.map (·.v)))
        ((0 :: arcs).takeWhile fun s => !decide (back < s)) velAtWp ∧
      interpolateSamples samples ((0 :: arcs).takeWhile fun s => !decide (back < s)) targetVel
        startIndex trajectory = .ok (some (assign startIndex velAtWp accAtWp targetVel
          trajectory)) := by
  have hxs : 2 ≤ (samples.map (·.x)).length := by rwa [List.length_map]
  have hnonneg : 0 ≤ back := front_le hincreasing (by rw [← List.head?_eq_getElem?, hfront])
    (List.mem_of_getLast? hback)
  set dists := (0 :: arcs).takeWhile fun s => !decide (back < s) with hdists
  have hpart : dists <+: 0 :: arcs := List.takeWhile_prefix _
  have hhead : dists = 0 :: arcs.takeWhile fun s => !decide (back < s) := by
    rw [hdists, List.takeWhile_cons_of_pos (by simpa using hnonneg)]
  have hne : dists ≠ [] := by
    rw [hhead]
    exact List.cons_ne_nil _ _
  have hsorted : dists.Pairwise (· < ·) := harcs.sublist hpart.sublist
  have hinside : ∀ s ∈ dists, 0 ≤ s ∧ s ≤ back := by
    intro s hs
    refine ⟨?_, ?_⟩
    · rw [hhead] at hs hsorted
      rcases List.mem_cons.mp hs with rfl | hs
      · exact le_rfl
      · exact ((List.pairwise_cons.mp hsorted).1 s hs).le
    · simpa using List.mem_takeWhile_imp hs
  obtain ⟨velAtWp, hvel, hvels⟩ := lerp_of_inside (samples.map (·.v)) (by simp) hxs
    hincreasing hfront hback hne (hsorted.imp le_of_lt) hinside
  obtain ⟨accAtWp, hacc, haccs⟩ := lerp_of_inside (samples.map (·.a)) (by simp) hxs
    hincreasing hfront hback hne (hsorted.imp le_of_lt) hinside
  refine ⟨velAtWp, accAtWp, hvels.length_eq.symm.trans haccs.length_eq, hvels, ?_⟩
  have hsorts : areSorted (samples.map (·.x)) dists = .ok true := by
    have hbase : samples.map (·.x) ≠ [] := List.ne_nil_of_length_pos (by omega)
    refine bothHold_eq_ok.mpr ⟨isIncreasing_of_pairwise hbase hincreasing, bothHold_eq_ok.mpr
      ⟨isIncreasing_of_pairwise hne hsorted, bothHold_eq_ok.mpr
        ⟨isNotDecreasing_of_pairwise hbase (hincreasing.imp le_of_lt),
          isNotDecreasing_of_pairwise hne (hsorted.imp le_of_lt)⟩⟩⟩
  unfold interpolateSamples
  refine bind_eq_ok.mpr ⟨true, hsorts, ?_⟩
  rw [if_neg (by decide), if_neg]
  · refine bind_eq_ok.mpr ⟨velAtWp, hvel, bind_eq_ok.mpr ⟨accAtWp, hacc, if_neg ?_⟩⟩
    have hle := hpart.length_le
    rw [hvels.length_eq, List.length_cons] at hle
    omega
  · rintro (hshort | hempty | hbefore | hbehind)
    · omega
    · exact hne (List.isEmpty_iff.mp hempty)
    · rw [hhead, List.headD_eq_head?_getD, List.headD_eq_head?_getD, hfront] at hbefore
      exact lt_irrefl _ hbefore
    · rw [List.getLastD_eq_getLast?, List.getLastD_eq_getLast?, hback,
        List.getLast?_eq_some_getLast hne] at hbehind
      exact absurd (hinside _ (List.getLast_mem hne)).2 (not_le.mpr hbehind)

end

/-!
## Following a planned stop

The analytical filter writes the sampled profile into the points from the start
index on, as long as the samples move forward.  The filter of the node takes the
state at the end for every sample, and so it fails or gives all points the
target velocity at once.
-/

section

variable [FloorRing K]

def AlreadyAtTarget (real : RealFunctions K) (phases : List (K × K)) (v0 a0 targetVel : K)
    (startIndex : ℕ) (input : List (PlannedPoint K)) : Prop :=
  (duration phases ≤ 0 ∨ (run phases ⟨0, v0, a0⟩).velocity ≤ 0) ∧
    ∀ s ∈ calcArclengthArray real (input.drop startIndex), s ≤ (run phases ⟨0, v0, a0⟩).position →
        ProfileVelocity (sampledMotions phases v0 a0) s targetVel

structure MovesForward (samples : List (Motion K)) : Prop where
  two : 2 ≤ samples.length
  velocity : ∀ motion ∈ samples.dropLast, 0 < motion.velocity
  position : (samples.map (·.position)).Pairwise (· < ·)

/-- The profile does not last and is at its target, or moves forward to a valid end.  At rest
the end is no sample: then another two are needed, and behind them the target velocity. -/
def Plannable (real : RealFunctions K) (phases : List (K × K)) (v0 a0 minAcc targetVel : K)
    (startIndex : ℕ) (input : List (PlannedPoint K)) : Prop :=
  let samples := sampledMotions phases v0 a0
  let final := run phases ⟨0, v0, a0⟩
  duration phases ≤ 0 ∧ v0 = targetVel ∧
      isValidStopDist v0 a0 targetVel 0 (3 / 10) (1 / 10) = true ∨
    MovesForward samples ∧ (0 < final.velocity ∧
          isValidStopDist final.velocity (max final.acceleration minAcc) targetVel 0 (3 / 10)
            (1 / 10) = true ∨
        final.velocity ≤ 0 ∧ 3 ≤ samples.length ∧
          isValidStopDist final.velocity final.acceleration targetVel 0 (3 / 10) (1 / 10) = true ∧
          ∀ s ∈ calcArclengthArray real (input.drop startIndex),
            (∀ motion ∈ samples.dropLast, motion.position < s) → s ≤ final.position →
              ProfileVelocity samples s targetVel)

end

variable [FloorRing K] {real : RealFunctions K} {startIndex : ℕ} {input : List (PlannedPoint K)}

/-! ## Assigned velocities -/

section

variable {phases : List (K × K)}

section
omit [LinearOrder K] [IsStrictOrderedRing K] [FloorRing K]

theorem length_arclengthLoop (dist : K) (previous : PlannedPoint K) (points : List (PlannedPoint K)) :
    (arclengthLoop real dist previous points).length = points.length := by
  induction points generalizing dist previous with
  | nil => rfl
  | cons point points ih => rw [arclengthLoop, List.length_cons, List.length_cons, ih]

theorem length_calcArclengthArray (trajectory : List (PlannedPoint K)) :
    (calcArclengthArray real trajectory).length = trajectory.length := by
  cases trajectory with
  | nil => rfl
  | cons first points =>
    rw [calcArclengthArray, List.length_cons, length_arclengthLoop, List.length_cons]

end

omit [IsStrictOrderedRing K] in
/-- All points from the start index on have the target velocity. -/
theorem followsProfile_assign_nil : FollowsProfile real phases v0 a0 targetVel startIndex input
        (assign startIndex [] [] targetVel input) ↔
      ∀ s ∈ calcArclengthArray real (input.drop startIndex), s ≤ (run phases ⟨0, v0, a0⟩).position →
          ProfileVelocity (sampledMotions phases v0 a0) s targetVel := by
  have hvelocity : ∀ (i : ℕ) (point : PlannedPoint K),
      (assign startIndex [] [] targetVel input)[startIndex + i]? = some point →
        point.longitudinalVelocityMps = targetVel :=
    fun i point hpoint => velocity_assign rfl hpoint
  constructor
  · intro hfollows s hs hle
    obtain ⟨i, hi⟩ := List.mem_iff_getElem?.mp hs
    have hlt : startIndex + i < (assign startIndex [] [] targetVel input).length := by
      have hi := (List.getElem?_eq_some_iff.mp hi).1
      rw [length_calcArclengthArray, List.length_drop] at hi
      rw [length_assign]
      omega
    have hpoint := List.getElem?_eq_getElem hlt
    rw [← hvelocity i _ hpoint]
    exact (hfollows.along i s _ hi hpoint).1 hle
  · intro hprofile
    refine ⟨length_assign, fun i hi => getElem?_assign_of_lt hi, ?_⟩
    intro i s point hs hpoint
    rw [hvelocity i point hpoint]
    exact ⟨hprofile s (List.mem_of_getElem? hs), fun _ => rfl⟩

omit [Field K] [LinearOrder K] [IsStrictOrderedRing K] [FloorRing K] in
theorem getElem?_of_prefix {values all : List K} (hpart : values <+: all) {i : ℕ} {value : K}
    (hvalue : values[i]? = some value) : all[i]? = some value := by
  obtain ⟨rest, rfl⟩ := hpart
  rwa [List.getElem?_append_left (List.getElem?_eq_some_iff.mp hvalue).1]

omit [IsStrictOrderedRing K] in
theorem followsProfile_of_prefix {samples : List (State K)} {velAtWp accAtWp : List K} {back : K}
    (hxs : samples.map (·.x) <+: (sampledMotions phases v0 a0).map (·.position))
    (hvs : samples.map (·.v) <+: (sampledMotions phases v0 a0).map (·.velocity))
    (hback : back ≤ (run phases ⟨0, v0, a0⟩).position)
    (hincreasing : (calcArclengthArray real (input.drop startIndex)).Pairwise (· < ·))
    (hvelocities : List.Forall₂ (Interpolates (samples.map (·.x)) (samples.map (·.v)))
      ((calcArclengthArray real (input.drop startIndex)).takeWhile fun s => !decide (back < s))
      velAtWp)
    (hlength : velAtWp.length = accAtWp.length)
    (hbehind : ∀ s ∈ calcArclengthArray real (input.drop startIndex), back < s →
      s ≤ (run phases ⟨0, v0, a0⟩).position →
        ProfileVelocity (sampledMotions phases v0 a0) s targetVel) :
    FollowsProfile real phases v0 a0 targetVel startIndex input
      (assign startIndex velAtWp accAtWp targetVel input) := by
  refine ⟨length_assign, fun i hi => getElem?_assign_of_lt hi, ?_⟩
  intro i s point hs hpoint
  rw [velocity_assign hlength hpoint]
  have htaken : ∀ hi : i < ((calcArclengthArray real (input.drop startIndex)).takeWhile
      fun s => !decide (back < s)).length,
      ((calcArclengthArray real (input.drop startIndex)).takeWhile
        fun s => !decide (back < s))[i] = s := by
    intro hi
    obtain ⟨_, hs⟩ := List.getElem?_eq_some_iff.mp hs
    rw [(List.takeWhile_prefix _).getElem hi, hs]
  by_cases hle : s ≤ back
  · have hi := lt_length_takeWhile hincreasing hs hle
    have hi' : i < velAtWp.length := hvelocities.length_eq ▸ hi
    have hvalue := hvelocities.get hi hi'
    rw [List.get_eq_getElem, List.get_eq_getElem, htaken hi] at hvalue
    rw [List.getElem?_eq_getElem hi', Option.getD_some]
    refine ⟨fun _ => Or.inl ?_, fun hlt => absurd (hle.trans hback) (not_le.mpr hlt)⟩
    obtain ⟨j, key, nextKey, srcVal, dstVal, hkey, hnext, hsrc, hdst, hinside⟩ := hvalue
    exact ⟨j, key, nextKey, srcVal, dstVal, getElem?_of_prefix hxs hkey,
      getElem?_of_prefix hxs hnext, getElem?_of_prefix hvs hsrc, getElem?_of_prefix hvs hdst,
      hinside⟩
  · have hnone : velAtWp[i]? = none := by
      rw [List.getElem?_eq_none_iff, ← hvelocities.length_eq, ← not_lt]
      intro hi
      have hkept := List.mem_takeWhile_imp (List.getElem_mem hi)
      rw [htaken hi] at hkept
      exact hle (by simpa using hkept)
    rw [hnone, Option.getD_none]
    exact ⟨hbehind s (List.mem_of_getElem? hs) (not_le.mp hle), fun _ => rfl⟩

end

section

variable {jerkProfile : List (K × K)}

theorem applyDecelFilterWithJerkConstraint_of_still (hne : jerkProfile ≠ [])
    (htimes : ∀ phase ∈ jerkProfile, 0 ≤ phase.2)
    (hvalid : isValidStopDist (run jerkProfile ⟨0, v0, a0⟩).velocity
      (run jerkProfile ⟨0, v0, a0⟩).acceleration targetVel 0 (3 / 10) (1 / 10) = true)
    (hstart : startIndex < input.length)
    (hstill : duration jerkProfile ≤ 0 ∨ (run jerkProfile ⟨0, v0, a0⟩).velocity ≤ 0) :
    applyDecelFilterWithJerkConstraint real input startIndex v0 a0 minAcc targetVel jerkProfile =
      .ok (some (assign startIndex [] [] targetVel input)) := by
  obtain ⟨j, hstate⟩ := updateStateWithJerkConstraint_eq v0 a0 hne le_rfl
  rw [during_duration htimes] at hstate
  have hsampled := sampleProfile_of_still
    (fun _ _ => updateStateWithJerkConstraint v0 a0 jerkProfile (duration jerkProfile))
    (fun _ => ⟨_, _, _, j⟩) minAcc (duration jerkProfile) (fun _ _ _ => hstate) (fun _ => hstate) (by
      intro t ht
      obtain hshort | hrest := hstill
      · rw [sampleTimes_of_nonpos hshort] at ht
        cases ht
      · exact hrest)
  unfold applyDecelFilterWithJerkConstraint
  dsimp only
  rw [← duration, hsampled]
  change (if _ then _ else _) = _
  rw [hvalid]
  exact if_neg (not_le.mpr hstart)

/-- A profile that lasts and does not end at rest is not interpolated, as all samples are at
its end. -/
theorem applyDecelFilterWithJerkConstraint_of_forward (hne : jerkProfile ≠ [])
    (htimes : ∀ phase ∈ jerkProfile, 0 ≤ phase.2) (hlasts : 0 < duration jerkProfile)
    (hforward : 0 < (run jerkProfile ⟨0, v0, a0⟩).velocity) (output : List (PlannedPoint K)) :
    applyDecelFilterWithJerkConstraint real input startIndex v0 a0 minAcc targetVel jerkProfile ≠
      .ok (some output) := by
  obtain ⟨j, hstate⟩ := updateStateWithJerkConstraint_eq v0 a0 hne le_rfl
  rw [during_duration htimes] at hstate
  obtain ⟨later, hlater⟩ := sampleTimes_of_pos hlasts
  obtain ⟨last, hlast⟩ : ∃ last, (sampleTimes (duration jerkProfile)).getLast? = some last :=
    ⟨_, List.getLast?_eq_some_getLast (by rw [hlater]; exact List.cons_ne_nil _ _)⟩
  have hsampled := sampleProfile_of_forward
    (fun _ _ => updateStateWithJerkConstraint v0 a0 jerkProfile (duration jerkProfile))
    (fun _ => ⟨_, _, _, j⟩) minAcc (duration jerkProfile) (fun _ _ _ => hstate) (fun _ => hstate)
    (fun _ _ => hforward) hlast
  rw [if_neg fun h => lt_irrefl _ h.2] at hsampled
  unfold applyDecelFilterWithJerkConstraint
  dsimp only
  rw [← duration, hsampled, hlater, List.map_cons]
  intro houtput
  change (if _ then _ else _) = _ at houtput
  split at houtput
  · cases houtput
  split at houtput
  · rename_i hnone
    exact absurd hnone (mt List.getLast?_eq_none_iff.mp (List.cons_ne_nil _ _))
  split at houtput
  · cases houtput
  obtain ⟨hincreasing, htwo⟩ := increasing_of_interpolateSamples houtput
  cases later with
  | nil => exact absurd htwo (by rw [List.map_nil, List.length_singleton]; omega)
  | cons t later =>
    rw [List.map_cons, List.map_cons, List.map_cons, List.pairwise_cons] at hincreasing
    exact lt_irrefl _ (hincreasing.1 _ List.mem_cons_self)

theorem applyDecelFilterWithJerkConstraint_follows_iff (hne : jerkProfile ≠ [])
    (htimes : ∀ phase ∈ jerkProfile, 0 ≤ phase.2)
    (hvalid : isValidStopDist (run jerkProfile ⟨0, v0, a0⟩).velocity
      (run jerkProfile ⟨0, v0, a0⟩).acceleration targetVel 0 (3 / 10) (1 / 10) = true)
    (hstart : startIndex < input.length) :
    (∃ output, applyDecelFilterWithJerkConstraint real input startIndex v0 a0 minAcc targetVel
        jerkProfile = .ok (some output) ∧
      FollowsProfile real jerkProfile v0 a0 targetVel startIndex input output) ↔
      AlreadyAtTarget real jerkProfile v0 a0 targetVel startIndex input := by
  constructor
  · rintro ⟨output, houtput, hfollows⟩
    have hstill : duration jerkProfile ≤ 0 ∨ (run jerkProfile ⟨0, v0, a0⟩).velocity ≤ 0 := by
      by_contra hmoves
      rw [not_or, not_le, not_le] at hmoves
      exact applyDecelFilterWithJerkConstraint_of_forward hne htimes hmoves.1 hmoves.2 output
        houtput
    rw [applyDecelFilterWithJerkConstraint_of_still hne htimes hvalid hstart hstill] at houtput
    cases houtput
    exact ⟨hstill, followsProfile_assign_nil.mp hfollows⟩
  · rintro ⟨hstill, hprofile⟩
    exact ⟨_, applyDecelFilterWithJerkConstraint_of_still hne htimes hvalid hstart hstill,
      followsProfile_assign_nil.mpr hprofile⟩

end

/-! ## The analytical filter -/

section

variable {type : ℕ} {times : List K}

variable (v0 a0) in
theorem exists_states (hne : profilePhases jerkAcc jerkDec type times ≠ [])
    (htimes : ∀ phase ∈ profilePhases jerkAcc jerkDec type times, 0 ≤ phase.2)
    (hsum : times.sum = duration (profilePhases jerkAcc jerkDec type times)) :
    ∃ stateAt : K → State K, ∀ t ∈ sampleTimes times.sum ++ [times.sum],
      (∀ state, updateStopVelocityStatus v0 a0 jerkAcc jerkDec type times t state =
        .ok (stateAt t)) ∧
      IsState (during (profilePhases jerkAcc jerkDec type times) t ⟨0, v0, a0⟩) (stateAt t) := by
  have hexists : ∀ t : K, ∃ current : State K, t ∈ sampleTimes times.sum ++ [times.sum] →
      (∀ state, updateStopVelocityStatus v0 a0 jerkAcc jerkDec type times t state = .ok current) ∧
      IsState (during (profilePhases jerkAcc jerkDec type times) t ⟨0, v0, a0⟩) current := by
    intro t
    by_cases ht : t ∈ sampleTimes times.sum ++ [times.sum]
    · have hwithin : 0 ≤ t ∧ t ≤ duration (profilePhases jerkAcc jerkDec type times) := by
        rw [← hsum]
        rcases List.mem_append.mp ht with hbefore | hend
        · exact ⟨(mem_sampleTimes hbefore).1, (mem_sampleTimes hbefore).2.le⟩
        · rw [List.mem_singleton.mp hend, hsum]
          exact ⟨duration_nonneg htimes, le_rfl⟩
      obtain ⟨current, hcurrent⟩ := updateStopVelocityStatus_eq hne htimes hwithin.1 hwithin.2
      exact ⟨current, fun _ => hcurrent⟩
    · exact ⟨⟨0, 0, 0, 0⟩, fun hmem => absurd hmem ht⟩
  choose stateAt hstateAt using hexists
  exact ⟨stateAt, fun t ht => hstateAt t ht⟩

omit [LinearOrder K] [IsStrictOrderedRing K] [FloorRing K] in
theorem sum_eq_duration (hne : profilePhases jerkAcc jerkDec type times ≠ []) :
    times.sum = duration (profilePhases jerkAcc jerkDec type times) := by
  revert hne
  unfold profilePhases
  split
  · exact fun _ => rfl
  · exact fun _ => rfl
  · exact fun _ => rfl
  · exact fun hne => absurd rfl hne

theorem follows_of_still (htimes : ∀ phase ∈ profilePhases jerkAcc jerkDec type times, 0 ≤ phase.2)
    (hne : profilePhases jerkAcc jerkDec type times ≠ [])
    (hstart : startIndex < input.length) (hincreases : ArclengthIncreases real input)
    (hshort : duration (profilePhases jerkAcc jerkDec type times) ≤ 0) (htarget : v0 = targetVel)
    (hvalid : isValidStopDist v0 a0 targetVel 0 (3 / 10) (1 / 10) = true) :
    ∃ output, calcStopVelocityWithConstantJerkAccLimit real v0 a0 jerkAcc jerkDec minAcc targetVel
        type times startIndex input = .ok (some output) ∧
      FollowsProfile real (profilePhases jerkAcc jerkDec type times) v0 a0 targetVel startIndex
        input output := by
  have hsum := sum_eq_duration hne
  obtain ⟨stateAt, hstateAt⟩ := exists_states v0 a0 hne htimes hsum
  set phases := profilePhases jerkAcc jerkDec type times
  have hrun : run phases ⟨0, v0, a0⟩ = ⟨0, v0, a0⟩ :=
    run_of_times_zero (times_zero_of_duration htimes hshort) _
  have hnoTimes : sampleTimes times.sum = [] := sampleTimes_of_nonpos (hsum.trans_le hshort)
  obtain ⟨hend, -, hv, ha⟩ := hstateAt times.sum (List.mem_append_right _ List.mem_cons_self)
  rw [hsum, during_duration htimes, hrun] at hv ha
  have hsampled := sampleProfile_of_still
    (updateStopVelocityStatus v0 a0 jerkAcc jerkDec type times) stateAt minAcc times.sum
    (fun t ht => absurd ht (by rw [hnoTimes]; exact List.not_mem_nil)) hend
    (fun t ht => absurd ht (by rw [hnoTimes]; exact List.not_mem_nil))
  refine ⟨assign startIndex [] [] targetVel input, ?_, followsProfile_assign_nil.mpr ?_⟩
  · refine bind_eq_ok.mpr ⟨_, hsampled, ?_⟩
    change (if _ then _ else _) = _
    rw [validCheckCalcStopDist, hsum, hv, ha, hvalid]
    rfl
  · intro s hs hle
    obtain ⟨point, points, -, harcs, hincreasing⟩ := calcArclengthArray_drop hstart hincreases
    rw [hrun] at hle
    rw [harcs] at hs
    have hzero : s = 0 := by
      rcases List.mem_cons.mp hs with hzero | hlater
      · exact hzero
      · exact absurd ((List.pairwise_cons.mp hincreasing).1 s hlater) (not_lt.mpr hle)
    refine Or.inr ⟨⟨0, v0, a0⟩, ?_, hzero, htarget.symm⟩
    rw [sampledMotions, sampleTimes_of_nonpos hshort, List.nil_append, List.map_singleton,
      during_duration htimes, hrun]

theorem follows_of_times (minAcc : K) {phases : List (K × K)} {stateAt : K → State K} {ts : List K} {back : K}
    (htimes : ∀ phase ∈ phases, 0 ≤ phase.2) (hstart : startIndex < input.length)
    (hincreases : ArclengthIncreases real input)
    (hmoves : ((sampledMotions phases v0 a0).map (·.position)).Pairwise (· < ·))
    (hpart : ts <+: sampleTimes (duration phases) ++ [duration phases]) (htwo : 2 ≤ ts.length)
    (hstates : ∀ t ∈ ts, IsState (during phases t ⟨0, v0, a0⟩) (stateAt t))
    (hback : ts.getLast? = some back)
    (hbehind : ∀ s ∈ calcArclengthArray real (input.drop startIndex),
      (during phases back ⟨0, v0, a0⟩).position < s → s ≤ (run phases ⟨0, v0, a0⟩).position →
        ProfileVelocity (sampledMotions phases v0 a0) s targetVel) :
    ∃ point points output, input.drop startIndex = point :: points ∧
      interpolateSamples (ts.map fun t => limitAcc minAcc (stateAt t))
        (0 :: distsLoop real (stateAt back).x 0 point points) targetVel startIndex input =
          .ok (some output) ∧
      FollowsProfile real phases v0 a0 targetVel startIndex input output := by
  have hxs : (ts.map fun t => limitAcc minAcc (stateAt t)).map (·.x) =
      ts.map fun t => (during phases t ⟨0, v0, a0⟩).position := by
    rw [List.map_map]
    exact List.map_congr_left fun t ht => (hstates t ht).1
  have hvs : (ts.map fun t => limitAcc minAcc (stateAt t)).map (·.v) =
      ts.map fun t => (during phases t ⟨0, v0, a0⟩).velocity := by
    rw [List.map_map]
    exact List.map_congr_left fun t ht => (hstates t ht).2.1
  have hxsPrefix : (ts.map fun t => limitAcc minAcc (stateAt t)).map (·.x) <+:
      (sampledMotions phases v0 a0).map (·.position) := by
    rw [hxs, sampledMotions, List.map_map]
    exact hpart.map _
  have hvsPrefix : (ts.map fun t => limitAcc minAcc (stateAt t)).map (·.v) <+:
      (sampledMotions phases v0 a0).map (·.velocity) := by
    rw [hvs, sampledMotions, List.map_map]
    exact hpart.map _
  have hbackX := (hstates back (List.mem_of_getLast? hback)).1
  have hlasts : 0 < duration phases := by
    by_contra hshort
    have hle := hpart.length_le
    rw [sampleTimes_of_nonpos (not_lt.mp hshort), List.nil_append, List.length_singleton] at hle
    omega
  have hfront : ((ts.map fun t => limitAcc minAcc (stateAt t)).map (·.x)).head? = some 0 := by
    obtain ⟨later, hlater⟩ := sampleTimes_of_pos hlasts
    obtain ⟨first, rest, hts⟩ := List.exists_cons_of_length_pos (Nat.lt_of_succ_lt htwo)
    rw [hts, hlater, List.cons_append, List.cons_prefix_cons] at hpart
    rw [hxs, hts, hpart.1, List.map_cons, List.head?_cons, during_zero htimes]
  have hlast : ((ts.map fun t => limitAcc minAcc (stateAt t)).map (·.x)).getLast? =
      some (stateAt back).x := by
    rw [hxs, List.getLast?_map, hback, hbackX]
    rfl
  have hbackLe : (stateAt back).x ≤ (run phases ⟨0, v0, a0⟩).position := by
    refine le_back hmoves ?_ (hxsPrefix.subset (List.mem_of_getLast? hlast))
    rw [sampledMotions, List.map_append, List.map_append, List.map_singleton, List.map_singleton,
      List.getLast?_concat, during_duration htimes]
  obtain ⟨point, points, hdrop, harcs, harcsIncreasing⟩ := calcArclengthArray_drop hstart hincreases
  have hlength : input.length = startIndex + ((arclengthLoop real 0 point points).length + 1) := by
    have hdropped := congrArg List.length hdrop
    rw [List.length_drop, List.length_cons] at hdropped
    rw [length_arclengthLoop]
    omega
  obtain ⟨velAtWp, accAtWp, hlengths, hvelocities, houtput⟩ := interpolateSamples_eq
    targetVel (by rwa [List.length_map]) (hmoves.sublist hxsPrefix.sublist) hfront
    hlast harcsIncreasing hlength
  rw [← harcs] at hvelocities
  refine ⟨point, points, _, hdrop, ?_, followsProfile_of_prefix hxsPrefix hvsPrefix hbackLe ?_
    hvelocities hlengths ?_⟩
  · have hnonneg : 0 ≤ (stateAt back).x := front_le (hmoves.sublist hxsPrefix.sublist)
      (by rw [← List.head?_eq_getElem?, hfront]) (List.mem_of_getLast? hlast)
    rw [distsLoop_eq, ← houtput, List.takeWhile_cons_of_pos (by simpa using hnonneg)]
  · rwa [harcs]
  · rw [hbackX]
    exact hbehind

omit [IsStrictOrderedRing K] in
/-- Valid samples are interpolated from the point at the start index on. -/
theorem calcStopVelocityWithConstantJerkAccLimit_eq (last : State K) {final : State K}
    {samples : List (State K)} {point : PlannedPoint K} {points : List (PlannedPoint K)}
    (hsampled : sampleProfile (updateStopVelocityStatus v0 a0 jerkAcc jerkDec type times) minAcc
      times.sum = .ok (final, samples))
    (hvalid : isValidStopDist final.v final.a targetVel 0 (3 / 10) (1 / 10) = true)
    (hlast : samples.getLast? = some last) (hdrop : input.drop startIndex = point :: points) :
    calcStopVelocityWithConstantJerkAccLimit real v0 a0 jerkAcc jerkDec minAcc targetVel type times
      startIndex input = interpolateSamples samples (0 :: distsLoop real last.x 0 point points)
        targetVel startIndex input := by
  unfold calcStopVelocityWithConstantJerkAccLimit
  rw [hsampled]
  change (if _ then _ else _) = _
  rw [validCheckCalcStopDist, hvalid, hlast, hdrop]
  rfl

theorem calcStopVelocityWithConstantJerkAccLimit_follows
    (hne : profilePhases jerkAcc jerkDec type times ≠ [])
    (htimes : ∀ phase ∈ profilePhases jerkAcc jerkDec type times, 0 ≤ phase.2)
    (hstart : startIndex < input.length) (hincreases : ArclengthIncreases real input)
    (hplannable : Plannable real (profilePhases jerkAcc jerkDec type times) v0 a0 minAcc targetVel
      startIndex input) :
    ∃ output, calcStopVelocityWithConstantJerkAccLimit real v0 a0 jerkAcc jerkDec minAcc targetVel
        type times startIndex input = .ok (some output) ∧
      FollowsProfile real (profilePhases jerkAcc jerkDec type times) v0 a0 targetVel startIndex
        input output := by
  obtain ⟨hshort, htarget, hvalid⟩ | ⟨hmoves, hend⟩ := hplannable
  · exact follows_of_still htimes hne hstart hincreases hshort htarget hvalid
  have hsum := sum_eq_duration hne
  obtain ⟨stateAt, hstateAt⟩ := exists_states v0 a0 hne htimes hsum
  set phases := profilePhases jerkAcc jerkDec type times
  rw [hsum] at hstateAt
  have hbefore : (sampledMotions phases v0 a0).dropLast =
      (sampleTimes (duration phases)).map fun t => during phases t ⟨0, v0, a0⟩ := by
    rw [sampledMotions, List.map_append, List.map_singleton, List.dropLast_concat]
  have hlengthS : (sampledMotions phases v0 a0).length =
      (sampleTimes (duration phases)).length + 1 := by
    rw [sampledMotions, List.length_map, List.length_append, List.length_singleton]
  have hforward : ∀ t ∈ sampleTimes (duration phases), 0 < (stateAt t).v := by
    intro t ht
    rw [(hstateAt t (List.mem_append_left _ ht)).2.2.1]
    exact hmoves.velocity _ (hbefore ▸ List.mem_map_of_mem ht)
  obtain ⟨hupdateEnd, hxEnd, hvEnd, haEnd⟩ :=
    hstateAt _ (List.mem_append_right _ (List.mem_singleton_self (duration phases)))
  rw [during_duration htimes] at hxEnd hvEnd haEnd
  have htwo := hmoves.two
  obtain ⟨last, hlast⟩ : ∃ last, (sampleTimes (duration phases)).getLast? = some last :=
    ⟨_, List.getLast?_eq_some_getLast (List.ne_nil_of_length_pos (by omega))⟩
  have hlastX := (hstateAt last (List.mem_append_left _ (List.mem_of_getLast? hlast))).2.1
  have hpositions := hmoves.position
  have hlastLt : (stateAt last).x < (stateAt (duration phases)).x := by
    rw [sampledMotions, List.map_append, List.map_append, List.pairwise_append] at hpositions
    rw [hlastX, hxEnd, ← during_duration htimes]
    exact hpositions.2.2 _ (List.mem_map_of_mem (List.mem_map_of_mem (List.mem_of_getLast? hlast)))
      _ (List.mem_singleton_self _)
  have hsampled := sampleProfile_of_forward
    (updateStopVelocityStatus v0 a0 jerkAcc jerkDec type times) stateAt minAcc (duration phases)
    (fun t ht => (hstateAt t (List.mem_append_left _ ht)).1) hupdateEnd hforward hlast
  obtain ⟨hmoving, hvalid⟩ | ⟨hrest, hthree, hvalid, hbehind⟩ := hend
  · -- the end is the last sample
    rw [if_pos ⟨hvEnd ▸ hmoving, hlastLt⟩] at hsampled
    obtain ⟨point, points, output, hdrop, houtput, hfollows⟩ := follows_of_times minAcc htimes hstart
      hincreases hpositions List.prefix_rfl (by rw [List.length_append, List.length_singleton]; omega)
      (fun t ht => (hstateAt t ht).2) List.getLast?_concat (by
        intro s _ hlt hle
        rw [during_duration htimes] at hlt
        exact absurd hle (not_le.mpr hlt))
    refine ⟨output, ?_, hfollows⟩
    rw [← houtput]
    refine calcStopVelocityWithConstantJerkAccLimit_eq
      (limitAcc minAcc (stateAt (duration phases))) (by rw [hsum]; exact hsampled) ?_ ?_ hdrop
    · rw [limitAcc, hvEnd, haEnd]
      exact hvalid
    · rw [List.map_append, List.map_singleton, List.getLast?_concat]
  · -- the last sample is before the end
    rw [if_neg fun h => absurd (hvEnd ▸ h.1) (not_lt.mpr hrest)] at hsampled
    obtain ⟨point, points, output, hdrop, houtput, hfollows⟩ := follows_of_times minAcc htimes
      hstart hincreases hpositions (List.prefix_append _ _) (by omega)
      (fun t ht => (hstateAt t (List.mem_append_left _ ht)).2) hlast (by
        intro s hs hlt
        refine hbehind s hs fun motion hmotion => lt_of_le_of_lt ?_ hlt
        rw [hbefore] at hmotion
        refine le_back (hpositions.sublist ((List.dropLast_sublist _).map _)) ?_
          (List.mem_map_of_mem (hbefore ▸ hmotion))
        rw [hbefore, List.getLast?_map, List.getLast?_map, hlast]
        rfl)
    refine ⟨output, ?_, hfollows⟩
    rw [← houtput]
    refine calcStopVelocityWithConstantJerkAccLimit_eq (limitAcc minAcc (stateAt last))
      (by rw [hsum]; exact hsampled) ?_ ?_ hdrop
    · rw [hvEnd, haEnd]
      exact hvalid
    · rw [List.getLast?_map, hlast]
      rfl

end

/-- For the profiles that the calculations of the stop distance find, the filter of the node
follows them if and only if all points have the target velocity at once, and the analytical
filter follows those that it can sample. -/
theorem decelFilters_follow (real : RealFunctions K) (sqrt : K → K) :
    (∀ (v0 a0 jerkAcc jerkDec minAcc targetVel stopDist : K) (jerkProfile : List (K × K))
        (startIndex : ℕ) (input : List (PlannedPoint K)),
      calcStopDistWithJerkConstraints sqrt v0 a0 jerkAcc jerkDec minAcc targetVel =
        { succeeded := true, jerkProfile := jerkProfile, stopDist := some stopDist } →
      startIndex < input.length → ArclengthIncreases real input →
      ((∃ output, applyDecelFilterWithJerkConstraint real input startIndex v0 a0 minAcc targetVel
          jerkProfile = .ok (some output) ∧
        FollowsProfile real jerkProfile v0 a0 targetVel startIndex input output) ↔
        AlreadyAtTarget real jerkProfile v0 a0 targetVel startIndex input)) ∧
    ∀ (v0 a0 jerkAcc jerkDec minAcc targetVel stopDist : K) (type : ℕ) (times : List K)
        (startIndex : ℕ) (input : List (PlannedPoint K)),
      calcStopDistWithJerkAndAccConstraints sqrt v0 a0 jerkAcc jerkDec minAcc targetVel =
        some (type, times, stopDist) →
      startIndex < input.length → ArclengthIncreases real input →
      Plannable real (profilePhases jerkAcc jerkDec type times) v0 a0 minAcc targetVel startIndex
        input →
      ∃ output, calcStopVelocityWithConstantJerkAccLimit real v0 a0 jerkAcc jerkDec minAcc
          targetVel type times startIndex input = .ok (some output) ∧
        FollowsProfile real (profilePhases jerkAcc jerkDec type times) v0 a0 targetVel startIndex
          input output := by
  constructor
  · intro v0 a0 jerkAcc jerkDec minAcc targetVel stopDist jerkProfile startIndex input hfound
      hstart _
    obtain ⟨hne, htimes, hvalid, -⟩ := jerkProfile_of_found hfound
    exact applyDecelFilterWithJerkConstraint_follows_iff hne htimes hvalid hstart
  · intro v0 a0 jerkAcc jerkDec minAcc targetVel stopDist type times startIndex input hfound
      hstart hincreases
    obtain ⟨hne, htimes⟩ := profilePhases_of_found hfound
    exact calcStopVelocityWithConstantJerkAccLimit_follows hne htimes hstart hincreases

open JerkFilteredSmoother (distanceFunctions)

def straightPoints : List (PlannedPoint ℚ) :=
  (List.range 8).map fun i : ℕ => ⟨⟨⟨4 / 3 * i, 0, 0⟩, 10, 0⟩, 0⟩

theorem arclengthIncreases_straightPoints :
    ArclengthIncreases distanceFunctions straightPoints := by
  unfold ArclengthIncreases
  decide +kernel

theorem release_found : calcStopDistWithJerkConstraints id (6 : ℚ) (-1) 1 (-1) (-2) (11 / 2) =
        { succeeded := true, jerkProfile := [(1, 1)], stopDist := some (17 / 3) } ∧
      calcStopDistWithJerkAndAccConstraints id (6 : ℚ) (-1) 1 (-1) (-2) (11 / 2) =
        some (3, [1], 17 / 3) := by
  decide +kernel

theorem release_plannable : Plannable distanceFunctions [((1 : ℚ), 1)] 6 (-1) (-2) (11 / 2) 1
    straightPoints :=
  Or.inr ⟨⟨by decide +kernel, by decide +kernel, by decide +kernel⟩,
    Or.inl ⟨by decide +kernel, by decide +kernel⟩⟩

theorem decelFilters_follow_release :
    ((∃ output, applyDecelFilterWithJerkConstraint distanceFunctions straightPoints 1 6 (-1) (-2)
        (11 / 2) [(1, 1)] = .ok (some output) ∧
      FollowsProfile distanceFunctions [(1, 1)] 6 (-1) (11 / 2) 1 straightPoints output) ↔
      AlreadyAtTarget distanceFunctions [(1, 1)] 6 (-1) (11 / 2) 1 straightPoints) ∧
    ∃ output, calcStopVelocityWithConstantJerkAccLimit distanceFunctions 6 (-1) 1 (-1) (-2)
        (11 / 2) 3 [1] 1 straightPoints = .ok (some output) ∧
      FollowsProfile distanceFunctions (profilePhases 1 (-1) 3 [1]) 6 (-1) (11 / 2) 1
        straightPoints output :=
  ⟨(decelFilters_follow distanceFunctions id).1 6 (-1) 1 (-1) (-2) (11 / 2) (17 / 3) [(1, 1)] 1
      straightPoints release_found.1 (by decide) arclengthIncreases_straightPoints,
    (decelFilters_follow distanceFunctions id).2 6 (-1) 1 (-1) (-2) (11 / 2) (17 / 3) 3 [1] 1
      straightPoints release_found.2 (by decide) arclengthIncreases_straightPoints
      release_plannable⟩

/-- The filter of the node gives up, although the profile ends inside the trajectory. -/
theorem release_not_applied : calcStopDistWithJerkConstraints id (6 : ℚ) (-1) 1 (-1) (-2) (11 / 2) =
        { succeeded := true, jerkProfile := [(1, 1)], stopDist := some (17 / 3) } ∧
      (calcArclengthArray distanceFunctions straightPoints).getLast? = some (28 / 3) ∧
      applyDecelFilterWithJerkConstraint distanceFunctions straightPoints 0 6 (-1) (-2) (11 / 2)
        [(1, 1)] = .ok none := by
  decide +kernel

end AutowareUniverse.Planning.MotionVelocitySmoother
