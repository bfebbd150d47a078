import AutowareUniverse.Common.MotionUtils
import AutowareUniverse.Library.Runs

/-!
# The longitudinal controller

The controller computes an acceleration for a trajectory: by velocity feedback while it
drives, by a smooth stop, or by the constants of its stopped and emergency states.  It keeps
two previous commands, with and without the compensation of the slope.  Times are in
seconds, and a call reads the clock once.  The functions on poses are parameters.
-/

namespace AutowareUniverse.Control.PidLongitudinalController

section

open Common.MotionUtils (Failure clamp)

open Library.Runs

structure Motion (K : Type) where
  vel : K
  acc : K
  deriving DecidableEq

structure TrajectoryPoint (K P : Type) where
  pose : P
  longitudinalVelocityMps : K
  accelerationMps2 : K
  deriving DecidableEq

/-- The functions on poses and trajectories, and the sine. -/
structure Geometry (K P : Type) where
  findFirstNearestIndexWithSoftConstraints : List (TrajectoryPoint K P) → P → K → K → ℕ
  calcDistance2d : P → P → K
  /-- The difference of the yaw angles, normalized. -/
  yawDeviation : P → P → K
  calcStopDistance : P → List (TrajectoryPoint K P) → K → K → K
  getPitchByPose : P → K
  getPitchByTraj : List (TrajectoryPoint K P) → ℕ → K → K
  calcPoseAfterTimeDelay : P → K → K → P
  lerpTrajectoryPoint : List (TrajectoryPoint K P) → P → K → K → TrajectoryPoint K P
  sin : K → K

variable {K P : Type} [Field K] [LinearOrder K]

/-- The distance from 1 to the next number. -/
def epsilon : K := 1 / 4503599627370496

namespace LongitudinalUtils

def applyDiffLimitFilter (inputVal prevVal dt maxVal minVal : K) : K :=
  let diffRaw := (inputVal - prevVal) / dt
  let diff := min (max diffRaw minVal) maxVal
  prevVal + diff * dt

/-- `applyDiffLimitFilter` with one limit for both directions. -/
def applyDiffLimitFilterAbs (inputVal prevVal dt limVal : K) : K :=
  applyDiffLimitFilter inputVal prevVal dt |limVal| (-|limVal|)

end LongitudinalUtils

open LongitudinalUtils

structure LowpassFilter1d (K : Type) where
  x : K
  deriving DecidableEq

namespace LowpassFilter1d

def filter (gain : K) (self : LowpassFilter1d K) (u : K) : K × LowpassFilter1d K :=
  let ret := gain * self.x + (1 - gain) * u
  (ret, ⟨ret⟩)

end LowpassFilter1d

structure PIDParams (K : Type) where
  kp : K
  ki : K
  kd : K
  maxRetP : K
  minRetP : K
  maxRetI : K
  minRetI : K
  maxRetD : K
  minRetD : K
  maxRet : K
  minRet : K

structure PIDController (K : Type) where
  errorIntegral : K
  prevError : K
  isFirstTime : Bool
  deriving DecidableEq

namespace PIDController

def reset : PIDController K := ⟨0, 0, true⟩

def calculate (p : PIDParams K) (self : PIDController K) (error dt : K)
    (enableIntegration : Bool) : K × PIDController K :=
  let retP := min (max (p.kp * error) p.minRetP) p.maxRetP
  let errorIntegral :=
    if enableIntegration then
      min (max (self.errorIntegral + error * dt) (p.minRetI / p.ki)) (p.maxRetI / p.ki)
    else self.errorIntegral
  let retI := p.ki * errorIntegral
  let errorDifferential := if self.isFirstTime then 0 else (error - self.prevError) / dt
  let retD := min (max (p.kd * errorDifferential) p.minRetD) p.maxRetD
  (min (max (retP + retI + retD) p.minRet) p.maxRet, ⟨errorIntegral, error, false⟩)

end PIDController

structure SmoothStopParams (K : Type) where
  maxStrongAcc : K
  minStrongAcc : K
  weakAcc : K
  weakStopAcc : K
  strongStopAcc : K
  minFastVel : K
  minRunningVel : K
  minRunningAcc : K
  weakStopTime : K
  weakStopDist : K
  strongStopDist : K

structure SmoothStop (K : Type) where
  strongAcc : K
  weakAccTime : K
  deriving DecidableEq

namespace SmoothStop

variable (params : SmoothStopParams K)

def init (now predVelInTarget predStopDist : K) : SmoothStop K :=
  if predStopDist < epsilon then ⟨params.minStrongAcc, now⟩
  else
    let strongAcc := -(predVelInTarget * predVelInTarget) / (2 * predStopDist)
    ⟨max (min strongAcc params.maxStrongAcc) params.minStrongAcc, now⟩

def calcTimeToStop (now : K) (velHist : List (K × K)) : Option K :=
  if velHist.isEmpty then none
  else
    let velHistSize : K := velHist.length
    let times := velHist.map fun vel => vel.1 - now
    let velocities := velHist.map Prod.snd
    let meanT := (times.map (· / velHistSize)).sum
    let meanV := (velocities.map (· / velHistSize)).sum
    let sumTv := (times.zipWith (· * ·) velocities).sum
    let sumTt := (times.map fun t => t * t).sum
    if |velHistSize * meanT * meanT - sumTt| < epsilon then none
    else
      let a := (velHistSize * meanT * meanV - sumTv) / (velHistSize * meanT * meanT - sumTt)
      let b := meanV - a * meanT
      if |a| < epsilon then none
      else
        let timeToStop := -b / a
        if 0 < timeToStop then some timeToStop else none

def calculate (self : SmoothStop K) (now stopDist currentVel currentAcc : K)
    (velHist : List (K × K)) (delayTime : K) : K × SmoothStop K :=
  let timeToStop := calcTimeToStop now velHist
  let isFastVel := params.minFastVel < |currentVel|
  let isRunning := params.minRunningVel < |currentVel| ∨ params.minRunningAcc < |currentAcc|
  if stopDist < params.strongStopDist then (params.strongStopAcc, self)
  else if stopDist < params.weakStopDist then (params.weakStopAcc, self)
  else if isRunning then
    match timeToStop with
    | some time =>
      if params.weakStopTime + delayTime < time then (self.strongAcc, self)
      else (params.weakAcc, { self with weakAccTime := now })
    | none =>
      if isFastVel then (self.strongAcc, self)
      else (params.weakAcc, { self with weakAccTime := now })
  else if now - self.weakAccTime < 1 / 2 then (params.weakAcc, self)
  else (params.strongStopAcc, self)

end SmoothStop

/-! ## The controller -/

inductive Shift where
  | forward
  | reverse
  deriving DecidableEq

inductive ControlState where
  | drive
  | stopping
  | stopped
  | emergency
  deriving DecidableEq

structure StateTransitionParams (K : Type) where
  driveStateStopDist : K
  driveStateOffsetStopDist : K
  stoppingStateStopDist : K
  stoppedStateEntryDurationTime : K
  stoppedStateEntryVel : K
  stoppedStateEntryAcc : K
  emergencyStateOvershootStopDist : K
  emergencyStateTrajTransDev : K
  emergencyStateTrajRotDev : K

/-- `StoppedStateParams` and `EmergencyStateParams`. -/
structure ConstantStateParams (K : Type) where
  vel : K
  acc : K
  jerk : K

structure Params (K : Type) where
  longitudinalCtrlPeriod : K
  wheelBase : K
  delayCompensationTime : K
  enableSmoothStop : Bool
  enableOvershootEmergency : Bool
  enableSlopeCompensation : Bool
  enableLargeTrackingErrorEmergency : Bool
  enableKeepStoppedUntilSteerConvergence : Bool
  stateTransition : StateTransitionParams K
  pidVel : PIDParams K
  lpfVelErrorGain : K
  currentVelThresholdPidIntegrate : K
  enableBrakeKeepingBeforeStop : Bool
  brakeKeepingAcc : K
  smoothStop : SmoothStopParams K
  stoppedState : ConstantStateParams K
  emergencyState : ConstantStateParams K
  maxAcc : K
  minAcc : K
  maxJerk : K
  minJerk : K
  useTrajForPitch : Bool
  lpfPitchGain : K
  maxPitchRad : K
  minPitchRad : K
  egoNearestDistThreshold : K
  egoNearestYawThreshold : K

/-- What a call receives: the messages, the state of the steering and the two clocks. -/
structure InputData (K P : Type) where
  currentTrajectory : List (TrajectoryPoint K P)
  currentPose : P
  currentMotion : Motion K
  isAutonomous : Bool
  isSteerConverged : Bool
  now : K
  /-- The clock of the smooth stop, which is not the one of the node. -/
  smoothStopNow : K

structure ControlData (K : Type) where
  isFarFromTrajectory : Bool
  nearestIdx : ℕ
  currentMotion : Motion K
  shift : Shift
  stopDist : K
  slopeAngle : K
  dt : K

structure Controller (K P : Type) where
  trajectory : List (TrajectoryPoint K P)
  controlState : ControlState
  pidVel : PIDController K
  lpfVelError : LowpassFilter1d K
  smoothStop : SmoothStop K
  lpfPitch : LowpassFilter1d K
  /-- The stamps and accelerations of the commands while driving. -/
  ctrlCmdVec : List (K × K)
  prevControlTime : Option K
  prevShift : Shift
  /-- With slope compensation. -/
  prevCtrlCmd : Motion K
  /-- Without slope compensation. -/
  prevRawCtrlCmd : Motion K
  velHist : List (K × K)
  lastRunningTime : K

/-- The command, and what is published about it. -/
structure Output (K : Type) where
  speed : K
  acceleration : K
  dt : K
  controlState : ControlState
  deriving DecidableEq

def construct (now : K) : Controller K P where
  trajectory := []
  controlState := .stopped
  pidVel := .reset
  lpfVelError := ⟨0⟩
  smoothStop := ⟨0, 0⟩
  lpfPitch := ⟨0⟩
  ctrlCmdVec := []
  prevControlTime := none
  prevShift := .forward
  prevCtrlCmd := ⟨0, 0⟩
  prevRawCtrlCmd := ⟨0, 0⟩
  velHist := []
  lastRunningTime := now

variable (geometry : Geometry K P) (param : Params K) (input : InputData K P)
  (self : Controller K P)

/-- A trajectory of fewer than two points is ignored. -/
def setTrajectory : Controller K P :=
  if input.currentTrajectory.length < 2 then self
  else { self with trajectory := input.currentTrajectory }

def getDt : K × Controller K P :=
  let dt :=
    match self.prevControlTime with
    | none => param.longitudinalCtrlPeriod
    | some prevControlTime => input.now - prevControlTime
  let maxDt := param.longitudinalCtrlPeriod * 2
  let minDt := param.longitudinalCtrlPeriod * (1 / 2)
  (max (min dt maxDt) minDt, { self with prevControlTime := some input.now })

/-- `m_trajectory.points.at(idx)`. -/
def pointAt (idx : ℕ) : Except Failure (TrajectoryPoint K P) :=
  match self.trajectory[idx]? with
  | some point => return point
  | none => throw .outOfRange

def getCurrentShift (point : TrajectoryPoint K P) : Shift :=
  let targetVel := point.longitudinalVelocityMps
  if 1 / 100000 < targetVel then .forward
  else if targetVel < -(1 / 100000) then .reverse
  else self.prevShift

def slopeAngle (nearestIdx : ℕ) : K × LowpassFilter1d K :=
  if param.useTrajForPitch then
    (geometry.getPitchByTraj self.trajectory nearestIdx param.wheelBase, self.lpfPitch)
  else
    self.lpfPitch.filter param.lpfPitchGain (geometry.getPitchByPose input.currentPose)

def getControlData : Except Failure (ControlData K × Controller K P) := do
  let (dt, self) := getDt param input self
  if self.trajectory.isEmpty then throw .invalidArgument
  let nearestIdx := geometry.findFirstNearestIndexWithSoftConstraints self.trajectory
    input.currentPose param.egoNearestDistThreshold param.egoNearestYawThreshold
  let nearestPoint ← pointAt self nearestIdx
  let transDeviation := geometry.calcDistance2d nearestPoint.pose input.currentPose
  let rotDeviation := |geometry.yawDeviation nearestPoint.pose input.currentPose|
  if param.stateTransition.emergencyStateTrajTransDev < transDeviation ∨
      param.stateTransition.emergencyStateTrajRotDev < rotDeviation then
    return (⟨true, 0, input.currentMotion, .forward, 0, 0, dt⟩, self)
  let shift := getCurrentShift self nearestPoint
  let self :=
    { self with
      pidVel := if shift = self.prevShift then self.pidVel else .reset
      prevShift := shift }
  let stopDist := geometry.calcStopDistance input.currentPose self.trajectory
    param.egoNearestDistThreshold param.egoNearestYawThreshold
  let (slope, lpfPitch) := slopeAngle geometry param input self nearestIdx
  return (⟨false, nearestIdx, input.currentMotion, shift, stopDist, slope, dt⟩,
    { self with lpfPitch := lpfPitch })

def calcEmergencyCtrlCmd (dt : K) : Motion K :=
  let p := param.emergencyState
  ⟨applyDiffLimitFilterAbs p.vel self.prevRawCtrlCmd.vel dt p.acc,
    applyDiffLimitFilterAbs p.acc self.prevRawCtrlCmd.acc dt p.jerk⟩

def withSignOf (currentVel predVel : K) : K :=
  if 0 < predVel then if currentVel < 0 then -predVel else predVel else 0

/-- The loop over the commands after the first one. -/
def predictLoop (now delayTime : K) : K × K → List (K × K) → K → K
  | (lastStamp, lastAcc), [], predVel => predVel + lastAcc * (now - lastStamp)
  | (prevStamp, prevAcc), (stamp, acc) :: cmds, predVel =>
    let predVel :=
      if now - stamp < delayTime then
        predVel + prevAcc * min (stamp - prevStamp) (stamp - (now - delayTime))
      else predVel
    predictLoop now delayTime (stamp, acc) cmds predVel

def predictedVelocityInTargetPoint (currentMotion : Motion K) : K :=
  let currentVel := currentMotion.vel
  let delayTime := param.delayCompensationTime
  if |currentVel| < 1 / 10 then currentVel
  else
    match self.ctrlCmdVec with
    | [] => withSignOf currentVel (currentVel + currentMotion.acc * delayTime)
    | (stamp, acc) :: cmds =>
      if input.now - stamp < delayTime then withSignOf currentVel (|currentVel| + acc * delayTime)
      else withSignOf currentVel (predictLoop input.now delayTime (stamp, acc) cmds |currentVel|)

/-- The transition to DRIVE, which raises a braking command to zero. -/
def changeToDrive : Controller K P :=
  { self with
    pidVel := .reset
    lpfVelError := ⟨0⟩
    prevCtrlCmd := { self.prevCtrlCmd with acc := max 0 self.prevCtrlCmd.acc }
    controlState := .drive }

def updateControlState (controlData : ControlData K) : Except Failure (Controller K P) := do
  let currentVel := controlData.currentMotion.vel
  let stopDist := controlData.stopDist
  let p := param.stateTransition
  let departureConditionFromStopping :=
    p.driveStateStopDist + p.driveStateOffsetStopDist < stopDist
  let departureConditionFromStopped := p.driveStateStopDist < stopDist
  let keepStoppedCondition :=
    param.enableKeepStoppedUntilSteerConvergence && !input.isSteerConverged
  let stoppingCondition := stopDist < p.stoppingStateStopDist
  let lastRunningTime :=
    if p.stoppedStateEntryVel < |currentVel| ∨
        p.stoppedStateEntryAcc < |controlData.currentMotion.acc| then input.now
    else self.lastRunningTime
  let self := { self with lastRunningTime := lastRunningTime }
  let stoppedCondition := p.stoppedStateEntryDurationTime < input.now - lastRunningTime
  let nearestPoint ← pointAt self controlData.nearestIdx
  let emergencyCondition := param.enableOvershootEmergency = true ∧
    stopDist < -p.emergencyStateOvershootStopDist ∧
      |nearestPoint.longitudinalVelocityMps| < 1 / 1000
  match self.controlState with
  | .drive =>
    if emergencyCondition then return { self with controlState := .emergency }
    else if param.enableSmoothStop then
      if stoppingCondition then
        let predVelInTarget :=
          predictedVelocityInTargetPoint param input self controlData.currentMotion
        let predStopDist :=
          stopDist - 1 / 2 * (predVelInTarget + currentVel) * param.delayCompensationTime
        return { self with
          smoothStop := .init param.smoothStop input.smoothStopNow predVelInTarget predStopDist
          controlState := .stopping }
      else return self
    else if stoppedCondition ∧ ¬ departureConditionFromStopped then
      return { self with controlState := .stopped }
    else return self
  | .stopping =>
    if emergencyCondition then return { self with controlState := .emergency }
    else if stoppedCondition then return { self with controlState := .stopped }
    else if departureConditionFromStopping then return changeToDrive self
    else return self
  | .stopped =>
    if keepStoppedCondition then return self
    else if departureConditionFromStopped then return changeToDrive self
    else return self
  | .emergency =>
    if stoppedCondition ∧ ¬ emergencyCondition then
      return { self with controlState := .stopped }
    else return self

def calcInterpolatedTargetValue (pose : P) : TrajectoryPoint K P :=
  match self.trajectory with
  | [point] => point
  | points => geometry.lerpTrajectoryPoint points pose param.egoNearestDistThreshold
      param.egoNearestYawThreshold

/-- The least acceleration on the way back from an index, while the accelerations fall. -/
def minAccBeforeStop (trajectory : List (TrajectoryPoint K P)) : ℕ → K → ℕ → K × ℕ
  | 0, minAcc, minAccIdx => (minAcc, minAccIdx)
  | i + 1, minAcc, minAccIdx =>
    match trajectory[i]? with
    | none => (minAcc, minAccIdx)
    | some point =>
      if minAcc < point.accelerationMps2 then (minAcc, minAccIdx)
      else minAccBeforeStop trajectory i point.accelerationMps2 i

def keepBrakeBeforeStop (targetMotion : Motion K) (nearestIdx : ℕ) : Motion K :=
  if param.enableBrakeKeepingBeforeStop then
    let isZero (point : TrajectoryPoint K P) : Bool := |point.longitudinalVelocityMps| < 1 / 1000
    match self.trajectory.findIdx? isZero with
    | none => targetMotion
    | some stopIdx =>
      match self.trajectory[stopIdx]? with
      | none => targetMotion
      | some stopPoint =>
        let (minAcc, minAccIdx) :=
          minAccBeforeStop self.trajectory stopIdx stopPoint.accelerationMps2 stopIdx
        let brakeKeepingAcc := max param.brakeKeepingAcc minAcc
        if minAccIdx ≤ nearestIdx ∧ brakeKeepingAcc < targetMotion.acc then
          { targetMotion with acc := brakeKeepingAcc }
        else targetMotion
  else targetMotion

def applyVelocityFeedback (targetMotion : Motion K) (dt currentVel : K) : K × Controller K P :=
  let currentVelAbs := |currentVel|
  let targetVelAbs := |targetMotion.vel|
  let enableIntegration :=
    decide (param.currentVelThresholdPidIntegrate < currentVelAbs) && input.isAutonomous
  let (errorVelFiltered, lpfVelError) :=
    self.lpfVelError.filter param.lpfVelErrorGain (targetVelAbs - currentVelAbs)
  let (pidAcc, pidVel) := self.pidVel.calculate param.pidVel errorVelFiltered dt enableIntegration
  let ffScale := clamp (currentVelAbs / max targetVelAbs (1 / 10)) (1 / 2) 2
  (targetMotion.acc * ffScale + pidAcc,
    { self with lpfVelError := lpfVelError, pidVel := pidVel })

/-- The command for the control state, without slope compensation. -/
def calcRawCtrlCmd (controlData : ControlData K) : Motion K × Controller K P :=
  let currentVel := controlData.currentMotion.vel
  match self.controlState with
  | .drive =>
    let targetPose :=
      geometry.calcPoseAfterTimeDelay input.currentPose param.delayCompensationTime currentVel
    let targetPoint := calcInterpolatedTargetValue geometry param self targetPose
    let targetMotion := keepBrakeBeforeStop param self
      ⟨targetPoint.longitudinalVelocityMps, targetPoint.accelerationMps2⟩ controlData.nearestIdx
    let predVelInTarget :=
      predictedVelocityInTargetPoint param input self controlData.currentMotion
    let (acc, self) :=
      applyVelocityFeedback param input self targetMotion controlData.dt predVelInTarget
    (⟨targetMotion.vel, acc⟩, self)
  | .stopping =>
    let (acc, smoothStop) := self.smoothStop.calculate param.smoothStop input.smoothStopNow
      controlData.stopDist currentVel controlData.currentMotion.acc self.velHist
      param.delayCompensationTime
    (⟨param.stoppedState.vel, acc⟩, { self with smoothStop := smoothStop })
  | .stopped =>
    let p := param.stoppedState
    (⟨p.vel, applyDiffLimitFilterAbs p.acc self.prevRawCtrlCmd.acc controlData.dt p.jerk⟩, self)
  | .emergency => (calcEmergencyCtrlCmd param self controlData.dt, self)

def storeAccelCmd (accel : K) : Controller K P :=
  let ctrlCmdVec :=
    if self.controlState = .drive then self.ctrlCmdVec ++ [(input.now, accel)] else []
  match ctrlCmdVec with
  | _ :: second :: third :: cmds =>
    if param.delayCompensationTime < input.now - second.1 then
      { self with ctrlCmdVec := second :: third :: cmds }
    else { self with ctrlCmdVec := ctrlCmdVec }
  | _ => { self with ctrlCmdVec := ctrlCmdVec }

def applySlopeCompensation (inputAcc pitch : K) (shift : Shift) : K :=
  if param.enableSlopeCompensation then
    let pitchLimited := min (max pitch param.minPitchRad) param.maxPitchRad
    let sign : K := match shift with
      | .forward => -1
      | .reverse => 1
    inputAcc + sign * (981 / 100) * geometry.sin pitchLimited
  else inputAcc

def calcFilteredAcc (rawAcc : K) (controlData : ControlData K) : K × Controller K P :=
  let accMaxFiltered := clamp rawAcc param.minAcc param.maxAcc
  let self := storeAccelCmd param input self accMaxFiltered
  let accSlopeFiltered :=
    applySlopeCompensation geometry param accMaxFiltered controlData.slopeAngle controlData.shift
  (applyDiffLimitFilter accSlopeFiltered self.prevCtrlCmd.acc controlData.dt param.maxJerk
    param.minJerk, self)

def calcCtrlCmd (controlData : ControlData K) : Motion K × Controller K P :=
  let (rawCtrlCmd, self) := calcRawCtrlCmd geometry param input self controlData
  let self := { self with prevRawCtrlCmd := rawCtrlCmd }
  let (filteredAccCmd, self) := calcFilteredAcc geometry param input self rawCtrlCmd.acc controlData
  (⟨rawCtrlCmd.vel, filteredAccCmd⟩, self)

def createCtrlCmdMsg [FloorRing K] (ctrlCmd : Motion K) (controlData : ControlData K) :
    Controller K P × List (Output K) :=
  let velHist := self.velHist ++ [(input.now, controlData.currentMotion.vel)]
  let maxSize := ⌊1 / 2 / param.longitudinalCtrlPeriod⌋.toNat
  ({ self with velHist := velHist.drop (velHist.length - maxSize), prevCtrlCmd := ctrlCmd },
    [⟨ctrlCmd.vel, ctrlCmd.acc, controlData.dt, self.controlState⟩])

def run [FloorRing K] : Except Failure (Controller K P × List (Output K)) := do
  let self := setTrajectory input self
  let (controlData, self) ← getControlData geometry param input self
  if controlData.isFarFromTrajectory then
    let self :=
      if param.enableLargeTrackingErrorEmergency then { self with controlState := .emergency }
      else self
    let rawCtrlCmd := calcEmergencyCtrlCmd param self controlData.dt
    let self := { self with prevRawCtrlCmd := rawCtrlCmd }
    return createCtrlCmdMsg param input self rawCtrlCmd controlData
  else
    let self ← updateControlState param input self controlData
    let (ctrlCmd, self) := calcCtrlCmd geometry param input self controlData
    return createCtrlCmdMsg param input self ctrlCmd controlData

def Call [FloorRing K] : Controller K P × List (Output K) → InputData K P × List (Output K) →
    Controller K P × List (Output K) → Prop :=
  Recorded (OfPartial fun self input => run geometry param input self) Prod.snd

end

open Common.MotionUtils (Failure)

open Library.Fallible Library.Runs LongitudinalUtils

variable {K P : Type} [Field K] [LinearOrder K] {geometry : Geometry K P} {param : Params K}
  {input : InputData K P} {self : Controller K P}

section

variable [IsStrictOrderedRing K]

theorem applyDiffLimitFilter_eq {inputVal prevVal dt maxVal minVal : K} (hdt : 0 < dt) :
    applyDiffLimitFilter inputVal prevVal dt maxVal minVal =
      min (max inputVal (prevVal + minVal * dt)) (prevVal + maxVal * dt) := by
  have hinput : prevVal + (inputVal - prevVal) / dt * dt = inputVal := by
    rw [div_mul_cancel₀ _ hdt.ne']
    ring
  rw [applyDiffLimitFilter, min_mul_of_nonneg _ _ hdt.le, max_mul_of_nonneg _ _ hdt.le,
    ← min_add_add_left, ← max_add_add_left, hinput]

theorem applyDiffLimitFilter_within {inputVal prevVal dt maxVal minVal : K} (hdt : 0 < dt)
    (hle : minVal ≤ maxVal) :
    prevVal - |minVal| * dt ≤ applyDiffLimitFilter inputVal prevVal dt maxVal minVal ∧
      applyDiffLimitFilter inputVal prevVal dt maxVal minVal ≤ prevVal + maxVal * dt := by
  have habs : -|minVal| * dt ≤ minVal * dt := mul_le_mul_of_nonneg_right (neg_abs_le _) hdt.le
  have hmul : minVal * dt ≤ maxVal * dt := mul_le_mul_of_nonneg_right hle hdt.le
  rw [applyDiffLimitFilter_eq hdt]
  refine ⟨le_min ((?_ : _ ≤ prevVal + minVal * dt).trans (le_max_right _ _)) ?_, min_le_right _ _⟩
  · linarith
  · linarith

def ApproachesWithin (lower upper acc rawAcc reach : K) : Prop :=
  ((acc ≤ upper ∧ rawAcc - reach ≤ upper) ∨ rawAcc + reach ≤ upper) ∧
    (lower ≤ acc ∨ lower ≤ rawAcc - reach) ∧ lower ≤ rawAcc + reach

theorem applyDiffLimitFilterAbs_within_iff {lower upper acc rawAcc dt jerk : K} (hdt : 0 < dt) :
    (lower ≤ applyDiffLimitFilterAbs acc rawAcc dt jerk ∧
        applyDiffLimitFilterAbs acc rawAcc dt jerk ≤ upper) ↔
      ApproachesWithin lower upper acc rawAcc (|jerk| * dt) := by
  rw [applyDiffLimitFilterAbs, applyDiffLimitFilter_eq hdt, neg_mul, ← sub_eq_add_neg, le_min_iff,
    le_max_iff, min_le_iff, max_le_iff, and_comm, ApproachesWithin]

end

/-! ## Calls -/

structure SameCommands (before after : Controller K P) : Prop where
  prevCtrlCmd : after.prevCtrlCmd = before.prevCtrlCmd
  prevRawCtrlCmd : after.prevRawCtrlCmd = before.prevRawCtrlCmd
  controlState : after.controlState = before.controlState

section
omit [Field K] [LinearOrder K]

theorem SameCommands.trans {first second third : Controller K P}
    (hfirst : SameCommands first second) (hsecond : SameCommands second third) :
    SameCommands first third :=
  ⟨hsecond.prevCtrlCmd.trans hfirst.prevCtrlCmd, hsecond.prevRawCtrlCmd.trans hfirst.prevRawCtrlCmd,
    hsecond.controlState.trans hfirst.controlState⟩

theorem setTrajectory_same : SameCommands self (setTrajectory input self) := by
  rw [setTrajectory]
  split
  · exact ⟨rfl, rfl, rfl⟩
  · exact ⟨rfl, rfl, rfl⟩

end

theorem getControlData_spec {result : ControlData K × Controller K P}
    (hdata : getControlData geometry param input self = .ok result) :
    SameCommands self result.2 ∧ result.1.dt = (getDt param input self).1 := by
  rw [getControlData] at hdata
  dsimp only at hdata
  split at hdata
  · cases hdata
  · obtain ⟨nearestPoint, -, hdata⟩ := bind_eq_ok.mp hdata
    split at hdata
    · cases hdata
      exact ⟨⟨rfl, rfl, rfl⟩, rfl⟩
    · cases hdata
      exact ⟨⟨rfl, rfl, rfl⟩, rfl⟩

/-- The previous command against which a new one is limited. -/
def baseAcc (before after : ControlState) (acc : K) : K :=
  if before ≠ .drive ∧ after = .drive then max 0 acc else acc

theorem updateControlState_spec {controlData : ControlData K} {updated : Controller K P}
    (hupdate : updateControlState param input self controlData = .ok updated) :
    updated.prevRawCtrlCmd = self.prevRawCtrlCmd ∧ updated.prevCtrlCmd.acc =
        baseAcc self.controlState updated.controlState self.prevCtrlCmd.acc := by
  rw [updateControlState] at hupdate
  obtain ⟨nearestPoint, -, hupdate⟩ := bind_eq_ok.mp hupdate
  dsimp only at hupdate
  -- only the transitions to DRIVE change a previous command
  cases hstate : self.controlState
  all_goals
    rw [hstate] at hupdate
    dsimp only at hupdate
    split_ifs at hupdate
    all_goals cases hupdate
    all_goals simp [baseAcc, changeToDrive]

theorem calcRawCtrlCmd_same (controlData : ControlData K) :
    SameCommands self (calcRawCtrlCmd geometry param input self controlData).2 := by
  rw [calcRawCtrlCmd]
  dsimp only
  split
  · exact ⟨rfl, rfl, rfl⟩
  · exact ⟨rfl, rfl, rfl⟩
  · exact ⟨rfl, rfl, rfl⟩
  · exact ⟨rfl, rfl, rfl⟩

theorem storeAccelCmd_same (accel : K) :
    SameCommands self (storeAccelCmd param input self accel) := by
  rw [storeAccelCmd]
  split
  · split
    · exact ⟨rfl, rfl, rfl⟩
    · exact ⟨rfl, rfl, rfl⟩
  · exact ⟨rfl, rfl, rfl⟩

/-- The filtered acceleration is limited against the previous one. -/
theorem calcCtrlCmd_spec (geometry : Geometry K P) (param : Params K) (input : InputData K P)
    (self : Controller K P) (controlData : ControlData K) :
    (calcCtrlCmd geometry param input self controlData).2.controlState = self.controlState ∧
      ∃ acc, (calcCtrlCmd geometry param input self controlData).1.acc =
        applyDiffLimitFilter acc self.prevCtrlCmd.acc controlData.dt param.maxJerk
          param.minJerk := by
  have hraw : SameCommands self (calcRawCtrlCmd geometry param input self controlData).2 :=
    calcRawCtrlCmd_same controlData
  rw [calcCtrlCmd]
  dsimp only [calcFilteredAcc]
  generalize calcRawCtrlCmd geometry param input self controlData = raw at hraw
  generalize hmiddle : { raw.2 with prevRawCtrlCmd := raw.1 } = middle
  have hstored : SameCommands middle
      (storeAccelCmd param input middle (Common.MotionUtils.clamp raw.1.acc param.minAcc
        param.maxAcc)) := storeAccelCmd_same _
  have hstate : middle.controlState = self.controlState := by
    rw [← hmiddle]
    exact hraw.controlState
  have hprev : middle.prevCtrlCmd = self.prevCtrlCmd := by
    rw [← hmiddle]
    exact hraw.prevCtrlCmd
  refine ⟨hstored.controlState.trans hstate, applySlopeCompensation geometry param
    (Common.MotionUtils.clamp raw.1.acc param.minAcc param.maxAcc) controlData.slopeAngle
    controlData.shift, ?_⟩
  rw [hstored.prevCtrlCmd, hprev]

section

variable [FloorRing K]

/-- What a call does to the commands. -/
inductive Outcome (geometry : Geometry K P) (param : Params K) (input : InputData K P)
    (before : Controller K P) : Output K → Prop where
  | far {data : ControlData K} {middle : Controller K P} {output : Output K}
      (hdata : getControlData geometry param input (setTrajectory input before) =
        .ok (data, middle))
      (hfar : data.isFarFromTrajectory = true) (hdt : output.dt = data.dt)
      (hacc : output.acceleration = applyDiffLimitFilterAbs param.emergencyState.acc
        before.prevRawCtrlCmd.acc data.dt param.emergencyState.jerk)
      (hstate : output.controlState = before.controlState ∨ output.controlState = .emergency) :
      Outcome geometry param input before output
  | near {data : ControlData K} {middle : Controller K P} {output : Output K} (acc : K)
      (hdata : getControlData geometry param input (setTrajectory input before) =
        .ok (data, middle))
      (hnear : data.isFarFromTrajectory = false) (hdt : output.dt = data.dt)
      (hacc : output.acceleration = applyDiffLimitFilter acc
        (baseAcc before.controlState output.controlState before.prevCtrlCmd.acc) data.dt
        param.maxJerk param.minJerk) :
      Outcome geometry param input before output

/-- A call returns one command and remembers it. -/
theorem run_outcome {before after : Controller K P} {sent : List (Output K)}
    (hrun : run geometry param input before = .ok (after, sent)) :
    ∃ output, sent = [output] ∧ after.prevCtrlCmd.acc = output.acceleration ∧
      after.controlState = output.controlState ∧
      Outcome geometry param input before output := by
  obtain ⟨⟨data, middle⟩, hdata, hrun⟩ := bind_eq_ok.mp hrun
  have hset : SameCommands before (setTrajectory input before) := setTrajectory_same
  have hsame : SameCommands before middle := hset.trans (getControlData_spec hdata).1
  dsimp only at hrun
  cases hfar : data.isFarFromTrajectory with
  | true =>
    rw [if_pos hfar] at hrun
    cases hrun
    refine ⟨_, rfl, rfl, rfl, .far hdata hfar rfl ?_ ?_⟩
    · dsimp only [calcEmergencyCtrlCmd]
      split
      · rw [hsame.prevRawCtrlCmd]
      · rw [hsame.prevRawCtrlCmd]
    · dsimp only
      split
      · exact Or.inr rfl
      · exact Or.inl hsame.controlState
  | false =>
    rw [if_neg (ne_true_of_eq_false hfar)] at hrun
    obtain ⟨updated, hupdate, hrun⟩ := bind_eq_ok.mp hrun
    have hspec := calcCtrlCmd_spec geometry param input updated data
    obtain ⟨-, hbase⟩ := updateControlState_spec hupdate
    generalize calcCtrlCmd geometry param input updated data = result at hspec hrun
    obtain ⟨hstate, acc, hacc⟩ := hspec
    rw [hbase, hsame.prevCtrlCmd, hsame.controlState, ← hstate] at hacc
    cases hrun
    exact ⟨_, rfl, rfl, rfl, .near acc hdata hfar rfl hacc⟩

end

/-! ## The jerk -/

/-- The acceleration changes within the jerk limits.  A change to DRIVE starts from zero if the
previous acceleration is negative. -/
def JerkLimited (param : Params K) (previous latest : Output K) : Prop :=
  baseAcc previous.controlState latest.controlState previous.acceleration -
        |param.minJerk| * latest.dt ≤ latest.acceleration ∧
    latest.acceleration ≤ baseAcc previous.controlState latest.controlState previous.acceleration +
        param.maxJerk * latest.dt

/-- Far from the trajectory, the emergency acceleration is approached from the previous command
without slope compensation so that the output stays within the jerk limits. -/
def EmergencyWithin (geometry : Geometry K P) (param : Params K)
    (before : Controller K P × List (Output K)) (label : InputData K P × List (Output K))
    (_after : Controller K P × List (Output K)) : Prop :=
  ∀ previous ∈ before.2.getLast?, ∀ data middle,
    getControlData geometry param label.1 (setTrajectory label.1 before.1) = .ok (data, middle) →
      data.isFarFromTrajectory = true →
        ApproachesWithin (previous.acceleration - |param.minJerk| * data.dt)
          (previous.acceleration + param.maxJerk * data.dt) param.emergencyState.acc
          before.1.prevRawCtrlCmd.acc (|param.emergencyState.jerk| * data.dt)

def Remembers (state : Controller K P × List (Output K)) : Prop :=
  ∀ previous ∈ state.2.getLast?, state.1.prevCtrlCmd.acc = previous.acceleration ∧
    state.1.controlState = previous.controlState

section

variable [IsStrictOrderedRing K]

theorem dt_pos (hperiod : 0 < param.longitudinalCtrlPeriod) {data : ControlData K}
    {middle : Controller K P} (hdata : getControlData geometry param input self = .ok (data, middle)) :
    0 < data.dt := by
  have hdt : data.dt = (getDt param input self).1 := (getControlData_spec hdata).2
  rw [hdt]
  exact (mul_pos hperiod one_half_pos).trans_le (le_max_right _ _)

theorem jerkLimited_far {before : Controller K P} {previous output : Output K}
    {data : ControlData K} (hremembers : before.controlState = previous.controlState)
    (hpos : 0 < data.dt) (hdt : output.dt = data.dt)
    (hacc : output.acceleration = applyDiffLimitFilterAbs param.emergencyState.acc
      before.prevRawCtrlCmd.acc data.dt param.emergencyState.jerk)
    (hstate : output.controlState = before.controlState ∨ output.controlState = .emergency) :
    JerkLimited param previous output ↔
      ApproachesWithin (previous.acceleration - |param.minJerk| * data.dt)
        (previous.acceleration + param.maxJerk * data.dt) param.emergencyState.acc
        before.prevRawCtrlCmd.acc (|param.emergencyState.jerk| * data.dt) := by
  have hbase : baseAcc previous.controlState output.controlState previous.acceleration =
      previous.acceleration := by
    rw [baseAcc, if_neg]
    rintro ⟨hbefore, hdrive⟩
    rcases hstate with hsame | hemergency
    · exact hbefore (hremembers.symm.trans (hsame.symm.trans hdrive))
    · exact absurd (hemergency.symm.trans hdrive) (by decide)
  rw [JerkLimited, hbase, hdt, hacc, applyDiffLimitFilterAbs_within_iff hpos]

variable [FloorRing K] {before after : Controller K P × List (Output K)}
  {label : InputData K P × List (Output K)}

omit [IsStrictOrderedRing K] in
theorem remembers_call (hcall : Call geometry param before label after) : Remembers after := by
  obtain ⟨hrun, hsent⟩ := hcall
  obtain ⟨output, houtput, hacc, hstate, -⟩ := run_outcome hrun
  intro previous hprevious
  rw [hsent, houtput, List.getLast?_append] at hprevious
  cases hprevious
  exact ⟨hacc, hstate⟩

theorem jerkLimited_call_iff (hperiod : 0 < param.longitudinalCtrlPeriod)
    (hjerk : param.minJerk ≤ param.maxJerk) (hremembers : Remembers before)
    (hsafe : before.2.IsChain (JerkLimited param)) (hcall : Call geometry param before label after) :
    after.2.IsChain (JerkLimited param) ↔ EmergencyWithin geometry param before label after := by
  obtain ⟨hrun, hsent⟩ := hcall
  obtain ⟨output, houtput, -, -, houtcome⟩ := run_outcome hrun
  have hchain : after.2.IsChain (JerkLimited param) ↔
      ∀ previous ∈ before.2.getLast?, JerkLimited param previous output := by
    rw [hsent, houtput, isChain_concat_iff, and_iff_right hsafe]
  rw [hchain]
  refine forall₂_congr fun previous hprevious => ?_
  obtain ⟨hprevAcc, hprevState⟩ := hremembers previous hprevious
  cases houtcome with
  | far hdata hfar hdt hacc hstate =>
    rw [jerkLimited_far hprevState (dt_pos hperiod hdata) hdt hacc hstate]
    constructor
    · intro hwithin data' middle' hdata' _
      cases hdata.symm.trans hdata'
      exact hwithin
    · exact fun hwithin => hwithin _ _ hdata hfar
  | near acc hdata hnear hdt hacc =>
    refine iff_of_true ?_ fun data' middle' hdata' hfar' => ?_
    · rw [JerkLimited, hacc, hdt, ← hprevAcc, ← hprevState]
      exact applyDiffLimitFilter_within (dt_pos hperiod hdata) hjerk
    · cases hdata.symm.trans hdata'
      exact absurd hfar' (ne_true_of_eq_false hnear)

/-- The acceleration stays within the jerk limits exactly in the runs without an emergency that
leaves them. -/
theorem jerkLimited_iff_emergencyWithin (hperiod : 0 < param.longitudinalCtrlPeriod)
    (hjerk : param.minJerk ≤ param.maxJerk) {start : K}
    {labels : List (InputData K P × List (Output K))} {last : Controller K P × List (Output K)}
    (hrun : Run (Call geometry param) (construct start, []) labels last) :
    last.2.IsChain (JerkLimited param) ↔
      Run (Guarded (Call geometry param) (EmergencyWithin geometry param)) (construct start, [])
        labels last := by
  apply hrun.safe_iff_guarded ((OfPartial.deterministic _).recorded Prod.snd) Remembers
    (fun state => state.2.IsChain (JerkLimited param))
  · intro before label after hcall hafter
    rw [hcall.2] at hafter
    exact hafter.left_of_append
  · intro before label after hremembers hsafe hcall
    exact ⟨remembers_call hcall, jerkLimited_call_iff hperiod hjerk hremembers hsafe hcall⟩
  · exact fun _ hprevious => by cases hprevious
  · exact .nil

end

/-! ## A pose far from the trajectory -/

instance {previous latest : Output K} : Decidable (JerkLimited param previous latest) :=
  inferInstanceAs (Decidable (_ ∧ _))

theorem exists_run_of_inputs [FloorRing K] (geometry : Geometry K P) (param : Params K) (start : K)
    (inputs : List (InputData K P)) (sent : List (Output K))
    (hsent : ((executePartial (recordPartial
      (fun self input => run geometry param input self) Prod.snd)
      (construct start, []) inputs).toOption.map fun result => result.2.2) = some sent) :
    ∃ labels controller, Run (Call geometry param) (construct start, []) labels
      (controller, sent) := by
  obtain ⟨⟨labels, controller, _⟩, hsome, rfl⟩ := Option.map_eq_some_iff.mp hsent
  have hrun := run_executePartial _ (toOption_eq_some.mp hsome)
  exact ⟨labels, controller, hrun.mono fun _ _ _ hstep => recorded_of_recordPartial _ hstep⟩

/-- Poses that head along a straight lane, before or beside its first point. -/
def exampleGeometry : Geometry ℚ (ℚ × ℚ) where
  findFirstNearestIndexWithSoftConstraints := fun _ _ _ _ => 0
  calcDistance2d := fun p1 p2 => |p1.1 - p2.1| + |p1.2 - p2.2|
  yawDeviation := fun _ _ => 0
  calcStopDistance := fun pose points _ _ =>
    match points.getLast? with
    | some last => last.pose.1 - pose.1
    | none => 0
  getPitchByPose := fun _ => 0
  getPitchByTraj := fun _ _ _ => 0
  calcPoseAfterTimeDelay := fun pose delayTime currentVel => (pose.1 + delayTime * currentVel, pose.2)
  lerpTrajectoryPoint := fun points _ _ _ => points.headD ⟨(0, 0), 0, 0⟩
  sin := fun angle => angle

def exampleParam : Params ℚ where
  longitudinalCtrlPeriod := 3 / 100
  wheelBase := 279 / 100
  delayCompensationTime := 17 / 100
  enableSmoothStop := true
  enableOvershootEmergency := true
  enableSlopeCompensation := false
  enableLargeTrackingErrorEmergency := true
  enableKeepStoppedUntilSteerConvergence := true
  stateTransition :=
    { driveStateStopDist := 1 / 2
      driveStateOffsetStopDist := 1
      stoppingStateStopDist := 49 / 100
      stoppedStateEntryDurationTime := 1 / 10
      stoppedStateEntryVel := 1 / 10
      stoppedStateEntryAcc := 1 / 10
      emergencyStateOvershootStopDist := 3 / 2
      emergencyStateTrajTransDev := 3
      emergencyStateTrajRotDev := 7 / 10 }
  pidVel := ⟨1, 1 / 10, 0, 1, -1, 3 / 10, -(3 / 10), 0, 0, 1, -1⟩
  lpfVelErrorGain := 9 / 10
  currentVelThresholdPidIntegrate := 1 / 2
  enableBrakeKeepingBeforeStop := false
  brakeKeepingAcc := -(2 / 10)
  smoothStop := ⟨-(1 / 2), -1, -(3 / 10), -(8 / 10), -(34 / 10), 1 / 2, 1 / 100, 1 / 100, 8 / 10,
    -(3 / 10), -(1 / 2)⟩
  stoppedState := ⟨0, -(34 / 10), -5⟩
  emergencyState := ⟨0, -5, -3⟩
  maxAcc := 3
  minAcc := -5
  maxJerk := 2
  minJerk := -5
  useTrajForPitch := false
  lpfPitchGain := 95 / 100
  maxPitchRad := 1 / 10
  minPitchRad := -(1 / 10)
  egoNearestDistThreshold := 3
  egoNearestYawThreshold := 1

/-- Ten metres at 5 m/s with an acceleration of 1 m/s². -/
def exampleInput (pose : ℚ × ℚ) (isSteerConverged : Bool) (now : ℚ) : InputData ℚ (ℚ × ℚ) where
  currentTrajectory := [⟨(0, 0), 5, 1⟩, ⟨(10, 0), 5, 1⟩]
  currentPose := pose
  currentMotion := ⟨0, 0⟩
  isAutonomous := true
  isSteerConverged := isSteerConverged
  now := now
  smoothStopNow := now

/-- From the stopped state the emergency command stays within the limits. -/
theorem emergencyWithin_of_stopped : ∃ labels last, Run (Guarded (Call exampleGeometry exampleParam)
        (EmergencyWithin exampleGeometry exampleParam)) (construct 0, []) labels last ∧
      last.2.map Output.acceleration = [-(3 / 20), -(6 / 25)] := by
  let sent : List (Output ℚ) :=
    [⟨0, -(3 / 20), 3 / 100, .stopped⟩, ⟨0, -(6 / 25), 3 / 100, .emergency⟩]
  obtain ⟨labels, controller, hrun⟩ := exists_run_of_inputs exampleGeometry exampleParam 0
    [exampleInput (0, 0) false 0, exampleInput (0, 4) false (3 / 100)] sent (by decide +kernel)
  have hlimited : sent.IsChain (JerkLimited exampleParam) := by decide +kernel
  exact ⟨labels, _, (jerkLimited_iff_emergencyWithin (by decide +kernel) (by decide +kernel)
    hrun).mp hlimited, rfl⟩

/-- The emergency command continues the raw command, which the output has not reached. -/
theorem not_jerkLimited_far_from_trajectory :
    ¬ ∀ (geometry : Geometry ℚ (ℚ × ℚ)) (param : Params ℚ), 0 < param.longitudinalCtrlPeriod →
      param.minJerk ≤ param.maxJerk → ∀ start labels last,
        Run (Call geometry param) (construct start, []) labels last →
          last.2.IsChain (JerkLimited param) := by
  intro hlimited
  let sent : List (Output ℚ) :=
    [⟨5, 3 / 50, 3 / 100, .drive⟩, ⟨97 / 20, 91 / 100, 3 / 100, .emergency⟩]
  obtain ⟨labels, controller, hrun⟩ := exists_run_of_inputs exampleGeometry exampleParam 0
    [exampleInput (0, 0) true 0, exampleInput (0, 4) true (3 / 100)] sent (by decide +kernel)
  have hchain : sent.IsChain (JerkLimited exampleParam) :=
    hlimited exampleGeometry exampleParam (by decide +kernel) (by decide +kernel) 0 labels _ hrun
  have hjump : ¬ sent.IsChain (JerkLimited exampleParam) := by decide +kernel
  exact hjump hchain

end AutowareUniverse.Control.PidLongitudinalController
