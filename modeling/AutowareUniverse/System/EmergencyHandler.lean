import AutowareUniverse.Library.Runs
import AutowareUniverse.Messages.Common
import AutowareUniverse.Library.Numerals
import Mathlib.Tactic.Linarith

/-!
# The emergency handler node

The node supervises the hazard status and drives the minimal-risk manoeuvre
(MRM).  Its members are one record, each callback is a function of the record,
and everything a callback publishes or requests is returned as a list of
outputs.  One reading of the clock is used within one callback.  The messages
of `prev_control_command` are stored but never read, so they are left out.
-/

namespace AutowareUniverse.System

open Library.Runs Messages

namespace EmergencyHandler

/-! ## Data -/

structure Param where
  updateRate : Nat
  timeoutHazardStatus : ℚ
  timeoutTakeoverRequest : ℚ
  useTakeoverRequest : Bool
  useParkingAfterStopped : Bool
  useComfortableStop : Bool
  turningHazardOnEmergency : Bool

def Param.declared : Param where
  updateRate := 10
  timeoutHazardStatus := 1 / 2
  timeoutTakeoverRequest := 10
  useTakeoverRequest := false
  useParkingAfterStopped := false
  useComfortableStop := false
  turningHazardOnEmergency := true

/-- The `state` values of `autoware_adapi_v1_msgs::msg::MrmState`. -/
inductive MrmStateType where
  | normal
  | mrmOperating
  | mrmSucceeded
  | mrmFailed
  deriving DecidableEq

/-- The `behavior` values of `autoware_adapi_v1_msgs::msg::MrmState`. -/
inductive MrmBehavior where
  | none
  | comfortableStop
  | emergencyStop
  deriving DecidableEq

structure MrmState where
  stamp : Time
  state : MrmStateType
  behavior : MrmBehavior
  deriving DecidableEq

/-- The `state` values of `tier4_system_msgs::msg::MrmBehaviorStatus`. -/
inductive MrmBehaviorStatus where
  | notAvailable
  | available
  | operating
  deriving DecidableEq

/-- The longitudinal speed `twist.twist.linear.x` of `nav_msgs::msg::Odometry`. -/
structure Odometry where
  linearX : ℚ
  deriving DecidableEq

inductive HazardLightsCommand where
  | noCommand
  | enable
  deriving DecidableEq

inductive GearCommand where
  | drive
  | park
  deriving DecidableEq

/-- The two external services of type `tier4_system_msgs::srv::OperateMrm`. -/
inductive MrmOperator where
  | comfortableStop
  | emergencyStop
  deriving DecidableEq

/-- Everything the node sends: three topics and the operate requests. -/
inductive Output where
  | hazardCmd (command : HazardLightsCommand)
  | gearCmd (stamp : Time) (command : GearCommand)
  | mrmState (message : MrmState)
  | operateMrm (operator : MrmOperator) (operate : Bool)
  deriving DecidableEq

end EmergencyHandler

/-- The members of the node that its callbacks read. -/
structure EmergencyHandler where
  hazardStatusStamped : Option HazardStatus
  stampHazardStatus : Time
  odom : EmergencyHandler.Odometry
  controlMode : ControlMode
  mrmComfortableStopStatus : EmergencyHandler.MrmBehaviorStatus
  mrmEmergencyStopStatus : EmergencyHandler.MrmBehaviorStatus
  mrmState : EmergencyHandler.MrmState
  takeoverRequestedTime : Time
  isTakeoverRequest : Bool

namespace EmergencyHandler

/-- The state left by the constructor. -/
def initial (now : Time) : EmergencyHandler where
  hazardStatusStamped := none
  stampHazardStatus := 0
  odom := ⟨0⟩
  controlMode := .noCommand
  mrmComfortableStopStatus := .notAvailable
  mrmEmergencyStopStatus := .notAvailable
  mrmState := ⟨now, .normal, .none⟩
  takeoverRequestedTime := 0
  isTakeoverRequest := false

def isEmergency (hazardStatus : HazardStatus) : Bool :=
  hazardStatus.emergency || hazardStatus.emergencyHolding

def thStoppedVelocity : ℚ := 1 / 1000

def isStopped (self : EmergencyHandler) : Bool :=
  decide (self.odom.linearX < thStoppedVelocity)

variable (param : Param)

def createHazardCmdMsg (hazardStatus : HazardStatus) :
    HazardLightsCommand :=
  if hazardStatus.emergencyHolding then
    .enable
  else if isEmergency hazardStatus && param.turningHazardOnEmergency then
    .enable
  else
    .noCommand

def publishControlCommands (now : Time)
    (hazardStatus : HazardStatus) (self : EmergencyHandler) : List Output :=
  [.hazardCmd (createHazardCmdMsg param hazardStatus), .gearCmd now
      (if param.useParkingAfterStopped && self.isStopped then .park else .drive)]

def publishMrmState (now : Time) (self : EmergencyHandler) : EmergencyHandler × List Output :=
  let mrmState := { self.mrmState with stamp := now }
  ({ self with mrmState := mrmState }, [.mrmState mrmState])

/-! ## MRM operation -/

/-- The request sent for a behavior: `callMrmBehavior` sends it with
`operate = true` and `cancelMrmBehavior` with `operate = false`. -/
def requestMrmBehavior (operate : Bool) : MrmBehavior → List Output
  | .none => []
  | .comfortableStop => [.operateMrm .comfortableStop operate]
  | .emergencyStop => [.operateMrm .emergencyStop operate]

def callMrmBehavior (mrmBehavior : MrmBehavior) : List Output :=
  requestMrmBehavior true mrmBehavior

def cancelMrmBehavior (mrmBehavior : MrmBehavior) : List Output :=
  requestMrmBehavior false mrmBehavior

def getCurrentMrmBehavior (hazardStatus : HazardStatus) (behavior : MrmBehavior) : MrmBehavior :=
  let level := hazardStatus.level
  match behavior with
  | .none =>
    if level = HazardStatus.latentFault then
      if param.useComfortableStop then .comfortableStop else .emergencyStop
    else if level = HazardStatus.singlePointFault then
      .emergencyStop
    else
      .none
  | .comfortableStop =>
    if level = HazardStatus.singlePointFault then .emergencyStop
    else .comfortableStop
  | .emergencyStop => .emergencyStop

def setBehavior (self : EmergencyHandler) (behavior : MrmBehavior) :
    EmergencyHandler :=
  { self with mrmState := { self.mrmState with behavior := behavior } }

def operateMrm (hazardStatus : HazardStatus)
    (self : EmergencyHandler) : EmergencyHandler × List Output :=
  let behavior := self.mrmState.behavior
  match self.mrmState.state with
  | .normal =>
    -- Cancel the MRM behavior when returning to the normal state.
    if MrmBehavior.none ≠ behavior then
      (self.setBehavior .none, cancelMrmBehavior behavior)
    else
      (self, [])
  | .mrmOperating =>
    let current := getCurrentMrmBehavior param hazardStatus behavior
    if current ≠ behavior then
      (self.setBehavior current, cancelMrmBehavior behavior ++ callMrmBehavior current)
    else
      (self, [])
  | .mrmSucceeded => (self, [])
  | .mrmFailed => (self, [])

def transitionTo (newState : MrmStateType) (self : EmergencyHandler) :
    EmergencyHandler :=
  { self with mrmState := { self.mrmState with state := newState } }

def updateMrmState (now : Time) (hazardStatus : HazardStatus)
    (self : EmergencyHandler) : EmergencyHandler :=
  let emergency := isEmergency hazardStatus
  let isAutoMode := self.controlMode = .autonomous
  let isTakeoverDone := self.controlMode = .manual
  if self.mrmState.state = .normal then
    if isAutoMode ∧ emergency then
      if param.useTakeoverRequest then
        { self with takeoverRequestedTime := now, isTakeoverRequest := true }
      else
        self.transitionTo .mrmOperating
    else
      self
  else if ¬ emergency then
    self.transitionTo .normal
  else if isTakeoverDone then
    self.transitionTo .normal
  else if self.isTakeoverRequest then
    if param.timeoutTakeoverRequest < seconds (now - self.takeoverRequestedTime) then
      self.transitionTo .mrmOperating
    else
      self
  else if self.mrmState.state = .mrmOperating then
    if self.isStopped then self.transitionTo .mrmSucceeded else self
  else
    self

def isDataReady (self : EmergencyHandler) : Bool :=
  self.hazardStatusStamped.isSome && !(param.useComfortableStop &&
      decide (self.mrmComfortableStopStatus = .notAvailable)) &&
    !decide (self.mrmEmergencyStopStatus = .notAvailable)

def isHazardStatusTimeout (now : Time) (self : EmergencyHandler) : Bool :=
  decide (param.timeoutHazardStatus < seconds (now - self.stampHazardStatus))

/-- The part of `onTimer` that runs while the hazard status is fresh. -/
def onFreshTimer (now : Time) (hazardStatus : HazardStatus)
    (self : EmergencyHandler) : EmergencyHandler × List Output :=
  let updated := self.updateMrmState param now hazardStatus
  let operated := updated.operateMrm param hazardStatus
  let published := operated.1.publishMrmState now
  (published.1, updated.publishControlCommands param now hazardStatus ++ operated.2 ++ published.2)

def onTimer (now : Time) (self : EmergencyHandler) : EmergencyHandler × List Output :=
  if self.isDataReady param then
    match self.hazardStatusStamped with
    | none => (self, [])
    | some hazardStatus =>
      if self.isHazardStatusTimeout param now then
        let operating := self.transitionTo .mrmOperating
        (operating, operating.publishControlCommands param now hazardStatus)
      else
        self.onFreshTimer param now hazardStatus
  else
    (self, [])

/-- The subscription and timer events of the node. -/
inductive Event where
  | hazardStatusStamped (now : Time) (message : HazardStatus)
  | odometry (message : Odometry)
  | controlMode (message : ControlMode)
  | mrmComfortableStopStatus (message : MrmBehaviorStatus)
  | mrmEmergencyStopStatus (message : MrmBehaviorStatus)
  | timer (now : Time)

def handle (param : Param) (self : EmergencyHandler) : Event → EmergencyHandler × List Output
  | .hazardStatusStamped now message =>
    ({ self with
      hazardStatusStamped := some message
      stampHazardStatus := now }, [])
  | .odometry message => ({ self with odom := message }, [])
  | .controlMode message => ({ self with controlMode := message }, [])
  | .mrmComfortableStopStatus message =>
    ({ self with mrmComfortableStopStatus := message }, [])
  | .mrmEmergencyStopStatus message =>
    ({ self with mrmEmergencyStopStatus := message }, [])
  | .timer now => self.onTimer param now

def Step (param : Param) : EmergencyHandler → Event × List Output → EmergencyHandler → Prop :=
  OfFunction (handle param)

end EmergencyHandler

end AutowareUniverse.System

/-!
# What one event does to the emergency handler

The lemmas of this module say once what each callback can do.  A message only
replaces the stored message; a timer tick does nothing until the inputs are
ready, then either takes the hazard-timeout path or runs the state machine,
publishes, operates the MRM and publishes the MRM state.
-/

namespace AutowareUniverse.System.EmergencyHandler

open Library.Runs Messages

section

section

/-! ## Field lemmas -/

section

variable {param : Param} {now : Time} {hazardStatus : HazardStatus}
  {self : EmergencyHandler} {state : MrmStateType} {behavior : MrmBehavior}

@[simp]
theorem transitionTo_state : (self.transitionTo state).mrmState.state = state := rfl

@[simp]
theorem transitionTo_behavior :
    (self.transitionTo state).mrmState.behavior = self.mrmState.behavior := rfl

@[simp]
theorem transitionTo_odom : (self.transitionTo state).odom = self.odom := rfl

@[simp]
theorem setBehavior_state : (self.setBehavior behavior).mrmState.state = self.mrmState.state := rfl

@[simp]
theorem setBehavior_behavior : (self.setBehavior behavior).mrmState.behavior = behavior := rfl

@[simp]
theorem publishMrmState_state :
    (self.publishMrmState now).1.mrmState.state = self.mrmState.state := rfl

@[simp]
theorem publishMrmState_behavior :
    (self.publishMrmState now).1.mrmState.behavior = self.mrmState.behavior := rfl

@[simp]
theorem updateMrmState_behavior : (self.updateMrmState param now hazardStatus).mrmState.behavior =
      self.mrmState.behavior := by
  unfold updateMrmState
  dsimp only
  repeat' split
  all_goals rfl

@[simp]
theorem updateMrmState_odom :
    (self.updateMrmState param now hazardStatus).odom = self.odom := by
  unfold updateMrmState
  dsimp only
  repeat' split
  all_goals rfl

@[simp]
theorem operateMrm_state : (self.operateMrm param hazardStatus).1.mrmState.state =
      self.mrmState.state := by
  unfold operateMrm
  dsimp only
  repeat' split
  all_goals rfl

@[simp]
theorem onFreshTimer_state : (self.onFreshTimer param now hazardStatus).1.mrmState.state =
      (self.updateMrmState param now hazardStatus).mrmState.state := by
  simp [onFreshTimer]

end

variable {self : EmergencyHandler} {param : Param}

theorem hazardStatusStamped_of_isDataReady (hready : self.isDataReady param = true) :
    ∃ hazardStatus, self.hazardStatusStamped = some hazardStatus := by
  unfold isDataReady at hready
  simp only [Bool.and_eq_true] at hready
  exact Option.isSome_iff_exists.mp hready.1.1

variable {now : Time}

theorem onTimer_notReady (hready : self.isDataReady param = false) :
    self.onTimer param now = (self, []) := by
  simp [onTimer, hready]

theorem onTimer_timeout {hazardStatus : HazardStatus} (hready : self.isDataReady param = true)
    (hhazard : self.hazardStatusStamped = some hazardStatus)
    (htimeout : self.isHazardStatusTimeout param now = true) :
    self.onTimer param now = (self.transitionTo .mrmOperating,
        (self.transitionTo .mrmOperating).publishControlCommands param now
          hazardStatus) := by
  simp [onTimer, hready, hhazard, htimeout]

theorem onTimer_fresh {hazardStatus : HazardStatus} (hready : self.isDataReady param = true)
    (hhazard : self.hazardStatusStamped = some hazardStatus)
    (htimeout : self.isHazardStatusTimeout param now = false) :
    self.onTimer param now = self.onFreshTimer param now hazardStatus := by
  simp [onTimer, hready, hhazard, htimeout]

theorem onTimer_cases (param : Param) (now : Time) (self : EmergencyHandler) :
    (self.isDataReady param = false ∧ self.onTimer param now = (self, [])) ∨
    (∃ hazardStatus, self.isDataReady param = true ∧ self.hazardStatusStamped = some hazardStatus ∧
      self.isHazardStatusTimeout param now = true ∧
      self.onTimer param now = (self.transitionTo .mrmOperating,
          (self.transitionTo .mrmOperating).publishControlCommands param now hazardStatus)) ∨
    (∃ hazardStatus, self.isDataReady param = true ∧ self.hazardStatusStamped = some hazardStatus ∧
      self.isHazardStatusTimeout param now = false ∧
      self.onTimer param now = self.onFreshTimer param now hazardStatus) := by
  cases hready : self.isDataReady param with
  | false => exact .inl ⟨rfl, onTimer_notReady hready⟩
  | true =>
    obtain ⟨hazardStatus, hhazard⟩ := hazardStatusStamped_of_isDataReady hready
    cases htimeout : self.isHazardStatusTimeout param now with
    | true =>
      exact .inr (.inl ⟨hazardStatus, rfl, hhazard, rfl, onTimer_timeout hready hhazard htimeout⟩)
    | false =>
      exact .inr (.inr ⟨hazardStatus, rfl, hhazard, rfl, onTimer_fresh hready hhazard htimeout⟩)

/-- An event that is not a timer tick sends nothing and keeps the MRM state. -/
theorem handle_message (param : Param) (self : EmergencyHandler) {event : Event}
    (hevent : ∀ now, event ≠ .timer now) :
    (self.handle param event).2 = [] ∧
      (self.handle param event).1.mrmState = self.mrmState := by
  cases event with
  | timer now => exact absurd rfl (hevent now)
  | hazardStatusStamped now message => exact ⟨rfl, rfl⟩
  | odometry message => exact ⟨rfl, rfl⟩
  | controlMode message => exact ⟨rfl, rfl⟩
  | mrmComfortableStopStatus message => exact ⟨rfl, rfl⟩
  | mrmEmergencyStopStatus message => exact ⟨rfl, rfl⟩

def singlePointFaultStatus : HazardStatus :=
  { HazardStatus.empty with
    level := HazardStatus.singlePointFault
    emergency := true }

end

/-!
## The MRM operators follow the behavior

The handler and the two external operators form one system: an operator is
switched by the last operate request it received, and every request arrives.
Over all runs of this system the operator that is on is the one of the current
behavior, `NORMAL` goes with the behavior `NONE`, and an emergency stop is kept
until the state returns to `NORMAL`.
-/

/-! ## The operators -/

/-- Whether the last request each operator received was `operate = true`. -/
abbrev Operators := MrmOperator → Bool

def Operators.receive (operators : Operators) : Output → Operators
  | .operateMrm operator operate => Function.update operators operator operate
  | _ => operators

def Operators.receiveAll (operators : Operators) (outputs : List Output) :
    Operators :=
  outputs.foldl Operators.receive operators

def MrmBehavior.operator? : MrmBehavior → Option MrmOperator
  | .none => Option.none
  | .comfortableStop => some .comfortableStop
  | .emergencyStop => some .emergencyStop

variable (operators : Operators)

theorem Operators.receiveAll_append (early late : List Output) :
    operators.receiveAll (early ++ late) = (operators.receiveAll early).receiveAll late :=
  List.foldl_append

theorem Operators.receiveAll_request (operate : Bool)
    (behavior : MrmBehavior) (operator : MrmOperator) :
    operators.receiveAll (requestMrmBehavior operate behavior) operator =
      if behavior.operator? = some operator then operate
      else operators operator := by
  cases behavior <;> cases operator <;>
    simp [requestMrmBehavior, receiveAll, receive, MrmBehavior.operator?]

@[simp]
theorem Operators.receiveAll_controlCommands
    (param : Param) (now : Time) (hazardStatus : HazardStatus) (self : EmergencyHandler) :
    operators.receiveAll (self.publishControlCommands param now hazardStatus) =
      operators := rfl

@[simp]
theorem Operators.receiveAll_mrmState (message : MrmState) :
    operators.receiveAll [.mrmState message] = operators := rfl

def Operators.Agree (behavior : MrmBehavior) : Prop :=
  ∀ operator, operators operator = true ↔ behavior.operator? = some operator

theorem Operators.agree_initial : Operators.Agree (fun _ => false) .none := by
  intro operator
  simp [MrmBehavior.operator?]

variable {operators : Operators}

theorem Operators.Agree.switch {behavior : MrmBehavior}
    (hagree : operators.Agree behavior) (next : MrmBehavior) :
    (operators.receiveAll
      (cancelMrmBehavior behavior ++ callMrmBehavior next)).Agree next := by
  intro operator
  rw [receiveAll_append, callMrmBehavior, receiveAll_request, cancelMrmBehavior, receiveAll_request]
  by_cases hnext : next.operator? = some operator
  · simp [hnext]
  · by_cases hbehavior : behavior.operator? = some operator
    · simp [hnext, hbehavior]
    · simp [hnext, hbehavior, hagree operator]

theorem Operators.Agree.cancel {behavior : MrmBehavior} (hagree : operators.Agree behavior) :
    (operators.receiveAll (cancelMrmBehavior behavior)).Agree .none := by
  simpa [callMrmBehavior, requestMrmBehavior] using hagree.switch .none

variable {self : EmergencyHandler}

theorem operateMrm_agree (param : Param) (hazardStatus : HazardStatus)
    (hagree : operators.Agree self.mrmState.behavior) :
    (operators.receiveAll (self.operateMrm param hazardStatus).2).Agree
      (self.operateMrm param hazardStatus).1.mrmState.behavior := by
  unfold operateMrm
  dsimp only
  cases self.mrmState.state with
  | normal =>
    dsimp only
    split
    · exact hagree.cancel
    · exact hagree
  | mrmOperating =>
    dsimp only
    split
    · exact hagree.switch _
    · exact hagree
  | mrmSucceeded => exact hagree
  | mrmFailed => exact hagree

variable {hazardStatus : HazardStatus} {param : Param}

theorem operateMrm_normal (hnormal : self.mrmState.state = .normal) :
    (self.operateMrm param hazardStatus).1.mrmState.behavior = .none := by
  unfold operateMrm
  rw [hnormal]
  dsimp only
  split
  · rfl
  · next hnone => exact (not_not.mp hnone).symm

theorem mrmState_notMem_operateMrm (message : MrmState) :
    .mrmState message ∉ (self.operateMrm param hazardStatus).2 := by
  have hrequest (operate : Bool) (behavior : MrmBehavior) :
      .mrmState message ∉ requestMrmBehavior operate behavior := by
    cases behavior <;> simp [requestMrmBehavior]
  unfold operateMrm
  dsimp only
  repeat' split
  all_goals simp [cancelMrmBehavior, callMrmBehavior, hrequest]

theorem operateMrm_emergencyStop (hnormal : self.mrmState.state ≠ .normal)
    (hstop : self.mrmState.behavior = .emergencyStop) :
    (self.operateMrm param hazardStatus).1.mrmState.behavior =
      .emergencyStop := by
  unfold operateMrm
  cases hstate : self.mrmState.state with
  | normal => exact absurd hstate hnormal
  | mrmOperating => simp [getCurrentMrmBehavior, hstop]
  | mrmSucceeded => exact hstop
  | mrmFailed => exact hstop

/-! ## The system of the handler and its operators -/

def systemHandle (param : Param) (system : EmergencyHandler × Operators)
    (event : Event) : (EmergencyHandler × Operators) × List Output :=
  let result := system.1.handle param event
  ((result.1, system.2.receiveAll result.2), result.2)

def SystemStep (param : Param) : EmergencyHandler × Operators →
    Event × List Output → EmergencyHandler × Operators → Prop :=
  OfFunction (systemHandle param)

variable {before after : EmergencyHandler × Operators} {label : Event × List Output}

theorem SystemStep.handler (hstep : SystemStep param before label after) :
    before.1.handle param label.1 = (after.1, label.2) ∧
      after.2 = before.2.receiveAll label.2 := by
  obtain ⟨hstate, houtputs⟩ := Prod.mk.inj hstep
  have hhandler := congrArg Prod.fst hstate
  have hoperators := congrArg Prod.snd hstate
  rw [← houtputs]
  exact ⟨Prod.ext hhandler rfl, hoperators.symm⟩

/-- The agreement of state, behavior and operators. -/
structure Consistent (system : EmergencyHandler × Operators) : Prop where
  agree : system.2.Agree system.1.mrmState.behavior
  normal : system.1.mrmState.state = .normal → system.1.mrmState.behavior = .none

theorem consistent_initial (now : Time) :
    Consistent (initial now, fun _ => false) :=
  ⟨Operators.agree_initial, fun _ => rfl⟩

def PublishesNoneWithNormal (_before : EmergencyHandler × Operators)
    (label : Event × List Output) (_after : EmergencyHandler × Operators) : Prop :=
  ∀ message, .mrmState message ∈ label.2 → message.state = .normal → message.behavior = .none

/-- The step was taken into a state outside of `NORMAL`. -/
def EntersNotNormal (_before : EmergencyHandler × Operators)
    (_label : Event × List Output) (after : EmergencyHandler × Operators) : Prop :=
  after.1.mrmState.state ≠ .normal

theorem onFreshTimer_consistent {now : Time} (hagree : operators.Agree self.mrmState.behavior) :
    Consistent ((self.onFreshTimer param now hazardStatus).1,
        operators.receiveAll (self.onFreshTimer param now hazardStatus).2) ∧
      ∀ message, .mrmState message ∈ (self.onFreshTimer param now hazardStatus).2 →
        message.state = .normal → message.behavior = .none := by
  have hupdated : operators.Agree
      (self.updateMrmState param now hazardStatus).mrmState.behavior := by
    rw [updateMrmState_behavior]
    exact hagree
  have hoperated := operateMrm_agree param hazardStatus hupdated
  have hnone : ((self.updateMrmState param now hazardStatus).operateMrm param
        hazardStatus).1.mrmState.state = .normal →
      ((self.updateMrmState param now hazardStatus).operateMrm param
        hazardStatus).1.mrmState.behavior = .none := by
    intro hnormal
    rw [operateMrm_state] at hnormal
    exact operateMrm_normal hnormal
  refine ⟨⟨?_, hnone⟩, ?_⟩
  · simpa only [onFreshTimer, publishMrmState, Operators.receiveAll_append,
      Operators.receiveAll_controlCommands,
      Operators.receiveAll_mrmState] using hoperated
  · intro message hmem hnormal
    simp only [onFreshTimer, publishMrmState, List.mem_append, List.mem_singleton] at hmem
    rcases hmem with (hcommand | hrequest) | hstate
    · simp [publishControlCommands] at hcommand
    · exact absurd hrequest (mrmState_notMem_operateMrm message)
    · obtain rfl := Output.mrmState.inj hstate
      exact hnone hnormal

theorem consistent_step
    (hconsistent : Consistent before) (hstep : SystemStep param before label after) :
    Consistent after ∧ PublishesNoneWithNormal before label after := by
  obtain ⟨handler, operators⟩ := before
  obtain ⟨handler', operators'⟩ := after
  obtain ⟨event, outputs⟩ := label
  obtain ⟨hnext, hreceived⟩ := hstep.handler
  change operators' = operators.receiveAll outputs at hreceived
  subst operators'
  change handler.handle param event = (handler', outputs) at hnext
  by_cases htimer : ∃ now, event = .timer now
  · obtain ⟨now, rfl⟩ := htimer
    change handler.onTimer param now = (handler', outputs) at hnext
    rcases onTimer_cases param now handler with
      ⟨_, hidle⟩ | ⟨hazardStatus, _, _, _, htimeout⟩ | ⟨hazardStatus, _, _, _, hfresh⟩
    · rw [hidle] at hnext
      obtain ⟨rfl, rfl⟩ := Prod.mk.inj hnext
      exact ⟨hconsistent, by intro message hmem; cases hmem⟩
    · rw [htimeout] at hnext
      obtain ⟨rfl, rfl⟩ := Prod.mk.inj hnext
      refine ⟨⟨hconsistent.agree, fun hnormal => by cases hnormal⟩, ?_⟩
      intro message hmem
      simp [publishControlCommands] at hmem
    · rw [hfresh] at hnext
      obtain ⟨rfl, rfl⟩ := Prod.mk.inj hnext
      exact onFreshTimer_consistent hconsistent.agree
  · obtain ⟨hsilent, hkept⟩ := handle_message param handler
      (fun now hevent => htimer ⟨now, hevent⟩)
    rw [hnext] at hsilent hkept
    change outputs = [] at hsilent
    change handler'.mrmState = handler.mrmState at hkept
    subst hsilent
    refine ⟨⟨?_, ?_⟩, by intro message hmem; cases hmem⟩
    · rw [hkept]
      exact hconsistent.agree
    · rw [hkept]
      exact hconsistent.normal

theorem emergencyStop_step (hstep : Guarded (SystemStep param) EntersNotNormal before label after)
    (hstop : before.1.mrmState.behavior = .emergencyStop) :
    after.1.mrmState.behavior = .emergencyStop := by
  obtain ⟨hsystem, hnormal⟩ := hstep
  have hafter : (before.1.handle param label.1).1 = after.1 := congrArg Prod.fst hsystem.handler.1
  change after.1.mrmState.state ≠ .normal at hnormal
  rw [← hafter] at hnormal ⊢
  by_cases htimer : ∃ now, label.1 = .timer now
  · obtain ⟨now, hlabel⟩ := htimer
    rw [hlabel] at hnormal ⊢
    change (before.1.onTimer param now).1.mrmState.state ≠ _ at hnormal
    change (before.1.onTimer param now).1.mrmState.behavior = _
    rcases onTimer_cases param now before.1 with
      ⟨_, hidle⟩ | ⟨hazardStatus, _, _, _, htimeout⟩ | ⟨hazardStatus, _, _, _, hfresh⟩
    · rw [hidle]
      exact hstop
    · rw [htimeout]
      exact hstop
    · rw [hfresh] at hnormal ⊢
      rw [onFreshTimer_state] at hnormal
      exact operateMrm_emergencyStop hnormal (by rw [updateMrmState_behavior, hstop])
  · have hkept := (handle_message param before.1
      (fun now hlabel => htimer ⟨now, hlabel⟩)).2
    rw [hkept]
    exact hstop

/-- In every run of the handler and its operators, whose requests all arrive:
the operators that are on are the one of the behavior, a published `NORMAL`
carries `NONE`, and from any state reached an emergency stop lasts as long as
the state stays outside of `NORMAL`. -/
theorem operators_follow_behavior (param : Param) (now : Time)
    {system : EmergencyHandler × Operators} {labels : List (Event × List Output)}
    (hrun : Run (SystemStep param) (initial now, fun _ => false) labels system) :
    (∀ operator, system.2 operator = true ↔ system.1.mrmState.behavior.operator? = some operator) ∧
    (∀ label ∈ labels, ∀ message, .mrmState message ∈ label.2 →
      message.state = .normal → message.behavior = .none) ∧
    (∀ episode later, Run (Guarded (SystemStep param) EntersNotNormal) system episode later →
      system.1.mrmState.behavior = .emergencyStop →
      later.1.mrmState.behavior = .emergencyStop) := by
  refine ⟨?_, ?_, ?_⟩
  · exact (hrun.preserves Consistent (fun _ _ _ hbefore hstep => (consistent_step hbefore hstep).1)
      (consistent_initial now)).agree
  · intro label hmem
    have hguarded := hrun.guard_of_invariant Consistent
      (fun _ _ _ hbefore hstep => consistent_step hbefore hstep) (consistent_initial now)
    obtain ⟨before, after, _, hpublished⟩ := hguarded.guard_of_mem hmem
    exact hpublished
  · intro episode later hepisode hstop
    exact hepisode.preserves
      (fun state => state.1.mrmState.behavior = .emergencyStop)
      (fun _ _ _ hbefore hstep => emergencyStop_step hstep hbefore) hstop

/-- A single-point fault under autonomous control at ten metres per second. -/
def emergencyStopEvents : List Event :=
  [.mrmEmergencyStopStatus .available, .controlMode .autonomous, .odometry ⟨10⟩,
    .hazardStatusStamped 0 singlePointFaultStatus, .timer 0]

/-- The rules on this run: the emergency stop operator is on at its end. -/
theorem operators_follow_behavior_emergencyStop :
    let system := (execute (systemHandle Param.declared)
      (initial 0, fun _ => false) emergencyStopEvents).2
    (∀ operator, system.2 operator = true ↔ system.1.mrmState.behavior.operator? = some operator) ∧
    system.1.mrmState.behavior = .emergencyStop :=
  ⟨(operators_follow_behavior Param.declared 0 (run_execute _ _ _)).1,
    by decide +kernel⟩

end

/-!
## Standing still

Gear `PARK` and the state `MRM_SUCCEEDED` are reserved for a vehicle that
stands still.  The node decides this by comparing the signed speed with the
stop threshold, so a vehicle that reverses counts as stopped.  Reversing does
no harm exactly on the ticks that do not consult the comparison.
-/

variable (self : EmergencyHandler)

/-- The absolute speed of the latest odometry is below the stop threshold. -/
def AtStandstill : Prop :=
  |self.odom.linearX| < thStoppedVelocity

/-- The latest odometry shows a vehicle that reverses. -/
def Reversing : Prop :=
  self.odom.linearX ≤ -thStoppedVelocity

/-- A step publishes `PARK` or enters `MRM_SUCCEEDED` only at a standstill. -/
def StopsAtStandstill (before : EmergencyHandler)
    (label : Event × List Output) (after : EmergencyHandler) : Prop :=
  (∀ stamp, .gearCmd stamp .park ∈ label.2 → before.AtStandstill) ∧
  (before.mrmState.state ≠ .mrmSucceeded →
    after.mrmState.state = .mrmSucceeded → before.AtStandstill)

/-- The ticks that consult the stop decision: a tick with ready inputs that
parks after stopping, or that checks whether the running MRM is accomplished. -/
def ConsultsStopped (param : Param) (self : EmergencyHandler) : Event → Prop
  | .timer now =>
    self.isDataReady param = true ∧
    (param.useParkingAfterStopped = true ∨ (self.isHazardStatusTimeout param now = false ∧
        self.mrmState.state = .mrmOperating ∧
        self.controlMode ≠ .manual ∧ self.isTakeoverRequest = false ∧
        ∃ hazardStatus, self.hazardStatusStamped = some hazardStatus ∧
          isEmergency hazardStatus = true))
  | _ => False

/-- No tick consults the stop decision while the vehicle reverses. -/
def NotConsultedReversing (param : Param) (before : EmergencyHandler)
    (label : Event × List Output) (_after : EmergencyHandler) : Prop :=
  before.Reversing → ¬ before.ConsultsStopped param label.1

/-- The stop decision is right unless the vehicle reverses. -/
theorem atStandstill_iff :
    self.AtStandstill ↔ self.isStopped = true ∧ ¬ self.Reversing := by
  unfold AtStandstill isStopped Reversing
  rw [abs_lt, decide_eq_true_eq, not_le]
  exact And.comm

theorem isStopped_of_reversing (hreversing : self.Reversing) : self.isStopped = true := by
  have hbelow : -thStoppedVelocity < thStoppedVelocity := by
    unfold thStoppedVelocity
    norm_num
  unfold isStopped
  rw [decide_eq_true_eq]
  exact lt_of_le_of_lt hreversing hbelow

/-! ## When a tick parks or succeeds -/

variable {param : Param} {hazardStatus : HazardStatus} {self : EmergencyHandler}

theorem park_mem_publishControlCommands_iff {now stamp : Time} :
    .gearCmd stamp .park ∈ self.publishControlCommands param now hazardStatus ↔
      stamp = now ∧ param.useParkingAfterStopped = true ∧
        self.isStopped = true := by
  unfold publishControlCommands
  by_cases hparks : param.useParkingAfterStopped = true ∧ self.isStopped = true
  · simp [hparks.1, hparks.2]
  · rw [← Bool.and_eq_true] at hparks
    simp [hparks]
    simpa [Bool.and_eq_true] using fun _ => hparks

/-- The gear is published with the other control commands only. -/
theorem park_mem_onFreshTimer_iff {now stamp : Time} :
    .gearCmd stamp .park ∈ (self.onFreshTimer param now hazardStatus).2 ↔
      stamp = now ∧ param.useParkingAfterStopped = true ∧
        self.isStopped = true := by
  have hrequest (operate : Bool) (behavior : MrmBehavior) :
      .gearCmd stamp .park ∉ requestMrmBehavior operate behavior := by
    cases behavior <;> simp [requestMrmBehavior]
  have hoperate (updated : EmergencyHandler) :
      .gearCmd stamp .park ∉ (updated.operateMrm param hazardStatus).2 := by
    unfold operateMrm
    dsimp only
    repeat' split
    all_goals simp [cancelMrmBehavior, callMrmBehavior, hrequest]
  have hstopped : (self.updateMrmState param now hazardStatus).isStopped =
      self.isStopped := by
    unfold isStopped
    rw [updateMrmState_odom]
  simp only [onFreshTimer, publishMrmState, List.mem_append, List.mem_singleton,
    hoperate, park_mem_publishControlCommands_iff, hstopped, reduceCtorEq,
    or_false]

theorem updateMrmState_succeeded_iff {now : Time} (hbefore : self.mrmState.state ≠ .mrmSucceeded) :
    (self.updateMrmState param now hazardStatus).mrmState.state = .mrmSucceeded ↔
      self.mrmState.state = .mrmOperating ∧ isEmergency hazardStatus = true ∧
        self.controlMode ≠ .manual ∧ self.isTakeoverRequest = false ∧
        self.isStopped = true := by
  unfold updateMrmState
  dsimp only
  repeat' split
  all_goals simp_all

variable {before after : EmergencyHandler}

theorem stops_iff_of_timer {now : Time} {outputs : List Output}
    (hstep : before.onTimer param now = (after, outputs)) :
    ((∃ stamp, .gearCmd stamp .park ∈ outputs) ∨ (before.mrmState.state ≠ .mrmSucceeded ∧
        after.mrmState.state = .mrmSucceeded)) ↔
      before.isStopped = true ∧ before.ConsultsStopped param (.timer now) := by
  rcases onTimer_cases param now before with
    ⟨hready, hidle⟩ | ⟨hazardStatus, hready, hhazard, htimeout, hresult⟩ |
    ⟨hazardStatus, hready, hhazard, hfresh, hresult⟩
  · rw [hidle] at hstep
    obtain ⟨rfl, rfl⟩ := Prod.mk.inj hstep
    simp [ConsultsStopped, hready]
  · rw [hresult] at hstep
    obtain ⟨rfl, rfl⟩ := Prod.mk.inj hstep
    have hstopped : (before.transitionTo .mrmOperating).isStopped = before.isStopped := rfl
    simp [ConsultsStopped, hready, htimeout, hstopped,
      park_mem_publishControlCommands_iff, and_comm]
  · rw [hresult] at hstep
    have hafter : (before.onFreshTimer param now hazardStatus).1 = after := congrArg Prod.fst hstep
    have houtputs : (before.onFreshTimer param now hazardStatus).2 = outputs :=
      congrArg Prod.snd hstep
    rw [← hafter, ← houtputs, onFreshTimer_state]
    simp only [park_mem_onFreshTimer_iff, exists_eq_left, ConsultsStopped,
      hready, hhazard, hfresh, true_and, Option.some.injEq, exists_eq_left']
    by_cases hsucceeded : before.mrmState.state = .mrmSucceeded
    · simp [hsucceeded, and_comm]
    · rw [updateMrmState_succeeded_iff hsucceeded]
      tauto

theorem stopsAtStandstill_iff_of_step {label : Event × List Output}
    (hstep : Step param before label after) :
    StopsAtStandstill before label after ↔
      NotConsultedReversing param before label after := by
  obtain ⟨event, outputs⟩ := label
  by_cases htimer : ∃ now, event = .timer now
  · obtain ⟨now, rfl⟩ := htimer
    have hstops := stops_iff_of_timer hstep
    have hstandstill := before.atStandstill_iff
    have hreversing := before.isStopped_of_reversing
    unfold StopsAtStandstill NotConsultedReversing
    constructor
    · rintro ⟨hpark, hsucceeded⟩ hback hconsults
      have hstill : before.AtStandstill := by
        rcases hstops.mpr ⟨hreversing hback, hconsults⟩ with
          ⟨stamp, hmem⟩ | ⟨hbefore, hafter⟩
        · exact hpark stamp hmem
        · exact hsucceeded hbefore hafter
      exact (hstandstill.mp hstill).2 hback
    · intro hconsults
      have hstill (hstop : before.isStopped = true ∧
          before.ConsultsStopped param (.timer now)) : before.AtStandstill :=
        hstandstill.mpr ⟨hstop.1, fun hback => hconsults hback hstop.2⟩
      refine ⟨fun stamp hmem => ?_, fun hbefore hafter => ?_⟩
      · exact hstill (hstops.mp (.inl ⟨stamp, hmem⟩))
      · exact hstill (hstops.mp (.inr ⟨hbefore, hafter⟩))
  · obtain ⟨hsilent, hkept⟩ := handle_message param before
      (fun now hevent => htimer ⟨now, hevent⟩)
    have houtputs : outputs = [] := (congrArg Prod.snd hstep).symm.trans hsilent
    have hafter : after.mrmState = before.mrmState := by
      rw [← hkept]
      exact congrArg (fun result => result.1.mrmState) hstep.symm
    have hmessage : ¬ before.ConsultsStopped param event := by
      cases event with
      | timer now => exact absurd ⟨now, rfl⟩ htimer
      | _ => exact fun hconsults => hconsults
    subst houtputs
    refine ⟨fun _ _ => hmessage, fun _ => ⟨?_, ?_⟩⟩
    · intro stamp hmem
      cases hmem
    · intro hbefore hsucceeded
      rw [hafter] at hsucceeded
      exact absurd hsucceeded hbefore

/-- In every run of the node, every step publishes `PARK` or enters
`MRM_SUCCEEDED` only at a standstill, if and only if no tick of the run
consults the stop decision while the vehicle reverses. -/
theorem stopsAtStandstill_iff (param : Param) (now : Time)
    (labels : List (Event × List Output)) (last : EmergencyHandler) :
    Run (Guarded (Step param) StopsAtStandstill) (initial now) labels last ↔
      Run (Guarded (Step param) (NotConsultedReversing param)) (initial now)
        labels last :=
  Run.guarded_congr fun _ _ _ hstep => stopsAtStandstill_iff_of_step hstep

/-- An emergency stop of a vehicle that reverses at five metres per second. -/
def reversingEvents : List Event :=
  [.mrmEmergencyStopStatus .available, .controlMode .autonomous,
    .odometry ⟨-5⟩, .hazardStatusStamped 0 singlePointFaultStatus, .timer 0,
    .timer 100000000]

/-- The node takes a reversing vehicle for a stopped one. -/
theorem reversing_vehicle_succeeds :
    ¬ ∀ (param : Param) (now : Time) (labels : List (Event × List Output))
        (last : EmergencyHandler),
      Run (Step param) (initial now) labels last →
      Run (Guarded (Step param) StopsAtStandstill) (initial now) labels last := by
  intro hclaim
  have hrun := hclaim Param.declared 0 _ _ (run_execute _ _ reversingEvents)
  have halong := (run_execute_iff _).mp hrun
  have hstill := halong.2.2.2.2.2.1.2 (by decide +kernel) (by decide +kernel)
  have hstopped := (atStandstill_iff _).mp hstill
  exact hstopped.2 (by unfold Reversing; decide +kernel)

/-- Every tick sees autonomous control, a fresh hazard status and an emergency. -/
def EmergencyPersists (param : Param) (before : EmergencyHandler)
    (label : Event × List Output) (_after : EmergencyHandler) : Prop :=
  ∀ now, label.1 = .timer now → before.controlMode = .autonomous ∧
    before.isHazardStatusTimeout param now = false ∧
    ∃ hazardStatus, before.hazardStatusStamped = some hazardStatus ∧ isEmergency hazardStatus = true

def IsLate (param : Param) (start now : Time) : Prop :=
  param.timeoutTakeoverRequest + 1 / param.updateRate < seconds (now - start)

/-- The MRM has left `NORMAL` at every late tick. -/
def LateTickNotNormal (param : Param) (start : Time) (_before : EmergencyHandler)
    (label : Event × List Output) (after : EmergencyHandler) : Prop :=
  ∀ now, label.1 = .timer now → IsLate param start now → after.mrmState.state ≠ .normal

theorem updateMrmState_normal_iff (huse : param.useTakeoverRequest = true) (now : Time)
    (hemergency : isEmergency hazardStatus = true) (hmode : self.controlMode = .autonomous) :
    (self.updateMrmState param now hazardStatus).mrmState.state = .normal ↔
      self.mrmState.state = .normal := by
  unfold updateMrmState
  by_cases hnormal : self.mrmState.state = .normal
  · simp [hnormal, hemergency, hmode, huse]
  · simp only [hnormal, hemergency, hmode, if_false, not_true_eq_false, iff_false, reduceCtorEq]
    repeat' split
    all_goals simp_all

theorem normal_iff_of_step (huse : param.useTakeoverRequest = true) {label : Event × List Output}
    (hstep : Guarded (Step param) (EmergencyPersists param) before label after) :
    after.mrmState.state = .normal ↔ before.mrmState.state = .normal := by
  obtain ⟨hnext, hpersists⟩ := hstep
  have hafter : (before.handle param label.1).1 = after := congrArg Prod.fst hnext
  by_cases htimer : ∃ now, label.1 = .timer now
  · obtain ⟨now, hlabel⟩ := htimer
    obtain ⟨hmode, hfresh, hazardStatus, hhazard, hemergency⟩ := hpersists now hlabel
    rw [← hafter, hlabel]
    change (before.onTimer param now).1.mrmState.state = _ ↔ _
    cases hready : before.isDataReady param with
    | false => rw [onTimer_notReady hready]
    | true =>
      rw [onTimer_fresh hready hhazard hfresh, onFreshTimer_state]
      exact updateMrmState_normal_iff huse now hemergency hmode
  · have hkept := (handle_message param before
      (fun now hlabel => htimer ⟨now, hlabel⟩)).2
    rw [← hafter, hkept]

theorem normal_iff_of_run (huse : param.useTakeoverRequest = true)
    {first last : EmergencyHandler} {labels : List (Event × List Output)}
    (hrun : Run (Guarded (Step param) (EmergencyPersists param)) first labels last) :
    last.mrmState.state = .normal ↔ first.mrmState.state = .normal := by
  induction hrun with
  | nil => exact Iff.rfl
  | cons hstep _ ih => exact ih.trans (normal_iff_of_step huse hstep)

/-- A persisting emergency that is observed past the takeover timeout has
started an MRM by every late tick if and only if the MRM state was not `NORMAL`
when the emergency began. -/
theorem takeover_timeout_starts_mrm_iff (param : Param)
    (huse : param.useTakeoverRequest = true) (start : Time)
    {first last : EmergencyHandler} {labels : List (Event × List Output)}
    (hrun : Run (Guarded (Step param) (EmergencyPersists param)) first labels last)
    (hlate : ∃ label ∈ labels, ∃ now, label.1 = .timer now ∧ IsLate param start now) :
    Run (Guarded (Step param) (LateTickNotNormal param start)) first labels last ↔
      first.mrmState.state ≠ .normal := by
  constructor
  · intro hholds hnormal
    obtain ⟨label, hmem, now, hlabel, hlateTick⟩ := hlate
    obtain ⟨early, rest, before, after, rfl, hearly, hstep, _⟩ :=
      hrun.exists_step_of_mem hmem
    have hbefore := (normal_iff_of_run huse hearly).mpr hnormal
    have hafter := (normal_iff_of_step huse hstep).mpr hbefore
    exact hholds.guard_at (OfFunction.deterministic _) hearly.unguarded hstep.1
      now hlabel hlateTick hafter
  · intro hnormal
    exact (hrun.guard_of_invariant
      (fun self => self.mrmState.state ≠ .normal)
      (fun _ _ _ hbefore hstep =>
        have hafter := mt (normal_iff_of_step huse hstep).mp hbefore
        ⟨hafter, fun _ _ _ => hafter⟩) hnormal).mono
      fun _ _ _ hstep => ⟨hstep.1.1, hstep.2⟩

def takeoverParam : Param := { Param.declared with useTakeoverRequest := true }

/-- An emergency that is still present eleven seconds after its first tick. -/
def persistingEvents : List Event :=
  [.mrmEmergencyStopStatus .available, .controlMode .autonomous,
    .hazardStatusStamped 0 singlePointFaultStatus, .timer 0,
    .hazardStatusStamped 11000000000 singlePointFaultStatus, .timer 11000000000]

theorem emergencyPersists_along :
    Along (handle takeoverParam) (EmergencyPersists takeoverParam) (initial 0)
      persistingEvents := by
  refine ⟨?_, ?_, ?_, ?_, ?_, ?_, trivial⟩
  · intro now hlabel; cases hlabel
  · intro now hlabel; cases hlabel
  · intro now hlabel; cases hlabel
  · intro now hlabel
    cases hlabel
    exact ⟨by decide +kernel, by decide +kernel, singlePointFaultStatus, by decide +kernel, rfl⟩
  · intro now hlabel; cases hlabel
  · intro now hlabel
    cases hlabel
    exact ⟨by decide +kernel, by decide +kernel, singlePointFaultStatus, by decide +kernel, rfl⟩

theorem persistingEvents_late : IsLate takeoverParam 0 11000000000 := by
  unfold IsLate
  decide +kernel

/-- The late tick of this run is an instance of the criterion. -/
theorem takeover_timeout_starts_mrm_iff_persisting :
    Run (Guarded (Step takeoverParam) (LateTickNotNormal takeoverParam 0)) (initial 0)
        (execute (handle takeoverParam) (initial 0) persistingEvents).1
        (execute (handle takeoverParam) (initial 0) persistingEvents).2 ↔
      (initial 0).mrmState.state ≠ .normal := by
  refine takeover_timeout_starts_mrm_iff takeoverParam rfl 0
    ((run_execute_iff _).mpr emergencyPersists_along) ?_
  obtain ⟨label, hmem, hlabel⟩ := exists_label_of_mem (handle takeoverParam)
    (initial 0) (show .timer 11000000000 ∈ persistingEvents by
      simp [persistingEvents])
  exact ⟨label, hmem, 11000000000, hlabel, persistingEvents_late⟩

/-- A takeover request that nobody answers need not start an MRM. -/
theorem takeover_timeout_need_not_start_mrm :
    ¬ ∀ (param : Param) (start : Time) (last : EmergencyHandler)
        (labels : List (Event × List Output)),
      param.useTakeoverRequest = true →
      Run (Guarded (Step param) (EmergencyPersists param)) (initial 0) labels last →
      Run (Guarded (Step param) (LateTickNotNormal param start)) (initial 0)
        labels last := by
  intro hclaim
  have hrun := hclaim takeoverParam 0 _ _ rfl ((run_execute_iff _).mpr emergencyPersists_along)
  have halong := (run_execute_iff _).mp hrun
  have hlast := halong.2.2.2.2.2.1 11000000000 rfl persistingEvents_late
  exact hlast (by decide +kernel)

end AutowareUniverse.System.EmergencyHandler
