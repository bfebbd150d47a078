import AutowareUniverse.Control.Compatibility
import AutowareUniverse.Library.Runs
import AutowareUniverse.Library.Numerals
import Mathlib.Tactic.NormNum

/-!
# The operation mode transition manager

The node changes the operation mode and engages the vehicle.  A change under
the control of Autoware, and the engagement itself, is a transition that the
timer drives until it is completed or cancelled.  The vehicle is asked for a
control mode by a service, and the answer to a request may arrive at any later
time.  The behavior of the vehicle that the autonomous mode watches is an input
of the timer, and of its debug message only the names of the modes are kept.
-/

namespace AutowareUniverse.Control

open Library.Runs Messages

/-! ## Data -/

/-- The object that `transition_` points to; `serial` counts the objects that
were created. -/
structure Transition where
  serial : Nat
  time : Time
  previous : Option OperationMode
  isEngageRequested : Bool
  isEngageFailed : Bool
  isEngageCompleted : Bool
  deriving DecidableEq

/-- `ControlModeCommand::Request::mode`. -/
inductive ControlModeCommand where
  | manual
  | autonomous
  deriving DecidableEq

/-- A request to the vehicle, with the transition that was in progress and the
number of transitions that had been created when it was sent. -/
structure ControlModeRequest where
  sequence : Nat
  mode : ControlModeCommand
  issuer : Option Nat
  created : Nat
  deriving DecidableEq

/-- What the exceptions of the services put into the response. -/
inductive ServiceError where
  | noEffect (message : String)
  | parameterError (message : String)
  | inTransition (message : String)
  | notAvailable (message : String)
  deriving DecidableEq

/-- `OperationModeState` without its stamp. -/
structure OperationModeState where
  mode : OperationMode
  isAutowareControlEnabled : Bool
  isInTransition : Bool
  isStopModeAvailable : Bool
  isAutonomousModeAvailable : Bool
  isLocalModeAvailable : Bool
  isRemoteModeAvailable : Bool
  deriving DecidableEq

structure AutonomousMode where
  isModeChangeAvailable : Bool
  isModeChangeCompleted : Bool
  deriving DecidableEq

namespace AutonomousMode

/-- `modes_.at(mode)->isModeChangeAvailable()`. -/
def available (autonomousMode : AutonomousMode) : OperationMode → Bool
  | .autonomous => autonomousMode.isModeChangeAvailable
  | _ => true

/-- `modes_.at(mode)->isModeChangeCompleted()`. -/
def completed (autonomousMode : AutonomousMode) : OperationMode → Bool
  | .autonomous => autonomousMode.isModeChangeCompleted
  | _ => true

end AutonomousMode

/-- The members of the node, and the requests that the vehicle has not answered. -/
structure OperationModeTransitionManager where
  transitionTimeout : ℚ
  currentMode : OperationMode
  transition : Option Transition
  availableModeChange : OperationMode → Bool
  gateIsInTransition : Bool
  controlModeReport : ControlMode
  prevState : Option OperationModeState
  compatibility : Compatibility
  compatibilityTransition : Option Time
  created : Nat
  sent : Nat
  pendingRequests : List ControlModeRequest

instance exceptDecidableEq {ε α : Type} [DecidableEq ε] [DecidableEq α] : DecidableEq (Except ε α)
  | .error failure, .error other =>
    decidable_of_iff (failure = other) ⟨congrArg _, Except.error.inj⟩
  | .ok value, .ok other => decidable_of_iff (value = other) ⟨congrArg _, Except.ok.inj⟩
  | .error _, .ok _ => isFalse nofun
  | .ok _, .error _ => isFalse nofun

namespace OperationModeTransitionManager

/-- What the node publishes, requests and answers. -/
inductive Output where
  | controlModeRequest (mode : ControlModeCommand)
  | operationModeState (stamp : Time) (state : OperationModeState)
  | debugInfo (stamp : Time) (currentState previousState : String)
  | compatibility (output : Compatibility.Output)
  | response (result : Except ServiceError Unit)
  deriving DecidableEq

def compatibilityTimeout : ℚ := 1

/-- The constructor, with the parameters `transition_timeout` and
`stable_check.duration`. -/
def initial (transitionTimeout stableDuration : ℚ) : OperationModeTransitionManager where
  transitionTimeout :=
    if transitionTimeout < stableDuration + 1 / 2 then stableDuration + 1 / 2
    else transitionTimeout
  currentMode := .stop
  transition := none
  availableModeChange := fun _ => false
  gateIsInTransition := false
  controlModeReport := .noCommand
  prevState := none
  compatibility := .initial
  compatibilityTransition := none
  created := 0
  sent := 0
  pendingRequests := []

variable (self : OperationModeTransitionManager)

/-- `control_mode_report_.mode == ControlModeReport::AUTONOMOUS`. -/
def currentControl : Bool :=
  decide (self.controlModeReport = .autonomous)

/-- `transition_ = std::make_unique<Transition>(now(), control, previous)`. -/
def makeTransition (now : Time) (control : Bool)
    (previous : Option OperationMode) : OperationModeTransitionManager :=
  { self with
    transition := some ⟨self.created, now, previous, control, false, false⟩
    created := self.created + 1 }

def changeControlMode (mode : ControlModeCommand) : OperationModeTransitionManager × List Output :=
  ({ self with
      sent := self.sent + 1
      pendingRequests := self.pendingRequests ++
        [⟨self.sent, mode, self.transition.map Transition.serial, self.created⟩] },
    [.controlModeRequest mode])

/-- Without a mode the request is to enable the control by Autoware.  The state
that is returned with an exception is the state in which it is thrown. -/
def changeOperationMode (requestMode : Option OperationMode) (now : Time) :
    Except ServiceError Unit × OperationModeTransitionManager :=
  let currentControl := self.currentControl
  let requestControl := requestMode.isNone
  if some self.currentMode = requestMode then
    (throw (.noEffect "The mode is the same as the current."), self)
  else if currentControl ∧ requestControl then
    (throw (.noEffect "Autoware already controls the vehicle."), self)
  else if self.transition.isSome ∧ requestMode ≠ some .stop then
    (throw (.inTransition "The mode transition is in progress."), self)
  else
    let mode := requestMode.getD self.currentMode
    -- The transition mode is entered if the vehicle is or will be controlled.
    if currentControl ∨ requestControl then
      if self.availableModeChange mode = false then
        (throw (.notAvailable "The mode change condition is not satisfied."), self)
      else
        let opened :=
          if requestControl then self.makeTransition now requestControl none
          else self.makeTransition now requestControl (some self.currentMode)
        (return, { opened with compatibilityTransition := some now, currentMode := mode })
    else
      (return, { self with compatibilityTransition := some now, currentMode := mode })

def onChangeOperationMode (mode : OperationMode.ServiceMode) (now : Time) :
    Except ServiceError Unit × OperationModeTransitionManager :=
  match OperationMode.toEnum mode with
  | none => (throw (.parameterError "The operation mode is invalid."), self)
  | some mode => self.changeOperationMode (some mode) now

/-- Allow control to be given up without canceling the change of the mode. -/
def disengage : OperationModeTransitionManager × List Output :=
  { self with compatibilityTransition := none, transition := none }.changeControlMode .manual

/-! ## The timer -/

def cancelTransition (transition : Transition)
    (now : Time) : OperationModeTransitionManager × List Output :=
  match transition.previous with
  | some previous =>
    ({ self with
        compatibilityTransition := some now
        currentMode := previous
        transition := none }, [])
  | none =>
    let (self, outputs) :=
      { self with compatibilityTransition := none }.changeControlMode .manual
    ({ self with transition := none }, outputs)

def processTransition (transition : Transition) (autonomousMode : AutonomousMode) (now : Time) :
    OperationModeTransitionManager × List Output :=
  let currentControl := self.currentControl
  if self.transitionTimeout < seconds (now - transition.time) then
    self.cancelTransition transition now
  else if transition.isEngageFailed then
    self.cancelTransition transition now
  else if currentControl = false ∧ transition.isEngageCompleted then
    self.cancelTransition transition now
  else
    let transition :=
      if currentControl then { transition with isEngageCompleted := true } else transition
    let self := { self with transition := some transition }
    if some self.currentMode ≠ self.compatibility.getMode then (self, [])
    else if currentControl then
      if autonomousMode.completed self.currentMode then
        ({ self with transition := none }, [])
      else (self, [])
    else if transition.isEngageRequested ∧ self.gateIsInTransition then
      { self with
        transition := some { transition with isEngageRequested := false }
      }.changeControlMode .autonomous
    else (self, [])

def checkCompatibilityTimeout (now : Time) :
    OperationModeTransitionManager :=
  match self.compatibilityTransition with
  | some started =>
    if compatibilityTimeout < seconds (now - started) then
      { self with compatibilityTransition := none }
    else self
  | none => self

/-- Set the mode of the compatible interface while it is synchronized, and adopt
its mode otherwise. -/
def reflectMode : OperationModeTransitionManager × List Output :=
  match self.compatibilityTransition with
  | some _ =>
    let (compatibility, outputs) := self.compatibility.setMode self.currentMode
    ({ self with compatibility := compatibility }, outputs.map .compatibility)
  | none =>
    ({ self with currentMode := self.compatibility.getMode.getD self.currentMode }, [])

def resetCompatibilityTransition :
    OperationModeTransitionManager :=
  match self.compatibilityTransition with
  | some _ =>
    if some self.currentMode = self.compatibility.getMode then
      { self with compatibilityTransition := none }
    else self
  | none => self

def operationModeState : OperationModeState where
  mode := self.currentMode
  isAutowareControlEnabled := self.currentControl
  isInTransition := self.transition.isSome
  isStopModeAvailable := self.availableModeChange .stop
  isAutonomousModeAvailable := self.availableModeChange .autonomous
  isLocalModeAvailable := self.availableModeChange .localMode
  isRemoteModeAvailable := self.availableModeChange .remoteMode

def publishData (now : Time) : OperationModeTransitionManager × List Output :=
  let state := self.operationModeState
  let debugInfo := Output.debugInfo now (OperationMode.toString (some self.currentMode))
    (match self.transition with
      | some transition => OperationMode.toString transition.previous
      | none => "NONE")
  if self.prevState ≠ some state then
    ({ self with prevState := some state }, [.operationModeState now state, debugInfo])
  else (self, [debugInfo])

def synchronize (autonomousMode : AutonomousMode)
    (now : Time) : OperationModeTransitionManager × List Output :=
  let self := { self with availableModeChange := autonomousMode.available }
  let (self, reflected) := (self.checkCompatibilityTimeout now).reflectMode
  (self.resetCompatibilityTransition, reflected)

def onTimer (autonomousMode : AutonomousMode)
    (now : Time) : OperationModeTransitionManager × List Output :=
  let (self, reflected) := self.synchronize autonomousMode now
  let (self, processed) :=
    match self.transition with
    | some transition => self.processTransition transition autonomousMode now
    | none => (self, [])
  let (self, published) := self.publishData now
  (self, reflected ++ processed ++ published)

/-! ## Events -/

/-- The messages, requests, responses and ticks that the node handles. -/
inductive Event where
  | changeAutowareControl (now : Time) (autowareControl : Bool)
  | changeOperationMode (now : Time) (mode : OperationMode.ServiceMode)
  | timer (now : Time) (autonomousMode : AutonomousMode)
  | controlModeReport (mode : ControlMode)
  | gateOperationMode (isInTransition : Bool)
  | controlModeResponse (request : ControlModeRequest) (success : Bool)
  | autowareEngage (engage : Bool)
  | gateMode (mode : GateMode)
  | selectorMode (mode : SelectorMode)
  | selectorResponse
  deriving DecidableEq

def serve (result : Except ServiceError Unit × OperationModeTransitionManager) :
    OperationModeTransitionManager × List Output :=
  (result.2, [.response result.1])

def onChangeAutowareControl (autowareControl : Bool)
    (now : Time) : OperationModeTransitionManager × List Output :=
  if autowareControl then
    serve (self.changeOperationMode none now)
  else
    let (self, outputs) := self.disengage
    (self, outputs ++ [.response (return)])

/-- The callback of a response: a rejection fails whatever transition is current. -/
def onControlModeResponse
    (request : ControlModeRequest) (success : Bool) : OperationModeTransitionManager :=
  let self := { self with pendingRequests := self.pendingRequests.erase request }
  if success then self
  else
    { self with
      transition := self.transition.map fun transition =>
        { transition with isEngageFailed := true } }

def handle : Event → OperationModeTransitionManager × List Output
  | .changeAutowareControl now autowareControl =>
    self.onChangeAutowareControl autowareControl now
  | .changeOperationMode now mode => serve (self.onChangeOperationMode mode now)
  | .timer now autonomousMode => self.onTimer autonomousMode now
  | .controlModeReport mode => ({ self with controlModeReport := mode }, [])
  | .gateOperationMode isInTransition =>
    ({ self with gateIsInTransition := isInTransition }, [])
  | .controlModeResponse request success => (self.onControlModeResponse request success, [])
  | .autowareEngage engage =>
    ({ self with compatibility := { self.compatibility with autowareEngage := some engage } },
      [])
  | .gateMode mode =>
    ({ self with compatibility := { self.compatibility with gateMode := some mode } }, [])
  | .selectorMode mode =>
    ({ self with compatibility := { self.compatibility with selectorMode := some mode } },
      [])
  | .selectorResponse =>
    ({ self with compatibility := { self.compatibility with isCallingService := false } },
      [])

/-- A response answers a request that has not been answered. -/
def Received (before : OperationModeTransitionManager) (label : Event × List Output)
    (_ : OperationModeTransitionManager) : Prop :=
  match label.1 with
  | .controlModeResponse request _ => request ∈ before.pendingRequests
  | .selectorResponse => before.compatibility.isCallingService = true
  | _ => True

def Step : OperationModeTransitionManager → Event × List Output →
    OperationModeTransitionManager → Prop :=
  Guarded (OfFunction handle) Received

instance (before : OperationModeTransitionManager) (label : Event × List Output)
    (after : OperationModeTransitionManager) : Decidable (Received before label after) :=
  match label with
  | (.controlModeResponse request _, _) =>
    inferInstanceAs (Decidable (request ∈ before.pendingRequests))
  | (.selectorResponse, _) =>
    inferInstanceAs (Decidable (before.compatibility.isCallingService = true))
  | (.changeAutowareControl _ _, _) | (.changeOperationMode _ _, _) | (.timer _ _, _)
  | (.controlModeReport _, _) | (.gateOperationMode _, _) | (.autowareEngage _, _)
  | (.gateMode _, _) | (.selectorMode _, _) => .isTrue trivial

theorem step_deterministic : Deterministic Step :=
  fun _ _ _ _ hfirst hsecond => OfFunction.deterministic handle hfirst.1 hsecond.1

end OperationModeTransitionManager

end AutowareUniverse.Control

namespace AutowareUniverse.Control.OperationModeTransitionManager

open Library.Runs Messages

section

section

/-- The state after a request that was accepted. -/
inductive Accepted (self : OperationModeTransitionManager) (now : Time) :
    Option OperationMode → OperationModeTransitionManager → Prop where
  | engage (hcontrol : self.currentControl = false) (hidle : self.transition = none)
      (havailable : self.availableModeChange self.currentMode = true) :
      Accepted self now none
        { self.makeTransition now true none with compatibilityTransition := some now }
  | change {mode : OperationMode} (hcontrol : self.currentControl = true)
      (hidle : self.transition = none ∨ mode = .stop)
      (havailable : self.availableModeChange mode = true) :
      Accepted self now (some mode)
        { self.makeTransition now false (some self.currentMode) with
          compatibilityTransition := some now
          currentMode := mode }
  | changeAtOnce {mode : OperationMode} (hcontrol : self.currentControl = false)
      (hidle : self.transition = none ∨ mode = .stop) :
      Accepted self now (some mode)
        { self with compatibilityTransition := some now, currentMode := mode }

variable (self : OperationModeTransitionManager)

theorem changeOperationMode_cases (requestMode : Option OperationMode) (now : Time) :
    (∃ failure, self.changeOperationMode requestMode now = (.error failure, self)) ∨
      ∃ after, self.changeOperationMode requestMode now = (.ok (), after) ∧
        Accepted self now requestMode after := by
  unfold changeOperationMode
  dsimp only
  by_cases hsame : some self.currentMode = requestMode
  · rw [if_pos hsame]
    exact .inl ⟨_, rfl⟩
  rw [if_neg hsame]
  by_cases hboth : self.currentControl = true ∧ requestMode.isNone = true
  · rw [if_pos hboth]
    exact .inl ⟨_, rfl⟩
  rw [if_neg hboth]
  by_cases hbusy : self.transition.isSome = true ∧ requestMode ≠ some .stop
  · rw [if_pos hbusy]
    exact .inl ⟨_, rfl⟩
  rw [if_neg hbusy]
  cases requestMode with
  | none =>
    have hcontrol : self.currentControl = false := by simpa using hboth
    have hidle : self.transition = none := by simpa using hbusy
    cases havailable : self.availableModeChange self.currentMode with
    | false => exact .inl ⟨_, by simp [havailable]; rfl⟩
    | true =>
      refine .inr ⟨_, ?_, .engage hcontrol hidle havailable⟩
      simp [havailable]
      exact ⟨rfl, rfl⟩
  | some mode =>
    have hidle : self.transition = none ∨ mode = .stop := by
      cases htransition : self.transition with
      | none => exact .inl rfl
      | some transition => exact .inr (by simpa [htransition] using hbusy)
    cases hcontrol : self.currentControl with
    | false =>
      refine .inr ⟨_, ?_, .changeAtOnce hcontrol hidle⟩
      simp
      rfl
    | true =>
      cases havailable : self.availableModeChange mode with
      | false => exact .inl ⟨_, by simp [havailable]; rfl⟩
      | true =>
        refine .inr ⟨_, ?_, .change hcontrol hidle havailable⟩
        simp [havailable]
        rfl

/-! ## The timer -/

inductive Processed (self : OperationModeTransitionManager) (transition : Transition)
    (now : Time) : OperationModeTransitionManager → List Output → Prop where
  | restored {previous : OperationMode} (hprevious : transition.previous = some previous) :
      Processed self transition now
        { self with
          compatibilityTransition := some now
          currentMode := previous
          transition := none } []
  | released (hprevious : transition.previous = none) :
      Processed self transition now
        { ({ self with compatibilityTransition := none }.changeControlMode .manual).1 with
          transition := none } [.controlModeRequest .manual]
  | kept (completed : Bool)
      (hrecent : seconds (now - transition.time) ≤ self.transitionTimeout) :
      Processed self transition now
        { self with transition := some { transition with isEngageCompleted := completed } } []
  | completed (hcontrol : self.currentControl = true)
      (hmode : some self.currentMode = self.compatibility.getMode) :
      Processed self transition now { self with transition := none } []
  | engaged (hrequested : transition.isEngageRequested = true)
      (hmode : some self.currentMode = self.compatibility.getMode)
      (hrecent : seconds (now - transition.time) ≤ self.transitionTimeout) :
      Processed self transition now
        ({ self with
          transition := some { transition with isEngageRequested := false }
        }.changeControlMode .autonomous).1 [.controlModeRequest .autonomous]

theorem cancelTransition_processed (transition : Transition) (now : Time) :
    Processed self transition now (self.cancelTransition transition now).1
      (self.cancelTransition transition now).2 := by
  unfold cancelTransition
  cases hprevious : transition.previous with
  | some previous => exact .restored hprevious
  | none => exact .released hprevious

theorem processTransition_processed {transition : Transition}
    (htransition : self.transition = some transition) (autonomousMode : AutonomousMode) (now : Time) :
    Processed self transition now (self.processTransition transition autonomousMode now).1
      (self.processTransition transition autonomousMode now).2 := by
  unfold processTransition
  dsimp only
  by_cases htimeout : self.transitionTimeout < seconds (now - transition.time)
  · rw [if_pos htimeout]
    exact cancelTransition_processed self transition now
  rw [if_neg htimeout]
  have hrecent := not_lt.mp htimeout
  by_cases hfailed : transition.isEngageFailed = true
  · rw [if_pos hfailed]
    exact cancelTransition_processed self transition now
  rw [if_neg hfailed]
  by_cases hoverride : self.currentControl = false ∧ transition.isEngageCompleted = true
  · rw [if_pos hoverride]
    exact cancelTransition_processed self transition now
  rw [if_neg hoverride]
  cases hcontrol : self.currentControl with
  | true =>
    by_cases hmode : some self.currentMode = self.compatibility.getMode
    · simp only [ne_eq, hmode, not_true_eq_false, if_false, if_true]
      split
      · exact .completed hcontrol hmode
      · exact .kept true hrecent
    · simp only [ne_eq, hmode, not_false_eq_true, if_true]
      exact .kept true hrecent
  | false =>
    have hkept : Processed self transition now self [] := by
      have hsame : { self with transition := some transition } = self := by
        rw [← htransition]
      rw [← hsame]
      exact .kept transition.isEngageCompleted hrecent
    have hsame : { self with transition := some transition } = self := by
      rw [← htransition]
    simp only [Bool.false_eq_true, if_false]
    rw [hsame]
    by_cases hmode : some self.currentMode = self.compatibility.getMode
    · rw [if_neg (not_not.mpr hmode)]
      split
      · rename_i hengage
        exact .engaged hengage.1 hmode hrecent
      · exact hkept
    · rw [if_pos hmode]
      exact hkept

structure Synchronized (before after : OperationModeTransitionManager) : Prop where
  transition : after.transition = before.transition
  transitionTimeout : after.transitionTimeout = before.transitionTimeout
  controlModeReport : after.controlModeReport = before.controlModeReport
  created : after.created = before.created
  pendingRequests : after.pendingRequests = before.pendingRequests
  getMode : after.compatibility.getMode = before.compatibility.getMode
  currentMode : after.currentMode = before.currentMode ∨
    before.compatibility.getMode = some after.currentMode

namespace Synchronized

theorem refl (self : OperationModeTransitionManager) : Synchronized self self :=
  ⟨rfl, rfl, rfl, rfl, rfl, rfl, .inl rfl⟩

theorem trans {first second third : OperationModeTransitionManager}
    (hfirst : Synchronized first second) (hsecond : Synchronized second third) :
    Synchronized first third where
  transition := hsecond.transition.trans hfirst.transition
  transitionTimeout := hsecond.transitionTimeout.trans hfirst.transitionTimeout
  controlModeReport := hsecond.controlModeReport.trans hfirst.controlModeReport
  created := hsecond.created.trans hfirst.created
  pendingRequests := hsecond.pendingRequests.trans hfirst.pendingRequests
  getMode := hsecond.getMode.trans hfirst.getMode
  currentMode := by
    rcases hsecond.currentMode with hsame | hadopted
    · rw [hsame]
      exact hfirst.currentMode
    · exact .inr (hfirst.getMode.symm.trans hadopted)

theorem checkCompatibilityTimeout (now : Time) :
    Synchronized self (self.checkCompatibilityTimeout now) := by
  unfold OperationModeTransitionManager.checkCompatibilityTimeout
  split
  · split
    · exact ⟨rfl, rfl, rfl, rfl, rfl, rfl, .inl rfl⟩
    · exact .refl self
  · exact .refl self

theorem reflectMode :
    Synchronized self self.reflectMode.1 := by
  unfold OperationModeTransitionManager.reflectMode
  split
  · exact ⟨rfl, rfl, rfl, rfl, rfl, Compatibility.getMode_setMode _ _, .inl rfl⟩
  · refine ⟨rfl, rfl, rfl, rfl, rfl, rfl, ?_⟩
    cases hmode : self.compatibility.getMode with
    | none => exact .inl rfl
    | some mode => exact .inr rfl

theorem resetCompatibilityTransition :
    Synchronized self self.resetCompatibilityTransition := by
  unfold OperationModeTransitionManager.resetCompatibilityTransition
  split
  · split
    · exact ⟨rfl, rfl, rfl, rfl, rfl, rfl, .inl rfl⟩
    · exact .refl self
  · exact .refl self

theorem synchronize (autonomousMode : AutonomousMode)
    (now : Time) : Synchronized self (self.synchronize autonomousMode now).1 := by
  have havailable : Synchronized self
      { self with availableModeChange := autonomousMode.available } :=
    ⟨rfl, rfl, rfl, rfl, rfl, rfl, .inl rfl⟩
  exact ((havailable.trans (checkCompatibilityTimeout _ now)).trans (reflectMode _)).trans
    (resetCompatibilityTransition _)

end Synchronized

/-- The output is a request to the vehicle or the response of a service. -/
def Output.isSignal : Output → Bool
  | .controlModeRequest _ => true
  | .response _ => true
  | _ => false

/-- The requests to the vehicle and the responses of the services. -/
def signals (outputs : List Output) : List Output :=
  outputs.filter Output.isSignal

theorem mem_signals {outputs : List Output} {output : Output} (hmem : output ∈ outputs)
    (hsignal : output.isSignal = true) : output ∈ signals outputs :=
  List.mem_filter.mpr ⟨hmem, hsignal⟩

inductive Ticked (before : OperationModeTransitionManager) (now : Time) :
    List Output → OperationModeTransitionManager → Prop where
  | idle {synchronized : OperationModeTransitionManager}
      {prevState : Option OperationModeState} (hidle : before.transition = none)
      (hsynchronized : Synchronized before synchronized) :
      Ticked before now [] { synchronized with prevState := prevState }
  | processed {synchronized after : OperationModeTransitionManager}
      {transition : Transition} {requested : List Output}
      {prevState : Option OperationModeState}
      (htransition : before.transition = some transition)
      (hsynchronized : Synchronized before synchronized)
      (hprocessed : Processed synchronized transition now after requested) :
      Ticked before now requested { after with prevState := prevState }

theorem Processed.signals {self after : OperationModeTransitionManager}
    {transition : Transition} {now : Time} {requested : List Output}
    (hprocessed : Processed self transition now after requested) :
    signals requested = requested := by
  cases hprocessed with
  | restored _ => rfl
  | released _ => rfl
  | kept _ _ => rfl
  | completed _ _ => rfl
  | engaged _ _ _ => rfl

theorem signals_synchronize (autonomousMode : AutonomousMode) (now : Time) :
    signals (self.synchronize autonomousMode now).2 = [] := by
  have hreflect (self : OperationModeTransitionManager) : signals self.reflectMode.2 = [] := by
    unfold reflectMode signals
    split
    · simp [Output.isSignal]
    · rfl
  exact hreflect _

theorem publishData_eq (now : Time) :
    (∃ prevState, (self.publishData now).1 = { self with prevState := prevState }) ∧
      signals (self.publishData now).2 = [] := by
  unfold publishData
  dsimp only
  split
  · exact ⟨⟨_, rfl⟩, rfl⟩
  · exact ⟨⟨self.prevState, rfl⟩, rfl⟩

theorem onTimer_ticked (autonomousMode : AutonomousMode) (now : Time) :
    Ticked self now (signals (self.onTimer autonomousMode now).2)
      (self.onTimer autonomousMode now).1 := by
  have hsynchronized := Synchronized.synchronize self autonomousMode now
  have hreflected := signals_synchronize self autonomousMode now
  unfold onTimer
  dsimp only
  cases htransition : (self.synchronize autonomousMode now).1.transition with
  | none =>
    obtain ⟨⟨prevState, hpublish⟩, hpublished⟩ :=
      publishData_eq (self.synchronize autonomousMode now).1 now
    dsimp only
    rw [hpublish]
    have hsignals : signals ((self.synchronize autonomousMode now).2 ++ [] ++
        ((self.synchronize autonomousMode now).1.publishData now).2) = [] := by
      unfold signals at hreflected hpublished ⊢
      rw [List.filter_append, List.filter_append, hreflected, hpublished]
      rfl
    rw [hsignals]
    exact .idle (hsynchronized.transition.symm.trans htransition) hsynchronized
  | some transition =>
    have hprocessed := processTransition_processed (self.synchronize autonomousMode now).1
      htransition autonomousMode now
    obtain ⟨⟨prevState, hpublish⟩, hpublished⟩ := publishData_eq
      ((self.synchronize autonomousMode now).1.processTransition transition autonomousMode
        now).1 now
    have hrequested := hprocessed.signals
    dsimp only
    rw [hpublish]
    have hsignals : signals ((self.synchronize autonomousMode now).2 ++
        ((self.synchronize autonomousMode now).1.processTransition transition
          autonomousMode now).2 ++
        (((self.synchronize autonomousMode now).1.processTransition transition
          autonomousMode now).1.publishData now).2) =
        ((self.synchronize autonomousMode now).1.processTransition transition
          autonomousMode now).2 := by
      unfold signals at hreflected hpublished hrequested ⊢
      rw [List.filter_append, List.filter_append, hreflected, hpublished, hrequested,
        List.nil_append, List.append_nil]
    rw [hsignals]
    exact .processed (hsynchronized.transition.symm.trans htransition) hsynchronized hprocessed

/-! ## Steps -/

/-- The mode, the transition and the requests to the vehicle stay; at most a
request is taken off because it was answered. -/
structure Untouched (before after : OperationModeTransitionManager) : Prop where
  currentMode : after.currentMode = before.currentMode
  transition : after.transition = before.transition
  compatibilityTransition : after.compatibilityTransition = before.compatibilityTransition
  created : after.created = before.created
  pendingRequests : ∀ request ∈ after.pendingRequests, request ∈ before.pendingRequests

inductive Outcome (before : OperationModeTransitionManager) :
    Event → List Output → OperationModeTransitionManager → Prop where
  | untouched {event : Event} {sent : List Output} {after : OperationModeTransitionManager}
      (htimer : ∀ now autonomousMode, event ≠ .timer now autonomousMode)
      (hrejected : ∀ request, event ≠ .controlModeResponse request false)
      (hasks : ∀ mode, .controlModeRequest mode ∉ sent)
      (huntouched : Untouched before after) :
      Outcome before event sent after
  | engage {now : Time} {after : OperationModeTransitionManager}
      (haccepted : Accepted before now none after) :
      Outcome before (.changeAutowareControl now true) [.response (.ok ())] after
  | change {now : Time} {mode : OperationMode} {serviceMode : OperationMode.ServiceMode}
      {after : OperationModeTransitionManager}
      (hmode : OperationMode.toEnum serviceMode = some mode)
      (haccepted : Accepted before now (some mode) after) :
      Outcome before (.changeOperationMode now serviceMode) [.response (.ok ())] after
  | disengage {now : Time} :
      Outcome before (.changeAutowareControl now false)
        [.controlModeRequest .manual, .response (.ok ())] before.disengage.1
  | ticked {now : Time} {autonomousMode : AutonomousMode} {sent : List Output}
      {after : OperationModeTransitionManager} (hticked : Ticked before now sent after) :
      Outcome before (.timer now autonomousMode) sent after
  | rejected {request : ControlModeRequest} (hpending : request ∈ before.pendingRequests) :
      Outcome before (.controlModeResponse request false) []
        (before.onControlModeResponse request false)

theorem Untouched.refl (self : OperationModeTransitionManager) : Untouched self self :=
  ⟨rfl, rfl, rfl, rfl, fun _ hmem => hmem⟩

theorem Step.outcome {before after : OperationModeTransitionManager} {event : Event}
    {outputs : List Output} (hstep : Step before (event, outputs) after) :
    Outcome before event (signals outputs) after := by
  obtain ⟨hhandle, hreceived⟩ := hstep
  have hmessage : ∀ {event : Event} {after : OperationModeTransitionManager},
      (∀ now autonomousMode, event ≠ .timer now autonomousMode) →
      (∀ request, event ≠ .controlModeResponse request false) →
      Untouched before after → Outcome before event [] after :=
    fun htimer hrejected huntouched =>
      .untouched htimer hrejected (fun _ => List.not_mem_nil) huntouched
  cases event with
  | changeAutowareControl now autowareControl =>
    cases autowareControl with
    | false =>
      cases hhandle
      exact .disengage
    | true =>
      rcases changeOperationMode_cases before none now with
        ⟨failure, hfailed⟩ | ⟨accepted, hok, haccepted⟩
      · have hserve : handle before (.changeAutowareControl now true) =
            (before, [.response (.error failure)]) := congrArg serve hfailed
        cases hserve.symm.trans hhandle
        exact .untouched (by simp) (by simp) (by simp [signals, Output.isSignal]) (.refl before)
      · have hserve : handle before (.changeAutowareControl now true) =
            (accepted, [.response (.ok ())]) := congrArg serve hok
        cases hserve.symm.trans hhandle
        exact .engage haccepted
  | changeOperationMode now serviceMode =>
    have hfailing : ∀ failure, before.onChangeOperationMode serviceMode now =
        (.error failure, before) →
        Outcome before (.changeOperationMode now serviceMode) (signals outputs) after := by
      intro failure hfailed
      have hserve : handle before (.changeOperationMode now serviceMode) =
          (before, [.response (.error failure)]) := congrArg serve hfailed
      cases hserve.symm.trans hhandle
      exact .untouched (by simp) (by simp) (by simp [signals, Output.isSignal]) (.refl before)
    cases hmode : OperationMode.toEnum serviceMode with
    | none =>
      refine hfailing (.parameterError "The operation mode is invalid.") ?_
      unfold onChangeOperationMode
      rw [hmode]
      rfl
    | some mode =>
      have hrequest : before.onChangeOperationMode serviceMode now =
          before.changeOperationMode (some mode) now := by
        unfold onChangeOperationMode
        rw [hmode]
      rcases changeOperationMode_cases before (some mode) now with
        ⟨failure, hfailed⟩ | ⟨accepted, hok, haccepted⟩
      · exact hfailing failure (hrequest.trans hfailed)
      · have hserve : handle before (.changeOperationMode now serviceMode) =
            (accepted, [.response (.ok ())]) := congrArg serve (hrequest.trans hok)
        cases hserve.symm.trans hhandle
        exact .change hmode haccepted
  | timer now autonomousMode =>
    cases hhandle
    exact .ticked (onTimer_ticked before autonomousMode now)
  | controlModeReport mode =>
    cases hhandle
    exact hmessage (by simp) (by simp) ⟨rfl, rfl, rfl, rfl, fun _ hmem => hmem⟩
  | gateOperationMode isInTransition =>
    cases hhandle
    exact hmessage (by simp) (by simp) ⟨rfl, rfl, rfl, rfl, fun _ hmem => hmem⟩
  | controlModeResponse request success =>
    cases hhandle
    cases success with
    | false => exact .rejected hreceived
    | true =>
      exact hmessage (by simp) (by simp)
        ⟨rfl, rfl, rfl, rfl, fun _ hmem => List.mem_of_mem_erase hmem⟩
  | autowareEngage engage =>
    cases hhandle
    exact hmessage (by simp) (by simp) ⟨rfl, rfl, rfl, rfl, fun _ hmem => hmem⟩
  | gateMode mode =>
    cases hhandle
    exact hmessage (by simp) (by simp) ⟨rfl, rfl, rfl, rfl, fun _ hmem => hmem⟩
  | selectorMode mode =>
    cases hhandle
    exact hmessage (by simp) (by simp) ⟨rfl, rfl, rfl, rfl, fun _ hmem => hmem⟩
  | selectorResponse =>
    cases hhandle
    exact hmessage (by simp) (by simp) ⟨rfl, rfl, rfl, rfl, fun _ hmem => hmem⟩

end

/-!
## How transitions begin and end

Over every run the transition in progress was opened by a request: either to
enable the control in a mode that was available, or to change the mode while
Autoware controls the vehicle, in which case the mode before is remembered.
From this follows what ends a transition and when the vehicle is asked for the
control.  A stop request replaces a transition under control, and changes the
mode of an engagement that waits for the gate.
-/

/-! ## The request that opened a transition -/

/-- The event opened the transition at a position of the run: from the state
`start` into the state `opened`, with the labels `late` after it. -/
structure Opening (first : OperationModeTransitionManager)
    (labels : List (Event × List Output)) (transition : Transition) (event : Event)
    (start opened : OperationModeTransitionManager) (late : List (Event × List Output)) :
    Prop where
  position : ∃ early outputs, labels = early ++ (event, outputs) :: late ∧
    Run Step first early start ∧ Step start (event, outputs) opened
  serial : transition.serial = start.created

/-- A step of the run changes the mode, by a stop request or by adopting the mode
of the compatible interface. -/
def ModeRewritten (first : OperationModeTransitionManager)
    (labels : List (Event × List Output)) : Prop :=
  ∃ early label late before after, labels = early ++ label :: late ∧
    Run Step first early before ∧ Step before label after ∧
    after.currentMode ≠ before.currentMode ∧
    ((∃ now, label.1 = .changeOperationMode now .stop) ∨
      ∃ now autonomousMode, label.1 = .timer now autonomousMode ∧
        before.compatibility.getMode = some after.currentMode)

/-- The transition enables the control in the mode in which it was requested,
unless the mode has been rewritten since. -/
structure Engaging (first : OperationModeTransitionManager)
    (labels : List (Event × List Output)) (transition : Transition)
    (last : OperationModeTransitionManager) (now : Time)
    (start opened : OperationModeTransitionManager) (late : List (Event × List Output)) :
    Prop where
  opening : Opening first labels transition (.changeAutowareControl now true) start opened late
  run : Run Step opened late last
  previous : transition.previous = none
  available : start.availableModeChange start.currentMode = true
  currentMode : last.currentMode = start.currentMode ∨ ModeRewritten opened late

structure Changing (first : OperationModeTransitionManager)
    (labels : List (Event × List Output)) (transition : Transition) (now : Time)
    (serviceMode : OperationMode.ServiceMode) (start opened : OperationModeTransitionManager)
    (late : List (Event × List Output)) : Prop where
  opening : Opening first labels transition (.changeOperationMode now serviceMode) start
    opened late
  previous : transition.previous = some start.currentMode
  isEngageRequested : transition.isEngageRequested = false

/-- The transition in progress was opened in the run. -/
def Traced (first : OperationModeTransitionManager) (labels : List (Event × List Output))
    (self : OperationModeTransitionManager) : Prop :=
  ∀ transition, self.transition = some transition → (∃ now start opened late,
      Engaging first labels transition self now start opened late) ∨
      ∃ now serviceMode start opened late,
        Changing first labels transition now serviceMode start opened late

structure Continues (before : OperationModeTransitionManager) (label : Event × List Output)
    (after : OperationModeTransitionManager) (transition later : Transition) : Prop where
  inProgress : before.transition = some transition
  serial : later.serial = transition.serial
  previous : later.previous = transition.previous
  isEngageRequested : later.isEngageRequested = true → transition.isEngageRequested = true
  currentMode : after.currentMode = before.currentMode ∨
    (∃ now, label.1 = .changeOperationMode now .stop) ∨
      ∃ now autonomousMode, label.1 = .timer now autonomousMode ∧
        before.compatibility.getMode = some after.currentMode

section

variable {first before after : OperationModeTransitionManager} {labels : List (Event × List Output)}
  {label : Event × List Output} {transition later : Transition}
  {start opened : OperationModeTransitionManager} {late : List (Event × List Output)}

theorem Opening.concat {event : Event}
    (hopening : Opening first labels transition event start opened late)
    (hserial : later.serial = transition.serial) :
    Opening first (labels ++ [label]) later event start opened (late ++ [label]) := by
  obtain ⟨⟨early, outputs, rfl, hearly, hstep⟩, hcreated⟩ := hopening
  exact ⟨⟨early, outputs, by simp, hearly, hstep⟩, hserial.trans hcreated⟩

theorem Opening.last {event : Event} {outputs : List Output} (hrun : Run Step first labels before)
    (hstep : Step before (event, outputs) after) (hserial : transition.serial = before.created) :
    Opening first (labels ++ [(event, outputs)]) transition event before after [] :=
  ⟨⟨labels, outputs, rfl, hrun, hstep⟩, hserial⟩

theorem ModeRewritten.concat (hrewritten : ModeRewritten first labels) :
    ModeRewritten first (labels ++ [label]) := by
  obtain ⟨early, rewriting, late, middle, next, rfl, hrest⟩ := hrewritten
  exact ⟨early, rewriting, late ++ [label], middle, next, by simp, hrest⟩

/-- A step under which the transition goes on keeps the mode or rewrites it. -/
theorem Engaging.concat {now : Time}
    (hengaging : Engaging first labels transition before now start opened late)
    (hstep : Step before label after) (hcontinues : Continues before label after transition later) :
    Engaging first (labels ++ [label]) later after now start opened (late ++ [label]) where
  opening := hengaging.opening.concat hcontinues.serial
  run := hengaging.run.append (.single hstep)
  previous := hcontinues.previous.trans hengaging.previous
  available := hengaging.available
  currentMode := by
    rcases hengaging.currentMode with hsame | hrewritten
    · by_cases hmode : after.currentMode = before.currentMode
      · exact .inl (hmode.trans hsame)
      · exact .inr ⟨late, label, [], before, after, rfl, hengaging.run, hstep, hmode,
          hcontinues.currentMode.resolve_left hmode⟩
    · exact .inr hrewritten.concat

theorem Changing.concat {now : Time} {serviceMode : OperationMode.ServiceMode}
    (hchanging : Changing first labels transition now serviceMode start opened late)
    (hcontinues : Continues before label after transition later) :
    Changing first (labels ++ [label]) later now serviceMode start opened
      (late ++ [label]) where
  opening := hchanging.opening.concat hcontinues.serial
  previous := hcontinues.previous.trans hchanging.previous
  isEngageRequested := by
    cases hrequested : later.isEngageRequested with
    | false => rfl
    | true =>
      have hbefore := hcontinues.isEngageRequested hrequested
      exact hbefore.symm.trans hchanging.isEngageRequested

end

/-! ## Steps -/

theorem toEnum_eq_stop {serviceMode : OperationMode.ServiceMode}
    (hmode : OperationMode.toEnum serviceMode = some .stop) : serviceMode = .stop := by
  cases serviceMode with
  | stop => rfl
  | autonomous => cases hmode
  | localMode => cases hmode
  | remoteMode => cases hmode
  | unknown _ => cases hmode

variable {now : Time}

theorem Processed.continues {before synchronized after : OperationModeTransitionManager}
    {transition later : Transition} {sent : List Output} (autonomousMode : AutonomousMode)
    (outputs : List Output) (htransition : before.transition = some transition)
    (hsynchronized : Synchronized before synchronized)
    (hprocessed : Processed synchronized transition now after sent)
    (hlater : after.transition = some later) :
    Continues before (.timer now autonomousMode, outputs) after transition later := by
  have hmode : synchronized.currentMode = before.currentMode ∨
      (∃ time, Event.timer now autonomousMode = .changeOperationMode time .stop) ∨
        ∃ time mode, Event.timer now autonomousMode = .timer time mode ∧
          before.compatibility.getMode = some synchronized.currentMode := by
    rcases hsynchronized.currentMode with hsame | hadopted
    · exact .inl hsame
    · exact .inr (.inr ⟨now, autonomousMode, rfl, hadopted⟩)
  cases hprocessed with
  | restored _ => cases hlater
  | released _ => cases hlater
  | kept _ _ =>
    cases hlater
    exact ⟨htransition, rfl, rfl, id, hmode⟩
  | completed _ _ => cases hlater
  | engaged _ _ _ =>
    cases hlater
    exact ⟨htransition, rfl, rfl, (fun hfalse => by cases hfalse), hmode⟩

theorem Step.traced {first before after : OperationModeTransitionManager}
    {labels : List (Event × List Output)} {label : Event × List Output}
    (hrun : Run Step first labels before) (hstep : Step before label after)
    (htraced : Traced first labels before) : Traced first (labels ++ [label]) after := by
  intro later hlater
  obtain ⟨event, outputs⟩ := label
  suffices hcases : (∃ transition, Continues before (event, outputs) after transition later) ∨
      (∃ now, Engaging first (labels ++ [(event, outputs)]) later after now before after []) ∨
      ∃ now serviceMode, Changing first (labels ++ [(event, outputs)]) later now serviceMode
        before after [] by
    rcases hcases with ⟨transition, hcontinues⟩ | ⟨now, hengaging⟩ | ⟨now, mode, hchanging⟩
    · rcases htraced transition hcontinues.inProgress with
        ⟨now, start, opened, late, hengaging⟩ | ⟨now, mode, start, opened, late, hchanging⟩
      · exact .inl ⟨now, start, opened, _, hengaging.concat hstep hcontinues⟩
      · exact .inr ⟨now, mode, start, opened, _, hchanging.concat hcontinues⟩
    · exact .inl ⟨now, before, after, [], hengaging⟩
    · exact .inr ⟨now, mode, before, after, [], hchanging⟩
  have houtcome := hstep.outcome
  generalize signals outputs = sent at houtcome
  cases houtcome with
  | untouched _ _ _ huntouched =>
    refine .inl ⟨later, huntouched.transition.symm.trans hlater, rfl, rfl, id, ?_⟩
    exact .inl huntouched.currentMode
  | @engage now after haccepted =>
    cases haccepted with
    | engage _ _ havailable =>
      cases hlater
      exact .inr (.inl ⟨now, Opening.last hrun hstep rfl, .nil _, rfl, havailable, .inl rfl⟩)
  | @change now mode serviceMode after hmode haccepted =>
    cases haccepted with
    | change _ _ _ =>
      cases hlater
      exact .inr (.inr ⟨now, serviceMode, Opening.last hrun hstep rfl, rfl, rfl⟩)
    | changeAtOnce _ hidle =>
      have hstop : mode = .stop := by
        rcases hidle with hnone | hstop
        · cases hnone.symm.trans hlater
        · exact hstop
      subst hstop
      cases toEnum_eq_stop hmode
      exact .inl ⟨later, hlater, rfl, rfl, id, .inr (.inl ⟨now, rfl⟩)⟩
  | disengage => cases hlater
  | @ticked now autonomousMode sent after hticked =>
    cases hticked with
    | idle hidle hsynchronized =>
      have hnone := hsynchronized.transition.symm.trans hlater
      cases hidle.symm.trans hnone
    | @processed synchronized after transition sent _ htransition hsynchronized
        hprocessed =>
        obtain ⟨hbefore, hserial, hprevious, hrequested, hmode⟩ :=
          hprocessed.continues autonomousMode outputs htransition hsynchronized hlater
        exact .inl ⟨transition, hbefore, hserial, hprevious, hrequested, hmode⟩
  | rejected _ =>
    obtain ⟨transition, hbefore, rfl⟩ := Option.map_eq_some_iff.mp hlater
    exact .inl ⟨transition, hbefore, rfl, rfl, id, .inl rfl⟩

theorem traced_of_run {transitionTimeout stableDuration : ℚ}
    {labels : List (Event × List Output)} {self : OperationModeTransitionManager}
    (hrun : Run Step (initial transitionTimeout stableDuration) labels self) :
    Traced (initial transitionTimeout stableDuration) labels self := by
  refine Run.induction_last (motive := Traced (initial transitionTimeout stableDuration)) ?_ ?_ hrun
  · intro transition htransition
    cases htransition
  · intro labels before label after hearly ih hstep
    exact hstep.traced hearly ih

/-! ## What a step does to a transition -/

def Ended (transition : Transition) (self : OperationModeTransitionManager) : Prop :=
  ∀ later, self.transition = some later → later.serial ≠ transition.serial

/-- A transition ends by completion, by a request to give the control up, or by
cancellation, which restores the mode or asks for the manual control. -/
inductive EndsRegularly (first : OperationModeTransitionManager)
    (labels : List (Event × List Output)) (label : Event × List Output)
    (after : OperationModeTransitionManager) (transition : Transition) : Prop where
  | completed (now : Time) (autonomousMode : AutonomousMode)
      (htimer : label.1 = .timer now autonomousMode)
      (hcontrol : after.controlModeReport = .autonomous)
      (hmode : some after.currentMode = after.compatibility.getMode)
  | manual (now : Time) (hevent : label.1 = .changeAutowareControl now false)
      (hasks : .controlModeRequest .manual ∈ label.2)
  | restored (now : Time) (autonomousMode : AutonomousMode)
      (htimer : label.1 = .timer now autonomousMode)
      (hopening : ∃ event start opened late,
        Opening first labels transition event start opened late ∧
          after.currentMode = start.currentMode)
  | released (now : Time) (autonomousMode : AutonomousMode)
      (htimer : label.1 = .timer now autonomousMode)
      (hasks : .controlModeRequest .manual ∈ label.2)

def ReplacedByStop (before : OperationModeTransitionManager) (label : Event × List Output)
    (after : OperationModeTransitionManager) : Prop :=
  (∃ now, label.1 = .changeOperationMode now .stop) ∧
    before.controlModeReport = .autonomous ∧ after.currentMode = .stop ∧
    ∃ transition, after.transition = some transition ∧ transition.previous = some before.currentMode

/-- The control is asked for by a transition that was opened to enable it, in a
mode that was available then and is still the current mode. -/
def EngagesTarget (first : OperationModeTransitionManager)
    (labels : List (Event × List Output)) (before after : OperationModeTransitionManager) :
    Prop :=
  ∃ transition now start opened late, before.transition = some transition ∧
    Opening first labels transition (.changeAutowareControl now true) start opened late ∧
    start.availableModeChange start.currentMode = true ∧
    after.currentMode = start.currentMode

/-- As `EngagesTarget`, in the mode that the compatible interface has, and unless
the mode was rewritten between the request and the end of the tick. -/
def EngagesAvailable (first : OperationModeTransitionManager)
    (labels : List (Event × List Output)) (before : OperationModeTransitionManager)
    (label : Event × List Output) (after : OperationModeTransitionManager) : Prop :=
  ∃ transition now start opened late, before.transition = some transition ∧
    Opening first labels transition (.changeAutowareControl now true) start opened late ∧
    start.availableModeChange start.currentMode = true ∧
    some after.currentMode = after.compatibility.getMode ∧
    (after.currentMode = start.currentMode ∨ ModeRewritten opened (late ++ [label]))

/-- What holds of a step from a state that a run has reached. -/
structure TransitionLaw (first : OperationModeTransitionManager)
    (labels : List (Event × List Output)) (before : OperationModeTransitionManager)
    (label : Event × List Output) (after : OperationModeTransitionManager) : Prop where
  throws : ∀ failure, .response (.error failure) ∈ label.2 →
    after.currentMode = before.currentMode ∧ after.transition = before.transition ∧
      after.compatibilityTransition = before.compatibilityTransition
  timeout : ∀ now autonomousMode, label.1 = .timer now autonomousMode →
    ∀ transition, after.transition = some transition →
      seconds (now - transition.time) ≤ after.transitionTimeout
  ends : ∀ transition, before.transition = some transition → Ended transition after →
    EndsRegularly first labels label after transition ∨ ReplacedByStop before label after
  engages : .controlModeRequest .autonomous ∈ label.2 →
    EngagesAvailable first labels before label after

section

variable {first before after : OperationModeTransitionManager}
  {labels : List (Event × List Output)} {label : Event × List Output}

theorem Step.throws (hstep : Step before label after) {failure : ServiceError}
    (hfailed : .response (.error failure) ∈ label.2) :
    after.currentMode = before.currentMode ∧ after.transition = before.transition ∧
      after.compatibilityTransition = before.compatibilityTransition := by
  obtain ⟨event, outputs⟩ := label
  have hsent := mem_signals hfailed rfl
  have houtcome := hstep.outcome
  dsimp only at hsent
  generalize signals outputs = sent at houtcome hsent
  cases houtcome with
  | untouched _ _ _ huntouched =>
    exact ⟨huntouched.currentMode, huntouched.transition, huntouched.compatibilityTransition⟩
  | engage _ => simp at hsent
  | change _ _ => simp at hsent
  | disengage => simp at hsent
  | ticked hticked =>
    cases hticked with
    | idle _ _ => cases hsent
    | processed _ _ hprocessed =>
      cases hprocessed with
      | restored _ => cases hsent
      | released _ => simp at hsent
      | kept _ _ => cases hsent
      | completed _ _ => cases hsent
      | engaged _ _ _ => simp at hsent
  | rejected _ => cases hsent

variable {transition : Transition} {outputs : List Output}

theorem Step.timeout {autonomousMode : AutonomousMode}
    (hstep : Step before (.timer now autonomousMode, outputs) after)
    (htransition : after.transition = some transition) :
    seconds (now - transition.time) ≤ after.transitionTimeout := by
  have houtcome := hstep.outcome
  generalize signals outputs = sent at houtcome
  cases houtcome with
  | untouched htimer _ _ _ => exact absurd rfl (htimer now autonomousMode)
  | ticked hticked =>
    cases hticked with
    | idle hidle hsynchronized =>
      have hnone := hsynchronized.transition.symm.trans htransition
      cases hidle.symm.trans hnone
    | processed _ _ hprocessed =>
      cases hprocessed with
      | restored _ => cases htransition
      | released _ => cases htransition
      | kept _ hrecent =>
        cases htransition
        exact hrecent
      | completed _ _ => cases htransition
      | engaged _ _ hrecent =>
        cases htransition
        exact hrecent

theorem currentControl_iff {self : OperationModeTransitionManager} :
    self.currentControl = true ↔ self.controlModeReport = .autonomous := by
  simp [currentControl]

theorem Accepted.ends {mode : OperationMode} {serviceMode : OperationMode.ServiceMode}
    (hmode : OperationMode.toEnum serviceMode = some mode)
    (haccepted : Accepted before now (some mode) after)
    (htransition : before.transition = some transition) (hended : Ended transition after) :
    ReplacedByStop before (.changeOperationMode now serviceMode, outputs) after := by
  cases haccepted with
  | change hcontrol hidle _ =>
    have hstop : mode = .stop := by
      rcases hidle with hnone | hstop
      · cases hnone.symm.trans htransition
      · exact hstop
    subst hstop
    cases toEnum_eq_stop hmode
    exact ⟨⟨now, rfl⟩, currentControl_iff.mp hcontrol, rfl, _, rfl, rfl⟩
  | changeAtOnce _ _ => exact absurd rfl (hended transition htransition)

theorem Processed.ends {synchronized : OperationModeTransitionManager}
    (autonomousMode : AutonomousMode) {outputs requested : List Output}
    (htraced : Traced first labels before) (htransition : before.transition = some transition)
    (hrequested : ∀ output ∈ requested, output ∈ outputs)
    (hprocessed : Processed synchronized transition now after requested)
    (hended : Ended transition after) :
    EndsRegularly first labels (.timer now autonomousMode, outputs) after transition := by
  cases hprocessed with
  | restored hprevious =>
    rcases htraced transition htransition with
      ⟨time, start, opened, late, hengaging⟩ | ⟨time, mode, start, opened, late, hchanging⟩
    · cases hengaging.previous.symm.trans hprevious
    · have hsame := hchanging.previous.symm.trans hprevious
      exact .restored now autonomousMode rfl
        ⟨_, start, opened, late, hchanging.opening, (Option.some.inj hsame).symm⟩
  | released _ =>
    exact .released now autonomousMode rfl (hrequested _ (List.mem_singleton_self _))
  | kept _ _ => exact (hended _ rfl rfl).elim
  | completed hcontrol hmode =>
    exact .completed now autonomousMode rfl (currentControl_iff.mp hcontrol) hmode
  | engaged _ _ _ => exact (hended _ rfl rfl).elim

theorem mem_of_mem_signals {output : Output} (hmem : output ∈ signals outputs) : output ∈ outputs :=
  List.mem_of_mem_filter hmem

theorem Step.ends (htraced : Traced first labels before) (hstep : Step before label after)
    (htransition : before.transition = some transition) (hended : Ended transition after) :
    EndsRegularly first labels label after transition ∨ ReplacedByStop before label after := by
  obtain ⟨event, outputs⟩ := label
  have hrequested : ∀ output ∈ signals outputs, output ∈ outputs :=
    fun _ hmem => mem_of_mem_signals hmem
  have houtcome := hstep.outcome
  generalize signals outputs = sent at houtcome hrequested
  cases houtcome with
  | untouched _ _ _ huntouched =>
    exact absurd rfl (hended transition (huntouched.transition.trans htransition))
  | engage haccepted =>
    cases haccepted with
    | engage _ hidle _ => cases hidle.symm.trans htransition
  | change hmode haccepted => exact .inr (haccepted.ends hmode htransition hended)
  | @disengage now => exact .inl (.manual now rfl (hrequested _ List.mem_cons_self))
  | @ticked now autonomousMode sent after hticked =>
    cases hticked with
    | idle hidle _ => cases hidle.symm.trans htransition
    | processed htransition' _ hprocessed =>
      cases htransition.symm.trans htransition'
      have hends := hprocessed.ends autonomousMode htraced htransition hrequested hended
      refine .inl ?_
      cases hends with
      | completed now mode htimer hcontrol hmode =>
        exact .completed now mode htimer hcontrol hmode
      | manual now hevent hasks => exact .manual now hevent hasks
      | restored now mode htimer hopening => exact .restored now mode htimer hopening
      | released now mode htimer hasks => exact .released now mode htimer hasks
  | @rejected request _ =>
    have hlater : (before.onControlModeResponse request false).transition =
        some { transition with isEngageFailed := true } := by
      change before.transition.map _ = _
      rw [htransition]
      rfl
    exact (hended _ hlater rfl).elim

theorem Step.engages (htraced : Traced first labels before) (hstep : Step before label after)
    (hasks : .controlModeRequest .autonomous ∈ label.2) :
    EngagesAvailable first labels before label after := by
  obtain ⟨event, outputs⟩ := label
  have hsent := mem_signals hasks rfl
  have houtcome := hstep.outcome
  dsimp only at hsent
  generalize signals outputs = sent at houtcome hsent
  cases houtcome with
  | untouched _ _ hnot _ => exact absurd hsent (hnot .autonomous)
  | engage _ => simp at hsent
  | change _ _ => simp at hsent
  | disengage => simp at hsent
  | @ticked now autonomousMode sent after hticked =>
    cases hticked with
    | idle _ _ => cases hsent
    | @processed synchronized after transition requested prevState htransition
        hsynchronized hprocessed =>
        cases hprocessed with
        | restored _ => cases hsent
        | released _ => simp at hsent
        | kept _ _ => cases hsent
        | completed _ _ => cases hsent
        | engaged hrequested hmode hrecent =>
          rcases htraced transition htransition with
            ⟨time, start, opened, late, hengaging⟩ | ⟨time, mode, start, opened, late, hchanging⟩
          · have hcontinues := (Processed.engaged hrequested hmode hrecent).continues
              autonomousMode outputs htransition hsynchronized rfl
            have hlater := hengaging.concat hstep ⟨htransition, rfl, rfl, fun _ =>
              hrequested, hcontinues.currentMode⟩
            exact ⟨transition, time, start, opened, late, htransition,
              hengaging.opening, hengaging.available, hmode, hlater.currentMode⟩
          · cases hchanging.isEngageRequested.symm.trans hrequested
  | rejected _ => cases hsent

end

/-- The vehicle is engaged in the autonomous mode, but not completely yet. -/
def engagedUnderControl : List Event :=
  [.autowareEngage true, .gateMode .auto, .selectorMode .none, .timer 0 ⟨true, false⟩,
    .changeAutowareControl 1 true, .gateOperationMode true, .timer 2 ⟨true, false⟩,
    .controlModeReport .autonomous, .timer 3 ⟨true, false⟩]

/-- The stop mode is requested and set while the engagement waits for the gate. -/
def stoppedBeforeGate : List Event :=
  [.autowareEngage true, .gateMode .auto, .selectorMode .none, .timer 0 ⟨true, true⟩,
    .changeAutowareControl 1 true, .changeOperationMode 2 .stop, .autowareEngage false,
    .gateOperationMode true]

def EnabledInAutonomous (before : OperationModeTransitionManager)
    (label : Event × List Output) (_ : OperationModeTransitionManager) : Prop :=
  (match label.1 with
    | .changeAutowareControl _ true => decide (before.currentMode = .autonomous)
    | _ => true) = true

theorem step_execute (first : OperationModeTransitionManager) (events : List Event) (event : Event)
    (hreceived : Received (execute handle first events).2 (event, []) first) :
    Step (execute handle first events).2 (event, (handle (execute handle first events).2 event).2)
      (handle (execute handle first events).2 event).1 := by
  refine ⟨rfl, ?_⟩
  cases event with
  | controlModeResponse request success => exact hreceived
  | selectorResponse => exact hreceived
  | _ => trivial

end

/-!
## Rejected control mode requests

The answer to a control mode request arrives at any later time, and a rejection
fails the transition that is in progress then.  In every reachable state that
transition either issued the request or was created after it was sent, and the
rejections fail only the transitions that issued them exactly if no rejection
arrives in the second case.
-/

/-! ## Histories -/

def rejectionsOf (label : Event × List Output) : List ControlModeRequest :=
  match label.1 with
  | .controlModeResponse request false => [request]
  | _ => []

def rejections (labels : List (Event × List Output)) : List ControlModeRequest :=
  labels.flatMap rejectionsOf

theorem rejections_concat (labels : List (Event × List Output)) (label : Event × List Output) :
    rejections (labels ++ [label]) = rejections labels ++ rejectionsOf label := by
  simp [rejections]

theorem rejectionsOf_eq_nil {event : Event} {outputs : List Output}
    (hrejected : ∀ request, event ≠ .controlModeResponse request false) :
    rejectionsOf (event, outputs) = [] := by
  unfold rejectionsOf
  split
  · rename_i request hevent
    exact absurd hevent (hrejected request)
  · rfl

/-- How the transition and the requests move on when no request is rejected. -/
inductive Moved (before after : OperationModeTransitionManager) : Prop where
  | continued (hcreated : after.created = before.created)
      (htransition : ∀ later, after.transition = some later →
        ∃ transition, before.transition = some transition ∧ later.serial = transition.serial ∧
          later.isEngageFailed = transition.isEngageFailed)
      (hrequests : ∀ request ∈ after.pendingRequests, request ∈ before.pendingRequests ∨
        (request.created = before.created ∧
          (request.issuer = before.transition.map Transition.serial ∨
            request.issuer = none ∧ after.transition = none)))
  | opened {later : Transition} (hcreated : after.created = before.created + 1)
      (htransition : after.transition = some later) (hserial : later.serial = before.created)
      (hfailed : later.isEngageFailed = false)
      (hrequests : after.pendingRequests = before.pendingRequests)

variable {before after : OperationModeTransitionManager}

theorem Untouched.moved (huntouched : Untouched before after) : Moved before after := by
  refine .continued huntouched.created ?_ fun request hmem =>
    .inl (huntouched.pendingRequests request hmem)
  intro later hlater
  exact ⟨later, huntouched.transition.symm.trans hlater, rfl, rfl⟩

variable {now : Time}

theorem Accepted.moved
    {requestMode : Option OperationMode} (haccepted : Accepted before now requestMode after) :
    Moved before after := by
  cases haccepted with
  | engage _ _ _ => exact .opened rfl rfl rfl rfl rfl
  | change _ _ _ => exact .opened rfl rfl rfl rfl rfl
  | changeAtOnce _ _ =>
    exact .continued rfl (fun later hlater => ⟨later, hlater, rfl, rfl⟩)
      fun request hmem => .inl hmem

theorem Processed.moved {before synchronized after : OperationModeTransitionManager}
    {transition : Transition} {sent : List Output}
    (htransition : before.transition = some transition)
    (hsynchronized : Synchronized before synchronized)
    (hprocessed : Processed synchronized transition now after sent) : Moved before after := by
  have hpending : ∀ request ∈ synchronized.pendingRequests,
      request ∈ before.pendingRequests := fun request hmem =>
    hsynchronized.pendingRequests ▸ hmem
  have hissuer : synchronized.transition.map Transition.serial =
      before.transition.map Transition.serial := by
    rw [hsynchronized.transition]
  cases hprocessed with
  | restored _ =>
    exact .continued hsynchronized.created (fun later hlater => by cases hlater)
      fun request hmem => .inl (hpending request hmem)
  | released _ =>
    refine .continued hsynchronized.created (fun later hlater => by cases hlater) ?_
    intro request hmem
    rcases List.mem_append.mp hmem with hold | hnew
    · exact .inl (hpending request hold)
    · cases List.mem_singleton.mp hnew
      exact .inr ⟨hsynchronized.created, .inl hissuer⟩
  | kept _ _ =>
    refine .continued hsynchronized.created ?_ fun request hmem => .inl (hpending request hmem)
    intro later hlater
    cases hlater
    exact ⟨transition, htransition, rfl, rfl⟩
  | completed _ _ =>
    exact .continued hsynchronized.created (fun later hlater => by cases hlater)
      fun request hmem => .inl (hpending request hmem)
  | engaged _ _ _ =>
    constructor
    · exact hsynchronized.created
    · intro later hlater
      cases hlater
      exact ⟨transition, htransition, rfl, rfl⟩
    · intro request hmem
      rcases List.mem_append.mp hmem with hold | hnew
      · exact .inl (hpending request hold)
      · cases List.mem_singleton.mp hnew
        refine .inr ⟨hsynchronized.created, .inl ?_⟩
        rw [htransition]
        rfl

theorem Ticked.moved
    {sent : List Output} (hticked : Ticked before now sent after) : Moved before after := by
  cases hticked with
  | idle hidle hsynchronized =>
    refine .continued hsynchronized.created ?_ fun request hmem =>
      .inl (hsynchronized.pendingRequests ▸ hmem)
    intro later hlater
    have hsame := hsynchronized.transition.symm.trans hlater
    exact ⟨later, hsame, rfl, rfl⟩
  | processed htransition hsynchronized hprocessed =>
    cases hprocessed.moved htransition hsynchronized with
    | continued hcreated hcontinued hrequests =>
      exact .continued hcreated hcontinued hrequests
    | opened hcreated hopened hserial hfailed hrequests =>
      exact .opened hcreated hopened hserial hfailed hrequests

theorem Step.moved {event : Event}
    {outputs : List Output} (hstep : Step before (event, outputs) after) :
    (rejectionsOf (event, outputs) = [] ∧ Moved before after) ∨
      ∃ request, event = .controlModeResponse request false ∧ request ∈ before.pendingRequests ∧
        after = before.onControlModeResponse request false := by
  have houtcome := hstep.outcome
  generalize signals outputs = sent at houtcome
  cases houtcome with
  | untouched _ hrejected _ huntouched =>
    exact .inl ⟨rejectionsOf_eq_nil hrejected, huntouched.moved⟩
  | engage haccepted => exact .inl ⟨rfl, haccepted.moved⟩
  | change _ haccepted => exact .inl ⟨rfl, haccepted.moved⟩
  | disengage =>
    refine .inl ⟨rfl, .continued rfl (fun later hlater => by cases hlater) ?_⟩
    intro request hmem
    rcases List.mem_append.mp hmem with hold | hnew
    · exact .inl hold
    · cases List.mem_singleton.mp hnew
      exact .inr ⟨rfl, .inr ⟨rfl, rfl⟩⟩
  | ticked hticked => exact .inl ⟨rfl, hticked.moved⟩
  | @rejected request hpending => exact .inr ⟨request, rfl, hpending, rfl⟩

/-! ## Who issued a request -/

/-- What a history of rejected requests says about the state: the transition in
progress is the last that was created, and a request was issued by the last
transition that had been created when it was sent. -/
structure Accountable (rejected : List ControlModeRequest)
    (manager : OperationModeTransitionManager) : Prop where
  current : ∀ transition, manager.transition = some transition →
    transition.serial + 1 = manager.created
  created : ∀ request, request ∈ rejected ∨ request ∈ manager.pendingRequests →
    request.created ≤ manager.created
  issued : ∀ request, request ∈ rejected ∨ request ∈ manager.pendingRequests →
    ∀ serial, request.issuer = some serial → serial + 1 = request.created
  unissued : ∀ request ∈ manager.pendingRequests, request.issuer = none →
    request.created = manager.created → manager.transition = none
  failed : ∀ request ∈ rejected, ∀ transition, manager.transition = some transition →
    request.issuer = some transition.serial → transition.isEngageFailed = true

namespace Accountable

variable {rejected : List ControlModeRequest} {before after : OperationModeTransitionManager}

theorem initial (transitionTimeout stableDuration : ℚ) :
    Accountable [] (initial transitionTimeout stableDuration) where
  current := fun transition htransition => by cases htransition
  created := fun request hknown => by
    rcases hknown with hmem | hmem
    · cases hmem
    · cases hmem
  issued := fun request hknown => by
    rcases hknown with hmem | hmem
    · cases hmem
    · cases hmem
  unissued := fun request hmem => by cases hmem
  failed := fun request hmem => by cases hmem

theorem moved (haccountable : Accountable rejected before) (hmoved : Moved before after) :
    Accountable rejected after := by
  cases hmoved with
  | continued hcreated htransition hrequests =>
    have hnew : ∀ request, request ∈ after.pendingRequests →
        request ∉ before.pendingRequests → request.created = before.created ∧
          (request.issuer = before.transition.map Transition.serial ∨
            request.issuer = none ∧ after.transition = none) := by
      intro request hmem hnot
      rcases hrequests request hmem with hold | hnew
      · exact absurd hold hnot
      · exact hnew
    constructor
    · intro later hlater
      obtain ⟨transition, hbefore, hserial, _⟩ := htransition later hlater
      rw [hserial, hcreated]
      exact haccountable.current transition hbefore
    · intro request hknown
      rw [hcreated]
      by_cases hold : request ∈ rejected ∨ request ∈ before.pendingRequests
      · exact haccountable.created request hold
      · have hpending := hknown.resolve_left fun hmem => hold (.inl hmem)
        exact (hnew request hpending fun hmem => hold (.inr hmem)).1.le
    · intro request hknown serial hissuer
      by_cases hold : request ∈ rejected ∨ request ∈ before.pendingRequests
      · exact haccountable.issued request hold serial hissuer
      · have hpending := hknown.resolve_left fun hmem => hold (.inl hmem)
        obtain ⟨hsent, hissuedBy | ⟨hnone, _⟩⟩ := hnew request hpending fun hmem => hold (.inr hmem)
        · rw [hissuer] at hissuedBy
          obtain ⟨transition, hbefore, hserial⟩ := Option.map_eq_some_iff.mp hissuedBy.symm
          rw [← hserial, hsent]
          exact haccountable.current transition hbefore
        · cases hnone.symm.trans hissuer
    · intro request hmem hissuer hsent
      by_contra hsome
      obtain ⟨later, hlater⟩ := Option.ne_none_iff_exists'.mp hsome
      obtain ⟨transition, hbefore, _, _⟩ := htransition later hlater
      by_cases hold : request ∈ before.pendingRequests
      · have hnone := haccountable.unissued request hold hissuer (hsent.trans hcreated)
        cases hnone.symm.trans hbefore
      · obtain ⟨_, hissuedBy | ⟨_, hnone⟩⟩ := hnew request hmem hold
        · rw [hissuer, hbefore] at hissuedBy
          cases hissuedBy
        · exact hsome hnone
    · intro request hmem later hlater hissuer
      obtain ⟨transition, hbefore, hserial, hfailed⟩ := htransition later hlater
      rw [hfailed]
      exact haccountable.failed request hmem transition hbefore (hserial ▸ hissuer)
  | @opened later hcreated htransition hserial _ hrequests =>
    have hknownBefore : ∀ request, request ∈ rejected ∨ request ∈ after.pendingRequests →
        request ∈ rejected ∨ request ∈ before.pendingRequests := fun request hknown =>
      hrequests ▸ hknown
    constructor
    · intro transition htransition'
      cases htransition.symm.trans htransition'
      rw [hserial, hcreated]
    · intro request hknown
      have := haccountable.created request (hknownBefore request hknown)
      omega
    · intro request hknown
      exact haccountable.issued request (hknownBefore request hknown)
    · intro request hmem _ hsent
      have := haccountable.created request (hknownBefore request (.inr hmem))
      omega
    · intro request hmem transition htransition' hissuer
      cases htransition.symm.trans htransition'
      have hsent := haccountable.created request (.inl hmem)
      have hissued := haccountable.issued request (.inl hmem) _ hissuer
      omega

theorem reject (haccountable : Accountable rejected before) {request : ControlModeRequest}
    (hpending : request ∈ before.pendingRequests) :
    Accountable (rejected ++ [request]) (before.onControlModeResponse request false) := by
  have hcontinues : ∀ later, (before.onControlModeResponse request false).transition = some later →
        ∃ transition, before.transition = some transition ∧
          later = { transition with isEngageFailed := true } := by
    intro later hlater
    obtain ⟨transition, hbefore, heq⟩ := Option.map_eq_some_iff.mp hlater
    exact ⟨transition, hbefore, heq.symm⟩
  have hknownBefore : ∀ known, known ∈ rejected ++ [request] ∨
      known ∈ (before.onControlModeResponse request false).pendingRequests →
        known ∈ rejected ∨ known ∈ before.pendingRequests := by
    intro known hknown
    rcases hknown with hmem | hmem
    · rcases List.mem_append.mp hmem with hold | hnew
      · exact .inl hold
      · cases List.mem_singleton.mp hnew
        exact .inr hpending
    · exact .inr (List.mem_of_mem_erase hmem)
  constructor
  · intro later hlater
    obtain ⟨transition, hbefore, rfl⟩ := hcontinues later hlater
    exact haccountable.current transition hbefore
  · intro known hknown
    exact haccountable.created known (hknownBefore known hknown)
  · intro known hknown
    exact haccountable.issued known (hknownBefore known hknown)
  · intro known hmem hissuer hsent
    have hnone := haccountable.unissued known (List.mem_of_mem_erase hmem) hissuer hsent
    change before.transition.map _ = none
    rw [hnone]
    rfl
  · intro known _ later hlater _
    obtain ⟨transition, _, rfl⟩ := hcontinues later hlater
    rfl

theorem issuer_iff (haccountable : Accountable rejected before)
    {request : ControlModeRequest} (hpending : request ∈ before.pendingRequests)
    {transition : Transition} (htransition : before.transition = some transition) :
    request.issuer = some transition.serial ↔ transition.serial < request.created := by
  have hcurrent := haccountable.current transition htransition
  have hsent := haccountable.created request (.inr hpending)
  constructor
  · intro hissuer
    have := haccountable.issued request (.inr hpending) _ hissuer
    omega
  · intro hlater
    cases hissuer : request.issuer with
    | none =>
      have hnone := haccountable.unissued request hpending hissuer (by omega)
      cases hnone.symm.trans htransition
    | some serial =>
      have := haccountable.issued request (.inr hpending) serial hissuer
      congr 1
      omega

end Accountable

variable {transitionTimeout stableDuration : ℚ}

theorem accountable_of_run
    {labels : List (Event × List Output)} {self : OperationModeTransitionManager}
    (hrun : Run Step (initial transitionTimeout stableDuration) labels self) :
    Accountable (rejections labels) self := by
  refine Run.induction_last (motive := fun labels self => Accountable (rejections labels) self)
    ?_ ?_ hrun
  · exact .initial transitionTimeout stableDuration
  · intro labels before label after _ ih hstep
    obtain ⟨event, outputs⟩ := label
    rw [rejections_concat]
    rcases hstep.moved with ⟨hnone, hmoved⟩ | ⟨request, rfl, hpending, rfl⟩
    · rw [hnone, List.append_nil]
      exact ih.moved hmoved
    · exact ih.reject hpending

/-! ## Who fails -/

def FailedByOwn (rejected : List ControlModeRequest)
    (self : OperationModeTransitionManager) : Prop :=
  ∀ transition, self.transition = some transition → transition.isEngageFailed = true →
    ∃ request ∈ rejected, request.issuer = some transition.serial ∧
      transition.serial < request.created

/-- In every state of the run only the issuers of rejected requests have failed. -/
def OnlyIssuersFail (first : OperationModeTransitionManager)
    (labels : List (Event × List Output)) : Prop :=
  ∀ early late self, labels = early ++ late → Run Step first early self →
    FailedByOwn (rejections early) self

/-- A rejection arrives when no transition is in progress, or the transition in
progress was created before the request was sent or has failed already. -/
def RejectedInTime (before : OperationModeTransitionManager)
    (label : Event × List Output) (_ : OperationModeTransitionManager) : Prop :=
  ∀ request, label.1 = .controlModeResponse request false →
    ∀ transition, before.transition = some transition →
      transition.isEngageFailed = false → transition.serial < request.created

namespace FailedByOwn

variable {rejected : List ControlModeRequest} {before after : OperationModeTransitionManager}

theorem moved (hfailed : FailedByOwn rejected before) (hmoved : Moved before after) :
    FailedByOwn rejected after := by
  intro later hlater hlaterFailed
  cases hmoved with
  | continued _ htransition _ =>
    obtain ⟨transition, hbefore, hserial, hsame⟩ := htransition later hlater
    rw [hserial]
    exact hfailed transition hbefore (hsame.symm.trans hlaterFailed)
  | opened _ htransition _ hnot _ =>
    cases htransition.symm.trans hlater
    cases hnot.symm.trans hlaterFailed

theorem reject (hfailed : FailedByOwn rejected before) (haccountable : Accountable rejected before)
    {request : ControlModeRequest} (hpending : request ∈ before.pendingRequests)
    (hintime : ∀ transition, before.transition = some transition →
      transition.isEngageFailed = false → transition.serial < request.created) :
    FailedByOwn (rejected ++ [request]) (before.onControlModeResponse request false) := by
  intro later hlater _
  obtain ⟨transition, hbefore, rfl⟩ := Option.map_eq_some_iff.mp hlater
  cases hflag : transition.isEngageFailed with
  | true =>
    obtain ⟨own, hmem, hissuer, hcreated⟩ := hfailed transition hbefore hflag
    exact ⟨own, List.mem_append_left _ hmem, hissuer, hcreated⟩
  | false =>
    have hcreated := hintime transition hbefore hflag
    exact ⟨request, List.mem_append_right _ (List.mem_singleton_self request),
      (haccountable.issuer_iff hpending hbefore).mpr hcreated, hcreated⟩

end FailedByOwn

theorem failedByOwn_of_run
    {labels : List (Event × List Output)} {self : OperationModeTransitionManager}
    (hrun : Run (Guarded Step RejectedInTime) (initial transitionTimeout stableDuration)
      labels self) :
    FailedByOwn (rejections labels) self := by
  refine Run.induction_last (motive := fun labels self => FailedByOwn (rejections labels) self)
    ?_ ?_ hrun
  · intro transition htransition
    cases htransition
  · intro labels before label after hearly ih hstep
    obtain ⟨event, outputs⟩ := label
    obtain ⟨hstep, hintime⟩ := hstep
    rw [rejections_concat]
    rcases hstep.moved with ⟨hnone, hmoved⟩ | ⟨request, rfl, hpending, rfl⟩
    · rw [hnone, List.append_nil]
      exact ih.moved hmoved
    · exact ih.reject (accountable_of_run hearly.unguarded) hpending (hintime request rfl)

theorem OnlyIssuersFail.rejectedInTime
    {labels early late : List (Event × List Output)} {label : Event × List Output}
    (honly : OnlyIssuersFail (initial transitionTimeout stableDuration) labels)
    (hsplit : labels = early ++ label :: late)
    (hearly : Run Step (initial transitionTimeout stableDuration) early before)
    (hstep : Step before label after) : RejectedInTime before label after := by
  intro request hrejected transition hbefore hflag
  obtain ⟨event, outputs⟩ := label
  cases hrejected
  have hpending : request ∈ before.pendingRequests := hstep.2
  obtain ⟨rfl, _⟩ := Prod.mk.inj hstep.1
  have haccountable := accountable_of_run hearly
  have hlater : (before.onControlModeResponse request false).transition =
      some { transition with isEngageFailed := true } := by
    change before.transition.map _ = _
    rw [hbefore]
    rfl
  obtain ⟨own, hmem, hissuer, _⟩ := honly
    (early ++ [(.controlModeResponse request false, outputs)]) late _ (by simp [hsplit])
    (hearly.append (.single hstep)) _ hlater rfl
  rw [rejections_concat] at hmem
  rcases List.mem_append.mp hmem with hold | hnew
  · have hfailed := haccountable.failed own hold transition hbefore hissuer
    cases hflag.symm.trans hfailed
  · cases List.mem_singleton.mp hnew
    exact (haccountable.issuer_iff hpending hbefore).mp hissuer

/-- In a run only the issuers of rejected requests fail exactly if every rejection
arrives in time. -/
theorem onlyIssuersFail_iff {transitionTimeout stableDuration : ℚ}
    {labels : List (Event × List Output)} {self : OperationModeTransitionManager}
    (hrun : Run Step (initial transitionTimeout stableDuration) labels self) :
    OnlyIssuersFail (initial transitionTimeout stableDuration) labels ↔
      Run (Guarded Step RejectedInTime) (initial transitionTimeout stableDuration)
        labels self := by
  constructor
  · intro honly
    exact hrun.guarded_of_at fun early label late before after hsplit hearly hstep =>
      honly.rejectedInTime hsplit hearly hstep
  · rintro hguarded early late middle rfl hearly
    obtain ⟨reached, hreached, _⟩ := hguarded.split
    have hsame := hreached.unguarded.deterministic step_deterministic hearly
    rw [← hsame]
    exact failedByOwn_of_run hreached

def always : AutonomousMode := ⟨true, true⟩

/-- The vehicle is engaged in the autonomous mode, and is asked for the control. -/
def engagement : List Event :=
  [.autowareEngage true, .gateMode .auto, .selectorMode .none, .timer 0 always,
    .changeAutowareControl 1 true, .gateOperationMode true, .timer 2 always]

def engageRequest : ControlModeRequest := ⟨0, .autonomous, some 0, 1⟩

/-- The control is given up and engaged once more, and only then the first request
is rejected. -/
def lateRejection : List Event :=
  engagement ++ [.changeAutowareControl 3 false, .changeAutowareControl 4 true,
    .controlModeResponse engageRequest false]

theorem onlyIssuersFail_of_engagement_rejected : OnlyIssuersFail (initial 10 0)
        (execute handle (initial 10 0)
          (engagement ++ [.controlModeResponse engageRequest false])).1 ↔
      Run (Guarded Step RejectedInTime) (initial 10 0) (execute handle (initial 10 0)
          (engagement ++ [.controlModeResponse engageRequest false])).1
        (execute handle (initial 10 0)
          (engagement ++ [.controlModeResponse engageRequest false])).2 :=
  onlyIssuersFail_iff ((run_execute_iff handle).mpr (by decide +kernel))

/-- The late rejection fails the second transition, and the next tick cancels it. -/
theorem late_rejection_fails_next_transition :
    (¬ ∀ (transitionTimeout stableDuration : ℚ) (labels : List (Event × List Output))
        (self : OperationModeTransitionManager),
      Run Step (initial transitionTimeout stableDuration) labels self →
        OnlyIssuersFail (initial transitionTimeout stableDuration) labels) ∧
      (execute handle (initial 10 0) (lateRejection ++ [.timer 5 always])).2.transition =
        none := by
  constructor
  · intro hclaim
    have hrun : Run Step (initial 10 0) (execute handle (initial 10 0) lateRejection).1
        (execute handle (initial 10 0) lateRejection).2 :=
      (run_execute_iff handle).mpr (by decide +kernel)
    have hfailed : (execute handle (initial 10 0) lateRejection).2.transition =
        some ⟨1, 4, none, true, true, false⟩ := by decide +kernel
    have hrejections : rejections (execute handle (initial 10 0) lateRejection).1 =
        [engageRequest] := by decide +kernel
    obtain ⟨own, hmem, hissuer, _⟩ := hclaim 10 0 _ _ hrun _ [] _ (List.append_nil _).symm
      hrun _ hfailed rfl
    rw [hrejections] at hmem
    cases List.mem_singleton.mp hmem
    exact absurd hissuer (by decide)
  · decide +kernel

end AutowareUniverse.Control.OperationModeTransitionManager
