import AutowareUniverse.Library.Runs

/-!
# Motion node of the AD API

The node decides from the pause and start flags of the vehicle command gate whether the
vehicle may start, and asks the gate to pause or resume.  Time stamps of the published
states are left out.
-/

namespace AutowareUniverse.System.DefaultAdApi

inductive State where
  | unknown
  | pausing
  | paused
  | starting
  | resuming
  | resumed
  | moving
  deriving DecidableEq

/-- The states of `autoware_ad_api::motion::State::Message`. -/
inductive MotionState where
  | unknown
  | stopped
  | starting
  | moving
  deriving DecidableEq

inductive AcceptStartStatus where
  | success
  /-- A `ServiceException` with its message. -/
  | errorNotStarting (message : String)
  deriving DecidableEq

structure MotionNode where
  state : State
  isPaused : Option Bool
  isStartRequested : Option Bool
  requireAcceptStart : Bool
  isCallingSetPause : Bool
  deriving DecidableEq

inductive Event where
  /-- The timer, with the answer of the stop checker and the state of the service. -/
  | onTimer (isVehicleStopped serviceIsReady : Bool)
  | onIsPaused (data : Bool)
  | onIsStartRequested (data : Bool)
  | onAccept
  | setPauseResponse
  deriving DecidableEq

inductive Output where
  | publishState (state : MotionState)
  | setPause (pause : Bool)
  | acceptResponse (status : AcceptStartStatus)
  deriving DecidableEq

namespace MotionNode

def init (requireAcceptStart : Bool) : MotionNode :=
  ⟨.unknown, none, none, requireAcceptStart, false⟩

end MotionNode

/-- The mapping of `change_state`. -/
def State.message : State → MotionState
  | .unknown => .unknown
  | .pausing => .stopped
  | .paused => .stopped
  | .starting => .starting
  | .resuming => .moving
  | .resumed => .moving
  | .moving => .moving

namespace MotionNode

variable (node : MotionNode)

def changeState (state : State) : MotionNode × List Output :=
  ({ node with state := state },
    if node.state.message ≠ state.message then [.publishState state.message] else [])

/-- `get_next_state`. -/
def getNextState (isPaused isStartRequested isVehicleStopped : Bool) : State :=
  if isPaused then
    if ¬isStartRequested then .paused
    else if node.requireAcceptStart then .starting else .resuming
  else
    if ¬isVehicleStopped then .moving
    else if isStartRequested then .resumed else .pausing

def updateState (isVehicleStopped : Bool) : MotionNode × List Output :=
  match node.isPaused, node.isStartRequested with
  | some isPaused, some isStartRequested =>
    let nextState := node.getNextState isPaused isStartRequested isVehicleStopped
    -- Once the state becomes pausing, it must become a state where is_paused is true.
    if node.state = .pausing ∧
        ¬(nextState = .paused ∨ nextState = .starting ∨ nextState = .resuming) then
      (node, [])
    -- Prevents transition from starting to resuming.
    else if node.state = .resuming ∧ nextState = .starting then (node, [])
    else node.changeState nextState
  | _, _ => (node, [])

def changePause (serviceIsReady pause : Bool) : MotionNode × List Output :=
  if ¬node.isCallingSetPause ∧ serviceIsReady then
    ({ node with isCallingSetPause := true }, [.setPause pause])
  else (node, [])

def onTimer (isVehicleStopped serviceIsReady : Bool) : MotionNode × List Output :=
  let updated := node.updateState isVehicleStopped
  let paused :=
    match updated.1.state with
    | .pausing => updated.1.changePause serviceIsReady true
    | .resuming => updated.1.changePause serviceIsReady false
    | _ => (updated.1, [])
  (paused.1, updated.2 ++ paused.2)

def onAccept : MotionNode × List Output :=
  if node.state ≠ .starting then
    (node, [.acceptResponse (.errorNotStarting "The motion state is not starting")])
  else
    let changed := node.changeState .resuming
    (changed.1, changed.2 ++ [.acceptResponse .success])

def next : Event → MotionNode × List Output
  | .onTimer isVehicleStopped serviceIsReady => node.onTimer isVehicleStopped serviceIsReady
  | .onIsPaused data => ({ node with isPaused := some data }, [])
  | .onIsStartRequested data => ({ node with isStartRequested := some data }, [])
  | .onAccept => node.onAccept
  | .setPauseResponse => ({ node with isCallingSetPause := false }, [])

end MotionNode

structure Network where
  node : MotionNode
  /-- The requests without a response. -/
  requests : List Bool
  deriving DecidableEq

def sentRequests (outputs : List Output) : List Bool :=
  outputs.filterMap fun output =>
    match output with
    | .setPause pause => some pause
    | _ => none

namespace Network

def init (requireAcceptStart : Bool) : Network := ⟨.init requireAcceptStart, []⟩

def next (network : Network) (event : Event) : Network × List Output :=
  let result := network.node.next event
  let pending := if event = .setPauseResponse then network.requests.tail else network.requests
  (⟨result.1, pending ++ sentRequests result.2⟩, result.2)

/-- A response answers a request. -/
def Enabled (network : Network) (event : Event) : Prop :=
  event = .setPauseResponse → network.requests ≠ []

instance (network : Network) (event : Event) : Decidable (network.Enabled event) :=
  inferInstanceAs (Decidable (_ → _))

def step : Network → Event × List Output → Network → Prop :=
  Library.Runs.Guarded (Library.Runs.OfFunction next) fun before label _ => before.Enabled label.1

end Network

/-!
# Starts of the vehicle need an acceptance

A start is requested only in the state `Resuming`.  With `require_accept_start` this state is
entered by an accepted start alone, and it is left on the way to every state in which the
vehicle is paused.
-/

open Library.Runs

/-! ## What one event does -/

namespace MotionNode

variable {node : MotionNode} {event : Event}

theorem updateState_cases (node : MotionNode) (isVehicleStopped : Bool) :
    (node.updateState isVehicleStopped = (node, [])) ∨
      ∃ isPaused isStartRequested, node.isPaused = some isPaused ∧
        (node.state = .pausing → isPaused = true) ∧
        node.updateState isVehicleStopped =
          node.changeState (node.getNextState isPaused isStartRequested isVehicleStopped) := by
  cases hpaused : node.isPaused with
  | none => exact .inl (by rw [updateState, hpaused])
  | some isPaused =>
    cases hrequested : node.isStartRequested with
    | none => exact .inl (by rw [updateState, hpaused, hrequested])
    | some isStartRequested =>
      rw [updateState, hpaused, hrequested]
      dsimp only
      split
      · exact .inl rfl
      · next hpausing =>
          split
          · exact .inl rfl
          · refine .inr ⟨isPaused, isStartRequested, rfl, fun hstate => ?_, rfl⟩
            by_contra hmoving
            rw [Bool.not_eq_true] at hmoving
            apply hpausing
            refine ⟨hstate, ?_⟩
            rw [hmoving, getNextState]
            cases isVehicleStopped <;> cases isStartRequested <;> simp

theorem getNextState_ne_resuming (hrequire : node.requireAcceptStart = true)
    (isPaused isStartRequested isVehicleStopped : Bool) :
    node.getNextState isPaused isStartRequested isVehicleStopped ≠ .resuming := by
  rw [getNextState, hrequire]
  cases isPaused <;> cases isStartRequested <;> cases isVehicleStopped <;> simp

theorem isPaused_of_getNextState {isPaused isStartRequested isVehicleStopped : Bool}
    (hnext : node.getNextState isPaused isStartRequested isVehicleStopped = .pausing) :
    isPaused = false := by
  cases isPaused with
  | false => rfl
  | true =>
    rw [getNextState] at hnext
    cases isStartRequested <;> cases hrequire : node.requireAcceptStart <;> simp [hrequire] at hnext

section

variable (node : MotionNode)

theorem updateState_flags (isVehicleStopped : Bool) : (node.updateState isVehicleStopped).1 =
      { node with state := (node.updateState isVehicleStopped).1.state } := by
  rcases node.updateState_cases isVehicleStopped with hsame | ⟨_, _, _, _, hchange⟩
  · rw [hsame]
  · rw [hchange]
    rfl

theorem changePause_cases (serviceIsReady pause : Bool) :
    node.changePause serviceIsReady pause = (node, []) ∨ node.isCallingSetPause = false ∧
        node.changePause serviceIsReady pause =
          ({ node with isCallingSetPause := true }, [.setPause pause]) := by
  rw [changePause]
  split
  · next hready => exact .inr ⟨by simpa using hready.1, rfl⟩
  · exact .inl rfl

theorem onTimer_cases (isVehicleStopped serviceIsReady : Bool) :
    node.onTimer isVehicleStopped serviceIsReady = node.updateState isVehicleStopped ∨
      ∃ pause, node.isCallingSetPause = false ∧ (node.updateState isVehicleStopped).1.state =
          (if pause then State.pausing else State.resuming) ∧
        node.onTimer isVehicleStopped serviceIsReady =
          ({ (node.updateState isVehicleStopped).1 with isCallingSetPause := true },
            (node.updateState isVehicleStopped).2 ++ [.setPause pause]) := by
  have hflags := node.updateState_flags isVehicleStopped
  have hcalling : (node.updateState isVehicleStopped).1.isCallingSetPause =
      node.isCallingSetPause := by
    rw [hflags]
  rw [onTimer]
  generalize node.updateState isVehicleStopped = updated at hcalling ⊢
  obtain ⟨updated, outputs⟩ := updated
  cases hstate : updated.state with
  | pausing =>
    rcases updated.changePause_cases serviceIsReady true with hsame | ⟨hidle, hsent⟩
    · exact .inl (by simp [hsame])
    · exact .inr ⟨true, hcalling ▸ hidle, by simp, by simp [hsent]⟩
  | resuming =>
    rcases updated.changePause_cases serviceIsReady false with hsame | ⟨hidle, hsent⟩
    · exact .inl (by simp [hsame])
    · exact .inr ⟨false, hcalling ▸ hidle, by simp, by simp [hsent]⟩
  | unknown => exact .inl (by simp)
  | paused => exact .inl (by simp)
  | starting => exact .inl (by simp)
  | resumed => exact .inl (by simp)
  | moving => exact .inl (by simp)

theorem sentRequests_changeState (state : State) :
    sentRequests (node.changeState state).2 = [] := by
  rw [changeState]
  dsimp only
  split <;> rfl

theorem sentRequests_updateState (isVehicleStopped : Bool) :
    sentRequests (node.updateState isVehicleStopped).2 = [] := by
  rcases node.updateState_cases isVehicleStopped with hsame | ⟨_, _, _, _, hchange⟩
  · rw [hsame]
    rfl
  · rw [hchange]
    exact node.sentRequests_changeState _

end

theorem mem_sentRequests {outputs : List Output} {pause : Bool} :
    pause ∈ sentRequests outputs ↔ .setPause pause ∈ outputs := by
  rw [sentRequests, List.mem_filterMap]
  constructor
  · rintro ⟨output, hmem, hsome⟩
    cases output with
    | setPause other => rwa [Option.some.inj hsome] at hmem
    | publishState _ => cases hsome
    | acceptResponse _ => cases hsome
  · exact fun hmem => ⟨_, hmem, rfl⟩

section

variable (node : MotionNode)

theorem sentRequests_onTimer (isVehicleStopped serviceIsReady : Bool) :
    sentRequests (node.onTimer isVehicleStopped serviceIsReady).2 = [] ∧
        (node.onTimer isVehicleStopped serviceIsReady).1.isCallingSetPause =
          node.isCallingSetPause ∨
      node.isCallingSetPause = false ∧
        (node.onTimer isVehicleStopped serviceIsReady).1.isCallingSetPause = true ∧
        ∃ pause, sentRequests (node.onTimer isVehicleStopped serviceIsReady).2 = [pause] ∧
          (node.onTimer isVehicleStopped serviceIsReady).1.state =
            if pause then State.pausing else State.resuming := by
  rcases node.onTimer_cases isVehicleStopped serviceIsReady with
    hsame | ⟨pause, hidle, hstate, hsent⟩
  · refine .inl ⟨?_, ?_⟩
    · rw [hsame, node.sentRequests_updateState]
    · rw [hsame, node.updateState_flags]
  · refine .inr ⟨hidle, by rw [hsent], pause, ?_, ?_⟩
    · rw [hsent, sentRequests, List.filterMap_append]
      change sentRequests (node.updateState isVehicleStopped).2 ++ [pause] = [pause]
      rw [node.sentRequests_updateState, List.nil_append]
    · rw [hsent]
      exact hstate

theorem onTimer_state (isVehicleStopped serviceIsReady : Bool) :
    (node.onTimer isVehicleStopped serviceIsReady).1.state =
      (node.updateState isVehicleStopped).1.state := by
  rcases node.onTimer_cases isVehicleStopped serviceIsReady with hsame | ⟨_, _, _, hsent⟩
  · rw [hsame]
  · rw [hsent]

theorem onTimer_isPaused (isVehicleStopped serviceIsReady : Bool) :
    (node.onTimer isVehicleStopped serviceIsReady).1.isPaused = node.isPaused := by
  rcases node.onTimer_cases isVehicleStopped serviceIsReady with hsame | ⟨_, _, _, hsent⟩
  · rw [hsame, node.updateState_flags]
  · rw [hsent, node.updateState_flags]

theorem onAccept_cases :
    node.state ≠ .starting ∧ (node.onAccept).1 = node ∧ sentRequests (node.onAccept).2 = [] ∨
      node.state = .starting ∧ (node.onAccept).1 = { node with state := .resuming } ∧
        sentRequests (node.onAccept).2 = [] ∧ .acceptResponse .success ∈ (node.onAccept).2 := by
  rw [onAccept]
  split
  · next hstate => exact .inl ⟨hstate, rfl, rfl⟩
  · next hstate =>
      refine .inr ⟨not_not.mp hstate, rfl, ?_, List.mem_append_right _ (List.mem_singleton_self _)⟩
      rw [sentRequests, List.filterMap_append]
      exact congrArg (· ++ []) (node.sentRequests_changeState .resuming)

theorem next_requireAcceptStart (event : Event) :
    (node.next event).1.requireAcceptStart = node.requireAcceptStart := by
  cases event with
  | onTimer isVehicleStopped serviceIsReady =>
    rcases node.onTimer_cases isVehicleStopped serviceIsReady with hsame | ⟨_, _, _, hsent⟩
    · rw [next, hsame, node.updateState_flags]
    · rw [next, hsent, node.updateState_flags]
  | onAccept =>
    rcases node.onAccept_cases with ⟨_, hsame, _⟩ | ⟨_, hchange, _⟩
    · rw [next, hsame]
    · rw [next, hchange]
  | onIsPaused data => rfl
  | onIsStartRequested data => rfl
  | setPauseResponse => rfl

end

theorem next_resuming (hrequire : node.requireAcceptStart = true)
    (hstate : (node.next event).1.state = .resuming) :
    node.state = .resuming ∨
      event = .onAccept ∧ .acceptResponse .success ∈ (node.next event).2 := by
  cases event with
  | onTimer isVehicleStopped serviceIsReady =>
    rw [next, onTimer_state] at hstate
    rcases node.updateState_cases isVehicleStopped with hsame | ⟨_, _, _, _, hchange⟩
    · rw [hsame] at hstate
      exact .inl hstate
    · rw [hchange] at hstate
      exact (getNextState_ne_resuming hrequire _ _ _ hstate).elim
  | onAccept =>
    rcases node.onAccept_cases with ⟨_, hsame, _⟩ | ⟨_, _, _, haccepted⟩
    · rw [next, hsame] at hstate
      exact .inl hstate
    · exact .inr ⟨rfl, haccepted⟩
  | onIsPaused data => exact .inl hstate
  | onIsStartRequested data => exact .inl hstate
  | setPauseResponse => exact .inl hstate

theorem resuming_of_start (hrequire : node.requireAcceptStart = true)
    (hsent : .setPause false ∈ (node.next event).2) : node.state = .resuming := by
  rw [← mem_sentRequests] at hsent
  cases event with
  | onTimer isVehicleStopped serviceIsReady =>
    rcases node.sentRequests_onTimer isVehicleStopped serviceIsReady with
      ⟨hnone, _⟩ | ⟨_, _, pause, hone, hstate⟩
    · rw [next, hnone] at hsent
      cases hsent
    · rw [next, hone, List.mem_singleton] at hsent
      subst hsent
      have hafter : (node.next (.onTimer isVehicleStopped serviceIsReady)).1.state =
          .resuming := hstate
      rcases next_resuming hrequire hafter with hresuming | ⟨haccept, _⟩
      · exact hresuming
      · cases haccept
  | onAccept =>
    rcases node.onAccept_cases with ⟨_, _, hnone⟩ | ⟨_, _, hnone, _⟩
    · rw [next, hnone] at hsent
      cases hsent
    · rw [next, hnone] at hsent
      cases hsent
  | onIsPaused data => cases hsent
  | onIsStartRequested data => cases hsent
  | setPauseResponse => cases hsent

theorem next_pausing (node : MotionNode) (event : Event) : ((node.next event).1.state = .pausing →
        node.state = .pausing ∨ (node.next event).1.isPaused = some false) ∧
      (node.state = .pausing → (node.next event).1.state ≠ .pausing →
        node.isPaused = some true) := by
  cases event with
  | onTimer isVehicleStopped serviceIsReady =>
    rw [next, onTimer_state, onTimer_isPaused]
    rcases node.updateState_cases isVehicleStopped with
      hsame | ⟨isPaused, _, hpaused, hpausing, hchange⟩
    · rw [hsame]
      exact ⟨.inl, fun hstate hleft => absurd hstate hleft⟩
    · rw [hchange]
      refine ⟨fun hstate => .inr ?_, fun hstate _ => ?_⟩
      · rw [hpaused, isPaused_of_getNextState hstate]
      · rw [hpaused, hpausing hstate]
  | onAccept =>
    rcases node.onAccept_cases with ⟨_, hsame, _⟩ | ⟨hstarting, hchange, _⟩
    · rw [next, hsame]
      exact ⟨.inl, fun hstate hleft => absurd hstate hleft⟩
    · rw [next, hchange]
      refine ⟨fun hstate => (by cases hstate), fun hstate _ => ?_⟩
      rw [hstarting] at hstate
      cases hstate
  | onIsPaused data => exact ⟨.inl, fun hstate hleft => absurd hstate hleft⟩
  | onIsStartRequested data => exact ⟨.inl, fun hstate hleft => absurd hstate hleft⟩
  | setPauseResponse => exact ⟨.inl, fun hstate hleft => absurd hstate hleft⟩

theorem next_isPaused (node : MotionNode) (event : Event) :
    (∃ data, event = .onIsPaused data) ∨ (node.next event).1.isPaused = node.isPaused := by
  cases event with
  | onTimer isVehicleStopped serviceIsReady => exact .inr (node.onTimer_isPaused ..)
  | onAccept =>
    rcases node.onAccept_cases with ⟨_, hsame, _⟩ | ⟨_, hchange, _⟩
    · exact .inr (by rw [next, hsame])
    · exact .inr (by rw [next, hchange])
  | onIsPaused data => exact .inl ⟨data, rfl⟩
  | onIsStartRequested data => exact .inr rfl
  | setPauseResponse => exact .inr rfl

end MotionNode

/-! ## What runs keep -/

namespace Network

/-- One request is in flight while the node is calling, and none otherwise. -/
def CallsOnce (network : Network) : Prop :=
  network.requests.length = if network.node.isCallingSetPause then 1 else 0

theorem callsOnce_step {before after : Network} {label : Event × List Output}
    (hcalls : before.CallsOnce) (hstep : step before label after) : after.CallsOnce := by
  obtain ⟨event, outputs⟩ := label
  obtain ⟨hnext, henabled⟩ := hstep
  obtain ⟨rfl, _⟩ := Prod.mk.inj hnext
  rw [CallsOnce] at hcalls ⊢
  cases event with
  | onTimer isVehicleStopped serviceIsReady =>
    change (before.requests ++ sentRequests
      (before.node.onTimer isVehicleStopped serviceIsReady).2).length =
        if (before.node.onTimer isVehicleStopped serviceIsReady).1.isCallingSetPause then 1 else 0
    rcases before.node.sentRequests_onTimer isVehicleStopped serviceIsReady with
      ⟨hnone, hsame⟩ | ⟨hidle, hcalling, pause, hone, _⟩
    · rw [hnone, hsame, List.append_nil]
      exact hcalls
    · rw [hidle] at hcalls
      rw [hone, hcalling, List.length_append]
      simpa using hcalls
  | onAccept =>
    change (before.requests ++ sentRequests (before.node.onAccept).2).length =
      if (before.node.onAccept).1.isCallingSetPause then 1 else 0
    rcases before.node.onAccept_cases with ⟨_, hsame, hnone⟩ | ⟨_, hchange, hnone, _⟩
    · rw [hnone, hsame, List.append_nil]
      exact hcalls
    · rw [hnone, hchange, List.append_nil]
      exact hcalls
  | onIsPaused data =>
    change (before.requests ++ []).length = _
    rw [List.append_nil]
    exact hcalls
  | onIsStartRequested data =>
    change (before.requests ++ []).length = _
    rw [List.append_nil]
    exact hcalls
  | setPauseResponse =>
    have hsome := henabled rfl
    cases hrequests : before.requests with
    | nil => exact absurd hrequests hsome
    | cons request requests =>
      rw [hrequests] at hcalls
      have hnil : requests = [] := by
        split at hcalls <;> simp_all
      rw [hnil]
      rfl

/-- A successful `accept_start`. -/
def Accepted (_ : Network) (label : Event × List Output) (_ : Network) : Prop :=
  label.1 = .onAccept ∧ .acceptResponse .success ∈ label.2

def IsPausedReceived (_ : Network) (label : Event × List Output) (_ : Network) : Prop :=
  label.1 = .onIsPaused true

/-- The last acceptance and the last pause of the vehicle. -/
structure History (labels : List (Event × List Output)) (network : Network) : Prop where
  requireAcceptStart : network.node.requireAcceptStart = true
  accepted : network.node.state = .resuming →
    Since step (init true) Accepted (fun state => state.node.state = .resuming) labels network
  paused : network.node.state = .pausing → network.node.isPaused = some true →
    Since step (init true) IsPausedReceived (fun state => state.node.state = .pausing)
      labels network

theorem history_of_run {labels : List (Event × List Output)} {last : Network}
    (hrun : Run step (init true) labels last) : History labels last := by
  refine hrun.induction_last (motive := History)
    ⟨rfl, fun hstate => (by cases hstate), fun hstate => (by cases hstate)⟩ ?_
  · intro labels before label after hbefore ih hstep
    obtain ⟨event, outputs⟩ := label
    have hkeep := hstep
    obtain ⟨hnext, _⟩ := hstep
    obtain ⟨rfl, houtputs⟩ := Prod.mk.inj hnext
    refine ⟨?_, fun hstate => ?_, fun hstate hpaused => ?_⟩
    · exact (before.node.next_requireAcceptStart event).trans ih.requireAcceptStart
    · rcases MotionNode.next_resuming ih.requireAcceptStart hstate with hresuming | haccept
      · exact (ih.accepted hresuming).of_step hkeep hstate
      · refine Since.of_event hbefore hkeep ?_ hstate
        exact ⟨haccept.1, houtputs ▸ haccept.2⟩
    · rcases (before.node.next_pausing event).1 hstate with hpausing | hmoving
      · rcases before.node.next_isPaused event with ⟨data, rfl⟩ | hsame
        · refine Since.of_event hbefore hkeep ?_ hstate
          exact congrArg Event.onIsPaused (Option.some.inj hpaused)
        · exact (ih.paused hpausing (hsame ▸ hpaused)).of_step hkeep hstate
      · rw [hmoving] at hpaused
        cases hpaused

def AwaitsAccept (network : Network) : Prop :=
  network.node.state = .paused ∨ network.node.state = .pausing ∨ network.node.state = .starting

/-- Every start was accepted since the vehicle was last paused or starting, at most one
request is in flight, and pausing goes on until the vehicle is reported as paused. -/
theorem start_after_accept {labels : List (Event × List Output)} {network : Network}
    (hrun : Run step (init true) labels network) :
    network.requests.length ≤ 1 ∧ ∀ label after, step network label after →
        (.setPause false ∈ label.2 →
          Since step (init true) Accepted (fun state => ¬state.AwaitsAccept) labels network) ∧
        (network.node.state = .pausing → after.node.state ≠ .pausing →
          Since step (init true) IsPausedReceived (fun state => state.node.state = .pausing)
            labels network) := by
  have hhistory := history_of_run hrun
  have hcalls : network.CallsOnce :=
    hrun.preserves CallsOnce (fun _ _ _ => callsOnce_step) rfl
  refine ⟨?_, fun label after hstep => ⟨fun hsent => ?_, fun hstate hleft => ?_⟩⟩
  · rw [hcalls]
    split <;> simp
  · obtain ⟨hnext, _⟩ := hstep
    obtain ⟨_, houtputs⟩ := Prod.mk.inj hnext
    rw [← houtputs] at hsent
    have hresuming := MotionNode.resuming_of_start hhistory.requireAcceptStart hsent
    apply (hhistory.accepted hresuming).mono
    intro state hstate
    rw [AwaitsAccept, hstate]
    decide
  · obtain ⟨hnext, _⟩ := hstep
    obtain ⟨rfl, _⟩ := Prod.mk.inj hnext
    exact hhistory.paused hstate ((network.node.next_pausing label.1).2 hstate hleft)

def acceptedStart : List Event :=
  [.onIsPaused true, .onIsStartRequested true, .onTimer true true, .onAccept]

theorem start_after_accept_acceptedStart :
    let result := execute next (init true) acceptedStart
    result.2.requests.length ≤ 1 ∧ ∀ label after, step result.2 label after →
        (.setPause false ∈ label.2 →
          Since step (init true) Accepted (fun state => ¬state.AwaitsAccept) result.1 result.2) ∧
        (result.2.node.state = .pausing → after.node.state ≠ .pausing →
          Since step (init true) IsPausedReceived (fun state => state.node.state = .pausing)
            result.1 result.2) :=
  start_after_accept ((run_execute_iff next).mpr (by decide))

end Network

end AutowareUniverse.System.DefaultAdApi
