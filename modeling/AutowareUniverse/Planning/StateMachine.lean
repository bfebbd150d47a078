import AutowareUniverse.Library.Runs
import AutowareUniverse.Messages.Common
import AutowareUniverse.Library.Numerals
import Mathlib.Algebra.Order.Field.Rat

/-!
# The state machine of the behavior velocity modules

A stopped module may go only after go has been requested for longer than a
margin.  The pending request is kept as a timer, which a request to stop resets
and which `setState` leaves as it is.
-/

namespace AutowareUniverse.Planning

open Library.Runs Messages

/-- `StateMachine::State`. -/
inductive StateMachine.State where
  | STOP
  | GO
  deriving DecidableEq

/-- `StateMachine`. -/
structure StateMachine where
  state : StateMachine.State := .GO
  marginTime : ℚ := 0
  duration : ℚ := 0
  startTime : Option Time := none
  deriving DecidableEq

namespace StateMachine

variable (self : StateMachine)

def setMarginTime (t : ℚ) : StateMachine :=
  { self with marginTime := t }

def setState (state : State) : StateMachine :=
  { self with state := state }

def getState : State := self.state

def getDuration : ℚ := self.duration

def setStateWithMarginTime (state : State) (now : Time) : StateMachine :=
  if self.state = state then { self with startTime := none }
  else
    match state with
    | .STOP => { self with state := .STOP, startTime := none }
    | .GO =>
      match self.startTime with
      | none => { self with startTime := some now }
      | some startTime =>
        let duration := seconds (now - startTime)
        if self.marginTime < duration then
          { self with state := .GO, duration := duration, startTime := none }
        else { self with duration := duration }

inductive Operation where
  | setStateWithMarginTime (state : State) (now : Time)
  | setState (state : State)
  | setMarginTime (t : ℚ)
  deriving DecidableEq

def perform (self : StateMachine) : Operation → StateMachine
  | .setStateWithMarginTime state now => self.setStateWithMarginTime state now
  | .setState state => self.setState state
  | .setMarginTime t => self.setMarginTime t

abbrev Step : StateMachine → Operation → StateMachine → Prop := OfUpdate perform

variable {self : StateMachine} {now : Time}

@[simp] theorem request_stop_state : (self.setStateWithMarginTime .STOP now).state = .STOP := by
  rw [setStateWithMarginTime]
  split
  · assumption
  · rfl

@[simp] theorem request_stop_startTime :
    (self.setStateWithMarginTime .STOP now).startTime = none := by
  rw [setStateWithMarginTime]
  split
  · rfl
  · rfl

theorem request_go_of_go (hstate : self.state = .GO) :
    self.setStateWithMarginTime .GO now = { self with startTime := none } := by
  rw [setStateWithMarginTime, if_pos hstate]

theorem request_go_start (hstate : self.state = .STOP) (hstart : self.startTime = none) :
    self.setStateWithMarginTime .GO now = { self with startTime := some now } := by
  simp [setStateWithMarginTime, hstate, hstart]

theorem request_go_pending (hstate : self.state = .STOP) {startTime : Time}
    (hstart : self.startTime = some startTime) :
    self.setStateWithMarginTime .GO now =
      if self.marginTime < seconds (now - startTime) then
        { self with state := .GO, duration := seconds (now - startTime), startTime := none }
      else { self with duration := seconds (now - startTime) } := by
  simp [setStateWithMarginTime, hstate, hstart]

/-- Only a timer that has run for longer than the margin lets a stopped module go. -/
theorem moves_to_go {state : State} (hstate : self.state = .STOP)
    (hgo : (self.setStateWithMarginTime state now).state = .GO) :
    state = .GO ∧
      ∃ startTime, self.startTime = some startTime ∧ self.marginTime < seconds (now - startTime) := by
  cases state with
  | STOP => simp at hgo
  | GO =>
    cases hstart : self.startTime with
    | none => simp [request_go_start hstate hstart, hstate] at hgo
    | some startTime =>
      rw [request_go_pending hstate hstart] at hgo
      by_cases hmargin : self.marginTime < seconds (now - startTime)
      · exact ⟨rfl, startTime, rfl, hmargin⟩
      · rw [if_neg hmargin] at hgo
        simp [hstate] at hgo

/-! ## The margin over a run -/

def KeepsRequest (before : StateMachine) (operation : Operation) (_ : StateMachine) : Prop :=
  before.state = .STOP ∧ ∀ now, operation ≠ .setStateWithMarginTime .STOP now

def RequestedSince (operations : List Operation) (last : StateMachine) (requested : Time) : Prop :=
  last.state = .STOP ∧
    ∃ early late source, operations = early ++ .setStateWithMarginTime .GO requested :: late ∧
      Run Step {} early source ∧
      Run (Guarded Step KeepsRequest) source (.setStateWithMarginTime .GO requested :: late) last

/-- The last operation moves stop to go only after go was requested for longer
than the margin. -/
def MarginKept (operations : List Operation) (before : StateMachine) (state : State)
    (now : Time) : Prop :=
  before.state = .STOP → (before.setStateWithMarginTime state now).state = .GO →
    ∃ requested, RequestedSince operations before requested ∧
      before.marginTime < seconds (now - requested)

/-- `setState` enters the state stop while a timer is pending. -/
def EntersPending (before : StateMachine) (operation : Operation) : Prop :=
  operation = .setState .STOP ∧ before.state = .GO ∧ before.startTime ≠ none

instance (before : StateMachine) : DecidablePred (EntersPending before) :=
  fun _ => inferInstanceAs (Decidable (_ ∧ _ ∧ _))

abbrev FreshStep : StateMachine → Operation → StateMachine → Prop :=
  Guarded Step fun before operation _ => ¬ EntersPending before operation

variable {operations : List Operation} {before : StateMachine}

theorem RequestedSince.of_step
    {requested : Time} (hsince : RequestedSince operations before requested)
    (operation : Operation) (hstop : (before.perform operation).state = .STOP)
    (hrequest : ∀ now, operation ≠ .setStateWithMarginTime .STOP now) :
    RequestedSince (operations ++ [operation]) (before.perform operation) requested := by
  obtain ⟨hbefore, early, late, source, rfl, hearly, hlate⟩ := hsince
  refine ⟨hstop, early, late ++ [operation], source, ?_, hearly, ?_⟩
  · rw [List.append_assoc, List.cons_append]
  · exact hlate.append (.single ⟨rfl, hbefore, hrequest⟩)

theorem RequestedSince.of_request (hrun : Run Step {} operations before)
    (hbefore : before.state = .STOP) (hstop : (before.setStateWithMarginTime .GO now).state = .STOP) :
    RequestedSince (operations ++ [.setStateWithMarginTime .GO now])
      (before.setStateWithMarginTime .GO now) now :=
  ⟨hstop, operations, [], before, rfl, hrun, .single ⟨rfl, hbefore, fun _ hsame => by cases hsame⟩⟩

def TimerRequested (operations : List Operation) (last : StateMachine) : Prop :=
  last.state = .STOP → ∀ startTime, last.startTime = some startTime →
    RequestedSince operations last startTime

theorem TimerRequested.of_setStateWithMarginTime (hrun : Run Step {} operations before)
    (htimer : TimerRequested operations before) (state : State) (now : Time) :
    TimerRequested (operations ++ [.setStateWithMarginTime state now])
      (before.setStateWithMarginTime state now) := by
  intro hstop startTime hstart
  cases state with
  | STOP => simp at hstart
  | GO =>
    cases hbefore : before.state with
    | GO =>
      rw [request_go_of_go hbefore] at hstart
      cases hstart
    | STOP =>
      cases hpending : before.startTime with
      | none =>
        have hnow : now = startTime := by
          rw [request_go_start hbefore hpending] at hstart
          exact Option.some.inj hstart
        subst hnow
        exact RequestedSince.of_request hrun hbefore hstop
      | some pending =>
        have hsame : pending = startTime := by
          rw [request_go_pending hbefore hpending] at hstart hstop
          split at hstart
          · cases hstart
          · exact Option.some.inj (hpending.symm.trans hstart)
        subst hsame
        exact (htimer hbefore pending hpending).of_step (.setStateWithMarginTime .GO now)
          hstop (fun _ hrequest => by cases hrequest)

theorem TimerRequested.of_step
    (hrun : Run Step {} operations before) (htimer : TimerRequested operations before)
    (operation : Operation) (hfresh : ¬ EntersPending before operation) :
    TimerRequested (operations ++ [operation]) (before.perform operation) := by
  cases operation with
  | setStateWithMarginTime state now => exact htimer.of_setStateWithMarginTime hrun state now
  | setState state =>
    intro hstop startTime hstart
    -- the timer is the one from before, so the state was stop before as well
    have hstate : state = .STOP := hstop
    have hpending : before.startTime = some startTime := hstart
    subst hstate
    have hbefore : before.state = .STOP := by
      cases hstate : before.state with
      | STOP => rfl
      | GO => exact absurd ⟨rfl, hstate, by rw [hpending]; exact Option.some_ne_none _⟩ hfresh
    exact (htimer hbefore startTime hpending).of_step _ hstop fun _ hsame => by cases hsame
  | setMarginTime t =>
    intro hstop startTime hstart
    exact (htimer hstop startTime hstart).of_step _ hstop fun _ hsame => by cases hsame

theorem timerRequested_run {last : StateMachine}
    (hrun : Run FreshStep {} operations last) : TimerRequested operations last := by
  refine hrun.induction_last (motive := TimerRequested) ?_ ?_
  · intro hstop
    cases hstop
  · rintro operations before operation _ hearly htimer ⟨rfl, hfresh⟩
    exact htimer.of_step hearly.unguarded operation hfresh

/-- As long as `setState` does not enter the state stop with a pending timer, a
stopped module goes only after go was requested for longer than the margin. -/
theorem setStateWithMarginTime_margin {operations : List Operation} {before : StateMachine}
    (hrun : Run FreshStep {} operations before) (state : State) (now : Time) :
    MarginKept operations before state now := by
  intro hbefore hgo
  obtain ⟨-, requested, hstart, hmargin⟩ := moves_to_go hbefore hgo
  exact ⟨requested, timerRequested_run hrun hbefore requested hstart, hmargin⟩

/-- Stop and go are requested, and go again half a second and two seconds later. -/
theorem setStateWithMarginTime_margin_second :
    let operations : List Operation :=
      [.setMarginTime 1, .setStateWithMarginTime .STOP 0, .setStateWithMarginTime .GO 0,
        .setStateWithMarginTime .GO 500000000]
    let before := operations.foldl perform {}
    (before.setStateWithMarginTime .GO 2000000000).state = .GO ∧
      MarginKept operations before .GO 2000000000 := by
  intro operations before
  refine ⟨by decide +kernel, setStateWithMarginTime_margin ?_ .GO 2000000000⟩
  exact .cons ⟨rfl, by decide⟩ (.cons ⟨rfl, by decide⟩ (.cons ⟨rfl, by decide⟩
    (.cons ⟨rfl, by decide⟩ (.nil _))))

def requestTimes (operations : List Operation) : List Time :=
  operations.filterMap fun operation =>
    match operation with
    | .setStateWithMarginTime _ now => some now
    | _ => none

/-- A timer from before the state became go, and stop again, lets the module go at once. -/
theorem setStateWithMarginTime_stale_timer :
    ¬ ∀ (operations : List Operation) (before : StateMachine) (state : State) (now : Time),
      (requestTimes operations ++ [now]).Pairwise (· ≤ ·) → Run Step {} operations before →
      MarginKept operations before state now := by
  intro hall
  let operations : List Operation :=
    [.setMarginTime 1, .setState .STOP, .setStateWithMarginTime .GO 0, .setState .GO,
      .setState .STOP]
  have hkept := hall operations (operations.foldl perform {}) .GO 2000000000 (by decide)
    (Run.foldl perform {} operations)
  obtain ⟨requested, ⟨-, early, late, source, hsplit, hearly, hlate⟩, -⟩ :=
    hkept (by decide) (by decide +kernel)
  have hlater : late = [.setState .GO, .setState .STOP] := by
    rcases early with _ | ⟨_, _ | ⟨_, _ | ⟨_, _ | ⟨_, _ | ⟨_, _⟩⟩⟩⟩⟩ <;> simp [operations] at hsplit
    exact hsplit.2.2.2.symm
  subst hlater
  -- the state is go between the two calls of `setState`
  cases hlate with
  | cons hrequest hrest =>
    cases hrest with
    | cons hgo hlast =>
      cases hlast with
      | cons hstop hdone =>
        have hbetween := hstop.2.1
        rw [← hgo.1] at hbetween
        cases hbetween

end StateMachine

end AutowareUniverse.Planning
