import AutowareUniverse.Messages.Common
import Mathlib.Logic.Function.Iterate

/-!
# The compatible interface of the operation modes

The nodes that are older than the operation modes know an engage flag, a gate
mode and a selector mode.  An operation mode is read from the three, and is set
by changing one of them after another in the order of the nodes.
-/

namespace AutowareUniverse.Control

inductive OperationMode where
  | stop
  | autonomous
  | localMode
  | remoteMode
  deriving DecidableEq

namespace OperationMode

/-- The `mode` values of `ChangeOperationMode::Request`. -/
inductive ServiceMode where
  | stop
  | autonomous
  | localMode
  | remoteMode
  | unknown (mode : Nat)
  deriving DecidableEq

def toEnum : ServiceMode → Option OperationMode
  | .stop => some .stop
  | .autonomous => some .autonomous
  | .localMode => some .localMode
  | .remoteMode => some .remoteMode
  | .unknown _ => none

def toString : Option OperationMode → String
  | none => "DISENGAGE"
  | some .stop => "STOP"
  | some .autonomous => "AUTONOMOUS"
  | some .localMode => "LOCAL"
  | some .remoteMode => "REMOTE"

end OperationMode

/-! ## The compatible interface -/

/-- The `data` values of `tier4_control_msgs::msg::GateMode`. -/
inductive GateMode where
  | auto
  | external
  | unknown (data : UInt8)
  deriving DecidableEq

/-- The `data` values of `tier4_control_msgs::msg::ExternalCommandSelectorMode`. -/
inductive SelectorMode where
  | none
  | localMode
  | remoteMode
  | unknown (data : UInt8)
  deriving DecidableEq

/-- The members of `Compatibility`: the last message on each topic. -/
structure Compatibility where
  isCallingService : Bool
  autowareEngage : Option Bool
  gateMode : Option GateMode
  selectorMode : Option SelectorMode
  deriving DecidableEq

namespace Compatibility

/-- What the interface publishes or requests. -/
inductive Output where
  | selectExternalCommand (mode : SelectorMode)
  | gateModeCmd (mode : GateMode)
  | autowareEngage (engage : Bool)
  deriving DecidableEq

def initial : Compatibility := ⟨false, none, none, none⟩

variable (self : Compatibility)

def getMode : Option OperationMode :=
  match self.autowareEngage, self.gateMode, self.selectorMode with
  | some engage, some gateMode, some selectorMode =>
    if engage = false then some .stop
    else if gateMode = .auto then some .autonomous
    else if selectorMode = .remoteMode then some .remoteMode
    else if selectorMode = .localMode then some .localMode
    else none
  | _, _, _ => none

def convert : OperationMode → Bool × GateMode × SelectorMode
  | .stop => (false, .auto, .none)
  | .autonomous => (true, .auto, .none)
  | .localMode => (true, .external, .localMode)
  | .remoteMode => (true, .external, .remoteMode)

def setMode (mode : OperationMode) : Compatibility × List Output :=
  match self.autowareEngage, self.gateMode, self.selectorMode with
  | some currentEngage, some currentGateMode, some currentSelectorMode =>
    let (autowareEngage, gateMode, selectorMode) := convert mode
    let (self, selected) :=
      if selectorMode ≠ .none ∧ currentSelectorMode ≠ selectorMode ∧
          self.isCallingService = false then
        ({ self with isCallingService := true }, [.selectExternalCommand selectorMode])
      else (self, [])
    if currentGateMode ≠ gateMode then
      (self, selected ++ [.gateModeCmd gateMode])
    else if currentEngage ≠ autowareEngage then
      (self, selected ++ [.autowareEngage autowareEngage])
    else (self, selected)
  | _, _, _ => (self, [])

@[simp]
theorem getMode_setMode (mode : OperationMode) :
    (self.setMode mode).1.getMode = self.getMode := by
  unfold setMode
  split
  · dsimp only
    repeat' split
    all_goals rfl
  · rfl

/-! ## Reaching a mode -/

/-- The nodes do what they are told, and a call of the service is answered. -/
def settle (sent : Compatibility × List Output) : Compatibility :=
  sent.2.foldl (fun self output =>
    match output with
    | .selectExternalCommand mode => { self with selectorMode := some mode }
    | .gateModeCmd mode => { self with gateMode := some mode }
    | .autowareEngage engage => { self with autowareEngage := some engage })
    { sent.1 with isCallingService := false }

/-- The mode is set, as in every cycle of a transition, and the nodes follow. -/
def follow (mode : OperationMode) (self : Compatibility) : Compatibility :=
  settle (self.setMode mode)

/-- The nodes have the modes that the operation mode stands for. -/
structure IsSet (mode : OperationMode) (nodes : Compatibility) : Prop where
  answered : nodes.isCallingService = false
  engage : nodes.autowareEngage = some (convert mode).1
  gate : nodes.gateMode = some (convert mode).2.1
  selector : ∃ selectorMode, nodes.selectorMode = some selectorMode ∧
    ((convert mode).2.2 = .none ∨ selectorMode = (convert mode).2.2)

variable {self} {mode : OperationMode}

theorem IsSet.setMode (hset : IsSet mode self) : self.setMode mode = (self, []) := by
  obtain ⟨selectorMode, hselector, hsame⟩ := hset.selector
  unfold Compatibility.setMode
  rw [hset.engage, hset.gate, hselector]
  rcases hsame with hnone | hsame
  · simp [hnone]
  · simp [hsame]

theorem IsSet.getMode (hset : IsSet mode self) : self.getMode = some mode := by
  obtain ⟨selectorMode, hselector, hsame⟩ := hset.selector
  unfold Compatibility.getMode
  rw [hset.engage, hset.gate, hselector]
  cases mode <;> simp_all [convert]

theorem IsSet.follow (hset : IsSet mode self) : follow mode self = self := by
  rw [Compatibility.follow, hset.setMode, settle, List.foldl_nil, ← hset.answered]

theorem follow_eq (calling engage : Bool) (gateMode : GateMode) (selectorMode : SelectorMode) :
    follow mode ⟨calling, some engage, some gateMode, some selectorMode⟩ =
      ⟨false, some (if gateMode = (convert mode).2.1 then (convert mode).1 else engage),
        some (convert mode).2.1, some (if (convert mode).2.2 = .none ∨ calling then selectorMode
          else (convert mode).2.2)⟩ := by
  unfold Compatibility.follow Compatibility.setMode
  generalize convert mode = target
  obtain ⟨autowareEngage, gate, selector⟩ := target
  dsimp only
  split_ifs <;> simp_all [settle]

theorem isSet_follow_follow (calling engage : Bool) (gateMode : GateMode)
    (selectorMode : SelectorMode) : IsSet mode (follow mode (follow mode
      ⟨calling, some engage, some gateMode, some selectorMode⟩)) := by
  rw [follow_eq, follow_eq]
  refine ⟨rfl, by simp, rfl, _, rfl, ?_⟩
  by_cases hnone : (convert mode).2.2 = .none
  · exact .inl hnone
  · simp [hnone]

/-- Every mode is reached within two cycles and kept, and then nothing more is sent. -/
theorem getMode_of_follow (hengage : self.autowareEngage.isSome) (hgate : self.gateMode.isSome)
    (hselector : self.selectorMode.isSome) {cycles : ℕ} (hcycles : 2 ≤ cycles) :
    ((follow mode)^[cycles] self).getMode = some mode ∧
      ((follow mode)^[cycles] self).setMode mode = ((follow mode)^[cycles] self, []) := by
  obtain ⟨calling, engage, gate, selector⟩ := self
  obtain ⟨engage, rfl⟩ := Option.isSome_iff_exists.mp hengage
  obtain ⟨gate, rfl⟩ := Option.isSome_iff_exists.mp hgate
  obtain ⟨selector, rfl⟩ := Option.isSome_iff_exists.mp hselector
  obtain ⟨more, rfl⟩ := Nat.exists_eq_add_of_le' hcycles
  have hset : IsSet mode
      ((follow mode)^[more + 2] ⟨calling, some engage, some gate, some selector⟩) := by
    induction more with
    | zero => exact isSet_follow_follow ..
    | succ more ih =>
      rw [Nat.add_right_comm, Function.iterate_succ_apply', (ih (by omega)).follow]
      exact ih (by omega)
  exact ⟨hset.getMode, hset.setMode⟩

theorem getMode_of_follow_remote :
    let self : Compatibility := ⟨true, some false, some .auto, some .localMode⟩
    ((follow .remoteMode)^[2] self).getMode = some .remoteMode ∧
      ((follow .remoteMode)^[2] self).setMode .remoteMode = ((follow .remoteMode)^[2] self, []) :=
  getMode_of_follow rfl rfl rfl le_rfl

end Compatibility

end AutowareUniverse.Control
