import AutowareUniverse.Library.KeyedList
import AutowareUniverse.Library.Runs
import AutowareUniverse.Messages.Common
import AutowareUniverse.Library.Numerals

/-!
# The request-to-cooperate interface

A planning module registers a cooperate status per uuid, and an operator or
the auto mode decides on it through two services.  Commands that arrive while
a module runs are stored and applied when the module unlocks the interface.
Every operation is a function of the members; warnings in the log are left
out.
-/

namespace AutowareUniverse.Planning

open Library.KeyedList Library.Runs Messages

namespace RtcInterface

/-! ## Messages -/

/-- `unique_identifier_msgs::msg::UUID`. -/
structure UUID where
  uuid : Vector UInt8 16
  deriving DecidableEq

/-- `tier4_rtc_msgs::msg::Command`. -/
structure Command where
  type : UInt8
  deriving DecidableEq

def Command.deactivate : Command := ⟨0⟩
def Command.activate : Command := ⟨1⟩

/-- The `type` values of `tier4_rtc_msgs::msg::Module`. -/
inductive Module where
  | none
  | laneChangeLeft
  | laneChangeRight
  | extRequestLaneChangeLeft
  | extRequestLaneChangeRight
  | avoidanceByLcLeft
  | avoidanceByLcRight
  | avoidanceLeft
  | avoidanceRight
  | pullOver
  | pullOut
  | trafficLight
  | intersection
  | intersectionOcclusion
  | crosswalk
  | blindSpot
  | detectionArea
  | noStoppingArea
  | occlusionSpot
  deriving DecidableEq

def getModuleType (moduleName : String) : Module :=
  if moduleName = "blind_spot" then .blindSpot
  else if moduleName = "crosswalk" then .crosswalk
  else if moduleName = "detection_area" then .detectionArea
  else if moduleName = "intersection" then .intersection
  else if moduleName = "no_stopping_area" then .noStoppingArea
  else if moduleName = "occlusion_spot" then .occlusionSpot
  else if moduleName = "stop_line" then .none
  else if moduleName = "traffic_light" then .trafficLight
  else if moduleName = "virtual_traffic_light" then .trafficLight
  else if moduleName = "lane_change_left" then .laneChangeLeft
  else if moduleName = "lane_change_right" then .laneChangeRight
  else if moduleName = "external_request_lane_change_left" then
    .extRequestLaneChangeLeft
  else if moduleName = "external_request_lane_change_right" then
    .extRequestLaneChangeRight
  else if moduleName = "avoidance_by_lane_change_left" then .avoidanceByLcLeft
  else if moduleName = "avoidance_by_lane_change_right" then .avoidanceByLcRight
  else if moduleName = "avoidance_left" then .avoidanceLeft
  else if moduleName = "avoidance_right" then .avoidanceRight
  else if moduleName = "pull_over" then .pullOver
  else if moduleName = "pull_out" then .pullOut
  else if moduleName = "intersection_occlusion" then .intersectionOcclusion
  else .none

structure CooperateCommand where
  uuid : UUID
  module : Module
  command : Command
  deriving DecidableEq

structure CooperateResponse where
  uuid : UUID
  module : Module
  success : Bool
  deriving DecidableEq

structure CooperateStatus where
  stamp : Time
  uuid : UUID
  module : Module
  safe : Bool
  commandStatus : Command
  startDistance : ℚ
  finishDistance : ℚ
  autoMode : Bool
  deriving DecidableEq

end RtcInterface

open RtcInterface

/-- The members of `RTCInterface`; `registeredStatus` is the list of statuses. -/
structure RtcInterface where
  module : Module
  registeredStatus : List CooperateStatus
  storedCommands : List CooperateCommand
  isAutoModeInit : Bool
  isLocked : Bool

namespace RtcInterface

/-- The state left by the constructor for a module name. -/
def initial (name : String) : RtcInterface where
  module := getModuleType name
  registeredStatus := []
  storedCommands := []
  isAutoModeInit := false
  isLocked := false

/-! ## Operations -/

section

variable (self : RtcInterface)

def findStatus (uuid : UUID) : Option CooperateStatus :=
  findKey CooperateStatus.uuid uuid self.registeredStatus

def isRegistered (uuid : UUID) : Bool :=
  (self.findStatus uuid).isSome

def isActivated (uuid : UUID) : Bool :=
  match self.findStatus uuid with
  | some status =>
    if status.autoMode then status.safe
    else decide (status.commandStatus.type = Command.activate.type)
  | none => false

def validateCooperateCommands (commands : List CooperateCommand) : List CooperateResponse :=
  commands.map fun command =>
    ⟨command.uuid, command.module, (self.findStatus command.uuid).isSome⟩

end

def setCommand (command : CooperateCommand) (status : CooperateStatus) :
    CooperateStatus :=
  { status with commandStatus := command.command, autoMode := false }

def updateCooperateCommandStatus (self : RtcInterface)
    (commands : List CooperateCommand) : RtcInterface :=
  { self with
    registeredStatus := commands.foldl
      (fun statuses command =>
        updateKey CooperateStatus.uuid command.uuid (setCommand command) statuses)
      self.registeredStatus }

def onCooperateCommandService (self : RtcInterface)
    (commands : List CooperateCommand) : RtcInterface × List CooperateResponse :=
  let responses := self.validateCooperateCommands commands
  if self.isLocked then
    ({ self with storedCommands := commands }, responses)
  else
    (self.updateCooperateCommandStatus commands, responses)

def setAutoMode (enable : Bool) (status : CooperateStatus) : CooperateStatus :=
  { status with autoMode := enable }

def onAutoModeService (self : RtcInterface) (enable : Bool) : RtcInterface :=
  { self with
    isAutoModeInit := enable
    registeredStatus := self.registeredStatus.map (setAutoMode enable) }

/-- What an update by the module does to a status that it finds. -/
def refresh (safe : Bool) (startDistance finishDistance : ℚ) (stamp : Time)
    (status : CooperateStatus) : CooperateStatus :=
  { status with
    stamp := stamp
    safe := safe
    startDistance := startDistance
    finishDistance := finishDistance }

section

variable (self : RtcInterface)

def updateCooperateStatus (uuid : UUID) (safe : Bool)
    (startDistance finishDistance : ℚ) (stamp : Time) : RtcInterface :=
  match self.findStatus uuid with
  | none =>
    { self with
      registeredStatus := self.registeredStatus ++
        [{ stamp := stamp
           uuid := uuid
           module := self.module
           safe := safe
           commandStatus := .deactivate
           startDistance := startDistance
           finishDistance := finishDistance
           autoMode := self.isAutoModeInit }] }
  | some _ =>
    { self with
      registeredStatus := updateKey CooperateStatus.uuid uuid
        (refresh safe startDistance finishDistance stamp)
        self.registeredStatus }

def removeStoredCommand (uuid : UUID) : RtcInterface :=
  { self with
    storedCommands := eraseKey CooperateCommand.uuid uuid self.storedCommands }

def removeCooperateStatus (uuid : UUID) : RtcInterface :=
  let removed := self.removeStoredCommand uuid
  { removed with
    registeredStatus :=
      eraseKey CooperateStatus.uuid uuid removed.registeredStatus }

def clearCooperateStatus : RtcInterface :=
  { self with registeredStatus := [], storedCommands := [] }

def lockCommandUpdate : RtcInterface :=
  { self with isLocked := true }

def unlockCommandUpdate : RtcInterface :=
  { self with isLocked := false }.updateCooperateCommandStatus self.storedCommands

end

/-- The operations that the planner and the two services perform. -/
inductive Operation where
  | updateCooperateStatus (uuid : UUID) (safe : Bool)
      (startDistance finishDistance : ℚ) (stamp : Time)
  | removeCooperateStatus (uuid : UUID)
  | clearCooperateStatus
  | onCooperateCommandService (commands : List CooperateCommand)
  | onAutoModeService (enable : Bool)
  | lockCommandUpdate
  | unlockCommandUpdate

def perform (self : RtcInterface) : Operation → RtcInterface
  | .updateCooperateStatus uuid safe startDistance finishDistance stamp =>
    self.updateCooperateStatus uuid safe startDistance finishDistance stamp
  | .removeCooperateStatus uuid => self.removeCooperateStatus uuid
  | .clearCooperateStatus => self.clearCooperateStatus
  | .onCooperateCommandService commands =>
    (self.onCooperateCommandService commands).1
  | .onAutoModeService enable => self.onAutoModeService enable
  | .lockCommandUpdate => self.lockCommandUpdate
  | .unlockCommandUpdate => self.unlockCommandUpdate

/-! ## The decision on a uuid

Of a registered status only the command and the auto mode decide whether the
module is activated.  The lemmas say what each operation does to this pair.
-/

/-- The command and the auto mode that are in force for a uuid. -/
structure Decision where
  commandStatus : Command
  autoMode : Bool
  deriving DecidableEq

def Decision.ofCommand (command : Command) : Decision := ⟨command, false⟩

def CooperateStatus.decision (status : CooperateStatus) : Decision :=
  ⟨status.commandStatus, status.autoMode⟩

def decision? (self : RtcInterface) (uuid : UUID) : Option Decision :=
  (self.findStatus uuid).map CooperateStatus.decision

def lastCommand? (commands : List CooperateCommand) (uuid : UUID) :
    Option Command :=
  (findLastKey CooperateCommand.uuid uuid commands).map CooperateCommand.command

def decide? (commands : List CooperateCommand) (uuid : UUID)
    (decision : Option Decision) : Option Decision :=
  match lastCommand? commands uuid with
  | some command => decision.map fun _ => .ofCommand command
  | none => decision

variable {self : RtcInterface}

theorem isRegistered_iff {uuid : UUID} :
    self.isRegistered uuid = true ↔ ∃ decision, self.decision? uuid = some decision := by
  unfold isRegistered decision?
  cases self.findStatus uuid with
  | none => simp
  | some status => simp

section

variable (self : RtcInterface)

theorem decision?_updateCooperateCommandStatus (commands : List CooperateCommand) (uuid : UUID) :
    (self.updateCooperateCommandStatus commands).decision? uuid =
      decide? commands uuid (self.decision? uuid) := by
  unfold updateCooperateCommandStatus decision? findStatus decide? lastCommand?
  dsimp only
  rw [findKey_foldl_updateKey CooperateStatus.uuid CooperateCommand.uuid setCommand
    (fun _ _ => rfl) (fun _ _ _ _ => rfl)]
  cases findLastKey CooperateCommand.uuid uuid commands with
  | none => rfl
  | some command =>
    cases findKey CooperateStatus.uuid uuid self.registeredStatus with
    | none => rfl
    | some status => rfl

theorem decision?_unlockCommandUpdate (uuid : UUID) : self.unlockCommandUpdate.decision? uuid =
      decide? self.storedCommands uuid (self.decision? uuid) :=
  decision?_updateCooperateCommandStatus _ _ _

theorem decision?_onAutoModeService (enable : Bool) (uuid : UUID) :
    (self.onAutoModeService enable).decision? uuid =
      (self.decision? uuid).map fun decision =>
        { decision with autoMode := enable } := by
  unfold onAutoModeService decision? findStatus
  dsimp only
  rw [findKey_map CooperateStatus.uuid (setAutoMode enable) (fun _ => rfl)]
  cases findKey CooperateStatus.uuid uuid self.registeredStatus with
  | none => rfl
  | some status => rfl

theorem decision?_updateCooperateStatus (updated uuid : UUID)
    (safe : Bool) (startDistance finishDistance : ℚ) (stamp : Time) :
    (self.updateCooperateStatus updated safe startDistance finishDistance stamp).decision? uuid =
      if uuid = updated ∧ self.decision? uuid = none then
        some ⟨.deactivate, self.isAutoModeInit⟩
      else self.decision? uuid := by
  unfold updateCooperateStatus decision?
  cases hfound : self.findStatus updated with
  | none =>
    unfold findStatus at hfound ⊢
    dsimp only
    rw [findKey_append, findKey_cons]
    by_cases huuid : uuid = updated
    · subst huuid
      simp [hfound, CooperateStatus.decision]
    · have hne : updated ≠ uuid := fun heq => huuid heq.symm
      simp [huuid, hne]
  | some status =>
    unfold findStatus at hfound ⊢
    dsimp only
    rw [findKey_updateKey CooperateStatus.uuid
      (refresh safe startDistance finishDistance stamp) (fun _ => rfl)]
    by_cases huuid : uuid = updated
    · subst huuid
      simp [hfound, CooperateStatus.decision, refresh]
    · simp [huuid]

def UuidsNodup : Prop :=
  (self.registeredStatus.map CooperateStatus.uuid).Nodup

end

theorem decision?_removeCooperateStatus (hnodup : self.UuidsNodup) (removed uuid : UUID) :
    (self.removeCooperateStatus removed).decision? uuid =
      if uuid = removed then none else self.decision? uuid := by
  unfold removeCooperateStatus removeStoredCommand decision? findStatus
  dsimp only
  by_cases huuid : uuid = removed
  · subst huuid
    rw [if_pos rfl, findKey_eraseKey_self CooperateStatus.uuid hnodup]
    rfl
  · rw [if_neg huuid, findKey_eraseKey_of_ne CooperateStatus.uuid huuid]

theorem uuidsNodup_updateCooperateCommandStatus
    (hnodup : self.UuidsNodup) (commands : List CooperateCommand) :
    (self.updateCooperateCommandStatus commands).UuidsNodup := by
  unfold UuidsNodup updateCooperateCommandStatus
  dsimp only
  have hmap (statuses : List CooperateStatus) :
      (commands.foldl (fun statuses command =>
        updateKey CooperateStatus.uuid command.uuid (setCommand command) statuses)
        statuses).map CooperateStatus.uuid = statuses.map CooperateStatus.uuid := by
    induction commands generalizing statuses with
    | nil => rfl
    | cons command commands ih =>
      rw [List.foldl_cons, ih]
      exact map_key_updateKey CooperateStatus.uuid (setCommand command) (fun _ => rfl) _ _
  rw [hmap]
  exact hnodup

theorem uuidsNodup_updateCooperateStatus (hnodup : self.UuidsNodup) (uuid : UUID) (safe : Bool)
    (startDistance finishDistance : ℚ) (stamp : Time) :
    (self.updateCooperateStatus uuid safe startDistance finishDistance
      stamp).UuidsNodup := by
  cases hfound : self.findStatus uuid with
  | none =>
    have hfresh := (findKey_eq_none_iff CooperateStatus.uuid).mp hfound
    simp only [UuidsNodup, updateCooperateStatus, hfound, List.map_append]
    refine List.Nodup.append hnodup (List.nodup_singleton _) ?_
    simpa using hfresh
  | some status =>
    simp only [UuidsNodup, updateCooperateStatus, hfound]
    rw [map_key_updateKey CooperateStatus.uuid
      (refresh safe startDistance finishDistance stamp) (fun _ => rfl)]
    exact hnodup

theorem uuidsNodup_perform (hnodup : self.UuidsNodup)
    (operation : Operation) : (self.perform operation).UuidsNodup := by
  cases operation with
  | updateCooperateStatus uuid safe startDistance finishDistance stamp =>
    exact uuidsNodup_updateCooperateStatus hnodup uuid safe startDistance finishDistance stamp
  | removeCooperateStatus uuid =>
    exact List.Nodup.sublist ((eraseKey_sublist CooperateStatus.uuid uuid _).map _) hnodup
  | clearCooperateStatus => exact List.nodup_nil
  | onCooperateCommandService commands =>
    unfold perform onCooperateCommandService
    dsimp only
    split
    · exact hnodup
    · exact uuidsNodup_updateCooperateCommandStatus hnodup commands
  | onAutoModeService enable =>
    unfold UuidsNodup perform onAutoModeService
    dsimp only
    rw [List.map_map]
    exact hnodup
  | lockCommandUpdate => exact hnodup
  | unlockCommandUpdate =>
    have hunlocked : UuidsNodup { self with isLocked := false } := hnodup
    exact uuidsNodup_updateCooperateCommandStatus hunlocked self.storedCommands

end RtcInterface

end AutowareUniverse.Planning

namespace AutowareUniverse.Planning.RtcInterface

section

/-! ## Requests during a lock -/

open Library.KeyedList Messages

/-- The operations that occur between locking and unlocking when no status is
removed and the auto mode is not switched. -/
inductive LockedOperation where
  | updateCooperateStatus (uuid : UUID) (safe : Bool)
      (startDistance finishDistance : ℚ) (stamp : Time)
  | onCooperateCommandService (commands : List CooperateCommand)
  | lockCommandUpdate

namespace LockedOperation

def operation : LockedOperation → Operation
  | .updateCooperateStatus uuid safe startDistance finishDistance stamp =>
    .updateCooperateStatus uuid safe startDistance finishDistance stamp
  | .onCooperateCommandService commands => .onCooperateCommandService commands
  | .lockCommandUpdate => .lockCommandUpdate

def requested : LockedOperation → List CooperateCommand
  | .onCooperateCommandService commands => commands
  | _ => []

def Updates (uuid : UUID) : LockedOperation → Prop
  | .updateCooperateStatus updated _ _ _ _ => uuid = updated
  | _ => False

instance (uuid : UUID) : DecidablePred (Updates uuid) := fun operation =>
  match operation with
  | .updateCooperateStatus updated _ _ _ _ => inferInstanceAs (Decidable (uuid = updated))
  | .onCooperateCommandService _ => inferInstanceAs (Decidable False)
  | .lockCommandUpdate => inferInstanceAs (Decidable False)

end LockedOperation

def allRequested (operations : List LockedOperation) : List CooperateCommand :=
  operations.flatMap LockedOperation.requested

def newestRequest (stored : List CooperateCommand) : List LockedOperation → List CooperateCommand
  | [] => stored
  | .onCooperateCommandService commands :: operations =>
    newestRequest commands operations
  | _ :: operations => newestRequest stored operations

variable (self : RtcInterface)

def lockedPeriod (operations : List LockedOperation) :
    RtcInterface :=
  (operations.foldl (fun self operation => self.perform operation.operation)
    self.lockCommandUpdate).unlockCommandUpdate

def commandStatus? (uuid : UUID) : Option Command :=
  (self.decision? uuid).map Decision.commandStatus

theorem isSome_commandStatus? (uuid : UUID) :
    (self.commandStatus? uuid).isSome = true ↔ self.isRegistered uuid = true := by
  rw [commandStatus?, Option.isSome_map, isRegistered_iff]
  exact Option.isSome_iff_exists

def carriedCommand? (operations : List LockedOperation) (uuid : UUID) : Option Command :=
  match self.commandStatus? uuid with
  | some command => some command
  | none =>
    if ∃ operation ∈ operations, operation.Updates uuid then some .deactivate
    else none

theorem perform_locked {self : RtcInterface} (hlocked : self.isLocked = true)
    (operation : LockedOperation) :
    (self.perform operation.operation).isLocked = true ∧
      (self.perform operation.operation).storedCommands =
        newestRequest self.storedCommands [operation] ∧
      ∀ uuid, (self.perform operation.operation).commandStatus? uuid =
        self.carriedCommand? [operation] uuid := by
  cases operation with
  | updateCooperateStatus updated safe startDistance finishDistance stamp =>
    refine ⟨?_, ?_, fun uuid => ?_⟩
    · simp only [LockedOperation.operation, perform, updateCooperateStatus]
      split
      · exact hlocked
      · exact hlocked
    · simp only [LockedOperation.operation, perform, updateCooperateStatus]
      split <;> rfl
    · simp only [LockedOperation.operation, perform, commandStatus?,
        decision?_updateCooperateStatus, carriedCommand?, List.mem_singleton,
        exists_eq_left, LockedOperation.Updates]
      cases self.decision? uuid with
      | none =>
        by_cases huuid : uuid = updated
        · simp [huuid]
        · simp [huuid]
      | some decision => simp
  | onCooperateCommandService commands =>
    have hperform : self.perform (.onCooperateCommandService commands) =
        { self with storedCommands := commands } := by
      simp [perform, onCooperateCommandService, hlocked]
    simp only [LockedOperation.operation, hperform]
    refine ⟨hlocked, rfl, fun uuid => ?_⟩
    simp only [carriedCommand?, List.mem_singleton, exists_eq_left,
      LockedOperation.Updates, if_false]
    change self.commandStatus? uuid = _
    cases self.commandStatus? uuid with
    | none => rfl
    | some command => rfl
  | lockCommandUpdate =>
    refine ⟨rfl, rfl, fun uuid => ?_⟩
    simp only [carriedCommand?, List.mem_singleton, exists_eq_left,
      LockedOperation.Updates, if_false]
    change self.commandStatus? uuid = _
    cases self.commandStatus? uuid with
    | none => rfl
    | some command => rfl

theorem carriedCommand?_cons {before after : RtcInterface} {operation : LockedOperation}
    {uuid : UUID} (hstep : after.commandStatus? uuid = before.carriedCommand? [operation] uuid)
    (operations : List LockedOperation) :
    after.carriedCommand? operations uuid =
      before.carriedCommand? (operation :: operations) uuid := by
  rw [carriedCommand?, hstep]
  simp only [carriedCommand?, List.mem_singleton, exists_eq_left, List.exists_mem_cons_iff]
  cases before.commandStatus? uuid with
  | some command => rfl
  | none =>
    by_cases hupdates : operation.Updates uuid
    · simp [hupdates]
    · simp [hupdates]

theorem foldl_perform_locked {self : RtcInterface} (hlocked : self.isLocked = true)
    (operations : List LockedOperation) :
    (operations.foldl (fun self operation => self.perform operation.operation)
        self).storedCommands = newestRequest self.storedCommands operations ∧
      ∀ uuid, (operations.foldl (fun self operation =>
          self.perform operation.operation) self).commandStatus? uuid =
        self.carriedCommand? operations uuid := by
  induction operations generalizing self with
  | nil =>
    refine ⟨rfl, fun uuid => ?_⟩
    simp only [List.foldl_nil, carriedCommand?, List.not_mem_nil, false_and, exists_false, if_false]
    cases self.commandStatus? uuid with
    | none => rfl
    | some command => rfl
  | cons operation operations ih =>
    obtain ⟨hafter, hstored, hcarried⟩ := perform_locked hlocked operation
    obtain ⟨ihStored, ihCarried⟩ := ih hafter
    refine ⟨?_, fun uuid => ?_⟩
    · rw [List.foldl_cons, ihStored, hstored]
      cases operation <;> rfl
    · rw [List.foldl_cons, ihCarried uuid]
      exact carriedCommand?_cons (hcarried uuid) operations

/-- Unlocking applies the newest request and nothing else. -/
theorem commandStatus?_lockedPeriod (self : RtcInterface)
    (operations : List LockedOperation) (uuid : UUID) :
    (self.lockedPeriod operations).commandStatus? uuid =
      match lastCommand? (newestRequest self.storedCommands operations) uuid with
      | some command => (self.carriedCommand? operations uuid).map fun _ => command
      | none => self.carriedCommand? operations uuid := by
  have hlocked : self.lockCommandUpdate.isLocked = true := rfl
  obtain ⟨hstored, hcarried⟩ := foldl_perform_locked hlocked operations
  have hbefore : _ = self.carriedCommand? operations uuid := hcarried uuid
  rw [lockedPeriod, commandStatus?, decision?_unlockCommandUpdate, hstored,
    ← hbefore, commandStatus?, decide?]
  change Option.map _ (match lastCommand? (newestRequest self.storedCommands
    operations) uuid with | some _ => _ | none => _) = _
  cases lastCommand? (newestRequest self.storedCommands operations) uuid with
  | none => rfl
  | some command =>
    simp only [Option.map_map]
    rfl

theorem lastCommand?_append (front back : List CooperateCommand) (uuid : UUID) :
    lastCommand? (front ++ back) uuid =
      (lastCommand? back uuid).or (lastCommand? front uuid) := by
  rw [lastCommand?, findLastKey_append, Option.map_or]
  rfl

theorem lastCommand?_of_newestRequest {stored : List CooperateCommand}
    {operations : List LockedOperation} {uuid : UUID} {command : Command}
    (hnewest : lastCommand? (newestRequest stored operations) uuid = some command) :
    lastCommand? (stored ++ allRequested operations) uuid = some command := by
  induction operations generalizing stored with
  | nil =>
    rw [allRequested, List.flatMap_nil, List.append_nil]
    exact hnewest
  | cons operation operations ih =>
    cases operation with
    | onCooperateCommandService commands =>
      rw [lastCommand?_append]
      change (lastCommand? (commands ++ allRequested operations) uuid).or _ = _
      rw [ih hnewest]
      rfl
    | updateCooperateStatus updated safe startDistance finishDistance stamp =>
      exact ih hnewest
    | lockCommandUpdate => exact ih hnewest

/-- After a lock period every registered uuid carries the last command that any
of its requests gave to it if and only if the newest request names each such
uuid that did not carry the command anyway. -/
theorem locked_requests_carried_iff (self : RtcInterface) (operations : List LockedOperation) :
    (∀ uuid command, (self.lockedPeriod operations).isRegistered uuid = true →
        lastCommand? (allRequested operations) uuid = some command →
        (self.lockedPeriod operations).commandStatus? uuid = some command) ↔
      ∀ uuid command carried, self.carriedCommand? operations uuid = some carried →
        lastCommand? (allRequested operations) uuid = some command →
        carried ≠ command →
        lastCommand? (newestRequest self.storedCommands operations) uuid ≠ none := by
  have hregistered (uuid : UUID) : (self.lockedPeriod operations).isRegistered uuid = true ↔
        ∃ carried, self.carriedCommand? operations uuid = some carried := by
    rw [← isSome_commandStatus?, commandStatus?_lockedPeriod]
    cases lastCommand? (newestRequest self.storedCommands operations) uuid with
    | none => exact Option.isSome_iff_exists
    | some command => rw [Option.isSome_map]; exact Option.isSome_iff_exists
  refine forall_congr' fun uuid => forall_congr' fun command => ?_
  rw [commandStatus?_lockedPeriod, hregistered]
  constructor
  · intro hcarries carried hcarried hlast hne hdropped
    have hkept := hcarries ⟨carried, hcarried⟩ hlast
    rw [hdropped, hcarried] at hkept
    exact hne (Option.some.inj hkept)
  · rintro hnamed ⟨carried, hcarried⟩ hlast
    cases hnewest :
        lastCommand? (newestRequest self.storedCommands operations) uuid with
    | none =>
      have hsame : carried = command := by
        by_contra hne
        exact hnamed carried hcarried hlast hne hnewest
      rw [hcarried, hsame]
    | some newest =>
      -- the newest request ends the list of all commands, so its entry is the last
      have hends := lastCommand?_of_newestRequest hnewest
      rw [lastCommand?_append, hlast, Option.some_or] at hends
      simp only [hcarried, Option.map_some]
      exact hends.symm

def byteUuid (byte : UInt8) : UUID := ⟨Vector.replicate 16 byte⟩

def twoRegistered : RtcInterface :=
  ((initial "crosswalk").updateCooperateStatus (byteUuid 1) true 0 0 0)
    |>.updateCooperateStatus (byteUuid 2) true 0 0 0

/-- The first of two accepted requests is lost. -/
theorem earlier_request_lost :
    ¬ ∀ (self : RtcInterface) (operations : List LockedOperation) (uuid : UUID) (command : Command),
      (self.lockedPeriod operations).isRegistered uuid = true →
      lastCommand? (allRequested operations) uuid = some command →
      (self.lockedPeriod operations).commandStatus? uuid = some command := by
  intro hclaim
  have hkept := hclaim twoRegistered
    [.onCooperateCommandService [⟨byteUuid 1, .crosswalk, .activate⟩],
      .onCooperateCommandService [⟨byteUuid 2, .crosswalk, .activate⟩]]
    (byteUuid 1) .activate (by decide +kernel) (by decide +kernel)
  exact absurd hkept (by decide +kernel)

end

/-!
## Decisions are not replayed

What an operator may expect of the interface is a machine without a lock: each
command, auto mode call and registration decides at once, and the newest one
is in force.  The interface keeps to it as long as no newer decision meets a
stored command that an unlock would put in force again, because unlocking does
not drop the commands that it applies.
-/

open Library.KeyedList Library.Runs Messages

def Operation.effect (isAutoModeInit : Bool) (uuid : UUID)
    (decision : Option Decision) : Operation → Option Decision
  | .updateCooperateStatus updated _ _ _ _ =>
    if uuid = updated ∧ decision = none then some ⟨.deactivate, isAutoModeInit⟩
    else decision
  | .removeCooperateStatus removed => if uuid = removed then none else decision
  | .clearCooperateStatus => none
  | .onCooperateCommandService commands => decide? commands uuid decision
  | .onAutoModeService enable =>
    decision.map fun decision => { decision with autoMode := enable }
  | .lockCommandUpdate => decision
  | .unlockCommandUpdate => decision

def Operation.autoModeInit (isAutoModeInit : Bool) : Operation → Bool
  | .onAutoModeService enable => enable
  | _ => isAutoModeInit

/-- The newest decision for every registered uuid. -/
structure Decisions where
  isAutoModeInit : Bool
  decided : UUID → Option Decision

def Decisions.initial : Decisions := ⟨false, fun _ => none⟩

def Decisions.take (decisions : Decisions) (operation : Operation) : Decisions where
  isAutoModeInit := operation.autoModeInit decisions.isAutoModeInit
  decided := fun uuid =>
    operation.effect decisions.isAutoModeInit uuid (decisions.decided uuid)

def observe (state : RtcInterface × Decisions) (operation : Operation) : RtcInterface × Decisions :=
  (state.1.perform operation, state.2.take operation)

/-! ## Decisions that meet a stored command -/

variable (self : RtcInterface)

/-- No decision is made that the stored commands would overrule at an unlock. -/
def ConflictFree : Operation → Prop
  | .onCooperateCommandService commands =>
    ∀ uuid decision stored, self.decision? uuid = some decision →
      lastCommand? self.storedCommands uuid = some stored →
      if self.isLocked then
        lastCommand? commands uuid = none → decision = .ofCommand stored
      else ∀ command, lastCommand? commands uuid = some command → command = stored
  | .onAutoModeService enable =>
    ∀ uuid decision stored, self.decision? uuid = some decision →
      lastCommand? self.storedCommands uuid = some stored → enable = false
  | .updateCooperateStatus uuid _ _ _ _ =>
    ∀ stored, self.decision? uuid = none → lastCommand? self.storedCommands uuid = some stored →
      ⟨.deactivate, self.isAutoModeInit⟩ = Decision.ofCommand stored
  | _ => True

theorem decide?_of_none {commands : List CooperateCommand} {uuid : UUID}
    (hlast : lastCommand? commands uuid = none) (decision : Option Decision) :
    decide? commands uuid decision = decision := by
  rw [decide?, hlast]

theorem decide?_of_some {commands : List CooperateCommand} {uuid : UUID} {command : Command}
    (hlast : lastCommand? commands uuid = some command) (decision : Option Decision) :
    decide? commands uuid decision = decision.map fun _ => .ofCommand command := by
  rw [decide?, hlast]

theorem decide?_decide? (commands : List CooperateCommand) (uuid : UUID)
    (decision : Option Decision) :
    decide? commands uuid (decide? commands uuid decision) =
      decide? commands uuid decision := by
  cases hlast : lastCommand? commands uuid with
  | none => rw [decide?_of_none hlast, decide?_of_none hlast]
  | some command =>
    rw [decide?_of_some hlast, decide?_of_some hlast]
    cases decision with
    | none => rfl
    | some decision => rfl

theorem storedCommands_perform (operation : Operation) : (self.perform operation).storedCommands =
      match operation with
      | .removeCooperateStatus uuid =>
        (self.removeStoredCommand uuid).storedCommands
      | .clearCooperateStatus => []
      | .onCooperateCommandService commands =>
        if self.isLocked then commands else self.storedCommands
      | _ => self.storedCommands := by
  cases operation with
  | updateCooperateStatus uuid safe startDistance finishDistance stamp =>
    simp only [perform, updateCooperateStatus]
    split <;> rfl
  | onCooperateCommandService commands =>
    simp only [perform, onCooperateCommandService]
    split <;> rfl
  | removeCooperateStatus uuid => rfl
  | clearCooperateStatus => rfl
  | onAutoModeService enable => rfl
  | lockCommandUpdate => rfl
  | unlockCommandUpdate => rfl

theorem isAutoModeInit_perform (operation : Operation) : (self.perform operation).isAutoModeInit =
      operation.autoModeInit self.isAutoModeInit := by
  cases operation with
  | updateCooperateStatus uuid safe startDistance finishDistance stamp =>
    simp only [perform, updateCooperateStatus, Operation.autoModeInit]
    split <;> rfl
  | onCooperateCommandService commands =>
    simp only [perform, onCooperateCommandService, Operation.autoModeInit]
    split <;> rfl
  | removeCooperateStatus uuid => rfl
  | clearCooperateStatus => rfl
  | onAutoModeService enable => rfl
  | lockCommandUpdate => rfl
  | unlockCommandUpdate => rfl

variable {self : RtcInterface} {operation : Operation}

theorem decision?_perform_of_unlocked (hnodup : self.UuidsNodup) (hunlocked : self.isLocked = false)
    (hne : operation ≠ .unlockCommandUpdate) (uuid : UUID) :
    (self.perform operation).decision? uuid =
      operation.effect self.isAutoModeInit uuid (self.decision? uuid) := by
  cases operation with
  | updateCooperateStatus updated safe startDistance finishDistance stamp =>
    exact decision?_updateCooperateStatus _ _ _ _ _ _ _
  | removeCooperateStatus removed =>
    exact decision?_removeCooperateStatus hnodup removed uuid
  | clearCooperateStatus => rfl
  | onCooperateCommandService commands =>
    have hdirect : self.perform (.onCooperateCommandService commands) =
        self.updateCooperateCommandStatus commands := by
      simp [perform, onCooperateCommandService, hunlocked]
    rw [hdirect]
    exact decision?_updateCooperateCommandStatus self commands uuid
  | onAutoModeService enable => exact decision?_onAutoModeService self enable uuid
  | lockCommandUpdate => rfl
  | unlockCommandUpdate => exact absurd rfl hne

theorem isLocked_perform_of_ne (hne : operation ≠ .unlockCommandUpdate)
    (hafter : (self.perform operation).isLocked = false) :
    self.isLocked = false := by
  cases operation with
  | updateCooperateStatus updated safe startDistance finishDistance stamp =>
    simp only [perform, updateCooperateStatus] at hafter
    split at hafter
    · exact hafter
    · exact hafter
  | onCooperateCommandService commands =>
    simp only [perform, onCooperateCommandService] at hafter
    split at hafter
    · exact hafter
    · exact hafter
  | removeCooperateStatus removed => exact hafter
  | clearCooperateStatus => exact hafter
  | onAutoModeService enable => exact hafter
  | lockCommandUpdate => cases hafter
  | unlockCommandUpdate => exact absurd rfl hne

/-! ## What an unlock would put in force

An operation is free of conflicts exactly if an unlock after it would show its
effect on what an unlock before it would have shown.
-/

theorem unlock_onCooperateCommandService_iff (hunlocked : self.isLocked = false → ∀ uuid,
      self.unlockCommandUpdate.decision? uuid = self.decision? uuid)
    (commands : List CooperateCommand) :
    self.ConflictFree (.onCooperateCommandService commands) ↔ ∀ uuid,
      (self.perform (.onCooperateCommandService commands)).unlockCommandUpdate.decision? uuid =
        decide? commands uuid (self.unlockCommandUpdate.decision? uuid) := by
  cases hlocked : self.isLocked with
  | true =>
    have hperform : self.perform (.onCooperateCommandService commands) =
        { self with storedCommands := commands } := by
      simp [perform, onCooperateCommandService, hlocked]
    simp only [hperform, decision?_unlockCommandUpdate, ConflictFree, hlocked, if_true]
    refine forall_congr' fun uuid => ?_
    change _ ↔ decide? commands uuid (self.decision? uuid) = _
    cases hnew : lastCommand? commands uuid with
    | some command =>
      simp only [decide?_of_some hnew]
      cases hstored : lastCommand? self.storedCommands uuid with
      | none => simp [decide?_of_none hstored]
      | some stored =>
        rw [decide?_of_some hstored]
        cases self.decision? uuid with
        | none => simp
        | some decision => simp
    | none =>
      simp only [decide?_of_none hnew]
      cases hstored : lastCommand? self.storedCommands uuid with
      | none => simp [decide?_of_none hstored]
      | some stored =>
        rw [decide?_of_some hstored]
        cases hdecision : self.decision? uuid with
        | none => simp
        | some decision => simp
  | false =>
    have hperform : self.perform (.onCooperateCommandService commands) =
        self.updateCooperateCommandStatus commands := by
      simp [perform, onCooperateCommandService, hlocked]
    rw [hperform]
    simp only [decision?_unlockCommandUpdate, ConflictFree, hlocked]
    refine forall_congr' fun uuid => ?_
    have hsame := hunlocked hlocked uuid
    rw [decision?_unlockCommandUpdate] at hsame
    rw [decision?_updateCooperateCommandStatus, hsame]
    change _ ↔ decide? self.storedCommands uuid _ = _
    cases hnew : lastCommand? commands uuid with
    | none =>
      rw [decide?_of_none hnew, hsame]
      simp
    | some command =>
      rw [decide?_of_some hnew]
      cases hstored : lastCommand? self.storedCommands uuid with
      | none => simp [decide?_of_none hstored]
      | some stored =>
        rw [decide?_of_some hstored]
        cases hdecision : self.decision? uuid with
        | none => simp
        | some decision => simp [Decision.ofCommand, eq_comm]

theorem unlock_onAutoModeService_iff (self : RtcInterface) (enable : Bool) :
    self.ConflictFree (.onAutoModeService enable) ↔ ∀ uuid,
      (self.perform (.onAutoModeService enable)).unlockCommandUpdate.decision? uuid =
        (self.unlockCommandUpdate.decision? uuid).map
          fun decision => { decision with autoMode := enable } := by
  refine forall_congr' fun uuid => ?_
  have hperform : (self.perform (.onAutoModeService enable)).decision? uuid = _ :=
    decision?_onAutoModeService self enable uuid
  rw [decision?_unlockCommandUpdate, decision?_unlockCommandUpdate, hperform]
  change _ ↔ decide? self.storedCommands uuid _ = _
  cases hstored : lastCommand? self.storedCommands uuid with
  | none => simp [decide?_of_none hstored]
  | some stored =>
    rw [decide?_of_some hstored, decide?_of_some hstored]
    cases hdecision : self.decision? uuid with
    | none => simp
    | some decision => simp [Decision.ofCommand, eq_comm]

theorem unlock_updateCooperateStatus_iff (self : RtcInterface) (updated : UUID)
    (safe : Bool) (startDistance finishDistance : ℚ) (stamp : Time) :
    self.ConflictFree (.updateCooperateStatus updated safe startDistance finishDistance stamp) ↔
      ∀ uuid, (self.updateCooperateStatus updated safe startDistance finishDistance
            stamp).unlockCommandUpdate.decision? uuid =
          if uuid = updated ∧ self.unlockCommandUpdate.decision? uuid = none then
            some ⟨.deactivate, self.isAutoModeInit⟩
          else self.unlockCommandUpdate.decision? uuid := by
  have hkept : (self.updateCooperateStatus updated safe startDistance
      finishDistance stamp).storedCommands = self.storedCommands :=
    storedCommands_perform self
      (.updateCooperateStatus updated safe startDistance finishDistance stamp)
  simp only [decision?_unlockCommandUpdate, hkept, decision?_updateCooperateStatus, ConflictFree]
  constructor
  · intro hfree uuid
    by_cases huuid : uuid = updated
    · subst huuid
      cases hdecision : self.decision? uuid with
      | some decision =>
        cases hstored : lastCommand? self.storedCommands uuid with
        | none => simp [decide?_of_none hstored]
        | some stored => simp [decide?_of_some hstored]
      | none =>
        cases hstored : lastCommand? self.storedCommands uuid with
        | none => simp [decide?_of_none hstored]
        | some stored =>
          simp [decide?_of_some hstored, hfree stored hdecision hstored]
    · simp [huuid]
  · intro hunlock stored hdecision hstored
    have hupdated := hunlock updated
    rw [decide?_of_some hstored, decide?_of_some hstored] at hupdated
    simpa [hdecision, eq_comm] using hupdated

theorem unlock_removeCooperateStatus (hnodup : self.UuidsNodup) (removed uuid : UUID) :
    (self.removeCooperateStatus removed).unlockCommandUpdate.decision? uuid =
      if uuid = removed then none else self.unlockCommandUpdate.decision? uuid := by
  rw [decision?_unlockCommandUpdate, decision?_unlockCommandUpdate,
    decision?_removeCooperateStatus hnodup]
  by_cases huuid : uuid = removed
  · subst huuid
    rw [if_pos rfl, if_pos rfl]
    unfold decide?
    split <;> rfl
  · rw [if_neg huuid, if_neg huuid]
    have hlast : lastCommand? (self.removeCooperateStatus removed).storedCommands uuid =
        lastCommand? self.storedCommands uuid :=
      congrArg (Option.map CooperateCommand.command)
        (findLastKey_eraseKey_of_ne CooperateCommand.uuid huuid self.storedCommands)
    rw [decide?, decide?, hlast]

/-- The condition on an operation is exactly what keeps the effect of unlocking
in step with the newest decisions. -/
theorem conflictFree_iff (hnodup : self.UuidsNodup) (hunlocked : self.isLocked = false → ∀ uuid,
      self.unlockCommandUpdate.decision? uuid = self.decision? uuid)
    (operation : Operation) :
    self.ConflictFree operation ↔ ∀ uuid,
      (self.perform operation).unlockCommandUpdate.decision? uuid =
        operation.effect self.isAutoModeInit uuid
          (self.unlockCommandUpdate.decision? uuid) := by
  cases operation with
  | updateCooperateStatus updated safe startDistance finishDistance stamp =>
    exact unlock_updateCooperateStatus_iff _ _ _ _ _ _
  | removeCooperateStatus removed =>
    exact iff_of_true trivial (unlock_removeCooperateStatus hnodup removed)
  | clearCooperateStatus => exact iff_of_true trivial fun _ => rfl
  | onCooperateCommandService commands =>
    exact unlock_onCooperateCommandService_iff hunlocked commands
  | onAutoModeService enable => exact unlock_onAutoModeService_iff self enable
  | lockCommandUpdate => exact iff_of_true trivial fun _ => rfl
  | unlockCommandUpdate =>
    refine iff_of_true trivial fun uuid => ?_
    change self.unlockCommandUpdate.unlockCommandUpdate.decision? uuid =
      self.unlockCommandUpdate.decision? uuid
    rw [decision?_unlockCommandUpdate self.unlockCommandUpdate, decision?_unlockCommandUpdate self]
    exact decide?_decide? self.storedCommands uuid _

structure InForce (state : RtcInterface × Decisions) : Prop where
  uuidsNodup : state.1.UuidsNodup
  isAutoModeInit : state.1.isAutoModeInit = state.2.isAutoModeInit
  unlocking : ∀ uuid, state.1.unlockCommandUpdate.decision? uuid = state.2.decided uuid
  unlocked : state.1.isLocked = false → ∀ uuid, state.1.decision? uuid = state.2.decided uuid

theorem inForce_initial (name : String) :
    InForce (RtcInterface.initial name, Decisions.initial) where
  uuidsNodup := List.nodup_nil
  isAutoModeInit := rfl
  unlocking := fun _ => rfl
  unlocked := fun _ _ => rfl

theorem inForce_observe {state : RtcInterface × Decisions} (hforce : InForce state)
    (hfree : state.1.ConflictFree operation) :
    InForce (observe state operation) := by
  have hsame : state.1.isLocked = false → ∀ uuid,
      state.1.unlockCommandUpdate.decision? uuid = state.1.decision? uuid :=
    fun hlocked uuid =>
      (hforce.unlocking uuid).trans (hforce.unlocked hlocked uuid).symm
  have hunlocking := (conflictFree_iff hforce.uuidsNodup hsame operation).mp hfree
  refine ⟨uuidsNodup_perform hforce.uuidsNodup operation, ?_, ?_, ?_⟩
  · change (state.1.perform operation).isAutoModeInit = _
    rw [isAutoModeInit_perform, hforce.isAutoModeInit]
    rfl
  · intro uuid
    change _ = operation.effect state.2.isAutoModeInit uuid (state.2.decided uuid)
    rw [← hforce.isAutoModeInit, ← hforce.unlocking]
    exact hunlocking uuid
  · intro hlocked uuid
    change _ = operation.effect state.2.isAutoModeInit uuid (state.2.decided uuid)
    by_cases hne : operation = .unlockCommandUpdate
    · subst hne
      exact hforce.unlocking uuid
    · have hbefore := isLocked_perform_of_ne hne hlocked
      rw [← hforce.isAutoModeInit, ← hforce.unlocked hbefore uuid]
      exact decision?_perform_of_unlocked hforce.uuidsNodup hbefore hne uuid

/-- The steps of the interface beside the newest decisions. -/
def Observed := OfUpdate observe

def OperationConflictFree (before : RtcInterface × Decisions)
    (operation : Operation) (_after : RtcInterface × Decisions) : Prop :=
  before.1.ConflictFree operation

/-- In a run without conflicting decisions the newest decision on every uuid is
in force whenever the interface is unlocked. -/
theorem newest_decision_in_force (name : String) {self : RtcInterface}
    {decisions : Decisions} {operations : List Operation}
    (hrun : Run (Guarded Observed OperationConflictFree)
      (initial name, Decisions.initial) operations (self, decisions))
    (hunlocked : self.isLocked = false) (uuid : UUID) :
    self.decision? uuid = decisions.decided uuid := by
  have hforce : InForce (self, decisions) := by
    refine hrun.preserves InForce ?_ (inForce_initial name)
    rintro before operation after hbefore ⟨hobserve, hfree⟩
    rw [← hobserve]
    exact inForce_observe hbefore hfree
  exact hforce.unlocked hunlocked uuid

def zeroUuid : UUID := ⟨Vector.replicate 16 0⟩

def requestZero (command : Command) : Operation :=
  .onCooperateCommandService [⟨zeroUuid, .crosswalk, command⟩]

/-- A module registers a uuid and is activated while it runs. -/
def activation : List Operation :=
  [.updateCooperateStatus zeroUuid true 0 0 0, .lockCommandUpdate,
    requestZero .activate, .unlockCommandUpdate]

/-- The activation, and a deactivation before the module runs once more. -/
def replayedActivation : List Operation :=
  activation ++ [requestZero .deactivate, .lockCommandUpdate, .unlockCommandUpdate]

/-- The activation is in force after the module has run. -/
theorem newest_decision_in_force_activation : (activation.foldl observe
        (initial "crosswalk", Decisions.initial)).1.decision? zeroUuid =
      some (.ofCommand .activate) := by
  have hrun : Run (Guarded Observed OperationConflictFree)
      (initial "crosswalk", Decisions.initial) activation
      (activation.foldl observe (initial "crosswalk", Decisions.initial)) := by
    refine .cons ⟨rfl, ?_⟩ (.cons ⟨rfl, trivial⟩ (.cons ⟨rfl, ?_⟩ (.cons ⟨rfl, trivial⟩ (.nil _))))
    · intro stored hdecision hstored
      cases hstored
    · intro uuid decision stored hdecision hstored
      cases hstored
  exact newest_decision_in_force "crosswalk" hrun rfl zeroUuid

/-- A stored command is applied again by a later unlock. -/
theorem stored_command_replayed : ¬ ∀ (name : String) (self : RtcInterface) (decisions : Decisions)
        (operations : List Operation),
      Run Observed (initial name, Decisions.initial) operations (self, decisions) →
      self.isLocked = false → ∀ uuid, self.isRegistered uuid = true →
      self.decision? uuid = decisions.decided uuid := by
  intro hclaim
  have hrun := Run.foldl observe (initial "crosswalk", Decisions.initial) replayedActivation
  have hsame := hclaim "crosswalk" _ _ replayedActivation hrun rfl zeroUuid
    (by decide +kernel)
  exact absurd hsame (by decide +kernel)

end AutowareUniverse.Planning.RtcInterface
