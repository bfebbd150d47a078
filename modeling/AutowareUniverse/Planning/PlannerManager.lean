import AutowareUniverse.Planning.RtcInterface
import Mathlib.Data.List.Sort
import Mathlib.Data.List.Infix

/-!
# Scene modules and their managers

A scene module is an object on the heap that its manager and the planner
manager share.  Its virtual functions are answered by a behavior, which may
answer every call differently.  Of a module only the members that the managers
read are kept; the calls that publish or pass planner data on change none of
them.
-/

namespace AutowareUniverse.Planning

section

open Library.Fallible

inductive ModuleStatus where
  | idle
  | running
  | success
  | failure
  deriving DecidableEq

/-- The members of `SceneModuleInterface` that change. -/
structure ModuleState where
  isWaitingApproval : Bool
  isLockedNewModuleLaunch : Bool
  currentState : ModuleStatus
  deriving DecidableEq

structure SceneModule where
  name : String
  state : ModuleState
  deriving DecidableEq

/-- `SceneModulePtr`: the address of a module on the heap, or null. -/
abbrev ModulePtr := Option Nat

namespace SceneModule

inductive Error where
  | nullDereference
  | unknownManagerName
  | outOfRange
  | noRootLanelet
  deriving DecidableEq

/-- The virtual functions of the modules.  Each is given the number of the call
and the address of the module; `run` stands for `run` and `updateState`. -/
structure Behavior (Out : Type) where
  processOnEntry : Nat → Nat → ModuleState → ModuleState
  processOnExit : Nat → Nat → ModuleState → ModuleState
  updateData : Nat → Nat → ModuleState → ModuleState
  isExecutionRequested : Nat → Nat → Out → Bool
  run : Nat → Nat → Out → ModuleState → Out × ModuleState

/-- The modules that were created, and the number of calls answered so far. -/
structure Heap where
  modules : Nat → SceneModule
  size : Nat
  calls : Nat

def constructed : ModuleState := ⟨false, false, .success⟩

namespace Heap

def empty : Heap := ⟨fun _ => ⟨"", constructed⟩, 0, 0⟩

/-- The address that a pointer refers to. -/
def deref : ModulePtr → Except Error Nat
  | some address => .ok address
  | none => .error .nullDereference

def name (heap : Heap) (ptr : ModulePtr) : Except Error String := do
  let address ← deref ptr
  return (heap.modules address).name

def isWaitingApproval (heap : Heap) (ptr : ModulePtr) : Except Error Bool := do
  let address ← deref ptr
  return (heap.modules address).state.isWaitingApproval

def isLockedNewModuleLaunch (heap : Heap) (ptr : ModulePtr) : Except Error Bool := do
  let address ← deref ptr
  return (heap.modules address).state.isLockedNewModuleLaunch

def getCurrentStatus (heap : Heap) (ptr : ModulePtr) : Except Error ModuleStatus := do
  let address ← deref ptr
  return (heap.modules address).state.currentState

/-- One call of a virtual function that leaves the module in a new state. -/
def answer (heap : Heap) (address : Nat) (state : ModuleState) : Heap :=
  { heap with
    modules := Function.update heap.modules address
      { heap.modules address with state := state }
    calls := heap.calls + 1 }

/-- Construct a module and return its address. -/
def create (heap : Heap) (name : String) : Nat × Heap :=
  (heap.size,
    { heap with
      modules := Function.update heap.modules heap.size ⟨name, constructed⟩
      size := heap.size + 1 })

variable {Out : Type} (behavior : Behavior Out)

def onEntry (heap : Heap) (ptr : ModulePtr) : Except Error Heap := do
  let address ← deref ptr
  let state := { (heap.modules address).state with currentState := .idle }
  return heap.answer address (behavior.processOnEntry heap.calls address state)

def onExit (heap : Heap) (ptr : ModulePtr) : Except Error Heap := do
  let address ← deref ptr
  let state : ModuleState := ⟨false, false, .success⟩
  return heap.answer address (behavior.processOnExit heap.calls address state)

def run (heap : Heap) (ptr : ModulePtr) (previous : Out) : Except Error (Out × Heap) := do
  let address ← deref ptr
  let (output, state) :=
    behavior.run heap.calls address previous (heap.modules address).state
  return (output, heap.answer address state)

end Heap

end SceneModule

open SceneModule

/-- `SceneModuleManagerInterface`: the configuration and the modules. -/
structure SceneModuleManager where
  name : String
  maxModuleNum : Nat
  priority : Nat
  isSimultaneousExecutableAsApprovedModule : Bool
  isSimultaneousExecutableAsCandidateModule : Bool
  registeredModules : List ModulePtr
  idlingModule : ModulePtr
  deriving DecidableEq

namespace SceneModuleManager

variable {Out : Type} (behavior : Behavior Out)

def getNewModule (self : SceneModuleManager) (heap : Heap) :
    ModulePtr × SceneModuleManager × Heap :=
  match self.idlingModule with
  | some address => (some address, self, heap)
  | none =>
    let (address, created) := heap.create self.name
    (some address, { self with idlingModule := some address }, created)

def isExecutionRequested (heap : Heap) (ptr : ModulePtr) (previous : Out) :
    Except Error (Bool × Heap) := do
  let address ← Heap.deref ptr
  let state := behavior.updateData heap.calls address (heap.modules address).state
  let updated := heap.answer address state
  return (behavior.isExecutionRequested updated.calls address previous, updated)

variable (self : SceneModuleManager)

def registerNewModule (heap : Heap) (ptr : ModulePtr) :
    Except Error (SceneModuleManager × Heap) := do
  let entered ← heap.onEntry behavior ptr
  return ({ self with registeredModules := self.registeredModules ++ [ptr] }, entered)

/-- Stop and unregister the module; the caller's pointer is null afterwards. -/
def deleteModules (heap : Heap) (ptr : ModulePtr) :
    Except Error (SceneModuleManager × Heap) := do
  let exited ← heap.onExit behavior ptr
  return ({ self with registeredModules := self.registeredModules.erase ptr }, exited)

def exist (ptr : ModulePtr) : Bool :=
  decide (ptr ∈ self.registeredModules)

def canLaunchNewModule : Bool :=
  decide (self.registeredModules.length < self.maxModuleNum)

def reset (heap : Heap) :
    Except Error (SceneModuleManager × Heap) := do
  let exited ← self.registeredModules.foldlM (Heap.onExit behavior) heap
  let idled ← exited.onExit behavior self.idlingModule
  return ({ self with registeredModules := [], idlingModule := none }, idled)

end SceneModuleManager

/-! ## Scene modules that share their interfaces -/

open Library.Fallible Library.KeyedList Messages RtcInterface SceneModule

/-- `rtc_interface_ptr_map_`: the interface of each type, or null. -/
abbrev RtcInterfacePtrMap := List (String × Option RtcInterface)

/-- `uuid_map_`: the uuid under which a module requests on each type. -/
abbrev UuidMap := List (String × UUID)

/-- `std::unordered_map::at`. -/
def UuidMap.at (uuidMap : UuidMap) (rtcType : String) : Except Error UUID :=
  match findKey Prod.fst rtcType uuidMap with
  | some entry => .ok entry.2
  | none => .error .outOfRange

def UuidMap.Owns (uuidMap : UuidMap) (uuid : UUID) : Prop :=
  uuid ∈ uuidMap.map Prod.snd

namespace RtcInterfacePtrMap

def forEach (call : String → RtcInterface → Except Error RtcInterface) :
    RtcInterfacePtrMap → Except Error RtcInterfacePtrMap
  | [] => .ok []
  | (rtcType, none) :: rest => do
    let rest ← forEach call rest
    return (rtcType, none) :: rest
  | (rtcType, some rtcInterface) :: rest => do
    let called ← call rtcType rtcInterface
    let rest ← forEach call rest
    return (rtcType, some called) :: rest

def isActivated (uuidMap : UuidMap) : RtcInterfacePtrMap → Except Error Bool
  | [] => .ok false
  | (_, none) :: _ => .error .nullDereference
  | (rtcType, some rtcInterface) :: rest => do
    let uuid ← uuidMap.at rtcType
    if rtcInterface.isRegistered uuid then
      return rtcInterface.isActivated uuid
    isActivated uuidMap rest

def updateRtcStatus (uuidMap : UuidMap) (isExecutionReady : Bool)
    (startDistance finishDistance : ℚ) (now : String → Time) :
    RtcInterfacePtrMap → Except Error RtcInterfacePtrMap :=
  forEach fun rtcType rtcInterface => do
    let uuid ← uuidMap.at rtcType
    return rtcInterface.updateCooperateStatus uuid isExecutionReady startDistance
      finishDistance (now rtcType)

def removeRtcStatus : RtcInterfacePtrMap → Except Error RtcInterfacePtrMap :=
  forEach fun _ rtcInterface => return rtcInterface.clearCooperateStatus

variable (uuid : UUID) (self : RtcInterfacePtrMap)

def statuses : List (Option CooperateStatus) :=
  self.map fun entry => entry.2.bind fun rtcInterface => rtcInterface.findStatus uuid

def Unregistered : Prop :=
  ∀ rtcType rtcInterface, (rtcType, some rtcInterface) ∈ self →
    rtcInterface.isRegistered uuid = false

/-! ## What a call does to the statuses -/

@[simp]
theorem statuses_nil : statuses uuid [] = [] := rfl

@[simp]
theorem statuses_cons_null (rtcType : String) (rest : RtcInterfacePtrMap) :
    statuses uuid ((rtcType, none) :: rest) = none :: statuses uuid rest := rfl

@[simp]
theorem statuses_cons (rtcType : String) (rtcInterface : RtcInterface) (rest : RtcInterfacePtrMap) :
    statuses uuid ((rtcType, some rtcInterface) :: rest) =
      rtcInterface.findStatus uuid :: statuses uuid rest := rfl

theorem owns_of_at {uuidMap : UuidMap} {rtcType : String} {uuid : UUID}
    (hat : uuidMap.at rtcType = .ok uuid) : uuidMap.Owns uuid := by
  unfold UuidMap.at at hat
  cases hfound : findKey Prod.fst rtcType uuidMap with
  | none =>
    rw [hfound] at hat
    cases hat
  | some entry =>
    rw [hfound] at hat
    cases hat
    exact List.mem_map_of_mem (mem_of_findKey Prod.fst hfound)

theorem removeRtcStatus_eq : self.removeRtcStatus =
      .ok (self.map fun entry => (entry.1, entry.2.map clearCooperateStatus)) := by
  induction self with
  | nil => rfl
  | cons entry rest ih =>
    obtain ⟨rtcType, ptr⟩ := entry
    unfold removeRtcStatus at ih ⊢
    cases ptr with
    | none =>
      unfold forEach
      rw [ih]
      rfl
    | some rtcInterface =>
      unfold forEach
      rw [ih]
      rfl

theorem statuses_of_removeRtcStatus {self after : RtcInterfacePtrMap}
    (hafter : self.removeRtcStatus = .ok after) (uuid : UUID) :
    statuses uuid after = self.map fun _ => none := by
  rw [removeRtcStatus_eq] at hafter
  cases hafter
  unfold statuses
  rw [List.map_map]
  apply List.map_congr_left
  rintro ⟨rtcType, ptr⟩ _
  cases ptr with
  | none => rfl
  | some rtcInterface => rfl

theorem unregistered_iff {uuid : UUID} {self : RtcInterfacePtrMap} :
    self.Unregistered uuid ↔ statuses uuid self = self.map fun _ => none := by
  induction self with
  | nil => simp [Unregistered]
  | cons entry rest ih =>
    obtain ⟨rtcType, ptr⟩ := entry
    cases ptr with
    | none => simpa [Unregistered] using ih
    | some rtcInterface =>
      have hcons : Unregistered uuid ((rtcType, some rtcInterface) :: rest) ↔
          rtcInterface.findStatus uuid = none ∧ Unregistered uuid rest := by
        constructor
        · intro hall
          refine ⟨?_, fun other known hmem => hall other known (List.mem_cons_of_mem _ hmem)⟩
          simpa [isRegistered] using hall rtcType rtcInterface List.mem_cons_self
        · rintro ⟨hfirst, hrest⟩ other known hmem
          rcases List.mem_cons.mp hmem with heq | hmem
          · cases heq
            simpa [isRegistered] using hfirst
          · exact hrest other known hmem
      rw [hcons, ih, statuses_cons, List.map_cons, List.cons_eq_cons]

theorem isActivated_cons (uuidMap : UuidMap) (rtcType : String)
    (rtcInterface : RtcInterface) (rest : RtcInterfacePtrMap) :
    isActivated uuidMap ((rtcType, some rtcInterface) :: rest) =
      uuidMap.at rtcType >>= fun uuid =>
        if rtcInterface.isRegistered uuid then .ok (rtcInterface.isActivated uuid)
        else isActivated uuidMap rest := rfl

theorem isActivated_of_removeRtcStatus {uuidMap : UuidMap} {self after : RtcInterfacePtrMap}
    (hafter : self.removeRtcStatus = .ok after)
    (hunregistered : ∀ uuid, uuidMap.Owns uuid → self.Unregistered uuid) :
    after.isActivated uuidMap = self.isActivated uuidMap := by
  rw [removeRtcStatus_eq] at hafter
  cases hafter
  induction self with
  | nil => rfl
  | cons entry rest ih =>
    obtain ⟨rtcType, ptr⟩ := entry
    cases ptr with
    | none => rfl
    | some rtcInterface =>
      have hrest := ih fun uuid howns other known hmem =>
        hunregistered uuid howns other known (List.mem_cons_of_mem _ hmem)
      change isActivated uuidMap
        ((rtcType, some rtcInterface.clearCooperateStatus) :: rest.map _) = _
      rw [isActivated_cons, isActivated_cons]
      cases hat : uuidMap.at rtcType with
      | error failure => rfl
      | ok uuid =>
        have hbefore : rtcInterface.isRegistered uuid = false :=
          hunregistered uuid (owns_of_at hat) rtcType rtcInterface List.mem_cons_self
        have hcleared : rtcInterface.clearCooperateStatus.isRegistered uuid = false := rfl
        simpa [bind, Except.bind, hbefore, hcleared] using hrest

end RtcInterfacePtrMap

structure RtcSceneModuleManager where
  manager : SceneModuleManager
  rtcInterfacePtrMap : RtcInterfacePtrMap
  heap : Heap
  uuidMap : Nat → UuidMap

namespace RtcSceneModuleManager

variable {Out : Type} (behavior : Behavior Out) (self : RtcSceneModuleManager)

def getNewModule (generateUuid : String → UUID) : ModulePtr × RtcSceneModuleManager :=
  let (ptr, manager, heap) := self.manager.getNewModule self.heap
  let uuids := self.rtcInterfacePtrMap.map fun entry => (entry.1, generateUuid entry.1)
  (ptr,
    { self with
      manager := manager
      heap := heap
      uuidMap :=
        match self.manager.idlingModule with
        | some _ => self.uuidMap
        | none => Function.update self.uuidMap self.heap.size uuids })

def registerNewModule (ptr : ModulePtr) :
    Except Error RtcSceneModuleManager := do
  let (manager, heap) ← self.manager.registerNewModule behavior self.heap ptr
  return { self with manager := manager, heap := heap }

/-- `onExit` of the module removes its status from the interfaces. -/
def deleteModules (ptr : ModulePtr) :
    Except Error RtcSceneModuleManager := do
  let (manager, heap) ← self.manager.deleteModules behavior self.heap ptr
  let cleared ← self.rtcInterfacePtrMap.removeRtcStatus
  return { self with manager := manager, heap := heap, rtcInterfacePtrMap := cleared }

def reset : Except Error RtcSceneModuleManager := do
  let (manager, heap) ← self.manager.reset behavior self.heap
  let cleared ← self.rtcInterfacePtrMap.removeRtcStatus
  return { self with manager := manager, heap := heap, rtcInterfacePtrMap := cleared }

def updateRtcStatus (address : Nat)
    (isExecutionReady : Bool) (startDistance finishDistance : ℚ) (now : String → Time) :
    Except Error RtcSceneModuleManager := do
  let updated ← self.rtcInterfacePtrMap.updateRtcStatus (self.uuidMap address)
    isExecutionReady startDistance finishDistance now
  return { self with rtcInterfacePtrMap := updated }

def onCooperateCommandService (rtcType : String)
    (commands : List CooperateCommand) : RtcSceneModuleManager :=
  { self with
    rtcInterfacePtrMap := updateKey Prod.fst rtcType
      (fun entry => (entry.1, entry.2.map fun rtcInterface =>
        (rtcInterface.onCooperateCommandService commands).1)) self.rtcInterfacePtrMap }

def isActivated (address : Nat) : Except Error Bool :=
  self.rtcInterfacePtrMap.isActivated (self.uuidMap address)

def OtherRegistered (address other : Nat) : Prop :=
  some other ∈ self.manager.registeredModules ∧ other ≠ address

/-- What the interfaces know about a module is the same in both states. -/
structure Frames (before after : RtcSceneModuleManager) (other : Nat) : Prop where
  statuses : ∀ uuid, (before.uuidMap other).Owns uuid →
    after.rtcInterfacePtrMap.statuses uuid = before.rtcInterfacePtrMap.statuses uuid
  isActivated : after.isActivated other = before.isActivated other

def NotRequesting (self : RtcSceneModuleManager) (other : Nat) : Prop :=
  ∀ uuid, (self.uuidMap other).Owns uuid → self.rtcInterfacePtrMap.Unregistered uuid

theorem frames_deleteModules_iff {self deleted : RtcSceneModuleManager} {ptr : ModulePtr}
    (hdeleted : self.deleteModules behavior ptr = .ok deleted) (other : Nat) :
    self.Frames deleted other ↔ self.NotRequesting other := by
  obtain ⟨⟨manager, heap⟩, _, hbind⟩ := bind_eq_ok.mp hdeleted
  obtain ⟨cleared, hcleared, hok⟩ := bind_eq_ok.mp hbind
  cases hok
  constructor
  · intro hframes uuid howns
    rw [RtcInterfacePtrMap.unregistered_iff, ← hframes.statuses uuid howns]
    exact RtcInterfacePtrMap.statuses_of_removeRtcStatus hcleared uuid
  · intro hnot
    constructor
    · intro uuid howns
      rw [RtcInterfacePtrMap.unregistered_iff.mp (hnot uuid howns)]
      exact RtcInterfacePtrMap.statuses_of_removeRtcStatus hcleared uuid
    · exact RtcInterfacePtrMap.isActivated_of_removeRtcStatus hcleared hnot

/-- Ending a module is a frame operation for the other registered modules exactly
if none of them has a request. -/
theorem deleteModules_frame_iff (self : RtcSceneModuleManager) (address : Nat) :
    ∃ deleted, self.deleteModules behavior (some address) = .ok deleted ∧
      ((∀ other, self.OtherRegistered address other → self.Frames deleted other) ↔
        ∀ other, self.OtherRegistered address other → self.NotRequesting other) := by
  obtain ⟨deleted, hdeleted⟩ : ∃ deleted,
      self.deleteModules behavior (some address) = .ok deleted := by
    unfold deleteModules
    rw [RtcInterfacePtrMap.removeRtcStatus_eq]
    exact ⟨_, rfl⟩
  refine ⟨deleted, hdeleted, ?_⟩
  constructor
  · intro hframes other hother
    exact (frames_deleteModules_iff behavior hdeleted other).mp (hframes other hother)
  · intro hnot other hother
    exact (frames_deleteModules_iff behavior hdeleted other).mpr (hnot other hother)

/-- Modules that request nothing and keep their state. -/
def idleBehavior : Behavior Unit where
  processOnEntry := fun _ _ state => state
  processOnExit := fun _ _ state => state
  updateData := fun _ _ state => state
  isExecutionRequested := fun _ _ _ => false
  run := fun _ _ _ state => ((), state)

def laneChangeManager : RtcSceneModuleManager where
  manager := ⟨"lane_change", 2, 0, true, true, [], none⟩
  rtcInterfacePtrMap := [("left", some (initial "lane_change_left"))]
  heap := .empty
  uuidMap := fun _ => []

def uuidOf (created : UInt8) : UUID := ⟨Vector.replicate 16 created⟩

def secondActivated : Except Error RtcSceneModuleManager := do
  let (first, self) := laneChangeManager.getNewModule fun _ => uuidOf 0
  let self ← self.reset idleBehavior
  let (second, self) := self.getNewModule fun _ => uuidOf 1
  let self ← self.registerNewModule idleBehavior first
  let self ← self.registerNewModule idleBehavior second
  let self ← self.updateRtcStatus 0 true 10 40 fun _ => 0
  let self ← self.updateRtcStatus 1 true 60 90 fun _ => 0
  return self.onCooperateCommandService "left" [⟨uuidOf 1, .laneChangeLeft, .activate⟩]

/-- Ending the first module deactivates the second one. -/
theorem first_ends_second_loses_activation : ¬ ∀ (self : RtcSceneModuleManager) (address : Nat),
      ∃ deleted, self.deleteModules idleBehavior (some address) = .ok deleted ∧
        ∀ other, self.OtherRegistered address other → self.Frames deleted other := by
  intro hclaim
  obtain ⟨self, hself⟩ : ∃ self, secondActivated = .ok self := ⟨_, rfl⟩
  have hregistered : (secondActivated.map fun self => self.manager.registeredModules) =
      .ok [some 0, some 1] := by decide
  have hbefore : (secondActivated >>= fun self => self.isActivated 1) = .ok true := by decide
  have hafter : (secondActivated >>= fun self => do
      let deleted ← self.deleteModules idleBehavior (some 0)
      deleted.isActivated 1) = .ok false := by decide
  rw [hself] at hregistered hbefore hafter
  obtain ⟨deleted, hdeleted, hframes⟩ := hclaim self 0
  have hother : self.OtherRegistered 0 1 := by
    constructor
    · have hmodules : self.manager.registeredModules = [some 0, some 1] :=
        Except.ok.inj hregistered
      rw [hmodules]
      decide
    · decide
  have hkept : self.isActivated 1 = .ok true := hbefore
  have hlost : deleted.isActivated 1 = .ok false := by
    obtain ⟨again, hagain, hfalse⟩ : ∃ again, self.deleteModules idleBehavior (some 0) = .ok again ∧
          again.isActivated 1 = .ok false := bind_eq_ok.mp hafter
    cases hdeleted.symm.trans hagain
    exact hfalse
  have hsame := (hframes 1 hother).isActivated
  rw [hkept, hlost] at hsame
  cases hsame

end RtcSceneModuleManager

end

/-!
## The planner manager

The planner manager runs the approved modules one after the other, asks the
managers for modules that request execution, and moves the candidates that are
approved to the approved modules.  Planner data and outputs are arbitrary
types; what the manager takes from the lanelet map and the order that
`std::sort` gives to modules of equal priority are parameters.  The processing
times are left out.
-/

open Library.Fallible Library.KeyedList Library.Runs SceneModule

namespace PlannerManager

abbrev Lanelet := Int

/-- `std::sort` by priority: the order of equal priorities is not specified. -/
structure PrioritySort where
  sort : List (Nat × ModulePtr) → List (Nat × ModulePtr)
  perm : ∀ prioritized, (sort prioritized).Perm prioritized
  sorted : ∀ prioritized,
    (sort prioritized).Pairwise fun first second => first.1 ≤ second.1

def PrioritySort.stable : PrioritySort where
  sort := List.insertionSort fun first second => first.1 ≤ second.1
  perm := List.perm_insertionSort _
  sorted := fun prioritized =>
    have : Std.Total fun first second : Nat × ModulePtr => first.1 ≤ second.1 :=
      ⟨fun first second => Nat.le_total first.1 second.1⟩
    have : IsTrans (Nat × ModulePtr) fun first second => first.1 ≤ second.1 :=
      ⟨fun _ _ _ => Nat.le_trans⟩
    List.pairwise_insertionSort _ prioritized

/-- What the planner manager calls: the modules, the sort and the lanelet map. -/
structure Environment (Data Out : Type) where
  behavior : Behavior Out
  prioritySort : PrioritySort
  emptyOutput : Out
  referencePath : Data → Lanelet → Out
  closestLanelet : Data → Lanelet
  following : Data → Lanelet → List Lanelet

end PlannerManager

open PlannerManager

/-- The members of `PlannerManager`, with the heap of the modules. -/
structure PlannerManager where
  rootLanelet : Option Lanelet
  managers : List SceneModuleManager
  approvedModules : List ModulePtr
  candidateModules : List ModulePtr
  heap : Heap

namespace PlannerManager

def empty : PlannerManager := ⟨none, [], [], [], .empty⟩

variable {Data Out : Type} (env : Environment Data Out)

/-! ## Managers -/

def getManager (self : PlannerManager) (ptr : ModulePtr) :
    Except Error SceneModuleManager := do
  let name ← self.heap.name ptr
  match findKey SceneModuleManager.name name self.managers with
  | some manager => .ok manager
  | none => .error .unknownManagerName

/-- Write back a manager that was found by name. -/
def setManager (self : PlannerManager) (manager : SceneModuleManager) (heap : Heap) :
    PlannerManager :=
  { self with
    managers := updateKey SceneModuleManager.name manager.name (fun _ => manager) self.managers
    heap := heap }

def deleteExpiredModules (self : PlannerManager) (ptr : ModulePtr) :
    Except Error PlannerManager := do
  let manager ← self.getManager ptr
  let (deleted, heap) ← manager.deleteModules env.behavior self.heap ptr
  return self.setManager deleted heap

/-- The pointers of a list after `deleteExpiredModules` on each of them. -/
def expired (ptrs : List ModulePtr) : List ModulePtr := ptrs.map fun _ => none

def clearCandidateModules (self : PlannerManager) : Except Error PlannerManager := do
  let deleted ← self.candidateModules.foldlM (deleteExpiredModules env) self
  return { deleted with candidateModules := [] }

/-- With at most one module the comparator of `std::sort` is never called. -/
def sortByPriority (self : PlannerManager) (ptrs : List ModulePtr) :
    Except Error (List ModulePtr) :=
  if ptrs.length ≤ 1 then
    .ok ptrs
  else do
    let prioritized ← ptrs.mapM fun ptr => do
      let manager ← self.getManager ptr
      return (manager.priority, ptr)
    return (env.prioritySort.sort prioritized).map Prod.snd

/-- `emplace` keeps an output that is already there. -/
def emplace (results : List (String × Out)) (name : String) (output : Out) : List (String × Out) :=
  match findKey Prod.fst name results with
  | some _ => results
  | none => results ++ [(name, output)]

/-- `results.at(name)`. -/
def resultAt (results : List (String × Out)) (name : String) : Except Error Out :=
  match findKey Prod.fst name results with
  | some result => .ok result.2
  | none => .error .outOfRange

def getReferencePath (self : PlannerManager) (data : Data) : Except Error Out :=
  match self.rootLanelet with
  | some rootLanelet => .ok (env.referencePath data rootLanelet)
  | none => .error .noRootLanelet

def runModule (self : PlannerManager) (ptr : ModulePtr) (previous : Out) :
    Except Error (Out × PlannerManager) := do
  let (output, heap) ← self.heap.run env.behavior ptr previous
  return (output, { self with heap := heap })

/-! ## Approved modules -/

def executeApprovedModule (state : (Out × List (String × Out)) × PlannerManager) (ptr : ModulePtr) :
    Except Error ((Out × List (String × Out)) × PlannerManager) := do
  let (output, self) ← state.2.runModule env ptr state.1.1
  let name ← self.heap.name ptr
  return ((output, emplace state.1.2 name output), self)

section

variable (self : PlannerManager)

def executeApprovedModules (root : Out) :
    Except Error ((Out × List (String × Out)) × PlannerManager) :=
  self.approvedModules.foldlM (executeApprovedModule env) ((root, [("root", root)]), self)

def popWaitingApprovalModules : Except Error PlannerManager := do
  let (front, back) ← findIf self.heap.isWaitingApproval self.approvedModules
  match back with
  | [] => return self
  | waiting :: _ =>
    let cleared ← self.clearCandidateModules env
    return { cleared with
      candidateModules := [waiting]
      approvedModules := front }

def deleteApprovedModules (front back : List ModulePtr) :
    Except Error PlannerManager := do
  let deleted ← back.foldlM (deleteExpiredModules env) self
  let nulled := { deleted with approvedModules := front ++ expired back }
  let cleared ← nulled.clearCandidateModules env
  return { cleared with approvedModules := front }

def removeFailureModules : Except Error PlannerManager := do
  let (front, back) ←
    findIf (fun ptr => do return decide ((← self.heap.getCurrentStatus ptr) = .failure))
      self.approvedModules
  if back.isEmpty then
    return self
  else
    self.deleteApprovedModules env front back

def approvedModulesOutput (results : List (String × Out))
    (last : ModulePtr) : Except Error Out := do
  let name ← self.heap.name last
  match findKey Prod.fst name results with
  | some result => .ok result.2
  | none => resultAt results "root"

end

/-- `name.find("lane_change") != npos`. -/
def isLaneChange (name : String) : Bool :=
  decide ("lane_change".toList <:+: name.toList)

def removeSuccessModules (data : Data) (self : PlannerManager) :
    Except Error PlannerManager := do
  let (backReversed, frontReversed) ←
    findIf (fun ptr => do return decide ((← self.heap.getCurrentStatus ptr) ≠ .success))
      self.approvedModules.reverse
  let front := frontReversed.reverse
  let back := backReversed.reverse
  if back.isEmpty then
    return self
  else
    let laneChange ← exists? (fun ptr => do return isLaneChange (← self.heap.name ptr)) back
    if !laneChange then
      self.deleteApprovedModules env front back
    else if front.isEmpty then
      let deleted ← self.deleteApprovedModules env front back
      return { deleted with rootLanelet := some (env.closestLanelet data) }
    else
      return self

def runApprovedModules (data : Data) (self : PlannerManager) :
    Except Error (Out × PlannerManager) := do
  let root ← self.getReferencePath env data
  let ((_, results), executed) ← self.executeApprovedModules env root
  let popped ← executed.popWaitingApprovalModules env
  let valid ← popped.removeFailureModules env
  match valid.approvedModules.getLast? with
  | none => return (← resultAt results "root", valid)
  | some last =>
    let output ← valid.approvedModulesOutput results last
    let finished ← valid.removeSuccessModules env data
    return (output, finished)

/-! ## Candidate modules -/

/-- The loop over the managers.  The last block of its body in the source is
never reached, because the candidate of the same name is found again. -/
def requestLoop (approved candidates : List ModulePtr) (previous : Out) :
    List SceneModuleManager → List ModulePtr → Heap →
      Except Error (List SceneModuleManager × List ModulePtr × Heap)
  | [], requests, heap => .ok ([], requests, heap)
  | manager :: rest, requests, heap => do
    if !approved.isEmpty && !manager.isSimultaneousExecutableAsApprovedModule then
      let (managers, requests, heap) ←
        requestLoop approved candidates previous rest requests heap
      return (manager :: managers, requests, heap)
    else
      let sameName (ptr : ModulePtr) : Except Error Bool := do
        return decide ((← heap.name ptr) = manager.name)
      let (_, found) ← findIf sameName candidates
      match found with
      | [] =>
        if manager.canLaunchNewModule then
          -- launch a new candidate module
          let (ptr, launching, launched) := manager.getNewModule heap
          let (requested, asked) ←
            SceneModuleManager.isExecutionRequested env.behavior launched ptr previous
          let (managers, requests, heap) ←
            requestLoop approved candidates previous rest
              (if requested then requests ++ [ptr] else requests) asked
          return (launching :: managers, requests, heap)
        else
          let (managers, requests, heap) ←
            requestLoop approved candidates previous rest requests heap
          return (manager :: managers, requests, heap)
      | candidate :: _ =>
        let (_, locked) ←
          findIf (fun ptr => do
            return (← sameName ptr) && (← heap.isLockedNewModuleLaunch ptr)) candidates
        match locked with
        | blocking :: _ => return (manager :: rest, [blocking], heap)
        | [] =>
          -- keep using the module as candidate
          let (managers, requests, heap) ←
            requestLoop approved candidates previous rest (requests ++ [candidate]) heap
          return (manager :: managers, requests, heap)

def getRequestModules (self : PlannerManager) (previous : Out) :
    Except Error (List ModulePtr × PlannerManager) := do
  let blocked ←
    exists? (fun ptr => do
      return !(← self.getManager ptr).isSimultaneousExecutableAsApprovedModule)
      self.approvedModules
  if blocked then
    return ([], self)
  else
    let (managers, requests, heap) ←
      requestLoop env self.approvedModules self.candidateModules previous self.managers [] self.heap
    return (requests, { self with managers := managers, heap := heap })

def executableLoop (self : PlannerManager) :
    List ModulePtr → List ModulePtr → Except Error (List ModulePtr)
  | [], executable => .ok executable
  | ptr :: rest, executable => do
    let manager ← self.getManager ptr
    if !manager.isSimultaneousExecutableAsCandidateModule && executable.isEmpty then
      return [ptr]
    else
      let blocked ←
        exists? (fun other => do
          return !(← self.getManager other).isSimultaneousExecutableAsCandidateModule)
          executable
      executableLoop self rest (if blocked then executable else executable ++ [ptr])

def registerIfNew (self : PlannerManager) (ptr : ModulePtr) :
    Except Error PlannerManager := do
  let manager ← self.getManager ptr
  if !manager.exist ptr then
    let (registering, heap) ← manager.registerNewModule env.behavior self.heap ptr
    return self.setManager registering heap
  else
    return self

def executeRequestModule (previous : Out)
    (state : List (String × Out) × PlannerManager) (ptr : ModulePtr) :
    Except Error (List (String × Out) × PlannerManager) := do
  let registered ← state.2.registerIfNew env ptr
  let (output, self) ← registered.runModule env ptr previous
  let name ← self.heap.name ptr
  return (emplace state.1 name output, self)

def removeExpired (ptr : ModulePtr) (self : PlannerManager) :
    Except Error (Bool × PlannerManager) := do
  let status ← self.heap.getCurrentStatus ptr
  if status = .failure ∨ status = .success then
    return (true, ← self.deleteExpiredModules env ptr)
  else
    return (false, self)

def separate (condition : ModulePtr → Except Error Bool) :
    List ModulePtr → Except Error (List ModulePtr × List ModulePtr)
  | [] => .ok ([], [])
  | ptr :: rest => do
    let met ← condition ptr
    let (meeting, others) ← separate condition rest
    return if met then (ptr :: meeting, others) else (meeting, ptr :: others)

def selectHighestPriorityModule (self : PlannerManager) (ptrs : List ModulePtr) :
    Except Error ModulePtr := do
  let sorted ← self.sortByPriority env ptrs
  return sorted.head?.join

def existName (self : PlannerManager) (ptr : ModulePtr) (ptrs : List ModulePtr) :
    Except Error Bool :=
  exists? (fun other => do return decide ((← self.heap.name other) = (← self.heap.name ptr))) ptrs

def isApprovedName (self : PlannerManager) (highest ptr : ModulePtr) :
    Except Error Bool := do
  if (← self.heap.name ptr) = (← self.heap.name highest) then
    return !(← self.heap.isWaitingApproval highest)
  else
    return false

/-- Whether a candidate leaves the list; if it was not executed, it is deleted. -/
def candidateToRemove (requests : List ModulePtr) (highest ptr : ModulePtr)
    (self : PlannerManager) : Except Error (Bool × PlannerManager) := do
  if !(← self.existName ptr requests) then
    return (true, ← self.deleteExpiredModules env ptr)
  else
    return (← self.isApprovedName highest ptr, self)

def pushCandidates (self : PlannerManager) (highest : ModulePtr)
    (candidates : List ModulePtr) (ptr : ModulePtr) : Except Error (List ModulePtr) := do
  if ← self.isApprovedName highest ptr then
    return candidates
  else if ← self.existName ptr candidates then
    return candidates
  else
    return candidates ++ [ptr]

def updateCandidateModules (self : PlannerManager) (requests : List ModulePtr)
    (highest : ModulePtr) : Except Error PlannerManager := do
  let (kept, removed) ←
    removeIf (candidateToRemove env requests highest) self.candidateModules self
  let pushed ← requests.foldlM (removed.pushCandidates highest) kept
  let sorted ← removed.sortByPriority env pushed
  return { removed with candidateModules := sorted }

def runRequestModules (self : PlannerManager) (requests : List ModulePtr)
    (previous : Out) : Except Error ((ModulePtr × Out) × PlannerManager) := do
  let sorted ← self.sortByPriority env requests
  let executable ← self.executableLoop sorted []
  let (results, executed) ←
    executable.foldlM (executeRequestModule env previous) ([], self)
  let (running, remaining) ← removeIf (removeExpired env) executable executed
  if running.isEmpty then
    return ((none, env.emptyOutput), ← remaining.clearCandidateModules env)
  else
    let (waiting, approved) ← separate remaining.heap.isWaitingApproval running
    let highest ←
      if !approved.isEmpty then
        remaining.selectHighestPriorityModule env approved
      else if !waiting.isEmpty then
        remaining.selectHighestPriorityModule env waiting
      else
        .ok none
    let updated ← remaining.updateCandidateModules env running highest
    let output ← resultAt results (← updated.heap.name highest)
    return ((highest, output), updated)

/-! ## Operations -/

/-- One iteration of the loop of `run`: the output that is returned, if any. -/
def iterate (data : Data) (self : PlannerManager) :
    Except Error (Option Out × PlannerManager) := do
  let (approvedOutput, approved) ← self.runApprovedModules env data
  let (requests, requesting) ← approved.getRequestModules env approvedOutput
  if requests.isEmpty then
    return (some approvedOutput, requesting)
  else
    let ((highest, candidateOutput), updated) ←
      requesting.runRequestModules env requests approvedOutput
    match highest with
    | none => return (some approvedOutput, updated)
    | some _ =>
      if ← updated.heap.isWaitingApproval highest then
        return (some candidateOutput, updated)
      else
        let added := { updated with approvedModules := updated.approvedModules ++ [highest] }
        return (none, ← added.clearCandidateModules env)

/-- The loop of `run`; `rclcpp::ok()` holds for the given number of times. -/
def runLoop (data : Data) : Nat → PlannerManager → Except Error (Out × PlannerManager)
  | 0, self => .ok (env.emptyOutput, self)
  | ok + 1, self => do
    let (output, next) ← self.iterate env data
    match output with
    | some output => return (output, next)
    | none => runLoop data ok next

def initRootLanelet (data : Data) (self : PlannerManager) : PlannerManager :=
  match self.rootLanelet with
  | some _ => self
  | none => { self with rootLanelet := some (env.closestLanelet data) }

def run (data : Data) (ok : Nat) (self : PlannerManager) : Except Error (Out × PlannerManager) :=
  (self.initRootLanelet env data).runLoop env data ok

def resetLoop : List SceneModuleManager → Heap → Except Error (List SceneModuleManager × Heap)
  | [], heap => .ok ([], heap)
  | manager :: rest, heap => do
    let (first, middle) ← manager.reset env.behavior heap
    let (managers, last) ← resetLoop rest middle
    return (first :: managers, last)

def reset (self : PlannerManager) : Except Error PlannerManager := do
  let (managers, heap) ← resetLoop env self.managers self.heap
  return ⟨none, managers, [], [], heap⟩

/-- Whether `resetRootLanelet` gets to its call of `reset`. -/
def changesLane (self : PlannerManager) (data : Data) (rootLanelet : Lanelet) :
    Except Error Bool := do
  if rootLanelet = env.closestLanelet data then
    return false
  else if rootLanelet ∈ env.following data rootLanelet then
    return false
  else if !self.approvedModules.isEmpty then
    return false
  else
    return !(← exists? self.heap.isLockedNewModuleLaunch self.candidateModules)

def resetRootLanelet (self : PlannerManager) (data : Data) :
    Except Error PlannerManager :=
  match self.rootLanelet with
  | none => .ok { self with rootLanelet := some (env.closestLanelet data) }
  | some rootLanelet => do
    if ← self.changesLane env data rootLanelet then
      self.reset env
    else
      return self

structure ManagerConfig where
  name : String
  maxModuleNum : Nat
  priority : Nat
  isSimultaneousExecutableAsApprovedModule : Bool
  isSimultaneousExecutableAsCandidateModule : Bool

def registerSceneModuleManager (self : PlannerManager) (config : ManagerConfig) :
    PlannerManager :=
  { self with
    managers := self.managers ++
      [{ name := config.name
         maxModuleNum := config.maxModuleNum
         priority := config.priority
         isSimultaneousExecutableAsApprovedModule :=
           config.isSimultaneousExecutableAsApprovedModule
         isSimultaneousExecutableAsCandidateModule :=
           config.isSimultaneousExecutableAsCandidateModule
         registeredModules := []
         idlingModule := none }] }

/-- The operations of the node; `run` comes with how often `rclcpp::ok()` holds. -/
inductive Operation (Data : Type) where
  | registerSceneModuleManager (config : ManagerConfig)
  | run (data : Data) (ok : Nat)
  | resetRootLanelet (data : Data)
  | reset

def perform (self : PlannerManager) : Operation Data → Except Error (PlannerManager × List Out)
  | .registerSceneModuleManager config =>
    .ok (self.registerSceneModuleManager config, [])
  | .run data ok => (self.run env data ok).map fun result => (result.2, [result.1])
  | .resetRootLanelet data => (self.resetRootLanelet env data).map fun reset => (reset, [])
  | .reset => (self.reset env).map fun reset => (reset, [])

def Step : PlannerManager → Operation Data × List Out → PlannerManager → Prop :=
  OfPartial (perform env)

end PlannerManager

/-! ## What the parts of a planner cycle do -/

namespace SceneModule.Heap

def nameOf (heap : Heap) : ModulePtr → String
  | some address => (heap.modules address).name
  | none => ""

def waits (heap : Heap) : ModulePtr → Bool
  | some address => (heap.modules address).state.isWaitingApproval
  | none => false

def locks (heap : Heap) : ModulePtr → Bool
  | some address => (heap.modules address).state.isLockedNewModuleLaunch
  | none => false

@[simp]
theorem name_answer (heap : Heap) (address other : Nat) (state : ModuleState) :
    ((heap.answer address state).modules other).name = (heap.modules other).name := by
  unfold answer
  dsimp only
  by_cases hother : other = address
  · subst hother
    rw [Function.update_self]
  · rw [Function.update_of_ne hother]

theorem modules_answer_of_ne (heap : Heap) {address other : Nat} (hne : other ≠ address)
    (state : ModuleState) : (heap.answer address state).modules other = heap.modules other :=
  Function.update_of_ne hne _ _

theorem modules_create_of_ne (heap : Heap) {name : String} {other : Nat}
    (hne : other ≠ heap.size) : (heap.create name).2.modules other = heap.modules other :=
  Function.update_of_ne hne _ _

end SceneModule.Heap

namespace PlannerManager

variable {Data Out : Type} (env : Environment Data Out)

/-! ## Owned modules -/

def idlings (managers : List SceneModuleManager) : List (String × ModulePtr) :=
  managers.map fun manager => (manager.name, manager.idlingModule)

/-- Every idling module was created with the name of its manager. -/
def Consistent (self : PlannerManager) : Prop :=
  ∀ name address, (name, some address) ∈ idlings self.managers →
    address < self.heap.size ∧ (self.heap.modules address).name = name

def Owned (self : PlannerManager) (ptr : ModulePtr) : Prop :=
  ∃ name address, (name, some address) ∈ idlings self.managers ∧ ptr = some address

def Registered (self : PlannerManager) (ptr : ModulePtr) : Prop :=
  ∃ manager ∈ self.managers, ptr ∈ manager.registeredModules

/-- The managers have distinct names, and each registers at most its idling module. -/
structure Separate (planner : PlannerManager) : Prop where
  names : (planner.managers.map SceneModuleManager.name).Nodup
  nodup : ∀ manager ∈ planner.managers, manager.registeredModules.Nodup
  idling : ∀ manager ∈ planner.managers, ∀ ptr ∈ manager.registeredModules,
    ptr = manager.idlingModule

variable {manager : SceneModuleManager}

theorem mem_idlings {managers : List SceneModuleManager} (hmem : manager ∈ managers) :
    (manager.name, manager.idlingModule) ∈ idlings managers :=
  List.mem_map_of_mem hmem

variable {ptr : ModulePtr} {name : String}

theorem exists_of_mem_idlings {managers : List SceneModuleManager}
    (hmem : (name, ptr) ∈ idlings managers) :
    ∃ manager ∈ managers, manager.name = name ∧ manager.idlingModule = ptr := by
  obtain ⟨manager, hmanager, heq⟩ := List.mem_map.mp hmem
  obtain ⟨hname, hptr⟩ := Prod.mk.inj heq
  exact ⟨manager, hmanager, hname, hptr⟩

variable {self : PlannerManager}

theorem getManager_of_owned (hconsistent : self.Consistent) (howned : self.Owned ptr) :
    ∃ manager, self.getManager ptr = .ok manager ∧
      findKey SceneModuleManager.name (self.heap.nameOf ptr) self.managers =
        some manager := by
  obtain ⟨name, address, hmem, rfl⟩ := howned
  obtain ⟨_, hname⟩ := hconsistent name address hmem
  obtain ⟨owner, howner, hownerName, _⟩ := exists_of_mem_idlings hmem
  have hkey : self.heap.nameOf (some address) ∈ self.managers.map SceneModuleManager.name := by
    change (self.heap.modules address).name ∈ _
    rw [hname, ← hownerName]
    exact List.mem_map_of_mem howner
  obtain ⟨manager, hfound⟩ := exists_findKey SceneModuleManager.name hkey
  refine ⟨manager, ?_, hfound⟩
  change (match findKey SceneModuleManager.name (self.heap.nameOf (some address))
    self.managers with | some manager => Except.ok manager | none => _) = _
  rw [hfound]

theorem Owned.eq_of_nameOf_eq (hconsistent : self.Consistent)
    (hnames : (self.managers.map SceneModuleManager.name).Nodup) {first second : ModulePtr}
    (hfirst : self.Owned first) (hsecond : self.Owned second)
    (hname : self.heap.nameOf first = self.heap.nameOf second) : first = second := by
  obtain ⟨firstName, firstAddress, hfirstMem, rfl⟩ := hfirst
  obtain ⟨secondName, secondAddress, hsecondMem, rfl⟩ := hsecond
  have hfirstName := (hconsistent _ _ hfirstMem).2
  have hsecondName := (hconsistent _ _ hsecondMem).2
  obtain ⟨manager, hmanager, hmanagerName, hmanagerIdling⟩ := exists_of_mem_idlings hfirstMem
  obtain ⟨other, hother, hotherName, hotherIdling⟩ := exists_of_mem_idlings hsecondMem
  have hsame : manager = other := by
    refine List.inj_on_of_nodup_map hnames hmanager hother ?_
    rw [hmanagerName, hotherName, ← hfirstName, ← hsecondName]
    exact hname
  rw [← hmanagerIdling, ← hotherIdling, hsame]

/-! ## Steps that keep the modules of the managers -/

structure Part (before after : PlannerManager) (added deleted : ModulePtr → Prop) :
    Prop where
  size : after.heap.size = before.heap.size
  name : ∀ address, (after.heap.modules address).name = (before.heap.modules address).name
  idlings : idlings after.managers = idlings before.managers
  registered : ∀ ptr, after.Registered ptr → before.Registered ptr ∨ added ptr
  separate : before.Separate → after.Separate
  gone : before.Separate → ∀ ptr, deleted ptr → ¬ after.Registered ptr

namespace Part

variable {self middle after : PlannerManager} {added deleted : ModulePtr → Prop}

theorem refl (self : PlannerManager) :
    Part self self (fun _ => False) (fun _ => False) where
  size := rfl
  name := fun _ => rfl
  idlings := rfl
  registered := fun _ hregistered => .inl hregistered
  separate := id
  gone := fun _ _ hfalse => hfalse.elim

theorem consistent (hpart : Part self after added deleted)
    (hconsistent : self.Consistent) : after.Consistent := by
  intro name address hmem
  rw [hpart.idlings] at hmem
  rw [hpart.size, hpart.name]
  exact hconsistent name address hmem

theorem owned (hpart : Part self after added deleted)
    (howned : self.Owned ptr) : after.Owned ptr := by
  unfold Owned
  rw [hpart.idlings]
  exact howned

theorem nameOf (hpart : Part self after added deleted) (ptr : ModulePtr) :
    after.heap.nameOf ptr = self.heap.nameOf ptr := by
  cases ptr with
  | none => rfl
  | some address => exact hpart.name address

/-- Parts in sequence; what the first has deleted stays so unless the second
registers it. -/
theorem trans {added' deleted' : ModulePtr → Prop}
    (hfirst : Part self middle added deleted) (hsecond : Part middle after added' deleted') :
    Part self after (fun ptr => added ptr ∨ added' ptr)
      (fun ptr => deleted' ptr ∨ (deleted ptr ∧ ¬ added' ptr)) where
  size := hsecond.size.trans hfirst.size
  name := fun address => (hsecond.name address).trans (hfirst.name address)
  idlings := hsecond.idlings.trans hfirst.idlings
  registered := by
    intro ptr hregistered
    rcases hsecond.registered ptr hregistered with hmiddle | hadded
    · exact (hfirst.registered ptr hmiddle).imp_right .inl
    · exact .inr (.inr hadded)
  separate := fun hseparate => hsecond.separate (hfirst.separate hseparate)
  gone := by
    rintro hseparate ptr (hdeleted | ⟨hdeleted, hadded⟩) hregistered
    · exact hsecond.gone (hfirst.separate hseparate) ptr hdeleted hregistered
    · rcases hsecond.registered ptr hregistered with hmiddle | hagain
      · exact hfirst.gone hseparate ptr hdeleted hmiddle
      · exact hadded hagain

theorem weaken {added' deleted' : ModulePtr → Prop} (hpart : Part self after added deleted)
    (hadded : ∀ ptr, added ptr → added' ptr)
    (hdeleted : ∀ ptr, deleted' ptr → deleted ptr) : Part self after added' deleted' where
  size := hpart.size
  name := hpart.name
  idlings := hpart.idlings
  registered := fun ptr hregistered => (hpart.registered ptr hregistered).imp_right (hadded ptr)
  separate := hpart.separate
  gone := fun hseparate ptr hgone => hpart.gone hseparate ptr (hdeleted ptr hgone)

theorem lists (hpart : Part self after added deleted) (root : Option Lanelet)
    (approved candidates : List ModulePtr) :
    Part self ⟨root, after.managers, approved, candidates, after.heap⟩ added deleted where
  size := hpart.size
  name := hpart.name
  idlings := hpart.idlings
  registered := hpart.registered
  separate := fun hseparate =>
    have hafter := hpart.separate hseparate
    ⟨hafter.names, hafter.nodup, hafter.idling⟩
  gone := hpart.gone

end Part

/-- The lists and the root lanelet are unchanged. -/
structure SameLists (before after : PlannerManager) : Prop where
  rootLanelet : after.rootLanelet = before.rootLanelet
  approvedModules : after.approvedModules = before.approvedModules
  candidateModules : after.candidateModules = before.candidateModules

theorem SameLists.refl (self : PlannerManager) : SameLists self self := ⟨rfl, rfl, rfl⟩

theorem SameLists.trans {self middle after : PlannerManager}
    (hfirst : SameLists self middle) (hsecond : SameLists middle after) :
    SameLists self after :=
  ⟨hsecond.rootLanelet.trans hfirst.rootLanelet,
    hsecond.approvedModules.trans hfirst.approvedModules,
    hsecond.candidateModules.trans hfirst.candidateModules⟩

/-- Only the state of one module changes. -/
theorem part_answer (self : PlannerManager) (address : Nat) (state : ModuleState) :
    Part self { self with heap := self.heap.answer address state }
      (fun _ => False) (fun _ => False) where
  size := rfl
  name := fun _ => Heap.name_answer _ _ _ _
  idlings := rfl
  registered := fun _ hregistered => .inl hregistered
  separate := fun hseparate => ⟨hseparate.names, hseparate.nodup, hseparate.idling⟩
  gone := fun _ _ hfalse => hfalse.elim

theorem part_setManager (hfound : findKey SceneModuleManager.name name self.managers = some manager)
    {modules : List ModulePtr} {added deleted : ModulePtr → Prop}
    (hmodules : ∀ ptr ∈ modules, ptr ∈ manager.registeredModules ∨ added ptr)
    (hseparate : self.Separate → modules.Nodup ∧ ∀ ptr ∈ modules, ptr = manager.idlingModule)
    (hdeleted : self.Separate → ∀ ptr, deleted ptr → ptr ∉ modules ∧
      ∀ other ∈ self.managers, other.name ≠ name → ptr ∉ other.registeredModules) :
    Part self (self.setManager { manager with registeredModules := modules } self.heap)
      added deleted := by
  have hmem := mem_of_findKey SceneModuleManager.name hfound
  have hkey := key_of_findKey SceneModuleManager.name hfound
  subst hkey
  refine ⟨rfl, fun _ => rfl, ?_, ?_, ?_, ?_⟩
  · exact map_updateKey_of_found SceneModuleManager.name hfound rfl
  · rintro ptr ⟨updated, hupdated, hptr⟩
    rcases mem_updateKey SceneModuleManager.name hfound hupdated with rfl | hold
    · exact (hmodules ptr hptr).imp_left fun hbefore => ⟨manager, hmem, hbefore⟩
    · exact .inl ⟨updated, hold, hptr⟩
  · intro hbefore
    obtain ⟨hnodup, hidling⟩ := hseparate hbefore
    refine ⟨?_, ?_, ?_⟩
    · have hnames : (self.setManager { manager with registeredModules := modules }
          self.heap).managers.map SceneModuleManager.name =
          self.managers.map SceneModuleManager.name :=
        map_updateKey_of_found SceneModuleManager.name hfound rfl
      rw [hnames]
      exact hbefore.names
    · intro updated hupdated
      rcases mem_updateKey SceneModuleManager.name hfound hupdated with rfl | hold
      · exact hnodup
      · exact hbefore.nodup updated hold
    · intro updated hupdated ptr hptr
      rcases mem_updateKey SceneModuleManager.name hfound hupdated with rfl | hold
      · exact hidling ptr hptr
      · exact hbefore.idling updated hold ptr hptr
  · rintro hbefore ptr hgone ⟨updated, hupdated, hptr⟩
    obtain ⟨hnot, hothers⟩ := hdeleted hbefore ptr hgone
    rcases mem_updateKey_of_nodup SceneModuleManager.name hbefore.names hfound hupdated
      with rfl | ⟨hold, hname⟩
    · exact hnot hptr
    · exact hothers updated hold hname hptr

theorem Separate.nameOf_eq (hseparate : self.Separate) (hconsistent : self.Consistent)
    (hmem : manager ∈ self.managers) {address : Nat}
    (hptr : some address ∈ manager.registeredModules) :
    self.heap.nameOf (some address) = manager.name := by
  have hidling := hseparate.idling manager hmem _ hptr
  have hpair := mem_idlings hmem
  rw [← hidling] at hpair
  exact (hconsistent _ _ hpair).2

/-! ## Deleting and running modules -/

theorem deleteExpiredModules_succeeds (hconsistent : self.Consistent) (howned : self.Owned ptr) :
    Succeeds (self.deleteExpiredModules env ptr) fun after =>
      SameLists self after ∧ Part self after (fun _ => False) (· = ptr) ∧
        ∀ address, some address ≠ ptr →
          after.heap.modules address = self.heap.modules address := by
  obtain ⟨manager, hget, hfound⟩ := getManager_of_owned hconsistent howned
  obtain ⟨name, address, hmem, rfl⟩ := howned
  let state := env.behavior.processOnExit self.heap.calls address ⟨false, false, .success⟩
  let exited : PlannerManager := { self with heap := self.heap.answer address state }
  have hprogram : self.deleteExpiredModules env (some address) = .ok (exited.setManager
        { manager with registeredModules := manager.registeredModules.erase (some address) }
        exited.heap) := by
    rw [deleteExpiredModules, hget]
    rfl
  have hpart : Part exited (exited.setManager
      { manager with registeredModules := manager.registeredModules.erase (some address) }
      exited.heap) (fun _ => False) (· = some address) := by
    have hexitedFound : findKey SceneModuleManager.name
        (self.heap.nameOf (some address)) exited.managers = some manager := hfound
    refine part_setManager hexitedFound ?_ ?_ ?_
    · exact fun ptr hptr => .inl (List.mem_of_mem_erase hptr)
    · intro hseparate
      have hmanager := mem_of_findKey SceneModuleManager.name hfound
      refine ⟨(hseparate.nodup manager hmanager).erase _, fun ptr hptr => ?_⟩
      exact hseparate.idling manager hmanager ptr (List.mem_of_mem_erase hptr)
    · rintro hseparate ptr rfl
      have hmanager := mem_of_findKey SceneModuleManager.name hfound
      refine ⟨(hseparate.nodup manager hmanager).not_mem_erase, ?_⟩
      intro other hother hne hregistered
      have hexited : exited.Consistent := (part_answer self address state).consistent hconsistent
      have hname := hseparate.nameOf_eq hexited hother hregistered
      refine hne (hname.symm.trans ?_)
      exact (part_answer self address state).nameOf (some address)
  refine ⟨_, hprogram, ⟨rfl, rfl, rfl⟩, ?_, ?_⟩
  · refine ((part_answer self address state).trans hpart).weaken ?_ ?_
    · exact fun _ hadded => hadded.elim id id
    · exact fun _ hdeleted => .inl hdeleted
  · intro other hother
    exact Heap.modules_answer_of_ne _ (fun heq => hother (congrArg some heq)) _

theorem deleteAll_succeeds (hconsistent : self.Consistent)
    {ptrs : List ModulePtr} (howned : ∀ ptr ∈ ptrs, self.Owned ptr) :
    Succeeds (ptrs.foldlM (deleteExpiredModules env) self) fun after =>
      SameLists self after ∧ Part self after (fun _ => False) (· ∈ ptrs) := by
  induction ptrs generalizing self with
  | nil =>
    refine .ok ⟨.refl self, (Part.refl self).weaken (fun _ => id) ?_⟩
    exact fun ptr hptr => absurd hptr List.not_mem_nil
  | cons ptr rest ih =>
    rw [List.foldlM_cons]
    refine (deleteExpiredModules_succeeds env hconsistent
      (howned ptr (List.mem_cons_self ..))).bind ?_
    rintro middle ⟨hlists, hpart, _⟩
    have hrest : ∀ other ∈ rest, middle.Owned other :=
      fun other hother => hpart.owned (howned other (List.mem_cons_of_mem _ hother))
    refine (ih (hpart.consistent hconsistent) hrest).mono ?_
    rintro after ⟨hlists', hpart'⟩
    refine ⟨hlists.trans hlists', (hpart.trans hpart').weaken ?_ ?_⟩
    · exact fun _ hadded => hadded.elim id id
    · intro other hother
      rcases List.mem_cons.mp hother with rfl | hmem
      · exact .inr ⟨rfl, id⟩
      · exact .inl hmem

theorem clearCandidateModules_succeeds (hconsistent : self.Consistent)
    (howned : ∀ ptr ∈ self.candidateModules, self.Owned ptr) :
    Succeeds (self.clearCandidateModules env) fun after =>
      after.rootLanelet = self.rootLanelet ∧
        after.approvedModules = self.approvedModules ∧ after.candidateModules = [] ∧
        Part self after (fun _ => False) (· ∈ self.candidateModules) := by
  refine (deleteAll_succeeds env hconsistent howned).bind ?_
  rintro deleted ⟨hlists, hpart⟩
  exact .ok ⟨hlists.rootLanelet, hlists.approvedModules, rfl, hpart.lists _ _ _⟩

section

variable (howned : self.Owned ptr)

include howned

theorem runModule_succeeds (previous : Out) :
    Succeeds (self.runModule env ptr previous) fun result =>
      SameLists self result.2 ∧
        Part self result.2 (fun _ => False) (fun _ => False) := by
  obtain ⟨name, address, hmem, rfl⟩ := howned
  exact ⟨_, rfl, ⟨rfl, rfl, rfl⟩, part_answer _ _ _⟩

theorem name_of_owned :
    self.heap.name ptr = .ok (self.heap.nameOf ptr) := by
  obtain ⟨name, address, hmem, rfl⟩ := howned
  rfl

theorem isWaitingApproval_of_owned :
    self.heap.isWaitingApproval ptr = .ok (self.heap.waits ptr) := by
  obtain ⟨name, address, hmem, rfl⟩ := howned
  rfl

theorem isLockedNewModuleLaunch_of_owned :
    self.heap.isLockedNewModuleLaunch ptr = .ok (self.heap.locks ptr) := by
  obtain ⟨name, address, hmem, rfl⟩ := howned
  rfl

theorem getCurrentStatus_of_owned :
    ∃ status, self.heap.getCurrentStatus ptr = .ok status := by
  obtain ⟨name, address, hmem, rfl⟩ := howned
  exact ⟨_, rfl⟩

end

/-- An output that is in the results stays there. -/
theorem findKey_emplace_ne_none {results : List (String × Out)} {name key : String}
    {output : Out} (hkey : key = name ∨ findKey Prod.fst key results ≠ none) :
    findKey Prod.fst key (emplace results name output) ≠ none := by
  unfold emplace
  cases hfound : findKey Prod.fst name results with
  | some result =>
    rcases hkey with rfl | hkept
    · rw [hfound]
      exact Option.some_ne_none _
    · exact hkept
  | none =>
    rw [findKey_append, findKey_cons]
    rcases hkey with rfl | hkept
    · rw [hfound, if_pos rfl]
      exact Option.some_ne_none _
    · cases hold : findKey Prod.fst key results with
      | none => exact absurd hold hkept
      | some result => exact Option.some_ne_none _

theorem resultAt_of_ne_none {results : List (String × Out)}
    (hfound : findKey Prod.fst name results ≠ none) :
    ∃ output, resultAt results name = .ok output := by
  unfold resultAt
  cases hresult : findKey Prod.fst name results with
  | none => exact absurd hresult hfound
  | some result => exact ⟨result.2, rfl⟩

/-! ## Approved modules -/

theorem executeApprovedModules_succeeds
    (howned : ∀ ptr ∈ self.approvedModules, self.Owned ptr) (root : Out) :
    Succeeds (self.executeApprovedModules env root) fun result =>
      SameLists self result.2 ∧ Part self result.2 (fun _ => False) (fun _ => False) ∧
        findKey Prod.fst "root" result.1.2 ≠ none := by
  unfold executeApprovedModules
  refine (Succeeds.foldlM
    (fun ptrs result => (∀ ptr ∈ ptrs, self.Owned ptr) ∧ SameLists self result.2 ∧
      Part self result.2 (fun _ => False) (fun _ => False) ∧
      findKey Prod.fst "root" result.1.2 ≠ none) ?_ ?_).mono
    fun _ hresult => hresult.2
  · rintro ptr rest ⟨⟨output, results⟩, middle⟩ ⟨howned, hlists, hpart, hroot⟩
    have hptr := hpart.owned (howned ptr (List.mem_cons_self ..))
    refine (runModule_succeeds env hptr output).bind ?_
    rintro ⟨next, after⟩ ⟨hlists', hpart'⟩
    refine Succeeds.bind_eq (name_of_owned (hpart'.owned hptr)) ?_
    refine .ok ⟨fun other hother => howned other (List.mem_cons_of_mem _ hother),
      hlists.trans hlists', (hpart.trans hpart').weaken ?_ ?_, ?_⟩
    · exact fun _ hadded => hadded.elim id id
    · exact fun _ hfalse => hfalse.elim
    · exact findKey_emplace_ne_none (.inr hroot)
  · exact ⟨howned, .refl self, Part.refl self, by simp [findKey_cons]⟩

/-- Either nothing is popped, or the first waiting module becomes the only
candidate and what stands before it stays approved. -/
def Popped (before after : PlannerManager) : Prop :=
  match before.approvedModules.dropWhile (!before.heap.waits ·) with
  | [] => after = before
  | waiting :: _ =>
    after.rootLanelet = before.rootLanelet ∧
      after.approvedModules = before.approvedModules.takeWhile (!before.heap.waits ·) ∧
      after.candidateModules = [waiting] ∧
      Part before after (fun _ => False) (· ∈ before.candidateModules)

theorem popWaitingApprovalModules_succeeds
    (hconsistent : self.Consistent) (hheld : ∀ ptr ∈ self.approvedModules, self.Owned ptr)
    (hcandidates : ∀ ptr ∈ self.candidateModules, self.Owned ptr) :
    Succeeds (self.popWaitingApprovalModules env) (Popped self) := by
  have hfind := findIf_eq fun ptr hmem => isWaitingApproval_of_owned (hheld ptr hmem)
  refine Succeeds.bind_eq hfind ?_
  unfold Popped
  cases hback : self.approvedModules.dropWhile (!self.heap.waits ·) with
  | nil => exact .ok rfl
  | cons waiting behind =>
    refine (clearCandidateModules_succeeds env hconsistent hcandidates).bind ?_
    rintro cleared ⟨hroot, _, _, hpart⟩
    exact .ok ⟨hroot, rfl, rfl, hpart.lists _ _ _⟩

/-- Approved modules are dropped from the end of the list and deleted, and the
candidates with them. -/
def DropsSuffix (before after : PlannerManager) : Prop :=
  ∃ back, before.approvedModules = after.approvedModules ++ back ∧
    (back = [] → after.candidateModules = before.candidateModules) ∧
    (back ≠ [] → after.candidateModules = []) ∧
    (before.rootLanelet.isSome = true → after.rootLanelet.isSome = true) ∧
    Part before after (fun _ => False)
      (fun ptr => ptr ∈ back ∨ (back ≠ [] ∧ ptr ∈ before.candidateModules))

theorem DropsSuffix.refl (self : PlannerManager) : DropsSuffix self self := by
  refine ⟨[], (List.append_nil _).symm, fun _ => rfl, fun hne => absurd rfl hne, id, ?_⟩
  refine (Part.refl self).weaken (fun _ => id) ?_
  rintro ptr (hmem | ⟨hne, _⟩)
  · cases hmem
  · exact absurd rfl hne

theorem deleteApprovedModules_succeeds (hconsistent : self.Consistent)
    (hheld : ∀ ptr ∈ self.approvedModules, self.Owned ptr)
    (hcandidates : ∀ ptr ∈ self.candidateModules, self.Owned ptr) {front back : List ModulePtr}
    (hsplit : self.approvedModules = front ++ back) (hback : back ≠ []) :
    Succeeds (self.deleteApprovedModules env front back) (DropsSuffix self) := by
  have howned : ∀ ptr ∈ back, self.Owned ptr := by
    intro ptr hmem
    refine hheld ptr ?_
    rw [hsplit]
    exact List.mem_append_right _ hmem
  refine (deleteAll_succeeds env hconsistent howned).bind ?_
  rintro deleted ⟨hlists, hpart⟩
  have hnulled := hpart.lists deleted.rootLanelet (front ++ expired back) deleted.candidateModules
  refine (clearCandidateModules_succeeds env (hnulled.consistent hconsistent) ?_).bind ?_
  · intro ptr hmem
    refine hnulled.owned (hcandidates ptr ?_)
    rw [← hlists.candidateModules]
    exact hmem
  · rintro cleared ⟨hroot, _, hempty, hcleared⟩
    refine .ok ⟨back, hsplit, fun hnil => absurd hnil hback, fun _ => hempty, ?_, ?_⟩
    · intro hsome
      change cleared.rootLanelet.isSome = true
      rw [hroot]
      change deleted.rootLanelet.isSome = true
      rw [hlists.rootLanelet]
      exact hsome
    · refine ((hnulled.trans hcleared).lists _ _ _).weaken ?_ ?_
      · exact fun _ hadded => hadded.elim id id
      · rintro ptr (hmem | ⟨_, hmem⟩)
        · exact .inr ⟨hmem, id⟩
        · refine .inl ?_
          change ptr ∈ deleted.candidateModules
          rw [hlists.candidateModules]
          exact hmem

theorem removeFailureModules_succeeds
    (hconsistent : self.Consistent) (hheld : ∀ ptr ∈ self.approvedModules, self.Owned ptr)
    (hcandidates : ∀ ptr ∈ self.candidateModules, self.Owned ptr) :
    Succeeds (self.removeFailureModules env) (DropsSuffix self) := by
  refine (findIf_succeeds fun ptr hmem => ?_).bind ?_
  · obtain ⟨status, hstatus⟩ := getCurrentStatus_of_owned (hheld ptr hmem)
    exact ⟨_, by rw [hstatus]; rfl⟩
  · rintro ⟨front, back⟩ hsplit
    dsimp only
    by_cases hback : back = []
    · subst hback
      exact .ok (DropsSuffix.refl self)
    · have hnot : back.isEmpty = false := by simpa using hback
      simp only [hnot, Bool.false_eq_true, if_false]
      exact deleteApprovedModules_succeeds env hconsistent hheld hcandidates hsplit hback

theorem removeSuccessModules_succeeds (data : Data)
    (hconsistent : self.Consistent) (hheld : ∀ ptr ∈ self.approvedModules, self.Owned ptr)
    (hcandidates : ∀ ptr ∈ self.candidateModules, self.Owned ptr) :
    Succeeds (self.removeSuccessModules env data) (DropsSuffix self) := by
  refine (findIf_succeeds fun ptr hmem => ?_).bind ?_
  · obtain ⟨status, hstatus⟩ :=
      getCurrentStatus_of_owned (hheld ptr (List.mem_reverse.mp hmem))
    exact ⟨_, by rw [hstatus]; rfl⟩
  · rintro ⟨backReversed, frontReversed⟩ hreversed
    have hsplit : self.approvedModules = frontReversed.reverse ++ backReversed.reverse := by
      rw [← List.reverse_append, ← hreversed, List.reverse_reverse]
    dsimp only
    generalize frontReversed.reverse = front at hsplit ⊢
    generalize backReversed.reverse = back at hsplit ⊢
    by_cases hback : back = []
    · subst hback
      exact .ok (DropsSuffix.refl self)
    · have hnot : back.isEmpty = false := by simpa using hback
      simp only [hnot, Bool.false_eq_true, if_false]
      have hbackOwned : ∀ ptr ∈ back, self.Owned ptr := by
        intro ptr hmem
        refine hheld ptr ?_
        rw [hsplit]
        exact List.mem_append_right _ hmem
      have hdelete := deleteApprovedModules_succeeds env hconsistent hheld hcandidates hsplit hback
      obtain ⟨laneChange, hlaneChange⟩ := exists?_succeeds
        (show ∀ ptr ∈ back, ∃ found, (do return isLaneChange (← self.heap.name ptr) :
            Except Error Bool) = .ok found from fun ptr hmem =>
          ⟨_, by rw [name_of_owned (hbackOwned ptr hmem)]; rfl⟩)
      refine Succeeds.bind_eq hlaneChange ?_
      cases laneChange with
      | false => exact hdelete
      | true =>
        cases hfront : front.isEmpty with
        | false => exact .ok (DropsSuffix.refl self)
        | true =>
          refine hdelete.bind ?_
          rintro deleted ⟨dropped, hdropped, hkept, hempty, _, hpart⟩
          exact .ok ⟨dropped, hdropped, hkept, hempty, fun _ => rfl, hpart.lists _ _ _⟩

end PlannerManager

end AutowareUniverse.Planning
