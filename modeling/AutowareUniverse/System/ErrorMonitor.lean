import AutowareUniverse.Messages.Common
import AutowareUniverse.Library.Runs
import AutowareUniverse.Library.Numerals
import Mathlib.Data.Finset.Max
import Mathlib.Data.List.TakeWhile
import Mathlib.Algebra.Order.Field.Rat

/-!
# The diagnostics filter

Diagnostic names are paths separated by slashes.  A diagnostic is a leaf of a
list if no other name of the list ends its path there, and a child of every
diagnostic whose name is a proper part of its path.
-/

namespace AutowareUniverse.System.DiagnosticsFilter

open Messages

section

def beforeLastSlash (str : List Char) : List Char :=
  ((str.reverse.dropWhile (· ≠ '/')).drop 1).reverse

def splitStringByLastSlash (str : String) : String :=
  String.ofList (beforeLastSlash str.toList)

/-- The loop of `isChild`: shorten the name until it is the parent's or empty. -/
def isDescendantName (parent : String) : Nat → String → Bool
  | 0, _ => false
  | fuel + 1, name =>
    if name = "" then false
    else if name = parent then true
    else isDescendantName parent fuel (splitStringByLastSlash name)

def isChild (child parent : DiagnosticStatus) : Bool :=
  isDescendantName parent.name child.name.length (splitStringByLastSlash child.name)

def createDiagNameSet (diagnostics : List DiagnosticStatus) : List String :=
  diagnostics.map fun diag => splitStringByLastSlash diag.name

def isLeaf (diagNameSet : List String) (diag : DiagnosticStatus) : Bool :=
  decide (diag.name ∉ diagNameSet)

def extractLeafDiagnostics (diagnostics : List DiagnosticStatus) :
    List DiagnosticStatus :=
  diagnostics.filter (isLeaf (createDiagNameSet diagnostics))

def extractLeafChildrenDiagnostics (parent : DiagnosticStatus)
    (diagnostics : List DiagnosticStatus) : List DiagnosticStatus :=
  (extractLeafDiagnostics diagnostics).filter fun diag => isChild diag parent

theorem length_beforeLastSlash_le (str : List Char) :
    (beforeLastSlash str).length ≤ str.length - 1 := by
  have hdrop := (List.dropWhile_sublist (· ≠ '/') (l := str.reverse)).length_le
  rw [List.length_reverse] at hdrop
  rw [beforeLastSlash, List.length_reverse, List.length_drop]
  omega

theorem length_splitStringByLastSlash_lt {str : String} (hne : str ≠ "") :
    (splitStringByLastSlash str).length < str.length := by
  have hpos : str.length ≠ 0 := by
    intro hzero
    exact hne (String.length_eq_zero_iff.mp hzero)
  have hle := length_beforeLastSlash_le str.toList
  rw [splitStringByLastSlash, String.length_ofList]
  rw [String.length_toList] at hle
  omega

theorem isDescendantName_of_le (parent : String) {fuel : Nat} {name : String}
    (hfuel : name.length ≤ fuel) :
    isDescendantName parent fuel name =
      isDescendantName parent name.length name := by
  induction fuel using Nat.strong_induction_on generalizing name with
  | _ fuel ih =>
    by_cases hempty : name = ""
    · subst hempty
      cases fuel <;> rfl
    · have hlt := length_splitStringByLastSlash_lt hempty
      obtain ⟨shorter, rfl⟩ : ∃ shorter, fuel = shorter + 1 := ⟨fuel - 1, by omega⟩
      obtain ⟨rest, hrest⟩ : ∃ rest, name.length = rest + 1 := ⟨name.length - 1, by omega⟩
      rw [hrest]
      simp only [isDescendantName, if_neg hempty]
      rw [ih shorter (by omega) (by omega), ih rest (by omega) (by omega)]

end

/-!
# Leaf children of a diagnostic

A name lies below another one when it continues it after a slash.  `isChild`
decides this for every depth, but `isLeaf` only looks one level down, so the
two disagree on lists that leave a level out.
-/

/-- The path `name` continues the path `parent` by at least one more level. -/
def Below (name parent : String) : Prop :=
  parent.toList ++ ['/'] <+: name.toList

instance (name parent : String) : Decidable (Below name parent) :=
  inferInstanceAs (Decidable (parent.toList ++ ['/'] <+: name.toList))

def leafDescendants (parent : DiagnosticStatus)
    (diagnostics : List DiagnosticStatus) : List DiagnosticStatus :=
  diagnostics.filter fun diag =>
    decide (Below diag.name parent.name ∧ ∀ other ∈ diagnostics, ¬ Below other.name diag.name)

/-! ## Cutting a name at its last slash -/

theorem beforeLastSlash_append {front back : List Char} (hback : '/' ∉ back) :
    beforeLastSlash (front ++ '/' :: back) = front := by
  have hall : ∀ letter ∈ back.reverse, decide (letter ≠ '/') = true := by
    intro letter hmem
    have hne : letter ≠ '/' := by
      rintro rfl
      exact hback (List.mem_reverse.mp hmem)
    simpa using hne
  have hreverse : (front ++ '/' :: back).reverse =
      back.reverse ++ '/' :: front.reverse := by
    simp
  rw [beforeLastSlash, hreverse, List.dropWhile_append_of_pos hall]
  simp

theorem exists_append_last_slash {str : List Char} (hstr : '/' ∈ str) :
    ∃ front back, '/' ∉ back ∧ str = front ++ '/' :: back := by
  obtain ⟨back, front, hsplit, hback⟩ := List.eq_append_cons_of_mem (List.mem_reverse.mpr hstr)
  refine ⟨front.reverse, back.reverse, by simpa using hback, ?_⟩
  have hreverse := congrArg List.reverse hsplit
  simpa using hreverse

variable {name parent : String}

theorem below_iff_exists :
    Below name parent ↔ ∃ rest, name.toList = parent.toList ++ '/' :: rest := by
  constructor
  · rintro ⟨rest, hrest⟩
    exact ⟨rest, by simpa using hrest.symm⟩
  · rintro ⟨rest, hrest⟩
    exact ⟨rest, by simpa using hrest.symm⟩

theorem Below.ne_empty (hbelow : Below name parent) :
    name ≠ "" := by
  rintro rfl
  obtain ⟨rest, hrest⟩ := below_iff_exists.mp hbelow
  simp at hrest

theorem Below.length_lt (hbelow : Below name parent) :
    parent.length < name.length := by
  obtain ⟨rest, hrest⟩ := below_iff_exists.mp hbelow
  have hlength := congrArg List.length hrest
  rw [List.length_append, List.length_cons, String.length_toList, String.length_toList] at hlength
  omega

theorem Below.slash_mem (hbelow : Below name parent) :
    '/' ∈ name.toList := by
  obtain ⟨rest, hrest⟩ := below_iff_exists.mp hbelow
  rw [hrest]
  simp

variable {name : String}

theorem below_splitStringByLastSlash (hslash : '/' ∈ name.toList) :
    Below name (splitStringByLastSlash name) := by
  obtain ⟨front, back, hback, hname⟩ := exists_append_last_slash hslash
  refine below_iff_exists.mpr ⟨back, ?_⟩
  rw [splitStringByLastSlash, String.toList_ofList, hname, beforeLastSlash_append hback]

theorem slash_mem_of_splitStringByLastSlash_ne
    (hne : splitStringByLastSlash name ≠ "") : '/' ∈ name.toList := by
  by_contra hslash
  apply hne
  have hdrop : name.toList.reverse.dropWhile (fun letter => decide (letter ≠ '/')) = [] := by
    rw [List.dropWhile_eq_nil_iff]
    intro letter hmem
    have hletter : letter ≠ '/' := by
      rintro rfl
      exact hslash (List.mem_reverse.mp hmem)
    simpa using hletter
  rw [splitStringByLastSlash, beforeLastSlash, hdrop]
  rfl

theorem below_iff_splitStringByLastSlash (hslash : '/' ∈ name.toList) :
    Below name parent ↔ splitStringByLastSlash name = parent ∨
        Below (splitStringByLastSlash name) parent := by
  obtain ⟨front, back, hback, hname⟩ := exists_append_last_slash hslash
  have hcut : (splitStringByLastSlash name).toList = front := by
    rw [splitStringByLastSlash, String.toList_ofList, hname, beforeLastSlash_append hback]
  have heq : splitStringByLastSlash name = parent ↔ front = parent.toList := by
    rw [← String.toList_inj, hcut]
  rw [heq, below_iff_exists, below_iff_exists, hname, hcut]
  constructor
  · rintro ⟨rest, hrest⟩
    rcases List.append_eq_append_iff.mp hrest with
      ⟨extra, hparent, hextra⟩ | ⟨extra, hfront, hextra⟩
    · cases extra with
      | nil => exact .inl (by simpa using hparent.symm)
      | cons letter tail =>
        -- The slash after the parent would stand behind the last slash.
        rw [List.cons_append, List.cons.injEq] at hextra
        rw [hextra.2] at hback
        simp at hback
    · cases extra with
      | nil => exact .inl (by simpa using hfront)
      | cons letter tail =>
        rw [List.cons_append, List.cons.injEq] at hextra
        exact .inr ⟨tail, by rw [hfront, ← hextra.1]⟩
  · rintro (rfl | ⟨rest, rfl⟩)
    · exact ⟨back, hname ▸ rfl⟩
    · exact ⟨rest ++ '/' :: back, by simp⟩

theorem isDescendantName_iff {parent : String} {fuel : Nat} (hfuel : name.length ≤ fuel) :
    isDescendantName parent fuel name = true ↔
      parent ≠ "" ∧ (name = parent ∨ Below name parent) := by
  induction fuel generalizing name with
  | zero =>
    have hempty : name = "" := String.length_eq_zero_iff.mp (by omega)
    subst hempty
    constructor
    · intro htrue
      cases htrue
    · rintro ⟨hparent, rfl | hbelow⟩
      · exact absurd rfl hparent
      · exact absurd rfl hbelow.ne_empty
  | succ fuel ih =>
    by_cases hempty : name = ""
    · subst hempty
      constructor
      · intro htrue
        cases htrue
      · rintro ⟨hparent, rfl | hbelow⟩
        · exact absurd rfl hparent
        · exact absurd rfl hbelow.ne_empty
    · have hlt := length_splitStringByLastSlash_lt hempty
      rw [isDescendantName, if_neg hempty]
      by_cases heq : name = parent
      · subst heq
        simp [hempty]
      · rw [if_neg heq, ih (by omega)]
        constructor
        · rintro ⟨hparent, hcut⟩
          have hslash : '/' ∈ name.toList := by
            rcases hcut with rfl | hcut
            · exact slash_mem_of_splitStringByLastSlash_ne hparent
            · exact slash_mem_of_splitStringByLastSlash_ne hcut.ne_empty
          exact ⟨hparent, .inr ((below_iff_splitStringByLastSlash hslash).mpr hcut)⟩
        · rintro ⟨hparent, rfl | hbelow⟩
          · exact absurd rfl heq
          · exact ⟨hparent, (below_iff_splitStringByLastSlash hbelow.slash_mem).mp hbelow⟩

/-- `isChild` finds every ancestor but the empty name, where its loop stops. -/
theorem isChild_iff {child parent : DiagnosticStatus} : isChild child parent = true ↔
      parent.name ≠ "" ∧ Below child.name parent.name := by
  have hcut : (splitStringByLastSlash child.name).length ≤ child.name.length := by
    by_cases hempty : child.name = ""
    · rw [hempty]
      exact Nat.le_refl 0
    · exact (length_splitStringByLastSlash_lt hempty).le
  rw [isChild, isDescendantName_iff hcut]
  constructor
  · rintro ⟨hparent, hname⟩
    have hslash : '/' ∈ child.name.toList := by
      rcases hname with heq | hbelow
      · exact slash_mem_of_splitStringByLastSlash_ne (heq ▸ hparent)
      · exact slash_mem_of_splitStringByLastSlash_ne hbelow.ne_empty
    exact ⟨hparent, (below_iff_splitStringByLastSlash hslash).mpr hname⟩
  · rintro ⟨hparent, hbelow⟩
    exact ⟨hparent, (below_iff_splitStringByLastSlash hbelow.slash_mem).mp hbelow⟩

variable {diagnostics : List DiagnosticStatus}

theorem isLeaf_iff {diag : DiagnosticStatus} : isLeaf (createDiagNameSet diagnostics) diag = true ↔
      ∀ other ∈ diagnostics, splitStringByLastSlash other.name ≠ diag.name := by
  simp [isLeaf, createDiagNameSet]

/-! ## The diagnostics that are returned -/

theorem extractLeafChildrenDiagnostics_eq_filter (parent : DiagnosticStatus)
    (diagnostics : List DiagnosticStatus) :
    extractLeafChildrenDiagnostics parent diagnostics =
      diagnostics.filter fun diag =>
        isChild diag parent && isLeaf (createDiagNameSet diagnostics) diag := by
  rw [extractLeafChildrenDiagnostics, extractLeafDiagnostics, List.filter_filter]

theorem Below.trans {name middle parent : String} (hlower : Below name middle)
    (hupper : Below middle parent) : Below name parent := by
  obtain ⟨lower, hname⟩ := below_iff_exists.mp hlower
  obtain ⟨upper, hmiddle⟩ := below_iff_exists.mp hupper
  refine below_iff_exists.mpr ⟨upper ++ '/' :: lower, ?_⟩
  rw [hname, hmiddle]
  simp

theorem mem_leafDescendants {parent diag : DiagnosticStatus} :
    diag ∈ leafDescendants parent diagnostics ↔ diag ∈ diagnostics ∧ Below diag.name parent.name ∧
        ∀ other ∈ diagnostics, ¬ Below other.name diag.name := by
  rw [leafDescendants, List.mem_filter, decide_eq_true_iff]

theorem exists_mem_leafDescendants {parent diag : DiagnosticStatus} (hmem : diag ∈ diagnostics)
    (hbelow : Below diag.name parent.name) :
    ∃ leaf, leaf ∈ leafDescendants parent diagnostics := by
  obtain ⟨leaf, hleaf, hlongest⟩ := Finset.exists_max_image
    (diagnostics.toFinset.filter fun other => Below other.name parent.name)
    (fun other => other.name.length) ⟨diag, by simp [hmem, hbelow]⟩
  rw [Finset.mem_filter, List.mem_toFinset] at hleaf
  refine ⟨leaf, mem_leafDescendants.mpr ⟨hleaf.1, hleaf.2, ?_⟩⟩
  intro other hother hlower
  have hle := hlongest other (by simp [hother, hlower.trans hleaf.2])
  have hlt := hlower.length_lt
  omega

theorem filter_eq_filter_iff {α : Type} {keep keep' : α → Bool} {values : List α} :
    values.filter keep = values.filter keep' ↔
      ∀ value ∈ values, keep value = true ↔ keep' value = true := by
  constructor
  · intro heq value hmem
    have hboth : value ∈ values.filter keep ↔ value ∈ values.filter keep' := by
      rw [heq]
    simpa [List.mem_filter, hmem] using hboth
  · intro hagree
    exact List.filter_congr fun value hmem => Bool.eq_iff_iff.mpr (hagree value hmem)

/-- A diagnostic with a direct child in the list has a descendant there. -/
theorem exists_below_of_not_isLeaf {diag : DiagnosticStatus} (hne : diag.name ≠ "")
    (hleaf : ¬ isLeaf (createDiagNameSet diagnostics) diag = true) :
    ∃ other ∈ diagnostics, Below other.name diag.name := by
  rw [isLeaf_iff] at hleaf
  push Not at hleaf
  obtain ⟨other, hother, hcut⟩ := hleaf
  refine ⟨other, hother, ?_⟩
  have hslash := slash_mem_of_splitStringByLastSlash_ne (hcut ▸ hne)
  rw [← hcut]
  exact below_splitStringByLastSlash hslash

/--
The leaf children are the descendants without descendants exactly when every
descendant that has descendants has a published one on the very next level,
and nothing is looked for below the empty name.
-/
theorem extractLeafChildrenDiagnostics_eq_leafDescendants_iff
    (parent : DiagnosticStatus) (diagnostics : List DiagnosticStatus) :
    extractLeafChildrenDiagnostics parent diagnostics = leafDescendants parent diagnostics ↔
      (parent.name = "" → ∀ diag ∈ diagnostics, ¬ Below diag.name parent.name) ∧
      ∀ diag ∈ diagnostics, Below diag.name parent.name →
        (∃ other ∈ diagnostics, Below other.name diag.name) →
        ∃ other ∈ diagnostics, splitStringByLastSlash other.name = diag.name := by
  rw [extractLeafChildrenDiagnostics_eq_filter, leafDescendants, filter_eq_filter_iff]
  simp only [Bool.and_eq_true, decide_eq_true_eq, isChild_iff, isLeaf_iff]
  constructor
  · intro hagree
    constructor
    · intro hempty diag hmem hbelow
      obtain ⟨leaf, hleaf⟩ := exists_mem_leafDescendants hmem hbelow
      rw [mem_leafDescendants] at hleaf
      exact ((hagree leaf hleaf.1).mpr hleaf.2).1.1 hempty
    · rintro diag hmem hbelow ⟨other, hother, hlower⟩
      by_contra hmissing
      push Not at hmissing
      by_cases hempty : parent.name = ""
      · obtain ⟨leaf, hleaf⟩ := exists_mem_leafDescendants hmem hbelow
        rw [mem_leafDescendants] at hleaf
        exact ((hagree leaf hleaf.1).mpr hleaf.2).1.1 hempty
      · exact ((hagree diag hmem).mp ⟨⟨hempty, hbelow⟩, hmissing⟩).2 other hother hlower
  · rintro ⟨hempty, hlevels⟩ diag hmem
    constructor
    · rintro ⟨⟨hparent, hbelow⟩, hmissing⟩
      refine ⟨hbelow, fun other hother hlower => ?_⟩
      obtain ⟨direct, hdirect, hcut⟩ := hlevels diag hmem hbelow ⟨other, hother, hlower⟩
      exact hmissing direct hdirect hcut
    · rintro ⟨hbelow, hnone⟩
      refine ⟨⟨fun hname => hempty hname diag hmem hbelow, hbelow⟩, ?_⟩
      by_contra hdirect
      obtain ⟨other, hother, hlower⟩ :=
        exists_below_of_not_isLeaf hbelow.ne_empty (by rwa [isLeaf_iff])
      exact hnone other hother hlower

/-- With the level of `/a/b/c` left out, `/a/b` is returned beside `/a/b/c/d`. -/
theorem extractLeafChildrenDiagnostics_missing_level :
    extractLeafChildrenDiagnostics ⟨DiagnosticStatus.ok, "/a", "", ""⟩
        [⟨DiagnosticStatus.warn, "/a/b", "", ""⟩, ⟨DiagnosticStatus.error, "/a/b/c/d", "", ""⟩] ≠
      leafDescendants ⟨DiagnosticStatus.ok, "/a", "", ""⟩ [⟨DiagnosticStatus.warn, "/a/b", "", ""⟩,
          ⟨DiagnosticStatus.error, "/a/b/c/d", "", ""⟩] := by
  decide

end AutowareUniverse.System.DiagnosticsFilter

namespace AutowareUniverse.System

/-! ## The system error monitor node -/

open Library.Runs Messages

namespace ErrorMonitor

/-! ## Data -/

structure DiagConfig where
  name : String
  sfAt : String
  lfAt : String
  spfAt : String
  autoRecovery : Bool

/-- The two keys of `required_modules_map_`. -/
inductive KeyName where
  | autonomousDriving
  | externalControl
  deriving DecidableEq

/-- The node parameters with the required modules that the constructor loads. -/
structure Param where
  ignoreMissingDiagnostics : Bool
  addLeafDiagnostics : Bool
  dataReadyTimeout : ℚ
  dataHeartbeatTimeout : ℚ
  diagTimeoutSec : ℚ
  hazardRecoveryTimeout : ℚ
  emergencyHazardLevel : Int
  useEmergencyHold : Bool
  useEmergencyHoldInManualDriving : Bool
  requiredModulesMap : KeyName → List DiagConfig

/-- The `state` values of `autoware_auto_system_msgs::msg::AutowareState`. -/
inductive AutowareState where
  | initializing
  | waitingForRoute
  | planning
  | waitingForEngage
  | driving
  | arrivedGoal
  | finalizing
  | unknown (state : UInt8)
  deriving DecidableEq

/-- The `data` values of `tier4_control_msgs::msg::GateMode`. -/
inductive GateMode where
  | auto
  | external
  | unknown (data : UInt8)
  deriving DecidableEq

structure DiagStamped where
  stamp : Time
  status : DiagnosticStatus

/-- The members that point to the newest message of a topic. -/
inductive Topic where
  | diagArray
  | currentGateMode
  | autowareState
  | controlMode
  deriving DecidableEq

inductive Error where
  | nullMessage (topic : Topic)
  | missingKey
  | invalidLevel (level : String)
  | invalidHazardLevel (level : Nat)
  | differentTimeSources
  deriving DecidableEq

/-- The two topics that the node publishes. -/
inductive Output where
  | hazardStatus (stamp : Time) (status : HazardStatus)
  | diagnosticsErr (stamp : Time) (status : List DiagnosticStatus)
  deriving DecidableEq

end ErrorMonitor

/-- The members of `AutowareErrorMonitor`.  A time that is never written carries
another clock type than the node's clock and is `none`. -/
structure ErrorMonitor where
  emergencyStateSwitchTime : Option Time
  initializedTime : Time
  hazardStatus : HazardStatus
  currentMode : Option ErrorMonitor.KeyName
  diagBufferMap : String → List ErrorMonitor.DiagStamped
  diagArray : Option (List DiagnosticStatus)
  autowareState : Option ErrorMonitor.AutowareState
  currentGateMode : Option ErrorMonitor.GateMode
  controlMode : Option ControlMode
  diagArrayStamp : Option Time
  autowareStateStamp : Option Time
  currentGateModeStamp : Option Time
  controlModeStamp : Option Time

namespace ErrorMonitor

/-- The state left by the constructor. -/
def initial (now : Time) : ErrorMonitor where
  emergencyStateSwitchTime := none
  initializedTime := now
  hazardStatus := .empty
  currentMode := none
  diagBufferMap := fun _ => []
  diagArray := none
  autowareState := none
  currentGateMode := none
  controlMode := some .manual
  diagArrayStamp := none
  autowareStateStamp := none
  currentGateModeStamp := none
  controlModeStamp := none

def deref {α : Type} (topic : Topic) : Option α → Except Error α
  | some message => .ok message
  | none => .error (.nullMessage topic)

/-! ## Hazard levels -/

/-- The names are matched without regard to case. -/
def str2level (levelStr : String) : Except Error Nat :=
  if levelStr.toLower = "warn" then .ok DiagnosticStatus.warn
  else if levelStr.toLower = "error" then .ok DiagnosticStatus.error
  else if levelStr.toLower = "stale" then .ok DiagnosticStatus.stale
  else .error (.invalidLevel levelStr)

def isOverLevel (diagLevel : Nat) (failureLevelStr : String) : Except Error Bool :=
  if failureLevelStr = "none" then .ok false
  else (str2level failureLevelStr).map fun level => decide (level ≤ diagLevel)

def getHazardLevel (requiredModule : DiagConfig) (diagLevel : Nat) :
    Except Error Nat := do
  if ← isOverLevel diagLevel requiredModule.spfAt then
    return HazardStatus.singlePointFault
  if ← isOverLevel diagLevel requiredModule.lfAt then
    return HazardStatus.latentFault
  if ← isOverLevel diagLevel requiredModule.sfAt then
    return HazardStatus.safeFault
  return HazardStatus.noFault

/-- Append to the diagnostics that `getTargetDiagnosticsRef` refers to. -/
def appendTargetDiagnostics (hazardLevel : Nat) (diagnostics : List DiagnosticStatus)
    (status : HazardStatus) : Except Error HazardStatus :=
  if hazardLevel = HazardStatus.noFault then
    .ok { status with diagNoFault := status.diagNoFault ++ diagnostics }
  else if hazardLevel = HazardStatus.safeFault then
    .ok { status with diagSafeFault := status.diagSafeFault ++ diagnostics }
  else if hazardLevel = HazardStatus.latentFault then
    .ok { status with diagLatentFault := status.diagLatentFault ++ diagnostics }
  else if hazardLevel = HazardStatus.singlePointFault then
    .ok { status with
      diagSinglePointFault := status.diagSinglePointFault ++ diagnostics }
  else
    .error (.invalidHazardLevel hazardLevel)

def getErrorModules (status : HazardStatus) (emergencyHazardLevel : Int) :
    List String :=
  (if emergencyHazardLevel ≤ HazardStatus.singlePointFault then
      status.diagSinglePointFault.map DiagnosticStatus.name else []) ++
    (if emergencyHazardLevel ≤ HazardStatus.latentFault then
      status.diagLatentFault.map DiagnosticStatus.name else []) ++
    (if emergencyHazardLevel ≤ HazardStatus.safeFault then
      status.diagSafeFault.map DiagnosticStatus.name else [])

def isInNoFaultCondition (autowareState : AutowareState) (currentGateMode : GateMode) : Bool :=
  let isInAutonomousIgnoreState :=
    autowareState = .initializing ∨ autowareState = .waitingForRoute ∨
      autowareState = .planning ∨ autowareState = .finalizing
  let isInExternalIgnoreState :=
    autowareState = .initializing ∨ autowareState = .finalizing
  if currentGateMode = .auto ∧ isInAutonomousIgnoreState then true
  else if currentGateMode = .external ∧ isInExternalIgnoreState then true
  else false

def getLatestDiag (self : ErrorMonitor) (diagName : String) : Option DiagStamped :=
  (self.diagBufferMap diagName).getLast?

variable (param : Param) (self : ErrorMonitor)

def appendHazardDiag (requiredModule : DiagConfig) (hazardDiag : DiagnosticStatus)
    (status : HazardStatus) : Except Error HazardStatus := do
  let hazardLevel ← getHazardLevel requiredModule hazardDiag.level
  let appended ← appendTargetDiagnostics hazardLevel [hazardDiag] status
  let leafs ←
    if param.addLeafDiagnostics then do
      let diagArray ← deref .diagArray self.diagArray
      appendTargetDiagnostics hazardLevel
        (DiagnosticsFilter.extractLeafChildrenDiagnostics hazardDiag diagArray)
        appended
    else
      .ok appended
  return { leafs with level := max leafs.level hazardLevel }

def judgeRequiredModule (now : Time) (status : HazardStatus) (requiredModule : DiagConfig) :
    Except Error HazardStatus :=
  match self.getLatestDiag requiredModule.name with
  | none =>
    if param.ignoreMissingDiagnostics then
      .ok status
    else
      self.appendHazardDiag param requiredModule
        { level := DiagnosticStatus.stale
          name := requiredModule.name
          message := "no diag found"
          hardwareId := "system_error_monitor" } status
  | some latestDiag => do
    let appended ←
      self.appendHazardDiag param requiredModule latestDiag.status status
    if param.diagTimeoutSec < seconds (now - latestDiag.stamp) then
      self.appendHazardDiag param requiredModule
        { latestDiag.status with
          level := DiagnosticStatus.stale
          message := "timeout" } appended
    else
      .ok appended

/-- `required_modules_map_.at(current_mode_)`; the mode is empty at first. -/
def requiredModules : Except Error (List DiagConfig) :=
  match self.currentMode with
  | some mode => .ok (param.requiredModulesMap mode)
  | none => .error .missingKey

def judgeHazardStatus (now : Time) :
    Except Error HazardStatus := do
  let modules ← self.requiredModules param
  let status ← modules.foldlM (self.judgeRequiredModule param now) .empty
  let autowareState ← deref .autowareState self.autowareState
  let currentGateMode ← deref .currentGateMode self.currentGateMode
  -- Ignore error when vehicle is not ready to start.
  if isInNoFaultCondition autowareState currentGateMode then
    return { status with level := HazardStatus.noFault }
  else
    return status

/-! ## Holding -/

def canAutoRecovery : Except Error Bool := do
  let errorModules := getErrorModules self.hazardStatus param.emergencyHazardLevel
  let modules ← self.requiredModules param
  return modules.all fun requiredModule =>
    requiredModule.autoRecovery || decide (requiredModule.name ∉ errorModules)

def emergencyDuration (now : Time) : Except Error ℚ :=
  match self.emergencyStateSwitchTime with
  | some switchTime => .ok (seconds (now - switchTime))
  | none => .error .differentTimeSources

def isEmergencyHoldingRequired (self : ErrorMonitor) (now : Time) :
    Except Error Bool := do
  if self.hazardStatus.emergencyHolding then
    return true
  if !self.hazardStatus.emergency then
    return false
  let emergencyDuration ← self.emergencyDuration now
  if emergencyDuration < param.hazardRecoveryTimeout then
    if ← self.canAutoRecovery param then
      return false
  let controlMode ← deref .controlMode self.controlMode
  let isManualDriving := controlMode = .manual
  if ¬ param.useEmergencyHoldInManualDriving ∧ isManualDriving then
    return false
  return true

/-- The members after judging, unless the status is held. -/
def updateLevel (self : ErrorMonitor) (now : Time) :
    Except Error HazardStatus :=
  if !self.hazardStatus.emergencyHolding then do
    let current ← self.judgeHazardStatus param now
    return { self.hazardStatus with
      level := current.level
      diagNoFault := current.diagNoFault
      diagSafeFault := current.diagSafeFault
      diagLatentFault := current.diagLatentFault
      diagSinglePointFault := current.diagSinglePointFault }
  else
    .ok self.hazardStatus

def setHazardStatus (now : Time) (status : HazardStatus) :
    ErrorMonitor :=
  { self with
    hazardStatus := status
    emergencyStateSwitchTime :=
      if status.emergency ≠ self.hazardStatus.emergency then some now
      else self.emergencyStateSwitchTime }

def setEmergencyHolding (holding : Bool) : ErrorMonitor :=
  { self with hazardStatus := { self.hazardStatus with emergencyHolding := holding } }

def updateHazardStatus (self : ErrorMonitor) (now : Time) :
    Except Error ErrorMonitor := do
  let status ← self.updateLevel param now
  let updated := self.setHazardStatus now
    { status with emergency := decide (param.emergencyHazardLevel ≤ status.level) }
  if param.useEmergencyHold then do
    let holding ← updated.isEmergencyHoldingRequired param now
    return updated.setEmergencyHolding holding
  else
    return updated

def inputDataTimeoutDiag : DiagnosticStatus where
  level := DiagnosticStatus.error
  name := "system_error_monitor/input_data_timeout"
  message := ""
  hardwareId := "system_error_monitor"

def updateTimeoutHazardStatus (self : ErrorMonitor) (now : Time) :
    Except Error ErrorMonitor := do
  let updated := self.setHazardStatus now
    { self.hazardStatus with
      level := HazardStatus.singlePointFault
      emergency := true
      diagNoFault := []
      diagSafeFault := []
      diagLatentFault := []
      diagSinglePointFault := [inputDataTimeoutDiag] }
  if param.useEmergencyHold then do
    let emergencyDuration ← updated.emergencyDuration now
    return updated.setEmergencyHolding (decide (param.hazardRecoveryTimeout < emergencyDuration))
  else
    return updated

/-! ## Callbacks -/

def decorateDiag (label : String) (diag : DiagnosticStatus) : DiagnosticStatus :=
  { diag with message := label ++ diag.message }

def convertHazardStatusToDiagnosticArray (status : HazardStatus) :
    List DiagnosticStatus :=
  status.diagNoFault.map (decorateDiag "[No Fault]") ++
    status.diagSafeFault.map (decorateDiag "[Safe Fault]") ++
    status.diagLatentFault.map (decorateDiag "[Latent Fault]") ++
    status.diagSinglePointFault.map (decorateDiag "[Single Point Fault]")

def publishHazardStatus (now : Time) (status : HazardStatus) : List Output :=
  [.hazardStatus now status, .diagnosticsErr now (convertHazardStatusToDiagnosticArray status)]

def isDataReady : Bool :=
  self.diagArray.isSome && self.currentGateMode.isSome &&
    self.autowareState.isSome && self.controlMode.isSome

/-- A message that was never received does not time out. -/
def isTimeout (now : Time) (threshold : ℚ) : Option Time → Bool
  | none => false
  | some lastStamp => decide (threshold < seconds (now - lastStamp))

def isDataHeartbeatTimeout (self : ErrorMonitor) (now : Time) : Bool :=
  isTimeout now param.dataHeartbeatTimeout self.diagArrayStamp ||
    isTimeout now param.dataHeartbeatTimeout self.currentGateModeStamp ||
    isTimeout now param.dataHeartbeatTimeout self.autowareStateStamp ||
    isTimeout now param.dataHeartbeatTimeout self.controlModeStamp

def published (now : Time) (self : ErrorMonitor) : ErrorMonitor × List Output :=
  (self, publishHazardStatus now self.hazardStatus)

def modeOfGateMode (gateMode : GateMode) : KeyName :=
  if gateMode = .auto then .autonomousDriving else .externalControl

def onTimer (self : ErrorMonitor) (now : Time) : Except Error (ErrorMonitor × List Output) :=
  if !self.isDataReady then
    if param.dataReadyTimeout < seconds (now - self.initializedTime) then
      (self.updateTimeoutHazardStatus param now).map (published now)
    else
      .ok (self, [])
  else if self.isDataHeartbeatTimeout param now then
    (self.updateTimeoutHazardStatus param now).map (published now)
  else do
    let currentGateMode ← deref .currentGateMode self.currentGateMode
    let moded := { self with currentMode := some (modeOfGateMode currentGateMode) }
    (moded.updateHazardStatus param now).map (published now)

def diagBufferSize : Nat := 100

/-- Push a diagnostic into its buffer and pop from the front what is too much. -/
def bufferDiag (stamp : Time) (buffers : String → List DiagStamped)
    (diag : DiagnosticStatus) : String → List DiagStamped :=
  let buffer := buffers diag.name ++ [⟨stamp, diag⟩]
  Function.update buffers diag.name (buffer.drop (buffer.length - diagBufferSize))

def onDiagArray (now stamp : Time) (status : List DiagnosticStatus) : ErrorMonitor :=
  { self with
    diagArray := some status
    diagBufferMap := status.foldl (bufferDiag stamp) self.diagBufferMap
    diagArrayStamp := some now }

def onClearEmergencyService (self : ErrorMonitor) (now : Time) :
    Except Error ErrorMonitor :=
  (self.setEmergencyHolding false).updateHazardStatus param now

/-- The subscription, timer and service events of the node, each with the time
at which it is handled. -/
inductive Event where
  | diagArray (now stamp : Time) (status : List DiagnosticStatus)
  | currentGateMode (now : Time) (message : GateMode)
  | autowareState (now : Time) (message : AutowareState)
  | controlMode (now : Time) (message : ControlMode)
  | timer (now : Time)
  | clearEmergency (now : Time)
  deriving DecidableEq

def handle (self : ErrorMonitor) : Event → Except Error (ErrorMonitor × List Output)
  | .diagArray now stamp status => .ok (self.onDiagArray now stamp status, [])
  | .currentGateMode now message =>
    .ok ({ self with
      currentGateMode := some message
      currentGateModeStamp := some now }, [])
  | .autowareState now message =>
    .ok ({ self with
      autowareState := some message
      autowareStateStamp := some now }, [])
  | .controlMode now message =>
    .ok ({ self with
      controlMode := some message
      controlModeStamp := some now }, [])
  | .timer now => self.onTimer param now
  | .clearEmergency now =>
    (self.onClearEmergencyService param now).map fun cleared => (cleared, [])

def Step : ErrorMonitor → Event × List Output → ErrorMonitor → Prop :=
  OfPartial (handle param)

end ErrorMonitor

open Library.Fallible

namespace ErrorMonitor

/-! ## One module -/

def failureLevel (failureLevelStr : String) : Option Nat :=
  if failureLevelStr = "none" then none else (str2level failureLevelStr).toOption

def ValidLevel (failureLevelStr : String) : Prop :=
  failureLevelStr = "none" ∨ ∃ level, str2level failureLevelStr = .ok level

structure DiagConfig.Valid (requiredModule : DiagConfig) : Prop where
  sfAt : ValidLevel requiredModule.sfAt
  lfAt : ValidLevel requiredModule.lfAt
  spfAt : ValidLevel requiredModule.spfAt

def Over (diagLevel : Nat) (failureLevelStr : String) : Prop :=
  ∃ level ∈ failureLevel failureLevelStr, level ≤ diagLevel

instance (diagLevel : Nat) (failureLevelStr : String) :
    Decidable (Over diagLevel failureLevelStr) :=
  match hlevel : failureLevel failureLevelStr with
  | none => .isFalse fun ⟨level, hsome, _⟩ => by rw [hlevel] at hsome; cases hsome
  | some level =>
    if hle : level ≤ diagLevel then .isTrue ⟨level, hlevel, hle⟩
    else .isFalse fun ⟨other, hsome, hother⟩ => by
      rw [hlevel] at hsome
      cases hsome
      exact hle hother

/-- The highest of the three failure kinds whose level is reached. -/
def DiagConfig.hazardLevel (requiredModule : DiagConfig) (diagLevel : Nat) : Nat :=
  if Over diagLevel requiredModule.spfAt then HazardStatus.singlePointFault
  else if Over diagLevel requiredModule.lfAt then HazardStatus.latentFault
  else if Over diagLevel requiredModule.sfAt then HazardStatus.safeFault
  else HazardStatus.noFault

def TimedOut (param : Param) (now : Time) (diag : DiagStamped) : Prop :=
  param.diagTimeoutSec < seconds (now - diag.stamp)

instance (param : Param) (now : Time) (diag : DiagStamped) : Decidable (TimedOut param now diag) :=
  inferInstanceAs (Decidable (_ < _))

/-- The worse of the level of a diagnostic and `STALE`, if it is too old. -/
def effectiveLevel (param : Param) (now : Time) (diag : DiagStamped) : Nat :=
  if TimedOut param now diag then max diag.status.level DiagnosticStatus.stale
  else diag.status.level

def moduleLevel (param : Param) (self : ErrorMonitor) (now : Time)
    (requiredModule : DiagConfig) : Nat :=
  match self.getLatestDiag requiredModule.name with
  | none =>
    if param.ignoreMissingDiagnostics then HazardStatus.noFault
    else requiredModule.hazardLevel DiagnosticStatus.stale
  | some latestDiag => requiredModule.hazardLevel (effectiveLevel param now latestDiag)

theorem isOverLevel_eq {failureLevelStr : String} (hvalid : ValidLevel failureLevelStr)
    (diagLevel : Nat) :
    isOverLevel diagLevel failureLevelStr = .ok (decide (Over diagLevel failureLevelStr)) := by
  unfold isOverLevel
  split
  case isTrue hnone =>
    have hover : ¬ Over diagLevel failureLevelStr := by
      rintro ⟨level, hsome, _⟩
      rw [failureLevel, if_pos hnone] at hsome
      cases hsome
    rw [decide_eq_false hover]
  case isFalse hne =>
    obtain ⟨level, hlevel⟩ := hvalid.resolve_left hne
    have hfailure : failureLevel failureLevelStr = some level := by
      rw [failureLevel, if_neg hne, hlevel]
      rfl
    have hover : Over diagLevel failureLevelStr ↔ level ≤ diagLevel := by
      constructor
      · rintro ⟨other, hsome, hle⟩
        rw [hfailure] at hsome
        cases hsome
        exact hle
      · exact fun hle => ⟨level, hfailure, hle⟩
    rw [hlevel]
    exact congrArg Except.ok (decide_eq_decide.mpr hover.symm)

variable {requiredModule : DiagConfig}

theorem getHazardLevel_eq (hvalid : requiredModule.Valid) (diagLevel : Nat) :
    getHazardLevel requiredModule diagLevel = .ok (requiredModule.hazardLevel diagLevel) := by
  unfold getHazardLevel DiagConfig.hazardLevel
  rw [isOverLevel_eq hvalid.spfAt, isOverLevel_eq hvalid.lfAt, isOverLevel_eq hvalid.sfAt]
  simp only [bind, Except.bind, decide_eq_true_eq, pure, Except.pure]
  split_ifs <;> rfl

theorem Over.mono {failureLevelStr : String} {lower higher : Nat}
    (hover : Over lower failureLevelStr) (hle : lower ≤ higher) :
    Over higher failureLevelStr := by
  obtain ⟨level, hsome, hlevel⟩ := hover
  exact ⟨level, hsome, hlevel.trans hle⟩

theorem hazardLevel_mono (requiredModule : DiagConfig) : Monotone requiredModule.hazardLevel := by
  intro lower higher hle
  have hspf : Over lower requiredModule.spfAt → Over higher requiredModule.spfAt :=
    fun hover => hover.mono hle
  have hlf : Over lower requiredModule.lfAt → Over higher requiredModule.lfAt :=
    fun hover => hover.mono hle
  have hsf : Over lower requiredModule.sfAt → Over higher requiredModule.sfAt :=
    fun hover => hover.mono hle
  unfold DiagConfig.hazardLevel
  split_ifs <;> first
    | decide
    | exact absurd (hspf ‹_›) ‹_›
    | exact absurd (hlf ‹_›) ‹_›
    | exact absurd (hsf ‹_›) ‹_›

variable {param : Param} {now : Time}

theorem effectiveLevel_mono {diag other : DiagStamped}
    (hlevel : diag.status.level ≤ other.status.level)
    (hage : TimedOut param now diag → TimedOut param now other ∨
      DiagnosticStatus.stale ≤ other.status.level) :
    effectiveLevel param now diag ≤ effectiveLevel param now other := by
  have hself : other.status.level ≤ effectiveLevel param now other := by
    unfold effectiveLevel
    split_ifs
    · exact le_max_left _ _
    · exact le_rfl
  rw [effectiveLevel]
  split_ifs with hold
  · refine max_le (hlevel.trans hself) ?_
    rcases hage hold with hother | hstale
    · rw [effectiveLevel, if_pos hother]
      exact le_max_right _ _
    · exact hstale.trans hself
  · exact hlevel.trans hself

theorem TimedOut.of_le {diag other : DiagStamped}
    (htimedOut : TimedOut param now diag) (hstamp : other.stamp ≤ diag.stamp) :
    TimedOut param now other := by
  refine lt_of_lt_of_le htimedOut ?_
  unfold seconds
  have hle : ((now - diag.stamp : Int) : ℚ) ≤ ((now - other.stamp : Int) : ℚ) :=
    Rat.intCast_le_intCast.mpr (Int.sub_le_sub_left hstamp now)
  exact div_le_div_of_nonneg_right hle (by decide +kernel)

theorem appendTargetDiagnostics_level {hazardLevel : Nat}
    (hle : hazardLevel ≤ HazardStatus.singlePointFault) (diagnostics : List DiagnosticStatus)
    (status : HazardStatus) :
    Succeeds (appendTargetDiagnostics hazardLevel diagnostics status)
      fun appended => appended.level = status.level := by
  have hcases : hazardLevel = 0 ∨ hazardLevel = 1 ∨ hazardLevel = 2 ∨ hazardLevel = 3 := by
    unfold HazardStatus.singlePointFault at hle
    omega
  rcases hcases with rfl | rfl | rfl | rfl
  · exact .ok rfl
  · exact .ok rfl
  · exact .ok rfl
  · exact .ok rfl

theorem hazardLevel_le (requiredModule : DiagConfig) (diagLevel : Nat) :
    requiredModule.hazardLevel diagLevel ≤ HazardStatus.singlePointFault := by
  unfold DiagConfig.hazardLevel
  split_ifs <;> decide

variable {self : ErrorMonitor}

theorem appendHazardDiag_level
    (hdiagArray : param.addLeafDiagnostics = true → self.diagArray ≠ none)
    (hvalid : requiredModule.Valid) (hazardDiag : DiagnosticStatus) (status : HazardStatus) :
    Succeeds (self.appendHazardDiag param requiredModule hazardDiag status) fun appended =>
      appended.level = max status.level (requiredModule.hazardLevel hazardDiag.level) := by
  have hle := hazardLevel_le requiredModule hazardDiag.level
  refine Succeeds.bind_eq (getHazardLevel_eq hvalid hazardDiag.level) ?_
  refine (appendTargetDiagnostics_level hle [hazardDiag] status).bind fun appended happended => ?_
  dsimp only
  split_ifs with hadd
  · obtain ⟨diagArray, hsome⟩ := Option.ne_none_iff_exists'.mp (hdiagArray hadd)
    rw [hsome]
    refine Succeeds.bind_eq rfl ?_
    refine (appendTargetDiagnostics_level hle
      (DiagnosticsFilter.extractLeafChildrenDiagnostics hazardDiag diagArray) appended).bind ?_
    exact fun leafs hleafs => .ok (congrArg (max · _) (hleafs.trans happended))
  · exact .ok (congrArg (max · _) happended)

theorem judgeRequiredModule_level
    (hdiagArray : param.addLeafDiagnostics = true → self.diagArray ≠ none) (now : Time)
    (hvalid : requiredModule.Valid) (status : HazardStatus) :
    Succeeds (self.judgeRequiredModule param now status requiredModule) fun judged =>
      judged.level = max status.level (self.moduleLevel param now requiredModule) := by
  unfold judgeRequiredModule moduleLevel
  cases self.getLatestDiag requiredModule.name with
  | none =>
    dsimp only
    split_ifs
    · exact .ok (Nat.max_zero _).symm
    · exact appendHazardDiag_level hdiagArray hvalid _ status
  | some latestDiag =>
    refine (appendHazardDiag_level hdiagArray hvalid latestDiag.status status).bind ?_
    intro appended happended
    dsimp only
    by_cases htimedOut : TimedOut param now latestDiag
    · rw [effectiveLevel, if_pos htimedOut, if_pos (show param.diagTimeoutSec < _ from htimedOut)]
      refine (appendHazardDiag_level hdiagArray hvalid _ appended).mono fun judged hjudged => ?_
      rw [hjudged, happended, (hazardLevel_mono requiredModule).map_max, max_assoc]
    · rw [effectiveLevel, if_neg htimedOut, if_neg (show ¬ param.diagTimeoutSec < _ from htimedOut)]
      exact .ok happended

def worstLevel (param : Param) (self : ErrorMonitor) (now : Time)
    (modules : List DiagConfig) : Nat :=
  (modules.map (self.moduleLevel param now)).foldr max HazardStatus.noFault

theorem judgeRequiredModules_level
    (hdiagArray : param.addLeafDiagnostics = true → self.diagArray ≠ none) (now : Time)
    {modules : List DiagConfig} (hvalid : ∀ requiredModule ∈ modules, requiredModule.Valid)
    (status : HazardStatus) :
    Succeeds (modules.foldlM (self.judgeRequiredModule param now) status) fun judged =>
      judged.level = max status.level (self.worstLevel param now modules) := by
  induction modules generalizing status with
  | nil => exact .ok (Nat.max_zero _).symm
  | cons first rest ih =>
    rw [List.foldlM_cons]
    have hfirst := judgeRequiredModule_level hdiagArray now
      (hvalid first (List.mem_cons_self ..)) status
    refine hfirst.bind fun middle hmiddle => ?_
    refine (ih (fun requiredModule hmem => hvalid requiredModule (List.mem_cons_of_mem _ hmem))
      middle).mono fun judged hjudged => ?_
    rw [hjudged, hmiddle, max_assoc]
    rfl

theorem worstLevel_mono {self other : ErrorMonitor}
    (hmodule : ∀ requiredModule, self.moduleLevel param now requiredModule ≤
      other.moduleLevel param now requiredModule) (modules : List DiagConfig) :
    self.worstLevel param now modules ≤ other.worstLevel param now modules := by
  induction modules with
  | nil => exact le_rfl
  | cons first rest ih => exact max_le_max (hmodule first) ih

/-! ## The status -/

/-- What the node has when it judges: a mode, both states, and a diagnostics message if its
leafs are added.  The level strings of the modules are valid. -/
structure Judges (param : Param) (monitor : ErrorMonitor) (mode : KeyName) (state : AutowareState)
    (gateMode : GateMode) : Prop where
  currentMode : monitor.currentMode = some mode
  autowareState : monitor.autowareState = some state
  currentGateMode : monitor.currentGateMode = some gateMode
  diagArray : param.addLeafDiagnostics = true → monitor.diagArray ≠ none
  valid : ∀ requiredModule ∈ param.requiredModulesMap mode, requiredModule.Valid

def judgedLevel (param : Param) (self : ErrorMonitor) (now : Time) (mode : KeyName)
    (state : AutowareState) (gateMode : GateMode) : Nat :=
  if isInNoFaultCondition state gateMode then HazardStatus.noFault
  else self.worstLevel param now (param.requiredModulesMap mode)

theorem Judges.level {mode : KeyName} {state : AutowareState} {gateMode : GateMode}
    (hjudges : self.Judges param mode state gateMode) (now : Time) :
    Succeeds (self.judgeHazardStatus param now) fun status =>
      status.level = self.judgedLevel param now mode state gateMode := by
  have hmodules : self.requiredModules param = .ok (param.requiredModulesMap mode) := by
    rw [requiredModules, hjudges.currentMode]
  refine Succeeds.bind_eq hmodules ?_
  refine (judgeRequiredModules_level hjudges.diagArray now hjudges.valid .empty).bind ?_
  intro status hstatus
  rw [hjudges.autowareState, hjudges.currentGateMode]
  change Succeeds (if isInNoFaultCondition state gateMode = true then
    .ok { status with level := HazardStatus.noFault } else .ok status) _
  unfold judgedLevel
  split_ifs
  · exact .ok rfl
  · exact .ok (hstatus.trans (Nat.zero_max _))

def replaceLatest (self : ErrorMonitor) (name : String) (diag : DiagStamped) : ErrorMonitor :=
  { self with
    diagBufferMap := Function.update self.diagBufferMap name
      ((self.diagBufferMap name).dropLast ++ [diag]) }

theorem getLatestDiag_replaceLatest (self : ErrorMonitor) (name other : String) (diag : DiagStamped) :
    (self.replaceLatest name diag).getLatestDiag other =
      if other = name then some diag else self.getLatestDiag other := by
  unfold getLatestDiag replaceLatest
  dsimp only
  split_ifs with heq
  · rw [heq, Function.update_self, List.getLast?_append, List.getLast?_singleton]
    rfl
  · rw [Function.update_of_ne heq]

theorem moduleLevel_replaceLatest
    {name : String} {latest diag : DiagStamped} (hlatest : self.getLatestDiag name = some latest)
    (hle : effectiveLevel param now latest ≤ effectiveLevel param now diag)
    (requiredModule : DiagConfig) :
    self.moduleLevel param now requiredModule ≤
      (self.replaceLatest name diag).moduleLevel param now requiredModule := by
  unfold moduleLevel
  rw [getLatestDiag_replaceLatest]
  by_cases heq : requiredModule.name = name
  · rw [if_pos heq, heq, hlatest]
    exact hazardLevel_mono requiredModule hle
  · rw [if_neg heq]

/-- The level that is judged is the maximum over the required modules, and none in the ignore
conditions.  It does not fall if the latest diagnostic of a name is replaced by one with a
higher level, unless that one ends a timeout below `STALE`, or by the same with an older
stamp. -/
theorem judgeHazardStatus_level {param : Param} {self : ErrorMonitor} {mode : KeyName}
    {state : AutowareState} {gateMode : GateMode} (hjudges : self.Judges param mode state gateMode)
    (now : Time) :
    Succeeds (self.judgeHazardStatus param now) fun status =>
      status.level = self.judgedLevel param now mode state gateMode ∧
        ∀ name latest diag, self.getLatestDiag name = some latest →
          (latest.status.level ≤ diag.status.level ∧
              (TimedOut param now latest → TimedOut param now diag ∨
                DiagnosticStatus.stale ≤ diag.status.level) ∨
            diag.status = latest.status ∧ diag.stamp ≤ latest.stamp) →
          Succeeds ((self.replaceLatest name diag).judgeHazardStatus param now) fun replaced =>
            status.level ≤ replaced.level := by
  refine (hjudges.level now).mono fun status hstatus => ⟨hstatus, ?_⟩
  intro name latest diag hlatest hworse
  have hle : effectiveLevel param now latest ≤ effectiveLevel param now diag := by
    rcases hworse with ⟨hlevel, hage⟩ | ⟨hsame, hstamp⟩
    · exact effectiveLevel_mono hlevel hage
    · exact effectiveLevel_mono (by rw [hsame]) fun htimedOut => .inl (htimedOut.of_le hstamp)
  have hreplaced : (self.replaceLatest name diag).Judges param mode state gateMode :=
    ⟨hjudges.currentMode, hjudges.autowareState, hjudges.currentGateMode, hjudges.diagArray,
      hjudges.valid⟩
  refine (hreplaced.level now).mono fun replaced hlevel => ?_
  rw [hstatus, hlevel]
  unfold judgedLevel
  split_ifs
  · exact le_rfl
  · exact worstLevel_mono (moduleLevel_replaceLatest hlatest hle) _

/-- One required module, for which only a stale diagnostic is a failure. -/
def staleParam : Param where
  ignoreMissingDiagnostics := false
  addLeafDiagnostics := false
  dataReadyTimeout := 30
  dataHeartbeatTimeout := 1
  diagTimeoutSec := 1
  hazardRecoveryTimeout := 5
  emergencyHazardLevel := 2
  useEmergencyHold := false
  useEmergencyHoldInManualDriving := false
  requiredModulesMap := fun _ => [⟨"/vehicle", "none", "none", "stale", true⟩]

def drivingMonitor (diag : DiagStamped) : ErrorMonitor :=
  { initial 0 with
    currentMode := some .autonomousDriving
    autowareState := some .driving
    currentGateMode := some .auto
    diagBufferMap := fun _ => [diag] }

theorem drivingMonitor_judges (diag : DiagStamped) :
    (drivingMonitor diag).Judges staleParam .autonomousDriving .driving .auto where
  currentMode := rfl
  autowareState := rfl
  currentGateMode := rfl
  diagArray := fun hadd => by cases hadd
  valid := by
    intro requiredModule hmem
    obtain rfl := List.mem_singleton.mp hmem
    exact ⟨.inl rfl, .inl rfl, .inr ⟨DiagnosticStatus.stale, by decide +kernel⟩⟩

/-- A warning that has timed out is replaced by an error that has not. -/
theorem replaceLatest_lowers :
    let warning : DiagStamped := ⟨0, ⟨DiagnosticStatus.warn, "/vehicle", "", ""⟩⟩
    let failure : DiagStamped := ⟨2000000000, ⟨DiagnosticStatus.error, "/vehicle", "", ""⟩⟩
    let self := drivingMonitor warning
    let replaced := self.replaceLatest "/vehicle" failure
    self.Judges staleParam .autonomousDriving .driving .auto ∧
      self.getLatestDiag "/vehicle" = some warning ∧
      warning.status.level < failure.status.level ∧
      Succeeds (self.judgeHazardStatus staleParam 2000000000) (fun status =>
        status.level = HazardStatus.singlePointFault) ∧
      Succeeds (replaced.judgeHazardStatus staleParam 2000000000) fun status =>
        status.level = HazardStatus.noFault := by
  intro warning failure self replaced
  have hself := drivingMonitor_judges warning
  have hreplaced : replaced.Judges staleParam .autonomousDriving .driving .auto :=
    ⟨hself.currentMode, hself.autowareState, hself.currentGateMode, hself.diagArray, hself.valid⟩
  refine ⟨hself, rfl, by decide, ?_, ?_⟩
  · exact (hself.level 2000000000).mono fun status hlevel => hlevel.trans (by decide +kernel)
  · exact (hreplaced.level 2000000000).mono fun status hlevel => hlevel.trans (by decide +kernel)

/-- A warning that has timed out counts as stale, and with any older stamp too. -/
theorem drivingMonitor_level :
    let warning : DiagStamped := ⟨0, ⟨DiagnosticStatus.warn, "/vehicle", "", ""⟩⟩
    let self := drivingMonitor warning
    Succeeds (self.judgeHazardStatus staleParam 2000000000) fun status =>
      status.level = HazardStatus.singlePointFault ∧
        Succeeds ((self.replaceLatest "/vehicle" { warning with stamp := -1 }).judgeHazardStatus
          staleParam 2000000000) fun replaced => status.level ≤ replaced.level := by
  intro warning self
  refine (judgeHazardStatus_level (drivingMonitor_judges warning) 2000000000).mono ?_
  rintro status ⟨hlevel, hreplaced⟩
  exact ⟨hlevel.trans (by decide +kernel),
    hreplaced "/vehicle" warning _ rfl (.inr ⟨rfl, by decide⟩)⟩

end ErrorMonitor

end AutowareUniverse.System

/-!
## The emergency hold

A status that is published as held is latched until an operator clears it, as
far as the two update paths agree: the normal path keeps a hold, but recomputes
the emergency from the level, and the timeout path keeps the emergency, but
recomputes the hold from the time since the emergency was switched.
-/

namespace AutowareUniverse.System.ErrorMonitor

open Library.Fallible Library.Runs Messages

/-! ## The two update paths -/

def inputTimesOut (param : Param) (self : ErrorMonitor) (now : Time) : Bool :=
  if self.isDataReady then self.isDataHeartbeatTimeout param now
  else decide (param.dataReadyTimeout < seconds (now - self.initializedTime))

variable {param : Param} {now : Time} {outputs : List Output}

theorem onTimer_cases {self after : ErrorMonitor}
    (htimer : self.onTimer param now = .ok (after, outputs)) :
    (self.isDataReady = false ∧ self.inputTimesOut param now = false ∧
        after = self ∧ outputs = []) ∨
      (self.inputTimesOut param now = true ∧ self.updateTimeoutHazardStatus param now = .ok after ∧
        outputs = publishHazardStatus now after.hazardStatus) ∨
      (self.isDataReady = true ∧ self.inputTimesOut param now = false ∧
        (∃ mode, ({ self with currentMode := some mode }).updateHazardStatus param now =
          .ok after) ∧
        outputs = publishHazardStatus now after.hazardStatus) := by
  unfold onTimer at htimer
  unfold inputTimesOut
  cases hready : self.isDataReady with
  | false =>
    rw [hready] at htimer
    by_cases htimeout : param.dataReadyTimeout < seconds (now - self.initializedTime)
    · simp only [htimeout, Bool.not_false, if_true] at htimer
      obtain ⟨updated, hupdated, hpublished⟩ := map_eq_ok.mp htimer
      cases hpublished
      exact .inr (.inl ⟨by simpa using htimeout, hupdated, rfl⟩)
    · simp only [htimeout, Bool.not_false, if_true, if_false] at htimer
      cases htimer
      exact .inl ⟨rfl, by simpa using htimeout, rfl, rfl⟩
  | true =>
    rw [hready] at htimer
    cases hheartbeat : self.isDataHeartbeatTimeout param now with
    | true =>
      simp only [hheartbeat, Bool.not_true, Bool.false_eq_true, if_false, if_true] at htimer
      obtain ⟨updated, hupdated, hpublished⟩ := map_eq_ok.mp htimer
      cases hpublished
      exact .inr (.inl ⟨by simp, hupdated, rfl⟩)
    | false =>
      simp only [hheartbeat, Bool.not_true, Bool.false_eq_true, if_false] at htimer
      obtain ⟨gateMode, _, hupdate⟩ := bind_eq_ok.mp htimer
      obtain ⟨updated, hupdated, hpublished⟩ := map_eq_ok.mp hupdate
      cases hpublished
      exact .inr (.inr ⟨rfl, by simp, ⟨_, hupdated⟩, rfl⟩)

def SwitchTimed (self : ErrorMonitor) : Prop :=
  self.hazardStatus.emergency = true → ∃ switchTime, self.emergencyStateSwitchTime = some switchTime

variable {self : ErrorMonitor}

theorem switchTimed_setHazardStatus (htimed : self.SwitchTimed) (now : Time) (status : HazardStatus) :
    (self.setHazardStatus now status).SwitchTimed := by
  intro hemergency
  unfold setHazardStatus at hemergency ⊢
  dsimp only at hemergency ⊢
  by_cases hswitched : status.emergency ≠ self.hazardStatus.emergency
  · exact ⟨now, if_pos hswitched⟩
  · rw [if_neg hswitched]
    rw [not_ne_iff] at hswitched
    exact htimed (hswitched ▸ hemergency)

theorem updateTimeoutHazardStatus_spec (huse : param.useEmergencyHold = true)
    {self after : ErrorMonitor} (hupdate : self.updateTimeoutHazardStatus param now = .ok after) :
    after.hazardStatus.emergency = true ∧ (self.SwitchTimed → after.SwitchTimed) ∧
      (self.hazardStatus.emergency = true →
        ∀ switchTime, self.emergencyStateSwitchTime = some switchTime →
          after.hazardStatus.emergencyHolding =
            decide (param.hazardRecoveryTimeout < seconds (now - switchTime))) := by
  unfold updateTimeoutHazardStatus at hupdate
  simp only [huse, if_true] at hupdate
  obtain ⟨duration, hduration, hreturn⟩ := bind_eq_ok.mp hupdate
  cases hreturn
  refine ⟨rfl, fun htimed => ?_, fun hemergency switchTime hswitch => ?_⟩
  · exact switchTimed_setHazardStatus htimed now _
  · have hkept : (self.setHazardStatus now
        { self.hazardStatus with
          level := HazardStatus.singlePointFault
          emergency := true
          diagNoFault := []
          diagSafeFault := []
          diagLatentFault := []
          diagSinglePointFault := [inputDataTimeoutDiag] }).emergencyStateSwitchTime =
        some switchTime := by
      simp [setHazardStatus, hemergency, hswitch]
    rw [emergencyDuration, hkept] at hduration
    cases hduration
    rfl

theorem isEmergencyHoldingRequired_of_holding (param : Param)
    (hholding : self.hazardStatus.emergencyHolding = true) (now : Time) :
    self.isEmergencyHoldingRequired param now = .ok true := by
  unfold isEmergencyHoldingRequired
  rw [hholding]
  rfl

theorem emergency_of_isEmergencyHoldingRequired
    (hrequired : self.isEmergencyHoldingRequired param now = .ok true)
    (hholding : self.hazardStatus.emergencyHolding = false) :
    self.hazardStatus.emergency = true := by
  unfold isEmergencyHoldingRequired at hrequired
  rw [hholding] at hrequired
  cases hemergency : self.hazardStatus.emergency with
  | true => rfl
  | false =>
    rw [hemergency] at hrequired
    cases hrequired

theorem updateLevel_emergencyHolding
    {status : HazardStatus} (hlevel : self.updateLevel param now = .ok status) :
    status.emergencyHolding = self.hazardStatus.emergencyHolding := by
  unfold updateLevel at hlevel
  split at hlevel
  · obtain ⟨current, _, hreturn⟩ := bind_eq_ok.mp hlevel
    cases hreturn
    rfl
  · cases hlevel
    rfl

/-- The normal path keeps a hold with its level and recomputes the emergency. -/
theorem updateHazardStatus_spec (huse : param.useEmergencyHold = true) {self after : ErrorMonitor}
    (hupdate : self.updateHazardStatus param now = .ok after) :
    (self.SwitchTimed → after.SwitchTimed) ∧ after.hazardStatus.emergency =
        decide (param.emergencyHazardLevel ≤ after.hazardStatus.level) ∧
      (self.hazardStatus.emergencyHolding = false → after.hazardStatus.emergencyHolding = true →
        after.hazardStatus.emergency = true) ∧
      (self.hazardStatus.emergencyHolding = true → after.hazardStatus.emergencyHolding = true ∧
        after.hazardStatus.level = self.hazardStatus.level) := by
  unfold updateHazardStatus at hupdate
  obtain ⟨status, hlevel, hrest⟩ := bind_eq_ok.mp hupdate
  simp only [huse, if_true] at hrest
  obtain ⟨holding, hholding, hreturn⟩ := bind_eq_ok.mp hrest
  cases hreturn
  have hbefore := updateLevel_emergencyHolding hlevel
  refine ⟨fun htimed => ?_, rfl, fun hnot hafter => ?_, fun hheld => ?_⟩
  · exact switchTimed_setHazardStatus htimed now _
  · have hrequired : holding = true := hafter
    subst hrequired
    have hemergency := emergency_of_isEmergencyHoldingRequired hholding (hbefore.trans hnot)
    exact hemergency
  · rw [updateLevel, hheld] at hlevel
    cases hlevel
    have hkept : (self.setHazardStatus now
        { self.hazardStatus with
          emergency := decide (param.emergencyHazardLevel ≤ self.hazardStatus.level)
          }).hazardStatus.emergencyHolding = true := hheld
    rw [isEmergencyHoldingRequired_of_holding param hkept now] at hholding
    cases hholding
    exact ⟨rfl, rfl⟩

/-! ## Latching -/

def Output.holds : Output → Bool
  | .hazardStatus _ status => status.emergencyHolding
  | .diagnosticsErr _ _ => false

/-- Whether a held status was published since the last clear request. -/
def holdPublished (held : Bool) (label : Event × List Output) : Bool :=
  match label.1 with
  | .clearEmergency _ => false
  | _ => held || label.2.any Output.holds

def PublishesHeld (label : Event × List Output) : Prop :=
  ∀ stamp status, Output.hazardStatus stamp status ∈ label.2 →
    status.emergencyHolding = true ∧ status.emergency = true

/-- Once a held status is published, every later one is held and an emergency,
until a clear request. -/
def LatchesHold : Bool → List (Event × List Output) → Prop
  | _, [] => True
  | held, label :: labels =>
    (held = true → PublishesHeld label) ∧ LatchesHold (holdPublished held label) labels

def Output.isHeld : Output → Bool
  | .hazardStatus _ status => status.emergencyHolding && status.emergency
  | .diagnosticsErr _ _ => true

theorem publishesHeld_iff (label : Event × List Output) :
    PublishesHeld label ↔ ∀ output ∈ label.2, output.isHeld = true := by
  constructor
  · intro hpublishes output hmem
    cases output with
    | hazardStatus stamp status =>
      simpa [Output.isHeld] using hpublishes stamp status hmem
    | diagnosticsErr stamp status => rfl
  · intro hheld stamp status hmem
    simpa [Output.isHeld] using hheld _ hmem

instance (label : Event × List Output) : Decidable (PublishesHeld label) :=
  decidable_of_iff _ (publishesHeld_iff label).symm

instance decidableLatchesHold (held : Bool) :
    (labels : List (Event × List Output)) → Decidable (LatchesHold held labels)
  | [] => inferInstanceAs (Decidable True)
  | label :: labels =>
    have := decidableLatchesHold (holdPublished held label) labels
    inferInstanceAs (Decidable ((held = true → PublishesHeld label) ∧ _))

/-- The steps of the node, beside whether it has published a hold. -/
def MonitoredStep (param : Param) (before : ErrorMonitor × Bool)
    (label : Event × List Output) (after : ErrorMonitor × Bool) : Prop :=
  Step param before.1 label after.1 ∧ after.2 = holdPublished before.2 label

theorem monitoredStep_deterministic :
    Deterministic (MonitoredStep param) := by
  rintro before label ⟨self, held⟩ ⟨self', held'⟩ ⟨hhandle, hheld⟩ ⟨hhandle', hheld'⟩
  have hself : self = self' := OfPartial.deterministic _ hhandle hhandle'
  have hsame : held = held' := hheld.trans hheld'.symm
  rw [hself, hsame]

/-- After a hold was published, a timeout is reported only when the emergency has
lasted longer than the recovery timeout, and the diagnostics are judged only
when the level that was held is an emergency. -/
def KeepsHold (param : Param) (before : ErrorMonitor × Bool)
    (label : Event × List Output) (_after : ErrorMonitor × Bool) : Prop :=
  ∀ now, label.1 = .timer now → before.2 = true →
    if before.1.inputTimesOut param now then
      ∀ switchTime, before.1.emergencyStateSwitchTime = some switchTime →
        param.hazardRecoveryTimeout < seconds (now - switchTime)
    else
      before.1.isDataReady = true → param.emergencyHazardLevel ≤ before.1.hazardStatus.level

/-- What holds between two events: a published hold is still in force, and one
that only a clear request has left is at an emergency level. -/
structure Held (param : Param) (state : ErrorMonitor × Bool) : Prop where
  switchTimed : state.1.SwitchTimed
  holding : state.2 = true → state.1.hazardStatus.emergencyHolding = true
  emergency : state.2 = true → state.1.hazardStatus.emergency = true
  unpublished : state.2 = false → state.1.hazardStatus.emergencyHolding = true →
    param.emergencyHazardLevel ≤ state.1.hazardStatus.level

theorem publishesHeld_publishHazardStatus_iff {event : Event} {status : HazardStatus} :
    PublishesHeld (event, publishHazardStatus now status) ↔
      status.emergencyHolding = true ∧ status.emergency = true := by
  rw [publishesHeld_iff]
  simp [publishHazardStatus, Output.isHeld]

@[simp]
theorem any_holds_publishHazardStatus (now : Time) (status : HazardStatus) :
    (publishHazardStatus now status).any Output.holds = status.emergencyHolding := by
  simp [publishHazardStatus, Output.holds]

theorem handle_message {self after : ErrorMonitor} {event : Event}
    (hhandle : self.handle param event = .ok (after, outputs))
    (htimer : ∀ now, event ≠ .timer now) (hclear : ∀ now, event ≠ .clearEmergency now) :
    after.hazardStatus = self.hazardStatus ∧
      after.emergencyStateSwitchTime = self.emergencyStateSwitchTime ∧ outputs = [] := by
  cases event with
  | diagArray now stamp status => cases hhandle; exact ⟨rfl, rfl, rfl⟩
  | currentGateMode now message => cases hhandle; exact ⟨rfl, rfl, rfl⟩
  | autowareState now message => cases hhandle; exact ⟨rfl, rfl, rfl⟩
  | controlMode now message => cases hhandle; exact ⟨rfl, rfl, rfl⟩
  | timer now => exact absurd rfl (htimer now)
  | clearEmergency now => exact absurd rfl (hclear now)

variable {before after : ErrorMonitor × Bool}

/-- A step that publishes nothing and does not clear keeps what holds. -/
theorem Held.silent {event : Event} (hheld : Held param before)
    (hclear : ∀ now, event ≠ .clearEmergency now)
    (hstatus : after.1.hazardStatus = before.1.hazardStatus)
    (hswitch : after.1.emergencyStateSwitchTime = before.1.emergencyStateSwitchTime)
    (hafter : after.2 = holdPublished before.2 (event, [])) : Held param after := by
  have hsame : after.2 = before.2 := by
    rw [hafter, holdPublished]
    cases event with
    | clearEmergency now => exact absurd rfl (hclear now)
    | _ => simp
  refine ⟨?_, ?_, ?_, ?_⟩
  · rw [SwitchTimed, hstatus, hswitch]
    exact hheld.switchTimed
  · rw [hsame, hstatus]
    exact hheld.holding
  · rw [hsame, hstatus]
    exact hheld.emergency
  · rw [hsame, hstatus]
    exact hheld.unpublished

theorem Held.publishing
    (hafter : after.2 = holdPublished before.2
      (.timer now, publishHazardStatus now after.1.hazardStatus))
    (htimed : after.1.SwitchTimed)
    (hkept : before.2 = true → after.1.hazardStatus.emergencyHolding = true ∧
      after.1.hazardStatus.emergency = true)
    (hnew : before.2 = false → after.1.hazardStatus.emergencyHolding = true →
      after.1.hazardStatus.emergency = true) : Held param after := by
  have hpublished : after.2 = (before.2 || after.1.hazardStatus.emergencyHolding) := by
    rw [hafter, holdPublished]
    simp
  cases hbefore : before.2 with
  | true =>
    obtain ⟨hholding, hemergency⟩ := hkept hbefore
    refine ⟨htimed, fun _ => hholding, fun _ => hemergency, fun hnot => ?_⟩
    rw [hpublished, hbefore] at hnot
    cases hnot
  | false =>
    rw [hbefore, Bool.false_or] at hpublished
    refine ⟨htimed, fun htrue => ?_, fun htrue => ?_, fun hnot hholding => ?_⟩
    · exact hpublished ▸ htrue
    · exact hnew hbefore (hpublished ▸ htrue)
    · rw [hpublished, hholding] at hnot
      cases hnot

theorem keepsHold_iff_of_timer (huse : param.useEmergencyHold = true) (hheld : Held param before)
    (hstep : MonitoredStep param before (.timer now, outputs) after) :
    ((before.2 = true → PublishesHeld (.timer now, outputs)) ↔
        KeepsHold param before (.timer now, outputs) after) ∧
      (KeepsHold param before (.timer now, outputs) after → Held param after) := by
  obtain ⟨hhandle, hafter⟩ := hstep
  have htick : KeepsHold param before (.timer now, outputs) after ↔ (before.2 = true →
        if before.1.inputTimesOut param now then
          ∀ switchTime, before.1.emergencyStateSwitchTime = some switchTime →
            param.hazardRecoveryTimeout < seconds (now - switchTime)
        else
          before.1.isDataReady = true →
            param.emergencyHazardLevel ≤ before.1.hazardStatus.level) := by
    refine ⟨fun hkeeps => hkeeps now rfl, fun hkeeps other hother => ?_⟩
    cases hother
    exact hkeeps
  rw [htick]
  rcases onTimer_cases hhandle with ⟨hready, htimeout, hsame, houtputs⟩ |
      ⟨htimeout, hupdate, houtputs⟩ | ⟨hready, htimeout, ⟨mode, hupdate⟩, houtputs⟩
  · -- waiting for data: nothing is published
    subst houtputs
    refine ⟨?_, fun _ => ?_⟩
    · simp [htimeout, hready, PublishesHeld]
    · have hclear : ∀ clearNow, Event.timer now ≠ .clearEmergency clearNow := by
        intro clearNow heq
        cases heq
      exact hheld.silent hclear (by rw [hsame]) (by rw [hsame]) hafter
  · -- the timeout path recomputes the hold
    subst houtputs
    obtain ⟨hemergency, htimed, hrecomputed⟩ := updateTimeoutHazardStatus_spec huse hupdate
    have hiff : (before.2 = true → after.1.hazardStatus.emergencyHolding = true ∧
        after.1.hazardStatus.emergency = true) ↔
        (before.2 = true → ∀ switchTime, before.1.emergencyStateSwitchTime = some switchTime →
            param.hazardRecoveryTimeout < seconds (now - switchTime)) := by
      refine imp_congr_right fun hpublished => ?_
      have hbefore := hheld.emergency hpublished
      obtain ⟨switchTime, hswitch⟩ := hheld.switchTimed hbefore
      rw [hrecomputed hbefore switchTime hswitch]
      simp [hemergency, hswitch]
    rw [publishesHeld_publishHazardStatus_iff]
    simp only [htimeout, if_true]
    exact ⟨hiff, fun hkeeps => Held.publishing hafter (htimed hheld.switchTimed)
      (hiff.mpr hkeeps) fun _ _ => hemergency⟩
  · -- the normal path recomputes the emergency
    subst houtputs
    obtain ⟨htimed, hemergency, hnew, hkept⟩ := updateHazardStatus_spec huse hupdate
    have hiff : (before.2 = true → after.1.hazardStatus.emergencyHolding = true ∧
        after.1.hazardStatus.emergency = true) ↔
        (before.2 = true → before.1.isDataReady = true →
          param.emergencyHazardLevel ≤ before.1.hazardStatus.level) := by
      refine imp_congr_right fun hpublished => ?_
      obtain ⟨hholding, hlevel⟩ := hkept (hheld.holding hpublished)
      rw [hholding, hemergency, hlevel]
      simp [hready]
    rw [publishesHeld_publishHazardStatus_iff]
    simp only [htimeout, Bool.false_eq_true, if_false]
    refine ⟨hiff, fun hkeeps => Held.publishing hafter (htimed hheld.switchTimed)
      (hiff.mpr hkeeps) fun hbefore hholding => ?_⟩
    cases hhold : before.1.hazardStatus.emergencyHolding with
    | false => exact hnew hhold hholding
    | true =>
      rw [hemergency, (hkept hhold).2]
      exact decide_eq_true (hheld.unpublished hbefore hhold)

theorem held_of_clearEmergency (huse : param.useEmergencyHold = true) (hheld : Held param before)
    (hstep : MonitoredStep param before (.clearEmergency now, outputs) after) :
    Held param after ∧ outputs = [] := by
  obtain ⟨hhandle, hafter⟩ := hstep
  obtain ⟨cleared, hcleared, hreturn⟩ := map_eq_ok.mp hhandle
  obtain ⟨rfl, rfl⟩ := Prod.mk.inj hreturn
  obtain ⟨htimed, hemergency, hnew, _⟩ := updateHazardStatus_spec huse hcleared
  refine ⟨⟨htimed hheld.switchTimed, fun htrue => ?_, fun htrue => ?_, fun _ hholding => ?_⟩, rfl⟩
  · rw [hafter] at htrue
    cases htrue
  · rw [hafter] at htrue
    cases htrue
  · have hnecessary := hnew rfl hholding
    rw [hemergency] at hnecessary
    exact of_decide_eq_true hnecessary

theorem keepsHold_iff_of_step (huse : param.useEmergencyHold = true) {label : Event × List Output}
    (hheld : Held param before) (hstep : MonitoredStep param before label after) :
    ((before.2 = true → PublishesHeld label) ↔ KeepsHold param before label after) ∧
      (KeepsHold param before label after → Held param after) := by
  obtain ⟨event, outputs⟩ := label
  by_cases htimer : ∃ now, event = .timer now
  · obtain ⟨now, rfl⟩ := htimer
    exact keepsHold_iff_of_timer huse hheld hstep
  · have hno : ∀ now, event ≠ .timer now := fun now heq => htimer ⟨now, heq⟩
    have hkeeps : KeepsHold param before (event, outputs) after :=
      fun now heq => absurd heq (hno now)
    have hsilent : Held param after ∧ outputs = [] := by
      by_cases hclear : ∃ now, event = .clearEmergency now
      · obtain ⟨now, rfl⟩ := hclear
        exact held_of_clearEmergency huse hheld hstep
      · have hnot : ∀ now, event ≠ .clearEmergency now :=
          fun now heq => hclear ⟨now, heq⟩
        obtain ⟨hstatus, hswitch, houtputs⟩ := handle_message hstep.1 hno hnot
        have houtputs : outputs = [] := houtputs
        subst houtputs
        exact ⟨hheld.silent hnot hstatus hswitch hstep.2, rfl⟩
    refine ⟨iff_of_true (fun _ stamp status hmem => ?_) hkeeps, fun _ => hsilent.1⟩
    rw [hsilent.2] at hmem
    cases hmem

variable {labels : List (Event × List Output)}

theorem latchesHold_iff (huse : param.useEmergencyHold = true) {first last : ErrorMonitor × Bool}
    (hheld : Held param first) (hrun : Run (MonitoredStep param) first labels last) :
    LatchesHold first.2 labels ↔
      Run (Guarded (MonitoredStep param) (KeepsHold param)) first labels last := by
  induction hrun with
  | nil state => exact ⟨fun _ => .nil state, fun _ => trivial⟩
  | cons hstep _ ih =>
    obtain ⟨hiff, hafter⟩ := keepsHold_iff_of_step huse hheld hstep
    constructor
    · rintro ⟨hpublishes, hlatches⟩
      have hkeeps := hiff.mp hpublishes
      rw [← hstep.2] at hlatches
      exact .cons ⟨hstep, hkeeps⟩ ((ih (hafter hkeeps)).mp hlatches)
    · intro hguarded
      cases hguarded with
      | cons hguardedStep hrest =>
        obtain ⟨hstep', hkeeps⟩ := hguardedStep
        rw [monitoredStep_deterministic hstep' hstep] at hkeeps hrest
        refine ⟨hiff.mpr hkeeps, ?_⟩
        rw [← hstep.2]
        exact (ih (hafter hkeeps)).mpr hrest

theorem held_initial (param : Param) (start : Time) :
    Held param (initial start, false) where
  switchTimed := fun hemergency => by cases hemergency
  holding := fun htrue => by cases htrue
  emergency := fun htrue => by cases htrue
  unpublished := fun _ hholding => by cases hholding

/-- In a run from the start, published holds are latched if and only if, after a
published hold, the timeout path is taken only when the emergency has lasted
longer than the recovery timeout, and the normal path only when the held level
is an emergency. -/
theorem published_hold_latches_iff (param : Param) (huse : param.useEmergencyHold = true)
    (start : Time) {last : ErrorMonitor × Bool} {labels : List (Event × List Output)}
    (hrun : Run (MonitoredStep param) (initial start, false) labels last) :
    LatchesHold false labels ↔
      Run (Guarded (MonitoredStep param) (KeepsHold param)) (initial start, false)
        labels last :=
  latchesHold_iff huse (held_initial param start) hrun

theorem exists_monitored_run {first last : ErrorMonitor} (hrun : Run (Step param) first labels last)
    (held : Bool) :
    ∃ held', Run (MonitoredStep param) (first, held) labels (last, held') := by
  induction hrun generalizing held with
  | nil state => exact ⟨held, .nil _⟩
  | cons hstep _ ih =>
    obtain ⟨held', hrest⟩ := ih (holdPublished held _)
    exact ⟨held', .cons ⟨hstep, rfl⟩ hrest⟩

/-! ## A hold that a short input timeout drops -/

/-- One required module whose errors do not recover on their own. -/
def holdParam : Param where
  ignoreMissingDiagnostics := false
  addLeafDiagnostics := true
  dataReadyTimeout := 30
  dataHeartbeatTimeout := 1
  diagTimeoutSec := 1
  hazardRecoveryTimeout := 5
  emergencyHazardLevel := HazardStatus.latentFault
  useEmergencyHold := true
  useEmergencyHoldInManualDriving := false
  requiredModulesMap := fun _ => [⟨"/vehicle", "none", "warn", "error", false⟩]

def vehicleError : DiagnosticStatus :=
  ⟨DiagnosticStatus.error, "/vehicle", "broken", "vehicle"⟩

/-- An error while driving that is held at once, and its recovery. -/
def heldEvents : List Event :=
  [.currentGateMode 0 .auto, .autowareState 0 .driving, .controlMode 0 .autonomous,
    .diagArray 0 0 [vehicleError], .timer 100000000,
    .diagArray 200000000 200000000 [{ vehicleError with level := DiagnosticStatus.ok }],
    .timer 300000000]

/-- Two seconds later all inputs have timed out. -/
def droppedEvents : List Event := heldEvents ++ [.timer 2000000000]

def labelsOf (events : List Event) : Except Error (List (Event × List Output)) :=
  (executePartial (handle holdParam) (initial 0) events).map Prod.fst

theorem exists_run_labelsOf {events : List Event} (hlabels : labelsOf events = .ok labels) :
    ∃ last, Run (MonitoredStep holdParam) (initial 0, false) labels last := by
  obtain ⟨last, hrun⟩ := exists_run_executePartial (handle holdParam) hlabels
  obtain ⟨held, hmonitored⟩ := exists_monitored_run hrun false
  exact ⟨(last, held), hmonitored⟩

def handledLabels (events : List Event) : List (Event × List Output) :=
  match labelsOf events with
  | .ok labels => labels
  | .error _ => []

/-- The hold survives the recovery of the diagnostic. -/
theorem published_hold_latches_iff_heldEvents :
    ∃ last, Run (Guarded (MonitoredStep holdParam) (KeepsHold holdParam))
      (initial 0, false) (handledLabels heldEvents) last := by
  have hlabels : labelsOf heldEvents = .ok (handledLabels heldEvents) := by
    decide +kernel
  obtain ⟨last, hrun⟩ := exists_run_labelsOf hlabels
  have hiff := published_hold_latches_iff holdParam rfl 0 hrun
  exact ⟨last, hiff.mp (by decide +kernel)⟩

/-- A held status may be dropped by an input timeout that is shorter than the
recovery timeout. -/
theorem published_hold_dropped : ¬ ∀ (param : Param) (start : Time) (last : ErrorMonitor)
        (labels : List (Event × List Output)),
      param.useEmergencyHold = true →
      Run (Step param) (initial start) labels last → LatchesHold false labels := by
  intro hclaim
  have hlabels : labelsOf droppedEvents = .ok (handledLabels droppedEvents) := by
    decide +kernel
  obtain ⟨last, hrun⟩ := exists_run_executePartial (handle holdParam) hlabels
  have hlatches := hclaim holdParam 0 last _ rfl hrun
  exact absurd hlatches (by decide +kernel)

/-!
## Missing messages and keys

The timer judges the diagnostics only when all messages have arrived, and sets
the mode before it does.  The clear service judges them at once.  No message is
ever missing when it is read, and the key of the required modules is missing
exactly when the service is called before the mode was set.
-/

/-- A failure other than a missing message or a missing key. -/
def Harmless : Error → Prop
  | .nullMessage _ => False
  | .missingKey => False
  | _ => True

/-- The mode is set, and every message has arrived. -/
structure Ready (monitor : ErrorMonitor) : Prop where
  currentMode : monitor.currentMode ≠ none
  diagArray : monitor.diagArray ≠ none
  currentGateMode : monitor.currentGateMode ≠ none
  autowareState : monitor.autowareState ≠ none
  controlMode : monitor.controlMode ≠ none

/-! ## What the functions may throw -/

theorem deref_throwsOnly {α : Type} (topic : Topic) {message : Option α}
    (hmessage : message ≠ none) : ThrowsOnly Harmless (deref topic message) := by
  cases message with
  | none => exact absurd rfl hmessage
  | some value => exact .ok value

theorem getHazardLevel_throwsOnly (requiredModule : DiagConfig) (diagLevel : Nat) :
    ThrowsOnly Harmless (getHazardLevel requiredModule diagLevel) := by
  have hlevel (levelStr : String) : ThrowsOnly Harmless (str2level levelStr) := by
    unfold str2level
    repeat' split
    all_goals first | exact .ok _ | exact .error trivial
  have hover (levelStr : String) : ThrowsOnly Harmless (isOverLevel diagLevel levelStr) := by
    unfold isOverLevel
    split
    · exact .ok _
    · exact (hlevel levelStr).map _
  refine .bind (hover _) fun spf _ => ?_
  cases spf with
  | true => exact .ok _
  | false =>
    refine .bind (hover _) fun lf _ => ?_
    cases lf with
    | true => exact .ok _
    | false =>
      refine .bind (hover _) fun sf _ => ?_
      cases sf with
      | true => exact .ok _
      | false => exact .ok _

theorem appendTargetDiagnostics_throwsOnly (hazardLevel : Nat)
    (diagnostics : List DiagnosticStatus) (status : HazardStatus) :
    ThrowsOnly Harmless (appendTargetDiagnostics hazardLevel diagnostics status) := by
  unfold appendTargetDiagnostics
  repeat' split
  all_goals first | exact .ok _ | exact .error trivial

variable {self : ErrorMonitor} (param : Param)

theorem appendHazardDiag_throwsOnly (hdiagArray : self.diagArray ≠ none)
    (requiredModule : DiagConfig) (hazardDiag : DiagnosticStatus) (status : HazardStatus) :
    ThrowsOnly Harmless (self.appendHazardDiag param requiredModule hazardDiag status) := by
  refine .bind (getHazardLevel_throwsOnly _ _) fun hazardLevel _ => ?_
  refine .bind (appendTargetDiagnostics_throwsOnly _ _ _) fun appended _ => ?_
  cases param.addLeafDiagnostics with
  | true =>
    refine .bind (deref_throwsOnly _ hdiagArray) fun diagArray _ => ?_
    exact .bind (appendTargetDiagnostics_throwsOnly _ _ _) fun leafs _ => .ok _
  | false => exact .ok _

theorem judgeRequiredModule_throwsOnly (hdiagArray : self.diagArray ≠ none) (now : Time)
    (status : HazardStatus) (requiredModule : DiagConfig) :
    ThrowsOnly Harmless (self.judgeRequiredModule param now status requiredModule) := by
  have happend := appendHazardDiag_throwsOnly param hdiagArray requiredModule
  unfold judgeRequiredModule
  split
  · split
    · exact .ok _
    · exact happend _ _
  · refine .bind (happend _ _) fun appended _ => ?_
    split
    · exact happend _ _
    · exact .ok _

theorem requiredModules_throwsOnly
    (hmode : self.currentMode ≠ none) : ThrowsOnly Harmless (self.requiredModules param) := by
  unfold requiredModules
  split
  · exact .ok _
  · rename_i hnone
    exact absurd hnone hmode

theorem isEmergencyHoldingRequired_throwsOnly (hready : self.Ready) (now : Time) :
    ThrowsOnly Harmless (self.isEmergencyHoldingRequired param now) := by
  have hduration : ThrowsOnly Harmless (self.emergencyDuration now) := by
    unfold emergencyDuration
    split
    · exact .ok _
    · exact .error trivial
  have hrecovery : ThrowsOnly Harmless (self.canAutoRecovery param) :=
    .bind (requiredModules_throwsOnly param hready.currentMode) fun modules _ => .ok _
  have hmanual : ThrowsOnly Harmless (do
      let controlMode ← deref .controlMode self.controlMode
      let isManualDriving := controlMode = .manual
      if ¬ param.useEmergencyHoldInManualDriving ∧ isManualDriving then
        return false
      return true : Except Error Bool) := by
    refine .bind (deref_throwsOnly _ hready.controlMode) fun controlMode _ => ?_
    dsimp only
    split
    · exact .ok _
    · exact .ok _
  unfold isEmergencyHoldingRequired
  split
  · exact .ok _
  · split
    · exact .ok _
    · refine .bind hduration fun duration _ => ?_
      split
      · refine .bind hrecovery fun recovers _ => ?_
        cases recovers with
        | true => exact .ok _
        | false => exact hmanual
      · exact hmanual

theorem updateHazardStatus_throwsOnly (hready : self.Ready) (now : Time) :
    ThrowsOnly Harmless (self.updateHazardStatus param now) := by
  have hjudge : ThrowsOnly Harmless (self.judgeHazardStatus param now) := by
    refine .bind (requiredModules_throwsOnly param hready.currentMode) fun modules _ => ?_
    refine .bind (.foldlM (judgeRequiredModule_throwsOnly param hready.diagArray now) _ _)
      fun status _ => ?_
    refine .bind (deref_throwsOnly _ hready.autowareState) fun autowareState _ => ?_
    refine .bind (deref_throwsOnly _ hready.currentGateMode) fun gateMode _ => ?_
    split
    · exact .ok _
    · exact .ok _
  have hlevel : ThrowsOnly Harmless (self.updateLevel param now) := by
    unfold updateLevel
    split
    · exact .bind hjudge fun current _ => .ok _
    · exact .ok _
  refine .bind hlevel fun status _ => ?_
  dsimp only
  split
  · refine .bind (isEmergencyHoldingRequired_throwsOnly param ?_ now) fun holding _ => .ok _
    exact ⟨hready.currentMode, hready.diagArray, hready.currentGateMode,
      hready.autowareState, hready.controlMode⟩
  · exact .ok _

theorem updateTimeoutHazardStatus_throwsOnly (self : ErrorMonitor)
    (now : Time) : ThrowsOnly Harmless (self.updateTimeoutHazardStatus param now) := by
  unfold updateTimeoutHazardStatus
  dsimp only
  split
  · refine .bind ?_ fun duration _ => .ok _
    unfold emergencyDuration
    split
    · exact .ok _
    · exact .error trivial
  · exact .ok _

/-! ## The reachable states -/

/-- Once the mode is set, all messages have arrived. -/
structure Supplied (monitor : ErrorMonitor) : Prop where
  controlMode : monitor.controlMode ≠ none
  messages : monitor.currentMode ≠ none → monitor.diagArray ≠ none ∧
    monitor.currentGateMode ≠ none ∧ monitor.autowareState ≠ none

theorem Supplied.ready (hsupplied : self.Supplied)
    (hmode : self.currentMode ≠ none) : self.Ready := by
  obtain ⟨hdiagArray, hgateMode, hautowareState⟩ := hsupplied.messages hmode
  exact ⟨hmode, hdiagArray, hgateMode, hautowareState, hsupplied.controlMode⟩

def inputs (self : ErrorMonitor) : Option KeyName × Option (List DiagnosticStatus) ×
    Option GateMode × Option AutowareState × Option ControlMode :=
  (self.currentMode, self.diagArray, self.currentGateMode, self.autowareState, self.controlMode)

theorem Supplied.congr {self after : ErrorMonitor} (hsupplied : self.Supplied)
    (hinputs : after.inputs = self.inputs) : after.Supplied := by
  simp only [inputs, Prod.mk.injEq] at hinputs
  obtain ⟨hmode, hdiagArray, hgateMode, hautowareState, hcontrolMode⟩ := hinputs
  constructor
  · rw [hcontrolMode]
    exact hsupplied.controlMode
  · rw [hmode, hdiagArray, hgateMode, hautowareState]
    exact hsupplied.messages

theorem inputs_updateHazardStatus {param : Param} {self after : ErrorMonitor} {now : Time}
    (hupdate : self.updateHazardStatus param now = .ok after) :
    after.inputs = self.inputs := by
  obtain ⟨status, _, hrest⟩ := bind_eq_ok.mp hupdate
  dsimp only at hrest
  split at hrest
  · obtain ⟨holding, _, hreturn⟩ := bind_eq_ok.mp hrest
    cases hreturn
    rfl
  · cases hrest
    rfl

theorem inputs_updateTimeoutHazardStatus {param : Param} {self after : ErrorMonitor}
    {now : Time} (hupdate : self.updateTimeoutHazardStatus param now = .ok after) :
    after.inputs = self.inputs := by
  unfold updateTimeoutHazardStatus at hupdate
  dsimp only at hupdate
  split at hupdate
  · obtain ⟨duration, _, hreturn⟩ := bind_eq_ok.mp hupdate
    cases hreturn
    rfl
  · cases hupdate
    rfl

theorem isDataReady_iff : self.isDataReady = true ↔
    self.diagArray ≠ none ∧ self.currentGateMode ≠ none ∧ self.autowareState ≠ none ∧
      self.controlMode ≠ none := by
  simp [isDataReady, Option.isSome_iff_ne_none, and_assoc]

theorem Supplied.step {param : Param} {self after : ErrorMonitor} {label : Event × List Output}
    (hsupplied : self.Supplied) (hstep : Step param self label after) : after.Supplied := by
  obtain ⟨event, outputs⟩ := label
  cases event with
  | diagArray now stamp status =>
    cases hstep
    refine ⟨hsupplied.controlMode, fun hmode => ?_⟩
    obtain ⟨_, hgateMode, hautowareState⟩ := hsupplied.messages hmode
    exact ⟨Option.some_ne_none _, hgateMode, hautowareState⟩
  | currentGateMode now message =>
    cases hstep
    refine ⟨hsupplied.controlMode, fun hmode => ?_⟩
    obtain ⟨hdiagArray, _, hautowareState⟩ := hsupplied.messages hmode
    exact ⟨hdiagArray, Option.some_ne_none _, hautowareState⟩
  | autowareState now message =>
    cases hstep
    refine ⟨hsupplied.controlMode, fun hmode => ?_⟩
    obtain ⟨hdiagArray, hgateMode, _⟩ := hsupplied.messages hmode
    exact ⟨hdiagArray, hgateMode, Option.some_ne_none _⟩
  | controlMode now message =>
    cases hstep
    exact ⟨Option.some_ne_none _, hsupplied.messages⟩
  | timer now =>
    rcases onTimer_cases hstep with ⟨_, _, rfl, _⟩ | ⟨_, htimeout, _⟩ |
      ⟨hready, _, ⟨mode, hupdate⟩, _⟩
    · exact hsupplied
    · exact hsupplied.congr (inputs_updateTimeoutHazardStatus htimeout)
    · obtain ⟨hdiagArray, hgateMode, hautowareState, hcontrolMode⟩ :=
        isDataReady_iff.mp hready
      have hmoded : ({ self with currentMode := some mode } : ErrorMonitor).Supplied :=
        ⟨hcontrolMode, fun _ => ⟨hdiagArray, hgateMode, hautowareState⟩⟩
      exact hmoded.congr (inputs_updateHazardStatus hupdate)
  | clearEmergency now =>
    obtain ⟨cleared, hcleared, hreturn⟩ := map_eq_ok.mp hstep
    cases hreturn
    have hunheld : (self.setEmergencyHolding false).Supplied :=
      ⟨hsupplied.controlMode, hsupplied.messages⟩
    exact hunheld.congr (inputs_updateHazardStatus hcleared)

theorem supplied_initial (start : Time) : (initial start).Supplied where
  controlMode := Option.some_ne_none _
  messages := fun hmode => absurd rfl hmode

theorem onTimer_throwsOnly (param : Param) (self : ErrorMonitor) (now : Time) :
    ThrowsOnly Harmless (self.onTimer param now) := by
  unfold onTimer
  cases hready : self.isDataReady with
  | false =>
    simp only [Bool.not_false, if_true]
    split
    · exact (updateTimeoutHazardStatus_throwsOnly param self now).map _
    · exact .ok _
  | true =>
    obtain ⟨hdiagArray, hgateMode, hautowareState, hcontrolMode⟩ := isDataReady_iff.mp hready
    simp only [Bool.not_true, Bool.false_eq_true, if_false]
    split
    · exact (updateTimeoutHazardStatus_throwsOnly param self now).map _
    · refine .bind (deref_throwsOnly _ hgateMode) fun gateMode _ => ?_
      refine (updateHazardStatus_throwsOnly param ?_ now).map _
      exact ⟨Option.some_ne_none _, hdiagArray, hgateMode, hautowareState, hcontrolMode⟩

theorem onClearEmergencyService_of_noMode (param : Param) (now : Time)
    (hmode : self.currentMode = none) :
    self.onClearEmergencyService param now = .error .missingKey := by
  have hmodules : (self.setEmergencyHolding false).requiredModules param =
      .error .missingKey := by
    unfold requiredModules setEmergencyHolding
    rw [hmode]
  unfold onClearEmergencyService updateHazardStatus updateLevel judgeHazardStatus
  rw [hmodules]
  rfl

def ClearsWithMode (self : ErrorMonitor) : Event → Prop
  | .clearEmergency _ => self.currentMode ≠ none
  | _ => True

theorem Supplied.handle_cases (hsupplied : self.Supplied) (param : Param) (event : Event) :
    (self.ClearsWithMode event ∧ ThrowsOnly Harmless (handle param self event)) ∨
      (¬ self.ClearsWithMode event ∧ handle param self event = .error .missingKey) := by
  cases event with
  | diagArray now stamp status => exact .inl ⟨trivial, .ok _⟩
  | currentGateMode now message => exact .inl ⟨trivial, .ok _⟩
  | autowareState now message => exact .inl ⟨trivial, .ok _⟩
  | controlMode now message => exact .inl ⟨trivial, .ok _⟩
  | timer now => exact .inl ⟨trivial, onTimer_throwsOnly param self now⟩
  | clearEmergency now =>
    by_cases hmode : self.currentMode = none
    · refine .inr ⟨fun hclears => hclears hmode, ?_⟩
      change (self.onClearEmergencyService param now).map _ = _
      rw [onClearEmergencyService_of_noMode param now hmode]
      rfl
    · obtain ⟨_, hdiagArray, hgateMode, hautowareState, hcontrolMode⟩ :=
        hsupplied.ready hmode
      have hready : (self.setEmergencyHolding false).Ready :=
        ⟨hmode, hdiagArray, hgateMode, hautowareState, hcontrolMode⟩
      exact .inl ⟨hmode, (updateHazardStatus_throwsOnly param hready now).map _⟩

/-- A sequence of events reads no missing message and looks up no missing key exactly
if every clear request finds the mode set. -/
theorem no_missing_iff (param : Param) (start : Time) (events : List Event) :
    ThrowsOnly Harmless (executePartial (handle param) (initial start) events) ↔
      ∀ early event late labels self, events = early ++ event :: late →
        Run (Step param) (initial start) labels self → labels.map Prod.fst = early →
        self.ClearsWithMode event := by
  have hreached : ∀ {labels self}, Run (Step param) (initial start) labels self →
      self.Supplied := fun hrun =>
    hrun.preserves Supplied (fun _ _ _ hbefore hstep => hbefore.step hstep) (supplied_initial start)
  constructor
  · intro hthrows early event late labels self hsplit hrun hearly
    rcases (hreached hrun).handle_cases param event with ⟨hclears, _⟩ | ⟨_, hfailed⟩
    · exact hclears
    · exact (hthrows .missingKey ((executePartial_eq_error_iff (handle param)).mpr
        ⟨early, event, late, labels, self, hsplit, hrun, hearly, hfailed⟩)).elim
  · intro hclears failure hfailed
    obtain ⟨early, event, late, labels, self, hsplit, hrun, hearly, hhandle⟩ :=
      (executePartial_eq_error_iff (handle param)).mp hfailed
    rcases (hreached hrun).handle_cases param event with ⟨_, hthrows⟩ | ⟨hnot, _⟩
    · exact hthrows failure hhandle
    · exact absurd (hclears early event late labels self hsplit hrun hearly) hnot

/-- A clear request before the first tick looks up a key that is missing. -/
theorem clear_before_first_timer : ¬ ∀ (param : Param) (start : Time) (events : List Event),
      ThrowsOnly Harmless (executePartial (handle param) (initial start) events) := by
  intro hclaim
  have hfailed : executePartial (handle holdParam) (initial 0) [.clearEmergency 0] =
      .error .missingKey := rfl
  exact hclaim holdParam 0 [.clearEmergency 0] .missingKey hfailed

end AutowareUniverse.System.ErrorMonitor
