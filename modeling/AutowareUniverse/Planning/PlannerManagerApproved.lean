import AutowareUniverse.Planning.PlannerManagerRequests
import Mathlib.Data.List.DropRight

/-!
# The approved modules of a cycle

The approved modules run one on the output of the other, and the output of a module is
stored under its name the first time a module of that name has run.  The modules in success
at the end of the list leave it together.  Modules of one name may be different modules here,
as long as their managers are registered.
-/

namespace AutowareUniverse.Planning

open Library.Fallible Library.KeyedList SceneModule

namespace SceneModule.Heap

def succeeded (heap : Heap) : ModulePtr → Bool
  | some address => decide ((heap.modules address).state.currentState = .success)
  | none => false

def failed (heap : Heap) : ModulePtr → Bool
  | some address => decide ((heap.modules address).state.currentState = .failure)
  | none => false

end SceneModule.Heap

namespace PlannerManager

variable {Data Out : Type} (env : Environment Data Out)

def Managed (self : PlannerManager) (ptr : ModulePtr) : Prop :=
  ∃ address, ptr = some address ∧
    (self.heap.modules address).name ∈ self.managers.map SceneModuleManager.name

structure OwnNames (planner : PlannerManager) : Prop where
  names : (planner.managers.map SceneModuleManager.name).Nodup
  nodup : ∀ manager ∈ planner.managers, manager.registeredModules.Nodup
  own : ∀ manager ∈ planner.managers, ∀ ptr ∈ manager.registeredModules,
    planner.heap.nameOf ptr = manager.name

/-- All modules keep their names; exactly the given ones are unregistered. -/
structure Deletes (before after : PlannerManager) (gone : ModulePtr → Prop) : Prop where
  nameOf : ∀ ptr, after.heap.nameOf ptr = before.heap.nameOf ptr
  managers : after.managers.map SceneModuleManager.name =
    before.managers.map SceneModuleManager.name
  ownNames : before.OwnNames → after.OwnNames
  registered : before.OwnNames → ∀ ptr, after.Registered ptr ↔ before.Registered ptr ∧ ¬ gone ptr

namespace Deletes

variable {self middle after : PlannerManager} {gone gone' : ModulePtr → Prop}

theorem refl (self : PlannerManager) : Deletes self self fun _ => False where
  nameOf := fun _ => rfl
  managers := rfl
  ownNames := id
  registered := fun _ _ => (and_iff_left id).symm

theorem trans (hfirst : Deletes self middle gone) (hsecond : Deletes middle after gone') :
    Deletes self after fun ptr => gone ptr ∨ gone' ptr where
  nameOf := fun ptr => (hsecond.nameOf ptr).trans (hfirst.nameOf ptr)
  managers := hsecond.managers.trans hfirst.managers
  ownNames := fun hself => hsecond.ownNames (hfirst.ownNames hself)
  registered := fun hself ptr => by
    rw [hsecond.registered (hfirst.ownNames hself), hfirst.registered hself, and_assoc, not_or]

theorem congr (hdeletes : Deletes self after gone) (hgone : ∀ ptr, gone ptr ↔ gone' ptr) :
    Deletes self after gone' := by
  obtain rfl : gone = gone' := funext fun ptr => propext (hgone ptr)
  exact hdeletes

theorem lists (hdeletes : Deletes self after gone) (root : Option Lanelet)
    (approved candidates : List ModulePtr) :
    Deletes self
      { after with
        rootLanelet := root
        approvedModules := approved
        candidateModules := candidates } gone :=
  ⟨hdeletes.nameOf, hdeletes.managers,
    fun hself => ⟨(hdeletes.ownNames hself).names, (hdeletes.ownNames hself).nodup,
      (hdeletes.ownNames hself).own⟩,
    hdeletes.registered⟩

theorem managed (hdeletes : Deletes self after gone) {ptr : ModulePtr}
    (hmanaged : self.Managed ptr) : after.Managed ptr := by
  obtain ⟨address, rfl, hname⟩ := hmanaged
  refine ⟨address, rfl, ?_⟩
  have hsame : (after.heap.modules address).name = (self.heap.modules address).name :=
    hdeletes.nameOf (some address)
  rw [hdeletes.managers, hsame]
  exact hname

end Deletes

/-- Only the state of one module changes. -/
theorem deletes_answer (self : PlannerManager) (address : Nat) (state : ModuleState) :
    Deletes self { self with heap := self.heap.answer address state } fun _ => False where
  nameOf := (part_answer self address state).nameOf
  managers := rfl
  ownNames := fun hself => ⟨hself.names, hself.nodup, fun manager hmanager ptr hptr =>
    ((part_answer self address state).nameOf ptr).trans (hself.own manager hmanager ptr hptr)⟩
  registered := fun _ _ => (and_iff_left id).symm

variable {self : PlannerManager} {ptr : ModulePtr}

theorem deletes_setManager {manager : SceneModuleManager}
    (hfound : findKey SceneModuleManager.name (self.heap.nameOf ptr) self.managers = some manager) :
    Deletes self (self.setManager
        { manager with registeredModules := manager.registeredModules.erase ptr } self.heap)
      (· = ptr) where
  nameOf := fun _ => rfl
  managers := by
    have hkey := key_of_findKey SceneModuleManager.name hfound
    rw [← hkey] at hfound
    exact map_updateKey_of_found SceneModuleManager.name hfound rfl
  ownNames := fun hself => by
    have hkey := key_of_findKey SceneModuleManager.name hfound
    rw [← hkey] at hfound
    have hmem := mem_of_findKey SceneModuleManager.name hfound
    refine ⟨?_, fun other hother => ?_, fun other hother => ?_⟩
    · have hnames : (self.setManager
          { manager with registeredModules := manager.registeredModules.erase ptr }
          self.heap).managers.map SceneModuleManager.name =
          self.managers.map SceneModuleManager.name :=
        map_updateKey_of_found SceneModuleManager.name hfound rfl
      rw [hnames]
      exact hself.names
    · rcases mem_updateKey SceneModuleManager.name hfound hother with rfl | hold
      · exact (hself.nodup manager hmem).erase _
      · exact hself.nodup other hold
    · rcases mem_updateKey SceneModuleManager.name hfound hother with rfl | hold
      · exact fun registered hregistered =>
          hself.own manager hmem registered (List.mem_of_mem_erase hregistered)
      · exact hself.own other hold
  registered := fun hself other => by
    have hkey := key_of_findKey SceneModuleManager.name hfound
    have hmem := mem_of_findKey SceneModuleManager.name hfound
    rw [← hkey] at hfound
    constructor
    · rintro ⟨updated, hupdated, hregistered⟩
      rcases mem_updateKey_of_nodup SceneModuleManager.name hself.names hfound hupdated with
        rfl | ⟨hold, hne⟩
      · have hother := (hself.nodup manager hmem).mem_erase_iff.mp hregistered
        exact ⟨⟨manager, hmem, hother.2⟩, hother.1⟩
      · refine ⟨⟨updated, hold, hregistered⟩, ?_⟩
        rintro rfl
        exact hne ((hself.own updated hold other hregistered).symm.trans hkey.symm)
    · rintro ⟨⟨owner, howner, hregistered⟩, hne⟩
      by_cases hname : owner.name = manager.name
      · obtain rfl : owner = manager := List.inj_on_of_nodup_map hself.names howner hmem hname
        exact ⟨_, change_mem_updateKey SceneModuleManager.name hfound,
          (List.mem_erase_of_ne hne).mpr hregistered⟩
      · exact ⟨owner, mem_updateKey_of_ne SceneModuleManager.name howner hname, hregistered⟩

theorem deleteExpiredModules_deletes (hmanaged : self.Managed ptr) :
    Succeeds (self.deleteExpiredModules env ptr) fun after =>
      SameLists self after ∧ Deletes self after (· = ptr) := by
  obtain ⟨address, rfl, hname⟩ := hmanaged
  obtain ⟨manager, hfound⟩ := exists_findKey SceneModuleManager.name hname
  have hget : self.getManager (some address) = .ok manager := by
    refine bind_eq_ok.mpr ⟨_, rfl, ?_⟩
    simp only [hfound]
  let state := env.behavior.processOnExit self.heap.calls address ⟨false, false, .success⟩
  let exited : PlannerManager := { self with heap := self.heap.answer address state }
  have hprogram : self.deleteExpiredModules env (some address) = .ok (exited.setManager
        { manager with registeredModules := manager.registeredModules.erase (some address) }
        exited.heap) := by
    rw [deleteExpiredModules, hget]
    rfl
  have hanswer := deletes_answer self address state
  have hexited : findKey SceneModuleManager.name (exited.heap.nameOf (some address))
      exited.managers = some manager := by
    rw [hanswer.nameOf]
    exact hfound
  refine ⟨_, hprogram, ⟨rfl, rfl, rfl⟩, (hanswer.trans (deletes_setManager hexited)).congr ?_⟩
  exact fun other => or_iff_right id

variable {ptrs : List ModulePtr}

theorem deleteAll_deletes (hmanaged : ∀ ptr ∈ ptrs, self.Managed ptr) :
    Succeeds (ptrs.foldlM (deleteExpiredModules env) self) fun after =>
      SameLists self after ∧ Deletes self after (· ∈ ptrs) := by
  induction ptrs generalizing self with
  | nil => exact .ok ⟨.refl self, (Deletes.refl self).congr fun ptr => by simp⟩
  | cons ptr rest ih =>
    rw [List.foldlM_cons]
    refine (deleteExpiredModules_deletes env (hmanaged ptr (List.mem_cons_self ..))).bind ?_
    rintro middle ⟨hlists, hdeletes⟩
    refine (ih fun other hother =>
      hdeletes.managed (hmanaged other (List.mem_cons_of_mem _ hother))).mono ?_
    rintro after ⟨hlists', hdeletes'⟩
    exact ⟨hlists.trans hlists', (hdeletes.trans hdeletes').congr fun other =>
      List.mem_cons.symm⟩

theorem clearCandidateModules_deletes (hmanaged : ∀ ptr ∈ self.candidateModules, self.Managed ptr) :
    Succeeds (self.clearCandidateModules env) fun after =>
      after.rootLanelet = self.rootLanelet ∧ after.approvedModules = self.approvedModules ∧
        after.candidateModules = [] ∧ Deletes self after (· ∈ self.candidateModules) := by
  refine (deleteAll_deletes env hmanaged).bind ?_
  rintro deleted ⟨hlists, hdeletes⟩
  exact .ok ⟨hlists.rootLanelet, hlists.approvedModules, rfl, hdeletes.lists _ _ _⟩

theorem deleteApprovedModules_deletes {front back : List ModulePtr}
    (hmanaged : ∀ ptr ∈ back, self.Managed ptr)
    (hcandidates : ∀ ptr ∈ self.candidateModules, self.Managed ptr) :
    Succeeds (self.deleteApprovedModules env front back) fun after =>
      after.rootLanelet = self.rootLanelet ∧ after.approvedModules = front ∧
        after.candidateModules = [] ∧
        Deletes self after fun ptr => ptr ∈ back ∨ ptr ∈ self.candidateModules := by
  refine (deleteAll_deletes env hmanaged).bind ?_
  rintro deleted ⟨hlists, hdeletes⟩
  have hnulled := hdeletes.lists deleted.rootLanelet (front ++ expired back)
    deleted.candidateModules
  refine (clearCandidateModules_deletes env fun ptr hmem => hnulled.managed
    (hcandidates ptr (hlists.candidateModules ▸ hmem))).bind ?_
  rintro cleared ⟨hroot, _, hempty, hcleared⟩
  refine .ok ⟨hroot.trans hlists.rootLanelet, rfl, hempty,
    ((hnulled.trans hcleared).lists _ _ _).congr fun ptr => ?_⟩
  change ptr ∈ back ∨ ptr ∈ deleted.candidateModules ↔ _
  rw [hlists.candidateModules]

section

variable (hmanaged : self.Managed ptr)

include hmanaged

theorem Managed.name :
    self.heap.name ptr = .ok (self.heap.nameOf ptr) := by
  obtain ⟨address, rfl, _⟩ := hmanaged
  rfl

theorem Managed.isWaitingApproval :
    self.heap.isWaitingApproval ptr = .ok (self.heap.waits ptr) := by
  obtain ⟨address, rfl, _⟩ := hmanaged
  rfl

theorem Managed.hasFailed :
    (do return decide ((← self.heap.getCurrentStatus ptr) = .failure) : Except Error Bool) =
      .ok (self.heap.failed ptr) := by
  obtain ⟨address, rfl, _⟩ := hmanaged
  rfl

theorem Managed.hasNotSucceeded :
    (do return decide ((← self.heap.getCurrentStatus ptr) ≠ .success) : Except Error Bool) =
      .ok (!self.heap.succeeded ptr) := by
  obtain ⟨address, rfl, _⟩ := hmanaged
  exact congrArg Except.ok (decide_not ..)

/-! ## The outputs of the approved modules -/

end

def runAll (self : PlannerManager) (previous : Out) (ptrs : List ModulePtr) :
    Except Error (Out × PlannerManager) :=
  ptrs.foldlM (fun state ptr => state.2.runModule env ptr state.1) (previous, self)

def composed (self : PlannerManager) (previous : Out) (ptrs : List ModulePtr) :
    Except Error Out :=
  (self.runAll env previous ptrs).map Prod.fst

def prefixOfName (name : ModulePtr → String) (key : String) :
    List ModulePtr → Option (List ModulePtr)
  | [] => none
  | ptr :: rest =>
    if name ptr = key then some [ptr] else (prefixOfName name key rest).map (ptr :: ·)

def storedPrefix (name : ModulePtr → String) (last : ModulePtr) (ptrs : List ModulePtr) :
    List ModulePtr :=
  if name last = "root" then [] else (prefixOfName name (name last) ptrs).getD []

theorem exists_prefixOfName {name : ModulePtr → String} {last : ModulePtr} (hmem : last ∈ ptrs) :
    ∃ named, prefixOfName name (name last) ptrs = some named := by
  induction ptrs with
  | nil => cases hmem
  | cons ptr rest ih =>
    rw [prefixOfName]
    by_cases hname : name ptr = name last
    · exact ⟨_, if_pos hname⟩
    · rw [if_neg hname]
      rcases List.mem_cons.mp hmem with rfl | hrest
      · exact absurd rfl hname
      · obtain ⟨named, hnamed⟩ := ih hrest
        exact ⟨ptr :: named, by rw [hnamed]; rfl⟩

theorem findKey_emplace_of_some {results : List (String × Out)} {name key : String} {output : Out}
    {result : String × Out} (hfound : findKey Prod.fst key results = some result) :
    findKey Prod.fst key (emplace results name output) = some result := by
  unfold emplace
  cases findKey Prod.fst name results with
  | some other => exact hfound
  | none =>
    rw [findKey_append, hfound]
    rfl

theorem findKey_emplace_of_none {results : List (String × Out)} {name key : String}
    {output : Out} (hnone : findKey Prod.fst key results = none) :
    findKey Prod.fst key (emplace results name output) =
      if name = key then some (name, output) else none := by
  unfold emplace
  by_cases hname : name = key
  · rw [hname, hnone, if_pos rfl]
    dsimp only
    rw [findKey_append, hnone, findKey_cons, if_pos rfl]
    rfl
  · rw [if_neg hname]
    cases findKey Prod.fst name results with
    | some other => exact hnone
    | none =>
      dsimp only
      rw [findKey_append, hnone, findKey_cons, if_neg hname]
      rfl

theorem runModule_managed (hmanaged : self.Managed ptr) (previous : Out) :
    Succeeds (self.runModule env ptr previous) fun result =>
      SameLists self result.2 ∧ Deletes self result.2 fun _ => False := by
  obtain ⟨address, rfl, _⟩ := hmanaged
  exact ⟨_, rfl, ⟨rfl, rfl, rfl⟩, deletes_answer _ _ _⟩

theorem executeApprovedModule_foldlM (hmanaged : ∀ ptr ∈ ptrs, self.Managed ptr) (previous : Out)
    (results : List (String × Out)) :
    Succeeds (ptrs.foldlM (executeApprovedModule env) ((previous, results), self)) fun result =>
      SameLists self result.2 ∧ Deletes self result.2 (fun _ => False) ∧
        self.runAll env previous ptrs = .ok (result.1.1, result.2) ∧
        (∀ key found, findKey Prod.fst key results = some found →
          findKey Prod.fst key result.1.2 = some found) ∧
        ∀ key named, findKey Prod.fst key results = none →
          prefixOfName self.heap.nameOf key ptrs = some named →
          ∃ output, self.composed env previous named = .ok output ∧
            findKey Prod.fst key result.1.2 = some (key, output) := by
  induction ptrs generalizing self previous results with
  | nil => exact .ok ⟨.refl self, .refl self, rfl, fun _ _ => id, fun _ _ _ hnamed => by cases hnamed⟩
  | cons ptr rest ih =>
    have hptr := hmanaged ptr (List.mem_cons_self ..)
    obtain ⟨⟨output, middle⟩, hrun, hlists, hdeletes⟩ := runModule_managed env hptr previous
    have hrest : ∀ other ∈ rest, middle.Managed other :=
      fun other hother => hdeletes.managed (hmanaged other (List.mem_cons_of_mem _ hother))
    have hname : middle.heap.name ptr = .ok (self.heap.nameOf ptr) := by
      rw [(hdeletes.managed hptr).name, hdeletes.nameOf]
    have hstep : executeApprovedModule env ((previous, results), self) ptr =
        .ok ((output, emplace results (self.heap.nameOf ptr) output), middle) := by
      rw [executeApprovedModule]
      exact bind_eq_ok.mpr ⟨_, hrun, bind_eq_ok.mpr ⟨_, hname, rfl⟩⟩
    have hrunAll : ∀ ptrs, self.runAll env previous (ptr :: ptrs) =
        middle.runAll env output ptrs := by
      intro ptrs
      rw [runAll, List.foldlM_cons]
      change (self.runModule env ptr previous >>= _) = _
      rw [hrun]
      rfl
    rw [List.foldlM_cons]
    refine Succeeds.bind_eq hstep ?_
    refine (ih hrest output (emplace results (self.heap.nameOf ptr) output)).mono ?_
    rintro ⟨⟨last, stored⟩, after⟩ ⟨hlists', hdeletes', hall, hkept, hfirst⟩
    refine ⟨hlists.trans hlists', (hdeletes.trans hdeletes').congr fun _ => or_self_iff,
      (hrunAll rest).trans hall,
      fun key found hfound => hkept key found (findKey_emplace_of_some hfound), ?_⟩
    intro key named hnone hnamed
    rw [prefixOfName] at hnamed
    by_cases hkey : self.heap.nameOf ptr = key
    · rw [if_pos hkey] at hnamed
      obtain rfl := Option.some.inj hnamed
      refine ⟨output, ?_, hkept key _ ?_⟩
      · rw [composed, hrunAll]
        rfl
      · rw [findKey_emplace_of_none hnone, if_pos hkey, hkey]
    · rw [if_neg hkey] at hnamed
      obtain ⟨behind, hbehind, rfl⟩ := Option.map_eq_some_iff.mp hnamed
      obtain ⟨found, hfound, hstored⟩ := hfirst key behind
        (by rw [findKey_emplace_of_none hnone, if_neg hkey])
        (by rw [show middle.heap.nameOf = self.heap.nameOf from funext hdeletes.nameOf, hbehind])
      refine ⟨found, ?_, hstored⟩
      rw [composed, hrunAll]
      exact hfound

/-! ## The modules that stay -/

theorem popWaitingApprovalModules_managed
    (happroved : ∀ ptr ∈ self.approvedModules, self.Managed ptr)
    (hcandidates : ∀ ptr ∈ self.candidateModules, self.Managed ptr) :
    Succeeds (self.popWaitingApprovalModules env) fun popped =>
      popped.approvedModules = self.approvedModules.takeWhile (!self.heap.waits ·) ∧
        (∃ gone, Deletes self popped gone) ∧
        (∀ ptr ∈ popped.candidateModules, popped.Managed ptr) ∧
        ((∀ ptr ∈ self.approvedModules, self.heap.waits ptr = false) → popped = self) := by
  have hfind := findIf_eq fun ptr hmem => (happroved ptr hmem).isWaitingApproval
  refine Succeeds.bind_eq hfind ?_
  cases hback : self.approvedModules.dropWhile (!self.heap.waits ·) with
  | nil =>
    have hsplit := List.takeWhile_append_dropWhile (p := (!self.heap.waits ·))
      (l := self.approvedModules)
    rw [hback, List.append_nil] at hsplit
    exact .ok ⟨hsplit.symm, ⟨_, .refl self⟩, hcandidates, fun _ => rfl⟩
  | cons waiting behind =>
    refine (clearCandidateModules_deletes env hcandidates).bind ?_
    rintro cleared ⟨_, _, _, hdeletes⟩
    have hmem : waiting ∈ self.approvedModules :=
      (List.dropWhile_sublist _).mem (hback ▸ List.mem_cons_self ..)
    refine .ok ⟨rfl, ⟨_, hdeletes.lists _ _ _⟩, ?_, fun hnone => ?_⟩
    · intro ptr hptr
      rw [List.mem_singleton.mp hptr]
      exact (hdeletes.lists _ _ _).managed (happroved waiting hmem)
    · have hnil : self.approvedModules.dropWhile (!self.heap.waits ·) = [] :=
        List.dropWhile_eq_nil_iff.mpr fun ptr hptr => by simp [hnone ptr hptr]
      rw [hnil] at hback
      cases hback

theorem removeFailureModules_managed (happroved : ∀ ptr ∈ self.approvedModules, self.Managed ptr)
    (hcandidates : ∀ ptr ∈ self.candidateModules, self.Managed ptr) :
    Succeeds (self.removeFailureModules env) fun valid =>
      valid.approvedModules = self.approvedModules.takeWhile (!self.heap.failed ·) ∧
        (∃ gone, Deletes self valid gone) ∧
        (∀ ptr ∈ valid.candidateModules, valid.Managed ptr) ∧
        ((∀ ptr ∈ self.approvedModules, self.heap.failed ptr = false) → valid = self) := by
  have hfind := findIf_eq fun ptr hmem => (happroved ptr hmem).hasFailed
  refine Succeeds.bind_eq hfind ?_
  dsimp only
  have hsplit := List.takeWhile_append_dropWhile (p := (!self.heap.failed ·))
    (l := self.approvedModules)
  by_cases hback : self.approvedModules.dropWhile (!self.heap.failed ·) = []
  · rw [hback, List.append_nil] at hsplit
    rw [hback]
    exact .ok ⟨hsplit.symm, ⟨_, .refl self⟩, hcandidates, fun _ => rfl⟩
  · have hnot : (self.approvedModules.dropWhile (!self.heap.failed ·)).isEmpty = false := by
      simpa using hback
    rw [hnot]
    refine (deleteApprovedModules_deletes env (fun ptr hmem =>
      happroved ptr ((List.dropWhile_sublist _).mem hmem)) hcandidates).mono ?_
    rintro valid ⟨_, hvalid, hempty, hdeletes⟩
    refine ⟨hvalid, ⟨_, hdeletes⟩, ?_, fun hnone => ?_⟩
    · rw [hempty]
      exact fun ptr hptr => absurd hptr List.not_mem_nil
    · exact absurd (List.dropWhile_eq_nil_iff.mpr fun ptr hptr => by simp [hnone ptr hptr]) hback

def endsWithLaneChange (self : PlannerManager) : Bool :=
  (self.approvedModules.rtakeWhile self.heap.succeeded).any
    fun ptr => isLaneChange (self.heap.nameOf ptr)

/-- The modules in success at the end of the list leave it, all or none of them. -/
structure SuccessRemoved (closest : Lanelet) (before after : PlannerManager) : Prop where
  kept : before.approvedModules.rtakeWhile before.heap.succeeded = [] ∨
      before.endsWithLaneChange = true ∧
        before.approvedModules.rdropWhile before.heap.succeeded ≠ [] →
    after = before
  removed : before.approvedModules.rtakeWhile before.heap.succeeded ≠ [] →
    (before.endsWithLaneChange = true →
      before.approvedModules.rdropWhile before.heap.succeeded = []) →
    after.approvedModules = before.approvedModules.rdropWhile before.heap.succeeded ∧
      after.candidateModules = [] ∧
      after.rootLanelet =
        (if before.endsWithLaneChange then some closest else before.rootLanelet) ∧
      Deletes before after fun ptr =>
        ptr ∈ before.approvedModules.rtakeWhile before.heap.succeeded ∨
          ptr ∈ before.candidateModules

theorem removeSuccessModules_managed (data : Data)
    (happroved : ∀ ptr ∈ self.approvedModules, self.Managed ptr)
    (hcandidates : ∀ ptr ∈ self.candidateModules, self.Managed ptr) :
    Succeeds (self.removeSuccessModules env data)
      (SuccessRemoved (env.closestLanelet data) self) := by
  have hfind := findIf_eq fun ptr (hmem : ptr ∈ self.approvedModules.reverse) =>
    (happroved ptr (List.mem_reverse.mp hmem)).hasNotSucceeded
  simp only [Bool.not_not] at hfind
  refine Succeeds.bind_eq hfind ?_
  change Succeeds
    (if (self.approvedModules.rtakeWhile self.heap.succeeded).isEmpty = true then pure self else
      exists? _ (self.approvedModules.rtakeWhile self.heap.succeeded) >>= _) _
  have hmanaged : ∀ ptr ∈ self.approvedModules.rtakeWhile self.heap.succeeded,
      self.Managed ptr := fun ptr hmem =>
    happroved ptr ((List.rtakeWhile_suffix _ _).mem hmem)
  by_cases hback : self.approvedModules.rtakeWhile self.heap.succeeded = []
  · rw [hback]
    exact .ok ⟨fun _ => rfl, fun hne => absurd hback hne⟩
  · rw [if_neg (by simpa using hback)]
    have hlaneChange := exists?_eq fun ptr hmem => show
        (do return isLaneChange (← self.heap.name ptr) : Except Error Bool) =
          .ok (isLaneChange (self.heap.nameOf ptr)) by
      rw [(hmanaged ptr hmem).name]
      rfl
    refine Succeeds.bind_eq hlaneChange ?_
    change Succeeds (if (!self.endsWithLaneChange) = true then _ else if
      (self.approvedModules.rdropWhile self.heap.succeeded).isEmpty = true then _ else _) _
    have hdelete : Succeeds (self.deleteApprovedModules env
        (self.approvedModules.rdropWhile self.heap.succeeded)
        (self.approvedModules.rtakeWhile self.heap.succeeded)) _ :=
      deleteApprovedModules_deletes env hmanaged hcandidates
    cases hends : self.endsWithLaneChange with
    | false =>
      refine hdelete.mono ?_
      rintro after ⟨hroot, happroved', hempty, hdeletes⟩
      refine ⟨?_, fun _ _ => ⟨happroved', hempty, ?_, hdeletes⟩⟩
      · rintro (hnil | ⟨hlane, _⟩)
        · exact absurd hnil hback
        · rw [hends] at hlane
          cases hlane
      · rw [hroot, hends]
        rfl
    | true =>
      by_cases hfront : self.approvedModules.rdropWhile self.heap.succeeded = []
      · rw [if_neg (by simp), if_pos (by simpa using hfront)]
        refine hdelete.bind ?_
        rintro after ⟨_, happroved', hempty, hdeletes⟩
        refine .ok ⟨?_, fun _ _ => ⟨happroved', hempty, ?_, hdeletes.lists _ _ _⟩⟩
        · rintro (hnil | ⟨_, hne⟩)
          · exact absurd hnil hback
          · exact absurd hfront hne
        · rw [hends]
          rfl
      · rw [if_neg (by simp), if_neg (by simpa using hfront)]
        exact .ok ⟨fun _ => rfl, fun _ hall => absurd (hall hends) hfront⟩

namespace SuccessRemoved

variable {closest : Lanelet} {before after : PlannerManager}

theorem approvedModules_prefix (hremoved : SuccessRemoved closest before after) : after = before ∨
      after.approvedModules = before.approvedModules.rdropWhile before.heap.succeeded := by
  by_cases hback : before.approvedModules.rtakeWhile before.heap.succeeded = []
  · exact .inl (hremoved.kept (.inl hback))
  · by_cases hall : before.endsWithLaneChange = true →
        before.approvedModules.rdropWhile before.heap.succeeded = []
    · exact .inr (hremoved.removed hback hall).1
    · obtain ⟨hlane, hfront⟩ := Classical.not_imp.mp hall
      exact .inl (hremoved.kept (.inr ⟨hlane, hfront⟩))

theorem stays (hremoved : SuccessRemoved closest before after) {front rest : List ModulePtr}
    (hsplit : before.approvedModules = front ++ rest)
    (hrest : ∃ other ∈ rest, before.heap.succeeded other = false) :
    front <+: after.approvedModules := by
  rcases hremoved.approvedModules_prefix with rfl | happroved
  · exact ⟨rest, hsplit.symm⟩
  · rw [happroved]
    have hsuffix := List.rdropWhile_append_rtakeWhile
      (p := before.heap.succeeded) (l := before.approvedModules)
    rcases List.prefix_or_prefix_of_prefix (show front <+: before.approvedModules from
      ⟨rest, hsplit.symm⟩) (List.rdropWhile_prefix before.heap.succeeded _) with
      hprefix | ⟨between, hbetween⟩
    · exact hprefix
    · obtain ⟨other, hother, hnot⟩ := hrest
      have hbehind : front ++ rest =
          before.approvedModules.rdropWhile before.heap.succeeded ++ (between ++ rest) := by
        rw [← List.append_assoc, hbetween]
      have htake := List.append_cancel_left (hsuffix.trans (hsplit.trans hbehind))
      have hmem : other ∈ before.approvedModules.rtakeWhile before.heap.succeeded := by
        rw [htake]
        exact List.mem_append_right _ hother
      exact absurd (List.mem_rtakeWhile_imp hmem) (by simp [hnot])

end SuccessRemoved

/-! ## One run of the approved modules -/

/-- The approved modules before the first one that waits for approval after all have run, and
before the first one in failure when the others are gone. -/
def Survivors (data : Data) (self : PlannerManager) (survivors : List ModulePtr) : Prop :=
  ∃ executed popped, Executes env data self executed ∧
    executed.popWaitingApprovalModules env = .ok popped ∧
    survivors = (self.approvedModules.takeWhile (!executed.heap.waits ·)).takeWhile
      (!popped.heap.failed ·)

theorem runApprovedModules_managed (data : Data) {root : Lanelet}
    (hroot : self.rootLanelet = some root)
    (happroved : ∀ ptr ∈ self.approvedModules, self.Managed ptr)
    (hcandidates : ∀ ptr ∈ self.candidateModules, self.Managed ptr) :
    Succeeds (self.runApprovedModules env data) fun result =>
      ∃ executed popped valid, Executes env data self executed ∧ SameLists self executed ∧
        executed.popWaitingApprovalModules env = .ok popped ∧
        valid.approvedModules = (self.approvedModules.takeWhile (!executed.heap.waits ·)).takeWhile
          (!popped.heap.failed ·) ∧
        (valid.approvedModules = [] → result.1 = env.referencePath data root) ∧
        (∀ last, valid.approvedModules.getLast? = some last →
          self.composed env (env.referencePath data root)
            (storedPrefix self.heap.nameOf last self.approvedModules) = .ok result.1) ∧
        ((∀ ptr ∈ self.approvedModules, executed.heap.waits ptr = false ∧
            executed.heap.failed ptr = false) → valid = executed) ∧
        SuccessRemoved (env.closestLanelet data) valid result.2 := by
  have hreference : self.getReferencePath env data = .ok (env.referencePath data root) := by
    rw [getReferencePath, hroot]
  refine Succeeds.bind_eq hreference ?_
  obtain ⟨⟨⟨output, results⟩, executed⟩, hprogram, hlists, hdeletes, hall, hkept, hfirst⟩ :=
    executeApprovedModule_foldlM env happroved (env.referencePath data root)
      [("root", env.referencePath data root)]
  refine Succeeds.bind_eq hprogram ?_
  dsimp only at hlists hdeletes hall hkept hfirst ⊢
  have hexecutes : Executes env data self executed := ⟨_, _, hreference, hprogram⟩
  have happroved' : ∀ ptr ∈ executed.approvedModules, executed.Managed ptr := fun ptr hmem =>
    hdeletes.managed (happroved ptr (hlists.approvedModules ▸ hmem))
  have hcandidates' : ∀ ptr ∈ executed.candidateModules, executed.Managed ptr := fun ptr hmem =>
    hdeletes.managed (hcandidates ptr (hlists.candidateModules ▸ hmem))
  obtain ⟨popped, hpop, hpopped, ⟨gone, hpopDeletes⟩, hpopCandidates, hpopSame⟩ :=
    popWaitingApprovalModules_managed env happroved' hcandidates'
  refine Succeeds.bind_eq hpop ?_
  have hpopApproved : ∀ ptr ∈ popped.approvedModules, popped.Managed ptr := fun ptr hmem => by
    rw [hpopped] at hmem
    exact hpopDeletes.managed (happroved' ptr ((List.takeWhile_sublist _).mem hmem))
  obtain ⟨valid, hremove, hvalid, ⟨gone', hvalidDeletes⟩, hvalidCandidates, hvalidSame⟩ :=
    removeFailureModules_managed env hpopApproved hpopCandidates
  refine Succeeds.bind_eq hremove ?_
  have hvalidApproved : ∀ ptr ∈ valid.approvedModules, valid.Managed ptr := fun ptr hmem => by
    rw [hvalid] at hmem
    exact hvalidDeletes.managed (hpopApproved ptr ((List.takeWhile_sublist _).mem hmem))
  have hsurvivors : valid.approvedModules =
      (self.approvedModules.takeWhile (!executed.heap.waits ·)).takeWhile
        (!popped.heap.failed ·) := by
    rw [hvalid, hpopped, hlists.approvedModules]
  have hsame : (∀ ptr ∈ self.approvedModules, executed.heap.waits ptr = false ∧
      executed.heap.failed ptr = false) → valid = executed := by
    intro hnone
    have hpoppedSame := hpopSame fun ptr hmem =>
      (hnone ptr (hlists.approvedModules ▸ hmem)).1
    rw [hvalidSame fun ptr hmem => ?_, hpoppedSame]
    rw [hpoppedSame] at hmem ⊢
    exact (hnone ptr (hlists.approvedModules ▸ hmem)).2
  have hrootResult := hkept "root" _ (show findKey Prod.fst "root"
    [("root", env.referencePath data root)] = some ("root", env.referencePath data root) from rfl)
  cases hlast : valid.approvedModules.getLast? with
  | none =>
    have hnil : valid.approvedModules = [] := List.getLast?_eq_none_iff.mp hlast
    refine Succeeds.bind_eq (show resultAt results "root" = .ok (env.referencePath data root) by
      rw [resultAt, hrootResult]) ?_
    refine .ok ⟨executed, popped, valid, hexecutes, hlists, hpop, hsurvivors, fun _ => rfl,
      fun last hsome => absurd (hlast.symm.trans hsome) (Option.some_ne_none last).symm, hsame,
      fun _ => rfl, ?_⟩
    rw [hnil]
    exact fun hne => absurd rfl hne
  | some last =>
    have hmem : last ∈ valid.approvedModules := List.mem_of_getLast? hlast
    have hname : valid.heap.name last = .ok (self.heap.nameOf last) := by
      rw [(hvalidApproved last hmem).name, hvalidDeletes.nameOf, hpopDeletes.nameOf,
        hdeletes.nameOf]
    have hinside : last ∈ self.approvedModules := by
      rw [hsurvivors] at hmem
      exact (List.takeWhile_sublist _).mem ((List.takeWhile_sublist _).mem hmem)
    obtain ⟨stored, hcomposed, houtput⟩ : ∃ stored, self.composed env (env.referencePath data root)
          (storedPrefix self.heap.nameOf last self.approvedModules) = .ok stored ∧
        valid.approvedModulesOutput results last = .ok stored := by
      rw [approvedModulesOutput, hname, storedPrefix]
      by_cases hisRoot : self.heap.nameOf last = "root"
      · rw [if_pos hisRoot, hisRoot]
        refine ⟨_, rfl, bind_eq_ok.mpr ⟨_, rfl, ?_⟩⟩
        simp only [hrootResult]
      · rw [if_neg hisRoot]
        obtain ⟨named, hnamed⟩ := exists_prefixOfName hinside
        have hnone : findKey Prod.fst (self.heap.nameOf last)
            [("root", env.referencePath data root)] = none := by
          rw [findKey_cons, if_neg (fun heq => hisRoot heq.symm)]
          rfl
        obtain ⟨stored, hstored, hfound⟩ := hfirst _ named hnone hnamed
        rw [hnamed]
        refine ⟨stored, hstored, bind_eq_ok.mpr ⟨_, rfl, ?_⟩⟩
        simp only [hfound]
    refine Succeeds.bind_eq houtput ?_
    refine (removeSuccessModules_managed env data hvalidApproved hvalidCandidates).bind ?_
    intro finished hfinished
    refine .ok ⟨executed, popped, valid, hexecutes, hlists, hpop, hsurvivors, fun hnil => ?_,
      fun other hother => ?_, hsame, hfinished⟩
    · rw [hnil] at hlast
      cases hlast
    · obtain rfl := Option.some.inj (hlast.symm.trans hother)
      exact hcomposed

/-- The output that is returned is the composed output of the survivors exactly if the first
module with the name of the last of them has this output. -/
theorem runApprovedModules_output_iff (data : Data) {self : PlannerManager} {root : Lanelet}
    (hroot : self.rootLanelet = some root)
    (happroved : ∀ ptr ∈ self.approvedModules, self.Managed ptr)
    (hcandidates : ∀ ptr ∈ self.candidateModules, self.Managed ptr) :
    ∃ output finished survivors, self.runApprovedModules env data = .ok (output, finished) ∧
      Survivors env data self survivors ∧
      (self.composed env (env.referencePath data root) survivors = .ok output ↔
        ∀ last, survivors.getLast? = some last → self.composed env (env.referencePath data root)
              (storedPrefix self.heap.nameOf last self.approvedModules) =
            self.composed env (env.referencePath data root) survivors) := by
  obtain ⟨⟨output, finished⟩, hprogram, executed, popped, valid, hexecutes, _, hpop, hsurvivors,
    hempty, hstored, _⟩ := runApprovedModules_managed env data hroot happroved hcandidates
  refine ⟨output, finished, valid.approvedModules, hprogram,
    ⟨executed, popped, hexecutes, hpop, hsurvivors⟩, ?_⟩
  cases hlast : valid.approvedModules.getLast? with
  | none =>
    have hnil := List.getLast?_eq_none_iff.mp hlast
    refine iff_of_true ?_ fun last hsome => by cases hsome
    rw [hnil, ← hempty hnil]
    rfl
  | some last =>
    rw [← hstored last hlast]
    exact ⟨fun heq other hother => by rw [← Option.some.inj hother]; exact heq.symm,
      fun heq => (heq last rfl).symm⟩

def countingEnvironment (state : Nat → ModuleState) : Environment Unit Nat where
  behavior :=
    { processOnEntry := fun _ _ state => state
      processOnExit := fun _ _ state => state
      updateData := fun _ _ state => state
      isExecutionRequested := fun _ _ _ => false
      run := fun _ address previous _ => (previous + 1, state address) }
  prioritySort := .stable
  emptyOutput := 0
  referencePath := fun _ _ => 0
  closestLanelet := fun _ => 7
  following := fun _ _ => []

def twoApproved (first second : String) : PlannerManager where
  rootLanelet := some 1
  managers := [⟨first, 2, 0, true, true, [some 0], none⟩, ⟨second, 2, 1, true, true, [some 1], none⟩]
  approvedModules := [some 0, some 1]
  candidateModules := []
  heap := ⟨fun address => ⟨if address = 0 then first else second, ⟨false, false, .running⟩⟩, 2, 0⟩

theorem twoApproved_managed (first second : String) :
    ∀ ptr ∈ (twoApproved first second).approvedModules, (twoApproved first second).Managed ptr := by
  intro ptr hmem
  rcases List.mem_pair.mp hmem with rfl | rfl
  · exact ⟨0, rfl, List.mem_cons_self ..⟩
  · exact ⟨1, rfl, List.mem_cons_of_mem _ (List.mem_cons_self ..)⟩

/-- Of two modules of one name the output of the first is returned. -/
theorem repeated_name_output :
    let env := countingEnvironment fun _ => ⟨false, false, .running⟩
    let self := twoApproved "avoidance" "avoidance"
    ∃ finished, self.runApprovedModules env () = .ok (1, finished) ∧
      Survivors env () self [some 0, some 1] ∧
      self.composed env 0 [some 0, some 1] = .ok 2 := by
  intro env self
  exact ⟨_, rfl, ⟨_, _, ⟨_, _, rfl, rfl⟩, rfl, rfl⟩, rfl⟩

theorem twoApproved_output_iff :
    let env := countingEnvironment fun _ => ⟨false, false, .running⟩
    let self := twoApproved "avoidance" "pull_over"
    ∃ output finished survivors, self.runApprovedModules env () = .ok (output, finished) ∧
      Survivors env () self survivors ∧
      (self.composed env 0 survivors = .ok output ↔ ∀ last, survivors.getLast? = some last →
          self.composed env 0 (storedPrefix self.heap.nameOf last self.approvedModules) =
            self.composed env 0 survivors) := by
  intro env self
  exact runApprovedModules_output_iff env () rfl (twoApproved_managed _ _)
    fun ptr hmem => absurd hmem List.not_mem_nil

/-- With no module waiting or in failure, exactly the modules in success at the end of the list
leave it, or, behind a module that is not in success, none if a lane change is among them. -/
theorem runApprovedModules_removes (data : Data) {self : PlannerManager} {root : Lanelet}
    (hroot : self.rootLanelet = some root)
    (happroved : ∀ ptr ∈ self.approvedModules, self.Managed ptr)
    (hcandidates : ∀ ptr ∈ self.candidateModules, self.Managed ptr) :
    ∃ output finished executed, self.runApprovedModules env data = .ok (output, finished) ∧
      Executes env data self executed ∧ SameLists self executed ∧
      ((∀ ptr ∈ self.approvedModules, executed.heap.waits ptr = false ∧
          executed.heap.failed ptr = false) →
        SuccessRemoved (env.closestLanelet data) executed finished ∧
          ∀ front rest, self.approvedModules = front ++ rest →
            (∃ other ∈ rest, executed.heap.succeeded other = false) →
            front <+: finished.approvedModules) := by
  obtain ⟨⟨output, finished⟩, hprogram, executed, popped, valid, hexecutes, hlists, _, _, _, _,
    hsame, hremoved⟩ := runApprovedModules_managed env data hroot happroved hcandidates
  refine ⟨output, finished, executed, hprogram, hexecutes, hlists, fun hnone => ?_⟩
  rw [hsame hnone] at hremoved
  exact ⟨hremoved, fun front rest hsplit hrest =>
    hremoved.stays (hlists.approvedModules.trans hsplit) hrest⟩

/-- A module in success stays in the list before a running one. -/
theorem twoApproved_removes :
    let env := countingEnvironment fun address =>
      ⟨false, false, if address = 0 then .success else .running⟩
    let self := twoApproved "avoidance" "pull_over"
    ∃ output finished executed, self.runApprovedModules env () = .ok (output, finished) ∧
      Executes env () self executed ∧ SuccessRemoved 7 executed finished ∧
      [some 0] <+: finished.approvedModules := by
  intro env self
  obtain ⟨output, finished, executed, hprogram, hexecutes, _, hremoved⟩ :=
    @runApprovedModules_removes _ _ env () self 1 rfl (twoApproved_managed _ _)
      fun ptr hmem => absurd hmem List.not_mem_nil
  have hstates : executed.heap.waits (some 0) = false ∧ executed.heap.failed (some 0) = false ∧
      executed.heap.waits (some 1) = false ∧ executed.heap.failed (some 1) = false ∧
      executed.heap.succeeded (some 1) = false := by
    obtain ⟨root, results, hreference, hrun⟩ := hexecutes
    cases hreference
    cases hrun
    decide
  obtain ⟨hsuccess, hstays⟩ := hremoved (by
    intro ptr hmem
    rcases List.mem_pair.mp hmem with rfl | rfl
    · exact ⟨hstates.1, hstates.2.1⟩
    · exact ⟨hstates.2.2.1, hstates.2.2.2.1⟩)
  exact ⟨output, finished, executed, hprogram, hexecutes, hsuccess,
    hstays [some 0] [some 1] rfl ⟨some 1, List.mem_singleton_self _, hstates.2.2.2.2⟩⟩

end PlannerManager

end AutowareUniverse.Planning
