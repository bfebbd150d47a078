import AutowareUniverse.Planning.PlannerManager

/-!
# What requesting modules does

The loop over the managers creates at most the idling modules that are still
missing, and collects candidates and idling modules.
-/

namespace AutowareUniverse.Planning.PlannerManager

open Library.Fallible Library.KeyedList SceneModule

variable {Data Out : Type} (env : Environment Data Out)

section

/-! ## Asking the managers -/

/-- The managers that the loop of `getRequestModules` asks for a new module. -/
def askedManagers (heap : Heap) (approved candidates : List ModulePtr) :
    List SceneModuleManager → List SceneModuleManager
  | [] => []
  | manager :: rest =>
    if !approved.isEmpty && !manager.isSimultaneousExecutableAsApprovedModule then
      askedManagers heap approved candidates rest
    else if candidates.any (fun ptr => decide (heap.nameOf ptr = manager.name)) then
      if candidates.any
          (fun ptr => decide (heap.nameOf ptr = manager.name) && heap.locks ptr) then
        []
      else
        askedManagers heap approved candidates rest
    else if manager.canLaunchNewModule then
      manager :: askedManagers heap approved candidates rest
    else
      askedManagers heap approved candidates rest

theorem any_congr_mem {ptrs : List ModulePtr} {first second : ModulePtr → Bool}
    (hsame : ∀ ptr ∈ ptrs, first ptr = second ptr) : ptrs.any first = ptrs.any second := by
  induction ptrs with
  | nil => rfl
  | cons ptr rest ih =>
    rw [List.any_cons, List.any_cons, hsame ptr (List.mem_cons_self ..),
      ih fun other hmem => hsame other (List.mem_cons_of_mem _ hmem)]

theorem askedManagers_congr {heap heap' : Heap} {approved candidates : List ModulePtr}
    (hname : ∀ ptr ∈ candidates, heap'.nameOf ptr = heap.nameOf ptr)
    (hlocks : ∀ ptr ∈ candidates, heap'.locks ptr = heap.locks ptr)
    (managers : List SceneModuleManager) :
    askedManagers heap' approved candidates managers =
      askedManagers heap approved candidates managers := by
  induction managers with
  | nil => rfl
  | cons manager rest ih =>
    have hnamed : candidates.any (fun ptr => decide (heap'.nameOf ptr = manager.name)) =
        candidates.any (fun ptr => decide (heap.nameOf ptr = manager.name)) := by
      refine any_congr_mem fun ptr hmem => ?_
      rw [hname ptr hmem]
    have hlocked : candidates.any
        (fun ptr => decide (heap'.nameOf ptr = manager.name) && heap'.locks ptr) =
        candidates.any (fun ptr => decide (heap.nameOf ptr = manager.name) && heap.locks ptr) := by
      refine any_congr_mem fun ptr hmem => ?_
      rw [hname ptr hmem, hlocks ptr hmem]
    simp only [askedManagers, hnamed, hlocked, ih]

def Launches (before after : SceneModuleManager) : Prop :=
  after = { before with idlingModule := after.idlingModule } ∧
    (before.idlingModule = after.idlingModule ∨ before.idlingModule = none)

theorem Launches.refl (manager : SceneModuleManager) : Launches manager manager :=
  ⟨rfl, .inl rfl⟩

/-- `Consistent` for some of the managers. -/
def ConsistentManagers (heap : Heap) (managers : List SceneModuleManager) : Prop :=
  ∀ name address, (name, some address) ∈ idlings managers →
    address < heap.size ∧ (heap.modules address).name = name

/-- Modules may have been created; the others keep their names. -/
structure Grows (before after : Heap) : Prop where
  size : before.size ≤ after.size
  name : ∀ address, address < before.size →
    (after.modules address).name = (before.modules address).name

theorem Grows.refl (heap : Heap) : Grows heap heap := ⟨Nat.le_refl _, fun _ _ => rfl⟩

theorem Grows.trans {before middle after : Heap} (hfirst : Grows before middle)
    (hsecond : Grows middle after) : Grows before after where
  size := Nat.le_trans hfirst.size hsecond.size
  name := fun address hlt =>
    (hsecond.name address (Nat.lt_of_lt_of_le hlt hfirst.size)).trans (hfirst.name address hlt)

variable {managers : List SceneModuleManager}

theorem ConsistentManagers.grows {before after : Heap}
    (hconsistent : ConsistentManagers before managers) (hgrows : Grows before after) :
    ConsistentManagers after managers := by
  intro name address hmem
  obtain ⟨hlt, hname⟩ := hconsistent name address hmem
  exact ⟨Nat.lt_of_lt_of_le hlt hgrows.size, (hgrows.name address hlt).trans hname⟩

variable {manager : SceneModuleManager} {heap : Heap}

theorem ConsistentManagers.cons
    (hmanager : ∀ address, manager.idlingModule = some address →
      address < heap.size ∧ (heap.modules address).name = manager.name)
    (hrest : ConsistentManagers heap managers) :
    ConsistentManagers heap (manager :: managers) := by
  intro name address hmem
  rcases List.mem_cons.mp hmem with heq | hmem
  · obtain ⟨rfl, hidling⟩ := Prod.mk.inj heq
    exact hmanager address hidling.symm
  · exact hrest name address hmem

theorem getNewModule_spec (hidling : ∀ address, manager.idlingModule = some address →
      address < heap.size ∧ (heap.modules address).name = manager.name) :
    ∃ address launched, manager.getNewModule heap =
        (some address, { manager with idlingModule := some address }, launched) ∧
      address < launched.size ∧ (launched.modules address).name = manager.name ∧
      Grows heap launched ∧
      (∀ other, other ≠ address → launched.modules other = heap.modules other) ∧
      (manager.idlingModule = some address ∨
        (manager.idlingModule = none ∧ address = heap.size)) := by
  unfold SceneModuleManager.getNewModule
  cases hfound : manager.idlingModule with
  | some address =>
    obtain ⟨hlt, hname⟩ := hidling address hfound
    refine ⟨address, heap, ?_, hlt, hname, .refl heap, fun _ _ => rfl, .inl rfl⟩
    dsimp only
    rw [← hfound]
  | none =>
    refine ⟨heap.size, (heap.create manager.name).2, rfl, Nat.lt_succ_self _, ?_,
      ⟨Nat.le_succ _, fun other hlt => ?_⟩, fun other hne => ?_, .inr ⟨rfl, rfl⟩⟩
    · change (Function.update heap.modules heap.size _ heap.size).name = manager.name
      rw [Function.update_self]
    · rw [Heap.modules_create_of_ne heap (Nat.ne_of_lt hlt)]
    · exact Heap.modules_create_of_ne heap hne

/-- What the loop over the managers has done at its end. -/
structure Requested (approved candidates : List ModulePtr)
    (managers : List SceneModuleManager) (requests : List ModulePtr) (heap : Heap)
    (result : List SceneModuleManager × List ModulePtr × Heap) : Prop where
  launches : List.Forall₂ Launches managers result.1
  consistent : ConsistentManagers result.2.2 result.1
  grows : Grows heap result.2.2
  requested : ∀ ptr ∈ result.2.1, ptr ∈ requests ∨ ptr ∈ candidates ∨
    ∃ name address, (name, some address) ∈ idlings result.1 ∧ ptr = some address ∧
      (address < heap.size → ∃ manager ∈ askedManagers heap approved candidates managers,
        manager.idlingModule = some address)

/-- The first iteration of the loop before the others. -/
theorem Requested.cons {approved candidates : List ModulePtr}
    {manager launching : SceneModuleManager} {rest managers : List SceneModuleManager}
    {requests requests' collected : List ModulePtr} {heap heap' last : Heap}
    (hrest : Requested approved candidates rest requests' heap' (managers, collected, last))
    (hgrows : Grows heap heap') (hlaunches : Launches manager launching)
    (hidling : ∀ address, launching.idlingModule = some address →
      address < heap'.size ∧ (heap'.modules address).name = launching.name)
    (hasked : ∀ asked ∈ askedManagers heap' approved candidates rest,
      asked ∈ askedManagers heap approved candidates (manager :: rest))
    (hrequests : ∀ ptr ∈ requests', ptr ∈ requests ∨ ptr ∈ candidates ∨
      ∃ address, launching.idlingModule = some address ∧ ptr = some address ∧
        (address < heap.size → manager.idlingModule = some address ∧
          manager ∈ askedManagers heap approved candidates (manager :: rest))) :
    Requested approved candidates (manager :: rest) requests heap
      (launching :: managers, collected, last) where
  launches := .cons hlaunches hrest.launches
  consistent := by
    refine ConsistentManagers.cons (fun address hfound => ?_) hrest.consistent
    obtain ⟨hlt, hname⟩ := hidling address hfound
    exact ⟨Nat.lt_of_lt_of_le hlt hrest.grows.size, (hrest.grows.name address hlt).trans hname⟩
  grows := hgrows.trans hrest.grows
  requested := by
    intro ptr hmem
    rcases hrest.requested ptr hmem with hbefore | hcandidate | ⟨name, address, hpair, hptr, hold⟩
    · rcases hrequests ptr hbefore with hrequest | hcandidate | ⟨address, hlaunching, hptr, hold⟩
      · exact .inl hrequest
      · exact .inr (.inl hcandidate)
      · refine .inr (.inr ⟨launching.name, address, ?_, hptr, fun hlt => ?_⟩)
        · rw [← hlaunching]
          exact List.mem_cons_self ..
        · obtain ⟨hmanager, hmanagerAsked⟩ := hold hlt
          exact ⟨manager, hmanagerAsked, hmanager⟩
    · exact .inr (.inl hcandidate)
    · refine .inr (.inr ⟨name, address, List.mem_cons_of_mem _ hpair, hptr, fun hlt => ?_⟩)
      obtain ⟨asked, haskedMem, haskedIdling⟩ := hold (Nat.lt_of_lt_of_le hlt hgrows.size)
      exact ⟨asked, hasked asked haskedMem, haskedIdling⟩

theorem askedManagers_of_unnamed {heap launched : Heap}
    {candidates : List ModulePtr} {address : Nat}
    (hidling : ∀ address, manager.idlingModule = some address →
      address < heap.size ∧ (heap.modules address).name = manager.name)
    (hcandidates : ∀ ptr ∈ candidates, ∃ address, ptr = some address ∧ address < heap.size)
    (hany : candidates.any (fun ptr => decide (heap.nameOf ptr = manager.name)) = false)
    (hold : manager.idlingModule = some address ∨
      (manager.idlingModule = none ∧ address = heap.size))
    (hothers : ∀ other, other ≠ address → launched.modules other = heap.modules other)
    (state : ModuleState) (approved : List ModulePtr)
    (managers : List SceneModuleManager) :
    askedManagers (launched.answer address state) approved candidates managers =
      askedManagers heap approved candidates managers := by
  have hunchanged : ∀ ptr ∈ candidates, ∃ other, ptr = some other ∧
      (launched.answer address state).modules other = heap.modules other := by
    intro ptr hmem
    obtain ⟨other, rfl, hlt⟩ := hcandidates ptr hmem
    have hne : other ≠ address := by
      rintro rfl
      rcases hold with hidle | ⟨_, hfresh⟩
      · have hnot := List.any_eq_false.mp hany _ hmem
        exact hnot (decide_eq_true (hidling other hidle).2)
      · exact Nat.ne_of_lt hlt hfresh
    refine ⟨other, rfl, ?_⟩
    rw [Heap.modules_answer_of_ne _ hne, hothers other hne]
  refine askedManagers_congr (fun ptr hmem => ?_) (fun ptr hmem => ?_) managers
  · obtain ⟨other, rfl, hsame⟩ := hunchanged ptr hmem
    exact congrArg SceneModule.name hsame
  · obtain ⟨other, rfl, hsame⟩ := hunchanged ptr hmem
    exact congrArg (fun found => found.state.isLockedNewModuleLaunch) hsame

theorem requestLoop_succeeds (approved candidates : List ModulePtr) (previous : Out)
    {requests : List ModulePtr} (hconsistent : ConsistentManagers heap managers)
    (hcandidates : ∀ ptr ∈ candidates, ∃ address, ptr = some address ∧ address < heap.size) :
    Succeeds (requestLoop env approved candidates previous managers requests heap)
      (Requested approved candidates managers requests heap) := by
  induction managers generalizing requests heap with
  | nil =>
    exact .ok ⟨.nil, hconsistent, .refl heap, fun ptr hmem => .inl hmem⟩
  | cons manager rest ih =>
    have hrestConsistent : ConsistentManagers heap rest :=
      fun name address hmem => hconsistent name address (List.mem_cons_of_mem _ hmem)
    have hidling : ∀ address, manager.idlingModule = some address →
        address < heap.size ∧ (heap.modules address).name = manager.name := by
      intro address hfound
      refine hconsistent manager.name address ?_
      rw [← hfound]
      exact List.mem_cons_self ..
    -- an iteration that asks nobody and collects at most a candidate
    have hskip (requests' : List ModulePtr)
        (hrequests : ∀ ptr ∈ requests', ptr ∈ requests ∨ ptr ∈ candidates)
        (hasked : ∀ asked ∈ askedManagers heap approved candidates rest,
          asked ∈ askedManagers heap approved candidates (manager :: rest)) :
        Succeeds (requestLoop env approved candidates previous rest requests' heap >>=
            fun result => pure (manager :: result.1, result.2.1, result.2.2))
          (Requested approved candidates (manager :: rest) requests heap) := by
      refine (ih hrestConsistent hcandidates).bind ?_
      rintro ⟨managers, collected, last⟩ hpost
      exact .ok (hpost.cons (.refl heap) (.refl manager) hidling hasked
        fun ptr hmem => (hrequests ptr hmem).imp_right .inl)
    rw [requestLoop]
    cases hblocked : !approved.isEmpty &&
        !manager.isSimultaneousExecutableAsApprovedModule with
    | true =>
      refine hskip requests (fun ptr hmem => .inl hmem) fun asked hmem => ?_
      rw [askedManagers, hblocked]
      exact hmem
    | false =>
      have hname : ∀ ptr ∈ candidates,
          (do return decide ((← heap.name ptr) = manager.name) : Except Error Bool) =
            .ok (decide (heap.nameOf ptr = manager.name)) := by
        intro ptr hmem
        obtain ⟨address, rfl, _⟩ := hcandidates ptr hmem
        rfl
      have hlocked : ∀ ptr ∈ candidates,
          (do return (← (do return decide ((← heap.name ptr) = manager.name))) &&
              (← heap.isLockedNewModuleLaunch ptr) : Except Error Bool) =
            .ok (decide (heap.nameOf ptr = manager.name) && heap.locks ptr) := by
        intro ptr hmem
        obtain ⟨address, rfl, _⟩ := hcandidates ptr hmem
        rfl
      simp only [Bool.false_eq_true, if_false]
      rcases findIf_cases hname with ⟨hany, hfind⟩ |
        ⟨hany, before, candidate, after, hfind, hcandidate⟩
      · refine Succeeds.bind_eq hfind ?_
        dsimp only
        cases hlaunch : manager.canLaunchNewModule with
        | false =>
          refine hskip requests (fun ptr hmem => .inl hmem) fun asked hmem => ?_
          rw [askedManagers, hblocked, hany, hlaunch]
          exact hmem
        | true =>
          obtain ⟨address, launched, hnew, hlt, hnewName, hgrows, hothers, hold⟩ :=
            getNewModule_spec hidling
          let asked := launched.answer address
            (env.behavior.updateData launched.calls address (launched.modules address).state)
          have hprogram : SceneModuleManager.isExecutionRequested env.behavior launched
              (some address) previous =
              .ok (env.behavior.isExecutionRequested asked.calls address previous, asked) := rfl
          have hasked : Grows heap asked :=
            hgrows.trans ⟨Nat.le_refl _, fun _ _ => Heap.name_answer _ _ _ _⟩
          have hsame := askedManagers_of_unnamed hidling hcandidates hany hold hothers
            (env.behavior.updateData launched.calls address
              (launched.modules address).state) approved rest
          have hcons : askedManagers heap approved candidates (manager :: rest) =
              manager :: askedManagers heap approved candidates rest := by
            rw [askedManagers, hblocked, hany, hlaunch]
            rfl
          rw [hnew]
          dsimp only
          refine Succeeds.bind_eq hprogram ?_
          dsimp only
          refine (ih (hrestConsistent.grows hasked) ?_).bind ?_
          · intro ptr hmem
            obtain ⟨other, hother, hotherLt⟩ := hcandidates ptr hmem
            exact ⟨other, hother, Nat.lt_of_lt_of_le hotherLt hasked.size⟩
          rintro ⟨managers, collected, last⟩ hpost
          refine .ok (hpost.cons hasked ⟨rfl, ?_⟩ ?_ ?_ ?_)
          · exact hold.imp_right And.left
          · rintro other hother
            cases hother
            exact ⟨hlt, (Heap.name_answer _ _ _ _).trans hnewName⟩
          · intro other hmem
            rw [hsame] at hmem
            rw [hcons]
            exact List.mem_cons_of_mem _ hmem
          · intro ptr hmem
            have hcollected : ptr ∈ requests ∨ ptr = some address := by
              split at hmem
              · exact (List.mem_append.mp hmem).imp_right List.mem_singleton.mp
              · exact .inl hmem
            refine hcollected.imp_right fun hptr => .inr ⟨address, rfl, hptr, ?_⟩
            intro hsmall
            refine ⟨?_, hcons ▸ List.mem_cons_self ..⟩
            rcases hold with hidle | ⟨_, hfresh⟩
            · exact hidle
            · exact absurd (hfresh ▸ hsmall) (Nat.lt_irrefl _)
      · refine Succeeds.bind_eq hfind ?_
        dsimp only
        rcases findIf_cases hlocked with ⟨hanyLocked, hfindLocked⟩ |
          ⟨hanyLocked, beforeLocked, blocking, afterLocked, hfindLocked, hblocking⟩
        · refine Succeeds.bind_eq hfindLocked ?_
          refine hskip (requests ++ [candidate]) (fun ptr hmem => ?_) fun asked hmem => ?_
          · rcases List.mem_append.mp hmem with hbefore | hnew
            · exact .inl hbefore
            · rw [List.mem_singleton.mp hnew]
              exact .inr hcandidate
          · rw [askedManagers, hblocked, hany, hanyLocked]
            exact hmem
        · refine Succeeds.bind_eq hfindLocked ?_
          refine .ok ⟨?_, hconsistent, .refl heap, fun ptr hmem => ?_⟩
          · exact List.forall₂_same.mpr fun other _ => .refl other
          · rw [List.mem_singleton.mp hmem]
            exact .inr (.inl hblocking)

/-- Whether an approved module does not allow further approved modules. -/
def blocksApproved (self : PlannerManager) : Bool :=
  self.approvedModules.any fun ptr =>
    match findKey SceneModuleManager.name (self.heap.nameOf ptr) self.managers with
    | some manager => !manager.isSimultaneousExecutableAsApprovedModule
    | none => false

def asked (self : PlannerManager) : List SceneModuleManager :=
  if self.blocksApproved then []
  else askedManagers self.heap self.approvedModules self.candidateModules self.managers

/-- Idling modules may have been created; the lists are unchanged. -/
structure Launched (before after : PlannerManager) : Prop where
  lists : SameLists before after
  managers : List.Forall₂ Launches before.managers after.managers
  consistent : after.Consistent
  grows : Grows before.heap after.heap

theorem exists_of_forall₂_left {α β : Type} {related : α → β → Prop} {first : List α}
    {second : List β} (hrelated : List.Forall₂ related first second) {value : α}
    (hmem : value ∈ first) : ∃ other ∈ second, related value other := by
  induction hrelated with
  | nil => cases hmem
  | cons hhead _ ih =>
    rcases List.mem_cons.mp hmem with rfl | hrest
    · exact ⟨_, List.mem_cons_self .., hhead⟩
    · obtain ⟨other, hother, hsame⟩ := ih hrest
      exact ⟨other, List.mem_cons_of_mem _ hother, hsame⟩

theorem exists_of_forall₂_right {α β : Type} {related : α → β → Prop} {first : List α}
    {second : List β} (hrelated : List.Forall₂ related first second) {value : β}
    (hmem : value ∈ second) : ∃ other ∈ first, related other value :=
  exists_of_forall₂_left hrelated.flip hmem

theorem map_eq_of_forall₂ {α β γ : Type} {related : α → β → Prop} {view : α → γ}
    {view' : β → γ} (hview : ∀ value other, related value other → view' other = view value)
    {first : List α} {second : List β} (hrelated : List.Forall₂ related first second) :
    second.map view' = first.map view := by
  induction hrelated with
  | nil => rfl
  | cons hhead _ ih => rw [List.map_cons, List.map_cons, ih, hview _ _ hhead]

namespace Launched

variable {before after : PlannerManager} {ptr : ModulePtr} (hlaunched : Launched before after)

include hlaunched

theorem owned (howned : before.Owned ptr) : after.Owned ptr := by
  obtain ⟨name, address, hmem, rfl⟩ := howned
  obtain ⟨manager, hmanager, rfl, hidling⟩ := exists_of_mem_idlings hmem
  obtain ⟨launching, hlaunching, heq, hkept⟩ := exists_of_forall₂_left hlaunched.managers hmanager
  have hsame : launching.idlingModule = some address := by
    rcases hkept with hsame | hnone
    · rw [← hsame, hidling]
    · rw [hidling] at hnone
      cases hnone
  refine ⟨launching.name, address, ?_, rfl⟩
  rw [← hsame]
  exact mem_idlings hlaunching

theorem registered (hregistered : after.Registered ptr) : before.Registered ptr := by
  obtain ⟨launching, hlaunching, hptr⟩ := hregistered
  obtain ⟨manager, hmanager, heq, _⟩ := exists_of_forall₂_right hlaunched.managers hlaunching
  rw [heq] at hptr
  exact ⟨manager, hmanager, hptr⟩

theorem nameOf (hconsistent : before.Consistent) (howned : before.Owned ptr) :
    after.heap.nameOf ptr = before.heap.nameOf ptr := by
  obtain ⟨name, address, hmem, rfl⟩ := howned
  exact hlaunched.grows.name address (hconsistent name address hmem).1

theorem separate (howned : ∀ ptr, before.Registered ptr → before.Owned ptr)
    (hseparate : before.Separate) : after.Separate where
  names := by
    have hname : ∀ manager launching, Launches manager launching →
        launching.name = manager.name := by
      intro manager launching hlaunches
      rw [hlaunches.1]
    rw [map_eq_of_forall₂ hname hlaunched.managers]
    exact hseparate.names
  nodup := by
    intro launching hlaunching
    obtain ⟨manager, hmanager, heq, _⟩ := exists_of_forall₂_right hlaunched.managers hlaunching
    rw [heq]
    exact hseparate.nodup manager hmanager
  idling := by
    intro launching hlaunching ptr hptr
    obtain ⟨manager, hmanager, heq, hkept⟩ := exists_of_forall₂_right hlaunched.managers hlaunching
    rw [heq] at hptr
    have hidling := hseparate.idling manager hmanager ptr hptr
    obtain ⟨_, address, _, hsome⟩ := howned ptr ⟨manager, hmanager, hptr⟩
    rcases hkept with hsame | hnone
    · rw [hidling, hsame]
    · rw [hidling, hnone] at hsome
      cases hsome

end Launched

theorem getRequestModules_succeeds {self : PlannerManager} (hconsistent : self.Consistent)
    (hheld : ∀ ptr ∈ self.approvedModules, self.Owned ptr)
    (hcandidates : ∀ ptr ∈ self.candidateModules, self.Owned ptr) (previous : Out) :
    Succeeds (self.getRequestModules env previous) fun result =>
      Launched self result.2 ∧ ∀ ptr ∈ result.1, result.2.Owned ptr ∧ (ptr ∈ self.candidateModules ∨
          (self.Owned ptr → ∃ manager ∈ self.asked, manager.idlingModule = ptr)) := by
  have hblocks : ∀ ptr ∈ self.approvedModules,
      (do return !(← self.getManager ptr).isSimultaneousExecutableAsApprovedModule :
        Except Error Bool) =
      .ok (match findKey SceneModuleManager.name (self.heap.nameOf ptr) self.managers with
        | some manager => !manager.isSimultaneousExecutableAsApprovedModule
        | none => false) := by
    intro ptr hmem
    obtain ⟨manager, hget, hfound⟩ := getManager_of_owned hconsistent (hheld ptr hmem)
    rw [hget, hfound]
    rfl
  refine Succeeds.bind_eq (exists?_eq hblocks) ?_
  cases hblocked : self.blocksApproved with
  | true =>
    unfold blocksApproved at hblocked
    rw [hblocked]
    refine .ok ⟨⟨.refl self, ?_, hconsistent, .refl _⟩, fun ptr hmem => ?_⟩
    · exact List.forall₂_same.mpr fun other _ => .refl other
    · cases hmem
  | false =>
    have hasked : self.asked =
        askedManagers self.heap self.approvedModules self.candidateModules self.managers := by
      rw [asked, hblocked]
      rfl
    unfold blocksApproved at hblocked
    rw [hblocked]
    have hallocated : ∀ ptr ∈ self.candidateModules,
        ∃ address, ptr = some address ∧ address < self.heap.size := by
      intro ptr hmem
      obtain ⟨name, address, hpair, rfl⟩ := hcandidates ptr hmem
      exact ⟨address, rfl, (hconsistent name address hpair).1⟩
    refine (requestLoop_succeeds env self.approvedModules self.candidateModules previous
      hconsistent hallocated).bind ?_
    rintro ⟨managers, requests, heap⟩ hrequested
    have hlaunched : Launched self { self with managers := managers, heap := heap } :=
      ⟨⟨rfl, rfl, rfl⟩, hrequested.launches, hrequested.consistent, hrequested.grows⟩
    refine .ok ⟨hlaunched, fun ptr hmem => ?_⟩
    rcases hrequested.requested ptr hmem with hnil | hcandidate | ⟨name, address, hpair, rfl, hold⟩
    · cases hnil
    · exact ⟨hlaunched.owned (hcandidates ptr hcandidate), .inl hcandidate⟩
    · refine ⟨⟨name, address, hpair, rfl⟩, .inr ?_⟩
      rintro ⟨ownerName, other, hother, heq⟩
      cases heq
      rw [hasked]
      exact hold (hconsistent ownerName address hother).1

end

/-!
## What running the requested modules does

The executable modules are registered and run.  Those that expire are deleted,
and the others are on the list of candidates afterwards, except for the one
that is approved; candidates that were not executed are deleted.
-/

variable {self : PlannerManager} {ptrs : List ModulePtr}

section

variable (hconsistent : self.Consistent)

include hconsistent

theorem mapM_priority_succeeds (howned : ∀ ptr ∈ ptrs, self.Owned ptr) :
    Succeeds (ptrs.mapM fun ptr => (do
      let manager ← self.getManager ptr
      return (manager.priority, ptr) : Except Error (Nat × ModulePtr)))
      fun prioritized => prioritized.map Prod.snd = ptrs := by
  induction ptrs with
  | nil => exact .ok rfl
  | cons ptr rest ih =>
    obtain ⟨manager, hget, _⟩ :=
      getManager_of_owned hconsistent (howned ptr (List.mem_cons_self ..))
    rw [List.mapM_cons, hget]
    refine (ih fun other hmem => howned other (List.mem_cons_of_mem _ hmem)).bind ?_
    intro prioritized hprioritized
    exact .ok (congrArg (ptr :: ·) hprioritized)

theorem sortByPriority_succeeds (howned : ∀ ptr ∈ ptrs, self.Owned ptr) :
    Succeeds (self.sortByPriority env ptrs) fun sorted => sorted.Perm ptrs := by
  unfold sortByPriority
  split
  · exact .ok (List.Perm.refl ptrs)
  · refine (mapM_priority_succeeds hconsistent howned).bind ?_
    intro prioritized hprioritized
    refine .ok ?_
    have hperm := (env.prioritySort.perm prioritized).map Prod.snd
    rw [hprioritized] at hperm
    exact hperm

theorem selectHighestPriorityModule_succeeds
    (howned : ∀ ptr ∈ ptrs, self.Owned ptr) (hne : ptrs ≠ []) :
    Succeeds (self.selectHighestPriorityModule env ptrs) (· ∈ ptrs) := by
  refine (sortByPriority_succeeds env hconsistent howned).bind ?_
  intro sorted hperm
  cases sorted with
  | nil => exact absurd hperm.symm.eq_nil hne
  | cons first rest => exact .ok (hperm.subset (List.mem_cons_self ..))

theorem executableLoop_succeeds {ptrs executable : List ModulePtr}
    (hptrs : ∀ ptr ∈ ptrs, self.Owned ptr) (hexecutable : ∀ ptr ∈ executable, self.Owned ptr) :
    Succeeds (self.executableLoop ptrs executable) fun result =>
      ∀ ptr ∈ result, ptr ∈ executable ∨ ptr ∈ ptrs := by
  induction ptrs generalizing executable with
  | nil => exact .ok fun ptr hmem => .inl hmem
  | cons ptr rest ih =>
    have hptr := hptrs ptr (List.mem_cons_self ..)
    obtain ⟨manager, hget, _⟩ := getManager_of_owned hconsistent hptr
    unfold executableLoop
    refine Succeeds.bind_eq hget ?_
    split
    · exact .ok fun other hmem => .inr (List.mem_singleton.mp hmem ▸ List.mem_cons_self ..)
    · have hblocks : ∀ other ∈ executable, ∃ found,
          (do return !(← self.getManager other).isSimultaneousExecutableAsCandidateModule :
            Except Error Bool) = .ok found := by
        intro other hmem
        obtain ⟨owner, howner, _⟩ := getManager_of_owned hconsistent (hexecutable other hmem)
        exact ⟨_, by rw [howner]; rfl⟩
      obtain ⟨blocked, hblocked⟩ := exists?_succeeds hblocks
      refine Succeeds.bind_eq hblocked ?_
      have hnext : ∀ other ∈ (if blocked then executable else executable ++ [ptr]),
          other ∈ executable ∨ other = ptr := by
        intro other hmem
        split at hmem
        · exact .inl hmem
        · exact (List.mem_append.mp hmem).imp_right List.mem_singleton.mp
      refine (ih (fun other hmem => hptrs other (List.mem_cons_of_mem _ hmem)) ?_).mono ?_
      · intro other hmem
        rcases hnext other hmem with hold | rfl
        · exact hexecutable other hold
        · exact hptr
      · intro result hresult other hmem
        rcases hresult other hmem with hbefore | hrest
        · rcases hnext other hbefore with hold | rfl
          · exact .inl hold
          · exact .inr (List.mem_cons_self ..)
        · exact .inr (List.mem_cons_of_mem _ hrest)

/-! ## Executing -/

theorem registerIfNew_succeeds {ptr : ModulePtr} (howned : self.Owned ptr) :
    Succeeds (self.registerIfNew env ptr) fun after =>
      SameLists self after ∧ Part self after (· = ptr) (fun _ => False) := by
  obtain ⟨manager, hget, hfound⟩ := getManager_of_owned hconsistent howned
  refine Succeeds.bind_eq hget ?_
  cases hexist : manager.exist ptr with
  | true =>
    exact .ok ⟨.refl self, (Part.refl self).weaken (fun _ hfalse => hfalse.elim) fun _ => id⟩
  | false =>
    have hnew : ptr ∉ manager.registeredModules := of_decide_eq_false hexist
    have hmanager := mem_of_findKey SceneModuleManager.name hfound
    have hname := key_of_findKey SceneModuleManager.name hfound
    have hidling : self.Separate → ptr = manager.idlingModule := by
      intro hseparate
      obtain ⟨name, address, hmem, rfl⟩ := howned
      obtain ⟨owner, howner, hownerName, hownerIdling⟩ := exists_of_mem_idlings hmem
      have hsame : owner = manager := by
        refine List.inj_on_of_nodup_map hseparate.names howner hmanager ?_
        rw [hownerName, hname]
        exact (hconsistent name address hmem).2.symm
      rw [← hsame, hownerIdling]
    obtain ⟨name, address, hmem, rfl⟩ := howned
    let state := env.behavior.processOnEntry self.heap.calls address
      { (self.heap.modules address).state with currentState := .idle }
    let entered : PlannerManager := { self with heap := self.heap.answer address state }
    have hentered : Part self entered (fun _ => False) (fun _ => False) :=
      part_answer self address state
    have hpart : Part entered (entered.setManager
        { manager with registeredModules := manager.registeredModules ++ [some address] }
        entered.heap) (· = some address) (fun _ => False) := by
      have henteredFound : findKey SceneModuleManager.name
          (self.heap.nameOf (some address)) entered.managers = some manager := hfound
      refine part_setManager henteredFound ?_ ?_ fun _ _ hfalse => hfalse.elim
      · intro other hother
        exact (List.mem_append.mp hother).imp_right List.mem_singleton.mp
      · intro hseparate
        refine ⟨?_, fun other hother => ?_⟩
        · refine List.Nodup.append (hseparate.nodup manager hmanager) (List.nodup_singleton _) ?_
          intro other hold hadded
          rw [List.mem_singleton.mp hadded] at hold
          exact hnew hold
        · rcases List.mem_append.mp hother with hold | hadded
          · exact hseparate.idling manager hmanager other hold
          · rw [List.mem_singleton.mp hadded]
            exact hidling ⟨hseparate.names, hseparate.nodup, hseparate.idling⟩
    refine .ok ⟨⟨rfl, rfl, rfl⟩, (hentered.trans hpart).weaken ?_ fun _ hfalse => hfalse.elim⟩
    exact fun _ hadded => hadded.elim False.elim id

end

theorem executeRequestModules_succeeds (previous : Out) (hconsistent : self.Consistent)
    (howned : ∀ ptr ∈ ptrs, self.Owned ptr) (results : List (String × Out)) :
    Succeeds (ptrs.foldlM (executeRequestModule env previous) (results, self)) fun result =>
      SameLists self result.2 ∧ Part self result.2 (· ∈ ptrs) (fun _ => False) ∧
        (∀ name, findKey Prod.fst name results ≠ none → findKey Prod.fst name result.1 ≠ none) ∧
        ∀ ptr ∈ ptrs, findKey Prod.fst (self.heap.nameOf ptr) result.1 ≠ none := by
  induction ptrs generalizing self results with
  | nil =>
    refine .ok ⟨.refl self, (Part.refl self).weaken (fun _ hfalse => hfalse.elim)
      fun _ => id, fun _ => id, fun ptr hmem => ?_⟩
    cases hmem
  | cons ptr rest ih =>
    rw [List.foldlM_cons]
    have hptr := howned ptr (List.mem_cons_self ..)
    have hone : Succeeds (executeRequestModule env previous (results, self) ptr)
        fun result => SameLists self result.2 ∧
          Part self result.2 (· = ptr) (fun _ => False) ∧
          ∃ output, result.1 = emplace results (self.heap.nameOf ptr) output := by
      refine (registerIfNew_succeeds env hconsistent hptr).bind ?_
      rintro registered ⟨hlists, hpart⟩
      refine (runModule_succeeds env (hpart.owned hptr) previous).bind ?_
      rintro ⟨output, ran⟩ ⟨hlists', hpart'⟩
      have hran := hpart.trans hpart'
      refine Succeeds.bind_eq (name_of_owned (hran.owned hptr)) ?_
      refine .ok ⟨hlists.trans hlists', hran.weaken ?_ (fun _ hfalse => hfalse.elim), output, ?_⟩
      · exact fun _ hadded => hadded.elim id False.elim
      · rw [hran.nameOf]
    refine hone.bind ?_
    rintro ⟨results', middle⟩ ⟨hlists, hpart, output, rfl⟩
    refine (ih (hpart.consistent hconsistent)
      (fun other hmem => hpart.owned (howned other (List.mem_cons_of_mem _ hmem)))
      (emplace results (self.heap.nameOf ptr) output)).mono ?_
    rintro ⟨collected, after⟩ ⟨hlists', hpart', hkept, hnew⟩
    refine ⟨hlists.trans hlists', (hpart.trans hpart').weaken ?_ fun _ hfalse => hfalse.elim,
      fun name hname => hkept name (findKey_emplace_ne_none (.inr hname)), ?_⟩
    · rintro other (rfl | hmem)
      · exact List.mem_cons_self ..
      · exact List.mem_cons_of_mem _ hmem
    · intro other hmem
      rcases List.mem_cons.mp hmem with rfl | hrest
      · exact hkept _ (findKey_emplace_ne_none (.inl rfl))
      · rw [← hpart.nameOf]
        exact hnew other hrest

theorem removeExpired_succeeds (hconsistent : self.Consistent)
    (howned : ∀ ptr ∈ ptrs, self.Owned ptr) :
    Succeeds (removeIf (removeExpired env) ptrs self) fun result =>
      SameLists self result.2 ∧ (∀ ptr ∈ result.1, ptr ∈ ptrs) ∧
        Part self result.2 (fun _ => False) (fun ptr => ptr ∈ ptrs ∧ ptr ∉ result.1) := by
  induction ptrs generalizing self with
  | nil =>
    refine .ok ⟨.refl self, fun _ => id, (Part.refl self).weaken (fun _ => id) ?_⟩
    rintro ptr ⟨hmem, _⟩
    cases hmem
  | cons ptr rest ih =>
    have hptr := howned ptr (List.mem_cons_self ..)
    have hrest : ∀ other ∈ rest, self.Owned other :=
      fun other hmem => howned other (List.mem_cons_of_mem _ hmem)
    obtain ⟨status, hstatus⟩ := getCurrentStatus_of_owned hptr
    unfold removeIf
    by_cases hexpired : status = .failure ∨ status = .success
    · have hone : Succeeds (removeExpired env ptr self) fun result =>
          result.1 = true ∧ SameLists self result.2 ∧
            Part self result.2 (fun _ => False) (· = ptr) := by
        unfold removeExpired
        refine Succeeds.bind_eq hstatus ?_
        rw [if_pos hexpired]
        refine (deleteExpiredModules_succeeds env hconsistent hptr).bind ?_
        rintro after ⟨hlists, hpart, _⟩
        exact .ok ⟨rfl, hlists, hpart⟩
      refine hone.bind ?_
      rintro ⟨_, middle⟩ ⟨rfl, hlists, hpart⟩
      refine (ih (hpart.consistent hconsistent)
        fun other hmem => hpart.owned (hrest other hmem)).bind ?_
      rintro ⟨kept, after⟩ ⟨hlists', hkept, hpart'⟩
      refine .ok ⟨hlists.trans hlists',
        fun other hmem => List.mem_cons_of_mem _ (hkept other hmem),
        (hpart.trans hpart').weaken (fun _ hadded => hadded.elim id id) ?_⟩
      rintro other ⟨hmem, hnot⟩
      rcases List.mem_cons.mp hmem with rfl | hlater
      · exact .inr ⟨rfl, id⟩
      · exact .inl ⟨hlater, hnot⟩
    · have hone : removeExpired env ptr self = .ok (false, self) := by
        unfold removeExpired
        rw [hstatus]
        change (if status = .failure ∨ status = .success then _ else _) = _
        rw [if_neg hexpired]
        rfl
      refine Succeeds.bind_eq hone ?_
      refine (ih hconsistent hrest).bind ?_
      rintro ⟨kept, after⟩ ⟨hlists, hkept, hpart⟩
      refine .ok ⟨hlists, fun other hmem => ?_, hpart.weaken (fun _ => id) ?_⟩
      · rcases List.mem_cons.mp hmem with rfl | hlater
        · exact List.mem_cons_self ..
        · exact List.mem_cons_of_mem _ (hkept other hlater)
      · rintro other ⟨hmem, hnot⟩
        have hne : other ≠ ptr := fun heq => hnot (heq ▸ List.mem_cons_self ..)
        refine ⟨(List.mem_cons.mp hmem).resolve_left hne, fun hlater => ?_⟩
        exact hnot (List.mem_cons_of_mem _ hlater)

theorem separate_succeeds {condition : ModulePtr → Except Error Bool}
    (hcondition : ∀ ptr ∈ ptrs, ∃ met, condition ptr = .ok met) :
    Succeeds (separate condition ptrs) fun result =>
      ∀ ptr, ptr ∈ ptrs ↔ ptr ∈ result.1 ∨ ptr ∈ result.2 := by
  induction ptrs with
  | nil => exact .ok fun ptr => by simp
  | cons ptr rest ih =>
    obtain ⟨met, hmet⟩ := hcondition ptr (List.mem_cons_self ..)
    unfold separate
    refine Succeeds.bind_eq hmet ?_
    refine (ih fun other hmem => hcondition other (List.mem_cons_of_mem _ hmem)).bind ?_
    rintro ⟨meeting, others⟩ hsplit
    cases met with
    | true =>
      refine .ok fun other => ?_
      rw [List.mem_cons, hsplit other]
      simp [or_assoc]
    | false =>
      refine .ok fun other => ?_
      rw [List.mem_cons, hsplit other]
      simp [or_left_comm]

/-! ## Updating the candidates -/

def approvedName (heap : Heap) (highest ptr : ModulePtr) : Bool :=
  decide (heap.nameOf ptr = heap.nameOf highest) && !heap.waits highest

theorem existName_of_owned {ptr : ModulePtr}
    (hptr : self.Owned ptr) (howned : ∀ other ∈ ptrs, self.Owned other) :
    self.existName ptr ptrs =
      .ok (ptrs.any fun other => decide (self.heap.nameOf other = self.heap.nameOf ptr)) := by
  refine exists?_eq fun other hmem => ?_
  rw [name_of_owned (howned other hmem), name_of_owned hptr]
  rfl

theorem isApprovedName_of_owned {highest ptr : ModulePtr}
    (hhighest : self.Owned highest) (hptr : self.Owned ptr) :
    self.isApprovedName highest ptr = .ok (approvedName self.heap highest ptr) := by
  unfold isApprovedName approvedName
  rw [name_of_owned hptr, name_of_owned hhighest, isWaitingApproval_of_owned hhighest]
  by_cases hname : self.heap.nameOf ptr = self.heap.nameOf highest
  · simp [hname, bind, Except.bind, pure, Except.pure]
  · simp [hname, bind, Except.bind, pure, Except.pure]

def NameIn (heap : Heap) (requests : List ModulePtr) (ptr : ModulePtr) : Prop :=
  ∃ request ∈ requests, heap.nameOf request = heap.nameOf ptr

variable {requests : List ModulePtr} {highest : ModulePtr}

theorem removeCandidates_succeeds (hhighest : highest ∈ requests)
    (hconsistent : self.Consistent) (hrequests : ∀ ptr ∈ requests, self.Owned ptr)
    {candidates : List ModulePtr} (hcandidates : ∀ ptr ∈ candidates, self.Owned ptr) :
    Succeeds (removeIf (candidateToRemove env requests highest) candidates self)
      fun result =>
        SameLists self result.2 ∧ result.1.Sublist candidates ∧
          Part self result.2 (fun _ => False)
            (fun ptr => ptr ∈ candidates ∧ ¬ NameIn self.heap requests ptr) ∧
          (∀ ptr ∈ candidates, NameIn self.heap requests ptr →
            approvedName self.heap highest ptr = false → ptr ∈ result.1) ∧
          result.2.heap.waits highest = self.heap.waits highest := by
  induction candidates generalizing self with
  | nil =>
    refine .ok ⟨.refl self, List.Sublist.refl _, (Part.refl self).weaken (fun _ => id) ?_,
      fun ptr hmem => ?_, rfl⟩
    · rintro ptr ⟨hmem, _⟩
      cases hmem
    · cases hmem
  | cons ptr rest ih =>
    have hptr := hcandidates ptr (List.mem_cons_self ..)
    have hrest : ∀ other ∈ rest, self.Owned other :=
      fun other hmem => hcandidates other (List.mem_cons_of_mem _ hmem)
    have hhighestOwned := hrequests highest hhighest
    unfold removeIf
    by_cases hnamed : NameIn self.heap requests ptr
    · have hany : requests.any
          (fun other => decide (self.heap.nameOf other = self.heap.nameOf ptr)) = true := by
        obtain ⟨request, hrequest, hname⟩ := hnamed
        exact List.any_eq_true.mpr ⟨request, hrequest, decide_eq_true hname⟩
      have hone : candidateToRemove env requests highest ptr self =
          .ok (approvedName self.heap highest ptr, self) := by
        unfold candidateToRemove
        rw [existName_of_owned hptr hrequests, hany, isApprovedName_of_owned hhighestOwned hptr]
        rfl
      refine Succeeds.bind_eq hone ?_
      refine (ih hconsistent hrequests hrest).bind ?_
      rintro ⟨kept, after⟩ ⟨hlists, hsublist, hpart, hkept, hwaits⟩
      refine .ok ⟨hlists, ?_, hpart.weaken (fun _ => id) ?_, ?_, hwaits⟩
      · split
        · exact hsublist.cons _
        · exact hsublist.cons_cons _
      · rintro other ⟨hmem, hnot⟩
        refine ⟨(List.mem_cons.mp hmem).resolve_left fun heq => ?_, hnot⟩
        exact hnot (heq ▸ hnamed)
      · intro other hmem hin happroved
        rcases List.mem_cons.mp hmem with rfl | hlater
        · rw [happroved]
          exact List.mem_cons_self ..
        · have hmemKept := hkept other hlater hin happroved
          split
          · exact hmemKept
          · exact List.mem_cons_of_mem _ hmemKept
    · have hany : requests.any
          (fun other => decide (self.heap.nameOf other = self.heap.nameOf ptr)) = false := by
        refine List.any_eq_false.mpr fun request hrequest hname => hnamed ?_
        exact ⟨request, hrequest, of_decide_eq_true hname⟩
      have hone : Succeeds (candidateToRemove env requests highest ptr self) fun result =>
          result.1 = true ∧ SameLists self result.2 ∧
            Part self result.2 (fun _ => False) (· = ptr) ∧
            result.2.heap.waits highest = self.heap.waits highest := by
        unfold candidateToRemove
        refine Succeeds.bind_eq (existName_of_owned hptr hrequests) ?_
        rw [hany]
        refine (deleteExpiredModules_succeeds env hconsistent hptr).bind ?_
        rintro after ⟨hlists, hpart, hmodules⟩
        refine .ok ⟨rfl, hlists, hpart, ?_⟩
        -- the highest priority module is requested, so it is not the deleted one
        obtain ⟨name, address, hmem, rfl⟩ := hhighestOwned
        have hne : some address ≠ ptr := by
          rintro rfl
          exact hnamed ⟨_, hhighest, rfl⟩
        exact congrArg (fun found => found.state.isWaitingApproval) (hmodules address hne)
      refine hone.bind ?_
      rintro ⟨_, middle⟩ ⟨rfl, hlists, hpart, hwaits⟩
      have hnameIn : ∀ other, NameIn middle.heap requests other ↔
          NameIn self.heap requests other := by
        intro other
        simp only [NameIn, hpart.nameOf]
      have happrovedName : ∀ other, approvedName middle.heap highest other =
          approvedName self.heap highest other := by
        intro other
        simp only [approvedName, hpart.nameOf, hwaits]
      refine (ih (hpart.consistent hconsistent)
        (fun other hmem => hpart.owned (hrequests other hmem))
        (fun other hmem => hpart.owned (hrest other hmem))).bind ?_
      rintro ⟨kept, after⟩ ⟨hlists', hsublist, hpart', hkept, hwaits'⟩
      refine .ok ⟨hlists.trans hlists', hsublist.cons _,
        (hpart.trans hpart').weaken (fun _ hadded => hadded.elim id id) ?_, ?_,
        hwaits'.trans hwaits⟩
      · rintro other ⟨hmem, hnot⟩
        rcases List.mem_cons.mp hmem with rfl | hlater
        · exact .inr ⟨rfl, id⟩
        · exact .inl ⟨hlater, fun hin => hnot ((hnameIn other).mp hin)⟩
      · intro other hmem hin happroved
        rcases List.mem_cons.mp hmem with rfl | hlater
        · exact absurd hin hnamed
        · exact hkept other hlater ((hnameIn other).mpr hin) ((happrovedName other).trans happroved)

theorem pushCandidates_succeeds (hhighest : self.Owned highest)
    (hrequests : ∀ ptr ∈ requests, self.Owned ptr) {candidates : List ModulePtr}
    (hcandidates : ∀ ptr ∈ candidates, self.Owned ptr) :
    Succeeds (requests.foldlM (self.pushCandidates highest) candidates) fun pushed =>
      (∀ ptr ∈ pushed, ptr ∈ candidates ∨ ptr ∈ requests) ∧
        ((candidates.map self.heap.nameOf).Nodup → (pushed.map self.heap.nameOf).Nodup) ∧
        (∀ ptr ∈ candidates, ptr ∈ pushed) ∧
        ∀ ptr ∈ requests, approvedName self.heap highest ptr = false →
          NameIn self.heap pushed ptr := by
  induction requests generalizing candidates with
  | nil =>
    refine .ok ⟨fun ptr hmem => .inl hmem, id, fun ptr hmem => hmem, fun ptr hmem => ?_⟩
    cases hmem
  | cons ptr rest ih =>
    rw [List.foldlM_cons]
    have hptr := hrequests ptr (List.mem_cons_self ..)
    have hrest : ∀ other ∈ rest, self.Owned other :=
      fun other hmem => hrequests other (List.mem_cons_of_mem _ hmem)
    have hone : Succeeds (self.pushCandidates highest candidates ptr) fun pushed =>
        (∀ other ∈ pushed, other ∈ candidates ∨ other = ptr) ∧
          ((candidates.map self.heap.nameOf).Nodup → (pushed.map self.heap.nameOf).Nodup) ∧
          (∀ other ∈ candidates, other ∈ pushed) ∧
          (approvedName self.heap highest ptr = false → NameIn self.heap pushed ptr) := by
      unfold pushCandidates
      refine Succeeds.bind_eq (isApprovedName_of_owned hhighest hptr) ?_
      cases happroved : approvedName self.heap highest ptr with
      | true =>
        exact .ok ⟨fun other hmem => .inl hmem, id, fun other hmem => hmem,
          fun hfalse => by cases hfalse⟩
      | false =>
        refine Succeeds.bind_eq (existName_of_owned hptr hcandidates) ?_
        cases hany : candidates.any
            (fun other => decide (self.heap.nameOf other = self.heap.nameOf ptr)) with
        | true =>
          obtain ⟨other, hother, hname⟩ := List.any_eq_true.mp hany
          exact .ok ⟨fun other hmem => .inl hmem, id, fun other hmem => hmem,
            fun _ => ⟨other, hother, of_decide_eq_true hname⟩⟩
        | false =>
          refine .ok ⟨fun other hmem => ?_, fun hnodup => ?_, fun other hmem => ?_,
            fun _ => ⟨ptr, List.mem_append_right _ (List.mem_singleton_self _), rfl⟩⟩
          · exact (List.mem_append.mp hmem).imp_right List.mem_singleton.mp
          · rw [List.map_append]
            refine hnodup.append (List.nodup_singleton _) ?_
            intro name hold hnew
            obtain ⟨other, hother, rfl⟩ := List.mem_map.mp hold
            have hnot := List.any_eq_false.mp hany other hother
            exact hnot (decide_eq_true (List.mem_singleton.mp hnew))
          · exact List.mem_append_left _ hmem
    refine hone.bind ?_
    rintro middle ⟨hfrom, hnodup, hkept, hnamed⟩
    refine (ih hrest ?_).mono ?_
    · intro other hmem
      rcases hfrom other hmem with hold | rfl
      · exact hcandidates other hold
      · exact hptr
    · rintro pushed ⟨hfrom', hnodup', hkept', hnamed'⟩
      refine ⟨fun other hmem => ?_, fun hstart => hnodup' (hnodup hstart),
        fun other hmem => hkept' other (hkept other hmem), fun other hmem happroved => ?_⟩
      · rcases hfrom' other hmem with hmiddle | hlater
        · rcases hfrom other hmiddle with hold | rfl
          · exact .inl hold
          · exact .inr (List.mem_cons_self ..)
        · exact .inr (List.mem_cons_of_mem _ hlater)
      · rcases List.mem_cons.mp hmem with rfl | hlater
        · obtain ⟨found, hfound, hname⟩ := hnamed happroved
          exact ⟨found, hkept' found hfound, hname⟩
        · exact hnamed' other hlater happroved

structure CandidatesUpdated (before after : PlannerManager) (running : List ModulePtr)
    (highest : ModulePtr) : Prop where
  rootLanelet : after.rootLanelet = before.rootLanelet
  approvedModules : after.approvedModules = before.approvedModules
  candidates : ∀ ptr ∈ after.candidateModules, ptr ∈ before.candidateModules ∨ ptr ∈ running
  nodup : (before.candidateModules.map before.heap.nameOf).Nodup →
    (after.candidateModules.map before.heap.nameOf).Nodup
  part : Part before after (fun _ => False)
    (fun ptr => ptr ∈ before.candidateModules ∧ ¬ NameIn before.heap running ptr)
  kept : ∀ ptr, ptr ∈ before.candidateModules ∨ ptr ∈ running → NameIn before.heap running ptr →
    NameIn before.heap after.candidateModules ptr ∨
      (before.heap.nameOf ptr = before.heap.nameOf highest ∧ after.heap.waits highest = false)

theorem updateCandidateModules_succeeds (hconsistent : self.Consistent)
    (hcandidates : ∀ ptr ∈ self.candidateModules, self.Owned ptr) {running : List ModulePtr}
    (hrunning : ∀ ptr ∈ running, self.Owned ptr) (hhighest : highest ∈ running) :
    Succeeds (self.updateCandidateModules env running highest) fun after =>
      CandidatesUpdated self after running highest := by
  refine (removeCandidates_succeeds env hhighest hconsistent hrunning hcandidates).bind ?_
  rintro ⟨kept, removed⟩ ⟨hlists, hsublist, hpart, hkept, hwaits⟩
  have howned : ∀ ptr, self.Owned ptr → removed.Owned ptr := fun _ => hpart.owned
  refine (pushCandidates_succeeds (howned highest (hrunning highest hhighest))
    (fun ptr hmem => howned ptr (hrunning ptr hmem))
    (fun ptr hmem => howned ptr (hcandidates ptr (hsublist.subset hmem)))).bind ?_
  rintro pushed ⟨hfrom, hnodup, hstay, hnamed⟩
  have hpushed : ∀ ptr ∈ pushed, ptr ∈ self.candidateModules ∨ ptr ∈ running :=
    fun ptr hmem => (hfrom ptr hmem).imp_left (hsublist.subset ·)
  refine (sortByPriority_succeeds env (hpart.consistent hconsistent) ?_).bind ?_
  · intro ptr hmem
    exact howned ptr ((hpushed ptr hmem).elim (hcandidates ptr) (hrunning ptr))
  intro sorted hperm
  have hnames : removed.heap.nameOf = self.heap.nameOf := funext hpart.nameOf
  have happroved : ∀ ptr, approvedName removed.heap highest ptr =
      approvedName self.heap highest ptr := by
    intro ptr
    simp only [approvedName, hnames, hwaits]
  refine .ok ⟨hlists.rootLanelet, hlists.approvedModules,
    fun ptr hmem => hpushed ptr (hperm.subset hmem), fun hstart => ?_,
    hpart.lists _ _ _, fun ptr hmem hin => ?_⟩
  · have hkeptNodup := hstart.sublist (hsublist.map self.heap.nameOf)
    rw [hnames] at hnodup
    exact (hperm.map self.heap.nameOf).nodup_iff.mpr (hnodup hkeptNodup)
  · cases hname : approvedName self.heap highest ptr with
    | true =>
      unfold approvedName at hname
      obtain ⟨hsame, hnot⟩ := Bool.and_eq_true_iff.mp hname
      refine .inr ⟨of_decide_eq_true hsame, ?_⟩
      change removed.heap.waits highest = false
      rw [hwaits]
      simpa using hnot
    | false =>
      left
      rcases hmem with hcandidate | hrun
      · have hpushedMem := hstay ptr (hkept ptr hcandidate hin hname)
        exact ⟨ptr, hperm.mem_iff.mpr hpushedMem, rfl⟩
      · obtain ⟨found, hfound, hfoundName⟩ :=
          hnamed ptr hrun ((happroved ptr).trans hname)
        rw [hnames] at hfoundName
        exact ⟨found, hperm.mem_iff.mpr hfound, hfoundName⟩

/-! ## What one iteration of a planner cycle does -/

/-! ## Running the requested modules -/

structure RequestsRun (before after : PlannerManager)
    (executable running : List ModulePtr) (highest : ModulePtr) : Prop where
  selected : highest ∈ running
  executed : ∀ ptr ∈ running, ptr ∈ executable
  rootLanelet : after.rootLanelet = before.rootLanelet
  approvedModules : after.approvedModules = before.approvedModules
  candidates : ∀ ptr ∈ after.candidateModules, ptr ∈ before.candidateModules ∨ ptr ∈ running
  nodup : (before.candidateModules.map before.heap.nameOf).Nodup →
    (after.candidateModules.map before.heap.nameOf).Nodup
  part : Part before after (· ∈ executable) (fun ptr =>
    (ptr ∈ executable ∧ ptr ∉ running) ∨
      (ptr ∈ before.candidateModules ∧ ¬ NameIn before.heap running ptr))
  kept : ∀ ptr, ptr ∈ before.candidateModules ∨ ptr ∈ running → NameIn before.heap running ptr →
    NameIn before.heap after.candidateModules ptr ∨
      (before.heap.nameOf ptr = before.heap.nameOf highest ∧ after.heap.waits highest = false)

structure RequestsExpired (before after : PlannerManager)
    (executable : List ModulePtr) : Prop where
  rootLanelet : after.rootLanelet = before.rootLanelet
  approvedModules : after.approvedModules = before.approvedModules
  candidateModules : after.candidateModules = []
  part : Part before after (· ∈ executable) (fun ptr =>
    ptr ∈ executable ∨ ptr ∈ before.candidateModules)

variable {self : PlannerManager}

theorem runRequestModules_succeeds (hconsistent : self.Consistent)
    (hcandidates : ∀ ptr ∈ self.candidateModules, self.Owned ptr)
    (hrequests : ∀ ptr ∈ requests, self.Owned ptr) (previous : Out) :
    Succeeds (self.runRequestModules env requests previous) fun result =>
      ∃ executable, (∀ ptr ∈ executable, ptr ∈ requests) ∧
        ((result.1.1 = none ∧ RequestsExpired self result.2 executable) ∨
          ∃ running, RequestsRun self result.2 executable running result.1.1) := by
  refine (sortByPriority_succeeds env hconsistent hrequests).bind ?_
  intro sorted hperm
  have hsorted : ∀ ptr ∈ sorted, self.Owned ptr := fun ptr hmem => hrequests ptr (hperm.subset hmem)
  refine (executableLoop_succeeds hconsistent hsorted fun ptr hmem => by cases hmem).bind ?_
  intro executable hfrom
  have hexecutable : ∀ ptr ∈ executable, ptr ∈ requests := by
    intro ptr hmem
    rcases hfrom ptr hmem with hnil | hmemSorted
    · cases hnil
    · exact hperm.subset hmemSorted
  have howned : ∀ ptr ∈ executable, self.Owned ptr :=
    fun ptr hmem => hrequests ptr (hexecutable ptr hmem)
  refine (executeRequestModules_succeeds env previous hconsistent howned []).bind ?_
  rintro ⟨results, executed⟩ ⟨hlists, hexecuted, _, hresults⟩
  refine (removeExpired_succeeds env (hexecuted.consistent hconsistent)
    fun ptr hmem => hexecuted.owned (howned ptr hmem)).bind ?_
  rintro ⟨running, remaining⟩ ⟨hlists', hrunning, hremoved⟩
  dsimp only at hlists hlists' hrunning hremoved hexecuted hresults ⊢
  have hremaining : Part self remaining (· ∈ executable)
      (fun ptr => ptr ∈ executable ∧ ptr ∉ running) :=
    (hexecuted.trans hremoved).weaken (fun _ hadded => hadded.elim id False.elim)
      fun _ hdeleted => .inl hdeleted
  have hsame := hlists.trans hlists'
  have hconsistent' := hremaining.consistent hconsistent
  have hcandidates' : ∀ ptr ∈ remaining.candidateModules, remaining.Owned ptr := by
    intro ptr hmem
    rw [hsame.candidateModules] at hmem
    exact hremaining.owned (hcandidates ptr hmem)
  by_cases hempty : running = []
  · subst hempty
    simp only [List.isEmpty_nil, if_true]
    refine (clearCandidateModules_succeeds env hconsistent' hcandidates').bind ?_
    rintro after ⟨hroot, happroved, hnone, hcleared⟩
    refine .ok ⟨executable, hexecutable, .inl ⟨rfl, hroot.trans hsame.rootLanelet,
      happroved.trans hsame.approvedModules, hnone, (hremaining.trans hcleared).weaken ?_ ?_⟩⟩
    · exact fun _ hadded => hadded.elim id False.elim
    · rintro ptr (hmem | hmem)
      · exact .inr ⟨⟨hmem, List.not_mem_nil⟩, id⟩
      · rw [← hsame.candidateModules] at hmem
        exact .inl hmem
  · have hnot : running.isEmpty = false := by simpa using hempty
    simp only [hnot, Bool.false_eq_true, if_false]
    have hrunningOwned : ∀ ptr ∈ running, remaining.Owned ptr :=
      fun ptr hmem => hremaining.owned (howned ptr (hrunning ptr hmem))
    refine (separate_succeeds fun ptr hmem =>
      ⟨_, isWaitingApproval_of_owned (hrunningOwned ptr hmem)⟩).bind ?_
    rintro ⟨waiting, approved⟩ hsplit
    dsimp only at hsplit ⊢
    have hupdate (highest : ModulePtr) (hhighest : highest ∈ running) :
        Succeeds (do
            let updated ← remaining.updateCandidateModules env running highest
            let name ← updated.heap.name highest
            let output ← resultAt results name
            return ((highest, output), updated) : Except Error ((ModulePtr × Out) × PlannerManager))
          fun result => RequestsRun self result.2 executable running result.1.1 := by
      refine (updateCandidateModules_succeeds env hconsistent' hcandidates' hrunningOwned
        hhighest).bind ?_
      intro updated hupdated
      have hnames : remaining.heap.nameOf = self.heap.nameOf := funext hremaining.nameOf
      have hnameIn : ∀ ptrs ptr, NameIn remaining.heap ptrs ptr ↔ NameIn self.heap ptrs ptr := by
        intro ptrs ptr
        unfold NameIn
        rw [hnames]
      have hname := name_of_owned (hupdated.part.owned (hrunningOwned highest hhighest))
      refine Succeeds.bind_eq hname ?_
      have hfound := hresults highest (hrunning highest hhighest)
      rw [← hremaining.nameOf, ← hupdated.part.nameOf] at hfound
      obtain ⟨output, houtput⟩ := resultAt_of_ne_none hfound
      refine Succeeds.bind_eq houtput ?_
      have hcandidatesSame := hsame.candidateModules
      refine .ok ⟨hhighest, hrunning, hupdated.rootLanelet.trans hsame.rootLanelet,
        hupdated.approvedModules.trans hsame.approvedModules, ?_, ?_, ?_, ?_⟩
      · rw [← hcandidatesSame]
        exact hupdated.candidates
      · rw [← hcandidatesSame, ← hnames]
        exact hupdated.nodup
      · refine (hremaining.trans hupdated.part).weaken
          (fun _ hadded => hadded.elim id False.elim) ?_
        rintro ptr (hexpired | ⟨hmem, hin⟩)
        · exact .inr ⟨hexpired, id⟩
        · rw [← hcandidatesSame] at hmem
          rw [← hnameIn] at hin
          exact .inl ⟨hmem, hin⟩
      · intro ptr hmem hin
        rw [← hcandidatesSame] at hmem
        rw [← hnameIn] at hin
        rw [← hnameIn, ← hnames]
        exact hupdated.kept ptr hmem hin
    have hselect (ptrs : List ModulePtr) (hsubset : ∀ ptr ∈ ptrs, ptr ∈ running) (hne : ptrs ≠ []) :
        Succeeds (remaining.selectHighestPriorityModule env ptrs) (· ∈ running) :=
      (selectHighestPriorityModule_succeeds env hconsistent'
        (fun ptr hmem => hrunningOwned ptr (hsubset ptr hmem)) hne).mono hsubset
    suffices hran : Succeeds _ fun result : (ModulePtr × Out) × PlannerManager =>
        RequestsRun self result.2 executable running result.1.1 from
      hran.mono fun result hrun => ⟨executable, hexecutable, .inr ⟨running, hrun⟩⟩
    -- the highest priority module is an approved one, or else a waiting one
    cases approved with
    | cons first rest =>
      refine (hselect _ (fun ptr hmem => (hsplit ptr).mpr (.inr hmem))
        (List.cons_ne_nil _ _)).bind ?_
      exact hupdate
    | nil =>
      cases waiting with
      | cons first rest =>
        refine (hselect _ (fun ptr hmem => (hsplit ptr).mpr (.inl hmem))
          (List.cons_ne_nil _ _)).bind ?_
        exact hupdate
      | nil =>
        obtain ⟨ptr, hmem⟩ := List.exists_mem_of_ne_nil running hempty
        rcases (hsplit ptr).mp hmem with hnil | hnil
        · cases hnil
        · cases hnil

/-- Every module on the lists and every registered module is owned. -/
structure WellFormed (planner : PlannerManager) : Prop where
  consistent : planner.Consistent
  approved : ∀ ptr ∈ planner.approvedModules, planner.Owned ptr
  candidates : ∀ ptr ∈ planner.candidateModules, planner.Owned ptr
  registered : ∀ ptr, planner.Registered ptr → planner.Owned ptr

namespace WellFormed

variable {self after : PlannerManager} (hself : self.WellFormed)

include hself

theorem part {added deleted : ModulePtr → Prop}
    (hpart : Part self after added deleted) (hadded : ∀ ptr, added ptr → self.Owned ptr)
    (happroved : ∀ ptr ∈ after.approvedModules, self.Owned ptr)
    (hcandidates : ∀ ptr ∈ after.candidateModules, self.Owned ptr) : after.WellFormed where
  consistent := hpart.consistent hself.consistent
  approved := fun ptr hmem => hpart.owned (happroved ptr hmem)
  candidates := fun ptr hmem => hpart.owned (hcandidates ptr hmem)
  registered := by
    intro ptr hregistered
    rcases hpart.registered ptr hregistered with hbefore | hnew
    · exact hpart.owned (hself.registered ptr hbefore)
    · exact hpart.owned (hadded ptr hnew)

theorem sameLists {deleted : ModulePtr → Prop}
    (hpart : Part self after (fun _ => False) deleted) (hlists : SameLists self after) :
    after.WellFormed := by
  refine hself.part hpart (fun _ hfalse => hfalse.elim) ?_ ?_
  · rw [hlists.approvedModules]
    exact hself.approved
  · rw [hlists.candidateModules]
    exact hself.candidates

theorem popped (hpopped : Popped self after) :
    after.WellFormed := by
  unfold Popped at hpopped
  cases hback : self.approvedModules.dropWhile (!self.heap.waits ·) with
  | nil =>
    rw [hback] at hpopped
    rw [hpopped]
    exact hself
  | cons waiting behind =>
    rw [hback] at hpopped
    obtain ⟨_, happroved, hcandidates, hpart⟩ := hpopped
    refine hself.part hpart (fun _ hfalse => hfalse.elim) ?_ ?_
    · rw [happroved]
      exact fun ptr hmem => hself.approved ptr ((List.takeWhile_sublist _).subset hmem)
    · rw [hcandidates]
      intro ptr hmem
      rw [List.mem_singleton.mp hmem]
      have hwaiting : waiting ∈ self.approvedModules.dropWhile (!self.heap.waits ·) := by
        rw [hback]
        exact List.mem_cons_self ..
      exact hself.approved waiting ((List.dropWhile_sublist _).subset hwaiting)

theorem dropsSuffix (hdrops : DropsSuffix self after) :
    after.WellFormed := by
  obtain ⟨back, hsplit, hkept, hempty, _, hpart⟩ := hdrops
  refine hself.part hpart (fun _ hfalse => hfalse.elim) ?_ ?_
  · intro ptr hmem
    refine hself.approved ptr ?_
    rw [hsplit]
    exact List.mem_append_left _ hmem
  · by_cases hback : back = []
    · rw [hkept hback]
      exact hself.candidates
    · rw [hempty hback]
      exact fun ptr hmem => by cases hmem

theorem launched (hlaunched : Launched self after) :
    after.WellFormed where
  consistent := hlaunched.consistent
  approved := by
    rw [hlaunched.lists.approvedModules]
    exact fun ptr hmem => hlaunched.owned (hself.approved ptr hmem)
  candidates := by
    rw [hlaunched.lists.candidateModules]
    exact fun ptr hmem => hlaunched.owned (hself.candidates ptr hmem)
  registered := fun ptr hregistered =>
    hlaunched.owned (hself.registered ptr (hlaunched.registered hregistered))

end WellFormed

/-! ## An iteration -/

/-- The state after the approved modules were executed. -/
def Executes (data : Data) (before executed : PlannerManager) : Prop :=
  ∃ root results, before.getReferencePath env data = .ok root ∧
    before.executeApprovedModules env root = .ok (results, executed)

def ApprovedRun (executed after : PlannerManager) : Prop :=
  ∃ popped valid, Popped executed popped ∧ DropsSuffix popped valid ∧ DropsSuffix valid after

theorem Popped.rootLanelet {before after : PlannerManager} (hpopped : Popped before after) :
    after.rootLanelet = before.rootLanelet := by
  unfold Popped at hpopped
  split at hpopped
  · rw [hpopped]
  · exact hpopped.1

theorem ApprovedRun.rootLanelet {executed after : PlannerManager}
    (hrun : ApprovedRun executed after) (hroot : executed.rootLanelet.isSome = true) :
    after.rootLanelet.isSome = true := by
  obtain ⟨popped, valid, hpopped, ⟨_, _, _, _, hvalid, _⟩, ⟨_, _, _, _, hafter, _⟩⟩ := hrun
  refine hafter (hvalid ?_)
  rw [hpopped.rootLanelet]
  exact hroot

theorem WellFormed.approvedRun {executed after : PlannerManager}
    (hexecuted : executed.WellFormed) (hrun : ApprovedRun executed after) :
    after.WellFormed := by
  obtain ⟨popped, valid, hpopped, hvalid, hafter⟩ := hrun
  exact ((hexecuted.popped hpopped).dropsSuffix hvalid).dropsSuffix hafter

theorem runApprovedModules_succeeds (data : Data)
    (hself : self.WellFormed) (hroot : self.rootLanelet.isSome = true) :
    Succeeds (self.runApprovedModules env data) fun result =>
      ∃ executed, Executes env data self executed ∧ SameLists self executed ∧
        Part self executed (fun _ => False) (fun _ => False) ∧
        ApprovedRun executed result.2 := by
  obtain ⟨rootLanelet, hsome⟩ := Option.isSome_iff_exists.mp hroot
  have hreference : self.getReferencePath env data =
      .ok (env.referencePath data rootLanelet) := by
    rw [getReferencePath, hsome]
  refine Succeeds.bind_eq hreference ?_
  obtain ⟨⟨⟨output, results⟩, executed⟩, hprogram, hlists, hpart, hrootResult⟩ :=
    executeApprovedModules_succeeds env hself.approved (env.referencePath data rootLanelet)
  refine Succeeds.bind_eq hprogram ?_
  have hexecutes : Executes env data self executed := ⟨_, _, hreference, hprogram⟩
  have hexecuted := hself.sameLists hpart hlists
  dsimp only at hlists hpart hrootResult ⊢
  refine (popWaitingApprovalModules_succeeds env hexecuted.consistent hexecuted.approved
    hexecuted.candidates).bind ?_
  intro popped hpopped
  have hpoppedWell := hexecuted.popped hpopped
  refine (removeFailureModules_succeeds env hpoppedWell.consistent hpoppedWell.approved
    hpoppedWell.candidates).bind ?_
  intro valid hvalid
  have hvalidWell := hpoppedWell.dropsSuffix hvalid
  obtain ⟨rootOutput, hrootOutput⟩ := resultAt_of_ne_none hrootResult
  cases hlast : valid.approvedModules.getLast? with
  | none =>
    refine Succeeds.bind_eq hrootOutput ?_
    exact .ok ⟨executed, hexecutes, hlists, hpart, popped, valid, hpopped, hvalid,
      DropsSuffix.refl valid⟩
  | some last =>
    have hlastOwned := hvalidWell.approved last (List.mem_of_getLast? hlast)
    have houtput : ∃ output, valid.approvedModulesOutput results last = .ok output := by
      unfold approvedModulesOutput
      rw [name_of_owned hlastOwned]
      cases hfound : findKey Prod.fst (valid.heap.nameOf last) results with
      | some result =>
        refine ⟨result.2, bind_eq_ok.mpr ⟨_, rfl, ?_⟩⟩
        simp only [hfound]
      | none =>
        refine ⟨rootOutput, bind_eq_ok.mpr ⟨_, rfl, ?_⟩⟩
        simp only [hfound]
        exact hrootOutput
    obtain ⟨output, houtput⟩ := houtput
    refine Succeeds.bind_eq houtput ?_
    refine (removeSuccessModules_succeeds env data hvalidWell.consistent
      hvalidWell.approved hvalidWell.candidates).bind ?_
    intro finished hfinished
    exact .ok ⟨executed, hexecutes, hlists, hpart, popped, valid, hpopped, hvalid, hfinished⟩

/-- How an iteration ends, from the state in which the modules were requested. -/
inductive Outcome (requesting : PlannerManager) (requests : List ModulePtr) :
    PlannerManager → Prop where
  | unrequested : Outcome requesting requests requesting
  | expired {after : PlannerManager} {executable : List ModulePtr} :
      (∀ ptr ∈ executable, ptr ∈ requests) → RequestsExpired requesting after executable →
      Outcome requesting requests after
  | waiting {after : PlannerManager} {executable running : List ModulePtr}
      {highest : ModulePtr} :
      (∀ ptr ∈ executable, ptr ∈ requests) →
      RequestsRun requesting after executable running highest →
      after.heap.waits highest = true → Outcome requesting requests after
  | approved {updated after : PlannerManager} {executable running : List ModulePtr}
      {highest : ModulePtr} :
      (∀ ptr ∈ executable, ptr ∈ requests) →
      RequestsRun requesting updated executable running highest →
      after.rootLanelet = updated.rootLanelet →
      after.approvedModules = updated.approvedModules ++ [highest] →
      after.candidateModules = [] →
      Part updated after (fun _ => False) (· ∈ updated.candidateModules) →
      Outcome requesting requests after

structure Iteration (data : Data)
    (before executed approved requesting : PlannerManager) (requests : List ModulePtr)
    (after : PlannerManager) : Prop where
  executes : Executes env data before executed
  executedLists : SameLists before executed
  executedPart : Part before executed (fun _ => False) (fun _ => False)
  approvedRun : ApprovedRun executed approved
  runs : ∃ output, before.runApprovedModules env data = .ok (output, approved)
  launched : Launched approved requesting
  owned : ∀ ptr ∈ requests, requesting.Owned ptr
  asked : ∀ ptr ∈ requests, ptr ∈ approved.candidateModules ∨
    (approved.Owned ptr → ∃ manager ∈ approved.asked, manager.idlingModule = ptr)
  outcome : Outcome requesting requests after

theorem iterate_succeeds (data : Data) (hself : self.WellFormed)
    (hroot : self.rootLanelet.isSome = true) :
    Succeeds (self.iterate env data) fun result =>
      ∃ executed approved requesting requests,
        Iteration env data self executed approved requesting requests result.2 := by
  obtain ⟨⟨approvedOutput, approved⟩, hruns, executed, hexecutes, hexecutedLists,
    hexecutedPart, happrovedRun⟩ := runApprovedModules_succeeds env data hself hroot
  refine Succeeds.bind_eq hruns ?_
  have happroved := (hself.sameLists hexecutedPart hexecutedLists).approvedRun happrovedRun
  dsimp only at happroved ⊢
  refine (getRequestModules_succeeds env happroved.consistent happroved.approved
    happroved.candidates approvedOutput).bind ?_
  rintro ⟨requests, requesting⟩ ⟨hlaunched, hrequests⟩
  dsimp only at hlaunched hrequests ⊢
  have hrequesting := happroved.launched hlaunched
  have howned : ∀ ptr ∈ requests, requesting.Owned ptr := fun ptr hmem => (hrequests ptr hmem).1
  have hiteration : ∀ {after}, Outcome requesting requests after →
      ∃ executed approved requesting requests,
        Iteration env data self executed approved requesting requests after :=
    fun houtcome => ⟨executed, approved, requesting, requests, hexecutes, hexecutedLists,
      hexecutedPart, happrovedRun, ⟨_, hruns⟩, hlaunched, howned,
      fun ptr hmem => (hrequests ptr hmem).2, houtcome⟩
  split
  · exact .ok (hiteration .unrequested)
  · refine (runRequestModules_succeeds env hrequesting.consistent hrequesting.candidates
      howned approvedOutput).bind ?_
    rintro ⟨⟨highest, candidateOutput⟩, updated⟩
      ⟨executable, hexecutable, ⟨rfl, hexpired⟩ | ⟨running, hrun⟩⟩
    · exact .ok (hiteration (.expired hexecutable hexpired))
    · dsimp only at hrun ⊢
      have hrunningOwned : ∀ ptr ∈ running, updated.Owned ptr := fun ptr hmem =>
        hrun.part.owned (howned ptr (hexecutable ptr (hrun.executed ptr hmem)))
      have hhighest := hrunningOwned highest hrun.selected
      have hwaits := isWaitingApproval_of_owned hhighest
      obtain ⟨_, address, _, rfl⟩ := id hhighest
      refine Succeeds.bind_eq hwaits ?_
      cases hwaiting : updated.heap.waits (some address) with
      | true => exact .ok (hiteration (.waiting hexecutable hrun hwaiting))
      | false =>
        have hadded := (Part.refl updated).lists updated.rootLanelet
          (updated.approvedModules ++ [some address]) updated.candidateModules
        have hupdated : updated.Consistent := hrun.part.consistent hrequesting.consistent
        have hcandidates : ∀ ptr ∈ updated.candidateModules, updated.Owned ptr := by
          intro ptr hmem
          rcases hrun.candidates ptr hmem with hbefore | hrunning
          · exact hrun.part.owned (hrequesting.candidates ptr hbefore)
          · exact hrunningOwned ptr hrunning
        refine (clearCandidateModules_succeeds env (hadded.consistent hupdated)
          fun ptr hmem => hadded.owned (hcandidates ptr hmem)).bind ?_
        rintro after ⟨hafterRoot, hafterApproved, hempty, hcleared⟩
        refine .ok (hiteration (.approved hexecutable hrun hafterRoot hafterApproved hempty ?_))
        refine (hadded.trans hcleared).weaken ?_ ?_
        · exact fun _ hadded => hadded.elim id id
        · exact fun ptr hmem => .inl hmem

namespace Iteration

variable {env} {data : Data} {self executed approved requesting after : PlannerManager}
  {requests : List ModulePtr}

theorem executedWellFormed (hself : self.WellFormed)
    (hiteration : Iteration env data self executed approved requesting requests after) :
    executed.WellFormed :=
  hself.sameLists hiteration.executedPart hiteration.executedLists

theorem requestingWellFormed (hself : self.WellFormed)
    (hiteration : Iteration env data self executed approved requesting requests after) :
    requesting.WellFormed :=
  ((hiteration.executedWellFormed hself).approvedRun hiteration.approvedRun).launched
    hiteration.launched

theorem wellFormed (hself : self.WellFormed)
    (hiteration : Iteration env data self executed approved requesting requests after) :
    after.WellFormed := by
  have hrequesting := hiteration.requestingWellFormed hself
  have howned := hiteration.owned
  have hrun : ∀ {updated executable running highest}, (∀ ptr ∈ executable, ptr ∈ requests) →
      RequestsRun requesting updated executable running highest → updated.WellFormed := by
    intro updated executable running highest hexecutable hrun
    refine hrequesting.part hrun.part (fun ptr hmem => howned ptr (hexecutable ptr hmem)) ?_ ?_
    · rw [hrun.approvedModules]
      exact hrequesting.approved
    · intro ptr hmem
      rcases hrun.candidates ptr hmem with hbefore | hrunning
      · exact hrequesting.candidates ptr hbefore
      · exact howned ptr (hexecutable ptr (hrun.executed ptr hrunning))
  cases hiteration.outcome with
  | unrequested => exact hrequesting
  | expired hexecutable hexpired =>
    refine hrequesting.part hexpired.part (fun ptr hmem => howned ptr (hexecutable ptr hmem)) ?_ ?_
    · rw [hexpired.approvedModules]
      exact hrequesting.approved
    · rw [hexpired.candidateModules]
      exact fun ptr hmem => by cases hmem
  | waiting hexecutable hran _ => exact hrun hexecutable hran
  | approved hexecutable hran _ happroved hempty hpart =>
    have hupdated := hrun hexecutable hran
    refine hupdated.part hpart (fun _ hfalse => hfalse.elim) ?_ ?_
    · rw [happroved]
      intro ptr hmem
      rcases List.mem_append.mp hmem with hbefore | hadded
      · exact hupdated.approved ptr hbefore
      · rw [List.mem_singleton.mp hadded]
        exact hran.part.owned (howned _ (hexecutable _ (hran.executed _ hran.selected)))
    · rw [hempty]
      exact fun ptr hmem => by cases hmem

theorem rootLanelet
    (hiteration : Iteration env data self executed approved requesting requests after)
    (hroot : self.rootLanelet.isSome = true) : after.rootLanelet.isSome = true := by
  have hrequesting : requesting.rootLanelet.isSome = true := by
    rw [hiteration.launched.lists.rootLanelet]
    refine hiteration.approvedRun.rootLanelet ?_
    rw [hiteration.executedLists.rootLanelet]
    exact hroot
  cases hiteration.outcome with
  | unrequested => exact hrequesting
  | expired _ hexpired =>
    rw [hexpired.rootLanelet]
    exact hrequesting
  | waiting _ hran _ =>
    rw [hran.rootLanelet]
    exact hrequesting
  | approved _ hran hafter _ _ _ =>
    rw [hafter, hran.rootLanelet]
    exact hrequesting

end Iteration

end AutowareUniverse.Planning.PlannerManager
