import AutowareUniverse.Planning.PlannerManagerRequests

/-!
# What the operations of the planner manager do

Every module stays owned in every run of the operations, and the only operation
that can fail is a reset of a manager without an idling module.
-/

namespace AutowareUniverse.Planning.PlannerManager

open Library.Fallible Library.Runs SceneModule

variable {Data Out : Type} (env : Environment Data Out)

def LoopMeets (cond : PlannerManager → Prop) (data : Data) : Nat → PlannerManager → Prop
  | 0, _ => True
  | ok + 1, self =>
    cond self ∧ Ensures (self.iterate env data) fun result =>
      result.1.isNone = true → LoopMeets cond data ok result.2

instance decidableLoopMeets {cond : PlannerManager → Prop} [DecidablePred cond] (data : Data) :
    (ok : Nat) → (self : PlannerManager) → Decidable (LoopMeets env cond data ok self)
  | 0, _ => .isTrue trivial
  | ok + 1, self =>
    have (result : Option Out × PlannerManager) : Decidable (LoopMeets env cond data ok result.2) :=
      decidableLoopMeets data ok result.2
    inferInstanceAs (Decidable (cond self ∧ Ensures (self.iterate env data) fun result =>
      result.1.isNone = true → LoopMeets env cond data ok result.2))

variable {self : PlannerManager}

theorem runLoop_succeeds (Inv cond : PlannerManager → Prop) (data : Data)
    (hiterate : ∀ self executed approved requesting requests after,
      self.WellFormed → Inv self → cond self →
      Iteration env data self executed approved requesting requests after → Inv after)
    (ok : Nat) (hself : self.WellFormed)
    (hroot : self.rootLanelet.isSome = true) (hinv : Inv self)
    (hmeets : LoopMeets env cond data ok self) :
    Succeeds (self.runLoop env data ok) fun result =>
      result.2.WellFormed ∧ Inv result.2 := by
  induction ok generalizing self with
  | zero => exact .ok ⟨hself, hinv⟩
  | succ ok ih =>
    obtain ⟨hcond, hnext⟩ := hmeets
    obtain ⟨⟨output, after⟩, hprogram, executed, approved, requesting, requests,
      hiteration⟩ := iterate_succeeds env data hself hroot
    have hafter := hiteration.wellFormed hself
    have hinvAfter := hiterate _ _ _ _ _ _ hself hinv hcond hiteration
    refine Succeeds.bind_eq hprogram ?_
    cases output with
    | some output => exact .ok ⟨hafter, hinvAfter⟩
    | none =>
      exact ih hafter (hiteration.rootLanelet hroot) hinvAfter (hnext.of_eq hprogram rfl)

theorem loopMeets_true (data : Data) (ok : Nat) (self : PlannerManager) :
    LoopMeets env (fun _ => True) data ok self := by
  induction ok generalizing self with
  | zero => exact trivial
  | succ ok ih =>
    refine ⟨trivial, ?_⟩
    unfold Ensures
    split
    · exact fun _ => ih _
    · trivial

theorem wellFormed_initRootLanelet (data : Data)
    (hself : self.WellFormed) : (self.initRootLanelet env data).WellFormed := by
  unfold initRootLanelet
  split
  · exact hself
  · exact ⟨hself.consistent, hself.approved, hself.candidates, hself.registered⟩

theorem isSome_initRootLanelet (data : Data) (self : PlannerManager) :
    (self.initRootLanelet env data).rootLanelet.isSome = true := by
  unfold initRootLanelet
  split
  · rename_i hroot
    rw [hroot]
    rfl
  · rfl

/-! ## Resetting -/

def cleared (manager : SceneModuleManager) : SceneModuleManager :=
  { manager with registeredModules := [], idlingModule := none }

variable {ptr : ModulePtr} (behavior : Behavior Out)

theorem onExit_succeeds (heap : Heap)
    (hptr : ptr ≠ none) : ∃ exited, heap.onExit behavior ptr = .ok exited := by
  cases ptr with
  | none => exact absurd rfl hptr
  | some address => exact ⟨_, rfl⟩

theorem exitAll_succeeds (heap : Heap) {ptrs : List ModulePtr} (hptrs : ∀ ptr ∈ ptrs, ptr ≠ none) :
    ∃ exited, ptrs.foldlM (Heap.onExit behavior) heap = .ok exited := by
  induction ptrs generalizing heap with
  | nil => exact ⟨heap, rfl⟩
  | cons ptr rest ih =>
    obtain ⟨middle, hmiddle⟩ := onExit_succeeds behavior heap (hptrs ptr (List.mem_cons_self ..))
    obtain ⟨exited, hexited⟩ := ih middle fun other hmem => hptrs other (List.mem_cons_of_mem _ hmem)
    refine ⟨exited, ?_⟩
    rw [List.foldlM_cons, hmiddle]
    exact hexited

theorem managerReset_cases (heap : Heap) {manager : SceneModuleManager}
    (hregistered : ∀ ptr ∈ manager.registeredModules, ptr ≠ none) :
    (manager.idlingModule ≠ none ∧
      ∃ idled, manager.reset behavior heap = .ok (cleared manager, idled)) ∨
    (manager.idlingModule = none ∧
      manager.reset behavior heap = .error .nullDereference) := by
  obtain ⟨exited, hexited⟩ := exitAll_succeeds behavior heap hregistered
  unfold SceneModuleManager.reset
  rw [hexited]
  cases hidling : manager.idlingModule with
  | none => exact .inr ⟨rfl, rfl⟩
  | some address => exact .inl ⟨Option.some_ne_none _, _, rfl⟩

theorem resetLoop_cases (heap : Heap) {managers : List SceneModuleManager}
    (hregistered : ∀ manager ∈ managers, ∀ ptr ∈ manager.registeredModules, ptr ≠ none) :
    ((∀ manager ∈ managers, manager.idlingModule ≠ none) ∧
      ∃ last, resetLoop env managers heap = .ok (managers.map cleared, last)) ∨
    ((∃ manager ∈ managers, manager.idlingModule = none) ∧
      resetLoop env managers heap = .error .nullDereference) := by
  induction managers generalizing heap with
  | nil => exact .inl ⟨fun _ hmem => (List.not_mem_nil hmem).elim, heap, rfl⟩
  | cons manager rest ih =>
    have hmanager := hregistered manager (List.mem_cons_self ..)
    unfold resetLoop
    rcases managerReset_cases env.behavior heap hmanager with
      ⟨hidling, middle, hreset⟩ | ⟨hidling, hreset⟩
    · rw [hreset]
      rcases ih middle fun other hmem => hregistered other (List.mem_cons_of_mem _ hmem) with
        ⟨hrest, last, hloop⟩ | ⟨⟨other, hmem, hnone⟩, hloop⟩
      · refine .inl ⟨fun other hmem => ?_, last, ?_⟩
        · rcases List.mem_cons.mp hmem with rfl | hlater
          · exact hidling
          · exact hrest other hlater
        · change (resetLoop env rest middle >>= fun result =>
            pure (cleared manager :: result.1, result.2)) = _
          rw [hloop]
          rfl
      · refine .inr ⟨⟨other, List.mem_cons_of_mem _ hmem, hnone⟩, ?_⟩
        change (resetLoop env rest middle >>= fun result =>
          pure (cleared manager :: result.1, result.2)) = _
        rw [hloop]
        rfl
    · rw [hreset]
      exact .inr ⟨⟨manager, List.mem_cons_self .., hidling⟩, rfl⟩

/-- The lists are empty, and the managers hold no module. -/
structure Cleared (before after : PlannerManager) : Prop where
  approvedModules : after.approvedModules = []
  candidateModules : after.candidateModules = []
  managers : after.managers = before.managers.map cleared

theorem WellFormed.reset_cases (hself : self.WellFormed) :
    ((∀ manager ∈ self.managers, manager.idlingModule ≠ none) ∧
      Succeeds (self.reset env) (Cleared self)) ∨
    ((∃ manager ∈ self.managers, manager.idlingModule = none) ∧
      self.reset env = .error .nullDereference) := by
  have hregistered : ∀ manager ∈ self.managers, ∀ ptr ∈ manager.registeredModules,
      ptr ≠ none := by
    intro manager hmanager ptr hmem
    obtain ⟨_, address, _, rfl⟩ := hself.registered ptr ⟨manager, hmanager, hmem⟩
    exact Option.some_ne_none address
  unfold PlannerManager.reset
  rcases resetLoop_cases env self.heap hregistered with
    ⟨hidling, last, hloop⟩ | ⟨hidling, hloop⟩
  · rw [hloop]
    exact .inl ⟨hidling, .ok ⟨rfl, rfl, rfl⟩⟩
  · rw [hloop]
    exact .inr ⟨hidling, rfl⟩

variable {before after : PlannerManager}

theorem Cleared.idlings (hcleared : Cleared before after)
    {name : String} (hmem : (name, ptr) ∈ idlings after.managers) :
    ptr = none := by
  obtain ⟨manager, hmanager, _, rfl⟩ := exists_of_mem_idlings hmem
  rw [hcleared.managers] at hmanager
  obtain ⟨_, _, rfl⟩ := List.mem_map.mp hmanager
  rfl

theorem Cleared.not_registered
    (hcleared : Cleared before after) (ptr : ModulePtr) : ¬ after.Registered ptr := by
  rintro ⟨manager, hmanager, hmem⟩
  rw [hcleared.managers] at hmanager
  obtain ⟨_, _, rfl⟩ := List.mem_map.mp hmanager
  cases hmem

theorem Cleared.wellFormed (hcleared : Cleared before after) :
    after.WellFormed where
  consistent := fun _ _ hmem => by cases hcleared.idlings hmem
  approved := by
    rw [hcleared.approvedModules]
    exact fun ptr hmem => by cases hmem
  candidates := by
    rw [hcleared.candidateModules]
    exact fun ptr hmem => by cases hmem
  registered := fun ptr hregistered => (hcleared.not_registered ptr hregistered).elim

/-! ## Operations -/

theorem WellFormed.exists_changesLane (hself : self.WellFormed)
    (data : Data) (rootLanelet : Lanelet) :
    ∃ changes, self.changesLane env data rootLanelet = .ok changes := by
  obtain ⟨locked, hlocked⟩ := exists?_succeeds fun ptr hmem =>
    ⟨_, isLockedNewModuleLaunch_of_owned (hself.candidates ptr hmem)⟩
  unfold changesLane
  split
  · exact ⟨_, rfl⟩
  · split
    · exact ⟨_, rfl⟩
    · split
      · exact ⟨_, rfl⟩
      · rw [hlocked]
        exact ⟨_, rfl⟩

def resets (self : PlannerManager) : Operation Data → Prop
  | .reset => True
  | .resetRootLanelet data => ∃ rootLanelet, self.rootLanelet = some rootLanelet ∧
      self.changesLane env data rootLanelet = .ok true
  | _ => False

/-- How an operation that does not fail changes the state. -/
inductive Performed (self : PlannerManager) : Operation Data → PlannerManager → Prop where
  | registered (config : ManagerConfig) :
      Performed self (.registerSceneModuleManager config) (self.registerSceneModuleManager config)
  | ran {data : Data} {ok : Nat} {output : Out} {after : PlannerManager} :
      (self.initRootLanelet env data).runLoop env data ok = .ok (output, after) →
      Performed self (.run data ok) after
  | kept (data : Data) (rootLanelet : Option Lanelet) :
      Performed self (.resetRootLanelet data) { self with rootLanelet := rootLanelet }
  | cleared {operation : Operation Data} {after : PlannerManager} :
      Cleared self after → Performed self operation after

/-- An operation succeeds, or it resets a manager that has no idling module. -/
theorem WellFormed.perform_cases (hself : self.WellFormed) (operation : Operation Data) :
    ((self.resets env operation → ∀ manager ∈ self.managers, manager.idlingModule ≠ none) ∧
      Succeeds (perform env self operation) fun result =>
        Performed env self operation result.1) ∨
    ((self.resets env operation ∧ ∃ manager ∈ self.managers, manager.idlingModule = none) ∧
      perform env self operation = .error .nullDereference) := by
  have hreset (operation : Operation Data) (hresets : self.resets env operation)
      (hperform : perform env self operation = (self.reset env).map fun reset => (reset, [])) :
      ((self.resets env operation → ∀ manager ∈ self.managers, manager.idlingModule ≠ none) ∧
        Succeeds (perform env self operation) fun result =>
          Performed env self operation result.1) ∨
      ((self.resets env operation ∧ ∃ manager ∈ self.managers, manager.idlingModule = none) ∧
        perform env self operation = .error .nullDereference) := by
    rw [hperform]
    rcases hself.reset_cases env with ⟨hidling, after, hafter, hcleared⟩ | ⟨hidling, hfailed⟩
    · rw [hafter]
      exact .inl ⟨fun _ => hidling, .ok (.cleared hcleared)⟩
    · rw [hfailed]
      exact .inr ⟨⟨hresets, hidling⟩, rfl⟩
  cases operation with
  | registerSceneModuleManager config => exact .inl ⟨False.elim, .ok (.registered config)⟩
  | run data ok =>
    obtain ⟨⟨output, after⟩, hafter, _⟩ := runLoop_succeeds env (fun _ => True)
      (fun _ => True) data (fun _ _ _ _ _ _ _ _ _ _ => trivial) ok
      (wellFormed_initRootLanelet env data hself) (isSome_initRootLanelet env data self)
      trivial (loopMeets_true env data ok _)
    refine .inl ⟨False.elim, (after, [output]), ?_, .ran hafter⟩
    rw [perform, PlannerManager.run, hafter]
    rfl
  | resetRootLanelet data =>
    cases hroot : self.rootLanelet with
    | none =>
      refine .inl ⟨?_, ({ self with rootLanelet := some (env.closestLanelet data) }, []),
        ?_, .kept data (some (env.closestLanelet data))⟩
      · rintro ⟨rootLanelet, hsome, _⟩
        rw [hroot] at hsome
        cases hsome
      · rw [perform, resetRootLanelet, hroot]
        rfl
    | some rootLanelet =>
      obtain ⟨changes, hchanges⟩ := hself.exists_changesLane env data rootLanelet
      cases changes with
      | true =>
        refine hreset (.resetRootLanelet data) ⟨rootLanelet, hroot, hchanges⟩ ?_
        rw [perform, resetRootLanelet, hroot]
        dsimp only
        rw [hchanges]
        rfl
      | false =>
        refine .inl ⟨?_, (self, []), ?_, .kept data self.rootLanelet⟩
        · rintro ⟨other, hsome, hother⟩
          rw [hroot] at hsome
          cases hsome
          rw [hchanges] at hother
          cases hother
        · rw [perform, resetRootLanelet, hroot]
          dsimp only
          rw [hchanges]
          rfl
  | reset => exact hreset .reset trivial rfl

theorem WellFormed.performed_of_step {self after : PlannerManager} (hself : self.WellFormed)
    {label : Operation Data × List Out} (hstep : Step env self label after) :
    Performed env self label.1 after := by
  rcases hself.perform_cases env label.1 with ⟨_, result, hresult, hperformed⟩ | ⟨_, hfailed⟩
  · have hsame := Except.ok.inj (hresult.symm.trans hstep)
    rw [hsame] at hperformed
    exact hperformed
  · cases hstep.symm.trans hfailed

theorem idlings_register (self : PlannerManager) (config : ManagerConfig) :
    idlings (self.registerSceneModuleManager config).managers =
      idlings self.managers ++ [(config.name, none)] := by
  simp [registerSceneModuleManager, idlings]

theorem owned_register (config : ManagerConfig)
    (howned : self.Owned ptr) : (self.registerSceneModuleManager config).Owned ptr := by
  obtain ⟨name, address, hmem, rfl⟩ := howned
  refine ⟨name, address, ?_, rfl⟩
  rw [idlings_register]
  exact List.mem_append_left _ hmem

theorem registered_of_register {config : ManagerConfig}
    (hregistered : (self.registerSceneModuleManager config).Registered ptr) :
    self.Registered ptr := by
  obtain ⟨manager, hmanager, hmem⟩ := hregistered
  rcases List.mem_append.mp hmanager with hold | hnew
  · exact ⟨manager, hold, hmem⟩
  · rw [List.mem_singleton.mp hnew] at hmem
    cases hmem

theorem WellFormed.register (hself : self.WellFormed)
    (config : ManagerConfig) : (self.registerSceneModuleManager config).WellFormed where
  consistent := by
    intro name address hmem
    rw [idlings_register] at hmem
    rcases List.mem_append.mp hmem with hold | hnew
    · exact hself.consistent name address hold
    · cases List.mem_singleton.mp hnew
  approved := fun ptr hmem => owned_register config (hself.approved ptr hmem)
  candidates := fun ptr hmem => owned_register config (hself.candidates ptr hmem)
  registered := fun ptr hregistered =>
    owned_register config (hself.registered ptr (registered_of_register hregistered))

theorem WellFormed.performed {self after : PlannerManager} (hself : self.WellFormed)
    {operation : Operation Data} (hperformed : Performed env self operation after) :
    after.WellFormed := by
  cases hperformed with
  | registered config => exact hself.register config
  | ran hran =>
    rename_i data ok output
    obtain ⟨result, hresult, hwell, _⟩ := runLoop_succeeds env (fun _ => True)
      (fun _ => True) data (fun _ _ _ _ _ _ _ _ _ _ => trivial) ok
      (wellFormed_initRootLanelet env data hself) (isSome_initRootLanelet env data self)
      trivial (loopMeets_true env data ok _)
    rw [hran] at hresult
    cases hresult
    exact hwell
  | kept data rootLanelet =>
    exact ⟨hself.consistent, hself.approved, hself.candidates, hself.registered⟩
  | cleared hcleared => exact hcleared.wellFormed

theorem wellFormed_empty : empty.WellFormed where
  consistent := fun _ _ hmem => by cases hmem
  approved := fun _ hmem => by cases hmem
  candidates := fun _ hmem => by cases hmem
  registered := by
    rintro ptr ⟨manager, hmanager, _⟩
    cases hmanager

theorem wellFormed_of_run {labels : List (Operation Data × List Out)}
    (hrun : Run (Step env) empty labels self) : self.WellFormed :=
  hrun.preserves WellFormed
    (fun _ _ _ hbefore hstep => hbefore.performed env (hbefore.performed_of_step env hstep))
    wellFormed_empty

def OperationMeets (admits : PlannerManager → ManagerConfig → Prop)
    (cond : Data → PlannerManager → Prop) (self : PlannerManager) : Operation Data → Prop
  | .registerSceneModuleManager config => admits self config
  | .run data ok => LoopMeets env (cond data) data ok (self.initRootLanelet env data)
  | _ => True

instance {admits : PlannerManager → ManagerConfig → Prop} {cond : Data → PlannerManager → Prop}
    [∀ self config, Decidable (admits self config)] [∀ data, DecidablePred (cond data)]
    (self : PlannerManager) (operation : Operation Data) :
    Decidable (self.OperationMeets env admits cond operation) :=
  match operation with
  | .registerSceneModuleManager config => inferInstanceAs (Decidable (admits self config))
  | .run data ok => inferInstanceAs (Decidable
      (LoopMeets env (cond data) data ok (self.initRootLanelet env data)))
  | .resetRootLanelet _ => .isTrue trivial
  | .reset => .isTrue trivial

/-- What every operation that meets the condition keeps holds in every reachable
state. -/
theorem invariant_of_run (Inv : PlannerManager → Prop)
    {admits : PlannerManager → ManagerConfig → Prop} {cond : Data → PlannerManager → Prop}
    (hempty : Inv empty) (hregister : ∀ self config, Inv self → admits self config →
      Inv (self.registerSceneModuleManager config))
    (hiterate : ∀ data self executed approved requesting requests after,
      self.WellFormed → Inv self → cond data self →
      Iteration env data self executed approved requesting requests after → Inv after)
    (hroot : ∀ self rootLanelet, Inv self → Inv { self with rootLanelet := rootLanelet })
    (hcleared : ∀ self after, Inv self → Cleared self after → Inv after)
    {self : PlannerManager} {labels : List (Operation Data × List Out)}
    (hrun : Run (Guarded (Step env)
      fun before label _ => before.OperationMeets env admits cond label.1) empty labels self) :
    Inv self := by
  refine (hrun.preserves (fun state => state.WellFormed ∧ Inv state) ?_
    ⟨wellFormed_empty, hempty⟩).2
  rintro before ⟨operation, outputs⟩ after ⟨hwell, hinv⟩ ⟨hstep, hmeets⟩
  have hperformed := hwell.performed_of_step env hstep
  refine ⟨hwell.performed env hperformed, ?_⟩
  cases hperformed with
  | registered config => exact hregister before config hinv hmeets
  | ran hran =>
    rename_i data ok output
    have hinit : Inv (before.initRootLanelet env data) := by
      unfold initRootLanelet
      split
      · exact hinv
      · exact hroot before _ hinv
    obtain ⟨result, hresult, _, hafter⟩ := runLoop_succeeds env Inv (cond data) data
      (hiterate data) ok (wellFormed_initRootLanelet env data hwell)
      (isSome_initRootLanelet env data before) hinit hmeets
    rw [hran] at hresult
    cases hresult
    exact hafter
  | kept data rootLanelet => exact hroot before rootLanelet hinv
  | cleared hreset => exact hcleared before after hinv hreset

/-- A sequence of operations dereferences a null pointer exactly if it gets to a
reset of the managers while one of them has no idling module. -/
theorem no_null_dereference_iff (operations : List (Operation Data)) :
    executePartial (perform env) empty operations ≠ .error .nullDereference ↔
      ∀ early operation late labels self, operations = early ++ operation :: late →
        Run (Step env) empty labels self → labels.map Prod.fst = early →
        self.resets env operation → ∀ manager ∈ self.managers, manager.idlingModule ≠ none := by
  constructor
  · intro hsafe early operation late labels self hsplit hrun hearly hresets
    rcases (wellFormed_of_run env hrun).perform_cases env operation with
      ⟨hidling, _⟩ | ⟨_, hfailed⟩
    · exact hidling hresets
    · refine absurd ?_ hsafe
      exact (executePartial_eq_error_iff (perform env)).mpr
        ⟨early, operation, late, labels, self, hsplit, hrun, hearly, hfailed⟩
  · intro hidlings hfailed
    obtain ⟨early, operation, late, labels, self, hsplit, hrun, hearly, hperform⟩ :=
      (executePartial_eq_error_iff (perform env)).mp hfailed
    rcases (wellFormed_of_run env hrun).perform_cases env operation with
      ⟨_, result, hresult, _⟩ | ⟨⟨hresets, manager, hmanager, hnone⟩, _⟩
    · cases hperform.symm.trans hresult
    · exact hidlings early operation late labels self hsplit hrun hearly hresets
        manager hmanager hnone

/-- Modules that keep running; when they wait for approval and when they request
execution is given by the number of the call and the address of the module. -/
def runningEnvironment (waits requested : Nat → Nat → Bool) : Environment Unit Unit where
  behavior :=
    { processOnEntry := fun _ _ state => state
      processOnExit := fun _ _ state => state
      updateData := fun _ _ state => state
      isExecutionRequested := fun call address _ => requested call address
      run := fun call address _ _ => ((), ⟨waits call address, false, .running⟩) }
  prioritySort := .stable
  emptyOutput := ()
  referencePath := fun _ _ => ()
  closestLanelet := fun _ => 0
  following := fun _ _ => []

/-- A reset before the first run dereferences a null pointer, and so does the
second of two resets. -/
theorem reset_dereferences_null :
    let env := runningEnvironment (fun _ _ => false) (fun _ _ => true)
    let config : ManagerConfig := ⟨"avoidance", 1, 0, true, true⟩
    executePartial (perform env) empty [.registerSceneModuleManager config, .reset] =
        .error .nullDereference ∧
      executePartial (perform env) empty
          [.registerSceneModuleManager config, .run () 2, .reset, .reset] =
        .error .nullDereference := by
  constructor
  · rfl
  · rfl

/-! ## Every module is on the lists once -/

/-- No module is twice on the lists, and no name twice among the candidates. -/
structure Exclusive (planner : PlannerManager) : Prop where
  approved : planner.approvedModules.Nodup
  disjoint : ∀ ptr ∈ planner.approvedModules, ptr ∉ planner.candidateModules
  candidates : (planner.candidateModules.map planner.heap.nameOf).Nodup

def AsksNoApproved (data : Data) (before : PlannerManager) : Prop :=
  Ensures (before.runApprovedModules env data) fun result =>
    ∀ manager ∈ result.2.asked, manager.idlingModule ∉ result.2.approvedModules

instance (data : Data) : DecidablePred (AsksNoApproved env data) :=
  fun before => inferInstanceAs (Decidable
    (Ensures (before.runApprovedModules env data) fun result =>
      ∀ manager ∈ result.2.asked, manager.idlingModule ∉ result.2.approvedModules))

namespace Exclusive

variable {self after : PlannerManager}

theorem of_noCandidates (happroved : after.approvedModules.Nodup)
    (hempty : after.candidateModules = []) : after.Exclusive := by
  refine ⟨happroved, ?_, ?_⟩
  · rw [hempty]
    exact fun _ _ => List.not_mem_nil
  · rw [hempty]
    exact List.nodup_nil

theorem of_sameLists (hself : self.Exclusive) (hlists : SameLists self after)
    (hnames : ∀ ptr ∈ self.candidateModules,
      after.heap.nameOf ptr = self.heap.nameOf ptr) : after.Exclusive := by
  obtain ⟨happroved, hdisjoint, hcandidates⟩ := hself
  refine ⟨?_, ?_, ?_⟩
  · rw [hlists.approvedModules]
    exact happroved
  · rw [hlists.approvedModules, hlists.candidateModules]
    exact hdisjoint
  · rw [hlists.candidateModules, List.map_congr_left hnames]
    exact hcandidates

theorem popped (hself : self.Exclusive) (hpopped : Popped self after) : after.Exclusive := by
  unfold Popped at hpopped
  cases hback : self.approvedModules.dropWhile (!self.heap.waits ·) with
  | nil =>
    rw [hback] at hpopped
    rw [hpopped]
    exact hself
  | cons waiting behind =>
    rw [hback] at hpopped
    obtain ⟨_, happroved, hcandidates, _⟩ := hpopped
    -- the waiting module stands behind those that stay approved
    have hsplit : self.approvedModules =
        self.approvedModules.takeWhile (!self.heap.waits ·) ++ waiting :: behind := by
      rw [← hback, List.takeWhile_append_dropWhile]
    have hnodup := hself.approved
    rw [hsplit] at hnodup
    obtain ⟨hfront, _, hapart⟩ := List.nodup_append.mp hnodup
    refine ⟨?_, ?_, ?_⟩
    · rw [happroved]
      exact hfront
    · rw [happroved, hcandidates]
      intro ptr hmem hwaiting
      exact hapart ptr hmem waiting (List.mem_cons_self ..) (List.mem_singleton.mp hwaiting)
    · rw [hcandidates]
      exact List.nodup_singleton _

theorem dropsSuffix (hself : self.Exclusive) (hdrops : DropsSuffix self after) :
    after.Exclusive := by
  obtain ⟨back, hsplit, hkept, hempty, _, hpart⟩ := hdrops
  have hnodup := hself.approved
  rw [hsplit] at hnodup
  have hfront := (List.nodup_append.mp hnodup).1
  by_cases hback : back = []
  · refine ⟨hfront, ?_, ?_⟩
    · rw [hkept hback]
      intro ptr hmem
      refine hself.disjoint ptr ?_
      rw [hsplit]
      exact List.mem_append_left _ hmem
    · rw [hkept hback, funext hpart.nameOf]
      exact hself.candidates
  · exact of_noCandidates hfront (hempty hback)

theorem approvedRun (hself : self.Exclusive) (hrun : ApprovedRun self after) :
    after.Exclusive := by
  obtain ⟨popped, valid, hpopped, hvalid, hafter⟩ := hrun
  exact ((hself.popped hpopped).dropsSuffix hvalid).dropsSuffix hafter

variable {env}

theorem requests_not_approved {data : Data} {executed approved requesting : PlannerManager}
    {requests : List ModulePtr} (hwell : approved.WellFormed) (happroved : approved.Exclusive)
    (hasks : AsksNoApproved env data self)
    (hiteration : Iteration env data self executed approved requesting requests after) :
    ∀ ptr ∈ requests, ptr ∉ requesting.approvedModules := by
  intro ptr hmem hheld
  rw [hiteration.launched.lists.approvedModules] at hheld
  obtain ⟨output, hruns⟩ := hiteration.runs
  rcases hiteration.asked ptr hmem with hcandidate | hasked
  · exact happroved.disjoint ptr hheld hcandidate
  · obtain ⟨manager, hmanager, rfl⟩ := hasked (hwell.approved ptr hheld)
    exact hasks.of_eq hruns manager hmanager hheld

theorem iteration {data : Data} {executed approved requesting : PlannerManager}
    {requests : List ModulePtr} (hwell : self.WellFormed) (hself : self.Exclusive)
    (hasks : AsksNoApproved env data self)
    (hiteration : Iteration env data self executed approved requesting requests after) :
    after.Exclusive := by
  have hexecutedWell := hiteration.executedWellFormed hwell
  have happrovedWell := hexecutedWell.approvedRun hiteration.approvedRun
  have hexecuted : executed.Exclusive := hself.of_sameLists hiteration.executedLists
    fun ptr _ => hiteration.executedPart.nameOf ptr
  have happroved := hexecuted.approvedRun hiteration.approvedRun
  have hrequesting : requesting.Exclusive := by
    refine happroved.of_sameLists hiteration.launched.lists fun ptr hmem => ?_
    exact hiteration.launched.nameOf happrovedWell.consistent (happrovedWell.candidates ptr hmem)
  have hfresh := requests_not_approved happrovedWell happroved hasks hiteration
  have hrun : ∀ {updated executable running highest}, (∀ ptr ∈ executable, ptr ∈ requests) →
      RequestsRun requesting updated executable running highest →
      updated.Exclusive ∧ highest ∉ updated.approvedModules := by
    intro updated executable running highest hexecutable hrun
    have hrunning : ∀ ptr ∈ running, ptr ∉ requesting.approvedModules :=
      fun ptr hmem => hfresh ptr (hexecutable ptr (hrun.executed ptr hmem))
    refine ⟨⟨?_, ?_, ?_⟩, ?_⟩
    · rw [hrun.approvedModules]
      exact hrequesting.approved
    · rw [hrun.approvedModules]
      intro ptr hheld hcandidate
      rcases hrun.candidates ptr hcandidate with hbefore | hran
      · exact hrequesting.disjoint ptr hheld hbefore
      · exact hrunning ptr hran hheld
    · rw [funext hrun.part.nameOf]
      exact hrun.nodup hrequesting.candidates
    · rw [hrun.approvedModules]
      exact hrunning highest hrun.selected
  cases hiteration.outcome with
  | unrequested => exact hrequesting
  | expired _ hexpired =>
    refine of_noCandidates ?_ hexpired.candidateModules
    rw [hexpired.approvedModules]
    exact hrequesting.approved
  | waiting hexecutable hran _ => exact (hrun hexecutable hran).1
  | approved hexecutable hran _ hadded hempty _ =>
    obtain ⟨hupdated, hnew⟩ := hrun hexecutable hran
    refine of_noCandidates ?_ hempty
    rw [hadded]
    refine hupdated.approved.append (List.nodup_singleton _) ?_
    intro ptr hheld hhighest
    rw [List.mem_singleton.mp hhighest] at hheld
    exact hnew hheld

end Exclusive

/-- In every run in which no manager is asked for a module that is approved, every
module is on the lists once and every name once among the candidates. -/
theorem exclusive_of_run {labels : List (Operation Data × List Out)} {self : PlannerManager}
    (hrun : Run (Guarded (Step env) fun before label _ =>
      before.OperationMeets env (fun _ _ => True) (AsksNoApproved env) label.1)
      empty labels self) : self.Exclusive := by
  refine invariant_of_run env Exclusive ?_ ?_ ?_ ?_ ?_ hrun
  · exact .of_noCandidates List.nodup_nil rfl
  · rintro self config ⟨happroved, hdisjoint, hcandidates⟩ _
    exact ⟨happroved, hdisjoint, hcandidates⟩
  · rintro data self executed approved requesting requests after hwell hself hasks hiteration
    exact hself.iteration hwell hasks hiteration
  · rintro self rootLanelet ⟨happroved, hdisjoint, hcandidates⟩
    exact ⟨happroved, hdisjoint, hcandidates⟩
  · intro self after _ hcleared
    refine .of_noCandidates ?_ hcleared.candidateModules
    rw [hcleared.approvedModules]
    exact List.nodup_nil

/-- Two managers of one module each meet the condition. -/
theorem exclusive_of_two_managers :
    let env := runningEnvironment (fun _ _ => false) (fun _ _ => true)
    ∃ labels self, Run (Step env) empty labels self ∧
      self.approvedModules = [some 0, some 1] ∧ self.Exclusive := by
  intro env
  let operations : List (Operation Unit) :=
    [.registerSceneModuleManager ⟨"avoidance", 1, 0, true, true⟩,
      .registerSceneModuleManager ⟨"pull_over", 1, 1, true, true⟩, .run () 10]
  have hruns : (executePartial (perform env) empty operations).map
      (fun result => result.2.approvedModules) = .ok [some 0, some 1] := by
    rfl
  obtain ⟨⟨labels, self⟩, hexecute, happroved⟩ := map_eq_ok.mp hruns
  have halong : AlongPartial (perform env) (fun before label _ =>
      before.OperationMeets env (fun _ _ => True) (AsksNoApproved env) label.1)
      empty operations := by
    decide +kernel
  have hrun := run_guarded_executePartial (perform env) halong hexecute
  exact ⟨labels, self, hrun.unguarded, happroved, exclusive_of_run env hrun⟩

/-- A manager of two modules gives away its idling module twice. -/
theorem approved_twice :
    let env := runningEnvironment (fun _ _ => false) (fun call _ => decide (call ≤ 6))
    ∃ labels self, Run (Step env) empty labels self ∧
      self.approvedModules = [some 0, some 0] ∧ ¬ self.Exclusive := by
  intro env
  have hruns : (executePartial (perform env) empty
      [.registerSceneModuleManager ⟨"avoidance", 2, 0, true, true⟩, .run () 10]).map
        (fun result => result.2.approvedModules) = .ok [some 0, some 0] := by
    rfl
  obtain ⟨⟨labels, self⟩, hexecute, happroved⟩ := map_eq_ok.mp hruns
  refine ⟨labels, self, run_executePartial (perform env) hexecute, happroved, fun hself => ?_⟩
  have hnodup := hself.approved
  rw [happroved] at hnodup
  exact absurd hnodup (by decide)

/-! ## Every registered module is on a list -/

instance (planner : PlannerManager) : DecidablePred planner.Registered :=
  fun ptr => inferInstanceAs
    (Decidable (∃ manager ∈ planner.managers, ptr ∈ manager.registeredModules))

/-- A registered module behind the first one that waits for approval is also in front
of it, or is that one, or is a candidate. -/
def PopsNoRegistered (planner : PlannerManager) : Prop :=
  ∀ ptr ∈ (planner.approvedModules.dropWhile (!planner.heap.waits ·)).tail, planner.Registered ptr →
      ptr ∈ planner.approvedModules.takeWhile (!planner.heap.waits ·) ∨
        some ptr = (planner.approvedModules.dropWhile (!planner.heap.waits ·)).head? ∨
        ptr ∈ planner.candidateModules

instance : DecidablePred PopsNoRegistered :=
  fun planner => inferInstanceAs (Decidable
    (∀ ptr ∈ (planner.approvedModules.dropWhile (!planner.heap.waits ·)).tail,
      planner.Registered ptr → ptr ∈ planner.approvedModules.takeWhile (!planner.heap.waits ·) ∨
          some ptr = (planner.approvedModules.dropWhile (!planner.heap.waits ·)).head? ∨
          ptr ∈ planner.candidateModules))

/-- The condition holds once the approved modules have been executed. -/
def KeepsRegistered (data : Data) (before : PlannerManager) : Prop :=
  Ensures (before.getReferencePath env data) fun root =>
    Ensures (before.executeApprovedModules env root) fun result => result.2.PopsNoRegistered

instance (data : Data) : DecidablePred (KeepsRegistered env data) :=
  fun before => inferInstanceAs (Decidable
    (Ensures (before.getReferencePath env data) fun root =>
      Ensures (before.executeApprovedModules env root) fun result => result.2.PopsNoRegistered))

def FreshName (self : PlannerManager) (config : ManagerConfig) : Prop :=
  config.name ∉ self.managers.map SceneModuleManager.name

instance (self : PlannerManager) (config : ManagerConfig) : Decidable (FreshName self config) :=
  inferInstanceAs (Decidable (config.name ∉ self.managers.map SceneModuleManager.name))

/-- The managers are apart, and every registered module is on a list. -/
structure Accounted (planner : PlannerManager) : Prop where
  separate : planner.Separate
  listed : ∀ ptr, planner.Registered ptr →
    ptr ∈ planner.approvedModules ∨ ptr ∈ planner.candidateModules

namespace Accounted

variable {self after : PlannerManager}

section

variable (hself : self.Accounted)

include hself

theorem sameLists (hpart : Part self after (fun _ => False) (fun _ => False))
    (hlists : SameLists self after) : after.Accounted := by
  refine ⟨hpart.separate hself.separate, fun ptr hregistered => ?_⟩
  rw [hlists.approvedModules, hlists.candidateModules]
  exact hself.listed ptr ((hpart.registered ptr hregistered).resolve_right id)

theorem launched (hwell : self.WellFormed) (hlaunched : Launched self after) : after.Accounted := by
  refine ⟨hlaunched.separate hwell.registered hself.separate, fun ptr hregistered => ?_⟩
  rw [hlaunched.lists.approvedModules, hlaunched.lists.candidateModules]
  exact hself.listed ptr (hlaunched.registered hregistered)

theorem popped (hpops : self.PopsNoRegistered) (hpopped : Popped self after) : after.Accounted := by
  unfold Popped at hpopped
  unfold PopsNoRegistered at hpops
  cases hback : self.approvedModules.dropWhile (!self.heap.waits ·) with
  | nil =>
    rw [hback] at hpopped
    rw [hpopped]
    exact hself
  | cons waiting behind =>
    rw [hback] at hpopped hpops
    obtain ⟨_, happroved, hcandidates, hpart⟩ := hpopped
    refine ⟨hpart.separate hself.separate, fun ptr hregistered => ?_⟩
    rw [happroved, hcandidates]
    have hbefore := (hpart.registered ptr hregistered).resolve_right id
    -- the former candidates were deleted
    have hnot : ptr ∉ self.candidateModules :=
      fun hmem => hpart.gone hself.separate ptr hmem hregistered
    have hheld := (hself.listed ptr hbefore).resolve_right hnot
    rw [← List.takeWhile_append_dropWhile (p := (!self.heap.waits ·))
      (l := self.approvedModules), hback] at hheld
    rcases List.mem_append.mp hheld with hfront | hrest
    · exact .inl hfront
    · rcases List.mem_cons.mp hrest with rfl | hbehind
      · exact .inr (List.mem_singleton_self _)
      · rcases hpops ptr hbehind hbefore with hfront | hwaiting | hcandidate
        · exact .inl hfront
        · cases hwaiting
          exact .inr (List.mem_singleton_self _)
        · exact absurd hcandidate hnot

theorem dropsSuffix (hdrops : DropsSuffix self after) :
    after.Accounted := by
  obtain ⟨back, hsplit, hkept, hempty, _, hpart⟩ := hdrops
  refine ⟨hpart.separate hself.separate, fun ptr hregistered => ?_⟩
  have hgone := hpart.gone hself.separate ptr
  rcases hself.listed ptr ((hpart.registered ptr hregistered).resolve_right id) with
    hheld | hcandidate
  · rw [hsplit] at hheld
    rcases List.mem_append.mp hheld with hfront | hback
    · exact .inl hfront
    · exact absurd hregistered (hgone (.inl hback))
  · by_cases hback : back = []
    · rw [hkept hback]
      exact .inr hcandidate
    · exact absurd hregistered (hgone (.inr ⟨hback, hcandidate⟩))

theorem requestsRun (hwell : self.WellFormed) {executable running : List ModulePtr}
    {highest : ModulePtr} (howned : ∀ ptr ∈ executable, self.Owned ptr)
    (hrun : RequestsRun self after executable running highest) {ptr : ModulePtr}
    (hregistered : after.Registered ptr) :
    ptr ∈ after.approvedModules ∨ ptr ∈ after.candidateModules ∨
      (ptr = highest ∧ after.heap.waits highest = false) := by
  have hgone := hrun.part.gone hself.separate ptr
  have hcases : ptr ∈ self.approvedModules ∨ ptr ∈ self.candidateModules ∨
      ptr ∈ running := by
    rcases hrun.part.registered ptr hregistered with hbefore | hexecuted
    · exact (hself.listed ptr hbefore).imp_right .inl
    · by_cases hrunning : ptr ∈ running
      · exact .inr (.inr hrunning)
      · exact absurd hregistered (hgone (.inl ⟨hexecuted, hrunning⟩))
  rcases hcases with hheld | hlisted
  · rw [hrun.approvedModules]
    exact .inl hheld
  · right
    have hrunningOwned : ∀ other ∈ running, self.Owned other :=
      fun other hmem => howned other (hrun.executed other hmem)
    have hptr : self.Owned ptr := hlisted.elim (hwell.candidates ptr) (hrunningOwned ptr)
    have hnamed : NameIn self.heap running ptr := by
      by_contra hnot
      rcases hlisted with hcandidate | hrunning
      · exact hgone (.inr ⟨hcandidate, hnot⟩) hregistered
      · exact hnot ⟨ptr, hrunning, rfl⟩
    -- a module is determined by its name
    have hsame : ∀ other, self.Owned other →
        self.heap.nameOf ptr = self.heap.nameOf other → ptr = other :=
      fun other hother hname => Owned.eq_of_nameOf_eq hwell.consistent
        hself.separate.names hptr hother hname
    rcases hrun.kept ptr hlisted hnamed with ⟨found, hfound, hname⟩ | ⟨hname, hwaits⟩
    · have hfoundOwned : self.Owned found :=
        (hrun.candidates found hfound).elim (hwell.candidates found) (hrunningOwned found)
      rw [hsame found hfoundOwned hname.symm]
      exact .inl hfound
    · exact .inr ⟨hsame highest (hrunningOwned highest hrun.selected) hname, hwaits⟩

end

variable {env}

theorem iteration {data : Data} {executed approved requesting : PlannerManager}
    {requests : List ModulePtr} (hwell : self.WellFormed) (hself : self.Accounted)
    (hkeeps : KeepsRegistered env data self)
    (hiteration : Iteration env data self executed approved requesting requests after) :
    after.Accounted := by
  have happrovedWell := (hiteration.executedWellFormed hwell).approvedRun hiteration.approvedRun
  have hrequestingWell := hiteration.requestingWellFormed hwell
  have hexecuted := hself.sameLists hiteration.executedPart hiteration.executedLists
  have hpops : executed.PopsNoRegistered := by
    obtain ⟨root, results, hreference, hexecute⟩ := hiteration.executes
    exact (hkeeps.of_eq hreference).of_eq hexecute
  have happroved : approved.Accounted := by
    obtain ⟨popped, valid, hpopped, hvalid, hafter⟩ := hiteration.approvedRun
    exact ((hexecuted.popped hpops hpopped).dropsSuffix hvalid).dropsSuffix hafter
  have hrequesting := happroved.launched happrovedWell hiteration.launched
  have howned : ∀ {executable : List ModulePtr}, (∀ ptr ∈ executable, ptr ∈ requests) →
      ∀ ptr ∈ executable, requesting.Owned ptr :=
    fun hexecutable ptr hmem => hiteration.owned ptr (hexecutable ptr hmem)
  cases hiteration.outcome with
  | unrequested => exact hrequesting
  | expired hexecutable hexpired =>
    refine ⟨hexpired.part.separate hrequesting.separate, fun ptr hregistered => ?_⟩
    have hgone := hexpired.part.gone hrequesting.separate ptr
    rcases hexpired.part.registered ptr hregistered with hbefore | hexecuted
    · rcases hrequesting.listed ptr hbefore with hheld | hcandidate
      · rw [hexpired.approvedModules]
        exact .inl hheld
      · exact absurd hregistered (hgone (.inr hcandidate))
    · exact absurd hregistered (hgone (.inl hexecuted))
  | waiting hexecutable hran hwaiting =>
    refine ⟨hran.part.separate hrequesting.separate, fun ptr hregistered => ?_⟩
    rcases hrequesting.requestsRun hrequestingWell (howned hexecutable) hran hregistered with
      hheld | hcandidate | ⟨_, hnot⟩
    · exact .inl hheld
    · exact .inr hcandidate
    · rw [hwaiting] at hnot
      cases hnot
  | approved hexecutable hran _ hadded hempty hpart =>
    have hupdated := hran.part.separate hrequesting.separate
    refine ⟨hpart.separate hupdated, fun ptr hregistered => ?_⟩
    rw [hadded]
    have hbefore := (hpart.registered ptr hregistered).resolve_right id
    rcases hrequesting.requestsRun hrequestingWell (howned hexecutable) hran hbefore with
      hheld | hcandidate | ⟨rfl, _⟩
    · exact .inl (List.mem_append_left _ hheld)
    · exact absurd hregistered (hpart.gone hupdated ptr hcandidate)
    · exact .inl (List.mem_append_right _ (List.mem_singleton_self _))

theorem register (hself : self.Accounted) {config : ManagerConfig} (hfresh : FreshName self config) :
    (self.registerSceneModuleManager config).Accounted := by
  refine ⟨⟨?_, ?_, ?_⟩, fun ptr hregistered => hself.listed ptr (registered_of_register hregistered)⟩
  · change ((self.managers ++ [_]).map SceneModuleManager.name).Nodup
    rw [List.map_append]
    refine hself.separate.names.append (List.nodup_singleton _) ?_
    intro name hold hnew
    rw [List.mem_singleton.mp hnew] at hold
    exact hfresh hold
  · intro manager hmanager
    rcases List.mem_append.mp hmanager with hold | hnew
    · exact hself.separate.nodup manager hold
    · rw [List.mem_singleton.mp hnew]
      exact List.nodup_nil
  · intro manager hmanager ptr hmem
    rcases List.mem_append.mp hmanager with hold | hnew
    · exact hself.separate.idling manager hold ptr hmem
    · rw [List.mem_singleton.mp hnew] at hmem
      cases hmem

theorem cleared (hself : self.Accounted) (hcleared : Cleared self after) :
    after.Accounted := by
  have hmanagers : ∀ manager ∈ after.managers, manager.registeredModules = [] := by
    intro manager hmanager
    rw [hcleared.managers] at hmanager
    obtain ⟨_, _, rfl⟩ := List.mem_map.mp hmanager
    rfl
  refine ⟨⟨?_, ?_, ?_⟩, fun ptr hregistered => absurd hregistered (hcleared.not_registered ptr)⟩
  · have hnames : after.managers.map SceneModuleManager.name =
        self.managers.map SceneModuleManager.name := by
      rw [hcleared.managers, List.map_map]
      rfl
    rw [hnames]
    exact hself.separate.names
  · intro manager hmanager
    rw [hmanagers manager hmanager]
    exact List.nodup_nil
  · intro manager hmanager ptr hmem
    rw [hmanagers manager hmanager] at hmem
    cases hmem

theorem registeredModules_eq_nil (hself : self.Accounted) (hwell : self.WellFormed)
    {manager : SceneModuleManager} (hmanager : manager ∈ self.managers)
    (hleft : ∀ ptr, ptr ∈ self.approvedModules ∨ ptr ∈ self.candidateModules →
      self.heap.nameOf ptr ≠ manager.name) : manager.registeredModules = [] := by
  refine List.eq_nil_iff_forall_not_mem.mpr fun ptr hmem => ?_
  have hregistered : self.Registered ptr := ⟨manager, hmanager, hmem⟩
  obtain ⟨_, address, _, rfl⟩ := hwell.registered ptr hregistered
  exact hleft _ (hself.listed _ hregistered)
    (hself.separate.nameOf_eq hwell.consistent hmanager hmem)

end Accounted

theorem accounted_empty : empty.Accounted where
  separate := ⟨List.nodup_nil, fun _ hmem => (List.not_mem_nil hmem).elim,
    fun _ hmem => (List.not_mem_nil hmem).elim⟩
  listed := by
    rintro ptr ⟨manager, hmanager, _⟩
    cases hmanager

/-- In every run in which no registered module stands behind one that waits for
approval, every registered module is on a list, and a manager whose modules have
left the lists can launch again. -/
theorem accounted_of_run {labels : List (Operation Data × List Out)} {self : PlannerManager}
    (hrun : Run (Guarded (Step env) fun before label _ =>
      before.OperationMeets env FreshName (KeepsRegistered env) label.1) empty labels self) :
    (∀ manager ∈ self.managers, ∀ ptr ∈ manager.registeredModules,
      ptr ∈ self.approvedModules ∨ ptr ∈ self.candidateModules) ∧
    ∀ manager ∈ self.managers, (∀ ptr, ptr ∈ self.approvedModules ∨ ptr ∈ self.candidateModules →
        self.heap.nameOf ptr ≠ manager.name) →
      1 ≤ manager.maxModuleNum → manager.canLaunchNewModule = true := by
  have hwell := wellFormed_of_run env hrun.unguarded
  have hself : self.Accounted := by
    refine invariant_of_run env Accounted accounted_empty ?_ ?_ ?_ ?_ hrun
    · exact fun self config hself hfresh => hself.register hfresh
    · rintro data self executed approved requesting requests after hwell hself hkeeps hiteration
      exact hself.iteration hwell hkeeps hiteration
    · rintro self rootLanelet ⟨⟨hnames, hnodup, hidling⟩, hlisted⟩
      exact ⟨⟨hnames, hnodup, hidling⟩, hlisted⟩
    · exact fun self after hself hcleared => hself.cleared hcleared
  constructor
  · exact fun manager hmanager ptr hmem => hself.listed ptr ⟨manager, hmanager, hmem⟩
  · intro manager hmanager hleft hmax
    have hnone := hself.registeredModules_eq_nil hwell hmanager hleft
    unfold SceneModuleManager.canLaunchNewModule
    rw [hnone]
    exact decide_eq_true hmax

/-- The last approved module waits for approval and becomes a candidate again. -/
theorem accounted_of_last_waiting :
    let env := runningEnvironment (fun call address => decide (13 ≤ call ∧ address = 1))
      (fun _ _ => true)
    ∃ labels self, Run (Step env) empty labels self ∧
      self.approvedModules = [some 0] ∧ self.candidateModules = [some 1] ∧
      ∀ manager ∈ self.managers, ∀ ptr ∈ manager.registeredModules,
        ptr ∈ self.approvedModules ∨ ptr ∈ self.candidateModules := by
  intro env
  let operations : List (Operation Unit) :=
    [.registerSceneModuleManager ⟨"avoidance", 1, 0, true, true⟩,
      .registerSceneModuleManager ⟨"pull_over", 1, 1, true, true⟩, .run () 10, .run () 10]
  have hruns : (executePartial (perform env) empty operations).map
      (fun result => (result.2.approvedModules, result.2.candidateModules)) =
      .ok ([some 0], [some 1]) := by
    rfl
  obtain ⟨⟨labels, self⟩, hexecute, hlists⟩ := map_eq_ok.mp hruns
  obtain ⟨happroved, hcandidates⟩ := Prod.mk.inj hlists
  have halong : AlongPartial (perform env) (fun before label _ =>
      before.OperationMeets env FreshName (KeepsRegistered env) label.1) empty operations := by
    decide +kernel
  have hrun := run_guarded_executePartial (perform env) halong hexecute
  exact ⟨labels, self, hrun.unguarded, happroved, hcandidates, (accounted_of_run env hrun).1⟩

/-- The first approved module waits for approval, and the one behind it is lost. -/
theorem lost_behind_waiting :
    let env := runningEnvironment (fun call address => decide (13 ≤ call ∧ address = 0))
      (fun _ _ => true)
    ∃ labels self, Run (Step env) empty labels self ∧
      self.approvedModules = [] ∧ self.candidateModules = [some 0] ∧
      ∃ manager ∈ self.managers, manager.registeredModules = [some 1] ∧
        manager.maxModuleNum = 1 ∧ manager.canLaunchNewModule = false := by
  intro env
  let operations : List (Operation Unit) :=
    [.registerSceneModuleManager ⟨"avoidance", 1, 0, true, true⟩,
      .registerSceneModuleManager ⟨"pull_over", 1, 1, true, true⟩, .run () 10, .run () 10]
  have hruns : (executePartial (perform env) empty operations).map
      (fun result => (result.2.approvedModules, result.2.candidateModules, result.2.managers)) =
      .ok ([], [some 0], [⟨"avoidance", 1, 0, true, true, [some 0], some 0⟩,
          ⟨"pull_over", 1, 1, true, true, [some 1], some 1⟩]) := by
    rfl
  obtain ⟨⟨labels, self⟩, hexecute, hstate⟩ := map_eq_ok.mp hruns
  obtain ⟨happroved, hrest⟩ := Prod.mk.inj hstate
  obtain ⟨hcandidates, hmanagers⟩ := Prod.mk.inj hrest
  refine ⟨labels, self, run_executePartial (perform env) hexecute, happroved, hcandidates,
    ⟨"pull_over", 1, 1, true, true, [some 1], some 1⟩, ?_, rfl, rfl, rfl⟩
  rw [hmanagers]
  exact List.mem_cons_of_mem _ (List.mem_singleton_self _)

end AutowareUniverse.Planning.PlannerManager
