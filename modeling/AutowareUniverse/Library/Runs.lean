import AutowareUniverse.Library.Fallible
import Mathlib.Data.List.Chain

/-!
# Finite runs of labelled transition relations

A component is a relation `step before label after`, where the label carries
the event that was received and whatever the component sent out on it.  A run
is a finite chain of such steps.  Conditions on the single steps are imposed
by guarding the relation, so that a statement about every run whose steps
meet a condition is a statement about runs of the guarded relation.
-/

namespace AutowareUniverse.Library.Runs

open Library.Fallible

variable {σ ε : Type*}

inductive Run (step : σ → ε → σ → Prop) : σ → List ε → σ → Prop where
  | nil (state : σ) : Run step state [] state
  | cons {first middle last : σ} {label : ε} {labels : List ε} :
      step first label middle → Run step middle labels last →
      Run step first (label :: labels) last

def Guarded (step cond : σ → ε → σ → Prop) : σ → ε → σ → Prop :=
  fun before label after => step before label after ∧ cond before label after

/-- The relation of a total step function that also returns its output. -/
def OfFunction {ι ω : Type*} (next : σ → ι → σ × List ω) : σ → ι × List ω → σ → Prop :=
  fun before label after => next before label.1 = (after, label.2)

/-- The relation of a fallible step function: a failed call is no step. -/
def OfPartial {ι ω error : Type*} (next : σ → ι → Except error (σ × List ω)) :
    σ → ι × List ω → σ → Prop :=
  fun before label after => next before label.1 = .ok (after, label.2)

/-- The relation of a total step function without outputs. -/
def OfUpdate {ι : Type*} (update : σ → ι → σ) : σ → ι → σ → Prop :=
  fun before event after => update before event = after

/-- The state before and the label determine the state after. -/
def Deterministic (step : σ → ε → σ → Prop) : Prop :=
  ∀ ⦃before label after after'⦄, step before label after → step before label after' → after = after'

theorem OfFunction.deterministic {ι ω : Type*} (next : σ → ι → σ × List ω) :
    Deterministic (OfFunction next) :=
  fun _ _ _ _ hfirst hsecond => (Prod.mk.inj (hfirst.symm.trans hsecond)).1

theorem OfPartial.deterministic {ι ω error : Type*} (next : σ → ι → Except error (σ × List ω)) :
    Deterministic (OfPartial next) :=
  fun _ _ _ _ hfirst hsecond =>
    (Prod.mk.inj (Except.ok.inj (hfirst.symm.trans hsecond))).1

namespace Run

variable {step cond : σ → ε → σ → Prop}

theorem foldl {ι : Type*} (update : σ → ι → σ) (first : σ) (events : List ι) :
    Run (OfUpdate update) first events (events.foldl update first) := by
  induction events generalizing first with
  | nil => exact .nil first
  | cons event events ih => exact .cons rfl (ih _)

variable {first last : σ} {label : ε}

theorem single (hstep : step first label last) : Run step first [label] last :=
  .cons hstep (.nil last)

theorem append {first middle last : σ} {labels more : List ε}
    (hfirst : Run step first labels middle) (hlast : Run step middle more last) :
    Run step first (labels ++ more) last := by
  induction hfirst with
  | nil => exact hlast
  | cons hstep _ ih => exact .cons hstep (ih hlast)

/-- A run over a concatenation passes through a state between its parts. -/
theorem split {labels more : List ε} (hrun : Run step first (labels ++ more) last) :
    ∃ middle, Run step first labels middle ∧ Run step middle more last := by
  induction labels generalizing first with
  | nil => exact ⟨first, .nil first, hrun⟩
  | cons label labels ih =>
    cases hrun with
    | cons hstep hrest =>
      obtain ⟨middle, hprefix, hsuffix⟩ := ih hrest
      exact ⟨middle, .cons hstep hprefix, hsuffix⟩

variable {labels : List ε}

theorem mono {other : σ → ε → σ → Prop} (hmono : ∀ ⦃before label after⦄,
      step before label after → other before label after)
    (hrun : Run step first labels last) :
    Run other first labels last := by
  induction hrun with
  | nil => exact .nil _
  | cons hstep _ ih => exact .cons (hmono hstep) ih

theorem unguarded (hrun : Run (Guarded step cond) first labels last) :
    Run step first labels last :=
  hrun.mono fun _ _ _ h => h.1

theorem preserves (Inv : σ → Prop) (hstep : ∀ ⦃before label after⦄,
      Inv before → step before label after → Inv after)
    (hrun : Run step first labels last)
    (hfirst : Inv first) : Inv last := by
  induction hrun with
  | nil => exact hfirst
  | cons hnext _ ih => exact ih (hstep hfirst hnext)

theorem guard_of_invariant (Inv : σ → Prop) {cond : σ → ε → σ → Prop}
    (hstep : ∀ ⦃before label after⦄,
      Inv before → step before label after → Inv after ∧ cond before label after)
    (hrun : Run step first labels last)
    (hfirst : Inv first) : Run (Guarded step cond) first labels last := by
  induction hrun with
  | nil => exact .nil _
  | cons hnext _ ih =>
    obtain ⟨hafter, hcond⟩ := hstep hfirst hnext
    exact .cons ⟨hnext, hcond⟩ (ih hafter)

theorem guarded_congr {other : σ → ε → σ → Prop}
    (hagree : ∀ ⦃before label after⦄, step before label after →
      (cond before label after ↔ other before label after))
    :
    Run (Guarded step cond) first labels last ↔
      Run (Guarded step other) first labels last := by
  constructor
  · exact fun hrun => hrun.mono fun _ _ _ h => ⟨h.1, (hagree h.1).mp h.2⟩
  · exact fun hrun => hrun.mono fun _ _ _ h => ⟨h.1, (hagree h.1).mpr h.2⟩

theorem deterministic (hdet : Deterministic step) {first last last' : σ}
    (hrun : Run step first labels last) (hrun' : Run step first labels last') : last = last' := by
  induction hrun with
  | nil => cases hrun'; rfl
  | cons hstep _ ih =>
    cases hrun' with
    | cons hstep' hrest' =>
      rw [← hdet hstep hstep'] at hrest'
      exact ih hrest'

/-- What no step regains holds after a run exactly if each of its steps meets the
condition under which an invariant keeps it. -/
theorem safe_iff_guarded (hdet : Deterministic step) (Inv Safe : σ → Prop)
    (hlost : ∀ ⦃before label after⦄, step before label after → Safe after → Safe before)
    (hstep : ∀ ⦃before label after⦄, Inv before → Safe before →
      step before label after → Inv after ∧ (Safe after ↔ cond before label after))
    (hrun : Run step first labels last)
    (hfirst : Inv first) (hsafe : Safe first) :
    Safe last ↔ Run (Guarded step cond) first labels last := by
  induction hrun with
  | nil state => exact ⟨fun _ => .nil state, fun _ => hsafe⟩
  | @cons first middle last label labels hnext hrest ih =>
    obtain ⟨hinv, hkept⟩ := hstep hfirst hsafe hnext
    constructor
    · intro hlast
      have hmiddle : Safe middle := by
        by_contra hunsafe
        exact hrest.preserves (fun state => ¬Safe state)
          (fun _ _ _ hbefore hlater hafter => hbefore (hlost hlater hafter)) hunsafe hlast
      exact .cons ⟨hnext, hkept.mp hmiddle⟩ ((ih hinv hmiddle).mp hlast)
    · intro hguarded
      cases hguarded with
      | cons hhead htail =>
        obtain ⟨hsame, hcond⟩ := hhead
        rw [← hdet hnext hsame] at hcond htail
        have hmiddle := hkept.mpr hcond
        exact (ih hinv hmiddle).mpr htail

theorem guard_at (hdet : Deterministic step) {first before after last : σ} {early late : List ε}
    (hguarded : Run (Guarded step cond) first (early ++ label :: late) last)
    (hearly : Run step first early before) (hstep : step before label after) :
    cond before label after := by
  obtain ⟨middle, hprefix, hsuffix⟩ := hguarded.split
  have hmiddle : middle = before := hprefix.unguarded.deterministic hdet hearly
  subst middle
  cases hsuffix with
  | cons hnext _ =>
    rw [hdet hstep hnext.1]
    exact hnext.2

theorem induction_last {first : σ} {motive : List ε → σ → Prop} (hnil : motive [] first)
    (hsnoc : ∀ ⦃labels before label after⦄, Run step first labels before →
      motive labels before → step before label after → motive (labels ++ [label]) after)
    {last : σ} (hrun : Run step first labels last) :
    motive labels last := by
  induction labels using List.reverseRecOn generalizing last with
  | nil =>
    cases hrun
    exact hnil
  | append_singleton labels label ih =>
    obtain ⟨before, hearly, hlast⟩ := hrun.split
    cases hlast with
    | cons hstep hdone =>
      cases hdone
      exact hsnoc hearly (ih hearly) hstep

theorem guarded_of_at (hrun : Run step first labels last)
    (hcond : ∀ early label late before after, labels = early ++ label :: late →
      Run step first early before → step before label after → cond before label after) :
    Run (Guarded step cond) first labels last := by
  induction hrun with
  | nil => exact .nil _
  | @cons first middle last label labels hstep hrest ih =>
    refine .cons ⟨hstep, hcond [] label labels first middle rfl (.nil first) hstep⟩ ?_
    apply ih
    intro early later late before after hsplit hearly hlater
    subst hsplit
    exact hcond (label :: early) later late before after rfl (.cons hstep hearly) hlater

theorem exists_step_of_mem (hrun : Run step first labels last) (hmem : label ∈ labels) :
    ∃ early late before after, labels = early ++ label :: late ∧
      Run step first early before ∧ step before label after ∧
      Run step after late last := by
  obtain ⟨early, late, rfl⟩ := List.append_of_mem hmem
  obtain ⟨before, hearly, hrest⟩ := hrun.split
  cases hrest with
  | cons hstep hlate => exact ⟨early, late, before, _, rfl, hearly, hstep, hlate⟩

theorem guard_of_mem (hrun : Run (Guarded step cond) first labels last) (hmem : label ∈ labels) :
    ∃ before after, step before label after ∧ cond before label after := by
  induction hrun with
  | nil => cases hmem
  | cons hstep _ ih =>
    rcases List.mem_cons.mp hmem with rfl | hrest
    · exact ⟨_, _, hstep⟩
    · exact ih hrest

end Run

section

variable {step : σ → ε → σ → Prop}

def Since (step : σ → ε → σ → Prop) (first : σ) (event : σ → ε → σ → Prop) (kept : σ → Prop)
    (labels : List ε) (last : σ) : Prop :=
  ∃ early label late before after, labels = early ++ label :: late ∧
    Run step first early before ∧ step before label after ∧ event before label after ∧
    kept after ∧ Run (Guarded step fun _ _ state => kept state) after late last

namespace Since

variable {first before after : σ} {event : σ → ε → σ → Prop} {kept : σ → Prop}
  {labels : List ε} {label : ε}

theorem of_event (hrun : Run step first labels before) (hstep : step before label after)
    (hevent : event before label after) (hkept : kept after) :
    Since step first event kept (labels ++ [label]) after :=
  ⟨labels, label, [], before, after, rfl, hrun, hstep, hevent, hkept, .nil after⟩

theorem of_step (hsince : Since step first event kept labels before)
    (hstep : step before label after) (hkept : kept after) :
    Since step first event kept (labels ++ [label]) after := by
  obtain ⟨early, old, late, source, target, rfl, hearly, hold, hevent, htarget, hlate⟩ := hsince
  refine ⟨early, old, late ++ [label], source, target, ?_, hearly, hold, hevent, htarget, ?_⟩
  · rw [List.append_assoc, List.cons_append]
  · exact hlate.append (.single ⟨hstep, hkept⟩)

theorem mono {kept' : σ → Prop} (hmono : ∀ state, kept state → kept' state)
    (hsince : Since step first event kept labels before) :
    Since step first event kept' labels before := by
  obtain ⟨early, old, late, source, target, hsplit, hearly, hold, hevent, htarget, hlate⟩ := hsince
  refine ⟨early, old, late, source, target, hsplit, hearly, hold, hevent, hmono target htarget, ?_⟩
  exact hlate.mono fun _ _ state hstep => ⟨hstep.1, hmono state hstep.2⟩

end Since

end

section

variable {ρ : Type*}

def Recorded (step : σ → ε → σ → Prop) (record : ε → List ρ) : σ × List ρ → ε → σ × List ρ → Prop :=
  fun before label after => step before.1 label after.1 ∧ after.2 = before.2 ++ record label

theorem Deterministic.recorded {step : σ → ε → σ → Prop} (hdet : Deterministic step)
    (record : ε → List ρ) : Deterministic (Recorded step record) :=
  fun _ _ _ _ hfirst hsecond =>
    Prod.ext (hdet hfirst.1 hsecond.1) (hfirst.2.trans hsecond.2.symm)

theorem Deterministic.guarded {step cond : σ → ε → σ → Prop} (hdet : Deterministic step) :
    Deterministic (Guarded step cond) :=
  fun _ _ _ _ hfirst hsecond => hdet hfirst.1 hsecond.1

theorem isChain_concat_iff {relation : ρ → ρ → Prop} {records : List ρ} {latest : ρ} :
    (records ++ [latest]).IsChain relation ↔
      records.IsChain relation ∧ ∀ last ∈ records.getLast?, relation last latest := by
  rw [List.isChain_append]
  constructor
  · rintro ⟨hrecords, _, hlast⟩
    exact ⟨hrecords, fun last hmem => hlast last hmem latest rfl⟩
  · rintro ⟨hrecords, hlast⟩
    refine ⟨hrecords, .singleton _, ?_⟩
    intro last hmem next hnext
    cases hnext
    exact hlast last hmem

end

section

variable {ι ω : Type*} (next : σ → ι → σ × List ω)

/-- The labels and the final state of handling a list of events in order. -/
def execute (state : σ) : List ι → List (ι × List ω) × σ
  | [] => ([], state)
  | event :: events =>
    let result := next state event
    let rest := execute result.1 events
    ((event, result.2) :: rest.1, rest.2)

theorem execute_events (state : σ) (events : List ι) :
    (execute next state events).1.map Prod.fst = events := by
  induction events generalizing state with
  | nil => rfl
  | cons event events ih =>
    simp only [execute, List.map_cons]
    rw [ih]

theorem exists_label_of_mem (state : σ) {events : List ι} {event : ι} (hmem : event ∈ events) :
    ∃ label ∈ (execute next state events).1, label.1 = event := by
  rw [← execute_events next state events] at hmem
  exact List.mem_map.mp hmem

theorem run_execute (state : σ) (events : List ι) :
    Run (OfFunction next) state (execute next state events).1
      (execute next state events).2 := by
  induction events generalizing state with
  | nil => exact .nil state
  | cons event events ih => exact .cons rfl (ih _)

def Along (cond : σ → ι × List ω → σ → Prop) (state : σ) : List ι → Prop
  | [] => True
  | event :: events =>
    cond state (event, (next state event).2) (next state event).1 ∧
      Along cond (next state event).1 events

instance decidableAlong {cond : σ → ι × List ω → σ → Prop}
    [∀ before label after, Decidable (cond before label after)] :
    (state : σ) → (events : List ι) → Decidable (Along next cond state events)
  | _, [] => .isTrue trivial
  | state, event :: events =>
    have : Decidable (Along next cond (next state event).1 events) :=
      decidableAlong (next state event).1 events
    inferInstanceAs (Decidable (cond state (event, (next state event).2) (next state event).1 ∧
      Along next cond (next state event).1 events))

theorem run_execute_iff {cond : σ → ι × List ω → σ → Prop} {state : σ} {events : List ι} :
    Run (Guarded (OfFunction next) cond) state (execute next state events).1
      (execute next state events).2 ↔ Along next cond state events := by
  induction events generalizing state with
  | nil => exact ⟨fun _ => trivial, fun _ => .nil state⟩
  | cons event events ih =>
    constructor
    · intro hrun
      cases hrun with
      | cons hstep hrest =>
        obtain ⟨hnext, hcond⟩ := hstep
        obtain ⟨rfl, _⟩ := Prod.mk.inj hnext
        exact ⟨hcond, ih.mp hrest⟩
    · intro halong
      exact .cons ⟨rfl, halong.1⟩ (ih.mpr halong.2)

end

/-! ## Executing a list of events that may fail -/

variable {ι ω : Type} {σ error : Type} (next : σ → ι → Except error (σ × List ω))

/-- The labels and the final state of handling a list of events in order, unless
one of them fails. -/
def executePartial (state : σ) : List ι → Except error (List (ι × List ω) × σ)
  | [] => .ok ([], state)
  | event :: events => do
    let result ← next state event
    let rest ← executePartial result.1 events
    return ((event, result.2) :: rest.1, rest.2)

variable {events : List ι} {labels : List (ι × List ω)}

theorem run_executePartial {state last : σ}
    (hexecute : executePartial next state events = .ok (labels, last)) :
    Run (OfPartial next) state labels last := by
  induction events generalizing state labels with
  | nil =>
    cases hexecute
    exact .nil _
  | cons event events ih =>
    obtain ⟨result, hresult, hrest⟩ := bind_eq_ok.mp hexecute
    obtain ⟨rest, hexecuteRest, hreturn⟩ := bind_eq_ok.mp hrest
    cases hreturn
    exact .cons hresult (ih hexecuteRest)

theorem exists_run_executePartial {state : σ}
    (hexecute : (executePartial next state events).map Prod.fst = .ok labels) :
    ∃ last, Run (OfPartial next) state labels last := by
  obtain ⟨⟨_, last⟩, hresult, rfl⟩ := map_eq_ok.mp hexecute
  exact ⟨last, run_executePartial next hresult⟩

def AlongPartial (cond : σ → ι × List ω → σ → Prop) (state : σ) : List ι → Prop
  | [] => True
  | event :: events => Ensures (next state event) fun result =>
    cond state (event, result.2) result.1 ∧ AlongPartial cond result.1 events

instance decidableAlongPartial {cond : σ → ι × List ω → σ → Prop}
    [∀ before label after, Decidable (cond before label after)] :
    (state : σ) → (events : List ι) → Decidable (AlongPartial next cond state events)
  | _, [] => .isTrue trivial
  | state, event :: events =>
    have (result : σ × List ω) : Decidable (AlongPartial next cond result.1 events) :=
      decidableAlongPartial result.1 events
    inferInstanceAs (Decidable (Ensures (next state event) fun result =>
      cond state (event, result.2) result.1 ∧ AlongPartial next cond result.1 events))

/-- A step function that also keeps the records of its steps. -/
def recordPartial {ρ : Type} (record : ι × List ω → List ρ) (state : σ × List ρ) (event : ι) :
    Except error ((σ × List ρ) × List ω) :=
  (next state.1 event).map fun result =>
    ((result.1, state.2 ++ record (event, result.2)), result.2)

theorem recorded_of_recordPartial {ρ : Type} {record : ι × List ω → List ρ}
    {before after : σ × List ρ} {label : ι × List ω}
    (hstep : OfPartial (recordPartial next record) before label after) :
    Recorded (OfPartial next) record before label after := by
  obtain ⟨result, hnext, hresult⟩ := map_eq_ok.mp hstep
  obtain ⟨hafter, houtputs⟩ := Prod.mk.inj hresult
  rw [← hafter]
  refine ⟨?_, ?_⟩
  · rw [OfPartial, hnext, ← houtputs]
  · rw [houtputs]

theorem run_guarded_executePartial {cond : σ → ι × List ω → σ → Prop} {state last : σ}
    (halong : AlongPartial next cond state events)
    (hexecute : executePartial next state events = .ok (labels, last)) :
    Run (Guarded (OfPartial next) cond) state labels last := by
  induction events generalizing state labels with
  | nil =>
    cases hexecute
    exact .nil _
  | cons event events ih =>
    obtain ⟨result, hresult, hrest⟩ := bind_eq_ok.mp hexecute
    obtain ⟨rest, hexecuteRest, hreturn⟩ := bind_eq_ok.mp hrest
    cases hreturn
    obtain ⟨hcond, hlater⟩ := Ensures.of_eq halong hresult
    exact .cons ⟨hresult, hcond⟩ (ih hlater hexecuteRest)

/-- A list of events fails exactly if one of them fails after those before it. -/
theorem executePartial_eq_error_iff {state : σ} {failure : error} :
    executePartial next state events = .error failure ↔
      ∃ early event late labels middle, events = early ++ event :: late ∧
        Run (OfPartial next) state labels middle ∧ labels.map Prod.fst = early ∧
        next middle event = .error failure := by
  induction events generalizing state with
  | nil =>
    constructor
    · intro hfailed
      cases hfailed
    · rintro ⟨early, event, late, _, _, hsplit, _⟩
      exact absurd hsplit (by simp)
  | cons event events ih =>
    constructor
    · intro hfailed
      unfold executePartial at hfailed
      cases hnext : next state event with
      | error other =>
        rw [hnext] at hfailed
        cases hfailed
        exact ⟨[], event, events, [], state, rfl, .nil state, rfl, hnext⟩
      | ok result =>
        rw [hnext] at hfailed
        have hrest : executePartial next result.1 events = .error failure := by
          cases hexecute : executePartial next result.1 events with
          | error other =>
            change (executePartial next result.1 events >>= fun rest =>
              pure ((event, result.2) :: rest.1, rest.2)) = _ at hfailed
            rw [hexecute] at hfailed
            cases hfailed
            rfl
          | ok rest =>
            change (executePartial next result.1 events >>= fun rest =>
              pure ((event, result.2) :: rest.1, rest.2)) = _ at hfailed
            rw [hexecute] at hfailed
            cases hfailed
        obtain ⟨early, failing, late, labels, middle, rfl, hrun, hearly, hfailing⟩ := ih.mp hrest
        refine ⟨event :: early, failing, late, (event, result.2) :: labels, middle, rfl,
          .cons hnext hrun, ?_, hfailing⟩
        rw [List.map_cons, hearly]
    · rintro ⟨early, failing, late, labels, middle, hsplit, hrun, rfl, hfailing⟩
      unfold executePartial
      cases hrun with
      | nil =>
        obtain ⟨rfl, _⟩ := List.cons.inj hsplit
        rw [hfailing]
        rfl
      | cons hstep hrest =>
        rename_i first label labels
        obtain ⟨rfl, hevents⟩ := List.cons.inj hsplit
        have hfailed := ih.mpr ⟨_, failing, late, labels, middle, hevents, hrest, rfl, hfailing⟩
        rw [hstep]
        change (executePartial next first events >>= fun rest =>
          pure ((label.1, label.2) :: rest.1, rest.2)) = _
        rw [hfailed]
        rfl

end AutowareUniverse.Library.Runs
