import AutowareUniverse.Library.FloatingNumber
import AutowareUniverse.Library.KeepBest
import AutowareUniverse.Library.Numerals
import Mathlib.Algebra.Field.Rat
import Mathlib.Algebra.Order.Ring.Rat
import Mathlib.Data.List.Nodup

/-!
# Selection of the hardest velocity limit

Each sender has one velocity limit in a table.  The hardest limit has the lowest velocity and
the constraints with the highest jerk.  Both are folded over the table in the order of an
iteration, which is any order of the entries.
-/

namespace AutowareUniverse.Planning.VelocityLimitSelector

open Library.KeepBest Library.FloatingNumber

structure VelocityLimitConstraints (K : Type) where
  minAcceleration : Number K
  minJerk : Number K
  maxJerk : Number K
  deriving DecidableEq

/-- The stamp is in nanoseconds. -/
structure VelocityLimit (K : Type) where
  stamp : ℤ
  maxVelocity : Number K
  useConstraints : Bool
  constraints : VelocityLimitConstraints K
  sender : String
  deriving DecidableEq

structure NodeParam (K : Type) where
  maxVelocity : K
  normalMinAcc : K
  normalMinJerk : K
  normalMaxJerk : K

abbrev VelocityLimitTable (K : Type) := List (String × VelocityLimit K)

variable {K : Type} [Field K] [LinearOrder K]

/-- A message whose fields have their default values. -/
def VelocityLimit.default : VelocityLimit K :=
  ⟨0, .finite 0, false, ⟨.finite 0, .finite 0, .finite 0⟩, ""⟩

section

variable (nodeParam : NodeParam K)

def normalConstraints : VelocityLimitConstraints K where
  minAcceleration := .finite nodeParam.normalMinAcc
  minJerk := .finite nodeParam.normalMinJerk
  maxJerk := .finite nodeParam.normalMaxJerk

def guardedVelocity (limit : VelocityLimit K) : Number K :=
  if limit.maxVelocity.isFinite then limit.maxVelocity else .finite nodeParam.maxVelocity

def guardedConstraints (limit : VelocityLimit K) : VelocityLimitConstraints K :=
  if limit.useConstraints && limit.constraints.maxJerk.isFinite then limit.constraints
  else normalConstraints nodeParam

/-- The variables of the loop. -/
structure Hardest (K : Type) where
  hardestLimit : VelocityLimit K
  hardestMaxVelocity : Number K
  hardestMaxJerk : Number K

/-- The body of the loop over the table. -/
def hardestStep (state : Hardest K) (limit : String × VelocityLimit K) : Hardest K :=
  let maxVelocity := guardedVelocity nodeParam limit.2
  let state :=
    if maxVelocity.less state.hardestMaxVelocity then
      { state with
        hardestLimit := { state.hardestLimit with stamp := limit.2.stamp, maxVelocity := maxVelocity }
        hardestMaxVelocity := maxVelocity }
    else state
  let constraints := guardedConstraints nodeParam limit.2
  if state.hardestMaxJerk.less constraints.maxJerk then
    { state with
      hardestLimit := { state.hardestLimit with constraints := constraints, useConstraints := true }
      hardestMaxJerk := constraints.maxJerk }
  else state

def getHardestLimit (velocityLimits : VelocityLimitTable K) : VelocityLimit K :=
  (velocityLimits.foldl (hardestStep nodeParam)
    ⟨{ VelocityLimit.default with maxVelocity := .finite nodeParam.maxVelocity },
      .finite nodeParam.maxVelocity, .finite 0⟩).hardestLimit

end

inductive Message (K : Type)
  | fromAPI (velocityLimit : VelocityLimit K)
  | fromInternal (velocityLimit : VelocityLimit K)
  | clearCommand (command : Bool) (sender : String)

/-- A limit is overwritten, or a new entry is emplaced. -/
def setVelocityLimit (table : VelocityLimitTable K) (sender : String)
    (velocityLimit : VelocityLimit K) : VelocityLimitTable K :=
  if table.any (·.1 = sender) then
    table.map fun entry => if entry.1 = sender then (sender, velocityLimit) else entry
  else table ++ [(sender, velocityLimit)]

def receive (table : VelocityLimitTable K) : Message K → VelocityLimitTable K
  | .fromAPI velocityLimit => setVelocityLimit table "api" velocityLimit
  | .fromInternal velocityLimit => setVelocityLimit table velocityLimit.sender velocityLimit
  | .clearCommand command sender =>
    if command then table.filter (·.1 ≠ sender) else table

/-- `updateVelocityLimit`, with an order in which the table is iterated. -/
def updateVelocityLimit (nodeParam : NodeParam K) (now : ℤ) (order : VelocityLimitTable K) :
    VelocityLimit K :=
  if order.isEmpty then
    { VelocityLimit.default with stamp := now, maxVelocity := .finite nodeParam.maxVelocity }
  else getHardestLimit nodeParam order

def tableOf (messages : List (Message K)) : VelocityLimitTable K :=
  messages.foldl receive []

/-! ## The loop as two folds -/

variable {nodeParam : NodeParam K}

section
omit [Field K] [LinearOrder K]

theorem isFinite_guardedVelocity (nodeParam : NodeParam K) (limit : VelocityLimit K) :
    (guardedVelocity nodeParam limit).isFinite = true := by
  unfold guardedVelocity
  split
  · assumption
  · rfl

theorem isFinite_guardedConstraints (nodeParam : NodeParam K) (limit : VelocityLimit K) :
    (guardedConstraints nodeParam limit).maxJerk.isFinite = true := by
  unfold guardedConstraints
  split
  · rename_i hguard
    exact ((Bool.and_eq_true _ _).mp hguard).2
  · rfl

end

def velocityKey (kept : ℤ × Number K) : Kᵒᵈ :=
  OrderDual.toDual kept.2.value

def jerkKey (kept : Bool × VelocityLimitConstraints K) : K :=
  kept.2.maxJerk.value

def velocityOf (nodeParam : NodeParam K) (limit : String × VelocityLimit K) : ℤ × Number K :=
  (limit.2.stamp, guardedVelocity nodeParam limit.2)

def constraintsOf (nodeParam : NodeParam K) (limit : String × VelocityLimit K) :
    Bool × VelocityLimitConstraints K :=
  (true, guardedConstraints nodeParam limit.2)

def Hardest.ofKept (velocity : ℤ × Number K) (constraints : Bool × VelocityLimitConstraints K) :
    Hardest K where
  hardestLimit := { stamp := velocity.1, maxVelocity := velocity.2, useConstraints := constraints.1,
                    constraints := constraints.2, sender := "" }
  hardestMaxVelocity := velocity.2
  hardestMaxJerk := constraints.2.maxJerk

theorem hardestStep_ofKept {velocity : ℤ × Number K}
    {constraints : Bool × VelocityLimitConstraints K} (hvelocity : velocity.2.isFinite = true)
    (hconstraints : constraints.2.maxJerk.isFinite = true) (limit : String × VelocityLimit K) :
    hardestStep nodeParam (.ofKept velocity constraints) limit =
      .ofKept (keepBest velocityKey velocity (velocityOf nodeParam limit))
        (keepBest jerkKey constraints (constraintsOf nodeParam limit)) := by
  have hlower : (guardedVelocity nodeParam limit.2).less velocity.2 =
      decide (velocityKey velocity < velocityKey (velocityOf nodeParam limit)) :=
    Number.less_eq (isFinite_guardedVelocity nodeParam limit.2) hvelocity
  have hharder : constraints.2.maxJerk.less (guardedConstraints nodeParam limit.2).maxJerk =
      decide (jerkKey constraints < jerkKey (constraintsOf nodeParam limit)) :=
    Number.less_eq hconstraints (isFinite_guardedConstraints nodeParam limit.2)
  unfold keepBest
  by_cases hless : velocityKey velocity < velocityKey (velocityOf nodeParam limit)
  · rw [decide_eq_true hless] at hlower
    rw [if_pos hless]
    by_cases hjerk : jerkKey constraints < jerkKey (constraintsOf nodeParam limit)
    · rw [decide_eq_true hjerk] at hharder
      rw [if_pos hjerk]
      simp [hardestStep, Hardest.ofKept, hlower, hharder, velocityOf, constraintsOf]
    · rw [decide_eq_false hjerk] at hharder
      rw [if_neg hjerk]
      simp [hardestStep, Hardest.ofKept, hlower, hharder, velocityOf]
  · rw [decide_eq_false hless] at hlower
    rw [if_neg hless]
    by_cases hjerk : jerkKey constraints < jerkKey (constraintsOf nodeParam limit)
    · rw [decide_eq_true hjerk] at hharder
      rw [if_pos hjerk]
      simp [hardestStep, Hardest.ofKept, hlower, hharder, constraintsOf]
    · rw [decide_eq_false hjerk] at hharder
      rw [if_neg hjerk]
      simp [hardestStep, Hardest.ofKept, hlower, hharder]

theorem foldl_hardestStep {velocity : ℤ × Number K}
    {constraints : Bool × VelocityLimitConstraints K} (hvelocity : velocity.2.isFinite = true)
    (hconstraints : constraints.2.maxJerk.isFinite = true) (order : VelocityLimitTable K) :
    order.foldl (hardestStep nodeParam) (.ofKept velocity constraints) =
      .ofKept ((order.map (velocityOf nodeParam)).foldl (keepBest velocityKey) velocity)
        ((order.map (constraintsOf nodeParam)).foldl (keepBest jerkKey) constraints) := by
  induction order generalizing velocity constraints with
  | nil => rfl
  | cons limit later ih =>
    rw [List.foldl_cons, hardestStep_ofKept hvelocity hconstraints]
    refine ih ?_ ?_
    · unfold keepBest
      split
      · exact isFinite_guardedVelocity nodeParam limit.2
      · exact hvelocity
    · unfold keepBest
      split
      · exact isFinite_guardedConstraints nodeParam limit.2
      · exact hconstraints

/-- What is kept before the loop. -/
def startVelocity (nodeParam : NodeParam K) : ℤ × Number K :=
  (0, .finite nodeParam.maxVelocity)

def startConstraints : Bool × VelocityLimitConstraints K :=
  (false, ⟨.finite 0, .finite 0, .finite 0⟩)

theorem getHardestLimit_eq (order : VelocityLimitTable K) :
    getHardestLimit nodeParam order = (Hardest.ofKept
      ((order.map (velocityOf nodeParam)).foldl (keepBest velocityKey) (startVelocity nodeParam))
      ((order.map (constraintsOf nodeParam)).foldl (keepBest jerkKey)
        startConstraints)).hardestLimit :=
  congrArg Hardest.hardestLimit (@foldl_hardestStep K _ _ nodeParam (startVelocity nodeParam)
    startConstraints rfl rfl order)

/-! ## The order of the table -/

structure TiesAgree (nodeParam : NodeParam K) (table : VelocityLimitTable K) : Prop where
  stamps : ∀ first ∈ table, ∀ second ∈ table,
    (guardedVelocity nodeParam first.2).value < nodeParam.maxVelocity →
    guardedVelocity nodeParam first.2 = guardedVelocity nodeParam second.2 →
    (∀ other ∈ table, (guardedVelocity nodeParam first.2).value ≤
      (guardedVelocity nodeParam other.2).value) → first.2.stamp = second.2.stamp
  constraints : ∀ first ∈ table, ∀ second ∈ table,
    0 < (guardedConstraints nodeParam first.2).maxJerk.value →
    (guardedConstraints nodeParam first.2).maxJerk =
      (guardedConstraints nodeParam second.2).maxJerk →
    (∀ other ∈ table, (guardedConstraints nodeParam other.2).maxJerk.value ≤
      (guardedConstraints nodeParam first.2).maxJerk.value) →
    guardedConstraints nodeParam first.2 = guardedConstraints nodeParam second.2

variable {table : VelocityLimitTable K}

theorem oneBest_velocity_iff :
    OneBest velocityKey (startVelocity nodeParam) (table.map (velocityOf nodeParam)) ↔
      ∀ first ∈ table, ∀ second ∈ table,
        (guardedVelocity nodeParam first.2).value < nodeParam.maxVelocity →
        guardedVelocity nodeParam first.2 = guardedVelocity nodeParam second.2 →
        (∀ other ∈ table, (guardedVelocity nodeParam first.2).value ≤
          (guardedVelocity nodeParam other.2).value) → first.2.stamp = second.2.stamp := by
  unfold OneBest
  simp only [List.forall_mem_map]
  constructor
  · intro hbest first hfirst second hsecond hlt heq hle
    exact congrArg Prod.fst (hbest first hfirst second hsecond hlt
      (congrArg (fun velocity => OrderDual.toDual velocity.value) heq) hle)
  · intro hstamps first hfirst second hsecond hlt heq hle
    have hvelocity := Number.eq_of_value (isFinite_guardedVelocity nodeParam first.2)
      (isFinite_guardedVelocity nodeParam second.2) (OrderDual.toDual.injective heq)
    exact Prod.ext (hstamps first hfirst second hsecond hlt hvelocity hle) hvelocity

theorem oneBest_jerk_iff :
    OneBest jerkKey startConstraints (table.map (constraintsOf nodeParam)) ↔
      ∀ first ∈ table, ∀ second ∈ table, 0 < (guardedConstraints nodeParam first.2).maxJerk.value →
        (guardedConstraints nodeParam first.2).maxJerk =
          (guardedConstraints nodeParam second.2).maxJerk →
        (∀ other ∈ table, (guardedConstraints nodeParam other.2).maxJerk.value ≤
          (guardedConstraints nodeParam first.2).maxJerk.value) →
        guardedConstraints nodeParam first.2 = guardedConstraints nodeParam second.2 := by
  unfold OneBest
  simp only [List.forall_mem_map]
  constructor
  · intro hbest first hfirst second hsecond hlt heq hle
    exact congrArg Prod.snd (hbest first hfirst second hsecond hlt (congrArg Number.value heq) hle)
  · intro hagree first hfirst second hsecond hlt heq hle
    have hjerk := Number.eq_of_value (isFinite_guardedConstraints nodeParam first.2)
      (isFinite_guardedConstraints nodeParam second.2) heq
    exact congrArg (Prod.mk true) (hagree first hfirst second hsecond hlt hjerk hle)

theorem tiesAgree_iff : TiesAgree nodeParam table ↔
    OneBest velocityKey (startVelocity nodeParam) (table.map (velocityOf nodeParam)) ∧
      OneBest jerkKey startConstraints (table.map (constraintsOf nodeParam)) := by
  rw [oneBest_velocity_iff, oneBest_jerk_iff]
  exact ⟨fun hties => ⟨hties.stamps, hties.constraints⟩, fun ⟨hstamps, hconstraints⟩ =>
    ⟨hstamps, hconstraints⟩⟩

omit [Field K] [LinearOrder K] in
theorem exists_order {α : Type} (image : String × VelocityLimit K → α)
    {others : List α} (hperm : (table.map image).Perm others) :
    ∃ order : VelocityLimitTable K, order.Perm table ∧ order.map image = others := by
  have hcomp : Relation.Comp (fun images entries => images = List.map image entries) List.Perm
      others table := by
    rw [List.eq_map_comp_perm]
    exact hperm.symm
  obtain ⟨order, heq, horder⟩ := hcomp
  exact ⟨order, horder, heq.symm⟩

/-- The result does not depend on the order in which the table is iterated exactly if the ties
agree. -/
theorem getHardestLimit_perm_iff :
    (∀ order, order.Perm table → getHardestLimit nodeParam order = getHardestLimit nodeParam table) ↔
      TiesAgree nodeParam table := by
  rw [tiesAgree_iff, ← foldl_order_iff, ← foldl_order_iff]
  constructor
  · intro hsame
    refine ⟨fun others hperm => ?_, fun others hperm => ?_⟩
    · obtain ⟨order, horder, rfl⟩ := exists_order _ hperm
      have heq := hsame order horder
      rw [getHardestLimit_eq, getHardestLimit_eq] at heq
      exact Prod.ext (congrArg VelocityLimit.stamp heq) (congrArg VelocityLimit.maxVelocity heq)
    · obtain ⟨order, horder, rfl⟩ := exists_order _ hperm
      have heq := hsame order horder
      rw [getHardestLimit_eq, getHardestLimit_eq] at heq
      exact Prod.ext (congrArg VelocityLimit.useConstraints heq)
        (congrArg VelocityLimit.constraints heq)
  · rintro ⟨hvelocity, hjerk⟩ order horder
    rw [getHardestLimit_eq, getHardestLimit_eq, hvelocity _ (horder.symm.map _),
      hjerk _ (horder.symm.map _)]

/-! ## Messages -/

section
omit [Field K] [LinearOrder K]

theorem map_fst_setVelocityLimit {sender : String}
    {velocityLimit : VelocityLimit K} (hmem : table.any (·.1 = sender) = true) :
    (setVelocityLimit table sender velocityLimit).map Prod.fst = table.map Prod.fst := by
  rw [setVelocityLimit, if_pos hmem, List.map_map]
  refine List.map_congr_left fun entry _ => ?_
  dsimp only [Function.comp_apply]
  split
  · rename_i hsender
    exact hsender.symm
  · rfl

theorem nodup_setVelocityLimit
    (hnodup : (table.map Prod.fst).Nodup) (sender : String) (velocityLimit : VelocityLimit K) :
    ((setVelocityLimit table sender velocityLimit).map Prod.fst).Nodup := by
  by_cases hmem : table.any (·.1 = sender) = true
  · rwa [map_fst_setVelocityLimit hmem]
  · rw [setVelocityLimit, if_neg hmem, List.map_append, List.nodup_append]
    refine ⟨hnodup, List.nodup_singleton _, ?_⟩
    intro other hother new hnew heq
    rw [List.mem_map] at hother
    obtain ⟨entry, hentry, rfl⟩ := hother
    rw [List.map_cons, List.map_nil, List.mem_singleton] at hnew
    exact hmem (List.any_eq_true.mpr ⟨entry, hentry, decide_eq_true (heq.trans hnew)⟩)

theorem nodup_tableOf (messages : List (Message K)) :
    ((tableOf messages).map Prod.fst).Nodup := by
  refine List.foldlRecOn (motive := fun table : VelocityLimitTable K =>
    (table.map Prod.fst).Nodup) messages _
    List.nodup_nil fun table hnodup message _ => ?_
  cases message with
  | fromAPI velocityLimit => exact nodup_setVelocityLimit hnodup _ _
  | fromInternal velocityLimit => exact nodup_setVelocityLimit hnodup _ _
  | clearCommand command sender =>
    rw [receive]
    split
    · exact hnodup.sublist (List.filter_sublist.map _)
    · exact hnodup

end

theorem getHardestLimit_maxVelocity (nodeParam : NodeParam K) (order : VelocityLimitTable K) :
    ∃ velocity, (getHardestLimit nodeParam order).maxVelocity = .finite velocity ∧
      IsLeast (insert nodeParam.maxVelocity
        {value | ∃ entry ∈ order, entry.2.maxVelocity = .finite value}) velocity := by
  rw [getHardestLimit_eq]
  have hbest := foldl_keepBest velocityKey (startVelocity nodeParam)
    (order.map (velocityOf nodeParam))
  generalize (order.map (velocityOf nodeParam)).foldl (keepBest velocityKey)
    (startVelocity nodeParam) = kept at hbest ⊢
  have hlower : kept.2.value ∈ lowerBounds (insert nodeParam.maxVelocity
      {value | ∃ entry ∈ order, entry.2.maxVelocity = .finite value}) := by
    rintro value (rfl | ⟨entry, hentry, hvalue⟩)
    · exact hbest.start_le
    · have hle := hbest.le _ (List.mem_map_of_mem (f := velocityOf nodeParam) hentry)
      have hguarded : guardedVelocity nodeParam entry.2 = .finite value := by
        rw [guardedVelocity, hvalue]
        rfl
      rw [velocityKey, velocityOf, hguarded] at hle
      exact hle
  rcases hbest.mem with rfl | ⟨hmem, hlt⟩
  · exact ⟨nodeParam.maxVelocity, rfl, Set.mem_insert _ _, hlower⟩
  · obtain ⟨entry, hentry, rfl⟩ := List.mem_map.mp hmem
    cases hvelocity : entry.2.maxVelocity with
    | finite value =>
      have hguarded : guardedVelocity nodeParam entry.2 = .finite value := by
        rw [guardedVelocity, hvelocity]
        rfl
      refine ⟨value, hguarded, Set.mem_insert_of_mem _ ⟨entry, hentry, hvelocity⟩, ?_⟩
      rwa [velocityOf, hguarded] at hlower
    | nan =>
      rw [velocityKey, velocityKey, velocityOf, guardedVelocity, hvelocity] at hlt
      exact absurd hlt (lt_irrefl _)
    | infinity negative =>
      rw [velocityKey, velocityKey, velocityOf, guardedVelocity, hvelocity] at hlt
      exact absurd hlt (lt_irrefl _)

/-- What the hardest limit of the table behind a sequence of messages is to be. -/
structure OrderFree (nodeParam : NodeParam K) (messages : List (Message K)) : Prop where
  maxVelocity : ∀ order, order.Perm (tableOf messages) →
    ∃ velocity, (getHardestLimit nodeParam order).maxVelocity = .finite velocity ∧
      IsLeast (insert nodeParam.maxVelocity
        {value | ∃ entry ∈ tableOf messages, entry.2.maxVelocity = .finite value}) velocity
  /-- Any messages that leave the same limits, and any iteration of their table. -/
  order : ∀ others order, (∀ entry, entry ∈ tableOf others ↔ entry ∈ tableOf messages) →
    order.Perm (tableOf others) →
    getHardestLimit nodeParam order = getHardestLimit nodeParam (tableOf messages)
  updated : ∀ now others order, (∀ entry, entry ∈ tableOf others ↔ entry ∈ tableOf messages) →
    order.Perm (tableOf others) →
    updateVelocityLimit nodeParam now order = updateVelocityLimit nodeParam now (tableOf messages)

/-- The hardest limit is a function of the set of limits exactly if the ties agree. -/
theorem orderFree_iff (nodeParam : NodeParam K) (messages : List (Message K)) :
    OrderFree nodeParam messages ↔ TiesAgree nodeParam (tableOf messages) := by
  rw [← getHardestLimit_perm_iff]
  constructor
  · exact fun hfree order horder => hfree.order messages order (fun _ => Iff.rfl) horder
  · intro hsame
    have hperm {others : List (Message K)} {order : VelocityLimitTable K}
        (hentries : ∀ entry, entry ∈ tableOf others ↔ entry ∈ tableOf messages)
        (horder : order.Perm (tableOf others)) : order.Perm (tableOf messages) :=
      horder.trans ((List.perm_ext_iff_of_nodup (nodup_tableOf others).of_map
        (nodup_tableOf messages).of_map).mpr hentries)
    refine ⟨fun order horder => ?_, fun others order hentries horder =>
      hsame order (hperm hentries horder), fun now others order hentries horder => ?_⟩
    · obtain ⟨velocity, hvelocity, hleast⟩ :=
        getHardestLimit_maxVelocity nodeParam order
      simp only [horder.mem_iff] at hleast
      exact ⟨velocity, hvelocity, hleast⟩
    · rw [updateVelocityLimit, updateVelocityLimit, hsame order (hperm hentries horder),
        (hperm hentries horder).isEmpty_eq]

def tiedParam : NodeParam ℚ := ⟨20, -1, -1, 1⟩

/-- A limit whose constraints have the same jerk as those of every other one. -/
def tiedLimit (sender : String) (minAcceleration : ℚ) : VelocityLimit ℚ :=
  ⟨0, .finite 10, true, ⟨.finite minAcceleration, .finite (-2), .finite 2⟩, sender⟩

/-- The deceleration limit is that of the message that comes first in the iteration. -/
theorem orderFree_tie : ¬ OrderFree tiedParam [.fromInternal (tiedLimit "cruise" (-1)),
      .fromInternal (tiedLimit "stop" (-3))] := by
  intro hfree
  have hsame := hfree.order [.fromInternal (tiedLimit "stop" (-3)),
    .fromInternal (tiedLimit "cruise" (-1))]
    (tableOf [.fromInternal (tiedLimit "stop" (-3)), .fromInternal (tiedLimit "cruise" (-1))])
    (fun entry => by simp [tableOf, receive, setVelocityLimit, tiedLimit, or_comm]) (.refl _)
  revert hsame
  decide +kernel

end AutowareUniverse.Planning.VelocityLimitSelector
