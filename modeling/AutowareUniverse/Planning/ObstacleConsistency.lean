import AutowareUniverse.Planning.RtcInterface
import Mathlib.Tactic.NormNum

/-!
# The consistency of the stop obstacles

In each cycle the obstacle cruise planner decides anew which perceived objects
it stops for, and remembers the closest one.  A remembered obstacle that is no
longer a stop obstacle on its own, but is still perceived and slow, is held
among the stop obstacles for a while.  Of an obstacle only the members that the
check reads are kept, the criteria of a stop obstacle are answered by each
object, and the arc length along the trajectory is a function of the cycle.
-/

namespace AutowareUniverse.Planning

open Library.KeyedList Library.Runs Messages RtcInterface

namespace ObstacleConsistency

/-- `tier4_autoware_utils::toHexString`: two hexadecimal digits for each byte. -/
def toHexString (id : UUID) : String :=
  String.join (id.uuid.toList.map fun byte =>
    let digits := Nat.toDigits 16 byte.toNat
    String.ofList (List.replicate (2 - digits.length) '0' ++ digits))

variable {Point : Type}

/-- A perceived object, with its velocity along its own axis and, if it is a stop
obstacle, the point of the collision. -/
structure PredictedObject (Point : Type) where
  objectId : UUID
  linearX : ℚ
  collisionPoint : Option Point

def PredictedObject.hexId (object : PredictedObject Point) : String :=
  toHexString object.objectId

structure StopObstacle (Point : Type) where
  uuid : String
  stamp : Time
  collisionPoint : Point
  deriving DecidableEq

/-- The parameters of the behavior determination that the check reads. -/
structure Param where
  obstacleVelocityThresholdFromStopToCruise : ℚ
  stopObstacleHoldTimeThreshold : ℚ

/-- One perception message and the trajectory of the cycle that handles it. -/
structure Cycle (Point : Type) where
  stamp : Time
  objects : List (PredictedObject Point)
  arcLength : Point → ℚ

def Cycle.stopObstacles (cycle : Cycle Point) : List (StopObstacle Point) :=
  cycle.objects.filterMap fun object =>
    object.collisionPoint.map fun point => ⟨object.hexId, cycle.stamp, point⟩

/-- `std::numeric_limits<double>::max()`. -/
def maxDouble : ℚ := (2 ^ 53 - 1) * 2 ^ 971

variable (arcLength : Point → ℚ)

def closer (best : Option (StopObstacle Point) × ℚ)
    (stopObstacle : StopObstacle Point) : Option (StopObstacle Point) × ℚ :=
  let dist := arcLength stopObstacle.collisionPoint
  if dist < best.2 then (some stopObstacle, dist) else best

def getClosestStopObstacle
    (stopObstacles : List (StopObstacle Point)) : Option (StopObstacle Point) :=
  (stopObstacles.foldl (closer arcLength) (none, maxDouble)).1

def checkConsistency (param : Param) (cycle : Cycle Point)
    (prevClosestStopObstacle : Option (StopObstacle Point))
    (stopObstacles : List (StopObstacle Point)) :
    Option (StopObstacle Point) × List (StopObstacle Point) :=
  let currentClosestStopObstacle := getClosestStopObstacle cycle.arcLength stopObstacles
  match prevClosestStopObstacle with
  | none => (currentClosestStopObstacle, stopObstacles)
  | some prev =>
    match findKey PredictedObject.hexId prev.uuid cycle.objects with
    -- The remembered obstacle is not perceived, and stays remembered.
    | none => (some prev, stopObstacles)
    | some predictedObject =>
      match findKey StopObstacle.uuid prev.uuid stopObstacles with
      | some _ => (currentClosestStopObstacle, stopObstacles)
      | none =>
        let elapsedTime := seconds (cycle.stamp - prev.stamp)
        if predictedObject.linearX < param.obstacleVelocityThresholdFromStopToCruise ∧
            elapsedTime < param.stopObstacleHoldTimeThreshold then
          (some prev, stopObstacles ++ [prev])
        else (currentClosestStopObstacle, stopObstacles)

def determineEgoBehaviorAgainstObstacles (param : Param)
    (prevClosestStopObstacle : Option (StopObstacle Point)) (cycle : Cycle Point) :
    Option (StopObstacle Point) × List (StopObstacle Point) :=
  checkConsistency param cycle prevClosestStopObstacle cycle.stopObstacles

def Step (param : Param) : Option (StopObstacle Point) →
    Cycle Point × List (StopObstacle Point) → Option (StopObstacle Point) → Prop :=
  OfFunction (determineEgoBehaviorAgainstObstacles param)

theorem closer_cases (best : Option (StopObstacle Point) × ℚ) (stopObstacle : StopObstacle Point) :
    closer arcLength best stopObstacle = best ∧ best.2 ≤ arcLength stopObstacle.collisionPoint ∨
      closer arcLength best stopObstacle =
          (some stopObstacle, arcLength stopObstacle.collisionPoint) ∧
        arcLength stopObstacle.collisionPoint < best.2 := by
  unfold closer
  by_cases hdist : arcLength stopObstacle.collisionPoint < best.2
  · exact .inr ⟨if_pos hdist, hdist⟩
  · exact .inl ⟨if_neg hdist, not_lt.mp hdist⟩

theorem foldl_closer (stopObstacles : List (StopObstacle Point))
    (best : Option (StopObstacle Point) × ℚ) :
    (stopObstacles.foldl (closer arcLength) best = best ∨
      ∃ found ∈ stopObstacles, stopObstacles.foldl (closer arcLength) best =
        (some found, arcLength found.collisionPoint)) ∧
      (stopObstacles.foldl (closer arcLength) best).2 ≤ best.2 ∧
      ∀ other ∈ stopObstacles, (stopObstacles.foldl (closer arcLength) best).2 ≤
        arcLength other.collisionPoint := by
  induction stopObstacles generalizing best with
  | nil => exact ⟨.inl rfl, le_refl _, fun other hmem => by cases hmem⟩
  | cons first rest ih =>
    obtain ⟨hfound, hbest, hrest⟩ := ih (closer arcLength best first)
    rw [List.foldl_cons]
    constructor
    · rcases hfound with hsame | ⟨found, hmem, hfound⟩
      · rw [hsame]
        rcases closer_cases arcLength best first with ⟨hold, _⟩ | ⟨hnew, _⟩
        · exact .inl hold
        · exact .inr ⟨first, List.mem_cons_self, hnew⟩
      · exact .inr ⟨found, List.mem_cons_of_mem _ hmem, hfound⟩
    · rcases closer_cases arcLength best first with ⟨hold, hle⟩ | ⟨hnew, hlt⟩
      · rw [hold] at hbest hrest ⊢
        refine ⟨hbest, fun other hmem => ?_⟩
        rcases List.mem_cons.mp hmem with rfl | hmem
        · exact hbest.trans hle
        · exact hrest other hmem
      · rw [hnew] at hbest hrest ⊢
        refine ⟨hbest.trans hlt.le, fun other hmem => ?_⟩
        rcases List.mem_cons.mp hmem with rfl | hmem
        · exact hbest
        · exact hrest other hmem

theorem getClosestStopObstacle_eq_some {arcLength : Point → ℚ}
    {stopObstacles : List (StopObstacle Point)} {closest : StopObstacle Point}
    (hclosest : getClosestStopObstacle arcLength stopObstacles = some closest) :
    closest ∈ stopObstacles ∧ ∀ other ∈ stopObstacles,
      arcLength closest.collisionPoint ≤ arcLength other.collisionPoint := by
  obtain ⟨hfound, _, hleast⟩ := foldl_closer arcLength stopObstacles (none, maxDouble)
  unfold getClosestStopObstacle at hclosest
  rcases hfound with hnone | ⟨found, hmem, hfound⟩
  · rw [hnone] at hclosest
    cases hclosest
  · rw [hfound] at hclosest hleast
    cases hclosest
    exact ⟨hmem, hleast⟩

variable {cycle : Cycle Point}

theorem stamp_of_mem_stopObstacles {obstacle : StopObstacle Point}
    (hmem : obstacle ∈ cycle.stopObstacles) : obstacle.stamp = cycle.stamp := by
  obtain ⟨object, _, hobject⟩ := List.mem_filterMap.mp hmem
  obtain ⟨point, _, rfl⟩ := Option.map_eq_some_iff.mp hobject
  rfl

/-! ## What a cycle remembers and holds -/

def Cycle.closest (cycle : Cycle Point) : Option (StopObstacle Point) :=
  getClosestStopObstacle cycle.arcLength cycle.stopObstacles

def Cycle.Stops (cycle : Cycle Point) (uuid : String) : Prop :=
  uuid ∈ cycle.stopObstacles.map StopObstacle.uuid

instance (cycle : Cycle Point) (uuid : String) : Decidable (cycle.Stops uuid) :=
  inferInstanceAs (Decidable (uuid ∈ cycle.stopObstacles.map StopObstacle.uuid))

/-- The object is perceived, and its velocity is below the threshold. -/
def Cycle.PerceivesSlow (param : Param) (cycle : Cycle Point) (uuid : String) : Prop :=
  ∃ object, findKey PredictedObject.hexId uuid cycle.objects = some object ∧
    object.linearX < param.obstacleVelocityThresholdFromStopToCruise

/-- An obstacle is remembered that is not perceived, or that is held. -/
def Shadowed (param : Param) (memory : Option (StopObstacle Point)) (cycle : Cycle Point) :
    Prop :=
  ∃ prev, memory = some prev ∧ (findKey PredictedObject.hexId prev.uuid cycle.objects = none ∨
      ¬ cycle.Stops prev.uuid ∧ cycle.PerceivesSlow param prev.uuid ∧
        seconds (cycle.stamp - prev.stamp) < param.stopObstacleHoldTimeThreshold)

theorem findKey_eq_none_of_not_stops {uuid : String} (hnot : ¬ cycle.Stops uuid) :
    findKey StopObstacle.uuid uuid cycle.stopObstacles = none :=
  (findKey_eq_none_iff StopObstacle.uuid).mpr hnot

variable {param : Param}

/-- Unless the remembered obstacle stays, the closest one is remembered next. -/
theorem memory_of_not_shadowed {memory : Option (StopObstacle Point)}
    (hfree : ¬ Shadowed param memory cycle) :
    (determineEgoBehaviorAgainstObstacles param memory cycle).1 = cycle.closest := by
  unfold determineEgoBehaviorAgainstObstacles checkConsistency
  cases memory with
  | none => rfl
  | some prev =>
    cases hobject : findKey PredictedObject.hexId prev.uuid cycle.objects with
    | none => exact absurd ⟨prev, rfl, .inl hobject⟩ hfree
    | some object =>
      by_cases hstops : cycle.Stops prev.uuid
      · obtain ⟨obstacle, hobstacle⟩ := exists_findKey StopObstacle.uuid hstops
        dsimp only
        rw [hobject, hobstacle]
        rfl
      · dsimp only
        rw [hobject, findKey_eq_none_of_not_stops hstops]
        dsimp only
        rw [if_neg]
        · rfl
        · rintro ⟨hslow, hrecent⟩
          exact hfree ⟨prev, rfl, .inr ⟨hstops, ⟨object, hobject, hslow⟩, hrecent⟩⟩

theorem memory_of_stops {prev closest : StopObstacle Point}
    (hslow : cycle.PerceivesSlow param prev.uuid)
    (hstops : cycle.Stops prev.uuid) (hclosest : cycle.closest = some closest) :
    determineEgoBehaviorAgainstObstacles param (some prev) cycle =
      (some closest, cycle.stopObstacles) := by
  obtain ⟨object, hobject, _⟩ := hslow
  obtain ⟨obstacle, hobstacle⟩ := exists_findKey StopObstacle.uuid hstops
  unfold determineEgoBehaviorAgainstObstacles checkConsistency
  dsimp only
  rw [hobject, hobstacle]
  exact Prod.ext hclosest rfl

theorem memory_of_held {prev : StopObstacle Point}
    (hslow : cycle.PerceivesSlow param prev.uuid) (hnot : ¬ cycle.Stops prev.uuid)
    (hrecent : seconds (cycle.stamp - prev.stamp) < param.stopObstacleHoldTimeThreshold) :
    determineEgoBehaviorAgainstObstacles param (some prev) cycle =
      (some prev, cycle.stopObstacles ++ [prev]) := by
  obtain ⟨object, hobject, hvelocity⟩ := hslow
  unfold determineEgoBehaviorAgainstObstacles checkConsistency
  dsimp only
  rw [hobject, findKey_eq_none_of_not_stops hnot]
  exact if_pos ⟨hvelocity, hrecent⟩

/-- In each cycle the object is perceived and slow, and when it is not a stop
obstacle on its own, the hold time since it last was one has not passed. -/
def WithinHold (param : Param) (uuid : String) : Time → List (Cycle Point) → Prop
  | _, [] => True
  | lastStop, cycle :: cycles =>
    cycle.PerceivesSlow param uuid ∧
      if cycle.Stops uuid then WithinHold param uuid cycle.stamp cycles
      else seconds (cycle.stamp - lastStop) < param.stopObstacleHoldTimeThreshold ∧
        WithinHold param uuid lastStop cycles

def ClosestWhenStopping (uuid : String) (cycles : List (Cycle Point)) : Prop :=
  ∀ cycle ∈ cycles, cycle.Stops uuid → ∃ closest, cycle.closest = some closest ∧ closest.uuid = uuid

theorem kept_of_remembered {uuid : String} {memory last : Option (StopObstacle Point)}
    {labels : List (Cycle Point × List (StopObstacle Point))}
    (hrun : Run (Step param) memory labels last) {prev : StopObstacle Point}
    (hmemory : memory = some prev) (huuid : prev.uuid = uuid)
    (hwithin : WithinHold param uuid prev.stamp (labels.map Prod.fst))
    (hclosest : ClosestWhenStopping uuid (labels.map Prod.fst)) :
    ∀ label ∈ labels, uuid ∈ label.2.map StopObstacle.uuid := by
  induction hrun generalizing prev with
  | nil => intro label hmem; cases hmem
  | @cons first middle last label labels hstep _ ih =>
    obtain ⟨cycle, output⟩ := label
    obtain ⟨hslow, hhold⟩ := hwithin
    have hlater : ClosestWhenStopping uuid (labels.map Prod.fst) := fun later hmem =>
      hclosest later (List.mem_cons_of_mem _ hmem)
    subst huuid hmemory
    by_cases hstops : cycle.Stops prev.uuid
    · rw [if_pos hstops] at hhold
      obtain ⟨closest, hfound, hsame⟩ := hclosest cycle List.mem_cons_self hstops
      have hnext : (some closest, cycle.stopObstacles) = (middle, output) :=
        (memory_of_stops hslow hstops hfound).symm.trans hstep
      obtain ⟨rfl, rfl⟩ := Prod.mk.inj hnext
      have hstamp := stamp_of_mem_stopObstacles (getClosestStopObstacle_eq_some hfound).1
      intro label hmem
      rcases List.mem_cons.mp hmem with rfl | hmem
      · exact hstops
      · exact ih rfl hsame (hstamp ▸ hhold) hlater label hmem
    · rw [if_neg hstops] at hhold
      have hnext : (some prev, cycle.stopObstacles ++ [prev]) = (middle, output) :=
        (memory_of_held hslow hstops hhold.1).symm.trans hstep
      obtain ⟨rfl, rfl⟩ := Prod.mk.inj hnext
      intro label hmem
      rcases List.mem_cons.mp hmem with rfl | hmem
      · exact List.mem_map_of_mem (List.mem_append_right _ List.mem_cons_self)
      · exact ih rfl rfl hhold.2 hlater label hmem

/-- The closest stop obstacle of a cycle is kept in the following cycles, unless the
obstacle that was remembered before stays in the memory, or another obstacle is
closer while it is a stop obstacle itself. -/
theorem kept_of_closest {param : Param} {memory last : Option (StopObstacle Point)}
    {cycle : Cycle Point} {output : List (StopObstacle Point)}
    {labels : List (Cycle Point × List (StopObstacle Point))}
    (hrun : Run (Step param) memory ((cycle, output) :: labels) last)
    {closest : StopObstacle Point} (hclosest : cycle.closest = some closest)
    (hfree : ¬ Shadowed param memory cycle)
    (hwithin : WithinHold param closest.uuid cycle.stamp (labels.map Prod.fst))
    (hstopping : ClosestWhenStopping closest.uuid (labels.map Prod.fst)) :
    ∀ label ∈ labels, closest.uuid ∈ label.2.map StopObstacle.uuid := by
  cases hrun with
  | cons hstep hrest =>
    have hmemory := memory_of_not_shadowed hfree
    rw [show determineEgoBehaviorAgainstObstacles param memory cycle = _ from hstep,
      hclosest] at hmemory
    have hstamp := stamp_of_mem_stopObstacles (getClosestStopObstacle_eq_some hclosest).1
    exact kept_of_remembered hrest hmemory rfl (hstamp ▸ hwithin) hstopping

/-! ## A second obstacle -/

def slowObject (byte : UInt8) (collisionPoint : Option ℚ) : PredictedObject ℚ :=
  ⟨⟨Vector.replicate 16 byte⟩, 0, collisionPoint⟩

/-- A cycle in which points are given by their arc length. -/
def cycleAt (stamp : Time) (objects : List (PredictedObject ℚ)) : Cycle ℚ :=
  ⟨stamp, objects, id⟩

def declaredParam : Param := ⟨3, 1⟩

def firstObstacle : StopObstacle ℚ := ⟨toHexString ⟨Vector.replicate 16 1⟩, 0, 30⟩

def stopCycle : Cycle ℚ := cycleAt 0 [slowObject 1 (some 30)]

def perceivedCycle : Cycle ℚ := cycleAt 200000000 [slowObject 1 none, slowObject 2 (some 20)]

/-- A second object is a stop obstacle as well, and closer. -/
def closerCycle : Cycle ℚ :=
  cycleAt 100000000 [slowObject 1 (some 30), slowObject 2 (some 20)]

theorem perceivesSlow_first (param : Param)
    (hparam : 0 < param.obstacleVelocityThresholdFromStopToCruise) (stamp : Time)
    (collisionPoint : Option ℚ) (others : List (PredictedObject ℚ)) :
    (cycleAt stamp (slowObject 1 collisionPoint :: others)).PerceivesSlow param
      firstObstacle.uuid :=
  ⟨slowObject 1 collisionPoint, (findKey_cons _ _ _ _).trans (if_pos rfl), hparam⟩

theorem first_kept_when_perceived : (execute (determineEgoBehaviorAgainstObstacles declaredParam)
      (some firstObstacle) [perceivedCycle]).1.Forall fun label =>
        firstObstacle.uuid ∈ label.2.map StopObstacle.uuid := by
  have hrun : Run (Step declaredParam) none ((stopCycle, stopCycle.stopObstacles) ::
        (execute (determineEgoBehaviorAgainstObstacles declaredParam) (some firstObstacle)
          [perceivedCycle]).1)
      (execute (determineEgoBehaviorAgainstObstacles declaredParam) (some firstObstacle)
        [perceivedCycle]).2 :=
    .cons (show determineEgoBehaviorAgainstObstacles declaredParam none stopCycle =
      (some firstObstacle, stopCycle.stopObstacles) by decide +kernel) (run_execute _ _ _)
  have hslow := perceivesSlow_first declaredParam (by decide +kernel) 200000000 none
    [slowObject 2 (some 20)]
  apply List.forall_iff_forall_mem.mpr
  refine kept_of_closest hrun (by decide +kernel) ?_ ⟨hslow, ?_⟩ ?_
  · rintro ⟨prev, hprev, _⟩
    cases hprev
  · rw [if_neg (by decide +kernel)]
    exact ⟨by decide +kernel, trivial⟩
  · intro cycle hmem hstops
    cases List.mem_singleton.mp hmem
    exact absurd hstops (by decide +kernel)

/-- An obstacle that was not the closest one when it was last a stop obstacle is not
kept, although it is perceived and slow and the hold time has not passed. -/
theorem second_obstacle_replaces_first :
    ¬ ∀ (param : Param) (early labels : List (Cycle ℚ × List (StopObstacle ℚ)))
        (memory last : Option (StopObstacle ℚ)) (cycle : Cycle ℚ)
        (output : List (StopObstacle ℚ)) (closest : StopObstacle ℚ),
      Run (Step param) none early memory →
        Run (Step param) memory ((cycle, output) :: labels) last →
        cycle.closest = some closest →
        WithinHold param closest.uuid cycle.stamp (labels.map Prod.fst) →
          ∀ label ∈ labels, closest.uuid ∈ label.2.map StopObstacle.uuid := by
  intro hclaim
  have hrun := run_execute (determineEgoBehaviorAgainstObstacles declaredParam) none
    [stopCycle, closerCycle, perceivedCycle]
  have hslow := perceivesSlow_first declaredParam (by decide +kernel)
  have hkept := hclaim declaredParam [] _ none _ stopCycle _ firstObstacle (.nil _) hrun
    (by decide +kernel) ⟨hslow _ _ _, by
      rw [if_pos (by decide +kernel)]
      refine ⟨hslow _ _ _, ?_⟩
      rw [if_neg (by decide +kernel)]
      exact ⟨by decide +kernel, trivial⟩⟩
    (perceivedCycle, _) (.tail _ (.head _))
  exact absurd hkept (by decide +kernel)

end ObstacleConsistency

end AutowareUniverse.Planning
