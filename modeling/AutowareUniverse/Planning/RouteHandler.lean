import AutowareUniverse.Library.Walks
import AutowareUniverse.Library.SinglePrecision
import Mathlib.Data.Int.ConditionallyCompleteOrder
import Mathlib.Algebra.BigOperators.Ring.List
import Mathlib.Data.Rat.Floor
import Mathlib.Data.Sign.Basic

/-!
# The route handler

Lanelets are compared by their identifiers, which are unique in a map, so a
lanelet is any type with equality.  The routing graph, and the queries the
lanelet library answers from it, are given.
-/

namespace AutowareUniverse.Planning

namespace RouteHandler

/-- The kinds of relation between neighbouring lanelets that the handler reads. -/
inductive RelationType where
  | left
  | adjacentLeft
  | right
  | adjacentRight
  deriving DecidableEq

inductive Direction where
  | none
  | left
  | right
  deriving DecidableEq

structure LaneletRelation (Lanelet : Type) where
  lanelet : Lanelet
  relationType : RelationType
  deriving DecidableEq

structure RoutingGraph (Lanelet : Type) where
  previous : Lanelet → List Lanelet
  following : Lanelet → List Lanelet
  rightRelations : Lanelet → List (LaneletRelation Lanelet)
  leftRelations : Lanelet → List (LaneletRelation Lanelet)
  getAllNeighborsRight : Lanelet → List Lanelet
  getAllNeighborsLeft : Lanelet → List Lanelet
  getAllNeighbors : Lanelet → List Lanelet

structure RouteSection (Lanelet : Type) where
  primitives : List Lanelet
  preferredPrimitive : Lanelet
  deriving DecidableEq

end RouteHandler

open RouteHandler in
structure RouteHandler (Lanelet : Type) where
  routingGraph : RoutingGraph Lanelet
  routeLanelets : List Lanelet
  preferredLanelets : List Lanelet
  startLanelets : List Lanelet
  goalLanelets : List Lanelet
  shoulderLanelets : List Lanelet

namespace RouteHandler

variable {Lanelet : Type} [DecidableEq Lanelet]

/-- The loop over the primitives of all sections, with the set of those passed. -/
def findsDuplicate : List Lanelet → List Lanelet → Bool
  | _, [] => false
  | lanePrimitives, primitive :: rest =>
    if primitive ∈ lanePrimitives then true
    else findsDuplicate (primitive :: lanePrimitives) rest

def isRouteLooped (routeSections : List (RouteSection Lanelet)) : Bool :=
  findsDuplicate [] (routeSections.flatMap RouteSection.primitives)

def setLaneletsFromRouteMsg (isRouteValid : List (RouteSection Lanelet) → Bool)
    (handler : RouteHandler Lanelet) (segments : List (RouteSection Lanelet)) :
    RouteHandler Lanelet :=
  if isRouteValid segments then
    { handler with
      routeLanelets := segments.flatMap RouteSection.primitives
      preferredLanelets := segments.flatMap fun routeSection =>
        routeSection.primitives.filter fun primitive =>
          primitive = routeSection.preferredPrimitive
      goalLanelets := (segments.getLast?.map RouteSection.primitives).getD []
      startLanelets := (segments.head?.map RouteSection.primitives).getD [] }
  else { handler with routeLanelets := [], preferredLanelets := [] }

/-- A route with a repeated primitive leaves the previous route in place. -/
def setRoute (isRouteValid : List (RouteSection Lanelet) → Bool)
    (handler : RouteHandler Lanelet) (segments : List (RouteSection Lanelet)) :
    RouteHandler Lanelet :=
  if isRouteLooped segments then handler
  else setLaneletsFromRouteMsg isRouteValid handler segments

end RouteHandler

end AutowareUniverse.Planning

/-!
# The lanelets of a route

The route takes the path and its lane-changeable neighbours.  Of the other
neighbours, the candidates, it takes those that are connected backwards and
forwards to the lanelets taken so far, which grow while the candidates are gone
through in an unspecified order.
-/

namespace AutowareUniverse.Planning.RouteHandler

section

open Library.FiniteWalks

variable {Lanelet : Type} [DecidableEq Lanelet]

section

/-- The body of the loops over the relations of one side. -/
def insertRelation (changeable adjacent : RelationType)
    (sets : List Lanelet × List Lanelet) (relation : LaneletRelation Lanelet) :
    List Lanelet × List Lanelet :=
  let (routeLaneletsId, candidateLanesId) := sets
  if relation.relationType = changeable then
    (routeLaneletsId.insert relation.lanelet, candidateLanesId)
  else if relation.relationType = adjacent then
    (routeLaneletsId, candidateLanesId.insert relation.lanelet)
  else (routeLaneletsId, candidateLanesId)

def insertRight :
    List Lanelet × List Lanelet → LaneletRelation Lanelet → List Lanelet × List Lanelet :=
  insertRelation .right .adjacentRight

def insertLeft :
    List Lanelet × List Lanelet → LaneletRelation Lanelet → List Lanelet × List Lanelet :=
  insertRelation .left .adjacentLeft

/-- The body of the loop over the path. -/
def insertLane (routingGraph : RoutingGraph Lanelet) (sets : List Lanelet × List Lanelet)
    (lane : Lanelet) : List Lanelet × List Lanelet :=
  let sets := (sets.1.insert lane, sets.2)
  let sets := (routingGraph.rightRelations lane).foldl insertRight sets
  (routingGraph.leftRelations lane).foldl insertLeft sets

def collectLanes (routingGraph : RoutingGraph Lanelet) (pathLanelets : List Lanelet) :
    List Lanelet × List Lanelet :=
  pathLanelets.foldl (insertLane routingGraph) ([], [])

/-- What the loop over the neighbours finds first. -/
inductive Link (Lanelet : Type) where
  | mainLane
  | candidate (lanelet : Lanelet)
  | nothing
  deriving DecidableEq

section

variable (neighbors : Lanelet → List Lanelet)
  (routeLaneletsId terminalLanelets candidateLanesId : List Lanelet)

/-- The loop over the previous or the following lanelets, up to its break. -/
def firstLink : List Lanelet → Link Lanelet
  | [] => .nothing
  | lanelet :: rest =>
    if lanelet ∈ routeLaneletsId then .mainLane
    else if lanelet ∈ terminalLanelets then .nothing
    else if lanelet ∈ candidateLanesId then .candidate lanelet
    else firstLink rest

/-- The loop along the candidates; it has not ended when the given number of rounds is over. -/
def followCandidates : ℕ → List Lanelet → Option Bool
  | 0, _ => none
  | rounds + 1, lanelets =>
    if lanelets.isEmpty then some false
    else
      match firstLink routeLaneletsId terminalLanelets candidateLanesId lanelets with
      | .mainLane => some true
      | .nothing => some false
      | .candidate lanelet => followCandidates rounds (neighbors lanelet)

def isConnectedToMainLanes (rounds : ℕ) (lanelet : Lanelet) : Option Bool :=
  if lanelet ∈ terminalLanelets then some false
  else
    followCandidates neighbors routeLaneletsId terminalLanelets candidateLanesId rounds
      (neighbors lanelet)

end

section

variable (rounds : ℕ) (routingGraph : RoutingGraph Lanelet)
  (startLanelets goalLanelets candidateLanesId : List Lanelet)

/-- The loop over the candidates, in the order in which they come. -/
def checkCandidates : List Lanelet → List Lanelet → Option (List Lanelet)
  | [], routeLaneletsId => some routeLaneletsId
  | candidateId :: rest, routeLaneletsId => do
    let prev ← isConnectedToMainLanes routingGraph.previous routeLaneletsId startLanelets
      candidateLanesId rounds candidateId
    let next ← isConnectedToMainLanes routingGraph.following routeLaneletsId goalLanelets
      candidateLanesId rounds candidateId
    checkCandidates rest
      (if next && prev then routeLaneletsId.insert candidateId else routeLaneletsId)

end

/-- The sets come in the order that `iterate` gives their elements. -/
def setRouteLanelets (iterate : List Lanelet → List Lanelet) (rounds : ℕ)
    (handler : RouteHandler Lanelet) (pathLanelets : List Lanelet) :
    Option (RouteHandler Lanelet) :=
  let routingGraph := handler.routingGraph
  let startLanelets :=
    (pathLanelets.head?.map routingGraph.getAllNeighbors).getD handler.startLanelets
  let goalLanelets :=
    (pathLanelets.getLast?.map routingGraph.getAllNeighbors).getD handler.goalLanelets
  let (routeLaneletsId, candidateLanesId) := collectLanes routingGraph pathLanelets
  (checkCandidates rounds routingGraph startLanelets goalLanelets candidateLanesId
    (iterate candidateLanesId) routeLaneletsId).map fun routeLaneletsId =>
      { handler with
        routeLanelets := iterate routeLaneletsId
        startLanelets := startLanelets
        goalLanelets := goalLanelets }

def MainLane (routingGraph : RoutingGraph Lanelet) (pathLanelets : List Lanelet)
    (lanelet : Lanelet) : Prop :=
  ∃ lane ∈ pathLanelets, lane = lanelet ∨ ⟨lanelet, .right⟩ ∈ routingGraph.rightRelations lane ∨
    ⟨lanelet, .left⟩ ∈ routingGraph.leftRelations lane

/-- A neighbour of the path that cannot be changed to. -/
def CandidateLane (routingGraph : RoutingGraph Lanelet) (pathLanelets : List Lanelet)
    (lanelet : Lanelet) : Prop :=
  ∃ lane ∈ pathLanelets, ⟨lanelet, .adjacentRight⟩ ∈ routingGraph.rightRelations lane ∨
    ⟨lanelet, .adjacentLeft⟩ ∈ routingGraph.leftRelations lane

theorem mem_foldl_insertRelation {changeable adjacent : RelationType}
    (hne : changeable ≠ adjacent) (relations : List (LaneletRelation Lanelet))
    (sets : List Lanelet × List Lanelet) (lanelet : Lanelet) :
    (lanelet ∈ (relations.foldl (insertRelation changeable adjacent) sets).1 ↔
        lanelet ∈ sets.1 ∨ ⟨lanelet, changeable⟩ ∈ relations) ∧
      (lanelet ∈ (relations.foldl (insertRelation changeable adjacent) sets).2 ↔
        lanelet ∈ sets.2 ∨ ⟨lanelet, adjacent⟩ ∈ relations) := by
  induction relations generalizing sets with
  | nil => simp
  | cons relation rest ih =>
    obtain ⟨neighbor, relationType⟩ := relation
    obtain ⟨hroute, hcandidate⟩ :=
      ih (insertRelation changeable adjacent sets ⟨neighbor, relationType⟩)
    rw [List.foldl_cons, hroute, hcandidate]
    by_cases hchangeable : relationType = changeable
    · subst hchangeable
      simp [insertRelation, hne.symm, or_assoc, or_left_comm]
    · by_cases hadjacent : relationType = adjacent
      · subst hadjacent
        simp [insertRelation, hchangeable, Ne.symm hchangeable, or_assoc, or_left_comm]
      · simp [insertRelation, hchangeable, hadjacent, Ne.symm hchangeable, Ne.symm hadjacent]

variable (routingGraph : RoutingGraph Lanelet)

theorem mem_insertLane (sets : List Lanelet × List Lanelet) (lane lanelet : Lanelet) :
    (lanelet ∈ (insertLane routingGraph sets lane).1 ↔ lanelet ∈ sets.1 ∨ lane = lanelet ∨
          ⟨lanelet, .right⟩ ∈ routingGraph.rightRelations lane ∨
          ⟨lanelet, .left⟩ ∈ routingGraph.leftRelations lane) ∧
      (lanelet ∈ (insertLane routingGraph sets lane).2 ↔ lanelet ∈ sets.2 ∨
          ⟨lanelet, .adjacentRight⟩ ∈ routingGraph.rightRelations lane ∨
          ⟨lanelet, .adjacentLeft⟩ ∈ routingGraph.leftRelations lane) := by
  have hleft : RelationType.left ≠ .adjacentLeft := by decide
  have hright : RelationType.right ≠ .adjacentRight := by decide
  simp only [insertLane, insertRight, insertLeft, mem_foldl_insertRelation hleft,
    mem_foldl_insertRelation hright, List.mem_insert_iff]
  constructor
  · constructor <;> intro hmem <;> tauto
  · constructor <;> intro hmem <;> tauto

theorem mem_foldl_insertLane
    (pathLanelets : List Lanelet) (sets : List Lanelet × List Lanelet) (lanelet : Lanelet) :
    (lanelet ∈ (pathLanelets.foldl (insertLane routingGraph) sets).1 ↔
        lanelet ∈ sets.1 ∨ MainLane routingGraph pathLanelets lanelet) ∧
      (lanelet ∈ (pathLanelets.foldl (insertLane routingGraph) sets).2 ↔
        lanelet ∈ sets.2 ∨ CandidateLane routingGraph pathLanelets lanelet) := by
  induction pathLanelets generalizing sets with
  | nil => simp [MainLane, CandidateLane]
  | cons lane rest ih =>
    obtain ⟨hroute, hcandidate⟩ := ih (insertLane routingGraph sets lane)
    obtain ⟨hroute', hcandidate'⟩ := mem_insertLane routingGraph sets lane lanelet
    rw [List.foldl_cons, hroute, hcandidate, hroute', hcandidate']
    simp only [MainLane, CandidateLane, List.exists_mem_cons_iff, or_assoc]
    trivial

theorem mem_collectLanes (pathLanelets : List Lanelet) (lanelet : Lanelet) :
    (lanelet ∈ (collectLanes routingGraph pathLanelets).1 ↔
        MainLane routingGraph pathLanelets lanelet) ∧
      (lanelet ∈ (collectLanes routingGraph pathLanelets).2 ↔
        CandidateLane routingGraph pathLanelets lanelet) := by
  obtain ⟨hroute, hcandidate⟩ := mem_foldl_insertLane routingGraph pathLanelets ([], []) lanelet
  simp only [List.not_mem_nil, false_or] at hroute hcandidate
  exact ⟨hroute, hcandidate⟩

end

/-!
## The candidates that are linked to the route

The code follows the first neighbour that is a main lane, an end or a candidate.
Which candidates it accepts does not depend on their order, because an accepted
candidate leads to the main lanes itself.  Loops of candidates, and candidates
that are linked through other neighbours than the first, are what it misses.
-/

inductive Linked (neighbors : Lanelet → List Lanelet) (mainLane candidate : Lanelet → Prop) :
    Lanelet → Prop where
  | mainLane {lanelet neighbor : Lanelet} (hneighbor : neighbor ∈ neighbors lanelet)
      (hmain : mainLane neighbor) : Linked neighbors mainLane candidate lanelet
  | candidate {lanelet neighbor : Lanelet} (hneighbor : neighbor ∈ neighbors lanelet)
      (hcandidate : candidate neighbor) (hlinked : Linked neighbors mainLane candidate neighbor) :
      Linked neighbors mainLane candidate lanelet

section

variable (neighbors : Lanelet → List Lanelet)
  (routeLaneletsId terminalLanelets candidateLanesId : List Lanelet)

def nextCandidate (lanelet : Lanelet) : Option Lanelet :=
  match firstLink routeLaneletsId terminalLanelets candidateLanesId (neighbors lanelet) with
  | .candidate next => some next
  | _ => none

inductive FirstLinked : Lanelet → Prop where
  | mainLane {lanelet : Lanelet}
      (hlink : firstLink routeLaneletsId terminalLanelets candidateLanesId
        (neighbors lanelet) = .mainLane) : FirstLinked lanelet
  | candidate {lanelet next : Lanelet}
      (hlink : firstLink routeLaneletsId terminalLanelets candidateLanesId
        (neighbors lanelet) = .candidate next)
      (hlinked : FirstLinked next) : FirstLinked lanelet

end

section

variable {neighbors : Lanelet → List Lanelet}
  {routeLaneletsId terminalLanelets candidateLanesId : List Lanelet} {lanelet : Lanelet}
  {lanelets : List Lanelet}

theorem firstLink_mainLane
    (hlink : firstLink routeLaneletsId terminalLanelets candidateLanesId lanelets =
      .mainLane) : ∃ neighbor ∈ lanelets, neighbor ∈ routeLaneletsId := by
  induction lanelets with
  | nil => cases hlink
  | cons first rest ih =>
    rw [firstLink] at hlink
    split_ifs at hlink with hroute hterminal hcandidate
    · exact ⟨first, List.mem_cons_self .., hroute⟩
    · obtain ⟨neighbor, hmem, hmain⟩ := ih hlink
      exact ⟨neighbor, List.mem_cons_of_mem _ hmem, hmain⟩

theorem firstLink_candidate {next : Lanelet}
    (hlink : firstLink routeLaneletsId terminalLanelets candidateLanesId lanelets =
      .candidate next) : next ∈ lanelets ∧ next ∈ candidateLanesId := by
  induction lanelets with
  | nil => cases hlink
  | cons first rest ih =>
    rw [firstLink] at hlink
    split_ifs at hlink with hroute hterminal hcandidate
    · cases hlink
      exact ⟨List.mem_cons_self .., hcandidate⟩
    · obtain ⟨hmem, hnext⟩ := ih hlink
      exact ⟨List.mem_cons_of_mem _ hmem, hnext⟩

/-! ## The loop along the candidates -/

theorem followCandidates_succ (rounds : ℕ) (lanelet : Lanelet) :
    followCandidates neighbors routeLaneletsId terminalLanelets candidateLanesId (rounds + 1)
        (neighbors lanelet) =
      match firstLink routeLaneletsId terminalLanelets candidateLanesId (neighbors lanelet) with
      | .mainLane => some true
      | .nothing => some false
      | .candidate next =>
        followCandidates neighbors routeLaneletsId terminalLanelets candidateLanesId rounds
          (neighbors next) := by
  rw [followCandidates]
  cases neighbors lanelet with
  | nil => rfl
  | cons first rest => rfl

theorem FirstLinked.ends
    (hlinked : FirstLinked neighbors routeLaneletsId terminalLanelets candidateLanesId lanelet) :
    Ends (nextCandidate neighbors routeLaneletsId terminalLanelets candidateLanesId)
      lanelet := by
  induction hlinked with
  | mainLane hlink => exact .stop (by rw [nextCandidate, hlink])
  | candidate hlink _ ih => exact .step (by rw [LeadsTo, nextCandidate, hlink]) ih

theorem exists_followCandidates_of_ends
    (hends : Ends (nextCandidate neighbors routeLaneletsId terminalLanelets candidateLanesId)
      lanelet) :
    ∃ rounds result, followCandidates neighbors routeLaneletsId terminalLanelets
      candidateLanesId rounds (neighbors lanelet) = some result := by
  induction hends with
  | @stop lanelet hstop =>
    rw [nextCandidate] at hstop
    cases hlink : firstLink routeLaneletsId terminalLanelets candidateLanesId
        (neighbors lanelet) with
    | mainLane => exact ⟨1, true, by rw [followCandidates_succ, hlink]⟩
    | nothing => exact ⟨1, false, by rw [followCandidates_succ, hlink]⟩
    | candidate next =>
      rw [hlink] at hstop
      cases hstop
  | @step lanelet after hnext _ ih =>
    obtain ⟨rounds, result, hresult⟩ := ih
    rw [LeadsTo, nextCandidate] at hnext
    cases hlink : firstLink routeLaneletsId terminalLanelets candidateLanesId
        (neighbors lanelet) with
    | mainLane =>
      rw [hlink] at hnext
      cases hnext
    | nothing =>
      rw [hlink] at hnext
      cases hnext
    | candidate next =>
      rw [hlink] at hnext
      cases hnext
      exact ⟨rounds + 1, result, by rw [followCandidates_succ, hlink]; exact hresult⟩

variable {result : Bool}

/-- What the loop returns, and that the walk has ended when it does. -/
theorem followCandidates_spec {rounds : ℕ}
    (hresult : followCandidates neighbors routeLaneletsId terminalLanelets candidateLanesId
      rounds (neighbors lanelet) = some result) :
    Ends (nextCandidate neighbors routeLaneletsId terminalLanelets candidateLanesId) lanelet ∧
      (result = true ↔
        FirstLinked neighbors routeLaneletsId terminalLanelets candidateLanesId lanelet) := by
  induction rounds generalizing lanelet with
  | zero => cases hresult
  | succ rounds ih =>
    rw [followCandidates_succ] at hresult
    cases hlink : firstLink routeLaneletsId terminalLanelets candidateLanesId
        (neighbors lanelet) with
    | mainLane =>
      rw [hlink] at hresult
      cases hresult
      exact ⟨.stop (by rw [nextCandidate, hlink]), iff_of_true rfl (.mainLane hlink)⟩
    | nothing =>
      rw [hlink] at hresult
      cases hresult
      refine ⟨.stop (by rw [nextCandidate, hlink]), iff_of_false (by decide) ?_⟩
      rintro (hlink' | ⟨hlink', -⟩)
      · rw [hlink] at hlink'
        cases hlink'
      · rw [hlink] at hlink'
        cases hlink'
    | candidate next =>
      rw [hlink] at hresult
      obtain ⟨hends, hlinked⟩ := ih hresult
      refine ⟨.step (by rw [LeadsTo, nextCandidate, hlink]) hends, hlinked.trans ?_⟩
      constructor
      · exact .candidate hlink
      · rintro (hlink' | ⟨hlink', hnext⟩)
        · rw [hlink] at hlink'
          cases hlink'
        · rw [hlink] at hlink'
          cases hlink'
          exact hnext

theorem followCandidates_mono {rounds more : ℕ} (hle : rounds ≤ more)
    (hresult : followCandidates neighbors routeLaneletsId terminalLanelets candidateLanesId
      rounds lanelets = some result) :
    followCandidates neighbors routeLaneletsId terminalLanelets candidateLanesId more lanelets =
      some result := by
  induction rounds generalizing lanelets more with
  | zero => cases hresult
  | succ rounds ih =>
    obtain ⟨more, rfl⟩ : ∃ left, more = left + 1 := ⟨more - 1, by omega⟩
    rw [followCandidates] at hresult ⊢
    split at hresult
    · rwa [if_pos ‹_›]
    · rw [if_neg ‹_›]
      cases hlink : firstLink routeLaneletsId terminalLanelets candidateLanesId lanelets with
      | mainLane => simpa only [hlink] using hresult
      | nothing => simpa only [hlink] using hresult
      | candidate next =>
        simp only [hlink] at hresult ⊢
        exact ih (by omega) hresult

theorem FirstLinked.linked {mainLane candidate : Lanelet → Prop}
    (hmain : ∀ lanelet ∈ routeLaneletsId, mainLane lanelet)
    (hcandidate : ∀ lanelet ∈ candidateLanesId, candidate lanelet)
    (hlinked : FirstLinked neighbors routeLaneletsId terminalLanelets candidateLanesId lanelet) :
    Linked neighbors mainLane candidate lanelet := by
  induction hlinked with
  | mainLane hlink =>
    obtain ⟨neighbor, hneighbor, hroute⟩ := firstLink_mainLane hlink
    exact .mainLane hneighbor (hmain neighbor hroute)
  | candidate hlink _ ih =>
    obtain ⟨hneighbor, hnext⟩ := firstLink_candidate hlink
    exact .candidate hneighbor (hcandidate _ hnext) ih

theorem ends_nextCandidate_iff :
    Ends (nextCandidate neighbors routeLaneletsId terminalLanelets candidateLanesId) lanelet ↔
      Acyclic (nextCandidate neighbors routeLaneletsId terminalLanelets candidateLanesId)
        lanelet := by
  apply ends_iff_acyclic
  refine (List.finite_toSet candidateLanesId).subset fun other hother => ?_
  obtain ⟨before, -, hnext⟩ := Relation.TransGen.tail'_iff.mp hother
  rw [LeadsTo, nextCandidate] at hnext
  split at hnext
  · rename_i hlink
    cases hnext
    exact (firstLink_candidate hlink).2
  · cases hnext

/-! ## Growing the route by linked candidates -/

/-- The main lanes with some candidates that already lead to them. -/
def Grown (neighbors : Lanelet → List Lanelet)
    (routeLaneletsId terminalLanelets candidateLanesId grownId : List Lanelet) : Prop :=
  (∀ lanelet ∈ routeLaneletsId, lanelet ∈ grownId) ∧
    ∀ lanelet ∈ grownId, lanelet ∈ routeLaneletsId ∨
      lanelet ∈ candidateLanesId ∧ lanelet ∉ terminalLanelets ∧
        FirstLinked neighbors routeLaneletsId terminalLanelets candidateLanesId lanelet

section

variable {grownId : List Lanelet}
  (hgrown : Grown neighbors routeLaneletsId terminalLanelets candidateLanesId grownId)
include hgrown

theorem Grown.firstLink (lanelets : List Lanelet) :
    firstLink grownId terminalLanelets candidateLanesId lanelets =
        firstLink routeLaneletsId terminalLanelets candidateLanesId lanelets ∨
      firstLink grownId terminalLanelets candidateLanesId lanelets = .mainLane ∧
        ∃ next, firstLink routeLaneletsId terminalLanelets candidateLanesId lanelets =
            .candidate next ∧
          FirstLinked neighbors routeLaneletsId terminalLanelets candidateLanesId next := by
  induction lanelets with
  | nil => exact .inl rfl
  | cons first rest ih =>
    simp only [RouteHandler.firstLink]
    by_cases hroute : first ∈ routeLaneletsId
    · rw [if_pos hroute, if_pos (hgrown.1 first hroute)]
      exact .inl rfl
    · rw [if_neg hroute]
      by_cases hmem : first ∈ grownId
      · obtain ⟨hcandidate, hterminal, hlinked⟩ := (hgrown.2 first hmem).resolve_left hroute
        rw [if_pos hmem, if_neg hterminal, if_pos hcandidate]
        exact .inr ⟨rfl, first, rfl, hlinked⟩
      · rw [if_neg hmem]
        split_ifs with hterminal hcandidate
        · exact .inl rfl
        · exact .inl rfl
        · exact ih

theorem Grown.firstLinked_iff :
    FirstLinked neighbors grownId terminalLanelets candidateLanesId lanelet ↔
      FirstLinked neighbors routeLaneletsId terminalLanelets candidateLanesId lanelet := by
  constructor
  · intro hlinked
    induction hlinked with
    | mainLane hlink =>
      rcases hgrown.firstLink _ with heq | ⟨-, next, hnext, hlinked⟩
      · exact .mainLane (heq ▸ hlink)
      · exact .candidate hnext hlinked
    | candidate hlink _ ih =>
      rcases hgrown.firstLink _ with heq | ⟨hmain, -⟩
      · exact .candidate (heq ▸ hlink) ih
      · rw [hmain] at hlink
        cases hlink
  · intro hlinked
    induction hlinked with
    | mainLane hlink =>
      rcases hgrown.firstLink _ with heq | ⟨hmain, -⟩
      · exact .mainLane (heq.trans hlink)
      · exact .mainLane hmain
    | candidate hlink _ ih =>
      rcases hgrown.firstLink _ with heq | ⟨hmain, -⟩
      · exact .candidate (heq.trans hlink) ih
      · exact .mainLane hmain

theorem Grown.ends_iff :
    Ends (nextCandidate neighbors grownId terminalLanelets candidateLanesId) lanelet ↔
      Ends (nextCandidate neighbors routeLaneletsId terminalLanelets candidateLanesId)
        lanelet := by
  constructor
  · intro hends
    induction hends with
    | @stop lanelet hstop =>
      rcases hgrown.firstLink (neighbors lanelet) with heq | ⟨-, next, hnext, hlinked⟩
      · exact .stop (by rw [nextCandidate, ← heq]; exact hstop)
      · exact .step (by rw [LeadsTo, nextCandidate, hnext]) hlinked.ends
    | @step lanelet after hnext _ ih =>
      rw [LeadsTo, nextCandidate] at hnext
      rcases hgrown.firstLink (neighbors lanelet) with heq | ⟨hmain, -⟩
      · exact .step (by rw [LeadsTo, nextCandidate, ← heq]; exact hnext) ih
      · rw [hmain] at hnext
        cases hnext
  · intro hends
    induction hends with
    | @stop lanelet hstop =>
      rcases hgrown.firstLink (neighbors lanelet) with heq | ⟨hmain, -⟩
      · exact .stop (by rw [nextCandidate, heq]; exact hstop)
      · exact .stop (by rw [nextCandidate, hmain])
    | @step lanelet after hnext _ ih =>
      rcases hgrown.firstLink (neighbors lanelet) with heq | ⟨hmain, -⟩
      · exact .step (by rw [LeadsTo, nextCandidate, heq]; exact hnext) ih
      · exact .stop (by rw [nextCandidate, hmain])

end

theorem isConnectedToMainLanes_spec {rounds : ℕ}
    (hresult : isConnectedToMainLanes neighbors routeLaneletsId terminalLanelets
      candidateLanesId rounds lanelet = some result) :
    (lanelet ∉ terminalLanelets →
        Ends (nextCandidate neighbors routeLaneletsId terminalLanelets candidateLanesId) lanelet) ∧
      (result = true ↔ lanelet ∉ terminalLanelets ∧
        FirstLinked neighbors routeLaneletsId terminalLanelets candidateLanesId lanelet) := by
  rw [isConnectedToMainLanes] at hresult
  split at hresult
  · rename_i hterminal
    cases hresult
    exact ⟨fun hnot => absurd hterminal hnot,
      iff_of_false (by decide) fun hboth => hboth.1 hterminal⟩
  · rename_i hterminal
    obtain ⟨hends, hlinked⟩ := followCandidates_spec hresult
    exact ⟨fun _ => hends, hlinked.trans (and_iff_right hterminal).symm⟩

theorem exists_isConnectedToMainLanes (hends : lanelet ∉ terminalLanelets →
      Ends (nextCandidate neighbors routeLaneletsId terminalLanelets candidateLanesId) lanelet) :
    ∃ rounds result, ∀ more ≥ rounds, isConnectedToMainLanes neighbors routeLaneletsId
      terminalLanelets candidateLanesId more lanelet = some result := by
  by_cases hterminal : lanelet ∈ terminalLanelets
  · exact ⟨0, false, fun more _ => by rw [isConnectedToMainLanes, if_pos hterminal]⟩
  · obtain ⟨rounds, result, hresult⟩ := exists_followCandidates_of_ends (hends hterminal)
    refine ⟨rounds, result, fun more hle => ?_⟩
    rw [isConnectedToMainLanes, if_neg hterminal]
    exact followCandidates_mono hle hresult

end

/-! ## All candidates -/

section

variable (routingGraph : RoutingGraph Lanelet)
  (routeLaneletsId startLanelets goalLanelets candidateLanesId : List Lanelet)

def SearchesEnd (lanelet : Lanelet) : Prop :=
  (lanelet ∉ startLanelets → Ends (nextCandidate routingGraph.previous routeLaneletsId
    startLanelets candidateLanesId) lanelet) ∧
  (lanelet ∉ goalLanelets → Ends (nextCandidate routingGraph.following routeLaneletsId
    goalLanelets candidateLanesId) lanelet)

def Accepted (lanelet : Lanelet) : Prop :=
  (lanelet ∉ startLanelets ∧ FirstLinked routingGraph.previous routeLaneletsId startLanelets
    candidateLanesId lanelet) ∧
  (lanelet ∉ goalLanelets ∧ FirstLinked routingGraph.following routeLaneletsId goalLanelets
    candidateLanesId lanelet)

/-- What the loop over the candidates keeps of the set that it grows. -/
def OnlyAccepted (grownId : List Lanelet) : Prop :=
  (∀ lanelet ∈ routeLaneletsId, lanelet ∈ grownId) ∧
    ∀ lanelet ∈ grownId, lanelet ∈ routeLaneletsId ∨ lanelet ∈ candidateLanesId ∧
      Accepted routingGraph routeLaneletsId startLanelets goalLanelets candidateLanesId lanelet

variable {routingGraph routeLaneletsId startLanelets goalLanelets candidateLanesId}
variable {grownId : List Lanelet}

section

variable (hgrown : OnlyAccepted routingGraph routeLaneletsId startLanelets goalLanelets
  candidateLanesId grownId)

include hgrown

theorem OnlyAccepted.previous :
    Grown routingGraph.previous routeLaneletsId startLanelets candidateLanesId grownId :=
  ⟨hgrown.1, fun lanelet hmem =>
    (hgrown.2 lanelet hmem).imp_right fun haccepted => ⟨haccepted.1, haccepted.2.1⟩⟩

theorem OnlyAccepted.following :
    Grown routingGraph.following routeLaneletsId goalLanelets candidateLanesId grownId :=
  ⟨hgrown.1, fun lanelet hmem =>
    (hgrown.2 lanelet hmem).imp_right fun haccepted => ⟨haccepted.1, haccepted.2.2⟩⟩

/-- The set after the check of one candidate. -/
theorem OnlyAccepted.insert {candidateId : Lanelet} {accepted : Bool}
    (hcandidate : candidateId ∈ candidateLanesId)
    (haccepted : accepted = true ↔ Accepted routingGraph routeLaneletsId startLanelets
      goalLanelets candidateLanesId candidateId) :
    OnlyAccepted routingGraph routeLaneletsId startLanelets goalLanelets candidateLanesId
        (if accepted then grownId.insert candidateId else grownId) ∧
      ∀ lanelet, lanelet ∈ (if accepted then grownId.insert candidateId else grownId) ↔
        lanelet ∈ grownId ∨ lanelet = candidateId ∧ Accepted routingGraph routeLaneletsId
          startLanelets goalLanelets candidateLanesId candidateId := by
  cases accepted with
  | false =>
    have hnot : ¬ Accepted routingGraph routeLaneletsId startLanelets goalLanelets
        candidateLanesId candidateId := fun htrue => absurd (haccepted.mpr htrue) (by decide)
    exact ⟨hgrown, fun lanelet => by simp [hnot]⟩
  | true =>
    have htrue := haccepted.mp rfl
    refine ⟨⟨fun lanelet hmem => ?_, fun lanelet hmem => ?_⟩, fun lanelet => ?_⟩
    · exact List.mem_insert_of_mem (hgrown.1 lanelet hmem)
    · rcases List.mem_insert_iff.mp hmem with rfl | hmem
      · exact .inr ⟨hcandidate, htrue⟩
      · exact hgrown.2 lanelet hmem
    · simp [htrue, or_comm]

end

theorem checkCandidates_spec {rounds : ℕ} {order result : List Lanelet}
    (horder : ∀ lanelet ∈ order, lanelet ∈ candidateLanesId)
    (hgrown : OnlyAccepted routingGraph routeLaneletsId startLanelets goalLanelets
      candidateLanesId grownId)
    (hresult : checkCandidates rounds routingGraph startLanelets goalLanelets candidateLanesId
      order grownId = some result) :
    (∀ lanelet ∈ order, SearchesEnd routingGraph routeLaneletsId startLanelets goalLanelets
        candidateLanesId lanelet) ∧
      ∀ lanelet, lanelet ∈ result ↔ lanelet ∈ grownId ∨ lanelet ∈ order ∧
        Accepted routingGraph routeLaneletsId startLanelets goalLanelets candidateLanesId
          lanelet := by
  induction order generalizing grownId with
  | nil =>
    rw [checkCandidates, Option.some.injEq] at hresult
    subst hresult
    simp
  | cons candidateId rest ih =>
    rw [checkCandidates, Option.bind_eq_bind, Option.bind_eq_some_iff] at hresult
    obtain ⟨prev, hprev, hresult⟩ := hresult
    obtain ⟨next, hnext, hresult⟩ := Option.bind_eq_some_iff.mp hresult
    obtain ⟨hprevEnds, hprevLinked⟩ := isConnectedToMainLanes_spec hprev
    obtain ⟨hnextEnds, hnextLinked⟩ := isConnectedToMainLanes_spec hnext
    simp only [hgrown.previous.ends_iff, hgrown.following.ends_iff,
      hgrown.previous.firstLinked_iff, hgrown.following.firstLinked_iff]
      at hprevEnds hprevLinked hnextEnds hnextLinked
    have haccepted : (next && prev) = true ↔ Accepted routingGraph routeLaneletsId
        startLanelets goalLanelets candidateLanesId candidateId := by
      rw [Bool.and_eq_true, hprevLinked, hnextLinked, and_comm, Accepted]
    obtain ⟨hgrown', hmem'⟩ := hgrown.insert (horder candidateId (List.mem_cons_self ..)) haccepted
    obtain ⟨hrestEnds, hrestMem⟩ := ih
      (fun lanelet hlanelet => horder lanelet (List.mem_cons_of_mem _ hlanelet))
      hgrown' hresult
    refine ⟨List.forall_mem_cons.mpr ⟨⟨hprevEnds, hnextEnds⟩, hrestEnds⟩, fun lanelet => ?_⟩
    rw [hrestMem, hmem', List.mem_cons, or_and_right, or_assoc]
    refine or_congr_right (or_congr_left (and_congr_right fun heq => ?_))
    rw [heq]

theorem exists_checkCandidates {order : List Lanelet}
    (horder : ∀ lanelet ∈ order, lanelet ∈ candidateLanesId)
    (hgrown : OnlyAccepted routingGraph routeLaneletsId startLanelets goalLanelets
      candidateLanesId grownId)
    (hends : ∀ lanelet ∈ order, SearchesEnd routingGraph routeLaneletsId startLanelets
      goalLanelets candidateLanesId lanelet) :
    ∃ rounds result, ∀ more ≥ rounds, checkCandidates more routingGraph startLanelets
      goalLanelets candidateLanesId order grownId = some result := by
  induction order generalizing grownId with
  | nil => exact ⟨0, grownId, fun more _ => rfl⟩
  | cons candidateId rest ih =>
    obtain ⟨hprevEnds, hnextEnds⟩ := hends candidateId (List.mem_cons_self ..)
    simp only [← hgrown.previous.ends_iff] at hprevEnds
    simp only [← hgrown.following.ends_iff] at hnextEnds
    obtain ⟨prevRounds, prev, hprev⟩ := exists_isConnectedToMainLanes hprevEnds
    obtain ⟨nextRounds, next, hnext⟩ := exists_isConnectedToMainLanes hnextEnds
    have hprevLinked := (isConnectedToMainLanes_spec (hprev prevRounds le_rfl)).2
    have hnextLinked := (isConnectedToMainLanes_spec (hnext nextRounds le_rfl)).2
    rw [hgrown.previous.firstLinked_iff] at hprevLinked
    rw [hgrown.following.firstLinked_iff] at hnextLinked
    have haccepted : (next && prev) = true ↔ Accepted routingGraph routeLaneletsId
        startLanelets goalLanelets candidateLanesId candidateId := by
      rw [Bool.and_eq_true, hprevLinked, hnextLinked, and_comm, Accepted]
    obtain ⟨hgrown', -⟩ := hgrown.insert (horder candidateId (List.mem_cons_self ..)) haccepted
    obtain ⟨restRounds, result, hresult⟩ := ih
      (fun lanelet hlanelet => horder lanelet (List.mem_cons_of_mem _ hlanelet)) hgrown'
      (fun lanelet hlanelet => hends lanelet (List.mem_cons_of_mem _ hlanelet))
    refine ⟨max prevRounds (max nextRounds restRounds), result, fun more hle => ?_⟩
    rw [checkCandidates, hprev more (by omega), hnext more (by omega)]
    exact hresult more (by omega)

end

/-! ## The whole route -/

/-- In every order of the sets the function returns, with the path, its lane-changeable
neighbours, and the candidates that are linked to those on both sides. -/
def RouteLaneletsLinked (handler : RouteHandler Lanelet) (pathLanelets : List Lanelet) : Prop :=
  let mainLane := MainLane handler.routingGraph pathLanelets
  let candidate := CandidateLane handler.routingGraph pathLanelets
  ∀ iterate : List Lanelet → List Lanelet, (∀ lanelets, (iterate lanelets).Perm lanelets) →
    ∃ rounds result, setRouteLanelets iterate rounds handler pathLanelets = some result ∧
      ∀ lanelet, lanelet ∈ result.routeLanelets ↔ mainLane lanelet ∨ candidate lanelet ∧
        Linked handler.routingGraph.previous mainLane candidate lanelet ∧
        Linked handler.routingGraph.following mainLane candidate lanelet

def startOf (handler : RouteHandler Lanelet) (pathLanelets : List Lanelet) : List Lanelet :=
  (pathLanelets.head?.map handler.routingGraph.getAllNeighbors).getD handler.startLanelets

def goalOf (handler : RouteHandler Lanelet) (pathLanelets : List Lanelet) : List Lanelet :=
  (pathLanelets.getLast?.map handler.routingGraph.getAllNeighbors).getD handler.goalLanelets

def previousCandidate (handler : RouteHandler Lanelet) (pathLanelets : List Lanelet) :
    Lanelet → Option Lanelet :=
  let (routeLaneletsId, candidateLanesId) := collectLanes handler.routingGraph pathLanelets
  nextCandidate handler.routingGraph.previous routeLaneletsId (startOf handler pathLanelets)
    candidateLanesId

def followingCandidate (handler : RouteHandler Lanelet) (pathLanelets : List Lanelet) :
    Lanelet → Option Lanelet :=
  let (routeLaneletsId, candidateLanesId) := collectLanes handler.routingGraph pathLanelets
  nextCandidate handler.routingGraph.following routeLaneletsId (goalOf handler pathLanelets)
    candidateLanesId

def NoCandidateLoop (handler : RouteHandler Lanelet) (pathLanelets : List Lanelet) : Prop :=
  ∀ lanelet, CandidateLane handler.routingGraph pathLanelets lanelet →
    (lanelet ∉ startOf handler pathLanelets →
      Acyclic (previousCandidate handler pathLanelets) lanelet) ∧
    (lanelet ∉ goalOf handler pathLanelets →
      Acyclic (followingCandidate handler pathLanelets) lanelet)

def LinkedByFirst (handler : RouteHandler Lanelet) (pathLanelets : List Lanelet) : Prop :=
  let mainLane := MainLane handler.routingGraph pathLanelets
  let candidate := CandidateLane handler.routingGraph pathLanelets
  let (routeLaneletsId, candidateLanesId) := collectLanes handler.routingGraph pathLanelets
  ∀ lanelet, candidate lanelet → ¬ mainLane lanelet →
    Linked handler.routingGraph.previous mainLane candidate lanelet →
    Linked handler.routingGraph.following mainLane candidate lanelet →
    Accepted handler.routingGraph routeLaneletsId (startOf handler pathLanelets)
      (goalOf handler pathLanelets) candidateLanesId lanelet

section

variable {handler : RouteHandler Lanelet} {pathLanelets : List Lanelet}
  {iterate : List Lanelet → List Lanelet}

theorem onlyAccepted_collectLanes :
    OnlyAccepted handler.routingGraph (collectLanes handler.routingGraph pathLanelets).1
      (startOf handler pathLanelets) (goalOf handler pathLanelets)
      (collectLanes handler.routingGraph pathLanelets).2
      (collectLanes handler.routingGraph pathLanelets).1 :=
  ⟨fun _ hmem => hmem, fun _ hmem => .inl hmem⟩

theorem noCandidateLoop_iff : NoCandidateLoop handler pathLanelets ↔
      ∀ lanelet ∈ (collectLanes handler.routingGraph pathLanelets).2,
        SearchesEnd handler.routingGraph (collectLanes handler.routingGraph pathLanelets).1
          (startOf handler pathLanelets) (goalOf handler pathLanelets)
          (collectLanes handler.routingGraph pathLanelets).2 lanelet := by
  refine forall_congr' fun lanelet => ?_
  rw [(mem_collectLanes handler.routingGraph pathLanelets lanelet).2]
  refine imp_congr_right fun _ => and_congr ?_ ?_
  · exact imp_congr_right fun _ => ends_nextCandidate_iff.symm
  · exact imp_congr_right fun _ => ends_nextCandidate_iff.symm

theorem setRouteLanelets_spec (hperm : ∀ lanelets, (iterate lanelets).Perm lanelets)
    {rounds : ℕ} {result : RouteHandler Lanelet}
    (hresult : setRouteLanelets iterate rounds handler pathLanelets = some result) :
    NoCandidateLoop handler pathLanelets ∧ ∀ lanelet, lanelet ∈ result.routeLanelets ↔
        MainLane handler.routingGraph pathLanelets lanelet ∨
          CandidateLane handler.routingGraph pathLanelets lanelet ∧
          Accepted handler.routingGraph (collectLanes handler.routingGraph pathLanelets).1
            (startOf handler pathLanelets) (goalOf handler pathLanelets)
            (collectLanes handler.routingGraph pathLanelets).2 lanelet := by
  obtain ⟨routeLaneletsId, hcheck, rfl⟩ := Option.map_eq_some_iff.mp hresult
  obtain ⟨hends, hmem⟩ := checkCandidates_spec
    (fun lanelet hlanelet => (hperm _).mem_iff.mp hlanelet) onlyAccepted_collectLanes hcheck
  refine ⟨noCandidateLoop_iff.mpr fun lanelet hlanelet =>
    hends lanelet ((hperm _).mem_iff.mpr hlanelet), fun lanelet => ?_⟩
  obtain ⟨hmain, hcandidate⟩ := mem_collectLanes handler.routingGraph pathLanelets lanelet
  rw [(hperm _).mem_iff, hmem, (hperm _).mem_iff, hmain, hcandidate]

theorem exists_setRouteLanelets (hperm : ∀ lanelets, (iterate lanelets).Perm lanelets)
    (hloop : NoCandidateLoop handler pathLanelets) :
    ∃ rounds result, setRouteLanelets iterate rounds handler pathLanelets = some result := by
  rw [noCandidateLoop_iff] at hloop
  have horder : ∀ lanelet ∈ iterate (collectLanes handler.routingGraph pathLanelets).2,
      lanelet ∈ (collectLanes handler.routingGraph pathLanelets).2 :=
    fun lanelet hlanelet => (hperm _).mem_iff.mp hlanelet
  obtain ⟨rounds, result, hresult⟩ := exists_checkCandidates horder onlyAccepted_collectLanes
    fun lanelet hlanelet => hloop lanelet (horder lanelet hlanelet)
  exact ⟨rounds, _, Option.map_eq_some_iff.mpr ⟨result, hresult rounds le_rfl, rfl⟩⟩

theorem Accepted.linked {lanelet : Lanelet} (haccepted : Accepted handler.routingGraph
      (collectLanes handler.routingGraph pathLanelets).1 (startOf handler pathLanelets)
      (goalOf handler pathLanelets) (collectLanes handler.routingGraph pathLanelets).2
      lanelet) :
    Linked handler.routingGraph.previous (MainLane handler.routingGraph pathLanelets)
        (CandidateLane handler.routingGraph pathLanelets) lanelet ∧
      Linked handler.routingGraph.following (MainLane handler.routingGraph pathLanelets)
        (CandidateLane handler.routingGraph pathLanelets) lanelet := by
  have hmain : ∀ other ∈ (collectLanes handler.routingGraph pathLanelets).1,
      MainLane handler.routingGraph pathLanelets other :=
    fun other hother => (mem_collectLanes _ _ other).1.mp hother
  have hcandidate : ∀ other ∈ (collectLanes handler.routingGraph pathLanelets).2,
      CandidateLane handler.routingGraph pathLanelets other :=
    fun other hother => (mem_collectLanes _ _ other).2.mp hother
  exact ⟨haccepted.1.2.linked hmain hcandidate, haccepted.2.2.linked hmain hcandidate⟩

end

/--
The function returns the linked neighbours in every order of its sets exactly
when no candidate is led to a loop of candidates and every linked candidate is
linked through the first neighbours.
-/
theorem routeLaneletsLinked_iff (handler : RouteHandler Lanelet) (pathLanelets : List Lanelet) :
    RouteLaneletsLinked handler pathLanelets ↔
      NoCandidateLoop handler pathLanelets ∧ LinkedByFirst handler pathLanelets := by
  constructor
  · intro hlinked
    have hperm : ∀ lanelets : List Lanelet, (id lanelets).Perm lanelets := List.Perm.refl
    obtain ⟨rounds, result, hresult, hmem⟩ := hlinked id hperm
    obtain ⟨hloop, hmem'⟩ := setRouteLanelets_spec hperm hresult
    refine ⟨hloop, fun lanelet hcandidate hmain hprevious hfollowing => ?_⟩
    have hin := (hmem lanelet).mpr (.inr ⟨hcandidate, hprevious, hfollowing⟩)
    exact (((hmem' lanelet).mp hin).resolve_left hmain).2
  · rintro ⟨hloop, hfirst⟩ iterate hperm
    obtain ⟨rounds, result, hresult⟩ := exists_setRouteLanelets hperm hloop
    refine ⟨rounds, result, hresult, fun lanelet => ?_⟩
    rw [(setRouteLanelets_spec hperm hresult).2 lanelet]
    by_cases hmain : MainLane handler.routingGraph pathLanelets lanelet
    · exact iff_of_true (.inl hmain) (.inl hmain)
    · rw [or_iff_right hmain, or_iff_right hmain]
      refine and_congr_right fun hcandidate => ?_
      constructor
      · exact fun haccepted => haccepted.linked
      · rintro ⟨hprevious, hfollowing⟩
        exact hfirst lanelet hcandidate hmain hprevious hfollowing

def besideRing : RouteHandler ℕ where
  routingGraph :=
    { previous := fun lanelet => [[], [0], [1], [2], [5], [4]].getD lanelet []
      following := fun lanelet => [[1], [2], [3], [], [5], [4]].getD lanelet []
      rightRelations := fun lanelet =>
        [[], [⟨4, .adjacentRight⟩], [⟨5, .adjacentRight⟩], []].getD lanelet []
      leftRelations := fun lanelet =>
        [[], [], [], [], [⟨1, .adjacentLeft⟩], [⟨2, .adjacentLeft⟩]].getD lanelet []
      getAllNeighborsRight := fun lanelet => [[], [4], [5], []].getD lanelet []
      getAllNeighborsLeft := fun lanelet => [[], [], [], [], [1], [2]].getD lanelet []
      getAllNeighbors := fun lanelet =>
        [[0], [1, 4], [2, 5], [3], [1, 4], [2, 5]].getD lanelet [] }
  routeLanelets := []
  preferredLanelets := []
  startLanelets := []
  goalLanelets := []
  shoulderLanelets := []

/-- The search from 4 goes round the ring for ever. -/
theorem not_routeLaneletsLinked_ring : ¬ RouteLaneletsLinked besideRing [0, 1, 2, 3] := by
  intro hlinked
  have hperm : ∀ lanelets : List ℕ, (id lanelets).Perm lanelets := List.Perm.refl
  obtain ⟨rounds, result, hresult, -⟩ := hlinked id hperm
  have hcandidate : CandidateLane besideRing.routingGraph [0, 1, 2, 3] 4 :=
    ⟨1, by decide, .inl (by decide)⟩
  have hacyclic := ((setRouteLanelets_spec hperm hresult).1 4 hcandidate).1 (by decide)
  have hforth : LeadsTo (previousCandidate besideRing [0, 1, 2, 3]) 4 5 := by decide
  have hback : LeadsTo (previousCandidate besideRing [0, 1, 2, 3]) 5 4 := by decide
  exact hacyclic 4 .refl (.tail (.single hforth) hback)

end

/-!
## The way to the preferred lane

Lanes are counted, and their intervals collected, from a lanelet to the first
preferred neighbour on the right and then on the left.  The total distance is
summed with a running total of type `int`.
-/

open Library

variable {K Lanelet Point : Type} [Field K] [LinearOrder K]
  [DecidableEq Lanelet]

/-- A loop over the neighbours of one side, which counts up or down by `step`. -/
def countToPreferred (preferred : List Lanelet) (step : ℤ) : ℤ → List Lanelet → Option ℤ
  | _, [] => none
  | num, lane :: rest =>
    if lane ∈ preferred then some (num + step)
    else countToPreferred preferred step (num + step) rest

def getNumLaneToPreferredLane (handler : RouteHandler Lanelet) (lanelet : Lanelet)
    (direction : Direction) : ℤ :=
  if lanelet ∈ handler.preferredLanelets then 0
  else
    let right :=
      if direction = .none ∨ direction = .right then
        countToPreferred handler.preferredLanelets (-1) 0
          (handler.routingGraph.getAllNeighborsRight lanelet)
      else none
    let left :=
      if direction = .none ∨ direction = .left then
        countToPreferred handler.preferredLanelets 1 0
          (handler.routingGraph.getAllNeighborsLeft lanelet)
      else none
    (right.or left).getD 0

section

variable (centerline : Lanelet → List Point) (distance2d : Point → Point → K)

/-- The loop of one side over the intervals, whose sign is that of `side`. -/
def collectIntervals (preferred : List Lanelet) (side : K) :
    Lanelet → List K → List Lanelet → Option (List K)
  | _, _, [] => none
  | currentLanelet, intervals, lane :: rest =>
    match centerline currentLanelet, centerline lane with
    | currPt :: _, nextPt :: _ =>
      let intervals := intervals ++ [side * distance2d currPt nextPt]
      if lane ∈ preferred then some intervals
      else collectIntervals preferred side lane intervals rest
    | _, _ => some intervals

def getLateralIntervalsToPreferredLane (handler : RouteHandler Lanelet)
    (lanelet : Lanelet) (direction : Direction) : List K :=
  if lanelet ∈ handler.preferredLanelets then []
  else
    let right :=
      if direction = .none ∨ direction = .right then
        collectIntervals centerline distance2d handler.preferredLanelets (-1) lanelet []
          (handler.routingGraph.getAllNeighborsRight lanelet)
      else none
    let left :=
      if direction = .none ∨ direction = .left then
        collectIntervals centerline distance2d handler.preferredLanelets 1 lanelet []
          (handler.routingGraph.getAllNeighborsLeft lanelet)
      else none
    (right.or left).getD []

/-- The running total starts at the integer zero, so it is an `int`. -/
def getTotalLateralDistanceToPreferredLane [FloorRing K]
    (handler : RouteHandler Lanelet) (lanelet : Lanelet) (direction : Direction) :
    Option K :=
  (TruncatingSum.accumulate 0
    (getLateralIntervalsToPreferredLane centerline distance2d handler lanelet
      direction)).map Int.cast

end

/-! ## The lanes that are crossed -/

def upToPreferred (preferred : List Lanelet) : List Lanelet → Option (List Lanelet)
  | [] => none
  | lane :: rest =>
    if lane ∈ preferred then some [lane]
    else (upToPreferred preferred rest).map (lane :: ·)

def lanesToPreferred (handler : RouteHandler Lanelet) (lanelet : Lanelet)
    (direction : Direction) : ℤ × List Lanelet :=
  if lanelet ∈ handler.preferredLanelets then (0, [])
  else
    let right :=
      if direction = .none ∨ direction = .right then
        upToPreferred handler.preferredLanelets (handler.routingGraph.getAllNeighborsRight lanelet)
      else none
    let left :=
      if direction = .none ∨ direction = .left then
        upToPreferred handler.preferredLanelets (handler.routingGraph.getAllNeighborsLeft lanelet)
      else none
    ((right.map fun lanes => (-1, lanes)).or
      (left.map fun lanes => (1, lanes))).getD (0, [])

theorem countToPreferred_eq (preferred : List Lanelet) (step num : ℤ) (lanes : List Lanelet) :
    countToPreferred preferred step num lanes =
      (upToPreferred preferred lanes).map fun crossed => num + step * crossed.length := by
  induction lanes generalizing num with
  | nil => rfl
  | cons lane rest ih =>
    rw [countToPreferred, upToPreferred]
    split
    · simp
    · rw [ih, Option.map_map]
      congr 1
      funext crossed
      simp only [Function.comp_apply, List.length_cons]
      push_cast
      ring

theorem getNumLaneToPreferredLane_eq (handler : RouteHandler Lanelet) (lanelet : Lanelet)
    (direction : Direction) :
    getNumLaneToPreferredLane handler lanelet direction =
      (lanesToPreferred handler lanelet direction).1 *
        (lanesToPreferred handler lanelet direction).2.length := by
  rw [getNumLaneToPreferredLane, lanesToPreferred]
  by_cases hpreferred : lanelet ∈ handler.preferredLanelets
  · simp [hpreferred]
  · simp only [if_neg hpreferred, countToPreferred_eq]
    cases upToPreferred handler.preferredLanelets
        (handler.routingGraph.getAllNeighborsRight lanelet) <;>
      cases upToPreferred handler.preferredLanelets
          (handler.routingGraph.getAllNeighborsLeft lanelet) <;>
        cases direction <;> simp

theorem lanesToPreferred_side (handler : RouteHandler Lanelet) (lanelet : Lanelet)
    (direction : Direction) :
    lanesToPreferred handler lanelet direction = (0, []) ∨
      (lanesToPreferred handler lanelet direction).1 = 1 ∨
      (lanesToPreferred handler lanelet direction).1 = -1 := by
  rw [lanesToPreferred]
  by_cases hpreferred : lanelet ∈ handler.preferredLanelets
  · simp [hpreferred]
  · simp only [if_neg hpreferred]
    cases upToPreferred handler.preferredLanelets
        (handler.routingGraph.getAllNeighborsRight lanelet) <;>
      cases upToPreferred handler.preferredLanelets
          (handler.routingGraph.getAllNeighborsLeft lanelet) <;>
        cases direction <;> simp

section

variable (centerline : Lanelet → List Point) (distance2d : Point → Point → K)

/-- The distance between the first points of two centerlines. -/
def startDistance (lanelet next : Lanelet) : K :=
  match centerline lanelet, centerline next with
  | currPt :: _, nextPt :: _ => distance2d currPt nextPt
  | _, _ => 0

def crossings : Lanelet → List Lanelet → List K
  | _, [] => []
  | lanelet, next :: rest =>
    startDistance centerline distance2d lanelet next :: crossings next rest

omit [LinearOrder K] [DecidableEq Lanelet] in
theorem length_crossings (lanelet : Lanelet) (lanes : List Lanelet) :
    (crossings centerline distance2d lanelet lanes).length = lanes.length := by
  induction lanes generalizing lanelet with
  | nil => rfl
  | cons next rest ih => rw [crossings, List.length_cons, List.length_cons, ih]

section
omit [LinearOrder K]

theorem collectIntervals_eq (preferred : List Lanelet) (side : K) {lanelet : Lanelet}
    (intervals : List K) {lanes : List Lanelet}
    (hcenterline : ∀ lane ∈ lanelet :: lanes, centerline lane ≠ []) :
    collectIntervals centerline distance2d preferred side lanelet intervals lanes =
      (upToPreferred preferred lanes).map fun crossed =>
        intervals ++
          (crossings centerline distance2d lanelet crossed).map fun distance =>
            side * distance := by
  induction lanes generalizing lanelet intervals with
  | nil => rfl
  | cons lane rest ih =>
    obtain ⟨currPt, currRest, hcurr⟩ := List.exists_cons_of_ne_nil (hcenterline lanelet (by simp))
    obtain ⟨nextPt, nextRest, hnext⟩ := List.exists_cons_of_ne_nil (hcenterline lane (by simp))
    have hdistance : startDistance centerline distance2d lanelet lane =
        distance2d currPt nextPt := by
      simp only [startDistance, hcurr, hnext]
    rw [collectIntervals, upToPreferred]
    simp only [hcurr, hnext]
    split
    · simp [crossings, hdistance]
    · rw [ih _ fun other hother => hcenterline other (List.mem_cons_of_mem _ hother),
        Option.map_map]
      congr 1
      funext crossed
      simp [crossings, hdistance]

theorem getLateralIntervalsToPreferredLane_eq {handler : RouteHandler Lanelet}
    {lanelet : Lanelet} (direction : Direction)
    (hcenterline : ∀ lane ∈ lanelet :: (handler.routingGraph.getAllNeighborsRight lanelet ++
        handler.routingGraph.getAllNeighborsLeft lanelet), centerline lane ≠ []) :
    getLateralIntervalsToPreferredLane centerline distance2d handler lanelet direction =
      (crossings centerline distance2d lanelet
        (lanesToPreferred handler lanelet direction).2).map fun distance =>
          ((lanesToPreferred handler lanelet direction).1 : K) * distance := by
  have hright : ∀ lane ∈ lanelet :: handler.routingGraph.getAllNeighborsRight lanelet,
      centerline lane ≠ [] := by
    intro lane hmem
    apply hcenterline
    rw [List.mem_cons] at hmem
    rcases hmem with rfl | hmem <;> simp [*]
  have hleft : ∀ lane ∈ lanelet :: handler.routingGraph.getAllNeighborsLeft lanelet,
      centerline lane ≠ [] := by
    intro lane hmem
    apply hcenterline
    rw [List.mem_cons] at hmem
    rcases hmem with rfl | hmem <;> simp [*]
  rw [getLateralIntervalsToPreferredLane, lanesToPreferred]
  by_cases hpreferred : lanelet ∈ handler.preferredLanelets
  · simp [hpreferred, crossings]
  · simp only [if_neg hpreferred, collectIntervals_eq _ _ _ _ _ hright,
      collectIntervals_eq _ _ _ _ _ hleft]
    cases upToPreferred handler.preferredLanelets
        (handler.routingGraph.getAllNeighborsRight lanelet) <;>
      cases upToPreferred handler.preferredLanelets
          (handler.routingGraph.getAllNeighborsLeft lanelet) <;>
        cases direction <;> simp [crossings]

end

omit [DecidableEq Lanelet] in
theorem crossings_nonneg (hdistance : ∀ first second, 0 ≤ distance2d first second)
    (lanelet : Lanelet) (lanes : List Lanelet) :
    ∀ distance ∈ crossings centerline distance2d lanelet lanes, 0 ≤ distance := by
  induction lanes generalizing lanelet with
  | nil => simp [crossings]
  | cons next rest ih =>
    intro distance hmem
    rw [crossings, List.mem_cons] at hmem
    rcases hmem with rfl | hmem
    · unfold startDistance
      split
      · exact hdistance _ _
      · exact le_refl 0
    · exact ih next distance hmem

/-! ## The three readings -/

/-- The number of lanes, the intervals and the total distance fit together. -/
def ReadingsAgree [FloorRing K] (handler : RouteHandler Lanelet) (lanelet : Lanelet)
    (direction : Direction) : Prop :=
  let num := getNumLaneToPreferredLane handler lanelet direction
  let intervals :=
    getLateralIntervalsToPreferredLane centerline distance2d handler lanelet direction
  let total :=
    getTotalLateralDistanceToPreferredLane centerline distance2d handler lanelet direction
  intervals.length = num.natAbs ∧
    (∀ interval ∈ intervals, SignType.sign interval = SignType.sign num) ∧
    total = some intervals.sum ∧ (total = some 0 → num = 0)

/--
Every lane on the way to the preferred one starts a whole number of metres, and
not zero, beside the lane before, and the distances add up to an `int`.
-/
def CrossesWholeMetres (handler : RouteHandler Lanelet) (lanelet : Lanelet)
    (direction : Direction) : Prop :=
  let (side, lanes) := lanesToPreferred handler lanelet direction
  let distances := crossings centerline distance2d lanelet lanes
  (∀ distance ∈ distances, ∃ metres : ℕ, 0 < metres ∧ distance = metres) ∧
    -2 ^ 31 ≤ side * distances.sum ∧ side * distances.sum < 2 ^ 31

theorem sign_interval_eq_iff [IsStrictOrderedRing K] {side : ℤ} (hside : side = 1 ∨ side = -1)
    {distance : K} (hdistance : 0 ≤ distance) {count : ℕ} (hcount : 0 < count) :
    SignType.sign (side * distance) = SignType.sign (side * (count : ℤ)) ↔
      0 < distance := by
  have hcount' : (0 : ℤ) < count := by exact_mod_cast hcount
  rcases hdistance.eq_or_lt with rfl | hpos
  · rcases hside with rfl | rfl
    · simp [sign_pos hcount']
    · simp [sign_pos hcount', Left.sign_neg]
  · rcases hside with rfl | rfl
    · simp [sign_pos hcount', sign_pos hpos, hpos]
    · simp [sign_pos hcount', hpos, Left.sign_neg]

theorem eq_nil_of_sum_eq_zero [IsStrictOrderedRing K] {distances : List K}
    (hpos : ∀ distance ∈ distances, 0 < distance) (hsum : distances.sum = 0) :
    distances = [] := by
  by_contra hne
  have hlt := List.sum_pos distances hpos hne
  exact hlt.ne' hsum

/--
The three readings agree exactly when the lanes on the way start whole metres
apart; the fraction of any interval is lost in the total.
-/
theorem readingsAgree_iff [FloorRing K] [IsStrictOrderedRing K]
    (handler : RouteHandler Lanelet) (lanelet : Lanelet) (direction : Direction)
    (hdistance : ∀ first second, 0 ≤ distance2d first second)
    (hcenterline : ∀ lane ∈ lanelet :: (handler.routingGraph.getAllNeighborsRight lanelet ++
        handler.routingGraph.getAllNeighborsLeft lanelet), centerline lane ≠ []) :
    ReadingsAgree centerline distance2d handler lanelet direction ↔
      CrossesWholeMetres centerline distance2d handler lanelet direction := by
  have hintervals := getLateralIntervalsToPreferredLane_eq centerline distance2d direction
    hcenterline
  have hnum := getNumLaneToPreferredLane_eq handler lanelet direction
  have hsides := lanesToPreferred_side handler lanelet direction
  rw [CrossesWholeMetres, ReadingsAgree, getTotalLateralDistanceToPreferredLane, hintervals, hnum]
  generalize lanesToPreferred handler lanelet direction = path at *
  obtain ⟨side, lanes⟩ := path
  have hlength := length_crossings centerline distance2d lanelet lanes
  have hnonneg := crossings_nonneg centerline distance2d hdistance lanelet lanes
  dsimp only at *
  generalize crossings centerline distance2d lanelet lanes = distances at *
  rcases hsides with hnone | hside
  · cases hnone
    obtain rfl : distances = [] := List.eq_nil_of_length_eq_zero hlength
    simp [TruncatingSum.accumulate]
  · have hexact := TruncatingSum.accumulate_eq_iff hside (le_refl 0)
      (by rw [mul_zero]; decide) hnonneg
    rw [mul_zero, Int.cast_zero, zero_add] at hexact
    rw [List.length_map, List.forall_mem_map, List.sum_map_mul_left, List.map_id', hexact,
      ← hlength]
    have hsign : ∀ distance ∈ distances, (SignType.sign (side * distance) =
          SignType.sign (side * (distances.length : ℤ)) ↔ 0 < distance) :=
      fun distance hmem => sign_interval_eq_iff hside (hnonneg distance hmem)
        (List.length_pos_of_mem hmem)
    constructor
    · rintro ⟨-, hsigns, ⟨hwhole, hrange⟩, -⟩
      refine ⟨fun distance hmem => ?_, hrange⟩
      obtain ⟨metres, hmetres⟩ := hwhole distance hmem
      have hpos := (hsign distance hmem).mp (hsigns distance hmem)
      exact ⟨metres, by rw [hmetres] at hpos; exact_mod_cast hpos, hmetres⟩
    · rintro ⟨hmetres, hrange⟩
      have hpos : ∀ distance ∈ distances, 0 < distance := by
        intro distance hmem
        obtain ⟨metres, hmetre, rfl⟩ := hmetres distance hmem
        exact_mod_cast hmetre
      have hwhole : ∀ distance ∈ distances, ∃ whole : ℕ, distance = whole :=
        fun distance hmem => (hmetres distance hmem).imp fun _ => And.right
      refine ⟨?_, fun distance hmem => (hsign distance hmem).mpr (hpos distance hmem),
        ⟨hwhole, hrange⟩, fun hzero => ?_⟩
      · rcases hside with rfl | rfl <;> simp
      · rw [hexact.mpr ⟨hwhole, hrange⟩, Option.some.injEq] at hzero
        have hsum : distances.sum = 0 := by
          rcases hside with rfl | rfl <;> simpa using hzero
        simp [eq_nil_of_sum_eq_zero hpos hsum]

end

/-- Two lanes of which the right one is preferred. -/
def besidePreferred : RouteHandler ℕ where
  routingGraph :=
    { previous := fun _ => []
      following := fun _ => []
      rightRelations := fun lanelet => if lanelet = 0 then [⟨1, .right⟩] else []
      leftRelations := fun lanelet => if lanelet = 1 then [⟨0, .left⟩] else []
      getAllNeighborsRight := fun lanelet => if lanelet = 0 then [1] else []
      getAllNeighborsLeft := fun lanelet => if lanelet = 1 then [0] else []
      getAllNeighbors := fun _ => [0, 1] }
  routeLanelets := [0, 1]
  preferredLanelets := [1]
  startLanelets := [0, 1]
  goalLanelets := [0, 1]
  shoulderLanelets := []

def abreastDistance (first second : ℚ × ℚ) : ℚ :=
  |first.1 - second.1| + |first.2 - second.2|

theorem readingsAgree_four_metres :
    ReadingsAgree (fun lane : ℕ => [((0 : ℚ), -4 * (lane : ℚ))]) abreastDistance
      besidePreferred 0 .none := by
  refine (readingsAgree_iff _ abreastDistance besidePreferred 0 .none
    (fun _ _ => add_nonneg (abs_nonneg _) (abs_nonneg _)) (by simp)).mpr ⟨?_, ?_⟩
  · intro distance hmem
    refine ⟨4, by decide, ?_⟩
    revert distance
    decide +kernel
  · decide +kernel

/-- Of a lane 3.5 m to the right the total keeps 3 m. -/
theorem not_readingsAgree_half_metre :
    ¬ ReadingsAgree (fun lane : ℕ => [((0 : ℚ), -(7 / 2) * (lane : ℚ))]) abreastDistance
      besidePreferred 0 .none := by
  rintro ⟨-, -, htotal, -⟩
  revert htotal
  decide +kernel

end AutowareUniverse.Planning.RouteHandler
