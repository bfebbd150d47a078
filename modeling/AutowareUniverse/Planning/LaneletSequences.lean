import AutowareUniverse.Planning.RouteHandler

/-!
# Lanelet sequences

Sequences are collected from a lanelet forwards and backwards, on the route or
among the shoulder lanelets, until a distance is covered.  The lengths of the
lanelets and the geometry are given.
-/

namespace AutowareUniverse.Planning.RouteHandler

open Library.GrowingWalks

section

structure LaneletGeometry (K Lanelet Pose : Type) where
  /-- The length of the centerline. -/
  length : Lanelet → K
  follows : Lanelet → Lanelet → Bool
  /-- The length of the arc coordinates of a pose on a lanelet. -/
  arcLength : Lanelet → Pose → K
  /-- The pose at the first point of the centerline, at the origin if there is none. -/
  startPose : Lanelet → Pose

variable {K Lanelet Pose : Type} [Field K] [LinearOrder K] [DecidableEq Lanelet]

def getNextLaneletWithinRoute (handler : RouteHandler Lanelet) (lanelet : Lanelet) :
    Option Lanelet :=
  if lanelet ∈ handler.goalLanelets then none
  else (handler.routingGraph.following lanelet).find? fun llt => llt ∈ handler.routeLanelets

def getPreviousLaneletsWithinRoute (handler : RouteHandler Lanelet) (lanelet : Lanelet) :
    Option (List Lanelet) :=
  if lanelet ∈ handler.startLanelets then none
  else
    let prevLanelets :=
      (handler.routingGraph.previous lanelet).filter fun llt => llt ∈ handler.routeLanelets
    if prevLanelets.isEmpty then none else some prevLanelets

def getFollowingShoulderLanelet (handler : RouteHandler Lanelet)
    (geometry : LaneletGeometry K Lanelet Pose) (lanelet : Lanelet) : Option Lanelet :=
  handler.shoulderLanelets.find? fun shoulderLanelet =>
    geometry.follows lanelet shoulderLanelet

def getPreviousShoulderLanelet (handler : RouteHandler Lanelet)
    (geometry : LaneletGeometry K Lanelet Pose) (lanelet : Lanelet) : Option Lanelet :=
  handler.shoulderLanelets.find? fun shoulderLanelet =>
    geometry.follows shoulderLanelet lanelet

/-! ## The loops -/

structure WalkState (K Lanelet : Type) where
  currentLanelet : Lanelet
  laneletSequence : List Lanelet
  length : K
  deriving DecidableEq

/-- The loop; it has not ended when the given number of rounds is over. -/
def walk (laneletLength : Lanelet → K) (minLength : K)
    (next : WalkState K Lanelet → Option Lanelet) :
    ℕ → WalkState K Lanelet → Option (List Lanelet)
  | 0, _ => none
  | rounds + 1, state =>
    if state.length < minLength then
      match next state with
      | none => some state.laneletSequence
      | some nextLanelet =>
        walk laneletLength minLength next rounds
          ⟨nextLanelet, state.laneletSequence ++ [nextLanelet],
            state.length + laneletLength nextLanelet⟩
    else some state.laneletSequence

/-- The body of the loop forwards, which breaks when it is back at the first lanelet. -/
def nextOnRoute (handler : RouteHandler Lanelet) (lanelet : Lanelet)
    (state : WalkState K Lanelet) : Option Lanelet :=
  match getNextLaneletWithinRoute handler state.currentLanelet with
  | none => none
  | some nextLanelet => if lanelet = nextLanelet then none else some nextLanelet

/-- The body of the loop backwards, which takes the first candidate that is not in the
sequence, and breaks before when there is none. -/
def previousOnRoute (handler : RouteHandler Lanelet) (lanelet : Lanelet)
    (state : WalkState K Lanelet) : Option Lanelet :=
  match getPreviousLaneletsWithinRoute handler state.currentLanelet with
  | none => none
  | some candidateLanelets =>
    let isVisited (prevLlt : Lanelet) : Bool :=
      state.laneletSequence.any fun llt => llt = prevLlt ∨ lanelet = prevLlt
    if candidateLanelets.any (lanelet = ·) then none
    else if candidateLanelets.all isVisited then none
    else candidateLanelets.find? fun prevLanelet => !isVisited prevLanelet

def nextOnShoulder (handler : RouteHandler Lanelet)
    (geometry : LaneletGeometry K Lanelet Pose) (state : WalkState K Lanelet) :
    Option Lanelet :=
  getFollowingShoulderLanelet handler geometry state.currentLanelet

def previousOnShoulder (handler : RouteHandler Lanelet)
    (geometry : LaneletGeometry K Lanelet Pose) (state : WalkState K Lanelet) :
    Option Lanelet :=
  getPreviousShoulderLanelet handler geometry state.currentLanelet

section

variable (rounds : ℕ) (handler : RouteHandler Lanelet) (geometry : LaneletGeometry K Lanelet Pose)
  (lanelet : Lanelet) (minLength : K)

def getLaneletSequenceAfter (onlyRouteLanes : Bool) : Option (List Lanelet) :=
  if onlyRouteLanes ∧ lanelet ∉ handler.routeLanelets then some []
  else
    walk geometry.length minLength (nextOnRoute handler lanelet) rounds ⟨lanelet, [], 0⟩

def getLaneletSequenceUpTo (onlyRouteLanes : Bool) : Option (List Lanelet) :=
  if onlyRouteLanes ∧ lanelet ∉ handler.routeLanelets then some []
  else
    (walk geometry.length minLength (previousOnRoute handler lanelet) rounds
      ⟨lanelet, [], 0⟩).map List.reverse

def getShoulderLaneletSequenceAfter : Option (List Lanelet) :=
  if lanelet ∉ handler.shoulderLanelets then some []
  else
    walk geometry.length minLength (nextOnShoulder handler geometry) rounds ⟨lanelet, [], 0⟩

def getShoulderLaneletSequenceUpTo : Option (List Lanelet) :=
  if lanelet ∉ handler.shoulderLanelets then some []
  else
    (walk geometry.length minLength (previousOnShoulder handler geometry) rounds
      ⟨lanelet, [], 0⟩).map List.reverse

/-- The loop check and the concatenation at the end of the sequence functions. -/
def joinSequences (backward forward : List Lanelet) : List Lanelet :=
  if forward ≠ [] ∧ backward ≠ [] ∧ backward.getLast? = forward.head? then forward
  else backward ++ [lanelet] ++ forward

def getLaneletSequenceAt (currentPose : Pose) (backwardDistance forwardDistance : K)
    (onlyRouteLanes : Bool) : Option (List Lanelet) :=
  if onlyRouteLanes ∧ lanelet ∉ handler.routeLanelets then some []
  else do
    let forward ←
      getLaneletSequenceAfter rounds handler geometry lanelet forwardDistance onlyRouteLanes
    let backward ←
      if geometry.arcLength lanelet currentPose < backwardDistance then
        getLaneletSequenceUpTo rounds handler geometry lanelet backwardDistance onlyRouteLanes
      else some []
    return joinSequences lanelet backward forward

def getLaneletSequence (backwardDistance forwardDistance : K) (onlyRouteLanes : Bool) :
    Option (List Lanelet) :=
  getLaneletSequenceAt rounds handler geometry lanelet (geometry.startPose lanelet)
    backwardDistance forwardDistance onlyRouteLanes

def getShoulderLaneletSequence (pose : Pose) (backwardDistance forwardDistance : K) :
    Option (List Lanelet) :=
  if lanelet ∉ handler.shoulderLanelets then some []
  else do
    let forward ←
      getShoulderLaneletSequenceAfter rounds handler geometry lanelet forwardDistance
    let backward ←
      if geometry.arcLength lanelet pose < backwardDistance then
        getShoulderLaneletSequenceUpTo rounds handler geometry lanelet backwardDistance
      else some []
    return joinSequences lanelet backward forward

end

/-- What a loop appends to a path, as long as the path is not long enough. -/
def within (laneletLength : Lanelet → K) (minLength : K)
    (next : WalkState K Lanelet → Option Lanelet) (lanelet : Lanelet)
    (path : List Lanelet) : Option Lanelet :=
  if (path.map laneletLength).sum < minLength then
    next ⟨path.getLastD lanelet, path, (path.map laneletLength).sum⟩
  else none

omit [DecidableEq Lanelet] in
theorem walk_eq_grow (laneletLength : Lanelet → K) (minLength : K)
    (next : WalkState K Lanelet → Option Lanelet) (lanelet : Lanelet) (rounds : ℕ)
    (path : List Lanelet) :
    walk laneletLength minLength next rounds
        ⟨path.getLastD lanelet, path, (path.map laneletLength).sum⟩ =
      grow (within laneletLength minLength next lanelet) rounds path := by
  induction rounds generalizing path with
  | zero => rfl
  | succ rounds ih =>
    rw [walk, grow, within]
    by_cases hshort : (path.map laneletLength).sum < minLength
    · simp only [if_pos hshort]
      cases next ⟨path.getLastD lanelet, path, (path.map laneletLength).sum⟩ with
      | none => rfl
      | some nextLanelet => simpa using ih (path ++ [nextLanelet])
    · simp only [if_neg hshort]

end

variable {K Lanelet Pose : Type} [Field K] [LinearOrder K] [DecidableEq Lanelet]

def ReturnsChain (R : Lanelet → Lanelet → Prop) (run : ℕ → Option (List Lanelet)) : Prop :=
  ∃ rounds sequence, run rounds = some sequence ∧ sequence.IsChain R ∧ sequence.Nodup

def Connected (handler : RouteHandler Lanelet) (first second : Lanelet) : Prop :=
  second ∈ handler.routingGraph.following first ∨ first ∈ handler.routingGraph.previous second

def Follows (geometry : LaneletGeometry K Lanelet Pose) (first second : Lanelet) : Prop :=
  geometry.follows first second = true

structure SequenceRequest (K Lanelet Pose : Type) where
  lanelet : Lanelet
  currentPose : Pose
  backwardDistance : K
  forwardDistance : K
  onlyRouteLanes : Bool

section

variable (handler : RouteHandler Lanelet) (geometry : LaneletGeometry K Lanelet Pose)
  (request : SequenceRequest K Lanelet Pose)

structure RouteSequencesAreChains : Prop where
  after : ReturnsChain (Connected handler) fun rounds =>
    getLaneletSequenceAfter rounds handler geometry request.lanelet
      request.forwardDistance request.onlyRouteLanes
  upTo : ReturnsChain (Connected handler) fun rounds =>
    getLaneletSequenceUpTo rounds handler geometry request.lanelet
      request.backwardDistance request.onlyRouteLanes
  around : ReturnsChain (Connected handler) fun rounds =>
    getLaneletSequence rounds handler geometry request.lanelet
      request.backwardDistance request.forwardDistance request.onlyRouteLanes
  aroundPose : ReturnsChain (Connected handler) fun rounds =>
    getLaneletSequenceAt rounds handler geometry request.lanelet request.currentPose
      request.backwardDistance request.forwardDistance request.onlyRouteLanes

structure ShoulderSequencesAreChains : Prop where
  after : ReturnsChain (Follows geometry) fun rounds =>
    getShoulderLaneletSequenceAfter rounds handler geometry request.lanelet request.forwardDistance
  upTo : ReturnsChain (Follows geometry) fun rounds =>
    getShoulderLaneletSequenceUpTo rounds handler geometry request.lanelet request.backwardDistance
  around : ReturnsChain (Follows geometry) fun rounds =>
    getShoulderLaneletSequence rounds handler geometry request.lanelet request.currentPose
      request.backwardDistance request.forwardDistance

/-- All seven functions return chains of different lanelets. -/
def SequencesAreChains : Prop :=
  RouteSequencesAreChains handler geometry request ∧
    ShoulderSequencesAreChains handler geometry request

def aheadOnRoute : List Lanelet → Option Lanelet :=
  within geometry.length request.forwardDistance (nextOnRoute handler request.lanelet)
    request.lanelet

def behindOnRoute : List Lanelet → Option Lanelet :=
  within geometry.length request.backwardDistance (previousOnRoute handler request.lanelet)
    request.lanelet

def aheadOnShoulder : List Lanelet → Option Lanelet :=
  within geometry.length request.forwardDistance (nextOnShoulder handler geometry) request.lanelet

def behindOnShoulder : List Lanelet → Option Lanelet :=
  within geometry.length request.backwardDistance (previousOnShoulder handler geometry)
    request.lanelet

/-- A walk that is only made where the pose is not far enough from the start. -/
def ifNeeded (behind : List Lanelet → Option Lanelet) (pose : Pose) :
    List Lanelet → Option Lanelet :=
  if geometry.arcLength request.lanelet pose < request.backwardDistance then behind
  else fun _ => none

end

def Apart (lanelet : Lanelet) (ahead behind : List Lanelet → Option Lanelet) : Prop :=
  (∃ other, ahead [] = some other ∧ behind [] = some other) ∨
    ¬ Meets ahead lanelet ∧ ¬ Meets behind lanelet ∧
      ∀ other, Meets ahead other → ¬ Meets behind other

/-- On the route, the walk ahead closes no loop and stays apart from the walk behind. -/
def NoLoopOnRoute (handler : RouteHandler Lanelet) (geometry : LaneletGeometry K Lanelet Pose)
    (request : SequenceRequest K Lanelet Pose) : Prop :=
  (request.onlyRouteLanes → request.lanelet ∈ handler.routeLanelets) →
    ¬ LeadsBack (aheadOnRoute handler geometry request) ∧
      ∀ pose ∈ [geometry.startPose request.lanelet, request.currentPose],
        Apart request.lanelet (aheadOnRoute handler geometry request)
          (ifNeeded geometry request (behindOnRoute handler geometry request) pose)

def NoLoopOnShoulder (handler : RouteHandler Lanelet)
    (geometry : LaneletGeometry K Lanelet Pose) (request : SequenceRequest K Lanelet Pose) :
    Prop :=
  request.lanelet ∈ handler.shoulderLanelets →
    ¬ LeadsBack (aheadOnShoulder handler geometry request) ∧
      ¬ LeadsBack (behindOnShoulder handler geometry request) ∧
      Apart request.lanelet (aheadOnShoulder handler geometry request)
        (ifNeeded geometry request (behindOnShoulder handler geometry request) request.currentPose)

/-! ## Joining what is behind and what is ahead -/

variable {backward forward : List Lanelet} {R : Lanelet → Lanelet → Prop} {lanelet : Lanelet}

theorem isChain_joinSequences (hforward : (lanelet :: forward).IsChain R)
    (hbackward : (lanelet :: backward).IsChain fun first second => R second first) :
    (joinSequences lanelet backward.reverse forward).IsChain R := by
  rw [joinSequences]
  split
  · exact hforward.tail
  · rw [List.append_assoc, List.singleton_append]
    have hreverse : (lanelet :: backward).reverse.IsChain R := List.isChain_reverse.mpr hbackward
    rw [List.reverse_cons] at hreverse
    obtain ⟨hbehind, -, hjoin⟩ := List.isChain_append.mp hreverse
    refine List.isChain_append.mpr ⟨hbehind, hforward, fun last hlast first hfirst => ?_⟩
    rw [List.head?_cons, Option.mem_some_iff] at hfirst
    exact hfirst ▸ hjoin last hlast lanelet rfl

omit [DecidableEq Lanelet] in
theorem loopCheck_iff :
    (forward ≠ [] ∧ backward.reverse ≠ [] ∧ backward.reverse.getLast? = forward.head?) ↔
      ∃ other, forward.head? = some other ∧ backward.head? = some other := by
  rw [List.getLast?_reverse]
  cases forward with
  | nil => simp
  | cons first rest =>
    cases backward with
    | nil => simp
    | cons other rest' =>
      have hne : (other :: rest').reverse ≠ [] := by simp
      constructor
      · rintro ⟨-, -, heq⟩
        exact ⟨first, rfl, heq⟩
      · rintro ⟨value, hfirst, hother⟩
        exact ⟨List.cons_ne_nil first rest, hne, hother.trans hfirst.symm⟩

theorem nodup_joinSequences_iff (hforward : forward.Nodup) (hbackward : backward.Nodup) :
    (joinSequences lanelet backward.reverse forward).Nodup ↔
      (∃ other, forward.head? = some other ∧ backward.head? = some other) ∨
        lanelet ∉ forward ∧ lanelet ∉ backward ∧ ∀ other ∈ forward, other ∉ backward := by
  rw [joinSequences, if_congr loopCheck_iff rfl rfl]
  split
  · rename_i hdirect
    exact iff_of_true hforward (.inl hdirect)
  · rename_i hdirect
    rw [or_iff_right hdirect, List.append_assoc, List.singleton_append, List.nodup_append,
      List.nodup_reverse, List.nodup_cons]
    constructor
    · rintro ⟨-, ⟨hlanelet, -⟩, hapart⟩
      refine ⟨hlanelet, fun hmem => ?_, fun other hother hmem => ?_⟩
      · exact hapart lanelet (List.mem_reverse.mpr hmem) lanelet (List.mem_cons_self ..) rfl
      · exact hapart other (List.mem_reverse.mpr hmem) other (List.mem_cons_of_mem _ hother) rfl
    · rintro ⟨hlanelet, hbehind, hapart⟩
      refine ⟨hbackward, ⟨hlanelet, hforward⟩, fun first hfirst second hsecond heq => ?_⟩
      subst heq
      rw [List.mem_reverse] at hfirst
      rcases List.mem_cons.mp hsecond with rfl | hsecond
      · exact hbehind hfirst
      · exact hapart first hsecond hfirst

def joined (lanelet : Lanelet) (ahead behind : List Lanelet → Option Lanelet) (rounds : ℕ) :
    Option (List Lanelet) := do
  let forward ← grow ahead rounds []
  let backward ← grow behind rounds []
  return joinSequences lanelet backward.reverse forward

def StepsAlong (R : Lanelet → Lanelet → Prop) (lanelet : Lanelet) (support : List Lanelet)
    (next : List Lanelet → Option Lanelet) : Prop :=
  ∀ path value, next path = some value → R (path.getLastD lanelet) value ∧ value ∈ support

section

variable {R : Lanelet → Lanelet → Prop} {lanelet : Lanelet}
  {ahead behind : List Lanelet → Option Lanelet} {support : List Lanelet}

section
omit [DecidableEq Lanelet]

theorem returnsChain_grow_iff (hsteps : StepsAlong R lanelet support ahead) :
    ReturnsChain R (fun rounds => grow ahead rounds []) ↔ ¬ LeadsBack ahead := by
  rw [← exists_end_nodup_iff fun path value hvalue => (hsteps path value hvalue).2]
  constructor
  · rintro ⟨rounds, sequence, hgrow, -, hnodup⟩
    exact ⟨rounds, sequence, hgrow, hnodup⟩
  · rintro ⟨rounds, sequence, hgrow, hnodup⟩
    have hchain := (grow_spec .start hgrow).1.isChain
      fun path value hvalue => (hsteps path value hvalue).1
    exact ⟨rounds, sequence, hgrow, hchain.tail, hnodup⟩

/-- The walk behind, which is collected with its last lanelet first. -/
theorem returnsChain_reverse_iff
    (hsteps : StepsAlong (fun first second => R second first) lanelet support behind) :
    ReturnsChain R (fun rounds => (grow behind rounds []).map List.reverse) ↔
      ¬ LeadsBack behind := by
  rw [← returnsChain_grow_iff hsteps]
  constructor
  · rintro ⟨rounds, sequence, hrun, hchain, hnodup⟩
    obtain ⟨path, hgrow, rfl⟩ := Option.map_eq_some_iff.mp hrun
    exact ⟨rounds, path, hgrow, List.isChain_reverse.mp hchain, List.nodup_reverse.mp hnodup⟩
  · rintro ⟨rounds, path, hgrow, hchain, hnodup⟩
    exact ⟨rounds, path.reverse, Option.map_eq_some_iff.mpr ⟨path, hgrow, rfl⟩,
      List.isChain_reverse.mpr hchain, List.nodup_reverse.mpr hnodup⟩

end

theorem returnsChain_joined_iff (haheadSteps : StepsAlong R lanelet support ahead)
    (hbehindSteps : StepsAlong (fun first second => R second first) lanelet support behind)
    (hahead : ¬ LeadsBack ahead) (hbehind : ¬ LeadsBack behind) :
    ReturnsChain R (joined lanelet ahead behind) ↔ Apart lanelet ahead behind := by
  obtain ⟨aheadRounds, forward, hforward, hforwardNodup⟩ :=
    (exists_end_nodup_iff fun path value hvalue => (haheadSteps path value hvalue).2).mpr hahead
  obtain ⟨behindRounds, backward, hbackward, hbackwardNodup⟩ :=
    (exists_end_nodup_iff fun path value hvalue =>
      (hbehindSteps path value hvalue).2).mpr hbehind
  obtain ⟨hforwardGrows, hforwardEnd⟩ := grow_spec .start hforward
  obtain ⟨hbackwardGrows, hbackwardEnd⟩ := grow_spec .start hbackward
  have hnodup : (joinSequences lanelet backward.reverse forward).Nodup ↔
      Apart lanelet ahead behind := by
    simp only [nodup_joinSequences_iff hforwardNodup hbackwardNodup, Apart,
      head?_eq hforwardGrows hforwardEnd, head?_eq hbackwardGrows hbackwardEnd,
      meets_iff_mem hforwardGrows hforwardEnd, meets_iff_mem hbackwardGrows hbackwardEnd]
  rw [← hnodup]
  constructor
  · rintro ⟨rounds, sequence, hrun, -, hsequence⟩
    rw [joined, Option.bind_eq_bind, Option.bind_eq_some_iff] at hrun
    obtain ⟨forward', hforward', hrun⟩ := hrun
    obtain ⟨backward', hbackward', hrun⟩ := Option.bind_eq_some_iff.mp hrun
    cases hrun
    obtain ⟨hgrows, hend⟩ := grow_spec .start hforward'
    obtain ⟨hgrows', hend'⟩ := grow_spec .start hbackward'
    rwa [eq_of_ends hforwardGrows hforwardEnd hgrows hend,
      eq_of_ends hbackwardGrows hbackwardEnd hgrows' hend']
  · intro hsequence
    have hforwardChain := hforwardGrows.isChain
      fun path value hvalue => (haheadSteps path value hvalue).1
    have hbackwardChain : (lanelet :: backward).IsChain fun first second => R second first :=
      hbackwardGrows.isChain fun path value hvalue => (hbehindSteps path value hvalue).1
    refine ⟨max aheadRounds behindRounds, _, ?_,
      isChain_joinSequences hforwardChain hbackwardChain, hsequence⟩
    rw [joined, grow_mono (le_max_left ..) hforward, grow_mono (le_max_right ..) hbackward]
    rfl

end

/-! ## The loops as walks -/

section

variable {handler : RouteHandler Lanelet} {geometry : LaneletGeometry K Lanelet Pose}
  {request : SequenceRequest K Lanelet Pose}

omit [DecidableEq Lanelet] in
theorem within_eq_some {laneletLength : Lanelet → K} {minLength : K}
    {next : WalkState K Lanelet → Option Lanelet} {lanelet value : Lanelet} {path : List Lanelet}
    (hnext : within laneletLength minLength next lanelet path = some value) :
    next ⟨path.getLastD lanelet, path, (path.map laneletLength).sum⟩ = some value := by
  rw [within] at hnext
  split at hnext
  · exact hnext
  · cases hnext

theorem getNextLaneletWithinRoute_eq_some {lanelet next : Lanelet}
    (hnext : getNextLaneletWithinRoute handler lanelet = some next) :
    next ∈ handler.routingGraph.following lanelet ∧ next ∈ handler.routeLanelets := by
  rw [getNextLaneletWithinRoute] at hnext
  split at hnext
  · cases hnext
  · exact ⟨List.mem_of_find?_eq_some hnext, by simpa using List.find?_some hnext⟩

variable {state : WalkState K Lanelet}

omit [Field K] [LinearOrder K] in
theorem nextOnRoute_eq_some {lanelet next : Lanelet}
    (hnext : nextOnRoute handler lanelet state = some next) :
    next ∈ handler.routingGraph.following state.currentLanelet ∧
      next ∈ handler.routeLanelets ∧ next ≠ lanelet := by
  rw [nextOnRoute] at hnext
  split at hnext
  · cases hnext
  · rename_i value hvalue
    split at hnext
    · cases hnext
    · rename_i hne
      cases hnext
      obtain ⟨hfollowing, hroute⟩ := getNextLaneletWithinRoute_eq_some hvalue
      exact ⟨hfollowing, hroute, Ne.symm hne⟩

theorem getPreviousLaneletsWithinRoute_eq_some {prevLanelets : List Lanelet}
    (hprevious : getPreviousLaneletsWithinRoute handler lanelet = some prevLanelets) :
    ∀ previous ∈ prevLanelets, previous ∈ handler.routingGraph.previous lanelet ∧
        previous ∈ handler.routeLanelets := by
  rw [getPreviousLaneletsWithinRoute] at hprevious
  split at hprevious
  · cases hprevious
  · dsimp only at hprevious
    split at hprevious
    · cases hprevious
    · cases hprevious
      intro previous hmem
      simpa using hmem

omit [Field K] [LinearOrder K] in
/-- The lanelet taken behind is new. -/
theorem previousOnRoute_eq_some {lanelet previous : Lanelet}
    (hprevious : previousOnRoute handler lanelet state = some previous) :
    previous ∈ handler.routingGraph.previous state.currentLanelet ∧
      previous ∈ handler.routeLanelets ∧ previous ≠ lanelet ∧
      previous ∉ state.laneletSequence := by
  rw [previousOnRoute] at hprevious
  split at hprevious
  · cases hprevious
  · rename_i candidates hcandidates
    dsimp only at hprevious
    split_ifs at hprevious with hlanelet hall
    have hmem := List.mem_of_find?_eq_some hprevious
    obtain ⟨hgraph, hroute⟩ := getPreviousLaneletsWithinRoute_eq_some hcandidates previous hmem
    have hne : lanelet ≠ previous := by
      rintro rfl
      exact hlanelet (List.any_eq_true.mpr ⟨lanelet, hmem, by simp⟩)
    have hnew := List.find?_some hprevious
    refine ⟨hgraph, hroute, hne.symm, fun hvisited => ?_⟩
    rw [Bool.not_eq_true', List.any_eq_false] at hnew
    exact hnew previous hvisited (by simp)

section
omit [DecidableEq Lanelet] [Field K] [LinearOrder K]

theorem nextOnShoulder_eq_some {next : Lanelet}
    (hnext : nextOnShoulder handler geometry state = some next) :
    Follows geometry state.currentLanelet next ∧ next ∈ handler.shoulderLanelets := by
  rw [nextOnShoulder, getFollowingShoulderLanelet] at hnext
  exact ⟨List.find?_some hnext, List.mem_of_find?_eq_some hnext⟩

theorem previousOnShoulder_eq_some {previous : Lanelet}
    (hprevious : previousOnShoulder handler geometry state = some previous) :
    Follows geometry previous state.currentLanelet ∧ previous ∈ handler.shoulderLanelets := by
  rw [previousOnShoulder, getPreviousShoulderLanelet] at hprevious
  have hfollows := List.find?_some hprevious
  exact ⟨hfollows, List.mem_of_find?_eq_some hprevious⟩

end

theorem stepsAlong_aheadOnRoute :
    StepsAlong (Connected handler) request.lanelet handler.routeLanelets
      (aheadOnRoute handler geometry request) := by
  intro path value hvalue
  obtain ⟨hgraph, hroute, -⟩ := nextOnRoute_eq_some (within_eq_some hvalue)
  exact ⟨.inl hgraph, hroute⟩

theorem stepsAlong_behindOnRoute :
    StepsAlong (fun first second => Connected handler second first) request.lanelet
      handler.routeLanelets (behindOnRoute handler geometry request) := by
  intro path value hvalue
  obtain ⟨hgraph, hroute, -⟩ := previousOnRoute_eq_some (within_eq_some hvalue)
  exact ⟨.inr hgraph, hroute⟩

section
omit [DecidableEq Lanelet]

theorem stepsAlong_aheadOnShoulder :
    StepsAlong (Follows geometry) request.lanelet handler.shoulderLanelets
      (aheadOnShoulder handler geometry request) :=
  fun _ _ hvalue => nextOnShoulder_eq_some (within_eq_some hvalue)

theorem stepsAlong_behindOnShoulder :
    StepsAlong (fun first second => Follows geometry second first) request.lanelet
      handler.shoulderLanelets (behindOnShoulder handler geometry request) :=
  fun _ _ hvalue => previousOnShoulder_eq_some (within_eq_some hvalue)

end

theorem not_leadsBack_behindOnRoute : ¬ LeadsBack (behindOnRoute handler geometry request) := by
  rintro ⟨path, previous, -, hprevious, hmem⟩
  exact (previousOnRoute_eq_some (within_eq_some hprevious)).2.2.2 hmem

section
omit [Field K] [DecidableEq Lanelet]

theorem not_leadsBack_ifNeeded {behind : List Lanelet → Option Lanelet}
    (hbehind : ¬ LeadsBack behind) (pose : Pose) :
    ¬ LeadsBack (ifNeeded geometry request behind pose) := by
  rw [ifNeeded]
  split
  · exact hbehind
  · rintro ⟨path, value, -, hnone, -⟩
    cases hnone

theorem stepsAlong_ifNeeded {support : List Lanelet} {behind : List Lanelet → Option Lanelet}
    (hsteps : StepsAlong R request.lanelet support behind) (pose : Pose) :
    StepsAlong R request.lanelet support (ifNeeded geometry request behind pose) := by
  rw [ifNeeded]
  split
  · exact hsteps
  · intro path value hnone
    cases hnone

theorem grow_ifNeeded (behind : List Lanelet → Option Lanelet) (pose : Pose) (rounds : ℕ) :
    grow (ifNeeded geometry request behind pose) (rounds + 1) [] =
      if geometry.arcLength request.lanelet pose < request.backwardDistance then
        grow behind (rounds + 1) []
      else some [] := by
  rw [ifNeeded]
  split
  · rfl
  · rfl

end

omit [DecidableEq Lanelet] in
theorem walk_eq_grow_nil (laneletLength : Lanelet → K) (minLength : K)
    (next : WalkState K Lanelet → Option Lanelet) (lanelet : Lanelet) (rounds : ℕ) :
    walk laneletLength minLength next rounds ⟨lanelet, [], 0⟩ =
      grow (within laneletLength minLength next lanelet) rounds [] :=
  walk_eq_grow laneletLength minLength next lanelet rounds []

section

variable (hroute : request.onlyRouteLanes → request.lanelet ∈ handler.routeLanelets)
include hroute

theorem getLaneletSequenceAfter_eq (rounds : ℕ) :
    getLaneletSequenceAfter rounds handler geometry request.lanelet
        request.forwardDistance request.onlyRouteLanes =
      grow (aheadOnRoute handler geometry request) rounds [] := by
  rw [getLaneletSequenceAfter, if_neg (by simpa using hroute), walk_eq_grow_nil]
  rfl

theorem getLaneletSequenceUpTo_eq (rounds : ℕ) :
    getLaneletSequenceUpTo rounds handler geometry request.lanelet
        request.backwardDistance request.onlyRouteLanes =
      (grow (behindOnRoute handler geometry request) rounds []).map List.reverse := by
  rw [getLaneletSequenceUpTo, if_neg (by simpa using hroute), walk_eq_grow_nil]
  rfl

theorem getLaneletSequenceAt_eq (pose : Pose) (rounds : ℕ) :
    getLaneletSequenceAt rounds handler geometry request.lanelet pose
        request.backwardDistance request.forwardDistance request.onlyRouteLanes =
      joined request.lanelet (aheadOnRoute handler geometry request)
        (ifNeeded geometry request (behindOnRoute handler geometry request) pose) rounds := by
  rw [getLaneletSequenceAt, if_neg (by simpa using hroute),
    getLaneletSequenceAfter_eq hroute, getLaneletSequenceUpTo_eq hroute, joined]
  cases rounds with
  | zero => rfl
  | succ rounds =>
    rw [grow_ifNeeded]
    congr 1
    funext forward
    split
    · cases grow (behindOnRoute handler geometry request) (rounds + 1) [] with
      | none => rfl
      | some backward => rfl
    · rfl

end

section

variable (hshoulder : request.lanelet ∈ handler.shoulderLanelets)
include hshoulder

theorem getShoulderLaneletSequenceAfter_eq (rounds : ℕ) :
    getShoulderLaneletSequenceAfter rounds handler geometry request.lanelet
        request.forwardDistance =
      grow (aheadOnShoulder handler geometry request) rounds [] := by
  rw [getShoulderLaneletSequenceAfter, if_neg (not_not_intro hshoulder), walk_eq_grow_nil]
  rfl

theorem getShoulderLaneletSequenceUpTo_eq (rounds : ℕ) :
    getShoulderLaneletSequenceUpTo rounds handler geometry request.lanelet
        request.backwardDistance =
      (grow (behindOnShoulder handler geometry request) rounds []).map List.reverse := by
  rw [getShoulderLaneletSequenceUpTo, if_neg (not_not_intro hshoulder), walk_eq_grow_nil]
  rfl

theorem getShoulderLaneletSequence_eq (pose : Pose) (rounds : ℕ) :
    getShoulderLaneletSequence rounds handler geometry request.lanelet pose
        request.backwardDistance request.forwardDistance =
      joined request.lanelet (aheadOnShoulder handler geometry request)
        (ifNeeded geometry request (behindOnShoulder handler geometry request) pose)
        rounds := by
  rw [getShoulderLaneletSequence, if_neg (not_not_intro hshoulder),
    getShoulderLaneletSequenceAfter_eq hshoulder,
    getShoulderLaneletSequenceUpTo_eq hshoulder, joined]
  cases rounds with
  | zero => rfl
  | succ rounds =>
    rw [grow_ifNeeded]
    congr 1
    funext forward
    split
    · cases grow (behindOnShoulder handler geometry request) (rounds + 1) [] with
      | none => rfl
      | some backward => rfl
    · rfl

end

/-! ## When the functions return chains -/

omit [DecidableEq Lanelet] in
theorem returnsChain_nil {run : ℕ → Option (List Lanelet)}
    (hrun : run 0 = some []) : ReturnsChain R run :=
  ⟨0, [], hrun, .nil, List.nodup_nil⟩

theorem sequencesOnRoute_iff
    (hroute : request.onlyRouteLanes → request.lanelet ∈ handler.routeLanelets)
    (hahead : ¬ LeadsBack (aheadOnRoute handler geometry request)) (pose : Pose) :
    (ReturnsChain (Connected handler) fun rounds =>
      getLaneletSequenceAt rounds handler geometry request.lanelet pose
        request.backwardDistance request.forwardDistance request.onlyRouteLanes) ↔
      Apart request.lanelet (aheadOnRoute handler geometry request)
        (ifNeeded geometry request (behindOnRoute handler geometry request) pose) := by
  simp only [getLaneletSequenceAt_eq hroute]
  exact returnsChain_joined_iff stepsAlong_aheadOnRoute
    (stepsAlong_ifNeeded stepsAlong_behindOnRoute pose) hahead
    (not_leadsBack_ifNeeded not_leadsBack_behindOnRoute pose)

theorem sequencesOnShoulder_iff (hshoulder : request.lanelet ∈ handler.shoulderLanelets)
    (hahead : ¬ LeadsBack (aheadOnShoulder handler geometry request))
    (hbehind : ¬ LeadsBack (behindOnShoulder handler geometry request)) (pose : Pose) :
    (ReturnsChain (Follows geometry) fun rounds =>
      getShoulderLaneletSequence rounds handler geometry request.lanelet pose
        request.backwardDistance request.forwardDistance) ↔
      Apart request.lanelet (aheadOnShoulder handler geometry request)
        (ifNeeded geometry request (behindOnShoulder handler geometry request) pose) := by
  simp only [getShoulderLaneletSequence_eq hshoulder]
  exact returnsChain_joined_iff stepsAlong_aheadOnShoulder
    (stepsAlong_ifNeeded stepsAlong_behindOnShoulder pose) hahead
    (not_leadsBack_ifNeeded hbehind pose)

theorem returnsChain_after_iff
    (hroute : request.onlyRouteLanes → request.lanelet ∈ handler.routeLanelets) :
    (ReturnsChain (Connected handler) fun rounds =>
      getLaneletSequenceAfter rounds handler geometry request.lanelet
        request.forwardDistance request.onlyRouteLanes) ↔
      ¬ LeadsBack (aheadOnRoute handler geometry request) := by
  simp only [getLaneletSequenceAfter_eq hroute]
  exact returnsChain_grow_iff stepsAlong_aheadOnRoute

theorem returnsChain_upTo
    (hroute : request.onlyRouteLanes → request.lanelet ∈ handler.routeLanelets) :
    ReturnsChain (Connected handler) fun rounds =>
      getLaneletSequenceUpTo rounds handler geometry request.lanelet
        request.backwardDistance request.onlyRouteLanes := by
  simp only [getLaneletSequenceUpTo_eq hroute]
  exact (returnsChain_reverse_iff stepsAlong_behindOnRoute).mpr not_leadsBack_behindOnRoute

theorem routeSequencesAreChains_iff : RouteSequencesAreChains handler geometry request ↔
      NoLoopOnRoute handler geometry request := by
  by_cases hroute : request.onlyRouteLanes → request.lanelet ∈ handler.routeLanelets
  · constructor
    · intro hchains _
      have hahead := (returnsChain_after_iff hroute).mp hchains.after
      refine ⟨hahead, fun pose hpose => (sequencesOnRoute_iff hroute hahead pose).mp ?_⟩
      rw [List.mem_cons, List.mem_singleton] at hpose
      rcases hpose with rfl | rfl
      · exact hchains.around
      · exact hchains.aroundPose
    · intro hloop
      obtain ⟨hahead, hapart⟩ := hloop hroute
      have haround : ∀ pose ∈ [geometry.startPose request.lanelet, request.currentPose],
          ReturnsChain (Connected handler) fun rounds =>
            getLaneletSequenceAt rounds handler geometry request.lanelet pose
              request.backwardDistance request.forwardDistance request.onlyRouteLanes :=
        fun pose hpose => (sequencesOnRoute_iff hroute hahead pose).mpr (hapart pose hpose)
      exact ⟨(returnsChain_after_iff hroute).mpr hahead, returnsChain_upTo hroute,
        haround _ (by simp), haround _ (by simp)⟩
  · have hoff : request.onlyRouteLanes ∧ request.lanelet ∉ handler.routeLanelets := by
      simpa using hroute
    refine iff_of_true ⟨?_, ?_, ?_, ?_⟩ fun hon => absurd hon hroute
    · exact returnsChain_nil (by rw [getLaneletSequenceAfter, if_pos hoff])
    · exact returnsChain_nil (by rw [getLaneletSequenceUpTo, if_pos hoff])
    · exact returnsChain_nil (by rw [getLaneletSequence, getLaneletSequenceAt, if_pos hoff])
    · exact returnsChain_nil (by rw [getLaneletSequenceAt, if_pos hoff])

theorem returnsChain_shoulderAfter_iff (hshoulder : request.lanelet ∈ handler.shoulderLanelets) :
    (ReturnsChain (Follows geometry) fun rounds =>
      getShoulderLaneletSequenceAfter rounds handler geometry request.lanelet
        request.forwardDistance) ↔
      ¬ LeadsBack (aheadOnShoulder handler geometry request) := by
  simp only [getShoulderLaneletSequenceAfter_eq hshoulder]
  exact returnsChain_grow_iff stepsAlong_aheadOnShoulder

theorem returnsChain_shoulderUpTo_iff (hshoulder : request.lanelet ∈ handler.shoulderLanelets) :
    (ReturnsChain (Follows geometry) fun rounds =>
      getShoulderLaneletSequenceUpTo rounds handler geometry request.lanelet
        request.backwardDistance) ↔
      ¬ LeadsBack (behindOnShoulder handler geometry request) := by
  simp only [getShoulderLaneletSequenceUpTo_eq hshoulder]
  exact returnsChain_reverse_iff stepsAlong_behindOnShoulder

theorem shoulderSequencesAreChains_iff : ShoulderSequencesAreChains handler geometry request ↔
      NoLoopOnShoulder handler geometry request := by
  by_cases hshoulder : request.lanelet ∈ handler.shoulderLanelets
  · constructor
    · intro hchains _
      have hahead := (returnsChain_shoulderAfter_iff hshoulder).mp hchains.after
      have hbehind := (returnsChain_shoulderUpTo_iff hshoulder).mp hchains.upTo
      exact ⟨hahead, hbehind,
        (sequencesOnShoulder_iff hshoulder hahead hbehind _).mp hchains.around⟩
    · intro hloop
      obtain ⟨hahead, hbehind, hapart⟩ := hloop hshoulder
      exact ⟨(returnsChain_shoulderAfter_iff hshoulder).mpr hahead,
        (returnsChain_shoulderUpTo_iff hshoulder).mpr hbehind,
        (sequencesOnShoulder_iff hshoulder hahead hbehind _).mpr hapart⟩
  · refine iff_of_true ⟨?_, ?_, ?_⟩ fun hon => absurd hon hshoulder
    · exact returnsChain_nil (by rw [getShoulderLaneletSequenceAfter, if_pos hshoulder])
    · exact returnsChain_nil (by rw [getShoulderLaneletSequenceUpTo, if_pos hshoulder])
    · exact returnsChain_nil (by rw [getShoulderLaneletSequence, if_pos hshoulder])

/--
The sequences are chains of different lanelets exactly when no loop of the
graph, and no lanelet that lies both ahead and behind, is within the distances.
-/
theorem sequencesAreChains_iff (handler : RouteHandler Lanelet)
    (geometry : LaneletGeometry K Lanelet Pose) (request : SequenceRequest K Lanelet Pose) :
    SequencesAreChains handler geometry request ↔
      NoLoopOnRoute handler geometry request ∧ NoLoopOnShoulder handler geometry request :=
  and_congr routeSequencesAreChains_iff shoulderSequencesAreChains_iff

end

/-- A route that enters a roundabout at 1 and leaves it from 3, one exit before the entry. -/
def roundabout : RouteHandler ℕ :=
  setRoute (fun _ => true)
    { routingGraph :=
        { previous := fun lanelet => [[], [3, 0], [1], [2], [3]].getD lanelet []
          following := fun lanelet => [[1], [2], [3], [1, 4], []].getD lanelet []
          rightRelations := fun _ => []
          leftRelations := fun _ => []
          getAllNeighborsRight := fun _ => []
          getAllNeighborsLeft := fun _ => []
          getAllNeighbors := fun lanelet => [lanelet] }
      routeLanelets := []
      preferredLanelets := []
      startLanelets := []
      goalLanelets := []
      shoulderLanelets := [] }
    [⟨[0], 0⟩, ⟨[1], 1⟩, ⟨[2], 2⟩, ⟨[3], 3⟩, ⟨[4], 4⟩]

/-- From the start the walk ahead goes round, and 1 is in the sequence twice. -/
theorem not_sequencesAreChains_roundabout : ¬ SequencesAreChains roundabout
      ⟨fun _ => (1 : ℚ), fun _ _ => false, fun _ _ => 0, fun _ => ()⟩
      ⟨0, (), 4, 4, true⟩ := by
  rintro ⟨⟨⟨rounds, sequence, hrun, -, hnodup⟩, -, -, -⟩, -⟩
  dsimp only at hrun
  rw [getLaneletSequenceAfter, if_neg (by decide), walk_eq_grow_nil] at hrun
  have hround : grow (within (fun _ => (1 : ℚ)) 4 (nextOnRoute roundabout 0) 0) 5 [] =
      some [1, 2, 3, 1] := by
    decide +kernel
  obtain ⟨hgrows, hend⟩ := grow_spec .start hrun
  obtain ⟨hgrows', hend'⟩ := grow_spec .start hround
  rw [eq_of_ends hgrows hend hgrows' hend'] at hnodup
  revert hnodup
  decide

end AutowareUniverse.Planning.RouteHandler
