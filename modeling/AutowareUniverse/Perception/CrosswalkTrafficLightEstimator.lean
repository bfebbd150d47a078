import AutowareUniverse.Library.Runs
import AutowareUniverse.Library.KeyedList
import AutowareUniverse.Library.Numerals
import Mathlib.Algebra.GroupWithZero.Nat
import Mathlib.Order.Lattice

/-!
# The crosswalk traffic light estimator

The node colours the signals of the crosswalks on the route from the signals of the
vehicle lanelets that conflict with them.  The vector map (its lanelets, which of them
conflict, which follow) is a parameter.
-/

namespace AutowareUniverse.Perception.CrosswalkTrafficLight

/-- The colours of `TrafficLight`. -/
inductive Color where
  | red
  | amber
  | green
  | white
  | unknown
  deriving DecidableEq

structure TrafficLight (K : Type) where
  color : Color
  confidence : K
  deriving DecidableEq

structure TrafficSignal (K : Type) where
  mapPrimitiveId : Int
  lights : List (TrafficLight K)
  deriving DecidableEq

/-- `TrafficSignalArray`, without its header. -/
structure TrafficSignalArray (K : Type) where
  signals : List (TrafficSignal K)
  deriving DecidableEq

/-- `TrafficLightIdMap`. -/
abbrev TrafficLightIdMap (K : Type) := Std.TreeMap Int (TrafficSignal K)

/-! ## The vector map -/

/-- `lanelet::ConstLineStringOrPolygon3d`. -/
structure LineStringOrPolygon where
  id : Int
  isLineString : Bool
  deriving DecidableEq

/-- `lanelet::TrafficLight`: a regulatory element. -/
structure TrafficLightElement where
  id : Int
  trafficLights : List LineStringOrPolygon
  deriving DecidableEq

structure Lanelet where
  id : Int
  turnDirection : Option String
  relatedTrafficLight : Option String
  trafficLightElements : List TrafficLightElement
  deriving DecidableEq

/-- The lanelets, the two conflict graphs and the routing graph. -/
structure LaneletMap where
  laneletLayer : Int → Option Lanelet
  conflictingPedestrian : Lanelet → List Lanelet
  conflictingVehicle : Lanelet → List Lanelet
  following : Lanelet → List Lanelet

/-- The conversion of a `lanelet::Id` to `int`. -/
def toInt (id : Int) : Int := id.bmod (2 ^ 32)

/-- `std::atoi`. -/
def atoi (text : String) : Int :=
  let digits (chars : List Char) : Int :=
    (chars.takeWhile Char.isDigit).foldl (fun value digit => 10 * value + (digit.toNat - 48)) 0
  match text.toList.dropWhile Char.isWhitespace with
  | '-' :: rest => -digits rest
  | '+' :: rest => digits rest
  | rest => digits rest

section

variable (map : LaneletMap)

/-- `hasMergeLane` of two lanelets. -/
def hasMergeLanePair (lanelet1 lanelet2 : Lanelet) : Bool :=
  (map.following lanelet1).any fun next1 =>
    (map.following lanelet2).any fun next2 => next1.id == next2.id

/-- `hasMergeLane` of all pairs. -/
def hasMergeLane : List Lanelet → Bool
  | [] => false
  | lanelet1 :: rest =>
    rest.any (fun lanelet2 =>
      lanelet1.id != lanelet2.id &&
        lanelet1.turnDirection.getD "none" != lanelet2.turnDirection.getD "none" &&
        hasMergeLanePair map lanelet1 lanelet2) || hasMergeLane rest

end

section

variable {K : Type} [Zero K] [LinearOrder K]

/-- One iteration of `getHighestConfidenceTrafficSignal`, on `ret` and
`highest_confidence`. -/
def considerLight (signalOf : Int → Option (TrafficSignal K)) (best : Option Color × K)
    (trafficLight : LineStringOrPolygon) : Option Color × K :=
  if trafficLight.isLineString then
    match signalOf (toInt trafficLight.id) with
    | none => best
    | some signal =>
      match signal.lights.head? with
      | none => best
      | some light =>
        if light.confidence < best.2 then best else (some light.color, light.confidence)
  else best

/-- `getHighestConfidenceTrafficSignal`, given the lookup in a map. -/
def getHighestConfidenceTrafficSignal (trafficLights : List LineStringOrPolygon)
    (signalOf : Int → Option (TrafficSignal K)) : Option Color :=
  (trafficLights.foldl (considerLight signalOf) (none, 0)).1

end

/-! ## The node -/

structure EstimatorNode (K : Type) where
  useLastDetectColor : Bool
  map : Option LaneletMap
  conflictingCrosswalks : List Lanelet
  lastDetectColor : TrafficLightIdMap K

def EstimatorNode.start (K : Type) (useLastDetectColor : Bool) : EstimatorNode K :=
  ⟨useLastDetectColor, none, [], ∅⟩

namespace EstimatorNode

variable {K : Type}

/-- `onMap`. -/
def onMap (map : LaneletMap) (node : EstimatorNode K) : EstimatorNode K :=
  { node with map := some map }

/-- `onRoute`, with the ids of all primitives of all segments. -/
def onRoute (primitives : List Int) (node : EstimatorNode K) : EstimatorNode K :=
  match node.map with
  | none => node
  | some map =>
    match primitives.mapM map.laneletLayer with
    | none => node
    | some routeLanelets =>
      { node with conflictingCrosswalks := routeLanelets.flatMap map.conflictingPedestrian }

/-- `conflictingInGraph(crosswalk, VEHICLE_GRAPH_ID)`. -/
def conflictLanelets (node : EstimatorNode K) (crosswalk : Lanelet) : List Lanelet :=
  match node.map with
  | none => []
  | some map => map.conflictingVehicle crosswalk

/-- `traffic_light_id_map`: of two signals with one id the later one stays. -/
def trafficLightIdMap (msg : TrafficSignalArray K) : TrafficLightIdMap K :=
  msg.signals.foldl (fun map signal => map.insert signal.mapPrimitiveId signal) ∅

/-- One iteration of the first loop of `updateLastDetectedSignal`. -/
def rememberSignal (memory : TrafficLightIdMap K) (input : Int × TrafficSignal K) :
    TrafficLightIdMap K :=
  match input.2.lights.head? with
  | none => memory
  | some light =>
    if light.color = .unknown then memory
    else memory.insert input.2.mapPrimitiveId input.2

/-- `erase_id_list`. -/
def eraseIdList (idMap memory : TrafficLightIdMap K) : List Int :=
  (memory.toList.map fun lastTrafficSignal => lastTrafficSignal.2.mapPrimitiveId).filter
    fun id => !idMap.contains id

/-- `updateLastDetectedSignal`, on the memory. -/
def updateLastDetectedSignal (idMap memory : TrafficLightIdMap K) : TrafficLightIdMap K :=
  let updated := idMap.toList.foldl rememberSignal memory
  (eraseIdList idMap updated).foldl (fun map id => map.erase id) updated

section

variable [Zero K] [LinearOrder K] (node : EstimatorNode K)

/-- The test that `getNonRedLanelets` makes on one lanelet. -/
def isNonRed (idMap : TrafficLightIdMap K) (lanelet : Lanelet) : Bool :=
  match lanelet.trafficLightElements.head? with
  | none => false
  | some element =>
    match getHighestConfidenceTrafficSignal element.trafficLights fun id => idMap[id]? with
    | none => false
    | some current =>
      let isNotRed := decide (current = .green) || decide (current = .amber)
      match getHighestConfidenceTrafficSignal element.trafficLights
          fun id => node.lastDetectColor[id]? with
      | none => false
      | some last =>
        let wasNotRed := decide (current = .unknown) &&
          (decide (last = .green) || decide (last = .amber)) && node.useLastDetectColor
        isNotRed || wasNotRed

/-- `getNonRedLanelets`. -/
def getNonRedLanelets (lanelets : List Lanelet) (idMap : TrafficLightIdMap K) : List Lanelet :=
  lanelets.filter (node.isNonRed idMap)

omit [Zero K] [LinearOrder K] in
/-- `estimateCrosswalkTrafficSignal`. -/
def estimateCrosswalkTrafficSignal (crosswalk : Lanelet) (nonRedLanelets : List Lanelet) : Color :=
  let hasLeftNonRedLane :=
    nonRedLanelets.any fun lanelet => lanelet.turnDirection.getD "none" == "left"
  let hasRightNonRedLane :=
    nonRedLanelets.any fun lanelet => lanelet.turnDirection.getD "none" == "right"
  let hasStraightNonRedLane :=
    nonRedLanelets.any fun lanelet =>
      lanelet.turnDirection.getD "none" != "left" && lanelet.turnDirection.getD "none" != "right"
  let hasRelatedNonRedTl :=
    nonRedLanelets.any fun lanelet =>
      lanelet.trafficLightElements.head?.any fun element =>
        element.id == atoi (crosswalk.relatedTrafficLight.getD "none")
  if hasStraightNonRedLane || hasRelatedNonRedTl then .red
  else
    let hasMerge := node.map.any fun map => hasMergeLane map nonRedLanelets
    if !hasMerge && hasLeftNonRedLane && hasRightNonRedLane then .red else .unknown

/-- `crosswalk_tl_color`. -/
def crosswalkTlColor (idMap : TrafficLightIdMap K) (crosswalk : Lanelet) : Color :=
  node.estimateCrosswalkTrafficSignal crosswalk
    (node.getNonRedLanelets (node.conflictLanelets crosswalk) idMap)

end

/-- The signals that `setCrosswalkTrafficSignal` appends. -/
def crosswalkSignals [One K] (crosswalk : Lanelet) (color : Color) : List (TrafficSignal K) :=
  crosswalk.trafficLightElements.flatMap fun element =>
    element.trafficLights.map fun trafficLight =>
      ⟨toInt trafficLight.id, [⟨color, 1⟩]⟩

/-- `setCrosswalkTrafficSignal`. -/
def setCrosswalkTrafficSignal [One K] (crosswalk : Lanelet) (color : Color)
    (msg : TrafficSignalArray K) : TrafficSignalArray K :=
  ⟨msg.signals ++ crosswalkSignals crosswalk color⟩

/-- `onTrafficLightArray`: the node and the message that is published. -/
def onTrafficLightArray [Zero K] [One K] [LinearOrder K] (msg : TrafficSignalArray K)
    (node : EstimatorNode K) : EstimatorNode K × TrafficSignalArray K :=
  let idMap := trafficLightIdMap msg
  let output := node.conflictingCrosswalks.foldl (fun output crosswalk =>
    setCrosswalkTrafficSignal crosswalk (node.crosswalkTlColor idMap crosswalk) output) msg
  ({ node with lastDetectColor := updateLastDetectedSignal idMap node.lastDetectColor }, output)

end EstimatorNode

/-!
# The remembered colours of the vehicle lights

The memory of the node is the last known signal of each light, in the messages before the
one that is decided about: unless the light has been missing since, the last signal with a
colour other than `UNKNOWN`.
-/

open Library.KeyedList Library.Runs Library.TreeMapLoops

variable {K : Type}

def shown (msg : TrafficSignalArray K) (id : Int) : Option (TrafficSignal K) :=
  findLastKey TrafficSignal.mapPrimitiveId id msg.signals

/-- The signal has a colour, and the colour is not `UNKNOWN`. -/
def known (signal : TrafficSignal K) : Bool :=
  signal.lights.head?.any fun light => light.color != .unknown

/-- The light is shown, but without a known colour. -/
def shownUnknown (id : Int) (msg : TrafficSignalArray K) : Bool :=
  (shown msg id).any fun signal => !known signal

def lastKnown (id : Int) (messages : List (TrafficSignalArray K)) : Option (TrafficSignal K) :=
  (messages.dropWhile (shownUnknown id)).head?.bind fun msg => shown msg id

theorem lastKnown_cons (id : Int) (msg : TrafficSignalArray K)
    (earlier : List (TrafficSignalArray K)) :
    lastKnown id (msg :: earlier) =
      match shown msg id with
      | none => none
      | some signal => if known signal then some signal else lastKnown id earlier := by
  unfold lastKnown
  cases hshown : shown msg id with
  | none => simp [shownUnknown, hshown]
  | some signal =>
    cases hknown : known signal with
    | true => simp [shownUnknown, hshown, hknown]
    | false => simp [shownUnknown, hshown, hknown]

/-! ## The memory -/

/-- Every signal of the map is stored under its own id. -/
def Keyed (map : TrafficLightIdMap K) : Prop :=
  ∀ (id : Int) (signal : TrafficSignal K), map[id]? = some signal → signal.mapPrimitiveId = id

namespace EstimatorNode

theorem getElem?_trafficLightIdMap (msg : TrafficSignalArray K) (id : Int) :
    (trafficLightIdMap msg)[id]? = shown msg id := by
  unfold trafficLightIdMap shown
  rw [getElem?_foldl_insert, Std.TreeMap.getElem?_emptyc, Option.or_none]

theorem keyed_trafficLightIdMap (msg : TrafficSignalArray K) : Keyed (trafficLightIdMap msg) := by
  intro id signal hsignal
  rw [getElem?_trafficLightIdMap] at hsignal
  exact key_of_findKey _ hsignal

theorem getElem?_rememberSignal (memory : TrafficLightIdMap K) {input : Int × TrafficSignal K}
    (hkey : input.2.mapPrimitiveId = input.1) (id : Int) :
    (rememberSignal memory input)[id]? =
      if input.1 = id then ((some input.2).filter known).or memory[id]? else memory[id]? := by
  unfold rememberSignal known
  cases hlight : input.2.lights.head? with
  | none => simp [Option.filter, hlight]
  | some light =>
    by_cases hunknown : light.color = .unknown
    · simp [Option.filter, hlight, hunknown]
    · simp [Option.filter, hlight, hunknown, getElem?_insert, hkey]

variable {idMap memory : TrafficLightIdMap K}

theorem mem_eraseIdList (hmemory : Keyed memory) {id : Int} :
    id ∈ eraseIdList idMap memory ↔ id ∈ memory ∧ id ∉ idMap := by
  unfold eraseIdList
  rw [List.mem_filter, List.mem_map]
  constructor
  · rintro ⟨⟨⟨key, signal⟩, hmem, rfl⟩, hmissing⟩
    have hsignal := Std.TreeMap.mem_toList_iff_getElem?_eq_some.mp hmem
    have hkey : signal.mapPrimitiveId = key := hmemory _ _ hsignal
    have hstored : memory[signal.mapPrimitiveId]? = some signal := hkey ▸ hsignal
    refine ⟨Std.TreeMap.mem_iff_isSome_getElem?.mpr (by rw [hstored]; rfl), ?_⟩
    simpa [← Std.TreeMap.contains_iff_mem] using hmissing
  · rintro ⟨hmem, hmissing⟩
    obtain ⟨signal, hsignal⟩ := Option.isSome_iff_exists.mp
      (Std.TreeMap.mem_iff_isSome_getElem?.mp hmem)
    refine ⟨⟨(id, signal), Std.TreeMap.mem_toList_iff_getElem?_eq_some.mpr hsignal,
      hmemory _ _ hsignal⟩, ?_⟩
    simpa [← Std.TreeMap.contains_iff_mem] using hmissing

/-- What the first loop leaves. -/
theorem getElem?_remembered {idMap : TrafficLightIdMap K} (hidMap : Keyed idMap)
    (memory : TrafficLightIdMap K) (id : Int) :
    (idMap.toList.foldl rememberSignal memory)[id]? =
      (idMap[id]?.filter known).or memory[id]? := by
  have hstore : ∀ entry ∈ idMap.toList, ∀ (map : TrafficLightIdMap K) (k : Int),
      (rememberSignal map entry)[k]? =
        if entry.1 = k then ((some entry.2).filter known).or map[k]? else map[k]? := by
    intro entry hentry map k
    exact getElem?_rememberSignal map
      (hidMap _ _ (Std.TreeMap.mem_toList_iff_getElem?_eq_some.mp hentry)) k
  rw [getElem?_foldl_store hstore (nodup_keys_toList idMap), ← findKey_toList idMap]
  cases findKey Prod.fst id idMap.toList <;> rfl

theorem keyed_remembered (hidMap : Keyed idMap)
    (hmemory : Keyed memory) : Keyed (idMap.toList.foldl rememberSignal memory) := by
  intro id signal hsignal
  rw [getElem?_remembered hidMap, Option.or_eq_some_iff] at hsignal
  rcases hsignal with hnew | ⟨-, hold⟩
  · exact hidMap id signal (Option.filter_eq_some_iff.mp hnew).1
  · exact hmemory id signal hold

/-- What the node remembers of a light after a message. -/
theorem getElem?_updateLastDetectedSignal (hidMap : Keyed idMap) (hmemory : Keyed memory) (id : Int) :
    (updateLastDetectedSignal idMap memory)[id]? =
      match idMap[id]? with
      | none => none
      | some signal => if known signal then some signal else memory[id]? := by
  unfold updateLastDetectedSignal
  rw [getElem?_foldl_erase, getElem?_remembered hidMap]
  cases hshown : idMap[id]? with
  | none =>
    have hmissing : id ∉ idMap := by
      rw [Std.TreeMap.mem_iff_isSome_getElem?, hshown]
      exact Bool.false_ne_true
    split
    case isTrue => rfl
    case isFalse hkept =>
      rw [mem_eraseIdList (keyed_remembered hidMap hmemory), not_and_not_right] at hkept
      have hnone : id ∉ idMap.toList.foldl rememberSignal memory := fun hmem =>
        hmissing (hkept hmem)
      rw [Std.TreeMap.mem_iff_isSome_getElem?, getElem?_remembered hidMap, hshown] at hnone
      simpa using hnone
  | some signal =>
    have hpresent : id ∈ idMap := by
      rw [Std.TreeMap.mem_iff_isSome_getElem?, hshown]
      rfl
    rw [if_neg (fun herased => ((mem_eraseIdList
      (keyed_remembered hidMap hmemory)).mp herased).2 hpresent)]
    cases hknown : known signal with
    | true => simp [Option.filter, hknown]
    | false => simp [Option.filter, hknown]

theorem keyed_updateLastDetectedSignal (hidMap : Keyed idMap) (hmemory : Keyed memory) :
    Keyed (updateLastDetectedSignal idMap memory) := by
  intro id signal hsignal
  rw [getElem?_updateLastDetectedSignal hidMap hmemory] at hsignal
  split at hsignal
  case h_1 => cases hsignal
  case h_2 current hcurrent =>
    split at hsignal
    case isTrue =>
      cases hsignal
      exact hidMap id signal hcurrent
    case isFalse => exact hmemory id signal hsignal

end EstimatorNode

/-! ## Runs -/

/-- What the node receives. -/
inductive Event (K : Type) where
  | map (map : LaneletMap)
  | route (primitives : List Int)
  | signals (msg : TrafficSignalArray K)

def heard (events : List (Event K)) : List (TrafficSignalArray K) :=
  (events.filterMap fun
    | .signals msg => some msg
    | .map _ => none
    | .route _ => none).reverse

theorem heard_concat (events : List (Event K)) (event : Event K) : heard (events ++ [event]) =
      match event with
      | .signals msg => msg :: heard events
      | .map _ => heard events
      | .route _ => heard events := by
  cases event <;> simp [heard]

namespace EstimatorNode

section

@[simp]
theorem onRoute_lastDetectColor (primitives : List Int) (node : EstimatorNode K) :
    (node.onRoute primitives).lastDetectColor = node.lastDetectColor := by
  unfold onRoute
  split
  · rfl
  · split <;> rfl

variable [Zero K] [One K] [LinearOrder K]

/-- The callbacks. -/
def receive (node : EstimatorNode K) : Event K → EstimatorNode K
  | .map map => node.onMap map
  | .route primitives => node.onRoute primitives
  | .signals msg => (node.onTrafficLightArray msg).1

structure Remembers (node : EstimatorNode K) (messages : List (TrafficSignalArray K)) : Prop where
  keyed : Keyed node.lastDetectColor
  lastKnown : ∀ id, node.lastDetectColor[id]? = lastKnown id messages

omit [Zero K] [One K] [LinearOrder K] in
theorem Remembers.congr {node other : EstimatorNode K} {messages : List (TrafficSignalArray K)}
    (hremembers : node.Remembers messages)
    (heq : other.lastDetectColor = node.lastDetectColor) : other.Remembers messages :=
  ⟨heq ▸ hremembers.keyed, heq ▸ hremembers.lastKnown⟩

theorem Remembers.onTrafficLightArray {node : EstimatorNode K}
    {messages : List (TrafficSignalArray K)} (hremembers : node.Remembers messages)
    (msg : TrafficSignalArray K) :
    (node.onTrafficLightArray msg).1.Remembers (msg :: messages) := by
  have hidMap := keyed_trafficLightIdMap msg
  constructor
  · exact keyed_updateLastDetectedSignal hidMap hremembers.keyed
  · intro id
    have hupdated := getElem?_updateLastDetectedSignal hidMap hremembers.keyed id
    rw [getElem?_trafficLightIdMap, hremembers.lastKnown, ← lastKnown_cons] at hupdated
    exact hupdated

theorem remembers_of_run {useLastDetectColor : Bool} {events : List (Event K)}
    {node : EstimatorNode K}
    (hrun : Run (OfUpdate receive) (start K useLastDetectColor) events node) :
    node.Remembers (heard events) := by
  refine hrun.induction_last (motive := fun events node => node.Remembers (heard events)) ?_ ?_
  · constructor
    · intro id signal hsignal
      rw [start, Std.TreeMap.getElem?_emptyc] at hsignal
      cases hsignal
    · intro id
      exact Std.TreeMap.getElem?_emptyc
  · intro earlier before event after _ hremembers hstep
    cases hstep
    rw [heard_concat]
    cases event with
    | map map => exact hremembers.congr rfl
    | route primitives => exact hremembers.congr (onRoute_lastDetectColor primitives before)
    | signals msg => exact hremembers.onTrafficLightArray msg

end

variable {K : Type}

section

variable [Zero K] [LinearOrder K]

def lightColor (signalOf : Int → Option (TrafficSignal K)) (lanelet : Lanelet) : Option Color :=
  lanelet.trafficLightElements.head?.bind fun element =>
    getHighestConfidenceTrafficSignal element.trafficLights signalOf

/-- The light of the lanelet shows `GREEN` or `AMBER`. -/
def ShowsNonRed (msg : TrafficSignalArray K) (lanelet : Lanelet) : Prop :=
  lightColor (shown msg) lanelet = some .green ∨ lightColor (shown msg) lanelet = some .amber

/-- The light of the lanelet is `UNKNOWN` and was `GREEN` or `AMBER`. -/
def ShowedNonRed (messages : List (TrafficSignalArray K)) (msg : TrafficSignalArray K)
    (lanelet : Lanelet) : Prop :=
  lightColor (shown msg) lanelet = some .unknown ∧
    (lightColor (fun id => lastKnown id messages) lanelet = some .green ∨
      lightColor (fun id => lastKnown id messages) lanelet = some .amber)

def HasLastColor (messages : List (TrafficSignalArray K)) (lanelet : Lanelet) : Prop :=
  (lightColor (fun id => lastKnown id messages) lanelet).isSome

variable {node : EstimatorNode K} {messages : List (TrafficSignalArray K)}

theorem isNonRed_iff (hremembers : node.Remembers messages) (msg : TrafficSignalArray K)
    (lanelet : Lanelet) :
    node.isNonRed (trafficLightIdMap msg) lanelet = true ↔ (ShowsNonRed msg lanelet ∨
        node.useLastDetectColor = true ∧ ShowedNonRed messages msg lanelet) ∧
      HasLastColor messages lanelet := by
  have hcurrent : (fun id => (trafficLightIdMap msg)[id]?) = shown msg :=
    funext (getElem?_trafficLightIdMap msg)
  have hlast : (fun id => node.lastDetectColor[id]?) = fun id => lastKnown id messages :=
    funext hremembers.lastKnown
  unfold isNonRed ShowsNonRed ShowedNonRed HasLastColor lightColor
  rw [hcurrent, hlast]
  cases lanelet.trafficLightElements.head? with
  | none => simp
  | some element =>
    simp only [Option.bind_some]
    cases getHighestConfidenceTrafficSignal element.trafficLights (shown msg) with
    | none => simp
    | some current =>
      cases getHighestConfidenceTrafficSignal element.trafficLights
          (fun id => lastKnown id messages) with
      | none => simp
      | some last =>
        simp only [Bool.or_eq_true, Bool.and_eq_true, decide_eq_true_eq,
          Option.some.injEq, Option.isSome_some, and_true]
        tauto

/-! ## The colour of a crosswalk -/

def Decisive (crosswalk lanelet : Lanelet) : Prop :=
  (lanelet.turnDirection.getD "none" ≠ "left" ∧ lanelet.turnDirection.getD "none" ≠ "right") ∨
    ∃ element ∈ lanelet.trafficLightElements.head?,
      element.id = atoi (crosswalk.relatedTrafficLight.getD "none")

/-- Two of the lanelets have different turn directions and run into one lanelet. -/
def Merging (map : LaneletMap) (among : Lanelet → Prop) : Prop :=
  ∃ first second, among first ∧ among second ∧ first.id ≠ second.id ∧
    first.turnDirection.getD "none" ≠ second.turnDirection.getD "none" ∧
    hasMergeLanePair map first second = true

/-- The lanelet is not red, as far as the last known colours are used. -/
def NonRed (node : EstimatorNode K) (messages : List (TrafficSignalArray K))
    (msg : TrafficSignalArray K) (lanelet : Lanelet) : Prop :=
  ShowsNonRed msg lanelet ∨ node.useLastDetectColor = true ∧ ShowedNonRed messages msg lanelet

/-- The lanelet is in conflict with the crosswalk, not red, and its light has a last known
colour. -/
def Counted (node : EstimatorNode K) (messages : List (TrafficSignalArray K))
    (msg : TrafficSignalArray K) (crosswalk lanelet : Lanelet) : Prop :=
  lanelet ∈ node.conflictLanelets crosswalk ∧ node.NonRed messages msg lanelet ∧
    HasLastColor messages lanelet

/-- Lanelets of both turn directions are counted, and none of those counted merge. -/
def TurnsConflict (node : EstimatorNode K) (messages : List (TrafficSignalArray K))
    (msg : TrafficSignalArray K) (crosswalk : Lanelet) : Prop :=
  (∀ map ∈ node.map, ¬ Merging map (node.Counted messages msg crosswalk)) ∧
    (∃ left, node.Counted messages msg crosswalk left ∧ left.turnDirection.getD "none" = "left") ∧
    ∃ right, node.Counted messages msg crosswalk right ∧ right.turnDirection.getD "none" = "right"

omit [Zero K] [LinearOrder K] in
theorem hasMergeLanePair_comm (map : LaneletMap) (first second : Lanelet) :
    hasMergeLanePair map first second = true ↔ hasMergeLanePair map second first = true := by
  unfold hasMergeLanePair
  simp only [List.any_eq_true, beq_iff_eq]
  constructor
  · rintro ⟨next1, hnext1, next2, hnext2, hid⟩
    exact ⟨next2, hnext2, next1, hnext1, hid.symm⟩
  · rintro ⟨next1, hnext1, next2, hnext2, hid⟩
    exact ⟨next2, hnext2, next1, hnext1, hid.symm⟩

/-- The loop meets every pair in one order, which is enough. -/
theorem hasMergeLane_iff (map : LaneletMap) (lanelets : List Lanelet) :
    hasMergeLane map lanelets = true ↔ Merging map (· ∈ lanelets) := by
  induction lanelets with
  | nil => simp [hasMergeLane, Merging]
  | cons lanelet rest ih =>
    unfold hasMergeLane
    rw [Bool.or_eq_true, ih]
    simp only [List.any_eq_true, Bool.and_eq_true, bne_iff_ne, ne_eq, and_assoc]
    constructor
    · rintro (⟨other, hother, hid, hturn, hmerge⟩ | ⟨first, second, hfirst, hsecond, hpair⟩)
      · exact ⟨lanelet, other, List.mem_cons_self, List.mem_cons_of_mem _ hother, hid, hturn,
          hmerge⟩
      · exact ⟨first, second, List.mem_cons_of_mem _ hfirst, List.mem_cons_of_mem _ hsecond, hpair⟩
    · rintro ⟨first, second, hfirst, hsecond, hid, hturn, hmerge⟩
      rcases List.mem_cons.mp hfirst with rfl | hrest
      · rcases List.mem_cons.mp hsecond with rfl | hother
        · exact absurd rfl hid
        · exact Or.inl ⟨second, hother, hid, hturn, hmerge⟩
      · rcases List.mem_cons.mp hsecond with rfl | hother
        · exact Or.inl ⟨first, hrest, Ne.symm hid, Ne.symm hturn,
            (hasMergeLanePair_comm map first second).mp hmerge⟩
        · exact Or.inr ⟨first, second, hrest, hother, hid, hturn, hmerge⟩

theorem mem_getNonRedLanelets (hremembers : node.Remembers messages)
    (msg : TrafficSignalArray K) (crosswalk lanelet : Lanelet) :
    lanelet ∈ node.getNonRedLanelets (node.conflictLanelets crosswalk) (trafficLightIdMap msg) ↔
      node.Counted messages msg crosswalk lanelet := by
  unfold getNonRedLanelets Counted NonRed
  rw [List.mem_filter, isNonRed_iff hremembers]

/-- The decision, in terms of the history. -/
theorem crosswalkTlColor_eq_red_iff (hremembers : node.Remembers messages)
    (msg : TrafficSignalArray K) (crosswalk : Lanelet) :
    node.crosswalkTlColor (trafficLightIdMap msg) crosswalk = .red ↔
      (∃ lanelet, node.Counted messages msg crosswalk lanelet ∧ Decisive crosswalk lanelet) ∨
        node.TurnsConflict messages msg crosswalk := by
  have hcounted := mem_getNonRedLanelets hremembers msg crosswalk
  unfold crosswalkTlColor
  generalize node.getNonRedLanelets (node.conflictLanelets crosswalk)
    (trafficLightIdMap msg) = nonRed at hcounted ⊢
  have hdecisive : (nonRed.any (fun lanelet => lanelet.turnDirection.getD "none" != "left" &&
        lanelet.turnDirection.getD "none" != "right") ||
      nonRed.any fun lanelet => lanelet.trafficLightElements.head?.any fun element =>
        element.id == atoi (crosswalk.relatedTrafficLight.getD "none")) = true ↔
      ∃ lanelet, node.Counted messages msg crosswalk lanelet ∧ Decisive crosswalk lanelet := by
    simp only [Bool.or_eq_true, List.any_eq_true, Bool.and_eq_true, bne_iff_ne, ne_eq,
      Option.any_eq_true, beq_iff_eq, hcounted, Decisive, Option.mem_def]
    constructor
    · rintro (⟨lanelet, hlanelet, hstraight⟩ | ⟨lanelet, hlanelet, hrelated⟩)
      · exact ⟨lanelet, hlanelet, Or.inl hstraight⟩
      · exact ⟨lanelet, hlanelet, Or.inr hrelated⟩
    · rintro ⟨lanelet, hlanelet, hstraight | hrelated⟩
      · exact Or.inl ⟨lanelet, hlanelet, hstraight⟩
      · exact Or.inr ⟨lanelet, hlanelet, hrelated⟩
  have hmerge : (node.map.any fun map => hasMergeLane map nonRed) = false ↔
      ∀ map ∈ node.map, ¬ Merging map (node.Counted messages msg crosswalk) := by
    have hamong : (· ∈ nonRed) = node.Counted messages msg crosswalk :=
      funext fun lanelet => propext (hcounted lanelet)
    rw [← hamong]
    cases node.map with
    | none => simp
    | some map => simp [← hasMergeLane_iff]
  have hturn (turn : String) :
      (nonRed.any fun lanelet => lanelet.turnDirection.getD "none" == turn) = true ↔
        ∃ lanelet, node.Counted messages msg crosswalk lanelet ∧
          lanelet.turnDirection.getD "none" = turn := by
    simp only [List.any_eq_true, beq_iff_eq, hcounted]
  unfold estimateCrosswalkTrafficSignal TurnsConflict
  dsimp only
  split
  case isTrue hred => exact iff_of_true rfl (Or.inl (hdecisive.mp hred))
  case isFalse hother =>
    rw [hdecisive] at hother
    rw [or_iff_right hother, ← hmerge, ← hturn "left", ← hturn "right"]
    split
    case isTrue hturns => simpa [and_assoc] using hturns
    case isFalse hturns => simpa [and_assoc] using hturns

/-- What makes a crosswalk red although a light may be seen for the first time: no decisive
lanelet shows `GREEN` or `AMBER`, or a decisive one that is not red has a last known colour,
or the turning lanelets are counted. -/
def FirstSightCovered (node : EstimatorNode K) (messages : List (TrafficSignalArray K))
    (msg : TrafficSignalArray K) (crosswalk : Lanelet) : Prop :=
  (∀ lanelet ∈ node.conflictLanelets crosswalk, Decisive crosswalk lanelet →
    ¬ ShowsNonRed msg lanelet) ∨
  (∃ lanelet, node.Counted messages msg crosswalk lanelet ∧ Decisive crosswalk lanelet) ∨
  node.TurnsConflict messages msg crosswalk

theorem ShowedNonRed.hasLastColor {msg : TrafficSignalArray K} {lanelet : Lanelet}
    (hshowed : ShowedNonRed messages msg lanelet) : HasLastColor messages lanelet := by
  unfold HasLastColor
  rcases hshowed.2 with hgreen | hamber
  · rw [hgreen]; rfl
  · rw [hamber]; rfl

theorem red_of_nonRed_iff (hremembers : node.Remembers messages) (msg : TrafficSignalArray K)
    (crosswalk : Lanelet) :
    ((∃ lanelet ∈ node.conflictLanelets crosswalk, Decisive crosswalk lanelet ∧
        node.NonRed messages msg lanelet) →
      node.crosswalkTlColor (trafficLightIdMap msg) crosswalk = .red) ↔
      node.FirstSightCovered messages msg crosswalk := by
  rw [crosswalkTlColor_eq_red_iff hremembers]
  unfold FirstSightCovered
  constructor
  · intro hred
    by_cases hshows : ∃ lanelet ∈ node.conflictLanelets crosswalk,
        Decisive crosswalk lanelet ∧ ShowsNonRed msg lanelet
    · obtain ⟨lanelet, hconflict, hdecisive, hnonRed⟩ := hshows
      exact Or.inr (hred ⟨lanelet, hconflict, hdecisive, Or.inl hnonRed⟩)
    · exact Or.inl fun lanelet hconflict hdecisive hnonRed =>
        hshows ⟨lanelet, hconflict, hdecisive, hnonRed⟩
  · rintro (hnone | hcovered) ⟨lanelet, hconflict, hdecisive, hnonRed⟩
    · rcases hnonRed with hshows | ⟨huse, hshowed⟩
      · exact absurd hshows (hnone lanelet hconflict hdecisive)
      · exact Or.inl ⟨lanelet, ⟨hconflict, Or.inr ⟨huse, hshowed⟩, hshowed.hasLastColor⟩, hdecisive⟩
    · exact hcovered

end

section

variable [Zero K] [One K] [LinearOrder K]

theorem onTrafficLightArray_signals (node : EstimatorNode K) (msg : TrafficSignalArray K) :
    (node.onTrafficLightArray msg).2.signals =
      msg.signals ++ node.conflictingCrosswalks.flatMap fun crosswalk =>
        crosswalkSignals crosswalk (node.crosswalkTlColor (trafficLightIdMap msg) crosswalk) := by
  unfold onTrafficLightArray
  dsimp only
  generalize node.crosswalkTlColor (trafficLightIdMap msg) = color
  induction node.conflictingCrosswalks generalizing msg with
  | nil => simp
  | cons crosswalk rest ih =>
    rw [List.foldl_cons, ih, List.flatMap_cons, ← List.append_assoc]
    rfl

/-- After any history, a crosswalk is red whenever a decisive lanelet is not red, exactly if
the first sight of a light is covered. -/
theorem onTrafficLightArray_red_iff {useLastDetectColor : Bool} {events : List (Event K)}
    {node : EstimatorNode K}
    (hrun : Run (OfUpdate receive) (start K useLastDetectColor) events node)
    (msg : TrafficSignalArray K) (crosswalk : Lanelet) :
    (node.onTrafficLightArray msg).2.signals =
        msg.signals ++ node.conflictingCrosswalks.flatMap (fun crosswalk =>
          crosswalkSignals crosswalk (node.crosswalkTlColor (trafficLightIdMap msg) crosswalk)) ∧
      (((∃ lanelet ∈ node.conflictLanelets crosswalk, Decisive crosswalk lanelet ∧
          node.NonRed (heard events) msg lanelet) →
        node.crosswalkTlColor (trafficLightIdMap msg) crosswalk = .red) ↔
        node.FirstSightCovered (heard events) msg crosswalk) :=
  ⟨onTrafficLightArray_signals node msg, red_of_nonRed_iff (remembers_of_run hrun) msg crosswalk⟩

end

def straightLane : Lanelet := ⟨1, some "straight", none, [⟨10, [⟨11, true⟩]⟩]⟩

def onlyCrosswalk : Lanelet := ⟨2, none, none, [⟨20, [⟨21, true⟩]⟩]⟩

def crossing : LaneletMap where
  laneletLayer id := if id = 1 then some straightLane else none
  conflictingPedestrian _ := [onlyCrosswalk]
  conflictingVehicle _ := [straightLane]
  following _ := []

def laneShows (color : Color) : TrafficSignalArray Nat := ⟨[⟨11, [⟨color, 1⟩]⟩]⟩

def routedNode : EstimatorNode Nat := ((start Nat true).onMap crossing).onRoute [1]

theorem straightLane_showsNonRed : ShowsNonRed (laneShows .green) straightLane := by
  refine Or.inl ?_
  decide

/-- The first message shows the light of a straight lane `GREEN`. -/
theorem first_green_not_red : onlyCrosswalk ∈ routedNode.conflictingCrosswalks ∧
      ¬ ((∃ lanelet ∈ routedNode.conflictLanelets onlyCrosswalk, Decisive onlyCrosswalk lanelet ∧
            routedNode.NonRed (heard [.map crossing, .route [1]]) (laneShows .green) lanelet) →
        routedNode.crosswalkTlColor (trafficLightIdMap (laneShows .green)) onlyCrosswalk =
          .red) := by
  refine ⟨by decide, fun hred => ?_⟩
  have hstraight : Decisive onlyCrosswalk straightLane := Or.inl ⟨by decide, by decide⟩
  have hcolor := hred ⟨straightLane, List.mem_singleton_self _, hstraight,
    Or.inl straightLane_showsNonRed⟩
  exact absurd hcolor (by decide)

/-- The second message in a row that shows it `GREEN`. -/
theorem second_green_red :
    let node := (routedNode.onTrafficLightArray (laneShows .green)).1
    node.crosswalkTlColor (trafficLightIdMap (laneShows .green)) onlyCrosswalk = .red := by
  intro node
  have hrun : Run (OfUpdate receive) (start Nat true)
      [.map crossing, .route [1], .signals (laneShows .green)] node :=
    .cons rfl (.cons rfl (.cons rfl (.nil _)))
  have hstraight : Decisive onlyCrosswalk straightLane := Or.inl ⟨by decide, by decide⟩
  refine (onTrafficLightArray_red_iff hrun (laneShows .green) onlyCrosswalk).2.mpr ?_
    ⟨straightLane, List.mem_singleton_self _, hstraight, Or.inl straightLane_showsNonRed⟩
  refine Or.inr (Or.inl ⟨straightLane, ⟨List.mem_singleton_self _,
    Or.inl straightLane_showsNonRed, ?_⟩, hstraight⟩)
  unfold HasLastColor
  decide

end EstimatorNode

end AutowareUniverse.Perception.CrosswalkTrafficLight
