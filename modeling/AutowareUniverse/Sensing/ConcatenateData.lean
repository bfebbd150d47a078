import AutowareUniverse.Library.DoubleBuffer
import AutowareUniverse.Library.Runs
import AutowareUniverse.Library.KeyedList
import AutowareUniverse.Library.Numerals
import Mathlib.Algebra.Field.Rat

/-!
# The point cloud concatenator

Clouds of several topics are collected in a map and concatenated when the map is complete or
a timer runs out; clouds that come early wait in a second map.  A received cloud is stored
under a fresh pointer, which is the number of its arrival.  The callbacks of the clouds run
under the mutex; the timer callback cancels the timer before it tries to lock.
-/

namespace AutowareUniverse.Sensing.ConcatenateData

/-- A `PointCloud2::ConstSharedPtr` that is not null. -/
structure Cloud (C : Type) where
  arrival : Nat
  content : C
  deriving DecidableEq

/-- `std::map<std::string, PointCloud2::ConstSharedPtr>`. -/
abbrev CloudMap (C : Type) := Std.TreeMap String (Option (Cloud C))

/-- The parameters of the node and what it does to single clouds. -/
structure Settings (K C T : Type) where
  inputTopics : List String
  timeoutSec : K
  offsetMap : Std.TreeMap String K
  convertToXYZICloud : C → C
  transformPointCloud : C → Option C
  combineClouds : T → C → C → C
  emptyCloud : C

/-- The timer: its period in seconds and whether it is cancelled. -/
structure Timer (K : Type) where
  period : K
  armed : Bool
  deriving DecidableEq

namespace Timer

variable {K : Type}

def cancel (timer : Timer K) : Timer K := { timer with armed := false }

def reset (timer : Timer K) : Timer K := { timer with armed := true }

def setPeriod (newPeriod : K) (timer : Timer K) : Timer K := { timer with period := newPeriod }

end Timer

structure State (K C T : Type) where
  cloudStdmap : CloudMap C
  cloudStdmapTmp : CloudMap C
  twistPtrQueue : T
  timer : Timer K
  /-- The timer callbacks that have cancelled the timer and not tried to lock yet. -/
  timerCallbacks : Nat
  /-- The clouds that have been received. -/
  arrivals : Nat

/-- A message on the output topic, and the clouds that it was put together from. -/
structure Publication (C : Type) where
  parts : List (String × Cloud C)
  output : C
  deriving DecidableEq

/-- What happens to the node.  A timer callback is a `timerFires` and later one of
`timerLocks` and `timerIsBusy`; a twist leaves some queue of twists. -/
inductive Event (C T : Type) where
  | cloud (topicName : String) (input : C)
  | twist (queue : T)
  | timerFires
  | timerLocks
  | timerIsBusy
  deriving DecidableEq

/-! ## Maps of clouds -/

namespace CloudMap

variable {C : Type} (map : CloudMap C)

def held (topicName : String) : Option (Cloud C) := map[topicName]?.join

def anyHeld : Bool := map.toList.any fun e => e.2.isSome

def allHeld : Bool := map.toList.all fun e => e.2.isSome

/-- The loop that sets every pointer to null. -/
def clear : CloudMap C := map.map fun _ _ => none

def takeOverEntry (e : String × Option (Cloud C)) : CloudMap C :=
  match e.2 with
  | none => map
  | some cloud => map.insert e.1 (some cloud)

def takeOver (tmp map : CloudMap C) : CloudMap C := tmp.toList.foldl takeOverEntry map

def parts (map : CloudMap C) : List (String × Cloud C) :=
  map.toList.filterMap fun e => e.2.map fun cloud => (e.1, cloud)

end CloudMap

section

variable {K C T : Type} (settings : Settings K C T)

/-- The constructor, with at least two topics. -/
def start (twistPtrQueue : T) : State K C T :=
  let cloudStdmap := settings.inputTopics.foldl (fun map topic => map.insert topic none) ∅
  { cloudStdmap := cloudStdmap
    cloudStdmapTmp := cloudStdmap
    twistPtrQueue := twistPtrQueue
    timer := ⟨settings.timeoutSec, true⟩
    timerCallbacks := 0
    arrivals := 0 }

def transformed (cloud : Cloud C) : C :=
  (settings.transformPointCloud cloud.content).getD settings.emptyCloud

/-- `concat_cloud_ptr_` after the loop of `publish`. -/
def concatenate (twists : T) : List (String × Cloud C) → Option C
  | [] => none
  | first :: rest =>
    some (rest.foldl (fun concat part => settings.combineClouds twists concat
      (transformed settings part.2)) (transformed settings first.2))

variable (state : State K C T)

/-- `publish`. -/
def publish : State K C T × List (Publication C) :=
  let parts := CloudMap.parts state.cloudStdmap
  let outputs := match concatenate settings state.twistPtrQueue parts with
    | none => []
    | some output => [⟨parts, output⟩]
  ({ state with
      cloudStdmap := state.cloudStdmapTmp
      cloudStdmapTmp := CloudMap.clear state.cloudStdmapTmp }, outputs)

/-- `cloud_callback`. -/
def cloudCallback [Sub K] [Zero K] (inputPtr : C) (topicName : String) (state : State K C T) :
    State K C T × List (Publication C) :=
  let cloud : Cloud C := ⟨state.arrivals, settings.convertToXYZICloud inputPtr⟩
  let state := { state with arrivals := state.arrivals + 1 }
  if (CloudMap.held state.cloudStdmap topicName).isSome then
    let timer :=
      if CloudMap.anyHeld state.cloudStdmapTmp then state.timer
      else (state.timer.setPeriod settings.timeoutSec).reset
    ({ state with
        cloudStdmapTmp := state.cloudStdmapTmp.insert topicName (some cloud)
        timer := timer }, [])
  else
    let cloudStdmap := state.cloudStdmap.insert topicName (some cloud)
    if CloudMap.allHeld cloudStdmap then
      publish settings
        { state with
          cloudStdmap := CloudMap.takeOver state.cloudStdmapTmp cloudStdmap
          cloudStdmapTmp := CloudMap.clear state.cloudStdmapTmp
          timer := state.timer.cancel }
    else if 0 < settings.offsetMap.size then
      let period := settings.timeoutSec - settings.offsetMap.getD topicName 0
      ({ state with
          cloudStdmap := cloudStdmap
          timer := (state.timer.cancel.setPeriod period).reset }, [])
    else ({ state with cloudStdmap := cloudStdmap }, [])

/-- `timer_callback`, up to `try_lock`. -/
def timerFires : State K C T :=
  { state with timer := state.timer.cancel, timerCallbacks := state.timerCallbacks + 1 }

/-- The rest of `timer_callback` when `try_lock` succeeds. -/
def timerLocks : State K C T × List (Publication C) :=
  publish settings { state with timerCallbacks := state.timerCallbacks - 1 }

/-- The rest of `timer_callback` when the mutex is locked: it fires again after 10 ms. -/
def timerIsBusy [Div K] [OfNat K 1] [OfNat K 100] (state : State K C T) : State K C T :=
  { state with
    timer := (state.timer.setPeriod (1 / 100)).reset
    timerCallbacks := state.timerCallbacks - 1 }

def receive [Field K] (state : State K C T) : Event C T → State K C T × List (Publication C)
  | .cloud topicName input => cloudCallback settings input topicName state
  | .twist queue => ({ state with twistPtrQueue := queue }, [])
  | .timerFires => (timerFires state, [])
  | .timerLocks => timerLocks settings state
  | .timerIsBusy => (timerIsBusy state, [])

/-- A timer callback ends only after it has begun. -/
def Enabled : Event C T → Prop
  | .cloud _ _ => True
  | .twist _ => True
  | .timerFires => True
  | .timerLocks => 0 < state.timerCallbacks
  | .timerIsBusy => 0 < state.timerCallbacks

end

open Library.DoubleBuffer Library.KeyedList Library.Runs Library.TreeMapLoops

namespace CloudMap

variable {C : Type} (map : CloudMap C)

theorem held_eq_some_iff (topicName : String) (cloud : Cloud C) :
    held map topicName = some cloud ↔ (topicName, some cloud) ∈ map.toList := by
  rw [held, Option.join_eq_some_iff, Std.TreeMap.mem_toList_iff_getElem?_eq_some]

@[simp]
theorem held_insert (topicName : String) (cloud : Cloud C) :
    held (map.insert topicName (some cloud)) =
      Function.update (held map) topicName (some cloud) := by
  funext other
  unfold held
  rw [getElem?_insert]
  by_cases hkey : topicName = other
  · subst hkey
    simp
  · simp [hkey, Function.update_of_ne (Ne.symm hkey)]

@[simp]
theorem held_clear : held (clear map) = fun _ => none := by
  funext topicName
  unfold held clear
  rw [Std.TreeMap.getElem?_map]
  cases map[topicName]? <;> rfl

theorem anyHeld_iff :
    anyHeld map = true ↔ ∃ topicName cloud, held map topicName = some cloud := by
  unfold anyHeld
  simp only [List.any_eq_true, held_eq_some_iff]
  constructor
  · rintro ⟨⟨topicName, pointer⟩, hmem, hsome⟩
    obtain ⟨cloud, rfl⟩ := Option.isSome_iff_exists.mp hsome
    exact ⟨topicName, cloud, hmem⟩
  · rintro ⟨topicName, cloud, hmem⟩
    exact ⟨_, hmem, rfl⟩

theorem held_takeOver (tmp map : CloudMap C) (topicName : String) :
    held (takeOver tmp map) topicName = (held tmp topicName).or (held map topicName) := by
  have hstore : ∀ entry ∈ tmp.toList, ∀ (map : CloudMap C) (k : String),
      (takeOverEntry map entry)[k]? =
        if entry.1 = k then (entry.2.map some).or map[k]? else map[k]? := by
    rintro ⟨key, pointer⟩ - map k
    cases pointer with
    | none => simp [takeOverEntry]
    | some cloud => exact getElem?_insert map key k (some cloud)
  unfold held takeOver
  rw [getElem?_foldl_store hstore (nodup_keys_toList tmp), ← findKey_toList tmp]
  cases findKey Prod.fst topicName tmp.toList with
  | none => rfl
  | some entry => cases hpointer : entry.2 <;> simp [hpointer]

/-- The loop of `publish` meets each cloud of the map once. -/
theorem lists_parts (map : CloudMap C) : Lists (parts map) (held map) where
  mem topicName cloud := by
    unfold parts
    simp only [List.mem_filterMap, held_eq_some_iff, Option.map_eq_some_iff]
    constructor
    · rintro ⟨⟨key, pointer⟩, hmem, part, hpointer, hpart⟩
      cases hpart
      exact hpointer ▸ hmem
    · exact fun hmem => ⟨_, hmem, cloud, rfl, rfl⟩
  nodup := by
    have hfst : (parts map).map Prod.fst =
        (map.toList.filter fun e => e.2.isSome).map Prod.fst := by
      unfold parts
      induction map.toList with
      | nil => rfl
      | cons e rest ih =>
        cases hpointer : e.2 <;> simp [hpointer, ih]
    rw [hfst]
    exact (nodup_keys_toList map).sublist (List.filter_sublist.map Prod.fst)

end CloudMap

/-! ## Steps -/

section

variable {K C T : Type} (settings : Settings K C T)

def buffers (state : State K C T) : Buffers String (Cloud C) :=
  ⟨CloudMap.held state.cloudStdmap, CloudMap.held state.cloudStdmapTmp⟩

def reception : Event C T → Option (String × C)
  | .cloud topicName input => some (topicName, input)
  | .twist _ => none
  | .timerFires => none
  | .timerLocks => none
  | .timerIsBusy => none

def received (state : State K C T) (event : Event C T) : Option (String × Cloud C) :=
  (reception event).map fun arrived =>
    (arrived.1, ⟨state.arrivals, settings.convertToXYZICloud arrived.2⟩)

def publishedParts (outputs : List (Publication C)) : List (String × Cloud C) :=
  outputs.flatMap Publication.parts

/-- A message is made of at least one cloud, and of at most one of each topic. -/
structure Publication.WellFormed (publication : Publication C) : Prop where
  ne_nil : publication.parts ≠ []
  nodup : (publication.parts.map Prod.fst).Nodup

theorem concatenate_eq_none_iff (twists : T) (parts : List (String × Cloud C)) :
    concatenate settings twists parts = none ↔ parts = [] := by
  cases parts with
  | nil => simp [concatenate]
  | cons first rest => simp [concatenate]

variable (state : State K C T)

theorem publish_outputs : (publish settings state).2 = [] ∧ CloudMap.parts state.cloudStdmap = [] ∨
      CloudMap.parts state.cloudStdmap ≠ [] ∧
        ∃ output, (publish settings state).2 = [⟨CloudMap.parts state.cloudStdmap, output⟩] := by
  have hnone := concatenate_eq_none_iff settings state.twistPtrQueue
    (CloudMap.parts state.cloudStdmap)
  unfold publish
  dsimp only
  cases hconcat : concatenate settings state.twistPtrQueue (CloudMap.parts state.cloudStdmap) with
  | none => exact Or.inl ⟨rfl, hnone.mp hconcat⟩
  | some output =>
    refine Or.inr ⟨fun hnil => ?_, output, rfl⟩
    rw [hnone.mpr hnil] at hconcat
    cases hconcat

theorem publishedParts_publish :
    publishedParts (publish settings state).2 = CloudMap.parts state.cloudStdmap := by
  rcases publish_outputs settings state with ⟨houtputs, hparts⟩ | ⟨-, output, houtputs⟩
  · rw [houtputs, hparts]
    rfl
  · rw [houtputs]
    simp [publishedParts]

theorem publish_wellFormed :
    ∀ publication ∈ (publish settings state).2, publication.WellFormed := by
  intro publication hmem
  rcases publish_outputs settings state with ⟨houtputs, -⟩ | ⟨hparts, output, houtputs⟩
  · rw [houtputs] at hmem
    cases hmem
  · rw [houtputs, List.mem_singleton] at hmem
    subst hmem
    exact ⟨hparts, (CloudMap.lists_parts _).nodup⟩

theorem buffers_publish :
    buffers (publish settings state).1 = ⟨CloudMap.held state.cloudStdmapTmp, fun _ => none⟩ := by
  unfold buffers publish
  simp

theorem publish_shift : Shift (buffers state) none (publishedParts (publish settings state).2)
      (buffers (publish settings state).1) := by
  rw [publishedParts_publish, buffers_publish]
  exact .flush (CloudMap.lists_parts state.cloudStdmap)

variable [Field K]

theorem cloudCallback_shift (input : C) (topicName : String) (state : State K C T) :
    Shift (buffers state) (some (topicName, ⟨state.arrivals, settings.convertToXYZICloud input⟩))
      (publishedParts (cloudCallback settings input topicName state).2)
      (buffers (cloudCallback settings input topicName state).1) := by
  unfold cloudCallback
  dsimp only
  split
  case isTrue htaken =>
    obtain ⟨older, holder⟩ := Option.isSome_iff_exists.mp htaken
    have hbuffers : Shift (buffers state) _ [] ((buffers state).wait topicName
        ⟨state.arrivals, settings.convertToXYZICloud input⟩) := .wait _ holder
    simpa [buffers, Buffers.wait, publishedParts] using hbuffers
  case isFalse hfree =>
    rw [Option.not_isSome_iff_eq_none] at hfree
    have hstore : Shift (buffers state) _ [] ((buffers state).store topicName
        ⟨state.arrivals, settings.convertToXYZICloud input⟩) := .store _ hfree
    split
    case isTrue =>
      rw [publishedParts_publish, buffers_publish]
      simp only [CloudMap.held_clear]
      refine .complete hfree ?_
      have hlists := CloudMap.lists_parts (CloudMap.takeOver state.cloudStdmapTmp
        (state.cloudStdmap.insert topicName
          (some ⟨state.arrivals, settings.convertToXYZICloud input⟩)))
      rw [funext (CloudMap.held_takeOver _ _), CloudMap.held_insert] at hlists
      exact hlists
    case isFalse =>
      split
      · simpa [buffers, Buffers.store, publishedParts] using hstore
      · simpa [buffers, Buffers.store, publishedParts] using hstore

theorem receive_shift (event : Event C T) : Shift (buffers state) (received settings state event)
      (publishedParts (receive settings state event).2)
      (buffers (receive settings state event).1) := by
  cases event with
  | cloud topicName input => exact cloudCallback_shift settings input topicName state
  | twist queue => exact .keep (buffers state)
  | timerFires => exact .keep (buffers state)
  | timerLocks => exact publish_shift settings _
  | timerIsBusy => exact .keep (buffers state)

theorem cloudCallback_arrivals (input : C) (topicName : String) (state : State K C T) :
    (cloudCallback settings input topicName state).1.arrivals = state.arrivals + 1 := by
  unfold cloudCallback
  dsimp only
  split
  · rfl
  · split
    · rfl
    · split <;> rfl

theorem receive_arrivals (event : Event C T) : (receive settings state event).1.arrivals =
      state.arrivals + (received settings state event).toList.length := by
  cases event with
  | cloud topicName input => exact cloudCallback_arrivals settings input topicName state
  | twist queue => rfl
  | timerFires => rfl
  | timerLocks => rfl
  | timerIsBusy => rfl

theorem receive_wellFormed (event : Event C T) :
    ∀ publication ∈ (receive settings state event).2, publication.WellFormed := by
  cases event with
  | cloud topicName input =>
    unfold receive cloudCallback
    dsimp only
    split
    · simp
    · split
      · exact publish_wellFormed settings _
      · split <;> simp
  | twist queue => simp [receive]
  | timerFires => simp [receive]
  | timerLocks => exact publish_wellFormed settings _
  | timerIsBusy => simp [receive]

theorem eq_nil_of_publishedParts {outputs : List (Publication C)}
    (hwellFormed : ∀ publication ∈ outputs, publication.WellFormed)
    (hparts : publishedParts outputs = []) : outputs = [] := by
  cases outputs with
  | nil => rfl
  | cons publication rest =>
    have hne := (hwellFormed publication List.mem_cons_self).ne_nil
    rw [publishedParts, List.flatMap_cons, List.append_eq_nil_iff] at hparts
    exact absurd hparts.1 hne

/-- A waiting cloud is published by the timer: it is armed, or its callback is on the way. -/
def Armed : Prop :=
  CloudMap.anyHeld state.cloudStdmapTmp = true → state.timer.armed = true ∨ 0 < state.timerCallbacks

theorem anyHeld_clear (map : CloudMap C) : ¬ CloudMap.anyHeld (CloudMap.clear map) = true := by
  rw [CloudMap.anyHeld_iff, CloudMap.held_clear]
  rintro ⟨topicName, cloud, hnone⟩
  cases hnone

omit [Field K] in
theorem publish_armed : Armed (publish settings state).1 :=
  fun hany => absurd hany (anyHeld_clear _)

theorem cloudCallback_armed (input : C) (topicName : String) {state : State K C T}
    (harmed : Armed state) : Armed (cloudCallback settings input topicName state).1 := by
  unfold cloudCallback
  dsimp only
  split
  case isTrue htaken =>
    intro _
    cases hany : CloudMap.anyHeld state.cloudStdmapTmp with
    | true => exact harmed hany
    | false => exact Or.inl rfl
  case isFalse hfree =>
    split
    case isTrue => exact publish_armed settings _
    case isFalse =>
      split
      · exact fun _ => Or.inl rfl
      · exact harmed

theorem receive_armed {state : State K C T} (harmed : Armed state) (event : Event C T) :
    Armed (receive settings state event).1 := by
  cases event with
  | cloud topicName input => exact cloudCallback_armed settings input topicName harmed
  | twist queue => exact harmed
  | timerFires => exact fun _ => Or.inr (Nat.succ_pos _)
  | timerLocks => exact publish_armed settings _
  | timerIsBusy => exact fun _ => Or.inl rfl

end

/-! ## Runs -/

section

variable {K C T : Type} (settings : Settings K C T)

/-- An event and what is published on it. -/
abbrev Label (C T : Type) := Event C T × List (Publication C)

variable (labels : List (Label C T))

/-- The clouds that arrive, with their topics. -/
def receptions : List (String × C) :=
  labels.filterMap fun label => reception label.1

def published : List (String × Cloud C) :=
  labels.flatMap fun label => publishedParts label.2

def lastPublication : Nat :=
  (receptions (labels.reverse.dropWhile fun label => label.2.isEmpty).reverse).length

theorem lastPublication_concat (label : Label C T) : lastPublication (labels ++ [label]) =
      if label.2 = [] then lastPublication labels
      else (receptions (labels ++ [label])).length := by
  unfold lastPublication
  rw [List.reverse_append, List.reverse_singleton, List.singleton_append, List.dropWhile_cons]
  cases houtputs : label.2 with
  | nil => simp
  | cons publication rest => simp

/-- The cloud is the one that arrived as its number says. -/
def Genuine (part : String × Cloud C) : Prop :=
  ∃ input, (receptions labels)[part.2.arrival]? = some (part.1, input) ∧
    part.2.content = settings.convertToXYZICloud input

/-- What holds after a run. -/
structure Invariant (labels : List (Label C T)) (state : State K C T) : Prop where
  ordered : Ordered Cloud.arrival (receptions labels).length (lastPublication labels)
    (buffers state) (published labels)
  arrivals : state.arrivals = (receptions labels).length
  publishedGenuine : ∀ part ∈ published labels, Genuine settings labels part
  heldGenuine : ∀ topicName cloud, (buffers state).Held topicName cloud →
    Genuine settings labels (topicName, cloud)
  wellFormed : ∀ label ∈ labels, ∀ publication ∈ label.2, publication.WellFormed
  armed : Armed state

theorem receptions_concat (labels : List (Label C T)) (label : Label C T) :
    receptions (labels ++ [label]) = receptions labels ++ (reception label.1).toList := by
  unfold receptions
  rw [List.filterMap_append]
  cases hreception : reception label.1 <;> simp [hreception]

theorem published_concat (labels : List (Label C T)) (label : Label C T) :
    published (labels ++ [label]) = published labels ++ publishedParts label.2 := by
  simp [published]

variable {settings} {labels : List (Label C T)}

theorem Genuine.concat {part : String × Cloud C}
    (hgenuine : Genuine settings labels part) (label : Label C T) :
    Genuine settings (labels ++ [label]) part := by
  obtain ⟨input, hinput, hcontent⟩ := hgenuine
  have hlt := (List.getElem?_eq_some_iff.mp hinput).1
  refine ⟨input, ?_, hcontent⟩
  rw [receptions_concat, List.getElem?_append_left hlt, hinput]

variable {state : State K C T}

theorem received_arrival (settings : Settings K C T)
    (harrivals : state.arrivals = (receptions labels).length) (label : Label C T) :
    ∀ part ∈ received settings state label.1, part.2.arrival = (receptions labels).length := by
  intro part hpart
  obtain ⟨arrived, -, rfl⟩ := Option.map_eq_some_iff.mp hpart
  exact harrivals

theorem genuine_of_received
    (harrivals : state.arrivals = (receptions labels).length) {label : Label C T}
    {part : String × Cloud C} (hreceived : received settings state label.1 = some part) :
    Genuine settings (labels ++ [label]) part := by
  unfold received at hreceived
  obtain ⟨arrived, harrived, rfl⟩ := Option.map_eq_some_iff.mp hreceived
  refine ⟨arrived.2, ?_, rfl⟩
  rw [receptions_concat, harrived, harrivals]
  simp

theorem start_buffers (twists : T) :
    buffers (start settings twists) = ⟨fun _ => none, fun _ => none⟩ := by
  have hheld : ∀ (topics : List String) (map : CloudMap C), CloudMap.held map = (fun _ => none) →
      CloudMap.held (topics.foldl (fun map topic => map.insert topic none) map) =
        fun _ => none := by
    intro topics
    induction topics with
    | nil => exact fun map hmap => hmap
    | cons topic rest ih =>
      intro map hmap
      refine ih _ (funext fun other => ?_)
      unfold CloudMap.held
      rw [getElem?_insert]
      split
      · rfl
      · exact congrFun hmap other
  have hstart := hheld settings.inputTopics ∅ (funext fun topic => by simp [CloudMap.held])
  unfold buffers start
  simp only [hstart]

theorem start_invariant (twists : T) : Invariant settings [] (start settings twists) where
  ordered := by
    rw [start_buffers]
    exact Ordered.empty Cloud.arrival
  arrivals := rfl
  publishedGenuine part hpart := by cases hpart
  heldGenuine topicName cloud hheld := by
    rw [start_buffers] at hheld
    rcases hheld with hnone | hnone <;> cases hnone
  wellFormed label hlabel := by cases hlabel
  armed _ := Or.inl rfl

variable (settings)

/-- Every cloud is published once at most, one of each topic in a message, and those of a
topic in the order of their arrival; a cloud that waits is published by the timer. -/
structure Accounts (labels : List (Label C T)) (state : State K C T) : Prop where
  once : ((published labels).map fun part => part.2.arrival).Nodup
  perTopic : ∀ label ∈ labels, ∀ publication ∈ label.2, (publication.parts.map Prod.fst).Nodup
  inOrder : (published labels).Pairwise fun earlier later =>
    earlier.1 = later.1 → earlier.2.arrival < later.2.arrival
  genuine : ∀ part ∈ published labels, Genuine settings labels part
  armed : state.timerCallbacks = 0 → CloudMap.anyHeld state.cloudStdmapTmp = true →
    state.timer.armed = true

variable {settings}

theorem Invariant.accounts
    (hinvariant : Invariant settings labels state) : Accounts settings labels state := by
  constructor
  · rw [List.Nodup, List.pairwise_map]
    refine hinvariant.ordered.sorted.imp_of_mem ?_
    intro earlier later hearlier hlater hsorted harrival
    obtain ⟨input, hinput, -⟩ := hinvariant.publishedGenuine earlier hearlier
    obtain ⟨other, hother, -⟩ := hinvariant.publishedGenuine later hlater
    rw [harrival, hother, Option.some.injEq, Prod.mk.injEq] at hinput
    have hlt := hsorted hinput.1.symm
    omega
  · intro label hlabel publication hpublication
    exact (hinvariant.wellFormed label hlabel publication hpublication).nodup
  · exact hinvariant.ordered.sorted
  · exact hinvariant.publishedGenuine
  · intro hidle hany
    rcases hinvariant.armed hany with harmed | hpending
    · exact harmed
    · omega

variable [Field K]

def Step (settings : Settings K C T) : State K C T → Label C T → State K C T → Prop :=
  Guarded (OfFunction (receive settings)) fun before label _ => Enabled before label.1

theorem Invariant.step {before after : State K C T}
    {label : Label C T} (hinvariant : Invariant settings labels before)
    (hstep : Step settings before label after) : Invariant settings (labels ++ [label]) after := by
  obtain ⟨hnext, -⟩ := hstep
  have houtputs : (receive settings before label.1).2 = label.2 := congrArg Prod.snd hnext
  have hafter : (receive settings before label.1).1 = after := congrArg Prod.fst hnext
  have hshift := receive_shift settings before label.1
  have hrank := received_arrival settings hinvariant.arrivals label
  have hcount : (receptions (labels ++ [label])).length =
      (receptions labels).length + (received settings before label.1).toList.length := by
    rw [receptions_concat, List.length_append, received]
    cases reception label.1 <;> rfl
  have hwellFormed := receive_wellFormed settings before label.1
  rw [houtputs] at hwellFormed
  rw [houtputs, hafter] at hshift
  constructor
  · rw [hcount, published_concat]
    refine hinvariant.ordered.shift hshift hrank ?_ fun hparts => ?_
    · rw [lastPublication_concat, ← hcount]
      split
      · have hlast := hinvariant.ordered.last_le
        omega
      · exact Nat.le_refl _
    · rw [lastPublication_concat, if_pos (eq_nil_of_publishedParts hwellFormed hparts)]
  · rw [← hafter, receive_arrivals, hinvariant.arrivals, hcount]
  · intro part hpart
    rw [published_concat, List.mem_append] at hpart
    rcases hpart with hold | hnew
    · exact (hinvariant.publishedGenuine part hold).concat label
    · rcases hshift.entry_before hnew with hheld | hreceived
      · exact (hinvariant.heldGenuine _ _ hheld).concat label
      · exact genuine_of_received hinvariant.arrivals hreceived
  · intro topicName cloud hheld
    rcases hshift.held_before hheld with hold | hreceived
    · exact (hinvariant.heldGenuine _ _ hold).concat label
    · exact genuine_of_received hinvariant.arrivals hreceived
  · intro other hother
    rcases List.mem_append.mp hother with hold | hnew
    · exact hinvariant.wellFormed other hold
    · rw [List.mem_singleton.mp hnew]
      exact hwellFormed
  · rw [← hafter]
    exact receive_armed settings hinvariant.armed label.1

theorem invariant_of_run {twists : T}
    (hrun : Run (Step settings) (start settings twists) labels state) :
    Invariant settings labels state := by
  refine hrun.induction_last (motive := fun labels state => Invariant settings labels state)
    (start_invariant twists) ?_
  intro earlier before label after _ hinvariant hstep
  exact hinvariant.step hstep

/-- After every run and one more step: the clouds are accounted for, and each cloud that was
held or arrives with the step is held on, or published by it, or a newer cloud of its topic
has arrived since the last publication before the step. -/
theorem accounts_of_run {twists : T} {labels : List (Label C T)} {before after : State K C T}
    {label : Label C T} (hrun : Run (Step settings) (start settings twists) labels before)
    (hstep : Step settings before label after) :
    Accounts settings (labels ++ [label]) after ∧ ∀ topicName cloud,
        (buffers before).Held topicName cloud ∨
            received settings before label.1 = some (topicName, cloud) →
          (buffers after).Held topicName cloud ∨
          (topicName, cloud) ∈ publishedParts label.2 ∨
          ∃ newer : Cloud C, cloud.arrival < newer.arrival ∧
            lastPublication labels ≤ newer.arrival ∧
            Genuine settings (labels ++ [label]) (topicName, newer) := by
  have hinvariant := invariant_of_run hrun
  refine ⟨(hinvariant.step hstep).accounts, fun topicName cloud hcloud => ?_⟩
  have hshift := receive_shift settings before label.1
  rw [hstep.1] at hshift
  rcases hinvariant.ordered.shift_fate hshift
    (received_arrival settings hinvariant.arrivals label) hcloud with hheld | hpublished | hnewer
  · exact Or.inl hheld
  · exact Or.inr (Or.inl hpublished)
  · obtain ⟨newer, hlt, hlast, hnext | hreceived⟩ := hnewer
    · have hgenuine := hinvariant.heldGenuine topicName newer (Or.inr hnext)
      exact Or.inr (Or.inr ⟨newer, hlt, hlast, hgenuine.concat label⟩)
    · have hgenuine := genuine_of_received hinvariant.arrivals hreceived
      exact Or.inr (Or.inr ⟨newer, hlt, hlast, hgenuine⟩)

end

def twoTopics : Settings ℚ Nat Unit where
  inputTopics := ["left", "right"]
  timeoutSec := 1 / 10
  offsetMap := ∅
  convertToXYZICloud input := input
  transformPointCloud content := some content
  combineClouds _ first second := first + second
  emptyCloud := 0

instance decidableEnabled (state : State ℚ Nat Unit) (event : Event Nat Unit) :
    Decidable (Enabled state event) :=
  match event with
  | .cloud _ _ => .isTrue trivial
  | .twist _ => .isTrue trivial
  | .timerFires => .isTrue trivial
  | .timerLocks => inferInstanceAs (Decidable (_ < _))
  | .timerIsBusy => inferInstanceAs (Decidable (_ < _))

/-- Two clouds of one topic, a time-out, a third one, and then one of the other topic. -/
def lateRight : List (Event Nat Unit) :=
  [.cloud "left" 10, .cloud "left" 20, .timerFires, .timerLocks, .cloud "left" 30,
    .cloud "right" 40]

def lateRightRun : List (Label Nat Unit) × State ℚ Nat Unit :=
  execute (receive twoTopics) (start twoTopics ()) lateRight

theorem lateRight_run : Run (Step twoTopics) (start twoTopics ()) lateRightRun.1 lateRightRun.2 :=
  (run_execute_iff (receive twoTopics)).mpr (by decide +kernel)

example : lateRightRun.1.map (fun label => publishedParts label.2) =
    [[], [], [], [("left", ⟨0, 10⟩)], [], [("left", ⟨2, 30⟩), ("right", ⟨3, 40⟩)]] := by
  decide +kernel

/-- The second cloud is dropped although it is the newest one at the next publication. -/
theorem waiting_cloud_dropped :
    ∃ labels state, Run (Step twoTopics) (start twoTopics ()) labels state ∧
      (∃ earlier publishing later, labels = earlier ++ publishing :: later ∧
        (∀ label ∈ earlier, label.2 = []) ∧ publishing.2 ≠ [] ∧
        receptions earlier = [("left", 10), ("left", 20)]) ∧
      (∀ part ∈ published labels, part.2.arrival ≠ 1) ∧
      ∀ topicName cloud, ¬ (buffers state).Held topicName cloud := by
  refine ⟨lateRightRun.1, lateRightRun.2, lateRight_run,
    ⟨lateRightRun.1.take 3, (.timerLocks, [⟨[("left", ⟨0, 10⟩)], 10⟩]), lateRightRun.1.drop 4,
      by decide +kernel, by decide +kernel, List.cons_ne_nil _ _, by decide +kernel⟩,
    by decide +kernel, ?_⟩
  have hcurrent : ¬ CloudMap.anyHeld lateRightRun.2.cloudStdmap = true := by decide +kernel
  have hnext : ¬ CloudMap.anyHeld lateRightRun.2.cloudStdmapTmp = true := by decide +kernel
  rw [CloudMap.anyHeld_iff] at hcurrent hnext
  rintro topicName cloud (hheld | hheld)
  · exact hcurrent ⟨topicName, cloud, hheld⟩
  · exact hnext ⟨topicName, cloud, hheld⟩

/-- The step that drops it: the third cloud has arrived since the publication. -/
theorem lateRight_accounts :
    let run := execute (receive twoTopics) (start twoTopics ()) (lateRight.take 5)
    let last := receive twoTopics run.2 (.cloud "right" 40)
    Accounts twoTopics (run.1 ++ [(.cloud "right" 40, last.2)]) last.1 ∧
      ((buffers last.1).Held "left" ⟨1, 20⟩ ∨ ("left", ⟨1, 20⟩) ∈ publishedParts last.2 ∨
        ∃ newer : Cloud Nat, 1 < newer.arrival ∧ lastPublication run.1 ≤ newer.arrival ∧
          Genuine twoTopics (run.1 ++ [(.cloud "right" 40, last.2)]) ("left", newer)) := by
  intro run last
  have hrun : Run (Step twoTopics) (start twoTopics ()) run.1 run.2 :=
    (run_execute_iff (receive twoTopics)).mpr (by decide +kernel)
  have hstep : Step twoTopics run.2 (.cloud "right" 40, last.2) last.1 := ⟨rfl, trivial⟩
  obtain ⟨haccounts, hfate⟩ := accounts_of_run hrun hstep
  exact ⟨haccounts, hfate "left" ⟨1, 20⟩ (Or.inl (Or.inl (by decide +kernel)))⟩

end AutowareUniverse.Sensing.ConcatenateData
