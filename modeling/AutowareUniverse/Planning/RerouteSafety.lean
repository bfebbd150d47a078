import AutowareUniverse.Library.Fallible
import AutowareUniverse.Library.Numerals
import Mathlib.Tactic.Linarith

/-!
# Whether a new route may replace the current one

The vehicle needs enough of the road ahead to be part of both routes.  The
sections of the routes are compared, and the lengths of the shared ones are
summed up.  The functions of the lanelet map are parameters.
-/

namespace AutowareUniverse.Planning.RerouteSafety

open Library.Fallible

inductive Error where
  | outOfRange
  | noSuchPrimitive (id : ℤ)
  deriving DecidableEq

/-- `LaneletSegment`, with the ids of its primitives. -/
structure LaneletSegment where
  primitives : List ℤ
  deriving DecidableEq

structure LaneletRoute (Pose : Type) where
  segments : List LaneletSegment
  startPose : Pose

structure LaneletMap (Lanelet Pose K : Type) where
  /-- `laneletLayer.get`, which throws for an id that is not on the map. -/
  get : ℤ → Option Lanelet
  getClosestLanelet : List Lanelet → Pose → Option Lanelet
  /-- The length of `toArcCoordinates` of a pose on the centerline of a lanelet. -/
  arcLength : Lanelet → Pose → K
  getLaneletLength2d : Lanelet → K

structure MissionPlanner (Lanelet Pose K : Type) where
  map : Option (LaneletMap Lanelet Pose K)
  /-- The longitudinal velocity of the odometry. -/
  odometry : Option K
  rerouteTimeThreshold : K

def hasSamePrimitives (originalPrimitives targetPrimitives : List ℤ) : Bool :=
  if originalPrimitives.length ≠ targetPrimitives.length then false
  else
    originalPrimitives.foldl (fun _ primitive => decide (primitive ∈ targetPrimitives)) false

/-- The first section of the original route that matches, or the number of sections. -/
def findStartIdx (originalSegments : List LaneletSegment) (targetFront : LaneletSegment) : ℕ :=
  originalSegments.findIdx fun segment =>
    hasSamePrimitives segment.primitives targetFront.primitives

/-- The loop over the sections of the target route behind the first. -/
def findEndIdx (originalSegments : List LaneletSegment) (startIdx : ℕ) : ℕ → List LaneletSegment → ℕ
  | _, [] => startIdx
  | i, targetSegment :: rest =>
    match originalSegments[startIdx + i]? with
    | none => startIdx
    | some originalSegment =>
      if hasSamePrimitives originalSegment.primitives targetSegment.primitives then
        findEndIdx originalSegments startIdx (i + 1) rest
      else startIdx + i + 1

/-- `segments.at(idx)`. -/
def segmentAt (segments : List LaneletSegment) (idx : ℕ) : Except Error LaneletSegment :=
  match segments[idx]? with
  | some segment => return segment
  | none => throw .outOfRange

/-- `*std::min_element`; the vectors it is called with are not empty. -/
def minElement {K : Type} [Zero K] [Min K] : List K → K
  | [] => 0
  | first :: rest => rest.foldl min first

section

variable {Lanelet Pose K : Type} [Field K] [LinearOrder K]

namespace LaneletMap

variable (map : LaneletMap Lanelet Pose K)

def laneletAt (id : ℤ) : Except Error Lanelet :=
  match map.get id with
  | some lanelet => return lanelet
  | none => throw (.noSuchPrimitive id)

def getLanelets : List ℤ → Except Error (List Lanelet)
  | [] => return []
  | id :: rest => do
    let lanelet ← map.laneletAt id
    let lanelets ← getLanelets rest
    return lanelet :: lanelets

/-- The lengths of a section, pushed behind as many zeros. -/
def laneletsLength (primitives : List ℤ) : Except Error (List K) := do
  let lanelets ← map.getLanelets primitives
  return List.replicate primitives.length 0 ++ lanelets.map map.getLaneletLength2d

/-- The loop over the following sections. -/
def accumulate (segments : List LaneletSegment) : List ℕ → K → Except Error K
  | [], accumulatedLength => return accumulatedLength
  | i :: rest, accumulatedLength => do
    let segment ← segmentAt segments i
    if segment.primitives.isEmpty then
      return accumulatedLength
    else
      let lengths ← map.laneletsLength segment.primitives
      accumulate segments rest (accumulatedLength + minElement lengths)

end LaneletMap

/-- `checkRerouteSafety`, with the map and the odometry received. -/
def checkLength (map : LaneletMap Lanelet Pose K) (requiredLength : K)
    (originalSegments : List LaneletSegment) (targetRoute : LaneletRoute Pose)
    (targetFront : LaneletSegment) : Except Error Bool := do
  let startIdx := findStartIdx originalSegments targetFront
  let endIdx := findEndIdx originalSegments startIdx 1 targetRoute.segments.tail
  let currentPose := targetRoute.startPose
  let startSegment ← segmentAt originalSegments startIdx
  let startLanelets ← map.getLanelets startSegment.primitives
  match map.getClosestLanelet startLanelets currentPose with
  | none => return false
  | some closestLanelet =>
    let distToCurrentPose := map.arcLength closestLanelet currentPose
    let laneletLength := map.getLaneletLength2d closestLanelet
    let accumulatedLength ← map.accumulate originalSegments
      (List.range' (startIdx + 1) (endIdx - (startIdx + 1))) (laneletLength - distToCurrentPose)
    return decide (requiredLength < accumulatedLength)

def checkRerouteSafety (self : MissionPlanner Lanelet Pose K)
    (originalRoute targetRoute : LaneletRoute Pose) : Except Error Bool :=
  match originalRoute.segments, targetRoute.segments.head?, self.map, self.odometry with
  | _ :: _, some targetFront, some map, some currentVelocity =>
    checkLength map (currentVelocity * self.rerouteTimeThreshold) originalRoute.segments
      targetRoute targetFront
  | _, _, _, _ => return false

end

/-! ## The length that both routes share -/

def SameSection (first second : LaneletSegment) : Prop :=
  first.primitives ⊆ second.primitives ∧ second.primitives ⊆ first.primitives

instance : DecidableRel SameSection := fun _ _ => inferInstanceAs (Decidable (_ ∧ _))

def samePrefix : List LaneletSegment → List LaneletSegment → List LaneletSegment
  | first :: rest, second :: others =>
    if SameSection first second then first :: samePrefix rest others else []
  | _, _ => []

def sharedSegments (originalSegments targetSegments : List LaneletSegment) :
    List LaneletSegment :=
  samePrefix (originalSegments.dropWhile fun segment =>
    (targetSegments.head?).all fun front => ¬ SameSection segment front) targetSegments

section

variable {Lanelet Pose K : Type} [Field K] [LinearOrder K]

namespace LaneletMap

variable (map : LaneletMap Lanelet Pose K)

def OnMap (primitives : List ℤ) : Prop :=
  ∀ id ∈ primitives, (map.get id).isSome = true

instance (primitives : List ℤ) : Decidable (map.OnMap primitives) :=
  inferInstanceAs (Decidable (∀ id ∈ primitives, _))

def lanelets (primitives : List ℤ) : List Lanelet := primitives.filterMap map.get

def shortest (segment : LaneletSegment) : K :=
  minElement ((map.lanelets segment.primitives).map map.getLaneletLength2d)

def lengthLeft (segment : LaneletSegment) (pose : Pose) : Option K :=
  (map.getClosestLanelet (map.lanelets segment.primitives) pose).map fun lanelet =>
    map.getLaneletLength2d lanelet - map.arcLength lanelet pose

def sharedLength (originalSegments : List LaneletSegment) (targetRoute : LaneletRoute Pose) :
    Option K :=
  match sharedSegments originalSegments targetRoute.segments with
  | [] => none
  | current :: following =>
    if ∀ segment ∈ current :: following, map.OnMap segment.primitives then
      (map.lengthLeft current targetRoute.startPose).map fun length =>
        length + (following.map map.shortest).sum
    else none

/-- What the functions of the map are documented to return. -/
structure Documented : Prop where
  length_nonneg : ∀ lanelet, 0 ≤ map.getLaneletLength2d lanelet
  closest_mem : ∀ lanelets pose, lanelets ≠ [] →
    ∃ lanelet ∈ lanelets, map.getClosestLanelet lanelets pose = some lanelet

end LaneletMap

variable (self : MissionPlanner Lanelet Pose K)

/-- The shared length exceeds the one the vehicle passes in the threshold time. -/
def IsSafe (originalRoute targetRoute : LaneletRoute Pose) :
    Prop :=
  ∃ map currentVelocity length, self.map = some map ∧ self.odometry = some currentVelocity ∧
    map.sharedLength originalRoute.segments targetRoute = some length ∧
    currentVelocity * self.rerouteTimeThreshold < length

/-- The check does not throw, and it is passed exactly if the shared length suffices. -/
def DecidesSafety (originalRoute targetRoute : LaneletRoute Pose) : Prop :=
  ∃ result, checkRerouteSafety self originalRoute targetRoute = .ok result ∧
    (result = true ↔ IsSafe self originalRoute targetRoute)

/-! ## What is compared -/

/-- The sections up to the first one that fails the comparison, if there is one. -/
def upToDifference : List LaneletSegment → List LaneletSegment → Option (List LaneletSegment)
  | first :: rest, second :: others =>
    if hasSamePrimitives first.primitives second.primitives then
      (upToDifference rest others).map (first :: ·)
    else some [first]
  | _, _ => none

structure IsFirstMatch (originalSegments : List LaneletSegment) (targetFront : LaneletSegment)
    (idx : ℕ) (segment : LaneletSegment) : Prop where
  segment_at : originalSegments[idx]? = some segment
  passes : hasSamePrimitives segment.primitives targetFront.primitives = true
  first : ∀ k other, k < idx → originalSegments[k]? = some other →
    hasSamePrimitives other.primitives targetFront.primitives = false

/-- The sections behind the first match whose lanelets are asked for. -/
def comparedSegments (originalSegments targetSegments : List LaneletSegment) (idx : ℕ) :
    List LaneletSegment :=
  ((upToDifference (originalSegments.drop (idx + 1)) targetSegments.tail).getD []).takeWhile
    fun segment => !segment.primitives.isEmpty

def DecidedByCurrent (map : LaneletMap Lanelet Pose K)
    (currentVelocity : K) (originalRoute targetRoute : LaneletRoute Pose) : Prop :=
  ∃ targetFront idx segment length, targetRoute.segments.head? = some targetFront ∧
    IsFirstMatch originalRoute.segments targetFront idx segment ∧
    map.OnMap segment.primitives ∧
    (∀ other ∈ comparedSegments originalRoute.segments targetRoute.segments idx,
      map.OnMap other.primitives) ∧
    map.lengthLeft segment targetRoute.startPose = some length ∧
    (currentVelocity * self.rerouteTimeThreshold < length ↔ IsSafe self originalRoute targetRoute)

theorem exists_mem_of_hasSamePrimitives {first second : List ℤ}
    (hsame : hasSamePrimitives first second = true) : first ≠ [] := by
  rintro rfl
  rw [hasSamePrimitives] at hsame
  split at hsame
  · cases hsame
  · cases hsame

/-- The index found is that of the first match, or the number of sections. -/
theorem findStartIdx_cases (originalSegments : List LaneletSegment) (targetFront : LaneletSegment) :
    (∃ segment, IsFirstMatch originalSegments targetFront
      (findStartIdx originalSegments targetFront) segment) ∨
    originalSegments[findStartIdx originalSegments targetFront]? = none := by
  cases hsegment : originalSegments[findStartIdx originalSegments targetFront]? with
  | none => exact .inr rfl
  | some segment =>
    refine .inl ⟨segment, hsegment, ?_, fun k other hlt hother => ?_⟩
    · obtain ⟨hlt, rfl⟩ := List.getElem?_eq_some_iff.mp hsegment
      exact List.findIdx_getElem (p := fun segment : LaneletSegment =>
        hasSamePrimitives segment.primitives targetFront.primitives) (w := hlt)
    · obtain ⟨hk, rfl⟩ := List.getElem?_eq_some_iff.mp hother
      exact Bool.not_eq_true _ ▸ List.not_of_lt_findIdx hlt

theorem IsFirstMatch.findStartIdx_eq {originalSegments : List LaneletSegment}
    {targetFront segment : LaneletSegment} {idx : ℕ}
    (hmatch : IsFirstMatch originalSegments targetFront idx segment) :
    findStartIdx originalSegments targetFront = idx := by
  obtain ⟨hlt, hsegment⟩ := List.getElem?_eq_some_iff.mp hmatch.segment_at
  refine (List.findIdx_eq hlt).mpr ⟨?_, fun k hk => ?_⟩
  · rw [hsegment]
    exact hmatch.passes
  · exact hmatch.first k _ hk (List.getElem?_eq_getElem (hk.trans hlt))

theorem findEndIdx_eq (originalSegments : List LaneletSegment) (startIdx i : ℕ)
    (targetSegments : List LaneletSegment) :
    findEndIdx originalSegments startIdx i targetSegments =
      match upToDifference (originalSegments.drop (startIdx + i)) targetSegments with
      | none => startIdx
      | some segments => startIdx + i + segments.length := by
  induction targetSegments generalizing i with
  | nil =>
    cases originalSegments.drop (startIdx + i) with
    | nil => rfl
    | cons _ _ => rfl
  | cons targetSegment rest ih =>
    rw [findEndIdx]
    cases hsegment : originalSegments[startIdx + i]? with
    | none =>
      rw [List.drop_eq_nil_of_le (List.getElem?_eq_none_iff.mp hsegment)]
      rfl
    | some segment =>
      obtain ⟨hlt, rfl⟩ := List.getElem?_eq_some_iff.mp hsegment
      rw [List.drop_eq_getElem_cons hlt, upToDifference, ih]
      by_cases hsame : hasSamePrimitives originalSegments[startIdx + i].primitives
          targetSegment.primitives = true
      · simp only [hsame, if_true, Nat.add_assoc]
        cases upToDifference (originalSegments.drop (startIdx + (i + 1))) rest with
        | none => rfl
        | some segments => simp [Nat.add_comm 1]
      · simp only [hsame, if_false, Bool.false_eq_true]
        rfl

theorem upToDifference_take {originalSegments targetSegments segments : List LaneletSegment}
    (hdifference : upToDifference originalSegments targetSegments = some segments) :
    originalSegments.take segments.length = segments := by
  fun_induction upToDifference originalSegments targetSegments generalizing segments with
  | case1 first rest second others hsame ih =>
    obtain ⟨more, hmore, rfl⟩ := Option.map_eq_some_iff.mp hdifference
    rw [List.length_cons, List.take_succ_cons, ih hmore]
  | case2 first rest second others hsame =>
    rw [← Option.some.inj hdifference]
    rfl
  | case3 => cases hdifference

theorem followed_sections (originalSegments targetSegments : List LaneletSegment) (startIdx : ℕ) :
    ((originalSegments.drop (startIdx + 1)).take
      (findEndIdx originalSegments startIdx 1 targetSegments - (startIdx + 1))) =
    (upToDifference (originalSegments.drop (startIdx + 1)) targetSegments).getD [] := by
  rw [findEndIdx_eq]
  cases hdifference : upToDifference (originalSegments.drop (startIdx + 1)) targetSegments with
  | none => simp
  | some segments =>
    simp only [Nat.add_sub_cancel_left, Option.getD_some]
    exact upToDifference_take hdifference

theorem findEndIdx_le (originalSegments targetSegments : List LaneletSegment) (startIdx : ℕ)
    (hstart : startIdx < originalSegments.length) :
    findEndIdx originalSegments startIdx 1 targetSegments ≤ originalSegments.length := by
  rw [findEndIdx_eq]
  cases hdifference : upToDifference (originalSegments.drop (startIdx + 1)) targetSegments with
  | none => exact hstart.le
  | some segments =>
    have hlength := congrArg List.length (upToDifference_take hdifference)
    rw [List.length_take, List.length_drop] at hlength
    change startIdx + 1 + segments.length ≤ _
    have hle : segments.length ≤ originalSegments.length - (startIdx + 1) := by
      rw [← hlength]
      exact min_le_right _ _
    omega

variable {map : LaneletMap Lanelet Pose K}

namespace LaneletMap

section
omit [Field K] [LinearOrder K]

theorem getLanelets_eq (primitives : List ℤ) (honMap : map.OnMap primitives) :
    map.getLanelets primitives = .ok (map.lanelets primitives) := by
  induction primitives with
  | nil => rfl
  | cons id rest ih =>
    obtain ⟨lanelet, hlanelet⟩ := Option.isSome_iff_exists.mp (honMap id (List.mem_cons_self ..))
    have hrest := ih fun other hother => honMap other (List.mem_cons_of_mem _ hother)
    have hlanelets : map.lanelets (id :: rest) = lanelet :: map.lanelets rest :=
      List.filterMap_cons_some hlanelet
    rw [getLanelets, laneletAt, hlanelet, hrest, hlanelets]
    rfl

theorem onMap_of_getLanelets {primitives : List ℤ} {found : List Lanelet}
    (hfound : map.getLanelets primitives = .ok found) : map.OnMap primitives := by
  induction primitives generalizing found with
  | nil => exact fun id hid => absurd hid List.not_mem_nil
  | cons id rest ih =>
    rw [getLanelets] at hfound
    obtain ⟨lanelet, hlanelet, hfound⟩ := bind_eq_ok.mp hfound
    obtain ⟨others, hothers, -⟩ := bind_eq_ok.mp hfound
    intro other hother
    rcases List.mem_cons.mp hother with rfl | hother
    · rw [laneletAt] at hlanelet
      cases hget : map.get other with
      | none =>
        rw [hget] at hlanelet
        cases hlanelet
      | some _ => rfl
    · exact ih hothers other hother

end

theorem minElement_zeros [IsStrictOrderedRing K] {lengths : List K}
    (hlengths : ∀ length ∈ lengths, 0 ≤ length) {n : ℕ} (hn : 0 < n) :
    minElement (List.replicate n 0 ++ lengths) = (0 : K) := by
  obtain ⟨n, rfl⟩ := Nat.exists_eq_succ_of_ne_zero hn.ne'
  have hmin : ∀ values : List K, (∀ value ∈ values, 0 ≤ value) → values.foldl min 0 = 0 := by
    intro values hvalues
    induction values with
    | nil => rfl
    | cons value rest ih =>
      rw [List.foldl_cons, min_eq_left (hvalues value (List.mem_cons_self ..))]
      exact ih fun other hother => hvalues other (List.mem_cons_of_mem _ hother)
  refine hmin _ fun value hvalue => ?_
  rcases List.mem_append.mp hvalue with hzero | hlength
  · exact (List.eq_of_mem_replicate hzero).ge
  · exact hlengths value hlength

omit [LinearOrder K] in
theorem laneletsLength_eq {primitives : List ℤ} (honMap : map.OnMap primitives) :
    map.laneletsLength primitives = .ok (List.replicate primitives.length 0 ++
      (map.lanelets primitives).map map.getLaneletLength2d) := by
  rw [laneletsLength, getLanelets_eq primitives honMap]
  rfl

/-- The following sections add nothing, and their lanelets have to be on the map. -/
theorem accumulate_eq_ok_iff [IsStrictOrderedRing K] (hdocumented : map.Documented)
    {segments : List LaneletSegment} {start count : ℕ} (hend : start + count ≤ segments.length)
    {length result : K} :
    map.accumulate segments (List.range' start count) length = .ok result ↔
      result = length ∧ ∀ segment ∈ ((segments.drop start).take count).takeWhile
        (fun segment => !segment.primitives.isEmpty), map.OnMap segment.primitives := by
  induction count generalizing start with
  | zero =>
    rw [List.take_zero, List.takeWhile_nil]
    exact ⟨fun hok => ⟨(Except.ok.inj hok).symm, fun _ hmem => absurd hmem List.not_mem_nil⟩,
      fun hsame => congrArg Except.ok hsame.1.symm⟩
  | succ count ih =>
    have hlt : start < segments.length := by omega
    rw [List.drop_eq_getElem_cons hlt, List.take_succ_cons, List.range'_succ, accumulate,
      segmentAt, List.getElem?_eq_getElem hlt]
    change (if segments[start].primitives.isEmpty then _ else _) = _ ↔ _
    by_cases hempty : segments[start].primitives.isEmpty = true
    · rw [if_pos hempty, List.takeWhile_cons_of_neg (by simpa using hempty)]
      exact ⟨fun hok => ⟨(Except.ok.inj hok).symm, fun _ hmem => absurd hmem List.not_mem_nil⟩,
        fun hsame => congrArg Except.ok hsame.1.symm⟩
    · rw [if_neg hempty, List.takeWhile_cons_of_pos (by simpa using hempty), List.forall_mem_cons]
      have hcount : 0 < segments[start].primitives.length :=
        List.length_pos_iff.mpr fun hnil => hempty (List.isEmpty_iff.mpr hnil)
      by_cases honMap : map.OnMap segments[start].primitives
      · rw [laneletsLength_eq honMap]
        change map.accumulate segments _ (length + minElement _) = _ ↔ _
        rw [minElement_zeros (fun value hvalue => ?_) hcount, add_zero, ih (by omega)]
        · exact and_congr_right fun _ => (and_iff_right honMap).symm
        · obtain ⟨lanelet, -, rfl⟩ := List.mem_map.mp hvalue
          exact hdocumented.length_nonneg lanelet
      · refine ⟨fun hok => ?_, fun hall => absurd hall.2.1 honMap⟩
        obtain ⟨lengths, hlengths, -⟩ := bind_eq_ok.mp hok
        obtain ⟨lanelets, hlanelets, -⟩ := bind_eq_ok.mp hlengths
        exact absurd (onMap_of_getLanelets hlanelets) honMap

end LaneletMap

/-! ## The decision -/

variable {self : MissionPlanner Lanelet Pose K} {originalRoute targetRoute : LaneletRoute Pose}

theorem checkLength_throws {requiredLength : K} {targetFront : LaneletSegment}
    (hnone : originalRoute.segments[findStartIdx originalRoute.segments targetFront]? = none) :
    checkLength map requiredLength originalRoute.segments targetRoute targetFront =
      .error .outOfRange := by
  rw [checkLength]
  simp only [segmentAt, hnone]
  rfl

theorem checkLength_eq_ok_iff [IsStrictOrderedRing K] (hdocumented : map.Documented)
    {requiredLength : K} {targetFront segment : LaneletSegment} {idx : ℕ} {result : Bool}
    (hmatch : IsFirstMatch originalRoute.segments targetFront idx segment) :
    checkLength map requiredLength originalRoute.segments targetRoute targetFront = .ok result ↔
      map.OnMap segment.primitives ∧
      (∀ other ∈ comparedSegments originalRoute.segments targetRoute.segments idx,
        map.OnMap other.primitives) ∧
      ∃ length, map.lengthLeft segment targetRoute.startPose = some length ∧
        result = decide (requiredLength < length) := by
  have hlt := (List.getElem?_eq_some_iff.mp hmatch.segment_at).1
  rw [checkLength, hmatch.findStartIdx_eq]
  simp only [segmentAt, hmatch.segment_at, pure_bind]
  by_cases honMap : map.OnMap segment.primitives
  · have hlanelets : map.lanelets segment.primitives ≠ [] := by
      obtain ⟨id, rest, hids⟩ := List.exists_cons_of_ne_nil
        (exists_mem_of_hasSamePrimitives hmatch.passes)
      rw [hids] at honMap ⊢
      obtain ⟨lanelet, hlanelet⟩ := Option.isSome_iff_exists.mp (honMap id (List.mem_cons_self ..))
      exact List.ne_nil_of_mem (List.mem_filterMap.mpr ⟨id, List.mem_cons_self .., hlanelet⟩)
    obtain ⟨closest, -, hclosest⟩ := hdocumented.closest_mem _ targetRoute.startPose hlanelets
    have hend := findEndIdx_le originalRoute.segments targetRoute.segments.tail idx hlt
    rw [map.getLanelets_eq _ honMap]
    change (match map.getClosestLanelet _ _ with | none => _ | some _ => _) = _ ↔ _
    rw [hclosest]
    constructor
    · intro hok
      obtain ⟨length, hlength, hresult⟩ := bind_eq_ok.mp hok
      obtain ⟨rfl, hcompared⟩ := (map.accumulate_eq_ok_iff hdocumented (by omega)).mp hlength
      rw [followed_sections] at hcompared
      refine ⟨honMap, hcompared, _, ?_, (Except.ok.inj hresult).symm⟩
      rw [LaneletMap.lengthLeft, hclosest]
      rfl
    · rintro ⟨-, hcompared, length, hlength, rfl⟩
      rw [LaneletMap.lengthLeft, hclosest] at hlength
      refine bind_eq_ok.mpr ⟨length, ?_, rfl⟩
      refine (map.accumulate_eq_ok_iff hdocumented (by omega)).mpr
        ⟨(Option.some.inj hlength).symm, ?_⟩
      rw [followed_sections]
      exact hcompared
  · refine ⟨fun hok => ?_, fun hall => absurd hall.1 honMap⟩
    obtain ⟨lanelets, hlanelets, -⟩ := bind_eq_ok.mp hok
    exact absurd (LaneletMap.onMap_of_getLanelets hlanelets) honMap

/-- The check decides the safety exactly if a section of the original route passes
for the front of the target, the lanelets that are asked for are on the map, and the
length left on the current lanelet alone decides. -/
theorem decidesSafety_iff [IsStrictOrderedRing K]
    (hdocumented : ∀ map, self.map = some map → map.Documented)
    (horiginal : originalRoute.segments ≠ []) (htarget : targetRoute.segments ≠ []) :
    DecidesSafety self originalRoute targetRoute ↔
      ∀ map currentVelocity, self.map = some map → self.odometry = some currentVelocity →
        DecidedByCurrent self map currentVelocity originalRoute targetRoute := by
  obtain ⟨first, rest, hfirst⟩ := List.exists_cons_of_ne_nil horiginal
  obtain ⟨targetFront, others, hfront⟩ := List.exists_cons_of_ne_nil htarget
  have hhead : targetRoute.segments.head? = some targetFront := by rw [hfront]; rfl
  cases hmap : self.map with
  | none =>
    refine ⟨fun _ => nofun, fun _ => ⟨false, ?_, nofun, fun hsafe => ?_⟩⟩
    · rw [checkRerouteSafety, hfirst, hhead, hmap]
      rfl
    · obtain ⟨map, _, _, hsome, -⟩ := hsafe
      cases hmap.symm.trans hsome
  | some map =>
    cases hodometry : self.odometry with
    | none =>
      refine ⟨fun _ => nofun, fun _ => ⟨false, ?_, nofun, fun hsafe => ?_⟩⟩
      · rw [checkRerouteSafety, hfirst, hhead, hmap, hodometry]
        rfl
      · obtain ⟨_, velocity, _, -, hsome, -⟩ := hsafe
        cases hodometry.symm.trans hsome
    | some currentVelocity =>
      have hcheck : checkRerouteSafety self originalRoute targetRoute =
          checkLength map (currentVelocity * self.rerouteTimeThreshold)
            originalRoute.segments targetRoute targetFront := by
        rw [checkRerouteSafety, hhead, hmap, hodometry, hfirst]
      have hdocumented := hdocumented map hmap
      constructor
      · rintro ⟨result, hresult, hsafe⟩ _ _ ⟨⟩ ⟨⟩
        rw [hcheck] at hresult
        rcases findStartIdx_cases originalRoute.segments targetFront with
          ⟨segment, hmatch⟩ | hnone
        · obtain ⟨honMap, hcompared, length, hlength, rfl⟩ :=
            (checkLength_eq_ok_iff hdocumented hmatch).mp hresult
          refine ⟨targetFront, _, segment, length, hhead, hmatch, honMap, hcompared, hlength, ?_⟩
          rw [← hsafe, decide_eq_true_iff]
        · rw [checkLength_throws hnone] at hresult
          cases hresult
      · intro hdecided
        obtain ⟨front, idx, segment, length, hfront', hmatch, honMap, hcompared, hlength,
          hdecides⟩ := hdecided map currentVelocity rfl rfl
        obtain rfl := Option.some.inj (hhead.symm.trans hfront')
        refine ⟨_, hcheck.trans ((checkLength_eq_ok_iff hdocumented hmatch).mpr
          ⟨honMap, hcompared, length, hlength, rfl⟩), ?_⟩
        rw [decide_eq_true_iff, hdecides]

end

/-- Lanelets with ids up to three, each ten meters long, of which two are behind the vehicle. -/
def threeLanelets : LaneletMap ℤ Unit ℚ where
  get := fun id => if 1 ≤ id ∧ id ≤ 3 then some id else none
  getClosestLanelet := fun lanelets _ => lanelets.head?
  arcLength := fun _ _ => 2
  getLaneletLength2d := fun _ => 10

theorem threeLanelets_documented : threeLanelets.Documented where
  length_nonneg := fun _ => Nat.cast_nonneg 10
  closest_mem := fun lanelets _ hne => by
    obtain ⟨first, rest, rfl⟩ := List.exists_cons_of_ne_nil hne
    exact ⟨first, List.mem_cons_self .., rfl⟩

def routeOver (ids : List ℤ) : LaneletRoute Unit :=
  ⟨ids.map fun id => ⟨[id]⟩, ()⟩

def drivingAt (currentVelocity : ℚ) : MissionPlanner ℤ Unit ℚ :=
  ⟨some threeLanelets, some currentVelocity, 10⟩

/-- The only shared section is the current one. -/
theorem decidesSafety_one_section :
    IsSafe (drivingAt (1 / 2)) (routeOver [1, 2]) (routeOver [2, 3]) ∧
      DecidesSafety (drivingAt (1 / 2)) (routeOver [1, 2]) (routeOver [2, 3]) := by
  have hsafe : IsSafe (drivingAt (1 / 2)) (routeOver [1, 2]) (routeOver [2, 3]) :=
    ⟨threeLanelets, 1 / 2, 8, rfl, rfl, by decide +kernel, by decide +kernel⟩
  refine ⟨hsafe, (decidesSafety_iff ?_ (by decide) (by decide)).mpr ?_⟩
  · rintro _ ⟨⟩
    exact threeLanelets_documented
  · rintro _ _ ⟨⟩ ⟨⟩
    refine ⟨⟨[2]⟩, 1, ⟨[2]⟩, 8, rfl, ⟨rfl, by decide, fun k other hk hother => ?_⟩, by decide,
      by decide, by decide +kernel, fun _ => hsafe, fun _ => by decide +kernel⟩
    obtain rfl : k = 0 := by omega
    obtain rfl := Option.some.inj hother
    decide

/-- The same route again: the sections behind the current one are not counted. -/
theorem decidesSafety_same_route :
    ¬ ∀ (self : MissionPlanner ℤ Unit ℚ) (originalRoute targetRoute : LaneletRoute Unit),
      (∀ map, self.map = some map → map.Documented) → originalRoute.segments ≠ [] →
      targetRoute.segments ≠ [] → DecidesSafety self originalRoute targetRoute := by
  intro hall
  obtain ⟨result, hresult, hsafe⟩ := hall (drivingAt 2) (routeOver [1, 2, 3])
    (routeOver [1, 2, 3]) (fun _ hmap => by cases hmap; exact threeLanelets_documented)
    (by decide) (by decide)
  have hfalse : checkRerouteSafety (drivingAt 2) (routeOver [1, 2, 3]) (routeOver [1, 2, 3]) =
      .ok false := by
    decide +kernel
  obtain rfl := Except.ok.inj (hfalse.symm.trans hresult)
  exact absurd (hsafe.mpr ⟨threeLanelets, 2, 28, rfl, rfl, by decide +kernel, by decide +kernel⟩)
    Bool.false_ne_true

end AutowareUniverse.Planning.RerouteSafety
