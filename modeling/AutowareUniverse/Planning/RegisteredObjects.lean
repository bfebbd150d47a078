import AutowareUniverse.Library.Runs
import AutowareUniverse.Common.ArcLengthInsertion

/-!
# Registered objects

Objects to avoid stay registered for some time after they were last detected.  Each
registered object is replaced by the detection with its id, or else by the first detection
near it; a detection whose id is not registered then is added.
-/

namespace AutowareUniverse.Planning.Avoidance

section

open Common.MotionUtils

structure ObjectData (I K O : Type) where
  objectId : I
  initialPose : Pose K O
  lastSeen : K
  lostTime : K
  deriving DecidableEq

variable {I K O : Type} [DecidableEq I] [Field K] [LinearOrder K] (geometry : Trigonometry K O)

section

variable (now : K) (nowObjects : List (ObjectData I K O))

def detection (r : ObjectData I K O) : Option (ObjectData I K O) :=
  match nowObjects.find? fun o => o.objectId = r.objectId with
  | some sameIdObj => some sameIdObj
  | none => nowObjects.find? fun o =>
    calcDistance2d geometry r.initialPose.position o.initialPose.position < 3 / 2

def updateRegistered (r : ObjectData I K O) : ObjectData I K O :=
  match detection geometry nowObjects r with
  | some o => { o with lastSeen := now, lostTime := 0 }
  | none => { r with lostTime := now - r.lastSeen }

def checkRegistered (objectLastSeenThreshold : K) :
    ℕ → List (ObjectData I K O) → List (ObjectData I K O)
  | 0, registered => registered
  | i + 1, registered =>
    match registered[i]? with
    | none => registered
    | some r =>
      let r := updateRegistered geometry now nowObjects r
      checkRegistered objectLastSeenThreshold i
        (if objectLastSeenThreshold < r.lostTime then registered.eraseIdx i
        else registered.set i r)

end

def isAlreadyRegistered (registered : List (ObjectData I K O)) (nId : I) : Bool :=
  registered.any fun o => o.objectId = nId

def addNew (nowObjects registered : List (ObjectData I K O)) : List (ObjectData I K O) :=
  nowObjects.foldl (fun registered nowObj =>
    if isAlreadyRegistered registered nowObj.objectId then registered
    else registered ++ [nowObj]) registered

def updateRegisteredObject (objectLastSeenThreshold now : K)
    (registered nowObjects : List (ObjectData I K O)) : List (ObjectData I K O) :=
  addNew nowObjects
    (checkRegistered geometry now nowObjects objectLastSeenThreshold registered.length registered)

def compensateDetectionLost (registered nowObjects otherObjects : List (ObjectData I K O)) :
    List (ObjectData I K O) :=
  registered.foldl (fun nowObjects r =>
    if !isAlreadyRegistered nowObjects r.objectId && !isAlreadyRegistered otherObjects r.objectId
    then nowObjects ++ [r] else nowObjects) nowObjects

variable {geometry} {now threshold : K}
variable {registered nowObjects : List (ObjectData I K O)}

theorem checkRegistered_eq :
    checkRegistered geometry now nowObjects threshold registered.length registered =
      (registered.map (updateRegistered geometry now nowObjects)).filter
        fun r => !decide (threshold < r.lostTime) := by
  have hloop (front back : List (ObjectData I K O)) :
      checkRegistered geometry now nowObjects threshold front.length (front ++ back) =
        (front.map (updateRegistered geometry now nowObjects)).filter
          (fun r => !decide (threshold < r.lostTime)) ++ back := by
    induction front using List.reverseRecOn generalizing back with
    | nil => rfl
    | append_singleton front r ih =>
      have hlookup : (front ++ [r] ++ back)[front.length]? = some r := by simp
      rw [List.length_append, List.length_singleton, checkRegistered, hlookup]
      simp only [List.map_append, List.filter_append, List.map_singleton]
      by_cases hlost : threshold < (updateRegistered geometry now nowObjects r).lostTime
      · rw [if_pos hlost, List.append_assoc, List.eraseIdx_append_of_length_le le_rfl]
        simp [hlost, ih]
      · rw [if_neg hlost, List.append_assoc, List.set_append_right _ _ le_rfl]
        simp [hlost, ih]
  simpa using hloop registered []

theorem detection_eq_some {r o : ObjectData I K O}
    (hdetection : detection geometry nowObjects r = some o) : o ∈ nowObjects := by
  unfold detection at hdetection
  split at hdetection
  · rename_i hfind
    cases hdetection
    exact List.mem_of_find?_eq_some hfind
  · exact List.mem_of_find?_eq_some hdetection

theorem detection_eq_none {r : ObjectData I K O}
    (hdetection : detection geometry nowObjects r = none) :
    ∀ o ∈ nowObjects, o.objectId ≠ r.objectId := by
  unfold detection at hdetection
  split at hdetection
  · cases hdetection
  · rename_i hfind
    intro o ho heq
    exact absurd (decide_eq_true heq) (List.find?_eq_none.mp hfind o ho)

/-! ## New objects -/

variable {I K O : Type} [DecidableEq I]
variable {registered nowObjects otherObjects : List (ObjectData I K O)}

theorem isAlreadyRegistered_iff {nId : I} : isAlreadyRegistered registered nId = true ↔
    ∃ o ∈ registered, o.objectId = nId := by
  simp [isAlreadyRegistered]

theorem nodup_concat {o : ObjectData I K O} (hids : (registered.map (·.objectId)).Nodup)
    (hnew : isAlreadyRegistered registered o.objectId = false) :
    ((registered ++ [o]).map (·.objectId)).Nodup := by
  rw [List.map_append, List.map_singleton, ← List.concat_eq_append]
  refine hids.concat fun hid => ?_
  obtain ⟨r, hr, hsame⟩ := List.mem_map.mp hid
  rw [← Bool.not_eq_true, isAlreadyRegistered_iff] at hnew
  exact hnew ⟨r, hr, hsame⟩

structure Added (nowObjects registered result : List (ObjectData I K O)) : Prop where
  kept : ∃ added, result = registered ++ added ∧ ∀ o ∈ added, o ∈ nowObjects
  contains : ∀ o ∈ nowObjects, ∃ r ∈ result, r.objectId = o.objectId
  distinct : (registered.map (·.objectId)).Nodup → (result.map (·.objectId)).Nodup

theorem addNew_added (nowObjects registered : List (ObjectData I K O)) :
    Added nowObjects registered (addNew nowObjects registered) := by
  induction nowObjects generalizing registered with
  | nil => exact ⟨⟨[], (List.append_nil _).symm, fun _ ho => absurd ho List.not_mem_nil⟩,
      fun _ ho => absurd ho List.not_mem_nil, id⟩
  | cons first later ih =>
    have hstep : addNew (first :: later) registered = addNew later
      (if isAlreadyRegistered registered first.objectId then registered
      else registered ++ [first]) := rfl
    rw [hstep]
    cases hnew : isAlreadyRegistered registered first.objectId with
    | true =>
      obtain ⟨⟨added, hresult, hadded⟩, hcontains, hdistinct⟩ := ih registered
      rw [if_pos rfl]
      refine ⟨⟨added, hresult, fun o ho => List.mem_cons_of_mem _ (hadded o ho)⟩, ?_, hdistinct⟩
      intro o ho
      rcases List.mem_cons.mp ho with rfl | hlater
      · obtain ⟨r, hr, hsame⟩ := isAlreadyRegistered_iff.mp hnew
        exact ⟨r, hresult ▸ List.mem_append_left _ hr, hsame⟩
      · exact hcontains o hlater
    | false =>
      obtain ⟨⟨added, hresult, hadded⟩, hcontains, hdistinct⟩ := ih (registered ++ [first])
      rw [if_neg Bool.false_ne_true]
      refine ⟨⟨first :: added, hresult.trans (List.append_assoc ..), ?_⟩, ?_,
        fun hids => hdistinct (nodup_concat hids hnew)⟩
      · intro o ho
        rcases List.mem_cons.mp ho with rfl | hlater
        · exact List.mem_cons_self
        · exact List.mem_cons_of_mem _ (hadded o hlater)
      · intro o ho
        rcases List.mem_cons.mp ho with rfl | hlater
        · exact ⟨o, hresult ▸ List.mem_append_left _ List.mem_concat_self, rfl⟩
        · exact hcontains o hlater

theorem compensateDetectionLost_nodup (hids : (nowObjects.map (·.objectId)).Nodup) :
    ((compensateDetectionLost registered nowObjects otherObjects).map (·.objectId)).Nodup := by
  induction registered generalizing nowObjects with
  | nil => exact hids
  | cons first later ih =>
    rw [compensateDetectionLost, List.foldl_cons]
    split
    · rename_i hadd
      rw [Bool.and_eq_true, Bool.not_eq_true'] at hadd
      exact ih (nodup_concat hids hadd.1)
    · exact ih hids

end

/-!
# Runs of the object registration

After each call the detected objects are registered, and none that was last matched too long
ago.  The ids stay distinct as long as no two registered objects are replaced by the same
detection.
-/

open Common.MotionUtils Library.Runs

variable {I K O : Type} [DecidableEq I] [Field K] [LinearOrder K]

structure Call (I K O : Type) where
  now : K
  nowObjects : List (ObjectData I K O)
  distinct : (nowObjects.map (·.objectId)).Nodup

variable (geometry : Trigonometry K O) (threshold : K)

/-- A registered object and the time of its last match. -/
abbrev Tracked (I K O : Type) := ObjectData I K O × K

def registeredOf (tracked : List (Tracked I K O)) : List (ObjectData I K O) :=
  tracked.map Prod.fst

def trackedUpdate (call : Call I K O) (entry : Tracked I K O) : Tracked I K O :=
  (updateRegistered geometry call.now call.nowObjects entry.1,
    if (detection geometry call.nowObjects entry.1).isSome then call.now else entry.2)

def trackedAddNew (now : K) (nowObjects : List (ObjectData I K O)) (tracked : List (Tracked I K O)) :
    List (Tracked I K O) :=
  nowObjects.foldl (fun tracked nowObj =>
    if isAlreadyRegistered (registeredOf tracked) nowObj.objectId then tracked
    else tracked ++ [(nowObj, now)]) tracked

/-- A call of `updateRegisteredObject`, with the times of the last matches. -/
def trackedCall (tracked : List (Tracked I K O)) (call : Call I K O) : List (Tracked I K O) :=
  trackedAddNew call.now call.nowObjects
    ((tracked.map (trackedUpdate geometry call)).filter fun entry =>
      !decide (threshold < entry.1.lostTime))

variable {geometry threshold} {call : Call I K O} {tracked : List (Tracked I K O)}

omit [Field K] [LinearOrder K] in
theorem registeredOf_trackedAddNew (now : K) (nowObjects : List (ObjectData I K O))
    (tracked : List (Tracked I K O)) :
    registeredOf (trackedAddNew now nowObjects tracked) =
      addNew nowObjects (registeredOf tracked) := by
  induction nowObjects generalizing tracked with
  | nil => rfl
  | cons first later ih =>
    rw [trackedAddNew, addNew, List.foldl_cons, List.foldl_cons]
    split
    · exact ih tracked
    · refine (ih _).trans ?_
      rw [registeredOf, List.map_append]
      rfl

theorem registeredOf_trackedCall : registeredOf (trackedCall geometry threshold tracked call) =
      updateRegisteredObject geometry threshold call.now (registeredOf tracked)
        call.nowObjects := by
  rw [trackedCall, registeredOf_trackedAddNew, updateRegisteredObject, checkRegistered_eq]
  congr 1
  simp only [registeredOf, List.map_map, List.filter_map]
  rfl

def MatchedApart (geometry : Trigonometry K O) (nowObjects registered : List (ObjectData I K O)) :
    Prop :=
  registered.Pairwise fun r other => ∀ o, detection geometry nowObjects r = some o →
    detection geometry nowObjects other ≠ some o

variable {nowObjects : List (ObjectData I K O)}

theorem updateRegistered_of_some {now : K}
    {r o : ObjectData I K O} (hdetection : detection geometry nowObjects r = some o) :
    updateRegistered geometry now nowObjects r = { o with lastSeen := now, lostTime := 0 } := by
  rw [updateRegistered, hdetection]

theorem updateRegistered_of_none {now : K}
    {r : ObjectData I K O} (hdetection : detection geometry nowObjects r = none) :
    updateRegistered geometry now nowObjects r = { r with lostTime := now - r.lastSeen } := by
  rw [updateRegistered, hdetection]

theorem objectId_ne {r other : ObjectData I K O} (hids : r.objectId ≠ other.objectId)
    (hapart : ∀ o, detection geometry call.nowObjects r = some o →
      detection geometry call.nowObjects other ≠ some o) :
    (updateRegistered geometry call.now call.nowObjects r).objectId ≠
      (updateRegistered geometry call.now call.nowObjects other).objectId := by
  cases hr : detection geometry call.nowObjects r with
  | none =>
    rw [updateRegistered_of_none hr]
    cases hother : detection geometry call.nowObjects other with
    | none =>
      rw [updateRegistered_of_none hother]
      exact hids
    | some o =>
      rw [updateRegistered_of_some hother]
      exact (detection_eq_none hr o (detection_eq_some hother)).symm
  | some o =>
    rw [updateRegistered_of_some hr]
    cases hother : detection geometry call.nowObjects other with
    | none =>
      rw [updateRegistered_of_none hother]
      exact detection_eq_none hother o (detection_eq_some hr)
    | some o' =>
      rw [updateRegistered_of_some hother]
      intro hsame
      have heq : o = o' := List.inj_on_of_nodup_map call.distinct (detection_eq_some hr)
        (detection_eq_some hother) hsame
      exact hapart o hr (heq ▸ hother)

theorem addNew_nodup_of_apart {registered : List (ObjectData I K O)}
    (hids : (registered.map (·.objectId)).Nodup)
    (hapart : MatchedApart geometry call.nowObjects registered) :
    ((updateRegisteredObject geometry threshold call.now registered call.nowObjects).map
      (·.objectId)).Nodup := by
  refine (addNew_added ..).distinct ?_
  rw [checkRegistered_eq]
  refine List.Nodup.sublist (List.filter_sublist.map _) ?_
  rw [List.map_map, List.Nodup, List.pairwise_map]
  exact ((List.pairwise_map.mp hids).and hapart).imp fun ⟨hne, hmatch⟩ => objectId_ne hne hmatch

theorem updateRegisteredObject_contains {registered : List (ObjectData I K O)}
    {o : ObjectData I K O} (ho : o ∈ call.nowObjects) :
    ∃ r ∈ updateRegisteredObject geometry threshold call.now registered call.nowObjects,
      { r with lastSeen := o.lastSeen, lostTime := o.lostTime } = o := by
  obtain ⟨⟨added, hresult, hadded⟩, hcontains, _⟩ := addNew_added call.nowObjects
    (checkRegistered geometry call.now call.nowObjects threshold registered.length registered)
  obtain ⟨r, hr, hsame⟩ := hcontains o ho
  refine ⟨r, hr, ?_⟩
  have hmember {o' : ObjectData I K O} (ho' : o' ∈ call.nowObjects)
      (hid : o'.objectId = o.objectId) : o' = o :=
    List.inj_on_of_nodup_map call.distinct ho' ho hid
  rw [hresult, checkRegistered_eq] at hr
  rcases List.mem_append.mp hr with hchecked | hnew
  · obtain ⟨entry, _, rfl⟩ := List.mem_map.mp (List.mem_of_mem_filter hchecked)
    cases hentry : detection geometry call.nowObjects entry with
    | none =>
      rw [updateRegistered_of_none hentry] at hsame
      exact absurd hsame.symm (detection_eq_none hentry o ho)
    | some o' =>
      rw [updateRegistered_of_some hentry] at hsame ⊢
      rw [hmember (detection_eq_some hentry) hsame]
  · rw [hmember (hadded r hnew) hsame]

/-! ## Times of the last match -/

omit [Field K] [LinearOrder K] in
theorem mem_trackedAddNew {now : K}
    {entry : Tracked I K O} (hentry : entry ∈ trackedAddNew now nowObjects tracked) :
    entry ∈ tracked ∨ entry.1 ∈ nowObjects ∧ entry.2 = now := by
  induction nowObjects generalizing tracked with
  | nil => exact .inl hentry
  | cons first later ih =>
    rw [trackedAddNew, List.foldl_cons] at hentry
    have hlater (hmem : entry.1 ∈ later ∧ entry.2 = now) :
        entry.1 ∈ first :: later ∧ entry.2 = now := hmem.imp_left (List.mem_cons_of_mem _)
    split at hentry
    · exact (ih hentry).imp_right hlater
    · rcases ih hentry with hmem | hnew
      · refine (List.mem_append.mp hmem).imp_right fun hfirst => ?_
        rw [List.mem_singleton.mp hfirst]
        exact ⟨List.mem_cons_self, rfl⟩
      · exact .inr (hlater hnew)

/-- What calls preserve. -/
structure Consistent (tracked : List (Tracked I K O)) : Prop where
  distinct : ((registeredOf tracked).map (·.objectId)).Nodup
  seen : ∀ entry ∈ tracked, entry.1.lastSeen ≤ entry.2

/-- What is claimed of the registered objects after a call. -/
structure UpToDate (threshold : K) (call : Call I K O) (tracked : List (Tracked I K O)) :
    Prop where
  distinct : ((registeredOf tracked).map (·.objectId)).Nodup
  contains : ∀ o ∈ call.nowObjects, ∃ r ∈ registeredOf tracked,
    { r with lastSeen := o.lastSeen, lostTime := o.lostTime } = o
  recent : ∀ entry ∈ tracked, call.now - entry.2 ≤ threshold
  compensated : ∀ nowObjects otherObjects : List (ObjectData I K O),
    (nowObjects.map (·.objectId)).Nodup →
      ((compensateDetectionLost (registeredOf tracked) nowObjects otherObjects).map
        (·.objectId)).Nodup

structure DetectedApart (geometry : Trigonometry K O) (threshold : K)
    (tracked : List (Tracked I K O)) (call : Call I K O) : Prop where
  threshold_nonneg : 0 ≤ threshold
  seen : ∀ o ∈ call.nowObjects, o.lastSeen ≤ call.now
  apart : MatchedApart geometry call.nowObjects (registeredOf tracked)

variable [IsStrictOrderedRing K]

theorem trackedUpdate_times {entry : Tracked I K O} (hthreshold : 0 ≤ threshold)
    (hseen : entry.1.lastSeen ≤ entry.2)
    (hkept : (trackedUpdate geometry call entry).1.lostTime ≤ threshold) :
    (trackedUpdate geometry call entry).1.lastSeen ≤ (trackedUpdate geometry call entry).2 ∧
      call.now - (trackedUpdate geometry call entry).2 ≤ threshold := by
  unfold trackedUpdate at *
  cases hentry : detection geometry call.nowObjects entry.1 with
  | none =>
    simp only [updateRegistered_of_none hentry, Option.isSome_none,
      Bool.false_eq_true, if_false] at hkept ⊢
    exact ⟨hseen, by linarith⟩
  | some o =>
    simp only [updateRegistered_of_some hentry, Option.isSome_some, if_true]
    exact ⟨le_rfl, by rw [sub_self]; exact hthreshold⟩

theorem trackedCall_times (hconsistent : Consistent tracked)
    (hcall : DetectedApart geometry threshold tracked call) :
    ∀ entry ∈ trackedCall geometry threshold tracked call,
      entry.1.lastSeen ≤ entry.2 ∧ call.now - entry.2 ≤ threshold := by
  intro entry hentry
  rcases mem_trackedAddNew hentry with hkept | ⟨hnew, hnow⟩
  · obtain ⟨hmem, hlost⟩ := List.mem_filter.mp hkept
    obtain ⟨before, hbefore, rfl⟩ := List.mem_map.mp hmem
    rw [Bool.not_eq_true', decide_eq_false_iff_not, not_lt] at hlost
    exact trackedUpdate_times hcall.threshold_nonneg (hconsistent.seen before hbefore) hlost
  · rw [hnow]
    exact ⟨hcall.seen _ hnew, by rw [sub_self]; exact hcall.threshold_nonneg⟩

theorem trackedCall_upToDate (hconsistent : Consistent tracked)
    (hcall : DetectedApart geometry threshold tracked call) :
    Consistent (trackedCall geometry threshold tracked call) ∧
      UpToDate threshold call (trackedCall geometry threshold tracked call) := by
  have hdistinct : ((registeredOf (trackedCall geometry threshold tracked call)).map
      (·.objectId)).Nodup := by
    rw [registeredOf_trackedCall]
    exact addNew_nodup_of_apart hconsistent.distinct hcall.apart
  have htimes := trackedCall_times hconsistent hcall
  refine ⟨⟨hdistinct, fun entry hentry => (htimes entry hentry).1⟩, hdistinct, ?_,
    fun entry hentry => (htimes entry hentry).2, fun _ _ => compensateDetectionLost_nodup⟩
  intro o ho
  rw [registeredOf_trackedCall]
  exact updateRegisteredObject_contains ho

variable (geometry threshold) in
/-- The calls in which no two registered objects have the same detection. -/
abbrev ApartCall : List (Tracked I K O) → Call I K O → List (Tracked I K O) → Prop :=
  Guarded (OfUpdate (trackedCall geometry threshold)) fun before call _ =>
    DetectedApart geometry threshold before call

theorem consistent_run {calls : List (Call I K O)} {last : List (Tracked I K O)}
    (hrun : Run (ApartCall geometry threshold) [] calls last) : Consistent last := by
  refine hrun.preserves Consistent ?_ ⟨List.nodup_nil, fun _ hentry => absurd hentry List.not_mem_nil⟩
  rintro before call _ hbefore ⟨rfl, hcall⟩
  exact (trackedCall_upToDate hbefore hcall).1

/-- After each call of a run the registered objects are up to date. -/
theorem registered_upToDate {calls : List (Call I K O)} {call : Call I K O}
    {last : List (Tracked I K O)}
    (hrun : Run (ApartCall geometry threshold) [] (calls ++ [call]) last) :
    UpToDate threshold call last := by
  obtain ⟨before, hbefore, hlast⟩ := hrun.split
  cases hlast with
  | cons hstep hdone =>
    cases hdone
    obtain ⟨rfl, hcall⟩ := hstep
    exact (trackedCall_upToDate (consistent_run hbefore) hcall).2

def detectedAt (objectId : ℕ) (x lastSeen : ℚ) : ObjectData ℕ ℚ Unit :=
  ⟨objectId, ⟨⟨x, 0, 0⟩, ()⟩, lastSeen, 0⟩

def twoObjects : Call ℕ ℚ Unit :=
  ⟨0, [detectedAt 1 0 0, detectedAt 2 2 0], by decide⟩

/-- One object of another id between the two. -/
def oneObject : Call ℕ ℚ Unit :=
  ⟨1, [detectedAt 3 1 1], by decide⟩

theorem registered_twoObjects :
    Run (ApartCall alongX 2) [] ([] ++ [twoObjects]) (trackedCall alongX 2 [] twoObjects) ∧
      UpToDate 2 twoObjects (trackedCall alongX 2 [] twoObjects) := by
  have hrun : Run (ApartCall alongX 2) [] ([] ++ [twoObjects])
      (trackedCall alongX 2 [] twoObjects) :=
    .cons ⟨rfl, two_pos.le, by decide +kernel, List.Pairwise.nil⟩ (.nil _)
  exact ⟨hrun, registered_upToDate hrun⟩

/-- The detection in the middle replaces both registered objects. -/
theorem registered_not_distinct :
    (registeredOf ([twoObjects, oneObject].foldl (trackedCall alongX 2) [])).map
        (·.objectId) = [3, 3] ∧
      ¬ UpToDate 2 oneObject ([twoObjects, oneObject].foldl (trackedCall alongX 2) []) := by
  have hids : (registeredOf ([twoObjects, oneObject].foldl (trackedCall alongX 2) [])).map
      (·.objectId) = [3, 3] := by decide +kernel
  refine ⟨hids, fun hupToDate => ?_⟩
  have hdistinct := hupToDate.distinct
  rw [hids] at hdistinct
  exact absurd hdistinct (by decide)

end AutowareUniverse.Planning.Avoidance
