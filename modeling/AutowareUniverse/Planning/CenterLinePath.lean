import AutowareUniverse.Common.MotionUtils

/-!
# The center line of a lanelet sequence

The points of the centerlines between two arc lengths, with the points at these arc lengths.
-/

namespace AutowareUniverse.Planning.CenterLinePath

open Common.MotionUtils (Point calcSquaredDistance2d)

structure Lanelet (K : Type) where
  id : ℤ
  speedLimit : K
  centerline : List (Point K)

structure PathPointWithLaneId (K O : Type) where
  position : Point K
  laneIds : List ℤ
  longitudinalVelocityMps : K
  orientation : O

/-- Functions of the libraries.  The lanelet of `getLaneletAngle` is looked up by its id. -/
structure LaneGeometry (K O : Type) where
  sqrt : K → K
  cos : K → K
  sin : K → K
  getLaneletAngle : ℤ → Point K → K
  calcAzimuthAngle : Point K → Point K → K
  createQuaternionFromYaw : K → O

variable {K O : Type} [Field K] [LinearOrder K] (geometry : LaneGeometry K O)

def distance2d (p q : Point K) : K := geometry.sqrt (calcSquaredDistance2d p q)

def calcDistance3d (p q : Point K) : K :=
  geometry.sqrt (calcSquaredDistance2d p q + (p.z - q.z) ^ 2)

def interpolatedPt (prevPt pt : Point K) (ratio : K) : Point K :=
  ⟨prevPt.x * (1 - ratio) + pt.x * ratio, prevPt.y * (1 - ratio) + pt.y * ratio,
    prevPt.z * (1 - ratio) + pt.z * ratio⟩

def searchCenterline (s : K) : K → Point K → List (Point K) → K ⊕ Point K
  | accumulatedDistance2d, _, [] => .inl accumulatedDistance2d
  | accumulatedDistance2d, prevPt, pt :: rest =>
    let distance := distance2d geometry prevPt pt
    if s < accumulatedDistance2d + distance then
      .inr (interpolatedPt prevPt pt ((s - accumulatedDistance2d) / distance))
    else searchCenterline s (accumulatedDistance2d + distance) pt rest

def get3DPointFrom (s : K) : K → List (Lanelet K) → Point K
  | _, [] => ⟨0, 0, 0⟩
  | accumulatedDistance2d, llt :: rest =>
    match searchCenterline geometry s accumulatedDistance2d (llt.centerline.headD ⟨0, 0, 0⟩)
      llt.centerline with
    | .inl reached => get3DPointFrom s reached rest
    | .inr point => point

def get3DPointFrom2DArcLength (laneletSequence : List (Lanelet K)) (s : K) : Point K :=
  get3DPointFrom geometry s 0 laneletSequence

/-- A round of the loop over the points of a centerline. -/
structure Round (K : Type) where
  llt : Lanelet K
  pt : Point K
  nextPt : Point K
  s : K

def Round.distance (round : Round K) : K := distance2d geometry round.pt round.nextPt

def centerlineRounds (llt : Lanelet K) : K → List (Point K) → List (Round K)
  | _, [] => []
  | s, pt :: rest => ⟨llt, pt, rest.headD pt, s⟩ ::
      centerlineRounds llt (s + distance2d geometry pt (rest.headD pt)) rest

def arcLengthBehind : K → List (Point K) → K
  | s, [] => s
  | s, pt :: rest => arcLengthBehind (s + distance2d geometry pt (rest.headD pt)) rest

/-- The rounds of both loops, with the arc length that each starts with. -/
def rounds : K → List (Lanelet K) → List (Round K)
  | _, [] => []
  | s, llt :: rest => centerlineRounds geometry llt s llt.centerline ++
      rounds (arcLengthBehind geometry s llt.centerline) rest

def addPathPoint (llt : Lanelet K) (position : Point K) : PathPointWithLaneId K O :=
  ⟨position, [llt.id], llt.speedLimit, geometry.createQuaternionFromYaw 0⟩

def Round.start (pointAt : K → Point K) (useExact : Bool) (sStart : K) (round : Round K) :
    List (PathPointWithLaneId K O) :=
  if round.s < sStart ∧ sStart < round.s + round.distance geometry then
    [addPathPoint geometry round.llt (if useExact then pointAt sStart else round.pt)]
  else []

def Round.inner (sStart sEnd : K) (round : Round K) : List (PathPointWithLaneId K O) :=
  if sStart ≤ round.s ∧ round.s ≤ sEnd then [addPathPoint geometry round.llt round.pt] else []

def Round.finish (pointAt : K → Point K) (useExact : Bool) (sEnd : K) (round : Round K) :
    List (PathPointWithLaneId K O) :=
  if round.s < sEnd ∧ sEnd < round.s + round.distance geometry then
    [addPathPoint geometry round.llt (if useExact then pointAt sEnd else round.nextPt)]
  else []

def removeOverlappingFrom (last : PathPointWithLaneId K O) :
    List (PathPointWithLaneId K O) → List (PathPointWithLaneId K O)
  | [] => [last]
  | pt :: rest =>
    if calcDistance3d geometry last.position pt.position < 1 / 1000 then
      removeOverlappingFrom { last with
        laneIds := last.laneIds ++ pt.laneIds.take 1
        longitudinalVelocityMps := min pt.longitudinalVelocityMps
          last.longitudinalVelocityMps } rest
    else last :: removeOverlappingFrom pt rest

def removeOverlappingPoints : List (PathPointWithLaneId K O) → List (PathPointWithLaneId K O)
  | [] => []
  | pt :: rest => removeOverlappingFrom geometry pt rest

def pointAhead (only : PathPointWithLaneId K O) : PathPointWithLaneId K O :=
  let laneId := (only.laneIds.headD 0).bmod (2 ^ 32)
  let laneYaw := geometry.getLaneletAngle laneId only.position
  ⟨⟨only.position.x + 1 / 10 * geometry.cos laneYaw,
    only.position.y + 1 / 10 * geometry.sin laneYaw, only.position.z⟩, [laneId], 0,
    geometry.createQuaternionFromYaw 0⟩

def appendAhead : List (PathPointWithLaneId K O) → List (PathPointWithLaneId K O)
  | [only] => [only, pointAhead geometry only]
  | points => points

/-- Each point faces the next one, the last one as the one before it. -/
def setAngle (points : List (PathPointWithLaneId K O)) : List (PathPointWithLaneId K O) :=
  points.mapIdx fun i point =>
    let angle := match points[i + 1]?, points[i - 1]? with
      | some next, _ => geometry.calcAzimuthAngle point.position next.position
      | none, some previous =>
        if i = 0 then 0 else geometry.calcAzimuthAngle previous.position point.position
      | none, none => 0
    { point with orientation := geometry.createQuaternionFromYaw angle }

variable (laneletSequence : List (Lanelet K))

def getCenterLinePath (sStart sEnd : K) (useExact : Bool) : List (PathPointWithLaneId K O) :=
  let pointAt := get3DPointFrom2DArcLength geometry laneletSequence
  let referencePath := (rounds geometry 0 laneletSequence).flatMap fun round =>
    round.start geometry pointAt useExact sStart ++ round.inner geometry sStart sEnd ++
      round.finish geometry pointAt useExact sEnd
  setAngle geometry (appendAhead geometry (removeOverlappingPoints geometry referencePath))

/-! ## The points that belong to the path -/

def pointsInside (s : K) : List (PathPointWithLaneId K O) :=
  (rounds geometry 0 laneletSequence).flatMap fun round =>
    if round.s < s ∧ s < round.s + round.distance geometry then
      [addPathPoint geometry round.llt (interpolatedPt round.pt round.nextPt
        ((s - round.s) / round.distance geometry))]
    else []

def expectedPoints (sStart sEnd : K) : List (PathPointWithLaneId K O) :=
  pointsInside geometry laneletSequence sStart ++
    (rounds geometry 0 laneletSequence).flatMap (Round.inner geometry sStart sEnd) ++
    pointsInside geometry laneletSequence sEnd

/-- Points closer than a millimeter to the one before them are left to it. -/
inductive Thinned : List (PathPointWithLaneId K O) → List (PathPointWithLaneId K O) → Prop
  | nil : Thinned [] []
  | cons {first kept : PathPointWithLaneId K O} {close rest others}
      (hclose : ∀ pt ∈ close, calcDistance3d geometry first.position pt.position < 1 / 1000)
      (hapart : ∀ pt ∈ rest.head?, ¬ calcDistance3d geometry first.position pt.position < 1 / 1000)
      (hposition : kept.position = first.position)
      (hids : kept.laneIds = first.laneIds ++ close.flatMap fun pt => pt.laneIds.take 1)
      (hrest : Thinned rest others) : Thinned (first :: (close ++ rest)) (kept :: others)

def IsOnCenterline (llt : Lanelet K) (point : Point K) : Prop :=
  ∃ i pt, llt.centerline[i]? = some pt ∧ (point = pt ∨ ∃ nextPt ratio,
    llt.centerline[i + 1]? = some nextPt ∧ 0 ≤ ratio ∧ ratio ≤ 1 ∧
      point = interpolatedPt pt nextPt ratio)

def located (point : PathPointWithLaneId K O) : Point K × List ℤ :=
  (point.position, point.laneIds)

variable {geometry}

omit [LinearOrder K] in
theorem map_located_setAngle (points : List (PathPointWithLaneId K O)) :
    (setAngle geometry points).map located = points.map located := by
  refine List.ext_getElem? fun i => ?_
  rw [setAngle, List.getElem?_map, List.getElem?_map, List.getElem?_mapIdx]
  cases points[i]? <;> rfl

theorem thinned_removeOverlappingFrom {pts : List (PathPointWithLaneId K O)}
    (merged : List (PathPointWithLaneId K O)) {first last : PathPointWithLaneId K O}
    (hposition : last.position = first.position)
    (hids : last.laneIds = first.laneIds ++ merged.flatMap fun pt => pt.laneIds.take 1)
    (hmerged : ∀ pt ∈ merged, calcDistance3d geometry first.position pt.position < 1 / 1000) :
    Thinned geometry (first :: (merged ++ pts)) (removeOverlappingFrom geometry last pts) := by
  induction pts generalizing first last merged with
  | nil => exact .cons hmerged nofun hposition hids .nil
  | cons pt rest ih =>
    rw [removeOverlappingFrom]
    split_ifs with hclose
    · rw [List.append_cons]
      refine ih _ hposition ?_ ?_
      · rw [hids, List.flatMap_append, List.append_assoc, List.flatMap_singleton]
      · intro other hother
        rcases List.mem_append.mp hother with hmem | hmem
        · exact hmerged other hmem
        · rwa [List.mem_singleton.mp hmem, ← hposition]
    · refine .cons hmerged ?_ hposition hids (ih [] rfl (List.append_nil _).symm nofun)
      rintro other hother
      obtain rfl := Option.some.inj hother
      rwa [← hposition]

theorem thinned_removeOverlappingPoints (points : List (PathPointWithLaneId K O)) :
    Thinned geometry points (removeOverlappingPoints geometry points) := by
  cases points with
  | nil => exact .nil
  | cons pt rest =>
    exact thinned_removeOverlappingFrom [] rfl (List.append_nil _).symm nofun

theorem Thinned.length_le {points others : List (PathPointWithLaneId K O)}
    (hthinned : Thinned geometry points others) : others.length ≤ points.length := by
  induction hthinned with
  | nil => exact le_rfl
  | cons _ _ _ _ _ ih =>
    simp only [List.length_cons, List.length_append]
    omega

theorem Thinned.exists_located {points others : List (PathPointWithLaneId K O)}
    (hthinned : Thinned geometry points others) {kept : PathPointWithLaneId K O}
    (hkept : kept ∈ others) :
    ∃ point ∈ points, kept.position = point.position ∧ point.laneIds ⊆ kept.laneIds := by
  induction hthinned with
  | nil => cases hkept
  | @cons first _ close rest _ _ _ hposition hids _ ih =>
    rcases List.mem_cons.mp hkept with rfl | hmem
    · exact ⟨first, List.mem_cons_self, hposition, hids ▸ List.subset_append_left _ _⟩
    · obtain ⟨point, hpoint, hlocated⟩ := ih hmem
      exact ⟨point, List.mem_cons_of_mem _ (List.mem_append_right _ hpoint), hlocated⟩

/-! ## Arc lengths -/

omit [LinearOrder K] in
theorem distance2d_self (hzero : geometry.sqrt 0 = 0) (p : Point K) :
    distance2d geometry p p = 0 := by
  rw [distance2d, calcSquaredDistance2d, sub_self, sub_self, mul_zero, add_zero, hzero]

variable [IsStrictOrderedRing K] {s : K}

section

variable (hnonneg : ∀ x, 0 ≤ geometry.sqrt x)
include hnonneg

theorem le_arcLengthBehind (pts : List (Point K)) : s ≤ arcLengthBehind geometry s pts := by
  induction pts generalizing s with
  | nil => exact le_rfl
  | cons pt rest ih => exact (le_add_of_nonneg_right (hnonneg _)).trans ih

variable {round : Round K} {pts : List (Point K)}

theorem bounds_centerlineRounds {llt : Lanelet K}
    (hround : round ∈ centerlineRounds geometry llt s pts) :
    s ≤ round.s ∧ round.s + round.distance geometry ≤ arcLengthBehind geometry s pts := by
  induction pts generalizing s with
  | nil => cases hround
  | cons pt rest ih =>
    rcases List.mem_cons.mp hround with rfl | hmem
    · exact ⟨le_rfl, le_arcLengthBehind hnonneg rest⟩
    · exact ⟨(le_add_of_nonneg_right (hnonneg _)).trans (ih hmem).1, (ih hmem).2⟩

theorem pairwise_centerlineRounds (llt : Lanelet K) (pts : List (Point K)) :
    (centerlineRounds geometry llt s pts).Pairwise fun a b => a.s + a.distance geometry ≤ b.s := by
  induction pts generalizing s with
  | nil => exact .nil
  | cons pt rest ih => exact .cons (fun _ hround => (bounds_centerlineRounds hnonneg hround).1) ih

theorem le_rounds {lanelets : List (Lanelet K)}
    (hround : round ∈ rounds geometry s lanelets) : s ≤ round.s := by
  induction lanelets generalizing s with
  | nil => cases hround
  | cons llt rest ih =>
    rcases List.mem_append.mp hround with hmem | hmem
    · exact (bounds_centerlineRounds hnonneg hmem).1
    · exact (le_arcLengthBehind hnonneg _).trans (ih hmem)

theorem pairwise_rounds (lanelets : List (Lanelet K)) :
    (rounds geometry s lanelets).Pairwise fun a b => a.s + a.distance geometry ≤ b.s := by
  induction lanelets generalizing s with
  | nil => exact .nil
  | cons llt rest ih =>
    refine List.pairwise_append.mpr ⟨pairwise_centerlineRounds hnonneg _ _, ih, ?_⟩
    intro a ha b hb
    exact (bounds_centerlineRounds hnonneg ha).2.trans (le_rounds hnonneg hb)

theorem flatMap_rounds {pointAt : K → Point K} {useExact : Bool} {sStart sEnd : K}
    (hle : sStart ≤ sEnd) {passed : List (Round K)}
    (hpassed : passed.Pairwise fun a b => a.s + a.distance geometry ≤ b.s) :
    (passed.flatMap fun round => round.start geometry pointAt useExact sStart ++
        round.inner geometry sStart sEnd ++ round.finish geometry pointAt useExact sEnd) =
      passed.flatMap (Round.start geometry pointAt useExact sStart) ++
        passed.flatMap (Round.inner geometry sStart sEnd) ++
        passed.flatMap (Round.finish geometry pointAt useExact sEnd) := by
  induction hpassed with
  | nil => rfl
  | @cons round rest hlater _ ih =>
    have hnext : ∀ later ∈ rest, round.s ≤ later.s := fun later hlater' =>
      (le_add_of_nonneg_right (hnonneg _)).trans (hlater later hlater')
    have hstart : sStart ≤ round.s ∨ sEnd < round.s + round.distance geometry →
        rest.flatMap (Round.start geometry pointAt useExact sStart) = [] := by
      refine fun hbehind => List.flatMap_eq_nil_iff.mpr fun later hmem => if_neg ?_
      have hfirst := hlater later hmem
      have hsecond := hnext later hmem
      rintro ⟨hbefore, -⟩
      rcases hbehind with hbehind | hbehind <;> linarith
    have hinner : sEnd < round.s + round.distance geometry →
        rest.flatMap (Round.inner geometry sStart sEnd) = [] := by
      refine fun hbehind => List.flatMap_eq_nil_iff.mpr fun later hmem => if_neg ?_
      have hfirst := hlater later hmem
      rintro ⟨-, hbefore⟩
      linarith
    simp only [List.flatMap_cons, ih]
    by_cases hfinish : round.s < sEnd ∧ sEnd < round.s + round.distance geometry
    · rw [hstart (.inr hfinish.2), hinner hfinish.2]
      simp only [List.append_assoc, List.nil_append, List.append_nil]
    · rw [Round.finish, if_neg hfinish, List.append_nil, List.nil_append]
      by_cases hbetween : sStart ≤ round.s ∧ round.s ≤ sEnd
      · rw [hstart (.inl hbetween.1)]
        simp only [List.append_assoc, List.nil_append, List.append_nil]
      · rw [Round.inner, if_neg hbetween]
        simp only [List.append_assoc, List.nil_append, List.append_nil]

theorem length_pointsInside_le (lanelets : List (Lanelet K)) :
    (pointsInside geometry lanelets s).length ≤ 1 := by
  have hpassed := pairwise_rounds (s := 0) hnonneg lanelets
  rw [pointsInside]
  generalize rounds geometry 0 lanelets = passed at hpassed ⊢
  induction hpassed with
  | nil => exact zero_le_one
  | @cons round rest hlater _ ih =>
    rw [List.flatMap_cons]
    split_ifs with hinside
    · rw [List.flatMap_eq_nil_iff.mpr fun later hmem => if_neg ?_]
      · exact le_rfl
      · have hfirst := hlater later hmem
        rintro ⟨hbefore, -⟩
        linarith [hinside.2]
    · exact ih

/-! ## The point at an arc length -/

variable {accumulated : K}

theorem searchCenterline_end {prevPt : Point K} (hzero : geometry.sqrt 0 = 0)
    (hle : arcLengthBehind geometry accumulated (prevPt :: pts) ≤ s) :
    searchCenterline geometry s accumulated prevPt pts =
      .inl (arcLengthBehind geometry accumulated (prevPt :: pts)) := by
  induction pts generalizing accumulated prevPt with
  | nil =>
    rw [searchCenterline, arcLengthBehind, arcLengthBehind, List.headD_nil,
      distance2d_self hzero, add_zero]
  | cons pt rest ih =>
    have hbehind := (le_arcLengthBehind hnonneg (pt :: rest)).trans hle
    rw [searchCenterline]
    exact (if_neg hbehind.not_gt).trans (ih hle)

theorem searchCenterline_found {llt : Lanelet K} {prevPt : Point K} (hzero : geometry.sqrt 0 = 0)
    (hround : round ∈ centerlineRounds geometry llt accumulated (prevPt :: pts))
    (hle : round.s ≤ s) (hlt : s < round.s + round.distance geometry) :
    searchCenterline geometry s accumulated prevPt pts =
      .inr (interpolatedPt round.pt round.nextPt ((s - round.s) / round.distance geometry)) := by
  induction pts generalizing accumulated prevPt with
  | nil =>
    obtain rfl := List.mem_singleton.mp hround
    rw [Round.distance, List.headD_nil, distance2d_self hzero, add_zero] at hlt
    exact absurd hlt hle.not_gt
  | cons pt rest ih =>
    rw [searchCenterline]
    rcases List.mem_cons.mp hround with rfl | hmem
    · exact if_pos hlt
    · have hbehind := (bounds_centerlineRounds hnonneg hmem).1.trans hle
      exact (if_neg hbehind.not_gt).trans (ih hmem)

theorem get3DPointFrom_found {lanelets : List (Lanelet K)} (hzero : geometry.sqrt 0 = 0)
    (hround : round ∈ rounds geometry accumulated lanelets)
    (hle : round.s ≤ s) (hlt : s < round.s + round.distance geometry) :
    get3DPointFrom geometry s accumulated lanelets =
      interpolatedPt round.pt round.nextPt ((s - round.s) / round.distance geometry) := by
  have hreached := (le_rounds hnonneg hround).trans hle
  induction lanelets generalizing accumulated with
  | nil => cases hround
  | cons llt rest ih =>
    rw [get3DPointFrom]
    rw [rounds] at hround
    cases hcenterline : llt.centerline with
    | nil =>
      rw [hcenterline] at hround
      exact ih hround hreached
    | cons front pts =>
      rw [hcenterline] at hround
      rw [List.headD_cons, searchCenterline, distance2d_self hzero, add_zero,
        if_neg hreached.not_gt]
      rcases List.mem_append.mp hround with hmem | hmem
      · rw [searchCenterline_found hnonneg hzero hmem hle hlt]
      · have hbehind := (le_rounds hnonneg hmem).trans hle
        rw [searchCenterline_end hnonneg hzero hbehind]
        exact ih hmem hbehind

theorem flatMap_start (hzero : geometry.sqrt 0 = 0) (lanelets : List (Lanelet K)) :
    (rounds geometry 0 lanelets).flatMap (Round.start geometry
      (get3DPointFrom2DArcLength geometry lanelets) true s) =
      pointsInside geometry lanelets s := by
  refine List.flatMap_congr fun round hround => ?_
  rw [Round.start]
  by_cases hinside : round.s < s ∧ s < round.s + round.distance geometry
  · rw [if_pos hinside, if_pos hinside, if_pos rfl, get3DPointFrom2DArcLength,
      get3DPointFrom_found hnonneg hzero hround hinside.1.le hinside.2]
  · rw [if_neg hinside, if_neg hinside]

end

omit [LinearOrder K] [IsStrictOrderedRing K] in
theorem round_onCenterline {llt : Lanelet K} {pts : List (Point K)} {round : Round K}
    (hround : round ∈ centerlineRounds geometry llt s pts) : round.llt = llt ∧
      ∃ i : ℕ, pts[i]? = some round.pt ∧
        (pts[i + 1]? = some round.nextPt ∨ round.nextPt = round.pt) := by
  induction pts generalizing s with
  | nil => cases hround
  | cons pt rest ih =>
    rcases List.mem_cons.mp hround with rfl | hmem
    · refine ⟨rfl, 0, rfl, ?_⟩
      cases rest with
      | nil => exact .inr rfl
      | cons => exact .inl rfl
    · obtain ⟨hllt, i, hentries⟩ := ih hmem
      exact ⟨hllt, i + 1, hentries⟩

variable {lanelets : List (Lanelet K)}

omit [LinearOrder K] [IsStrictOrderedRing K] in
theorem rounds_onCenterline {round : Round K}
    (hround : round ∈ rounds geometry s lanelets) : round.llt ∈ lanelets ∧
      ∃ i : ℕ, round.llt.centerline[i]? = some round.pt ∧
        (round.llt.centerline[i + 1]? = some round.nextPt ∨ round.nextPt = round.pt) := by
  induction lanelets generalizing s with
  | nil => cases hround
  | cons llt rest ih =>
    rcases List.mem_append.mp hround with hmem | hmem
    · obtain ⟨hllt, hentries⟩ := round_onCenterline hmem
      exact ⟨hllt ▸ List.mem_cons_self, hllt ▸ hentries⟩
    · obtain ⟨hllt, hentries⟩ := ih hmem
      exact ⟨List.mem_cons_of_mem _ hllt, hentries⟩

theorem pointsInside_onCenterline {point : PathPointWithLaneId K O} (hzero : geometry.sqrt 0 = 0)
    (hpoint : point ∈ pointsInside geometry lanelets s) :
    ∃ llt ∈ lanelets, point.laneIds = [llt.id] ∧ IsOnCenterline llt point.position := by
  obtain ⟨round, hround, hmem⟩ := List.mem_flatMap.mp hpoint
  obtain ⟨hllt, i, hpt, hnext⟩ := rounds_onCenterline hround
  split_ifs at hmem with hinside
  · obtain rfl := List.mem_singleton.mp hmem
    have hpositive : 0 < round.distance geometry := by linarith [hinside.1, hinside.2]
    rcases hnext with hnext | hsame
    · refine ⟨_, hllt, rfl, i, _, hpt, .inr ⟨_, _, hnext, ?_, ?_, rfl⟩⟩
      · exact div_nonneg (sub_nonneg.mpr hinside.1.le) hpositive.le
      · exact (div_le_one hpositive).mpr (by linarith [hinside.2])
    · rw [Round.distance, hsame, distance2d_self hzero] at hpositive
      exact absurd hpositive (lt_irrefl _)
  · cases hmem

theorem expectedPoints_onCenterline {sStart sEnd : K} {point : PathPointWithLaneId K O}
    (hzero : geometry.sqrt 0 = 0) (hpoint : point ∈ expectedPoints geometry lanelets sStart sEnd) :
    ∃ llt ∈ lanelets, point.laneIds = [llt.id] ∧ IsOnCenterline llt point.position := by
  rcases List.mem_append.mp hpoint with hpoint | hfinish
  · rcases List.mem_append.mp hpoint with hstart | hinner
    · exact pointsInside_onCenterline hzero hstart
    · obtain ⟨round, hround, hmem⟩ := List.mem_flatMap.mp hinner
      obtain ⟨hllt, i, hpt, -⟩ := rounds_onCenterline hround
      rw [Round.inner] at hmem
      split_ifs at hmem
      · obtain rfl := List.mem_singleton.mp hmem
        exact ⟨_, hllt, rfl, i, _, hpt, .inl rfl⟩
      · cases hmem
  · exact pointsInside_onCenterline hzero hfinish

theorem getCenterLinePath_correct (hnonneg : ∀ x, 0 ≤ geometry.sqrt x)
    (hzero : geometry.sqrt 0 = 0) (lanelets : List (Lanelet K)) {sStart sEnd : K}
    (hle : sStart ≤ sEnd) :
    (∀ s, (pointsInside geometry lanelets s).length ≤ 1) ∧
    ∃ kept, Thinned geometry (expectedPoints geometry lanelets sStart sEnd) kept ∧
      (∀ point ∈ kept, ∃ llt ∈ lanelets, llt.id ∈ point.laneIds ∧
        IsOnCenterline llt point.position) ∧
      (getCenterLinePath geometry lanelets sStart sEnd true).map located =
        (appendAhead geometry kept).map located := by
  have hthinned : Thinned geometry _ _ :=
    thinned_removeOverlappingPoints (expectedPoints geometry lanelets sStart sEnd)
  refine ⟨fun s => length_pointsInside_le hnonneg lanelets, _, hthinned, ?_, ?_⟩
  · intro point hpoint
    obtain ⟨origin, horigin, hposition, hids⟩ := hthinned.exists_located hpoint
    obtain ⟨llt, hllt, hid, hon⟩ := expectedPoints_onCenterline hzero horigin
    refine ⟨llt, hllt, hids ?_, hposition ▸ hon⟩
    rw [hid]
    exact List.mem_singleton_self _
  · rw [getCenterLinePath, map_located_setAngle, expectedPoints,
      flatMap_rounds hnonneg hle (pairwise_rounds hnonneg _), flatMap_start hnonneg hzero,
      ← flatMap_start (s := sEnd) hnonneg hzero]
    rfl

def straightGeometry : LaneGeometry ℚ Unit :=
  ⟨Rat.sqrt, fun _ => 1, fun _ => 0, fun _ _ => 0, fun _ _ => 0, fun _ => ()⟩

def straightLanelet : Lanelet ℚ := ⟨1, 10, [⟨0, 0, 0⟩, ⟨10, 0, 0⟩]⟩

theorem getCenterLinePath_straight : ∃ kept,
      Thinned straightGeometry (expectedPoints straightGeometry [straightLanelet] 5 10) kept ∧
      (∀ point ∈ kept, ∃ llt ∈ [straightLanelet], llt.id ∈ point.laneIds ∧
        IsOnCenterline llt point.position) ∧
      (getCenterLinePath straightGeometry [straightLanelet] 5 10 true).map located =
        (appendAhead straightGeometry kept).map located := by
  have hnonneg : ∀ x, 0 ≤ straightGeometry.sqrt x := Rat.sqrt_nonneg
  exact (getCenterLinePath_correct hnonneg (by decide +kernel) [straightLanelet]
    (by norm_num)).2

theorem getCenterLinePath_one_arcLength : ¬ ∃ kept,
      Thinned straightGeometry (expectedPoints straightGeometry [straightLanelet] 0 0) kept ∧
      (getCenterLinePath straightGeometry [straightLanelet] 0 0 true).map located =
        kept.map located := by
  rintro ⟨kept, hthinned, hsame⟩
  have hexpected : (expectedPoints straightGeometry [straightLanelet] 0 0).length = 1 := by
    decide +kernel
  have hreturned : (getCenterLinePath straightGeometry [straightLanelet] 0 0 true).length = 2 := by
    decide +kernel
  have hlength := congrArg List.length hsame
  rw [List.length_map, List.length_map, hreturned] at hlength
  have hle := hthinned.length_le
  omega

end AutowareUniverse.Planning.CenterLinePath
