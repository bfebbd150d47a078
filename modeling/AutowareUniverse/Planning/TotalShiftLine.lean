import AutowareUniverse.Library.HeldValues
import AutowareUniverse.Planning.PathShifterRemoval

/-!
# Avoid lines

The shift lines that the avoidance plans, with their distances from the ego vehicle.
-/

namespace AutowareUniverse.Planning.Avoidance

structure AvoidLine (K O : Type) extends ShiftLine K O where
  startShiftLength : K
  /-- Distance from ego to the start point. -/
  startLongitudinal : K
  /-- Distance from ego to the end point. -/
  endLongitudinal : K
  id : ℕ
  parentIds : List ℕ
  deriving DecidableEq

variable {K O : Type}

def toShiftLineArray (avoidPoints : List (AvoidLine K O)) : List (ShiftLine K O) :=
  avoidPoints.map AvoidLine.toShiftLine

variable [Field K]

namespace AvoidLine

variable (self : AvoidLine K O)

def getRelativeLength : K := self.endShiftLength - self.startShiftLength

def getRelativeLongitudinal : K :=
  self.endLongitudinal - self.startLongitudinal

def getGradient : K :=
  self.getRelativeLength / self.getRelativeLongitudinal

end AvoidLine

variable [LinearOrder K]

def OnArc (al : AvoidLine K O) (arc : K) : Prop :=
  al.startLongitudinal ≤ arc ∧ arc < al.endLongitudinal

instance (al : AvoidLine K O) (arc : K) : Decidable (OnArc al arc) :=
  inferInstanceAs (Decidable (_ ∧ _))

def lerpShiftLength (arc : K) (al : AvoidLine K O) : K :=
  if |al.getRelativeLongitudinal| < 1 / 100000 then al.endShiftLength
  else
    let startWeight := (al.endLongitudinal - arc) / al.getRelativeLongitudinal
    startWeight * al.startShiftLength + (1 - startWeight) * al.endShiftLength

theorem lerpShiftLength_endLongitudinal (al : AvoidLine K O) :
    lerpShiftLength al.endLongitudinal al = al.endShiftLength := by
  unfold lerpShiftLength
  dsimp only
  rw [sub_self, zero_div, zero_mul, zero_add, sub_zero, one_mul, ite_self]

def lerpShiftLengthOnArc (arc : K) (al : AvoidLine K O) : K :=
  if OnArc al arc then lerpShiftLength arc al else 0

def findPathIndexFromArclength (pathArclengthArr : List K) (targetArc : K) : ℕ :=
  match pathArclengthArr.findIdx? fun arc => targetArc < arc with
  | some i => i
  | none => pathArclengthArr.length - 1

open Common.MotionUtils PathShifter Library.Fallible Library.HeldValues

structure AvoidancePlanningData (K O : Type) where
  /-- The path before shifting. -/
  referencePath : List (Pose K O)
  egoClosestPathIndex : ℕ
  /-- Negative for points behind the ego vehicle. -/
  arclengthFromEgo : List K
  deriving DecidableEq

structure AvoidanceModule (K O : Type) where
  avoidanceData : AvoidancePlanningData K O
  prevLinearShiftPath : ShiftedPath K O
  egoPosition : Point K
  deriving DecidableEq

/-- The entries at one index of the vectors of `ShiftLineData`. -/
structure ShiftPoint (K : Type) where
  posShift : K
  posShiftGrad : K
  negShift : K
  negShiftGrad : K
  deriving DecidableEq

structure ShiftLineData (K : Type) where
  points : List (ShiftPoint K)
  shiftLine : List K
  shiftLineGrad : List K
  shiftLineHistory : List (List K)
  deriving DecidableEq

section

variable {K O : Type} [Field K] [LinearOrder K] (env : Environment K O)

def calcAvoidancePlanningData (referencePath : List (Pose K O)) (referencePose : Pose K O)
    (egoPosition : Point K) : Except Failure (AvoidancePlanningData K O) := do
  let nearestSegmentIndex ←
    findNearestSegmentIndex env.toTrigonometry referencePath referencePose.position
  match calcSignedArcLengthToPoint env.toTrigonometry referencePath egoPosition with
  | none => throw .notANumber
  | some length =>
    return {
      referencePath
      egoClosestPathIndex := min (nearestSegmentIndex + 1) (referencePath.length - 1)
      arclengthFromEgo := arcLengthsFrom env (-length) referencePath }

variable (data : AvoidancePlanningData K O)

def distPathFrontToEgo : K :=
  calcSignedArcLength env.toTrigonometry data.referencePath 0 data.egoClosestPathIndex

def fillFromPoint (sl : AvoidLine K O) :
    Except Failure (AvoidLine K O) := do
  let arclength := calcPathArcLengthArray env data.referencePath
  let startIdx ← findNearestIndex data.referencePath sl.startPose.position
  let atStart ← atIndex arclength startIdx
  let endIdx ← findNearestIndex data.referencePath sl.endPose.position
  let atEnd ← atIndex arclength endIdx
  return { sl with
    startIdx
    startLongitudinal := atStart - distPathFrontToEgo env data
    endIdx
    endLongitudinal := atEnd - distPathFrontToEgo env data }

def fillAdditionalInfoFromPoint
    (shiftLines : List (AvoidLine K O)) : Except Failure (List (AvoidLine K O)) :=
  shiftLines.mapM (fillFromPoint env data)

def fillFromLongitudinal (sl : AvoidLine K O) :
    Except Failure (AvoidLine K O) := do
  let arclength := calcPathArcLengthArray env data.referencePath
  let startIdx :=
    findPathIndexFromArclength arclength (sl.startLongitudinal + distPathFrontToEgo env data)
  let startPose ← atIndex data.referencePath startIdx
  let endIdx :=
    findPathIndexFromArclength arclength (sl.endLongitudinal + distPathFrontToEgo env data)
  let endPose ← atIndex data.referencePath endIdx
  return { sl with
    startIdx
    startPose
    endIdx
    endPose }

def fillAdditionalInfoFromLongitudinal
    (shiftLines : List (AvoidLine K O)) : Except Failure (List (AvoidLine K O)) :=
  shiftLines.mapM (fillFromLongitudinal env data)

def getCurrentLinearShift (self : AvoidanceModule K O) : Except Failure K := do
  let nearestIdx ← findNearestIndex self.prevLinearShiftPath.path self.egoPosition
  atIndex self.prevLinearShiftPath.shiftLength nearestIdx

/-- The largest shift to either side. -/
def updatePoint (arc : K) (point : ShiftPoint K) (al : AvoidLine K O) : ShiftPoint K :=
  let iShift := lerpShiftLengthOnArc arc al
  let point :=
    if point.posShift < iShift then
      { point with posShift := iShift, posShiftGrad := al.getGradient }
    else point
  if iShift < point.negShift then
    { point with negShift := iShift, negShiftGrad := al.getGradient }
  else point

def shiftPoint (avoidLines : List (AvoidLine K O)) (arc : K) : ShiftPoint K :=
  avoidLines.foldl (updatePoint arc) ⟨0, 0, 0, 0⟩

def hasObject (avoidLines : List (AvoidLine K O)) (i : ℕ) : Bool :=
  avoidLines.any fun al => al.startIdx ≤ i ∧ i ≤ al.endIdx

def overwriteUntil (egoIdx : ℕ) (value : K) (values : List K) : Except Failure (List K) :=
  if egoIdx < values.length then
    return values.mapIdx fun i old => if i ≤ egoIdx then value else old
  else throw .outOfRange

def generateTotalShiftLine (self : AvoidanceModule K O) (avoidLines : List (AvoidLine K O)) :
    Except Failure (ShiftLineData K) := do
  let arcs := self.avoidanceData.arclengthFromEgo
  let points := arcs.map (shiftPoint avoidLines)
  let egoIdx := self.avoidanceData.egoClosestPathIndex
  let currentShift ← getCurrentLinearShift self
  let shiftLine ← overwriteUntil egoIdx currentShift
    (points.map fun point => point.posShift + point.negShift)
  let shiftLineGrad ← overwriteUntil egoIdx 0
    (points.map fun point => point.posShiftGrad + point.negShiftGrad)
  -- Without an object the previous value is used.
  let shiftLine := hold (hasObject avoidLines) shiftLine
  return {
    points
    shiftLine
    shiftLineGrad
    shiftLineHistory :=
      (avoidLines.map fun al => arcs.map fun arc => lerpShiftLengthOnArc arc al) ++ [shiftLine] }

end

section

variable {K O : Type} [Field K] [LinearOrder K]

def LerpedTo (avoidLines : List (AvoidLine K O)) (arc value : K) : Prop :=
  (∃ line ∈ avoidLines, OnArc line arc ∧ lerpShiftLength arc line = value) ∨
    ((∀ line ∈ avoidLines, ¬ OnArc line arc) ∧ value = 0)

theorem foldl_updatePoint_of_not_onArc {arc : K} {lines : List (AvoidLine K O)}
    (hlines : ∀ line ∈ lines, ¬ OnArc line arc) {point : ShiftPoint K} (hpos : 0 ≤ point.posShift)
    (hneg : point.negShift ≤ 0) : lines.foldl (updatePoint arc) point = point := by
  induction lines with
  | nil => rfl
  | cons first rest ih =>
    have hzero : lerpShiftLengthOnArc arc first = 0 := if_neg (hlines first (List.mem_cons_self ..))
    have hfirst : updatePoint arc point first = point := by
      unfold updatePoint
      dsimp only
      rw [hzero, if_neg hpos.not_gt, if_neg hneg.not_gt]
    rw [List.foldl_cons, hfirst]
    exact ih fun line hmem => hlines line (List.mem_cons_of_mem _ hmem)

/-- A single line leaves its shift on one of the sides. -/
theorem updatePoint_zero (arc : K) (line : AvoidLine K O) :
    0 ≤ (updatePoint arc ⟨0, 0, 0, 0⟩ line).posShift ∧
      (updatePoint arc ⟨0, 0, 0, 0⟩ line).negShift ≤ 0 ∧
      (updatePoint arc ⟨0, 0, 0, 0⟩ line).posShift + (updatePoint arc ⟨0, 0, 0, 0⟩ line).negShift =
        lerpShiftLengthOnArc arc line := by
  unfold updatePoint
  dsimp only
  rcases lt_trichotomy (lerpShiftLengthOnArc arc line) 0 with hneg | hzero | hpos
  · rw [if_neg hneg.not_gt, if_pos hneg]
    exact ⟨le_rfl, hneg.le, zero_add _⟩
  · rw [hzero, if_neg (lt_irrefl _), if_neg (lt_irrefl _)]
    exact ⟨le_rfl, le_rfl, zero_add _⟩
  · rw [if_pos hpos, if_neg hpos.not_gt]
    exact ⟨hpos.le, le_rfl, add_zero _⟩

theorem shiftPoint_eq_iff {avoidLines : List (AvoidLine K O)} {arc : K}
    (halone : avoidLines.Pairwise fun line other => ¬ (OnArc line arc ∧ OnArc other arc))
    (value : K) :
    (shiftPoint avoidLines arc).posShift + (shiftPoint avoidLines arc).negShift = value ↔
      LerpedTo avoidLines arc value := by
  by_cases hsome : ∃ line ∈ avoidLines, OnArc line arc
  · obtain ⟨line, hmem, honArc⟩ := hsome
    obtain ⟨early, late, rfl⟩ := List.append_of_mem hmem
    obtain ⟨_, hlate, hcross⟩ := List.pairwise_append.mp halone
    have hearlyOff : ∀ other ∈ early, ¬ OnArc other arc := fun other hother hon =>
      hcross other hother line (List.mem_cons_self ..) ⟨hon, honArc⟩
    have hlateOff : ∀ other ∈ late, ¬ OnArc other arc := fun other hother hon =>
      (List.pairwise_cons.mp hlate).1 other hother ⟨honArc, hon⟩
    obtain ⟨hpos, hneg, hsum⟩ := updatePoint_zero arc line
    have hpoint : shiftPoint (early ++ line :: late) arc = updatePoint arc ⟨0, 0, 0, 0⟩ line := by
      unfold shiftPoint
      rw [List.foldl_append, foldl_updatePoint_of_not_onArc hearlyOff le_rfl le_rfl,
        List.foldl_cons, foldl_updatePoint_of_not_onArc hlateOff hpos hneg]
    rw [hpoint, hsum, lerpShiftLengthOnArc, if_pos honArc]
    constructor
    · exact fun hvalue => .inl ⟨line, hmem, honArc, hvalue⟩
    · rintro (⟨other, hother, hon, hvalue⟩ | ⟨hnone, _⟩)
      · rcases List.mem_append.mp hother with hother | hother
        · exact absurd hon (hearlyOff other hother)
        · rcases List.mem_cons.mp hother with rfl | hother
          · exact hvalue
          · exact absurd hon (hlateOff other hother)
      · exact absurd honArc (hnone line hmem)
  · have hnone : ∀ line ∈ avoidLines, ¬ OnArc line arc := fun line hmem hon =>
      hsome ⟨line, hmem, hon⟩
    have hpoint : shiftPoint avoidLines arc = ⟨0, 0, 0, 0⟩ :=
      foldl_updatePoint_of_not_onArc hnone le_rfl le_rfl
    rw [hpoint, add_zero]
    constructor
    · exact fun hvalue => .inr ⟨hnone, hvalue.symm⟩
    · rintro (⟨line, hmem, hon, _⟩ | ⟨_, hvalue⟩)
      · exact absurd hon (hnone line hmem)
      · exact hvalue.symm

end

/-! ## The ends of the lines -/

section

variable {K O : Type} [Field K] [LinearOrder K] {env : Environment K O}
  {data : AvoidancePlanningData K O}

/-- The indices and lengths of the line belong together. -/
def Filled (env : Environment K O) (data : AvoidancePlanningData K O) (line : AvoidLine K O) :
    Prop :=
  fillFromPoint env data line = .ok line ∨ fillFromLongitudinal env data line = .ok line

/-- What the ends of a line have in common, from whichever side they are filled. -/
structure EndsOn (env : Environment K O) (data : AvoidancePlanningData K O)
    (line : AvoidLine K O) : Prop where
  startIdx : line.startIdx < data.referencePath.length
  endIdx : line.endIdx < data.referencePath.length
  start : ∀ j < line.startIdx,
    arc env data.referencePath j ≤ line.startLongitudinal + distPathFrontToEgo env data
  stop : line.endIdx + 1 < data.referencePath.length →
    line.endLongitudinal + distPathFrontToEgo env data ≤ arc env data.referencePath line.endIdx

section
omit [Field K]

theorem findPathIndexFromArclength_before {arclengths : List K} {target : K} {j : ℕ}
    (hlt : j < findPathIndexFromArclength arclengths target) {length : K}
    (hlength : arclengths[j]? = some length) : length ≤ target := by
  unfold findPathIndexFromArclength at hlt
  cases hfound : arclengths.findIdx? fun arc => target < arc with
  | none =>
    have hnot := List.findIdx?_eq_none_iff.mp hfound length (List.mem_of_getElem? hlength)
    exact not_lt.mp (of_decide_eq_false hnot)
  | some i =>
    rw [hfound] at hlt
    obtain ⟨hbound, _, hbefore⟩ := List.findIdx?_eq_some_iff_getElem.mp hfound
    have hnot := hbefore j hlt
    obtain ⟨_, hget⟩ := List.getElem?_eq_some_iff.mp hlength
    rw [hget] at hnot
    exact not_lt.mp (of_decide_eq_false (Bool.eq_false_iff.mpr hnot))

theorem findPathIndexFromArclength_at {arclengths : List K} {target : K} {length : K}
    (hnext : findPathIndexFromArclength arclengths target + 1 < arclengths.length)
    (hlength : arclengths[findPathIndexFromArclength arclengths target]? = some length) :
    target < length := by
  unfold findPathIndexFromArclength at hnext hlength
  cases hfound : arclengths.findIdx? fun arc => target < arc with
  | none =>
    rw [hfound] at hnext
    dsimp only at hnext
    omega
  | some i =>
    rw [hfound] at hlength
    obtain ⟨hbound, hlt, _⟩ := List.findIdx?_eq_some_iff_getElem.mp hfound
    have hget : arclengths[i] = length := (List.getElem?_eq_some_iff.mp hlength).2
    rw [hget] at hlt
    exact of_decide_eq_true hlt

end

section
omit [LinearOrder K]

theorem length_arcLengthsFrom_of_ne (sum : K) {path : List (Pose K O)} (hne : path ≠ []) :
    (arcLengthsFrom env sum path).length = path.length := by
  cases path with
  | nil => exact absurd rfl hne
  | cons first rest => exact length_arcLengthsFrom sum first rest

theorem getElem?_calcPathArcLengthArray {path : List (Pose K O)} {i : ℕ} (hlt : i < path.length) :
    (calcPathArcLengthArray env path)[i]? = some (arc env path i) :=
  atIndex_eq_ok.mp (atIndex_calcPathArcLengthArray hlt)

end

variable [IsStrictOrderedRing K] {line : AvoidLine K O}

theorem endsOn_of_fillFromPoint (hsqrt : ∀ value, 0 ≤ env.sqrt value)
    (hfilled : fillFromPoint env data line = .ok line) : EndsOn env data line := by
  obtain ⟨startIdx, hstartIdx, hfilled⟩ := bind_eq_ok.mp hfilled
  obtain ⟨atStart, hatStart, hfilled⟩ := bind_eq_ok.mp hfilled
  obtain ⟨endIdx, hendIdx, hfilled⟩ := bind_eq_ok.mp hfilled
  obtain ⟨atEnd, hatEnd, hfilled⟩ := bind_eq_ok.mp hfilled
  have hline := Except.ok.inj hfilled
  have hstartEq : line.startIdx = startIdx :=
    (congrArg (fun sl : AvoidLine K O => sl.startIdx) hline).symm
  have hendEq : line.endIdx = endIdx := (congrArg (fun sl : AvoidLine K O => sl.endIdx) hline).symm
  have hstartLong : line.startLongitudinal = atStart - distPathFrontToEgo env data :=
    (congrArg AvoidLine.startLongitudinal hline).symm
  have hendLong : line.endLongitudinal = atEnd - distPathFrontToEgo env data :=
    (congrArg AvoidLine.endLongitudinal hline).symm
  have hstartLt := findNearestIndex_lt hstartIdx
  have hendLt := findNearestIndex_lt hendIdx
  rw [atIndex_calcPathArcLengthArray hstartLt] at hatStart
  rw [atIndex_calcPathArcLengthArray hendLt] at hatEnd
  obtain rfl := Except.ok.inj hatStart
  obtain rfl := Except.ok.inj hatEnd
  refine ⟨hstartEq ▸ hstartLt, hendEq ▸ hendLt, fun j hlt => ?_, fun _ => ?_⟩
  · rw [hstartLong, sub_add_cancel]
    exact arc_mono hsqrt (by omega) hstartLt
  · rw [hendLong, sub_add_cancel, hendEq]

omit [IsStrictOrderedRing K] in
theorem endsOn_of_fillFromLongitudinal
    (hfilled : fillFromLongitudinal env data line = .ok line) : EndsOn env data line := by
  obtain ⟨startPose, hstartPose, hfilled⟩ := bind_eq_ok.mp hfilled
  obtain ⟨endPose, hendPose, hfilled⟩ := bind_eq_ok.mp hfilled
  have hline := Except.ok.inj hfilled
  have hstartEq := congrArg (fun sl : AvoidLine K O => sl.startIdx) hline
  have hendEq := congrArg (fun sl : AvoidLine K O => sl.endIdx) hline
  dsimp only at hstartEq hendEq
  have hstartLt := (List.getElem?_eq_some_iff.mp (atIndex_eq_ok.mp hstartPose)).1
  have hendLt := (List.getElem?_eq_some_iff.mp (atIndex_eq_ok.mp hendPose)).1
  have hne : data.referencePath ≠ [] := List.ne_nil_of_length_pos (by omega)
  refine ⟨hstartEq ▸ hstartLt, hendEq ▸ hendLt, fun j hlt => ?_, fun hnext => ?_⟩
  · rw [← hstartEq] at hlt
    exact findPathIndexFromArclength_before hlt
      (getElem?_calcPathArcLengthArray (hlt.trans hstartLt))
  · rw [← hendEq] at hnext ⊢
    refine (findPathIndexFromArclength_at ?_ (getElem?_calcPathArcLengthArray hendLt)).le
    rw [calcPathArcLengthArray, length_arcLengthsFrom_of_ne 0 hne]
    exact hnext

theorem Filled.endsOn (hsqrt : ∀ value, 0 ≤ env.sqrt value)
    (hfilled : Filled env data line) : EndsOn env data line :=
  hfilled.elim (endsOn_of_fillFromPoint hsqrt) endsOn_of_fillFromLongitudinal

omit [IsStrictOrderedRing K] in
theorem EndsOn.endLongitudinal_le [IsOrderedAddMonoid K] {line other : AvoidLine K O}
    (hline : EndsOn env data line) (hother : EndsOn env data other)
    (hlt : line.endIdx < other.startIdx) : line.endLongitudinal ≤ other.startLongitudinal := by
  have hstop := hline.stop (lt_of_le_of_lt hlt hother.startIdx)
  have hstart := hother.start line.endIdx hlt
  exact le_of_add_le_add_right (hstop.trans hstart)

end

/-! ## The total shift -/

section

variable {K O : Type} [Field K] [LinearOrder K] {env : Environment K O}

/-- The index is behind the line and in front of another one, and the line is the last that has
started. -/
def IsGap (avoidLines : List (AvoidLine K O)) (line : AvoidLine K O) (i : ℕ) : Prop :=
  line.endIdx < i ∧ (∃ next ∈ avoidLines, i < next.startIdx) ∧
    ∀ other ∈ avoidLines, other.startIdx ≤ i → other.endIdx ≤ line.endIdx

structure Interpolates (data : AvoidancePlanningData K O) (avoidLines : List (AvoidLine K O))
    (shiftLine : List K) : Prop where
  inside : ∀ line ∈ avoidLines, ∀ i, data.egoClosestPathIndex < i → line.startIdx ≤ i →
    i ≤ line.endIdx → ∃ arc, data.arclengthFromEgo[i]? = some arc ∧ shiftLine[i]? =
        some (lerpShiftLength (clamp arc line.startLongitudinal line.endLongitudinal) line)
  between : ∀ line ∈ avoidLines, ∀ i, data.egoClosestPathIndex < i → IsGap avoidLines line i →
    shiftLine[i]? = some line.endShiftLength

/-- A point that is not on its line by its arc length, and the point at the end of a line with a
gap behind it, has the shift it should have all the same, and so has the ego vehicle in a gap. -/
structure RightlySampled (data : AvoidancePlanningData K O) (currentShift : K)
    (avoidLines : List (AvoidLine K O)) : Prop where
  inside : ∀ line ∈ avoidLines, ∀ i arc, data.egoClosestPathIndex < i → line.startIdx ≤ i →
    i ≤ line.endIdx → data.arclengthFromEgo[i]? = some arc → ¬ OnArc line arc →
      LerpedTo avoidLines arc
        (lerpShiftLength (clamp arc line.startLongitudinal line.endLongitudinal) line)
  atEnd : ∀ line ∈ avoidLines, ∀ i arc, data.egoClosestPathIndex < line.endIdx →
    IsGap avoidLines line i → data.arclengthFromEgo[line.endIdx]? = some arc →
      LerpedTo avoidLines arc line.endShiftLength
  atEgo : ∀ line ∈ avoidLines, ∀ i, line.endIdx ≤ data.egoClosestPathIndex →
    data.egoClosestPathIndex < i → IsGap avoidLines line i → currentShift = line.endShiftLength

/-- Before anything is held. -/
def mergedShift (data : AvoidancePlanningData K O) (currentShift : K)
    (avoidLines : List (AvoidLine K O)) : List K :=
  ((data.arclengthFromEgo.map (shiftPoint avoidLines)).map fun point =>
    point.posShift + point.negShift).mapIdx fun i old =>
      if i ≤ data.egoClosestPathIndex then currentShift else old

variable {self : AvoidanceModule K O} {avoidLines : List (AvoidLine K O)} {currentShift : K}
  {line : AvoidLine K O}

omit [Field K] in
theorem clamp_of_onArc {arc : K} (honArc : OnArc line arc) :
    clamp arc line.startLongitudinal line.endLongitudinal = arc := by
  unfold clamp
  rw [if_neg honArc.1.not_gt, if_neg honArc.2.not_gt]

variable {data : AvoidancePlanningData K O}

theorem getElem?_mergedShift {i : ℕ} :
    (mergedShift data currentShift avoidLines)[i]? = data.arclengthFromEgo[i]?.map fun arc =>
      if i ≤ data.egoClosestPathIndex then currentShift
      else (shiftPoint avoidLines arc).posShift + (shiftPoint avoidLines arc).negShift := by
  unfold mergedShift
  rw [List.getElem?_mapIdx, List.getElem?_map, List.getElem?_map, Option.map_map, Option.map_map]
  rfl

theorem length_mergedShift (data : AvoidancePlanningData K O) :
    (mergedShift data currentShift avoidLines).length = data.arclengthFromEgo.length := by
  unfold mergedShift
  rw [List.length_mapIdx, List.length_map, List.length_map]

theorem generateTotalShiftLine_eq
    (hego : self.avoidanceData.egoClosestPathIndex < self.avoidanceData.arclengthFromEgo.length)
    (hshift : getCurrentLinearShift self = .ok currentShift) :
    ∃ result, generateTotalShiftLine self avoidLines = .ok result ∧ result.shiftLine =
        hold (hasObject avoidLines) (mergedShift self.avoidanceData currentShift avoidLines) := by
  unfold generateTotalShiftLine
  dsimp only
  rw [hshift]
  have hlength : ∀ values : ShiftPoint K → K, self.avoidanceData.egoClosestPathIndex <
      ((self.avoidanceData.arclengthFromEgo.map (shiftPoint avoidLines)).map values).length :=
    fun values => by
      rw [List.length_map, List.length_map]
      exact hego
  unfold overwriteUntil
  simp only [if_pos (hlength _)]
  exact ⟨_, rfl, rfl⟩

theorem hold_mergedShift_of_covered (hmem : line ∈ avoidLines) {i : ℕ} (hstart : line.startIdx ≤ i)
    (hend : i ≤ line.endIdx) (hego : data.egoClosestPathIndex < i) :
    (hold (hasObject avoidLines) (mergedShift data currentShift avoidLines))[i]? =
      data.arclengthFromEgo[i]?.map fun arc =>
        (shiftPoint avoidLines arc).posShift + (shiftPoint avoidLines arc).negShift := by
  have htaken : hasObject avoidLines i :=
    List.any_eq_true.mpr ⟨line, hmem, decide_eq_true ⟨hstart, hend⟩⟩
  rw [hold_of_taken htaken, getElem?_mergedShift]
  simp only [if_neg (not_le.mpr hego)]

theorem hold_mergedShift_of_gap {i k : ℕ} (hgap : IsGap avoidLines line i)
    (hlower : line.endIdx ≤ k) (hupper : k ≤ i) (hlt : i < data.arclengthFromEgo.length) :
    (hold (hasObject avoidLines) (mergedShift data currentShift avoidLines))[i]? =
      (hold (hasObject avoidLines) (mergedShift data currentShift avoidLines))[k]? := by
  refine hold_of_not_taken hupper (by rw [length_mergedShift]; exact hlt) fun j hkj hji => ?_
  refine List.any_eq_false.mpr fun other hother hcovered => ?_
  obtain ⟨hstart, hend⟩ := of_decide_eq_true hcovered
  have hle := hgap.2.2 other hother (hstart.trans hji)
  omega

theorem hold_mergedShift_of_le {i : ℕ}
    (hle : i ≤ data.egoClosestPathIndex) (hlt : i < data.arclengthFromEgo.length) :
    (hold (hasObject avoidLines) (mergedShift data currentShift avoidLines))[i]? =
      some currentShift := by
  refine hold_of_constant (by rw [length_mergedShift]; exact hlt) fun j hji => ?_
  rw [getElem?_mergedShift, List.getElem?_eq_getElem (hji.trans_lt hlt), Option.map_some,
    if_pos (hji.trans hle)]

theorem hold_mergedShift_interpolates_iff
    (hego : data.egoClosestPathIndex < data.arclengthFromEgo.length)
    (hordered : ∀ line ∈ avoidLines, line.startIdx ≤ line.endIdx)
    (hsize : ∀ line ∈ avoidLines, line.startIdx < data.arclengthFromEgo.length ∧
      line.endIdx < data.arclengthFromEgo.length)
    (halone : ∀ arc, avoidLines.Pairwise fun line other => ¬ (OnArc line arc ∧ OnArc other arc)) :
    Interpolates data avoidLines
        (hold (hasObject avoidLines) (mergedShift data currentShift avoidLines)) ↔
      RightlySampled data currentShift avoidLines := by
  have hgapLt : ∀ {line i}, IsGap avoidLines line i → i < data.arclengthFromEgo.length := by
    rintro line i ⟨_, ⟨next, hnext, hlt⟩, _⟩
    exact hlt.trans (hsize next hnext).1
  constructor
  · intro hinterpolates
    refine ⟨fun line hmem i arc hlt hstart hend harc _ => ?_,
      fun line hmem i arc hlt hgap harc => ?_, fun line hmem i hle hlt hgap => ?_⟩
    · obtain ⟨arc', harc', hvalue⟩ := hinterpolates.inside line hmem i hlt hstart hend
      obtain rfl := Option.some.inj (harc.symm.trans harc')
      rw [hold_mergedShift_of_covered hmem hstart hend hlt, harc, Option.map_some] at hvalue
      exact (shiftPoint_eq_iff (halone arc) _).mp (Option.some.inj hvalue)
    · have hvalue := hinterpolates.between line hmem i (hlt.trans hgap.1) hgap
      rw [hold_mergedShift_of_gap hgap le_rfl hgap.1.le (hgapLt hgap),
        hold_mergedShift_of_covered hmem (hordered line hmem) le_rfl hlt, harc,
        Option.map_some] at hvalue
      exact (shiftPoint_eq_iff (halone arc) _).mp (Option.some.inj hvalue)
    · have hvalue := hinterpolates.between line hmem i hlt hgap
      rw [hold_mergedShift_of_gap hgap hle hlt.le (hgapLt hgap),
        hold_mergedShift_of_le le_rfl hego] at hvalue
      exact Option.some.inj hvalue
  · intro hsampled
    refine ⟨fun line hmem i hlt hstart hend => ?_, fun line hmem i hlt hgap => ?_⟩
    · have hi := hend.trans_lt (hsize line hmem).2
      have harc := List.getElem?_eq_getElem hi
      refine ⟨_, harc, ?_⟩
      rw [hold_mergedShift_of_covered hmem hstart hend hlt, harc, Option.map_some]
      refine congrArg some ((shiftPoint_eq_iff (halone _) _).mpr ?_)
      by_cases honArc : OnArc line data.arclengthFromEgo[i]
      · rw [clamp_of_onArc honArc]
        exact .inl ⟨line, hmem, honArc, rfl⟩
      · exact hsampled.inside line hmem i _ hlt hstart hend harc honArc
    · rcases lt_or_ge data.egoClosestPathIndex line.endIdx with hbehind | hpassed
      · have harc := List.getElem?_eq_getElem (hsize line hmem).2
        rw [hold_mergedShift_of_gap hgap le_rfl hgap.1.le (hgapLt hgap),
          hold_mergedShift_of_covered hmem (hordered line hmem) le_rfl hbehind, harc,
          Option.map_some]
        exact congrArg some ((shiftPoint_eq_iff (halone _) _).mpr
          (hsampled.atEnd line hmem i _ hbehind hgap harc))
      · rw [hold_mergedShift_of_gap hgap hpassed hlt.le (hgapLt hgap),
          hold_mergedShift_of_le le_rfl hego]
        exact congrArg some (hsampled.atEgo line hmem i hpassed hlt hgap)

/-- The lengths from the ego position are those along the path, up to where they start. -/
theorem calcAvoidancePlanningData_eq_ok {path : List (Pose K O)} {referencePose : Pose K O}
    {egoPosition : Point K}
    (hdata : calcAvoidancePlanningData env path referencePose egoPosition = .ok data) :
    ∃ length, calcSignedArcLengthToPoint env.toTrigonometry path egoPosition = some length ∧
      data.referencePath = path ∧ data.egoClosestPathIndex < path.length ∧
      data.arclengthFromEgo = arcLengthsFrom env (-length) path := by
  obtain ⟨segIdx, hsegIdx, hdata⟩ := bind_eq_ok.mp hdata
  obtain ⟨nearestIdx, hnearestIdx, _⟩ := bind_eq_ok.mp hsegIdx
  have hpos := findNearestIndex_lt hnearestIdx
  cases hlength : calcSignedArcLengthToPoint env.toTrigonometry path egoPosition with
  | none =>
    rw [hlength] at hdata
    cases hdata
  | some length =>
    rw [hlength] at hdata
    cases hdata
    refine ⟨length, rfl, rfl, ?_, rfl⟩
    dsimp only
    omega

variable [IsStrictOrderedRing K]

/-- The total shift interpolates the lines and holds their ends exactly if the points that the
two readings of a line disagree on have the right shift all the same. -/
theorem generateTotalShiftLine_interpolates_iff (hsqrt : ∀ value, 0 ≤ env.sqrt value)
    {path : List (Pose K O)} {referencePose : Pose K O}
    (hdata : calcAvoidancePlanningData env path referencePose self.egoPosition =
      .ok self.avoidanceData)
    (hshift : getCurrentLinearShift self = .ok currentShift)
    (hfilled : ∀ line ∈ avoidLines, Filled env self.avoidanceData line)
    (hordered : ∀ line ∈ avoidLines, line.startIdx ≤ line.endIdx)
    (hdisjoint : avoidLines.Pairwise fun line other =>
      line.endIdx < other.startIdx ∨ other.endIdx < line.startIdx) :
    ∃ result, generateTotalShiftLine self avoidLines = .ok result ∧
      (Interpolates self.avoidanceData avoidLines result.shiftLine ↔
        RightlySampled self.avoidanceData currentShift avoidLines) := by
  obtain ⟨length, _, hpath, hego, harcs⟩ := calcAvoidancePlanningData_eq_ok hdata
  have hlength : self.avoidanceData.arclengthFromEgo.length =
      self.avoidanceData.referencePath.length := by
    rw [harcs, hpath]
    exact length_arcLengthsFrom_of_ne _ (List.ne_nil_of_length_pos (by omega))
  have hego : self.avoidanceData.egoClosestPathIndex <
      self.avoidanceData.arclengthFromEgo.length := by
    rw [hlength, hpath]
    exact hego
  obtain ⟨result, hresult, hshiftLine⟩ :=
    @generateTotalShiftLine_eq _ _ _ _ _ avoidLines _ hego hshift
  refine ⟨result, hresult, ?_⟩
  rw [hshiftLine]
  have hends := fun line hmem => (hfilled line hmem).endsOn hsqrt
  refine hold_mergedShift_interpolates_iff hego hordered (fun line hmem => ?_) fun arc => ?_
  · rw [hlength]
    exact ⟨(hends line hmem).startIdx, (hends line hmem).endIdx⟩
  · refine hdisjoint.imp_of_mem fun {line other} hline hother hapart honArc => ?_
    obtain ⟨⟨hstart, hend⟩, hstartOther, hendOther⟩ := honArc
    rcases hapart with hbefore | hbehind
    · have hle := (hends line hline).endLongitudinal_le (hends other hother) hbefore
      exact absurd (hend.trans_le (hle.trans hstartOther)) (lt_irrefl arc)
    · have hle := (hends other hother).endLongitudinal_le (hends line hline) hbehind
      exact absurd (hendOther.trans_le (hle.trans hstart)) (lt_irrefl arc)

end

def straightPath : List (Pose ℚ (ℚ × ℚ)) := (List.range 10).map fun i : ℕ => poseAt i

/-- The ego vehicle is between the first two points, with the given shift. -/
def straightModule (currentShift : ℚ) : AvoidanceModule ℚ (ℚ × ℚ) where
  avoidanceData :=
    { referencePath := straightPath
      egoClosestPathIndex := 1
      arclengthFromEgo := (List.range 10).map fun i : ℕ => (i : ℚ) - 3 / 4 }
  prevLinearShiftPath := ⟨straightPath, List.replicate 10 currentShift⟩
  egoPosition := ⟨3 / 4, 0, 0⟩

/-- A line between two lengths and the indices that belong to them. -/
def avoidAlong (startIdx endIdx : ℕ) (startLongitudinal endLongitudinal startShiftLength
    endShiftLength : ℚ) : AvoidLine ℚ (ℚ × ℚ) :=
  ⟨⟨poseAt startIdx, poseAt endIdx, endShiftLength, startIdx, endIdx⟩, startShiftLength,
    startLongitudinal, endLongitudinal, 0, []⟩

/-- The shift of an object is lost at the end of its line, before the line that returns. -/
theorem avoid_shift_lost :
    let self := straightModule 0
    let avoidLines := [avoidAlong 2 4 (1 / 4) (5 / 2) 0 1, avoidAlong 6 8 (9 / 2) (13 / 2) 1 0]
    calcAvoidancePlanningData straightEnvironment straightPath (poseAt (3 / 4)) self.egoPosition =
        .ok self.avoidanceData ∧
      getCurrentLinearShift self = .ok 0 ∧
      fillAdditionalInfoFromLongitudinal straightEnvironment self.avoidanceData avoidLines =
        .ok avoidLines ∧
      ∃ result, generateTotalShiftLine self avoidLines = .ok result ∧
        result.shiftLine = [0, 0, 4 / 9, 8 / 9, 0, 0, 5 / 8, 1 / 8, 0, 0] ∧
        ¬ Interpolates self.avoidanceData avoidLines result.shiftLine := by
  intro self avoidLines
  have hshift : getCurrentLinearShift self = .ok 0 := by decide +kernel
  obtain ⟨result, hresult, hshiftLine⟩ :=
    @generateTotalShiftLine_eq _ _ _ _ self avoidLines 0 (by decide) hshift
  have hvalues : hold (hasObject avoidLines) (mergedShift self.avoidanceData 0 avoidLines) =
      [0, 0, 4 / 9, 8 / 9, 0, 0, 5 / 8, 1 / 8, 0, 0] := by
    decide +kernel
  rw [hvalues] at hshiftLine
  refine ⟨by decide +kernel, hshift, by decide +kernel, result, hresult, hshiftLine,
    fun hinterpolates => ?_⟩
  have hgap : IsGap avoidLines (avoidAlong 2 4 (1 / 4) (5 / 2) 0 1) 5 :=
    ⟨by decide, ⟨_, List.mem_cons_of_mem _ (List.mem_singleton_self _), by decide⟩, by decide⟩
  have hbetween := hinterpolates.between _ (List.mem_cons_self ..) 5 (by decide) hgap
  rw [hshiftLine] at hbetween
  exact absurd hbetween (by decide +kernel)

/-- A line back to the reference path may end where no line is. -/
theorem return_shift_held :
    let self := straightModule 1
    let avoidLines := [avoidAlong 2 4 (1 / 4) (5 / 2) 1 0]
    ∃ result, generateTotalShiftLine self avoidLines = .ok result ∧
      Interpolates self.avoidanceData avoidLines result.shiftLine := by
  intro self avoidLines
  have hdata : calcAvoidancePlanningData straightEnvironment straightPath (poseAt (3 / 4))
      self.egoPosition = .ok self.avoidanceData := by
    decide +kernel
  have hshift : getCurrentLinearShift self = .ok 1 := by decide +kernel
  have hfilled : ∀ line ∈ avoidLines, Filled straightEnvironment self.avoidanceData line := by
    intro line hmem
    obtain rfl := List.mem_singleton.mp hmem
    exact .inr (by decide +kernel)
  have hsqrt : ∀ value, 0 ≤ straightEnvironment.sqrt value := Rat.sqrt_nonneg
  obtain ⟨result, hresult, hiff⟩ := generateTotalShiftLine_interpolates_iff hsqrt hdata hshift
    hfilled (by decide) (List.pairwise_singleton _ _)
  have hnoGap : ∀ line ∈ avoidLines, ∀ i, ¬ IsGap avoidLines line i := by
    rintro line hmem i ⟨hlt, ⟨next, hnext, hbefore⟩, _⟩
    obtain rfl := List.mem_singleton.mp hmem
    obtain rfl := List.mem_singleton.mp hnext
    exact absurd (hlt.trans hbefore) (by decide)
  refine ⟨result, hresult, hiff.mpr ⟨fun line hmem i arc _ hstart hend harc hoff => ?_,
    fun line hmem i _ _ hgap => absurd hgap (hnoGap line hmem i),
    fun line hmem i _ _ hgap => absurd hgap (hnoGap line hmem i)⟩⟩
  obtain rfl := List.mem_singleton.mp hmem
  have hend : i ≤ 4 := hend
  have hstart : 2 ≤ i := hstart
  have hat : ∀ {value}, self.avoidanceData.arclengthFromEgo[i]? = some value → arc = value :=
    fun hvalue => Option.some.inj (harc.symm.trans hvalue)
  obtain rfl | rfl | rfl : i = 2 ∨ i = 3 ∨ i = 4 := by omega
  · obtain rfl : arc = 5 / 4 := hat (by decide +kernel)
    exact absurd (by decide +kernel) hoff
  · obtain rfl : arc = 9 / 4 := hat (by decide +kernel)
    exact absurd (by decide +kernel) hoff
  · obtain rfl : arc = 13 / 4 := hat (by decide +kernel)
    refine .inr ⟨fun other hother => ?_, by decide +kernel⟩
    obtain rfl := List.mem_singleton.mp hother
    exact hoff

/-! ## New lines for the path shifter -/

section

variable {K O : Type} [Field K] [LinearOrder K]

/-- The new shift goes further out, to the same side. -/
def isSuperseded (endShiftLength newShiftLength : K) : Bool :=
  (-(1 / 1000) < endShiftLength ∧ -(1 / 1000) < newShiftLength ∧ endShiftLength < newShiftLength) ∨
    (endShiftLength < 1 / 1000 ∧ newShiftLength < 1 / 1000 ∧ newShiftLength < endShiftLength)

def keptShiftLines (minStartIdx : WithTop ℕ) (newShiftEndIdx : ℕ) (newShiftLength : K)
    (currentShiftLines : List (ShiftLine K O)) : List (ShiftLine K O) :=
  currentShiftLines.filter fun sl =>
    ¬ minStartIdx ≤ sl.startIdx ∧
      ¬ (newShiftEndIdx ≤ sl.endIdx ∧ isSuperseded sl.endShiftLength newShiftLength)

def addNewShiftLines (env : Environment K O) (pathShifter : PathShifter K O)
    (newShiftLines : List (AvoidLine K O)) : Except Failure (PathShifter K O) := do
  let future := toShiftLineArray newShiftLines
  let minStartIdx := newShiftLines.foldl (fun least sl => min least (sl.startIdx : WithTop ℕ)) ⊤
  let front ← atIndex newShiftLines 0
  pathShifter.setShiftLines env (future ++
      keptShiftLines minStartIdx front.endIdx front.endShiftLength pathShifter.shiftLines)

structure Contiguous (lines : List (AvoidLine K O)) : Prop where
  ordered : ∀ line ∈ lines, line.startIdx ≤ line.endIdx
  chain : lines.IsChain fun line next => line.endIdx = next.startIdx

def MeetsInterior (line other : ShiftLine K O) : Prop :=
  other.startIdx < other.endIdx ∧ line.startIdx < other.endIdx ∧ other.startIdx < line.endIdx

structure Replaces (env : Environment K O) (before after : PathShifter K O)
    (newShiftLines : List (AvoidLine K O)) : Prop where
  lines : ∃ kept, kept.Sublist before.shiftLines ∧
    after.shiftLines.Perm (toShiftLineArray newShiftLines ++ kept) ∧
    ∀ line ∈ kept, ∀ new ∈ newShiftLines, ¬ MeetsInterior line new.toShiftLine
  shift : ∀ offsetBack result, after.generate env ⟨[], []⟩ offsetBack .linear = .ok (result, true) →
    ∀ new ∈ newShiftLines, ∀ i, new.endIdx ≤ i → i < after.referencePath.length →
      (∀ other ∈ after.shiftLines, new.endIdx ≤ other.startIdx → i ≤ other.startIdx) →
      (new.endIdx < i ∨ epsilon ≤ arc env after.referencePath new.endIdx -
        arc env after.referencePath new.startIdx) →
      |shiftAt result i - new.endShiftLength| ≤ epsilon

omit [Field K] [LinearOrder K]

variable {rest : List (AvoidLine K O)} {first : AvoidLine K O}

theorem Contiguous.tail (hlines : Contiguous (first :: rest)) : Contiguous rest where
  ordered := fun line hmem => hlines.ordered line (List.mem_cons_of_mem _ hmem)
  chain := hlines.chain.tail

theorem Contiguous.endIdx_le
    (hlines : Contiguous (first :: rest)) : ∀ line ∈ rest, first.endIdx ≤ line.startIdx := by
  induction rest generalizing first with
  | nil => exact fun line hmem => absurd hmem List.not_mem_nil
  | cons second rest ih =>
    have hnext := (List.isChain_cons_cons.mp hlines.chain).1
    intro line hmem
    rcases List.mem_cons.mp hmem with rfl | hmem
    · exact hnext.le
    · have hsecond := hlines.ordered second (by simp)
      have hline := ih hlines.tail line hmem
      omega

theorem Contiguous.startIdx_le (hlines : Contiguous (first :: rest)) :
    ∀ line ∈ first :: rest, first.startIdx ≤ line.startIdx := by
  intro line hmem
  rcases List.mem_cons.mp hmem with rfl | hmem
  · exact le_rfl
  · exact (hlines.ordered first (List.mem_cons_self ..)).trans (hlines.endIdx_le line hmem)

theorem Contiguous.nonOverlapping {lines : List (AvoidLine K O)} (hlines : Contiguous lines) :
    NonOverlapping (toShiftLineArray lines) := by
  unfold NonOverlapping toShiftLineArray
  rw [List.pairwise_map]
  induction lines with
  | nil => exact List.Pairwise.nil
  | cons first rest ih => exact List.pairwise_cons.mpr ⟨hlines.endIdx_le, ih hlines.tail⟩

theorem Contiguous.exists_startIdx (hlines : Contiguous (first :: rest))
    (hnonempty : ∃ line ∈ first :: rest, line.startIdx < line.endIdx) :
    ∃ line ∈ first :: rest, line.startIdx = first.startIdx ∧ line.startIdx < line.endIdx := by
  induction rest generalizing first with
  | nil =>
    obtain ⟨line, hmem, hlt⟩ := hnonempty
    obtain rfl := List.mem_singleton.mp hmem
    exact ⟨line, hmem, rfl, hlt⟩
  | cons second rest ih =>
    rcases (hlines.ordered first (List.mem_cons_self ..)).lt_or_eq with hlt | hempty
    · exact ⟨first, List.mem_cons_self .., rfl, hlt⟩
    · obtain ⟨line, hmem, hlt⟩ := hnonempty
      have hrest : line ∈ second :: rest := by
        rcases List.mem_cons.mp hmem with rfl | hmem
        · omega
        · exact hmem
      obtain ⟨other, hother, hstart, hlt⟩ := ih hlines.tail ⟨line, hrest, hlt⟩
      have hnext := (List.isChain_cons_cons.mp hlines.chain).1
      exact ⟨other, List.mem_cons_of_mem _ hother, by omega, hlt⟩

theorem foldl_min_startIdx (lines : List (AvoidLine K O)) (start : ℕ)
    (hstart : ∀ line ∈ lines, start ≤ line.startIdx) :
    lines.foldl (fun least sl => min least (sl.startIdx : WithTop ℕ)) (start : WithTop ℕ) =
      start := by
  induction lines with
  | nil => rfl
  | cons first rest ih =>
    have hfirst : ((start : ℕ) : WithTop ℕ) ≤ (first.startIdx : WithTop ℕ) :=
      WithTop.coe_le_coe.mpr (hstart first (List.mem_cons_self ..))
    rw [List.foldl_cons, min_eq_left hfirst]
    exact ih fun line hmem => hstart line (List.mem_cons_of_mem _ hmem)

theorem Contiguous.minStartIdx (hlines : Contiguous (first :: rest)) :
    (first :: rest).foldl (fun least sl => min least (sl.startIdx : WithTop ℕ)) ⊤ =
      first.startIdx := by
  rw [List.foldl_cons, min_eq_right le_top]
  exact foldl_min_startIdx rest _ fun line hmem =>
    hlines.startIdx_le line (List.mem_cons_of_mem _ hmem)

end

/-! ## The replacement -/

section

variable {K O : Type} [Field K] [LinearOrder K] {env : Environment K O} {self : PathShifter K O}
  {first : AvoidLine K O} {rest : List (AvoidLine K O)}

theorem mem_keptShiftLines {line : ShiftLine K O} {start newShiftEndIdx : ℕ} {newShiftLength : K}
    {current : List (ShiftLine K O)} :
    line ∈ keptShiftLines (start : WithTop ℕ) newShiftEndIdx newShiftLength current ↔
      line ∈ current ∧ line.startIdx < start ∧
        ¬ (newShiftEndIdx ≤ line.endIdx ∧ isSuperseded line.endShiftLength newShiftLength) := by
  unfold keptShiftLines
  rw [List.mem_filter, decide_eq_true_eq]
  rw [show ((start : WithTop ℕ) ≤ (line.startIdx : WithTop ℕ)) ↔ start ≤ line.startIdx from
    WithTop.coe_le_coe, not_le]

/-- The lines that the path shifter is left with, before they are sorted. -/
def newAndKept (first : AvoidLine K O) (rest : List (AvoidLine K O))
    (currentShiftLines : List (ShiftLine K O)) : List (ShiftLine K O) :=
  toShiftLineArray (first :: rest) ++
    keptShiftLines first.startIdx first.endIdx first.endShiftLength currentShiftLines

theorem addNewShiftLines_eq (hlines : Contiguous (first :: rest)) :
    addNewShiftLines env self (first :: rest) =
      self.setShiftLines env (newAndKept first rest self.shiftLines) := by
  unfold addNewShiftLines
  dsimp only
  rw [hlines.minStartIdx]
  rfl

theorem newAndKept_placed (hplaced : self.Placed)
    (hnew : ∀ new ∈ first :: rest, IsPlaced self.referencePath new.toShiftLine) :
    ∀ line ∈ newAndKept first rest self.shiftLines, IsPlaced self.referencePath line := by
  intro line hmem
  rcases List.mem_append.mp hmem with hmem | hmem
  · obtain ⟨new, hmemNew, rfl⟩ := List.mem_map.mp hmem
    exact hnew new hmemNew
  · have hold := (mem_keptShiftLines.mp hmem).1
    exact ⟨hplaced.startIdx line hold, hplaced.endIdx line hold⟩

omit [Field K] [LinearOrder K] in
/-- Old lines that end before the new ones start leave them alone. -/
theorem nonOverlapping_of_kept (hold : NonOverlapping self.shiftLines)
    (hlines : Contiguous (first :: rest)) {kept lines : List (ShiftLine K O)}
    (hkept : kept.Sublist self.shiftLines) (hends : ∀ line ∈ kept, line.endIdx ≤ first.startIdx)
    (hperm : lines.Perm (toShiftLineArray (first :: rest) ++ kept)) (haccepted : Accepted lines)
    (hsorted : lines.Pairwise fun line other => line.startIdx ≤ other.startIdx) :
    NonOverlapping lines := by
  refine nonOverlapping_of_noConflict haccepted hsorted ?_
  rw [hperm.pairwise_iff Or.symm]
  refine List.pairwise_append.mpr ⟨hlines.nonOverlapping.imp Or.inl,
    (List.Pairwise.sublist hkept hold).imp Or.inl, fun line hline other hother => .inr ?_⟩
  obtain ⟨new, hnew, rfl⟩ := List.mem_map.mp hline
  exact (hends other hother).trans (hlines.startIdx_le new hnew)

variable [IsStrictOrderedRing K]

theorem abs_sub_endShiftLength_le {arc shift : ℕ → K} {lines : List (ShiftLine K O)} {index : ℕ}
    {level : K} (hseparate : Separate index lines) (hfollows : Follows arc shift index level lines)
    {line : ShiftLine K O} (hmem : line ∈ lines) {i : ℕ} (hle : line.endIdx ≤ i)
    (hnext : ∀ other ∈ lines, line.endIdx ≤ other.startIdx → i ≤ other.startIdx)
    (hlong : line.endIdx < i ∨ epsilon ≤ arc line.endIdx - arc line.startIdx) :
    |shift i - line.endShiftLength| ≤ epsilon := by
  induction lines generalizing index level with
  | nil => exact absurd hmem List.not_mem_nil
  | cons head lines ih =>
    obtain ⟨_, hlt, hrest⟩ := hseparate
    obtain ⟨_, hinside, hafter⟩ := hfollows
    rcases List.mem_cons.mp hmem with rfl | hmem
    · have hlevel : shift i = level + cut (line.endShiftLength - level) := by
        rcases hle.eq_or_lt with rfl | hbehind
        · have hlength := hlong.resolve_left (lt_irrefl _)
          have hpos : arc line.endIdx - arc line.startIdx ≠ 0 := (epsilon_pos.trans_le hlength).ne'
          rw [hinside _ hlt le_rfl, ramp_endIdx hlt, max_eq_left hlength, div_self hpos, one_mul]
        · cases lines with
          | nil => exact hafter i hbehind
          | cons second lines =>
            exact hafter.1 i hbehind (hnext second
              (List.mem_cons_of_mem _ (List.mem_cons_self ..)) hrest.1)
      have hcut := abs_cut_sub_le (line.endShiftLength - level)
      rw [hlevel]
      have heq : level + cut (line.endShiftLength - level) - line.endShiftLength =
          cut (line.endShiftLength - level) - (line.endShiftLength - level) := by ring
      rw [heq]
      exact hcut
    · exact ih hrest hafter hmem fun other hother => hnext other (List.mem_cons_of_mem _ hother)

/-- The new lines replace the old ones exactly if every old line that reaches into them from
before ends behind the first of them, and shifts less far to its side. -/
theorem addNewShiftLines_replaces_iff (hsort : Sorts env) (hplaced : self.Placed)
    (hold : NonOverlapping self.shiftLines) (hlines : Contiguous (first :: rest))
    (hnew : ∀ new ∈ first :: rest, IsPlaced self.referencePath new.toShiftLine) :
    ∃ after, addNewShiftLines env self (first :: rest) = .ok after ∧
      after.referencePath = self.referencePath ∧
      (Replaces env self after (first :: rest) ↔
        ((∃ new ∈ first :: rest, new.startIdx < new.endIdx) →
          ∀ line ∈ self.shiftLines, line.startIdx < first.startIdx →
            first.startIdx < line.endIdx → first.endIdx ≤ line.endIdx ∧
              isSuperseded line.endShiftLength first.endShiftLength)) := by
  have hset : self.setShiftLines env (newAndKept first rest self.shiftLines) = _ :=
    setShiftLines_of_placed (newAndKept_placed hplaced hnew)
  refine ⟨_, (addNewShiftLines_eq hlines).trans hset, rfl, ?_⟩
  obtain ⟨hperm, hsorted⟩ := hsort (newAndKept first rest self.shiftLines)
  constructor
  · intro hreplaces hnonempty line hmem hstart hend
    obtain ⟨new, hmemNew, hstartNew, hltNew⟩ := hlines.exists_startIdx hnonempty
    obtain ⟨kept, _, hpermKept, hinterior⟩ := hreplaces.lines
    have hsame := (List.perm_append_left_iff _).mp (hperm.symm.trans hpermKept)
    by_contra hnot
    have hkept := hsame.mem_iff.mp (mem_keptShiftLines.mpr ⟨hmem, hstart, hnot⟩)
    exact hinterior line hkept new hmemNew ⟨hltNew, by omega, by omega⟩
  · intro hcond
    have hends : (∃ new ∈ first :: rest, new.startIdx < new.endIdx) →
        ∀ line ∈ keptShiftLines (first.startIdx : WithTop ℕ) first.endIdx first.endShiftLength
          self.shiftLines, line.endIdx ≤ first.startIdx := by
      intro hnonempty line hmem
      obtain ⟨hold, hstart, hnot⟩ := mem_keptShiftLines.mp hmem
      by_contra hlt
      exact hnot (hcond hnonempty line hold hstart (not_le.mp hlt))
    refine ⟨⟨_, List.filter_sublist, hperm, ?_⟩, ?_⟩
    · rintro line hmem new hmemNew ⟨hltNew, _, hmeets⟩
      have hend := hends ⟨new, hmemNew, hltNew⟩ line hmem
      have hstart := hlines.startIdx_le new hmemNew
      omega
    · intro offsetBack result hgenerate new hmem i hle hi hnext hlong
      obtain ⟨_, haccepted, _⟩ := generate_eq_ok hgenerate
      have hmemAfter : new.toShiftLine ∈ env.sort (newAndKept first rest self.shiftLines) :=
        hperm.mem_iff.mpr (List.mem_append_left _ (List.mem_map_of_mem hmem))
      have hltNew := haccepted _ hmemAfter
      have hoverlap := nonOverlapping_of_kept hold hlines List.filter_sublist
        (hends ⟨new, hmem, by omega⟩) hperm haccepted hsorted
      have hseparate : Separate 0 _ :=
        hoverlap.separate haccepted fun line _ => Nat.zero_le line.startIdx
      rw [shiftAt_of_generate_linear (placed_setShiftLines hsort hset).onPath hgenerate hi]
      exact abs_sub_endShiftLength_le hseparate (follows_linearShift hseparate fun _ _ => rfl)
        hmemAfter hle hnext hlong

end

def avoidBetween (startIdx endIdx : ℕ) (startShiftLength endShiftLength : ℚ) :
    AvoidLine ℚ (ℚ × ℚ) :=
  ⟨lineBetween startIdx endIdx endShiftLength, startShiftLength, startIdx, endIdx, 0, []⟩

variable {startIdx endIdx : ℕ}

theorem isPlaced_straight (hstart : startIdx < 7) (hend : endIdx < 7) (endShiftLength : ℚ) :
    IsPlaced ((List.range 7).map fun i : ℕ => poseAt i)
      (lineBetween startIdx endIdx endShiftLength) := by
  have hnearest : ∀ idx : ℕ, idx < 7 → findNearestIndex ((List.range 7).map fun i : ℕ => poseAt i)
      (poseAt idx).position = .ok idx := by decide +kernel
  exact ⟨hnearest startIdx hstart, hnearest endIdx hend⟩

theorem straightShifter_singleton_placed (hstart : startIdx < 7)
    (hend : endIdx < 7) (endShiftLength : ℚ) :
    (straightShifter [lineBetween startIdx endIdx endShiftLength]).Placed where
  startIdx := fun line hmem => by
    obtain rfl := List.mem_singleton.mp hmem
    exact (isPlaced_straight hstart hend endShiftLength).1
  endIdx := fun line hmem => by
    obtain rfl := List.mem_singleton.mp hmem
    exact (isPlaced_straight hstart hend endShiftLength).2
  sorted := List.pairwise_singleton _ _

theorem avoidBetween_contiguous (hle : startIdx ≤ endIdx) (startShiftLength endShiftLength : ℚ) :
    Contiguous [avoidBetween startIdx endIdx startShiftLength endShiftLength] where
  ordered := fun line hmem => by
    obtain rfl := List.mem_singleton.mp hmem
    exact hle
  chain := List.isChain_singleton _

/-- The old line goes on behind the new one, and takes the shift away from its end shift. -/
theorem old_line_kept :
    let self := straightShifter [lineBetween 0 6 2]
    let new := [avoidBetween 2 4 (2 / 3) 1]
    ∃ after result, addNewShiftLines straightEnvironment self new = .ok after ∧
      self.Placed ∧ NonOverlapping self.shiftLines ∧ Contiguous new ∧
      after.shiftLines = [lineBetween 0 6 2, lineBetween 2 4 1] ∧
      MeetsInterior (lineBetween 0 6 2) (lineBetween 2 4 1) ∧
      after.generate straightEnvironment ⟨[], []⟩ true .linear = .ok (result, true) ∧
      shiftAt result 4 = 1 ∧ shiftAt result 6 = 5 / 3 ∧
      ¬ Replaces straightEnvironment self after new := by
  intro self new
  have hplaced : self.Placed := straightShifter_singleton_placed (by decide) (by decide) 2
  have hlines : Contiguous new := avoidBetween_contiguous (by decide) (2 / 3) 1
  have hnew : ∀ line ∈ new, IsPlaced self.referencePath line.toShiftLine := fun line hmem => by
    obtain rfl := List.mem_singleton.mp hmem
    exact isPlaced_straight (by decide) (by decide) 1
  have hset : self.setShiftLines straightEnvironment _ = _ :=
    setShiftLines_of_placed (newAndKept_placed hplaced hnew)
  have hafter := (addNewShiftLines_eq hlines).trans hset
  have hplacedAfter := placed_setShiftLines straightEnvironment_sorts hset
  have hshiftLines : straightEnvironment.sort (newAndKept (avoidBetween 2 4 (2 / 3) 1) []
      self.shiftLines) = [lineBetween 0 6 2, lineBetween 2 4 1] := by
    decide +kernel
  rw [hshiftLines] at hafter hplacedAfter
  have hpath := hplacedAfter.onPath
  have haccepted : Accepted [lineBetween 0 6 2, lineBetween 2 4 1] := by
    unfold Accepted
    decide
  obtain ⟨result, hresult⟩ := straightShifter_generate hpath haccepted
  have hlast : shiftAt result 6 = 5 / 3 := by
    rw [shiftAt_of_generate_linear hpath hresult (by decide)]
    decide +kernel
  refine ⟨_, result, hafter, hplaced, List.pairwise_singleton _ _, hlines, rfl, by
    unfold MeetsInterior
    decide, hresult, ?_, ?_, ?_⟩
  · rw [shiftAt_of_generate_linear hpath hresult (by decide)]
    decide +kernel
  · exact hlast
  · intro hreplaces
    have hshift := hreplaces.shift true result hresult (avoidBetween 2 4 (2 / 3) 1)
      (List.mem_singleton_self _) 6 (by decide) (by decide) (by decide) (.inl (by decide))
    rw [hlast] at hshift
    exact absurd hshift (by decide +kernel)

/-- A line that ends where the new one starts stays, and is not in its way. -/
theorem passed_line_kept :
    let self := straightShifter [lineBetween 0 2 1]
    ∃ after, addNewShiftLines straightEnvironment self [avoidBetween 2 4 1 0] = .ok after ∧
      Replaces straightEnvironment self after [avoidBetween 2 4 1 0] := by
  intro self
  have hplaced : self.Placed := straightShifter_singleton_placed (by decide) (by decide) 1
  have hlines : Contiguous [avoidBetween 2 4 1 0] := avoidBetween_contiguous (by decide) 1 0
  obtain ⟨after, hafter, _, hiff⟩ := addNewShiftLines_replaces_iff straightEnvironment_sorts
    hplaced (List.pairwise_singleton _ _) hlines fun line hmem => by
      obtain rfl := List.mem_singleton.mp hmem
      exact isPlaced_straight (by decide) (by decide) 0
  refine ⟨after, hafter, hiff.mpr fun _ line hmem hstart hend => ?_⟩
  obtain rfl := List.mem_singleton.mp hmem
  exact absurd hend (by decide)

end AutowareUniverse.Planning.Avoidance
