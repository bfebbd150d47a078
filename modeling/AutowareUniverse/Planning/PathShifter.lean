import AutowareUniverse.Common.MotionUtils

/-!
# The path shifter

A path is shifted to its side by a base offset and by shift lines, each of which leads from
one point of the path to another.  Numbers are those of an ordered field.  The functions on
angles and orientations, the sort of the shift lines and the interpolation by splines are
parameters.  Of a path only the poses of its points are kept.
-/

namespace AutowareUniverse.Planning

open Common.MotionUtils

inductive ShiftType where
  | linear
  | spline
  deriving DecidableEq

structure ShiftLine (K O : Type) where
  startPose : Pose K O
  endPose : Pose K O
  endShiftLength : K
  startIdx : ℕ
  endIdx : ℕ
  deriving DecidableEq

structure ShiftedPath (K O : Type) where
  path : List (Pose K O)
  shiftLength : List K
  deriving DecidableEq

structure PathShifter (K O : Type) where
  referencePath : List (Pose K O)
  shiftLines : List (ShiftLine K O)
  baseOffset : K
  velocity : K
  accLimit : K
  deriving DecidableEq

namespace PathShifter

structure Environment (K O : Type) extends Trigonometry K O where
  sin : K → K
  cos : K → K
  getYaw : O → K
  normalizeRadian : K → K
  /-- `M_PI_2`. -/
  halfPi : K
  /-- `std::sort` by `start_idx`. -/
  sort : List (ShiftLine K O) → List (ShiftLine K O)
  /-- `interpolation::spline`. -/
  spline : List K → List K → List K → Except Failure (List K)

variable {K O : Type} [Field K] [LinearOrder K] (env : Environment K O) (self : PathShifter K O)
  (lines : List (ShiftLine K O))

def updateShiftLinesIndices : Except Failure (List (ShiftLine K O)) :=
  lines.mapM fun line => do
    let startIdx ← findNearestIndex self.referencePath line.startPose.position
    let endIdx ← findNearestIndex self.referencePath line.endPose.position
    return { line with
      startIdx := startIdx
      endIdx := endIdx }

def setShiftLines :
    Except Failure (PathShifter K O) := do
  let updated ← self.updateShiftLinesIndices lines
  return { self with shiftLines := env.sort updated }

def setPath (path : List (Pose K O)) : Except Failure (PathShifter K O) :=
  setShiftLines env { self with referencePath := path } self.shiftLines

def addShiftLine (line : ShiftLine K O) : Except Failure (PathShifter K O) :=
  self.setShiftLines env (self.shiftLines ++ [line])

def checkShiftLinesAlignment : Bool :=
  lines.all fun line => line.startIdx ≤ line.endIdx

/-- `std::max_element` with the comparison that the source hands to it. -/
def lastRemoved : List (ShiftLine K O) → Option (ShiftLine K O)
  | [] => none
  | first :: rest =>
    let comp (a b : ShiftLine K O) : Bool := b.endIdx < a.endIdx
    some (rest.foldl (fun largest line => if comp largest line then line else largest) first)

def removeNoise (offset : K) : K :=
  if |offset| < 1 / 10000 then 0 else offset

def removeBehindShiftLineAndSetBaseOffset (self : PathShifter K O) (nearestIdx : ℕ) :
    Except Failure (PathShifter K O) := do
  let newShiftLines := self.shiftLines.filter fun line => nearestIdx < line.endIdx
  let removedShiftLines := self.shiftLines.filter fun line => ¬ nearestIdx < line.endIdx
  let newBaseOffset :=
    match lastRemoved removedShiftLines with
    | some line => line.endShiftLength
    | none => self.baseOffset
  let updated ← self.setShiftLines env newShiftLines
  return { updated with baseOffset := removeNoise newBaseOffset }

/-! ## Shifting -/

def displace (pose : Pose K O) (offset : K) : Pose K O :=
  let yaw := env.getYaw pose.orientation
  { pose with position :=
    { pose.position with
      x := pose.position.x - env.sin yaw * offset
      y := pose.position.y + env.cos yaw * offset } }

variable (shifted : ShiftedPath K O)

def addLateralOffsetOnIndexPoint (offset : K) (index : ℕ) : Except Failure (ShiftedPath K O) :=
  if |offset| < 1 / 100000000 then return shifted
  else do
    let pose ← atIndex shifted.path index
    let length ← atIndex shifted.shiftLength index
    return { path := shifted.path.set index (displace env pose offset)
             shiftLength := shifted.shiftLength.set index (length + offset) }

def addLateralOffsets (offset : ℕ → K) (indices : List ℕ) : Except Failure (ShiftedPath K O) :=
  indices.foldlM (fun shifted i => addLateralOffsetOnIndexPoint env shifted (offset i) i) shifted

def shiftBaseLength (offset : K) : Except Failure (ShiftedPath K O) :=
  if 1 / 10000 < |offset| then
    addLateralOffsets env shifted (fun _ => offset) (List.range shifted.path.length)
  else return shifted

/-- The loop of `calcPathArcLengthArray`. -/
def arcLengthsFrom (sum : K) : List (Pose K O) → List K
  | previous :: pose :: poses =>
    sum :: arcLengthsFrom (sum + calcDistance2d env.toTrigonometry pose.position
      previous.position) (pose :: poses)
  | _ => [sum]

def calcPathArcLengthArray (path : List (Pose K O)) : List K :=
  arcLengthsFrom env 0 path

/-- To avoid a division by zero. -/
def epsilon : K := 1 / 100000000

variable (arclengths : List K)

def shiftingArclength (line : ShiftLine K O) : Except Failure K := do
  let atEnd ← atIndex arclengths line.endIdx
  let atStart ← atIndex arclengths line.startIdx
  return max (atEnd - atStart) epsilon

def ithShiftLength (line : ShiftLine K O) (length delta : K) (i : ℕ) :
    Except Failure K :=
  if i < line.startIdx then return 0
  else if i ≤ line.endIdx then do
    let atIth ← atIndex arclengths i
    let atStart ← atIndex arclengths line.startIdx
    return (atIth - atStart) / length * delta
  else return delta

def applyLinearLine (shifted : ShiftedPath K O) (line : ShiftLine K O) :
    Except Failure (ShiftedPath K O) := do
  let currentShift ← atIndex shifted.shiftLength line.endIdx
  let delta := line.endShiftLength - currentShift
  let length ← shiftingArclength arclengths line
  (List.range shifted.path.length).foldlM (fun shifted i => do
    let offset ← ithShiftLength arclengths line length delta i
    addLateralOffsetOnIndexPoint env shifted offset i) shifted

def applyLinearShifter (shifted : ShiftedPath K O) :
    Except Failure (ShiftedPath K O) := do
  let arclengths := calcPathArcLengthArray env self.referencePath
  let based ← shiftBaseLength env shifted self.baseOffset
  self.shiftLines.foldlM (applyLinearLine env arclengths) based

def getBaseLengthsWithoutAccelLimit (arclength shiftLength : K) (offsetBack : Bool) :
    List K × List K :=
  let s := arclength
  let l := shiftLength
  let baseLon := [0, 1 / 4 * s, 3 / 4 * s, s]
  let baseLat := [0, 1 / 12 * l, 11 / 12 * l, l]
  (baseLon, if offsetBack then baseLat else baseLat.reverse)

/-- A limit of zero makes the lengths of a shift by zero no numbers. -/
def calcBaseLengths (arclength shiftLength : K) (offsetBack : Bool) :
    Except Failure (List K × List K) :=
  let speed := |self.velocity|
  let withoutLimit := getBaseLengthsWithoutAccelLimit arclength shiftLength offsetBack
  if speed < 1 / 100000 then return withoutLimit
  else
    let t := arclength / speed
    let l := |shiftLength|
    let aMax := 8 * l / (t * t)
    if aMax < self.accLimit then return withoutLimit
    else if self.accLimit = 0 ∧ l = 0 then throw .notANumber
    else
      let tj := t / 2 - 2 * l / (self.accLimit * t)
      let ta := 4 * l / (self.accLimit * t) - t / 2
      let jerk := (2 * self.accLimit * self.accLimit * t) / (self.accLimit * t * t - 4 * l)
      if tj < 0 ∨ ta < 0 ∨ jerk < 0 ∨ tj / t < 1 / 10 then return withoutLimit
      else
        let tj3 := tj * tj * tj
        let ta2Tj := ta * ta * tj
        let taTj2 := ta * tj * tj
        let s1 := tj * speed
        let s2 := s1 + ta * speed
        let s3 := s2 + tj * speed
        let s5 := s3 + tj * speed
        let s6 := s5 + ta * speed
        let s7 := s6 + tj * speed
        let sign := if 0 < shiftLength then 1 else -1
        let l1 := sign * (1 / 6 * jerk * tj3)
        let l2 := sign * (1 / 6 * jerk * tj3 + 1 / 2 * jerk * taTj2 + 1 / 2 * jerk * ta2Tj)
        let l3 := sign * (jerk * tj3 + 3 / 2 * jerk * taTj2 + 1 / 2 * jerk * ta2Tj)
        let l5 := sign * (11 / 6 * jerk * tj3 + 5 / 2 * jerk * taTj2 + 1 / 2 * jerk * ta2Tj)
        let l6 := sign * (11 / 6 * jerk * tj3 + 3 * jerk * taTj2 + jerk * ta2Tj)
        let l7 := sign * (2 * jerk * tj3 + 3 * jerk * taTj2 + jerk * ta2Tj)
        let baseLat := [0, l1, l2, l3, l5, l6, l7]
        return ([0, s1, s2, s3, s5, s6, s7], if offsetBack then baseLat else baseLat.reverse)

def queryLengths (line : ShiftLine K O)
    (length delta : K) (offsetBack : Bool) : Except Failure (List K) := do
  let (baseDistance, baseLength) ← self.calcBaseLengths length delta offsetBack
  let queryDistance ← (List.range' (line.startIdx + 1) (line.endIdx - (line.startIdx + 1))).mapM
    fun i => do
      let atIth ← atIndex arclengths i
      let atStart ← atIndex arclengths line.startIdx
      return atIth - atStart
  if queryDistance.isEmpty then return []
  else env.spline baseDistance baseLength queryDistance

def applySplineLine (offsetBack : Bool)
    (shifted : ShiftedPath K O) (line : ShiftLine K O) : Except Failure (ShiftedPath K O) := do
  let currentShift ← atIndex shifted.shiftLength line.endIdx
  let delta := line.endShiftLength - currentShift
  let length ← shiftingArclength arclengths line
  let queryLength ← self.queryLengths env arclengths line length delta offsetBack
  let between ← addLateralOffsets env shifted
    (fun i => (queryLength[i - (line.startIdx + 1)]?).getD 0)
    (List.range' (line.startIdx + 1) queryLength.length)
  if offsetBack then
    addLateralOffsets env between (fun _ => delta)
      (List.range' line.endIdx (between.path.length - line.endIdx))
  else do
    let front ← atIndex queryLength 0
    addLateralOffsets env between (fun _ => front) (List.range (line.startIdx + 1))

def applySplineShifter (shifted : ShiftedPath K O) (offsetBack : Bool) :
    Except Failure (ShiftedPath K O) := do
  let arclengths := calcPathArcLengthArray env self.referencePath
  let based ← shiftBaseLength env shifted self.baseOffset
  self.shiftLines.foldlM (self.applySplineLine env arclengths offsetBack) based

/-- `insertOrientation(points, true)`: each point looks at the next one, the last one the
same way as the one before it. -/
def insertOrientation : List (Pose K O) → List (Pose K O)
  | first :: second :: rest =>
    let orientation := env.orientationTo first.position second.position
    ⟨first.position, orientation⟩ ::
      if rest.isEmpty then [⟨second.position, orientation⟩] else insertOrientation (second :: rest)
  | poses => poses

/-- The direction turns by more than a right angle. -/
def isInvalidTurn (previous pose : Pose K O) : Bool :=
  env.halfPi < |env.normalizeRadian (env.getYaw previous.orientation - env.getYaw pose.orientation)|

/-- The points behind a point that is kept, without those that turn away from the point that
was kept last. -/
def removeInvalidFrom (previous : Pose K O) : List (Pose K O) → List (Pose K O)
  | [] => []
  | pose :: poses =>
    if isInvalidTurn env previous pose then removeInvalidFrom previous poses
    else pose :: removeInvalidFrom pose poses

def removeInvalidOrientationPoints : List (Pose K O) → List (Pose K O)
  | [] => []
  | first :: rest => first :: removeInvalidFrom env first rest

/-- `std::vector::resize` with zeros. -/
def resize (values : List K) (size : ℕ) : List K :=
  values.take size ++ List.replicate (size - values.length) 0

def applyShifter (shifted : ShiftedPath K O) (offsetBack : Bool)
    (type : ShiftType) : Except Failure (ShiftedPath K O) :=
  match type with
  | .spline => self.applySplineShifter env shifted offsetBack
  | .linear => self.applyLinearShifter env shifted

/-- The output object after the call, and whether the path could be shifted. -/
def generate (shifted : ShiftedPath K O) (offsetBack : Bool)
    (type : ShiftType) : Except Failure (ShiftedPath K O × Bool) :=
  if self.referencePath.isEmpty then return (shifted, false)
  else
    let shifted : ShiftedPath K O :=
      ⟨self.referencePath, resize shifted.shiftLength self.referencePath.length⟩
    if self.shiftLines.isEmpty then do
      return (← shiftBaseLength env shifted self.baseOffset, true)
    else if self.shiftLines.any fun line => (line.endIdx : ℤ) - line.startIdx ≤ 1 then
      return (shifted, false)
    else if !checkShiftLinesAlignment self.shiftLines then return (shifted, false)
    else do
      let shifted ← self.applyShifter env shifted offsetBack type
      return (⟨removeInvalidOrientationPoints env (insertOrientation env shifted.path),
        shifted.shiftLength⟩, true)

end PathShifter

open Library.Fallible

namespace PathShifter

/-! ## The output object by index -/

section

variable {K O : Type} [Field K] (env : Environment K O)

def shiftedBy (reference : List (Pose K O)) (held lengths : ℕ → K) : ShiftedPath K O where
  path := reference.mapIdx fun i pose => displace env pose (lengths i - held i)
  shiftLength := (List.range reference.length).map lengths

variable {env} {reference : List (Pose K O)} {held lengths : ℕ → K}

theorem displace_zero (pose : Pose K O) : displace env pose 0 = pose := by
  unfold displace
  dsimp only
  rw [mul_zero, mul_zero, sub_zero, add_zero]

theorem displace_displace (pose : Pose K O) (first second : K) :
    displace env (displace env pose first) second = displace env pose (first + second) := by
  unfold displace
  dsimp only
  congr 2
  · ring
  · ring

theorem shiftedBy_congr {other : ℕ → K} (hsame : ∀ i < reference.length, lengths i = other i) :
    shiftedBy env reference held lengths = shiftedBy env reference held other := by
  unfold shiftedBy
  congr 1
  · refine List.ext_getElem? fun i => ?_
    rw [List.getElem?_mapIdx, List.getElem?_mapIdx]
    cases hpose : reference[i]? with
    | none => rfl
    | some pose =>
      rw [hsame i (List.getElem?_eq_some_iff.mp hpose).1]
  · exact List.map_congr_left fun i hmem => hsame i (List.mem_range.mp hmem)

theorem shiftedBy_self (reference : List (Pose K O)) {values : List K}
    (hlength : values.length = reference.length) :
    (⟨reference, values⟩ : ShiftedPath K O) =
      shiftedBy env reference (fun i => (values[i]?).getD 0) fun i => (values[i]?).getD 0 := by
  unfold shiftedBy
  congr 1
  · refine List.ext_getElem? fun i => ?_
    rw [List.getElem?_mapIdx]
    cases reference[i]? with
    | none => rfl
    | some pose =>
      rw [Option.map_some, sub_self, displace_zero]
  · refine List.ext_getElem? fun i => ?_
    rw [List.getElem?_map]
    rcases lt_or_ge i values.length with hlt | hge
    · rw [List.getElem?_range (hlength ▸ hlt), Option.map_some, List.getElem?_eq_getElem hlt]
      rfl
    · rw [List.getElem?_eq_none hge,
        List.getElem?_eq_none (by rw [List.length_range]; omega)]
      rfl

theorem length_path_shiftedBy :
    (shiftedBy env reference held lengths).path.length = reference.length :=
  List.length_mapIdx

theorem atIndex_path_shiftedBy {i : ℕ} (hlt : i < reference.length) :
    atIndex (shiftedBy env reference held lengths).path i =
      .ok (displace env reference[i] (lengths i - held i)) := by
  unfold atIndex shiftedBy
  rw [List.getElem?_mapIdx, List.getElem?_eq_getElem hlt]
  rfl

theorem atIndex_shiftLength_shiftedBy {i : ℕ} (hlt : i < reference.length) :
    atIndex (shiftedBy env reference held lengths).shiftLength i = .ok (lengths i) := by
  unfold atIndex shiftedBy
  rw [List.getElem?_map, List.getElem?_range hlt]
  rfl

variable [LinearOrder K]

def cut (offset : K) : K := if |offset| < epsilon then 0 else offset

theorem addLateralOffsetOnIndexPoint_shiftedBy (offset : K) {index : ℕ}
    (hlt : index < reference.length) :
    addLateralOffsetOnIndexPoint env (shiftedBy env reference held lengths) offset index =
      .ok (shiftedBy env reference held
        (Function.update lengths index (lengths index + cut offset))) := by
  unfold addLateralOffsetOnIndexPoint cut epsilon
  split_ifs
  · rw [add_zero, Function.update_eq_self]
    rfl
  · rw [atIndex_path_shiftedBy hlt, atIndex_shiftLength_shiftedBy hlt]
    refine congrArg Except.ok ?_
    unfold shiftedBy
    congr 1
    · refine List.ext_getElem? fun i => ?_
      rw [List.getElem?_set, List.getElem?_mapIdx, List.getElem?_mapIdx, List.length_mapIdx]
      by_cases hindex : index = i
      · subst hindex
        rw [if_pos rfl, if_pos hlt, List.getElem?_eq_getElem hlt, Option.map_some,
          Function.update_self, displace_displace]
        congr 2
        ring
      · rw [if_neg hindex, Function.update_of_ne (Ne.symm hindex)]
    · refine List.ext_getElem? fun i => ?_
      rw [List.getElem?_set, List.getElem?_map, List.getElem?_map, List.length_map,
        List.length_range]
      by_cases hindex : index = i
      · subst hindex
        rw [if_pos rfl, if_pos hlt, List.getElem?_range hlt, Option.map_some, Function.update_self]
      · rw [if_neg hindex]
        rcases lt_or_ge i reference.length with hrange | hrange
        · rw [List.getElem?_range hrange, Option.map_some, Option.map_some,
            Function.update_of_ne (Ne.symm hindex)]
        · rw [List.getElem?_eq_none (by rw [List.length_range]; exact hrange)]
          rfl

theorem addLateralOffsets_shiftedBy (offset : ℕ → K) {indices : List ℕ} (hnodup : indices.Nodup)
    (hlt : ∀ i ∈ indices, i < reference.length) :
    addLateralOffsets env (shiftedBy env reference held lengths) offset indices =
      .ok (shiftedBy env reference held fun i =>
        lengths i + if i ∈ indices then cut (offset i) else 0) := by
  unfold addLateralOffsets
  induction indices generalizing lengths with
  | nil =>
    refine congrArg Except.ok (shiftedBy_congr fun i _ => ?_)
    rw [if_neg List.not_mem_nil, add_zero]
  | cons first rest ih =>
    obtain ⟨hfirst, hrest⟩ := List.nodup_cons.mp hnodup
    rw [List.foldlM_cons, addLateralOffsetOnIndexPoint_shiftedBy (offset first)
      (hlt first (List.mem_cons_self ..))]
    change List.foldlM _ _ rest = _
    rw [ih hrest fun i hmem => hlt i (List.mem_cons_of_mem _ hmem)]
    refine congrArg Except.ok (shiftedBy_congr fun i _ => ?_)
    by_cases heq : i = first
    · subst heq
      rw [Function.update_self, if_neg hfirst, if_pos (List.mem_cons_self ..), add_zero]
    · rw [Function.update_of_ne heq]
      simp only [List.mem_cons, heq, false_or]

theorem cut_of_le {offset : K} (hle : epsilon ≤ |offset|) : cut offset = offset :=
  if_neg (not_lt.mpr hle)

theorem cut_zero : cut (0 : K) = 0 := by
  unfold cut
  split_ifs <;> rfl

def baseLevel (offset : K) : K := if 1 / 10000 < |offset| then offset else 0

variable [IsStrictOrderedRing K]

theorem abs_cut_sub_le (offset : K) : |cut offset - offset| ≤ epsilon := by
  unfold cut
  split_ifs with hsmall
  · rw [zero_sub, abs_neg]
    exact hsmall.le
  · rw [sub_self, abs_zero]
    exact one_div_nonneg.mpr (by norm_num)

theorem abs_baseLevel_sub_le (offset : K) : |baseLevel offset - offset| ≤ 1 / 10000 := by
  unfold baseLevel
  split_ifs with hlarge
  · rw [sub_self, abs_zero]
    exact one_div_nonneg.mpr (by norm_num)
  · rw [zero_sub, abs_neg]
    exact not_lt.mp hlarge

theorem shiftBaseLength_shiftedBy (offset : K) :
    shiftBaseLength env (shiftedBy env reference held lengths) offset =
      .ok (shiftedBy env reference held fun i => lengths i + baseLevel offset) := by
  unfold shiftBaseLength baseLevel
  split_ifs with hlarge
  · have hkept : cut offset = offset :=
      cut_of_le (le_trans (one_div_le_one_div_of_le (by norm_num) (by norm_num)) hlarge.le)
    rw [length_path_shiftedBy, addLateralOffsets_shiftedBy _ List.nodup_range
      fun i hmem => List.mem_range.mp hmem]
    refine congrArg Except.ok (shiftedBy_congr fun i hlt => ?_)
    rw [if_pos (List.mem_range.mpr hlt), hkept]
  · refine congrArg Except.ok (shiftedBy_congr fun i _ => ?_)
    rw [add_zero]

end

section

variable {K O : Type} [Field K] (env : Environment K O)

def arc (path : List (Pose K O)) (i : ℕ) : K := ((calcPathArcLengthArray env path)[i]?).getD 0

variable {env}

theorem length_arcLengthsFrom (sum : K) (first : Pose K O) (rest : List (Pose K O)) :
    (arcLengthsFrom env sum (first :: rest)).length = rest.length + 1 := by
  induction rest generalizing sum first with
  | nil => rfl
  | cons second rest ih =>
    rw [arcLengthsFrom, List.length_cons, ih, List.length_cons]

theorem atIndex_calcPathArcLengthArray {path : List (Pose K O)} {i : ℕ} (hlt : i < path.length) :
    atIndex (calcPathArcLengthArray env path) i = .ok (arc env path i) := by
  have hlength : i < (calcPathArcLengthArray env path).length := by
    cases path with
    | nil => exact absurd hlt (Nat.not_lt_zero i)
    | cons first rest =>
      rw [calcPathArcLengthArray, length_arcLengthsFrom]
      exact hlt
  unfold atIndex arc
  rw [List.getElem?_eq_getElem hlength]
  rfl

variable [LinearOrder K] [IsStrictOrderedRing K]

theorem arcLengthsFrom_pairwise (hsqrt : ∀ value, 0 ≤ env.sqrt value) (sum : K)
    (path : List (Pose K O)) :
    (arcLengthsFrom env sum path).Pairwise (· ≤ ·) ∧
      ∀ length ∈ arcLengthsFrom env sum path, sum ≤ length := by
  match path with
  | [] => exact ⟨List.pairwise_singleton _ _, by simp [arcLengthsFrom]⟩
  | [_] => exact ⟨List.pairwise_singleton _ _, by simp [arcLengthsFrom]⟩
  | first :: second :: rest =>
    obtain ⟨hpairwise, hle⟩ := arcLengthsFrom_pairwise hsqrt
      (sum + calcDistance2d env.toTrigonometry second.position first.position) (second :: rest)
    have hfirst : ∀ length ∈ arcLengthsFrom env (sum + calcDistance2d env.toTrigonometry
        second.position first.position) (second :: rest), sum ≤ length := fun length hmem =>
      (le_add_of_nonneg_right (hsqrt _)).trans (hle length hmem)
    rw [arcLengthsFrom]
    refine ⟨List.pairwise_cons.mpr ⟨hfirst, hpairwise⟩, fun length hmem => ?_⟩
    rcases List.mem_cons.mp hmem with rfl | hrest
    · exact le_rfl
    · exact hfirst length hrest

theorem arc_mono (hsqrt : ∀ value, 0 ≤ env.sqrt value) {path : List (Pose K O)} {i j : ℕ}
    (hle : i ≤ j) (hlt : j < path.length) : arc env path i ≤ arc env path j := by
  obtain ⟨hpairwise, _⟩ := arcLengthsFrom_pairwise hsqrt 0 path
  have hlength : (calcPathArcLengthArray env path).length = path.length := by
    cases path with
    | nil => exact absurd hlt (Nat.not_lt_zero j)
    | cons first rest => exact length_arcLengthsFrom 0 first rest
  have hj : j < (calcPathArcLengthArray env path).length := hlength ▸ hlt
  unfold arc
  rw [List.getElem?_eq_getElem (hle.trans_lt hj), List.getElem?_eq_getElem hj]
  rcases hle.eq_or_lt with rfl | hij
  · exact le_rfl
  · exact List.pairwise_iff_getElem.mp hpairwise i j _ _ hij

end

section

variable {K O : Type} [Field K] [LinearOrder K] (env : Environment K O)

def ramp (arc : ℕ → K) (line : ShiftLine K O) (delta : K) (i : ℕ) : K :=
  if i < line.startIdx then 0
  else if i ≤ line.endIdx then
    (arc i - arc line.startIdx) / max (arc line.endIdx - arc line.startIdx) epsilon * delta
  else delta

def lineShift (arc : ℕ → K) (lengths : ℕ → K) (line : ShiftLine K O) : ℕ → K := fun i =>
  lengths i + cut (ramp arc line (line.endShiftLength - lengths line.endIdx) i)

def linearShift (arc : ℕ → K) (lines : List (ShiftLine K O)) (lengths : ℕ → K) : ℕ → K :=
  lines.foldl (lineShift arc) lengths

def OnPath (self : PathShifter K O) : Prop :=
  ∀ line ∈ self.shiftLines, line.startIdx < self.referencePath.length ∧
    line.endIdx < self.referencePath.length

variable {env} {reference : List (Pose K O)} {held lengths : ℕ → K}

theorem applyLinearLine_shiftedBy {line : ShiftLine K O}
    (hstart : line.startIdx < reference.length) (hend : line.endIdx < reference.length) :
    applyLinearLine env (calcPathArcLengthArray env reference)
        (shiftedBy env reference held lengths) line =
      .ok (shiftedBy env reference held (lineShift (arc env reference) lengths line)) := by
  have hlength : shiftingArclength (calcPathArcLengthArray env reference) line = .ok
      (max (arc env reference line.endIdx - arc env reference line.startIdx) epsilon) := by
    unfold shiftingArclength
    rw [atIndex_calcPathArcLengthArray hend, atIndex_calcPathArcLengthArray hstart]
    rfl
  unfold applyLinearLine
  rw [atIndex_shiftLength_shiftedBy hend, hlength, length_path_shiftedBy]
  have hith : ∀ i ∈ List.range reference.length, ∀ shifted : ShiftedPath K O, (do
      let offset ← ithShiftLength (calcPathArcLengthArray env reference) line
        (max (arc env reference line.endIdx - arc env reference line.startIdx) epsilon)
        (line.endShiftLength - lengths line.endIdx) i
      addLateralOffsetOnIndexPoint env shifted offset i) =
      addLateralOffsetOnIndexPoint env shifted (ramp (arc env reference) line
        (line.endShiftLength - lengths line.endIdx) i) i := by
    intro i hmem shifted
    unfold ithShiftLength ramp
    split_ifs
    · rfl
    · rw [atIndex_calcPathArcLengthArray (List.mem_range.mp hmem),
        atIndex_calcPathArcLengthArray hstart]
      rfl
    · rfl
  change List.foldlM _ _ _ = _
  rw [foldlM_congr hith]
  refine (addLateralOffsets_shiftedBy _ List.nodup_range
    fun i hmem => List.mem_range.mp hmem).trans ?_
  refine congrArg Except.ok (shiftedBy_congr fun i hlt => ?_)
  rw [if_pos (List.mem_range.mpr hlt)]
  rfl

theorem applyLinearLines_shiftedBy {lines : List (ShiftLine K O)}
    (hlines : ∀ line ∈ lines, line.startIdx < reference.length ∧ line.endIdx < reference.length) :
    lines.foldlM (applyLinearLine env (calcPathArcLengthArray env reference))
        (shiftedBy env reference held lengths) =
      .ok (shiftedBy env reference held (linearShift (arc env reference) lines lengths)) := by
  induction lines generalizing lengths with
  | nil => rfl
  | cons first rest ih =>
    obtain ⟨hstart, hend⟩ := hlines first (List.mem_cons_self ..)
    rw [List.foldlM_cons, applyLinearLine_shiftedBy hstart hend]
    exact ih fun line hmem => hlines line (List.mem_cons_of_mem _ hmem)

variable [IsStrictOrderedRing K]

theorem applyLinearShifter_shiftedBy {self : PathShifter K O} (hpath : self.OnPath) :
    self.applyLinearShifter env (shiftedBy env self.referencePath held lengths) =
      .ok (shiftedBy env self.referencePath held (linearShift (arc env self.referencePath)
        self.shiftLines fun i => lengths i + baseLevel self.baseOffset)) := by
  unfold applyLinearShifter
  dsimp only
  rw [shiftBaseLength_shiftedBy]
  exact applyLinearLines_shiftedBy hpath

end

/-! ## Successful calls -/

section

variable {K O : Type} [Field K] [LinearOrder K] (env : Environment K O)

def heldLengths (shifted : ShiftedPath K O) (size i : ℕ) : K :=
  ((resize shifted.shiftLength size)[i]?).getD 0

def Accepted (lines : List (ShiftLine K O)) : Prop :=
  ∀ line ∈ lines, line.startIdx + 1 < line.endIdx

variable {env} {self : PathShifter K O} {shifted result : ShiftedPath K O} {offsetBack : Bool}
  {type : ShiftType}

omit [LinearOrder K] in
theorem resized_eq (env : Environment K O) (self : PathShifter K O) (shifted : ShiftedPath K O) :
    (⟨self.referencePath, resize shifted.shiftLength self.referencePath.length⟩ : ShiftedPath K O) =
      shiftedBy env self.referencePath (heldLengths shifted self.referencePath.length)
        (heldLengths shifted self.referencePath.length) := by
  refine shiftedBy_self _ ?_
  unfold resize
  rw [List.length_append, List.length_take, List.length_replicate]
  omega

/-- A call succeeds with a path that has no lines, or with the path of the shifter. -/
theorem generate_eq_ok (hgenerate : self.generate env shifted offsetBack type = .ok (result, true)) :
    self.referencePath ≠ [] ∧ Accepted self.shiftLines ∧
      ((self.shiftLines = [] ∧ shiftBaseLength env (shiftedBy env self.referencePath
          (heldLengths shifted self.referencePath.length)
          (heldLengths shifted self.referencePath.length)) self.baseOffset = .ok result) ∨
        (self.shiftLines ≠ [] ∧ ∃ applied, self.applyShifter env (shiftedBy env self.referencePath
              (heldLengths shifted self.referencePath.length)
              (heldLengths shifted self.referencePath.length)) offsetBack type = .ok applied ∧
          result = ⟨removeInvalidOrientationPoints env (insertOrientation env applied.path),
            applied.shiftLength⟩)) := by
  unfold generate at hgenerate
  by_cases hempty : self.referencePath = []
  · rw [hempty] at hgenerate
    cases hgenerate
  refine ⟨hempty, ?_⟩
  rw [if_neg (by simpa using hempty), resized_eq env self shifted] at hgenerate
  by_cases hlines : self.shiftLines = []
  · rw [hlines] at hgenerate ⊢
    obtain ⟨based, hbased, hresult⟩ := bind_eq_ok.mp hgenerate
    cases hresult
    exact ⟨fun line hmem => absurd hmem List.not_mem_nil, .inl ⟨rfl, hbased⟩⟩
  rw [if_neg (by simpa using hlines)] at hgenerate
  split_ifs at hgenerate with hshort haligned
  · cases hgenerate
  · cases hgenerate
  · have haccepted : Accepted self.shiftLines := by
      intro line hmem
      by_contra hle
      exact hshort (List.any_eq_true.mpr ⟨line, hmem, decide_eq_true (by omega)⟩)
    obtain ⟨applied, happlied, hresult⟩ := bind_eq_ok.mp hgenerate
    cases hresult
    exact ⟨haccepted, .inr ⟨hlines, applied, happlied, rfl⟩⟩

theorem generate_of_accepted (hne : self.referencePath ≠ []) (haccepted : Accepted self.shiftLines)
    (hlines : self.shiftLines ≠ []) {applied : ShiftedPath K O} (happlied : self.applyShifter env
      (shiftedBy env self.referencePath (heldLengths shifted self.referencePath.length)
        (heldLengths shifted self.referencePath.length)) offsetBack type = .ok applied) :
    self.generate env shifted offsetBack type =
      .ok (⟨removeInvalidOrientationPoints env (insertOrientation env applied.path),
        applied.shiftLength⟩, true) := by
  have hshort : ¬ (self.shiftLines.any fun line =>
      (line.endIdx : ℤ) - line.startIdx ≤ 1) = true := by
    intro hany
    obtain ⟨line, hmem, hle⟩ := List.any_eq_true.mp hany
    have hgap := haccepted line hmem
    have hle := of_decide_eq_true hle
    omega
  have haligned : checkShiftLinesAlignment self.shiftLines = true :=
    List.all_eq_true.mpr fun line hmem => decide_eq_true (by have := haccepted line hmem; omega)
  unfold generate
  rw [if_neg (by simpa using hne), resized_eq env self shifted, if_neg (by simpa using hlines),
    if_neg hshort, haligned]
  change (self.applyShifter env _ offsetBack type >>= _) = _
  rw [happlied]
  rfl

variable [IsStrictOrderedRing K]

def linearLengths (env : Environment K O) (self : PathShifter K O) (held : ℕ → K) : ℕ → K :=
  linearShift (arc env self.referencePath) self.shiftLines fun i =>
    held i + baseLevel self.baseOffset

theorem shiftLength_of_generate_linear (hpath : self.OnPath)
    (hgenerate : self.generate env shifted offsetBack .linear = .ok (result, true)) :
    result.shiftLength = (List.range self.referencePath.length).map
      (self.linearLengths env (heldLengths shifted self.referencePath.length)) := by
  obtain ⟨_, _, ⟨hlines, hbased⟩ | ⟨_, applied, happlied, rfl⟩⟩ := generate_eq_ok hgenerate
  · rw [shiftBaseLength_shiftedBy] at hbased
    cases hbased
    rw [linearLengths, hlines]
    rfl
  · rw [applyShifter, applyLinearShifter_shiftedBy hpath] at happlied
    cases happlied
    rfl

theorem generate_linear_succeeds (hpath : self.OnPath) (hne : self.referencePath ≠ [])
    (haccepted : Accepted self.shiftLines) (shifted : ShiftedPath K O) (offsetBack : Bool) :
    ∃ result, self.generate env shifted offsetBack .linear = .ok (result, true) := by
  by_cases hlines : self.shiftLines = []
  · unfold generate
    rw [if_neg (by simpa using hne), resized_eq env self shifted, hlines]
    dsimp only
    rw [if_pos List.isEmpty_nil, shiftBaseLength_shiftedBy]
    exact ⟨_, rfl⟩
  · exact ⟨_, generate_of_accepted hne haccepted hlines (applyLinearShifter_shiftedBy hpath)⟩

end

/-!
## Linear shifts

Lines that do not overlap lead the shift from level to level.  Between the lines it stays on
its level, and inside a line it is linear in the arc length.  Lines that overlap are not
refused, and their shifts add up.
-/

section

variable {K O : Type} [Field K] [LinearOrder K]

def Follows (arc shift : ℕ → K) (index : ℕ) (level : K) : List (ShiftLine K O) → Prop
  | [] => ∀ i, index < i → shift i = level
  | line :: rest =>
    (∀ i, index < i → i ≤ line.startIdx → shift i = level) ∧
      (∀ i, line.startIdx < i → i ≤ line.endIdx →
        shift i = level + cut (ramp arc line (line.endShiftLength - level) i)) ∧
      Follows arc shift line.endIdx (level + cut (line.endShiftLength - level)) rest

def Separate (index : ℕ) : List (ShiftLine K O) → Prop
  | [] => True
  | line :: rest => index ≤ line.startIdx ∧ line.startIdx < line.endIdx ∧
      Separate line.endIdx rest

variable {lines : List (ShiftLine K O)}

omit [Field K] [LinearOrder K] in
theorem Separate.le_startIdx {index : ℕ} (hseparate : Separate index lines) :
    ∀ line ∈ lines, index ≤ line.startIdx ∧ line.startIdx < line.endIdx := by
  induction lines generalizing index with
  | nil => exact fun line hmem => absurd hmem List.not_mem_nil
  | cons first rest ih =>
    obtain ⟨hstart, hlt, hrest⟩ := hseparate
    intro line hmem
    rcases List.mem_cons.mp hmem with rfl | hmem
    · exact ⟨hstart, hlt⟩
    · obtain ⟨hle, hline⟩ := ih hrest line hmem
      exact ⟨by omega, hline⟩

variable {arc : ℕ → K}

theorem ramp_of_le {line : ShiftLine K O} {i : ℕ} (hle : i ≤ line.startIdx)
    (hlt : line.startIdx < line.endIdx) (delta : K) : ramp arc line delta i = 0 := by
  unfold ramp
  rcases hle.lt_or_eq with hbefore | rfl
  · rw [if_pos hbefore]
  · rw [if_neg (lt_irrefl _), if_pos hlt.le, sub_self, zero_div, zero_mul]

theorem ramp_of_gt {line : ShiftLine K O} {i : ℕ} (hend : line.endIdx < i)
    (hlt : line.startIdx < line.endIdx) (delta : K) : ramp arc line delta i = delta := by
  unfold ramp
  rw [if_neg (by omega), if_neg (by omega)]

theorem linearShift_of_le {index : ℕ}
    (hseparate : Separate index lines) (lengths : ℕ → K) {i : ℕ} (hle : i ≤ index) :
    linearShift arc lines lengths i = lengths i := by
  unfold linearShift
  induction lines generalizing index lengths with
  | nil => rfl
  | cons first rest ih =>
    obtain ⟨hstart, hlt, hrest⟩ := hseparate
    rw [List.foldl_cons, ih hrest _ (by omega), lineShift, ramp_of_le (by omega) hlt, cut_zero,
      add_zero]

theorem follows_linearShift {index : ℕ} (hseparate : Separate index lines) {lengths : ℕ → K}
    {level : K} (hlevel : ∀ i, index < i → lengths i = level) :
    Follows arc (linearShift arc lines lengths) index level lines := by
  induction lines generalizing index lengths level with
  | nil => exact hlevel
  | cons first rest ih =>
    obtain ⟨hstart, hlt, hrest⟩ := hseparate
    have hend : lengths first.endIdx = level := hlevel _ (by omega)
    have hbefore : ∀ i, i ≤ first.endIdx →
        linearShift arc (first :: rest) lengths i = lineShift arc lengths first i :=
      fun i hle => linearShift_of_le hrest (lineShift arc lengths first) hle
    refine ⟨fun i hindex hle => ?_, fun i hindex hle => ?_, ih hrest fun i hindex => ?_⟩
    · rw [hbefore i (by omega), lineShift, ramp_of_le hle hlt, cut_zero, add_zero, hlevel i hindex]
    · rw [hbefore i hle, lineShift, hend, hlevel i (by omega)]
    · rw [lineShift, hend, ramp_of_gt hindex hlt, hlevel i (by omega)]

def Reaching (arc : ℕ → K) (level : K) : List (ShiftLine K O) → Prop
  | [] => True
  | line :: rest =>
    |cut ((arc line.endIdx - arc line.startIdx) /
        max (arc line.endIdx - arc line.startIdx) epsilon * (line.endShiftLength - level)) -
      (line.endShiftLength - level)| ≤ epsilon ∧
    Reaching arc (level + cut (line.endShiftLength - level)) rest

end

/-! ## The shape -/

section

variable {K O : Type} [Field K] [LinearOrder K]

structure Shaped (arc shift : ℕ → K) (size : ℕ) (lines : List (ShiftLine K O)) : Prop where
  noConflict : lines.Pairwise fun line other =>
    line.endIdx ≤ other.startIdx ∨ other.endIdx ≤ line.startIdx
  reaches : ∀ line ∈ lines, |shift line.endIdx - line.endShiftLength| ≤ epsilon
  flat : ∀ line ∈ lines, ∀ i, line.endIdx ≤ i → i < size →
    (∀ other ∈ lines, line.endIdx ≤ other.startIdx → i ≤ other.startIdx) →
    |shift i - shift line.endIdx| ≤ 2 * epsilon
  linear : ∀ line ∈ lines, ∀ i, line.startIdx ≤ i → i ≤ line.endIdx →
    |shift i - (shift line.startIdx + (arc i - arc line.startIdx) /
      (arc line.endIdx - arc line.startIdx) * (shift line.endIdx - shift line.startIdx))| ≤
        3 * epsilon

def NonOverlapping (lines : List (ShiftLine K O)) : Prop :=
  lines.Pairwise fun line other => line.endIdx ≤ other.startIdx

variable {lines : List (ShiftLine K O)}

omit [Field K] [LinearOrder K] in
theorem NonOverlapping.separate (hlines : NonOverlapping lines)
    (haccepted : Accepted lines) {index : ℕ} (hindex : ∀ line ∈ lines, index ≤ line.startIdx) :
    Separate index lines := by
  induction lines generalizing index with
  | nil => trivial
  | cons first rest ih =>
    obtain ⟨hfirst, hrest⟩ := List.pairwise_cons.mp hlines
    have hgap := haccepted first (List.mem_cons_self ..)
    exact ⟨hindex first (List.mem_cons_self ..), by omega,
      ih hrest (fun line hmem => haccepted line (List.mem_cons_of_mem _ hmem)) hfirst⟩

variable {arc : ℕ → K}

theorem ramp_endIdx {line : ShiftLine K O} (hlt : line.startIdx < line.endIdx) (delta : K) :
    ramp arc line delta line.endIdx = (arc line.endIdx - arc line.startIdx) /
      max (arc line.endIdx - arc line.startIdx) epsilon * delta := by
  unfold ramp
  rw [if_neg (by omega), if_pos le_rfl]

variable [IsStrictOrderedRing K]

theorem epsilon_pos : (0 : K) < epsilon := one_div_pos.mpr (by norm_num)

/-- Applying a part of an offset is applying that part of what is applied. -/
theorem abs_cut_mul_sub_le {part : K} (hnonneg : 0 ≤ part) (hle : part ≤ 1) (offset : K) :
    |cut (part * offset) - part * cut offset| ≤ epsilon := by
  rcases lt_or_ge |offset| epsilon with hsmall | hlarge
  · have hpart : |part * offset| < epsilon := by
      rw [abs_mul, abs_of_nonneg hnonneg]
      exact (mul_le_of_le_one_left (abs_nonneg _) hle).trans_lt hsmall
    rw [cut, if_pos hpart, cut, if_pos hsmall, mul_zero, sub_zero, abs_zero]
    exact epsilon_pos.le
  · rw [cut_of_le hlarge]
    exact abs_cut_sub_le _

/-- Inside a line the offset is a part of the one at its end. -/
theorem ramp_eq_mul {line : ShiftLine K O} {i : ℕ} (hstart : line.startIdx ≤ i)
    (hend : i ≤ line.endIdx) (hlower : arc line.startIdx ≤ arc i)
    (hupper : arc i ≤ arc line.endIdx) (delta : K) :
    ramp arc line delta i = (arc i - arc line.startIdx) / (arc line.endIdx - arc line.startIdx) *
      ((arc line.endIdx - arc line.startIdx) /
        max (arc line.endIdx - arc line.startIdx) epsilon * delta) := by
  unfold ramp
  rw [if_neg (by omega), if_pos hend]
  rcases eq_or_ne (arc line.endIdx - arc line.startIdx) 0 with hzero | hne
  · have hsame : arc i - arc line.startIdx = 0 := by linarith
    rw [hsame, zero_div, zero_div, zero_mul, zero_mul]
  · rw [← mul_assoc, div_mul_div_cancel₀ hne]

/-- Between the level and the end of a line the shift is linear, up to what is cut off. -/
theorem abs_sub_interpolation_le {level start part : K} (hnonneg : 0 ≤ part) (hle : part ≤ 1)
    (hstart : |start - level| ≤ 2 * epsilon) (offset : K) :
    |level + cut (part * offset) - (start + part * (level + cut offset - start))| ≤
      3 * epsilon := by
  have hcut := abs_cut_mul_sub_le hnonneg hle offset
  have hrest : |(1 - part) * (start - level)| ≤ 2 * epsilon := by
    rw [abs_mul, abs_of_nonneg (by linarith)]
    exact (mul_le_of_le_one_left (abs_nonneg _) (by linarith)).trans hstart
  calc |level + cut (part * offset) - (start + part * (level + cut offset - start))|
      = |cut (part * offset) - part * cut offset - (1 - part) * (start - level)| := by
        congr 1
        ring
    _ ≤ |cut (part * offset) - part * cut offset| + |(1 - part) * (start - level)| :=
        abs_sub _ _
    _ ≤ 3 * epsilon := by linarith

theorem shaped_of_follows {arc shift : ℕ → K} {size : ℕ} {index : ℕ} {level : K}
    (hmono : ∀ i j, i ≤ j → j < size → arc i ≤ arc j) (hsize : ∀ line ∈ lines, line.endIdx < size)
    (hseparate : Separate index lines) (hfollows : Follows arc shift index level lines)
    (hreaching : Reaching arc level lines) (hindex : |shift index - level| ≤ 2 * epsilon) :
    Shaped arc shift size lines := by
  have hepsilon : (0 : K) < epsilon := epsilon_pos
  induction lines generalizing index level with
  | nil =>
    exact ⟨List.Pairwise.nil, fun line hmem => absurd hmem List.not_mem_nil,
      fun line hmem => absurd hmem List.not_mem_nil,
      fun line hmem => absurd hmem List.not_mem_nil⟩
  | cons first rest ih =>
    obtain ⟨hstart, hlt, hrest⟩ := hseparate
    obtain ⟨hbefore, hinside, hafter⟩ := hfollows
    obtain ⟨hreaches, hreaching⟩ := hreaching
    have hend : shift first.endIdx = level + cut ((arc first.endIdx - arc first.startIdx) /
        max (arc first.endIdx - arc first.startIdx) epsilon * (first.endShiftLength - level)) := by
      rw [hinside _ hlt le_rfl, ramp_endIdx hlt]
    have hlevel : |shift first.endIdx - (level + cut (first.endShiftLength - level))| ≤
        2 * epsilon := by
      have hcut := abs_cut_sub_le (first.endShiftLength - level)
      rw [hend]
      rw [abs_le] at hreaches hcut ⊢
      constructor
      · linarith [hreaches.1, hcut.2]
      · linarith [hreaches.2, hcut.1]
    have hshaped := ih (fun line hmem => hsize line (List.mem_cons_of_mem _ hmem)) hrest hafter
      hreaching hlevel
    refine ⟨List.pairwise_cons.mpr ⟨fun other hmem => .inl (hrest.le_startIdx other hmem).1,
      hshaped.noConflict⟩, fun line hmem => ?_, fun line hmem i hle hi hnext => ?_,
      fun line hmem i hlower hupper => ?_⟩
    · rcases List.mem_cons.mp hmem with rfl | hmem
      · rw [hend]
        have heq : ∀ part : K, level + part - line.endShiftLength =
            part - (line.endShiftLength - level) := fun part => by ring
        rw [heq]
        exact hreaches
      · exact hshaped.reaches line hmem
    · rcases List.mem_cons.mp hmem with rfl | hmem
      · rcases hle.eq_or_lt with rfl | hbehind
        · rw [sub_self, abs_zero]
          linarith
        · have hi : shift i = level + cut (line.endShiftLength - level) := by
            cases rest with
            | nil => exact hafter i hbehind
            | cons second rest =>
              exact hafter.1 i hbehind (hnext second
                (List.mem_cons_of_mem _ (List.mem_cons_self ..)) hrest.1)
          rw [hi, abs_sub_comm]
          exact hlevel
      · exact hshaped.flat line hmem i hle hi
          fun other hother => hnext other (List.mem_cons_of_mem _ hother)
    · rcases List.mem_cons.mp hmem with rfl | hmem
      · have hsizeEnd := hsize line (List.mem_cons_self ..)
        have harcLower := hmono _ _ hlower (by omega)
        have harcUpper := hmono _ _ hupper hsizeEnd
        have hatStart : |shift line.startIdx - level| ≤ 2 * epsilon := by
          rcases hstart.eq_or_lt with rfl | hbehind
          · exact hindex
          · rw [hbefore _ hbehind le_rfl, sub_self, abs_zero]
            linarith
        have hpart : 0 ≤ (arc i - arc line.startIdx) / (arc line.endIdx - arc line.startIdx) :=
          div_nonneg (by linarith) (by linarith)
        have hpartLe : (arc i - arc line.startIdx) / (arc line.endIdx - arc line.startIdx) ≤ 1 :=
          div_le_one_of_le₀ (by linarith) (by linarith)
        rcases hlower.eq_or_lt with rfl | hbehind
        · rw [sub_self, zero_div, zero_mul, add_zero, sub_self, abs_zero]
          linarith
        · rw [hinside i hbehind hupper, ramp_eq_mul hlower hupper harcLower harcUpper, hend]
          exact abs_sub_interpolation_le hpart hpartLe hatStart _
      · exact hshaped.linear line hmem i hlower hupper

omit [IsStrictOrderedRing K] in
theorem reaching_of_follows {arc shift : ℕ → K} {index : ℕ}
    {level : K} (hseparate : Separate index lines) (hfollows : Follows arc shift index level lines)
    (hreaches : ∀ line ∈ lines, |shift line.endIdx - line.endShiftLength| ≤ epsilon) :
    Reaching arc level lines := by
  induction lines generalizing index level with
  | nil => trivial
  | cons first rest ih =>
    obtain ⟨_, hlt, hrest⟩ := hseparate
    obtain ⟨_, hinside, hafter⟩ := hfollows
    refine ⟨?_, ih hrest hafter fun line hmem => hreaches line (List.mem_cons_of_mem _ hmem)⟩
    have hfirst := hreaches first (List.mem_cons_self ..)
    rw [hinside _ hlt le_rfl, ramp_endIdx hlt] at hfirst
    have heq : ∀ part : K, part - (first.endShiftLength - level) =
        level + part - first.endShiftLength := fun part => by ring
    rw [heq]
    exact hfirst

omit [Field K] [LinearOrder K] [IsStrictOrderedRing K] in
theorem nonOverlapping_of_noConflict (haccepted : Accepted lines)
    (hsorted : lines.Pairwise fun line other => line.startIdx ≤ other.startIdx)
    (hnoConflict : lines.Pairwise fun line other =>
      line.endIdx ≤ other.startIdx ∨ other.endIdx ≤ line.startIdx) :
    NonOverlapping lines := by
  refine (hsorted.and hnoConflict).imp_of_mem ?_
  rintro line other hline hother ⟨hle, hbefore | hbehind⟩
  · exact hbefore
  · have hgap := haccepted other hother
    omega

theorem shaped_linearShift_iff {size : ℕ} (hmono : ∀ i j, i ≤ j → j < size → arc i ≤ arc j)
    (hsize : ∀ line ∈ lines, line.endIdx < size) (haccepted : Accepted lines)
    (hsorted : lines.Pairwise fun line other => line.startIdx ≤ other.startIdx) (level : K) :
    Shaped arc (linearShift arc lines fun _ => level) size lines ↔
      NonOverlapping lines ∧ Reaching arc level lines := by
  have hfollows : NonOverlapping lines → Separate 0 lines ∧
      Follows arc (linearShift arc lines fun _ => level) 0 level lines := fun hlines =>
    have hseparate := hlines.separate haccepted fun line _ => Nat.zero_le line.startIdx
    ⟨hseparate, follows_linearShift hseparate fun _ _ => rfl⟩
  constructor
  · intro hshaped
    have hlines := nonOverlapping_of_noConflict haccepted hsorted hshaped.noConflict
    obtain ⟨hseparate, hfollows⟩ := hfollows hlines
    exact ⟨hlines, reaching_of_follows hseparate hfollows hshaped.reaches⟩
  · rintro ⟨hlines, hreaching⟩
    obtain ⟨hseparate, hfollows⟩ := hfollows hlines
    refine shaped_of_follows hmono hsize hseparate hfollows hreaching ?_
    rw [linearShift_of_le hseparate _ le_rfl, sub_self, abs_zero]
    linarith [epsilon_pos (K := K)]

omit [IsStrictOrderedRing K] in
theorem Shaped.congr {arc shift other : ℕ → K} {size : ℕ} (hshaped : Shaped arc shift size lines)
    (hsize : ∀ line ∈ lines, line.startIdx < size ∧ line.endIdx < size)
    (hsame : ∀ i < size, other i = shift i) : Shaped arc other size lines where
  noConflict := hshaped.noConflict
  reaches := fun line hmem => by
    rw [hsame _ (hsize line hmem).2]
    exact hshaped.reaches line hmem
  flat := fun line hmem i hle hi hnext => by
    rw [hsame i hi, hsame _ (hsize line hmem).2]
    exact hshaped.flat line hmem i hle hi hnext
  linear := fun line hmem i hlower hupper => by
    rw [hsame i (hupper.trans_lt (hsize line hmem).2), hsame _ (hsize line hmem).1,
      hsame _ (hsize line hmem).2]
    exact hshaped.linear line hmem i hlower hupper

end

section

variable {K O : Type} [Field K] [LinearOrder K] [IsStrictOrderedRing K] {env : Environment K O}
  {self : PathShifter K O} {offsetBack : Bool} {result : ShiftedPath K O}

/-- The shift length at an index of an output object. -/
def shiftAt (result : ShiftedPath K O) (i : ℕ) : K := (result.shiftLength[i]?).getD 0

omit [LinearOrder K] [IsStrictOrderedRing K] in
theorem heldLengths_nil (size i : ℕ) :
    heldLengths (⟨[], []⟩ : ShiftedPath K O) size i = 0 := by
  unfold heldLengths resize
  rw [List.take_nil, List.nil_append]
  rcases lt_or_ge i size with hlt | hge
  · rw [List.getElem?_replicate_of_lt (by simpa using hlt)]
    rfl
  · rw [List.getElem?_eq_none (by simpa using hge)]
    rfl

theorem shiftAt_of_generate_linear (hpath : self.OnPath)
    (hgenerate : self.generate env ⟨[], []⟩ offsetBack .linear = .ok (result, true)) {i : ℕ}
    (hlt : i < self.referencePath.length) :
    shiftAt result i = linearShift (arc env self.referencePath) self.shiftLines
      (fun _ => baseLevel self.baseOffset) i := by
  unfold shiftAt
  rw [shiftLength_of_generate_linear hpath hgenerate, List.getElem?_map, List.getElem?_range hlt]
  simp only [linearLengths, heldLengths_nil, zero_add, Option.map_some, Option.getD_some]

end

/-- Orientations are directions, whose angle is measured by the part of the way to the side, with
a right angle as one. -/
def straightEnvironment : Environment ℚ (ℚ × ℚ) where
  sqrt := Rat.sqrt
  cosQuarterPi := 7071 / 10000
  orientationTo := fun source target => (target.x - source.x, target.y - source.y)
  calcYawDeviation := fun _ _ => 0
  isDrivingForward := fun _ _ => true
  sin := fun yaw => if yaw = 0 then 0 else 1
  cos := fun yaw => if yaw = 0 then 1 else 0
  getYaw := fun (x, y) => if x = 0 ∧ y = 0 then 0 else y / (|x| + |y|)
  normalizeRadian := id
  halfPi := 1
  sort := List.insertionSort fun line other => line.startIdx ≤ other.startIdx
  spline := fun _ _ _ => throw .invalidArgument

/-- A pose on the x axis that looks along it. -/
def poseAt (x : ℚ) : Pose ℚ (ℚ × ℚ) := ⟨⟨x, 0, 0⟩, (1, 0)⟩

def lineBetween (startIdx endIdx : ℕ) (endShiftLength : ℚ) : ShiftLine ℚ (ℚ × ℚ) :=
  ⟨poseAt startIdx, poseAt endIdx, endShiftLength, startIdx, endIdx⟩

def straightShifter (lines : List (ShiftLine ℚ (ℚ × ℚ))) : PathShifter ℚ (ℚ × ℚ) :=
  ⟨(List.range 7).map fun i => poseAt i, lines, 0, 0, -1⟩

instance (lines : List (ShiftLine ℚ (ℚ × ℚ))) : Decidable (NonOverlapping lines) :=
  inferInstanceAs (Decidable (lines.Pairwise _))

theorem straightShifter_generate {lines : List (ShiftLine ℚ (ℚ × ℚ))}
    (hpath : (straightShifter lines).OnPath) (haccepted : Accepted lines) :
    ∃ result, (straightShifter lines).generate straightEnvironment ⟨[], []⟩ true .linear =
      .ok (result, true) :=
  generate_linear_succeeds hpath (List.cons_ne_nil _ _) haccepted ⟨[], []⟩ true

section

variable {K O : Type} [Field K] [LinearOrder K] (env : Environment K O)

def splineLine (self : PathShifter K O) (offsetBack : Bool) (lengths : ℕ → K)
    (line : ShiftLine K O) : Except Failure (ℕ → K) := do
  let delta := line.endShiftLength - lengths line.endIdx
  let length := max (arc env self.referencePath line.endIdx -
    arc env self.referencePath line.startIdx) epsilon
  let queryLength ← self.queryLengths env (calcPathArcLengthArray env self.referencePath) line
    length delta offsetBack
  let between := fun i => lengths i + if i ∈ List.range' (line.startIdx + 1) queryLength.length then
    cut ((queryLength[i - (line.startIdx + 1)]?).getD 0) else 0
  if offsetBack then return fun i => between i + if line.endIdx ≤ i then cut delta else 0
  else do
    let front ← atIndex queryLength 0
    return fun i => between i + if i < line.startIdx + 1 then cut front else 0

def lengthsAfter (self : PathShifter K O) (offsetBack : Bool) (type : ShiftType)
    (held : ℕ → K) : Except Failure (ℕ → K) :=
  match type with
  | .spline => self.shiftLines.foldlM (self.splineLine env offsetBack) fun i =>
    held i + baseLevel self.baseOffset
  | .linear => return self.linearLengths env held

def AnswersQueries (env : Environment K O) : Prop :=
  ∀ keys values queries result, env.spline keys values queries = .ok result →
    result.length = queries.length

variable {env} {self : PathShifter K O} {held lengths : ℕ → K} {line : ShiftLine K O}

theorem length_queryLengths (hanswers : AnswersQueries env) {length delta : K} {offsetBack : Bool}
    {queryLength : List K}
    (hquery : self.queryLengths env (calcPathArcLengthArray env self.referencePath) line length
      delta offsetBack = .ok queryLength) :
    queryLength.length ≤ line.endIdx - (line.startIdx + 1) := by
  obtain ⟨base, _, hquery⟩ := bind_eq_ok.mp hquery
  obtain ⟨queryDistance, hdistance, hquery⟩ := bind_eq_ok.mp hquery
  have hlength : queryDistance.length = line.endIdx - (line.startIdx + 1) := by
    rw [length_of_mapM hdistance, List.length_range']
  by_cases hempty : queryDistance.isEmpty = true
  · rw [if_pos hempty] at hquery
    cases hquery
    exact Nat.zero_le _
  · rw [if_neg hempty] at hquery
    rw [hanswers _ _ _ _ hquery, hlength]

theorem applySplineLine_shiftedBy (hanswers : AnswersQueries env)
    (hstart : line.startIdx < self.referencePath.length)
    (hend : line.endIdx < self.referencePath.length) (hlt : line.startIdx < line.endIdx)
    (offsetBack : Bool) (held lengths : ℕ → K) :
    self.applySplineLine env (calcPathArcLengthArray env self.referencePath) offsetBack
        (shiftedBy env self.referencePath held lengths) line =
      (self.splineLine env offsetBack lengths line).map
        (shiftedBy env self.referencePath held) := by
  have hlength : shiftingArclength (calcPathArcLengthArray env self.referencePath) line = .ok
      (max (arc env self.referencePath line.endIdx - arc env self.referencePath line.startIdx)
        epsilon) := by
    unfold shiftingArclength
    rw [atIndex_calcPathArcLengthArray hend, atIndex_calcPathArcLengthArray hstart]
    rfl
  unfold applySplineLine splineLine
  rw [atIndex_shiftLength_shiftedBy hend, hlength]
  change (self.queryLengths env _ line _ _ offsetBack >>= _) =
    (self.queryLengths env _ line _ _ offsetBack >>= _).map _
  cases hquery : self.queryLengths env (calcPathArcLengthArray env self.referencePath) line
    (max (arc env self.referencePath line.endIdx - arc env self.referencePath line.startIdx)
      epsilon) (line.endShiftLength - lengths line.endIdx) offsetBack with
  | error failure => rfl
  | ok queryLength =>
    have hle := length_queryLengths hanswers hquery
    change (addLateralOffsets env _ _ _ >>= _) = Except.map _ _
    rw [addLateralOffsets_shiftedBy _ List.nodup_range' fun i hmem => by
      obtain ⟨j, hj, rfl⟩ := List.mem_range'.mp hmem
      omega]
    change (if offsetBack = true then _ else _) = Except.map _ (if offsetBack = true then _ else _)
    cases offsetBack with
    | true =>
      rw [if_pos rfl, if_pos rfl, length_path_shiftedBy]
      refine (addLateralOffsets_shiftedBy _ List.nodup_range' fun i hmem => ?_).trans ?_
      · obtain ⟨j, hj, rfl⟩ := List.mem_range'.mp hmem
        omega
      · refine congrArg Except.ok (shiftedBy_congr fun i hi => ?_)
        have hmem : i ∈ List.range' line.endIdx (self.referencePath.length - line.endIdx) ↔
            line.endIdx ≤ i := by
          rw [List.mem_range'_1]
          omega
        simp only [hmem]
    | false =>
      rw [if_neg Bool.false_ne_true, if_neg Bool.false_ne_true]
      cases atIndex queryLength 0 with
      | error failure => rfl
      | ok front =>
        change addLateralOffsets env _ _ _ = _
        refine (addLateralOffsets_shiftedBy _ List.nodup_range fun i hmem => ?_).trans ?_
        · have hi := List.mem_range.mp hmem
          omega
        · refine congrArg Except.ok (shiftedBy_congr fun i hi => ?_)
          simp only [List.mem_range]

theorem applyShifter_shiftedBy [IsStrictOrderedRing K] (hanswers : AnswersQueries env)
    (hpath : self.OnPath) (haccepted : Accepted self.shiftLines) (offsetBack : Bool) (type : ShiftType)
    (held : ℕ → K) :
    self.applyShifter env (shiftedBy env self.referencePath held held) offsetBack type =
      (self.lengthsAfter env offsetBack type held).map (shiftedBy env self.referencePath held) := by
  cases type with
  | linear => exact applyLinearShifter_shiftedBy hpath
  | spline =>
    unfold applyShifter applySplineShifter lengthsAfter
    dsimp only
    rw [shiftBaseLength_shiftedBy]
    refine foldlM_simulates _ (fun line hmem lengths => ?_) _
    obtain ⟨hstart, hend⟩ := hpath line hmem
    have hgap := haccepted line hmem
    exact applySplineLine_shiftedBy hanswers hstart hend (by omega) offsetBack held lengths

end

section

variable {K O : Type} [Field K] [LinearOrder K] {env : Environment K O}

theorem removeInvalidFrom_sublist (env : Environment K O) (previous : Pose K O)
    (poses : List (Pose K O)) :
    (removeInvalidFrom env previous poses).Sublist poses := by
  induction poses generalizing previous with
  | nil => exact List.Sublist.refl _
  | cons pose poses ih =>
    unfold removeInvalidFrom
    split_ifs
    · exact (ih previous).cons pose
    · exact (ih pose).cons_cons pose

/-- No two points that follow each other turn by more than a right angle. -/
def TurnsGently (env : Environment K O) (poses : List (Pose K O)) : Prop :=
  poses.IsChain fun previous pose => isInvalidTurn env previous pose = false

variable {poses : List (Pose K O)}

theorem removeInvalidFrom_eq_iff {previous : Pose K O} :
    (removeInvalidFrom env previous poses).length = poses.length ↔
      TurnsGently env (previous :: poses) := by
  unfold TurnsGently
  induction poses generalizing previous with
  | nil => exact iff_of_true rfl (List.isChain_singleton previous)
  | cons pose poses ih =>
    rw [List.isChain_cons_cons, removeInvalidFrom]
    cases hturn : isInvalidTurn env previous pose with
    | true =>
      have hle := (removeInvalidFrom_sublist env previous poses).length_le
      rw [if_pos rfl, List.length_cons]
      refine iff_of_false (by omega) fun hchain => ?_
      cases hchain.1
    | false =>
      rw [if_neg Bool.false_ne_true, List.length_cons, List.length_cons, Nat.add_right_cancel_iff,
        ih]
      exact (and_iff_right rfl).symm

theorem length_removeInvalidOrientationPoints_iff :
    (removeInvalidOrientationPoints env poses).length = poses.length ↔ TurnsGently env poses := by
  cases poses with
  | nil => exact iff_of_true rfl List.isChain_nil
  | cons first rest =>
    rw [removeInvalidOrientationPoints, List.length_cons, List.length_cons,
      Nat.add_right_cancel_iff, removeInvalidFrom_eq_iff]

theorem removeInvalidOrientationPoints_eq
    (hturns : TurnsGently env poses) : removeInvalidOrientationPoints env poses = poses := by
  have hlength := length_removeInvalidOrientationPoints_iff.mpr hturns
  cases poses with
  | nil => rfl
  | cons first rest =>
    refine congrArg (first :: ·) ((removeInvalidFrom_sublist env first rest).eq_of_length ?_)
    rw [removeInvalidOrientationPoints, List.length_cons, List.length_cons,
      Nat.add_right_cancel_iff] at hlength
    exact hlength

omit [Field K] [LinearOrder K] in
theorem map_position_insertOrientation (env : Environment K O) (poses : List (Pose K O)) :
    (insertOrientation env poses).map Pose.position = poses.map Pose.position := by
  match poses with
  | [] => rfl
  | [_] => rfl
  | [_, _] => rfl
  | first :: second :: third :: rest =>
    have hrest := map_position_insertOrientation env (second :: third :: rest)
    rw [insertOrientation]
    exact congrArg (first.position :: ·) hrest

end

/-! ## What a call leaves in the output object -/

section

variable {K O : Type} [Field K] [LinearOrder K] {env : Environment K O} {self : PathShifter K O}
  {shifted result : ShiftedPath K O} {offsetBack : Bool} {type : ShiftType}

/-- The path and the shift lengths of an output object belong together, point by point, and do
not depend on what it held before. -/
structure Sound (env : Environment K O) (shifter : PathShifter K O) (shifted : ShiftedPath K O)
    (offsetBack : Bool) (type : ShiftType) (result : ShiftedPath K O) : Prop where
  size : result.path.length = result.shiftLength.length
  lateral : ∀ (i : ℕ) (pose : Pose K O), result.path[i]? = some pose → ∃ original length,
    shifter.referencePath[i]? = some original ∧ result.shiftLength[i]? = some length ∧
      pose.position = (displace env original length).position
  independent : shifter.generate env shifted offsetBack type =
    shifter.generate env ⟨[], []⟩ offsetBack type

def ShiftsGently (self : PathShifter K O) (env : Environment K O) (offsetBack : Bool)
    (type : ShiftType) : Prop :=
  ∀ lengths, self.lengthsAfter env offsetBack type (fun _ => 0) = .ok lengths →
    TurnsGently env (insertOrientation env
      (self.referencePath.mapIdx fun i pose => displace env pose (lengths i)))

def HoldsNone (self : PathShifter K O) (shifted : ShiftedPath K O) : Prop :=
  ∀ i, heldLengths shifted self.referencePath.length i = 0

theorem generate_of_holdsNone (hne : self.referencePath ≠ []) (hnone : self.HoldsNone shifted) :
    self.generate env shifted offsetBack type = self.generate env ⟨[], []⟩ offsetBack type := by
  have hheld : heldLengths shifted self.referencePath.length =
      heldLengths (⟨[], []⟩ : ShiftedPath K O) self.referencePath.length :=
    funext fun i => (hnone i).trans (heldLengths_nil _ i).symm
  have hisEmpty : ¬ self.referencePath.isEmpty = true := by simpa using hne
  unfold generate
  rw [if_neg hisEmpty, if_neg hisEmpty, resized_eq env self shifted, hheld,
    ← resized_eq env self ⟨[], []⟩]

/-- The points of the object are those that were displaced by what was added to it. -/
structure Displaced (env : Environment K O) (reference : List (Pose K O)) (held lengths : ℕ → K)
    (result : ShiftedPath K O) : Prop where
  path : result.path.map Pose.position =
    (shiftedBy env reference held lengths).path.map Pose.position
  shiftLength : result.shiftLength = (shiftedBy env reference held lengths).shiftLength

section
omit [LinearOrder K]

variable {reference : List (Pose K O)} {held lengths : ℕ → K}

theorem Displaced.getElem? (hdisplaced : Displaced env reference held lengths result) (i : ℕ) :
    (result.path[i]?).map Pose.position = (reference[i]?).map fun original =>
      (displace env original (lengths i - held i)).position := by
  rw [← List.getElem?_map, hdisplaced.path, List.getElem?_map, shiftedBy, List.getElem?_mapIdx,
    Option.map_map]
  rfl

theorem Displaced.getElem?_shiftLength (hdisplaced : Displaced env reference held lengths result)
    {i : ℕ} (hlt : i < reference.length) : result.shiftLength[i]? = some (lengths i) := by
  rw [hdisplaced.shiftLength, shiftedBy, List.getElem?_map, List.getElem?_range hlt]
  rfl

/-- Entries that are the lateral shifts of the points include nothing that was held. -/
theorem Displaced.holdsNone
    (hunit : ∀ angle, env.sin angle * env.sin angle + env.cos angle * env.cos angle = 1)
    {lengths : ℕ → K} (hdisplaced : Displaced env self.referencePath
      (heldLengths shifted self.referencePath.length) lengths result)
    (hlateral : ∀ (i : ℕ) (pose : Pose K O), result.path[i]? = some pose → ∃ original length,
      self.referencePath[i]? = some original ∧ result.shiftLength[i]? = some length ∧
        pose.position = (displace env original length).position) :
    self.HoldsNone shifted := by
  intro i
  rcases lt_or_ge i self.referencePath.length with hlt | hge
  · have horiginal := List.getElem?_eq_getElem hlt
    have hpose := hdisplaced.getElem? i
    rw [horiginal, Option.map_some] at hpose
    obtain ⟨pose, hpose, hposition⟩ := Option.map_eq_some_iff.mp hpose
    obtain ⟨original, length, hsome, hlength, hsame⟩ := hlateral i pose hpose
    rw [horiginal] at hsome
    cases hsome
    rw [hdisplaced.getElem?_shiftLength hlt] at hlength
    cases hlength
    rw [hposition] at hsame
    have hx := congrArg Point.x hsame
    have hy := congrArg Point.y hsame
    unfold displace at hx hy
    dsimp only at hx hy
    generalize heldLengths shifted self.referencePath.length i = held at hx hy ⊢
    have hangle := hunit (env.getYaw self.referencePath[i].orientation)
    generalize env.sin (env.getYaw self.referencePath[i].orientation) = sine at hx hangle
    generalize env.cos (env.getYaw self.referencePath[i].orientation) = cosine at hy hangle
    have hsine : sine * held = 0 := by linear_combination hx
    have hcosine : cosine * held = 0 := by linear_combination -hy
    calc held = (sine * sine + cosine * cosine) * held := by rw [hangle, one_mul]
      _ = sine * (sine * held) + cosine * (cosine * held) := by ring
      _ = 0 := by rw [hsine, hcosine, mul_zero, mul_zero, add_zero]
  · unfold heldLengths resize
    rw [List.getElem?_eq_none (by
      rw [List.length_append, List.length_take, List.length_replicate]
      omega)]
    rfl

theorem Displaced.lateral {lengths : ℕ → K}
    (hdisplaced : Displaced env self.referencePath (fun _ => 0) lengths result) (i : ℕ)
    (pose : Pose K O) (hpose : result.path[i]? = some pose) :
    ∃ original length, self.referencePath[i]? = some original ∧
      result.shiftLength[i]? = some length ∧
        pose.position = (displace env original length).position := by
  have hsome := hdisplaced.getElem? i
  rw [hpose, Option.map_some] at hsome
  obtain ⟨original, horiginal, hposition⟩ := Option.map_eq_some_iff.mp hsome.symm
  have hlt := (List.getElem?_eq_some_iff.mp horiginal).1
  refine ⟨original, lengths i, horiginal, hdisplaced.getElem?_shiftLength hlt, ?_⟩
  rw [← hposition, sub_zero]

theorem Displaced.size (hdisplaced : Displaced env reference held lengths result) :
    result.path.length = result.shiftLength.length := by
  have hlength := congrArg List.length hdisplaced.path
  rw [List.length_map, List.length_map, length_path_shiftedBy] at hlength
  rw [hlength, hdisplaced.shiftLength, shiftedBy, List.length_map, List.length_range]

end

variable [IsStrictOrderedRing K]

/-- The output object is sound exactly if it held no shift lengths for the path, and the shifted
path turns gently unless there are no lines. -/
theorem generate_sound_iff (hanswers : AnswersQueries env)
    (hunit : ∀ angle, env.sin angle * env.sin angle + env.cos angle * env.cos angle = 1)
    (hpath : self.OnPath)
    (hgenerate : self.generate env shifted offsetBack type = .ok (result, true)) :
    Sound env self shifted offsetBack type result ↔ self.HoldsNone shifted ∧
        (self.shiftLines = [] ∨ self.ShiftsGently env offsetBack type) := by
  obtain ⟨hne, haccepted, ⟨hlines, hbased⟩ | ⟨hlines, applied, happlied, hresult⟩⟩ :=
    generate_eq_ok hgenerate
  · rw [shiftBaseLength_shiftedBy] at hbased
    have hdisplaced : Displaced env self.referencePath
        (heldLengths shifted self.referencePath.length) _ result :=
      ⟨by rw [← Except.ok.inj hbased], by rw [← Except.ok.inj hbased]⟩
    constructor
    · exact fun hsound => ⟨hdisplaced.holdsNone hunit hsound.lateral, .inl hlines⟩
    · rintro ⟨hnone, _⟩
      rw [show heldLengths shifted self.referencePath.length = fun _ => 0 from funext hnone]
        at hdisplaced
      exact ⟨hdisplaced.size, hdisplaced.lateral, generate_of_holdsNone hne hnone⟩
  · rw [applyShifter_shiftedBy hanswers hpath haccepted] at happlied
    obtain ⟨lengths, hlengths, rfl⟩ := map_eq_ok.mp happlied
    have hdisplaced (hturns : TurnsGently env (insertOrientation env (shiftedBy env
        self.referencePath (heldLengths shifted self.referencePath.length) lengths).path)) :
        Displaced env self.referencePath (heldLengths shifted self.referencePath.length) lengths
          result := by
      rw [hresult, removeInvalidOrientationPoints_eq hturns]
      exact ⟨map_position_insertOrientation env _, rfl⟩
    constructor
    · intro hsound
      have hturns : TurnsGently env (insertOrientation env (shiftedBy env self.referencePath
          (heldLengths shifted self.referencePath.length) lengths).path) := by
        rw [← length_removeInvalidOrientationPoints_iff]
        have hsize := hsound.size
        rw [hresult] at hsize
        have hlength := congrArg List.length (map_position_insertOrientation env
          (shiftedBy env self.referencePath
            (heldLengths shifted self.referencePath.length) lengths).path)
        rw [List.length_map, List.length_map, length_path_shiftedBy] at hlength
        rw [hlength, hsize, shiftedBy, List.length_map, List.length_range]
      have hnone := (hdisplaced hturns).holdsNone hunit hsound.lateral
      refine ⟨hnone, .inr fun other hother => ?_⟩
      rw [show heldLengths shifted self.referencePath.length = fun _ => 0 from funext hnone]
        at hlengths hturns
      obtain rfl := Except.ok.inj (hlengths.symm.trans hother)
      unfold shiftedBy at hturns
      simp only [sub_zero] at hturns
      exact hturns
    · rintro ⟨hnone, hgently⟩
      have hgently := hgently.resolve_left hlines
      rw [show heldLengths shifted self.referencePath.length = fun _ => 0 from funext hnone]
        at hlengths hdisplaced
      have hdisplaced := hdisplaced (by
        unfold shiftedBy
        simp only [sub_zero]
        exact hgently lengths hlengths)
      exact ⟨hdisplaced.size, hdisplaced.lateral, generate_of_holdsNone hne hnone⟩

end

theorem straightEnvironment_unit (angle : ℚ) :
    straightEnvironment.sin angle * straightEnvironment.sin angle +
      straightEnvironment.cos angle * straightEnvironment.cos angle = 1 := by
  unfold straightEnvironment
  dsimp only
  split_ifs
  · norm_num
  · norm_num

theorem straightEnvironment_answersQueries : AnswersQueries straightEnvironment := by
  intro keys values queries result hresult
  cases hresult

/-- The lengths of the two parts of an output object, with the result of the call. -/
def sizes (program : Except Failure (ShiftedPath ℚ (ℚ × ℚ) × Bool)) : Option (ℕ × ℕ × Bool) :=
  program.toOption.map fun (result, success) =>
    (result.path.length, result.shiftLength.length, success)

/-- At a sharp bend two points of the path are removed, but not their shift lengths. -/
theorem sharp_bend_sizes :
    sizes ((straightShifter [lineBetween 0 2 4, lineBetween 2 4 0]).generate straightEnvironment
      ⟨[], []⟩ true .linear) = some (5, 7, true) := by
  decide +kernel

/-- A gentle shift into a new output object. -/
theorem gentle_shift_sound :
    let self := straightShifter [lineBetween 0 2 1]
    ∃ result, self.generate straightEnvironment ⟨[], []⟩ true .linear = .ok (result, true) ∧
      Sound straightEnvironment self ⟨[], []⟩ true .linear result := by
  intro self
  have hpath : self.OnPath := by
    unfold OnPath
    decide
  have haccepted : Accepted self.shiftLines := by
    unfold Accepted
    decide
  obtain ⟨result, hresult⟩ := straightShifter_generate hpath haccepted
  refine ⟨result, hresult, (generate_sound_iff straightEnvironment_answersQueries
    straightEnvironment_unit hpath hresult).mpr ⟨heldLengths_nil _, .inr ?_⟩⟩
  intro lengths hlengths
  cases hlengths
  unfold TurnsGently
  decide +kernel

end PathShifter

end AutowareUniverse.Planning
