import AutowareUniverse.Common.ArcLengthInsertion
import AutowareUniverse.Library.SpacedValues

/-!
# Arc lengths of a resampled path

The arc lengths at which a path is resampled: input points and lane borders, multiples of
the interval, the end of the section and the stop point, each unless a close one is there.
The set of lane ids that were seen is never filled, so lane borders are chosen only with the
input points.
-/

namespace AutowareUniverse.Planning.ResamplePath

open Common.MotionUtils Library.Fallible Library.SpacedValues

section

structure PathPoint (K O : Type) where
  pose : Pose K O
  longitudinalVelocityMps : K
  laneIds : List ℤ

variable {K O : Type} [Field K] [LinearOrder K] (geometry : Trigonometry K O)

def searchZeroVelocityIndex (points : List (PathPoint K O)) : Option ℕ :=
  points.findIdx? fun point => |point.longitudinalVelocityMps| < 1 / 1000

def calcDistanceToForwardStopPoint (points : List (PathPoint K O)) : Option K :=
  (searchZeroVelocityIndex points).map fun closestStopIdx =>
    max 0 (calcSignedArcLength geometry (points.map PathPoint.pose) 0 closestStopIdx)

def epsilon : K := 1 / 5

/-- `has_almost_same_value`. -/
def hasAlmostSameValue (vec : List K) (x : K) : Bool :=
  hasClose epsilon vec x

def laneIdStep (keepInputPoints : Bool) (s : K) (state : List K × List ℤ) (laneId : ℤ) :
    List K × List ℤ :=
  let (sIn, uniqueLaneIds) := state
  let sIn := if keepInputPoints && !hasAlmostSameValue sIn s then sIn ++ [s] else sIn
  if laneId ∈ uniqueLaneIds then (insertUnlessClose epsilon sIn s, uniqueLaneIds ++ [laneId])
  else (sIn, uniqueLaneIds)

/-- The loop over the points from an index on. -/
def inputSamples (keepInputPoints : Bool) (sVec : List K) :
    ℕ → List (PathPoint K O) → List K × List ℤ → Except Failure (List K × List ℤ)
  | _, [], state => .ok state
  | i, point :: later, state => do
    let s ← atIndex sVec i
    inputSamples keepInputPoints sVec (i + 1) later
      (point.laneIds.foldl (laneIdStep keepInputPoints s) state)

/-- The loop over the section; it has not ended when the given number of rounds is over. -/
def sampleLoop (interval endS : K) : ℕ → K → List K → Option (List K)
  | 0, _, _ => none
  | rounds + 1, s, sOut =>
    if s < endS then
      sampleLoop interval endS rounds (s + interval) (insertUnlessClose epsilon sOut s)
    else some sOut

/-- The terminal point and the stop point. -/
def insertEnds (endS : K) (closestStopDist : Option K) (sOut : List K) : List K :=
  let sOut := insertUnlessClose epsilon sOut endS
  match closestStopDist with
  | some dist => insertUnlessClose epsilon sOut dist
  | none => sOut

/-- The arc lengths that `resamplePathWithSpline` chooses. -/
def chosenArcLengths (rounds : ℕ) (points : List (PathPoint K O)) (interval : K)
    (keepInputPoints : Bool) (targetSection : K × K) : Option (Except Failure (List K)) :=
  match calcSignedArcLengthPartialSum geometry rounds (points.map PathPoint.pose) 0
    points.length with
  | none => none
  | some (.error failure) => some (.error failure)
  | some (.ok sVec) =>
    match inputSamples keepInputPoints sVec 0 points ([], []), atIndex sVec (sVec.length - 1) with
    | .error failure, _ => some (.error failure)
    | .ok _, .error failure => some (.error failure)
    | .ok (sIn, _), .ok sBack =>
      let startS := max targetSection.1 0
      let endS := min targetSection.2 sBack
      (sampleLoop interval endS rounds startS sIn).map fun sOut =>
        .ok ((insertEnds endS (calcDistanceToForwardStopPoint geometry points)
          sOut).insertionSort (· ≤ ·))

/-- The path at the chosen arc lengths, by `motion_utils::resamplePath`. -/
def resamplePathWithSpline
    (resamplePath : List (PathPoint K O) → List K → List (PathPoint K O)) (rounds : ℕ)
    (points : List (PathPoint K O)) (interval : K) (keepInputPoints : Bool)
    (targetSection : K × K) : Option (Except Failure (List (PathPoint K O))) :=
  if points.length < 2 then some (.ok points)
  else
    (chosenArcLengths geometry rounds points interval keepInputPoints targetSection).map
      fun chosen => chosen.map fun sOut =>
        if sOut.isEmpty then points else resamplePath points sOut

/-! ## Input points -/

variable {points : List (PathPoint K O)} {sVec : List K}

theorem laneIdStep_false (s : K) (sIn : List K) (laneId : ℤ) :
    laneIdStep false s (sIn, []) laneId = (sIn, []) := by
  simp [laneIdStep]

theorem laneIdStep_true (s : K) (sIn : List K) (laneId : ℤ) :
    laneIdStep true s (sIn, []) laneId = (insertUnlessClose epsilon sIn s, []) := by
  unfold laneIdStep hasAlmostSameValue insertUnlessClose
  cases hclose : hasClose epsilon sIn s <;> simp [hclose]

theorem foldl_laneIdStep_false (s : K) (sIn : List K) (laneIds : List ℤ) :
    laneIds.foldl (laneIdStep false s) (sIn, []) = (sIn, []) := by
  induction laneIds with
  | nil => rfl
  | cons laneId later ih => rw [List.foldl_cons, laneIdStep_false, ih]

theorem inputSamples_false {i : ℕ} (hbound : i + points.length ≤ sVec.length) (sIn : List K) :
    inputSamples false sVec i points (sIn, []) = .ok (sIn, []) := by
  induction points generalizing i with
  | nil => rfl
  | cons point later ih =>
    rw [List.length_cons] at hbound
    have hs : atIndex sVec i = .ok sVec[i] := by
      rw [atIndex, List.getElem?_eq_getElem (by omega)]
      rfl
    rw [inputSamples]
    refine bind_eq_ok.mpr ⟨_, hs, ?_⟩
    rw [foldl_laneIdStep_false]
    exact ih (by omega)

theorem epsilon_pos [IsStrictOrderedRing K] : (0 : K) < epsilon :=
  div_pos one_pos (by norm_num)

def IsNear (values : List K) (x : K) : Prop :=
  ∃ value ∈ values, |value - x| < epsilon

theorem IsNear.mono {values others : List K} {x : K} (hnear : IsNear values x)
    (hmem : ∀ value ∈ values, value ∈ others) : IsNear others x := by
  obtain ⟨value, hvalue, hlt⟩ := hnear
  exact ⟨value, hmem value hvalue, hlt⟩

structure Extends (values others : List K) : Prop where
  apart : Apart epsilon values → Apart epsilon others
  mem : ∀ value ∈ values, value ∈ others

theorem Extends.refl (values : List K) : Extends values values := ⟨id, fun _ hmem => hmem⟩

theorem Extends.trans {values others last : List K} (hfirst : Extends values others)
    (hsecond : Extends others last) : Extends values last :=
  ⟨fun hapart => hsecond.apart (hfirst.apart hapart),
    fun value hvalue => hsecond.mem value (hfirst.mem value hvalue)⟩

theorem extends_insertUnlessClose (values : List K) (x : K) :
    Extends values (insertUnlessClose epsilon values x) :=
  ⟨fun hapart => hapart.insertUnlessClose x, fun _ hvalue => mem_insertUnlessClose_of_mem hvalue⟩

theorem sampleLoop_isSome {interval endS : K} {rounds k : ℕ}
    (hend : endS ≤ (k + rounds : ℕ) * interval) (sOut : List K) :
    ∃ result, sampleLoop interval endS (rounds + 1) (k * interval) sOut = some result := by
  induction rounds generalizing k sOut with
  | zero =>
    rw [Nat.add_zero] at hend
    exact ⟨sOut, by rw [sampleLoop, if_neg (not_lt.mpr hend)]⟩
  | succ rounds ih =>
    rw [sampleLoop]
    split
    · have hnext : (k : K) * interval + interval = (k + 1 : ℕ) * interval := by
        push_cast
        ring
      rw [hnext]
      exact ih (by rw [Nat.add_assoc, Nat.add_comm 1]; exact hend) _
    · exact ⟨sOut, rfl⟩

variable [IsStrictOrderedRing K]

theorem foldl_laneIdStep_true (s : K) (sIn : List K) (laneIds : List ℤ) :
    ∃ samples, laneIds.foldl (laneIdStep true s) (sIn, []) = (samples, []) ∧
      Extends sIn samples ∧ (laneIds ≠ [] → IsNear samples s) := by
  induction laneIds generalizing sIn with
  | nil => exact ⟨sIn, rfl, .refl sIn, fun hne => absurd rfl hne⟩
  | cons laneId later ih =>
    obtain ⟨samples, hsamples, hextends, _⟩ := ih (insertUnlessClose epsilon sIn s)
    rw [List.foldl_cons, laneIdStep_true]
    refine ⟨samples, hsamples, (extends_insertUnlessClose sIn s).trans hextends, fun _ => ?_⟩
    exact IsNear.mono (near_insertUnlessClose epsilon_pos) hextends.mem

theorem inputSamples_true (hlanes : ∀ point ∈ points, point.laneIds ≠ []) {i : ℕ}
    (hbound : i + points.length ≤ sVec.length) (sIn : List K) :
    ∃ samples, inputSamples true sVec i points (sIn, []) = .ok (samples, []) ∧ Extends sIn samples ∧
      ∀ k, k < points.length → ∀ s ∈ sVec[i + k]?, IsNear samples s := by
  induction points generalizing i sIn with
  | nil => exact ⟨sIn, rfl, .refl sIn, fun k hk => absurd hk k.not_lt_zero⟩
  | cons point later ih =>
    rw [List.length_cons] at hbound
    have hs : atIndex sVec i = .ok sVec[i] := by
      rw [atIndex, List.getElem?_eq_getElem (by omega)]
      rfl
    obtain ⟨middle, hmiddle, hfirst, hnear⟩ := foldl_laneIdStep_true sVec[i] sIn point.laneIds
    obtain ⟨samples, hsamples, hlater, hothers⟩ :=
      ih (fun other hmem => hlanes other (List.mem_cons_of_mem _ hmem)) (i := i + 1)
        (by omega) middle
    refine ⟨samples, ?_, hfirst.trans hlater, ?_⟩
    · rw [inputSamples]
      refine bind_eq_ok.mpr ⟨_, hs, ?_⟩
      rw [hmiddle]
      exact hsamples
    · intro k hk s hmem
      cases k with
      | zero =>
        rw [Nat.add_zero, List.getElem?_eq_getElem (by omega)] at hmem
        cases hmem
        exact (hnear (hlanes point List.mem_cons_self)).mono hlater.mem
      | succ k =>
        refine hothers k (Nat.lt_of_succ_lt_succ hk) s ?_
        rw [Nat.add_assoc, Nat.add_comm 1]
        exact hmem

omit [IsStrictOrderedRing K] in
theorem sampleLoop_eq_some {interval endS : K} {initial result : List K} {rounds k : ℕ}
    (hbefore : ∀ j, j < k → (j : K) * interval < endS)
    (hloop : sampleLoop interval endS rounds (k * interval)
      (insertMultiples epsilon interval initial k) = some result) :
    ∃ count, result = insertMultiples epsilon interval initial count ∧
      (∀ j, j < count → (j : K) * interval < endS) ∧ endS ≤ count * interval := by
  induction rounds generalizing k with
  | zero => cases hloop
  | succ rounds ih =>
    rw [sampleLoop] at hloop
    split at hloop
    · rename_i hlt
      have hnext : (k : K) * interval + interval = (k + 1 : ℕ) * interval := by
        push_cast
        ring
      rw [hnext, ← insertMultiples_succ] at hloop
      refine ih (fun j hj => ?_) hloop
      rcases Nat.lt_succ_iff_lt_or_eq.mp hj with hj | rfl
      · exact hbefore j hj
      · exact hlt
    · rename_i hend
      cases hloop
      exact ⟨k, rfl, hbefore, not_lt.mp hend⟩

end

/-! ## What a resampled path covers -/

variable {K O : Type} [Field K] [LinearOrder K] (geometry : Trigonometry K O)
  (points : List (PathPoint K O))

def arcLength (i : ℕ) : K :=
  arcLengthFrom geometry (points.map PathPoint.pose) 0 i

def endArcLength : K :=
  arcLength geometry points (points.length - 1)

def LaneBorder (i : ℕ) : Prop :=
  ∃ point laneId, points[i]? = some point ∧ laneId ∈ point.laneIds ∧
    ∀ j before, j < i → points[j]? = some before → laneId ∉ before.laneIds

structure Covers (points : List (PathPoint K O)) (chosen : List K) : Prop where
  sorted : chosen.Pairwise (· ≤ ·)
  apart : Apart epsilon chosen
  start : IsNear chosen 0
  finish : IsNear chosen (endArcLength geometry points)
  stop : ∀ dist ∈ calcDistanceToForwardStopPoint geometry points, IsNear chosen dist
  border : ∀ i, LaneBorder points i → IsNear chosen (arcLength geometry points i)

section

variable [FloorSemiring K] (interval : K) (points : List (PathPoint K O))

def IsMultiple (x : K) : Prop :=
  ∃ j : ℕ, x = (j * stride epsilon interval : ℕ) * interval ∧ x < endArcLength geometry points

def IsEnd (x : K) : Prop :=
  x = endArcLength geometry points ∧
    ∀ other, IsMultiple geometry interval points other → epsilon ≤ |other - x|

/-- The stop point, when no multiple is close, nor the end if it is taken. -/
def IsStop (x : K) : Prop :=
  calcDistanceToForwardStopPoint geometry points = some x ∧
    ∀ other, IsMultiple geometry interval points other ∨ IsEnd geometry interval points other →
      epsilon ≤ |other - x|

def RegularSample (x : K) : Prop :=
  IsMultiple geometry interval points x ∨ IsEnd geometry interval points x ∨
    IsStop geometry interval points x

end

variable {geometry} {points : List (PathPoint K O)}

theorem extends_insertEnds (endS : K) (closestStopDist : Option K) (sOut : List K) :
    Extends sOut (insertEnds endS closestStopDist sOut) := by
  cases closestStopDist with
  | none => exact extends_insertUnlessClose sOut endS
  | some dist => exact (extends_insertUnlessClose sOut endS).trans (extends_insertUnlessClose _ dist)

theorem near_insertEnds_end [IsStrictOrderedRing K] (endS : K) (closestStopDist : Option K)
    (sOut : List K) : IsNear (insertEnds endS closestStopDist sOut) endS := by
  have hnear : IsNear (insertUnlessClose epsilon sOut endS) endS :=
    near_insertUnlessClose epsilon_pos
  cases closestStopDist with
  | none => exact hnear
  | some dist => exact hnear.mono (extends_insertUnlessClose _ dist).mem

theorem near_insertEnds_stop [IsStrictOrderedRing K] (endS dist : K) (sOut : List K) :
    IsNear (insertEnds endS (some dist) sOut) dist :=
  near_insertUnlessClose epsilon_pos

/-! ## The chosen arc lengths -/

section

variable {interval : K} {keepInputPoints : Bool} {targetSection : K × K} {rounds : ℕ}

variable (htwo : 2 ≤ points.length) (hstart : targetSection.1 ≤ 0)
variable (hend : endArcLength geometry points ≤ targetSection.2)

def arcLengths (geometry : Trigonometry K O) (points : List (PathPoint K O)) : List K :=
  (List.range points.length).map (arcLength geometry points)

section
omit [LinearOrder K]

theorem arcLengths_getElem? {i : ℕ} (hi : i < points.length) :
    (arcLengths geometry points)[i]? = some (arcLength geometry points i) := by
  rw [arcLengths, List.getElem?_map, List.getElem?_range hi]
  rfl

theorem length_arcLengths : (arcLengths geometry points).length = points.length := by
  rw [arcLengths, List.length_map, List.length_range]

end

include htwo hstart hend

variable {uniqueLaneIds : List ℤ}

variable (rounds) in
theorem chosenArcLengths_eq {sIn : List K}
    (hsIn : inputSamples keepInputPoints (arcLengths geometry points) 0 points ([], []) =
      .ok (sIn, uniqueLaneIds)) :
    chosenArcLengths geometry (rounds + 1) points interval keepInputPoints targetSection =
      (sampleLoop interval (endArcLength geometry points) (rounds + 1) 0 sIn).map fun sOut =>
        .ok ((insertEnds (endArcLength geometry points)
          (calcDistanceToForwardStopPoint geometry points) sOut).insertionSort (· ≤ ·)) := by
  have hpartial : calcSignedArcLengthPartialSum geometry (rounds + 1)
      (points.map PathPoint.pose) 0 points.length = some (.ok (arcLengths geometry points)) := by
    rw [calcSignedArcLengthPartialSum_of_lt (by omega) (by rw [List.length_map])]
    rfl
  have hback : atIndex (arcLengths geometry points) ((arcLengths geometry points).length - 1) =
      .ok (endArcLength geometry points) := by
    rw [length_arcLengths, atIndex, arcLengths_getElem? (by omega)]
    rfl
  simp only [chosenArcLengths, hpartial, hsIn, hback, max_eq_right hstart, min_eq_right hend]

omit htwo hstart hend in
variable (geometry keepInputPoints) in
theorem inputSamples_ok [IsStrictOrderedRing K] (hlanes : ∀ point ∈ points, point.laneIds ≠ []) :
    ∃ sIn, inputSamples keepInputPoints (arcLengths geometry points) 0 points ([], []) =
        .ok (sIn, []) ∧
      Apart epsilon sIn ∧ (keepInputPoints = false → sIn = []) ∧
      (keepInputPoints = true → ∀ i, i < points.length → IsNear sIn (arcLength geometry points i)) := by
  have hbound : 0 + points.length ≤ (arcLengths geometry points).length := by
    rw [length_arcLengths, Nat.zero_add]
  cases keepInputPoints with
  | false =>
    exact ⟨[], inputSamples_false hbound [], List.Pairwise.nil, fun _ => rfl,
      fun hkeep => absurd hkeep Bool.false_ne_true⟩
  | true =>
    obtain ⟨sIn, hsIn, hextends, hnear⟩ := inputSamples_true hlanes hbound []
    refine ⟨sIn, hsIn, hextends.apart List.Pairwise.nil,
      fun hkeep => absurd hkeep.symm Bool.false_ne_true, ?_⟩
    intro _ i hi
    refine hnear i hi _ ?_
    rw [Nat.zero_add, arcLengths_getElem? hi]
    rfl

/-- The arc lengths are those of the multiples and the ends that were put into a list. -/
structure Sampled (geometry : Trigonometry K O) (points : List (PathPoint K O)) (interval : K)
    (sIn chosen : List K) (count : ℕ) : Prop where
  sorted : chosen.Pairwise (· ≤ ·)
  perm : chosen.Perm (insertEnds (endArcLength geometry points)
    (calcDistanceToForwardStopPoint geometry points) (insertMultiples epsilon interval sIn count))
  before : ∀ j, j < count → (j : K) * interval < endArcLength geometry points
  reached : endArcLength geometry points ≤ count * interval

theorem sampled_of_chosen {sIn chosen : List K}
    (hsIn : inputSamples keepInputPoints (arcLengths geometry points) 0 points ([], []) =
      .ok (sIn, uniqueLaneIds))
    (hchosen : chosenArcLengths geometry rounds points interval keepInputPoints targetSection =
      some (.ok chosen)) :
    ∃ count, Sampled geometry points interval sIn chosen count := by
  cases rounds with
  | zero => cases hchosen
  | succ rounds =>
    rw [chosenArcLengths_eq rounds htwo hstart hend hsIn, Option.map_eq_some_iff] at hchosen
    obtain ⟨sOut, hloop, hchosen⟩ := hchosen
    cases hchosen
    have hzero : (0 : K) = ((0 : ℕ) : K) * interval := by rw [Nat.cast_zero, zero_mul]
    rw [hzero] at hloop
    obtain ⟨count, rfl, hbefore, hreached⟩ :=
      sampleLoop_eq_some (fun j hj => absurd hj j.not_lt_zero) hloop
    exact ⟨count, List.pairwise_insertionSort _ _, List.perm_insertionSort _ _, hbefore, hreached⟩

/-- Enough rounds choose the arc lengths. -/
theorem exists_chosen [IsStrictOrderedRing K] [FloorSemiring K] (hinterval : 0 < interval)
    {sIn : List K}
    (hsIn : inputSamples keepInputPoints (arcLengths geometry points) 0 points ([], []) =
      .ok (sIn, uniqueLaneIds)) :
    ∃ rounds chosen, chosenArcLengths geometry rounds points interval keepInputPoints
      targetSection = some (.ok chosen) := by
  have hreached : endArcLength geometry points ≤
      (0 + ⌈endArcLength geometry points / interval⌉₊ : ℕ) * interval := by
    rw [Nat.zero_add, ← div_le_iff₀ hinterval]
    exact Nat.le_ceil _
  obtain ⟨sOut, hloop⟩ := sampleLoop_isSome hreached sIn
  rw [Nat.cast_zero, zero_mul] at hloop
  exact ⟨_, _, (chosenArcLengths_eq _ htwo hstart hend hsIn).trans (congrArg (Option.map _) hloop)⟩

end

section

variable {interval : K} {sIn chosen : List K} {count : ℕ}

theorem Sampled.apart (hsampled : Sampled geometry points interval sIn chosen count)
    [IsStrictOrderedRing K] (hapart : Apart epsilon sIn) : Apart epsilon chosen :=
  ((extends_insertEnds ..).apart (hapart.insertMultiples count)).perm hsampled.perm.symm

theorem Sampled.mem (hsampled : Sampled geometry points interval sIn chosen count) :
    ∀ value ∈ insertMultiples epsilon interval sIn count, value ∈ chosen :=
  fun value hvalue => hsampled.perm.mem_iff.mpr ((extends_insertEnds ..).mem value hvalue)

variable [IsStrictOrderedRing K]

section

variable (hsampled : Sampled geometry points interval sIn chosen count)

include hsampled

theorem Sampled.finish :
    IsNear chosen (endArcLength geometry points) :=
  (near_insertEnds_end ..).mono fun _ hvalue => hsampled.perm.mem_iff.mpr hvalue

theorem Sampled.stop {dist : K}
    (hdist : calcDistanceToForwardStopPoint geometry points = some dist) : IsNear chosen dist := by
  have hperm := hsampled.perm
  rw [hdist] at hperm
  exact (near_insertEnds_stop ..).mono fun _ hvalue => hperm.mem_iff.mpr hvalue

theorem Sampled.start (hend : 0 ≤ endArcLength geometry points) : IsNear chosen 0 := by
  rcases Nat.eq_zero_or_pos count with rfl | hcount
  · have hreached := hsampled.reached
    rw [Nat.cast_zero, zero_mul] at hreached
    exact le_antisymm hreached hend ▸ hsampled.finish
  · have hnear : IsNear (insertMultiples epsilon interval sIn count) ((0 : ℕ) * interval) :=
      near_insertMultiples epsilon_pos hcount
    rw [Nat.cast_zero, zero_mul] at hnear
    exact hnear.mono hsampled.mem

end

variable [FloorSemiring K]

theorem Sampled.mem_iff (hsampled : Sampled geometry points interval [] chosen count)
    (hinterval : 0 < interval) (x : K) :
    x ∈ chosen ↔ RegularSample geometry interval points x := by
  have hmultiple (y : K) : y ∈ insertMultiples epsilon interval [] count ↔
      IsMultiple geometry interval points y := by
    rw [mem_insertMultiples_iff epsilon_pos hinterval]
    constructor
    · rintro ⟨j, hj, rfl⟩
      exact ⟨j, rfl, hsampled.before _ hj⟩
    · rintro ⟨j, rfl, hbefore⟩
      have hlt := lt_of_mul_lt_mul_right (hbefore.trans_le hsampled.reached) hinterval.le
      exact ⟨j, Nat.cast_lt.mp hlt, rfl⟩
  have hends (y : K) : y ∈ insertUnlessClose epsilon (insertMultiples epsilon interval [] count)
      (endArcLength geometry points) ↔
        IsMultiple geometry interval points y ∨ IsEnd geometry interval points y := by
    rw [mem_insertUnlessClose, hmultiple]
    simp only [hmultiple, IsEnd]
    refine or_congr_right (and_congr_right ?_)
    rintro rfl
    exact Iff.rfl
  rw [hsampled.perm.mem_iff, RegularSample, ← or_assoc, ← hends, IsStop]
  cases hstop : calcDistanceToForwardStopPoint geometry points with
  | none => simp [insertEnds]
  | some dist =>
    rw [insertEnds, mem_insertUnlessClose]
    simp only [hends, Option.some.injEq]
    refine or_congr_right ?_
    rw [eq_comm]
    refine and_congr_right ?_
    rintro rfl
    exact Iff.rfl

end

omit [Field K] [LinearOrder K] in
theorem LaneBorder.lt_length {i : ℕ} (hborder : LaneBorder points i) : i < points.length := by
  obtain ⟨point, _, hpoint, _⟩ := hborder
  exact (List.getElem?_eq_some_iff.mp hpoint).1

theorem arcLength_nonneg [IsStrictOrderedRing K] (hsqrt : ∀ value, 0 ≤ geometry.sqrt value)
    (i : ℕ) : 0 ≤ arcLength geometry points i := by
  refine List.sum_nonneg fun length hlength => ?_
  obtain ⟨k, _, rfl⟩ := List.mem_map.mp hlength
  unfold segmentLength
  split
  · exact hsqrt _
  · exact le_rfl

/-- The chosen arc lengths are sorted and apart and cover the start, the end, the stop point and
the lane borders if and only if input points are kept or each lane border is close to a regular
sample. -/
theorem chosenArcLengths_covers_iff [IsStrictOrderedRing K] [FloorSemiring K] {interval : K}
    {keepInputPoints : Bool} {targetSection : K × K}
    (hsqrt : ∀ value, 0 ≤ geometry.sqrt value) (htwo : 2 ≤ points.length)
    (hlanes : ∀ point ∈ points, point.laneIds ≠ []) (hinterval : 0 < interval)
    (hstart : targetSection.1 ≤ 0) (hend : endArcLength geometry points ≤ targetSection.2) :
    (∃ rounds chosen, chosenArcLengths geometry rounds points interval keepInputPoints
        targetSection = some (.ok chosen) ∧ Covers geometry points chosen) ↔
      keepInputPoints = true ∨ ∀ i, LaneBorder points i →
        ∃ x, RegularSample geometry interval points x ∧
          |x - arcLength geometry points i| < epsilon := by
  obtain ⟨sIn, hsIn, hapart, hempty, hnear⟩ :=
    inputSamples_ok geometry keepInputPoints hlanes
  constructor
  · rintro ⟨rounds, chosen, hchosen, hcovers⟩
    obtain ⟨count, hsampled⟩ := sampled_of_chosen htwo hstart hend hsIn hchosen
    refine (Bool.eq_false_or_eq_true keepInputPoints).imp_right fun hkeep i hborder => ?_
    rw [hempty hkeep] at hsampled
    obtain ⟨x, hx, hlt⟩ := hcovers.border i hborder
    exact ⟨x, (hsampled.mem_iff hinterval x).mp hx, hlt⟩
  · intro hcondition
    obtain ⟨rounds, chosen, hchosen⟩ := exists_chosen htwo hstart hend hinterval hsIn
    obtain ⟨count, hsampled⟩ := sampled_of_chosen htwo hstart hend hsIn hchosen
    refine ⟨rounds, chosen, hchosen, {
      sorted := hsampled.sorted
      apart := hsampled.apart hapart
      start := hsampled.start (arcLength_nonneg hsqrt _)
      finish := hsampled.finish
      stop := fun dist hdist => hsampled.stop hdist
      border := fun i hborder => ?_ }⟩
    cases hkeep : keepInputPoints with
    | true =>
      refine (hnear hkeep i hborder.lt_length).mono fun value hvalue => ?_
      exact hsampled.mem value (mem_insertMultiples_of_mem hvalue count)
    | false =>
      rw [hempty hkeep] at hsampled
      obtain ⟨x, hx, hlt⟩ := hcondition.resolve_left (by simp [hkeep]) i hborder
      exact ⟨x, (hsampled.mem_iff hinterval x).mpr hx, hlt⟩

/-- Points at 0, 1 and 3, the last two in another lane. -/
def threePoints : List (PathPoint ℚ Unit) :=
  (threePoses.zip [[1], [2], [2]]).map fun (pose, laneIds) => ⟨pose, 1, laneIds⟩

theorem chosenArcLengths_threePoints :
    (∃ rounds chosen, chosenArcLengths alongX rounds threePoints 1 true (0, 10) =
        some (.ok chosen) ∧ Covers alongX threePoints chosen) ↔
      true = true ∨ ∀ i, LaneBorder threePoints i →
        ∃ x, RegularSample alongX 1 threePoints x ∧ |x - arcLength alongX threePoints i| < epsilon :=
  chosenArcLengths_covers_iff (fun value => by dsimp only [alongX]; split_ifs <;> norm_num)
    (by decide) (by simp [threePoints, threePoses]) one_pos (by decide +kernel) (by decide +kernel)

/-- The lane border at 1 is between the samples at 0, 2 and 3. -/
theorem chosenArcLengths_not_covers :
    ¬ ∃ rounds chosen, chosenArcLengths alongX rounds threePoints 2 false (0, 10) =
        some (.ok chosen) ∧ Covers alongX threePoints chosen := by
  rw [chosenArcLengths_covers_iff (fun value => by dsimp only [alongX]; split_ifs <;> norm_num)
    (by decide) (by simp [threePoints, threePoses]) two_pos (by decide +kernel) (by decide +kernel)]
  rintro (hkeep | hborders)
  · cases hkeep
  have hborder : LaneBorder threePoints 1 := by
    refine ⟨_, 2, rfl, by decide, fun j before hj hbefore => ?_⟩
    cases Nat.lt_one_iff.mp hj
    cases hbefore
    decide
  obtain ⟨x, hx, hlt⟩ := hborders 1 hborder
  have harc : arcLength alongX threePoints 1 = 1 := by decide +kernel
  rw [harc, epsilon, abs_lt] at hlt
  obtain ⟨hlow, hhigh⟩ := hlt
  rcases hx with ⟨j, rfl, _⟩ | ⟨rfl, _⟩ | ⟨hstop, _⟩
  · rcases Nat.eq_zero_or_pos (j * stride (epsilon : ℚ) 2) with hzero | hpos
    · rw [hzero] at hlow
      norm_num at hlow
    · have hone : (1 : ℚ) ≤ (j * stride (epsilon : ℚ) 2 : ℕ) := Nat.one_le_cast.mpr hpos
      linarith
  · have hend : endArcLength alongX threePoints = 3 := by decide +kernel
    rw [hend] at hhigh
    norm_num at hhigh
  · have hnone : calcDistanceToForwardStopPoint alongX threePoints = none := by decide +kernel
    rw [hnone] at hstop
    cases hstop

end AutowareUniverse.Planning.ResamplePath
