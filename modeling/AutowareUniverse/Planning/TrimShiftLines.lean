import AutowareUniverse.Planning.TotalShiftLine
import Mathlib.Analysis.Convex.Segment

/-!
# Trimming the shift lines

The merged shift lines are put in order, lines with almost the same gradient are combined, end
shifts are quantized, and returns that are too sharp are combined with the lines behind them.
-/

namespace AutowareUniverse.Planning.Avoidance

open Common.MotionUtils

section

/-- What the trimming takes from the module, and the functions of the standard library. -/
structure TrimEnvironment (K O : Type) where
  /-- `getCurrentLinearShift()`. -/
  currentLinearShift : K
  egoSpeed : K
  minNominalAvoidanceSpeed : K
  nominalLateralJerk : K
  minAvoidanceDistance : K
  /-- `std::pow` with the exponent 1/3. -/
  cbrt : K → K
  round : K → K
  /-- `std::sort` by `end_longitudinal`. -/
  sort : List (AvoidLine K O) → List (AvoidLine K O)

section

variable {K O : Type} [Field K] [LinearOrder K] (env : TrimEnvironment K O)

/-! ## Helpers -/

def setEndData (ap : AvoidLine K O) (length : K) (endPose : Pose K O) (endIdx : ℕ) (endDist : K) :
    AvoidLine K O :=
  { ap with
    endShiftLength := length
    endPose
    endIdx
    endLongitudinal := endDist }

def concatParentIds (ids1 ids2 : List ℕ) : List ℕ :=
  ((ids1 ++ ids2).dedup).insertionSort fun id other => id ≤ other

def calcLongitudinalDistFromJerk (lateral jerk velocity : K) : K :=
  if |jerk| < 1 / 100000000 then 10000000000
  else 4 * env.cbrt (1 / 2 * |lateral| / |jerk|) * |velocity|

def getNominalAvoidanceEgoSpeed : K := max env.egoSpeed env.minNominalAvoidanceSpeed

def getNominalAvoidanceDistance (shiftLength : K) : K :=
  let distanceByJerk := calcLongitudinalDistFromJerk env shiftLength env.nominalLateralJerk
    (getNominalAvoidanceEgoSpeed env)
  max env.minAvoidanceDistance distanceByJerk

def withStartLengths (startShiftLength : K) : List (AvoidLine K O) → List (AvoidLine K O)
  | [] => []
  | sl :: shiftLines =>
    { sl with startShiftLength } :: withStartLengths sl.endShiftLength shiftLines

def alignShiftLinesOrder (shiftLines : List (AvoidLine K O)) : List (AvoidLine K O) :=
  withStartLengths env.currentLinearShift (env.sort shiftLines)

def quantizedLine (interval : K) (sl : AvoidLine K O) : AvoidLine K O :=
  { sl with endShiftLength := env.round (sl.endShiftLength / interval) * interval }

def quantizeShiftLine (interval : K) (shiftLines : List (AvoidLine K O)) : List (AvoidLine K O) :=
  if interval < 1 / 100000 then shiftLines
  else alignShiftLinesOrder env (shiftLines.map (quantizedLine env interval))

def combinedAl (alPrev alNow : AvoidLine K O) : AvoidLine K O :=
  { setEndData alPrev alNow.endShiftLength alNow.endPose alNow.endIdx alNow.endLongitudinal with
    parentIds := concatParentIds alPrev.parentIds alPrev.parentIds }

def hasLargeLengthChange (changeShiftDistThreshold : K) (combinedAl : AvoidLine K O)
    (beingMergedPoints : List (AvoidLine K O)) : Bool :=
  beingMergedPoints.any fun original =>
    let longitudinal := original.endLongitudinal - combinedAl.startLongitudinal
    let newLength := combinedAl.getGradient * longitudinal + combinedAl.startShiftLength
    changeShiftDistThreshold < |newLength - original.endShiftLength|

/-- The loop of `trimSimilarGradShiftLine`, from the line that was taken last on. -/
def trimSimilarFrom (changeShiftDistThreshold : K) (alPrev : AvoidLine K O)
    (beingMergedPoints : List (AvoidLine K O)) : List (AvoidLine K O) → List (AvoidLine K O)
  | [] => [alPrev]
  | alNow :: rest =>
    let beingMergedPoints := beingMergedPoints ++ [alPrev]
    let combined := combinedAl alPrev alNow
    if hasLargeLengthChange changeShiftDistThreshold combined beingMergedPoints then
      alPrev :: trimSimilarFrom changeShiftDistThreshold alNow [] rest
    else
      trimSimilarFrom changeShiftDistThreshold combined (beingMergedPoints ++ [alPrev]) rest

def trimSimilarGradShiftLine (changeShiftDistThreshold : K) :
    List (AvoidLine K O) → Except Failure (List (AvoidLine K O))
  | [] => throw .outOfRange
  | first :: rest =>
    return alignShiftLinesOrder env (trimSimilarFrom changeShiftDistThreshold first [] rest)

/-! ## Sharp returns -/

def isZero (v : K) : Bool := |v| < 1 / 100

/-- The shift goes further out. -/
def isPositive (sl : AvoidLine K O) : Bool :=
  1 / 10 < |sl.endShiftLength| - |sl.startShiftLength|

/-- The shift returns. -/
def isNegative (sl : AvoidLine K O) : Bool :=
  |sl.endShiftLength| - |sl.startShiftLength| < -(1 / 10)

def combineShiftLine (slNext slNow : AvoidLine K O) : AvoidLine K O :=
  { setEndData slNow slNext.endShiftLength slNext.endPose slNext.endIdx slNext.endLongitudinal with
    parentIds := concatParentIds slNow.parentIds slNow.parentIds }

/-- The merged shift is in conflict with the end of one of the lines it is made of. -/
def hasViolation (combined : AvoidLine K O) (combinedSrc : List (AvoidLine K O)) : Bool :=
  combinedSrc.any fun sl =>
    let combinedShift := lerpShiftLengthOnArc sl.endLongitudinal combined
    (sl.endShiftLength < -(1 / 100) ∧ sl.endShiftLength + 3 / 10 < combinedShift) ∨
      (1 / 100 < sl.endShiftLength ∧ combinedShift < sl.endShiftLength - 3 / 10)

def longDistance (sl : AvoidLine K O) : K :=
  let nominalDistance := getNominalAvoidanceDistance env sl.getRelativeLength
  if isZero sl.endShiftLength then nominalDistance else nominalDistance * 5

/-- The inner loop of `trimSharpReturn`: the line that is taken, and the lines that are left. -/
def searchCombined (slNow slCombinedPrev : AvoidLine K O) (slCombinedArray : List (AvoidLine K O)) :
    List (AvoidLine K O) → Except Failure (AvoidLine K O × List (AvoidLine K O))
  | [] => throw .outOfRange
  | slNext :: rest =>
    let slCombined := combineShiftLine slNext slNow
    if isPositive slCombined then return (slCombined, rest)
    else if hasViolation slCombined slCombinedArray then return (slCombinedPrev, slNext :: rest)
    else if longDistance env slCombined < slCombined.getRelativeLongitudinal then
      return (slCombined, rest)
    else if rest.isEmpty then return (slCombined, rest)
    else searchCombined slNow slCombined (slCombinedArray ++ [slNext]) rest

variable {env} in
theorem length_searchCombined {slNow slCombinedPrev slCombined : AvoidLine K O}
    {slCombinedArray shiftLines rest : List (AvoidLine K O)}
    (hsearch : searchCombined env slNow slCombinedPrev slCombinedArray shiftLines =
      .ok (slCombined, rest)) : rest.length ≤ shiftLines.length := by
  induction shiftLines generalizing slCombinedPrev slCombinedArray with
  | nil => cases hsearch
  | cons slNext shiftLines ih =>
    unfold searchCombined at hsearch
    dsimp only at hsearch
    split_ifs at hsearch
    · cases hsearch
      exact Nat.le_succ _
    · cases hsearch
      exact le_rfl
    · cases hsearch
      exact Nat.le_succ _
    · cases hsearch
      exact Nat.le_succ _
    · exact (ih hsearch).trans (Nat.le_succ _)

def startingFrom (startShiftLength : K) (sl : AvoidLine K O) : AvoidLine K O :=
  { sl with startShiftLength }

/-- The shift goes to the other side of the path. -/
def isOpposite (sl : AvoidLine K O) : Bool :=
  sl.endShiftLength * sl.startShiftLength < -(1 / 100)

/-- The outer loop of `trimSharpReturn`, behind the end shift of the line taken last. -/
def trimSharpFrom (startShiftLength : K) (shiftLines : List (AvoidLine K O)) :
    Except Failure (List (AvoidLine K O)) :=
  match shiftLines with
  | [] => return []
  | sl :: rest =>
    let slNow := startingFrom startShiftLength sl
    if isOpposite slNow then trimSharpFrom startShiftLength rest
    else if !isNegative slNow then do
      return slNow :: (← trimSharpFrom slNow.endShiftLength rest)
    else if rest.isEmpty then return [slNow]
    else
      match _hsearch : searchCombined env slNow slNow [slNow] rest with
      | .error failure => throw failure
      | .ok (slCombined, remaining) => do
        return slCombined :: (← trimSharpFrom slCombined.endShiftLength remaining)
termination_by shiftLines.length
decreasing_by
  · exact Nat.lt_succ_self _
  · exact Nat.lt_succ_self _
  · exact Nat.lt_succ_of_le (length_searchCombined _hsearch)

def trimSharpReturn (shiftLines : List (AvoidLine K O)) :
    Except Failure (List (AvoidLine K O)) := do
  return alignShiftLinesOrder env (← trimSharpFrom env env.currentLinearShift shiftLines)

def trimShiftLine (shiftLines : List (AvoidLine K O)) : Except Failure (List (AvoidLine K O)) :=
  if shiftLines.isEmpty then return shiftLines
  else do
    let aligned := alignShiftLinesOrder env shiftLines
    let similar ← trimSimilarGradShiftLine env (1 / 10) aligned
    let quantized := quantizeShiftLine env (1 / 5) similar
    let similarAgain ← trimSimilarGradShiftLine env (1 / 5) quantized
    let sharp ← trimSharpReturn env similarAgain
    trimSimilarGradShiftLine env (1 / 5) sharp

end

/-! ## Runs of the trimming of sharp returns -/

/-- What happens to lines that a pass does not keep. -/
inductive TrimEvent (K O : Type) where
  | skipped (sl : AvoidLine K O)
  | merged (slNow : AvoidLine K O) (members : List (AvoidLine K O))

section

variable {K O : Type} [Field K] [LinearOrder K]

/-- Nothing is merged behind the line. -/
def StaysAlone (slNow : AvoidLine K O) : List (AvoidLine K O) → Prop
  | [] => True
  | slNext :: _ => isNegative slNow → ¬ isPositive (combineShiftLine slNext slNow) ∧
      hasViolation (combineShiftLine slNext slNow) [slNow]

variable (env : TrimEnvironment K O)

/-- A run of the outer loop of `trimSharpReturn`.  A merged line goes further out, or is in no
conflict with the lines it is made of. -/
inductive SharpRun : K → List (AvoidLine K O) → List (TrimEvent K O) → List (AvoidLine K O) →
    Prop where
  | done (startShiftLength : K) : SharpRun startShiftLength [] [] []
  | skip {startShiftLength : K} {sl : AvoidLine K O} {rest out events}
      (hopposite : isOpposite (startingFrom startShiftLength sl))
      (hrest : SharpRun startShiftLength rest events out) :
      SharpRun startShiftLength (sl :: rest) (.skipped sl :: events) out
  | keep {startShiftLength : K} {sl : AvoidLine K O} {rest out events}
      (hopposite : ¬ isOpposite (startingFrom startShiftLength sl))
      (halone : StaysAlone (startingFrom startShiftLength sl) rest)
      (hrest : SharpRun sl.endShiftLength rest events out) :
      SharpRun startShiftLength (sl :: rest) events (startingFrom startShiftLength sl :: out)
  | merge {startShiftLength : K} {sl last : AvoidLine K O} {members rest out events}
      (hopposite : ¬ isOpposite (startingFrom startShiftLength sl))
      (halone : ¬ StaysAlone (startingFrom startShiftLength sl) (members ++ last :: rest))
      (hsearch : searchCombined env (startingFrom startShiftLength sl)
        (startingFrom startShiftLength sl) [startingFrom startShiftLength sl]
          (members ++ last :: rest) =
        .ok (combineShiftLine last (startingFrom startShiftLength sl), rest))
      (hchecked : isPositive (combineShiftLine last (startingFrom startShiftLength sl)) ∨
        ¬ hasViolation (combineShiftLine last (startingFrom startShiftLength sl))
          (startingFrom startShiftLength sl :: members))
      (hrest : SharpRun last.endShiftLength rest events out) :
      SharpRun startShiftLength (sl :: (members ++ last :: rest))
        (.merged (startingFrom startShiftLength sl) (members ++ [last]) :: events)
        (combineShiftLine last (startingFrom startShiftLength sl) :: out)

variable {env}

/-- What the inner loop can do. -/
theorem searchCombined_cases {slNow slCombinedPrev : AvoidLine K O}
    {slCombinedArray shiftLines : List (AvoidLine K O)} (hne : shiftLines ≠ []) :
    ∃ slCombined rest, searchCombined env slNow slCombinedPrev slCombinedArray shiftLines =
        .ok (slCombined, rest) ∧
      ((∃ slNext remaining, rest = slNext :: remaining ∧ shiftLines = rest ∧
          slCombined = slCombinedPrev ∧ ¬ isPositive (combineShiftLine slNext slNow) ∧
          hasViolation (combineShiftLine slNext slNow) slCombinedArray) ∨
        ∃ members last, shiftLines = members ++ last :: rest ∧
          slCombined = combineShiftLine last slNow ∧
          (∀ slNext ∈ shiftLines.head?, isPositive (combineShiftLine slNext slNow) ∨
            ¬ hasViolation (combineShiftLine slNext slNow) slCombinedArray) ∧
          (isPositive slCombined ∨ ¬ hasViolation slCombined (slCombinedArray ++ members))) := by
  induction shiftLines generalizing slCombinedPrev slCombinedArray with
  | nil => exact absurd rfl hne
  | cons slNext shiftLines ih =>
    unfold searchCombined
    dsimp only
    have hfirst : ∀ {P : AvoidLine K O → Prop}, P slNext →
        ∀ sl ∈ (slNext :: shiftLines).head?, P sl := fun hnext sl hsl => by
      cases hsl
      exact hnext
    split_ifs with hpositive hviolation hlong hlast
    · exact ⟨_, _, rfl, .inr ⟨[], slNext, rfl, rfl, hfirst (.inl hpositive), .inl hpositive⟩⟩
    · exact ⟨_, _, rfl, .inl ⟨slNext, shiftLines, rfl, rfl, rfl, hpositive, hviolation⟩⟩
    · refine ⟨_, _, rfl, .inr ⟨[], slNext, rfl, rfl, hfirst (.inr hviolation), .inr ?_⟩⟩
      rw [List.append_nil]
      exact hviolation
    · refine ⟨_, _, rfl, .inr ⟨[], slNext, rfl, rfl, hfirst (.inr hviolation), .inr ?_⟩⟩
      rw [List.append_nil]
      exact hviolation
    · have hmore : shiftLines ≠ [] := fun hnil => hlast (List.isEmpty_iff.mpr hnil)
      obtain ⟨slCombined, rest, hsearch, hcases⟩ := @ih (combineShiftLine slNext slNow)
        (slCombinedArray ++ [slNext]) hmore
      refine ⟨slCombined, rest, hsearch, .inr ?_⟩
      rcases hcases with ⟨_, _, _, hrest, rfl, _⟩ | ⟨members, last, hsplit, hcombined, _, hchecked⟩
      · refine ⟨[], slNext, by rw [hrest, List.nil_append], rfl, hfirst (.inr hviolation), .inr ?_⟩
        rw [List.append_nil]
        exact hviolation
      · refine ⟨slNext :: members, last, by rw [hsplit, List.cons_append], hcombined,
          hfirst (.inr hviolation), ?_⟩
        rw [List.append_assoc, List.singleton_append] at hchecked
        exact hchecked

variable {rest : List (AvoidLine K O)}

theorem not_staysAlone {slNow : AvoidLine K O} (hreturns : isNegative slNow) (hmore : rest ≠ [])
    (hfirst : ∀ slNext ∈ rest.head?, isPositive (combineShiftLine slNext slNow) ∨
      ¬ hasViolation (combineShiftLine slNext slNow) [slNow]) : ¬ StaysAlone slNow rest := by
  cases rest with
  | nil => exact absurd rfl hmore
  | cons slNext rest =>
    intro halone
    obtain ⟨hpositive, hviolation⟩ := halone hreturns
    rcases hfirst slNext rfl with hpos | hnone
    · exact hpositive hpos
    · exact hnone hviolation

/-- The loops end, and never reach behind the lines. -/
theorem trimSharpFrom_run (startShiftLength : K) (shiftLines : List (AvoidLine K O)) :
    ∃ events out, trimSharpFrom env startShiftLength shiftLines = .ok out ∧
      SharpRun env startShiftLength shiftLines events out := by
  induction hlength : shiftLines.length using Nat.strong_induction_on generalizing
    startShiftLength shiftLines with
  | _ length ih =>
    cases shiftLines with
    | nil =>
      refine ⟨[], [], ?_, .done _⟩
      rw [trimSharpFrom]
      rfl
    | cons sl rest =>
      have hrun : ∀ startShiftLength' remaining, remaining.length < length →
          ∃ events out, trimSharpFrom env startShiftLength' remaining = .ok out ∧
            SharpRun env startShiftLength' remaining events out :=
        fun startShiftLength' remaining hlt =>
          ih remaining.length hlt startShiftLength' remaining rfl
      rw [List.length_cons] at hlength
      rw [trimSharpFrom]
      split_ifs with hopposite hnegative hlast
      · obtain ⟨events, out, hok, hevents⟩ := hrun startShiftLength rest (by omega)
        exact ⟨_, out, hok, .skip hopposite hevents⟩
      · obtain ⟨events, out, hok, hevents⟩ := hrun sl.endShiftLength rest (by omega)
        refine ⟨_, _, ?_, .keep hopposite ?_ hevents⟩
        · change (trimSharpFrom env sl.endShiftLength rest >>= _) = _
          rw [hok]
          rfl
        · cases rest with
          | nil => trivial
          | cons slNext rest =>
            intro hreturns
            rw [hreturns] at hnegative
            cases hnegative
      · obtain rfl := List.isEmpty_iff.mp hlast
        exact ⟨[], [startingFrom startShiftLength sl], rfl, .keep hopposite trivial (.done _)⟩
      · have hreturns : isNegative (startingFrom startShiftLength sl) := by
          rw [Bool.not_eq_true, Bool.not_eq_false'] at hnegative
          exact hnegative
        have hmore : rest ≠ [] := fun hnil => hlast (List.isEmpty_iff.mpr hnil)
        obtain ⟨slCombined, remaining, hsearch, hcases⟩ :=
          @searchCombined_cases _ _ _ _ env (startingFrom startShiftLength sl)
            (startingFrom startShiftLength sl) [startingFrom startShiftLength sl] _ hmore
        have hshorter := length_searchCombined hsearch
        split
        · next failure hfailure =>
            rw [hsearch] at hfailure
            cases hfailure
        · next found left hfound =>
            rw [hsearch] at hfound
            cases hfound
            obtain ⟨events, out, hok, hevents⟩ :=
              hrun slCombined.endShiftLength remaining (by omega)
            have hpushed : (do
                return slCombined :: (← trimSharpFrom env slCombined.endShiftLength remaining)) =
                (.ok (slCombined :: out) : Except Failure (List (AvoidLine K O))) := by
              rw [hok]
              rfl
            rcases hcases with ⟨slNext, _, rfl, rfl, rfl, hpositive, hviolation⟩ |
              ⟨members, last, rfl, rfl, hfirst, hchecked⟩
            · exact ⟨_, _, hpushed, .keep hopposite (fun _ => ⟨hpositive, hviolation⟩) hevents⟩
            · have halone := not_staysAlone hreturns hmore hfirst
              exact ⟨_, _, hpushed, .merge hopposite halone hsearch hchecked hevents⟩

theorem isNegative_of_not_staysAlone {slNow : AvoidLine K O}
    (halone : ¬ StaysAlone slNow rest) : isNegative slNow := by
  by_contra hkept
  cases rest with
  | nil => exact halone trivial
  | cons slNext rest => exact halone fun hreturns => absurd hreturns hkept

theorem searchCombined_of_staysAlone {slNow slNext : AvoidLine K O}
    (halone : StaysAlone slNow (slNext :: rest)) (hreturns : isNegative slNow) :
    searchCombined env slNow slNow [slNow] (slNext :: rest) = .ok (slNow, slNext :: rest) := by
  obtain ⟨hpositive, hviolation⟩ := halone hreturns
  unfold searchCombined
  dsimp only
  rw [if_neg hpositive, if_pos hviolation]
  rfl

theorem not_isPositive_of_searchCombined {slNow slCombinedPrev slCombined last : AvoidLine K O}
    {slCombinedArray members rest : List (AvoidLine K O)}
    (hsearch : searchCombined env slNow slCombinedPrev slCombinedArray (members ++ last :: rest) =
      .ok (slCombined, rest)) :
    ∀ member ∈ members, ¬ isPositive (combineShiftLine member slNow) := by
  induction members generalizing slCombinedPrev slCombinedArray with
  | nil => exact fun member hmem => absurd hmem List.not_mem_nil
  | cons slNext members ih =>
    -- A search that ends at this line leaves more lines than there are behind the last one.
    have hlonger : (members ++ last :: rest).length = members.length + rest.length + 1 := by
      rw [List.length_append, List.length_cons, Nat.add_assoc]
    rw [List.cons_append] at hsearch
    unfold searchCombined at hsearch
    dsimp only at hsearch
    split_ifs at hsearch with hpositive hviolation hlong hlast
    · have hleft := congrArg List.length (Prod.mk.inj (Except.ok.inj hsearch)).2
      omega
    · have hleft := congrArg List.length (Prod.mk.inj (Except.ok.inj hsearch)).2
      rw [List.length_cons] at hleft
      omega
    · have hleft := congrArg List.length (Prod.mk.inj (Except.ok.inj hsearch)).2
      omega
    · rw [List.isEmpty_iff.mp hlast] at hlonger
      exact absurd hlonger (Nat.succ_ne_zero _).symm
    · intro member hmem
      rcases List.mem_cons.mp hmem with rfl | hmem
      · exact hpositive
      · exact ih hsearch member hmem

theorem SharpRun.trimSharpFrom_eq {startShiftLength : K} {lines out : List (AvoidLine K O)}
    {events : List (TrimEvent K O)} (hrun : SharpRun env startShiftLength lines events out) :
    trimSharpFrom env startShiftLength lines = .ok out := by
  induction hrun with
  | done startShiftLength =>
    rw [trimSharpFrom]
    rfl
  | skip hopposite hrest ih =>
    rw [trimSharpFrom, if_pos hopposite]
    exact ih
  | @keep startShiftLength sl rest out events hopposite halone hrest ih =>
    rw [trimSharpFrom, if_neg hopposite]
    split_ifs with hnegative hlast
    · change (trimSharpFrom env sl.endShiftLength rest >>= _) = _
      rw [ih]
      rfl
    · obtain rfl := List.isEmpty_iff.mp hlast
      cases hrest
      rfl
    · have hreturns : isNegative (startingFrom startShiftLength sl) := by
        rw [Bool.not_eq_true, Bool.not_eq_false'] at hnegative
        exact hnegative
      cases rest with
      | nil => exact absurd rfl hlast
      | cons slNext rest =>
        split
        · next failure hfailure =>
            rw [searchCombined_of_staysAlone halone hreturns] at hfailure
            cases hfailure
        · next slCombined remaining hfound =>
            rw [searchCombined_of_staysAlone halone hreturns] at hfound
            cases hfound
            change (trimSharpFrom env sl.endShiftLength (slNext :: rest) >>= _) = _
            rw [ih]
            rfl
  | @merge startShiftLength sl last members rest out events hopposite halone hsearch hchecked
      hrest ih =>
      have hreturns := isNegative_of_not_staysAlone halone
      have hmore : ¬ (members ++ last :: rest).isEmpty := fun hnil =>
        List.append_ne_nil_of_right_ne_nil _ (List.cons_ne_nil _ _) (List.isEmpty_iff.mp hnil)
      rw [trimSharpFrom, if_neg hopposite, hreturns, if_neg (Bool.not_true ▸ Bool.false_ne_true),
        if_neg hmore]
      split
      · next failure hfailure =>
          rw [hsearch] at hfailure
          cases hfailure
      · next slCombined remaining hfound =>
          rw [hsearch] at hfound
          cases hfound
          change (trimSharpFrom env last.endShiftLength rest >>= _) = _
          rw [ih]
          rfl

end

/-!
## The passes of the trimming

Each pass keeps lines, merges a line with lines behind it, or skips a line.  A merged line has
the parents of its first part only.
-/

section

variable {K O : Type} [Field K] [LinearOrder K]

def SameParents (sl other : AvoidLine K O) : Prop := ∀ id, id ∈ sl.parentIds ↔ id ∈ other.parentIds

/-- A pass over the lines, with what happens on the way. -/
inductive Trims : List (AvoidLine K O) → List (TrimEvent K O) → List (AvoidLine K O) → Prop where
  | nil : Trims [] [] []
  | keep {sl kept : AvoidLine K O} {rest out events}
      (hstart : kept.startLongitudinal = sl.startLongitudinal)
      (hend : kept.endLongitudinal = sl.endLongitudinal) (hparents : SameParents kept sl)
      (hrest : Trims rest events out) : Trims (sl :: rest) events (kept :: out)
  | skip {sl : AvoidLine K O} {rest out events} (hrest : Trims rest events out) :
      Trims (sl :: rest) (.skipped sl :: events) out
  | merge {sl slNow combined last : AvoidLine K O} {members rest out events}
      (hstart : combined.startLongitudinal = sl.startLongitudinal)
      (hend : combined.endLongitudinal = last.endLongitudinal)
      (hparents : SameParents combined sl) (hnow : SameParents slNow sl)
      (hrest : Trims (combined :: rest) events out) :
      Trims (sl :: (members ++ last :: rest)) (.merged slNow (members ++ [last]) :: events) out

/-- The lines lie in a row along the path. -/
structure InOrder (lines : List (AvoidLine K O)) : Prop where
  forward : ∀ line ∈ lines, line.startLongitudinal < line.endLongitudinal
  apart : lines.Pairwise fun line other => line.endLongitudinal ≤ other.startLongitudinal

def AbsorbedBy (lines out : List (AvoidLine K O)) : Prop :=
  ∀ line ∈ lines, ∃ other ∈ out, line.parentIds ⊆ other.parentIds ∧
    other.startLongitudinal ≤ line.startLongitudinal ∧
    line.endLongitudinal ≤ other.endLongitudinal

/-- Nothing is skipped, and lines are merged into one that has their parents already. -/
def TrimEvent.KeepsParents : TrimEvent K O → Prop
  | .skipped _ => False
  | .merged slNow members => ∀ line ∈ members, line.parentIds ⊆ slNow.parentIds

omit [Field K] [LinearOrder K]

theorem SameParents.refl (sl : AvoidLine K O) : SameParents sl sl := fun _ => Iff.rfl

theorem SameParents.trans {sl other third : AvoidLine K O} (hsame : SameParents sl other)
    (hother : SameParents other third) : SameParents sl third := fun id =>
  (hsame id).trans (hother id)

variable {lines out : List (AvoidLine K O)} {events : List (TrimEvent K O)}

/-- A line starts where a line before the pass does, and has its parents. -/
theorem Trims.exists_head (htrims : Trims lines events out) : ∀ other ∈ out, ∃ line ∈ lines,
      other.startLongitudinal = line.startLongitudinal ∧ SameParents other line := by
  induction htrims with
  | nil => exact fun other hmem => absurd hmem List.not_mem_nil
  | keep hstart hend hparents hrest ih =>
    intro other hmem
    rcases List.mem_cons.mp hmem with rfl | hmem
    · exact ⟨_, List.mem_cons_self .., hstart, hparents⟩
    · obtain ⟨line, hline, hsame⟩ := ih other hmem
      exact ⟨line, List.mem_cons_of_mem _ hline, hsame⟩
  | skip hrest ih =>
    intro other hmem
    obtain ⟨line, hline, hsame⟩ := ih other hmem
    exact ⟨line, List.mem_cons_of_mem _ hline, hsame⟩
  | merge hstart hend hparents hnow hrest ih =>
    intro other hmem
    obtain ⟨line, hline, hfrom, hsame⟩ := ih other hmem
    rcases List.mem_cons.mp hline with rfl | hline
    · exact ⟨_, List.mem_cons_self .., hfrom.trans hstart, hsame.trans hparents⟩
    · exact ⟨line, by simp [hline], hfrom, hsame⟩

/-- Whatever happens makes the lines fewer. -/
theorem Trims.length_le
    (htrims : Trims lines events out) : out.length + events.length ≤ lines.length := by
  induction htrims with
  | nil => exact le_rfl
  | keep hstart hend hparents hrest ih =>
    simp only [List.length_cons]
    omega
  | skip hrest ih =>
    simp only [List.length_cons]
    omega
  | merge hstart hend hparents hnow hrest ih =>
    simp only [List.length_cons, List.length_append] at ih ⊢
    omega

variable [LinearOrder K]

theorem InOrder.tail {sl : AvoidLine K O} {rest : List (AvoidLine K O)}
    (hlines : InOrder (sl :: rest)) : InOrder rest where
  forward := fun line hmem => hlines.forward line (List.mem_cons_of_mem _ hmem)
  apart := (List.pairwise_cons.mp hlines.apart).2

theorem InOrder.head_le {sl : AvoidLine K O} {rest : List (AvoidLine K O)}
    (hlines : InOrder (sl :: rest)) : ∀ line ∈ rest, sl.endLongitudinal ≤ line.startLongitudinal :=
  (List.pairwise_cons.mp hlines.apart).1

theorem InOrder.merged {sl combined last : AvoidLine K O} {members rest : List (AvoidLine K O)}
    (hlines : InOrder (sl :: (members ++ last :: rest)))
    (hstart : combined.startLongitudinal = sl.startLongitudinal)
    (hend : combined.endLongitudinal = last.endLongitudinal) : InOrder (combined :: rest) := by
  have hlast : sl.endLongitudinal ≤ last.startLongitudinal := hlines.head_le last (by simp)
  have hforward := hlines.forward sl (List.mem_cons_self ..)
  have hforwardLast := hlines.forward last (by simp)
  have htail : InOrder (last :: rest) :=
    ⟨fun line hmem => hlines.tail.forward line (List.mem_append_right _ hmem),
      (List.pairwise_append.mp hlines.tail.apart).2.1⟩
  refine ⟨fun line hmem => ?_, List.pairwise_cons.mpr ⟨fun line hmem => ?_, htail.tail.apart⟩⟩
  · rcases List.mem_cons.mp hmem with rfl | hmem
    · rw [hstart, hend]
      exact hforward.trans_le (hlast.trans hforwardLast.le)
    · exact htail.tail.forward line hmem
  · rw [hend]
    exact htail.head_le line hmem

theorem Trims.inOrder (htrims : Trims lines events out) (hlines : InOrder lines) : InOrder out := by
  induction htrims with
  | nil => exact hlines
  | keep hstart hend hparents hrest ih =>
    have hout := ih hlines.tail
    refine ⟨fun line hmem => ?_, List.pairwise_cons.mpr ⟨fun other hmem => ?_, hout.apart⟩⟩
    · rcases List.mem_cons.mp hmem with rfl | hmem
      · rw [hstart, hend]
        exact hlines.forward _ (List.mem_cons_self ..)
      · exact hout.forward line hmem
    · obtain ⟨line, hline, hfrom, _⟩ := hrest.exists_head other hmem
      rw [hend, hfrom]
      exact hlines.head_le line hline
  | skip hrest ih => exact ih hlines.tail
  | merge hstart hend hparents hnow hrest ih => exact ih (hlines.merged hstart hend)

/-- If every merged line has the parents of its parts, no line is lost. -/
theorem Trims.absorbedBy (htrims : Trims lines events out) (hlines : InOrder lines)
    (hkeeps : ∀ event ∈ events, event.KeepsParents) : AbsorbedBy lines out := by
  induction htrims with
  | nil => exact fun line hmem => absurd hmem List.not_mem_nil
  | keep hstart hend hparents hrest ih =>
    intro line hmem
    rcases List.mem_cons.mp hmem with rfl | hmem
    · exact ⟨_, List.mem_cons_self .., fun id hid => (hparents id).mpr hid, hstart.le, hend.ge⟩
    · obtain ⟨other, hother, habsorbed⟩ := ih hlines.tail hkeeps line hmem
      exact ⟨other, List.mem_cons_of_mem _ hother, habsorbed⟩
  | skip hrest ih => exact (hkeeps _ (List.mem_cons_self ..)).elim
  | @merge sl slNow combined last members rest out events hstart hend hparents hnow hrest ih =>
    have hmerged := ih (hlines.merged hstart hend)
      fun event hmem => hkeeps event (List.mem_cons_of_mem _ hmem)
    obtain ⟨other, hother, hsub, hfrom, hto⟩ := hmerged combined (List.mem_cons_self ..)
    have hkept := hkeeps _ (List.mem_cons_self ..)
    have hlast : sl.endLongitudinal ≤ last.startLongitudinal := hlines.head_le last (by simp)
    have hforward := hlines.forward sl (List.mem_cons_self ..)
    have hforwardLast := hlines.forward last (by simp)
    -- What is merged lies between the start of the first part and the end of the last.
    have hpart : ∀ line : AvoidLine K O, (∀ id ∈ line.parentIds, id ∈ sl.parentIds) →
        sl.startLongitudinal ≤ line.startLongitudinal →
        line.endLongitudinal ≤ last.endLongitudinal → line.parentIds ⊆ other.parentIds ∧
          other.startLongitudinal ≤ line.startLongitudinal ∧
          line.endLongitudinal ≤ other.endLongitudinal := by
      intro line hids hlower hupper
      rw [hstart] at hfrom
      rw [hend] at hto
      exact ⟨fun id hid => hsub ((hparents id).mpr (hids id hid)), hfrom.trans hlower,
        hupper.trans hto⟩
    intro line hmem
    rcases List.mem_cons.mp hmem with rfl | hmem
    · exact ⟨other, hother, hpart line (fun id hid => hid) le_rfl (hlast.trans hforwardLast.le)⟩
    · have hids : line ∈ members ++ [last] → ∀ id ∈ line.parentIds, id ∈ sl.parentIds :=
        fun hpart id hid => (hnow id).mp (hkept line hpart hid)
      have hlower := hforward.le.trans (hlines.head_le line hmem)
      rcases List.mem_append.mp hmem with hmember | hmem
      · have hcross := (List.pairwise_append.mp hlines.tail.apart).2.2 line hmember last
          (List.mem_cons_self ..)
        exact ⟨other, hother, hpart line (hids (List.mem_append_left _ hmember)) hlower
          (hcross.trans hforwardLast.le)⟩
      · rcases List.mem_cons.mp hmem with rfl | hmem
        · exact ⟨other, hother, hpart line (hids (by simp)) hlower le_rfl⟩
        · exact hmerged line (List.mem_cons_of_mem _ hmem)

omit [LinearOrder K] in
/-- A pass that changes nothing can be added to another one. -/
theorem Trims.trans_nil {lines middle out : List (AvoidLine K O)}
    (htrims : Trims lines events middle) (hnothing : Trims middle [] out) :
    Trims lines events out := by
  induction htrims generalizing out with
  | nil => exact hnothing
  | keep hstart hend hparents hrest ih =>
    cases hnothing with
    | keep hstart' hend' hparents' hnothing =>
      exact .keep (hstart'.trans hstart) (hend'.trans hend) (hparents'.trans hparents) (ih hnothing)
  | skip hrest ih => exact .skip (ih hnothing)
  | merge hstart hend hparents hnow hrest ih =>
    exact .merge hstart hend hparents hnow (ih hnothing)

theorem AbsorbedBy.trans {lines middle out : List (AvoidLine K O)}
    (hlines : AbsorbedBy lines middle) (hmiddle : AbsorbedBy middle out) :
    AbsorbedBy lines out := by
  intro line hmem
  obtain ⟨other, hother, hsub, hstart, hend⟩ := hlines line hmem
  obtain ⟨third, hthird, hsub', hstart', hend'⟩ := hmiddle other hother
  exact ⟨third, hthird, List.Subset.trans hsub hsub', hstart'.trans hstart, hend.trans hend'⟩

end

/-! ## The passes -/

variable {K O : Type} [Field K] [LinearOrder K] {env : TrimEnvironment K O}

def SortsByEnd (env : TrimEnvironment K O) : Prop :=
  ∀ lines, (env.sort lines).Perm lines ∧
    (env.sort lines).Pairwise fun line other => line.endLongitudinal ≤ other.endLongitudinal

def similarEvents (changeShiftDistThreshold : K) (alPrev : AvoidLine K O)
    (beingMergedPoints : List (AvoidLine K O)) : List (AvoidLine K O) → List (TrimEvent K O)
  | [] => []
  | alNow :: rest =>
    let beingMergedPoints := beingMergedPoints ++ [alPrev]
    let combined := combinedAl alPrev alNow
    if hasLargeLengthChange changeShiftDistThreshold combined beingMergedPoints then
      similarEvents changeShiftDistThreshold alNow [] rest
    else
      .merged alPrev [alNow] ::
        similarEvents changeShiftDistThreshold combined (beingMergedPoints ++ [alPrev]) rest

section
omit [Field K] [LinearOrder K]

theorem mem_concatParentIds {ids1 ids2 : List ℕ} {id : ℕ} :
    id ∈ concatParentIds ids1 ids2 ↔ id ∈ ids1 ∨ id ∈ ids2 := by
  unfold concatParentIds
  rw [List.mem_insertionSort, List.mem_dedup, List.mem_append]

/-- Both operands are the ids of the first part. -/
theorem sameParents_of_concat {sl combined : AvoidLine K O}
    (hids : combined.parentIds = concatParentIds sl.parentIds sl.parentIds) :
    SameParents combined sl := fun id => by
  rw [hids, mem_concatParentIds, or_self]

end

theorem trims_trimSimilarFrom (threshold : K) (alPrev : AvoidLine K O)
    (beingMergedPoints rest : List (AvoidLine K O)) :
    Trims (alPrev :: rest) (similarEvents threshold alPrev beingMergedPoints rest)
      (trimSimilarFrom threshold alPrev beingMergedPoints rest) := by
  induction rest generalizing alPrev beingMergedPoints with
  | nil => exact .keep rfl rfl (.refl _) .nil
  | cons alNow rest ih =>
    unfold trimSimilarFrom similarEvents
    dsimp only
    split_ifs
    · exact .keep rfl rfl (.refl _) (ih _ _)
    · exact @Trims.merge _ _ alPrev alPrev (combinedAl alPrev alNow) alNow [] _ _ _ rfl rfl
        (sameParents_of_concat rfl) (.refl _) (ih _ _)

omit [Field K] [LinearOrder K] in
theorem trims_withStartLengths (startShiftLength : K) (lines : List (AvoidLine K O)) :
    Trims lines [] (withStartLengths startShiftLength lines) := by
  induction lines generalizing startShiftLength with
  | nil => exact .nil
  | cons sl lines ih => exact .keep rfl rfl (.refl _) (ih _)

variable {lines out : List (AvoidLine K O)} {events : List (TrimEvent K O)}

theorem trims_of_sharpRun {startShiftLength : K}
    (hrun : SharpRun env startShiftLength lines events out) :
    Trims lines events out := by
  induction hrun with
  | done => exact .nil
  | skip hopposite hrest ih => exact .skip ih
  | keep hopposite halone hrest ih => exact .keep rfl rfl (.refl _) ih
  | @merge startShiftLength sl last members rest out events hopposite halone hsearch hchecked
      hrest ih =>
      exact @Trims.merge _ _ sl _ (combineShiftLine last (startingFrom startShiftLength sl)) last
        members _ _ _ rfl rfl (sameParents_of_concat rfl) (.refl _) (.keep rfl rfl (.refl _) ih)

section
omit [Field K]

/-- Lines in a row are sorted already. -/
theorem eq_of_inOrder {lines sorted : List (AvoidLine K O)} (hlines : InOrder lines)
    (hperm : sorted.Perm lines)
    (hsorted : sorted.Pairwise fun line other => line.endLongitudinal ≤ other.endLongitudinal) :
    sorted = lines := by
  have hstrict : lines.Pairwise fun line other => line.endLongitudinal < other.endLongitudinal :=
    hlines.apart.imp_of_mem fun _ hother hle => hle.trans_lt (hlines.forward _ hother)
  have hnodup : (lines.map AvoidLine.endLongitudinal).Nodup :=
    List.pairwise_map.mpr (hstrict.imp fun hlt => hlt.ne)
  refine List.Perm.eq_of_pairwise ?_ hsorted (hstrict.imp fun hlt => hlt.le) hperm
  exact fun line other hline hother hle hge =>
    List.inj_on_of_nodup_map hnodup (hperm.mem_iff.mp hline) hother (le_antisymm hle hge)

theorem alignShiftLinesOrder_of_inOrder (hsort : SortsByEnd env) {lines : List (AvoidLine K O)}
    (hlines : InOrder lines) : alignShiftLinesOrder env lines =
      withStartLengths env.currentLinearShift lines := by
  unfold alignShiftLinesOrder
  rw [eq_of_inOrder hlines (hsort lines).1 (hsort lines).2]

end

omit [Field K] [LinearOrder K] in
theorem withStartLengths_idem (startShiftLength : K) (lines : List (AvoidLine K O)) :
    withStartLengths startShiftLength (withStartLengths startShiftLength lines) =
      withStartLengths startShiftLength lines := by
  induction lines generalizing startShiftLength with
  | nil => rfl
  | cons sl lines ih => rw [withStartLengths, withStartLengths, ih]

def similarEventsOf (changeShiftDistThreshold : K) : List (AvoidLine K O) → List (TrimEvent K O)
  | [] => []
  | first :: rest => similarEvents changeShiftDistThreshold first [] rest

omit [Field K] [LinearOrder K] in
theorem Trims.ne_nil (htrims : Trims lines events out) (hne : lines ≠ [])
    (hskipped : ∀ sl, TrimEvent.skipped sl ∉ events) : out ≠ [] := by
  induction htrims with
  | nil => exact hne
  | keep => exact List.cons_ne_nil _ _
  | skip => exact (hskipped _ (List.mem_cons_self ..)).elim
  | merge hstart hend hparents hnow hrest ih =>
    exact ih (List.cons_ne_nil _ _) fun sl hmem => hskipped sl (List.mem_cons_of_mem _ hmem)

theorem trimSimilarGradShiftLine_trims (hsort : SortsByEnd env) (threshold : K)
    {lines : List (AvoidLine K O)} (hlines : InOrder lines) (hne : lines ≠ []) :
    ∃ out, trimSimilarGradShiftLine env threshold lines = .ok out ∧
      Trims lines (similarEventsOf threshold lines) out := by
  cases lines with
  | nil => exact absurd rfl hne
  | cons first rest =>
    have htrims := trims_trimSimilarFrom threshold first [] rest
    refine ⟨_, rfl, ?_⟩
    rw [alignShiftLinesOrder_of_inOrder hsort (htrims.inOrder hlines)]
    exact htrims.trans_nil (trims_withStartLengths _ _)

omit [Field K] [LinearOrder K] in
theorem trims_map {change : AvoidLine K O → AvoidLine K O}
    (hstart : ∀ sl, (change sl).startLongitudinal = sl.startLongitudinal)
    (hend : ∀ sl, (change sl).endLongitudinal = sl.endLongitudinal)
    (hparents : ∀ sl, SameParents (change sl) sl) (lines : List (AvoidLine K O)) :
    Trims lines [] (lines.map change) := by
  induction lines with
  | nil => exact .nil
  | cons sl lines ih => exact .keep (hstart sl) (hend sl) (hparents sl) ih

theorem quantizeShiftLine_trims (hsort : SortsByEnd env) (interval : K)
    {lines : List (AvoidLine K O)} (hlines : InOrder lines) :
    Trims lines [] (quantizeShiftLine env interval lines) := by
  unfold quantizeShiftLine
  split_ifs
  · have hkept := trims_map (fun _ => rfl) (fun _ => rfl) SameParents.refl lines
    rw [List.map_id'] at hkept
    exact hkept
  · have hround := @trims_map _ _ (quantizedLine env interval) (fun _ => rfl) (fun _ => rfl)
      (fun _ _ => Iff.rfl) lines
    rw [alignShiftLinesOrder_of_inOrder hsort (hround.inOrder hlines)]
    exact hround.trans_nil (trims_withStartLengths _ _)

theorem skipped_not_mem_similarEvents (threshold : K) (alPrev : AvoidLine K O)
    (beingMergedPoints rest : List (AvoidLine K O)) (sl : AvoidLine K O) :
    .skipped sl ∉ similarEvents threshold alPrev beingMergedPoints rest := by
  induction rest generalizing alPrev beingMergedPoints with
  | nil => exact List.not_mem_nil
  | cons alNow rest ih =>
    unfold similarEvents
    dsimp only
    split_ifs
    · exact ih _ _
    · intro hmem
      rcases List.mem_cons.mp hmem with hmerged | hmem
      · cases hmerged
      · exact ih _ _ hmem

theorem skipped_not_mem_similarEventsOf (threshold : K) (lines : List (AvoidLine K O))
    (sl : AvoidLine K O) : .skipped sl ∉ similarEventsOf threshold lines := by
  cases lines with
  | nil => exact List.not_mem_nil
  | cons first rest => exact skipped_not_mem_similarEvents _ _ _ _ _

structure Carried (lines : List (AvoidLine K O)) (events : List (TrimEvent K O))
    (out : List (AvoidLine K O)) : Prop where
  length : out.length + events.length ≤ lines.length
  heads : ∀ other ∈ out, ∃ line ∈ lines, SameParents other line
  absorbed : (∀ event ∈ events, event.KeepsParents) → AbsorbedBy lines out

omit [Field K]

theorem Trims.carried
    (htrims : Trims lines events out) (hlines : InOrder lines) : Carried lines events out where
  length := htrims.length_le
  heads := fun other hmem => by
    obtain ⟨line, hline, _, hsame⟩ := htrims.exists_head other hmem
    exact ⟨line, hline, hsame⟩
  absorbed := htrims.absorbedBy hlines

theorem Carried.of_perm (hperm : out.Perm lines) :
    Carried lines [] out where
  length := hperm.length_eq.le
  heads := fun other hmem => ⟨other, hperm.mem_iff.mp hmem, .refl other⟩
  absorbed := fun _ line hmem =>
    ⟨line, hperm.mem_iff.mpr hmem, List.Subset.refl _, le_rfl, le_rfl⟩

theorem Carried.trans {lines middle out : List (AvoidLine K O)}
    {events later : List (TrimEvent K O)} (hfirst : Carried lines events middle)
    (hsecond : Carried middle later out) : Carried lines (events ++ later) out where
  length := by
    have hlength := hfirst.length
    have hlater := hsecond.length
    rw [List.length_append]
    omega
  heads := fun other hmem => by
    obtain ⟨line, hline, hsame⟩ := hsecond.heads other hmem
    obtain ⟨first, hfirstMem, hsame'⟩ := hfirst.heads line hline
    exact ⟨first, hfirstMem, hsame.trans hsame'⟩
  absorbed := fun hkeeps =>
    (hfirst.absorbed fun event hmem => hkeeps event (List.mem_append_left _ hmem)).trans
      (hsecond.absorbed fun event hmem => hkeeps event (List.mem_append_right _ hmem))

end

/-!
## Parents of trimmed lines

The passes one after the other.  Lines that have parents of their own lose none only if nothing
is merged and nothing is skipped.
-/

/-! ## All passes -/

section

variable {K O : Type} [Field K] [LinearOrder K] {env : TrimEnvironment K O}
  {lines : List (AvoidLine K O)} {events : List (TrimEvent K O)}

structure NoConflict (lines : List (AvoidLine K O)) : Prop where
  forward : ∀ line ∈ lines, line.startLongitudinal < line.endLongitudinal
  apart : lines.Pairwise fun line other =>
    line.endLongitudinal ≤ other.startLongitudinal ∨ other.endLongitudinal ≤ line.startLongitudinal

/-- What happens to the lines in the passes of `trimShiftLine`. -/
def TrimRun (env : TrimEnvironment K O) (lines : List (AvoidLine K O))
    (events : List (TrimEvent K O)) : Prop :=
  ∃ similar similarAgain sharpEvents sharp,
    trimSimilarGradShiftLine env (1 / 10) (alignShiftLinesOrder env lines) = .ok similar ∧
    trimSimilarGradShiftLine env (1 / 5) (quantizeShiftLine env (1 / 5) similar) =
      .ok similarAgain ∧
    trimSharpFrom env env.currentLinearShift similarAgain = .ok sharp ∧
    SharpRun env env.currentLinearShift similarAgain sharpEvents sharp ∧
    events = similarEventsOf (1 / 10) (alignShiftLinesOrder env lines) ++
      (similarEventsOf (1 / 5) (quantizeShiftLine env (1 / 5) similar) ++
        (sharpEvents ++ similarEventsOf (1 / 5) (alignShiftLinesOrder env sharp)))

def LosesNoParent (env : TrimEnvironment K O) (lines : List (AvoidLine K O)) : Prop :=
  ∃ out, trimShiftLine env lines = .ok out ∧
    ∀ line ∈ lines, ∀ id ∈ line.parentIds, ∃ other ∈ out, id ∈ other.parentIds ∧
      other.startLongitudinal ≤ line.endLongitudinal ∧
      line.endLongitudinal ≤ other.endLongitudinal

section
omit [Field K]

theorem NoConflict.sorted (hlines : NoConflict lines) {sorted : List (AvoidLine K O)}
    (hperm : sorted.Perm lines)
    (hsorted : sorted.Pairwise fun line other => line.endLongitudinal ≤ other.endLongitudinal) :
    InOrder sorted := by
  have hforward : ∀ line ∈ sorted, line.startLongitudinal < line.endLongitudinal :=
    fun line hmem => hlines.forward line (hperm.mem_iff.mp hmem)
  have happart := (hperm.pairwise_iff Or.symm).mpr hlines.apart
  refine ⟨hforward, (hsorted.and happart).imp_of_mem ?_⟩
  rintro line other hline hother ⟨hle, hbefore | hbehind⟩
  · exact hbefore
  · exact absurd (hle.trans hbehind) (not_le.mpr (hforward line hline))

theorem NoConflict.aligned (hlines : NoConflict lines) (hsort : SortsByEnd env) :
    InOrder (alignShiftLinesOrder env lines) :=
  (trims_withStartLengths _ _).inOrder (hlines.sorted (hsort lines).1 (hsort lines).2)

theorem alignShiftLinesOrder_ne_nil (hsort : SortsByEnd env) (hne : lines ≠ []) :
    alignShiftLinesOrder env lines ≠ [] := by
  refine (trims_withStartLengths _ _).ne_nil (fun hnil => ?_) fun sl => List.not_mem_nil
  have hperm := (hsort lines).1
  rw [hnil] at hperm
  exact hne (List.nil_perm.mp hperm)

end

structure Passed (env : TrimEnvironment K O) (lines : List (AvoidLine K O))
    (events : List (TrimEvent K O)) (out : List (AvoidLine K O)) : Prop
    extends Carried lines events out where
  trimmed : trimShiftLine env lines = .ok out

theorem TrimRun.passed (hrun : TrimRun env lines events) (hsort : SortsByEnd env)
    (hlines : NoConflict lines) (hne : lines ≠ []) :
    ((∃ sl, .skipped sl ∈ events) ∧ trimShiftLine env lines = .error .outOfRange) ∨
      ∃ out, Passed env lines events out := by
  obtain ⟨similar, similarAgain, sharpEvents, sharp, hsimilar, hagain, hsharp, hsharpRun, rfl⟩ :=
    hrun
  have hunfold : trimShiftLine env lines =
      trimSimilarGradShiftLine env (1 / 5) (alignShiftLinesOrder env sharp) := by
    unfold trimShiftLine trimSharpReturn
    rw [if_neg (by rwa [List.isEmpty_iff])]
    dsimp only
    rw [hsimilar]
    change trimSimilarGradShiftLine env (1 / 5) (quantizeShiftLine env (1 / 5) similar) >>= _ = _
    rw [hagain]
    change (trimSharpFrom env env.currentLinearShift similarAgain >>= _) >>= _ = _
    rw [hsharp]
    rfl
  have hsorted := hlines.sorted (hsort lines).1 (hsort lines).2
  have haligned := hlines.aligned hsort
  have halign := trims_withStartLengths env.currentLinearShift (env.sort lines)
  obtain ⟨other, hother, hfirst⟩ := trimSimilarGradShiftLine_trims hsort (1 / 10) haligned
    (alignShiftLinesOrder_ne_nil hsort hne)
  obtain rfl := Except.ok.inj (hother.symm.trans hsimilar)
  have hquantize := quantizeShiftLine_trims hsort (1 / 5) (hfirst.inOrder haligned)
  have hquantized := hquantize.inOrder (hfirst.inOrder haligned)
  have hfirstNe := hfirst.ne_nil (alignShiftLinesOrder_ne_nil hsort hne)
    (skipped_not_mem_similarEventsOf _ _)
  have hquantizedNe := hquantize.ne_nil hfirstNe fun sl => List.not_mem_nil
  obtain ⟨other, hother, hsecond⟩ := trimSimilarGradShiftLine_trims hsort (1 / 5) hquantized
    hquantizedNe
  obtain rfl := Except.ok.inj (hother.symm.trans hagain)
  have hsecondNe := hsecond.ne_nil hquantizedNe (skipped_not_mem_similarEventsOf _ _)
  have hthird := trims_of_sharpRun hsharpRun
  have hthirdOrder := hthird.inOrder (hsecond.inOrder hquantized)
  by_cases hnil : sharp = []
  · refine .inl ⟨?_, ?_⟩
    · by_contra hnone
      refine hthird.ne_nil hsecondNe (fun sl hmem => hnone ⟨sl, ?_⟩) hnil
      simp only [List.mem_append]
      exact .inr (.inr (.inl hmem))
    · rw [hunfold, hnil, alignShiftLinesOrder_of_inOrder hsort (hnil ▸ hthirdOrder)]
      rfl
  · have hrealign := trims_withStartLengths env.currentLinearShift sharp
    have hrealigned : alignShiftLinesOrder env sharp =
        withStartLengths env.currentLinearShift sharp :=
      alignShiftLinesOrder_of_inOrder hsort hthirdOrder
    rw [hrealigned] at hunfold ⊢
    obtain ⟨out, hout, hlast⟩ := trimSimilarGradShiftLine_trims hsort (1 / 5)
      (hrealign.inOrder hthirdOrder) (hrealign.ne_nil hnil fun sl => List.not_mem_nil)
    have hbegin := (Carried.of_perm (hsort lines).1).trans (halign.carried hsorted)
    have hcarried := hbegin.trans ((hfirst.carried haligned).trans
      ((hquantize.carried (hfirst.inOrder haligned)).trans
        ((hsecond.carried hquantized).trans ((hthird.carried (hsecond.inOrder hquantized)).trans
          ((hrealign.carried hthirdOrder).trans (hlast.carried (hrealign.inOrder hthirdOrder)))))))
    exact .inr ⟨out, ⟨hcarried, hunfold.trans hout⟩⟩

theorem exists_trimRun (hsort : SortsByEnd env) (hlines : NoConflict lines) (hne : lines ≠ []) :
    ∃ events, TrimRun env lines events := by
  have haligned := hlines.aligned hsort
  obtain ⟨similar, hsimilar, hfirst⟩ := trimSimilarGradShiftLine_trims hsort (1 / 10) haligned
    (alignShiftLinesOrder_ne_nil hsort hne)
  have hfirstNe := hfirst.ne_nil (alignShiftLinesOrder_ne_nil hsort hne)
    (skipped_not_mem_similarEventsOf _ _)
  have hquantize := quantizeShiftLine_trims hsort (1 / 5) (hfirst.inOrder haligned)
  obtain ⟨similarAgain, hagain, hsecond⟩ := trimSimilarGradShiftLine_trims hsort (1 / 5)
    (hquantize.inOrder (hfirst.inOrder haligned))
    (hquantize.ne_nil hfirstNe fun sl => List.not_mem_nil)
  obtain ⟨sharpEvents, sharp, hsharp, hrun⟩ :=
    @trimSharpFrom_run _ _ _ _ env env.currentLinearShift similarAgain
  exact ⟨_, similar, similarAgain, sharpEvents, sharp, hsimilar, hagain, hsharp, hrun, rfl⟩

theorem TrimRun.losesNoParent (hrun : TrimRun env lines events) (hsort : SortsByEnd env)
    (hlines : NoConflict lines) (hne : lines ≠ [])
    (hkeeps : ∀ event ∈ events, event.KeepsParents) : LosesNoParent env lines := by
  rcases hrun.passed hsort hlines hne with ⟨⟨sl, hmem⟩, _⟩ | ⟨out, hpassed⟩
  · exact (hkeeps _ hmem).elim
  · refine ⟨out, hpassed.trimmed, fun line hmem id hid => ?_⟩
    obtain ⟨other, hother, hsub, hstart, hend⟩ := hpassed.absorbed hkeeps line hmem
    exact ⟨other, hother, hsub hid, hstart.trans (hlines.forward line hmem).le, hend⟩

/-! ### Runs in which nothing happens -/

/-- No line has a gradient so similar to the one before it that they are combined. -/
def SimilarApart (changeShiftDistThreshold : K) (lines : List (AvoidLine K O)) : Prop :=
  lines.IsChain fun alPrev alNow =>
    hasLargeLengthChange changeShiftDistThreshold (combinedAl alPrev alNow) [alPrev]

/-- No line shifts to the other side, and none returns so sharply that it is combined with the
next one. -/
def SharpApart : List (AvoidLine K O) → Prop
  | [] => True
  | sl :: rest => ¬ isOpposite sl ∧ StaysAlone sl rest ∧ SharpApart rest

/-- In order and with quantized shifts the lines are left alone by all passes. -/
def NothingMerged (env : TrimEnvironment K O) (lines : List (AvoidLine K O)) : Prop :=
  let aligned := alignShiftLinesOrder env lines
  let quantized := quantizeShiftLine env (1 / 5) aligned
  SimilarApart (1 / 10) aligned ∧ SimilarApart (1 / 5) quantized ∧ SharpApart quantized

theorem similarEvents_eq_nil_iff (threshold : K) (alPrev : AvoidLine K O)
    (rest : List (AvoidLine K O)) :
    similarEvents threshold alPrev [] rest = [] ↔ SimilarApart threshold (alPrev :: rest) := by
  unfold SimilarApart
  induction rest generalizing alPrev with
  | nil => exact iff_of_true rfl (List.isChain_singleton _)
  | cons alNow rest ih =>
    unfold similarEvents
    dsimp only
    rw [List.nil_append, List.isChain_cons_cons]
    by_cases hlarge : hasLargeLengthChange threshold (combinedAl alPrev alNow) [alPrev]
    · rw [if_pos hlarge, ih]
      exact (and_iff_right hlarge).symm
    · rw [if_neg hlarge]
      exact iff_of_false (List.cons_ne_nil _ _) fun hchain => hlarge hchain.1

theorem trimSimilarFrom_of_apart {threshold : K} {alPrev : AvoidLine K O}
    {rest : List (AvoidLine K O)} (hapart : SimilarApart threshold (alPrev :: rest)) :
    trimSimilarFrom threshold alPrev [] rest = alPrev :: rest := by
  induction rest generalizing alPrev with
  | nil => rfl
  | cons alNow rest ih =>
    obtain ⟨hlarge, hchain⟩ := List.isChain_cons_cons.mp hapart
    unfold trimSimilarFrom
    dsimp only
    rw [List.nil_append, if_pos hlarge, ih hchain]

theorem similarEventsOf_eq_nil_iff (threshold : K) (lines : List (AvoidLine K O)) :
    similarEventsOf threshold lines = [] ↔ SimilarApart threshold lines := by
  cases lines with
  | nil => exact iff_of_true rfl List.isChain_nil
  | cons first rest => exact similarEvents_eq_nil_iff threshold first rest

theorem trimSimilarGradShiftLine_of_apart (hsort : SortsByEnd env) {threshold : K}
    (hlines : InOrder lines) (hne : lines ≠ [])
    (hstarts : withStartLengths env.currentLinearShift lines = lines)
    (hapart : SimilarApart threshold lines) :
    trimSimilarGradShiftLine env threshold lines = .ok lines := by
  cases lines with
  | nil => exact absurd rfl hne
  | cons first rest =>
    change (.ok (alignShiftLinesOrder env (trimSimilarFrom threshold first [] rest)) :
      Except Failure _) = _
    rw [trimSimilarFrom_of_apart hapart, alignShiftLinesOrder_of_inOrder hsort hlines, hstarts]

omit [Field K] [LinearOrder K] in
theorem startingFrom_of_withStartLengths {startShiftLength : K} {sl : AvoidLine K O}
    {rest : List (AvoidLine K O)}
    (hstarts : withStartLengths startShiftLength (sl :: rest) = sl :: rest) :
    startingFrom startShiftLength sl = sl ∧ withStartLengths sl.endShiftLength rest = rest :=
  List.cons.inj hstarts

theorem SharpRun.nothing_iff {startShiftLength : K} {out : List (AvoidLine K O)}
    (hrun : SharpRun env startShiftLength lines events out)
    (hstarts : withStartLengths startShiftLength lines = lines) :
    (events = [] ↔ SharpApart lines) ∧ (SharpApart lines → out = lines) := by
  induction hrun with
  | done => exact ⟨iff_of_true rfl trivial, fun _ => rfl⟩
  | skip hopposite hrest ih =>
    obtain ⟨hstart, _⟩ := startingFrom_of_withStartLengths hstarts
    rw [hstart] at hopposite
    exact ⟨iff_of_false (List.cons_ne_nil _ _) fun hapart => hapart.1 hopposite,
      fun hapart => absurd hopposite hapart.1⟩
  | keep hopposite halone hrest ih =>
    obtain ⟨hstart, hrestStarts⟩ := startingFrom_of_withStartLengths hstarts
    obtain ⟨hiff, hout⟩ := ih hrestStarts
    rw [hstart] at hopposite halone ⊢
    refine ⟨hiff.trans ⟨fun hapart => ⟨hopposite, halone, hapart⟩, fun hapart => hapart.2.2⟩,
      fun hapart => ?_⟩
    rw [hout hapart.2.2]
  | merge hopposite halone hsearch hchecked hrest ih =>
    obtain ⟨hstart, _⟩ := startingFrom_of_withStartLengths hstarts
    rw [hstart] at halone
    exact ⟨iff_of_false (List.cons_ne_nil _ _) fun hapart => halone hapart.2.1,
      fun hapart => absurd hapart.2.1 halone⟩

theorem withStartLengths_quantizeShiftLine (interval : K)
    (hstarts : withStartLengths env.currentLinearShift lines = lines) :
    withStartLengths env.currentLinearShift (quantizeShiftLine env interval lines) =
      quantizeShiftLine env interval lines := by
  unfold quantizeShiftLine
  split_ifs
  · exact hstarts
  · exact withStartLengths_idem _ _

theorem TrimRun.nothing_iff (hrun : TrimRun env lines events) (hsort : SortsByEnd env)
    (hlines : NoConflict lines) (hne : lines ≠ []) : events = [] ↔ NothingMerged env lines := by
  obtain ⟨similar, similarAgain, sharpEvents, sharp, hsimilar, hagain, _, hsharpRun, rfl⟩ := hrun
  have haligned := hlines.aligned hsort
  have halignedNe := alignShiftLinesOrder_ne_nil hsort hne
  have halignedStarts : withStartLengths env.currentLinearShift (alignShiftLinesOrder env lines) =
      alignShiftLinesOrder env lines := withStartLengths_idem _ _
  have hquantize := quantizeShiftLine_trims hsort (1 / 5) haligned
  have hquantized := hquantize.inOrder haligned
  have hquantizedNe := hquantize.ne_nil halignedNe fun sl => List.not_mem_nil
  have hquantizedStarts := withStartLengths_quantizeShiftLine (1 / 5) halignedStarts
  have hfirst : SimilarApart (1 / 10) (alignShiftLinesOrder env lines) →
      similar = alignShiftLinesOrder env lines := fun hapart =>
    Except.ok.inj (hsimilar.symm.trans
      (trimSimilarGradShiftLine_of_apart hsort haligned halignedNe halignedStarts hapart))
  rw [List.append_eq_nil_iff, List.append_eq_nil_iff, List.append_eq_nil_iff,
    similarEventsOf_eq_nil_iff, similarEventsOf_eq_nil_iff, similarEventsOf_eq_nil_iff]
  refine ⟨fun ⟨hsimilarApart, hquantizedApart, hnothing, _⟩ => ?_,
    fun ⟨hsimilarApart, hquantizedApart, hsharpApart⟩ => ?_⟩
  · obtain rfl := hfirst hsimilarApart
    obtain rfl := Except.ok.inj (hagain.symm.trans (trimSimilarGradShiftLine_of_apart hsort
      hquantized hquantizedNe hquantizedStarts hquantizedApart))
    exact ⟨hsimilarApart, hquantizedApart, (hsharpRun.nothing_iff hquantizedStarts).1.mp hnothing⟩
  · obtain rfl := hfirst hsimilarApart
    obtain rfl := Except.ok.inj (hagain.symm.trans (trimSimilarGradShiftLine_of_apart hsort
      hquantized hquantizedNe hquantizedStarts hquantizedApart))
    obtain ⟨hnothing, hkept⟩ := hsharpRun.nothing_iff hquantizedStarts
    obtain rfl := hkept hsharpApart
    refine ⟨hsimilarApart, hquantizedApart, hnothing.mpr hsharpApart, ?_⟩
    rw [alignShiftLinesOrder_of_inOrder hsort hquantized, hquantizedStarts]
    exact hquantizedApart

/-! ### Other parents -/

def withParents (ids : K → List ℕ) (line : AvoidLine K O) : AvoidLine K O :=
  { line with parentIds := ids line.endLongitudinal }

section
omit [Field K]

theorem NoConflict.withParents (hlines : NoConflict lines) (ids : K → List ℕ) :
    NoConflict (lines.map (withParents ids)) where
  forward := fun line hmem => by
    obtain ⟨other, hother, rfl⟩ := List.mem_map.mp hmem
    exact hlines.forward other hother
  apart := List.pairwise_map.mpr hlines.apart

theorem InOrder.withParents (hlines : InOrder lines) (ids : K → List ℕ) :
    InOrder (lines.map (withParents ids)) where
  forward := fun line hmem => by
    obtain ⟨other, hother, rfl⟩ := List.mem_map.mp hmem
    exact hlines.forward other hother
  apart := List.pairwise_map.mpr hlines.apart

end

omit [Field K] [LinearOrder K] in
theorem withStartLengths_withParents (ids : K → List ℕ) (startShiftLength : K)
    (lines : List (AvoidLine K O)) :
    withStartLengths startShiftLength (lines.map (withParents ids)) =
      (withStartLengths startShiftLength lines).map (withParents ids) := by
  induction lines generalizing startShiftLength with
  | nil => rfl
  | cons sl lines ih => exact congrArg _ (ih _)

section
omit [Field K]

theorem alignShiftLinesOrder_withParents (hsort : SortsByEnd env) (hlines : NoConflict lines)
    (ids : K → List ℕ) : alignShiftLinesOrder env (lines.map (withParents ids)) =
      (alignShiftLinesOrder env lines).map (withParents ids) := by
  obtain ⟨hperm, hsorted⟩ := hsort lines
  obtain ⟨hperm', hsorted'⟩ := hsort (lines.map (withParents ids))
  have hsame := eq_of_inOrder ((hlines.sorted hperm hsorted).withParents ids)
    (hperm'.trans (hperm.map _).symm) hsorted'
  unfold alignShiftLinesOrder
  rw [hsame, withStartLengths_withParents]

theorem InOrder.noConflict (hlines : InOrder lines) : NoConflict lines where
  forward := hlines.forward
  apart := hlines.apart.imp Or.inl

end

theorem quantizeShiftLine_withParents (hsort : SortsByEnd env) (hlines : InOrder lines)
    (interval : K) (ids : K → List ℕ) :
    quantizeShiftLine env interval (lines.map (withParents ids)) =
      (quantizeShiftLine env interval lines).map (withParents ids) := by
  have hround := @trims_map _ _ (quantizedLine env interval) (fun _ => rfl) (fun _ => rfl)
    (fun _ _ => Iff.rfl) lines
  unfold quantizeShiftLine
  split_ifs
  · rfl
  · rw [← alignShiftLinesOrder_withParents hsort (hround.inOrder hlines).noConflict, List.map_map,
      List.map_map]
    rfl

theorem similarApart_withParents (ids : K → List ℕ) (threshold : K) (lines : List (AvoidLine K O)) :
    SimilarApart threshold (lines.map (withParents ids)) ↔ SimilarApart threshold lines := by
  unfold SimilarApart
  rw [List.isChain_map]
  rfl

theorem sharpApart_withParents (ids : K → List ℕ) (lines : List (AvoidLine K O)) :
    SharpApart (lines.map (withParents ids)) ↔ SharpApart lines := by
  induction lines with
  | nil => exact Iff.rfl
  | cons sl rest ih =>
    refine and_congr Iff.rfl (and_congr ?_ ih)
    cases rest with
    | nil => exact Iff.rfl
    | cons slNext rest => exact Iff.rfl

theorem nothingMerged_withParents (hsort : SortsByEnd env) (hlines : NoConflict lines)
    (ids : K → List ℕ) :
    NothingMerged env (lines.map (withParents ids)) ↔ NothingMerged env lines := by
  unfold NothingMerged
  dsimp only
  rw [alignShiftLinesOrder_withParents hsort hlines,
    quantizeShiftLine_withParents hsort (hlines.aligned hsort), similarApart_withParents,
    similarApart_withParents, sharpApart_withParents]

theorem TrimRun.nothing_of_own_parents (hrun : TrimRun env lines events) (hsort : SortsByEnd env)
    (hlines : NoConflict lines) (hne : lines ≠ [])
    (hown : ∀ (i : ℕ) (line : AvoidLine K O), lines[i]? = some line → line.parentIds = [i])
    (hloses : LosesNoParent env lines) : events = [] := by
  obtain ⟨out, hout, hparents⟩ := hloses
  rcases hrun.passed hsort hlines hne with ⟨_, herror⟩ | ⟨other, hpassed⟩
  · rw [hout] at herror
    cases herror
  · obtain rfl := Except.ok.inj (hout.symm.trans hpassed.trimmed)
    -- Each trimmed line has a single parent, and all lines have different ones.
    have hsub : List.range lines.length ⊆ out.map fun sl => sl.parentIds.headD 0 := by
      intro i hmem
      have hlt := List.mem_range.mp hmem
      have hline := hown i _ (List.getElem?_eq_getElem hlt)
      obtain ⟨other, hother, hid, _⟩ := hparents lines[i] (List.getElem_mem hlt) i
        (hline ▸ List.mem_singleton_self i)
      obtain ⟨head, hhead, hsame⟩ := hpassed.heads other hother
      obtain ⟨j, hj⟩ := List.mem_iff_getElem?.mp hhead
      have hsingle : ∀ id ∈ other.parentIds, id = j := fun id hmem => by
        have hmem := (hsame id).mp hmem
        rw [hown j head hj] at hmem
        exact List.mem_singleton.mp hmem
      refine List.mem_map.mpr ⟨other, hother, ?_⟩
      cases hids : other.parentIds with
      | nil =>
        rw [hids] at hid
        exact absurd hid List.not_mem_nil
      | cons first ids =>
        rw [hsingle i hid]
        exact hsingle first (hids ▸ List.mem_cons_self ..)
    have hle := (List.subperm_of_subset List.nodup_range hsub).length_le
    rw [List.length_range, List.length_map] at hle
    have hlength := hpassed.length
    exact List.eq_nil_of_length_eq_zero (by omega)

end

/-- No root is taken of anything but zero and one. -/
def straightTrimming : TrimEnvironment ℚ (ℚ × ℚ) where
  currentLinearShift := 0
  egoSpeed := 10
  minNominalAvoidanceSpeed := 2
  nominalLateralJerk := 1
  minAvoidanceDistance := 10
  cbrt := id
  round := fun x => if 0 ≤ x then ((x + 1 / 2).floor : ℚ) else -((-x + 1 / 2).floor : ℚ)
  sort := List.insertionSort fun line other => line.endLongitudinal ≤ other.endLongitudinal

theorem straightTrimming_sorts : SortsByEnd straightTrimming := by
  intro lines
  refine ⟨List.perm_insertionSort _ _, ?_⟩
  have htotal : Std.Total fun line other : AvoidLine ℚ (ℚ × ℚ) =>
      line.endLongitudinal ≤ other.endLongitudinal := ⟨fun line other => le_total _ _⟩
  have htrans : IsTrans (AvoidLine ℚ (ℚ × ℚ)) fun line other =>
      line.endLongitudinal ≤ other.endLongitudinal := ⟨fun _ _ _ => le_trans⟩
  exact List.pairwise_insertionSort _ _

def lineFrom (startLongitudinal endLongitudinal startShiftLength endShiftLength : ℚ)
    (parentIds : List ℕ) : AvoidLine ℚ (ℚ × ℚ) :=
  ⟨⟨⟨⟨startLongitudinal, 0, 0⟩, (1, 0)⟩, ⟨⟨endLongitudinal, 0, 0⟩, (1, 0)⟩, endShiftLength, 0, 0⟩,
    startShiftLength, startLongitudinal, endLongitudinal, 0, parentIds⟩

section

variable {K O : Type} [Field K] [LinearOrder K]

def profileAt (startShiftLength : K) : List (AvoidLine K O) → K → K
  | [], _ => startShiftLength
  | sl :: shiftLines, arc =>
    if arc ≤ sl.startLongitudinal then startShiftLength
    else if arc ≤ sl.endLongitudinal then lerpShiftLength arc sl
    else profileAt sl.endShiftLength shiftLines arc

def KeepsSide (shift endShiftLength : K) : Prop :=
  (0 < endShiftLength → endShiftLength - 3 / 10 ≤ shift) ∧
    (endShiftLength < 0 → shift ≤ endShiftLength + 3 / 10)

def KeepsAvoidance (shift endShiftLength : K) : Prop :=
  0 < shift * endShiftLength ∧ |endShiftLength| - 3 / 10 ≤ |shift|

def OneSided (shifts : List K) : Prop := ∀ shift ∈ shifts, ∀ other ∈ shifts, 0 ≤ shift * other

/-- The line is skipped for its side, or a shift that changes sides is merged over its end, and
goes further out. -/
def TrimEvent.PassesOver (line : AvoidLine K O) : TrimEvent K O → Prop
  | .skipped sl => sl = line
  | .merged slNow members => ∃ last ∈ members.getLast?,
      isPositive (combineShiftLine last slNow) ∧
        OnArc (combineShiftLine last slNow) line.endLongitudinal ∧
        (slNow.startShiftLength * line.endShiftLength < 0 ∨
          slNow.startShiftLength * last.endShiftLength < 0)

theorem profileAt_of_le {startShiftLength arc : K} {sl : AvoidLine K O}
    (shiftLines : List (AvoidLine K O)) (hlt : sl.startLongitudinal < arc)
    (hle : arc ≤ sl.endLongitudinal) :
    profileAt startShiftLength (sl :: shiftLines) arc = lerpShiftLength arc sl := by
  rw [profileAt, if_neg (not_le.mpr hlt), if_pos hle]

theorem profileAt_of_lt {startShiftLength arc : K} (sl : AvoidLine K O)
    (shiftLines : List (AvoidLine K O)) (hforward : sl.startLongitudinal < sl.endLongitudinal)
    (hlt : sl.endLongitudinal < arc) :
    profileAt startShiftLength (sl :: shiftLines) arc =
      profileAt sl.endShiftLength shiftLines arc := by
  rw [profileAt, if_neg (not_le.mpr (hforward.trans hlt)), if_neg (not_le.mpr hlt)]

variable {startShiftLength : K}

theorem profileAt_end (sl : AvoidLine K O)
    (shiftLines : List (AvoidLine K O)) (hforward : sl.startLongitudinal < sl.endLongitudinal) :
    profileAt startShiftLength (sl :: shiftLines) sl.endLongitudinal = sl.endShiftLength := by
  rw [profileAt_of_le shiftLines hforward le_rfl, lerpShiftLength_endLongitudinal]

variable {events : List (TrimEvent K O)} {env : TrimEnvironment K O}

theorem SharpRun.withStartLengths_eq {lines out : List (AvoidLine K O)}
    (hrun : SharpRun env startShiftLength lines events out) :
    withStartLengths startShiftLength out = out := by
  induction hrun with
  | done => rfl
  | skip hopposite hrest ih => exact ih
  | keep hopposite halone hrest ih => exact congrArg (List.cons _) ih
  | merge hopposite halone hsearch hchecked hrest ih => exact congrArg (List.cons _) ih

/-! ## The end of a line -/

structure LeadsOver (slNow last line : AvoidLine K O) : Prop where
  onArc : OnArc (combineShiftLine last slNow) line.endLongitudinal
  behind : slNow.startLongitudinal ≤ line.startLongitudinal
  returns : isNegative slNow
  notFurther : |line.endShiftLength| ≤ |slNow.startShiftLength| + 1 / 10
  checked : isPositive (combineShiftLine last slNow) ∨
    ¬ hasViolation (combineShiftLine last slNow) [line]

inductive AtEnd (shifts : List K) (events : List (TrimEvent K O)) (line : AvoidLine K O)
    (shift : K) : Prop where
  | reached (hreached : shift = line.endShiftLength)
  | skipped {startShiftLength : K} (hmem : .skipped line ∈ events)
      (hstart : startShiftLength ∈ shifts)
      (hopposite : isOpposite (startingFrom startShiftLength line))
  | ledOver {slNow last : AvoidLine K O} {members : List (AvoidLine K O)}
      (hmem : .merged slNow (members ++ [last]) ∈ events)
      (hstart : slNow.startShiftLength ∈ shifts) (hlast : last.endShiftLength ∈ shifts)
      (hover : LeadsOver slNow last line)
      (hshift : shift = lerpShiftLength line.endLongitudinal (combineShiftLine last slNow))

variable {line : AvoidLine K O}

theorem AtEnd.mono {shifts moreShifts : List K} {events moreEvents : List (TrimEvent K O)}
    {shift : K} (hend : AtEnd shifts events line shift)
    (hshifts : shifts ⊆ moreShifts) (hevents : events ⊆ moreEvents) :
    AtEnd moreShifts moreEvents line shift := by
  cases hend with
  | reached hreached => exact .reached hreached
  | skipped hmem hstart hopposite => exact .skipped (hevents hmem) (hshifts hstart) hopposite
  | ledOver hmem hstart hlast hover hshift =>
    exact .ledOver (hevents hmem) (hshifts hstart) (hshifts hlast) hover hshift

theorem hasViolation_of_mem {combined line : AvoidLine K O} {lines : List (AvoidLine K O)}
    (hmem : line ∈ lines) (hviolation : hasViolation combined [line]) :
    hasViolation combined lines := by
  unfold hasViolation at hviolation ⊢
  rw [List.any_cons, List.any_nil, Bool.or_false] at hviolation
  exact List.any_eq_true.mpr ⟨line, hmem, hviolation⟩

variable [IsStrictOrderedRing K]

theorem leadsOver_of_merged {sl last : AvoidLine K O} {members rest : List (AvoidLine K O)}
    (hlines : InOrder (sl :: (members ++ last :: rest)))
    (hreturns : isNegative (startingFrom startShiftLength sl))
    (hsearch : searchCombined env (startingFrom startShiftLength sl)
      (startingFrom startShiftLength sl) [startingFrom startShiftLength sl]
        (members ++ last :: rest) =
      .ok (combineShiftLine last (startingFrom startShiftLength sl), rest))
    (hchecked : isPositive (combineShiftLine last (startingFrom startShiftLength sl)) ∨
      ¬ hasViolation (combineShiftLine last (startingFrom startShiftLength sl))
        (startingFrom startShiftLength sl :: members)) :
    ∀ line ∈ sl :: members, LeadsOver (startingFrom startShiftLength sl) last line := by
  have hforward := hlines.forward sl (List.mem_cons_self ..)
  have hlast : last ∈ members ++ last :: rest := by simp
  have hlastForward := hlines.tail.forward last hlast
  intro line hmem
  rcases List.mem_cons.mp hmem with rfl | hmember
  · have hless : |line.endShiftLength| - |startShiftLength| < -(1 / 10) :=
      of_decide_eq_true hreturns
    have hle : |line.endShiftLength| ≤ |startShiftLength| + 1 / 10 := by linarith
    exact ⟨⟨hforward.le, (hlines.head_le last hlast).trans_lt hlastForward⟩, le_rfl, hreturns, hle,
      hchecked.imp_right (mt fun hviolation => hasViolation_of_mem (List.mem_cons_self ..)
        hviolation)⟩
  · have hmem := List.mem_append_left (last :: rest) hmember
    have hstart : sl.startLongitudinal ≤ line.startLongitudinal :=
      hforward.le.trans (hlines.head_le line hmem)
    have hcross := (List.pairwise_append.mp hlines.tail.apart).2.2 line hmember last
      (List.mem_cons_self ..)
    have hless : ¬ 1 / 10 < |line.endShiftLength| - |startShiftLength| := fun hlt =>
      not_isPositive_of_searchCombined hsearch line hmember (decide_eq_true hlt)
    have hle : |line.endShiftLength| ≤ |startShiftLength| + 1 / 10 := by linarith
    exact ⟨⟨hstart.trans (hlines.tail.forward line hmem).le, hcross.trans_lt hlastForward⟩, hstart,
      hreturns, hle, hchecked.imp_right (mt fun hviolation =>
        hasViolation_of_mem (List.mem_cons_of_mem _ hmember) hviolation)⟩

theorem SharpRun.atEnd {lines out : List (AvoidLine K O)}
    (hrun : SharpRun env startShiftLength lines events out) (hlines : InOrder lines) :
    ∀ line ∈ lines, AtEnd (startShiftLength :: lines.map (·.endShiftLength)) events line
      (profileAt startShiftLength out line.endLongitudinal) := by
  induction hrun with
  | done => exact fun line hmem => absurd hmem List.not_mem_nil
  | @skip startShiftLength sl rest out events hopposite hrest ih =>
    intro line hmem
    rcases List.mem_cons.mp hmem with rfl | hmem
    · exact .skipped (List.mem_cons_self ..) (List.mem_cons_self ..) hopposite
    · refine (ih hlines.tail line hmem).mono ?_ (List.subset_cons_self _ _)
      exact List.cons_subset_cons _ (List.subset_cons_self _ _)
  | @keep startShiftLength sl rest out events hopposite halone hrest ih =>
    have hforward := hlines.forward sl (List.mem_cons_self ..)
    intro line hmem
    rcases List.mem_cons.mp hmem with rfl | hmem
    · exact .reached (profileAt_end (startingFrom startShiftLength line) out hforward)
    · have hbehind : sl.endLongitudinal < line.endLongitudinal :=
        (hlines.head_le line hmem).trans_lt (hlines.tail.forward line hmem)
      rw [profileAt_of_lt (startingFrom startShiftLength sl) out hforward hbehind]
      exact (ih hlines.tail line hmem).mono (List.subset_cons_self _ _) (List.Subset.refl _)
  | @merge startShiftLength sl last members rest out events hopposite halone hsearch hchecked
      hrest ih =>
      have hleads := leadsOver_of_merged hlines (isNegative_of_not_staysAlone halone) hsearch
        hchecked
      have hlast : last ∈ members ++ last :: rest := by simp
      have hlastShift : last.endShiftLength ∈ startShiftLength ::
          (sl :: (members ++ last :: rest)).map (·.endShiftLength) :=
        List.mem_cons_of_mem _ (List.mem_map_of_mem (List.mem_cons_of_mem _ hlast))
      have hcombined : sl.startLongitudinal < last.endLongitudinal :=
        (hlines.forward sl (List.mem_cons_self ..)).trans
          ((hlines.head_le last hlast).trans_lt (hlines.tail.forward last hlast))
      have hrestOrder := List.pairwise_cons.mp (List.pairwise_append.mp hlines.tail.apart).2.1
      intro line hline
      rcases List.mem_append.mp (show line ∈ (sl :: members) ++ last :: rest from hline) with
        hpart | hmem
      · have hover := hleads line hpart
        have hbehind := hover.behind.trans_lt (hlines.forward line hline)
        exact .ledOver (List.mem_cons_self ..) (List.mem_cons_self ..) hlastShift hover
          (profileAt_of_le out hbehind hover.onArc.2.le)
      · rcases List.mem_cons.mp hmem with rfl | hmem
        · exact .reached (profileAt_end (combineShiftLine line (startingFrom startShiftLength sl))
            out hcombined)
        · have hbehind : last.endLongitudinal < line.endLongitudinal :=
            (hrestOrder.1 line hmem).trans_lt (hlines.forward line hline)
          rw [profileAt_of_lt (combineShiftLine last (startingFrom startShiftLength sl)) out
            hcombined hbehind]
          have hbehindEnd := ih ⟨fun other hother => hlines.tail.forward other (by simp [hother]),
            hrestOrder.2⟩ line hmem
          refine hbehindEnd.mono (fun shift hshift => ?_) (List.subset_cons_self _ _)
          rcases List.mem_cons.mp hshift with rfl | hshift
          · exact hlastShift
          · simp [hshift]

/-! ## The side of the shift -/

theorem KeepsSide.abs_le {shift endShiftLength : K} (hkeeps : KeepsSide shift endShiftLength) :
    |endShiftLength| - 3 / 10 ≤ |shift| := by
  rcases lt_trichotomy endShiftLength 0 with hneg | rfl | hpos
  · rw [abs_of_neg hneg]
    linarith [hkeeps.2 hneg, neg_abs_le shift]
  · rw [abs_zero]
    linarith [abs_nonneg shift]
  · rw [abs_of_pos hpos]
    linarith [hkeeps.1 hpos, le_abs_self shift]

theorem KeepsSide.keepsAvoidance {shift endShiftLength : K}
    (hkeeps : KeepsSide shift endShiftLength) (hlarge : 3 / 10 < |endShiftLength|) : KeepsAvoidance shift endShiftLength := by
  refine ⟨?_, hkeeps.abs_le⟩
  rcases lt_abs.mp hlarge with hpos | hneg
  · have hshift := hkeeps.1 (by linarith)
    exact mul_pos (by linarith) (by linarith)
  · have hshift := hkeeps.2 (by linarith)
    exact mul_pos_of_neg_of_neg (by linarith) (by linarith)

theorem keepsSide_of_not_hasViolation {combined line : AvoidLine K O}
    (hnone : ¬ hasViolation combined [line]) (harc : OnArc combined line.endLongitudinal)
    (hlarge : 1 / 100 < |line.endShiftLength|) :
    KeepsSide (lerpShiftLength line.endLongitudinal combined) line.endShiftLength := by
  unfold hasViolation lerpShiftLengthOnArc at hnone
  dsimp only at hnone
  rw [List.any_cons, List.any_nil, Bool.or_false, if_pos harc, decide_eq_true_iff, not_or] at hnone
  constructor
  · intro hpos
    rw [abs_of_pos hpos] at hlarge
    exact not_lt.mp fun hlt => hnone.2 ⟨hlarge, hlt⟩
  · intro hneg
    rw [abs_of_neg hneg] at hlarge
    exact not_lt.mp fun hlt => hnone.1 ⟨by linarith, hlt⟩

theorem lerpShiftLength_eq_mean {al : AvoidLine K O} {arc : K} (harc : OnArc al arc) :
    ∃ weight, 0 ≤ weight ∧ weight ≤ 1 ∧
      lerpShiftLength arc al = weight * al.startShiftLength + (1 - weight) * al.endShiftLength ∧
      (1 / 100000 ≤ al.getRelativeLongitudinal → 0 < weight) := by
  have hlength : 0 < al.getRelativeLongitudinal := sub_pos.mpr (harc.1.trans_lt harc.2)
  unfold lerpShiftLength
  rw [abs_of_pos hlength]
  split_ifs with hshort
  · refine ⟨0, le_rfl, zero_le_one, ?_, fun hlong => absurd hshort (not_lt.mpr hlong)⟩
    rw [zero_mul, zero_add, sub_zero, one_mul]
  · have hleft : 0 < al.endLongitudinal - arc := sub_pos.mpr harc.2
    refine ⟨_, (div_pos hleft hlength).le, ?_, rfl, fun _ => div_pos hleft hlength⟩
    exact (div_le_one hlength).mpr (sub_le_sub_left harc.1 _)

variable {slNow last line : AvoidLine K O}

theorem LeadsOver.start_ne_zero
    (hover : LeadsOver slNow last line) : slNow.startShiftLength ≠ 0 := by
  have hreturns : |slNow.endShiftLength| - |slNow.startShiftLength| < -(1 / 10) :=
    of_decide_eq_true hover.returns
  intro hzero
  rw [hzero, abs_zero] at hreturns
  linarith [abs_nonneg slNow.endShiftLength]

theorem LeadsOver.keepsSide (hover : LeadsOver slNow last line)
    (hside : ¬ (isPositive (combineShiftLine last slNow) ∧
      (slNow.startShiftLength * line.endShiftLength < 0 ∨
        slNow.startShiftLength * last.endShiftLength < 0)))
    (hlarge : 1 / 100 < |line.endShiftLength|) :
    KeepsSide (lerpShiftLength line.endLongitudinal (combineShiftLine last slNow))
      line.endShiftLength := by
  by_cases hpositive : isPositive (combineShiftLine last slNow)
  · have hfurther : 1 / 10 < |last.endShiftLength| - |slNow.startShiftLength| :=
      of_decide_eq_true hpositive
    have hline := hover.notFurther
    obtain ⟨hlineSide, hlastSide⟩ := not_or.mp fun hsides => hside ⟨hpositive, hsides⟩
    rw [not_lt] at hlineSide hlastSide
    obtain ⟨weight, hweight, hweightLe, hlerp, _⟩ := lerpShiftLength_eq_mean hover.onArc
    rw [hlerp]
    change KeepsSide (weight * slNow.startShiftLength + (1 - weight) * last.endShiftLength) _
    have hrest : 0 ≤ 1 - weight := sub_nonneg.mpr hweightLe
    rcases lt_or_gt_of_ne hover.start_ne_zero with hneg | hpos
    · have hlineNeg := nonpos_of_mul_nonneg_right hlineSide hneg
      have hlastNeg := nonpos_of_mul_nonneg_right hlastSide hneg
      rw [abs_of_neg hneg] at hfurther hline
      rw [abs_of_nonpos hlastNeg] at hfurther
      rw [abs_of_nonpos hlineNeg] at hline
      have hmean := Convex.combo_le_max slNow.startShiftLength last.endShiftLength hweight hrest
        (add_sub_cancel weight 1)
      rw [smul_eq_mul, smul_eq_mul, max_eq_left (by linarith)] at hmean
      exact ⟨fun hlinePos => absurd hlinePos (not_lt.mpr hlineNeg), fun _ => by linarith⟩
    · have hlinePos := nonneg_of_mul_nonneg_right hlineSide hpos
      have hlastPos := nonneg_of_mul_nonneg_right hlastSide hpos
      rw [abs_of_pos hpos] at hfurther hline
      rw [abs_of_nonneg hlastPos] at hfurther
      rw [abs_of_nonneg hlinePos] at hline
      have hmean := Convex.min_le_combo slNow.startShiftLength last.endShiftLength hweight hrest
        (add_sub_cancel weight 1)
      rw [smul_eq_mul, smul_eq_mul, min_eq_left (by linarith)] at hmean
      exact ⟨fun _ => by linarith, fun hlineNeg => absurd hlineNeg (not_lt.mpr hlinePos)⟩
  · exact keepsSide_of_not_hasViolation (hover.checked.resolve_left hpositive) hover.onArc hlarge

theorem LeadsOver.sameSide (hover : LeadsOver slNow last line)
    (hstart : 0 ≤ slNow.startShiftLength * line.endShiftLength)
    (hlast : 0 ≤ last.endShiftLength * line.endShiftLength) (hne : line.endShiftLength ≠ 0)
    (hlong : 1 / 100000 ≤ line.getRelativeLongitudinal) :
    0 < lerpShiftLength line.endLongitudinal (combineShiftLine last slNow) *
      line.endShiftLength := by
  obtain ⟨weight, _, hweightLe, hlerp, hweight⟩ := lerpShiftLength_eq_mean hover.onArc
  have hlonger : line.getRelativeLongitudinal ≤
      (combineShiftLine last slNow).getRelativeLongitudinal :=
    sub_le_sub hover.onArc.2.le hover.behind
  have hstartPos := lt_of_le_of_ne hstart (mul_ne_zero hover.start_ne_zero hne).symm
  calc (0 : K) < weight * (slNow.startShiftLength * line.endShiftLength) :=
        mul_pos (hweight (hlong.trans hlonger)) hstartPos
    _ ≤ weight * (slNow.startShiftLength * line.endShiftLength) +
        (1 - weight) * (last.endShiftLength * line.endShiftLength) :=
        le_add_of_nonneg_right (mul_nonneg (sub_nonneg.mpr hweightLe) hlast)
    _ = _ := by
        rw [hlerp]
        change _ = (weight * slNow.startShiftLength + (1 - weight) * last.endShiftLength) * _
        ring

theorem AtEnd.keepsSide {shifts : List K} {shift : K} (hend : AtEnd shifts events line shift)
    (hnot : ∀ event ∈ events, ¬ event.PassesOver line) (hlarge : 1 / 100 < |line.endShiftLength|) :
    KeepsSide shift line.endShiftLength := by
  cases hend with
  | reached hreached =>
    rw [hreached]
    exact ⟨fun _ => by linarith, fun _ => by linarith⟩
  | skipped hmem => exact absurd rfl (hnot _ hmem)
  | ledOver hmem hstart hlast hover hshift =>
    rw [hshift]
    refine hover.keepsSide (fun hside => hnot _ hmem ?_) hlarge
    exact ⟨_, List.getLast?_concat, hside.1, hover.onArc, hside.2⟩

/-- Shifts that are all on one side are neither skipped nor merged over to the other one. -/
theorem AtEnd.keepsAvoidance {shifts : List K} {shift : K} (hend : AtEnd shifts events line shift)
    (hsided : OneSided shifts) (hline : line.endShiftLength ∈ shifts)
    (hlarge : 1 / 100 < |line.endShiftLength|) (hlong : 1 / 100000 ≤ line.getRelativeLongitudinal) :
    KeepsAvoidance shift line.endShiftLength := by
  have hne : line.endShiftLength ≠ 0 := fun hzero => by
    rw [hzero, abs_zero] at hlarge
    exact absurd hlarge (by norm_num)
  cases hend with
  | reached hreached =>
    rw [hreached]
    exact ⟨mul_self_pos.mpr hne, by linarith⟩
  | skipped hmem hstart hopposite =>
    have hless : line.endShiftLength * _ < -(1 / 100) := of_decide_eq_true hopposite
    exact absurd (hsided _ hline _ hstart) (not_le.mpr (hless.trans (by norm_num)))
  | ledOver hmem hstart hlast hover hshift =>
    have hstartSide := hsided _ hstart _ hline
    have hkeeps := hover.keepsSide (fun hside => ?_) hlarge
    · rw [hshift]
      exact ⟨hover.sameSide hstartSide (hsided _ hlast _ hline) hne hlong, hkeeps.abs_le⟩
    · exact hside.2.elim (not_lt.mpr hstartSide) (not_lt.mpr (hsided _ hstart _ hlast))

/-- Sharp returns are trimmed with no line left out of reach.  In order, a line keeps its shift but
for the tolerance, unless the shift changes sides and the line is passed over; and if all shifts
are on one side, every line keeps it. -/
theorem trimSharpReturn_keepsSide {env : TrimEnvironment K O} (hsort : SortsByEnd env)
    (lines : List (AvoidLine K O)) :
    (∃ events out, SharpRun env env.currentLinearShift lines events out ∧
        trimSharpReturn env lines = .ok (alignShiftLinesOrder env out)) ∧
      (InOrder lines → ∀ events out, SharpRun env env.currentLinearShift lines events out →
        trimSharpReturn env lines = .ok out ∧ ∀ line ∈ lines, 1 / 100 < |line.endShiftLength| →
            let shift := profileAt env.currentLinearShift out line.endLongitudinal
            ((∀ event ∈ events, ¬ event.PassesOver line) → KeepsSide shift line.endShiftLength ∧
                (3 / 10 < |line.endShiftLength| → KeepsAvoidance shift line.endShiftLength)) ∧
              (OneSided (env.currentLinearShift :: lines.map (·.endShiftLength)) →
                1 / 100000 ≤ line.getRelativeLongitudinal →
                KeepsAvoidance shift line.endShiftLength)) := by
  have hreturns : ∀ events out, SharpRun env env.currentLinearShift lines events out →
      trimSharpReturn env lines = .ok (alignShiftLinesOrder env out) := fun events out hrun => by
    unfold trimSharpReturn
    rw [hrun.trimSharpFrom_eq]
    rfl
  obtain ⟨events, out, _, hrun⟩ := @trimSharpFrom_run _ _ _ _ env env.currentLinearShift lines
  refine ⟨⟨events, out, hrun, hreturns events out hrun⟩, fun hlines events out hrun => ⟨?_, ?_⟩⟩
  · have halign := alignShiftLinesOrder_of_inOrder hsort ((trims_of_sharpRun hrun).inOrder hlines)
    rw [hreturns events out hrun, halign, hrun.withStartLengths_eq]
  · intro line hmem hlarge shift
    have hend := hrun.atEnd hlines line hmem
    refine ⟨fun hnot => ?_, fun hsided hlong => ?_⟩
    · have hkeeps := hend.keepsSide hnot hlarge
      exact ⟨hkeeps, hkeeps.keepsAvoidance⟩
    · exact hend.keepsAvoidance hsided (List.mem_cons_of_mem _ (List.mem_map_of_mem hmem)) hlarge
        hlong

end

/-- A shift within the tolerance is merged over to the other side. -/
theorem side_lost :
    let env := { straightTrimming with currentLinearShift := 1 }
    let line := lineFrom 0 10 1 (1 / 5) [1]
    let lines := [line, lineFrom 10 19 (1 / 5) (-1) [2]]
    SortsByEnd env ∧ InOrder lines ∧ withStartLengths 1 lines = lines ∧
      1 / 100 < |line.endShiftLength| ∧
      ∃ out, trimSharpReturn env lines = .ok out ∧
        ¬ KeepsAvoidance (profileAt 1 out line.endLongitudinal) line.endShiftLength := by
  refine ⟨straightTrimming_sorts, ⟨by decide +kernel, by decide +kernel⟩, by decide +kernel,
    by decide +kernel, [lineFrom 0 19 1 (-1) [1]], by decide +kernel, ?_⟩
  unfold KeepsAvoidance
  decide +kernel

/-- The shift at the end of that line is less by no more than the tolerance. -/
theorem side_tolerated :
    let env := { straightTrimming with currentLinearShift := 1 }
    let lines := [lineFrom 0 10 1 (1 / 5) [1], lineFrom 10 19 (1 / 5) (-1) [2]]
    ∃ out, trimSharpReturn env lines = .ok out ∧ KeepsSide (profileAt 1 out 10) (1 / 5) ∧
      KeepsAvoidance (profileAt 1 out 19) (-1) := by
  intro env lines
  have hsort : SortsByEnd env := straightTrimming_sorts
  have hrun : SharpRun env 1 lines [.merged (lineFrom 0 10 1 (1 / 5) [1])
      [lineFrom 10 19 (1 / 5) (-1) [2]]] [lineFrom 0 19 1 (-1) [1]] := by
    have hchecked : ¬ hasViolation (lineFrom 0 19 1 (-1) [1]) [lineFrom 0 10 1 (1 / 5) [1]] := by
      decide +kernel
    refine @SharpRun.merge _ _ _ _ env 1 (lineFrom 0 10 1 (1 / 5) [1])
      (lineFrom 10 19 (1 / 5) (-1) [2]) [] [] [] [] (by decide +kernel) (fun halone => ?_)
      (by decide +kernel) (.inr hchecked) (.done _)
    exact absurd (halone (by decide +kernel)).2 hchecked
  obtain ⟨hreturns, hkept⟩ := (trimSharpReturn_keepsSide hsort lines).2
    ⟨by decide +kernel, by decide +kernel⟩ _ _ hrun
  -- The merged shift goes no further out.
  have hnot : ∀ line : AvoidLine ℚ (ℚ × ℚ), ∀ event ∈ [TrimEvent.merged
      (lineFrom 0 10 1 (1 / 5) [1]) [lineFrom 10 19 (1 / 5) (-1) [2]]],
      ¬ event.PassesOver line := by
    intro line event hmem
    obtain rfl := List.mem_singleton.mp hmem
    rintro ⟨last, hlast, hpositive, _⟩
    obtain rfl := Option.some.inj hlast
    exact absurd hpositive (by decide +kernel)
  exact ⟨_, hreturns,
    ((hkept _ (List.mem_cons_self ..) (by decide +kernel)).1 (hnot _)).1,
    ((hkept _ (List.mem_cons_of_mem _ (List.mem_cons_self ..)) (by decide +kernel)).1
      (hnot _)).2 (by decide +kernel)⟩

end AutowareUniverse.Planning.Avoidance
