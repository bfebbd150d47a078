import AutowareUniverse.Common.Resample

/-!
# Insertion of an arc length

What becomes of a list of arc lengths when one more is put between two of its entries, and of
one that is accepted when the arc lengths of points with several lane ids are.
-/

namespace AutowareUniverse.Common.Resample

open Common.MotionUtils (Point Pose Trigonometry calcDistance2d calcSignedArcLength)

variable {K O : Type} [Field K] [LinearOrder K] {distance : K} {resamplingArclength : List K}

theorem overlapThreshold_pos [IsStrictOrderedRing K] : (0 : K) < overlapThreshold := by
  unfold overlapThreshold
  positivity

/-! ## What one insertion does -/

/-- The entries between which an arc length lies. -/
structure Between (distance prev following : K) : Prop where
  prev_le : prev ≤ distance
  lt_following : distance < following

/-- An insertion replaces the entry before the arc length, or the one behind it, when that is
close, and else adds the arc length. -/
inductive Replaces (distance prev following : K) : List K → Prop
  | prev (hclose : |distance - prev| < overlapThreshold) :
      Replaces distance prev following [distance, following]
  | following (hprev : overlapThreshold ≤ |distance - prev|)
      (hclose : |following - distance| < overlapThreshold) :
      Replaces distance prev following [prev, distance]
  | neither (hprev : overlapThreshold ≤ |distance - prev|)
      (hfollowing : overlapThreshold ≤ |following - distance|) :
      Replaces distance prev following [prev, distance, following]

theorem insertArcLength_cases (distance : K) (resamplingArclength : List K) :
    insertArcLength distance resamplingArclength = resamplingArclength ∨
      ∃ before prev following middle later,
        resamplingArclength = before ++ [prev, following] ++ later ∧
        Between distance prev following ∧ Replaces distance prev following middle ∧
        insertArcLength distance resamplingArclength = before ++ middle ++ later := by
  fun_induction insertArcLength distance resamplingArclength with
  | case1 prev following later hbetween hclose =>
    exact .inr ⟨[], prev, following, _, later, rfl, ⟨hbetween.1, hbetween.2⟩, .prev hclose, rfl⟩
  | case2 prev following later hbetween hprev hclose =>
    exact .inr ⟨[], prev, following, _, later, rfl, ⟨hbetween.1, hbetween.2⟩,
      .following (not_lt.mp hprev) hclose, rfl⟩
  | case3 prev following later hbetween hprev hfollowing =>
    exact .inr ⟨[], prev, following, _, later, rfl, ⟨hbetween.1, hbetween.2⟩,
      .neither (not_lt.mp hprev) (not_lt.mp hfollowing), rfl⟩
  | case4 prev following later _ ih =>
    rcases ih with hsame | ⟨before, first, second, middle, others, hlist, hbetween, hreplaces, heq⟩
    · exact .inl (by rw [hsame])
    · exact .inr ⟨prev :: before, first, second, middle, others, by rw [hlist]; rfl, hbetween,
        hreplaces, by rw [heq]; rfl⟩
  | case5 resamplingArclength => exact .inl rfl

variable {middle : List K}

theorem Replaces.mem {prev following : K}
    (hreplaces : Replaces distance prev following middle) : distance ∈ middle := by
  cases hreplaces with
  | prev hclose => exact List.mem_cons_self
  | following hprev hclose => exact List.mem_cons_of_mem _ List.mem_cons_self
  | neither hprev hfollowing => exact List.mem_cons_of_mem _ List.mem_cons_self

theorem Replaces.eq_or_mem {prev following : K}
    (hreplaces : Replaces distance prev following middle) :
    ∀ value ∈ middle, value = distance ∨ value = prev ∨ value = following := by
  cases hreplaces <;> simp

/-- An entry that is not close stays. -/
theorem Replaces.mem_of_far {prev following value : K}
    (hreplaces : Replaces distance prev following middle) (hvalue : value ∈ [prev, following])
    (hfar : distance = value ∨ overlapThreshold ≤ |distance - value|) : value ∈ middle := by
  rcases hfar with rfl | hfar
  · exact hreplaces.mem
  · simp only [List.mem_cons, List.not_mem_nil, or_false] at hvalue
    cases hreplaces with
    | prev hclose =>
      rcases hvalue with rfl | rfl
      · exact absurd hclose (not_lt.mpr hfar)
      · simp
    | following hprev hclose =>
      rcases hvalue with rfl | rfl
      · simp
      · rw [abs_sub_comm] at hclose
        exact absurd hclose (not_lt.mpr hfar)
    | neither hprev hfollowing =>
      rcases hvalue with rfl | rfl
      · simp
      · simp

theorem length_le_insertArcLength :
    resamplingArclength.length ≤ (insertArcLength distance resamplingArclength).length := by
  rcases insertArcLength_cases distance resamplingArclength with
    hsame | ⟨before, prev, following, middle, later, hlist, _, hreplaces, heq⟩
  · rw [hsame]
  · rw [heq, hlist]
    have htwo : 2 ≤ middle.length := by cases hreplaces <;> simp
    simp only [List.length_append, List.length_cons, List.length_nil]
    omega

theorem bounds_insertArcLength {low high : K}
    (hbounds : ∀ value ∈ resamplingArclength, low ≤ value ∧ value ≤ high) :
    ∀ value ∈ insertArcLength distance resamplingArclength, low ≤ value ∧ value ≤ high := by
  rcases insertArcLength_cases distance resamplingArclength with
    hsame | ⟨before, prev, following, middle, later, hlist, hbetween, hreplaces, heq⟩
  · rwa [hsame]
  · rw [hlist] at hbounds
    have hprev := hbounds prev (by simp)
    have hfollowing := hbounds following (by simp)
    intro value hvalue
    rw [heq, List.mem_append, List.mem_append] at hvalue
    rcases hvalue with (hvalue | hvalue) | hvalue
    · exact hbounds value (by simp [hvalue])
    · rcases hreplaces.eq_or_mem value hvalue with rfl | rfl | rfl
      · exact ⟨hprev.1.trans hbetween.prev_le, hbetween.lt_following.le.trans hfollowing.2⟩
      · exact hprev
      · exact hfollowing
    · exact hbounds value (by simp [hvalue])

/-- Entries that are not close stay. -/
theorem mem_insertArcLength_of_mem {value : K} (hmem : value ∈ resamplingArclength)
    (hfar : distance = value ∨ overlapThreshold ≤ |distance - value|) :
    value ∈ insertArcLength distance resamplingArclength := by
  rcases insertArcLength_cases distance resamplingArclength with
    hsame | ⟨before, prev, following, middle, later, hlist, _, hreplaces, heq⟩
  · rwa [hsame]
  · rw [hlist, List.mem_append, List.mem_append] at hmem
    rw [heq, List.mem_append, List.mem_append]
    exact hmem.imp_left fun hmem => hmem.imp_right fun hvalue => hreplaces.mem_of_far hvalue hfar

theorem mem_insertArcLength {first last : K} (hfirst : resamplingArclength.head? = some first)
    (hlast : resamplingArclength.getLast? = some last) (hle : first ≤ distance)
    (hlt : distance < last) : distance ∈ insertArcLength distance resamplingArclength := by
  fun_induction insertArcLength distance resamplingArclength generalizing first with
  | case1 => exact List.mem_cons_self
  | case2 => exact List.mem_cons_of_mem _ List.mem_cons_self
  | case3 => exact List.mem_cons_of_mem _ List.mem_cons_self
  | case4 prev following later hbetween ih =>
    cases hfirst
    refine List.mem_cons_of_mem _ (ih rfl (by rwa [List.getLast?_cons_cons] at hlast) ?_)
    exact not_lt.mp fun hfollowing => hbetween ⟨hle, hfollowing⟩
  | case5 resamplingArclength hshort =>
    match resamplingArclength with
    | [] => cases hfirst
    | [_] =>
      cases hfirst
      cases hlast
      exact absurd hlt (not_lt.mpr hle)
    | prev :: following :: later => exact absurd rfl (hshort prev following later)

variable [IsStrictOrderedRing K]

/-- An order of the entries in which smaller ones are related stays. -/
theorem pairwise_insertArcLength {R : K → K → Prop} (hlt : ∀ {a b}, a < b → R a b)
    (hright : ∀ {a b c}, R a b → b ≤ c → R a c) (hleft : ∀ {a b c}, a < b → R b c → R a c)
    (hsorted : resamplingArclength.Pairwise R) :
    (insertArcLength distance resamplingArclength).Pairwise R := by
  rcases insertArcLength_cases distance resamplingArclength with
    hsame | ⟨before, prev, following, middle, later, hlist, hbetween, hreplaces, heq⟩
  · rwa [hsame]
  · rw [hlist, List.append_assoc, List.pairwise_append] at hsorted
    obtain ⟨hbefore, hrest, hacross⟩ := hsorted
    obtain ⟨hpair, hlater, hover⟩ := List.pairwise_append.mp hrest
    have hbelow : ∀ value ∈ middle, ∀ first ∈ before, R first value := by
      intro value hvalue first hfirst
      have hprev := hacross first hfirst prev (by simp)
      rcases hreplaces.eq_or_mem value hvalue with rfl | rfl | rfl
      · exact hright hprev hbetween.prev_le
      · exact hprev
      · exact hacross first hfirst _ (by simp)
    have habove : ∀ value ∈ middle, ∀ other ∈ later, R value other := by
      intro value hvalue other hother
      rcases hreplaces.eq_or_mem value hvalue with rfl | rfl | rfl
      · exact hleft hbetween.lt_following (hover following (by simp) other hother)
      · exact hover _ (by simp) other hother
      · exact hover _ (by simp) other hother
    have hmiddle : middle.Pairwise R := by
      have hprevLt (hprev : overlapThreshold ≤ |distance - prev|) : prev < distance := by
        rw [abs_of_nonneg (sub_nonneg.mpr hbetween.prev_le)] at hprev
        exact sub_pos.mp (overlapThreshold_pos.trans_le hprev)
      cases hreplaces with
      | prev hclose => exact List.pairwise_pair.mpr (hlt hbetween.lt_following)
      | following hprev hclose => exact List.pairwise_pair.mpr (hlt (hprevLt hprev))
      | neither hprev hfollowing =>
        refine List.pairwise_cons.mpr ⟨?_, List.pairwise_pair.mpr (hlt hbetween.lt_following)⟩
        simp only [List.forall_mem_cons]
        exact ⟨hlt (hprevLt hprev), hlt ((hprevLt hprev).trans hbetween.lt_following),
          fun _ hmem => absurd hmem List.not_mem_nil⟩
    rw [heq, List.append_assoc, List.pairwise_append]
    refine ⟨hbefore, List.pairwise_append.mpr ⟨hmiddle, hlater, habove⟩, ?_⟩
    intro first hfirst value hvalue
    rcases List.mem_append.mp hvalue with hvalue | hvalue
    · exact hbelow value hvalue first hfirst
    · exact hacross first hfirst value (List.mem_append_right _ hvalue)

omit [IsStrictOrderedRing K] in
theorem insertLanePoints_induction {geometry : Trigonometry K O}
    {points : List (PathPointWithLaneId K O)} {holds : List K → Prop}
    (hinsert : ∀ distance values, holds values → holds (insertArcLength distance values))
    (hstart : holds resamplingArclength) :
    holds (insertLanePoints geometry points resamplingArclength) := by
  unfold insertLanePoints
  refine List.foldlRecOn _ _ hstart fun values hvalues entry _ => ?_
  dsimp only
  split
  · exact hvalues
  · exact hinsert _ _ hvalues

/-- What the insertions keep of an accepted list. -/
structure Spread (low high : K) (resampledArclength : List K) : Prop where
  two : 2 ≤ resampledArclength.length
  sorted : resampledArclength.Pairwise (· ≤ ·)
  bounds : ∀ value ∈ resampledArclength, low ≤ value ∧ value ≤ high

theorem Spread.insertArcLength {low high : K} {resampledArclength : List K}
    (hspread : Spread low high resampledArclength) (distance : K) :
    Spread low high (insertArcLength distance resampledArclength) where
  two := hspread.two.trans length_le_insertArcLength
  sorted := pairwise_insertArcLength le_of_lt (fun hle hle' => hle.trans hle')
    (fun hlt hle => hlt.le.trans hle) hspread.sorted
  bounds := bounds_insertArcLength hspread.bounds

variable {geometry : Trigonometry K O} {positions : List (Point K)}

section
omit [IsStrictOrderedRing K]

theorem Accepted.spread (haccepted : Accepted geometry positions resamplingArclength) :
    Spread (-Interpolation.epsilon) (calcArcLength geometry positions) resamplingArclength where
  two := haccepted.checked.twoArclengths
  sorted := haccepted.sorted
  bounds := by
    intro value hvalue
    refine ⟨?_, haccepted.le_arcLength value hvalue⟩
    have hfront := haccepted.front
    have hsorted := haccepted.sorted
    cases resamplingArclength with
    | nil => exact absurd hvalue List.not_mem_nil
    | cons first later =>
      rcases List.mem_cons.mp hvalue with rfl | hlater
      · exact hfront _ rfl
      · exact (hfront first rfl).trans ((List.pairwise_cons.mp hsorted).1 value hlater)

theorem Spread.accepted
    (hspread : Spread (-Interpolation.epsilon) (calcArcLength geometry positions)
      resamplingArclength)
    (htwo : 2 ≤ positions.length)
    (hapart : ∀ ds ∈ positions.zipWith (calcDistance2d geometry) positions.tail,
      closeSThreshold ≤ ds) : Accepted geometry positions resamplingArclength where
  arguments := by
    refine validateArguments_iff.mpr ⟨htwo, hspread.two, ?_, hapart⟩
    have hne : resamplingArclength ≠ [] := List.ne_nil_of_length_pos (by have := hspread.two; omega)
    rw [List.getLastD_eq_getLast?, List.getLast?_eq_some_getLast hne]
    exact (hspread.bounds _ (List.getLast_mem hne)).2
  sorted := hspread.sorted
  front := fun first hfirst => (hspread.bounds first (List.mem_of_head? hfirst)).1

end

theorem Accepted.insertLanePoints (haccepted : Accepted geometry positions resamplingArclength)
    (points : List (PathPointWithLaneId K O)) :
    Accepted geometry positions (insertLanePoints geometry points resamplingArclength) := by
  have hspread : Spread (-Interpolation.epsilon) (calcArcLength geometry positions)
      (Resample.insertLanePoints geometry points resamplingArclength) :=
    insertLanePoints_induction (fun distance _ hvalues => hvalues.insertArcLength distance)
      haccepted.spread
  exact hspread.accepted haccepted.checked.twoPoints haccepted.checked.apart

end AutowareUniverse.Common.Resample

namespace AutowareUniverse.Common.MotionUtils

open Library.Fallible

variable {K O : Type} [Field K] (geometry : Trigonometry K O)

/-- The loop from an index over a number of segments, and the sum before it. -/
def partialSums (poses : List (Pose K O)) : ℕ → ℕ → K → Except Failure (List K)
  | 0, _, _ => .ok []
  | remaining + 1, i, distSum => do
    let front ← atIndex poses i
    let back ← atIndex poses (i + 1)
    let distSum := distSum + calcDistance2d geometry front.position back.position
    let later ← partialSums poses remaining (i + 1) distSum
    return distSum :: later

/-- Nothing is returned when the recursion is deeper than the number that is given. -/
def calcSignedArcLengthPartialSum : ℕ → List (Pose K O) → ℕ → ℕ → Option (Except Failure (List K))
  | 0, _, _, _ => none
  | depth + 1, poses, srcIdx, dstIdx =>
    if poses.isEmpty then some (.ok [])
    else if dstIdx < srcIdx + 1 then
      -- the reversed copy of the points is not used
      let _copied := poses.reverse
      calcSignedArcLengthPartialSum depth poses dstIdx srcIdx
    else some do
      let later ← partialSums geometry poses (dstIdx - 1 - srcIdx) srcIdx 0
      return 0 :: later

def segmentLength (poses : List (Pose K O)) (i : ℕ) : K :=
  match poses[i]?, poses[i + 1]? with
  | some front, some back => calcDistance2d geometry front.position back.position
  | _, _ => 0

def arcLengthFrom (poses : List (Pose K O)) (i count : ℕ) : K :=
  ((List.range count).map fun k => segmentLength geometry poses (i + k)).sum

variable {geometry} {poses : List (Pose K O)}

@[simp] theorem arcLengthFrom_zero (i : ℕ) : arcLengthFrom geometry poses i 0 = 0 := rfl

theorem arcLengthFrom_succ (i count : ℕ) : arcLengthFrom geometry poses i (count + 1) =
      segmentLength geometry poses i + arcLengthFrom geometry poses (i + 1) count := by
  unfold arcLengthFrom
  rw [List.range_succ_eq_map, List.map_cons, List.sum_cons, List.map_map, Nat.add_zero]
  congr 3
  funext k
  exact congrArg (segmentLength geometry poses) (Nat.add_left_comm i k 1 |>.trans (Nat.add_comm ..))

theorem partialSums_eq {remaining i : ℕ} (hbound : i + remaining < poses.length) (sum : K) :
    partialSums geometry poses remaining i sum =
      .ok ((List.range remaining).map fun k => sum + arcLengthFrom geometry poses i (k + 1)) := by
  induction remaining generalizing i sum with
  | zero => rfl
  | succ remaining ih =>
    have hfront : poses[i]? = some poses[i] := List.getElem?_eq_getElem (by omega)
    have hback : poses[i + 1]? = some poses[i + 1] := List.getElem?_eq_getElem (by omega)
    have hsegment : segmentLength geometry poses i =
        calcDistance2d geometry poses[i].position poses[i + 1].position := by
      rw [segmentLength, hfront, hback]
    rw [partialSums, atIndex, hfront, atIndex, hback]
    refine bind_eq_ok.mpr ⟨_, rfl, bind_eq_ok.mpr ⟨_, rfl, ?_⟩⟩
    refine bind_eq_ok.mpr ⟨_, ih (by omega) _, ?_⟩
    rw [List.range_succ_eq_map, List.map_cons, List.map_map, ← hsegment]
    have hfirst : arcLengthFrom geometry poses i (0 + 1) = segmentLength geometry poses i := by
      rw [arcLengthFrom_succ, arcLengthFrom_zero, add_zero]
    have hlater : (fun k => sum + segmentLength geometry poses i +
        arcLengthFrom geometry poses (i + 1) (k + 1)) =
        (fun k => sum + arcLengthFrom geometry poses i (k + 1)) ∘ Nat.succ := by
      funext k
      rw [Function.comp_apply, arcLengthFrom_succ i, add_assoc]
    rw [hfirst, hlater]
    rfl

variable {srcIdx dstIdx : ℕ}

/-- From an index to a later one. -/
theorem calcSignedArcLengthPartialSum_of_lt (hlt : srcIdx < dstIdx)
    (hdst : dstIdx ≤ poses.length) (depth : ℕ) :
    calcSignedArcLengthPartialSum geometry (depth + 1) poses srcIdx dstIdx =
      some (.ok ((List.range (dstIdx - srcIdx)).map (arcLengthFrom geometry poses srcIdx))) := by
  have hne : poses.isEmpty = false := by
    rw [← Bool.not_eq_true, List.isEmpty_iff, ← List.length_eq_zero_iff]
    omega
  have hcount : dstIdx - srcIdx = dstIdx - 1 - srcIdx + 1 := by omega
  rw [calcSignedArcLengthPartialSum, hne, if_neg Bool.false_ne_true, if_neg (by omega),
    partialSums_eq (by omega), hcount, List.range_succ_eq_map, List.map_cons, List.map_map]
  simp only [zero_add]
  rfl

theorem calcSignedArcLengthPartialSum_of_gt (hgt : dstIdx < srcIdx)
    (hsrc : srcIdx ≤ poses.length) (depth : ℕ) :
    calcSignedArcLengthPartialSum geometry (depth + 2) poses srcIdx dstIdx =
      some (.ok ((List.range (srcIdx - dstIdx)).map (arcLengthFrom geometry poses dstIdx))) := by
  have hne : poses.isEmpty = false := by
    rw [← Bool.not_eq_true, List.isEmpty_iff, ← List.length_eq_zero_iff]
    omega
  rw [calcSignedArcLengthPartialSum, hne, if_neg Bool.false_ne_true, if_pos (by omega)]
  exact calcSignedArcLengthPartialSum_of_lt hgt hsrc depth

/-- Between equal indices the recursion has no end. -/
theorem calcSignedArcLengthPartialSum_self (hne : poses ≠ []) (idx depth : ℕ) :
    calcSignedArcLengthPartialSum geometry depth poses idx idx = none := by
  induction depth with
  | zero => rfl
  | succ depth ih =>
    rw [calcSignedArcLengthPartialSum, if_neg (by simpa using hne), if_pos (by omega)]
    exact ih

/-! ## Walking along the points -/

/-- The index after some steps from one index towards another. -/
def walkIdx (srcIdx dstIdx step : ℕ) : ℕ :=
  if srcIdx ≤ dstIdx then srcIdx + step else srcIdx - step

variable (geometry poses) in
def stepLength (srcIdx dstIdx step : ℕ) : K :=
  match poses[walkIdx srcIdx dstIdx step]?, poses[walkIdx srcIdx dstIdx (step + 1)]? with
  | some here, some there => calcDistance2d geometry here.position there.position
  | _, _ => 0

variable (geometry poses) in
def travelled (srcIdx dstIdx steps : ℕ) : K :=
  ((List.range steps).map (stepLength geometry poses srcIdx dstIdx)).sum

theorem stepLength_of_le (hle : srcIdx ≤ dstIdx) (step : ℕ) :
    stepLength geometry poses srcIdx dstIdx step = segmentLength geometry poses (srcIdx + step) := by
  unfold stepLength segmentLength walkIdx
  rw [if_pos hle, if_pos hle]
  rfl

theorem stepLength_of_gt (hgt : dstIdx < srcIdx) {step : ℕ} (hstep : step < srcIdx) :
    stepLength geometry poses srcIdx dstIdx step =
      segmentLength geometry poses (srcIdx - 1 - step) := by
  have hback : srcIdx - 1 - step + 1 = srcIdx - step := by omega
  have hfront : srcIdx - (step + 1) = srcIdx - 1 - step := by omega
  have hsymm (p q : Point K) : calcDistance2d geometry p q = calcDistance2d geometry q p := by
    unfold calcDistance2d calcSquaredDistance2d
    congr 1
    ring
  unfold stepLength segmentLength walkIdx
  rw [if_neg (by omega), if_neg (by omega), hback, hfront]
  cases poses[srcIdx - step]? with
  | none => cases poses[srcIdx - 1 - step]? <;> rfl
  | some here =>
    cases poses[srcIdx - 1 - step]? with
    | none => rfl
    | some there => exact hsymm _ _

theorem travelled_of_le (hle : srcIdx ≤ dstIdx) (steps : ℕ) :
    travelled geometry poses srcIdx dstIdx steps = arcLengthFrom geometry poses srcIdx steps := by
  unfold travelled arcLengthFrom
  exact congrArg List.sum (List.map_congr_left fun k _ => stepLength_of_le hle k)

theorem travelled_succ (srcIdx dstIdx steps : ℕ) :
    travelled geometry poses srcIdx dstIdx (steps + 1) =
      travelled geometry poses srcIdx dstIdx steps +
        stepLength geometry poses srcIdx dstIdx steps := by
  unfold travelled
  rw [List.range_succ, List.map_append, List.sum_append]
  simp

theorem forall_travelled_eq_iff {srcIdx dstIdx srcIdx' dstIdx' count : ℕ} :
    (∀ k, k < count → travelled geometry poses srcIdx dstIdx k =
        travelled geometry poses srcIdx' dstIdx' k) ↔
      ∀ k, k + 1 < count → stepLength geometry poses srcIdx dstIdx k =
        stepLength geometry poses srcIdx' dstIdx' k := by
  constructor
  · intro hsame k hk
    have hnext := hsame (k + 1) hk
    rw [travelled_succ, travelled_succ, hsame k (by omega)] at hnext
    exact add_left_cancel hnext
  · intro hsteps k
    induction k with
    | zero => exact fun _ => rfl
    | succ k ih =>
      intro hk
      rw [travelled_succ, travelled_succ, ih (by omega), hsteps k hk]

/-- The sums are the lengths travelled if and only if the walk goes forwards, or it goes
backwards over segments that have the same lengths seen from both ends. -/
theorem calcSignedArcLengthPartialSum_travelled_iff {srcIdx dstIdx : ℕ}
    (hsrc : srcIdx < poses.length) (hdst : dstIdx < poses.length) :
    (∃ depth sums, calcSignedArcLengthPartialSum geometry depth poses srcIdx dstIdx =
        some (.ok sums) ∧
      ∀ k sum, sums[k]? = some sum → sum = travelled geometry poses srcIdx dstIdx k) ↔
      srcIdx < dstIdx ∨ (dstIdx < srcIdx ∧ ∀ k, k + 1 < srcIdx - dstIdx →
          segmentLength geometry poses (dstIdx + k) =
            segmentLength geometry poses (srcIdx - 1 - k)) := by
  have hget {start count : ℕ} {k : ℕ} {sum : K} :
      ((List.range count).map (arcLengthFrom geometry poses start))[k]? = some sum ↔
        k < count ∧ arcLengthFrom geometry poses start k = sum := by
    rw [List.getElem?_map, Option.map_eq_some_iff]
    constructor
    · rintro ⟨k', hk, hsum⟩
      obtain ⟨hlt, rfl⟩ := List.getElem?_eq_some_iff.mp hk
      rw [List.length_range] at hlt
      rw [List.getElem_range] at hsum
      exact ⟨hlt, hsum⟩
    · rintro ⟨hlt, hsum⟩
      exact ⟨k, List.getElem?_range hlt, hsum⟩
  rcases lt_trichotomy srcIdx dstIdx with hlt | rfl | hgt
  · refine iff_of_true ⟨1, _, calcSignedArcLengthPartialSum_of_lt hlt hdst.le 0, ?_⟩ (.inl hlt)
    intro k sum hsum
    rw [← (hget.mp hsum).2, travelled_of_le hlt.le]
  · refine iff_of_false ?_ (by omega)
    rintro ⟨depth, sums, hsums, _⟩
    have hne : poses ≠ [] := List.ne_nil_of_length_pos (by omega)
    rw [calcSignedArcLengthPartialSum_self hne] at hsums
    cases hsums
  · have hreturned {depth : ℕ} {sums : List K}
        (hsums : calcSignedArcLengthPartialSum geometry depth poses srcIdx dstIdx =
          some (.ok sums)) :
        sums = (List.range (srcIdx - dstIdx)).map (arcLengthFrom geometry poses dstIdx) := by
      match depth with
      | 0 => cases hsums
      | 1 =>
        have hne : ¬ poses.isEmpty = true := by
          rw [List.isEmpty_iff, ← List.length_eq_zero_iff]
          omega
        rw [calcSignedArcLengthPartialSum, if_neg hne, if_pos (by omega)] at hsums
        cases hsums
      | depth + 2 =>
        rw [calcSignedArcLengthPartialSum_of_gt hgt hsrc.le] at hsums
        cases hsums
        rfl
    have hwalks : (∀ k, k < srcIdx - dstIdx → travelled geometry poses dstIdx srcIdx k =
          travelled geometry poses srcIdx dstIdx k) ↔
        ∀ k, k + 1 < srcIdx - dstIdx → segmentLength geometry poses (dstIdx + k) =
          segmentLength geometry poses (srcIdx - 1 - k) := by
      rw [forall_travelled_eq_iff]
      refine forall₂_congr fun k hk => ?_
      rw [stepLength_of_le hgt.le, stepLength_of_gt hgt (by omega)]
    have hcases : (srcIdx < dstIdx ∨ (dstIdx < srcIdx ∧ ∀ k, k + 1 < srcIdx - dstIdx →
          segmentLength geometry poses (dstIdx + k) =
            segmentLength geometry poses (srcIdx - 1 - k))) ↔
        ∀ k, k + 1 < srcIdx - dstIdx → segmentLength geometry poses (dstIdx + k) =
          segmentLength geometry poses (srcIdx - 1 - k) := by
      simp [hgt, hgt.not_gt]
    rw [hcases, ← hwalks]
    constructor
    · rintro ⟨depth, sums, hsums, htravelled⟩ k hk
      rw [hreturned hsums] at htravelled
      rw [travelled_of_le hgt.le]
      exact htravelled k _ (hget.mpr ⟨hk, rfl⟩)
    · intro hwalk
      refine ⟨2, _, calcSignedArcLengthPartialSum_of_gt hgt hsrc.le 0, ?_⟩
      intro k sum hsum
      obtain ⟨hk, rfl⟩ := hget.mp hsum
      rw [← hwalk k hk, travelled_of_le hgt.le]

/-- Distances along the first axis only. -/
def alongX : Trigonometry ℚ Unit where
  sqrt value := if value = 1 then 1 else if value = 4 then 2 else 0
  cosQuarterPi := 0
  orientationTo _ _ := ()
  calcYawDeviation _ _ := 0
  isDrivingForward _ _ := true

/-- Points at 0, 1 and 3. -/
def threePoses : List (Pose ℚ Unit) :=
  [⟨⟨0, 0, 0⟩, ()⟩, ⟨⟨1, 0, 0⟩, ()⟩, ⟨⟨3, 0, 0⟩, ()⟩]

/-- The walk backwards travels the longer segment first. -/
theorem calcSignedArcLengthPartialSum_threePoses :
    (∃ depth sums, calcSignedArcLengthPartialSum alongX depth threePoses 0 2 = some (.ok sums) ∧
      ∀ k sum, sums[k]? = some sum → sum = travelled alongX threePoses 0 2 k) ↔
      0 < 2 ∨ (2 < 0 ∧ ∀ k, k + 1 < 0 - 2 →
        segmentLength alongX threePoses (2 + k) = segmentLength alongX threePoses (0 - 1 - k)) :=
  calcSignedArcLengthPartialSum_travelled_iff (by decide) (by decide)

/-- From a point to itself nothing is ever returned, and backwards the sums are those of the
walk forwards: one step from the last point is 2 long, not 1. -/
theorem calcSignedArcLengthPartialSum_not_travelled :
    (¬ ∃ depth sums, calcSignedArcLengthPartialSum alongX depth threePoses 0 0 = some (.ok sums) ∧
      ∀ k sum, sums[k]? = some sum → sum = travelled alongX threePoses 0 0 k) ∧
    calcSignedArcLengthPartialSum alongX 2 threePoses 2 0 = some (.ok [0, 1]) ∧
      travelled alongX threePoses 2 0 1 = 2 := by
  refine ⟨?_, by decide +kernel, by decide +kernel⟩
  rintro ⟨depth, sums, hsums, _⟩
  rw [calcSignedArcLengthPartialSum_self (by simp [threePoses])] at hsums
  cases hsums

end AutowareUniverse.Common.MotionUtils

/-!
## Fields of resampled paths and trajectories

The poses, velocities and heading rates of a path or trajectory are its columns.  At accepted arc
lengths each overload returns the columns of one pipeline, one point for each arc length, and
the fields of the input that are not points.
-/

namespace AutowareUniverse.Common.Resample

section

open Common.Interpolation Library.Fallible
open Common.MotionUtils (Point Pose Trigonometry)

variable {K O H : Type} [Field K] [LinearOrder K]

/-- What the points of paths and trajectories have in common. -/
structure Columns (K O : Type) where
  pose : List (Pose K O)
  longitudinalVelocityMps : List K
  lateralVelocityMps : List K
  headingRateRps : List K
  deriving DecidableEq

structure Entry (K O : Type) where
  pose : Pose K O
  longitudinalVelocityMps : K
  lateralVelocityMps : K
  headingRateRps : K

namespace Columns

def ofEntries {β : Type} (entry : β → Entry K O) (points : List β) : Columns K O where
  pose := points.map fun point => (entry point).pose
  longitudinalVelocityMps := points.map fun point => (entry point).longitudinalVelocityMps
  lateralVelocityMps := points.map fun point => (entry point).lateralVelocityMps
  headingRateRps := points.map fun point => (entry point).headingRateRps

structure HasLength (columns : Columns K O) (length : ℕ) : Prop where
  pose : columns.pose.length = length
  longitudinalVelocityMps : columns.longitudinalVelocityMps.length = length
  lateralVelocityMps : columns.lateralVelocityMps.length = length
  headingRateRps : columns.headingRateRps.length = length

def position (columns : Columns K O) : List (Point K) :=
  columns.pose.map Pose.position

end Columns

def PathPoint.entry (point : PathPoint K O) : Entry K O :=
  ⟨point.pose, point.longitudinalVelocityMps, point.lateralVelocityMps, point.headingRateRps⟩

def TrajectoryPoint.entry (point : TrajectoryPoint K O) : Entry K O :=
  ⟨point.pose, point.longitudinalVelocityMps, point.lateralVelocityMps, point.headingRateRps⟩

def Path.columns (path : Path K O H) : Columns K O :=
  .ofEntries PathPoint.entry path.points

def PathWithLaneId.columns (path : PathWithLaneId K O H) : Columns K O :=
  .ofEntries (fun point => point.point.entry) path.points

def Trajectory.columns (trajectory : Trajectory K O H) : Columns K O :=
  .ofEntries TrajectoryPoint.entry trajectory.points

/-- The pipeline that the overloads have in common. -/
def resampleColumns [Inhabited O] (geometry : Trigonometry K O) (options : Options)
    (input : Columns K O) (resampledArclength : List K) : Except Failure (Columns K O) := do
  let inputArclength := inputArclength geometry input.position
  let closestSegmentIndices ← heldSegments options inputArclength resampledArclength
  let pose ← resamplePoseVector geometry options input.pose resampledArclength
  let vLon ← holdOrLerp options inputArclength resampledArclength closestSegmentIndices
    input.longitudinalVelocityMps
  let vLat ← holdOrLerp options inputArclength resampledArclength closestSegmentIndices
    input.lateralVelocityMps
  let headingRate ← lerp inputArclength input.headingRateRps resampledArclength
  return ⟨pose, vLon, vLat, headingRate⟩

variable {geometry : Trigonometry K O} {options : Options} {resampledArclength : List K}

/-- The intermediate results of the pipeline. -/
structure Resampled [Inhabited O] (geometry : Trigonometry K O) (options : Options)
    (input : Columns K O) (resampledArclength : List K) (indices : List ℕ)
    (output : Columns K O) : Prop where
  segments : heldSegments options (inputArclength geometry input.position) resampledArclength =
    .ok indices
  pose : resamplePoseVector geometry options input.pose resampledArclength = .ok output.pose
  longitudinalVelocityMps : holdOrLerp options (inputArclength geometry input.position)
    resampledArclength indices input.longitudinalVelocityMps = .ok output.longitudinalVelocityMps
  lateralVelocityMps : holdOrLerp options (inputArclength geometry input.position)
    resampledArclength indices input.lateralVelocityMps = .ok output.lateralVelocityMps
  headingRateRps : lerp (inputArclength geometry input.position) input.headingRateRps
    resampledArclength = .ok output.headingRateRps
  hasLength : output.HasLength resampledArclength.length

theorem Resampled.resampleColumns [Inhabited O] {input output : Columns K O} {indices : List ℕ}
    (hresampled : Resampled geometry options input resampledArclength indices output) :
    resampleColumns geometry options input resampledArclength = .ok output :=
  bind_eq_ok.mpr ⟨_, hresampled.segments, bind_eq_ok.mpr ⟨_, hresampled.pose, bind_eq_ok.mpr
    ⟨_, hresampled.longitudinalVelocityMps, bind_eq_ok.mpr ⟨_, hresampled.lateralVelocityMps,
      bind_eq_ok.mpr ⟨_, hresampled.headingRateRps, rfl⟩⟩⟩⟩⟩

variable [IsStrictOrderedRing K]

theorem Accepted.resampled [Inhabited O] (options : Options) {input : Columns K O}
    (hlength : input.HasLength input.pose.length)
    (haccepted : Accepted geometry input.position resampledArclength) :
    ∃ indices output, Resampled geometry options input resampledArclength indices output ∧
      ∀ k ∈ indices, k < input.pose.length := by
  have hpose : input.position.length = input.pose.length := List.length_map _
  obtain ⟨indices, hindices, hheld, hbound⟩ := haccepted.heldSegments_succeeds options
  obtain ⟨pose, hposes, hposeLength⟩ := haccepted.resamplePoseVector_succeeds options
  obtain ⟨vLon, hvLon, hvLonLength⟩ := haccepted.holdOrLerp_succeeds
    (hlength.longitudinalVelocityMps.trans hpose.symm) hheld hbound
  obtain ⟨vLat, hvLat, hvLatLength⟩ := haccepted.holdOrLerp_succeeds
    (hlength.lateralVelocityMps.trans hpose.symm) hheld hbound
  obtain ⟨headingRate, hheading, hheadingLength⟩ :=
    haccepted.lerp_succeeds (hlength.headingRateRps.trans hpose.symm)
  rw [hpose] at hbound
  exact ⟨indices, ⟨pose, vLon, vLat, headingRate⟩, ⟨hindices, hposes, hvLon, hvLat, hheading,
    hposeLength, hvLonLength, hvLatLength, hheadingLength⟩, hbound⟩

/-! ## The overloads -/

section

omit [Field K] [LinearOrder K] [IsStrictOrderedRing K]

theorem Columns.hasLength_ofEntries {β : Type} (entry : β → Entry K O) (points : List β) :
    (Columns.ofEntries entry points).HasLength (Columns.ofEntries entry points).pose.length := by
  constructor <;> simp [ofEntries]

structure Columns.Shows (columns : Columns K O) (i : ℕ) (entry : Entry K O) : Prop where
  pose : columns.pose[i]? = some entry.pose
  longitudinalVelocityMps : columns.longitudinalVelocityMps[i]? = some entry.longitudinalVelocityMps
  lateralVelocityMps : columns.lateralVelocityMps[i]? = some entry.lateralVelocityMps
  headingRateRps : columns.headingRateRps[i]? = some entry.headingRateRps

theorem Columns.HasLength.mapM_succeeds {output : Columns K O} {β : Type} {n : ℕ}
    {compose : ℕ → Except Failure β} (entry : β → Entry K O) (hlength : output.HasLength n)
    (hcompose : ∀ i < n, Succeeds (compose i) fun point => output.Shows i (entry point)) :
    Succeeds ((List.range n).mapM compose) fun points =>
      points.length = n ∧ Columns.ofEntries entry points = output := by
  have hshows : ∀ i < n, ∀ point, compose i = .ok point → output.Shows i (entry point) := by
    intro i hi point hpoint
    obtain ⟨other, hother, hentry⟩ := hcompose i hi
    cases hpoint.symm.trans hother
    exact hentry
  have hall : ∀ i ∈ List.range n, Succeeds (compose i) fun _ => True := fun i hi =>
    (hcompose i (List.mem_range.mp hi)).mono fun _ _ => trivial
  obtain ⟨points, hmap, hpoints⟩ := Succeeds.mapM hall
  have hpose := map_of_mapM_range hmap hlength.pose fun i hi point hpoint =>
    (hshows i hi point hpoint).pose
  have hvLon := map_of_mapM_range hmap hlength.longitudinalVelocityMps fun i hi point hpoint =>
    (hshows i hi point hpoint).longitudinalVelocityMps
  have hvLat := map_of_mapM_range hmap hlength.lateralVelocityMps fun i hi point hpoint =>
    (hshows i hi point hpoint).lateralVelocityMps
  have hheading := map_of_mapM_range hmap hlength.headingRateRps fun i hi point hpoint =>
    (hshows i hi point hpoint).headingRateRps
  refine ⟨points, hmap, hpoints.trans List.length_range, ?_⟩
  rw [ofEntries, hpose, hvLon, hvLat, hheading]

theorem Columns.HasLength.exists_entry {columns : Columns K O} {n i : ℕ}
    (hlength : columns.HasLength n) (hi : i < n) :
    ∃ entry : Entry K O, columns.Shows i entry :=
  ⟨⟨_, _, _, _⟩, List.getElem?_eq_getElem (hi.trans_eq hlength.pose.symm),
    List.getElem?_eq_getElem (hi.trans_eq hlength.longitudinalVelocityMps.symm),
    List.getElem?_eq_getElem (hi.trans_eq hlength.lateralVelocityMps.symm),
    List.getElem?_eq_getElem (hi.trans_eq hlength.headingRateRps.symm)⟩

end

theorem resamplePath_ok [Inhabited O] (options : Options) {inputPath : Path K O H}
    (haccepted : Accepted geometry inputPath.columns.position resampledArclength) :
    Succeeds (resamplePath geometry options inputPath resampledArclength) fun outputPath =>
      outputPath.points.length = resampledArclength.length ∧
        outputPath.header = inputPath.header ∧ outputPath.leftBound = inputPath.leftBound ∧
        resampleColumns geometry options inputPath.columns resampledArclength =
          .ok outputPath.columns := by
  obtain ⟨indices, output, hresampled, _⟩ :=
    haccepted.resampled options (Columns.hasLength_ofEntries _ _)
  have hlength := hresampled.hasLength
  have hposition : (inputPath.points.map PathPoint.pose).map Pose.position =
      inputPath.columns.position := rfl
  rw [resamplePath]
  dsimp only
  rw [if_neg (by rw [hposition, haccepted.arguments]; decide), hposition]
  refine .bind_eq hresampled.segments (.bind_eq hresampled.pose (.bind_eq
    hresampled.longitudinalVelocityMps (.bind_eq hresampled.lateralVelocityMps (.bind_eq
      hresampled.headingRateRps ?_))))
  rw [if_neg (not_not.mpr hlength.pose), hlength.pose]
  refine (hlength.mapM_succeeds PathPoint.entry fun i hi => ?_).bind
    fun points hpoints => .ok ⟨hpoints.1, rfl, rfl, ?_⟩
  · obtain ⟨entry, hentry⟩ := hlength.exists_entry hi
    exact .bind_eq (atIndex_eq_ok.mpr hentry.pose) (.bind_eq
      (atIndex_eq_ok.mpr hentry.longitudinalVelocityMps) (.bind_eq
        (atIndex_eq_ok.mpr hentry.lateralVelocityMps) (.bind_eq
          (atIndex_eq_ok.mpr hentry.headingRateRps) (.ok hentry))))
  · exact hresampled.resampleColumns.trans (congrArg Except.ok hpoints.2.symm)

theorem resampleTrajectory_ok [Inhabited O] (options : Options) {inputTrajectory : Trajectory K O H}
    (haccepted : Accepted geometry inputTrajectory.columns.position resampledArclength) :
    Succeeds (resampleTrajectory geometry options inputTrajectory resampledArclength)
      fun outputTrajectory =>
        outputTrajectory.points.length = resampledArclength.length ∧
          outputTrajectory.header = inputTrajectory.header ∧
          resampleColumns geometry options inputTrajectory.columns resampledArclength =
            .ok outputTrajectory.columns := by
  obtain ⟨indices, output, hresampled, hbound⟩ :=
    haccepted.resampled options (Columns.hasLength_ofEntries _ _)
  have hlength := hresampled.hasLength
  have hposition : (inputTrajectory.points.map TrajectoryPoint.pose).map Pose.position =
      inputTrajectory.columns.position := rfl
  have hpoints : inputTrajectory.columns.position.length = inputTrajectory.points.length := by
    simp [Trajectory.columns, Columns.ofEntries, Columns.position]
  have hsame {α : Type} (field : TrajectoryPoint K O → α) :
      (inputTrajectory.points.map field).length = inputTrajectory.columns.position.length := by
    rw [List.length_map, hpoints]
  obtain ⟨segments, hsegments, hheld, hsegmentsBound⟩ := haccepted.heldSegments_succeeds options
  cases hresampled.segments.symm.trans hsegments
  obtain ⟨acceleration, hacceleration, haccelerationLength⟩ := haccepted.holdOrLerp_succeeds
    (hsame TrajectoryPoint.accelerationMps2) hheld hsegmentsBound
  obtain ⟨frontWheel, hfrontWheel, hfrontWheelLength⟩ :=
    haccepted.lerp_succeeds (hsame TrajectoryPoint.frontWheelAngleRad)
  obtain ⟨rearWheel, hrearWheel, hrearWheelLength⟩ :=
    haccepted.lerp_succeeds (hsame TrajectoryPoint.rearWheelAngleRad)
  obtain ⟨time, htime, htimeLength⟩ := haccepted.lerp_succeeds (hsame TrajectoryPoint.timeFromStart)
  rw [resampleTrajectory]
  dsimp only
  rw [if_neg (by rw [hposition, haccepted.arguments]; decide), hposition]
  refine .bind_eq hresampled.segments (.bind_eq hresampled.pose (.bind_eq
    hresampled.longitudinalVelocityMps (.bind_eq hresampled.lateralVelocityMps (.bind_eq
      hresampled.headingRateRps (.bind_eq hacceleration (.bind_eq hfrontWheel (.bind_eq hrearWheel
        (.bind_eq htime ?_))))))))
  rw [if_neg (not_not.mpr hlength.pose), hlength.pose]
  refine (hlength.mapM_succeeds TrajectoryPoint.entry fun i hi => ?_).bind
    fun points hpoints => .ok ⟨hpoints.1, rfl, ?_⟩
  · obtain ⟨entry, hentry⟩ := hlength.exists_entry hi
    obtain ⟨accelerationAt, hat⟩ := exists_atIndex (hi.trans_eq haccelerationLength.symm)
    obtain ⟨frontWheelAt, hfrontAt⟩ := exists_atIndex (hi.trans_eq hfrontWheelLength.symm)
    obtain ⟨rearWheelAt, hrearAt⟩ := exists_atIndex (hi.trans_eq hrearWheelLength.symm)
    obtain ⟨timeAt, htimeAt⟩ := exists_atIndex (hi.trans_eq htimeLength.symm)
    exact .bind_eq (atIndex_eq_ok.mpr hentry.pose) (.bind_eq
      (atIndex_eq_ok.mpr hentry.longitudinalVelocityMps) (.bind_eq
        (atIndex_eq_ok.mpr hentry.lateralVelocityMps) (.bind_eq
          (atIndex_eq_ok.mpr hentry.headingRateRps) (.bind_eq hat (.bind_eq hfrontAt
            (.bind_eq hrearAt (.bind_eq htimeAt (.ok hentry))))))))
  · exact hresampled.resampleColumns.trans (congrArg Except.ok hpoints.2.symm)

section
omit [IsStrictOrderedRing K]

/-- The closest segments matter only where values are held. -/
theorem holdOrLerp_eq {inputArclength values : List K} {held indices : List ℕ}
    (hheld : heldSegments options inputArclength resampledArclength = .ok held)
    (hindices : calcClosestSegmentIndices inputArclength resampledArclength holdThreshold =
      .ok indices) :
    holdOrLerp options inputArclength resampledArclength indices values =
      holdOrLerp options inputArclength resampledArclength held values := by
  unfold holdOrLerp heldSegments at *
  split
  · rename_i hhold
    rw [if_pos hhold, hindices] at hheld
    rw [Except.ok.inj hheld]
  · rfl

theorem interpolateLaneIds_succeeds {points : List (PathPointWithLaneId K O)}
    {inputArclength : List K} (htwo : 2 ≤ points.length)
    (hlength : inputArclength.length = points.length) (closestSegmentIdx : ℕ) (arclength : K) :
    Succeeds (interpolateLaneIds points inputArclength closestSegmentIdx arclength)
      fun _ => True := by
  have hseg : min closestSegmentIdx (points.length - 2) + 1 < points.length := by omega
  obtain ⟨prevPoint, hprevPoint⟩ := exists_atIndex (Nat.lt_of_succ_lt hseg)
  obtain ⟨nextPoint, hnextPoint⟩ := exists_atIndex hseg
  obtain ⟨prevArclength, hprev⟩ := exists_atIndex ((Nat.lt_of_succ_lt hseg).trans_eq hlength.symm)
  obtain ⟨nextArclength, hnext⟩ := exists_atIndex (hseg.trans_eq hlength.symm)
  refine .bind_eq hprevPoint (.bind_eq hnextPoint (.bind_eq hprev (.bind_eq hnext ?_)))
  split
  · exact .ok trivial
  · split
    · exact .ok trivial
    · exact .ok trivial

end

theorem resamplePathWithLaneId_ok [Inhabited O] (options : Options) {inputPath : PathWithLaneId K O H}
    (haccepted : Accepted geometry inputPath.columns.position
      (insertLanePoints geometry inputPath.points resampledArclength)) :
    Succeeds (resamplePathWithLaneId geometry options inputPath resampledArclength)
      fun outputPath =>
        outputPath.points.length =
            (insertLanePoints geometry inputPath.points resampledArclength).length ∧
          outputPath.header = inputPath.header ∧ outputPath.leftBound = inputPath.leftBound ∧
          outputPath.rightBound = inputPath.rightBound ∧
          resampleColumns geometry options inputPath.columns
              (insertLanePoints geometry inputPath.points resampledArclength) =
            .ok outputPath.columns := by
  generalize hinserted : insertLanePoints geometry inputPath.points resampledArclength =
    resamplingArclength at haccepted ⊢
  obtain ⟨indices, output, hresampled, hbound⟩ :=
    haccepted.resampled options (Columns.hasLength_ofEntries _ _)
  have hlength := hresampled.hasLength
  have hposition : (inputPath.points.map fun point => point.point.pose).map Pose.position =
      inputPath.columns.position := rfl
  have hpoints : inputPath.columns.position.length = inputPath.points.length := by
    simp [PathWithLaneId.columns, Columns.ofEntries, Columns.position]
  have hsame {α : Type} (field : PathPointWithLaneId K O → α) :
      (inputPath.points.map field).length = inputPath.columns.position.length := by
    rw [List.length_map, hpoints]
  have htwo := haccepted.checked.twoPoints
  have hbase := haccepted.length_base
  rw [hpoints] at htwo hbase
  obtain ⟨segments, hsegments, hsegmentsLength, hsegmentsBound⟩ := haccepted.segments_succeed
  obtain ⟨isFinal, hisFinal, hisFinalLength⟩ := haccepted.zeroOrderHoldAt_succeeds
    (hsame fun point => point.point.isFinal) hsegmentsBound
  have hvLon := (holdOrLerp_eq hresampled.segments hsegments).trans
    hresampled.longitudinalVelocityMps
  have hvLat := (holdOrLerp_eq hresampled.segments hsegments).trans hresampled.lateralVelocityMps
  have hlaneIdsAt : ∀ i ∈ List.range resamplingArclength.length, Succeeds (do
      let closestSegmentIdx ← atIndex segments i
      let arclength ← atIndex resamplingArclength i
      interpolateLaneIds inputPath.points (inputArclength geometry inputPath.columns.position)
        closestSegmentIdx arclength) fun _ => True := by
    intro i hi
    have hi := List.mem_range.mp hi
    obtain ⟨segment, hsegment⟩ := exists_atIndex (hi.trans_eq hsegmentsLength.symm)
    obtain ⟨arclength, harclength⟩ := exists_atIndex hi
    exact .bind_eq hsegment (.bind_eq harclength (interpolateLaneIds_succeeds htwo hbase _ _))
  obtain ⟨laneIds, hlaneIds, hlaneIdsLength⟩ := Succeeds.mapM hlaneIdsAt
  rw [List.length_range] at hlaneIdsLength
  have hlast : ¬ (inputArclength geometry inputPath.columns.position).getLastD 0 <
      resamplingArclength.getLastD 0 := by
    rw [List.getLastD_eq_getLast?, getLast?_inputArclength]
    exact not_lt.mpr haccepted.checked.range
  rw [resamplePathWithLaneId]
  dsimp only
  rw [hinserted, if_neg (by rw [hposition, haccepted.arguments]; decide), hposition, if_neg hlast]
  refine .bind_eq hsegments (.bind_eq hresampled.pose (.bind_eq hvLon (.bind_eq hvLat (.bind_eq
    hresampled.headingRateRps (.bind_eq hisFinal (.bind_eq hlaneIds ?_))))))
  rw [if_neg (not_not.mpr hlength.pose), hlength.pose]
  refine (hlength.mapM_succeeds (fun point => point.point.entry) fun i hi => ?_).bind
    fun points hpoints => .ok ⟨hpoints.1, rfl, rfl, rfl, ?_⟩
  · obtain ⟨entry, hentry⟩ := hlength.exists_entry hi
    obtain ⟨isFinalAt, hfinalAt⟩ :=
      exists_atIndex (hi.trans_eq (hisFinalLength.trans hsegmentsLength).symm)
    obtain ⟨laneIdsAt, hlaneAt⟩ := exists_atIndex (hi.trans_eq hlaneIdsLength.symm)
    exact .bind_eq (atIndex_eq_ok.mpr hentry.pose) (.bind_eq
      (atIndex_eq_ok.mpr hentry.longitudinalVelocityMps) (.bind_eq
        (atIndex_eq_ok.mpr hentry.lateralVelocityMps) (.bind_eq
          (atIndex_eq_ok.mpr hentry.headingRateRps) (.bind_eq hfinalAt (.bind_eq hlaneAt
            (.ok hentry))))))
  · exact hresampled.resampleColumns.trans (congrArg Except.ok hpoints.2.symm)

/-- The overloads give one point for each arc length, keep the other fields, and agree on equal
columns at equal arc lengths. -/
theorem resample_fields_agree [Inhabited O] {G I : Type} (options : Options)
    (path : Path K O H) (laned : PathWithLaneId K O G) (trajectory : Trajectory K O I)
    (resampledArclength : List K) :
    (Accepted geometry path.columns.position resampledArclength →
      Succeeds (resamplePath geometry options path resampledArclength) fun output =>
        output.points.length = resampledArclength.length ∧ output.header = path.header ∧
          output.leftBound = path.leftBound) ∧
    (Accepted geometry trajectory.columns.position resampledArclength →
      Succeeds (resampleTrajectory geometry options trajectory resampledArclength) fun output =>
        output.points.length = resampledArclength.length ∧ output.header = trajectory.header) ∧
    (Accepted geometry laned.columns.position resampledArclength →
      Accepted geometry laned.columns.position
        (insertLanePoints geometry laned.points resampledArclength)) ∧
    (Accepted geometry laned.columns.position
        (insertLanePoints geometry laned.points resampledArclength) →
      Succeeds (resamplePathWithLaneId geometry options laned resampledArclength) fun output =>
        output.points.length = (insertLanePoints geometry laned.points resampledArclength).length ∧
          output.header = laned.header ∧ output.leftBound = laned.leftBound ∧
          output.rightBound = laned.rightBound) ∧
    (Accepted geometry path.columns.position resampledArclength →
      trajectory.columns = path.columns →
      (resampleTrajectory geometry options trajectory resampledArclength).map Trajectory.columns =
        (resamplePath geometry options path resampledArclength).map Path.columns) ∧
    (Accepted geometry path.columns.position
        (insertLanePoints geometry laned.points resampledArclength) →
      laned.columns = path.columns →
      (resamplePathWithLaneId geometry options laned resampledArclength).map
          PathWithLaneId.columns =
        (resamplePath geometry options path
          (insertLanePoints geometry laned.points resampledArclength)).map Path.columns) := by
  refine ⟨fun haccepted => ?_, fun haccepted => ?_, fun haccepted =>
    haccepted.insertLanePoints laned.points, fun haccepted => ?_, fun haccepted hcolumns => ?_,
    fun haccepted hcolumns => ?_⟩
  · exact (resamplePath_ok options haccepted).mono fun output ⟨hpoints, hheader, hleft, _⟩ =>
      ⟨hpoints, hheader, hleft⟩
  · exact (resampleTrajectory_ok options haccepted).mono fun output ⟨hpoints, hheader, _⟩ =>
      ⟨hpoints, hheader⟩
  · exact (resamplePathWithLaneId_ok options haccepted).mono
      fun output ⟨hpoints, hheader, hleft, hright, _⟩ => ⟨hpoints, hheader, hleft, hright⟩
  · obtain ⟨output, houtput, _, _, _, hpath⟩ := resamplePath_ok options haccepted
    rw [← hcolumns] at haccepted
    obtain ⟨other, hother, _, _, htrajectory⟩ :=
      resampleTrajectory_ok options haccepted
    rw [hcolumns, hpath] at htrajectory
    rw [houtput, hother]
    exact htrajectory.symm
  · obtain ⟨output, houtput, _, _, _, hpath⟩ := resamplePath_ok options haccepted
    rw [← hcolumns] at haccepted
    obtain ⟨other, hother, _, _, _, _, hlaned⟩ :=
      resamplePathWithLaneId_ok options haccepted
    rw [hcolumns, hpath] at hlaned
    rw [houtput, hother]
    exact hlaned.symm

def straightPoint (x : ℚ) : PathPoint ℚ Unit :=
  ⟨Common.MotionUtils.poseAt x 0, 1, 0, 0, false⟩

def straightPath : Path ℚ Unit ℕ :=
  ⟨7, [straightPoint 0, straightPoint 1, straightPoint 2], [], []⟩

def straightLaned : PathWithLaneId ℚ Unit ℕ :=
  ⟨7, [⟨straightPoint 0, [1]⟩, ⟨straightPoint 1, [1, 2]⟩, ⟨straightPoint 2, [2]⟩], [], []⟩

def straightTrajectory : Trajectory ℚ Unit ℕ :=
  ⟨7, straightPath.points.map fun point => ⟨0, point.pose, 1, 0, 0, 0, 0, 0⟩⟩

def straightOptions : Options := ⟨true, true, true⟩

theorem accepted_straightPath :
    Accepted Common.MotionUtils.rationalTrigonometry straightPath.columns.position [0, 2] where
  arguments := by decide +kernel
  sorted := by decide +kernel
  front := by
    intro first hfirst
    cases hfirst
    decide +kernel

/-- The path and the trajectory get the same poses and velocities. -/
theorem resample_fields_straight :
    (resampleTrajectory Common.MotionUtils.rationalTrigonometry straightOptions
        straightTrajectory [0, 2]).map Trajectory.columns =
      (resamplePath Common.MotionUtils.rationalTrigonometry straightOptions straightPath
        [0, 2]).map Path.columns :=
  (resample_fields_agree straightOptions straightPath straightLaned straightTrajectory
    [0, 2]).2.2.2.2.1 accepted_straightPath (by decide +kernel)

/-- The point with two lane ids is resampled although its arc length is not in the list. -/
theorem resamplePathWithLaneId_adds_point :
    Accepted Common.MotionUtils.rationalTrigonometry straightLaned.columns.position [0, 2] ∧
      (resamplePathWithLaneId Common.MotionUtils.rationalTrigonometry straightOptions
        straightLaned [0, 2]).map (fun output => output.points.length) = .ok 3 :=
  ⟨accepted_straightPath, by decide +kernel⟩

end

/-!
## Arc lengths at an interval

A path is resampled at the multiples of an interval and at its end, into which the stop point and
the points with several lane ids are put.  Each of them replaces an arc length that is close, so an
arc length is kept when no other one that is put in is close to it.
-/

open Common.MotionUtils (Point Pose Trigonometry calcDistance2d calcSignedArcLength)

section

variable {K O H : Type} [Field K] [LinearOrder K] (geometry : Trigonometry K O)

def searchZeroVelocityIndex (points : List (PathPoint K O)) : Option ℕ :=
  points.findIdx? fun point => |point.longitudinalVelocityMps| < 1 / 1000

def calcDistanceToForwardStopPoint (points : List (PathPoint K O)) : Option K :=
  (searchZeroVelocityIndex points).map fun closestStopIdx =>
    max 0 (calcSignedArcLength geometry (points.map PathPoint.pose) 0 closestStopIdx)

/-- The loop over the multiples of the interval; it has not ended when the given number of rounds
is over. -/
def sampleLoop (resampleInterval inputPathLen : K) : ℕ → K → List K → Option (List K)
  | 0, _, _ => none
  | rounds + 1, s, resamplingArclength =>
    if s < inputPathLen then
      sampleLoop resampleInterval inputPathLen rounds (s + resampleInterval)
        (resamplingArclength ++ [s])
    else some resamplingArclength

def insertTerminal (inputPathLen : K) (resamplingArclength : List K) : List K :=
  if inputPathLen - resamplingArclength.getLastD 0 < overlapThreshold then
    resamplingArclength.dropLast ++ [inputPathLen]
  else resamplingArclength ++ [inputPathLen]

def insertStopPoint (distanceToStopPoint : Option K) (resamplingArclength : List K) : List K :=
  match distanceToStopPoint with
  | some distance => insertArcLength distance resamplingArclength
  | none => resamplingArclength

def stopPointOf (inputPath : PathWithLaneId K O H) (resampleInputPathStopPoint : Bool) : Option K :=
  if resampleInputPathStopPoint then
    calcDistanceToForwardStopPoint geometry (inputPath.points.map PathPointWithLaneId.point)
  else none

/-- `resamplePath` of a path with lane ids at an interval. -/
def resamplePathWithInterval [Inhabited O] (rounds : ℕ) (options : Options)
    (inputPath : PathWithLaneId K O H) (resampleInterval : K) (resampleInputPathStopPoint : Bool) :
    Option (Except Interpolation.Failure (PathWithLaneId K O H)) :=
  let positions := inputPath.points.map fun point => point.point.pose.position
  if !validateInterval geometry positions resampleInterval then some (.ok inputPath)
  else do
    let inputPathLen := calcArcLength geometry positions
    let resamplingArclength ← sampleLoop resampleInterval inputPathLen rounds 0 []
    if resamplingArclength.isEmpty then return .ok inputPath
    else
      return resamplePathWithLaneId geometry options inputPath
        (insertStopPoint (stopPointOf geometry inputPath resampleInputPathStopPoint)
          (insertTerminal inputPathLen resamplingArclength))

/-! ## Insertions -/

section

variable {geometry} {target distance : K} {values : List K}

/-- An arc length is in the list or between two entries. -/
def Spanned (target : K) (values : List K) : Prop :=
  target ∈ values ∨ (∃ low ∈ values, low ≤ target) ∧ ∃ high ∈ values, target < high

/-- Another arc length that is put in is not close. -/
def Apart (target distance : K) : Prop :=
  distance = target ∨ overlapThreshold ≤ |distance - target|

variable [IsStrictOrderedRing K]

theorem Spanned.insertArcLength (hspanned : Spanned target values)
    (hapart : Apart target distance) : Spanned target (insertArcLength distance values) := by
  rcases hspanned with hmem | ⟨⟨low, hlowMem, hlow⟩, high, hhighMem, hhigh⟩
  · exact .inl (mem_insertArcLength_of_mem hmem hapart)
  · rcases insertArcLength_cases distance values with
      hsame | ⟨before, prev, following, middle, later, hlist, hbetween, hreplaces, heq⟩
    · rw [hsame]
      exact .inr ⟨⟨low, hlowMem, hlow⟩, high, hhighMem, hhigh⟩
    · rcases hapart with rfl | hfar
      · exact .inl (by simp [heq, hreplaces.mem])
      · have hprev := hbetween.prev_le
        have hfollowing := hbetween.lt_following
        have hmem {value : K} (hvalue : value ∈ values) :
            value ∈ before ++ middle ++ later ∨ value = prev ∨ value = following := by
          rw [hlist] at hvalue
          simp only [List.mem_append, List.mem_cons, List.not_mem_nil, or_false] at hvalue ⊢
          tauto
        have hdistance := hreplaces.mem
        have hmiddle {value : K} (hvalue : value ∈ middle) : value ∈ before ++ middle ++ later := by
          simp [hvalue]
        rw [heq]
        refine .inr ⟨?_, ?_⟩
        · rcases hmem hlowMem with hkept | rfl | rfl
          · exact ⟨low, hkept, hlow⟩
          · cases hreplaces with
            | prev hclose =>
              refine ⟨distance, hmiddle List.mem_cons_self, ?_⟩
              by_contra hlt
              rw [abs_of_nonneg (by linarith)] at hclose hfar
              linarith
            | following => exact ⟨low, hmiddle List.mem_cons_self, hlow⟩
            | neither => exact ⟨low, hmiddle List.mem_cons_self, hlow⟩
          · exact ⟨distance, hmiddle hdistance, (hfollowing.trans_le hlow).le⟩
        · rcases hmem hhighMem with hkept | rfl | rfl
          · exact ⟨high, hkept, hhigh⟩
          · exact ⟨distance, hmiddle hdistance, hhigh.trans_le hprev⟩
          · cases hreplaces with
            | prev => exact ⟨high, hmiddle (List.mem_cons_of_mem _ List.mem_cons_self), hhigh⟩
            | following _ hclose =>
              refine ⟨distance, hmiddle hdistance, ?_⟩
              by_contra hle
              rw [abs_of_nonneg (by linarith)] at hclose
              rw [abs_of_nonpos (by linarith)] at hfar
              linarith
            | neither =>
              exact ⟨high, hmiddle (List.mem_cons_of_mem _ (List.mem_cons_of_mem _
                List.mem_cons_self)), hhigh⟩

omit [IsStrictOrderedRing K] in
theorem Spanned.mem_insertArcLength (hspanned : Spanned target values)
    (hsorted : values.Pairwise (· < ·)) : target ∈ Resample.insertArcLength target values := by
  rcases hspanned with hmem | ⟨⟨low, hlowMem, hlow⟩, high, hhighMem, hhigh⟩
  · exact mem_insertArcLength_of_mem hmem (.inl rfl)
  · have hne : values ≠ [] := List.ne_nil_of_mem hlowMem
    refine Resample.mem_insertArcLength (List.head?_eq_some_head hne)
      (List.getLast?_eq_some_getLast hne) ?_ ?_
    · exact ((hsorted.imp le_of_lt).rel_head hlowMem).trans hlow
    · exact hhigh.trans_le ((hsorted.imp le_of_lt).rel_getLast hhighMem)

/-- Arc lengths in order that start and end somewhere. -/
structure Arranged (inputPathLen : K) (values : List K) : Prop where
  two : 2 ≤ values.length
  sorted : values.Pairwise (· < ·)
  bounds : ∀ value ∈ values, 0 ≤ value ∧ value ≤ inputPathLen

variable {inputPathLen : K}

theorem Arranged.insertArcLength (harranged : Arranged inputPathLen values)
    (distance : K) : Arranged inputPathLen (insertArcLength distance values) where
  two := harranged.two.trans length_le_insertArcLength
  sorted := pairwise_insertArcLength id (fun hlt hle => hlt.trans_le hle) (fun hlt => hlt.trans)
    harranged.sorted
  bounds := bounds_insertArcLength harranged.bounds

def insertArcLengths (distances values : List K) : List K :=
  distances.foldl (fun values distance => Resample.insertArcLength distance values) values

theorem Arranged.insertArcLengths (harranged : Arranged inputPathLen values)
    (distances : List K) : Arranged inputPathLen (Resample.insertArcLengths distances values) := by
  induction distances generalizing values with
  | nil => exact harranged
  | cons distance later ih => exact ih (harranged.insertArcLength distance)

/-- What is in the list, or put in, stays when all others are not close. -/
theorem Arranged.mem_insertArcLengths (harranged : Arranged inputPathLen values)
    {distances : List K} (hspanned : Spanned target values)
    (hapart : ∀ distance ∈ distances, Apart target distance)
    (hmem : target ∈ values ∨ target ∈ distances) :
    target ∈ Resample.insertArcLengths distances values := by
  induction distances generalizing values with
  | nil => exact hmem.resolve_right List.not_mem_nil
  | cons distance later ih =>
    obtain ⟨hfirst, hlater⟩ := List.forall_mem_cons.mp hapart
    refine ih (harranged.insertArcLength distance) (hspanned.insertArcLength hfirst) hlater ?_
    rcases hmem with hvalues | hdistances
    · exact .inl (mem_insertArcLength_of_mem hvalues hfirst)
    · rcases List.mem_cons.mp hdistances with rfl | hlaterMem
      · exact .inl (hspanned.mem_insertArcLength harranged.sorted)
      · exact .inr hlaterMem

end

def laneArcLengths (points : List (PathPointWithLaneId K O)) : List K :=
  points.zipIdx.filterMap fun (point, i) =>
    if point.laneIds.length < 2 then none
    else some (calcSignedArcLength geometry (points.map fun point => point.point.pose) 0 i)

variable {geometry}

omit [LinearOrder K] in
theorem mem_laneArcLengths {points : List (PathPointWithLaneId K O)} {value : K} :
    value ∈ laneArcLengths geometry points ↔ ∃ i point, points[i]? = some point ∧
      2 ≤ point.laneIds.length ∧
      calcSignedArcLength geometry (points.map fun point => point.point.pose) 0 i = value := by
  simp only [laneArcLengths, List.mem_filterMap, Prod.exists, List.mem_zipIdx_iff_getElem?]
  constructor
  · rintro ⟨point, i, hpoint, hvalue⟩
    split at hvalue
    · cases hvalue
    · rename_i hids
      exact ⟨i, point, hpoint, not_lt.mp hids, Option.some.inj hvalue⟩
  · rintro ⟨i, point, hpoint, hids, rfl⟩
    exact ⟨point, i, hpoint, if_neg (not_lt.mpr hids)⟩

theorem insertLanePoints_eq (points : List (PathPointWithLaneId K O)) (resampledArclength : List K) :
    insertLanePoints geometry points resampledArclength =
      insertArcLengths (laneArcLengths geometry points) resampledArclength := by
  rw [insertLanePoints, insertArcLengths, laneArcLengths, List.foldl_filterMap]
  refine congrArg (fun f => List.foldl f _ _) (funext₂ fun values entry => ?_)
  obtain ⟨point, i⟩ := entry
  dsimp only
  split
  · rfl
  · rfl

variable {resampleInterval inputPathLen : K} [IsStrictOrderedRing K]

theorem sampleLoop_isSome {rounds : ℕ} {s : K} (hreached : inputPathLen ≤ s + rounds * resampleInterval)
    (resamplingArclength : List K) :
    ∃ result, sampleLoop resampleInterval inputPathLen (rounds + 1) s resamplingArclength =
      some result := by
  induction rounds generalizing s resamplingArclength with
  | zero =>
    rw [Nat.cast_zero, zero_mul, add_zero] at hreached
    exact ⟨_, if_neg (not_lt.mpr hreached)⟩
  | succ rounds ih =>
    rw [sampleLoop]
    split
    · refine ih ?_ _
      rw [Nat.cast_succ] at hreached
      linarith
    · exact ⟨_, rfl⟩

omit [IsStrictOrderedRing K] in
/-- More rounds do not change the result. -/
theorem sampleLoop_mono {rounds more : ℕ} (hle : rounds ≤ more) {s : K}
    {resamplingArclength result : List K}
    (hloop : sampleLoop resampleInterval inputPathLen rounds s resamplingArclength = some result) :
    sampleLoop resampleInterval inputPathLen more s resamplingArclength = some result := by
  induction rounds generalizing more s resamplingArclength with
  | zero => cases hloop
  | succ rounds ih =>
    obtain ⟨more, rfl⟩ := Nat.exists_eq_add_of_le' (Nat.one_le_of_lt hle)
    rw [sampleLoop] at hloop ⊢
    split at hloop
    · rename_i hlt
      rw [if_pos hlt]
      exact ih (by omega) hloop
    · rename_i hnot
      rwa [if_neg hnot]

/-- Multiples of the interval below a length. -/
structure Sampled (inputPathLen s : K) (values : List K) : Prop where
  sorted : values.Pairwise (· < ·)
  bounds : ∀ value ∈ values, 0 ≤ value ∧ value < inputPathLen ∧ value < s
  head : values.head? = some 0 ∨ values = [] ∧ s = 0

theorem sampled_sampleLoop (hinterval : 0 < resampleInterval) {rounds : ℕ} {s : K}
    {values result : List K} (hs : 0 ≤ s) (hsampled : Sampled inputPathLen s values)
    (hloop : sampleLoop resampleInterval inputPathLen rounds s values = some result) :
    ∃ last, Sampled inputPathLen last result ∧ inputPathLen ≤ last := by
  induction rounds generalizing s values with
  | zero => cases hloop
  | succ rounds ih =>
    rw [sampleLoop] at hloop
    split at hloop
    · rename_i hlt
      refine ih (by linarith) ⟨?_, ?_, ?_⟩ hloop
      · refine List.pairwise_append.mpr ⟨hsampled.sorted, List.pairwise_singleton _ _, ?_⟩
        intro value hvalue other hother
        rw [List.mem_singleton.mp hother]
        exact (hsampled.bounds value hvalue).2.2
      · intro value hvalue
        rcases List.mem_append.mp hvalue with hvalue | hvalue
        · have hbounds := hsampled.bounds value hvalue
          exact ⟨hbounds.1, hbounds.2.1, by linarith [hbounds.2.2]⟩
        · rw [List.mem_singleton.mp hvalue]
          exact ⟨hs, hlt, by linarith⟩
      · rcases hsampled.head with hhead | ⟨rfl, rfl⟩
        · exact .inl (by rw [List.head?_append, hhead]; rfl)
        · exact .inl rfl
    · rename_i hnot
      cases hloop
      exact ⟨s, hsampled, not_lt.mp hnot⟩

end

open Library.PrefixSums

variable {K O H : Type} [Field K] [LinearOrder K] {geometry : Trigonometry K O}
  [IsStrictOrderedRing K]

structure CheckedInterval (geometry : Trigonometry K O) (positions : List (Point K))
    (resampleInterval : K) : Prop where
  two : 2 ≤ positions.length
  interval : overlapThreshold ≤ resampleInterval
  apart : ∀ ds ∈ positions.zipWith (calcDistance2d geometry) positions.tail, closeSThreshold ≤ ds

omit [IsStrictOrderedRing K] in
theorem validateInterval_iff {positions : List (Point K)} {resampleInterval : K} :
    validateInterval geometry positions resampleInterval = true ↔
      CheckedInterval geometry positions resampleInterval := by
  simp only [validateInterval, validateSize, validatePointsDuplication, Bool.and_eq_true,
    Bool.not_eq_true', decide_eq_false_iff_not, not_lt, List.all_eq_true]
  constructor
  · rintro ⟨⟨htwo, hinterval⟩, hapart⟩
    exact ⟨htwo, hinterval, hapart⟩
  · exact fun hchecked => ⟨⟨hchecked.two, hchecked.interval⟩, hchecked.apart⟩

namespace CheckedInterval

variable {positions : List (Point K)} {resampleInterval : K}
  (hchecked : CheckedInterval geometry positions resampleInterval)

include hchecked

theorem calcArcLength_pos : 0 < calcArcLength geometry positions := by
  have htwo := hchecked.two
  have hapart := hchecked.apart
  match positions with
  | [] => simp at htwo
  | [_] => simp at htwo
  | first :: second :: later =>
    rw [calcArcLength]
    have hpositive : ∀ ds ∈ (first :: second :: later).zipWith (calcDistance2d geometry)
        (second :: later), 0 < ds :=
      fun ds hds => closeSThreshold_pos.trans_le (hapart ds hds)
    exact List.sum_pos _ hpositive (List.cons_ne_nil _ _)

/-- A point lies between the ends of the path. -/
theorem calcSignedArcLength_bounds {poses : List (Pose K O)}
    (hposes : poses.map Pose.position = positions) (i : ℕ) :
    0 ≤ calcSignedArcLength geometry poses 0 i ∧
      calcSignedArcLength geometry poses 0 i ≤ calcArcLength geometry positions := by
  have hlengths : ∀ length ∈ MotionUtils.segmentLengths geometry poses, 0 ≤ length := by
    intro length hlength
    rw [MotionUtils.segmentLengths, hposes] at hlength
    exact (closeSThreshold_pos.trans_le (hchecked.apart length hlength)).le
  have hmono := prefixSum_mono hlengths
  rw [MotionUtils.calcSignedArcLength_eq (Nat.zero_le i), prefixSum_zero, sub_zero]
  constructor
  · exact hmono (Nat.zero_le i)
  · have hall : prefixSum (MotionUtils.segmentLengths geometry poses)
        (max i (MotionUtils.segmentLengths geometry poses).length) =
          calcArcLength geometry positions := by
      rw [prefixSum, List.take_of_length_le (le_max_right _ _), MotionUtils.segmentLengths, hposes]
      rfl
    rw [← hall]
    exact hmono (le_max_left _ _)

end CheckedInterval

variable {values : List K}

omit [IsStrictOrderedRing K] in
theorem insertTerminal_cases {inputPathLen last : K} (hsampled : Sampled inputPathLen last values)
    (hhead : values.head? = some 0) (hpositive : 0 < inputPathLen) :
    (inputPathLen < overlapThreshold ∧ insertTerminal inputPathLen values = [inputPathLen]) ∨
      Arranged inputPathLen (insertTerminal inputPathLen values) ∧
        0 ∈ insertTerminal inputPathLen values ∧
        inputPathLen ∈ insertTerminal inputPathLen values := by
  have harranged {front : List K} (hsub : front.Sublist values) (hzero : 0 ∈ front) :
      Arranged inputPathLen (front ++ [inputPathLen]) ∧ 0 ∈ front ++ [inputPathLen] ∧
        inputPathLen ∈ front ++ [inputPathLen] := by
    refine ⟨⟨?_, ?_, ?_⟩, List.mem_append_left _ hzero, by simp⟩
    · have hlength := List.length_pos_of_mem hzero
      rw [List.length_append, List.length_singleton]
      omega
    · refine List.pairwise_append.mpr ⟨hsampled.sorted.sublist hsub, List.pairwise_singleton _ _, ?_⟩
      intro value hvalue other hother
      rw [List.mem_singleton.mp hother]
      exact (hsampled.bounds value (hsub.subset hvalue)).2.1
    · intro value hvalue
      rcases List.mem_append.mp hvalue with hvalue | hvalue
      · have hbounds := hsampled.bounds value (hsub.subset hvalue)
        exact ⟨hbounds.1, hbounds.2.1.le⟩
      · rw [List.mem_singleton.mp hvalue]
        exact ⟨hpositive.le, le_rfl⟩
  rw [insertTerminal]
  split
  · rename_i hclose
    match values with
    | [] => cases hhead
    | [zero] =>
      cases hhead
      rw [List.getLastD_cons, List.getLastD_nil, sub_zero] at hclose
      exact .inl ⟨hclose, rfl⟩
    | zero :: second :: later =>
      cases hhead
      exact .inr (harranged (List.dropLast_sublist _) List.mem_cons_self)
  · exact .inr (harranged (List.Sublist.refl _) (List.mem_of_mem_head? hhead))

/-! ## The list behind the insertions -/

variable {inputPathLen : K}

theorem Arranged.insertStopPoint (harranged : Arranged inputPathLen values) (stop : Option K) :
    Arranged inputPathLen (insertStopPoint stop values) := by
  cases stop with
  | none => exact harranged
  | some distance => exact harranged.insertArcLength distance

structure Handed (inputPathLen : K) (stop : Option K) (lanes handed : List K) : Prop where
  sorted : handed.Pairwise (· < ·)
  bounds : ∀ value ∈ handed, 0 ≤ value ∧ value ≤ inputPathLen
  front : (∀ other ∈ stop.toList ++ lanes, Apart 0 other) → handed.head? = some 0
  back : (∀ other ∈ stop.toList ++ lanes, Apart inputPathLen other) →
    handed.getLast? = some inputPathLen
  stopPoint : ∀ distance, stop = some distance → (∀ other ∈ lanes, Apart distance other) →
    distance ∈ handed
  lanePoints : ∀ distance ∈ lanes, (∀ other ∈ stop.toList ++ lanes, Apart distance other) →
    distance ∈ handed

theorem handed_of_arranged {values lanes : List K} {stop : Option K}
    (harranged : Arranged inputPathLen values) (hzero : 0 ∈ values) (hend : inputPathLen ∈ values)
    (hstop : ∀ distance, stop = some distance → 0 ≤ distance ∧ distance ≤ inputPathLen)
    (hlanes : ∀ distance ∈ lanes, 0 ≤ distance ∧ distance ≤ inputPathLen) :
    Handed inputPathLen stop lanes (insertArcLengths lanes (insertStopPoint stop values)) := by
  have hspanned {target : K} (hbounds : 0 ≤ target ∧ target ≤ inputPathLen) :
      Spanned target values := by
    rcases hbounds.2.lt_or_eq with hlt | rfl
    · exact .inr ⟨⟨0, hzero, hbounds.1⟩, inputPathLen, hend, hlt⟩
    · exact .inl hend
  have heq : insertArcLengths lanes (insertStopPoint stop values) =
      insertArcLengths (stop.toList ++ lanes) values := by
    cases stop with
    | none => rfl
    | some distance => rfl
  have hall := harranged.insertArcLengths (stop.toList ++ lanes)
  have hpositive : 0 ≤ inputPathLen := (harranged.bounds 0 hzero).2
  constructor
  case sorted => rw [heq]; exact hall.sorted
  case bounds => rw [heq]; exact hall.bounds
  case front =>
    intro hapart
    have hmem := harranged.mem_insertArcLengths (hspanned ⟨le_rfl, hpositive⟩) hapart (.inl hzero)
    have hne := List.ne_nil_of_mem hmem
    have hle := (hall.sorted.imp le_of_lt).rel_head hmem
    rw [heq, List.head?_eq_some_head hne, le_antisymm hle (hall.bounds _ (List.head_mem hne)).1]
  case back =>
    intro hapart
    have hmem := harranged.mem_insertArcLengths (hspanned ⟨hpositive, le_rfl⟩) hapart (.inl hend)
    have hne := List.ne_nil_of_mem hmem
    have hle := (hall.sorted.imp le_of_lt).rel_getLast hmem
    rw [heq, List.getLast?_eq_some_getLast hne,
      le_antisymm (hall.bounds _ (List.getLast_mem hne)).2 hle]
  case stopPoint =>
    rintro distance rfl hapart
    have hdistance := hspanned (hstop distance rfl)
    exact (harranged.insertArcLength distance).mem_insertArcLengths
      (hdistance.insertArcLength (.inl rfl)) hapart
      (.inl (hdistance.mem_insertArcLength harranged.sorted))
  case lanePoints =>
    intro distance hmem hapart
    rw [heq]
    exact harranged.mem_insertArcLengths (hspanned (hlanes distance hmem)) hapart
      (.inr (List.mem_append_right _ hmem))

section
omit [IsStrictOrderedRing K]

theorem resamplePathWithLaneId_single [Inhabited O] (options : Options)
    (inputPath : PathWithLaneId K O H) (stop : Option K) :
    resamplePathWithLaneId geometry options inputPath (insertStopPoint stop [inputPathLen]) =
      .ok inputPath := by
  have hsingle (distances : List K) :
      insertArcLengths distances [inputPathLen] = [inputPathLen] := by
    induction distances with
    | nil => rfl
    | cons distance later ih => exact ih
  have hstop : insertStopPoint stop [inputPathLen] = [inputPathLen] := by
    cases stop with
    | none => rfl
    | some distance => rfl
  rw [resamplePathWithLaneId, hstop, insertLanePoints_eq, hsingle]
  refine if_pos ?_
  rw [validateArguments, Bool.and_assoc, Bool.and_assoc]
  simp [validateSize]

theorem resamplePathWithInterval_eq [Inhabited O] (options : Options)
    (inputPath : PathWithLaneId K O H) {resampleInterval : K} (resampleInputPathStopPoint : Bool)
    {rounds : ℕ} (hvalid : validateInterval geometry
      (inputPath.points.map fun point => point.point.pose.position) resampleInterval = true)
    (hloop : sampleLoop resampleInterval (calcArcLength geometry
      (inputPath.points.map fun point => point.point.pose.position)) rounds 0 [] = some values)
    (hne : values ≠ []) :
    resamplePathWithInterval geometry rounds options inputPath resampleInterval
        resampleInputPathStopPoint =
      some (resamplePathWithLaneId geometry options inputPath
        (insertStopPoint (stopPointOf geometry inputPath resampleInputPathStopPoint)
          (insertTerminal (calcArcLength geometry
            (inputPath.points.map fun point => point.point.pose.position)) values))) := by
  rw [resamplePathWithInterval, hvalid]
  dsimp only
  rw [hloop, Bool.not_true, if_neg Bool.false_ne_true, Option.bind_eq_bind, Option.bind_some,
    if_neg (mt List.isEmpty_iff.mp hne)]
  rfl

end

/-- A path and an interval that pass the checks are resampled, after enough rounds of the loop, at
arc lengths that are arranged along the path, unless the path is shorter than the overlap: then it
is returned as it is. -/
theorem resamplePathWithInterval_handed [Archimedean K] [Inhabited O]
    (geometry : Trigonometry K O) (options : Options) (inputPath : PathWithLaneId K O H)
    (resampleInterval : K) (resampleInputPathStopPoint : Bool) (hvalid : validateInterval geometry
      (inputPath.points.map fun point => point.point.pose.position) resampleInterval = true) :
    let positions := inputPath.points.map fun point => point.point.pose.position
    let inputPathLen := calcArcLength geometry positions
    ∃ rounds resampledArclength, (∀ fuel, rounds ≤ fuel →
        resamplePathWithInterval geometry fuel options inputPath resampleInterval
            resampleInputPathStopPoint =
          some (resamplePathWithLaneId geometry options inputPath resampledArclength)) ∧
      ((inputPathLen < overlapThreshold ∧
          resamplePathWithLaneId geometry options inputPath resampledArclength = .ok inputPath) ∨
        validateArguments geometry positions
            (insertLanePoints geometry inputPath.points resampledArclength) = true ∧
          Handed inputPathLen (stopPointOf geometry inputPath resampleInputPathStopPoint)
            (laneArcLengths geometry inputPath.points)
            (insertLanePoints geometry inputPath.points resampledArclength)) := by
  intro positions inputPathLen
  have hchecked := validateInterval_iff.mp hvalid
  have hpositive : 0 < inputPathLen := hchecked.calcArcLength_pos
  have hinterval : 0 < resampleInterval := overlapThreshold_pos.trans_le hchecked.interval
  obtain ⟨rounds, hrounds⟩ := exists_nat_ge (inputPathLen / resampleInterval)
  rw [div_le_iff₀ hinterval] at hrounds
  obtain ⟨values, hloop⟩ : ∃ values,
      sampleLoop resampleInterval inputPathLen (rounds + 1) 0 [] = some values :=
    sampleLoop_isSome (by rwa [zero_add]) []
  obtain ⟨last, hsampled, hlast⟩ := sampled_sampleLoop hinterval le_rfl
    ⟨List.Pairwise.nil, fun _ hmem => absurd hmem List.not_mem_nil, .inr ⟨rfl, rfl⟩⟩ hloop
  have hhead : values.head? = some 0 := hsampled.head.resolve_right fun ⟨_, hzero⟩ =>
    absurd hpositive (not_lt.mpr (hzero ▸ hlast))
  refine ⟨rounds + 1, insertStopPoint (stopPointOf geometry inputPath resampleInputPathStopPoint)
    (insertTerminal inputPathLen values), fun fuel hfuel => ?_, ?_⟩
  · refine resamplePathWithInterval_eq options inputPath _ hvalid (sampleLoop_mono hfuel hloop) ?_
    rintro rfl
    cases hhead
  · have hposes : (inputPath.points.map fun point => point.point.pose).map Pose.position =
        positions := List.map_map
    rcases insertTerminal_cases hsampled hhead hpositive with ⟨hshort, heq⟩ | ⟨harranged, hzero, hend⟩
    · refine .inl ⟨hshort, ?_⟩
      rw [heq]
      exact resamplePathWithLaneId_single options inputPath _
    · have hstop : ∀ distance,
          stopPointOf geometry inputPath resampleInputPathStopPoint = some distance →
          0 ≤ distance ∧ distance ≤ inputPathLen := by
        intro distance hdistance
        rw [stopPointOf] at hdistance
        split at hdistance
        · obtain ⟨i, _, rfl⟩ := Option.map_eq_some_iff.mp hdistance
          have hstopPoses : ((inputPath.points.map PathPointWithLaneId.point).map
              PathPoint.pose).map Pose.position = positions := by
            rw [List.map_map, List.map_map]
            rfl
          have hbounds := hchecked.calcSignedArcLength_bounds hstopPoses i
          rw [max_eq_right hbounds.1]
          exact hbounds
        · cases hdistance
      have hlanes : ∀ distance ∈ laneArcLengths geometry inputPath.points,
          0 ≤ distance ∧ distance ≤ inputPathLen := by
        intro distance hdistance
        obtain ⟨i, _, _, _, rfl⟩ := mem_laneArcLengths.mp hdistance
        exact hchecked.calcSignedArcLength_bounds hposes i
      have hall := (harranged.insertStopPoint (stopPointOf geometry inputPath
        resampleInputPathStopPoint)).insertArcLengths (laneArcLengths geometry inputPath.points)
      have hhanded := handed_of_arranged harranged hzero hend hstop hlanes
      rw [← insertLanePoints_eq] at hhanded hall
      have hne := List.ne_nil_of_length_pos (Nat.lt_of_lt_of_le zero_lt_two hall.two)
      refine .inr ⟨validateArguments_iff.mpr ⟨hchecked.two, hall.two, ?_, hchecked.apart⟩, hhanded⟩
      rw [List.getLastD_eq_getLast?, List.getLast?_eq_some_getLast hne]
      exact (hall.bounds _ (List.getLast_mem hne)).2

/-- Three points along a line, where the second one has two lane ids. -/
def lanePath : PathWithLaneId ℚ Unit Unit where
  header := ()
  points :=
    [⟨⟨MotionUtils.poseAt 0 0, 1, 0, 0, false⟩, [1]⟩,
      ⟨⟨MotionUtils.poseAt (1 / 20) 0, 1, 0, 0, false⟩, [1, 2]⟩,
      ⟨⟨MotionUtils.poseAt 1 0, 1, 0, 0, true⟩, [2]⟩]
  leftBound := []
  rightBound := []

theorem resamplePathWithInterval_lanePath : ∃ rounds resampledArclength, ∀ fuel, rounds ≤ fuel →
      resamplePathWithInterval MotionUtils.rationalTrigonometry fuel ⟨false, true, true⟩ lanePath
          (1 / 2) true =
        some (resamplePathWithLaneId MotionUtils.rationalTrigonometry ⟨false, true, true⟩ lanePath
          resampledArclength) := by
  obtain ⟨rounds, resampledArclength, hrounds, _⟩ := resamplePathWithInterval_handed
    MotionUtils.rationalTrigonometry ⟨false, true, true⟩ lanePath (1 / 2) true (by decide +kernel)
  exact ⟨rounds, resampledArclength, hrounds⟩

/-- The lane border replaces the start of the path. -/
theorem lanePath_without_start : validateInterval MotionUtils.rationalTrigonometry
        (lanePath.points.map fun point => point.point.pose.position) (1 / 2) = true ∧
      resamplePathWithInterval MotionUtils.rationalTrigonometry 3 ⟨false, true, true⟩ lanePath
          (1 / 2) true =
        some (resamplePathWithLaneId MotionUtils.rationalTrigonometry ⟨false, true, true⟩ lanePath
          [0, 1 / 2, 1]) ∧
      insertLanePoints MotionUtils.rationalTrigonometry lanePath.points [0, 1 / 2, 1] =
        [1 / 20, 1 / 2, 1] := by
  have hvalid : validateInterval MotionUtils.rationalTrigonometry
      (lanePath.points.map fun point => point.point.pose.position) (1 / 2) = true := by
    decide +kernel
  have hloop : sampleLoop (1 / 2) (calcArcLength MotionUtils.rationalTrigonometry
      (lanePath.points.map fun point => point.point.pose.position)) 3 0 [] =
        some [0, 1 / 2] := by decide +kernel
  have hterminal : insertStopPoint (stopPointOf MotionUtils.rationalTrigonometry lanePath true)
      (insertTerminal (calcArcLength MotionUtils.rationalTrigonometry
        (lanePath.points.map fun point => point.point.pose.position)) [0, 1 / 2]) =
          [0, 1 / 2, 1] := by decide +kernel
  refine ⟨hvalid, ?_, by decide +kernel⟩
  rw [← hterminal]
  exact resamplePathWithInterval_eq _ _ _ hvalid hloop (List.cons_ne_nil _ _)

end AutowareUniverse.Common.Resample
