import AutowareUniverse.Planning.VelocityFilters
import AutowareUniverse.Library.ConstantJerk

/-!
# Stop distance at limited jerk

A deceleration from a velocity and an acceleration to a lower velocity, in up to
three phases of constant jerk: down to an acceleration, along it, and back to
none.  The phases are kept in a map from the jerk to the time.
-/

namespace AutowareUniverse.Planning.MotionVelocitySmoother.TrajectoryUtils

section

variable {K : Type} [Field K]

def integX (x0 v0 a0 j0 t : K) : K :=
  x0 + v0 * t + 1 / 2 * a0 * t * t + 1 / 6 * j0 * t * t * t

def integV (v0 a0 j0 t : K) : K :=
  v0 + a0 * t + 1 / 2 * j0 * t * t

def integA (a0 j0 t : K) : K :=
  a0 + j0 * t

structure State (K : Type) where
  x : K
  v : K
  a : K
  j : K
  deriving DecidableEq

variable [LinearOrder K]

/-- The loop of `updateStateWithJerkConstraint` from a sum of times on. -/
def updateStateLoop (t : K) : K → K → K → K → List (K × K) → Option (State K)
  | _, _, _, _, [] => none
  | tSum, x, v, a, (j, time) :: jerkProfile =>
    let tSum := tSum + time
    if tSum < t then
      updateStateLoop t tSum (integX x v a j time) (integV v a j time) (integA a j time) jerkProfile
    else
      let dt := t - (tSum - time)
      some ⟨integX x v a j dt, integV v a j dt, integA a j dt, j⟩

def updateStateWithJerkConstraint (v0 a0 : K) (jerkProfile : List (K × K)) (t : K) :
    Option (State K) :=
  updateStateLoop t 0 0 v0 a0 jerkProfile

/-! ## The profile -/

/-- `std::map::insert`: in the order of the jerks, and not where the jerk is there already. -/
def insertPhase (phase : K × K) : List (K × K) → List (K × K)
  | [] => [phase]
  | other :: jerkProfile =>
    if phase.1 < other.1 then phase :: other :: jerkProfile
    else if other.1 < phase.1 then other :: insertPhase phase jerkProfile
    else other :: jerkProfile

/-- Times below this threshold are truncated to 0. -/
def tThreshold : K := 1 / 1000000

def truncateTime (t : K) : K :=
  if t < tThreshold then 0 else t

def isValidStopDist (vEnd aEnd vTarget aTarget vMargin aMargin : K) : Bool :=
  let vMin := vTarget - |vMargin|
  let vMax := vTarget + |vMargin|
  let aMin := aTarget - |aMargin|
  let aMax := aTarget + |aMargin|
  if vEnd < vMin ∨ vMax < vEnd then false
  else if aEnd < aMin ∨ aMax < aEnd then false
  else true

inductive AccelerationType where
  | trapezoid
  | triangle
  | linear
  deriving DecidableEq

variable (sqrt : K → K) (v0 a0 jerkAcc jerkDec minAcc targetVel : K)

def calculateTime (a0 targetAcc jerk : K) : K :=
  (targetAcc - a0) / jerk

def minAccTime : K :=
  let vDiffJerkDec := 1 / 2 * calculateTime a0 0 jerkDec * a0 +
    1 / 2 * calculateTime 0 minAcc jerkDec * minAcc
  let vDiffJerkAcc := 1 / 2 * calculateTime minAcc 0 jerkAcc * minAcc
  let vError := targetVel - v0
  (vError - vDiffJerkDec - vDiffJerkAcc) / minAcc

def accelerationType : AccelerationType :=
  if 0 < minAccTime v0 a0 jerkAcc jerkDec minAcc targetVel then .trapezoid
  else
    let vError := targetVel - v0
    let vDiffDecel := 1 / 2 * a0 * calculateTime a0 0 jerkAcc
    if vError < vDiffDecel ∨ 0 < a0 then .triangle else .linear

def a1Square : K :=
  let vError := targetVel - v0
  let vDiffFromA0ToZero := 1 / 2 * calculateTime a0 0 jerkDec * a0
  (vError - vDiffFromA0ToZero) * 2 * 1 / (1 / jerkDec - 1 / jerkAcc)

/-- The jerk that ends at the target when the acceleration gets 0. -/
def linearJerk : K :=
  (0 - a0 * a0) / (2 * (targetVel - v0))

/-- The phases in the order of their insertion, with the times before the truncation. -/
def calculatedPhases : List (K × K) :=
  match accelerationType v0 a0 jerkAcc jerkDec minAcc targetVel with
  | .trapezoid =>
    [(jerkDec, calculateTime a0 minAcc jerkDec),
      (0, minAccTime v0 a0 jerkAcc jerkDec minAcc targetVel),
      (jerkAcc, calculateTime minAcc 0 jerkAcc)]
  | .triangle =>
    let a1 := -sqrt (a1Square v0 a0 jerkAcc jerkDec targetVel)
    [(jerkDec, calculateTime a0 a1 jerkDec), (jerkAcc, calculateTime a1 0 jerkAcc)]
  | .linear =>
    let jerk := linearJerk v0 a0 targetVel
    [(jerk, calculateTime a0 0 jerk)]

structure StopDist (K : Type) where
  succeeded : Bool
  jerkProfile : List (K × K)
  stopDist : Option K
  deriving DecidableEq

def unexpectedTime : Bool :=
  match accelerationType v0 a0 jerkAcc jerkDec minAcc targetVel with
  | .linear => decide (calculateTime a0 0 (linearJerk v0 a0 targetVel) < 0)
  | _ => false

def calcStopDistWithJerkConstraints : StopDist K :=
  if unexpectedTime v0 a0 jerkAcc jerkDec minAcc targetVel then
    { succeeded := false, jerkProfile := [], stopDist := none }
  else
    let phases := (calculatedPhases sqrt v0 a0 jerkAcc jerkDec minAcc targetVel).map
      fun (jerk, time) => (jerk, truncateTime time)
    let jerkProfile := phases.foldl (fun jerkProfile phase => insertPhase phase jerkProfile) []
    match updateStateWithJerkConstraint v0 a0 jerkProfile (phases.map (·.2)).sum with
    | none => { succeeded := false, jerkProfile := jerkProfile, stopDist := none }
    | some state =>
      { succeeded := isValidStopDist state.v state.a targetVel 0 (3 / 10) (1 / 10)
        jerkProfile := jerkProfile
        stopDist := some state.x }

end

open Library.ConstantJerk

variable {K : Type} [Field K] [LinearOrder K]

section

variable (sqrt : K → K) (v0 a0 jerkAcc jerkDec minAcc targetVel : K)

def TimesKept : Prop :=
  ∀ phase ∈ calculatedPhases sqrt v0 a0 jerkAcc jerkDec minAcc targetVel,
    phase.2 ≤ 0 ∨ tThreshold ≤ phase.2

/-- The phases, in the order of the map, end at the target velocity without an acceleration
and never decelerate more than allowed. -/
structure ReachesTarget (jerkProfile : List (K × K)) (dist : K) : Prop where
  sorted : jerkProfile.Pairwise fun phase other => phase.1 < other.1
  times : ∀ phase ∈ jerkProfile, 0 ≤ phase.2
  final : run jerkProfile ⟨0, v0, a0⟩ = ⟨dist, targetVel, 0⟩
  acceleration : ∀ t, 0 ≤ t → t ≤ duration jerkProfile →
    minAcc ≤ (during jerkProfile t ⟨0, v0, a0⟩).acceleration

end

variable {sqrt : K → K} {v0 a0 jerkAcc jerkDec minAcc targetVel : K}

section
omit [Field K]

theorem insertPhase_of_greatest {phase : K × K} {jerkProfile : List (K × K)}
    (hgreatest : ∀ other ∈ jerkProfile, other.1 < phase.1) :
    insertPhase phase jerkProfile = jerkProfile ++ [phase] := by
  induction jerkProfile with
  | nil => rfl
  | cons other jerkProfile ih =>
    rw [List.forall_mem_cons] at hgreatest
    rw [insertPhase, if_neg hgreatest.1.not_gt, if_pos hgreatest.1, ih hgreatest.2,
      List.cons_append]

theorem foldl_insertPhase {phases jerkProfile : List (K × K)}
    (hsorted : (jerkProfile ++ phases).Pairwise fun phase other => phase.1 < other.1) :
    phases.foldl (fun jerkProfile phase => insertPhase phase jerkProfile) jerkProfile =
      jerkProfile ++ phases := by
  induction phases generalizing jerkProfile with
  | nil => simp
  | cons phase phases ih =>
    have hgreatest : ∀ other ∈ jerkProfile, other.1 < phase.1 := by
      intro other hother
      exact (List.pairwise_append.mp hsorted).2.2 other hother phase List.mem_cons_self
    rw [List.foldl_cons, insertPhase_of_greatest hgreatest, ih, List.append_assoc,
      List.singleton_append]
    rwa [List.append_assoc, List.singleton_append]

end

variable [IsStrictOrderedRing K]

theorem updateStateLoop_eq {t tSum : K} {jerkProfile : List (K × K)} (hne : jerkProfile ≠ [])
    (hend : t - tSum ≤ duration jerkProfile) (motion : Motion K) :
    ∃ j, updateStateLoop t tSum motion.position motion.velocity motion.acceleration jerkProfile =
      some ⟨(during jerkProfile (t - tSum) motion).position,
        (during jerkProfile (t - tSum) motion).velocity,
        (during jerkProfile (t - tSum) motion).acceleration, j⟩ := by
  induction jerkProfile generalizing tSum motion with
  | nil => exact absurd rfl hne
  | cons phase jerkProfile ih =>
    obtain ⟨jerk, time⟩ := phase
    rw [duration_cons] at hend
    by_cases hlater : tSum + time < t
    · have hrest : jerkProfile ≠ [] := by
        rintro rfl
        rw [duration_nil] at hend
        linarith
      obtain ⟨j, hloop⟩ := ih hrest
        (show t - (tSum + time) ≤ duration jerkProfile by linarith) (advance jerk time motion)
      refine ⟨j, ?_⟩
      rw [updateStateLoop, if_pos hlater, during, if_pos (by linarith),
        show t - tSum - time = t - (tSum + time) by ring]
      exact hloop
    · refine ⟨jerk, ?_⟩
      rw [updateStateLoop, if_neg hlater, during, if_neg (by linarith), add_sub_cancel_right]
      rfl

variable (v0 a0) in
theorem updateStateWithJerkConstraint_eq {t : K} {jerkProfile : List (K × K)}
    (hne : jerkProfile ≠ []) (hend : t ≤ duration jerkProfile) :
    ∃ j, updateStateWithJerkConstraint v0 a0 jerkProfile t =
      some ⟨(during jerkProfile t ⟨0, v0, a0⟩).position,
        (during jerkProfile t ⟨0, v0, a0⟩).velocity,
        (during jerkProfile t ⟨0, v0, a0⟩).acceleration, j⟩ := by
  have heq := updateStateLoop_eq hne
    (show t - 0 ≤ duration jerkProfile by rwa [sub_zero]) ⟨0, v0, a0⟩
  rwa [sub_zero] at heq

theorem isValidStopDist_self : isValidStopDist targetVel 0 targetVel 0 (3 / 10) (1 / 10) := by
  have hv : (0 : K) ≤ |3 / 10| := abs_nonneg _
  have ha : (0 : K) ≤ |1 / 10| := abs_nonneg _
  unfold isValidStopDist
  dsimp only
  rw [if_neg, if_neg]
  · rintro (h | h) <;> linarith
  · rintro (h | h) <;> linarith

omit [IsStrictOrderedRing K] in
theorem truncateTime_of_kept {t : K} (hnonneg : 0 ≤ t) (hkept : t ≤ 0 ∨ tThreshold ≤ t) :
    truncateTime t = t := by
  unfold truncateTime
  obtain hzero | hlong := hkept
  · split
    · exact le_antisymm hnonneg hzero
    · rfl
  · rw [if_neg hlong.not_gt]

/-! ## The shapes -/

structure ValidPhases (v0 a0 minAcc targetVel : K) (phases : List (K × K)) : Prop where
  ne_nil : phases ≠ []
  sorted : phases.Pairwise fun phase other => phase.1 < other.1
  times : ∀ phase ∈ phases, 0 ≤ phase.2
  velocity : (run phases ⟨0, v0, a0⟩).velocity = targetVel
  acceleration : (run phases ⟨0, v0, a0⟩).acceleration = 0
  bounds : ∀ i, minAcc ≤ (run (phases.take i) ⟨0, v0, a0⟩).acceleration

theorem ValidPhases.reachesTarget {phases : List (K × K)}
    (hvalid : ValidPhases v0 a0 minAcc targetVel phases) :
    ReachesTarget v0 a0 minAcc targetVel phases (run phases ⟨0, v0, a0⟩).position where
  sorted := hvalid.sorted
  times := hvalid.times
  final := Motion.ext rfl hvalid.velocity hvalid.acceleration
  acceleration _ := le_acceleration_during hvalid.bounds

section

variable (hminAcc : minAcc < 0) (hjerkDec : jerkDec < 0) (hjerkAcc : 0 < jerkAcc)

omit [LinearOrder K] [IsStrictOrderedRing K] in
theorem minAccTime_eq (hne : minAcc ≠ 0) :
    minAccTime v0 a0 jerkAcc jerkDec minAcc targetVel * minAcc =
      targetVel - v0 - (minAcc ^ 2 - a0 ^ 2) / (2 * jerkDec) + minAcc ^ 2 / (2 * jerkAcc) := by
  unfold minAccTime calculateTime
  dsimp only
  rw [div_mul_cancel₀ _ hne]
  ring

theorem calculateTime_dec_nonneg (hjerkDec : jerkDec < 0) {a0 targetAcc : K}
    (hle : targetAcc ≤ a0) : 0 ≤ calculateTime a0 targetAcc jerkDec :=
  div_nonneg_of_nonpos (sub_nonpos.mpr hle) hjerkDec.le

theorem calculateTime_acc_nonneg (hjerkAcc : 0 < jerkAcc) {a0 targetAcc : K}
    (hle : a0 ≤ targetAcc) : 0 ≤ calculateTime a0 targetAcc jerkAcc :=
  div_nonneg (sub_nonneg.mpr hle) hjerkAcc.le

include hjerkDec hjerkAcc

include hminAcc in
/-- Down to the greatest deceleration, along it, and back. -/
theorem trapezoid_valid (ha0 : minAcc ≤ a0)
    (htime : 0 < minAccTime v0 a0 jerkAcc jerkDec minAcc targetVel) :
    ValidPhases v0 a0 minAcc targetVel [(jerkDec, calculateTime a0 minAcc jerkDec),
      (0, minAccTime v0 a0 jerkAcc jerkDec minAcc targetVel),
      (jerkAcc, calculateTime minAcc 0 jerkAcc)] := by
  have hdown : (advance jerkDec (calculateTime a0 minAcc jerkDec) ⟨0, v0, a0⟩).acceleration =
      minAcc := acceleration_advance_div hjerkDec.ne minAcc ⟨0, v0, a0⟩
  have hvdown := velocity_advance hjerkDec.ne (calculateTime a0 minAcc jerkDec) ⟨0, v0, a0⟩
  rw [hdown] at hvdown
  set down := advance jerkDec (calculateTime a0 minAcc jerkDec) ⟨0, v0, a0⟩
  have halong : (advance 0 (minAccTime v0 a0 jerkAcc jerkDec minAcc targetVel) down).acceleration =
      minAcc := by simp [advance, hdown]
  have hvalong : (advance 0 (minAccTime v0 a0 jerkAcc jerkDec minAcc targetVel) down).velocity =
      down.velocity + minAccTime v0 a0 jerkAcc jerkDec minAcc targetVel * minAcc := by
    simp [advance, hdown, mul_comm]
  set along := advance 0 (minAccTime v0 a0 jerkAcc jerkDec minAcc targetVel) down
  have hback : (advance jerkAcc (calculateTime minAcc 0 jerkAcc) along).acceleration = 0 := by
    rw [← halong]
    exact acceleration_advance_div hjerkAcc.ne' 0 along
  have hvback := velocity_advance hjerkAcc.ne' (calculateTime minAcc 0 jerkAcc) along
  rw [hback, halong] at hvback
  refine ⟨List.cons_ne_nil _ _, by simp [hjerkDec, hjerkAcc, hjerkDec.trans hjerkAcc], ?_, ?_,
    hback, ?_⟩
  · rw [List.forall_mem_cons, List.forall_mem_cons, List.forall_mem_singleton]
    exact ⟨calculateTime_dec_nonneg hjerkDec ha0, htime.le,
      calculateTime_acc_nonneg hjerkAcc hminAcc.le⟩
  · rw [run_cons, run_cons, run_cons, run_nil]
    calc _ = _ := hvback
      _ = targetVel := by
        rw [hvalong, hvdown, minAccTime_eq hminAcc.ne]
        ring
  · intro i
    rcases i with _ | _ | _ | i
    · exact ha0
    · exact hdown.ge
    · exact halong.ge
    · rw [List.take_of_length_le (Nat.le_add_left 3 i)]
      exact hminAcc.le.trans hback.ge

theorem reciprocals_neg : 1 / jerkDec - 1 / jerkAcc < 0 := by
  have hdec := one_div_neg.mpr hjerkDec
  have hacc := one_div_pos.mpr hjerkAcc
  linarith

variable (v0 a0 targetVel) in
theorem a1Square_eq : a1Square v0 a0 jerkAcc jerkDec targetVel * (1 / jerkDec - 1 / jerkAcc) =
    2 * (targetVel - v0) + a0 ^ 2 * (1 / jerkDec) := by
  unfold a1Square calculateTime
  dsimp only
  rw [div_mul_cancel₀ _ (reciprocals_neg hjerkDec hjerkAcc).ne]
  ring

/-- The greatest deceleration is one, and not less than the initial one. -/
theorem le_a1Square (htarget : targetVel < v0 + max a0 0 ^ 2 / (2 * |jerkDec|))
    (hshape : targetVel - v0 < 1 / 2 * a0 * calculateTime a0 0 jerkAcc ∨ 0 < a0) :
    0 ≤ a1Square v0 a0 jerkAcc jerkDec targetVel ∧
      (a0 ≤ 0 → a0 ^ 2 ≤ a1Square v0 a0 jerkAcc jerkDec targetVel) := by
  have hreciprocals := reciprocals_neg hjerkDec hjerkAcc
  have hsquare := a1Square_eq v0 a0 targetVel hjerkDec hjerkAcc
  rcases le_or_gt a0 0 with hnonpos | hpositive
  · have hshape := hshape.resolve_right (not_lt.mpr hnonpos)
    have hchange : 1 / 2 * a0 * calculateTime a0 0 jerkAcc = -(a0 ^ 2 * (1 / jerkAcc)) / 2 := by
      unfold calculateTime
      ring
    have hlt : a0 ^ 2 < a1Square v0 a0 jerkAcc jerkDec targetVel := by
      refine (mul_lt_mul_right_of_neg hreciprocals).mp ?_
      rw [hsquare, mul_sub]
      linarith
    exact ⟨(sq_nonneg a0).trans hlt.le, fun _ => hlt.le⟩
  · have hchange : max a0 0 ^ 2 / (2 * |jerkDec|) = -(a0 ^ 2 * (1 / jerkDec)) / 2 := by
      rw [max_eq_left hpositive.le, abs_of_neg hjerkDec]
      have hne := hjerkDec.ne
      field_simp
    refine ⟨?_, fun hnonpos => absurd hpositive (not_lt.mpr hnonpos)⟩
    refine (mul_le_mul_right_of_neg hreciprocals).mp ?_
    rw [hsquare, zero_mul]
    linarith

include hminAcc in
/-- Without a time at the limit of the deceleration, it is not exceeded. -/
theorem a1Square_le (htime : ¬0 < minAccTime v0 a0 jerkAcc jerkDec minAcc targetVel) :
    a1Square v0 a0 jerkAcc jerkDec targetVel ≤ minAcc ^ 2 := by
  have htime := mul_nonneg_of_nonpos_of_nonpos (not_lt.mp htime) hminAcc.le
  rw [minAccTime_eq hminAcc.ne] at htime
  refine (mul_le_mul_right_of_neg (reciprocals_neg hjerkDec hjerkAcc)).mp ?_
  rw [a1Square_eq v0 a0 targetVel hjerkDec hjerkAcc, mul_sub]
  have hdec : (minAcc ^ 2 - a0 ^ 2) / (2 * jerkDec) =
      (minAcc ^ 2 * (1 / jerkDec) - a0 ^ 2 * (1 / jerkDec)) / 2 := by
    have hne := hjerkDec.ne
    field_simp
  have hacc : minAcc ^ 2 / (2 * jerkAcc) = minAcc ^ 2 * (1 / jerkAcc) / 2 := by
    have hne := hjerkAcc.ne'
    field_simp
  linarith

include hminAcc in
/-- Down to a deceleration from which the way back ends at the target. -/
theorem triangle_valid (hsqrt : ∀ value, 0 ≤ value → 0 ≤ sqrt value ∧ sqrt value ^ 2 = value)
    (ha0 : minAcc ≤ a0) (htarget : targetVel < v0 + max a0 0 ^ 2 / (2 * |jerkDec|))
    (htime : ¬0 < minAccTime v0 a0 jerkAcc jerkDec minAcc targetVel)
    (hshape : targetVel - v0 < 1 / 2 * a0 * calculateTime a0 0 jerkAcc ∨ 0 < a0) :
    ValidPhases v0 a0 minAcc targetVel
      [(jerkDec, calculateTime a0 (-sqrt (a1Square v0 a0 jerkAcc jerkDec targetVel)) jerkDec),
        (jerkAcc, calculateTime (-sqrt (a1Square v0 a0 jerkAcc jerkDec targetVel)) 0
          jerkAcc)] := by
  have hsquare := a1Square_eq v0 a0 targetVel hjerkDec hjerkAcc
  obtain ⟨hpos, habove⟩ := le_a1Square hjerkDec hjerkAcc htarget hshape
  have hbelow := a1Square_le hminAcc hjerkDec hjerkAcc htime
  set square := a1Square v0 a0 jerkAcc jerkDec targetVel
  obtain ⟨hnonneg, hroot⟩ := hsqrt square hpos
  have ha1Square : (-sqrt square) ^ 2 = square := by rw [neg_sq, hroot]
  have ha1Nonpos : -sqrt square ≤ 0 := neg_nonpos.mpr hnonneg
  have ha1Le : -sqrt square ≤ a0 := by
    rcases le_or_gt a0 0 with hnonpos | hpositive
    · refine neg_le.mp ((pow_le_pow_iff_left₀ (neg_nonneg.mpr hnonpos) hnonneg two_ne_zero).mp ?_)
      rw [neg_sq, hroot]
      exact habove hnonpos
    · exact ha1Nonpos.trans hpositive.le
  have ha1Min : minAcc ≤ -sqrt square := by
    refine le_neg.mp ((pow_le_pow_iff_left₀ hnonneg (neg_nonneg.mpr hminAcc.le) two_ne_zero).mp ?_)
    rw [neg_sq, hroot]
    exact hbelow
  set a1 := -sqrt square
  have hdown : (advance jerkDec (calculateTime a0 a1 jerkDec) ⟨0, v0, a0⟩).acceleration = a1 :=
    acceleration_advance_div hjerkDec.ne a1 ⟨0, v0, a0⟩
  have hvdown := velocity_advance hjerkDec.ne (calculateTime a0 a1 jerkDec) ⟨0, v0, a0⟩
  rw [hdown] at hvdown
  set down := advance jerkDec (calculateTime a0 a1 jerkDec) ⟨0, v0, a0⟩
  have hback : (advance jerkAcc (calculateTime a1 0 jerkAcc) down).acceleration = 0 := by
    rw [← hdown]
    exact acceleration_advance_div hjerkAcc.ne' 0 down
  have hvback := velocity_advance hjerkAcc.ne' (calculateTime a1 0 jerkAcc) down
  rw [hback, hdown] at hvback
  refine ⟨List.cons_ne_nil _ _, by simp [hjerkDec.trans hjerkAcc], ?_, ?_, hback, ?_⟩
  · rw [List.forall_mem_cons, List.forall_mem_singleton]
    exact ⟨calculateTime_dec_nonneg hjerkDec ha1Le, calculateTime_acc_nonneg hjerkAcc ha1Nonpos⟩
  · rw [run_cons, run_cons, run_nil]
    calc _ = _ := hvback
      _ = targetVel := by
        rw [hvdown, ha1Square]
        linear_combination hsquare / 2
  · intro i
    match i with
    | 0 => exact ha0
    | 1 => exact ha1Min.trans hdown.ge
    | i + 2 =>
      rw [List.take_of_length_le (Nat.le_add_left 2 i)]
      exact hminAcc.le.trans hback.ge

omit hjerkDec hjerkAcc in
include hminAcc in
/-- Back from a deceleration with the jerk that ends at the target. -/
theorem linear_valid (ha0 : minAcc ≤ a0) (hnonpos : a0 ≤ 0) (htarget : targetVel < v0)
    (hshape : 1 / 2 * a0 * calculateTime a0 0 jerkAcc ≤ targetVel - v0) :
    0 ≤ calculateTime a0 0 (linearJerk v0 a0 targetVel) ∧ ValidPhases v0 a0 minAcc targetVel
        [(linearJerk v0 a0 targetVel, calculateTime a0 0 (linearJerk v0 a0 targetVel))] := by
  have hne : a0 ≠ 0 := by
    rintro rfl
    rw [mul_zero, zero_mul] at hshape
    linarith
  have herror : targetVel - v0 < 0 := sub_neg.mpr htarget
  have hjerk : 0 < linearJerk v0 a0 targetVel := by
    unfold linearJerk
    rw [zero_sub]
    exact div_pos_of_neg_of_neg (neg_neg_of_pos (mul_self_pos.mpr hne)) (by linarith)
  have htime := calculateTime_acc_nonneg hjerk hnonpos
  have hback := acceleration_advance_div hjerk.ne' 0 ⟨0, v0, a0⟩
  have hvback := velocity_advance hjerk.ne' (calculateTime a0 0 (linearJerk v0 a0 targetVel))
    ⟨0, v0, a0⟩
  refine ⟨htime, List.cons_ne_nil _ _, List.pairwise_singleton _ _,
    List.forall_mem_singleton.mpr htime, ?_, hback, ?_⟩
  · rw [run_cons, run_nil]
    calc _ = v0 + (0 ^ 2 - a0 ^ 2) / (2 * linearJerk v0 a0 targetVel) := by
          rw [hvback, calculateTime, hback]
      _ = targetVel := by
          unfold linearJerk
          have hsq : a0 ^ 2 ≠ 0 := pow_ne_zero 2 hne
          field_simp
          ring
  · intro i
    match i with
    | 0 => exact ha0
    | i + 1 =>
      rw [List.take_of_length_le (Nat.le_add_left 1 i)]
      exact hminAcc.le.trans hback.ge

include hminAcc in
theorem calculatedPhases_valid
    (hsqrt : ∀ value, 0 ≤ value → 0 ≤ sqrt value ∧ sqrt value ^ 2 = value) (ha0 : minAcc ≤ a0)
    (htarget : targetVel < v0 + max a0 0 ^ 2 / (2 * |jerkDec|)) :
    unexpectedTime v0 a0 jerkAcc jerkDec minAcc targetVel = false ∧
      ValidPhases v0 a0 minAcc targetVel
        (calculatedPhases sqrt v0 a0 jerkAcc jerkDec minAcc targetVel) := by
  unfold unexpectedTime calculatedPhases accelerationType
  by_cases htime : 0 < minAccTime v0 a0 jerkAcc jerkDec minAcc targetVel
  · rw [if_pos htime]
    exact ⟨rfl, trapezoid_valid hminAcc hjerkDec hjerkAcc ha0 htime⟩
  · rw [if_neg htime]
    dsimp only
    by_cases hshape : targetVel - v0 < 1 / 2 * a0 * calculateTime a0 0 jerkAcc ∨ 0 < a0
    · rw [if_pos hshape]
      exact ⟨rfl, triangle_valid hminAcc hjerkDec hjerkAcc hsqrt ha0 htarget htime hshape⟩
    · rw [if_neg hshape]
      rw [not_or, not_lt, not_lt] at hshape
      rw [max_eq_right hshape.2, zero_pow two_ne_zero, zero_div, add_zero] at htarget
      obtain ⟨hnonneg, hvalid⟩ := linear_valid hminAcc ha0 hshape.2 htarget hshape.1
      exact ⟨decide_eq_false (not_lt.mpr hnonneg), hvalid⟩

end

theorem calcStopDistWithJerkConstraints_eq
    (hunexpected : unexpectedTime v0 a0 jerkAcc jerkDec minAcc targetVel = false)
    (hvalid : ValidPhases v0 a0 minAcc targetVel
      (calculatedPhases sqrt v0 a0 jerkAcc jerkDec minAcc targetVel))
    (hkept : TimesKept sqrt v0 a0 jerkAcc jerkDec minAcc targetVel) :
    calcStopDistWithJerkConstraints sqrt v0 a0 jerkAcc jerkDec minAcc targetVel =
      { succeeded := true
        jerkProfile := calculatedPhases sqrt v0 a0 jerkAcc jerkDec minAcc targetVel
        stopDist := some (run (calculatedPhases sqrt v0 a0 jerkAcc jerkDec minAcc targetVel)
          ⟨0, v0, a0⟩).position } := by
  unfold calcStopDistWithJerkConstraints
  unfold TimesKept at hkept
  set phases := calculatedPhases sqrt v0 a0 jerkAcc jerkDec minAcc targetVel
  have htruncated : (phases.map fun (jerk, time) => (jerk, truncateTime time)) = phases := by
    refine (List.map_congr_left ?_).trans (List.map_id phases)
    intro phase hphase
    exact Prod.ext rfl (truncateTime_of_kept (hvalid.times phase hphase) (hkept phase hphase))
  have hprofile : phases.foldl (fun jerkProfile phase => insertPhase phase jerkProfile) [] =
      phases := foldl_insertPhase hvalid.sorted
  obtain ⟨j, hstate⟩ := updateStateWithJerkConstraint_eq v0 a0 hvalid.ne_nil
    (le_refl (duration phases))
  rw [during_duration hvalid.times, hvalid.velocity, hvalid.acceleration] at hstate
  rw [hunexpected, htruncated, if_neg Bool.false_ne_true]
  dsimp only
  rw [hprofile, ← duration, hstate]
  dsimp only
  rw [isValidStopDist_self]

/-- Below the velocity at which the acceleration ends, the stop distance is found: the phases
end at the target velocity without an acceleration, within the limit of the deceleration, and
the distance is the one they take. -/
theorem calcStopDistWithJerkConstraints_reaches (hsqrt : ∀ value, 0 ≤ value →
      0 ≤ sqrt value ∧ sqrt value ^ 2 = value)
    (hminAcc : minAcc < 0) (hjerkDec : jerkDec < 0) (hjerkAcc : 0 < jerkAcc) (ha0 : minAcc ≤ a0)
    (htarget : targetVel < v0 + max a0 0 ^ 2 / (2 * |jerkDec|))
    (hkept : TimesKept sqrt v0 a0 jerkAcc jerkDec minAcc targetVel) :
    ∃ jerkProfile dist,
      calcStopDistWithJerkConstraints sqrt v0 a0 jerkAcc jerkDec minAcc targetVel =
        { succeeded := true, jerkProfile := jerkProfile, stopDist := some dist } ∧
      ReachesTarget v0 a0 minAcc targetVel jerkProfile dist := by
  obtain ⟨hunexpected, hvalid⟩ :=
    calculatedPhases_valid hminAcc hjerkDec hjerkAcc hsqrt ha0 htarget
  exact ⟨_, _, calcStopDistWithJerkConstraints_eq hunexpected hvalid hkept, hvalid.reachesTarget⟩

theorem timesKept_triangle : TimesKept Real.sqrt 10 0 1 (-1) (-2) 9 := by
  have htime : ¬(0 : ℝ) < minAccTime 10 0 1 (-1) (-2) 9 := by
    norm_num [minAccTime, calculateTime]
  have htype : accelerationType (10 : ℝ) 0 1 (-1) (-2) 9 = .triangle := by
    rw [accelerationType, if_neg htime]
    norm_num [calculateTime]
  have hsquare : a1Square (10 : ℝ) 0 1 (-1) 9 = 1 := by norm_num [a1Square, calculateTime]
  unfold TimesKept calculatedPhases
  rw [htype]
  dsimp only
  rw [hsquare, Real.sqrt_one, List.forall_mem_cons, List.forall_mem_singleton]
  norm_num [calculateTime, tThreshold]

theorem calcStopDistWithJerkConstraints_triangle : ∃ jerkProfile dist,
      calcStopDistWithJerkConstraints Real.sqrt 10 0 1 (-1) (-2) 9 =
        { succeeded := true, jerkProfile := jerkProfile, stopDist := some dist } ∧
      ReachesTarget 10 0 (-2) 9 jerkProfile dist :=
  calcStopDistWithJerkConstraints_reaches
    (fun value hvalue => ⟨Real.sqrt_nonneg value, Real.sq_sqrt hvalue⟩) (by norm_num)
    (by norm_num) (by norm_num) (by norm_num) (by norm_num) timesKept_triangle

end AutowareUniverse.Planning.MotionVelocitySmoother.TrajectoryUtils
