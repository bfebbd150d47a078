import AutowareUniverse.Library.Bisection
import Mathlib.Analysis.Real.Sqrt
import Mathlib.Tactic.LinearCombination

/-!
# Decelerations at limited jerk

A vehicle decelerates at the limit of its jerk up to that of its acceleration, and at that
one until it stands still.  The distance it needs, and the velocity that is left after a
distance.
-/

namespace AutowareUniverse.Planning.PlanningUtils

open Library.Bisection

section

variable {K : Type} [Field K] [LinearOrder K] (sqrt : K → K)

def ft (t j a v d : K) : K := j * t * t * t / 6 + a * t * t / 2 + v * t - d

def vt (t j a v : K) : K := j * t * t / 2 + a * t + v

def calcJudgeLineDistWithJerkLimit (velocity acceleration maxStopAcceleration maxStopJerk
    delayResponseTime : K) : K :=
  if velocity ≤ 0 then 0
  else
    let t1 := delayResponseTime
    let x1 := velocity * t1
    let v2 := velocity + (maxStopAcceleration ^ 2 - acceleration ^ 2) / (2 * maxStopJerk)
    if v2 ≤ 0 then
      let t2 := -1 * (maxStopAcceleration +
        sqrt (acceleration * acceleration - 2 * maxStopJerk * velocity)) / maxStopJerk
      let x2 := velocity * t2 + acceleration * t2 ^ 2 / 2 + maxStopJerk * t2 ^ 3 / 6
      max 0 (x1 + x2)
    else
      let t2 := (maxStopAcceleration - acceleration) / maxStopJerk
      let x2 := velocity * t2 + acceleration * t2 ^ 2 / 2 + maxStopJerk * t2 ^ 3 / 6
      let x3 := -1 * v2 ^ 2 / (2 * maxStopAcceleration)
      max 0 (x1 + x2 + x3)

/-- The loop has no limit of its own.  The error for a range without a root is not thrown. -/
def findReachTime (fuel : ℕ) (jerk accel velocity distance tMin tMax : K) : Option K :=
  bisect (fun t => ft t jerk accel velocity distance) (1 / 100000) fuel tMin tMax

def calcDecelerationVelocityFromDistanceToTarget (fuel : ℕ) (maxSlowdownJerk maxSlowdownAccel
    currentAccel currentVelocity distanceToTarget : K) : Option K :=
  if distanceToTarget ≤ 0 then some currentVelocity
  else
    let tConstJerk := (maxSlowdownAccel - currentAccel) / maxSlowdownJerk
    let dConstJerkStop := ft tConstJerk maxSlowdownJerk currentAccel currentVelocity 0
    let dConstAccStop := distanceToTarget - dConstJerkStop
    if dConstAccStop < 0 then
      (findReachTime fuel maxSlowdownJerk currentAccel currentVelocity distanceToTarget 0
        tConstJerk).map fun tJerk => vt tJerk maxSlowdownJerk currentAccel currentVelocity
    else
      let v1 := vt tConstJerk maxSlowdownJerk currentAccel currentVelocity
      let discriminantOfStop := 2 * maxSlowdownAccel * dConstAccStop + v1 * v1
      if discriminantOfStop ≤ 0 then some 0
      else
        let tAcc := (-v1 + sqrt discriminantOfStop) / maxSlowdownAccel
        some (vt tAcc 0 maxSlowdownAccel v1)

end

/-! ## The profile -/

structure Deceleration where
  acceleration : ℝ
  jerk : ℝ
  limit : ℝ
  jerk_neg : jerk < 0
  limit_neg : limit < 0
  limit_le : limit ≤ acceleration
  nonpos : acceleration ≤ 0

namespace Deceleration

variable (d : Deceleration)

/-- When the acceleration is at its limit. -/
noncomputable def jerkTime : ℝ := (d.limit - d.acceleration) / d.jerk

noncomputable def jerkVelocity (v : ℝ) : ℝ := vt d.jerkTime d.jerk d.acceleration v

noncomputable def jerkDistance (v : ℝ) : ℝ := ft d.jerkTime d.jerk d.acceleration v 0

noncomputable def velocityAt (v t : ℝ) : ℝ :=
  if t ≤ d.jerkTime then vt t d.jerk d.acceleration v
  else vt (t - d.jerkTime) 0 d.limit (d.jerkVelocity v)

noncomputable def distanceAt (v t : ℝ) : ℝ :=
  if t ≤ d.jerkTime then ft t d.jerk d.acceleration v 0
  else d.jerkDistance v + ft (t - d.jerkTime) 0 d.limit (d.jerkVelocity v) 0

def MovesUntil (v t : ℝ) : Prop := 0 ≤ t ∧ ∀ s, 0 ≤ s → s < t → 0 < d.velocityAt v s

def StopsAt (v t : ℝ) : Prop := d.MovesUntil v t ∧ d.velocityAt v t = 0

def IsStopDistance (delay v distance : ℝ) : Prop :=
  ∃ t, d.StopsAt v t ∧ distance = v * delay + d.distanceAt v t

/-- The velocity at a distance, within the tolerance of the bisection where it is used, and
none from the stop on. -/
def IsVelocityAtDistance (v distance w : ℝ) : Prop :=
  distance ≤ 0 ∧ w = v ∨ 0 < distance ∧ ((∃ t, d.MovesUntil v t ∧ d.velocityAt v t = w ∧
          (d.distanceAt v t = distance ∨
            distance < d.jerkDistance v ∧ |d.distanceAt v t - distance| < 1 / 100000)) ∨
        w = 0 ∧ ∃ t, d.StopsAt v t ∧ d.distanceAt v t ≤ distance)

noncomputable def judgeLineDist (delay v : ℝ) : ℝ :=
  calcJudgeLineDistWithJerkLimit Real.sqrt v d.acceleration d.limit d.jerk delay

/-- The velocity that the code returns once it has run long enough. -/
def Returns (v distance w : ℝ) : Prop :=
  ∃ n, ∀ fuel > n, calcDecelerationVelocityFromDistanceToTarget Real.sqrt fuel d.jerk
    d.limit d.acceleration v distance = some w

/-- From a velocity, the velocity at each distance is that of the profile. -/
structure FollowsProfile (v : ℝ) : Prop where
  velocity : ∀ distance, ∃ w, d.Returns v distance w ∧ 0 ≤ w ∧ w ≤ v ∧
    d.IsVelocityAtDistance v distance w
  antitone : ∀ distance other w w', distance ≤ other → d.Returns v distance w →
    d.Returns v other w' → w' ≤ w

/-! ## Phases -/

theorem vt_lt {t s j a v : ℝ} (hj : j ≤ 0) (ha : a ≤ 0) (hneg : j < 0 ∨ a < 0) (hs : 0 ≤ s)
    (hlt : s < t) : vt t j a v < vt s j a v := by
  have hrate : j * (s + t) / 2 + a < 0 := by
    rcases hneg with hj | ha
    · linarith [mul_neg_of_neg_of_pos hj (by linarith : 0 < s + t)]
    · linarith [mul_nonpos_of_nonpos_of_nonneg hj (by linarith : 0 ≤ s + t)]
  have hfall := mul_neg_of_pos_of_neg (sub_pos.mpr hlt) hrate
  rw [vt, vt]
  linarith

theorem vt_le {t s j a v : ℝ} (hj : j < 0) (ha : a ≤ 0) (hs : 0 ≤ s) (hle : s ≤ t) :
    vt t j a v ≤ vt s j a v := by
  rcases hle.eq_or_lt with rfl | hlt
  · exact le_rfl
  · exact (vt_lt hj.le ha (.inl hj) hs hlt).le

theorem jerkTime_nonneg : 0 ≤ d.jerkTime :=
  div_nonneg_of_nonpos (sub_nonpos.mpr d.limit_le) d.jerk_neg.le

theorem limit_eq : d.limit = d.acceleration + d.jerk * d.jerkTime := by
  rw [jerkTime, mul_div_cancel₀ _ d.jerk_neg.ne, add_sub_cancel]

theorem velocityAt_lt {v s t : ℝ} (hs : 0 ≤ s) (hlt : s < t) :
    d.velocityAt v t < d.velocityAt v s := by
  have hzero : vt 0 0 d.limit (d.jerkVelocity v) = d.jerkVelocity v := by
    rw [vt]
    ring
  rw [velocityAt, velocityAt]
  split_ifs with ht hs' hs'
  · exact vt_lt d.jerk_neg.le d.nonpos (.inl d.jerk_neg) hs hlt
  · exact absurd (hlt.le.trans ht) hs'
  · calc vt (t - d.jerkTime) 0 d.limit (d.jerkVelocity v)
        < vt 0 0 d.limit (d.jerkVelocity v) :=
          vt_lt le_rfl d.limit_neg.le (.inr d.limit_neg) le_rfl (sub_pos.mpr (not_le.mp ht))
      _ = vt d.jerkTime d.jerk d.acceleration v := hzero
      _ ≤ vt s d.jerk d.acceleration v := vt_le d.jerk_neg d.nonpos hs hs'
  · exact vt_lt le_rfl d.limit_neg.le (.inr d.limit_neg)
      (sub_nonneg.mpr (not_le.mp hs').le) (sub_lt_sub_right hlt _)

variable {d}

theorem movesUntil_of_nonneg {v t : ℝ} (ht : 0 ≤ t) (hnonneg : 0 ≤ d.velocityAt v t) :
    d.MovesUntil v t :=
  ⟨ht, fun _ hs hlt => hnonneg.trans_lt (d.velocityAt_lt hs hlt)⟩

theorem StopsAt.eq {v t s : ℝ} (ht : d.StopsAt v t) (hs : d.StopsAt v s) : t = s := by
  rcases lt_trichotomy t s with hlt | heq | hlt
  · exact absurd ht.2 (hs.1.2 t ht.1.1 hlt).ne'
  · exact heq
  · exact absurd hs.2 (ht.1.2 s hs.1.1 hlt).ne'

theorem jerkVelocity_eq (v : ℝ) :
    v + (d.limit ^ 2 - d.acceleration ^ 2) / (2 * d.jerk) = d.jerkVelocity v := by
  have hjerk := d.jerk_neg.ne
  rw [jerkVelocity, vt, jerkTime]
  field_simp
  ring

theorem velocityAt_add {v u : ℝ} (hu : 0 ≤ u) :
    d.velocityAt v (d.jerkTime + u) = vt u 0 d.limit (d.jerkVelocity v) := by
  rcases hu.eq_or_lt with rfl | hlt
  · rw [add_zero, velocityAt, if_pos le_rfl, jerkVelocity, vt, vt]
    ring
  · rw [velocityAt, if_neg (by linarith), add_sub_cancel_left]

theorem distanceAt_add {v u : ℝ} (hu : 0 ≤ u) : d.distanceAt v (d.jerkTime + u) =
      d.jerkDistance v + ft u 0 d.limit (d.jerkVelocity v) 0 := by
  rcases hu.eq_or_lt with rfl | hlt
  · rw [add_zero, distanceAt, if_pos le_rfl, jerkDistance, ft, ft]
    ring
  · rw [distanceAt, if_neg (by linarith), add_sub_cancel_left]

/-- A falling velocity is on the average at least the last one. -/
theorem mul_vt_le_ft (t j : ℝ) {a : ℝ} (v : ℝ) (ha : a ≤ 0) :
    t * vt t j a v - j * t ^ 3 / 3 ≤ ft t j a v 0 := by
  have hfall : a * t ^ 2 / 2 ≤ 0 := by
    have := mul_nonpos_of_nonpos_of_nonneg ha (sq_nonneg t)
    linarith
  rw [vt, ft]
  linarith

theorem ft_nonneg {t j a v : ℝ} (hj : j ≤ 0) (ha : a ≤ 0) (ht : 0 ≤ t) (hv : 0 ≤ vt t j a v) :
    0 ≤ ft t j a v 0 := by
  have hcube := mul_nonpos_of_nonpos_of_nonneg hj (pow_nonneg ht 3)
  linarith [mul_vt_le_ft t j v ha, mul_nonneg ht hv]

/-! ## Standstill -/

variable (d) in
/-- When the velocity would be none at the limit of the jerk. -/
noncomputable def rootTime (v : ℝ) : ℝ :=
  -(d.acceleration + √(d.acceleration * d.acceleration - 2 * d.jerk * v)) / d.jerk

theorem mul_rootTime (v : ℝ) : d.jerk * d.rootTime v = -(d.acceleration +
    √(d.acceleration * d.acceleration - 2 * d.jerk * v)) :=
  mul_div_cancel₀ _ d.jerk_neg.ne

variable {v : ℝ}

theorem vt_rootTime (hv : 0 ≤ v) :
    vt (d.rootTime v) d.jerk d.acceleration v = 0 := by
  have hsquare := Real.mul_self_sqrt (show 0 ≤ d.acceleration * d.acceleration -
    2 * d.jerk * v by nlinarith [mul_self_nonneg d.acceleration, d.jerk_neg])
  have hroot := d.mul_rootTime v
  refine mul_left_cancel₀ (mul_ne_zero two_ne_zero d.jerk_neg.ne) ?_
  rw [vt]
  linear_combination (d.jerk * d.rootTime v + d.acceleration -
    √(d.acceleration * d.acceleration - 2 * d.jerk * v)) * hroot + hsquare

theorem rootTime_nonneg (hv : 0 ≤ v) : 0 ≤ d.rootTime v := by
  have hle : -d.acceleration ≤ √(d.acceleration * d.acceleration - 2 * d.jerk * v) :=
    Real.le_sqrt_of_sq_le (by nlinarith [d.jerk_neg])
  exact div_nonneg_of_nonpos (by linarith) d.jerk_neg.le

theorem rootTime_pos (hv : 0 < v) : 0 < d.rootTime v := by
  refine lt_of_le_of_ne (d.rootTime_nonneg hv.le) fun hzero => ?_
  have hroot := d.vt_rootTime hv.le
  rw [← hzero, vt] at hroot
  linarith

theorem ft_rootTime_pos (hv : 0 < v) :
    0 < ft (d.rootTime v) d.jerk d.acceleration v 0 := by
  have hcube := mul_neg_of_neg_of_pos d.jerk_neg (pow_pos (d.rootTime_pos hv) 3)
  have hle := mul_vt_le_ft (d.rootTime v) d.jerk v d.nonpos
  rw [vt_rootTime hv.le, mul_zero] at hle
  linarith

theorem stopsAt_rootTime (hv : 0 ≤ v) (hslow : d.jerkVelocity v ≤ 0) :
    d.StopsAt v (d.rootTime v) ∧ d.rootTime v ≤ d.jerkTime := by
  have hroot := d.vt_rootTime hv
  have hle : d.rootTime v ≤ d.jerkTime := by
    by_contra hlt
    have hfall := vt_lt (v := v) d.jerk_neg.le d.nonpos (.inl d.jerk_neg)
      d.jerkTime_nonneg (not_le.mp hlt)
    rw [hroot] at hfall
    exact absurd hfall hslow.not_gt
  have hnone : d.velocityAt v (d.rootTime v) = 0 := (if_pos hle).trans hroot
  exact ⟨⟨movesUntil_of_nonneg (d.rootTime_nonneg hv) hnone.ge, hnone⟩, hle⟩

theorem stopsAt_add (hfast : 0 ≤ d.jerkVelocity v) :
    d.StopsAt v (d.jerkTime + d.jerkVelocity v / -d.limit) := by
  have hrest := div_nonneg hfast (neg_nonneg.mpr d.limit_neg.le)
  have hnone : d.velocityAt v (d.jerkTime + d.jerkVelocity v / -d.limit) = 0 := by
    have hlimit := d.limit_neg.ne
    rw [velocityAt_add hrest, vt]
    field_simp
    ring
  exact ⟨movesUntil_of_nonneg (add_nonneg d.jerkTime_nonneg hrest) hnone.ge, hnone⟩

theorem StopsAt.isStopDistance_iff {delay v t distance : ℝ} (ht : d.StopsAt v t) :
    d.IsStopDistance delay v distance ↔ distance = v * delay + d.distanceAt v t := by
  constructor
  · rintro ⟨s, hs, hdistance⟩
    rwa [ht.eq hs]
  · intro hdistance
    exact ⟨t, ht, hdistance⟩

/-! ## The distance to standstill -/

theorem distanceAt_standstill (hfast : 0 ≤ d.jerkVelocity v) :
    d.distanceAt v (d.jerkTime + d.jerkVelocity v / -d.limit) =
      d.jerkDistance v + -1 * d.jerkVelocity v ^ 2 / (2 * d.limit) := by
  have hlimit := d.limit_neg.ne
  rw [distanceAt_add (div_nonneg hfast (neg_nonneg.mpr d.limit_neg.le)), ft]
  field_simp
  ring

theorem jerkDistance_nonneg (hfast : 0 ≤ d.jerkVelocity v) : 0 ≤ d.jerkDistance v :=
  ft_nonneg d.jerk_neg.le d.nonpos d.jerkTime_nonneg hfast

variable {delay v : ℝ}

theorem judgeLineDist_fast (hdelay : 0 ≤ delay) (hv : 0 < v) (hfast : 0 < d.jerkVelocity v) :
    d.judgeLineDist delay v = v * delay +
      (d.jerkDistance v + -1 * d.jerkVelocity v ^ 2 / (2 * d.limit)) := by
  have hjerk : v * d.jerkTime + d.acceleration * d.jerkTime ^ 2 / 2 +
      d.jerk * d.jerkTime ^ 3 / 6 = d.jerkDistance v := by
    rw [jerkDistance, ft]
    ring
  have hjerkNonneg := jerkDistance_nonneg hfast.le
  have hlastNonneg : 0 ≤ -1 * d.jerkVelocity v ^ 2 / (2 * d.limit) :=
    div_nonneg_of_nonpos (by nlinarith) (by linarith [d.limit_neg])
  rw [judgeLineDist, calcJudgeLineDistWithJerkLimit, if_neg (not_le.mpr hv)]
  dsimp only
  rw [d.jerkVelocity_eq, if_neg (not_le.mpr hfast)]
  change max 0 (v * delay + (v * d.jerkTime + d.acceleration * d.jerkTime ^ 2 / 2 +
    d.jerk * d.jerkTime ^ 3 / 6) + -1 * d.jerkVelocity v ^ 2 / (2 * d.limit)) = _
  rw [hjerk, add_assoc, max_eq_right (by positivity)]

/-- Two times of one distance, if there is no velocity at the first. -/
theorem ft_eq_iff {s t j a v : ℝ} (hs : vt s j a v = 0) :
    ft t j a v 0 = ft s j a v 0 ↔ t = s ∨ j * (t + 2 * s) = -3 * a := by
  have hfactor : ft t j a v 0 - ft s j a v 0 = (t - s) ^ 2 * (j * (t + 2 * s) + 3 * a) / 6 := by
    rw [vt] at hs
    rw [ft, ft]
    linear_combination (t - s) * hs
  rw [← sub_eq_zero, hfactor, div_eq_zero_iff, or_iff_left (by norm_num), mul_eq_zero,
    sq_eq_zero_iff, sub_eq_zero, neg_mul, eq_neg_iff_add_eq_zero]

theorem judgeLineDist_slow_iff (hdelay : 0 ≤ delay) (hv : 0 < v) (hslow : d.jerkVelocity v ≤ 0) :
    d.judgeLineDist delay v = v * delay + d.distanceAt v (d.rootTime v) ↔ d.acceleration - d.limit =
        3 * √(d.acceleration * d.acceleration - 2 * d.jerk * v) := by
  obtain ⟨-, hle⟩ := d.stopsAt_rootTime hv.le hslow
  have hjerk := d.jerk_neg.ne
  have hroot := d.vt_rootTime hv.le
  have hmul := d.mul_rootTime v
  have hdistance : d.distanceAt v (d.rootTime v) =
      ft (d.rootTime v) d.jerk d.acceleration v 0 := if_pos hle
  have hpositive := d.ft_rootTime_pos hv
  have hdelayed := mul_nonneg hv.le hdelay
  rw [judgeLineDist, calcJudgeLineDistWithJerkLimit, if_neg (not_le.mpr hv)]
  dsimp only
  rw [d.jerkVelocity_eq, if_pos hslow, hdistance]
  generalize √(d.acceleration * d.acceleration - 2 * d.jerk * v) = s at *
  generalize ht : -1 * (d.limit + s) / d.jerk = t
  have hmulT : d.jerk * t = -(d.limit + s) := by
    rw [← ht, mul_div_cancel₀ _ hjerk]
    ring
  have hcubic : v * t + d.acceleration * t ^ 2 / 2 + d.jerk * t ^ 3 / 6 =
      ft t d.jerk d.acceleration v 0 := by
    rw [ft]
    ring
  have hother : t ≠ d.rootTime v := by
    rintro rfl
    have hsame : d.limit = d.acceleration := by linarith
    have hnone : d.jerkTime = 0 := by rw [jerkTime, hsame, sub_self, zero_div]
    rw [jerkVelocity, hnone, vt] at hslow
    linarith
  have hmax : max 0 (v * delay + ft t d.jerk d.acceleration v 0) =
      v * delay + ft (d.rootTime v) d.jerk d.acceleration v 0 ↔
      ft t d.jerk d.acceleration v 0 = ft (d.rootTime v) d.jerk d.acceleration v 0 := by
    constructor
    · intro hmax
      rcases max_choice 0 (v * delay + ft t d.jerk d.acceleration v 0) with heq | heq
      · linarith
      · linarith
    · intro hsame
      rw [hsame, max_eq_right (by linarith)]
  rw [hcubic, hmax, ft_eq_iff hroot, or_iff_right hother]
  constructor
  · intro hsum
    linarith
  · intro hsame
    linarith

theorem isStopDistance_judgeLineDist_iff (hdelay : 0 ≤ delay) (hv : 0 < v) :
    d.IsStopDistance delay v (d.judgeLineDist delay v) ↔
      0 < d.jerkVelocity v ∨ d.acceleration - d.limit =
        3 * √(d.acceleration * d.acceleration - 2 * d.jerk * v) := by
  rcases lt_or_ge 0 (d.jerkVelocity v) with hfast | hslow
  · rw [(stopsAt_add hfast.le).isStopDistance_iff, distanceAt_standstill hfast.le,
      judgeLineDist_fast hdelay hv hfast]
    exact iff_of_true rfl (.inl hfast)
  · rw [(stopsAt_rootTime hv.le hslow).1.isStopDistance_iff,
      judgeLineDist_slow_iff hdelay hv hslow, or_iff_right hslow.not_gt]

/-- The distance is that of the profile where velocity is left at the limit of the
acceleration, and hardly ever elsewhere. -/
theorem judgeLineDist_correct {delay : ℝ} (hdelay : 0 ≤ delay) :
    (∀ v, 0 < v → (d.IsStopDistance delay v (d.judgeLineDist delay v) ↔
      0 < d.jerkVelocity v ∨ d.acceleration - d.limit =
        3 * √(d.acceleration * d.acceleration - 2 * d.jerk * v))) ∧
    MonotoneOn (d.judgeLineDist delay) {v | 0 < v ∧ 0 < d.jerkVelocity v} ∧
    ContinuousOn (d.judgeLineDist delay) {v | 0 < v ∧ 0 < d.jerkVelocity v} := by
  refine ⟨fun v hv => isStopDistance_judgeLineDist_iff hdelay hv, ?_, ?_⟩
  · rintro v ⟨hv, hfast⟩ w ⟨hw, hfaster⟩ hle
    have hdelayed := mul_le_mul_of_nonneg_right hle hdelay
    have hjerk : d.jerkDistance v ≤ d.jerkDistance w := by
      rw [jerkDistance, jerkDistance, ft, ft]
      linarith [mul_le_mul_of_nonneg_right hle d.jerkTime_nonneg]
    have hvelocity : d.jerkVelocity v ≤ d.jerkVelocity w := by
      rw [jerkVelocity, jerkVelocity, vt, vt]
      linarith
    have hlast : -1 * d.jerkVelocity v ^ 2 / (2 * d.limit) ≤
        -1 * d.jerkVelocity w ^ 2 / (2 * d.limit) :=
      div_le_div_of_nonpos_of_le (by linarith [d.limit_neg])
        (by linarith [pow_le_pow_left₀ hfast.le hvelocity 2])
    rw [judgeLineDist_fast hdelay hv hfast, judgeLineDist_fast hdelay hw hfaster]
    linarith
  · have hcontinuous : Continuous fun v => v * delay +
        (d.jerkDistance v + -1 * d.jerkVelocity v ^ 2 / (2 * d.limit)) := by
      unfold jerkDistance jerkVelocity ft vt
      fun_prop
    exact hcontinuous.continuousOn.congr fun v hv => judgeLineDist_fast hdelay hv.1 hv.2

noncomputable def atLimit : Deceleration :=
  ⟨-1, -1, -1, by norm_num, by norm_num, le_rfl, by norm_num⟩

theorem judgeLineDist_atLimit :
    atLimit.IsStopDistance (1 / 2) 10 (atLimit.judgeLineDist (1 / 2) 10) :=
  ((judgeLineDist_correct (by norm_num)).1 10 (by norm_num)).mpr
    (.inl (by norm_num [jerkVelocity, vt, jerkTime, atLimit]))

noncomputable def farFromLimit : Deceleration :=
  ⟨0, -1, -5, by norm_num, by norm_num, by norm_num, le_rfl⟩

theorem jerkVelocity_farFromLimit : farFromLimit.jerkVelocity 2 = -21 / 2 := by
  norm_num [jerkVelocity, vt, jerkTime, farFromLimit]

theorem sqrt_farFromLimit : √(farFromLimit.acceleration * farFromLimit.acceleration -
    2 * farFromLimit.jerk * 2) = 2 := by
  rw [show farFromLimit.acceleration * farFromLimit.acceleration - 2 * farFromLimit.jerk * 2 =
    2 ^ 2 by norm_num [farFromLimit], Real.sqrt_sq zero_le_two]

theorem judgeLineDist_farFromLimit :
    ¬ farFromLimit.IsStopDistance 0 2 (farFromLimit.judgeLineDist 0 2) := by
  rw [isStopDistance_judgeLineDist_iff le_rfl two_pos, jerkVelocity_farFromLimit, sqrt_farFromLimit]
  norm_num [farFromLimit]

/-! ## The velocity at a distance -/

theorem Returns.eq {v distance w w' : ℝ} (hw : d.Returns v distance w)
    (hw' : d.Returns v distance w') : w = w' := by
  obtain ⟨n, hn⟩ := hw
  obtain ⟨m, hm⟩ := hw'
  exact Option.some.inj ((hn (n + m + 1) (by omega)).symm.trans (hm (n + m + 1) (by omega)))

variable {v distance : ℝ}

theorem returns_of_nonpos (hdistance : distance ≤ 0) : d.Returns v distance v :=
  ⟨0, fun _ _ => if_pos hdistance⟩

theorem returns_before {v distance t : ℝ} {n : ℕ} (hpos : 0 < distance)
    (hbefore : distance < d.jerkDistance v)
    (ht : ∀ fuel > n, findReachTime fuel d.jerk d.acceleration v distance 0 d.jerkTime =
      some t) : d.Returns v distance (vt t d.jerk d.acceleration v) := by
  refine ⟨n, fun fuel hfuel => ?_⟩
  rw [calcDecelerationVelocityFromDistanceToTarget, if_neg (not_le.mpr hpos)]
  exact (if_pos (sub_neg.mpr hbefore)).trans (congrArg _ (ht fuel hfuel))

variable (d) in
/-- What the code takes the root of behind the distance where the limit is reached. -/
noncomputable def discriminant (v distance : ℝ) : ℝ :=
  2 * d.limit * (distance - d.jerkDistance v) + d.jerkVelocity v * d.jerkVelocity v

theorem returns_behind (hpos : 0 < distance) (hbehind : d.jerkDistance v ≤ distance) :
    d.Returns v distance √(d.discriminant v distance) := by
  refine ⟨0, fun fuel _ => ?_⟩
  have hroot : vt ((-d.jerkVelocity v + √(d.discriminant v distance)) / d.limit) 0
      d.limit (d.jerkVelocity v) = √(d.discriminant v distance) := by
    rw [vt, mul_div_cancel₀ _ d.limit_neg.ne]
    ring
  rw [calcDecelerationVelocityFromDistanceToTarget, if_neg (not_le.mpr hpos)]
  refine (if_neg (sub_nonneg.mpr hbehind).not_gt).trans ?_
  change (if d.discriminant v distance ≤ 0 then _ else some (vt ((-d.jerkVelocity v +
    √(d.discriminant v distance)) / d.limit) 0 d.limit (d.jerkVelocity v))) = _
  split_ifs with hnonpos
  · rw [Real.sqrt_eq_zero_of_nonpos hnonpos]
  · rw [hroot]

theorem vt_mem {v t : ℝ} (ht : 0 ≤ t) (hle : t ≤ d.jerkTime) :
    d.jerkVelocity v ≤ vt t d.jerk d.acceleration v ∧
      vt t d.jerk d.acceleration v ≤ v := by
  have hstart : vt 0 d.jerk d.acceleration v = v := by
    rw [vt]
    ring
  exact ⟨vt_le d.jerk_neg d.nonpos ht hle, (vt_le d.jerk_neg d.nonpos le_rfl ht).trans hstart.le⟩

/-- The bisection ends while velocity is left at its upper end. -/
theorem exists_reachTime (hpos : 0 < distance) (hbefore : distance < d.jerkDistance v) :
    ∃ n t, ∀ fuel > n, findReachTime fuel d.jerk d.acceleration v distance 0
      d.jerkTime = some t := by
  have hlower : ft 0 d.jerk d.acceleration v distance ≤ 0 := by
    rw [ft]
    linarith
  have hupper : 0 ≤ ft d.jerkTime d.jerk d.acceleration v distance := by
    rw [jerkDistance, ft] at hbefore
    rw [ft]
    linarith
  have hrise : ∀ s t, 0 ≤ s → s ≤ t → t ≤ d.jerkTime → ft t d.jerk d.acceleration v
      distance - ft s d.jerk d.acceleration v distance ≤ v * (t - s) := by
    intro s t hs hst _
    have hfirst := mul_nonpos_of_nonpos_of_nonneg d.nonpos (add_nonneg hs (hs.trans hst))
    have hsecond := mul_nonpos_of_nonpos_of_nonneg d.jerk_neg.le
      (show 0 ≤ s * s + s * t + t * t by have := hs.trans hst; positivity)
    have hfall := mul_nonpos_of_nonneg_of_nonpos (sub_nonneg.mpr hst)
      (show d.acceleration * (s + t) / 2 + d.jerk * (s * s + s * t + t * t) / 6 ≤ 0 by
        linarith)
    rw [ft, ft]
    linarith
  exact exists_bisect (by norm_num) d.jerkTime_nonneg hlower hupper hrise

theorem isVelocityAtDistance_before {v distance t : ℝ} {fuel : ℕ}
    (hfast : 0 ≤ d.jerkVelocity v) (hpos : 0 < distance) (hbefore : distance < d.jerkDistance v)
    (ht : findReachTime fuel d.jerk d.acceleration v distance 0 d.jerkTime = some t) :
    d.IsVelocityAtDistance v distance (vt t d.jerk d.acceleration v) := by
  obtain ⟨hnonneg, hle, hsmall⟩ := bisect_some d.jerkTime_nonneg ht
  have hvelocity : d.velocityAt v t = vt t d.jerk d.acceleration v := if_pos hle
  have hdistance : d.distanceAt v t = ft t d.jerk d.acceleration v 0 := if_pos hle
  refine .inr ⟨hpos, .inl ⟨t, movesUntil_of_nonneg hnonneg ?_, hvelocity, .inr ⟨hbefore, ?_⟩⟩⟩
  · rw [hvelocity]
    exact hfast.trans (vt_mem hnonneg hle).1
  · rw [ft] at hsmall
    rwa [hdistance, ft, sub_zero]

theorem isVelocityAtDistance_behind (hfast : 0 ≤ d.jerkVelocity v)
    (hpos : 0 < distance) (hbehind : d.jerkDistance v ≤ distance) :
    √(d.discriminant v distance) ≤ d.jerkVelocity v ∧
      d.IsVelocityAtDistance v distance √(d.discriminant v distance) := by
  have hlimit := d.limit_neg
  have hle : √(d.discriminant v distance) ≤ d.jerkVelocity v := by
    refine Real.sqrt_le_iff.mpr ⟨hfast, ?_⟩
    have hloss := mul_nonpos_of_nonpos_of_nonneg hlimit.le (sub_nonneg.mpr hbehind)
    rw [discriminant]
    linarith
  refine ⟨hle, .inr ⟨hpos, ?_⟩⟩
  rcases le_total (d.discriminant v distance) 0 with hnonpos | hnonneg
  · refine .inr ⟨Real.sqrt_eq_zero_of_nonpos hnonpos, _, stopsAt_add hfast, ?_⟩
    have hrest : -1 * d.jerkVelocity v ^ 2 / (2 * d.limit) ≤
        distance - d.jerkDistance v := by
      rw [div_le_iff_of_neg (by linarith)]
      rw [discriminant] at hnonpos
      linarith
    rw [distanceAt_standstill hfast]
    linarith
  · have hmul : d.limit * ((√(d.discriminant v distance) - d.jerkVelocity v) /
        d.limit) = √(d.discriminant v distance) - d.jerkVelocity v :=
      mul_div_cancel₀ _ hlimit.ne
    have htime := div_nonneg_of_nonpos (sub_nonpos.mpr hle) hlimit.le
    generalize (√(d.discriminant v distance) - d.jerkVelocity v) / d.limit = u at *
    have hvelocity : d.velocityAt v (d.jerkTime + u) = √(d.discriminant v distance) := by
      rw [velocityAt_add htime, vt]
      linarith
    refine .inl ⟨_, movesUntil_of_nonneg (add_nonneg d.jerkTime_nonneg htime) ?_, hvelocity,
      .inl ?_⟩
    · rw [hvelocity]
      exact Real.sqrt_nonneg _
    · have hsquare := Real.mul_self_sqrt hnonneg
      rw [distanceAt_add htime, ft]
      refine mul_left_cancel₀ (mul_ne_zero two_ne_zero hlimit.ne) ?_
      rw [discriminant] at hsquare hmul
      linear_combination (d.limit * u + 2 * d.jerkVelocity v + (√(2 * d.limit *
        (distance - d.jerkDistance v) + d.jerkVelocity v * d.jerkVelocity v) -
        d.jerkVelocity v)) * hmul + hsquare

theorem exists_velocity (hv : 0 ≤ v) (hfast : 0 ≤ d.jerkVelocity v) (distance : ℝ) :
    ∃ w, d.Returns v distance w ∧ 0 ≤ w ∧ w ≤ v ∧ d.IsVelocityAtDistance v distance w := by
  rcases le_or_gt distance 0 with hnonpos | hpos
  · exact ⟨v, returns_of_nonpos hnonpos, hv, le_rfl, .inl ⟨hnonpos, rfl⟩⟩
  · rcases lt_or_ge distance (d.jerkDistance v) with hbefore | hbehind
    · obtain ⟨n, t, ht⟩ := exists_reachTime hpos hbefore
      obtain ⟨hnonneg, hle, -⟩ := bisect_some d.jerkTime_nonneg (ht (n + 1) n.lt_succ_self)
      obtain ⟨hlower, hupper⟩ := vt_mem hnonneg hle
      exact ⟨_, returns_before hpos hbefore ht, hfast.trans hlower, hupper,
        isVelocityAtDistance_before hfast hpos hbefore (ht (n + 1) n.lt_succ_self)⟩
    · obtain ⟨hle, hfollows⟩ := isVelocityAtDistance_behind hfast hpos hbehind
      have hjerk := (vt_mem (v := v) le_rfl d.jerkTime_nonneg).1.trans
        (vt_mem le_rfl d.jerkTime_nonneg).2
      exact ⟨_, returns_behind hpos hbehind, Real.sqrt_nonneg _, hle.trans hjerk, hfollows⟩

theorem returns_antitone {v distance other w w' : ℝ} (hv : 0 ≤ v)
    (hfast : 0 ≤ d.jerkVelocity v) (hle : distance ≤ other)
    (hw : d.Returns v distance w) (hw' : d.Returns v other w') : w' ≤ w := by
  rcases le_or_gt distance 0 with hnonpos | hpos
  · obtain ⟨_, hother, -, hupper, -⟩ := exists_velocity hv hfast other
    rw [hw.eq (returns_of_nonpos hnonpos), hw'.eq hother]
    exact hupper
  rcases lt_or_ge distance (d.jerkDistance v) with hbefore | hbehind
  · obtain ⟨n, t, ht⟩ := exists_reachTime hpos hbefore
    obtain ⟨hnonneg, htime, -⟩ := bisect_some d.jerkTime_nonneg (ht (n + 1) n.lt_succ_self)
    rw [hw.eq (returns_before hpos hbefore ht)]
    rcases lt_or_ge other (d.jerkDistance v) with hother | hother
    · obtain ⟨m, s, hs⟩ := exists_reachTime (hpos.trans_le hle) hother
      rw [hw'.eq (returns_before (hpos.trans_le hle) hother hs)]
      refine vt_le d.jerk_neg d.nonpos hnonneg (bisect_mono d.jerkTime_nonneg
        (fun x => ?_) (ht (n + m + 1) (by omega)) (hs (n + m + 1) (by omega)))
      rw [ft, ft]
      linarith
    · rw [hw'.eq (returns_behind (hpos.trans_le hle) hother)]
      exact (isVelocityAtDistance_behind hfast (hpos.trans_le hle) hother).1.trans
        (vt_mem hnonneg htime).1
  · rw [hw.eq (returns_behind hpos hbehind),
      hw'.eq (returns_behind (hpos.trans_le hle) (hbehind.trans hle))]
    refine Real.sqrt_le_sqrt ?_
    rw [discriminant, discriminant]
    linarith [mul_nonpos_of_nonpos_of_nonneg d.limit_neg.le (sub_nonneg.mpr hle)]

/-! ## The velocity of a vehicle that would move backwards -/

theorem sq_vt_lt {r u j a v : ℝ} (hj : j < 0) (hu : 0 < u) (ha : a + j * r ≤ 0)
    (hroot : vt r j a v = 0) : vt (r + u) j a v * vt (r + u) j a v <
      2 * (a + j * (r + u)) * (ft (r + u) j a v 0 - ft r j a v 0) := by
  obtain rfl : v = -(j * r * r / 2 + a * r) := by
    rw [vt] at hroot
    linarith
  have hfirst := mul_nonneg (mul_nonneg_of_nonpos_of_nonpos hj.le ha) (pow_pos hu 3).le
  have hsecond := mul_pos (sq_pos_of_neg hj) (pow_pos hu 4)
  rw [vt, ft, ft]
  linarith

/-- Its root is taken for standstill before it stands still. -/
theorem discriminant_lt (hv : 0 ≤ v) (hslow : d.jerkVelocity v < 0) (distance : ℝ) :
    d.discriminant v distance <
      2 * d.limit * (distance - d.distanceAt v (d.rootTime v)) := by
  obtain ⟨-, hle⟩ := stopsAt_rootTime hv hslow.le
  have hbefore : d.rootTime v < d.jerkTime := by
    refine lt_of_le_of_ne hle fun heq => ?_
    rw [jerkVelocity, ← heq, vt_rootTime hv] at hslow
    exact lt_irrefl _ hslow
  have hnonpos : d.acceleration + d.jerk * d.rootTime v ≤ 0 :=
    add_nonpos d.nonpos (mul_nonpos_of_nonpos_of_nonneg d.jerk_neg.le (rootTime_nonneg hv))
  have hlt := sq_vt_lt d.jerk_neg (sub_pos.mpr hbefore) hnonpos (vt_rootTime hv)
  rw [add_sub_cancel, ← d.limit_eq] at hlt
  rw [discriminant, distanceAt, if_pos hle, jerkVelocity, jerkDistance]
  linarith

theorem jerkDistance_le (hnonpos : d.discriminant v distance ≤ 0) :
    d.jerkDistance v ≤ distance := by
  by_contra hlt
  have hprod := mul_pos_of_neg_of_neg d.limit_neg (sub_neg.mpr (not_le.mp hlt))
  rw [discriminant] at hnonpos
  linarith [mul_self_nonneg (d.jerkVelocity v)]

theorem returns_zero (hpos : 0 < distance)
    (hnonpos : d.discriminant v distance ≤ 0) : d.Returns v distance 0 := by
  rw [← Real.sqrt_eq_zero_of_nonpos hnonpos]
  exact returns_behind hpos (jerkDistance_le hnonpos)

theorem followsProfile_standstill (hslow : d.jerkVelocity 0 < 0) : d.FollowsProfile 0 := by
  obtain ⟨hstops, -⟩ := stopsAt_rootTime le_rfl hslow.le
  have hroot : d.rootTime 0 = 0 := by
    rw [rootTime, mul_zero, sub_zero, Real.sqrt_mul_self_eq_abs, abs_of_nonpos d.nonpos,
      add_neg_cancel, neg_zero, zero_div]
  have hdistance : d.distanceAt 0 (d.rootTime 0) = 0 := by
    rw [hroot, distanceAt, if_pos d.jerkTime_nonneg, ft]
    ring
  have hzero : ∀ distance, d.Returns 0 distance 0 := by
    intro distance
    rcases le_or_gt distance 0 with hnonpos | hpos
    · exact returns_of_nonpos hnonpos
    · have hlt := discriminant_lt le_rfl hslow distance
      rw [hdistance, sub_zero] at hlt
      exact returns_zero hpos (by linarith [mul_neg_of_neg_of_pos d.limit_neg hpos])
  constructor
  · intro distance
    refine ⟨0, hzero distance, le_rfl, le_rfl, ?_⟩
    rcases le_or_gt distance 0 with hnonpos | hpos
    · exact .inl ⟨hnonpos, rfl⟩
    · exact .inr ⟨hpos, .inr ⟨rfl, _, hstops, hdistance.trans_le hpos.le⟩⟩
  · intro distance other w w' _ hw hw'
    exact ((hw'.eq (hzero other)).trans (hw.eq (hzero distance)).symm).le

theorem no_velocityAtDistance (hv : 0 ≤ v) (hslow : d.jerkVelocity v ≤ 0) (hpos : 0 < distance)
    (hnonpos : d.discriminant v distance ≤ 0) (hbefore : distance < d.distanceAt v (d.rootTime v)) :
    ¬ ∃ w, d.Returns v distance w ∧ d.IsVelocityAtDistance v distance w := by
  obtain ⟨hstops, -⟩ := stopsAt_rootTime hv hslow
  rintro ⟨w, hw, hfollows⟩
  obtain rfl := hw.eq (returns_zero hpos hnonpos)
  rcases hfollows with ⟨hle, -⟩ | ⟨-, ⟨t, hmoves, hnone, hdistance⟩ | ⟨-, t, hstop, hle⟩⟩
  · exact hle.not_gt hpos
  · rw [hstops.eq ⟨hmoves, hnone⟩] at hbefore
    rcases hdistance with heq | ⟨hlt, -⟩
    · exact hbefore.ne' heq
    · exact (jerkDistance_le hnonpos).not_gt hlt
  · rw [hstops.eq hstop] at hbefore
    exact hle.not_gt hbefore

theorem not_followsProfile (hv : 0 < v) (hslow : d.jerkVelocity v < 0) :
    ¬ d.FollowsProfile v := by
  intro hfollows
  have hlimit := d.limit_neg
  have hstop : 0 < d.distanceAt v (d.rootTime v) := by
    rw [distanceAt, if_pos (stopsAt_rootTime hv.le hslow.le).2]
    exact ft_rootTime_pos hv
  obtain ⟨early, hearly⟩ : ∃ early, d.discriminant v early = 0 := by
    refine ⟨d.jerkDistance v - d.jerkVelocity v * d.jerkVelocity v / (2 * d.limit), ?_⟩
    have hne := hlimit.ne
    rw [discriminant]
    field_simp
    ring
  have hbefore : early < d.distanceAt v (d.rootTime v) := by
    have hlt := discriminant_lt hv.le hslow early
    rw [hearly] at hlt
    exact sub_neg.mp (neg_of_mul_pos_right hlt (by linarith))
  -- between the distance where the code sees standstill and the one where it is
  have hnonpos : d.discriminant v (max early (d.distanceAt v (d.rootTime v) / 2)) ≤ 0 := by
    have hloss := mul_nonpos_of_nonpos_of_nonneg hlimit.le (sub_nonneg.mpr
      (le_max_left early (d.distanceAt v (d.rootTime v) / 2)))
    rw [discriminant] at hearly ⊢
    linarith
  obtain ⟨w, hw, -, -, hvelocity⟩ := hfollows.velocity
    (max early (d.distanceAt v (d.rootTime v) / 2))
  exact no_velocityAtDistance hv.le hslow.le (lt_max_of_lt_right (half_pos hstop)) hnonpos
    (max_lt hbefore (half_lt_self hstop)) ⟨w, hw, hvelocity⟩

theorem followsProfile_iff {v : ℝ} (hv : 0 ≤ v) :
    d.FollowsProfile v ↔ 0 ≤ d.jerkVelocity v ∨ v = 0 := by
  rcases lt_or_ge (d.jerkVelocity v) 0 with hslow | hfast
  · rw [or_iff_right hslow.not_ge]
    constructor
    · intro hfollows
      by_contra hne
      exact not_followsProfile (lt_of_le_of_ne hv (Ne.symm hne)) hslow hfollows
    · rintro rfl
      exact followsProfile_standstill hslow
  · refine iff_of_true ⟨exists_velocity hv hfast, ?_⟩ (.inl hfast)
    intro distance other w w' hle hw hw'
    exact returns_antitone hv hfast hle hw hw'

theorem followsProfile_atLimit : atLimit.FollowsProfile 10 :=
  (followsProfile_iff (by norm_num)).mpr (.inl (by norm_num [jerkVelocity, vt, jerkTime, atLimit]))

theorem velocityAtDistance_farFromLimit :
    ¬ ∃ w, farFromLimit.Returns 2 1 w ∧ farFromLimit.IsVelocityAtDistance 2 1 w := by
  have hroot : farFromLimit.rootTime 2 = 2 := by
    rw [rootTime, sqrt_farFromLimit]
    norm_num [farFromLimit]
  refine no_velocityAtDistance zero_le_two ?_ one_pos ?_ ?_
  · norm_num [jerkVelocity_farFromLimit]
  · rw [discriminant, jerkVelocity_farFromLimit]
    norm_num [jerkDistance, ft, jerkTime, farFromLimit]
  · rw [hroot, distanceAt]
    norm_num [jerkTime, ft, farFromLimit]

end Deceleration

end AutowareUniverse.Planning.PlanningUtils
