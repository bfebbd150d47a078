import AutowareUniverse.Control.Compatibility
import AutowareUniverse.System.EmergencyHandler
import Mathlib.Analysis.Real.Pi.Bounds

/-!
# The filter of the vehicle commands

The filter limits a command by its own bounds and by its difference to the
previous command.  Numbers are those of an ordered field, exact rationals unless
another one is given, and the tangent and its inverse are parameters, on which the
limited speed does not depend.  Of a command the stamps and the jerk are left out.
-/

namespace AutowareUniverse.Control

/-- `AckermannControlCommand`: the lateral and the longitudinal command. -/
structure AckermannControlCommand (K : Type := ℚ) where
  steeringTireAngle : K
  steeringTireRotationRate : K
  speed : K
  acceleration : K
  deriving DecidableEq

namespace AckermannControlCommand

/-- The value-initialized message. -/
def zero : AckermannControlCommand := ⟨0, 0, 0, 0⟩

end AckermannControlCommand

structure VehicleCmdFilterParam (K : Type := ℚ) where
  wheelBase : K
  velLim : K
  lonAccLim : K
  lonJerkLim : K
  latAccLim : K
  latJerkLim : K
  actualSteerDiffLim : K
  deriving DecidableEq

/-- `std::tan` and `std::atan`. -/
structure Trigonometry (K : Type := ℚ) where
  tan : K → K
  atan : K → K

structure VehicleCmdFilter (K : Type := ℚ) where
  param : VehicleCmdFilterParam K
  prevCmd : AckermannControlCommand K
  deriving DecidableEq

namespace VehicleCmdFilter

variable {K : Type} [Field K] [LinearOrder K]

def setPrevCmd (self : VehicleCmdFilter K) (cmd : AckermannControlCommand K) :
    VehicleCmdFilter K :=
  { self with prevCmd := cmd }

def limitDiff (curr prev diffLim : K) : K :=
  let diff := max (min (curr - prev) diffLim) (-diffLim)
  prev + diff

/-- `std::clamp`. -/
def clamp (value low high : K) : K :=
  if value < low then low else if high < value then high else value

variable (trigonometry : Trigonometry K) (self : VehicleCmdFilter K)

def calcSteerFromLatacc (v latacc : K) : K :=
  let vSq := max (v * v) (1 / 1000)
  trigonometry.atan (latacc * self.param.wheelBase / vSq)

def calcLatAcc (cmd : AckermannControlCommand K) : K :=
  let v := cmd.speed
  v * v * trigonometry.tan cmd.steeringTireAngle / self.param.wheelBase

variable (input : AckermannControlCommand K)

def limitLongitudinalWithVel : AckermannControlCommand K :=
  { input with speed := max (min input.speed self.param.velLim) (-self.param.velLim) }

def limitLongitudinalWithAcc (dt : K) (input : AckermannControlCommand K) :
    AckermannControlCommand K :=
  { input with
    acceleration := max (min input.acceleration self.param.lonAccLim) (-self.param.lonAccLim)
    speed := limitDiff input.speed self.prevCmd.speed (self.param.lonAccLim * dt) }

def limitLongitudinalWithJerk (dt : K) (input : AckermannControlCommand K) :
    AckermannControlCommand K :=
  { input with
    acceleration :=
      limitDiff input.acceleration self.prevCmd.acceleration (self.param.lonJerkLim * dt) }

def limitLateralWithLatAcc : AckermannControlCommand K :=
  let latacc := self.calcLatAcc trigonometry input
  if self.param.latAccLim < |latacc| then
    let vSq := max (input.speed * input.speed) (1 / 1000)
    let steerLim := trigonometry.atan (self.param.latAccLim * self.param.wheelBase / vSq)
    { input with steeringTireAngle := if 0 < latacc then steerLim else -steerLim }
  else input

def limitLateralWithLatJerk (dt : K) (input : AckermannControlCommand K) :
    AckermannControlCommand K :=
  let currLatacc := self.calcLatAcc trigonometry input
  let prevLatacc := self.calcLatAcc trigonometry self.prevCmd
  let lataccMax := prevLatacc + self.param.latJerkLim * dt
  let lataccMin := prevLatacc - self.param.latJerkLim * dt
  if lataccMax < currLatacc then
    { input with
      steeringTireAngle := self.calcSteerFromLatacc trigonometry input.speed lataccMax }
  else if currLatacc < lataccMin then
    { input with
      steeringTireAngle := self.calcSteerFromLatacc trigonometry input.speed lataccMin }
  else input

def limitActualSteerDiff (currentSteerAngle : K) (input : AckermannControlCommand K) :
    AckermannControlCommand K :=
  let ds := clamp (input.steeringTireAngle - currentSteerAngle)
    (-self.param.actualSteerDiffLim) self.param.actualSteerDiffLim
  { input with steeringTireAngle := currentSteerAngle + ds }

def filterAll (dt currentSteerAngle : K) (cmd : AckermannControlCommand K) :
    AckermannControlCommand K :=
  let cmd := self.limitLongitudinalWithJerk dt cmd
  let cmd := self.limitLongitudinalWithAcc dt cmd
  let cmd := self.limitLongitudinalWithVel cmd
  let cmd := self.limitLateralWithLatJerk trigonometry dt cmd
  let cmd := self.limitLateralWithLatAcc trigonometry cmd
  self.limitActualSteerDiff currentSteerAngle cmd

@[simp]
theorem speed_limitLateralWithLatAcc :
    (self.limitLateralWithLatAcc trigonometry input).speed = input.speed := by
  unfold limitLateralWithLatAcc
  dsimp only
  split
  · rfl
  · rfl

@[simp]
theorem speed_limitLateralWithLatJerk (dt : K) (input : AckermannControlCommand K) :
    (self.limitLateralWithLatJerk trigonometry dt input).speed = input.speed := by
  unfold limitLateralWithLatJerk
  dsimp only
  split
  · rfl
  · split
    · rfl
    · rfl

theorem speed_filterAll (dt currentSteerAngle : K) (cmd : AckermannControlCommand K) :
    (self.filterAll trigonometry dt currentSteerAngle cmd).speed =
      max (min (limitDiff cmd.speed self.prevCmd.speed (self.param.lonAccLim * dt))
        self.param.velLim) (-self.param.velLim) := by
  unfold filterAll limitActualSteerDiff
  dsimp only
  rw [speed_limitLateralWithLatAcc, speed_limitLateralWithLatJerk]
  rfl

end VehicleCmdFilter

section

open VehicleCmdFilter

variable {K : Type} [Field K] [LinearOrder K] [IsStrictOrderedRing K] {bound : K}

/-- A value between two bounds is within a distance of zero exactly if the bounds
allow it, and the value itself or a bound is. -/
theorem abs_limited_le_iff {value low high : K} (hbounds : low ≤ high) :
    |max (min value high) low| ≤ bound ↔
      low ≤ bound ∧ -bound ≤ high ∧ (value ≤ bound ∨ high ≤ bound) ∧
        (-bound ≤ value ∨ -bound ≤ low) := by
  rw [abs_le, le_max_iff, max_le_iff, le_min_iff, min_le_iff]
  constructor
  · rintro ⟨⟨hvalue, hhigh⟩ | hlow, hupper, hlower⟩
    · exact ⟨hlower, hhigh, hupper, .inl hvalue⟩
    · exact ⟨hlower, hlow.trans hbounds, hupper, .inr hlow⟩
  · rintro ⟨hlower, hhigh, hupper, hvalue | hlow⟩
    · exact ⟨.inl ⟨hvalue, hhigh⟩, hupper, hlower⟩
    · exact ⟨.inr hlow, hupper, hlower⟩

theorem abs_velLim_le_iff {value limit : K} (hlimit : 0 ≤ limit) (hbound : 0 ≤ bound) :
    |max (min value limit) (-limit)| ≤ bound ↔ limit ≤ bound ∨ |value| ≤ bound := by
  rw [abs_limited_le_iff (by linarith), abs_le]
  constructor
  · rintro ⟨_, _, hupper, hlower⟩
    rcases hupper with hvalue | hle
    · rcases hlower with hneg | hneg
      · exact .inr ⟨hneg, hvalue⟩
      · exact .inl (by linarith)
    · exact .inl hle
  · rintro (hle | ⟨hneg, hvalue⟩)
    · exact ⟨by linarith, by linarith, .inr hle, .inr (by linarith)⟩
    · exact ⟨by linarith, by linarith, .inl hvalue, .inl hneg⟩

theorem limitDiff_eq (curr prev diffLim : K) :
    limitDiff curr prev diffLim = max (min curr (prev + diffLim)) (prev - diffLim) := by
  unfold limitDiff
  rw [← max_add_add_left, ← min_add_add_left, add_sub_cancel, ← sub_eq_add_neg]

theorem abs_limitDiff_le {curr prev diffLim : K} (hlim : 0 ≤ diffLim) :
    |limitDiff curr prev diffLim| ≤ |prev| + diffLim := by
  rw [limitDiff_eq, abs_limited_le_iff (by linarith)]
  have hle := le_abs_self prev
  have hneg := neg_abs_le prev
  exact ⟨by linarith, by linarith, .inr (by linarith), .inr (by linarith)⟩

end

open Real

/-- `std::tan` and `std::atan` in exact arithmetic. -/
noncomputable def realTrigonometry : Trigonometry ℝ := ⟨Real.tan, Real.arctan⟩

/-- No limit is negative. -/
structure VehicleCmdFilterParam.Nonneg (param : VehicleCmdFilterParam ℝ) : Prop where
  velLim : 0 ≤ param.velLim
  lonAccLim : 0 ≤ param.lonAccLim
  lonJerkLim : 0 ≤ param.lonJerkLim
  latAccLim : 0 ≤ param.latAccLim
  latJerkLim : 0 ≤ param.latJerkLim
  actualSteerDiffLim : 0 ≤ param.actualSteerDiffLim

namespace VehicleCmdFilter

section

variable {K : Type} [LinearOrder K]

theorem clamp_mem {low high : K} (hbounds : low ≤ high) (value : K) :
    low ≤ clamp value low high ∧ clamp value low high ≤ high := by
  unfold clamp
  split_ifs with hlow hhigh
  · exact ⟨le_rfl, hbounds⟩
  · exact ⟨hbounds, le_rfl⟩
  · exact ⟨not_lt.mp hlow, not_lt.mp hhigh⟩

theorem clamp_of_mem {value low high : K} (hlow : low ≤ value) (hhigh : value ≤ high) :
    clamp value low high = value := by
  rw [clamp, if_neg (not_lt.mpr hlow), if_neg (not_lt.mpr hhigh)]

end

section

variable {K : Type} [Field K] [LinearOrder K] (trigonometry : Trigonometry K)
  (self : VehicleCmdFilter K)

@[simp]
theorem acceleration_limitLateralWithLatAcc (input : AckermannControlCommand K) :
    (self.limitLateralWithLatAcc trigonometry input).acceleration = input.acceleration := by
  unfold limitLateralWithLatAcc
  dsimp only
  split_ifs <;> rfl

@[simp]
theorem acceleration_limitLateralWithLatJerk (dt : K) (input : AckermannControlCommand K) :
    (self.limitLateralWithLatJerk trigonometry dt input).acceleration = input.acceleration := by
  unfold limitLateralWithLatJerk
  dsimp only
  split_ifs <;> rfl

theorem acceleration_filterAll (dt currentSteerAngle : K) (cmd : AckermannControlCommand K) :
    (self.filterAll trigonometry dt currentSteerAngle cmd).acceleration =
      max (min (limitDiff cmd.acceleration self.prevCmd.acceleration
        (self.param.lonJerkLim * dt)) self.param.lonAccLim) (-self.param.lonAccLim) := by
  unfold filterAll limitActualSteerDiff
  dsimp only
  rw [acceleration_limitLateralWithLatAcc, acceleration_limitLateralWithLatJerk]
  rfl

end

section

variable {K : Type} [Field K] [LinearOrder K] [IsStrictOrderedRing K]

theorem limitDiff_of_abs_le {curr prev diffLim : K} (hdiff : |curr - prev| ≤ diffLim) :
    limitDiff curr prev diffLim = curr := by
  obtain ⟨hlower, hupper⟩ := abs_le.mp hdiff
  unfold limitDiff
  rw [min_eq_left hupper, max_eq_left hlower, add_sub_cancel]

theorem limit_of_abs_le {value limit : K} (hvalue : |value| ≤ limit) :
    max (min value limit) (-limit) = value := by
  obtain ⟨hlower, hupper⟩ := abs_le.mp hvalue
  rw [min_eq_left hupper, max_eq_left hlower]

theorem abs_limit_le {limit : K} (hlimit : 0 ≤ limit) (value : K) :
    |max (min value limit) (-limit)| ≤ limit := by
  have hle : max (min value limit) (-limit) ≤ limit := max_le (min_le_right _ _) (by linarith)
  exact abs_le.mpr ⟨le_max_right _ _, hle⟩

theorem abs_limit_limitDiff_sub_le {curr prev diffLim limit : K} (hdiffLim : 0 ≤ diffLim)
    (hprev : |prev| ≤ limit) :
    |max (min (limitDiff curr prev diffLim) limit) (-limit) - prev| ≤ diffLim := by
  obtain ⟨hlower, hupper⟩ := abs_le.mp hprev
  have hdiff : prev - diffLim ≤ limitDiff curr prev diffLim ∧
      limitDiff curr prev diffLim ≤ prev + diffLim := by
    rw [limitDiff_eq]
    exact ⟨le_max_right _ _, max_le (min_le_right _ _) (by linarith)⟩
  rw [abs_le]
  constructor
  · have hle : prev - diffLim ≤ min (limitDiff curr prev diffLim) limit :=
      le_min hdiff.1 (by linarith)
    linarith [le_max_left (min (limitDiff curr prev diffLim) limit) (-limit)]
  · have hle : max (min (limitDiff curr prev diffLim) limit) (-limit) ≤ prev + diffLim :=
      max_le ((min_le_left _ _).trans hdiff.2) (by linarith)
    linarith

end

section

variable (self : VehicleCmdFilter ℝ)

theorem abs_calcLatAcc_le_of_between {cmd : AckermannControlCommand ℝ} {low high limit : ℝ}
    (hlow : low ≤ cmd.steeringTireAngle) (hhigh : cmd.steeringTireAngle ≤ high)
    (hlowRange : -(π / 2) < low) (hhighRange : high < π / 2)
    (hlowLimit : |self.calcLatAcc realTrigonometry { cmd with steeringTireAngle := low }| ≤ limit)
    (hhighLimit :
      |self.calcLatAcc realTrigonometry { cmd with steeringTireAngle := high }| ≤ limit) :
    |self.calcLatAcc realTrigonometry cmd| ≤ limit := by
  have hform : ∀ angle : ℝ, |cmd.speed * cmd.speed * tan angle / self.param.wheelBase| =
      |cmd.speed * cmd.speed / self.param.wheelBase| * |tan angle| := by
    intro angle
    rw [← abs_mul]
    ring_nf
  have htan : ∀ {angle other : ℝ}, -(π / 2) < angle → other < π / 2 → angle ≤ other →
      tan angle ≤ tan other := fun hangle hother hle =>
    strictMonoOn_tan.monotoneOn ⟨hangle, hle.trans_lt hother⟩ ⟨hangle.trans_le hle, hother⟩ hle
  have hbetween : |tan cmd.steeringTireAngle| ≤ max |tan low| |tan high| :=
    abs_le_max_abs_abs (htan hlowRange (hhigh.trans_lt hhighRange) hlow)
      (htan (hlowRange.trans_le hlow) hhighRange hhigh)
  unfold calcLatAcc realTrigonometry at hlowLimit hhighLimit ⊢
  dsimp only at hlowLimit hhighLimit ⊢
  rw [hform] at hlowLimit hhighLimit ⊢
  rcases le_max_iff.mp hbetween with hle | hle
  · exact (mul_le_mul_of_nonneg_left hle (abs_nonneg _)).trans hlowLimit
  · exact (mul_le_mul_of_nonneg_left hle (abs_nonneg _)).trans hhighLimit

theorem abs_limited_latAcc_le {limit : ℝ} (hlimit : 0 ≤ limit) (v base : ℝ) :
    |v * v * (limit * base / max (v * v) (1 / 1000)) / base| ≤ limit := by
  have hsq : 0 < max (v * v) (1 / 1000) := lt_max_of_lt_right (by norm_num)
  have hratio : v * v / max (v * v) (1 / 1000) ≤ 1 := (div_le_one hsq).mpr (le_max_left _ _)
  have hnonneg : 0 ≤ v * v / max (v * v) (1 / 1000) := div_nonneg (mul_self_nonneg _) hsq.le
  by_cases hbase : base = 0
  · rw [hbase, div_zero, abs_zero]
    exact hlimit
  · have hvalue : v * v * (limit * base / max (v * v) (1 / 1000)) / base =
        v * v / max (v * v) (1 / 1000) * limit := by
      field_simp
    rw [hvalue, abs_of_nonneg (mul_nonneg hnonneg hlimit)]
    exact mul_le_of_le_one_left hlimit hratio

theorem abs_calcLatAcc_limitLateralWithLatAcc (hlimit : 0 ≤ self.param.latAccLim)
    (input : AckermannControlCommand ℝ) :
    |self.calcLatAcc realTrigonometry (self.limitLateralWithLatAcc realTrigonometry input)| ≤
      self.param.latAccLim := by
  have hbound := abs_limited_latAcc_le hlimit input.speed self.param.wheelBase
  unfold limitLateralWithLatAcc
  dsimp only
  by_cases hover : self.param.latAccLim < |self.calcLatAcc realTrigonometry input|
  · rw [if_pos hover]
    by_cases hleft : 0 < self.calcLatAcc realTrigonometry input
    · rw [if_pos hleft]
      unfold calcLatAcc realTrigonometry
      dsimp only
      rw [tan_arctan]
      exact hbound
    · rw [if_neg hleft]
      unfold calcLatAcc realTrigonometry
      dsimp only
      rw [tan_neg, tan_arctan, mul_neg, neg_div, abs_neg]
      exact hbound
  · rw [if_neg hover]
    exact not_lt.mp hover

theorem steeringTireAngle_limitLateral_mem (dt : ℝ) {input : AckermannControlCommand ℝ}
    (hinput : |input.steeringTireAngle| < π / 2) :
    |(self.limitLateralWithLatAcc realTrigonometry
      (self.limitLateralWithLatJerk realTrigonometry dt input)).steeringTireAngle| < π / 2 := by
  have harctan (value : ℝ) : |arctan value| < π / 2 :=
    abs_lt.mpr ⟨neg_pi_div_two_lt_arctan value, arctan_lt_pi_div_two value⟩
  have hjerk : |(self.limitLateralWithLatJerk realTrigonometry dt input).steeringTireAngle| <
      π / 2 := by
    unfold limitLateralWithLatJerk
    dsimp only
    split_ifs
    · exact harctan _
    · exact harctan _
    · exact hinput
  generalize self.limitLateralWithLatJerk realTrigonometry dt input = limited at hjerk
  unfold limitLateralWithLatAcc
  dsimp only
  split_ifs
  · exact harctan _
  · rw [abs_neg]
    exact harctan _
  · exact hjerk

end

/-! ## The filtered command -/

structure KeepsLimits (filter : VehicleCmdFilter ℝ) (dt currentSteerAngle : ℝ)
    (cmd : AckermannControlCommand ℝ) : Prop where
  speed : |cmd.speed| ≤ filter.param.velLim
  acceleration : |cmd.acceleration| ≤ filter.param.lonAccLim
  speedDiff : |cmd.speed - filter.prevCmd.speed| ≤ filter.param.lonAccLim * dt
  accelerationDiff :
    |cmd.acceleration - filter.prevCmd.acceleration| ≤ filter.param.lonJerkLim * dt
  steerDiff : |cmd.steeringTireAngle - currentSteerAngle| ≤ filter.param.actualSteerDiffLim

structure Complies (filter : VehicleCmdFilter ℝ) (dt currentSteerAngle : ℝ)
    (cmd : AckermannControlCommand ℝ) : Prop
    extends filter.KeepsLimits dt currentSteerAngle cmd where
  latAcc : |filter.calcLatAcc realTrigonometry cmd| ≤ filter.param.latAccLim
  latJerk : |filter.calcLatAcc realTrigonometry cmd -
    filter.calcLatAcc realTrigonometry filter.prevCmd| ≤ filter.param.latJerkLim * dt

variable {self : VehicleCmdFilter ℝ} {dt : ℝ}

theorem filterAll_keepsLimits (hparam : self.param.Nonneg)
    (hspeed : |self.prevCmd.speed| ≤ self.param.velLim)
    (hacceleration : |self.prevCmd.acceleration| ≤ self.param.lonAccLim) (hdt : 0 ≤ dt)
    (currentSteerAngle : ℝ) (cmd : AckermannControlCommand ℝ) :
    self.KeepsLimits dt currentSteerAngle
      (self.filterAll realTrigonometry dt currentSteerAngle cmd) where
  speed := by
    rw [speed_filterAll]
    exact abs_limit_le hparam.velLim _
  acceleration := by
    rw [acceleration_filterAll]
    exact abs_limit_le hparam.lonAccLim _
  speedDiff := by
    rw [speed_filterAll]
    exact abs_limit_limitDiff_sub_le (mul_nonneg hparam.lonAccLim hdt) hspeed
  accelerationDiff := by
    rw [acceleration_filterAll]
    exact abs_limit_limitDiff_sub_le (mul_nonneg hparam.lonJerkLim hdt) hacceleration
  steerDiff := by
    unfold filterAll limitActualSteerDiff
    dsimp only
    rw [add_sub_cancel_left]
    exact abs_le.mpr (clamp_mem (by linarith [hparam.actualSteerDiffLim]) _)

/-- A command that keeps all limits is not changed. -/
theorem Complies.filterAll_eq {currentSteerAngle : ℝ} {cmd : AckermannControlCommand ℝ}
    (hcomplies : self.Complies dt currentSteerAngle cmd) :
    self.filterAll realTrigonometry dt currentSteerAngle cmd = cmd := by
  have hjerk : self.limitLongitudinalWithJerk dt cmd = cmd := by
    unfold limitLongitudinalWithJerk
    rw [limitDiff_of_abs_le hcomplies.accelerationDiff]
  have hacc : self.limitLongitudinalWithAcc dt cmd = cmd := by
    unfold limitLongitudinalWithAcc
    rw [limitDiff_of_abs_le hcomplies.speedDiff, limit_of_abs_le hcomplies.acceleration]
  have hvel : self.limitLongitudinalWithVel cmd = cmd := by
    unfold limitLongitudinalWithVel
    rw [limit_of_abs_le hcomplies.speed]
  have hlatJerk : self.limitLateralWithLatJerk realTrigonometry dt cmd = cmd := by
    obtain ⟨hlower, hupper⟩ := abs_le.mp hcomplies.latJerk
    unfold limitLateralWithLatJerk
    dsimp only
    rw [if_neg (by linarith), if_neg (by linarith)]
  have hlatAcc : self.limitLateralWithLatAcc realTrigonometry cmd = cmd := by
    unfold limitLateralWithLatAcc
    dsimp only
    rw [if_neg (not_lt.mpr hcomplies.latAcc)]
  have hsteer : self.limitActualSteerDiff currentSteerAngle cmd = cmd := by
    obtain ⟨hlower, hupper⟩ := abs_le.mp hcomplies.steerDiff
    unfold limitActualSteerDiff
    dsimp only
    rw [clamp_of_mem hlower hupper, add_sub_cancel]
  unfold filterAll
  dsimp only
  rw [hjerk, hacc, hvel, hlatJerk, hlatAcc, hsteer]

theorem filterAll_steeringTireAngle (hlimit : 0 ≤ self.param.latAccLim) (dt currentSteerAngle : ℝ)
    (cmd : AckermannControlCommand ℝ) :
    let out := self.filterAll realTrigonometry dt currentSteerAngle cmd
    ∃ angle, |self.calcLatAcc realTrigonometry { out with steeringTireAngle := angle }| ≤
        self.param.latAccLim ∧
      out.steeringTireAngle = currentSteerAngle + clamp (angle - currentSteerAngle)
        (-self.param.actualSteerDiffLim) self.param.actualSteerDiffLim ∧
      (|cmd.steeringTireAngle| < π / 2 → |angle| < π / 2) := by
  intro out
  refine ⟨_, abs_calcLatAcc_limitLateralWithLatAcc self hlimit
    (self.limitLateralWithLatJerk realTrigonometry dt (self.limitLongitudinalWithVel
      (self.limitLongitudinalWithAcc dt (self.limitLongitudinalWithJerk dt cmd)))), rfl, ?_⟩
  exact fun hcmd => steeringTireAngle_limitLateral_mem self dt hcmd

theorem abs_calcLatAcc_filterAll_le_iff (hparam : self.param.Nonneg) {currentSteerAngle : ℝ}
    {cmd : AckermannControlCommand ℝ} (hcmd : |cmd.steeringTireAngle| < π / 2)
    (hcurrent : |currentSteerAngle| + self.param.actualSteerDiffLim < π / 2) :
    let out := self.filterAll realTrigonometry dt currentSteerAngle cmd
    |self.calcLatAcc realTrigonometry out| ≤ self.param.latAccLim ↔
      ∃ angle, |angle - currentSteerAngle| ≤ self.param.actualSteerDiffLim ∧
        |self.calcLatAcc realTrigonometry { out with steeringTireAngle := angle }| ≤
          self.param.latAccLim := by
  intro out
  obtain ⟨angle, hangle, hout, hrange⟩ :=
    filterAll_steeringTireAngle hparam.latAccLim dt currentSteerAngle cmd
  obtain ⟨hangleLower, hangleUpper⟩ := abs_lt.mp (hrange hcmd)
  have hlower := neg_abs_le currentSteerAngle
  have hupper := le_abs_self currentSteerAngle
  have hlim := hparam.actualSteerDiffLim
  constructor
  · intro hlimit
    refine ⟨out.steeringTireAngle, ?_, hlimit⟩
    rw [hout, add_sub_cancel_left]
    exact abs_le.mpr (clamp_mem (by linarith) _)
  · rintro ⟨near, hnear, hnearLimit⟩
    obtain ⟨hnearLower, hnearUpper⟩ := abs_le.mp hnear
    rcases lt_or_ge (angle - currentSteerAngle) (-self.param.actualSteerDiffLim) with hlow | hlow
    · rw [clamp, if_pos hlow] at hout
      exact abs_calcLatAcc_le_of_between self (show angle ≤ out.steeringTireAngle by linarith)
        (show out.steeringTireAngle ≤ near by linarith) hangleLower (by linarith) hangle hnearLimit
    rcases lt_or_ge self.param.actualSteerDiffLim (angle - currentSteerAngle) with hhigh | hhigh
    · rw [clamp, if_neg (not_lt.mpr hlow), if_pos hhigh] at hout
      exact abs_calcLatAcc_le_of_between self (show near ≤ out.steeringTireAngle by linarith)
        (show out.steeringTireAngle ≤ angle by linarith) (by linarith) hangleUpper hnearLimit hangle
    · rw [clamp_of_mem hlow hhigh, add_sub_cancel] at hout
      rw [← hout] at hangle
      exact hangle

noncomputable def steadyFilter : VehicleCmdFilter ℝ where
  param := ⟨1, 2, 0, 1, 1, 1, 1 / 10⟩
  prevCmd := ⟨0, 0, 2, 0⟩

theorem steadyFilter_nonneg : steadyFilter.param.Nonneg where
  velLim := by norm_num [steadyFilter]
  lonAccLim := by norm_num [steadyFilter]
  lonJerkLim := by norm_num [steadyFilter]
  latAccLim := by norm_num [steadyFilter]
  latJerkLim := by norm_num [steadyFilter]
  actualSteerDiffLim := by norm_num [steadyFilter]

end VehicleCmdFilter

/-!
## The gate of the vehicle commands

The gate selects one of three sources of control commands, filters what it
selects, and publishes the result when the command arrives.  While a stop is
demanded the timer publishes an emergency stop instead.  The commands of the
lights and the gear, the status topics and the diagnostics are left out.
-/

open Library.Runs Messages System.EmergencyHandler

/-- The members of the node. -/
structure VehicleCmdGate where
  isEngaged : Bool
  isSystemEmergency : Bool
  isExternalEmergencyStop : Bool
  isGateModeChanged : Bool
  currentSteer : ℚ
  currentGateMode : GateMode
  currentKinematics : Odometry
  currentAcceleration : ℚ
  emergencyStateHeartbeatReceivedTime : Option Time
  isEmergencyStateHeartbeatTimeout : Bool
  externalEmergencyStopHeartbeatReceivedTime : Option Time
  isExternalEmergencyStopHeartbeatTimeout : Bool
  autoCommands : AckermannControlCommand
  remoteCommands : AckermannControlCommand
  emergencyCommands : AckermannControlCommand
  prevControlCmd : AckermannControlCommand
  prevTime : Option Time
  filter : VehicleCmdFilter
  filterOnTransition : VehicleCmdFilter
  operationModeIsAutonomous : Bool
  operationModeIsInTransition : Bool
  isPaused : Bool
  isStartRequested : Bool

namespace VehicleCmdGate

structure Param where
  useEmergencyHandling : Bool
  checkExternalEmergencyHeartbeat : Bool
  systemEmergencyHeartbeatTimeout : ℚ
  externalEmergencyStopHeartbeatTimeout : ℚ
  stopHoldAcceleration : ℚ
  emergencyAcceleration : ℚ
  nominal : VehicleCmdFilterParam
  onTransition : VehicleCmdFilterParam

/-- What the node publishes and answers. -/
inductive Output where
  | vehicleCmdEmergency (emergency : Bool)
  | controlCmd (cmd : AckermannControlCommand)
  | engageResponse (success : Bool)
  | triggerResponse (success : Bool) (message : String)
  | emergencyResponse (success : Bool) (message : String)
  | pauseResponse (success : Bool)
  deriving DecidableEq

/-- The only exception of a callback, thrown for a gate mode without commands. -/
inductive Failure where
  | runtimeError (message : String)
  deriving DecidableEq

/-- The constructor. -/
def initial (param : Param) : VehicleCmdGate where
  isEngaged := false
  isSystemEmergency := false
  isExternalEmergencyStop := false
  isGateModeChanged := false
  currentSteer := 0
  currentGateMode := .auto
  currentKinematics := ⟨0⟩
  currentAcceleration := 0
  emergencyStateHeartbeatReceivedTime := none
  isEmergencyStateHeartbeatTimeout := false
  externalEmergencyStopHeartbeatReceivedTime := none
  isExternalEmergencyStopHeartbeatTimeout := false
  autoCommands := .zero
  remoteCommands := .zero
  emergencyCommands := .zero
  prevControlCmd := .zero
  prevTime := none
  filter := ⟨param.nominal, .zero⟩
  filterOnTransition := ⟨param.onTransition, .zero⟩
  operationModeIsAutonomous := false
  operationModeIsInTransition := false
  isPaused := false
  isStartRequested := false

/-! ## Publishing -/

variable (trigonometry : Trigonometry) (param : Param)

def isHeartbeatTimeout (heartbeatReceivedTime : Option Time) (timeout : ℚ) (now : Time) :
    Bool :=
  if timeout = 0 then false
  else
    match heartbeatReceivedTime with
    | none => true
    | some received => decide (timeout < seconds (now - received))

variable (self : VehicleCmdGate)

def isDataReady : Bool :=
  if param.useEmergencyHandling ∧ self.emergencyStateHeartbeatReceivedTime = none then false
  else if param.checkExternalEmergencyHeartbeat ∧
      self.externalEmergencyStopHeartbeatReceivedTime = none then false
  else true

variable (control : AckermannControlCommand)

/-- `pause_->update`. -/
def updatePause : VehicleCmdGate :=
  { self with isStartRequested := decide (1 / 1000 < |control.speed|) }

def createStopControlCmd : AckermannControlCommand where
  steeringTireAngle := self.currentSteer
  steeringTireRotationRate := 0
  speed := 0
  acceleration := param.stopHoldAcceleration

def createEmergencyStopControlCmd : AckermannControlCommand where
  steeringTireAngle := self.prevControlCmd.steeringTireAngle
  steeringTireRotationRate := self.prevControlCmd.steeringTireRotationRate
  speed := 0
  acceleration := param.emergencyAcceleration

def getActualStatusAsCommand : AckermannControlCommand where
  steeringTireAngle := self.currentSteer
  steeringTireRotationRate := 0
  speed := self.currentKinematics.linearX
  acceleration := self.currentAcceleration

variable (now : Time)

/-- The value that `getDt` returns; it also sets `prev_time_` to the current time. -/
def dt : ℚ :=
  match self.prevTime with
  | none => 0
  | some prevTime => seconds (now - prevTime)

def currentFilter : VehicleCmdFilter :=
  if self.operationModeIsInTransition then self.filterOnTransition else self.filter

def filterControlCommand
    (control : AckermannControlCommand) : VehicleCmdGate × AckermannControlCommand :=
  let out := self.currentFilter.filterAll trigonometry (self.dt now) self.currentSteer control
  -- The previous values are those of both filters, and only their lateral part
  -- follows the vehicle in the manual mode.
  let prevValues := if self.operationModeIsAutonomous then out else self.getActualStatusAsCommand
  let prevValues := { prevValues with speed := out.speed, acceleration := out.acceleration }
  ({ self with
      prevTime := some now
      filter := self.filter.setPrevCmd prevValues
      filterOnTransition := self.filterOnTransition.setPrevCmd prevValues }, out)

def publishesControlCommands : Bool :=
  if param.useEmergencyHandling ∧ self.isEmergencyStateHeartbeatTimeout then false
  else if self.isExternalEmergencyStop then false
  else self.isDataReady param

/-- The command of an emergency or, while not engaged, to stop replaces the given one. -/
def engagedControl :
    AckermannControlCommand :=
  let control :=
    if param.useEmergencyHandling ∧ self.isSystemEmergency then self.emergencyCommands
    else control
  if self.isEngaged then control else self.createStopControlCmd param

def pausedControl :
    AckermannControlCommand :=
  if self.isPaused then { control with speed := 0, acceleration := param.stopHoldAcceleration }
  else control

def selectedControl :
    AckermannControlCommand :=
  self.pausedControl param (self.engagedControl param control)

def publishControlCommands (control : AckermannControlCommand) : VehicleCmdGate × List Output :=
  if self.publishesControlCommands param then
    let updated := self.updatePause (self.engagedControl param control)
    let (filtered, cmd) :=
      updated.filterControlCommand trigonometry now (self.selectedControl param control)
    ({ filtered with prevControlCmd := cmd },
      [.vehicleCmdEmergency (param.useEmergencyHandling && self.isSystemEmergency),
        .controlCmd cmd])
  else (self, [])

def publishEmergencyStopControlCommands : VehicleCmdGate × List Output :=
  let cmd := self.createEmergencyStopControlCmd param
  (self.updatePause cmd, [.vehicleCmdEmergency true, .controlCmd cmd])

/-! ## Callbacks -/

def onAutoCtrlCmd (message : AckermannControlCommand) : VehicleCmdGate × List Output :=
  let self := { self with autoCommands := message }
  if self.currentGateMode = .auto then
    self.publishControlCommands trigonometry param now self.autoCommands
  else (self, [])

def onRemoteCtrlCmd (message : AckermannControlCommand) : VehicleCmdGate × List Output :=
  let self := { self with remoteCommands := message }
  if self.currentGateMode = .external then
    self.publishControlCommands trigonometry param now self.remoteCommands
  else (self, [])

def onEmergencyCtrlCmd (message : AckermannControlCommand) : VehicleCmdGate × List Output :=
  let self := { self with emergencyCommands := message }
  if param.useEmergencyHandling ∧ self.isSystemEmergency then
    self.publishControlCommands trigonometry param now self.emergencyCommands
  else (self, [])

/-- The part of `onTimer` that selects the commands of the lights and the gear. -/
def selectCommands : Except Failure (VehicleCmdGate × List Output) :=
  if param.useEmergencyHandling ∧ self.isSystemEmergency then return (self, [])
  else
    match self.currentGateMode with
    | .auto | .external => return (self, [])
    | .unknown _ => throw (.runtimeError "invalid mode")

/-- The part of `onTimer` after the check of the system emergency heartbeat. -/
def onTimerWithoutTimeout : Except Failure (VehicleCmdGate × List Output) :=
  let self :=
    if param.checkExternalEmergencyHeartbeat then
      let timeout := isHeartbeatTimeout self.externalEmergencyStopHeartbeatReceivedTime
        param.externalEmergencyStopHeartbeatTimeout now
      { self with
        isExternalEmergencyStopHeartbeatTimeout := timeout
        isExternalEmergencyStop := self.isExternalEmergencyStop || timeout }
    else self
  if self.isExternalEmergencyStop then
    return self.publishEmergencyStopControlCommands param
  else if self.isGateModeChanged then
    return ({ self with isGateModeChanged := false }, [])
  else self.selectCommands param

def onTimer : Except Failure (VehicleCmdGate × List Output) :=
  if self.isDataReady param then
    if param.useEmergencyHandling then
      let timeout := isHeartbeatTimeout self.emergencyStateHeartbeatReceivedTime
        param.systemEmergencyHeartbeatTimeout now
      let self := { self with isEmergencyStateHeartbeatTimeout := timeout }
      if timeout then return self.publishEmergencyStopControlCommands param
      else self.onTimerWithoutTimeout param now
    else self.onTimerWithoutTimeout param now
  else return (self, [])

def onMrmState (message : MrmState) : VehicleCmdGate :=
  { self with
    isSystemEmergency :=
      decide ((message.state = .mrmOperating ∨ message.state = .mrmSucceeded ∨
        message.state = .mrmFailed) ∧ message.behavior = .emergencyStop)
    emergencyStateHeartbeatReceivedTime := some now }

/-- The success and the message of the response are returned. -/
def onSetExternalEmergencyStopService : VehicleCmdGate × Bool × String :=
  ({ self with isExternalEmergencyStop := true }, true,
    "external_emergency_stop requested was accepted.")

def onClearExternalEmergencyStopService : VehicleCmdGate × Bool × String :=
  if self.isExternalEmergencyStop then
    if self.isExternalEmergencyStopHeartbeatTimeout then
      (self, false, "Couldn't clear external_emergency_stop state because heartbeat is timeout.")
    else
      ({ self with isExternalEmergencyStop := false }, true,
        "external_emergency_stop state was cleared.")
  else (self, false, "Not in external_emergency_stop state.")

def onExternalEmergencyStopService (emergency : Bool) : VehicleCmdGate × Bool × String :=
  if emergency then self.onSetExternalEmergencyStopService
  else self.onClearExternalEmergencyStopService

/-- The messages, requests and ticks that the node handles. -/
inductive Event where
  | autoCtrlCmd (message : AckermannControlCommand)
  | remoteCtrlCmd (message : AckermannControlCommand)
  | emergencyCtrlCmd (message : AckermannControlCommand)
  | timer
  | externalEmergencyStopHeartbeat
  | gateMode (message : GateMode)
  | engage (engage : Bool)
  | engageService (engage : Bool)
  | mrmState (message : MrmState)
  | kinematics (message : Odometry)
  | acceleration (message : ℚ)
  | steering (message : ℚ)
  | operationMode (isAutonomous isInTransition : Bool)
  | externalEmergencyService (emergency : Bool)
  | externalEmergencyStopService
  | clearExternalEmergencyStopService
  | setPause (pause : Bool)

def handle (self : VehicleCmdGate) (now : Time) :
    Event → Except Failure (VehicleCmdGate × List Output)
  | .autoCtrlCmd message => return self.onAutoCtrlCmd trigonometry param now message
  | .remoteCtrlCmd message => return self.onRemoteCtrlCmd trigonometry param now message
  | .emergencyCtrlCmd message => return self.onEmergencyCtrlCmd trigonometry param now message
  | .timer => self.onTimer param now
  | .externalEmergencyStopHeartbeat =>
    return ({ self with externalEmergencyStopHeartbeatReceivedTime := some now }, [])
  | .gateMode message =>
    return ({ self with currentGateMode := message, isGateModeChanged := true }, [])
  | .engage engage => return ({ self with isEngaged := engage }, [])
  | .engageService engage =>
    return ({ self with isEngaged := engage }, [.engageResponse true])
  | .mrmState message => return (self.onMrmState now message, [])
  | .kinematics message => return ({ self with currentKinematics := message }, [])
  | .acceleration message => return ({ self with currentAcceleration := message }, [])
  | .steering message => return ({ self with currentSteer := message }, [])
  | .operationMode isAutonomous isInTransition =>
    return ({ self with
      operationModeIsAutonomous := isAutonomous
      operationModeIsInTransition := isInTransition }, [])
  | .externalEmergencyService emergency =>
    let (self, success, message) := self.onExternalEmergencyStopService emergency
    return (self, [.emergencyResponse success message])
  | .externalEmergencyStopService =>
    let (self, success, message) := self.onSetExternalEmergencyStopService
    return (self, [.triggerResponse success message])
  | .clearExternalEmergencyStopService =>
    let (self, success, message) := self.onClearExternalEmergencyStopService
    return (self, [.triggerResponse success message])
  | .setPause pause => return ({ self with isPaused := pause }, [.pauseResponse true])

def Step : VehicleCmdGate → (Time × Event) × List Output → VehicleCmdGate → Prop :=
  OfPartial fun self received => self.handle trigonometry param received.1 received.2

end VehicleCmdGate

open Library.Fallible Library.Runs Messages

namespace VehicleCmdGate

/-- A control command that was published; `isStop` tells those of the timer. -/
structure Publication where
  time : Time
  speed : ℚ
  isStop : Bool
  deriving DecidableEq

def isTimer : Event → Bool
  | .timer => true
  | _ => false

def published (label : (Time × Event) × List Output) : List Publication :=
  label.2.filterMap fun
    | .controlCmd cmd => some ⟨label.1.1, cmd.speed, isTimer label.1.2⟩
    | _ => none

def RateLimited (lonAccLim : ℚ) (earlier later : Publication) : Prop :=
  |later.speed| ≤ |earlier.speed| + lonAccLim * seconds (later.time - earlier.time)

instance {lonAccLim : ℚ} {earlier later : Publication} :
    Decidable (RateLimited lonAccLim earlier later) :=
  inferInstanceAs (Decidable (_ ≤ _))

/-- The clock does not run backwards from the last published command. -/
def InOrder (before : VehicleCmdGate × List Publication)
    (label : (Time × Event) × List Output) (_ : VehicleCmdGate × List Publication) : Prop :=
  ∀ last ∈ before.2.getLast?, last.time ≤ label.1.1

def PublishingStep (trigonometry : Trigonometry) (param : Param) :
    VehicleCmdGate × List Publication → (Time × Event) × List Output →
      VehicleCmdGate × List Publication → Prop :=
  Guarded (Recorded (Step trigonometry param) published) InOrder

structure LimitsAgree (param : Param) : Prop where
  same : param.onTransition.lonAccLim = param.nominal.lonAccLim
  lonAccLim_nonneg : 0 ≤ param.nominal.lonAccLim
  velLim_nonneg : 0 ≤ param.nominal.velLim
  velLim_onTransition_nonneg : 0 ≤ param.onTransition.velLim

variable (trigonometry : Trigonometry) (param : Param)

/-! ## What one step publishes -/

variable (self : VehicleCmdGate)

def limiter : Option Time × VehicleCmdFilter × VehicleCmdFilter :=
  (self.prevTime, self.filter, self.filterOnTransition)

def acceptedControl (control : AckermannControlCommand) :
    Option AckermannControlCommand :=
  if self.publishesControlCommands param then some (self.selectedControl param control)
  else none

def filteredControl : Event → Option AckermannControlCommand
  | .autoCtrlCmd message =>
    if self.currentGateMode = .auto then
      { self with autoCommands := message }.acceptedControl param message
    else none
  | .remoteCtrlCmd message =>
    if self.currentGateMode = .external then
      { self with remoteCommands := message }.acceptedControl param message
    else none
  | .emergencyCtrlCmd message =>
    if param.useEmergencyHandling ∧ self.isSystemEmergency then
      { self with emergencyCommands := message }.acceptedControl param message
    else none
  | _ => none

def limitedSpeed (now : Time) (control : AckermannControlCommand) : ℚ :=
  (self.currentFilter.filterAll trigonometry (self.dt now) self.currentSteer control).speed

inductive Outcome (self : VehicleCmdGate) (now : Time) (event : Event) :
    VehicleCmdGate → List Publication → Prop where
  | filtered {after : VehicleCmdGate} (control prevValues : AckermannControlCommand)
      (haccepted : self.filteredControl param event = some control)
      (hspeed : prevValues.speed = self.limitedSpeed trigonometry now control)
      (hlimiter : after.limiter = (some now, self.filter.setPrevCmd prevValues,
          self.filterOnTransition.setPrevCmd prevValues)) :
      Outcome self now event after [⟨now, self.limitedSpeed trigonometry now control, false⟩]
  | stopped {after : VehicleCmdGate}
      (hrejected : self.filteredControl param event = none)
      (hlimiter : after.limiter = self.limiter) :
      Outcome self now event after [⟨now, 0, true⟩]
  | silent {after : VehicleCmdGate}
      (hrejected : self.filteredControl param event = none)
      (hlimiter : after.limiter = self.limiter) :
      Outcome self now event after []

variable {trigonometry param} {now : Time} {self : VehicleCmdGate} {outputs : List Output}

theorem publishControlCommands_outcome {stored after : VehicleCmdGate} {event : Event}
    {control : AckermannControlCommand} (htimer : isTimer event = false)
    (hfiltered : self.filteredControl param event = stored.acceptedControl param control)
    (hlimiter : stored.limiter = self.limiter)
    (hspeed : stored.limitedSpeed trigonometry now = self.limitedSpeed trigonometry now)
    (hpublish : stored.publishControlCommands trigonometry param now control = (after, outputs)) :
    Outcome trigonometry param self now event after (published ((now, event), outputs)) := by
  unfold publishControlCommands at hpublish
  unfold acceptedControl at hfiltered
  obtain ⟨_, hfilters⟩ := Prod.mk.inj hlimiter
  obtain ⟨hfilter, honTransition⟩ := Prod.mk.inj hfilters
  split at hpublish
  next haccepted =>
      rw [if_pos haccepted] at hfiltered
      have hstored := congrFun hspeed (stored.selectedControl param control)
      obtain ⟨rfl, rfl⟩ := Prod.mk.inj hpublish
      simp only [published, htimer, List.filterMap_cons, List.filterMap_nil]
      change Outcome _ _ _ _ _ _ [⟨now, stored.limitedSpeed trigonometry now _, false⟩]
      rw [hstored]
      refine .filtered _ ?prevValues hfiltered ?speed ?limiter
      case limiter =>
        rw [← hfilter, ← honTransition]
        rfl
      case speed => exact hstored
  next hrejected =>
      rw [if_neg hrejected] at hfiltered
      obtain ⟨rfl, rfl⟩ := Prod.mk.inj hpublish
      exact .silent hfiltered hlimiter

theorem publishEmergencyStopControlCommands_outcome {stored : VehicleCmdGate}
    (hlimiter : stored.limiter = self.limiter) :
    Outcome trigonometry param self now .timer (stored.publishEmergencyStopControlCommands param).1
      (published ((now, .timer), (stored.publishEmergencyStopControlCommands param).2)) :=
  .stopped rfl hlimiter

theorem onTimerWithoutTimeout_outcome {stored after : VehicleCmdGate}
    (hlimiter : stored.limiter = self.limiter)
    (htimer : stored.onTimerWithoutTimeout param now = .ok (after, outputs)) :
    Outcome trigonometry param self now .timer after (published ((now, .timer), outputs)) := by
  unfold onTimerWithoutTimeout at htimer
  dsimp only at htimer
  generalize hchecked : (if param.checkExternalEmergencyHeartbeat = true then _ else stored)
    = checked at htimer
  have hsame : checked.limiter = self.limiter := by
    rw [← hchecked, ← hlimiter]
    split
    · rfl
    · rfl
  split at htimer
  · cases htimer
    exact publishEmergencyStopControlCommands_outcome hsame
  · split at htimer
    · cases htimer
      exact .silent rfl hsame
    · unfold selectCommands at htimer
      split at htimer
      · cases htimer
        exact .silent rfl hsame
      · split at htimer
        · cases htimer
          exact .silent rfl hsame
        · cases htimer
          exact .silent rfl hsame
        · cases htimer

theorem onTimer_outcome {after : VehicleCmdGate}
    (htimer : self.onTimer param now = .ok (after, outputs)) :
    Outcome trigonometry param self now .timer after (published ((now, .timer), outputs)) := by
  unfold onTimer at htimer
  dsimp only at htimer
  split at htimer
  · split at htimer
    · split at htimer
      · cases htimer
        exact publishEmergencyStopControlCommands_outcome rfl
      · exact onTimerWithoutTimeout_outcome (by rfl) htimer
    · exact onTimerWithoutTimeout_outcome rfl htimer
  · cases htimer
    exact .silent rfl rfl

theorem limiter_onExternalEmergencyStopService (emergency : Bool) :
    (self.onExternalEmergencyStopService emergency).1.limiter = self.limiter := by
  unfold onExternalEmergencyStopService onClearExternalEmergencyStopService
  split
  · rfl
  · split
    · split
      · rfl
      · rfl
    · rfl

theorem step_outcome {after : VehicleCmdGate} {label : (Time × Event) × List Output}
    (hstep : Step trigonometry param self label after) :
    Outcome trigonometry param self label.1.1 label.1.2 after (published label) := by
  obtain ⟨⟨now, event⟩, outputs⟩ := label
  change self.handle trigonometry param now event = .ok (after, outputs) at hstep
  cases event with
  | autoCtrlCmd message =>
    unfold handle onAutoCtrlCmd at hstep
    dsimp only at hstep
    split at hstep
    next hmode =>
        exact publishControlCommands_outcome rfl (if_pos hmode) rfl rfl (Except.ok.inj hstep)
    next hmode =>
        cases hstep
        exact .silent (if_neg hmode) rfl
  | remoteCtrlCmd message =>
    unfold handle onRemoteCtrlCmd at hstep
    dsimp only at hstep
    split at hstep
    next hmode =>
        exact publishControlCommands_outcome rfl (if_pos hmode) rfl rfl (Except.ok.inj hstep)
    next hmode =>
        cases hstep
        exact .silent (if_neg hmode) rfl
  | emergencyCtrlCmd message =>
    unfold handle onEmergencyCtrlCmd at hstep
    dsimp only at hstep
    split at hstep
    next hemergency =>
        exact publishControlCommands_outcome rfl (if_pos hemergency) rfl rfl (Except.ok.inj hstep)
    next hemergency =>
        cases hstep
        exact .silent (if_neg hemergency) rfl
  | timer => exact onTimer_outcome hstep
  | externalEmergencyService emergency =>
    cases hstep
    exact .silent rfl (limiter_onExternalEmergencyStopService emergency)
  | clearExternalEmergencyStopService =>
    cases hstep
    exact .silent rfl (limiter_onExternalEmergencyStopService false)
  | externalEmergencyStopHeartbeat | gateMode _ | engage _ | engageService _ | mrmState _
  | kinematics _ | acceleration _ | steering _ | operationMode _ _
  | externalEmergencyStopService | setPause _ =>
    cases hstep
    exact .silent rfl rfl

structure Remembers (param : Param)
    (limiter : Option Time × VehicleCmdFilter × VehicleCmdFilter)
    (sent : List Publication) : Prop where
  nominal : limiter.2.1.param = param.nominal
  onTransition : limiter.2.2.param = param.onTransition
  prevCmd : limiter.2.2.prevCmd = limiter.2.1.prevCmd
  prevTime : ∀ prevTime ∈ limiter.1, ∃ last ∈ sent.getLast?, prevTime ≤ last.time
  ofFiltered : ∀ last ∈ sent.getLast?, last.isStop = false →
    limiter.1 = some last.time ∧ limiter.2.1.prevCmd.speed = last.speed
  ofStop : ∀ last ∈ sent.getLast?, last.isStop = true → last.speed = 0

theorem remembers_initial : Remembers param (initial param).limiter [] where
  nominal := rfl
  onTransition := rfl
  prevCmd := rfl
  prevTime := fun _ hmem => by cases hmem
  ofFiltered := fun _ hmem => by cases hmem
  ofStop := fun _ hmem => by cases hmem

variable {sent : List Publication}

theorem Remembers.filtered {limiter : Option Time × VehicleCmdFilter × VehicleCmdFilter}
    (hremembers : Remembers param limiter sent) (prevValues : AckermannControlCommand) :
    Remembers param (some now, limiter.2.1.setPrevCmd prevValues, limiter.2.2.setPrevCmd prevValues)
      (sent ++ [⟨now, prevValues.speed, false⟩]) where
  nominal := hremembers.nominal
  onTransition := hremembers.onTransition
  prevCmd := rfl
  prevTime := by
    intro prevTime hmem
    cases hmem
    exact ⟨_, List.getLast?_concat, le_rfl⟩
  ofFiltered := by
    intro last hlast _
    rw [List.getLast?_concat] at hlast
    cases hlast
    exact ⟨rfl, rfl⟩
  ofStop := by
    intro last hlast hstop
    rw [List.getLast?_concat] at hlast
    cases hlast
    cases hstop

theorem Remembers.stopped {limiter : Option Time × VehicleCmdFilter × VehicleCmdFilter}
    (hremembers : Remembers param limiter sent) (hordered : ∀ last ∈ sent.getLast?, last.time ≤ now) :
    Remembers param limiter (sent ++ [⟨now, 0, true⟩]) where
  nominal := hremembers.nominal
  onTransition := hremembers.onTransition
  prevCmd := hremembers.prevCmd
  prevTime := by
    intro prevTime hmem
    obtain ⟨last, hlast, hle⟩ := hremembers.prevTime prevTime hmem
    exact ⟨_, List.getLast?_concat, hle.trans (hordered last hlast)⟩
  ofFiltered := by
    intro last hlast hfiltered
    rw [List.getLast?_concat] at hlast
    cases hlast
    cases hfiltered
  ofStop := by
    intro last hlast _
    rw [List.getLast?_concat] at hlast
    cases hlast
    rfl

variable {before after : VehicleCmdGate × List Publication}
  {label : (Time × Event) × List Output}

theorem remembers_step (hremembers : Remembers param before.1.limiter before.2)
    (hstep : PublishingStep trigonometry param before label after) :
    Remembers param after.1.limiter after.2 := by
  obtain ⟨⟨hnext, hsent⟩, hordered⟩ := hstep
  have houtcome := step_outcome hnext
  rw [hsent]
  generalize published label = sent at houtcome
  cases houtcome with
  | filtered control prevValues _ hspeed hlimiter =>
    rw [hlimiter, ← hspeed]
    exact hremembers.filtered prevValues
  | stopped _ hlimiter =>
    rw [hlimiter]
    exact hremembers.stopped hordered
  | silent _ hlimiter =>
    rw [hlimiter, List.append_nil]
    exact hremembers

/-! ## The limit of the rise -/

theorem seconds_nonneg {earlier later : Time} (hordered : earlier ≤ later) :
    0 ≤ seconds (later - earlier) := by
  unfold seconds
  have hcast : (0 : ℚ) ≤ ((later - earlier : Int) : ℚ) := by
    exact_mod_cast Int.sub_nonneg_of_le hordered
  exact div_nonneg hcast (by norm_num)

/-- The speed that is allowed after a previous one reaches no higher than a bound:
the velocity limit is as low, or the allowed speeds reach down to the bound, and on
each side either they or the demanded speed stay within it. -/
def RestartsWithin (bound limit rise previous target : ℚ) : Prop :=
  limit ≤ bound ∨ previous - rise ≤ bound ∧ -bound ≤ previous + rise ∧
      (target ≤ bound ∨ previous + rise ≤ bound) ∧ (-bound ≤ target ∨ -bound ≤ previous - rise)

instance {bound limit rise previous target : ℚ} :
    Decidable (RestartsWithin bound limit rise previous target) :=
  inferInstanceAs (Decidable (_ ∨ _))

/-- A command that is filtered right after an emergency stop is limited to what the
time since the stop allows. -/
def RestartsSlowly (param : Param) (before : VehicleCmdGate × List Publication)
    (label : (Time × Event) × List Output) (_ : VehicleCmdGate × List Publication) : Prop :=
  ∀ last ∈ before.2.getLast?, last.isStop = true →
    ∀ control ∈ before.1.filteredControl param label.1.2,
      let filter := before.1.currentFilter
      RestartsWithin (filter.param.lonAccLim * seconds (label.1.1 - last.time))
        filter.param.velLim (filter.param.lonAccLim * before.1.dt label.1.1)
        filter.prevCmd.speed control.speed

theorem abs_limited_le_iff_restartsWithin {bound limit rise previous target : ℚ}
    (hbound : 0 ≤ bound) (hlimit : 0 ≤ limit) (hrise : 0 ≤ rise) :
    |max (min (VehicleCmdFilter.limitDiff target previous rise) limit) (-limit)| ≤ bound ↔
      RestartsWithin bound limit rise previous target := by
  rw [abs_velLim_le_iff hlimit hbound, limitDiff_eq, abs_limited_le_iff (by linarith)]
  rfl

variable {self : VehicleCmdGate}

theorem currentFilter_of_remembers
    (hlimits : LimitsAgree param) (hremembers : Remembers param self.limiter sent) :
    self.currentFilter.param.lonAccLim = param.nominal.lonAccLim ∧
      0 ≤ self.currentFilter.param.velLim ∧
      self.currentFilter.prevCmd = self.filter.prevCmd := by
  have hnominal : self.filter.param = param.nominal := hremembers.nominal
  have honTransition : self.filterOnTransition.param = param.onTransition := hremembers.onTransition
  unfold currentFilter
  split
  · rw [honTransition]
    exact ⟨hlimits.same, hlimits.velLim_onTransition_nonneg, hremembers.prevCmd⟩
  · rw [hnominal]
    exact ⟨rfl, hlimits.velLim_nonneg, rfl⟩

theorem limitedSpeed_after_stop {last : Publication} (hlimits : LimitsAgree param)
    (hremembers : Remembers param self.limiter sent) (hlast : last ∈ sent.getLast?)
    (hstop : last.isStop = true) (hordered : last.time ≤ now) (control : AckermannControlCommand) :
    RateLimited param.nominal.lonAccLim last
        ⟨now, self.limitedSpeed trigonometry now control, false⟩ ↔
      RestartsWithin (self.currentFilter.param.lonAccLim * seconds (now - last.time))
        self.currentFilter.param.velLim (self.currentFilter.param.lonAccLim * self.dt now)
        self.currentFilter.prevCmd.speed control.speed := by
  obtain ⟨hlim, hvel, _⟩ := currentFilter_of_remembers hlimits hremembers
  have helapsed : 0 ≤ seconds (now - last.time) := seconds_nonneg hordered
  have hdt : 0 ≤ self.dt now := by
    unfold dt
    split
    · rfl
    next prevTime hprev =>
        obtain ⟨other, hother, hle⟩ := hremembers.prevTime prevTime hprev
        rw [Option.mem_unique hother hlast] at hle
        exact seconds_nonneg (hle.trans hordered)
  unfold RateLimited limitedSpeed
  rw [hremembers.ofStop last hlast hstop, abs_zero, zero_add, VehicleCmdFilter.speed_filterAll,
    ← hlim]
  apply abs_limited_le_iff_restartsWithin
  · exact mul_nonneg (hlim ▸ hlimits.lonAccLim_nonneg) helapsed
  · exact hvel
  · exact mul_nonneg (hlim ▸ hlimits.lonAccLim_nonneg) hdt

theorem limitedSpeed_after_filtered {last : Publication} (hlimits : LimitsAgree param)
    (hremembers : Remembers param self.limiter sent) (hlast : last ∈ sent.getLast?)
    (hfiltered : last.isStop = false) (hordered : last.time ≤ now)
    (control : AckermannControlCommand) :
    RateLimited param.nominal.lonAccLim last
      ⟨now, self.limitedSpeed trigonometry now control, false⟩ := by
  obtain ⟨hlim, hvel, hprev⟩ := currentFilter_of_remembers hlimits hremembers
  obtain ⟨htime, hspeed⟩ := hremembers.ofFiltered last hlast hfiltered
  have hdt : self.dt now = seconds (now - last.time) := by
    unfold dt
    rw [show self.prevTime = some last.time from htime]
  have hrise : 0 ≤ param.nominal.lonAccLim * seconds (now - last.time) :=
    mul_nonneg hlimits.lonAccLim_nonneg (seconds_nonneg hordered)
  unfold RateLimited limitedSpeed
  rw [VehicleCmdFilter.speed_filterAll, hlim, hdt, hprev,
    show self.filter.prevCmd.speed = last.speed from hspeed,
    abs_velLim_le_iff hvel (add_nonneg (abs_nonneg _) hrise)]
  exact .inr (abs_limitDiff_le hrise)

theorem rateLimited_stop {earlier : Publication} (hlimits : LimitsAgree param)
    (hordered : earlier.time ≤ now) :
    RateLimited param.nominal.lonAccLim earlier ⟨now, 0, true⟩ := by
  unfold RateLimited
  rw [abs_zero]
  exact add_nonneg (abs_nonneg _) (mul_nonneg hlimits.lonAccLim_nonneg (seconds_nonneg hordered))

theorem rateLimited_step_iff (hlimits : LimitsAgree param)
    (hremembers : Remembers param before.1.limiter before.2)
    (hsafe : before.2.IsChain (RateLimited param.nominal.lonAccLim))
    (hstep : PublishingStep trigonometry param before label after) :
    after.2.IsChain (RateLimited param.nominal.lonAccLim) ↔
      RestartsSlowly param before label after := by
  obtain ⟨⟨hnext, hsent⟩, hordered⟩ := hstep
  have houtcome := step_outcome hnext
  rw [hsent]
  generalize published label = sent at houtcome
  cases houtcome with
  | filtered control prevValues haccepted _ _ =>
    rw [isChain_concat_iff]
    constructor
    · rintro ⟨_, hlimited⟩ last hlast hstop accepted haccepted'
      rw [haccepted] at haccepted'
      cases haccepted'
      exact (limitedSpeed_after_stop hlimits hremembers hlast hstop
        (hordered last hlast) control).mp (hlimited last hlast)
    · intro hslow
      refine ⟨hsafe, ?_⟩
      intro last hlast
      cases hstop : last.isStop with
      | true =>
        exact (limitedSpeed_after_stop hlimits hremembers hlast hstop
          (hordered last hlast) control).mpr (hslow last hlast hstop control haccepted)
      | false =>
        exact limitedSpeed_after_filtered hlimits hremembers hlast hstop
          (hordered last hlast) control
  | stopped hrejected _ =>
    rw [isChain_concat_iff]
    constructor
    · rintro _ last _ _ control haccepted
      rw [hrejected] at haccepted
      cases haccepted
    · exact fun _ => ⟨hsafe, fun last hlast => rateLimited_stop hlimits (hordered last hlast)⟩
  | silent hrejected _ =>
    rw [List.append_nil]
    constructor
    · rintro _ last _ _ control haccepted
      rw [hrejected] at haccepted
      cases haccepted
    · exact fun _ => hsafe

instance {state : VehicleCmdGate × List Publication} {label : (Time × Event) × List Output}
    {state' : VehicleCmdGate × List Publication} : Decidable (InOrder state label state') :=
  inferInstanceAs (Decidable (∀ last ∈ state.2.getLast?, last.time ≤ label.1.1))

theorem exists_run_of_events (trigonometry : Trigonometry) (param : Param)
    (events : List (Time × Event)) (sent : List Publication) (hordered : AlongPartial (recordPartial
      (fun self received => self.handle trigonometry param received.1 received.2) published)
      InOrder (initial param, []) events)
    (hsent : ((executePartial (recordPartial
      (fun self received => self.handle trigonometry param received.1 received.2) published)
      (initial param, []) events).toOption.map fun result => result.2.2) = some sent) :
    ∃ labels gate, Run (PublishingStep trigonometry param) (initial param, []) labels
      (gate, sent) := by
  obtain ⟨⟨labels, gate, _⟩, hsome, rfl⟩ := Option.map_eq_some_iff.mp hsent
  have hexecute := toOption_eq_some.mp hsome
  have hrun := run_guarded_executePartial _ hordered hexecute
  exact ⟨labels, gate, hrun.mono fun _ _ _ hstep =>
    ⟨recorded_of_recordPartial _ hstep.1, hstep.2⟩⟩

/-- The commanded speed rises by no more than the limit of the acceleration allows
exactly in the runs in which every command after an emergency stop restarts slowly. -/
theorem rateLimited_iff_restartsSlowly (hlimits : LimitsAgree param)
    {labels : List ((Time × Event) × List Output)} {last : VehicleCmdGate × List Publication}
    (hrun : Run (PublishingStep trigonometry param) (initial param, []) labels last) :
    last.2.IsChain (RateLimited param.nominal.lonAccLim) ↔
      Run (Guarded (PublishingStep trigonometry param) (RestartsSlowly param))
        (initial param, []) labels last := by
  apply hrun.safe_iff_guarded ((OfPartial.deterministic _).recorded published).guarded
    (fun state => Remembers param state.1.limiter state.2)
    (fun state => state.2.IsChain (RateLimited param.nominal.lonAccLim))
  · intro before label after hstep hafter
    rw [hstep.1.2] at hafter
    exact hafter.left_of_append
  · intro before label after hremembers hsafe hstep
    exact ⟨remembers_step hremembers hstep, rateLimited_step_iff hlimits hremembers hsafe hstep⟩
  · exact remembers_initial
  · exact .nil

/-- The steering stays straight, where the tangent and its inverse are zero. -/
def straight : Trigonometry := ⟨id, id⟩

/-- The filters limit the speed to 25 m/s and its rise to 1 m/s². -/
def exampleParam : Param where
  useEmergencyHandling := false
  checkExternalEmergencyHeartbeat := false
  systemEmergencyHeartbeatTimeout := 1 / 2
  externalEmergencyStopHeartbeatTimeout := 1 / 2
  stopHoldAcceleration := -3 / 2
  emergencyAcceleration := -5 / 2
  nominal := ⟨2, 25, 1, 5, 5, 5, 1⟩
  onTransition := ⟨2, 25, 1, 5, 5, 5, 1⟩

theorem exampleParam_limitsAgree : LimitsAgree exampleParam where
  same := rfl
  lonAccLim_nonneg := by decide
  velLim_nonneg := by decide
  velLim_onTransition_nonneg := by decide

/-- A demand of 10 m/s after one second, a stop, and the demand again. -/
def restartEvents (demand : ℚ) : List (Time × Event) :=
  [(0, .engage true), (0, .autoCtrlCmd ⟨0, 0, demand, 0⟩),
    (1000000000, .autoCtrlCmd ⟨0, 0, demand, 0⟩),
    (1000000000, .externalEmergencyStopService),
    (1500000000, .timer),
    (1600000000, .clearExternalEmergencyStopService),
    (1600000000, .autoCtrlCmd ⟨0, 0, demand, 0⟩)]

/-- A demand that is slow enough for the time since the stop restarts slowly. -/
theorem restartsSlowly_of_slow_demand : ∃ labels last,
      Run (Guarded (PublishingStep straight exampleParam) (RestartsSlowly exampleParam))
        (initial exampleParam, []) labels last ∧
      last.2.map Publication.speed = [0, 1 / 20, 0, 1 / 20] := by
  let sent : List Publication := [⟨0, 0, false⟩, ⟨1000000000, 1 / 20, false⟩,
    ⟨1500000000, 0, true⟩, ⟨1600000000, 1 / 20, false⟩]
  obtain ⟨labels, gate, hrun⟩ := exists_run_of_events straight exampleParam
    (restartEvents (1 / 20)) sent (by decide +kernel) (by decide +kernel)
  have hlimited : sent.IsChain (RateLimited exampleParam.nominal.lonAccLim) := by
    decide +kernel
  have hguarded := (rateLimited_iff_restartsSlowly exampleParam_limitsAgree hrun).mp hlimited
  exact ⟨labels, _, hguarded, rfl⟩

/-- The speed restarts from the speed before the stop. -/
theorem not_rateLimited_after_stop :
    ¬ ∀ (trigonometry : Trigonometry) (param : Param), LimitsAgree param →
      ∀ labels last, Run (PublishingStep trigonometry param) (initial param, []) labels last →
        last.2.IsChain (RateLimited param.nominal.lonAccLim) := by
  intro hlimited
  obtain ⟨labels, gate, hrun⟩ := exists_run_of_events straight exampleParam (restartEvents 10)
    [⟨0, 0, false⟩, ⟨1000000000, 1, false⟩, ⟨1500000000, 0, true⟩, ⟨1600000000, 8 / 5, false⟩]
    (by decide +kernel) (by decide +kernel)
  have hchain := hlimited straight exampleParam exampleParam_limitsAgree labels _ hrun
  have hrestart : RateLimited 1 ⟨1500000000, 0, true⟩ ⟨1600000000, 8 / 5, false⟩ :=
    (List.isChain_cons_cons.mp hchain.tail.tail).1
  revert hrestart
  unfold RateLimited
  decide +kernel

end VehicleCmdGate

end AutowareUniverse.Control
