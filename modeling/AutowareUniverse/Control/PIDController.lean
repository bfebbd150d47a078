import AutowareUniverse.Library.FloatingNumber
import Mathlib.Tactic.Linarith

/-!
# PID controller

The contributions of a controller whose gains and limits may change between two calculations.
The integral of the error is clamped only when it is integrated, by limits that are divided by
the integral gain.
-/

namespace AutowareUniverse.Control.LongitudinalPID

open Library.FloatingNumber

/-- A calculation before both setters throws; the model does not follow an integral that is not
finite. -/
inductive Failure
  | runtimeError
  | notFinite
  deriving DecidableEq

structure Params (K : Type) where
  kp : K
  ki : K
  kd : K
  maxRetP : K
  minRetP : K
  maxRetI : K
  minRetI : K
  maxRetD : K
  minRetD : K
  maxRet : K
  minRet : K

structure PIDController (K : Type) where
  params : Params K
  errorIntegral : K
  prevError : K
  isFirstTime : Bool
  isGainsSet : Bool
  isLimitsSet : Bool

/-- What a calculation returns, and what it has divided by. -/
structure Outcome (K : Type) where
  ret : K
  retP : K
  retI : K
  retD : K
  divisors : List K
  deriving DecidableEq

variable {K : Type} [Field K] [LinearOrder K]

def create (uninitialized : Params K) : PIDController K :=
  ⟨uninitialized, 0, 0, true, false, false⟩

def integrate (p : Params K) (errorIntegral error dt : K) : Number K :=
  .min (.max (.finite (errorIntegral + error * dt)) (.divide p.minRetI p.ki))
    (.divide p.maxRetI p.ki)

def nextIntegral (pid : PIDController K) (error dt : K) (enableIntegration : Bool) : Number K :=
  if enableIntegration then integrate pid.params pid.errorIntegral error dt
  else .finite pid.errorIntegral

def calculate (pid : PIDController K) (error dt : K) (enableIntegration : Bool) :
    Except Failure (Outcome K × PIDController K) :=
  if !pid.isGainsSet || !pid.isLimitsSet then .error .runtimeError
  else
    let p := pid.params
    let retP := min (max (p.kp * error) p.minRetP) p.maxRetP
    match nextIntegral pid error dt enableIntegration with
    | .finite errorIntegral =>
      let retI := p.ki * errorIntegral
      let errorDifferential := if pid.isFirstTime then 0 else (error - pid.prevError) / dt
      let retD := min (max (p.kd * errorDifferential) p.minRetD) p.maxRetD
      let ret := min (max (retP + retI + retD) p.minRet) p.maxRet
      .ok (⟨ret, retP, retI, retD, (if enableIntegration then [p.ki, p.ki] else []) ++
          (if pid.isFirstTime then [] else [dt])⟩,
        { pid with errorIntegral := errorIntegral, prevError := error, isFirstTime := false })
    | _ => .error .notFinite

structure Gains (K : Type) where
  kp : K
  ki : K
  kd : K

structure Limits (K : Type) where
  maxRet : K
  minRet : K
  maxRetP : K
  minRetP : K
  maxRetI : K
  minRetI : K
  maxRetD : K
  minRetD : K

variable (pid : PIDController K)

def setGains (gains : Gains K) : PIDController K :=
  { pid with
    params := { pid.params with kp := gains.kp, ki := gains.ki, kd := gains.kd }
    isGainsSet := true }

def setLimits (limits : Limits K) : PIDController K :=
  { pid with
    params :=
      { pid.params with
        maxRet := limits.maxRet, minRet := limits.minRet, maxRetP := limits.maxRetP
        minRetP := limits.minRetP, maxRetD := limits.maxRetD, minRetD := limits.minRetD
        maxRetI := limits.maxRetI, minRetI := limits.minRetI }
    isLimitsSet := true }

def reset : PIDController K :=
  { pid with errorIntegral := 0, prevError := 0, isFirstTime := true }

inductive Operation (K : Type)
  | setGains (gains : Gains K)
  | setLimits (limits : Limits K)
  | reset
  | calculate (error dt : K) (enableIntegration : Bool)

def step (pid : PIDController K) : Operation K → PIDController K
  | .setGains gains => setGains pid gains
  | .setLimits limits => setLimits pid limits
  | .reset => reset pid
  | .calculate error dt enableIntegration =>
    match calculate pid error dt enableIntegration with
    | .ok (_, next) => next
    | .error _ => pid

def run (uninitialized : Params K) (operations : List (Operation K)) : PIDController K :=
  operations.foldl step (create uninitialized)

/-- A pair of limits with zero between them. -/
def Around (low high : K) : Prop :=
  low ≤ 0 ∧ 0 ≤ high

structure Limits.Valid (limits : Limits K) : Prop where
  ret : Around limits.minRet limits.maxRet
  retP : Around limits.minRetP limits.maxRetP
  retI : Around limits.minRetI limits.maxRetI
  retD : Around limits.minRetD limits.maxRetD

structure Gains.Valid (gains : Gains K) : Prop where
  kp : 0 ≤ gains.kp
  ki : 0 ≤ gains.ki
  kd : 0 ≤ gains.kd

def Operation.Valid : Operation K → Prop
  | .setGains gains => gains.Valid
  | .setLimits limits => limits.Valid
  | .reset => True
  | .calculate _ dt _ => 0 < dt

/-- What the setters leave of the parameters. -/
structure Inv (pid : PIDController K) : Prop where
  ki : pid.isGainsSet = true → 0 ≤ pid.params.ki
  ret : pid.isLimitsSet = true → Around pid.params.minRet pid.params.maxRet
  retP : pid.isLimitsSet = true → Around pid.params.minRetP pid.params.maxRetP
  retI : pid.isLimitsSet = true → Around pid.params.minRetI pid.params.maxRetI
  retD : pid.isLimitsSet = true → Around pid.params.minRetD pid.params.maxRetD

theorem calculate_params {pid next : PIDController K} {outcome : Outcome K} {error dt : K}
    {enableIntegration : Bool}
    (hcalculate : calculate pid error dt enableIntegration = .ok (outcome, next)) :
    next.params = pid.params ∧ next.isGainsSet = pid.isGainsSet ∧
      next.isLimitsSet = pid.isLimitsSet := by
  unfold calculate at hcalculate
  split at hcalculate
  · cases hcalculate
  · dsimp only at hcalculate
    split at hcalculate
    · cases hcalculate
      exact ⟨rfl, rfl, rfl⟩
    · cases hcalculate

theorem Inv.step {pid : PIDController K} (hinv : Inv pid) {operation : Operation K}
    (hvalid : operation.Valid) : Inv (step pid operation) := by
  cases operation with
  | setGains gains => exact ⟨fun _ => hvalid.ki, hinv.ret, hinv.retP, hinv.retI, hinv.retD⟩
  | setLimits limits =>
    exact ⟨hinv.ki, fun _ => hvalid.ret, fun _ => hvalid.retP, fun _ => hvalid.retI,
      fun _ => hvalid.retD⟩
  | reset => exact ⟨hinv.ki, hinv.ret, hinv.retP, hinv.retI, hinv.retD⟩
  | calculate error dt enableIntegration =>
    rw [LongitudinalPID.step]
    cases hcalculate : calculate pid error dt enableIntegration with
    | error failure => exact hinv
    | ok result =>
      obtain ⟨outcome, next⟩ := result
      obtain ⟨hparams, hgains, hlimits⟩ := calculate_params hcalculate
      refine ⟨?_, ?_, ?_, ?_, ?_⟩
      · rw [hgains, hparams]
        exact hinv.ki
      · rw [hlimits, hparams]
        exact hinv.ret
      · rw [hlimits, hparams]
        exact hinv.retP
      · rw [hlimits, hparams]
        exact hinv.retI
      · rw [hlimits, hparams]
        exact hinv.retD

theorem inv_run (uninitialized : Params K) {operations : List (Operation K)}
    (hvalid : ∀ operation ∈ operations, operation.Valid) : Inv (run uninitialized operations) := by
  have hstart : Inv (create uninitialized) := by
    constructor <;> exact fun hset => absurd hset Bool.false_ne_true
  unfold run
  generalize create uninitialized = start at hstart
  induction operations generalizing start with
  | nil => exact hstart
  | cons operation later ih =>
    obtain ⟨hoperation, hlater⟩ := List.forall_mem_cons.mp hvalid
    exact ih hlater _ (hstart.step hoperation)

/-! ## Contributions -/

/-- What a calculation is to return. -/
structure WithinLimits (p : Params K) (outcome : Outcome K) : Prop where
  ret : p.minRet ≤ outcome.ret ∧ outcome.ret ≤ p.maxRet
  retP : p.minRetP ≤ outcome.retP ∧ outcome.retP ≤ p.maxRetP
  retI : p.minRetI ≤ outcome.retI ∧ outcome.retI ≤ p.maxRetI
  retD : p.minRetD ≤ outcome.retD ∧ outcome.retD ≤ p.maxRetD
  divisors : 0 ∉ outcome.divisors
  zeroGain : p.ki = 0 → outcome.retI = 0

def FitsGain (pid : PIDController K) (enableIntegration : Bool) : Prop :=
  if enableIntegration then pid.params.ki ≠ 0
  else pid.params.ki = 0 ∨ (pid.params.minRetI / pid.params.ki ≤ pid.errorIntegral ∧
    pid.errorIntegral ≤ pid.params.maxRetI / pid.params.ki)

theorem clamp_mem {low high : K} (haround : Around low high) (value : K) :
    low ≤ min (max value low) high ∧ min (max value low) high ≤ high :=
  ⟨le_min (le_max_right _ _) (haround.1.trans haround.2), min_le_right _ _⟩

variable [IsStrictOrderedRing K]

theorem integrate_of_pos {p : Params K} (hki : 0 < p.ki) (haround : Around p.minRetI p.maxRetI)
    (errorIntegral error dt : K) :
    ∃ clamped, integrate p errorIntegral error dt = .finite clamped ∧
      p.minRetI ≤ p.ki * clamped ∧ p.ki * clamped ≤ p.maxRetI := by
  have hlow : Number.divide p.minRetI p.ki = .finite (p.minRetI / p.ki) := if_pos hki.ne'
  have hhigh : Number.divide p.maxRetI p.ki = .finite (p.maxRetI / p.ki) := if_pos hki.ne'
  refine ⟨min (max (errorIntegral + error * dt) (p.minRetI / p.ki)) (p.maxRetI / p.ki), ?_, ?_, ?_⟩
  · rw [integrate, hlow, hhigh, Number.max_finite, Number.min_finite]
  · rw [← div_le_iff₀' hki]
    exact le_min (le_max_right _ _) (div_le_div_of_nonneg_right (haround.1.trans haround.2) hki.le)
  · rw [← le_div_iff₀' hki]
    exact min_le_right _ _

omit [IsStrictOrderedRing K] in
theorem integrate_zero {p : Params K} (hki : p.ki = 0) (haround : Around p.minRetI p.maxRetI)
    (errorIntegral error dt : K) :
    integrate p errorIntegral error dt = .finite (errorIntegral + error * dt) := by
  rw [integrate, hki, Number.max_divide_zero _ haround.1, Number.min_divide_zero _ haround.2]

section

variable {pid : PIDController K} {error dt : K} {enableIntegration : Bool}

section
omit [IsStrictOrderedRing K]

theorem calculate_ok (hgains : pid.isGainsSet = true) (hlimits : pid.isLimitsSet = true)
    {errorIntegral : K}
    (hintegral : nextIntegral pid error dt enableIntegration = .finite errorIntegral) :
    ∃ outcome next, calculate pid error dt enableIntegration = .ok (outcome, next) ∧
      outcome.retI = pid.params.ki * errorIntegral ∧
      outcome.divisors = (if enableIntegration then [pid.params.ki, pid.params.ki] else []) ++
        (if pid.isFirstTime then [] else [dt]) := by
  rw [calculate, hgains, hlimits, if_neg (by decide)]
  dsimp only
  rw [hintegral]
  exact ⟨_, _, rfl, rfl, rfl⟩

theorem calculate_clamped (hinv : Inv pid) {outcome : Outcome K} {next : PIDController K}
    (hcalculate : calculate pid error dt enableIntegration = .ok (outcome, next)) :
    (pid.params.minRet ≤ outcome.ret ∧ outcome.ret ≤ pid.params.maxRet) ∧
      (pid.params.minRetP ≤ outcome.retP ∧ outcome.retP ≤ pid.params.maxRetP) ∧
      (pid.params.minRetD ≤ outcome.retD ∧ outcome.retD ≤ pid.params.maxRetD) := by
  unfold calculate at hcalculate
  split at hcalculate
  · cases hcalculate
  · rename_i hset
    simp only [Bool.or_eq_true, Bool.not_eq_true', not_or, Bool.not_eq_false] at hset
    dsimp only at hcalculate
    split at hcalculate
    · cases hcalculate
      exact ⟨clamp_mem (hinv.ret hset.2) _, clamp_mem (hinv.retP hset.2) _,
        clamp_mem (hinv.retD hset.2) _⟩
    · cases hcalculate

end

theorem calculate_withinLimits_iff (hinv : Inv pid) (hgains : pid.isGainsSet = true)
    (hlimits : pid.isLimitsSet = true) (hdt : 0 < dt) :
    (∃ outcome next, calculate pid error dt enableIntegration = .ok (outcome, next) ∧
      WithinLimits pid.params outcome) ↔ FitsGain pid enableIntegration := by
  have haround := hinv.retI hlimits
  have hfinish {errorIntegral : K}
      (hintegral : nextIntegral pid error dt enableIntegration = .finite errorIntegral) :
      (∃ outcome next, calculate pid error dt enableIntegration = .ok (outcome, next) ∧
        WithinLimits pid.params outcome) ↔
      (pid.params.minRetI ≤ pid.params.ki * errorIntegral ∧
        pid.params.ki * errorIntegral ≤ pid.params.maxRetI) ∧
        (enableIntegration = true → pid.params.ki ≠ 0) := by
    obtain ⟨outcome, next, hcalculate, hretI, hdivisors⟩ := calculate_ok hgains hlimits hintegral
    obtain ⟨hret, hretP, hretD⟩ := calculate_clamped hinv hcalculate
    have hzero : 0 ∉ outcome.divisors ↔ (enableIntegration = true → pid.params.ki ≠ 0) := by
      rw [hdivisors]
      cases enableIntegration <;> cases pid.isFirstTime <;> simp [hdt.ne, eq_comm]
    constructor
    · rintro ⟨other, after, hother, hwithin⟩
      cases hcalculate.symm.trans hother
      exact ⟨hretI ▸ hwithin.retI, hzero.mp hwithin.divisors⟩
    · rintro ⟨hbounds, hne⟩
      refine ⟨outcome, next, hcalculate, hret, hretP, hretI ▸ hbounds, hretD, hzero.mpr hne, ?_⟩
      intro hki
      rw [hretI, hki, zero_mul]
  unfold FitsGain
  cases enableIntegration with
  | false =>
    rw [hfinish rfl, if_neg Bool.false_ne_true,
      and_iff_left fun htrue => absurd htrue Bool.false_ne_true]
    rcases (hinv.ki hgains).eq_or_lt with hki | hki
    · rw [← hki, zero_mul]
      exact iff_of_true haround (.inl rfl)
    · rw [div_le_iff₀' hki, le_div_iff₀' hki]
      exact (or_iff_right hki.ne').symm
  | true =>
    rw [if_pos rfl]
    rcases (hinv.ki hgains).eq_or_lt with hki | hki
    · rw [hfinish (integrate_zero hki.symm haround _ _ _)]
      exact iff_of_false (fun hboth => hboth.2 rfl hki.symm) (fun hne => hne hki.symm)
    · obtain ⟨clamped, hclamped, hbounds⟩ :=
        integrate_of_pos hki haround pid.errorIntegral error dt
      rw [hfinish hclamped]
      exact iff_of_true ⟨hbounds, fun _ => hki.ne'⟩ hki.ne'

end

def ForallCalculations (uninitialized : Params K) (operations : List (Operation K))
    (holds : PIDController K → K → K → Bool → Prop) : Prop :=
  ∀ before error dt enableIntegration after,
    operations = before ++ .calculate error dt enableIntegration :: after →
    (run uninitialized before).isGainsSet = true → (run uninitialized before).isLimitsSet = true →
    holds (run uninitialized before) error dt enableIntegration

/-- All calculations of a run are within the limits exactly if the integral fits the gain at each
of them. -/
theorem run_withinLimits_iff (uninitialized : Params K) (operations : List (Operation K))
    (hvalid : ∀ operation ∈ operations, operation.Valid) :
    ForallCalculations uninitialized operations
      (fun pid error dt enableIntegration => ∃ outcome next,
        calculate pid error dt enableIntegration = .ok (outcome, next) ∧
          WithinLimits pid.params outcome) ↔
    ForallCalculations uninitialized operations
      fun pid _ _ enableIntegration => FitsGain pid enableIntegration := by
  have hiff (before : List (Operation K)) (error dt : K) (enableIntegration : Bool)
      (after : List (Operation K))
      (hsplit : operations = before ++ .calculate error dt enableIntegration :: after)
      (hgains : (run uninitialized before).isGainsSet = true)
      (hlimits : (run uninitialized before).isLimitsSet = true) :
      (∃ outcome next, calculate (run uninitialized before) error dt enableIntegration =
        .ok (outcome, next) ∧ WithinLimits (run uninitialized before).params outcome) ↔
      FitsGain (run uninitialized before) enableIntegration := by
    subst hsplit
    refine calculate_withinLimits_iff (inv_run uninitialized fun operation hmem =>
      hvalid operation (List.mem_append_left _ hmem)) hgains hlimits ?_
    exact hvalid _ (List.mem_append_right before List.mem_cons_self)
  constructor
  · intro hall before error dt enableIntegration after hsplit hgains hlimits
    exact (hiff before error dt enableIntegration after hsplit hgains hlimits).mp
      (hall before error dt enableIntegration after hsplit hgains hlimits)
  · intro hall before error dt enableIntegration after hsplit hgains hlimits
    exact (hiff before error dt enableIntegration after hsplit hgains hlimits).mpr
      (hall before error dt enableIntegration after hsplit hgains hlimits)

def wideLimits : Limits ℚ := ⟨10, -10, 10, -10, 1, -1, 10, -10⟩

def allZero : Params ℚ := ⟨0, 0, 0, 0, 0, 0, 0, 0, 0, 0, 0⟩

def gainChange (ki : ℚ) : List (Operation ℚ) :=
  [.setGains ⟨1, 1, 1⟩, .setLimits wideLimits, .calculate 100 1 true, .setGains ⟨1, ki, 1⟩,
    .calculate 0 1 false]

theorem gainChange_valid {ki : ℚ} (hki : 0 ≤ ki) :
    ∀ operation ∈ gainChange ki, operation.Valid := by
  simp only [gainChange, List.forall_mem_cons]
  refine ⟨⟨by norm_num, by norm_num, by norm_num⟩, ⟨?_, ?_, ?_, ?_⟩, one_pos,
    ⟨by norm_num, hki, by norm_num⟩, one_pos, fun _ hmem => absurd hmem List.not_mem_nil⟩
  all_goals exact ⟨by decide +kernel, by decide +kernel⟩

/-- A smaller gain keeps the contribution within the limits. -/
theorem run_withinLimits_gainChange : ForallCalculations allZero (gainChange (1 / 2))
      (fun pid error dt enableIntegration => ∃ outcome next,
        calculate pid error dt enableIntegration = .ok (outcome, next) ∧
          WithinLimits pid.params outcome) ↔
    ForallCalculations allZero (gainChange (1 / 2))
      fun pid _ _ enableIntegration => FitsGain pid enableIntegration :=
  run_withinLimits_iff allZero (gainChange (1 / 2)) (gainChange_valid (by norm_num))

/-- With a larger gain the integral contributes five, where at most one is allowed. -/
theorem run_beyondLimits_gainChange : (∀ operation ∈ gainChange 5, operation.Valid) ∧
      ¬ ForallCalculations allZero (gainChange 5)
        (fun pid error dt enableIntegration => ∃ outcome next,
          calculate pid error dt enableIntegration = .ok (outcome, next) ∧
            WithinLimits pid.params outcome) := by
  refine ⟨gainChange_valid (by norm_num), fun hall => ?_⟩
  obtain ⟨outcome, next, hcalculate, hwithin⟩ :=
    hall [.setGains ⟨1, 1, 1⟩, .setLimits wideLimits, .calculate 100 1 true, .setGains ⟨1, 5, 1⟩]
      0 1 false [] rfl (by decide +kernel) (by decide +kernel)
  have houtcome : (calculate (run allZero [.setGains ⟨1, 1, 1⟩, .setLimits wideLimits,
      .calculate 100 1 true, .setGains ⟨1, 5, 1⟩]) 0 1 false).map (fun result => result.1.retI) =
      .ok 5 := by decide +kernel
  rw [hcalculate] at houtcome
  have hretI : outcome.retI = 5 := Except.ok.inj houtcome
  have hmax : (run allZero [.setGains ⟨1, 1, 1⟩, .setLimits wideLimits, .calculate 100 1 true,
      .setGains ⟨1, 5, 1⟩]).params.maxRetI = 1 := by decide +kernel
  have hle := hwithin.retI.2
  rw [hretI, hmax] at hle
  exact absurd hle (by norm_num)

end AutowareUniverse.Control.LongitudinalPID
