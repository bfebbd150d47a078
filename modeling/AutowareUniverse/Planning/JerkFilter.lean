import AutowareUniverse.Planning.VelocityFilters

/-!
# Jerk filters

A forward filter accelerates with the greatest jerk up to the velocity limits of
the points, a backward filter is the same on the reversed trajectory, and the
two are merged after a deceleration from a velocity above the backward one.
The cube root is a parameter.
-/

namespace AutowareUniverse.Planning.MotionVelocitySmoother

open Common.MotionUtils (Point)

structure PlannedPoint (K : Type) extends TrajectoryPoint K where
  accelerationMps2 : K
  deriving DecidableEq

namespace JerkFilteredSmoother

variable {K : Type} [Field K] [LinearOrder K] (real : RealFunctions K) (cubeRoot : K → K)

/-- The velocity and the acceleration within the limit of a point. -/
def applyLimits (aStart vLim : K) (nextVLim : Option K) (state : K × K) : K × K :=
  let (v, a) := state
  let (v, a) :=
    if vLim + 1 / 100000 < v then
      match nextVLim with
      | some nextVLim =>
        -- start from stop velocity
        if vLim < 1 / 1000 ∧ 1 / 1000 ≤ nextVLim then (vLim, aStart) else (vLim, 0)
      | none => (vLim, 0)
    else (v, a)
  if v < 0 then (0, 0) else (v, a)

/-- The time to the next point, at most that of a start from rest. -/
def timeStep (jerk ds v : K) : K :=
  min (ds / max v (1 / 1000000)) (cubeRoot (6 * ds / jerk))

/-- The velocity and the acceleration at the next point, without its limit. -/
def accelerate (aMax jMax ds : K) (state : K × K) : K × K :=
  let (currentVel, currentAcc) := state
  let dt := timeStep cubeRoot jMax ds currentVel
  if aMax ≤ currentAcc + jMax * dt then
    let tmpJerk := min ((aMax - currentAcc) / dt) jMax
    (currentVel + currentAcc * dt + 1 / 2 * tmpJerk * dt * dt, aMax)
  else (currentVel + currentAcc * dt + 1 / 2 * jMax * dt * dt, currentAcc + jMax * dt)

def withState (point : PlannedPoint K) (state : K × K) : PlannedPoint K :=
  { point with longitudinalVelocityMps := state.1, accelerationMps2 := state.2 }

def nextLimit (points : List (PlannedPoint K)) : Option K :=
  points.head?.map fun point => point.longitudinalVelocityMps

def forwardLoop (aMax aStart jMax : K) : K × K → PlannedPoint K → List (PlannedPoint K) →
    List (PlannedPoint K)
  | _, _, [] => []
  | state, previous, point :: points =>
    let ds := calcDistance2d real point.position previous.position
    let state := applyLimits aStart point.longitudinalVelocityMps (nextLimit points)
      (accelerate cubeRoot aMax jMax ds state)
    withState point state :: forwardLoop aMax aStart jMax state point points

/-- An empty trajectory is an access out of range. -/
def forwardJerkFilter (v0 a0 aMax aStart jMax : K) :
    List (PlannedPoint K) → Option (List (PlannedPoint K))
  | [] => none
  | first :: points =>
    let state := applyLimits aStart first.longitudinalVelocityMps (nextLimit points) (v0, a0)
    some (withState first state :: forwardLoop real cubeRoot aMax aStart jMax state first points)

def backwardJerkFilter (v0 a0 aMin aStop jMin : K) (input : List (PlannedPoint K)) :
    Option (List (PlannedPoint K)) :=
  (forwardJerkFilter real cubeRoot v0 |a0| |aMin| |aStop| |jMin| input.reverse).map
    fun filtered => filtered.reverse.map fun point =>
      { point with accelerationMps2 := -point.accelerationMps2 }

/-! ## The merge -/

/-- The velocity and the acceleration after a deceleration to the next point. -/
def decelerate (aMin jMin ds : K) (state : K × K) : K × K :=
  let (currentVel, currentAcc) := state
  let dt := timeStep cubeRoot |jMin| ds currentVel
  if currentAcc + jMin * dt < aMin then
    let tmpJerk := max ((aMin - currentAcc) / dt) jMin
    (currentVel + currentAcc * dt + 1 / 2 * tmpJerk * dt * dt, max (currentAcc + tmpJerk * dt) aMin)
  else (currentVel + currentAcc * dt + 1 / 2 * jMin * dt * dt, currentAcc + jMin * dt)

def slower (forward backward : PlannedPoint K) : PlannedPoint K :=
  if forward.longitudinalVelocityMps < backward.longitudinalVelocityMps then forward
  else backward

def mergeLoop (aMin jMin : K) : K × K → List (PlannedPoint K) → List (PlannedPoint K) →
    List (PlannedPoint K)
  | state, forward :: next :: forwards, backward :: backwards =>
    if backward.longitudinalVelocityMps < state.1 then
      let ds := calcDistance2d real next.position forward.position
      let (currentVel, currentAcc) := decelerate cubeRoot aMin jMin ds state
      let currentVel :=
        if forward.longitudinalVelocityMps < currentVel then forward.longitudinalVelocityMps
        else currentVel
      withState forward state ::
        mergeLoop aMin jMin (currentVel, currentAcc) (next :: forwards) backwards
    else List.zipWith slower (forward :: next :: forwards) (backward :: backwards)
  | _, forwards, backwards => List.zipWith slower forwards backwards

def mergeFilteredTrajectory (v0 a0 aMin jMin : K)
    (forwardFiltered backwardFiltered : List (PlannedPoint K)) : List (PlannedPoint K) :=
  match backwardFiltered with
  | [] => []
  | backward :: _ =>
    if backward.longitudinalVelocityMps < v0 then
      mergeLoop real cubeRoot aMin jMin (v0, a0) forwardFiltered backwardFiltered
    else List.zipWith slower forwardFiltered backwardFiltered

end JerkFilteredSmoother

end AutowareUniverse.Planning.MotionVelocitySmoother

/-!
# Bounds of the jerk filters

Whatever the accelerations do, the limits of the points bound the velocities.
The acceleration stays below its greatest value, apart from the initial one at
the first point and the one for a start from a stop.  A velocity above the
backward profile falls along the forward one until the two profiles meet.
-/

namespace AutowareUniverse.Planning.MotionVelocitySmoother.JerkFilteredSmoother

section

variable {K : Type} [Field K] [LinearOrder K]

/-- The velocity is not negative and at most a little above the limit. -/
def WithinLimit (limit output : PlannedPoint K) : Prop :=
  0 ≤ output.longitudinalVelocityMps ∧
    output.longitudinalVelocityMps ≤ limit.longitudinalVelocityMps + 1 / 100000

def StartsFromStop : List (PlannedPoint K) → Prop
  | point :: next :: _ =>
    point.longitudinalVelocityMps < 1 / 1000 ∧ 1 / 1000 ≤ next.longitudinalVelocityMps
  | _ => False

structure Bounded (a0 aMax aStart : K) (acceleration : PlannedPoint K → K)
    (limits filtered : List (PlannedPoint K)) : Prop where
  withinLimits : List.Forall₂ WithinLimit limits filtered
  acceleration : ∀ i point, filtered[i]? = some point → acceleration point ≤ aMax ∨
      StartsFromStop (limits.drop i) ∧ acceleration point = aStart ∨
      i = 0 ∧ acceleration point = a0

def AboveAt (backward merged : List (PlannedPoint K)) (i : ℕ) : Prop :=
  ∃ slow fast, backward[i]? = some slow ∧ merged[i]? = some fast ∧
    slow.longitudinalVelocityMps < fast.longitudinalVelocityMps

/-- The smaller velocities of two profiles, or a way down from a greater velocity. -/
structure Merges (v0 : K) (forward backward merged : List (PlannedPoint K)) : Prop where
  minimum : (∀ first, backward.head? = some first → v0 ≤ first.longitudinalVelocityMps) →
    merged.map (·.longitudinalVelocityMps) = List.zipWith min
      (forward.map (·.longitudinalVelocityMps)) (backward.map (·.longitudinalVelocityMps))
  length_eq : merged.length = forward.length
  nonneg : ∀ point ∈ merged, 0 ≤ point.longitudinalVelocityMps
  falls : ∀ i, (∀ k ≤ i + 1, AboveAt backward merged k) →
    ∀ preceding point, forward[i]? = some preceding → merged[i + 1]? = some point →
      point.longitudinalVelocityMps ≤ preceding.longitudinalVelocityMps

end

variable {K : Type} [Field K] [LinearOrder K] {real : RealFunctions K} {cubeRoot : K → K}
  {v0 a0 aMin aMax aStart aStop jMin jMax : K}

/-! ## Forwards -/

section

variable [IsStrictOrderedRing K]

variable (aStart) in
theorem applyLimits_spec {point : PlannedPoint K} (hlimit : 0 ≤ point.longitudinalVelocityMps)
    (points : List (PlannedPoint K)) (state : K × K) :
    WithinLimit point (withState point
        (applyLimits aStart point.longitudinalVelocityMps (nextLimit points) state)) ∧
      ((applyLimits aStart point.longitudinalVelocityMps (nextLimit points) state).2 = state.2 ∨
        (applyLimits aStart point.longitudinalVelocityMps (nextLimit points) state).2 = 0 ∨
        StartsFromStop (point :: points) ∧
          (applyLimits aStart point.longitudinalVelocityMps (nextLimit points) state).2 =
            aStart) := by
  obtain ⟨v, a⟩ := state
  have hmargin : (0 : K) < 1 / 100000 := by norm_num
  have hstop : ¬point.longitudinalVelocityMps < 0 := not_lt.mpr hlimit
  by_cases habove : point.longitudinalVelocityMps + 1 / 100000 < v
  · cases points with
    | nil =>
      simp only [applyLimits, nextLimit, List.head?_nil, Option.map_none, if_pos habove,
        if_neg hstop, WithinLimit, withState]
      exact ⟨⟨hlimit, by linarith⟩, Or.inr (Or.inl trivial)⟩
    | cons next points =>
      simp only [applyLimits, nextLimit, List.head?_cons, Option.map_some, if_pos habove,
        WithinLimit, withState, StartsFromStop]
      split
      · rename_i hstart
        exact ⟨⟨hlimit, by linarith⟩, Or.inr (Or.inr ⟨hstart, rfl⟩)⟩
      · exact ⟨⟨hlimit, by linarith⟩, Or.inr (Or.inl rfl)⟩
  · simp only [applyLimits, if_neg habove, WithinLimit, withState]
    split
    · exact ⟨⟨le_rfl, by linarith⟩, Or.inr (Or.inl rfl)⟩
    · rename_i hnonneg
      exact ⟨⟨not_lt.mp hnonneg, not_lt.mp habove⟩, Or.inl rfl⟩

omit [IsStrictOrderedRing K] in
theorem accelerate_snd_le (ds : K) (state : K × K) :
    (accelerate cubeRoot aMax jMax ds state).2 ≤ aMax := by
  unfold accelerate
  dsimp only
  split
  · exact le_rfl
  · rename_i hbelow
    exact (not_le.mp hbelow).le

variable (real cubeRoot aStart jMax) in
theorem forwardLoop_bounded (haMax : 0 < aMax) (points : List (PlannedPoint K))
    (hlimits : ∀ point ∈ points, 0 ≤ point.longitudinalVelocityMps)
    (state : K × K) (previous : PlannedPoint K) :
    List.Forall₂ WithinLimit points
        (forwardLoop real cubeRoot aMax aStart jMax state previous points) ∧
      ∀ i point, (forwardLoop real cubeRoot aMax aStart jMax state previous points)[i]? =
          some point →
        point.accelerationMps2 ≤ aMax ∨
          StartsFromStop (points.drop i) ∧ point.accelerationMps2 = aStart := by
  induction points generalizing state previous with
  | nil => exact ⟨.nil, fun i point hpoint => by simp [forwardLoop] at hpoint⟩
  | cons next points ih =>
    rw [List.forall_mem_cons] at hlimits
    obtain ⟨hwithin, hacceleration⟩ := applyLimits_spec aStart hlimits.1 points
      (accelerate cubeRoot aMax jMax (calcDistance2d real next.position previous.position) state)
    obtain ⟨hlimited, hrest⟩ := ih hlimits.2 (applyLimits aStart next.longitudinalVelocityMps
      (nextLimit points) (accelerate cubeRoot aMax jMax
        (calcDistance2d real next.position previous.position) state)) next
    refine ⟨.cons hwithin hlimited, ?_⟩
    intro i point hpoint
    cases i with
    | succ i => exact hrest i point hpoint
    | zero =>
      cases hpoint
      obtain hkept | hzero | hstart := hacceleration
      · exact Or.inl (hkept.trans_le (accelerate_snd_le _ _))
      · exact Or.inl (hzero.trans_le haMax.le)
      · exact Or.inr hstart

variable (real cubeRoot v0 a0 aStart jMax) in
theorem forwardJerkFilter_bounded (haMax : 0 < aMax) {input : List (PlannedPoint K)}
    (hinput : input ≠ []) (hlimits : ∀ point ∈ input, 0 ≤ point.longitudinalVelocityMps) :
    ∃ forward, forwardJerkFilter real cubeRoot v0 a0 aMax aStart jMax input = some forward ∧
      Bounded a0 aMax aStart (·.accelerationMps2) input forward := by
  obtain ⟨first, points, rfl⟩ := List.exists_cons_of_ne_nil hinput
  rw [List.forall_mem_cons] at hlimits
  obtain ⟨hwithin, hacceleration⟩ := applyLimits_spec aStart hlimits.1 points (v0, a0)
  obtain ⟨hlimited, hrest⟩ := forwardLoop_bounded real cubeRoot aStart jMax haMax points hlimits.2
    (applyLimits aStart first.longitudinalVelocityMps (nextLimit points) (v0, a0)) first
  refine ⟨_, rfl, .cons hwithin hlimited, ?_⟩
  intro i point hpoint
  cases i with
  | succ i => exact (hrest i point hpoint).imp id Or.inl
  | zero =>
    cases hpoint
    obtain hkept | hzero | hstart := hacceleration
    · exact Or.inr (Or.inr ⟨rfl, hkept⟩)
    · exact Or.inl (hzero.trans_le haMax.le)
    · exact Or.inr (Or.inl hstart)

end

section

variable [IsStrictOrderedRing K]

variable (real cubeRoot v0 a0 aStop jMin) in
theorem backwardJerkFilter_bounded (haMin : aMin < 0) {input : List (PlannedPoint K)}
    (hinput : input ≠ []) (hlimits : ∀ point ∈ input, 0 ≤ point.longitudinalVelocityMps) :
    ∃ backward, backwardJerkFilter real cubeRoot v0 a0 aMin aStop jMin input = some backward ∧
      Bounded |a0| (-aMin) |aStop| (-·.accelerationMps2) input.reverse backward.reverse := by
  have hreverse : ∀ point ∈ input.reverse, 0 ≤ point.longitudinalVelocityMps :=
    fun point hpoint => hlimits point (List.mem_reverse.mp hpoint)
  obtain ⟨filtered, hfiltered, hbounded⟩ := forwardJerkFilter_bounded real cubeRoot v0 |a0|
    |aStop| |jMin|
    (abs_pos.mpr haMin.ne) (mt List.reverse_eq_nil_iff.mp hinput) hreverse
  refine ⟨_, by rw [backwardJerkFilter, hfiltered]; rfl, ?_⟩
  rw [← List.map_reverse, List.reverse_reverse]
  constructor
  · rw [List.forall₂_map_right_iff]
    exact hbounded.withinLimits
  · intro i point hpoint
    rw [List.getElem?_map, Option.map_eq_some_iff] at hpoint
    obtain ⟨before, hbefore, rfl⟩ := hpoint
    simpa only [neg_neg, abs_of_neg haMin] using hbounded.acceleration i before hbefore

end

/-! ## The merge -/

section
omit [Field K]

theorem slower_velocity (forward backward : PlannedPoint K) :
    (slower forward backward).longitudinalVelocityMps =
      min forward.longitudinalVelocityMps backward.longitudinalVelocityMps := by
  unfold slower
  split
  · rename_i hbelow
    exact (min_eq_left hbelow.le).symm
  · rename_i hbelow
    exact (min_eq_right (not_lt.mp hbelow)).symm

theorem zipWith_slower_velocity (forwards backwards : List (PlannedPoint K)) :
    (List.zipWith slower forwards backwards).map (·.longitudinalVelocityMps) =
      List.zipWith min (forwards.map (·.longitudinalVelocityMps))
        (backwards.map (·.longitudinalVelocityMps)) := by
  rw [List.map_zipWith, List.zipWith_map]
  simp only [slower_velocity]

end

variable {forwards backwards : List (PlannedPoint K)}

theorem zipWith_slower_nonneg (hforwards : ∀ point ∈ forwards, 0 ≤ point.longitudinalVelocityMps)
    (hbackwards : ∀ point ∈ backwards, 0 ≤ point.longitudinalVelocityMps) :
    ∀ point ∈ List.zipWith slower forwards backwards, 0 ≤ point.longitudinalVelocityMps := by
  intro point hpoint
  rw [List.mem_iff_getElem?] at hpoint
  obtain ⟨i, hpoint⟩ := hpoint
  rw [List.getElem?_zipWith_eq_some] at hpoint
  obtain ⟨forward, backward, hforward, hbackward, rfl⟩ := hpoint
  rw [slower_velocity]
  exact le_min (hforwards forward (List.mem_of_getElem? hforward))
    (hbackwards backward (List.mem_of_getElem? hbackward))

omit [Field K] in
theorem not_aboveAt_zipWith_slower (forwards backwards : List (PlannedPoint K)) (i : ℕ) :
    ¬AboveAt backwards (List.zipWith slower forwards backwards) i := by
  rintro ⟨slow, fast, hslow, hfast, habove⟩
  rw [List.getElem?_zipWith_eq_some] at hfast
  obtain ⟨forward, backward, -, hbackward, rfl⟩ := hfast
  rw [slower_velocity, ← Option.some_inj.mp (hslow.symm.trans hbackward)] at habove
  exact absurd (min_le_right _ _) (not_le.mpr habove)

variable (state : K × K)

variable (real cubeRoot aMin jMin) in
theorem mergeLoop_cases (forwards backwards : List (PlannedPoint K)) :
    mergeLoop real cubeRoot aMin jMin state forwards backwards =
        List.zipWith slower forwards backwards ∨
      ∃ forward rest backward backwards' next, forwards = forward :: rest ∧ rest ≠ [] ∧
        backwards = backward :: backwards' ∧ backward.longitudinalVelocityMps < state.1 ∧
        next.1 ≤ forward.longitudinalVelocityMps ∧
        mergeLoop real cubeRoot aMin jMin state forwards backwards =
          withState forward state :: mergeLoop real cubeRoot aMin jMin next rest backwards' := by
  fun_cases mergeLoop real cubeRoot aMin jMin state forwards backwards
  case case1 forward next forwards backward backwards ds vel acc vel' habove hstep =>
    refine Or.inr ⟨forward, next :: forwards, backward, backwards, (vel', acc), rfl,
      List.cons_ne_nil _ _, rfl, habove, ?_, ?_⟩
    · dsimp only [vel']
      split
      · exact le_rfl
      · rename_i hbelow
        exact not_lt.mp hbelow
    · rfl
  case case2 => exact Or.inl rfl
  case case3 => exact Or.inl rfl

theorem mergeLoop_length (hlength : forwards.length = backwards.length) :
    (mergeLoop real cubeRoot aMin jMin state forwards backwards).length = forwards.length := by
  induction forwards generalizing state backwards with
  | nil => simp [mergeLoop]
  | cons forward rest ih =>
    obtain hzip | ⟨_, _, backward, backwards', next, heq, -, rfl, -, -, hloop⟩ :=
      mergeLoop_cases real cubeRoot aMin jMin state (forward :: rest) backwards
    · rw [hzip, List.length_zipWith, ← hlength, Nat.min_self]
    · obtain ⟨rfl, rfl⟩ := List.cons_eq_cons.mp heq
      rw [hloop, List.length_cons, List.length_cons, ih next (Nat.succ.inj hlength)]

theorem mergeLoop_nonneg (hforwards : ∀ point ∈ forwards, 0 ≤ point.longitudinalVelocityMps)
    (hbackwards : ∀ point ∈ backwards, 0 ≤ point.longitudinalVelocityMps) :
    ∀ point ∈ mergeLoop real cubeRoot aMin jMin state forwards backwards,
      0 ≤ point.longitudinalVelocityMps := by
  induction forwards generalizing state backwards with
  | nil => simp [mergeLoop]
  | cons forward rest ih =>
    obtain hzip | ⟨_, _, backward, backwards', next, heq, -, rfl, habove, -, hloop⟩ :=
      mergeLoop_cases real cubeRoot aMin jMin state (forward :: rest) backwards
    · rw [hzip]
      exact zipWith_slower_nonneg hforwards hbackwards
    · obtain ⟨rfl, rfl⟩ := List.cons_eq_cons.mp heq
      rw [List.forall_mem_cons] at hforwards hbackwards
      rw [hloop, List.forall_mem_cons]
      exact ⟨hbackwards.1.trans habove.le, ih next hforwards.2 hbackwards.2⟩

theorem mergeLoop_head
    (habove : AboveAt backwards (mergeLoop real cubeRoot aMin jMin state forwards backwards) 0)
    {point : PlannedPoint K}
    (hpoint : (mergeLoop real cubeRoot aMin jMin state forwards backwards)[0]? = some point) :
    point.longitudinalVelocityMps = state.1 := by
  obtain hzip | ⟨forward, rest, backward, backwards', next, -, -, -, -, -, hloop⟩ :=
    mergeLoop_cases real cubeRoot aMin jMin state forwards backwards
  · rw [hzip] at habove
    exact absurd habove (not_aboveAt_zipWith_slower _ _ 0)
  · rw [hloop] at hpoint
    cases hpoint
    rfl

theorem mergeLoop_falls {i : ℕ} (habove : ∀ k ≤ i + 1,
      AboveAt backwards (mergeLoop real cubeRoot aMin jMin state forwards backwards) k)
    {preceding point : PlannedPoint K} (hpreceding : forwards[i]? = some preceding)
    (hpoint : (mergeLoop real cubeRoot aMin jMin state forwards backwards)[i + 1]? = some point) :
    point.longitudinalVelocityMps ≤ preceding.longitudinalVelocityMps := by
  induction i generalizing state forwards backwards with
  | zero =>
    obtain hzip | ⟨forward, rest, backward, backwards', next, rfl, -, rfl, -, hnext, hloop⟩ :=
      mergeLoop_cases real cubeRoot aMin jMin state forwards backwards
    · rw [hzip] at habove
      exact absurd (habove 0 (Nat.zero_le _)) (not_aboveAt_zipWith_slower _ _ 0)
    · have hfirst := habove 1 le_rfl
      rw [hloop] at hfirst hpoint
      cases hpreceding
      exact (mergeLoop_head next hfirst hpoint).trans_le hnext
  | succ i ih =>
    obtain hzip | ⟨forward, rest, backward, backwards', next, rfl, -, rfl, -, -, hloop⟩ :=
      mergeLoop_cases real cubeRoot aMin jMin state forwards backwards
    · rw [hzip] at habove
      exact absurd (habove 0 (Nat.zero_le _)) (not_aboveAt_zipWith_slower _ _ 0)
    · rw [hloop] at habove hpoint
      refine ih next (fun k hk => habove (k + 1) (Nat.succ_le_succ hk)) ?_ hpoint
      exact hpreceding

theorem mergeFilteredTrajectory_merges {forward backward : List (PlannedPoint K)}
    (hlength : forward.length = backward.length)
    (hforward : ∀ point ∈ forward, 0 ≤ point.longitudinalVelocityMps)
    (hbackward : ∀ point ∈ backward, 0 ≤ point.longitudinalVelocityMps) :
    Merges v0 forward backward
      (mergeFilteredTrajectory real cubeRoot v0 a0 aMin jMin forward backward) := by
  cases backward with
  | nil =>
    obtain rfl := List.length_eq_zero_iff.mp hlength
    exact ⟨fun _ => rfl, rfl, by simp [mergeFilteredTrajectory], by simp⟩
  | cons first rest =>
    unfold mergeFilteredTrajectory
    dsimp only
    split
    · rename_i habove
      exact ⟨fun hbelow => absurd (hbelow first rfl) (not_le.mpr habove),
        mergeLoop_length _ hlength, mergeLoop_nonneg _ hforward hbackward,
        fun i habove preceding point => mergeLoop_falls _ habove⟩
    · refine ⟨fun _ => zipWith_slower_velocity _ _, ?_,
        zipWith_slower_nonneg hforward hbackward, ?_⟩
      · rw [List.length_zipWith, ← hlength, Nat.min_self]
      · intro i habove
        exact absurd (habove 0 (Nat.zero_le _)) (not_aboveAt_zipWith_slower _ _ 0)

theorem Bounded.nonneg {acceleration : PlannedPoint K → K} {limits filtered : List (PlannedPoint K)}
    (hbounded : Bounded a0 aMax aStart acceleration limits filtered) :
    ∀ point ∈ filtered, 0 ≤ point.longitudinalVelocityMps := by
  intro point hpoint
  obtain ⟨i, hi, rfl⟩ := List.getElem_of_mem hpoint
  have hi' : i < limits.length := hbounded.withinLimits.length_eq ▸ hi
  exact (hbounded.withinLimits.get hi' hi).1

def distanceFunctions : RealFunctions ℚ where
  sqrt value := if value = 16 / 9 then 4 / 3 else 0
  atan := id
  pi := 22 / 7
  epsilon := 1 / 4503599627370496

def cubeRootOfEight (value : ℚ) : ℚ := if value = 8 then 2 else 0

def limitedPoints : List (PlannedPoint ℚ) :=
  [⟨⟨⟨0, 0, 0⟩, 2, 0⟩, 0⟩, ⟨⟨⟨4 / 3, 0, 0⟩, 0, 0⟩, 0⟩, ⟨⟨⟨8 / 3, 0, 0⟩, 3, 0⟩, 0⟩]

end AutowareUniverse.Planning.MotionVelocitySmoother.JerkFilteredSmoother
