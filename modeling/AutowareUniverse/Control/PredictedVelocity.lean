import AutowareUniverse.Library.Numerals
import Mathlib.Data.List.Induction
import Mathlib.Algebra.Order.Field.Basic
import Mathlib.Tactic.Linarith
import Mathlib.Tactic.Ring

/-!
# Predicted velocity

The velocity behind the delay of the actuators, from the acceleration commands of the past.
Times are in seconds.
-/

namespace AutowareUniverse.Control.PredictedVelocity

structure LongitudinalCommand (K : Type) where
  stamp : K
  acceleration : K

structure Motion (K : Type) where
  vel : K
  acc : K

variable {K : Type} [Field K] [LinearOrder K]

/-- `std::copysign`, for a sign that is not that of a zero. -/
def copysign (magnitude sign : K) : K :=
  if sign < 0 then -|magnitude| else |magnitude|

def keepSign (predVel currentVel : K) : K :=
  if 0 < predVel then copysign predVel currentVel else 0

/-- The loop over the commands behind the first one. -/
def addCommands (now pastDelayTime delayCompensationTime : K) :
    LongitudinalCommand K → List (LongitudinalCommand K) → K → K
  | _, [], predVel => predVel
  | prev, cmd :: later, predVel =>
    addCommands now pastDelayTime delayCompensationTime cmd later
      (if now - cmd.stamp < delayCompensationTime then
        let timeToNextAcc := min (cmd.stamp - prev.stamp) (cmd.stamp - pastDelayTime)
        predVel + prev.acceleration * timeToNextAcc
      else predVel)

def predictedVelocityInTargetPoint (ctrlCmdVec : List (LongitudinalCommand K)) (now : K)
    (currentMotion : Motion K) (delayCompensationTime : K) : K :=
  if |currentMotion.vel| < 1 / 10 then currentMotion.vel
  else
    match ctrlCmdVec with
    | [] =>
      keepSign (currentMotion.vel + currentMotion.acc * delayCompensationTime) currentMotion.vel
    | first :: later =>
      let pastDelayTime := now - delayCompensationTime
      if now - first.stamp < delayCompensationTime then
        keepSign (|currentMotion.vel| + first.acceleration * delayCompensationTime)
          currentMotion.vel
      else
        let last := later.getLastD first
        keepSign (addCommands now pastDelayTime delayCompensationTime first later
          |currentMotion.vel| + last.acceleration * (now - last.stamp)) currentMotion.vel

def storeAccelCmd (ctrlCmdVec : List (LongitudinalCommand K)) (drive : Bool) (now accel : K)
    (delayCompensationTime : K) : List (LongitudinalCommand K) :=
  let ctrlCmdVec := if drive then ctrlCmdVec ++ [⟨now, accel⟩] else []
  match ctrlCmdVec with
  | first :: second :: third :: later =>
    if delayCompensationTime < now - second.stamp then second :: third :: later
    else first :: second :: third :: later
  | _ => ctrlCmdVec

/-- Stamps that do not decrease and are not in the future. -/
structure Ordered (now : K) (ctrlCmdVec : List (LongitudinalCommand K)) : Prop where
  stamps : ctrlCmdVec.Pairwise fun first second => first.stamp ≤ second.stamp
  past : ∀ cmd ∈ ctrlCmdVec, cmd.stamp ≤ now

omit [Field K] in
theorem Ordered.sublist {now : K} {ctrlCmdVec others : List (LongitudinalCommand K)}
    (hordered : Ordered now ctrlCmdVec) (hsublist : others.Sublist ctrlCmdVec) :
    Ordered now others :=
  ⟨hordered.stamps.sublist hsublist, fun cmd hmem => hordered.past cmd (hsublist.subset hmem)⟩

/-- A call of `storeAccelCmd`. -/
structure Store (K : Type) where
  drive : Bool
  now : K
  accel : K

/-- All commands since the vehicle was last not driving. -/
def appendCmd (ctrlCmdVec : List (LongitudinalCommand K)) (store : Store K) :
    List (LongitudinalCommand K) :=
  if store.drive then ctrlCmdVec ++ [⟨store.now, store.accel⟩] else []

def storeAll (delay : K) (stores : List (Store K)) : List (LongitudinalCommand K) :=
  stores.foldl (fun kept store => storeAccelCmd kept store.drive store.now store.accel delay) []

/-- What is left when commands have been removed that are too old to be needed. -/
structure Trimmed (now delay : K) (all kept : List (LongitudinalCommand K)) : Prop where
  suffix : kept <:+ all
  ordered : Ordered now all
  covers : kept = all ∨ ∃ first ∈ kept.head?, delay < now - first.stamp

omit [Field K] in
theorem Ordered.appendCmd {store : Store K} {ctrlCmdVec : List (LongitudinalCommand K)}
    (hordered : Ordered store.now ctrlCmdVec) : Ordered store.now (appendCmd ctrlCmdVec store) := by
  unfold PredictedVelocity.appendCmd
  split
  · refine ⟨List.pairwise_append.mpr ⟨hordered.stamps, List.pairwise_singleton _ _, ?_⟩, ?_⟩
    · intro cmd hcmd other hother
      rw [List.mem_singleton.mp hother]
      exact hordered.past cmd hcmd
    · intro cmd hcmd
      rcases List.mem_append.mp hcmd with hcmd | hcmd
      · exact hordered.past cmd hcmd
      · rw [List.mem_singleton.mp hcmd]
  · exact ⟨.nil, fun _ hmem => absurd hmem List.not_mem_nil⟩

theorem addCommands_removed {now past delay predVel : K} {first : LongitudinalCommand K}
    {later removed : List (LongitudinalCommand K)} (hfirst : delay ≤ now - first.stamp)
    (hremoved : ∀ cmd ∈ removed, delay ≤ now - cmd.stamp) (prev : LongitudinalCommand K) :
    addCommands now past delay prev (removed ++ first :: later) predVel =
      addCommands now past delay first later predVel := by
  induction removed generalizing prev with
  | nil => rw [List.nil_append, addCommands, if_neg hfirst.not_gt]
  | cons cmd removed ih =>
    rw [List.cons_append, addCommands, if_neg (hremoved cmd List.mem_cons_self).not_gt]
    exact ih (fun other hother => hremoved other (List.mem_cons_of_mem _ hother)) cmd

theorem Trimmed.store {delay : K} {store : Store K} {all kept : List (LongitudinalCommand K)}
    (htrimmed : Trimmed store.now delay all kept) :
    Trimmed store.now delay (appendCmd all store)
      (storeAccelCmd kept store.drive store.now store.accel delay) := by
  have happended : Trimmed store.now delay (appendCmd all store) (appendCmd kept store) := by
    refine ⟨?_, htrimmed.ordered.appendCmd, ?_⟩
    · unfold appendCmd
      split
      · obtain ⟨removed, rfl⟩ := htrimmed.suffix
        exact ⟨removed, (List.append_assoc ..).symm⟩
      · exact List.suffix_rfl
    · rcases htrimmed.covers with rfl | ⟨first, hfirst, hcover⟩
      · exact .inl rfl
      · unfold appendCmd
        split
        · obtain ⟨later, rfl⟩ := List.head?_eq_some_iff.mp hfirst
          exact .inr ⟨first, rfl, hcover⟩
        · exact .inl rfl
  change Trimmed _ _ _ (if store.drive then kept ++ [⟨store.now, store.accel⟩] else []) at happended
  unfold storeAccelCmd
  dsimp only
  generalize (if store.drive then kept ++ [⟨store.now, store.accel⟩] else []) = stored at happended
  split
  · split
    next hunused =>
        exact ⟨(List.suffix_cons ..).trans happended.suffix, happended.ordered,
          .inr ⟨_, rfl, hunused⟩⟩
    next => exact happended
  · exact happended

def heldTime (windowStart windowEnd start finish : K) : K :=
  max 0 (min windowEnd finish - max windowStart start)

def integral (windowStart windowEnd : K) : LongitudinalCommand K → List (LongitudinalCommand K) → K
  | cmd, [] => cmd.acceleration * heldTime windowStart windowEnd cmd.stamp windowEnd
  | cmd, next :: later =>
    cmd.acceleration * heldTime windowStart windowEnd cmd.stamp next.stamp +
      integral windowStart windowEnd next later

variable [IsStrictOrderedRing K]

theorem heldTime_eq {now delay start finish : K} (hend : finish ≤ now) (hle : start ≤ finish) :
    heldTime (now - delay) now start finish =
      if now - finish < delay then min (finish - start) (finish - (now - delay)) else 0 := by
  have hlater : finish - max (now - delay) start =
      min (finish - start) (finish - (now - delay)) := by
    rcases le_total (now - delay) start with hstart | hstart
    · rw [max_eq_right hstart, min_eq_left (sub_le_sub_left hstart _)]
    · rw [max_eq_left hstart, min_eq_right (sub_le_sub_left hstart _)]
  rw [heldTime, min_eq_right hend, hlater]
  split
  · rename_i hwithin
    exact max_eq_right (le_min (sub_nonneg.mpr hle) (by linarith))
  · rename_i hbefore
    exact max_eq_left ((min_le_right _ _).trans (by linarith))

theorem addCommands_eq {now delay : K} {cmd : LongitudinalCommand K}
    {later : List (LongitudinalCommand K)} (hordered : Ordered now (cmd :: later))
    (hlast : now - delay ≤ (later.getLastD cmd).stamp) (predVel : K) :
    addCommands now (now - delay) delay cmd later predVel +
        (later.getLastD cmd).acceleration * (now - (later.getLastD cmd).stamp) =
      predVel + integral (now - delay) now cmd later := by
  induction later generalizing cmd predVel with
  | nil =>
    have hpast := hordered.past cmd List.mem_cons_self
    rw [List.getLastD_nil] at hlast ⊢
    rw [addCommands, integral, heldTime, min_self, max_eq_right hlast,
      max_eq_right (sub_nonneg.mpr hpast)]
  | cons next later ih =>
    have hlater := hordered.sublist (List.sublist_cons_self cmd (next :: later))
    have hle := (List.pairwise_cons.mp hordered.stamps).1 next List.mem_cons_self
    have hpast := hlater.past next List.mem_cons_self
    rw [List.getLastD_cons] at hlast ⊢
    rw [addCommands, ih hlater hlast, integral, heldTime_eq hpast hle]
    split
    · ring
    · ring

theorem keepSign_neg {predVel currentVel : K} (hne : currentVel ≠ 0) :
    keepSign predVel (-currentVel) = -keepSign predVel currentVel := by
  unfold keepSign copysign
  split
  · rcases lt_or_gt_of_ne hne with hneg | hpos
    · rw [if_neg (by linarith), if_pos hneg, neg_neg]
    · rw [if_pos (by linarith), if_neg (by linarith)]
  · exact neg_zero.symm

theorem keepSign_mul_nonneg (predVel currentVel : K) : 0 ≤ keepSign predVel currentVel * currentVel := by
  unfold keepSign copysign
  split
  · split
    · rename_i hneg
      exact mul_nonneg_of_nonpos_of_nonpos (neg_nonpos.mpr (abs_nonneg _)) hneg.le
    · rename_i hnot
      exact mul_nonneg (abs_nonneg _) (not_lt.mp hnot)
  · rw [zero_mul]

def signOf (velocity : K) : K :=
  if velocity < 0 then -1 else 1

theorem keepSign_eq (predVel currentVel : K) :
    keepSign predVel currentVel = signOf currentVel * max 0 predVel := by
  unfold keepSign copysign signOf
  rcases lt_or_ge 0 predVel with hpos | hnot
  · rw [if_pos hpos, max_eq_right hpos.le, abs_of_pos hpos]
    split
    · ring
    · ring
  · rw [if_neg (not_lt.mpr hnot), max_eq_left hnot, mul_zero]

/-! ## The prediction -/

def IsLow (currentVel : K) : Prop :=
  |currentVel| < 1 / 10

variable {ctrlCmdVec : List (LongitudinalCommand K)} {now : K} {currentMotion : Motion K}
  {delayCompensationTime : K}

theorem predictedVelocity_mul_nonneg :
    0 ≤ predictedVelocityInTargetPoint ctrlCmdVec now currentMotion delayCompensationTime *
      currentMotion.vel := by
  unfold predictedVelocityInTargetPoint
  split
  · exact mul_self_nonneg _
  · split
    · exact keepSign_mul_nonneg _ _
    · dsimp only
      split
      · exact keepSign_mul_nonneg _ _
      · exact keepSign_mul_nonneg _ _

theorem predictedVelocity_neg (hknown : IsLow currentMotion.vel ∨ ctrlCmdVec ≠ []) :
    predictedVelocityInTargetPoint ctrlCmdVec now
        { currentMotion with vel := -currentMotion.vel } delayCompensationTime =
      -predictedVelocityInTargetPoint ctrlCmdVec now currentMotion delayCompensationTime := by
  unfold predictedVelocityInTargetPoint
  rw [abs_neg]
  by_cases hlow : |currentMotion.vel| < 1 / 10
  · rw [if_pos hlow, if_pos hlow]
  · have hne : currentMotion.vel ≠ 0 := by
      intro hzero
      rw [hzero, abs_zero] at hlow
      exact hlow (by norm_num)
    rw [if_neg hlow, if_neg hlow]
    cases ctrlCmdVec with
    | nil => exact absurd rfl (hknown.resolve_left hlow)
    | cons first later =>
      dsimp only
      split
      · exact keepSign_neg hne
      · exact keepSign_neg hne

theorem predictedVelocity_integral {first : LongitudinalCommand K}
    {later : List (LongitudinalCommand K)} (hhigh : ¬ IsLow currentMotion.vel)
    (hordered : Ordered now (first :: later)) (hfirst : first.stamp ≤ now - delayCompensationTime)
    (hlast : now - delayCompensationTime ≤ (later.getLastD first).stamp) :
    predictedVelocityInTargetPoint (first :: later) now currentMotion delayCompensationTime =
      signOf currentMotion.vel * max 0 (|currentMotion.vel| +
        integral (now - delayCompensationTime) now first later) := by
  unfold IsLow at hhigh
  rw [predictedVelocityInTargetPoint, if_neg hhigh]
  dsimp only
  rw [if_neg (by linarith), addCommands_eq hordered hlast, keepSign_eq]

/-- The sign of the velocity stays; the prediction is odd in the velocity and, for a history that
covers the window of the delay, it is the integral of the acceleration in force.  At low
velocity nothing is predicted. -/
theorem predictedVelocity_direction (ctrlCmdVec : List (LongitudinalCommand K)) (now : K)
    (currentMotion : Motion K) (delayCompensationTime : K) (hordered : Ordered now ctrlCmdVec) :
    0 ≤ predictedVelocityInTargetPoint ctrlCmdVec now currentMotion delayCompensationTime *
        currentMotion.vel ∧
      (IsLow currentMotion.vel ∨ ctrlCmdVec ≠ [] → predictedVelocityInTargetPoint ctrlCmdVec now
            { currentMotion with vel := -currentMotion.vel } delayCompensationTime =
          -predictedVelocityInTargetPoint ctrlCmdVec now currentMotion delayCompensationTime) ∧
      (IsLow currentMotion.vel →
        predictedVelocityInTargetPoint ctrlCmdVec now currentMotion delayCompensationTime =
          currentMotion.vel) ∧
      (¬ IsLow currentMotion.vel → ∀ first later, ctrlCmdVec = first :: later →
        first.stamp ≤ now - delayCompensationTime →
        now - delayCompensationTime ≤ (later.getLastD first).stamp →
        predictedVelocityInTargetPoint ctrlCmdVec now currentMotion delayCompensationTime =
          signOf currentMotion.vel * max 0 (|currentMotion.vel| +
            integral (now - delayCompensationTime) now first later)) := by
  refine ⟨predictedVelocity_mul_nonneg, predictedVelocity_neg, fun hlow => if_pos hlow, ?_⟩
  rintro hhigh first later rfl hfirst hlast
  exact predictedVelocity_integral hhigh hordered hfirst hlast

def twoCommands : List (LongitudinalCommand ℚ) := [⟨0, 1⟩, ⟨1, 2⟩]

theorem ordered_twoCommands : Ordered 2 twoCommands := by
  refine ⟨?_, ?_⟩
  · simp [twoCommands]
  · simp [twoCommands]

theorem predictedVelocity_twoCommands :
    predictedVelocityInTargetPoint twoCommands 2 ⟨-5, 0⟩ (3 / 2) =
      signOf (-5) * max 0 (|-5| + integral (2 - 3 / 2) 2 ⟨0, 1⟩ [⟨1, 2⟩]) :=
  (predictedVelocity_direction twoCommands 2 ⟨-5, 0⟩ (3 / 2) ordered_twoCommands).2.2.2
    (by norm_num [IsLow]) ⟨0, 1⟩ [⟨1, 2⟩] rfl (by norm_num) (by norm_num)

/-- A low velocity is returned as it is, although the commands accelerate; and without commands
the prediction of a vehicle that drives backwards is zero. -/
theorem predictedVelocity_low :
    (predictedVelocityInTargetPoint twoCommands 2 ⟨1 / 20, 0⟩ (3 / 2) = 1 / 20 ∧
      signOf (1 / 20) * max 0 (|1 / 20| + integral (2 - 3 / 2) 2 ⟨0, 1⟩ [⟨1, 2⟩]) ≠ (1 / 20 : ℚ)) ∧
      predictedVelocityInTargetPoint [] 2 ⟨(5 : ℚ), 0⟩ (3 / 2) = 5 ∧
      predictedVelocityInTargetPoint [] 2 ⟨(-5 : ℚ), 0⟩ (3 / 2) = 0 := by
  decide +kernel

/-! ## Removed commands -/

theorem Trimmed.mono {before now delay : K} {all kept : List (LongitudinalCommand K)}
    (htrimmed : Trimmed before delay all kept) (hclock : before ≤ now) :
    Trimmed now delay all kept where
  suffix := htrimmed.suffix
  ordered := ⟨htrimmed.ordered.stamps, fun cmd hcmd => (htrimmed.ordered.past cmd hcmd).trans hclock⟩
  covers := htrimmed.covers.imp_right fun ⟨first, hfirst, hcover⟩ =>
    ⟨first, hfirst, hcover.trans_le (sub_le_sub_right hclock _)⟩

theorem Trimmed.predictedVelocity_eq {now delay : K} {all kept : List (LongitudinalCommand K)}
    (htrimmed : Trimmed now delay all kept) (currentMotion : Motion K) :
    predictedVelocityInTargetPoint kept now currentMotion delay =
      predictedVelocityInTargetPoint all now currentMotion delay := by
  obtain ⟨⟨removed, rfl⟩, hordered, hcovers⟩ := htrimmed
  rcases hcovers with heq | ⟨first, hfirst, hcover⟩
  · rw [← heq]
  · obtain ⟨later, rfl⟩ := List.head?_eq_some_iff.mp hfirst
    cases removed with
    | nil => rfl
    | cons oldest removed =>
      have hold : ∀ cmd ∈ oldest :: removed, delay ≤ now - cmd.stamp := by
        intro cmd hcmd
        have hstamp := (List.pairwise_append.mp hordered.stamps).2.2 cmd hcmd first List.mem_cons_self
        exact hcover.le.trans (sub_le_sub_left hstamp _)
      unfold predictedVelocityInTargetPoint
      dsimp only [List.cons_append]
      rw [if_neg hcover.not_gt, if_neg (hold oldest List.mem_cons_self).not_gt,
        addCommands_removed hcover.le fun cmd hcmd => hold cmd (List.mem_cons_of_mem _ hcmd)]
      simp [List.getLastD_eq_getLast?, List.getLast?_cons]

theorem trimmed_of_stores {delay : K} (stores : List (Store K)) {now : K}
    (hclock : (stores.map Store.now ++ [now]).Pairwise (· ≤ ·)) :
    Trimmed now delay (stores.foldl appendCmd []) (storeAll delay stores) := by
  induction stores using List.reverseRecOn generalizing now with
  | nil => exact ⟨List.suffix_rfl, ⟨.nil, fun _ hmem => absurd hmem List.not_mem_nil⟩, .inl rfl⟩
  | append_singleton stores store ih =>
    rw [List.map_append, List.map_singleton] at hclock
    obtain ⟨hstores, -, hlast⟩ := List.pairwise_append.mp hclock
    rw [List.foldl_append, storeAll, List.foldl_append]
    exact (ih hstores).store.mono (hlast _ (by simp) _ (List.mem_singleton_self _))

/-- The commands that are removed are those that no prediction needs. -/
theorem predictedVelocity_of_stores {delay : K} {stores : List (Store K)} {now : K}
    (hclock : (stores.map Store.now ++ [now]).Pairwise (· ≤ ·)) (currentMotion : Motion K) :
    predictedVelocityInTargetPoint (storeAll delay stores) now currentMotion delay =
      predictedVelocityInTargetPoint (stores.foldl appendCmd []) now currentMotion delay :=
  (trimmed_of_stores stores hclock).predictedVelocity_eq currentMotion

theorem predictedVelocity_of_threeStores :
    let stores : List (Store ℚ) := [⟨true, 0, 1⟩, ⟨true, 1, 2⟩, ⟨true, 3, -1⟩]
    predictedVelocityInTargetPoint (storeAll 1 stores) 4 ⟨1, 0⟩ 1 =
      predictedVelocityInTargetPoint (stores.foldl appendCmd []) 4 ⟨1, 0⟩ 1 :=
  predictedVelocity_of_stores (by decide +kernel) _

end AutowareUniverse.Control.PredictedVelocity
