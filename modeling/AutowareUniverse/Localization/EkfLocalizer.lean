import AutowareUniverse.Library.FloatingNumber
import AutowareUniverse.Library.SinglePrecision
import Mathlib.Data.Rat.Floor
import Mathlib.Data.List.Flatten
import Mathlib.Data.List.Nodup

/-!
# Delay of measurements

The period of the filter is measured between two timer callbacks.  The delay of a measurement is
divided by it and converted to the index of a past state.  Clock readings and stamps are in
nanoseconds.
-/

namespace AutowareUniverse.Localization.MeasurementDelay

open Library.FloatingNumber Library.SinglePrecision

structure HyperParameters (K : Type) where
  ekfRate : K
  extendStateStep : ℤ
  poseAdditionalDelay : K
  twistAdditionalDelay : K

structure EKFLocalizer (K : Type) where
  params : HyperParameters K
  ekfDt : Number K
  lastPredictTime : Option ℤ

variable {K : Type} [Field K] [LinearOrder K]

def periodOf (ekfRate : Number K) : Number K :=
  .quotient 1 (.max ekfRate (.finite (1 / 10)))

def create (params : HyperParameters K) : EKFLocalizer K :=
  ⟨params, periodOf (.finite params.ekfRate), none⟩

/-- `rclcpp::Duration::seconds`. -/
def seconds (nanoseconds : ℤ) : K :=
  nanoseconds / 10 ^ 9

structure Clock where
  compared : ℤ
  measured : ℤ
  stored : ℤ

def updatePredictFrequency (ekf : EKFLocalizer K) (now : Clock) : EKFLocalizer K :=
  match ekf.lastPredictTime with
  | none => { ekf with lastPredictTime := some now.stored }
  | some lastPredictTime =>
    if now.compared < lastPredictTime then { ekf with lastPredictTime := some now.stored }
    else
      { ekf with
        ekfDt := periodOf (.divide 1 (seconds (now.measured - lastPredictTime)))
        lastPredictTime := some now.stored }

/-! ## Measurements -/

inductive Update
  /-- The delay is not converted to a defined value. -/
  | undefined
  /-- The measurement is too old. -/
  | ignored
  /-- The states of this step are read, and updated. -/
  | delayed (delayStep : ℤ)
  deriving DecidableEq

section

variable [FloorRing K]

/-- The conversion of a rounded number to `int`. -/
def toInt : Number K → Option ℤ
  | .finite value => if IsInt32 (roundf value) then some (roundf value) else none
  | _ => none

variable (ekf : EKFLocalizer K)

/-- The delay of a measurement, and the check of its step. -/
def updateWithDelay (additionalDelay : K) (tCurr stamp : ℤ) : Update :=
  let delayTime := max (seconds (tCurr - stamp) + additionalDelay) 0
  match toInt (.quotient delayTime ekf.ekfDt) with
  | none => .undefined
  | some delayStep =>
    if ekf.params.extendStateStep ≤ delayStep then .ignored else .delayed delayStep

def measurementUpdatePose (tCurr stamp : ℤ) : Update :=
  updateWithDelay ekf ekf.params.poseAdditionalDelay tCurr stamp

def measurementUpdateTwist (tCurr stamp : ℤ) : Update :=
  updateWithDelay ekf ekf.params.twistAdditionalDelay tCurr stamp

end

inductive Measurement
  | pose (tCurr stamp : ℤ)
  | twist (tCurr stamp : ℤ)

def Measurement.update [FloorRing K] (ekf : EKFLocalizer K) : Measurement → Update
  | .pose tCurr stamp => measurementUpdatePose ekf tCurr stamp
  | .twist tCurr stamp => measurementUpdateTwist ekf tCurr stamp

/-- The delay of a measurement in seconds, before it is cut off at zero. -/
def Measurement.delay (params : HyperParameters K) : Measurement → K
  | .pose tCurr stamp => seconds (tCurr - stamp) + params.poseAdditionalDelay
  | .twist tCurr stamp => seconds (tCurr - stamp) + params.twistAdditionalDelay

def run (params : HyperParameters K) (callbacks : List Clock) : EKFLocalizer K :=
  callbacks.foldl updatePredictFrequency (create params)

variable [IsStrictOrderedRing K]

theorem periodOf_divide (difference : K) :
    ∃ ekfDt, 0 ≤ ekfDt ∧ periodOf (.divide 1 difference) = .finite ekfDt := by
  unfold periodOf Number.divide
  by_cases hzero : difference = 0
  · rw [if_neg (not_not.mpr hzero), if_neg one_ne_zero, decide_eq_false (not_lt.mpr zero_le_one)]
    exact ⟨0, le_rfl, rfl⟩
  · rw [if_pos hzero, Number.max_finite]
    have hpos : (0 : K) < max (1 / difference) (1 / 10) := lt_max_of_lt_right (by positivity)
    exact ⟨1 / max (1 / difference) (1 / 10), (one_div_pos.mpr hpos).le, if_pos hpos.ne'⟩

theorem periodOf_finite (ekfRate : K) :
    ∃ ekfDt, 0 ≤ ekfDt ∧ periodOf (.finite ekfRate) = .finite ekfDt := by
  unfold periodOf
  rw [Number.max_finite]
  have hpos : (0 : K) < max ekfRate (1 / 10) := lt_max_of_lt_right (by positivity)
  exact ⟨1 / max ekfRate (1 / 10), (one_div_pos.mpr hpos).le, if_pos hpos.ne'⟩

theorem run_ekfDt (params : HyperParameters K) (callbacks : List Clock) :
    (run params callbacks).params = params ∧
      ∃ ekfDt, 0 ≤ ekfDt ∧ (run params callbacks).ekfDt = .finite ekfDt := by
  refine List.foldlRecOn (motive := fun ekf : EKFLocalizer K => ekf.params = params ∧
    ∃ ekfDt, 0 ≤ ekfDt ∧ ekf.ekfDt = .finite ekfDt) callbacks _
    ⟨rfl, periodOf_finite params.ekfRate⟩ fun ekf hekf now _ => ?_
  unfold updatePredictFrequency
  split
  · exact hekf
  · split
    · exact hekf
    · exact ⟨hekf.1, periodOf_divide _⟩

/-! ## The step of the delay -/

variable [FloorRing K]

structure Safe (extendStateStep : ℤ) (update : Update) : Prop where
  representable : update ≠ .undefined
  inState : ∀ delayStep, update = .delayed delayStep → 0 ≤ delayStep ∧ delayStep < extendStateStep

theorem toInt_quotient {delayTime ekfDt : K} (hdelay : 0 ≤ delayTime) (hdt : 0 ≤ ekfDt) :
    toInt (.quotient delayTime (.finite ekfDt)) =
      if 0 < ekfDt ∧ delayTime < (2 ^ 31 - 64) * ekfDt then some (roundf (delayTime / ekfDt))
      else none := by
  rw [Number.quotient, Number.divide]
  rcases hdt.eq_or_lt with rfl | hpos
  · have hnot : ¬ ((0 : K) < 0 ∧ delayTime < (2 ^ 31 - 64) * 0) := fun hboth =>
      lt_irrefl _ hboth.1
    rw [if_neg hnot, if_neg (not_not.mpr rfl)]
    split
    · rfl
    · rfl
  · have hiff : IsInt32 (roundf (delayTime / ekfDt)) ↔
        0 < ekfDt ∧ delayTime < (2 ^ 31 - 64) * ekfDt := by
      rw [isInt32_roundf_iff (div_nonneg hdelay hdt), div_lt_iff₀ hpos]
      exact (and_iff_right hpos).symm
    rw [if_pos hpos.ne', toInt]
    split
    · rw [if_pos (hiff.mp ‹_›)]
    · rw [if_neg fun hboth => absurd (hiff.mpr hboth) ‹_›]

theorem updateWithDelay_safe_iff {ekf : EKFLocalizer K} {ekfDt : K} (hdt : 0 ≤ ekfDt)
    (hekf : ekf.ekfDt = .finite ekfDt) (additionalDelay : K) (tCurr stamp : ℤ) :
    Safe ekf.params.extendStateStep (updateWithDelay ekf additionalDelay tCurr stamp) ↔
      0 < ekfDt ∧ seconds (tCurr - stamp) + additionalDelay < (2 ^ 31 - 64) * ekfDt := by
  have hdelay : (0 : K) ≤ max (seconds (tCurr - stamp) + additionalDelay) 0 := le_max_right _ _
  have hmax (hpos : 0 < ekfDt) : max (seconds (tCurr - stamp) + additionalDelay) 0 <
      (2 ^ 31 - 64) * ekfDt ↔
        seconds (tCurr - stamp) + additionalDelay < (2 ^ 31 - 64) * ekfDt := by
    rw [max_lt_iff]
    exact and_iff_left (mul_pos (by norm_num) hpos)
  rw [updateWithDelay, hekf, toInt_quotient hdelay hdt]
  constructor
  · intro hsafe
    by_contra hnot
    rw [if_neg fun hboth => hnot ⟨hboth.1, (hmax hboth.1).mp hboth.2⟩] at hsafe
    exact hsafe.representable rfl
  · rintro ⟨hpos, hlt⟩
    rw [if_pos ⟨hpos, (hmax hpos).mpr hlt⟩]
    dsimp only
    split
    · refine ⟨fun hundefined => ?_, fun delayStep hdelayed => ?_⟩
      · cases hundefined
      · cases hdelayed
    · rename_i hstep
      refine ⟨fun hundefined => ?_, fun delayStep hdelayed => ?_⟩
      · cases hundefined
      · cases hdelayed
        exact ⟨roundf_nonneg (div_nonneg hdelay hdt), not_le.mp hstep⟩

/-- The measured period is not zero, and the delay is less than so many periods that the number
of them is an `int`. -/
def FitsPeriod (ekf : EKFLocalizer K) (measurement : Measurement) : Prop :=
  0 < ekf.ekfDt.value ∧ measurement.delay ekf.params < (2 ^ 31 - 64) * ekf.ekfDt.value

theorem update_safe_iff (params : HyperParameters K) (callbacks : List Clock)
    (measurement : Measurement) :
    Safe params.extendStateStep (measurement.update (run params callbacks)) ↔
      FitsPeriod (run params callbacks) measurement := by
  obtain ⟨hparams, ekfDt, hdt, hekf⟩ := run_ekfDt params callbacks
  have hvalue : (run params callbacks).ekfDt.value = ekfDt := by
    rw [hekf]
    rfl
  have hstep : params.extendStateStep = (run params callbacks).params.extendStateStep := by
    rw [hparams]
  rw [FitsPeriod, hvalue, hstep]
  cases measurement with
  | pose tCurr stamp => exact updateWithDelay_safe_iff hdt hekf _ _ _
  | twist tCurr stamp => exact updateWithDelay_safe_iff hdt hekf _ _ _

def fiftyHertz : HyperParameters ℚ := ⟨50, 50, 0, 0⟩

/-- The clock shows one time in a whole callback. -/
def at' (now : ℤ) : Clock := ⟨now, now, now⟩

end AutowareUniverse.Localization.MeasurementDelay

/-!
## Queue of aged objects

Measurements are used in several timer cycles.  A cycle takes each object that is in the queue
at its start once, and puts it back behind the others until it has been taken as often as the
maximum age says.
-/

namespace AutowareUniverse.Localization

structure AgedObjectQueue (α : Type) where
  maxAge : ℤ
  objects : List α
  ages : List ℤ
  deriving DecidableEq

namespace AgedObjectQueue

variable {α : Type}

def create (maxAge : ℤ) : AgedObjectQueue α :=
  ⟨maxAge, [], []⟩

variable (queue : AgedObjectQueue α)

def size : ℕ :=
  queue.objects.length

def push (object : α) : AgedObjectQueue α :=
  { queue with objects := queue.objects ++ [object], ages := queue.ages ++ [0] }

/-- The front of an empty queue is not defined. -/
def popIncrementAge : Option (α × AgedObjectQueue α) :=
  match queue.objects, queue.ages with
  | object :: objects, front :: ages =>
    let age := front + 1
    some (object,
      if age < queue.maxAge then
        { queue with objects := objects ++ [object], ages := ages ++ [age] }
      else { queue with objects := objects, ages := ages })
  | _, _ => none

def popTimes : ℕ → AgedObjectQueue α → Option (List α × AgedObjectQueue α)
  | 0, queue => some ([], queue)
  | n + 1, queue => do
    let (object, queue) ← queue.popIncrementAge
    let (objects, queue) ← popTimes n queue
    return (object :: objects, queue)

/-- The loop of the timer callback over the objects at its start. -/
def cycle (queue : AgedObjectQueue α) : Option (List α × AgedObjectQueue α) :=
  popTimes queue.size queue

inductive Event (α : Type)
  | push (object : α)
  | timerCallback

def run (queue : AgedObjectQueue α) : List (Event α) → Option (List (List α) × AgedObjectQueue α)
  | [] => some ([], queue)
  | .push object :: events => run (queue.push object) events
  | .timerCallback :: events => do
    let (objects, queue) ← queue.cycle
    let (later, queue) ← run queue events
    return (objects :: later, queue)

/-- The objects that are pushed before each cycle, behind the one before it. -/
def batches : List α → List (Event α) → List (List α)
  | _, [] => []
  | pending, .push object :: events => batches (pending ++ [object]) events
  | pending, .timerCallback :: events => pending :: batches [] events

/-! ## Objects with their ages -/

def ofEntries (maxAge : ℤ) (entries : List (α × ℤ)) : AgedObjectQueue α :=
  ⟨maxAge, entries.map Prod.fst, entries.map Prod.snd⟩

/-- What is left of an entry when it has been taken. -/
def aged (maxAge : ℤ) (entry : α × ℤ) : Option (α × ℤ) :=
  if entry.2 + 1 < maxAge then some (entry.1, entry.2 + 1) else none

variable {maxAge : ℤ}

theorem push_ofEntries (entries : List (α × ℤ)) (object : α) :
    (ofEntries maxAge entries).push object = ofEntries maxAge (entries ++ [(object, 0)]) := by
  simp [push, ofEntries]

theorem popIncrementAge_ofEntries (entry : α × ℤ) (entries : List (α × ℤ)) :
    (ofEntries maxAge (entry :: entries)).popIncrementAge =
      some (entry.1, ofEntries maxAge (entries ++ (aged maxAge entry).toList)) := by
  unfold popIncrementAge aged
  by_cases hage : entry.2 + 1 < maxAge
  · simp [ofEntries, hage]
  · simp [ofEntries, hage]

theorem popTimes_ofEntries (maxAge : ℤ) (taken others : List (α × ℤ)) :
    popTimes taken.length (ofEntries maxAge (taken ++ others)) =
      some (taken.map Prod.fst, ofEntries maxAge (others ++ taken.filterMap (aged maxAge))) := by
  induction taken generalizing others with
  | nil => simp [popTimes]
  | cons entry taken ih =>
    have hrest := ih (others ++ (aged maxAge entry).toList)
    rw [← List.append_assoc] at hrest
    rw [List.length_cons, popTimes, List.cons_append, popIncrementAge_ofEntries]
    simp only [Option.bind_eq_bind, Option.bind_some, hrest]
    cases hentry : aged maxAge entry with
    | none => simp [hentry]
    | some kept => simp [hentry]

theorem cycle_ofEntries (entries : List (α × ℤ)) : (ofEntries maxAge entries).cycle =
      some (entries.map Prod.fst, ofEntries maxAge (entries.filterMap (aged maxAge))) := by
  have htimes := popTimes_ofEntries maxAge entries []
  rw [List.append_nil, List.nil_append] at htimes
  rwa [cycle, size, ofEntries, List.length_map]

/-- The entries of batches, the newest first, whose objects have been taken a number of times. -/
def contents : ℤ → List (List α) → List (α × ℤ)
  | _, [] => []
  | age, batch :: older => contents (age + 1) older ++ batch.map fun object => (object, age)

theorem map_fst_contents (age : ℤ) (newest : List (List α)) :
    (contents age newest).map Prod.fst = newest.reverse.flatten := by
  induction newest generalizing age with
  | nil => rfl
  | cons batch older ih =>
    rw [contents, List.map_append, ih, List.reverse_cons, List.flatten_append]
    simp [Function.comp_def]

/-- Batches that have been taken once more lose those that are too old. -/
theorem filterMap_contents {age : ℤ} {remaining : ℕ} (hage : age + remaining = maxAge)
    (newest : List (List α)) :
    (contents age (newest.take remaining)).filterMap (aged maxAge) =
      contents (age + 1) (newest.take (remaining - 1)) := by
  induction newest generalizing age remaining with
  | nil => simp [contents]
  | cons batch older ih =>
    cases remaining with
    | zero => simp [contents]
    | succ remaining =>
      rw [List.take_succ_cons, contents, List.filterMap_append,
        ih (by push_cast at hage; omega), Nat.add_sub_cancel]
      cases remaining with
      | zero =>
        have hold : (batch.map fun object => (object, age)).filterMap (aged maxAge) = [] := by
          rw [List.filterMap_eq_nil_iff]
          intro entry hentry
          obtain ⟨object, _, rfl⟩ := List.mem_map.mp hentry
          exact if_neg (by push_cast at hage; dsimp only; omega)
        rw [hold, List.take_zero, List.append_nil]
        simp [contents]
      | succ remaining =>
        have hyoung : (batch.map fun object => (object, age)).filterMap (aged maxAge) =
            batch.map fun object => (object, age + 1) := by
          rw [List.filterMap_map, ← List.filterMap_eq_map]
          refine List.filterMap_congr fun object _ => ?_
          exact if_pos (by push_cast at hage; dsimp only; omega)
        rw [hyoung, List.take_succ_cons, contents, Nat.add_sub_cancel]

/-! ## Whole runs -/

theorem run_contents {n : ℕ} (hage : (0 : ℤ) + (n + 1 : ℕ) = maxAge) (events : List (Event α))
    (pending : List α) (past : List (List α)) :
    ∃ outputs entries, run (ofEntries maxAge (contents 0 ((pending :: past).take (n + 1)))) events =
        some (outputs, ofEntries maxAge entries) ∧
      outputs.length = (batches pending events).length ∧
      ∀ c < outputs.length, outputs[c]? = some
        ((((batches pending events).take (c + 1)).reverse ++ past).take (n + 1)).reverse.flatten := by
  induction events generalizing pending past with
  | nil => exact ⟨[], _, rfl, rfl, fun c hc => absurd hc c.not_lt_zero⟩
  | cons event events ih =>
    cases event with
    | push object =>
      obtain ⟨outputs, entries, hrun, hlength, houtputs⟩ := ih (pending ++ [object]) past
      refine ⟨outputs, entries, ?_, hlength, houtputs⟩
      rw [run, push_ofEntries, ← hrun, List.take_succ_cons, List.take_succ_cons, contents,
        contents, List.map_append, ← List.append_assoc]
      rfl
    | timerCallback =>
      obtain ⟨outputs, entries, hrun, hlength, houtputs⟩ := ih [] (pending :: past)
      refine ⟨(contents 0 ((pending :: past).take (n + 1))).map Prod.fst :: outputs, entries,
        ?_, ?_, ?_⟩
      · rw [run, cycle_ofEntries, filterMap_contents hage]
        rw [List.take_succ_cons, contents, List.map_nil, List.append_nil] at hrun
        simp only [Option.bind_eq_bind, Option.bind_some, Nat.add_sub_cancel, hrun]
        rfl
      · rw [batches, List.length_cons, List.length_cons, hlength]
      · intro c hc
        cases c with
        | zero => simp [batches, map_fst_contents]
        | succ c =>
          rw [List.getElem?_cons_succ, houtputs c (Nat.lt_of_succ_lt_succ hc), batches,
            List.take_succ_cons, List.reverse_cons, List.append_assoc,
            List.singleton_append]

/-- The batches of the last cycles up to one of them, in the order in which they were pushed. -/
def window (maxAge : ℕ) (batches : List (List α)) (c : ℕ) : List (List α) :=
  (batches.take (c + 1)).drop (c + 1 - maxAge)

theorem mem_flatten_window {maxAge : ℕ} {batches : List (List α)} {c : ℕ} {object : α} :
    object ∈ (window maxAge batches c).flatten ↔
      ∃ b batch, batches[b]? = some batch ∧ object ∈ batch ∧ b ≤ c ∧ c < b + maxAge := by
  rw [List.mem_flatten]
  constructor
  · rintro ⟨batch, hbatch, hobject⟩
    obtain ⟨i, hi⟩ := List.mem_iff_getElem?.mp hbatch
    rw [window, List.getElem?_drop, List.getElem?_take] at hi
    split at hi
    · exact ⟨_, batch, hi, hobject, by omega, by omega⟩
    · cases hi
  · rintro ⟨b, batch, hbatch, hobject, hle, hlt⟩
    refine ⟨batch, List.mem_iff_getElem?.mpr ⟨b - (c + 1 - maxAge), ?_⟩, hobject⟩
    rw [window, List.getElem?_drop, List.getElem?_take, if_pos (by omega), ← hbatch]
    exact congrArg (batches[·]?) (by omega)

theorem batch_unique {batches : List (List α)} (hnodup : batches.flatten.Nodup) {b j : ℕ}
    {batch other : List α} {object : α} (hbatch : batches[b]? = some batch)
    (hother : batches[j]? = some other) (hobject : object ∈ batch) (hmem : object ∈ other) :
    b = j := by
  have hdisjoint := (List.nodup_flatten.mp hnodup).2
  obtain ⟨hb, hbatch⟩ := List.getElem?_eq_some_iff.mp hbatch
  obtain ⟨hj, hother⟩ := List.getElem?_eq_some_iff.mp hother
  subst hbatch hother
  rcases Nat.lt_trichotomy b j with hlt | heq | hgt
  · exact absurd hmem (List.pairwise_iff_getElem.mp hdisjoint b j hb hj hlt hobject)
  · exact heq
  · exact absurd hobject (List.pairwise_iff_getElem.mp hdisjoint j b hj hb hgt hmem)

/-- What the cycles of a run return of the batches that are pushed before them. -/
structure ReturnsInWindow (maxAge : ℕ) (batches : List (List α)) (outputs : List (List α)) :
    Prop where
  length : outputs.length = batches.length
  output : ∀ c < outputs.length, outputs[c]? = some (window maxAge batches c).flatten
  order : ∀ output ∈ outputs, output.Sublist batches.flatten
  once : batches.flatten.Nodup → ∀ output ∈ outputs, output.Nodup
  exactly : batches.flatten.Nodup → ∀ b batch, batches[b]? = some batch → ∀ object ∈ batch,
    ∀ c output, outputs[c]? = some output → (object ∈ output ↔ b ≤ c ∧ c < b + maxAge)

theorem returnsInWindow_of_output {maxAge : ℕ} {batches outputs : List (List α)}
    (hlength : outputs.length = batches.length)
    (houtput : ∀ c < outputs.length, outputs[c]? = some (window maxAge batches c).flatten) :
    ReturnsInWindow maxAge batches outputs := by
  have hwindow (c : ℕ) (output : List α) (hc : outputs[c]? = some output) :
      output = (window maxAge batches c).flatten := by
    obtain ⟨hlt, _⟩ := List.getElem?_eq_some_iff.mp hc
    exact Option.some.inj (hc.symm.trans (houtput c hlt))
  have horder : ∀ output ∈ outputs, output.Sublist batches.flatten := by
    intro output hmem
    obtain ⟨c, hc⟩ := List.mem_iff_getElem?.mp hmem
    rw [hwindow c output hc]
    exact ((List.drop_sublist _ _).trans (List.take_sublist _ _)).flatten
  refine ⟨hlength, houtput, horder, fun hnodup output hmem => (horder output hmem).nodup hnodup, ?_⟩
  intro hnodup b batch hbatch object hobject c output hc
  rw [hwindow c output hc, mem_flatten_window]
  constructor
  · rintro ⟨j, other, hother, hmem, hbounds⟩
    rwa [batch_unique hnodup hbatch hother hobject hmem]
  · exact fun hbounds => ⟨b, batch, hbatch, hobject, hbounds⟩

/-- Every object is returned in as many cycles as the maximum age says, from the first one
behind its push on. -/
theorem run_returnsInWindow (hage : 1 ≤ maxAge) (events : List (Event α)) :
    ∃ outputs queue, run (create maxAge) events = some (outputs, queue) ∧
      queue.objects.length = queue.ages.length ∧
      ReturnsInWindow maxAge.toNat (batches [] events) outputs := by
  obtain ⟨n, hn⟩ : ∃ n : ℕ, (0 : ℤ) + (n + 1 : ℕ) = maxAge := ⟨(maxAge - 1).toNat, by omega⟩
  obtain ⟨outputs, entries, hrun, hlength, houtputs⟩ := run_contents hn events [] []
  have hstart : ofEntries maxAge (contents 0 ([([] : List α)].take (n + 1))) = create maxAge := by
    rw [List.take_succ_cons, List.take_nil]
    rfl
  rw [hstart] at hrun
  refine ⟨outputs, _, hrun, ?_, returnsInWindow_of_output hlength ?_⟩
  · rw [ofEntries, List.length_map, List.length_map]
  intro c hc
  rw [houtputs c hc, List.append_nil, List.take_reverse, List.reverse_reverse, List.length_take,
    min_eq_left (by omega), window]
  congr 3
  omega

/-- Two objects that come one cycle apart, at a maximum age of two. -/
theorem run_returnsInWindow_two : ∃ outputs queue,
      run (create 2) [.push 'a', .timerCallback, .push 'b', .timerCallback, .timerCallback] =
        some (outputs, queue) ∧
      queue.objects.length = queue.ages.length ∧
      ReturnsInWindow (2 : ℤ).toNat (batches [] [.push 'a', .timerCallback, .push 'b',
        .timerCallback, .timerCallback]) outputs :=
  run_returnsInWindow (by decide) _

end AgedObjectQueue

end AutowareUniverse.Localization
