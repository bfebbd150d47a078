import AutowareUniverse.Library.Fallible
import AutowareUniverse.Library.Numerals
import AutowareUniverse.Library.KeyedList
import Mathlib.Algebra.Order.Field.Basic
import Mathlib.Tactic.FieldSimp
import Mathlib.Tactic.Linarith
import Mathlib.Tactic.Ring

/-!
# Interpolation

Linear interpolation and interpolation by cubic splines of values that are given at base
keys.  Numbers are those of an ordered field.  The vectors of the tridiagonal system are
functions of the row.
-/

namespace AutowareUniverse.Common.Interpolation

section

section

inductive Failure where
  | invalidArgument (what : String)
  | outOfRange
  deriving DecidableEq

/-- `std::vector::at`. -/
def atIndex {α : Type} (values : List α) (idx : ℕ) : Except Failure α :=
  match values[idx]? with
  | some value => .ok value
  | none => .error .outOfRange

variable {K : Type} [Field K] [LinearOrder K]

/-- The elements next to each other are in the relation, or the vector is empty. -/
def allAdjacent (holds : K → K → Bool) (values : List K) : Except Failure Bool :=
  if values.isEmpty then .error (.invalidArgument "Points is empty.")
  else .ok ((values.zip values.tail).all fun pair => holds pair.1 pair.2)

def isIncreasing (x : List K) : Except Failure Bool :=
  allAdjacent (fun first second => first < second) x

def isNotDecreasing (x : List K) : Except Failure Bool :=
  allAdjacent (fun first second => first ≤ second) x

/-- The keys that are outside at most by this much are cropped. -/
def epsilon : K := 1 / 1000

def cropped (front back : K) (queryKeys : List K) : List K :=
  (queryKeys.modify 0 fun key => max key front).modify (queryKeys.length - 1) fun key =>
    min key back

def validateKeys (baseKeys queryKeys : List K) : Except Failure (List K) :=
  if baseKeys.isEmpty || queryKeys.isEmpty then
    .error (.invalidArgument "Points is empty.")
  else if baseKeys.length < 2 then
    .error (.invalidArgument
      ("The size of points is less than 2. base_keys.size() = " ++ toString baseKeys.length))
  else do
    let baseIncreasing ← isIncreasing baseKeys
    let queryNotDecreasing ← isNotDecreasing queryKeys
    if !baseIncreasing || !queryNotDecreasing then
      .error (.invalidArgument "Either base_keys or query_keys is not sorted.")
    else
      let baseFront ← atIndex baseKeys 0
      let baseBack ← atIndex baseKeys (baseKeys.length - 1)
      let queryFront ← atIndex queryKeys 0
      let queryBack ← atIndex queryKeys (queryKeys.length - 1)
      if queryFront < baseFront - epsilon ∨ baseBack + epsilon < queryBack then
        .error (.invalidArgument "query_keys is out of base_keys")
      else .ok (cropped baseFront baseBack queryKeys)

def validateKeysAndValues {α : Type} (baseKeys : List K) (baseValues : List α) :
    Except Failure Unit :=
  if baseKeys.isEmpty || baseValues.isEmpty then
    .error (.invalidArgument "Points is empty.")
  else if baseKeys.length < 2 ∨ baseValues.length < 2 then
    .error (.invalidArgument
      ("The size of points is less than 2. base_keys.size() = " ++ toString baseKeys.length ++
        ", base_values.size() = " ++ toString baseValues.length))
  else if baseKeys.length ≠ baseValues.length then
    .error (.invalidArgument "The size of base_keys and base_values are not the same.")
  else .ok ()

/-! ## Queries -/

def advance (queryKey : K) : List K → ℕ → Except Failure ℕ
  | [], _ => .error .outOfRange
  | next :: later, keyIndex =>
    if next < queryKey then advance queryKey later (keyIndex + 1) else .ok keyIndex

def queryLoop (baseKeys : List K) (valueAt : ℕ → K → Except Failure K) :
    ℕ → List K → Except Failure (List K)
  | _, [] => .ok []
  | keyIndex, queryKey :: later => do
    let keyIndex ← advance queryKey (baseKeys.drop (keyIndex + 1)) keyIndex
    let value ← valueAt keyIndex queryKey
    let values ← queryLoop baseKeys valueAt keyIndex later
    return value :: values

/-- `lerp` of two values. -/
def lerpValue (srcVal dstVal ratio : K) : K :=
  srcVal + (dstVal - srcVal) * ratio

def lerpAt (baseKeys baseValues : List K) (keyIndex : ℕ) (queryKey : K) : Except Failure K := do
  let srcVal ← atIndex baseValues keyIndex
  let dstVal ← atIndex baseValues (keyIndex + 1)
  let key ← atIndex baseKeys keyIndex
  let nextKey ← atIndex baseKeys (keyIndex + 1)
  return lerpValue srcVal dstVal ((queryKey - key) / (nextKey - key))

def lerp (baseKeys baseValues queryKeys : List K) : Except Failure (List K) := do
  let validatedQueryKeys ← validateKeys baseKeys queryKeys
  validateKeysAndValues baseKeys baseValues
  queryLoop baseKeys (lerpAt baseKeys baseValues) 0 validatedQueryKeys

/-- The diagonal `b`, the entries below it `a` and above it `c`, and the right side `d`. -/
structure TDMACoef (K : Type) where
  a : ℕ → K
  b : ℕ → K
  c : ℕ → K
  d : ℕ → K

/-- The values `p` and `q` of a row. -/
def sweep (coef : TDMACoef K) : ℕ → K × K
  | 0 => (-coef.c 0 / coef.b 0, coef.d 0 / coef.b 0)
  | i + 1 =>
    let (p, q) := sweep coef i
    let den := coef.b (i + 1) + coef.a i * p
    (-coef.c i / den, (coef.d (i + 1) - coef.a i * q) / den)

def substitute (coef : TDMACoef K) (numRow : ℕ) : ℕ → List K → List K
  | 0, solved => solved
  | row + 1, solved =>
    let value :=
      match solved with
      | [] => (sweep coef (numRow - 1)).2
      | next :: _ => (sweep coef row).1 * next + (sweep coef row).2
    substitute coef numRow row (value :: solved)

def solveTridiagonalMatrixAlgorithm (coef : TDMACoef K) (numRow : ℕ) : List K :=
  if numRow ≠ 1 then substitute coef numRow numRow [] else [coef.d 0 / coef.b 0]

/-! ## Splines -/

structure MultiSplineCoef (K : Type) where
  a : List K
  b : List K
  c : List K
  d : List K

structure SplineInterpolation (K : Type) where
  baseKeys : List K
  multiSplineCoef : MultiSplineCoef K

def differences (values : List K) : List K :=
  values.zipWith (fun first second => second - first) values.tail

/-- The system for the second derivatives at the inner keys. -/
def tdmaCoef (numBase : ℕ) (diffKeys diffValues : ℕ → K) : TDMACoef K where
  a i := if i < numBase - 3 then diffKeys (i + 1) else 0
  b i := 2 * (diffKeys i + diffKeys (i + 1))
  c i := if i < numBase - 3 then diffKeys (i + 1) else 0
  d i := 6 * (diffValues (i + 1) / diffKeys (i + 1) - diffValues i / diffKeys i)

def secondDerivatives (numBase : ℕ) (diffKeys diffValues : ℕ → K) : List K :=
  let tdmaRes :=
    if 2 < numBase then
      solveTridiagonalMatrixAlgorithm (tdmaCoef numBase diffKeys diffValues) (numBase - 2)
    else []
  0 :: (tdmaRes ++ [0])

def calcSplineCoefficients (baseKeys baseValues : List K) :
    Except Failure (SplineInterpolation K) := do
  validateKeysAndValues baseKeys baseValues
  let numBase := baseKeys.length
  let diffKeys (i : ℕ) : K := (differences baseKeys).getD i 0
  let diffValues (i : ℕ) : K := (differences baseValues).getD i 0
  let v (i : ℕ) : K := (secondDerivatives numBase diffKeys diffValues).getD i 0
  let segments := List.range (numBase - 1)
  return {
    baseKeys := baseKeys
    multiSplineCoef := {
      a := segments.map fun i => (v (i + 1) - v i) / 6 / diffKeys i
      b := segments.map fun i => v i / 2
      c := segments.map fun i =>
        diffValues i / diffKeys i - diffKeys i * (2 * v i + v (i + 1)) / 6
      d := segments.map fun i => baseValues.getD i 0 } }

namespace SplineInterpolation

variable (self : SplineInterpolation K)

def valueAt (j : ℕ) (queryKey : K) : Except Failure K := do
  let key ← atIndex self.baseKeys j
  let ds := queryKey - key
  let d ← atIndex self.multiSplineCoef.d j
  let c ← atIndex self.multiSplineCoef.c j
  let b ← atIndex self.multiSplineCoef.b j
  let a ← atIndex self.multiSplineCoef.a j
  return d + (c + (b + a * ds) * ds) * ds

def diffValueAt (j : ℕ) (queryKey : K) : Except Failure K := do
  let key ← atIndex self.baseKeys j
  let ds := queryKey - key
  let c ← atIndex self.multiSplineCoef.c j
  let b ← atIndex self.multiSplineCoef.b j
  let a ← atIndex self.multiSplineCoef.a j
  return c + (2 * b + 3 * a * ds) * ds

def quadDiffValueAt (j : ℕ) (queryKey : K) :
    Except Failure K := do
  let key ← atIndex self.baseKeys j
  let ds := queryKey - key
  let b ← atIndex self.multiSplineCoef.b j
  let a ← atIndex self.multiSplineCoef.a j
  return 2 * b + 6 * a * ds

def getSplineInterpolatedValues (queryKeys : List K) :
    Except Failure (List K) := do
  let validatedQueryKeys ← validateKeys self.baseKeys queryKeys
  queryLoop self.baseKeys self.valueAt 0 validatedQueryKeys

def getSplineInterpolatedDiffValues (queryKeys : List K) :
    Except Failure (List K) := do
  let validatedQueryKeys ← validateKeys self.baseKeys queryKeys
  queryLoop self.baseKeys self.diffValueAt 0 validatedQueryKeys

def getSplineInterpolatedQuadDiffValues (queryKeys : List K) :
    Except Failure (List K) := do
  let validatedQueryKeys ← validateKeys self.baseKeys queryKeys
  queryLoop self.baseKeys self.quadDiffValueAt 0 validatedQueryKeys

end SplineInterpolation

end

open Library.Fallible

variable {K : Type} [LinearOrder K]

theorem atIndex_eq_ok {α : Type} {values : List α} {idx : ℕ} {value : α} :
    atIndex values idx = .ok value ↔ values[idx]? = some value := by
  unfold atIndex
  cases values[idx]? <;> simp

/-! ## The search -/

variable {queryKey : K} {later : List K}

/-- The search stops at the first key that is not before the query key. -/
theorem advance_of_le (keyIndex : ℕ)
    (hlast : ∀ last ∈ later.getLast?, queryKey ≤ last) (hne : later ≠ []) :
    ∃ steps, advance queryKey later keyIndex = .ok (keyIndex + steps) ∧
      (∃ next, later[steps]? = some next ∧ queryKey ≤ next) ∧
      ∀ i, i < steps → ∃ passed, later[i]? = some passed ∧ passed < queryKey := by
  induction later generalizing keyIndex with
  | nil => exact absurd rfl hne
  | cons next later ih =>
    by_cases hnext : next < queryKey
    · have hlater : later ≠ [] := by
        rintro rfl
        exact absurd (hlast next rfl) (not_le.mpr hnext)
      have hlast' : ∀ last ∈ later.getLast?, queryKey ≤ last := by
        intro last hmem
        refine hlast last ?_
        rw [List.getLast?_cons]
        simp only [Option.mem_def] at hmem ⊢
        rw [hmem]
        rfl
      obtain ⟨steps, hadvance, hstop, hpassed⟩ := ih (keyIndex + 1) hlast' hlater
      refine ⟨steps + 1, ?_, hstop, ?_⟩
      · rw [advance, if_pos hnext, hadvance, Nat.add_assoc, Nat.add_comm 1]
      · intro i hi
        cases i with
        | zero => exact ⟨next, rfl, hnext⟩
        | succ i => exact hpassed i (by omega)
    · refine ⟨0, ?_, ⟨next, rfl, not_lt.mp hnext⟩, fun i hi => absurd hi (Nat.not_lt_zero i)⟩
      rw [advance, if_neg hnext]
      rfl

variable {keyIndex : ℕ}

/-- Behind the last key the search leaves the keys. -/
theorem advance_of_lt (hall : ∀ key ∈ later, key < queryKey) :
    advance queryKey later keyIndex = .error .outOfRange := by
  induction later generalizing keyIndex with
  | nil => rfl
  | cons next later ih =>
    rw [advance, if_pos (hall next List.mem_cons_self)]
    exact ih fun key hmem => hall key (List.mem_cons_of_mem _ hmem)

theorem advance_lt {keyIndex j : ℕ}
    (hadvance : advance queryKey later keyIndex = .ok j) : j < keyIndex + later.length := by
  induction later generalizing keyIndex with
  | nil => cases hadvance
  | cons next later ih =>
    rw [advance] at hadvance
    rw [List.length_cons]
    split at hadvance
    · have hlt := ih hadvance
      omega
    · cases hadvance
      omega

structure InSegment (baseKeys : List K) (j : ℕ) (queryKey : K) : Prop where
  next : ∃ next, baseKeys[j + 1]? = some next ∧ queryKey ≤ next
  key : j = 0 ∨ ∃ key, baseKeys[j]? = some key ∧ key < queryKey

variable {baseKeys : List K} {back : K}

theorem le_back (hsorted : baseKeys.Pairwise (· < ·)) (hback : baseKeys.getLast? = some back)
    {key : K} (hmem : key ∈ baseKeys) : key ≤ back := by
  obtain ⟨init, rfl⟩ := List.getLast?_eq_some_iff.mp hback
  rcases List.mem_append.mp hmem with hinit | hlast
  · exact ((List.pairwise_append.mp hsorted).2.2 key hinit back (List.mem_singleton_self _)).le
  · exact (List.mem_singleton.mp hlast).le

theorem front_le {front : K} (hsorted : baseKeys.Pairwise (· < ·))
    (hfront : baseKeys[0]? = some front) {key : K} (hmem : key ∈ baseKeys) : front ≤ key := by
  cases baseKeys with
  | nil => cases hmem
  | cons first later =>
    cases hfront
    rcases List.mem_cons.mp hmem with rfl | hlater
    · exact le_rfl
    · exact ((List.pairwise_cons.mp hsorted).1 key hlater).le

theorem key_lt_key (hsorted : baseKeys.Pairwise (· < ·)) {i j : ℕ} {first second : K}
    (hij : i < j) (hfirst : baseKeys[i]? = some first) (hsecond : baseKeys[j]? = some second) :
    first < second := by
  obtain ⟨_, rfl⟩ := List.getElem?_eq_some_iff.mp hfirst
  obtain ⟨_, rfl⟩ := List.getElem?_eq_some_iff.mp hsecond
  exact List.pairwise_iff_getElem.mp hsorted _ _ _ _ hij

/-- A search that starts at a segment before the key finds the segment of the key. -/
theorem advance_drop (hback : baseKeys.getLast? = some back)
    (hbound : keyIndex + 1 < baseKeys.length) (hle : queryKey ≤ back)
    (hstart : keyIndex = 0 ∨ ∃ key, baseKeys[keyIndex]? = some key ∧ key < queryKey) :
    ∃ j, advance queryKey (baseKeys.drop (keyIndex + 1)) keyIndex = .ok j ∧
      InSegment baseKeys j queryKey := by
  have hlast : ∀ last ∈ (baseKeys.drop (keyIndex + 1)).getLast?, queryKey ≤ last := by
    intro last hmem
    rw [List.getLast?_drop, if_neg (by omega), hback] at hmem
    exact Option.some.inj hmem ▸ hle
  have hne : baseKeys.drop (keyIndex + 1) ≠ [] := by
    rw [Ne, List.drop_eq_nil_iff]
    omega
  obtain ⟨steps, hadvance, ⟨next, hnext, hstop⟩, hpassed⟩ := advance_of_le keyIndex hlast hne
  rw [List.getElem?_drop, Nat.add_right_comm] at hnext
  refine ⟨keyIndex + steps, hadvance, ⟨next, hnext, hstop⟩, ?_⟩
  cases steps with
  | zero => exact hstart
  | succ steps =>
    obtain ⟨passed, hpassed, hlt⟩ := hpassed steps (Nat.lt_succ_self _)
    rw [List.getElem?_drop, Nat.add_right_comm, Nat.add_assoc] at hpassed
    exact .inr ⟨passed, hpassed, hlt⟩

theorem InSegment.lt_length {j : ℕ} (hsegment : InSegment baseKeys j queryKey) :
    j + 1 < baseKeys.length := by
  obtain ⟨next, hnext, _⟩ := hsegment.next
  exact (List.getElem?_eq_some_iff.mp hnext).1

/-! ## The loop over the queries -/

variable {valueAt : ℕ → K → Except Failure K}

theorem queryLoop_le (hsorted : baseKeys.Pairwise (· < ·)) (hback : baseKeys.getLast? = some back)
    (hbound : keyIndex + 1 < baseKeys.length) {queryKeys values : List K}
    (hloop : queryLoop baseKeys valueAt keyIndex queryKeys = .ok values) :
    ∀ queryKey ∈ queryKeys, queryKey ≤ back := by
  induction queryKeys generalizing keyIndex values with
  | nil => exact fun _ hmem => absurd hmem List.not_mem_nil
  | cons queryKey later ih =>
    rw [queryLoop] at hloop
    obtain ⟨j, hadvance, hloop⟩ := bind_eq_ok.mp hloop
    obtain ⟨_, _, hloop⟩ := bind_eq_ok.mp hloop
    obtain ⟨_, hlater, _⟩ := bind_eq_ok.mp hloop
    have hj := advance_lt hadvance
    rw [List.length_drop] at hj
    have hqueryKey : queryKey ≤ back := by
      by_contra hbehind
      rw [advance_of_lt fun key hmem =>
        (le_back hsorted hback (List.mem_of_mem_drop hmem)).trans_lt (not_le.mp hbehind)]
        at hadvance
      cases hadvance
    intro other hmem
    rcases List.mem_cons.mp hmem with rfl | hother
    · exact hqueryKey
    · exact ih (by omega) hlater other hother

variable {front : K}

theorem queryLoop_forall₂ (hsorted : baseKeys.Pairwise (· < ·))
    (hfront : baseKeys[0]? = some front) (hback : baseKeys.getLast? = some back)
    (hvalue : ∀ j queryKey, j + 1 < baseKeys.length → ∃ value, valueAt j queryKey = .ok value)
    (hbound : keyIndex + 1 < baseKeys.length) {queryKeys : List K}
    (hle : ∀ queryKey ∈ queryKeys, queryKey ≤ back)
    (horder : queryKeys.Pairwise fun first second => first ≤ second ∨ first ≤ front)
    (hstart : keyIndex = 0 ∨
      ∀ queryKey ∈ queryKeys, ∃ key, baseKeys[keyIndex]? = some key ∧ key < queryKey) :
    ∃ values, queryLoop baseKeys valueAt keyIndex queryKeys = .ok values ∧
      List.Forall₂ (fun queryKey value =>
        ∃ j, InSegment baseKeys j queryKey ∧ valueAt j queryKey = .ok value) queryKeys values := by
  induction queryKeys generalizing keyIndex with
  | nil => exact ⟨[], rfl, .nil⟩
  | cons queryKey later ih =>
    obtain ⟨hfirst, horder⟩ := List.pairwise_cons.mp horder
    have hstart' : keyIndex = 0 ∨ ∃ key, baseKeys[keyIndex]? = some key ∧ key < queryKey :=
      hstart.imp_right fun hall => hall queryKey List.mem_cons_self
    obtain ⟨j, hadvance, hsegment⟩ :=
      advance_drop hback hbound (hle queryKey List.mem_cons_self) hstart'
    obtain ⟨value, hvalueAt⟩ := hvalue j queryKey hsegment.lt_length
    have hnext : j = 0 ∨
        ∀ other ∈ later, ∃ key, baseKeys[j]? = some key ∧ key < other := by
      refine hsegment.key.imp_right fun ⟨key, hkey, hlt⟩ other hmem => ⟨key, hkey, ?_⟩
      rcases hfirst other hmem with hle | hbefore
      · exact hlt.trans_le hle
      · have hkey := front_le hsorted hfront (List.mem_of_getElem? hkey)
        exact absurd (hlt.trans_le hbefore) (not_lt.mpr hkey)
    obtain ⟨values, hloop, hvalues⟩ := ih hsegment.lt_length
      (fun other hmem => hle other (List.mem_cons_of_mem _ hmem)) horder hnext
    refine ⟨value :: values, ?_, .cons ⟨j, hsegment, hvalueAt⟩ hvalues⟩
    rw [queryLoop]
    exact bind_eq_ok.mpr ⟨j, hadvance, bind_eq_ok.mpr ⟨value, hvalueAt,
      bind_eq_ok.mpr ⟨values, hloop, rfl⟩⟩⟩

section

variable {front queryKey : K} {later : List K}

omit [LinearOrder K] in
theorem modify_last (values : List K) (last : K) (change : K → K) :
    (values ++ [last]).modify values.length change = values ++ [change last] := by
  induction values with
  | nil => rfl
  | cons first rest ih =>
    rw [List.cons_append, List.length_cons, List.modify_succ_cons, ih, List.cons_append]

theorem cropped_concat (mid : List K) (last : K) :
    cropped front back (queryKey :: (mid ++ [last])) =
      max queryKey front :: (mid ++ [min last back]) := by
  rw [cropped, List.modify_zero_cons, List.length_cons, Nat.add_sub_cancel, List.length_append,
    List.length_singleton, List.modify_succ_cons, modify_last]

theorem cropped_eq (hrange : front ≤ back)
    (hle : ∀ other ∈ (queryKey :: later).dropLast, other ≤ back) :
    cropped front back (queryKey :: later) =
      min (max queryKey front) back :: later.map (min · back) := by
  rcases List.eq_nil_or_concat later with rfl | ⟨mid, last, rfl⟩
  · rfl
  · rw [List.concat_eq_append] at hle ⊢
    rw [← List.cons_append, List.dropLast_concat] at hle
    have hmid : mid.map (min · back) = mid := by
      refine List.map_congr_left (g := id) (fun other hmem => ?_) |>.trans (List.map_id _)
      exact min_eq_left (hle other (List.mem_cons_of_mem _ hmem))
    rw [cropped_concat, min_eq_left (max_le (hle queryKey List.mem_cons_self) hrange),
      List.map_append, hmid]
    rfl

theorem dropLast_le_of_cropped
    (hle : ∀ other ∈ cropped front back (queryKey :: later), other ≤ back) :
    ∀ other ∈ (queryKey :: later).dropLast, other ≤ back := by
  intro other hmem
  rcases List.eq_nil_or_concat later with rfl | ⟨mid, last, rfl⟩
  · cases hmem
  · rw [List.concat_eq_append] at hle hmem
    rw [← List.cons_append, List.dropLast_concat] at hmem
    rw [cropped_concat] at hle
    rcases List.mem_cons.mp hmem with rfl | hmid
    · exact (le_max_left _ _).trans (hle _ List.mem_cons_self)
    · exact hle other (List.mem_cons_of_mem _ (List.mem_append_left _ hmid))

end

omit [LinearOrder K] in
theorem allAdjacent_eq_ok {holds : K → K → Bool} {values : List K}
    (hholds : allAdjacent holds values = .ok true) :
    values.IsChain fun first second => holds first second = true := by
  unfold allAdjacent at hholds
  split at hholds
  · cases hholds
  · rw [Except.ok.injEq] at hholds
    clear * - hholds
    induction values with
    | nil => exact .nil
    | cons first later ih =>
      cases later with
      | nil => exact .singleton _
      | cons second later =>
        rw [List.tail_cons, List.zip_cons_cons, List.all_cons, Bool.and_eq_true] at hholds
        exact .cons_cons hholds.1 (ih hholds.2)

structure Validated (baseKeys queryKeys validated : List K) (front back : K) : Prop where
  frontKey : baseKeys[0]? = some front
  backKey : baseKeys.getLast? = some back
  two : 2 ≤ baseKeys.length
  ne_nil : queryKeys ≠ []
  increasing : baseKeys.Pairwise (· < ·)
  notDecreasing : queryKeys.Pairwise (· ≤ ·)
  crop : validated = cropped front back queryKeys

variable [Field K]

theorem validated_of_ok {baseKeys queryKeys validated : List K}
    (hkeys : validateKeys baseKeys queryKeys = .ok validated) :
    ∃ front back, Validated baseKeys queryKeys validated front back := by
  unfold validateKeys at hkeys
  split at hkeys
  · cases hkeys
  rename_i hempty
  split at hkeys
  · cases hkeys
  rename_i htwo
  obtain ⟨baseIncreasing, hbase, hkeys⟩ := bind_eq_ok.mp hkeys
  obtain ⟨queryNotDecreasing, hquery, hkeys⟩ := bind_eq_ok.mp hkeys
  split at hkeys
  · cases hkeys
  rename_i hsorted
  obtain ⟨front, hfront, hkeys⟩ := bind_eq_ok.mp hkeys
  obtain ⟨back, hback, hkeys⟩ := bind_eq_ok.mp hkeys
  obtain ⟨_, _, hkeys⟩ := bind_eq_ok.mp hkeys
  obtain ⟨_, _, hkeys⟩ := bind_eq_ok.mp hkeys
  split at hkeys
  · cases hkeys
  cases hkeys
  simp only [Bool.or_eq_true, Bool.not_eq_true', not_or, Bool.not_eq_false] at hsorted
  obtain ⟨rfl, rfl⟩ := hsorted
  simp only [Bool.or_eq_true, List.isEmpty_iff, not_or] at hempty
  refine ⟨front, back, ⟨atIndex_eq_ok.mp hfront, ?_, by omega, hempty.2, ?_, ?_, rfl⟩⟩
  · rw [List.getLast?_eq_getElem?]
    exact atIndex_eq_ok.mp hback
  · exact List.isChain_iff_pairwise.mp
      ((allAdjacent_eq_ok hbase).imp fun _ _ hlt => of_decide_eq_true hlt)
  · exact List.isChain_iff_pairwise.mp
      ((allAdjacent_eq_ok hquery).imp fun _ _ hle => of_decide_eq_true hle)

end

/-!
## The tolerance of query keys

Query keys may be outside the base keys by a small tolerance, but only the first and the last
of them are cropped.  Interpolation answers all queries with the values at the clamped keys if
and only if no other query key is behind the base keys, and none is before them unless the
first two base values are the same.
-/

section

section

section

open Library.Fallible Library.KeyedList

variable {K : Type} {baseKeys baseValues queryKeys validated : List K}

namespace Validated

variable [LinearOrder K] {front back : K}
variable (hvalid : Validated baseKeys queryKeys validated front back)

include hvalid

theorem front_le_back : front ≤ back :=
  front_le hvalid.increasing hvalid.frontKey (List.mem_of_getLast? hvalid.backKey)

theorem length_eq : validated.length = queryKeys.length := by
  rw [hvalid.crop, cropped, List.length_modify, List.length_modify]

/-- The cropped keys are sorted, apart from those before the base keys. -/
theorem order (hle : ∀ other ∈ queryKeys.dropLast, other ≤ back) :
    validated.Pairwise fun first second => first ≤ second ∨ first ≤ front := by
  have hsorted := hvalid.notDecreasing
  rw [hvalid.crop]
  cases queryKeys with
  | nil => exact absurd rfl hvalid.ne_nil
  | cons queryKey later =>
    obtain ⟨hfirst, hlater⟩ := List.pairwise_cons.mp hsorted
    rw [cropped_eq hvalid.front_le_back hle]
    refine List.pairwise_cons.mpr ⟨?_, List.pairwise_map.mpr ?_⟩
    · rintro _ hmem
      obtain ⟨other, hother, rfl⟩ := List.mem_map.mp hmem
      rcases le_total queryKey front with hbefore | hinside
      · rw [max_eq_right hbefore]
        exact .inr (min_le_left _ _)
      · rw [max_eq_left hinside]
        exact .inl (min_le_min_right _ (hfirst other hother))
    · exact hlater.imp fun hle => .inl (min_le_min_right _ hle)

theorem map_clamp :
    validated.map (fun key => min (max key front) back) =
      queryKeys.map fun key => min (max key front) back := by
  rw [hvalid.crop, cropped, map_modify_eq, map_modify_eq]
  · intro key _
    rw [max_assoc, max_self]
  · intro key _
    rw [max_min_distrib_right, max_eq_left hvalid.front_le_back, min_assoc, min_self]

theorem clamp_order :
    (front :: validated.map fun key => min (max key front) back).Pairwise (· ≤ ·) := by
  rw [hvalid.map_clamp]
  refine List.pairwise_cons.mpr ⟨fun key hmem => ?_, ?_⟩
  · obtain ⟨queryKey, _, rfl⟩ := List.mem_map.mp hmem
    exact le_min (le_max_right _ _) hvalid.front_le_back
  · exact List.pairwise_map.mpr (hvalid.notDecreasing.imp fun hle =>
      min_le_min_right _ (max_le_max_right _ hle))

theorem le_back_iff :
    (∀ key ∈ validated, key ≤ back) ↔ ∀ queryKey ∈ queryKeys.dropLast, queryKey ≤ back := by
  rw [hvalid.crop]
  cases queryKeys with
  | nil => exact absurd rfl hvalid.ne_nil
  | cons queryKey later =>
    refine ⟨dropLast_le_of_cropped, fun hle => ?_⟩
    rw [cropped_eq hvalid.front_le_back hle]
    intro other hmem
    rcases List.mem_cons.mp hmem with rfl | hlater
    · exact min_le_right _ _
    · obtain ⟨_, _, rfl⟩ := List.mem_map.mp hlater
      exact min_le_right _ _

variable {valueAt : ℕ → K → Except Failure K}

theorem dropLast_le {values : List K} (hloop : queryLoop baseKeys valueAt 0 validated = .ok values) :
    ∀ other ∈ queryKeys.dropLast, other ≤ back := by
  have hbehind := queryLoop_le hvalid.increasing hvalid.backKey hvalid.two hloop
  rw [hvalid.crop] at hbehind
  cases queryKeys with
  | nil => exact fun _ hmem => absurd hmem List.not_mem_nil
  | cons queryKey later => exact dropLast_le_of_cropped hbehind

theorem queryLoop_ok
    (hvalue : ∀ j queryKey, j + 1 < baseKeys.length → ∃ value, valueAt j queryKey = .ok value)
    (hle : ∀ other ∈ queryKeys.dropLast, other ≤ back) :
    ∃ values, queryLoop baseKeys valueAt 0 validated = .ok values ∧
      List.Forall₂ (fun queryKey value =>
        ∃ j, InSegment baseKeys j queryKey ∧ valueAt j queryKey = .ok value) validated values := by
  refine queryLoop_forall₂ hvalid.increasing hvalid.frontKey hvalid.backKey hvalue hvalid.two ?_
    (hvalid.order hle) (.inl rfl)
  rw [hvalid.crop]
  cases queryKeys with
  | nil => exact absurd rfl hvalid.ne_nil
  | cons queryKey later =>
    rw [cropped_eq hvalid.front_le_back hle]
    intro other hmem
    rcases List.mem_cons.mp hmem with rfl | hlater
    · exact min_le_right _ _
    · obtain ⟨_, _, rfl⟩ := List.mem_map.mp hlater
      exact min_le_right _ _

variable (valueAt) in
theorem queryLoop_length
    (hvalue : ∀ j queryKey, j + 1 < baseKeys.length → ∃ value, valueAt j queryKey = .ok value)
    (hle : ∀ other ∈ queryKeys.dropLast, other ≤ back) :
    ∃ values, queryLoop baseKeys valueAt 0 validated = .ok values ∧
      values.length = queryKeys.length := by
  obtain ⟨values, hloop, hvalues⟩ := hvalid.queryLoop_ok hvalue hle
  exact ⟨values, hloop, by rw [← hvalues.length_eq, hvalid.length_eq]⟩

end Validated

theorem validateKeysAndValues_eq_ok {baseKeys : List K} {α : Type} {baseValues : List α}
    (hvalues : validateKeysAndValues baseKeys baseValues = .ok ()) :
    baseKeys.length = baseValues.length := by
  unfold validateKeysAndValues at hvalues
  split at hvalues
  · cases hvalues
  split at hvalues
  · cases hvalues
  split at hvalues
  · cases hvalues
  · rename_i hlength
    exact not_ne_iff.mp hlength

theorem validateKeysAndValues_ok {baseKeys : List K} {α : Type} {baseValues : List α}
    (htwo : 2 ≤ baseKeys.length) (hlength : baseKeys.length = baseValues.length) :
    validateKeysAndValues baseKeys baseValues = .ok () := by
  have hkeysNe : baseKeys ≠ [] := List.ne_nil_of_length_pos (by omega)
  have hvaluesNe : baseValues ≠ [] := List.ne_nil_of_length_pos (by omega)
  rw [validateKeysAndValues, if_neg (by simp [hkeysNe, hvaluesNe]), if_neg (by omega),
    if_neg (not_ne_iff.mpr hlength)]

theorem exists_atIndex {α : Type} {values : List α} {idx : ℕ} (hidx : idx < values.length) :
    ∃ value, atIndex values idx = .ok value :=
  ⟨values[idx], atIndex_eq_ok.mpr (List.getElem?_eq_getElem hidx)⟩

variable [Field K]

theorem calcSplineCoefficients_ok (hvalues : validateKeysAndValues baseKeys baseValues = .ok ()) :
    ∃ self, calcSplineCoefficients baseKeys baseValues = .ok self ∧ self.baseKeys = baseKeys ∧
      self.multiSplineCoef.a.length = baseKeys.length - 1 ∧
      self.multiSplineCoef.b.length = baseKeys.length - 1 ∧
      self.multiSplineCoef.c.length = baseKeys.length - 1 ∧
      self.multiSplineCoef.d.length = baseKeys.length - 1 := by
  refine ⟨_, bind_eq_ok.mpr ⟨(), hvalues, rfl⟩, rfl, ?_, ?_, ?_, ?_⟩
  all_goals rw [List.length_map, List.length_range]

namespace SplineInterpolation

variable {self : SplineInterpolation K} {j : ℕ} {queryKey : K}

theorem valueAt_ok (hkey : j < self.baseKeys.length)
    (ha : j < self.multiSplineCoef.a.length) (hb : j < self.multiSplineCoef.b.length)
    (hc : j < self.multiSplineCoef.c.length) (hd : j < self.multiSplineCoef.d.length) :
    ∃ value, self.valueAt j queryKey = .ok value := by
  obtain ⟨key, hkey⟩ := exists_atIndex hkey
  obtain ⟨a, ha⟩ := exists_atIndex ha
  obtain ⟨b, hb⟩ := exists_atIndex hb
  obtain ⟨c, hc⟩ := exists_atIndex hc
  obtain ⟨d, hd⟩ := exists_atIndex hd
  exact ⟨_, bind_eq_ok.mpr ⟨key, hkey, bind_eq_ok.mpr ⟨d, hd, bind_eq_ok.mpr ⟨c, hc,
    bind_eq_ok.mpr ⟨b, hb, bind_eq_ok.mpr ⟨a, ha, rfl⟩⟩⟩⟩⟩⟩

theorem diffValueAt_ok (hkey : j < self.baseKeys.length) (ha : j < self.multiSplineCoef.a.length)
    (hb : j < self.multiSplineCoef.b.length) (hc : j < self.multiSplineCoef.c.length) :
    ∃ value, self.diffValueAt j queryKey = .ok value := by
  obtain ⟨key, hkey⟩ := exists_atIndex hkey
  obtain ⟨a, ha⟩ := exists_atIndex ha
  obtain ⟨b, hb⟩ := exists_atIndex hb
  obtain ⟨c, hc⟩ := exists_atIndex hc
  exact ⟨_, bind_eq_ok.mpr ⟨key, hkey, bind_eq_ok.mpr ⟨c, hc, bind_eq_ok.mpr ⟨b, hb,
    bind_eq_ok.mpr ⟨a, ha, rfl⟩⟩⟩⟩⟩

theorem quadDiffValueAt_ok (hkey : j < self.baseKeys.length)
    (ha : j < self.multiSplineCoef.a.length) (hb : j < self.multiSplineCoef.b.length) :
    ∃ value, self.quadDiffValueAt j queryKey = .ok value := by
  obtain ⟨key, hkey⟩ := exists_atIndex hkey
  obtain ⟨a, ha⟩ := exists_atIndex ha
  obtain ⟨b, hb⟩ := exists_atIndex hb
  exact ⟨_, bind_eq_ok.mpr ⟨key, hkey, bind_eq_ok.mpr ⟨b, hb, bind_eq_ok.mpr ⟨a, ha, rfl⟩⟩⟩⟩

end SplineInterpolation

/-! ## Linear interpolation -/

variable {queryKey value : K} {j : ℕ}

theorem lerpAt_eq_ok :
    lerpAt baseKeys baseValues j queryKey = .ok value ↔
      ∃ key nextKey srcVal dstVal, baseKeys[j]? = some key ∧ baseKeys[j + 1]? = some nextKey ∧
        baseValues[j]? = some srcVal ∧ baseValues[j + 1]? = some dstVal ∧
        value = srcVal + (dstVal - srcVal) * ((queryKey - key) / (nextKey - key)) := by
  constructor
  · intro hlerp
    obtain ⟨srcVal, hsrc, hlerp⟩ := bind_eq_ok.mp hlerp
    obtain ⟨dstVal, hdst, hlerp⟩ := bind_eq_ok.mp hlerp
    obtain ⟨key, hkey, hlerp⟩ := bind_eq_ok.mp hlerp
    obtain ⟨nextKey, hnext, hlerp⟩ := bind_eq_ok.mp hlerp
    exact ⟨key, nextKey, srcVal, dstVal, atIndex_eq_ok.mp hkey, atIndex_eq_ok.mp hnext,
      atIndex_eq_ok.mp hsrc, atIndex_eq_ok.mp hdst, (Except.ok.inj hlerp).symm⟩
  · rintro ⟨key, nextKey, srcVal, dstVal, hkey, hnext, hsrc, hdst, rfl⟩
    exact bind_eq_ok.mpr ⟨srcVal, atIndex_eq_ok.mpr hsrc, bind_eq_ok.mpr ⟨dstVal,
      atIndex_eq_ok.mpr hdst, bind_eq_ok.mpr ⟨key, atIndex_eq_ok.mpr hkey,
        bind_eq_ok.mpr ⟨nextKey, atIndex_eq_ok.mpr hnext, rfl⟩⟩⟩⟩

theorem lerpAt_ok (hlength : baseKeys.length = baseValues.length) {queryKey : K}
    (hj : j + 1 < baseKeys.length) :
    ∃ value, lerpAt baseKeys baseValues j queryKey = .ok value := by
  refine ⟨_, lerpAt_eq_ok.mpr ⟨_, _, _, _, List.getElem?_eq_getElem (Nat.lt_of_succ_lt hj),
    List.getElem?_eq_getElem hj, List.getElem?_eq_getElem ?_, List.getElem?_eq_getElem ?_, rfl⟩⟩
  all_goals omega

variable [LinearOrder K]

/-- A value is on the line between two neighbouring points. -/
def Interpolates (baseKeys baseValues : List K) (x value : K) : Prop :=
  ∃ j key nextKey srcVal dstVal, baseKeys[j]? = some key ∧ baseKeys[j + 1]? = some nextKey ∧
    baseValues[j]? = some srcVal ∧ baseValues[j + 1]? = some dstVal ∧
    key ≤ x ∧ x ≤ nextKey ∧ value = srcVal + (dstVal - srcVal) * ((x - key) / (nextKey - key))

namespace Validated

variable {front back : K} (hvalid : Validated baseKeys queryKeys validated front back)

include hvalid

theorem interpolates (hsegment : InSegment baseKeys j queryKey)
    (hinside : front ≤ queryKey) (hvalue : lerpAt baseKeys baseValues j queryKey = .ok value) :
    Interpolates baseKeys baseValues queryKey value := by
  obtain ⟨key, nextKey, srcVal, dstVal, hkey, hnext, hsrc, hdst, hvalue⟩ := lerpAt_eq_ok.mp hvalue
  refine ⟨j, key, nextKey, srcVal, dstVal, hkey, hnext, hsrc, hdst, ?_, ?_, hvalue⟩
  · rcases hsegment.key with rfl | ⟨other, hother, hlt⟩
    · rw [hvalid.frontKey] at hkey
      exact Option.some.inj hkey ▸ hinside
    · rw [hother] at hkey
      exact Option.some.inj hkey ▸ hlt.le
  · obtain ⟨other, hother, hle⟩ := hsegment.next
    rw [hother] at hnext
    exact Option.some.inj hnext ▸ hle

variable (hlength : baseKeys.length = baseValues.length)

include hlength

/-- The first key is at the start of the first segment only. -/
theorem interpolates_front_iff {value : K} :
    Interpolates baseKeys baseValues front value ↔ baseValues[0]? = some value := by
  have htwo := hvalid.two
  constructor
  · rintro ⟨j, key, nextKey, srcVal, dstVal, hkey, hnext, hsrc, hdst, hle, _, rfl⟩
    cases j with
    | zero =>
      rw [hvalid.frontKey] at hkey
      cases hkey
      rw [hsrc, sub_self, zero_div, mul_zero, add_zero]
    | succ j =>
      have hlt : front < key := by
        obtain ⟨_, rfl⟩ := List.getElem?_eq_some_iff.mp hvalid.frontKey
        obtain ⟨_, rfl⟩ := List.getElem?_eq_some_iff.mp hkey
        exact List.pairwise_iff_getElem.mp hvalid.increasing _ _ _ _ (Nat.succ_pos j)
      exact absurd hle (not_le.mpr hlt)
  · intro hsrc
    have hnext := List.getElem?_eq_getElem (show 1 < baseKeys.length by omega)
    refine ⟨0, front, _, value, _, hvalid.frontKey, hnext, hsrc,
      List.getElem?_eq_getElem (show 1 < baseValues.length by omega), le_rfl, ?_, ?_⟩
    · exact front_le hvalid.increasing hvalid.frontKey (List.getElem_mem _)
    · rw [sub_self, zero_div, mul_zero, add_zero]

/-- Before the first key the line of the first segment is continued. -/
theorem interpolates_iff_of_lt (hsegment : InSegment baseKeys j queryKey)
    (hbefore : queryKey < front) (hvalue : lerpAt baseKeys baseValues j queryKey = .ok value) :
    Interpolates baseKeys baseValues front value ↔ baseValues[0]? = baseValues[1]? := by
  have hzero : j = 0 := by
    rcases hsegment.key with hzero | ⟨key, hkey, hlt⟩
    · exact hzero
    · have hle := front_le hvalid.increasing hvalid.frontKey (List.mem_of_getElem? hkey)
      exact absurd (hle.trans_lt hlt) hbefore.not_gt
  subst hzero
  obtain ⟨key, nextKey, srcVal, dstVal, hkey, hnext, hsrc, hdst, rfl⟩ := lerpAt_eq_ok.mp hvalue
  rw [hvalid.frontKey] at hkey
  cases hkey
  have hlt : front < nextKey := by
    obtain ⟨_, hfront⟩ := List.getElem?_eq_some_iff.mp hvalid.frontKey
    obtain ⟨_, rfl⟩ := List.getElem?_eq_some_iff.mp hnext
    rw [← hfront]
    exact List.pairwise_iff_getElem.mp hvalid.increasing _ _ _ _ Nat.one_pos
  rw [hvalid.interpolates_front_iff hlength, hsrc, hdst, Option.some.injEq, Option.some.injEq,
    left_eq_add, mul_eq_zero, div_eq_zero_iff, sub_eq_zero, sub_eq_zero, sub_eq_zero]
  constructor
  · rintro (hsame | hkey | hspan)
    · exact hsame.symm
    · exact absurd hkey hbefore.ne
    · exact absurd hspan hlt.ne'
  · exact fun hsame => .inl hsame.symm

theorem interpolates_min_iff (hsegment : InSegment baseKeys j (min queryKey back))
    (hvalue : lerpAt baseKeys baseValues j (min queryKey back) = .ok value) :
    Interpolates baseKeys baseValues (min (max queryKey front) back) value ↔
      front ≤ queryKey ∨ baseValues[0]? = baseValues[1]? := by
  rcases le_or_gt front queryKey with hinside | hbefore
  · rw [max_eq_left hinside]
    exact ⟨fun _ => .inl hinside, fun _ =>
      hvalid.interpolates hsegment (le_min hinside hvalid.front_le_back) hvalue⟩
  · rw [min_eq_left (hbefore.le.trans hvalid.front_le_back)] at hsegment hvalue
    rw [max_eq_right hbefore.le, min_eq_left hvalid.front_le_back,
      hvalid.interpolates_iff_of_lt hlength hsegment hbefore hvalue, or_iff_right hbefore.not_ge]

theorem lerp_loop_iff (hle : ∀ other ∈ queryKeys.dropLast, other ≤ back) :
    ∃ values, queryLoop baseKeys (lerpAt baseKeys baseValues) 0 validated = .ok values ∧
      (List.Forall₂ (fun queryKey value =>
          Interpolates baseKeys baseValues (min (max queryKey front) back) value)
        queryKeys values ↔
      ∀ queryKey ∈ queryKeys.tail, front ≤ queryKey ∨ baseValues[0]? = baseValues[1]?) := by
  obtain ⟨values, hloop, hvalues⟩ :=
    hvalid.queryLoop_ok (fun j queryKey hj => lerpAt_ok hlength hj) hle
  refine ⟨values, hloop, ?_⟩
  rw [hvalid.crop] at hvalues
  cases queryKeys with
  | nil => exact absurd rfl hvalid.ne_nil
  | cons queryKey later =>
    rw [cropped_eq hvalid.front_le_back hle] at hvalues
    cases hvalues with
    | @cons _ value _ others hvalue hothers =>
      obtain ⟨j, hsegment, hvalue⟩ := hvalue
      have hfirst := hvalid.interpolates hsegment
        (le_min (le_max_right _ _) hvalid.front_le_back) hvalue
      have hlater := (List.forall₂_map_left_iff.mp hothers).imp
        fun other value ⟨j, hsegment, hvalue⟩ =>
          hvalid.interpolates_min_iff hlength hsegment hvalue
      rw [List.forall₂_cons, and_iff_right hfirst, List.tail_cons]
      clear * - hlater
      induction hlater with
      | nil => exact ⟨fun _ _ hmem => absurd hmem List.not_mem_nil, fun _ => .nil⟩
      | cons hhead _ ih =>
        rw [List.forall₂_cons, List.forall_mem_cons]
        exact and_congr hhead ih

end Validated

/-! ## All queries -/

def clampKey (baseKeys : List K) (queryKey : K) : K :=
  min (max queryKey (baseKeys.headD 0)) (baseKeys.getLastD 0)

namespace Validated

variable {front back : K} (hvalid : Validated baseKeys queryKeys validated front back)

include hvalid

theorem headD_eq : baseKeys.headD 0 = front := by
  rw [List.headD_eq_head?_getD, List.head?_eq_getElem?, hvalid.frontKey, Option.getD_some]

theorem getLastD_eq : baseKeys.getLastD 0 = back := by
  rw [List.getLastD_eq_getLast?, hvalid.backKey, Option.getD_some]

end Validated

structure AnswersQueries (baseKeys baseValues queryKeys : List K) : Prop where
  lerp : ∃ values, lerp baseKeys baseValues queryKeys = .ok values ∧
    List.Forall₂ (fun queryKey value =>
      Interpolates baseKeys baseValues (clampKey baseKeys queryKey) value) queryKeys values
  spline : ∃ self, calcSplineCoefficients baseKeys baseValues = .ok self ∧
    (∃ values, self.getSplineInterpolatedValues queryKeys = .ok values ∧
      values.length = queryKeys.length) ∧
    (∃ values, self.getSplineInterpolatedDiffValues queryKeys = .ok values ∧
      values.length = queryKeys.length) ∧
    ∃ values, self.getSplineInterpolatedQuadDiffValues queryKeys = .ok values ∧
      values.length = queryKeys.length

structure CroppedSuffices (baseKeys baseValues queryKeys : List K) : Prop where
  behind : ∀ queryKey ∈ queryKeys.dropLast, queryKey ≤ baseKeys.getLastD 0
  before : ∀ queryKey ∈ queryKeys.tail,
    baseKeys.headD 0 ≤ queryKey ∨ baseValues[0]? = baseValues[1]?

theorem spline_answers {front back : K} (hvalid : Validated baseKeys queryKeys validated front back)
    (hkeys : validateKeys baseKeys queryKeys = .ok validated)
    (hvalues : validateKeysAndValues baseKeys baseValues = .ok ())
    (hle : ∀ other ∈ queryKeys.dropLast, other ≤ back) :
    ∃ self, calcSplineCoefficients baseKeys baseValues = .ok self ∧
      (∃ values, self.getSplineInterpolatedValues queryKeys = .ok values ∧
        values.length = queryKeys.length) ∧
      (∃ values, self.getSplineInterpolatedDiffValues queryKeys = .ok values ∧
        values.length = queryKeys.length) ∧
      ∃ values, self.getSplineInterpolatedQuadDiffValues queryKeys = .ok values ∧
        values.length = queryKeys.length := by
  obtain ⟨self, hself, hbase, ha, hb, hc, hd⟩ := calcSplineCoefficients_ok hvalues
  subst hbase
  refine ⟨self, hself, ?_, ?_, ?_⟩
  · obtain ⟨values, hloop, hlength⟩ := hvalid.queryLoop_length self.valueAt
      (fun j queryKey hj => SplineInterpolation.valueAt_ok (by omega) (by omega) (by omega)
        (by omega) (by omega)) hle
    exact ⟨values, bind_eq_ok.mpr ⟨validated, hkeys, hloop⟩, hlength⟩
  · obtain ⟨values, hloop, hlength⟩ := hvalid.queryLoop_length self.diffValueAt
      (fun j queryKey hj => SplineInterpolation.diffValueAt_ok (by omega) (by omega) (by omega)
        (by omega)) hle
    exact ⟨values, bind_eq_ok.mpr ⟨validated, hkeys, hloop⟩, hlength⟩
  · obtain ⟨values, hloop, hlength⟩ := hvalid.queryLoop_length self.quadDiffValueAt
      (fun j queryKey hj => SplineInterpolation.quadDiffValueAt_ok (by omega) (by omega)
        (by omega)) hle
    exact ⟨values, bind_eq_ok.mpr ⟨validated, hkeys, hloop⟩, hlength⟩

/-- Interpolation answers accepted queries with the values at the clamped keys if and only if
cropping the first and the last query key is enough. -/
theorem answersQueries_iff (hkeys : validateKeys baseKeys queryKeys = .ok validated)
    (hvalues : validateKeysAndValues baseKeys baseValues = .ok ()) :
    AnswersQueries baseKeys baseValues queryKeys ↔
      CroppedSuffices baseKeys baseValues queryKeys := by
  obtain ⟨front, back, hvalid⟩ := validated_of_ok hkeys
  have hlength := validateKeysAndValues_eq_ok hvalues
  have hfront := hvalid.headD_eq
  have hback := hvalid.getLastD_eq
  constructor
  · rintro ⟨⟨values, hlerp, hanswers⟩, _⟩
    obtain ⟨_, hvalidated, hlerp⟩ := bind_eq_ok.mp hlerp
    cases hkeys.symm.trans hvalidated
    obtain ⟨_, _, hlerp⟩ := bind_eq_ok.mp hlerp
    have hle := hvalid.dropLast_le hlerp
    obtain ⟨found, hloop, hiff⟩ := hvalid.lerp_loop_iff hlength hle
    cases hlerp.symm.trans hloop
    simp only [clampKey, hfront, hback] at hanswers
    exact ⟨by rwa [hback], by rw [hfront]; exact hiff.mp hanswers⟩
  · rintro ⟨hbehind, hbefore⟩
    rw [hback] at hbehind
    rw [hfront] at hbefore
    obtain ⟨values, hloop, hiff⟩ := hvalid.lerp_loop_iff hlength hbehind
    refine ⟨⟨values, ?_, ?_⟩, spline_answers hvalid hkeys hvalues hbehind⟩
    · exact bind_eq_ok.mpr ⟨validated, hkeys, bind_eq_ok.mpr ⟨(), hvalues, hloop⟩⟩
    · simp only [clampKey, hfront, hback]
      exact hiff.mpr hbefore

theorem answersQueries_twoKeys : AnswersQueries [0, 1] [0, 2] [0, (1 / 2 : ℚ), 1] ↔
      CroppedSuffices [0, 1] [0, 2] [0, (1 / 2 : ℚ), 1] :=
  answersQueries_iff (show _ = Except.ok [0, 1 / 2, 1] by decide +kernel) (by decide +kernel)

/-- Two query keys in the tolerance behind the base keys: the search leaves the base keys. -/
theorem answersQueries_behind :
    validateKeys [0, 1] [(2001 / 2000 : ℚ), 2001 / 2000] = .ok [2001 / 2000, 1] ∧
      validateKeysAndValues [(0 : ℚ), 1] [(0 : ℚ), 2] = .ok () ∧
      ¬ AnswersQueries [0, 1] [0, 2] [(2001 / 2000 : ℚ), 2001 / 2000] := by
  refine ⟨by decide +kernel, by decide +kernel, ?_⟩
  rintro ⟨⟨values, hlerp, _⟩, _⟩
  have hfailed : lerp [0, 1] [0, 2] [(2001 / 2000 : ℚ), 2001 / 2000] = .error .outOfRange := by
    decide +kernel
  rw [hfailed] at hlerp
  cases hlerp

end

/-!
# Queries inside the base keys

Sorted queries between the first and the last of at least two increasing base
keys pass all checks, and every value is on the line between its neighbours.
-/

open Library.Fallible

variable {K : Type}

section

variable {holds : K → K → Bool} {values : List K}

theorem all_adjacent_of_isChain
    (hchain : values.IsChain fun first second => holds first second = true) :
    ((values.zip values.tail).all fun pair => holds pair.1 pair.2) = true := by
  induction values with
  | nil => rfl
  | cons first later ih =>
    cases later with
    | nil => rfl
    | cons second later =>
      rw [List.isChain_cons_cons] at hchain
      rw [List.tail_cons, List.zip_cons_cons, List.all_cons, Bool.and_eq_true]
      exact ⟨hchain.1, ih hchain.2⟩

theorem allAdjacent_of_isChain (hne : values ≠ [])
    (hchain : values.IsChain fun first second => holds first second = true) :
    allAdjacent holds values = .ok true := by
  have hempty : ¬values.isEmpty = true := mt List.isEmpty_iff.mp hne
  rw [allAdjacent, if_neg hempty, all_adjacent_of_isChain hchain]

end

variable [LinearOrder K] {baseKeys queryKeys : List K}

theorem isIncreasing_of_pairwise (hne : baseKeys ≠ []) (hsorted : baseKeys.Pairwise (· < ·)) :
    isIncreasing baseKeys = .ok true :=
  allAdjacent_of_isChain hne (hsorted.isChain.imp fun _ _ hlt => decide_eq_true hlt)

theorem isNotDecreasing_of_pairwise (hne : queryKeys ≠ []) (hsorted : queryKeys.Pairwise (· ≤ ·)) :
    isNotDecreasing queryKeys = .ok true :=
  allAdjacent_of_isChain hne (hsorted.isChain.imp fun _ _ hle => decide_eq_true hle)

theorem pairwise_of_isIncreasing (hincreasing : isIncreasing baseKeys = .ok true) :
    baseKeys.Pairwise (· < ·) :=
  List.isChain_iff_pairwise.mp
    ((allAdjacent_eq_ok hincreasing).imp fun _ _ hlt => of_decide_eq_true hlt)

variable [Field K] [IsStrictOrderedRing K] {baseValues : List K} {front back : K}

theorem validateKeys_of_inside (htwo : 2 ≤ baseKeys.length)
    (hincreasing : baseKeys.Pairwise (· < ·)) (hfront : baseKeys.head? = some front)
    (hback : baseKeys.getLast? = some back) (hne : queryKeys ≠ [])
    (hsorted : queryKeys.Pairwise (· ≤ ·))
    (hinside : ∀ queryKey ∈ queryKeys, front ≤ queryKey ∧ queryKey ≤ back) :
    validateKeys baseKeys queryKeys = .ok (cropped front back queryKeys) := by
  have hbase : baseKeys ≠ [] := List.ne_nil_of_length_pos (by omega)
  have hepsilon : (0 : K) < epsilon := by
    unfold epsilon
    norm_num
  have hfirst : atIndex queryKeys 0 = .ok (queryKeys.head hne) := by
    rw [atIndex_eq_ok, ← List.head?_eq_getElem?, List.head?_eq_some_head hne]
  have hlast : atIndex queryKeys (queryKeys.length - 1) = .ok (queryKeys.getLast hne) := by
    rw [atIndex_eq_ok, ← List.getLast?_eq_getElem?, List.getLast?_eq_some_getLast hne]
  have hfrontAt : atIndex baseKeys 0 = .ok front := by
    rw [atIndex_eq_ok, ← List.head?_eq_getElem?, hfront]
  have hbackAt : atIndex baseKeys (baseKeys.length - 1) = .ok back := by
    rw [atIndex_eq_ok, ← List.getLast?_eq_getElem?, hback]
  unfold validateKeys
  rw [if_neg (by simp [hbase, hne]), if_neg (by omega)]
  refine bind_eq_ok.mpr ⟨true, isIncreasing_of_pairwise hbase hincreasing, ?_⟩
  refine bind_eq_ok.mpr ⟨true, isNotDecreasing_of_pairwise hne hsorted, ?_⟩
  rw [if_neg (by decide)]
  refine bind_eq_ok.mpr ⟨front, hfrontAt, bind_eq_ok.mpr ⟨back, hbackAt, ?_⟩⟩
  refine bind_eq_ok.mpr ⟨_, hfirst, bind_eq_ok.mpr ⟨_, hlast, if_neg ?_⟩⟩
  rintro (hbefore | hbehind)
  · exact absurd (hinside _ (List.head_mem hne)).1 (by linarith)
  · exact absurd (hinside _ (List.getLast_mem hne)).2 (by linarith)

theorem lerp_of_inside (baseValues : List K) (hlength : baseKeys.length = baseValues.length)
    (htwo : 2 ≤ baseKeys.length) (hincreasing : baseKeys.Pairwise (· < ·))
    (hfront : baseKeys.head? = some front) (hback : baseKeys.getLast? = some back)
    (hne : queryKeys ≠ []) (hsorted : queryKeys.Pairwise (· ≤ ·))
    (hinside : ∀ queryKey ∈ queryKeys, front ≤ queryKey ∧ queryKey ≤ back) :
    ∃ values, lerp baseKeys baseValues queryKeys = .ok values ∧
      List.Forall₂ (Interpolates baseKeys baseValues) queryKeys values := by
  have hkeys := validateKeys_of_inside htwo hincreasing hfront hback hne hsorted hinside
  have hvalid : Validated baseKeys queryKeys (cropped front back queryKeys) front back :=
    ⟨by rw [← List.head?_eq_getElem?, hfront], hback, htwo, hne, hincreasing, hsorted, rfl⟩
  obtain ⟨values, hloop, hanswers⟩ := hvalid.lerp_loop_iff hlength
    fun other hother => (hinside other (List.dropLast_subset _ hother)).2
  refine ⟨values, ?_, ?_⟩
  · exact bind_eq_ok.mpr ⟨_, hkeys, bind_eq_ok.mpr ⟨(), validateKeysAndValues_ok htwo hlength,
      hloop⟩⟩
  · have hanswers := hanswers.mpr fun queryKey hmem =>
      .inl (hinside queryKey (List.mem_of_mem_tail hmem)).1
    rw [List.forall₂_iff_get] at hanswers ⊢
    refine ⟨hanswers.1, fun i hi hi' => ?_⟩
    have hanswer := hanswers.2 i hi hi'
    obtain ⟨hle, hge⟩ := hinside _ (List.get_mem queryKeys ⟨i, hi⟩)
    rwa [max_eq_left hle, min_eq_left hge] at hanswer

end

open Library.Fallible

variable {K : Type} [Field K] [LinearOrder K]

def segmentSlope (baseKeys baseValues : List K) (i : ℕ) : Except Failure K := do
  let nextValue ← atIndex baseValues (i + 1)
  let value ← atIndex baseValues i
  let nextKey ← atIndex baseKeys (i + 1)
  let key ← atIndex baseKeys i
  return (nextValue - value) / (nextKey - key)

def keySlope (numBase : ℕ) (mValues : List K) (i : ℕ) : Except Failure K :=
  if i = 0 then atIndex mValues 0
  else if i = numBase - 1 then atIndex mValues (mValues.length - 1)
  else if i = 1 ∨ i = numBase - 2 then do
    let before ← atIndex mValues (i - 1)
    let here ← atIndex mValues i
    return (before + here) / 2
  else do
    let after ← atIndex mValues (i + 1)
    let here ← atIndex mValues i
    let before ← atIndex mValues (i - 1)
    let earlier ← atIndex mValues (i - 2)
    let denom := |after - here| + |before - earlier|
    if |denom| < 1 / 100000 then return (before + here) / 2
    else return (|after - here| * before + |before - earlier| * here) / denom

/-- The coefficients of a segment in the order `a`, `b`, `c`, `d`. -/
def akimaSegment (baseKeys baseValues mValues sValues : List K) (i : ℕ) :
    Except Failure (K × K × K × K) := do
  let s ← atIndex sValues i
  let nextS ← atIndex sValues (i + 1)
  let m ← atIndex mValues i
  let nextKey ← atIndex baseKeys (i + 1)
  let key ← atIndex baseKeys i
  let value ← atIndex baseValues i
  let ds := nextKey - key
  return ((s + nextS - 2 * m) / (ds * ds), (3 * m - 2 * s - nextS) / ds, s, value)

def akimaInterpolator (baseKeys : List K) (coefs : List (K × K × K × K)) :
    SplineInterpolation K where
  baseKeys := baseKeys
  multiSplineCoef :=
    { a := coefs.map fun coef => coef.1
      b := coefs.map fun coef => coef.2.1
      c := coefs.map fun coef => coef.2.2.1
      d := coefs.map fun coef => coef.2.2.2 }

def splineByAkima (baseKeys baseValues queryKeys : List K) : Except Failure (List K) := do
  let segments := List.range (baseKeys.length - 1)
  let mValues ← segments.mapM (segmentSlope baseKeys baseValues)
  let sValues ← (List.range baseKeys.length).mapM (keySlope baseKeys.length mValues)
  let coefs ← segments.mapM (akimaSegment baseKeys baseValues mValues sValues)
  queryLoop baseKeys (akimaInterpolator baseKeys coefs).valueAt 0 queryKeys

variable {baseKeys baseValues : List K}

omit [Field K] [LinearOrder K] in
theorem succeeds_atIndex {α : Type} {values : List α} {idx : ℕ} (hidx : idx < values.length) :
    Succeeds (atIndex values idx) fun _ => True := by
  obtain ⟨value, hvalue⟩ := exists_atIndex hidx
  exact ⟨value, hvalue, trivial⟩

omit [LinearOrder K] in
theorem segmentSlope_succeeds (hlength : baseKeys.length = baseValues.length) {i : ℕ}
    (hi : i < baseKeys.length - 1) : Succeeds (segmentSlope baseKeys baseValues i) fun _ => True :=
  .bind (succeeds_atIndex (by omega)) fun _ _ => .bind (succeeds_atIndex (by omega)) fun _ _ =>
    .bind (succeeds_atIndex (by omega)) fun _ _ => .bind (succeeds_atIndex (by omega)) fun _ _ =>
      .ok trivial

theorem keySlope_succeeds {numBase : ℕ} {mValues : List K} (htwo : 2 ≤ numBase)
    (hlength : mValues.length = numBase - 1) {i : ℕ} (hi : i < numBase) :
    Succeeds (keySlope numBase mValues i) fun _ => True := by
  unfold keySlope
  split_ifs with hfirst hlast hnear
  · exact succeeds_atIndex (by omega)
  · exact succeeds_atIndex (by omega)
  · exact .bind (succeeds_atIndex (by omega)) fun _ _ =>
      .bind (succeeds_atIndex (by omega)) fun _ _ => .ok trivial
  · refine .bind (succeeds_atIndex (by omega)) fun _ _ =>
      .bind (succeeds_atIndex (by omega)) fun _ _ => .bind (succeeds_atIndex (by omega)) fun _ _ =>
        .bind (succeeds_atIndex (by omega)) fun _ _ => ?_
    dsimp only
    split_ifs
    · exact .ok trivial
    · exact .ok trivial

omit [LinearOrder K] in
theorem akimaSegment_succeeds {mValues sValues : List K}
    (hlength : baseKeys.length = baseValues.length) (hm : mValues.length = baseKeys.length - 1)
    (hs : sValues.length = baseKeys.length) {i : ℕ} (hi : i < baseKeys.length - 1) :
    Succeeds (akimaSegment baseKeys baseValues mValues sValues i) fun _ => True :=
  .bind (succeeds_atIndex (by omega)) fun _ _ => .bind (succeeds_atIndex (by omega)) fun _ _ =>
    .bind (succeeds_atIndex (by omega)) fun _ _ => .bind (succeeds_atIndex (by omega)) fun _ _ =>
      .bind (succeeds_atIndex (by omega)) fun _ _ => .bind (succeeds_atIndex (by omega)) fun _ _ =>
        .ok trivial

/-- There is a value for each query key. -/
theorem splineByAkima_succeeds {queryKeys validated : List K} {front back : K}
    (hvalid : Validated baseKeys queryKeys validated front back)
    (hlength : baseKeys.length = baseValues.length) (hle : ∀ queryKey ∈ queryKeys, queryKey ≤ back) :
    Succeeds (splineByAkima baseKeys baseValues queryKeys)
      fun values => values.length = queryKeys.length := by
  have htwo := hvalid.two
  refine .bind (.mapM fun i hi => segmentSlope_succeeds hlength (List.mem_range.mp hi))
    fun mValues hm => ?_
  rw [List.length_range] at hm
  refine .bind (.mapM fun i hi => keySlope_succeeds htwo hm (List.mem_range.mp hi))
    fun sValues hs => ?_
  rw [List.length_range] at hs
  refine .bind (.mapM fun i hi => akimaSegment_succeeds hlength hm hs (List.mem_range.mp hi))
    fun coefs hcoefs => ?_
  rw [List.length_range] at hcoefs
  have hvalue (j : ℕ) (queryKey : K) (hj : j + 1 < baseKeys.length) :
      ∃ value, (akimaInterpolator baseKeys coefs).valueAt j queryKey = .ok value := by
    apply SplineInterpolation.valueAt_ok
    · exact Nat.lt_of_succ_lt hj
    all_goals
      dsimp only [akimaInterpolator]
      rw [List.length_map]
      omega
  obtain ⟨values, hloop, hvalues⟩ := queryLoop_forall₂ hvalid.increasing hvalid.frontKey
    hvalid.backKey hvalue htwo hle (hvalid.notDecreasing.imp fun hle => .inl hle) (.inl rfl)
  exact ⟨values, hloop, hvalues.length_eq.symm⟩

end

/-!
## Zero order hold

Each query is answered with the value of the last base key that is not later than it, up to a
threshold.  The search for the base key goes backwards and ends at the answer of the query
before.  With a positive threshold that answer is always right; without a threshold a query
that is on a base key is in no segment, since both ends of a segment are excluded, and keeps
the answer of the query before.
-/

open Library.Fallible

variable {K : Type} [Field K] [LinearOrder K]

def searchBackward (baseKeys : List K) (overlapThreshold queryKey : K) (closestSegmentIdx : ℕ) :
    ℕ → Except Failure ℕ
  | 0 => .ok closestSegmentIdx
  | j + 1 =>
    if closestSegmentIdx < j + 1 then do
      let key ← atIndex baseKeys j
      if key - overlapThreshold < queryKey then
        let nextKey ← atIndex baseKeys (j + 1)
        if queryKey < nextKey then return j
        else searchBackward baseKeys overlapThreshold queryKey closestSegmentIdx j
      else searchBackward baseKeys overlapThreshold queryKey closestSegmentIdx j
    else .ok closestSegmentIdx

def closestSegment (baseKeys : List K) (overlapThreshold queryKey : K)
    (closestSegmentIdx : ℕ) : Except Failure ℕ := do
  let back ← atIndex baseKeys (baseKeys.length - 1)
  if back - overlapThreshold < queryKey then return baseKeys.length - 1
  else
    searchBackward baseKeys overlapThreshold queryKey closestSegmentIdx (baseKeys.length - 1)

def closestSegmentLoop (baseKeys : List K) (overlapThreshold : K) :
    ℕ → List K → Except Failure (List ℕ)
  | _, [] => .ok []
  | closestSegmentIdx, queryKey :: later => do
    let closestSegmentIdx ← closestSegment baseKeys overlapThreshold queryKey closestSegmentIdx
    let indices ← closestSegmentLoop baseKeys overlapThreshold closestSegmentIdx later
    return closestSegmentIdx :: indices

def calcClosestSegmentIndices (baseKeys queryKeys : List K) (overlapThreshold : K) :
    Except Failure (List ℕ) := do
  let validatedQueryKeys ← validateKeys baseKeys queryKeys
  closestSegmentLoop baseKeys overlapThreshold 0 validatedQueryKeys

/-- `zero_order_hold` with the closest segments of the queries. -/
def zeroOrderHoldAt {α : Type} (baseKeys : List K) (baseValues : List α)
    (closestSegmentIndices : List ℕ) : Except Failure (List α) := do
  validateKeysAndValues baseKeys baseValues
  closestSegmentIndices.mapM (atIndex baseValues)

def zeroOrderHold {α : Type} (baseKeys : List K) (baseValues : List α) (queryKeys : List K)
    (overlapThreshold : K) : Except Failure (List α) := do
  let closestSegmentIndices ← calcClosestSegmentIndices baseKeys queryKeys overlapThreshold
  zeroOrderHoldAt baseKeys baseValues closestSegmentIndices

structure IsClosest (baseKeys : List K) (overlapThreshold queryKey : K) (k : ℕ) : Prop where
  lt_length : k < baseKeys.length
  before : k = 0 ∨ ∃ key, baseKeys[k]? = some key ∧ key - overlapThreshold < queryKey
  behind : ∀ i key, k < i → baseKeys[i]? = some key → queryKey ≤ key - overlapThreshold

/-- What a search backwards finds: a segment behind the closest one so far, or nothing. -/
structure IsFound (baseKeys : List K) (overlapThreshold queryKey : K)
    (closestSegmentIdx last found : ℕ) : Prop where
  le : closestSegmentIdx ≤ found
  hit : found = closestSegmentIdx ∨ ∃ key nextKey, baseKeys[found]? = some key ∧
    baseKeys[found + 1]? = some nextKey ∧ key - overlapThreshold < queryKey ∧ queryKey < nextKey
  missed : ∀ i key nextKey, found < i → i < last → baseKeys[i]? = some key →
    baseKeys[i + 1]? = some nextKey → key - overlapThreshold < queryKey → nextKey ≤ queryKey

variable {baseKeys queryKeys validated : List K} {overlapThreshold queryKey front back : K}
variable {closestSegmentIdx last found : ℕ}

theorem searchBackward_found (hle : closestSegmentIdx ≤ last) (hlast : last < baseKeys.length) :
    ∃ found, searchBackward baseKeys overlapThreshold queryKey closestSegmentIdx last =
        .ok found ∧ found ≤ last ∧
      IsFound baseKeys overlapThreshold queryKey closestSegmentIdx last found := by
  induction last with
  | zero =>
    exact ⟨closestSegmentIdx, rfl, hle, le_rfl, .inl rfl,
      fun i _ _ _ hi => absurd hi (Nat.not_lt_zero i)⟩
  | succ j ih =>
    unfold searchBackward
    by_cases hbefore : closestSegmentIdx < j + 1
    · have hkey := List.getElem?_eq_getElem (Nat.lt_of_succ_lt hlast)
      have hnext := List.getElem?_eq_getElem hlast
      obtain ⟨found, hsearch, hfoundLe, hfound⟩ :=
        ih (Nat.le_of_lt_succ hbefore) (Nat.lt_of_succ_lt hlast)
      -- The search goes on unless the query key is inside the segment.
      have hlater (hmissed : baseKeys[j] - overlapThreshold < queryKey →
          baseKeys[j + 1] ≤ queryKey) :
          IsFound baseKeys overlapThreshold queryKey closestSegmentIdx (j + 1) found := by
        refine ⟨hfound.le, hfound.hit, fun i key nextKey hi hij hkeyAt hnextAt hlt => ?_⟩
        rcases Nat.lt_succ_iff_lt_or_eq.mp hij with hij | rfl
        · exact hfound.missed i key nextKey hi hij hkeyAt hnextAt hlt
        · rw [hkey] at hkeyAt
          rw [hnext] at hnextAt
          cases hkeyAt
          cases hnextAt
          exact hmissed hlt
      rw [if_pos hbefore, atIndex_eq_ok.mpr hkey]
      by_cases hlt : baseKeys[j] - overlapThreshold < queryKey
      · rw [show (Except.ok baseKeys[j] >>= _) = _ from if_pos hlt, atIndex_eq_ok.mpr hnext]
        by_cases hinside : queryKey < baseKeys[j + 1]
        · refine ⟨j, if_pos hinside, Nat.le_succ j, Nat.le_of_lt_succ hbefore,
            .inr ⟨_, _, hkey, hnext, hlt, hinside⟩, fun i _ _ hi hij => ?_⟩
          exact absurd hij (Nat.not_lt.mpr hi)
        · exact ⟨found, (if_neg hinside).trans hsearch, hfoundLe.trans (Nat.le_succ j),
            hlater fun _ => not_lt.mp hinside⟩
      · exact ⟨found, (if_neg hlt).trans hsearch, hfoundLe.trans (Nat.le_succ j),
          hlater fun hbase => absurd hbase hlt⟩
    · rw [if_neg hbefore]
      exact ⟨closestSegmentIdx, rfl, hle, le_rfl, .inl rfl,
        fun i _ _ hi hij => absurd hi (by omega)⟩

theorem IsFound.missed_segment
    (hfound : IsFound baseKeys overlapThreshold queryKey closestSegmentIdx
      (baseKeys.length - 1) found)
    (hback : baseKeys[baseKeys.length - 1]? = some back)
    (hle : queryKey ≤ back - overlapThreshold) {i : ℕ} {key : K} (hi : found < i)
    (hkey : baseKeys[i]? = some key) (hlt : key - overlapThreshold < queryKey) :
    ∃ m first second, found < m ∧ baseKeys[m]? = some first ∧ baseKeys[m + 1]? = some second ∧
      first - overlapThreshold < queryKey ∧ second ≤ queryKey ∧
      queryKey ≤ second - overlapThreshold := by
  -- The induction is on the number of base keys behind the one that is before the query key.
  induction hrest : baseKeys.length - 1 - i generalizing i key with
  | zero =>
    have hlength := (List.getElem?_eq_some_iff.mp hkey).1
    have hi' : i = baseKeys.length - 1 := by omega
    rw [hi', hback] at hkey
    cases hkey
    exact absurd hle (not_le.mpr hlt)
  | succ rest ih =>
    have hnext := List.getElem?_eq_getElem (show i + 1 < baseKeys.length by omega)
    by_cases hbefore : baseKeys[i + 1] - overlapThreshold < queryKey
    · exact ih (Nat.lt_succ_of_lt hi) hnext hbefore (by omega)
    · exact ⟨i, key, _, hi, hkey, hnext, hlt,
        hfound.missed i key _ hi (by omega) hkey hnext hlt, not_lt.mp hbefore⟩

/-! ## One query -/

def NotOntoKey (baseKeys : List K) (previous current : K) : Prop :=
  ∀ m key, 1 ≤ m → baseKeys[m]? = some key → baseKeys[m + 1]? = some current → key < previous

structure Carried (baseKeys : List K) (overlapThreshold front previous queryKey : K)
    (closestSegmentIdx : ℕ) : Prop where
  lt_length : closestSegmentIdx < baseKeys.length
  before : closestSegmentIdx = 0 ∨
    ∃ key, baseKeys[closestSegmentIdx]? = some key ∧ key - overlapThreshold < previous
  outside : queryKey < front → IsClosest baseKeys overlapThreshold front closestSegmentIdx
  exact : overlapThreshold = 0 → IsClosest baseKeys overlapThreshold previous closestSegmentIdx

/-- The closest base key to a query before the base keys is the one to the first of them. -/
theorem IsFound.eq_of_lt (hle : queryKey ≤ front)
    (hclosest : IsClosest baseKeys overlapThreshold front closestSegmentIdx)
    (hfound : IsFound baseKeys overlapThreshold queryKey closestSegmentIdx last found) :
    found = closestSegmentIdx := by
  rcases hfound.hit with heq | ⟨key, _, hkey, _, hlt, _⟩
  · exact heq
  · refine Nat.le_antisymm (Nat.not_lt.mp fun hbehind => ?_) hfound.le
    exact absurd (hlt.trans_le hle) (hclosest.behind found key hbehind hkey).not_gt

/-- A query is answered with the last base key or with what the search finds. -/
theorem closestSegment_found (hback : baseKeys[baseKeys.length - 1]? = some back)
    (hlength : closestSegmentIdx < baseKeys.length) :
    ∃ found, closestSegment baseKeys overlapThreshold queryKey closestSegmentIdx = .ok found ∧
      closestSegmentIdx ≤ found ∧ found < baseKeys.length ∧
      (back - overlapThreshold < queryKey ∧ found = baseKeys.length - 1 ∨
        queryKey ≤ back - overlapThreshold ∧
          IsFound baseKeys overlapThreshold queryKey closestSegmentIdx (baseKeys.length - 1)
            found) := by
  unfold closestSegment
  rw [atIndex_eq_ok.mpr hback]
  by_cases hbehind : back - overlapThreshold < queryKey
  · exact ⟨baseKeys.length - 1, if_pos hbehind, by omega, by omega, .inl ⟨hbehind, rfl⟩⟩
  · obtain ⟨found, hsearch, hle, hfound⟩ :=
      @searchBackward_found K _ _ baseKeys overlapThreshold queryKey closestSegmentIdx
        (baseKeys.length - 1) (by omega) (by omega)
    exact ⟨found, (if_neg hbehind).trans hsearch, hfound.le, by omega,
      .inr ⟨not_lt.mp hbehind, hfound⟩⟩

theorem IsClosest.carried {current nextKey : K}
    (hclosest : IsClosest baseKeys overlapThreshold current found)
    (houtside : nextKey < front → current = front) :
    Carried baseKeys overlapThreshold front current nextKey found :=
  ⟨hclosest.lt_length, hclosest.before, fun hlt => houtside hlt ▸ hclosest, fun _ => hclosest⟩

/-- The indices are in the base keys and do not decrease. -/
theorem closestSegmentLoop_ok (hback : baseKeys[baseKeys.length - 1]? = some back)
    (hlength : closestSegmentIdx < baseKeys.length) (queries : List K) :
    ∃ indices,
      closestSegmentLoop baseKeys overlapThreshold closestSegmentIdx queries = .ok indices ∧
      (closestSegmentIdx :: indices).Pairwise (· ≤ ·) ∧ ∀ k ∈ indices, k < baseKeys.length := by
  induction queries generalizing closestSegmentIdx with
  | nil => exact ⟨[], rfl, List.pairwise_singleton _ _, fun _ hmem => absurd hmem List.not_mem_nil⟩
  | cons queryKey later ih =>
    obtain ⟨found, hclosest, hle, hfound, _⟩ :=
      @closestSegment_found K _ _ baseKeys overlapThreshold queryKey back closestSegmentIdx
        hback hlength
    obtain ⟨indices, hloop, hsorted, hvalid⟩ := ih hfound
    refine ⟨found :: indices, ?_, ?_, List.forall_mem_cons.mpr ⟨hfound, hvalid⟩⟩
    · unfold closestSegmentLoop
      exact bind_eq_ok.mpr ⟨found, hclosest, bind_eq_ok.mpr ⟨indices, hloop, rfl⟩⟩
    · refine List.pairwise_cons.mpr ⟨fun k hmem => ?_, hsorted⟩
      rcases List.mem_cons.mp hmem with rfl | hlater
      · exact hle
      · exact hle.trans ((List.pairwise_cons.mp hsorted).1 k hlater)

variable {indices : List ℕ}

theorem closestSegmentLoop_length {queries : List K}
    (hloop : closestSegmentLoop baseKeys overlapThreshold closestSegmentIdx queries =
      .ok indices) : indices.length = queries.length := by
  induction queries generalizing closestSegmentIdx indices with
  | nil =>
    cases hloop
    rfl
  | cons queryKey later ih =>
    unfold closestSegmentLoop at hloop
    obtain ⟨found, _, hloop⟩ := bind_eq_ok.mp hloop
    obtain ⟨others, hothers, hloop⟩ := bind_eq_ok.mp hloop
    cases hloop
    rw [List.length_cons, List.length_cons, ih hothers]

namespace Validated

variable (hvalid : Validated baseKeys queryKeys validated front back)

include hvalid

theorem carried_first :
    ∀ queryKey ∈ validated.head?, Carried baseKeys overlapThreshold front front queryKey 0 := by
  intro queryKey hmem
  have htwo := hvalid.two
  refine ⟨by omega, .inl rfl, fun hlt => ?_, fun hzero => ⟨by omega, .inl rfl, ?_⟩⟩
  · rw [hvalid.crop] at hmem
    cases queryKeys with
    | nil => exact absurd rfl hvalid.ne_nil
    | cons first later =>
      cases later with
      | nil =>
        cases hmem
        exact absurd hlt (not_lt.mpr (le_min (le_max_right _ _) hvalid.front_le_back))
      | cons second rest =>
        cases hmem
        exact absurd hlt (not_lt.mpr (le_max_right _ _))
  · intro i key _ hkey
    rw [hzero, sub_zero]
    exact front_le hvalid.increasing hvalid.frontKey (List.mem_of_getElem? hkey)

end Validated

variable [IsStrictOrderedRing K]
variable {previous : K}

theorem isClosest_last_iff (htwo : 2 ≤ baseKeys.length)
    (hback : baseKeys[baseKeys.length - 1]? = some back)
    (hbehind : back - overlapThreshold < queryKey) :
    IsClosest baseKeys overlapThreshold (min (max queryKey front) back) (baseKeys.length - 1) ↔
      0 < overlapThreshold ∨
        queryKey ≤ back ∧ NotOntoKey baseKeys previous (min (max queryKey front) back) := by
  constructor
  · rintro ⟨_, hzero | ⟨key, hkey, hlt⟩, _⟩
    · omega
    · rw [hback] at hkey
      cases hkey
      have hlt := hlt.trans_le (min_le_right _ _)
      exact .inl (by linarith)
  · intro hgood
    have hpos : 0 < overlapThreshold := by
      rcases hgood with hpos | ⟨hle, _⟩
      · exact hpos
      · linarith
    refine ⟨by omega, .inr ⟨back, hback, ?_⟩, fun i key hi hkey => ?_⟩
    · exact lt_min (hbehind.trans_le (le_max_left _ _)) (by linarith)
    · have hlength := (List.getElem?_eq_some_iff.mp hkey).1
      omega

theorem IsFound.isClosest_iff (hsorted : baseKeys.Pairwise (· < ·))
    (hback : baseKeys[baseKeys.length - 1]? = some back) (hthreshold : 0 ≤ overlapThreshold)
    (hle : queryKey ≤ back - overlapThreshold)
    (hcarried : Carried baseKeys overlapThreshold front previous queryKey closestSegmentIdx)
    (horder : previous ≤ queryKey) (hlength : found < baseKeys.length)
    (hfound : IsFound baseKeys overlapThreshold queryKey closestSegmentIdx
      (baseKeys.length - 1) found) :
    IsClosest baseKeys overlapThreshold queryKey found ↔
      0 < overlapThreshold ∨ NotOntoKey baseKeys previous queryKey := by
  have hbefore : found = 0 ∨
      ∃ key, baseKeys[found]? = some key ∧ key - overlapThreshold < queryKey := by
    rcases hfound.hit with rfl | ⟨key, _, hkey, _, hlt, _⟩
    · exact hcarried.before.imp_right fun ⟨key, hkey, hlt⟩ => ⟨key, hkey, hlt.trans_le horder⟩
    · exact .inr ⟨key, hkey, hlt⟩
  constructor
  · intro hclosest
    by_cases hpos : 0 < overlapThreshold
    · exact .inl hpos
    have hzero : overlapThreshold = 0 := le_antisymm (not_lt.mp hpos) hthreshold
    subst hzero
    -- The query is on base key `m + 1`, so base key `m` is the closest one.
    refine .inr fun m key hm hkey hcurrent => ?_
    have hm' : found = m := by
      refine Nat.le_antisymm ?_ ?_
      · by_contra hbehind
        rcases hclosest.before with rfl | ⟨other, hother, hlt⟩
        · exact hbehind (Nat.zero_le m)
        · rw [sub_zero] at hlt
          rcases Nat.lt_or_eq_of_le (Nat.lt_of_not_le hbehind) with hm' | rfl
          · exact absurd hlt (key_lt_key hsorted hm' hcurrent hother).not_gt
          · rw [hcurrent] at hother
            exact absurd hlt (Option.some.inj hother ▸ lt_irrefl _)
      · by_contra hbehind
        have hge := hclosest.behind m key (Nat.lt_of_not_le hbehind) hkey
        rw [sub_zero] at hge
        exact absurd (key_lt_key hsorted (Nat.lt_succ_self m) hkey hcurrent) hge.not_gt
    subst hm'
    rcases hfound.hit with rfl | ⟨_, nextKey, _, hnext, _, hlt⟩
    · rcases hcarried.before with rfl | ⟨other, hother, hlt⟩
      · omega
      · rw [hkey] at hother
        cases hother
        rwa [sub_zero] at hlt
    · rw [hcurrent] at hnext
      exact absurd hlt (Option.some.inj hnext ▸ lt_irrefl _)
  · intro hgood
    refine ⟨hlength, hbefore, fun i key hi hkey => ?_⟩
    by_contra hlt
    obtain ⟨m, first, second, hm, hfirst, hsecond, hfirstLt, hsecondLe, hleSecond⟩ :=
      hfound.missed_segment hback hle hi hkey (not_le.mp hlt)
    have hzero : overlapThreshold = 0 := le_antisymm (by linarith) hthreshold
    subst hzero
    rw [sub_zero] at hfirstLt hleSecond
    have hsecondEq : second = queryKey := le_antisymm hsecondLe hleSecond
    subst hsecondEq
    -- The missed segment ends at the query, so nothing was found and the query before is late.
    have hprevious := (hgood.resolve_left (lt_irrefl 0)) m first (by omega) hfirst hsecond
    rcases hfound.hit with rfl | ⟨_, nextKey, _, hnext, _, hlt⟩
    · have hge := (hcarried.exact rfl).behind m first hm hfirst
      rw [sub_zero] at hge
      exact absurd hprevious hge.not_gt
    · have hlt' := key_lt_key hsorted (show found + 1 < m + 1 by omega) hnext hsecond
      exact absurd hlt hlt'.not_gt

theorem closestSegment_isClosest_iff (hvalid : Validated baseKeys queryKeys validated front back)
    (hthreshold : 0 ≤ overlapThreshold)
    (hcarried : Carried baseKeys overlapThreshold front previous queryKey closestSegmentIdx)
    (horder : previous ≤ min (max queryKey front) back)
    (hclosest : closestSegment baseKeys overlapThreshold queryKey closestSegmentIdx = .ok found) :
    IsClosest baseKeys overlapThreshold (min (max queryKey front) back) found ↔
      0 < overlapThreshold ∨
        queryKey ≤ back ∧ NotOntoKey baseKeys previous (min (max queryKey front) back) := by
  have hback : baseKeys[baseKeys.length - 1]? = some back := by
    rw [← List.getLast?_eq_getElem?, hvalid.backKey]
  obtain ⟨result, hresult, _, hlength, hcases⟩ := closestSegment_found hback hcarried.lt_length
  cases hclosest.symm.trans hresult
  rcases hcases with ⟨hbehind, rfl⟩ | ⟨hle, hfound⟩
  · exact isClosest_last_iff hvalid.two hback hbehind
  have hleBack : queryKey ≤ back := by linarith
  rw [and_iff_right hleBack]
  rcases lt_or_ge queryKey front with hbefore | hinside
  · -- Before the base keys nothing is found, and no base key but the first is at the front.
    have hclosest := hcarried.outside hbefore
    rw [max_eq_right hbefore.le, min_eq_left hvalid.front_le_back,
      hfound.eq_of_lt hbefore.le hclosest]
    refine iff_of_true hclosest (.inr fun m key _ _ hcurrent => ?_)
    exact absurd (key_lt_key hvalid.increasing (Nat.succ_pos m) hvalid.frontKey hcurrent)
      (lt_irrefl front)
  · rw [max_eq_left hinside, min_eq_left hleBack] at horder ⊢
    exact hfound.isClosest_iff hvalid.increasing hback hthreshold hle hcarried horder hlength

/-! ## All queries -/

theorem closestSegmentLoop_iff (hvalid : Validated baseKeys queryKeys validated front back)
    (hthreshold : 0 ≤ overlapThreshold) {queries : List K}
    (horder : (previous :: queries.map fun key => min (max key front) back).Pairwise (· ≤ ·))
    (hcarried : ∀ queryKey ∈ queries.head?,
      Carried baseKeys overlapThreshold front previous queryKey closestSegmentIdx)
    (hloop : closestSegmentLoop baseKeys overlapThreshold closestSegmentIdx queries = .ok indices) :
    List.Forall₂ (fun queryKey k =>
        IsClosest baseKeys overlapThreshold (min (max queryKey front) back) k) queries indices ↔
      0 < overlapThreshold ∨ (∀ queryKey ∈ queries, queryKey ≤ back) ∧
        (previous :: queries.map fun key => min (max key front) back).IsChain
          (NotOntoKey baseKeys) := by
  induction queries generalizing previous closestSegmentIdx indices with
  | nil =>
    cases hloop
    exact iff_of_true .nil
      (.inr ⟨fun _ hmem => absurd hmem List.not_mem_nil, List.IsChain.singleton _⟩)
  | cons queryKey later ih =>
    unfold closestSegmentLoop at hloop
    obtain ⟨found, hfound, hloop⟩ := bind_eq_ok.mp hloop
    obtain ⟨others, hothers, hloop⟩ := bind_eq_ok.mp hloop
    cases hloop
    obtain ⟨hfirst, horder⟩ := List.pairwise_cons.mp horder
    have hstep := closestSegment_isClosest_iff hvalid hthreshold
      (hcarried queryKey rfl) (hfirst _ List.mem_cons_self) hfound
    rw [List.forall₂_cons, List.forall_mem_cons, List.map_cons, List.isChain_cons_cons]
    -- Only an index that is right says something about the next one.
    have hlater (hclosest : IsClosest baseKeys overlapThreshold
        (min (max queryKey front) back) found) :=
      ih horder (fun nextKey hmem => hclosest.carried fun hnext => ?_) hothers
    · rw [hstep]
      constructor
      · rintro ⟨hgood, hothers⟩
        rcases (hlater (hstep.mpr hgood)).mp hothers with hpos | ⟨hle, hchain⟩
        · exact .inl hpos
        · exact hgood.imp_right fun ⟨hhead, hnot⟩ => ⟨⟨hhead, hle⟩, hnot, hchain⟩
      · rintro (hpos | ⟨⟨hhead, hle⟩, hnot, hchain⟩)
        · exact ⟨.inl hpos, (hlater (hstep.mpr (.inl hpos))).mpr (.inl hpos)⟩
        · have hgood := hstep.mpr (.inr ⟨hhead, hnot⟩)
          exact ⟨.inr ⟨hhead, hnot⟩, (hlater hgood).mpr (.inr ⟨hle, hchain⟩)⟩
    · have hmem := (List.pairwise_cons.mp horder).1 _
        (List.mem_map_of_mem (List.mem_of_mem_head? hmem))
      rw [max_eq_right hnext.le, min_eq_left hvalid.front_le_back] at hmem
      exact le_antisymm hmem (le_min (le_max_right _ _) hvalid.front_le_back)

structure HoldsClosest (baseKeys queryKeys : List K) (overlapThreshold : K) : Prop where
  indices : ∃ indices, calcClosestSegmentIndices baseKeys queryKeys overlapThreshold = .ok indices ∧
      indices.Pairwise (· ≤ ·) ∧
      List.Forall₂ (fun queryKey k =>
        IsClosest baseKeys overlapThreshold (clampKey baseKeys queryKey) k) queryKeys indices
  values : ∀ {α : Type} (baseValues : List α), baseValues.length = baseKeys.length →
    ∃ values, zeroOrderHold baseKeys baseValues queryKeys overlapThreshold = .ok values ∧
      List.Forall₂ (fun queryKey value => ∃ k,
        IsClosest baseKeys overlapThreshold (clampKey baseKeys queryKey) k ∧
          baseValues[k]? = some value) queryKeys values

structure SearchReaches (baseKeys queryKeys : List K) : Prop where
  behind : ∀ queryKey ∈ queryKeys.dropLast, queryKey ≤ baseKeys.getLastD 0
  onto : (baseKeys.headD 0 :: queryKeys.map (clampKey baseKeys)).IsChain (NotOntoKey baseKeys)

theorem calcClosestSegmentIndices_iff
    (hkeys : validateKeys baseKeys queryKeys = .ok validated) (hthreshold : 0 ≤ overlapThreshold)
    (hindices : calcClosestSegmentIndices baseKeys queryKeys overlapThreshold = .ok indices) :
    List.Forall₂ (fun queryKey k =>
        IsClosest baseKeys overlapThreshold (clampKey baseKeys queryKey) k) queryKeys indices ↔
      0 < overlapThreshold ∨ SearchReaches baseKeys queryKeys := by
  obtain ⟨front, back, hvalid⟩ := validated_of_ok hkeys
  have hclamp : clampKey baseKeys = fun key => min (max key front) back := by
    funext key
    rw [clampKey, hvalid.headD_eq, hvalid.getLastD_eq]
  obtain ⟨_, hvalidated, hloop⟩ := bind_eq_ok.mp hindices
  cases hkeys.symm.trans hvalidated
  have hiff := closestSegmentLoop_iff hvalid hthreshold hvalid.clamp_order hvalid.carried_first hloop
  rw [← List.forall₂_map_left_iff (f := fun key => min (max key front) back)
      (R := fun key k => IsClosest baseKeys overlapThreshold key k), hvalid.map_clamp,
    hvalid.le_back_iff] at hiff
  rw [← List.forall₂_map_left_iff (f := clampKey baseKeys)
    (R := fun key k => IsClosest baseKeys overlapThreshold key k), hclamp, hiff]
  refine or_congr_right ⟨fun hreaches => ⟨?_, ?_⟩, fun hreaches => ⟨?_, ?_⟩⟩
  · rw [hvalid.getLastD_eq]
    exact hreaches.1
  · rw [hclamp, hvalid.headD_eq]
    exact hreaches.2
  · have hbehind := hreaches.1
    rwa [hvalid.getLastD_eq] at hbehind
  · have honto := hreaches.2
    rwa [hclamp, hvalid.headD_eq] at honto

/-- The values at indices that are in the values. -/
theorem mapM_atIndex_ok {α : Type} {values : List α} (hindices : ∀ k ∈ indices, k < values.length) :
    ∃ results, indices.mapM (atIndex values) = .ok results ∧
      List.Forall₂ (fun k result => values[k]? = some result) indices results := by
  induction indices with
  | nil => exact ⟨[], rfl, .nil⟩
  | cons k later ih =>
    obtain ⟨hk, hlater⟩ := List.forall_mem_cons.mp hindices
    obtain ⟨results, hresults, hall⟩ := ih hlater
    obtain ⟨result, hresult⟩ := exists_atIndex hk
    refine ⟨result :: results, ?_, .cons (atIndex_eq_ok.mp hresult) hall⟩
    rw [List.mapM_cons]
    exact bind_eq_ok.mpr ⟨result, hresult, bind_eq_ok.mpr ⟨results, hresults, rfl⟩⟩

theorem forall₂_through {α β γ : Type} {R : α → β → Prop} {S : β → γ → Prop}
    {firsts : List α} {seconds : List β} {thirds : List γ} (hfirst : List.Forall₂ R firsts seconds)
    (hsecond : List.Forall₂ S seconds thirds) :
    List.Forall₂ (fun first third => ∃ second, R first second ∧ S second third) firsts thirds := by
  induction hfirst generalizing thirds with
  | nil =>
    cases hsecond
    exact .nil
  | cons hhead _ ih =>
    cases hsecond with
    | cons hnext hlater => exact .cons ⟨_, hhead, hnext⟩ (ih hlater)

end AutowareUniverse.Common.Interpolation
