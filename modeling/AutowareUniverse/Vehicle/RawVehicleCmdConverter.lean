import AutowareUniverse.Common.Interpolation

/-!
# Acceleration and brake maps

Both maps are tables of accelerations by velocity and actuation.  Fixing the velocity leaves a
line through points, which the commands read in one direction and the accelerations in the other.
-/

namespace AutowareUniverse.Vehicle.RawVehicleCmdConverter

open Common.Interpolation Library.Fallible

variable {K : Type}

/-- The members of `AccelMap` and `BrakeMap`; the rows belong to the throttle or brake index. -/
structure Table (K : Type) where
  velIndex : List K
  index : List K
  map : List (List K)

section

variable [LinearOrder K]

def validateRow (isColDecent : Bool) (prevVec vec : List K) : Bool :=
  (vec.zip prevVec).all fun (value, prev) =>
    !(decide (value ≤ prev) && isColDecent) && !(decide (value ≥ prev) && !isColDecent)

def validateMap (isColDecent : Bool) : List (List K) → Bool
  | prevVec :: vec :: rest => validateRow isColDecent prevVec vec &&
    validateMap isColDecent (vec :: rest)
  | _ => true

def clampValue (val : K) (ranges : List K) : K :=
  match ranges.max?, ranges.min? with
  | some maxValue, some minValue =>
    if val < minValue ∨ maxValue < val then min (max val minValue) maxValue else val
  | _, _ => val

end

section

variable [Field K] [LinearOrder K]

/-- `lerp` of a single query. -/
def lerpSingle (baseKeys baseValues : List K) (queryKey : K) : Except Failure K := do
  atIndex (← lerp baseKeys baseValues [queryKey]) 0

namespace Table

variable (table : Table K)

def interpolatedAccVec (vel : K) : Except Failure (List K) :=
  let clampedVel := clampValue vel table.velIndex
  table.map.mapM fun accelerations => lerpSingle table.velIndex accelerations clampedVel

/-- `AccelMap::getThrottle`, which finds no throttle below the range. -/
def getThrottle (acc vel : K) : Except Failure (Option K) := do
  let interpolatedAccVec ← table.interpolatedAccVec vel
  if acc < (← atIndex interpolatedAccVec 0) then return none
  else if (← atIndex interpolatedAccVec (interpolatedAccVec.length - 1)) < acc then
    return some (← atIndex table.index (table.index.length - 1))
  else return some (← lerpSingle interpolatedAccVec table.index acc)

/-- `BrakeMap::getBrake`. -/
def getBrake (acc vel : K) : Except Failure K := do
  let interpolatedAccVec ← table.interpolatedAccVec vel
  if acc < (← atIndex interpolatedAccVec (interpolatedAccVec.length - 1)) then
    atIndex table.index (table.index.length - 1)
  else if (← atIndex interpolatedAccVec 0) < acc then atIndex table.index 0
  else lerpSingle interpolatedAccVec.reverse table.index.reverse acc

/-- `getAcceleration` of both maps. -/
def getAcceleration (actuation vel : K) : Except Failure K := do
  let interpolatedAccVec ← table.interpolatedAccVec vel
  lerpSingle table.index interpolatedAccVec (clampValue actuation table.index)

end Table

end

/-! ## Lines through points -/

/-- A point on the line through points, at a ratio between two neighbouring ones. -/
def OnLine [Field K] [LinearOrder K] (keys values : List K) (x y : K) : Prop :=
  ∃ j key nextKey srcVal dstVal ratio, keys[j]? = some key ∧ keys[j + 1]? = some nextKey ∧
    values[j]? = some srcVal ∧ values[j + 1]? = some dstVal ∧ (0 ≤ ratio ∧ ratio ≤ 1) ∧
    x = lerpValue key nextKey ratio ∧ y = lerpValue srcVal dstVal ratio

namespace OnLine

variable [Field K] [LinearOrder K] {keys values : List K} {x y x' y' : K}

theorem symm (hline : OnLine keys values x y) : OnLine values keys y x := by
  obtain ⟨j, key, nextKey, srcVal, dstVal, ratio, hkey, hnext, hsrc, hdst, hratio, hx, hy⟩ := hline
  exact ⟨j, srcVal, dstVal, key, nextKey, ratio, hsrc, hdst, hkey, hnext, hratio, hy, hx⟩

theorem neg (hline : OnLine keys values x y) :
    OnLine keys (values.map fun value => -value) x (-y) := by
  obtain ⟨j, key, nextKey, srcVal, dstVal, ratio, hkey, hnext, hsrc, hdst, hratio, hx, hy⟩ := hline
  refine ⟨j, key, nextKey, -srcVal, -dstVal, ratio, hkey, hnext, ?_, ?_, hratio, hx, ?_⟩
  · rw [List.getElem?_map, hsrc, Option.map_some]
  · rw [List.getElem?_map, hdst, Option.map_some]
  · rw [hy, lerpValue, lerpValue]
    ring

variable [IsStrictOrderedRing K]

theorem reverse (hlength : keys.length = values.length) (hline : OnLine keys values x y) :
    OnLine keys.reverse values.reverse x y := by
  obtain ⟨j, key, nextKey, srcVal, dstVal, ratio, hkey, hnext, hsrc, hdst, hratio, hx, hy⟩ := hline
  have hj := (List.getElem?_eq_some_iff.mp hnext).1
  have hback {list : List K} (hsame : keys.length = list.length) {i : ℕ} {value : K}
      (hvalue : list[i]? = some value) : list.reverse[keys.length - 1 - i]? = some value := by
    have hi := (List.getElem?_eq_some_iff.mp hvalue).1
    rw [List.getElem?_reverse (by omega), ← hvalue]
    congr 1
    omega
  have hindex : keys.length - 1 - j = keys.length - 1 - (j + 1) + 1 := by omega
  refine ⟨keys.length - 1 - (j + 1), nextKey, key, dstVal, srcVal, 1 - ratio, hback rfl hnext,
    hindex ▸ hback rfl hkey, hback hlength hdst, hindex ▸ hback hlength hsrc,
    ⟨sub_nonneg.mpr hratio.2, sub_le_self 1 hratio.1⟩, ?_, ?_⟩
  · rw [hx, lerpValue, lerpValue]
    ring
  · rw [hy, lerpValue, lerpValue]
    ring

omit [LinearOrder K] [IsStrictOrderedRing K] in
theorem lerpValue_zero (a b : K) : lerpValue a b 0 = a := by rw [lerpValue, mul_zero, add_zero]

omit [LinearOrder K] [IsStrictOrderedRing K] in
theorem lerpValue_one (a b : K) : lerpValue a b 1 = b := by
  rw [lerpValue, mul_one, add_sub_cancel]

theorem lerpValue_le_iff {a b ratio ratio' : K} (hlt : a < b) :
    lerpValue a b ratio ≤ lerpValue a b ratio' ↔ ratio ≤ ratio' := by
  rw [lerpValue, lerpValue, add_le_add_iff_left, mul_le_mul_iff_right₀ (sub_pos.mpr hlt)]

theorem lerpValue_mem {a b ratio : K} (hlt : a < b) (hratio : 0 ≤ ratio ∧ ratio ≤ 1) :
    a ≤ lerpValue a b ratio ∧ lerpValue a b ratio ≤ b := by
  have hlow := (lerpValue_le_iff hlt).mpr hratio.1
  have hhigh := (lerpValue_le_iff hlt).mpr hratio.2
  rw [lerpValue_zero] at hlow
  rw [lerpValue_one] at hhigh
  exact ⟨hlow, hhigh⟩

theorem mem_range {front back : K} (hkeys : keys.Pairwise (· < ·))
    (hfront : keys.head? = some front) (hback : keys.getLast? = some back)
    (hline : OnLine keys values x y) : front ≤ x ∧ x ≤ back := by
  obtain ⟨j, key, nextKey, -, -, ratio, hkey, hnext, -, -, hratio, rfl, -⟩ := hline
  obtain ⟨hle, hge⟩ := lerpValue_mem (key_lt_key hkeys (Nat.lt_succ_self j) hkey hnext) hratio
  have hfirst := front_le hkeys (List.head?_eq_getElem? ▸ hfront) (List.mem_of_getElem? hkey)
  exact ⟨hfirst.trans hle, hge.trans (le_back hkeys hback (List.mem_of_getElem? hnext))⟩

theorem atFront (hlength : values.length = keys.length) (htwo : 2 ≤ keys.length)
    (hfront : keys.head? = some x) (hvalue : values.head? = some y) : OnLine keys values x y := by
  refine ⟨0, x, keys.get ⟨1, htwo⟩, y, values.get ⟨1, by omega⟩, 0, ?_, List.getElem?_eq_getElem _,
    ?_, List.getElem?_eq_getElem _, ⟨le_rfl, zero_le_one⟩, ?_, ?_⟩
  · rw [← List.head?_eq_getElem?, hfront]
  · rw [← List.head?_eq_getElem?, hvalue]
  · exact (lerpValue_zero ..).symm
  · exact (lerpValue_zero ..).symm

theorem atBack (hlength : values.length = keys.length) (htwo : 2 ≤ keys.length)
    (hback : keys.getLast? = some x) (hvalue : values.getLast? = some y) :
    OnLine keys values x y := by
  rw [← List.reverse_reverse keys, ← List.reverse_reverse values]
  refine (atFront ?_ ?_ ?_ ?_).reverse ?_
  · rw [List.length_reverse, List.length_reverse, hlength]
  · rwa [List.length_reverse]
  · rw [List.head?_reverse, hback]
  · rw [List.head?_reverse, hvalue]
  · rw [List.length_reverse, List.length_reverse, hlength]

/-- The values of a rising line rise with the keys. -/
theorem mono (hkeys : keys.Pairwise (· < ·)) (hvalues : values.Pairwise (· < ·))
    (hline : OnLine keys values x y) (hline' : OnLine keys values x' y') (hle : x ≤ x') :
    y ≤ y' := by
  obtain ⟨j, key, nextKey, srcVal, dstVal, ratio, hkey, hnext, hsrc, hdst, hratio, rfl, rfl⟩ :=
    hline
  obtain ⟨j', key', nextKey', srcVal', dstVal', ratio', hkey', hnext', hsrc', hdst', hratio',
    rfl, rfl⟩ := hline'
  have hlt := key_lt_key hkeys (Nat.lt_succ_self j) hkey hnext
  have hlt' := key_lt_key hkeys (Nat.lt_succ_self j') hkey' hnext'
  have hval := key_lt_key hvalues (Nat.lt_succ_self j) hsrc hdst
  have hval' := key_lt_key hvalues (Nat.lt_succ_self j') hsrc' hdst'
  rcases lt_trichotomy j j' with hbefore | rfl | hbehind
  · have hmeet : dstVal ≤ srcVal' := by
      rcases (Nat.succ_le_of_lt hbefore).lt_or_eq with hgap | rfl
      · exact (key_lt_key hvalues hgap hdst hsrc').le
      · exact (Option.some.inj (hdst.symm.trans hsrc')).le
    exact (lerpValue_mem hval hratio).2.trans (hmeet.trans (lerpValue_mem hval' hratio').1)
  · cases hkey.symm.trans hkey'
    cases hnext.symm.trans hnext'
    cases hsrc.symm.trans hsrc'
    cases hdst.symm.trans hdst'
    exact (lerpValue_le_iff hval).mpr ((lerpValue_le_iff hlt).mp hle)
  · -- the keys are the one at which the two segments meet
    have hfirst := (lerpValue_mem hlt hratio).1.trans hle
    have hsecond := hle.trans (lerpValue_mem hlt' hratio').2
    rcases (Nat.succ_le_of_lt hbehind).lt_or_eq with hgap | rfl
    · have hapart := key_lt_key hkeys hgap hnext' hkey
      exact absurd (hapart.trans_le hfirst) (not_lt.mpr (lerpValue_mem hlt' hratio').2)
    · cases hnext'.symm.trans hkey
      cases hdst'.symm.trans hsrc
      have hstart := (lerpValue_le_iff hlt).mp (hsecond.trans_eq (lerpValue_zero key nextKey).symm)
      have hend := (lerpValue_le_iff hlt').mp ((lerpValue_one key' key).trans_le hfirst)
      have hlow := (lerpValue_le_iff hval).mpr hstart
      have hhigh := (lerpValue_le_iff hval').mpr hend
      rw [lerpValue_zero] at hlow
      rw [lerpValue_one] at hhigh
      exact hlow.trans hhigh

end OnLine

/-! ## Interpolation in a table -/

variable [Field K] [LinearOrder K] [IsStrictOrderedRing K]

/-- All lists of values are interpolated in the same segment, at the same ratio. -/
theorem exists_lerpSingle {keys : List K} {front back query : K} (htwo : 2 ≤ keys.length)
    (hkeys : keys.Pairwise (· < ·)) (hfront : keys.head? = some front)
    (hback : keys.getLast? = some back) (hlow : front ≤ query) (hhigh : query ≤ back) :
    ∃ j key nextKey ratio, keys[j]? = some key ∧ keys[j + 1]? = some nextKey ∧
      (0 ≤ ratio ∧ ratio ≤ 1) ∧ query = lerpValue key nextKey ratio ∧
      ∀ values : List K, values.length = keys.length →
        ∃ srcVal dstVal, values[j]? = some srcVal ∧ values[j + 1]? = some dstVal ∧
          lerpSingle keys values query = .ok (lerpValue srcVal dstVal ratio) := by
  have hvalidated : validateKeys keys [query] = .ok [query] := by
    rw [validateKeys_of_inside htwo hkeys hfront hback (List.cons_ne_nil query [])
      (List.pairwise_singleton ..) (by simpa using ⟨hlow, hhigh⟩)]
    simp [cropped, hlow, hhigh]
  obtain ⟨j, hadvance, ⟨nextKey, hnext, hbefore⟩, hstart⟩ :=
    advance_drop hback (show 0 + 1 < keys.length by omega) hhigh (.inl rfl)
  have hj := Nat.lt_of_succ_lt (List.getElem?_eq_some_iff.mp hnext).1
  obtain ⟨key, hkey, hle⟩ : ∃ key, keys[j]? = some key ∧ key ≤ query := by
    rcases hstart with rfl | ⟨key, hkey, hlt⟩
    · exact ⟨front, List.head?_eq_getElem? ▸ hfront, hlow⟩
    · exact ⟨key, hkey, hlt.le⟩
  have hspan := sub_pos.mpr (key_lt_key hkeys (Nat.lt_succ_self j) hkey hnext)
  refine ⟨j, key, nextKey, (query - key) / (nextKey - key), hkey, hnext,
    ⟨div_nonneg (sub_nonneg.mpr hle) hspan.le, ?_⟩, ?_, fun values hlength => ?_⟩
  · exact (div_le_one hspan).mpr (sub_le_sub_right hbefore key)
  · rw [lerpValue, mul_div_cancel₀ _ hspan.ne', add_sub_cancel]
  · obtain ⟨value, hvalue⟩ : ∃ value, lerpAt keys values j query = .ok value :=
      lerpAt_ok hlength.symm (List.getElem?_eq_some_iff.mp hnext).1
    obtain ⟨key', nextKey', srcVal, dstVal, hkey', hnext', hsrc, hdst, rfl⟩ :=
      lerpAt_eq_ok.mp hvalue
    cases hkey.symm.trans hkey'
    cases hnext.symm.trans hnext'
    refine ⟨srcVal, dstVal, hsrc, hdst, bind_eq_ok.mpr ⟨[_], ?_, rfl⟩⟩
    exact bind_eq_ok.mpr ⟨_, hvalidated, bind_eq_ok.mpr ⟨(),
      validateKeysAndValues_ok htwo hlength.symm, bind_eq_ok.mpr ⟨j, hadvance,
        bind_eq_ok.mpr ⟨_, hvalue, rfl⟩⟩⟩⟩

variable {keys values : List K}

theorem exists_onLine {front back query : K} (hlength : values.length = keys.length)
    (htwo : 2 ≤ keys.length) (hkeys : keys.Pairwise (· < ·)) (hfront : keys.head? = some front)
    (hback : keys.getLast? = some back) (hlow : front ≤ query) (hhigh : query ≤ back) :
    ∃ value, lerpSingle keys values query = .ok value ∧ OnLine keys values query value := by
  obtain ⟨j, key, nextKey, ratio, hkey, hnext, hratio, hquery, hvalues⟩ :=
    exists_lerpSingle htwo hkeys hfront hback hlow hhigh
  obtain ⟨srcVal, dstVal, hsrc, hdst, hlerp⟩ := hvalues values hlength
  exact ⟨_, hlerp, j, key, nextKey, srcVal, dstVal, ratio, hkey, hnext, hsrc, hdst, hratio, hquery,
    rfl⟩

omit [Field K] [IsStrictOrderedRing K] in
theorem clampValue_mem {ranges : List K} {front back : K} (hranges : ranges.Pairwise (· < ·))
    (hfront : ranges.head? = some front) (hback : ranges.getLast? = some back) (val : K) :
    (front ≤ clampValue val ranges ∧ clampValue val ranges ≤ back) ∧
      (front ≤ val → val ≤ back → clampValue val ranges = val) := by
  have hne : ranges ≠ [] := by
    rintro rfl
    cases hfront
  obtain ⟨maxValue, hmax⟩ := Option.isSome_iff_exists.mp (List.isSome_max?_of_ne_nil hne)
  obtain ⟨minValue, hmin⟩ := Option.isSome_iff_exists.mp (List.isSome_min?_of_ne_nil hne)
  obtain ⟨hmaxMem, hmaxLe⟩ := List.max?_eq_some_iff.mp hmax
  obtain ⟨hminMem, hminLe⟩ := List.min?_eq_some_iff.mp hmin
  have hlow := hminLe front (List.mem_of_mem_head? hfront)
  have hhigh := hmaxLe back (List.mem_of_mem_getLast? hback)
  have hminFront := front_le hranges (List.head?_eq_getElem? ▸ hfront) hminMem
  have hmaxBack := le_back hranges hback hmaxMem
  rw [clampValue, hmax, hmin]
  refine ⟨?_, fun hle hge => if_neg ?_⟩
  · dsimp only
    split
    · exact ⟨le_min (hminFront.trans (le_max_right ..)) (hminFront.trans (hminLe _ hmaxMem)),
        (min_le_right ..).trans hmaxBack⟩
    · next hinside =>
      rw [not_or, not_lt, not_lt] at hinside
      exact ⟨hminFront.trans hinside.1, hinside.2.trans hmaxBack⟩
  · rintro (hbelow | habove)
    · exact absurd hbelow (not_lt.mpr (hlow.trans hle))
    · exact absurd habove (not_lt.mpr (hge.trans hhigh))

/-- A map as it is accepted: each row has an entry for each velocity. -/
structure Table.Accepted (isColDecent : Bool) (table : Table K) : Prop where
  vels : 2 ≤ table.velIndex.length
  indices : 2 ≤ table.index.length
  velIncreasing : table.velIndex.Pairwise (· < ·)
  indexIncreasing : table.index.Pairwise (· < ·)
  rows : table.map.length = table.index.length
  columns : ∀ row ∈ table.map, row.length = table.velIndex.length
  valid : validateMap isColDecent table.map = true

/-- The order of the accelerations along the throttle or brake index. -/
def Before (isColDecent : Bool) (a b : K) : Prop := if isColDecent then a < b else b < a

omit [Field K] [IsStrictOrderedRing K] in
theorem before_of_validateRow {isColDecent : Bool} {prevVec vec : List K} {j : ℕ} {prev value : K}
    (hvalid : validateRow isColDecent prevVec vec = true) (hprev : prevVec[j]? = some prev)
    (hvalue : vec[j]? = some value) : Before isColDecent prev value := by
  have hmem : (value, prev) ∈ vec.zip prevVec :=
    List.mem_of_getElem? (List.getElem?_zip_eq_some.mpr ⟨hvalue, hprev⟩)
  have hpair := List.all_eq_true.mp hvalid _ hmem
  cases isColDecent <;> simpa [Before] using hpair

instance (isColDecent : Bool) : IsTrans K (Before isColDecent) where
  trans a b c hab hbc := by
    cases isColDecent with
    | false => exact lt_trans hbc hab
    | true => exact lt_trans hab hbc

theorem Before.lerpValue {isColDecent : Bool} {a b c d ratio : K} (hfirst : Before isColDecent a c)
    (hsecond : Before isColDecent b d) (hratio : 0 ≤ ratio ∧ ratio ≤ 1) :
    Before isColDecent (lerpValue a b ratio) (lerpValue c d ratio) := by
  have hrise {a b c d : K} (hac : a < c) (hbd : b < d) :
      a + (b - a) * ratio < c + (d - c) * ratio := by
    have hrest := mul_nonneg (sub_nonneg.mpr hratio.2) (sub_nonneg.mpr hac.le)
    rcases hratio.1.eq_or_lt with rfl | hpos
    · simpa using hac
    · linarith [mul_pos hpos (sub_pos.mpr hbd)]
  cases isColDecent with
  | false => exact hrise hfirst hsecond
  | true => exact hrise hfirst hsecond

variable {isColDecent : Bool} {table : Table K} {vel front back indexFront indexBack : K}

/-- What a map has at a velocity: accelerations in the order of the rows. -/
structure Column (isColDecent : Bool) (table : Table K) (vel : K) (accs : List K)
    (front back indexFront indexBack : K) : Prop extends table.Accepted isColDecent where
  column : table.interpolatedAccVec vel = .ok accs
  length : accs.length = table.index.length
  order : accs.Pairwise (Before isColDecent)
  front : accs.head? = some front
  back : accs.getLast? = some back
  indexFront : table.index.head? = some indexFront
  indexBack : table.index.getLast? = some indexBack

variable {values : List K}

omit [Field K] [LinearOrder K] [IsStrictOrderedRing K] in
theorem exists_ends (htwo : 2 ≤ values.length) :
    ∃ front back, values.head? = some front ∧ values.getLast? = some back := by
  have hne : values ≠ [] := List.ne_nil_of_length_pos (by omega)
  exact ⟨_, _, List.head?_eq_some_head hne, List.getLast?_eq_some_getLast hne⟩

theorem Table.Accepted.exists_column (haccepted : table.Accepted isColDecent) (vel : K) :
    ∃ accs front back indexFront indexBack,
      Column isColDecent table vel accs front back indexFront indexBack := by
  obtain ⟨velFront, velBack, hfront, hback⟩ := exists_ends haccepted.vels
  obtain ⟨⟨hlow, hhigh⟩, -⟩ := clampValue_mem haccepted.velIncreasing hfront hback vel
  obtain ⟨j, -, -, ratio, -, -, hratio, -, hvalues⟩ :=
    exists_lerpSingle haccepted.vels haccepted.velIncreasing hfront hback hlow hhigh
  let accAt (row : List K) : K := lerpValue (row.getD j 0) (row.getD (j + 1) 0) ratio
  have hacc (row : List K) (hrow : row ∈ table.map) :
      ∃ srcVal dstVal, row[j]? = some srcVal ∧ row[j + 1]? = some dstVal ∧
        accAt row = lerpValue srcVal dstVal ratio ∧
        lerpSingle table.velIndex row (clampValue vel table.velIndex) = .ok (accAt row) := by
    obtain ⟨srcVal, dstVal, hsrc, hdst, hlerp⟩ := hvalues row (haccepted.columns row hrow)
    have hat : accAt row = lerpValue srcVal dstVal ratio := by
      simp only [accAt, List.getD_eq_getElem?_getD, hsrc, hdst, Option.getD_some]
    exact ⟨srcVal, dstVal, hsrc, hdst, hat, hat ▸ hlerp⟩
  have hmap (rows : List (List K)) (hrows : ∀ row ∈ rows, row ∈ table.map) :
      rows.mapM (fun row => lerpSingle table.velIndex row (clampValue vel table.velIndex)) =
        .ok (rows.map accAt) := by
    induction rows with
    | nil => rfl
    | cons row rest ih =>
      obtain ⟨-, -, -, -, -, hlerp⟩ := hacc row (hrows row List.mem_cons_self)
      rw [List.mapM_cons, hlerp,
        ih fun other hother => hrows other (List.mem_cons_of_mem row hother)]
      rfl
  have hchain (rows : List (List K)) (hrows : ∀ row ∈ rows, row ∈ table.map)
      (hvalid : validateMap isColDecent rows = true) :
      (rows.map accAt).IsChain (Before isColDecent) := by
    induction rows with
    | nil => exact .nil
    | cons prevVec rest ih =>
      cases rest with
      | nil => exact .singleton _
      | cons vec rest =>
        obtain ⟨hrow, hrest⟩ := Bool.and_eq_true_iff.mp hvalid
        refine .cons_cons ?_ (ih (fun other hother =>
          hrows other (List.mem_cons_of_mem prevVec hother)) hrest)
        obtain ⟨_, _, hsrc, hdst, hat, -⟩ := hacc prevVec (hrows prevVec List.mem_cons_self)
        obtain ⟨_, _, hsrc', hdst', hat', -⟩ :=
          hacc vec (hrows vec (List.mem_cons_of_mem prevVec List.mem_cons_self))
        rw [hat, hat']
        exact (before_of_validateRow hrow hsrc hsrc').lerpValue
          (before_of_validateRow hrow hdst hdst') hratio
  have hlength : (table.map.map accAt).length = table.index.length :=
    (List.length_map accAt).trans haccepted.rows
  obtain ⟨front, back, haccFront, haccBack⟩ := exists_ends (hlength ▸ haccepted.indices)
  obtain ⟨indexFront, indexBack, hindexFront, hindexBack⟩ := exists_ends haccepted.indices
  exact ⟨table.map.map accAt, front, back, indexFront, indexBack, haccepted,
    hmap table.map fun _ => id, hlength,
    List.isChain_iff_pairwise.mp (hchain table.map (fun _ => id) haccepted.valid), haccFront,
    haccBack, hindexFront, hindexBack⟩

/-! ## Commands and accelerations -/

omit [Field K] [IsStrictOrderedRing K] in
theorem pairwise_reverse (hvalues : values.Pairwise (Before isColDecent)) :
    values.reverse.Pairwise (Before !isColDecent) := by
  rw [List.pairwise_reverse]
  cases isColDecent with
  | false => exact hvalues
  | true => exact hvalues

/-- Along rising keys the values follow the order in which they are. -/
theorem OnLine.le_of_le {x y x' y' : K} (hkeys : keys.Pairwise (· < ·))
    (hvalues : values.Pairwise (Before isColDecent)) (hline : OnLine keys values x y)
    (hline' : OnLine keys values x' y') (hle : x ≤ x') : if isColDecent then y ≤ y' else y' ≤ y := by
  cases isColDecent with
  | true => exact hline.mono hkeys hvalues hline' hle
  | false =>
    refine neg_le_neg_iff.mp (hline.neg.mono hkeys (List.pairwise_map.mpr ?_) hline'.neg hle)
    exact hvalues.imp fun hbefore => neg_lt_neg hbefore

theorem OnLine.eq {x y y' : K} (hkeys : keys.Pairwise (· < ·))
    (hvalues : values.Pairwise (Before isColDecent)) (hline : OnLine keys values x y)
    (hline' : OnLine keys values x y') : y = y' := by
  have hle := hline.le_of_le hkeys hvalues hline' le_rfl
  have hge := hline'.le_of_le hkeys hvalues hline le_rfl
  cases isColDecent with
  | true => exact le_antisymm hle hge
  | false => exact le_antisymm hge hle

omit [Field K] [LinearOrder K] [IsStrictOrderedRing K] in
theorem atIndex_front (hfront : values.head? = some front) :
    atIndex values 0 = .ok front :=
  atIndex_eq_ok.mpr (List.head?_eq_getElem? ▸ hfront)

omit [Field K] [LinearOrder K] [IsStrictOrderedRing K] in
theorem atIndex_back (hback : values.getLast? = some back) :
    atIndex values (values.length - 1) = .ok back :=
  atIndex_eq_ok.mpr (List.getLast?_eq_getElem? ▸ hback)

/-- Outside of its range a line is read at the nearest end. -/
theorem exists_lookup {front back valueFront valueBack : K} (hlength : values.length = keys.length)
    (htwo : 2 ≤ keys.length) (hkeys : keys.Pairwise (· < ·)) (hfront : keys.head? = some front)
    (hback : keys.getLast? = some back) (hvalueFront : values.head? = some valueFront)
    (hvalueBack : values.getLast? = some valueBack) (query : K) :
    ∃ value, (if query < front then .ok valueFront else if back < query then .ok valueBack
      else lerpSingle keys values query) = .ok value ∧
      OnLine keys values (max front (min query back)) value := by
  have hends := front_le hkeys (List.head?_eq_getElem? ▸ hfront) (List.mem_of_getLast? hback)
  split
  · next hbelow =>
    refine ⟨valueFront, rfl, ?_⟩
    rw [max_eq_left ((min_le_left ..).trans hbelow.le)]
    exact .atFront hlength htwo hfront hvalueFront
  · next hlow =>
    split
    · next habove =>
      refine ⟨valueBack, rfl, ?_⟩
      rw [min_eq_right habove.le, max_eq_right hends]
      exact .atBack hlength htwo hback hvalueBack
    · next hhigh =>
      obtain ⟨value, hlerp, hline⟩ :=
        exists_onLine hlength htwo hkeys hfront hback (not_lt.mp hlow) (not_lt.mp hhigh)
      refine ⟨value, hlerp, ?_⟩
      rwa [min_eq_left (not_lt.mp hhigh), max_eq_right (not_lt.mp hlow)]

namespace Column

variable {accs : List K}

/-- The actuation of an acceleration gives that acceleration. -/
theorem getAcceleration_eq
    (hcolumn : Column isColDecent table vel accs front back indexFront indexBack) (actuation : K) :
    ∃ acc, table.getAcceleration actuation vel = .ok acc ∧
      ∀ acc', OnLine accs table.index acc' actuation → acc' = acc := by
  obtain ⟨⟨hlow, hhigh⟩, hinside⟩ :=
    clampValue_mem hcolumn.indexIncreasing hcolumn.indexFront hcolumn.indexBack actuation
  obtain ⟨acc, hlerp, hline⟩ := exists_onLine hcolumn.length hcolumn.indices
    hcolumn.indexIncreasing hcolumn.indexFront hcolumn.indexBack hlow hhigh
  refine ⟨acc, ?_, fun acc' hline' => ?_⟩
  · rw [Table.getAcceleration, hcolumn.column]
    exact hlerp
  · have hrange := hline'.symm.mem_range hcolumn.indexIncreasing hcolumn.indexFront
      hcolumn.indexBack
    rw [hinside hrange.1 hrange.2] at hline
    exact hline'.symm.eq hcolumn.indexIncreasing hcolumn.order hline

end Column

/-- What the throttle of a map does at a velocity at which its accelerations go from `front` to
`back`. -/
structure ThrottleInverted (table : Table K) (vel front back : K) : Prop where
  below : ∀ acc < front, table.getThrottle acc vel = .ok none
  inverse : ∀ acc, front ≤ acc → acc ≤ back → ∃ throttle,
    table.getThrottle acc vel = .ok (some throttle) ∧ table.getAcceleration throttle vel = .ok acc
  nonDecreasing : ∀ acc acc', front ≤ acc → acc ≤ acc' → ∃ throttle throttle',
    table.getThrottle acc vel = .ok (some throttle) ∧
      table.getThrottle acc' vel = .ok (some throttle') ∧ throttle ≤ throttle'

/-- The same of a brake, which also answers outside of the range. -/
structure BrakeInverted (table : Table K) (vel front back : K) : Prop where
  inverse : ∀ acc, back ≤ acc → acc ≤ front → ∃ brake,
    table.getBrake acc vel = .ok brake ∧ table.getAcceleration brake vel = .ok acc
  nonIncreasing : ∀ acc acc', acc ≤ acc' → ∃ brake brake',
    table.getBrake acc vel = .ok brake ∧ table.getBrake acc' vel = .ok brake' ∧ brake' ≤ brake

namespace Column

variable {accs : List K}

theorem throttleInverted (hcolumn : Column true table vel accs front back indexFront indexBack) :
    ThrottleInverted table vel front back := by
  have hthrottle (acc : K) (hle : front ≤ acc) : ∃ throttle,
      table.getThrottle acc vel = .ok (some throttle) ∧
        OnLine accs table.index (max front (min acc back)) throttle := by
    obtain ⟨throttle, hlookup, hline⟩ := exists_lookup hcolumn.length.symm
      (hcolumn.length ▸ hcolumn.indices) hcolumn.order hcolumn.front hcolumn.back
      hcolumn.indexFront hcolumn.indexBack acc
    refine ⟨throttle, ?_, hline⟩
    rw [if_neg (not_lt.mpr hle)] at hlookup
    simp only [Table.getThrottle, hcolumn.column, atIndex_front hcolumn.front,
      atIndex_back hcolumn.back, atIndex_back hcolumn.indexBack, bind, Except.bind,
      if_neg (not_lt.mpr hle)]
    split at hlookup
    · next habove =>
      cases hlookup
      rw [if_pos habove]
      rfl
    · next hhigh =>
      rw [if_neg hhigh, hlookup]
      rfl
  refine ⟨fun acc hlt => ?_, fun acc hlow hhigh => ?_, fun acc acc' hlow hle => ?_⟩
  · simp only [Table.getThrottle, hcolumn.column, atIndex_front hcolumn.front, bind, Except.bind,
      if_pos hlt]
    rfl
  · obtain ⟨throttle, hget, hline⟩ := hthrottle acc hlow
    obtain ⟨acc', hacceleration, hunique⟩ := hcolumn.getAcceleration_eq throttle
    rw [min_eq_left hhigh, max_eq_right hlow] at hline
    exact ⟨throttle, hget, hunique acc hline ▸ hacceleration⟩
  · obtain ⟨throttle, hget, hline⟩ := hthrottle acc hlow
    obtain ⟨throttle', hget', hline'⟩ := hthrottle acc' (hlow.trans hle)
    exact ⟨throttle, throttle', hget, hget', hline.mono hcolumn.order hcolumn.indexIncreasing hline'
      (max_le_max le_rfl (min_le_min hle le_rfl))⟩

theorem brakeInverted (hcolumn : Column false table vel accs front back indexFront indexBack) :
    BrakeInverted table vel front back := by
  have hlength : table.index.reverse.length = accs.reverse.length := by
    rw [List.length_reverse, List.length_reverse, hcolumn.length]
  have haccs : accs.reverse.Pairwise (Before true) := pairwise_reverse hcolumn.order
  have hindex : table.index.reverse.Pairwise (Before false) :=
    List.pairwise_reverse.mpr hcolumn.indexIncreasing
  have hbrake (acc : K) : ∃ brake, table.getBrake acc vel = .ok brake ∧
      OnLine accs.reverse table.index.reverse (max back (min acc front)) brake := by
    obtain ⟨brake, hlookup, hline⟩ := exists_lookup hlength
      (hlength ▸ List.length_reverse.symm ▸ hcolumn.indices) haccs
      (List.head?_reverse.trans hcolumn.back) (List.getLast?_reverse.trans hcolumn.front)
      (List.head?_reverse.trans hcolumn.indexBack)
      (List.getLast?_reverse.trans hcolumn.indexFront) acc
    refine ⟨brake, ?_, hline⟩
    simp only [Table.getBrake, hcolumn.column, atIndex_front hcolumn.front,
      atIndex_back hcolumn.back, atIndex_front hcolumn.indexFront, atIndex_back hcolumn.indexBack,
      bind, Except.bind]
    exact hlookup
  refine ⟨fun acc hlow hhigh => ?_, fun acc acc' hle => ?_⟩
  · obtain ⟨brake, hget, hline⟩ := hbrake acc
    obtain ⟨acc', hacceleration, hunique⟩ := hcolumn.getAcceleration_eq brake
    rw [min_eq_left hhigh, max_eq_right hlow] at hline
    have hline := hline.reverse hlength.symm
    rw [List.reverse_reverse, List.reverse_reverse] at hline
    exact ⟨brake, hget, hunique acc hline ▸ hacceleration⟩
  · obtain ⟨brake, hget, hline⟩ := hbrake acc
    obtain ⟨brake', hget', hline'⟩ := hbrake acc'
    exact ⟨brake, brake', hget, hget', hline.le_of_le haccs hindex hline'
      (max_le_max le_rfl (min_le_min hle le_rfl))⟩

end Column

/-- The commands of both maps return at every velocity, inside and outside of the range, and are
inverted by the accelerations. -/
structure CommandsInverted (accelMap brakeMap : Table K) (vel : K) : Prop where
  throttle : ∃ accs front back, accelMap.interpolatedAccVec vel = .ok accs ∧
    accs.head? = some front ∧ accs.getLast? = some back ∧ ThrottleInverted accelMap vel front back
  brake : ∃ accs front back, brakeMap.interpolatedAccVec vel = .ok accs ∧
    accs.head? = some front ∧ accs.getLast? = some back ∧ BrakeInverted brakeMap vel front back
  acceleration : ∀ table ∈ [accelMap, brakeMap], ∀ actuation, ∃ acc,
    table.getAcceleration actuation vel = .ok acc

theorem commands_inverted {accelMap brakeMap : Table K} (haccel : accelMap.Accepted true)
    (hbrake : brakeMap.Accepted false) (vel : K) : CommandsInverted accelMap brakeMap vel := by
  obtain ⟨accs, front, back, _, _, haccelColumn⟩ := haccel.exists_column vel
  obtain ⟨brakeAccs, brakeFront, brakeBack, _, _, hbrakeColumn⟩ := hbrake.exists_column vel
  refine ⟨⟨accs, front, back, haccelColumn.column, haccelColumn.front, haccelColumn.back,
    haccelColumn.throttleInverted⟩, ⟨brakeAccs, brakeFront, brakeBack, hbrakeColumn.column,
    hbrakeColumn.front, hbrakeColumn.back, hbrakeColumn.brakeInverted⟩, ?_⟩
  intro table hmem actuation
  rcases List.mem_cons.mp hmem with rfl | hmem
  · exact (haccelColumn.getAcceleration_eq actuation).imp fun _ => And.left
  · cases List.mem_singleton.mp hmem
    exact (hbrakeColumn.getAcceleration_eq actuation).imp fun _ => And.left

def accelExample : Table ℚ := ⟨[0, 1], [0, 1], [[0, 1], [2, 3]]⟩

def brakeExample : Table ℚ := ⟨[0, 1], [0, 1], [[0, -1], [-2, -3]]⟩

theorem commands_inverted_example : CommandsInverted accelExample brakeExample 2 :=
  commands_inverted (by constructor <;> decide +kernel) (by constructor <;> decide +kernel) 2

end AutowareUniverse.Vehicle.RawVehicleCmdConverter
