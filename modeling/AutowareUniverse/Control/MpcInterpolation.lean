import AutowareUniverse.Library.Numerals
import Mathlib.Algebra.Order.Field.Basic
import Mathlib.Data.List.Pairwise
import Mathlib.Tactic.FieldSimp
import Mathlib.Tactic.Ring
import Mathlib.Tactic.Linarith

/-!
# Interpolation of trajectories in the lateral controller

`linearInterpolate` looks up non-decreasing queries with one index that only moves on.  Reading
behind the end of a list and dividing by zero have no result.
-/

namespace AutowareUniverse.Control.Mpc

section

variable {K : Type} [Field K] [LinearOrder K]

def divide (a b : K) : Option K := if b = 0 then none else some (a / b)

def isIncrease : List K → Bool
  | a :: b :: rest => if a > b then false else isIncrease (b :: rest)
  | _ => true

def isValidInput (baseIndex baseValue returnIndex : List K) : Bool :=
  match baseIndex.head?, baseIndex.getLast?, returnIndex.head?, returnIndex.getLast? with
  | some baseFront, some baseBack, some returnFront, some returnBack =>
    !baseValue.isEmpty && isIncrease baseIndex && isIncrease returnIndex &&
      !(returnFront < baseFront) && !(baseBack < returnBack) &&
      baseIndex.length == baseValue.length
  | _, _, _, _ => false

section

variable (baseIndex baseValue : List K)

/-- The loop that moves the index on. -/
def search (idx : K) (i : ℕ) : Option ℕ :=
  match hread : baseIndex[i]? with
  | none => none
  | some current =>
    if current < idx then
      if i + 1 ≤ 0 ∨ baseIndex.length - 1 < i + 1 then some (i + 1) else search idx (i + 1)
    else some i
  termination_by baseIndex.length - i
  decreasing_by
    have := (List.getElem?_eq_some_iff.mp hread).1
    omega

/-- The index after a query, and the value unless it is skipped.  The message of a skipped
query reads the index too. -/
def interpolateAt (i : ℕ) (idx : K) : Option (ℕ × Option K) := do
  if (← baseIndex[i]?) = idx then
    return (i, some (← baseValue[i]?))
  let i ← search baseIndex idx i
  if i ≤ 0 ∨ baseIndex.length - 1 < i then
    let _ ← baseIndex[i]?
    return (i, none)
  let distBaseIdx := (← baseIndex[i]?) - (← baseIndex[i - 1]?)
  let distToForward := (← baseIndex[i]?) - idx
  let distToBackward := idx - (← baseIndex[i - 1]?)
  let value ← divide
    (distToBackward * (← baseValue[i]?) + distToForward * (← baseValue[i - 1]?)) distBaseIdx
  return (i, some value)

def interpolateFrom : ℕ → List K → Option (List K)
  | _, [] => some []
  | i, idx :: rest => do
    let (i, value) ← interpolateAt baseIndex baseValue i idx
    return value.toList ++ (← interpolateFrom i rest)

/-- The result, and the values behind those that were there. -/
def linearInterpolate (returnIndex returnValue : List K) : Option (Bool × List K) :=
  if isValidInput baseIndex baseValue returnIndex then do
    return (true, returnValue ++ (← interpolateFrom baseIndex baseValue 0 returnIndex))
  else some (false, returnValue)

end

structure MPCTrajectory (K : Type) where
  x : List K
  y : List K
  z : List K
  yaw : List K
  vx : List K
  k : List K
  smoothK : List K
  relativeTime : List K

namespace MPCTrajectory

def nil : MPCTrajectory K := ⟨[], [], [], [], [], [], [], []⟩

variable (traj : MPCTrajectory K)

def HasSize (size : ℕ) : Prop :=
  traj.x.length = size ∧ traj.y.length = size ∧ traj.z.length = size ∧ traj.yaw.length = size ∧
    traj.vx.length = size ∧ traj.k.length = size ∧ traj.smoothK.length = size ∧
    traj.relativeTime.length = size

instance (traj : MPCTrajectory K) (size : ℕ) : Decidable (traj.HasSize size) :=
  inferInstanceAs (Decidable (_ ∧ _))

def size : ℕ := if traj.HasSize traj.x.length then traj.x.length else 0

def empty : Bool := traj.size == 0

end MPCTrajectory

section

variable (normalizeRadian : K → K)

def convertFrom (previous : K) : List K → List K
  | [] => []
  | angle :: rest =>
    let angle := previous + normalizeRadian (angle - previous)
    angle :: convertFrom angle rest

def convertEulerAngleToMonotonic : List K → List K
  | [] => []
  | first :: rest => first :: convertFrom normalizeRadian first rest

/-- One of the columns, if those before it succeeded. -/
def interpolateColumn (inIndex outIndex values : List K) (column : MPCTrajectory K → List K)
    (write : List K → MPCTrajectory K → MPCTrajectory K) (state : Bool × MPCTrajectory K) :
    Option (Bool × MPCTrajectory K) :=
  if state.1 then
    (linearInterpolate inIndex values outIndex (column state.2)).map fun interpolated =>
      (interpolated.1, write interpolated.2 state.2)
  else some state

def linearInterpMPCTrajectory (inIndex : List K) (inTraj : MPCTrajectory K) (outIndex : List K)
    (outTraj : MPCTrajectory K) : Option (Bool × MPCTrajectory K) :=
  if inTraj.empty then some (true, inTraj)
  else do
    let inTrajYaw := convertEulerAngleToMonotonic normalizeRadian inTraj.yaw
    let state ← interpolateColumn inIndex outIndex inTraj.x (·.x)
      (fun x traj => { traj with x }) (true, outTraj)
    let state ← interpolateColumn inIndex outIndex inTraj.y (·.y)
      (fun y traj => { traj with y }) state
    let state ← interpolateColumn inIndex outIndex inTraj.z (·.z)
      (fun z traj => { traj with z }) state
    let state ← interpolateColumn inIndex outIndex inTrajYaw (·.yaw)
      (fun yaw traj => { traj with yaw }) state
    let state ← interpolateColumn inIndex outIndex inTraj.vx (·.vx)
      (fun vx traj => { traj with vx }) state
    let state ← interpolateColumn inIndex outIndex inTraj.k (·.k)
      (fun k traj => { traj with k }) state
    let state ← interpolateColumn inIndex outIndex inTraj.smoothK (·.smoothK)
      (fun smoothK traj => { traj with smoothK }) state
    let state ← interpolateColumn inIndex outIndex inTraj.relativeTime (·.relativeTime)
      (fun relativeTime traj => { traj with relativeTime }) state
    return (state.1 && !state.2.empty, state.2)

end

/-! ## Queries -/

def firstNotBelow (baseIndex : List K) (idx : K) : ℕ := baseIndex.findIdx fun base => idx ≤ base

/-- The value for a query: entry 0, or linear between the entries around the query. -/
def IsInterpolated (baseIndex baseValue : List K) (idx value : K) : Prop :=
  ∃ k, k = firstNotBelow baseIndex idx ∧ (k = 0 ∧ baseValue[0]? = some value ∨
      ∃ j base₀ base₁ value₀ value₁, k = j + 1 ∧ baseIndex[j]? = some base₀ ∧
        baseIndex[j + 1]? = some base₁ ∧ baseValue[j]? = some value₀ ∧
        baseValue[j + 1]? = some value₁ ∧ base₀ < idx ∧ idx ≤ base₁ ∧
        value = value₀ + (idx - base₀) / (base₁ - base₀) * (value₁ - value₀))

variable {baseIndex baseValue : List K} {idx : K}

section

omit [Field K]

variable {base : K}

theorem lt_of_lt_firstNotBelow {j : ℕ} (hread : baseIndex[j]? = some base)
    (hlt : j < firstNotBelow baseIndex idx) : base < idx := by
  obtain ⟨hbound, rfl⟩ := List.getElem?_eq_some_iff.mp hread
  simpa using List.not_of_lt_findIdx hlt

theorem firstNotBelow_le {j : ℕ} (hread : baseIndex[j]? = some base)
    (hle : idx ≤ base) : firstNotBelow baseIndex idx ≤ j :=
  not_lt.mp fun hlt => not_lt.mpr hle (lt_of_lt_firstNotBelow hread hlt)

theorem le_of_read {k : ℕ} (hk : firstNotBelow baseIndex idx = k)
    (hread : baseIndex[k]? = some base) : idx ≤ base := by
  subst hk
  simpa using List.findIdx_of_getElem?_eq_some hread

theorem lt_firstNotBelow {j : ℕ} (hread : baseIndex[j]? = some base)
    (hlt : base < idx) (hj : j ≤ firstNotBelow baseIndex idx) :
    j < firstNotBelow baseIndex idx := by
  refine lt_of_le_of_ne hj ?_
  rintro rfl
  exact not_le.mpr hlt (le_of_read rfl hread)

/-- The loop ends at the first entry that is not below the query, if there is one. -/
theorem search_eq (i : ℕ) (hi : i ≤ firstNotBelow baseIndex idx)
    (hlength : firstNotBelow baseIndex idx < baseIndex.length) :
    search baseIndex idx i = some (firstNotBelow baseIndex idx) := by
  fun_induction search baseIndex idx i with
  | case1 i hread =>
    have := List.getElem?_eq_none_iff.mp hread
    omega
  | case2 i current hread hlt hend =>
    have := lt_firstNotBelow hread hlt hi
    omega
  | case3 i current hread hlt hend ih => exact ih (lt_firstNotBelow hread hlt hi)
  | case4 i current hread hge =>
    rw [le_antisymm hi (firstNotBelow_le hread (not_lt.mp hge))]

/-- The entries around a query that is not at the front. -/
theorem exists_reads {j : ℕ} (hsize : baseValue.length = baseIndex.length)
    (hlength : firstNotBelow baseIndex idx < baseIndex.length)
    (hj : firstNotBelow baseIndex idx = j + 1) :
    ∃ base₀ base₁ value₀ value₁, baseIndex[j]? = some base₀ ∧ baseIndex[j + 1]? = some base₁ ∧
      baseValue[j]? = some value₀ ∧ baseValue[j + 1]? = some value₁ ∧ base₀ < idx ∧
      idx ≤ base₁ := by
  rw [hj] at hlength
  have hread₀ : baseIndex[j]? = some _ := List.getElem?_eq_getElem (Nat.lt_of_succ_lt hlength)
  have hread₁ : baseIndex[j + 1]? = some _ := List.getElem?_eq_getElem hlength
  rw [← hsize] at hlength
  exact ⟨_, _, _, _, hread₀, hread₁, List.getElem?_eq_getElem (Nat.lt_of_succ_lt hlength),
    List.getElem?_eq_getElem hlength,
    lt_of_lt_firstNotBelow hread₀ (hj ▸ Nat.lt_succ_self j), le_of_read hj hread₁⟩

end

variable [IsStrictOrderedRing K]

/-- From an index that is not past its entry, a query gets its value. -/
theorem interpolateAt_eq {i : ℕ} (hsize : baseValue.length = baseIndex.length)
    (hfront : ∀ front ∈ baseIndex.head?, front ≤ idx) (hi : i ≤ firstNotBelow baseIndex idx)
    (hlength : firstNotBelow baseIndex idx < baseIndex.length) :
    ∃ value, interpolateAt baseIndex baseValue i idx =
        some (firstNotBelow baseIndex idx, some value) ∧
      IsInterpolated baseIndex baseValue idx value := by
  obtain ⟨current, hread⟩ : ∃ current, baseIndex[i]? = some current :=
    ⟨_, List.getElem?_eq_getElem (hi.trans_lt hlength)⟩
  by_cases heq : current = idx
  · -- the query is the entry at the index
    subst heq
    have hk := le_antisymm hi (firstNotBelow_le hread le_rfl)
    obtain ⟨value, hvalue⟩ : ∃ value, baseValue[i]? = some value :=
      ⟨_, List.getElem?_eq_getElem (hsize ▸ hi.trans_lt hlength)⟩
    refine ⟨value, by simp [interpolateAt, hread, hvalue, ← hk], _, rfl, ?_⟩
    cases i with
    | zero => exact .inl ⟨hk.symm, hvalue⟩
    | succ j =>
      obtain ⟨base₀, base₁, value₀, value₁, hbase₀, hbase₁, hvalue₀, hvalue₁, hlt, hle⟩ :=
        exists_reads hsize hlength hk.symm
      refine .inr ⟨j, base₀, base₁, value₀, value₁, hk.symm, hbase₀, hbase₁, hvalue₀, hvalue₁,
        hlt, hle, ?_⟩
      obtain rfl : current = base₁ := Option.some.inj (hread.symm.trans hbase₁)
      rw [div_self (sub_pos.mpr hlt).ne', one_mul, add_sub_cancel]
      exact Option.some.inj (hvalue.symm.trans hvalue₁)
  · have hsearch := search_eq i hi hlength
    cases hk : firstNotBelow baseIndex idx with
    | zero =>
      obtain rfl : i = 0 := Nat.le_zero.mp (hk ▸ hi)
      have hge := le_of_read hk hread
      rw [← List.head?_eq_getElem?] at hread
      exact absurd (le_antisymm (hfront _ hread) hge) heq
    | succ j =>
      obtain ⟨base₀, base₁, value₀, value₁, hbase₀, hbase₁, hvalue₀, hvalue₁, hlt, hle⟩ :=
        exists_reads hsize hlength hk
      have hdist : base₁ - base₀ ≠ 0 := (sub_pos.mpr (hlt.trans_le hle)).ne'
      refine ⟨((idx - base₀) * value₁ + (base₁ - idx) * value₀) / (base₁ - base₀), ?_, j + 1,
        hk.symm, .inr ⟨j, base₀, base₁, value₀, value₁, rfl, hbase₀, hbase₁, hvalue₀, hvalue₁,
          hlt, hle, ?_⟩⟩
      · rw [hk] at hsearch hlength
        have hinside : ¬baseIndex.length - 1 < j + 1 := by omega
        simp [interpolateAt, hread, heq, hsearch, hinside, hbase₀, hbase₁, hvalue₀, hvalue₁,
          divide, hdist]
      · field_simp
        ring

theorem interpolateFrom_eq {i : ℕ} {returnIndex : List K}
    (hsize : baseValue.length = baseIndex.length) (hreturn : returnIndex.Pairwise (· ≤ ·))
    (hfront : ∀ idx ∈ returnIndex, ∀ front ∈ baseIndex.head?, front ≤ idx)
    (hlength : ∀ idx ∈ returnIndex, firstNotBelow baseIndex idx < baseIndex.length)
    (hi : ∀ idx ∈ returnIndex, i ≤ firstNotBelow baseIndex idx) :
    ∃ values, interpolateFrom baseIndex baseValue i returnIndex = some values ∧
      List.Forall₂ (IsInterpolated baseIndex baseValue) returnIndex values := by
  induction returnIndex generalizing i with
  | nil => exact ⟨[], rfl, .nil⟩
  | cons idx rest ih =>
    obtain ⟨hle, hrest⟩ := List.pairwise_cons.mp hreturn
    obtain ⟨value, hat, hvalue⟩ := interpolateAt_eq hsize (hfront idx List.mem_cons_self)
      (hi idx List.mem_cons_self) (hlength idx List.mem_cons_self)
    have hnext (later : K) (hlater : later ∈ rest) :
        firstNotBelow baseIndex idx ≤ firstNotBelow baseIndex later :=
      List.findIdx_le_findIdx fun base _ hbase =>
        decide_eq_true ((hle later hlater).trans (of_decide_eq_true hbase))
    obtain ⟨values, hfrom, hvalues⟩ := ih hrest
      (fun later hlater => hfront later (List.mem_cons_of_mem idx hlater))
      (fun later hlater => hlength later (List.mem_cons_of_mem idx hlater)) hnext
    refine ⟨value :: values, ?_, .cons hvalue hvalues⟩
    simp [interpolateFrom, hat, hfrom]

omit [Field K] [IsStrictOrderedRing K] in
theorem isIncrease_of_pairwise {values : List K} (hvalues : values.Pairwise (· ≤ ·)) :
    isIncrease values = true := by
  fun_induction isIncrease values with
  | case1 a b rest hgt =>
    exact absurd ((List.pairwise_cons.mp hvalues).1 b List.mem_cons_self) (not_le.mpr hgt)
  | case2 a b rest hle ih => exact ih (List.pairwise_cons.mp hvalues).2
  | case3 => rfl

omit [LinearOrder K] [IsStrictOrderedRing K] in
theorem length_convertEulerAngleToMonotonic (normalizeRadian : K → K) (angles : List K) :
    (convertEulerAngleToMonotonic normalizeRadian angles).length = angles.length := by
  have hfrom (previous : K) (rest : List K) :
      (convertFrom normalizeRadian previous rest).length = rest.length := by
    induction rest generalizing previous with
    | nil => rfl
    | cons angle rest ih => simp [convertFrom, ih]
  cases angles with
  | nil => rfl
  | cons first rest => exact congrArg (· + 1) (hfrom first rest)

def Within (baseIndex returnIndex : List K) : Prop :=
  ∀ idx ∈ returnIndex, (∃ base ∈ baseIndex, base ≤ idx) ∧ ∃ base ∈ baseIndex, idx ≤ base

section

variable {returnIndex : List K} (hbase : baseIndex.Pairwise (· ≤ ·))
  (hreturn : returnIndex.Pairwise (· ≤ ·)) (hwithin : Within baseIndex returnIndex)

include hbase hreturn hwithin

omit [Field K] [IsStrictOrderedRing K] in
theorem isValidInput_eq (hsize : baseValue.length = baseIndex.length) :
    isValidInput baseIndex baseValue returnIndex = !returnIndex.isEmpty := by
  unfold isValidInput
  split
  · next baseFront baseBack returnFront returnBack hbaseFront hbaseBack hfront hback =>
    obtain ⟨⟨low, hlow, hlowLe⟩, -⟩ := hwithin _ (List.mem_of_mem_head? hfront)
    obtain ⟨-, high, hhigh, hhighLe⟩ := hwithin _ (List.mem_of_mem_getLast? hback)
    have hlower : baseFront ≤ low := by
      rw [← (List.head_eq_iff_head?_eq_some (List.ne_nil_of_mem hlow)).mpr hbaseFront]
      exact hbase.rel_head hlow
    have hupper : high ≤ baseBack := by
      rw [← (List.getLast_eq_iff_getLast?_eq_some (List.ne_nil_of_mem hhigh)).mpr hbaseBack]
      exact hbase.rel_getLast hhigh
    have hreturned : returnIndex ≠ [] := List.ne_nil_of_mem (List.mem_of_mem_head? hfront)
    have hvalue : baseValue ≠ [] := by
      rintro rfl
      exact List.ne_nil_of_mem hlow (List.eq_nil_of_length_eq_zero hsize.symm)
    rw [isIncrease_of_pairwise hbase, isIncrease_of_pairwise hreturn,
      List.isEmpty_eq_false_iff.mpr hvalue, List.isEmpty_eq_false_iff.mpr hreturned,
      decide_eq_false (not_lt.mpr (hlower.trans hlowLe)),
      decide_eq_false (not_lt.mpr (hhighLe.trans hupper)), hsize, beq_self_eq_true]
    rfl
  · next hmissing =>
    cases returnIndex with
    | nil => rfl
    | cons idx rest =>
      obtain ⟨⟨base, hmem, -⟩, -⟩ := hwithin idx List.mem_cons_self
      have hne := List.ne_nil_of_mem hmem
      exact (hmissing _ _ _ _ (List.head?_eq_some_head hne) (List.getLast?_eq_some_getLast hne)
        rfl (List.getLast?_eq_some_getLast (List.cons_ne_nil idx rest))).elim

theorem exists_linearInterpolate (hsize : baseValue.length = baseIndex.length)
    (returnValue : List K) :
    ∃ values, linearInterpolate baseIndex baseValue returnIndex returnValue =
        some (!returnIndex.isEmpty, returnValue ++ values) ∧
      List.Forall₂ (IsInterpolated baseIndex baseValue) returnIndex values := by
  rw [linearInterpolate, isValidInput_eq hbase hreturn hwithin hsize]
  cases returnIndex with
  | nil => exact ⟨[], by simp, .nil⟩
  | cons idx rest =>
    have hfront : ∀ later ∈ idx :: rest, ∀ front ∈ baseIndex.head?, front ≤ later := by
      intro later hlater front hfront
      obtain ⟨⟨base, hmem, hle⟩, -⟩ := hwithin later hlater
      rw [← (List.head_eq_iff_head?_eq_some (List.ne_nil_of_mem hmem)).mpr hfront]
      exact (hbase.rel_head hmem).trans hle
    have hlength : ∀ later ∈ idx :: rest, firstNotBelow baseIndex later < baseIndex.length := by
      intro later hlater
      obtain ⟨-, base, hmem, hle⟩ := hwithin later hlater
      exact List.findIdx_lt_length_of_exists ⟨base, hmem, decide_eq_true hle⟩
    obtain ⟨values, hvalues, hinterpolated⟩ := interpolateFrom_eq (i := 0) hsize hreturn hfront
      hlength fun _ _ => Nat.zero_le _
    exact ⟨values, by simp [hvalues], hinterpolated⟩

/-- A column that starts empty gets one value per query. -/
theorem exists_interpolateColumn {values : List K} (hsize : values.length = baseIndex.length)
    (hne : returnIndex ≠ []) (column : MPCTrajectory K → List K)
    (write : List K → MPCTrajectory K → MPCTrajectory K) (traj : MPCTrajectory K)
    (hempty : column traj = []) : ∃ written,
      interpolateColumn baseIndex returnIndex values column write (true, traj) =
        some (true, write written traj) ∧ written.length = returnIndex.length := by
  obtain ⟨written, hwritten, hvalues⟩ :=
    exists_linearInterpolate hbase hreturn hwithin hsize (column traj)
  refine ⟨written, ?_, hvalues.length_eq.symm⟩
  rw [interpolateColumn, if_pos rfl, hwritten, hempty]
  simp [hne]

theorem exists_linearInterpMPCTrajectory (normalizeRadian : K → K) {inTraj : MPCTrajectory K}
    (hsize : inTraj.HasSize baseIndex.length) :
    ∃ ok outTraj, linearInterpMPCTrajectory normalizeRadian baseIndex inTraj returnIndex .nil =
      some (ok, outTraj) ∧ outTraj.HasSize returnIndex.length := by
  have hcolumns := hsize
  obtain ⟨hx, hy, hz, hyaw, hvx, hk, hsmoothK, hrelativeTime⟩ := hcolumns
  unfold linearInterpMPCTrajectory
  by_cases hempty : inTraj.empty = true
  · -- without entries there is no query
    rw [if_pos hempty]
    have hnil : baseIndex = [] := by
      rw [MPCTrajectory.empty, MPCTrajectory.size, hx, if_pos hsize] at hempty
      exact List.eq_nil_of_length_eq_zero (beq_iff_eq.mp hempty)
    have hnone : returnIndex = [] := by
      refine List.eq_nil_iff_forall_not_mem.mpr fun idx hidx => ?_
      obtain ⟨⟨base, hmem, -⟩, -⟩ := hwithin idx hidx
      exact List.ne_nil_of_mem hmem hnil
    exact ⟨true, inTraj, rfl, by rwa [hnone, ← hnil]⟩
  · rw [if_neg hempty]
    by_cases hnone : returnIndex = []
    · -- the first column fails and leaves all as they are
      obtain ⟨written, hwritten, hvalues⟩ := exists_linearInterpolate hbase hreturn hwithin hx []
      subst hnone
      cases hvalues
      exact ⟨false, .nil, by simp [interpolateColumn, MPCTrajectory.nil, hwritten],
        rfl, rfl, rfl, rfl, rfl, rfl, rfl, rfl⟩
    · have hcolumn {values : List K} (hsize : values.length = baseIndex.length) :=
        exists_interpolateColumn hbase hreturn hwithin hsize hnone
      obtain ⟨x, hx, hxSize⟩ := hcolumn hx (·.x) (fun x traj => { traj with x }) .nil rfl
      obtain ⟨y, hy, hySize⟩ := hcolumn hy (·.y) (fun y traj => { traj with y })
        ⟨x, [], [], [], [], [], [], []⟩ rfl
      obtain ⟨z, hz, hzSize⟩ := hcolumn hz (·.z) (fun z traj => { traj with z })
        ⟨x, y, [], [], [], [], [], []⟩ rfl
      obtain ⟨yaw, hyaw, hyawSize⟩ := hcolumn
        ((length_convertEulerAngleToMonotonic normalizeRadian _).trans hyaw) (·.yaw)
        (fun yaw traj => { traj with yaw }) ⟨x, y, z, [], [], [], [], []⟩ rfl
      obtain ⟨vx, hvx, hvxSize⟩ := hcolumn hvx (·.vx) (fun vx traj => { traj with vx })
        ⟨x, y, z, yaw, [], [], [], []⟩ rfl
      obtain ⟨k, hk, hkSize⟩ := hcolumn hk (·.k) (fun k traj => { traj with k })
        ⟨x, y, z, yaw, vx, [], [], []⟩ rfl
      obtain ⟨smoothK, hsmoothK, hsmoothKSize⟩ := hcolumn hsmoothK (·.smoothK)
        (fun smoothK traj => { traj with smoothK }) ⟨x, y, z, yaw, vx, k, [], []⟩ rfl
      obtain ⟨relativeTime, hrelativeTime, hrelativeTimeSize⟩ := hcolumn hrelativeTime
        (·.relativeTime) (fun relativeTime traj => { traj with relativeTime })
        ⟨x, y, z, yaw, vx, k, smoothK, []⟩ rfl
      let outTraj : MPCTrajectory K := ⟨x, y, z, yaw, vx, k, smoothK, relativeTime⟩
      refine ⟨!outTraj.empty, outTraj, ?_, hxSize, hySize, hzSize,
        hyawSize, hvxSize, hkSize, hsmoothKSize, hrelativeTimeSize⟩
      simp only [MPCTrajectory.nil] at hx ⊢
      simp only [hx, hy, hz, hyaw, hvx, hk, hsmoothK, hrelativeTime, Option.bind_eq_bind,
        Option.bind_some]
      rfl

/-- Each query gets its value, and no reading fails; so the columns of a trajectory have one
value for each query. -/
theorem exists_linearInterpolate_and_linearInterpMPCTrajectory :
    (∀ baseValue returnValue : List K, baseValue.length = baseIndex.length →
      ∃ values, linearInterpolate baseIndex baseValue returnIndex returnValue =
          some (!returnIndex.isEmpty, returnValue ++ values) ∧
        List.Forall₂ (IsInterpolated baseIndex baseValue) returnIndex values) ∧
    ∀ (normalizeRadian : K → K) (inTraj : MPCTrajectory K), inTraj.HasSize baseIndex.length →
      ∃ ok outTraj, linearInterpMPCTrajectory normalizeRadian baseIndex inTraj returnIndex .nil =
        some (ok, outTraj) ∧ outTraj.HasSize returnIndex.length :=
  ⟨fun _ returnValue hsize =>
      exists_linearInterpolate hbase hreturn hwithin hsize returnValue,
    fun normalizeRadian _ hsize =>
      exists_linearInterpMPCTrajectory hbase hreturn hwithin normalizeRadian hsize⟩

end

/-- Two entries at 1, where the first one counts. -/
theorem exists_linearInterpolate_ties :
    ∃ values, linearInterpolate ([0, 1, 1, 3] : List ℚ) [5, 6, 8, 10] [0, 1, 2] [] =
        some (true, [] ++ values) ∧
      List.Forall₂ (IsInterpolated [0, 1, 1, 3] [5, 6, 8, 10]) [0, 1, 2] values :=
  (exists_linearInterpolate_and_linearInterpMPCTrajectory (by decide +kernel) (by decide +kernel)
    (by unfold Within; decide +kernel)).1 [5, 6, 8, 10] [] rfl

end

/-!
## The nearest pose of a trajectory

The pose is sought on the segment to one neighbour of the nearest point.
-/

variable {K Q : Type}

structure TrajectoryPoint (K : Type) where
  position : K × K
  yaw : K
  relativeTime : K

/-- `nearest_pose` and `nearest_time`. -/
structure NearestPose (K Q : Type) where
  position : K × K
  orientation : Q
  time : K
  deriving DecidableEq

def MPCTrajectory.point (traj : MPCTrajectory K) (idx : ℕ) : Option (TrajectoryPoint K) := do
  return ⟨(← traj.x[idx]?, ← traj.y[idx]?), ← traj.yaw[idx]?, ← traj.relativeTime[idx]?⟩

structure Angles (K Q : Type) where
  normalizeRadian : K → K
  getQuaternionFromYaw : K → Q

variable [Field K]

def calcSquaredDist (p q : K × K) : K :=
  let dx := p.1 - q.1
  let dy := p.2 - q.2
  dx * dx + dy * dy

def between (nearest second : K × K) (alpha : K) : K × K :=
  (alpha * nearest.1 + (1 - alpha) * second.1, alpha * nearest.2 + (1 - alpha) * second.2)

variable (angles : Angles K Q)

def vertexPose (nearest : TrajectoryPoint K) : NearestPose K Q :=
  ⟨nearest.position, angles.getQuaternionFromYaw nearest.yaw, nearest.relativeTime⟩

def interpolatedPose (nearest second : TrajectoryPoint K) (alpha : K) : NearestPose K Q where
  position := between nearest.position second.position alpha
  orientation :=
    let tmpYawErr := angles.normalizeRadian (nearest.yaw - second.yaw)
    angles.getQuaternionFromYaw (angles.normalizeRadian (second.yaw + alpha * tmpYawErr))
  time := alpha * nearest.relativeTime + (1 - alpha) * second.relativeTime

variable [LinearOrder K] (selfPose : K × K)

def secondNearest (traj : MPCTrajectory K) (nearestIndex : ℕ) : Option (TrajectoryPoint K) := do
  let next ← traj.point (min (nearestIndex + 1) (traj.size - 1))
  let prev ← traj.point (nearestIndex - 1)
  let distToNext := calcSquaredDist selfPose next.position
  let distToPrev := calcSquaredDist selfPose prev.position
  return if distToNext < distToPrev then next else prev

def nearestRatio (nearest second : K × K) : K :=
  let aSq := calcSquaredDist selfPose nearest
  let bSq := calcSquaredDist selfPose second
  let cSq := calcSquaredDist nearest second
  max (min (1 / 2 * (cSq - aSq + bSq) / cSq) 1) 0

/-- From the nearest index on, of a trajectory that is not empty. -/
def calcNearestPoseInterp (traj : MPCTrajectory K) (nearestIndex : ℕ) :
    Option (NearestPose K Q) := do
  let nearest ← traj.point nearestIndex
  if traj.size = 1 then return vertexPose angles nearest
  let second ← secondNearest selfPose traj nearestIndex
  if calcSquaredDist nearest.position second.position < 1 / 100000 then
    return vertexPose angles nearest
  return interpolatedPose angles nearest second
    (nearestRatio selfPose nearest.position second.position)

/-- The distance ahead along a segment, times its length. -/
def ahead (nearest second : K × K) : K :=
  (selfPose.1 - nearest.1) * (second.1 - nearest.1) +
    (selfPose.2 - nearest.2) * (second.2 - nearest.2)

/-- By how much a segment comes nearer than its vertex. -/
def gain (nearest second : K × K) : K :=
  let cSq := calcSquaredDist nearest second
  if ahead selfPose nearest second ≤ 0 then 0
  else if ahead selfPose nearest second < cSq then
    ahead selfPose nearest second * ahead selfPose nearest second / cSq
  else 2 * ahead selfPose nearest second - cSq

def Neighbour (traj : MPCTrajectory K) (idx : ℕ) (second : TrajectoryPoint K) : Prop :=
  ∃ j, (j = idx + 1 ∨ j + 1 = idx) ∧ traj.point j = some second

/-- At the vertex or at one ratio on one of the adjacent segments, and the closest there. -/
structure IsNearest (traj : MPCTrajectory K) (idx : ℕ) (nearest : TrajectoryPoint K)
    (pose : NearestPose K Q) : Prop where
  onSegment : pose = vertexPose angles nearest ∨ ∃ second ratio, Neighbour traj idx second ∧
    (0 ≤ ratio ∧ ratio ≤ 1) ∧ pose = interpolatedPose angles nearest second ratio
  closest : ∀ second ratio, Neighbour traj idx second → 0 ≤ ratio → ratio ≤ 1 →
    calcSquaredDist selfPose pose.position ≤
      calcSquaredDist selfPose (between nearest.position second.position ratio)

variable {selfPose}

section

variable {nearest second : K × K}

omit [LinearOrder K] in
theorem calcSquaredDist_between (ratio : K) :
    calcSquaredDist selfPose (between nearest second ratio) = calcSquaredDist selfPose nearest -
      2 * (1 - ratio) * ahead selfPose nearest second +
        (1 - ratio) * (1 - ratio) * calcSquaredDist nearest second := by
  simp only [calcSquaredDist, between, ahead]
  ring

variable [IsStrictOrderedRing K]

theorem sub_gain_le {ratio : K} (hspace : 0 < calcSquaredDist nearest second) (hlow : 0 ≤ ratio)
    (hhigh : ratio ≤ 1) : calcSquaredDist selfPose nearest - gain selfPose nearest second ≤
      calcSquaredDist selfPose (between nearest second ratio) := by
  rw [calcSquaredDist_between, gain]
  generalize ahead selfPose nearest second = dot
  generalize calcSquaredDist nearest second = cSq at hspace ⊢
  have hback := sub_nonneg.mpr hhigh
  split
  · next hbehind =>
    have hsquare := mul_nonneg (mul_nonneg hback hback) hspace.le
    linarith [mul_nonneg hback (neg_nonneg.mpr hbehind)]
  · split
    · have hexpand : (dot - (1 - ratio) * cSq) * (dot - (1 - ratio) * cSq) / cSq =
          dot * dot / cSq - 2 * (1 - ratio) * dot + (1 - ratio) * (1 - ratio) * cSq := by
        rw [div_eq_iff hspace.ne', add_mul, sub_mul (dot * dot / cSq), div_mul_cancel₀ _ hspace.ne']
        ring
      linarith [div_nonneg (mul_self_nonneg (dot - (1 - ratio) * cSq)) hspace.le]
    · next hahead =>
      have hover := mul_nonneg hlow (sub_nonneg.mpr (not_lt.mp hahead))
      linarith [mul_nonneg (mul_nonneg hlow hlow) hspace.le]

variable (selfPose) in
theorem calcSquaredDist_nearestRatio (hspace : 0 < calcSquaredDist nearest second) :
    (0 ≤ nearestRatio selfPose nearest second ∧ nearestRatio selfPose nearest second ≤ 1) ∧
      calcSquaredDist selfPose (between nearest second (nearestRatio selfPose nearest second)) =
        calcSquaredDist selfPose nearest - gain selfPose nearest second := by
  refine ⟨⟨le_max_right .., max_le (min_le_right ..) zero_le_one⟩, ?_⟩
  have hratio : nearestRatio selfPose nearest second =
      max (min (1 - ahead selfPose nearest second / calcSquaredDist nearest second) 1) 0 := by
    rw [nearestRatio]
    congr 2
    rw [eq_sub_iff_add_eq, ← add_div, div_eq_one_iff_eq hspace.ne']
    simp only [calcSquaredDist, ahead]
    ring
  rw [calcSquaredDist_between, hratio, gain]
  generalize ahead selfPose nearest second = dot
  generalize calcSquaredDist nearest second = cSq at hspace ⊢
  split
  · next hbehind =>
    have hquot := div_nonpos_of_nonpos_of_nonneg hbehind hspace.le
    rw [min_eq_right (by linarith), max_eq_left zero_le_one]
    ring
  · next hfront =>
    have hquot := div_nonneg (not_le.mp hfront).le hspace.le
    rw [min_eq_left (by linarith)]
    split
    · next hinside =>
      rw [max_eq_left (sub_nonneg.mpr ((div_le_one hspace).mpr hinside.le)), sub_sub_cancel,
        mul_div_assoc, mul_assoc (dot / cSq), div_mul_cancel₀ _ hspace.ne']
      ring
    · next hahead =>
      rw [max_eq_right (sub_nonpos.mpr ((one_le_div hspace).mpr (not_lt.mp hahead)))]
      ring

end

variable {traj : MPCTrajectory K} {size idx : ℕ} {nearest : TrajectoryPoint K}

omit [Field K] [LinearOrder K] in
theorem exists_point (hsize : traj.HasSize size) (hidx : idx < size) :
    ∃ point, traj.point idx = some point := by
  obtain ⟨hx, hy, -, hyaw, -, -, -, htime⟩ := hsize
  rw [MPCTrajectory.point, List.getElem?_eq_getElem (hx ▸ hidx),
    List.getElem?_eq_getElem (hy ▸ hidx), List.getElem?_eq_getElem (hyaw ▸ hidx),
    List.getElem?_eq_getElem (htime ▸ hidx)]
  exact ⟨_, rfl⟩

theorem exists_secondNearest (selfPose : K × K) (hsize : traj.HasSize size) (hidx : idx < size)
    (hnearest : traj.point idx = some nearest) :
    ∃ second, secondNearest selfPose traj idx = some second ∧
      (Neighbour traj idx second ∨ second = nearest) := by
  have hcount : traj.size = size := by rw [MPCTrajectory.size, hsize.1, if_pos hsize]
  obtain ⟨next, hnext⟩ := exists_point hsize (show min (idx + 1) (size - 1) < size by omega)
  obtain ⟨prev, hprev⟩ := exists_point hsize (show idx - 1 < size by omega)
  refine ⟨_, by rw [secondNearest, hcount, hnext, hprev]; rfl, ?_⟩
  split
  · rcases Nat.lt_or_ge (idx + 1) size with hlt | hge
    · rw [min_eq_left (by omega)] at hnext
      exact .inl ⟨idx + 1, .inl rfl, hnext⟩
    · rw [show min (idx + 1) (size - 1) = idx by omega] at hnext
      exact .inr (Option.some.inj (hnext.symm.trans hnearest))
  · cases idx with
    | zero => exact .inr (Option.some.inj (hprev.symm.trans hnearest))
    | succ idx => exact .inl ⟨idx, .inr rfl, hprev⟩

variable [IsStrictOrderedRing K]

/-- The closest pose is found exactly if no adjacent segment comes nearer by more than the chosen
one; a vertex that is its own neighbour comes no nearer. -/
theorem calcNearestPoseInterp_isNearest_iff (hsize : traj.HasSize size) (htwo : 2 ≤ size)
    (hidx : idx < size) (hnearest : traj.point idx = some nearest)
    (hspaced : ∀ second, Neighbour traj idx second →
      1 / 100000 < calcSquaredDist nearest.position second.position) :
    ∃ second pose, secondNearest selfPose traj idx = some second ∧
      calcNearestPoseInterp angles selfPose traj idx = some pose ∧
      (IsNearest angles selfPose traj idx nearest pose ↔ ∀ other, Neighbour traj idx other →
        gain selfPose nearest.position other.position ≤
          gain selfPose nearest.position second.position) := by
  have hone : traj.size ≠ 1 := by
    rw [MPCTrajectory.size, hsize.1, if_pos hsize]
    omega
  have hpos (other : TrajectoryPoint K) (hother : Neighbour traj idx other) :
      0 < calcSquaredDist nearest.position other.position :=
    lt_trans (div_pos zero_lt_one (by norm_num)) (hspaced other hother)
  obtain ⟨second, hsecond, hplace⟩ := exists_secondNearest selfPose hsize hidx hnearest
  -- the pose lies on a segment, nearer than the vertex by the gain of the chosen one
  obtain ⟨pose, hpose, hon, hdist⟩ : ∃ pose,
      calcNearestPoseInterp angles selfPose traj idx = some pose ∧
      (pose = vertexPose angles nearest ∨ ∃ other ratio, Neighbour traj idx other ∧
        (0 ≤ ratio ∧ ratio ≤ 1) ∧ pose = interpolatedPose angles nearest other ratio) ∧
      calcSquaredDist selfPose pose.position = calcSquaredDist selfPose nearest.position -
        gain selfPose nearest.position second.position := by
    rcases hplace with hneighbour | rfl
    · obtain ⟨hratio, hdist⟩ :=
        calcSquaredDist_nearestRatio selfPose (hpos second hneighbour)
      refine ⟨_, ?_, .inr ⟨second, _, hneighbour, hratio, rfl⟩, hdist⟩
      simp only [calcNearestPoseInterp, hnearest, hsecond, if_neg hone,
        if_neg (not_lt.mpr (hspaced second hneighbour).le), Option.bind_eq_bind, Option.bind_some]
      rfl
    · refine ⟨vertexPose angles second, ?_, .inl rfl, ?_⟩
      · simp [calcNearestPoseInterp, hnearest, hone, hsecond, calcSquaredDist]
      · simp [vertexPose, gain, ahead]
  refine ⟨second, pose, hsecond, hpose, fun hclosest other hother => ?_,
    fun hgain => ⟨hon, fun other ratio hother hlow hhigh => ?_⟩⟩
  · obtain ⟨⟨hlow, hhigh⟩, hbest⟩ :=
      calcSquaredDist_nearestRatio selfPose (hpos other hother)
    have hle := hclosest.closest other _ hother hlow hhigh
    rw [hdist, hbest] at hle
    exact sub_le_sub_iff_left _ |>.mp hle
  · rw [hdist]
    exact (sub_le_sub_left (hgain other hother) _).trans
      (sub_gain_le (hpos other hother) hlow hhigh)

def twoPoints : MPCTrajectory ℚ :=
  ⟨[0, 1], [0, 0], [0, 0], [0, 0], [0, 0], [0, 0], [0, 0], [0, 1]⟩

def sameAngles : Angles ℚ ℚ := ⟨id, id⟩

theorem calcNearestPoseInterp_isNearest_twoPoints :
    ∃ second pose, secondNearest (2 / 5, 0) twoPoints 0 = some second ∧
      calcNearestPoseInterp sameAngles (2 / 5, 0) twoPoints 0 = some pose ∧
      (IsNearest sameAngles (2 / 5, 0) twoPoints 0 ⟨(0, 0), 0, 0⟩ pose ↔
        ∀ other, Neighbour twoPoints 0 other →
          gain (2 / 5, 0) (0, 0) other.position ≤ gain (2 / 5, 0) (0, 0) second.position) := by
  have hsize : twoPoints.HasSize 2 := by decide
  refine calcNearestPoseInterp_isNearest_iff _ hsize le_rfl zero_lt_two rfl ?_
  rintro second ⟨j, rfl | hj, hpoint⟩
  · cases hpoint
    decide +kernel
  · cases hj

/-- Ahead of the first point the point itself is returned. -/
theorem calcNearestPoseInterp_front :
    calcNearestPoseInterp sameAngles (2 / 5, 0) twoPoints 0 = some ⟨(0, 0), 0, 0⟩ ∧
      ¬ IsNearest sameAngles (2 / 5, 0) twoPoints 0 ⟨(0, 0), 0, 0⟩ ⟨(0, 0), 0, 0⟩ := by
  refine ⟨by decide +kernel, fun hnearest => ?_⟩
  have hcloser := hnearest.closest ⟨(1, 0), 0, 1⟩ (3 / 5) ⟨1, .inl rfl, rfl⟩
  revert hcloser
  decide +kernel

end AutowareUniverse.Control.Mpc
