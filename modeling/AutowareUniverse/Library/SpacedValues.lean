import Mathlib.Algebra.Order.Field.Basic
import Mathlib.Algebra.Order.Floor.Semiring
import Mathlib.Tactic.Linarith
import Mathlib.Tactic.Ring

/-!
# Values with a gap between them

A value is put into a list unless the list has a value closer than a gap.  The values of such
a list are apart from each other, and each value that was offered is close to one of them.
Of the multiples of an interval, those of the least multiple that is not within the gap are
taken.
-/

namespace AutowareUniverse.Library.SpacedValues

variable {K : Type} [Field K] [LinearOrder K] (gap : K)

def hasClose (values : List K) (x : K) : Bool :=
  values.any fun value => |value - x| < gap

def insertUnlessClose (values : List K) (x : K) : List K :=
  if hasClose gap values x then values else values ++ [x]

variable {gap} {values : List K} {x y : K}

theorem hasClose_eq_true_iff : hasClose gap values x = true ↔
    ∃ value ∈ values, |value - x| < gap := by
  simp [hasClose]

theorem hasClose_eq_false_iff : hasClose gap values x = false ↔
    ∀ value ∈ values, gap ≤ |value - x| := by
  simp [hasClose]

theorem mem_insertUnlessClose : y ∈ insertUnlessClose gap values x ↔
    y ∈ values ∨ y = x ∧ ∀ value ∈ values, gap ≤ |value - x| := by
  rw [insertUnlessClose]
  cases hclose : hasClose gap values x with
  | true =>
    obtain ⟨value, hvalue, hlt⟩ := hasClose_eq_true_iff.mp hclose
    refine ⟨.inl, ?_⟩
    rintro (hy | ⟨_, hfar⟩)
    · exact hy
    · exact absurd hlt (hfar value hvalue).not_gt
  | false =>
    have hfar := hasClose_eq_false_iff.mp hclose
    rw [if_neg Bool.false_ne_true, List.mem_append, List.mem_singleton, and_iff_left hfar]

theorem mem_insertUnlessClose_of_mem (hy : y ∈ values) : y ∈ insertUnlessClose gap values x :=
  mem_insertUnlessClose.mpr (.inl hy)

section

variable [IsStrictOrderedRing K] (hgap : 0 < gap)

include hgap

theorem near_insertUnlessClose : ∃ value ∈ insertUnlessClose gap values x, |value - x| < gap := by
  rw [insertUnlessClose]
  cases hclose : hasClose gap values x with
  | true => exact hasClose_eq_true_iff.mp hclose
  | false =>
    refine ⟨x, List.mem_append_right _ (List.mem_singleton_self x), ?_⟩
    rw [sub_self, abs_zero]
    exact hgap

end

def Apart (gap : K) (values : List K) : Prop :=
  values.Pairwise fun first second => gap ≤ |first - second|

theorem Apart.insertUnlessClose (hapart : Apart gap values) (x : K) :
    Apart gap (insertUnlessClose gap values x) := by
  rw [SpacedValues.insertUnlessClose]
  cases hclose : hasClose gap values x with
  | true => exact hapart
  | false =>
    refine List.pairwise_append.mpr ⟨hapart, List.pairwise_singleton .., ?_⟩
    intro value hvalue other hother
    rw [List.mem_singleton.mp hother]
    exact hasClose_eq_false_iff.mp hclose value hvalue

theorem Apart.perm [IsStrictOrderedRing K] {others : List K} (hapart : Apart gap values)
    (hperm : values.Perm others) : Apart gap others :=
  List.Pairwise.perm hapart hperm fun hle => by rwa [abs_sub_comm]

/-! ## Multiples of an interval -/

variable (gap) (interval : K)

def insertMultiples (values : List K) (count : ℕ) : List K :=
  (List.range count).foldl (fun values (k : ℕ) => insertUnlessClose gap values (k * interval)) values

theorem insertMultiples_succ (values : List K) (count : ℕ) :
    insertMultiples gap interval values (count + 1) =
      insertUnlessClose gap (insertMultiples gap interval values count) (count * interval) := by
  rw [insertMultiples, List.range_succ, List.foldl_append]
  rfl

variable {gap interval}

theorem mem_insertMultiples_of_mem (hy : y ∈ values) (count : ℕ) :
    y ∈ insertMultiples gap interval values count := by
  induction count with
  | zero => exact hy
  | succ count ih =>
    rw [insertMultiples_succ]
    exact mem_insertUnlessClose_of_mem ih

theorem Apart.insertMultiples (hapart : Apart gap values) (count : ℕ) :
    Apart gap (insertMultiples gap interval values count) := by
  induction count with
  | zero => exact hapart
  | succ count ih =>
    rw [insertMultiples_succ]
    exact ih.insertUnlessClose _

variable [IsStrictOrderedRing K]

theorem near_insertMultiples (hgap : 0 < gap) {k count : ℕ} (hk : k < count) :
    ∃ value ∈ SpacedValues.insertMultiples gap interval values count,
      |value - k * interval| < gap := by
  induction count with
  | zero => exact absurd hk k.not_lt_zero
  | succ count ih =>
    rw [insertMultiples_succ]
    rcases Nat.lt_succ_iff_lt_or_eq.mp hk with hlt | rfl
    · obtain ⟨value, hvalue, hnear⟩ := ih hlt
      exact ⟨value, mem_insertUnlessClose_of_mem hvalue, hnear⟩
    · exact near_insertUnlessClose hgap

variable [FloorSemiring K]

variable (gap interval) in
/-- The least number of intervals that is not within the gap. -/
def stride : ℕ := ⌈gap / interval⌉₊

/-- Two multiples are apart if and only if they are apart by a stride. -/
theorem gap_le_iff (hinterval : 0 < interval) {j k : ℕ} (hle : j ≤ k) :
    gap ≤ |(j : K) * interval - k * interval| ↔ j + stride gap interval ≤ k := by
  have hdist : |(j : K) * interval - k * interval| = (k - j : ℕ) * interval := by
    rw [abs_sub_comm, Nat.cast_sub hle, ← sub_mul,
      abs_of_nonneg (mul_nonneg (sub_nonneg.mpr (Nat.cast_le.mpr hle)) hinterval.le)]
  rw [hdist, ← div_le_iff₀ hinterval, ← Nat.ceil_le, ← stride]
  omega

theorem stride_pos (hgap : 0 < gap) (hinterval : 0 < interval) : 0 < stride gap interval :=
  Nat.ceil_pos.mpr (div_pos hgap hinterval)

theorem mem_insertMultiples_iff (hgap : 0 < gap) (hinterval : 0 < interval) {count : ℕ} :
    x ∈ SpacedValues.insertMultiples gap interval [] count ↔
      ∃ j, j * stride gap interval < count ∧ x = (j * stride gap interval : ℕ) * interval := by
  have hstride := stride_pos hgap hinterval
  induction count generalizing x with
  | zero =>
    refine ⟨fun hx => absurd hx List.not_mem_nil, ?_⟩
    rintro ⟨j, hj, _⟩
    exact absurd hj (Nat.not_lt_zero _)
  | succ count ih =>
    have hfar : (∀ value ∈ SpacedValues.insertMultiples gap interval [] count,
        gap ≤ |value - count * interval|) ↔ stride gap interval ∣ count := by
      constructor
      · intro hfar
        by_contra hdvd
        have hmod := Nat.pos_of_ne_zero fun hzero => hdvd (Nat.dvd_of_mod_eq_zero hzero)
        have hdiv := Nat.div_add_mod' count (stride gap interval)
        have hlt := Nat.mod_lt count hstride
        have hbefore := (gap_le_iff hinterval (by omega)).mp
          (hfar _ (ih.mpr ⟨count / stride gap interval, by omega, rfl⟩))
        omega
      · rintro ⟨q, rfl⟩ value hvalue
        obtain ⟨j, hj, rfl⟩ := ih.mp hvalue
        rw [Nat.mul_comm] at hj
        have hjq := Nat.lt_of_mul_lt_mul_left hj
        refine (gap_le_iff hinterval (Nat.mul_comm _ q ▸ Nat.mul_le_mul_right _ hjq.le)).mpr ?_
        rw [← Nat.succ_mul, Nat.mul_comm _ q]
        exact Nat.mul_le_mul_right _ hjq
    rw [insertMultiples_succ, mem_insertUnlessClose, hfar]
    constructor
    · rintro (hx | ⟨rfl, q, hq⟩)
      · obtain ⟨j, hj, rfl⟩ := ih.mp hx
        exact ⟨j, Nat.lt_succ_of_lt hj, rfl⟩
      · refine ⟨q, ?_, ?_⟩
        · rw [hq, Nat.mul_comm]
          exact Nat.lt_succ_self _
        · rw [hq, Nat.mul_comm]
    · rintro ⟨j, hj, rfl⟩
      rcases Nat.lt_succ_iff_lt_or_eq.mp hj with hlt | heq
      · exact .inl (ih.mpr ⟨j, hlt, rfl⟩)
      · exact .inr ⟨by rw [heq], heq ▸ Nat.dvd_mul_left ..⟩

end AutowareUniverse.Library.SpacedValues
