import Mathlib.Algebra.BigOperators.Group.List.Basic
import Mathlib.Algebra.Order.Group.Basic
import Mathlib.Tactic.Linarith

/-!
# Prefix sums

Positions along a sequence of lengths that are not negative: the sum of the lengths before
an index, and the search for the length in which the position at a given distance before or
behind an index lies.
-/

namespace AutowareUniverse.Library.PrefixSums

variable {K : Type} [Field K]

/-- The position of an index. -/
def prefixSum (lengths : List K) (idx : ℕ) : K :=
  (lengths.take idx).sum

@[simp] theorem prefixSum_zero (lengths : List K) : prefixSum lengths 0 = 0 := rfl

variable {idx : ℕ}

theorem prefixSum_succ {lengths : List K} {length : K} (hlength : lengths[idx]? = some length) :
    prefixSum lengths (idx + 1) = prefixSum lengths idx + length := by
  rw [prefixSum, List.take_add_one, hlength, List.sum_append]
  simp [prefixSum]

/-- From the end on the position does not change. -/
theorem prefixSum_succ_of_none {lengths : List K} (hnone : lengths[idx]? = none) :
    prefixSum lengths (idx + 1) = prefixSum lengths idx := by
  rw [prefixSum, List.take_add_one, hnone]
  simp [prefixSum]

section

variable [LinearOrder K]

/-- The first length, behind an index, with which the sum reaches the offset, and the rest. -/
def findForward (lengths : List K) (offset : K) : ℕ → ℕ → K → Option (ℕ × K)
  | 0, _, _ => none
  | remaining + 1, idx, sum =>
    match lengths[idx]? with
    | none => none
    | some length =>
      if offset ≤ sum + length then some (idx, sum + length - offset)
      else findForward lengths offset remaining (idx + 1) (sum + length)

/-- The last length, before an index, with which the sum reaches the offset, and the rest. -/
def findBackward (lengths : List K) (offset : K) : ℕ → K → Option (ℕ × K)
  | 0, _ => none
  | idx + 1, sum =>
    match lengths[idx]? with
    | none => none
    | some length =>
      if offset ≤ sum + length then some (idx, sum + length - offset)
      else findBackward lengths offset idx (sum + length)

variable [IsStrictOrderedRing K] {lengths : List K} {offset : K}

theorem prefixSum_mono (hlengths : ∀ length ∈ lengths, 0 ≤ length) :
    Monotone (prefixSum lengths) := by
  refine monotone_nat_of_le_succ fun idx => ?_
  cases hlength : lengths[idx]? with
  | none => rw [prefixSum_succ_of_none hlength]
  | some length =>
    rw [prefixSum_succ hlength]
    exact le_add_of_nonneg_right (hlengths length (List.mem_of_getElem? hlength))

/-- What is found in front of an index is the length around the position searched for. -/
theorem findBackward_cases {sum : K} (hidx : idx ≤ lengths.length) (hsum : sum < offset) :
    (∃ found, findBackward lengths offset idx sum =
        some (found, prefixSum lengths idx + sum - offset - prefixSum lengths found) ∧
      found < idx ∧ prefixSum lengths found ≤ prefixSum lengths idx + sum - offset ∧
      prefixSum lengths idx + sum - offset < prefixSum lengths (found + 1)) ∨
    (findBackward lengths offset idx sum = none ∧ prefixSum lengths idx + sum - offset < 0) := by
  induction idx generalizing sum with
  | zero =>
    refine .inr ⟨rfl, ?_⟩
    rw [prefixSum_zero]
    linarith
  | succ idx ih =>
    have hlength : lengths[idx]? = some lengths[idx] := List.getElem?_eq_getElem hidx
    have hsucc := prefixSum_succ hlength
    rw [findBackward, hlength]
    dsimp only
    by_cases hreached : offset ≤ sum + lengths[idx]
    · rw [if_pos hreached]
      refine .inl ⟨idx, ?_, idx.lt_succ_self, ?_, ?_⟩
      · congr 2
        linarith
      · linarith
      · linarith
    · rw [if_neg hreached]
      have hrest := ih (Nat.le_of_succ_le hidx) (not_le.mp hreached)
      have hposition : prefixSum lengths idx + (sum + lengths[idx]) - offset =
          prefixSum lengths (idx + 1) + sum - offset := by
        linarith
      rw [hposition] at hrest
      exact hrest.imp_left fun ⟨found, hfound, hlt, hle, hbehind⟩ =>
        ⟨found, hfound, hlt.trans idx.lt_succ_self, hle, hbehind⟩

/-- What is found behind an index lies there, with a rest that is a part of the length. -/
theorem findForward_some {remaining idx found : ℕ} {sum rest : K} (hsum : sum ≤ offset)
    (hfound : findForward lengths offset remaining idx sum = some (found, rest)) :
    idx ≤ found ∧ 0 ≤ rest ∧
      ∃ length, lengths[found]? = some length ∧ rest ≤ length ∧ (sum < offset → rest < length) := by
  induction remaining generalizing idx sum with
  | zero => cases hfound
  | succ remaining ih =>
    rw [findForward] at hfound
    cases hlength : lengths[idx]? with
    | none =>
      rw [hlength] at hfound
      cases hfound
    | some length =>
      rw [hlength] at hfound
      dsimp only at hfound
      by_cases hreached : offset ≤ sum + length
      · rw [if_pos hreached] at hfound
        cases hfound
        exact ⟨le_rfl, sub_nonneg.mpr hreached, length, hlength, by linarith, fun _ => by linarith⟩
      · rw [if_neg hreached] at hfound
        obtain ⟨hle, hrest, last, hlast, hpart, hstrict⟩ := ih (not_le.mp hreached).le hfound
        exact ⟨(Nat.le_succ idx).trans hle, hrest, last, hlast, hpart,
          fun _ => hstrict (not_le.mp hreached)⟩

/-- What is found behind an index is the length around the position searched for. -/
theorem findForward_cases {remaining idx : ℕ} {sum : K} (hidx : idx + remaining = lengths.length)
    (hremaining : 0 < remaining) :
    (∃ found, findForward lengths offset remaining idx sum =
        some (found, prefixSum lengths (found + 1) - (prefixSum lengths idx + offset - sum)) ∧
      idx ≤ found ∧ found < lengths.length ∧
      prefixSum lengths idx + offset - sum ≤ prefixSum lengths (found + 1) ∧
      (found = idx ∨ prefixSum lengths found < prefixSum lengths idx + offset - sum)) ∨
    (findForward lengths offset remaining idx sum = none ∧
      prefixSum lengths lengths.length < prefixSum lengths idx + offset - sum) := by
  induction remaining generalizing idx sum with
  | zero => cases hremaining
  | succ remaining ih =>
    have hlt : idx < lengths.length := by omega
    have hlength : lengths[idx]? = some lengths[idx] := List.getElem?_eq_getElem hlt
    have hsucc := prefixSum_succ hlength
    have hposition : prefixSum lengths (idx + 1) + offset - (sum + lengths[idx]) =
        prefixSum lengths idx + offset - sum := by
      linarith
    rw [findForward, hlength]
    dsimp only
    by_cases hreached : offset ≤ sum + lengths[idx]
    · rw [if_pos hreached]
      refine .inl ⟨idx, ?_, le_rfl, hlt, ?_, .inl rfl⟩
      · congr 2
        linarith
      · linarith
    · rw [if_neg hreached]
      have hbehind : prefixSum lengths (idx + 1) < prefixSum lengths idx + offset - sum := by
        linarith [not_le.mp hreached]
      cases remaining with
      | zero =>
        have hend : idx + 1 = lengths.length := hidx
        rw [← hend]
        exact .inr ⟨rfl, hbehind⟩
      | succ remaining =>
        have hrest := @ih (idx + 1) (sum + lengths[idx]) (by omega) (by omega)
        rw [hposition] at hrest
        refine hrest.imp_left fun ⟨found, hfound, hle, hend, hreach, hfirst⟩ =>
          ⟨found, hfound, (Nat.le_succ idx).trans hle, hend, hreach, .inr ?_⟩
        rcases hfirst with rfl | hfirst
        · exact hbehind
        · exact hfirst

omit [IsStrictOrderedRing K] in
/-- An offset that is reached already is found on the next length. -/
theorem findForward_of_le {remaining idx : ℕ} {sum length : K} (hremaining : 0 < remaining)
    (hlength : lengths[idx]? = some length) (hreached : offset ≤ sum + length) :
    findForward lengths offset remaining idx sum = some (idx, sum + length - offset) := by
  cases remaining with
  | zero => cases hremaining
  | succ remaining =>
    rw [findForward, hlength]
    exact if_pos hreached

end

variable {P : Type} {dist : P → P → K} {points : List P}

def lengthsOf (dist : P → P → K) (points : List P) : List K :=
  points.zipWith dist points.tail

section
omit [Field K]

theorem length_lengthsOf : (lengthsOf dist points).length = points.length - 1 := by
  rw [lengthsOf, List.length_zipWith, List.length_tail]
  omega

theorem getElem?_lengthsOf {front back : P} (hfront : points[idx]? = some front)
    (hback : points[idx + 1]? = some back) :
    (lengthsOf dist points)[idx]? = some (dist front back) := by
  rw [lengthsOf, List.getElem?_zipWith, List.getElem?_tail, hfront, hback]

theorem getElem?_lengthsOf_eq_none (hback : points[idx + 1]? = none) :
    (lengthsOf dist points)[idx]? = none := by
  rw [List.getElem?_eq_none_iff] at hback ⊢
  rw [length_lengthsOf]
  omega

end

theorem prefixSum_insertIdx_of_le {idx inserted : ℕ} {point : P} (hidx : idx ≤ inserted)
    (hinserted : inserted < points.length) :
    prefixSum (lengthsOf dist (points.insertIdx (inserted + 1) point)) idx =
      prefixSum (lengthsOf dist points) idx := by
  induction idx with
  | zero => rfl
  | succ idx ih =>
    have hfront : points[idx]? = some points[idx] := List.getElem?_eq_getElem (by omega)
    have hback : points[idx + 1]? = some points[idx + 1] := List.getElem?_eq_getElem (by omega)
    rw [prefixSum_succ (getElem?_lengthsOf hfront hback), prefixSum_succ (getElem?_lengthsOf
        ((List.getElem?_insertIdx_of_lt (by omega)).trans hfront)
        ((List.getElem?_insertIdx_of_lt (by omega)).trans hback)),
      ih (Nat.le_of_succ_le hidx)]

theorem prefixSum_insertIdx_self {inserted : ℕ} {front point : P}
    (hfront : points[inserted]? = some front) :
    prefixSum (lengthsOf dist (points.insertIdx (inserted + 1) point)) (inserted + 1) =
      prefixSum (lengthsOf dist points) inserted + dist front point := by
  have hinserted : inserted < points.length := (List.getElem?_eq_some_iff.mp hfront).1
  rw [prefixSum_succ (getElem?_lengthsOf
      ((List.getElem?_insertIdx_of_lt (by omega)).trans hfront)
      (List.getElem?_insertIdx_self.trans (if_pos (by omega)))),
    prefixSum_insertIdx_of_le le_rfl hinserted]

theorem prefixSum_insertIdx_of_lt {idx inserted : ℕ} {front back point : P}
    (hfront : points[inserted]? = some front) (hback : points[inserted + 1]? = some back)
    (hbetween : dist front point + dist point back = dist front back) (hidx : inserted < idx) :
    prefixSum (lengthsOf dist (points.insertIdx (inserted + 1) point)) (idx + 1) =
      prefixSum (lengthsOf dist points) idx := by
  have hinserted : inserted + 1 < points.length := (List.getElem?_eq_some_iff.mp hback).1
  obtain ⟨behind, rfl⟩ : ∃ behind, idx = inserted + 1 + behind := ⟨idx - (inserted + 1), by omega⟩
  clear hidx
  have hshift : ∀ other, (points.insertIdx (inserted + 1) point)[inserted + 2 + other]? =
      points[inserted + 1 + other]? := fun other => by
    rw [List.getElem?_insertIdx_of_gt (by omega)]
    congr 1
    omega
  induction behind with
  | zero =>
    rw [Nat.add_zero, prefixSum_succ (getElem?_lengthsOf
        (List.getElem?_insertIdx_self.trans (if_pos (by omega))) ((hshift 0).trans hback)),
      prefixSum_insertIdx_self hfront, prefixSum_succ (getElem?_lengthsOf hfront hback),
      add_assoc, hbetween]
  | succ behind ih =>
    have hindex : inserted + 1 + (behind + 1) + 1 = inserted + 2 + behind + 1 := by omega
    have hposition : inserted + 1 + behind + 1 = inserted + 2 + behind := by omega
    rw [hindex, ← Nat.add_assoc]
    rw [hposition] at ih
    have hafter : (points.insertIdx (inserted + 1) point)[inserted + 2 + behind + 1]? =
        points[inserted + 1 + behind + 1]? := hshift (behind + 1)
    cases hnext : points[inserted + 1 + behind + 1]? with
    | none =>
      rw [prefixSum_succ_of_none (getElem?_lengthsOf_eq_none hnext),
        prefixSum_succ_of_none (getElem?_lengthsOf_eq_none (hafter.trans hnext)), ih]
    | some next =>
      have hlt : inserted + 1 + behind + 1 < points.length := (List.getElem?_eq_some_iff.mp hnext).1
      have hcurrent : points[inserted + 1 + behind]? = some points[inserted + 1 + behind] :=
        List.getElem?_eq_getElem (Nat.lt_of_succ_lt hlt)
      rw [prefixSum_succ (getElem?_lengthsOf hcurrent hnext),
        prefixSum_succ (getElem?_lengthsOf ((hshift behind).trans hcurrent)
          (hafter.trans hnext)), ih]

end AutowareUniverse.Library.PrefixSums
