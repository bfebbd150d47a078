import Mathlib.Algebra.BigOperators.Group.List.Lemmas
import Mathlib.Algebra.Order.BigOperators.Group.List
import Mathlib.Algebra.Order.Group.Nat
import Mathlib.Data.List.GetD
import Mathlib.Algebra.GroupWithZero.Nat

/-!
# Compressed lists of lists

Lists that are stored one behind the other in a single array, next to the array of the
positions where each of them starts and the last one ends.
-/

namespace AutowareUniverse.Library.CompressedLists

variable {α β : Type*}

def offsets (lengths : List ℕ) : List ℕ :=
  (List.range (lengths.length + 1)).map fun idx => (lengths.take idx).sum

/-- The part of an array between two positions. -/
def segment (values : List α) (start stop : ℕ) : List α :=
  (values.take stop).drop start

def stored (starts : List ℕ) (values : List α) (idx : ℕ) : List α :=
  segment values (starts.getD idx 0) (starts.getD (idx + 1) 0)

@[simp] theorem length_offsets (lengths : List ℕ) :
    (offsets lengths).length = lengths.length + 1 := by
  simp [offsets]

theorem getD_offsets {lengths : List ℕ} {idx : ℕ} (hidx : idx ≤ lengths.length) :
    (offsets lengths).getD idx 0 = (lengths.take idx).sum := by
  rw [List.getD_eq_getElem _ _ (by simpa using Nat.lt_succ_of_le hidx)]
  simp [offsets]

variable (lengths : List ℕ)

/-- A further list starts where the ones before it end. -/
theorem offsets_concat (length : ℕ) :
    offsets (lengths ++ [length]) = offsets lengths ++ [lengths.sum + length] := by
  rw [offsets, List.length_append, List.length_singleton, List.range_succ, List.map_append]
  congr 1
  · rw [offsets]
    refine List.map_congr_left fun idx hidx => ?_
    rw [List.take_append_of_le_length (Nat.le_of_lt_succ (List.mem_range.mp hidx))]
  · simp [List.take_of_length_le]

theorem head?_offsets : (offsets lengths).head? = some 0 := by
  simp [offsets, List.range_succ_eq_map]

theorem getLast?_offsets :
    (offsets lengths).getLast? = some lengths.sum := by
  simp [offsets, List.range_succ, List.take_of_length_le]

/-- The positions do not decrease. -/
theorem pairwise_offsets : (offsets lengths).Pairwise (· ≤ ·) := by
  rw [offsets, List.pairwise_map]
  refine List.pairwise_lt_range.imp fun hlt => ?_
  exact (List.take_sublist_take_left hlt.le).sum_le_sum (fun _ _ => Nat.zero_le _)

/-- Each list is found again between its position and the next one. -/
theorem stored_flatten {lists : List (List α)} {idx : ℕ} {list : List α}
    (hlist : lists[idx]? = some list) :
    stored (offsets (lists.map List.length)) lists.flatten idx = list := by
  obtain ⟨hidx, rfl⟩ := List.getElem?_eq_some_iff.mp hlist
  rw [stored, segment, getD_offsets (by rw [List.length_map]; exact hidx.le),
    getD_offsets (by rw [List.length_map]; exact hidx)]
  exact List.drop_take_succ_flatten_eq_getElem lists idx hidx

theorem stored_flatten_map {lists : List (List α)} {idx : ℕ} {list : List α}
    (hlist : lists[idx]? = some list) (component : α → β) :
    stored (offsets (lists.map List.length)) (lists.map (List.map component)).flatten idx =
      list.map component := by
  have hmap : (lists.map (List.map component))[idx]? = some (list.map component) := by
    rw [List.getElem?_map, hlist]
    rfl
  have hlengths : (lists.map (List.map component)).map List.length =
      lists.map List.length := by
    rw [List.map_map]
    exact List.map_congr_left fun _ _ => List.length_map _
  rw [← hlengths]
  exact stored_flatten hmap

end AutowareUniverse.Library.CompressedLists
