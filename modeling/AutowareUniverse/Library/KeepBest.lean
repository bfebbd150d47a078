import Mathlib.Data.List.Perm.Basic
import Mathlib.Order.Lattice

/-!
# Keeping the best value

A fold that replaces the value it keeps by each one with a larger key ends with the first of the
values with the largest key.  Its result does not depend on the order of the values exactly if
those with the largest key are all the same.
-/

namespace AutowareUniverse.Library.KeepBest

variable {κ α : Type} [LinearOrder κ] (key : α → κ)

def keepBest (kept value : α) : α :=
  if key kept < key value then value else kept

/-- What the fold ends with. -/
structure IsBest (start : α) (values : List α) (result : α) : Prop where
  mem : result = start ∨ result ∈ values ∧ key start < key result
  start_le : key start ≤ key result
  le : ∀ value ∈ values, key value ≤ key result

variable {key}

theorem foldl_keepBest (key : α → κ) (start : α) (values : List α) :
    IsBest key start values (values.foldl (keepBest key) start) := by
  induction values generalizing start with
  | nil => exact ⟨.inl rfl, le_rfl, fun _ hmem => absurd hmem List.not_mem_nil⟩
  | cons value later ih =>
    have hlater := ih (keepBest key start value)
    have hkept : key start ≤ key (keepBest key start value) ∧
        key value ≤ key (keepBest key start value) := by
      unfold keepBest
      split
      · rename_i hlt
        exact ⟨hlt.le, le_rfl⟩
      · rename_i hnot
        exact ⟨le_rfl, not_lt.mp hnot⟩
    rw [List.foldl_cons]
    refine ⟨?_, hkept.1.trans hlater.start_le,
      List.forall_mem_cons.mpr ⟨hkept.2.trans hlater.start_le, hlater.le⟩⟩
    rcases hlater.mem with heq | ⟨hmem, hlt⟩
    · rw [heq]
      unfold keepBest
      split
      · rename_i hlt
        exact .inr ⟨List.mem_cons_self, hlt⟩
      · exact .inl rfl
    · exact .inr ⟨List.mem_cons_of_mem _ hmem, hkept.1.trans_lt hlt⟩

theorem foldl_keepBest_front {start front : α} {later : List α} (hlt : key start < key front)
    (hle : ∀ value ∈ later, key value ≤ key front) :
    (front :: later).foldl (keepBest key) start = front := by
  rw [List.foldl_cons, keepBest, if_pos hlt]
  rcases (foldl_keepBest key front later).mem with heq | ⟨hmem, hbetter⟩
  · exact heq
  · exact absurd hbetter (not_lt.mpr (hle _ hmem))

def OneBest (key : α → κ) (start : α) (values : List α) : Prop :=
  ∀ first ∈ values, ∀ second ∈ values, key start < key first → key first = key second →
    (∀ value ∈ values, key value ≤ key first) → first = second

theorem OneBest.foldl_eq {start : α} {values others : List α} (hbest : OneBest key start values)
    (hperm : values.Perm others) :
    values.foldl (keepBest key) start = others.foldl (keepBest key) start := by
  have hfirst := foldl_keepBest key start values
  have hsecond := foldl_keepBest key start others
  rcases hfirst.mem with heq | ⟨hmem, hlt⟩
  · rcases hsecond.mem with hother | ⟨hmem, hlt⟩
    · rw [heq, hother]
    · have hle := hfirst.le _ (hperm.mem_iff.mpr hmem)
      rw [heq] at hle
      exact absurd hlt (not_lt.mpr hle)
  · rcases hsecond.mem with hother | ⟨hmem', hlt'⟩
    · have hle := hsecond.le _ (hperm.mem_iff.mp hmem)
      rw [hother] at hle
      exact absurd hlt (not_lt.mpr hle)
    · exact hbest _ hmem _ (hperm.mem_iff.mpr hmem') hlt
        (le_antisymm (hsecond.le _ (hperm.mem_iff.mp hmem))
          (hfirst.le _ (hperm.mem_iff.mpr hmem'))) hfirst.le

theorem foldl_order_iff {start : α} {values : List α} : (∀ others, values.Perm others →
      others.foldl (keepBest key) start = values.foldl (keepBest key) start) ↔
      OneBest key start values := by
  refine ⟨fun hsame first hfirst second hsecond hlt heq hle => ?_, fun hbest others hperm =>
    (hbest.foldl_eq hperm).symm⟩
  -- The orders with one of the two values in front.
  have hresult (front : α) (hfront : front ∈ values) (hkey : key first = key front) :
      values.foldl (keepBest key) start = front := by
    obtain ⟨before, behind, hsplit⟩ := List.append_of_mem hfront
    have hperm : values.Perm (front :: (before ++ behind)) := hsplit ▸ List.perm_middle
    rw [← hsame _ hperm]
    refine foldl_keepBest_front (hkey ▸ hlt) fun value hvalue => ?_
    exact hkey ▸ hle value (hperm.mem_iff.mpr (List.mem_cons_of_mem _ hvalue))
  rw [← hresult first hfirst rfl, hresult second hsecond heq]

end AutowareUniverse.Library.KeepBest
