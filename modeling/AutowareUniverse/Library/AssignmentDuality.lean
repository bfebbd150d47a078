import Mathlib.Algebra.BigOperators.Ring.Finset
import Mathlib.Algebra.Order.BigOperators.Group.Finset
import Mathlib.Tactic.Linarith

/-!
# Assignments and potentials

A partial assignment is a set of pairs in which no left and no right element
occurs twice.  Potentials of the elements that fit an assignment bound how much
more any other assignment can score: the bound depends only on the sizes of the
two assignments.
-/

namespace AutowareUniverse.Library.AssignmentDuality

variable {α β ι R : Type*} [CommRing R] [LinearOrder R] [IsStrictOrderedRing R]

/-- No left element and no right element is in two pairs. -/
structure IsAssignment (pairs : Finset (α × β)) : Prop where
  left : Set.InjOn Prod.fst (pairs : Set (α × β))
  right : Set.InjOn Prod.snd (pairs : Set (α × β))

theorem sum_le_sum_of_sign [DecidableEq ι] {first second : Finset ι} {f : ι → R}
    (hdropped : ∀ i ∈ first, i ∉ second → f i ≤ 0) (hnew : ∀ i ∈ second, i ∉ first → 0 ≤ f i) :
    ∑ i ∈ first, f i ≤ ∑ i ∈ second, f i := by
  have hfirst := Finset.sum_inter_add_sum_sdiff first second f
  have hsecond := Finset.sum_inter_add_sum_sdiff second first f
  rw [Finset.inter_comm] at hsecond
  have hless : ∑ i ∈ first \ second, f i ≤ 0 := by
    refine Finset.sum_nonpos fun i hmem => ?_
    obtain ⟨hin, hout⟩ := Finset.mem_sdiff.mp hmem
    exact hdropped i hin hout
  have hmore : 0 ≤ ∑ i ∈ second \ first, f i := by
    refine Finset.sum_nonneg fun i hmem => ?_
    obtain ⟨hin, hout⟩ := Finset.mem_sdiff.mp hmem
    exact hnew i hin hout
  linarith

variable [DecidableEq α] [DecidableEq β]

structure Fits (pairs : Finset (α × β)) (allowed : α × β → Prop) (score : α × β → R)
    (bound level : R) (left : α → R) (right : β → R) : Prop where
  assigned : ∀ pair ∈ pairs, bound + left pair.1 - right pair.2 ≤ score pair
  other : ∀ pair, allowed pair → pair ∉ pairs → score pair ≤ bound + left pair.1 - right pair.2
  left_nonneg : ∀ a, 0 ≤ left a
  left_free : ∀ a, a ∉ pairs.image Prod.fst → left a ≤ 0
  right_le : ∀ b ∈ pairs.image Prod.snd, right b ≤ level
  right_free : ∀ b, b ∉ pairs.image Prod.snd → level ≤ right b

namespace Fits

variable {pairs others : Finset (α × β)} {allowed : α × β → Prop} {score : α × β → R}
  {bound level : R} {left : α → R} {right : β → R}
  (hfits : Fits pairs allowed score bound level left right)

include hfits

theorem score_le (hpairs : IsAssignment pairs) (hothers : IsAssignment others)
    (hallowed : ∀ pair ∈ others, allowed pair) :
    ∑ pair ∈ others, score pair ≤
      ∑ pair ∈ pairs, score pair + (bound - level) * (others.card - pairs.card) := by
  have hreduced : ∑ pair ∈ others, (score pair - (bound + left pair.1 - right pair.2)) ≤
      ∑ pair ∈ pairs, (score pair - (bound + left pair.1 - right pair.2)) := by
    refine sum_le_sum_of_sign (fun pair hmem hnot => ?_) fun pair hmem _ => ?_
    · linarith [hfits.other pair (hallowed pair hmem) hnot]
    · linarith [hfits.assigned pair hmem]
  have hleft : ∑ pair ∈ others, left pair.1 ≤ ∑ pair ∈ pairs, left pair.1 := by
    rw [← Finset.sum_image hothers.left, ← Finset.sum_image hpairs.left]
    exact sum_le_sum_of_sign (fun a _ hfree => hfits.left_free a hfree)
      fun a _ _ => hfits.left_nonneg a
  have hright : ∑ pair ∈ pairs, (right pair.2 - level) ≤
      ∑ pair ∈ others, (right pair.2 - level) := by
    rw [← Finset.sum_image (f := fun b => right b - level) hothers.right,
      ← Finset.sum_image (f := fun b => right b - level) hpairs.right]
    refine sum_le_sum_of_sign (fun b hmem _ => ?_) fun b _ hfree => ?_
    · linarith [hfits.right_le b hmem]
    · linarith [hfits.right_free b hfree]
  simp only [Finset.sum_sub_distrib, Finset.sum_add_distrib, Finset.sum_const,
    nsmul_eq_mul] at hreduced hright
  linarith

/-- No assignment that is at most as large is better if the level is below the bound. -/
theorem score_le_of_card_le (hpairs : IsAssignment pairs) (hothers : IsAssignment others)
    (hallowed : ∀ pair ∈ others, allowed pair) (hlevel : level ≤ bound)
    (hcard : others.card ≤ pairs.card) :
    ∑ pair ∈ others, score pair ≤ ∑ pair ∈ pairs, score pair := by
  have hscore := hfits.score_le hpairs hothers hallowed
  have hcast : (others.card : R) ≤ pairs.card := Nat.cast_le.mpr hcard
  have hproduct := mul_nonneg (sub_nonneg.mpr hlevel) (sub_nonneg.mpr hcast)
  linarith

/-- No assignment that is at least as large is better if the level is above the bound. -/
theorem score_le_of_le_card (hpairs : IsAssignment pairs) (hothers : IsAssignment others)
    (hallowed : ∀ pair ∈ others, allowed pair) (hlevel : bound ≤ level)
    (hcard : pairs.card ≤ others.card) :
    ∑ pair ∈ others, score pair ≤ ∑ pair ∈ pairs, score pair := by
  have hscore := hfits.score_le hpairs hothers hallowed
  have hcast : (pairs.card : R) ≤ others.card := Nat.cast_le.mpr hcard
  have hproduct := mul_nonneg (sub_nonneg.mpr hlevel) (sub_nonneg.mpr hcast)
  linarith

end Fits

end AutowareUniverse.Library.AssignmentDuality
