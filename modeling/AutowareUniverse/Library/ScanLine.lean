import Mathlib.Data.List.Rotate
import Mathlib.Algebra.BigOperators.Group.List.Basic
import Mathlib.Order.Lattice
import Mathlib.Algebra.Ring.Parity

/-!
# Edges of a closed chain

The pairs of neighbours in a list that is closed by an edge from its last element to its first
one: a property that goes along the edges goes all around, and the edges into a set are as
many as the edges out of it.
-/

namespace AutowareUniverse.Library.CyclicEdges

variable {P : Type}

def cyclicEdges (vertices : List P) : List (P × P) :=
  vertices.zip (vertices.rotate 1)

variable {vertices : List P} {edge : P × P}

theorem mem_cyclicEdges :
    edge ∈ cyclicEdges vertices ↔ ∃ i < vertices.length, vertices[i]? = some edge.1 ∧
      vertices[(i + 1) % vertices.length]? = some edge.2 := by
  constructor
  · intro hmem
    obtain ⟨i, hi⟩ := List.getElem?_of_mem hmem
    obtain ⟨hfirst, hsecond⟩ := List.getElem?_zip_eq_some.mp hi
    have hlength := (List.getElem?_eq_some_iff.mp hfirst).1
    rw [List.getElem?_rotate hlength] at hsecond
    exact ⟨i, hlength, hfirst, hsecond⟩
  · rintro ⟨i, hlength, hfirst, hsecond⟩
    refine List.mem_of_getElem? (i := i) (List.getElem?_zip_eq_some.mpr ⟨hfirst, ?_⟩)
    rw [List.getElem?_rotate hlength, hsecond]

theorem fst_mem_of_mem_cyclicEdges (hmem : edge ∈ cyclicEdges vertices) :
    edge.1 ∈ vertices := by
  obtain ⟨_, _, hfirst, _⟩ := mem_cyclicEdges.mp hmem
  exact List.mem_of_getElem? hfirst

theorem snd_mem_of_mem_cyclicEdges (hmem : edge ∈ cyclicEdges vertices) :
    edge.2 ∈ vertices := by
  obtain ⟨_, _, _, hsecond⟩ := mem_cyclicEdges.mp hmem
  exact List.mem_of_getElem? hsecond

theorem exists_edge_to {vertex : P} (hmem : vertex ∈ vertices) :
    ∃ before, (before, vertex) ∈ cyclicEdges vertices := by
  obtain ⟨i, hi⟩ := List.getElem?_of_mem hmem
  have hlength := (List.getElem?_eq_some_iff.mp hi).1
  have hprev : (i + vertices.length - 1) % vertices.length < vertices.length :=
    Nat.mod_lt _ (by omega)
  refine ⟨vertices[(i + vertices.length - 1) % vertices.length], mem_cyclicEdges.mpr
    ⟨_, hprev, List.getElem?_eq_getElem hprev, ?_⟩⟩
  rw [Nat.mod_add_mod, show i + vertices.length - 1 + 1 = i + vertices.length by omega,
    Nat.add_mod_right, Nat.mod_eq_of_lt hlength, hi]

theorem forall_of_edges {holds : P → Prop}
    (hedges : ∀ edge ∈ cyclicEdges vertices, holds edge.1 → holds edge.2) {start : P}
    (hmem : start ∈ vertices) (hstart : holds start) : ∀ vertex ∈ vertices, holds vertex := by
  obtain ⟨i, hi⟩ := List.getElem?_of_mem hmem
  have hlength := (List.getElem?_eq_some_iff.mp hi).1
  have hpos : 0 < vertices.length := by omega
  -- The steps from the start on.
  have hsteps (count : ℕ) :
      ∀ vertex, vertices[(i + count) % vertices.length]? = some vertex → holds vertex := by
    induction count with
    | zero =>
      intro vertex hvertex
      rw [Nat.add_zero, Nat.mod_eq_of_lt hlength, hi] at hvertex
      exact Option.some.inj hvertex ▸ hstart
    | succ count ih =>
      intro vertex hvertex
      have hbefore := List.getElem?_eq_getElem (Nat.mod_lt (i + count) hpos)
      refine hedges (_, vertex) (mem_cyclicEdges.mpr ⟨(i + count) % vertices.length,
        Nat.mod_lt _ hpos, hbefore, ?_⟩) (ih _ hbefore)
      rw [Nat.mod_add_mod, Nat.add_assoc, hvertex]
  intro vertex hvertex
  obtain ⟨j, hj⟩ := List.getElem?_of_mem hvertex
  have hjlength := (List.getElem?_eq_some_iff.mp hj).1
  refine hsteps (j + vertices.length - i) vertex ?_
  rw [show i + (j + vertices.length - i) = j + vertices.length by omega, Nat.add_mod_right,
    Nat.mod_eq_of_lt hjlength, hj]

theorem eq_of_edges_le {K : Type} [LinearOrder K] {value : P → K}
    (hedges : ∀ edge ∈ cyclicEdges vertices, value edge.2 ≤ value edge.1) {first second : P}
    (hfirst : first ∈ vertices) (hsecond : second ∈ vertices) : value first = value second := by
  have hle {start : P} (hstart : start ∈ vertices) :
      ∀ vertex ∈ vertices, value vertex ≤ value start :=
    forall_of_edges (fun edge hedge hbound => (hedges edge hedge).trans hbound) hstart le_rfl
  exact le_antisymm (hle hsecond first hfirst) (hle hfirst second hsecond)

theorem countP_zip_add {inside : P → Bool} {firsts seconds : List P}
    (hlength : firsts.length = seconds.length) :
    (firsts.zip seconds).countP (fun edge => !inside edge.1 && inside edge.2) +
        firsts.countP inside =
      (firsts.zip seconds).countP (fun edge => inside edge.1 && !inside edge.2) +
        seconds.countP inside := by
  induction firsts generalizing seconds with
  | nil =>
    cases seconds with
    | nil => rfl
    | cons second seconds => cases hlength
  | cons first firsts ih =>
    cases seconds with
    | nil => cases hlength
    | cons second seconds =>
      have hrest := ih (Nat.succ.inj hlength)
      rw [List.zip_cons_cons, List.countP_cons, List.countP_cons, List.countP_cons,
        List.countP_cons]
      cases inside first <;> cases inside second <;> simp <;> omega

theorem countP_into_eq_countP_out (vertices : List P) (inside : P → Bool) :
    (cyclicEdges vertices).countP (fun edge => !inside edge.1 && inside edge.2) =
      (cyclicEdges vertices).countP fun edge => inside edge.1 && !inside edge.2 := by
  have hcount := @countP_zip_add P inside vertices (vertices.rotate 1) (List.length_rotate ..).symm
  rw [(List.rotate_perm vertices 1).countP_eq] at hcount
  exact Nat.add_right_cancel hcount

end AutowareUniverse.Library.CyclicEdges

namespace AutowareUniverse.Library.ScanLine

/-! ## Scan lines -/

section

variable {α : Type*}

/-- The steps of a walk. -/
def sides (path : List α) : List (α × α) := path.zip path.tail

@[simp]
theorem sides_cons_cons (a b : α) (path : List α) :
    sides (a :: b :: path) = (a, b) :: sides (b :: path) :=
  rfl

@[simp]
theorem sides_singleton (a : α) : sides [a] = [] :=
  rfl

theorem even_countP_sides_iff {s : α → Prop} {changes : α × α → Bool} (a : α) (path : List α)
    (hchanges : ∀ side ∈ sides (a :: path), changes side = true ↔ ¬(s side.1 ↔ s side.2)) :
    Even ((sides (a :: path)).countP changes) ↔
      (s a ↔ s ((a :: path).getLast (List.cons_ne_nil a path))) := by
  induction path generalizing a with
  | nil => simp
  | cons b path ih =>
    rw [sides_cons_cons] at hchanges ⊢
    obtain ⟨hfirst, hrest⟩ := List.forall_mem_cons.mp hchanges
    have hlater := ih b hrest
    rw [List.getLast_cons (List.cons_ne_nil b path), List.countP_cons]
    by_cases hchange : changes (a, b) = true
    · have hdiffer := hfirst.mp hchange
      rw [if_pos hchange, Nat.even_add_one, hlater]
      tauto
    · have hsame := not_not.mp (mt hfirst.mpr hchange)
      rw [if_neg hchange, add_zero, hlater]
      tauto

theorem even_countP_sides {s : α → Prop} {changes : α × α → Bool} {a : α} {path : List α}
    (hclosed : (a :: path).getLast (List.cons_ne_nil a path) = a)
    (hchanges : ∀ side ∈ sides (a :: path), changes side = true ↔ ¬(s side.1 ↔ s side.2)) :
    Even ((sides (a :: path)).countP changes) := by
  rw [even_countP_sides_iff a path hchanges, hclosed]

end

/-! ## Cuts -/

variable {K : Type*} [LinearOrder K]

/-- A number is between the first and the second cut, or the third and the fourth, ... -/
def Covers : List K → K → Prop
  | upper :: lower :: ys, y => (lower ≤ y ∧ y < upper) ∨ Covers ys y
  | _, _ => False

def AllPairs (r : K → K → Prop) : List K → Prop
  | upper :: lower :: ys => r upper lower ∧ AllPairs r ys
  | _ => True

/-- How many cuts are above a number. -/
def countAbove (y : K) (ys : List K) : ℕ := ys.countP fun cut => decide (y < cut)

@[simp]
theorem countAbove_nil (y : K) : countAbove y [] = 0 :=
  rfl

theorem countAbove_cons_of_lt {y cut : K} (hcut : y < cut) (ys : List K) :
    countAbove y (cut :: ys) = countAbove y ys + 1 :=
  List.countP_cons_of_pos (decide_eq_true hcut)

theorem countAbove_cons_of_le {y cut : K} (hcut : cut ≤ y) (ys : List K) :
    countAbove y (cut :: ys) = countAbove y ys :=
  List.countP_cons_of_neg (by simpa using hcut)

theorem countAbove_append (y : K) (ys zs : List K) :
    countAbove y (ys ++ zs) = countAbove y ys + countAbove y zs :=
  List.countP_append

variable {ys : List K}

theorem countAbove_eq_zero {y : K} (hbelow : ∀ cut ∈ ys, cut ≤ y) :
    countAbove y ys = 0 := by
  apply List.countP_eq_zero.mpr
  intro cut hcut
  simpa using hbelow cut hcut

theorem countAbove_eq_length {y : K} (habove : ∀ cut ∈ ys, y < cut) :
    countAbove y ys = ys.length := by
  apply List.countP_eq_length.mpr
  intro cut hcut
  exact decide_eq_true (habove cut hcut)

theorem countAbove_le_length (y : K) (ys : List K) : countAbove y ys ≤ ys.length :=
  List.countP_le_length

theorem countAbove_lt_iff {y lower : K} (hlower : lower ≤ y) (ys : List K) :
    countAbove y ys < countAbove lower ys ↔ ∃ cut ∈ ys, lower < cut ∧ cut ≤ y := by
  induction ys with
  | nil => simp
  | cons cut ys ih =>
    simp only [List.mem_cons, exists_eq_or_imp]
    rcases lt_or_ge y cut with habove | hbelow
    · rw [countAbove_cons_of_lt habove, countAbove_cons_of_lt (hlower.trans_lt habove),
        Nat.add_lt_add_iff_right, ih]
      simp [habove.not_ge]
    · rw [countAbove_cons_of_le hbelow]
      rcases lt_or_ge lower cut with hbetween | hlow
      · have hle : countAbove y ys ≤ countAbove lower ys := by
          apply List.countP_mono_left
          intro other _ hother
          exact decide_eq_true (hlower.trans_lt (of_decide_eq_true hother))
        rw [countAbove_cons_of_lt hbetween]
        simp [hbetween, hbelow, Nat.lt_succ_of_le hle]
      · rw [countAbove_cons_of_le hlow, ih]
        simp [hlow.not_gt]

theorem exists_mem_of_covers {y : K} (hcovers : Covers ys y) :
    ∃ cut ∈ ys, y < cut := by
  induction ys, y using Covers.induct with
  | case1 upper lower ys y ih =>
    rw [Covers] at hcovers
    rcases hcovers with ⟨_, hupper⟩ | hlater
    · exact ⟨upper, List.mem_cons_self, hupper⟩
    · obtain ⟨cut, hcut, hlt⟩ := ih hlater
      exact ⟨cut, List.mem_cons_of_mem _ (List.mem_cons_of_mem _ hcut), hlt⟩
  | case2 ys y hshort =>
    rw [Covers] at hcovers
    · exact hcovers.elim
    · exact hshort

/-- The parts between the cuts, seen from above. -/
theorem covers_iff (hsorted : ys.Pairwise (· ≥ ·)) {y : K} (hy : y ∉ ys) :
    Covers ys y ↔ Odd (countAbove y ys) ∧ countAbove y ys < ys.length := by
  induction ys, y using Covers.induct with
  | case1 upper lower ys y ih =>
    obtain ⟨hupper, hrest⟩ := List.pairwise_cons.mp hsorted
    obtain ⟨hlower, hsorted⟩ := List.pairwise_cons.mp hrest
    rw [List.mem_cons, List.mem_cons, not_or, not_or] at hy
    obtain ⟨hneUpper, hneLower, hy⟩ := hy
    have hlater := ih hsorted hy
    rw [Covers, List.length_cons, List.length_cons]
    rcases lt_or_gt_of_ne hneLower with hboth | hbelow
    · rw [countAbove_cons_of_lt (hboth.trans_le (hupper lower List.mem_cons_self)),
        countAbove_cons_of_lt hboth, hlater, add_assoc, Nat.odd_add]
      simp [hboth.not_ge]
    -- all later cuts are below as well
    have hnone : countAbove y ys = 0 :=
      countAbove_eq_zero fun cut hcut => (hlower cut hcut).trans hbelow.le
    rw [hnone] at hlater
    rcases lt_or_gt_of_ne hneUpper with hfirst | hall
    · rw [countAbove_cons_of_lt hfirst, countAbove_cons_of_le hbelow.le, hnone]
      simp [hfirst, hbelow.le]
    · rw [countAbove_cons_of_le hall.le, countAbove_cons_of_le hbelow.le, hnone, hlater]
      simp [hall.not_gt]
  | case2 ys y hshort =>
    rcases ys with _ | ⟨cut, _ | ⟨lower, ys⟩⟩
    · simp [Covers]
    · have hle := countAbove_le_length y [cut]
      rw [Covers]
      constructor
      · exact False.elim
      · rintro ⟨hodd, hlt⟩
        rw [Nat.lt_one_iff.mp hlt] at hodd
        exact absurd hodd (by decide)
      · rintro upper lower ys hpair
        cases hpair
    · exact absurd rfl (hshort cut lower ys)

end AutowareUniverse.Library.ScanLine
