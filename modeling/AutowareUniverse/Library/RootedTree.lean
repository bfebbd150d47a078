import Mathlib.Data.List.Nodup
import Mathlib.Data.List.Perm.Subperm

/-!
# Trees that are stored by their parents

A tree is stored by a partial function to the parent, and possibly also by the
lists of the children.  Whatever reaches a root is on no cycle, and a vertex may
be moved below any vertex that is not below it.  The vertices below one vertex are
traversed by a list of pending vertices, in whatever order it is kept.
-/

namespace AutowareUniverse.Library.RootedTree

open Relation

variable {α : Type*}

/-- One step towards the root. -/
def IsParent (parent : α → Option α) (vertex above : α) : Prop :=
  parent vertex = some above

/-- The second vertex is the first one or above it. -/
def Reaches (parent : α → Option α) : α → α → Prop :=
  ReflTransGen (IsParent parent)

variable {parent : α → Option α} {root vertex above other : α}

theorem Reaches.head (hparent : parent vertex = some above)
    (hreaches : Reaches parent above root) : Reaches parent vertex root :=
  ReflTransGen.head hparent hreaches

theorem Reaches.not_cycle (hroot : parent root = none) (hreaches : Reaches parent vertex root) :
    ¬TransGen (IsParent parent) vertex vertex := by
  induction hreaches using ReflTransGen.head_induction_on with
  | refl =>
    intro hcycle
    obtain ⟨next, hnext, _⟩ := TransGen.head'_iff.mp hcycle
    rw [IsParent, hroot] at hnext
    cases hnext
  | @head vertex above hparent _ ih =>
    intro hcycle
    obtain ⟨next, hnext, hback⟩ := TransGen.head'_iff.mp hcycle
    have hsame : next = above := Option.some.inj (hnext.symm.trans hparent)
    rw [hsame] at hback
    exact ih (TransGen.tail' hback hparent)

section

variable {moved target : α} {parent' : α → Option α}

theorem Reaches.of_not_reaches (hframe : ∀ v, v ≠ moved → parent' v = parent v)
    (hreaches : Reaches parent vertex root) (hapart : ¬Reaches parent vertex moved) :
    Reaches parent' vertex root := by
  induction hreaches using ReflTransGen.head_induction_on with
  | refl => exact .refl
  | @head vertex above hparent _ ih =>
    have hne : vertex ≠ moved := by
      rintro rfl
      exact hapart .refl
    refine Reaches.head ((hframe vertex hne).trans hparent) (ih ?_)
    exact fun hbelow => hapart (Reaches.head hparent hbelow)

theorem Reaches.move (hframe : ∀ v, v ≠ moved → parent' v = parent v)
    (hmoved : parent' moved = some target) (htarget : Reaches parent target root)
    (hapart : ¬Reaches parent target moved) (hreaches : Reaches parent vertex root) :
    Reaches parent' vertex root := by
  induction hreaches using ReflTransGen.head_induction_on with
  | refl => exact .refl
  | @head vertex above hparent _ ih =>
    by_cases hne : vertex = moved
    · rw [hne]
      exact Reaches.head hmoved (htarget.of_not_reaches hframe hapart)
    · exact Reaches.head ((hframe vertex hne).trans hparent) ih

end

/-! ## Following the parents -/

inductive PathTo (parent : α → Option α) (root : α) : List α → Prop where
  | root : PathTo parent root [root]
  | step {vertex above : α} {path : List α} : parent vertex = some above →
      PathTo parent root (above :: path) → PathTo parent root (vertex :: above :: path)

theorem Reaches.exists_path (hreaches : Reaches parent vertex root) :
    ∃ path, PathTo parent root (vertex :: path) := by
  induction hreaches using ReflTransGen.head_induction_on with
  | refl => exact ⟨[], .root⟩
  | @head vertex above hparent _ ih =>
    obtain ⟨path, hpath⟩ := ih
    exact ⟨above :: path, .step hparent hpath⟩

namespace PathTo

variable {path : List α}

theorem reaches (hpath : PathTo parent root path) :
    ∀ vertex ∈ path.head?, ∀ above ∈ path, Reaches parent vertex above := by
  induction hpath with
  | root =>
    intro vertex hvertex above habove
    cases hvertex
    rw [List.mem_singleton.mp habove]
    exact .refl
  | step hparent _ ih =>
    intro vertex hvertex above habove
    cases hvertex
    rcases List.mem_cons.mp habove with rfl | hlater
    · exact .refl
    · exact Reaches.head hparent (ih _ rfl above hlater)

theorem root_mem (hpath : PathTo parent root path) : root ∈ path := by
  induction hpath with
  | root => exact List.mem_singleton_self _
  | step _ _ ih => exact List.mem_cons_of_mem _ ih

/-- A path to a root meets no vertex twice. -/
theorem nodup (hroot : parent root = none) (hpath : PathTo parent root path) :
    path.Nodup := by
  induction hpath with
  | root => exact List.nodup_singleton _
  | @step vertex above path hparent hrest ih =>
    refine List.nodup_cons.mpr ⟨fun hmet => ?_, ih⟩
    have habove : Reaches parent above root := hrest.reaches above rfl root hrest.root_mem
    exact Reaches.not_cycle hroot (habove.head hparent)
      (.head' hparent (hrest.reaches above rfl vertex hmet))

/-- The path depends on the parents of its vertices only. -/
theorem congr {parent' : α → Option α} (hpath : PathTo parent root path)
    (hsame : ∀ vertex ∈ path, parent' vertex = parent vertex) : PathTo parent' root path := by
  induction hpath with
  | root => exact .root
  | step hparent _ ih =>
    refine .step ((hsame _ List.mem_cons_self).trans hparent) (ih fun vertex hmem => ?_)
    exact hsame vertex (List.mem_cons_of_mem _ hmem)

/-- A path ends with its root. -/
theorem getLast_eq (hpath : PathTo parent root path) (hne : path ≠ []) :
    path.getLast hne = root := by
  induction hpath with
  | root => rfl
  | step _ _ ih => rw [List.getLast_cons (List.cons_ne_nil _ _), ih]

/-- What holds of each vertex and its parent holds along the path. -/
theorem isChain {related : α → α → Prop} (hpath : PathTo parent root path)
    (hrelated : ∀ vertex ∈ path, ∀ above, parent vertex = some above → related vertex above) :
    path.IsChain related := by
  induction hpath with
  | root => exact .singleton _
  | step hparent _ ih =>
    refine .cons_cons (hrelated _ List.mem_cons_self _ hparent) (ih fun vertex hmem => ?_)
    exact hrelated vertex (List.mem_cons_of_mem _ hmem)

end PathTo

def follow (parent : α → Option α) : ℕ → α → Option (List α)
  | 0, _ => none
  | fuel + 1, vertex =>
    match parent vertex with
    | none => some [vertex]
    | some above => (follow parent fuel above).map (vertex :: ·)

theorem PathTo.follow (hroot : parent root = none) {path : List α}
    (hpath : PathTo parent root (vertex :: path)) {fuel : ℕ} (hfuel : path.length < fuel) :
    follow parent fuel vertex = some (vertex :: path) := by
  obtain ⟨fuel, rfl⟩ : ∃ left, fuel = left + 1 := ⟨fuel - 1, by omega⟩
  induction path generalizing vertex fuel with
  | nil =>
    cases hpath
    rw [RootedTree.follow, hroot]
  | cons above path ih =>
    cases hpath with
    | step hparent hrest =>
      obtain ⟨fuel, rfl⟩ : ∃ left, fuel = left + 1 := by
        rw [List.length_cons] at hfuel
        exact ⟨fuel - 1, by omega⟩
      rw [RootedTree.follow, hparent]
      dsimp only
      rw [ih hrest fuel (by rw [List.length_cons] at hfuel; omega)]
      rfl

theorem PathTo.eq_of_follow (hroot : parent root = none) {path found : List α}
    (hpath : PathTo parent root (vertex :: path)) {fuel : ℕ}
    (hfound : RootedTree.follow parent fuel vertex = some found) : found = vertex :: path := by
  induction path generalizing vertex fuel found with
  | nil =>
    cases hpath
    cases fuel with
    | zero => cases hfound
    | succ fuel =>
      rw [RootedTree.follow, hroot] at hfound
      exact (Option.some.inj hfound).symm
  | cons above path ih =>
    cases hpath with
    | step hparent hrest =>
      cases fuel with
      | zero => cases hfound
      | succ fuel =>
        rw [RootedTree.follow, hparent] at hfound
        obtain ⟨rest, hrestFound, rfl⟩ := Option.map_eq_some_iff.mp hfound
        rw [ih hrest hrestFound]

structure Frontier (parent : α → Option α) (childs : α → List α) (property : α → Prop)
    (top : α) (visited pending : List α) : Prop where
  nodup : (visited ++ pending).Nodup
  top_mem : top ∈ visited ++ pending
  reaches : ∀ v ∈ visited ++ pending, Reaches parent v top
  property : ∀ v ∈ visited ++ pending, property v
  parents : ∀ v ∈ visited ++ pending, v ≠ top → ∃ p ∈ visited, parent v = some p
  closed : ∀ v ∈ visited, ∀ c ∈ childs v, c ∈ visited ++ pending

namespace Frontier

variable {childs : α → List α} {property : α → Prop} {top : α} {visited pending : List α}

theorem start (htop : property top) : Frontier parent childs property top [] [top] where
  nodup := List.nodup_singleton top
  top_mem := List.mem_singleton_self top
  reaches := by
    intro v hv
    rw [List.mem_singleton.mp hv]
    exact .refl
  property := by
    intro v hv
    rw [List.mem_singleton.mp hv]
    exact htop
  parents := fun v hv hne => (hne (List.mem_singleton.mp hv)).elim
  closed := fun v hv => by cases hv

/-- A child of a pending vertex was not met before: its parent would have been
visited. -/
theorem fresh {rest : List α}
    (hfrontier : Frontier parent childs property top visited (vertex :: rest))
    (hparent : ∀ c ∈ childs vertex, parent c = some vertex)
    (hacyclic : ¬TransGen (IsParent parent) top top) :
    ∀ c ∈ childs vertex, c ∉ visited ++ vertex :: rest := by
  intro c hchild hmet
  by_cases htop : c = top
  · rw [htop] at hchild
    have hvertex : vertex ∈ visited ++ vertex :: rest :=
      List.mem_append_right visited List.mem_cons_self
    exact hacyclic (.head' (hparent top hchild) (hfrontier.reaches vertex hvertex))
  · obtain ⟨p, hp, hvp⟩ := hfrontier.parents c hmet htop
    rw [hparent c hchild] at hvp
    cases hvp
    exact (List.disjoint_of_nodup_append hfrontier.nodup) hp List.mem_cons_self

/-- One vertex is visited, and its children become pending. -/
theorem step {rest next : List α}
    (hfrontier : Frontier parent childs property top visited (vertex :: rest))
    (hparent : ∀ c ∈ childs vertex, parent c = some vertex)
    (hnodup : (childs vertex).Nodup) (hproperty : ∀ c ∈ childs vertex, property c)
    (hacyclic : ¬TransGen (IsParent parent) top top) (hnext : next.Perm (rest ++ childs vertex)) :
    Frontier parent childs property top (vertex :: visited) next := by
  have hvertex : vertex ∈ visited ++ vertex :: rest :=
    List.mem_append_right visited List.mem_cons_self
  have hall : (vertex :: visited ++ next).Perm
      (visited ++ vertex :: rest ++ childs vertex) := by
    refine (List.Perm.append_left (vertex :: visited) hnext).trans ?_
    rw [← List.append_assoc]
    exact List.perm_middle.symm.append_right (childs vertex)
  have hmem : ∀ {v}, v ∈ vertex :: visited ++ next ↔
      v ∈ visited ++ vertex :: rest ∨ v ∈ childs vertex := by
    intro v
    rw [hall.mem_iff, List.mem_append]
  refine ⟨?_, hmem.mpr (.inl hfrontier.top_mem), ?_, ?_, ?_, ?_⟩
  · rw [hall.nodup_iff]
    exact hfrontier.nodup.append hnodup fun c hmet hchild =>
      hfrontier.fresh hparent hacyclic c hchild hmet
  · intro v hv
    rcases hmem.mp hv with hmet | hchild
    · exact hfrontier.reaches v hmet
    · exact Reaches.head (hparent v hchild) (hfrontier.reaches vertex hvertex)
  · intro v hv
    rcases hmem.mp hv with hmet | hchild
    · exact hfrontier.property v hmet
    · exact hproperty v hchild
  · intro v hv hne
    rcases hmem.mp hv with hmet | hchild
    · obtain ⟨p, hp, hvp⟩ := hfrontier.parents v hmet hne
      exact ⟨p, List.mem_cons_of_mem vertex hp, hvp⟩
    · exact ⟨vertex, List.mem_cons_self, hparent v hchild⟩
  · intro v hv c hc
    rcases List.mem_cons.mp hv with rfl | hvisited
    · exact hmem.mpr (.inr hc)
    · exact hmem.mpr (.inl (hfrontier.closed v hvisited c hc))

/-- A traversal inside a list is no longer than the list. -/
theorem length_le (hfrontier : Frontier parent childs property top visited pending)
    {vertices : List α} (hinside : ∀ v, property v → v ∈ vertices) :
    visited.length + pending.length ≤ vertices.length := by
  rw [← List.length_append]
  exact (hfrontier.nodup.subperm fun v hv => hinside v (hfrontier.property v hv)).length_le

end Frontier

end AutowareUniverse.Library.RootedTree
